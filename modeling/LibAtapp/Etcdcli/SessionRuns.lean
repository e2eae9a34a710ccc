import LibAtapp.Etcdcli.HostRemoval
import LibAtapp.Etcdcli.SessionMoves

set_option autoImplicit false

/-! # What holds of a session at any time

Each kind of move keeps that the owner hears of running and of not running in turns, that there is a
lease only while the cluster runs, that the lease is not asked for too often, and that the selected
host is one of the known ones. Each step is a chain of moves, so that all of this holds at any time,
whatever fails. -/

namespace LibAtapp

namespace EtcdSession

/-- The callbacks, the last first, came in turns, and the last one tells `running`. Before the first
    one the cluster does not run. -/
def Told : Bool → List Bool → Prop
  | running, [] => running = false
  | running, v :: told => v = running ∧ Told (!v) told

/-- The lease is asked for at the pace: the times, the last first, are more than that apart, and the
    next one is not before `next`. -/
structure Paced (pace next : Int) (times : List Int) : Prop where
  before : ∀ time ∈ times, time + pace ≤ next
  apart : times.Pairwise fun later earlier => earlier + pace < later

/-- The flags fit the callbacks, the lease and the request for it. -/
structure FlagsFit (s : EtcdSession) : Prop where
  told : Told s.cluster.running s.upDown
  asks : s.cluster.rpcKeepalive.isSome → s.cluster.curlMulti = true ∧ s.cluster.closing = false
  lease : s.cluster.conf.lease ≠ 0 →
    s.cluster.running = true ∧ s.cluster.curlMulti = true ∧ s.cluster.closing = false

/-- The selected host is a known one. The known hosts that are configured by hand are configured
    ones, and nobody is asked for others. -/
structure HostsFit (s : EtcdSession) : Prop where
  selected : s.cluster.conf.hosts ≠ [] → s.cluster.conf.pathNode ∈ s.cluster.conf.hosts
  empty : s.cluster.conf.hosts = [] → s.cluster.conf.pathNode = []
  manual : EtcdCluster.Manual s.cluster.conf →
    s.cluster.rpcUpdateMembers = none ∧ s.cluster.conf.hosts ⊆ s.cluster.conf.confHosts

/-- The lease is asked for at its pace. -/
def LeasePaced (s : EtcdSession) : Prop :=
  Paced (EtcdCluster.leasePace s.cluster.conf) s.cluster.conf.keepaliveNextUpdateTime s.leaseTimes

section

variable {g : Prop} {s s' : EtcdSession}

/-! ## What a move leaves alone -/

theorem setFlagRunning_eq (s : EtcdSession) (v : Bool) : s.setFlagRunning v = { s with
    cluster := { s.cluster with running := v }
    upDown := (s.setFlagRunning v).upDown } := by
  unfold setFlagRunning
  split
  · next h =>
    rw [h]
  · rfl

theorem takeLease_eq (s : EtcdSession) (lease : Int) : s.takeLease lease = { s with
    cluster := { s.cluster with
      rpcKeepalive := none
      running := s.cluster.running || !s.cluster.closing
      conf := { s.cluster.conf with lease } }
    upDown := (s.takeLease lease).upDown } := by
  unfold takeLease
  cases hrunning : s.cluster.running <;> cases hclosing : s.cluster.closing <;>
    simp [setFlagRunning, hrunning, hclosing]

theorem shut_eq (s : EtcdSession) : s.shut = { s with
    cluster := { s.cluster with
      closing := true, running := false, rpcUpdateMembers := none, rpcKeepalive := none
      conf := { s.cluster.conf with
        lease := if s.cluster.curlMulti then 0 else s.cluster.conf.lease } }
    rpcAuthenticate := none
    upDown := (s.setFlagRunning false).upDown } := by
  unfold shut
  dsimp only
  rw [setFlagRunning_eq]

theorem createRequestAuthAuthenticate_eq (s : EtcdSession) (now : Int) (outcome : StartOutcome) :
    s.createRequestAuthAuthenticate now outcome = { s with
      auth := (s.createRequestAuthAuthenticate now outcome).auth
      rpcAuthenticate := (s.createRequestAuthAuthenticate now outcome).rpcAuthenticate } := by
  unfold createRequestAuthAuthenticate
  cases outcome <;> split_ifs <;> rfl

theorem createRequestAuthUserGet_eq (s : EtcdSession) (now : Int) (outcome : StartOutcome) :
    s.createRequestAuthUserGet now outcome = { s with
      auth := (s.createRequestAuthUserGet now outcome).auth
      rpcAuthenticate := (s.createRequestAuthUserGet now outcome).rpcAuthenticate } := by
  unfold createRequestAuthUserGet
  cases outcome <;> split_ifs <;> rfl

/-! ## Flags -/

theorem told_setFlagRunning {v : Bool} (h : Told s.cluster.running s.upDown) :
    Told v (s.setFlagRunning v).upDown := by
  unfold setFlagRunning
  split
  · next heq =>
    rw [heq]
    exact h
  · next hne =>
    refine ⟨rfl, ?_⟩
    rwa [show (!v) = s.cluster.running by
      cases v <;> cases hrunning : s.cluster.running <;> simp_all]

theorem told_takeLease (lease : Int) (h : Told s.cluster.running s.upDown) :
    Told (s.cluster.running || !s.cluster.closing) (s.takeLease lease).upDown := by
  unfold takeLease
  dsimp only
  by_cases hup : (!s.cluster.running) = true ∧ (!s.cluster.closing) = true
  · rw [if_pos hup, hup.2, Bool.or_true]
    exact told_setFlagRunning
      (s := { s with cluster := { s.cluster with rpcKeepalive := none } }) h
  · rw [if_neg hup]
    rwa [show (s.cluster.running || !s.cluster.closing) = s.cluster.running by
      cases hrunning : s.cluster.running <;> simp_all]

theorem Move.flagsFit (hmove : Move g s s') (h : s.FlagsFit) : s'.FlagsFit := by
  obtain ⟨htold, hasks, hlease⟩ := h
  cases hmove with
  | lists cluster checked ready hlists =>
    constructor <;> rw [hlists] <;> assumption
  | members draw outcome cluster hrequest hgain =>
    cases hrequest <;> exact ⟨htold, hasks, hlease⟩
  | authenticate now outcome hgain =>
    rw [createRequestAuthAuthenticate_eq]
    exact ⟨htold, hasks, hlease⟩
  | userGet now outcome hauth =>
    rw [createRequestAuthUserGet_eq]
    exact ⟨htold, hasks, hlease⟩
  | lease now outcome cluster hrequest hgain =>
    have hopen : s.cluster.curlMulti = true ∧ s.cluster.closing = false :=
      ⟨hrequest.asks.multi, hrequest.asks.opened⟩
    constructor <;> rw [setCluster] <;> dsimp only <;> rw [hrequest.shape]
    · exact htold
    · exact fun _ => hopen
    · exact hlease
  | leaseFailed hloss => exact ⟨htold, fun hsome => absurd hsome (by simp), hlease⟩
  | granted lease hrpc hne =>
    rw [takeLease_eq]
    refine ⟨told_takeLease lease htold, fun hsome => absurd hsome (by simp), fun _ => ?_⟩
    obtain ⟨hmulti, hopen⟩ := hasks hrpc
    exact ⟨by simp [hopen], hmulti, hopen⟩
  | lost hloss => exact ⟨htold, hasks, fun hne => absurd rfl hne⟩
  | up hopen =>
    rw [setFlagRunning_eq]
    exact ⟨told_setFlagRunning htold, hasks, fun hne => ⟨rfl, (hlease hne).2⟩⟩
  | init => exact ⟨htold, fun _ => ⟨rfl, rfl⟩, fun hne => ⟨(hlease hne).1, rfl, rfl⟩⟩
  | shut hloss =>
    rw [shut_eq]
    refine ⟨told_setFlagRunning htold, fun hsome => absurd hsome (by simp), fun hne => ?_⟩
    -- a lease that is left would be one of a cluster that was never opened
    dsimp only at hne
    split at hne
    · exact absurd rfl hne
    · next hmulti => exact absurd (hlease hne).2.1 hmulti
  | _ => exact ⟨htold, hasks, hlease⟩

/-! ## Hosts -/

theorem Move.hostsFit (hmove : Move g s s') (h : s.HostsFit) : s'.HostsFit := by
  obtain ⟨hselected, hempty, hmanual⟩ := h
  cases hmove with
  | lists cluster checked ready hlists =>
    constructor <;> rw [hlists] <;> assumption
  | members draw outcome cluster hrequest hgain =>
    cases hrequest with
    | skipped hskip => exact ⟨hselected, hempty, hmanual⟩
    | refilled next hasks hman hfill =>
      exact ⟨fun hne => EtcdCluster.pickHost_mem hne draw, fun hnil => absurd hnil hman.2,
        fun _ => ⟨rfl, List.Subset.refl _⟩⟩
    | trusted next hasks hman hhosts =>
      exact ⟨hselected, hempty, fun hman => ⟨rfl, (hmanual hman).2⟩⟩
    | asked next request hasks hauto hstarted =>
      exact ⟨hselected, hempty, fun hman => absurd hman hauto⟩
    | failed next hasks hauto hfailed =>
      exact ⟨hselected, hempty, fun hman => absurd hman hauto⟩
  | dropped hosts pathNode hsub hpick hloss =>
    refine ⟨fun hne => ?_, fun hnil => ?_, fun hman => ?_⟩
    · rcases hpick with ⟨rfl, rfl⟩ | ⟨draw, rfl⟩
      · exact hselected hne
      · exact EtcdCluster.pickHost_mem hne draw
    · rcases hpick with ⟨rfl, rfl⟩ | ⟨draw, rfl⟩
      · exact hempty hnil
      · rw [show hosts = [] from hnil]
        rfl
    · exact ⟨(hmanual hman).1, List.Subset.trans hsub (hmanual hman).2⟩
  | known hosts pathNode next hrpc hpick hgain =>
    refine ⟨fun hne => ?_, fun hnil => ?_, fun hman => ?_⟩
    · rcases hpick with ⟨-, hmem⟩ | ⟨draw, rfl⟩
      · exact hmem
      · exact EtcdCluster.pickHost_mem hne draw
    · obtain rfl : hosts = [] := hnil
      rcases hpick with ⟨-, hmem⟩ | ⟨draw, rfl⟩
      · cases hmem
      · rfl
    · rw [(hmanual hman).1] at hrpc
      cases hrpc
  | membersFailed hloss => exact ⟨hselected, hempty, fun hman => ⟨rfl, (hmanual hman).2⟩⟩
  | authenticate now outcome hgain =>
    rw [createRequestAuthAuthenticate_eq]
    exact ⟨hselected, hempty, hmanual⟩
  | userGet now outcome hauth =>
    rw [createRequestAuthUserGet_eq]
    exact ⟨hselected, hempty, hmanual⟩
  | lease now outcome cluster hrequest hgain =>
    constructor <;> rw [setCluster] <;> dsimp only <;> rw [hrequest.shape] <;> assumption
  | granted lease hrpc hne =>
    rw [takeLease_eq]
    exact ⟨hselected, hempty, hmanual⟩
  | up hopen =>
    rw [setFlagRunning_eq]
    exact ⟨hselected, hempty, hmanual⟩
  | shut hloss =>
    rw [shut_eq]
    exact ⟨hselected, hempty, fun hman => ⟨rfl, (hmanual hman).2⟩⟩
  | _ => exact ⟨hselected, hempty, hmanual⟩

/-! ## Pace -/

/-- A time that is due is far enough from those before. -/
theorem Paced.cons {pace next next' now : Int} {times : List Int} (hpace : 0 < pace)
    (h : Paced pace next times) (hdue : next < now) (hnext : now + pace ≤ next') :
    Paced pace next' (now :: times) where
  before := by
    intro time htime
    rcases List.mem_cons.1 htime with rfl | htime
    · exact hnext
    · have hbefore := h.before time htime
      omega
  apart := List.pairwise_cons.2 ⟨fun time htime => (h.before time htime).trans_lt hdue, h.apart⟩

theorem Move.leasePaced (hmove : Move g s s') (h : s.LeasePaced) : s'.LeasePaced := by
  unfold LeasePaced at *
  cases hmove with
  | lists cluster checked ready hlists =>
    dsimp only
    rw [hlists]
    exact h
  | members draw outcome cluster hrequest hgain => cases hrequest <;> exact h
  | authenticate now outcome hgain =>
    rw [createRequestAuthAuthenticate_eq]
    exact h
  | userGet now outcome hauth =>
    rw [createRequestAuthUserGet_eq]
    exact h
  | lease now outcome cluster hrequest hgain =>
    have hpace := EtcdCluster.leasePace_pos s.cluster.conf
    have hdue := hrequest.asks.due
    have hnext := hrequest.next
    have hconf : EtcdCluster.leasePace cluster.conf = EtcdCluster.leasePace s.cluster.conf := by
      rw [hrequest.shape]
      rfl
    rw [setCluster, if_neg (by omega)]
    dsimp only
    rw [hconf]
    exact h.cons hpace hdue hnext
  | granted lease hrpc hne =>
    rw [takeLease_eq]
    exact h
  | up hopen =>
    rw [setFlagRunning_eq]
    exact h
  | shut hloss =>
    rw [shut_eq]
    exact h
  | _ => exact h

/-! ## Settings -/

/-- What nobody changes after `init`. -/
def settings (s : EtcdSession) : List Bytes × Bool × Int × Int :=
  (s.cluster.conf.confHosts, s.cluster.conf.autoUpdateHosts, s.cluster.conf.keepaliveInterval,
    s.cluster.conf.keepaliveRetryInterval)

theorem Move.settings_eq (hmove : Move g s s') : s'.settings = s.settings := by
  unfold settings
  cases hmove with
  | lists cluster checked ready hlists =>
    dsimp only
    rw [hlists]
  | members draw outcome cluster hrequest hgain => cases hrequest <;> rfl
  | authenticate now outcome hgain => rw [createRequestAuthAuthenticate_eq]
  | userGet now outcome hauth => rw [createRequestAuthUserGet_eq]
  | lease now outcome cluster hrequest hgain =>
    dsimp only [setCluster]
    rw [hrequest.shape]
  | granted lease hrpc hne => rw [takeLease_eq]
  | up hopen => rw [setFlagRunning_eq]
  | shut hloss => rw [shut_eq]
  | _ => rfl

theorem leasePace_eq_of_settings (h : s'.settings = s.settings) :
    EtcdCluster.leasePace s'.cluster.conf = EtcdCluster.leasePace s.cluster.conf := by
  simp only [settings, Prod.mk.injEq] at h
  rw [EtcdCluster.leasePace, EtcdCluster.leasePace, h.2.2.1, h.2.2.2]

/-! ## Runs -/

/-- What holds of a session at any time. -/
structure Fits (s : EtcdSession) : Prop where
  flags : s.FlagsFit
  hosts : s.HostsFit
  paced : s.LeasePaced

theorem Moves.fits (hmoves : Moves g s s') (h : s.Fits) : s'.Fits := by
  induction hmoves with
  | refl => exact h
  | tail _ hmove ih => exact ⟨hmove.flagsFit ih.flags, hmove.hostsFit ih.hosts,
      hmove.leasePaced ih.paced⟩

theorem Moves.settings_eq (hmoves : Moves g s s') : s'.settings = s.settings := by
  induction hmoves with
  | refl => rfl
  | tail _ hmove ih => exact hmove.settings_eq.trans ih

theorem settings_run (codec : SessionCodec) (s : EtcdSession) (steps : List SessionStep) :
    (Run.run (step codec) s steps).settings = s.settings := by
  have hstep : ∀ s' i, s'.settings = s.settings → (step codec s' i).settings = s.settings :=
    fun s' i h => (step_moves codec s' i).settings_eq.trans h
  exact Run.invariant_all _ hstep rfl steps

theorem fits_step (codec : SessionCodec) (s : EtcdSession) (i : SessionStep) (h : s.Fits) :
    (step codec s i).Fits :=
  (step_moves codec s i).fits h

theorem fits_initial (conf : ClusterConf) (auth : AuthConf) : (initial conf auth).Fits where
  flags := ⟨rfl, fun hsome => absurd hsome (by simp [initial]), fun hne => absurd rfl hne⟩
  hosts := ⟨fun hne => absurd rfl hne, fun _ => rfl, fun _ => ⟨rfl, List.nil_subset _⟩⟩
  paced := ⟨fun _ hmem => absurd hmem List.not_mem_nil, List.Pairwise.nil⟩

theorem fits_run (codec : SessionCodec) (conf : ClusterConf) (auth : AuthConf)
    (steps : List SessionStep) : (Run.run (step codec) (initial conf auth) steps).Fits :=
  Run.invariant_all _ (fits_step codec) (fits_initial conf auth) steps

/-! ## The callbacks -/

theorem Told.head {running : Bool} {told : List Bool} (h : Told running told) :
    told.head?.getD false = running := by
  cases told with
  | nil => exact h.symm
  | cons v told => exact h.1

/-- Two callbacks behind each other are of different kinds. -/
theorem Told.turns {running : Bool} {told : List Bool} (h : Told running told) :
    told.IsChain (· ≠ ·) := by
  induction told generalizing running with
  | nil => exact .nil
  | cons v told ih =>
    obtain ⟨rfl, htold⟩ := h
    cases told with
    | nil => exact .singleton _
    | cons w told =>
      refine .cons_cons ?_ (ih htold)
      rw [htold.1]
      cases v <;> decide

/-- The first callback is for running. -/
theorem Told.first {running : Bool} {told : List Bool} (h : Told running told) :
    told.getLast? ≠ some false := by
  induction told generalizing running with
  | nil => simp
  | cons v told ih =>
    obtain ⟨rfl, htold⟩ := h
    cases told with
    | nil =>
      rw [show v = true by simpa [Told] using htold]
      decide
    | cons w told =>
      rw [List.getLast?_cons_cons]
      exact ih htold

/-- **The session is sound at any time.** Whatever happens to a cluster from its configuration on,
    whatever fails and whatever the answers are: the owner hears of running and of not running in
    turns, first of running, and the last it heard is so. There is a lease only while the cluster is
    open and runs. Two requests for a lease are more than the shorter of its intervals apart. And
    the selected host is a known one, unless none is known. -/
theorem always_sessionSound (codec : SessionCodec) (conf : ClusterConf) (auth : AuthConf)
    (steps : List SessionStep) :
    Run.Always (step codec)
      (fun s =>
        (s.upDown.IsChain (· ≠ ·) ∧ s.upDown.getLast? ≠ some false ∧
          s.upDown.head?.getD false = s.cluster.running) ∧
        (s.cluster.conf.lease ≠ 0 → s.cluster.running = true ∧ s.cluster.closing = false) ∧
        s.leaseTimes.Pairwise (fun later earlier =>
          earlier + EtcdCluster.leasePace conf < later) ∧
        (s.cluster.conf.hosts ≠ [] → s.cluster.conf.pathNode ∈ s.cluster.conf.hosts) ∧
        (s.cluster.conf.hosts = [] → s.cluster.conf.pathNode = []))
      (initial conf auth) steps := by
  intro front _
  obtain ⟨hflags, hhosts, hpaced⟩ := fits_run codec conf auth front
  have hpace : EtcdCluster.leasePace (Run.run (step codec) (initial conf auth) front).cluster.conf =
      EtcdCluster.leasePace conf :=
    leasePace_eq_of_settings (settings_run codec (initial conf auth) front)
  refine ⟨⟨hflags.told.turns, hflags.told.first, hflags.told.head⟩, fun hne => ?_,
    hpace ▸ hpaced.apart, hhosts.selected, hhosts.empty⟩
  exact ⟨(hflags.lease hne).1, (hflags.lease hne).2.2⟩

end

end EtcdSession

end LibAtapp
