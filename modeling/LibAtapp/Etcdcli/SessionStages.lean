import LibAtapp.Etcdcli.SessionRuns

set_option autoImplicit false

/-! # The stages of a session

A session gets up in stages: a host is selected, then it is authorized, then it has a lease. The
request for `/v3/auth/user/get` counts as a stage of its own, because no token is asked for while it
is in flight. Here is what a move that takes nothing back does to the stages. -/

namespace LibAtapp

namespace EtcdSession

/-- `AsksUser`, computed. -/
def asksUser (s : EtcdSession) : Bool :=
  match s.rpcAuthenticate with
  | some ⟨_, .userGet _, _⟩ => true
  | _ => false

theorem asksUser_of_body {s : EtcdSession} {request : AuthRequest}
    (hrpc : s.rpcAuthenticate = some request) :
    s.asksUser = true ∧ (∃ name, request.body = .userGet name) ∨
      s.asksUser = false ∧ ∃ name password, request.body = .authenticate name password := by
  obtain ⟨url, body, timeoutMs⟩ := request
  unfold asksUser
  rw [hrpc]
  cases body with
  | userGet name => exact Or.inl ⟨rfl, name, rfl⟩
  | authenticate name password => exact Or.inr ⟨rfl, name, password, rfl⟩

theorem AsksUser.computed {s : EtcdSession} (h : s.AsksUser) : s.asksUser = true := by
  obtain ⟨request, name, hrpc, hbody⟩ := h
  rcases asksUser_of_body hrpc with ⟨h, -⟩ | ⟨-, _, _, hbody'⟩
  · exact h
  · cases hbody.symm.trans hbody'

theorem asksUser_eq_false_of_none {s : EtcdSession} (h : s.rpcAuthenticate = none) :
    s.asksUser = false := by
  rw [asksUser, h]

/-- The stage: no host is selected, `/v3/auth/user/get` is asked for without a token, there is no
    token, there is no lease, and all is there. -/
def rank (s : EtcdSession) : ℕ :=
  if s.cluster.conf.pathNode = [] then 0
  else if s.checkAuthorization = false then if s.asksUser then 1 else 2
  else if s.cluster.conf.lease = 0 then 3 else 4

/-- What is missing is asked for. -/
structure Asked (s : EtcdSession) : Prop where
  members : s.rank = 0 → s.cluster.rpcUpdateMembers.isSome
  token : s.rank = 2 → s.rpcAuthenticate.isSome
  lease : s.rank = 3 → s.cluster.rpcKeepalive.isSome

/-- What is missing may be asked for after the time `d`. -/
structure Waits (s : EtcdSession) (d : Int) : Prop where
  members : s.rank = 0 → s.cluster.conf.etcdMembersNextUpdateTime ≤ d
  token : s.rank = 2 → s.auth.authorizationNextUpdateTime ≤ d
  lease : s.rank = 3 → s.cluster.conf.keepaliveNextUpdateTime ≤ d

section

variable {s s' s'' : EtcdSession}

theorem rank_eq_zero_iff : s.rank = 0 ↔ s.cluster.conf.pathNode = [] := by
  unfold rank
  split_ifs <;> simp_all

theorem rank_eq_one_iff : s.rank = 1 ↔
    s.cluster.conf.pathNode ≠ [] ∧ s.checkAuthorization = false ∧ s.asksUser = true := by
  unfold rank
  split_ifs <;> simp_all

theorem rank_eq_two_iff : s.rank = 2 ↔
    s.cluster.conf.pathNode ≠ [] ∧ s.checkAuthorization = false ∧ s.asksUser = false := by
  unfold rank
  split_ifs <;> simp_all

theorem rank_eq_three_iff : s.rank = 3 ↔
    s.cluster.conf.pathNode ≠ [] ∧ s.checkAuthorization = true ∧ s.cluster.conf.lease = 0 := by
  unfold rank
  split_ifs <;> simp_all

theorem four_le_rank_iff : 4 ≤ s.rank ↔
    s.cluster.conf.pathNode ≠ [] ∧ s.checkAuthorization = true ∧ s.cluster.conf.lease ≠ 0 := by
  unfold rank
  split_ifs <;> simp_all

theorem three_le_rank (hhost : s.cluster.conf.pathNode ≠ []) (hauth : s.checkAuthorization = true) :
    3 ≤ s.rank := by
  rw [rank, if_neg hhost, if_neg (by simp [hauth])]
  split_ifs <;> omega

theorem rank_le_two (hauth : s.checkAuthorization = false) : s.rank ≤ 2 := by
  rw [rank, if_pos hauth]
  split_ifs <;> omega

/-! ## Getting on -/

/-- From one state to the other no stage is lost. While a stage is not passed, what is asked for
    stays asked for, and may be asked for as early. -/
structure Advance (s s' : EtcdSession) : Prop where
  rises : s.rank ≤ s'.rank
  holds : s'.rank = s.rank → s.Asked → s'.Asked
  delays : s'.rank = s.rank → ∀ d, s.Waits d → s'.Waits d ∨ s'.Asked

theorem Advance.refl (s : EtcdSession) : Advance s s :=
  ⟨le_rfl, fun _ h => h, fun _ _ h => Or.inl h⟩

theorem Advance.trans (h : Advance s s') (h' : Advance s' s'') : Advance s s'' := by
  have hsame : s''.rank = s.rank → s'.rank = s.rank ∧ s''.rank = s'.rank := by
    have hfirst := h.rises
    have hlast := h'.rises
    omega
  refine ⟨h.rises.trans h'.rises, fun heq hasked => ?_, fun heq d hwaits => ?_⟩
  · exact h'.holds (hsame heq).2 (h.holds (hsame heq).1 hasked)
  · rcases h.delays (hsame heq).1 d hwaits with hwaits | hasked
    · exact h'.delays (hsame heq).2 d hwaits
    · exact Or.inr (h'.holds (hsame heq).2 hasked)

/-- One stage with its request and the time of the next one: it is not lost, the request stays, and
    the time too, unless there is a request. -/
structure Holds {α : Type} (up up' : Prop) (rpc rpc' : Option α) (time time' : Int) : Prop where
  up : up → up'
  asked : ¬ up' → rpc.isSome → rpc'.isSome
  time : ¬ up' → time' = time ∨ rpc'.isSome

theorem Holds.refl {α : Type} (up : Prop) (rpc : Option α) (time : Int) :
    Holds up up rpc rpc time time :=
  ⟨id, fun _ h => h, fun _ => Or.inl rfl⟩

theorem Holds.of_up {α : Type} {up up' : Prop} {rpc rpc' : Option α} {time time' : Int} (h : up') :
    Holds up up' rpc rpc' time time' :=
  ⟨fun _ => h, fun hnot => absurd h hnot, fun hnot => absurd h hnot⟩

theorem Holds.of_asked {α : Type} {up up' : Prop} {rpc rpc' : Option α} {time time' : Int}
    (hup : up → up') (h : rpc'.isSome) : Holds up up' rpc rpc' time time' :=
  ⟨hup, fun _ _ => h, fun _ => Or.inr h⟩

/-- The stage with a host. -/
def HostHolds (s s' : EtcdSession) : Prop :=
  Holds (s.cluster.conf.pathNode ≠ []) (s'.cluster.conf.pathNode ≠ [])
    s.cluster.rpcUpdateMembers s'.cluster.rpcUpdateMembers
    s.cluster.conf.etcdMembersNextUpdateTime s'.cluster.conf.etcdMembersNextUpdateTime

/-- The stage with a token, once `/v3/auth/user/get` is not in the way. -/
def TokenHolds (s s' : EtcdSession) : Prop :=
  Holds (s.checkAuthorization = true) (s'.checkAuthorization = true)
    s.rpcAuthenticate s'.rpcAuthenticate
    s.auth.authorizationNextUpdateTime s'.auth.authorizationNextUpdateTime

/-- The stage with a lease. -/
def LeaseHolds (s s' : EtcdSession) : Prop :=
  Holds (s.cluster.conf.lease ≠ 0) (s'.cluster.conf.lease ≠ 0)
    s.cluster.rpcKeepalive s'.cluster.rpcKeepalive
    s.cluster.conf.keepaliveNextUpdateTime s'.cluster.conf.keepaliveNextUpdateTime

/-- No stage is lost where each of them holds. -/
theorem Advance.of_holds (host : HostHolds s s')
    (token : s.checkAuthorization = true → s'.checkAuthorization = true)
    (user : s'.checkAuthorization = false → s.asksUser = false →
      s'.asksUser = false ∧ TokenHolds s s')
    (lease : LeaseHolds s s') : Advance s s' := by
  by_cases hhost : s.cluster.conf.pathNode = []
  · -- only the host matters
    have hrank : s.rank = 0 := rank_eq_zero_iff.2 hhost
    refine ⟨hrank ▸ Nat.zero_le _, fun heq hasked => ?_, fun heq d hwaits => ?_⟩
    · have hnot : ¬ s'.cluster.conf.pathNode ≠ [] :=
        not_not.2 (rank_eq_zero_iff.1 (heq.trans hrank))
      refine ⟨fun _ => host.asked hnot (hasked.members hrank), ?_, ?_⟩ <;> omega
    · have hnot : ¬ s'.cluster.conf.pathNode ≠ [] :=
        not_not.2 (rank_eq_zero_iff.1 (heq.trans hrank))
      rcases host.time hnot with htime | hsome
      · refine Or.inl ⟨fun _ => htime ▸ hwaits.members hrank, ?_, ?_⟩ <;> omega
      · refine Or.inr ⟨fun _ => hsome, ?_, ?_⟩ <;> omega
  have hhost' := host.up hhost
  cases hcheck' : s'.checkAuthorization with
  | false =>
    have hcheck : s.checkAuthorization = false := by
      cases hcheck : s.checkAuthorization with
      | false => rfl
      | true => cases hcheck'.symm.trans (token hcheck)
    cases huser : s.asksUser with
    | true =>
      have hrank : s.rank = 1 := rank_eq_one_iff.2 ⟨hhost, hcheck, huser⟩
      have hpos : s'.rank ≠ 0 := fun h => hhost' (rank_eq_zero_iff.1 h)
      refine ⟨by omega, fun heq _ => ⟨?_, ?_, ?_⟩, fun heq d _ => Or.inl ⟨?_, ?_, ?_⟩⟩ <;> omega
    | false =>
      obtain ⟨huser', htoken⟩ := user hcheck' huser
      have hrank : s.rank = 2 := rank_eq_two_iff.2 ⟨hhost, hcheck, huser⟩
      have hrank' : s'.rank = 2 := rank_eq_two_iff.2 ⟨hhost', hcheck', huser'⟩
      have hnot : ¬ s'.checkAuthorization = true := by simp [hcheck']
      refine ⟨by omega, fun heq hasked => ?_, fun heq d hwaits => ?_⟩
      · refine ⟨?_, fun _ => htoken.asked hnot (hasked.token hrank), ?_⟩ <;> omega
      · rcases htoken.time hnot with htime | hsome
        · refine Or.inl ⟨?_, fun _ => htime ▸ hwaits.token hrank, ?_⟩ <;> omega
        · refine Or.inr ⟨?_, fun _ => hsome, ?_⟩ <;> omega
  | true =>
    have hge := three_le_rank hhost' hcheck'
    cases hcheck : s.checkAuthorization with
    | false =>
      have hle := rank_le_two hcheck
      refine ⟨by omega, fun heq => ?_, fun heq => ?_⟩ <;> omega
    | true =>
      by_cases hlease : s.cluster.conf.lease = 0
      · have hrank : s.rank = 3 := rank_eq_three_iff.2 ⟨hhost, hcheck, hlease⟩
        refine ⟨by omega, fun heq hasked => ?_, fun heq d hwaits => ?_⟩
        · have hnot : ¬ s'.cluster.conf.lease ≠ 0 :=
            not_not.2 (rank_eq_three_iff.1 (heq.trans hrank)).2.2
          refine ⟨?_, ?_, fun _ => lease.asked hnot (hasked.lease hrank)⟩ <;> omega
        · have hnot : ¬ s'.cluster.conf.lease ≠ 0 :=
            not_not.2 (rank_eq_three_iff.1 (heq.trans hrank)).2.2
          rcases lease.time hnot with htime | hsome
          · refine Or.inl ⟨?_, ?_, fun _ => htime ▸ hwaits.lease hrank⟩ <;> omega
          · refine Or.inr ⟨?_, ?_, fun _ => hsome⟩ <;> omega
      · have hrank : s.rank = 4 := by
          rw [rank, if_neg hhost, if_neg (by simp [hcheck]), if_neg hlease]
        have hrank' := four_le_rank_iff.2 ⟨hhost', hcheck', lease.up hlease⟩
        refine ⟨by omega, fun heq _ => ⟨?_, ?_, ?_⟩, fun heq d _ => Or.inl ⟨?_, ?_, ?_⟩⟩ <;> omega

end

/-- The session is open with the lease turned on, and hosts are configured. -/
structure Opened (s : EtcdSession) : Prop where
  fits : s.Fits
  multi : s.cluster.curlMulti = true
  opened : s.cluster.closing = false
  enabled : s.cluster.enableLease = true
  configured : s.cluster.conf.confHosts ≠ []
  named : [] ∉ s.cluster.conf.confHosts

section

variable {g : Prop} {s s' : EtcdSession} {outside : SessionOutside}

/-! ## Moves -/

theorem checkAuthorization_eq_false : s.checkAuthorization = false ↔
    s.auth.authorization ≠ [] ∧ s.auth.authorizationHeader = [] := by
  simp [checkAuthorization]

theorem checkAuthorization_of_header (h : s.auth.authorizationHeader ≠ []) :
    s.checkAuthorization = true := by
  simp [checkAuthorization, h]

/-- A move with the cluster alone. -/
theorem Advance.of_cluster (hauth : s'.auth = s.auth)
    (hrpc : s'.rpcAuthenticate = s.rpcAuthenticate) (host : HostHolds s s')
    (lease : LeaseHolds s s') : Advance s s' := by
  have hcheck : s'.checkAuthorization = s.checkAuthorization := by
    rw [checkAuthorization, checkAuthorization, hauth]
  refine .of_holds host (fun h => hcheck.trans h) (fun _ huser => ⟨?_, ?_⟩) lease
  · rwa [asksUser, hrpc]
  · rw [TokenHolds, hcheck, hrpc, hauth]
    exact .refl _ _ _

/-- A move with the authorization alone. -/
theorem Advance.of_auth (hcluster : s'.cluster = s.cluster)
    (token : s.checkAuthorization = true → s'.checkAuthorization = true)
    (user : s'.checkAuthorization = false → s.asksUser = false →
      s'.asksUser = false ∧ TokenHolds s s') : Advance s s' := by
  refine .of_holds ?_ token user ?_
  · rw [HostHolds, hcluster]
    exact .refl _ _ _
  · rw [LeaseHolds, hcluster]
    exact .refl _ _ _

/-- The hosts that are known are named. -/
theorem Opened.pathNode_ne_nil (h : s.Opened) (hman : EtcdCluster.Manual s.cluster.conf)
    (hhosts : s.cluster.conf.hosts ≠ []) : s.cluster.conf.pathNode ≠ [] := by
  intro hnil
  have hmem := h.fits.hosts.selected hhosts
  rw [hnil] at hmem
  exact h.named ((h.fits.hosts.manual hman).2 hmem)

theorem memberRequest_hostHolds {draw : Nat} {cluster : EtcdCluster} (h : s.Opened)
    (hrequest : EtcdCluster.MemberRequest s.cluster draw .started cluster) :
    HostHolds s { s with cluster } := by
  cases hrequest with
  | skipped hskip => exact .refl _ _ _
  | refilled next hasks hman hempty =>
    refine .of_up fun hnil => h.named ?_
    have hmem := EtcdCluster.pickHost_mem h.configured draw
    rwa [show EtcdCluster.pickHost s.cluster.conf.confHosts draw = [] from hnil] at hmem
  | trusted next hasks hman hhosts => exact .of_up (h.pathNode_ne_nil hman hhosts)
  | asked next request hasks hauto hstarted => exact .of_asked id rfl
  | failed next hasks hauto hfailed => exact absurd rfl hfailed

/-- `create_request_auth_authenticate` gets past its tests. -/
structure AsksToken (s : EtcdSession) (now : Int) : Prop where
  multi : s.cluster.curlMulti = true
  opened : s.cluster.closing = false
  host : s.cluster.conf.pathNode ≠ []
  needed : s.checkAuthorization = false
  due : s.auth.authorizationNextUpdateTime < now

/-- What `create_request_auth_authenticate` makes of a session. -/
inductive TokenRequest (s : EtcdSession) (now : Int) : EtcdSession → Prop where
  | skipped (h : ¬ s.AsksToken now) : TokenRequest s now s
  | unneeded (h : s.auth.authorization = []) :
      TokenRequest s now { s with auth := { s.auth with authorizationHeader := [] } }
  | asked (request : AuthRequest) (auth : AuthConf) (name password : Bytes)
      (hbody : request.body = .authenticate name password)
      (hauth : auth.authorization = s.auth.authorization)
      (hheader : auth.authorizationHeader = s.auth.authorizationHeader) :
      TokenRequest s now { s with auth, rpcAuthenticate := some request }

theorem createRequestAuthAuthenticate_cases (s : EtcdSession) (now : Int) :
    TokenRequest s now (s.createRequestAuthAuthenticate now .started) := by
  unfold createRequestAuthAuthenticate
  split
  · next hmulti => exact .skipped fun hasks => by simp [hasks.multi] at hmulti
  split
  · next hclosing => exact .skipped fun hasks => by simp [hasks.opened] at hclosing
  split
  · next hhost => exact .skipped fun hasks => hasks.host hhost
  split
  · next hnone => exact .unneeded hnone
  split
  · next hdue => exact .skipped fun hasks => absurd hasks.due (not_lt.2 hdue)
  · exact .asked _ _ _ _ rfl rfl rfl

theorem authenticate_advance (s : EtcdSession) (now : Int) :
    Advance s (s.createRequestAuthAuthenticate now .started) := by
  have hcases := createRequestAuthAuthenticate_cases s now
  generalize s.createRequestAuthAuthenticate now .started = s' at hcases ⊢
  cases hcases with
  | skipped hskip => exact .refl s
  | unneeded hnone =>
    have hcheck : ({ s with auth := { s.auth with authorizationHeader := [] } } :
        EtcdSession).checkAuthorization = true := by
      simp [checkAuthorization, hnone]
    refine .of_auth rfl (fun _ => hcheck) fun hcheck' => ?_
    cases hcheck'.symm.trans hcheck
  | asked request auth name password hbody hauth hheader =>
    have hcheck : ({ s with auth, rpcAuthenticate := some request } :
        EtcdSession).checkAuthorization = s.checkAuthorization := by
      simp only [checkAuthorization, hauth, hheader]
    refine .of_auth rfl hcheck.trans fun _ _ => ⟨?_, .of_asked hcheck.trans rfl⟩
    rcases asksUser_of_body (s := { s with auth, rpcAuthenticate := some request }) rfl with
      ⟨-, name', hbody'⟩ | ⟨huser, -⟩
    · cases hbody.symm.trans hbody'
    · exact huser

theorem userGet_advance (s : EtcdSession) (now : Int) (outcome : StartOutcome)
    (h : s.checkAuthorization = true) :
    Advance s (s.createRequestAuthUserGet now outcome) := by
  have hcheck : (s.createRequestAuthUserGet now outcome).checkAuthorization = true := by
    rw [← h]
    unfold createRequestAuthUserGet
    cases outcome <;> split_ifs <;> rfl
  refine .of_auth ?_ (fun _ => hcheck) fun hcheck' => ?_
  · rw [createRequestAuthUserGet_eq]
  · cases hcheck'.symm.trans hcheck

/-- **A move that takes nothing back gets on**, and leaves the session open. -/
theorem Move.advance (hgain : g) (hmove : Move g s s') (h : s.Opened) : Advance s s' := by
  cases hmove with
  | lists cluster checked ready hlists =>
    refine .of_cluster rfl rfl ?_ ?_
    · unfold HostHolds
      dsimp only
      rw [hlists]
      exact .refl _ _ _
    · unfold LeaseHolds
      dsimp only
      rw [hlists]
      exact .refl _ _ _
  | members draw outcome cluster hrequest hstarted =>
    rw [hstarted hgain] at hrequest
    refine .of_cluster rfl rfl (memberRequest_hostHolds h hrequest) ?_
    cases hrequest <;> exact .refl _ _ _
  | known hosts pathNode next hrpc hpick hnamed =>
    obtain ⟨hne, hnot⟩ := hnamed hgain
    refine .of_cluster rfl rfl (.of_up fun hnil => hnot ?_) (.refl _ _ _)
    obtain rfl : pathNode = [] := hnil
    rcases hpick with ⟨-, hmem⟩ | ⟨draw, hdraw⟩
    · exact hmem
    · rw [hdraw]
      exact EtcdCluster.pickHost_mem hne draw
  | authenticate now outcome hstarted =>
    rw [hstarted hgain]
    exact authenticate_advance s now
  | userGet now outcome hauth => exact userGet_advance s now outcome hauth
  | authorized auth hheader =>
    have hcheck : ({ s with auth, rpcAuthenticate := none } : EtcdSession).checkAuthorization =
      true := checkAuthorization_of_header hheader
    refine .of_auth rfl (fun _ => hcheck) fun hcheck' => ?_
    cases hcheck'.symm.trans hcheck
  | userDone roles huser =>
    refine .of_auth rfl id fun _ hnot => ?_
    cases hnot.symm.trans huser.computed
  | lease now outcome cluster hrequest hstarted =>
    have hshape := hrequest.shape
    refine .of_cluster rfl rfl ?_ (.of_asked (fun hne => ?_) (hrequest.rpc.2 (hstarted hgain)))
    · unfold HostHolds
      dsimp only [setCluster]
      rw [hshape]
      exact .refl _ _ _
    · dsimp only [setCluster]
      rwa [hshape]
  | granted lease hrpc hne =>
    rw [takeLease_eq]
    exact .of_cluster rfl rfl (.refl _ _ _) (.of_up hne)
  | up hopen =>
    rw [setFlagRunning_eq]
    exact .of_cluster rfl rfl (.refl _ _ _) (.refl _ _ _)
  | init => exact .of_cluster rfl rfl (.refl _ _ _) (.refl _ _ _)
  | dropped _ _ _ _ hloss | sooner _ hloss | membersFailed hloss | authFailed hloss
  | expired hloss | leaseFailed hloss | lost hloss | enabled hloss | shut hloss =>
    exact absurd hgain hloss

theorem Move.opened (hgain : g) (hmove : Move g s s') (h : s.Opened) : s'.Opened := by
  have hconf : s'.cluster.conf.confHosts = s.cluster.conf.confHosts :=
    congrArg Prod.fst hmove.settings_eq
  have hflags : s'.cluster.curlMulti = true ∧ s'.cluster.closing = false ∧
      s'.cluster.enableLease = true := by
    obtain ⟨-, hmulti, hopen, henabled, -, -⟩ := h
    cases hmove with
    | lists cluster checked ready hlists =>
      dsimp only
      rw [hlists]
      exact ⟨hmulti, hopen, henabled⟩
    | members draw outcome cluster hrequest hstarted =>
      cases hrequest <;> exact ⟨hmulti, hopen, henabled⟩
    | authenticate now outcome hstarted =>
      rw [createRequestAuthAuthenticate_eq]
      exact ⟨hmulti, hopen, henabled⟩
    | userGet now outcome hauth =>
      rw [createRequestAuthUserGet_eq]
      exact ⟨hmulti, hopen, henabled⟩
    | lease now outcome cluster hrequest hstarted =>
      dsimp only [setCluster]
      rw [hrequest.shape]
      exact ⟨hmulti, hopen, henabled⟩
    | granted lease hrpc hne =>
      rw [takeLease_eq]
      exact ⟨hmulti, hopen, henabled⟩
    | up _ =>
      rw [setFlagRunning_eq]
      exact ⟨hmulti, hopen, henabled⟩
    | init => exact ⟨rfl, rfl, henabled⟩
    | shut hloss => exact absurd hgain hloss
    | enabled hloss => exact absurd hgain hloss
    | _ => exact ⟨hmulti, hopen, henabled⟩
  exact ⟨hmove.moves.fits h.fits, hflags.1, hflags.2.1, hflags.2.2, hconf ▸ h.configured,
    hconf ▸ h.named⟩

theorem Moves.advance (hgain : g) (hmoves : Moves g s s') (h : s.Opened) :
    s'.Opened ∧ Advance s s' := by
  induction hmoves with
  | refl => exact ⟨h, .refl s⟩
  | tail _ hmove ih => exact ⟨hmove.opened hgain ih.1, ih.2.trans (hmove.advance hgain ih.1)⟩

end

end EtcdSession

end LibAtapp
