import LibAtapp.Etcdcli.SessionStages
import LibAtapp.Library.Stages

set_option autoImplicit false

/-! # A session recovers

However a session got where it is: once its steps are good, requests start and are answered, it is
up after four rounds of a `tick` that is late enough and an answer. -/

namespace LibAtapp

namespace EtcdSession

section

variable {s s' : EtcdSession} {outside : SessionOutside}

/-! ## Ticks -/

theorem createRequestLeaseGrant_some (s : EtcdSession) (hstart : outside.AllStart) :
    ∃ s', s.createRequestLeaseGrant outside = some s' := by
  unfold createRequestLeaseGrant
  cases h : s.cluster.createRequestLeaseGrant outside.now outside.lease with
  | none =>
    have hcreate := ((s.cluster.createRequestLeaseGrant_eq_none_iff _ _).1 h).2
    cases hcreate.symm.trans hstart.lease
  | some made => exact ⟨_, rfl⟩

theorem tickPending_some (s : EtcdSession) (outside : SessionOutside) :
    ∃ s', s.tickPending outside = some s' := by
  obtain ⟨retried, hretried, -⟩ := retryPendingActions_spec (g := True) s outside
  exact ⟨retried.resolveReady, by rw [tickPending, hretried]; rfl⟩

theorem tickLease_some (s : EtcdSession) (hstart : outside.AllStart) :
    ∃ s', s.tickLease outside = some s' := by
  unfold tickLease
  split
  · unfold createRequestLeaseKeepalive
    cases h : s.cluster.createRequestLeaseKeepalive outside.now outside.lease with
    | none =>
      have hcreate := ((s.cluster.createRequestLeaseKeepalive_eq_none_iff _ _).1 h).2
      cases hcreate.symm.trans hstart.lease
    | some made => exact ⟨_, rfl⟩
  · exact ⟨s, rfl⟩

theorem tickAuthorized_some (s : EtcdSession) (hstart : outside.AllStart) :
    ∃ s', s.tickAuthorized outside = some s' := by
  unfold tickAuthorized
  dsimp only
  generalize (if s.auth.authorization ≠ [] ∧ s.rpcAuthenticate.isNone = true then
    s.createRequestAuthUserGet outside.now outside.auth else s) = mid
  split
  · split
    · exact mid.createRequestLeaseGrant_some hstart
    · obtain ⟨kept, hkept⟩ := mid.tickLease_some hstart
      obtain ⟨last, hlast⟩ := kept.tickPending_some outside
      exact ⟨last, by rw [hkept]; exact hlast⟩
  · exact tickPending_some _ outside

theorem tickHost_some (s : EtcdSession) (hstart : outside.AllStart) :
    ∃ s', s.tickHost outside = some s' := by
  unfold tickHost
  split
  · exact ⟨s, rfl⟩
  split
  · split
    · exact ⟨_, rfl⟩
    · exact ⟨s, rfl⟩
  · exact s.tickAuthorized_some hstart

theorem tickMembers_some (s : EtcdSession) (outside : SessionOutside) :
    ∃ s', s.tickMembers outside = some s' := by
  unfold tickMembers
  split
  · unfold createRequestMemberUpdate
    cases h : s.cluster.createRequestMemberUpdate outside.now outside.draw outside.members with
    | none => exact absurd h (s.cluster.createRequestMemberUpdate_ne_none _ _ _)
    | some made => exact ⟨_, rfl⟩
  · exact ⟨s, rfl⟩

/-- A `tick` whose requests start gets through. -/
theorem Opened.tick_some (h : s.Opened) (hstart : outside.AllStart) :
    ∃ mid s', s.tickMembers outside = some mid ∧ mid.tickHost outside = some s' ∧
      s.tick outside = some s' := by
  obtain ⟨mid, hmid⟩ := s.tickMembers_some outside
  obtain ⟨s', hs'⟩ := mid.tickHost_some hstart
  exact ⟨mid, s', hmid, hs', by rw [tick_eq h.multi h.opened, hmid]; exact hs'⟩

/-- Without a host the members are asked for, or the configured hosts are taken. -/
theorem tickMembers_asks (h : s.Opened) (hstart : outside.AllStart) (hrank : s.rank = 0)
    (hdue : s.cluster.conf.etcdMembersNextUpdateTime < outside.now)
    (hmid : s.tickMembers outside = some s') : s.rank < s'.rank ∨ s'.Asked := by
  have hhost := rank_eq_zero_iff.1 hrank
  unfold tickMembers at hmid
  rw [if_pos hdue] at hmid
  obtain ⟨⟨cluster, sent⟩, hcluster, hmid⟩ := Option.bind_eq_some_iff.1 hmid
  cases hmid
  have hrequest := EtcdCluster.createRequestMemberUpdate_cases hcluster
  rw [hstart.members] at hrequest
  have hholds := memberRequest_hostHolds h hrequest
  by_cases hhost' : cluster.conf.pathNode = []
  · have hrank' : ({ s with cluster } : EtcdSession).rank = 0 := rank_eq_zero_iff.2 hhost'
    refine Or.inr ⟨fun _ => ?_, by omega, by omega⟩
    cases hrequest with
    | skipped hskip => exact absurd ⟨h.multi, h.opened, Or.inl h.configured⟩ hskip
    | refilled next hasks hman hempty =>
      have hmem := EtcdCluster.pickHost_mem h.configured outside.draw
      rw [show EtcdCluster.pickHost s.cluster.conf.confHosts outside.draw = [] from hhost'] at hmem
      exact absurd hmem h.named
    | trusted next hasks hman hhosts => exact absurd hhost (h.pathNode_ne_nil hman hhosts)
    | asked next request hasks hauto hstarted => rfl
    | failed next hasks hauto hfailed => exact absurd rfl hfailed
  · refine Or.inl ?_
    have hne : ({ s with cluster } : EtcdSession).rank ≠ 0 := fun h => hhost' (rank_eq_zero_iff.1 h)
    omega

/-- Without a token one is asked for. -/
theorem tickHost_asksToken (h : s.Opened) (hstart : outside.AllStart) (hrank : s.rank = 2)
    (hdue : s.auth.authorizationNextUpdateTime < outside.now)
    (hs' : s.tickHost outside = some s') : s'.rpcAuthenticate.isSome := by
  obtain ⟨hhost, hcheck, -⟩ := rank_eq_two_iff.1 hrank
  unfold tickHost at hs'
  rw [if_neg hhost, if_pos (by simp [hcheck])] at hs'
  split at hs'
  · cases hs'
    rw [hstart.auth]
    have hcases := createRequestAuthAuthenticate_cases s outside.now
    generalize s.createRequestAuthAuthenticate outside.now .started = s' at hcases ⊢
    cases hcases with
    | skipped hskip => exact absurd ⟨h.multi, h.opened, hhost, hcheck, hdue⟩ hskip
    | unneeded hnone => exact absurd hnone (checkAuthorization_eq_false.1 hcheck).1
    | asked request auth name password hbody hauth hheader => rfl
  · next hsome =>
    cases hs'
    cases hrpc : s.rpcAuthenticate with
    | none => exact absurd (by rw [hrpc]; rfl) hsome
    | some request => rfl

/-- Without a lease one is asked for. -/
theorem tickHost_asksLease (h : s.Opened) (hstart : outside.AllStart) (hrank : s.rank = 3)
    (hdue : s.cluster.conf.keepaliveNextUpdateTime < outside.now)
    (hs' : s.tickHost outside = some s') : s'.cluster.rpcKeepalive.isSome := by
  obtain ⟨hhost, hcheck, hlease⟩ := rank_eq_three_iff.1 hrank
  unfold tickHost at hs'
  rw [if_neg hhost, if_neg (by simp [hcheck])] at hs'
  unfold tickAuthorized at hs'
  dsimp only at hs'
  generalize hmid : (if s.auth.authorization ≠ [] ∧ s.rpcAuthenticate.isNone = true then
    s.createRequestAuthUserGet outside.now outside.auth else s) = mid at hs'
  have hsame : mid.cluster = s.cluster := by
    rw [← hmid]
    split
    · exact createRequestAuthUserGet_cluster _ _ _
    · rfl
  rw [if_pos (by rw [hsame]; exact h.enabled), if_pos (by rw [hsame]; exact hlease)] at hs'
  obtain ⟨⟨cluster, sent⟩, hcluster, hs'⟩ := Option.bind_eq_some_iff.1 hs'
  cases hs'
  rw [hsame] at hcluster
  rcases EtcdCluster.createRequestLeaseGrant_cases hcluster with ⟨hnot, -⟩ | hrequest
  · exact absurd ⟨h.multi, hhost, h.opened, h.enabled, hdue⟩ hnot
  · exact hrequest.rpc.2 hstart.lease

/-- **A `tick` that is late enough asks for what is missing.** -/
theorem Opened.tick_asks (h : s.Opened) (hstart : outside.AllStart) {d : Int} (hwaits : s.Waits d)
    (hlate : d < outside.now) :
    ∃ s', s.tick outside = some s' ∧ (s.rank < s'.rank ∨ s'.Asked) := by
  obtain ⟨mid, s', hmid, hs', htick⟩ := h.tick_some hstart
  refine ⟨s', htick, ?_⟩
  obtain ⟨hopen, hfirst⟩ :=
    (tickMembers_moves (g := True) hmid fun _ => hstart.members).advance trivial h
  obtain ⟨-, hlast⟩ := (tickHost_moves (g := True) hopen.opened hs' fun _ => hstart).advance
    trivial hopen
  have hrise := hfirst.rises
  have hrise' := hlast.rises
  by_cases hsame : s'.rank = s.rank
  · refine Or.inr ?_
    have hmidrank : mid.rank = s.rank := by omega
    have hcase : mid.Asked ∨ mid.rank ≠ 0 ∧ mid.Waits d := by
      by_cases hzero : s.rank = 0
      · have hdue := (hwaits.members hzero).trans_lt hlate
        exact Or.inl ((tickMembers_asks h hstart hzero hdue hmid).resolve_left (by omega))
      · rcases hfirst.delays hmidrank d hwaits with hwaits | hasked
        · exact Or.inr ⟨by omega, hwaits⟩
        · exact Or.inl hasked
    rcases hcase with hasked | ⟨hne, hwaits⟩
    · exact hlast.holds (hsame.trans hmidrank.symm) hasked
    · refine ⟨by omega, fun htwo => ?_, fun hthree => ?_⟩
      · have hrank : mid.rank = 2 := by omega
        exact tickHost_asksToken hopen hstart hrank ((hwaits.token hrank).trans_lt hlate) hs'
      · have hrank : mid.rank = 3 := by omega
        exact tickHost_asksLease hopen hstart hrank ((hwaits.lease hrank).trans_lt hlate) hs'
  · exact Or.inl (by omega)

/-! ## Answers -/

theorem takeLease_rank (hrank : s.rank = 3) {lease : Int} (hne : lease ≠ 0) :
    4 ≤ (s.takeLease lease).rank := by
  obtain ⟨hhost, hcheck, -⟩ := rank_eq_three_iff.1 hrank
  rw [takeLease_eq, four_le_rank_iff]
  exact ⟨hhost, hcheck, hne⟩

/-- The members name a host. -/
theorem Opened.members_passes (h : s.Opened) {codec : SessionCodec} {answer : HttpAnswer}
    (hstart : outside.AllStart) (hrank : s.rank = 0) (hasked : s.cluster.rpcUpdateMembers.isSome)
    (hnames : NamesHosts codec answer) :
    ∃ s', s.onMemberUpdate codec answer outside = some s' ∧ s.rank < s'.rank := by
  obtain ⟨request, hrpc⟩ := Option.isSome_iff_exists.1 hasked
  obtain ⟨hok, doc, members, urls, hdoc, hmembers, hurls, hne, hnot⟩ := hnames
  have hsome : ∃ cluster, ({ s.cluster with rpcUpdateMembers := none } : EtcdCluster).onMemberUpdate
      outside.now outside.selectDraw doc = some cluster := by
    unfold EtcdCluster.onMemberUpdate
    simp only [hmembers, hurls, Option.bind_eq_bind, Option.bind_some]
    exact ⟨_, rfl⟩
  obtain ⟨cluster, hcluster⟩ := hsome
  obtain ⟨urls', hurls', pathNode, next, hselected, hknown⟩ :=
    onMemberUpdate_known hmembers hcluster
  cases hurls.symm.trans hurls'
  have hmove : Move True s { s with cluster } := by
    rw [hknown]
    exact .known urls.flatten pathNode next hasked hselected fun _ => ⟨hne, hnot⟩
  have hopen := hmove.opened trivial h
  obtain ⟨mid, s', hmid, hs', htick⟩ := hopen.tick_some hstart
  have hlast := (tick_moves (g := True) htick fun _ => hstart).advance trivial hopen
  have hhost : cluster.conf.pathNode ≠ [] := by
    intro hnil
    rw [hknown] at hnil
    obtain rfl : pathNode = [] := hnil
    rcases hselected with ⟨-, hmem⟩ | ⟨draw, hdraw⟩
    · exact hnot hmem
    · exact hnot (hdraw ▸ EtcdCluster.pickHost_mem hne draw)
  refine ⟨s', ?_, ?_⟩
  · unfold onMemberUpdate
    simp only [hrpc, hok, hdoc, hmembers, Option.bind_eq_bind, Option.bind_some, hcluster]
    exact htick
  · have hpos : ({ s with cluster } : EtcdSession).rank ≠ 0 :=
      fun hzero => hhost (rank_eq_zero_iff.1 hzero)
    have hrise := hlast.2.rises
    omega

theorem rpc_of_asksUser (h : s.asksUser = true) :
    ∃ request, s.rpcAuthenticate = some request := by
  cases hrpc : s.rpcAuthenticate with
  | none => cases h.symm.trans (asksUser_eq_false_of_none hrpc)
  | some request => exact ⟨request, rfl⟩

/-- The user is answered, and a token may be asked for. -/
theorem Opened.user_passes (h : s.Opened) {codec : SessionCodec} {answer : HttpAnswer}
    {request : AuthRequest} (hrank : s.rank = 1) (hrpc : s.rpcAuthenticate = some request)
    (hauth : Authorizes codec request answer) :
    ∃ s', s.onAuthorization codec answer outside = some s' ∧ s.rank < s'.rank := by
  have huser := (rank_eq_one_iff.1 hrank).2.2
  obtain ⟨name, hbody⟩ : ∃ name, request.body = .userGet name := by
    rcases asksUser_of_body hrpc with ⟨-, hbody⟩ | ⟨hnot, -⟩
    · exact hbody
    · cases huser.symm.trans hnot
  have hsome : ∃ s', s.onAuthorization codec answer outside = some s' ∧
      s'.rpcAuthenticate = none := by
    unfold onAuthorization
    simp only [hrpc, hauth.1, hbody, Bool.false_eq_true, if_false]
    cases hdoc : EtcdPacker.parseObject codec.toTextCodec answer.content with
    | none => exact ⟨_, rfl, rfl⟩
    | some doc =>
      have hfound := Json.findMember_of_isObject (EtcdPacker.isObject_of_parseObject hdoc) (ascii "roles")
      unfold onUserGet
      simp only [hfound, Option.bind_eq_bind, Option.bind_some]
      split
      · next roles hroles =>
        obtain ⟨after, hafter, -⟩ := retryPendingActions_spec (g := True)
          { s with
            rpcAuthenticate := none
            auth := { s.auth with authorizationUserRoles := roles.filterMap Json.string? } } outside
        refine ⟨after, hafter, ?_⟩
        obtain ⟨cluster, -, hcluster⟩ := Option.bind_eq_some_iff.1 hafter
        cases hcluster
        rfl
      · exact ⟨_, rfl, rfl⟩
  obtain ⟨s', hs', hnone⟩ := hsome
  refine ⟨s', hs', ?_⟩
  have hgood : ∀ request', s.rpcAuthenticate = some request' →
      Authorizes codec request' answer := by
    intro request' hrequest'
    cases hrpc.symm.trans hrequest'
    exact hauth
  have hrise := ((onAuthorization_moves (g := True) hs' fun _ => hgood).advance trivial h).2.rises
  have hne : s'.rank ≠ 1 := fun hone => by
    cases (rank_eq_one_iff.1 hone).2.2.symm.trans (asksUser_eq_false_of_none hnone)
  omega

/-- The token is there. -/
theorem Opened.token_passes (h : s.Opened) {codec : SessionCodec} {answer : HttpAnswer}
    {request : AuthRequest} (hrank : s.rank = 2) (hrpc : s.rpcAuthenticate = some request)
    (hauth : Authorizes codec request answer) :
    ∃ s', s.onAuthorization codec answer outside = some s' ∧ s.rank < s'.rank := by
  have huser := (rank_eq_two_iff.1 hrank).2.2
  obtain ⟨name, password, hbody⟩ : ∃ name password, request.body = .authenticate name password := by
    rcases asksUser_of_body hrpc with ⟨hyes, -⟩ | ⟨-, hbody⟩
    · cases huser.symm.trans hyes
    · exact hbody
  obtain ⟨doc, token, hdoc, htoken⟩ := hauth.2 name password hbody
  obtain ⟨s', hs', hmoves, hheader⟩ : ∃ s', ({ s with rpcAuthenticate := none } :
      EtcdSession).onAuthenticated codec doc outside = some s' ∧ Moves True s s' ∧
        s'.auth.authorizationHeader ≠ [] := onAuthenticated_moves htoken
  refine ⟨s', ?_, ?_⟩
  · unfold onAuthorization
    simp only [hrpc, hauth.1, hdoc, hbody]
    exact hs'
  · have hrise := (hmoves.advance trivial h).2.rises
    have hhost : s'.cluster.conf.pathNode ≠ [] := fun hnil => by
      have hzero := rank_eq_zero_iff.2 hnil
      omega
    have hthree := three_le_rank hhost (checkAuthorization_of_header hheader)
    omega

/-- The lease is there. -/
theorem Opened.lease_passes (h : s.Opened) {codec : SessionCodec} {answer : HttpAnswer}
    (hrank : s.rank = 3) (hasked : s.cluster.rpcKeepalive.isSome)
    (hgives : GivesLease codec answer) :
    ∃ s', s.onLeaseKeepalive codec answer outside = some s' ∧ s.rank < s'.rank := by
  obtain ⟨request, hrpc⟩ := Option.isSome_iff_exists.1 hasked
  obtain ⟨hok, doc, lease, isGrant, hdoc, hlease⟩ := hgives
  have hne := unpackLease_ne_zero hlease
  have hgranted : Move True s (s.takeLease lease) := .granted lease hasked hne
  have hopen := hgranted.opened trivial h
  have hsome : ∃ s', s.onLeaseKeepalive codec answer outside = some s' ∧
      Move True (s.takeLease lease) s' := by
    unfold onLeaseKeepalive takeLease
    simp only [hrpc, hok, hdoc, hlease, Option.bind_eq_bind, Option.bind_some]
    obtain ⟨after, hafter, hmove, -⟩ := setLease_spec (g := True) _ lease isGrant outside
    exact ⟨after, hafter, hmove⟩
  obtain ⟨s', hs', hmove⟩ := hsome
  refine ⟨s', hs', ?_⟩
  have hrise := (hmove.advance trivial hopen).rises
  have hfour := takeLease_rank hrank hne
  omega

/-! ## Rounds -/

/-- A `tick` after the time `d`. -/
def Late (d : Int) (i : SessionStep) : Prop := ∃ outside, i = .tick outside ∧ d < outside.now

/-- What is asked for at a stage is answered. -/
def Answers : ℕ → SessionStep → Prop
  | 0, .members _ _ => True
  | 1, .authorization _ _ => True
  | 2, .authorization _ _ => True
  | 3, .lease _ _ => True
  | _, _ => False

variable (codec : SessionCodec)

theorem Opened.step_good {i : SessionStep} (h : s.Opened) (hgood : Good codec s i) :
    (step codec s i).Opened ∧ Advance s (step codec s i) :=
  (step_moves codec s i).advance hgood h

theorem Opened.step_passes {i : SessionStep} (h : s.Opened) (hgood : Good codec s i)
    (hasked : s.Asked) (htop : s.rank < 4) (hanswers : Answers s.rank i) :
    s.rank < (step codec s i).rank := by
  have hstep : ∀ {s'}, s.stepOption codec i = some s' → s.rank < s'.rank →
      s.rank < (step codec s i).rank := by
    intro s' hs' hlt
    rwa [step, hs']
  obtain hrank | hrank | hrank | hrank : s.rank = 0 ∨ s.rank = 1 ∨ s.rank = 2 ∨ s.rank = 3 := by
    omega
  all_goals rw [hrank] at hanswers
  · cases i with
    | members answer outside =>
      have hsome := hasked.members hrank
      obtain ⟨s', hs', hlt⟩ := h.members_passes hgood.1 hrank hsome (hgood.2 hsome)
      exact hstep hs' hlt
    | _ => exact False.elim hanswers
  · cases i with
    | authorization answer outside =>
      obtain ⟨request, hrpc⟩ := rpc_of_asksUser (rank_eq_one_iff.1 hrank).2.2
      obtain ⟨s', hs', hlt⟩ := h.user_passes hrank hrpc (hgood request hrpc)
      exact hstep hs' hlt
    | _ => exact False.elim hanswers
  · cases i with
    | authorization answer outside =>
      obtain ⟨request, hrpc⟩ := Option.isSome_iff_exists.1 (hasked.token hrank)
      obtain ⟨s', hs', hlt⟩ := h.token_passes hrank hrpc (hgood request hrpc)
      exact hstep hs' hlt
    | _ => exact False.elim hanswers
  · cases i with
    | lease answer outside =>
      have hsome := hasked.lease hrank
      obtain ⟨s', hs', hlt⟩ := h.lease_passes hrank hsome (hgood hsome)
      exact hstep hs' hlt
    | _ => exact False.elim hanswers

/-- **The stages of an open session.** -/
theorem stages : Run.Stages (step codec) Opened (Good codec) rank 4 Asked Waits Late Answers where
  keeps s i h hgood := (h.step_good codec hgood).1
  rises s i h hgood := (h.step_good codec hgood).2.rises
  holds s i h hgood _ heq hasked := (h.step_good codec hgood).2.holds heq hasked
  delays s i d h hgood _ heq hwaits := (h.step_good codec hgood).2.delays heq d hwaits
  asks := by
    rintro s i d h hgood htop hwaits ⟨outside, rfl, hlate⟩
    obtain ⟨s', hs', hcase⟩ := h.tick_asks hgood hwaits hlate
    rwa [step, show s.stepOption codec (.tick outside) = some s' from hs']
  passes s i h hgood htop hasked hanswers := h.step_passes codec hgood hasked htop hanswers

/-- **A session recovers.** Whatever happened to a cluster from its configuration on: once it is
    open with the lease turned on, and hosts with names are configured, four rounds of good steps
    get it up. A round has a `tick` after the time at which what is missing may be asked for, and
    behind it the answer. -/
theorem recovers_in_four_rounds (conf : ClusterConf) (auth : AuthConf) (before : List SessionStep)
    (rounds : List (List SessionStep))
    (hopen : (Run.run (step codec) (initial conf auth) before).cluster.curlMulti = true ∧
      (Run.run (step codec) (initial conf auth) before).cluster.closing = false)
    (hlease : (Run.run (step codec) (initial conf auth) before).cluster.enableLease = true)
    (hhosts : conf.confHosts ≠ [] ∧ [] ∉ conf.confHosts)
    (hgood : Run.StepsMeet (step codec) (Good codec)
      (Run.run (step codec) (initial conf auth) before) rounds.flatten)
    (hrounds : Run.Rounds (step codec) rank 4 Waits Late Answers
      (Run.run (step codec) (initial conf auth) before) rounds)
    (hfour : 4 ≤ rounds.length) :
    let after := Run.run (step codec) (initial conf auth) (before ++ rounds.flatten)
    after.cluster.conf.pathNode ∈ after.cluster.conf.hosts ∧ after.checkAuthorization = true ∧
      after.cluster.running = true ∧ after.cluster.conf.lease ≠ 0 := by
  have hfits := fits_run codec conf auth before
  have hconf : (Run.run (step codec) (initial conf auth) before).cluster.conf.confHosts =
      conf.confHosts :=
    congrArg Prod.fst (settings_run codec (initial conf auth) before)
  have hopened : (Run.run (step codec) (initial conf auth) before).Opened :=
    ⟨hfits, hopen.1, hopen.2, hlease, hconf ▸ hhosts.1, hconf ▸ hhosts.2⟩
  have hup := (stages codec).top_le_rank hopened hgood hrounds (by omega)
  rw [← Run.run_append] at hup
  obtain ⟨hhost, hcheck, hne⟩ := four_le_rank_iff.1 hup
  have hlast := fits_run codec conf auth (before ++ rounds.flatten)
  refine ⟨hlast.hosts.selected fun hnil => hhost (hlast.hosts.empty hnil), hcheck, ?_, hne⟩
  exact (hlast.flags.lease hne).1

end

/-! ## A cluster that gets up -/

/-- The text of an answer with a lease. -/
def leaseText : Bytes := ascii "\x7b\"ID\":7,\"TTL\":16\x7d"

/-- The texts of two answers and no others. -/
def sampleCodec : SessionCodec where
  parse text :=
    if text = leaseText then .object [(ascii "ID", .int 7), (ascii "TTL", .int 16)] else .null
  str2int64 n _ := n
  str2uint64 n _ := n
  str2int32 n _ := n
  base64Decode out text := if text = [] then ([], true) else (out, false)
  doubleText := []

/-- A host that is configured by hand. -/
def sampleConf : ClusterConf := { confHosts := [ascii "http://h"], autoUpdateHosts := false }

/-- An answer with a lease. -/
def sampleAnswer : HttpAnswer := ⟨⟨0, true⟩, 200, leaseText⟩

def sampleStart : List SessionStep := [.init, .addKeepalive 1 (ascii "/k") { now := 1 }]

def sampleRound : List SessionStep :=
  [.tick { now := 10 }, .members sampleAnswer { now := 11 }, .lease sampleAnswer { now := 12 }]

theorem recovers_sample :
    let after := Run.run (step sampleCodec) (initial sampleConf {})
      (sampleStart ++ [sampleRound, [], [], []].flatten)
    after.cluster.conf.pathNode ∈ after.cluster.conf.hosts ∧ after.checkAuthorization = true ∧
      after.cluster.running = true ∧ after.cluster.conf.lease ≠ 0 := by
  have hstart : (Run.run (step sampleCodec) (initial sampleConf {}) sampleStart).rank = 0 := by
    decide +kernel
  have hup : ¬ (Run.run (step sampleCodec)
      (Run.run (step sampleCodec) (initial sampleConf {}) sampleStart) sampleRound).rank < 4 := by
    decide +kernel
  refine recovers_in_four_rounds sampleCodec sampleConf {} sampleStart
    [sampleRound, [], [], []] ⟨by decide +kernel, by decide +kernel⟩ (by decide +kernel)
    ⟨by decide, by decide⟩ ⟨⟨rfl, rfl, rfl⟩, ⟨⟨rfl, rfl, rfl⟩, fun hasked => ?_⟩, fun _ => ?_,
      trivial⟩
    ⟨fun _ => ⟨[], _, _, 0, rfl, ⟨fun _ => ?_, ?_, ?_⟩, ⟨_, rfl, by decide⟩,
      .members sampleAnswer { now := 11 }, List.mem_cons_self, ?_⟩,
      fun hlt => absurd hlt hup, fun hlt => absurd hlt hup, fun hlt => absurd hlt hup, trivial⟩
    le_rfl
  · exact absurd hasked (by decide +kernel)
  · exact ⟨rfl, .object [(ascii "ID", .int 7), (ascii "TTL", .int 16)], 7, true,
      rfl, rfl⟩
  · decide +kernel
  · rw [hstart]
    decide
  · rw [hstart]
    decide
  · rw [hstart]
    trivial

end EtcdSession

end LibAtapp
