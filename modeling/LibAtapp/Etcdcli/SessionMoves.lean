import LibAtapp.Etcdcli.SessionFrames
import Mathlib.Logic.Relation

set_option autoImplicit false

/-! # The moves of a session

Each step of a session is a chain of moves, of which there are few kinds. A good step, where the
requests start and are answered well, is a chain of moves that take nothing back. -/

namespace LibAtapp

/-- Every request starts that is made. -/
structure SessionOutside.AllStart (outside : SessionOutside) : Prop where
  members : outside.members = .started
  auth : outside.auth = .started
  lease : outside.lease = .started

namespace EtcdSession

/-- The request for the authorization in flight is `/v3/auth/user/get`. -/
def AsksUser (s : EtcdSession) : Prop :=
  ∃ request name, s.rpcAuthenticate = some request ∧ request.body = .userGet name

/-- The lease of an answer is taken. -/
def takeLease (s : EtcdSession) (lease : Int) : EtcdSession :=
  let s := { s with cluster := { s.cluster with rpcKeepalive := none } }
  let s := if !s.cluster.running ∧ !s.cluster.closing then s.setFlagRunning true else s
  { s with cluster := { s.cluster with conf := { s.cluster.conf with lease } } }

/-- What `close` does, but for the keepalives and the deletors. -/
def shut (s : EtcdSession) : EtcdSession :=
  let s := s.setFlagRunning false
  { s with
    cluster := { s.cluster with
      closing := true, running := false, rpcUpdateMembers := none, rpcKeepalive := none
      conf := { s.cluster.conf with
        lease := if s.cluster.curlMulti then 0 else s.cluster.conf.lease } }
    rpcAuthenticate := none }

/-- The moves of a session. If `gain` holds, the move takes nothing back. -/
inductive Move (gain : Prop) (s : EtcdSession) : EtcdSession → Prop where
  | lists (cluster : EtcdCluster) (checked : Nat → Bool) (ready : Bool)
      (h : s.cluster.OnlyLists cluster) : Move gain s { s with cluster, checked, ready }
  | members (draw : Nat) (outcome : StartOutcome) (cluster : EtcdCluster)
      (h : EtcdCluster.MemberRequest s.cluster draw outcome cluster)
      (hgain : gain → outcome = .started) : Move gain s { s with cluster }
  | dropped (hosts : List Bytes) (pathNode : Bytes) (hsub : hosts ⊆ s.cluster.conf.hosts)
      (hselected : hosts = s.cluster.conf.hosts ∧ pathNode = s.cluster.conf.pathNode ∨
        ∃ draw, pathNode = EtcdCluster.pickHost hosts draw) (hloss : ¬ gain) :
      Move gain s
        { s with cluster := { s.cluster with conf := { s.cluster.conf with hosts, pathNode } } }
  | sooner (next : Int) (hloss : ¬ gain) : Move gain s { s with
      cluster := { s.cluster with
        conf := { s.cluster.conf with etcdMembersNextUpdateTime := next } } }
  | known (hosts : List Bytes) (pathNode : Bytes) (next : Int)
      (h : s.cluster.rpcUpdateMembers.isSome)
      (hselected : pathNode = s.cluster.conf.pathNode ∧ pathNode ∈ hosts ∨
        ∃ draw, pathNode = EtcdCluster.pickHost hosts draw)
      (hgain : gain → hosts ≠ [] ∧ [] ∉ hosts) : Move gain s { s with
        cluster := { s.cluster with
          rpcUpdateMembers := none
          conf := { s.cluster.conf with hosts, pathNode, etcdMembersNextUpdateTime := next } } }
  | membersFailed (hloss : ¬ gain) :
      Move gain s { s with cluster := { s.cluster with rpcUpdateMembers := none } }
  | authenticate (now : Int) (outcome : StartOutcome) (hgain : gain → outcome = .started) :
      Move gain s (s.createRequestAuthAuthenticate now outcome)
  | userGet (now : Int) (outcome : StartOutcome) (h : s.checkAuthorization = true) :
      Move gain s (s.createRequestAuthUserGet now outcome)
  | authorized (auth : AuthConf) (hheader : auth.authorizationHeader ≠ []) :
      Move gain s { s with auth, rpcAuthenticate := none }
  | userDone (roles : List Bytes) (h : s.AsksUser) : Move gain s { s with
      rpcAuthenticate := none, auth := { s.auth with authorizationUserRoles := roles } }
  | authFailed (hloss : ¬ gain) : Move gain s { s with rpcAuthenticate := none }
  | expired (hloss : ¬ gain) :
      Move gain s { s with auth := { s.auth with authorizationHeader := [] } }
  | lease (now : Int) (outcome : StartOutcome) (cluster : EtcdCluster)
      (h : EtcdCluster.LeaseRequest s.cluster now outcome cluster)
      (hgain : gain → outcome = .started) : Move gain s (s.setCluster cluster now)
  | leaseFailed (hloss : ¬ gain) :
      Move gain s { s with cluster := { s.cluster with rpcKeepalive := none } }
  | granted (lease : Int) (h : s.cluster.rpcKeepalive.isSome) (hlease : lease ≠ 0) :
      Move gain s (s.takeLease lease)
  | lost (hloss : ¬ gain) : Move gain s { s with
      cluster := { s.cluster with conf := { s.cluster.conf with lease := 0 } } }
  | up (h : s.cluster.closing = false) : Move gain s (s.setFlagRunning true)
  | enabled (hloss : ¬ gain) :
      Move gain s { s with cluster := { s.cluster with enableLease := true } }
  | init : Move gain s s.init
  | shut (hloss : ¬ gain) : Move gain s s.shut

/-- A chain of moves. -/
def Moves (gain : Prop) : EtcdSession → EtcdSession → Prop := Relation.ReflTransGen (Move gain)

theorem Move.moves {gain : Prop} {s s' : EtcdSession} (h : Move gain s s') : Moves gain s s' :=
  .single h

theorem Moves.refl {gain : Prop} (s : EtcdSession) : Moves gain s s :=
  Relation.ReflTransGen.refl

theorem Moves.trans {gain : Prop} {s s' s'' : EtcdSession} (h : Moves gain s s')
    (h' : Moves gain s' s'') : Moves gain s s'' :=
  Relation.ReflTransGen.trans h h'

section

variable {g : Prop} {s s' : EtcdSession} {outside : SessionOutside}

theorem Moves.of_eq (h : some s = some s') : Moves g s s' := by
  obtain rfl := Option.some.inj h
  exact .refl s

/-! ## Lists and flags -/

theorem resolveReady_move (s : EtcdSession) : Move g s s.resolveReady := by
  unfold resolveReady
  split
  · exact .lists s.cluster s.checked s.ready rfl
  split
  · exact .lists s.cluster s.checked true rfl
  · exact .lists s.cluster s.checked s.ready rfl

theorem retryPendingActions_spec (s : EtcdSession) (outside : SessionOutside) :
    ∃ after, s.retryPendingActions outside = some after ∧ Move g s after ∧
      after.auth = s.auth := by
  obtain ⟨cluster, hcluster, hlists, -⟩ :=
    s.cluster.retryPendingActions_onlyLists outside.deletes
  refine ⟨_, ?_, .lists cluster (fun k => s.checked k || decide (k ∈ outside.unchecked)) s.ready
    hlists, rfl⟩
  rw [retryPendingActions, hcluster]
  rfl

theorem retryPendingActions_move (h : s.retryPendingActions outside = some s') :
    Move g s s' := by
  obtain ⟨after, hafter, hmove, -⟩ := retryPendingActions_spec s outside
  cases hafter.symm.trans h
  exact hmove

/-! ## Requests -/

theorem createRequestMemberUpdate_move (h : s.createRequestMemberUpdate outside = some s')
    (hgain : g → outside.members = .started) : Move g s s' := by
  obtain ⟨⟨cluster, sent⟩, hcluster, h⟩ := Option.bind_eq_some_iff.1 h
  cases h
  exact .members _ _ cluster (EtcdCluster.createRequestMemberUpdate_cases hcluster) hgain

theorem setCluster_self (s : EtcdSession) (now : Int) : s.setCluster s.cluster now = s := by
  rw [setCluster, if_pos rfl]

theorem createRequestLeaseGrant_moves (h : s.createRequestLeaseGrant outside = some s')
    (hgain : g → outside.lease = .started) : Moves g s s' := by
  obtain ⟨⟨cluster, sent⟩, hcluster, h⟩ := Option.bind_eq_some_iff.1 h
  cases h
  rcases EtcdCluster.createRequestLeaseGrant_cases hcluster with ⟨-, rfl⟩ | hrequest
  · rw [setCluster_self]
    exact .refl s
  · exact (Move.lease outside.now outside.lease cluster hrequest hgain).moves

theorem createRequestLeaseKeepalive_moves (h : s.createRequestLeaseKeepalive outside = some s')
    (hgain : g → outside.lease = .started) : Moves g s s' := by
  obtain ⟨⟨cluster, sent⟩, hcluster, h⟩ := Option.bind_eq_some_iff.1 h
  cases h
  rcases EtcdCluster.createRequestLeaseKeepalive_cases hcluster with rfl | ⟨-, hrequest⟩
  · rw [setCluster_self]
    exact .refl s
  · exact (Move.lease outside.now outside.lease cluster hrequest hgain).moves

/-! ## Ticks -/

theorem tick_eq (hmulti : s.cluster.curlMulti = true) (hopen : s.cluster.closing = false) :
    s.tick outside = (s.tickMembers outside).bind fun s => s.tickHost outside := by
  rw [tick, if_neg (by simp [hmulti]), if_neg (by simp [hopen])]
  rfl

theorem tickMembers_moves (h : s.tickMembers outside = some s')
    (hgain : g → outside.members = .started) : Moves g s s' := by
  unfold tickMembers at h
  split at h
  · exact (createRequestMemberUpdate_move h hgain).moves
  · exact .of_eq h

theorem createRequestAuthUserGet_cluster (s : EtcdSession) (now : Int) (outcome : StartOutcome) :
    (s.createRequestAuthUserGet now outcome).cluster = s.cluster := by
  unfold createRequestAuthUserGet
  cases outcome <;> split_ifs <;> rfl

theorem tickPending_moves (h : s.tickPending outside = some s') : Moves g s s' := by
  obtain ⟨retried, hretried, h⟩ := Option.bind_eq_some_iff.1 h
  cases h
  exact (retryPendingActions_move hretried).moves.trans (resolveReady_move retried).moves

theorem tickLease_moves (h : s.tickLease outside = some s')
    (hgain : g → outside.lease = .started) : Moves g s s' := by
  unfold tickLease at h
  split at h
  · exact createRequestLeaseKeepalive_moves h hgain
  · exact .of_eq h

theorem tickAuthorized_moves (hopen : s.cluster.closing = false)
    (hauth : s.checkAuthorization = true) (h : s.tickAuthorized outside = some s')
    (hgain : g → outside.lease = .started) : Moves g s s' := by
  unfold tickAuthorized at h
  dsimp only at h
  generalize hmid : (if s.auth.authorization ≠ [] ∧ s.rpcAuthenticate.isNone = true then
    s.createRequestAuthUserGet outside.now outside.auth else s) = mid at h
  have hfirst : Moves g s mid ∧ mid.cluster = s.cluster := by
    rw [← hmid]
    split
    · exact ⟨(Move.userGet outside.now outside.auth hauth).moves,
        createRequestAuthUserGet_cluster _ _ _⟩
    · exact ⟨.refl s, rfl⟩
  refine hfirst.1.trans ?_
  split at h
  · split at h
    · exact createRequestLeaseGrant_moves h hgain
    · obtain ⟨kept, hkept, h⟩ := Option.bind_eq_some_iff.1 h
      exact (tickLease_moves hkept hgain).trans (tickPending_moves h)
  · have hup : Move g mid (mid.setFlagRunning true) := .up (by rw [hfirst.2, hopen])
    exact hup.moves.trans (tickPending_moves h)

theorem tickHost_moves (hopen : s.cluster.closing = false) (h : s.tickHost outside = some s')
    (hgain : g → outside.AllStart) : Moves g s s' := by
  unfold tickHost at h
  split at h
  · exact .of_eq h
  split at h
  · split at h
    · cases h
      exact (Move.authenticate outside.now outside.auth fun hg => (hgain hg).auth).moves
    · exact .of_eq h
  · next hauth =>
    exact tickAuthorized_moves hopen (by simpa using hauth) h fun hg => (hgain hg).lease

theorem tickMembers_closing (h : s.tickMembers outside = some s') :
    s'.cluster.closing = s.cluster.closing := by
  unfold tickMembers at h
  split at h
  · obtain ⟨⟨cluster, sent⟩, hcluster, h⟩ := Option.bind_eq_some_iff.1 h
    cases h
    cases EtcdCluster.createRequestMemberUpdate_cases hcluster <;> rfl
  · cases h
    rfl

theorem tick_moves (h : s.tick outside = some s') (hgain : g → outside.AllStart) :
    Moves g s s' := by
  by_cases hmulti : s.cluster.curlMulti = true
  · by_cases hopen : s.cluster.closing = false
    · rw [tick_eq hmulti hopen] at h
      obtain ⟨mid, hmid, h⟩ := Option.bind_eq_some_iff.1 h
      exact (tickMembers_moves hmid fun hg => (hgain hg).members).trans
        (tickHost_moves ((tickMembers_closing hmid).trans hopen) h hgain)
    · rw [tick, if_neg (by simp [hmulti]), if_pos (by simpa using hopen)] at h
      exact .of_eq h
  · rw [tick, if_pos (by simpa using hmulti)] at h
    exact .of_eq h

/-! ## Failed requests -/

theorem retryAfterNetworkError_moves {answer : HttpAnswer} {url : Bytes}
    (h : s.retryAfterNetworkError answer url outside = some s')
    (hgain : g → answer.errorCode = 0) : Moves g s s' := by
  obtain ⟨cluster, hcluster, h⟩ := Option.bind_eq_some_iff.1 h
  cases h
  unfold EtcdCluster.retryAfterNetworkError at hcluster
  split at hcluster
  · next herror =>
    have hloss : ¬ g := fun hg => herror (hgain hg)
    obtain ⟨⟨after, sent⟩, hafter, hcluster⟩ := Option.map_eq_some_iff.1 hcluster
    obtain rfl : after = cluster := hcluster
    obtain ⟨mid, hshape, hsub, hselected, hlast⟩ :=
      EtcdCluster.retryRequestMemberUpdate_retried hafter
    have hdropped : Move g s { s with cluster := mid } := by
      rw [hshape]
      exact .dropped _ _ hsub hselected hloss
    refine hdropped.moves.trans ?_
    rcases hlast with hrequest | rfl | ⟨next, rfl⟩
    · exact (Move.members (s := { s with cluster := mid }) _ _ after hrequest
        fun hg => absurd hg hloss).moves
    · exact .refl _
    · exact (Move.sooner (s := { s with cluster := mid }) next hloss).moves
  · cases hcluster
    exact .refl s

theorem checkAuthorizationExpired_moves (codec : SessionCodec) (s : EtcdSession) (httpCode : Int)
    (content : Bytes) (hgain : g → tokenExpired codec httpCode content = false) :
    Moves g s (s.checkAuthorizationExpired codec httpCode content) := by
  unfold checkAuthorizationExpired
  split
  · next hexpired =>
    exact (Move.expired fun hg => by simp [hgain hg] at hexpired).moves
  · exact .refl s

/-! ## The members -/

/-- An answer that names hosts. -/
def NamesHosts (codec : SessionCodec) (answer : HttpAnswer) : Prop :=
  answer.failed = false ∧ ∃ doc members urls,
    EtcdPacker.parseObject codec.toTextCodec answer.content = some doc ∧
    doc.findMember (ascii "members") = some (some (.array members)) ∧
    members.mapM EtcdCluster.unpackClientUrls = some urls ∧ urls.flatten ≠ [] ∧ [] ∉ urls.flatten

theorem onMemberUpdate_known {cluster after : EtcdCluster} {now : Int} {draw : Nat} {doc : Json}
    {members : List Json}
    (hmembers : doc.findMember (ascii "members") = some (some (.array members)))
    (h : cluster.onMemberUpdate now draw doc = some after) :
    ∃ urls, members.mapM EtcdCluster.unpackClientUrls = some urls ∧
      ∃ pathNode next,
        (pathNode = cluster.conf.pathNode ∧ pathNode ∈ urls.flatten ∨
          ∃ draw, pathNode = EtcdCluster.pickHost urls.flatten draw) ∧
        after = { cluster with conf := { cluster.conf with
          hosts := urls.flatten, pathNode, etcdMembersNextUpdateTime := next } } := by
  unfold EtcdCluster.onMemberUpdate at h
  simp only [hmembers, Option.bind_eq_bind, Option.bind_some] at h
  obtain ⟨urls, hurls, h⟩ := Option.bind_eq_some_iff.1 h
  refine ⟨urls, hurls, ?_⟩
  cases h
  by_cases hknown : cluster.conf.pathNode ∈ urls.flatten
  · simp only [if_pos hknown]
    exact ⟨_, _, Or.inl ⟨rfl, hknown⟩, rfl⟩
  · simp only [if_neg hknown]
    exact ⟨_, _, Or.inr ⟨draw, rfl⟩, rfl⟩

theorem onMemberUpdate_moves {codec : SessionCodec} {answer : HttpAnswer}
    (h : s.onMemberUpdate codec answer outside = some s') (hgain : g → outside.AllStart ∧
      (s.cluster.rpcUpdateMembers.isSome → NamesHosts codec answer)) : Moves g s s' := by
  unfold onMemberUpdate at h
  cases hrpc : s.cluster.rpcUpdateMembers with
  | none =>
    simp only [hrpc] at h
    exact .of_eq h
  | some request =>
    have hnames : g → NamesHosts codec answer := fun hg => (hgain hg).2 (by simp [hrpc])
    simp only [hrpc] at h
    split at h
    · next hfailed =>
      have hloss : ¬ g := fun hg => by simp [(hnames hg).1] at hfailed
      exact (Move.membersFailed hloss).moves.trans (retryAfterNetworkError_moves h
        fun hg => absurd hg hloss)
    cases hdoc : EtcdPacker.parseObject codec.toTextCodec answer.content with
    | none =>
      simp only [hdoc] at h
      cases h
      refine (Move.membersFailed fun hg => ?_).moves
      obtain ⟨-, doc, _, _, hparse, -⟩ := hnames hg
      simp [hdoc] at hparse
    | some doc =>
      simp only [hdoc] at h
      obtain ⟨found, hfound, h⟩ := Option.bind_eq_some_iff.1 h
      have hgone : (∀ members, found ≠ some (.array members)) → ¬ g := by
        intro hnot hg
        obtain ⟨-, doc', members, -, hparse, hmembers, -⟩ := hnames hg
        rw [hdoc] at hparse
        cases hparse
        exact hnot members (Option.some.inj (hfound.symm.trans hmembers))
      split at h
      · next members =>
        obtain ⟨cluster, hcluster, h⟩ := Option.bind_eq_some_iff.1 h
        obtain ⟨urls, hurls, pathNode, next, hselected, rfl⟩ :=
          onMemberUpdate_known hfound hcluster
        refine (Move.known urls.flatten pathNode next (by simp [hrpc]) hselected
          fun hg => ?_).moves.trans (tick_moves h fun hg => (hgain hg).1)
        obtain ⟨-, doc', members', urls', hparse, hmembers, hurls', hne, hnot⟩ := hnames hg
        rw [hdoc] at hparse
        cases hparse
        cases hfound.symm.trans hmembers
        cases hurls.symm.trans hurls'
        exact ⟨hne, hnot⟩
      · next hnot =>
        cases h
        exact (Move.membersFailed (hgone fun members heq => hnot members heq)).moves

/-! ## The authorization -/

/-- An answer to a request for the authorization that is not an error, with a token if one was asked
    for. -/
def Authorizes (codec : SessionCodec) (request : AuthRequest) (answer : HttpAnswer) : Prop :=
  answer.failed = false ∧ ∀ name password, request.body = .authenticate name password →
    ∃ doc token, EtcdPacker.parseObject codec.toTextCodec answer.content = some doc ∧
      EtcdPacker.unpackString codec doc (ascii "token") = some (some token)

theorem onAuthenticated_moves {codec : SessionCodec} {doc : Json} {token : Bytes}
    (htoken : EtcdPacker.unpackString codec doc (ascii "token") = some (some token)) :
    ∃ after, ({ s with rpcAuthenticate := none } : EtcdSession).onAuthenticated codec doc outside =
      some after ∧ Moves g s after ∧ after.auth.authorizationHeader ≠ [] := by
  unfold onAuthenticated
  simp only [htoken, Option.bind_eq_bind, Option.bind_some]
  have hheader : ascii "Authorization: " ++ token ≠ [] := by simp [ascii]
  have hfirst : Move g s { s with
      rpcAuthenticate := none
      auth := { s.auth with authorizationHeader := ascii "Authorization: " ++ token } } :=
    .authorized _ hheader
  obtain ⟨retried, hretried, hmove, hauth⟩ := retryPendingActions_spec { s with
      rpcAuthenticate := none
      auth := { s.auth with authorizationHeader := ascii "Authorization: " ++ token } } outside
  have hkept : retried.auth.authorizationHeader ≠ [] := by
    rw [hauth]
    exact hheader
  have hrpc : retried.rpcAuthenticate = none := by
    obtain ⟨cluster, -, h⟩ := Option.bind_eq_some_iff.1 hretried
    cases h
    rfl
  generalize hinterval : (if retried.auth.authUserGetRetryInterval ≤ 0 then (0 : Int)
    else retried.auth.authUserGetRetryInterval) = interval
  have hlast : Move g retried { retried with
      auth := { retried.auth with authUserGetNextUpdateTime := outside.now + interval } } := by
    have hsame : Move g retried { retried with
        auth := { retried.auth with authUserGetNextUpdateTime := outside.now + interval }
        rpcAuthenticate := none } := .authorized _ hkept
    rwa [← hrpc] at hsame
  refine ⟨_, ?_, hfirst.moves.trans (hmove.moves.trans hlast.moves), hkept⟩
  rw [hretried]
  simp [hinterval]

theorem onUserGet_moves {doc : Json} (huser : s.AsksUser)
    (h : ({ s with rpcAuthenticate := none } : EtcdSession).onUserGet doc outside = some s') :
    Moves g s s' := by
  unfold onUserGet at h
  obtain ⟨found, hfound, h⟩ := Option.bind_eq_some_iff.1 h
  split at h
  · next roles =>
    exact (Move.userDone (roles.filterMap Json.string?) huser).moves.trans
      (retryPendingActions_move h).moves
  · cases h
    exact (Move.userDone s.auth.authorizationUserRoles huser).moves

theorem onAuthorization_moves {codec : SessionCodec} {answer : HttpAnswer}
    (h : s.onAuthorization codec answer outside = some s')
    (hgain : g → ∀ request, s.rpcAuthenticate = some request →
      Authorizes codec request answer) : Moves g s s' := by
  unfold onAuthorization at h
  cases hrpc : s.rpcAuthenticate with
  | none =>
    simp only [hrpc] at h
    exact .of_eq h
  | some request =>
    have hgood : g → Authorizes codec request answer := fun hg => hgain hg request hrpc
    simp only [hrpc] at h
    split at h
    · next hfailed =>
      have hloss : ¬ g := fun hg => by simp [(hgood hg).1] at hfailed
      obtain ⟨mid, hmid, h⟩ := Option.bind_eq_some_iff.1 h
      cases h
      exact (Move.authFailed hloss).moves.trans ((retryAfterNetworkError_moves hmid
        fun hg => absurd hg hloss).trans
        (checkAuthorizationExpired_moves codec mid _ _ fun hg => absurd hg hloss))
    cases hbody : request.body with
    | authenticate name password =>
      cases hdoc : EtcdPacker.parseObject codec.toTextCodec answer.content with
      | none =>
        simp only [hdoc] at h
        cases h
        refine (Move.authFailed fun hg => ?_).moves
        obtain ⟨doc, token, hparse, -⟩ := (hgood hg).2 name password hbody
        simp [hdoc] at hparse
      | some doc =>
        simp only [hdoc, hbody] at h
        cases htoken : EtcdPacker.unpackString codec doc (ascii "token") with
        | none =>
          unfold onAuthenticated at h
          simp [htoken] at h
        | some found =>
          cases found with
          | none =>
            unfold onAuthenticated at h
            simp only [htoken, Option.bind_eq_bind, Option.bind_some, pure] at h
            cases h
            refine (Move.authFailed fun hg => ?_).moves
            obtain ⟨doc', token, hparse, htoken'⟩ := (hgood hg).2 name password hbody
            rw [hdoc] at hparse
            cases hparse
            cases htoken.symm.trans htoken'
          | some token =>
            obtain ⟨after, hafter, hmoves, -⟩ :=
              onAuthenticated_moves htoken
            cases hafter.symm.trans h
            exact hmoves
    | userGet name =>
      have huser : s.AsksUser := ⟨request, name, hrpc, hbody⟩
      cases hdoc : EtcdPacker.parseObject codec.toTextCodec answer.content with
      | none =>
        simp only [hdoc] at h
        cases h
        exact (Move.userDone s.auth.authorizationUserRoles huser).moves
      | some doc =>
        simp only [hdoc, hbody] at h
        exact onUserGet_moves huser h

/-! ## The lease -/

/-- An answer with a lease. -/
def GivesLease (codec : SessionCodec) (answer : HttpAnswer) : Prop :=
  answer.failed = false ∧ ∃ doc lease isGrant,
    EtcdPacker.parseObject codec.toTextCodec answer.content = some doc ∧
    EtcdCluster.unpackLease codec.toTextCodec doc = some (.lease lease isGrant)

theorem unpackLease_ne_zero {codec : TextCodec} {doc : Json} {lease : Int} {isGrant : Bool}
    (h : EtcdCluster.unpackLease codec doc = some (.lease lease isGrant)) : lease ≠ 0 := by
  unfold EtcdCluster.unpackLease at h
  obtain ⟨result, -, h⟩ := Option.bind_eq_some_iff.1 h
  obtain ⟨ttl, -, h⟩ := Option.bind_eq_some_iff.1 h
  cases ttl with
  | none =>
    dsimp only at h
    split at h <;> cases h
  | some ttl =>
    obtain ⟨newLease, -, h⟩ := Option.bind_eq_some_iff.1 h
    by_cases hzero : newLease = 0
    · rw [if_pos hzero] at h
      cases h
    · rw [if_neg hzero] at h
      cases h
      exact hzero

theorem setLease_spec (s : EtcdSession) (v : Int) (force : Bool) (outside : SessionOutside) :
    ∃ after, s.setLease v force outside = some after ∧
      Move g { s with cluster := { s.cluster with conf := { s.cluster.conf with lease := v } } }
        after ∧ after.auth = s.auth ∧ after.rpcAuthenticate = s.rpcAuthenticate := by
  obtain ⟨cluster, hcluster, hlists, -⟩ := s.cluster.setLease_onlyLists v force outside.deletes
  refine ⟨_, ?_, .lists cluster (fun k => s.checked k || decide (k ∈ outside.unchecked)) s.ready
    hlists, rfl, rfl⟩
  rw [setLease, hcluster]
  rfl

theorem onLeaseKeepalive_moves {codec : SessionCodec} {answer : HttpAnswer}
    (h : s.onLeaseKeepalive codec answer outside = some s')
    (hgain : g → s.cluster.rpcKeepalive.isSome → GivesLease codec answer) :
    Moves g s s' := by
  unfold onLeaseKeepalive at h
  cases hrpc : s.cluster.rpcKeepalive with
  | none =>
    simp only [hrpc] at h
    exact .of_eq h
  | some request =>
    have hgood : g → GivesLease codec answer := fun hg => hgain hg (by simp [hrpc])
    simp only [hrpc] at h
    split at h
    · next hfailed =>
      have hloss : ¬ g := fun hg => by simp [(hgood hg).1] at hfailed
      obtain ⟨mid, hmid, h⟩ := Option.bind_eq_some_iff.1 h
      cases h
      exact (Move.leaseFailed hloss).moves.trans ((retryAfterNetworkError_moves hmid
        fun hg => absurd hg hloss).trans
        (checkAuthorizationExpired_moves codec mid _ _ fun hg => absurd hg hloss))
    cases hdoc : EtcdPacker.parseObject codec.toTextCodec answer.content with
    | none =>
      simp only [hdoc] at h
      cases h
      refine (Move.leaseFailed fun hg => ?_).moves
      obtain ⟨-, doc, _, _, hparse, -⟩ := hgood hg
      simp [hdoc] at hparse
    | some doc =>
      simp only [hdoc] at h
      obtain ⟨found, hfound, h⟩ := Option.bind_eq_some_iff.1 h
      have hgone : (∀ lease isGrant, found ≠ .lease lease isGrant) → ¬ g := by
        intro hnot hg
        obtain ⟨-, doc', lease, isGrant, hparse, hlease⟩ := hgood hg
        rw [hdoc] at hparse
        cases hparse
        exact hnot lease isGrant (Option.some.inj (hfound.symm.trans hlease))
      cases found with
      | grantFailed =>
        cases h
        exact (Move.leaseFailed (hgone fun _ _ heq => by cases heq)).moves
      | withoutId =>
        cases h
        exact (Move.leaseFailed (hgone fun _ _ heq => by cases heq)).moves
      | notFound =>
        have hloss : ¬ g := hgone fun _ _ heq => by cases heq
        obtain ⟨mid, hmid, h⟩ := Option.bind_eq_some_iff.1 h
        obtain ⟨after, hafter, hmove, -⟩ := setLease_spec
          ({ s with cluster := { s.cluster with rpcKeepalive := none } } : EtcdSession)
          0 false outside
        cases hafter.symm.trans hmid
        exact (Move.leaseFailed hloss).moves.trans ((Move.lost hloss).moves.trans
          (hmove.moves.trans (createRequestLeaseGrant_moves h fun hg => absurd hg hloss)))
      | lease lease isGrant =>
        have hgranted : Move g s (s.takeLease lease) :=
          .granted lease (by simp [hrpc]) (unpackLease_ne_zero hfound)
        refine hgranted.moves.trans ?_
        unfold takeLease
        dsimp only at h ⊢
        generalize (if (!s.cluster.running) = true ∧ (!s.cluster.closing) = true then
          ({ s with cluster := { s.cluster with rpcKeepalive := none } } : EtcdSession
            ).setFlagRunning true
          else { s with cluster := { s.cluster with rpcKeepalive := none } }) = mid at h ⊢
        obtain ⟨after, hafter, hmove, -⟩ := setLease_spec mid lease isGrant outside
        cases hafter.symm.trans h
        exact hmove.moves

/-! ## Deleted paths -/

theorem deleteKeepaliveDeletor_onlyLists {cluster after : EtcdCluster} {deletor : KeepaliveDeletor}
    (h : cluster.deleteKeepaliveDeletor deletor = some after) : cluster.OnlyLists after := by
  cases (cluster.deleteKeepaliveDeletor_eq deletor).symm.trans h
  rfl

theorem onDeleted_moves {codec : SessionCodec} {i : Nat} {answer : HttpAnswer}
    (h : s.onDeleted codec i answer outside = some s')
    (hgain : g → answer.errorCode = 0 ∧
      tokenExpired codec answer.responseCode answer.content = false) : Moves g s s' := by
  unfold onDeleted at h
  cases hdeletor : s.cluster.deleting[i]? with
  | none =>
    simp only [hdeletor] at h
    exact .of_eq h
  | some deletor =>
    simp only [hdeletor] at h
    obtain ⟨cluster, hcluster, h⟩ := Option.bind_eq_some_iff.1 h
    have hlast : Moves g s { s with cluster } := by
      have herased : Move g s { s with
          cluster := { s.cluster with deleting := s.cluster.deleting.eraseIdx i } } :=
        .lists _ s.checked s.ready rfl
      refine herased.moves.trans ?_
      unfold EtcdCluster.onRemoveKeepalivePath at hcluster
      dsimp only at hcluster
      split at hcluster
      · split at hcluster
        · obtain ⟨mid, hmid, hcluster⟩ := Option.bind_eq_some_iff.1 hcluster
          have hretried : ({ s with cluster := { s.cluster with
              deleting := s.cluster.deleting.eraseIdx i } } : EtcdSession).retryAfterNetworkError
                answer ((deletor.rpc.map (·.url)).getD []) outside =
              some { s with cluster := mid } := by
            rw [retryAfterNetworkError]
            dsimp only
            rw [hmid]
            rfl
          exact (retryAfterNetworkError_moves hretried fun hg => (hgain hg).1).trans
            (Move.lists (s := { s with cluster := mid }) cluster s.checked s.ready
              (EtcdCluster.removeKeepalivePath_onlyLists hcluster)).moves
        · exact (Move.lists (s := { s with cluster := { s.cluster with
            deleting := s.cluster.deleting.eraseIdx i } }) cluster s.checked s.ready
            (deleteKeepaliveDeletor_onlyLists hcluster)).moves
      · exact (Move.lists (s := { s with cluster := { s.cluster with
          deleting := s.cluster.deleting.eraseIdx i } }) cluster s.checked s.ready
          (deleteKeepaliveDeletor_onlyLists hcluster)).moves
    refine hlast.trans ?_
    split at h
    · cases h
      exact checkAuthorizationExpired_moves codec _ _ _ fun hg => (hgain hg).2
    · cases h
      exact .refl _

/-! ## Calls -/

theorem setFlagEnableLease_moves {cluster after : EtcdCluster} {s : EtcdSession}
    (hmid : s.cluster.setFlagEnableLease outside.now outside.lease = some cluster)
    (hlists : cluster.OnlyLists after) (hloss : s.cluster.enableLease = false → ¬ g) :
    Moves g s (s.setCluster after outside.now) := by
  have hlast : ∀ mid : EtcdSession, mid.cluster.OnlyLists after →
      Moves g mid { mid with cluster := after } :=
    fun mid h => (Move.lists after mid.checked mid.ready h).moves
  have hnext : after.conf = cluster.conf := by rw [hlists]
  rcases EtcdCluster.setFlagEnableLease_cases hmid with ⟨-, rfl⟩ | ⟨hoff, rfl | hrequest⟩
  · have h := hlast s hlists
    rwa [setCluster, if_pos (by rw [hnext])]
  · have h := hlast { s with cluster := { s.cluster with enableLease := true } } hlists
    rw [setCluster, if_pos (by rw [hnext])]
    exact (Move.enabled (hloss hoff)).moves.trans h
  · have hlease : Move g { s with cluster := { s.cluster with enableLease := true } } _ :=
      .lease outside.now outside.lease cluster hrequest fun hg => absurd hg (hloss hoff)
    have h := hlast _ (show (EtcdSession.setCluster { s with
      cluster := { s.cluster with enableLease := true } } cluster outside.now).cluster.OnlyLists
        after from hlists)
    refine (Move.enabled (hloss hoff)).moves.trans (hlease.moves.trans ?_)
    have heq : (s.setCluster after outside.now) = { EtcdSession.setCluster { s with
        cluster := { s.cluster with enableLease := true } } cluster outside.now with
          cluster := after } := by
      simp [setCluster, hnext]
    rwa [heq]

theorem addKeepalive_moves {keepalive : Nat} {path : Bytes}
    (h : s.addKeepalive keepalive path outside = some s')
    (hloss : s.cluster.enableLease = false → ¬ g) : Moves g s s' := by
  obtain ⟨⟨cluster, added⟩, hcluster, h⟩ := Option.bind_eq_some_iff.1 h
  cases h
  have hlast : ∀ mid : EtcdSession, Moves g mid (mid.activate outside.unchecked) :=
    fun mid => (Move.lists mid.cluster _ mid.ready rfl).moves
  refine Moves.trans ?_ (hlast _)
  rcases EtcdCluster.addKeepalive_enables hcluster with rfl | ⟨mid, hmid, hlists⟩
  · rw [setCluster_self]
    exact .refl s
  · exact setFlagEnableLease_moves hmid hlists hloss

theorem addRetryKeepalive_moves {keepalive : Nat}
    (h : s.addRetryKeepalive keepalive outside = some s')
    (hloss : s.cluster.enableLease = false → ¬ g) : Moves g s s' := by
  obtain ⟨⟨cluster, added⟩, hcluster, h⟩ := Option.bind_eq_some_iff.1 h
  cases h
  rcases EtcdCluster.addRetryKeepalive_enables hcluster with rfl | ⟨mid, hmid, hlists⟩
  · rw [setCluster_self]
    exact .refl s
  · exact setFlagEnableLease_moves hmid hlists hloss

theorem close_moves (h : s.close = some s') (hloss : ¬ g) : Moves g s s' := by
  obtain ⟨cluster, hcluster, h⟩ := Option.bind_eq_some_iff.1 h
  cases h
  refine (Move.shut hloss).moves.trans ?_
  exact (Move.lists (s := s.shut) cluster _ s.shut.ready
    (EtcdCluster.close_onlyLists hcluster)).moves

/-! ## Steps -/

/-- A good step: requests start, and what is asked for is answered. Nothing fails, and the lease is
    not turned on. -/
def Good (codec : SessionCodec) (s : EtcdSession) : SessionStep → Prop
  | .tick outside => outside.AllStart
  | .members answer outside => outside.AllStart ∧
    (s.cluster.rpcUpdateMembers.isSome → NamesHosts codec answer)
  | .authorization answer _ =>
    ∀ request, s.rpcAuthenticate = some request → Authorizes codec request answer
  | .lease answer _ => s.cluster.rpcKeepalive.isSome → GivesLease codec answer
  | .deleted _ answer _ =>
    answer.errorCode = 0 ∧ tokenExpired codec answer.responseCode answer.content = false
  | .failed httpCode content => tokenExpired codec httpCode content = false
  | .addKeepalive _ _ _ | .addRetryKeepalive _ _ => s.cluster.enableLease = true
  | .close => False
  | .init | .removeKeepalive _ _ _ _ _ | .activated _ | .checked _ _ => True

/-- **A step is a chain of moves**, and a good step takes nothing back. -/
theorem step_moves (codec : SessionCodec) (s : EtcdSession) (i : SessionStep) :
    Moves (Good codec s i) s (step codec s i) := by
  unfold step
  cases hstep : s.stepOption codec i with
  | none => exact .refl s
  | some s' =>
    rw [Option.getD_some]
    cases i with
    | init =>
      cases hstep
      exact Move.init.moves
    | tick outside => exact tick_moves hstep id
    | members answer outside => exact onMemberUpdate_moves hstep id
    | authorization answer outside => exact onAuthorization_moves hstep id
    | lease answer outside => exact onLeaseKeepalive_moves hstep id
    | deleted i answer outside => exact onDeleted_moves hstep id
    | failed httpCode content =>
      cases hstep
      exact checkAuthorizationExpired_moves codec s httpCode content id
    | addKeepalive keepalive path outside =>
      refine addKeepalive_moves hstep fun hoff hgood => ?_
      rw [show s.cluster.enableLease = true from hgood] at hoff
      cases hoff
    | addRetryKeepalive keepalive outside =>
      refine addRetryKeepalive_moves hstep fun hoff hgood => ?_
      rw [show s.cluster.enableLease = true from hgood] at hoff
      cases hoff
    | removeKeepalive keepalive path hasData addr outside =>
      obtain ⟨⟨cluster, found⟩, hcluster, hstep⟩ := Option.bind_eq_some_iff.1 hstep
      have hlists := EtcdCluster.removeKeepalive_onlyLists hcluster
      dsimp only at hstep
      split at hstep
      · cases hstep
        exact (Move.lists cluster _ s.ready hlists).moves
      · cases hstep
        exact (Move.lists cluster s.checked s.ready hlists).moves
    | activated keepalive =>
      cases hstep
      exact (Move.lists s.cluster _ s.ready rfl).moves
    | checked keepalive passed =>
      cases hstep
      unfold onChecked
      have hfirst : Move (Good codec s (.checked keepalive passed)) s
          { s with checked := Function.update s.checked keepalive passed } :=
        .lists s.cluster _ s.ready (EtcdCluster.OnlyLists.refl _)
      dsimp only
      split
      · exact hfirst.moves.trans (resolveReady_move _).moves
      · exact hfirst.moves
    | close => exact close_moves hstep id

end

end EtcdSession

end LibAtapp
