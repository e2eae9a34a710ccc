import LibAtapp.Atbus.Proxies
import LibAtapp.Atbus.Reconnect

set_option autoImplicit false

/-! # The cache of connect results

`on_start_connect` returns the result of the last call again where the bus id and the address of the
application handle are the same. Whether a call fails depends on the routes to the target alone, and
a call that fails changes no entry. A call that succeeds leaves the handle in the entry of the
target, unless that entry or the one of its proxy has no reconnect left, and this is what an answer
from the cache can get wrong: the handle may be another one. -/

namespace LibAtapp.Atbus

namespace Connector

variable {s t : Connector} {id a o : Nat}

/-! ## What a connect that fails depends on -/

/-- The nodes that a connection to an id can begin with. -/
def IsOnWay (s : Connector) (id node : Nat) : Prop :=
  node = id ∨ ∃ peer ∈ s.around.peers id, peer.busId = node

/-- The rules, the topology of an id, and the endpoints and the discovery of the nodes on the way to
    it are the same. -/
structure SameRoutes (id : Nat) (s t : Connector) : Prop where
  node : t.around.nodeId = s.around.nodeId
  upstream : t.around.upstreamEndpoint = s.around.upstreamEndpoint
  allowDirect : t.around.conf.allowDirectConnection = s.around.conf.allowDirectConnection
  sameUpstream : t.around.conf.requireSameUpstream = s.around.conf.requireSameUpstream
  relation : t.around.relation id = s.around.relation id
  nextHop : t.around.nextHop id = s.around.nextHop id
  peers : t.around.peers id = s.around.peers id
  onWay : ∀ node, IsOnWay s id node → t.hasEndpoint node = s.hasEndpoint node ∧
    t.around.discovery node = s.around.discovery node

theorem SameRoutes.refl (id : Nat) : SameRoutes id s s :=
  ⟨rfl, rfl, rfl, rfl, rfl, rfl, rfl, fun _ _ => ⟨rfl, rfl⟩⟩

/-- Both calls succeed, or both fail with the same error and change nothing. -/
def SameVerdict (s t : Connector) (r r' : Connector × ConnectResult) : Prop :=
  r.2 = .success ∧ r'.2 = .success ∨ ∃ error, error ≠ .success ∧ r = (s, error) ∧ r' = (t, error)

theorem SameVerdict.result {r r' : Connector × ConnectResult} (h : SameVerdict s t r r') :
    r'.2 = r.2 := by
  rcases h with ⟨h, h'⟩ | ⟨error, -, h, h'⟩
  · rw [h, h']
  · rw [h, h']

theorem SameVerdict.tryNext {r r' : Connector × ConnectResult} (h : SameVerdict s t r r')
    (hnext : r.2 = .tryNext) : r = (s, .tryNext) ∧ r' = (t, .tryNext) := by
  rcases h with ⟨h, -⟩ | ⟨error, -, h, h'⟩
  · rw [hnext] at h
    cases h
  · rw [h] at hnext
    obtain rfl : error = .tryNext := hnext
    exact ⟨h, h'⟩

theorem sameVerdict_error {error : ConnectResult} (h : error ≠ .success) :
    SameVerdict s t (s, error) (t, error) :=
  .inr ⟨error, h, rfl, rfl⟩

theorem connectTo_result (reenter : Connector → Nat → Connector) (s : Connector)
    (handle : Option Nat) (proxyId : Nat) (address : Bytes) :
    (s.connectTo reenter id handle proxyId address).2 = .success := by
  unfold connectTo
  dsimp only
  split_ifs <;> rfl

theorem connectByNextHop_result (reenter : Connector → Nat → Connector) (s : Connector)
    (handle : Option Nat) (nextHop : Nat) :
    (s.connectByNextHop reenter id handle nextHop).2 = .success := by
  unfold connectByNextHop
  dsimp only
  split_ifs <;> rfl

/-- The verdict of the candidates in order. -/
theorem connectByCandidates_verdict (reenter reenter' : Connector → Nat → Connector)
    (id : Nat) (handle : Option Nat) {candidates : List Candidate}
    (h : ∀ candidate ∈ candidates, t.hasEndpoint candidate.busId = s.hasEndpoint candidate.busId ∧
      t.around.discovery candidate.busId = s.around.discovery candidate.busId) :
    SameVerdict s t (connectByCandidates reenter id handle true candidates s)
      (connectByCandidates reenter' id handle true candidates t) := by
  induction candidates with
  | nil => exact .inr ⟨.tryNext, by decide, rfl, rfl⟩
  | cons candidate rest ih =>
      obtain ⟨hendpoint, hdiscovery⟩ := h candidate List.mem_cons_self
      have hrest := ih fun candidate hmem => h candidate (List.mem_cons_of_mem _ hmem)
      simp only [connectByCandidates, hendpoint, hdiscovery, Bool.not_true, Bool.false_and,
        Bool.false_eq_true, if_false, if_true]
      by_cases hallowed : (!candidate.isAllowed) = true
      · rw [if_pos hallowed, if_pos hallowed]
        exact hrest
      · rw [if_neg hallowed, if_neg hallowed]
        by_cases hthrough : s.hasEndpoint candidate.busId = true
        · rw [if_pos hthrough, if_pos hthrough]
          exact .inl ⟨rfl, rfl⟩
        · rw [if_neg hthrough, if_neg hthrough]
          cases s.around.discovery candidate.busId with
          | none => exact .inl ⟨rfl, rfl⟩
          | some gateways =>
            dsimp only
            split
            · exact .inl ⟨connectTo_result reenter s handle _ _, connectTo_result reenter' t handle _ _⟩
            · exact hrest

theorem mem_candidates {candidate : Candidate} (h : candidate ∈ s.candidates id) :
    IsOnWay s id candidate.busId := by
  unfold candidates at h
  cases hpeers : s.around.peers id with
  | nil =>
    rw [hpeers] at h
    dsimp only at h
    split_ifs at h
    · obtain rfl := List.mem_singleton.1 h
      exact .inl rfl
    · cases h
  | cons peer above =>
    rw [hpeers] at h
    obtain ⟨p, hp, rfl⟩ := List.mem_map.1 h
    right
    rw [hpeers]
    exact ⟨p, hp, rfl⟩

theorem onStartConnectToConnectedEndpoint_verdict (handle : Option Nat) (h : SameRoutes id s t) :
    SameVerdict s t (s.onStartConnectToConnectedEndpoint id handle)
      (t.onStartConnectToConnectedEndpoint id handle) := by
  have hsuccess : ∀ (s : Connector) o, (if s.checkAtbusEndpointAvailable id then
      (s.setHandleReady o, ConnectResult.success) else (s.setHandleUnready o, .success)).2 =
        .success := by
    intro s o
    split_ifs <;> rfl
  unfold onStartConnectToConnectedEndpoint
  rw [h.node, h.upstream, (h.onWay id (.inl rfl)).1]
  by_cases hzero : id = 0
  · rw [if_pos hzero, if_pos hzero]
    exact sameVerdict_error (by decide)
  · rw [if_neg hzero, if_neg hzero]
    by_cases hself : s.around.nodeId = id
    · rw [if_pos hself, if_pos hself]
      exact .inl ⟨rfl, rfl⟩
    · rw [if_neg hself, if_neg hself]
      by_cases hendpoint : s.around.upstreamEndpoint = some id ∨ s.hasEndpoint id = true
      · rw [if_pos hendpoint, if_pos hendpoint]
        exact .inl ⟨hsuccess _ _, hsuccess _ _⟩
      · rw [if_neg hendpoint, if_neg hendpoint]
        exact sameVerdict_error (by decide)

theorem sameOrOtherUpstreamPeer_verdict (reenter reenter' : Connector → Nat → Connector)
    (handle : Option Nat) (h : SameRoutes id s t) :
    SameVerdict s t
      (if s.allowsDirect id then s.onStartConnectToSameOrOtherUpstreamPeer reenter id handle true
        else (s, .tryNext))
      (if t.allowsDirect id then t.onStartConnectToSameOrOtherUpstreamPeer reenter' id handle true
        else (t, .tryNext)) := by
  have hrules : t.allowsDirect id = s.allowsDirect id := by
    unfold allowsDirect
    rw [h.relation, h.allowDirect, h.sameUpstream]
  have hcandidates : t.candidates id = s.candidates id := by
    unfold candidates
    rw [h.peers, h.relation]
  unfold onStartConnectToSameOrOtherUpstreamPeer
  rw [hrules, hcandidates]
  split_ifs with hallowed hzero
  · exact sameVerdict_error (by decide)
  · have hcases := connectByCandidates_verdict reenter reenter' id handle
      (fun candidate hmem => h.onWay _ (mem_candidates hmem))
    cases hlist : s.candidates id with
    | nil => exact sameVerdict_error (by decide)
    | cons candidate rest =>
      rw [hlist] at hcases
      exact hcases
  · exact sameVerdict_error (by decide)

theorem streamPeer_verdict (reenter reenter' : Connector → Nat → Connector)
    (handle : Option Nat) (h : SameRoutes id s t) :
    SameVerdict s t
      (if (s.around.relation id).isStream then
        s.onStartConnectToStreamPeer reenter id handle (s.around.nextHop id) else (s, .tryNext))
      (if (t.around.relation id).isStream then
        t.onStartConnectToStreamPeer reenter' id handle (t.around.nextHop id)
        else (t, .tryNext)) := by
  unfold onStartConnectToStreamPeer
  rw [h.relation, h.nextHop]
  by_cases hrelation : (s.around.relation id).isStream = true
  · rw [if_pos hrelation, if_pos hrelation]
    cases s.around.nextHop id with
    | none => exact sameVerdict_error (by decide)
    | some nextHop =>
      dsimp only
      split_ifs
      · exact sameVerdict_error (by decide)
      · exact .inl ⟨connectByNextHop_result _ s _ _, connectByNextHop_result _ t _ _⟩
  · rw [if_neg hrelation, if_neg hrelation]
    exact sameVerdict_error (by decide)

theorem proxyByUpstream_verdict (reenter reenter' : Connector → Nat → Connector)
    (handle : Option Nat) (h : SameRoutes id s t) :
    SameVerdict s t (s.onStartConnectToProxyByUpstream reenter id handle)
      (t.onStartConnectToProxyByUpstream reenter' id handle) := by
  unfold onStartConnectToProxyByUpstream
  rw [h.upstream]
  split_ifs
  · exact sameVerdict_error (by decide)
  · cases s.around.upstreamEndpoint.getD 0 with
    | zero => exact sameVerdict_error (by decide)
    | succ n => exact .inl ⟨connectByNextHop_result _ s _ _, connectByNextHop_result _ t _ _⟩

/-- The verdict of `try_connect_to`. -/
theorem tryConnectTo_verdict (reenter reenter' : Connector → Nat → Connector)
    (handle : Option Nat) (h : SameRoutes id s t) :
    SameVerdict s t (s.tryConnectTo reenter id handle true)
      (t.tryConnectTo reenter' id handle true) := by
  have hconnected := onStartConnectToConnectedEndpoint_verdict handle h
  have hdirect := sameOrOtherUpstreamPeer_verdict reenter reenter' handle h
  have hstream := streamPeer_verdict reenter reenter' handle h
  simp only [tryConnectTo]
  by_cases hnext : (s.onStartConnectToConnectedEndpoint id handle).2 = .tryNext
  · rw [if_neg (not_not_intro hnext), if_neg (not_not_intro (hconnected.result.trans hnext))]
    generalize (if s.allowsDirect id = true then
      s.onStartConnectToSameOrOtherUpstreamPeer reenter id handle true else (s, .tryNext)) = direct
      at hdirect ⊢
    generalize (if t.allowsDirect id = true then
      t.onStartConnectToSameOrOtherUpstreamPeer reenter' id handle true else (t, .tryNext)) = direct'
      at hdirect ⊢
    by_cases hnext' : direct.2 = .tryNext
    · obtain ⟨rfl, rfl⟩ := hdirect.tryNext hnext'
      simp only [ne_eq, not_true_eq_false, if_false]
      generalize (if (s.around.relation id).isStream = true then
        s.onStartConnectToStreamPeer reenter id handle (s.around.nextHop id) else (s, .tryNext)) =
        stream at hstream ⊢
      generalize (if (t.around.relation id).isStream = true then
        t.onStartConnectToStreamPeer reenter' id handle (t.around.nextHop id) else (t, .tryNext)) =
        stream' at hstream ⊢
      by_cases hlast : stream.2 = .tryNext
      · obtain ⟨rfl, rfl⟩ := hstream.tryNext hlast
        exact proxyByUpstream_verdict reenter reenter' handle h
      · have hnot : stream'.2 ≠ .tryNext := by rw [hstream.result]; exact hlast
        rw [if_pos hlast, if_pos hnot]
        exact hstream
    · have hnot : direct'.2 ≠ .tryNext := by rw [hdirect.result]; exact hnext'
      rw [if_pos hnext', if_pos hnot]
      exact hdirect
  · have hnot : (t.onStartConnectToConnectedEndpoint id handle).2 ≠ .tryNext := by
      rw [hconnected.result]
      exact hnext
    rw [if_pos hnext, if_pos hnot]
    exact hconnected

/-! ## What a connect that succeeds leaves -/

/-- The entry of a target has an application handle. -/
def IsBound (s : Connector) (id a : Nat) : Prop :=
  ∃ o, s.find id = some o ∧ (s.objects o).appHandle = some a

/-- An id was given up because its entry has no reconnect left. -/
def GivenUp (s t : Connector) (id : Nat) : Prop :=
  ∃ ids, t.abandoned = ids ++ s.abandoned ∧ id ∈ ids

/-- The target has the handle, or its own entry was given up. -/
def BoundOrGivenUp (s t : Connector) (id a : Nat) : Prop :=
  IsBound t id a ∨ GivenUp s t id

/-- A handle that no entry has. -/
def Unheld (s : Connector) (a : Nat) : Prop :=
  ∀ id o, s.find id = some o → (s.objects o).appHandle ≠ some a

theorem IsBound.quiet (h : IsBound s id a) (hs : s.WellFormed) (hquiet : Quiet s t) :
    IsBound t id a := by
  obtain ⟨o, hfind, happ⟩ := h
  exact ⟨o, (hquiet.find id).trans hfind,
    ((hquiet.leads hs (.inl trivial)).frame.appHandle o).trans happ⟩

theorem setHandleLostTopology_appHandle (s : Connector) (o p : Nat) :
    ((s.setHandleLostTopology o).objects p).appHandle = (s.objects p).appHandle := by
  unfold setHandleLostTopology
  dsimp only
  split_ifs
  · rfl
  · rw [updateTimer, objects_modify, objects_modify, objects_modify]
    split_ifs with h <;> simp [h]

/-- What `mutable_connection_handle` returns, and what it leaves of the other entries. -/
structure Mutated (s : Connector) (id : Nat) (handle : Option Nat) (next : Connector × Nat) :
    Prop where
  found : next.1.find id = some next.2
  withHandle : ∀ a, handle = some a → (next.1.objects next.2).appHandle = some a
  withoutHandle : handle = none → (next.1.objects next.2).appHandle = none ∨
    s.find id = some next.2 ∧
      (next.1.objects next.2).appHandle = (s.objects next.2).appHandle
  others : ∀ id', id' ≠ id → next.1.find id' = s.find id' ∧ ∀ p, s.find id' = some p →
    (next.1.objects p).appHandle = (s.objects p).appHandle
  endpoints : next.1.endpoints = s.endpoints
  abandoned : next.1.abandoned = s.abandoned
  wellFormed : next.1.WellFormed

theorem mutated_create (hs : s.WellFormed) (id : Nat) (handle : Option Nat) :
    Mutated s id handle (s.createConnectionHandle id handle, s.allocated) := by
  have happ : ((s.createConnectionHandle id handle).objects s.allocated).appHandle = handle := by
    simp [createConnectionHandle]
  refine ⟨?_, fun a ha => happ.trans ha, fun ha => .inl (happ.trans ha), fun id' hne => ⟨?_, ?_⟩,
    rfl, rfl, wellFormed_createConnectionHandle id handle hs⟩
  · rw [find_createConnectionHandle, if_pos rfl]
  · rw [find_createConnectionHandle, if_neg hne]
  · intro p hp
    have hlt : p ≠ s.allocated := Nat.ne_of_lt (hs id' p hp).2
    simp [createConnectionHandle, hlt]

theorem mutated_mutableConnectionHandle (hs : s.WellFormed) (id : Nat) (handle : Option Nat) :
    Mutated s id handle (s.mutableConnectionHandle id handle) := by
  unfold mutableConnectionHandle
  cases hfind : s.find id with
  | some o =>
    cases handle with
    | none =>
      exact ⟨hfind, fun a ha => (by cases ha), fun _ => .inr ⟨hfind, rfl⟩,
        fun id' _ => ⟨rfl, fun _ _ => rfl⟩, rfl, rfl, hs⟩
    | some a =>
      refine ⟨hfind, fun b hb => ?_, fun h => (by cases h), fun id' hne => ⟨rfl, fun p hp => ?_⟩,
        rfl, rfl, wellFormed_modify (fun _ => rfl) hs⟩
      · rw [objects_modify_self]
        exact hb
      · -- an entry of another id is another object
        have hother : p ≠ o := by
          rintro rfl
          exact hne ((hs id' p hp).1.symm.trans (hs id p hfind).1)
        rw [objects_modify_of_ne _ _ hother]
  | none =>
    have hcreated := mutated_create hs id handle
    dsimp only
    split_ifs
    · have hsame := setHandleLostTopology_sameMap (s.createConnectionHandle id handle) s.allocated
      have happ := setHandleLostTopology_appHandle (s.createConnectionHandle id handle) s.allocated
      obtain ⟨hfound, hhandle, hnone, hothers, hendpoints, habandoned, hwf⟩ := hcreated
      refine ⟨(hsame.find id).trans hfound, fun a ha => (happ _).trans (hhandle a ha),
        fun ha => ?_, fun id' hne => ⟨(hsame.find id').trans (hothers id' hne).1, fun p hp =>
          (happ p).trans ((hothers id' hne).2 p hp)⟩, hsame.endpoints.trans hendpoints,
        hsame.abandoned.trans habandoned, wellFormed_setHandleLostTopology _ hwf⟩
      exact (hnone ha).imp (fun h => (happ _).trans h) fun h => ⟨h.1, (happ _).trans h.2⟩
    · exact hcreated

theorem Mutated.unheld {next : Connector × Nat} (h : Mutated s id none next) (hs : Unheld s a) :
    Unheld next.1 a := by
  intro id' o ho
  by_cases hid : id' = id
  · subst hid
    obtain rfl := Option.some.inj (h.found.symm.trans ho)
    rcases h.withoutHandle rfl with hnone | ⟨hfind, heq⟩
    · rw [hnone]
      simp
    · rw [heq]
      exact hs id' _ hfind
  · obtain ⟨hfind, happ⟩ := h.others id' hid
    rw [hfind] at ho
    rw [happ o ho]
    exact hs id' o ho

theorem Mutated.noZero {next : Connector × Nat} {handle : Option Nat}
    (h : Mutated s id handle next) (hid : id ≠ 0) (hzero : s.find 0 = none) :
    next.1.find 0 = none :=
  ((h.others 0 (Ne.symm hid)).1).trans hzero

/-- The entry of a target that gets a handle which no other entry has. -/
theorem Mutated.target {next : Connector × Nat} (h : Mutated s id (some a) next) (hid : id ≠ 0)
    (hs : Unheld s a) (hzero : s.find 0 = none) (hendpoint : s.hasEndpoint id = false) :
    Target id next.2 next.1 := by
  refine ⟨h.found, ?_, fun id' p hp hne heq => ?_, h.noZero hid hzero⟩
  · unfold hasEndpoint
    rw [h.endpoints]
    exact hendpoint
  · obtain ⟨hfind, happ⟩ := h.others id' hne
    rw [hfind] at hp
    rw [h.withHandle a rfl, happ p hp] at heq
    exact absurd heq (hs id' p hp)

/-- On the way to the result of a connect: the target has the handle. -/
structure OnWayBound (s t : Connector) (id a depth : Nat) : Prop where
  wellFormed : t.WellFormed
  bound : IsBound t id a
  depth : t.endpoints.length < depth
  abandoned : s.abandoned <:+ t.abandoned

theorem OnWayBound.quiet {u : Connector} {depth : Nat} (h : OnWayBound s t id a depth)
    (hquiet : Quiet t u) : OnWayBound s u id a depth := by
  obtain ⟨hwf, hbound, hdepth, habandoned⟩ := h
  refine ⟨hquiet.leads.wellFormed hwf, hbound.quiet hwf hquiet, ?_, ?_⟩
  · rw [hquiet.endpoints]
    exact hdepth
  · rw [hquiet.abandoned]
    exact habandoned

section Reentrant

variable {depth : Nat} {reenter : Connector → Nat → Connector}
  (hreenter : ∀ scope s id, LeadsIn scope depth s (reenter s id))
  (hspares : ∀ s id', id' ≠ id → Spares id depth s (reenter s id'))

include hreenter

/-- Setting up the reconnect of the target leaves it, or gives it up. -/
theorem OnWayBound.setup_self (h : OnWayBound s t id a (depth + 1)) :
    OnWayBound s (t.setupReconnectTimer reenter id none).1 id a (depth + 1) ∨
      GivenUp s (t.setupReconnectTimer reenter id none).1 id := by
  obtain ⟨o, hfind, -⟩ := h.bound
  rcases setupReconnectTimer_cases reenter hfind none with ⟨-, hquiet⟩ | ⟨-, hgone⟩
  · exact .inl (h.quiet hquiet)
  · right
    rw [hgone]
    have hremoved : Changes Scope.inner { t with abandoned := id :: t.abandoned } _ :=
      removeConnectionHandle_leads hreenter _ id h.depth h.wellFormed (.inl trivial)
    obtain ⟨ids, hids⟩ := h.abandoned
    obtain ⟨front, hfront⟩ := hremoved.abandoned
    refine ⟨front ++ id :: ids, ?_, by simp⟩
    rw [← hfront, ← hids]
    simp

omit hreenter in
/-- Setting up the reconnect of a node that is not out of them leaves the target. -/
theorem OnWayBound.setup_of_tries (h : OnWayBound s t id a (depth + 1)) {node : Nat}
    (htries : ∀ o, t.find node = some o → ¬ t.IsExceeded o) :
    OnWayBound s (t.setupReconnectTimer reenter node none).1 id a (depth + 1) := by
  cases hfind : t.find node with
  | none =>
    unfold setupReconnectTimer
    rw [hfind]
    exact h
  | some o =>
    rw [setupReconnectTimer_eq hfind (htries o hfind)]
    exact h.quiet (.scheduleReconnect t o none)

variable (hs : s.WellFormed) (hdepth : s.endpoints.length < depth + 1) (hid : id ≠ 0)
  (hheld : Unheld s a) (hzero : s.find 0 = none) (hendpoint : s.hasEndpoint id = false)

include hspares hs hdepth hid hheld hzero hendpoint

/-- A target that is bound to a node on its way has the handle. -/
theorem bindThrough_onWayBound {node : Nat} (hnode : node ≠ 0) :
    let proxy := s.mutableConnectionHandle node none
    let target := proxy.1.mutableConnectionHandle id (some a)
    OnWayBound s target.1 id a (depth + 1) ∧
      OnWayBound s (target.1.bindConnectionHandleProxy reenter target.2 proxy.2) id a
        (depth + 1) := by
  intro proxy target
  have hmutated : Mutated s node none proxy := mutated_mutableConnectionHandle hs node none
  have hmutated' : Mutated proxy.1 id (some a) target :=
    mutated_mutableConnectionHandle hmutated.wellFormed id (some a)
  have hendpoint' : proxy.1.hasEndpoint id = false := by
    unfold hasEndpoint
    rw [hmutated.endpoints]
    exact hendpoint
  have htarget := hmutated'.target hid (hmutated.unheld hheld) (hmutated.noZero hnode hzero)
    hendpoint'
  have hdepth' : target.1.endpoints.length < depth + 1 := by
    rw [hmutated'.endpoints, hmutated.endpoints]
    exact hdepth
  have hwf := hmutated'.wellFormed
  have habandoned : target.1.abandoned = s.abandoned :=
    hmutated'.abandoned.trans hmutated.abandoned
  obtain ⟨hfind, happ⟩ := bindConnectionHandleProxy_target hspares hdepth' hwf htarget proxy.2
  have hchanges : Changes Scope.any target.1
      (target.1.bindConnectionHandleProxy reenter target.2 proxy.2) :=
    bindConnectionHandleProxy_leads hreenter (fun _ => trivial) _ _ _ hdepth' hwf (.inl trivial)
  have hhandle := hmutated'.withHandle a rfl
  refine ⟨⟨hwf, ⟨target.2, hmutated'.found, hhandle⟩, hdepth', ?_⟩, hchanges.wellFormed hwf,
    ⟨target.2, hfind, happ.trans hhandle⟩, Nat.lt_of_le_of_lt hchanges.endpoints_length hdepth', ?_⟩
  · rw [habandoned]
  · rw [← habandoned]
    exact hchanges.abandoned

theorem entriesThrough_onWayBound {node : Nat} (hnode : node ≠ 0) :
    OnWayBound s (s.entriesThrough reenter id (some a) node).1 id a (depth + 1) := by
  unfold entriesThrough
  split_ifs with hself
  · have hmutated := mutated_mutableConnectionHandle hs id (some a)
    refine ⟨hmutated.wellFormed, ⟨_, hmutated.found, hmutated.withHandle a rfl⟩, ?_, ?_⟩
    · rw [hmutated.endpoints]
      exact hdepth
    · rw [hmutated.abandoned]
  · exact (bindThrough_onWayBound hreenter hspares hs hdepth hid hheld hzero hendpoint hnode).2

omit hspares hid hheld hzero hendpoint in
/-- A node whose entry lasts is not out of reconnects after the target is bound to it. -/
theorem bindTarget_lasts {node p : Nat} (hne : node ≠ id) (hclock : s.ClockFits)
    (hlasts : Lasts s id node) (hp : s.find node = some p) :
    let target := s.mutableConnectionHandle id (some a)
    let bound := target.1.bindConnectionHandleProxy reenter target.2 p
    (∀ q, bound.find node = some q → q = p) ∧
      (HasTries bound p ∨ (bound.objects p).ready = true) := by
  intro target bound
  have hmutated : Mutated s id (some a) target := mutated_mutableConnectionHandle hs id (some a)
  have hchanges : Changes Scope.any s target.1 :=
    mutableConnectionHandle_changes (.inl fun _ => trivial)
  have hfound : target.1.find node = some p := (hmutated.others node hne).1.trans hp
  obtain ⟨left, hleft, hquiet, hbound⟩ := bindConnectionHandleProxy_cases hreenter
    (show target.1.endpoints.length < depth + 1 by rw [hmutated.endpoints]; exact hdepth)
    hmutated.wellFormed target.2 p
  have hfind : ∀ q, left.find node = some q → q = p := fun q hq =>
    Option.some.inj ((hleft.frame.find node q hq).symm.trans hfound)
  have hkept : HasTries left p ∨ (left.objects p).ready = true := by
    refine (hlasts p hp).imp (fun h => ?_) fun ⟨hready, hleaves⟩ => ?_
    · exact hleft.hasTries (hclock.of_around hchanges.around) (hchanges.hasTries hclock h)
    · -- the target leaves no proxy with an endpoint, so nothing is disconnected
      rw [hquiet ?_ p, ready_mutableConnectionHandle id (some a) (hs node p hp).2]
      · exact hready
      · rw [(hmutated.wellFormed node p hfound).1]
        have hendpoints : ∀ id', target.1.hasEndpoint id' = s.hasEndpoint id' := by
          intro id'
          unfold hasEndpoint
          rw [hmutated.endpoints]
        rcases proxyBusId_mutableConnectionHandle s id (some a) with hnone | ⟨o, ho, hsame⟩
        · exact .inl hnone
        · have hsame' : (target.1.objects target.2).proxyBusId = (s.objects o).proxyBusId := hsame
          rw [hendpoints, hsame']
          exact hleaves o ho
  rcases hbound with hbound | ⟨newId, ids, hbound⟩
  · exact ⟨fun q hq => hfind q (hbound ▸ hq), by rw [show bound = left from hbound]; exact hkept⟩
  · refine ⟨fun q hq => hfind q ?_, ?_⟩
    · rw [show bound = _ from hbound] at hq
      exact hq
    · rw [show bound = _ from hbound]
      refine hkept.imp (fun h => ?_) fun h => ?_
      · refine HasTries.modify ?_ p fun _ => ⟨rfl, rfl⟩
        exact h.modify target.2 fun _ => ⟨rfl, rfl⟩
      · rw [ready_modify, ready_modify]
        · exact h
        · exact fun _ => rfl
        · exact fun _ => rfl

omit hspares hid hheld hzero hendpoint in
theorem entriesThrough_lasts {node : Nat} (hne : node ≠ id) (hclock : s.ClockFits)
    (hlasts : Lasts s id node) :
    let next := s.entriesThrough reenter id (some a) node
    (∀ p, next.1.find node = some p → p = next.2.2) ∧
      (HasTries next.1 next.2.2 ∨ (next.1.objects next.2.2).ready = true) := by
  have hmutated : Mutated s node none (s.mutableConnectionHandle node none) :=
    mutated_mutableConnectionHandle hs node none
  have hchanges : Changes Scope.any s (s.mutableConnectionHandle node none).1 :=
    mutableConnectionHandle_changes (.inl fun _ => trivial)
  unfold entriesThrough
  rw [if_neg hne]
  refine bindTarget_lasts hreenter hmutated.wellFormed ?_ hne (hclock.of_around hchanges.around)
    hlasts.mutableConnectionHandle hmutated.found
  rw [hmutated.endpoints]
  exact hdepth

/-- The reconnect timer that is set up when the proxy is not ready and its reconnect is due. -/
theorem setupThrough_onWayBound {node : Nat} (hnode : node ≠ 0)
    (hlasts : node ≠ id → s.ClockFits ∧ Lasts s id node) :
    let next := s.entriesThrough reenter id (some a) node
    let unready := next.1.setHandleUnready next.2.1
    (next.1.objects next.2.2).ready = false →
    (unready.objects next.2.2).reconnectNextTimepoint ≤ unready.around.sysNow →
      OnWayBound s (unready.setupReconnectTimer reenter node none).1 id a (depth + 1) ∨
        GivenUp s (unready.setupReconnectTimer reenter node none).1 id := by
  intro next unready hready hdue
  have hquiet : Quiet next.1 unready := .setHandleUnready _ _
  have hentries : OnWayBound s unready id a (depth + 1) :=
    (entriesThrough_onWayBound hreenter hspares hs hdepth hid hheld hzero hendpoint hnode).quiet
      hquiet
  by_cases hself : node = id
  · rw [hself]
    exact hentries.setup_self hreenter
  · obtain ⟨hclock, hlasts⟩ := hlasts hself
    obtain ⟨hfind, hkept⟩ := entriesThrough_lasts hreenter hs hdepth hself hclock hlasts
    refine .inl (hentries.setup_of_tries fun p hp hexceeded => ?_)
    rw [hquiet.find] at hp
    obtain rfl := hfind p hp
    have hwf := (entriesThrough_onWayBound hreenter hspares hs hdepth hid hheld hzero hendpoint
      hnode).wellFormed
    have hany : ∀ id, Scope.any.mayCreate id := fun _ => trivial
    have haround : next.1.around = s.around :=
      (entriesThrough_leads hreenter hany s id (some a) node hdepth hs (.inl trivial)).around
    have htries : HasTries next.1 next.2.2 :=
      hkept.resolve_right (by rw [hready]; exact Bool.false_ne_true)
    have htries' := (hquiet.leads hwf (.inl trivial)).hasTries (hclock.of_around haround) htries
    exact absurd (htries' hexceeded) (not_lt.2 hdue)

theorem connectThrough_onWayBound {node : Nat} (hnode : node ≠ 0)
    (hlasts : node ≠ id → s.ClockFits ∧ Lasts s id node) :
    OnWayBound s (s.connectThrough reenter id (some a) node).1 id a (depth + 1) ∨
      GivenUp s (s.connectThrough reenter id (some a) node).1 id := by
  have hentries :=
    entriesThrough_onWayBound hreenter hspares hs hdepth hid hheld hzero hendpoint hnode
  have hsetup :=
    setupThrough_onWayBound hreenter hspares hs hdepth hid hheld hzero hendpoint hnode hlasts
  unfold connectThrough
  dsimp only at hsetup ⊢
  split_ifs with hready hdue
  · exact .inl (hentries.quiet (.setHandleReady _ _))
  · exact hsetup (by simpa using hready) hdue
  · exact .inl (hentries.quiet (.setHandleUnready _ _))

theorem connectTo_onWayBound {node : Nat} (hnode : node ≠ 0)
    (hlasts : node ≠ id → s.ClockFits ∧ Lasts s id node) (address : Bytes) :
    OnWayBound s (s.connectTo reenter id (some a) node address).1 id a (depth + 1) ∨
      GivenUp s (s.connectTo reenter id (some a) node address).1 id := by
  have hentries :=
    entriesThrough_onWayBound hreenter hspares hs hdepth hid hheld hzero hendpoint hnode
  have hsetup :=
    setupThrough_onWayBound hreenter hspares hs hdepth hid hheld hzero hendpoint hnode hlasts
  have hunready := fun o => hentries.quiet (.setHandleUnready _ o)
  unfold connectTo
  dsimp only at hsetup ⊢
  split_ifs with hready hwaits hkept
  · exact .inl (hentries.quiet (.setHandleReady _ _))
  · exact .inl (hunready _)
  · exact (hsetup (by simpa using hready) (not_lt.1 hwaits)).imp_left
      fun h => h.quiet (.connect _ address)
  · exact hsetup (by simpa using hready) (not_lt.1 hwaits)

/-- The loop over the candidates goes through the first one that leads on. -/
theorem connectByCandidates_onWayBound {candidates : List Candidate}
    (hnodes : ∀ candidate ∈ candidates, candidate.busId ≠ 0)
    (hlasts : ∀ candidate, candidates.find? s.leadsOn = some candidate →
      candidate.busId ≠ id → s.ClockFits ∧ Lasts s id candidate.busId)
    (hsuccess : (connectByCandidates reenter id (some a) true candidates s).2 = .success) :
    BoundOrGivenUp s (connectByCandidates reenter id (some a) true candidates s).1 id a := by
  induction candidates with
  | nil => cases hsuccess
  | cons candidate rest ih =>
      have hnode := hnodes candidate List.mem_cons_self
      have hlater : s.leadsOn candidate = false →
          (connectByCandidates reenter id (some a) true rest s).2 = .success →
          BoundOrGivenUp s (connectByCandidates reenter id (some a) true rest s).1 id a := by
        intro hleads
        refine ih (fun candidate hmem => hnodes candidate (List.mem_cons_of_mem _ hmem)) ?_
        intro later hlater
        exact hlasts later (by rw [List.find?_cons_of_neg (by simpa using hleads), hlater])
      have hhere : s.leadsOn candidate = true →
          candidate.busId ≠ id → s.ClockFits ∧ Lasts s id candidate.busId :=
        fun hleads => hlasts candidate (List.find?_cons_of_pos hleads)
      have hthrough := fun hleads => (connectThrough_onWayBound hreenter hspares hs hdepth hid hheld
        hzero hendpoint hnode (hhere hleads))
      simp only [connectByCandidates, Bool.not_true, Bool.false_and, Bool.false_eq_true, if_false,
        if_true] at hsuccess ⊢
      by_cases hallowed : (!candidate.isAllowed) = true
      · rw [if_pos hallowed] at hsuccess ⊢
        exact hlater (by simp [leadsOn, show candidate.isAllowed = false by simpa using hallowed])
          hsuccess
      · have hallowed' : candidate.isAllowed = true := by simpa using hallowed
        rw [if_neg hallowed] at hsuccess ⊢
        by_cases hconnected : s.hasEndpoint candidate.busId = true
        · rw [if_pos hconnected]
          exact (hthrough (by simp [leadsOn, hallowed', hconnected])).imp_left fun h => h.bound
        · rw [if_neg hconnected] at hsuccess ⊢
          cases hdiscovery : s.around.discovery candidate.busId with
          | none =>
            have hwaits := hthrough (by simp [leadsOn, hallowed', hdiscovery])
            dsimp only
            split_ifs
            · refine hwaits.imp (fun h => (h.quiet (.setHandleWaitingDiscovery _ _)).bound) ?_
              rintro ⟨ids, hids, hmem⟩
              refine ⟨ids, ?_, hmem⟩
              rw [(Quiet.setHandleWaitingDiscovery _ _).abandoned, hids]
            · exact hwaits.imp_left fun h => h.bound
          | some gateways =>
            rw [hdiscovery] at hsuccess
            simp only [Option.isSome_some, if_true] at hsuccess ⊢
            cases haddress : findAddress gateways with
            | none =>
              rw [haddress] at hsuccess
              exact hlater (by simp [leadsOn, hconnected, hdiscovery, haddress]) hsuccess
            | some address =>
              rw [haddress] at hsuccess
              cases address with
              | nil => exact hlater (by simp [leadsOn, hconnected, hdiscovery, haddress]) hsuccess
              | cons c address =>
                have hleads : s.leadsOn candidate = true := by
                  simp [leadsOn, hallowed', hdiscovery, haddress]
                exact (connectTo_onWayBound hreenter hspares hs hdepth hid hheld hzero hendpoint
                  hnode (hhere hleads) _).imp_left fun h => h.bound

theorem connectByNextHop_onWayBound {nextHop : Nat} (hnode : nextHop ≠ 0) :
    OnWayBound s (s.connectByNextHop reenter id (some a) nextHop).1 id a (depth + 1) := by
  obtain ⟨hentry, hbound⟩ :=
    bindThrough_onWayBound hreenter hspares hs hdepth hid hheld hzero hendpoint hnode
  unfold connectByNextHop
  dsimp only
  split_ifs
  · exact hbound.quiet (.setHandleReady _ _)
  · exact hbound.quiet (.setHandleUnready _ _)
  · exact hentry.quiet (.setHandleReady _ _)
  · exact hentry.quiet (.setHandleUnready _ _)

end Reentrant

theorem onStartConnectToConnectedEndpoint_isBound (hs : s.WellFormed)
    (hsuccess : (s.onStartConnectToConnectedEndpoint id (some a)).2 = .success) :
    IsBound (s.onStartConnectToConnectedEndpoint id (some a)).1 id a := by
  have hmutated := mutated_mutableConnectionHandle hs id (some a)
  have hbound : IsBound (s.mutableConnectionHandle id (some a)).1 id a :=
    ⟨_, hmutated.found, hmutated.withHandle a rfl⟩
  unfold onStartConnectToConnectedEndpoint at hsuccess ⊢
  dsimp only at hsuccess ⊢
  split_ifs at hsuccess ⊢
  · exact hbound.quiet hmutated.wellFormed (.setHandleReady _ _)
  · exact hbound.quiet hmutated.wellFormed (.setHandleReady _ _)
  · exact hbound.quiet hmutated.wellFormed (.setHandleUnready _ _)

theorem onStartConnectToConnectedEndpoint_tryNext {handle : Option Nat}
    (h : (s.onStartConnectToConnectedEndpoint id handle).2 = .tryNext) :
    id ≠ 0 ∧ s.around.nodeId ≠ id ∧ s.around.upstreamEndpoint ≠ some id ∧
      s.hasEndpoint id = false := by
  unfold onStartConnectToConnectedEndpoint at h
  dsimp only at h
  split_ifs at h with hzero hself hendpoint
  exact ⟨hzero, hself, fun hup => hendpoint (.inl hup),
    by simpa using fun hhas => hendpoint (.inr hhas)⟩

/-- No node has the bus id 0, so no entry is for it. -/
structure NoNodeZero (s : Connector) (id : Nat) : Prop where
  entry : s.find 0 = none
  onWay : ∀ peer ∈ s.around.peers id, peer.busId ≠ 0
  nextHop : s.around.nextHop id ≠ some 0

/-- A connect that succeeds leaves the handle in the entry of the target. -/
theorem tryConnectTo_boundOrGivenUp (hs : s.WellFormed) (hheld : Unheld s a)
    (hzero : NoNodeZero s id) (hlasts : HopLasts s id)
    (hsuccess : (s.tryConnectTo s.reentry id (some a) true).2 = .success) :
    BoundOrGivenUp s (s.tryConnectTo s.reentry id (some a) true).1 id a := by
  have hroutes := SameRoutes.refl (s := s) id
  have hreenter := reentry_leads s
  have hspares : ∀ t id', id' ≠ id → Spares id s.endpoints.length t (s.reentry t id') :=
    fun t id' hne => onRemoveEndpointIn_spares hne t
  have hdepth := Nat.lt_succ_self s.endpoints.length
  have hdirect := sameOrOtherUpstreamPeer_verdict s.reentry s.reentry (some a) hroutes
  have hstream := streamPeer_verdict s.reentry s.reentry (some a) hroutes
  simp only [tryConnectTo] at hsuccess ⊢
  by_cases hnext : (s.onStartConnectToConnectedEndpoint id (some a)).2 = .tryNext
  · obtain ⟨hid, hself, hupstreamId, hendpoint⟩ := onStartConnectToConnectedEndpoint_tryNext hnext
    have hhop : ∀ {nextHop : Nat}, nextHop ≠ 0 → OnWayBound s
        (s.connectByNextHop s.reentry id (some a) nextHop).1 id a (s.endpoints.length + 1) :=
      connectByNextHop_onWayBound hreenter hspares hs hdepth hid hheld hzero.entry hendpoint
    rw [if_neg (not_not_intro hnext)] at hsuccess ⊢
    by_cases hnext' : (if s.allowsDirect id = true then
        s.onStartConnectToSameOrOtherUpstreamPeer s.reentry id (some a) true
        else (s, .tryNext)).2 = .tryNext
    · rw [if_neg (not_not_intro hnext'), (hdirect.tryNext hnext').1] at hsuccess ⊢
      by_cases hlast : (if (s.around.relation id).isStream = true then
          s.onStartConnectToStreamPeer s.reentry id (some a) (s.around.nextHop id)
          else (s, .tryNext)).2 = .tryNext
      · rw [if_neg (not_not_intro hlast), (hstream.tryNext hlast).1] at hsuccess ⊢
        simp only [Bool.not_true, Bool.false_eq_true, if_false, onStartConnectToProxyByUpstream,
          if_neg hid] at hsuccess ⊢
        cases hupstream : s.around.upstreamEndpoint.getD 0 with
        | zero =>
          rw [hupstream] at hsuccess
          cases hsuccess
        | succ n => exact .inl (hhop (Nat.succ_ne_zero n)).bound
      · rw [if_pos hlast]
        split_ifs at hlast ⊢
        · unfold onStartConnectToStreamPeer at hlast ⊢
          cases hhop' : s.around.nextHop id with
          | none =>
            rw [hhop'] at hlast
            exact absurd rfl hlast
          | some nextHop =>
            dsimp only
            rw [if_neg hid]
            refine .inl (hhop ?_).bound
            rintro rfl
            exact hzero.nextHop hhop'
        · exact absurd rfl hlast
    · rw [if_pos hnext'] at hsuccess ⊢
      split_ifs at hnext' hsuccess ⊢ with hallowed
      · unfold onStartConnectToSameOrOtherUpstreamPeer at hsuccess ⊢
        rw [if_neg hid] at hsuccess ⊢
        have hnodes : ∀ candidate ∈ s.candidates id, candidate.busId ≠ 0 := by
          intro candidate hmem
          rcases mem_candidates hmem with heq | ⟨peer, hpeer, heq⟩
          · rw [heq]
            exact hid
          · rw [← heq]
            exact hzero.onWay peer hpeer
        have hcandidates := fun hsuccess => connectByCandidates_onWayBound hreenter hspares hs hdepth
          hid hheld hzero.entry hendpoint hnodes (fun candidate hfirst hne =>
            hlasts ⟨hself, hupstreamId, hendpoint, hallowed⟩ candidate.busId
              (by rw [firstHop, hfirst]; rfl) hne) hsuccess
        cases hlist : s.candidates id with
        | nil =>
          rw [hlist] at hsuccess
          cases hsuccess
        | cons candidate rest =>
          rw [hlist] at hsuccess hcandidates
          exact hcandidates hsuccess
  · rw [if_pos hnext] at hsuccess ⊢
    exact .inl (onStartConnectToConnectedEndpoint_isBound hs hsuccess)

/-! ## Runs with and without the cache -/

/-- `on_start_connect` where the test of its cache never holds, as with a last bus id of 0. -/
def onStartConnectUncached (s : Connector) (id : Nat) (handle : Option Nat) :
    Connector × ConnectResult :=
  let (s, result) := s.startConnect id handle
  ({ s with lastConnect := ⟨id, handle, result⟩ }, result)

/-- One step without the cache. -/
def stepUncached (s : Connector) : Event → Connector
  | .startConnect id a => (s.onStartConnectUncached id (some a)).1
  | event => step s event

/-- A run, the same run without the cache, and the state before the call that the cache remembers. -/
structure Compared where
  connector : Connector
  uncached : Connector
  remembered : Connector

/-- One step of both runs. -/
def compareStep (r : Compared) (event : Event) : Compared where
  connector := step r.connector event
  uncached := stepUncached r.uncached event
  remembered := match event with
    | .startConnect id a =>
      if r.connector.isCached id (some a) then r.remembered else r.connector
    | _ => r.remembered

/-- Two new runs. -/
def Compared.initial (around : Surroundings) : Compared :=
  ⟨Connector.initial around, Connector.initial around, Connector.initial around⟩

/-- A connect returns what it would without the cache and leaves the entries as it would, and where
    it succeeds the target has the handle. -/
def IsTransparent (r : Compared) : Event → Prop
  | .startConnect id a =>
    let cached := r.connector.onStartConnect id (some a)
    let uncached := r.uncached.onStartConnectUncached id (some a)
    cached.2 = uncached.2 ∧ cached.1.handles = uncached.1.handles ∧
      cached.1.objects = uncached.1.objects ∧
      (cached.2 = .success → BoundOrGivenUp r.connector cached.1 id a)
  | _ => True

/-- A handle is new to the connector when a connection is started for it, and no node has the bus id
    0. The cache answers only with an error, for a target with the same routes as at the call that
    it remembers; the entry that the handle knows is active, if there is one. A call that it does
    not answer goes through no proxy that is out of reconnects. -/
def RemembersFailures (r : Compared) : Event → Prop
  | .startConnect id a =>
    Unheld r.connector a ∧ NoNodeZero r.connector id ∧
      (r.connector.isCached id (some a) = false → HopLasts r.connector id) ∧
      (r.connector.isCached id (some a) = true →
        r.connector.lastConnect.result ≠ .success ∧ SameRoutes id r.remembered r.connector ∧
        ∀ o, r.connector.find (r.connector.privateData a) = some o →
          (r.connector.objects o).isActiveConnection = true)
  | _ => True

/-- Both runs are in the same state, and the cache has the result of the call that it remembers. -/
structure Agrees (r : Compared) : Prop where
  same : r.uncached = r.connector
  wellFormed : r.connector.WellFormed
  result : r.connector.lastConnect.busId ≠ 0 → r.connector.lastConnect.result =
    (r.remembered.startConnect r.connector.lastConnect.busId r.connector.lastConnect.handle).2

theorem Change.lastConnect {scope : Scope} (h : Change scope s t) :
    t.lastConnect = s.lastConnect := by
  cases h with
  | setAppReady o ready => rw [(setAppReady_sameMap s o ready).lastConnect]
  | createLost id handle h hnew => rw [(setHandleLostTopology_sameMap _ _).lastConnect]; rfl
  | _ => rfl

/-- What is remembered stays or is forgotten. -/
theorem lastConnect_isKept (last : LastConnect) :
    IsKept (fun _ => True) fun s => s.lastConnect = last ∨ s.lastConnect.busId = 0 := by
  have hchange : ∀ s t : Connector, s.WellFormed →
      s.lastConnect = last ∨ s.lastConnect.busId = 0 → Change Scope.any s t →
      t.lastConnect = last ∨ t.lastConnect.busId = 0 := by
    intro s t _ h hchange
    rw [hchange.lastConnect]
    exact h
  constructor
  case change => exact hchange
  case clear => exact fun _ _ => .inr rfl
  case timer => exact fun s o hs h => (onTimer_keeps hchange hs o h fun _ => h).2
  case loseTopology =>
    intro s id o _ _ _ h
    rw [(setHandleLostTopology_sameMap s o).lastConnect]
    exact h
  case findTopology =>
    intro s o h
    simp only [findTopology]
    split_ifs <;> exact h
  all_goals
    intros
    assumption

theorem startConnect_result (s : Connector) (id : Nat) (handle : Option Nat) :
    (s.startConnect id handle).2 = (s.tryConnectTo s.reentry id handle true).2 := by
  unfold startConnect
  dsimp only
  cases handle with
  | none => rfl
  | some a =>
    dsimp only
    split <;> rfl

/-- A connect that fails where the entry of the handle is active already changes nothing. -/
theorem startConnect_of_failed {error : ConnectResult}
    (h : s.tryConnectTo s.reentry id (some a) true = (s, error))
    (hactive : ∀ o, s.find (s.privateData a) = some o → (s.objects o).isActiveConnection = true) :
    s.startConnect id (some a) = (s, error) := by
  unfold startConnect
  rw [h]
  dsimp only
  cases hfind : s.find (s.privateData a) with
  | none => rfl
  | some o =>
    dsimp only
    rw [modify_eq_self (by rw [← hactive o hfind])]

/-- Marking the connection as active leaves the handle of the target. -/
theorem startConnect_boundOrGivenUp
    (h : BoundOrGivenUp s (s.tryConnectTo s.reentry id (some a) true).1 id a) :
    BoundOrGivenUp s (s.startConnect id (some a)).1 id a := by
  unfold startConnect
  generalize s.tryConnectTo s.reentry id (some a) true = connected at h
  obtain ⟨t, result⟩ := connected
  dsimp only at h ⊢
  split
  · exact h
  · refine h.imp_left fun ⟨o, hfind, happ⟩ => ⟨o, hfind, ?_⟩
    rw [objects_modify]
    split_ifs with heq
    · rw [← heq]
      exact happ
    · exact happ

/-- Where the cache answers as it may, the call would do nothing else. -/
theorem onStartConnectUncached_of_cached {r : Compared} (hr : Agrees r)
    (h : RemembersFailures r (.startConnect id a))
    (hcached : r.connector.isCached id (some a) = true) :
    r.connector.onStartConnectUncached id (some a) =
      (r.connector, r.connector.lastConnect.result) := by
  obtain ⟨-, -, -, hcond⟩ := h
  obtain ⟨herror, hroutes, hactive⟩ := hcond hcached
  simp only [isCached, Bool.and_eq_true, decide_eq_true_eq] at hcached
  obtain ⟨⟨hbus, rfl⟩, hhandle⟩ := hcached
  have hresult := hr.result hbus
  rw [hhandle, startConnect_result] at hresult
  rcases tryConnectTo_verdict r.remembered.reentry r.connector.reentry (some a) hroutes with
    ⟨hsuccess, -⟩ | ⟨error, -, hbefore, hnow⟩
  · exact absurd (hresult.trans hsuccess) herror
  · rw [hbefore] at hresult
    unfold onStartConnectUncached
    rw [startConnect_of_failed hnow hactive]
    dsimp only at hresult ⊢
    have hlast : r.connector.lastConnect = ⟨r.connector.lastConnect.busId, some a, error⟩ := by
      rw [← hhandle, ← hresult]
    rw [← hlast, hresult]

theorem onStartConnect_of_not_cached (h : ¬ s.isCached id (some a) = true) :
    s.onStartConnect id (some a) = s.onStartConnectUncached id (some a) := by
  unfold onStartConnect
  rw [if_neg h]
  rfl

theorem compareStep_of_other {event : Event} (h : ∀ id a, event ≠ .startConnect id a)
    (r : Compared) : compareStep r event =
      ⟨step r.connector event, step r.uncached event, r.remembered⟩ := by
  cases event with
  | startConnect id a => exact absurd rfl (h id a)
  | _ => rfl

/-- The step of a connection is the same with the cache and without it. -/
theorem step_eq_stepUncached {r : Compared} (hr : Agrees r)
    (h : RemembersFailures r (.startConnect id a)) :
    r.connector.onStartConnect id (some a) = r.uncached.onStartConnectUncached id (some a) := by
  rw [hr.same]
  by_cases hcached : r.connector.isCached id (some a) = true
  · rw [onStartConnectUncached_of_cached hr h hcached, onStartConnect, if_pos hcached]
  · exact onStartConnect_of_not_cached hcached

/-- A step keeps the runs in agreement. -/
theorem compareStep_agrees (r : Compared) (event : Event) (hr : Agrees r)
    (h : RemembersFailures r event) : Agrees (compareStep r event) := by
  by_cases hother : ∀ id a, event ≠ .startConnect id a
  · rw [compareStep_of_other hother]
    obtain ⟨hsame, hwf, hresult⟩ := hr
    have hkept : Holds (fun t => t.lastConnect = r.connector.lastConnect ∨ t.lastConnect.busId = 0)
        (step r.connector event) :=
      step_holds (lastConnect_isKept _) r.connector event ⟨hwf, .inl rfl⟩ (fun _ _ => trivial)
        fun id a _ _ heq => absurd heq (hother id a)
    refine ⟨congrArg (fun s => step s event) hsame, hkept.1, fun hbus => ?_⟩
    rcases hkept.2 with heq | hzero
    · dsimp only at hbus ⊢
      rw [heq] at hbus ⊢
      exact hresult hbus
    · exact absurd hzero hbus
  · obtain ⟨id, a, rfl⟩ : ∃ id a, event = .startConnect id a := by
      by_contra hnone
      exact hother fun id a heq => hnone ⟨id, a, heq⟩
    refine ⟨(congrArg Prod.fst (step_eq_stepUncached hr h)).symm, step_wellFormed _ hr.wellFormed,
      fun hbus => ?_⟩
    dsimp only [compareStep, step] at hbus ⊢
    by_cases hcached : r.connector.isCached id (some a) = true
    · rw [if_pos hcached, onStartConnect, if_pos hcached] at *
      exact hr.result hbus
    · rw [if_neg hcached, onStartConnect_of_not_cached hcached]
      rfl

/-- What the step of a connection does where the cache answers as it may. -/
theorem isTransparent_of_agrees (r : Compared) (event : Event) (hr : Agrees r)
    (h : RemembersFailures r event) : IsTransparent r event := by
  cases event with
  | startConnect id a =>
    have heq := step_eq_stepUncached hr h
    refine ⟨congrArg Prod.snd heq, congrArg (fun next => next.1.handles) heq,
      congrArg (fun next => next.1.objects) heq, fun hsuccess => ?_⟩
    obtain ⟨hheld, hzero, hlasts, hcond⟩ := h
    by_cases hcached : r.connector.isCached id (some a) = true
    · rw [onStartConnect, if_pos hcached] at hsuccess
      exact absurd hsuccess (hcond hcached).1
    · rw [onStartConnect_of_not_cached hcached] at hsuccess ⊢
      have hconnected := tryConnectTo_boundOrGivenUp hr.wellFormed hheld hzero
        (hlasts (by simpa using hcached)) ((startConnect_result _ id (some a)).symm.trans hsuccess)
      exact startConnect_boundOrGivenUp hconnected
  | _ => trivial

/-- In every run where the cache answers with failures only, and for a target with the same routes,
    every connect does what it would without the cache; and one that succeeds leaves the handle in
    the entry of its target, where no proxy on the way is out of reconnects. -/
theorem connectCache_transparent (around : Surroundings) (events : List Event)
    (h : Run.StepsMeet compareStep RemembersFailures (Compared.initial around) events) :
    Run.StepsMeet compareStep IsTransparent (Compared.initial around) events := by
  have hinitial : Agrees (Compared.initial around) :=
    ⟨rfl, fun _ _ h => (by cases h), fun h => absurd rfl h⟩
  exact Run.stepsMeet_of_invariant compareStep compareStep_agrees isTransparent_of_agrees hinitial h

/-- A node at the time 0 that knows some topology of its neighbours. -/
def neighbourhood (peers : Nat → List TopologyPeer) : Surroundings where
  sysNow := 0
  conf := {}
  nodeId := 1
  upstreamEndpoint := none
  relation := fun _ => .sameUpstreamPeer
  nextHop := fun _ => none
  peers
  discovery := fun _ => some [⟨[65], true, true⟩]
  pendingMessageCount := fun _ => none

/-- A neighbour without topology, and one that is connected through the node above it. -/
def peersAround : Nat → List TopologyPeer
  | 8 => [⟨8, false⟩, ⟨2, true⟩]
  | _ => []

/-- A neighbour without topology that has two addresses, so that the connect is tried twice and the
    cache answers, and then one that is connected through its proxy. -/
theorem connectCache_transparent_neighbours :
    Run.StepsMeet compareStep IsTransparent (Compared.initial (neighbourhood peersAround))
      [.newHandle 1, .startConnect 7 1, .startConnect 7 1, .newHandle 3, .startConnect 8 3] := by
  have hzero : ∀ s : Connector, s.find 0 = none → s.around = neighbourhood peersAround →
      ∀ id, id = 7 ∨ id = 8 → NoNodeZero s id := by
    rintro s hfind haround id (rfl | rfl)
    all_goals
      refine ⟨hfind, ?_, ?_⟩
      all_goals
        rw [haround]
        simp [neighbourhood, peersAround]
  refine connectCache_transparent _ _ ⟨trivial, ?_, ?_, trivial, ?_, trivial⟩
  · refine ⟨fun _ _ h => (by cases h), hzero _ rfl rfl 7 (.inl rfl), fun _ => ?_,
      fun h => (by cases h)⟩
    intro _ node hnode
    cases hnode
  · refine ⟨fun _ _ h => (by cases h), hzero _ rfl rfl 7 (.inl rfl), fun h => (by cases h),
      fun _ => ⟨by decide, ?_, fun _ h => (by cases h)⟩⟩
    exact ⟨rfl, rfl, rfl, rfl, rfl, rfl, rfl, fun _ _ => ⟨rfl, rfl⟩⟩
  · refine ⟨fun _ _ h => (by cases h), hzero _ rfl rfl 8 (.inr rfl), fun _ => ?_,
      fun h => (by cases h)⟩
    intro _ node hnode _
    obtain rfl : 2 = node := Option.some.inj hnode
    exact ⟨clockFits_of_fitsClock ⟨by decide, by decide, by decide⟩, fun _ h => (by cases h)⟩

/-- A handle is closed and a new one at its address is connected: the cache answers with the success
    of the closed one, and no entry has the new one. -/
theorem not_connectCache_transparent :
    ¬ Run.StepsMeet compareStep IsTransparent
      (Compared.initial (neighbourhood fun id => [⟨id, true⟩]))
      [.newHandle 1, .startConnect 7 1, .closeConnection 1, .newHandle 1, .startConnect 7 1] := by
  rintro ⟨-, -, -, -, ⟨-, -, -, hbound⟩, -⟩
  rcases hbound rfl with ⟨o, hfind, -⟩ | ⟨ids, hids, hmem⟩
  · cases hfind
  · have hnone : ids = [] := List.self_eq_append_left.1 hids
    rw [hnone] at hmem
    cases hmem

end Connector

end LibAtapp.Atbus
