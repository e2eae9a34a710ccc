import LibAtapp.Atbus.Reachable
import LibAtapp.Atbus.DirectReconnect
import LibAtapp.Atbus.BackOff

set_option autoImplicit false

/-! # Whether a reconnect connects

A reconnect first schedules the next one, which is later than now, and an entry whose next reconnect
is later waits for the one that is under way. So neither the timer of an entry nor the end of its
endpoint ever gets to `node->connect`. -/

namespace LibAtapp.Atbus

namespace Connector

variable {scope : Scope} {s t : Connector} {id o : Nat}

theorem Changes.connects (hscope : ¬ scope.mayConnect) (h : Changes scope s t) :
    t.connects = s.connects := by
  refine h.relates (R := fun s t => t.connects = s.connects) (fun _ => rfl) ?_
  intro s t u hst hchange
  cases hchange with
  | connect address h => exact absurd h hscope
  | setAppReady o ready =>
    obtain ⟨appReady, h⟩ := setAppReady_eq t o ready
    rw [h]
    exact hst
  | createLost id handle h hnew => exact ((setHandleLostTopology_sameMap _ _).connects).trans hst
  | _ => exact hst

/-- The timer of an entry makes no connection. -/
theorem onTimer_connects (hs : s.WellFormed) (hclock : s.ClockFits) (o : Nat) :
    (s.onTimer o).connects = s.connects := by
  have hgone : (s.removeTimer o).WellFormed := wellFormed_modify (fun _ => rfl) hs
  have hsilent : ∀ {t u : Connector}, t.WellFormed → t.ClockFits → Leads Scope.silent t u →
      u.connects = t.connects :=
    fun ht hclock h => (h ht (.inr hclock)).connects not_false
  rcases onTimer_cases s o with ⟨h, -⟩ | ⟨hfind, ⟨-, -, h⟩ | ⟨-, ⟨timeout, h, -⟩ | ⟨-, -, hnext⟩⟩⟩
  · rw [h]
    rfl
  · rw [h]
    exact hsilent (t := s.removeTimer o) hgone hclock
      (removeConnectionHandle_leads (reentry_leads _) _ _).leads
  · rw [h]
    rfl
  · rcases hnext with ⟨-, h⟩ | ⟨-, h⟩
    · rw [h]
      exact hsilent (t := { s.removeTimer o with
        abandoned := (s.objects o).currentBusId :: s.abandoned }) hgone hclock
        (removeConnectionHandle_leads (reentry_leads _) _ _).leads
    · rw [h]
      have hsame := scheduleReconnect_sameMap (s.removeTimer o) o (deadline (s.objects o))
      have hfind' := (hsame.find (s.objects o).currentBusId).trans hfind
      have hwf := (Changes.single (scheduleReconnect_change (s.removeTimer o) o
        (deadline (s.objects o))) : Changes Scope.silent _ _).wellFormed hgone
      refine (hsilent hwf (hclock.of_around hsame.around) (tryDirectReconnect_leads
        (reentry_leads _) hfind' (.inr ⟨o, hfind', ?_⟩)).leads).trans hsame.connects
      rw [scheduleReconnect_objects, hsame.around]
      exact hclock _

/-- The end of an endpoint makes no connection. -/
theorem onRemoveEndpoint_connects (hs : s.WellFormed) (hclock : s.ClockFits) (id : Nat) :
    (s.onRemoveEndpoint id).connects = s.connects := by
  have hleads : Leads Scope.silent s (s.onRemoveEndpoint id) :=
    (onRemoveEndpointIn_leads _ _ s id).leads
  exact (hleads hs (.inr hclock)).connects not_false

/-! ## An entry that could connect -/

/-- The entry of a neighbour or far node that is not ready and has no proxy, where all that a direct
    connection needs is there: its topology, the rules and the policy, its discovery node and an
    address in it. -/
structure CanReconnect (s : Connector) (id o : Nat) : Prop where
  found : s.find id = some o
  peer : (s.around.relation id).isPeer = true ∧ id ≠ 0 ∧ s.around.nodeId ≠ id ∧
    s.around.upstreamEndpoint ≠ some id
  unready : (s.objects o).ready = false
  noProxy : (s.objects o).proxyBusId = 0
  topology : (s.objects o).lostTopology = false ∧
    ∃ above, s.around.peers id = ⟨id, true⟩ :: above ∧ ∀ peer ∈ above, peer.busId ≠ id
  rules : s.allowsDirect id = true
  discovery : (s.objects o).waitForDiscoveryToConnect = false ∧
    ∃ gateways c address, s.around.discovery id = some gateways ∧
      findAddress gateways = some (c :: address)

/-- `node->connect` was called for an address of a node. -/
def HasConnected (s t : Connector) (id : Nat) : Prop :=
  ∃ made, t.connects = made ++ s.connects ∧ ∃ gateways, s.around.discovery id = some gateways ∧
    ∃ gateway ∈ gateways, gateway.address ∈ made

/-- A timer of the entry is live that is not later than its next reconnect. -/
def IsArmed (s : Connector) (id o : Nat) : Prop :=
  s.find id = some o ∧ ∃ pending, (s.objects o).timer = some pending ∧
    pending ≤ (s.objects o).reconnectNextTimepoint

theorem not_hasConnected (h : t.connects = s.connects) : ¬ HasConnected s t id := by
  rintro ⟨made, hmade, gateways, -, gateway, -, hmem⟩
  rw [h] at hmade
  rw [List.self_eq_append_left.1 hmade] at hmem
  cases hmem

/-- An entry that waits and is its own proxy stays as it is. -/
theorem connectTo_waiting {reenter : Connector → Nat → Connector} (hfind : s.find id = some o)
    (hunready : (s.objects o).ready = false)
    (hwait : s.around.sysNow < (s.objects o).reconnectNextTimepoint) (address : Bytes) :
    s.connectTo reenter id (s.objects o).appHandle id address = (s, .success) := by
  have hmutable := mutableConnectionHandle_self hfind
  have hstays : s.setHandleUnready o = s := by
    simp [setHandleUnready, setHandleUnreadyIn, hunready]
  simp [connectTo, entriesThrough, hmutable, hunready, hstays, hwait]

/-- What a reconnect that waits comes to. An entry without an application handle looks for no
    address, and goes on to the nodes above it, which a reconnect may not use. -/
theorem tryDirectReconnect_waiting {reenter : Connector → Nat → Connector} (hs : s.WellFormed)
    (h : CanReconnect s id o) (hendpoint : s.hasEndpoint id = false)
    (hwait : s.around.sysNow < (s.objects o).reconnectNextTimepoint) :
    s.tryDirectReconnect reenter o =
      (s, if (s.objects o).appHandle.isSome then .success
          else if (s.around.peers id).length = 1 then .noAvailableAddress else .topologyDeny) := by
  obtain ⟨hpeer, hzero, hself, hupstream⟩ := h.peer
  obtain ⟨hlost, above, hpeers, habove⟩ := h.topology
  obtain ⟨hwaiting, gateways, c, address, hdiscovery, haddress⟩ := h.discovery
  obtain ⟨hid, -⟩ := hs id o h.found
  have hstream : (s.around.relation id).isStream = false := by
    revert hpeer
    cases s.around.relation id <;> simp [TopologyRelation.isPeer, TopologyRelation.isStream]
  have hconnected : s.onStartConnectToConnectedEndpoint id (s.objects o).appHandle =
      (s, .tryNext) := by
    simp [onStartConnectToConnectedEndpoint, hzero, hself, hupstream, hendpoint]
  have hdirect : s.onStartConnectToSameOrOtherUpstreamPeer reenter id (s.objects o).appHandle false =
      (s, if (s.objects o).appHandle.isSome then .success
          else if (s.around.peers id).length = 1 then .tryNext else .topologyDeny) := by
    simp only [onStartConnectToSameOrOtherUpstreamPeer, if_neg hzero, candidates, hpeers,
      List.map_cons]
    have hallowed : (!(⟨id, true⟩ : Candidate).isAllowed) = true ↔ False := by simp
    simp only [connectByCandidates, hallowed, if_false, hdiscovery, hendpoint]
    cases happ : (s.objects o).appHandle with
    | some a =>
      have hwaits : s.connectTo reenter id (s.objects o).appHandle id (c :: address) = _ :=
        connectTo_waiting h.found h.unready hwait (c :: address)
      rw [happ] at hwaits
      simp [haddress, hwaits]
    | none =>
      cases above with
      | nil => simp [connectByCandidates]
      | cons peer above =>
        have hne : peer.busId ≠ id := habove peer List.mem_cons_self
        simp [connectByCandidates, hne]
  unfold tryDirectReconnect
  simp only [h.unready, hlost, hid, hstream, h.noProxy, hwaiting, hdiscovery, Bool.false_eq_true,
    if_false, ne_eq, not_true_eq_false]
  simp only [tryConnectTo, hconnected, h.rules, hdirect, if_true, ne_eq, not_true_eq_false, if_false]
  split_ifs <;> simp_all

/-- Scheduling the next reconnect leaves the entry able to connect. -/
theorem CanReconnect.scheduled (h : CanReconnect s id o) (previousTimeout : Option Int) :
    CanReconnect (s.scheduleReconnect o previousTimeout) id o := by
  have hsame := scheduleReconnect_sameMap s o previousTimeout
  obtain ⟨found, peer, unready, noProxy, topology, rules, discovery⟩ := h
  unfold allowsDirect at rules
  constructor
  · rw [hsame.find, found]
  · rw [hsame.around]
    exact peer
  · rw [scheduleReconnect_objects]
    exact unready
  · rw [scheduleReconnect_objects]
    exact noProxy
  · rw [scheduleReconnect_objects, hsame.around]
    exact topology
  · unfold allowsDirect
    rw [hsame.around]
    exact rules
  · rw [scheduleReconnect_objects, hsame.around]
    exact discovery

/-- What is left of the end of an endpoint once the next reconnect is scheduled: the entry is removed
    where the reconnect was denied. -/
theorem isArmed_afterReconnect_iff {reenter : Connector → Nat → Connector} {depth : Nat}
    (hreenter : ∀ scope s id, LeadsIn scope depth s (reenter s id))
    (hdepth : s.endpoints.length < depth + 1) (hs : s.WellFormed) (h : CanReconnect s id o)
    (hendpoint : s.hasEndpoint id = false)
    (hwait : s.around.sysNow < (s.objects o).reconnectNextTimepoint) :
    IsArmed (if (s.tryDirectReconnect reenter o).2 = .topologyDeny then
        (s.tryDirectReconnect reenter o).1.removeConnectionHandle reenter id
      else (s.tryDirectReconnect reenter o).1) id o ↔
      ((s.objects o).appHandle.isSome = true ∨ (s.around.peers id).length = 1) ∧
        ∃ pending, (s.objects o).timer = some pending ∧
          pending ≤ (s.objects o).reconnectNextTimepoint := by
  rw [tryDirectReconnect_waiting hs h hendpoint hwait]
  have hremoved : ¬ IsArmed (s.removeConnectionHandle reenter id) id o := by
    intro harmed
    have hnone : (s.removeConnectionHandle reenter id).find id = none :=
      removeConnectionHandle_find hreenter hdepth hs id
    rw [harmed.1] at hnone
    cases hnone
  by_cases happ : (s.objects o).appHandle.isSome = true
  · simp [happ, IsArmed, h.found]
  · by_cases habove : (s.around.peers id).length = 1
    · simp [happ, habove, IsArmed, h.found]
    · simpa [happ, habove] using hremoved

theorem isArmed_onRemoveEndpoint_iff (hs : s.WellFormed) (hclock : s.ClockFits)
    (h : CanReconnect s id o) (hendpoint : s.hasEndpoint id = false)
    (hkeep : s.needKeepHandle o = true)
    (hlimit : (s.objects o).reconnectNextTimepoint ≤ s.around.sysNow → ¬ s.IsExceeded o) :
    IsArmed (s.onRemoveEndpoint id) id o ↔
      ((s.objects o).appHandle.isSome = true ∨ (s.around.peers id).length = 1) ∧
        ((s.objects o).reconnectNextTimepoint ≤ s.around.sysNow ∨
          ∃ pending, (s.objects o).timer = some pending ∧
            pending ≤ (s.objects o).reconnectNextTimepoint) := by
  set reenter := onRemoveEndpointIn s.endpoints.length with hreenter
  have hleads : ∀ scope t id, LeadsIn scope s.endpoints.length t (reenter t id) := reentry_leads s
  show IsArmed (s.onRemoveEndpointWith reenter id) id o ↔ _
  have hwaiting := h.discovery.1
  simp only [onRemoveEndpointWith, h.found, hkeep, Bool.not_true, Bool.false_eq_true, if_false]
  by_cases hdue : (s.objects o).reconnectNextTimepoint ≤ s.around.sysNow
  · have hsame := scheduleReconnect_sameMap s o none
    have hscheduled := h.scheduled none
    have hendpoint' : (s.scheduleReconnect o none).hasEndpoint id = false := by
      unfold hasEndpoint
      rw [hsame.endpoints]
      exact hendpoint
    have hwait : (s.scheduleReconnect o none).around.sysNow <
        ((s.scheduleReconnect o none).objects o).reconnectNextTimepoint := by
      rw [scheduleReconnect_objects, hsame.around]
      exact hclock _
    have hwf := (Changes.single (scheduleReconnect_change s o none) :
      Changes Scope.silent _ _).wellFormed hs
    have hdepth : (s.scheduleReconnect o none).endpoints.length < s.endpoints.length + 1 := by
      rw [hsame.endpoints]
      exact Nat.lt_succ_self _
    have hafter := isArmed_afterReconnect_iff hleads hdepth hwf hscheduled hendpoint' hwait
    rw [if_pos hdue, setupReconnectTimer_eq h.found (hlimit hdue)]
    simp only [Bool.not_true, Bool.false_eq_true, if_false, hscheduled.peer.1,
      hscheduled.topology.1, hscheduled.discovery.1, Bool.or_self, hafter, hdue, true_or, and_true]
    rw [scheduleReconnect_objects, hsame.around]
    exact and_iff_left (earlierTimer_le _ _)
  · have hafter := isArmed_afterReconnect_iff hleads (Nat.lt_succ_self _) hs h hendpoint
      (not_le.1 hdue)
    simp only [Bool.not_true, Bool.false_eq_true, if_false, h.peer.1, h.topology.1,
      hwaiting, Bool.or_self, hafter, hdue, false_or]

/-! ## The clock -/

/-- The longest interval before a reconnect, in microseconds. -/
def longestInterval (conf : BusConf) : Int :=
  max (intervalOr conf.reconnectStartInterval 8000000)
    (intervalOr conf.reconnectMaxInterval 60000000)

theorem intervalOr_pos {interval default : Int} (h : 0 < default) :
    0 < intervalOr interval default := by
  unfold intervalOr
  split_ifs with hneg
  · exact h
  · exact not_le.1 hneg

theorem backOff_mem {max interval longest : Int} (hmax : 0 < max ∧ max ≤ longest)
    (hinterval : 0 < interval ∧ interval ≤ longest) (hfits : 2 * longest < 2 ^ 63) (k : Nat) :
    0 < backOff max k interval ∧ backOff max k interval ≤ longest := by
  induction k generalizing interval with
  | zero => exact hinterval
  | succ k ih =>
      have hdouble : int64 (2 * interval) = 2 * interval := int64_eq_self (by omega) (by omega)
      simp only [backOff, hdouble]
      split_ifs with h
      · exact hmax
      · exact ih ⟨by omega, by omega⟩

/-- The clock fits if it has the time after the longest interval. -/
theorem clockFits_of_fitsClock
    (h : FitsClock s.around.sysNow (longestInterval s.around.conf)) : s.ClockFits := by
  obtain ⟨hlow, hlongest, hhigh⟩ := h
  intro k
  obtain ⟨hpos, hle⟩ := backOff_mem
    ⟨intervalOr_pos (by decide), le_max_right (intervalOr s.around.conf.reconnectStartInterval 8000000)
      (intervalOr s.around.conf.reconnectMaxInterval 60000000)⟩
    ⟨intervalOr_pos (by decide), le_max_left (intervalOr s.around.conf.reconnectStartInterval 8000000)
      (intervalOr s.around.conf.reconnectMaxInterval 60000000)⟩
    (show 2 * longestInterval s.around.conf < 2 ^ 63 by omega) k
  have hle' : reconnectInterval s.around.conf k ≤ longestInterval s.around.conf := hle
  have hpos' : 0 < reconnectInterval s.around.conf k := hpos
  rw [timeAfter_eq hpos'.le ⟨hlow, by omega, by omega⟩]
  omega

/-! ## Reconnects in reachable states -/

/-- For an entry that could connect, in any reachable state: its timer never connects it. When its
    endpoint ends and the reconnect is tried at once, it stays armed exactly if it has an application
    handle or no node is above it, and the reconnect was due or its timer is live. -/
theorem reconnects_iff (hs : Reachable s)
    (hclock : FitsClock s.around.sysNow (longestInterval s.around.conf))
    (h : CanReconnect s id o) :
    ((s.objects o).reconnectNextTimepoint ≤ s.around.sysNow → ¬ s.IsExceeded o →
      ¬ HasConnected s (s.onTimer o) id) ∧
    (s.hasEndpoint id = false → s.needKeepHandle o = true →
      ((s.objects o).reconnectNextTimepoint ≤ s.around.sysNow → ¬ s.IsExceeded o) →
      (HasConnected s (s.onRemoveEndpoint id) id ∨ IsArmed (s.onRemoveEndpoint id) id o ↔
        ((s.objects o).appHandle.isSome = true ∨ (s.around.peers id).length = 1) ∧
          ((s.objects o).reconnectNextTimepoint ≤ s.around.sysNow ∨
            ∃ pending, (s.objects o).timer = some pending ∧
              pending ≤ (s.objects o).reconnectNextTimepoint))) := by
  have hfits := clockFits_of_fitsClock hclock
  constructor
  · intro _ _
    exact not_hasConnected (onTimer_connects hs.wellFormed hfits o)
  · intro hendpoint hkeep hlimit
    have hsilent : ¬ HasConnected s (s.onRemoveEndpoint id) id :=
      not_hasConnected (onRemoveEndpoint_connects hs.wellFormed hfits id)
    rw [or_iff_right hsilent]
    exact isArmed_onRemoveEndpoint_iff hs.wellFormed hfits h hendpoint hkeep hlimit

/-- A node whose neighbours have a node above them and one address each. -/
def neighbours (now : Int) : Surroundings where
  sysNow := now
  conf := {}
  nodeId := 1
  upstreamEndpoint := none
  relation := fun _ => .sameUpstreamPeer
  nextHop := fun _ => none
  peers := fun id => [⟨id, true⟩, ⟨2, true⟩]
  discovery := fun _ => some [⟨[65], true, true⟩]
  pendingMessageCount := fun _ => none

/-- The connection to the neighbour 7 was started at the time 0 and has not come about when its first
    reconnect is due. -/
def unanswered : Connector :=
  Run.run step (initial (neighbours 0))
    [.newHandle 1, .startConnect 7 1, .surroundings (neighbours 9000000000)]

theorem unanswered_canReconnect : CanReconnect unanswered 7 0 where
  found := rfl
  peer := ⟨rfl, by decide, by decide, by decide⟩
  unready := rfl
  noProxy := rfl
  topology := ⟨rfl, [⟨2, true⟩], rfl, by simp⟩
  rules := rfl
  discovery := ⟨rfl, [⟨[65], true, true⟩], 65, [], rfl, rfl⟩

/-- Its timer does not connect it, and it stays armed when its endpoint ends. -/
theorem reconnects_iff_unanswered :
    ¬ HasConnected unanswered (unanswered.onTimer 0) 7 ∧
      (HasConnected unanswered (unanswered.onRemoveEndpoint 7) 7 ∨
        IsArmed (unanswered.onRemoveEndpoint 7) 7 0) := by
  obtain ⟨htimer, hremoved⟩ := reconnects_iff (s := unanswered) ⟨neighbours 0, _, rfl⟩
    ⟨by decide, by decide, by decide⟩ unanswered_canReconnect
  refine ⟨htimer (by decide) (by decide), (hremoved rfl rfl fun _ => by decide).2 ⟨.inl rfl, .inl ?_⟩⟩
  decide

/-- The timer of the entry is due and live, and it does not connect. -/
theorem not_reconnects_unanswered :
    Reachable unanswered ∧ CanReconnect unanswered 7 0 ∧
      (unanswered.objects 0).timer = some 8000000000 ∧
      (unanswered.objects 0).reconnectNextTimepoint ≤ unanswered.around.sysNow ∧
      ¬ unanswered.IsExceeded 0 ∧ ¬ HasConnected unanswered (unanswered.onTimer 0) 7 :=
  ⟨⟨neighbours 0, _, rfl⟩, unanswered_canReconnect, rfl, by decide, by decide,
    not_hasConnected rfl⟩

end Connector

end LibAtapp.Atbus
