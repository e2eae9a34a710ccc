import LibAtapp.Atbus.Spared

set_option autoImplicit false

/-! # The proxy that a connect goes through

A direct connect goes through the first node on the way up that has an endpoint, has to be waited
for, or has an address. The entry of that node may be out of reconnects: then it is given up and
takes the entries with it that it is a proxy for, the target of the connect among them. An entry
that has a try left, or whose reconnect is not due, keeps that until the call ends. -/

namespace LibAtapp.Atbus

namespace Connector

variable {scope : Scope} {s t : Connector} {id node o p : Nat}

/-! ## Tries -/

/-- No reconnect of the entry that is due now gives it up. -/
def HasTries (s : Connector) (p : Nat) : Prop :=
  s.IsExceeded p → s.around.sysNow < (s.objects p).reconnectNextTimepoint

theorem hasTries_of_retryTimes (h : (s.objects p).reconnectRetryTimes = 0) : HasTries s p := by
  rintro ⟨hpos, hle⟩
  omega

theorem HasTries.modify (h : HasTries s p) (o : Nat)
    {f : ConnectionHandleData → ConnectionHandleData}
    (hf : ∀ h, (f h).reconnectRetryTimes = h.reconnectRetryTimes ∧
      (f h).reconnectNextTimepoint = h.reconnectNextTimepoint) : HasTries (s.modify o f) p := by
  have hsame : ((s.modify o f).objects p).reconnectRetryTimes =
        (s.objects p).reconnectRetryTimes ∧
      ((s.modify o f).objects p).reconnectNextTimepoint =
        (s.objects p).reconnectNextTimepoint := by
    rw [objects_modify]
    split_ifs with heq
    · rw [heq]
      exact hf _
    · exact ⟨rfl, rfl⟩
  unfold HasTries IsExceeded
  rw [hsame.1, hsame.2]
  exact h

theorem HasTries.create (h : HasTries s p) (id : Nat) (handle : Option Nat) :
    HasTries (s.createConnectionHandle id handle) p := by
  by_cases hp : p = s.allocated
  · subst hp
    exact hasTries_of_retryTimes (by simp [createConnectionHandle])
  · simpa [HasTries, IsExceeded, createConnectionHandle, hp] using h

theorem HasTries.setHandleLostTopology (h : HasTries s p) (o : Nat) :
    HasTries (s.setHandleLostTopology o) p := by
  unfold Connector.setHandleLostTopology
  split_ifs
  · exact h
  · refine HasTries.modify ?_ o fun _ => ⟨rfl, rfl⟩
    exact h.modify o fun _ => ⟨rfl, rfl⟩

/-- A reconnect is set up for a time after now. -/
theorem Change.hasTries (h : Change scope s t) (hclock : s.ClockFits) (hp : HasTries s p) :
    HasTries t p := by
  cases h with
  | disconnect id => exact hp
  | erase id => exact hp
  | abandon id => exact hp
  | connect address h => exact hp
  | setProxy o id h => exact hp.modify o fun _ => ⟨rfl, rfl⟩
  | setProxyFor o ids => exact hp.modify o fun _ => ⟨rfl, rfl⟩
  | becomeReady o h =>
    by_cases heq : p = o
    · subst heq
      exact hasTries_of_retryTimes (by simp)
    · unfold HasTries IsExceeded
      rw [objects_modify_of_ne _ _ heq]
      exact hp
  | becomeUnready o h => exact hp.modify o fun _ => ⟨rfl, rfl⟩
  | setAppReady o ready =>
    obtain ⟨appReady, heq⟩ := setAppReady_eq s o ready
    rw [heq]
    exact hp
  | dropTimer o h => exact hp.modify o fun _ => ⟨rfl, rfl⟩
  | retry o timeout h =>
    refine HasTries.modify ?_ o fun _ => ⟨rfl, rfl⟩
    by_cases heq : p = o
    · subst heq
      intro _
      rw [objects_modify_self]
      exact hclock _
    · unfold HasTries IsExceeded
      rw [objects_modify_of_ne _ _ heq]
      exact hp
  | waitDiscovery o h => exact hp.modify o fun _ => ⟨rfl, rfl⟩
  | setAppHandle id o a h hnew => exact hp.modify o fun _ => ⟨rfl, rfl⟩
  | create id handle h hnew => exact hp.create id handle
  | createLost id handle h hnew => exact (hp.create id handle).setHandleLostTopology _

theorem Changes.hasTries (h : Changes scope s t) (hclock : s.ClockFits) (hp : HasTries s p) :
    HasTries t p := by
  have hkept : t.ClockFits ∧ HasTries t p := by
    refine h.keeps (P := fun t => t.ClockFits ∧ HasTries t p) (fun t u hchange ht => ?_)
      ⟨hclock, hp⟩
    exact ⟨ht.1.of_around (Changes.single hchange).around, hchange.hasTries ht.1 ht.2⟩
  exact hkept.2

/-- A new entry has tries. -/
theorem mutableConnectionHandle_hasTries (handle : Option Nat)
    (h : ∀ o, s.find id = some o → HasTries s o) :
    HasTries (s.mutableConnectionHandle id handle).1 (s.mutableConnectionHandle id handle).2 := by
  unfold mutableConnectionHandle
  cases hfind : s.find id with
  | some o =>
    cases handle with
    | none => exact h o hfind
    | some a => exact (h o hfind).modify o fun _ => ⟨rfl, rfl⟩
  | none =>
    have hnew : HasTries (s.createConnectionHandle id handle) s.allocated :=
      hasTries_of_retryTimes (by simp [createConnectionHandle])
    dsimp only
    split_ifs
    · exact hnew.setHandleLostTopology _
    · exact hnew

/-! ## Ready proxies -/

theorem ready_modify (s : Connector) (o p : Nat) {f : ConnectionHandleData → ConnectionHandleData}
    (hf : ∀ h, (f h).ready = h.ready) : ((s.modify o f).objects p).ready = (s.objects p).ready := by
  rw [objects_modify]
  split_ifs with heq
  · rw [heq, hf]
  · rfl

theorem ready_setHandleLostTopology (s : Connector) (o p : Nat) :
    ((s.setHandleLostTopology o).objects p).ready = (s.objects p).ready := by
  unfold setHandleLostTopology
  dsimp only
  split_ifs
  · rfl
  · rw [updateTimer, objects_modify, objects_modify, objects_modify]
    split_ifs with h <;> simp [h]

theorem ready_mutableConnectionHandle (id : Nat) (handle : Option Nat) (hp : p < s.allocated) :
    ((s.mutableConnectionHandle id handle).1.objects p).ready = (s.objects p).ready := by
  have hne : p ≠ s.allocated := Nat.ne_of_lt hp
  have hcreated : ((s.createConnectionHandle id handle).objects p).ready =
      (s.objects p).ready := by
    simp [createConnectionHandle, hne]
  unfold mutableConnectionHandle
  cases s.find id with
  | some o =>
    cases handle with
    | none => rfl
    | some a =>
      dsimp only
      exact ready_modify s o p fun _ => rfl
  | none =>
    dsimp only
    split_ifs
    · exact (ready_setHandleLostTopology _ _ p).trans hcreated
    · exact hcreated

/-- The entry of an id keeps its proxy when it gets a handle, and a new one has none. -/
theorem proxyBusId_mutableConnectionHandle (s : Connector) (id : Nat) (handle : Option Nat) :
    let next := s.mutableConnectionHandle id handle
    (next.1.objects next.2).proxyBusId = 0 ∨
      ∃ o, s.find id = some o ∧ (next.1.objects next.2).proxyBusId = (s.objects o).proxyBusId := by
  have hcreated : ((s.createConnectionHandle id handle).objects s.allocated).proxyBusId = 0 := by
    simp [createConnectionHandle]
  unfold mutableConnectionHandle
  cases s.find id with
  | some o =>
    cases handle with
    | none => exact .inr ⟨o, rfl, rfl⟩
    | some a => exact .inr ⟨o, rfl, by simp⟩
  | none =>
    left
    dsimp only
    split_ifs
    · unfold setHandleLostTopology
      split_ifs
      · exact hcreated
      · simpa [updateTimer] using hcreated
    · exact hcreated

section Reentrant

variable (reenter : Connector → Nat → Connector)

/-- Leaving a proxy without an endpoint disconnects nothing. -/
theorem ready_unbindConnectionHandleProxy {target proxy : Nat}
    (h : s.hasEndpoint (s.objects proxy).currentBusId = false) (p : Nat) :
    ((s.unbindConnectionHandleProxy reenter target proxy).objects p).ready =
      (s.objects p).ready := by
  simp only [unbindConnectionHandleProxy]
  set apart := if (s.objects target).proxyBusId = (s.objects proxy).currentBusId then
    s.modify target fun h => { h with proxyBusId := 0 } else s with hapart
  have hready : (apart.objects p).ready = (s.objects p).ready := by
    rw [hapart]
    split_ifs
    · exact ready_modify s target p fun _ => rfl
    · rfl
  have hendpoint : apart.hasEndpoint (s.objects proxy).currentBusId = false := by
    rw [hapart]
    split_ifs <;> exact h
  have hleft := (ready_modify apart proxy p
    (f := fun h => { h with
      proxyForBusId := h.proxyForBusId.erase (apart.objects target).currentBusId })
    fun _ => rfl).trans hready
  split_ifs with hkept hupstream hhas
  · exact hleft
  · exact hleft
  · exact absurd (hendpoint.symm.trans hhas) (by decide)
  · exact hleft

variable {reenter} {depth : Nat} (hreenter : ∀ scope s id, LeadsIn scope depth s (reenter s id))

include hreenter

/-- Binding a target leaves its old proxy, and then changes the two entries that it binds. -/
theorem bindConnectionHandleProxy_cases (hdepth : s.endpoints.length < depth + 1)
    (hs : s.WellFormed) (target proxy : Nat) :
    ∃ left, Changes Scope.inner s left ∧
      ((s.objects target).proxyBusId = 0 ∨ (s.objects target).proxyBusId =
          (s.objects proxy).currentBusId ∨ s.hasEndpoint (s.objects target).proxyBusId = false →
        ∀ p, (left.objects p).ready = (s.objects p).ready) ∧
      (s.bindConnectionHandleProxy reenter target proxy = left ∨
        ∃ (id : Nat) (ids : ConnectionHandleData → List Nat),
          s.bindConnectionHandleProxy reenter target proxy =
            (left.modify target fun h => { h with proxyBusId := id }).modify proxy fun h =>
              { h with proxyForBusId := ids h }) := by
  simp only [bindConnectionHandleProxy]
  split_ifs with hbound hself hproxy
  · exact ⟨s, Changes.refl, fun _ _ => rfl, .inl rfl⟩
  · exact ⟨s, Changes.refl, fun _ _ => rfl, .inl rfl⟩
  · cases hold : s.find (s.objects target).proxyBusId with
    | none => exact ⟨s, Changes.refl, fun _ _ => rfl, .inr ⟨_, _, rfl⟩⟩
    | some old =>
      have hchanges : Changes Scope.inner s (s.unbindConnectionHandleProxy reenter target old) :=
        unbindConnectionHandleProxy_leads hreenter s target old hdepth hs (.inl trivial)
      refine ⟨_, hchanges, fun hquiet p => ?_, .inr ⟨_, _, rfl⟩⟩
      rcases hquiet with hzero | hsame | hendpoint
      · exact absurd hzero hproxy
      · exact absurd hsame hbound
      · refine ready_unbindConnectionHandleProxy reenter ?_ p
        rw [(hs _ old hold).1]
        exact hendpoint
  · exact ⟨s, Changes.refl, fun _ _ => rfl, .inr ⟨_, _, rfl⟩⟩

end Reentrant

/-! ## The node that a connect goes through -/

/-- The loop over the candidates stops at this one. -/
def leadsOn (s : Connector) (candidate : Candidate) : Bool :=
  candidate.isAllowed && (s.hasEndpoint candidate.busId ||
    match s.around.discovery candidate.busId with
    | none => true
    | some gateways =>
      match findAddress gateways with
      | some (_ :: _) => true
      | _ => false)

/-- The node that a direct connect of an id goes through. -/
def firstHop (s : Connector) (id : Nat) : Option Nat :=
  ((s.candidates id).find? s.leadsOn).map Candidate.busId

/-- A connect comes to the candidates. -/
def TriesDirect (s : Connector) (id : Nat) : Prop :=
  s.around.nodeId ≠ id ∧ s.around.upstreamEndpoint ≠ some id ∧ s.hasEndpoint id = false ∧
    s.allowsDirect id = true

/-- A node has no entry, or one that a connect of an id through it does not give up: it has tries,
    or it is ready and the id leaves no other proxy that has an endpoint. -/
def Lasts (s : Connector) (id node : Nat) : Prop :=
  ∀ p, s.find node = some p → HasTries s p ∨ (s.objects p).ready = true ∧
    ∀ o, s.find id = some o → (s.objects o).proxyBusId = 0 ∨ (s.objects o).proxyBusId = node ∨
      s.hasEndpoint (s.objects o).proxyBusId = false

theorem Lasts.mutableConnectionHandle (h : Lasts s id node) :
    Lasts (s.mutableConnectionHandle node none).1 id node := by
  cases hfind : s.find node with
  | some p =>
    have hsame : s.mutableConnectionHandle node none = (s, p) := by
      unfold Connector.mutableConnectionHandle
      rw [hfind]
    rw [hsame]
    exact h
  | none =>
    intro p hp
    have hnone : ∀ o, s.find node = some o → HasTries s o := fun o ho => by
      rw [hfind] at ho
      cases ho
    have htries := mutableConnectionHandle_hasTries none hnone
    have hnew : (s.mutableConnectionHandle node none).2 = s.allocated ∧
        (s.mutableConnectionHandle node none).1.find node = some s.allocated := by
      unfold Connector.mutableConnectionHandle
      rw [hfind]
      refine ⟨rfl, ?_⟩
      dsimp only
      split_ifs
      · rw [(setHandleLostTopology_sameMap _ _).find, find_createConnectionHandle, if_pos rfl]
      · rw [find_createConnectionHandle, if_pos rfl]
    obtain rfl := Option.some.inj (hnew.2.symm.trans hp)
    rw [hnew.1] at htries
    exact .inl htries

/-- Where a direct connect goes through another node, the clock has the times of the reconnects, and
    the entry of that node lasts. -/
def HopLasts (s : Connector) (id : Nat) : Prop :=
  TriesDirect s id → ∀ node, s.firstHop id = some node → node ≠ id →
    s.ClockFits ∧ Lasts s id node

end Connector

end LibAtapp.Atbus
