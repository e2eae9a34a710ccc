import LibAtapp.Atbus.Operations
import Mathlib.Data.Finset.Card

set_option autoImplicit false

/-! # Getting ready and unready

`set_handle_ready` and `set_handle_unready` go through the entries that one is a proxy for. They
change entries only: an entry that is ready already stays as it is, and getting unready leaves the
times of every entry alone. -/

namespace LibAtapp.Atbus

namespace Connector

/-! ## Reading after a change -/

section

variable {s : Connector}

@[simp] theorem find_modify (s : Connector) (o : Nat)
    (f : ConnectionHandleData → ConnectionHandleData) (id : Nat) :
    (s.modify o f).find id = s.find id := rfl

@[simp] theorem objects_modify_self (s : Connector) (o : Nat)
    (f : ConnectionHandleData → ConnectionHandleData) :
    (s.modify o f).objects o = f (s.objects o) := by
  simp [modify]

theorem objects_modify_of_ne (s : Connector) {o p : Nat}
    (f : ConnectionHandleData → ConnectionHandleData) (h : p ≠ o) :
    (s.modify o f).objects p = s.objects p := by
  simp [modify, h]

theorem objects_modify (s : Connector) (o p : Nat)
    (f : ConnectionHandleData → ConnectionHandleData) :
    (s.modify o f).objects p = if p = o then f (s.objects o) else s.objects p := by
  split_ifs with h
  · rw [h, objects_modify_self]
  · exact objects_modify_of_ne s f h

theorem modify_eq_self {o : Nat} {f : ConnectionHandleData → ConnectionHandleData}
    (h : f (s.objects o) = s.objects o) : s.modify o f = s := by
  simp [modify, h]

theorem find_erase (s : Connector) (id id' : Nat) :
    (s.erase id).find id' = if id' = id then none else s.find id' := by
  show (s.handles.filter fun entry => entry.1 ≠ id).lookup id' = if id' = id then none else
    s.handles.lookup id'
  induction s.handles with
  | nil => simp
  | cons entry handles ih =>
      obtain ⟨key, o⟩ := entry
      by_cases hkey : key = id
      · rw [List.filter_cons_of_neg (by simp [hkey]), ih, List.lookup_cons]
        by_cases h : id' = id <;> grind
      · rw [List.filter_cons_of_pos (by simp [hkey]), List.lookup_cons, ih, List.lookup_cons]
        by_cases h : id' = key <;> grind

theorem find_of_find_erase {id id' o : Nat} (h : (s.erase id).find id' = some o) :
    s.find id' = some o := by
  rw [find_erase] at h
  split_ifs at h
  exact h

theorem find_createConnectionHandle (s : Connector) (id id' : Nat) (handle : Option Nat) :
    (s.createConnectionHandle id handle).find id' =
      if id' = id then some s.allocated else s.find id' := by
  by_cases h : id' = id
  · simp [createConnectionHandle, find, h]
  · have h' : (id' == id) = false := by simpa using h
    simp [createConnectionHandle, find, List.lookup_cons, h, h']

theorem setAppReady_eq (s : Connector) (o : Nat) (ready : Bool) :
    ∃ appReady, s.setAppReady o ready = { s with appReady } := by
  unfold setAppReady
  split
  · exact ⟨_, rfl⟩
  · exact ⟨s.appReady, rfl⟩

end

/-! ## What stays -/

/-- Only entries, the readiness of application handles and the bound on a recursion differ. -/
structure SameMap (s t : Connector) : Prop where
  around : t.around = s.around
  endpoints : t.endpoints = s.endpoints
  handles : t.handles = s.handles
  allocated : t.allocated = s.allocated
  privateData : t.privateData = s.privateData
  lastConnect : t.lastConnect = s.lastConnect
  connects : t.connects = s.connects
  abandoned : t.abandoned = s.abandoned

namespace SameMap

variable {s t u : Connector}

theorem refl (s : Connector) : SameMap s s := ⟨rfl, rfl, rfl, rfl, rfl, rfl, rfl, rfl⟩

theorem trans (h : SameMap s t) (h' : SameMap t u) : SameMap s u where
  around := h'.around.trans h.around
  endpoints := h'.endpoints.trans h.endpoints
  handles := h'.handles.trans h.handles
  allocated := h'.allocated.trans h.allocated
  privateData := h'.privateData.trans h.privateData
  lastConnect := h'.lastConnect.trans h.lastConnect
  connects := h'.connects.trans h.connects
  abandoned := h'.abandoned.trans h.abandoned

theorem find (h : SameMap s t) (id : Nat) : t.find id = s.find id := by
  unfold Connector.find
  rw [h.handles]

end SameMap

variable (s : Connector)

theorem modify_sameMap (o : Nat) (f : ConnectionHandleData → ConnectionHandleData) :
    SameMap s (s.modify o f) :=
  ⟨rfl, rfl, rfl, rfl, rfl, rfl, rfl, rfl⟩

theorem setHandleLostTopology_sameMap (o : Nat) : SameMap s (s.setHandleLostTopology o) := by
  unfold setHandleLostTopology
  dsimp only
  split_ifs
  · exact SameMap.refl s
  · exact (modify_sameMap s o _).trans (modify_sameMap _ o _)

theorem setAppReady_sameMap (o : Nat) (ready : Bool) : SameMap s (s.setAppReady o ready) := by
  obtain ⟨appReady, h⟩ := setAppReady_eq s o ready
  rw [h]
  exact ⟨rfl, rfl, rfl, rfl, rfl, rfl, rfl, rfl⟩

@[simp] theorem setAppReady_objects (o : Nat) (ready : Bool) :
    (s.setAppReady o ready).objects = s.objects := by
  obtain ⟨appReady, h⟩ := setAppReady_eq s o ready
  rw [h]

theorem forEach_sameMap {visit : Connector → Nat → Connector}
    (hvisit : ∀ s o, SameMap s (visit s o)) (ids : List Nat) : SameMap s (s.forEach visit ids) := by
  unfold forEach
  induction ids generalizing s with
  | nil => exact SameMap.refl s
  | cons id ids ih =>
      refine SameMap.trans ?_ (ih _)
      dsimp only
      cases s.find id with
      | none => exact SameMap.refl s
      | some o => exact hvisit s o

theorem setHandleReadyIn_sameMap (depth o : Nat) : SameMap s (setHandleReadyIn depth s o) := by
  induction depth generalizing s o with
  | zero => exact ⟨rfl, rfl, rfl, rfl, rfl, rfl, rfl, rfl⟩
  | succ depth ih =>
      simp only [setHandleReadyIn]
      split_ifs
      · exact SameMap.refl s
      · exact ((modify_sameMap s o _).trans (setAppReady_sameMap _ o true)).trans
          ((forEach_sameMap _ ih _).trans (modify_sameMap _ o _))
      · exact ((modify_sameMap s o _).trans (setAppReady_sameMap _ o true)).trans
          (((forEach_sameMap _ ih _).trans (modify_sameMap _ o _)).trans (modify_sameMap _ o _))

theorem setHandleReady_sameMap (o : Nat) : SameMap s (s.setHandleReady o) :=
  setHandleReadyIn_sameMap s _ o

theorem setHandleUnreadyIn_sameMap (depth o : Nat) : SameMap s (setHandleUnreadyIn depth s o) := by
  induction depth generalizing s o with
  | zero => exact ⟨rfl, rfl, rfl, rfl, rfl, rfl, rfl, rfl⟩
  | succ depth ih =>
      simp only [setHandleUnreadyIn]
      split_ifs
      · exact SameMap.refl s
      · exact ((modify_sameMap s o _).trans (setAppReady_sameMap _ o false)).trans
          ((forEach_sameMap _ ih _).trans (modify_sameMap _ o _))

theorem setHandleUnready_sameMap (o : Nat) : SameMap s (s.setHandleUnready o) :=
  setHandleUnreadyIn_sameMap s _ o

/-! ## Entries -/

variable {s} {p : Nat}

theorem forEach_objects {visit : Connector → Nat → Connector} {R : ConnectionHandleData → Prop}
    (hvisit : ∀ s o, R (s.objects p) → R ((visit s o).objects p)) (ids : List Nat)
    (hs : R (s.objects p)) : R ((s.forEach visit ids).objects p) := by
  unfold forEach
  induction ids generalizing s with
  | nil => exact hs
  | cons id ids ih =>
      refine ih ?_
      dsimp only
      cases s.find id with
      | none => exact hs
      | some o => exact hvisit s o hs

/-- An entry that is ready stays as it is. -/
theorem setHandleReadyIn_objects {h : ConnectionHandleData} (hready : h.ready = true) (depth o : Nat)
    (hs : s.objects p = h) : (setHandleReadyIn depth s o).objects p = h := by
  induction depth generalizing s o with
  | zero => exact hs
  | succ depth ih =>
      simp only [setHandleReadyIn]
      split_ifs with ho htimer
      · exact hs
      all_goals
        have hne : p ≠ o := by
          rintro rfl
          rw [hs, hready] at ho
          exact ho rfl
        have hothers : ∀ ids, (((s.modify o fun h => { h with
            ready := true, reconnectRetryTimes := 0, reconnectNextTimepoint := 0 }).setAppReady o
              true).forEach (setHandleReadyIn depth) ids).objects p = h := by
          intro ids
          refine forEach_objects (R := (· = h)) (fun s o => ih o) ids ?_
          rw [setAppReady_objects, objects_modify_of_ne _ _ hne, hs]
      · rw [dropInvalid, objects_modify_of_ne _ _ hne, hothers]
      · rw [removeTimer, objects_modify_of_ne _ _ hne, dropInvalid, objects_modify_of_ne _ _ hne,
          hothers]

/-- What an entry is after it got ready: the reconnects start over, and its timer is kept if it has
    lost its topology. -/
theorem setHandleReadyIn_objects_self (depth : Nat) {o : Nat} (ho : (s.objects o).ready = false) :
    ∃ ids timer, (setHandleReadyIn (depth + 1) s o).objects o = { s.objects o with
        ready := true, reconnectRetryTimes := 0, reconnectNextTimepoint := 0,
        proxyForBusId := ids, timer := timer } ∧
      ((s.objects o).lostTopology = true → timer = (s.objects o).timer) := by
  set started := { s.objects o with
    ready := true, reconnectRetryTimes := 0, reconnectNextTimepoint := 0 } with hstarted
  have hothers : ∀ depth ids, (((s.modify o fun h => { h with
      ready := true, reconnectRetryTimes := 0, reconnectNextTimepoint := 0 }).setAppReady o
        true).forEach (setHandleReadyIn depth) ids).objects o = started := by
    intro depth ids
    refine forEach_objects (R := (· = started))
      (fun s p => setHandleReadyIn_objects (by rw [hstarted]) depth p) ids ?_
    rw [setAppReady_objects, objects_modify_self]
  simp only [setHandleReadyIn, ho, Bool.false_eq_true, if_false]
  have hpassed := hothers depth
    (((s.modify o fun h => { h with
      ready := true, reconnectRetryTimes := 0, reconnectNextTimepoint := 0 }).setAppReady o
        true).objects o).proxyForBusId
  generalize forEach _ _ _ = passed at hpassed ⊢
  have hdropped : (passed.dropInvalid o).objects o = { started with
      proxyForBusId := started.proxyForBusId.filter fun id => (passed.find id).isSome } := by
    rw [dropInvalid, objects_modify_self, hpassed]
  split_ifs with htimer
  · exact ⟨_, (s.objects o).timer, hdropped, fun _ => rfl⟩
  · refine ⟨started.proxyForBusId.filter fun id => (passed.find id).isSome, none, ?_,
      fun hlost => absurd ?_ htimer⟩
    · rw [removeTimer, objects_modify_self, hdropped]
    · rw [needTimer, hdropped]
      simp [hstarted, hlost]

theorem setHandleReady_objects {o : Nat} (ho : (s.objects o).ready = false) :
    ∃ ids timer, (s.setHandleReady o).objects o = { s.objects o with
        ready := true, reconnectRetryTimes := 0, reconnectNextTimepoint := 0,
        proxyForBusId := ids, timer := timer } ∧
      ((s.objects o).lostTopology = true → timer = (s.objects o).timer) :=
  setHandleReadyIn_objects_self (s.allocated + 1) ho

/-- Getting unready changes only whether entries are ready and whom they are proxies for. -/
theorem setHandleUnreadyIn_objects (depth o : Nat) :
    ∃ ready ids, (setHandleUnreadyIn depth s o).objects p =
        { s.objects p with ready := ready, proxyForBusId := ids } ∧
      ((s.objects p).ready = false → ready = false) := by
  induction depth generalizing s o with
  | zero => exact ⟨_, _, rfl, id⟩
  | succ depth ih =>
      simp only [setHandleUnreadyIn]
      split_ifs
      · exact ⟨_, _, rfl, id⟩
      · set left := (s.modify o fun h => { h with ready := false }).setAppReady o false with hleft
        have hfirst : ∃ ready ids, left.objects p =
              { s.objects p with ready := ready, proxyForBusId := ids } ∧
            ((s.objects p).ready = false → ready = false) := by
          rw [hleft, setAppReady_objects, objects_modify]
          split_ifs with h
          · exact ⟨false, (s.objects o).proxyForBusId, by rw [h], fun _ => rfl⟩
          · exact ⟨_, _, rfl, id⟩
        have hothers : ∃ ready ids,
            (left.forEach (setHandleUnreadyIn depth) (left.objects o).proxyForBusId).objects p =
                { s.objects p with ready := ready, proxyForBusId := ids } ∧
              ((s.objects p).ready = false → ready = false) := by
          refine forEach_objects (R := fun h => ∃ ready ids, h =
              { s.objects p with ready := ready, proxyForBusId := ids } ∧
            ((s.objects p).ready = false → ready = false)) ?_ _ hfirst
          intro t q ⟨ready, ids, ht, hready⟩
          obtain ⟨ready', ids', ht', hready'⟩ := ih (s := t) q
          exact ⟨ready', ids', by rw [ht', ht], fun h => hready' (by rw [ht]; exact hready h)⟩
        obtain ⟨ready, ids, h, hready⟩ := hothers
        rw [dropInvalid, objects_modify]
        split_ifs with ho
        · subst ho
          exact ⟨ready, _, by rw [h], hready⟩
        · exact ⟨ready, ids, h, hready⟩

theorem setHandleUnready_objects (o : Nat) :
    ∃ ready ids, (s.setHandleUnready o).objects p =
      { s.objects p with ready := ready, proxyForBusId := ids } := by
  obtain ⟨ready, ids, h, -⟩ := setHandleUnreadyIn_objects (s := s) (p := p) (s.allocated + 2) o
  exact ⟨ready, ids, h⟩

/-! ## How many are left -/

/-- The entries that are not yet ready, or not yet unready. -/
def countLeft (ready : Bool) (s : Connector) : Nat :=
  ((Finset.range s.allocated).filter fun p => (s.objects p).ready = !ready).card

theorem countLeft_le (ready : Bool) (s : Connector) : countLeft ready s ≤ s.allocated :=
  (Finset.card_filter_le _ _).trans (Finset.card_range _).le

theorem left_subset {ready : Bool} {s t : Connector} {ps : Finset Nat}
    (h : ∀ p, (s.objects p).ready = ready → (t.objects p).ready = ready) :
    (ps.filter fun p => (t.objects p).ready = !ready) ⊆
      ps.filter fun p => (s.objects p).ready = !ready := by
  intro p hp
  rw [Finset.mem_filter] at hp ⊢
  obtain ⟨hmem, hleft⟩ := hp
  refine ⟨hmem, ?_⟩
  have hgets := h p
  revert hgets hleft
  cases (s.objects p).ready <;> cases (t.objects p).ready <;> cases ready <;> simp

theorem countLeft_le_of {ready : Bool} {s t : Connector} (hallocated : t.allocated = s.allocated)
    (h : ∀ p, (s.objects p).ready = ready → (t.objects p).ready = ready) :
    countLeft ready t ≤ countLeft ready s := by
  unfold countLeft
  rw [hallocated]
  exact Finset.card_le_card (left_subset h)

/-- An entry that gets there leaves one less. -/
theorem countLeft_lt_of {ready : Bool} {s t : Connector} (hallocated : t.allocated = s.allocated)
    (h : ∀ p, (s.objects p).ready = ready → (t.objects p).ready = ready) {o : Nat}
    (ho : o < s.allocated) (hs : (s.objects o).ready = !ready) (ht : (t.objects o).ready = ready) :
    countLeft ready t < countLeft ready s := by
  unfold countLeft
  rw [hallocated]
  refine Finset.card_lt_card (Finset.ssubset_iff_of_subset ?_ |>.2 ⟨o, ?_, ?_⟩)
  · exact left_subset h
  · simp [ho, hs]
  · simp [ht]

/-! ## The next reconnect -/

theorem earlierTimer_le (timer : Option Int) (timeout : Int) :
    ∃ pending, earlierTimer timer timeout = some pending ∧ pending ≤ timeout := by
  cases timer with
  | none => exact ⟨timeout, rfl, le_refl _⟩
  | some pending =>
    by_cases h : pending ≤ timeout
    · exact ⟨pending, if_pos h, h⟩
    · exact ⟨timeout, if_neg h, le_refl _⟩

theorem earlierTimeout_le (timeout : Int) (previous : Option Int) :
    earlierTimeout timeout previous ≤ timeout := by
  cases previous with
  | none => exact le_refl _
  | some previous =>
    unfold earlierTimeout
    dsimp only
    split_ifs with h
    · exact le_refl _
    · exact not_lt.1 h

theorem earlierTimeout_le_previous (timeout previous : Int) :
    earlierTimeout timeout (some previous) ≤ previous := by
  unfold earlierTimeout
  dsimp only
  split_ifs with h
  · exact h.le
  · exact le_refl _

theorem scheduleReconnect_objects (s : Connector) (o : Nat) (previousTimeout : Option Int) :
    (s.scheduleReconnect o previousTimeout).objects o = { s.objects o with
      reconnectRetryTimes := ((s.objects o).reconnectRetryTimes + 1) % 2 ^ 32
      reconnectNextTimepoint := s.runTimeout o
      timer := earlierTimer (s.objects o).timer
        (earlierTimeout (s.runTimeout o) previousTimeout) } := by
  rw [scheduleReconnect, updateTimer, objects_modify_self, objects_modify_self]

theorem scheduleReconnect_sameMap (s : Connector) (o : Nat) (previousTimeout : Option Int) :
    SameMap s (s.scheduleReconnect o previousTimeout) := by
  unfold scheduleReconnect updateTimer
  exact (modify_sameMap s o _).trans (modify_sameMap _ o _)

end Connector

end LibAtapp.Atbus
