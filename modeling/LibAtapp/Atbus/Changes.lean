import LibAtapp.Atbus.Readiness
import Mathlib.Logic.Relation

set_option autoImplicit false

/-! # What the functions of the connector change

The functions call one another through `node->disconnect`, so what one of them does is not seen from
its body. Here a change is one of the elementary ones below, and each function makes a sequence of
them: an invariant that every elementary change keeps is kept by all of the functions. A scope bounds the
changes: the ids that an entry may be made or get another handle for, and whether `node->connect`
may be called.

No change is the end of a bound on a recursion: the calls end by themselves. Getting ready and
unready reaches an entry once, a removal takes an entry out of the map before the next one, and a
disconnect takes an endpoint away. -/

namespace LibAtapp.Atbus

namespace Connector

/-- What changes may do. -/
structure Scope where
  mayCreate : Nat → Prop
  mayConnect : Prop

/-- Any changes. -/
def Scope.any : Scope := ⟨fun _ => True, True⟩

/-- The changes for entries that there are. -/
def Scope.inner : Scope := ⟨fun _ => False, True⟩

/-- The changes that make no connection. -/
def Scope.silent : Scope := ⟨fun _ => False, False⟩

/-- An elementary change. -/
inductive Change (scope : Scope) : Connector → Connector → Prop
  | disconnect (s : Connector) (id : Nat) : Change scope s
      { s with endpoints := s.endpoints.filter fun endpoint => endpoint.1 ≠ id }
  | erase (s : Connector) (id : Nat) : Change scope s (s.erase id)
  | abandon (s : Connector) (id : Nat) : Change scope s { s with abandoned := id :: s.abandoned }
  | connect (s : Connector) (address : Bytes) (h : scope.mayConnect) :
      Change scope s { s with connects := address :: s.connects }
  | setProxy (s : Connector) (o id : Nat) (h : id = 0 ∨ ∀ id, scope.mayCreate id) :
      Change scope s (s.modify o fun h => { h with proxyBusId := id })
  | setProxyFor (s : Connector) (o : Nat) (ids : List Nat) :
      Change scope s (s.modify o fun h => { h with proxyForBusId := ids })
  | becomeReady (s : Connector) (o : Nat) (h : (s.objects o).ready = false) :
      Change scope s (s.modify o fun h =>
        { h with ready := true, reconnectRetryTimes := 0, reconnectNextTimepoint := 0 })
  | becomeUnready (s : Connector) (o : Nat) (h : (s.objects o).ready = true) :
      Change scope s (s.modify o fun h => { h with ready := false })
  | setAppReady (s : Connector) (o : Nat) (ready : Bool) : Change scope s (s.setAppReady o ready)
  | dropTimer (s : Connector) (o : Nat) (h : s.needTimer o = false) : Change scope s (s.removeTimer o)
  | retry (s : Connector) (o : Nat) (timeout : Int) (h : timeout ≤ s.runTimeout o) :
      Change scope s ((s.modify o fun h =>
        { h with
          reconnectRetryTimes := (h.reconnectRetryTimes + 1) % 2 ^ 32
          reconnectNextTimepoint := s.runTimeout o }).updateTimer o timeout)
  | waitDiscovery (s : Connector) (o : Nat) (h : (s.objects o).proxyBusId = 0) :
      Change scope s (s.modify o fun h => { h with waitForDiscoveryToConnect := true })
  | setAppHandle (s : Connector) (id o a : Nat) (h : s.find id = some o)
      (hnew : scope.mayCreate id) :
      Change scope s (s.modify o fun h => { h with appHandle := some a })
  | create (s : Connector) (id : Nat) (handle : Option Nat) (h : s.find id = none)
      (hnew : scope.mayCreate id) :
      Change scope s (s.createConnectionHandle id handle)
  | createLost (s : Connector) (id : Nat) (handle : Option Nat) (h : s.find id = none)
      (hnew : scope.mayCreate id) :
      Change scope s ((s.createConnectionHandle id handle).setHandleLostTopology s.allocated)

/-- A sequence of elementary changes. -/
def Changes (scope : Scope) : Connector → Connector → Prop :=
  Relation.ReflTransGen (Change scope)

section

variable {scope : Scope} {s t u : Connector}

namespace Changes

theorem refl : Changes scope s s := Relation.ReflTransGen.refl

theorem trans (h : Changes scope s t) (h' : Changes scope t u) : Changes scope s u :=
  Relation.ReflTransGen.trans h h'

theorem single (h : Change scope s t) : Changes scope s t := Relation.ReflTransGen.single h

theorem tail (h : Changes scope s t) (h' : Change scope t u) : Changes scope s u :=
  Relation.ReflTransGen.tail h h'

/-- What every elementary change keeps is kept. -/
theorem keeps {P : Connector → Prop} (hP : ∀ s t, Change scope s t → P s → P t)
    (h : Changes scope s t) (hs : P s) : P t := by
  induction h with
  | refl => exact hs
  | tail _ hchange ih => exact hP _ _ hchange ih

/-- A relation to the first state that every elementary change keeps. -/
theorem relates {R : Connector → Connector → Prop} (hrefl : ∀ s, R s s)
    (hR : ∀ s t u, R s t → Change scope t u → R s u) (h : Changes scope s t) : R s t := by
  induction h with
  | refl => exact hrefl s
  | tail _ hchange ih => exact hR _ _ _ ih hchange

end Changes

end

/-! ## Well-formed entries -/

/-- An entry is under its own id. -/
def WellFormed (s : Connector) : Prop :=
  ∀ id o, s.find id = some o → (s.objects o).currentBusId = id ∧ o < s.allocated

variable {scope : Scope} {s t u : Connector}

theorem wellFormed_modify {o : Nat} {f : ConnectionHandleData → ConnectionHandleData}
    (hf : ∀ h, (f h).currentBusId = h.currentBusId) (hs : s.WellFormed) :
    (s.modify o f).WellFormed := by
  intro id p hp
  obtain ⟨hid, hlt⟩ := hs id p hp
  refine ⟨?_, hlt⟩
  rw [objects_modify]
  split_ifs with h
  · rw [hf, ← h, hid]
  · exact hid

theorem wellFormed_setHandleLostTopology (o : Nat) (hs : s.WellFormed) :
    (s.setHandleLostTopology o).WellFormed := by
  unfold setHandleLostTopology
  split_ifs
  · exact hs
  · exact wellFormed_modify (fun _ => rfl) (wellFormed_modify (fun _ => rfl) hs)

theorem wellFormed_createConnectionHandle (id : Nat) (handle : Option Nat) (hs : s.WellFormed) :
    (s.createConnectionHandle id handle).WellFormed := by
  intro id' o ho
  rw [find_createConnectionHandle] at ho
  split_ifs at ho with h
  · obtain rfl := Option.some.inj ho
    exact ⟨by simp [createConnectionHandle, h], by simp [createConnectionHandle]⟩
  · obtain ⟨hid, hlt⟩ := hs id' o ho
    have hne : o ≠ s.allocated := Nat.ne_of_lt hlt
    exact ⟨by simp [createConnectionHandle, hne, hid], Nat.lt_succ_of_lt hlt⟩

theorem Change.wellFormed (h : Change scope s t) (hs : s.WellFormed) : t.WellFormed := by
  cases h with
  | disconnect id => exact hs
  | erase id => exact fun id' o ho => hs id' o (find_of_find_erase ho)
  | abandon id => exact hs
  | connect address h => exact hs
  | setProxy o id h => exact wellFormed_modify (fun _ => rfl) hs
  | setProxyFor o ids => exact wellFormed_modify (fun _ => rfl) hs
  | becomeReady o h => exact wellFormed_modify (fun _ => rfl) hs
  | becomeUnready o h => exact wellFormed_modify (fun _ => rfl) hs
  | setAppReady o ready =>
    obtain ⟨appReady, h⟩ := setAppReady_eq s o ready
    rw [h]
    exact hs
  | dropTimer o h => exact wellFormed_modify (fun _ => rfl) hs
  | retry o timeout h =>
    exact wellFormed_modify (fun _ => rfl) (wellFormed_modify (fun _ => rfl) hs)
  | waitDiscovery o h => exact wellFormed_modify (fun _ => rfl) hs
  | setAppHandle id o a h hnew => exact wellFormed_modify (fun _ => rfl) hs
  | create id handle h hnew => exact wellFormed_createConnectionHandle id handle hs
  | createLost id handle h hnew =>
    exact wellFormed_setHandleLostTopology _ (wellFormed_createConnectionHandle id handle hs)

theorem Changes.wellFormed (h : Changes scope s t) (hs : s.WellFormed) : t.WellFormed :=
  h.keeps (fun _ _ hchange => hchange.wellFormed) hs

/-- Without new entries, an id that has none gets none. -/
theorem Changes.find_none (h : Changes scope s t) {id : Nat} (hid : ¬ scope.mayCreate id)
    (hs : s.find id = none) : t.find id = none := by
  refine h.keeps (fun s t (hchange : Change _ s t) (hs : s.find id = none) => ?_) hs
  cases hchange with
  | erase id' =>
    rw [find_erase]
    split_ifs
    · rfl
    · exact hs
  | create id' handle h hnew =>
    have hne : id ≠ id' := by
      rintro rfl
      exact hid hnew
    rw [find_createConnectionHandle, if_neg hne, hs]
  | setAppReady o ready =>
    obtain ⟨appReady, h⟩ := setAppReady_eq s o ready
    rw [h]
    exact hs
  | createLost id' handle h hnew =>
    have hne : id ≠ id' := by
      rintro rfl
      exact hid hnew
    rw [(setHandleLostTopology_sameMap _ _).find, find_createConnectionHandle, if_neg hne, hs]
  | disconnect id' => exact hs
  | abandon id' => exact hs
  | connect address h => exact hs
  | setProxy o id' h => exact hs
  | setProxyFor o ids => exact hs
  | becomeReady o h => exact hs
  | becomeUnready o h => exact hs
  | dropTimer o h => exact hs
  | retry o timeout h => exact hs
  | waitDiscovery o h => exact hs
  | setAppHandle id' o a h hnew => exact hs

/-- What is around the connector stays. -/
theorem Changes.around (h : Changes scope s t) : t.around = s.around := by
  refine h.relates (R := fun s t => t.around = s.around) (fun _ => rfl) ?_
  intro s t u hst hchange
  cases hchange with
  | setAppReady o ready =>
    obtain ⟨appReady, h⟩ := setAppReady_eq t o ready
    rw [h]
    exact hst
  | createLost id handle h hnew => exact ((setHandleLostTopology_sameMap _ _).around).trans hst
  | _ => exact hst

/-- The recursions do not reach their bounds. -/
theorem Changes.exhausted (h : Changes scope s t) : t.exhausted = s.exhausted := by
  refine h.relates (R := fun s t => t.exhausted = s.exhausted) (fun _ => rfl) ?_
  intro s t u hst hchange
  cases hchange with
  | setAppReady o ready =>
    obtain ⟨appReady, h⟩ := setAppReady_eq t o ready
    rw [h]
    exact hst
  | createLost id handle h hnew =>
    unfold setHandleLostTopology
    split_ifs
    · exact hst
    · exact hst
  | _ => exact hst

theorem Changes.abandoned (h : Changes scope s t) : s.abandoned <:+ t.abandoned := by
  refine h.relates (R := fun s t => s.abandoned <:+ t.abandoned) (fun _ => List.suffix_rfl) ?_
  intro s t u hst hchange
  cases hchange with
  | abandon id => exact hst.trans (List.suffix_cons _ _)
  | setAppReady o ready =>
    obtain ⟨appReady, h⟩ := setAppReady_eq t o ready
    rw [h]
    exact hst
  | createLost id handle h hnew =>
    rw [(setHandleLostTopology_sameMap _ _).abandoned]
    exact hst
  | _ => exact hst

theorem Changes.endpoints_length (h : Changes scope s t) :
    t.endpoints.length ≤ s.endpoints.length := by
  refine h.relates (R := fun s t => t.endpoints.length ≤ s.endpoints.length) (fun _ => le_refl _) ?_
  intro s t u hst hchange
  cases hchange with
  | disconnect id => exact (List.length_filter_le _ _).trans hst
  | setAppReady o ready =>
    obtain ⟨appReady, h⟩ := setAppReady_eq t o ready
    rw [h]
    exact hst
  | createLost id handle h hnew =>
    rw [(setHandleLostTopology_sameMap _ _).endpoints]
    exact hst
  | _ => exact hst

/-- Without new entries the map does not grow. -/
theorem Changes.handles_length (h : Changes Scope.inner s t) :
    t.handles.length ≤ s.handles.length := by
  refine h.relates (R := fun s t => t.handles.length ≤ s.handles.length) (fun _ => le_refl _) ?_
  intro s t u hst hchange
  cases hchange with
  | erase id => exact (List.length_filter_le _ _).trans hst
  | create id handle h hnew => cases hnew
  | createLost id handle h hnew => cases hnew
  | setAppReady o ready =>
    obtain ⟨appReady, h⟩ := setAppReady_eq t o ready
    rw [h]
    exact hst
  | _ => exact hst

/-! ## The changes of each function -/

/-- The clock has the times of all reconnects: they are after now. -/
def ClockFits (s : Connector) : Prop :=
  ∀ k, s.around.sysNow < timeAfter s.around.sysNow (reconnectInterval s.around.conf k)

theorem ClockFits.of_around (h : s.ClockFits) (haround : t.around = s.around) : t.ClockFits := by
  unfold ClockFits
  rw [haround]
  exact h

/-- A function makes changes from a state with well-formed entries. Where it must not call
    `node->connect`, the clock must have the times of the reconnects. -/
def Leads (scope : Scope) (s t : Connector) : Prop :=
  s.WellFormed → scope.mayConnect ∨ s.ClockFits → Changes scope s t

/-- It does so where calls may nest this deep: there are fewer endpoints to disconnect. -/
def LeadsIn (scope : Scope) (depth : Nat) (s t : Connector) : Prop :=
  s.endpoints.length < depth → Leads scope s t

variable {depth : Nat}

theorem Leads.refl (s : Connector) : Leads scope s s := fun _ _ => Changes.refl

theorem Leads.trans (h : Leads scope s t) (h' : Leads scope t u) : Leads scope s u := by
  intro hs hclock
  have hfirst := h hs hclock
  exact hfirst.trans (h' (hfirst.wellFormed hs)
    (hclock.imp_right fun h => h.of_around hfirst.around))

theorem Leads.wellFormed (h : Leads Scope.inner s t) (hs : s.WellFormed) : t.WellFormed :=
  (h hs (.inl trivial)).wellFormed hs

theorem Leads.of_changes (h : Changes scope s t) : Leads scope s t := fun _ _ => h

theorem Leads.of_change (h : Change scope s t) : Leads scope s t := fun _ _ => Changes.single h

theorem LeadsIn.leads (h : LeadsIn scope (s.endpoints.length + 1) s t) : Leads scope s t :=
  h (Nat.lt_succ_self _)

namespace LeadsIn

theorem refl (s : Connector) : LeadsIn scope depth s s := fun _ => Leads.refl s

theorem trans (h : LeadsIn scope depth s t) (h' : LeadsIn scope depth t u) :
    LeadsIn scope depth s u := by
  intro hdepth hs hclock
  have hfirst := h hdepth hs hclock
  exact hfirst.trans (h' (Nat.lt_of_le_of_lt hfirst.endpoints_length hdepth) (hfirst.wellFormed hs)
    (hclock.imp_right fun h => h.of_around hfirst.around))

theorem of_changes (h : Changes scope s t) : LeadsIn scope depth s t := fun _ => Leads.of_changes h

theorem of_change (h : Change scope s t) : LeadsIn scope depth s t := fun _ => Leads.of_change h

theorem of_leads (h : Leads scope s t) : LeadsIn scope depth s t := fun _ => h

end LeadsIn

/-- A pass over entries where each visit keeps an invariant. -/
theorem forEach_changes {visit : Connector → Nat → Connector} {I : Connector → Prop}
    (hvisit : ∀ s id o, I s → s.find id = some o → Changes scope s (visit s o) ∧ I (visit s o))
    (ids : List Nat) {s : Connector} (hs : I s) : Changes scope s (s.forEach visit ids) := by
  unfold forEach
  induction ids generalizing s with
  | nil => exact Changes.refl
  | cons id ids ih =>
      rw [List.foldl_cons]
      cases hfind : s.find id with
      | none => exact ih hs
      | some o =>
        obtain ⟨hchanges, hnext⟩ := hvisit s id o hs hfind
        exact hchanges.trans (ih hnext)

theorem dropInvalid_change (s : Connector) (o : Nat) : Change scope s (s.dropInvalid o) :=
  .setProxyFor s o _

/-- Getting ready ends: each call in it is for one entry less. -/
theorem setHandleReadyIn_changes (depth : Nat) {s : Connector} {o : Nat} (hs : s.WellFormed)
    (hdepth : countLeft true s + (if o < s.allocated then 0 else 1) < depth) :
    Changes scope s (setHandleReadyIn depth s o) := by
  induction depth generalizing s o with
  | zero => exact absurd hdepth (Nat.not_lt_zero _)
  | succ depth ih =>
      simp only [setHandleReadyIn]
      by_cases hready : (s.objects o).ready = true
      · rw [if_pos hready]
        exact Changes.refl
      · rw [if_neg hready]
        have hunready : (s.objects o).ready = false := by simpa using hready
        set started := (s.modify o fun h => { h with
          ready := true, reconnectRetryTimes := 0, reconnectNextTimepoint := 0 }).setAppReady o true
          with hstarted
        have hfirst : Changes scope s started :=
          (Changes.single (.becomeReady s o hunready)).tail (.setAppReady _ o true)
        have hgets : ∀ p, (s.objects p).ready = true → (started.objects p).ready = true := by
          intro p hp
          rw [hstarted, setAppReady_objects, objects_modify]
          split_ifs
          · rfl
          · exact hp
        have hallocated : started.allocated = s.allocated :=
          ((modify_sameMap s o _).trans (setAppReady_sameMap _ o true)).allocated
        have hleft : countLeft true started < depth := by
          split_ifs at hdepth with ho
          · have hself : (started.objects o).ready = true := by
              rw [hstarted, setAppReady_objects, objects_modify_self]
            have := countLeft_lt_of hallocated hgets ho hunready hself
            omega
          · have := countLeft_le_of hallocated hgets
            omega
        have hothers : Changes scope started
            (started.forEach (setHandleReadyIn depth) (started.objects o).proxyForBusId) :=
          forEach_changes (I := fun s => s.WellFormed ∧ countLeft true s < depth)
          (fun s id p h hfind => by
            have hp := (h.1 id p hfind).2
            have hchanges : Changes scope s (setHandleReadyIn depth s p) :=
              ih h.1 (by rw [if_pos hp]; exact h.2)
            refine ⟨hchanges, hchanges.wellFormed h.1, Nat.lt_of_le_of_lt ?_ h.2⟩
            exact countLeft_le_of (setHandleReadyIn_sameMap s depth p).allocated
              (fun q hq => by rw [setHandleReadyIn_objects hq depth p rfl, hq]))
          (started.objects o).proxyForBusId ⟨hfirst.wellFormed hs, hleft⟩
        split_ifs with htimer
        · exact hfirst.trans (hothers.tail (dropInvalid_change _ o))
        · exact hfirst.trans ((hothers.tail (dropInvalid_change _ o)).tail
            (.dropTimer _ o (by simpa using htimer)))

/-- Getting unready ends in the same way. -/
theorem setHandleUnreadyIn_changes (depth : Nat) {s : Connector} {o : Nat} (hs : s.WellFormed)
    (hdepth : countLeft false s + (if o < s.allocated then 0 else 1) < depth) :
    Changes scope s (setHandleUnreadyIn depth s o) := by
  induction depth generalizing s o with
  | zero => exact absurd hdepth (Nat.not_lt_zero _)
  | succ depth ih =>
      simp only [setHandleUnreadyIn]
      by_cases hready : (s.objects o).ready = true
      · have hnot : (!(s.objects o).ready) = true ↔ False := by simp [hready]
        simp only [hnot, if_false]
        set left := (s.modify o fun h => { h with ready := false }).setAppReady o false with heq
        have hfirst : Changes scope s left :=
          (Changes.single (.becomeUnready s o hready)).tail (.setAppReady _ o false)
        have hgets : ∀ p, (s.objects p).ready = false → (left.objects p).ready = false := by
          intro p hp
          rw [heq, setAppReady_objects, objects_modify]
          split_ifs
          · rfl
          · exact hp
        have hallocated : left.allocated = s.allocated :=
          ((modify_sameMap s o _).trans (setAppReady_sameMap _ o false)).allocated
        have hleft : countLeft false left < depth := by
          split_ifs at hdepth with ho
          · have hself : (left.objects o).ready = false := by
              rw [heq, setAppReady_objects, objects_modify_self]
            have := countLeft_lt_of hallocated hgets ho hready hself
            omega
          · have := countLeft_le_of hallocated hgets
            omega
        have hothers : Changes scope left
            (left.forEach (setHandleUnreadyIn depth) (left.objects o).proxyForBusId) :=
          forEach_changes (I := fun s => s.WellFormed ∧ countLeft false s < depth)
          (fun s id p h hfind => by
            have hp := (h.1 id p hfind).2
            have hchanges : Changes scope s (setHandleUnreadyIn depth s p) :=
              ih h.1 (by rw [if_pos hp]; exact h.2)
            refine ⟨hchanges, hchanges.wellFormed h.1, Nat.lt_of_le_of_lt ?_ h.2⟩
            refine countLeft_le_of (setHandleUnreadyIn_sameMap s depth p).allocated fun q hq => ?_
            obtain ⟨ready, ids, h, hkept⟩ := setHandleUnreadyIn_objects (s := s) (p := q) depth p
            rw [h]
            exact hkept hq)
          (left.objects o).proxyForBusId ⟨hfirst.wellFormed hs, hleft⟩
        exact hfirst.trans (hothers.tail (dropInvalid_change _ o))
      · have hnot : (!(s.objects o).ready) = true := by simpa using hready
        rw [if_pos hnot]
        exact Changes.refl

theorem setHandleReady_leads (s : Connector) (o : Nat) : Leads scope s (s.setHandleReady o) := by
  intro hs _
  have hle := countLeft_le true s
  refine setHandleReadyIn_changes _ hs ?_
  split_ifs <;> omega

theorem setHandleUnready_leads (s : Connector) (o : Nat) :
    Leads scope s (s.setHandleUnready o) := by
  intro hs _
  have hle := countLeft_le false s
  refine setHandleUnreadyIn_changes _ hs ?_
  split_ifs <;> omega

theorem setHandleWaitingDiscovery_changes (s : Connector) (o : Nat) :
    Changes scope s (s.setHandleWaitingDiscovery o) := by
  simp only [setHandleWaitingDiscovery]
  split_ifs with hstream hproxy havailable
  · exact Changes.refl
  · exact Changes.refl
  · exact Changes.refl
  · exact Changes.single (.waitDiscovery s o (by simpa using hproxy))

theorem filter_length_lt {α : Type} {pairs : List (Nat × α)} {id : Nat}
    (h : (pairs.lookup id).isSome = true) :
    (pairs.filter fun pair => pair.1 ≠ id).length < pairs.length := by
  induction pairs with
  | nil => cases h
  | cons pair pairs ih =>
      obtain ⟨key, value⟩ := pair
      have hle := List.length_filter_le (fun pair : Nat × α => decide (pair.1 ≠ id)) pairs
      by_cases hkey : key = id
      · rw [List.filter_cons_of_neg (by simp [hkey]), List.length_cons]
        omega
      · have hne : (id == key) = false := by
          rw [beq_eq_false_iff_ne]
          exact Ne.symm hkey
        rw [List.lookup_cons, hne] at h
        rw [List.filter_cons_of_pos (by simp [hkey]), List.length_cons, List.length_cons]
        exact Nat.succ_lt_succ (ih h)

theorem endpoints_length_lt {id : Nat} (h : s.hasEndpoint id = true) :
    (s.endpoints.filter fun endpoint => endpoint.1 ≠ id).length < s.endpoints.length :=
  filter_length_lt h

theorem handles_length_erase_lt {id o : Nat} (h : s.find id = some o) :
    (s.erase id).handles.length < s.handles.length := by
  refine filter_length_lt ?_
  show (s.find id).isSome = true
  rw [h]
  rfl

section Reentrant

variable {reenter : Connector → Nat → Connector}
  (hreenter : ∀ scope s id, LeadsIn scope depth s (reenter s id))

include hreenter

theorem disconnect_leads {id : Nat} (hendpoint : s.hasEndpoint id = true) :
    LeadsIn scope (depth + 1) s (s.disconnect reenter id) := by
  intro hdepth
  have hlt := endpoints_length_lt hendpoint
  exact (Leads.of_change (.disconnect s id)).trans (hreenter scope _ id (by
    show (s.endpoints.filter fun endpoint => endpoint.1 ≠ id).length < depth
    omega))

theorem unbindConnectionHandleProxy_leads (s : Connector) (target proxy : Nat) :
    LeadsIn scope (depth + 1) s (s.unbindConnectionHandleProxy reenter target proxy) := by
  simp only [unbindConnectionHandleProxy]
  set left := if (s.objects target).proxyBusId = (s.objects proxy).currentBusId then
    s.modify target fun h => { h with proxyBusId := 0 } else s with hleft
  have hunbound : Changes scope s (left.modify proxy fun h =>
      { h with proxyForBusId := h.proxyForBusId.erase (left.objects target).currentBusId }) := by
    refine Changes.tail ?_ (.setProxyFor left proxy _)
    rw [hleft]
    split_ifs
    · exact Changes.single (.setProxy s target 0 (.inl rfl))
    · exact Changes.refl
  split_ifs with hkept hupstream hendpoint
  · exact LeadsIn.of_changes hunbound
  · exact LeadsIn.of_changes hunbound
  · exact (LeadsIn.of_changes hunbound).trans (disconnect_leads hreenter hendpoint)
  · exact LeadsIn.of_changes hunbound

theorem bindConnectionHandleProxy_leads (hnew : ∀ id, scope.mayCreate id) (s : Connector)
    (target proxy : Nat) :
    LeadsIn scope (depth + 1) s (s.bindConnectionHandleProxy reenter target proxy) := by
  simp only [bindConnectionHandleProxy]
  have hbind : ∀ (s : Connector) (id : Nat) (ids : ConnectionHandleData → List Nat), Changes scope s
      ((s.modify target fun h => { h with proxyBusId := id }).modify proxy fun h =>
        { h with proxyForBusId := ids h }) := by
    intro s id ids
    exact (Changes.single (.setProxy s target id (.inr hnew))).tail (.setProxyFor _ proxy _)
  split_ifs with hbound hself hproxy
  · exact LeadsIn.refl s
  · exact LeadsIn.refl s
  · refine LeadsIn.trans ?_ (LeadsIn.of_changes (hbind _ _ _))
    cases s.find (s.objects target).proxyBusId with
    | none => exact LeadsIn.refl s
    | some old => exact unbindConnectionHandleProxy_leads hreenter s target old
  · exact LeadsIn.of_changes (hbind s _ _)

omit hreenter in
/-- Changes in any scope, from a state with fewer entries than a bound. -/
def Within (n depth : Nat) (s t : Connector) : Prop :=
  s.handles.length < n → ∀ scope, LeadsIn scope depth s t

omit hreenter in
theorem Within.of_leads {n : Nat} (h : ∀ scope, LeadsIn scope depth s t) : Within n depth s t :=
  fun _ => h

omit hreenter in
theorem Within.trans {n : Nat} (h : Within n depth s t) (h' : Within n depth t u) :
    Within n depth s u := by
  intro hlen scope hdepth hs hclock
  have hinner := h hlen Scope.inner hdepth hs (.inl trivial)
  have hlen' := Nat.lt_of_le_of_lt hinner.handles_length hlen
  exact (h hlen scope).trans (h' hlen' scope) hdepth hs hclock

omit hreenter in
theorem Within.foldl {α : Type} {n : Nat} {f : Connector → α → Connector}
    (hf : ∀ s x, Within n depth s (f s x)) (xs : List α) (s : Connector) :
    Within n depth s (xs.foldl f s) := by
  induction xs generalizing s with
  | nil => exact Within.of_leads fun _ => LeadsIn.refl s
  | cons x xs ih => exact (hf s x).trans (ih (f s x))

/-- What removing an entry changes after the entry is out of `handles_`. -/
theorem removeConnectionHandleIn_within_erase {n : Nat}
    (ih : ∀ s id, Within n (depth + 1) s (removeConnectionHandleIn reenter n s id)) {id o : Nat}
    (hfind : s.find id = some o) :
    Within n (depth + 1) (s.erase id) (removeConnectionHandleIn reenter (n + 1) s id) := by
  have hrefl : ∀ s : Connector, Within n (depth + 1) s s :=
    fun s => Within.of_leads fun _ => LeadsIn.refl s
  have hunbind : ∀ (s : Connector) target proxy,
      Within n (depth + 1) s (s.unbindConnectionHandleProxy reenter target proxy) :=
    fun s target proxy => Within.of_leads fun _ =>
      unbindConnectionHandleProxy_leads hreenter s target proxy
  have hunready : ∀ (s : Connector) o, Within n (depth + 1) s (s.setHandleUnready o) :=
    fun s o => Within.of_leads fun _ => LeadsIn.of_leads (setHandleUnready_leads s o)
  rw [removeConnectionHandleIn, hfind]
  refine Within.trans ?_ (Within.foldl ?_ _ _)
  · split_ifs
    · cases (s.erase id).find ((s.erase id).objects o).proxyBusId with
      | none => exact hrefl _
      | some proxy => exact hunbind _ o proxy
    · exact hrefl _
  · intro s downstream
    cases s.find downstream with
    | none => exact hrefl s
    | some target =>
      show Within n (depth + 1) s (if _ then s else _)
      split_ifs
      · exact hrefl s
      · refine Within.trans (hunbind s target o) ?_
        generalize s.unbindConnectionHandleProxy reenter target o = s
        dsimp only
        cases (s.objects target).appHandle with
        | none => exact Within.trans (hunready s target) (ih _ downstream)
        | some a =>
          dsimp only
          cases s.find (s.privateData a) with
          | none => exact hrefl s
          | some closed =>
            dsimp only
            split_ifs
            · exact Within.trans (hunready s closed) (ih _ _)
            · exact hrefl s

/-- A removal ends: the entry is out of the map before others are removed with it. -/
theorem removeConnectionHandleIn_within (n : Nat) (s : Connector) (id : Nat) :
    Within n (depth + 1) s (removeConnectionHandleIn reenter n s id) := by
  induction n generalizing s id with
  | zero => exact fun hlen => absurd hlen (Nat.not_lt_zero _)
  | succ n ih =>
      intro hlen scope
      cases hfind : s.find id with
      | none =>
        rw [removeConnectionHandleIn, hfind]
        exact LeadsIn.refl s
      | some o =>
        have hlt := handles_length_erase_lt hfind
        exact (LeadsIn.of_change (.erase s id)).trans
          (removeConnectionHandleIn_within_erase hreenter ih hfind (by omega) scope)

theorem removeConnectionHandle_leads (s : Connector) (id : Nat) :
    LeadsIn scope (depth + 1) s (s.removeConnectionHandle reenter id) :=
  removeConnectionHandleIn_within hreenter _ s id (Nat.lt_succ_self _) scope

/-- A removed entry is gone, whatever the calls from `node->disconnect` do. -/
theorem removeConnectionHandle_find (hdepth : s.endpoints.length < depth + 1) (hs : s.WellFormed)
    (id : Nat) : (s.removeConnectionHandle reenter id).find id = none := by
  cases hfind : s.find id with
  | none =>
    unfold removeConnectionHandle
    rw [removeConnectionHandleIn, hfind]
    exact hfind
  | some o =>
    have hwithin := removeConnectionHandleIn_within_erase hreenter
      (removeConnectionHandleIn_within hreenter s.handles.length) hfind
    have herase : Change Scope.inner s (s.erase id) := .erase s id
    refine (hwithin (handles_length_erase_lt hfind) Scope.inner hdepth (herase.wellFormed hs)
      (.inl trivial)).find_none not_false ?_
    rw [find_erase, if_pos rfl]

theorem onCloseConnection_leads (s : Connector) (a : Nat) :
    LeadsIn scope (depth + 1) s (s.onCloseConnection reenter a) := by
  unfold onCloseConnection
  cases s.find (s.privateData a) with
  | none => exact LeadsIn.refl s
  | some o =>
    show LeadsIn scope (depth + 1) s (if _ then _ else s)
    split_ifs
    · exact (LeadsIn.of_leads (setHandleUnready_leads s o)).trans
        (removeConnectionHandle_leads hreenter _ _)
    · exact LeadsIn.refl s

omit hreenter in
theorem scheduleReconnect_change (s : Connector) (o : Nat) (previousTimeout : Option Int) :
    Change scope s (s.scheduleReconnect o previousTimeout) :=
  .retry s o _ (earlierTimeout_le _ _)

omit hreenter in
theorem setupReconnectTimer_eq {id o : Nat} (hfind : s.find id = some o) (h : ¬ s.IsExceeded o)
    (previousTimeout : Option Int) :
    s.setupReconnectTimer reenter id previousTimeout =
      (s.scheduleReconnect o previousTimeout, true) := by
  simp [setupReconnectTimer, hfind, h]

omit hreenter in
theorem setupReconnectTimer_exceeded_eq {id o : Nat} (hfind : s.find id = some o)
    (h : s.IsExceeded o) (previousTimeout : Option Int) :
    s.setupReconnectTimer reenter id previousTimeout =
      ({ s with abandoned := id :: s.abandoned }.removeConnectionHandle reenter id, false) := by
  simp [setupReconnectTimer, hfind, h]

omit hreenter in
theorem setupReconnectTimer_of_kept {id o : Nat} {previousTimeout : Option Int}
    (hfind : s.find id = some o)
    (hkept : (s.setupReconnectTimer reenter id previousTimeout).2 = true) :
    s.setupReconnectTimer reenter id previousTimeout =
      (s.scheduleReconnect o previousTimeout, true) := by
  refine setupReconnectTimer_eq hfind (fun h => ?_) previousTimeout
  simp [setupReconnectTimer, hfind, h] at hkept

theorem setupReconnectTimer_leads (s : Connector) (id : Nat) (previousTimeout : Option Int) :
    LeadsIn scope (depth + 1) s (s.setupReconnectTimer reenter id previousTimeout).1 := by
  unfold setupReconnectTimer
  cases s.find id with
  | none => exact LeadsIn.refl s
  | some o =>
    dsimp only
    split_ifs
    · exact (LeadsIn.of_change (.abandon s id)).trans (removeConnectionHandle_leads hreenter _ id)
    · exact LeadsIn.of_change (scheduleReconnect_change s o previousTimeout)

omit hreenter in
/-- The ids that a connection may make entries for: any, or else it only connects the entry of its
    own id again, which has its handle already. -/
def Permits (scope : Scope) (s : Connector) (id : Nat) (handle : Option Nat) : Prop :=
  (∀ id, scope.mayCreate id) ∨ ∃ o, s.find id = some o ∧ (s.objects o).appHandle = handle

omit hreenter in
theorem mutableConnectionHandle_changes {id : Nat} {handle : Option Nat}
    (hnew : Permits scope s id handle) :
    Changes scope s (s.mutableConnectionHandle id handle).1 := by
  unfold mutableConnectionHandle
  cases hfind : s.find id with
  | some o =>
    cases handle with
    | none => exact Changes.refl
    | some a =>
      rcases hnew with hnew | ⟨p, hp, happ⟩
      · exact Changes.single (.setAppHandle s id o a hfind (hnew id))
      · obtain rfl : o = p := Option.some.inj (hfind.symm.trans hp)
        dsimp only
        rw [modify_eq_self (by rw [← happ])]
        exact Changes.refl
  | none =>
    rcases hnew with hnew | ⟨p, hp, -⟩
    · dsimp only
      split_ifs
      · exact Changes.single (.createLost s id handle hfind (hnew id))
      · exact Changes.single (.create s id handle hfind (hnew id))
    · rw [hfind] at hp
      cases hp

omit hreenter in
theorem onStartConnectToConnectedEndpoint_leads {id : Nat} {handle : Option Nat}
    (hnew : Permits scope s id handle) :
    Leads scope s (s.onStartConnectToConnectedEndpoint id handle).1 := by
  have hmutable := Leads.of_changes (mutableConnectionHandle_changes hnew)
  unfold onStartConnectToConnectedEndpoint
  dsimp only
  split_ifs
  · exact Leads.refl s
  · exact hmutable.trans (setHandleReady_leads _ _)
  · exact hmutable.trans (setHandleReady_leads _ _)
  · exact hmutable.trans (setHandleUnready_leads _ _)
  · exact Leads.refl s

theorem entriesThrough_leads (hnew : ∀ id, scope.mayCreate id) (s : Connector) (id : Nat)
    (handle : Option Nat) (proxyId : Nat) :
    LeadsIn scope (depth + 1) s (s.entriesThrough reenter id handle proxyId).1 := by
  unfold entriesThrough
  split_ifs
  · exact LeadsIn.of_changes (mutableConnectionHandle_changes (.inl hnew))
  · exact ((LeadsIn.of_changes (mutableConnectionHandle_changes (.inl hnew))).trans
      (LeadsIn.of_changes (mutableConnectionHandle_changes (.inl hnew)))).trans
      (bindConnectionHandleProxy_leads hreenter hnew _ _ _)

/-- Where only the entry of the id itself may be connected again, there is no proxy. -/
theorem entriesThrough_leads_of_permits {id proxyId : Nat} {handle : Option Nat}
    (hnew : (∀ id, scope.mayCreate id) ∨ Permits scope s id handle ∧ proxyId = id) :
    LeadsIn scope (depth + 1) s (s.entriesThrough reenter id handle proxyId).1 := by
  rcases hnew with hnew | ⟨hnew, rfl⟩
  · exact entriesThrough_leads hreenter hnew s id handle proxyId
  · unfold entriesThrough
    rw [if_pos rfl]
    exact LeadsIn.of_changes (mutableConnectionHandle_changes hnew)

theorem connectThrough_leads {id proxyId : Nat} {handle : Option Nat}
    (hnew : (∀ id, scope.mayCreate id) ∨ Permits scope s id handle ∧ proxyId = id) :
    LeadsIn scope (depth + 1) s (s.connectThrough reenter id handle proxyId).1 := by
  have hentries := entriesThrough_leads_of_permits hreenter hnew
  unfold connectThrough
  dsimp only
  split_ifs
  · exact hentries.trans (LeadsIn.of_leads (setHandleReady_leads _ _))
  · exact (hentries.trans (LeadsIn.of_leads (setHandleUnready_leads _ _))).trans
      (setupReconnectTimer_leads hreenter _ _ _)
  · exact hentries.trans (LeadsIn.of_leads (setHandleUnready_leads _ _))

omit hreenter in
/-- The entry of an id waits for a reconnect that is under way. -/
def WaitsFor (s : Connector) (id : Nat) : Prop :=
  ∃ o, s.find id = some o ∧ s.around.sysNow < (s.objects o).reconnectNextTimepoint

omit hreenter in
theorem mutableConnectionHandle_of_find {id o : Nat} (hfind : s.find id = some o)
    (handle : Option Nat) :
    ∃ app, s.mutableConnectionHandle id handle =
      (s.modify o fun h => { h with appHandle := app }, o) := by
  unfold mutableConnectionHandle
  rw [hfind]
  cases handle with
  | none => exact ⟨(s.objects o).appHandle, by rw [modify_eq_self rfl]⟩
  | some a => exact ⟨some a, rfl⟩

theorem connectTo_leads {id proxyId : Nat} {handle : Option Nat} (address : Bytes)
    (hnew : (∀ id, scope.mayCreate id) ∨ Permits scope s id handle ∧ proxyId = id)
    (hwait : scope.mayConnect ∨ WaitsFor s id ∧ proxyId = id) :
    LeadsIn scope (depth + 1) s (s.connectTo reenter id handle proxyId address).1 := by
  have hentries := entriesThrough_leads_of_permits hreenter hnew
  rcases hwait with hconnect | ⟨hwait, rfl⟩
  · unfold connectTo
    dsimp only
    split_ifs
    · exact hentries.trans (LeadsIn.of_leads (setHandleReady_leads _ _))
    · exact hentries.trans (LeadsIn.of_leads (setHandleUnready_leads _ _))
    · exact ((hentries.trans (LeadsIn.of_leads (setHandleUnready_leads _ _))).trans
        (setupReconnectTimer_leads hreenter _ _ _)).trans
          (LeadsIn.of_change (.connect _ address hconnect))
    · exact (hentries.trans (LeadsIn.of_leads (setHandleUnready_leads _ _))).trans
        (setupReconnectTimer_leads hreenter _ _ _)
  · -- the entry is its own proxy, and waits
    obtain ⟨o, hfind, hlater⟩ := hwait
    obtain ⟨app, hmutable⟩ := mutableConnectionHandle_of_find hfind handle
    have hentries' := hentries
    rw [entriesThrough, if_pos rfl, hmutable] at hentries'
    unfold connectTo entriesThrough
    rw [if_pos rfl, hmutable]
    dsimp only at hentries' ⊢
    split_ifs with hready hnext
    · exact hentries'.trans (LeadsIn.of_leads (setHandleReady_leads _ _))
    · exact hentries'.trans (LeadsIn.of_leads (setHandleUnready_leads _ _))
    all_goals
      refine absurd ?_ hnext
      obtain ⟨ready, ids, h⟩ := setHandleUnready_objects
        (s := s.modify o fun h => { h with appHandle := app }) (p := o) o
      rw [h, (setHandleUnready_sameMap _ o).around, objects_modify_self]
      exact hlater

theorem connectByCandidates_leads {id : Nat} {handle : Option Nat} {allowProxy : Bool}
    (hnew : (∀ id, scope.mayCreate id) ∨ Permits scope s id handle ∧ allowProxy = false)
    (hwait : scope.mayConnect ∨ WaitsFor s id ∧ allowProxy = false)
    (candidates : List Candidate) :
    LeadsIn scope (depth + 1) s (connectByCandidates reenter id handle allowProxy candidates s).1 := by
  induction candidates with
  | nil => exact LeadsIn.refl s
  | cons candidate rest ih =>
      simp only [connectByCandidates]
      by_cases hforeign : (!allowProxy && decide (candidate.busId ≠ id)) = true
      · rw [if_pos hforeign]
        split_ifs
        · exact ih
        · exact LeadsIn.refl s
        · exact LeadsIn.refl s
      · rw [if_neg hforeign]
        have hself : allowProxy = false → candidate.busId = id := by
          intro h
          simpa [h] using hforeign
        have hnew' := hnew.imp_right fun h => And.intro h.1 (hself h.2)
        have hwait' := hwait.imp_right fun h => And.intro h.1 (hself h.2)
        by_cases hallowed : (!candidate.isAllowed) = true
        · rw [if_pos hallowed]
          split_ifs
          · exact ih
          · exact LeadsIn.refl s
        · rw [if_neg hallowed]
          by_cases hendpoint : s.hasEndpoint candidate.busId = true
          · rw [if_pos hendpoint]
            exact connectThrough_leads hreenter hnew'
          · rw [if_neg hendpoint]
            cases s.around.discovery candidate.busId with
            | none =>
              dsimp only
              split_ifs
              · exact (connectThrough_leads hreenter hnew').trans
                  (LeadsIn.of_changes (setHandleWaitingDiscovery_changes _ _))
              · exact connectThrough_leads hreenter hnew'
            | some gateways =>
              dsimp only
              split
              · exact connectTo_leads hreenter _ hnew' hwait'
              · exact ih

theorem connectByNextHop_leads (hnew : ∀ id, scope.mayCreate id) (s : Connector) (id : Nat)
    (handle : Option Nat) (nextHop : Nat) :
    LeadsIn scope (depth + 1) s (s.connectByNextHop reenter id handle nextHop).1 := by
  have hentries : LeadsIn scope (depth + 1) s
      ((s.mutableConnectionHandle nextHop none).1.mutableConnectionHandle id handle).1 :=
    LeadsIn.of_changes ((mutableConnectionHandle_changes (.inl hnew)).trans
      (mutableConnectionHandle_changes (.inl hnew)))
  unfold connectByNextHop
  dsimp only
  split_ifs
  · exact hentries.trans ((bindConnectionHandleProxy_leads hreenter hnew _ _ _).trans
      (LeadsIn.of_leads (setHandleReady_leads _ _)))
  · exact hentries.trans ((bindConnectionHandleProxy_leads hreenter hnew _ _ _).trans
      (LeadsIn.of_leads (setHandleUnready_leads _ _)))
  · exact hentries.trans (LeadsIn.of_leads (setHandleReady_leads _ _))
  · exact hentries.trans (LeadsIn.of_leads (setHandleUnready_leads _ _))

/-- An entry may be connected again without a new one where its id needs no proxy. -/
def NeedsNoProxy (scope : Scope) (s : Connector) (id : Nat) (handle : Option Nat)
    (allowProxy : Bool) : Prop :=
  (∀ id, scope.mayCreate id) ∨
    Permits scope s id handle ∧ allowProxy = false ∧ (s.around.relation id).isStream = false

theorem tryConnectTo_leads {id : Nat} {handle : Option Nat} {allowProxy : Bool}
    (hnew : NeedsNoProxy scope s id handle allowProxy)
    (hwait : scope.mayConnect ∨ WaitsFor s id ∧ allowProxy = false) :
    LeadsIn scope (depth + 1) s (s.tryConnectTo reenter id handle allowProxy).1 := by
  have hpermits : Permits scope s id handle := by
    rcases hnew with hnew | hnew
    · exact .inl hnew
    · exact hnew.1
  have hdirect : LeadsIn scope (depth + 1) s
      (if s.allowsDirect id then
        s.onStartConnectToSameOrOtherUpstreamPeer reenter id handle allowProxy
      else (s, .tryNext)).1 := by
    unfold onStartConnectToSameOrOtherUpstreamPeer
    split_ifs
    · exact LeadsIn.refl s
    · cases s.candidates id with
      | nil => exact LeadsIn.refl s
      | cons candidate rest =>
        exact connectByCandidates_leads hreenter
          (hnew.imp_right fun h => ⟨h.1, h.2.1⟩) hwait (candidate :: rest)
    · exact LeadsIn.refl s
  simp only [tryConnectTo]
  set direct := if s.allowsDirect id then
      s.onStartConnectToSameOrOtherUpstreamPeer reenter id handle allowProxy
    else (s, .tryNext)
  have hstream : LeadsIn scope (depth + 1) s
      (if (s.around.relation id).isStream then
        direct.1.onStartConnectToStreamPeer reenter id handle (s.around.nextHop id)
      else (direct.1, .tryNext)).1 := by
    by_cases hrelation : (s.around.relation id).isStream = true
    · rw [if_pos hrelation]
      rcases hnew with hnew | ⟨-, -, hproxy⟩
      · unfold onStartConnectToStreamPeer
        cases s.around.nextHop id with
        | none => exact hdirect
        | some nextHop =>
          dsimp only
          split_ifs
          · exact hdirect
          · exact hdirect.trans (connectByNextHop_leads hreenter hnew _ _ _ _)
      · rw [hrelation] at hproxy
        cases hproxy
    · rw [if_neg hrelation]
      exact hdirect
  set stream := if (s.around.relation id).isStream then
      direct.1.onStartConnectToStreamPeer reenter id handle (s.around.nextHop id)
    else (direct.1, .tryNext)
  by_cases hconnected : (s.onStartConnectToConnectedEndpoint id handle).2 ≠ .tryNext
  · rw [if_pos hconnected]
    exact LeadsIn.of_leads (onStartConnectToConnectedEndpoint_leads hpermits)
  · rw [if_neg hconnected]
    by_cases hnext : direct.2 ≠ .tryNext
    · rw [if_pos hnext]
      exact hdirect
    · rw [if_neg hnext]
      by_cases hnext' : stream.2 ≠ .tryNext
      · rw [if_pos hnext']
        exact hstream
      · rw [if_neg hnext']
        by_cases hproxy : (!allowProxy) = true
        · rw [if_pos hproxy]
          exact hstream
        · rw [if_neg hproxy]
          rcases hnew with hnew | ⟨-, hnone, -⟩
          · unfold onStartConnectToProxyByUpstream
            split_ifs
            · exact hstream
            · split
              · exact hstream
              · exact hstream.trans (connectByNextHop_leads hreenter hnew _ _ _ _)
          · exact absurd (by rw [hnone]; rfl) hproxy

theorem tryDirectReconnect_leads {id o : Nat} (hfind : s.find id = some o)
    (hwait : scope.mayConnect ∨ WaitsFor s id) :
    LeadsIn scope (depth + 1) s (s.tryDirectReconnect reenter o).1 := by
  intro hdepth hs hclock
  obtain ⟨hid, -⟩ := hs id o hfind
  unfold tryDirectReconnect
  dsimp only
  split_ifs with hready hlost hstream hproxy hwaiting
  · exact Changes.refl
  · exact Changes.refl
  · exact Changes.refl
  · exact Changes.refl
  · exact Changes.refl
  · split
    · exact Changes.single (.waitDiscovery s o (by simpa using hproxy))
    · refine tryConnectTo_leads hreenter (.inr ⟨.inr ⟨o, ?_, rfl⟩, rfl, ?_⟩)
        (hwait.imp_right fun h => ⟨hid.symm ▸ h, rfl⟩) hdepth hs hclock
      · rw [hid, hfind]
      · simpa using hstream

theorem onRemoveEndpointWith_leads (s : Connector) (id : Nat) :
    LeadsIn scope (depth + 1) s (s.onRemoveEndpointWith reenter id) := by
  intro hdepth hs hclock
  refine (?_ : LeadsIn scope (depth + 1) s _) hdepth hs hclock
  simp only [onRemoveEndpointWith]
  cases hfind : s.find id with
  | none => exact LeadsIn.refl s
  | some o =>
    dsimp only
    by_cases hkeep : (!s.needKeepHandle o) = true
    · rw [if_pos hkeep]
      exact removeConnectionHandle_leads hreenter s id
    · rw [if_neg hkeep]
      set armed := if (s.objects o).reconnectNextTimepoint ≤ s.around.sysNow then
        s.setupReconnectTimer reenter id none else (s, true) with harmed
      have hleads : LeadsIn scope (depth + 1) s armed.1 := by
        rw [harmed]
        split_ifs
        · exact setupReconnectTimer_leads hreenter s id none
        · exact LeadsIn.refl s
      by_cases hgone : (!armed.2) = true
      · rw [if_pos hgone]
        exact hleads
      · rw [if_neg hgone]
        -- the next reconnect is later now, so that none is made
        have hwaits : armed.1.find id = some o ∧ (scope.mayConnect ∨ WaitsFor armed.1 id) := by
          rw [harmed] at hgone ⊢
          split_ifs at hgone ⊢ with hdue
          · rw [setupReconnectTimer_of_kept hfind (by simpa using hgone)]
            have hsame := scheduleReconnect_sameMap s o none
            refine ⟨by rw [hsame.find, hfind], hclock.imp_right fun h => ⟨o, ?_, ?_⟩⟩
            · rw [hsame.find, hfind]
            · rw [hsame.around, scheduleReconnect_objects]
              exact h _
          · exact ⟨hfind, .inr ⟨o, hfind, not_le.1 hdue⟩⟩
        have hreconnect := tryDirectReconnect_leads hreenter hwaits.1 hwaits.2
        split_ifs
        · exact hleads
        · exact hleads
        · exact (hleads.trans hreconnect).trans (removeConnectionHandle_leads hreenter _ id)
        · exact hleads.trans hreconnect

end Reentrant

/-- The end of an endpoint ends: every disconnect in it takes another endpoint away. -/
theorem onRemoveEndpointIn_leads (depth : Nat) (scope : Scope) (s : Connector) (id : Nat) :
    LeadsIn scope depth s (onRemoveEndpointIn depth s id) := by
  induction depth generalizing scope s id with
  | zero => exact fun hdepth => absurd hdepth (Nat.not_lt_zero _)
  | succ depth ih => exact onRemoveEndpointWith_leads ih s id

theorem reentry_leads (s : Connector) (scope : Scope) (t : Connector) (id : Nat) :
    LeadsIn scope s.endpoints.length t (s.reentry t id) :=
  onRemoveEndpointIn_leads _ scope t id

end Connector

end LibAtapp.Atbus
