import Mathlib.Data.List.Perm.Basic
import Mathlib.Data.List.DropRight

set_option autoImplicit false

/-! # Removing by swapping with the last element

A loop over a list that removes a value: an occurrence is overwritten by the last element, which is
dropped, and the loop goes on at the next position, so it does not look at the element that was
moved. It never removes another value, and it leaves no occurrence exactly if the elements that it
moves are none. -/

namespace LibAtapp.SwapRemove

variable {α : Type} [DecidableEq α] (p : α)

/-- The body of the loop at position `i`: swap an occurrence with the last element and pop it. -/
def removeAt (l : List α) (i : Nat) : List α :=
  if l[i]? = some p then (l.set i (l.getLast?.getD p)).dropLast else l

/-- The loop that stops at the first occurrence. -/
def removeFirst (l : List α) : List α := removeAt p l (l.idxOf p)

/-- The loop over all positions; positions behind the end of the shrunken list do nothing. -/
def removeAll (l : List α) : List α := (List.range l.length).foldl (removeAt p) l

/-! ## The loop as a recursion -/

/-- What the loop makes of the elements from a position on. -/
def skim : List α → List α
  | [] => []
  | a :: rest =>
    if a = p then
      match rest.getLast? with
      | none => []
      | some x => x :: skim rest.dropLast
    else a :: skim rest
termination_by l => l.length
decreasing_by all_goals simp; try omega

@[simp] theorem skim_nil : skim p [] = [] := by rw [skim]

theorem skim_single : skim p [p] = [] := by
  rw [skim, if_pos rfl]
  rfl

theorem skim_append (rest : List α) (x : α) : skim p (p :: (rest ++ [x])) = x :: skim p rest := by
  rw [skim, if_pos rfl, List.getLast?_concat, List.dropLast_concat]

theorem skim_of_ne {a : α} (h : a ≠ p) (rest : List α) : skim p (a :: rest) = a :: skim p rest := by
  rw [skim, if_neg h]

/-- A list is empty, begins with another value, is the value alone, or begins with the value and
    ends with an element that takes its place. -/
theorem skim_induction {motive : List α → Prop} (nil : motive [])
    (other : ∀ a rest, a ≠ p → motive rest → motive (a :: rest)) (single : motive [p])
    (swap : ∀ rest x, motive rest → motive (p :: (rest ++ [x]))) (l : List α) : motive l := by
  induction hn : l.length using Nat.strong_induction_on generalizing l with
  | _ n ih =>
    cases l with
    | nil => exact nil
    | cons a rest =>
      have hlt : rest.length < n := by simp at hn; omega
      by_cases ha : a = p
      · subst ha
        rcases List.eq_nil_or_concat rest with rfl | ⟨init, x, rfl⟩
        · exact single
        · have hinit : init.length < n := by simp at hlt; omega
          exact List.concat_eq_append ▸ swap init x (ih _ hinit init rfl)
      · exact other a rest ha (ih _ hlt rest rfl)

theorem removeAt_of_le {l : List α} {i : Nat} (h : l.length ≤ i) : removeAt p l i = l := by
  rw [removeAt, List.getElem?_eq_none h, if_neg (by simp)]

theorem foldl_removeAt_of_le {l : List α} (steps : Nat) {i : Nat} (h : l.length ≤ i) :
    (List.range' i steps).foldl (removeAt p) l = l := by
  induction steps generalizing i with
  | zero => rfl
  | succ steps ih =>
    rw [List.range'_succ, List.foldl_cons, removeAt_of_le p h]
    exact ih (by omega)

/-- Behind the elements in front, the loop is the recursion. -/
theorem foldl_removeAt (steps : Nat) (front l : List α) (h : l.length ≤ steps) :
    (List.range' front.length steps).foldl (removeAt p) (front ++ l) = front ++ skim p l := by
  induction l using skim_induction p generalizing front steps with
  | nil =>
    rw [skim_nil, foldl_removeAt_of_le p steps (by simp)]
  | other a rest ha ih =>
    obtain ⟨steps, rfl⟩ : ∃ k, steps = k + 1 := ⟨steps - 1, by simp at h; omega⟩
    have hkeep : removeAt p (front ++ a :: rest) front.length = (front ++ [a]) ++ rest := by
      simp [removeAt, ha]
    have hrest := ih steps (front ++ [a]) (by simpa using h)
    rw [List.length_append, List.length_singleton] at hrest
    rw [List.range'_succ, List.foldl_cons, hkeep, hrest, skim_of_ne p ha, List.append_assoc]
    rfl
  | single =>
    obtain ⟨steps, rfl⟩ : ∃ k, steps = k + 1 := ⟨steps - 1, by simp at h; omega⟩
    have hpop : removeAt p (front ++ [p]) front.length = front := by simp [removeAt]
    rw [List.range'_succ, List.foldl_cons, hpop, foldl_removeAt_of_le p steps (by omega),
      skim_single, List.append_nil]
  | swap rest x ih =>
    obtain ⟨steps, rfl⟩ : ∃ k, steps = k + 1 := ⟨steps - 1, by simp at h; omega⟩
    have hswap : removeAt p (front ++ p :: (rest ++ [x])) front.length = (front ++ [x]) ++ rest := by
      have hlast : (front ++ p :: (rest ++ [x])).getLast? = some x := by
        rw [← List.cons_append, ← List.append_assoc, List.getLast?_concat]
      have hset : (front ++ p :: (rest ++ [x])).set front.length x =
          (front ++ [x] ++ rest) ++ [x] := by simp
      rw [removeAt, if_pos (by simp), hlast, Option.getD_some, hset, List.dropLast_concat]
    have hrest := ih steps (front ++ [x]) (by simp at h; omega)
    rw [List.length_append, List.length_singleton] at hrest
    rw [List.range'_succ, List.foldl_cons, hswap, hrest, skim_append, List.append_assoc]
    rfl

theorem removeAll_eq (l : List α) : removeAll p l = skim p l := by
  rw [removeAll, List.range_eq_range']
  exact foldl_removeAt p l.length [] l (Nat.le_refl _)

/-! ## What the loop leaves -/

/-- No other value is removed. -/
theorem filter_removeAll_perm (l : List α) :
    ((removeAll p l).filter (· ≠ p)).Perm (l.filter (· ≠ p)) := by
  rw [removeAll_eq]
  induction l using skim_induction p with
  | nil => rw [skim_nil]
  | other a rest ha ih =>
    rw [skim_of_ne p ha, List.filter_cons_of_pos (by simpa using ha),
      List.filter_cons_of_pos (by simpa using ha)]
    exact ih.cons a
  | single => simp [skim_single]
  | swap rest x ih =>
    rw [skim_append, List.filter_cons_of_neg (a := p) (by simp), List.filter_append]
    have hfront : (x :: skim p rest).filter (· ≠ p) =
        [x].filter (· ≠ p) ++ (skim p rest).filter (· ≠ p) := by
      rw [← List.filter_append, List.singleton_append]
    rw [hfront]
    exact List.perm_append_comm.trans (ih.append_right _)

/-- Nothing is added. -/
theorem removeAll_subset (l : List α) : removeAll p l ⊆ l := by
  rw [removeAll_eq]
  induction l using skim_induction p with
  | nil => simp
  | other a rest ha ih =>
    rw [skim_of_ne p ha]
    exact List.cons_subset_cons a ih
  | single => simp [skim_single]
  | swap rest x ih =>
    rw [skim_append]
    refine List.cons_subset.2 ⟨by simp, fun y hy => ?_⟩
    exact List.mem_cons_of_mem p (List.mem_append_left _ (ih hy))

/-- The last elements, as many as there are further occurrences: those are the elements that are
    moved. -/
def moved (l : List α) : List α := l.drop (l.length - (l.count p - 1))

/-- **The loop leaves no occurrence** exactly if it moves none. -/
theorem mem_removeAll_iff (l : List α) : p ∈ removeAll p l ↔ p ∈ moved p l := by
  rw [removeAll_eq]
  unfold moved
  induction l using skim_induction p with
  | nil => simp
  | other a rest ha ih =>
    have hcount : (a :: rest).count p = rest.count p := List.count_cons_of_ne ha
    have hle : rest.count p ≤ rest.length := List.count_le_length
    have hlength : (a :: rest).length - (rest.count p - 1) =
        (rest.length - (rest.count p - 1)) + 1 := by
      rw [List.length_cons]
      omega
    rw [skim_of_ne p ha, hcount, hlength, List.drop_succ_cons, List.mem_cons, ← ih]
    exact or_iff_right fun heq => ha heq.symm
  | single => simp [skim_single]
  | swap rest x ih =>
    have hle : rest.count p ≤ rest.length := List.count_le_length
    rw [skim_append, List.mem_cons, ih]
    by_cases hx : p = x
    · -- the last element is moved and not looked at
      subst hx
      have hcount : (p :: (rest ++ [p])).count p - 1 = rest.count p + 1 := by
        simp [List.count_append]
      have hlength : (p :: (rest ++ [p])).length - (rest.count p + 1) =
          (rest.length - rest.count p) + 1 := by simp; omega
      rw [hcount, hlength, List.drop_succ_cons, List.drop_append_of_le_length (by omega)]
      simp
    · have hcount : (p :: (rest ++ [x])).count p - 1 = rest.count p := by
        simp [List.count_append, Ne.symm hx]
      rw [hcount]
      by_cases hnone : rest.count p = 0
      · simp [hnone, hx]
      · have hlength : (p :: (rest ++ [x])).length - rest.count p =
            (rest.length - (rest.count p - 1)) + 1 := by simp; omega
        rw [hlength, List.drop_succ_cons, List.drop_append_of_le_length (by omega)]
        simp [hx]

/-- A loop that moves no occurrence removes exactly the occurrences. -/
theorem removeAll_perm {l : List α} (h : p ∉ moved p l) :
    (removeAll p l).Perm (l.filter (· ≠ p)) := by
  have hnone : (removeAll p l).filter (· ≠ p) = removeAll p l := by
    refine List.filter_eq_self.2 fun a ha => ?_
    rw [decide_eq_true_iff]
    rintro rfl
    exact h ((mem_removeAll_iff a l).1 ha)
  have hperm := filter_removeAll_perm p l
  rwa [hnone] at hperm

theorem removeFirst_of_not_mem {l : List α} (h : p ∉ l) : removeFirst p l = l := by
  rw [removeFirst, removeAt, List.idxOf_eq_length h, List.getElem?_eq_none (Nat.le_refl _),
    if_neg (by simp)]

/-- The loop that stops removes one occurrence, if there is one. -/
theorem removeFirst_perm (l : List α) : (removeFirst p l).Perm (l.erase p) := by
  by_cases hmem : p ∈ l
  · obtain ⟨front, back, hl, hfront⟩ := List.eq_append_cons_of_mem hmem
    have hindex : l.idxOf p = front.length := by
      rw [hl, List.idxOf_append_of_notMem hfront, List.idxOf_cons_self, Nat.add_zero]
    have herase : l.erase p = front ++ back := by
      rw [hl, List.erase_append_right _ hfront, List.erase_cons_head]
    rw [removeFirst, removeAt, hindex, herase, hl]
    rcases List.eq_nil_or_concat back with rfl | ⟨init, x, rfl⟩
    · simp
    · rw [List.concat_eq_append]
      have hlast : (front ++ p :: (init ++ [x])).getLast?.getD p = x := by
        rw [← List.cons_append, ← List.append_assoc, List.getLast?_concat, Option.getD_some]
      have hset : ((front ++ p :: (init ++ [x])).set front.length x).dropLast =
          front ++ x :: init := by
        rw [List.set_append_right _ _ (Nat.le_refl _), Nat.sub_self, List.set_cons_zero,
          ← List.cons_append, ← List.append_assoc, List.dropLast_concat]
      rw [if_pos (by simp), hlast, hset]
      exact (List.perm_append_singleton x init).symm.append_left front
  · rw [removeFirst_of_not_mem p hmem, List.erase_of_not_mem hmem]

/-- Of two occurrences at the end one is left. -/
example : removeAll 1 [2, 1, 1] = [2, 1] := by decide

end LibAtapp.SwapRemove
