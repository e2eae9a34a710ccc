import Mathlib.Data.List.Sort
import Mathlib.Order.Basic

set_option autoImplicit false

/-! # Sorting by a key, and rings

Lists sorted by a key that tells their elements apart do not depend on the order of the input and
commute with filters. On a ring, a sorted list read cyclically from a position on, removing
elements leaves the cyclic order of the others. -/

namespace LibAtapp.SortedRing

variable {α κ : Type} [LinearOrder κ] (key : α → κ)

/-! ## Sorting by a key -/

/-- Sort by a key, ascending. -/
def sortBy (l : List α) : List α := l.insertionSort (fun a b => key a ≤ key b)

/-- Sorting by a relation that compares keys. -/
theorem insertionSort_eq_sortBy (r : α → α → Prop) [DecidableRel r]
    (h : ∀ a b, r a b ↔ key a ≤ key b) (l : List α) : l.insertionSort r = sortBy key l := by
  obtain rfl : r = fun a b => key a ≤ key b := by
    funext a b
    exact propext (h a b)
  unfold sortBy
  congr

theorem sortBy_perm (l : List α) : (sortBy key l).Perm l := List.perm_insertionSort _ l

@[simp] theorem mem_sortBy {l : List α} {a : α} : a ∈ sortBy key l ↔ a ∈ l :=
  List.mem_insertionSort _

@[simp] theorem length_sortBy (l : List α) : (sortBy key l).length = l.length :=
  List.length_insertionSort _ l

theorem sortBy_pairwise (l : List α) : (sortBy key l).Pairwise (fun a b => key a ≤ key b) := by
  have : Std.Total (fun a b => key a ≤ key b) := ⟨fun a b => le_total (key a) (key b)⟩
  have : IsTrans α (fun a b => key a ≤ key b) := ⟨fun _ _ _ => le_trans⟩
  exact List.pairwise_insertionSort _ l

/-- Sorted lists with the same elements are equal when the key tells the elements apart. -/
theorem eq_of_perm {l l' : List α} (hinj : ∀ a ∈ l, ∀ b ∈ l, key a = key b → a = b)
    (hl : l.Pairwise (fun a b => key a ≤ key b)) (hl' : l'.Pairwise (fun a b => key a ≤ key b))
    (hp : l.Perm l') : l = l' :=
  hp.eq_of_pairwise
    (fun a b ha hb hab hba => hinj a ha b (hp.symm.subset hb) (le_antisymm hab hba)) hl hl'

/-- The sorted list does not depend on the order of the input. -/
theorem sortBy_congr {l l' : List α} (hinj : ∀ a ∈ l, ∀ b ∈ l, key a = key b → a = b)
    (hp : l.Perm l') : sortBy key l = sortBy key l' := by
  refine eq_of_perm key ?_ (sortBy_pairwise key l) (sortBy_pairwise key l')
    ((sortBy_perm key l).trans (hp.trans (sortBy_perm key l').symm))
  exact fun a ha b hb => hinj a ((mem_sortBy key).1 ha) b ((mem_sortBy key).1 hb)

/-- Keys that agree on a list sort it the same way. -/
theorem sortBy_congr_key {key' : α → κ} {l : List α} (h : ∀ a ∈ l, key a = key' a) :
    sortBy key l = sortBy key' l := by
  have hmap := List.map_insertionSort (r := fun a b => key a ≤ key b)
    (s := fun a b => key' a ≤ key' b) id l (fun a ha b hb => by rw [id, id, h a ha, h b hb])
  rwa [List.map_id, List.map_id] at hmap

/-- Filtering commutes with sorting. -/
theorem filter_sortBy {l : List α} (hinj : ∀ a ∈ l, ∀ b ∈ l, key a = key b → a = b)
    (q : α → Bool) : (sortBy key l).filter q = sortBy key (l.filter q) := by
  refine eq_of_perm key ?_ ((sortBy_pairwise key l).filter q) (sortBy_pairwise key _)
    (((sortBy_perm key l).filter q).trans (sortBy_perm key _).symm)
  intro a ha b hb
  exact hinj a ((mem_sortBy key).1 (List.mem_of_mem_filter ha)) b
    ((mem_sortBy key).1 (List.mem_of_mem_filter hb))

/-! ## Reading a sorted list cyclically -/

/-- The list from the first element on that does not satisfy `below`, once around. -/
def ringFrom (below : α → Bool) (l : List α) : List α := l.dropWhile below ++ l.takeWhile below

/-- `below` is satisfied by an initial part of the list only. -/
def Initial (below : α → Bool) (l : List α) : Prop :=
  l.Pairwise (fun a b => below b = true → below a = true)

theorem ringFrom_perm (below : α → Bool) (l : List α) : (ringFrom below l).Perm l := by
  have h : (l.dropWhile below ++ l.takeWhile below).Perm (l.takeWhile below ++ l.dropWhile below) :=
    List.perm_append_comm
  rwa [List.takeWhile_append_dropWhile] at h

theorem takeWhile_eq_filter {below : α → Bool} {l : List α} (h : Initial below l) :
    l.takeWhile below = l.filter below := by
  induction l with
  | nil => rfl
  | cons a l ih =>
      obtain ⟨ha, hl⟩ := List.pairwise_cons.1 h
      cases hb : below a with
      | true => rw [List.takeWhile_cons_of_pos hb, List.filter_cons_of_pos hb, ih hl]
      | false =>
          have hnone : ∀ b ∈ a :: l, ¬ below b = true := by
            intro b hbm
            rcases List.mem_cons.1 hbm with rfl | hbm
            · simp [hb]
            · exact fun hbt => by simp [hb] at ha; exact absurd hbt (by simp [ha b hbm])
          rw [List.takeWhile_cons_of_neg (by simp [hb]), List.filter_eq_nil_iff.2 hnone]

theorem dropWhile_eq_filter {below : α → Bool} {l : List α} (h : Initial below l) :
    l.dropWhile below = l.filter (fun a => !below a) := by
  induction l with
  | nil => rfl
  | cons a l ih =>
      obtain ⟨ha, hl⟩ := List.pairwise_cons.1 h
      cases hb : below a with
      | true => rw [List.dropWhile_cons_of_pos hb, List.filter_cons_of_neg (by simp [hb]), ih hl]
      | false =>
          have hall : ∀ b ∈ a :: l, (!below b) = true := by
            intro b hbm
            rcases List.mem_cons.1 hbm with rfl | hbm
            · simp [hb]
            · simp only [hb, imp_false, Bool.not_eq_true, Bool.false_eq_true] at ha
              simp [ha b hbm]
          rw [List.dropWhile_cons_of_neg (by simp [hb]), List.filter_eq_self.2 hall]

/-- Removing elements leaves the cyclic order of the others. -/
theorem ringFrom_filter {below : α → Bool} {l : List α} (h : Initial below l) (q : α → Bool) :
    ringFrom below (l.filter q) = (ringFrom below l).filter q := by
  have hq : Initial below (l.filter q) := List.Pairwise.filter q h
  simp only [ringFrom, takeWhile_eq_filter h, dropWhile_eq_filter h, takeWhile_eq_filter hq,
    dropWhile_eq_filter hq, List.filter_append, List.filter_filter, Bool.and_comm]

/-- **Minimal disruption.** The first element from a position on stays the first one when elements
    other than it are removed. -/
theorem head_ringFrom_filter {below : α → Bool} {l : List α} (h : Initial below l) {q : α → Bool}
    {a : α} (ha : (ringFrom below l).head? = some a) (hqa : q a = true) :
    (ringFrom below (l.filter q)).head? = some a := by
  rw [ringFrom_filter h]
  cases hr : ringFrom below l with
  | nil => simp [hr] at ha
  | cons b rest =>
      have hb : b = a := by simpa [hr] using ha
      subst hb
      simp [hqa]

end LibAtapp.SortedRing
