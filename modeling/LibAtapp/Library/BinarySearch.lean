import LibAtapp.Library.SortedRing

set_option autoImplicit false

/-! # Bounds by binary search

A binary search for the end of the initial part of a list that satisfies a predicate. It finds it
if there is one: if the predicate holds on an initial part only. On lists sorted by a key whose
first part the predicate does not look at, this is a property of pairs of elements. -/

namespace LibAtapp.BinarySearch

open SortedRing

variable {α : Type} (p : α → Bool) (l : List α)

/-- The search in `len` elements from `first` on: halve, and go on behind the middle if it
    satisfies the predicate. -/
def partitionFrom (first len : Nat) : Nat :=
  if len = 0 then first
  else
    let half := len / 2
    if (l[first + half]?).any p then partitionFrom (first + half + 1) (len - half - 1)
    else partitionFrom first half
termination_by len
decreasing_by all_goals omega

/-- The position behind the last element that satisfies the predicate. -/
def partitionPoint : Nat := partitionFrom p l 0 l.length

/-- The predicate holds before a position and nowhere from it on. -/
structure IsBoundary (k : Nat) : Prop where
  le : k ≤ l.length
  iff : ∀ i (hi : i < l.length), p l[i] = true ↔ i < k

variable {p l}

/-- A list with a boundary satisfies the predicate on an initial part. -/
theorem IsBoundary.initial {k : Nat} (h : IsBoundary p l k) : Initial p l := by
  rw [Initial, List.pairwise_iff_getElem]
  intro i j hi hj hij hpj
  rw [h.iff i hi]
  have hjk := (h.iff j hj).1 hpj
  omega

/-- Between elements that satisfy the predicate and elements that do not, the search ends at a
    boundary. -/
theorem isBoundary_partitionFrom (h : Initial p l) (len : Nat) :
    ∀ first, first + len ≤ l.length → (∀ i (hi : i < l.length), i < first → p l[i] = true) →
    (∀ i (hi : i < l.length), first + len ≤ i → p l[i] = false) →
    IsBoundary p l (partitionFrom p l first len) := by
  rw [Initial, List.pairwise_iff_getElem] at h
  induction len using Nat.strong_induction_on with
  | _ len ih =>
    intro first hle hbelow habove
    rw [partitionFrom]
    by_cases hlen : len = 0
    · rw [if_pos hlen]
      refine ⟨by omega, fun i hi => ⟨fun hp => ?_, hbelow i hi⟩⟩
      by_contra hnot
      rw [habove i hi (by omega)] at hp
      exact absurd hp (by simp)
    · rw [if_neg hlen]
      have hmid : first + len / 2 < l.length := by omega
      dsimp only
      rw [List.getElem?_eq_getElem hmid, Option.any_some]
      by_cases hpmid : p l[first + len / 2] = true
      · -- everything up to the middle satisfies the predicate
        rw [if_pos hpmid]
        refine ih _ (by omega) _ (by omega) (fun i hi hilt => ?_) (fun i hi hile => ?_)
        · rcases Nat.lt_or_eq_of_le (show i ≤ first + len / 2 by omega) with hlt | heq
          · exact h i _ hi hmid hlt hpmid
          · simpa [heq] using hpmid
        · exact habove i hi (by omega)
      · -- nothing from the middle on satisfies it
        rw [if_neg hpmid]
        refine ih _ (by omega) _ (by omega) hbelow (fun i hi hile => ?_)
        rcases Nat.lt_or_eq_of_le hile with hlt | heq
        · by_contra hp
          exact hpmid (h _ i hmid hi hlt (by simpa using hp))
        · simpa [← heq] using hpmid

/-- **The search is exact** if and only if the predicate holds on an initial part of the list. -/
theorem isBoundary_partitionPoint_iff : IsBoundary p l (partitionPoint p l) ↔ Initial p l := by
  refine ⟨IsBoundary.initial, fun h => ?_⟩
  refine isBoundary_partitionFrom h l.length 0 (by omega) (fun i hi hlt => ?_) (fun i hi hle => ?_)
  · exact absurd hlt (by omega)
  · exact absurd hi (by omega)

/-! ## Lists sorted by a key with a first part -/

/-- On a list sorted by a key, a predicate that follows the order among elements with the same
    first part of the key holds on an initial part of the list exactly if it follows the order of
    the first parts as well. -/
theorem initial_iff_of_sorted {κ γ : Type} [LinearOrder κ] [LinearOrder γ] {key : α → κ}
    {first : α → γ} (hsorted : l.Pairwise (fun a b => key a ≤ key b))
    (hfirst : ∀ a b, key a ≤ key b → first a ≤ first b)
    (hsame : ∀ a b, first a = first b → key a ≤ key b → p b = true → p a = true) :
    Initial p l ↔ ∀ a ∈ l, ∀ b ∈ l, first a < first b → p b = true → p a = true := by
  constructor
  · intro h a ha b hb hlt
    obtain ⟨i, hi, rfl⟩ := List.getElem_of_mem ha
    obtain ⟨j, hj, rfl⟩ := List.getElem_of_mem hb
    rw [Initial, List.pairwise_iff_getElem] at h
    rw [List.pairwise_iff_getElem] at hsorted
    refine h i j hi hj ?_
    -- otherwise the list would have the greater first part in front
    by_contra hge
    rcases Nat.lt_or_eq_of_le (Nat.le_of_not_lt hge) with hji | heq
    · exact absurd hlt (not_lt.2 (hfirst _ _ (hsorted j i hj hi hji)))
    · simp [heq] at hlt
  · intro h
    refine (List.Pairwise.and_mem.1 hsorted).imp fun {a b} hab hpb => ?_
    obtain ⟨ha, hb, hle⟩ := hab
    rcases lt_or_eq_of_le (hfirst a b hle) with hlt | heq
    · exact h a ha b hb hlt hpb
    · exact hsame a b heq hle hpb

end LibAtapp.BinarySearch
