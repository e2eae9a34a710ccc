import Mathlib.Data.Set.Basic
import Mathlib.Logic.Function.Basic

set_option autoImplicit false

/-! # Balancing greedily

Items are given to bins one after the other, each to a bin that has the least load at that moment.
A bin that is given something has at most one item more than any other bin in the end. -/

namespace LibAtapp.GreedyBalance

variable {ι : Type} [DecidableEq ι]

/-- The loads after a bin is given an item. -/
def give (load : ι → ℕ) (i : ι) : ι → ℕ := Function.update load i (load i + 1)

/-- The loads after the bins are given items in this order. -/
def giveAll (load : ι → ℕ) (targets : List ι) : ι → ℕ := targets.foldl give load

/-- Every target is a bin with the least load at its turn. -/
def Greedy (bins : Set ι) : (ι → ℕ) → List ι → Prop
  | _, [] => True
  | load, i :: targets =>
    i ∈ bins ∧ (∀ j ∈ bins, load i ≤ load j) ∧ Greedy bins (give load i) targets

variable {bins : Set ι} {load : ι → ℕ} {targets : List ι}

theorem Greedy.mem_bins (h : Greedy bins load targets) {i : ι} (hi : i ∈ targets) : i ∈ bins := by
  induction targets generalizing load with
  | nil => exact absurd hi List.not_mem_nil
  | cons j targets ih =>
      rcases List.mem_cons.1 hi with rfl | hi
      · exact h.1
      · exact ih h.2.2 hi

/-- The bins that were given something exceed no other bin by more than one item. -/
def Balanced (bins given : Set ι) (load : ι → ℕ) : Prop :=
  ∀ i ∈ given, ∀ j ∈ bins, load i ≤ load j + 1

/-- **One item** to a bin with the least load keeps the balance. -/
theorem Balanced.give {given : Set ι} {i : ι} (h : Balanced bins given load)
    (hleast : ∀ j ∈ bins, load i ≤ load j) :
    Balanced bins {j | j = i ∨ j ∈ given} (give load i) := by
  intro a ha b hb
  have hb' := hleast b hb
  by_cases hai : a = i
  · subst hai
    by_cases hba : b = a
    · subst hba
      exact Nat.le_succ _
    · simp only [GreedyBalance.give, Function.update_self, Function.update_of_ne hba]
      omega
  · have hab := h a (ha.resolve_left hai) b hb
    by_cases hbi : b = i
    · subst hbi
      simp only [GreedyBalance.give, Function.update_self, Function.update_of_ne hai]
      omega
    · simp only [GreedyBalance.give, Function.update_of_ne hai, Function.update_of_ne hbi]
      exact hab

theorem Balanced.giveAll {given : Set ι} (h : Balanced bins given load)
    (hgreedy : Greedy bins load targets) :
    Balanced bins {j | j ∈ targets ∨ j ∈ given} (giveAll load targets) := by
  induction targets generalizing load given with
  | nil => simpa [GreedyBalance.giveAll] using h
  | cons i targets ih =>
      intro a ha b hb
      refine ih (h.give hgreedy.2.1) hgreedy.2.2 a ?_ b hb
      rcases ha with ha | ha
      · rcases List.mem_cons.1 ha with rfl | ha
        · exact Or.inr (Or.inl rfl)
        · exact Or.inl ha
      · exact Or.inr (Or.inr ha)

/-- **Greedy targets are balanced**, whatever the loads were. -/
theorem Greedy.balanced (h : Greedy bins load targets) {a b : ι} (ha : a ∈ targets)
    (hb : b ∈ bins) : giveAll load targets a ≤ giveAll load targets b + 1 := by
  have hnone : Balanced bins {_j | False} load := fun i hi => hi.elim
  exact hnone.giveAll h a (Or.inl ha) b hb

end LibAtapp.GreedyBalance
