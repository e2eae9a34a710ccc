import Mathlib.Data.Int.CardIntervalMod

set_option autoImplicit false

/-! # Reading a list cyclically

`rotation l c k` reads a list `k` times cyclically from a position on. A part of a rotation is a
rotation, and in a rotation every element of a list without repetition comes as often as every
other, up to one. -/

namespace LibAtapp.Rotation

variable {α : Type} (l : List α)

/-- `k` elements of the list from position `c` on, cyclically; nothing if the list is empty. -/
def rotation (c k : Nat) : List (Option α) :=
  (List.range k).map (fun i => l[(c + i) % l.length]?)

@[simp] theorem length_rotation (c k : Nat) : (rotation l c k).length = k := by simp [rotation]

@[simp] theorem rotation_zero (c : Nat) : rotation l c 0 = [] := rfl

/-- A rotation goes on where its first part ends. -/
theorem rotation_append (c j k : Nat) :
    rotation l c (j + k) = rotation l c j ++ rotation l (c + j) k := by
  rw [rotation, List.range_add, List.map_append, List.map_map]
  refine congrArg _ (List.map_congr_left fun i _ => ?_)
  rw [Function.comp_apply, Nat.add_assoc]

/-- Only the position modulo the length matters. -/
theorem rotation_congr {c c' : Nat} (h : l ≠ [] → c % l.length = c' % l.length) (k : Nat) :
    rotation l c k = rotation l c' k := by
  unfold rotation
  by_cases hl : l = []
  · simp [hl]
  · refine List.map_congr_left fun i _ => ?_
    rw [Nat.add_mod, h hl, ← Nat.add_mod]

theorem rotation_drop (c k j : Nat) : (rotation l c k).drop j = rotation l (c + j) (k - j) := by
  refine List.ext_getElem? fun i => ?_
  simp only [rotation, List.getElem?_drop, List.getElem?_map]
  by_cases hi : j + i < k
  · rw [List.getElem?_range hi, List.getElem?_range (by omega), Option.map_some, Option.map_some,
      Nat.add_assoc]
  · rw [List.getElem?_eq_none (by simp; omega), List.getElem?_eq_none (by simp; omega)]
    rfl

theorem rotation_take (c k j : Nat) : (rotation l c k).take j = rotation l c (min j k) := by
  rw [rotation, ← List.map_take, List.take_range, rotation]

/-- Consecutive elements of a rotation are a rotation. -/
theorem rotation_of_infix {c k : Nat} {window : List (Option α)} (h : window <:+: rotation l c k) :
    ∃ c', window = rotation l c' window.length := by
  obtain ⟨before, after, heq⟩ := h
  refine ⟨c + before.length, ?_⟩
  have hdrop : (rotation l c k).drop before.length = window ++ after := by
    rw [← heq, List.append_assoc, List.drop_left]
  have hwindow : window = ((rotation l c k).drop before.length).take window.length := by
    rw [hdrop, List.take_left]
  have hlength : before.length + window.length + after.length = k := by
    simpa [Nat.add_assoc] using congrArg List.length heq
  rw [rotation_drop, rotation_take, Nat.min_eq_left (by omega)] at hwindow
  exact hwindow

/-! ## Counting -/

theorem count_rotation_eq [DecidableEq α] (c k : Nat) (a : α) :
    (rotation l c k).count (some a) = k.count (fun i => l[(c + i) % l.length]? = some a) := by
  induction k with
  | zero => rfl
  | succ k ih =>
    rw [Nat.count_succ, ← ih, rotation, List.range_succ, List.map_append, List.count_append]
    by_cases hk : l[(c + k) % l.length]? = some a <;> simp [rotation, hk]

variable {l}

/-- The positions that read the element at position `j` are those of one residue. -/
theorem getElem?_eq_iff_modEq (hl : l.Nodup) {j : Nat} (hj : j < l.length) (c i : Nat) :
    l[(c + i) % l.length]? = some l[j] ↔ i ≡ j + (l.length - c % l.length) [MOD l.length] := by
  have hpos : 0 < l.length := by omega
  have hlt : (c + i) % l.length < l.length := Nat.mod_lt _ hpos
  have hc : c % l.length < l.length := Nat.mod_lt _ hpos
  -- `c` and the residue add up to `j`
  have hsum : c + (j + (l.length - c % l.length)) ≡ j [MOD l.length] := by
    have hdiv := Nat.div_add_mod c l.length
    have heq : c + (j + (l.length - c % l.length)) = j + l.length * (c / l.length + 1) := by
      rw [Nat.mul_add, Nat.mul_one]
      omega
    rw [heq, Nat.ModEq, Nat.add_mul_mod_self_left]
  rw [List.getElem?_eq_getElem hlt, Option.some.injEq, hl.getElem_inj_iff]
  constructor
  · intro h
    refine Nat.ModEq.add_left_cancel' c (Nat.ModEq.trans ?_ hsum.symm)
    rw [Nat.ModEq, h, Nat.mod_eq_of_lt hj]
  · intro h
    have hci : c + i ≡ j [MOD l.length] := (h.add_left c).trans hsum
    rw [Nat.ModEq, Nat.mod_eq_of_lt hj] at hci
    exact hci

/-- **Rotations are fair.** `k` elements of a rotation hold each element of the list `k / n` times,
    rounded down or up, where `n` is the length of the list. -/
theorem count_rotation [DecidableEq α] (hl : l.Nodup) {a : α} (ha : a ∈ l) (c k : Nat) :
    (rotation l c k).count (some a) = k / l.length ∨
      (rotation l c k).count (some a) = (k + l.length - 1) / l.length := by
  obtain ⟨j, hj, rfl⟩ := List.getElem_of_mem ha
  have hpos : 0 < l.length := by omega
  have hcount : (rotation l c k).count (some l[j]) =
      k.count (fun i => i ≡ j + (l.length - c % l.length) [MOD l.length]) := by
    rw [count_rotation_eq]
    simp only [getElem?_eq_iff_modEq hl hj]
  rw [hcount, Nat.count_modEq_card k hpos]
  split
  · next hlt =>
    -- a started round: `k` is no multiple of the length
    right
    have hmod : 0 < k % l.length := by omega
    have hceil : k + l.length - 1 = k % l.length - 1 + l.length * (k / l.length + 1) := by
      have hdiv := Nat.div_add_mod k l.length
      rw [Nat.mul_add, Nat.mul_one]
      omega
    have hless : k % l.length - 1 < l.length := by
      have := Nat.mod_lt k hpos
      omega
    rw [hceil, Nat.add_mul_div_left _ _ hpos, Nat.div_eq_of_lt hless, Nat.zero_add]
  · exact Or.inl (Nat.add_zero _)

end LibAtapp.Rotation
