import LibAtapp.Library.PrefixRange
import LibAtapp.Protocol

set_option autoImplicit false

/-! # Key ranges

`etcd_packer::pack_key_range` computes the end of a key range, where the end `+1` asks for every
key that begins with the given one. etcd reads a range in the lexicographic order of the bytes. -/

namespace LibAtapp

/-- The `key` and `range_end` members of a request, empty when they are left out. -/
structure KeyRange where
  key : Bytes
  rangeEnd : Bytes
  deriving DecidableEq, Repr

namespace KeyRange

/-- The keys a range stands for: a single key without an end, every key from `key` on with the end
    of one zero byte, else the keys from `key` up to the end. -/
def Contains (range : KeyRange) (x : Bytes) : Prop :=
  if range.rangeEnd = [] then x = range.key
  else if range.rangeEnd = [0] then range.key ≤ x
  else range.key ≤ x ∧ x < range.rangeEnd

instance (range : KeyRange) (x : Bytes) : Decidable (range.Contains x) := by
  unfold Contains
  infer_instance

end KeyRange

namespace EtcdPacker

/-- The loop of `pack_key_range`, on the bytes of `range_end` from its last to its first: bytes
    `0xff` are dropped, the byte before them is increased. It also returns `need_plus`. -/
def plusOne : Bytes → Bytes × Bool
  | [] => ([], true)
  | c :: front => if c = 0xff then plusOne front else ((c + 1) :: front, false)

/-- `pack_key_range`. The literal with an embedded NUL that stands for an open end is assigned as
    a C string, so it is empty. -/
def packKeyRange (key rangeEnd : Bytes) : KeyRange :=
  if rangeEnd = ascii "+1" then
    let (reversed, needPlus) := plusOne key.reverse
    if reversed.isEmpty && needPlus && !key.isEmpty then { key, rangeEnd := cString [0] }
    else { key, rangeEnd := reversed.reverse }
  else { key, rangeEnd }

/-! ## The loop and the end of a prefix range -/

/-- The byte after a byte. -/
def nextByte (c : Byte) : Option Byte := if c = 0xff then none else some (c + 1)

theorem isNext_nextByte : PrefixRange.IsNext nextByte where
  lt_iff := by
    intro a b h c
    unfold nextByte at h
    split at h
    · cases h
    · simp only [Option.some.injEq] at h
      subst h
      simp only [Fin.lt_def, Fin.le_def, Fin.val_add]
      have ha : a.val ≠ 255 := fun hv => ‹¬ a = 0xff› (Fin.ext hv)
      have := a.isLt
      show c.val < (a.val + 1) % 256 ↔ c.val ≤ a.val
      rw [Nat.mod_eq_of_lt (by omega)]
      omega
  le_of_none := by
    intro a h c
    unfold nextByte at h
    split at h
    · next ha =>
      subst ha
      exact Fin.le_last c
    · cases h

/-- Further bytes in front do not change what the loop does, unless it reaches them. -/
theorem plusOne_append (back front : Bytes) :
    plusOne (back ++ front) =
      if (plusOne back).2 then plusOne front else ((plusOne back).1 ++ front, false) := by
  induction back with
  | nil => simp [plusOne]
  | cons c back ih =>
      rw [List.cons_append, plusOne, plusOne]
      split
      · exact ih
      · simp

/-- **The loop computes the end of the range of keys with a prefix.** -/
theorem prefixEnd_eq_plusOne (key : Bytes) :
    PrefixRange.prefixEnd nextByte key =
      if (plusOne key.reverse).2 then none else some (plusOne key.reverse).1.reverse := by
  induction key with
  | nil => rfl
  | cons c key ih =>
      rw [PrefixRange.prefixEnd, ih, List.reverse_cons, plusOne_append]
      by_cases hkey : (plusOne key.reverse).2 = true
      · simp only [hkey, if_true, nextByte, plusOne]
        by_cases hc : c = 0xff <;> simp [hc]
      · simp [hkey]

/-- Only the largest byte is increased to zero. -/
theorem eq_ff_of_add_one_eq_zero {c : Byte} (h : c + 1 = 0) : c = 0xff := by
  have hval : (c.val + 1) % 256 = 0 := congrArg Fin.val h
  have hlt := c.isLt
  apply Fin.ext
  show c.val = 255
  omega

/-- An increased byte is not zero. -/
theorem head_plusOne_ne_zero (back : Bytes) : ∀ c ∈ (plusOne back).1.head?, c ≠ 0 := by
  induction back with
  | nil => simp [plusOne]
  | cons b back ih =>
      rw [plusOne]
      split
      · exact ih
      · next hb =>
        intro c hc
        simp only [List.head?_cons, Option.mem_def, Option.some.injEq] at hc
        subst hc
        intro h0
        exact hb (eq_ff_of_add_one_eq_zero h0)

theorem plusOne_fst_ne_nil {back : Bytes} (h : (plusOne back).2 = false) :
    (plusOne back).1 ≠ [] := by
  induction back with
  | nil => cases h
  | cons b back ih =>
      rw [plusOne] at h ⊢
      split
      · next hb =>
        rw [if_pos hb] at h
        exact ih h
      · simp

theorem plusOne_snd_eq_false {back : Bytes} (h : ∃ c ∈ back, c ≠ 0xff) :
    (plusOne back).2 = false := by
  induction back with
  | nil => simp at h
  | cons b back ih =>
      rw [plusOne]
      split
      · next hb =>
        obtain ⟨c, hc, hne⟩ := h
        rcases List.mem_cons.1 hc with rfl | hc
        · exact absurd hb hne
        · exact ih ⟨c, hc, hne⟩
      · rfl

/-- **The range `+1` of a key holds exactly the keys that begin with it**, for a key with a byte
    other than `0xff`. -/
theorem contains_packKeyRange_plusOne {key : Bytes} (h : ∃ c ∈ key, c ≠ 0xff) (x : Bytes) :
    (packKeyRange key (ascii "+1")).Contains x ↔ key <+: x := by
  have hplus : (plusOne key.reverse).2 = false :=
    plusOne_snd_eq_false (by simpa only [List.mem_reverse] using h)
  have hne : (plusOne key.reverse).1 ≠ [] := plusOne_fst_ne_nil hplus
  have hend : PrefixRange.prefixEnd nextByte key = some (plusOne key.reverse).1.reverse := by
    rw [prefixEnd_eq_plusOne, hplus]
    rfl
  have hrange : packKeyRange key (ascii "+1") = ⟨key, (plusOne key.reverse).1.reverse⟩ := by
    simp [packKeyRange, hplus]
  have hzero : (plusOne key.reverse).1.reverse ≠ [0] := by
    intro h0
    have hback : (plusOne key.reverse).1 = [0] := by simpa using congrArg List.reverse h0
    exact head_plusOne_ne_zero key.reverse 0 (by simp [hback]) rfl
  rw [hrange, KeyRange.Contains, if_neg (by simpa using hne), if_neg hzero]
  exact PrefixRange.mem_range_iff_prefix isNext_nextByte hend x

/-- The key of bytes `0xff` alone gets no end, so its range is the key itself. -/
theorem contains_packKeyRange_all_ff {key : Bytes} (h : ¬ ∃ c ∈ key, c ≠ 0xff) (x : Bytes) :
    (packKeyRange key (ascii "+1")).Contains x ↔ x = key := by
  have hall : ∀ c ∈ key.reverse, c = (0xff : Byte) := by
    intro c hc
    by_contra hne
    exact h ⟨c, List.mem_reverse.1 hc, hne⟩
  have hplus : plusOne key.reverse = ([], true) := by
    generalize key.reverse = back at hall
    induction back with
    | nil => rfl
    | cons c back ih =>
        rw [plusOne, if_pos (hall c List.mem_cons_self)]
        exact ih fun d hd => hall d (List.mem_cons_of_mem c hd)
  have hrange : packKeyRange key (ascii "+1") = ⟨key, []⟩ := by
    simp [packKeyRange, hplus, cString]
  rw [hrange, KeyRange.Contains, if_pos rfl]

/-- **The range `+1` is the range of a prefix** for exactly the keys that have a byte other than
    `0xff`. -/
theorem packKeyRange_plusOne_iff (key : Bytes) :
    (∀ x, (packKeyRange key (ascii "+1")).Contains x ↔ key <+: x) ↔ ∃ c ∈ key, c ≠ 0xff := by
  constructor
  · intro h
    by_contra hff
    -- the first extension of the key is missed
    have hx := (h (key ++ [0])).2 (List.prefix_append key [0])
    rw [contains_packKeyRange_all_ff hff] at hx
    simp at hx
  · exact fun h x => contains_packKeyRange_plusOne h x

/-- The range of the key `0xff` misses the key `0xff 0x00`. -/
theorem not_packKeyRange_plusOne_ff :
    ¬ ∀ key : Bytes, key ≠ [] →
      ∀ x, (packKeyRange key (ascii "+1")).Contains x ↔ key <+: x := by
  intro h
  exact absurd ((h [0xff] (by decide) [0xff, 0]).2 (by decide)) (by decide)

end EtcdPacker

end LibAtapp
