import LibAtapp.Conf.Scalars

set_option autoImplicit false

/-! # Numbers in configuration texts

`skip_space` and `pick_number` of `atapp_conf.cpp`, which read a text from its front and return what
is left of it. `pick_number` accumulates digits in the arithmetic of its type, without a check. -/

namespace LibAtapp.Conf

/-! ## The functions -/

/-- `skip_space`; `isSpace` is `atfw::util::string::is_space`. -/
def skipSpace (isSpace : Byte → Bool) : Bytes → Bytes
  | [] => []
  | c :: rest => if c ≠ 0 ∧ isSpace c then skipSpace isSpace rest else c :: rest

/-- The value of a decimal digit -/
def decDigit (c : Byte) : Option ℕ :=
  if 0x30 ≤ c ∧ c ≤ 0x39 then some (c.val - 0x30) else none

/-- The value of an octal digit -/
def octDigit (c : Byte) : Option ℕ :=
  if 0x30 ≤ c ∧ c ≤ 0x37 then some (c.val - 0x30) else none

/-- The value of a hexadecimal digit -/
def hexDigit (c : Byte) : Option ℕ :=
  let c := toLower c
  if 0x30 ≤ c ∧ c ≤ 0x39 then some (c.val - 0x30)
  else if 0x61 ≤ c ∧ c ≤ 0x66 then some (c.val - 0x61 + 10)
  else none

/-- A digit loop of `pick_number` in a signed type of the given number of bits: the number, and the
    text from the first byte that is no digit. -/
def accumulate (bits base : ℕ) (digit : Byte → Option ℕ) : Int → Bytes → Int × Bytes
  | out, [] => (out, [])
  | out, c :: rest =>
    match digit c with
    | some d => accumulate bits base digit (((out * base).bmod (2 ^ bits) + d).bmod (2 ^ bits)) rest
    | none => (out, c :: rest)

/-- The loop over the signs at the front -/
def stripSigns : Bool → Bytes → Bool × Bytes
  | isNegative, [] => (isNegative, [])
  | isNegative, c :: rest =>
    if c = 0x2d then stripSigns (!isNegative) rest else (isNegative, c :: rest)

/-- The number after the signs: hexadecimal after `0x`, octal after a backslash, else decimal. -/
def pickDigits (bits : ℕ) : Bytes → Int × Bytes
  | [] => (0, [])
  | c :: rest =>
    if c = 0x30 ∧ rest.head?.map toLower = some 0x78 then
      accumulate bits 16 hexDigit 0 rest.tail
    else if c = 0x5c then accumulate bits 8 octDigit 0 rest
    else accumulate bits 10 decDigit 0 (c :: rest)

/-- `pick_number` -/
def pickNumber (bits : ℕ) (text : Bytes) : Int × Bytes :=
  if text = [] ∨ text.head? = some 0 then (0, text)
  else
    let (isNegative, rest) := stripSigns false text
    if rest = [] ∨ rest.head? = some 0 then (0, rest)
    else
      let (out, rest) := pickDigits bits rest
      (if isNegative then (-out).bmod (2 ^ bits) else out, rest)

/-! ## Digits and spaces -/

/-- A decimal digit -/
def IsDigit (c : Byte) : Prop := 0x30 ≤ c ∧ c ≤ 0x39

instance (c : Byte) : Decidable (IsDigit c) := inferInstanceAs (Decidable (_ ∧ _))

/-- The number that digits denote -/
def digitsValue (ds : Bytes) : ℕ := ds.foldl (fun n c => n * 10 + (c.val - 0x30)) 0

/-- A text of one or more decimal digits -/
structure Digits (ds : Bytes) : Prop where
  ne_nil : ds ≠ []
  isDigit : ∀ c ∈ ds, IsDigit c

/-- What may follow the digits of a number: no digit, and no `x`, which would make a hexadecimal
    number of a single `0`. -/
def EndsDigits (rest : Bytes) : Prop := ∀ c tail, rest = c :: tail → ¬ IsDigit c ∧ toLower c ≠ 0x78

/-- `is_space` finds blanks and line and page breaks. -/
def SpacesOnly (isSpace : Byte → Bool) : Prop :=
  ∀ c, isSpace c = true → c = 0x20 ∨ 0x09 ≤ c ∧ c ≤ 0x0d

/-- The blank as the one space -/
def blank (c : Byte) : Bool := c = 0x20

theorem spacesOnly_blank : SpacesOnly blank := fun c hc => Or.inl (by simpa [blank] using hc)

theorem decDigit_of_isDigit {c : Byte} (h : IsDigit c) : decDigit c = some (c.val - 0x30) := if_pos h

theorem decDigit_of_not {c : Byte} (h : ¬ IsDigit c) : decDigit c = none := if_neg h

section Spaces

variable {isSpace : Byte → Bool}

/-- Skipping ends at a byte that is no space. -/
theorem skipSpace_cons {c : Byte} (h : isSpace c = false) (rest : Bytes) :
    skipSpace isSpace (c :: rest) = c :: rest := by
  simp [skipSpace, h]

theorem skipSpace_append (hspaces : SpacesOnly isSpace) {spaces : Bytes}
    (h : ∀ c ∈ spaces, isSpace c = true) (rest : Bytes) :
    skipSpace isSpace (spaces ++ rest) = skipSpace isSpace rest := by
  induction spaces with
  | nil => rfl
  | cons c spaces ih =>
      have hc : isSpace c = true := h c List.mem_cons_self
      have hne : c ≠ 0 := by
        rintro rfl
        exact absurd (hspaces 0 hc) (by decide)
      rw [List.cons_append, skipSpace, if_pos ⟨hne, hc⟩]
      exact ih fun d hd => h d (List.mem_cons_of_mem c hd)

/-- A byte that is printed is no space. -/
theorem SpacesOnly.not_isSpace (hspaces : SpacesOnly isSpace) {c : Byte} (h : 0x20 < c) :
    isSpace c = false := by
  by_contra hc
  rw [Bool.not_eq_false] at hc
  obtain rfl | ⟨-, hle⟩ := hspaces c hc
  · exact absurd h (by decide)
  · exact absurd (h.trans_le hle) (by decide)

/-- What starts with a space or is printed ends a number, unless it is a digit or an `x`. -/
theorem endsDigits_spaces (hspaces : SpacesOnly isSpace) {spaces : Bytes}
    (h : ∀ c ∈ spaces, isSpace c = true) {rest : Bytes} (hrest : EndsDigits rest) :
    EndsDigits (spaces ++ rest) := by
  cases spaces with
  | nil => exact hrest
  | cons c spaces =>
      rintro d tail heq
      obtain ⟨rfl, -⟩ := List.cons_eq_cons.1 heq
      have hfree : ∀ c : Byte, (c = 0x20 ∨ 0x09 ≤ c ∧ c ≤ 0x0d) →
          ¬ IsDigit c ∧ toLower c ≠ 0x78 := by decide +kernel
      exact hfree c (hspaces c (h c List.mem_cons_self))

end Spaces

/-! ## Reading digits -/

theorem accumulate_append (bits : ℕ) {ds rest : Bytes} (h : ∀ c ∈ ds, IsDigit c)
    (hrest : EndsDigits rest) (n : ℕ) :
    accumulate bits 10 decDigit ((n : Int).bmod (2 ^ bits)) (ds ++ rest) =
      (((ds.foldl (fun n c => n * 10 + (c.val - 0x30)) n : ℕ) : Int).bmod (2 ^ bits), rest) := by
  induction ds generalizing n with
  | nil =>
      cases rest with
      | nil => rfl
      | cons c tail => simp [accumulate, decDigit_of_not (hrest c tail rfl).1]
  | cons c ds ih =>
      have hc := decDigit_of_isDigit (h c List.mem_cons_self)
      have hstep : (((n : Int).bmod (2 ^ bits) * (10 : ℕ)).bmod (2 ^ bits) +
          ((c.val - 0x30 : ℕ) : Int)).bmod (2 ^ bits) =
          ((n * 10 + (c.val - 0x30) : ℕ) : Int).bmod (2 ^ bits) := by
        simp
      rw [List.cons_append, accumulate, hc, List.foldl_cons]
      simp only [hstep]
      exact ih (fun d hd => h d (List.mem_cons_of_mem c hd)) _

/-- A number is read modulo the size of its type, and the rest of the text is left. -/
theorem pickDigits_append (bits : ℕ) {ds rest : Bytes} (h : Digits ds) (hrest : EndsDigits rest) :
    pickDigits bits (ds ++ rest) = ((digitsValue ds : Int).bmod (2 ^ bits), rest) := by
  obtain ⟨c, tail, rfl⟩ := List.exists_cons_of_ne_nil h.ne_nil
  have hc := h.isDigit c List.mem_cons_self
  have hhex : ¬ (c = 0x30 ∧ (tail ++ rest).head?.map toLower = some 0x78) := by
    rintro ⟨-, hx⟩
    cases tail with
    | nil =>
        cases rest with
        | nil => simp at hx
        | cons d rest => exact (hrest d rest rfl).2 (by simpa using hx)
    | cons d tail =>
        have hd := h.isDigit d (by simp)
        have hlower : ∀ d : Byte, IsDigit d → toLower d ≠ 0x78 := by decide +kernel
        exact hlower d hd (by simpa using hx)
  have hoct : c ≠ 0x5c := by
    rintro rfl
    exact absurd hc (by decide)
  have haccumulate := accumulate_append bits h.isDigit hrest 0
  rw [Int.natCast_zero, Int.zero_bmod] at haccumulate
  rw [List.cons_append, pickDigits, if_neg hhex, if_neg hoct]
  exact haccumulate

/-- Whatever is accumulated is a number of the type. -/
theorem accumulate_eq_bmod (bits base : ℕ) (digit : Byte → Option ℕ) (n : Int) (text : Bytes) :
    ∃ m : Int, (accumulate bits base digit (n.bmod (2 ^ bits)) text).1 = m.bmod (2 ^ bits) := by
  induction text generalizing n with
  | nil => exact ⟨n, rfl⟩
  | cons c rest ih =>
      cases hc : digit c with
      | none => exact ⟨n, by simp [accumulate, hc]⟩
      | some d =>
          obtain ⟨m, hm⟩ := ih ((n.bmod (2 ^ bits) * base).bmod (2 ^ bits) + d)
          exact ⟨m, by simpa only [accumulate, hc] using hm⟩

theorem pickNumber_eq_bmod (bits : ℕ) (text : Bytes) :
    ∃ m : Int, (pickNumber bits text).1 = m.bmod (2 ^ bits) := by
  have hzero : ∀ base digit text, ∃ m : Int,
      (accumulate bits base digit 0 text).1 = m.bmod (2 ^ bits) := by
    intro base digit text
    have h := accumulate_eq_bmod bits base digit 0 text
    rwa [Int.zero_bmod] at h
  have hdigits : ∀ text, ∃ m : Int, (pickDigits bits text).1 = m.bmod (2 ^ bits) := by
    intro text
    cases text with
    | nil => exact ⟨0, by simp [pickDigits]⟩
    | cons c rest =>
        simp only [pickDigits]
        split_ifs <;> exact hzero _ _ _
  simp only [pickNumber]
  split_ifs
  · exact ⟨0, by simp⟩
  · exact ⟨0, by simp⟩
  · exact ⟨_, rfl⟩
  · exact hdigits _

theorem Digits.head {ds : Bytes} (h : Digits ds) (rest : Bytes) :
    ∃ c tail, ds ++ rest = c :: tail ∧ c ≠ 0x2d ∧ c ≠ 0 := by
  obtain ⟨c, tail, rfl⟩ := List.exists_cons_of_ne_nil h.ne_nil
  have hc := h.isDigit c List.mem_cons_self
  refine ⟨c, tail ++ rest, rfl, ?_, ?_⟩
  · rintro rfl
    exact absurd hc (by decide)
  · rintro rfl
    exact absurd hc (by decide)

theorem pickNumber_append (bits : ℕ) {ds rest : Bytes} (h : Digits ds) (hrest : EndsDigits rest) :
    pickNumber bits (ds ++ rest) = ((digitsValue ds : Int).bmod (2 ^ bits), rest) := by
  have hdigits := pickDigits_append bits h hrest
  obtain ⟨c, tail, heq, hsign, hzero⟩ := h.head rest
  rw [heq] at hdigits ⊢
  simp [pickNumber, stripSigns, hsign, hzero, hdigits]

/-- A minus before the digits negates the number, modulo the size of its type. -/
theorem pickNumber_minus (bits : ℕ) {ds rest : Bytes} (h : Digits ds) (hrest : EndsDigits rest) :
    pickNumber bits (0x2d :: (ds ++ rest)) = ((-(digitsValue ds : Int)).bmod (2 ^ bits), rest) := by
  have hdigits := pickDigits_append bits h hrest
  obtain ⟨c, tail, heq, hsign, hzero⟩ := h.head rest
  rw [heq] at hdigits ⊢
  simp [pickNumber, stripSigns, hsign, hzero, hdigits]

end LibAtapp.Conf
