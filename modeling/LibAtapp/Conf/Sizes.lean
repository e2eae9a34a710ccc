import LibAtapp.Conf.Durations
import LibAtapp.Conf.ScalarFormats

set_option autoImplicit false

/-! # Sizes

A text of an integer field with `size_mode` is a number with a suffix, which shifts the number in
the arithmetic of its type before the bounds of the field are applied. A shifted number that has
left the type comes back as some other number, which the bounds may let pass. -/

namespace LibAtapp.Conf

/-! ## Numbers of a type -/

/-- A number in the arithmetic of an integer type of the given size -/
def wrapInt (bytes : ℕ) (signed : Bool) (n : Int) : Int := shifted bytes signed n 1

/-- `str2int` in an integer type: it reads the digits at the front of a text in the arithmetic of
    the type, and leaves the rest. -/
structure ReadsDigits (reader : NumberReader) (bytes : ℕ) (signed : Bool) : Prop where
  value : ∀ negative ds rest, Digits ds → EndsDigits rest →
    reader.str2int (signText negative ++ (ds ++ rest)) =
      (wrapInt bytes signed (signedValue negative ds), rest)
  range : ∀ text, ∃ n, (reader.str2int text).1 = wrapInt bytes signed n
  spaces : SpacesOnly reader.isSpace

/-- A number lies in an integer type of the given size. -/
def InRange (bytes : ℕ) (signed : Bool) (n : Int) : Prop :=
  if signed then -2 ^ (8 * bytes - 1) ≤ n ∧ n ≤ 2 ^ (8 * bytes - 1) - 1
  else 0 ≤ n ∧ n ≤ 2 ^ (8 * bytes) - 1

section Wrap

variable {bytes : ℕ} (hbytes : 1 ≤ bytes) (signed : Bool)

theorem two_pow_pred (hbytes : 1 ≤ bytes) :
    (2 : Int) ^ (8 * bytes) = 2 * 2 ^ (8 * bytes - 1) := by
  rw [← Int.pow_succ']
  congr 1
  omega

include hbytes

theorem inRange_shifted (n : Int) (factor : ℕ) :
    InRange bytes signed (shifted bytes signed n factor) := by
  have hpos : 0 < 2 ^ (8 * bytes) := Nat.two_pow_pos _
  have hpow := two_pow_pred hbytes
  cases signed with
  | true =>
      have hlow := Int.le_bmod (x := n * factor) hpos
      have hhigh := Int.bmod_lt (x := n * factor) hpos
      simp only [InRange, shifted, if_true]
      push_cast at hlow hhigh
      constructor <;> omega
  | false =>
      have hlow := Int.emod_nonneg (n * factor) (b := 2 ^ (8 * bytes)) (by positivity)
      have hhigh := Int.emod_lt_of_pos (n * factor) (b := 2 ^ (8 * bytes)) (by positivity)
      simp only [InRange, shifted, Bool.false_eq_true, if_false]
      constructor <;> omega

/-- A number of the type is itself. -/
theorem wrapInt_of_inRange {n : Int} (h : InRange bytes signed n) : wrapInt bytes signed n = n := by
  have hpow := two_pow_pred hbytes
  cases signed with
  | true =>
      simp only [InRange, if_true] at h
      simp only [wrapInt, shifted, if_true, Nat.cast_one, Int.mul_one]
      exact Int.bmod_eq_of_le (by push_cast; omega) (by push_cast; omega)
  | false =>
      simp only [InRange, Bool.false_eq_true, if_false] at h
      simp only [wrapInt, shifted, Bool.false_eq_true, if_false, Nat.cast_one, Int.mul_one]
      exact Int.emod_eq_of_lt h.1 (by omega)

end Wrap

/-- Shifting a number of the type is shifting the number. -/
theorem shifted_wrapInt (bytes : ℕ) (signed : Bool) (n : Int) (factor : ℕ) :
    shifted bytes signed (wrapInt bytes signed n) factor = wrapInt bytes signed (n * factor) := by
  cases signed with
  | true => simp [wrapInt, shifted, Int.bmod_mul_bmod]
  | false => simp [wrapInt, shifted, Int.mul_emod]

/-! ## The bounds of a field -/

section Fields

variable (reader : NumberReader) (bytes : ℕ) (signed : Bool) (options : FieldOptions)

/-- The lower bound of a field: that of its options, or else that of its type. -/
def minBound : Int :=
  match options with
  | some opt =>
    if opt.minValue ≠ [] then (integerType reader bytes signed).fromStr opt.minValue opt.sizeMode
    else (integerType reader bytes signed).min
  | none => (integerType reader bytes signed).min

/-- The upper bound of a field -/
def maxBound : Int :=
  match options with
  | some opt =>
    if opt.maxValue ≠ [] then (integerType reader bytes signed).fromStr opt.maxValue opt.sizeMode
    else (integerType reader bytes signed).max
  | none => (integerType reader bytes signed).max

/-- A number within bounds, or the bound next to it -/
def nearestBound (low high n : Int) : Int := min high (max low n)

theorem clamp_integerType (n : Int) :
    clamp (integerType reader bytes signed) options n =
      nearestBound (minBound reader bytes signed options) (maxBound reader bytes signed options)
        n := by
  have hlow : (if n < minBound reader bytes signed options then
      minBound reader bytes signed options else n) = max (minBound reader bytes signed options) n := by
    split <;> omega
  have hhigh : ∀ m : Int, (if maxBound reader bytes signed options < m then
      maxBound reader bytes signed options else m) = min (maxBound reader bytes signed options) m := by
    intro m
    split <;> omega
  have hless : ∀ l r, (integerType reader bytes signed).less l r = decide (l < r) :=
    fun _ _ => rfl
  rw [nearestBound, ← hhigh, ← hlow]
  simp only [clamp, hless, minBound, maxBound, decide_eq_true_eq]
  cases options <;> rfl

variable {reader bytes signed}

/-- What `dump_pick_field_from_str` reads lies in the type. -/
theorem inRange_fromStr (h : ReadsDigits reader bytes signed) (hbytes : 1 ≤ bytes) (text : Bytes)
    (sizeMode : Bool) :
    InRange bytes signed ((integerType reader bytes signed).fromStr text sizeMode) := by
  have hread : InRange bytes signed (reader.str2int text).1 := by
    obtain ⟨n, hn⟩ := h.range text
    rw [hn]
    exact inRange_shifted hbytes signed n 1
  have hzero : InRange bytes signed 0 := by
    have hpos : (0 : Int) < 2 ^ (8 * bytes - 1) := by positivity
    have hpow := two_pow_pred hbytes
    cases signed with
    | true =>
        simp only [InRange, if_true]
        constructor <;> omega
    | false =>
        simp only [InRange, Bool.false_eq_true, if_false]
        constructor <;> omega
  simp only [integerType]
  split_ifs
  · exact hzero
  · split
    · exact inRange_shifted hbytes signed _ _
    · exact hread
  · exact hread

/-- The bounds of a type, and those of a field in it -/
theorem typeMin_le_minBound (h : ReadsDigits reader bytes signed) (hbytes : 1 ≤ bytes) :
    (integerType reader bytes signed).min ≤ minBound reader bytes signed options := by
  have hrange : ∀ n, InRange bytes signed n → (integerType reader bytes signed).min ≤ n := by
    intro n hn
    cases signed with
    | true => exact hn.1
    | false => exact hn.1
  unfold minBound
  split
  · split_ifs
    · exact hrange _ (inRange_fromStr h hbytes _ _)
    · exact le_rfl
  · exact le_rfl

theorem maxBound_le_typeMax (h : ReadsDigits reader bytes signed) (hbytes : 1 ≤ bytes) :
    maxBound reader bytes signed options ≤ (integerType reader bytes signed).max := by
  have hrange : ∀ n, InRange bytes signed n → n ≤ (integerType reader bytes signed).max := by
    intro n hn
    cases signed with
    | true => exact hn.2
    | false => exact hn.2
  unfold maxBound
  split
  · split_ifs
    · exact hrange _ (inRange_fromStr h hbytes _ _)
    · exact le_rfl
  · exact le_rfl

/-! ## Size texts -/

/-- A suffix that the type supports: none, or a letter that scales. -/
def Supported (bytes : ℕ) : Option Byte → Prop
  | none => True
  | some c => scaleSizeMode bytes (toLower c) ≠ 1

/-- The factor of a suffix -/
def factorOf (bytes : ℕ) : Option Byte → ℕ
  | none => 1
  | some c => scaleSizeMode bytes (toLower c)

theorem suffix_letter {bytes : ℕ} {c : Byte} (h : scaleSizeMode bytes (toLower c) ≠ 1) :
    0x20 < c ∧ ¬ IsDigit c ∧ toLower c ≠ 0x78 := by
  have hletters : ∀ c : Byte, toLower c ∈ ascii "kmgtp" →
      0x20 < c ∧ ¬ IsDigit c ∧ toLower c ≠ 0x78 := by decide +kernel
  have hmem : ∀ d : Byte, scaleSizeMode bytes d ≠ 1 → d ∈ ascii "kmgtp" := by
    intro d hd
    have hascii : ascii "kmgtp" = [0x6B, 0x6D, 0x67, 0x74, 0x70] := by decide
    rw [hascii]
    simp only [scaleSizeMode] at hd
    split_ifs at hd with h1 h2 h3 h4 h5
    · simp [h1.2]
    · simp [h2.2]
    · simp [h3.2]
    · simp [h4.2]
    · simp [h5.2]
    · exact absurd rfl hd
  exact hletters c (hmem _ h)

/-- A size text is read as its number, scaled, in the arithmetic of the type. -/
theorem fromStr_sizeText (h : ReadsDigits reader bytes signed) (negative : Bool)
    {ds between : Bytes} (hds : Digits ds) (hbetween : ∀ c ∈ between, reader.isSpace c = true)
    {suffix : Option Byte} (hsuffix : Supported bytes suffix) :
    (integerType reader bytes signed).fromStr
        (signText negative ++ (ds ++ (between ++ suffix.toList))) true =
      wrapInt bytes signed (signedValue negative ds * factorOf bytes suffix) := by
  have hends : EndsDigits suffix.toList := by
    cases suffix with
    | none => simp [EndsDigits]
    | some c =>
        rintro d tail heq
        simp only [Option.toList_some, List.cons.injEq] at heq
        exact heq.1 ▸ (suffix_letter hsuffix).2
  have hread := h.value negative ds _ hds (endsDigits_spaces h.spaces hbetween hends)
  have hne : signText negative ++ (ds ++ (between ++ suffix.toList)) ≠ [] := by
    simp [hds.ne_nil]
  have hrest : (between ++ suffix.toList).dropWhile reader.isSpace = suffix.toList := by
    rw [List.dropWhile_append_of_pos hbetween]
    cases suffix with
    | none => rfl
    | some c => simp [h.spaces.not_isSpace (suffix_letter hsuffix).1]
  simp only [integerType, if_neg hne, hread, hrest, if_true]
  cases suffix with
  | none => simp [factorOf]
  | some c =>
      simp only [Option.toList_some, List.head?_cons, factorOf]
      exact shifted_wrapInt bytes signed _ _

/-- Clamping a wrapped number gives the same as clamping the number exactly when the number did not
    wrap, or came back beyond the bound it had passed, or the bounds leave no choice. -/
theorem nearestBound_wrapInt_iff (hbytes : 1 ≤ bytes) {low high n : Int}
    (hlow : (integerType reader bytes signed).min ≤ low)
    (hhigh : high ≤ (integerType reader bytes signed).max) :
    nearestBound low high (wrapInt bytes signed n) = nearestBound low high n ↔
      InRange bytes signed n ∨
      (integerType reader bytes signed).max < n ∧ high ≤ wrapInt bytes signed n ∨
      n < (integerType reader bytes signed).min ∧ wrapInt bytes signed n ≤ low ∨
      high ≤ low := by
  have hrange : InRange bytes signed n ↔ (integerType reader bytes signed).min ≤ n ∧
      n ≤ (integerType reader bytes signed).max := by
    cases signed with
    | true => rfl
    | false => rfl
  by_cases h : InRange bytes signed n
  · rw [wrapInt_of_inRange hbytes signed h]
    exact iff_of_true rfl (Or.inl h)
  · have hout := mt hrange.2 h
    simp only [h, false_or, nearestBound]
    omega

end Fields

/-! ## The two together -/

/-- Every duration text is read exactly, or as the nearest duration there is, exactly when neither
    its number nor its seconds leave `int64_t`; and every size text of an integer field is read as
    its scaled number, or as the bound next to it, exactly when the scaled number lies in the type,
    or comes back from its wrapping beyond the bound it had passed, or the bounds leave no
    choice. -/
theorem durations_and_sizes_iff {isSpace : Byte → Bool} (hspaces : SpacesOnly isSpace)
    {reader : NumberReader} {bytes : ℕ} {signed : Bool} (hbytes : 1 ≤ bytes)
    (hreader : ReadsDigits reader bytes signed) :
    (∀ before between text ds : Bytes, (∀ c ∈ before, isSpace c = true) →
      (∀ c ∈ between, isSpace c = true) → Digits ds →
      ∀ unit, findUnit (text.map toLower) = some unit → ∀ negative,
        (parseDuration isSpace (before ++ (signText negative ++ (ds ++ (between ++ text)))) =
            nearestDuration (signedValue negative ds * unit.nanos) ↔
          FitsInt64 (signedValue negative ds) ∧
            FitsInt64 (signedValue negative ds * unit.fullSeconds))) ∧
    ∀ (environment : Environment) (options : FieldOptions), options.sizeMode = true →
      ∀ (valStr between ds : Bytes) (suffix : Option Byte) (negative : Bool),
        (∀ c ∈ between, reader.isSpace c = true) → Digits ds → Supported bytes suffix →
        expandedText environment options valStr =
          signText negative ++ (ds ++ (between ++ suffix.toList)) →
        let n := signedValue negative ds * factorOf bytes suffix
        let low := minBound reader bytes signed options
        let high := maxBound reader bytes signed options
        ((dumpPickFieldWithExtensions (integerType reader bytes signed) environment options
              valStr).1 = nearestBound low high n ↔
          InRange bytes signed n ∨
          (integerType reader bytes signed).max < n ∧ high ≤ wrapInt bytes signed n ∨
          n < (integerType reader bytes signed).min ∧ wrapInt bytes signed n ≤ low ∨
          high ≤ low) := by
  constructor
  · intro before between text ds hbefore hbetween hds unit hunit negative
    rw [parseDuration_text hspaces hbefore negative hds hbetween hunit]
    exact scaleDuration_iff _ unit
  · intro environment options hmode valStr between ds suffix negative hbetween hds hsuffix htext
      n low high
    have hne : expandedText environment options valStr ≠ [] := by
      rw [htext]
      simp [hds.ne_nil]
    rw [dumpPickFieldWithExtensions_of_ne _ _ _ hne, htext, hmode,
      fromStr_sizeText hreader negative hds hbetween hsuffix, clamp_integerType]
    exact nearestBound_wrapInt_iff hbytes (typeMin_le_minBound options hreader hbytes)
      (maxBound_le_typeMax options hreader hbytes)

/-- A reader of `int64_t`, as `pick_number` reads -/
def int64Reader : NumberReader := ⟨pickNumber 64, blank⟩

theorem readsDigits_int64Reader : ReadsDigits int64Reader 8 true where
  value negative ds rest hds hrest := by
    have h := pickNumber_signed 64 negative hds hrest
    simpa [int64Reader, wrapInt, shifted] using h
  range text := by
    obtain ⟨m, hm⟩ := pickNumber_eq_bmod 64 text
    exact ⟨m, by simpa [int64Reader, wrapInt, shifted] using hm⟩
  spaces := spacesOnly_blank

/-- A size field without bounds of its own -/
def sizeOptions : FieldOptions := some { sizeMode := true }

/-- `90m` and `64k` -/
theorem durations_and_sizes_small :
    parseDuration blank (ascii "90m") = nearestDuration (90 * (60 * 10 ^ 9)) ∧
      (dumpPickFieldWithExtensions (int64Type int64Reader) (fun _ => []) sizeOptions
        (ascii "64k")).1 = nearestBound (-2 ^ 63) (2 ^ 63 - 1) (64 * 1024) := by
  have h := durations_and_sizes_iff spacesOnly_blank (show 1 ≤ 8 by decide)
    readsDigits_int64Reader
  have hninety : Digits (ascii "90") := ⟨by decide +kernel, by decide +kernel⟩
  have hsixty : Digits (ascii "64") := ⟨by decide +kernel, by decide +kernel⟩
  constructor
  · exact (h.1 [] [] (ascii "m") (ascii "90") (by simp) (by simp) hninety .minutes
      (by decide +kernel) false).2 (by decide +kernel)
  · exact (h.2 (fun _ => []) sizeOptions rfl (ascii "64k") [] (ascii "64") (some 0x6B) false
      (by simp) hsixty (show scaleSizeMode 8 0x6B ≠ 1 by decide) (by decide +kernel)).2
      (Or.inl (by simp only [InRange, if_true]; decide +kernel))

/-- 2^64 + 1 seconds are read as one second, and 2 * 10^16 k as a number in the middle of the
    type. -/
theorem not_durations_and_sizes_wrapped :
    parseDuration blank (ascii "18446744073709551617s") ≠
        nearestDuration (18446744073709551617 * 10 ^ 9) ∧
      (dumpPickFieldWithExtensions (int64Type int64Reader) (fun _ => []) sizeOptions
        (ascii "20000000000000000k")).1 ≠
        nearestBound (-2 ^ 63) (2 ^ 63 - 1) (20000000000000000 * 1024) := by
  decide +kernel

end LibAtapp.Conf
