import LibAtapp.Conf.Numbers
import Mathlib.Tactic.Linarith

set_option autoImplicit false

/-! # Durations

`pick_const_data` reads a `Duration` as a number and a unit. Units below a second divide the
number, units above it multiply it, both in `int64_t` and without a check. -/

namespace LibAtapp.Conf

/-! ## The parser -/

/-- The units of a duration -/
inductive DurationUnit
  | seconds
  | milliseconds
  | microseconds
  | nanoseconds
  | minutes
  | hours
  | days
  | weeks
  deriving DecidableEq

/-- The names of the units, in the order of the comparisons -/
def unitNames : List (DurationUnit × List Bytes) :=
  [(.seconds, [[], ascii "s", ascii "sec", ascii "second", ascii "seconds"]),
    (.milliseconds, [ascii "ms", ascii "millisecond", ascii "milliseconds"]),
    (.microseconds, [ascii "us", ascii "microsecond", ascii "microseconds"]),
    (.nanoseconds, [ascii "ns", ascii "nanosecond", ascii "nanoseconds"]),
    (.minutes, [ascii "m", ascii "minute", ascii "minutes"]),
    (.hours, [ascii "h", ascii "hour", ascii "hours"]),
    (.days, [ascii "d", ascii "day", ascii "days"]),
    (.weeks, [ascii "w", ascii "week", ascii "weeks"])]

/-- The unit of a name in lower case -/
def findUnit (name : Bytes) : Option DurationUnit :=
  (unitNames.find? fun entry => name ∈ entry.2).map (·.1)

/-- `int64_t` multiplication -/
def mul64 (a b : Int) : Int := (a * b).bmod (2 ^ 64)

/-- The moment of a number with a unit; a name that is no unit counts as seconds. -/
def scaleDuration (tmVal : Int) : Option DurationUnit → Moment
  | some .milliseconds => ⟨tmVal.tdiv 1000, tmVal.tmod 1000 * 1000000⟩
  | some .microseconds => ⟨tmVal.tdiv 1000000, tmVal.tmod 1000000 * 1000⟩
  | some .nanoseconds => ⟨tmVal.tdiv 1000000000, tmVal.tmod 1000000000⟩
  | some .minutes => ⟨mul64 tmVal 60, 0⟩
  | some .hours => ⟨mul64 tmVal 3600, 0⟩
  | some .days => ⟨mul64 (mul64 tmVal 3600) 24, 0⟩
  | some .weeks => ⟨mul64 (mul64 (mul64 tmVal 3600) 24) 7, 0⟩
  | some .seconds | none => ⟨tmVal, 0⟩

/-- `parse_duration`, that is `pick_const_data` of a `Duration` -/
def parseDuration (isSpace : Byte → Bool) (value : Bytes) : Moment :=
  let (tmVal, rest) := pickNumber 64 (skipSpace isSpace value)
  let unit := (skipSpace isSpace rest).map toLower
  scaleDuration tmVal (findUnit unit)

/-! ## Exact durations -/

/-- The nanoseconds of a unit -/
def DurationUnit.nanos : DurationUnit → ℕ
  | .nanoseconds => 1
  | .microseconds => 10 ^ 3
  | .milliseconds => 10 ^ 6
  | .seconds => 10 ^ 9
  | .minutes => 60 * 10 ^ 9
  | .hours => 3600 * 10 ^ 9
  | .days => 86400 * 10 ^ 9
  | .weeks => 604800 * 10 ^ 9

/-- A number is an `int64_t`. -/
def FitsInt64 (n : Int) : Prop := -2 ^ 63 ≤ n ∧ n < 2 ^ 63

instance (n : Int) : Decidable (FitsInt64 n) := inferInstanceAs (Decidable (_ ∧ _))

/-- The duration of a number of nanoseconds, or the nearest one that a `Duration` can hold. -/
def nearestDuration (nanos : Int) : Moment :=
  if FitsInt64 (nanos.tdiv (10 ^ 9)) then ⟨nanos.tdiv (10 ^ 9), nanos.tmod (10 ^ 9)⟩
  else if 0 < nanos then ⟨2 ^ 63 - 1, 999999999⟩
  else ⟨-2 ^ 63, -999999999⟩

/-- A number of seconds is kept as it is, in range. -/
theorem nearestDuration_seconds {n : Int} (h : FitsInt64 n) :
    nearestDuration (n * 10 ^ 9) = ⟨n, 0⟩ := by
  have hdiv : (n * 10 ^ 9).tdiv (10 ^ 9) = n := Int.mul_tdiv_cancel n (by decide)
  have hmod : (n * 10 ^ 9).tmod (10 ^ 9) = 0 := Int.mul_tmod_left n (10 ^ 9)
  rw [nearestDuration, hdiv, hmod, if_pos h]

/-- A number of seconds out of range has the nanoseconds of an extreme. -/
theorem nanos_nearestDuration_seconds {n : Int} (h : ¬ FitsInt64 n) :
    (nearestDuration (n * 10 ^ 9)).nanos ≠ 0 := by
  have hdiv : (n * 10 ^ 9).tdiv (10 ^ 9) = n := Int.mul_tdiv_cancel n (by decide)
  rw [nearestDuration, hdiv, if_neg h]
  split <;> simp

theorem bmod_of_fits {n : Int} (h : FitsInt64 n) : n.bmod (2 ^ 64) = n := by
  obtain ⟨hlow, hhigh⟩ := h
  exact Int.bmod_eq_of_le (by omega) (by omega)

theorem fits_bmod (n : Int) : FitsInt64 (n.bmod (2 ^ 64)) := by
  have hlow := Int.le_bmod (x := n) (m := 2 ^ 64) (by decide)
  have hhigh := Int.bmod_lt (x := n) (m := 2 ^ 64) (by decide)
  constructor <;> omega

theorem mul64_bmod (n k : Int) : mul64 (n.bmod (2 ^ 64)) k = (n * k).bmod (2 ^ 64) := by
  rw [mul64, Int.bmod_mul_bmod]

theorem FitsInt64.of_mul {n f : Int} (hf : 1 ≤ f) (h : FitsInt64 (n * f)) : FitsInt64 n := by
  obtain ⟨hlow, hhigh⟩ := h
  constructor
  · by_contra hn
    nlinarith
  · by_contra hn
    nlinarith

/-- A unit of `f` seconds -/
theorem scale_seconds_iff {n f : Int} (hf : 1 ≤ f) :
    (⟨(n * f).bmod (2 ^ 64), 0⟩ : Moment) = nearestDuration (n * f * 10 ^ 9) ↔
      FitsInt64 n ∧ FitsInt64 (n * f) := by
  by_cases h : FitsInt64 (n * f)
  · rw [nearestDuration_seconds h, bmod_of_fits h]
    exact iff_of_true rfl ⟨h.of_mul hf, h⟩
  · refine iff_of_false (fun heq => ?_) fun hfits => h hfits.2
    exact nanos_nearestDuration_seconds h (congrArg Moment.nanos heq).symm

/-- Division makes an `int64_t` small. -/
theorem tdiv_small {n k : Int} (hk : 2 ≤ k) (h : FitsInt64 n) :
    -2 ^ 62 ≤ n.tdiv k ∧ n.tdiv k ≤ 2 ^ 62 := by
  obtain ⟨hlow, hhigh⟩ := h
  have habs : (n.tdiv k).natAbs = n.natAbs / k.natAbs := Int.natAbs_tdiv n k
  have hle : n.natAbs / k.natAbs ≤ n.natAbs / 2 := Nat.div_le_div_left (by omega) (by decide)
  omega

/-- A unit of which `k` make a second, for `k` above 1 -/
theorem scale_fraction_iff {n k u : Int} (hk : 2 ≤ k) (hu : 0 < u) (hku : k * u = 10 ^ 9) :
    (⟨(n.bmod (2 ^ 64)).tdiv k, (n.bmod (2 ^ 64)).tmod k * u⟩ : Moment) =
        nearestDuration (n * u) ↔ FitsInt64 n := by
  have hdiv : (n * u).tdiv (10 ^ 9) = n.tdiv k := by
    rw [← hku, Int.mul_tdiv_mul_of_pos_left _ _ hu]
  have hmod : (n * u).tmod (10 ^ 9) = n.tmod k * u := by
    rw [← hku, Int.mul_comm n u, Int.mul_comm k u, Int.mul_tmod_mul_of_pos _ _ hu, Int.mul_comm]
  rw [nearestDuration, hdiv, hmod]
  constructor
  · intro heq
    obtain ⟨hlow, hhigh⟩ := tdiv_small hk (fits_bmod n)
    split_ifs at heq with hfits hpos
    · -- quotient and remainder determine the number
      simp only [Moment.mk.injEq] at heq
      obtain ⟨hquot, hrem⟩ := heq
      have hrem' := Int.eq_of_mul_eq_mul_right hu.ne' hrem
      have hsame : n.bmod (2 ^ 64) = n := by
        rw [← Int.tdiv_mul_add_tmod (n.bmod (2 ^ 64)) k, hquot, hrem', Int.tdiv_mul_add_tmod]
      exact hsame ▸ fits_bmod n
    · have hseconds := congrArg Moment.seconds heq
      simp only at hseconds
      omega
    · have hseconds := congrArg Moment.seconds heq
      simp only at hseconds
      omega
  · intro h
    obtain ⟨hlow, hhigh⟩ := tdiv_small hk h
    have hfits : FitsInt64 (n.tdiv k) := ⟨by omega, by omega⟩
    rw [bmod_of_fits h, if_pos hfits]

/-- The seconds of a unit, in full seconds -/
def DurationUnit.fullSeconds (unit : DurationUnit) : ℕ := unit.nanos / 10 ^ 9

/-- A number with a unit is scaled to its duration, or to the nearest one there is, exactly when
    neither the number nor its seconds leave `int64_t`. -/
theorem scaleDuration_iff (n : Int) (unit : DurationUnit) :
    scaleDuration (n.bmod (2 ^ 64)) (some unit) = nearestDuration (n * unit.nanos) ↔
      FitsInt64 n ∧ FitsInt64 (n * unit.fullSeconds) := by
  have hzero : FitsInt64 (n * (0 : ℕ)) := by simp [FitsInt64]
  have hmul : ∀ a b : Int, mul64 (a.bmod (2 ^ 64)) b = (a * b).bmod (2 ^ 64) := mul64_bmod
  cases unit with
  | milliseconds =>
      have h := scale_fraction_iff (n := n) (k := 1000) (u := 1000000) (by decide) (by decide)
        (by decide)
      exact h.trans (and_iff_left hzero).symm
  | microseconds =>
      have h := scale_fraction_iff (n := n) (k := 1000000) (u := 1000) (by decide) (by decide)
        (by decide)
      exact h.trans (and_iff_left hzero).symm
  | nanoseconds =>
      have h := scale_fraction_iff (n := n) (k := 1000000000) (u := 1) (by decide) (by decide)
        (by decide)
      rw [Int.mul_one] at h
      exact h.trans (and_iff_left hzero).symm
  | seconds =>
      have h := scale_seconds_iff (n := n) (f := 1) (by decide)
      rw [Int.mul_one] at h
      simpa [scaleDuration, DurationUnit.nanos, DurationUnit.fullSeconds] using h
  | minutes =>
      have h := scale_seconds_iff (n := n) (f := 60) (by decide)
      rw [Int.mul_assoc] at h
      rw [scaleDuration, hmul]
      exact h
  | hours =>
      have h := scale_seconds_iff (n := n) (f := 3600) (by decide)
      rw [Int.mul_assoc] at h
      rw [scaleDuration, hmul]
      exact h
  | days =>
      have h := scale_seconds_iff (n := n) (f := 86400) (by decide)
      rw [Int.mul_assoc] at h
      rw [scaleDuration, hmul, hmul, Int.mul_assoc]
      exact h
  | weeks =>
      have h := scale_seconds_iff (n := n) (f := 604800) (by decide)
      rw [Int.mul_assoc] at h
      rw [scaleDuration, hmul, hmul, hmul, Int.mul_assoc, Int.mul_assoc]
      exact h

/-! ## Texts -/

/-- A minus, or nothing -/
def signText (negative : Bool) : Bytes := if negative then [0x2d] else []

/-- The number that digits after a sign denote -/
def signedValue (negative : Bool) (ds : Bytes) : Int :=
  if negative then -(digitsValue ds : Int) else digitsValue ds

theorem pickNumber_signed (bits : ℕ) (negative : Bool) {ds rest : Bytes} (h : Digits ds)
    (hrest : EndsDigits rest) :
    pickNumber bits (signText negative ++ (ds ++ rest)) =
      ((signedValue negative ds).bmod (2 ^ bits), rest) := by
  cases negative with
  | true => exact pickNumber_minus bits h hrest
  | false => exact pickNumber_append bits h hrest

/-- The first letters of units -/
def unitLetters : List Byte := ascii "smunhdw"

theorem head_mem_unitLetters {name : Bytes} {unit : DurationUnit}
    (h : findUnit name = some unit) {c : Byte} {tail : Bytes} (hname : name = c :: tail) :
    c ∈ unitLetters := by
  have hall : ∀ entry ∈ unitNames, ∀ name ∈ entry.2, ∀ c ∈ name.head?, c ∈ unitLetters := by
    decide +kernel
  obtain ⟨entry, hfind, -⟩ := Option.map_eq_some_iff.1 h
  have hmem : name ∈ entry.2 := by simpa using List.find?_some hfind
  exact hall entry (List.mem_of_find?_eq_some hfind) name hmem c (by simp [hname])

/-- A unit starts with a letter, which ends the number before it. -/
theorem unit_starts {text : Bytes} {unit : DurationUnit}
    (h : findUnit (text.map toLower) = some unit) {c : Byte} {tail : Bytes}
    (htext : text = c :: tail) : 0x20 < c ∧ ¬ IsDigit c ∧ toLower c ≠ 0x78 := by
  have hletters : ∀ c : Byte, toLower c ∈ unitLetters →
      0x20 < c ∧ ¬ IsDigit c ∧ toLower c ≠ 0x78 := by decide +kernel
  exact hletters c (head_mem_unitLetters h (by rw [htext, List.map_cons]))

section Texts

variable {isSpace : Byte → Bool} (hspaces : SpacesOnly isSpace)

include hspaces

theorem skipSpace_unit {spaces text : Bytes} (h : ∀ c ∈ spaces, isSpace c = true)
    {unit : DurationUnit} (hunit : findUnit (text.map toLower) = some unit) :
    skipSpace isSpace (spaces ++ text) = text := by
  rw [skipSpace_append hspaces h]
  cases text with
  | nil => rfl
  | cons c tail => exact skipSpace_cons (hspaces.not_isSpace (unit_starts hunit rfl).1) tail

theorem skipSpace_signed {spaces : Bytes} (h : ∀ c ∈ spaces, isSpace c = true) (negative : Bool)
    {ds : Bytes} (hds : Digits ds) (rest : Bytes) :
    skipSpace isSpace (spaces ++ (signText negative ++ (ds ++ rest))) =
      signText negative ++ (ds ++ rest) := by
  rw [skipSpace_append hspaces h]
  cases negative with
  | true => exact skipSpace_cons (hspaces.not_isSpace (by decide)) (ds ++ rest)
  | false =>
      obtain ⟨c, tail, rfl⟩ := List.exists_cons_of_ne_nil hds.ne_nil
      have hc : (0x20 : Byte) < c :=
        lt_of_lt_of_le (by decide) (hds.isDigit c List.mem_cons_self).1
      exact skipSpace_cons (hspaces.not_isSpace hc) (tail ++ rest)

/-- A duration text is read as its number, modulo 2^64, with its unit. -/
theorem parseDuration_text {before between text ds : Bytes} (hbefore : ∀ c ∈ before, isSpace c = true)
    (negative : Bool) (hds : Digits ds) (hbetween : ∀ c ∈ between, isSpace c = true)
    {unit : DurationUnit} (hunit : findUnit (text.map toLower) = some unit) :
    parseDuration isSpace (before ++ (signText negative ++ (ds ++ (between ++ text)))) =
      scaleDuration ((signedValue negative ds).bmod (2 ^ 64)) (some unit) := by
  have hends : EndsDigits text := fun c tail htext => (unit_starts hunit htext).2
  have hnumber := pickNumber_signed 64 negative hds (endsDigits_spaces hspaces hbetween hends)
  rw [parseDuration, skipSpace_signed hspaces hbefore negative hds, hnumber]
  simp only [skipSpace_unit hspaces hbetween hunit, hunit]

end Texts

end LibAtapp.Conf
