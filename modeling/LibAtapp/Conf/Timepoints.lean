import LibAtapp.Conf.Numbers

set_option autoImplicit false

/-! # Time points with a zone

`pick_const_data` reads a `Timestamp` as six numbers with separators, any of them with spaces
after it, and then the zone: `Z`, or a sign with hours and minutes. It takes the hours of a zone
for minutes and the minutes for seconds. -/

namespace LibAtapp.Conf

/-! ## The parser -/

/-- The fields of `struct tm` that the parser sets -/
structure Tm where
  tmYear : Int
  tmMon : Int
  tmMday : Int
  tmHour : Int
  tmMin : Int
  tmSec : Int

section Parser

-- `is_space`, `mktime`, and `get_sys_zone_offset` in seconds
variable (isSpace : Byte → Bool) (mktime : Tm → Int) (sysZoneOffset : Int)

/-- One of the six blocks: a number, and its separator where it is there. -/
def pickField (separator : Option Byte) (text : Bytes) : Int × Bytes :=
  let (n, rest) := pickNumber 32 text
  match skipSpace isSpace rest with
  | [] => (n, [])
  | c :: tail => if separator = some c then (n, skipSpace isSpace tail) else (n, c :: tail)

/-- The offset after a sign: what the parser adds up for hours and minutes. -/
def pickOffset (text : Bytes) : Int :=
  let (hours, rest) := pickNumber 64 text
  match rest with
  | c :: tail => if c = 0x3a then hours * 60 + (pickNumber 64 tail).1 else hours * 60
  | [] => hours * 60

/-- The seconds of a zone: `Z`, `+` and `-` mean that the text is not in local time. The branch of
    `+` also sets the seconds of the result, which the last statement sets again. -/
def pickZone (res : Int) (rest : Bytes) : Int :=
  match rest with
  | [] => res
  | c :: tail =>
    if c = 0x5a then res - sysZoneOffset
    else if c = 0x2b then res - sysZoneOffset - pickOffset tail
    else if c = 0x2d then res - sysZoneOffset + pickOffset tail
    else res

/-- `parse_timepoint`, that is `pick_const_data` of a `Timestamp` -/
def parseTimepoint (value : Bytes) : Moment :=
  let rest := skipSpace isSpace value
  let (year, rest) := pickField isSpace (some 0x2d) rest
  let (mon, rest) := pickField isSpace (some 0x2d) rest
  let (mday, rest) := pickField isSpace (some 0x54) rest
  let (hour, rest) := pickField isSpace (some 0x3a) rest
  let (min, rest) := pickField isSpace (some 0x3a) rest
  let (sec, rest) := pickField isSpace none rest
  let t : Tm := ⟨(year - 1900).bmod (2 ^ 32), (mon - 1).bmod (2 ^ 32), mday, hour, min, sec⟩
  ⟨pickZone sysZoneOffset (mktime t) rest, 0⟩

end Parser

/-! ## Date-time texts -/

/-- Digits, and spaces before and after what follows them. -/
structure Field (isSpace : Byte → Bool) where
  digits : Bytes
  spaces : Bytes
  after : Bytes
  isDigits : Digits digits
  isSpaces : ∀ c ∈ spaces, isSpace c = true
  isAfter : ∀ c ∈ after, isSpace c = true

/-- A date-time text `YYYY-MM-DDThh:mm:ss`, with spaces where the parser skips them. The seconds
    are followed by their spaces alone. -/
structure DateTime (isSpace : Byte → Bool) where
  before : Bytes
  isBefore : ∀ c ∈ before, isSpace c = true
  year : Field isSpace
  month : Field isSpace
  day : Field isSpace
  hour : Field isSpace
  minute : Field isSpace
  second : Field isSpace

section Texts

variable {isSpace : Byte → Bool}

/-- A field with its separator, before the rest of the text -/
def Field.text (field : Field isSpace) (separator : Byte) (rest : Bytes) : Bytes :=
  field.digits ++ (field.spaces ++ separator :: (field.after ++ rest))

/-- The text, before its zone -/
def DateTime.text (d : DateTime isSpace) (zone : Bytes) : Bytes :=
  d.before ++ d.year.text 0x2d (d.month.text 0x2d (d.day.text 0x54
    (d.hour.text 0x3a (d.minute.text 0x3a (d.second.digits ++ (d.second.spaces ++ zone))))))

/-- What `mktime` gets -/
def DateTime.tm (d : DateTime isSpace) : Tm where
  tmYear := ((digitsValue d.year.digits : Int).bmod (2 ^ 32) - 1900).bmod (2 ^ 32)
  tmMon := ((digitsValue d.month.digits : Int).bmod (2 ^ 32) - 1).bmod (2 ^ 32)
  tmMday := (digitsValue d.day.digits : Int).bmod (2 ^ 32)
  tmHour := (digitsValue d.hour.digits : Int).bmod (2 ^ 32)
  tmMin := (digitsValue d.minute.digits : Int).bmod (2 ^ 32)
  tmSec := (digitsValue d.second.digits : Int).bmod (2 ^ 32)

/-- The two digits of a number below 100 -/
def twoDigits (n : ℕ) : Bytes := [Fin.ofNat 256 (0x30 + n / 10), Fin.ofNat 256 (0x30 + n % 10)]

/-- `+HH:MM` or `-HH:MM` -/
def offsetText (sign : Byte) (hh mm : ℕ) : Bytes :=
  sign :: (twoDigits hh ++ 0x3a :: twoDigits mm)

/-- Skipping ends at a printed byte. -/
theorem skipSpace_spaces_cons (hspaces : SpacesOnly isSpace) {spaces : Bytes}
    (h : ∀ c ∈ spaces, isSpace c = true) {c : Byte} (hc : 0x20 < c) (rest : Bytes) :
    skipSpace isSpace (spaces ++ c :: rest) = c :: rest := by
  rw [skipSpace_append hspaces h, skipSpace_cons (hspaces.not_isSpace hc)]

theorem skipSpace_spaces_digits (hspaces : SpacesOnly isSpace) {spaces ds : Bytes}
    (h : ∀ c ∈ spaces, isSpace c = true) (hds : Digits ds) (rest : Bytes) :
    skipSpace isSpace (spaces ++ (ds ++ rest)) = ds ++ rest := by
  obtain ⟨c, tail, rfl⟩ := List.exists_cons_of_ne_nil hds.ne_nil
  have hc : (0x20 : Byte) < c :=
    lt_of_lt_of_le (by decide) (hds.isDigit c List.mem_cons_self).1
  exact skipSpace_spaces_cons hspaces h hc (tail ++ rest)

/-- A separator ends a number. -/
theorem endsDigits_cons {c : Byte} (h : ¬ IsDigit c ∧ toLower c ≠ 0x78) (rest : Bytes) :
    EndsDigits (c :: rest) := by
  rintro d tail heq
  obtain ⟨rfl, -⟩ := List.cons_eq_cons.1 heq
  exact h

/-- A field is read with its separator, up to the next digits. -/
theorem pickField_text (hspaces : SpacesOnly isSpace) (field : Field isSpace) {w : Byte}
    (hprinted : 0x20 < w) (hends : ¬ IsDigit w ∧ toLower w ≠ 0x78)
    {ds : Bytes} (hds : Digits ds) (rest : Bytes) :
    pickField isSpace (some w) (field.text w (ds ++ rest)) =
      ((digitsValue field.digits : Int).bmod (2 ^ 32), ds ++ rest) := by
  have hnumber := pickNumber_append 32 field.isDigits
    (endsDigits_spaces hspaces field.isSpaces
      (endsDigits_cons hends (field.after ++ (ds ++ rest))))
  simp only [pickField, Field.text, hnumber,
    skipSpace_spaces_cons hspaces field.isSpaces hprinted, if_true,
    skipSpace_spaces_digits hspaces field.isAfter hds]

theorem pickField_last (hspaces : SpacesOnly isSpace) (field : Field isSpace) {c : Byte}
    (hprinted : 0x20 < c) (hends : ¬ IsDigit c ∧ toLower c ≠ 0x78) (rest : Bytes) :
    pickField isSpace none (field.digits ++ (field.spaces ++ c :: rest)) =
      ((digitsValue field.digits : Int).bmod (2 ^ 32), c :: rest) := by
  have hnumber := pickNumber_append 32 field.isDigits
    (endsDigits_spaces hspaces field.isSpaces (endsDigits_cons hends rest))
  simp only [pickField, hnumber, skipSpace_spaces_cons hspaces field.isSpaces hprinted]
  rfl

/-- The scan, block by block -/
theorem parseTimepoint_of_blocks (mktime : Tm → Int) (sysZoneOffset : Int)
    {value r₀ r₁ r₂ r₃ r₄ r₅ r₆ : Bytes} {year mon mday hour min sec : Int}
    (hstart : skipSpace isSpace value = r₀)
    (hyear : pickField isSpace (some 0x2d) r₀ = (year, r₁))
    (hmon : pickField isSpace (some 0x2d) r₁ = (mon, r₂))
    (hmday : pickField isSpace (some 0x54) r₂ = (mday, r₃))
    (hhour : pickField isSpace (some 0x3a) r₃ = (hour, r₄))
    (hmin : pickField isSpace (some 0x3a) r₄ = (min, r₅))
    (hsec : pickField isSpace none r₅ = (sec, r₆)) :
    parseTimepoint isSpace mktime sysZoneOffset value =
      ⟨pickZone sysZoneOffset (mktime ⟨(year - 1900).bmod (2 ^ 32), (mon - 1).bmod (2 ^ 32), mday,
        hour, min, sec⟩) r₆, 0⟩ := by
  simp only [parseTimepoint, hstart, hyear, hmon, hmday, hhour, hmin, hsec]

/-- The scan comes to the zone, whatever the spaces. -/
theorem parseTimepoint_text (hspaces : SpacesOnly isSpace) (mktime : Tm → Int)
    (sysZoneOffset : Int) (d : DateTime isSpace) {c : Byte} (hprinted : 0x20 < c)
    (hends : ¬ IsDigit c ∧ toLower c ≠ 0x78) (rest : Bytes) :
    parseTimepoint isSpace mktime sysZoneOffset (d.text (c :: rest)) =
      ⟨pickZone sysZoneOffset (mktime d.tm) (c :: rest), 0⟩ := by
  exact parseTimepoint_of_blocks mktime sysZoneOffset
    (skipSpace_spaces_digits hspaces d.isBefore d.year.isDigits _)
    (pickField_text hspaces d.year (by decide) (by decide) d.month.isDigits _)
    (pickField_text hspaces d.month (by decide) (by decide) d.day.isDigits _)
    (pickField_text hspaces d.day (by decide) (by decide) d.hour.isDigits _)
    (pickField_text hspaces d.hour (by decide) (by decide) d.minute.isDigits _)
    (pickField_text hspaces d.minute (by decide) (by decide) d.second.isDigits _)
    (pickField_last hspaces d.second hprinted hends rest)

/-! ## Zones -/

theorem isDigit_ofNat {d : ℕ} (h : d < 10) : IsDigit (Fin.ofNat 256 (0x30 + d)) := by
  simp only [IsDigit, Fin.le_def, Fin.val_ofNat]
  rw [Nat.mod_eq_of_lt (by omega)]
  exact ⟨Nat.le_add_right 0x30 d, by show 0x30 + d ≤ 0x39; omega⟩

theorem digits_twoDigits {n : ℕ} (h : n < 100) : Digits (twoDigits n) := by
  refine ⟨List.cons_ne_nil _ _, fun c hc => ?_⟩
  obtain rfl | hc := List.mem_cons.1 hc
  · exact isDigit_ofNat (by omega)
  · obtain rfl := List.mem_singleton.1 hc
    exact isDigit_ofNat (Nat.mod_lt n (by decide))

theorem value_twoDigits {n : ℕ} (h : n < 100) :
    ((digitsValue (twoDigits n) : ℕ) : Int).bmod (2 ^ 64) = n := by
  have hall : ∀ n < 100, ((digitsValue (twoDigits n) : ℕ) : Int).bmod (2 ^ 64) = n := by
    decide +kernel
  exact hall n h

/-- Hours count as minutes and minutes as seconds. -/
theorem pickOffset_twoDigits {hh mm : ℕ} (hhh : hh < 100) (hmm : mm < 100) :
    pickOffset (twoDigits hh ++ 0x3a :: twoDigits mm) = hh * 60 + mm := by
  have hhours := pickNumber_append 64 (digits_twoDigits hhh)
    (endsDigits_cons (c := 0x3a) (by decide) (twoDigits mm))
  have hend : EndsDigits [] := by simp [EndsDigits]
  have hminutes := pickNumber_append 64 (digits_twoDigits hmm) hend
  rw [List.append_nil] at hminutes
  simp only [pickOffset, hhours, if_true, hminutes, value_twoDigits hhh, value_twoDigits hmm]

/-- The moment a number of seconds later -/
def Moment.plus (m : Moment) (seconds : Int) : Moment := { m with seconds := m.seconds + seconds }

/-- A zone offset is honoured exactly when it is zero. -/
theorem parseTimepoint_offset_iff (hspaces : SpacesOnly isSpace) (mktime : Tm → Int)
    (sysZoneOffset : Int) (d : DateTime isSpace) {hh mm : ℕ} (hhh : hh < 100) (hmm : mm < 100) :
    (parseTimepoint isSpace mktime sysZoneOffset (d.text (offsetText 0x2b hh mm)) =
        (parseTimepoint isSpace mktime sysZoneOffset (d.text [0x5a])).plus
          (-(hh * 3600 + mm * 60)) ∧
      parseTimepoint isSpace mktime sysZoneOffset (d.text (offsetText 0x2d hh mm)) =
        (parseTimepoint isSpace mktime sysZoneOffset (d.text [0x5a])).plus
          (hh * 3600 + mm * 60)) ↔
      hh = 0 ∧ mm = 0 := by
  rw [offsetText, offsetText, parseTimepoint_text hspaces _ _ d (by decide) (by decide),
    parseTimepoint_text hspaces _ _ d (by decide) (by decide),
    parseTimepoint_text hspaces _ _ d (by decide) (by decide)]
  have hplus : ∀ tail, pickZone sysZoneOffset (mktime d.tm) (0x2b :: tail) =
      mktime d.tm - sysZoneOffset - pickOffset tail := fun _ => rfl
  have hminus : ∀ tail, pickZone sysZoneOffset (mktime d.tm) (0x2d :: tail) =
      mktime d.tm - sysZoneOffset + pickOffset tail := fun _ => rfl
  have hutc : pickZone sysZoneOffset (mktime d.tm) [0x5a] = mktime d.tm - sysZoneOffset := rfl
  rw [hplus, hminus, hutc, pickOffset_twoDigits hhh hmm]
  simp only [Moment.plus, Moment.mk.injEq, and_true]
  omega

/-- A field without spaces -/
def plainField (ds : Bytes) (h : Digits ds) : Field blank :=
  ⟨ds, [], [], h, by simp, by simp⟩

/-- `2026-01-02T03:04:05` -/
def sampleDateTime : DateTime blank where
  before := []
  isBefore := by simp
  year := plainField (ascii "2026") ⟨by decide +kernel, by decide +kernel⟩
  month := plainField (ascii "01") ⟨by decide +kernel, by decide +kernel⟩
  day := plainField (ascii "02") ⟨by decide +kernel, by decide +kernel⟩
  hour := plainField (ascii "03") ⟨by decide +kernel, by decide +kernel⟩
  minute := plainField (ascii "04") ⟨by decide +kernel, by decide +kernel⟩
  second := plainField (ascii "05") ⟨by decide +kernel, by decide +kernel⟩

/-- A clock that counts the seconds of the day -/
def secondsOfDay (t : Tm) : Int := t.tmHour * 3600 + t.tmMin * 60 + t.tmSec

theorem parseTimepoint_offset_utc :
    parseTimepoint blank secondsOfDay 28800 (sampleDateTime.text (offsetText 0x2b 0 0)) =
      (parseTimepoint blank secondsOfDay 28800 (sampleDateTime.text [0x5a])).plus
        (-((0 : ℕ) * 3600 + (0 : ℕ) * 60)) :=
  ((parseTimepoint_offset_iff spacesOnly_blank secondsOfDay 28800 sampleDateTime (by decide)
    (by decide)).2 ⟨rfl, rfl⟩).1

/-- Eight hours are taken for eight minutes. -/
theorem not_parseTimepoint_offset_eight :
    ¬ (parseTimepoint blank secondsOfDay 28800 (sampleDateTime.text (offsetText 0x2b 8 0)) =
        (parseTimepoint blank secondsOfDay 28800 (sampleDateTime.text [0x5a])).plus
          (-((8 : ℕ) * 3600 + (0 : ℕ) * 60)) ∧
      parseTimepoint blank secondsOfDay 28800 (sampleDateTime.text (offsetText 0x2d 8 0)) =
        (parseTimepoint blank secondsOfDay 28800 (sampleDateTime.text [0x5a])).plus
          ((8 : ℕ) * 3600 + (0 : ℕ) * 60)) := by
  decide +kernel

end Texts

end LibAtapp.Conf
