import LibAtapp.Conf.Scalars

set_option autoImplicit false

/-! # The formats of a scalar

The INI loader and the environment loader read a text in the same way, and so does the YAML loader
for strings, booleans and enums. For numbers, durations and timestamps it has a function of its
own, which never takes a value for a default: it parses an expression that expands to nothing as
it stands, and marks the field, so that the default is not applied. -/

namespace LibAtapp.Conf

section Pick

variable {V : Type} (type : ScalarType V) (environment : Environment) (options : FieldOptions)

/-- The text after its expressions were expanded, where they are enabled. -/
def expandedText (valStr : Bytes) : Bytes :=
  if options.hasEnableExpression then expandEnvironmentExpression environment valStr else valStr

@[simp] theorem expandedText_nil : expandedText environment options [] = [] := by
  unfold expandedText
  split_ifs <;> rfl

/-- The loaders do not expand an empty text, which makes no difference. -/
theorem ite_expand_eq (valStr : Bytes) :
    (if valStr ≠ [] ∧ options.hasEnableExpression then
        expandEnvironmentExpression environment valStr
      else valStr) = expandedText environment options valStr := by
  by_cases hne : valStr = []
  · rw [if_neg (fun h => h.1 hne), hne, expandedText_nil]
  · unfold expandedText
    simp only [ne_eq, hne, not_false_eq_true, true_and]

/-- A text that expands to something is no default. -/
theorem dumpPickFieldWithExtensions_of_ne {valStr : Bytes}
    (hexpanded : expandedText environment options valStr ≠ []) :
    dumpPickFieldWithExtensions type environment options valStr
      = (clamp type options (type.fromStr (expandedText environment options valStr)
          options.sizeMode), false) := by
  simp only [dumpPickFieldWithExtensions, ite_expand_eq, if_neg hexpanded]

/-- A text that expands to nothing is the default. -/
theorem dumpPickFieldWithExtensions_of_eq {valStr : Bytes}
    (hexpanded : expandedText environment options valStr = []) :
    dumpPickFieldWithExtensions type environment options valStr
      = (clamp type options (type.fromStr (options.defaultText environment) options.sizeMode),
          true) := by
  simp only [dumpPickFieldWithExtensions, ite_expand_eq, if_pos hexpanded]

theorem dumpPickNodeWithExtensions_of_ne {valStr : Bytes} (hne : valStr ≠ []) :
    dumpPickNodeWithExtensions type environment options (some valStr)
      = (clamp type options (type.fromStr (expandedText environment options valStr)
          options.sizeMode), false) := by
  cases valStr with
  | nil => exact absurd rfl hne
  | cons c text => rfl

end Pick

namespace FieldKind

variable {V : Type} (kind : FieldKind V) (environment : Environment) (options : FieldOptions)

/-- Whether the YAML loader has a function of its own for the field. -/
def isNumber : {V : Type} → FieldKind V → Bool
  | _, .number _ => true
  | _, _ => false

/-- What the text of a field gives when there is none. -/
def default : V := (kind.pickText environment options []).1

/-- The property of a field and a text, which the environment has under a key: the three loaders
    do the same to the field, value and mark, and the pass over the defaults leaves the same. Where
    the text expands to nothing and the field was not marked before, that is the default. -/
structure FormatsAgree (key : Bytes) (slot : FieldSlot V) : Prop where
  yamlAgrees : kind.yamlDumpPickField environment options (environment.getenv key) slot
    = kind.iniDumpPickField environment options (environment.getenv key) slot
  environmentAgrees : kind.environmentDumpPickField environment options key slot
    = kind.iniDumpPickField environment options (environment.getenv key) slot
  defaultsAgree : ∀ loaded ∈ [
      kind.yamlDumpPickField environment options (environment.getenv key) slot,
      kind.environmentDumpPickField environment options key slot],
    kind.dumpPickDefaultField environment options loaded.slot
      = kind.dumpPickDefaultField environment options
          (kind.iniDumpPickField environment options (environment.getenv key) slot).slot
  emptyIsDefault : expandedText environment options (environment.getenv key) = [] →
    slot.existed = false → ∀ loaded ∈ [
      kind.iniDumpPickField environment options (environment.getenv key) slot,
      kind.yamlDumpPickField environment options (environment.getenv key) slot,
      kind.environmentDumpPickField environment options key slot],
    (kind.dumpPickDefaultField environment options loaded.slot).value
      = kind.default environment options

/-- A text that expands to nothing is read like no text, as a default. -/
theorem pickText_of_eq {valStr : Bytes} (h : expandedText environment options valStr = []) :
    kind.pickText environment options valStr = (kind.default environment options, true) := by
  cases kind with
  | number type =>
      simp only [default, pickText, dumpPickFieldWithExtensions_of_eq _ _ _ h,
        dumpPickFieldWithExtensions_of_eq _ _ _ (expandedText_nil environment options)]
  | text type =>
      simp only [default, pickText, dumpPickFieldWithExtensions_of_eq _ _ _ h,
        dumpPickFieldWithExtensions_of_eq _ _ _ (expandedText_nil environment options)]
  | enum desc toInt =>
      simp only [default, pickText, EnumDescriptor.dumpPickEnumFieldWithExtensions, ite_expand_eq,
        h, expandedText_nil, decide_true, if_true]
      -- the default may name no value of the enum, and is a default all the same
      refine Prod.ext rfl ?_
      dsimp only
      split <;> rfl

/-- After loading a default into a field that is not marked, the defaults leave it there. -/
theorem dumpPickDefaultField_default {slot : FieldSlot V} (h : slot.existed = false) :
    (kind.dumpPickDefaultField environment options
      (dumpFieldWithValue (kind.default environment options, true) slot).slot).value
        = kind.default environment options := by
  have hslot : (dumpFieldWithValue (kind.default environment options, true) slot).slot
      = slot.set (kind.default environment options) := by
    simp [dumpFieldWithValue, h]
  rw [hslot]
  unfold dumpPickDefaultField
  split_ifs
  · rfl
  · cases options with
    | none => rfl
    | some opt =>
        dsimp only
        split_ifs <;> rfl

/-- **The formats agree exactly if** the YAML loader's own function does not meet an expression
    that expands to nothing. -/
theorem formatsAgree_iff {key : Bytes} (slot : FieldSlot V) (hne : environment.getenv key ≠ []) :
    kind.FormatsAgree environment options key slot ↔
      ¬ (kind.isNumber = true ∧ options.hasEnableExpression = true ∧
        expandEnvironmentExpression environment (environment.getenv key) = []) := by
  have henv : kind.environmentDumpPickField environment options key slot
      = kind.iniDumpPickField environment options (environment.getenv key) slot := by
    simp only [environmentDumpPickField, if_neg hne, iniDumpPickField]
  constructor
  · rintro hagree ⟨hnumber, henable, hempty⟩
    -- the YAML loader marks the field, and the INI loader does not
    have hexpanded : expandedText environment options (environment.getenv key) = [] := by
      rw [expandedText, henable, if_pos rfl, hempty]
    have hini : (kind.iniDumpPickField environment options (environment.getenv key) slot).marks
        = false := by
      rw [iniDumpPickField, pickText_of_eq kind environment options hexpanded]
      unfold dumpFieldWithValue
      rw [if_pos rfl]
      split_ifs <;> rfl
    have hyaml : (kind.yamlDumpPickField environment options (environment.getenv key) slot).marks
        = true := by
      cases kind with
      | number type =>
          simp only [yamlDumpPickField, dumpPickNodeWithExtensions_of_ne _ _ _ hne]
          rfl
      | text => cases hnumber
      | enum => cases hnumber
    rw [hagree.yamlAgrees, hini] at hyaml
    cases hyaml
  · intro hcond
    have hyaml : kind.yamlDumpPickField environment options (environment.getenv key) slot
        = kind.iniDumpPickField environment options (environment.getenv key) slot := by
      cases kind with
      | text => rfl
      | enum => rfl
      | number type =>
          have hexpanded : expandedText environment options (environment.getenv key) ≠ [] := by
            unfold expandedText
            split_ifs with henable
            · exact fun hempty => hcond ⟨rfl, henable, hempty⟩
            · exact hne
          simp only [yamlDumpPickField, iniDumpPickField, pickText,
            dumpPickNodeWithExtensions_of_ne _ _ _ hne,
            dumpPickFieldWithExtensions_of_ne _ _ _ hexpanded]
    refine ⟨hyaml, henv, ?_, fun hempty hnew => ?_⟩
    · simp [hyaml, henv]
    · simp only [hyaml, henv, List.mem_cons, List.not_mem_nil, or_false, or_self, forall_eq]
      rw [iniDumpPickField, pickText_of_eq kind environment options hempty]
      exact dumpPickDefaultField_default kind environment options hnew

/-- Reads unsigned decimal numbers, as `str2int` does. -/
def decimalReader : NumberReader where
  str2int input :=
    let isDigit := fun c : Byte => decide (0x30 ≤ c ∧ c ≤ 0x39)
    ((input.takeWhile isDigit).foldl (fun n c => 10 * n + (c.val - 0x30 : Nat)) 0,
      input.dropWhile isDigit)
  isSpace c := c = 0x20

/-- An environment that has one text under `LIMIT`. -/
def limitEnvironment (text : String) : Environment := fun name =>
  if name = ascii "LIMIT" then ascii text else []

/-- A limit of 5 by default, with expressions. -/
def limitOptions : FieldOptions := some { defaultValue := ascii "5", enableExpression := true }

theorem formatsAgree_iff_seven :
    (FieldKind.number (uint32Type decimalReader)).FormatsAgree (limitEnvironment "7") limitOptions
      (ascii "LIMIT") { value := 0 } := by
  have hset : (limitEnvironment "7").getenv (ascii "LIMIT") ≠ [] := by decide +kernel
  have hexpands : expandEnvironmentExpression (limitEnvironment "7")
      ((limitEnvironment "7").getenv (ascii "LIMIT")) ≠ [] := by decide +kernel
  exact (formatsAgree_iff (.number (uint32Type decimalReader)) (limitEnvironment "7") limitOptions
    { value := 0 } hset).2 fun h => hexpands h.2.2

/-- Where `UNSET` is not set, the YAML loader reads `$UNSET` as 0 and marks the field. -/
theorem not_formatsAgree_unset :
    ¬ (FieldKind.number (uint32Type decimalReader)).FormatsAgree (limitEnvironment "$UNSET")
      limitOptions (ascii "LIMIT") { value := 0 } :=
  fun h => absurd h.yamlAgrees (by decide +kernel)

end FieldKind

end LibAtapp.Conf
