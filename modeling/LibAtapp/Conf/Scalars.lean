import LibAtapp.Conf.Expression

set_option autoImplicit false

/-! # Scalar fields of a configuration

How the three loaders of `atapp_conf.cpp` read a text into a scalar field, and how the pass over
the defaults fills what they leave. The templates of the source are generic in the field type; a
`ScalarType` is what they use of it. Texts are read by functions of other libraries or by
`pick_const_data`, which are parameters of the instances. -/

namespace LibAtapp.Conf

/-! ## Options -/

/-- `atapp_configure_meta`, as far as a scalar field reads it. -/
structure ConfigureMeta where
  defaultValue : Bytes := []
  minValue : Bytes := []
  maxValue : Bytes := []
  sizeMode : Bool := false
  enableExpression : Bool := false

/-- The `CONFIGURE` extension of a field, where it has one. -/
abbrev FieldOptions := Option ConfigureMeta

/-- `field_has_enable_expression` -/
def FieldOptions.hasEnableExpression (options : FieldOptions) : Bool :=
  match options with
  | some opt => opt.enableExpression
  | none => false

def FieldOptions.sizeMode (options : FieldOptions) : Bool :=
  match options with
  | some opt => opt.sizeMode
  | none => false

/-- The default value of the field, with its expressions expanded where they are enabled. -/
def FieldOptions.defaultText (options : FieldOptions) (environment : Environment) : Bytes :=
  match options with
  | some opt =>
    if opt.defaultValue ≠ [] ∧ opt.enableExpression then
      expandEnvironmentExpression environment opt.defaultValue
    else opt.defaultValue
  | none => []

/-! ## Field types -/

/-- What `dump_pick_field_with_extensions` uses of a field type: `dump_pick_field_min`,
    `dump_pick_field_max`, `dump_pick_field_from_str` and `dump_pick_field_less`. -/
structure ScalarType (V : Type) where
  min : V
  max : V
  fromStr : Bytes → Bool → V
  less : V → V → Bool

/-- The factors of `scale_size_mode_t` for a number of the given size. -/
def scaleSizeMode (bytes : Nat) (c : Byte) : Nat :=
  if 2 ≤ bytes ∧ c = 0x6B then 2 ^ 10
  else if 4 ≤ bytes ∧ c = 0x6D then 2 ^ 20
  else if 4 ≤ bytes ∧ c = 0x67 then 2 ^ 30
  else if 8 ≤ bytes ∧ c = 0x74 then 2 ^ 40
  else if 8 ≤ bytes ∧ c = 0x70 then 2 ^ 50
  else 1

/-- `tolower` on one byte. -/
def toLower (c : Byte) : Byte := if 0x41 ≤ c ∧ c ≤ 0x5A then c + 0x20 else c

/-- `UTIL_STRFUNC_STRNCASE_CMP` of the first `n` bytes finds two texts equal. -/
def strncaseEq (l r : Bytes) (n : Nat) : Bool :=
  ((cString l).take n).map toLower == ((cString r).take n).map toLower

/-- The functions of the string library that read numbers: `str2int`, which also returns the rest
    of the text, and `is_space`. -/
structure NumberReader where
  str2int : Bytes → Int × Bytes
  isSpace : Byte → Bool

/-- A shift of a machine number of the given size, signed or not. -/
def shifted (bytes : Nat) (signed : Bool) (value : Int) (factor : Nat) : Int :=
  if signed then (value * factor).bmod (2 ^ (8 * bytes)) else (value * factor) % 2 ^ (8 * bytes)

/-- An integer type of the given size. -/
def integerType (reader : NumberReader) (bytes : Nat) (signed : Bool) : ScalarType Int where
  min := if signed then -2 ^ (8 * bytes - 1) else 0
  max := if signed then 2 ^ (8 * bytes - 1) - 1 else 2 ^ (8 * bytes) - 1
  fromStr input sizeMode :=
    if input = [] then 0
    else
      let read := reader.str2int input
      if sizeMode then
        match (read.2.dropWhile reader.isSpace).head? with
        | some c => shifted bytes signed read.1 (scaleSizeMode bytes (toLower c))
        | none => read.1
      else read.1
  less l r := decide (l < r)

def int32Type (reader : NumberReader) : ScalarType Int := integerType reader 4 true

def int64Type (reader : NumberReader) : ScalarType Int := integerType reader 8 true

def uint32Type (reader : NumberReader) : ScalarType Int := integerType reader 4 false

def uint64Type (reader : NumberReader) : ScalarType Int := integerType reader 8 false

/-- `google.protobuf.Duration` and `google.protobuf.Timestamp` -/
structure Moment where
  seconds : Int
  nanos : Int
deriving DecidableEq

/-- The two types of moments; each has its `pick_const_data`. -/
def momentType (pickConstData : Bytes → Moment) : ScalarType Moment where
  min := ⟨-2 ^ 63, -2 ^ 31⟩
  max := ⟨2 ^ 63 - 1, 2 ^ 31 - 1⟩
  fromStr input _ := if input = [] then ⟨0, 0⟩ else pickConstData input
  less l r := if l.seconds ≠ r.seconds then decide (l.seconds < r.seconds)
    else decide (l.nanos < r.nanos)

/-- Whether `UTIL_STRFUNC_STRNCASE_CMP(word, text, size)` is zero for the size of the text: the
    word starts with the text, whatever the case; a comparison ends at a NUL in both. -/
def startsWithNoCase (word text : Bytes) : Bool :=
  (text.take ((cString text).length + 1)).map toLower <+: word.map toLower ++ [0]

/-- `dump_pick_logic_bool` -/
def pickLogicBool (trans : Bytes) : Bool :=
  if trans = [] then false
  else !(["0", "false", "no", "disable", "disabled"].any fun word =>
    startsWithNoCase (ascii word) trans)

def boolType : ScalarType Bool where
  min := false
  max := true
  fromStr input _ := pickLogicBool input
  less l r := if l = r then false else r

/-- Strings are never bounded. -/
def stringType : ScalarType Bytes where
  min := []
  max := []
  fromStr input _ := input
  less _ _ := false

/-! ## Reading a text -/

section Pick

variable {V : Type} (type : ScalarType V) (environment : Environment) (options : FieldOptions)

/-- The value within the bounds that the options set. -/
def clamp (value : V) : V :=
  let minValue := match options with
    | some opt => if opt.minValue ≠ [] then type.fromStr opt.minValue opt.sizeMode else type.min
    | none => type.min
  let maxValue := match options with
    | some opt => if opt.maxValue ≠ [] then type.fromStr opt.maxValue opt.sizeMode else type.max
    | none => type.max
  let value := if type.less value minValue then minValue else value
  if type.less maxValue value then maxValue else value

/-- `dump_pick_field_with_extensions` on a text: the value, and whether it is the default. -/
def dumpPickFieldWithExtensions (valStr : Bytes) : V × Bool :=
  let valStr := if valStr ≠ [] ∧ options.hasEnableExpression then
      expandEnvironmentExpression environment valStr
    else valStr
  if valStr = [] then
    (clamp type options (type.fromStr (options.defaultText environment) options.sizeMode), true)
  else (clamp type options (type.fromStr valStr options.sizeMode), false)

/-- `dump_pick_field_with_extensions` on a node, the overload of the YAML loader. The node is given
    by its text where it is a scalar. -/
def dumpPickNodeWithExtensions (scalar : Option Bytes) : V × Bool :=
  let isDefault := false
  let value := match scalar with
    | some (c :: text) =>
      let scalarView := if options.hasEnableExpression then
          expandEnvironmentExpression environment (c :: text)
        else c :: text
      type.fromStr scalarView options.sizeMode
    | _ => type.fromStr (options.defaultText environment) options.sizeMode
  (clamp type options value, isDefault)

end Pick

/-! ## Enums -/

/-- An enum value with the aliases of its `ENUMVALUE` extension. -/
structure EnumValue where
  name : Bytes
  number : Int
  aliasName : List Bytes := []
  caseSensitive : Bool := false

/-- An enum: its first value has the number 0. -/
structure EnumDescriptor where
  zero : EnumValue
  others : List EnumValue

namespace EnumDescriptor

variable (desc : EnumDescriptor)

def values : List EnumValue := desc.zero :: desc.others

def findValueByNumber (number : Int) : Option EnumValue :=
  desc.values.find? fun value => value.number = number

def findValueByName (name : Bytes) : Option EnumValue :=
  desc.values.find? fun value => value.name = name

/-- The aliases with their values; of two equal ones the later is stored. -/
def aliases : List (Bytes × EnumValue) :=
  desc.values.flatMap fun value =>
    (value.aliasName.filter (· ≠ [])).map fun name => (name, value)

/-- `pick_enum_value_from_alias` -/
def pickEnumValueFromAlias (input : Bytes) : Option EnumValue :=
  match desc.aliases.reverse.find? fun entry => entry.1 = input with
  | some entry => some entry.2
  | none =>
    (desc.aliases.reverse.find? fun entry =>
      entry.2.caseSensitive = false ∧ entry.1.map toLower = input.map toLower).map (·.2)

/-- `dump_pick_enum_field_with_extensions`; `toInt` is `to_int<int32_t>`. -/
def dumpPickEnumFieldWithExtensions (toInt : Bytes → Int) (environment : Environment)
    (options : FieldOptions) (valStr : Bytes) : EnumValue × Bool :=
  let expanded := if valStr ≠ [] ∧ options.hasEnableExpression then
      expandEnvironmentExpression environment valStr
    else valStr
  let isDefault := decide (expanded = [])
  let text := if expanded = [] then options.defaultText environment else expanded
  let found := match text with
    | [] => none
    | c :: _ =>
      let direct := if 0x30 ≤ c ∧ c ≤ 0x39 then desc.findValueByNumber (toInt text)
        else desc.findValueByName text
      match direct with
      | some value => some value
      | none => desc.pickEnumValueFromAlias text
  match found with
  | some value => (value, isDefault)
  | none => (desc.zero, true)

end EnumDescriptor

/-! ## Loading a field -/

/-- A field of a message: its value, whether the existed set holds its key and, for a member of a
    oneof, whether any member is set. -/
structure FieldSlot (V : Type) where
  value : V
  existed : Bool := false
  hasOneof : Option Bool := none
deriving DecidableEq

/-- Setting the field sets its oneof. -/
def FieldSlot.set {V : Type} (slot : FieldSlot V) (value : V) : FieldSlot V :=
  { slot with value := value, hasOneof := slot.hasOneof.map fun _ => true }

/-- What loading a field does: the field after it, and whether the loader marks it as existing. -/
structure Loaded (V : Type) where
  slot : FieldSlot V
  marks : Bool := false
deriving DecidableEq

/-- `dump_field_with_value` of a field that is not repeated: a default neither marks the field nor
    overwrites one that is marked. -/
def dumpFieldWithValue {V : Type} (value : V × Bool) (slot : FieldSlot V) : Loaded V :=
  if value.2 then
    if slot.existed then { slot := slot } else { slot := slot.set value.1 }
  else { slot := { slot.set value.1 with existed := true }, marks := true }

/-- How the loaders treat the field: numbers, durations and timestamps have the overload for nodes,
    strings and booleans are read from the text of a node, and enums have a function of their own. -/
inductive FieldKind : Type → Type 1
  | number {V : Type} (type : ScalarType V) : FieldKind V
  | text {V : Type} (type : ScalarType V) : FieldKind V
  | enum (desc : EnumDescriptor) (toInt : Bytes → Int) : FieldKind EnumValue

namespace FieldKind

/-- The value that the INI loader, the environment loader and the defaults pick from a text. -/
def pickText (environment : Environment) (options : FieldOptions) (valStr : Bytes) :
    {V : Type} → FieldKind V → V × Bool
  | _, .number type => dumpPickFieldWithExtensions type environment options valStr
  | _, .text type => dumpPickFieldWithExtensions type environment options valStr
  | _, .enum desc toInt => desc.dumpPickEnumFieldWithExtensions toInt environment options valStr

section Load

variable {V : Type} (kind : FieldKind V) (environment : Environment) (options : FieldOptions)

/-- `dump_pick_field` of an INI value, with the text of the value. -/
def iniDumpPickField (valStr : Bytes) (slot : FieldSlot V) : Loaded V :=
  dumpFieldWithValue (kind.pickText environment options valStr) slot

/-- `dump_pick_field` of a YAML node that is a scalar. -/
def yamlDumpPickField (scalar : Bytes) (slot : FieldSlot V) : Loaded V :=
  match kind with
  | .number type =>
    dumpFieldWithValue (dumpPickNodeWithExtensions type environment options (some scalar)) slot
  | kind => dumpFieldWithValue (kind.pickText environment options scalar) slot

/-- `dump_environment_pick_field` -/
def environmentDumpPickField (key : Bytes) (slot : FieldSlot V) : Loaded V :=
  let val := environment.getenv key
  if val = [] then { slot := slot }
  else dumpFieldWithValue (kind.pickText environment options val) slot

/-- `dump_pick_default_field` -/
def dumpPickDefaultField (slot : FieldSlot V) : FieldSlot V :=
  if slot.hasOneof = some true then slot
  else match options with
    | none => slot
    | some opt =>
      if opt.defaultValue = [] ∨ slot.existed then slot
      else slot.set (kind.pickText environment options []).1

end Load

end FieldKind

end LibAtapp.Conf
