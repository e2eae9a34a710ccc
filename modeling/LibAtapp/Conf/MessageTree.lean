import LibAtapp.Conf.Scalars
import Mathlib.Logic.Function.Basic

set_option autoImplicit false

/-! # Messages as trees over a schema

A message is kept by paths: a step names a field by its position in its message and, for a
repeated field, an element. A `Descriptor` is the list of fields of a message with the descriptors
of its sub-messages, and the state of a load is a message with the set of existing keys. Every leaf
keeps whether a loader has set it from a text that is not empty.

The operations are those of the reflection interface that the loaders use. Setting a member of a
oneof clears the member that was set before. -/

namespace LibAtapp.Conf

/-- A field by its position, and an element of it where it is repeated. -/
abbrev Step := Nat × Option Nat

abbrev Path := List Step

/-! ## Schemas -/

/-- A `YAML::Node` that is defined. -/
inductive YamlNode
  | null
  | scalar (text : Bytes)
  | sequence (items : List YamlNode)
  | map (entries : List (YamlNode × YamlNode))

/-- How a value is read: what a text or a YAML node gives and whether that is a default, and how a
    string is held where the value is one. -/
structure LeafReader (V : Type) where
  pickText : Environment → Bytes → V × Bool
  pickNode : Environment → YamlNode → Option (V × Bool)
  ofString : Option (Bytes → V) := none

/-- A scalar, enum, `Duration` or `Timestamp` field, and whether it has a default. The parts are the
    fields of a `Duration` or `Timestamp`: a part is read into the value that the field has. -/
structure LeafType (V : Type) extends LeafReader V where
  hasDefault : Bool := false
  parts : List (Bytes × (Option V → LeafReader V)) := []

/-- Whether the field is a `Duration` or `Timestamp`. -/
def LeafType.isMoment {V : Type} (kind : LeafType V) : Bool := !kind.parts.isEmpty

/-- The value that a leaf has by default. -/
def LeafType.default {V : Type} (kind : LeafType V) (environment : Environment) : V :=
  (kind.pickText environment []).1

/-- What the code reads of a field descriptor besides its type. A field match counts where both its
    texts are set and the field is not repeated. -/
structure FieldInfo where
  name : Bytes
  oneof : Option Nat := none
  fieldMatch : Option (Bytes × Bytes) := none
  enableExpression : Bool := false

/-- The fields of a message, in order. A repeated message may be a map; its descriptor is then that
    of an entry. -/
inductive Descriptor (V : Type)
  | nil
  | leaf (info : FieldInfo) (kind : LeafType V) (rest : Descriptor V)
  | leaves (info : FieldInfo) (kind : LeafType V) (rest : Descriptor V)
  | message (info : FieldInfo) (sub rest : Descriptor V)
  | messages (info : FieldInfo) (isMap : Bool) (sub rest : Descriptor V)

/-! ## The state of a load -/

/-- A message and the set of existing keys. -/
structure Dump (V : Type) where
  leaf : Path → Option (V × Bool) := fun _ => none
  size : Path → Nat := fun _ => 0
  oneofCase : Path → Nat → Option Nat := fun _ _ => none
  existed : List Bytes := []

namespace Dump

variable {V : Type}

/-- Everything under a path is as in a new message. -/
def clear (d : Dump V) (q : Path) : Dump V :=
  { d with
    leaf := fun r => if q <+: r then none else d.leaf r
    size := fun r => if q <+: r then 0 else d.size r
    oneofCase := fun r => if q <+: r then fun _ => none else d.oneofCase r }

/-- Whether the oneof of a field of the message at `p` has a member. -/
def hasOneof (d : Dump V) (p : Path) (info : FieldInfo) : Bool :=
  match info.oneof with
  | some o => (d.oneofCase p o).isSome
  | none => false

/-- The member of the oneof `o` of the message at `p` is the field at `n`. -/
def setCase (d : Dump V) (p : Path) (o n : Nat) : Dump V :=
  { d with
    oneofCase := Function.update d.oneofCase p (Function.update (d.oneofCase p) o (some n)) }

/-- The field at `n` of the message at `p` becomes the member of its oneof. -/
def select (d : Dump V) (p : Path) (n : Nat) (info : FieldInfo) : Dump V :=
  match info.oneof with
  | none => d
  | some o =>
    match d.oneofCase p o with
    | some m => if m = n then d else (d.clear (p ++ [(m, none)])).setCase p o n
    | none => d.setCase p o n

def insertKey (d : Dump V) (key : Bytes) : Dump V := { d with existed := key :: d.existed }

/-- Sets the leaf at `n` of the message at `p`. -/
def setLeaf (d : Dump V) (p : Path) (n : Nat) (info : FieldInfo) (value : V) (fromText : Bool) :
    Dump V :=
  let selected := d.select p n info
  { selected with leaf := Function.update selected.leaf (p ++ [(n, none)]) (some (value, fromText)) }

/-- Appends to the repeated leaf at `n` of the message at `p`. -/
def addLeaf (d : Dump V) (p : Path) (n : Nat) (value : V) (fromText : Bool) : Dump V :=
  let q := p ++ [(n, none)]
  { d with
    leaf := Function.update d.leaf (p ++ [(n, some (d.size q))]) (some (value, fromText))
    size := Function.update d.size q (d.size q + 1) }

/-- `AddMessage` -/
def addMessage (d : Dump V) (p : Path) (n : Nat) : Dump V :=
  let q := p ++ [(n, none)]
  { d with size := Function.update d.size q (d.size q + 1) }

/-- `RemoveLast` of a repeated message. -/
def removeLast (d : Dump V) (p : Path) (n : Nat) : Dump V :=
  let q := p ++ [(n, none)]
  let last := d.size q - 1
  let cleared := d.clear (p ++ [(n, some last)])
  { cleared with size := Function.update cleared.size q last }

end Dump

/-! ## Values with a mark -/

/-- A value that a loader has picked: whether it is the default, and whether the text it was picked
    from is not empty. -/
structure Reading (V : Type) where
  value : V
  isDefault : Bool
  fromText : Bool

namespace Dump

variable {V : Type}

/-- `dump_field_with_value` of a field that is not repeated. -/
def dumpFieldWithValue (d : Dump V) (p : Path) (n : Nat) (keys : Bytes) (info : FieldInfo)
    (reading : Reading V) : Dump V × Bool :=
  let existedFieldKey := keys ++ info.name
  if reading.isDefault then
    if existedFieldKey ∈ d.existed then (d, false)
    else (d.setLeaf p n info reading.value reading.fromText, true)
  else
    ((d.setLeaf p n info reading.value reading.fromText).insertKey existedFieldKey, true)

/-- `dump_field_with_value` of a repeated field. -/
def dumpRepeatedValue (d : Dump V) (p : Path) (n : Nat) (keys : Bytes) (info : FieldInfo)
    (reading : Reading V) : Dump V × Bool :=
  if reading.isDefault then (d, false)
  else
    let index := d.size (p ++ [(n, none)])
    ((d.insertKey (keys ++ info.name ++ ascii "." ++ decimal index)).addLeaf p n reading.value
      reading.fromText, true)

/-- A part of the leaf at `q` is set. -/
def setPart (d : Dump V) (q : Path) (reading : Reading V) : Dump V :=
  let old := ((d.leaf q).map (·.2)).getD false
  { d with leaf := Function.update d.leaf q (some (reading.value, old || reading.fromText)) }

/-- `dump_field_with_value` of a field of a `Duration` or `Timestamp`. -/
def dumpPart (d : Dump V) (q : Path) (existedFieldKey : Bytes) (reading : Reading V) :
    Dump V × Bool :=
  if reading.isDefault then
    if existedFieldKey ∈ d.existed then (d, false) else (d.setPart q reading, true)
  else ((d.setPart q reading).insertKey existedFieldKey, true)

end Dump

end LibAtapp.Conf
