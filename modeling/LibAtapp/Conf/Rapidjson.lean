import LibAtapp.Conf.MessageEquality
import LibAtapp.Etcdcli.Packer

set_option autoImplicit false

/-! # Messages as JSON documents

`rapidjson_loader_load_from` writes a message into a document and `rapidjson_loader_dump_to` reads a
document into a message, both through the reflection of the message. The empty fields are left out
(`reserve_empty` is off). The writer turns the keys of a map into texts; what it does not know how to
write becomes the empty text. The URI functions and the integer formatting are third-party code. -/

namespace LibAtapp.Rapidjson

open ProtobufEqual (CppType mapKeyTypes)

/-! ## Messages -/

/-- A value of a scalar field. -/
inductive Scalar where
  | int (n : Int)
  | bool (b : Bool)
  | string (s : Bytes)
  deriving DecidableEq, Repr

/-- `FieldDescriptor`, of a proto3 message. Message types are numbered, and an enum type is the
    numbers of its values. -/
structure FieldDescriptor where
  name : Bytes
  number : Nat
  cppType : CppType
  isRepeated : Bool := false
  isMap : Bool := false
  hasPresence : Bool := false
  containingOneof : Option Nat := none
  messageType : Nat := 0
  enumNumbers : List Int := []

/-- What a message holds in one field: nothing, one value, or the values of a repeated field. A
    message is the list of what it holds in the fields of its type, and a map is the list of its
    entries, which are messages with a key and a value. -/
inductive FieldData where
  | scalars (values : List Scalar)
  | messages (values : List (List FieldData))

abbrev Message := List FieldData

/-- The message types. The fields of a type have names of their own, and those of an entry of a map
    are a key and a value. -/
structure DescriptorPool where
  fields : Nat → List FieldDescriptor
  names : ∀ t, ((fields t).map FieldDescriptor.name).Nodup
  entry : ∀ t, ∀ fds ∈ fields t, fds.isMap = true → fds.isRepeated = true ∧
    fds.cppType = .message ∧ ∃ key value, fields fds.messageType = [key, value] ∧
      key.cppType ∈ mapKeyTypes ∧ key.isRepeated = false ∧ key.containingOneof = none ∧
      key.hasPresence = false ∧ value.isRepeated = false ∧ value.isMap = false ∧
      value.containingOneof = none ∧ (value.cppType ≠ .message → value.hasPresence = false)

namespace FieldData

/-- The field is one that `ListFields` lists. -/
def isSet : FieldData → Bool
  | scalars values => !values.isEmpty
  | messages values => !values.isEmpty

end FieldData

namespace FieldDescriptor

/-- A field that nothing is set in. -/
def emptyData (fds : FieldDescriptor) : FieldData :=
  if fds.cppType = .message then .messages [] else .scalars []

/-- The value of a field that nothing is set in. -/
def defaultValue (fds : FieldDescriptor) : Scalar :=
  match fds.cppType with
  | .bool => .bool false
  | .string => .string []
  | .int32 | .int64 | .uint32 | .uint64 | .enum | .message => .int 0

/-- What is kept of a value that is set: a field without presence does not keep its default. -/
def stored (fds : FieldDescriptor) (v : Scalar) : List Scalar :=
  if fds.hasPresence = false ∧ v = fds.defaultValue then [] else [v]

end FieldDescriptor

/-- A new message. -/
def emptyMessage (fdss : List FieldDescriptor) : Message := fdss.map FieldDescriptor.emptyData

/-- Set a field that is not repeated, which clears the other members of its oneof. -/
def setField (fdss : List FieldDescriptor) (m : Message) (fds : FieldDescriptor) (i : Nat)
    (d : FieldData) : Message :=
  let cleared :=
    match fds.containingOneof with
    | none => m
    | some oneof => List.zipWith
      (fun (other : FieldDescriptor) d =>
        if other.containingOneof = some oneof then other.emptyData else d) fdss m
  cleared.set i d

/-- The key of an entry of a map, empty for the default. -/
def entryKey : Message → List Scalar
  | .scalars key :: _ => key
  | _ => []

/-- Put an entry into a map. -/
def insertEntry (entries : List Message) (entry : Message) : List Message :=
  if ∃ e ∈ entries, entryKey e = entryKey entry then
    entries.map fun e => if entryKey e = entryKey entry then entry else e
  else entries ++ [entry]

/-- `AddMessage`. Of the entries that are added to a map the last one with a key counts. -/
def addMessage (fds : FieldDescriptor) (values : List Message) (m : Message) : List Message :=
  if fds.isMap then insertEntry values m else values ++ [m]

/-! ## Options -/

/-- `rapidjson_loader_string_mode` -/
inductive StringMode where
  | raw
  | uri
  | uriComponent
  deriving DecidableEq, Repr

/-- `rapidjson_loader_load_options`, with `reserve_empty` off. -/
structure LoadOptions where
  convertLargeNumberToString : Bool := false
  stringMode : StringMode := .raw

/-- `rapidjson_loader_dump_options` -/
structure DumpOptions where
  stringMode : StringMode := .raw
  convertNumberFromString : Bool := true

/-- The text functions of the utility library. `str2int` is given the type of the variable, which
    holds zero. -/
structure TextFunctions where
  encodeUri : Bytes → Bytes
  decodeUri : Bytes → Bytes
  encodeUriComponent : Bytes → Bytes
  decodeUriComponent : Bytes → Bytes
  int2str : Int → Bytes
  str2int : CppType → Bytes → Int

/-- The range of an integer type; an enum has the numbers of an `int32_t`. -/
def inRange : CppType → Int → Bool
  | .int32, n | .enum, n => -2 ^ 31 ≤ n ∧ n < 2 ^ 31
  | .int64, n => -2 ^ 63 ≤ n ∧ n < 2 ^ 63
  | .uint32, n => 0 ≤ n ∧ n < 2 ^ 32
  | .uint64, n => 0 ≤ n ∧ n < 2 ^ 64
  | .bool, _ | .string, _ | .message, _ => false

/-- Decoding inverts encoding, and reading inverts formatting. -/
structure TextFunctions.Lawful (f : TextFunctions) : Prop where
  uri : ∀ s, f.decodeUri (f.encodeUri s) = s
  uriComponent : ∀ s, f.decodeUriComponent (f.encodeUriComponent s) = s
  int : ∀ type n, inRange type n = true → f.str2int type (f.int2str n) = n

/-! ## The writer -/

section Writer

variable (f : TextFunctions) (options : LoadOptions)

/-- `load_field_string_filter` -/
def loadFieldStringFilter (input : Bytes) : Json :=
  match options.stringMode with
  | .uri => .string (f.encodeUri input)
  | .uriComponent => .string (f.encodeUriComponent input)
  | .raw => .string input

/-- `std::numeric_limits<int32_t>::max()` -/
def int32Max : Int := 2 ^ 31 - 1

/-- The value of a scalar field, as `load_map_field_item` and `load_field_item` write it; the
    elements of a repeated field are written in the same way. -/
def loadScalar (type : CppType) : Scalar → Json
  | .int n =>
    match type with
    | .int64 | .uint32 | .uint64 =>
      if options.convertLargeNumberToString ∧ int32Max < n then .string (f.int2str n) else .int n
    | _ => .int n
  | .bool b => .bool b
  | .string s => loadFieldStringFilter f options s

/-- `load_field_item_to_map_string` -/
def loadFieldItemToMapString (type : CppType) : Scalar → Bytes
  | .int n =>
    match type with
    | .int32 | .uint32 | .int64 | .uint64 | .enum => f.int2str n
    | _ => []
  | _ => []

/-- `rapidjson_loader_mutable_set_member` -/
def mutableSetMember (members : List (Bytes × Json)) (key : Bytes) (val : Json) :
    List (Bytes × Json) :=
  if key ∈ members.map Prod.fst then
    members.map fun member => if member.1 = key then (key, val) else member
  else members ++ [(key, val)]

/-- One round of the loop over a map, with the texts of the key and the value of the entry. -/
def loadMapEntry (keyFds : FieldDescriptor) (members : List (Bytes × Json)) (key : Scalar)
    (objKey objValue : Json) : List (Bytes × Json) :=
  match objKey, objValue with
  | .null, _ | _, .null => members
  | .string name, _ => mutableSetMember members name objValue
  | _, _ => mutableSetMember members (loadFieldItemToMapString f keyFds.cppType key) objValue

/-- The members of the object of a map, from what is written for the fields of its entries. -/
def loadMap (keyFds : FieldDescriptor) (entries : List Message) (items : List (List Json)) :
    List (Bytes × Json) :=
  (entries.zip items).foldl (fun members (entry, item) =>
    match item with
    | [objKey, objValue] =>
      loadMapEntry f keyFds members ((entryKey entry).headD keyFds.defaultValue) objKey objValue
    | _ => members) []

/-- `ListFields`: the fields in which something is set, by number. -/
def listFields {α : Type} (fdss : List FieldDescriptor) (m : Message) (items : List α) :
    List (FieldDescriptor × α) :=
  (((fdss.zip (m.zip items)).filter fun (_, d, _) => d.isSet).map
    fun (fds, _, item) => (fds, item)).insertionSort fun a b => a.1.number ≤ b.1.number

/-- The fields of a message, from what is written for each of them. -/
def loadFields (fdss : List FieldDescriptor) (m : Message) (items : List Json) : Json :=
  .object ((listFields fdss m items).foldl
    (fun members (fds, item) => mutableSetMember members fds.name item) [])

/-- The branch of `load_field_item` for messages, from what is written for their fields. -/
def loadMessages (pool : DescriptorPool) (fds : FieldDescriptor) (values : List Message)
    (items : List (List Json)) : Json :=
  let fdss := pool.fields fds.messageType
  if fds.isMap then
    match fdss with
    | [keyFds, _] => .object (loadMap f keyFds values items)
    | _ => .null
  else if fds.isRepeated then .array (List.zipWith (loadFields fdss) values items)
  else (List.zipWith (loadFields fdss) values items).headD (.object [])

mutual

/-- `load_field_item`: what is written for a field. -/
def loadFieldItem (pool : DescriptorPool) (fds : FieldDescriptor) : FieldData → Json
  | .scalars values =>
    if fds.isRepeated then .array (values.map (loadScalar f options fds.cppType))
    else loadScalar f options fds.cppType (values.headD fds.defaultValue)
  | .messages values =>
    loadMessages f pool fds values (loadItemsOfAll pool (pool.fields fds.messageType) values)

/-- What is written for the fields of a message. -/
def loadItems (pool : DescriptorPool) : List FieldDescriptor → Message → List Json
  | fds :: fdss, d :: ds => loadFieldItem pool fds d :: loadItems pool fdss ds
  | _, _ => []

/-- What is written for the fields of each message of a list. -/
def loadItemsOfAll (pool : DescriptorPool) (fdss : List FieldDescriptor) :
    List Message → List (List Json)
  | [] => []
  | m :: ms => loadItems pool fdss m :: loadItemsOfAll pool fdss ms

end

/-- `rapidjson_loader_load_from` into an empty document. -/
def rapidjsonLoaderLoadFrom (pool : DescriptorPool) (t : Nat) (m : Message) : Json :=
  loadFields (pool.fields t) m (loadItems f options pool (pool.fields t) m)

end Writer

/-! ## The reader -/

section Reader

variable (f : TextFunctions) (options : DumpOptions)

/-- `dump_pick_field_string_filter` -/
def dumpPickFieldStringFilter : Json → Bytes
  | .string s =>
    match options.stringMode with
    | .uri => f.decodeUri s
    | .uriComponent => f.decodeUriComponent s
    | .raw => s
  | _ => []

/-- The number that is read for an integer type. -/
def dumpInt (type : CppType) : Json → Int
  | .int n => if inRange type n then n else 0
  | .string s => if options.convertNumberFromString then f.str2int type s else 0
  | _ => 0

/-- The value that `dump_pick_field` sets in a scalar field or adds to it. An enum without the
    number is left alone. -/
def dumpScalar (fds : FieldDescriptor) (val : Json) : Option Scalar :=
  match fds.cppType with
  | .int32 | .int64 | .uint32 | .uint64 => some (.int (dumpInt f options fds.cppType val))
  | .string => some (.string (dumpPickFieldStringFilter f options val))
  | .bool => some (.bool (val.bool?.getD false))
  | .enum =>
    let number := match val with
      | .int n => if inRange .int32 n then n else 0
      | _ => 0
    if number ∈ fds.enumNumbers then some (.int number) else none
  | .message => none

/-- `dump_pick_field` on the field with an index, with the function that reads sub-messages. -/
def dumpPickField (pool : DescriptorPool) (dumpTo : Nat → Json → Message → Message)
    (fdss : List FieldDescriptor) (val : Json) (dst : Message) (fds : FieldDescriptor) (i : Nat) :
    Message :=
  match dst[i]? with
  | some (.messages values) =>
    match val with
    | .object _ =>
      let fresh := emptyMessage (pool.fields fds.messageType)
      if fds.isRepeated then
        dst.set i (.messages (addMessage fds values (dumpTo fds.messageType val fresh)))
      else
        setField fdss dst fds i (.messages [dumpTo fds.messageType val (values.headD fresh)])
    | _ => dst
  | some (.scalars values) =>
    match dumpScalar f options fds val with
    | none => dst
    | some v =>
      if fds.isRepeated then dst.set i (.scalars (values ++ [v]))
      else setField fdss dst fds i (.scalars (fds.stored v))
  | none => dst

/-- The entry of a map that is read from a member of an object. -/
def dumpEntry (pool : DescriptorPool) (dumpTo : Nat → Json → Message → Message)
    (keyFds valueFds : FieldDescriptor) (member : Bytes × Json) : Message :=
  let entry := emptyMessage [keyFds, valueFds]
  let entry := dumpPickField f options pool dumpTo [keyFds, valueFds] (.string member.1) entry keyFds 0
  dumpPickField f options pool dumpTo [keyFds, valueFds] member.2 entry valueFds 1

/-- `dump_field_item_map` -/
def dumpFieldItemMap (pool : DescriptorPool) (dumpTo : Nat → Json → Message → Message)
    (members : List (Bytes × Json)) (dst : Message) (fds : FieldDescriptor) (i : Nat) : Message :=
  if fds.cppType = .message ∧ fds.isMap then
    match pool.fields fds.messageType, dst[i]? with
    | [keyFds, valueFds], some (.messages values) =>
      dst.set i (.messages (members.foldl (fun values member =>
        addMessage fds values (dumpEntry f options pool dumpTo keyFds valueFds member)) values))
    | _, _ => dst
  else dst

/-- `dump_field_item` -/
def dumpFieldItem (pool : DescriptorPool) (dumpTo : Nat → Json → Message → Message)
    (fdss : List FieldDescriptor) (src : Json) (dst : Message) (fds : FieldDescriptor) (i : Nat) :
    Message :=
  match src with
  | .object members =>
    match members.lookup fds.name with
    | none => dst
    | some val =>
      if fds.isRepeated then
        match val with
        | .object members => dumpFieldItemMap f options pool dumpTo members dst fds i
        | .array items => items.foldl
          (fun dst item => dumpPickField f options pool dumpTo fdss item dst fds i) dst
        | _ => dst
      else
        match val with
        | .array _ => dst
        | _ => dumpPickField f options pool dumpTo fdss val dst fds i
  | _ => dst

/-- `rapidjson_loader_dump_to`, with a bound on the nesting of the document. -/
def dumpTo (pool : DescriptorPool) : Nat → Nat → Json → Message → Message
  | 0, _, _, dst => dst
  | depth + 1, t, src, dst =>
    (pool.fields t).zipIdx.foldl (fun dst (fds, i) =>
      dumpFieldItem f options pool (dumpTo pool depth) (pool.fields t) src dst fds i) dst

mutual

/-- How deep a document is nested. -/
def depth : Json → Nat
  | .array items => depthOfItems items + 1
  | .object members => depthOfMembers members + 1
  | .null | .bool _ | .int _ | .double | .string _ => 1

def depthOfItems : List Json → Nat
  | [] => 0
  | item :: items => max (depth item) (depthOfItems items)

def depthOfMembers : List (Bytes × Json) → Nat
  | [] => 0
  | (_, item) :: members => max (depth item) (depthOfMembers members)

end

/-- `rapidjson_loader_dump_to` -/
def rapidjsonLoaderDumpTo (pool : DescriptorPool) (t : Nat) (src : Json) (dst : Message) : Message :=
  dumpTo f options pool (depth src) t src dst

end Reader

end LibAtapp.Rapidjson
