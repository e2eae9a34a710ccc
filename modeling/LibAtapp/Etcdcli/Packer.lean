import LibAtapp.Protocol

set_option autoImplicit false

/-! # Packing and unpacking etcd messages

The parts of `etcd_packer` that read the answers of etcd and that build key ranges. A parsed
document is a `Json` tree. The accessors of rapidjson assert that they are applied to a value of
the right type; here such an assertion is the `none` of the `Option` monad. The JSON text parser,
the integer parser and the base64 decoder are third-party code, so they are the fields of a
`TextCodec`. -/

namespace LibAtapp

/-! ## JSON values -/

/-- A `rapidjson::Value`. A number is an integer or a `double`; no code here reads the value of
    a `double`. -/
inductive Json where
  | null
  | bool (b : Bool)
  | int (n : Int)
  | double
  | string (s : Bytes)
  | array (items : List Json)
  | object (members : List (Bytes × Json))

/-- The third-party text functions that the unpacking code calls. -/
structure TextCodec where
  /-- `Document::Parse` of a C string: the document, null after a parse error. -/
  parse : Bytes → Json
  /-- `string::str2int` into an `int64_t` variable that holds the first argument. -/
  str2int64 : Int → Bytes → Int
  /-- `string::str2int` into a `uint64_t` variable that holds the first argument. -/
  str2uint64 : Nat → Bytes → Nat
  /-- `string::str2int` into an `int` variable that holds the first argument. -/
  str2int32 : Int → Bytes → Int
  /-- `base64_decode` into a string that holds the first argument: the string after the call and
      whether the result is zero. -/
  base64Decode : Bytes → Bytes → Bytes × Bool

namespace Json

/-- `IsInt64` with `GetInt64`. -/
def int64? : Json → Option Int
  | int n => if -2 ^ 63 ≤ n ∧ n < 2 ^ 63 then some n else none
  | _ => none

/-- `IsUint64` with `GetUint64`. -/
def uint64? : Json → Option Nat
  | int n => if 0 ≤ n ∧ n < 2 ^ 64 then some n.toNat else none
  | _ => none

/-- `IsBool` with `GetBool`. -/
def bool? : Json → Option Bool
  | bool b => some b
  | _ => none

/-- `IsString` with `GetString`, which callers read as a C string. -/
def string? : Json → Option Bytes
  | string s => some (cString s)
  | _ => none

/-- `IsNumber`. -/
def isNumber : Json → Bool
  | int _ => true
  | double => true
  | _ => false

/-- `FindMember`: the first member with the name, if there is one. It asserts an object. -/
def findMember (json : Json) (name : Bytes) : Option (Option Json) :=
  match json with
  | object members => some (members.lookup name)
  | _ => none

end Json

/-! ## Messages of etcd -/

/-- `etcd_response_header`. -/
structure EtcdResponseHeader where
  clusterId : Nat := 0
  memberId : Nat := 0
  revision : Int := 0
  raftTerm : Nat := 0
  deriving DecidableEq, Repr

/-- `etcd_key_value`. -/
structure EtcdKeyValue where
  key : Bytes := []
  createRevision : Int := 0
  modRevision : Int := 0
  version : Int := 0
  value : Bytes := []
  lease : Int := 0
  deriving DecidableEq, Repr

/-- `etcd_watch_event`. -/
inductive EtcdWatchEvent where
  | put
  | delete
  deriving DecidableEq, Repr

namespace EtcdPacker

variable (codec : TextCodec)

/-- `parse_object`: the document, when it is an object. -/
def parseObject (data : Bytes) : Option Json :=
  match codec.parse (cString data) with
  | .object members => some (.object members)
  | _ => none

/-- One signed field of the two `unpack` functions: an integer, a string read as one, else 0. -/
def unpackInt64Field (json : Json) (name : Bytes) (out : Int) : Option Int := do
  match ← json.findMember name with
  | none => return 0
  | some value =>
    match value.int64?, value.string? with
    | some n, _ => return n
    | none, some text => return codec.str2int64 out text
    | none, none => return 0

/-- One unsigned field of `unpack(etcd_response_header)`. -/
def unpackUint64Field (json : Json) (name : Bytes) (out : Nat) : Option Nat := do
  match ← json.findMember name with
  | none => return 0
  | some value =>
    match value.uint64?, value.string? with
    | some n, _ => return n
    | none, some text => return codec.str2uint64 out text
    | none, none => return 0

/-- `unpack_base64`: the string after the call and the result. -/
def unpackBase64 (json : Json) (name out : Bytes) : Option (Bytes × Bool) := do
  match ← json.findMember name with
  | none => return (out, false)
  | some value =>
    match value.string? with
    | none => return (out, false)
    | some text => return codec.base64Decode out text

/-- `unpack(etcd_key_value)`. -/
def unpackKeyValue (kv : EtcdKeyValue) (json : Json) : Option EtcdKeyValue := do
  let createRevision ← unpackInt64Field codec json (ascii "create_revision") kv.createRevision
  let modRevision ← unpackInt64Field codec json (ascii "mod_revision") kv.modRevision
  let version ← unpackInt64Field codec json (ascii "version") kv.version
  let lease ← unpackInt64Field codec json (ascii "lease") kv.lease
  let (key, _) ← unpackBase64 codec json (ascii "key") kv.key
  let (value, _) ← unpackBase64 codec json (ascii "value") kv.value
  return { key, createRevision, modRevision, version, value, lease }

/-- `unpack(etcd_response_header)`. -/
def unpackHeader (header : EtcdResponseHeader) (json : Json) : Option EtcdResponseHeader := do
  let clusterId ← unpackUint64Field codec json (ascii "cluster_id") header.clusterId
  let memberId ← unpackUint64Field codec json (ascii "member_id") header.memberId
  let revision ← unpackInt64Field codec json (ascii "revision") header.revision
  let raftTerm ← unpackUint64Field codec json (ascii "raft_term") header.raftTerm
  return { clusterId, memberId, revision, raftTerm }

/-- `unpack_int` into an `int64_t`: a member of another type leaves the variable as it is. -/
def unpackInt64 (json : Json) (name : Bytes) (out : Int) : Option Int := do
  match ← json.findMember name with
  | none => return 0
  | some value =>
    match value.int64?, value.string? with
    | some n, _ => return n
    | none, some text => return codec.str2int64 out text
    | none, none => return out

/-- `unpack_int` into a `uint64_t`. -/
def unpackUint64 (json : Json) (name : Bytes) (out : Nat) : Option Nat := do
  match ← json.findMember name with
  | none => return 0
  | some value =>
    match value.uint64?, value.string? with
    | some n, _ => return n
    | none, some text => return codec.str2uint64 out text
    | none, none => return out

/-- `unpack_bool`: also an integer or a string with an integer, read as "not zero". -/
def unpackBool (json : Json) (name : Bytes) (out : Bool) : Option Bool := do
  match ← json.findMember name with
  | none => return false
  | some value =>
    match value.bool?, value.uint64?, value.int64?, value.string? with
    | some b, _, _, _ => return b
    | none, some n, _, _ => return n != 0
    | none, none, some n, _ => return n != 0
    | none, none, none, some text => return codec.str2int32 1 text != 0
    | none, none, none, none => return out

end EtcdPacker

end LibAtapp
