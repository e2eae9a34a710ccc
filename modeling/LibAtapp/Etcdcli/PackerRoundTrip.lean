import LibAtapp.Etcdcli.Packer

set_option autoImplicit false

/-! # Packing and unpacking again

`pack` leaves out every field that is zero or empty. `unpack` sets a number to zero where its member
is missing, but it does not touch a text, so an empty key or value leaves the old one in the target.
The base64 encoder is third-party code like the decoder of a `TextCodec`. -/

namespace LibAtapp

namespace EtcdPacker

/-! ## Packing -/

/-- `AddMember` of a number that is not zero. -/
def addInt (name : String) (n : Int) (members : List (Bytes × Json)) : List (Bytes × Json) :=
  if n ≠ 0 then members ++ [(ascii name, .int n)] else members

/-- `pack_base64` of a text that is not empty. -/
def packBase64 (encode : Bytes → Bytes) (name : String) (val : Bytes)
    (members : List (Bytes × Json)) : List (Bytes × Json) :=
  if val ≠ [] then members ++ [(ascii name, .string (encode val))] else members

/-- `pack(etcd_key_value)` into an object with the given members. -/
def packKeyValue (encode : Bytes → Bytes) (kv : EtcdKeyValue) (members : List (Bytes × Json)) :
    List (Bytes × Json) :=
  let members := addInt "create_revision" kv.createRevision members
  let members := addInt "mod_revision" kv.modRevision members
  let members := addInt "version" kv.version members
  let members := addInt "lease" kv.lease members
  let members := packBase64 encode "key" kv.key members
  packBase64 encode "value" kv.value members

/-- `pack(etcd_response_header)` into an object with the given members. -/
def packHeader (header : EtcdResponseHeader) (members : List (Bytes × Json)) :
    List (Bytes × Json) :=
  let members := addInt "cluster_id" header.clusterId members
  let members := addInt "member_id" header.memberId members
  let members := addInt "revision" header.revision members
  addInt "raft_term" header.raftTerm members

/-! ## Unpacking what was packed -/

theorem lookup_addInt (key : Bytes) (name : String) (n : Int) (members : List (Bytes × Json)) :
    (addInt name n members).lookup key
      = (members.lookup key).or (if key = ascii name ∧ n ≠ 0 then some (.int n) else none) := by
  unfold addInt
  by_cases hn : n ≠ 0
  · rw [if_pos hn, List.lookup_append]
    by_cases hkey : key = ascii name
    · simp [hkey, hn]
    · simp [hkey, List.lookup_cons, beq_false_of_ne hkey]
  · rw [if_neg hn, if_neg fun h => hn h.2, Option.or_none]

theorem lookup_packBase64 (key : Bytes) (encode : Bytes → Bytes) (name : String) (val : Bytes)
    (members : List (Bytes × Json)) :
    (packBase64 encode name val members).lookup key = (members.lookup key).or
      (if key = ascii name ∧ val ≠ [] then some (.string (encode val)) else none) := by
  unfold packBase64
  by_cases hval : val ≠ []
  · rw [if_pos hval, List.lookup_append]
    by_cases hkey : key = ascii name
    · simp [hkey, hval]
    · simp [hkey, List.lookup_cons, beq_false_of_ne hkey]
  · rw [if_neg hval, if_neg fun h => hval h.2, Option.or_none]

section Fields

variable (codec : TextCodec) {members : List (Bytes × Json)} {name : Bytes}

theorem unpackInt64Field_of_int64 {value : Json} {n : Int} (out : Int)
    (h : members.lookup name = some value) (hvalue : value.int64? = some n) :
    unpackInt64Field codec (.object members) name out = some n := by
  simp [unpackInt64Field, Json.findMember, h, hvalue]

theorem unpackUint64Field_of_uint64 {value : Json} {n : Nat} (out : Nat)
    (h : members.lookup name = some value) (hvalue : value.uint64? = some n) :
    unpackUint64Field codec (.object members) name out = some n := by
  simp [unpackUint64Field, Json.findMember, h, hvalue]

/-- A number that is packed is read back, also where zero is left out. -/
theorem unpackInt64Field_packed {n : Int} (out : Int) (hrange : -2 ^ 63 ≤ n ∧ n < 2 ^ 63)
    (h : members.lookup name = if n ≠ 0 then some (.int n) else none) :
    unpackInt64Field codec (.object members) name out = some n := by
  by_cases hn : n = 0
  · rw [if_neg (not_not.2 hn)] at h
    simp [unpackInt64Field, Json.findMember, h, hn]
  · rw [if_pos hn] at h
    exact unpackInt64Field_of_int64 codec out h (if_pos hrange)

theorem unpackUint64Field_packed {n : Nat} (out : Nat) (hrange : n < 2 ^ 64)
    (h : members.lookup name = if (n : Int) ≠ 0 then some (.int n) else none) :
    unpackUint64Field codec (.object members) name out = some n := by
  by_cases hn : (n : Int) = 0
  · rw [if_neg (not_not.2 hn)] at h
    have hzero : n = 0 := by omega
    simp [unpackUint64Field, Json.findMember, h, hzero]
  · rw [if_pos hn] at h
    refine unpackUint64Field_of_uint64 codec out h ?_
    have hlt : (n : Int) < 2 ^ 64 := by omega
    simp only [Json.uint64?, hlt, Int.natCast_nonneg, and_self, if_true, Int.toNat_natCast]

/-- A text that is packed is read back; an empty one is not packed, and the target stays. -/
theorem unpackBase64_packed {encode : Bytes → Bytes} {val : Bytes} (out : Bytes)
    (hdecode : ∀ out, codec.base64Decode out (cString (encode val)) = (val, true))
    (h : members.lookup name = if val ≠ [] then some (.string (encode val)) else none) :
    unpackBase64 codec (.object members) name out
      = some (if val = [] then (out, false) else (val, true)) := by
  by_cases hval : val = []
  · rw [if_neg (not_not.2 hval)] at h
    simp [unpackBase64, Json.findMember, h, hval]
  · rw [if_pos hval] at h
    simp [unpackBase64, Json.findMember, h, Json.string?, hval, hdecode]

end Fields

/-! ## The round trip -/

/-- The fields hold `uint64_t` and `int64_t` values. -/
structure HeaderTyped (header : EtcdResponseHeader) : Prop where
  clusterId : header.clusterId < 2 ^ 64
  memberId : header.memberId < 2 ^ 64
  revision : -2 ^ 63 ≤ header.revision ∧ header.revision < 2 ^ 63
  raftTerm : header.raftTerm < 2 ^ 64

/-- The fields hold `int64_t` values. -/
structure KeyValueTyped (kv : EtcdKeyValue) : Prop where
  createRevision : -2 ^ 63 ≤ kv.createRevision ∧ kv.createRevision < 2 ^ 63
  modRevision : -2 ^ 63 ≤ kv.modRevision ∧ kv.modRevision < 2 ^ 63
  version : -2 ^ 63 ≤ kv.version ∧ kv.version < 2 ^ 63
  lease : -2 ^ 63 ≤ kv.lease ∧ kv.lease < 2 ^ 63

/-- A header comes back whatever the target held. -/
theorem unpackHeader_packed (codec : TextCodec) {header : EtcdResponseHeader}
    (htyped : HeaderTyped header) (target : EtcdResponseHeader) :
    unpackHeader codec target (.object (packHeader header [])) = some header := by
  have hcluster : (packHeader header []).lookup (ascii "cluster_id")
      = if (header.clusterId : Int) ≠ 0 then some (.int header.clusterId) else none := by
    simp +decide [packHeader, lookup_addInt]
  have hmember : (packHeader header []).lookup (ascii "member_id")
      = if (header.memberId : Int) ≠ 0 then some (.int header.memberId) else none := by
    simp +decide [packHeader, lookup_addInt]
  have hrevision : (packHeader header []).lookup (ascii "revision")
      = if header.revision ≠ 0 then some (.int header.revision) else none := by
    simp +decide [packHeader, lookup_addInt]
  have hraft : (packHeader header []).lookup (ascii "raft_term")
      = if (header.raftTerm : Int) ≠ 0 then some (.int header.raftTerm) else none := by
    simp +decide [packHeader, lookup_addInt]
  simp [unpackHeader, unpackUint64Field_packed codec _ htyped.clusterId hcluster,
    unpackUint64Field_packed codec _ htyped.memberId hmember,
    unpackInt64Field_packed codec _ htyped.revision hrevision,
    unpackUint64Field_packed codec _ htyped.raftTerm hraft]

/-- A key and value come back with all numbers, but where a text is empty it is that of the
    target. -/
theorem unpackKeyValue_packed (codec : TextCodec) {encode : Bytes → Bytes} {kv : EtcdKeyValue}
    (htyped : KeyValueTyped kv) (target : EtcdKeyValue)
    (hdecode : ∀ val ∈ [kv.key, kv.value], ∀ out,
      codec.base64Decode out (cString (encode val)) = (val, true)) :
    unpackKeyValue codec target (.object (packKeyValue encode kv []))
      = some { kv with
          key := if kv.key = [] then target.key else kv.key
          value := if kv.value = [] then target.value else kv.value } := by
  have hcreate : (packKeyValue encode kv []).lookup (ascii "create_revision")
      = if kv.createRevision ≠ 0 then some (.int kv.createRevision) else none := by
    simp +decide [packKeyValue, lookup_addInt, lookup_packBase64]
  have hmod : (packKeyValue encode kv []).lookup (ascii "mod_revision")
      = if kv.modRevision ≠ 0 then some (.int kv.modRevision) else none := by
    simp +decide [packKeyValue, lookup_addInt, lookup_packBase64]
  have hversion : (packKeyValue encode kv []).lookup (ascii "version")
      = if kv.version ≠ 0 then some (.int kv.version) else none := by
    simp +decide [packKeyValue, lookup_addInt, lookup_packBase64]
  have hlease : (packKeyValue encode kv []).lookup (ascii "lease")
      = if kv.lease ≠ 0 then some (.int kv.lease) else none := by
    simp +decide [packKeyValue, lookup_addInt, lookup_packBase64]
  have hkey : (packKeyValue encode kv []).lookup (ascii "key")
      = if kv.key ≠ [] then some (.string (encode kv.key)) else none := by
    simp +decide [packKeyValue, lookup_addInt, lookup_packBase64]
  have hvalue : (packKeyValue encode kv []).lookup (ascii "value")
      = if kv.value ≠ [] then some (.string (encode kv.value)) else none := by
    simp +decide [packKeyValue, lookup_addInt, lookup_packBase64]
  have hkeyText := unpackBase64_packed codec target.key (hdecode kv.key (by simp)) hkey
  have hvalueText := unpackBase64_packed codec target.value (hdecode kv.value (by simp)) hvalue
  simp only [unpackKeyValue, unpackInt64Field_packed codec _ htyped.createRevision hcreate,
    unpackInt64Field_packed codec _ htyped.modRevision hmod,
    unpackInt64Field_packed codec _ htyped.version hversion,
    unpackInt64Field_packed codec _ htyped.lease hlease, hkeyText, hvalueText,
    Option.bind_eq_bind, Option.bind_some, Option.pure_def]
  split_ifs <;> rfl

/-- **The round trip**: a header always comes back, and a key and value come back exactly where the
    target has no text that an empty one would have to replace. -/
theorem unpack_pack_iff (codec : TextCodec) (encode : Bytes → Bytes) {header : EtcdResponseHeader}
    {kv : EtcdKeyValue} (hheader : HeaderTyped header) (hkv : KeyValueTyped kv)
    (hdecode : ∀ val ∈ [kv.key, kv.value], ∀ out,
      codec.base64Decode out (cString (encode val)) = (val, true))
    (headerTarget : EtcdResponseHeader) (target : EtcdKeyValue) :
    (unpackHeader codec headerTarget (.object (packHeader header [])) = some header ∧
      unpackKeyValue codec target (.object (packKeyValue encode kv [])) = some kv) ↔
    (kv.key = [] → target.key = []) ∧ (kv.value = [] → target.value = []) := by
  rw [unpackHeader_packed codec hheader, unpackKeyValue_packed codec hkv target hdecode]
  simp only [true_and, Option.some.injEq]
  constructor
  · intro h
    have hkey := congrArg EtcdKeyValue.key h
    have hvalue := congrArg EtcdKeyValue.value h
    refine ⟨fun hempty => ?_, fun hempty => ?_⟩
    · dsimp only at hkey
      rw [if_pos hempty] at hkey
      exact hkey.trans hempty
    · dsimp only at hvalue
      rw [if_pos hempty] at hvalue
      exact hvalue.trans hempty
  · rintro ⟨hkey, hvalue⟩
    have hsame : ∀ {text old : Bytes}, (text = [] → old = []) →
        (if text = [] then old else text) = text := by
      intro text old h
      split_ifs with hempty
      · rw [hempty, h hempty]
      · rfl
    rw [hsame hkey, hsame hvalue]

/-- The base64 texts of `k` and `v` and nothing else. -/
def sampleCodec : TextCodec where
  parse _ := .null
  str2int64 n _ := n
  str2uint64 n _ := n
  str2int32 n _ := n
  base64Decode out text :=
    if text = ascii "aw==" then (ascii "k", true)
    else if text = ascii "dg==" then (ascii "v", true)
    else if text = [] then ([], true)
    else (out, false)

def sampleEncode (val : Bytes) : Bytes :=
  if val = ascii "k" then ascii "aw==" else if val = ascii "v" then ascii "dg==" else []

theorem unpack_pack_sample :
    (unpackHeader sampleCodec { revision := 7 } (.object (packHeader { revision := 3 } []))
        = some { revision := 3 } ∧
      unpackKeyValue sampleCodec { key := ascii "old", value := ascii "old" }
          (.object (packKeyValue sampleEncode { key := ascii "k", value := ascii "v" } []))
        = some { key := ascii "k", value := ascii "v" }) := by
  refine (unpack_pack_iff sampleCodec sampleEncode ⟨by decide, by decide, by decide, by decide⟩
    ⟨by decide, by decide, by decide, by decide⟩ ?_ { revision := 7 }
    { key := ascii "old", value := ascii "old" }).2 ⟨by decide, by decide⟩
  intro val hval out
  obtain rfl | hval := List.mem_cons.1 hval
  · simp +decide [sampleCodec]
  · rw [List.mem_singleton.1 hval]
    simp +decide [sampleCodec]

/-- An empty value leaves the old value of the target. -/
theorem not_unpack_pack_emptyValue :
    ¬ unpackKeyValue sampleCodec { value := ascii "old" }
        (.object (packKeyValue sampleEncode { key := ascii "k" } []))
      = some { key := ascii "k" } := by
  decide

end EtcdPacker

end LibAtapp
