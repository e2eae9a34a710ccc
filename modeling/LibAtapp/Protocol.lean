import Mathlib.Algebra.Ring.Int.Defs
import Mathlib.Algebra.Ring.Nat
import Mathlib.Data.List.Lex
import Mathlib.Data.List.Sort
import Mathlib.Data.Fin.Basic

set_option autoImplicit false

/-! # The protocol messages of service discovery

The messages of `atapp_conf.proto` that the discovery code stores, compares and hashes, with the
two comparisons the code makes on them: `protobufEqual` on whole discovery infos and
`AtappMetadata.filter` of a routing rule against a node. `std::string` is a byte string, so texts
are lists of bytes ordered lexicographically, as `std::string::operator<` orders them. Unsigned
and signed machine integers that are only stored and compared are `Nat` and `Int`. -/

namespace LibAtapp

/-- One `unsigned char`. -/
abbrev Byte := Fin 256

/-- A `std::string`. -/
abbrev Bytes := List Byte

instance byteSize_neZero : NeZero 256 := ⟨by decide⟩

instance : LawfulBEq Byte := inferInstance

instance : LawfulBEq Bytes := inferInstance

/-- The bytes of a string literal of the source, all of them ASCII. -/
def ascii (text : String) : Bytes := text.toList.map (fun c => Fin.ofNat 256 c.toNat)

/-- A number in decimal, as `{}` formats it. -/
def decimal (n : Nat) : Bytes := (Nat.toDigits 10 n).map (fun c => Fin.ofNat 256 c.toNat)

/-- The decimal digits are the bytes from `0` to `9`. -/
theorem digit_of_mem_decimal {n : Nat} {c : Byte} (h : c ∈ decimal n) : 0x30 ≤ c ∧ c ≤ 0x39 := by
  obtain ⟨d, hd, rfl⟩ := List.mem_map.1 h
  have hdigit := Nat.isDigit_of_mem_toDigits (by decide) (by decide) hd
  simp only [Char.isDigit, Bool.and_eq_true, decide_eq_true_eq, ge_iff_le,
    UInt32.le_iff_toNat_le] at hdigit
  obtain ⟨hlow, hhigh⟩ := hdigit
  have hlow' : 48 ≤ d.toNat := hlow
  have hhigh' : d.toNat ≤ 57 := hhigh
  simp only [Fin.le_def, Fin.val_ofNat]
  rw [Nat.mod_eq_of_lt (by omega)]
  exact ⟨hlow', hhigh'⟩

/-- The characters of a decimal text. -/
theorem map_ofNat_decimal (n : Nat) :
    (decimal n).map (fun c => Char.ofNat c.val) = Nat.toDigits 10 n := by
  rw [decimal, List.map_map]
  refine (List.map_congr_left fun d hd => ?_).trans (List.map_id _)
  have hdigit := Nat.isDigit_of_mem_toDigits (by decide) (by decide) hd
  simp only [Char.isDigit, Bool.and_eq_true, decide_eq_true_eq, ge_iff_le,
    UInt32.le_iff_toNat_le] at hdigit
  have hhigh : d.toNat ≤ 57 := hdigit.2
  simp only [Function.comp_apply, Fin.val_ofNat, id_eq]
  rw [Nat.mod_eq_of_lt (by omega), Char.ofNat_toNat]

/-- Different numbers have different decimal texts. -/
theorem decimal_inj {n k : Nat} (h : decimal n = decimal k) : n = k := by
  have hdigits : Nat.toDigits 10 n = Nat.toDigits 10 k := by
    rw [← map_ofNat_decimal n, ← map_ofNat_decimal k, h]
  rw [← Nat.ofDigitChars_ten_toDigits (n := n), hdigits, Nat.ofDigitChars_ten_toDigits]

/-- The C string that starts at the first byte: everything before the first NUL. -/
def cString (text : Bytes) : Bytes := text.takeWhile (fun c => decide (c ≠ 0))

/-! ## String maps -/

/-- A `map<string, string>` field: its entries in the order in which reflection enumerates the
    map of this message, the keys pairwise different. -/
structure StringMap where
  entries : List (Bytes × Bytes) := []
  nodupKeys : (entries.map Prod.fst).Nodup := by first | exact List.nodup_nil | simp
  deriving DecidableEq

namespace StringMap

instance : Inhabited StringMap := ⟨{}⟩

/-- `Map::find`: the value of a key. -/
def find (m : StringMap) (key : Bytes) : Option Bytes :=
  m.entries.lookup key

/-- `sort_string_map`: the entries sorted by key. -/
def sortStringMap (m : StringMap) : List (Bytes × Bytes) :=
  m.entries.insertionSort (fun l r => l.1 ≤ r.1)

theorem sortStringMap_perm (m : StringMap) : (m.sortStringMap).Perm m.entries :=
  List.perm_insertionSort _ _

theorem mem_entries_iff_mem_sort (m : StringMap) (kv : Bytes × Bytes) :
    kv ∈ m.entries ↔ kv ∈ m.sortStringMap :=
  (m.sortStringMap_perm.mem_iff).symm

end StringMap

/-! ## Metadata and the rule filter -/

/-- `atapp_metadata`. -/
structure AtappMetadata where
  apiVersion : Bytes := []
  kind : Bytes := []
  group : Bytes := []
  name : Bytes := []
  namespaceName : Bytes := []
  uid : Bytes := []
  serviceSubset : Bytes := []
  labels : StringMap := {}
  deriving DecidableEq

namespace AtappMetadata

/-- `is_empty`: a rule without any condition. -/
def isEmpty (m : AtappMetadata) : Bool :=
  m.apiVersion.isEmpty && m.kind.isEmpty && m.group.isEmpty && m.namespaceName.isEmpty &&
    m.name.isEmpty && m.uid.isEmpty && m.serviceSubset.isEmpty && m.labels.entries.isEmpty

/-- One string test of `metadata_equal_type::filter`: an empty rule field accepts everything. -/
def fieldMatches (rule value : Bytes) : Bool :=
  rule.isEmpty || rule == value

/-- One label test of `metadata_equal_type::filter`: a label with an empty value is skipped. -/
def labelMatches (metadata : AtappMetadata) (label : Bytes × Bytes) : Bool :=
  label.2.isEmpty || metadata.labels.find label.1 == some label.2

/-- `metadata_equal_type::filter`: does a node with this metadata match the rule? -/
def filter (rule metadata : AtappMetadata) : Bool :=
  fieldMatches rule.apiVersion metadata.apiVersion &&
  fieldMatches rule.kind metadata.kind &&
  fieldMatches rule.group metadata.group &&
  fieldMatches rule.namespaceName metadata.namespaceName &&
  fieldMatches rule.name metadata.name &&
  fieldMatches rule.uid metadata.uid &&
  fieldMatches rule.serviceSubset metadata.serviceSubset &&
  rule.labels.entries.all (labelMatches metadata)

/-- `metadata_equal_type::operator()`: all fields equal, the labels compared in key order. -/
def metadataEqual (l r : AtappMetadata) : Bool :=
  l.labels.entries.length == r.labels.entries.length &&
  l.apiVersion == r.apiVersion && l.kind == r.kind && l.group == r.group &&
  l.namespaceName == r.namespaceName && l.name == r.name && l.uid == r.uid &&
  l.serviceSubset == r.serviceSubset &&
  (l.labels.sortStringMap.zip r.labels.sortStringMap).all (fun p => p.1 == p.2)

/-- Two lists of one length whose zipped entries are equal are equal. -/
private theorem eq_of_zip_all_beq {α : Type} [BEq α] [LawfulBEq α] :
    ∀ (l r : List α), l.length = r.length → (l.zip r).all (fun p => p.1 == p.2) = true → l = r := by
  intro l
  induction l with
  | nil =>
      intro r hlen _
      exact (List.length_eq_zero_iff.1 (by simpa using hlen.symm)).symm
  | cons a l ih =>
      intro r hlen hall
      cases r with
      | nil => simp at hlen
      | cons b r =>
          simp only [List.zip_cons_cons, List.all_cons, Bool.and_eq_true, beq_iff_eq] at hall
          obtain ⟨hab, hrest⟩ := hall
          rw [hab, ih r (by simpa using hlen) hrest]

/-- Equal rules are equal field by field, and their labels are the same finite map. -/
theorem metadataEqual_iff (l r : AtappMetadata) :
    metadataEqual l r = true ↔
      l.apiVersion = r.apiVersion ∧ l.kind = r.kind ∧ l.group = r.group ∧
        l.namespaceName = r.namespaceName ∧ l.name = r.name ∧ l.uid = r.uid ∧
        l.serviceSubset = r.serviceSubset ∧ l.labels.sortStringMap = r.labels.sortStringMap := by
  have hlen : ∀ m : AtappMetadata, m.labels.sortStringMap.length = m.labels.entries.length :=
    fun m => m.labels.sortStringMap_perm.length_eq
  constructor
  · intro h
    simp only [metadataEqual, Bool.and_eq_true, beq_iff_eq] at h
    obtain ⟨⟨⟨⟨⟨⟨⟨⟨hn, h1⟩, h2⟩, h3⟩, h4⟩, h5⟩, h6⟩, h7⟩, hz⟩ := h
    refine ⟨h1, h2, h3, h4, h5, h6, h7, eq_of_zip_all_beq _ _ ?_ hz⟩
    rw [hlen, hlen, hn]
  · rintro ⟨h1, h2, h3, h4, h5, h6, h7, hs⟩
    have hn : l.labels.entries.length = r.labels.entries.length := by
      rw [← hlen l, ← hlen r, hs]
    simp only [metadataEqual, Bool.and_eq_true, beq_iff_eq]
    refine ⟨⟨⟨⟨⟨⟨⟨⟨hn, h1⟩, h2⟩, h3⟩, h4⟩, h5⟩, h6⟩, h7⟩, ?_⟩
    rw [hs]
    simp [List.all_eq_true, List.zip_eq_zipWith, List.zipWith_self]

theorem metadataEqual_refl (m : AtappMetadata) : metadataEqual m m = true :=
  (metadataEqual_iff m m).2 ⟨rfl, rfl, rfl, rfl, rfl, rfl, rfl, rfl⟩

theorem metadataEqual_symm {l r : AtappMetadata} (h : metadataEqual l r = true) :
    metadataEqual r l = true := by
  obtain ⟨h1, h2, h3, h4, h5, h6, h7, h8⟩ := (metadataEqual_iff l r).1 h
  exact (metadataEqual_iff r l).2
    ⟨h1.symm, h2.symm, h3.symm, h4.symm, h5.symm, h6.symm, h7.symm, h8.symm⟩

theorem metadataEqual_trans {a b c : AtappMetadata} (hab : metadataEqual a b = true)
    (hbc : metadataEqual b c = true) : metadataEqual a c = true := by
  obtain ⟨h1, h2, h3, h4, h5, h6, h7, h8⟩ := (metadataEqual_iff a b).1 hab
  obtain ⟨k1, k2, k3, k4, k5, k6, k7, k8⟩ := (metadataEqual_iff b c).1 hbc
  exact (metadataEqual_iff a c).2
    ⟨h1.trans k1, h2.trans k2, h3.trans k3, h4.trans k4, h5.trans k5, h6.trans k6, h7.trans k7,
      h8.trans k8⟩

/-- Rules that compare equal accept the same nodes. -/
theorem filter_congr {l r : AtappMetadata} (h : metadataEqual l r = true) (m : AtappMetadata) :
    filter l m = filter r m := by
  obtain ⟨h1, h2, h3, h4, h5, h6, h7, hs⟩ := (metadataEqual_iff l r).1 h
  have hall : l.labels.entries.all (labelMatches m) = r.labels.entries.all (labelMatches m) := by
    rw [Bool.eq_iff_iff, List.all_eq_true, List.all_eq_true]
    constructor
    · intro hl kv hkv
      exact hl kv ((l.labels.mem_entries_iff_mem_sort kv).2
        (hs ▸ (r.labels.mem_entries_iff_mem_sort kv).1 hkv))
    · intro hr kv hkv
      exact hr kv ((r.labels.mem_entries_iff_mem_sort kv).2
        (hs ▸ (l.labels.mem_entries_iff_mem_sort kv).1 hkv))
  simp only [filter, h1, h2, h3, h4, h5, h6, h7, hall]

/-- Rules that compare equal are empty together. -/
theorem isEmpty_congr {l r : AtappMetadata} (h : metadataEqual l r = true) :
    l.isEmpty = r.isEmpty := by
  obtain ⟨h1, h2, h3, h4, h5, h6, h7, hs⟩ := (metadataEqual_iff l r).1 h
  have hlen : l.labels.entries.length = r.labels.entries.length := by
    rw [← l.labels.sortStringMap_perm.length_eq, hs, r.labels.sortStringMap_perm.length_eq]
  have hl : l.labels.entries.isEmpty = r.labels.entries.isEmpty := by
    rw [Bool.eq_iff_iff, List.isEmpty_iff_length_eq_zero, List.isEmpty_iff_length_eq_zero, hlen]
  simp only [isEmpty, h1, h2, h3, h4, h5, h6, h7, hl]

/-- Rules that compare equal compare alike with every third one. -/
theorem metadataEqual_congr_right {l r : AtappMetadata} (h : metadataEqual l r = true)
    (m : AtappMetadata) : metadataEqual m l = metadataEqual m r := by
  rw [Bool.eq_iff_iff]
  exact ⟨fun hl => metadataEqual_trans hl h, fun hr => metadataEqual_trans hr (metadataEqual_symm h)⟩

/-- A rule without conditions accepts every node. -/
theorem filter_of_isEmpty {rule : AtappMetadata} (h : rule.isEmpty = true) (m : AtappMetadata) :
    filter rule m = true := by
  simp only [isEmpty, Bool.and_eq_true, List.isEmpty_iff] at h
  obtain ⟨⟨⟨⟨⟨⟨⟨h1, h2⟩, h3⟩, h4⟩, h5⟩, h6⟩, h7⟩, h8⟩ := h
  simp [filter, fieldMatches, h1, h2, h3, h4, h5, h6, h7, h8]

end AtappMetadata

/-! ## Discovery infos -/

/-- `atapp_area`. -/
structure AtappArea where
  region : Bytes := []
  district : Bytes := []
  zoneId : Nat := 0
  deriving DecidableEq

/-- `atapp_gateway`. -/
structure AtappGateway where
  address : Bytes := []
  matchHosts : List Bytes := []
  matchNamespaces : List Bytes := []
  matchLabels : StringMap := {}
  deriving DecidableEq

/-- `atapp_discovery_runtime`. -/
structure AtappDiscoveryRuntime where
  statefulPodIndex : Int := 0
  deriving DecidableEq

/-- `atapp_discovery`: what a server publishes about itself. An unset message field is `none`. -/
structure AtappDiscovery where
  id : Nat := 0
  name : Bytes := []
  hostname : Bytes := []
  pid : Int := 0
  listen : List Bytes := []
  hashCode : Bytes := []
  typeId : Nat := 0
  typeName : Bytes := []
  area : Option AtappArea := none
  version : Bytes := []
  customData : Bytes := []
  identity : Bytes := []
  gateways : List AtappGateway := []
  runtime : Option AtappDiscoveryRuntime := none
  atbusProtocolVersion : Nat := 0
  atbusProtocolMinVersion : Nat := 0
  metadata : Option AtappMetadata := none
  deriving DecidableEq

namespace AtappDiscovery

/-- Reading an unset message field gives the default instance: the value of an info, with
    presence forgotten. -/
def canonical (d : AtappDiscovery) : AtappDiscovery :=
  { d with
    area := some (d.area.getD {})
    runtime := some (d.runtime.getD {})
    metadata := some (d.metadata.getD {}) }

@[simp] theorem canonical_id (d : AtappDiscovery) : d.canonical.id = d.id := rfl

@[simp] theorem canonical_name (d : AtappDiscovery) : d.canonical.name = d.name := rfl

/-- `metadata()`: the metadata, or the default instance when unset. -/
def metadataOrDefault (d : AtappDiscovery) : AtappMetadata := d.metadata.getD {}

/-- `runtime().stateful_pod_index()`. -/
def statefulPodIndex (d : AtappDiscovery) : Int := (d.runtime.getD {}).statefulPodIndex

/-- `protobuf_equal` on two discovery infos: field by field, repeated fields element by element,
    an unset message field read as its default. A map field has the C++ type of a message, so
    its entries are compared like a repeated field, in enumeration order. -/
def protobufEqual (l r : AtappDiscovery) : Bool :=
  l.id == r.id && l.name == r.name && l.hostname == r.hostname && l.pid == r.pid &&
  l.listen == r.listen && l.hashCode == r.hashCode && l.typeId == r.typeId &&
  l.typeName == r.typeName && l.area.getD {} == r.area.getD {} && l.version == r.version &&
  l.customData == r.customData && l.identity == r.identity && l.gateways == r.gateways &&
  l.runtime.getD {} == r.runtime.getD {} &&
  l.atbusProtocolVersion == r.atbusProtocolVersion &&
  l.atbusProtocolMinVersion == r.atbusProtocolMinVersion &&
  l.metadata.getD {} == r.metadata.getD {}

/-- Infos that compare equal have the same value in every field. -/
theorem protobufEqual_iff (l r : AtappDiscovery) :
    protobufEqual l r = true ↔ l.canonical = r.canonical := by
  simp only [protobufEqual, Bool.and_eq_true, beq_iff_eq, canonical, AtappDiscovery.mk.injEq,
    Option.some.injEq, and_assoc]

theorem protobufEqual_refl (d : AtappDiscovery) : protobufEqual d d = true :=
  (protobufEqual_iff d d).2 rfl

/-- Infos with different ids or names never compare equal. -/
theorem protobufEqual_keys {l r : AtappDiscovery} (h : protobufEqual l r = true) :
    l.id = r.id ∧ l.name = r.name := by
  have hc := (protobufEqual_iff l r).1 h
  exact ⟨by simpa using congrArg AtappDiscovery.id hc,
    by simpa using congrArg AtappDiscovery.name hc⟩

/-- The fields `etcd_discovery_node::copy_key_to` writes over `output`. -/
def copyKeyTo (d output : AtappDiscovery) : AtappDiscovery :=
  { output with
    id := d.id
    name := d.name
    identity := d.identity
    hashCode := d.hashCode
    typeName := d.typeName
    typeId := d.typeId
    pid := d.pid
    hostname := d.hostname }

end AtappDiscovery

end LibAtapp
