import LibAtapp.Protocol

set_option autoImplicit false

/-! # Discovery nodes

`etcd_discovery_node`: the info a server published, its etcd version, the cluster context that
delivered it and the hash of its name. Nodes are shared by reference and mutated in place, so a
node is named by its address (`NodePtr`) and its content lives in a heap. -/

namespace LibAtapp

/-! ## Versions -/

/-- `etcd_data_version`. -/
structure EtcdDataVersion where
  createRevision : Int := 0
  modifyRevision : Int := 0
  version : Int := 0
  deriving DecidableEq

/-! ## The consistent hash function -/

/-- What the ring takes from outside the repository: `murmur_hash3_x64_128` (buffer, 32-bit seed)
    and the configured `LIBATAPP_MACRO_HASH_MAGIC_NUMBER`. -/
structure HashConfig where
  murmurHash3X64128 : Bytes → Nat → Nat × Nat
  hashMagicNumber : Nat

/-- A 128-bit hash code, compared as `std::pair` compares: lexicographically. -/
abbrev HashCode := Nat × Nat

/-- `std::pair::operator<`. -/
def HashCode.lt (l r : HashCode) : Bool :=
  l.1 < r.1 || (l.1 == r.1 && l.2 < r.2)

/-- `consistent_hash_calc`. -/
def consistentHashCalc (cfg : HashConfig) (buf : Bytes) (seed : Nat) : HashCode :=
  cfg.murmurHash3X64128 buf (seed % 2 ^ 32)

/-- `consistent_hash_to_span` of a `uint64_t`: its eight bytes, least significant first. -/
def consistentHashToSpan (key : Nat) : Bytes :=
  (List.range 8).map (fun i => ⟨key / 256 ^ i % 256, Nat.mod_lt _ (by decide)⟩)

/-! ## Nodes -/

/-- `etcd_discovery_node`. -/
structure EtcdDiscoveryNode where
  nodeInfo : AtappDiscovery := {}
  nodeVersion : EtcdDataVersion := {}
  contextAddr : Nat := 0
  nameHash : HashCode := (0, 0)

namespace EtcdDiscoveryNode

/-- `get_discovery_info().id()`. -/
abbrev id (n : EtcdDiscoveryNode) : Nat := n.nodeInfo.id

/-- `get_discovery_info().name()`. -/
abbrev name (n : EtcdDiscoveryNode) : Bytes := n.nodeInfo.name

/-- `etcd_discovery_node::copy_from`. -/
def copyFrom (cfg : HashConfig) (n : EtcdDiscoveryNode) (input : AtappDiscovery)
    (version : EtcdDataVersion) (contextAddr : Nat) : EtcdDiscoveryNode :=
  { n with
    nodeInfo := input
    nameHash := consistentHashCalc cfg input.name cfg.hashMagicNumber
    contextAddr := contextAddr
    nodeVersion := version }

/-- `etcd_discovery_node::update_version`. -/
def updateVersion (n : EtcdDiscoveryNode) (version : EtcdDataVersion) (upgrade : Bool) :
    EtcdDiscoveryNode :=
  if upgrade then
    let v := n.nodeVersion
    let v := if v.createRevision < version.createRevision then
      { v with createRevision := version.createRevision, version := version.version } else v
    let v := if v.modifyRevision < version.modifyRevision then
      { v with modifyRevision := version.modifyRevision, version := version.version } else v
    let v := if v.version < version.version then { v with version := version.version } else v
    { n with nodeVersion := v }
  else
    { n with nodeVersion := version }

@[simp] theorem updateVersion_nodeInfo (n : EtcdDiscoveryNode) (v : EtcdDataVersion) (u : Bool) :
    (n.updateVersion v u).nodeInfo = n.nodeInfo := by
  unfold updateVersion
  split <;> rfl

@[simp] theorem updateVersion_contextAddr (n : EtcdDiscoveryNode) (v : EtcdDataVersion) (u : Bool) :
    (n.updateVersion v u).contextAddr = n.contextAddr := by
  unfold updateVersion
  split <;> rfl

@[simp] theorem updateVersion_nameHash (n : EtcdDiscoveryNode) (v : EtcdDataVersion) (u : Bool) :
    (n.updateVersion v u).nameHash = n.nameHash := by
  unfold updateVersion
  split <;> rfl

end EtcdDiscoveryNode

/-! ## The heap of nodes -/

/-- The address of a node, what a `strong_rc_ptr<etcd_discovery_node>` holds. -/
abbrev NodePtr := Nat

/-- The content of every node. An address is never reused while something refers to it. -/
abbrev NodeHeap := NodePtr → EtcdDiscoveryNode

/-- Two heaps agree on what the discovery set reads of a node: its info and its name hash. -/
def NodeHeap.SameInfo (h h' : NodeHeap) (p : NodePtr) : Prop :=
  (h' p).nodeInfo = (h p).nodeInfo ∧ (h' p).nameHash = (h p).nameHash

/-- Two heaps agree on the content of a node: its info, name hash and context. -/
structure NodeHeap.SameContent (h h' : NodeHeap) (p : NodePtr) : Prop where
  info : (h' p).nodeInfo = (h p).nodeInfo
  nameHash : (h' p).nameHash = (h p).nameHash
  context : (h' p).contextAddr = (h p).contextAddr

theorem NodeHeap.SameContent.sameInfo {h h' : NodeHeap} {p : NodePtr} (hs : h.SameContent h' p) :
    h.SameInfo h' p := ⟨hs.info, hs.nameHash⟩

theorem NodeHeap.SameContent.refl (h : NodeHeap) (p : NodePtr) : h.SameContent h p := ⟨rfl, rfl, rfl⟩

theorem NodeHeap.SameContent.trans {h h' h'' : NodeHeap} {p : NodePtr} (hs : h.SameContent h' p)
    (hs' : h'.SameContent h'' p) : h.SameContent h'' p :=
  ⟨hs'.info.trans hs.info, hs'.nameHash.trans hs.nameHash, hs'.context.trans hs.context⟩

/-- Changing one node leaves the content of the others. -/
theorem NodeHeap.sameContent_update (h : NodeHeap) {p q : NodePtr} (hpq : p ≠ q)
    (n : EtcdDiscoveryNode) : h.SameContent (Function.update h q n) p := by
  constructor <;> rw [Function.update_of_ne hpq]

/-- Bumping a version leaves the content of every node. -/
theorem NodeHeap.sameContent_updateVersion (h : NodeHeap) (q : NodePtr) (v : EtcdDataVersion)
    (u : Bool) (p : NodePtr) : h.SameContent (Function.update h q ((h q).updateVersion v u)) p := by
  by_cases hp : p = q
  · subst hp
    constructor <;> simp
  · exact h.sameContent_update hp _

end LibAtapp
