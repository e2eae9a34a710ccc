import LibAtapp.Etcdcli.DiscoveryNode
import Mathlib.Data.List.AList

set_option autoImplicit false

/-! # The discovery set: node indexes

`etcd_discovery_set` keeps every node under its id and under its name, and beside the two maps an
index cache for each metadata rule that was queried. This file has the state and the operations
that change it, `add_node` and the three `remove_node`, and what they do to the two maps. What
they do to the caches is in `DiscoveryCache.lean`. -/

namespace LibAtapp

/-! ## State -/

/-- `node_hash_type`: a point of the hash ring, or a search key when `node` is null. -/
structure NodeHashType where
  node : Option NodePtr := none
  hashCode : HashCode := (0, 0)
  deriving DecidableEq

/-- `node_hash_type::HASH_POINT_PER_INS`. -/
def hashPointPerIns : Nat := 80

/-- `index_cache_type`. -/
structure IndexCacheType where
  normalHashingRing : List NodeHashType := []
  compactHashingRing : List NodeHashType := []
  roundRobinCache : List NodePtr := []
  roundRobinIndex : Nat := 0
  referenceCache : List NodePtr := []
  deriving DecidableEq

/-- `node_by_name_type`. -/
abbrev NodeByNameType := AList (fun _ : Bytes => NodePtr)

/-- `node_by_id_type`. -/
abbrev NodeByIdType := AList (fun _ : Nat => NodePtr)

theorem distinctRules_nil : ([] : List (AtappMetadata × IndexCacheType)).Pairwise
    (fun a b => AtappMetadata.metadataEqual a.1 b.1 = false) := List.Pairwise.nil

/-- `metadata_index_`: an unordered map keyed by rules up to `metadata_equal_type`, so no two of
    its entries have rules that compare equal. -/
structure MetadataIndexType where
  entries : List (AtappMetadata × IndexCacheType) := []
  distinct : entries.Pairwise (fun a b => AtappMetadata.metadataEqual a.1 b.1 = false) := by
    first | exact distinctRules_nil | simp

namespace MetadataIndexType

/-- `find`: the entry of a rule. -/
def find (idx : MetadataIndexType) (m : AtappMetadata) : Option (AtappMetadata × IndexCacheType) :=
  idx.entries.find? (fun e => AtappMetadata.metadataEqual e.1 m)

/-- Erase the entries that satisfy `drop`. -/
def eraseIf (idx : MetadataIndexType) (drop : AtappMetadata × IndexCacheType → Bool) :
    MetadataIndexType where
  entries := idx.entries.filter (fun e => !drop e)
  distinct := idx.distinct.filter _

/-- The entries after the index of a rule, found or created by `operator[]`, was changed to `c`. -/
def assignEntries (idx : MetadataIndexType) (m : AtappMetadata) (c : IndexCacheType) :
    List (AtappMetadata × IndexCacheType) :=
  match idx.find m with
  | none => (m, c) :: idx.entries
  | some _ => idx.entries.map (fun e => if AtappMetadata.metadataEqual e.1 m then (e.1, c) else e)

/-- Change the index of a rule, found or created by `operator[]`, to `c`. -/
def assign (idx : MetadataIndexType) (m : AtappMetadata) (c : IndexCacheType) :
    MetadataIndexType where
  entries := idx.assignEntries m c
  distinct := by
    unfold assignEntries
    split
    · next hfind =>
        refine List.pairwise_cons.2 ⟨fun e he => ?_, idx.distinct⟩
        have hne := List.find?_eq_none.1 hfind e he
        rw [← Bool.not_eq_true]
        exact fun heq => hne (AtappMetadata.metadataEqual_symm heq)
    · refine List.pairwise_map.2 (idx.distinct.imp ?_)
      intro a b hab
      split <;> split <;> exact hab

theorem find_some {idx : MetadataIndexType} {m : AtappMetadata}
    {e : AtappMetadata × IndexCacheType} (h : idx.find m = some e) :
    e ∈ idx.entries ∧ AtappMetadata.metadataEqual e.1 m = true := by
  have heq := List.find?_some h
  exact ⟨List.mem_of_find?_eq_some h, heq⟩

/-- An entry is found under its rule. -/
theorem find_of_mem {idx : MetadataIndexType} {e : AtappMetadata × IndexCacheType}
    {m : AtappMetadata} (he : e ∈ idx.entries) (hm : AtappMetadata.metadataEqual e.1 m = true) :
    idx.find m = some e := by
  obtain ⟨entries, hd⟩ := idx
  simp only [find] at he ⊢
  induction entries with
  | nil => simp at he
  | cons a l ih =>
      obtain ⟨ha, hl⟩ := List.pairwise_cons.1 hd
      rcases List.mem_cons.1 he with rfl | he
      · exact List.find?_cons_of_pos hm
      · have hane : ¬ AtappMetadata.metadataEqual a.1 m = true := by
          intro ham
          have := AtappMetadata.metadataEqual_trans ham (AtappMetadata.metadataEqual_symm hm)
          simp [ha e he] at this
        rw [List.find?_cons_of_neg (by simpa using hane)]
        exact ih hl he

theorem find_congr (idx : MetadataIndexType) {m m' : AtappMetadata}
    (h : AtappMetadata.metadataEqual m m' = true) : idx.find m = idx.find m' := by
  unfold find
  congr 1
  funext e
  exact AtappMetadata.metadataEqual_congr_right h e.1

theorem mem_eraseIf {idx : MetadataIndexType} {drop : AtappMetadata × IndexCacheType → Bool}
    {e : AtappMetadata × IndexCacheType} :
    e ∈ (idx.eraseIf drop).entries ↔ e ∈ idx.entries ∧ drop e = false := by
  simp [eraseIf]

/-- After a change of the index of a rule, the rule finds it. -/
theorem find_assign (idx : MetadataIndexType) (m : AtappMetadata) (c : IndexCacheType) :
    ((idx.assign m c).find m).map Prod.snd = some c := by
  cases hfind : idx.find m with
  | none =>
      have hmem : (m, c) ∈ (idx.assign m c).entries := by simp [assign, assignEntries, hfind]
      rw [find_of_mem hmem (AtappMetadata.metadataEqual_refl m)]
      rfl
  | some e =>
      obtain ⟨he, hm⟩ := find_some hfind
      have hmem : (e.1, c) ∈ (idx.assign m c).entries := by
        simp only [assign, assignEntries, hfind, List.mem_map]
        exact ⟨e, he, if_pos hm⟩
      rw [find_of_mem hmem hm]
      rfl

/-- The entries after a change: the changed one and old ones. -/
theorem mem_assign {idx : MetadataIndexType} {m : AtappMetadata} {c : IndexCacheType}
    {e : AtappMetadata × IndexCacheType} (he : e ∈ (idx.assign m c).entries) :
    (AtappMetadata.metadataEqual m e.1 = true ∧ e.2 = c ∧
      (e.1 = m ∨ ∃ c', (e.1, c') ∈ idx.entries)) ∨ e ∈ idx.entries := by
  simp only [assign, assignEntries] at he
  split at he
  · rcases List.mem_cons.1 he with rfl | he
    · exact Or.inl ⟨AtappMetadata.metadataEqual_refl m, rfl, Or.inl rfl⟩
    · exact Or.inr he
  · obtain ⟨e', he', rfl⟩ := List.mem_map.1 he
    split
    · next heq => exact Or.inl ⟨AtappMetadata.metadataEqual_symm heq, rfl, Or.inr ⟨e'.2, he'⟩⟩
    · exact Or.inr he'

end MetadataIndexType

/-- `etcd_discovery_set`. -/
structure EtcdDiscoverySet where
  nodeByName : NodeByNameType := ∅
  nodeById : NodeByIdType := ∅
  defaultIndex : IndexCacheType := {}
  metadataIndex : MetadataIndexType := {}

namespace EtcdDiscoverySet

/-- `get_node_by_id`. -/
def getNodeById (s : EtcdDiscoverySet) (id : Nat) : Option NodePtr := s.nodeById.lookup id

/-- `get_node_by_name`. -/
def getNodeByName (s : EtcdDiscoverySet) (name : Bytes) : Option NodePtr := s.nodeByName.lookup name

/-- `empty`. -/
def isEmpty (s : EtcdDiscoverySet) : Bool :=
  s.nodeByName.entries.isEmpty && s.nodeById.entries.isEmpty

end EtcdDiscoverySet

/-! ## Clearing caches -/

/-- `clear_cache(index_cache_type &)`: everything but the round robin position. -/
def IndexCacheType.clearCache (c : IndexCacheType) : IndexCacheType :=
  { c with
    normalHashingRing := []
    compactHashingRing := []
    roundRobinCache := []
    referenceCache := [] }

namespace EtcdDiscoverySet

/-- Is the cached index of a rule dropped by `clear_cache(metadata, node_ptrs)`: it refers to one
    of the nodes, or the changed metadata matches its rule? -/
def pendingToDelete (metadata : Option AtappMetadata) (nodePtrs : List (Option NodePtr))
    (entry : AtappMetadata × IndexCacheType) : Bool :=
  nodePtrs.any (fun p => match p with
    | some q => entry.2.referenceCache.contains q
    | none => false) ||
  (match metadata with
    | some m => AtappMetadata.filter entry.1 m
    | none => false)

/-- `clear_cache(metadata, node_ptrs)`. -/
def clearCache (s : EtcdDiscoverySet) (metadata : Option AtappMetadata)
    (nodePtrs : List (Option NodePtr)) : EtcdDiscoverySet :=
  if metadata.isNone && nodePtrs.all Option.isNone then s
  else
    { s with
      defaultIndex := s.defaultIndex.clearCache
      metadataIndex := s.metadataIndex.eraseIf (pendingToDelete metadata nodePtrs) }

@[simp] theorem clearCache_nodeById (s : EtcdDiscoverySet) (m : Option AtappMetadata)
    (ps : List (Option NodePtr)) : (s.clearCache m ps).nodeById = s.nodeById := by
  unfold clearCache
  split <;> rfl

@[simp] theorem clearCache_nodeByName (s : EtcdDiscoverySet) (m : Option AtappMetadata)
    (ps : List (Option NodePtr)) : (s.clearCache m ps).nodeByName = s.nodeByName := by
  unfold clearCache
  split <;> rfl

@[simp] theorem clearCache_getNodeById (s : EtcdDiscoverySet) (m : Option AtappMetadata)
    (ps : List (Option NodePtr)) (k : Nat) : (s.clearCache m ps).getNodeById k = s.getNodeById k := by
  simp [getNodeById]

@[simp] theorem clearCache_getNodeByName (s : EtcdDiscoverySet) (m : Option AtappMetadata)
    (ps : List (Option NodePtr)) (n : Bytes) :
    (s.clearCache m ps).getNodeByName n = s.getNodeByName n := by
  simp [getNodeByName]

end EtcdDiscoverySet

/-! ## Erasing one entry of an index -/

section EraseEntry

variable {κ : Type} [DecidableEq κ]

/-- Erase the entry of `key` if it is `node`. -/
def eraseIfIs (m : AList (fun _ : κ => NodePtr)) (key : κ) (node : NodePtr) :
    AList (fun _ : κ => NodePtr) :=
  if m.lookup key = some node then m.erase key else m

/-- Erase the entry of `key` unless it is `node`. -/
def eraseIfOther (m : AList (fun _ : κ => NodePtr)) (key : κ) (node : NodePtr) :
    AList (fun _ : κ => NodePtr) :=
  if m.lookup key = some node then m else m.erase key

/-- The values of a map are what its keys lead to. -/
theorem mem_entries_values (m : AList (fun _ : κ => NodePtr)) (p : NodePtr) :
    p ∈ m.entries.map Sigma.snd ↔ ∃ k, m.lookup k = some p := by
  rw [List.mem_map]
  constructor
  · rintro ⟨⟨k, q⟩, he, rfl⟩
    exact ⟨k, AList.mem_lookup_iff.2 he⟩
  · rintro ⟨k, hk⟩
    exact ⟨⟨k, p⟩, AList.mem_lookup_iff.1 hk, rfl⟩

theorem lookup_erase_eq (m : AList (fun _ : κ => NodePtr)) (key k : κ) :
    (m.erase key).lookup k = if k = key then none else m.lookup k := by
  by_cases h : k = key
  · subst h
    simp
  · rw [if_neg h, AList.lookup_erase_ne h]

theorem lookup_insert_eq (m : AList (fun _ : κ => NodePtr)) (key k : κ) (p : NodePtr) :
    (m.insert key p).lookup k = if k = key then some p else m.lookup k := by
  by_cases h : k = key
  · subst h
    simp
  · rw [if_neg h, AList.lookup_insert_ne h]

theorem lookup_eraseIfIs (m : AList (fun _ : κ => NodePtr)) (key k : κ) (p : NodePtr) :
    (eraseIfIs m key p).lookup k = if k = key ∧ m.lookup key = some p then none else m.lookup k := by
  unfold eraseIfIs
  split
  · next h => simp only [lookup_erase_eq, h, and_true]
  · next h => simp only [h, and_false, if_false]

theorem lookup_eraseIfOther (m : AList (fun _ : κ => NodePtr)) (key k : κ) (p : NodePtr) :
    (eraseIfOther m key p).lookup k =
      if k = key ∧ m.lookup key ≠ some p then none else m.lookup k := by
  unfold eraseIfOther
  split
  · next h => simp [h]
  · next h => simp [lookup_erase_eq, h]

/-- Erasing another node's entry from a map in which `node` was just put under `key`. -/
theorem lookup_eraseIfOther_of {m : AList (fun _ : κ => NodePtr)} {old : κ → Option NodePtr}
    {key : κ} {node : NodePtr} {c : Prop} [Decidable c]
    (hm : ∀ k, m.lookup k = if c ∧ k = key then some node else old k) (oldKey k : κ) :
    (eraseIfOther m oldKey node).lookup k =
      if c ∧ k = key then some node
      else if k = oldKey ∧ old k ≠ some node then none else old k := by
  rw [lookup_eraseIfOther, hm k]
  by_cases hk : k = oldKey
  · subst hk
    rw [hm k]
    split <;> simp
  · simp [hk]

end EraseEntry

/-! ## `add_node` -/

/-- The local variables of `add_node`, with the two maps it works on. `clearCacheNodePtrs` is the
    three-slot array of nodes whose cached indexes are to be dropped. -/
structure AddNodeLocals where
  nodeByName : NodeByNameType
  nodeById : NodeByIdType
  hasInsert : Bool := false
  oldName : Bytes := []
  oldId : Nat := 0
  clearCacheNodePtrs : List (Option NodePtr)
  clearCacheNodePtrsSize : Nat := 1

namespace AddNodeLocals

/-- "Remove old first": record a displaced node. The slot written is the last one in use, so the
    first displaced node takes the slot of the added one. -/
def pushClearCacheNodePtr (l : AddNodeLocals) (old : NodePtr) : AddNodeLocals :=
  if l.clearCacheNodePtrs[l.clearCacheNodePtrsSize - 1]? ≠ some (some old) then
    { l with
      clearCacheNodePtrs := l.clearCacheNodePtrs.set (l.clearCacheNodePtrsSize - 1) (some old)
      clearCacheNodePtrsSize := l.clearCacheNodePtrsSize + 1 }
  else l

/-- "Insert into id index if id != 0". -/
def insertId (heap : NodeHeap) (node : NodePtr) (l : AddNodeLocals) : AddNodeLocals :=
  let info := (heap node).nodeInfo
  if info.id = 0 then l
  else match l.nodeById.lookup info.id with
    | none => { l with nodeById := l.nodeById.insert info.id node, hasInsert := true }
    | some old =>
      if old = node then l
      else
        let l := if (heap old).name ≠ info.name then { l with oldName := (heap old).name } else l
        let l := l.pushClearCacheNodePtr old
        { l with nodeById := l.nodeById.insert info.id node, hasInsert := true }

/-- "Insert into name index if name().empty() != true". -/
def insertName (heap : NodeHeap) (node : NodePtr) (l : AddNodeLocals) : AddNodeLocals :=
  let info := (heap node).nodeInfo
  if info.name = [] then l
  else match l.nodeByName.lookup info.name with
    | none => { l with nodeByName := l.nodeByName.insert info.name node, hasInsert := true }
    | some old =>
      if old = node then l
      else
        let l := if (heap old).id ≠ info.id then { l with oldId := (heap old).id } else l
        let l := l.pushClearCacheNodePtr old
        { l with nodeByName := l.nodeByName.insert info.name node, hasInsert := true }

/-- Erase the other key of the displaced nodes. -/
def eraseOld (node : NodePtr) (l : AddNodeLocals) : AddNodeLocals :=
  if l.hasInsert then
    let l := if l.oldId ≠ 0 then { l with nodeById := eraseIfOther l.nodeById l.oldId node } else l
    if l.oldName ≠ [] then { l with nodeByName := eraseIfOther l.nodeByName l.oldName node } else l
  else l

end AddNodeLocals

namespace EtcdDiscoverySet

/-- The locals of `add_node` after the two maps are updated. -/
def addNodeLocals (heap : NodeHeap) (s : EtcdDiscoverySet) (node : NodePtr) : AddNodeLocals :=
  let l : AddNodeLocals :=
    { nodeByName := s.nodeByName, nodeById := s.nodeById,
      clearCacheNodePtrs := [some node, none, none] }
  ((l.insertId heap node).insertName heap node).eraseOld node

/-- `add_node`. -/
def addNode (heap : NodeHeap) (s : EtcdDiscoverySet) (node : NodePtr) : EtcdDiscoverySet :=
  let l := s.addNodeLocals heap node
  { s with nodeByName := l.nodeByName, nodeById := l.nodeById }.clearCache
    (heap node).nodeInfo.metadata l.clearCacheNodePtrs

/-! ## `remove_node` -/

/-- `remove_node(const ptr_t &)`. -/
def removeNode (heap : NodeHeap) (s : EtcdDiscoverySet) (node : NodePtr) : EtcdDiscoverySet :=
  let info := (heap node).nodeInfo
  let inName := info.name ≠ [] ∧ s.nodeByName.lookup info.name = some node
  let inId := info.id ≠ 0 ∧ s.nodeById.lookup info.id = some node
  let s' := { s with
    nodeByName := if info.name ≠ [] then eraseIfIs s.nodeByName info.name node else s.nodeByName
    nodeById := if info.id ≠ 0 then eraseIfIs s.nodeById info.id node else s.nodeById }
  if inName ∨ inId then s'.clearCache info.metadata [some node] else s'

/-- `remove_node(uint64_t)`. -/
def removeNodeById (heap : NodeHeap) (s : EtcdDiscoverySet) (id : Nat) : EtcdDiscoverySet :=
  match s.nodeById.lookup id with
  | none => s
  | some node =>
    let info := (heap node).nodeInfo
    let s' := { s with
      nodeByName := if info.name ≠ [] then eraseIfIs s.nodeByName info.name node else s.nodeByName }
    let s' := s'.clearCache info.metadata [some node]
    { s' with nodeById := s'.nodeById.erase id }

/-- `remove_node(const std::string &)`. -/
def removeNodeByName (heap : NodeHeap) (s : EtcdDiscoverySet) (name : Bytes) : EtcdDiscoverySet :=
  match s.nodeByName.lookup name with
  | none => s
  | some node =>
    let info := (heap node).nodeInfo
    let s' := { s with
      nodeById := if info.id ≠ 0 then eraseIfIs s.nodeById info.id node else s.nodeById }
    let s' := s'.clearCache info.metadata [some node]
    { s' with nodeByName := s'.nodeByName.erase name }

/-! ## The maps after each operation -/

/-- `old_id` of `add_node`: the id of the node displaced from the name index, if it is another. -/
def addNodeOldId (heap : NodeHeap) (s : EtcdDiscoverySet) (node : NodePtr) : Nat :=
  if (heap node).name = [] then 0
  else match s.getNodeByName (heap node).name with
    | none => 0
    | some old => if old ≠ node ∧ (heap old).id ≠ (heap node).id then (heap old).id else 0

/-- `old_name` of `add_node`: the name of the node displaced from the id index, if it is
    another. -/
def addNodeOldName (heap : NodeHeap) (s : EtcdDiscoverySet) (node : NodePtr) : Bytes :=
  if (heap node).id = 0 then []
  else match s.getNodeById (heap node).id with
    | none => []
    | some old => if old ≠ node ∧ (heap old).name ≠ (heap node).name then (heap old).name else []

end EtcdDiscoverySet

namespace AddNodeLocals

@[simp] theorem pushClearCacheNodePtr_nodeById (l : AddNodeLocals) (q : NodePtr) :
    (l.pushClearCacheNodePtr q).nodeById = l.nodeById := by
  unfold pushClearCacheNodePtr
  split <;> rfl

@[simp] theorem pushClearCacheNodePtr_nodeByName (l : AddNodeLocals) (q : NodePtr) :
    (l.pushClearCacheNodePtr q).nodeByName = l.nodeByName := by
  unfold pushClearCacheNodePtr
  split <;> rfl

@[simp] theorem pushClearCacheNodePtr_oldId (l : AddNodeLocals) (q : NodePtr) :
    (l.pushClearCacheNodePtr q).oldId = l.oldId := by
  unfold pushClearCacheNodePtr
  split <;> rfl

@[simp] theorem pushClearCacheNodePtr_oldName (l : AddNodeLocals) (q : NodePtr) :
    (l.pushClearCacheNodePtr q).oldName = l.oldName := by
  unfold pushClearCacheNodePtr
  split <;> rfl

variable (heap : NodeHeap) (node : NodePtr) (l : AddNodeLocals)

/-- The id step leaves the name side alone. -/
theorem insertId_frame :
    (l.insertId heap node).nodeByName = l.nodeByName ∧ (l.insertId heap node).oldId = l.oldId := by
  simp only [insertId]
  split
  · exact ⟨rfl, rfl⟩
  · split
    · exact ⟨rfl, rfl⟩
    · split
      · exact ⟨rfl, rfl⟩
      · split <;> simp

/-- The name step leaves the id side alone. -/
theorem insertName_frame :
    (l.insertName heap node).nodeById = l.nodeById ∧
      (l.insertName heap node).oldName = l.oldName := by
  simp only [insertName]
  split
  · exact ⟨rfl, rfl⟩
  · split
    · exact ⟨rfl, rfl⟩
    · split
      · exact ⟨rfl, rfl⟩
      · split <;> simp

theorem lookup_insertId (k : Nat) :
    (l.insertId heap node).nodeById.lookup k =
      if (heap node).id ≠ 0 ∧ k = (heap node).id then some node else l.nodeById.lookup k := by
  simp only [insertId]
  split
  · next h => simp [EtcdDiscoveryNode.id, h]
  · next h =>
      split
      · simp [lookup_insert_eq, EtcdDiscoveryNode.id, h]
      · next old hold =>
          split
          · next he =>
              subst he
              by_cases hk : k = (heap old).nodeInfo.id
              · rw [if_pos ⟨h, hk⟩, hk, hold]
              · simp [EtcdDiscoveryNode.id, hk]
          · split <;> simp [lookup_insert_eq, EtcdDiscoveryNode.id, h]

theorem lookup_insertName (n : Bytes) :
    (l.insertName heap node).nodeByName.lookup n =
      if (heap node).name ≠ [] ∧ n = (heap node).name then some node
      else l.nodeByName.lookup n := by
  simp only [insertName]
  split
  · next h => simp [EtcdDiscoveryNode.name, h]
  · next h =>
      split
      · simp [lookup_insert_eq, EtcdDiscoveryNode.name, h]
      · next old hold =>
          split
          · next he =>
              subst he
              by_cases hk : n = (heap old).nodeInfo.name
              · rw [if_pos ⟨h, hk⟩, hk, hold]
              · simp [EtcdDiscoveryNode.name, hk]
          · split <;> simp [lookup_insert_eq, EtcdDiscoveryNode.name, h]

theorem eraseOld_nodeById :
    (l.eraseOld node).nodeById =
      if l.hasInsert = true ∧ l.oldId ≠ 0 then eraseIfOther l.nodeById l.oldId node
      else l.nodeById := by
  unfold eraseOld
  by_cases hi : l.hasInsert = true <;> by_cases hid : l.oldId = 0 <;>
    by_cases hn : l.oldName = [] <;> simp [hi, hid, hn]

theorem eraseOld_nodeByName :
    (l.eraseOld node).nodeByName =
      if l.hasInsert = true ∧ l.oldName ≠ [] then eraseIfOther l.nodeByName l.oldName node
      else l.nodeByName := by
  unfold eraseOld
  by_cases hi : l.hasInsert = true <;> by_cases hid : l.oldId = 0 <;>
    by_cases hn : l.oldName = [] <;> simp [hi, hid, hn]

@[simp] theorem eraseOld_clearCacheNodePtrs :
    (l.eraseOld node).clearCacheNodePtrs = l.clearCacheNodePtrs := by
  unfold eraseOld
  by_cases hi : l.hasInsert = true <;> by_cases hid : l.oldId = 0 <;>
    by_cases hn : l.oldName = [] <;> simp [hi, hid, hn]

/-- The slots after the id step: the displaced node takes the slot of the added one. -/
theorem insertId_clearCacheNodePtrs (hptrs : l.clearCacheNodePtrs = [some node, none, none])
    (hsize : l.clearCacheNodePtrsSize = 1) :
    (∃ old, old ≠ node ∧ (heap node).id ≠ 0 ∧ l.nodeById.lookup (heap node).id = some old ∧
        (l.insertId heap node).clearCacheNodePtrs = [some old, none, none] ∧
        (l.insertId heap node).clearCacheNodePtrsSize = 2) ∨
      ((∀ old, old ≠ node → (heap node).id ≠ 0 → l.nodeById.lookup (heap node).id ≠ some old) ∧
        (l.insertId heap node).clearCacheNodePtrs = [some node, none, none] ∧
        (l.insertId heap node).clearCacheNodePtrsSize = 1) := by
  simp only [insertId]
  split
  · next h => exact Or.inr ⟨fun _ _ h0 => absurd h h0, hptrs, hsize⟩
  · next h =>
      split
      · next hnone => exact Or.inr ⟨fun _ _ _ => by simp [EtcdDiscoveryNode.id, hnone], hptrs, hsize⟩
      · next old hold =>
          split
          · next he =>
              refine Or.inr ⟨fun q hq _ hlook => hq ?_, hptrs, hsize⟩
              exact (Option.some.inj (hlook.symm.trans hold)).trans he
          · next he =>
              refine Or.inl ⟨old, he, h, hold, ?_, ?_⟩ <;> split <;>
                simp [pushClearCacheNodePtr, hptrs, hsize, Ne.symm he]

/-- The slots after the name step: the displaced node takes the last slot in use. -/
theorem insertName_clearCacheNodePtrs {q : NodePtr} {size : Nat}
    (hptrs : l.clearCacheNodePtrs = [some q, none, none]) (hsize : l.clearCacheNodePtrsSize = size)
    (hcase : (size = 1 ∧ q = node) ∨ size = 2) :
    (∃ old, old ≠ node ∧ (heap node).name ≠ [] ∧ l.nodeByName.lookup (heap node).name = some old ∧
        (l.insertName heap node).clearCacheNodePtrs =
          if size = 1 then [some old, none, none] else [some q, some old, none]) ∨
      ((∀ old, old ≠ node → (heap node).name ≠ [] →
          l.nodeByName.lookup (heap node).name ≠ some old) ∧
        (l.insertName heap node).clearCacheNodePtrs = [some q, none, none]) := by
  simp only [insertName]
  split
  · next h => exact Or.inr ⟨fun _ _ h0 => absurd h h0, hptrs⟩
  · next h =>
      split
      · next hnone => exact Or.inr ⟨fun _ _ _ => by simp [EtcdDiscoveryNode.name, hnone], hptrs⟩
      · next old hold =>
          split
          · next he =>
              refine Or.inr ⟨fun q hq _ hlook => hq ?_, hptrs⟩
              exact (Option.some.inj (hlook.symm.trans hold)).trans he
          · next he =>
              refine Or.inl ⟨old, he, h, hold, ?_⟩
              rcases hcase with ⟨rfl, rfl⟩ | rfl <;> split <;>
                simp [pushClearCacheNodePtr, hptrs, hsize, Ne.symm he]

/-- A recorded old name comes with `has_insert`. -/
theorem insertId_hasInsert (hl : l.oldName ≠ [] → l.hasInsert = true)
    (h : (l.insertId heap node).oldName ≠ []) : (l.insertId heap node).hasInsert = true := by
  revert h
  simp only [insertId]
  split
  · exact hl
  · split
    · exact fun _ => rfl
    · split
      · exact hl
      · exact fun _ => rfl

/-- A recorded old id comes with `has_insert`, and `has_insert` is never taken back. -/
theorem insertName_hasInsert (hl : l.oldId ≠ 0 → l.hasInsert = true)
    (h : (l.insertName heap node).oldId ≠ 0 ∨ l.hasInsert = true) :
    (l.insertName heap node).hasInsert = true := by
  revert h
  simp only [insertName]
  split
  · exact fun h => h.elim hl (fun h => h)
  · split
    · exact fun _ => rfl
    · split
      · exact fun h => h.elim hl (fun h => h)
      · exact fun _ => rfl

end AddNodeLocals

namespace EtcdDiscoverySet

variable (heap : NodeHeap) (s : EtcdDiscoverySet) (node : NodePtr)

/-- The locals of `add_node` before the old keys are erased. -/
private def insertedLocals : AddNodeLocals :=
  let l : AddNodeLocals :=
    { nodeByName := s.nodeByName, nodeById := s.nodeById,
      clearCacheNodePtrs := [some node, none, none] }
  (l.insertId heap node).insertName heap node

private theorem insertedLocals_oldId :
    (s.insertedLocals heap node).oldId = s.addNodeOldId heap node := by
  simp only [insertedLocals, AddNodeLocals.insertName, addNodeOldId, getNodeByName,
    (AddNodeLocals.insertId_frame heap node _).1, EtcdDiscoveryNode.name, EtcdDiscoveryNode.id]
  split
  · exact (AddNodeLocals.insertId_frame heap node _).2
  · split
    · exact (AddNodeLocals.insertId_frame heap node _).2
    · split
      · next he => simp [he, (AddNodeLocals.insertId_frame heap node _).2]
      · next he =>
          split
          · next hid => simp [he, hid]
          · next hid => simp [he, hid, (AddNodeLocals.insertId_frame heap node _).2]

private theorem insertedLocals_oldName :
    (s.insertedLocals heap node).oldName = s.addNodeOldName heap node := by
  unfold insertedLocals
  rw [(AddNodeLocals.insertName_frame heap node _).2]
  simp only [AddNodeLocals.insertId, addNodeOldName, getNodeById,
    EtcdDiscoveryNode.name, EtcdDiscoveryNode.id]
  split
  · rfl
  · split
    · rfl
    · split
      · next he => simp [he]
      · next he =>
          split
          · next hn => simp [he, hn]
          · next hn => simp [he, hn]

private theorem insertedLocals_hasInsert
    (h : s.addNodeOldId heap node ≠ 0 ∨ s.addNodeOldName heap node ≠ []) :
    (s.insertedLocals heap node).hasInsert = true := by
  rw [← insertedLocals_oldId, ← insertedLocals_oldName] at h
  unfold insertedLocals at h ⊢
  rw [(AddNodeLocals.insertName_frame heap node _).2] at h
  refine AddNodeLocals.insertName_hasInsert heap node _ (fun hid => ?_)
    (h.imp (fun h => h) (AddNodeLocals.insertId_hasInsert heap node _ (by simp)))
  rw [(AddNodeLocals.insertId_frame heap node _).2] at hid
  exact absurd rfl hid

/-- The id index after `add_node`: the node under its id, the node it displaces by name gone from
    its own id. -/
theorem getNodeById_addNode (k : Nat) :
    (s.addNode heap node).getNodeById k =
      if (heap node).id ≠ 0 ∧ k = (heap node).id then some node
      else if k ≠ 0 ∧ k = s.addNodeOldId heap node ∧ s.getNodeById k ≠ some node then none
      else s.getNodeById k := by
  have hlook : ∀ k, (s.insertedLocals heap node).nodeById.lookup k =
      if (heap node).id ≠ 0 ∧ k = (heap node).id then some node else s.getNodeById k := by
    intro k
    unfold insertedLocals
    rw [(AddNodeLocals.insertName_frame heap node _).1, AddNodeLocals.lookup_insertId]
    rfl
  have hdef : (s.addNode heap node).getNodeById k =
      ((s.insertedLocals heap node).eraseOld node).nodeById.lookup k := by
    simp [addNode, addNodeLocals, getNodeById, insertedLocals]
  rw [hdef, AddNodeLocals.eraseOld_nodeById, insertedLocals_oldId]
  by_cases hold : s.addNodeOldId heap node = 0
  · have hno : ¬ (k ≠ 0 ∧ k = s.addNodeOldId heap node ∧ s.getNodeById k ≠ some node) :=
      fun h => h.1 (h.2.1.trans hold)
    rw [if_neg (fun h => h.2 hold), if_neg hno, hlook]
  · rw [if_pos ⟨s.insertedLocals_hasInsert heap node (Or.inl hold), hold⟩,
      lookup_eraseIfOther_of hlook]
    by_cases hk : k = s.addNodeOldId heap node
    · simp [hk, hold]
    · simp [hk]

/-- The name index after `add_node`: the node under its name, the node it displaces by id gone
    from its own name. -/
theorem getNodeByName_addNode (n : Bytes) :
    (s.addNode heap node).getNodeByName n =
      if (heap node).name ≠ [] ∧ n = (heap node).name then some node
      else if n ≠ [] ∧ n = s.addNodeOldName heap node ∧ s.getNodeByName n ≠ some node then none
      else s.getNodeByName n := by
  have hlook : ∀ n, (s.insertedLocals heap node).nodeByName.lookup n =
      if (heap node).name ≠ [] ∧ n = (heap node).name then some node else s.getNodeByName n := by
    intro n
    unfold insertedLocals
    rw [AddNodeLocals.lookup_insertName, (AddNodeLocals.insertId_frame heap node _).1]
    rfl
  have hdef : (s.addNode heap node).getNodeByName n =
      ((s.insertedLocals heap node).eraseOld node).nodeByName.lookup n := by
    simp [addNode, addNodeLocals, getNodeByName, insertedLocals]
  rw [hdef, AddNodeLocals.eraseOld_nodeByName, insertedLocals_oldName]
  by_cases hold : s.addNodeOldName heap node = []
  · have hno : ¬ (n ≠ [] ∧ n = s.addNodeOldName heap node ∧ s.getNodeByName n ≠ some node) :=
      fun h => h.1 (h.2.1.trans hold)
    rw [if_neg (fun h => h.2 hold), if_neg hno, hlook]
  · rw [if_pos ⟨s.insertedLocals_hasInsert heap node (Or.inr hold), hold⟩,
      lookup_eraseIfOther_of hlook]
    by_cases hk : n = s.addNodeOldName heap node
    · simp [hk, hold]
    · simp [hk]

/-- The id index after `remove_node`: the entry of the node's id is gone if it was the node. -/
theorem getNodeById_removeNode (k : Nat) :
    (s.removeNode heap node).getNodeById k =
      if k = (heap node).id ∧ k ≠ 0 ∧ s.getNodeById k = some node then none
      else s.getNodeById k := by
  have h : (s.removeNode heap node).nodeById =
      if (heap node).id ≠ 0 then eraseIfIs s.nodeById (heap node).id node else s.nodeById := by
    simp only [removeNode]
    split <;> simp [EtcdDiscoveryNode.id]
  simp only [getNodeById, h]
  by_cases hid : (heap node).id = 0
  · simp [hid]
    intro h1 h2
    exact absurd h1 h2
  · simp only [hid, ne_eq, not_false_eq_true, if_true, lookup_eraseIfIs]
    by_cases hk : k = (heap node).id
    · subst hk
      simp [hid]
    · simp [hk]

/-- The name index after `remove_node`: the entry of the node's name is gone if it was the
    node. -/
theorem getNodeByName_removeNode (n : Bytes) :
    (s.removeNode heap node).getNodeByName n =
      if n = (heap node).name ∧ n ≠ [] ∧ s.getNodeByName n = some node then none
      else s.getNodeByName n := by
  have h : (s.removeNode heap node).nodeByName =
      if (heap node).name ≠ [] then eraseIfIs s.nodeByName (heap node).name node
      else s.nodeByName := by
    simp only [removeNode]
    split <;> simp [EtcdDiscoveryNode.name]
  simp only [getNodeByName, h]
  by_cases hn : (heap node).name = []
  · simp [hn]
    intro h1 h2
    exact absurd h1 h2
  · simp only [hn, ne_eq, not_false_eq_true, if_true, lookup_eraseIfIs]
    by_cases hk : n = (heap node).name
    · subst hk
      simp [hn]
    · simp [hk]

end EtcdDiscoverySet

end LibAtapp
