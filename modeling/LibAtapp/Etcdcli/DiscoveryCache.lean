import LibAtapp.Etcdcli.DiscoveryIndex
import LibAtapp.Library.SortedRing
import Mathlib.Data.Int.ConditionallyCompleteOrder
import Mathlib.Data.Prod.Lex
import Mathlib.Order.ConditionallyCompleteLattice.Basic
import Mathlib.Order.WithBot

set_option autoImplicit false

/-! # The discovery set: cached indexes and queries

Queries answer from an index that is kept per metadata rule: the matching nodes in a fixed order
(`round_robin_cache`) and the ring of their hash points. An index is rebuilt from the two maps
when it is found empty. This file has the order, the rebuild and the queries, and describes the
index that a rebuild produces. -/

namespace LibAtapp

/-! ## The order of nodes and points -/

/-- `round_robin_compare_index`. Null compares by address, and nothing is below null. -/
def roundRobinCompareIndex (heap : NodeHeap) : Option NodePtr → Option NodePtr → Bool
  | some l, some r =>
    let ldi := (heap l).nodeInfo
    let rdi := (heap r).nodeInfo
    if ldi.statefulPodIndex ≠ rdi.statefulPodIndex then
      decide (ldi.statefulPodIndex < rdi.statefulPodIndex)
    else if ldi.id ≠ rdi.id then decide (ldi.id < rdi.id)
    else if (heap l).nameHash ≠ (heap r).nameHash then
      HashCode.lt (heap l).nameHash (heap r).nameHash
    else decide (ldi.name < rdi.name)
  | none, some _ => true
  | _, none => false

/-- `consistent_hash_compare_index`. -/
def consistentHashCompareIndex (heap : NodeHeap) (l r : NodeHashType) : Bool :=
  if l.hashCode ≠ r.hashCode then HashCode.lt l.hashCode r.hashCode
  else roundRobinCompareIndex heap l.node r.node

/-- `node_equal`: the same node, or two nodes with one id, or with one name where an id is
    missing. -/
def nodeEqual (heap : NodeHeap) (l r : Option NodePtr) : Bool :=
  if l = r then true
  else match l, r with
    | some l, some r =>
      if (heap l).id ≠ 0 ∧ (heap r).id ≠ 0 then (heap l).id == (heap r).id
      else (heap l).name == (heap r).name
    | _, _ => false

/-- The pod index, id, name hash and name of a node, in the order in which they are compared. -/
abbrev OrderKey := ℤ ×ₗ ℕ ×ₗ (ℕ ×ₗ ℕ) ×ₗ Bytes

/-- What `round_robin_compare_index` compares, as one key. -/
def orderKey (heap : NodeHeap) (p : NodePtr) : OrderKey :=
  toLex ((heap p).nodeInfo.statefulPodIndex,
    toLex ((heap p).id, toLex (toLex (heap p).nameHash, (heap p).name)))

/-- The key of a reference, null below all nodes. -/
def nullableKey (heap : NodeHeap) : Option NodePtr → WithBot OrderKey
  | none => ⊥
  | some p => orderKey heap p

/-- What `consistent_hash_compare_index` compares, as one key. -/
def pointKey (heap : NodeHeap) (point : NodeHashType) : (ℕ ×ₗ ℕ) ×ₗ WithBot OrderKey :=
  toLex (toLex point.hashCode, nullableKey heap point.node)

theorem HashCode.lt_eq (l r : HashCode) : HashCode.lt l r = decide (toLex l < toLex r) := by
  rw [Bool.eq_iff_iff]
  simp [HashCode.lt, Prod.Lex.lt_iff]

/-- The order of the nodes is the order of their keys. -/
theorem roundRobinCompareIndex_eq (heap : NodeHeap) (l r : NodePtr) :
    roundRobinCompareIndex heap (some l) (some r) = decide (orderKey heap l < orderKey heap r) := by
  rw [Bool.eq_iff_iff, decide_eq_true_iff]
  simp only [roundRobinCompareIndex, orderKey, Prod.Lex.lt_iff, ofLex_toLex, HashCode.lt_eq]
  split
  · next h => simp [h]
  · next h =>
      simp only [ne_eq, Decidable.not_not] at h
      split
      · next hid => simp [h, hid]
      · next hid =>
          simp only [ne_eq, Decidable.not_not] at hid
          split
          · next hh => simp [h, hid, hh]
          · next hh =>
              simp only [ne_eq, Decidable.not_not] at hh
              simp [h, hid, hh]

theorem roundRobinCompareIndex_eq_nullable (heap : NodeHeap) (l r : Option NodePtr) :
    roundRobinCompareIndex heap l r = decide (nullableKey heap l < nullableKey heap r) := by
  cases l with
  | none =>
      cases r with
      | none => exact (decide_eq_false (lt_irrefl _)).symm
      | some r => exact (decide_eq_true (WithBot.bot_lt_coe _)).symm
  | some l =>
      cases r with
      | none => exact (decide_eq_false not_lt_bot).symm
      | some r =>
          rw [roundRobinCompareIndex_eq, decide_eq_decide]
          exact WithBot.coe_lt_coe.symm

/-- The order of the points is the order of their keys. -/
theorem consistentHashCompareIndex_eq (heap : NodeHeap) (l r : NodeHashType) :
    consistentHashCompareIndex heap l r = decide (pointKey heap l < pointKey heap r) := by
  rw [Bool.eq_iff_iff, decide_eq_true_iff]
  simp only [consistentHashCompareIndex, pointKey, Prod.Lex.lt_iff, ofLex_toLex, HashCode.lt_eq,
    roundRobinCompareIndex_eq_nullable]
  split
  · next h => simp [h]
  · next h =>
      simp only [ne_eq, Decidable.not_not] at h
      simp [h]

/-! ## Rebuilding an index -/

namespace EtcdDiscoverySet

variable (cfg : HashConfig) (heap : NodeHeap) (s : EtcdDiscoverySet)

/-- Does `rebuild_cache` take the node for this rule? A null rule takes every node, a node without
    metadata is tested with the default instance. -/
def matchesRule (rule : Option AtappMetadata) (p : NodePtr) : Bool :=
  match rule with
  | none => true
  | some r => AtappMetadata.filter r (heap p).nodeInfo.metadataOrDefault

/-- The first loop of `rebuild_cache`: the nodes with a name. -/
def namedNodes (rule : Option AtappMetadata) : List NodePtr :=
  (s.nodeByName.entries.map Sigma.snd).filter
    (fun p => matchesRule heap rule p && !(heap p).name.isEmpty)

/-- The second loop of `rebuild_cache`: the nodes that only have an id. -/
def unnamedNodes (rule : Option AtappMetadata) : List NodePtr :=
  (s.nodeById.entries.map Sigma.snd).filter
    (fun p => matchesRule heap rule p && (heap p).name.isEmpty)

/-- The buffer whose hashes place a node on the ring: its name, or the bytes of its id. -/
def hashBuffer (p : NodePtr) : Bytes :=
  if (heap p).name.isEmpty then consistentHashToSpan (heap p).id else (heap p).name

/-- The `HASH_POINT_PER_INS` points of a node. -/
def hashPoints (p : NodePtr) : List NodeHashType :=
  (List.range hashPointPerIns).map (fun i =>
    { node := some p, hashCode := consistentHashCalc cfg (hashBuffer heap p) i })

/-- `rebuild_cache`. -/
def rebuildCache (cacheSet : IndexCacheType) (rule : Option AtappMetadata) : IndexCacheType :=
  if !cacheSet.normalHashingRing.isEmpty then cacheSet
  else if s.isEmpty then cacheSet
  else
    let cacheSet := cacheSet.clearCache
    let nodes := s.namedNodes heap rule ++ s.unnamedNodes heap rule
    { cacheSet with
      roundRobinCache :=
        nodes.insertionSort (fun l r => !roundRobinCompareIndex heap (some r) (some l))
      referenceCache := nodes
      roundRobinIndex := 0
      normalHashingRing := (nodes.flatMap (hashPoints cfg heap)).insertionSort
        (fun l r => !consistentHashCompareIndex heap r l) }

/-- The loop of `rebuild_compact_cache`: keep the last point of every run of points of one node;
    returns the kept points and the last point of the ring. -/
def compactLoop (previous : NodeHashType) :
    List NodeHashType → List NodeHashType × NodeHashType
  | [] => ([], previous)
  | point :: rest =>
    let (kept, last) := compactLoop point rest
    if nodeEqual heap point.node previous.node then (kept, last) else (previous :: kept, last)

/-- The points `rebuild_compact_cache` keeps of a ring. The last run is dropped when it continues
    in the first one. -/
def compactRing : List NodeHashType → List NodeHashType
  | [] => []
  | first :: rest =>
    let (kept, last) := compactLoop heap first rest
    match kept with
    | [] => [last]
    | front :: _ => if nodeEqual heap last.node front.node then kept else kept ++ [last]

/-- `rebuild_compact_cache`. -/
def rebuildCompactCache (cacheSet : IndexCacheType) (rule : Option AtappMetadata) :
    IndexCacheType :=
  if !cacheSet.compactHashingRing.isEmpty then cacheSet
  else if s.isEmpty then cacheSet
  else
    let cacheSet := s.rebuildCache cfg heap cacheSet rule
    { cacheSet with compactHashingRing := compactRing heap cacheSet.normalHashingRing }

/-! ## Queries -/

/-- The index `mutable_index_cache` returns: the default one for a null or empty rule, else that
    of the rule, empty when there is none yet. -/
def cachedIndex (metadata : Option AtappMetadata) : IndexCacheType :=
  match metadata.filter (fun m => !m.isEmpty) with
  | none => s.defaultIndex
  | some m => ((s.metadataIndex.find m).map Prod.snd).getD {}

/-- The set after the index of a rule was changed to `c`. -/
def setCachedIndex (metadata : Option AtappMetadata) (c : IndexCacheType) : EtcdDiscoverySet :=
  match metadata.filter (fun m => !m.isEmpty) with
  | none => { s with defaultIndex := c }
  | some m => { s with metadataIndex := s.metadataIndex.assign m c }

/-- `mutable_index_cache` and what the caller does with the index it returns: run `f` on it and
    keep the result. -/
def withIndexCache {α : Type} (metadata : Option AtappMetadata)
    (f : IndexCacheType → IndexCacheType × α) : EtcdDiscoverySet × α :=
  let r := f (s.cachedIndex metadata)
  (s.setCachedIndex metadata r.1, r.2)

/-- The index of a rule brought up to date for a query on its nodes. -/
def refreshNodes (metadata : Option AtappMetadata) (c : IndexCacheType) : IndexCacheType :=
  if c.roundRobinCache.isEmpty then s.rebuildCache cfg heap c metadata else c

/-- The index of a rule brought up to date for a search on one of its rings. -/
def refreshRing (compactMode : Bool) (metadata : Option AtappMetadata) (c : IndexCacheType) :
    IndexCacheType :=
  if compactMode then
    if c.compactHashingRing.isEmpty then s.rebuildCompactCache cfg heap c metadata else c
  else
    if c.normalHashingRing.isEmpty then s.rebuildCache cfg heap c metadata else c

/-- The ring a search runs on. -/
def selectHashRing (compactMode : Bool) (c : IndexCacheType) : List NodeHashType :=
  if compactMode then c.compactHashingRing else c.normalHashingRing

/-- `get_sorted_nodes`. -/
def getSortedNodes (metadata : Option AtappMetadata) : EtcdDiscoverySet × List NodePtr :=
  s.withIndexCache metadata (fun c =>
    let c := s.refreshNodes cfg heap metadata c
    (c, c.roundRobinCache))

/-- `get_node_by_random`, with the number the generator draws. -/
def getNodeByRandom (draw : Nat) (metadata : Option AtappMetadata) :
    EtcdDiscoverySet × Option NodePtr :=
  s.withIndexCache metadata (fun c =>
    let c := s.refreshNodes cfg heap metadata c
    (c, c.roundRobinCache[draw % c.roundRobinCache.length]?))

/-- `get_node_by_round_robin`. -/
def getNodeByRoundRobin (metadata : Option AtappMetadata) : EtcdDiscoverySet × Option NodePtr :=
  s.withIndexCache metadata (fun c =>
    let c := s.refreshNodes cfg heap metadata c
    if c.roundRobinCache.isEmpty then (c, none)
    else
      let index := if c.roundRobinCache.length ≤ c.roundRobinIndex then
        c.roundRobinIndex % c.roundRobinCache.length else c.roundRobinIndex
      ({ c with roundRobinIndex := index + 1 }, c.roundRobinCache[index]?))

/-- `search_mode`: three independent flags. -/
structure SearchMode where
  compact : Bool := false
  unique : Bool := false
  next : Bool := false
  deriving DecidableEq

/-- The ring from `std::lower_bound` of the hash on, once around. -/
def ringFrom (ring : List NodeHashType) (hashCode : HashCode) : List NodeHashType :=
  ring.dropWhile (fun e => HashCode.lt e.hashCode hashCode) ++
    ring.takeWhile (fun e => HashCode.lt e.hashCode hashCode)

theorem ringFrom_eq (ring : List NodeHashType) (hashCode : HashCode) :
    ringFrom ring hashCode =
      SortedRing.ringFrom (fun e => HashCode.lt e.hashCode hashCode) ring := rfl

/-- The loop of `lower_bound_node_hash_by_consistent_hash` over the points met in ring order;
    `room` is what the output may still take and `uniqueCache` the nodes already given. -/
def searchLoop (mode : SearchMode) (key : NodeHashType) :
    Nat → List (Option NodePtr) → List NodeHashType → List NodeHashType
  | 0, _, _ => []
  | _, _, [] => []
  | room + 1, uniqueCache, point :: rest =>
    if mode.next && (mode.unique || key.hashCode == point.hashCode) &&
        nodeEqual heap point.node key.node then
      searchLoop mode key (room + 1) uniqueCache rest
    else if mode.unique && uniqueCache.contains point.node then
      searchLoop mode key (room + 1) uniqueCache rest
    else
      point :: searchLoop mode key room (point.node :: uniqueCache) rest

/-- `lower_bound_node_hash_by_consistent_hash`: the points written to an output of this size. -/
def lowerBoundNodeHashByConsistentHash (outputSize : Nat) (key : NodeHashType)
    (metadata : Option AtappMetadata) (mode : SearchMode) :
    EtcdDiscoverySet × List NodeHashType :=
  if outputSize = 0 then (s, [])
  else s.withIndexCache metadata (fun c =>
    let c := s.refreshRing cfg heap mode.compact metadata c
    let ring := selectHashRing mode.compact c
    let maxOutputSize := if mode.unique then c.roundRobinCache.length else ring.length
    (c, searchLoop heap mode key (min outputSize maxOutputSize) []
      (ringFrom ring key.hashCode)))

/-- `get_node_hash_by_consistent_hash` of a key's bytes. -/
def getNodeHashByConsistentHash (buf : Bytes) (metadata : Option AtappMetadata) :
    EtcdDiscoverySet × NodeHashType :=
  let hashKey := consistentHashCalc cfg buf cfg.hashMagicNumber
  let r := s.lowerBoundNodeHashByConsistentHash cfg heap 1 { node := none, hashCode := hashKey }
    metadata {}
  (r.1, r.2.headD { node := none, hashCode := hashKey })

/-- `get_node_by_consistent_hash`. -/
def getNodeByConsistentHash (buf : Bytes) (metadata : Option AtappMetadata) :
    EtcdDiscoverySet × Option NodePtr :=
  let r := s.getNodeHashByConsistentHash cfg heap buf metadata
  (r.1, r.2.node)

end EtcdDiscoverySet

end LibAtapp
