import LibAtapp.Etcdcli.ConsistentHash

set_option autoImplicit false

/-! # Searches without repetition, and walks around the ring

A search in a unique mode takes the nodes in the order of their first points from the hash of the
key on and leaves out the node of the key if it searches for the next nodes. Asking again and again
for the next point goes once around the ring. Both only depend on the index that answers, so they
are exact exactly if this index misses no node. -/

namespace LibAtapp

namespace EtcdDiscoverySet

open SortedRing CyclicRuns

variable {cfg : HashConfig} {heap : NodeHeap} {s : EtcdDiscoverySet} {rule : Option AtappMetadata}

/-! ## What searches should give -/

/-- Where the first point of a node stands on the ring of all accepted nodes, read from a hash on. -/
def firstPoint (cfg : HashConfig) (heap : NodeHeap) (s : EtcdDiscoverySet)
    (rule : Option AtappMetadata) (hashCode : HashCode) (node : Option NodePtr) : Nat :=
  ((ringFrom (s.freshIndex cfg heap rule).normalHashingRing hashCode).map
    NodeHashType.node).idxOf node

/-- The accepted nodes that `node_equal` takes for the node of the key. -/
def keyNodes (heap : NodeHeap) (s : EtcdDiscoverySet) (rule : Option AtappMetadata)
    (key : NodeHashType) : List NodePtr :=
  (s.ruleNodes heap rule).filter (fun p => nodeEqual heap (some p) key.node)

/-- 1 if the mode searches for the next nodes and the node of the key is an accepted node. -/
def leftOut (heap : NodeHeap) (s : EtcdDiscoverySet) (rule : Option AtappMetadata)
    (key : NodeHashType) (next : Bool) : Nat :=
  if next = true ∧ s.keyNodes heap rule key ≠ [] then 1 else 0

/-- What a search in a unique mode should write to an output of this size: different accepted
    nodes, the nearest ones in the order of their first points, as many as there are and fit, and
    never the node of the key if it is left out. -/
structure UniqueSearch (cfg : HashConfig) (heap : NodeHeap) (s : EtcdDiscoverySet)
    (rule : Option AtappMetadata) (outputSize : Nat) (key : NodeHashType) (next : Bool)
    (points : List NodeHashType) : Prop where
  nodup : (points.map NodeHashType.node).Nodup
  accepted : ∀ point ∈ points, ∃ p, point.node = some p ∧ s.Live p ∧ matchesRule heap rule p = true
  ordered : (points.map NodeHashType.node).Pairwise fun a b =>
    firstPoint cfg heap s rule key.hashCode a < firstPoint cfg heap s rule key.hashCode b
  nearest : ∀ p, s.Live p → matchesRule heap rule p = true → taken heap next key (some p) = true →
    some p ∉ points.map NodeHashType.node → ∀ point ∈ points,
      firstPoint cfg heap s rule key.hashCode point.node <
        firstPoint cfg heap s rule key.hashCode (some p)
  count : points.length =
    min outputSize ((s.ruleNodes heap rule).length - leftOut heap s rule key next)
  notKey : next = true → ∀ point ∈ points, nodeEqual heap point.node key.node = false

/-- `lower_bound_node_hash_by_consistent_hash` for the single next point of a point. -/
def nextPoint (cfg : HashConfig) (heap : NodeHeap) (rule : Option AtappMetadata)
    (s : EtcdDiscoverySet) (point : NodeHashType) : EtcdDiscoverySet × Option NodeHashType :=
  let r := s.lowerBoundNodeHashByConsistentHash cfg heap 1 point rule { next := true }
  (r.1, r.2.head?)

/-- The points met by asking for the next point this many times. -/
def walk (cfg : HashConfig) (heap : NodeHeap) (rule : Option AtappMetadata) :
    Nat → EtcdDiscoverySet → NodeHashType → List NodeHashType
  | 0, _, _ => []
  | steps + 1, s, point =>
    match nextPoint cfg heap rule s point with
    | (_, none) => []
    | (s, some point) => point :: walk cfg heap rule steps s point

/-- From every point of the ring of all accepted nodes, a walk of the length of the ring meets every
    point once and ends where it started, if the points have different hashes. -/
def WalksAround (cfg : HashConfig) (heap : NodeHeap) (s : EtcdDiscoverySet)
    (rule : Option AtappMetadata) : Prop :=
  let ring := (s.freshIndex cfg heap rule).normalHashingRing
  (ring.map NodeHashType.hashCode).Nodup → ∀ start ∈ ring,
    (walk cfg heap rule ring.length s start).Perm ring ∧
      (walk cfg heap rule ring.length s start).getLast? = some start

/-- All unique searches with a key, and the walks. -/
structure RingSearchesExact (cfg : HashConfig) (heap : NodeHeap) (s : EtcdDiscoverySet)
    (rule : Option AtappMetadata) (key : NodeHashType) : Prop where
  unique : ∀ outputSize (mode : SearchMode), mode.unique = true →
    UniqueSearch cfg heap s rule outputSize key mode.next
      (s.lowerBoundNodeHashByConsistentHash cfg heap outputSize key rule mode).2
  around : WalksAround cfg heap s rule

/-! ## Unique searches on a current index -/

/-- The nodes of a ring in the order of their first points from a hash on. -/
def nodesFrom (ring : List NodeHashType) (hashCode : HashCode) : List (Option NodePtr) :=
  firsts [] ((ringFrom ring hashCode).map NodeHashType.node)

/-- On the ring of all accepted nodes each of them is met. -/
theorem nodesFrom_perm (cfg : HashConfig) (h : IndexInv heap s) (rule : Option AtappMetadata)
    (hashCode : HashCode) :
    (nodesFrom (s.freshIndex cfg heap rule).normalHashingRing hashCode).Perm
      ((s.ruleNodes heap rule).map some) := by
  have hexact := exactIndex_freshIndex cfg h rule
  refine (List.perm_ext_iff_of_nodup (firsts_nodup _)
    ((nodup_ruleNodes h rule).map (Option.some_injective _))).2 fun node => ?_
  have hring : ∀ point, point ∈ ringFrom (s.freshIndex cfg heap rule).normalHashingRing hashCode ↔
      point ∈ (s.freshIndex cfg heap rule).normalHashingRing := by
    intro point
    rw [ringFrom_eq]
    exact (ringFrom_perm _ _).mem_iff
  change node ∈ firsts [] _ ↔ _
  rw [mem_firsts]
  simp only [List.mem_map, hring, List.not_mem_nil, not_false_eq_true, and_true]
  constructor
  · rintro ⟨point, hpoint, rfl⟩
    obtain ⟨p, hp, hnode⟩ := hexact.point_node point hpoint
    exact ⟨p, (mem_ruleNodes h rule p).2 ((hexact.mem p).1 hp), hnode.symm⟩
  · rintro ⟨p, hp, rfl⟩
    -- the node has points
    have hcount := hexact.points p ((hexact.mem p).2 ((mem_ruleNodes h rule p).1 hp))
    obtain ⟨point, hpoint, hnode⟩ := List.countP_pos_iff.1
      (hcount.symm ▸ (by decide : 0 < hashPointPerIns))
    exact ⟨point, hpoint, beq_iff_eq.1 hnode⟩

/-- The nodes that a unique search on a rebuilt index finds. -/
theorem map_node_freshSearch (h : IndexInv heap s) (outputSize : Nat) (key : NodeHashType)
    {mode : SearchMode} (hunique : mode.unique = true) :
    (freshSearch cfg heap s rule outputSize key mode).map NodeHashType.node =
      ((nodesFrom (s.freshIndex cfg heap rule).normalHashingRing key.hashCode).filter
        (taken heap mode.next key)).take (min outputSize (s.ruleNodes heap rule).length) := by
  have hserves : Serves s (s.freshIndex cfg heap rule) := cleared_empty.serves.rebuildCache h
  have hlength : (s.freshIndex cfg heap rule).roundRobinCache.length =
      (s.ruleNodes heap rule).length := by
    rw [freshIndex_roundRobinCache, length_sortBy]
  obtain ⟨compactMode, unique, next⟩ := mode
  obtain rfl : unique = true := hunique
  simp only [freshSearch, if_true, hlength, nodesFrom]
  cases compactMode with
  | false => rw [if_neg Bool.false_ne_true, map_node_searchLoop, firsts_filter]
  | true =>
    rw [if_pos rfl, map_node_searchLoop, firsts_filter, hserves.compactRing_eq h, ringFrom_eq,
      ringFrom_eq, firsts_ringFrom_compact _ (hserves.initial_below key.hashCode)]

/-- How many nodes are left after leaving out those taken for the node of the key. -/
theorem length_filter_taken (cfg : HashConfig) (h : IndexInv heap s) (rule : Option AtappMetadata)
    (key : NodeHashType) (next : Bool) :
    ((nodesFrom (s.freshIndex cfg heap rule).normalHashingRing key.hashCode).filter
        (taken heap next key)).length =
      (s.ruleNodes heap rule).length -
        if next = true then (s.keyNodes heap rule key).length else 0 := by
  rw [((nodesFrom_perm cfg h rule key.hashCode).filter _).length_eq, List.filter_map,
    List.length_map]
  have hsplit := List.length_eq_length_filter_add (l := s.ruleNodes heap rule)
    (taken heap next key ∘ some)
  cases next with
  | false =>
    have hall : (s.ruleNodes heap rule).filter (taken heap false key ∘ some) =
        s.ruleNodes heap rule := List.filter_eq_self.2 fun p _ => by simp [taken]
    rw [hall, if_neg Bool.false_ne_true, Nat.sub_zero]
  | true =>
    have hkey : (s.ruleNodes heap rule).filter
        (fun p => !(taken heap true key ∘ some) p) = s.keyNodes heap rule key :=
      List.filter_congr fun p _ => by simp [taken]
    rw [hkey] at hsplit
    rw [if_pos rfl]
    omega

/-- The searches in unique modes on a rebuilt index are exact, if `node_equal` takes at most one
    accepted node for the node of the key. -/
theorem uniqueSearch_freshSearch (h : IndexInv heap s) (outputSize : Nat) {key : NodeHashType}
    (hone : (s.keyNodes heap rule key).length ≤ 1) {mode : SearchMode}
    (hunique : mode.unique = true) :
    UniqueSearch cfg heap s rule outputSize key mode.next
      (freshSearch cfg heap s rule outputSize key mode) := by
  have hnodes := @map_node_freshSearch cfg heap s rule h outputSize key mode hunique
  have hperm := nodesFrom_perm cfg h rule key.hashCode
  have hordered : (nodesFrom (s.freshIndex cfg heap rule).normalHashingRing
      key.hashCode).Pairwise fun a b => firstPoint cfg heap s rule key.hashCode a <
        firstPoint cfg heap s rule key.hashCode b :=
    firsts_pairwise_idxOf []
      ((ringFrom (s.freshIndex cfg heap rule).normalHashingRing key.hashCode).map NodeHashType.node)
  have hlength := length_filter_taken cfg h rule key mode.next
  generalize hall : nodesFrom (s.freshIndex cfg heap rule).normalHashingRing key.hashCode = nodes
    at hnodes hperm hordered hlength
  have hordered := hordered.filter (taken heap mode.next key)
  have hmem : ∀ point ∈ freshSearch cfg heap s rule outputSize key mode,
      point.node ∈ nodes.filter (taken heap mode.next key) := fun point hpoint =>
    List.mem_of_mem_take (hnodes ▸ List.mem_map_of_mem hpoint)
  constructor
  case nodup =>
    rw [hnodes]
    exact ((hperm.nodup_iff.2 ((nodup_ruleNodes h rule).map (Option.some_injective _))).filter
      _).sublist (List.take_sublist _ _)
  case accepted =>
    intro point hpoint
    obtain ⟨p, hp, hnode⟩ := List.mem_map.1
      (hperm.mem_iff.1 (List.mem_of_mem_filter (hmem point hpoint)))
    exact ⟨p, hnode.symm, (mem_ruleNodes h rule p).1 hp⟩
  case ordered =>
    rw [hnodes]
    exact hordered.sublist (List.take_sublist _ _)
  case nearest =>
    intro p hl hm htaken hnot point hpoint
    rw [hnodes] at hnot
    have hp : some p ∈ nodes.filter (taken heap mode.next key) :=
      List.mem_filter.2 ⟨hperm.mem_iff.2
        (List.mem_map_of_mem ((mem_ruleNodes h rule p).2 ⟨hl, hm⟩)), htaken⟩
    -- the nodes found are an initial part of those not left out
    rw [← List.take_append_drop (min outputSize (s.ruleNodes heap rule).length)
      (nodes.filter (taken heap mode.next key))] at hp hordered
    refine (List.pairwise_append.1 hordered).2.2 _ ?_ _
      ((List.mem_append.1 hp).resolve_left hnot)
    exact hnodes ▸ List.mem_map_of_mem hpoint
  case count =>
    rw [← List.length_map NodeHashType.node, hnodes, List.length_take, hlength]
    unfold leftOut
    cases mode.next with
    | false => simp
    | true =>
      rw [if_pos rfl]
      by_cases hnil : s.keyNodes heap rule key = []
      · rw [if_neg fun hne => hne.2 hnil, hnil]
        simp
      · have hpos : 0 < (s.keyNodes heap rule key).length := List.length_pos_iff.2 hnil
        rw [if_pos ⟨rfl, hnil⟩]
        omega
  case notKey =>
    intro hnext point hpoint
    have htaken := (List.mem_filter.1 (hmem point hpoint)).2
    rw [hnext] at htaken
    simpa [taken] using htaken

/-! ## Walks on a current index -/

/-- What a walk keeps: the index of the rule is current, and a rebuild gives this ring. -/
structure Walking (cfg : HashConfig) (heap : NodeHeap) (rule : Option AtappMetadata)
    (ring : List NodeHashType) (s : EtcdDiscoverySet) : Prop where
  current : Current cfg heap s rule (s.cachedIndex rule)
  fresh : (s.freshIndex cfg heap rule).normalHashingRing = ring

theorem Walking.nextPoint {ring : List NodeHashType} (h : Walking cfg heap rule ring s)
    (point : NodeHashType) : Walking cfg heap rule ring (nextPoint cfg heap rule s point).1 := by
  simp only [EtcdDiscoverySet.nextPoint, lowerBoundNodeHashByConsistentHash,
    if_neg Nat.one_ne_zero]
  refine ⟨?_, ?_⟩
  · rw [cachedIndex_withIndexCache]
    exact Current.withIndexCache _ (Or.inr (h.current.refreshRing false).1)
  · rw [← h.fresh]
    simp only [freshIndex_eq, rulePoints, ruleNodes, namedNodes, unnamedNodes,
      withIndexCache_nodeById, withIndexCache_nodeByName]

/-- On a ring of at least two points with different hashes, the next point of a point is its
    successor. -/
theorem nextPoint_eq {ring : List NodeHashType} (h : Walking cfg heap rule ring s)
    (hsorted : ring.Pairwise fun a b => toLex a.hashCode < toLex b.hashCode)
    (htwo : 2 ≤ ring.length) {i : Nat} (hi : i < ring.length) :
    (EtcdDiscoverySet.nextPoint cfg heap rule s ring[i]).2 = ring[(i + 1) % ring.length]? := by
  have hrotate : ringFrom ring ring[i].hashCode = ring.rotate i := by
    rw [ringFrom_eq, ← ringFrom_getElem hsorted hi]
    simp only [HashCode.lt_eq]
  -- read from the point on, the ring starts with the point itself and its successor
  have hlength : (ring.rotate i).length = ring.length := List.length_rotate ..
  have hfirst : (ring.rotate i)[0]? = some ring[i] := by
    rw [List.getElem?_rotate (by omega), Nat.zero_add, Nat.mod_eq_of_lt hi,
      List.getElem?_eq_getElem hi]
  have hsecond : (ring.rotate i)[1]? = ring[(i + 1) % ring.length]? := by
    rw [List.getElem?_rotate (by omega), Nat.add_comm]
  rw [EtcdDiscoverySet.nextPoint, lowerBound_of_current h.current, ← hsecond]
  simp only [freshSearch, Bool.false_eq_true, if_false, h.fresh, hrotate,
    Nat.min_eq_left (show 1 ≤ ring.length by omega)]
  have hdistinct : (ring.rotate i).Pairwise fun a b => a.hashCode ≠ b.hashCode := by
    refine ((List.rotate_perm ring i).pairwise_iff fun hab => hab.symm).2 ?_
    exact hsorted.imp fun hab he => absurd (he ▸ hab) (lt_irrefl _)
  rcases hring : ring.rotate i with _ | ⟨first, _ | ⟨second, rest⟩⟩
  · rw [hring] at hfirst; exact absurd hfirst (by simp)
  · rw [hring] at hlength; exact absurd hlength.symm (by simp; omega)
  · rw [hring] at hfirst hdistinct
    obtain rfl : first = ring[i] := by simpa using hfirst
    have hne := (List.pairwise_cons.1 hdistinct).1 second List.mem_cons_self
    simp [searchLoop, nodeEqual_self, hne]

/-- A walk goes through the successors. -/
theorem walk_eq {ring : List NodeHashType} (h : Walking cfg heap rule ring s)
    (hsorted : ring.Pairwise fun a b => toLex a.hashCode < toLex b.hashCode)
    (htwo : 2 ≤ ring.length) (steps : Nat) {i : Nat} (hi : i < ring.length) :
    (walk cfg heap rule steps s ring[i]).map some =
      (List.range steps).map fun j => ring[(i + 1 + j) % ring.length]? := by
  induction steps generalizing s i with
  | zero => rfl
  | succ steps ih =>
    have hnext : (i + 1) % ring.length < ring.length := Nat.mod_lt _ (by omega)
    have hpoint := nextPoint_eq h hsorted htwo hi
    rw [List.getElem?_eq_getElem hnext] at hpoint
    rw [walk]
    split
    · next s' hstep => rw [hstep] at hpoint; exact absurd hpoint (by simp)
    · next s' point hstep =>
      have hkeep := h.nextPoint ring[i]
      rw [hstep] at hpoint hkeep
      obtain rfl : point = ring[(i + 1) % ring.length] := Option.some.inj hpoint
      rw [List.map_cons, ih hkeep hnext, List.range_succ_eq_map, List.map_cons, List.map_map]
      simp only [Nat.add_zero, List.getElem?_eq_getElem hnext]
      congr 1
      refine List.map_congr_left fun j _ => ?_
      have hindex : ((i + 1) % ring.length + 1 + j) % ring.length =
          (i + 1 + (j + 1)) % ring.length := by
        rw [Nat.add_assoc, Nat.mod_add_mod, Nat.add_comm 1 j]
      rw [hindex]
      rfl

/-- A walk of the length of the ring is the ring read from behind the start on. -/
theorem walk_around {ring : List NodeHashType} (h : Walking cfg heap rule ring s)
    (hsorted : ring.Pairwise fun a b => toLex a.hashCode < toLex b.hashCode)
    (htwo : 2 ≤ ring.length) {i : Nat} (hi : i < ring.length) :
    walk cfg heap rule ring.length s ring[i] = ring.rotate (i + 1) := by
  refine List.map_injective_iff.2 (Option.some_injective _) ?_
  rw [walk_eq h hsorted htwo ring.length hi]
  refine List.ext_getElem? fun j => ?_
  by_cases hj : j < ring.length
  · rw [List.getElem?_map, List.getElem?_range hj, List.getElem?_map, List.getElem?_rotate hj,
      Nat.add_comm j]
    have hin : (i + 1 + j) % ring.length < ring.length := Nat.mod_lt _ (by omega)
    simp only [List.getElem?_eq_getElem hin, Option.map_some]
  · rw [List.getElem?_eq_none (by simpa using hj), List.getElem?_eq_none (by simpa using hj)]

/-- The points of a rebuilt ring are in the order of their hashes. -/
theorem freshRing_sorted (h : IndexInv heap s)
    (hdistinct : ((s.freshIndex cfg heap rule).normalHashingRing.map
      NodeHashType.hashCode).Nodup) :
    (s.freshIndex cfg heap rule).normalHashingRing.Pairwise
      fun a b => toLex a.hashCode < toLex b.hashCode := by
  have hserves : Serves s (s.freshIndex cfg heap rule) := cleared_empty.serves.rebuildCache h
  refine (hserves.sorted.and (List.pairwise_map.1 hdistinct)).imp fun hab => ?_
  exact lt_of_le_of_ne hab.1 fun he => hab.2 (toLex.injective he)

theorem walksAround_of_current (h : IndexInv heap s)
    (hcur : Current cfg heap s rule (s.cachedIndex rule)) : WalksAround cfg heap s rule := by
  unfold WalksAround
  intro ring hdistinct start hstart
  have hsorted : ring.Pairwise fun a b => toLex a.hashCode < toLex b.hashCode :=
    freshRing_sorted h hdistinct
  have hwalking : Walking cfg heap rule ring s := ⟨hcur, rfl⟩
  -- a node has more than one point
  have htwo : 2 ≤ ring.length := by
    have hexact := exactIndex_freshIndex cfg h rule
    obtain ⟨p, hp, -⟩ := hexact.point_node start hstart
    have hmany : 2 ≤ hashPointPerIns := by decide
    exact hmany.trans ((hexact.points p hp).symm ▸ List.countP_le_length)
  clear_value ring
  obtain ⟨i, hi, rfl⟩ := List.getElem_of_mem hstart
  rw [walk_around hwalking hsorted htwo hi]
  refine ⟨List.rotate_perm ring (i + 1), ?_⟩
  rw [List.getLast?_eq_getElem?, List.length_rotate, List.getElem?_rotate (by omega),
    List.getElem?_eq_getElem (Nat.mod_lt _ (by omega))]
  have hindex : (ring.length - 1 + (i + 1)) % ring.length = i := by
    have hsum : ring.length - 1 + (i + 1) = i + ring.length := by omega
    rw [hsum, Nat.add_mod_right, Nat.mod_eq_of_lt hi]
  simp only [hindex]

/-! ## When searches are exact -/

theorem length_searchLoop_le (mode : SearchMode) (key : NodeHashType) (room : Nat)
    (seen : List (Option NodePtr)) (points : List NodeHashType) :
    (searchLoop heap mode key room seen points).length ≤ room := by
  induction points generalizing room seen with
  | nil => cases room <;> simp [searchLoop]
  | cons point points ih =>
    cases room with
    | zero => simp [searchLoop]
    | succ room =>
      rw [searchLoop]
      split
      · exact ih _ _
      · split
        · exact ih _ _
        · have hrest := ih room (point.node :: seen)
          rw [List.length_cons]
          omega

/-- A unique search finds no more nodes than the cached index has, if it has points. -/
theorem length_lowerBound_le (cfg : HashConfig) (heap : NodeHeap)
    (hring : (s.cachedIndex rule).normalHashingRing ≠ [])
    (outputSize : Nat) (key : NodeHashType) :
    (s.lowerBoundNodeHashByConsistentHash cfg heap outputSize key rule
      { unique := true }).2.length ≤ (s.cachedIndex rule).roundRobinCache.length := by
  unfold lowerBoundNodeHashByConsistentHash
  split
  · simp
  · have hsame : s.refreshRing cfg heap false rule (s.cachedIndex rule) = s.cachedIndex rule := by
      simp [refreshRing, hring]
    simp only [withIndexCache_snd, hsame, if_true]
    exact (length_searchLoop_le _ _ _ _ _).trans (min_le_right _ _)

/-- If unique searches find all nodes, the cached index misses none. -/
theorem covers_of_unique (h : IndexInv heap s) (hc : Subindex cfg heap s rule (s.cachedIndex rule))
    (key : NodeHashType)
    (hcount : (s.lowerBoundNodeHashByConsistentHash cfg heap (s.ruleNodes heap rule).length key rule
      { unique := true }).2.length = (s.ruleNodes heap rule).length) : Covers heap s rule := by
  obtain ⟨l, hb⟩ := hc
  by_cases hring : (s.cachedIndex rule).normalHashingRing = []
  · exact Or.inl (Subindex.cleared_of_ring ⟨l, hb⟩ hring).refs
  · refine Or.inr fun p hl hm => ?_
    by_contra hnot
    -- a node that is missing in the index makes it smaller than the set
    rw [hb.refs] at hnot
    have hsub : p :: l ⊆ s.ruleNodes heap rule := by
      intro q hq
      rw [mem_ruleNodes h]
      rcases List.mem_cons.1 hq with rfl | hq
      · exact ⟨hl, hm⟩
      · exact ⟨hb.live q hq, hb.accepted q hq⟩
    have hless := (List.subperm_of_subset (List.nodup_cons.2 ⟨hnot, hb.nodup⟩) hsub).length_le
    have hle := length_lowerBound_le cfg heap hring (s.ruleNodes heap rule).length key
    rw [hcount, hb.nodes, length_sortBy] at hle
    rw [List.length_cons] at hless
    omega

/-- `node_equal` takes at most one accepted node for the node of a key that is null or live. -/
theorem length_keyNodes_le (h : IndexInv heap s) (rule : Option AtappMetadata) {key : NodeHashType}
    (hkey : ∀ q, key.node = some q → s.Live q) : (s.keyNodes heap rule key).length ≤ 1 := by
  cases hnode : key.node with
  | none =>
    have hnil : s.keyNodes heap rule key = [] := by
      rw [keyNodes, List.filter_eq_nil_iff]
      intro p _
      simp [hnode, nodeEqual]
    simp [hnil]
  | some q =>
    have hsub : s.keyNodes heap rule key ⊆ [q] := by
      intro p hp
      obtain ⟨hp, hequal⟩ := List.mem_filter.1 hp
      rw [hnode] at hequal
      exact List.mem_singleton.2
        (eq_of_nodeEqual h ((mem_ruleNodes h rule p).1 hp).1 (hkey q hnode) hequal)
    exact (List.subperm_of_subset ((nodup_ruleNodes h rule).filter _) hsub).length_le

/-- **Ring searches are exact** for a key exactly if the index cached for the rule misses no
    accepted node, and `node_equal` takes at most one of these nodes for the node of the key. -/
theorem ringSearchesExact_iff {cfg : HashConfig} {st : DiscoveryState}
    (h : DiscoveryState.Indexed cfg st) (rule : Option AtappMetadata) (key : NodeHashType) :
    RingSearchesExact cfg st.heap st.nodes rule key ↔
      Covers st.heap st.nodes rule ∧ (st.nodes.keyNodes st.heap rule key).length ≤ 1 := by
  have hc := h.caches.cachedIndex rule
  have hcurrent := current_iff_covers h.index hc
  have hle : (st.nodes.keyNodes st.heap rule key).length ≤
      (st.nodes.ruleNodes st.heap rule).length := List.length_filter_le _ _
  constructor
  · intro hexact
    have hcovers : Covers st.heap st.nodes rule := by
      refine covers_of_unique h.index hc key ?_
      have hcount := (hexact.unique (st.nodes.ruleNodes st.heap rule).length
        { unique := true } rfl).count
      simpa [leftOut] using hcount
    refine ⟨hcovers, ?_⟩
    -- searching for the next nodes leaves out all nodes that pass for the node of the key
    have hcount := (hexact.unique (st.nodes.ruleNodes st.heap rule).length
      { unique := true, next := true } rfl).count
    rw [lowerBound_of_current (hcurrent.2 hcovers), ← List.length_map NodeHashType.node,
      map_node_freshSearch h.index _ key rfl, List.length_take,
      length_filter_taken cfg h.index rule key] at hcount
    rw [if_pos rfl] at hcount
    unfold leftOut at hcount
    split at hcount
    · omega
    · next hnone =>
      have hnil : st.nodes.keyNodes st.heap rule key = [] := by
        by_contra hne
        exact hnone ⟨rfl, hne⟩
      rw [hnil]
      simp
  · rintro ⟨hcovers, hone⟩
    have hcur := hcurrent.2 hcovers
    refine ⟨fun outputSize mode hunique => ?_, walksAround_of_current h.index hcur⟩
    rw [lowerBound_of_current hcur]
    exact uniqueSearch_freshSearch h.index outputSize hone hunique

/-- Two nodes, and a search for the nodes next to the first one. -/
def searchedOps : List DiscoveryOp :=
  [.copyFromAndAdd 1 { id := 1, name := [97] } {} 0,
    .copyFromAndAdd 2 { id := 2, name := [98] } {} 0,
    .lowerBound 2 { node := some 1, hashCode := (0, 0) } (some DiscoveryState.emptyLabelRule)
      { unique := true, next := true }]

theorem ringSearchesExact_searchedOps :
    RingSearchesExact bucketConfig
      (Run.run (DiscoveryState.step bucketConfig) { heap := thirdNodeHeap } searchedOps).heap
      (Run.run (DiscoveryState.step bucketConfig) { heap := thirdNodeHeap } searchedOps).nodes
      (some DiscoveryState.emptyLabelRule) { node := some 1, hashCode := (0, 0) } := by
  have hindexed : DiscoveryState.Indexed bucketConfig
      (Run.run (DiscoveryState.step bucketConfig) { heap := thirdNodeHeap } searchedOps) :=
    DiscoveryState.indexed_run (DiscoveryState.indexed_empty _ _) (by decide +kernel)
  have hcoherent : Coherent bucketConfig _
      (Run.run (DiscoveryState.step bucketConfig) { heap := thirdNodeHeap } searchedOps).nodes :=
    DiscoveryState.coherent_run (DiscoveryState.wellFormed_empty _)
      (DiscoveryState.coherent_empty _ _) (by decide +kernel)
  refine (ringSearchesExact_iff hindexed _ _).2
    ⟨(current_iff_covers hindexed.index (hindexed.caches.cachedIndex _)).1
      (hcoherent.cachedIndex _), length_keyNodes_le hindexed.index _ fun q hq => ?_⟩
  obtain rfl : 1 = q := Option.some.inj hq
  decide +kernel

/-- With the index left stale by `staleOps`, a unique search finds one of two accepted nodes. -/
theorem not_ringSearchesExact_staleState :
    DiscoveryState.Indexed bucketConfig staleState ∧
      ¬ RingSearchesExact bucketConfig staleState.heap staleState.nodes
        (some DiscoveryState.emptyLabelRule) { node := none, hashCode := (0, 0) } := by
  refine ⟨DiscoveryState.indexed_run (DiscoveryState.indexed_empty _ _) (by decide +kernel),
    fun hexact => ?_⟩
  have hcount := (hexact.unique 2 { unique := true } rfl).count
  revert hcount
  decide +kernel

end EtcdDiscoverySet

end LibAtapp
