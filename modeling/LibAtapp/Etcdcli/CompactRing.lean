import LibAtapp.Etcdcli.DiscoveryQueries
import LibAtapp.Library.CyclicRuns

set_option autoImplicit false

/-! # The compact ring

`rebuild_compact_cache` keeps the last point of every run of points of one node, around the end of
the ring as well. On the ring of a cached index, whose nodes are live and therefore told apart by
`node_equal`, this is `CyclicRuns.compact`, so that a search on the compact ring finds the same
first node and the same nodes without repetition as a search on the full ring. -/

namespace LibAtapp

namespace EtcdDiscoverySet

open SortedRing CyclicRuns

variable {cfg : HashConfig} {heap : NodeHeap} {s : EtcdDiscoverySet} {rule : Option AtappMetadata}
  {c : IndexCacheType}

/-! ## The ring that is built -/

/-- `node_equal` tells live nodes apart. -/
theorem eq_of_nodeEqual (h : IndexInv heap s) {p q : NodePtr} (hp : s.Live p) (hq : s.Live q)
    (heq : nodeEqual heap (some p) (some q) = true) : p = q := by
  -- both nodes are filed under each key they have
  have hid : ∀ r, s.Live r → (heap r).id ≠ 0 → s.getNodeById (heap r).id = some r := by
    intro r hr hne
    rcases hr with ⟨k, hk⟩ | ⟨n, hn⟩
    · rwa [(h.id_key k r hk).2]
    · exact h.name_to_id n r hn hne
  have hname : ∀ r, s.Live r → (heap r).name ≠ [] → s.getNodeByName (heap r).name = some r := by
    intro r hr hne
    rcases hr with ⟨k, hk⟩ | ⟨n, hn⟩
    · exact h.id_to_name k r hk hne
    · rwa [(h.name_key n r hn).2]
  have hkey : ∀ r, s.Live r → (heap r).id = 0 → (heap r).name ≠ [] := by
    intro r hr hzero
    rcases hr with ⟨k, hk⟩ | ⟨n, hn⟩
    · have := h.id_key k r hk
      exact absurd (this.2.symm.trans hzero) this.1
    · have := h.name_key n r hn
      rw [this.2]
      exact this.1
  unfold nodeEqual at heq
  split at heq
  · next hpq => exact Option.some.inj hpq
  · simp only at heq
    split at heq
    · next hne =>
      have hsame := beq_iff_eq.1 heq
      have := hid p hp hne.1
      rw [hsame, hid q hq hne.2] at this
      exact (Option.some.inj this).symm
    · next hne =>
      have hsame := beq_iff_eq.1 heq
      have hnamed : (heap p).name ≠ [] := by
        by_cases hpid : (heap p).id = 0
        · exact hkey p hp hpid
        · have hqid : (heap q).id = 0 := by
            by_contra hqid
            exact hne ⟨hpid, hqid⟩
          rw [hsame]
          exact hkey q hq hqid
      have := hname p hp hnamed
      rw [hsame, hname q hq (hsame ▸ hnamed)] at this
      exact (Option.some.inj this).symm

theorem nodeEqual_self (heap : NodeHeap) (l : Option NodePtr) : nodeEqual heap l l = true := by
  simp [nodeEqual]

/-- The loop of `rebuild_compact_cache` where `node_equal` is equality of nodes. -/
theorem compactLoop_eq (first : NodeHashType) (rest : List NodeHashType)
    (hnodes : ∀ a ∈ first :: rest, ∀ b ∈ first :: rest,
      nodeEqual heap a.node b.node = true → a.node = b.node) :
    compactLoop heap first rest =
      (runEnds NodeHashType.node first rest, lastOf first rest) := by
  induction rest generalizing first with
  | nil => rfl
  | cons point rest ih =>
    have hrest : ∀ a ∈ point :: rest, ∀ b ∈ point :: rest,
        nodeEqual heap a.node b.node = true → a.node = b.node :=
      fun a ha b hb => hnodes a (List.mem_cons_of_mem _ ha) b (List.mem_cons_of_mem _ hb)
    have hlast : lastOf first (point :: rest) = lastOf point rest := List.getLast_cons_cons
    simp only [compactLoop, ih point hrest, runEnds, hlast]
    by_cases hsame : point.node = first.node
    · rw [if_pos hsame, hsame, if_pos (nodeEqual_self heap _)]
    · rw [if_neg hsame, if_neg]
      intro heq
      exact hsame (hnodes point (by simp) first (by simp) heq)

/-- The ring `rebuild_compact_cache` builds where `node_equal` is equality of nodes. -/
theorem compactRing_eq (ring : List NodeHashType)
    (hnodes : ∀ a ∈ ring, ∀ b ∈ ring, nodeEqual heap a.node b.node = true → a.node = b.node) :
    compactRing heap ring = compact NodeHashType.node ring := by
  cases ring with
  | nil => rfl
  | cons first rest =>
    rw [compact_cons]
    simp only [compactRing, compactLoop_eq first rest hnodes]
    cases hruns : runEnds NodeHashType.node first rest with
    | nil => rfl
    | cons front tail =>
      dsimp only
      have hfront := owner_of_runEnds_cons hruns
      have hlast : lastOf first rest ∈ first :: rest := List.getLast_mem _
      by_cases hsame : (lastOf first rest).node = first.node
      · rw [if_pos hsame, hfront, hsame, if_pos (nodeEqual_self heap _), List.append_nil]
      · rw [if_neg hsame, hfront, if_neg]
        intro heq
        exact hsame (hnodes _ hlast first (by simp) heq)

/-! ## What a cached index holds -/

/-- A cached index holds points of live nodes in the order of their hashes, and a compact ring that
    fits them. It may have missed nodes that were added since. -/
structure Serves (s : EtcdDiscoverySet) (c : IndexCacheType) : Prop where
  live : ∀ p ∈ c.referenceCache, s.Live p
  points : ∀ point ∈ c.normalHashingRing, ∃ p ∈ c.referenceCache, point.node = some p
  sorted : c.normalHashingRing.Pairwise fun a b => toLex a.hashCode ≤ toLex b.hashCode
  compact : c.compactHashingRing = [] ∨
    c.compactHashingRing = CyclicRuns.compact NodeHashType.node c.normalHashingRing

/-- Every cached index of the set. -/
structure AllServe (s : EtcdDiscoverySet) : Prop where
  default : Serves s s.defaultIndex
  rules : ∀ e ∈ s.metadataIndex.entries, Serves s e.2

theorem Cleared.serves (h : Cleared c) : Serves s c where
  live := by simp [h.refs]
  points := by simp [h.ring]
  sorted := by simp [h.ring]
  compact := Or.inl h.compact

theorem Serves.of_live {s' : EtcdDiscoverySet} (h : Serves s c)
    (hlive : ∀ p ∈ c.referenceCache, s.Live p → s'.Live p) : Serves s' c where
  live := fun p hp => hlive p hp (h.live p hp)
  points := h.points
  sorted := h.sorted
  compact := h.compact

theorem ruleProperty_serves (s : EtcdDiscoverySet) :
    RuleProperty fun (_ : Option AtappMetadata) c => Serves s c where
  new := fun _ => cleared_empty.serves
  default := fun _ _ _ => Iff.rfl
  equal := fun _ _ _ _ h => h

theorem AllServe.cachedIndex (h : AllServe s) (rule : Option AtappMetadata) :
    Serves s (s.cachedIndex rule) :=
  cachedIndex_forall (ruleProperty_serves s) ⟨h.default, h.rules⟩

/-- A ring built from live nodes. -/
theorem Serves.compactRing_eq (h : IndexInv heap s) (hc : Serves s c) :
    compactRing heap c.normalHashingRing =
      CyclicRuns.compact NodeHashType.node c.normalHashingRing := by
  refine EtcdDiscoverySet.compactRing_eq _ fun a ha b hb heq => ?_
  obtain ⟨p, hp, hap⟩ := hc.points a ha
  obtain ⟨q, hq, hbq⟩ := hc.points b hb
  rw [hap, hbq] at heq ⊢
  rw [eq_of_nodeEqual h (hc.live p hp) (hc.live q hq) heq]

theorem Serves.rebuildCache (h : IndexInv heap s) (hc : Serves s c) :
    Serves s (s.rebuildCache cfg heap c rule) := by
  by_cases hring : c.normalHashingRing = []
  · cases hs : s.isEmpty with
    | true =>
      have hsame : s.rebuildCache cfg heap c rule = c := by
        simp [EtcdDiscoverySet.rebuildCache, hs]
      rw [hsame]
      exact hc
    | false =>
      rw [rebuildCache_of_ring_nil cfg hring hs]
      refine ⟨fun p hp => ((mem_ruleNodes h rule p).1 hp).1, fun point hpoint => ?_, ?_, Or.inl rfl⟩
      · rw [mem_sortBy] at hpoint
        exact mem_rulePoints_node cfg hpoint
      · exact (sortBy_pairwise (pointKey heap) _).imp fun hab => Prod.Lex.monotone_fst _ _ hab
  · have hsame : s.rebuildCache cfg heap c rule = c := by
      simp [EtcdDiscoverySet.rebuildCache, hring]
    rw [hsame]
    exact hc

theorem Serves.refreshNodes (h : IndexInv heap s) (hc : Serves s c) :
    Serves s (s.refreshNodes cfg heap rule c) := by
  unfold EtcdDiscoverySet.refreshNodes
  split
  · exact hc.rebuildCache h
  · exact hc

theorem Serves.rebuildCompactCache (h : IndexInv heap s) (hc : Serves s c) :
    Serves s (s.rebuildCompactCache cfg heap c rule) := by
  unfold EtcdDiscoverySet.rebuildCompactCache
  split
  · exact hc
  · split
    · exact hc
    · have hup : Serves s (s.rebuildCache cfg heap c rule) := hc.rebuildCache h
      exact ⟨hup.live, hup.points, hup.sorted, Or.inr (hup.compactRing_eq h)⟩

theorem Serves.refreshRing (h : IndexInv heap s) (hc : Serves s c) (compactMode : Bool) :
    Serves s (s.refreshRing cfg heap compactMode rule c) := by
  unfold EtcdDiscoverySet.refreshRing
  split
  · split
    · exact hc.rebuildCompactCache h
    · exact hc
  · split
    · exact hc.rebuildCache h
    · exact hc

/-! ## Steps -/

theorem AllServe.withIndexCache {α : Type} {f : IndexCacheType → IndexCacheType × α}
    (h : AllServe s) (hf : ∀ c, Serves s c → Serves s (f c).1) :
    AllServe (s.withIndexCache rule f).1 := by
  have hall := withIndexCache_forall rule (ruleProperty_serves s) hf ⟨h.default, h.rules⟩
  have hlive : ∀ p, s.Live p → (s.withIndexCache rule f).1.Live p := by
    intro p hp
    simpa [Live, getNodeById, getNodeByName] using hp
  exact ⟨hall.1.of_live fun p _ => hlive p, fun e he => (hall.2 e he).of_live fun p _ => hlive p⟩

theorem AllServe.removeNode (h : IndexInv heap s) (hs : AllServe s) (node : NodePtr) :
    AllServe (s.removeNode heap node) := by
  by_cases hl : s.Live node
  · obtain ⟨hdefault, hrules⟩ := removeNode_caches h hl
    refine ⟨?_, fun e he => ?_⟩
    · rw [hdefault]
      exact (cleared_clearCache _).serves
    · obtain ⟨hmem, hnode, -⟩ := (hrules e).1 he
      refine (hs.rules e hmem).of_live fun p hp hlive => ?_
      rw [h.toIndexSound.live_removeNode]
      exact ⟨hlive, fun heq => hnode (heq ▸ hp)⟩
  · rw [removeNode_of_not_live hl]
    exact hs

/-- A live node that `add_node` does not displace stays live, also when the content of the added
    node has just changed. -/
theorem live_addNode_of_not_displaces {heap' : NodeHeap} {node p : NodePtr} (h : IndexInv heap s)
    (hsame : ∀ q, q ≠ node → heap' q = heap q) (hl : s.Live p)
    (hnot : ¬ s.Displaces heap' node p) : (s.addNode heap' node).Live p := by
  rcases hl with ⟨k, hk⟩ | ⟨n, hn⟩
  · refine Or.inl ⟨k, ?_⟩
    rw [getNodeById_addNode]
    split
    · next hkey =>
      by_cases hp : p = node
      · rw [hp]
      · exact absurd ⟨hp, Or.inl ⟨hkey.1, hkey.2 ▸ hk⟩⟩ hnot
    · split
      · next hold =>
        -- the entry erased belongs to the node displaced from the name
        obtain ⟨hk0, hkold, hne⟩ := hold
        rcases addNodeOldId_spec heap' s node with hzero | ⟨q, hqn, hname, hq, hqid⟩
        · exact absurd (hkold.trans hzero) hk0
        · rw [hsame q hqn, ← hkold] at hqid
          have hqk := h.name_to_id _ q hq (hqid ▸ hk0)
          rw [hqid, hk] at hqk
          exact absurd ⟨(Option.some.inj hqk) ▸ hqn, Or.inr ⟨hname, (Option.some.inj hqk) ▸ hq⟩⟩
            hnot
      · exact hk
  · refine Or.inr ⟨n, ?_⟩
    rw [getNodeByName_addNode]
    split
    · next hkey =>
      by_cases hp : p = node
      · rw [hp]
      · exact absurd ⟨hp, Or.inr ⟨hkey.1, hkey.2 ▸ hn⟩⟩ hnot
    · split
      · next hold =>
        obtain ⟨hn0, hnold, hne⟩ := hold
        rcases addNodeOldName_spec heap' s node with hzero | ⟨q, hqn, hid, hq, hqname⟩
        · exact absurd (hnold.trans hzero) hn0
        · rw [hsame q hqn, ← hnold] at hqname
          have hqk := h.id_to_name _ q hq (hqname ▸ hn0)
          rw [hqname, hn] at hqk
          exact absurd ⟨(Option.some.inj hqk) ▸ hqn, Or.inl ⟨hid, (Option.some.inj hqk) ▸ hq⟩⟩
            hnot
      · exact hn

theorem AllServe.addNode {heap' : NodeHeap} {node : NodePtr} (h : IndexInv heap s)
    (hs : AllServe s) (hsame : ∀ q, q ≠ node → heap' q = heap q) :
    AllServe (s.addNode heap' node) := by
  obtain ⟨hdefault, hrules⟩ := addNode_caches heap' s node
  refine ⟨?_, fun e he => ?_⟩
  · rw [hdefault]
    exact (cleared_clearCache _).serves
  · obtain ⟨hmem, ⟨hdisplaced, -⟩, -⟩ := (hrules e).1 he
    exact (hs.rules e hmem).of_live fun p hp hlive =>
      live_addNode_of_not_displaces h hsame hlive fun hd => hdisplaced p hd hp

/-! ## Both rings of one index -/

/-- The compact ring that a search finds fits the full ring that a search finds, and both come
    with the same nodes. -/
theorem refreshRing_compact (h : IndexInv heap s) (hc : Serves s c) :
    (s.refreshRing cfg heap true rule c).compactHashingRing =
        CyclicRuns.compact NodeHashType.node
          (s.refreshRing cfg heap false rule c).normalHashingRing ∧
      (s.refreshRing cfg heap true rule c).roundRobinCache =
        (s.refreshRing cfg heap false rule c).roundRobinCache := by
  have hempty : CyclicRuns.compact NodeHashType.node [] = [] := rfl
  -- a search on the full ring leaves the index that `rebuild_cache` leaves
  have hfull : s.refreshRing cfg heap false rule c = s.rebuildCache cfg heap c rule := by
    unfold refreshRing
    simp only [Bool.false_eq_true, if_false]
    split
    · rfl
    · next hring => simp [EtcdDiscoverySet.rebuildCache, hring]
  rw [hfull]
  unfold refreshRing
  rw [if_pos rfl]
  by_cases hcompact : c.compactHashingRing = []
  · rw [if_pos (by simp [hcompact])]
    unfold EtcdDiscoverySet.rebuildCompactCache
    rw [if_neg (by simp [hcompact])]
    cases hs : s.isEmpty with
    | true =>
      have hsame : s.rebuildCache cfg heap c rule = c := by
        simp [EtcdDiscoverySet.rebuildCache, hs]
      -- without nodes there are no points
      have hring : c.normalHashingRing = [] := by
        rw [List.eq_nil_iff_forall_not_mem]
        intro point hpoint
        obtain ⟨p, hp, -⟩ := hc.points point hpoint
        have hl := (live_iff_mem s p).1 (hc.live p hp)
        simp only [isEmpty, Bool.and_eq_true, List.isEmpty_iff] at hs
        simp [hs.1, hs.2] at hl
      rw [if_pos rfl, hsame, hring, hcompact]
      exact ⟨rfl, rfl⟩
    | false =>
      have hup : Serves s (s.rebuildCache cfg heap c rule) := hc.rebuildCache h
      simp only [Bool.false_eq_true, if_false]
      exact ⟨hup.compactRing_eq h, trivial⟩
  · have hfit := hc.compact.resolve_left hcompact
    have hring : c.normalHashingRing ≠ [] := by
      intro hnil
      rw [hnil] at hfit
      exact hcompact hfit
    have hsame : s.rebuildCache cfg heap c rule = c := by
      simp [EtcdDiscoverySet.rebuildCache, hring]
    rw [if_neg (by simpa using hcompact), hsame]
    exact ⟨hfit, rfl⟩

/-! ## Searches -/

/-- A search that skips nothing writes the points it meets. -/
theorem searchLoop_eq_take (compactMode : Bool) (key : NodeHashType) (room : Nat)
    (seen : List (Option NodePtr)) (points : List NodeHashType) :
    searchLoop heap { compact := compactMode } key room seen points = points.take room := by
  induction points generalizing room seen with
  | nil => cases room <;> simp [searchLoop]
  | cons point points ih =>
    cases room with
    | zero => rfl
    | succ room => simp [searchLoop, ih]

/-- The node is not the one a search of the next nodes leaves out. -/
def taken (heap : NodeHeap) (next : Bool) (key : NodeHashType) (node : Option NodePtr) : Bool :=
  !(next && nodeEqual heap node key.node)

/-- A search without repetition gives the first occurrences of the nodes it does not leave out. -/
theorem map_node_searchLoop (compactMode next : Bool) (key : NodeHashType) (room : Nat)
    (seen : List (Option NodePtr)) (points : List NodeHashType) :
    (searchLoop heap { compact := compactMode, unique := true, next := next } key room seen
        points).map NodeHashType.node =
      (firsts seen ((points.map NodeHashType.node).filter (taken heap next key))).take room := by
  induction points generalizing room seen with
  | nil => cases room <;> simp [searchLoop, firsts]
  | cons point points ih =>
    cases room with
    | zero => rfl
    | succ room =>
      rw [List.map_cons]
      cases htaken : taken heap next key point.node with
      | false =>
        have hskip : (next && nodeEqual heap point.node key.node) = true := by
          simpa [taken] using htaken
        rw [List.filter_cons_of_neg (by simp [htaken]), ← ih]
        simp [searchLoop, hskip]
      | true =>
        have hkeep : (next && nodeEqual heap point.node key.node) = false := by
          rw [taken, Bool.not_eq_true'] at htaken
          exact htaken
        rw [List.filter_cons_of_pos htaken, firsts]
        by_cases hseen : point.node ∈ seen
        · rw [if_pos hseen, ← ih]
          simp [searchLoop, hkeep, hseen]
        · rw [if_neg hseen, List.take_succ_cons, ← ih]
          simp [searchLoop, hkeep, hseen]

/-- The points of a cached ring below a hash are an initial part of it. -/
theorem Serves.initial_below (h : Serves s c) (hashCode : HashCode) :
    SortedRing.Initial (fun e => HashCode.lt e.hashCode hashCode) c.normalHashingRing := by
  refine h.sorted.imp fun {a b} hab hb => ?_
  simp only [HashCode.lt_eq, decide_eq_true_iff] at hb ⊢
  exact lt_of_le_of_lt hab hb

/-- An output with room holds the first point met. -/
theorem head_take_ringFrom {outputSize : Nat} (hsize : outputSize ≠ 0) (ring : List NodeHashType)
    (hashCode : HashCode) : ((ringFrom ring hashCode).take (min outputSize ring.length)).head? =
      (ringFrom ring hashCode).head? := by
  cases ring with
  | nil => simp [ringFrom]
  | cons point ring =>
    have hroom : min outputSize (point :: ring).length ≠ 0 := by
      rw [List.length_cons]
      omega
    rw [List.head?_take, if_neg hroom]

/-- The ring a search in compact mode runs on. -/
def searchedCompactRing (cfg : HashConfig) (heap : NodeHeap) (s : EtcdDiscoverySet)
    (rule : Option AtappMetadata) : List NodeHashType :=
  (s.refreshRing cfg heap true rule (s.cachedIndex rule)).compactHashingRing

/-- What the compact ring has to agree on with the full ring. -/
structure CompactAgrees (cfg : HashConfig) (heap : NodeHeap) (s : EtcdDiscoverySet) : Prop where
  first : ∀ outputSize key rule,
    ((s.lowerBoundNodeHashByConsistentHash cfg heap outputSize key rule
        { compact := true }).2.head?.map NodeHashType.node) =
      (s.lowerBoundNodeHashByConsistentHash cfg heap outputSize key rule {}).2.head?.map
        NodeHashType.node
  unique : ∀ outputSize key rule next,
    ((s.lowerBoundNodeHashByConsistentHash cfg heap outputSize key rule
        { compact := true, unique := true, next := next }).2.map NodeHashType.node) =
      (s.lowerBoundNodeHashByConsistentHash cfg heap outputSize key rule
        { unique := true, next := next }).2.map NodeHashType.node
  neighbours : ∀ rule, (s.searchedCompactRing cfg heap rule).length = 1 ∨
    ∀ pair ∈ cyclicPairs (s.searchedCompactRing cfg heap rule), pair.1.node ≠ pair.2.node

theorem AllServe.compactAgrees (h : IndexInv heap s) (hs : AllServe s) :
    CompactAgrees cfg heap s := by
  refine ⟨fun outputSize key rule => ?_, fun outputSize key rule next => ?_, fun rule => ?_⟩
  · obtain ⟨hcompact, -⟩ := @refreshRing_compact cfg heap s rule _ h (hs.cachedIndex rule)
    have hserves : Serves s (s.refreshRing cfg heap false rule (s.cachedIndex rule)) :=
      (hs.cachedIndex rule).refreshRing h false
    unfold lowerBoundNodeHashByConsistentHash
    split
    · rfl
    · next hsize =>
      simp only [withIndexCache_snd, selectHashRing, if_true, Bool.false_eq_true, if_false,
        searchLoop_eq_take, hcompact]
      rw [head_take_ringFrom hsize, head_take_ringFrom hsize]
      exact owner_head_ringFrom_compact (hserves.initial_below key.hashCode)
  · obtain ⟨hcompact, hnodes⟩ := @refreshRing_compact cfg heap s rule _ h (hs.cachedIndex rule)
    have hserves : Serves s (s.refreshRing cfg heap false rule (s.cachedIndex rule)) :=
      (hs.cachedIndex rule).refreshRing h false
    unfold lowerBoundNodeHashByConsistentHash
    split
    · rfl
    · simp only [withIndexCache_snd, selectHashRing, if_true, Bool.false_eq_true, if_false,
        map_node_searchLoop, hcompact, hnodes]
      rw [firsts_filter, firsts_filter, ringFrom_eq, ringFrom_eq,
        firsts_ringFrom_compact _ (hserves.initial_below key.hashCode)]
  · obtain ⟨hcompact, -⟩ := @refreshRing_compact cfg heap s rule _ h (hs.cachedIndex rule)
    rw [searchedCompactRing, hcompact]
    exact compact_pairs _

end EtcdDiscoverySet

namespace DiscoveryState

open EtcdDiscoverySet

/-! ## Runs -/

/-- What one call keeps of the cached indexes, if both states have the index invariant. -/
theorem allServe_step {cfg : HashConfig} {st : DiscoveryState} (h : IndexInv st.heap st.nodes)
    (hs : AllServe st.nodes) (op : DiscoveryOp) : AllServe (step cfg st op).nodes := by
  rcases step_cases cfg h op with ⟨hst, -⟩ | ⟨node, heap', hsame, -, -, hst⟩ | ⟨node, hst, -⟩ |
    ⟨rule, α, f, hf, hst, -⟩
  · rw [hst]
    exact hs
  · rw [hst]
    exact hs.addNode h hsame
  · rw [hst]
    exact hs.removeNode h node
  · rw [hst]
    exact hs.withIndexCache fun c hc => (hf c).elim (hc.refreshNodes h) (hc.refreshRing h)
      fun _ _ hup => ⟨hup.live, hup.points, hup.sorted, hup.compact⟩

theorem allServe_run {cfg : HashConfig} {st : DiscoveryState} {ops : List DiscoveryOp}
    (hs : AllServe st.nodes)
    (hindex : Run.Always (step cfg) (fun st => IndexInv st.heap st.nodes) st ops) :
    AllServe (Run.run (step cfg) st ops).nodes := by
  induction ops generalizing st with
  | nil => exact hs
  | cons op ops ih =>
    obtain ⟨h, hrest⟩ := (Run.always_cons (step cfg)).1 hindex
    exact ih (allServe_step h hs op) hrest

/-- **The compact ring agrees with the full ring** in every state that a run of changes and queries
    reaches while the two maps keep their invariant. -/
theorem compactAgrees_run (cfg : HashConfig) (heap : NodeHeap) (ops : List DiscoveryOp)
    (hindex : Run.Always (step cfg) (fun st => IndexInv st.heap st.nodes) { heap := heap } ops) :
    CompactAgrees cfg (Run.run (step cfg) { heap := heap } ops).heap
      (Run.run (step cfg) { heap := heap } ops).nodes := by
  have hempty : AllServe {} := ⟨cleared_empty.serves, by simp⟩
  exact (allServe_run hempty hindex).compactAgrees (hindex.last (step cfg))

/-- Two nodes, one of them added after a search has built the rings. -/
theorem compactAgrees_twoNodes :
    let ops : List DiscoveryOp :=
      [.copyFromAndAdd 1 { id := 1, name := [97] } {} 0,
        .lowerBound 2 { node := none, hashCode := (0, 0) } none {},
        .copyFromAndAdd 2 { id := 2, name := [98] } {} 0]
    CompactAgrees seedConfig (Run.run (step seedConfig) {} ops).heap
      (Run.run (step seedConfig) {} ops).nodes := by
  refine compactAgrees_run seedConfig (fun _ => {}) _ ?_
  have hkeys : Run.StepsMeet (step seedConfig) KeepsKeys {}
      [.copyFromAndAdd 1 { id := 1, name := [97] } {} 0,
        .lowerBound 2 { node := none, hashCode := (0, 0) } none {},
        .copyFromAndAdd 2 { id := 2, name := [98] } {} 0] := by
    decide +kernel
  have hwell := Run.always_of_stepsMeet (step seedConfig)
    (fun st op hw hk => (⟨(stepKeeps_step hw hk).index, (stepKeeps_step hw hk).shape⟩ :
      WellFormed (step seedConfig st op))) (wellFormed_empty fun _ => {}) hkeys
  exact hwell.mono (step seedConfig) fun st hw => hw.index

end DiscoveryState

end LibAtapp
