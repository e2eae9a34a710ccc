import LibAtapp.Etcdcli.CompactRing

set_option autoImplicit false

/-! # What a stale index still holds

A cached index is what `rebuild_cache` makes of some of the nodes that its rule accepts: changes of
the set drop every index that refers to a node they touch, and leave no trace in the others. So an
index is current exactly if it is empty or none of the accepted nodes is missing in it. -/

namespace LibAtapp

namespace EtcdDiscoverySet

open SortedRing CyclicRuns

variable {cfg : HashConfig} {heap : NodeHeap} {s : EtcdDiscoverySet} {rule : Option AtappMetadata}
  {c : IndexCacheType}

/-! ## Indexes of some of the nodes -/

/-- The index is what a rebuild makes of these nodes, all of them live and accepted by the rule. -/
structure BuiltFrom (cfg : HashConfig) (heap : NodeHeap) (s : EtcdDiscoverySet)
    (rule : Option AtappMetadata) (c : IndexCacheType) (l : List NodePtr) : Prop where
  nodup : l.Nodup
  live : ∀ p ∈ l, s.Live p
  accepted : ∀ p ∈ l, matchesRule heap rule p = true
  nodes : c.roundRobinCache = sortBy (orderKey heap) l
  ring : c.normalHashingRing = sortBy (pointKey heap) (l.flatMap (hashPoints cfg heap))
  refs : ∀ p, p ∈ c.referenceCache ↔ p ∈ l
  compact : c.compactHashingRing = [] ∨
    c.compactHashingRing = compactRing heap c.normalHashingRing

/-- The index is what a rebuild makes of some of the nodes. -/
def Subindex (cfg : HashConfig) (heap : NodeHeap) (s : EtcdDiscoverySet)
    (rule : Option AtappMetadata) (c : IndexCacheType) : Prop :=
  ∃ l, BuiltFrom cfg heap s rule c l

/-- Every cached index of the set. -/
structure AllSubindexes (cfg : HashConfig) (heap : NodeHeap) (s : EtcdDiscoverySet) : Prop where
  default : Subindex cfg heap s none s.defaultIndex
  rules : ∀ e ∈ s.metadataIndex.entries, Subindex cfg heap s (some e.1) e.2

theorem Cleared.subindex (h : Cleared c) : Subindex cfg heap s rule c := by
  refine ⟨[], ⟨List.nodup_nil, by simp, by simp, ?_, ?_, by simp [h.refs], Or.inl h.compact⟩⟩
  · rw [h.nodes]
    rfl
  · rw [h.ring]
    rfl

theorem UpToDate.subindex (h : IndexInv heap s) (hup : UpToDate cfg heap s rule c) :
    Subindex cfg heap s rule c := by
  refine ⟨s.ruleNodes heap rule, ⟨nodup_ruleNodes h rule, ?_, ?_, ?_, ?_, ?_, ?_⟩⟩
  · exact fun p hp => ((mem_ruleNodes h rule p).1 hp).1
  · exact fun p hp => ((mem_ruleNodes h rule p).1 hp).2
  · rw [hup.nodes, freshIndex_roundRobinCache]
  · rw [hup.ring, freshIndex_normalHashingRing]
    rfl
  · intro p
    rw [hup.refs, freshIndex_referenceCache]
  · rw [hup.ring]
    exact hup.compact

/-- An index of no nodes is cleared. -/
theorem BuiltFrom.cleared (h : BuiltFrom cfg heap s rule c []) : Cleared c := by
  have hring : c.normalHashingRing = [] := h.ring
  refine ⟨h.nodes, hring, ?_, List.eq_nil_iff_forall_not_mem.2 fun p hp => ?_⟩
  · rcases h.compact with hc | hc
    · exact hc
    · rw [hc, hring]
      rfl
  · exact absurd ((h.refs p).1 hp) List.not_mem_nil

theorem Subindex.cleared_of_ring (h : Subindex cfg heap s rule c)
    (hc : c.normalHashingRing = []) : Cleared c := by
  obtain ⟨l, hl⟩ := h
  have hpoints : l.flatMap (hashPoints cfg heap) = [] := by
    rw [← List.length_eq_zero_iff, ← length_sortBy (pointKey heap), ← hl.ring, hc]
    rfl
  have hnil : l = [] := by
    rw [List.eq_nil_iff_forall_not_mem]
    intro p hp
    have hlength := length_hashPoints cfg heap p
    rw [List.flatMap_eq_nil_iff.1 hpoints p hp] at hlength
    exact absurd hlength (by decide)
  subst hnil
  exact hl.cleared

/-- An index of nodes that stay live and keep their content. -/
theorem BuiltFrom.congr {heap' : NodeHeap} {s' : EtcdDiscoverySet} {l : List NodePtr}
    (hb : BuiltFrom cfg heap s rule c l) (hlive : ∀ p ∈ l, s'.Live p)
    (hinfo : ∀ p ∈ l, NodeHeap.SameInfo heap heap' p) : BuiltFrom cfg heap' s' rule c l := by
  have horder : ∀ p ∈ l, orderKey heap p = orderKey heap' p :=
    fun p hp => (orderKey_congr (hinfo p hp)).symm
  have hpoints : l.flatMap (hashPoints cfg heap') = l.flatMap (hashPoints cfg heap) :=
    List.flatMap_congr fun p hp => hashPoints_congr cfg (hinfo p hp)
  refine ⟨hb.nodup, hlive, fun p hp => ?_, ?_, ?_, hb.refs, hb.compact.imp_right fun hc => ?_⟩
  · rw [matchesRule_congr (hinfo p hp)]
    exact hb.accepted p hp
  · rw [hb.nodes, sortBy_congr_key _ horder]
  · rw [hb.ring, hpoints]
    refine sortBy_congr_key _ fun point hpoint => ?_
    obtain ⟨p, hp, hpoint⟩ := List.mem_flatMap.1 hpoint
    simp only [pointKey, node_of_mem_hashPoints cfg hpoint, nullableKey, horder p hp]
  · rw [hc]
    refine (compactRing_congr fun point hpoint p hp => ?_).symm
    rw [hb.ring, mem_sortBy] at hpoint
    obtain ⟨q, hq, hpoint⟩ := List.mem_flatMap.1 hpoint
    rw [node_of_mem_hashPoints cfg hpoint] at hp
    exact Option.some.inj hp ▸ hinfo q hq

theorem Subindex.rule_congr {rule' : Option AtappMetadata}
    (h : ∀ p, matchesRule heap rule p = matchesRule heap rule' p)
    (hc : Subindex cfg heap s rule c) : Subindex cfg heap s rule' c := by
  obtain ⟨l, hb⟩ := hc
  exact ⟨l, hb.nodup, hb.live, fun p hp => h p ▸ hb.accepted p hp, hb.nodes, hb.ring, hb.refs,
    hb.compact⟩

theorem ruleProperty_subindex (cfg : HashConfig) (heap : NodeHeap) (s : EtcdDiscoverySet) :
    RuleProperty (Subindex cfg heap s) where
  new := fun _ => cleared_empty.subindex
  default := fun _ _ hm => ⟨Subindex.rule_congr (fun p => (matchesRule_of_isEmpty hm p).symm),
    Subindex.rule_congr (matchesRule_of_isEmpty hm)⟩
  equal := fun _ _ _ heq => Subindex.rule_congr (fun _ => AtappMetadata.filter_congr heq _)

theorem AllSubindexes.cachedIndex (h : AllSubindexes cfg heap s) (rule : Option AtappMetadata) :
    Subindex cfg heap s rule (s.cachedIndex rule) :=
  cachedIndex_forall (ruleProperty_subindex cfg heap s) ⟨h.default, h.rules⟩

/-! ## Queries and changes -/

theorem Subindex.rebuildCache (h : IndexInv heap s) (hc : Subindex cfg heap s rule c) :
    Subindex cfg heap s rule (s.rebuildCache cfg heap c rule) := by
  by_cases hring : c.normalHashingRing = []
  · exact (upToDate_rebuildCache (hc.cleared_of_ring hring)).subindex h
  · have hsame : s.rebuildCache cfg heap c rule = c := by
      simp [EtcdDiscoverySet.rebuildCache, hring]
    rw [hsame]
    exact hc

theorem Subindex.rebuildCompactCache (h : IndexInv heap s) (hc : Subindex cfg heap s rule c) :
    Subindex cfg heap s rule (s.rebuildCompactCache cfg heap c rule) := by
  unfold EtcdDiscoverySet.rebuildCompactCache
  split
  · exact hc
  · split
    · exact hc
    · obtain ⟨l, hb⟩ := hc.rebuildCache h
      exact ⟨l, hb.nodup, hb.live, hb.accepted, hb.nodes, hb.ring, hb.refs, Or.inr rfl⟩

theorem Subindex.refreshNodes (h : IndexInv heap s) (hc : Subindex cfg heap s rule c) :
    Subindex cfg heap s rule (s.refreshNodes cfg heap rule c) := by
  unfold EtcdDiscoverySet.refreshNodes
  split
  · exact hc.rebuildCache h
  · exact hc

theorem Subindex.refreshRing (h : IndexInv heap s) (hc : Subindex cfg heap s rule c)
    (compactMode : Bool) : Subindex cfg heap s rule (s.refreshRing cfg heap compactMode rule c) := by
  unfold EtcdDiscoverySet.refreshRing
  split
  · split
    · exact hc.rebuildCompactCache h
    · exact hc
  · split
    · exact hc.rebuildCache h
    · exact hc

theorem AllSubindexes.withIndexCache {α : Type} {f : IndexCacheType → IndexCacheType × α}
    (h : AllSubindexes cfg heap s)
    (hf : ∀ c, Subindex cfg heap s rule c → Subindex cfg heap s rule (f c).1) :
    AllSubindexes cfg heap (s.withIndexCache rule f).1 := by
  have hall := withIndexCache_forall rule (ruleProperty_subindex cfg heap s) hf
    ⟨h.default, h.rules⟩
  -- the nodes stay
  have hlive : ∀ p, s.Live p → (s.withIndexCache rule f).1.Live p := by
    intro p hp
    simpa [Live, getNodeById, getNodeByName] using hp
  have hkeep : ∀ rule' c, Subindex cfg heap s rule' c →
      Subindex cfg heap (s.withIndexCache rule f).1 rule' c := by
    rintro rule' c ⟨l, hb⟩
    exact ⟨l, hb.congr (fun p hp => hlive p (hb.live p hp)) fun _ _ => ⟨rfl, rfl⟩⟩
  exact ⟨hkeep _ _ hall.1, fun e he => hkeep _ _ (hall.2 e he)⟩

theorem AllSubindexes.removeNode (h : IndexInv heap s) (hs : AllSubindexes cfg heap s)
    (node : NodePtr) : AllSubindexes cfg heap (s.removeNode heap node) := by
  by_cases hl : s.Live node
  · obtain ⟨hdefault, hrules⟩ := removeNode_caches h hl
    refine ⟨?_, fun e he => ?_⟩
    · rw [hdefault]
      exact (cleared_clearCache _).subindex
    · obtain ⟨hmem, hnode, -⟩ := (hrules e).1 he
      obtain ⟨l, hb⟩ := hs.rules e hmem
      refine ⟨l, hb.congr (fun p hp => ?_) fun _ _ => ⟨rfl, rfl⟩⟩
      rw [h.toIndexSound.live_removeNode]
      exact ⟨hb.live p hp, fun heq => hnode ((hb.refs node).2 (heq ▸ hp))⟩
  · rw [removeNode_of_not_live hl]
    exact hs

theorem AllSubindexes.addNode {heap' : NodeHeap} {node : NodePtr} (h : IndexInv heap s)
    (h' : IndexInv heap' s) (hs : AllSubindexes cfg heap s)
    (hsame : ∀ q, q ≠ node → heap' q = heap q) :
    AllSubindexes cfg heap' (s.addNode heap' node) := by
  obtain ⟨hdefault, hrules⟩ := addNode_caches heap' s node
  refine ⟨?_, fun e he => ?_⟩
  · rw [hdefault]
    exact (cleared_clearCache _).subindex
  · obtain ⟨hmem, ⟨hdisplaced, hself⟩, -⟩ := (hrules e).1 he
    obtain ⟨l, hb⟩ := hs.rules e hmem
    -- an index that stays does not refer to the added node, whose content may have changed
    have hother : ∀ p ∈ l, p ≠ node := by
      rintro p hp rfl
      exact hself (h'.not_displaces_of_live (hb.live p hp)) ((hb.refs p).2 hp)
    refine ⟨l, hb.congr (fun p hp => ?_) fun p hp => ?_⟩
    · exact live_addNode_of_not_displaces h hsame (hb.live p hp)
        fun hd => hdisplaced p hd ((hb.refs p).2 hp)
    · rw [NodeHeap.SameInfo, hsame p (hother p hp)]
      exact ⟨rfl, rfl⟩

/-! ## Current indexes -/

/-- No node that the rule accepts is missing in the index cached for it, if one is cached. -/
def Covers (heap : NodeHeap) (s : EtcdDiscoverySet) (rule : Option AtappMetadata) : Prop :=
  (s.cachedIndex rule).referenceCache = [] ∨
    ∀ p, s.Live p → matchesRule heap rule p = true → p ∈ (s.cachedIndex rule).referenceCache

/-- An index of all accepted nodes is up to date. -/
theorem BuiltFrom.upToDate {l : List NodePtr} (h : IndexInv heap s)
    (hb : BuiltFrom cfg heap s rule c l)
    (hall : ∀ p, s.Live p → matchesRule heap rule p = true → p ∈ l) :
    UpToDate cfg heap s rule c := by
  have hmem : ∀ p, p ∈ l ↔ p ∈ s.ruleNodes heap rule := by
    intro p
    rw [mem_ruleNodes h]
    exact ⟨fun hp => ⟨hb.live p hp, hb.accepted p hp⟩, fun hp => hall p hp.1 hp.2⟩
  have hperm : (s.ruleNodes heap rule).Perm l :=
    (List.perm_ext_iff_of_nodup (nodup_ruleNodes h rule) hb.nodup).2 fun p => (hmem p).symm
  have hring : c.normalHashingRing = (s.freshIndex cfg heap rule).normalHashingRing := by
    rw [hb.ring, freshIndex_normalHashingRing]
    exact (sortBy_congr _ (pointKey_inj cfg h rule) (hperm.flatMap_right _)).symm
  refine ⟨?_, hring, fun p => ?_, ?_⟩
  · rw [hb.nodes, freshIndex_roundRobinCache]
    exact (sortBy_congr _ (orderKey_inj_ruleNodes h rule) hperm).symm
  · rw [hb.refs, hmem, freshIndex_referenceCache]
  · rw [← hring]
    exact hb.compact

/-- The index of a rule is current exactly if no accepted node is missing in it. -/
theorem current_iff_covers (h : IndexInv heap s)
    (hc : Subindex cfg heap s rule (s.cachedIndex rule)) :
    Current cfg heap s rule (s.cachedIndex rule) ↔ Covers heap s rule := by
  constructor
  · rintro (hcl | hup)
    · exact Or.inl hcl.refs
    · refine Or.inr fun p hl hm => ?_
      rw [hup.refs, freshIndex_referenceCache, mem_ruleNodes h]
      exact ⟨hl, hm⟩
  · obtain ⟨l, hb⟩ := hc
    rintro (hnil | hall)
    · have hl : l = [] := by
        rw [List.eq_nil_iff_forall_not_mem]
        intro p hp
        have hrefs := (hb.refs p).2 hp
        rw [hnil] at hrefs
        exact List.not_mem_nil hrefs
      subst hl
      exact Or.inl hb.cleared
    · exact Or.inr (hb.upToDate h fun p hl hm => (hb.refs p).1 (hall p hl hm))

end EtcdDiscoverySet

namespace DiscoveryState

open EtcdDiscoverySet

/-! ## Runs -/

theorem allSubindexes_step {cfg : HashConfig} {st : DiscoveryState}
    (h : IndexInv st.heap st.nodes) (hs : AllSubindexes cfg st.heap st.nodes) {op : DiscoveryOp}
    (hk : KeepsKeys st op) :
    AllSubindexes cfg (step cfg st op).heap (step cfg st op).nodes := by
  rcases step_cases cfg h op with ⟨hst, -⟩ | ⟨node, heap', hsame, hindex, -, hst⟩ |
    ⟨node, hst, -⟩ | ⟨rule, α, f, hf, hst, -⟩
  · rw [hst]
    exact hs
  · rw [hst]
    exact hs.addNode h (hindex hk) hsame
  · rw [hst]
    exact hs.removeNode h node
  · rw [hst]
    refine hs.withIndexCache fun c hc => (hf c).elim (hc.refreshNodes h) (hc.refreshRing h) ?_
    rintro c position ⟨l, hb⟩
    exact ⟨l, hb.nodup, hb.live, hb.accepted, hb.nodes, hb.ring, hb.refs, hb.compact⟩

/-- The discovery set with its invariant: the maps agree, and every cached index is a rebuild of
    some of the nodes. -/
structure Indexed (cfg : HashConfig) (st : DiscoveryState) : Prop extends WellFormed st where
  caches : AllSubindexes cfg st.heap st.nodes

theorem indexed_empty (cfg : HashConfig) (heap : NodeHeap) : Indexed cfg { heap := heap } where
  toWellFormed := wellFormed_empty heap
  caches := ⟨cleared_empty.subindex, by simp⟩

/-- Every state of a run that keeps the keys of live nodes has the invariant. -/
theorem indexed_run {cfg : HashConfig} {st : DiscoveryState} {ops : List DiscoveryOp}
    (hst : Indexed cfg st) (hkeys : Run.StepsMeet (step cfg) KeepsKeys st ops) :
    Indexed cfg (Run.run (step cfg) st ops) := by
  refine Run.invariant (step cfg) (fun st op (h : Indexed cfg st) hk => ?_) hst hkeys
  have hkeeps := @stepKeeps_step cfg st h.toWellFormed op hk
  exact ⟨⟨hkeeps.index, hkeeps.shape⟩, allSubindexes_step h.index h.caches hk⟩

end DiscoveryState

end LibAtapp
