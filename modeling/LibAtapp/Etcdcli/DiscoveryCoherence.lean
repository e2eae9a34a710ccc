import LibAtapp.Etcdcli.DiscoveryRebuild
import LibAtapp.Library.Run

set_option autoImplicit false

/-! # Coherence of the cached indexes

A cached index is current when it was cleared or holds what a rebuild from the current nodes
gives. Queries keep current indexes current and answer from them. `remove_node` drops or leaves
each cached index correctly; `add_node` does so too, except that it never tests the rules against
the default metadata of a node that publishes none (`MissesMetadata`), while `rebuild_cache` does.
-/

namespace LibAtapp

namespace EtcdDiscoverySet

/-! ## Current indexes -/

/-- Nothing is cached. -/
structure Cleared (c : IndexCacheType) : Prop where
  nodes : c.roundRobinCache = []
  ring : c.normalHashingRing = []
  compact : c.compactHashingRing = []
  refs : c.referenceCache = []

theorem cleared_clearCache (c : IndexCacheType) : Cleared c.clearCache := ⟨rfl, rfl, rfl, rfl⟩

theorem cleared_empty : Cleared {} := ⟨rfl, rfl, rfl, rfl⟩

/-- Cleared, or equal to a rebuild from the current nodes. -/
def Current (cfg : HashConfig) (heap : NodeHeap) (s : EtcdDiscoverySet)
    (rule : Option AtappMetadata) (c : IndexCacheType) : Prop :=
  Cleared c ∨ UpToDate cfg heap s rule c

/-- Every cached index is current. -/
structure Coherent (cfg : HashConfig) (heap : NodeHeap) (s : EtcdDiscoverySet) : Prop where
  default : Current cfg heap s none s.defaultIndex
  rules : ∀ e ∈ s.metadataIndex.entries, Current cfg heap s (some e.1) e.2

variable {cfg : HashConfig} {heap : NodeHeap} {s : EtcdDiscoverySet} {rule : Option AtappMetadata}
  {c : IndexCacheType}

/-- The nodes and the points of a rule are missing together: every node has points. -/
theorem rulePoints_eq_nil_iff : s.rulePoints cfg heap rule = [] ↔ s.ruleNodes heap rule = [] := by
  constructor
  · intro hp
    rw [rulePoints, List.flatMap_eq_nil_iff] at hp
    refine List.eq_nil_iff_forall_not_mem.2 (fun p hp' => ?_)
    have := length_hashPoints cfg heap p
    rw [hp p hp'] at this
    exact absurd this (by decide)
  · intro hn
    rw [rulePoints, hn]
    rfl

theorem UpToDate.cleared_of_ruleNodes (h : UpToDate cfg heap s rule c)
    (hn : s.ruleNodes heap rule = []) : Cleared c := by
  have hp : (s.freshIndex cfg heap rule).normalHashingRing = [] := by
    rw [freshIndex_normalHashingRing, rulePoints_eq_nil_iff.2 hn]
    rfl
  refine ⟨?_, h.ring.trans hp, ?_, ?_⟩
  · rw [h.nodes, freshIndex_roundRobinCache, hn]
    rfl
  · rcases h.compact with hc | hc
    · exact hc
    · rw [hc, hp]
      rfl
  · refine List.eq_nil_iff_forall_not_mem.2 (fun p hp => ?_)
    rw [h.refs, freshIndex_referenceCache, hn] at hp
    simp at hp

theorem UpToDate.cleared_of_nodes (h : UpToDate cfg heap s rule c) (hc : c.roundRobinCache = []) :
    Cleared c := by
  have hnodes := h.nodes
  rw [hc, freshIndex_roundRobinCache] at hnodes
  have hn : (s.ruleNodes heap rule).length = 0 := by
    rw [← SortedRing.length_sortBy (orderKey heap), ← hnodes]
    rfl
  exact h.cleared_of_ruleNodes (List.length_eq_zero_iff.1 hn)

theorem UpToDate.cleared_of_ring (h : UpToDate cfg heap s rule c) (hc : c.normalHashingRing = []) :
    Cleared c := by
  have hring := h.ring
  rw [hc, freshIndex_normalHashingRing] at hring
  have hp : (s.rulePoints cfg heap rule).length = 0 := by
    rw [← SortedRing.length_sortBy (pointKey heap), ← hring]
    rfl
  exact h.cleared_of_ruleNodes (rulePoints_eq_nil_iff.1 (List.length_eq_zero_iff.1 hp))

/-- A rebuild of a cleared index is up to date. -/
theorem upToDate_rebuildCache (hc : Cleared c) :
    UpToDate cfg heap s rule (s.rebuildCache cfg heap c rule) := by
  cases hs : s.isEmpty with
  | true =>
      have hn : s.ruleNodes heap rule = [] := ruleNodes_of_isEmpty hs rule
      have hr : s.rebuildCache cfg heap c rule = c := by
        simp [rebuildCache, hc.ring, hs]
      rw [hr]
      refine ⟨?_, ?_, ?_, Or.inl hc.compact⟩
      · rw [freshIndex_roundRobinCache, hn, hc.nodes]
        rfl
      · rw [freshIndex_normalHashingRing, rulePoints_eq_nil_iff.2 hn, hc.ring]
        rfl
      · simp [hn, hc.refs]
  | false =>
      rw [rebuildCache_of_ring_nil cfg hc.ring hs]
      refine ⟨?_, ?_, ?_, Or.inl rfl⟩ <;> simp

theorem Current.refreshNodes (h : Current cfg heap s rule c) :
    UpToDate cfg heap s rule (s.refreshNodes cfg heap rule c) := by
  unfold EtcdDiscoverySet.refreshNodes
  split
  · next hc =>
      have hc : c.roundRobinCache = [] := List.isEmpty_iff.1 hc
      exact upToDate_rebuildCache (h.elim (fun h => h) (fun h => h.cleared_of_nodes hc))
  · next hc =>
      exact h.resolve_left (fun h => hc (by simp [h.nodes]))

theorem Current.refreshRing (h : Current cfg heap s rule c) (compactMode : Bool) :
    UpToDate cfg heap s rule (s.refreshRing cfg heap compactMode rule c) ∧
      (compactMode = true → (s.refreshRing cfg heap compactMode rule c).compactHashingRing =
        compactRing heap (s.freshIndex cfg heap rule).normalHashingRing) := by
  -- a rebuild that finds ring points keeps them, otherwise the index was cleared
  have hrebuild : UpToDate cfg heap s rule (s.rebuildCache cfg heap c rule) := by
    rcases h with h | h
    · exact upToDate_rebuildCache h
    · by_cases hc : c.normalHashingRing = []
      · exact upToDate_rebuildCache (h.cleared_of_ring hc)
      · have : s.rebuildCache cfg heap c rule = c := by simp [rebuildCache, hc]
        rw [this]
        exact h
  cases compactMode with
  | false =>
      refine ⟨?_, fun h => absurd h (by simp)⟩
      simp only [EtcdDiscoverySet.refreshRing, Bool.false_eq_true, if_false]
      split
      · exact hrebuild
      · next hc => exact h.resolve_left (fun h => hc (by simp [h.ring]))
  | true =>
      simp only [EtcdDiscoverySet.refreshRing, if_true]
      split
      · next hc =>
          have hcompact : c.compactHashingRing = [] := List.isEmpty_iff.1 hc
          simp only [rebuildCompactCache, hcompact, List.isEmpty_nil, Bool.not_true,
            Bool.false_eq_true, if_false]
          split
          · next hs =>
              have hfresh : (s.freshIndex cfg heap rule).normalHashingRing = [] := by
                rw [freshIndex_normalHashingRing,
                  rulePoints_eq_nil_iff.2 (ruleNodes_of_isEmpty hs rule)]
                rfl
              have hr : s.rebuildCache cfg heap c rule = c := by
                simp [rebuildCache, hs]
              rw [hr] at hrebuild
              refine ⟨hrebuild, fun _ => ?_⟩
              rw [hfresh, hcompact]
              rfl
          · refine ⟨⟨hrebuild.nodes, hrebuild.ring, hrebuild.refs, Or.inr ?_⟩, fun _ => ?_⟩ <;>
              simp only [hrebuild.ring]
      · next hc =>
          have hup := h.resolve_left (fun h => hc (by simp [h.compact]))
          refine ⟨hup, fun _ => hup.compact.resolve_left (fun h => hc (by simp [h]))⟩

/-! ## An index that stays the same -/

theorem nodeEqual_congr {heap' : NodeHeap} {l r : Option NodePtr}
    (hl : ∀ p, l = some p → NodeHeap.SameInfo heap heap' p)
    (hr : ∀ p, r = some p → NodeHeap.SameInfo heap heap' p) :
    nodeEqual heap' l r = nodeEqual heap l r := by
  cases l with
  | none => cases r <;> rfl
  | some p =>
      cases r with
      | none => rfl
      | some q =>
          simp only [nodeEqual, EtcdDiscoveryNode.id, EtcdDiscoveryNode.name, (hl p rfl).1,
            (hr q rfl).1]

theorem compactLoop_congr {heap' : NodeHeap} {ring : List NodeHashType} {previous : NodeHashType}
    (h : ∀ point ∈ previous :: ring, ∀ p, point.node = some p → NodeHeap.SameInfo heap heap' p) :
    compactLoop heap' previous ring = compactLoop heap previous ring := by
  induction ring generalizing previous with
  | nil => rfl
  | cons point rest ih =>
      have hn := nodeEqual_congr (h point (by simp)) (h previous (by simp))
      simp only [compactLoop, ih (fun q hq => h q (List.mem_cons_of_mem _ hq)), hn]

/-- The points kept by the loop are points of the ring. -/
theorem mem_compactLoop (heap : NodeHeap) (ring : List NodeHashType) (previous : NodeHashType) :
    (∀ point ∈ (compactLoop heap previous ring).1, point ∈ previous :: ring) ∧
      (compactLoop heap previous ring).2 ∈ previous :: ring := by
  induction ring generalizing previous with
  | nil => simp [compactLoop]
  | cons first rest ih =>
      obtain ⟨hkept, hlast⟩ := ih first
      simp only [compactLoop]
      split
      · exact ⟨fun q hq => List.mem_cons_of_mem _ (hkept q hq), List.mem_cons_of_mem _ hlast⟩
      · refine ⟨fun q hq => ?_, List.mem_cons_of_mem _ hlast⟩
        rcases List.mem_cons.1 hq with rfl | hq
        · exact List.mem_cons_self
        · exact List.mem_cons_of_mem _ (hkept q hq)

theorem compactRing_congr {heap' : NodeHeap} {ring : List NodeHashType}
    (h : ∀ point ∈ ring, ∀ p, point.node = some p → NodeHeap.SameInfo heap heap' p) :
    compactRing heap' ring = compactRing heap ring := by
  cases ring with
  | nil => rfl
  | cons first rest =>
      simp only [compactRing, compactLoop_congr h]
      obtain ⟨hkept, hlast⟩ := mem_compactLoop heap rest first
      split
      · rfl
      · next front tail hk =>
          rw [nodeEqual_congr (h _ hlast) (h front (hkept front (by simp [hk])))]

/-- An up-to-date index stays so when the nodes of its rule and their contents stay. -/
theorem UpToDate.congr {heap' : NodeHeap} {s' : EtcdDiscoverySet} (hup : UpToDate cfg heap s rule c)
    (h : IndexInv heap s) (h' : IndexInv heap' s')
    (hmem : ∀ p, p ∈ s'.ruleNodes heap' rule ↔ p ∈ s.ruleNodes heap rule)
    (hinfo : ∀ p ∈ s.ruleNodes heap rule, NodeHeap.SameInfo heap heap' p) :
    UpToDate cfg heap' s' rule c := by
  obtain ⟨hnodes, hring⟩ := freshIndex_congr cfg h h' hmem hinfo
  refine ⟨hup.nodes.trans hnodes.symm, hup.ring.trans hring.symm, ?_, ?_⟩
  · intro p
    rw [hup.refs, freshIndex_referenceCache, freshIndex_referenceCache, hmem]
  · refine hup.compact.imp (fun hc => hc) (fun hc => hc.trans ?_)
    rw [hring]
    refine (compactRing_congr ?_).symm
    intro point hpoint p hp
    rw [freshIndex_normalHashingRing, SortedRing.mem_sortBy] at hpoint
    obtain ⟨q, hq, hnode⟩ := mem_rulePoints_node cfg hpoint
    rw [hnode] at hp
    exact Option.some.inj hp ▸ hinfo q hq

/-- A current index stays current when no info and no name hash changes. -/
theorem Current.of_sameInfo {heap' : NodeHeap} (hcur : Current cfg heap s rule c)
    (h : ∀ p, NodeHeap.SameInfo heap heap' p) : Current cfg heap' s rule c := by
  have hfresh := freshIndex_of_sameInfo (s := s) cfg h rule
  have hring : ∀ ring, compactRing heap' ring = compactRing heap ring :=
    fun ring => compactRing_congr (fun _ _ p _ => h p)
  refine hcur.imp (fun hcl => hcl) (fun hup => ⟨?_, ?_, ?_, ?_⟩)
  · rw [hfresh, hup.nodes]
  · rw [hfresh, hup.ring]
  · rw [hfresh]
    exact hup.refs
  · rw [hfresh, hring]
    exact hup.compact

/-! ## `clear_cache` -/

theorem pendingToDelete_iff (m : Option AtappMetadata) (ps : List (Option NodePtr))
    (e : AtappMetadata × IndexCacheType) : pendingToDelete m ps e = true ↔
      (∃ q, some q ∈ ps ∧ q ∈ e.2.referenceCache) ∨
        ∃ md, m = some md ∧ AtappMetadata.filter e.1 md = true := by
  simp only [pendingToDelete, Bool.or_eq_true, List.any_eq_true]
  refine or_congr ⟨?_, ?_⟩ ?_
  · rintro ⟨q, hq, hmem⟩
    cases q with
    | none => simp at hmem
    | some q => exact ⟨q, hq, by simpa using hmem⟩
  · rintro ⟨q, hq, hmem⟩
    exact ⟨some q, hq, by simpa using hmem⟩
  · cases m <;> simp

/-- What a cache clear that names a node keeps: the rules that refer to none of the nodes and do
    not match the metadata. -/
theorem clearCache_of_some {m : Option AtappMetadata} {ps : List (Option NodePtr)} {q : NodePtr}
    (hq : some q ∈ ps) :
    (s.clearCache m ps).defaultIndex = s.defaultIndex.clearCache ∧
      ∀ e, e ∈ (s.clearCache m ps).metadataIndex.entries ↔ e ∈ s.metadataIndex.entries ∧
        (∀ p, some p ∈ ps → p ∉ e.2.referenceCache) ∧
        ∀ md, m = some md → AtappMetadata.filter e.1 md = false := by
  have hany : ¬ (m.isNone && ps.all Option.isNone) = true := by
    simp only [Bool.and_eq_true, List.all_eq_true, not_and]
    exact fun _ hall => absurd (hall _ hq) (by simp)
  simp only [clearCache, if_neg hany, true_and]
  intro e
  rw [MetadataIndexType.mem_eraseIf, ← Bool.not_eq_true, pendingToDelete_iff]
  simp [not_or]

/-! ## `remove_node` -/

/-- `remove_node` of a live node ends with a cache clear that names it. -/
theorem removeNode_of_live (h : IndexInv heap s) {q : NodePtr} (hl : s.Live q) :
    ∃ byName byId, s.removeNode heap q =
      { s with nodeByName := byName, nodeById := byId }.clearCache
        (heap q).nodeInfo.metadata [some q] := by
  have hin : ((heap q).nodeInfo.name ≠ [] ∧
      s.nodeByName.lookup (heap q).nodeInfo.name = some q) ∨
      ((heap q).nodeInfo.id ≠ 0 ∧ s.nodeById.lookup (heap q).nodeInfo.id = some q) := by
    rcases (h.live_iff q).1 hl with hk | hn
    · exact Or.inr ⟨(h.id_key _ q hk).1, hk⟩
    · exact Or.inl ⟨(h.name_key _ q hn).1, hn⟩
  simp only [removeNode, if_pos hin]
  exact ⟨_, _, rfl⟩

/-- `remove_node` clears the default index, unless it finds the node nowhere. -/
theorem removeNode_eq_or_cleared (heap : NodeHeap) (s : EtcdDiscoverySet) (q : NodePtr) :
    s.removeNode heap q = s ∨
      (s.removeNode heap q).defaultIndex = s.defaultIndex.clearCache := by
  simp only [removeNode]
  split
  · exact Or.inr (clearCache_of_some (List.mem_singleton.2 rfl)).1
  · next hnot =>
      rw [not_or, not_and, not_and] at hnot
      obtain ⟨hname, hid⟩ := hnot
      have hnames : (if (heap q).nodeInfo.name ≠ [] then
          eraseIfIs s.nodeByName (heap q).nodeInfo.name q else s.nodeByName) = s.nodeByName := by
        split
        · next h0 => rw [eraseIfIs, if_neg (hname h0)]
        · rfl
      have hids : (if (heap q).nodeInfo.id ≠ 0 then
          eraseIfIs s.nodeById (heap q).nodeInfo.id q else s.nodeById) = s.nodeById := by
        split
        · next h0 => rw [eraseIfIs, if_neg (hid h0)]
        · rfl
      rw [hnames, hids]
      exact Or.inl rfl

theorem removeNode_caches (h : IndexInv heap s) {q : NodePtr} (hl : s.Live q) :
    (s.removeNode heap q).defaultIndex = s.defaultIndex.clearCache ∧
      ∀ e, e ∈ (s.removeNode heap q).metadataIndex.entries ↔ e ∈ s.metadataIndex.entries ∧
        q ∉ e.2.referenceCache ∧
        ∀ md, (heap q).nodeInfo.metadata = some md → AtappMetadata.filter e.1 md = false := by
  obtain ⟨byName, byId, he⟩ := removeNode_of_live h hl
  rw [he]
  refine ⟨(clearCache_of_some (List.mem_singleton.2 rfl)).1, fun e => ?_⟩
  rw [(clearCache_of_some (List.mem_singleton.2 rfl)).2]
  simp

/-- An up-to-date index without the removed node stays up to date. -/
theorem UpToDate.removeNode (h : IndexInv heap s) (hup : UpToDate cfg heap s rule c) {q : NodePtr}
    (hq : q ∉ c.referenceCache) : UpToDate cfg heap (s.removeNode heap q) rule c := by
  refine hup.congr h (h.removeNode q) (fun p => ?_) (fun _ _ => ⟨rfl, rfl⟩)
  rw [mem_ruleNodes (h.removeNode q), h.live_removeNode, mem_ruleNodes h]
  constructor
  · rintro ⟨⟨hp, _⟩, hm⟩
    exact ⟨hp, hm⟩
  · rintro ⟨hp, hm⟩
    refine ⟨⟨hp, fun he => hq ?_⟩, hm⟩
    rw [hup.refs, freshIndex_referenceCache, mem_ruleNodes h]
    exact he ▸ ⟨hp, hm⟩

/-- **`remove_node` keeps every cached index current.** -/
theorem Coherent.removeNode (h : IndexInv heap s) (hc : Coherent cfg heap s) (q : NodePtr) :
    Coherent cfg heap (s.removeNode heap q) := by
  by_cases hl : s.Live q
  · obtain ⟨hdefault, hrules⟩ := removeNode_caches h hl
    refine ⟨Or.inl (hdefault ▸ cleared_clearCache _), fun e he => ?_⟩
    obtain ⟨he, hq, _⟩ := (hrules e).1 he
    exact (hc.rules e he).imp (fun hcl => hcl) (fun hup => hup.removeNode h hq)
  · rw [removeNode_of_not_live hl]
    exact hc

/-! ## `add_node` -/

/-- `add_node` clears the caches with a cache clear that names the displaced nodes, or the added
    node when it displaces none. -/
theorem exists_mem_clearCacheNodePtrs (heap : NodeHeap) (s : EtcdDiscoverySet) (node : NodePtr) :
    ∃ q, some q ∈ (s.addNodeLocals heap node).clearCacheNodePtrs := by
  by_cases hd : ∃ q, s.Displaces heap node q
  · obtain ⟨q, hq⟩ := hd
    exact ⟨q, (s.some_mem_clearCacheNodePtrs heap node q).2 (Or.inl hq)⟩
  · exact ⟨node, (s.some_mem_clearCacheNodePtrs heap node node).2
      (Or.inr ⟨rfl, fun r hr => hd ⟨r, hr⟩⟩)⟩

/-- What `add_node` keeps of the cached indexes: those of the rules that refer to none of the nodes
    it names and do not match the metadata of the added one. -/
theorem addNode_caches (heap : NodeHeap) (s : EtcdDiscoverySet) (node : NodePtr) :
    (s.addNode heap node).defaultIndex = s.defaultIndex.clearCache ∧
      ∀ e, e ∈ (s.addNode heap node).metadataIndex.entries ↔ e ∈ s.metadataIndex.entries ∧
        ((∀ q, s.Displaces heap node q → q ∉ e.2.referenceCache) ∧
          ((∀ q, ¬ s.Displaces heap node q) → node ∉ e.2.referenceCache)) ∧
        ∀ md, (heap node).nodeInfo.metadata = some md → AtappMetadata.filter e.1 md = false := by
  obtain ⟨q, hq⟩ := s.exists_mem_clearCacheNodePtrs heap node
  obtain ⟨hdefault, hrules⟩ := clearCache_of_some (m := (heap node).nodeInfo.metadata)
    (s := { s with nodeByName := (s.addNodeLocals heap node).nodeByName
                   nodeById := (s.addNodeLocals heap node).nodeById }) hq
  refine ⟨hdefault, fun e => (hrules e).trans (and_congr_right fun _ => and_congr_left fun _ => ?_)⟩
  simp only [some_mem_clearCacheNodePtrs]
  constructor
  · exact fun h => ⟨fun q hq => h q (Or.inl hq), fun hno => h node (Or.inr ⟨rfl, hno⟩)⟩
  · rintro ⟨hd, hn⟩ q (hq | ⟨rfl, hno⟩)
    · exact hd q hq
    · exact hn hno

/-- The nodes of a rule after `add_node`. -/
theorem mem_ruleNodes_addNode {node : NodePtr} (h : IndexInv heap s) (rule : Option AtappMetadata)
    (p : NodePtr) : p ∈ (s.addNode heap node).ruleNodes heap rule ↔
      (p = node ∧ ((heap node).id ≠ 0 ∨ (heap node).name ≠ []) ∧
          matchesRule heap rule node = true) ∨
        (p ≠ node ∧ p ∈ s.ruleNodes heap rule ∧ ¬ s.Displaces heap node p) := by
  rw [mem_ruleNodes (h.addNode node), (h.except node).live_addNode, mem_ruleNodes h]
  constructor
  · rintro ⟨⟨rfl, hkey⟩ | ⟨hpn, hl, hnot⟩, hm⟩
    · exact Or.inl ⟨rfl, hkey, hm⟩
    · exact Or.inr ⟨hpn, ⟨hl, hm⟩, hnot⟩
  · rintro (⟨rfl, hkey, hm⟩ | ⟨hpn, ⟨hl, hm⟩, hnot⟩)
    · exact ⟨Or.inl ⟨rfl, hkey⟩, hm⟩
    · exact ⟨Or.inr ⟨hpn, hl, hnot⟩, hm⟩

/-- A cached index that `add_node` leaves and must not: the added node is filed without metadata,
    the rule accepts the default metadata, and the index refers neither to the added node nor to
    one it displaces. -/
def MissesMetadata (heap : NodeHeap) (s : EtcdDiscoverySet) (node : NodePtr) : Prop :=
  (heap node).nodeInfo.metadata = none ∧ ((heap node).id ≠ 0 ∨ (heap node).name ≠ []) ∧
    ∃ e ∈ s.metadataIndex.entries, e.2.roundRobinCache ≠ [] ∧ AtappMetadata.filter e.1 {} = true ∧
      ∀ q ∈ e.2.referenceCache, q ≠ node ∧ ¬ s.Displaces heap node q

instance (heap : NodeHeap) (s : EtcdDiscoverySet) (node : NodePtr) :
    Decidable (s.MissesMetadata heap node) :=
  inferInstanceAs (Decidable (_ ∧ _ ∧ ∃ e ∈ s.metadataIndex.entries, _))

section AddNode

variable {heap' : NodeHeap} {node : NodePtr}

/-- An up-to-date index that `add_node` leaves refers neither to the added node nor to one it
    displaces, so it stays up to date exactly if its rule does not take the added node. -/
theorem UpToDate.addNode_iff {e : AtappMetadata × IndexCacheType}
    (hup : UpToDate cfg heap s (some e.1) e.2) (h : IndexInv heap s) (h' : IndexInv heap' s)
    (hsame : ∀ p, p ≠ node → heap' p = heap p) (he : e ∈ (s.addNode heap' node).metadataIndex.entries) :
    node ∉ e.2.referenceCache ∧ (∀ q, s.Displaces heap' node q → q ∉ e.2.referenceCache) ∧
      (UpToDate cfg heap' (s.addNode heap' node) (some e.1) e.2 ↔
        ¬ (((heap' node).id ≠ 0 ∨ (heap' node).name ≠ []) ∧
          matchesRule heap' (some e.1) node = true)) := by
  obtain ⟨_, ⟨hdisp, hself⟩, _⟩ := ((addNode_caches heap' s node).2 e).1 he
  have hmem : ∀ p, p ∈ e.2.referenceCache ↔ p ∈ s.ruleNodes heap (some e.1) := by
    intro p
    rw [hup.refs, freshIndex_referenceCache]
  have hnode : node ∉ e.2.referenceCache := by
    intro hn
    have hl := ((mem_ruleNodes h _ node).1 ((hmem node).1 hn)).1
    exact hself (h'.not_displaces_of_live hl) hn
  refine ⟨hnode, hdisp, ?_, ?_⟩
  · rintro hup' ⟨hkey, hm⟩
    apply hnode
    rw [hup'.refs, freshIndex_referenceCache, mem_ruleNodes_addNode h']
    exact Or.inl ⟨rfl, hkey, hm⟩
  · intro hno
    have hinfo : ∀ p ∈ s.ruleNodes heap (some e.1), p ≠ node ∧ NodeHeap.SameInfo heap heap' p := by
      intro p hp
      have hpn : p ≠ node := fun hpn => hnode ((hmem node).2 (hpn ▸ hp))
      exact ⟨hpn, by rw [NodeHeap.SameInfo, hsame p hpn]; exact ⟨rfl, rfl⟩⟩
    refine hup.congr h (h'.addNode node) (fun p => ?_) (fun p hp => (hinfo p hp).2)
    rw [mem_ruleNodes_addNode h', mem_ruleNodes h']
    constructor
    · rintro (⟨_, hbad⟩ | ⟨hpn, ⟨hl, hm⟩, _⟩)
      · exact absurd hbad hno
      · rw [mem_ruleNodes h]
        have hsi : NodeHeap.SameInfo heap heap' p := by
          rw [NodeHeap.SameInfo, hsame p hpn]
          exact ⟨rfl, rfl⟩
        exact ⟨hl, matchesRule_congr hsi _ ▸ hm⟩
    · intro hp
      obtain ⟨hpn, hsi⟩ := hinfo p hp
      obtain ⟨hl, hm⟩ := (mem_ruleNodes h _ p).1 hp
      refine Or.inr ⟨hpn, ⟨hl, ?_⟩, fun hd => hdisp p hd ((hmem p).2 hp)⟩
      rw [matchesRule_congr hsi]
      exact hm

/-- **`add_node` keeps the cached indexes current exactly if it does not miss the default
    metadata of the added node.** The content of the node may have changed before, its keys only
    if it was not live. -/
theorem coherent_addNode_iff (hc : Coherent cfg heap s) (h : IndexInv heap s)
    (h' : IndexInv heap' s) (hsame : ∀ p, p ≠ node → heap' p = heap p) :
    Coherent cfg heap' (s.addNode heap' node) ↔ ¬ MissesMetadata heap' s node := by
  obtain ⟨hdefault, hrules⟩ := addNode_caches heap' s node
  constructor
  · rintro hc' ⟨hmeta, hkey, e, he, hrr, hfilter, hrefs⟩
    have he' : e ∈ (s.addNode heap' node).metadataIndex.entries :=
      (hrules e).2 ⟨he, ⟨fun q hd hq => (hrefs q hq).2 hd, fun _ hq => (hrefs node hq).1 rfl⟩,
        by simp [hmeta]⟩
    have hup := (hc.rules e he).resolve_left (fun hcl => hrr hcl.nodes)
    have hup' := (hc'.rules e he').resolve_left (fun hcl => hrr hcl.nodes)
    refine (hup.addNode_iff h h' hsame he').2.2.1 hup' ⟨hkey, ?_⟩
    simpa [matchesRule, AtappDiscovery.metadataOrDefault, hmeta] using hfilter
  · intro hno
    refine ⟨Or.inl (hdefault ▸ cleared_clearCache _), fun e he' => ?_⟩
    obtain ⟨he, _, hfilter⟩ := (hrules e).1 he'
    by_cases hrr : e.2.roundRobinCache = []
    · exact Or.inl ((hc.rules e he).elim (fun hcl => hcl) (fun hup => hup.cleared_of_nodes hrr))
    · have hup := (hc.rules e he).resolve_left (fun hcl => hrr hcl.nodes)
      obtain ⟨hnode, hdisp, hiff⟩ := hup.addNode_iff h h' hsame he'
      refine Or.inr (hiff.2 ?_)
      rintro ⟨hkey, hm⟩
      cases hmeta : (heap' node).nodeInfo.metadata with
      | none =>
          refine hno ⟨hmeta, hkey, e, he, hrr, ?_, fun q hq =>
            ⟨fun hqn => hnode (hqn ▸ hq), fun hd => hdisp q hd hq⟩⟩
          simpa [matchesRule, AtappDiscovery.metadataOrDefault, hmeta] using hm
      | some md =>
          have := hfilter md hmeta
          simp [matchesRule, AtappDiscovery.metadataOrDefault, hmeta, this] at hm

end AddNode

end EtcdDiscoverySet

end LibAtapp
