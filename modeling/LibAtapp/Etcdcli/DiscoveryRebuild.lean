import LibAtapp.Etcdcli.DiscoveryCache

set_option autoImplicit false

/-! # What a rebuild of an index produces

Under the index invariant the two loops of `rebuild_cache` meet every live node that the rule
accepts exactly once, whatever the enumeration order of the two maps, and the order of nodes tells
live nodes apart. So the rebuilt lists of nodes and of ring points are determined by the live
nodes alone. -/

namespace LibAtapp

namespace EtcdDiscoverySet

open SortedRing

variable (cfg : HashConfig) (heap : NodeHeap) (s : EtcdDiscoverySet)

/-! ## The nodes of a rule -/

/-- The nodes the two loops of `rebuild_cache` push, in loop order. -/
def ruleNodes (rule : Option AtappMetadata) : List NodePtr :=
  s.namedNodes heap rule ++ s.unnamedNodes heap rule

/-- The index rebuilt from scratch. -/
def freshIndex (rule : Option AtappMetadata) : IndexCacheType := s.rebuildCache cfg heap {} rule

/-- The points of the nodes of a rule, unsorted. -/
def rulePoints (rule : Option AtappMetadata) : List NodeHashType :=
  (s.ruleNodes heap rule).flatMap (hashPoints cfg heap)

theorem mem_namedNodes (rule : Option AtappMetadata) (p : NodePtr) :
    p ∈ s.namedNodes heap rule ↔
      (∃ n, s.getNodeByName n = some p) ∧ matchesRule heap rule p = true ∧ (heap p).name ≠ [] := by
  simp only [namedNodes, List.mem_filter, mem_entries_values, Bool.and_eq_true,
    Bool.not_eq_true', List.isEmpty_eq_false_iff]
  rfl

theorem mem_unnamedNodes (rule : Option AtappMetadata) (p : NodePtr) :
    p ∈ s.unnamedNodes heap rule ↔
      (∃ k, s.getNodeById k = some p) ∧ matchesRule heap rule p = true ∧ (heap p).name = [] := by
  simp only [unnamedNodes, List.mem_filter, mem_entries_values, Bool.and_eq_true,
    List.isEmpty_iff]
  rfl

variable {heap} {s}

/-- The nodes of a rule are the live nodes it accepts. -/
theorem mem_ruleNodes (h : IndexInv heap s) (rule : Option AtappMetadata) (p : NodePtr) :
    p ∈ s.ruleNodes heap rule ↔ s.Live p ∧ matchesRule heap rule p = true := by
  rw [ruleNodes, List.mem_append, mem_namedNodes, mem_unnamedNodes]
  constructor
  · rintro (⟨hn, hr, _⟩ | ⟨hk, hr, _⟩)
    · exact ⟨Or.inr hn, hr⟩
    · exact ⟨Or.inl hk, hr⟩
  · rintro ⟨hl, hr⟩
    by_cases hname : (heap p).name = []
    · rcases hl with ⟨k, hk⟩ | ⟨n, hn⟩
      · exact Or.inr ⟨⟨k, hk⟩, hr, hname⟩
      · -- an entry of the name index has a name
        have := h.name_key n p hn
        exact absurd (this.2.symm.trans hname) this.1
    · rcases hl with ⟨k, hk⟩ | ⟨n, hn⟩
      · exact Or.inl ⟨⟨_, h.id_to_name k p hk hname⟩, hr, hname⟩
      · exact Or.inl ⟨⟨n, hn⟩, hr, hname⟩

/-- The values of a map whose entries determine their keys are pairwise different. -/
private theorem nodup_entry_values {κ : Type} [DecidableEq κ] (m : AList (fun _ : κ => NodePtr))
    (keyOf : NodePtr → κ) (hkey : ∀ k p, m.lookup k = some p → keyOf p = k) :
    (m.entries.map Sigma.snd).Nodup := by
  refine List.Nodup.map_on ?_ (List.NodupKeys.nodup m.nodupKeys)
  rintro ⟨k, p⟩ hp ⟨l, q⟩ hq hpq
  have hk := hkey k p (AList.mem_lookup_iff.2 hp)
  have hl := hkey l q (AList.mem_lookup_iff.2 hq)
  obtain rfl : p = q := hpq
  obtain rfl : k = l := hk.symm.trans hl
  rfl

/-- No node is pushed twice. -/
theorem nodup_ruleNodes (h : IndexInv heap s) (rule : Option AtappMetadata) :
    (s.ruleNodes heap rule).Nodup := by
  rw [ruleNodes, List.nodup_append']
  refine ⟨?_, ?_, ?_⟩
  · exact (nodup_entry_values s.nodeByName (fun p => (heap p).name)
      (fun n p hn => (h.name_key n p hn).2)).filter _
  · exact (nodup_entry_values s.nodeById (fun p => (heap p).id)
      (fun k p hk => (h.id_key k p hk).2)).filter _
  · intro p hp hq
    rw [mem_namedNodes] at hp
    rw [mem_unnamedNodes] at hq
    exact hp.2.2 hq.2.2

/-- The order tells live nodes apart. -/
theorem orderKey_inj (h : IndexInv heap s) {p q : NodePtr} (hp : s.Live p) (hq : s.Live q)
    (hkey : orderKey heap p = orderKey heap q) : p = q := by
  have hid : (heap p).id = (heap q).id := congrArg (fun x => (ofLex (ofLex x).2).1) hkey
  have hname : (heap p).name = (heap q).name :=
    congrArg (fun x => (ofLex (ofLex (ofLex x).2).2).2) hkey
  rcases (h.live_iff p).1 hp with hpk | hpn <;> rcases (h.live_iff q).1 hq with hqk | hqn
  · rw [hid, hqk] at hpk
    exact (Option.some.inj hpk).symm
  · exact h.byId_eq_of_byName hqn (hid ▸ hpk)
  · exact (h.byId_eq_of_byName hpn (hid ▸ hqk)).symm
  · rw [hname, hqn] at hpn
    exact (Option.some.inj hpn).symm

/-! ## The rebuilt index -/

/-- Only an empty set has no nodes at all, so an empty set has no nodes for any rule. -/
theorem ruleNodes_of_isEmpty (hs : s.isEmpty = true) (rule : Option AtappMetadata) :
    s.ruleNodes heap rule = [] := by
  simp only [isEmpty, Bool.and_eq_true, List.isEmpty_iff] at hs
  simp [ruleNodes, namedNodes, unnamedNodes, hs.1, hs.2]

/-- A rebuild of an index without ring points, in terms of the nodes of the rule. -/
theorem rebuildCache_of_ring_nil {c : IndexCacheType} (hc : c.normalHashingRing = [])
    (hs : s.isEmpty = false) (rule : Option AtappMetadata) :
    s.rebuildCache cfg heap c rule =
      { roundRobinCache := sortBy (orderKey heap) (s.ruleNodes heap rule)
        referenceCache := s.ruleNodes heap rule
        roundRobinIndex := 0
        normalHashingRing := sortBy (pointKey heap) (s.rulePoints cfg heap rule)
        compactHashingRing := [] } := by
  have hnodes : ∀ l : List NodePtr,
      l.insertionSort (fun l r => !roundRobinCompareIndex heap (some r) (some l)) =
        sortBy (orderKey heap) l :=
    insertionSort_eq_sortBy (orderKey heap) _ (fun a b => by simp [roundRobinCompareIndex_eq])
  have hpoints : ∀ l : List NodeHashType,
      l.insertionSort (fun l r => !consistentHashCompareIndex heap r l) =
        sortBy (pointKey heap) l :=
    insertionSort_eq_sortBy (pointKey heap) _ (fun a b => by simp [consistentHashCompareIndex_eq])
  simp only [rebuildCache, hc, hs, List.isEmpty_nil, Bool.not_true, Bool.false_eq_true, if_false,
    IndexCacheType.clearCache, hnodes, hpoints, rulePoints, ruleNodes]

/-- The index rebuilt from scratch, field by field. -/
theorem freshIndex_eq (rule : Option AtappMetadata) :
    s.freshIndex cfg heap rule =
      { roundRobinCache := sortBy (orderKey heap) (s.ruleNodes heap rule)
        referenceCache := s.ruleNodes heap rule
        roundRobinIndex := 0
        normalHashingRing := sortBy (pointKey heap) (s.rulePoints cfg heap rule)
        compactHashingRing := [] } := by
  cases hs : s.isEmpty with
  | true =>
      simp only [freshIndex, rebuildCache, hs, rulePoints, ruleNodes_of_isEmpty hs]
      rfl
  | false => exact rebuildCache_of_ring_nil cfg rfl hs rule

@[simp] theorem freshIndex_roundRobinCache (rule : Option AtappMetadata) :
    (s.freshIndex cfg heap rule).roundRobinCache =
      sortBy (orderKey heap) (s.ruleNodes heap rule) := by
  rw [freshIndex_eq]

@[simp] theorem freshIndex_normalHashingRing (rule : Option AtappMetadata) :
    (s.freshIndex cfg heap rule).normalHashingRing =
      sortBy (pointKey heap) (s.rulePoints cfg heap rule) := by
  rw [freshIndex_eq]

@[simp] theorem freshIndex_referenceCache (rule : Option AtappMetadata) :
    (s.freshIndex cfg heap rule).referenceCache = s.ruleNodes heap rule := by
  rw [freshIndex_eq]

/-! ## The points of a rule -/

theorem node_of_mem_hashPoints {p : NodePtr} {point : NodeHashType}
    (h : point ∈ hashPoints cfg heap p) : point.node = some p := by
  simp only [hashPoints, List.mem_map] at h
  obtain ⟨_, _, rfl⟩ := h
  rfl

theorem length_hashPoints (heap : NodeHeap) (p : NodePtr) :
    (hashPoints cfg heap p).length = hashPointPerIns := by
  simp [hashPoints]

/-- Every point belongs to a node of the rule. -/
theorem mem_rulePoints_node {rule : Option AtappMetadata} {point : NodeHashType}
    (h : point ∈ s.rulePoints cfg heap rule) :
    ∃ p ∈ s.ruleNodes heap rule, point.node = some p := by
  simp only [rulePoints, List.mem_flatMap] at h
  obtain ⟨p, hp, hpoint⟩ := h
  exact ⟨p, hp, node_of_mem_hashPoints cfg hpoint⟩

/-- In the points of a list of different nodes, each node has its `HASH_POINT_PER_INS` ones. -/
theorem countP_flatMap_hashPoints {l : List NodePtr} (hl : l.Nodup) {p : NodePtr} (hp : p ∈ l) :
    (l.flatMap (hashPoints cfg heap)).countP (fun point => point.node == some p) =
      hashPointPerIns := by
  have hother : ∀ {l : List NodePtr}, p ∉ l →
      (l.flatMap (hashPoints cfg heap)).countP (fun point => point.node == some p) = 0 := by
    intro l hnot
    rw [List.countP_eq_zero]
    intro point hpoint
    obtain ⟨q, hq, hpq⟩ := List.mem_flatMap.1 hpoint
    rw [node_of_mem_hashPoints cfg hpq, beq_iff_eq]
    exact fun he => hnot (Option.some.inj he ▸ hq)
  induction l with
  | nil => simp at hp
  | cons q l ih =>
      obtain ⟨hq, hl⟩ := List.nodup_cons.1 hl
      rw [List.flatMap_cons, List.countP_append]
      by_cases hpq : p = q
      · subst hpq
        rw [hother hq, Nat.add_zero, List.countP_eq_length.2, length_hashPoints]
        intro point hpoint
        simp [node_of_mem_hashPoints cfg hpoint]
      · rw [ih hl ((List.mem_cons.1 hp).resolve_left hpq), List.countP_eq_zero.2, Nat.zero_add]
        intro point hpoint
        simpa [node_of_mem_hashPoints cfg hpoint] using fun he => hpq he.symm

/-- The order tells the points of live nodes apart, up to equal points. -/
theorem pointKey_inj (h : IndexInv heap s) (rule : Option AtappMetadata) :
    ∀ a ∈ s.rulePoints cfg heap rule, ∀ b ∈ s.rulePoints cfg heap rule,
      pointKey heap a = pointKey heap b → a = b := by
  intro a ha b hb hkey
  obtain ⟨p, hp, hap⟩ := mem_rulePoints_node cfg ha
  obtain ⟨q, hq, hbq⟩ := mem_rulePoints_node cfg hb
  obtain ⟨hhash, hnode⟩ := Prod.ext_iff.1 (toLex.injective hkey)
  have hhash : a.hashCode = b.hashCode := toLex.injective hhash
  simp only [hap, hbq] at hnode
  have hpq := orderKey_inj h ((mem_ruleNodes h rule p).1 hp).1 ((mem_ruleNodes h rule q).1 hq).1
    (WithBot.coe_injective hnode)
  subst hpq
  obtain ⟨an, ah⟩ := a
  obtain ⟨bn, bh⟩ := b
  simp only at hap hbq hhash
  rw [hap, hbq, hhash]

theorem orderKey_inj_ruleNodes (h : IndexInv heap s) (rule : Option AtappMetadata) :
    ∀ p ∈ s.ruleNodes heap rule, ∀ q ∈ s.ruleNodes heap rule,
      orderKey heap p = orderKey heap q → p = q :=
  fun p hp q hq => orderKey_inj h ((mem_ruleNodes h rule p).1 hp).1 ((mem_ruleNodes h rule q).1 hq).1

/-! ## The answer of a rebuild -/

/-- What an index should hold: the live nodes the rule accepts, each once and in order, and
    exactly `HASH_POINT_PER_INS` points of each on a ring in order. -/
structure ExactIndex (heap : NodeHeap) (s : EtcdDiscoverySet) (rule : Option AtappMetadata)
    (nodes : List NodePtr) (ring : List NodeHashType) : Prop where
  mem : ∀ p, p ∈ nodes ↔ s.Live p ∧ matchesRule heap rule p = true
  nodup : nodes.Nodup
  sorted : nodes.Pairwise (fun l r => roundRobinCompareIndex heap (some r) (some l) = false)
  points : ∀ p ∈ nodes, ring.countP (fun point => point.node == some p) = hashPointPerIns
  point_node : ∀ point ∈ ring, ∃ p ∈ nodes, point.node = some p
  ring_sorted : ring.Pairwise (fun l r => consistentHashCompareIndex heap r l = false)

/-- **A rebuild is exact** under the index invariant. -/
theorem exactIndex_freshIndex (h : IndexInv heap s) (rule : Option AtappMetadata) :
    ExactIndex heap s rule (s.freshIndex cfg heap rule).roundRobinCache
      (s.freshIndex cfg heap rule).normalHashingRing := by
  rw [freshIndex_roundRobinCache, freshIndex_normalHashingRing]
  refine ⟨?_, ?_, ?_, ?_, ?_, ?_⟩
  · intro p
    rw [mem_sortBy, mem_ruleNodes h]
  · exact (sortBy_perm _ _).nodup_iff.2 (nodup_ruleNodes h rule)
  · refine (sortBy_pairwise _ _).imp ?_
    intro l r hlr
    simpa [roundRobinCompareIndex_eq] using hlr
  · intro p hp
    rw [(sortBy_perm _ _).countP_eq]
    exact countP_flatMap_hashPoints cfg (nodup_ruleNodes h rule) ((mem_sortBy _).1 hp)
  · intro point hpoint
    obtain ⟨p, hp, hpoint⟩ := mem_rulePoints_node cfg ((mem_sortBy _).1 hpoint)
    exact ⟨p, (mem_sortBy _).2 hp, hpoint⟩
  · refine (sortBy_pairwise _ _).imp ?_
    intro l r hlr
    simpa [consistentHashCompareIndex_eq] using hlr

/-! ## When a rebuild gives the same index -/

theorem matchesRule_congr {heap' : NodeHeap} {p : NodePtr} (h : NodeHeap.SameInfo heap heap' p)
    (rule : Option AtappMetadata) : matchesRule heap' rule p = matchesRule heap rule p := by
  unfold matchesRule
  cases rule with
  | none => rfl
  | some r => simp only [h.1]

theorem orderKey_congr {heap' : NodeHeap} {p : NodePtr} (h : NodeHeap.SameInfo heap heap' p) :
    orderKey heap' p = orderKey heap p := by
  simp only [orderKey, EtcdDiscoveryNode.id, EtcdDiscoveryNode.name, h.1, h.2]

theorem hashPoints_congr {heap' : NodeHeap} {p : NodePtr} (h : NodeHeap.SameInfo heap heap' p) :
    hashPoints cfg heap' p = hashPoints cfg heap p := by
  simp only [hashPoints, hashBuffer, EtcdDiscoveryNode.id, EtcdDiscoveryNode.name, h.1]

/-- Two sets with the same nodes for a rule, of the same content, rebuild the same index. -/
theorem freshIndex_congr {heap' : NodeHeap} {s' : EtcdDiscoverySet} (h : IndexInv heap s)
    (h' : IndexInv heap' s') {rule : Option AtappMetadata}
    (hmem : ∀ p, p ∈ s'.ruleNodes heap' rule ↔ p ∈ s.ruleNodes heap rule)
    (hinfo : ∀ p ∈ s.ruleNodes heap rule, NodeHeap.SameInfo heap heap' p) :
    (s'.freshIndex cfg heap' rule).roundRobinCache = (s.freshIndex cfg heap rule).roundRobinCache ∧
      (s'.freshIndex cfg heap' rule).normalHashingRing =
        (s.freshIndex cfg heap rule).normalHashingRing := by
  have hnodes : (s'.ruleNodes heap' rule).Perm (s.ruleNodes heap rule) :=
    (List.perm_ext_iff_of_nodup (nodup_ruleNodes h' rule) (nodup_ruleNodes h rule)).2 hmem
  have hpoints : (s'.rulePoints cfg heap' rule).Perm (s.rulePoints cfg heap rule) := by
    refine (hnodes.flatMap_right _).trans (List.Perm.of_eq ?_)
    exact List.flatMap_congr (fun p hp => hashPoints_congr cfg (hinfo p hp))
  simp only [freshIndex_roundRobinCache, freshIndex_normalHashingRing]
  constructor
  · refine eq_of_perm (orderKey heap') ?_ (sortBy_pairwise _ _) ?_
      ((sortBy_perm _ _).trans (hnodes.trans (sortBy_perm _ _).symm))
    · intro a ha b hb
      exact orderKey_inj_ruleNodes h' rule a ((mem_sortBy _).1 ha) b ((mem_sortBy _).1 hb)
    · refine (sortBy_pairwise (orderKey heap) _).imp_of_mem ?_
      intro a b ha hb hab
      rw [orderKey_congr (hinfo a ((mem_sortBy _).1 ha)), orderKey_congr (hinfo b ((mem_sortBy _).1 hb))]
      exact hab
  · have hkey : ∀ point ∈ s.rulePoints cfg heap rule, pointKey heap' point = pointKey heap point := by
      intro point hpoint
      obtain ⟨p, hp, hnode⟩ := mem_rulePoints_node cfg hpoint
      simp only [pointKey, hnode, nullableKey, orderKey_congr (hinfo p hp)]
    refine eq_of_perm (pointKey heap') ?_ (sortBy_pairwise _ _) ?_
      ((sortBy_perm _ _).trans (hpoints.trans (sortBy_perm _ _).symm))
    · intro a ha b hb
      exact pointKey_inj cfg h' rule a ((mem_sortBy _).1 ha) b ((mem_sortBy _).1 hb)
    · refine (sortBy_pairwise (pointKey heap) _).imp_of_mem ?_
      intro a b ha hb hab
      rw [hkey a ((mem_sortBy _).1 ha), hkey b ((mem_sortBy _).1 hb)]
      exact hab

/-- A rebuild reads nothing of the heap but infos and name hashes. -/
theorem freshIndex_of_sameInfo {heap' : NodeHeap} (h : ∀ p, NodeHeap.SameInfo heap heap' p)
    (rule : Option AtappMetadata) : s.freshIndex cfg heap' rule = s.freshIndex cfg heap rule := by
  have hname : ∀ p, (heap' p).name = (heap p).name :=
    fun p => congrArg AtappDiscovery.name (h p).1
  have hnodes : s.ruleNodes heap' rule = s.ruleNodes heap rule := by
    simp only [ruleNodes, namedNodes, unnamedNodes, hname, fun p => matchesRule_congr (h p) rule]
  have horder : orderKey heap' = orderKey heap := funext fun p => orderKey_congr (h p)
  have hpoint : pointKey heap' = pointKey heap := by
    funext point
    cases hnode : point.node <;> simp [pointKey, nullableKey, hnode, horder]
  have hhash : hashPoints cfg heap' = hashPoints cfg heap :=
    funext fun p => hashPoints_congr cfg (h p)
  rw [freshIndex_eq, freshIndex_eq, rulePoints, rulePoints, hnodes, horder, hpoint, hhash]

/-- An index that holds the nodes and points of a rebuild from scratch; its compacted ring, where
    it has one, is that of these points. -/
structure UpToDate (cfg : HashConfig) (heap : NodeHeap) (s : EtcdDiscoverySet)
    (rule : Option AtappMetadata) (c : IndexCacheType) : Prop where
  nodes : c.roundRobinCache = (s.freshIndex cfg heap rule).roundRobinCache
  ring : c.normalHashingRing = (s.freshIndex cfg heap rule).normalHashingRing
  refs : ∀ p, p ∈ c.referenceCache ↔ p ∈ (s.freshIndex cfg heap rule).referenceCache
  compact : c.compactHashingRing = [] ∨
    c.compactHashingRing = compactRing heap (s.freshIndex cfg heap rule).normalHashingRing

end EtcdDiscoverySet

end LibAtapp
