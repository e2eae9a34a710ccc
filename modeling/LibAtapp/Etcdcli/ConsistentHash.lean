import LibAtapp.Etcdcli.Subindexes

set_option autoImplicit false

/-! # Minimal disruption of consistent hashing

A key is mapped to the node of the first ring point at or after its hash, once around. Adding or
removing one node only adds or removes points of this node, so keys move to the added node or away
from the removed one only, as long as the ring that answered before was not stale. A stale ring
still has points of nodes of the set only, so a removed node never answers. -/

namespace LibAtapp

namespace EtcdDiscoverySet

open SortedRing (sortBy)

variable {cfg : HashConfig} {heap : NodeHeap} {s s' : EtcdDiscoverySet}
  {rule : Option AtappMetadata}

/-! ## The answer for a key -/

/-- The node of the first point at or after a hash, once around the ring. -/
def ringAnswer (ring : List NodeHashType) (hashCode : HashCode) : Option NodePtr :=
  (ringFrom ring hashCode).head?.bind NodeHashType.node

/-- The ring a search for a key runs on. -/
def answerRing (cfg : HashConfig) (heap : NodeHeap) (s : EtcdDiscoverySet)
    (rule : Option AtappMetadata) : List NodeHashType :=
  (s.refreshRing cfg heap false rule (s.cachedIndex rule)).normalHashingRing

/-- `get_node_by_consistent_hash` reads the ring at the hash of the key. -/
theorem getNodeByConsistentHash_eq (buf : Bytes) :
    (s.getNodeByConsistentHash cfg heap buf rule).2 =
      ringAnswer (s.answerRing cfg heap rule)
        (consistentHashCalc cfg buf cfg.hashMagicNumber) := by
  simp only [getNodeByConsistentHash, getNodeHashByConsistentHash,
    lowerBoundNodeHashByConsistentHash, if_neg Nat.one_ne_zero, withIndexCache_snd, ringAnswer,
    answerRing, selectHashRing, Bool.false_eq_true, if_false]
  generalize (s.refreshRing cfg heap false rule (s.cachedIndex rule)).normalHashingRing = ring
  generalize consistentHashCalc cfg buf cfg.hashMagicNumber = hashKey
  cases hr : ringFrom ring hashKey with
  | nil =>
      have hlen : ring.length = 0 := by
        rw [← (SortedRing.ringFrom_perm _ ring).length_eq, ← ringFrom_eq, hr]
        rfl
      simp [hlen, searchLoop]
  | cons point rest =>
      have hlen : 1 ≤ ring.length := by
        rw [← (SortedRing.ringFrom_perm _ ring).length_eq, ← ringFrom_eq, hr]
        simp
      simp [Nat.min_eq_left hlen, searchLoop]

/-- A search rebuilds a ring it finds without points and keeps any other. -/
theorem answerRing_eq : s.answerRing cfg heap rule =
    if (s.cachedIndex rule).normalHashingRing = [] then
      (s.freshIndex cfg heap rule).normalHashingRing
    else (s.cachedIndex rule).normalHashingRing := by
  generalize hc : s.cachedIndex rule = c
  simp only [answerRing, refreshRing, Bool.false_eq_true, if_false, List.isEmpty_iff, hc]
  split
  · next hring =>
      cases hs : s.isEmpty with
      | true =>
          have hfresh : (s.freshIndex cfg heap rule).normalHashingRing = [] := by
            rw [freshIndex_normalHashingRing, rulePoints_eq_nil_iff.2 (ruleNodes_of_isEmpty hs rule)]
            rfl
          rw [hfresh]
          simp [rebuildCache, hring, hs]
      | false => rw [rebuildCache_of_ring_nil cfg hring hs, freshIndex_normalHashingRing]
  · rfl

/-! ## Rings that differ in the points of one node -/

/-- The part of a sorted ring below a hash is an initial part of it. -/
theorem initial_below (heap : NodeHeap) (l : List NodeHashType) (hashCode : HashCode) :
    SortedRing.Initial (fun e => HashCode.lt e.hashCode hashCode) (sortBy (pointKey heap) l) := by
  refine (SortedRing.sortBy_pairwise (pointKey heap) l).imp ?_
  intro a b hab hb
  simp only [HashCode.lt_eq, decide_eq_true_iff] at hb ⊢
  exact lt_of_le_of_lt (Prod.Lex.monotone_fst _ _ hab) hb

/-- Dropping a node from a list of nodes drops its points. -/
theorem filter_flatMap_hashPoints (l : List NodePtr) (node : NodePtr) :
    (l.flatMap (hashPoints cfg heap)).filter (fun point => point.node != some node) =
      (l.filter (fun p => p != node)).flatMap (hashPoints cfg heap) := by
  induction l with
  | nil => rfl
  | cons p l ih =>
      rw [List.flatMap_cons, List.filter_append, ih]
      by_cases hp : p = node
      · subst hp
        rw [List.filter_cons_of_neg (by simp), List.filter_eq_nil_iff.2, List.nil_append]
        exact fun point hpoint => by simp [node_of_mem_hashPoints cfg hpoint]
      · rw [List.filter_cons_of_pos (by simpa using hp), List.flatMap_cons,
          List.filter_eq_self.2]
        exact fun point hpoint => by simpa [node_of_mem_hashPoints cfg hpoint] using hp

/-- When two sets differ by one node for a rule, their rings differ by its points. -/
theorem freshRing_filter (h : IndexInv heap s) (h' : IndexInv heap s') {node : NodePtr}
    (hmem : ∀ p, p ∈ s.ruleNodes heap rule ↔ p ∈ s'.ruleNodes heap rule ∧ p ≠ node) :
    (s.freshIndex cfg heap rule).normalHashingRing =
      (s'.freshIndex cfg heap rule).normalHashingRing.filter
        (fun point => point.node != some node) := by
  rw [freshIndex_normalHashingRing, freshIndex_normalHashingRing,
    SortedRing.filter_sortBy _ (pointKey_inj cfg h' rule)]
  refine SortedRing.sortBy_congr _ (pointKey_inj cfg h rule) ?_
  have hnodes : (s.ruleNodes heap rule).Perm
      ((s'.ruleNodes heap rule).filter (fun p => p != node)) := by
    refine (List.perm_ext_iff_of_nodup (nodup_ruleNodes h rule)
      ((nodup_ruleNodes h' rule).filter _)).2 (fun p => ?_)
    rw [hmem, List.mem_filter, bne_iff_ne]
  rw [rulePoints, rulePoints, filter_flatMap_hashPoints]
  exact hnodes.flatMap_right _

/-- **Minimal disruption** of the rebuilt rings: without the points of one node, a hash that was
    not answered by it keeps its answer. -/
theorem ringAnswer_of_ne (h : IndexInv heap s) (h' : IndexInv heap s') {node : NodePtr}
    (hmem : ∀ p, p ∈ s.ruleNodes heap rule ↔ p ∈ s'.ruleNodes heap rule ∧ p ≠ node)
    (hashCode : HashCode)
    (hne : ringAnswer (s'.freshIndex cfg heap rule).normalHashingRing hashCode ≠ some node) :
    ringAnswer (s.freshIndex cfg heap rule).normalHashingRing hashCode =
      ringAnswer (s'.freshIndex cfg heap rule).normalHashingRing hashCode := by
  rw [freshRing_filter h h' hmem]
  have hinit := initial_below heap (s'.rulePoints cfg heap rule) hashCode
  rw [← freshIndex_normalHashingRing] at hinit
  revert hne
  simp only [ringAnswer, ringFrom_eq]
  cases hr : (SortedRing.ringFrom (fun e => HashCode.lt e.hashCode hashCode)
      (s'.freshIndex cfg heap rule).normalHashingRing).head? with
  | none =>
      intro _
      rw [SortedRing.ringFrom_filter hinit, List.head?_eq_none_iff.1 hr]
      rfl
  | some point =>
      intro hne
      rw [SortedRing.head_ringFrom_filter hinit hr]
      simpa using hne

/-! ## The index of a rule after an operation -/

/-- A cache clear that names a node drops the index of a rule, or leaves one that does not refer
    to the node. -/
theorem cachedIndex_clearCache {m : Option AtappMetadata} {ps : List (Option NodePtr)}
    {q : NodePtr} (hq : some q ∈ ps) :
    Cleared ((s.clearCache m ps).cachedIndex rule) ∨
      ((s.clearCache m ps).cachedIndex rule = s.cachedIndex rule ∧
        q ∉ (s.cachedIndex rule).referenceCache) := by
  obtain ⟨hdefault, hrules⟩ := clearCache_of_some (s := s) (m := m) hq
  unfold cachedIndex
  split
  · exact Or.inl (hdefault ▸ cleared_clearCache _)
  · next r _ =>
      cases hf : (s.clearCache m ps).metadataIndex.find r with
      | none => exact Or.inl cleared_empty
      | some e =>
          obtain ⟨he, hm⟩ := MetadataIndexType.find_some hf
          obtain ⟨he, hrefs, _⟩ := (hrules e).1 he
          rw [MetadataIndexType.find_of_mem he hm]
          exact Or.inr ⟨rfl, hrefs q hq⟩

theorem cachedIndex_addNode (node : NodePtr) :
    Cleared ((s.addNode heap node).cachedIndex rule) ∨
      (s.addNode heap node).cachedIndex rule = s.cachedIndex rule := by
  obtain ⟨q, hq⟩ := s.exists_mem_clearCacheNodePtrs heap node
  exact (cachedIndex_clearCache hq).imp (fun hcl => hcl) (fun hsame => hsame.1)

theorem cachedIndex_removeNode (h : IndexInv heap s) {node : NodePtr} (hl : s.Live node) :
    Cleared ((s.removeNode heap node).cachedIndex rule) ∨
      ((s.removeNode heap node).cachedIndex rule = s.cachedIndex rule ∧
        node ∉ (s.cachedIndex rule).referenceCache) := by
  obtain ⟨byName, byId, he⟩ := removeNode_of_live h hl
  rw [he]
  exact cachedIndex_clearCache (List.mem_singleton.2 rfl)

/-- A search on a current index runs on the rebuilt ring. -/
theorem answerRing_of_current (hcur : Current cfg heap s rule (s.cachedIndex rule)) :
    s.answerRing cfg heap rule = (s.freshIndex cfg heap rule).normalHashingRing :=
  (hcur.refreshRing false).1.ring

/-- Removing a node keeps the index of a rule current. -/
theorem current_removeNode (h : IndexInv heap s)
    (hcur : Current cfg heap s rule (s.cachedIndex rule)) (node : NodePtr) :
    Current cfg heap (s.removeNode heap node) rule ((s.removeNode heap node).cachedIndex rule) := by
  by_cases hl : s.Live node
  · rcases cachedIndex_removeNode h hl with hcl | ⟨hsame, hrefs⟩
    · exact Or.inl hcl
    · rw [hsame]
      exact hcur.imp (fun hcl => hcl) (fun hup => hup.removeNode h hrefs)
  · rw [removeNode_of_not_live hl]
    exact hcur

/-- A ring with points answers every hash with the node of one of them. -/
theorem ringAnswer_of_points {ring : List NodeHashType} {P : NodePtr → Prop} (hne : ring ≠ [])
    (hpoints : ∀ point ∈ ring, ∃ p, point.node = some p ∧ P p) (hashCode : HashCode) :
    ∃ p, ringAnswer ring hashCode = some p ∧ P p := by
  have hperm := SortedRing.ringFrom_perm (fun e => HashCode.lt e.hashCode hashCode) ring
  rw [← ringFrom_eq] at hperm
  cases hr : ringFrom ring hashCode with
  | nil =>
      rw [hr] at hperm
      exact absurd hperm.symm.eq_nil hne
  | cons point rest =>
      rw [hr] at hperm
      obtain ⟨p, hnode, hp⟩ := hpoints point (hperm.subset List.mem_cons_self)
      refine ⟨p, ?_, hp⟩
      rw [ringAnswer, hr]
      exact hnode

/-- The ring of a search has points as soon as the rule accepts a node. -/
theorem answerRing_ne_nil (h : IndexInv heap s)
    (hsome : ∃ p, s.Live p ∧ matchesRule heap rule p = true) :
    s.answerRing cfg heap rule ≠ [] := by
  obtain ⟨p, hp⟩ := hsome
  have hexact := exactIndex_freshIndex cfg h rule
  have hpoints := hexact.points p ((hexact.mem p).2 hp)
  rw [answerRing_eq]
  split
  · intro hnil
    rw [hnil, List.countP_nil] at hpoints
    exact absurd hpoints (by decide)
  · next hring => exact hring

/-- An index of some of the nodes maps every key to a live node that the rule accepts, if there is
    one. -/
theorem ringAnswer_of_subindex (h : IndexInv heap s)
    (hc : Subindex cfg heap s rule (s.cachedIndex rule)) (hashCode : HashCode)
    (hsome : ∃ p, s.Live p ∧ matchesRule heap rule p = true) :
    ∃ p, ringAnswer (s.answerRing cfg heap rule) hashCode = some p ∧ s.Live p ∧
      matchesRule heap rule p = true := by
  refine ringAnswer_of_points (answerRing_ne_nil h hsome) (fun point hpoint => ?_) hashCode
  obtain ⟨l, hb⟩ := hc.refreshRing h false
  rw [answerRing, hb.ring, SortedRing.mem_sortBy] at hpoint
  obtain ⟨p, hp, hpoint⟩ := List.mem_flatMap.1 hpoint
  exact ⟨p, node_of_mem_hashPoints cfg hpoint, hb.live p hp, hb.accepted p hp⟩

/-! ## Minimal disruption -/

/-- The set after `node` was removed by one of the three `remove_node`. -/
def Removes (heap : NodeHeap) (s : EtcdDiscoverySet) (node : NodePtr) (s' : EtcdDiscoverySet) :
    Prop :=
  s' = s.removeNode heap node ∨
    (∃ k, s.getNodeById k = some node ∧ s' = s.removeNodeById heap k) ∨
      ∃ n, s.getNodeByName n = some node ∧ s' = s.removeNodeByName heap n

theorem Removes.eq (h : IndexInv heap s) {node : NodePtr} (hr : Removes heap s node s') :
    s' = s.removeNode heap node := by
  rcases hr with hr | ⟨k, hk, hr⟩ | ⟨n, hn, hr⟩
  · exact hr
  · rw [hr, h.removeNodeById_eq hk]
  · rw [hr, h.removeNodeByName_eq hn]

/-- The change of a node leaves the index of a rule in place: the index exists, does not refer to
    the node, and its rule does not match the metadata of the node. -/
def LeavesIndex (heap : NodeHeap) (s : EtcdDiscoverySet) (node : NodePtr)
    (rule : Option AtappMetadata) : Prop :=
  ∃ m e, rule = some m ∧ m.isEmpty = false ∧ s.metadataIndex.find m = some e ∧
    node ∉ e.2.referenceCache ∧
    ∀ md, (heap node).nodeInfo.metadata = some md → AtappMetadata.filter e.1 md = false

theorem LeavesIndex.removeNode (h : IndexInv heap s) {node : NodePtr}
    (hleaves : LeavesIndex heap s node rule) :
    (s.removeNode heap node).cachedIndex rule = s.cachedIndex rule := by
  by_cases hl : s.Live node
  · obtain ⟨m, e, rfl, hm, hfind, hrefs, hfilter⟩ := hleaves
    obtain ⟨he, heq⟩ := MetadataIndexType.find_some hfind
    rw [cachedIndex_of_mem he heq hm,
      cachedIndex_of_mem (((removeNode_caches h hl).2 e).2 ⟨he, hrefs, hfilter⟩) heq hm]
  · rw [removeNode_of_not_live hl]

theorem LeavesIndex.addNode {node : NodePtr} (hnew : ∀ q, ¬ s.Displaces heap node q)
    (hleaves : LeavesIndex heap s node rule) :
    (s.addNode heap node).cachedIndex rule = s.cachedIndex rule := by
  obtain ⟨m, e, rfl, hm, hfind, hrefs, hfilter⟩ := hleaves
  obtain ⟨he, heq⟩ := MetadataIndexType.find_some hfind
  have he' := ((addNode_caches heap s node).2 e).2
    ⟨he, ⟨fun q hq => absurd hq (hnew q), fun _ => hrefs⟩, hfilter⟩
  rw [cachedIndex_of_mem he heq hm, cachedIndex_of_mem he' heq hm]

/-- The index of the rule is not stale, or the change of the node leaves it in place. -/
def KeepsAnswers (cfg : HashConfig) (heap : NodeHeap) (s : EtcdDiscoverySet) (node : NodePtr)
    (rule : Option AtappMetadata) : Prop :=
  Current cfg heap s rule (s.cachedIndex rule) ∨ LeavesIndex heap s node rule

/-- Between two sets that differ by one node, with the index of the rule cleared or left in place
    and current before if it is cleared, hashes not answered by the node keep their answers. -/
theorem ringAnswer_answerRing_of_ne (h : IndexInv heap s) (h' : IndexInv heap s') {node : NodePtr}
    (hmem : ∀ p, p ∈ s.ruleNodes heap rule ↔ p ∈ s'.ruleNodes heap rule ∧ p ≠ node)
    (hindex : (s.answerRing cfg heap rule = (s.freshIndex cfg heap rule).normalHashingRing ∧
        s'.answerRing cfg heap rule = (s'.freshIndex cfg heap rule).normalHashingRing) ∨
      s'.cachedIndex rule = s.cachedIndex rule)
    (hashCode : HashCode)
    (hne : ringAnswer (s'.answerRing cfg heap rule) hashCode ≠ some node) :
    ringAnswer (s.answerRing cfg heap rule) hashCode =
      ringAnswer (s'.answerRing cfg heap rule) hashCode := by
  rcases hindex with ⟨hs, hs'⟩ | hsame
  · rw [hs'] at hne
    rw [hs, hs']
    exact ringAnswer_of_ne h h' hmem hashCode hne
  · rw [answerRing_eq, hsame] at hne
    rw [answerRing_eq, answerRing_eq, hsame]
    split
    · next hnil =>
        rw [if_pos hnil] at hne
        exact ringAnswer_of_ne h h' hmem hashCode hne
    · rfl

/-- A node whose id and name lead nowhere is not live and displaces nothing. -/
theorem not_displaces_of_new {node : NodePtr} (hid : s.getNodeById (heap node).id = none)
    (hname : s.getNodeByName (heap node).name = none) (q : NodePtr) :
    ¬ s.Displaces heap node q := by
  rintro ⟨_, ⟨_, hq⟩ | ⟨_, hq⟩⟩
  · rw [hid] at hq
    exact absurd hq (by simp)
  · rw [hname] at hq
    exact absurd hq (by simp)

theorem mem_ruleNodes_addNode_new (h : IndexInv heap s) {node : NodePtr}
    (hid : s.getNodeById (heap node).id = none) (hname : s.getNodeByName (heap node).name = none)
    (p : NodePtr) :
    p ∈ s.ruleNodes heap rule ↔ p ∈ (s.addNode heap node).ruleNodes heap rule ∧ p ≠ node := by
  have hnode : node ∉ s.ruleNodes heap rule := by
    rw [mem_ruleNodes h, h.live_iff, hid, hname]
    simp
  rw [mem_ruleNodes_addNode h]
  constructor
  · intro hp
    have hpn : p ≠ node := fun he => hnode (he ▸ hp)
    exact ⟨Or.inr ⟨hpn, hp, not_displaces_of_new hid hname p⟩, hpn⟩
  · rintro ⟨⟨hpn, _⟩ | ⟨_, hp, _⟩, hne⟩
    · exact absurd hpn hne
    · exact hp

/-- **Consistent hashing is minimally disruptive** when the index of the rule is not stale or is
    left in place. Adding a node that is new by id and by name moves keys to it only; removing a
    node leaves every key that it did not answer where it was; and after a removal every key is
    answered by a remaining node that the rule accepts, if there is one. -/
theorem consistentHash_minimal_disruption {st : DiscoveryState} (h : DiscoveryState.Indexed cfg st)
    (node : NodePtr) (hkeeps : KeepsAnswers cfg st.heap st.nodes node rule) :
    (st.nodes.getNodeById (st.heap node).id = none →
      st.nodes.getNodeByName (st.heap node).name = none → ∀ buf,
      ((st.nodes.addNode st.heap node).getNodeByConsistentHash cfg st.heap buf rule).2 =
          (st.nodes.getNodeByConsistentHash cfg st.heap buf rule).2 ∨
        ((st.nodes.addNode st.heap node).getNodeByConsistentHash cfg st.heap buf rule).2 =
          some node) ∧
    (∀ s', Removes st.heap st.nodes node s' → ∀ buf,
      (st.nodes.getNodeByConsistentHash cfg st.heap buf rule).2 ≠ some node →
        (s'.getNodeByConsistentHash cfg st.heap buf rule).2 =
          (st.nodes.getNodeByConsistentHash cfg st.heap buf rule).2) ∧
    (∀ s', Removes st.heap st.nodes node s' → ∀ buf,
      (∃ p, s'.Live p ∧ matchesRule st.heap rule p = true) →
        ∃ p, (s'.getNodeByConsistentHash cfg st.heap buf rule).2 = some p ∧ s'.Live p ∧
          matchesRule st.heap rule p = true) := by
  have hi := h.index
  simp only [getNodeByConsistentHash_eq]
  refine ⟨fun hid hname buf => ?_, fun s' hr buf hne => ?_, fun s' hr buf hsome => ?_⟩
  · rw [or_iff_not_imp_right]
    intro hne
    refine (ringAnswer_answerRing_of_ne hi (hi.addNode node)
      (mem_ruleNodes_addNode_new hi hid hname) ?_ _ hne).symm
    rcases hkeeps with hcur | hleaves
    · exact (cachedIndex_addNode node).imp
        (fun hcl => ⟨answerRing_of_current hcur, answerRing_of_current (Or.inl hcl)⟩)
        (fun hsame => hsame)
    · exact Or.inr (hleaves.addNode (not_displaces_of_new hid hname))
  · rw [hr.eq hi]
    refine ringAnswer_answerRing_of_ne (hi.removeNode node) hi (fun p => ?_) ?_ _ hne
    · rw [mem_ruleNodes (hi.removeNode node), mem_ruleNodes hi, hi.live_removeNode]
      exact ⟨fun hp => ⟨⟨hp.1.1, hp.2⟩, hp.1.2⟩, fun hp => ⟨⟨hp.1.1, hp.2⟩, hp.1.2⟩⟩
    · rcases hkeeps with hcur | hleaves
      · exact Or.inl ⟨answerRing_of_current (current_removeNode hi hcur node),
          answerRing_of_current hcur⟩
      · exact Or.inr (hleaves.removeNode hi).symm
  · rw [hr.eq hi] at hsome ⊢
    have hcaches := h.caches.removeNode hi node
    exact ringAnswer_of_subindex (hi.removeNode node) (hcaches.cachedIndex rule) _ hsome

/-- A hash function for examples: the first byte picks the part of the ring, the seed the point. -/
def bucketConfig : HashConfig where
  murmurHash3X64128 := fun buf seed => (buf.head?.elim 0 (fun b => 1000 * b.val + seed), 0)
  hashMagicNumber := 0

/-- A heap whose third node has metadata. -/
def thirdNodeHeap : NodeHeap := fun p =>
  if p = 3 then { nodeInfo := { id := 3, name := [99], metadata := some {} } } else {}

/-- Two nodes, and their index cached by a query. -/
def queriedOps : List DiscoveryOp :=
  [.copyFromAndAdd 1 { id := 1, name := [97] } {} 0,
    .copyFromAndAdd 2 { id := 2, name := [98] } {} 0, .getSortedNodes none]

def queriedState : DiscoveryState :=
  Run.run (DiscoveryState.step bucketConfig) { heap := thirdNodeHeap } queriedOps

/-- With the current index of `queriedState`, a key of the second node stays or moves to the third
    node when it is added, and stays where it is when the first node is removed, after which a node
    of the set answers the keys of the first one. -/
theorem consistentHash_minimal_disruption_queried :
    (((queriedState.nodes.addNode queriedState.heap 3).getNodeByConsistentHash bucketConfig
          queriedState.heap [98] none).2 = some 2 ∨
      ((queriedState.nodes.addNode queriedState.heap 3).getNodeByConsistentHash bucketConfig
          queriedState.heap [98] none).2 = some 3) ∧
    ((queriedState.nodes.removeNodeById queriedState.heap 1).getNodeByConsistentHash bucketConfig
          queriedState.heap [98] none).2 = some 2 ∧
    ∃ p, ((queriedState.nodes.removeNodeById queriedState.heap 1).getNodeByConsistentHash
          bucketConfig queriedState.heap [97] none).2 = some p ∧
      (queriedState.nodes.removeNodeById queriedState.heap 1).Live p ∧
      matchesRule queriedState.heap none p = true := by
  have hindexed : DiscoveryState.Indexed bucketConfig queriedState :=
    DiscoveryState.indexed_run (DiscoveryState.indexed_empty _ _) (by decide +kernel)
  have hcoherent : queriedState.nodes.Coherent bucketConfig queriedState.heap :=
    DiscoveryState.coherent_run (DiscoveryState.wellFormed_empty _)
      (DiscoveryState.coherent_empty _ _) (by decide +kernel)
  have hremoves : Removes queriedState.heap queriedState.nodes 1
      (queriedState.nodes.removeNodeById queriedState.heap 1) :=
    Or.inr (Or.inl ⟨1, by decide +kernel, rfl⟩)
  have hcurrent := hcoherent.cachedIndex none
  have hanswer : (queriedState.nodes.getNodeByConsistentHash bucketConfig queriedState.heap [98]
      none).2 = some 2 := by
    decide +kernel
  have hsecond : ∃ p, (queriedState.nodes.removeNodeById queriedState.heap 1).Live p ∧
      matchesRule queriedState.heap none p = true :=
    ⟨2, Or.inl ⟨2, by decide +kernel⟩, rfl⟩
  have hadded := (consistentHash_minimal_disruption hindexed 3 (Or.inl hcurrent)).1
  obtain ⟨-, hkept, hanswered⟩ := consistentHash_minimal_disruption hindexed 1 (Or.inl hcurrent)
  rw [← hanswer]
  refine ⟨hadded (by decide +kernel) (by decide +kernel) [98], hkept _ hremoves [98] ?_,
    hanswered _ hremoves [97] hsecond⟩
  rw [hanswer]
  decide

/-! ## A key that moves to a third node -/

/-- The stale index of `staleOps`, over a heap with a third node that has metadata. -/
def staleState : DiscoveryState :=
  Run.run (DiscoveryState.step bucketConfig) { heap := thirdNodeHeap } DiscoveryState.staleOps

/-- Adding the third node drops the stale index, and a key moves from the first node to the
    second. -/
theorem consistentHash_moves_to_third_node :
    IndexInv staleState.heap staleState.nodes ∧
      staleState.nodes.getNodeById (staleState.heap 3).id = none ∧
      staleState.nodes.getNodeByName (staleState.heap 3).name = none ∧
      (staleState.nodes.getNodeByConsistentHash bucketConfig staleState.heap [98]
        (some DiscoveryState.emptyLabelRule)).2 = some 1 ∧
      ((staleState.nodes.addNode staleState.heap 3).getNodeByConsistentHash bucketConfig
        staleState.heap [98] (some DiscoveryState.emptyLabelRule)).2 = some 2 := by
  refine ⟨?_, by decide +kernel, by decide +kernel, by decide +kernel, by decide +kernel⟩
  exact (DiscoveryState.wellFormed_run (DiscoveryState.wellFormed_empty _)
    (by decide +kernel)).index

end EtcdDiscoverySet

end LibAtapp
