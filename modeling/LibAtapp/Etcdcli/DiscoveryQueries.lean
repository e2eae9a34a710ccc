import LibAtapp.Etcdcli.DiscoveryCoherence

set_option autoImplicit false

/-! # Queries over whole runs

What each query answers, in terms of the index rebuilt from the current nodes, and the runs of
`add_node`, `remove_node` and queries in which every answer is that of a rebuilt index. -/

namespace LibAtapp

namespace EtcdDiscoverySet

variable {cfg : HashConfig} {heap : NodeHeap} {s : EtcdDiscoverySet} {rule : Option AtappMetadata}

/-! ## The index a query finds -/

theorem withIndexCache_snd {α : Type} (f : IndexCacheType → IndexCacheType × α) :
    (s.withIndexCache rule f).2 = (f (s.cachedIndex rule)).2 := rfl

@[simp] theorem withIndexCache_nodeById {α : Type} (f : IndexCacheType → IndexCacheType × α) :
    (s.withIndexCache rule f).1.nodeById = s.nodeById := by
  simp only [withIndexCache, setCachedIndex]
  split <;> rfl

@[simp] theorem withIndexCache_nodeByName {α : Type} (f : IndexCacheType → IndexCacheType × α) :
    (s.withIndexCache rule f).1.nodeByName = s.nodeByName := by
  simp only [withIndexCache, setCachedIndex]
  split <;> rfl

/-- After a query, the rule has the index that the query left. -/
theorem cachedIndex_withIndexCache {α : Type} (f : IndexCacheType → IndexCacheType × α) :
    (s.withIndexCache rule f).1.cachedIndex rule = (f (s.cachedIndex rule)).1 := by
  simp only [withIndexCache, setCachedIndex]
  cases hrule : rule.filter (fun m => !m.isEmpty) with
  | none => simp [cachedIndex, hrule]
  | some m => simp [cachedIndex, hrule, MetadataIndexType.find_assign]

/-- Rules that compare equal share one cached index. -/
theorem cachedIndex_congr {m m' : AtappMetadata} (h : AtappMetadata.metadataEqual m m' = true) :
    s.cachedIndex (some m) = s.cachedIndex (some m') := by
  have hempty := AtappMetadata.isEmpty_congr h
  have hfind := s.metadataIndex.find_congr h
  cases hm : m'.isEmpty with
  | true =>
      rw [hm] at hempty
      simp [cachedIndex, Option.filter, hm, hempty]
  | false =>
      rw [hm] at hempty
      simp [cachedIndex, Option.filter, hm, hempty, hfind]

/-- The index of a rule with conditions is that of its entry. -/
theorem cachedIndex_of_mem {e : AtappMetadata × IndexCacheType} {m : AtappMetadata}
    (he : e ∈ s.metadataIndex.entries) (hm : AtappMetadata.metadataEqual e.1 m = true)
    (hne : m.isEmpty = false) : s.cachedIndex (some m) = e.2 := by
  simp [cachedIndex, Option.filter, hne, MetadataIndexType.find_of_mem he hm]

/-- A property that rules share when they accept the same nodes. -/
structure RuleProperty (P : Option AtappMetadata → IndexCacheType → Prop) : Prop where
  new : ∀ r, P r {}
  default : ∀ m c, m.isEmpty = true → (P none c ↔ P (some m) c)
  equal : ∀ m m' c, AtappMetadata.metadataEqual m m' = true → P (some m) c → P (some m') c

/-- A property of all cached indexes is one of the index that a query finds. -/
theorem cachedIndex_forall {P : Option AtappMetadata → IndexCacheType → Prop} (hP : RuleProperty P)
    (hs : P none s.defaultIndex ∧ ∀ e ∈ s.metadataIndex.entries, P (some e.1) e.2) :
    P rule (s.cachedIndex rule) := by
  cases rule with
  | none => exact hs.1
  | some m =>
      cases hm : m.isEmpty with
      | true =>
          have hd : s.cachedIndex (some m) = s.defaultIndex := by
            simp [cachedIndex, Option.filter, hm]
          rw [hd]
          exact (hP.default m _ hm).1 hs.1
      | false =>
          cases hfind : s.metadataIndex.find m with
          | none =>
              have hd : s.cachedIndex (some m) = {} := by
                simp [cachedIndex, Option.filter, hm, hfind]
              rw [hd]
              exact hP.new _
          | some e =>
              obtain ⟨he, heq⟩ := MetadataIndexType.find_some hfind
              rw [cachedIndex_of_mem he heq hm]
              exact hP.equal _ _ _ heq (hs.2 e he)

/-- A property of all cached indexes survives a query that keeps it of the index it uses. -/
theorem withIndexCache_forall {α : Type} {f : IndexCacheType → IndexCacheType × α}
    {P : Option AtappMetadata → IndexCacheType → Prop} (rule : Option AtappMetadata)
    (hP : RuleProperty P)
    (hf : ∀ c, P rule c → P rule (f c).1)
    (hs : P none s.defaultIndex ∧ ∀ e ∈ s.metadataIndex.entries, P (some e.1) e.2) :
    P none (s.withIndexCache rule f).1.defaultIndex ∧
      ∀ e ∈ (s.withIndexCache rule f).1.metadataIndex.entries, P (some e.1) e.2 := by
  have hnew : P rule (f (s.cachedIndex rule)).1 := hf _ (cachedIndex_forall hP hs)
  revert hnew
  simp only [withIndexCache, setCachedIndex]
  generalize (f (s.cachedIndex rule)).1 = c
  intro hnew
  split
  · next hrule =>
      refine ⟨?_, hs.2⟩
      cases rule with
      | none => exact hnew
      | some m => exact (hP.default m _ (by simpa [Option.filter] using hrule)).2 hnew
  · next m hrule =>
      obtain rfl : rule = some m := (Option.filter_eq_some_iff.1 hrule).1
      refine ⟨hs.1, fun e he => ?_⟩
      rcases MetadataIndexType.mem_assign he with ⟨heq, hc, _⟩ | he
      · rw [hc]
        exact hP.equal _ _ _ heq hnew
      · exact hs.2 e he

/-! ## The shape of the caches -/

/-- An index without nodes holds nothing. -/
def Shaped (c : IndexCacheType) : Prop := c.roundRobinCache = [] → Cleared c

theorem Cleared.shaped {c : IndexCacheType} (h : Cleared c) : Shaped c := fun _ => h

/-- The cached indexes have this shape and belong to rules with conditions. -/
structure CacheShape (s : EtcdDiscoverySet) : Prop where
  default : Shaped s.defaultIndex
  rules : ∀ e ∈ s.metadataIndex.entries, Shaped e.2
  nonempty : ∀ e ∈ s.metadataIndex.entries, e.1.isEmpty = false

theorem shaped_rebuildCache {c : IndexCacheType} (hc : Shaped c) :
    Shaped (s.rebuildCache cfg heap c rule) := by
  by_cases hring : c.normalHashingRing = []
  · cases hs : s.isEmpty with
    | true => simpa [rebuildCache, hring, hs] using hc
    | false =>
        intro hnodes
        have hup : UpToDate cfg heap s rule (s.rebuildCache cfg heap c rule) := by
          rw [rebuildCache_of_ring_nil cfg hring hs]
          refine ⟨?_, ?_, ?_, Or.inl rfl⟩ <;> simp
        exact hup.cleared_of_nodes hnodes
  · simpa [rebuildCache, hring] using hc

theorem shaped_refreshNodes {c : IndexCacheType} (hc : Shaped c) :
    Shaped (s.refreshNodes cfg heap rule c) := by
  unfold refreshNodes
  split
  · exact shaped_rebuildCache hc
  · exact hc

theorem shaped_refreshRing {c : IndexCacheType} (hc : Shaped c) (compactMode : Bool) :
    Shaped (s.refreshRing cfg heap compactMode rule c) := by
  cases compactMode with
  | false =>
      simp only [refreshRing, Bool.false_eq_true, if_false]
      split
      · exact shaped_rebuildCache hc
      · exact hc
  | true =>
      simp only [refreshRing, if_true]
      split
      · unfold rebuildCompactCache
        split
        · exact hc
        · split
          · exact hc
          · intro hnodes
            have hcl : Cleared (s.rebuildCache cfg heap c rule) := shaped_rebuildCache hc hnodes
            exact ⟨hnodes, hcl.ring, by simp [hcl.ring, compactRing], hcl.refs⟩
      · exact hc

/-- A cache clear keeps the shape. -/
theorem CacheShape.clearCache (h : CacheShape s) (m : Option AtappMetadata)
    (ps : List (Option NodePtr)) : CacheShape (s.clearCache m ps) := by
  unfold EtcdDiscoverySet.clearCache
  split
  · exact h
  · exact ⟨(cleared_clearCache _).shaped, fun e he => h.rules e (MetadataIndexType.mem_eraseIf.1 he).1,
      fun e he => h.nonempty e (MetadataIndexType.mem_eraseIf.1 he).1⟩

/-- The shape does not read the maps. -/
theorem CacheShape.maps (h : CacheShape s) (byName : NodeByNameType) (byId : NodeByIdType) :
    CacheShape { s with nodeByName := byName, nodeById := byId } :=
  ⟨h.default, h.rules, h.nonempty⟩

theorem CacheShape.addNode (h : CacheShape s) (node : NodePtr) :
    CacheShape (s.addNode heap node) :=
  (h.maps _ _).clearCache _ _

theorem CacheShape.removeNode (h : CacheShape s) (node : NodePtr) :
    CacheShape (s.removeNode heap node) := by
  simp only [EtcdDiscoverySet.removeNode]
  split
  · exact (h.maps _ _).clearCache _ _
  · exact h.maps _ _

theorem CacheShape.withIndexCache {α : Type} {f : IndexCacheType → IndexCacheType × α}
    (h : CacheShape s) (hf : ∀ c, Shaped c → Shaped (f c).1) :
    CacheShape (s.withIndexCache rule f).1 := by
  have hP : RuleProperty (fun _ c => Shaped c) :=
    ⟨fun _ => cleared_empty.shaped, fun _ _ _ => Iff.rfl, fun _ _ _ _ hc => hc⟩
  obtain ⟨hd, hr⟩ := withIndexCache_forall rule hP hf ⟨h.default, h.rules⟩
  refine ⟨hd, hr, fun e he => ?_⟩
  simp only [EtcdDiscoverySet.withIndexCache, setCachedIndex] at he
  split at he
  · exact h.nonempty e he
  · next m hrule =>
      have hm : m.isEmpty = false := by simpa using (Option.filter_eq_some_iff.1 hrule).2
      rcases MetadataIndexType.mem_assign he with ⟨_, _, rfl | ⟨c, hc⟩⟩ | he
      · exact hm
      · exact h.nonempty (e.1, c) hc
      · exact h.nonempty e he

/-- Rules that accept the same nodes have the same current indexes. -/
theorem Current.rule_congr {rule' : Option AtappMetadata} {c : IndexCacheType}
    (h : ∀ p, matchesRule heap rule p = matchesRule heap rule' p)
    (hcur : Current cfg heap s rule c) : Current cfg heap s rule' c := by
  have hnodes : s.ruleNodes heap rule = s.ruleNodes heap rule' := by
    simp only [ruleNodes, namedNodes, unnamedNodes, h]
  have hfresh : s.freshIndex cfg heap rule = s.freshIndex cfg heap rule' := by
    rw [freshIndex_eq, freshIndex_eq, rulePoints, rulePoints, hnodes]
  refine hcur.imp (fun h => h) (fun h => ?_)
  exact ⟨hfresh ▸ h.nodes, hfresh ▸ h.ring, hfresh ▸ h.refs, hfresh ▸ h.compact⟩

/-- A rule without conditions accepts what no rule accepts: every node. -/
theorem matchesRule_of_isEmpty {m : AtappMetadata} (h : m.isEmpty = true) (p : NodePtr) :
    matchesRule heap (some m) p = matchesRule heap none p := by
  simp [matchesRule, AtappMetadata.filter_of_isEmpty h]

theorem ruleProperty_current (cfg : HashConfig) (heap : NodeHeap) (s : EtcdDiscoverySet) :
    RuleProperty (Current cfg heap s) where
  new := fun _ => Or.inl cleared_empty
  default := fun _ _ hm => ⟨Current.rule_congr (fun p => (matchesRule_of_isEmpty hm p).symm),
    Current.rule_congr (matchesRule_of_isEmpty hm)⟩
  equal := fun _ _ _ heq => Current.rule_congr (fun _ => AtappMetadata.filter_congr heq _)

/-- A rebuild only reads the maps, which a query leaves. -/
theorem Current.withIndexCache {α : Type} (f : IndexCacheType → IndexCacheType × α)
    {rule' : Option AtappMetadata} {c : IndexCacheType} (hcur : Current cfg heap s rule' c) :
    Current cfg heap (s.withIndexCache rule f).1 rule' c := by
  have hfresh : (s.withIndexCache rule f).1.freshIndex cfg heap rule' =
      s.freshIndex cfg heap rule' := by
    simp only [freshIndex_eq, rulePoints, ruleNodes, namedNodes, unnamedNodes,
      withIndexCache_nodeById, withIndexCache_nodeByName]
  refine hcur.imp (fun h => h) (fun h => ?_)
  exact ⟨hfresh ▸ h.nodes, hfresh ▸ h.ring, hfresh ▸ h.refs, hfresh ▸ h.compact⟩

/-- A query keeps current indexes current. -/
theorem Coherent.withIndexCache {α : Type} {f : IndexCacheType → IndexCacheType × α}
    (hc : Coherent cfg heap s)
    (hf : ∀ c, Current cfg heap s rule c → Current cfg heap s rule (f c).1) :
    Coherent cfg heap (s.withIndexCache rule f).1 := by
  obtain ⟨hd, hr⟩ := withIndexCache_forall rule (ruleProperty_current cfg heap s) hf
    ⟨hc.default, hc.rules⟩
  exact ⟨hd.withIndexCache f, fun e he => (hr e he).withIndexCache f⟩

/-- A query keeps the default index current, whatever the other indexes are. -/
theorem current_default_withIndexCache {α : Type} {f : IndexCacheType → IndexCacheType × α}
    (hcur : Current cfg heap s none s.defaultIndex)
    (hf : ∀ c, Current cfg heap s rule c → Current cfg heap s rule (f c).1) :
    Current cfg heap (s.withIndexCache rule f).1 none
      (s.withIndexCache rule f).1.defaultIndex := by
  refine Current.withIndexCache f ?_
  have hproperty := ruleProperty_current cfg heap s
  cases rule with
  | none => exact hf _ hcur
  | some m =>
      cases hm : m.isEmpty with
      | true =>
          have hd : (s.withIndexCache (some m) f).1.defaultIndex = (f s.defaultIndex).1 := by
            simp [EtcdDiscoverySet.withIndexCache, setCachedIndex, cachedIndex, Option.filter, hm]
          rw [hd]
          exact (hproperty.default m _ hm).2 (hf _ ((hproperty.default m _ hm).1 hcur))
      | false =>
          have hd : (s.withIndexCache (some m) f).1.defaultIndex = s.defaultIndex := by
            simp [EtcdDiscoverySet.withIndexCache, setCachedIndex, Option.filter, hm]
          rw [hd]
          exact hcur

/-! ## The answers -/

/-- The search of `lower_bound_node_hash_by_consistent_hash` on the index rebuilt from scratch. -/
def freshSearch (cfg : HashConfig) (heap : NodeHeap) (s : EtcdDiscoverySet)
    (rule : Option AtappMetadata) (outputSize : Nat) (key : NodeHashType) (mode : SearchMode) :
    List NodeHashType :=
  let fresh := s.freshIndex cfg heap rule
  let ring := if mode.compact then compactRing heap fresh.normalHashingRing
    else fresh.normalHashingRing
  searchLoop heap mode key
    (min outputSize (if mode.unique then fresh.roundRobinCache.length else ring.length)) []
    (ringFrom ring key.hashCode)

/-- A search on a current index is one on the rebuilt index. -/
theorem lowerBound_of_current (hcur : Current cfg heap s rule (s.cachedIndex rule))
    (outputSize : Nat) (key : NodeHashType) (mode : SearchMode) :
    (s.lowerBoundNodeHashByConsistentHash cfg heap outputSize key rule mode).2 =
      freshSearch cfg heap s rule outputSize key mode := by
  obtain ⟨hup, hcompact⟩ := hcur.refreshRing mode.compact
  simp only [lowerBoundNodeHashByConsistentHash, freshSearch]
  split
  · next hsize => simp [hsize, searchLoop]
  · simp only [withIndexCache_snd, selectHashRing, hup.nodes, hup.ring]
    cases hmode : mode.compact with
    | false => simp
    | true =>
      rw [hmode] at hcompact
      simp only [if_true, hcompact rfl]

/-- Every query with this rule answers from the index that a rebuild from the current nodes gives,
    and that index is exact. -/
structure QueriesExact (cfg : HashConfig) (heap : NodeHeap) (s : EtcdDiscoverySet)
    (rule : Option AtappMetadata) : Prop where
  nodesIndex : UpToDate cfg heap s rule (s.refreshNodes cfg heap rule (s.cachedIndex rule))
  ringIndex : ∀ compactMode,
    UpToDate cfg heap s rule (s.refreshRing cfg heap compactMode rule (s.cachedIndex rule))
  sortedNodes : (s.getSortedNodes cfg heap rule).2 = (s.freshIndex cfg heap rule).roundRobinCache
  random : ∀ draw, (s.getNodeByRandom cfg heap draw rule).2 =
    (s.freshIndex cfg heap rule).roundRobinCache[
      draw % (s.freshIndex cfg heap rule).roundRobinCache.length]?
  roundRobin : ∃ position, (s.getNodeByRoundRobin cfg heap rule).2 =
    (s.freshIndex cfg heap rule).roundRobinCache[
      position % (s.freshIndex cfg heap rule).roundRobinCache.length]?
  lowerBound : ∀ outputSize key mode,
    (s.lowerBoundNodeHashByConsistentHash cfg heap outputSize key rule mode).2 =
      freshSearch cfg heap s rule outputSize key mode
  exact : ExactIndex heap s rule (s.freshIndex cfg heap rule).roundRobinCache
    (s.freshIndex cfg heap rule).normalHashingRing
  unconditional : (∀ m, rule = some m → m.isEmpty = true) →
    ∀ p, p ∈ (s.getSortedNodes cfg heap rule).2 ↔ s.Live p
  shared : ∀ m m', rule = some m → AtappMetadata.metadataEqual m m' = true →
    s.cachedIndex (some m') = s.cachedIndex rule

/-- The index a query finds is current when all cached indexes are. -/
theorem Coherent.cachedIndex (hc : Coherent cfg heap s) (rule : Option AtappMetadata) :
    Current cfg heap s rule (s.cachedIndex rule) :=
  cachedIndex_forall (ruleProperty_current cfg heap s) ⟨hc.default, hc.rules⟩

/-- Current indexes give exact answers. -/
theorem Coherent.queriesExact (h : IndexInv heap s) (hc : Coherent cfg heap s)
    (rule : Option AtappMetadata) : QueriesExact cfg heap s rule := by
  have hcur := hc.cachedIndex rule
  have hexact := exactIndex_freshIndex cfg h rule
  have hsorted : (s.getSortedNodes cfg heap rule).2 =
      (s.freshIndex cfg heap rule).roundRobinCache := by
    simp only [getSortedNodes, withIndexCache_snd]
    exact hcur.refreshNodes.nodes
  refine
    { nodesIndex := hcur.refreshNodes
      ringIndex := fun compactMode => (hcur.refreshRing compactMode).1
      sortedNodes := hsorted
      random := fun draw => ?_
      roundRobin := ⟨(s.refreshNodes cfg heap rule (s.cachedIndex rule)).roundRobinIndex, ?_⟩
      lowerBound := lowerBound_of_current hcur
      exact := hexact
      unconditional := fun hempty p => ?_
      shared := fun m m' hm heq => ?_ }
  · simp only [getNodeByRandom, withIndexCache_snd, hcur.refreshNodes.nodes]
  · simp only [getNodeByRoundRobin, withIndexCache_snd, hcur.refreshNodes.nodes]
    split
    · next hnil =>
        rw [List.isEmpty_iff.1 hnil]
        rfl
    · split
      · rfl
      · next hlt => rw [Nat.mod_eq_of_lt (Nat.lt_of_not_le hlt)]
  · rw [hsorted, hexact.mem]
    refine ⟨fun hp => hp.1, fun hp => ⟨hp, ?_⟩⟩
    cases rule with
    | none => rfl
    | some m => exact AtappMetadata.filter_of_isEmpty (hempty m rfl) _
  · subst hm
    exact (cachedIndex_congr heq).symm

/-- Exact answers come from current indexes: a query finds every cached index. -/
theorem coherent_of_queriesExact (hshape : CacheShape s)
    (hq : ∀ rule, QueriesExact cfg heap s rule) : Coherent cfg heap s := by
  have hcur : ∀ rule, Shaped (s.cachedIndex rule) →
      Current cfg heap s rule (s.cachedIndex rule) := by
    intro rule hsh
    by_cases hnil : (s.cachedIndex rule).roundRobinCache = []
    · exact Or.inl (hsh hnil)
    · have hup := (hq rule).nodesIndex
      simp only [refreshNodes, List.isEmpty_iff, hnil, if_false] at hup
      exact Or.inr hup
  refine ⟨hcur none hshape.default, fun e he => ?_⟩
  have hfind := cachedIndex_of_mem he (AtappMetadata.metadataEqual_refl _) (hshape.nonempty e he)
  have := hcur (some e.1) (hfind ▸ hshape.rules e he)
  rwa [hfind] at this

end EtcdDiscoverySet

/-- The index invariant only reads the two maps. -/
theorem IndexInv.of_maps {heap : NodeHeap} {s s' : EtcdDiscoverySet} (h : IndexInv heap s)
    (hid : s'.nodeById = s.nodeById) (hname : s'.nodeByName = s.nodeByName) :
    IndexInv heap s' := by
  have hi : ∀ k, s'.getNodeById k = s.getNodeById k := fun k => by
    simp only [EtcdDiscoverySet.getNodeById, hid]
  have hn : ∀ n, s'.getNodeByName n = s.getNodeByName n := fun n => by
    simp only [EtcdDiscoverySet.getNodeByName, hname]
  refine ⟨⟨?_, ?_⟩, ?_, ?_⟩
  · exact fun k p hp => h.id_key k p (hi k ▸ hp)
  · exact fun n p hp => h.name_key n p (hn n ▸ hp)
  · exact fun k p hp hne => (hn _).trans (h.id_to_name k p (hi k ▸ hp) hne)
  · exact fun n p hp hne => (hi _).trans (h.name_to_id n p (hn n ▸ hp) hne)

/-! ## Runs of changes and queries -/

/-- One call on the discovery set. `copyFromAndAdd` is `copy_from` immediately followed by
    `add_node`. -/
inductive DiscoveryOp
  | copyFromAndAdd (node : NodePtr) (input : AtappDiscovery) (version : EtcdDataVersion)
      (contextAddr : Nat)
  | addNode (node : NodePtr)
  | removeNode (node : NodePtr)
  | removeNodeById (id : Nat)
  | removeNodeByName (name : Bytes)
  | getSortedNodes (rule : Option AtappMetadata)
  | getNodeByRandom (draw : Nat) (rule : Option AtappMetadata)
  | getNodeByRoundRobin (rule : Option AtappMetadata)
  | lowerBound (outputSize : Nat) (key : NodeHashType) (rule : Option AtappMetadata)
      (mode : EtcdDiscoverySet.SearchMode)

/-- The nodes and the set that refers to them. -/
structure DiscoveryState where
  heap : NodeHeap := fun _ => {}
  nodes : EtcdDiscoverySet := {}

namespace DiscoveryState

/-- The state after one call. -/
def step (cfg : HashConfig) (st : DiscoveryState) : DiscoveryOp → DiscoveryState
  | .copyFromAndAdd node input version contextAddr =>
    let heap := Function.update st.heap node
      ((st.heap node).copyFrom cfg input version contextAddr)
    { heap := heap, nodes := st.nodes.addNode heap node }
  | .addNode node => { st with nodes := st.nodes.addNode st.heap node }
  | .removeNode node => { st with nodes := st.nodes.removeNode st.heap node }
  | .removeNodeById id => { st with nodes := st.nodes.removeNodeById st.heap id }
  | .removeNodeByName name => { st with nodes := st.nodes.removeNodeByName st.heap name }
  | .getSortedNodes rule => { st with nodes := (st.nodes.getSortedNodes cfg st.heap rule).1 }
  | .getNodeByRandom draw rule =>
    { st with nodes := (st.nodes.getNodeByRandom cfg st.heap draw rule).1 }
  | .getNodeByRoundRobin rule =>
    { st with nodes := (st.nodes.getNodeByRoundRobin cfg st.heap rule).1 }
  | .lowerBound outputSize key rule mode =>
    { st with nodes :=
      (st.nodes.lowerBoundNodeHashByConsistentHash cfg st.heap outputSize key rule mode).1 }

/-- `copy_from` on a live node keeps its id and its name. -/
def KeepsKeys (st : DiscoveryState) : DiscoveryOp → Prop
  | .copyFromAndAdd node input _ _ => st.nodes.Live node →
    input.id = (st.heap node).id ∧ input.name = (st.heap node).name
  | _ => True

instance (st : DiscoveryState) : ∀ op, Decidable (KeepsKeys st op)
  | .copyFromAndAdd node input _ _ => inferInstanceAs (Decidable (st.nodes.Live node →
      input.id = (st.heap node).id ∧ input.name = (st.heap node).name))
  | .addNode _ | .removeNode _ | .removeNodeById _ | .removeNodeByName _ | .getSortedNodes _
  | .getNodeByRandom _ _ | .getNodeByRoundRobin _ | .lowerBound _ _ _ _ =>
    inferInstanceAs (Decidable True)

/-- The call does not add a node without metadata past a cached index that should take it. -/
def TestsMetadata (cfg : HashConfig) (st : DiscoveryState) : DiscoveryOp → Prop
  | .copyFromAndAdd node input version contextAddr =>
    ¬ st.nodes.MissesMetadata (Function.update st.heap node
      ((st.heap node).copyFrom cfg input version contextAddr)) node
  | .addNode node => ¬ st.nodes.MissesMetadata st.heap node
  | _ => True

instance (cfg : HashConfig) (st : DiscoveryState) : ∀ op, Decidable (TestsMetadata cfg st op)
  | .copyFromAndAdd _ _ _ _ | .addNode _ => inferInstanceAs (Decidable (¬ _))
  | .removeNode _ | .removeNodeById _ | .removeNodeByName _ | .getSortedNodes _
  | .getNodeByRandom _ _ | .getNodeByRoundRobin _ | .lowerBound _ _ _ _ =>
    inferInstanceAs (Decidable True)

/-- The invariant of the two maps and the shape of the caches. -/
structure WellFormed (st : DiscoveryState) : Prop where
  index : IndexInv st.heap st.nodes
  shape : st.nodes.CacheShape

/-- What a call preserves: the invariants, and the currency of the indexes if it may. -/
structure StepKeeps (cfg : HashConfig) (heap heap' : NodeHeap) (s s' : EtcdDiscoverySet)
    (ok : Prop) : Prop where
  index : IndexInv heap' s'
  shape : s'.CacheShape
  coherent : s.Coherent cfg heap → (s'.Coherent cfg heap' ↔ ok)

theorem StepKeeps.congr {cfg : HashConfig} {heap heap' : NodeHeap} {s s' : EtcdDiscoverySet}
    {ok ok' : Prop} (h : StepKeeps cfg heap heap' s s' ok) (hok : ok ↔ ok') :
    StepKeeps cfg heap heap' s s' ok' :=
  ⟨h.index, h.shape, fun hc => (h.coherent hc).trans hok⟩

section Steps

variable {cfg : HashConfig} {heap : NodeHeap} {s : EtcdDiscoverySet} {rule : Option AtappMetadata}

/-- A query that refreshes the index it uses and changes nothing else of it. -/
theorem stepKeeps_query {α : Type} {f : IndexCacheType → IndexCacheType × α} (h : IndexInv heap s)
    (hs : s.CacheShape) (hcur : ∀ c, EtcdDiscoverySet.Current cfg heap s rule c →
      EtcdDiscoverySet.Current cfg heap s rule (f c).1)
    (hshape : ∀ c, EtcdDiscoverySet.Shaped c → EtcdDiscoverySet.Shaped (f c).1) :
    StepKeeps cfg heap heap s (s.withIndexCache rule f).1 True where
  index := h.of_maps (by simp) (by simp)
  shape := hs.withIndexCache hshape
  coherent := fun hc => ⟨fun _ => trivial, fun _ => hc.withIndexCache hcur⟩

theorem stepKeeps_removeNode (h : IndexInv heap s) (hs : s.CacheShape) (node : NodePtr) :
    StepKeeps cfg heap heap s (s.removeNode heap node) True where
  index := h.removeNode node
  shape := hs.removeNode node
  coherent := fun hc => ⟨fun _ => trivial, fun _ => hc.removeNode h node⟩

theorem stepKeeps_refl (h : IndexInv heap s) (hs : s.CacheShape) :
    StepKeeps cfg heap heap s s True where
  index := h
  shape := hs
  coherent := fun hc => ⟨fun _ => trivial, fun _ => hc⟩

theorem stepKeeps_addNode {heap' : NodeHeap} {node : NodePtr} (h : IndexInv heap s)
    (h' : IndexInv heap' s) (hs : s.CacheShape) (hsame : ∀ p, p ≠ node → heap' p = heap p) :
    StepKeeps cfg heap heap' s (s.addNode heap' node) (¬ s.MissesMetadata heap' node) where
  index := h'.addNode node
  shape := hs.addNode node
  coherent := fun hc => EtcdDiscoverySet.coherent_addNode_iff hc h h' hsame

end Steps

/-- A query brings the index it uses up to date, for its nodes or for one of its rings, and may move
    the round robin position. -/
def Refreshes (cfg : HashConfig) (heap : NodeHeap) (s : EtcdDiscoverySet)
    (rule : Option AtappMetadata) (c d : IndexCacheType) : Prop :=
  ∃ position c', (c' = s.refreshNodes cfg heap rule c ∨
      ∃ compactMode, c' = s.refreshRing cfg heap compactMode rule c) ∧
    d = { c' with roundRobinIndex := position }

/-- What one call can do: nothing, add a node whose content may have changed, remove a node, or
    bring the index of a rule up to date. -/
theorem step_cases (cfg : HashConfig) {st : DiscoveryState} (h : IndexInv st.heap st.nodes)
    (op : DiscoveryOp) :
    (step cfg st op = st ∧ TestsMetadata cfg st op) ∨
    (∃ node heap', (∀ q, q ≠ node → heap' q = st.heap q) ∧
      (KeepsKeys st op → IndexInv heap' st.nodes) ∧
      (TestsMetadata cfg st op ↔ ¬ st.nodes.MissesMetadata heap' node) ∧
      step cfg st op = { heap := heap', nodes := st.nodes.addNode heap' node }) ∨
    (∃ node, step cfg st op = { st with nodes := st.nodes.removeNode st.heap node } ∧
      TestsMetadata cfg st op) ∨
    (∃ (rule : Option AtappMetadata) (α : Type) (f : IndexCacheType → IndexCacheType × α),
      (∀ c, Refreshes cfg st.heap st.nodes rule c (f c).1) ∧
      step cfg st op = { st with nodes := (st.nodes.withIndexCache rule f).1 } ∧
      TestsMetadata cfg st op) := by
  cases op with
  | copyFromAndAdd node input version contextAddr =>
      refine Or.inr (Or.inl ⟨node, Function.update st.heap node
        ((st.heap node).copyFrom cfg input version contextAddr),
        fun q hq => Function.update_of_ne hq _ _, fun hk => h.congr fun p hp => ?_, Iff.rfl, rfl⟩)
      by_cases hpn : p = node
      · subst hpn
        simpa [EtcdDiscoveryNode.copyFrom] using hk hp
      · simp [Function.update_of_ne hpn]
  | addNode node =>
      exact Or.inr (Or.inl ⟨node, st.heap, fun _ _ => rfl, fun _ => h, Iff.rfl, rfl⟩)
  | removeNode node => exact Or.inr (Or.inr (Or.inl ⟨node, rfl, trivial⟩))
  | removeNodeById id =>
      cases hid : st.nodes.getNodeById id with
      | none =>
          refine Or.inl ⟨?_, trivial⟩
          simp only [EtcdDiscoverySet.getNodeById] at hid
          simp only [step, EtcdDiscoverySet.removeNodeById, hid]
      | some p =>
          refine Or.inr (Or.inr (Or.inl ⟨p, ?_, trivial⟩))
          simp only [step, h.removeNodeById_eq hid]
  | removeNodeByName name =>
      cases hname : st.nodes.getNodeByName name with
      | none =>
          refine Or.inl ⟨?_, trivial⟩
          simp only [EtcdDiscoverySet.getNodeByName] at hname
          simp only [step, EtcdDiscoverySet.removeNodeByName, hname]
      | some p =>
          refine Or.inr (Or.inr (Or.inl ⟨p, ?_, trivial⟩))
          simp only [step, h.removeNodeByName_eq hname]
  | getSortedNodes rule =>
      exact Or.inr (Or.inr (Or.inr ⟨rule, _, _, fun c => ⟨_, _, Or.inl rfl, rfl⟩, rfl, trivial⟩))
  | getNodeByRandom draw rule =>
      exact Or.inr (Or.inr (Or.inr ⟨rule, _, _, fun c => ⟨_, _, Or.inl rfl, rfl⟩, rfl, trivial⟩))
  | getNodeByRoundRobin rule =>
      refine Or.inr (Or.inr (Or.inr ⟨rule, _, _, fun c => ?_, rfl, trivial⟩))
      dsimp only
      split
      · exact ⟨_, _, Or.inl rfl, rfl⟩
      · exact ⟨_, _, Or.inl rfl, rfl⟩
  | lowerBound outputSize key rule mode =>
      by_cases hsize : outputSize = 0
      · refine Or.inl ⟨?_, trivial⟩
        simp only [step, EtcdDiscoverySet.lowerBoundNodeHashByConsistentHash, if_pos hsize]
      · have hst : step cfg st (.lowerBound outputSize key rule mode) =
            { st with nodes := (st.nodes.lowerBoundNodeHashByConsistentHash cfg st.heap outputSize
              key rule mode).1 } := rfl
        rw [EtcdDiscoverySet.lowerBoundNodeHashByConsistentHash, if_neg hsize] at hst
        refine Or.inr (Or.inr (Or.inr ⟨rule, _, _, ?_, hst, trivial⟩))
        exact fun c => ⟨_, _, Or.inr ⟨mode.compact, rfl⟩, rfl⟩

/-- What a refreshed index is, from what the two ways to refresh it give. -/
theorem Refreshes.elim {cfg : HashConfig} {heap : NodeHeap} {s : EtcdDiscoverySet}
    {rule : Option AtappMetadata} {c d : IndexCacheType} {P : IndexCacheType → Prop}
    (hd : Refreshes cfg heap s rule c d) (hnodes : P (s.refreshNodes cfg heap rule c))
    (hring : ∀ compactMode, P (s.refreshRing cfg heap compactMode rule c))
    (hposition : ∀ c position, P c → P { c with roundRobinIndex := position }) : P d := by
  obtain ⟨position, c', rfl | ⟨compactMode, rfl⟩, rfl⟩ := hd
  · exact hposition _ _ hnodes
  · exact hposition _ _ (hring compactMode)

/-- One step: the invariants are kept, and the indexes stay current exactly if the call tests the
    metadata of the node it adds. -/
theorem stepKeeps_step {cfg : HashConfig} {st : DiscoveryState} (hw : WellFormed st)
    {op : DiscoveryOp} (hk : KeepsKeys st op) :
    StepKeeps cfg st.heap (step cfg st op).heap st.nodes (step cfg st op).nodes
      (TestsMetadata cfg st op) := by
  obtain ⟨h, hs⟩ := hw
  rcases step_cases cfg h op with ⟨hst, hok⟩ | ⟨node, heap', hsame, hindex, hok, hst⟩ |
    ⟨node, hst, hok⟩ | ⟨rule, α, f, hf, hst, hok⟩
  · rw [hst]
    exact (stepKeeps_refl h hs).congr (iff_of_true trivial hok)
  · rw [hst]
    exact (stepKeeps_addNode h (hindex hk) hs hsame).congr hok.symm
  · rw [hst]
    exact (stepKeeps_removeNode h hs node).congr (iff_of_true trivial hok)
  · rw [hst]
    refine (stepKeeps_query h hs (fun c hc => Or.inr ?_) (fun c hc => ?_)).congr
      (iff_of_true trivial hok)
    · exact (hf c).elim hc.refreshNodes (fun compactMode => (hc.refreshRing compactMode).1)
        fun _ _ hup => ⟨hup.nodes, hup.ring, hup.refs, hup.compact⟩
    · exact (hf c).elim (EtcdDiscoverySet.shaped_refreshNodes hc)
        (EtcdDiscoverySet.shaped_refreshRing hc)
        fun _ _ hsh hnil => ⟨hnil, (hsh hnil).ring, (hsh hnil).compact, (hsh hnil).refs⟩

/-- In a state with the invariants, all queries are exact exactly if all indexes are current. -/
theorem queriesExact_iff_coherent {cfg : HashConfig} {st : DiscoveryState} (hw : WellFormed st) :
    (∀ rule, st.nodes.QueriesExact cfg st.heap rule) ↔ st.nodes.Coherent cfg st.heap :=
  ⟨EtcdDiscoverySet.coherent_of_queriesExact hw.shape, fun hc => hc.queriesExact hw.index⟩

/-- The set without nodes and without caches has the invariants, over any heap. -/
theorem wellFormed_empty (heap : NodeHeap) : WellFormed { heap := heap } where
  index := IndexInv.empty heap
  shape := ⟨EtcdDiscoverySet.cleared_empty.shaped, by simp, by simp⟩

theorem coherent_empty (cfg : HashConfig) (heap : NodeHeap) :
    EtcdDiscoverySet.Coherent cfg heap {} :=
  ⟨Or.inl EtcdDiscoverySet.cleared_empty, by simp⟩

/-- Every state of a run that keeps the keys of live nodes has the invariants. -/
theorem wellFormed_run {cfg : HashConfig} {st : DiscoveryState} {ops : List DiscoveryOp}
    (hw : WellFormed st) (hkeys : Run.StepsMeet (step cfg) KeepsKeys st ops) :
    WellFormed (Run.run (step cfg) st ops) :=
  Run.invariant (step cfg)
    (fun _ _ hw hk => ⟨(stepKeeps_step hw hk).index, (stepKeeps_step hw hk).shape⟩) hw hkeys

/-- The indexes stay current in a run that also tests the metadata of the nodes it adds. -/
theorem coherent_run {cfg : HashConfig} {st : DiscoveryState} {ops : List DiscoveryOp}
    (hw : WellFormed st) (hc : st.nodes.Coherent cfg st.heap)
    (hmeet : Run.StepsMeet (step cfg) (fun st op => KeepsKeys st op ∧ TestsMetadata cfg st op)
      st ops) :
    (Run.run (step cfg) st ops).nodes.Coherent cfg (Run.run (step cfg) st ops).heap := by
  refine (Run.invariant (step cfg)
    (fun st op (h : WellFormed st ∧ st.nodes.Coherent cfg st.heap) hm => ?_) ⟨hw, hc⟩ hmeet).2
  have hkeeps := @stepKeeps_step cfg st h.1 op hm.1
  exact ⟨⟨hkeeps.index, hkeeps.shape⟩, (hkeeps.coherent h.2).2 hm.2⟩

/-- **Coherence of the caches.** In a run of changes and queries from the empty set in which
    `copy_from` keeps the keys of live nodes, every query on every state passed through answers
    exactly from the current nodes if and only if no call adds a node without metadata past a
    cached index that takes it by the default metadata. -/
theorem always_queriesExact_iff (cfg : HashConfig) (heap : NodeHeap) (ops : List DiscoveryOp)
    (hkeys : Run.StepsMeet (step cfg) KeepsKeys { heap := heap } ops) :
    Run.Always (step cfg) (fun st => ∀ rule, st.nodes.QueriesExact cfg st.heap rule)
        { heap := heap } ops ↔
      Run.StepsMeet (step cfg) (TestsMetadata cfg) { heap := heap } ops := by
  have hstep : ∀ st op, WellFormed st → KeepsKeys st op → WellFormed (step cfg st op) :=
    fun st op hw hk => ⟨(stepKeeps_step hw hk).index, (stepKeeps_step hw hk).shape⟩
  refine Run.always_iff_stepsMeet (step cfg) (fun st op hw _ hk _ => hstep st op hw hk) ?_
    (wellFormed_empty heap) ?_ hkeys
  · intro st op hw hq hk
    rw [queriesExact_iff_coherent (hstep st op hw hk)]
    exact (stepKeeps_step hw hk).coherent ((queriesExact_iff_coherent hw).1 hq)
  · exact (queriesExact_iff_coherent (wellFormed_empty heap)).2 (coherent_empty cfg heap)

/-! ## A stale index -/

/-- A hash function for examples: the seed. -/
def seedConfig : HashConfig where
  murmurHash3X64128 := fun _ seed => (seed, 0)
  hashMagicNumber := 0

/-- A rule whose only label has an empty value. It accepts every node. -/
def emptyLabelRule : AtappMetadata where
  labels := { entries := [([107], [])] }

/-- Two nodes without metadata are added, with a query in between. -/
def staleOps : List DiscoveryOp :=
  [.copyFromAndAdd 1 { id := 1, name := [97] } {} 0, .getSortedNodes (some emptyLabelRule),
    .copyFromAndAdd 2 { id := 2, name := [98] } {} 0]

/-- After `staleOps` the second node is live and accepted by the rule, and the query still answers
    with the first node only. -/
theorem query_stale_after_add :
    Run.StepsMeet (step seedConfig) KeepsKeys {} staleOps ∧
      ¬ Run.Always (step seedConfig)
        (fun st => ∀ rule, st.nodes.QueriesExact seedConfig st.heap rule) {} staleOps := by
  refine ⟨by decide +kernel, fun h => ?_⟩
  have hq := h.last (step seedConfig) (some emptyLabelRule)
  have hmem := (hq.exact.mem 2).2 (by decide +kernel)
  rw [← hq.sortedNodes] at hmem
  revert hmem
  decide +kernel

/-- With metadata on the added nodes the same run stays coherent. -/
theorem always_queriesExact_of_metadata :
    Run.Always (step seedConfig)
      (fun st => ∀ rule, st.nodes.QueriesExact seedConfig st.heap rule) {}
      [.copyFromAndAdd 1 { id := 1, name := [97] } {} 0, .getSortedNodes (some emptyLabelRule),
        .copyFromAndAdd 2 { id := 2, name := [98], metadata := some {} } {} 0] :=
  (always_queriesExact_iff seedConfig (fun _ => {}) _ (by decide +kernel)).2 (by decide +kernel)

end DiscoveryState

end LibAtapp
