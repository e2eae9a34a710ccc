import LibAtapp.Etcdcli.ConsistentHash
import LibAtapp.Library.Rotation

set_option autoImplicit false

/-! # Round robin

`get_node_by_round_robin` goes through the sorted nodes of a rule with a position that is kept in
the index cached for the rule. A rebuild of the index starts over at the first node, and `add_node`
of a node that the rule accepts drops the index, also if it leaves the nodes of the rule as they
are. All other calls keep the rotation going. -/

namespace LibAtapp

/-! ## Rules with one index -/

theorem MetadataIndexType.find_assign_of_ne (idx : MetadataIndexType) {m m' : AtappMetadata}
    (h : AtappMetadata.metadataEqual m' m = false) (c : IndexCacheType) :
    (idx.assign m' c).find m = idx.find m := by
  simp only [find, assign, assignEntries]
  split
  · rw [List.find?_cons_of_neg (by simp [h])]
  · rw [List.find?_map]
    have hkeys : (fun e : AtappMetadata × IndexCacheType => AtappMetadata.metadataEqual e.1 m) ∘
        (fun e => if AtappMetadata.metadataEqual e.1 m' then (e.1, c) else e) =
        fun e => AtappMetadata.metadataEqual e.1 m := by
      funext e
      rw [Function.comp_apply]
      split <;> rfl
    rw [hkeys]
    cases hfind : idx.entries.find? (fun e => AtappMetadata.metadataEqual e.1 m) with
    | none => rfl
    | some e =>
      have hem := (find_some hfind).2
      have hne : ¬ AtappMetadata.metadataEqual e.1 m' = true := by
        intro hem'
        have := AtappMetadata.metadataEqual_trans (AtappMetadata.metadataEqual_symm hem') hem
        simp [h] at this
      rw [Option.map_some, if_neg hne]

namespace EtcdDiscoverySet

variable {cfg : HashConfig} {heap : NodeHeap} {s : EtcdDiscoverySet}
  {rule rule' : Option AtappMetadata} {c : IndexCacheType}

/-- Two rules that share a cached index: both without conditions, or equal. -/
def sameRule (rule rule' : Option AtappMetadata) : Bool :=
  match rule.filter (fun m => !m.isEmpty), rule'.filter (fun m => !m.isEmpty) with
  | none, none => true
  | some m, some m' => AtappMetadata.metadataEqual m' m
  | _, _ => false

theorem cachedIndex_of_sameRule (h : sameRule rule rule' = true) :
    s.cachedIndex rule' = s.cachedIndex rule := by
  unfold sameRule at h
  unfold cachedIndex
  cases hr : rule.filter (fun m => !m.isEmpty) with
  | none => cases hr' : rule'.filter (fun m => !m.isEmpty) with
    | none => rfl
    | some m' => simp [hr, hr'] at h
  | some m => cases hr' : rule'.filter (fun m => !m.isEmpty) with
    | none => simp [hr, hr'] at h
    | some m' =>
      rw [hr, hr'] at h
      simp only [s.metadataIndex.find_congr h]

theorem matchesRule_of_filter_none (h : rule.filter (fun m => !m.isEmpty) = none) (p : NodePtr) :
    matchesRule heap rule p = true := by
  cases rule with
  | none => rfl
  | some m =>
    have hm : m.isEmpty = true := by simpa [Option.filter] using h
    rw [matchesRule_of_isEmpty hm]
    rfl

theorem matchesRule_of_sameRule (h : sameRule rule rule' = true) (p : NodePtr) :
    matchesRule heap rule p = matchesRule heap rule' p := by
  unfold sameRule at h
  cases hr : rule.filter (fun m => !m.isEmpty) with
  | none => cases hr' : rule'.filter (fun m => !m.isEmpty) with
    | none => rw [matchesRule_of_filter_none hr, matchesRule_of_filter_none hr']
    | some m' => simp [hr, hr'] at h
  | some m => cases hr' : rule'.filter (fun m => !m.isEmpty) with
    | none => simp [hr, hr'] at h
    | some m' =>
      rw [hr, hr'] at h
      obtain rfl := (Option.filter_eq_some_iff.1 hr).1
      obtain rfl := (Option.filter_eq_some_iff.1 hr').1
      exact (AtappMetadata.filter_congr h _).symm

/-- A query of another rule leaves the index of a rule. -/
theorem cachedIndex_withIndexCache_of_ne {α : Type} {f : IndexCacheType → IndexCacheType × α}
    (h : sameRule rule rule' = false) :
    (s.withIndexCache rule' f).1.cachedIndex rule = s.cachedIndex rule := by
  unfold sameRule at h
  simp only [withIndexCache, setCachedIndex, cachedIndex]
  cases hr : rule.filter (fun m => !m.isEmpty) with
  | none => cases hr' : rule'.filter (fun m => !m.isEmpty) with
    | none => simp [hr, hr'] at h
    | some m' => rfl
  | some m => cases hr' : rule'.filter (fun m => !m.isEmpty) with
    | none => rfl
    | some m' =>
      rw [hr, hr'] at h
      simp only [MetadataIndexType.find_assign_of_ne _ h]

/-- The index of a rule with conditions stays if its entry does and no entry is added. -/
theorem cachedIndex_of_entries {s' : EtcdDiscoverySet} {m : AtappMetadata}
    (hrule : rule.filter (fun m => !m.isEmpty) = some m)
    (hsub : ∀ e ∈ s'.metadataIndex.entries, e ∈ s.metadataIndex.entries)
    (hkeep : ∀ e ∈ s.metadataIndex.entries, AtappMetadata.metadataEqual e.1 m = true →
      e ∈ s'.metadataIndex.entries) : s'.cachedIndex rule = s.cachedIndex rule := by
  have hfind : s'.metadataIndex.find m = s.metadataIndex.find m := by
    cases h : s.metadataIndex.find m with
    | some e =>
      obtain ⟨he, hem⟩ := MetadataIndexType.find_some h
      exact MetadataIndexType.find_of_mem (hkeep e he hem) hem
    | none =>
      cases h' : s'.metadataIndex.find m with
      | none => rfl
      | some e =>
        obtain ⟨he, hem⟩ := MetadataIndexType.find_some h'
        rw [MetadataIndexType.find_of_mem (hsub e he) hem] at h
        exact absurd h (by simp)
  simp only [cachedIndex, hrule, hfind]

/-! ## The position of the next node -/

/-- The position from which round robin goes on: a rebuild of an empty index starts over. -/
def turn (c : IndexCacheType) : Nat :=
  if c.roundRobinCache = [] then 0 else c.roundRobinIndex

/-- The nodes round robin goes through: those of the rule, in the order of a rebuild. -/
def rounds (cfg : HashConfig) (heap : NodeHeap) (s : EtcdDiscoverySet)
    (rule : Option AtappMetadata) : List NodePtr :=
  (s.freshIndex cfg heap rule).roundRobinCache

theorem rounds_perm (cfg : HashConfig) (heap : NodeHeap) (s : EtcdDiscoverySet)
    (rule : Option AtappMetadata) :
    (rounds cfg heap s rule).Perm (s.ruleNodes heap rule) := by
  rw [rounds, freshIndex_roundRobinCache]
  exact SortedRing.sortBy_perm _ _

theorem rounds_of_sameRule (h : sameRule rule rule' = true) :
    rounds cfg heap s rule' = rounds cfg heap s rule := by
  simp only [rounds, freshIndex_roundRobinCache, ruleNodes, namedNodes, unnamedNodes,
    matchesRule_of_sameRule h]

/-- An index that is up to date holds the nodes and, if there are any, their points. -/
theorem UpToDate.ring_ne_nil (hup : UpToDate cfg heap s rule c)
    (hsome : rounds cfg heap s rule ≠ []) : c.normalHashingRing ≠ [] := by
  intro hnil
  have hnodes := (hup.cleared_of_ring hnil).nodes
  rw [hup.nodes] at hnodes
  exact hsome hnodes

/-- A set with nodes for a rule is not empty. -/
theorem not_isEmpty_of_rounds (hsome : rounds cfg heap s rule ≠ []) : s.isEmpty = false := by
  cases hs : s.isEmpty with
  | false => rfl
  | true =>
    rw [rounds, freshIndex_roundRobinCache, ruleNodes_of_isEmpty hs rule] at hsome
    exact absurd rfl hsome

/-- A rebuild of an index without ring sets the position back. -/
theorem roundRobinIndex_rebuildCache (hsome : rounds cfg heap s rule ≠ [])
    (hring : c.normalHashingRing = []) :
    (s.rebuildCache cfg heap c rule).roundRobinIndex = 0 := by
  rw [rebuildCache_of_ring_nil cfg hring (not_isEmpty_of_rounds hsome)]

/-- Bringing an index up to date for its nodes or one of its rings leaves the position from which
    round robin goes on. -/
theorem roundRobinIndex_refresh (hsome : rounds cfg heap s rule ≠ [])
    (hcur : Current cfg heap s rule c) :
    (s.refreshNodes cfg heap rule c).roundRobinIndex = turn c ∧
      ∀ compactMode, (s.refreshRing cfg heap compactMode rule c).roundRobinIndex = turn c := by
  rcases hcur with hcl | hup
  · have hrebuild := roundRobinIndex_rebuildCache hsome hcl.ring
    have hturn : turn c = 0 := if_pos hcl.nodes
    refine ⟨?_, fun compactMode => ?_⟩
    · simp [refreshNodes, hcl.nodes, hturn, hrebuild]
    · cases compactMode with
      | false => simp [refreshRing, hcl.ring, hturn, hrebuild]
      | true => simp [refreshRing, rebuildCompactCache, hcl.compact, not_isEmpty_of_rounds hsome,
          hturn, hrebuild]
  · have hnodes : c.roundRobinCache ≠ [] := by
      rw [hup.nodes]
      exact hsome
    have hring := hup.ring_ne_nil hsome
    have hturn : turn c = c.roundRobinIndex := if_neg hnodes
    have hrebuild : s.rebuildCache cfg heap c rule = c := by simp [rebuildCache, hring]
    refine ⟨by simp [refreshNodes, hnodes, hturn], fun compactMode => ?_⟩
    cases compactMode with
    | false => simp [refreshRing, hring, hturn]
    | true =>
      simp only [refreshRing, if_true, hturn]
      split
      · simp only [rebuildCompactCache, hrebuild]
        split
        · rfl
        · split <;> rfl
      · rfl

/-- The position in an index that is up to date. -/
theorem UpToDate.turn_eq (hup : UpToDate cfg heap s rule c)
    (hsome : rounds cfg heap s rule ≠ []) : turn c = c.roundRobinIndex := by
  refine if_neg ?_
  rw [hup.nodes]
  exact hsome

end EtcdDiscoverySet

namespace DiscoveryState

open EtcdDiscoverySet Rotation

variable {cfg : HashConfig} {rule : Option AtappMetadata} {st st' : DiscoveryState}

/-! ## Runs -/

/-- The call leaves the nodes that match the rule as they are. -/
def KeepsNodes (cfg : HashConfig) (rule : Option AtappMetadata) (st : DiscoveryState)
    (op : DiscoveryOp) : Prop :=
  ((step cfg st op).nodes.ruleNodes (step cfg st op).heap rule).Perm (st.nodes.ruleNodes st.heap rule)

instance (cfg : HashConfig) (rule : Option AtappMetadata) (st : DiscoveryState) (op : DiscoveryOp) :
    Decidable (KeepsNodes cfg rule st op) := inferInstanceAs (Decidable (List.Perm _ _))

/-- The call adds a node that the rule accepts. -/
def AddsMatching (cfg : HashConfig) (rule : Option AtappMetadata) (st : DiscoveryState) :
    DiscoveryOp → Bool
  | .copyFromAndAdd node input version contextAddr =>
    matchesRule (step cfg st (.copyFromAndAdd node input version contextAddr)).heap rule node
  | .addNode node => matchesRule st.heap rule node
  | _ => false

/-- What a call of `get_node_by_round_robin` for the rule gives; nothing for other calls. -/
def roundRobinResult (cfg : HashConfig) (rule : Option AtappMetadata) (st : DiscoveryState) :
    DiscoveryOp → List (Option NodePtr)
  | .getNodeByRoundRobin rule' =>
    if sameRule rule rule' then [(st.nodes.getNodeByRoundRobin cfg st.heap rule').2] else []
  | _ => []

/-- The round robin results for the rule in a run. -/
def roundRobinResults (cfg : HashConfig) (rule : Option AtappMetadata) :
    DiscoveryState → List DiscoveryOp → List (Option NodePtr)
  | _, [] => []
  | st, op :: ops => roundRobinResult cfg rule st op ++ roundRobinResults cfg rule (step cfg st op) ops

/-- Round robin is fair: it gives null only if there are no nodes, and every `m` consecutive results
    hold each of the `n` nodes `m / n` times, rounded down or up. -/
structure Fair (nodes : List NodePtr) (results : List (Option NodePtr)) : Prop where
  null : ∀ result ∈ results, result = none ↔ nodes = []
  count : ∀ window, window <:+: results → ∀ p ∈ nodes,
    window.count (some p) = window.length / nodes.length ∨
      window.count (some p) = (window.length + nodes.length - 1) / nodes.length

/-! ## What a step does to the rotation -/

/-- The step keeps the nodes of the rule and their order, its results read them from the position
    on, and the position moves on by the results. -/
structure Turns (cfg : HashConfig) (rule : Option AtappMetadata) (st st' : DiscoveryState)
    (results : List (Option NodePtr)) : Prop where
  nodes : rounds cfg st'.heap st'.nodes rule = rounds cfg st.heap st.nodes rule
  current : Current cfg st'.heap st'.nodes rule (st'.nodes.cachedIndex rule)
  reads : results = rotation (rounds cfg st.heap st.nodes rule) (turn (st.nodes.cachedIndex rule))
    results.length
  position : rounds cfg st.heap st.nodes rule ≠ [] →
    turn (st'.nodes.cachedIndex rule) % (rounds cfg st.heap st.nodes rule).length =
      (turn (st.nodes.cachedIndex rule) + results.length) %
        (rounds cfg st.heap st.nodes rule).length

/-- A change that leaves the nodes of the rule, their content and their index. -/
theorem turns_of_kept (h : IndexInv st.heap st.nodes) (h' : IndexInv st'.heap st'.nodes)
    (hcur : Current cfg st.heap st.nodes rule (st.nodes.cachedIndex rule))
    (hkeep : (st'.nodes.ruleNodes st'.heap rule).Perm (st.nodes.ruleNodes st.heap rule))
    (hinfo : ∀ p ∈ st.nodes.ruleNodes st.heap rule, NodeHeap.SameInfo st.heap st'.heap p)
    (hindex : st'.nodes.cachedIndex rule = st.nodes.cachedIndex rule) :
    Turns cfg rule st st' [] where
  nodes := (freshIndex_congr cfg h h' (fun _ => hkeep.mem_iff) hinfo).1
  current := by
    rw [hindex]
    exact hcur.imp_right fun hup => hup.congr h h' (fun _ => hkeep.mem_iff) hinfo
  reads := rfl
  position := fun _ => by rw [hindex]; rfl

/-- A query leaves the nodes of every rule. -/
theorem rounds_withIndexCache {α : Type} (rule' : Option AtappMetadata)
    (f : IndexCacheType → IndexCacheType × α) :
    rounds cfg st.heap (st.nodes.withIndexCache rule' f).1 rule =
      rounds cfg st.heap st.nodes rule := by
  simp only [rounds, freshIndex_eq, rulePoints, ruleNodes, namedNodes, unnamedNodes,
    withIndexCache_nodeById, withIndexCache_nodeByName]

/-- A query that brings the index of its rule up to date, and moves the position by its results. -/
theorem turns_query {α : Type} {rule' : Option AtappMetadata}
    {f : IndexCacheType → IndexCacheType × α} {results : List (Option NodePtr)}
    (hsame : sameRule rule rule' = true)
    (hup : UpToDate cfg st.heap st.nodes rule' (f (st.nodes.cachedIndex rule')).1)
    (hresults : results = rotation (rounds cfg st.heap st.nodes rule')
      (turn (st.nodes.cachedIndex rule')) results.length)
    (hposition : rounds cfg st.heap st.nodes rule' ≠ [] →
      (f (st.nodes.cachedIndex rule')).1.roundRobinIndex %
          (rounds cfg st.heap st.nodes rule').length =
        (turn (st.nodes.cachedIndex rule') + results.length) %
          (rounds cfg st.heap st.nodes rule').length) :
    Turns cfg rule st { st with nodes := (st.nodes.withIndexCache rule' f).1 } results := by
  have hindex : (st.nodes.withIndexCache rule' f).1.cachedIndex rule =
      (f (st.nodes.cachedIndex rule')).1 := by
    rw [← cachedIndex_of_sameRule hsame, cachedIndex_withIndexCache]
  rw [rounds_of_sameRule hsame, cachedIndex_of_sameRule hsame] at hresults hposition
  refine ⟨rounds_withIndexCache rule' f, ?_, hresults, fun hsome => ?_⟩
  · show Current cfg st.heap (st.nodes.withIndexCache rule' f).1 rule
      ((st.nodes.withIndexCache rule' f).1.cachedIndex rule)
    rw [hindex]
    exact Current.withIndexCache f
      (Current.rule_congr (fun p => (matchesRule_of_sameRule hsame p).symm) (Or.inr hup))
  · show turn ((st.nodes.withIndexCache rule' f).1.cachedIndex rule) % _ = _
    rw [hindex, hup.turn_eq (by rwa [rounds_of_sameRule hsame]), cachedIndex_of_sameRule hsame]
    exact hposition hsome

/-- A query of another rule. -/
theorem turns_query_of_ne {α : Type} {rule' : Option AtappMetadata}
    (f : IndexCacheType → IndexCacheType × α)
    (hcur : Current cfg st.heap st.nodes rule (st.nodes.cachedIndex rule))
    (hne : sameRule rule rule' = false) :
    Turns cfg rule st { st with nodes := (st.nodes.withIndexCache rule' f).1 } [] := by
  have hindex : (st.nodes.withIndexCache rule' f).1.cachedIndex rule = st.nodes.cachedIndex rule :=
    cachedIndex_withIndexCache_of_ne hne
  refine ⟨rounds_withIndexCache rule' f, ?_, rfl, fun _ => ?_⟩
  · show Current cfg st.heap (st.nodes.withIndexCache rule' f).1 rule
      ((st.nodes.withIndexCache rule' f).1.cachedIndex rule)
    rw [hindex]
    exact Current.withIndexCache f hcur
  · show turn ((st.nodes.withIndexCache rule' f).1.cachedIndex rule) % _ = _
    rw [hindex]
    rfl

/-! ## Changes of other nodes -/

section Changes

variable {heap heap' : NodeHeap} {s : EtcdDiscoverySet} {node : NodePtr} {m : AtappMetadata}
  {e : AtappMetadata × IndexCacheType}

/-- A current entry of a rule refers to nodes of the rule only. -/
theorem mem_ruleNodes_of_refs (hcur : Current cfg heap s rule (s.cachedIndex rule))
    (hrule : rule.filter (fun m => !m.isEmpty) = some m) (he : e ∈ s.metadataIndex.entries)
    (hem : AtappMetadata.metadataEqual e.1 m = true) {p : NodePtr}
    (hp : p ∈ e.2.referenceCache) : p ∈ s.ruleNodes heap rule := by
  have hindex : s.cachedIndex rule = e.2 := by
    simp [cachedIndex, hrule, MetadataIndexType.find_of_mem he hem]
  rw [hindex] at hcur
  rcases hcur with hcl | hup
  · rw [hcl.refs] at hp
    exact absurd hp List.not_mem_nil
  · rwa [hup.refs, freshIndex_referenceCache] at hp

/-- The entry of a rule does not match the metadata of a node that the rule rejects. -/
theorem filter_of_rejected (hrule : rule.filter (fun m => !m.isEmpty) = some m)
    (hem : AtappMetadata.metadataEqual e.1 m = true) (hreject : matchesRule heap rule node = false)
    {md : AtappMetadata} (hmd : (heap node).nodeInfo.metadata = some md) :
    AtappMetadata.filter e.1 md = false := by
  obtain rfl := (Option.filter_eq_some_iff.1 hrule).1
  rw [AtappMetadata.filter_congr hem]
  simpa [matchesRule, AtappDiscovery.metadataOrDefault, hmd] using hreject

theorem cachedIndex_removeNode (h : IndexInv heap s)
    (hcur : Current cfg heap s rule (s.cachedIndex rule)) (hlive : s.Live node)
    (hkeep : ((s.removeNode heap node).ruleNodes heap rule).Perm (s.ruleNodes heap rule)) :
    (s.removeNode heap node).cachedIndex rule = s.cachedIndex rule := by
  -- the rule does not accept the removed node
  have hnot : node ∉ s.ruleNodes heap rule := by
    intro hmem
    have hgone := ((mem_ruleNodes (h.removeNode node) rule node).1 (hkeep.mem_iff.2 hmem)).1
    exact ((h.live_removeNode node node).1 hgone).2 rfl
  have hreject : matchesRule heap rule node = false := by
    by_contra hm
    exact hnot ((mem_ruleNodes h rule node).2 ⟨hlive, by simpa using hm⟩)
  cases hrule : rule.filter (fun m => !m.isEmpty) with
  | none => simp [matchesRule_of_filter_none hrule] at hreject
  | some m =>
    obtain ⟨-, hrules⟩ := removeNode_caches h hlive
    refine cachedIndex_of_entries hrule (fun e he => ((hrules e).1 he).1) fun e he hem => ?_
    refine (hrules e).2 ⟨he, fun hp => ?_, fun md => filter_of_rejected hrule hem hreject⟩
    exact hnot (mem_ruleNodes_of_refs hcur hrule he hem hp)

/-- An added node that the rule rejects was none of its nodes if these stay. -/
theorem not_mem_of_addNode (h' : IndexInv heap' s)
    (hreject : matchesRule heap' rule node = false)
    (hkeep : ((s.addNode heap' node).ruleNodes heap' rule).Perm (s.ruleNodes heap rule)) :
    node ∉ s.ruleNodes heap rule ∧ ∀ q, s.Displaces heap' node q → q ∉ s.ruleNodes heap rule := by
  constructor
  · intro hmem
    have hm := ((mem_ruleNodes (h'.addNode node) rule node).1 (hkeep.mem_iff.2 hmem)).2
    simp [hreject] at hm
  · intro q hq hmem
    have hmem' := (mem_ruleNodes_addNode h' rule q).1 (hkeep.mem_iff.2 hmem)
    rcases hmem' with ⟨-, -, hm⟩ | ⟨-, -, hnot⟩
    · simp [hreject] at hm
    · exact hnot hq

theorem cachedIndex_addNode (h' : IndexInv heap' s)
    (hcur : Current cfg heap s rule (s.cachedIndex rule))
    (hreject : matchesRule heap' rule node = false)
    (hkeep : ((s.addNode heap' node).ruleNodes heap' rule).Perm (s.ruleNodes heap rule)) :
    (s.addNode heap' node).cachedIndex rule = s.cachedIndex rule := by
  obtain ⟨hnode, hdisplaced⟩ := not_mem_of_addNode h' hreject hkeep
  cases hrule : rule.filter (fun m => !m.isEmpty) with
  | none => simp [matchesRule_of_filter_none hrule] at hreject
  | some m =>
    obtain ⟨-, hrules⟩ := addNode_caches heap' s node
    refine cachedIndex_of_entries hrule (fun e he => ((hrules e).1 he).1) fun e he hem => ?_
    have hrefs := fun p => mem_ruleNodes_of_refs (p := p) hcur hrule he hem
    exact (hrules e).2 ⟨he, ⟨fun q hq hp => hdisplaced q hq (hrefs q hp),
      fun _ hp => hnode (hrefs node hp)⟩, fun md => filter_of_rejected hrule hem hreject⟩

end Changes

/-- A removal that leaves the nodes of the rule. -/
theorem turns_removeNode (h : IndexInv st.heap st.nodes)
    (hcur : Current cfg st.heap st.nodes rule (st.nodes.cachedIndex rule)) (node : NodePtr)
    (hkeep : ((st.nodes.removeNode st.heap node).ruleNodes st.heap rule).Perm
      (st.nodes.ruleNodes st.heap rule)) :
    Turns cfg rule st { st with nodes := st.nodes.removeNode st.heap node } [] := by
  by_cases hlive : st.nodes.Live node
  · exact turns_of_kept h (h.removeNode node) hcur hkeep (fun _ _ => ⟨rfl, rfl⟩)
      (cachedIndex_removeNode h hcur hlive hkeep)
  · rw [removeNode_of_not_live hlive]
    exact turns_of_kept h h hcur (List.Perm.refl _) (fun _ _ => ⟨rfl, rfl⟩) rfl

/-- Adding a node that the rule rejects and that leaves the nodes of the rule. -/
theorem turns_addNode {heap' : NodeHeap} {node : NodePtr} (h : IndexInv st.heap st.nodes)
    (h' : IndexInv heap' st.nodes) (hsame : ∀ q, q ≠ node → heap' q = st.heap q)
    (hcur : Current cfg st.heap st.nodes rule (st.nodes.cachedIndex rule))
    (hreject : matchesRule heap' rule node = false)
    (hkeep : ((st.nodes.addNode heap' node).ruleNodes heap' rule).Perm
      (st.nodes.ruleNodes st.heap rule)) :
    Turns cfg rule st { heap := heap', nodes := st.nodes.addNode heap' node } [] := by
  refine turns_of_kept h (h'.addNode node) hcur hkeep (fun p hp => ?_)
    (cachedIndex_addNode h' hcur hreject hkeep)
  have hpn : p ≠ node := by
    rintro rfl
    exact (not_mem_of_addNode h' hreject hkeep).1 hp
  show NodeHeap.SameInfo st.heap heap' p
  rw [NodeHeap.SameInfo, hsame p hpn]
  exact ⟨rfl, rfl⟩

/-! ## Round robin calls -/

/-- A round robin call reads one node and moves the position by one. -/
theorem turns_roundRobin {rule' : Option AtappMetadata}
    (hcur : Current cfg st.heap st.nodes rule (st.nodes.cachedIndex rule))
    (hsame : sameRule rule rule' = true) :
    Turns cfg rule st { st with nodes := (st.nodes.getNodeByRoundRobin cfg st.heap rule').1 }
      [(st.nodes.getNodeByRoundRobin cfg st.heap rule').2] := by
  have hcur' := Current.rule_congr (matchesRule_of_sameRule hsame) hcur
  rw [← cachedIndex_of_sameRule hsame] at hcur'
  have hup := hcur'.refreshNodes
  have hnodes : (st.nodes.refreshNodes cfg st.heap rule' (st.nodes.cachedIndex rule')).roundRobinCache =
      rounds cfg st.heap st.nodes rule' := hup.nodes
  unfold getNodeByRoundRobin
  rw [withIndexCache_snd]
  by_cases hnil : rounds cfg st.heap st.nodes rule' = []
  · refine turns_query hsame ?_ ?_ fun hsome => absurd hnil hsome
    · simpa [hnodes, hnil] using hup
    · simp [hnodes, hnil, Rotation.rotation]
  · have hposition := (roundRobinIndex_refresh hnil hcur').1
    have hpos : 0 < (rounds cfg st.heap st.nodes rule').length := List.length_pos_iff.2 hnil
    -- the position that is read, brought into the range
    have hindex : ∀ n i : Nat, (if n ≤ i then i % n else i) = i % n := by
      intro n i
      split
      · rfl
      · next hlt => exact (Nat.mod_eq_of_lt (Nat.lt_of_not_le hlt)).symm
    refine turns_query hsame ?_ ?_ fun _ => ?_
    · simp only [hnodes, List.isEmpty_iff, hnil, if_false]
      exact ⟨rfl, hup.ring, hup.refs, hup.compact⟩
    · simp only [hnodes, List.isEmpty_iff, hnil, if_false, hindex, hposition]
      rfl
    · simp only [hnodes, List.isEmpty_iff, hnil, if_false, hindex, hposition]
      rw [Nat.mod_add_mod]
      rfl

/-- Every other query keeps the rotation where it is. -/
theorem turns_refresh {α : Type} {rule' : Option AtappMetadata}
    {f : IndexCacheType → IndexCacheType × α}
    (hcur : Current cfg st.heap st.nodes rule (st.nodes.cachedIndex rule))
    (hf : ∀ c, (f c).1 = st.nodes.refreshNodes cfg st.heap rule' c ∨
      ∃ compactMode, (f c).1 = st.nodes.refreshRing cfg st.heap compactMode rule' c) :
    Turns cfg rule st { st with nodes := (st.nodes.withIndexCache rule' f).1 } [] := by
  by_cases hsame : sameRule rule rule' = true
  · have hcur' := Current.rule_congr (matchesRule_of_sameRule hsame) hcur
    rw [← cachedIndex_of_sameRule hsame] at hcur'
    refine turns_query hsame ?_ rfl fun hsome => ?_
    · rcases hf (st.nodes.cachedIndex rule') with heq | ⟨compactMode, heq⟩
      · rw [heq]
        exact hcur'.refreshNodes
      · rw [heq]
        exact (hcur'.refreshRing compactMode).1
    · obtain ⟨hnodes, hring⟩ := roundRobinIndex_refresh hsome hcur'
      rcases hf (st.nodes.cachedIndex rule') with heq | ⟨compactMode, heq⟩
      · rw [heq, hnodes]
        rfl
      · rw [heq, hring]
        rfl
  · exact turns_query_of_ne f hcur (by simpa using hsame)

/-- **One step.** A call that leaves the nodes of the rule as they are and adds no node that the
    rule accepts keeps the rotation going. -/
theorem turns_step (h : IndexInv st.heap st.nodes)
    (hcur : Current cfg st.heap st.nodes rule (st.nodes.cachedIndex rule)) {op : DiscoveryOp}
    (hkeys : KeepsKeys st op) (hkeep : KeepsNodes cfg rule st op)
    (hadds : AddsMatching cfg rule st op = false) :
    Turns cfg rule st (step cfg st op) (roundRobinResult cfg rule st op) := by
  have hstay : Turns cfg rule st st [] :=
    turns_of_kept h h hcur (List.Perm.refl _) (fun _ _ => ⟨rfl, rfl⟩) rfl
  cases op with
  | copyFromAndAdd node input version contextAddr =>
    refine turns_addNode h (h.congr fun p hp => ?_) (fun q hq => Function.update_of_ne hq _ _) hcur
      hadds hkeep
    by_cases hpn : p = node
    · subst hpn
      simpa [EtcdDiscoveryNode.copyFrom] using hkeys hp
    · simp [Function.update_of_ne hpn]
  | addNode node => exact turns_addNode h h (fun _ _ => rfl) hcur hadds hkeep
  | removeNode node => exact turns_removeNode h hcur node hkeep
  | removeNodeById id =>
    cases hid : st.nodes.getNodeById id with
    | none =>
      have hst : step cfg st (.removeNodeById id) = st := by
        simp only [getNodeById] at hid
        simp only [step, removeNodeById, hid]
      rw [hst]
      exact hstay
    | some p =>
      have hst : step cfg st (.removeNodeById id) =
          { st with nodes := st.nodes.removeNode st.heap p } := by
        simp only [step, h.removeNodeById_eq hid]
      rw [KeepsNodes, hst] at hkeep
      rw [hst]
      exact turns_removeNode h hcur p hkeep
  | removeNodeByName name =>
    cases hname : st.nodes.getNodeByName name with
    | none =>
      have hst : step cfg st (.removeNodeByName name) = st := by
        simp only [getNodeByName] at hname
        simp only [step, removeNodeByName, hname]
      rw [hst]
      exact hstay
    | some p =>
      have hst : step cfg st (.removeNodeByName name) =
          { st with nodes := st.nodes.removeNode st.heap p } := by
        simp only [step, h.removeNodeByName_eq hname]
      rw [KeepsNodes, hst] at hkeep
      rw [hst]
      exact turns_removeNode h hcur p hkeep
  | getSortedNodes rule' => exact turns_refresh hcur fun c => Or.inl rfl
  | getNodeByRandom draw rule' => exact turns_refresh hcur fun c => Or.inl rfl
  | getNodeByRoundRobin rule' =>
    by_cases hsame : sameRule rule rule' = true
    · rw [roundRobinResult, if_pos hsame]
      exact turns_roundRobin hcur hsame
    · rw [roundRobinResult, if_neg hsame]
      exact turns_query_of_ne _ hcur (by simpa using hsame)
  | lowerBound outputSize key rule' mode =>
    by_cases hsize : outputSize = 0
    · have hst : step cfg st (.lowerBound outputSize key rule' mode) = st := by
        simp only [step, lowerBoundNodeHashByConsistentHash, if_pos hsize]
      rw [hst]
      exact hstay
    · have hst : step cfg st (.lowerBound outputSize key rule' mode) =
          { st with nodes := (st.nodes.lowerBoundNodeHashByConsistentHash cfg st.heap outputSize
            key rule' mode).1 } := rfl
      rw [lowerBoundNodeHashByConsistentHash, if_neg hsize] at hst
      rw [hst]
      exact turns_refresh hcur fun c => Or.inr ⟨mode.compact, rfl⟩

/-! ## Fairness -/

/-- The calls of a run in which the rotation is not disturbed. -/
def Undisturbed (cfg : HashConfig) (rule : Option AtappMetadata) (st : DiscoveryState)
    (op : DiscoveryOp) : Prop :=
  KeepsKeys st op ∧ KeepsNodes cfg rule st op ∧ AddsMatching cfg rule st op = false

instance (cfg : HashConfig) (rule : Option AtappMetadata) (st : DiscoveryState) (op : DiscoveryOp) :
    Decidable (Undisturbed cfg rule st op) := inferInstanceAs (Decidable (_ ∧ _ ∧ _))

/-- The results of an undisturbed run read the nodes of the rule cyclically. -/
theorem roundRobinResults_eq {ops : List DiscoveryOp} (h : IndexInv st.heap st.nodes)
    (hs : st.nodes.CacheShape)
    (hcur : Current cfg st.heap st.nodes rule (st.nodes.cachedIndex rule))
    (hops : Run.StepsMeet (step cfg) (Undisturbed cfg rule) st ops) :
    roundRobinResults cfg rule st ops = rotation (rounds cfg st.heap st.nodes rule)
      (turn (st.nodes.cachedIndex rule)) (roundRobinResults cfg rule st ops).length := by
  induction ops generalizing st with
  | nil => rfl
  | cons op ops ih =>
    obtain ⟨⟨hkeys, hkeep, hadds⟩, hops⟩ := hops
    have hturns := turns_step h hcur hkeys hkeep hadds
    have hkeeps := @stepKeeps_step cfg st ⟨h, hs⟩ op hkeys
    have hrest := ih hkeeps.index hkeeps.shape hturns.current hops
    rw [hturns.nodes, rotation_congr _ hturns.position] at hrest
    rw [roundRobinResults, List.length_append, rotation_append, ← hturns.reads, ← hrest]

/-- A rotation over the nodes of a rule is fair. -/
theorem fair_rotation {nodes l : List NodePtr} (hperm : l.Perm nodes) (hnodup : nodes.Nodup)
    (c k : Nat) : Fair nodes (rotation l c k) where
  null := by
    intro result hresult
    obtain ⟨i, -, rfl⟩ := List.mem_map.1 hresult
    constructor
    · intro hnone
      by_contra hne
      have hpos : 0 < l.length := by
        rw [hperm.length_eq]
        exact List.length_pos_iff.2 hne
      have hlt : (c + i) % l.length < l.length := Nat.mod_lt _ hpos
      rw [List.getElem?_eq_getElem hlt] at hnone
      exact absurd hnone (by simp)
    · rintro rfl
      rw [List.Perm.eq_nil hperm]
      rfl
  count := by
    intro window hwindow p hp
    obtain ⟨c', hwindow⟩ := rotation_of_infix l hwindow
    have hcount := count_rotation (hperm.nodup_iff.2 hnodup) (hperm.mem_iff.2 hp) c' window.length
    rwa [← hwindow, hperm.length_eq] at hcount

/-- **Round robin is fair** over every run of round robin calls, other queries and changes that
    leave the nodes of the rule as they are, in which no added node is accepted by the rule, if the
    index cached at the start misses no node. -/
theorem roundRobinResults_fair {cfg : HashConfig} {rule : Option AtappMetadata}
    {st : DiscoveryState} {ops : List DiscoveryOp} (h : Indexed cfg st)
    (hcovers : Covers st.heap st.nodes rule)
    (hops : Run.StepsMeet (step cfg) (Undisturbed cfg rule) st ops) :
    Fair (st.nodes.ruleNodes st.heap rule) (roundRobinResults cfg rule st ops) := by
  have hcur := (current_iff_covers h.index (h.caches.cachedIndex rule)).2 hcovers
  rw [roundRobinResults_eq h.index h.shape hcur hops]
  exact fair_rotation (rounds_perm cfg st.heap st.nodes rule) (nodup_ruleNodes h.index rule) _ _

/-! ## Examples -/

/-- The set with two nodes, the first one in group `g` only. -/
def twoNodes : DiscoveryState :=
  Run.run (step bucketConfig) {}
    [.copyFromAndAdd 1 { id := 1, name := [97], metadata := some { group := [103] } } {} 0,
      .copyFromAndAdd 2 { id := 2, name := [98] } {} 0]

theorem indexed_twoNodes : Indexed bucketConfig twoNodes :=
  indexed_run (indexed_empty _ _) (by decide +kernel)

/-- Round robin over the nodes of group `g`, with other queries and a node of no group between. -/
def groupOps : List DiscoveryOp :=
  let rule : Option AtappMetadata := some { group := [103] }
  [.getNodeByRoundRobin rule, .getSortedNodes none,
    .copyFromAndAdd 3 { id := 3, name := [99] } {} 0, .getNodeByRoundRobin rule,
    .removeNodeById 2, .lowerBound 1 { node := none, hashCode := (0, 0) } rule {},
    .getNodeByRoundRobin rule]

theorem roundRobinResults_fair_groupOps :
    Fair (twoNodes.nodes.ruleNodes twoNodes.heap (some { group := [103] }))
      (roundRobinResults bucketConfig (some { group := [103] }) twoNodes groupOps) :=
  roundRobinResults_fair indexed_twoNodes (Or.inl (by decide +kernel)) (by decide +kernel)

/-- The first node is added again, unchanged, between two calls: both give this node. -/
def addedAgainOps : List DiscoveryOp :=
  [.getNodeByRoundRobin none, .addNode 1, .getNodeByRoundRobin none]

theorem not_fair_addedAgainOps :
    Indexed bucketConfig twoNodes ∧ Covers twoNodes.heap twoNodes.nodes none ∧
      Run.StepsMeet (step bucketConfig)
        (fun st op => KeepsKeys st op ∧ KeepsNodes bucketConfig none st op) twoNodes addedAgainOps ∧
      ¬ Fair (twoNodes.nodes.ruleNodes twoNodes.heap none)
        (roundRobinResults bucketConfig none twoNodes addedAgainOps) := by
  refine ⟨indexed_twoNodes, Or.inl (by decide +kernel), by decide +kernel, fun hfair => ?_⟩
  have hcount := hfair.count _ (List.infix_refl _) 1 (by decide +kernel)
  revert hcount
  decide +kernel

end DiscoveryState

end LibAtapp
