import LibAtapp.Library.BinarySearch
import LibAtapp.Library.PrefixRange
import LibAtapp.Etcdcli.ConsistentHash

set_option autoImplicit false

/-! # Bounds over the sorted nodes

`lower_bound_sorted_nodes` and `upper_bound_sorted_nodes` search the nodes of a rule for an id and
a name. The nodes are sorted by their pod index first and the search does not look at it, so the
searches are exact only where the pod indexes follow the order that is searched. -/

namespace LibAtapp

/-- `strncmp(l, r, n) < 0`. -/
def strncmpLt (l r : Bytes) (n : Nat) : Bool := decide ((cString l).take n < (cString r).take n)

/-- Cutting strings at a null byte and at a length keeps their order. -/
theorem take_cString_le (n : Nat) {l r : Bytes} (h : l ≤ r) :
    (cString l).take n ≤ (cString r).take n := by
  have hnil : ∀ t : Bytes, [] ≤ t := fun t => not_lt.1 (List.not_lt_nil t)
  induction n generalizing l r with
  | zero => simp
  | succ n ih =>
    cases l with
    | nil =>
      rw [cString, List.takeWhile_nil, List.take_nil]
      exact hnil _
    | cons a s =>
      cases r with
      | nil => exact absurd h (PrefixRange.not_cons_le_nil a s)
      | cons b t =>
        by_cases ha : a = 0
        · have hcut : cString (a :: s) = [] := by simp [cString, ha]
          rw [hcut, List.take_nil]
          exact hnil _
        · rcases PrefixRange.cons_le_cons.1 h with hlt | ⟨rfl, hst⟩
          · have hb : b ≠ 0 := by
              rintro rfl
              exact absurd hlt (Fin.not_lt_zero a)
            simp only [cString, List.takeWhile_cons, ha, hb, ne_eq, not_false_eq_true, decide_true,
              if_true, List.take_succ_cons]
            exact PrefixRange.cons_le_cons.2 (Or.inl hlt)
          · simp only [cString, List.takeWhile_cons, ha, ne_eq, not_false_eq_true, decide_true,
              if_true, List.take_succ_cons]
            exact PrefixRange.cons_le_cons.2 (Or.inr ⟨rfl, ih hst⟩)

/-- `lower_upper_bound_pred_t`. -/
structure LowerUpperBoundPredT where
  id : Nat
  name : Bytes
  hashCode : HashCode

/-- `lower_bound_compare_index`: does the node compare less? -/
def lowerBoundCompareIndex (heap : NodeHeap) (l : Option NodePtr) (r : LowerUpperBoundPredT) :
    Bool :=
  match l with
  | none => true
  | some l =>
    if (heap l).id ≠ r.id then decide ((heap l).id < r.id)
    else if r.name = [] then false
    else if (heap l).nameHash ≠ r.hashCode then HashCode.lt (heap l).nameHash r.hashCode
    else strncmpLt (heap l).name r.name r.name.length

/-- `upper_bound_compare_index`: does the node compare greater? -/
def upperBoundCompareIndex (heap : NodeHeap) (l : LowerUpperBoundPredT) (r : Option NodePtr) :
    Bool :=
  match r with
  | none => false
  | some r =>
    if l.id ≠ (heap r).id then decide (l.id < (heap r).id)
    else if l.name = [] then true
    else if l.hashCode ≠ (heap r).nameHash then HashCode.lt l.hashCode (heap r).nameHash
    else strncmpLt l.name (heap r).name l.name.length

namespace EtcdDiscoverySet

open SortedRing BinarySearch

variable (cfg : HashConfig) (heap : NodeHeap) (s : EtcdDiscoverySet)

/-- The `pred_val` of a search. -/
def boundPred (id : Nat) (name : Bytes) : LowerUpperBoundPredT :=
  { id, name, hashCode := if name ≠ [] then consistentHashCalc cfg name cfg.hashMagicNumber
      else (0, 0) }

/-- `lower_bound_sorted_nodes`: the position in the sorted nodes. -/
def lowerBoundSortedNodes (id : Nat) (name : Bytes) (metadata : Option AtappMetadata) :
    EtcdDiscoverySet × Nat :=
  let container := s.getSortedNodes cfg heap metadata
  (container.1, partitionPoint
    (fun l => lowerBoundCompareIndex heap (some l) (boundPred cfg id name)) container.2)

/-- `upper_bound_sorted_nodes`: the position in the sorted nodes. -/
def upperBoundSortedNodes (id : Nat) (name : Bytes) (metadata : Option AtappMetadata) :
    EtcdDiscoverySet × Nat :=
  let container := s.getSortedNodes cfg heap metadata
  (container.1, partitionPoint
    (fun r => !upperBoundCompareIndex heap (boundPred cfg id name) (some r)) container.2)

/-- The bounds are true bounds: `lower` stands behind the nodes that compare less and before all
    others, `upper` stands before the nodes that compare greater and behind all others, between
    them are exactly the nodes with the id and the name, and without a name `lower` stands at a
    node with the id if there is one. -/
structure BoundsExact (rule : Option AtappMetadata) (id : Nat) (name : Bytes) : Prop where
  lower : IsBoundary (fun l => lowerBoundCompareIndex heap (some l) (boundPred cfg id name))
    (s.getSortedNodes cfg heap rule).2 (s.lowerBoundSortedNodes cfg heap id name rule).2
  upper : name ≠ [] →
    IsBoundary (fun r => !upperBoundCompareIndex heap (boundPred cfg id name) (some r))
      (s.getSortedNodes cfg heap rule).2 (s.upperBoundSortedNodes cfg heap id name rule).2
  between : name ≠ [] → ∀ i (hi : i < (s.getSortedNodes cfg heap rule).2.length),
    (s.lowerBoundSortedNodes cfg heap id name rule).2 ≤ i ∧
        i < (s.upperBoundSortedNodes cfg heap id name rule).2 ↔
      (heap (s.getSortedNodes cfg heap rule).2[i]).id = id ∧
        (heap (s.getSortedNodes cfg heap rule).2[i]).name = name
  found : name = [] → (∃ p ∈ (s.getSortedNodes cfg heap rule).2, (heap p).id = id) →
    ∃ p, (s.getSortedNodes cfg heap rule).2[(s.lowerBoundSortedNodes cfg heap id name rule).2]? =
      some p ∧ (heap p).id = id

/-- The pod indexes follow the order that is searched: a node with a smaller pod index than one
    that compares less compares less, a node with a greater pod index than one that compares
    greater compares greater, and a node with the id is not behind all pods of greater ids. The
    hash and the compared part of the name tell nodes with the name from others. -/
structure BoundsOrdered (nodes : List NodePtr) (id : Nat) (name : Bytes) : Prop where
  below : ∀ a ∈ nodes, ∀ b ∈ nodes,
    (heap a).nodeInfo.statefulPodIndex < (heap b).nodeInfo.statefulPodIndex →
    lowerBoundCompareIndex heap (some b) (boundPred cfg id name) = true →
    lowerBoundCompareIndex heap (some a) (boundPred cfg id name) = true
  above : name ≠ [] → ∀ a ∈ nodes, ∀ b ∈ nodes,
    (heap a).nodeInfo.statefulPodIndex < (heap b).nodeInfo.statefulPodIndex →
    upperBoundCompareIndex heap (boundPred cfg id name) (some a) = true →
    upperBoundCompareIndex heap (boundPred cfg id name) (some b) = true
  named : name ≠ [] → ∀ a ∈ nodes, (heap a).id = id →
    ((heap a).nameHash = consistentHashCalc cfg name cfg.hashMagicNumber ∧
      (cString (heap a).name).take name.length = (cString name).take name.length ↔
        (heap a).name = name)
  first : name = [] → (∃ p ∈ nodes, (heap p).id = id) → ∃ p ∈ nodes, (heap p).id = id ∧
    ∀ a ∈ nodes, id < (heap a).id →
      (heap p).nodeInfo.statefulPodIndex ≤ (heap a).nodeInfo.statefulPodIndex

/-! ## The order that is searched -/

/-- What the searches compare of a node. -/
def boundKey (size : Nat) (p : NodePtr) : ℕ ×ₗ (ℕ ×ₗ ℕ) ×ₗ Bytes :=
  toLex ((heap p).id, toLex (toLex (heap p).nameHash, (cString (heap p).name).take size))

/-- What the searches compare a node with. -/
def predKey (r : LowerUpperBoundPredT) : ℕ ×ₗ (ℕ ×ₗ ℕ) ×ₗ Bytes :=
  toLex (r.id, toLex (toLex r.hashCode, (cString r.name).take r.name.length))

variable {cfg heap s}

theorem lowerBoundCompareIndex_eq {r : LowerUpperBoundPredT} (hname : r.name ≠ []) (p : NodePtr) :
    lowerBoundCompareIndex heap (some p) r =
      decide (boundKey heap r.name.length p < predKey r) := by
  rw [Bool.eq_iff_iff, decide_eq_true_iff]
  simp only [lowerBoundCompareIndex, boundKey, predKey, Prod.Lex.lt_iff, ofLex_toLex, if_neg hname,
    HashCode.lt_eq, strncmpLt]
  by_cases hid : (heap p).id = r.id
  · by_cases hh : (heap p).nameHash = r.hashCode
    · simp [hid, hh]
    · simp [hid, hh]
  · simp [hid]

theorem upperBoundCompareIndex_eq {r : LowerUpperBoundPredT} (hname : r.name ≠ []) (p : NodePtr) :
    upperBoundCompareIndex heap r (some p) =
      decide (predKey r < boundKey heap r.name.length p) := by
  rw [Bool.eq_iff_iff, decide_eq_true_iff]
  simp only [upperBoundCompareIndex, boundKey, predKey, Prod.Lex.lt_iff, ofLex_toLex, if_neg hname,
    HashCode.lt_eq, strncmpLt]
  by_cases hid : r.id = (heap p).id
  · by_cases hh : r.hashCode = (heap p).nameHash
    · simp [hid, hh]
    · simp [hid, hh]
  · simp [hid]

/-- Without a name only the id is compared. -/
theorem lowerBoundCompareIndex_unnamed {r : LowerUpperBoundPredT} (hname : r.name = [])
    (p : NodePtr) :
    lowerBoundCompareIndex heap (some p) r = decide ((heap p).id < r.id) := by
  unfold lowerBoundCompareIndex
  by_cases hid : (heap p).id = r.id
  · simp [hid, hname]
  · simp [hid]

/-- Nodes sorted by the order of the cached index are sorted by their pod index. -/
theorem podIndex_le {a b : NodePtr} (h : orderKey heap a ≤ orderKey heap b) :
    (heap a).nodeInfo.statefulPodIndex ≤ (heap b).nodeInfo.statefulPodIndex := by
  rcases Prod.Lex.le_iff.1 h with hlt | ⟨heq, -⟩
  · exact le_of_lt hlt
  · exact le_of_eq heq

/-- Among nodes with one pod index the sorted order is the one that is searched. -/
theorem boundKey_le (size : Nat) {a b : NodePtr}
    (hpod : (heap a).nodeInfo.statefulPodIndex = (heap b).nodeInfo.statefulPodIndex)
    (h : orderKey heap a ≤ orderKey heap b) : boundKey heap size a ≤ boundKey heap size b := by
  simp only [orderKey, Prod.Lex.le_iff, ofLex_toLex, hpod, lt_irrefl, false_or, true_and] at h
  simp only [boundKey, Prod.Lex.le_iff, ofLex_toLex]
  rcases h with hid | ⟨hid, hhash | ⟨hhash, hname⟩⟩
  · exact Or.inl hid
  · exact Or.inr ⟨hid, Or.inl hhash⟩
  · exact Or.inr ⟨hid, Or.inr ⟨hhash, take_cString_le size hname⟩⟩

theorem id_le {a b : NodePtr}
    (hpod : (heap a).nodeInfo.statefulPodIndex = (heap b).nodeInfo.statefulPodIndex)
    (h : orderKey heap a ≤ orderKey heap b) : (heap a).id ≤ (heap b).id := by
  rcases Prod.Lex.le_iff.1 (boundKey_le 0 hpod h) with hlt | ⟨heq, -⟩
  · exact le_of_lt hlt
  · exact le_of_eq heq

/-- A node that compares neither less nor greater has the id, the hash and the compared part of the
    name that are searched. -/
theorem boundKey_eq_iff {r : LowerUpperBoundPredT} {p : NodePtr} :
    boundKey heap r.name.length p = predKey r ↔ (heap p).id = r.id ∧
      ((heap p).nameHash = r.hashCode ∧
        (cString (heap p).name).take r.name.length = (cString r.name).take r.name.length) := by
  simp only [boundKey, predKey, EmbeddingLike.apply_eq_iff_eq, Prod.mk.injEq]

/-! ## When the bounds are exact -/

section Sorted

variable {rule : Option AtappMetadata} {id : Nat} {name : Bytes} {nodes : List NodePtr}

theorem initial_lower_iff (hsorted : nodes.Pairwise (fun a b => orderKey heap a ≤ orderKey heap b))
    (r : LowerUpperBoundPredT) :
    Initial (fun l => lowerBoundCompareIndex heap (some l) r) nodes ↔
      ∀ a ∈ nodes, ∀ b ∈ nodes,
        (heap a).nodeInfo.statefulPodIndex < (heap b).nodeInfo.statefulPodIndex →
        lowerBoundCompareIndex heap (some b) r = true →
        lowerBoundCompareIndex heap (some a) r = true := by
  refine initial_iff_of_sorted hsorted (fun _ _ => podIndex_le) fun a b hpod hle hb => ?_
  by_cases hname : r.name = []
  · rw [lowerBoundCompareIndex_unnamed hname, decide_eq_true_iff] at hb ⊢
    exact lt_of_le_of_lt (id_le hpod hle) hb
  · rw [lowerBoundCompareIndex_eq hname, decide_eq_true_iff] at hb ⊢
    exact lt_of_le_of_lt (boundKey_le _ hpod hle) hb

theorem initial_upper_iff (hsorted : nodes.Pairwise (fun a b => orderKey heap a ≤ orderKey heap b))
    {r : LowerUpperBoundPredT} (hname : r.name ≠ []) :
    Initial (fun p => !upperBoundCompareIndex heap r (some p)) nodes ↔
      ∀ a ∈ nodes, ∀ b ∈ nodes,
        (heap a).nodeInfo.statefulPodIndex < (heap b).nodeInfo.statefulPodIndex →
        upperBoundCompareIndex heap r (some a) = true →
        upperBoundCompareIndex heap r (some b) = true := by
  refine (initial_iff_of_sorted hsorted (fun _ _ => podIndex_le) fun a b hpod hle hb => ?_).trans ?_
  · rw [upperBoundCompareIndex_eq hname, Bool.not_eq_true', decide_eq_false_iff_not, not_lt] at hb ⊢
    exact (boundKey_le _ hpod hle).trans hb
  · refine forall₂_congr fun a _ => forall₂_congr fun b _ => imp_congr_right fun _ => ?_
    cases upperBoundCompareIndex heap r (some a) <;> cases upperBoundCompareIndex heap r (some b) <;>
      simp

/-- Between true bounds are the nodes that compare neither less nor greater. -/
theorem mem_between_iff {r : LowerUpperBoundPredT} (hname : r.name ≠ []) {lower upper : Nat}
    (hlower : IsBoundary (fun l => lowerBoundCompareIndex heap (some l) r) nodes lower)
    (hupper : IsBoundary (fun p => !upperBoundCompareIndex heap r (some p)) nodes upper)
    {i : Nat} (hi : i < nodes.length) :
    lower ≤ i ∧ i < upper ↔ boundKey heap r.name.length nodes[i] = predKey r := by
  have hless := hlower.iff i hi
  have hgreater := hupper.iff i hi
  rw [lowerBoundCompareIndex_eq hname, decide_eq_true_iff] at hless
  rw [upperBoundCompareIndex_eq hname, Bool.not_eq_true', decide_eq_false_iff_not, not_lt]
    at hgreater
  rw [← not_lt, ← hless, ← hgreater, not_lt, and_comm, le_antisymm_iff]

/-- Without a name the lower bound is at a node with the id, if there is one, exactly if one of
    these nodes is not behind the pods of greater ids. -/
theorem found_iff (hsorted : nodes.Pairwise (fun a b => orderKey heap a ≤ orderKey heap b))
    {r : LowerUpperBoundPredT} (hname : r.name = []) {lower : Nat}
    (hlower : IsBoundary (fun l => lowerBoundCompareIndex heap (some l) r) nodes lower) :
    (∃ p, nodes[lower]? = some p ∧ (heap p).id = r.id) ↔ ∃ p ∈ nodes, (heap p).id = r.id ∧
      ∀ a ∈ nodes, r.id < (heap a).id →
        (heap p).nodeInfo.statefulPodIndex ≤ (heap a).nodeInfo.statefulPodIndex := by
  have hless : ∀ i (hi : i < nodes.length), (heap nodes[i]).id < r.id ↔ i < lower := by
    intro i hi
    have hiff := hlower.iff i hi
    rwa [lowerBoundCompareIndex_unnamed hname, decide_eq_true_iff] at hiff
  -- a node is before the nodes at greater positions
  have hle : ∀ i j (hi : i < nodes.length) (hj : j < nodes.length), i ≤ j →
      orderKey heap nodes[i] ≤ orderKey heap nodes[j] := by
    intro i j hi hj hij
    rcases Nat.lt_or_eq_of_le hij with hlt | rfl
    · exact List.pairwise_iff_getElem.1 hsorted i j hi hj hlt
    · exact le_refl _
  constructor
  · rintro ⟨p, hp, hid⟩
    obtain ⟨hlt, rfl⟩ := List.getElem?_eq_some_iff.1 hp
    refine ⟨nodes[lower], List.getElem_mem hlt, hid, fun a ha hgreater => ?_⟩
    obtain ⟨j, hj, rfl⟩ := List.getElem_of_mem ha
    have hnot := (hless j hj).not.1 (by omega)
    exact podIndex_le (hle lower j hlt hj (by omega))
  · rintro ⟨p, hp, hid, hfirst⟩
    obtain ⟨j, hj, rfl⟩ := List.getElem_of_mem hp
    have hnot := (hless j hj).not.1 (by omega)
    have hlt : lower < nodes.length := by omega
    refine ⟨nodes[lower], List.getElem?_eq_getElem hlt, ?_⟩
    have hge := (hless lower hlt).not.2 (by omega)
    -- a greater id at the bound would be in the same pod and before the node with the id
    by_contra hne
    have hkeys := hle lower j hlt hj (by omega)
    have hpod := le_antisymm (podIndex_le hkeys)
      (hfirst nodes[lower] (List.getElem_mem hlt) (by omega))
    have hids := id_le hpod hkeys
    omega

end Sorted

/-- The sorted nodes of a set with its invariant are sorted. -/
theorem getSortedNodes_sorted {st : DiscoveryState} (h : DiscoveryState.Indexed cfg st)
    (rule : Option AtappMetadata) :
    (st.nodes.getSortedNodes cfg st.heap rule).2.Pairwise
      (fun a b => orderKey st.heap a ≤ orderKey st.heap b) := by
  obtain ⟨l, hb⟩ := (h.caches.cachedIndex rule).refreshNodes h.index
  have hnodes : (st.nodes.getSortedNodes cfg st.heap rule).2 = sortBy (orderKey st.heap) l := hb.nodes
  rw [hnodes]
  exact sortBy_pairwise _ l

/-- **Bounds are true bounds** for an id and a name exactly if the pod indexes of the rule's nodes
    follow the order of ids, name hashes and names there, and hash and name tell the nodes apart. -/
theorem boundsExact_iff {st : DiscoveryState} (h : DiscoveryState.Indexed cfg st)
    (rule : Option AtappMetadata) (id : Nat) (name : Bytes) :
    BoundsExact cfg st.heap st.nodes rule id name ↔
      BoundsOrdered cfg st.heap (st.nodes.getSortedNodes cfg st.heap rule).2 id name := by
  have hsorted := getSortedNodes_sorted h rule
  have hlower := isBoundary_partitionPoint_iff.trans
    (initial_lower_iff hsorted (boundPred cfg id name))
  have hnamed : ∀ hname : name ≠ [], (boundPred cfg id name).hashCode =
      consistentHashCalc cfg name cfg.hashMagicNumber := fun hname => if_pos hname
  constructor
  · intro hexact
    refine ⟨hlower.1 hexact.lower, fun hname => ?_, fun hname a ha hid => ?_, fun hname hsome => ?_⟩
    · exact (initial_upper_iff hsorted hname).1 (hexact.upper hname).initial
    · obtain ⟨i, hi, rfl⟩ := List.getElem_of_mem ha
      have hbetween := hexact.between hname i hi
      rw [mem_between_iff hname hexact.lower (hexact.upper hname) hi, boundKey_eq_iff,
        hnamed hname] at hbetween
      constructor
      · exact fun hkey => (hbetween.1 ⟨hid, hkey⟩).2
      · exact fun heq => (hbetween.2 ⟨hid, heq⟩).2
    · exact (found_iff hsorted hname hexact.lower).1 (hexact.found hname hsome)
  · intro hordered
    have hlow := hlower.2 hordered.below
    have hupp := fun hname => isBoundary_partitionPoint_iff.2
      ((initial_upper_iff hsorted (r := boundPred cfg id name) hname).2 (hordered.above hname))
    refine ⟨hlow, hupp, fun hname i hi => ?_, fun hname hsome => ?_⟩
    · have hname' : (boundPred cfg id name).name ≠ [] := hname
      refine (mem_between_iff hname' hlow (hupp hname) hi).trans ?_
      rw [boundKey_eq_iff, hnamed hname]
      exact and_congr_right fun hid => hordered.named hname _ (List.getElem_mem hi) hid
    · exact (found_iff hsorted hname hlow).2 (hordered.first hname hsome)

/-- Where all nodes of a rule are in one pod, searches for an id alone are exact. -/
theorem boundsOrdered_of_onePod {nodes : List NodePtr} {pod : Int}
    (hpod : ∀ p ∈ nodes, (heap p).nodeInfo.statefulPodIndex = pod) (id : Nat) :
    BoundsOrdered cfg heap nodes id [] where
  below := fun a ha b hb hlt => absurd hlt (by rw [hpod a ha, hpod b hb]; exact lt_irrefl pod)
  above := fun hname => absurd rfl hname
  named := fun hname => absurd rfl hname
  first := fun _ ⟨p, hp, hid⟩ => ⟨p, hp, hid, fun a ha _ => by rw [hpod a ha, hpod p hp]⟩

/-! ## Examples -/

/-- The state after two nodes with these pod indexes were added. -/
def podState (pod pod' : Int) : DiscoveryState :=
  Run.run (DiscoveryState.step bucketConfig) {}
    [.copyFromAndAdd 1 { id := 1, name := [97], runtime := some { statefulPodIndex := pod } } {} 0,
      .copyFromAndAdd 2 { id := 2, name := [98], runtime := some { statefulPodIndex := pod' } } {} 0]

/-- The pod indexes are in the order of the ids. -/
theorem boundsExact_podState :
    BoundsExact bucketConfig (podState 0 1).heap (podState 0 1).nodes none 1 [97] := by
  refine (boundsExact_iff ?_ none 1 [97]).2 ⟨?_, ?_, ?_, ?_⟩
  · exact DiscoveryState.indexed_run (DiscoveryState.indexed_empty _ _) (by decide +kernel)
  all_goals decide +kernel

/-- The second node has the smaller pod index and is the first of the sorted nodes, so the search
    for the id of the first node alone ends at the second one. -/
theorem not_boundsExact_podState :
    DiscoveryState.Indexed bucketConfig (podState 1 0) ∧
      ¬ BoundsExact bucketConfig (podState 1 0).heap (podState 1 0).nodes none 1 [] := by
  have hnodes : ((podState 1 0).nodes.getSortedNodes bucketConfig (podState 1 0).heap none).2 =
      [2, 1] := by decide +kernel
  refine ⟨DiscoveryState.indexed_run (DiscoveryState.indexed_empty _ _) (by decide +kernel),
    fun hexact => ?_⟩
  -- the first of the sorted nodes does not compare less
  have hfirst := (hexact.lower.iff 0 (by simp [hnodes])).not.1 (by
    simp only [hnodes]
    show ¬ lowerBoundCompareIndex (podState 1 0).heap (some 2) (boundPred bucketConfig 1 []) = true
    decide +kernel)
  obtain ⟨p, hp, hid⟩ := hexact.found rfl ⟨1, by simp [hnodes], by decide +kernel⟩
  rw [Nat.eq_zero_of_not_pos hfirst, hnodes] at hp
  obtain rfl : 2 = p := by simpa using hp
  exact absurd hid (by decide +kernel)

end EtcdDiscoverySet

end LibAtapp
