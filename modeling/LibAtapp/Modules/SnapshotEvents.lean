import LibAtapp.Modules.DiscoveryWatcher
import LibAtapp.Modules.StaleEntry

set_option autoImplicit false

/-! # The steps of a snapshot

A snapshot response is handled in three steps: the old nodes are collected, the nodes of the
snapshot are merged one after the other, and the old nodes that the snapshot does not name are
deleted. This file has what each step does to the contents of the discovery set. -/

namespace LibAtapp

/-! ## Filling and emptying a map -/

section KeyedMap

variable {κ ι : Type} [DecidableEq κ]

/-- Insert a node under its key, if it has one. -/
def insertKeyed (key : NodePtr → Option κ) (map : AList (fun _ : κ => NodePtr)) (p : NodePtr) :
    AList (fun _ : κ => NodePtr) :=
  match key p with
  | some k => map.insert k p
  | none => map

/-- Erase the entry of a key, if there is one. -/
def eraseKeyed (key : ι → Option κ) (map : AList (fun _ : κ => NodePtr)) (i : ι) :
    AList (fun _ : κ => NodePtr) :=
  match key i with
  | some k => map.erase k
  | none => map

/-- A map filled with nodes of different keys leads from each key to its node. -/
theorem lookup_foldl_insertKeyed {key : NodePtr → Option κ} {nodes : List NodePtr}
    (hkey : ∀ p ∈ nodes, ∀ q ∈ nodes, ∀ k, key p = some k → key q = some k → p = q)
    (map : AList (fun _ : κ => NodePtr)) (k : κ) (p : NodePtr) :
    (nodes.foldl (insertKeyed key) map).lookup k = some p ↔
      (p ∈ nodes ∧ key p = some k) ∨ ((∀ q ∈ nodes, key q ≠ some k) ∧ map.lookup k = some p) := by
  induction nodes generalizing map with
  | nil => simp
  | cons x nodes ih =>
      have hrest := ih (fun p hp q hq => hkey p (List.mem_cons_of_mem _ hp) q
        (List.mem_cons_of_mem _ hq)) (insertKeyed key map x)
      refine hrest.trans ?_
      simp only [List.mem_cons, forall_eq_or_imp, insertKeyed]
      cases hx : key x with
      | none =>
          have hne : ¬ (none : Option κ) = some k := by simp
          simp only [ne_eq, hne, not_false_eq_true, true_and]
          refine or_congr_left (and_congr_left fun hp => ?_)
          refine ⟨Or.inr, fun h => h.resolve_left (fun heq => ?_)⟩
          rw [heq, hx] at hp
          exact hne hp
      | some k' =>
          simp only [lookup_insert_eq]
          by_cases hk : k = k'
          · subst hk
            simp only [if_true, ne_eq, not_true_eq_false, false_and, or_false]
            constructor
            · intro h
              rcases h with ⟨hp, hpk⟩ | ⟨_, hp⟩
              · exact ⟨Or.inr hp, hpk⟩
              · exact ⟨Or.inl (Option.some.inj hp).symm, (Option.some.inj hp) ▸ hx⟩
            · rintro ⟨hp, hpk⟩
              rcases hp with hp | hp
              · subst hp
                by_cases hmem : p ∈ nodes
                · exact Or.inl ⟨hmem, hpk⟩
                · refine Or.inr ⟨fun q hq hqk => hmem ?_, rfl⟩
                  rw [hkey p List.mem_cons_self q (List.mem_cons_of_mem _ hq) k hx hqk]
                  exact hq
              · exact Or.inl ⟨hp, hpk⟩
          · have hne : ¬ some k' = some k := fun h => hk (Option.some.inj h).symm
            simp only [if_neg hk, ne_eq, hne, not_false_eq_true, true_and]
            refine or_congr_left (and_congr_left fun hp => ?_)
            refine ⟨Or.inr, fun h => h.resolve_left (fun heq => ?_)⟩
            rw [heq, hx] at hp
            exact hne hp

/-- A map keeps the entries whose keys are not erased. -/
theorem lookup_foldl_eraseKeyed {key : ι → Option κ} (is : List ι)
    (map : AList (fun _ : κ => NodePtr)) (k : κ) (p : NodePtr) :
    (is.foldl (eraseKeyed key) map).lookup k = some p ↔
      map.lookup k = some p ∧ ∀ i ∈ is, key i ≠ some k := by
  induction is generalizing map with
  | nil => simp
  | cons i is ih =>
      refine (ih (eraseKeyed key map i)).trans ?_
      simp only [List.mem_cons, forall_eq_or_imp, eraseKeyed]
      cases hi : key i with
      | none => simp
      | some k' =>
          simp only [lookup_erase_eq]
          by_cases hk : k = k'
          · simp [hk]
          · have hne : ¬ some k' = some k := fun h => hk (Option.some.inj h).symm
            simp only [if_neg hk, ne_eq, hne, not_false_eq_true, true_and]

end KeyedMap

/-! ## The old nodes -/

namespace OldNodes

/-- The key of `old_ids` under which a node is collected. -/
def idKey (node : AtappDiscovery) : Option Nat := if node.id ≠ 0 then some node.id else none

/-- The key of `old_names` under which a node is collected. -/
def nameKey (node : AtappDiscovery) : Option Bytes :=
  if node.id = 0 ∧ node.name ≠ [] then some node.name else none

/-- The key of `old_names` that a node of a response erases. -/
def erasedName (node : AtappDiscovery) : Option Bytes :=
  if node.name ≠ [] then some node.name else none

theorem oldIds_collect (heap : NodeHeap) (old : OldNodes) (nodes : List NodePtr) :
    (nodes.foldl (collect heap) old).oldIds =
      nodes.foldl (insertKeyed (fun p => idKey (heap p).nodeInfo)) old.oldIds := by
  induction nodes generalizing old with
  | nil => rfl
  | cons p nodes ih =>
      rw [List.foldl_cons, List.foldl_cons, ih]
      congr 1
      by_cases hid : (heap p).nodeInfo.id = 0 <;>
        by_cases hname : (heap p).nodeInfo.name = [] <;>
          simp [collect, insertKeyed, idKey, hid, hname]

theorem oldNames_collect (heap : NodeHeap) (old : OldNodes) (nodes : List NodePtr) :
    (nodes.foldl (collect heap) old).oldNames =
      nodes.foldl (insertKeyed (fun p => nameKey (heap p).nodeInfo)) old.oldNames := by
  induction nodes generalizing old with
  | nil => rfl
  | cons p nodes ih =>
      rw [List.foldl_cons, List.foldl_cons, ih]
      congr 1
      by_cases hid : (heap p).nodeInfo.id = 0 <;>
        by_cases hname : (heap p).nodeInfo.name = [] <;>
          simp [collect, insertKeyed, nameKey, hid, hname]

theorem oldIds_removeIndex (old : OldNodes) (nodes : List AtappDiscovery) :
    (nodes.foldl removeIndex old).oldIds = nodes.foldl (eraseKeyed idKey) old.oldIds := by
  induction nodes generalizing old with
  | nil => rfl
  | cons node nodes ih =>
      rw [List.foldl_cons, List.foldl_cons, ih]
      congr 1
      by_cases hid : node.id = 0 <;> simp [removeIndex, eraseKeyed, idKey, hid]

theorem oldNames_removeIndex (old : OldNodes) (nodes : List AtappDiscovery) :
    (nodes.foldl removeIndex old).oldNames = nodes.foldl (eraseKeyed erasedName) old.oldNames := by
  induction nodes generalizing old with
  | nil => rfl
  | cons node nodes ih =>
      rw [List.foldl_cons, List.foldl_cons, ih]
      congr 1
      by_cases hname : node.name = [] <;> simp [removeIndex, eraseKeyed, erasedName, hname]

/-- An old node that no node of the snapshot names: by its id, or by its name if it has no id. -/
def Unmatched (nodes : List AtappDiscovery) (old : AtappDiscovery) : Prop :=
  (old.id ≠ 0 ∧ ∀ node ∈ nodes, node.id ≠ old.id) ∨
    (old.id = 0 ∧ old.name ≠ [] ∧ ∀ node ∈ nodes, node.name ≠ old.name)

end OldNodes

namespace ServiceDiscoveryModule

variable {cfg : HashConfig} {codec : DiscoveryCodec} {order : HashMapOrder}
  {m : ServiceDiscoveryModule} {context : Nat}

/-- The nodes that `cleanup_old_nodes` walks over, in its order. -/
def leftOver (order : HashMapOrder) (old : OldNodes) : List NodePtr :=
  order.names old.oldNames ++ order.ids old.oldIds

theorem cleanupOldNodes_eq (old : OldNodes) :
    m.cleanupOldNodes cfg order context old =
      (leftOver order old).foldl (cleanupOldNode cfg context) m :=
  (List.foldl_append).symm

theorem mem_leftOver {old : OldNodes} {p : NodePtr} :
    p ∈ leftOver order old ↔
      (∃ n, old.oldNames.lookup n = some p) ∨ ∃ k, old.oldIds.lookup k = some p := by
  rw [leftOver, List.mem_append, (order.names_perm _).mem_iff, (order.ids_perm _).mem_iff,
    mem_entries_values, mem_entries_values]

/-- Collecting the old nodes only fills the default index. -/
theorem collectOldNodes_module (hv : Valid cfg m) (hone : OneContext context m) :
    Valid cfg (m.collectOldNodes cfg).1 ∧ OneContext context (m.collectOldNodes cfg).1 ∧
      (m.collectOldNodes cfg).1.contents = m.contents ∧
      (m.collectOldNodes cfg).1.heap = m.heap ∧
      (m.collectOldNodes cfg).1.nextNode = m.nextNode := by
  have hlive : ∀ p, (m.collectOldNodes cfg).1.globalDiscovery.Live p ↔
      m.globalDiscovery.Live p := by
    intro p
    simp [collectOldNodes, EtcdDiscoverySet.getSortedNodes, EtcdDiscoverySet.Live,
      EtcdDiscoverySet.getNodeById, EtcdDiscoverySet.getNodeByName]
  have hsound : Sound cfg (m.collectOldNodes cfg).1 :=
    sound_call ⟨hv.allocated, hv.default⟩ (.getSortedNodes none)
  have hindex : IndexInv m.heap (m.collectOldNodes cfg).1.globalDiscovery :=
    hv.index.of_maps (by simp [collectOldNodes, EtcdDiscoverySet.getSortedNodes])
      (by simp [collectOldNodes, EtcdDiscoverySet.getSortedNodes])
  refine ⟨hsound.valid hindex, fun p hp => hone p ((hlive p).1 hp), ?_, rfl, rfl⟩
  · ext node
    simp only [contents, Set.mem_ofPred_eq, hlive]
    rfl

/-- **What is left over** of the old nodes after the nodes of a snapshot are erased. -/
theorem mem_leftOver_collected (hv : Valid cfg m) (nodes : List AtappDiscovery) {p : NodePtr} :
    p ∈ leftOver order (nodes.foldl OldNodes.removeIndex (m.collectOldNodes cfg).2) ↔
      m.globalDiscovery.Live p ∧ OldNodes.Unmatched nodes (m.heap p).nodeInfo := by
  have hlist : ∀ q, q ∈ (m.globalDiscovery.getSortedNodes cfg m.heap none).2 ↔
      m.globalDiscovery.Live q := (hv.default.listsLiveOnce hv.index).2
  have hids : ∀ k, ((m.collectOldNodes cfg).2.oldIds.lookup k = some p ↔
      m.globalDiscovery.Live p ∧ OldNodes.idKey (m.heap p).nodeInfo = some k) := by
    intro k
    simp only [collectOldNodes]
    rw [OldNodes.oldIds_collect, lookup_foldl_insertKeyed]
    · simp [hlist]
    · intro q hq r hr j hqj hrj
      simp only [OldNodes.idKey, Option.ite_none_right_eq_some, Option.some.injEq] at hqj hrj
      have hq' : m.byId j = some q :=
        (byId_iff hv.index ((hlist q).1 hq) (hqj.2 ▸ hqj.1)).2 hqj.2
      have hr' : m.byId j = some r :=
        (byId_iff hv.index ((hlist r).1 hr) (hqj.2 ▸ hqj.1)).2 hrj.2
      exact Option.some.inj (hq'.symm.trans hr')
  have hnames : ∀ n, ((m.collectOldNodes cfg).2.oldNames.lookup n = some p ↔
      m.globalDiscovery.Live p ∧ OldNodes.nameKey (m.heap p).nodeInfo = some n) := by
    intro n
    simp only [collectOldNodes]
    rw [OldNodes.oldNames_collect, lookup_foldl_insertKeyed]
    · simp [hlist]
    · intro q hq r hr j hqj hrj
      simp only [OldNodes.nameKey, Option.ite_none_right_eq_some, Option.some.injEq] at hqj hrj
      have hq' : m.byName j = some q :=
        (byName_iff hv.index ((hlist q).1 hq) (hqj.2 ▸ hqj.1.2)).2 hqj.2
      have hr' : m.byName j = some r :=
        (byName_iff hv.index ((hlist r).1 hr) (hqj.2 ▸ hqj.1.2)).2 hrj.2
      exact Option.some.inj (hq'.symm.trans hr')
  rw [mem_leftOver, OldNodes.oldNames_removeIndex, OldNodes.oldIds_removeIndex]
  simp only [lookup_foldl_eraseKeyed, hids, hnames]
  generalize (m.heap p).nodeInfo = old
  constructor
  · intro h
    rcases h with ⟨n, ⟨hlive, hkey⟩, hno⟩ | ⟨k, ⟨hlive, hkey⟩, hno⟩
    · simp only [OldNodes.nameKey, Option.ite_none_right_eq_some, Option.some.injEq] at hkey
      obtain ⟨⟨hid, h0⟩, heq⟩ := hkey
      refine ⟨hlive, Or.inr ⟨hid, h0, fun node hnode hname => hno node hnode ?_⟩⟩
      rw [OldNodes.erasedName, if_pos (hname ▸ h0), hname, heq]
    · simp only [OldNodes.idKey, Option.ite_none_right_eq_some, Option.some.injEq] at hkey
      obtain ⟨h0, heq⟩ := hkey
      refine ⟨hlive, Or.inl ⟨h0, fun node hnode hid => hno node hnode ?_⟩⟩
      rw [OldNodes.idKey, if_pos (hid ▸ h0), hid, heq]
  · rintro ⟨hlive, hun⟩
    rcases hun with ⟨h0, hno⟩ | ⟨hid, h0, hno⟩
    · refine Or.inr ⟨old.id, ⟨hlive, by rw [OldNodes.idKey, if_pos h0]⟩, fun node hnode hkey => ?_⟩
      simp only [OldNodes.idKey, Option.ite_none_right_eq_some, Option.some.injEq] at hkey
      exact hno node hnode hkey.2
    · refine Or.inl ⟨old.name, ⟨hlive, by rw [OldNodes.nameKey, if_pos ⟨hid, h0⟩]⟩,
        fun node hnode hkey => ?_⟩
      simp only [OldNodes.erasedName, Option.ite_none_right_eq_some, Option.some.injEq] at hkey
      exact hno node hnode hkey.2

/-! ## The events -/

/-- The decoded events of a response without those that are skipped. -/
def decodedEvents (codec : DiscoveryCodec) (contextAddr : Nat) (events : List WatchEvent) :
    List (NodeInfoT × EtcdDataVersion) :=
  (events.map (decodeEvent codec contextAddr)).filter (fun input => input.1.nodeDiscovery.Keyed)

/-- The nodes of a response. -/
def responseNodes (codec : DiscoveryCodec) (contextAddr : Nat) (events : List WatchEvent) :
    List AtappDiscovery :=
  (decodedEvents codec contextAddr events).map (fun input => input.1.nodeDiscovery)

theorem mem_decodedEvents {events : List WatchEvent} {input : NodeInfoT × EtcdDataVersion}
    (h : input ∈ decodedEvents codec context events) :
    input.1.contextAddr = context ∧ input.1.nodeDiscovery.Keyed ∧
      ((∀ evtData ∈ events, evtData.evtType = .put) → input.1.action = .put) := by
  obtain ⟨hmem, hkeyed⟩ := List.mem_filter.1 h
  obtain ⟨evtData, hevt, heq⟩ := List.mem_map.1 hmem
  subst heq
  refine ⟨decodeEvent_contextAddr codec context evtData, of_decide_eq_true hkeyed, fun hput => ?_⟩
  simp [decodeEvent, hput evtData hevt]

/-- The loop over the events merges the decoded events and erases their nodes. -/
theorem foldl_handleEvent (events : List WatchEvent) (old : OldNodes) :
    events.foldl (handleEvent cfg codec context true) (m, old) =
      (Run.run (step cfg) m (decodedEvents codec context events),
        (responseNodes codec context events).foldl OldNodes.removeIndex old) := by
  induction events generalizing m old with
  | nil => rfl
  | cons evtData events ih =>
      rw [List.foldl_cons]
      by_cases hkeyed : (decodeEvent codec context evtData).1.nodeDiscovery.Keyed
      · have hskip : ¬ ((decodeEvent codec context evtData).1.nodeDiscovery.id = 0 ∧
            (decodeEvent codec context evtData).1.nodeDiscovery.name = []) :=
          fun h => hkeyed.elim (fun h0 => h0 h.1) (fun h0 => h0 h.2)
        simp only [handleEvent, if_neg hskip, if_true]
        rw [ih]
        simp [decodedEvents, responseNodes, hkeyed]
      · have hskip : (decodeEvent codec context evtData).1.nodeDiscovery.id = 0 ∧
            (decodeEvent codec context evtData).1.nodeDiscovery.name = [] := by
          simpa [AtappDiscovery.Keyed] using hkeyed
        simp only [handleEvent, if_pos hskip]
        rw [ih]
        simp [decodedEvents, responseNodes, hkeyed]

/-- The inputs are Puts of the context with an id and a name. -/
def Puts (context : Nat) (inputs : List (NodeInfoT × EtcdDataVersion)) : Prop :=
  ∀ input ∈ inputs, input.1.contextAddr = context ∧ input.1.action = .put ∧
    input.1.nodeDiscovery.id ≠ 0 ∧ input.1.nodeDiscovery.name ≠ []

/-- A Put that does not rekey a node in place leaves the content of a node that it does not
    match. -/
theorem content_of_unmatched {input : NodeInfoT × EtcdDataVersion} {p : NodePtr}
    (hr : ¬ m.RekeysInPlace input.1) (hp : p < m.nextNode)
    (hun : OldNodes.Unmatched [input.1.nodeDiscovery] (m.heap p).nodeInfo) :
    m.heap.SameContent (m.mergeEvent cfg input.1 input.2).module.heap p := by
  refine (frame_mergeEvent cfg m input.1 input.2).content p (fun hstored => ?_)
  cases hdec : m.decision input.1 with
  | ignore => simp [stored, hdec] at hstored
  | remove => simp [stored, hdec] at hstored
  | fresh =>
      rw [stored, hdec] at hstored
      exact absurd (Option.some.inj hstored) hp.ne'
  | overwrite q =>
      rw [stored, hdec] at hstored
      have hqp : q = p := Option.some.inj hstored
      subst hqp
      -- overwritten in place, the node has no key that the Put does not have
      have hkeys := fun hne => hr ⟨q, hdec, hne⟩
      have hid : (m.heap q).id ≠ 0 → (m.heap q).id = input.1.nodeDiscovery.id :=
        fun h0 => by_contra fun hne => hkeys (Or.inl ⟨h0, hne⟩)
      have hname : (m.heap q).name ≠ [] → (m.heap q).name = input.1.nodeDiscovery.name :=
        fun h0 => by_contra fun hne => hkeys (Or.inr ⟨h0, hne⟩)
      rcases hun with ⟨h0, hno⟩ | ⟨_, h0, hno⟩
      · exact hno _ (List.mem_singleton.2 rfl) (hid h0).symm
      · exact hno _ (List.mem_singleton.2 rfl) (hname h0).symm

/-- **The Puts of a snapshot**, when none rekeys a node in place, put their infos, and leave the
    content of the nodes that they do not match. -/
theorem run_puts {inputs : List (NodeInfoT × EtcdDataVersion)} (hv : Valid cfg m)
    (hone : OneContext context m) (hputs : Puts context inputs)
    (hr : Run.StepsMeet (step cfg) (fun m input => ¬ m.RekeysInPlace input.1) m inputs) :
    let nodes := inputs.map (fun input => input.1.nodeDiscovery)
    let m' := Run.run (step cfg) m inputs
    Valid cfg m' ∧ OneContext context m' ∧
      m'.contents = KeyedSet.putAll AtappDiscovery.SharesKey m.contents
        (nodes.map AtappDiscovery.canonical) ∧
      ∀ p, p < m.nextNode → OldNodes.Unmatched nodes (m.heap p).nodeInfo →
        m.heap.SameContent m'.heap p := by
  induction inputs generalizing m with
  | nil => exact ⟨hv, hone, rfl, fun p _ _ => NodeHeap.SameContent.refl _ p⟩
  | cons input inputs ih =>
      obtain ⟨hctx, hput, hid, hname⟩ := hputs input List.mem_cons_self
      obtain ⟨hv', hone', hcontents⟩ :=
        contents_put hv hone hctx hput (Or.inl hid) hr.1 input.2
      obtain ⟨hv'', hone'', hcontents', hcontent⟩ := ih hv' hone'
        (fun i hi => hputs i (List.mem_cons_of_mem _ hi)) hr.2
      refine ⟨hv'', hone'', ?_, fun p hp hun => ?_⟩
      · rw [hcontents] at hcontents'
        exact hcontents'
      · have hfirst : m.heap.SameContent (m.mergeEvent cfg input.1 input.2).module.heap p := by
          refine content_of_unmatched hr.1 hp ?_
          simp only [OldNodes.Unmatched, List.map_cons, List.mem_cons, forall_eq_or_imp] at hun
          exact hun.imp (fun h => ⟨h.1, by simpa using h.2.1⟩)
            (fun h => ⟨h.1, h.2.1, by simpa using h.2.2.1⟩)
        refine hfirst.trans (hcontent p ?_ ?_)
        · exact Nat.lt_of_lt_of_le hp (nextNode_mergeEvent cfg m input.1 input.2).1
        · rw [hfirst.info]
          simp only [OldNodes.Unmatched, List.map_cons, List.mem_cons, forall_eq_or_imp] at hun
          exact hun.imp (fun h => ⟨h.1, h.2.2⟩) (fun h => ⟨h.1, h.2.1, h.2.2.2⟩)

/-! ## The cleanup -/

/-- A Delete leaves all contents. -/
theorem content_of_delete {event : NodeInfoT} (hdelete : event.action = .delete)
    (version : EtcdDataVersion) (r : NodePtr) :
    m.heap.SameContent (m.mergeEvent cfg event version).module.heap r := by
  refine (frame_mergeEvent cfg m event version).content r (fun hstored => ?_)
  rcases decision_ne_of_delete (m := m) hdelete with hdec | hdec <;>
    simp [stored, hdec] at hstored

/-- **The cleanup** removes what has a key of a left-over node. -/
theorem run_cleanup {left : List NodePtr} (hv : Valid cfg m) (hone : OneContext context m)
    (hleft : ∀ p ∈ left, (m.heap p).contextAddr = context) :
    let m' := left.foldl (cleanupOldNode cfg context) m
    Valid cfg m' ∧ m'.contents = KeyedSet.removeAll AtappDiscovery.SharesKey m.contents
      (left.map (fun p => (m.heap p).nodeInfo)) := by
  induction left generalizing m with
  | nil => exact ⟨hv, rfl⟩
  | cons p left ih =>
      have hstep : m.cleanupOldNode cfg context p =
          (m.mergeEvent cfg (m.cleanupEvent context p) (m.heap p).nodeVersion).module := by
        rw [cleanupOldNode, if_neg (not_not.2 (hleft p List.mem_cons_self))]
        rfl
      have hdelete : (m.cleanupEvent context p).action = .delete := rfl
      have hcontent : ∀ r, m.heap.SameContent (m.mergeEvent cfg (m.cleanupEvent context p)
          (m.heap p).nodeVersion).module.heap r := content_of_delete hdelete _
      obtain ⟨hv', hone', hcontents⟩ :=
        contents_delete hv hone rfl hdelete (m.heap p).nodeVersion
      rw [List.foldl_cons, hstep]
      obtain ⟨hv'', hcontents'⟩ := ih hv' hone' (fun q hq => by
        rw [(hcontent q).context]
        exact hleft q (List.mem_cons_of_mem _ hq))
      refine ⟨hv'', ?_⟩
      simp only [hcontents', hcontents, fun r => (hcontent r).info]
      rfl

end ServiceDiscoveryModule

end LibAtapp
