import LibAtapp.Modules.WatcherEvent

set_option autoImplicit false

/-! # The index invariant under discovery events

What one event does to a module with the invariants, and the runs of events in which the two
indexes of the global discovery set agree throughout: those in which no event overwrites in place
a node that is also filed under a key the event does not carry. -/

namespace LibAtapp

namespace ServiceDiscoveryModule

variable {cfg : HashConfig} {m : ServiceDiscoveryModule} {event : NodeInfoT}
  {version : EtcdDataVersion}

/-! ## The default index -/

/-- The index of the unconditional query is current. -/
def DefaultCurrent (cfg : HashConfig) (m : ServiceDiscoveryModule) : Prop :=
  EtcdDiscoverySet.Current cfg m.heap m.globalDiscovery none m.globalDiscovery.defaultIndex

/-- `get_sorted_nodes()` lists every live node exactly once. -/
def ListsLiveOnce (cfg : HashConfig) (m : ServiceDiscoveryModule) : Prop :=
  (m.globalDiscovery.getSortedNodes cfg m.heap none).2.Nodup ∧
    ∀ p, p ∈ (m.globalDiscovery.getSortedNodes cfg m.heap none).2 ↔ m.globalDiscovery.Live p

theorem DefaultCurrent.listsLiveOnce (hd : DefaultCurrent cfg m)
    (h : IndexInv m.heap m.globalDiscovery) : ListsLiveOnce cfg m := by
  have hexact := EtcdDiscoverySet.exactIndex_freshIndex cfg h none
  have hnodes : (m.globalDiscovery.getSortedNodes cfg m.heap none).2 =
      (m.globalDiscovery.freshIndex cfg m.heap none).roundRobinCache := hd.refreshNodes.nodes
  refine ⟨hnodes ▸ hexact.nodup, fun p => ?_⟩
  rw [hnodes, hexact.mem]
  simp [EtcdDiscoverySet.matchesRule]

/-- Contents that stay keep the index current. -/
theorem DefaultCurrent.of_content (hd : DefaultCurrent cfg m) {m' : ServiceDiscoveryModule}
    (hset : m'.globalDiscovery = m.globalDiscovery)
    (hcontent : ∀ r, m.heap.SameContent m'.heap r) : DefaultCurrent cfg m' := by
  unfold DefaultCurrent at hd ⊢
  rw [hset]
  exact hd.of_sameInfo (fun p => (hcontent p).sameInfo)

theorem DefaultCurrent.removeNode (hd : DefaultCurrent cfg m) (q : NodePtr) :
    DefaultCurrent cfg (m.removeNode q) := by
  unfold DefaultCurrent at hd ⊢
  simp only [ServiceDiscoveryModule.removeNode]
  rcases EtcdDiscoverySet.removeNode_eq_or_cleared m.heap m.globalDiscovery q with h | h
  · rw [h]
    exact hd
  · rw [h]
    exact Or.inl (EtcdDiscoverySet.cleared_clearCache _)

theorem DefaultCurrent.deleteFound (hd : DefaultCurrent cfg m) (found : Option NodePtr) :
    DefaultCurrent cfg (m.deleteFound version found) := by
  cases found with
  | none => exact hd
  | some q =>
      have hd' : DefaultCurrent cfg (m.updateVersion q version true) :=
        hd.of_content rfl (m.heap.sameContent_updateVersion q version true)
      exact hd'.removeNode q

theorem defaultCurrent_addNode (p : NodePtr) : DefaultCurrent cfg (m.addNode p) := by
  refine Or.inl ?_
  simp only [addNode]
  rw [(EtcdDiscoverySet.addNode_caches m.heap m.globalDiscovery p).1]
  exact EtcdDiscoverySet.cleared_clearCache _

/-! ## What one event does -/

/-- The invariants of the module. -/
structure Valid (cfg : HashConfig) (m : ServiceDiscoveryModule) : Prop where
  index : IndexInv m.heap m.globalDiscovery
  allocated : ∀ p, m.globalDiscovery.Live p → p < m.nextNode
  default : DefaultCurrent cfg m

/-- The nodes that a deciding event takes out of the indexes, unless it stores itself in them. -/
def gone (m : ServiceDiscoveryModule) (event : NodeInfoT) (r : NodePtr) : Prop :=
  m.decision event ≠ .ignore ∧
    (m.byId event.nodeDiscovery.id = some r ∨ m.byName event.nodeDiscovery.name = some r)

/-- The module `m'` is `m` after an event: the node `stored` has the content of the event and is
    filed under its keys, the nodes `gone` are not filed any more, everything else stays. -/
structure Merged (m m' : ServiceDiscoveryModule) (event : NodeInfoT) (stored : Option NodePtr)
    (gone : NodePtr → Prop) : Prop where
  id_entry : ∀ k r, m'.byId k = some r ↔
    (stored = some r ∧ k = event.nodeDiscovery.id ∧ k ≠ 0) ∨
      (stored ≠ some r ∧ m.byId k = some r ∧ ¬ gone r)
  name_entry : ∀ n r, m'.byName n = some r ↔
    (stored = some r ∧ n = event.nodeDiscovery.name ∧ n ≠ []) ∨
      (stored ≠ some r ∧ m.byName n = some r ∧ ¬ gone r)
  content : ∀ r, stored ≠ some r → m.heap.SameContent m'.heap r
  info : ∀ p, stored = some p → (m'.heap p).nodeInfo = event.nodeDiscovery
  context : ∀ p, stored = some p → (m'.heap p).contextAddr = event.contextAddr

/-- A node overwritten under all its keys is only out of place up to itself after `copy_from`. -/
theorem indexInvExcept_overwrite (h : IndexInv m.heap m.globalDiscovery) {p : NodePtr}
    (hid : (m.heap p).id ≠ 0 → (m.heap p).id = event.nodeDiscovery.id)
    (hname : (m.heap p).name ≠ [] → (m.heap p).name = event.nodeDiscovery.name) :
    IndexInvExcept (m.copyFrom cfg p event version).heap m.globalDiscovery p := by
  have hcopy := (copyFrom_self cfg m event version p).1
  have hrest := copyFrom_of_ne cfg m event version p
  refine ⟨⟨fun k r hk => ?_, fun n r hn => ?_⟩, fun k r hrp hk hne => ?_, fun n r hrp hn hne => ?_⟩
  · obtain ⟨hk0, hkey⟩ := h.id_key k r hk
    by_cases hrp : r = p
    · subst hrp
      refine ⟨hk0, ?_⟩
      rw [EtcdDiscoveryNode.id, hcopy, ← hid (by rw [hkey]; exact hk0), hkey]
    · exact ⟨hk0, by rw [EtcdDiscoveryNode.id, (hrest r hrp).info]; exact hkey⟩
  · obtain ⟨hn0, hkey⟩ := h.name_key n r hn
    by_cases hrp : r = p
    · subst hrp
      refine ⟨hn0, ?_⟩
      rw [EtcdDiscoveryNode.name, hcopy, ← hname (by rw [hkey]; exact hn0), hkey]
    · exact ⟨hn0, by rw [EtcdDiscoveryNode.name, (hrest r hrp).info]; exact hkey⟩
  · rw [EtcdDiscoveryNode.name, (hrest r hrp).info] at hne ⊢
    exact h.id_to_name k r hk hne
  · rw [EtcdDiscoveryNode.id, (hrest r hrp).info] at hne ⊢
    exact h.name_to_id n r hn hne

/-- A new node is in neither index. -/
theorem indexInvExcept_fresh (hv : Valid cfg m) :
    IndexInvExcept (m.makeNode.copyFrom cfg m.nextNode event version).heap
      m.makeNode.globalDiscovery m.nextNode := by
  refine (hv.index.except m.nextNode).congr fun p hp => ?_
  have hpn : p ≠ m.nextNode := Nat.ne_of_lt (hv.allocated p hp)
  have hinfo : ((m.makeNode.copyFrom cfg m.nextNode event version).heap p).nodeInfo =
      (m.heap p).nodeInfo :=
    (copyFrom_of_ne cfg m.makeNode event version m.nextNode p hpn).info.trans
      (m.heap.sameContent_update hpn _).info
  rw [EtcdDiscoveryNode.id, EtcdDiscoveryNode.name, hinfo]
  exact ⟨rfl, rfl⟩

/-- The node to overwrite was found by a lookup, and may be overwritten. -/
theorem chooseNewInst_overwrite {a b : Option NodePtr} {p : NodePtr}
    (h : m.chooseNewInst event a b = some (some p)) :
    (a = some p ∨ b = some p) ∧ m.overwritable event p = true := by
  unfold chooseNewInst at h
  split at h
  · simp at h
  · split at h
    · next ho =>
        rw [Option.some.inj h] at ho
        exact ⟨Or.inl (Option.some.inj h), ho⟩
    · split at h
      · next ho =>
          rw [Option.some.inj h] at ho
          exact ⟨Or.inr (Option.some.inj h), ho⟩
      · simp at h

/-- A node the handler overwrites was found by a lookup, and may be overwritten. -/
theorem found_of_overwrite {p : NodePtr} (h : m.decision event = .overwrite p) :
    (m.byId event.nodeDiscovery.id = some p ∨ m.byName event.nodeDiscovery.name = some p) ∧
      m.overwritable event p = true := by
  unfold decision at h
  simp only at h
  split at h
  · cases ha : event.action with
    | delete =>
        cases hp : m.byId event.nodeDiscovery.id with
        | none => simp [ha, hp] at h
        | some q => by_cases hc : m.sameContext event q = true <;> simp [ha, hp, hc] at h
    | put =>
        cases hp : m.byId event.nodeDiscovery.id with
        | none => simp [ha, hp] at h
        | some q =>
            by_cases ho : m.overwritable event q = true
            · simp only [ha, hp, ho, if_true, Decision.overwrite.injEq] at h
              subst h
              exact ⟨Or.inl rfl, ho⟩
            · simp [ha, hp, ho] at h
  · cases ha : event.action with
    | delete =>
        rw [ha] at h
        simp only at h
        split at h <;> simp at h
    | put =>
        rw [ha] at h
        simp only at h
        split at h
        · simp at h
        · simp at h
        · next q hc =>
            rw [Decision.overwrite.inj h] at hc
            exact chooseNewInst_overwrite hc

theorem merged_of_without {m m' : ServiceDiscoveryModule} {gone : NodePtr → Prop}
    (hw : Without m m' gone) (event : NodeInfoT) : Merged m m' event none gone where
  id_entry := fun k r => by simp [hw.id_entry]
  name_entry := fun n r => by simp [hw.name_entry]
  content := fun r _ => hw.content r
  info := fun p hp => by simp at hp
  context := fun p hp => by simp at hp

theorem Without.live {m m' : ServiceDiscoveryModule} {gone : NodePtr → Prop}
    (hw : Without m m' gone) {r : NodePtr} (hl : m'.globalDiscovery.Live r) :
    m.globalDiscovery.Live r := by
  rcases hl with ⟨k, hk⟩ | ⟨n, hn⟩
  · exact Or.inl ⟨k, ((hw.id_entry k r).1 hk).1⟩
  · exact Or.inr ⟨n, ((hw.name_entry n r).1 hn).1⟩

theorem Stores.live {m m' : ServiceDiscoveryModule} {p : NodePtr} (hs : Stores m m' event p)
    {r : NodePtr} (hl : m'.globalDiscovery.Live r) : r = p ∨ m.globalDiscovery.Live r := by
  rcases hl with ⟨k, hk⟩ | ⟨n, hn⟩
  · rcases (hs.id_entry k r).1 hk with ⟨hrp, _⟩ | ⟨_, hk, _⟩
    · exact Or.inl hrp
    · exact Or.inr (Or.inl ⟨k, hk⟩)
  · rcases (hs.name_entry n r).1 hn with ⟨hrp, _⟩ | ⟨_, hn, _⟩
    · exact Or.inl hrp
    · exact Or.inr (Or.inr ⟨n, hn⟩)

theorem merged_of_stores {m m' : ServiceDiscoveryModule} {p : NodePtr} {gone : NodePtr → Prop}
    (hs : Stores m m' event p)
    (hgone : ∀ r, gone r ↔
      m.byId event.nodeDiscovery.id = some r ∨ m.byName event.nodeDiscovery.name = some r) :
    Merged m m' event (some p) gone where
  id_entry := fun k r => by
    rw [hs.id_entry, hgone, not_or]
    simp [eq_comm]
  name_entry := fun n r => by
    rw [hs.name_entry, hgone, not_or]
    simp [eq_comm]
  content := fun r hr => hs.content r (fun he => hr (he ▸ rfl))
  info := fun q hq => Option.some.inj hq ▸ hs.info
  context := fun q hq => Option.some.inj hq ▸ hs.context

/-- **What one event does**, unless it rekeys a node in place: the invariants hold afterwards, and
    the entries and contents are those of `Merged`. -/
theorem mergeEvent_spec (hv : Valid cfg m) (hr : ¬ m.RekeysInPlace event)
    (version : EtcdDataVersion) :
    Valid cfg (m.mergeEvent cfg event version).module ∧
      Merged m (m.mergeEvent cfg event version).module event (m.stored event) (m.gone event) := by
  cases hdec : m.decision event with
  | ignore =>
      obtain ⟨hset, hnext, hcontent⟩ := mergeEvent_of_ignore hdec
      have hw : Without m (m.mergeEvent cfg event version).module (m.gone event) :=
        Without.of_set_eq hset hnext hcontent (fun r hg => hg.1 hdec)
      refine ⟨⟨hw.indexInv hv.index, fun p hp => ?_, hv.default.of_content hset hcontent⟩,
        ?_⟩
      · rw [hw.next]
        exact hv.allocated p (hw.live hp)
      · rw [stored, hdec]
        exact merged_of_without hw event
  | remove =>
      obtain ⟨found, hfound, hm'⟩ := @mergeEvent_of_remove cfg m event version hdec
      have hw1 := without_deleteFound hv.index.toIndexSound version
        (m.byId event.nodeDiscovery.id)
      have hi1 := hw1.indexInv hv.index
      have hw2 := hw1.trans (without_deleteFound hi1.toIndexSound version found)
      rw [← hm'] at hw2
      have hw : Without m _ (m.gone event) := hw2.congr (fun r => by
        rcases hfound with rfl | ⟨rfl, heq⟩
        · simp [gone, hdec]
        · simp [gone, hdec, heq])
      refine ⟨⟨hw.indexInv hv.index, fun p hp => ?_, ?_⟩, ?_⟩
      · rw [hw.next]
        exact hv.allocated p (hw.live hp)
      · rw [hm']
        exact (hv.default.deleteFound _).deleteFound found
      · rw [stored, hdec]
        exact merged_of_without hw event
  | overwrite p =>
      have hkeys := fun hne => hr ⟨p, hdec, hne⟩
      have hs : Stores m (m.mergeEvent cfg event version).module event p := by
        rw [mergeEvent_of_overwrite hdec]
        exact stores_storeNode (indexInvExcept_overwrite hv.index
          (fun h0 => by_contra fun hne => hkeys (Or.inl ⟨h0, hne⟩))
          (fun h0 => by_contra fun hne => hkeys (Or.inr ⟨h0, hne⟩)))
      have hlive : m.globalDiscovery.Live p := by
        rcases (found_of_overwrite hdec).1 with hp | hp
        · exact Or.inl ⟨_, hp⟩
        · exact Or.inr ⟨_, hp⟩
      refine ⟨⟨hs.index, fun r hl => ?_, ?_⟩, ?_⟩
      · rw [hs.next]
        rcases hs.live hl with rfl | hl
        · exact hv.allocated r hlive
        · exact hv.allocated r hl
      · rw [mergeEvent_of_overwrite hdec]
        exact defaultCurrent_addNode p
      · rw [stored, hdec]
        exact merged_of_stores hs
          (fun r => ⟨fun hg => hg.2, fun hg => ⟨by simp [hdec], hg⟩⟩)
  | fresh =>
      have hs : Stores m.makeNode (m.mergeEvent cfg event version).module event m.nextNode := by
        rw [mergeEvent_of_fresh hdec]
        exact stores_storeNode (indexInvExcept_fresh hv)
      refine ⟨⟨hs.index, fun r hl => ?_, ?_⟩, ?_⟩
      · rw [hs.next]
        rcases hs.live hl with rfl | hl
        · exact Nat.lt_succ_self _
        · exact Nat.lt_succ_of_lt (hv.allocated r hl)
      · rw [mergeEvent_of_fresh hdec]
        exact defaultCurrent_addNode m.nextNode
      · rw [stored, hdec]
        have hmerged : Merged m.makeNode (m.mergeEvent cfg event version).module event
            (some m.nextNode) (m.gone event) :=
          merged_of_stores hs (fun r => ⟨fun hg => hg.2, fun hg => ⟨by simp [hdec], hg⟩⟩)
        refine ⟨hmerged.id_entry, hmerged.name_entry, fun r hrn => ?_, hmerged.info,
          hmerged.context⟩
        have hne : r ≠ m.nextNode := fun he => hrn (by rw [he])
        exact (m.heap.sameContent_update hne _).trans (hmerged.content r hrn)

/-! ## An event that rekeys in place -/

/-- The entries of the stored node survive the block that stores it. -/
theorem storeNode_keeps (cfg : HashConfig) (m : ServiceDiscoveryModule) (event : NodeInfoT)
    (version : EtcdDataVersion) (a b : Option NodePtr) (p : NodePtr) :
    (∀ k, m.byId k = some p → (m.storeNode cfg event version a b p).byId k = some p) ∧
      (∀ n, m.byName n = some p → (m.storeNode cfg event version a b p).byName n = some p) ∧
      ((m.storeNode cfg event version a b p).heap p).nodeInfo = event.nodeDiscovery := by
  have hremove : ∀ (m : ServiceDiscoveryModule) (other : Option NodePtr),
      (∀ k, m.byId k = some p → (m.removeOther version p other).byId k = some p) ∧
        (∀ n, m.byName n = some p → (m.removeOther version p other).byName n = some p) ∧
        ((m.removeOther version p other).heap p).nodeInfo = (m.heap p).nodeInfo := by
    intro m other
    cases other with
    | none => exact ⟨fun _ hk => hk, fun _ hn => hn, rfl⟩
    | some q =>
        simp only [removeOther]
        split
        · next hqp =>
            have hne : some p ≠ some q := fun he => hqp (Option.some.inj he).symm
            refine ⟨fun k hk => ?_, fun n hn => ?_, ?_⟩
            · refine (EtcdDiscoverySet.getNodeById_removeNode _ _ _ k).trans ?_
              rw [if_neg (fun hc => hne (hk.symm.trans hc.2.2))]
              exact hk
            · refine (EtcdDiscoverySet.getNodeByName_removeNode _ _ _ n).trans ?_
              rw [if_neg (fun hc => hne (hn.symm.trans hc.2.2))]
              exact hn
            · exact (m.heap.sameContent_updateVersion q version false p).info
        · exact ⟨fun _ hk => hk, fun _ hn => hn, rfl⟩
  have hadd : ∀ m : ServiceDiscoveryModule,
      (∀ k, m.byId k = some p → (m.addNode p).byId k = some p) ∧
        (∀ n, m.byName n = some p → (m.addNode p).byName n = some p) := by
    intro m
    refine ⟨fun k hk => ?_, fun n hn => ?_⟩
    · refine (EtcdDiscoverySet.getNodeById_addNode _ _ _ k).trans ?_
      split
      · rfl
      · rw [if_neg (fun hc => hc.2.2 hk)]
        exact hk
    · refine (EtcdDiscoverySet.getNodeByName_addNode _ _ _ n).trans ?_
      split
      · rfl
      · rw [if_neg (fun hc => hc.2.2 hn)]
        exact hn
  obtain ⟨hid1, hname1, hinfo1⟩ := hremove (m.copyFrom cfg p event version) a
  obtain ⟨hid2, hname2, hinfo2⟩ :=
    hremove ((m.copyFrom cfg p event version).removeOther version p a) b
  refine ⟨fun k hk => (hadd _).1 k (hid2 k (hid1 k hk)),
    fun n hn => (hadd _).2 n (hname2 n (hname1 n hn)), ?_⟩
  exact hinfo2.trans (hinfo1.trans (copyFrom_self cfg m event version p).1)

/-- **An event that rekeys in place breaks the index invariant.** -/
theorem not_indexInv_of_rekeysInPlace (h : IndexInv m.heap m.globalDiscovery)
    (hr : m.RekeysInPlace event) (version : EtcdDataVersion) :
    ¬ IndexInv (m.mergeEvent cfg event version).module.heap
        (m.mergeEvent cfg event version).module.globalDiscovery := by
  obtain ⟨p, hdec, hkeys⟩ := hr
  rw [mergeEvent_of_overwrite hdec]
  obtain ⟨hid, hname, hinfo⟩ := storeNode_keeps cfg m event version
    (m.byId event.nodeDiscovery.id) (m.byName event.nodeDiscovery.name) p
  intro h'
  -- the overwritten node was filed under its own keys
  rcases hkeys with ⟨h0, hne⟩ | ⟨h0, hne⟩
  · have hold : m.byId (m.heap p).id = some p := by
      rcases (found_of_overwrite hdec).1 with hp | hp
      · rw [(h.id_key _ p hp).2]
        exact hp
      · exact h.name_to_id _ p hp h0
    have := (h'.id_key _ p (hid _ hold)).2
    rw [EtcdDiscoveryNode.id, hinfo] at this
    exact hne this.symm
  · have hold : m.byName (m.heap p).name = some p := by
      rcases (found_of_overwrite hdec).1 with hp | hp
      · exact h.id_to_name _ p hp h0
      · rw [(h.name_key _ p hp).2]
        exact hp
    have := (h'.name_key _ p (hname _ hold)).2
    rw [EtcdDiscoveryNode.name, hinfo] at this
    exact hne this.symm

/-! ## Runs of events -/

theorem valid_empty (cfg : HashConfig) : Valid cfg {} where
  index := IndexInv.empty _
  allocated := by
    rintro p (⟨k, hk⟩ | ⟨n, hn⟩)
    · simp [EtcdDiscoverySet.getNodeById] at hk
    · simp [EtcdDiscoverySet.getNodeByName] at hn
  default := Or.inl EtcdDiscoverySet.cleared_empty

/-- **The index invariant over runs.** In every run of Put and Delete events of any contexts from
    the empty set, the two indexes agree and `get_sorted_nodes()` lists every live node exactly
    once in every state passed through, if and only if no event rekeys a node in place. -/
theorem always_indexInv_iff (cfg : HashConfig) (events : List (NodeInfoT × EtcdDataVersion)) :
    Run.Always (step cfg) (fun m => IndexInv m.heap m.globalDiscovery ∧ ListsLiveOnce cfg m) {}
        events ↔
      Run.StepsMeet (step cfg) (fun m input => ¬ m.RekeysInPlace input.1) {} events := by
  have hdom : Run.StepsMeet (step cfg) (fun _ _ => True) {} events :=
    Run.stepsMeet_of_forall _ (fun _ _ => trivial) _ _
  refine Run.always_iff_stepsMeet (step cfg)
    (fun m input (hv : Valid cfg m) _ _ hc => (mergeEvent_spec hv hc input.2).1)
    (fun m input hv _ _ => ?_) (valid_empty cfg) ?_ hdom
  · constructor
    · exact fun hp hr => not_indexInv_of_rekeysInPlace hv.index hr input.2 hp.1
    · intro hc
      have hv' := (mergeEvent_spec hv hc input.2).1
      exact ⟨hv'.index, hv'.default.listsLiveOnce hv'.index⟩
  · have hv := valid_empty cfg
    exact ⟨hv.index, hv.default.listsLiveOnce hv.index⟩

/-- Two servers, and a Put that carries the id of the first and the name of the second. -/
def crossingEvents : List (NodeInfoT × EtcdDataVersion) :=
  [({ nodeDiscovery := { id := 1, name := [97] }, contextAddr := 5 }, {}),
    ({ nodeDiscovery := { id := 2, name := [98] }, contextAddr := 5 }, {}),
    ({ nodeDiscovery := { id := 1, name := [98] }, contextAddr := 5 }, {})]

/-- After `crossingEvents` the first name leads to a node with the second name, and
    `get_sorted_nodes()` lists that node twice. -/
theorem crossingEvents_breaks_index :
    let m := Run.run (step DiscoveryState.seedConfig) {} crossingEvents
    m.byName [97] = some 0 ∧ (m.heap 0).name = [98] ∧
      (m.globalDiscovery.getSortedNodes DiscoveryState.seedConfig m.heap none).2 = [0, 0] ∧
      ¬ Run.Always (step DiscoveryState.seedConfig)
        (fun m => IndexInv m.heap m.globalDiscovery ∧ ListsLiveOnce DiscoveryState.seedConfig m) {}
        crossingEvents := by
  refine ⟨by decide +kernel, by decide +kernel, by decide +kernel, fun h => ?_⟩
  have hnodup := (h.last (step DiscoveryState.seedConfig)).2.1
  revert hnodup
  decide +kernel

end ServiceDiscoveryModule

end LibAtapp
