import LibAtapp.Modules.EventInvariant

set_option autoImplicit false

/-! # Events and queries in any reachable state

A discovery set is reached by events and queries in any order, also by events that rekey a node in
place. This file says what an event does without the index invariant (`Frame`): no entry appears
but those of the node it stores itself in. Addresses stay allocated and the default index stays
current in every run (`sound_run`). -/

namespace LibAtapp

namespace ServiceDiscoveryModule

variable {cfg : HashConfig} {m : ServiceDiscoveryModule} {event : NodeInfoT}
  {version : EtcdDataVersion}

/-! ## Erasing entries -/

/-- The module `m'` is `m` with some entries erased: no entry appears and all contents stay. -/
structure Erases (m m' : ServiceDiscoveryModule) : Prop where
  id_entry : ∀ k r, m'.byId k = some r → m.byId k = some r
  name_entry : ∀ n r, m'.byName n = some r → m.byName n = some r
  content : ∀ r, m.heap.SameContent m'.heap r
  next : m'.nextNode = m.nextNode

theorem Erases.refl (m : ServiceDiscoveryModule) : Erases m m where
  id_entry := fun _ _ h => h
  name_entry := fun _ _ h => h
  content := fun r => NodeHeap.SameContent.refl _ r
  next := rfl

theorem Erases.trans {m m' m'' : ServiceDiscoveryModule} (h : Erases m m') (h' : Erases m' m'') :
    Erases m m'' where
  id_entry := fun k r hk => h.id_entry k r (h'.id_entry k r hk)
  name_entry := fun n r hn => h.name_entry n r (h'.name_entry n r hn)
  content := fun r => (h.content r).trans (h'.content r)
  next := h'.next.trans h.next

theorem Erases.live {m m' : ServiceDiscoveryModule} (h : Erases m m') {r : NodePtr}
    (hlive : m'.globalDiscovery.Live r) : m.globalDiscovery.Live r := by
  rcases hlive with ⟨k, hk⟩ | ⟨n, hn⟩
  · exact Or.inl ⟨k, h.id_entry k r hk⟩
  · exact Or.inr ⟨n, h.name_entry n r hn⟩

/-- Updating the version of a node and removing it. -/
theorem erases_removeNode (q : NodePtr) (version : EtcdDataVersion) (upgrade : Bool) :
    Erases m ((m.updateVersion q version upgrade).removeNode q) where
  id_entry := fun k r hk => by
    simp only [byId, removeNode, EtcdDiscoverySet.getNodeById_removeNode] at hk
    split at hk
    · cases hk
    · exact hk
  name_entry := fun n r hn => by
    simp only [byName, removeNode, EtcdDiscoverySet.getNodeByName_removeNode] at hn
    split at hn
    · cases hn
    · exact hn
  content := m.heap.sameContent_updateVersion q version upgrade
  next := rfl

theorem erases_deleteFound (version : EtcdDataVersion) (found : Option NodePtr) :
    Erases m (m.deleteFound version found) := by
  cases found with
  | none => exact Erases.refl m
  | some q => exact erases_removeNode q version true

theorem erases_removeOther (version : EtcdDataVersion) (p : NodePtr) (other : Option NodePtr) :
    Erases m (m.removeOther version p other) := by
  cases other with
  | none => exact Erases.refl m
  | some q =>
      simp only [removeOther]
      split
      · exact erases_removeNode q version false
      · exact Erases.refl m

/-! ## What an event leaves -/

/-- The module `m'` is `m` after an event that is stored in `stored`: only this node gets entries,
    under the keys of the event, and only its content changes. -/
structure Frame (m m' : ServiceDiscoveryModule) (event : NodeInfoT) (stored : Option NodePtr) :
    Prop where
  id_entry : ∀ k r, m'.byId k = some r →
    (stored = some r ∧ k = event.nodeDiscovery.id) ∨ m.byId k = some r
  name_entry : ∀ n r, m'.byName n = some r →
    (stored = some r ∧ n = event.nodeDiscovery.name) ∨ m.byName n = some r
  content : ∀ r, stored ≠ some r → m.heap.SameContent m'.heap r
  info : ∀ p, stored = some p → (m'.heap p).nodeInfo = event.nodeDiscovery
  context : ∀ p, stored = some p → (m'.heap p).contextAddr = event.contextAddr

theorem Frame.live {m' : ServiceDiscoveryModule} {stored : Option NodePtr}
    (hf : Frame m m' event stored) {r : NodePtr} (hlive : m'.globalDiscovery.Live r) :
    stored = some r ∨ m.globalDiscovery.Live r := by
  rcases hlive with ⟨k, hk⟩ | ⟨n, hn⟩
  · rcases hf.id_entry k r hk with h | h
    · exact Or.inl h.1
    · exact Or.inr (Or.inl ⟨k, h⟩)
  · rcases hf.name_entry n r hn with h | h
    · exact Or.inl h.1
    · exact Or.inr (Or.inr ⟨n, h⟩)

theorem Erases.frame {m m' : ServiceDiscoveryModule} (h : Erases m m') (event : NodeInfoT) :
    Frame m m' event none where
  id_entry := fun k r hk => Or.inr (h.id_entry k r hk)
  name_entry := fun n r hn => Or.inr (h.name_entry n r hn)
  content := fun r _ => h.content r
  info := fun p hp => by cases hp
  context := fun p hp => by cases hp

/-- The module before the block that stores an event adds the node. -/
def beforeAdd (cfg : HashConfig) (m : ServiceDiscoveryModule) (event : NodeInfoT)
    (version : EtcdDataVersion) (a b : Option NodePtr) (p : NodePtr) : ServiceDiscoveryModule :=
  ((m.copyFrom cfg p event version).removeOther version p a).removeOther version p b

theorem storeNode_eq (a b : Option NodePtr) (p : NodePtr) :
    m.storeNode cfg event version a b p =
      (m.beforeAdd cfg event version a b p).addNode p := rfl

theorem erases_beforeAdd (cfg : HashConfig) (m : ServiceDiscoveryModule) (event : NodeInfoT)
    (version : EtcdDataVersion) (a b : Option NodePtr) (p : NodePtr) :
    Erases (m.copyFrom cfg p event version) (m.beforeAdd cfg event version a b p) :=
  (erases_removeOther version p a).trans (erases_removeOther version p b)

/-- The node that is stored has the content of the event, the others keep theirs. -/
theorem beforeAdd_content (cfg : HashConfig) (m : ServiceDiscoveryModule) (event : NodeInfoT)
    (version : EtcdDataVersion) (a b : Option NodePtr) (p : NodePtr) :
    ((m.beforeAdd cfg event version a b p).heap p).nodeInfo = event.nodeDiscovery ∧
      ((m.beforeAdd cfg event version a b p).heap p).contextAddr = event.contextAddr ∧
      ∀ r, r ≠ p → m.heap.SameContent (m.beforeAdd cfg event version a b p).heap r := by
  obtain ⟨hinfo, hcontext⟩ := copyFrom_self cfg m event version p
  have herases := erases_beforeAdd cfg m event version a b p
  refine ⟨?_, ?_, fun r hr => ?_⟩
  · rw [(herases.content p).info, hinfo]
  · rw [(herases.content p).context, hcontext]
  · exact (copyFrom_of_ne cfg m event version p r hr).trans (herases.content r)

theorem frame_storeNode (a b : Option NodePtr) (p : NodePtr) :
    Frame m (m.storeNode cfg event version a b p) event (some p) := by
  obtain ⟨hinfo, hcontext, hrest⟩ :=
    beforeAdd_content cfg m event version a b p
  have herases := erases_beforeAdd cfg m event version a b p
  rw [storeNode_eq]
  generalize m.beforeAdd cfg event version a b p = m1 at hinfo hcontext hrest herases
  refine ⟨fun k r hk => ?_, fun n r hn => ?_, fun r hr => hrest r (fun h => hr (h ▸ rfl)),
    fun q hq => ?_, fun q hq => ?_⟩
  · simp only [byId, addNode, EtcdDiscoverySet.getNodeById_addNode] at hk
    split at hk
    · next hkey =>
        refine Or.inl ⟨hk, hkey.2.trans ?_⟩
        rw [EtcdDiscoveryNode.id, hinfo]
    · split at hk
      · cases hk
      · exact Or.inr (herases.id_entry k r hk)
  · simp only [byName, addNode, EtcdDiscoverySet.getNodeByName_addNode] at hn
    split at hn
    · next hkey =>
        refine Or.inl ⟨hn, hkey.2.trans ?_⟩
        rw [EtcdDiscoveryNode.name, hinfo]
    · split at hn
      · cases hn
      · exact Or.inr (herases.name_entry n r hn)
  · exact Option.some.inj hq ▸ hinfo
  · exact Option.some.inj hq ▸ hcontext

/-- **What an event does in any state.** -/
theorem frame_mergeEvent (cfg : HashConfig) (m : ServiceDiscoveryModule) (event : NodeInfoT)
    (version : EtcdDataVersion) :
    Frame m (m.mergeEvent cfg event version).module event (m.stored event) := by
  cases hdec : m.decision event with
  | ignore =>
      obtain ⟨hset, hnext, hcontent⟩ := @mergeEvent_of_ignore cfg m event version hdec
      have herases : Erases m (m.mergeEvent cfg event version).module :=
        ⟨fun k r hk => by rwa [byId, hset] at hk, fun n r hn => by rwa [byName, hset] at hn,
          hcontent, hnext⟩
      rw [stored, hdec]
      exact herases.frame event
  | remove =>
      obtain ⟨found, _, hm'⟩ := @mergeEvent_of_remove cfg m event version hdec
      rw [stored, hdec, hm']
      exact ((erases_deleteFound version _).trans (erases_deleteFound version found)).frame event
  | overwrite p =>
      rw [stored, hdec, mergeEvent_of_overwrite hdec]
      exact frame_storeNode _ _ p
  | fresh =>
      rw [stored, hdec, mergeEvent_of_fresh hdec]
      have hframe : Frame m.makeNode _ event (some m.nextNode) :=
        @frame_storeNode cfg m.makeNode event version (m.byId event.nodeDiscovery.id)
          (m.byName event.nodeDiscovery.name) m.nextNode
      refine ⟨hframe.id_entry, hframe.name_entry, fun r hr => ?_, hframe.info, hframe.context⟩
      have hne : r ≠ m.nextNode := fun heq => hr (by rw [heq])
      exact (m.heap.sameContent_update hne _).trans (hframe.content r hr)

/-! ## Addresses and the default index -/

/-- Filed nodes have addresses that were given out, and the default index is current. -/
structure Sound (cfg : HashConfig) (m : ServiceDiscoveryModule) : Prop where
  allocated : ∀ p, m.globalDiscovery.Live p → p < m.nextNode
  default : DefaultCurrent cfg m

theorem Sound.valid (h : Sound cfg m) (hindex : IndexInv m.heap m.globalDiscovery) :
    Valid cfg m where
  index := hindex
  allocated := h.allocated
  default := h.default

theorem nextNode_storeNode (a b : Option NodePtr) (p : NodePtr) :
    (m.storeNode cfg event version a b p).nextNode = m.nextNode :=
  (erases_beforeAdd cfg m event version a b p).next

/-- An event gives out at most one address, that of the new node it is stored in. -/
theorem nextNode_mergeEvent (cfg : HashConfig) (m : ServiceDiscoveryModule) (event : NodeInfoT)
    (version : EtcdDataVersion) :
    m.nextNode ≤ (m.mergeEvent cfg event version).module.nextNode ∧
      ∀ p, m.decision event = .fresh → m.stored event = some p →
        p < (m.mergeEvent cfg event version).module.nextNode := by
  cases hdec : m.decision event with
  | ignore =>
      obtain ⟨_, hnext, _⟩ := @mergeEvent_of_ignore cfg m event version hdec
      exact ⟨hnext.ge, fun p h => by cases h⟩
  | remove =>
      obtain ⟨found, _, hm'⟩ := @mergeEvent_of_remove cfg m event version hdec
      have herases := (erases_deleteFound (m := m) version
        (m.byId event.nodeDiscovery.id)).trans (erases_deleteFound version found)
      rw [hm', herases.next]
      exact ⟨Nat.le_refl _, fun p h => by cases h⟩
  | overwrite p =>
      rw [mergeEvent_of_overwrite hdec, nextNode_storeNode]
      exact ⟨Nat.le_refl _, fun p h => by cases h⟩
  | fresh =>
      rw [mergeEvent_of_fresh hdec, nextNode_storeNode]
      refine ⟨Nat.le_succ _, fun p _ hstored => ?_⟩
      rw [stored, hdec] at hstored
      rw [← Option.some.inj hstored]
      exact Nat.lt_succ_self _

theorem sound_mergeEvent (h : Sound cfg m) (event : NodeInfoT) (version : EtcdDataVersion) :
    Sound cfg (m.mergeEvent cfg event version).module := by
  have hnext := nextNode_mergeEvent cfg m event version
  refine ⟨fun r hlive => ?_, ?_⟩
  · have hold : ∀ q, m.globalDiscovery.Live q →
        q < (m.mergeEvent cfg event version).module.nextNode :=
      fun q hq => Nat.lt_of_lt_of_le (h.allocated q hq) hnext.1
    rcases (frame_mergeEvent cfg m event version).live hlive with hstored | hr
    · cases hdec : m.decision event with
      | ignore => simp [stored, hdec] at hstored
      | remove => simp [stored, hdec] at hstored
      | overwrite p =>
          -- a node that is overwritten was found
          have hp : m.stored event = some p := by rw [stored, hdec]
          rw [hp] at hstored
          rw [← Option.some.inj hstored]
          rcases (found_of_overwrite hdec).1 with hfound | hfound
          · exact hold p (Or.inl ⟨_, hfound⟩)
          · exact hold p (Or.inr ⟨_, hfound⟩)
      | fresh => exact hnext.2 r hdec hstored
    · exact hold r hr
  · cases hdec : m.decision event with
    | ignore =>
        obtain ⟨hset, _, hcontent⟩ := @mergeEvent_of_ignore cfg m event version hdec
        exact h.default.of_content hset hcontent
    | remove =>
        obtain ⟨found, _, hm'⟩ := @mergeEvent_of_remove cfg m event version hdec
        rw [hm']
        exact (h.default.deleteFound _).deleteFound found
    | overwrite p =>
        rw [mergeEvent_of_overwrite hdec]
        exact defaultCurrent_addNode p
    | fresh =>
        rw [mergeEvent_of_fresh hdec]
        exact defaultCurrent_addNode m.nextNode

/-! ## Runs -/

/-- What is done with a module: an event is merged, or its discovery set is queried. -/
inductive ModuleCall
  | event (event : NodeInfoT) (version : EtcdDataVersion)
  | getSortedNodes (rule : Option AtappMetadata)
  | getNodeByRandom (draw : Nat) (rule : Option AtappMetadata)
  | getNodeByRoundRobin (rule : Option AtappMetadata)
  | lowerBound (outputSize : Nat) (key : NodeHashType) (rule : Option AtappMetadata)
      (mode : EtcdDiscoverySet.SearchMode)

/-- The module after a call. -/
def call (cfg : HashConfig) (m : ServiceDiscoveryModule) : ModuleCall → ServiceDiscoveryModule
  | .event event version => m.step cfg (event, version)
  | .getSortedNodes rule =>
    { m with globalDiscovery := (m.globalDiscovery.getSortedNodes cfg m.heap rule).1 }
  | .getNodeByRandom draw rule =>
    { m with globalDiscovery := (m.globalDiscovery.getNodeByRandom cfg m.heap draw rule).1 }
  | .getNodeByRoundRobin rule =>
    { m with globalDiscovery := (m.globalDiscovery.getNodeByRoundRobin cfg m.heap rule).1 }
  | .lowerBound outputSize key rule mode =>
    { m with globalDiscovery :=
      (m.globalDiscovery.lowerBoundNodeHashByConsistentHash cfg m.heap outputSize key rule mode).1 }

/-- A query that keeps a current index current leaves the module as it has to be. -/
theorem sound_query {α : Type} (h : Sound cfg m) (rule : Option AtappMetadata)
    {f : IndexCacheType → IndexCacheType × α}
    (hf : ∀ c, EtcdDiscoverySet.Current cfg m.heap m.globalDiscovery rule c →
      EtcdDiscoverySet.Current cfg m.heap m.globalDiscovery rule (f c).1) :
    Sound cfg { m with globalDiscovery := (m.globalDiscovery.withIndexCache rule f).1 } where
  allocated := fun p hlive => h.allocated p (by
    simpa [EtcdDiscoverySet.Live, EtcdDiscoverySet.getNodeById,
      EtcdDiscoverySet.getNodeByName] using hlive)
  default := EtcdDiscoverySet.current_default_withIndexCache h.default hf

theorem sound_call (h : Sound cfg m) (c : ModuleCall) : Sound cfg (m.call cfg c) := by
  cases c with
  | event event version => exact sound_mergeEvent h event version
  | getSortedNodes rule => exact sound_query h rule (fun _ hc => Or.inr hc.refreshNodes)
  | getNodeByRandom draw rule => exact sound_query h rule (fun _ hc => Or.inr hc.refreshNodes)
  | getNodeByRoundRobin rule =>
      refine sound_query h rule (fun c hc => ?_)
      have hup := hc.refreshNodes
      simp only
      split
      · exact Or.inr hup
      · exact Or.inr ⟨hup.nodes, hup.ring, hup.refs, hup.compact⟩
  | lowerBound outputSize key rule mode =>
      simp only [call, EtcdDiscoverySet.lowerBoundNodeHashByConsistentHash]
      split
      · exact h
      · exact sound_query h rule (fun _ hc => Or.inr (hc.refreshRing mode.compact).1)

/-- In every run of events and queries addresses stay allocated and the default index current. -/
theorem sound_run (cfg : HashConfig) (calls : List ModuleCall) :
    Sound cfg (Run.run (call cfg) {} calls) := by
  have hempty := valid_empty cfg
  have hstep : ∀ m c, Sound cfg m → Sound cfg (call cfg m c) := fun m c h => sound_call h c
  exact Run.invariant_all (call cfg) hstep ⟨hempty.allocated, hempty.default⟩ calls

end ServiceDiscoveryModule

end LibAtapp
