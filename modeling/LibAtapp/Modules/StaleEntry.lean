import LibAtapp.Modules.HeldNodes
import LibAtapp.Modules.ModuleRuns

set_option autoImplicit false

/-! # What a rekeyed node leaves behind

A Put that overwrites a node in place under another name leaves the entry of the old name
(`Stale`). This entry never goes away while the set still holds the Put: what would take it away
takes the node away as well. So after such a Put the set is `Spoiled`, and events with other keys
do not mend it (`spoiled_put`, `spoiled_delete`): it never holds exactly a list of nodes with this
Put (`Spoiled.not_holdsExactly`). -/

namespace LibAtapp

namespace ServiceDiscoveryModule

variable {cfg : HashConfig} {m : ServiceDiscoveryModule} {event : NodeInfoT}
  {version : EtcdDataVersion} {context : Nat} {node : AtappDiscovery} {name : Bytes} {p : NodePtr}

/-- The node `p` has the content of `node` and is filed under its id, but also under a name that no
    filed node has. -/
structure Stale (context : Nat) (node : AtappDiscovery) (name : Bytes) (p : NodePtr)
    (m : ServiceDiscoveryModule) : Prop where
  filed : m.byId node.id = some p
  entry : m.byName name = some p
  info : AtappDiscovery.protobufEqual (m.heap p).nodeInfo node = true
  context : (m.heap p).contextAddr = context
  unnamed : ∀ r, m.globalDiscovery.Live r → (m.heap r).name ≠ name

/-- The set lost `node`, or holds it beside a stale entry. -/
def Spoiled (context : Nat) (node : AtappDiscovery) (name : Bytes) (m : ServiceDiscoveryModule) :
    Prop :=
  ¬ m.Holds node ∨ ∃ p, Stale context node name p m

/-- A spoiled set does not hold exactly a list with the node. -/
theorem Spoiled.not_holdsExactly {nodes : List AtappDiscovery}
    (h : Spoiled context node name m) (hnode : node ∈ nodes) (hne : name ≠ node.name)
    (hname : name ≠ []) : ¬ m.HoldsExactly nodes := by
  intro hexact
  rcases h with hlost | ⟨p, hstale⟩
  · exact hlost (hexact.holds node hnode)
  · obtain ⟨other, hother, hkey⟩ := hexact.names name p hstale.entry
    obtain ⟨_, q, _, hq, heq⟩ := hexact.holds other hother
    have hqp : m.byName name = some q := hkey ▸ hq (hkey.symm ▸ hname)
    rw [hstale.entry] at hqp
    rw [← Option.some.inj hqp] at heq
    -- the stale node would have both names
    have hone := (AtappDiscovery.protobufEqual_keys heq).2
    have htwo := (AtappDiscovery.protobufEqual_keys hstale.info).2
    exact hne (hkey.symm.trans (hone.symm.trans htwo))

/-! ## Entries that survive -/

/-- The entry under a name survives the removal of any node if its own node has another name. -/
theorem byName_removeNode_of_ne (h : m.byName name = some p) (hne : (m.heap p).name ≠ name)
    (q : NodePtr) (version : EtcdDataVersion) (upgrade : Bool) :
    ((m.updateVersion q version upgrade).removeNode q).byName name = some p := by
  have hcontent := m.heap.sameContent_updateVersion q version upgrade q
  simp only [byName, removeNode, EtcdDiscoverySet.getNodeByName_removeNode]
  rw [if_neg]
  · exact h
  · rintro ⟨hkey, _, hq⟩
    have hpq : p = q := Option.some.inj (h.symm.trans hq)
    subst hpq
    refine hne (hkey.trans ?_).symm
    rw [EtcdDiscoveryNode.name, EtcdDiscoveryNode.name]
    exact congrArg AtappDiscovery.name hcontent.info

theorem byName_deleteFound_of_ne (h : m.byName name = some p) (hne : (m.heap p).name ≠ name)
    (version : EtcdDataVersion) (found : Option NodePtr) :
    (m.deleteFound version found).byName name = some p := by
  cases found with
  | none => exact h
  | some q => exact byName_removeNode_of_ne h hne q version true

theorem byName_removeOther_of_ne (h : m.byName name = some p) (hne : (m.heap p).name ≠ name)
    (version : EtcdDataVersion) (x : NodePtr) (other : Option NodePtr) :
    (m.removeOther version x other).byName name = some p := by
  cases other with
  | none => exact h
  | some q =>
      simp only [removeOther]
      split
      · exact byName_removeNode_of_ne h hne q version false
      · exact h

/-- The entry under a name that neither the event nor any filed node has survives a store. -/
theorem byName_storeNode_of_ne {x : NodePtr} (a b : Option NodePtr) (h : m.byName name = some p)
    (hpx : p ≠ x) (hevent : event.nodeDiscovery.name ≠ name)
    (hunnamed : ∀ r, m.globalDiscovery.Live r → (m.heap r).name ≠ name) :
    (m.storeNode cfg event version a b x).byName name = some p := by
  obtain ⟨hinfo, _, hrest⟩ :=
    beforeAdd_content cfg m event version a b x
  have herases := erases_beforeAdd cfg m event version a b x
  have hcopy : ((m.copyFrom cfg x event version).heap p).name ≠ name := by
    rw [EtcdDiscoveryNode.name, (copyFrom_of_ne cfg m event version x p hpx).info]
    exact hunnamed p (Or.inr ⟨name, h⟩)
  have hkept : (m.beforeAdd cfg event version a b x).byName name = some p := by
    have hfirst : ((m.copyFrom cfg x event version).removeOther version x a).byName name =
        some p := byName_removeOther_of_ne (m := m.copyFrom cfg x event version) h hcopy version x a
    refine byName_removeOther_of_ne hfirst ?_ version x b
    rw [EtcdDiscoveryNode.name, ((erases_removeOther version x a).content p).info]
    exact hcopy
  have hfiled : ∀ r, (m.beforeAdd cfg event version a b x).globalDiscovery.Live r →
      ((m.beforeAdd cfg event version a b x).heap r).name ≠ name := by
    intro r hlive
    by_cases hrx : r = x
    · subst hrx
      rw [EtcdDiscoveryNode.name, hinfo]
      exact hevent
    · rw [EtcdDiscoveryNode.name, (hrest r hrx).info]
      exact hunnamed r (herases.live hlive)
  rw [storeNode_eq]
  generalize m.beforeAdd cfg event version a b x = m1 at hinfo hkept hfiled
  simp only [byName, addNode, EtcdDiscoverySet.getNodeByName_addNode]
  rw [if_neg, if_neg]
  · exact hkept
  · rintro ⟨h0, hold, _⟩
    rcases addNodeOldName_spec m1.heap m1.globalDiscovery x with hnone | ⟨q, _, _, hq, hqname⟩
    · exact h0 (hold.trans hnone)
    · exact hfiled q (Or.inl ⟨_, hq⟩) (hqname.trans hold.symm)
  · rintro ⟨_, hkey⟩
    refine hevent (hkey.trans ?_).symm
    rw [EtcdDiscoveryNode.name, hinfo]

theorem byId_removeNode_self (h0 : (m.heap p).id ≠ 0) (version : EtcdDataVersion)
    (upgrade : Bool) :
    ((m.updateVersion p version upgrade).removeNode p).byId (m.heap p).id ≠ some p := by
  have hid : ((m.updateVersion p version upgrade).heap p).id = (m.heap p).id :=
    congrArg AtappDiscovery.id (m.heap.sameContent_updateVersion p version upgrade p).info
  rw [byId, removeNode, EtcdDiscoverySet.getNodeById_removeNode]
  split
  · exact fun h => by cases h
  · next hnot => exact fun hp => hnot ⟨hid.symm, h0, hp⟩

/-- A store takes a found node out of the id index, unless the event is stored in it. -/
theorem byId_storeNode_found {x : NodePtr} (a : Option NodePtr) (hpx : p ≠ x)
    (h0 : (m.heap p).id ≠ 0) :
    (m.storeNode cfg event version a (some p) x).byId (m.heap p).id ≠ some p := by
  have hid : (((m.copyFrom cfg x event version).removeOther version x a).heap p).id =
      (m.heap p).id := by
    rw [EtcdDiscoveryNode.id, ((erases_removeOther version x a).content p).info,
      (copyFrom_of_ne cfg m event version x p hpx).info]
  have hbefore : (m.beforeAdd cfg event version a (some p) x).byId (m.heap p).id ≠ some p := by
    rw [← hid] at h0 ⊢
    rw [beforeAdd, removeOther, if_pos hpx]
    exact byId_removeNode_self h0 version false
  intro hp
  rw [storeNode_eq, byId, addNode, EtcdDiscoverySet.getNodeById_addNode] at hp
  split at hp
  · exact hpx (Option.some.inj hp).symm
  · split at hp
    · cases hp
    · exact hbefore hp

/-! ## Events with other keys -/

/-- If the event is stored, it has another id and another name than the node. -/
def OtherKeys (stored : Option NodePtr) (event : NodeInfoT) (node : AtappDiscovery) : Prop :=
  ∀ r, stored = some r →
    event.nodeDiscovery.id ≠ node.id ∧ event.nodeDiscovery.name ≠ node.name

/-- What is held after an event with other keys was held before. -/
theorem Holds.before {m' : ServiceDiscoveryModule} {stored : Option NodePtr}
    (h : m'.Holds node) (hf : Frame m m' event stored) (hkeys : OtherKeys stored event node) :
    m.Holds node := by
  obtain ⟨hkeyed, x, hid, hname, heq⟩ := h
  have hx : stored ≠ some x := by
    intro hs
    rw [hf.info x hs] at heq
    exact (hkeys x hs).1 (AtappDiscovery.protobufEqual_keys heq).1
  refine ⟨hkeyed, x, fun h0 => ?_, fun h0 => ?_, ?_⟩
  · exact (hf.id_entry _ x (hid h0)).resolve_left (fun hs => hx hs.1)
  · exact (hf.name_entry _ x (hname h0)).resolve_left (fun hs => hx hs.1)
  · rwa [(hf.content x hx).info] at heq

/-- The stale node stays filed under its id as long as its node is held. -/
theorem Stale.kept {m' : ServiceDiscoveryModule} {stored : Option NodePtr}
    (hs : Stale context node name p m) (hf : Frame m m' event stored)
    (hkeys : OtherKeys stored event node) (h0 : node.id ≠ 0) (h : m'.Holds node) :
    stored ≠ some p ∧ m'.byId node.id = some p := by
  obtain ⟨_, x, hid, _, heq⟩ := h
  have hx : stored ≠ some x := by
    intro hs
    rw [hf.info x hs] at heq
    exact (hkeys x hs).1 (AtappDiscovery.protobufEqual_keys heq).1
  have hold : m.byId node.id = some x :=
    (hf.id_entry _ x (hid h0)).resolve_left (fun hs => hx hs.1)
  have hxp : x = p := Option.some.inj (hold.symm.trans hs.filed)
  subst hxp
  exact ⟨hx, hid h0⟩

/-- The stale entry is kept with everything that makes it stale, if it is not overwritten. -/
theorem Stale.of_frame {m' : ServiceDiscoveryModule} {stored : Option NodePtr}
    (hs : Stale context node name p m) (hf : Frame m m' event stored) (hp : stored ≠ some p)
    (hfiled : m'.byId node.id = some p) (hentry : m'.byName name = some p)
    (hevent : ∀ r, stored = some r → event.nodeDiscovery.name ≠ name) :
    Stale context node name p m' := by
  refine ⟨hfiled, hentry, ?_, ?_, fun r hlive => ?_⟩
  · rw [(hf.content p hp).info]
    exact hs.info
  · rw [(hf.content p hp).context]
    exact hs.context
  · by_cases hr : stored = some r
    · rw [EtcdDiscoveryNode.name, hf.info r hr]
      exact hevent r hr
    · rw [EtcdDiscoveryNode.name, (hf.content r hr).info]
      exact hs.unnamed r ((hf.live hlive).resolve_left hr)

/-- A Put with the stale name takes the stale node away. -/
theorem Stale.name_ne_of_put (hs : Stale context node name p m)
    (hctx : event.contextAddr = context) (hput : event.action = .put)
    (hid : event.nodeDiscovery.id ≠ node.id) (h0 : node.id ≠ 0)
    (hp : m.stored event ≠ some p)
    (hfiled : (m.mergeEvent cfg event version).module.byId node.id = some p) :
    event.nodeDiscovery.name ≠ name := by
  intro hname
  have hentry : m.byName event.nodeDiscovery.name = some p := hname.symm ▸ hs.entry
  have hpid : (m.heap p).id = node.id := (AtappDiscovery.protobufEqual_keys hs.info).1
  have hover : m.overwritable event p = true := by
    have hdiffer : AtappDiscovery.protobufEqual (m.heap p).nodeInfo event.nodeDiscovery = false := by
      rw [← Bool.not_eq_true]
      exact fun heq => hid ((AtappDiscovery.protobufEqual_keys heq).1.symm.trans hpid)
    simp [overwritable, sameContext, hdiffer, hs.context, hctx]
  -- the Put is stored in another node, and then the node found by name is removed
  cases hdec : m.decision event with
  | ignore =>
      rw [not_overwritable_of_ignored hput hdec (Or.inr hentry)] at hover
      cases hover
  | remove => exact decision_ne_remove_of_put hput hdec
  | overwrite x =>
      have hpx : p ≠ x := fun heq => hp (by rw [stored, hdec, heq])
      rw [mergeEvent_of_overwrite hdec, hentry, ← hpid] at hfiled
      exact byId_storeNode_found _ hpx (hpid ▸ h0) hfiled
  | fresh =>
      have hpx : p ≠ m.nextNode := fun heq => hp (by rw [stored, hdec, heq])
      have hheap : (m.makeNode.heap p).id = (m.heap p).id :=
        congrArg AtappDiscovery.id (m.heap.sameContent_update hpx _).info
      rw [mergeEvent_of_fresh hdec, hentry, ← hpid, ← hheap] at hfiled
      exact byId_storeNode_found (m := m.makeNode) _ hpx (hheap.trans_ne (hpid ▸ h0)) hfiled

/-- A Put with another name leaves the stale entry, unless it is stored in the stale node. -/
theorem Stale.entry_of_put (hs : Stale context node name p m) (h0 : name ≠ [])
    (hp : m.stored event ≠ some p) (hput : event.action = .put)
    (hname : event.nodeDiscovery.name ≠ name) :
    (m.mergeEvent cfg event version).module.byName name = some p := by
  cases hdec : m.decision event with
  | ignore =>
      obtain ⟨hset, _, _⟩ := @mergeEvent_of_ignore cfg m event version hdec
      rw [byName, hset]
      exact hs.entry
  | remove => exact absurd hdec (decision_ne_remove_of_put hput)
  | overwrite x =>
      have hpx : p ≠ x := fun heq => hp (by rw [stored, hdec, heq])
      rw [mergeEvent_of_overwrite hdec]
      exact byName_storeNode_of_ne _ _ hs.entry hpx hname hs.unnamed
  | fresh =>
      have hpx : p ≠ m.nextNode := fun heq => hp (by rw [stored, hdec, heq])
      rw [mergeEvent_of_fresh hdec]
      refine byName_storeNode_of_ne (m := m.makeNode) _ _ hs.entry hpx hname (fun r hlive => ?_)
      show (Function.update m.heap m.nextNode {} r).name ≠ name
      by_cases hr : r = m.nextNode
      · rw [hr, Function.update_self]
        exact h0.symm
      · rw [Function.update_of_ne hr]
        exact hs.unnamed r hlive

/-- **A Put with other keys does not mend a spoiled set.** -/
theorem spoiled_put (h : Spoiled context node name m) (hctx : event.contextAddr = context)
    (hput : event.action = .put) (hid : event.nodeDiscovery.id ≠ node.id)
    (hname : event.nodeDiscovery.name ≠ node.name) (h0 : node.id ≠ 0) (hname0 : name ≠ [])
    (version : EtcdDataVersion) :
    Spoiled context node name (m.mergeEvent cfg event version).module := by
  by_cases hholds : (m.mergeEvent cfg event version).module.Holds node
  · have hframe := frame_mergeEvent cfg m event version
    have hkeys : OtherKeys (m.stored event) event node := fun _ _ => ⟨hid, hname⟩
    have hbefore := hholds.before hframe hkeys
    obtain ⟨p, hstale⟩ := h.resolve_left (fun hlost => hlost hbefore)
    obtain ⟨hp, hfiled⟩ := hstale.kept hframe hkeys h0 hholds
    have hevent := hstale.name_ne_of_put hctx hput hid h0 hp hfiled
    have hentry : (m.mergeEvent cfg event version).module.byName name = some p :=
      hstale.entry_of_put hname0 hp hput hevent
    exact Or.inr ⟨p, hstale.of_frame hframe hp hfiled hentry (fun _ _ => hevent)⟩
  · exact Or.inl hholds

/-- **A Delete does not mend a spoiled set.** -/
theorem spoiled_delete (h : Spoiled context node name m) (hdelete : event.action = .delete)
    (h0 : node.id ≠ 0) (hne : name ≠ node.name) (version : EtcdDataVersion) :
    Spoiled context node name (m.mergeEvent cfg event version).module := by
  by_cases hholds : (m.mergeEvent cfg event version).module.Holds node
  · have hframe := frame_mergeEvent cfg m event version
    have hstored : m.stored event = none := by
      rcases decision_ne_of_delete (m := m) hdelete with hdec | hdec <;> rw [stored, hdec]
    rw [hstored] at hframe
    have hkeys : OtherKeys none event node := fun r hr => by cases hr
    have hbefore := hholds.before hframe hkeys
    obtain ⟨p, hstale⟩ := h.resolve_left (fun hlost => hlost hbefore)
    obtain ⟨hp, hfiled⟩ := hstale.kept hframe hkeys h0 hholds
    have hpname : (m.heap p).name ≠ name := fun heq =>
      hne (heq.symm.trans (AtappDiscovery.protobufEqual_keys hstale.info).2)
    refine Or.inr ⟨p, hstale.of_frame hframe hp hfiled ?_ (fun r hr => by cases hr)⟩
    rcases decision_ne_of_delete (m := m) hdelete with hdec | hdec
    · obtain ⟨hset, _, _⟩ := @mergeEvent_of_ignore cfg m event version hdec
      rw [byName, hset]
      exact hstale.entry
    · obtain ⟨found, _, hm'⟩ := @mergeEvent_of_remove cfg m event version hdec
      rw [hm']
      refine byName_deleteFound_of_ne
        (byName_deleteFound_of_ne hstale.entry hpname version _) ?_ version found
      rw [EtcdDiscoveryNode.name, ((erases_deleteFound version _).content p).info]
      exact hpname
  · exact Or.inl hholds

/-- **A Put that overwrites a node in place under another name spoils the set.** -/
theorem spoiled_of_overwrite (h : IndexInv m.heap m.globalDiscovery)
    (hdec : m.decision event = .overwrite p) (hfiled : m.byId event.nodeDiscovery.id = some p)
    (h0 : (m.heap p).name ≠ []) (hne : (m.heap p).name ≠ event.nodeDiscovery.name)
    (version : EtcdDataVersion) :
    Spoiled event.contextAddr event.nodeDiscovery (m.heap p).name
      (m.mergeEvent cfg event version).module := by
  have hframe := frame_mergeEvent cfg m event version
  have hstored : m.stored event = some p := by rw [stored, hdec]
  have hentry : m.byName (m.heap p).name = some p := (byName_iff h (Or.inl ⟨_, hfiled⟩) h0).2 rfl
  have hkept := storeNode_keeps cfg m event version (m.byId event.nodeDiscovery.id)
    (m.byName event.nodeDiscovery.name) p
  rw [← mergeEvent_of_overwrite hdec] at hkept
  refine Or.inr ⟨p, hkept.1 _ hfiled, hkept.2.1 _ hentry, ?_, hframe.context p hstored,
    fun r hlive => ?_⟩
  · rw [hkept.2.2]
    exact AtappDiscovery.protobufEqual_refl _
  · by_cases hr : m.stored event = some r
    · rw [EtcdDiscoveryNode.name, hframe.info r hr]
      exact hne.symm
    · -- no other node was filed under the old name
      have hold := (hframe.live hlive).resolve_left hr
      rw [EtcdDiscoveryNode.name, (hframe.content r hr).info]
      intro heq
      have hr' : m.byName (m.heap p).name = some r := (byName_iff h hold h0).2 heq
      exact hr (hstored.trans (hentry.symm.trans hr'))

end ServiceDiscoveryModule

end LibAtapp
