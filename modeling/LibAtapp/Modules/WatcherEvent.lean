import LibAtapp.Etcdcli.DiscoveryQueries

set_option autoImplicit false

/-! # Discovery events

`service_discovery_module::update_internal_watcher_event(node_info_t)` merges one Put or Delete
of a cluster context into the global discovery set. It looks the event up by id and by name and
overwrites, replaces or removes what it finds. This file has the handler with all its branches and
what one event does to the two indexes. -/

namespace LibAtapp

/-! ## The module -/

/-- `node_action_t`. -/
inductive NodeActionT
  | put
  | delete
  deriving DecidableEq

/-- `node_info_t`. -/
structure NodeInfoT where
  nodeDiscovery : AtappDiscovery
  action : NodeActionT := .put
  contextAddr : Nat

/-- What the handler calls beside changing the set: `app::remove_endpoint` and the discovery event
    for connectors and callbacks. -/
inductive HandlerCall
  | removeEndpointById (id : Nat)
  | removeEndpointByName (name : Bytes)
  | discoveryEvent (action : NodeActionT) (node : Option NodePtr)
  deriving DecidableEq

/-- The part of `service_discovery_module` the handler works on: the nodes, the next address
    `make_strong_rc` gives, and `global_discovery_`. -/
structure ServiceDiscoveryModule where
  heap : NodeHeap := fun _ => {}
  nextNode : NodePtr := 0
  globalDiscovery : EtcdDiscoverySet := {}

namespace ServiceDiscoveryModule

variable (cfg : HashConfig) (m : ServiceDiscoveryModule)

/-- The node with this id. -/
abbrev byId (id : Nat) : Option NodePtr := m.globalDiscovery.getNodeById id

/-- The node with this name. -/
abbrev byName (name : Bytes) : Option NodePtr := m.globalDiscovery.getNodeByName name

/-- Does the node belong to the cluster context of the event? -/
def sameContext (event : NodeInfoT) (p : NodePtr) : Bool :=
  (m.heap p).contextAddr == event.contextAddr

/-- `p->update_version(version, upgrade)`. -/
def updateVersion (p : NodePtr) (version : EtcdDataVersion) (upgrade : Bool) :
    ServiceDiscoveryModule :=
  { m with heap := Function.update m.heap p ((m.heap p).updateVersion version upgrade) }

/-- `global_discovery_.remove_node(p)`. -/
def removeNode (p : NodePtr) : ServiceDiscoveryModule :=
  { m with globalDiscovery := m.globalDiscovery.removeNode m.heap p }

/-- `global_discovery_.add_node(p)`. -/
def addNode (p : NodePtr) : ServiceDiscoveryModule :=
  { m with globalDiscovery := m.globalDiscovery.addNode m.heap p }

/-- `p->copy_from(...)` with the content of the event. -/
def copyFrom (p : NodePtr) (event : NodeInfoT) (version : EtcdDataVersion) :
    ServiceDiscoveryModule :=
  let content := (m.heap p).copyFrom cfg event.nodeDiscovery version event.contextAddr
  { m with heap := Function.update m.heap p content }

/-- `make_strong_rc<etcd_discovery_node>()`: a node with default content at a new address. -/
def makeNode : ServiceDiscoveryModule :=
  { m with heap := Function.update m.heap m.nextNode {}, nextNode := m.nextNode + 1 }

/-- `new_inst`: the node to overwrite, or a new one. -/
def newInst : Option NodePtr → NodePtr × ServiceDiscoveryModule
  | some p => (p, m)
  | none => (m.nextNode, m.makeNode)

/-! ## The handler -/

/-- What the handler did: the module, `has_event` and `new_inst`. -/
structure Outcome where
  module : ServiceDiscoveryModule
  hasEvent : Bool := false
  newInst : Option NodePtr := none

/-- Delete when both lookups agree. -/
def deleteSame (event : NodeInfoT) (version : EtcdDataVersion) : Option NodePtr → Outcome
  | none => { module := m }
  | some p =>
    if m.sameContext event p then
      { module := (m.updateVersion p version true).removeNode p, hasEvent := true }
    else { module := m }

/-- Put when both lookups agree. -/
def putSame (event : NodeInfoT) (version : EtcdDataVersion) (localCache : Option NodePtr) :
    Outcome :=
  match localCache with
  | some p =>
    if !m.sameContext event p then { module := m }
    else if AtappDiscovery.protobufEqual (m.heap p).nodeInfo event.nodeDiscovery then
      { module := m.updateVersion p version true }
    else
      { module := (m.copyFrom cfg p event version).addNode p, hasEvent := true, newInst := some p }
  | none =>
    let (p, m) := m.newInst none
    { module := (m.copyFrom cfg p event version).addNode p, hasEvent := true, newInst := some p }

/-- Update and remove a node the delete found. -/
def deleteFound (version : EtcdDataVersion) : Option NodePtr → ServiceDiscoveryModule
  | none => m
  | some p => (m.updateVersion p version true).removeNode p

/-- Delete when the lookups differ: if the context of one matches, both go. -/
def deleteMixed (event : NodeInfoT) (version : EtcdDataVersion) (byId byName : Option NodePtr) :
    Outcome :=
  if byId.any (m.sameContext event) || byName.any (m.sameContext event) then
    { module := (m.deleteFound version byId).deleteFound version byName, hasEvent := true }
  else { module := m }

/-- May the event overwrite this node: its content differs and its context is the event's? -/
def overwritable (event : NodeInfoT) (p : NodePtr) : Bool :=
  !AtappDiscovery.protobufEqual (m.heap p).nodeInfo event.nodeDiscovery && m.sameContext event p

/-- The choice of `new_inst` when the lookups differ: `none` when the event is ignored,
    `some none` for a new node, else the node to overwrite. -/
def chooseNewInst (event : NodeInfoT) (byId byName : Option NodePtr) : Option (Option NodePtr) :=
  if (byId.isNone && event.nodeDiscovery.id != 0) ||
      (byName.isNone && event.nodeDiscovery.name != []) then some none
  else if byId.any (m.overwritable event) then some byId
  else if byName.any (m.overwritable event) then some byName
  else none

/-- Update and remove a node that is not `new_inst`. -/
def removeOther (version : EtcdDataVersion) (p : NodePtr) :
    Option NodePtr → ServiceDiscoveryModule
  | none => m
  | some q => if q ≠ p then (m.updateVersion q version false).removeNode q else m

/-- The block that stores the event in `new_inst` when the lookups differ. -/
def storeNode (event : NodeInfoT) (version : EtcdDataVersion) (byId byName : Option NodePtr)
    (p : NodePtr) : ServiceDiscoveryModule :=
  let m := m.copyFrom cfg p event version
  let m := m.removeOther version p byId
  let m := m.removeOther version p byName
  m.addNode p

/-- Put when the lookups differ. -/
def putMixed (event : NodeInfoT) (version : EtcdDataVersion) (byId byName : Option NodePtr) :
    Outcome :=
  match m.chooseNewInst event byId byName with
  | none => { module := m }
  | some choice =>
    let (p, m) := m.newInst choice
    { module := m.storeNode cfg event version byId byName p, hasEvent := true, newInst := some p }

/-- The set part of `update_internal_watcher_event`. -/
def mergeEvent (event : NodeInfoT) (version : EtcdDataVersion) : Outcome :=
  let byId := m.byId event.nodeDiscovery.id
  let byName := m.byName event.nodeDiscovery.name
  if byId = byName then
    match event.action with
    | .delete => m.deleteSame event version byId
    | .put => m.putSame cfg event version byId
  else
    match event.action with
    | .delete => m.deleteMixed event version byId byName
    | .put => m.putMixed cfg event version byId byName

/-- The calls at the end of `update_internal_watcher_event`: endpoints of a deleted key are
    removed, and the event names `new_inst`, else the node found by name, else the one by id. -/
def handlerCalls (event : NodeInfoT) (outcome : Outcome) : List HandlerCall :=
  if !outcome.hasEvent then []
  else
    let id := event.nodeDiscovery.id
    let name := event.nodeDiscovery.name
    (if event.action = .delete then
      (if id ≠ 0 then [.removeEndpointById id] else []) ++
        (if name ≠ [] then [.removeEndpointByName name] else [])
    else []) ++
      [.discoveryEvent event.action
        (outcome.newInst.or ((m.byName name).or (m.byId id)))]

/-- `update_internal_watcher_event`: the module after the event, and the calls it made. -/
def updateInternalWatcherEvent (event : NodeInfoT) (version : EtcdDataVersion) :
    ServiceDiscoveryModule × Bool × List HandlerCall :=
  let outcome := m.mergeEvent cfg event version
  (outcome.module, outcome.hasEvent, m.handlerCalls event outcome)

/-- One event of a run. -/
def step (m : ServiceDiscoveryModule) (input : NodeInfoT × EtcdDataVersion) :
    ServiceDiscoveryModule :=
  (m.updateInternalWatcherEvent cfg input.1 input.2).1

/-! ## What an event decides -/

/-- What the handler does with an event. -/
inductive Decision
  | ignore
  | remove
  | overwrite (p : NodePtr)
  | fresh
  deriving DecidableEq

/-- The branch `update_internal_watcher_event` takes. -/
def decision (event : NodeInfoT) : Decision :=
  let byId := m.byId event.nodeDiscovery.id
  let byName := m.byName event.nodeDiscovery.name
  if byId = byName then
    match event.action, byId with
    | .delete, none => .ignore
    | .delete, some p => if m.sameContext event p then .remove else .ignore
    | .put, some p => if m.overwritable event p then .overwrite p else .ignore
    | .put, none => .fresh
  else
    match event.action with
    | .delete =>
      if byId.any (m.sameContext event) || byName.any (m.sameContext event) then .remove
      else .ignore
    | .put =>
      match m.chooseNewInst event byId byName with
      | none => .ignore
      | some none => .fresh
      | some (some p) => .overwrite p

/-- The node that holds the event afterwards. -/
def stored (event : NodeInfoT) : Option NodePtr :=
  match m.decision event with
  | .ignore | .remove => none
  | .overwrite p => some p
  | .fresh => some m.nextNode

/-- **The defect.** The handler overwrites in place a node that is also filed under an id or a
    name the event does not carry. That entry stays behind and leads to a node with other keys. -/
def RekeysInPlace (event : NodeInfoT) : Prop :=
  ∃ p, m.decision event = .overwrite p ∧
    (((m.heap p).id ≠ 0 ∧ (m.heap p).id ≠ event.nodeDiscovery.id) ∨
      ((m.heap p).name ≠ [] ∧ (m.heap p).name ≠ event.nodeDiscovery.name))

variable {cfg} {m} {event : NodeInfoT} {version : EtcdDataVersion}

instance : Decidable (m.RekeysInPlace event) :=
  match h : m.decision event with
  | .ignore => isFalse (by rintro ⟨p, hp, _⟩; simp [h] at hp)
  | .remove => isFalse (by rintro ⟨p, hp, _⟩; simp [h] at hp)
  | .fresh => isFalse (by rintro ⟨p, hp, _⟩; simp [h] at hp)
  | .overwrite p => decidable_of_iff (((m.heap p).id ≠ 0 ∧
      (m.heap p).id ≠ event.nodeDiscovery.id) ∨
      ((m.heap p).name ≠ [] ∧ (m.heap p).name ≠ event.nodeDiscovery.name))
      (by simp [RekeysInPlace, h])

/-! ## Taking nodes away -/

/-- The module `m'` is `m` without the nodes in `gone`: their entries are gone, the others stay,
    and all contents stay. -/
structure Without (m m' : ServiceDiscoveryModule) (gone : NodePtr → Prop) : Prop where
  id_entry : ∀ k r, m'.byId k = some r ↔ m.byId k = some r ∧ ¬ gone r
  name_entry : ∀ n r, m'.byName n = some r ↔ m.byName n = some r ∧ ¬ gone r
  content : ∀ r, m.heap.SameContent m'.heap r
  next : m'.nextNode = m.nextNode

theorem Without.of_set_eq {m m' : ServiceDiscoveryModule} {gone : NodePtr → Prop}
    (hset : m'.globalDiscovery = m.globalDiscovery) (hnext : m'.nextNode = m.nextNode)
    (hcontent : ∀ r, m.heap.SameContent m'.heap r) (hgone : ∀ r, ¬ gone r) : Without m m' gone where
  id_entry := fun k r => by simp [byId, hset, hgone r]
  name_entry := fun n r => by simp [byName, hset, hgone r]
  content := hcontent
  next := hnext

theorem Without.trans {m m' m'' : ServiceDiscoveryModule} {gone gone' : NodePtr → Prop}
    (h : Without m m' gone) (h' : Without m' m'' gone') :
    Without m m'' (fun r => gone r ∨ gone' r) where
  id_entry := fun k r => by rw [h'.id_entry, h.id_entry, not_or, and_assoc]
  name_entry := fun n r => by rw [h'.name_entry, h.name_entry, not_or, and_assoc]
  content := fun r => (h.content r).trans (h'.content r)
  next := h'.next.trans h.next

/-- Updating the version of a node and removing it takes this node away. -/
theorem without_updateVersion_removeNode (h : IndexSound m.heap m.globalDiscovery) (q : NodePtr)
    (version : EtcdDataVersion) (upgrade : Bool) :
    Without m ((m.updateVersion q version upgrade).removeNode q) (fun r => r = q) := by
  have hcontent := m.heap.sameContent_updateVersion q version upgrade
  have hsound : IndexSound (m.updateVersion q version upgrade).heap m.globalDiscovery := by
    refine ⟨fun k p hp => ?_, fun n p hp => ?_⟩
    · simpa [updateVersion, EtcdDiscoveryNode.id, (hcontent p).info] using h.id_key k p hp
    · simpa [updateVersion, EtcdDiscoveryNode.name, (hcontent p).info] using h.name_key n p hp
  exact ⟨fun k r => hsound.removeNode_id q k r, fun n r => hsound.removeNode_name q n r, hcontent,
    rfl⟩

theorem Without.congr {m m' : ServiceDiscoveryModule} {gone gone' : NodePtr → Prop}
    (h : Without m m' gone) (hgone : ∀ r, gone r ↔ gone' r) : Without m m' gone' := by
  obtain rfl : gone = gone' := funext fun r => propext (hgone r)
  exact h

theorem Without.indexSound {m m' : ServiceDiscoveryModule} {gone : NodePtr → Prop}
    (hw : Without m m' gone) (h : IndexSound m.heap m.globalDiscovery) :
    IndexSound m'.heap m'.globalDiscovery := by
  refine ⟨fun k r hk => ?_, fun n r hn => ?_⟩
  · rw [EtcdDiscoveryNode.id, (hw.content r).info]
    exact h.id_key k r ((hw.id_entry k r).1 hk).1
  · rw [EtcdDiscoveryNode.name, (hw.content r).info]
    exact h.name_key n r ((hw.name_entry n r).1 hn).1

/-- Taking nodes away keeps the invariant up to any node. -/
theorem Without.indexInvExcept {m m' : ServiceDiscoveryModule} {gone : NodePtr → Prop}
    (hw : Without m m' gone) {p : NodePtr}
    (h : IndexInvExcept m.heap m.globalDiscovery p) :
    IndexInvExcept m'.heap m'.globalDiscovery p := by
  have hid : ∀ r, (m'.heap r).id = (m.heap r).id := fun r => by
    rw [EtcdDiscoveryNode.id, (hw.content r).info]
  have hname : ∀ r, (m'.heap r).name = (m.heap r).name := fun r => by
    rw [EtcdDiscoveryNode.name, (hw.content r).info]
  refine ⟨hw.indexSound h.toIndexSound, fun k r hrp hk hne => ?_, fun n r hrp hn hne => ?_⟩
  · obtain ⟨hk, hgone⟩ := (hw.id_entry k r).1 hk
    rw [hname] at hne ⊢
    exact (hw.name_entry _ r).2 ⟨h.id_to_name k r hrp hk hne, hgone⟩
  · obtain ⟨hn, hgone⟩ := (hw.name_entry n r).1 hn
    rw [hid] at hne ⊢
    exact (hw.id_entry _ r).2 ⟨h.name_to_id n r hrp hn hne, hgone⟩

theorem Without.indexInv {m m' : ServiceDiscoveryModule} {gone : NodePtr → Prop}
    (hw : Without m m' gone) (h : IndexInv m.heap m.globalDiscovery) :
    IndexInv m'.heap m'.globalDiscovery :=
  IndexInv.of_except (fun p => hw.indexInvExcept (h.except p))

/-- Nothing is taken away. -/
theorem without_refl (m : ServiceDiscoveryModule) {gone : NodePtr → Prop} (hgone : ∀ r, ¬ gone r) :
    Without m m gone :=
  Without.of_set_eq rfl rfl (fun r => NodeHeap.SameContent.refl _ r) hgone

theorem without_deleteFound (h : IndexSound m.heap m.globalDiscovery) (version : EtcdDataVersion)
    (found : Option NodePtr) :
    Without m (m.deleteFound version found) (fun r => found = some r) := by
  cases found with
  | none => exact without_refl m (fun r hr => by simp at hr)
  | some q =>
      exact (without_updateVersion_removeNode h q version true).congr
        (fun r => ⟨fun he => he ▸ rfl, fun he => (Option.some.inj he).symm⟩)

theorem without_removeOther (h : IndexSound m.heap m.globalDiscovery)
    (version : EtcdDataVersion) (p : NodePtr) (other : Option NodePtr) :
    Without m (m.removeOther version p other) (fun r => r ≠ p ∧ other = some r) := by
  cases other with
  | none => exact without_refl m (fun r hr => by simp at hr)
  | some q =>
      simp only [removeOther]
      split
      · next hq =>
          exact (without_updateVersion_removeNode h q version false).congr
            (fun r => ⟨fun he => ⟨he ▸ hq, he ▸ rfl⟩, fun he => (Option.some.inj he.2).symm⟩)
      · next hq =>
          refine without_refl m (fun r hr => hq ?_)
          rw [Option.some.inj hr.2]
          exact hr.1

/-! ## Storing an event -/

/-- The module `m'` is `m` with the event stored in `p`: the entries of `p` are the keys of the
    event, other entries stay except those the lookups found, other contents stay. -/
structure Stores (m m' : ServiceDiscoveryModule) (event : NodeInfoT) (p : NodePtr) : Prop where
  id_entry : ∀ k r, m'.byId k = some r ↔
    (r = p ∧ k = event.nodeDiscovery.id ∧ k ≠ 0) ∨
      (r ≠ p ∧ m.byId k = some r ∧ m.byId event.nodeDiscovery.id ≠ some r ∧
        m.byName event.nodeDiscovery.name ≠ some r)
  name_entry : ∀ n r, m'.byName n = some r ↔
    (r = p ∧ n = event.nodeDiscovery.name ∧ n ≠ []) ∨
      (r ≠ p ∧ m.byName n = some r ∧ m.byId event.nodeDiscovery.id ≠ some r ∧
        m.byName event.nodeDiscovery.name ≠ some r)
  content : ∀ r, r ≠ p → m.heap.SameContent m'.heap r
  info : (m'.heap p).nodeInfo = event.nodeDiscovery
  context : (m'.heap p).contextAddr = event.contextAddr
  next : m'.nextNode = m.nextNode
  index : IndexInv m'.heap m'.globalDiscovery

theorem copyFrom_self (cfg : HashConfig) (m : ServiceDiscoveryModule) (event : NodeInfoT)
    (version : EtcdDataVersion) (p : NodePtr) :
    ((m.copyFrom cfg p event version).heap p).nodeInfo = event.nodeDiscovery ∧
      ((m.copyFrom cfg p event version).heap p).contextAddr = event.contextAddr := by
  simp [copyFrom, EtcdDiscoveryNode.copyFrom]

theorem copyFrom_of_ne (cfg : HashConfig) (m : ServiceDiscoveryModule) (event : NodeInfoT)
    (version : EtcdDataVersion) (p r : NodePtr) (hr : r ≠ p) :
    m.heap.SameContent (m.copyFrom cfg p event version).heap r :=
  m.heap.sameContent_update hr _

/-- `storeNode` stores the event when only the overwritten node is out of place after
    `copy_from`. -/
theorem stores_storeNode {p : NodePtr}
    (hx : IndexInvExcept (m.copyFrom cfg p event version).heap m.globalDiscovery p) :
    Stores m (m.storeNode cfg event version (m.byId event.nodeDiscovery.id)
      (m.byName event.nodeDiscovery.name) p) event p := by
  have hcopy := copyFrom_self cfg m event version p
  have hrest := copyFrom_of_ne cfg m event version p
  generalize hm1 : m.copyFrom cfg p event version = m1 at hx hcopy hrest
  have hset : m1.globalDiscovery = m.globalDiscovery := by rw [← hm1]; rfl
  have hnext : m1.nextNode = m.nextNode := by rw [← hm1]; rfl
  rw [← hset] at hx
  -- the nodes found by the lookups are taken away, then `add_node` finds nothing to displace
  have hw2 : Without m1 (m1.removeOther version p (m.byId event.nodeDiscovery.id))
      (fun r => r ≠ p ∧ m.byId event.nodeDiscovery.id = some r) :=
    without_removeOther hx.toIndexSound version p _
  have hx2 := hw2.indexInvExcept hx
  have hw3 := hw2.trans (without_removeOther hx2.toIndexSound version p
    (m.byName event.nodeDiscovery.name))
  have hx3 := hw3.indexInvExcept hx
  simp only [storeNode, hm1]
  generalize (m1.removeOther version p (m.byId event.nodeDiscovery.id)).removeOther version p
    (m.byName event.nodeDiscovery.name) = m3 at hw3 hx3
  have hinfo : (m3.heap p).nodeInfo = event.nodeDiscovery := (hw3.content p).info.trans hcopy.1
  have hid : (m3.heap p).id = event.nodeDiscovery.id := congrArg AtappDiscovery.id hinfo
  have hname : (m3.heap p).name = event.nodeDiscovery.name := congrArg AtappDiscovery.name hinfo
  have hm1id : ∀ k, m1.byId k = m.byId k := fun k => by simp only [byId, hset]
  have hm1name : ∀ n, m1.byName n = m.byName n := fun n => by simp only [byName, hset]
  have hdisp : ∀ r, ¬ m3.globalDiscovery.Displaces m3.heap p r := by
    rintro r ⟨hrp, ⟨_, hr⟩ | ⟨_, hr⟩⟩
    · rw [hid] at hr
      have := (hw3.id_entry _ r).1 hr
      exact this.2 (Or.inl ⟨hrp, hm1id _ ▸ this.1⟩)
    · rw [hname] at hr
      have := (hw3.name_entry _ r).1 hr
      exact this.2 (Or.inr ⟨hrp, hm1name _ ▸ this.1⟩)
  refine ⟨fun k r => ?_, fun n r => ?_, fun r hr => ?_, hinfo,
    (hw3.content p).context.trans hcopy.2, hw3.next.trans hnext, hx3.addNode⟩
  · have hentry : m3.byId k = some r ↔ m.byId k = some r ∧
        ¬ (r ≠ p ∧ m.byId event.nodeDiscovery.id = some r ∨
          r ≠ p ∧ m.byName event.nodeDiscovery.name = some r) := by
      rw [hw3.id_entry, hm1id]
    refine (hx3.addNode_id k r).trans ?_
    rw [hid]
    refine or_congr Iff.rfl (and_congr_right fun hrp => ?_)
    refine (and_congr hentry (iff_true_intro (hdisp r))).trans ?_
    simp [hrp]
  · have hentry : m3.byName n = some r ↔ m.byName n = some r ∧
        ¬ (r ≠ p ∧ m.byId event.nodeDiscovery.id = some r ∨
          r ≠ p ∧ m.byName event.nodeDiscovery.name = some r) := by
      rw [hw3.name_entry, hm1name]
    refine (hx3.addNode_name n r).trans ?_
    rw [hname]
    refine or_congr Iff.rfl (and_congr_right fun hrp => ?_)
    refine (and_congr hentry (iff_true_intro (hdisp r))).trans ?_
    simp [hrp]
  · exact (hrest r hr).trans (hw3.content r)

/-! ## One event, by its decision -/

/-- An ignored event changes versions at most. -/
theorem mergeEvent_of_ignore (h : m.decision event = .ignore) :
    (m.mergeEvent cfg event version).module.globalDiscovery = m.globalDiscovery ∧
      (m.mergeEvent cfg event version).module.nextNode = m.nextNode ∧
      ∀ r, m.heap.SameContent (m.mergeEvent cfg event version).module.heap r := by
  have hrefl := fun r => NodeHeap.SameContent.refl m.heap r
  unfold decision at h
  unfold mergeEvent
  simp only at h ⊢
  split at h
  · next heq =>
      rw [if_pos heq]
      cases ha : event.action with
      | delete =>
          cases hp : m.byId event.nodeDiscovery.id with
          | none => exact ⟨rfl, rfl, hrefl⟩
          | some p =>
              rw [ha, hp] at h
              simp only [ite_eq_right_iff, reduceCtorEq, imp_false] at h
              simp only [deleteSame, if_neg h]
              exact ⟨trivial, trivial, hrefl⟩
      | put =>
          cases hp : m.byId event.nodeDiscovery.id with
          | none => simp [ha, hp] at h
          | some p =>
              rw [ha, hp] at h
              simp only [overwritable, Bool.and_eq_true, Bool.not_eq_true', ite_eq_right_iff,
                reduceCtorEq, imp_false, not_and, Bool.not_eq_true] at h
              simp only [putSame]
              split
              · exact ⟨rfl, rfl, hrefl⟩
              · next hctx =>
                  split
                  · exact ⟨rfl, rfl, m.heap.sameContent_updateVersion p version true⟩
                  · next hne => simp [h (by simpa using hne)] at hctx
  · next hne =>
      rw [if_neg hne]
      cases ha : event.action with
      | delete =>
          rw [ha] at h
          simp only [ite_eq_right_iff, reduceCtorEq, imp_false] at h
          simp only [deleteMixed, if_neg h]
          exact ⟨trivial, trivial, hrefl⟩
      | put =>
          rw [ha] at h
          simp only at h
          simp only [putMixed]
          split at h
          · next hc =>
              rw [hc]
              exact ⟨rfl, rfl, hrefl⟩
          · simp at h
          · simp at h

/-- A deciding delete takes away the nodes the lookups found, once when they are the same. -/
theorem mergeEvent_of_remove (h : m.decision event = .remove) :
    ∃ found, (found = m.byName event.nodeDiscovery.name ∨ (found = none ∧
        m.byId event.nodeDiscovery.id = m.byName event.nodeDiscovery.name)) ∧
      (m.mergeEvent cfg event version).module =
        (m.deleteFound version (m.byId event.nodeDiscovery.id)).deleteFound version found := by
  unfold decision at h
  unfold mergeEvent
  simp only at h ⊢
  split at h
  · next heq =>
      refine ⟨none, Or.inr ⟨rfl, heq⟩, ?_⟩
      rw [if_pos heq]
      cases ha : event.action with
      | delete =>
          cases hp : m.byId event.nodeDiscovery.id with
          | none => simp [ha, hp] at h
          | some p =>
              rw [ha, hp] at h
              simp only [ite_eq_left_iff, reduceCtorEq, imp_false, Decidable.not_not] at h
              simp only [deleteSame, if_pos h]
              rfl
      | put =>
          cases hp : m.byId event.nodeDiscovery.id with
          | none => simp [ha, hp] at h
          | some p => by_cases ho : m.overwritable event p = true <;> simp [ha, hp, ho] at h
  · next hne =>
      refine ⟨_, Or.inl rfl, ?_⟩
      rw [if_neg hne]
      cases ha : event.action with
      | delete =>
          rw [ha] at h
          simp only [ite_eq_left_iff, reduceCtorEq, imp_false, Decidable.not_not] at h
          simp only [deleteMixed, if_pos h]
      | put =>
          rw [ha] at h
          simp only at h
          split at h <;> simp at h

/-- An overwriting event is stored in the overwritten node. -/
theorem mergeEvent_of_overwrite {p : NodePtr} (h : m.decision event = .overwrite p) :
    (m.mergeEvent cfg event version).module =
      m.storeNode cfg event version (m.byId event.nodeDiscovery.id)
        (m.byName event.nodeDiscovery.name) p := by
  unfold decision at h
  unfold mergeEvent
  simp only at h ⊢
  split at h
  · next heq =>
      rw [if_pos heq, ← heq]
      cases ha : event.action with
      | delete =>
          cases hp : m.byId event.nodeDiscovery.id with
          | none => simp [ha, hp] at h
          | some q => by_cases hc : m.sameContext event q = true <;> simp [ha, hp, hc] at h
      | put =>
          cases hp : m.byId event.nodeDiscovery.id with
          | none => simp [ha, hp] at h
          | some q =>
              by_cases ho : m.overwritable event q = true
              · simp only [ha, hp, ho, if_true, Decision.overwrite.injEq] at h
                subst h
                simp only [overwritable, Bool.and_eq_true, Bool.not_eq_true'] at ho
                simp [putSame, ho.1, ho.2, storeNode, removeOther]
              · simp [ha, hp, ho] at h
  · next hne =>
      rw [if_neg hne]
      cases ha : event.action with
      | delete =>
          rw [ha] at h
          simp only at h
          split at h <;> simp at h
      | put =>
          rw [ha] at h
          simp only at h
          simp only [putMixed]
          split at h
          · simp at h
          · simp at h
          · next q hc =>
              rw [hc, Decision.overwrite.inj h]
              rfl

/-- A fresh event is stored in a new node. -/
theorem mergeEvent_of_fresh (h : m.decision event = .fresh) :
    (m.mergeEvent cfg event version).module =
      m.makeNode.storeNode cfg event version (m.byId event.nodeDiscovery.id)
        (m.byName event.nodeDiscovery.name) m.nextNode := by
  unfold decision at h
  unfold mergeEvent
  simp only at h ⊢
  split at h
  · next heq =>
      rw [if_pos heq, ← heq]
      cases ha : event.action with
      | delete =>
          cases hp : m.byId event.nodeDiscovery.id with
          | none => simp [ha, hp] at h
          | some q => by_cases hc : m.sameContext event q = true <;> simp [ha, hp, hc] at h
      | put =>
          cases hp : m.byId event.nodeDiscovery.id with
          | none => rfl
          | some q => by_cases ho : m.overwritable event q = true <;> simp [ha, hp, ho] at h
  · next hne =>
      rw [if_neg hne]
      cases ha : event.action with
      | delete =>
          rw [ha] at h
          simp only at h
          split at h <;> simp at h
      | put =>
          rw [ha] at h
          simp only at h
          simp only [putMixed]
          split at h
          · simp at h
          · next hc =>
              rw [hc]
              rfl
          · simp at h

end ServiceDiscoveryModule

end LibAtapp
