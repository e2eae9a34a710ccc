import LibAtapp.Etcdcli.WatchHandover
import LibAtapp.Modules.KeyHistory
import LibAtapp.Modules.SnapshotExact

set_option autoImplicit false

/-! # The discovery set and the etcd server

The elected watcher of a discovery directory, its callback, the discovery set and the server run
together. Unlike the topology handler, the discovery handler takes every Put whatever its revision, so
the set is the replica of what was handed over even where old events are handed over again. With X ids
and names in one-to-one correspondence no event touches the node of another key. The main result is
that the set finds exactly the nodes of the server, by id and by name, whenever the watch has nothing
more to send. -/

namespace LibAtapp

open LogReplica (Store replay)

/-! ## The election -/

namespace DiscoveryWatcherState

variable {cfg : HashConfig} {codec : DiscoveryCodec} {order : HashMapOrder}
  {st : DiscoveryWatcherState}

/-- The watcher loads the snapshots of its context: no watcher has a smaller index. -/
structure Elected (st : DiscoveryWatcherState) : Prop where
  index : st.wrapper.snapshotIndex ≠ 0
  first : ∀ i ∈ st.ctx.discoveryWatcherSnapshotIndex, st.wrapper.snapshotIndex ≤ i
  inserted : st.wrapper.hasInsertSnapshotIndex = true →
    st.wrapper.snapshotIndex ∈ st.ctx.discoveryWatcherSnapshotIndex

/-- The elected watcher loads a snapshot and stays elected. -/
theorem electSnapshot_of_elected (h : st.Elected) (snapshot : Bool) :
    (st.electSnapshot snapshot).2 = snapshot ∧ (st.electSnapshot snapshot).1.Elected := by
  cases snapshot with
  | false => exact ⟨rfl, h⟩
  | true =>
    have hindex : (st.wrapper.snapshotIndex != 0) = true := bne_iff_ne.2 h.index
    simp only [electSnapshot, Bool.true_and, hindex, if_true]
    have hinsert : st.insertSnapshotIndex.Elected ∧
        st.insertSnapshotIndex.wrapper.snapshotIndex ∈
          st.insertSnapshotIndex.ctx.discoveryWatcherSnapshotIndex := by
      unfold insertSnapshotIndex
      split
      · next hinserted => exact ⟨h, h.inserted hinserted⟩
      · refine ⟨⟨h.index, fun i hi => ?_, fun _ => Finset.mem_insert_self _ _⟩,
          Finset.mem_insert_self _ _⟩
        rcases Finset.mem_insert.1 hi with heq | hi
        · exact heq.ge
        · exact h.first i hi
    obtain ⟨helected, hmem⟩ := hinsert
    have hmin : st.insertSnapshotIndex.ctx.discoveryWatcherSnapshotIndex.min =
        (st.insertSnapshotIndex.wrapper.snapshotIndex : WithTop Int) := by
      refine le_antisymm (Finset.min_le hmem) (Finset.le_min fun i hi => ?_)
      exact WithTop.coe_le_coe.2 (helected.first i hi)
    refine ⟨?_, helected⟩
    simp [otherFirst, hmin]

/-- A response keeps the election and the address of the context. -/
theorem handleResponse_elected (h : st.Elected) (header : EtcdResponseHeader)
    (body : WatchResponse) :
    (st.handleResponse cfg codec order header body).Elected ∧
      (st.handleResponse cfg codec order header body).ctx.addr = st.ctx.addr := by
  have hheader : ({ st with ctx := { st.ctx with lastEtcdEventDiscoveryHeader := header } } :
      DiscoveryWatcherState).Elected := ⟨h.index, h.first, h.inserted⟩
  obtain ⟨-, helected⟩ := electSnapshot_of_elected hheader body.snapshot
  obtain ⟨-, haddr⟩ := electSnapshot_frame
    { st with ctx := { st.ctx with lastEtcdEventDiscoveryHeader := header } } body.snapshot
  exact ⟨⟨helected.index, helected.first, helected.inserted⟩, haddr⟩

/-- The events of a response that is no snapshot are merged one after the other. -/
theorem handleResponse_events (header : EtcdResponseHeader) {body : WatchResponse}
    (hsnapshot : body.snapshot = false) :
    (st.handleResponse cfg codec order header body).mod = (body.events.foldl
      (ServiceDiscoveryModule.handleEvent cfg codec st.ctx.addr false) (st.mod, {})).1 := by
  simp [handleResponse, electSnapshot, hsnapshot]

/-- The callback after one more effect of the watcher. -/
def handleEffect (cfg : HashConfig) (codec : DiscoveryCodec) (order : HashMapOrder)
    (st : DiscoveryWatcherState) : WatcherEffect → DiscoveryWatcherState
  | .evtHandle header response => st.handleResponse cfg codec order header response
  | _ => st

end DiscoveryWatcherState

namespace WatchedDirectory

variable (cfg : HashConfig) (w : WatchedDirectory) (names : Nat → Bytes)

/-- The node that is read from an event. -/
def nodeOf (event : WatchEvent) : AtappDiscovery :=
  (ServiceDiscoveryModule.decodeEvent w.codec w.contextAddr event).1.nodeDiscovery

/-- The event carries an id and its name, and is about the key of the id. -/
def OwnEvent (event : WatchEvent) : Prop :=
  (w.nodeOf event).id ≠ 0 ∧ (w.nodeOf event).name ≠ [] ∧
    (w.nodeOf event).name = names (w.nodeOf event).id ∧
    event = w.watchEvent (if event.evtType = .put then
      .put (App.named names (w.nodeOf event).id) event.kv
      else .delete (App.named names (w.nodeOf event).id) event.kv)

instance : DecidablePred (w.OwnEvent names) := fun event =>
  inferInstanceAs (Decidable ((w.nodeOf event).id ≠ 0 ∧ (w.nodeOf event).name ≠ [] ∧
    (w.nodeOf event).name = names (w.nodeOf event).id ∧ event = _))

/-- The infos of a store, by their keys, with field presence forgotten. -/
def registry (store : Store Bytes EtcdKeyValue) (k : Bytes) : Option AtappDiscovery :=
  (store k).map fun kv => (w.nodeOf { kv }).canonical

/-- The set finds the node of the value of a key, or nothing under the id and the name. -/
def Finds (m : ServiceDiscoveryModule) (id : Nat) : Option EtcdKeyValue → Prop
  | some kv => m.Holds (w.nodeOf { kv })
  | none => m.byId id = none ∧ m.byName (names id) = none

/-- **The set finds exactly the nodes of a store.** -/
structure HoldsStore (m : ServiceDiscoveryModule) (store : Store Bytes EtcdKeyValue) : Prop where
  holds : ∀ k kv, store k = some kv → m.Holds (w.nodeOf { kv })
  ids : ∀ id p, m.byId id = some p →
    ∃ kv, store (w.key (App.named names id)) = some kv ∧ (w.nodeOf { kv }).id = id
  names : ∀ name p, m.byName name = some p → ∃ id kv, names id = name ∧
    store (w.key (App.named names id)) = some kv ∧ (w.nodeOf { kv }).name = name

/-- **The contents are those of a replica.** -/
structure Tracks (replica : Store Bytes EtcdKeyValue) (m : ServiceDiscoveryModule) : Prop where
  valid : ServiceDiscoveryModule.Valid cfg m
  one : ServiceDiscoveryModule.OneContext w.contextAddr m
  contents : m.contents = KeyedSet.image (w.registry replica)
  known : ∀ k kv, replica k = some kv → w.OwnEvent names { kv } ∧ kv.key = k

/-! ## The keys of events -/

variable {cfg} {w} {names}

theorem OwnEvent.key_eq {event : WatchEvent} (h : w.OwnEvent names event) :
    event.key = w.key (App.named names (w.nodeOf event).id) := by
  have hevent := congrArg WatchEvent.key h.2.2.2
  rw [hevent]
  split <;> rfl

/-- A put is its key and value alone. -/
theorem OwnEvent.put_eq {event : WatchEvent} (h : w.OwnEvent names event)
    (htype : event.evtType = .put) : event = { kv := event.kv } := by
  have hput := h.2.2.2
  rw [if_pos htype] at hput
  have hkv := congrArg WatchEvent.kv hput
  exact hput.trans (congrArg (fun kv => ({ kv } : WatchEvent)) hkv.symm)

theorem registry_apply (replica : Store Bytes EtcdKeyValue) (event : WatchEvent) :
    w.registry (LogReplica.apply WatchEvent.key WatchEvent.value replica event) =
      Function.update (w.registry replica) event.key
        (event.value.map fun kv => (w.nodeOf { kv }).canonical) := by
  funext k
  by_cases hk : k = event.key
  · subst hk
    simp [registry, LogReplica.apply]
  · rw [Function.update_of_ne hk, registry, registry, LogReplica.apply_of_ne (Ne.symm hk)]

/-- An info of the replica has an id, and the name of the id. -/
theorem Tracks.of_registry {replica : Store Bytes EtcdKeyValue} {m : ServiceDiscoveryModule}
    (h : w.Tracks cfg names replica m) {k : Bytes} {node : AtappDiscovery}
    (hnode : w.registry replica k = some node) :
    node.id ≠ 0 ∧ node.name = names node.id ∧ k = w.key (App.named names node.id) := by
  obtain ⟨kv, hkv, rfl⟩ := Option.map_eq_some_iff.1 hnode
  obtain ⟨hown, hkey⟩ := h.known k kv hkv
  exact ⟨hown.1, hown.2.2.1, hkey.symm.trans hown.key_eq⟩

/-- **Of the infos of the replica, an event clashes with that of its own key alone.** -/
theorem Tracks.ownedBy (hnames : Function.Injective names) {replica : Store Bytes EtcdKeyValue}
    {m : ServiceDiscoveryModule} (h : w.Tracks cfg names replica m) {event : WatchEvent}
    (hevent : w.OwnEvent names event) :
    KeyedSet.OwnedBy AtappDiscovery.SharesKey (w.registry replica) event.key (w.nodeOf event) := by
  intro k node hnode
  obtain ⟨hid, hname, rfl⟩ := h.of_registry hnode
  constructor
  · intro hshares
    rw [hevent.key_eq]
    rcases hshares with ⟨-, heq⟩ | ⟨-, heq⟩
    · rw [heq]
    · rw [hname, hevent.2.2.1] at heq
      rw [hnames heq]
  · intro hkey
    have heq := ServiceDiscoveryModule.named_of_keyPath (hkey.trans hevent.key_eq)
    exact Or.inl ⟨hid, heq⟩

/-- No put crosses two infos of the replica: an info with its id has its name. -/
theorem Tracks.not_crosses {replica : Store Bytes EtcdKeyValue} {m : ServiceDiscoveryModule}
    (h : w.Tracks cfg names replica m) {event : WatchEvent} (hevent : w.OwnEvent names event) :
    ¬ ServiceDiscoveryModule.Crosses m.contents (w.nodeOf event) := by
  rintro ⟨a, ha, b, -, hid, -, -, hne⟩
  rw [h.contents] at ha
  obtain ⟨k, hk⟩ := ha
  obtain ⟨-, hname, -⟩ := h.of_registry hk
  exact hne (by rw [hname, hid, ← hevent.2.2.1])

/-! ## One event -/

/-- **One event.** -/
theorem Tracks.one_event (hnames : Function.Injective names) {replica : Store Bytes EtcdKeyValue}
    {m : ServiceDiscoveryModule} (h : w.Tracks cfg names replica m) {event : WatchEvent}
    (hevent : w.OwnEvent names event) :
    w.Tracks cfg names (LogReplica.apply WatchEvent.key WatchEvent.value replica event)
      (m.step cfg (ServiceDiscoveryModule.decodeEvent w.codec w.contextAddr event)) := by
  have hctx := ServiceDiscoveryModule.decodeEvent_contextAddr w.codec w.contextAddr event
  have hknown : ∀ k kv,
      LogReplica.apply WatchEvent.key WatchEvent.value replica event k = some kv →
        w.OwnEvent names { kv } ∧ kv.key = k := by
    intro k kv hkv
    by_cases hk : event.key = k
    · subst hk
      rw [LogReplica.apply, Function.update_self] at hkv
      obtain ⟨htype, rfl⟩ := WatchEvent.value_eq_some hkv
      have hput := hevent.put_eq htype
      exact ⟨hput ▸ hevent, rfl⟩
    · rw [LogReplica.apply_of_ne hk] at hkv
      exact h.known k kv hkv
  have howned := h.ownedBy hnames hevent
  cases htype : event.evtType with
  | put =>
    have haction : (ServiceDiscoveryModule.decodeEvent w.codec w.contextAddr event).1.action
        = .put := by
      simp [ServiceDiscoveryModule.decodeEvent, htype]
    have hr : ¬ m.RekeysInPlace
        (ServiceDiscoveryModule.decodeEvent w.codec w.contextAddr event).1 := by
      rw [ServiceDiscoveryModule.rekeysInPlace_iff h.valid.index h.one hctx haction hevent.1
        hevent.2.1]
      exact h.not_crosses hevent
    obtain ⟨hv, hone, hcontents⟩ := ServiceDiscoveryModule.contents_put h.valid h.one hctx haction
      (Or.inl hevent.1) hr
      (ServiceDiscoveryModule.decodeEvent w.codec w.contextAddr event).2
    refine ⟨hv, hone, ?_, hknown⟩
    have hvalue : event.value.map (fun kv => (w.nodeOf { kv }).canonical) =
        some (w.nodeOf event).canonical := by
      have hput := hevent.put_eq htype
      rw [WatchEvent.value, htype]
      exact congrArg (fun e => some (w.nodeOf e).canonical) hput.symm
    have hcanonical : KeyedSet.OwnedBy AtappDiscovery.SharesKey (w.registry replica) event.key
        (w.nodeOf event).canonical := howned
    rw [registry_apply, hvalue, ← KeyedSet.put_image hcanonical, ← h.contents]
    exact hcontents
  | delete =>
    have haction : (ServiceDiscoveryModule.decodeEvent w.codec w.contextAddr event).1.action
        = .delete := by
      simp [ServiceDiscoveryModule.decodeEvent, htype]
    obtain ⟨hv, hone, hcontents⟩ := ServiceDiscoveryModule.contents_delete h.valid h.one hctx
      haction (ServiceDiscoveryModule.decodeEvent w.codec w.contextAddr event).2
    refine ⟨hv, hone, ?_, hknown⟩
    have hvalue : event.value.map (fun kv => (w.nodeOf { kv }).canonical) = none := by
      rw [WatchEvent.value, htype]
      rfl
    rw [registry_apply, hvalue, ← KeyedSet.remove_image howned, ← h.contents]
    exact hcontents

/-- **The events of a watch response.** -/
theorem Tracks.events (hnames : Function.Injective names) {events : List WatchEvent}
    (hevents : ∀ e ∈ events, w.OwnEvent names e) {replica : Store Bytes EtcdKeyValue}
    {m : ServiceDiscoveryModule} (h : w.Tracks cfg names replica m) (old : OldNodes) :
    w.Tracks cfg names (replay WatchEvent.key WatchEvent.value replica events)
      (events.foldl (ServiceDiscoveryModule.handleEvent cfg w.codec w.contextAddr false)
        (m, old)).1 := by
  induction events generalizing replica m with
  | nil => exact h
  | cons e events ih =>
    obtain ⟨hfirst, hrest⟩ := List.forall_mem_cons.1 hevents
    have hround : ServiceDiscoveryModule.handleEvent cfg w.codec w.contextAddr false (m, old) e =
        (m.step cfg (ServiceDiscoveryModule.decodeEvent w.codec w.contextAddr e), old) := by
      have hskip : ¬ ((ServiceDiscoveryModule.decodeEvent w.codec w.contextAddr e).1.nodeDiscovery.id
          = 0 ∧ (ServiceDiscoveryModule.decodeEvent w.codec w.contextAddr e).1.nodeDiscovery.name
          = []) := fun hnone => hfirst.1 hnone.1
      simp only [ServiceDiscoveryModule.handleEvent, if_neg hskip, Bool.false_eq_true, if_false]
    rw [List.foldl_cons, hround, LogReplica.replay_cons]
    exact ih hrest (h.one_event hnames hfirst)

/-! ## A snapshot -/

section Snapshot

variable {events : List WatchEvent} {order : HashMapOrder} {replica : Store Bytes EtcdKeyValue}
  {m : ServiceDiscoveryModule}

/-- The nodes of the events of different keys have different ids and names. -/
theorem distinctNodes (hnames : Function.Injective names)
    (hevents : ∀ e ∈ events, w.OwnEvent names e) (hnodup : (events.map WatchEvent.key).Nodup) :
    ServiceDiscoveryModule.DistinctNodes (events.map w.nodeOf) := by
  refine ⟨?_, ?_⟩
  · intro node hnode
    obtain ⟨e, he, rfl⟩ := List.mem_map.1 hnode
    exact ⟨(hevents e he).1, (hevents e he).2.1⟩
  · refine List.pairwise_map.2 ((List.pairwise_map.1 hnodup).imp_of_mem ?_)
    intro a b ha hb hne
    have hid : (w.nodeOf a).id ≠ (w.nodeOf b).id := by
      intro heq
      refine hne ?_
      rw [(hevents a ha).key_eq, (hevents b hb).key_eq, heq]
    refine ⟨hid, ?_⟩
    rw [(hevents a ha).2.2.1, (hevents b hb).2.2.1]
    exact fun heq => hid (hnames heq)

/-- **A snapshot of events is mergeable**, since ids and names determine each other. -/
theorem Tracks.mergeable (hnames : Function.Injective names) (h : w.Tracks cfg names replica m)
    (hevents : ∀ e ∈ events, w.OwnEvent names e) :
    ServiceDiscoveryModule.Mergeable m.contents (events.map w.nodeOf) := by
  have hold : ∀ a ∈ m.contents, a.name = names a.id := by
    intro a ha
    rw [h.contents] at ha
    obtain ⟨k, hk⟩ := ha
    exact (h.of_registry hk).2.1
  have hnew : ∀ node ∈ events.map w.nodeOf, node.name = names node.id := by
    intro node hnode
    obtain ⟨e, he, rfl⟩ := List.mem_map.1 hnode
    exact (hevents e he).2.2.1
  refine ⟨?_, ?_⟩
  · intro before node after heq a ha b _ hid _ _ hne
    have hnode : node ∈ events.map w.nodeOf := heq ▸ by simp
    exact absurd (by rw [hold a ha, hid, ← hnew node hnode]) hne
  · intro a ha _ hmissing node hnode hname
    rw [hnew node hnode, hold a ha] at hname
    exact hmissing node hnode (hnames hname)

/-- The decoded events of a response are those of all its events. -/
theorem decodedEvents_eq (hevents : ∀ e ∈ events, w.OwnEvent names e) :
    ServiceDiscoveryModule.decodedEvents w.codec w.contextAddr events =
      events.map (ServiceDiscoveryModule.decodeEvent w.codec w.contextAddr) := by
  refine List.filter_eq_self.2 fun input hinput => ?_
  obtain ⟨e, he, rfl⟩ := List.mem_map.1 hinput
  exact decide_eq_true (Or.inl (hevents e he).1)

/-- The cleanup keeps the invariants. -/
theorem cleanup_kept {left : List NodePtr} {context : Nat}
    (hv : ServiceDiscoveryModule.Valid cfg m)
    (hone : ServiceDiscoveryModule.OneContext context m) :
    ServiceDiscoveryModule.Valid cfg
        (left.foldl (ServiceDiscoveryModule.cleanupOldNode cfg context) m) ∧
      ServiceDiscoveryModule.OneContext context
        (left.foldl (ServiceDiscoveryModule.cleanupOldNode cfg context) m) := by
  induction left generalizing m with
  | nil => exact ⟨hv, hone⟩
  | cons p left ih =>
    rw [List.foldl_cons]
    by_cases hctx : (m.heap p).contextAddr = context
    · have hdelete : (m.cleanupEvent context p).action = .delete := rfl
      obtain ⟨hv', hone', -⟩ :=
        ServiceDiscoveryModule.contents_delete hv hone rfl hdelete (m.heap p).nodeVersion
      rw [ServiceDiscoveryModule.cleanupOldNode, if_neg (not_not.2 hctx)]
      exact ih hv' hone'
    · rw [ServiceDiscoveryModule.cleanupOldNode, if_pos hctx]
      exact ih hv hone

/-- **A snapshot** of different keys starts the contents over. -/
theorem Tracks.snapshot (hnames : Function.Injective names) (h : w.Tracks cfg names replica m)
    (hevents : ∀ e ∈ events, w.OwnEvent names e) (hput : ∀ e ∈ events, e.evtType = .put)
    (hnodup : (events.map WatchEvent.key).Nodup) :
    w.Tracks cfg names (replay WatchEvent.key WatchEvent.value (fun _ => none) events)
      (ServiceDiscoveryModule.mergeSnapshot cfg order w.contextAddr m
        (ServiceDiscoveryModule.decodedEvents w.codec w.contextAddr events)) := by
  have hnodes : (ServiceDiscoveryModule.decodedEvents w.codec w.contextAddr events).map
      (fun input => input.1.nodeDiscovery) = events.map w.nodeOf := by
    rw [decodedEvents_eq hevents, List.map_map]
    rfl
  have hdistinct := distinctNodes hnames hevents hnodup
  have hmergeable := h.mergeable hnames hevents
  rw [← hnodes] at hdistinct hmergeable
  have hputs : ServiceDiscoveryModule.Puts w.contextAddr
      (ServiceDiscoveryModule.decodedEvents w.codec w.contextAddr events) := by
    intro input hinput
    obtain ⟨hctx, -, haction⟩ := ServiceDiscoveryModule.mem_decodedEvents hinput
    obtain ⟨hid, hname⟩ := hdistinct.keys _ (List.mem_map_of_mem hinput)
    exact ⟨hctx, haction hput, hid, hname⟩
  have hexact : (ServiceDiscoveryModule.mergeSnapshot cfg order w.contextAddr m
      (ServiceDiscoveryModule.decodedEvents w.codec w.contextAddr events)).HoldsExactly _ :=
    (ServiceDiscoveryModule.mergeSnapshot_holdsExactly_iff h.valid h.one hputs hdistinct).2
      hmergeable
  -- a mergeable snapshot rekeys no node in place
  have hr : Run.StepsMeet (ServiceDiscoveryModule.step cfg)
      (fun m input => ¬ m.RekeysInPlace input.1) (m.collectOldNodes cfg).1
      (ServiceDiscoveryModule.decodedEvents w.codec w.contextAddr events) := by
    by_contra hnot
    exact (ServiceDiscoveryModule.mergeSnapshot_of_not_stepsMeet order h.valid h.one hputs
      hdistinct hnot).2 hmergeable
  obtain ⟨hv1, hone1, -, -, -⟩ := ServiceDiscoveryModule.collectOldNodes_module h.valid h.one
  obtain ⟨hv2, hone2, -, -⟩ := ServiceDiscoveryModule.run_puts hv1 hone1 hputs hr
  have hkept : ServiceDiscoveryModule.Valid cfg (ServiceDiscoveryModule.mergeSnapshot cfg order
        w.contextAddr m (ServiceDiscoveryModule.decodedEvents w.codec w.contextAddr events)) ∧
      ServiceDiscoveryModule.OneContext w.contextAddr (ServiceDiscoveryModule.mergeSnapshot cfg
        order w.contextAddr m
        (ServiceDiscoveryModule.decodedEvents w.codec w.contextAddr events)) :=
    cleanup_kept hv2 hone2
  refine ⟨hkept.1, hkept.2, ?_, ?_⟩
  · rw [(ServiceDiscoveryModule.holdsExactly_iff hkept.1.index
      fun node hnode => Or.inl (hdistinct.keys node hnode).1).1 hexact, hnodes, List.map_map]
    ext node
    constructor
    · intro hnode
      obtain ⟨e, he, rfl⟩ := List.mem_map.1 hnode
      refine ⟨e.key, ?_⟩
      rw [registry, LogReplica.replay_of_mem hnodup he, WatchEvent.value, hput e he]
      exact congrArg (fun e => some (w.nodeOf e).canonical)
        ((hevents e he).put_eq (hput e he)).symm
    · rintro ⟨k, hk⟩
      obtain ⟨kv, hkv, rfl⟩ := Option.map_eq_some_iff.1 hk
      rcases LogReplica.replay_eq_some hkv with ⟨hnone, -⟩ | ⟨front, e, back, rfl, -, hvalue, -⟩
      · cases hnone
      · have he : e ∈ front ++ e :: back := by simp
        obtain ⟨htype, rfl⟩ := WatchEvent.value_eq_some hvalue
        rw [← (hevents e he).put_eq htype]
        exact List.mem_map.2 ⟨e, he, rfl⟩
  · intro k kv hkv
    rcases LogReplica.replay_eq_some hkv with ⟨hnone, -⟩ | ⟨front, e, back, rfl, hkey, hvalue, -⟩
    · cases hnone
    · have he : e ∈ front ++ e :: back := by simp
      obtain ⟨htype, rfl⟩ := WatchEvent.value_eq_some hvalue
      exact ⟨(hevents e he).put_eq htype ▸ hevents e he, hkey⟩

end Snapshot

/-! ## What the set finds -/

section Finds

variable {replica : Store Bytes EtcdKeyValue} {m : ServiceDiscoveryModule}

/-- A filed node is that of a value of the replica. -/
theorem Tracks.exists_of_live (h : w.Tracks cfg names replica m) {p : NodePtr}
    (hlive : m.globalDiscovery.Live p) :
    ∃ kv, replica (w.key (App.named names (m.heap p).id)) = some kv ∧
      (w.nodeOf { kv }).id = (m.heap p).id ∧ (w.nodeOf { kv }).name = (m.heap p).name ∧
      names (m.heap p).id = (m.heap p).name := by
  have hmem : (m.heap p).nodeInfo.canonical ∈ m.contents := ⟨p, hlive, rfl⟩
  rw [h.contents] at hmem
  obtain ⟨k, hk⟩ := hmem
  obtain ⟨-, hname, rfl⟩ := h.of_registry hk
  obtain ⟨kv, hkv, hcanonical⟩ := Option.map_eq_some_iff.1 hk
  have hkvid := congrArg AtappDiscovery.id hcanonical
  have hkvname := congrArg AtappDiscovery.name hcanonical
  exact ⟨kv, hkv, hkvid, hkvname, hname.symm⟩

theorem Tracks.holds (h : w.Tracks cfg names replica m) {k : Bytes} {kv : EtcdKeyValue}
    (hkv : replica k = some kv) : m.Holds (w.nodeOf { kv }) := by
  obtain ⟨hown, -⟩ := h.known k kv hkv
  refine (ServiceDiscoveryModule.holds_iff_mem_contents h.valid.index (Or.inl hown.1)).2 ?_
  rw [h.contents]
  exact ⟨k, by simp [registry, hkv]⟩

theorem Tracks.holdsStore (h : w.Tracks cfg names replica m) : w.HoldsStore names m replica := by
  refine ⟨fun k kv hkv => h.holds hkv, ?_, ?_⟩
  · intro id p hp
    obtain ⟨kv, hkv, hid, -, -⟩ := h.exists_of_live (Or.inl ⟨id, hp⟩)
    have hpid : (m.heap p).id = id := (h.valid.index.id_key id p hp).2
    rw [hpid] at hkv hid
    exact ⟨kv, hkv, hid⟩
  · intro name p hp
    obtain ⟨kv, hkv, -, hname, hnames⟩ := h.exists_of_live (Or.inr ⟨name, hp⟩)
    have hpname : (m.heap p).name = name := (h.valid.index.name_key name p hp).2
    exact ⟨(m.heap p).id, kv, hnames.trans hpname, hkv, hname.trans hpname⟩

theorem Tracks.finds (hnames : Function.Injective names) (h : w.Tracks cfg names replica m)
    (id : Nat) : w.Finds names m id (replica (w.key (App.named names id))) := by
  cases hkv : replica (w.key (App.named names id)) with
  | some kv => exact h.holds hkv
  | none =>
    refine ⟨Option.eq_none_iff_forall_ne_some.2 fun p hp => ?_,
      Option.eq_none_iff_forall_ne_some.2 fun p hp => ?_⟩
    · obtain ⟨kv, hkv', -⟩ := h.holdsStore.ids id p hp
      rw [hkv] at hkv'
      cases hkv'
    · obtain ⟨id', kv, hname, hkv', -⟩ := h.holdsStore.names _ p hp
      rw [hnames hname, hkv] at hkv'
      cases hkv'

end Finds

/-! ## Runs -/

/-- The callback after everything that was handed over. -/
def callbackAfter (cfg : HashConfig) (w : WatchedDirectory) (order : HashMapOrder)
    (watcher : DiscoveryWatcherState) (s : WatchSystem) : DiscoveryWatcherState :=
  s.watcher.effects.foldl (DiscoveryWatcherState.handleEffect cfg w.codec order) watcher

/-- The revision of a transaction changes neither the key nor the node of an event. -/
theorem OwnEvent.commitAt {event : WatchEvent} (h : w.OwnEvent names event) (revision : Int) :
    w.OwnEvent names (event.commitAt revision) := by
  obtain ⟨hid, hname, hnames, hevent⟩ := h
  refine ⟨hid, hname, hnames, ?_⟩
  have hcommit := congrArg (WatchEvent.commitAt revision) hevent
  refine hcommit.trans ?_
  show _ = w.watchEvent (if event.evtType = .put then
      .put (App.named names (w.nodeOf event).id) (event.commitAt revision).kv
    else .delete (App.named names (w.nodeOf event).id) (event.commitAt revision).kv)
  split <;> rfl

/-- **One effect of the watcher.** -/
theorem Tracks.effect (hnames : Function.Injective names) {order : HashMapOrder}
    {replica : Store Bytes EtcdKeyValue} {st : DiscoveryWatcherState} (helected : st.Elected)
    (haddr : st.ctx.addr = w.contextAddr) (h : w.Tracks cfg names replica st.mod)
    {effect : WatcherEffect} (hcarries : effect.Carries (w.OwnEvent names)) :
    (st.handleEffect cfg w.codec order effect).Elected ∧
      (st.handleEffect cfg w.codec order effect).ctx.addr = w.contextAddr ∧
      w.Tracks cfg names (effect.applyTo replica)
        (st.handleEffect cfg w.codec order effect).mod := by
  cases effect with
  | trunk valueJson => exact ⟨helected, haddr, h⟩
  | stop => exact ⟨helected, haddr, h⟩
  | evtHandle header response =>
    obtain ⟨hevents, hsnapshot⟩ := hcarries
    have hkept : (st.handleResponse cfg w.codec order header response).Elected ∧
        (st.handleResponse cfg w.codec order header response).ctx.addr = st.ctx.addr :=
      DiscoveryWatcherState.handleResponse_elected helected header response
    obtain ⟨helected', haddr'⟩ := hkept
    refine ⟨helected', haddr'.trans haddr, ?_⟩
    simp only [DiscoveryWatcherState.handleEffect, WatcherEffect.applyTo]
    cases hbody : response.snapshot with
    | true =>
      obtain ⟨hnodup, hput⟩ := hsnapshot hbody
      have hload := (DiscoveryWatcherState.electSnapshot_of_elected helected response.snapshot).1
      rw [DiscoveryWatcherState.handleResponse_mod header (hload.trans hbody), haddr]
      exact h.snapshot hnames hevents hput hnodup
    | false =>
      rw [DiscoveryWatcherState.handleResponse_events header hbody, haddr]
      exact h.events hnames hevents {}

/-- The contents follow the replica of what was handed over. -/
theorem tracks_callbackAfter (hnames : Function.Injective names) {order : HashMapOrder}
    {watcher : DiscoveryWatcherState} (helected : watcher.Elected)
    (haddr : watcher.ctx.addr = w.contextAddr) {s : WatchSystem}
    (hcarried : ∀ effect ∈ s.watcher.effects, effect.Carries (w.OwnEvent names))
    (hstart : w.Tracks cfg names (fun _ => none) watcher.mod) :
    w.Tracks cfg names s.watcher.replica (w.callbackAfter cfg order watcher s).mod := by
  unfold EtcdWatcher.replica callbackAfter
  generalize s.watcher.effects = effects at hcarried
  generalize (fun _ => none : Store Bytes EtcdKeyValue) = replica at hstart
  induction effects generalizing replica watcher with
  | nil => exact hstart
  | cons effect effects ih =>
    obtain ⟨hfirst, hrest⟩ := List.forall_mem_cons.1 hcarried
    have hnext : (watcher.handleEffect cfg w.codec order effect).Elected ∧
        (watcher.handleEffect cfg w.codec order effect).ctx.addr = w.contextAddr ∧
        w.Tracks cfg names (effect.applyTo replica)
          (watcher.handleEffect cfg w.codec order effect).mod :=
      hstart.effect hnames helected haddr hfirst
    obtain ⟨helected', haddr', htracks⟩ := hnext
    exact ih helected' haddr' hrest _ htracks

/-- **The discovery set is in step with the server.** Let ids and names determine each other, and let
    the elected watcher of a context start with an empty set. In a run in which no response header is
    ahead of the events that the watch has still to send, the set finds what the server has of an id
    as soon as all changes of its key are at most at `last_revision`, and whenever the watch has sent
    everything, it finds exactly the nodes that the server has. -/
theorem always_discoveryInStep (cfg : HashConfig) (order : HashMapOrder) (w : WatchedDirectory)
    (names : Nat → Bytes) (hnames : Function.Injective names) (watcher : DiscoveryWatcherState)
    (helected : watcher.Elected) (haddr : watcher.ctx.addr = w.contextAddr)
    (hvalid : ServiceDiscoveryModule.Valid cfg watcher.mod)
    (hempty : ∀ p, ¬ watcher.mod.globalDiscovery.Live p) (path rangeEnd : Bytes)
    (startupRandomDelayMin : Int) (steps : List WatchStep)
    (h : Run.StepsMeet WatchSystem.step (WatchSystem.StepCarries (w.OwnEvent names))
      (some (WatchSystem.initial path rangeEnd startupRandomDelayMin)) steps) :
    Run.Always WatchSystem.step
      (WatchSystem.IfRunning fun s =>
        let m := (w.callbackAfter cfg order watcher s).mod
        (∀ id, (∀ e ∈ s.log, e.key = w.key (App.named names id) →
            e.revision ≤ s.watcher.lastRevision) →
          w.Finds names m id (s.store (w.key (App.named names id)))) ∧
        ∀ startRevision ∈ s.watcher.watchStart, s.pending startRevision = [] →
          w.HoldsStore names m s.store)
      (some (WatchSystem.initial path rangeEnd startupRandomDelayMin)) steps := by
  have hstart : w.Tracks cfg names (fun _ => none) watcher.mod := by
    refine ⟨hvalid, fun p hp => absurd hp (hempty p), ?_, ?_⟩
    · ext node
      constructor
      · rintro ⟨p, hp, -⟩
        exact absurd hp (hempty p)
      · rintro ⟨k, hk⟩
        cases hk
    · intro k kv hkv
      cases hkv
  have hcarrying := WatchSystem.always_carrying (w.OwnEvent names)
    (fun revision e _ he => he.commitAt revision)
    (fun e he htype => he.put_eq htype ▸ he) path rangeEnd startupRandomDelayMin h
  refine hcarrying.mono _ ?_
  intro st hst s hrun
  have hs := hst s hrun
  have htracks : w.Tracks cfg names s.watcher.replica (w.callbackAfter cfg order watcher s).mod :=
    tracks_callbackAfter hnames helected haddr hs.carried hstart
  refine ⟨?_, ?_⟩
  · intro id hsettled
    rw [← hs.toReplicating.replicates.settled _ hsettled]
    exact htracks.finds hnames id
  · intro startRevision hmem hdrained
    rw [← hs.toReplicating.replicates.drained startRevision hmem hdrained]
    exact htracks.holdsStore

/-- A name for each id. -/
def numberedName (id : Nat) : Bytes := ascii "s" ++ decimal id

theorem numberedName_injective : Function.Injective numberedName := by
  intro id id' h
  exact decimal_inj (List.append_cancel_left h)

/-- The directory by id of context 5, with two servers. -/
def numberedDirectory : WatchedDirectory :=
  KeyHistory.watchedById [{ id := 1, name := numberedName 1 }, { id := 2, name := numberedName 2 }]

/-- A server is registered. -/
def numberedPut (id : Nat) : WatchEvent :=
  numberedDirectory.watchEvent
    (.put (App.named numberedName id) { value := jsonText { id, name := numberedName id } })

/-- Server 2 is registered and expires, and after a header with an old revision the connection breaks,
    so that both events are handed over again. -/
def numberedSteps : List WatchStep :=
  [.active 1 .started, .commit [numberedPut 1], .rangeDone 1 .started 1, .respond 1 .created,
   .commit [numberedPut 2],
   .commit [numberedDirectory.watchEvent (.delete (App.named numberedName 2) {})],
   .respond 2 (.events 1), .respond 3 (.events 1), .respond 1 .progress,
   .watchDone 1 .started ⟨28, true⟩, .rangeDone 1 .started 3, .respond 1 .created,
   .respond 3 (.events 2)]

theorem always_discoveryInStep_numbered :
    let watcher : DiscoveryWatcherState :=
      { mod := {}, ctx := { addr := 5 }, wrapper := { snapshotIndex := 1 } }
    (Run.run WatchSystem.step (some (WatchSystem.initial [] [] 0)) numberedSteps).map (fun s =>
        let m := (numberedDirectory.callbackAfter DiscoveryState.seedConfig
          DiscoveryWatcherState.entryOrder watcher s).mod
        (s.watcher.watchStart.map s.pending, (m.byId 1).isSome, (m.byId 2).isSome)) =
      some (some [], true, false) ∧
    Run.Always WatchSystem.step
      (WatchSystem.IfRunning fun s =>
        let m := (numberedDirectory.callbackAfter DiscoveryState.seedConfig
          DiscoveryWatcherState.entryOrder watcher s).mod
        (∀ id, (∀ e ∈ s.log, e.key = numberedDirectory.key (App.named numberedName id) →
            e.revision ≤ s.watcher.lastRevision) →
          numberedDirectory.Finds numberedName m id
            (s.store (numberedDirectory.key (App.named numberedName id)))) ∧
        ∀ startRevision ∈ s.watcher.watchStart, s.pending startRevision = [] →
          numberedDirectory.HoldsStore numberedName m s.store)
      (some (WatchSystem.initial [] [] 0)) numberedSteps := by
  intro watcher
  have hempty : ∀ p, ¬ watcher.mod.globalDiscovery.Live p := by
    rintro p (⟨k, hk⟩ | ⟨n, hn⟩)
    · simp [watcher, EtcdDiscoverySet.getNodeById] at hk
    · simp [watcher, EtcdDiscoverySet.getNodeByName] at hn
  refine ⟨by decide +kernel, ?_⟩
  exact always_discoveryInStep DiscoveryState.seedConfig DiscoveryWatcherState.entryOrder
    numberedDirectory numberedName numberedName_injective watcher
    ⟨by decide, by decide, by decide⟩ rfl (ServiceDiscoveryModule.valid_empty _) hempty [] [] 0
    numberedSteps (by decide +kernel)

end WatchedDirectory

end LibAtapp
