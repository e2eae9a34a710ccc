import LibAtapp.Modules.DiscoveryWatcher
import Mathlib.Data.Finmap

set_option autoImplicit false

/-! # Topology events

`service_discovery_module::update_internal_watcher_event(topology_info_t)` merges one Put or Delete
of a topology key into the set of topology infos, which is keyed by id only. The callback of the
topology watchers decodes the events of a response, hands them to the handler and deletes what a
snapshot no longer holds. -/

namespace LibAtapp

/-! ## The stored infos -/

/-- The labels of an `atbus_topology_data`. -/
abbrev TopologyLabels := Finmap (fun _ : Bytes => Bytes)

/-- `atapp_topology_info`. -/
structure AtappTopologyInfo where
  id : Nat := 0
  name : Bytes := []
  hostname : Bytes := []
  pid : Int := 0
  identity : Bytes := []
  version : Bytes := []
  upstreamId : Nat := 0
  data : Option TopologyLabels := none
  deriving DecidableEq

namespace AtappTopologyInfo

/-- `data().label()`. -/
def label (info : AtappTopologyInfo) : TopologyLabels := info.data.getD ∅

/-- `atapp_topology_equal`: the id, the upstream, the name and the labels agree. -/
def topologyEqual (l r : AtappTopologyInfo) : Bool :=
  l.id == r.id && l.upstreamId == r.upstreamId && l.name == r.name &&
    l.label.entries.card == r.label.entries.card &&
    decide (∀ kv ∈ l.label.entries, r.label.lookup kv.1 = some kv.2)

theorem topologyEqual_self (info : AtappTopologyInfo) : topologyEqual info info = true := by
  simp only [topologyEqual, beq_self_eq_true, Bool.and_self, Bool.true_and, decide_eq_true_eq]
  intro kv hkv
  exact Finmap.mem_lookup_iff.2 hkv

end AtappTopologyInfo

/-- `topology_storage_t`. The info is never null: `unpack` makes one. -/
structure TopologyStorage where
  info : AtappTopologyInfo
  contextAddr : Nat
  version : EtcdDataVersion := {}
  deriving DecidableEq

/-- `topology_info_t`. -/
structure TopologyInfoT where
  storage : TopologyStorage
  action : NodeActionT := .put
  deriving DecidableEq

/-- Does one of the counters of `topology_update_version` grow? -/
def TopologyStorage.grows (storage : TopologyStorage) (newVersion : EtcdDataVersion) : Bool :=
  decide (newVersion.createRevision > storage.version.createRevision) ||
    decide (newVersion.modifyRevision > storage.version.modifyRevision) ||
    decide (newVersion.version > storage.version.version)

/-- `topology_update_version`: the storage after the call, and whether it changed. -/
def topologyUpdateVersion (storage : TopologyStorage) (newVersion : EtcdDataVersion)
    (upgrade : Bool) : TopologyStorage × Bool :=
  if upgrade then
    let (storage, ret) :=
      if newVersion.createRevision > storage.version.createRevision then
        ({ storage with version := { storage.version with
          createRevision := newVersion.createRevision, version := newVersion.version } }, true)
      else (storage, false)
    let (storage, ret) :=
      if newVersion.modifyRevision > storage.version.modifyRevision then
        ({ storage with version := { storage.version with
          modifyRevision := newVersion.modifyRevision, version := newVersion.version } }, true)
      else (storage, ret)
    if newVersion.version > storage.version.version then
      ({ storage with version := { storage.version with version := newVersion.version } }, true)
    else (storage, ret)
  else ({ storage with version := newVersion }, true)

/-- What an upgrade leaves: the counters are merged one by one, and the info stays. -/
theorem topologyUpdateVersion_upgrade (storage : TopologyStorage) (newVersion : EtcdDataVersion) :
    (topologyUpdateVersion storage newVersion true).2 = storage.grows newVersion ∧
      (topologyUpdateVersion storage newVersion true).1.info = storage.info ∧
      (topologyUpdateVersion storage newVersion true).1.contextAddr = storage.contextAddr ∧
      (topologyUpdateVersion storage newVersion true).1.version.createRevision =
        max storage.version.createRevision newVersion.createRevision ∧
      (topologyUpdateVersion storage newVersion true).1.version.modifyRevision =
        max storage.version.modifyRevision newVersion.modifyRevision := by
  unfold topologyUpdateVersion TopologyStorage.grows
  by_cases hcreate : newVersion.createRevision > storage.version.createRevision <;>
    by_cases hmodify : newVersion.modifyRevision > storage.version.modifyRevision <;>
    by_cases hversion : newVersion.version > storage.version.version <;>
    simp [hcreate, hmodify, hversion] <;> omega

/-! ## The handler -/

/-- The event for connectors and callbacks at the end of the handler. -/
structure TopologyCall where
  action : NodeActionT
  info : AtappTopologyInfo
  version : EtcdDataVersion
  deriving DecidableEq

/-- `internal_topology_info_set_`. -/
abbrev TopologyInfoSet := AList (fun _ : Nat => TopologyStorage)

/-- The part of `service_discovery_module` that keeps the topology. -/
structure TopologyModule where
  internalTopologyInfoSet : TopologyInfoSet := ∅

namespace TopologyModule

variable (m : TopologyModule)

/-- The entry of an id. -/
abbrev find (id : Nat) : Option TopologyStorage := m.internalTopologyInfoSet.lookup id

/-- Write the entry of an id. -/
def assign (id : Nat) (storage : TopologyStorage) : TopologyModule where
  internalTopologyInfoSet := m.internalTopologyInfoSet.insert id storage

/-- Erase the entry of an id. -/
def eraseId (id : Nat) : TopologyModule where
  internalTopologyInfoSet := m.internalTopologyInfoSet.erase id

/-- `update_internal_watcher_event(topology_info_t &)`: the module after the event and the calls
    it made. -/
def updateInternalWatcherEvent (event : TopologyInfoT) : TopologyModule × List TopologyCall :=
  let id := event.storage.info.id
  match event.action with
  | .delete =>
    match m.find id with
    | none => (m, [])
    | some localCache =>
      if localCache.contextAddr ≠ event.storage.contextAddr then (m, [])
      else (m.eraseId id, [⟨.delete, localCache.info, event.storage.version⟩])
  | .put =>
    match m.find id with
    | some localCache =>
      -- an entry of another context: a stale event
      if localCache.contextAddr ≠ event.storage.contextAddr then (m, [])
      else
        -- the version is merged before the infos are compared
        let (merged, changed) := topologyUpdateVersion localCache event.storage.version true
        if AtappTopologyInfo.topologyEqual merged.info event.storage.info then
          (m.assign id merged, [])
        else if !changed then (m.assign id merged, [])
        else
          (m.assign id { merged with info := event.storage.info },
            [⟨.put, event.storage.info, event.storage.version⟩])
    | none =>
      (m.assign id event.storage, [⟨.put, event.storage.info, event.storage.version⟩])

/-- The module after one event. -/
def update (event : TopologyInfoT) : TopologyModule := (m.updateInternalWatcherEvent event).1

@[simp] theorem find_assign_self (id : Nat) (storage : TopologyStorage) :
    (m.assign id storage).find id = some storage :=
  AList.lookup_insert _

theorem find_assign_of_ne {id id' : Nat} (storage : TopologyStorage) (h : id' ≠ id) :
    (m.assign id storage).find id' = m.find id' :=
  AList.lookup_insert_ne h

@[simp] theorem find_eraseId_self (id : Nat) : (m.eraseId id).find id = none :=
  AList.lookup_erase _ _

theorem find_eraseId_of_ne {id id' : Nat} (h : id' ≠ id) :
    (m.eraseId id).find id' = m.find id' :=
  AList.lookup_erase_ne h

/-! ## What one event does -/

variable {m}

/-- An event only touches the entry of its id. -/
theorem find_update_of_ne {event : TopologyInfoT} {id : Nat} (h : id ≠ event.storage.info.id) :
    (m.update event).find id = m.find id := by
  unfold update updateInternalWatcherEvent
  dsimp only
  split
  · split
    · rfl
    · split
      · rfl
      · exact m.find_eraseId_of_ne h
  · split
    · split
      · rfl
      · split
        · exact m.find_assign_of_ne _ h
        · split
          · exact m.find_assign_of_ne _ h
          · exact m.find_assign_of_ne _ h
    · exact m.find_assign_of_ne _ h

/-- An event does nothing where the entry of its id belongs to another context. -/
theorem update_of_stranger {event : TopologyInfoT} {stored : TopologyStorage}
    (hstored : m.find event.storage.info.id = some stored)
    (hcontext : stored.contextAddr ≠ event.storage.contextAddr) :
    m.updateInternalWatcherEvent event = (m, []) := by
  unfold updateInternalWatcherEvent
  cases haction : event.action <;> simp [hstored, hcontext]

/-- A Put of an id without an entry is stored as it is. -/
theorem put_of_none {event : TopologyInfoT} (haction : event.action = .put)
    (hnone : m.find event.storage.info.id = none) :
    (m.updateInternalWatcherEvent event).1.find event.storage.info.id = some event.storage ∧
      (m.updateInternalWatcherEvent event).2 =
        [⟨.put, event.storage.info, event.storage.version⟩] := by
  unfold updateInternalWatcherEvent
  simp [haction, hnone]

/-- Does a Put replace the entry of its id? -/
def Replaces (stored : TopologyStorage) (event : TopologyInfoT) : Prop :=
  stored.grows event.storage.version = true ∧
    AtappTopologyInfo.topologyEqual stored.info event.storage.info = false

instance (stored : TopologyStorage) (event : TopologyInfoT) : Decidable (Replaces stored event) :=
  inferInstanceAs (Decidable (_ ∧ _))

/-- A Put of an id that the context has an entry of: the counters are merged, and the info is
    replaced if the handler takes the event for a newer one. -/
theorem put_of_some {event : TopologyInfoT} {stored : TopologyStorage}
    (haction : event.action = .put) (hstored : m.find event.storage.info.id = some stored)
    (hcontext : stored.contextAddr = event.storage.contextAddr) :
    ∃ after, (m.updateInternalWatcherEvent event).1.find event.storage.info.id = some after ∧
      after.contextAddr = stored.contextAddr ∧
      after.info = (if Replaces stored event then event.storage.info else stored.info) ∧
      after.version.createRevision =
        max stored.version.createRevision event.storage.version.createRevision ∧
      after.version.modifyRevision =
        max stored.version.modifyRevision event.storage.version.modifyRevision ∧
      ((m.updateInternalWatcherEvent event).2 = [] ↔ ¬ Replaces stored event) := by
  obtain ⟨hgrows, hinfo, hctx, hcreate, hmodify⟩ :=
    topologyUpdateVersion_upgrade stored event.storage.version
  unfold updateInternalWatcherEvent
  simp only [haction, hstored, hcontext, ne_eq, not_true_eq_false, if_false]
  rw [hinfo, hgrows]
  by_cases hequal : AtappTopologyInfo.topologyEqual stored.info event.storage.info = true
  · have hnot : ¬ Replaces stored event := by
      intro h
      rw [h.2] at hequal
      exact Bool.false_ne_true hequal
    rw [if_pos hequal]
    refine ⟨_, find_assign_self _ _ _, hctx.trans hcontext, ?_, hcreate, hmodify, ?_⟩
    · rw [if_neg hnot, hinfo]
    · simp [hnot]
  · rw [if_neg hequal]
    rw [Bool.not_eq_true] at hequal
    cases hg : stored.grows event.storage.version with
    | true =>
      have hreplaces : Replaces stored event := ⟨hg, hequal⟩
      rw [if_neg (by simp)]
      refine ⟨_, find_assign_self _ _ _, hctx.trans hcontext, ?_, hcreate, hmodify, ?_⟩
      · rw [if_pos hreplaces]
      · simp [hreplaces]
    | false =>
      have hnot : ¬ Replaces stored event := by
        intro h
        rw [h.1] at hg
        exact absurd hg.symm Bool.false_ne_true
      rw [if_pos (by simp)]
      refine ⟨_, find_assign_self _ _ _, hctx.trans hcontext, ?_, hcreate, hmodify, ?_⟩
      · rw [if_neg hnot, hinfo]
      · simp [hnot]

/-- A Delete erases the entry of its id if it belongs to the context. -/
theorem delete_find {event : TopologyInfoT} (haction : event.action = .delete) :
    (m.update event).find event.storage.info.id =
      (m.find event.storage.info.id).filter
        (fun stored => stored.contextAddr ≠ event.storage.contextAddr) := by
  unfold update updateInternalWatcherEvent
  cases hstored : m.find event.storage.info.id with
  | none => simp [haction, hstored]
  | some stored =>
    by_cases hcontext : stored.contextAddr = event.storage.contextAddr
    · simp [haction, hstored, hcontext, Option.filter]
    · simp [haction, hstored, hcontext, Option.filter]

end TopologyModule

end LibAtapp
