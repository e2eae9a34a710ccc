import LibAtapp.Modules.TopologyCallback
import LibAtapp.Modules.KeyPaths
import LibAtapp.Library.Run

set_option autoImplicit false

/-! # The topology set and the live keys

The topology watcher of a context delivers snapshots of a directory and the changes of its keys. A
Put carries the info of the key, a Delete only the key, from which the id is read. The entries of
the context should be the infos of the live keys. The set is filed by id and does not know the key
an info came from, and a Delete compares only the context: the late Delete of the key `a-1` also
erases the info that the key `b-1` has put since. The main result is that the entries follow the
live keys in every run in which no Delete meets another live key with its id and every Put is taken,
and that the entries of other contexts never change. -/

namespace LibAtapp

namespace TopologyModule

variable {m : TopologyModule} {contextAddr : Nat}

/-! ## Entries of other contexts -/

/-- The entries of the other contexts are the same. -/
def SameStrangers (contextAddr : Nat) (m m' : TopologyModule) : Prop :=
  ∀ id, (m'.find id).filter (fun σ => σ.contextAddr ≠ contextAddr) =
    (m.find id).filter (fun σ => σ.contextAddr ≠ contextAddr)

theorem SameStrangers.refl (m : TopologyModule) : SameStrangers contextAddr m m := fun _ => rfl

theorem SameStrangers.trans {m₁ m₂ m₃ : TopologyModule} (h : SameStrangers contextAddr m₁ m₂)
    (h' : SameStrangers contextAddr m₂ m₃) : SameStrangers contextAddr m₁ m₃ :=
  fun id => (h' id).trans (h id)

/-- An event changes no entry of another context. -/
theorem sameStrangers_update {event : TopologyInfoT}
    (hcontext : event.storage.contextAddr = contextAddr) :
    SameStrangers contextAddr m (m.update event) := by
  subst hcontext
  intro id
  by_cases hid : id = event.storage.info.id
  · subst hid
    cases haction : event.action with
    | delete =>
      rw [delete_find haction, Option.filter_filter]
      simp
    | put =>
      cases hfind : m.find event.storage.info.id with
      | none =>
        have hput : (m.update event).find event.storage.info.id = some event.storage :=
          (put_of_none haction hfind).1
        rw [hput]
        simp
      | some stored =>
        by_cases hctx : stored.contextAddr = event.storage.contextAddr
        · obtain ⟨after, hafter, hafterCtx, -⟩ := put_of_some haction hfind hctx
          have hupdate : (m.update event).find event.storage.info.id = some after := hafter
          rw [hupdate, Option.filter_some, Option.filter_some, hafterCtx, hctx]
          simp
        · rw [update, update_of_stranger hfind hctx, hfind]
  · rw [find_update_of_ne hid]

/-! ## A Put that is taken -/

/-- The entry of the info's id belongs to the context and holds the info. -/
def Holds (m : TopologyModule) (contextAddr : Nat) (info : AtappTopologyInfo) : Prop :=
  ∃ σ, m.find info.id = some σ ∧ σ.contextAddr = contextAddr ∧ σ.info = info

/-- A Put is taken: an entry of its id belongs to its context, and is replaced or already holds the
    info of the event. -/
def Takes (m : TopologyModule) (event : TopologyInfoT) : Prop :=
  ∀ stored ∈ m.find event.storage.info.id, stored.contextAddr = event.storage.contextAddr ∧
    (Replaces stored event ∨ stored.info = event.storage.info)

instance (m : TopologyModule) (event : TopologyInfoT) : Decidable (m.Takes event) :=
  inferInstanceAs (Decidable (∀ stored ∈ m.find event.storage.info.id, _))

theorem holds_update {event : TopologyInfoT} (haction : event.action = .put)
    (htakes : m.Takes event) :
    (m.update event).Holds event.storage.contextAddr event.storage.info := by
  cases hfind : m.find event.storage.info.id with
  | none => exact ⟨event.storage, (put_of_none haction hfind).1, rfl, rfl⟩
  | some stored =>
    obtain ⟨hctx, htaken⟩ := htakes stored hfind
    obtain ⟨after, hafter, hafterCtx, hinfo, -⟩ := put_of_some haction hfind hctx
    refine ⟨after, hafter, hafterCtx.trans hctx, ?_⟩
    by_cases hreplaces : Replaces stored event
    · rw [hinfo, if_pos hreplaces]
    · rw [hinfo, if_neg hreplaces]
      exact htaken.resolve_left hreplaces

/-! ## The loops of a response -/

variable {codec : TopologyCodec} {order : TopologySetOrder}

@[simp] theorem decodeEvent_contextAddr (evtData : WatchEvent) :
    (decodeEvent codec contextAddr evtData).storage.contextAddr = contextAddr := rfl

/-- The id that is decoded from an event. -/
def eventId (codec : TopologyCodec) (contextAddr : Nat) (evtData : WatchEvent) : Nat :=
  (decodeEvent codec contextAddr evtData).storage.info.id

theorem sameStrangers_foldl_handleEvent (enableSnapshot : Bool) (events : List WatchEvent)
    (m : TopologyModule) (oldIds : TopologyInfoSet) :
    SameStrangers contextAddr m
      (events.foldl (handleEvent codec contextAddr enableSnapshot) (m, oldIds)).1 := by
  induction events generalizing m oldIds with
  | nil => exact SameStrangers.refl m
  | cons evtData events ih =>
      rw [List.foldl_cons]
      by_cases hid : (decodeEvent codec contextAddr evtData).storage.info.id = 0
      · simp only [handleEvent, if_pos hid]
        exact ih m oldIds
      · simp only [handleEvent, if_neg hid]
        have hctx : (decodeEvent codec contextAddr evtData).storage.contextAddr = contextAddr :=
          decodeEvent_contextAddr evtData
        exact (sameStrangers_update hctx).trans (ih _ _)

theorem sameStrangers_foldl_cleanup (storages : List TopologyStorage) (m : TopologyModule) :
    SameStrangers contextAddr m (storages.foldl (cleanupOldTopologyPeer contextAddr) m) := by
  induction storages generalizing m with
  | nil => exact SameStrangers.refl m
  | cons storage storages ih =>
      rw [List.foldl_cons]
      by_cases hctx : storage.contextAddr = contextAddr
      · rw [cleanupOldTopologyPeer, if_neg (not_not.2 hctx)]
        exact (sameStrangers_update hctx).trans (ih _)
      · rw [cleanupOldTopologyPeer, if_pos hctx]
        exact ih m

/-- What an event does to the entry of its id depends on that entry alone. -/
theorem find_update_congr {m m' : TopologyModule} {event : TopologyInfoT}
    (h : m.find event.storage.info.id = m'.find event.storage.info.id) :
    (m.update event).find event.storage.info.id =
      (m'.update event).find event.storage.info.id := by
  unfold update updateInternalWatcherEvent
  cases haction : event.action with
  | delete =>
    simp only [h]
    cases hfind : m'.find event.storage.info.id with
    | none => simpa [hfind] using h
    | some stored =>
      by_cases hctx : stored.contextAddr = event.storage.contextAddr
      · simp [hctx]
      · simpa [hctx, hfind] using h
  | put =>
    simp only [h]
    cases hfind : m'.find event.storage.info.id with
    | none => simp
    | some stored =>
      by_cases hctx : stored.contextAddr = event.storage.contextAddr
      · simp only [hctx, ne_eq, not_true_eq_false, if_false]
        split
        · simp
        · split <;> simp
      · simpa [hctx, hfind] using h

/-- The loop over the events of a snapshot, of different ids: each of them meets the entry that its
    id had before, the ids are no longer old, and the other ids are as before. -/
theorem foldl_handleEvent_find {events : List WatchEvent}
    (hid : ∀ e ∈ events, eventId codec contextAddr e ≠ 0)
    (hnodup : (events.map (eventId codec contextAddr)).Nodup) (m : TopologyModule)
    (oldIds : TopologyInfoSet) :
    let after := events.foldl (handleEvent codec contextAddr true) (m, oldIds)
    (∀ e ∈ events,
        after.1.find (eventId codec contextAddr e) =
          (m.update (decodeEvent codec contextAddr e)).find (eventId codec contextAddr e) ∧
        after.2.lookup (eventId codec contextAddr e) = none) ∧
      ∀ id ∉ events.map (eventId codec contextAddr),
        after.1.find id = m.find id ∧ after.2.lookup id = oldIds.lookup id := by
  induction events generalizing m oldIds with
  | nil => exact ⟨fun e he => absurd he List.not_mem_nil, fun id _ => ⟨rfl, rfl⟩⟩
  | cons e events ih =>
      rw [List.map_cons, List.nodup_cons] at hnodup
      obtain ⟨hfresh, hnodup⟩ := hnodup
      have hround : handleEvent codec contextAddr true (m, oldIds) e =
          (m.update (decodeEvent codec contextAddr e),
            oldIds.erase (eventId codec contextAddr e)) := by
        have hid' : (decodeEvent codec contextAddr e).storage.info.id ≠ 0 :=
          hid e List.mem_cons_self
        simp only [handleEvent, removeOldTopologyPeerIndex, if_neg hid', if_pos hid']
        rfl
      have hne : ∀ e' ∈ events, eventId codec contextAddr e' ≠ eventId codec contextAddr e := by
        intro e' he' heq
        exact hfresh (heq ▸ List.mem_map_of_mem he')
      obtain ⟨hevents, hothers⟩ := ih (fun e' he' => hid e' (List.mem_cons_of_mem e he')) hnodup
        (m.update (decodeEvent codec contextAddr e)) (oldIds.erase (eventId codec contextAddr e))
      intro after
      have hafter : after = events.foldl (handleEvent codec contextAddr true)
          (m.update (decodeEvent codec contextAddr e),
            oldIds.erase (eventId codec contextAddr e)) := by
        show (e :: events).foldl _ _ = _
        rw [List.foldl_cons, hround]
      rw [hafter]
      refine ⟨fun e' he' => ?_, fun id hid' => ?_⟩
      · rcases List.mem_cons.1 he' with rfl | he'
        · obtain ⟨hfind, hlookup⟩ := hothers _ hfresh
          exact ⟨hfind, hlookup.trans (AList.lookup_erase _ _)⟩
        · obtain ⟨hfind, hlookup⟩ := hevents e' he'
          exact ⟨hfind.trans (find_update_congr (find_update_of_ne (hne e' he'))), hlookup⟩
      · rw [List.map_cons, List.mem_cons, not_or] at hid'
        obtain ⟨hfind, hlookup⟩ := hothers id hid'.2
        exact ⟨hfind.trans (find_update_of_ne hid'.1), hlookup.trans (AList.lookup_erase_ne hid'.1)⟩

/-- `cleanup_old_topology_peers` erases the entries of the context whose ids are old. -/
theorem foldl_cleanup_find (storages : List TopologyStorage) (m : TopologyModule) (id : Nat) :
    (storages.foldl (cleanupOldTopologyPeer contextAddr) m).find id =
      if ∃ σ ∈ storages, σ.contextAddr = contextAddr ∧ σ.info.id = id then
        (m.find id).filter (fun σ => σ.contextAddr ≠ contextAddr)
      else m.find id := by
  induction storages generalizing m with
  | nil => simp
  | cons storage storages ih =>
      rw [List.foldl_cons, ih]
      by_cases hctx : storage.contextAddr = contextAddr
      · rw [cleanupOldTopologyPeer, if_neg (not_not.2 hctx)]
        by_cases hid : storage.info.id = id
        · have hdelete : (m.update { storage, action := .delete }).find id =
              (m.find id).filter (fun σ => σ.contextAddr ≠ contextAddr) := by
            subst hid hctx
            exact delete_find rfl
          rw [hdelete, Option.filter_filter]
          simp [hctx, hid]
        · rw [find_update_of_ne (Ne.symm hid)]
          simp [hid]
      · rw [cleanupOldTopologyPeer, if_pos hctx]
        simp [hctx]

end TopologyModule

/-! ## One response -/

namespace TopologyWatcherState

variable {codec : TopologyCodec} {order : TopologySetOrder} {st : TopologyWatcherState}

/-- The watcher loads the snapshots of its context: no watcher has a smaller index. -/
structure Elected (st : TopologyWatcherState) : Prop where
  index : st.wrapper.snapshotIndex ≠ 0
  first : ∀ i ∈ st.ctx.topologyWatcherSnapshotIndex, st.wrapper.snapshotIndex ≤ i
  inserted : st.wrapper.hasInsertSnapshotIndex = true →
    st.wrapper.snapshotIndex ∈ st.ctx.topologyWatcherSnapshotIndex

/-- The election of the watcher that loads the snapshots. -/
theorem electSnapshot_of_elected (h : st.Elected) (snapshot : Bool) :
    (st.electSnapshot snapshot).2 = snapshot ∧ (st.electSnapshot snapshot).1.Elected ∧
      (st.electSnapshot snapshot).1.mod = st.mod ∧
      (st.electSnapshot snapshot).1.ctx.addr = st.ctx.addr := by
  cases snapshot with
  | false => exact ⟨rfl, h, rfl, rfl⟩
  | true =>
    have hindex : (st.wrapper.snapshotIndex != 0) = true := bne_iff_ne.2 h.index
    simp only [electSnapshot, Bool.true_and, hindex, if_true]
    have hinsert : st.insertSnapshotIndex.Elected ∧
        st.insertSnapshotIndex.wrapper.snapshotIndex ∈
          st.insertSnapshotIndex.ctx.topologyWatcherSnapshotIndex := by
      unfold insertSnapshotIndex
      split
      · next hinserted => exact ⟨h, h.inserted hinserted⟩
      · refine ⟨⟨h.index, fun i hi => ?_, fun _ => Finset.mem_insert_self _ _⟩,
          Finset.mem_insert_self _ _⟩
        rcases Finset.mem_insert.1 hi with heq | hi
        · exact heq.ge
        · exact h.first i hi
    have hkeeps : st.insertSnapshotIndex.mod = st.mod ∧
        st.insertSnapshotIndex.ctx.addr = st.ctx.addr := by
      unfold insertSnapshotIndex
      split <;> exact ⟨rfl, rfl⟩
    obtain ⟨helected, hmem⟩ := hinsert
    have hmin : st.insertSnapshotIndex.ctx.topologyWatcherSnapshotIndex.min =
        (st.insertSnapshotIndex.wrapper.snapshotIndex : WithTop Int) := by
      refine le_antisymm (Finset.min_le hmem) (Finset.le_min fun i hi => ?_)
      exact WithTop.coe_le_coe.2 (helected.first i hi)
    have hother : st.insertSnapshotIndex.otherFirst = false := by
      simp [otherFirst, hmin]
    exact ⟨by rw [hother]; rfl, helected, hkeeps.1, hkeeps.2⟩

/-- A response keeps the election, the context and the entries of the other contexts. -/
theorem handleResponse_keeps (codec : TopologyCodec) (order : TopologySetOrder) (h : st.Elected) (body : WatchResponse) :
    (st.handleResponse codec order body).Elected ∧
      (st.handleResponse codec order body).ctx.addr = st.ctx.addr ∧
      TopologyModule.SameStrangers st.ctx.addr st.mod
        (st.handleResponse codec order body).mod := by
  obtain ⟨-, helected, hmod, haddr⟩ := electSnapshot_of_elected h body.snapshot
  refine ⟨⟨helected.index, helected.first, helected.inserted⟩, haddr, ?_⟩
  simp only [handleResponse]
  rw [← haddr, ← hmod]
  split
  · exact (TopologyModule.sameStrangers_foldl_handleEvent _ _ _ _).trans
      (TopologyModule.sameStrangers_foldl_cleanup _ _)
  · exact TopologyModule.sameStrangers_foldl_handleEvent _ _ _ _

/-- A response with one event. -/
theorem handleResponse_event (evtData : WatchEvent) :
    (st.handleResponse codec order { events := [evtData] }).mod =
      if TopologyModule.eventId codec st.ctx.addr evtData = 0 then st.mod
      else st.mod.update (TopologyModule.decodeEvent codec st.ctx.addr evtData) := by
  simp only [handleResponse, electSnapshot, Bool.false_and, Bool.false_eq_true, if_false,
    List.foldl_cons, List.foldl_nil, TopologyModule.handleEvent, TopologyModule.eventId]
  exact apply_ite Prod.fst _ _ _

/-- A response with several events is handled as one response for each of them. -/
theorem handleResponse_events (events : List WatchEvent) (st : TopologyWatcherState) :
    st.handleResponse codec order { events } =
      events.foldl (fun st evtData => st.handleResponse codec order { events := [evtData] }) st := by
  induction events generalizing st with
  | nil => rfl
  | cons evtData events ih =>
      rw [List.foldl_cons, ← ih]
      simp only [handleResponse, electSnapshot, Bool.false_and, Bool.false_eq_true, if_false,
        List.foldl_cons, List.foldl_nil]
      have hround : TopologyModule.handleEvent codec st.ctx.addr false (st.mod, ∅) evtData =
          ((TopologyModule.handleEvent codec st.ctx.addr false (st.mod, ∅) evtData).1, ∅) := by
        simp only [TopologyModule.handleEvent]
        split <;> rfl
      rw [hround]

/-- A snapshot whose events have different ids: each of them meets the entry that its id had before,
    and of the other entries those of the context are erased. -/
theorem handleResponse_snapshot_find (codec : TopologyCodec) (order : TopologySetOrder)
    (events : List WatchEvent) (helected : st.Elected)
    (hfiled : ∀ id σ, st.mod.find id = some σ → σ.contextAddr = st.ctx.addr → σ.info.id = id)
    (hid : ∀ e ∈ events, TopologyModule.eventId codec st.ctx.addr e ≠ 0)
    (hnodup : (events.map (TopologyModule.eventId codec st.ctx.addr)).Nodup) :
    (∀ e ∈ events,
      (st.handleResponse codec order { snapshot := true, events }).mod.find
          (TopologyModule.eventId codec st.ctx.addr e) =
        (st.mod.update (TopologyModule.decodeEvent codec st.ctx.addr e)).find
          (TopologyModule.eventId codec st.ctx.addr e)) ∧
    ∀ id ∉ events.map (TopologyModule.eventId codec st.ctx.addr),
      (st.handleResponse codec order { snapshot := true, events }).mod.find id =
        (st.mod.find id).filter (fun σ => σ.contextAddr ≠ st.ctx.addr) := by
  obtain ⟨henable, -, hmod, haddr⟩ := electSnapshot_of_elected helected true
  obtain ⟨hevents, hothers⟩ := TopologyModule.foldl_handleEvent_find hid hnodup st.mod
    st.mod.internalTopologyInfoSet
  have hresponse : (st.handleResponse codec order { snapshot := true, events }).mod =
      (events.foldl (TopologyModule.handleEvent codec st.ctx.addr true)
        (st.mod, st.mod.internalTopologyInfoSet)).1.cleanupOldTopologyPeers order st.ctx.addr
        (events.foldl (TopologyModule.handleEvent codec st.ctx.addr true)
          (st.mod, st.mod.internalTopologyInfoSet)).2 := by
    simp only [handleResponse, henable, if_true, hmod, haddr]
  rw [hresponse]
  generalize events.foldl (TopologyModule.handleEvent codec st.ctx.addr true)
    (st.mod, st.mod.internalTopologyInfoSet) = after at hevents hothers ⊢
  obtain ⟨m, oldIds⟩ := after
  -- an old storage is the entry of its own id
  have hold : ∀ σ ∈ order.storages oldIds, σ.contextAddr = st.ctx.addr →
      ∃ id, oldIds.lookup id = some σ ∧ st.mod.find id = some σ ∧ σ.info.id = id := by
    intro σ hσ hctx
    obtain ⟨⟨id, σ'⟩, hmem, heq⟩ := List.mem_map.1 ((order.storages_perm oldIds).mem_iff.1 hσ)
    have heq' : σ' = σ := heq
    subst heq'
    have hlookup : oldIds.lookup id = some σ' := AList.mem_lookup_iff.2 hmem
    have hnot : id ∉ events.map (TopologyModule.eventId codec st.ctx.addr) := by
      intro hid
      obtain ⟨e, he, heq⟩ := List.mem_map.1 hid
      have hnone := (hevents e he).2
      rw [heq, hlookup] at hnone
      cases hnone
    have hfind : st.mod.find id = some σ' := (hothers id hnot).2.symm.trans hlookup
    exact ⟨id, hlookup, hfind, hfiled id σ' hfind hctx⟩
  refine ⟨fun e he => ?_, fun id hid => ?_⟩
  · obtain ⟨hfind, hlookup⟩ := hevents e he
    rw [TopologyModule.cleanupOldTopologyPeers, TopologyModule.foldl_cleanup_find, if_neg]
    · exact hfind
    · rintro ⟨σ', hσ', hctx, hid⟩
      obtain ⟨id, hlookup', -, hid'⟩ := hold σ' hσ' hctx
      rw [← hid', hid, hlookup] at hlookup'
      cases hlookup'
  · obtain ⟨hfind, hlookup⟩ := hothers id hid
    rw [TopologyModule.cleanupOldTopologyPeers, TopologyModule.foldl_cleanup_find, hfind]
    split
    · rfl
    · next hnone =>
      cases hstored : st.mod.find id with
      | none => rfl
      | some σ =>
        have hctx : σ.contextAddr ≠ st.ctx.addr := by
          intro hctx
          have hmem : σ ∈ order.storages oldIds := by
            refine (order.storages_perm oldIds).mem_iff.2 (List.mem_map.2 ⟨⟨id, σ⟩, ?_, rfl⟩)
            exact AList.mem_lookup_iff.1 (hlookup.trans hstored)
          exact hnone ⟨σ, hmem, hctx, hfiled id σ hstored hctx⟩
        rw [Option.filter_some, if_pos (by simpa using hctx)]

/-- A snapshot whose events are taken and have different ids: their infos are held, and of the
    other entries those of the context are erased. -/
theorem handleResponse_snapshot (codec : TopologyCodec) (order : TopologySetOrder)
    (events : List WatchEvent) (helected : st.Elected)
    (hfiled : ∀ id σ, st.mod.find id = some σ → σ.contextAddr = st.ctx.addr → σ.info.id = id)
    (hput : ∀ e ∈ events, e.evtType = .put ∧
      TopologyModule.eventId codec st.ctx.addr e ≠ 0)
    (hnodup : (events.map (TopologyModule.eventId codec st.ctx.addr)).Nodup)
    (htakes : ∀ e ∈ events, st.mod.Takes (TopologyModule.decodeEvent codec st.ctx.addr e)) :
    (∀ e ∈ events, (st.handleResponse codec order { snapshot := true, events }).mod.Holds
      st.ctx.addr (TopologyModule.decodeEvent codec st.ctx.addr e).storage.info) ∧
    ∀ id ∉ events.map (TopologyModule.eventId codec st.ctx.addr),
      (st.handleResponse codec order { snapshot := true, events }).mod.find id =
        (st.mod.find id).filter (fun σ => σ.contextAddr ≠ st.ctx.addr) := by
  obtain ⟨hevents, hothers⟩ := handleResponse_snapshot_find codec order events helected hfiled
    (fun e he => (hput e he).2) hnodup
  refine ⟨fun e he => ?_, hothers⟩
  have haction : (TopologyModule.decodeEvent codec st.ctx.addr e).action = .put := by
    simp [TopologyModule.decodeEvent, (hput e he).1]
  obtain ⟨σ, hfind, hσ⟩ := TopologyModule.holds_update haction (htakes e he)
  exact ⟨σ, (hevents e he).trans hfind, hσ⟩

end TopologyWatcherState

/-! ## Histories of keys -/

/-- A response of the watcher: the change of one key, or all keys with their values. The key and
    value hold the revisions and, of a Put, the value. -/
inductive TopologyChange where
  | put (app : App) (kv : EtcdKeyValue)
  | delete (app : App) (kv : EtcdKeyValue)
  | snapshot (keys : List (App × EtcdKeyValue))

/-- What a topology watcher watches, and how it decodes values. -/
structure WatchedTopology where
  codec : TopologyCodec
  contextAddr : Nat
  path : Bytes

/-- The live keys with the infos that they carry. -/
abbrev LiveTopology := AList (fun _ : Bytes => AtappTopologyInfo)

/-- The watcher and the live keys. -/
structure TopologyHistory where
  watcher : TopologyWatcherState
  live : LiveTopology := ∅

namespace WatchedTopology

variable (w : WatchedTopology)

/-- The key of an app. -/
def key (app : App) : Bytes := ServiceDiscoveryModule.getTopologyPath app w.path

/-- The event of a Put. -/
def putEvent (app : App) (kv : EtcdKeyValue) : WatchEvent :=
  { evtType := .put, kv := { kv with key := w.key app } }

/-- The event of a Delete. It carries no value. -/
def deleteEvent (app : App) (kv : EtcdKeyValue) : WatchEvent :=
  { evtType := .delete, kv := { kv with key := w.key app, value := [] } }

/-- The response that the watcher receives. -/
def response : TopologyChange → WatchResponse
  | .put app kv => { events := [w.putEvent app kv] }
  | .delete app kv => { events := [w.deleteEvent app kv] }
  | .snapshot keys => { snapshot := true, events := keys.map (fun a => w.putEvent a.1 a.2) }

/-- What is decoded from an event. -/
def decoded (evtData : WatchEvent) : TopologyInfoT :=
  TopologyModule.decodeEvent w.codec w.contextAddr evtData

/-- The info of a key that is put. -/
def putInfo (app : App) (kv : EtcdKeyValue) : AtappTopologyInfo :=
  (w.decoded (w.putEvent app kv)).storage.info

/-- A Put carries the id and the name of its app. -/
def Carries (app : App) (kv : EtcdKeyValue) : Prop :=
  (w.putInfo app kv).id = app.id ∧ (w.putInfo app kv).name = app.appName

instance (app : App) (kv : EtcdKeyValue) : Decidable (w.Carries app kv) :=
  inferInstanceAs (Decidable (_ ∧ _))

/-- The changes of the domain: a Put carries its app, no two keys of a snapshot carry one id, and
    the id of a deleted key is read as it was written. -/
def Proper : TopologyChange → Prop
  | .put app kv => w.Carries app kv
  | .delete app _ => w.codec.toUint64 (decimal app.id) = app.id
  | .snapshot keys =>
    (∀ a ∈ keys, w.Carries a.1 a.2) ∧ (keys.map (fun a => a.1.id)).Nodup

instance : ∀ change, Decidable (w.Proper change)
  | .put _ _ => inferInstanceAs (Decidable (_ ∧ _))
  | .delete _ _ => inferInstanceAs (Decidable (_ = _))
  | .snapshot _ => inferInstanceAs (Decidable (_ ∧ _))

end WatchedTopology

namespace TopologyHistory

variable (w : WatchedTopology) (order : TopologySetOrder)

/-- The live keys after a change. A snapshot also shows the changes that were missed. -/
def liveAfter (live : LiveTopology) : TopologyChange → LiveTopology
  | .put app kv => live.insert (w.key app) (w.putInfo app kv)
  | .delete app _ => live.erase (w.key app)
  | .snapshot keys => (keys.map fun a => ⟨w.key a.1, w.putInfo a.1 a.2⟩).toAList

/-- One response: the watcher handles it, and the live keys change. -/
def step (st : TopologyHistory) (change : TopologyChange) : TopologyHistory where
  watcher := st.watcher.handleResponse w.codec order (w.response change)
  live := liveAfter w st.live change

/-- No two live keys carry the same id. -/
def NoOverlap (live : LiveTopology) : Prop :=
  ∀ a ∈ live.entries, ∀ b ∈ live.entries, a.2.id = b.2.id → a.1 = b.1

instance (live : LiveTopology) : Decidable (NoOverlap live) :=
  inferInstanceAs (Decidable (∀ a ∈ live.entries, ∀ b ∈ live.entries, _))

/-- The entries of the context are exactly the infos of the live keys. -/
structure HoldsExactly (st : TopologyHistory) : Prop where
  live : ∀ id σ, st.watcher.mod.find id = some σ → σ.contextAddr = w.contextAddr →
    σ.info.id = id ∧ ∃ k, st.live.lookup k = some σ.info
  held : ∀ k info, st.live.lookup k = some info → st.watcher.mod.Holds w.contextAddr info

/-- **The condition on a response.** A Put carries an id and is taken, also each one of a snapshot.
    No live key but the deleted one carries the id of the deleted key. -/
def MeetsOwnKey (st : TopologyHistory) : TopologyChange → Prop
  | .put app kv =>
    app.id ≠ 0 ∧ st.watcher.mod.Takes (w.decoded (w.putEvent app kv))
  | .delete app _ => ∀ a ∈ st.live.entries, a.2.id = app.id → a.1 = w.key app
  | .snapshot keys =>
    ∀ a ∈ keys, a.1.id ≠ 0 ∧ st.watcher.mod.Takes (w.decoded (w.putEvent a.1 a.2))

instance (st : TopologyHistory) : ∀ change, Decidable (MeetsOwnKey w st change)
  | .put _ _ => inferInstanceAs (Decidable (_ ∧ _))
  | .delete _ _ => inferInstanceAs (Decidable (∀ a ∈ st.live.entries, _))
  | .snapshot keys => inferInstanceAs (Decidable (∀ a ∈ keys, _))

/-! ## The entries along a history -/

variable {w} {order} {start : TopologyModule}

/-- The watcher of the context is the elected one and has changed no entry of another context. -/
structure Watching (w : WatchedTopology) (start : TopologyModule) (st : TopologyHistory) :
    Prop where
  elected : st.watcher.Elected
  context : st.watcher.ctx.addr = w.contextAddr
  strangers : TopologyModule.SameStrangers w.contextAddr start st.watcher.mod

theorem Watching.step {st : TopologyHistory} (h : Watching w start st) (change : TopologyChange) :
    Watching w start (st.step w order change) := by
  obtain ⟨helected, haddr, hstrangers⟩ :=
    TopologyWatcherState.handleResponse_keeps w.codec order h.elected (w.response change)
  rw [h.context] at hstrangers
  exact ⟨helected, haddr.trans h.context, h.strangers.trans hstrangers⟩

/-- Each live key carries the id of its app and has an entry of the context, and each such entry is
    the info of a live key. -/
structure Follows (w : WatchedTopology) (st : TopologyHistory) : Prop where
  carries : ∀ k info, st.live.lookup k = some info →
    ∃ app, k = w.key app ∧ info.id = app.id ∧ app.id ≠ 0
  owned : ∀ id σ, st.watcher.mod.find id = some σ → σ.contextAddr = w.contextAddr →
    σ.info.id = id ∧ ∃ k, st.live.lookup k = some σ.info
  filed : ∀ k info, st.live.lookup k = some info →
    ∃ σ, st.watcher.mod.find info.id = some σ ∧ σ.contextAddr = w.contextAddr

/-- The info of an app's key carries the id of the app. -/
theorem Follows.id_of_key {st : TopologyHistory} (h : Follows w st) {app : App}
    {info : AtappTopologyInfo} (hlive : st.live.lookup (w.key app) = some info) :
    info.id = app.id ∧ app.id ≠ 0 := by
  obtain ⟨app', hkey, hid, hne⟩ := h.carries _ _ hlive
  have heq := ServiceDiscoveryModule.keyPath_inj hkey
  subst heq
  exact ⟨hid, hne⟩

/-- Where no two live keys share an id, the entries are exactly the infos of the live keys. -/
theorem Follows.holdsExactly {st : TopologyHistory} (h : Follows w st) (hno : NoOverlap st.live) :
    HoldsExactly w st := by
  refine ⟨h.owned, fun k info hlive => ?_⟩
  obtain ⟨σ, hfind, hctx⟩ := h.filed k info hlive
  obtain ⟨hid, k', hlive'⟩ := h.owned _ σ hfind hctx
  have hkey : k' = k := hno ⟨k', σ.info⟩ (AList.mem_lookup_iff.1 hlive') ⟨k, info⟩
    (AList.mem_lookup_iff.1 hlive) hid
  subst hkey
  exact ⟨σ, hfind, hctx, Option.some.inj (hlive'.symm.trans hlive)⟩

/-- **A Put** that is taken. -/
theorem Follows.put {st : TopologyHistory} (h : Follows w st) (hw : Watching w start st)
    {app : App} {kv : EtcdKeyValue} (hcarries : w.Carries app kv)
    (hmeets : MeetsOwnKey w st (.put app kv)) :
    Follows w (st.step w order (.put app kv)) := by
  obtain ⟨hne, htakes⟩ := hmeets
  have hid : (w.decoded (w.putEvent app kv)).storage.info.id = app.id := hcarries.1
  have hmod : (st.step w order (.put app kv)).watcher.mod =
      st.watcher.mod.update (w.decoded (w.putEvent app kv)) := by
    show (st.watcher.handleResponse w.codec order _).mod = _
    rw [WatchedTopology.response, TopologyWatcherState.handleResponse_event, hw.context]
    exact if_neg fun hzero => hne (hid.symm.trans hzero)
  have hothers : ∀ id ≠ app.id,
      (st.step w order (.put app kv)).watcher.mod.find id = st.watcher.mod.find id := by
    intro id hid'
    rw [hmod]
    exact TopologyModule.find_update_of_ne (hid ▸ hid')
  obtain ⟨σ, hfind, hctx, hinfo⟩ := TopologyModule.holds_update rfl htakes
  have hfind' : (st.step w order (.put app kv)).watcher.mod.find app.id = some σ := by
    rw [hmod, ← hid]
    exact hfind
  have hlive : (st.step w order (.put app kv)).live.lookup (w.key app) =
      some (w.putInfo app kv) := AList.lookup_insert _
  have hlive' : ∀ k ≠ w.key app,
      (st.step w order (.put app kv)).live.lookup k = st.live.lookup k :=
    fun k hk => AList.lookup_insert_ne hk
  refine ⟨fun k info hk => ?_, fun id σ' hσ' hctx' => ?_, fun k info hk => ?_⟩
  · by_cases hkey : k = w.key app
    · subst hkey
      rw [hlive] at hk
      obtain rfl := Option.some.inj hk
      exact ⟨app, rfl, hcarries.1, hne⟩
    · exact h.carries k info ((hlive' k hkey).symm.trans hk)
  · by_cases hid' : id = app.id
    · subst hid'
      obtain rfl := Option.some.inj (hfind'.symm.trans hσ')
      rw [hinfo]
      exact ⟨hid, w.key app, hlive⟩
    · obtain ⟨hσid, k, hk⟩ := h.owned id σ' ((hothers id hid').symm.trans hσ') hctx'
      have hkey : k ≠ w.key app := by
        intro heq
        subst heq
        exact hid' (hσid.symm.trans (h.id_of_key hk).1)
      exact ⟨hσid, k, (hlive' k hkey).trans hk⟩
  · by_cases hid' : info.id = app.id
    · exact ⟨σ, hid' ▸ hfind', hctx⟩
    · have hkey : k ≠ w.key app := by
        intro heq
        subst heq
        rw [hlive] at hk
        obtain rfl := Option.some.inj hk
        exact hid' hcarries.1
      obtain ⟨σ', hσ', hctx'⟩ := h.filed k info ((hlive' k hkey).symm.trans hk)
      exact ⟨σ', (hothers _ hid').trans hσ', hctx'⟩

/-- **A Delete** that meets no other live key. -/
theorem Follows.delete {st : TopologyHistory} (h : Follows w st) (hw : Watching w start st)
    {app : App} {kv : EtcdKeyValue} (hread : w.codec.toUint64 (decimal app.id) = app.id)
    (hmeets : MeetsOwnKey w st (.delete app kv)) :
    Follows w (st.step w order (.delete app kv)) := by
  have hid : (w.decoded (w.deleteEvent app kv)).storage.info.id = app.id := by
    refine Eq.trans ?_ hread
    show (TopologyModule.unpack w.codec {} (if w.key app = [] then [] else w.key app) [] true).1.id
      = _
    have hkey : w.key app =
        (w.path ++ KeyDir.topology.text ++ ascii "/" ++ app.appName) ++ 0x2d :: decimal app.id := by
      show w.path ++ KeyDir.topology.text ++ ascii "/" ++ (app.appName ++ [0x2d] ++ decimal app.id)
        = _
      simp only [List.append_assoc, List.singleton_append]
    have hpresent : w.key app ≠ [] := by
      rw [hkey]
      exact List.append_ne_nil_of_right_ne_nil _ (List.cons_ne_nil _ _)
    rw [if_neg hpresent, hkey]
    exact TopologyModule.unpackKey_id w.codec {} _ _
  have hmod : (st.step w order (.delete app kv)).watcher.mod =
      if app.id = 0 then st.watcher.mod
      else st.watcher.mod.update (w.decoded (w.deleteEvent app kv)) := by
    show (st.watcher.handleResponse w.codec order _).mod = _
    rw [WatchedTopology.response, TopologyWatcherState.handleResponse_event, hw.context, ← hid]
    rfl
  have hothers : ∀ id ≠ app.id,
      (st.step w order (.delete app kv)).watcher.mod.find id = st.watcher.mod.find id := by
    intro id hid'
    rw [hmod]
    split
    · rfl
    · exact TopologyModule.find_update_of_ne (hid ▸ hid')
  have hlive : (st.step w order (.delete app kv)).live.lookup (w.key app) = none :=
    AList.lookup_erase _ _
  have hlive' : ∀ k ≠ w.key app,
      (st.step w order (.delete app kv)).live.lookup k = st.live.lookup k :=
    fun k hk => AList.lookup_erase_ne hk
  -- the entry of the deleted key's id is no longer one of the context
  have hgone : ∀ σ, (st.step w order (.delete app kv)).watcher.mod.find app.id = some σ →
      σ.contextAddr ≠ w.contextAddr := by
    intro σ hσ hctx
    rw [hmod] at hσ
    split at hσ
    · next hzero =>
      obtain ⟨hσid, k, hk⟩ := h.owned _ σ hσ hctx
      obtain ⟨app', -, hid', hne⟩ := h.carries k _ hk
      omega
    · rw [← hid, TopologyModule.delete_find rfl] at hσ
      obtain ⟨-, hne⟩ := Option.filter_eq_some_iff.1 hσ
      exact absurd hctx (of_decide_eq_true hne)
  refine ⟨fun k info hk => ?_, fun id σ hσ hctx => ?_, fun k info hk => ?_⟩
  · by_cases hkey : k = w.key app
    · rw [hkey, hlive] at hk
      cases hk
    · exact h.carries k info ((hlive' k hkey).symm.trans hk)
  · have hid' : id ≠ app.id := by
      intro heq
      subst heq
      exact hgone σ hσ hctx
    obtain ⟨hσid, k, hk⟩ := h.owned id σ ((hothers id hid').symm.trans hσ) hctx
    have hkey : k ≠ w.key app := by
      intro heq
      subst heq
      exact hid' (hσid.symm.trans (h.id_of_key hk).1)
    exact ⟨hσid, k, (hlive' k hkey).trans hk⟩
  · by_cases hkey : k = w.key app
    · rw [hkey, hlive] at hk
      cases hk
    · have hk' := (hlive' k hkey).symm.trans hk
      have hid' : info.id ≠ app.id := by
        intro heq
        exact hkey (hmeets ⟨k, info⟩ (AList.mem_lookup_iff.1 hk') heq)
      obtain ⟨σ, hσ, hctx⟩ := h.filed k info hk'
      exact ⟨σ, (hothers _ hid').trans hσ, hctx⟩

/-- The live keys after a snapshot are those of the snapshot. -/
theorem lookup_liveAfter_snapshot {keys : List (App × EtcdKeyValue)}
    (hproper : w.Proper (.snapshot keys)) (live : LiveTopology) (k : Bytes)
    (info : AtappTopologyInfo) :
    (liveAfter w live (.snapshot keys)).lookup k = some info ↔
      ∃ a ∈ keys, w.key a.1 = k ∧ w.putInfo a.1 a.2 = info := by
  have hnodup : (keys.map fun a =>
      (⟨w.key a.1, w.putInfo a.1 a.2⟩ : Sigma fun _ : Bytes => AtappTopologyInfo)).NodupKeys := by
    unfold List.NodupKeys List.keys
    rw [List.map_map]
    -- apps of different ids have different keys
    exact List.pairwise_map.2 ((List.pairwise_map.1 hproper.2).imp fun hne heq =>
      hne (congrArg App.id (ServiceDiscoveryModule.keyPath_inj heq)))
  rw [liveAfter, AList.lookup_to_alist, ← Option.mem_def, List.mem_dlookup_iff hnodup]
  simp

/-- **A snapshot** whose keys are taken. -/
theorem Follows.snapshot {st : TopologyHistory} (h : Follows w st) (hw : Watching w start st)
    {keys : List (App × EtcdKeyValue)} (hproper : w.Proper (.snapshot keys))
    (hmeets : MeetsOwnKey w st (.snapshot keys)) :
    Follows w (st.step w order (.snapshot keys)) := by
  have hid : ∀ a ∈ keys, TopologyModule.eventId w.codec st.watcher.ctx.addr
      (w.putEvent a.1 a.2) = a.1.id := by
    intro a ha
    rw [hw.context]
    exact (hproper.1 a ha).1
  have hids : (keys.map fun a => w.putEvent a.1 a.2).map
      (TopologyModule.eventId w.codec st.watcher.ctx.addr) = keys.map (fun a => a.1.id) := by
    rw [List.map_map]
    exact List.map_congr_left hid
  obtain ⟨hheld, hothers⟩ := TopologyWatcherState.handleResponse_snapshot w.codec order
    (keys.map fun a => w.putEvent a.1 a.2) hw.elected
    (fun id σ hσ hctx => (h.owned id σ hσ (hctx.trans hw.context)).1)
    (List.forall_mem_map.2 fun a ha => ⟨rfl, (hid a ha).symm ▸ (hmeets a ha).1⟩)
    (hids ▸ hproper.2)
    (List.forall_mem_map.2 fun a ha => hw.context ▸ (hmeets a ha).2)
  rw [hw.context] at hheld hothers hids
  have hheld' : ∀ a ∈ keys, ∃ σ,
      (st.step w order (.snapshot keys)).watcher.mod.find a.1.id = some σ ∧
        σ.contextAddr = w.contextAddr ∧ σ.info = w.putInfo a.1 a.2 := by
    intro a ha
    have hhold : ∃ σ, (st.step w order (.snapshot keys)).watcher.mod.find
        (w.putInfo a.1 a.2).id = some σ ∧ σ.contextAddr = w.contextAddr ∧
          σ.info = w.putInfo a.1 a.2 := hheld _ (List.mem_map_of_mem ha)
    rw [(hproper.1 a ha).1] at hhold
    exact hhold
  refine ⟨fun k info hk => ?_, fun id σ hσ hctx => ?_, fun k info hk => ?_⟩
  · obtain ⟨a, ha, hkey, hinfo⟩ := (lookup_liveAfter_snapshot hproper st.live k info).1 hk
    subst hkey hinfo
    exact ⟨a.1, rfl, (hproper.1 a ha).1, (hmeets a ha).1⟩
  · by_cases hmem : id ∈ keys.map (fun a => a.1.id)
    · obtain ⟨a, ha, haid⟩ := List.mem_map.1 hmem
      subst haid
      obtain ⟨σ', hσ', -, hinfo⟩ := hheld' a ha
      obtain rfl := Option.some.inj (hσ'.symm.trans hσ)
      rw [hinfo]
      exact ⟨(hproper.1 a ha).1, w.key a.1,
        (lookup_liveAfter_snapshot hproper st.live _ _).2 ⟨a, ha, rfl, rfl⟩⟩
    · have hstored := (hothers id (hids ▸ hmem)).symm.trans hσ
      obtain ⟨-, hne⟩ := Option.filter_eq_some_iff.1 hstored
      exact absurd hctx (of_decide_eq_true hne)
  · obtain ⟨a, ha, hkey, hinfo⟩ := (lookup_liveAfter_snapshot hproper st.live k info).1 hk
    subst hkey hinfo
    obtain ⟨σ, hσ, hctx, -⟩ := hheld' a ha
    refine ⟨σ, ?_, hctx⟩
    rw [(hproper.1 a ha).1]
    exact hσ

theorem Follows.step {st : TopologyHistory} (h : Follows w st) (hw : Watching w start st)
    {change : TopologyChange} (hproper : w.Proper change) (hmeets : MeetsOwnKey w st change) :
    Follows w (st.step w order change) := by
  cases change with
  | put app kv => exact h.put hw hproper hmeets
  | delete app kv => exact h.delete hw hproper hmeets
  | snapshot keys => exact h.snapshot hw hproper hmeets

/-! ## Runs -/

/-- **The topology set follows the live keys.** Let the elected watcher of a context start without
    an entry of its own. In every history of snapshots, of Puts that carry the infos of their keys
    and of Deletes that carry only keys the entries of the other contexts never change. If every
    response meets its own keys alone, the entries of the context are exactly the infos of the live
    keys in every state in which no two of them share an id. -/
theorem always_topologyHeldExactly (order : TopologySetOrder) (w : WatchedTopology)
    (watcher : TopologyWatcherState) (helected : watcher.Elected)
    (hcontext : watcher.ctx.addr = w.contextAddr)
    (hnone : ∀ id σ, watcher.mod.find id = some σ → σ.contextAddr ≠ w.contextAddr)
    (changes : List TopologyChange) (hproper : ∀ change ∈ changes, w.Proper change) :
    Run.Always (step w order)
        (fun st => TopologyModule.SameStrangers w.contextAddr watcher.mod st.watcher.mod)
        { watcher } changes ∧
      (Run.StepsMeet (step w order) (MeetsOwnKey w) { watcher } changes →
        Run.Always (step w order) (fun st => NoOverlap st.live → HoldsExactly w st)
          { watcher } changes) := by
  have hstart : Watching w watcher.mod { watcher } :=
    ⟨helected, hcontext, TopologyModule.SameStrangers.refl _⟩
  have hempty : Follows w { watcher } := by
    refine ⟨fun k info hk => ?_, fun id σ hσ hctx => ?_, fun k info hk => ?_⟩
    · cases hk
    · exact absurd hctx (hnone id σ hσ)
    · cases hk
  constructor
  · have hwatching : Run.Always (step w order) (Watching w watcher.mod) { watcher } changes :=
      Run.always_of_stepsMeet (step w order) (fun st change h _ => h.step change) hstart
        (Run.stepsMeet_of_mem (step w order) hproper _)
    exact hwatching.mono _ fun st h => h.strangers
  · intro hmeets
    have hfollows : Run.Always (step w order)
        (fun st => Watching w watcher.mod st ∧ Follows w st) { watcher } changes := by
      refine Run.always_of_stepsMeet (step w order) (fun st change h hc => ?_) ⟨hstart, hempty⟩
        ((Run.stepsMeet_of_mem (step w order) hproper _).and _ hmeets)
      exact ⟨h.1.step change, h.2.step h.1 hc.1 hc.2⟩
    exact hfollows.mono _ fun st h => h.2.holdsExactly

/-- The set is walked in the order of its entries. -/
def entryOrder : TopologySetOrder where
  storages set := set.entries.map Sigma.snd
  storages_perm _ := List.Perm.refl _

/-- The topology directory of context 5. -/
def watchedTopology (infos : List AtappTopologyInfo) : WatchedTopology where
  codec := tableTopologyCodec infos
  contextAddr := 5
  path := ascii "/"

/-- The first watcher of context 5. Context 6 has an entry. -/
def firstWatcher : TopologyWatcherState where
  mod := { internalTopologyInfoSet :=
    (∅ : TopologyInfoSet).insert 9 { info := { id := 9, name := ascii "z" }, contextAddr := 6 } }
  ctx := { addr := 5 }
  wrapper := { snapshotIndex := 1 }

/-- A key that an app puts at a revision. -/
def keyAt (name : String) (id : Nat) (revision : Int) : App × EtcdKeyValue :=
  ({ appName := ascii name, id },
    { createRevision := revision
      modRevision := revision
      version := 1
      value := jsonText { id, name := ascii name } })

/-- A Put of `keyAt`. -/
def putAt (name : String) (id : Nat) (revision : Int) : TopologyChange :=
  .put (keyAt name id revision).1 (keyAt name id revision).2

/-- The key of an app expires at a revision. -/
def expireAt (name : String) (id : Nat) (revision : Int) : TopologyChange :=
  .delete { appName := ascii name, id } { modRevision := revision }

/-- The infos of the two histories below. -/
def renamedInfos : List AtappTopologyInfo :=
  [{ id := 1, name := ascii "a" }, { id := 1, name := ascii "b" }, { id := 2, name := ascii "c" }]

/-- The old key of instance 1 expires before it is renamed; then the watcher reads a snapshot. -/
def earlyRename : List TopologyChange :=
  [.snapshot [keyAt "a" 1 1], putAt "c" 2 2, expireAt "a" 1 3, putAt "b" 1 4,
    .snapshot [keyAt "b" 1 4]]

/-- The old key of instance 1 expires after it was renamed. -/
def lateRename : List TopologyChange :=
  [.snapshot [], putAt "a" 1 1, putAt "b" 1 2, expireAt "a" 1 3]

theorem always_topologyHeldExactly_earlyRename :
    Run.Always (step (watchedTopology renamedInfos) entryOrder)
        (fun st => TopologyModule.SameStrangers 5 firstWatcher.mod st.watcher.mod)
        { watcher := firstWatcher } earlyRename ∧
      Run.Always (step (watchedTopology renamedInfos) entryOrder)
        (fun st => NoOverlap st.live → HoldsExactly (watchedTopology renamedInfos) st)
        { watcher := firstWatcher } earlyRename := by
  have hforeign : ∀ e ∈ firstWatcher.mod.internalTopologyInfoSet.entries, e.2.contextAddr ≠ 5 := by
    decide
  obtain ⟨hstrangers, hexact⟩ := always_topologyHeldExactly entryOrder (watchedTopology renamedInfos)
    firstWatcher ⟨by decide, by decide, by decide⟩ rfl
    (fun id σ hσ => hforeign ⟨id, σ⟩ (AList.mem_lookup_iff.1 hσ)) earlyRename (by decide +kernel)
  exact ⟨hstrangers, hexact (by decide +kernel)⟩

/-- After `lateRename` only the key `b-1` is live, and the context has no entry. -/
theorem lateRename_loses_entry :
    ¬ ∀ (order : TopologySetOrder) (w : WatchedTopology) (watcher : TopologyWatcherState),
      watcher.Elected → watcher.ctx.addr = w.contextAddr →
      (∀ id σ, watcher.mod.find id = some σ → σ.contextAddr ≠ w.contextAddr) →
      ∀ changes : List TopologyChange, (∀ change ∈ changes, w.Proper change) →
      NoOverlap (Run.run (step w order) { watcher } changes).live →
      HoldsExactly w (Run.run (step w order) { watcher } changes) := by
  intro h
  have hforeign : ∀ e ∈ firstWatcher.mod.internalTopologyInfoSet.entries, e.2.contextAddr ≠ 5 := by
    decide
  have hexact := h entryOrder (watchedTopology renamedInfos) firstWatcher
    ⟨by decide, by decide, by decide⟩ rfl
    (fun id σ hσ => hforeign ⟨id, σ⟩ (AList.mem_lookup_iff.1 hσ)) lateRename (by decide +kernel)
    (by decide +kernel)
  obtain ⟨σ, hfind, -⟩ := hexact.held ((watchedTopology renamedInfos).key (keyAt "b" 1 2).1)
    { id := 1, name := ascii "b" } (by decide +kernel)
  have hnone : (Run.run (step (watchedTopology renamedInfos) entryOrder)
      { watcher := firstWatcher } lateRename).watcher.mod.find 1 = none := by decide +kernel
  rw [hnone] at hfind
  cases hfind

end TopologyHistory

end LibAtapp
