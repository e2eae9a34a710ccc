import LibAtapp.Modules.TopologyWatcher
import Mathlib.Data.List.TakeWhile

set_option autoImplicit false

/-! # The callback of the topology watchers

`topology_watcher_callback_list_wrapper_t::operator()` takes one response of a watcher: it decodes
each event and hands it to `update_internal_watcher_event`. When the response is a snapshot and
the watcher is the one that loads snapshots for its cluster context, it copies the set before the
first event and afterwards deletes the infos of the context that no event named. -/

namespace LibAtapp

/-! ## Decoding an event -/

/-- The third-party functions that `unpack` calls. -/
structure TopologyCodec where
  /-- `JsonStringToMessage` into a message: the message after the call, and `ok()`. -/
  jsonStringToMessage : AtappTopologyInfo → Bytes → AtappTopologyInfo × Bool
  /-- `string::to_int<uint64_t>` of a C string. -/
  toUint64 : Bytes → Nat

/-- A codec that reads the JSON texts of the infos in a table. -/
def tableTopologyCodec (table : List AtappTopologyInfo) : TopologyCodec where
  jsonStringToMessage out json :=
    match table.find? (fun info => jsonText { id := info.id, name := info.name } == json) with
    | some info => ({ out with id := info.id, name := info.name }, true)
    | none => (out, false)
  toUint64 := (tableCodec []).toUint64

/-- The order in which the copy of the set is walked. -/
structure TopologySetOrder where
  storages : TopologyInfoSet → List TopologyStorage
  storages_perm : ∀ set, (storages set).Perm (set.entries.map Sigma.snd)

namespace TopologyModule

/-- The id and the name that the last segment of a key carries. -/
def unpackKey (codec : TopologyCodec) (out : AtappTopologyInfo) (path : Bytes) :
    AtappTopologyInfo :=
  let scan := ServiceDiscoveryModule.scanKey path
  if scan.startIdx < path.length then
    if scan.lastMinus + 1 < path.length ∧ scan.lastMinus ≥ scan.startIdx then
      { out with
        id := codec.toUint64 (cString (path.drop (scan.lastMinus + 1)))
        name := (path.drop scan.startIdx).take (scan.lastMinus - scan.startIdx) }
    else { out with id := codec.toUint64 (cString (path.drop scan.startIdx)) }
  else out

/-- `unpack(topology_info_t &, path, json, reset_data)`: the info after the call, and the
    result. -/
def unpack (codec : TopologyCodec) (out : AtappTopologyInfo) (path json : Bytes)
    (resetData : Bool) : AtappTopologyInfo × Bool :=
  let out := if resetData then {} else out
  if json = [] then (unpackKey codec out path, false) else codec.jsonStringToMessage out json

/-- The info that one event of a response carries. -/
def decodeEvent (codec : TopologyCodec) (contextAddr : Nat) (evtData : WatchEvent) :
    TopologyInfoT :=
  let kv := evtData.kv
  let prevKv := evtData.prevKv
  { storage :=
      { info := (unpack codec {} (if kv.key = [] then prevKv.key else kv.key)
          (if kv.value = [] then prevKv.value else kv.value) true).1
        contextAddr
        version :=
          { createRevision := max prevKv.createRevision kv.createRevision
            modifyRevision := max prevKv.modRevision kv.modRevision
            version := max prevKv.version kv.version } }
    action := if evtData.evtType = .delete then .delete else .put }

/-! ## One response -/

variable (codec : TopologyCodec) (order : TopologySetOrder)

/-- `_remove_old_topology_peer_index`. -/
def removeOldTopologyPeerIndex (info : AtappTopologyInfo) (oldIds : TopologyInfoSet) :
    TopologyInfoSet :=
  if info.id ≠ 0 then oldIds.erase info.id else oldIds

/-- One round of the loop over the events of a response. -/
def handleEvent (contextAddr : Nat) (enableSnapshot : Bool)
    (state : TopologyModule × TopologyInfoSet) (evtData : WatchEvent) :
    TopologyModule × TopologyInfoSet :=
  let (m, oldIds) := state
  let event := decodeEvent codec contextAddr evtData
  if event.storage.info.id = 0 then (m, oldIds)
  else
    (m.update event,
      if enableSnapshot then removeOldTopologyPeerIndex event.storage.info oldIds else oldIds)

/-- One round of the loop of `cleanup_old_topology_peers`. -/
def cleanupOldTopologyPeer (contextAddr : Nat) (m : TopologyModule) (storage : TopologyStorage) :
    TopologyModule :=
  if storage.contextAddr ≠ contextAddr then m else m.update { storage, action := .delete }

/-- `cleanup_old_topology_peers`. -/
def cleanupOldTopologyPeers (m : TopologyModule) (contextAddr : Nat) (oldIds : TopologyInfoSet) :
    TopologyModule :=
  (order.storages oldIds).foldl (cleanupOldTopologyPeer contextAddr) m

end TopologyModule

/-- The part of `service_discovery_cluster_context` that the callback works on. -/
structure TopologyClusterContext where
  addr : Nat
  topologyWatcherSnapshotIndex : Finset Int := ∅

/-- `topology_watcher_callback_list_wrapper_t`. -/
structure TopologyWatcherCallbackListWrapper where
  snapshotIndex : Int
  hasInsertSnapshotIndex : Bool := false

/-- A wrapper and what it works on: its module and its context. -/
structure TopologyWatcherState where
  mod : TopologyModule := {}
  ctx : TopologyClusterContext
  wrapper : TopologyWatcherCallbackListWrapper

namespace TopologyWatcherState

variable (codec : TopologyCodec) (order : TopologySetOrder) (st : TopologyWatcherState)

/-- `insert` of the snapshot index before the first snapshot. -/
def insertSnapshotIndex : TopologyWatcherState :=
  if st.wrapper.hasInsertSnapshotIndex then st
  else
    { st with
      ctx := { st.ctx with
        topologyWatcherSnapshotIndex :=
          insert st.wrapper.snapshotIndex st.ctx.topologyWatcherSnapshotIndex }
      wrapper := { st.wrapper with hasInsertSnapshotIndex := true } }

/-- Does another watcher with a smaller index load the snapshots? -/
def otherFirst : Bool :=
  st.ctx.topologyWatcherSnapshotIndex.min != ⊤ &&
    st.ctx.topologyWatcherSnapshotIndex.min != (st.wrapper.snapshotIndex : WithTop Int)

/-- The election at the start of the callback, with `enable_snapshot`. -/
def electSnapshot (snapshot : Bool) : TopologyWatcherState × Bool :=
  if snapshot && st.wrapper.snapshotIndex != 0 then
    let st := st.insertSnapshotIndex
    (st, !st.otherFirst)
  else (st, false)

/-- `operator()`, for a module and a context that are still there. -/
def handleResponse (body : WatchResponse) : TopologyWatcherState :=
  let (st, enableSnapshot) := st.electSnapshot body.snapshot
  -- `_collect_old_topology_peers` copies the set
  let oldIds := if enableSnapshot then st.mod.internalTopologyInfoSet else ∅
  let (m, oldIds) := body.events.foldl
    (TopologyModule.handleEvent codec st.ctx.addr enableSnapshot) (st.mod, oldIds)
  { st with
    mod := if enableSnapshot then m.cleanupOldTopologyPeers order st.ctx.addr oldIds else m }

end TopologyWatcherState

/-! ## The key of an app -/

namespace ServiceDiscoveryModule

/-- Bytes that are neither separators nor minuses do not move the positions. -/
theorem foldl_scanKeyByte_plain {text : Bytes}
    (hplain : ∀ c ∈ text, isKeySeparator c = false ∧ c ≠ 0x2d) (scan : KeyScan) (n : Nat) :
    (text.zipIdx n).foldl scanKeyByte scan = scan := by
  induction text generalizing n with
  | nil => rfl
  | cons c text ih =>
      obtain ⟨hsep, hminus⟩ := hplain c List.mem_cons_self
      have hbyte : scanKeyByte scan (c, n) = scan := by
        simp [scanKeyByte, hsep, hminus]
      rw [List.zipIdx_cons, List.foldl_cons, hbyte]
      exact ih (fun d hd => hplain d (List.mem_cons_of_mem c hd)) (n + 1)

/-- The start of the last segment lies in the key or at its end. -/
theorem startIdx_foldl_scanKeyByte_le (text : Bytes) (scan : KeyScan) (n : Nat)
    (h : scan.startIdx ≤ n) :
    ((text.zipIdx n).foldl scanKeyByte scan).startIdx ≤ n + text.length := by
  induction text generalizing scan n with
  | nil => exact h
  | cons c text ih =>
      have hbyte : (scanKeyByte scan (c, n)).startIdx ≤ n + 1 := by
        unfold scanKeyByte
        split
        · exact le_refl _
        · split
          · exact Nat.le_succ_of_le h
          · exact Nat.le_succ_of_le h
      rw [List.zipIdx_cons, List.foldl_cons, List.length_cons]
      have := ih (scanKeyByte scan (c, n)) (n + 1) hbyte
      omega

/-- A digit is neither a separator nor a minus. -/
theorem plain_of_mem_decimal {n : Nat} {c : Byte} (h : c ∈ decimal n) :
    isKeySeparator c = false ∧ c ≠ 0x2d := by
  obtain ⟨hlow, hhigh⟩ := digit_of_mem_decimal h
  have hall : ∀ c : Byte, 0x30 ≤ c → c ≤ 0x39 → isKeySeparator c = false ∧ c ≠ 0x2d := by
    decide +kernel
  exact hall c hlow hhigh

theorem decimal_ne_nil (n : Nat) : decimal n ≠ [] := by
  rw [decimal, Ne, List.map_eq_nil_iff]
  exact Nat.toDigits_ne_nil

/-- A decimal text has no NUL. -/
theorem cString_decimal (n : Nat) : cString (decimal n) = decimal n := by
  refine List.takeWhile_eq_self_iff.2 fun c hc => decide_eq_true fun hzero => ?_
  have hlow := (digit_of_mem_decimal hc).1
  rw [hzero] at hlow
  exact absurd hlow (by decide)

/-- The loop over a key that ends in a minus and an id. -/
theorem scanKey_minus_decimal (front : Bytes) (id : Nat) :
    (scanKey (front ++ 0x2d :: decimal id)).lastMinus = front.length ∧
      (scanKey (front ++ 0x2d :: decimal id)).startIdx ≤ front.length := by
  have hstart := startIdx_foldl_scanKeyByte_le front {} 0 (le_refl 0)
  have hminus : isKeySeparator 0x2d = false := by decide
  unfold scanKey
  rw [List.zipIdx_append, List.foldl_append, List.zipIdx_cons, List.foldl_cons,
    foldl_scanKeyByte_plain (fun c hc => plain_of_mem_decimal hc)]
  simp only [scanKeyByte, hminus, Bool.false_eq_true, if_false, if_true]
  exact ⟨by omega, by omega⟩

end ServiceDiscoveryModule

namespace TopologyModule

/-- `unpack` reads the id of an app from its key. -/
theorem unpackKey_id (codec : TopologyCodec) (out : AtappTopologyInfo) (front : Bytes) (id : Nat) :
    (unpackKey codec out (front ++ 0x2d :: decimal id)).id = codec.toUint64 (decimal id) := by
  obtain ⟨hminus, hstart⟩ := ServiceDiscoveryModule.scanKey_minus_decimal front id
  have hlength : (front ++ 0x2d :: decimal id).length = front.length + 1 + (decimal id).length := by
    rw [List.length_append, List.length_cons]
    omega
  have hdigits := List.length_pos_iff.2 (ServiceDiscoveryModule.decimal_ne_nil id)
  have hdrop : (front ++ 0x2d :: decimal id).drop (front.length + 1) = decimal id := by
    rw [← List.drop_drop, List.drop_left]
    rfl
  unfold unpackKey
  simp only [hminus]
  rw [if_pos (by omega), if_pos ⟨by omega, hstart⟩]
  simp only [hdrop, ServiceDiscoveryModule.cString_decimal]

end TopologyModule

end LibAtapp
