import LibAtapp.Etcdcli.Watcher
import LibAtapp.Modules.EventInvariant
import Mathlib.Data.Finset.Max

set_option autoImplicit false

/-! # The callback of the discovery watchers

`discovery_watcher_callback_list_wrapper_t::operator()` takes one response of a watcher: it decodes
each event and hands it to `update_internal_watcher_event`. When the response is a snapshot and
the watcher is the one that loads snapshots for its cluster context, it remembers the nodes of the
set before the first event and afterwards deletes those that no event named. -/

namespace LibAtapp

/-! ## Decoding an event -/

/-- The third-party functions that `unpack` calls. -/
structure DiscoveryCodec where
  /-- `JsonStringToMessage` into a message: the message after the call, and `ok()`. -/
  jsonStringToMessage : AtappDiscovery → Bytes → AtappDiscovery × Bool
  /-- `string::to_int<uint64_t>` of a C string. -/
  toUint64 : Bytes → Nat

/-- The JSON text of an info that only has an id and a name. -/
def jsonText (node : AtappDiscovery) : Bytes :=
  ascii "\x7b\"id\":" ++ decimal node.id ++ ascii ",\"name\":\"" ++ node.name ++ ascii "\"\x7d"

/-- A codec that reads the JSON texts of the infos in a table. -/
def tableCodec (table : List AtappDiscovery) : DiscoveryCodec where
  jsonStringToMessage out json :=
    match table.find? (fun node => jsonText node == json) with
    | some node => ({ out with id := node.id, name := node.name }, true)
    | none => (out, false)
  toUint64 text :=
    (text.takeWhile (fun c => 0x30 ≤ c && c ≤ 0x39)).foldl (fun n c => 10 * n + (c.val - 0x30)) 0

/-- The positions `unpack` remembers while it walks over a key. -/
structure KeyScan where
  startIdx : Nat := 0
  lastMinus : Nat := 0
  deriving DecidableEq

namespace ServiceDiscoveryModule

/-- `/`, a backslash, a blank, a tab, a carriage return or a line feed. -/
def isKeySeparator (c : Byte) : Bool :=
  c = 0x2f || c = 0x5c || c = 0x20 || c = 0x09 || c = 0x0d || c = 0x0a

/-- One round of the loop over the key. -/
def scanKeyByte (scan : KeyScan) (byte : Byte × Nat) : KeyScan :=
  if isKeySeparator byte.1 then { scan with startIdx := byte.2 + 1 }
  else if byte.1 = 0x2d then { scan with lastMinus := byte.2 }
  else scan

/-- The loop over the key. -/
def scanKey (path : Bytes) : KeyScan := path.zipIdx.foldl scanKeyByte {}

/-- The id and the name that the last segment of a key carries. -/
def unpackKey (codec : DiscoveryCodec) (out : AtappDiscovery) (path : Bytes) : AtappDiscovery :=
  let scan := scanKey path
  if scan.startIdx < path.length then
    if scan.lastMinus + 1 < path.length ∧ scan.lastMinus ≥ scan.startIdx then
      { out with
        id := codec.toUint64 (cString (path.drop (scan.lastMinus + 1)))
        name := (path.drop scan.startIdx).take (scan.lastMinus - scan.startIdx) }
    else { out with id := codec.toUint64 (cString (path.drop scan.startIdx)) }
  else out

/-- `unpack(node_info_t &, path, json, reset_data)`: the node after the call, and the result. -/
def unpack (codec : DiscoveryCodec) (out : NodeInfoT) (path json : Bytes) (resetData : Bool) :
    NodeInfoT × Bool :=
  let out := if resetData then { out with nodeDiscovery := {} } else out
  if json = [] then ({ out with nodeDiscovery := unpackKey codec out.nodeDiscovery path }, false)
  else
    let (nodeDiscovery, ok) := codec.jsonStringToMessage out.nodeDiscovery json
    ({ out with nodeDiscovery }, ok)

/-- The node and the version that one event of a response carries. -/
def decodeEvent (codec : DiscoveryCodec) (contextAddr : Nat) (evtData : WatchEvent) :
    NodeInfoT × EtcdDataVersion :=
  let kv := evtData.kv
  let prevKv := evtData.prevKv
  let node := (unpack codec { nodeDiscovery := {}, contextAddr }
    (if kv.key = [] then prevKv.key else kv.key)
    (if kv.value = [] then prevKv.value else kv.value) true).1
  ({ node with action := if evtData.evtType = .delete then .delete else .put },
    { createRevision := max prevKv.createRevision kv.createRevision
      modifyRevision := max prevKv.modRevision kv.modRevision
      version := max prevKv.version kv.version })

theorem unpack_contextAddr (codec : DiscoveryCodec) (out : NodeInfoT) (path json : Bytes) (resetData : Bool) :
    (unpack codec out path json resetData).1.contextAddr = out.contextAddr := by
  simp only [unpack]
  split <;> split <;> rfl

theorem decodeEvent_contextAddr (codec : DiscoveryCodec) (contextAddr : Nat)
    (evtData : WatchEvent) :
    (decodeEvent codec contextAddr evtData).1.contextAddr = contextAddr :=
  unpack_contextAddr codec _ _ _ _

end ServiceDiscoveryModule

/-! ## The nodes before a snapshot -/

/-- `old_names` and `old_ids`. -/
structure OldNodes where
  oldNames : NodeByNameType := ∅
  oldIds : NodeByIdType := ∅

/-- The orders in which the two hash maps are walked. -/
structure HashMapOrder where
  names : NodeByNameType → List NodePtr
  ids : NodeByIdType → List NodePtr
  names_perm : ∀ map, (names map).Perm (map.entries.map Sigma.snd)
  ids_perm : ∀ map, (ids map).Perm (map.entries.map Sigma.snd)

namespace OldNodes

/-- One round of the loop of `_collect_old_nodes`. -/
def collect (heap : NodeHeap) (old : OldNodes) (p : NodePtr) : OldNodes :=
  if (heap p).id ≠ 0 then { old with oldIds := old.oldIds.insert (heap p).id p }
  else if (heap p).name ≠ [] then { old with oldNames := old.oldNames.insert (heap p).name p }
  else old

/-- `_remove_old_node_index`. -/
def removeIndex (old : OldNodes) (node : AtappDiscovery) : OldNodes where
  oldNames := if node.name ≠ [] then old.oldNames.erase node.name else old.oldNames
  oldIds := if node.id ≠ 0 then old.oldIds.erase node.id else old.oldIds

end OldNodes

namespace ServiceDiscoveryModule

variable (cfg : HashConfig) (codec : DiscoveryCodec) (order : HashMapOrder)

/-- `_collect_old_nodes`. `get_sorted_nodes` may rebuild the default index. -/
def collectOldNodes (m : ServiceDiscoveryModule) : ServiceDiscoveryModule × OldNodes :=
  let (globalDiscovery, nodes) := m.globalDiscovery.getSortedNodes cfg m.heap none
  ({ m with globalDiscovery }, nodes.foldl (OldNodes.collect m.heap) {})

/-- The Delete event that `cleanup_old_nodes` makes of an old node. -/
def cleanupEvent (m : ServiceDiscoveryModule) (contextAddr : Nat) (p : NodePtr) : NodeInfoT where
  nodeDiscovery := (m.heap p).nodeInfo.copyKeyTo {}
  action := .delete
  contextAddr := contextAddr

/-- One round of the loops of `cleanup_old_nodes`. -/
def cleanupOldNode (contextAddr : Nat) (m : ServiceDiscoveryModule) (p : NodePtr) :
    ServiceDiscoveryModule :=
  if (m.heap p).contextAddr ≠ contextAddr then m
  else m.step cfg (m.cleanupEvent contextAddr p, (m.heap p).nodeVersion)

/-- `cleanup_old_nodes`. -/
def cleanupOldNodes (m : ServiceDiscoveryModule) (contextAddr : Nat) (old : OldNodes) :
    ServiceDiscoveryModule :=
  let m := (order.names old.oldNames).foldl (cleanupOldNode cfg contextAddr) m
  (order.ids old.oldIds).foldl (cleanupOldNode cfg contextAddr) m

/-- One round of the loop over the events of a response. -/
def handleEvent (contextAddr : Nat) (enableSnapshot : Bool)
    (state : ServiceDiscoveryModule × OldNodes) (evtData : WatchEvent) :
    ServiceDiscoveryModule × OldNodes :=
  let (m, old) := state
  let (node, version) := decodeEvent codec contextAddr evtData
  if node.nodeDiscovery.id = 0 ∧ node.nodeDiscovery.name = [] then (m, old)
  else
    (m.step cfg (node, version),
      if enableSnapshot then old.removeIndex node.nodeDiscovery else old)

end ServiceDiscoveryModule

/-! ## The callback -/

/-- The part of `service_discovery_cluster_context` that the callback works on. -/
structure ServiceDiscoveryClusterContext where
  addr : Nat
  discoveryWatcherSnapshotIndex : Finset Int := ∅
  lastEtcdEventDiscoveryHeader : EtcdResponseHeader := {}

/-- `discovery_watcher_callback_list_wrapper_t`. -/
structure DiscoveryWatcherCallbackListWrapper where
  snapshotIndex : Int
  hasInsertSnapshotIndex : Bool := false

/-- A wrapper and what it works on: its module and its context. -/
structure DiscoveryWatcherState where
  mod : ServiceDiscoveryModule
  ctx : ServiceDiscoveryClusterContext
  wrapper : DiscoveryWatcherCallbackListWrapper

namespace DiscoveryWatcherState

variable (cfg : HashConfig) (codec : DiscoveryCodec) (order : HashMapOrder)
  (st : DiscoveryWatcherState)

/-- `insert` of the snapshot index before the first snapshot. -/
def insertSnapshotIndex : DiscoveryWatcherState :=
  if st.wrapper.hasInsertSnapshotIndex then st
  else
    { st with
      ctx := { st.ctx with
        discoveryWatcherSnapshotIndex :=
          insert st.wrapper.snapshotIndex st.ctx.discoveryWatcherSnapshotIndex }
      wrapper := { st.wrapper with hasInsertSnapshotIndex := true } }

/-- Does another watcher with a smaller index load the snapshots? -/
def otherFirst : Bool :=
  st.ctx.discoveryWatcherSnapshotIndex.min != ⊤ &&
    st.ctx.discoveryWatcherSnapshotIndex.min != (st.wrapper.snapshotIndex : WithTop Int)

/-- The election at the start of the callback, with `enable_snapshot`. -/
def electSnapshot (snapshot : Bool) : DiscoveryWatcherState × Bool :=
  if snapshot && st.wrapper.snapshotIndex != 0 then
    let st := st.insertSnapshotIndex
    (st, !st.otherFirst)
  else (st, false)

/-- `operator()`, for a module and a context that are still there. -/
def handleResponse (header : EtcdResponseHeader) (body : WatchResponse) :
    DiscoveryWatcherState :=
  let st := { st with ctx := { st.ctx with lastEtcdEventDiscoveryHeader := header } }
  let (st, enableSnapshot) := st.electSnapshot body.snapshot
  let start := if enableSnapshot then st.mod.collectOldNodes cfg else (st.mod, {})
  let (m, old) := body.events.foldl
    (ServiceDiscoveryModule.handleEvent cfg codec st.ctx.addr enableSnapshot) start
  { st with mod := if enableSnapshot then m.cleanupOldNodes cfg order st.ctx.addr old else m }

end DiscoveryWatcherState

end LibAtapp
