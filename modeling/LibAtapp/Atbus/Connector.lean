import LibAtapp.Protocol
import Mathlib.Logic.Function.Basic

set_option autoImplicit false

/-! # The state of the atbus connector

`atapp_connector_atbus` keeps an entry for every bus id that it has a route to. An entry is an
object of its own that outlives its place in `handles_` while a function still holds it, so the
entries are in a heap and `handles` maps ids to objects. This file has the data and what happens in
one entry and in those that it is a proxy for: timers, and getting ready or unready.

The bus node, the topology, the service discovery and the clock are outside of the connector; what
it sees of them is in `Surroundings`. The bus node is assumed to be set up, and times count from the
epoch, which stands for "no time" in the source and is `none` here. -/

namespace LibAtapp.Atbus

/-! ## What the connector sees -/

/-- `atbus::topology_relation_type` -/
inductive TopologyRelation
  | invalid
  | self
  | immediateUpstream
  | transitiveUpstream
  | immediateDownstream
  | transitiveDownstream
  | sameUpstreamPeer
  | otherUpstreamPeer
deriving DecidableEq

namespace TopologyRelation

/-- Neighbours and far nodes, to which a direct connection is possible. -/
def isPeer : TopologyRelation → Bool
  | sameUpstreamPeer => true
  | otherUpstreamPeer => true
  | _ => false

/-- Upstream and downstream nodes connect by themselves. -/
def isStream : TopologyRelation → Bool
  | immediateUpstream => true
  | transitiveUpstream => true
  | immediateDownstream => true
  | transitiveDownstream => true
  | _ => false

end TopologyRelation

/-- The `bus` section of the configuration; the intervals are in microseconds. -/
structure BusConf where
  lostTopologyTimeout : Int := 0
  reconnectMaxTryTimes : Nat := 0
  reconnectMaxInterval : Int := 0
  reconnectStartInterval : Int := 0
  allowDirectConnection : Bool := true
  requireSameUpstream : Bool := false

/-- A node on the way up from a target, and whether `check_policy` lets it be connected. -/
structure TopologyPeer where
  busId : Nat
  isAllowed : Bool

/-- An ingress of a discovery node: the parsed address, whether `match_gateway` takes it and whether
    `check_address_connectable` does. -/
structure Gateway where
  address : Bytes
  isMatched : Bool
  isConnectable : Bool

/-- The clock, the configuration, the topology and the service discovery. `peers` are the nodes
    from one up to the root, none if it has no topology, and `pendingMessageCount` is that of the
    endpoint of an application handle, if the handle is bound to one. -/
structure Surroundings where
  sysNow : Int
  conf : BusConf
  nodeId : Nat
  upstreamEndpoint : Option Nat
  relation : Nat → TopologyRelation
  nextHop : Nat → Option Nat
  peers : Nat → List TopologyPeer
  discovery : Nat → Option (List Gateway)
  pendingMessageCount : Nat → Option Nat

/-! ## Entries -/

/-- `atbus_connection_handle_data`. An application handle is given by its address; a timer is
    present while it is live, with its `pending_timer_timeout`. -/
structure ConnectionHandleData where
  appHandle : Option Nat := none
  isActiveConnection : Bool := false
  waitForDiscoveryToConnect : Bool := false
  lostTopology : Bool := false
  ready : Bool := false
  reconnectRetryTimes : Nat := 0
  reconnectNextTimepoint : Int := 0
  lostTopologyTimeout : Int := 0
  currentBusId : Nat
  topologyUpstreamBusId : Nat
  proxyBusId : Nat := 0
  proxyForBusId : List Nat := []
  timer : Option Int := none

/-- The errors of the connect functions. -/
inductive ConnectResult
  | success
  | invalidId
  | topologyUnknown
  | discoveryNotFound
  | topologyDeny
  | noAvailableAddress
  | tryNext
deriving DecidableEq

/-- The bus id, the address of the handle and the result of the last `on_start_connect`. -/
structure LastConnect where
  busId : Nat := 0
  handle : Option Nat := none
  result : ConnectResult := .success

/-- The connector, the endpoints of the bus node with their availability, and for every application
    handle its `private_data_u64` and whether it is ready. `connects` are the calls of
    `node->connect`, the last one first, and `abandoned` the ids whose entries were removed because
    they had no reconnect left; nothing reads either. `exhausted` is set where a bound on a
    recursion would cut it off. -/
structure Connector where
  around : Surroundings
  endpoints : List (Nat × Bool) := []
  handles : List (Nat × Nat) := []
  objects : Nat → ConnectionHandleData := fun _ => { currentBusId := 0, topologyUpstreamBusId := 0 }
  allocated : Nat := 0
  privateData : Nat → Nat := fun _ => 0
  appReady : Nat → Bool := fun _ => false
  lastConnect : LastConnect := {}
  connects : List Bytes := []
  abandoned : List Nat := []
  exhausted : Bool := false

namespace Connector

variable (s : Connector)

/-- `handles_.find` -/
def find (id : Nat) : Option Nat := s.handles.lookup id

/-- `handles_.erase` -/
def erase (id : Nat) : Connector := { s with handles := s.handles.filter fun entry => entry.1 ≠ id }

/-- Changes an entry. -/
def modify (o : Nat) (f : ConnectionHandleData → ConnectionHandleData) : Connector :=
  { s with objects := Function.update s.objects o (f (s.objects o)) }

/-- A bound on a recursion was reached. -/
def exhaust : Connector := { s with exhausted := true }

def hasEndpoint (id : Nat) : Bool := (s.endpoints.lookup id).isSome

/-- `check_atbus_endpoint_available` -/
def checkAtbusEndpointAvailable (id : Nat) : Bool :=
  decide (id ≠ 0) && (s.endpoints.lookup id).getD false

/-! ## Times -/

/-- A signed number of 64 bits. -/
def int64 (n : Int) : Int := n.bmod (2 ^ 64)

/-- The time some microseconds after another one; the clock counts nanoseconds. -/
def timeAfter (now micros : Int) : Int := int64 (now + int64 (1000 * micros))

/-- The interval of the configuration, or a default where it is not positive. -/
def intervalOr (interval default : Int) : Int := if interval ≤ 0 then default else interval

/-- The loop that doubles an interval up to a maximum. -/
def backOff (max : Int) : Nat → Int → Int
  | 0, interval => interval
  | calcInterval + 1, interval =>
    let doubled := int64 (2 * interval)
    if max ≤ doubled then max else backOff max calcInterval doubled

/-- The interval before the next reconnect after some tries. -/
def reconnectInterval (conf : BusConf) (retryTimes : Nat) : Int :=
  backOff (intervalOr conf.reconnectMaxInterval 60000000) retryTimes
    (intervalOr conf.reconnectStartInterval 8000000)

/-! ## Timers -/

/-- `need_timer` -/
def needTimer (o : Nat) : Bool :=
  (s.objects o).lostTopology ||
    !(s.objects o).ready && !s.checkAtbusEndpointAvailable (s.objects o).currentBusId

/-- `remove_timer` -/
def removeTimer (o : Nat) : Connector := s.modify o fun h => { h with timer := none }

/-- What `update_timer` leaves: the earlier of the live timer and the new one. -/
def earlierTimer (timer : Option Int) (timeout : Int) : Option Int :=
  match timer with
  | some pending => if pending ≤ timeout then some pending else some timeout
  | none => some timeout

/-- `update_timer`, where `add_custom_timer` succeeds. -/
def updateTimer (o : Nat) (timeout : Int) : Connector :=
  s.modify o fun h => { h with timer := earlierTimer h.timer timeout }

/-- `set_handle_lost_topology` -/
def setHandleLostTopology (o : Nat) : Connector :=
  if (s.objects o).lostTopology then s
  else
    let timeout := timeAfter s.around.sysNow
      (intervalOr s.around.conf.lostTopologyTimeout 120000000)
    (s.modify o fun h => { h with lostTopology := true, lostTopologyTimeout := timeout }).updateTimer
      o timeout

/-- `set_handle_waiting_discovery` -/
def setHandleWaitingDiscovery (o : Nat) : Connector :=
  let h := s.objects o
  if (s.around.relation h.currentBusId).isStream then s
  else if h.proxyBusId ≠ 0 then s
  else if s.checkAtbusEndpointAvailable h.currentBusId then s
  else s.modify o fun h => { h with waitForDiscoveryToConnect := true }

/-! ## Ready and unready -/

/-- Sets the flag of the application handle of an entry, if there is one. -/
def setAppReady (o : Nat) (ready : Bool) : Connector :=
  match (s.objects o).appHandle with
  | some a => { s with appReady := Function.update s.appReady a ready }
  | none => s

/-- Drops the ids that have no entry from the list of an entry. -/
def dropInvalid (o : Nat) : Connector :=
  s.modify o fun h =>
    { h with proxyForBusId := h.proxyForBusId.filter fun id => (s.find id).isSome }

/-- Runs through the entries of some ids. -/
def forEach (visit : Connector → Nat → Connector) (ids : List Nat) : Connector :=
  ids.foldl (fun s id =>
    match s.find id with
    | some o => visit s o
    | none => s) s

/-- `set_handle_ready`, which goes on to the entries that this one is a proxy for. -/
def setHandleReadyIn : Nat → Connector → Nat → Connector
  | 0, s, _ => s.exhaust
  | depth + 1, s, o =>
    if (s.objects o).ready then s
    else
      let s := s.modify o fun h =>
        { h with ready := true, reconnectRetryTimes := 0, reconnectNextTimepoint := 0 }
      let s := s.setAppReady o true
      let s := (s.forEach (setHandleReadyIn depth) (s.objects o).proxyForBusId).dropInvalid o
      if s.needTimer o then s else s.removeTimer o

/-- `set_handle_unready` -/
def setHandleUnreadyIn : Nat → Connector → Nat → Connector
  | 0, s, _ => s.exhaust
  | depth + 1, s, o =>
    if !(s.objects o).ready then s
    else
      let s := s.modify o fun h => { h with ready := false }
      let s := s.setAppReady o false
      (s.forEach (setHandleUnreadyIn depth) (s.objects o).proxyForBusId).dropInvalid o

/-- Every call in it is for another entry, and all but the first for one in the map, so the number
    of entries bounds the depth. -/
def setHandleReady (o : Nat) : Connector := setHandleReadyIn (s.allocated + 2) s o

def setHandleUnready (o : Nat) : Connector := setHandleUnreadyIn (s.allocated + 2) s o

end Connector

end LibAtapp.Atbus
