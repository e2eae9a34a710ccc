import LibAtapp.Atbus.Routes
import LibAtapp.Library.Run

set_option autoImplicit false

/-! # The callbacks of the atbus connector

What the application, the bus node, the topology, the service discovery and the timers call, as one
step function. The surroundings may change in any way between two steps. -/

namespace LibAtapp.Atbus

namespace Connector

variable (s : Connector)

/-- `on_remove_endpoint`, as `node->disconnect` calls it. -/
def onRemoveEndpoint (id : Nat) : Connector := onRemoveEndpointIn (s.endpoints.length + 1) s id

/-- What a disconnect calls. The endpoint is gone then, so one more is not needed. -/
def reentry : Connector → Nat → Connector := onRemoveEndpointIn s.endpoints.length

/-- Clears the cache of `on_start_connect`. -/
def clearCache : Connector :=
  { s with lastConnect := { s.lastConnect with busId := 0, handle := none } }

/-- `on_start_connect` behind its cache. -/
def startConnect (id : Nat) (handle : Option Nat) : Connector × ConnectResult :=
  let (s, result) := s.tryConnectTo s.reentry id handle true
  match handle with
  | none => (s, result)
  | some a =>
    match s.find (s.privateData a) with
    | none => (s, result)
    | some o => (s.modify o fun h => { h with isActiveConnection := true }, result)

/-- Whether the cache answers. -/
def isCached (id : Nat) (handle : Option Nat) : Bool :=
  decide (s.lastConnect.busId ≠ 0) && decide (s.lastConnect.busId = id) &&
    decide (s.lastConnect.handle = handle)

/-- `on_start_connect` -/
def onStartConnect (id : Nat) (handle : Option Nat) : Connector × ConnectResult :=
  if s.isCached id handle then (s, s.lastConnect.result)
  else
    let (s, result) := s.startConnect id handle
    ({ s with lastConnect := ⟨id, handle, result⟩ }, result)

/-- The end of an application handle: `close` makes it unready and calls `on_close_connection`. -/
def closeConnection (a : Nat) : Connector :=
  onCloseConnection s.reentry { s with appReady := Function.update s.appReady a false } a

/-- `on_send_forward_request` where `send_data` finds no connection. -/
def onSendForwardRequest (a : Nat) : Connector :=
  match s.find (s.privateData a) with
  | some o => s.setHandleUnready o
  | none => { s with appReady := Function.update s.appReady a false }

/-- `resume_handle_discovery` -/
def resumeHandleDiscovery (id : Nat) : Connector :=
  match s.find id with
  | none => s
  | some o =>
    if (s.objects o).waitForDiscoveryToConnect then
      let s := s.modify o fun h => { h with waitForDiscoveryToConnect := false }
      (s.tryDirectReconnect s.reentry o).1
    else s

/-- `on_discovery_event`, which brings or takes away a discovery node. -/
def onDiscoveryEvent (put : Bool) (id : Nat) : Connector :=
  let s := s.clearCache
  if put then s.resumeHandleDiscovery id
  else
    match s.find id with
    | none => s
    | some o => s.setHandleWaitingDiscovery o

/-- `remove_topology_peer` -/
def removeTopologyPeer (id : Nat) : Connector :=
  let s := s.clearCache
  match s.find id with
  | none => s
  | some o => s.setHandleLostTopology o

/-- The part of `update_topology_peer` that forgets the lost topology. -/
def findTopology (o : Nat) : Connector :=
  let s := s.modify o fun h => { h with lostTopology := false, lostTopologyTimeout := 0 }
  if s.needTimer o then s else s.removeTimer o

/-- The part that leaves the old proxy. The entry of the node itself takes the entry of its proxy
    with it. -/
def leaveProxy (id o : Nat) : Connector :=
  let proxyId := (s.objects o).proxyBusId
  if proxyId = 0 then s
  else
    match s.find proxyId with
    | none => s
    | some proxy =>
      let s := s.unbindConnectionHandleProxy s.reentry o proxy
      if id = s.around.nodeId then s.removeConnectionHandle s.reentry proxyId else s

/-- The part that looks for a new route. -/
def renewRoute (id upstream o : Nat) : Connector :=
  if s.checkAtbusEndpointAvailable id then s.setHandleReady o
  else if !s.needKeepHandle o then s.removeConnectionHandle s.reentry id
  else
    match if upstream ≠ 0 then s.find upstream else none with
    | some proxy =>
      let s := s.bindConnectionHandleProxy s.reentry o proxy
      if (s.objects proxy).ready then s.setHandleReady o else s.setHandleUnready o
    | none =>
      if (s.objects o).waitForDiscoveryToConnect then s.setHandleUnready o
      else
        match s.around.discovery id with
        | none => (s.setHandleWaitingDiscovery o).setHandleUnready o
        | some _ =>
          let s := (s.tryConnectTo s.reentry id (s.objects o).appHandle
            (s.objects o).isActiveConnection).1
          if (s.objects o).ready then s
          else
            match s.find id with
            | none => s
            | some current =>
              if (s.objects current).reconnectNextTimepoint ≤ s.around.sysNow then
                (s.setupReconnectTimer s.reentry id none).1
              else s

/-- `update_topology_peer` -/
def updateTopologyPeer (id upstream : Nat) : Connector :=
  let s := s.clearCache
  match s.find id with
  | none => s
  | some o =>
    let s := s.findTopology o
    if (s.objects o).topologyUpstreamBusId = upstream then (s.tryDirectReconnect s.reentry o).1
    else
      let s := s.modify o fun h => { h with topologyUpstreamBusId := upstream }
      let proxyId := (s.objects o).proxyBusId
      -- the proxy is still on the way up
      if upstream ≠ 0 ∧ proxyId ≠ 0 ∧ (s.around.peers id).any (fun peer => peer.busId == proxyId)
      then s
      else (s.leaveProxy id o).renewRoute id upstream o

/-- `on_add_endpoint` and `on_update_endpoint`: an endpoint and whether it is available, with the
    result of the connection. -/
def onUpdateEndpoint (id : Nat) (available : Bool) (res : Int) : Connector :=
  let s := { s with
    endpoints := (id, available) :: s.endpoints.filter fun endpoint => endpoint.1 ≠ id }
  match s.find id with
  | none => s
  | some o =>
    if res < 0 then s
    else if !s.checkAtbusEndpointAvailable id then s
    else s.setHandleReady o

/-- The deadline of an entry that has lost its topology. -/
def deadline (h : ConnectionHandleData) : Option Int :=
  if h.lostTopology then some h.lostTopologyTimeout else none

/-- The callback of the timer of an entry. -/
def onTimer (o : Nat) : Connector :=
  let h := s.objects o
  let s := s.removeTimer o
  if s.find h.currentBusId ≠ some o then s
  else if h.lostTopology ∧ h.lostTopologyTimeout ≤ s.around.sysNow then
    s.removeConnectionHandle s.reentry h.currentBusId
  else if h.ready then
    match deadline h with
    | some timeout => s.updateTimer o timeout
    | none => s
  else if s.around.sysNow < h.reconnectNextTimepoint then
    s.updateTimer o (earlierTimeout h.reconnectNextTimepoint (deadline h))
  else
    let (s, kept) := s.setupReconnectTimer s.reentry h.currentBusId (deadline h)
    if kept then (s.tryDirectReconnect s.reentry o).1 else s

end Connector

/-! ## Steps -/

/-- A callback of the connector or a change around it. A new application handle is for one id, and
    it may be at the address of one that is gone. -/
inductive Event
  | surroundings (around : Surroundings)
  | newHandle (a : Nat)
  | startConnect (id : Nat) (a : Nat)
  | closeConnection (a : Nat)
  | sendFails (a : Nat)
  | discovery (put : Bool) (id : Nat)
  | removeTopologyPeer (id : Nat)
  | updateTopologyPeer (id upstream : Nat)
  | updateEndpoint (id : Nat) (available : Bool) (res : Int)
  | removeEndpoint (id : Nat)
  | timer (o : Nat)

/-- One step. -/
def step (s : Connector) : Event → Connector
  | .surroundings around => { s with around }
  | .newHandle a => { s with
      privateData := Function.update s.privateData a 0
      appReady := Function.update s.appReady a false }
  | .startConnect id a => (s.onStartConnect id (some a)).1
  | .closeConnection a => s.closeConnection a
  | .sendFails a => s.onSendForwardRequest a
  | .discovery put id => s.onDiscoveryEvent put id
  | .removeTopologyPeer id => s.removeTopologyPeer id
  | .updateTopologyPeer id upstream => s.updateTopologyPeer id upstream
  | .updateEndpoint id available res => s.onUpdateEndpoint id available res
  | .removeEndpoint id =>
    { s with endpoints := s.endpoints.filter fun endpoint => endpoint.1 ≠ id }.onRemoveEndpoint id
  | .timer o => s.onTimer o

end LibAtapp.Atbus
