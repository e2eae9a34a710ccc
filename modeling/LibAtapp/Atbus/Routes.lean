import LibAtapp.Atbus.Connector

set_option autoImplicit false

/-! # Routes

How entries are made, bound to proxies, connected and removed. `node->disconnect` calls
`on_remove_endpoint` before it returns, and from there all of these functions may run again; the
functions take that call as an argument, and `onRemoveEndpointIn` closes the circle. A disconnect
takes an endpoint away, so their number bounds how deep the calls can be. -/

namespace LibAtapp.Atbus

namespace Connector

/-! ## Binding to a proxy -/

section Reentrant

variable (reenter : Connector → Nat → Connector)

/-- `node->disconnect` -/
def disconnect (s : Connector) (id : Nat) : Connector :=
  reenter { s with endpoints := s.endpoints.filter fun endpoint => endpoint.1 ≠ id } id

/-- `unbind_connection_handle_proxy` -/
def unbindConnectionHandleProxy (s : Connector) (target proxy : Nat) : Connector :=
  let id := (s.objects proxy).currentBusId
  let s := if (s.objects target).proxyBusId = id then
      s.modify target fun h => { h with proxyBusId := 0 }
    else s
  let s := s.modify proxy fun h =>
    { h with proxyForBusId := h.proxyForBusId.erase (s.objects target).currentBusId }
  if (s.objects proxy).proxyForBusId ≠ [] ∨ (s.objects proxy).isActiveConnection then s
  else if s.around.upstreamEndpoint = some id then s
  else if s.hasEndpoint id then s.disconnect reenter id
  else s

/-- `bind_connection_handle_proxy` -/
def bindConnectionHandleProxy (s : Connector) (target proxy : Nat) : Connector :=
  let id := (s.objects proxy).currentBusId
  if (s.objects target).proxyBusId = id then s
  else if id = (s.objects target).currentBusId then s
  else
    let s := if (s.objects target).proxyBusId ≠ 0 then
        match s.find (s.objects target).proxyBusId with
        | some old => s.unbindConnectionHandleProxy reenter target old
        | none => s
      else s
    let s := s.modify target fun h => { h with proxyBusId := id }
    s.modify proxy fun h =>
      { h with proxyForBusId := h.proxyForBusId.insert (s.objects target).currentBusId }

/-! ## Removing -/

/-- `need_keep_handle` -/
def needKeepHandle (s : Connector) (o : Nat) : Bool :=
  let h := s.objects o
  h.isActiveConnection || !h.proxyForBusId.isEmpty ||
    match h.appHandle with
    | some a =>
      match s.around.pendingMessageCount a with
      | some count => decide (0 < count)
      | none => false
    | none => false

/-- `remove_connection_handle` of the entry of an id: it is unbound from its proxy, and the entries
    that it is the proxy of are removed with it, through `on_close_connection` if they have an
    application handle. -/
def removeConnectionHandleIn : Nat → Connector → Nat → Connector
  | 0, s, _ => s.exhaust
  | depth + 1, s, id =>
    match s.find id with
    | none => s
    | some o =>
      let s := s.erase id
      let s := if (s.objects o).proxyBusId ≠ 0 then
          match s.find (s.objects o).proxyBusId with
          | some proxy => s.unbindConnectionHandleProxy reenter o proxy
          | none => s
        else s
      (s.objects o).proxyForBusId.foldl (fun s downstream =>
        match s.find downstream with
        | none => s
        | some target =>
          if (s.objects target).proxyBusId ≠ (s.objects o).currentBusId then s
          else
            let s := s.unbindConnectionHandleProxy reenter target o
            match (s.objects target).appHandle with
            | none => removeConnectionHandleIn depth (s.setHandleUnready target) downstream
            | some a =>
              match s.find (s.privateData a) with
              | none => s
              | some closed =>
                if (s.objects closed).appHandle = some a then
                  removeConnectionHandleIn depth (s.setHandleUnready closed) (s.privateData a)
                else s) s

/-- An entry is gone before the next one is removed, so their number bounds the depth. -/
def removeConnectionHandle (s : Connector) (id : Nat) : Connector :=
  removeConnectionHandleIn reenter (s.handles.length + 1) s id

/-- `on_close_connection` of an application handle. -/
def onCloseConnection (s : Connector) (a : Nat) : Connector :=
  match s.find (s.privateData a) with
  | none => s
  | some o =>
    if (s.objects o).appHandle = some a then
      (s.setHandleUnready o).removeConnectionHandle reenter (s.privateData a)
    else s

/-! ## Connecting -/

/-- `create_connection_handle`, with the new entry put in `handles_` and its handle told the id. -/
def createConnectionHandle (s : Connector) (id : Nat) (handle : Option Nat) : Connector :=
  let upstream := match s.around.peers id with
    | _ :: upstream :: _ => upstream.busId
    | _ => 0
  { s with
    handles := (id, s.allocated) :: s.handles
    objects := Function.update s.objects s.allocated
      { appHandle := handle, currentBusId := id, topologyUpstreamBusId := upstream }
    allocated := s.allocated + 1
    privateData := match handle with
      | some a => Function.update s.privateData a id
      | none => s.privateData }

/-- `mutable_connection_handle`: the entry of an id, which gets the application handle if one is
    given. A handle learns the id only where the entry is new. -/
def mutableConnectionHandle (s : Connector) (id : Nat) (handle : Option Nat) : Connector × Nat :=
  match s.find id with
  | some o =>
    match handle with
    | some a => (s.modify o fun h => { h with appHandle := some a }, o)
    | none => (s, o)
  | none =>
    let created := s.createConnectionHandle id handle
    (if (s.around.peers id).isEmpty then created.setHandleLostTopology s.allocated else created,
      s.allocated)

/-- The retry limit is reached. -/
def IsExceeded (s : Connector) (o : Nat) : Prop :=
  0 < s.around.conf.reconnectMaxTryTimes ∧
    s.around.conf.reconnectMaxTryTimes ≤ (s.objects o).reconnectRetryTimes

instance (s : Connector) (o : Nat) : Decidable (s.IsExceeded o) := inferInstanceAs (Decidable (_ ∧ _))

/-- When the next reconnect of an entry is due. -/
def runTimeout (s : Connector) (o : Nat) : Int :=
  timeAfter s.around.sysNow (reconnectInterval s.around.conf (s.objects o).reconnectRetryTimes)

/-- A timeout, or an earlier one. -/
def earlierTimeout (timeout : Int) : Option Int → Int
  | none => timeout
  | some previous => if timeout < previous then timeout else previous

/-- The next reconnect of an entry with its timer. -/
def scheduleReconnect (s : Connector) (o : Nat) (previousTimeout : Option Int) : Connector :=
  (s.modify o fun h =>
    { h with
      reconnectRetryTimes := (h.reconnectRetryTimes + 1) % 2 ^ 32
      reconnectNextTimepoint := s.runTimeout o }).updateTimer o
    (earlierTimeout (s.runTimeout o) previousTimeout)

/-- `setup_reconnect_timer` of the entry of an id: whether the entry is still there. -/
def setupReconnectTimer (s : Connector) (id : Nat) (previousTimeout : Option Int) :
    Connector × Bool :=
  match s.find id with
  | none => (s, false)
  | some o =>
    if s.IsExceeded o then
      (removeConnectionHandle reenter { s with abandoned := id :: s.abandoned } id, false)
    else (s.scheduleReconnect o previousTimeout, true)

/-- `on_start_connect_to_connected_endpoint` -/
def onStartConnectToConnectedEndpoint (s : Connector) (id : Nat) (handle : Option Nat) :
    Connector × ConnectResult :=
  if id = 0 then (s, .invalidId)
  else if s.around.nodeId = id then
    let (s, o) := s.mutableConnectionHandle id handle
    (s.setHandleReady o, .success)
  else if s.around.upstreamEndpoint = some id ∨ s.hasEndpoint id then
    let (s, o) := s.mutableConnectionHandle id handle
    if s.checkAtbusEndpointAvailable id then (s.setHandleReady o, .success)
    else (s.setHandleUnready o, .success)
  else (s, .tryNext)

/-- The entries of a target and of its proxy, which is the target itself for a direct connection,
    with the one bound to the other: the target first. -/
def entriesThrough (s : Connector) (id : Nat) (handle : Option Nat) (proxyId : Nat) :
    Connector × Nat × Nat :=
  if proxyId = id then
    let (s, o) := s.mutableConnectionHandle id handle
    (s, o, o)
  else
    let (s, proxy) := s.mutableConnectionHandle proxyId none
    let (s, target) := s.mutableConnectionHandle id handle
    (s.bindConnectionHandleProxy reenter target proxy, target, proxy)

/-- The end of a connection through a proxy that is connected or waits for its discovery: where the
    proxy is not ready its reconnect timer is set up. It returns the entry of the proxy and whether
    it has not been removed by that. -/
def connectThrough (s : Connector) (id : Nat) (handle : Option Nat) (proxyId : Nat) :
    Connector × Nat × Bool :=
  let (s, target, proxy) := s.entriesThrough reenter id handle proxyId
  if (s.objects proxy).ready then (s.setHandleReady target, proxy, true)
  else
    let s := s.setHandleUnready target
    if (s.objects proxy).reconnectNextTimepoint ≤ s.around.sysNow then
      let (s, kept) := s.setupReconnectTimer reenter proxyId none
      (s, proxy, kept)
    else (s, proxy, true)

/-- The first address of a discovery node that matches and is connectable. -/
def findAddress (gateways : List Gateway) : Option Bytes :=
  (gateways.find? fun gateway => gateway.isMatched && gateway.isConnectable).map (·.address)

/-- A candidate for the first hop to a target: itself or a node above it. A target without topology
    has no policy to check. -/
structure Candidate where
  busId : Nat
  isAllowed : Bool

/-- The candidates of `on_start_connect_to_same_or_other_upstream_peer`, in order. -/
def candidates (s : Connector) (id : Nat) : List Candidate :=
  match s.around.peers id with
  | [] => if s.around.relation id = .invalid then [⟨id, true⟩] else []
  | peers => peers.map fun peer => ⟨peer.busId, peer.isAllowed⟩

/-- Connects to a target through a candidate at an address. -/
def connectTo (s : Connector) (id : Nat) (handle : Option Nat) (proxyId : Nat) (address : Bytes) :
    Connector × ConnectResult :=
  let (s, target, proxy) := s.entriesThrough reenter id handle proxyId
  if (s.objects proxy).ready then (s.setHandleReady target, .success)
  else
    let s := s.setHandleUnready target
    -- a reconnect that is under way is waited for
    if s.around.sysNow < (s.objects proxy).reconnectNextTimepoint then (s, .success)
    else
      let (s, kept) := s.setupReconnectTimer reenter proxyId none
      if kept then ({ s with connects := address :: s.connects }, .success) else (s, .success)

/-- The loop over the candidates. -/
def connectByCandidates (id : Nat) (handle : Option Nat) (allowProxy : Bool) :
    List Candidate → Connector → Connector × ConnectResult
  | [], s => (s, .tryNext)
  | candidate :: rest, s =>
    if !candidate.isAllowed then
      if allowProxy then connectByCandidates id handle allowProxy rest s else (s, .topologyDeny)
    else if !allowProxy && decide (candidate.busId ≠ id) then (s, .topologyDeny)
    else if s.hasEndpoint candidate.busId then
      ((s.connectThrough reenter id handle candidate.busId).1, .success)
    else
      match s.around.discovery candidate.busId with
      | none =>
        let (s, proxy, kept) := s.connectThrough reenter id handle candidate.busId
        (if kept then s.setHandleWaitingDiscovery proxy else s, .success)
      | some gateways =>
        match if handle.isSome then findAddress gateways else none with
        | some (c :: address) => s.connectTo reenter id handle candidate.busId (c :: address)
        | _ => connectByCandidates id handle allowProxy rest s

/-- `on_start_connect_to_same_or_other_upstream_peer` -/
def onStartConnectToSameOrOtherUpstreamPeer (s : Connector) (id : Nat) (handle : Option Nat)
    (allowProxy : Bool) : Connector × ConnectResult :=
  if id = 0 then (s, .invalidId)
  else
    match s.candidates id with
    | [] => (s, .topologyUnknown)
    | candidates => connectByCandidates reenter id handle allowProxy candidates s

/-- `on_start_connect_to_upstream_peer`, `on_start_connect_to_downstream_peer` and
    `on_start_connect_to_proxy_by_upstream` once their next hop is known: they look at its endpoint,
    not at its entry. -/
def connectByNextHop (s : Connector) (id : Nat) (handle : Option Nat) (nextHop : Nat) :
    Connector × ConnectResult :=
  let (s, proxy) := s.mutableConnectionHandle nextHop none
  let (s, target) := s.mutableConnectionHandle id handle
  let s := if id ≠ nextHop then s.bindConnectionHandleProxy reenter target proxy else s
  if s.checkAtbusEndpointAvailable nextHop then (s.setHandleReady target, .success)
  else (s.setHandleUnready target, .success)

/-- `on_start_connect_to_upstream_peer` and `on_start_connect_to_downstream_peer` -/
def onStartConnectToStreamPeer (s : Connector) (id : Nat) (handle : Option Nat)
    (nextHop : Option Nat) : Connector × ConnectResult :=
  match nextHop with
  | none => (s, .tryNext)
  | some nextHop =>
    if id = 0 then (s, .invalidId) else s.connectByNextHop reenter id handle nextHop

/-- `on_start_connect_to_proxy_by_upstream` -/
def onStartConnectToProxyByUpstream (s : Connector) (id : Nat) (handle : Option Nat) :
    Connector × ConnectResult :=
  if id = 0 then (s, .invalidId)
  else
    match s.around.upstreamEndpoint.getD 0 with
    | 0 => (s, .noAvailableAddress)
    | upstream => s.connectByNextHop reenter id handle upstream

/-- Whether `try_connect_to` tries a direct connection. -/
def allowsDirect (s : Connector) (id : Nat) : Bool :=
  ((s.around.relation id).isPeer || decide (s.around.relation id = .invalid)) &&
    s.around.conf.allowDirectConnection &&
    (!s.around.conf.requireSameUpstream || decide (s.around.relation id = .sameUpstreamPeer))

/-- `try_connect_to` -/
def tryConnectTo (s : Connector) (id : Nat) (handle : Option Nat) (allowProxy : Bool) :
    Connector × ConnectResult :=
  let connected := s.onStartConnectToConnectedEndpoint id handle
  if connected.2 ≠ .tryNext then connected
  else
    let relation := s.around.relation id
    let direct := if s.allowsDirect id then
        s.onStartConnectToSameOrOtherUpstreamPeer reenter id handle allowProxy
      else (s, .tryNext)
    if direct.2 ≠ .tryNext then direct
    else
      let stream := if relation.isStream then
          direct.1.onStartConnectToStreamPeer reenter id handle (s.around.nextHop id)
        else (direct.1, .tryNext)
      if stream.2 ≠ .tryNext then stream
      else if !allowProxy then (stream.1, .noAvailableAddress)
      else stream.1.onStartConnectToProxyByUpstream reenter id handle

/-- `try_direct_reconnect` -/
def tryDirectReconnect (s : Connector) (o : Nat) : Connector × ConnectResult :=
  let h := s.objects o
  if h.ready then (s, .success)
  else if h.lostTopology then (s, .success)
  else if (s.around.relation h.currentBusId).isStream then (s, .success)
  else if h.proxyBusId ≠ 0 then (s, .success)
  else if h.waitForDiscoveryToConnect then (s, .success)
  else
    match s.around.discovery h.currentBusId with
    | none => (s.modify o fun h => { h with waitForDiscoveryToConnect := true }, .discoveryNotFound)
    | some _ => s.tryConnectTo reenter h.currentBusId h.appHandle false

/-! ## The end of an endpoint -/

/-- `on_remove_endpoint`, where the calls that it makes are given. -/
def onRemoveEndpointWith (s : Connector) (id : Nat) : Connector :=
  match s.find id with
  | none => s
  | some o =>
    if !s.needKeepHandle o then s.removeConnectionHandle reenter id
    else
      let (s, kept) :=
        if (s.objects o).reconnectNextTimepoint ≤ s.around.sysNow then
          s.setupReconnectTimer reenter id none
        else (s, true)
      if !kept then s
      else if !(s.around.relation id).isPeer then s
      else if (s.objects o).lostTopology || (s.objects o).waitForDiscoveryToConnect then s
      else
        let (s, result) := s.tryDirectReconnect reenter o
        if result = .topologyDeny then s.removeConnectionHandle reenter id else s

end Reentrant

/-- `on_remove_endpoint` -/
def onRemoveEndpointIn : Nat → Connector → Nat → Connector
  | 0, s, _ => s.exhaust
  | depth + 1, s, id => onRemoveEndpointWith (onRemoveEndpointIn depth) s id

end Connector

end LibAtapp.Atbus
