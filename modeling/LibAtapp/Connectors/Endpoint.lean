import LibAtapp.Connectors.Bindings

set_option autoImplicit false

/-! # The message queue of an endpoint

The members of `atapp_endpoint` that push, retry and cancel messages, and the two ways an endpoint
is emptied: `reset` and the destructor. A message that a ready connection takes is handed to its
connector at once; every other accepted message waits in the queue. -/

namespace LibAtapp.Connectors.App

variable (env : Environment) (s : App)

/-- `get_ready_connection_handle`: the first ready handle of the set. -/
def getReadyConnectionHandle (e : EndpointPtr) : Option HandlePtr :=
  (env.walk (s.endpoint e).referConnections).find? fun h => (s.handle h).ready

/-- The connector of the ready handle, where both exist. -/
def readyConnector (handle : Option HandlePtr) : Option ConnectorPtr :=
  handle.bind fun h => (s.handle h).connector

/-- `trigger_on_receive_forward_response`. The connector answers where there is one, else the
    app. -/
def triggerOnReceiveForwardResponse (e : EndpointPtr) (connector : Option ConnectorPtr)
    (serial : Nat) (code : ErrorCode) : App :=
  s.record (.response e serial connector code)

/-- `on_send_forward_request` of the connector of handle `h`, the `k`-th call of this operation. -/
def onSendForwardRequest (e : EndpointPtr) (h : HandlePtr) (serial k : Nat) : App × ErrorCode :=
  let result := env.send k
  let s := s.record (.request e serial result.code)
  (if result.unready then s.setUnready h else s, result.code)

/-! ## Push -/

/-- Whether the queue has no room for the message: the two tests before it is queued. -/
def bufferLimit (e : EndpointPtr) (size : Nat) : Bool :=
  (decide (s.conf.sendBufferNumber > 0) &&
    decide ((s.endpoint e).pendingMessage.length + 1 > s.conf.sendBufferNumber)) ||
  (decide (s.conf.sendBufferSize > 0) &&
    decide ((s.endpoint e).pendingMessageSize + size > s.conf.sendBufferSize))

/-- Append the message to the queue and arm the waker at its expiry. -/
def queueMessage (e : EndpointPtr) (serial : Nat) (type : Int) (sequence : Nat) (data : Bytes)
    (metadata : Option AtappMetadata) : App :=
  let expired := s.lastTickTimepoint + s.conf.getConfigureMessageTimeout
  let msg : PendingMessage :=
    { serial := serial, expiredTimepoint := expired, type := type, messageSequence := sequence,
      data := data, metadata := metadata }
  let s := s.modifyEndpoint e fun ep =>
    { ep with
      pendingMessage := ep.pendingMessage ++ [msg]
      pendingMessageSize := ep.pendingMessageSize + data.length }
  s.addWaker e expired

/-- The part of `push_forward_message` that queues the message or refuses it. -/
def pushPending (e : EndpointPtr) (serial : Nat) (type : Int) (sequence : Nat) (data : Bytes)
    (metadata : Option AtappMetadata) : App × ErrorCode :=
  if s.bufferLimit e data.length then
    let handle := s.getReadyConnectionHandle env e
    (s.triggerOnReceiveForwardResponse e (s.readyConnector handle) serial .buffLimit, .buffLimit)
  else (s.queueMessage e serial type sequence data metadata, .success)

/-- The body of `push_forward_message` for the call with number `serial`. -/
def pushMessage (e : EndpointPtr) (serial : Nat) (type : Int) (sequence : Nat) (data : Bytes)
    (metadata : Option AtappMetadata) : App × ErrorCode :=
  if (s.endpoint e).closing then
    let handle := s.getReadyConnectionHandle env e
    (s.triggerOnReceiveForwardResponse e (s.readyConnector handle) serial .closing, .closing)
  else if data = [] then (s, .success)
  else if (s.endpoint e).pendingMessage ≠ [] then
    s.pushPending env e serial type sequence data metadata
  else
    match s.getReadyConnectionHandle env e with
    | none => s.pushPending env e serial type sequence data metadata
    | some h =>
      match (s.handle h).connector with
      | none => s.pushPending env e serial type sequence data metadata
      | some c =>
        match s.onSendForwardRequest env e h serial 0 with
        | (s, .success) => (s, .success)
        -- connection errors go to the retry queue
        | (s, .atnodeNoConnection) =>
          s.pushPending env e serial type (env.send 0).sequence data metadata
        | (s, .atnodeInvalidId) =>
          s.pushPending env e serial type (env.send 0).sequence data metadata
        | (s, code) => (s.triggerOnReceiveForwardResponse e (some c) serial code, code)

/-- `push_forward_message`. -/
def pushForwardMessage (e : EndpointPtr) (type : Int) (sequence : Nat) (data : Bytes)
    (metadata : Option AtappMetadata) : App × ErrorCode :=
  let serial := s.pushCount
  let s := { s with pushCount := serial + 1 }
  let (s, code) := s.pushMessage env e serial type sequence data metadata
  (if data = [] then s else s.record (.pushed e serial code), code)

/-! ## Retry -/

/-- Take the front message off the queue and its size off the counter. -/
def popPending (e : EndpointPtr) (msg : PendingMessage) : App :=
  s.modifyEndpoint e fun ep =>
    { ep with
      pendingMessage := ep.pendingMessage.tail
      pendingMessageSize :=
        if ep.pendingMessageSize ≥ msg.data.length then ep.pendingMessageSize - msg.data.length
        else 0 }

/-- The loop of `retry_pending_messages` over the messages of the queue. `target` is the ready
    handle with its connector, `k` the number of calls of `on_send_forward_request` so far. -/
def retryLoop (e : EndpointPtr) (target : Option (HandlePtr × ConnectorPtr)) (tickTime : Int) :
    App → List PendingMessage → Int → Nat → App × Int
  | s, [], _, _ => (s, 0)
  | s, msg :: msgs, maxCount, k =>
    match target, decide (maxCount > 0) with
    | some (h, c), true =>
      let (s, code) := s.onSendForwardRequest env e h msg.serial k
      let s := if code = .success then s
        else s.triggerOnReceiveForwardResponse e (some c) msg.serial code
      let (s, ret) := retryLoop e target tickTime (s.popPending e msg) msgs (maxCount - 1) (k + 1)
      (s, ret + 1)
    | _, _ =>
      if msg.expiredTimepoint > tickTime ∨ maxCount ≤ 0 then (s, 0)
      else
        let s := s.triggerOnReceiveForwardResponse e (target.map Prod.snd) msg.serial .nodeTimeout
        let (s, ret) := retryLoop e target tickTime (s.popPending e msg) msgs maxCount k
        (s, ret + 1)

/-- `retry_pending_messages` before its loop: a waker that is not later than the tick is spent. -/
def spendWaker (e : EndpointPtr) (tickTime : Int) : App :=
  if (s.endpoint e).nearestWaker ≤ tickTime then
    s.modifyEndpoint e fun ep => { ep with nearestWaker := 0 }
  else s

/-- `std::numeric_limits<int32_t>::max()`. -/
def int32Max : Int := 2147483647

/-- `retry_pending_messages`. -/
def retryPendingMessages (e : EndpointPtr) (tickTime : Int) (maxCount : Int) : App × Int :=
  let s := if (s.endpoint e).nearestWaker ≤ tickTime then
      s.modifyEndpoint e fun ep => { ep with nearestWaker := 0 }
    else s
  if (s.endpoint e).pendingMessage = [] then (s, 0)
  else
    let maxCount := if maxCount ≤ 0 then int32Max else maxCount
    let handle := s.getReadyConnectionHandle env e
    let target := handle.bind fun h => (s.handle h).connector.map fun c => (h, c)
    let (s, ret) := retryLoop env e target tickTime s (s.endpoint e).pendingMessage maxCount 0
    let s := match (s.endpoint e).pendingMessage with
      | [] => s.modifyEndpoint e fun ep => { ep with pendingMessageSize := 0 }
      | msg :: _ => s.addWaker e msg.expiredTimepoint
    (s, ret)

/-! ## Cancel, reset and destruction -/

/-- The loop of `cancel_pending_messages`. -/
def cancelLoop (e : EndpointPtr) (connector : ConnectorPtr) : App → List PendingMessage → App
  | s, [] => s
  | s, msg :: msgs =>
    let s := s.triggerOnReceiveForwardResponse e (some connector) msg.serial .closing
    cancelLoop e connector (s.popPending e msg) msgs

/-- `cancel_pending_messages`. -/
def cancelPendingMessages (e : EndpointPtr) : App :=
  match s.readyConnector (s.getReadyConnectionHandle env e) with
  | none => s
  | some c =>
    let s := cancelLoop e c s (s.endpoint e).pendingMessage
    s.modifyEndpoint e fun ep => { ep with pendingMessageSize := 0 }

/-- The part of `reset` after the messages are cancelled: every handle is unbound. -/
def unbindAll (e : EndpointPtr) : App :=
  let handles := (s.endpoint e).referConnections
  let s := s.modifyEndpoint e fun ep => { ep with referConnections := [] }
  (env.walk handles).foldl (fun s h => s.unbindEndpoint env h e) s

/-- `atapp_endpoint::reset`. -/
def resetEndpoint (e : EndpointPtr) : App :=
  if (s.endpoint e).closing then s
  else
    let s := s.modifyEndpoint e fun ep => { ep with closing := true }
    let s := s.cancelPendingMessages env e
    let s := s.unbindAll env e
    let s := s.modifyEndpoint e fun ep => { ep with closing := false }
    s.record (.reset e ((s.endpoint e).pendingMessage.map PendingMessage.serial))

/-- `~atapp_endpoint`. Weak pointers to the endpoint have expired, and its queue is freed. -/
def destroyEndpoint (e : EndpointPtr) : App :=
  let s := s.modifyEndpoint e fun ep => { ep with alive := false }
  let s := s.resetEndpoint env e
  s.modifyEndpoint e fun ep => { ep with pendingMessage := [], pendingMessageSize := 0 }

/-- `atapp_endpoint::create`. -/
def createEndpoint : App :=
  { s.modifyEndpoint s.endpointCount (fun _ =>
      { alive := true, gcTimepoint := s.lastTickTimepoint + s.conf.endpointGcTimeout }) with
    endpointCount := s.endpointCount + 1 }

/-- `atapp_connector_impl::cleanup`: one round of its loop empties the set, and unbinding inserts
    no handle. -/
def cleanup (c : ConnectorPtr) : App :=
  let handles := (s.connector c).handles
  let s := s.modifyConnector c fun co => { co with handles := [] }
  (env.walk handles).foldl (fun s h => s.unbindConnector env h c) s

/-- The destructor of a connector: the derived class cleans up, then `~atapp_connector_impl` sets
    its flag. -/
def destroyConnector (c : ConnectorPtr) : App :=
  (s.cleanup env c).modifyConnector c fun co => { co with isDestroying := true }

end LibAtapp.Connectors.App
