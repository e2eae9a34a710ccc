import LibAtapp.Connectors.Messages
import LibAtapp.Library.Run

set_option autoImplicit false

/-! # Draining an endpoint

`retry_pending_messages` and `cancel_pending_messages` report messages while these are still at the
front of the queue, and take them off when the callback of the application has returned. The
callback can use the endpoint meanwhile, and the calls it makes can report messages in turn. So the
calls that wait for a callback form a stack, and what a callback does is one input after another. -/

namespace LibAtapp.Connectors

/-- A call that waits for the callback that it made. -/
inductive Frame
  /-- `push_forward_message` reported that it refuses its message. -/
  | push (serial : Nat) (code : ErrorCode) (data : Bytes)
  /-- `retry_pending_messages` reported this message. -/
  | retry (msg : PendingMessage) (target : Option (HandlePtr × ConnectorPtr))
      (tickTime maxCount : Int)
  /-- `cancel_pending_messages`, called by `reset`, reported this message. -/
  | cancel (msg : PendingMessage) (connector : ConnectorPtr)

namespace Frame

/-- The message that the call takes off the queue when the callback has returned. -/
def held : Frame → Option PendingMessage
  | push _ _ _ => none
  | retry msg _ _ _ | cancel msg _ => some msg

/-- The call is a retry. -/
def isRetry : Frame → Bool
  | retry _ _ _ _ => true
  | _ => false

/-- The call is a reset. -/
def isCancel : Frame → Bool
  | cancel _ _ => true
  | _ => false

end Frame

namespace App

variable (env : Environment) (s : App) (e : EndpointPtr)

/-! ## Calls up to their next callback -/

/-- The end of `retry_pending_messages`. -/
def settlePending : App :=
  match (s.endpoint e).pendingMessage with
  | [] => s.modifyEndpoint e fun ep => { ep with pendingMessageSize := 0 }
  | msg :: _ => s.addWaker e msg.expiredTimepoint

/-- The loop of `retry_pending_messages` from this queue up to its next callback. -/
def retryOn (target : Option (HandlePtr × ConnectorPtr)) (tickTime : Int) :
    App → List PendingMessage → Int → Nat → App × Option Frame
  | s, [], _, _ => (s.settlePending e, none)
  | s, msg :: msgs, maxCount, k =>
    match target, decide (maxCount > 0) with
    | some (h, c), true =>
      let (s, code) := s.onSendForwardRequest env e h msg.serial k
      if code = .success then
        retryOn target tickTime (s.popPending e msg) msgs (maxCount - 1) (k + 1)
      else
        (s.triggerOnReceiveForwardResponse e (some c) msg.serial code,
          some (.retry msg target tickTime (maxCount - 1)))
    | _, _ =>
      if msg.expiredTimepoint > tickTime ∨ maxCount ≤ 0 then (s.settlePending e, none)
      else
        (s.triggerOnReceiveForwardResponse e (target.map Prod.snd) msg.serial .nodeTimeout,
          some (.retry msg target tickTime maxCount))

/-- `retry_pending_messages` up to its first callback. -/
def callRetry (tickTime maxCount : Int) : App × Option Frame :=
  let s := s.spendWaker e tickTime
  if (s.endpoint e).pendingMessage = [] then (s, none)
  else
    let maxCount := if maxCount ≤ 0 then int32Max else maxCount
    let handle := s.getReadyConnectionHandle env e
    let target := handle.bind fun h => (s.handle h).connector.map fun c => (h, c)
    retryOn env e target tickTime s (s.endpoint e).pendingMessage maxCount 0

/-- `reset` after its call of `cancel_pending_messages`. -/
def finishReset : App :=
  let s := s.unbindAll env e
  let s := s.modifyEndpoint e fun ep => { ep with closing := false }
  s.record (.reset e ((s.endpoint e).pendingMessage.map PendingMessage.serial))

/-- The loop of `cancel_pending_messages` up to its next callback, and what `reset` does where there
    is none. -/
def cancelOn (connector : ConnectorPtr) : App × Option Frame :=
  match (s.endpoint e).pendingMessage with
  | [] =>
    ((s.modifyEndpoint e fun ep => { ep with pendingMessageSize := 0 }).finishReset env e, none)
  | msg :: _ =>
    (s.triggerOnReceiveForwardResponse e (some connector) msg.serial .closing,
      some (.cancel msg connector))

/-- `reset` up to its first callback. -/
def callReset : App × Option Frame :=
  if (s.endpoint e).closing then (s, none)
  else
    let s := s.modifyEndpoint e fun ep => { ep with closing := true }
    match s.readyConnector (s.getReadyConnectionHandle env e) with
    | none => (s.finishReset env e, none)
    | some c => s.cancelOn env e c

/-- `app::remove_endpoint` up to its first callback. -/
def callRemoveEndpoint : App × Option Frame :=
  let s := s.eraseIdOf e (s.getId e)
  let s := s.eraseNameOf e (s.getName e)
  s.callReset env e

/-- The end of `push_forward_message`. -/
def finishPush (serial : Nat) (code : ErrorCode) (data : Bytes) : App :=
  if data = [] then s else s.record (.pushed e serial code)

/-- `push_forward_message` up to its callback: it makes one exactly if it refuses the message. -/
def callPush (type : Int) (sequence : Nat) (data : Bytes) (metadata : Option AtappMetadata) :
    App × Option Frame :=
  let serial := s.pushCount
  let s := { s with pushCount := serial + 1 }
  let (s, code) := s.pushMessage env e serial type sequence data metadata
  if code = .success then (s.finishPush e serial code data, none)
  else (s, some (.push serial code data))

/-- The callback returns to the call, which goes on up to its next callback. -/
def resume : Frame → App × Option Frame
  | .push serial code data => (s.finishPush e serial code data, none)
  | .retry msg target tickTime maxCount =>
    let s := s.popPending e msg
    retryOn env e target tickTime s (s.endpoint e).pendingMessage maxCount 0
  | .cancel msg connector => (s.popPending e msg).cancelOn env e connector

end App

/-! ## Runs -/

/-- The app and the calls on this endpoint that wait for a callback, the innermost first. -/
structure Draining where
  app : App
  stack : List Frame := []

/-- What the code that runs does next: the innermost callback, or the caller of the endpoint where
    no callback runs. -/
inductive CallbackOp
  | ret
  | pushForwardMessage (type : Int) (sequence : Nat) (data : Bytes)
      (metadata : Option AtappMetadata)
  | removeEndpoint
  /-- An operation on connection handles. -/
  | binds (op : AppOp) (hop : App.bindsOnly op = true)

namespace CallbackOp

/-- The callback returns. -/
def isRet : CallbackOp → Bool
  | ret => true
  | _ => false

/-- A message is pushed. -/
def isPush : CallbackOp → Bool
  | pushForwardMessage _ _ _ _ => true
  | _ => false

end CallbackOp

namespace Draining

variable (e : EndpointPtr) (m : Draining)

/-- A call that has been made up to its next callback, on top of those that wait. -/
def enter (result : App × Option Frame) (stack : List Frame) : Draining where
  app := result.1
  stack := result.2.toList ++ stack

/-- One operation in its environment. -/
def step (m : Draining) (input : Environment × CallbackOp) : Draining :=
  let env := input.1
  match input.2 with
  | .ret =>
    match m.stack with
    | [] => m
    | frame :: stack => enter (m.app.resume env e frame) stack
  | .pushForwardMessage type sequence data metadata =>
    enter (m.app.callPush env e type sequence data metadata) m.stack
  | .removeEndpoint => enter (m.app.callRemoveEndpoint env e) m.stack
  | .binds op _ => { m with app := m.app.step (env, op) }

/-- A call of the endpoint is made, where no other waits: `retry_pending_messages`, or
    `remove_endpoint`, which calls `cancel_pending_messages`. -/
inductive Call
  | retry (tickTime maxCount : Int)
  | remove

/-- The call is made. -/
def start (env : Environment) (s : App) : Call → Draining
  | .retry tickTime maxCount => enter (s.callRetry env e tickTime maxCount) []
  | .remove => enter (s.callRemoveEndpoint env e) []

/-- The messages that calls will take off the queue. -/
def held : List PendingMessage := m.stack.filterMap Frame.held

/-! ## The property -/

/-- **Draining is re-entrant**, for a run that began in the state `s`: no message is reported more
    than once, the call that the callback returns to will find its message at the front of the
    queue, and the byte counter is exact. -/
structure Reentrant (s : App) (m : Draining) : Prop where
  once : ∀ n, m.app.answered e n ≤ s.answered e n + 1
  front : ∀ frame ∈ m.stack.head?, ∀ msg ∈ frame.held,
    (m.app.endpoint e).pendingMessage.head? = some msg
  size : m.app.SizeExact e

/-- **The condition on a step.** Where a retry waits for a callback, the endpoint is not removed, or
    it is closing already, or no ready handle with a connector comes first, so that the messages are
    not cancelled. -/
def SparesRetry (m : Draining) (input : Environment × CallbackOp) : Prop :=
  match input.2 with
  | .removeEndpoint => m.stack.any Frame.isRetry = true →
      (m.app.endpoint e).closing = true ∨ ¬ App.CanAnswer input.1 m.app e
  | _ => True

end Draining

end LibAtapp.Connectors
