import LibAtapp.Connectors.App
import Mathlib.Logic.Relation

set_option autoImplicit false

/-! # Binding handles to endpoints and connectors

`atapp_connector_bind_helper`, `atapp_endpoint_bind_helper` and the members of
`atapp_connection_handle`. `close` and the two `unbind`s call each other, and every inner `close`
finds the closing flag set, so the calls nest three deep at most; the definitions count the depth
down and `close_depth` says that the bound is never reached. -/

namespace LibAtapp.Connectors

/-! ## What comes from outside -/

/-- What `on_send_forward_request` of a connector does: the code it returns, the sequence number
    it leaves in the message, and whether it calls `set_unready` on the handle. -/
structure SendResult where
  code : ErrorCode := .success
  sequence : Nat := 0
  unready : Bool := false

/-- What one operation meets outside of the endpoints: the order in which a set of handles is
    walked, the order of the waker keys with equal times, the handles whose last reference a
    connector's `on_close_connection` drops, and what the calls of `on_send_forward_request` do, in
    their order. -/
structure Environment where
  walk : List HandlePtr → List HandlePtr := id
  walk_perm : ∀ handles, (walk handles).Perm handles := by exact List.Perm.refl
  wakers : List WakerKey → List WakerKey := id
  wakers_perm : ∀ keys, (wakers keys).Perm keys := by exact List.Perm.refl
  drops : HandlePtr → Bool := fun _ => false
  send : Nat → SendResult := fun _ => {}

/-! ## Updates of a handle -/

namespace AtappConnectionHandle

/-- The two flag updates of `close`. -/
def markClosing (h : AtappConnectionHandle) : AtappConnectionHandle :=
  { h with closing := true, ready := false }

/-- `handle.endpiont_ = nullptr`. -/
def clearEndpoint (h : AtappConnectionHandle) : AtappConnectionHandle := { h with endpoint := none }

/-- `handle.connector_ = nullptr`. -/
def clearConnector (h : AtappConnectionHandle) : AtappConnectionHandle :=
  { h with connector := none }

/-- The destructor has run. -/
def destroyed (h : AtappConnectionHandle) : AtappConnectionHandle := { h with alive := false }

end AtappConnectionHandle

namespace App

variable (env : Environment) (s : App)

/-! ## Unbinding -/

/-- The first half of `atapp_endpoint_bind_helper::unbind`: the endpoint forgets the handle, and an
    endpoint without handles is scheduled for garbage collection. -/
def dropRefer (h : HandlePtr) (e : EndpointPtr) : App :=
  if h ∈ (s.endpoint e).referConnections then
    let s := s.modifyEndpoint e fun ep =>
      { ep with referConnections := ep.referConnections.filter (· ≠ h) }
    if (s.endpoint e).referConnections.isEmpty then
      let s := s.modifyEndpoint e fun ep =>
        { ep with gcTimepoint := s.getNextTickTime + s.conf.endpointGcTimeout }
      s.addWaker e (s.endpoint e).gcTimepoint
    else s
  else s

/-- `connect.handles_.erase(&handle)`. -/
def eraseHandle (h : HandlePtr) (c : ConnectorPtr) : App :=
  s.modifyConnector c fun co => { co with handles := co.handles.filter (· ≠ h) }

@[simp] theorem handle_eraseHandle (h : HandlePtr) (c : ConnectorPtr) :
    (s.eraseHandle h c).handle = s.handle := rfl

@[simp] theorem endpoint_eraseHandle (h : HandlePtr) (c : ConnectorPtr) :
    (s.eraseHandle h c).endpoint = s.endpoint := rfl

mutual

/-- `atapp_connection_handle::close`. -/
def closeAt : Nat → App → HandlePtr → App
  | 0, s, _ => s
  | depth + 1, s, h =>
    if (s.handle h).closing then s
    else
      let s := s.modifyHandle h AtappConnectionHandle.markClosing
      let s := match (s.handle h).endpoint with
        | some e => unbindEndpointAt depth s h e
        | none => s
      match (s.handle h).connector with
      | some c => unbindConnectorAt depth s h c
      | none => s
termination_by structural depth => depth

/-- `atapp_endpoint_bind_helper::unbind`. -/
def unbindEndpointAt : Nat → App → HandlePtr → EndpointPtr → App
  | 0, s, _, _ => s
  | depth + 1, s, h, e =>
    let s := s.dropRefer h e
    if (s.handle h).endpoint = some e then
      closeAt depth (s.modifyHandle h AtappConnectionHandle.clearEndpoint) h
    else s
termination_by structural depth => depth

/-- `atapp_connector_bind_helper::unbind`. Where `on_close_connection` drops the last reference of
    the handle, its destructor closes it and frees it. -/
def unbindConnectorAt : Nat → App → HandlePtr → ConnectorPtr → App
  | 0, s, _, _ => s
  | depth + 1, s, h, c =>
    if (s.handle h).connector = some c then
      let s := (s.modifyHandle h AtappConnectionHandle.clearConnector).eraseHandle h c
      let s := closeAt depth s h
      if (s.connector c).isDestroying || !env.drops h then s
      else (closeAt depth s h).modifyHandle h AtappConnectionHandle.destroyed
    else s.eraseHandle h c
termination_by structural depth => depth

end

/-- The calls of `close` and the `unbind`s nest three deep. -/
def callDepth : Nat := 3

/-- `atapp_connection_handle::close`. -/
def close (h : HandlePtr) : App := closeAt env callDepth s h

/-- `atapp_endpoint_bind_helper::unbind`. -/
def unbindEndpoint (h : HandlePtr) (e : EndpointPtr) : App := unbindEndpointAt env callDepth s h e

/-- `atapp_connector_bind_helper::unbind`. -/
def unbindConnector (h : HandlePtr) (c : ConnectorPtr) : App := unbindConnectorAt env callDepth s h c

/-! ## Binding -/

/-- A handle that is bound to a connector is unbound first. -/
def releaseConnector (h : HandlePtr) : App :=
  match (s.handle h).connector with
  | some c => unbindConnector env s h c
  | none => s

/-- A handle that is bound to an endpoint is unbound first. -/
def releaseEndpoint (h : HandlePtr) : App :=
  match (s.handle h).endpoint with
  | some e => unbindEndpoint env s h e
  | none => s

/-- Write both sides of the binding to a connector. -/
def attachConnector (h : HandlePtr) (c : ConnectorPtr) : App :=
  (s.modifyHandle h fun x => { x with connector := some c }).modifyConnector c fun co =>
    { co with handles := co.handles.insert h }

/-- Write both sides of the binding to an endpoint. -/
def attachEndpoint (h : HandlePtr) (e : EndpointPtr) : App :=
  (s.modifyHandle h fun x => { x with endpoint := some e }).modifyEndpoint e fun ep =>
    { ep with referConnections := ep.referConnections.insert h }

/-- `atapp_connector_bind_helper::bind`. -/
def bindConnector (h : HandlePtr) (c : ConnectorPtr) : App :=
  if (s.handle h).connector = some c ∨ (s.connector c).isDestroying = true then s
  else (s.releaseConnector env h).attachConnector h c

/-- `atapp_endpoint_bind_helper::bind`. -/
def bindEndpoint (h : HandlePtr) (e : EndpointPtr) : App :=
  if (s.handle h).endpoint = some e then s
  else
    let s := (s.releaseEndpoint env h).attachEndpoint h e
    if (s.handle h).ready then s.addWaker e s.getNextTickTime else s

/-- `atapp_endpoint::add_connection_handle`. -/
def addConnectionHandle (e : EndpointPtr) (h : HandlePtr) : App :=
  if (s.endpoint e).closing then s else bindEndpoint env s h e

/-- `atapp_endpoint::remove_connection_handle`. -/
def removeConnectionHandle (e : EndpointPtr) (h : HandlePtr) : App :=
  if (s.endpoint e).closing then s else unbindEndpoint env s h e

/-! ## Life and readiness of a handle -/

/-- The constructor of a handle. -/
def newHandle : App :=
  { s.modifyHandle s.handleCount (fun _ => { alive := true }) with handleCount := s.handleCount + 1 }

/-- `atapp_connection_handle::~atapp_connection_handle`. -/
def destroyHandle (h : HandlePtr) : App :=
  (close env s h).modifyHandle h AtappConnectionHandle.destroyed

/-- `atapp_connection_handle::set_ready`. -/
def setReady (h : HandlePtr) : App :=
  if (s.handle h).ready then s
  else
    let s := s.modifyHandle h fun x => { x with ready := true, closing := false }
    match (s.handle h).endpoint, (s.handle h).connector with
    | some e, some _ => s.addWaker e s.getNextTickTime
    | _, _ => s

/-- `atapp_endpoint::get_next_pending_message_timeout`. -/
def getNextPendingMessageTimeout (e : EndpointPtr) : Int :=
  match (s.endpoint e).pendingMessage with
  | [] => 0
  | msg :: _ => msg.expiredTimepoint

/-- `atapp_connection_handle::set_unready`. -/
def setUnready (h : HandlePtr) : App :=
  if (s.handle h).ready then
    let s := s.modifyHandle h fun x => { x with ready := false }
    match (s.handle h).endpoint with
    | none => s
    | some e =>
      if (s.endpoint e).referConnections.isEmpty ∧ (s.endpoint e).pendingMessage ≠ [] then
        s.addWaker e (s.getNextPendingMessageTimeout e)
      else s
  else s

/-! ## What `close` and the `unbind`s do -/

@[simp] theorem handle_dropRefer (h : HandlePtr) (e : EndpointPtr) :
    (s.dropRefer h e).handle = s.handle := by
  unfold dropRefer
  split
  · dsimp only
    split
    · rw [handle_addWaker]
      rfl
    · rfl
  · rfl

@[simp] theorem connector_dropRefer (h : HandlePtr) (e : EndpointPtr) :
    (s.dropRefer h e).connector = s.connector := by
  unfold dropRefer
  split
  · dsimp only
    split
    · rw [connector_addWaker]
      rfl
    · rfl
  · rfl

theorem closeAt_of_closing {s : App} {h : HandlePtr} (hclosing : (s.handle h).closing = true)
    (depth : Nat) : closeAt env depth s h = s := by
  cases depth with
  | zero => rfl
  | succ depth => rw [closeAt, if_pos hclosing]

/-- Unbinding a closing handle from its endpoint. -/
theorem unbindEndpointAt_of_closing {s : App} {h : HandlePtr} {e : EndpointPtr}
    (hclosing : (s.handle h).closing = true) (depth : Nat) :
    unbindEndpointAt env (depth + 1) s h e =
      if (s.handle h).endpoint = some e then
        (s.dropRefer h e).modifyHandle h AtappConnectionHandle.clearEndpoint
      else s.dropRefer h e := by
  rw [unbindEndpointAt]
  simp only [handle_dropRefer]
  split
  · exact closeAt_of_closing env (by simpa [AtappConnectionHandle.clearEndpoint] using hclosing) _
  · rfl

/-- A closing handle leaves its connector: both pointers between them are cleared, and the handle
    is destroyed if the connector held the last reference. -/
def leaveConnector (h : HandlePtr) (c : ConnectorPtr) : App :=
  let s := (s.modifyHandle h AtappConnectionHandle.clearConnector).eraseHandle h c
  if (s.connector c).isDestroying || !env.drops h then s
  else s.modifyHandle h AtappConnectionHandle.destroyed

/-- Unbinding a closing handle from its connector. -/
theorem unbindConnectorAt_of_closing {s : App} {h : HandlePtr} {c : ConnectorPtr}
    (hclosing : (s.handle h).closing = true) (depth : Nat) :
    unbindConnectorAt env (depth + 1) s h c =
      if (s.handle h).connector = some c then leaveConnector env s h c else s.eraseHandle h c := by
  rw [unbindConnectorAt]
  split
  · have hclosing' : (((s.modifyHandle h AtappConnectionHandle.clearConnector).eraseHandle h
        c).handle h).closing = true := by
      simpa [eraseHandle, AtappConnectionHandle.clearConnector] using hclosing
    simp only [closeAt_of_closing env hclosing']
    rfl
  · rfl

/-- A closing handle leaves its endpoint: both pointers between them are cleared. -/
def leaveEndpoint (h : HandlePtr) : App :=
  match (s.handle h).endpoint with
  | some e => (s.dropRefer h e).modifyHandle h AtappConnectionHandle.clearEndpoint
  | none => s

@[simp] theorem leaveEndpoint_handle (h : HandlePtr) :
    (s.leaveEndpoint h).handle h = (s.handle h).clearEndpoint := by
  unfold leaveEndpoint
  split
  · simp
  · next hend => rw [AtappConnectionHandle.clearEndpoint, ← hend]

theorem leaveEndpoint_handle_of_ne {h h' : HandlePtr} (hne : h' ≠ h) :
    (s.leaveEndpoint h).handle h' = s.handle h' := by
  unfold leaveEndpoint
  split
  · rw [handle_modifyHandle_of_ne hne, handle_dropRefer]
  · rfl

@[simp] theorem connector_leaveEndpoint (h : HandlePtr) :
    (s.leaveEndpoint h).connector = s.connector := by
  unfold leaveEndpoint
  split
  · simp
  · rfl

/-- What `close` does to a handle that is not closing yet. -/
def closeOnce (h : HandlePtr) : App :=
  let s := (s.modifyHandle h AtappConnectionHandle.markClosing).leaveEndpoint h
  match (s.handle h).connector with
  | some c => leaveConnector env s h c
  | none => s

theorem closeAt_eq (h : HandlePtr) (depth : Nat) :
    closeAt env (depth + 2) s h = if (s.handle h).closing then s else closeOnce env s h := by
  rw [closeAt]
  split
  · rfl
  · unfold closeOnce
    set s₁ := s.modifyHandle h AtappConnectionHandle.markClosing
    have hclosing : (s₁.handle h).closing = true := by
      simp [s₁, AtappConnectionHandle.markClosing]
    have hunbind : (match (s₁.handle h).endpoint with
        | some e => unbindEndpointAt env (depth + 1) s₁ h e
        | none => s₁) = s₁.leaveEndpoint h := by
      unfold leaveEndpoint
      cases hend : (s₁.handle h).endpoint with
      | none => rfl
      | some e => simp only [unbindEndpointAt_of_closing env hclosing, if_pos hend]
    simp only [hunbind]
    have hclosing₂ : ((s₁.leaveEndpoint h).handle h).closing = true := by
      simpa [AtappConnectionHandle.clearEndpoint] using hclosing
    cases hcon : ((s₁.leaveEndpoint h).handle h).connector with
    | none => rfl
    | some c => simp only [unbindConnectorAt_of_closing env hclosing₂, if_pos hcon]

/-- The bound on the depth is never reached. -/
theorem close_depth (h : HandlePtr) (depth : Nat) :
    closeAt env (depth + 2) s h = close env s h := by
  rw [close, callDepth, closeAt_eq, closeAt_eq env s h 1]

end App

end LibAtapp.Connectors
