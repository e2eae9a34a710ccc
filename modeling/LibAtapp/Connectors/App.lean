import LibAtapp.Etcdcli.DiscoveryNode

set_option autoImplicit false

/-! # The endpoints, connection handles and connectors of an app

The part of `app` that keeps endpoints: the endpoints with their queues of pending messages, the
connection handles, the connectors with the handles bound to them, the two endpoint indexes and
the ordered map of wakers. Endpoints, handles and connectors are shared by reference, so each is
named by a pointer and its content is a cell of the app. A pointer names one object: an address
that is used again gets a new pointer. Time points of `std::chrono::system_clock` are nanoseconds. -/

namespace LibAtapp.Connectors

/-- The address of an `atapp_connection_handle`. -/
abbrev HandlePtr := Nat

/-- The address of an `atapp_endpoint`. -/
abbrev EndpointPtr := Nat

/-- The address of an `atapp_connector_impl`. -/
abbrev ConnectorPtr := Nat

/-- `std::chrono::system_clock::to_time_t`: whole seconds, rounded towards zero. -/
def toTimeT (t : Int) : Int := t.tdiv 1000000000

/-- What sending and answering messages returns. -/
inductive ErrorCode
  | success
  | atnodeNoConnection
  | atnodeInvalidId
  | closing
  | buffLimit
  | nodeTimeout
  | other (code : Nat)
  deriving DecidableEq

/-! ## The objects -/

/-- `atapp_connection_handle`: its two flags and its two back pointers. `alive` is false once the
    destructor has run. -/
structure AtappConnectionHandle where
  alive : Bool := false
  closing : Bool := false
  ready : Bool := false
  connector : Option ConnectorPtr := none
  endpoint : Option EndpointPtr := none
  deriving DecidableEq

/-- `atapp_endpoint::pending_message_t`. `serial` says which call of `push_forward_message` queued
    the message; no code reads it. -/
structure PendingMessage where
  serial : Nat
  expiredTimepoint : Int
  type : Int
  messageSequence : Nat
  data : Bytes
  metadata : Option AtappMetadata
  deriving DecidableEq

/-- `atapp_endpoint`. -/
structure AtappEndpoint where
  alive : Bool := false
  closing : Bool := false
  nearestWaker : Int := 0
  gcTimepoint : Int := 0
  referConnections : List HandlePtr := []
  discovery : Option NodePtr := none
  pendingMessage : List PendingMessage := []
  pendingMessageSize : Nat := 0
  deriving DecidableEq

/-- The part of `atapp_connector_impl` that binds handles. -/
structure AtappConnectorImpl where
  isDestroying : Bool := false
  handles : List HandlePtr := []
  deriving DecidableEq

/-! ## What the app does to the outside -/

/-- A call that leaves the endpoints, in the order in which they are made. -/
inductive ForwardEvent
  /-- `push_forward_message` returned a code for non-empty data. -/
  | pushed (endpoint : EndpointPtr) (serial : Nat) (code : ErrorCode)
  /-- `on_send_forward_request` of a connector returned a code. -/
  | request (endpoint : EndpointPtr) (serial : Nat) (code : ErrorCode)
  /-- `trigger_on_receive_forward_response` reported a code, through a connector or the app. -/
  | response (endpoint : EndpointPtr) (serial : Nat) (connector : Option ConnectorPtr)
      (code : ErrorCode)
  /-- `reset` went over the endpoint and left these messages in its queue. -/
  | reset (endpoint : EndpointPtr) (left : List Nat)
  deriving DecidableEq

/-! ## The app -/

theorem defaultTickInterval_pos : (0 : Int) < 8000000 := by decide

/-- The settings the endpoints read. A tick interval below a millisecond is replaced by the
    default when the configuration is loaded. -/
structure AppConf where
  appId : Nat := 0
  appName : Bytes := []
  timerTickInterval : Int := 8000000
  endpointGcTimeoutSeconds : Int := 60
  endpointGcTimeoutNanos : Int := 0
  messageTimeoutSeconds : Int := 8
  messageTimeoutNanos : Int := 0
  sendBufferNumber : Nat := 0
  sendBufferSize : Nat := 0
  loopTimes : Int := 1000
  interval_pos : 0 < timerTickInterval := by first | exact defaultTickInterval_pos | decide

/-- `get_configure_message_timeout`. -/
def AppConf.getConfigureMessageTimeout (conf : AppConf) : Int :=
  if conf.messageTimeoutSeconds ≤ 0 ∧ conf.messageTimeoutNanos ≤ 0 then 5000000000
  else conf.messageTimeoutSeconds * 1000000000 + conf.messageTimeoutNanos

/-- What the constructor of an endpoint and `atapp_endpoint_bind_helper::unbind` add to a time to
    get the time of garbage collection. -/
def AppConf.endpointGcTimeout (conf : AppConf) : Int :=
  if conf.endpointGcTimeoutSeconds < 0 then 60000000000
  else conf.endpointGcTimeoutSeconds * 1000000000 + conf.endpointGcTimeoutNanos

/-- The key of `endpoint_waker_`: a time and the address of the endpoint, null where the endpoint
    was being destroyed. -/
abbrev WakerKey := Int × Option EndpointPtr

/-- The endpoint side of `app`. -/
structure App where
  conf : AppConf
  isClosing : Bool := false
  lastTickTimepoint : Int
  heap : NodeHeap := fun _ => {}
  handle : HandlePtr → AtappConnectionHandle := fun _ => {}
  endpoint : EndpointPtr → AtappEndpoint := fun _ => {}
  connector : ConnectorPtr → AtappConnectorImpl := fun _ => {}
  endpointIndexById : Nat → Option EndpointPtr := fun _ => none
  endpointIndexByName : Bytes → Option EndpointPtr := fun _ => none
  /-- The keys of the map; the value of a key is a weak pointer to its endpoint. -/
  endpointWaker : List WakerKey := []
  /-- The number of handles, endpoints and pushed messages so far: the next new one of each. -/
  handleCount : Nat := 0
  endpointCount : Nat := 0
  pushCount : Nat := 0
  trace : List ForwardEvent := []

namespace App

variable (s : App)

/-- `get_next_tick_time`. -/
def getNextTickTime : Int := s.lastTickTimepoint + s.conf.timerTickInterval

/-- `atapp_endpoint::get_id`: the id the discovery node has now. -/
def getId (e : EndpointPtr) : Nat :=
  match (s.endpoint e).discovery with
  | some node => (s.heap node).id
  | none => 0

/-- `atapp_endpoint::get_name`. -/
def getName (e : EndpointPtr) : Bytes :=
  match (s.endpoint e).discovery with
  | some node => (s.heap node).name
  | none => []

/-! ## Writing one object -/

/-- Change a handle. -/
def modifyHandle (h : HandlePtr) (f : AtappConnectionHandle → AtappConnectionHandle) : App :=
  { s with handle := Function.update s.handle h (f (s.handle h)) }

/-- Change an endpoint. -/
def modifyEndpoint (e : EndpointPtr) (f : AtappEndpoint → AtappEndpoint) : App :=
  { s with endpoint := Function.update s.endpoint e (f (s.endpoint e)) }

/-- Change a connector. -/
def modifyConnector (c : ConnectorPtr) (f : AtappConnectorImpl → AtappConnectorImpl) : App :=
  { s with connector := Function.update s.connector c (f (s.connector c)) }

/-- Append to the trace. -/
def record (event : ForwardEvent) : App := { s with trace := s.trace ++ [event] }

section

variable {s}

theorem handle_modifyHandle (h h' : HandlePtr) (f : AtappConnectionHandle → AtappConnectionHandle) :
    (s.modifyHandle h f).handle h' = if h' = h then f (s.handle h) else s.handle h' :=
  Function.update_apply _ _ _ _

@[simp] theorem handle_modifyHandle_self (h : HandlePtr)
    (f : AtappConnectionHandle → AtappConnectionHandle) :
    (s.modifyHandle h f).handle h = f (s.handle h) :=
  Function.update_self _ _ _

theorem handle_modifyHandle_of_ne {h h' : HandlePtr} (hne : h' ≠ h)
    (f : AtappConnectionHandle → AtappConnectionHandle) :
    (s.modifyHandle h f).handle h' = s.handle h' :=
  Function.update_of_ne hne _ _

@[simp] theorem endpoint_modifyHandle (h : HandlePtr)
    (f : AtappConnectionHandle → AtappConnectionHandle) :
    (s.modifyHandle h f).endpoint = s.endpoint := rfl

@[simp] theorem connector_modifyHandle (h : HandlePtr)
    (f : AtappConnectionHandle → AtappConnectionHandle) :
    (s.modifyHandle h f).connector = s.connector := rfl

theorem endpoint_modifyEndpoint (e e' : EndpointPtr) (f : AtappEndpoint → AtappEndpoint) :
    (s.modifyEndpoint e f).endpoint e' = if e' = e then f (s.endpoint e) else s.endpoint e' :=
  Function.update_apply _ _ _ _

@[simp] theorem endpoint_modifyEndpoint_self (e : EndpointPtr) (f : AtappEndpoint → AtappEndpoint) :
    (s.modifyEndpoint e f).endpoint e = f (s.endpoint e) :=
  Function.update_self _ _ _

theorem endpoint_modifyEndpoint_of_ne {e e' : EndpointPtr} (hne : e' ≠ e)
    (f : AtappEndpoint → AtappEndpoint) : (s.modifyEndpoint e f).endpoint e' = s.endpoint e' :=
  Function.update_of_ne hne _ _

@[simp] theorem handle_modifyEndpoint (e : EndpointPtr) (f : AtappEndpoint → AtappEndpoint) :
    (s.modifyEndpoint e f).handle = s.handle := rfl

@[simp] theorem connector_modifyEndpoint (e : EndpointPtr) (f : AtappEndpoint → AtappEndpoint) :
    (s.modifyEndpoint e f).connector = s.connector := rfl

theorem connector_modifyConnector (c c' : ConnectorPtr)
    (f : AtappConnectorImpl → AtappConnectorImpl) :
    (s.modifyConnector c f).connector c' = if c' = c then f (s.connector c) else s.connector c' :=
  Function.update_apply _ _ _ _

@[simp] theorem connector_modifyConnector_self (c : ConnectorPtr)
    (f : AtappConnectorImpl → AtappConnectorImpl) :
    (s.modifyConnector c f).connector c = f (s.connector c) :=
  Function.update_self _ _ _

theorem connector_modifyConnector_of_ne {c c' : ConnectorPtr} (hne : c' ≠ c)
    (f : AtappConnectorImpl → AtappConnectorImpl) :
    (s.modifyConnector c f).connector c' = s.connector c' :=
  Function.update_of_ne hne _ _

@[simp] theorem handle_modifyConnector (c : ConnectorPtr)
    (f : AtappConnectorImpl → AtappConnectorImpl) :
    (s.modifyConnector c f).handle = s.handle := rfl

@[simp] theorem endpoint_modifyConnector (c : ConnectorPtr)
    (f : AtappConnectorImpl → AtappConnectorImpl) :
    (s.modifyConnector c f).endpoint = s.endpoint := rfl

end

/-! ## Wakers -/

/-- `app::add_endpoint_waker`. The weak pointer of an endpoint whose destructor runs is expired,
    and its key then has the null address. -/
def addEndpointWaker (wakeupTime : Int) (e : EndpointPtr) (previousTime : Int) :
    Option App :=
  if s.isClosing then none
  else
    let ep := if (s.endpoint e).alive then some e else none
    let waker := (s.endpointWaker.insert (wakeupTime, ep))
    let waker := if previousTime > wakeupTime then waker.filter (· ≠ (previousTime, ep)) else waker
    some { s with endpointWaker := waker }

/-- `atapp_endpoint::add_waker`. -/
def addWaker (e : EndpointPtr) (wakeupTime : Int) : App :=
  if wakeupTime < (s.endpoint e).nearestWaker ∨ toTimeT (s.endpoint e).nearestWaker = 0 then
    match s.addEndpointWaker wakeupTime e (s.endpoint e).nearestWaker with
    | some s => s.modifyEndpoint e fun ep => { ep with nearestWaker := wakeupTime }
    | none => s
  else s

/-- What `add_waker` can do: nothing, or move the waker of the endpoint to the given time and list
    it. -/
theorem addWaker_cases (e : EndpointPtr) (t : Int) :
    (s.addWaker e t = s ∧ (s.isClosing = true ∨
        (¬ t < (s.endpoint e).nearestWaker ∧ toTimeT (s.endpoint e).nearestWaker ≠ 0))) ∨
    (s.isClosing = false ∧
      (t < (s.endpoint e).nearestWaker ∨ toTimeT (s.endpoint e).nearestWaker = 0) ∧
      ∃ waker : List WakerKey,
        ((s.endpoint e).alive = true → (t, some e) ∈ waker) ∧
        (∀ key ∈ s.endpointWaker, key ≠ ((s.endpoint e).nearestWaker, some e) →
          key ≠ ((s.endpoint e).nearestWaker, none) → key ∈ waker) ∧
        s.addWaker e t =
          { s with endpointWaker := waker
                   endpoint := Function.update s.endpoint e
                     { s.endpoint e with nearestWaker := t } }) := by
  unfold addWaker addEndpointWaker
  by_cases harm : t < (s.endpoint e).nearestWaker ∨ toTimeT (s.endpoint e).nearestWaker = 0
  · cases hclosing : s.isClosing with
    | true => exact Or.inl ⟨by simp, Or.inl rfl⟩
    | false =>
      rw [if_pos harm]
      refine Or.inr ⟨rfl, harm, _, ?_, ?_, rfl⟩
      · intro halive
        rw [if_pos halive]
        split
        · next hlt =>
          refine List.mem_filter.2 ⟨List.mem_insert_self, ?_⟩
          simp only [ne_eq, decide_eq_true_eq, Prod.mk.injEq, not_and]
          intro heq
          omega
        · exact List.mem_insert_self
      · intro key hkey hne hnone
        have hinsert := List.mem_insert_of_mem
          (b := (t, if (s.endpoint e).alive then some e else none)) hkey
        split
        · refine List.mem_filter.2 ⟨hinsert, ?_⟩
          cases (s.endpoint e).alive <;> simpa
        · exact hinsert
  · rw [if_neg harm]
    rw [not_or] at harm
    exact Or.inl ⟨rfl, Or.inr harm⟩

@[simp] theorem handle_addWaker (e : EndpointPtr) (t : Int) :
    (s.addWaker e t).handle = s.handle := by
  obtain ⟨h, -⟩ | ⟨-, -, _, -, -, h⟩ := s.addWaker_cases e t <;> rw [h]

@[simp] theorem connector_addWaker (e : EndpointPtr) (t : Int) :
    (s.addWaker e t).connector = s.connector := by
  obtain ⟨h, -⟩ | ⟨-, -, _, -, -, h⟩ := s.addWaker_cases e t <;> rw [h]

end App

end LibAtapp.Connectors
