import LibAtapp.Connectors.WakersInTime
import LibAtapp.Connectors.MessageFates

set_option autoImplicit false

/-! # No premature loss of messages

A message that an endpoint accepted is to be reported as failed only when it has expired, when its
endpoint closes or when a connector refuses it for another reason than a missing connection; a
message that met a missing connection waits for the next retry, and an endpoint is not recycled
before its messages expire. The first send obeys this. `retry_pending_messages` does not: it reports
the two connection errors and drops the message. And the time of recycling is independent of the
times at which the messages expire. The main result says in which runs no message is lost early. -/

namespace LibAtapp.Connectors

/-- The two errors that say that there is no connection. -/
def ErrorCode.isConnection : ErrorCode → Bool
  | .atnodeNoConnection | .atnodeInvalidId => true
  | _ => false

namespace App

variable {env : Environment} {s t u : App} {e : EndpointPtr}

/-! ## The property -/

/-- The events of `t` that come after those of `s`. -/
def newEvents (s t : App) : List ForwardEvent := t.trace.drop s.trace.length

/-- The retry that a step makes: the endpoint, the tick time and the limit. -/
def retried (s : App) (input : Environment × AppOp) : Option (EndpointPtr × Int × Int) :=
  match input.2 with
  | .retryPendingMessages e tickTime maxCount => some (e, tickTime, maxCount)
  | .processRound =>
    (s.woken input.1).map fun e => (e, s.lastTickTimepoint, s.conf.loopTimes)
  | _ => none

/-- The endpoint that a step closes by removing or destroying it. -/
def closed (s : App) (op : AppOp) : Option EndpointPtr :=
  match op with
  | .mutableEndpoint discovery _ => s.replaced discovery
  | .removeEndpointById id => s.endpointIndexById id
  | .removeEndpointByName name => s.endpointIndexByName name
  | .removeEndpoint e | .destroyEndpoint e => some e
  | _ => none

/-- The step is the push of this message, and the push returns the error: the message was not
    accepted. -/
def Refused (s : App) (input : Environment × AppOp) (e : EndpointPtr) (n : Nat)
    (code : ErrorCode) : Prop :=
  match input.2 with
  | .pushForwardMessage e' type sequence data metadata =>
    e = e' ∧ n = s.pushCount ∧ code ≠ .success ∧
      code = (s.pushForwardMessage input.1 e' type sequence data metadata).2
  | _ => False

/-- The reasons for which an accepted message may be reported as failed. -/
inductive Excused (s : App) (input : Environment × AppOp) (e : EndpointPtr) (n : Nat) :
    ErrorCode → Prop
  /-- A retry ran when the message had expired. -/
  | expired {tickTime maxCount : Int} {msg : PendingMessage}
      (hretry : s.retried input = some (e, tickTime, maxCount))
      (hmem : msg ∈ (s.endpoint e).pendingMessage) (hserial : msg.serial = n)
      (hexpired : msg.expiredTimepoint ≤ tickTime) : Excused s input e n .nodeTimeout
  /-- The endpoint was closed. -/
  | closed (hclosed : e ∈ s.closed input.2) : Excused s input e n .closing
  /-- The connector returned another error than a connection error. -/
  | refused {code : ErrorCode} (hsent : .request e n code ∈ s.newEvents (s.step input))
      (hcode : code ≠ .success) (hconnection : code.isConnection = false) :
      Excused s input e n code

/-- **No premature loss** in a step: a message is answered for one of the reasons only, a message
    that meets a connection error in a retry stays at the front of its queue, and an endpoint is
    recycled when the messages that it still has have expired. -/
structure NoEarlyLoss (s : App) (input : Environment × AppOp) : Prop where
  reports : ∀ e n c code, .response e n c code ∈ s.newEvents (s.step input) →
    Refused s input e n code ∨ Excused s input e n code
  stays : ∀ e tickTime maxCount, s.retried input = some (e, tickTime, maxCount) →
    ∀ n code, .request e n code ∈ s.newEvents (s.step input) → code.isConnection = true →
      ((s.step input).pendingSerials e).head? = some n
  recycles : input.2 = .processRound → ∀ e left, .reset e left ∈ s.newEvents (s.step input) →
    ∀ msg ∈ (s.endpoint e).pendingMessage, msg.serial ∈ left →
      msg.expiredTimepoint ≤ s.lastTickTimepoint

/-! ## The condition -/

/-- The ready handle with its connector that a retry uses. -/
def retryTarget (env : Environment) (s : App) (e : EndpointPtr) :
    Option (HandlePtr × ConnectorPtr) :=
  (s.getReadyConnectionHandle env e).bind fun h => (s.handle h).connector.map fun c => (h, c)

/-- The limit that a retry uses. -/
def retryLimit (maxCount : Int) : Int := if maxCount ≤ 0 then int32Max else maxCount

/-- The number of messages that a loop with this limit sends. -/
def sends (target : Option (HandlePtr × ConnectorPtr)) (msgs : List PendingMessage)
    (maxCount : Int) : Nat :=
  if target.isSome then min msgs.length maxCount.toNat else 0

/-- Whenever a retry sends a message there is a connection. -/
def StaysConnected (env : Environment) (s : App) (e : EndpointPtr) (maxCount : Int) : Prop :=
  ∀ k < sends (s.retryTarget env e) (s.endpoint e).pendingMessage (retryLimit maxCount),
    (env.send k).code.isConnection = false

/-- **The condition on a step.** No retry meets a connection error, and when an endpoint is recycled
    all its messages have expired. -/
def Patient (s : App) (input : Environment × AppOp) : Prop :=
  match input.2 with
  | .retryPendingMessages e _ maxCount => StaysConnected input.1 s e maxCount
  | .processRound =>
    (∀ e ∈ s.woken input.1, StaysConnected input.1 s e s.conf.loopTimes) ∧
      ∀ e ∈ s.recycled input.1, (s.endpoint e).closing = false →
        ∀ msg ∈ (s.endpoint e).pendingMessage, msg.expiredTimepoint ≤ s.lastTickTimepoint
  | _ => True

/-! ## What a step records -/

/-- `t` has the events of `s` and then `events`. -/
def Appends (s : App) (events : List ForwardEvent) (t : App) : Prop := t.trace = s.trace ++ events

theorem Appends.newEvents {events : List ForwardEvent} (h : Appends s events t) :
    s.newEvents t = events := by
  rw [App.newEvents, h, List.drop_left]

theorem Appends.trans {front back : List ForwardEvent} (hst : Appends s front t)
    (htu : Appends t back u) : Appends s (front ++ back) u := by
  rw [Appends, htu, hst, List.append_assoc]

theorem Appends.same {events : List ForwardEvent} (h : Appends s events t)
    (htrace : u.trace = t.trace) : Appends s events u :=
  htrace.trans h

theorem SameMessages.appends (h : SameMessages s t) : Appends s [] t := by
  rw [Appends, h.trace, List.append_nil]

/-- No message is sent, and every answer says that this endpoint closes. -/
def OnlyCloses (closed : Option EndpointPtr) (events : List ForwardEvent) : Prop :=
  (∀ e n code, .request e n code ∉ events) ∧
    ∀ e n c code, .response e n c code ∈ events → e ∈ closed ∧ code = .closing

/-- What leads from `s` to `t` sends nothing and answers only that this endpoint closes. -/
def Closing (s : App) (closed : Option EndpointPtr) (t : App) : Prop :=
  ∃ events, Appends s events t ∧ OnlyCloses closed events

theorem closing_of_trace (closed : Option EndpointPtr) (htrace : t.trace = s.trace) :
    Closing s closed t := by
  refine ⟨[], ?_, ?_, ?_⟩
  · rw [Appends, htrace, List.append_nil]
  · simp
  · simp

theorem Closing.trans {closed : Option EndpointPtr} (hst : Closing s closed t)
    (htu : Closing t closed u) : Closing s closed u := by
  obtain ⟨front, hfront, hrequests, hresponses⟩ := hst
  obtain ⟨back, hback, hrequests', hresponses'⟩ := htu
  refine ⟨front ++ back, hfront.trans hback, fun e n code hmem => ?_, fun e n c code hmem => ?_⟩
  · rcases List.mem_append.1 hmem with h | h
    · exact hrequests e n code h
    · exact hrequests' e n code h
  · rcases List.mem_append.1 hmem with h | h
    · exact hresponses e n c code h
    · exact hresponses' e n c code h

/-! ## Retries -/

/-- What the loop of a retry records: the answers to messages that were refused or have expired. -/
structure RetryEvents (env : Environment) (e : EndpointPtr)
    (target : Option (HandlePtr × ConnectorPtr)) (tickTime : Int) (msgs : List PendingMessage)
    (maxCount : Int) (k : Nat) (events : List ForwardEvent) : Prop where
  responses : ∀ e' n c code, .response e' n c code ∈ events → e' = e ∧
    (code ≠ .success ∧ .request e n code ∈ events ∨
      code = .nodeTimeout ∧ ∃ msg ∈ msgs, msg.serial = n ∧ msg.expiredTimepoint ≤ tickTime)
  requests : ∀ e' n code, .request e' n code ∈ events →
    ∃ j < sends target msgs maxCount, code = (env.send (k + j)).code
  failed : ∀ j < sends target msgs maxCount, (env.send (k + j)).code ≠ .success →
    ∃ n c, .response e n c (env.send (k + j)).code ∈ events
  resets : ∀ e' left, .reset e' left ∉ events

theorem retryEvents_nil {target : Option (HandlePtr × ConnectorPtr)} {tickTime : Int}
    {msgs : List PendingMessage} {maxCount : Int} {k : Nat}
    (hnone : sends target msgs maxCount = 0) :
    RetryEvents env e target tickTime msgs maxCount k [] where
  responses := by simp
  requests := by simp
  failed j hj := by
    rw [hnone] at hj
    omega
  resets := by simp

/-- The front message is sent. -/
theorem RetryEvents.send {target : HandlePtr × ConnectorPtr} {tickTime : Int}
    {msg : PendingMessage} {msgs : List PendingMessage} {maxCount : Int} (hcount : 0 < maxCount)
    {k : Nat} {rest : List ForwardEvent}
    (h : RetryEvents env e (some target) tickTime msgs (maxCount - 1) (k + 1) rest) :
    RetryEvents env e (some target) tickTime (msg :: msgs) maxCount k
      (.request e msg.serial (env.send k).code ::
        ((if (env.send k).code = .success then []
          else [.response e msg.serial (some target.2) (env.send k).code]) ++ rest)) := by
  have hsends : sends (some target) (msg :: msgs) maxCount =
      sends (some target) msgs (maxCount - 1) + 1 := by
    simp only [sends, Option.isSome_some, if_true, List.length_cons]
    omega
  constructor
  · intro e' n c code hmem
    rcases List.mem_cons.1 hmem with heq | hmem
    · cases heq
    rcases List.mem_append.1 hmem with hmem | hmem
    · split at hmem
      · cases hmem
      · next hcode =>
        cases List.mem_singleton.1 hmem
        exact ⟨rfl, Or.inl ⟨hcode, List.mem_cons_self⟩⟩
    · obtain ⟨he, hcase⟩ := h.responses e' n c code hmem
      refine ⟨he, hcase.imp (fun hsent => ⟨hsent.1, ?_⟩) (fun hexpired => ⟨hexpired.1, ?_⟩)⟩
      · exact List.mem_cons_of_mem _ (List.mem_append_right _ hsent.2)
      · obtain ⟨old, hold, hrest⟩ := hexpired.2
        exact ⟨old, List.mem_cons_of_mem _ hold, hrest⟩
  · intro e' n code hmem
    rw [hsends]
    rcases List.mem_cons.1 hmem with heq | hmem
    · cases heq
      exact ⟨0, by omega, rfl⟩
    rcases List.mem_append.1 hmem with hmem | hmem
    · split at hmem
      · cases hmem
      · cases List.mem_singleton.1 hmem
    · obtain ⟨j, hj, hcode⟩ := h.requests e' n code hmem
      refine ⟨j + 1, by omega, ?_⟩
      rw [hcode, Nat.add_right_comm, Nat.add_assoc]
  · intro j hj hcode
    rw [hsends] at hj
    cases j with
    | zero =>
      refine ⟨msg.serial, some target.2, List.mem_cons_of_mem _ (List.mem_append_left _ ?_)⟩
      rw [if_neg (by simpa using hcode)]
      exact List.mem_singleton_self _
    | succ j =>
      have hshift : k + (j + 1) = k + 1 + j := by omega
      rw [hshift] at hcode ⊢
      obtain ⟨n, c, hmem⟩ := h.failed j (by omega) hcode
      exact ⟨n, c, List.mem_cons_of_mem _ (List.mem_append_right _ hmem)⟩
  · intro e' left hmem
    rcases List.mem_cons.1 hmem with heq | hmem
    · cases heq
    rcases List.mem_append.1 hmem with hmem | hmem
    · split at hmem
      · cases hmem
      · cases List.mem_singleton.1 hmem
    · exact h.resets e' left hmem

/-- The front message has expired, and there is nothing to send it with. -/
theorem RetryEvents.expire {tickTime : Int} {msg : PendingMessage}
    (hexpired : msg.expiredTimepoint ≤ tickTime) {msgs : List PendingMessage} {maxCount : Int}
    {k : Nat} {rest : List ForwardEvent} (h : RetryEvents env e none tickTime msgs maxCount k rest) :
    RetryEvents env e none tickTime (msg :: msgs) maxCount k
      (.response e msg.serial none .nodeTimeout :: rest) := by
  constructor
  · intro e' n c code hmem
    rcases List.mem_cons.1 hmem with heq | hmem
    · cases heq
      exact ⟨rfl, Or.inr ⟨rfl, msg, List.mem_cons_self, rfl, hexpired⟩⟩
    · obtain ⟨he, hcase⟩ := h.responses e' n c code hmem
      refine ⟨he, hcase.imp (fun hsent => ⟨hsent.1, List.mem_cons_of_mem _ hsent.2⟩)
        (fun hold => ⟨hold.1, ?_⟩)⟩
      obtain ⟨old, hold, hrest⟩ := hold.2
      exact ⟨old, List.mem_cons_of_mem _ hold, hrest⟩
  · intro e' n code hmem
    rcases List.mem_cons.1 hmem with heq | hmem
    · cases heq
    · exact h.requests e' n code hmem
  · exact fun j hj => absurd hj (Nat.not_lt_zero j)
  · intro e' left hmem
    rcases List.mem_cons.1 hmem with heq | hmem
    · cases heq
    · exact h.resets e' left hmem

/-- Asking a connector records its answer. -/
theorem trace_onSendForwardRequest (env : Environment) (s : App) (e : EndpointPtr) (h : HandlePtr)
    (serial k : Nat) : (s.onSendForwardRequest env e h serial k).1.trace =
      s.trace ++ [.request e serial (env.send k).code] := by
  unfold onSendForwardRequest
  dsimp only
  split
  · exact (sameMessages_setUnready _ h).trace
  · rfl

theorem retryLoop_events (env : Environment) (e : EndpointPtr)
    (target : Option (HandlePtr × ConnectorPtr)) (tickTime : Int) (msgs : List PendingMessage)
    (s : App) (maxCount : Int) (k : Nat) :
    ∃ events, Appends s events (retryLoop env e target tickTime s msgs maxCount k).1 ∧
      RetryEvents env e target tickTime msgs maxCount k events := by
  induction msgs generalizing s maxCount k with
  | nil =>
    refine ⟨[], (List.append_nil _).symm, retryEvents_nil ?_⟩
    simp [sends]
  | cons msg msgs ih =>
    unfold retryLoop
    split
    · next h c hcount =>
      have hcount : 0 < maxCount := by simpa using hcount
      obtain ⟨rest, happends, hrest⟩ := ih
        ((if (s.onSendForwardRequest env e h msg.serial k).2 = .success then
            (s.onSendForwardRequest env e h msg.serial k).1
          else (s.onSendForwardRequest env e h msg.serial k).1.triggerOnReceiveForwardResponse e
            (some c) msg.serial (s.onSendForwardRequest env e h msg.serial k).2).popPending e msg)
        (maxCount - 1) (k + 1)
      refine ⟨_, ?_, hrest.send hcount⟩
      have hsent := trace_onSendForwardRequest env s e h msg.serial k
      have hcode : (s.onSendForwardRequest env e h msg.serial k).2 = (env.send k).code := rfl
      refine Eq.trans happends ?_
      rw [hcode]
      split
      · show (s.onSendForwardRequest env e h msg.serial k).1.trace ++ rest = _
        rw [hsent]
        simp
      · show ((s.onSendForwardRequest env e h msg.serial k).1.trace ++ _) ++ rest = _
        rw [hsent]
        simp
    · next target _ _ hnot =>
      -- there is no ready handle with a connector, or the limit is reached
      have hnone : 0 < maxCount → target = none := by
        intro hpos
        cases target with
        | none => rfl
        | some target => exact (hnot target.1 target.2 rfl (decide_eq_true hpos)).elim
      split
      · refine ⟨[], (List.append_nil _).symm, retryEvents_nil ?_⟩
        by_cases hpos : 0 < maxCount
        · rw [hnone hpos]
          rfl
        · unfold sends
          split
          · omega
          · rfl
      · next hgo =>
        rw [not_or, not_lt, not_le] at hgo
        obtain rfl := hnone hgo.2
        obtain ⟨rest, happends, hrest⟩ := ih
          ((s.triggerOnReceiveForwardResponse e none msg.serial .nodeTimeout).popPending e msg)
          maxCount k
        refine ⟨_, ?_, hrest.expire hgo.1⟩
        refine Eq.trans happends ?_
        show (s.trace ++ [_]) ++ rest = _
        rw [List.append_assoc]
        rfl

/-- **What a retry records.** -/
theorem retryPendingMessages_events (env : Environment) (s : App) (e : EndpointPtr)
    (tickTime maxCount : Int) :
    ∃ events, Appends s events (s.retryPendingMessages env e tickTime maxCount).1 ∧
      RetryEvents env e (s.retryTarget env e) tickTime (s.endpoint e).pendingMessage
        (retryLimit maxCount) 0 events := by
  unfold retryPendingMessages
  dsimp only
  set s₁ := if (s.endpoint e).nearestWaker ≤ tickTime then
      s.modifyEndpoint e fun ep => { ep with nearestWaker := 0 }
    else s with hs₁
  have hspent : SameMessages s s₁ := by
    rw [hs₁]
    split
    · exact sameMessages_modifyEndpoint s e (fun _ => ⟨rfl, rfl, rfl⟩) fun _ => ⟨rfl, rfl⟩
    · exact SameMessages.refl s
  have hrefer : (s₁.endpoint e).referConnections = (s.endpoint e).referConnections := by
    rw [hs₁]
    split
    · exact s.modifyEndpoint_field e (f := fun ep => { ep with nearestWaker := 0 })
        AtappEndpoint.referConnections (fun _ => rfl) e
    · rfl
  have hhandle : s₁.handle = s.handle := by
    rw [hs₁]
    split <;> rfl
  have htarget : s₁.retryTarget env e = s.retryTarget env e := by
    rw [retryTarget, retryTarget, getReadyConnectionHandle, getReadyConnectionHandle, hrefer,
      hhandle]
  rw [← hspent.pending e, ← htarget]
  split
  · next hnil =>
    refine ⟨[], hspent.appends, retryEvents_nil ?_⟩
    rw [hnil]
    simp [sends]
  · obtain ⟨events, happends, hevents⟩ := retryLoop_events env e
      (s₁.retryTarget env e) tickTime (s₁.endpoint e).pendingMessage s₁ (retryLimit maxCount) 0
    refine ⟨events, ?_, hevents⟩
    have hstart := hspent.appends.trans happends
    split
    · exact hstart
    · exact hstart.same (sameMessages_addWaker _ e _).trace

/-! ## Pushes -/

/-- Every answer refuses the pushed message. -/
def Refuses (e : EndpointPtr) (serial : Nat) (code : ErrorCode) (events : List ForwardEvent) :
    Prop :=
  ∀ e' n c code', .response e' n c code' ∈ events →
    e' = e ∧ n = serial ∧ code' = code ∧ code ≠ .success

theorem refuses_of_not_response {serial : Nat} {code : ErrorCode} {events : List ForwardEvent}
    (h : ∀ e' n c code', .response e' n c code' ∉ events) : Refuses e serial code events :=
  fun e' n c code' hmem => absurd hmem (h e' n c code')

theorem refuses_append {serial : Nat} {code : ErrorCode} {front back : List ForwardEvent}
    (hfront : Refuses e serial code front) (hback : Refuses e serial code back) :
    Refuses e serial code (front ++ back) := by
  intro e' n c code' hmem
  rcases List.mem_append.1 hmem with h | h
  · exact hfront e' n c code' h
  · exact hback e' n c code' h

theorem refuses_response {serial : Nat} {code : ErrorCode} (c : Option ConnectorPtr)
    (hcode : code ≠ .success) : Refuses e serial code [.response e serial c code] := by
  intro e' n c' code' hmem
  cases List.mem_singleton.1 hmem
  exact ⟨rfl, rfl, rfl, hcode⟩

theorem pushPending_events (env : Environment) (s : App) (e : EndpointPtr) (serial : Nat)
    (type : Int) (sequence : Nat) (data : Bytes) (metadata : Option AtappMetadata) :
    ∃ events, Appends s events (s.pushPending env e serial type sequence data metadata).1 ∧
      Refuses e serial (s.pushPending env e serial type sequence data metadata).2 events := by
  unfold pushPending
  split
  · exact ⟨_, rfl, refuses_response _ (show ErrorCode.buffLimit ≠ .success by decide)⟩
  · refine ⟨[], ?_, refuses_of_not_response (by simp)⟩
    unfold queueMessage
    refine (sameMessages_addWaker _ e _).trace.trans ?_
    exact (List.append_nil _).symm

/-- **What a push records**: an answer only if the message is refused. -/
theorem pushMessage_events (env : Environment) (s : App) (e : EndpointPtr) (serial : Nat)
    (type : Int) (sequence : Nat) (data : Bytes) (metadata : Option AtappMetadata) :
    ∃ events, Appends s events (s.pushMessage env e serial type sequence data metadata).1 ∧
      Refuses e serial (s.pushMessage env e serial type sequence data metadata).2 events := by
  unfold pushMessage
  split
  · exact ⟨_, rfl, refuses_response _ (show ErrorCode.closing ≠ .success by decide)⟩
  split
  · exact ⟨[], (List.append_nil _).symm, refuses_of_not_response (by simp)⟩
  split
  · exact pushPending_events env s e serial type sequence data metadata
  split
  · exact pushPending_events env s e serial type sequence data metadata
  · next h _ =>
    split
    · exact pushPending_events env s e serial type sequence data metadata
    · next c _ =>
      have hsent := trace_onSendForwardRequest env s e h serial 0
      -- a message that met a connection error is queued or refused
      have hqueued : ∀ t : App, (s.onSendForwardRequest env e h serial 0).1 = t →
          ∃ events, Appends s events
              (t.pushPending env e serial type (env.send 0).sequence data metadata).1 ∧
            Refuses e serial
              (t.pushPending env e serial type (env.send 0).sequence data metadata).2 events := by
        rintro t rfl
        obtain ⟨events, happends, hrefuses⟩ := pushPending_events env
          (s.onSendForwardRequest env e h serial 0).1 e serial type (env.send 0).sequence data
          metadata
        exact ⟨_, Appends.trans hsent happends,
          refuses_append (refuses_of_not_response (by simp)) hrefuses⟩
      split
      · next heq =>
        rw [heq] at hsent
        exact ⟨_, hsent, refuses_of_not_response (by simp)⟩
      · next heq => exact hqueued _ (congrArg Prod.fst heq)
      · next heq => exact hqueued _ (congrArg Prod.fst heq)
      · next t code hsuccess _ _ heq =>
        have hasked : Appends s [.request e serial (env.send 0).code] t := by
          rwa [heq] at hsent
        refine ⟨_, hasked.trans (u := t.record (.response e serial (some c) code)) rfl, ?_⟩
        exact refuses_append (refuses_of_not_response (by simp)) (refuses_response _ hsuccess)

theorem pushForwardMessage_events (env : Environment) (s : App) (e : EndpointPtr) (type : Int)
    (sequence : Nat) (data : Bytes) (metadata : Option AtappMetadata) :
    ∃ events, Appends s events (s.pushForwardMessage env e type sequence data metadata).1 ∧
      Refuses e s.pushCount (s.pushForwardMessage env e type sequence data metadata).2 events := by
  obtain ⟨events, happends, hrefuses⟩ := pushMessage_events env
    { s with pushCount := s.pushCount + 1 } e s.pushCount type sequence data metadata
  unfold pushForwardMessage
  dsimp only
  split
  · exact ⟨events, happends, hrefuses⟩
  · refine ⟨events ++ [_], Appends.trans happends rfl, ?_⟩
    exact refuses_append hrefuses (refuses_of_not_response (by simp))

/-! ## Closing -/

theorem closing_cancelPendingMessages (env : Environment) (s : App) (e : EndpointPtr) :
    Closing s (some e) (s.cancelPendingMessages env e) := by
  have hloop : ∀ (c : ConnectorPtr) (msgs : List PendingMessage) (t : App),
      Closing t (some e) (cancelLoop e c t msgs) := by
    intro c msgs
    induction msgs with
    | nil => exact fun t => closing_of_trace _ rfl
    | cons msg msgs ih =>
      intro t
      have hanswer : Closing t (some e)
          ((t.triggerOnReceiveForwardResponse e (some c) msg.serial .closing).popPending e msg) := by
        refine ⟨[.response e msg.serial (some c) .closing], rfl, by simp, ?_⟩
        intro e' n c' code hmem
        cases List.mem_singleton.1 hmem
        exact ⟨rfl, rfl⟩
      exact hanswer.trans (ih _)
  unfold cancelPendingMessages
  split
  · exact closing_of_trace _ rfl
  · exact (hloop _ _ s).trans (closing_of_trace _ rfl)

theorem closing_resetEndpoint (env : Environment) (s : App) (e : EndpointPtr) :
    Closing s (some e) (s.resetEndpoint env e) := by
  unfold resetEndpoint
  split
  · exact closing_of_trace _ rfl
  · refine Closing.trans (t := s.modifyEndpoint e fun ep => { ep with closing := true })
      (closing_of_trace _ rfl) ?_
    refine (closing_cancelPendingMessages env _ e).trans ?_
    refine (closing_of_trace _ (sameMessages_unbindAll env _ e).trace).trans ?_
    exact ⟨[.reset e _], rfl, by simp, by simp⟩

/-- Index entries are written before the endpoint is reset. -/
theorem closing_reset_withIndexes (env : Environment) (s : App) (e : EndpointPtr)
    (byId : Nat → Option EndpointPtr) (byName : Bytes → Option EndpointPtr) :
    Closing s (some e) ((s.withIndexes byId byName).resetEndpoint env e) :=
  (closing_of_trace _ rfl).trans (closing_resetEndpoint env _ e)

theorem closing_removeEndpoint (env : Environment) (s : App) (e : EndpointPtr) :
    Closing s (some e) (s.removeEndpoint env e) := by
  unfold removeEndpoint
  dsimp only
  obtain ⟨byId, hbyId⟩ := s.eraseIdOf_eq e (s.getId e)
  rw [hbyId]
  obtain ⟨byName, hbyName⟩ := (s.withIndexes byId s.endpointIndexByName).eraseNameOf_eq e
    ((s.withIndexes byId s.endpointIndexByName).getName e)
  rw [hbyName]
  exact closing_reset_withIndexes env s e byId byName

theorem closing_removeEndpointById (env : Environment) (s : App) (id : Nat) :
    Closing s (s.endpointIndexById id) (s.removeEndpointById env id) := by
  unfold removeEndpointById
  cases s.endpointIndexById id with
  | none => exact closing_of_trace _ rfl
  | some e =>
    dsimp only
    obtain ⟨byName, hbyName⟩ := (s.setIndexById id none).eraseNameOf_eq e
      ((s.setIndexById id none).getName e)
    rw [hbyName]
    exact closing_reset_withIndexes env s e _ byName

theorem closing_removeEndpointByName (env : Environment) (s : App) (name : Bytes) :
    Closing s (s.endpointIndexByName name) (s.removeEndpointByName env name) := by
  unfold removeEndpointByName
  cases s.endpointIndexByName name with
  | none => exact closing_of_trace _ rfl
  | some e =>
    dsimp only
    obtain ⟨byId, hbyId⟩ := (s.setIndexByName name none).eraseIdOf_eq e
      ((s.setIndexByName name none).getId e)
    rw [hbyId]
    exact closing_reset_withIndexes env s e byId _

theorem closing_mutableEndpoint (env : Environment) (s : App) (discovery : Option NodePtr)
    (result : Option ConnectResult) :
    Closing s (s.replaced discovery) (s.mutableEndpoint env discovery result).1 := by
  have hstore : ∀ {t : App} {closed : Option EndpointPtr}, Closing s closed t →
      ∀ e node id name needId needName,
        Closing s closed (t.storeEndpoint e node id name needId needName) := by
    intro t closed ht e node id name needId needName
    refine ht.trans (closing_of_trace closed ?_)
    obtain ⟨byId, byName, heq⟩ := t.storeEndpoint_eq e node id name needId needName
    rw [heq]
    rfl
  unfold mutableEndpoint replaced
  by_cases hclosing : s.isClosing = true
  · rw [if_pos hclosing, if_pos hclosing]
    exact closing_of_trace _ rfl
  · rw [if_neg hclosing, if_neg hclosing]
    cases discovery with
    | none => exact closing_of_trace _ rfl
    | some node =>
      dsimp only
      rw [lookup_eq]
      cases hid : s.foundById (s.heap node).id with
      | none =>
        cases hname : s.foundByName (s.heap node).name with
        | some e => exact hstore (closing_of_trace _ rfl) _ _ _ _ _ _
        | none =>
          have hcreate : Closing s none s.createEndpoint := closing_of_trace _ rfl
          have hconnect : ∀ t : App, Closing t none (t.connectEndpoint env s.endpointCount result) :=
            fun t => closing_of_trace none (sameMessages_connectEndpoint env t _ result).trace
          exact (hstore hcreate s.endpointCount node _ _ _ _).trans (hconnect _)
      | some e' =>
        cases hname : s.foundByName (s.heap node).name with
        | none => exact hstore (closing_of_trace _ rfl) _ _ _ _ _ _
        | some e =>
          dsimp only
          by_cases he : e = e'
          · rw [if_pos he, if_pos he]
            exact hstore (closing_of_trace _ rfl) _ _ _ _ _ _
          · rw [if_neg he, if_neg he]
            have hfound : s.endpointIndexById (s.heap node).id = some e' := by
              unfold foundById at hid
              split at hid
              · cases hid
              · exact hid
            refine hstore ?_ _ _ _ _ _ _
            rw [← hfound]
            exact closing_removeEndpointById env s _

theorem closing_destroyEndpoint (env : Environment) (s : App) (e : EndpointPtr) :
    Closing s (some e) (s.destroyEndpoint env e) := by
  refine Closing.trans (t := s.modifyEndpoint e fun ep => { ep with alive := false })
    (closing_of_trace _ rfl) ?_
  exact (closing_resetEndpoint env _ e).trans (closing_of_trace _ rfl)

/-! ## Rounds -/

/-- Resetting an endpoint without handles answers nobody and leaves its messages. -/
theorem trace_resetEndpoint_idle (env : Environment)
    (hempty : (s.endpoint e).referConnections = []) (hclosing : (s.endpoint e).closing = false) :
    (s.resetEndpoint env e).trace = s.trace ++ [.reset e (s.pendingSerials e)] := by
  set s₁ := s.modifyEndpoint e fun ep => { ep with closing := true } with hs₁
  have hcancel : s₁.cancelPendingMessages env e = s₁ := by
    have hnone : s₁.getReadyConnectionHandle env e = none :=
      getReadyConnectionHandle_of_empty (by simp [hs₁, hempty])
    unfold cancelPendingMessages
    rw [hnone]
    rfl
  have hunbind := sameMessages_unbindAll env s₁ e
  have hpending : ((s₁.unbindAll env e).modifyEndpoint e fun ep =>
      { ep with closing := false }).pendingSerials e = s.pendingSerials e := by
    have hkept := hunbind.pending e
    simp only [hs₁, endpoint_modifyEndpoint_self] at hkept
    rw [pendingSerials, pendingSerials, endpoint_modifyEndpoint_self]
    exact congrArg _ hkept
  unfold resetEndpoint
  rw [if_neg (by rw [hclosing]; decide)]
  dsimp only
  rw [← hs₁, hcancel]
  show (s₁.unbindAll env e).trace ++ [.reset e _] = _
  rw [hunbind.trace]
  exact congrArg (fun left => s.trace ++ [.reset e left]) hpending

theorem resetEndpoint_of_closing (env : Environment) (hclosing : (s.endpoint e).closing = true) :
    s.resetEndpoint env e = s := by
  rw [resetEndpoint, if_pos hclosing]

/-- The endpoint that a round wakes is recycled in it. -/
def Recycles (s : App) (e : EndpointPtr) : Prop :=
  (s.endpoint e).referConnections.isEmpty = true ∧ s.lastTickTimepoint ≥ (s.endpoint e).gcTimepoint

instance (s : App) (e : EndpointPtr) : Decidable (s.Recycles e) :=
  inferInstanceAs (Decidable (_ ∧ _))

/-- What recycling records: the messages that have not expired are left in the endpoint. -/
def recycleEvents (s : App) (e : EndpointPtr) : List ForwardEvent :=
  if s.Recycles e ∧ (s.endpoint e).closing = false then
    [.reset e (((s.endpoint e).pendingMessage.dropWhile fun msg =>
      msg.expiredTimepoint ≤ s.lastTickTimepoint).map PendingMessage.serial)]
  else []

/-- **What waking an endpoint records.** -/
theorem wakeEndpoint_events (env : Environment) (s : App) (e : EndpointPtr) :
    ∃ sent, Appends s (sent ++ s.recycleEvents e) (s.wakeEndpoint env e) ∧
      RetryEvents env e (s.retryTarget env e) s.lastTickTimepoint (s.endpoint e).pendingMessage
        (retryLimit s.conf.loopTimes) 0 sent := by
  obtain ⟨sent, happends, hsent⟩ :=
    retryPendingMessages_events env s e s.lastTickTimepoint s.conf.loopTimes
  refine ⟨sent, happends.trans ?_, hsent⟩
  unfold wakeEndpoint recycleEvents
  have hbalanced := balanced_retryPendingMessages env s e s.lastTickTimepoint s.conf.loopTimes
  have hqueues : Queues s
      (s.retryPendingMessages env e s.lastTickTimepoint s.conf.loopTimes).1 :=
    queues_retryPendingMessages _ _
  obtain ⟨hrefer, hgc⟩ := hqueues.refer e
  have hidle := fun hempty : (s.endpoint e).referConnections = [] =>
    pendingMessage_retry_idle env hempty s.lastTickTimepoint s.conf.loopTimes
  generalize (s.retryPendingMessages env e s.lastTickTimepoint s.conf.loopTimes).1 = t at *
  unfold recycle Recycles
  rw [hrefer, hgc, hbalanced.lastTick]
  by_cases hempty : (s.endpoint e).referConnections.isEmpty = true
  · rw [if_pos hempty]
    by_cases hdue : s.lastTickTimepoint ≥ (s.endpoint e).gcTimepoint
    · rw [if_pos hdue]
      have hnil : (s.endpoint e).referConnections = [] := List.isEmpty_iff.1 hempty
      unfold removeEndpoint
      dsimp only
      obtain ⟨byId, hbyId⟩ := t.eraseIdOf_eq e (t.getId e)
      rw [hbyId]
      obtain ⟨byName, hbyName⟩ := (t.withIndexes byId t.endpointIndexByName).eraseNameOf_eq e
        ((t.withIndexes byId t.endpointIndexByName).getName e)
      rw [hbyName]
      cases hclosing : (s.endpoint e).closing with
      | true =>
        -- an endpoint that is closing already is left alone
        rw [if_neg (by simp)]
        have hsame := resetEndpoint_of_closing env
          (s := (t.withIndexes byId t.endpointIndexByName).withIndexes byId byName)
          ((hbalanced.closing e).trans hclosing)
        exact (congrArg App.trace hsame).trans (List.append_nil _).symm
      | false =>
        rw [if_pos ⟨⟨hempty, hdue⟩, rfl⟩]
        have hreset := trace_resetEndpoint_idle env
          (s := (t.withIndexes byId t.endpointIndexByName).withIndexes byId byName)
          (hrefer.trans hnil) ((hbalanced.closing e).trans hclosing)
        refine hreset.trans ?_
        show t.trace ++ [.reset e ((t.endpoint e).pendingMessage.map PendingMessage.serial)] = _
        rw [hidle hnil]
    · rw [if_neg hdue, if_neg fun h => hdue h.1.2]
      exact (sameMessages_addWaker t e _).trace.trans (List.append_nil _).symm
  · rw [if_neg hempty, if_neg fun h => hempty h.1.1]
    exact (List.append_nil _).symm

/-- **What a round records.** -/
theorem processRound_events (env : Environment) (s : App) :
    (s.woken env = none ∧ s.recycled env = none ∧ Appends s [] (s.processRound env)) ∨
    ∃ e, s.woken env = some e ∧ s.recycled env = (if s.Recycles e then some e else none) ∧
      ∃ sent, Appends s (sent ++ s.recycleEvents e) (s.processRound env) ∧
        RetryEvents env e (s.retryTarget env e) s.lastTickTimepoint (s.endpoint e).pendingMessage
          (retryLimit s.conf.loopTimes) 0 sent := by
  have hsame : Appends s [] s := (List.append_nil _).symm
  unfold processRound woken recycled
  cases hbegin : s.wakerBegin env with
  | none => exact Or.inl ⟨rfl, rfl, hsame⟩
  | some key =>
    obtain ⟨time, target⟩ := key
    have herase : Appends s [] (s.eraseWaker (time, target)) := hsame
    cases target with
    | none =>
      dsimp only
      split
      · exact Or.inl ⟨rfl, rfl, herase⟩
      · exact Or.inl ⟨rfl, rfl, hsame⟩
    | some e =>
      dsimp only
      by_cases hdue : time ≤ s.lastTickTimepoint
      · rw [if_pos hdue]
        by_cases halive : (s.endpoint e).alive = true
        · rw [if_pos halive, if_pos ⟨hdue, halive⟩]
          refine Or.inr ⟨e, rfl, ?_, wakeEndpoint_events env (s.eraseWaker (time, some e)) e⟩
          by_cases hrecycles : s.Recycles e
          · rw [if_pos hrecycles, if_pos ⟨hdue, halive, hrecycles⟩]
          · rw [if_neg hrecycles, if_neg fun h => hrecycles h.2.2]
        · rw [if_neg halive, if_neg fun h => halive h.2, if_neg fun h => halive h.2.1]
          exact Or.inl ⟨rfl, rfl, herase⟩
      · rw [if_neg hdue, if_neg fun h => hdue h.1, if_neg fun h => hdue h.1]
        exact Or.inl ⟨rfl, rfl, hsame⟩

/-! ## Steps -/

/-- A reason to report a message is no connection error. -/
theorem Excused.isConnection {input : Environment × AppOp} {n : Nat} {code : ErrorCode}
    (h : Excused s input e n code) : code.isConnection = false := by
  cases h with
  | expired => rfl
  | closed => rfl
  | refused _ _ hconnection => exact hconnection

/-- A step that only closes an endpoint. -/
theorem Closing.noEarlyLoss {input : Environment × AppOp}
    (h : Closing s (s.closed input.2) (s.step input)) (hop : input.2 ≠ .processRound) :
    NoEarlyLoss s input := by
  obtain ⟨events, happends, hrequests, hresponses⟩ := h
  have hnew := happends.newEvents
  refine ⟨fun e n c code hmem => ?_, fun e _ _ _ n code hmem => ?_, fun heq => absurd heq hop⟩
  · rw [hnew] at hmem
    obtain ⟨hclosed, rfl⟩ := hresponses e n c code hmem
    exact Or.inr (Excused.closed hclosed)
  · rw [hnew] at hmem
    exact absurd hmem (hrequests e n code)

/-- **A push** loses no message that it accepts. -/
theorem noEarlyLoss_pushForwardMessage (env : Environment) (s : App) (e : EndpointPtr) (type : Int)
    (sequence : Nat) (data : Bytes) (metadata : Option AtappMetadata) :
    NoEarlyLoss s (env, .pushForwardMessage e type sequence data metadata) := by
  obtain ⟨events, happends, hrefuses⟩ :=
    pushForwardMessage_events env s e type sequence data metadata
  have hnew : s.newEvents (s.step (env, .pushForwardMessage e type sequence data metadata)) =
      events := happends.newEvents
  refine ⟨fun e' n c code hmem => ?_, fun _ _ _ hretried => (Option.some_ne_none _ hretried.symm).elim,
    fun heq => by cases heq⟩
  rw [hnew] at hmem
  obtain ⟨rfl, rfl, rfl, hcode⟩ := hrefuses e' n c code hmem
  exact Or.inl ⟨rfl, rfl, hcode, rfl⟩

/-- What follows where the messages that are answered have reasons. -/
theorem RetryEvents.connected {target : Option (HandlePtr × ConnectorPtr)} {tickTime : Int}
    {msgs : List PendingMessage} {maxCount : Int} {events : List ForwardEvent}
    (h : RetryEvents env e target tickTime msgs maxCount 0 events)
    (hreports : ∀ n c code, .response e n c code ∈ events → code.isConnection = false) :
    ∀ k < sends target msgs maxCount, (env.send k).code.isConnection = false := by
  intro k hk
  have hfailed := h.failed k hk
  rw [Nat.zero_add] at hfailed
  by_cases hcode : (env.send k).code = .success
  · rw [hcode]
    rfl
  · obtain ⟨n, c, hmem⟩ := hfailed hcode
    exact hreports n c _ hmem

/-- **A retry** loses no message exactly if it stays connected; what it records may be followed by
    a reset. -/
theorem RetryEvents.noEarlyLoss_iff {input : Environment × AppOp} {tickTime maxCount : Int}
    {sent after : List ForwardEvent} (hretried : s.retried input = some (e, tickTime, maxCount))
    (h : RetryEvents input.1 e (s.retryTarget input.1 e) tickTime (s.endpoint e).pendingMessage
      (retryLimit maxCount) 0 sent) (happends : Appends s (sent ++ after) (s.step input))
    (hafter : ∀ event ∈ after, ∃ left, event = .reset e left) :
    NoEarlyLoss s input ↔ StaysConnected input.1 s e maxCount ∧
      (input.2 = .processRound → ∀ left, .reset e left ∈ after →
        ∀ msg ∈ (s.endpoint e).pendingMessage, msg.serial ∈ left →
          msg.expiredTimepoint ≤ s.lastTickTimepoint) := by
  have hnew := happends.newEvents
  have hsent : ∀ event, (∀ e' left, event ≠ .reset e' left) →
      event ∈ s.newEvents (s.step input) → event ∈ sent := by
    intro event hne hmem
    rw [hnew] at hmem
    refine (List.mem_append.1 hmem).resolve_right fun hmem => ?_
    obtain ⟨left, rfl⟩ := hafter event hmem
    exact hne e left rfl
  constructor
  · intro hloss
    refine ⟨h.connected fun n c code hmem => ?_, fun hop left hmem => ?_⟩
    · have hmem' : .response e n c code ∈ s.newEvents (s.step input) := by
        rw [hnew]
        exact List.mem_append_left _ hmem
      rcases hloss.reports e n c code hmem' with hrefused | hexcused
      · -- a retry is no push
        unfold Refused at hrefused
        unfold retried at hretried
        split at hrefused
        · next heq =>
          rw [heq] at hretried
          cases hretried
        · exact hrefused.elim
      · exact hexcused.isConnection
    · refine hloss.recycles hop e left ?_
      rw [hnew]
      exact List.mem_append_right _ hmem
  · rintro ⟨hconnected, hrecycles⟩
    have hrequests : ∀ n code, .request e n code ∈ s.newEvents (s.step input) →
        code.isConnection = false := by
      intro n code hmem
      obtain ⟨k, hk, rfl⟩ := h.requests e n code (hsent _ (by simp) hmem)
      rw [Nat.zero_add]
      exact hconnected k hk
    refine ⟨fun e' n c code hmem => ?_, fun e' tickTime' maxCount' hretried' n code hmem hcode => ?_,
      fun hop e' left hmem msg hmsg => ?_⟩
    · obtain ⟨rfl, hcase⟩ := h.responses e' n c code (hsent _ (by simp) hmem)
      rcases hcase with ⟨hcode, hrequest⟩ | ⟨rfl, msg, hmsg, hserial, hexpired⟩
      · have hrequest' : .request e' n code ∈ s.newEvents (s.step input) := by
          rw [hnew]
          exact List.mem_append_left _ hrequest
        exact Or.inr (Excused.refused hrequest' hcode (hrequests n code hrequest'))
      · exact Or.inr (Excused.expired hretried hmsg hserial hexpired)
    · rw [hretried] at hretried'
      cases hretried'
      rw [hrequests n code hmem] at hcode
      cases hcode
    · rw [hnew] at hmem
      rcases List.mem_append.1 hmem with hmem | hmem
      · exact absurd hmem (h.resets e' left)
      · obtain ⟨left', heq⟩ := hafter _ hmem
        cases heq
        exact hrecycles hop left hmem msg hmsg

/-- The messages that recycling leaves have expired only if all have. -/
theorem recycleEvents_expired_iff (s : App) (e : EndpointPtr) :
    (∀ left, .reset e left ∈ s.recycleEvents e → ∀ msg ∈ (s.endpoint e).pendingMessage,
      msg.serial ∈ left → msg.expiredTimepoint ≤ s.lastTickTimepoint) ↔
    (s.Recycles e → (s.endpoint e).closing = false →
      ∀ msg ∈ (s.endpoint e).pendingMessage, msg.expiredTimepoint ≤ s.lastTickTimepoint) := by
  unfold recycleEvents
  constructor
  · intro h hrecycles hclosing
    rw [if_pos ⟨hrecycles, hclosing⟩] at h
    have h := h _ (List.mem_singleton_self _)
    -- the first message that is left would have expired
    have hnil : (s.endpoint e).pendingMessage.dropWhile
        (fun msg => decide (msg.expiredTimepoint ≤ s.lastTickTimepoint)) = [] := by
      cases hleft : (s.endpoint e).pendingMessage.dropWhile
          (fun msg => decide (msg.expiredTimepoint ≤ s.lastTickTimepoint)) with
      | nil => rfl
      | cons msg msgs =>
        have hmem : msg ∈ (s.endpoint e).pendingMessage :=
          (List.dropWhile_sublist _).subset (hleft ▸ List.mem_cons_self)
        have hlate := List.head_dropWhile_not
          (fun msg : PendingMessage => decide (msg.expiredTimepoint ≤ s.lastTickTimepoint))
          (l := (s.endpoint e).pendingMessage) (w := by rw [hleft]; exact List.cons_ne_nil _ _)
        simp only [hleft, List.head_cons, decide_eq_false_iff_not] at hlate
        refine absurd (h msg hmem ?_) hlate
        rw [hleft]
        exact List.mem_map_of_mem List.mem_cons_self
    intro msg hmsg
    simpa using List.dropWhile_eq_nil_iff.1 hnil msg hmsg
  · intro h left hmem msg hmsg _
    split at hmem
    · next hcond => exact h hcond.1 hcond.2 msg hmsg
    · cases hmem

/-- **Every step** loses no message early exactly if it meets the condition. -/
theorem noEarlyLoss_iff (s : App) (input : Environment × AppOp) :
    NoEarlyLoss s input ↔ Patient s input := by
  obtain ⟨env, op⟩ := input
  have hsame : ∀ {op : AppOp}, bindsOnly op = true → NoEarlyLoss s (env, op) := by
    intro op hop
    refine Closing.noEarlyLoss (closing_of_trace _ (sameMessages_step env s hop).trace) ?_
    rintro rfl
    cases hop
  have hclosing : ∀ {op : AppOp}, Closing s (s.closed op) (s.step (env, op)) →
      op ≠ .processRound → Patient s (env, op) → (NoEarlyLoss s (env, op) ↔ Patient s (env, op)) :=
    fun h hop hpatient => iff_of_true (h.noEarlyLoss hop) hpatient
  cases op with
  | tick now => exact hclosing (closing_of_trace _ rfl) (by simp) trivial
  | stop => exact hclosing (closing_of_trace _ rfl) (by simp) trivial
  | copyFrom node content => exact hclosing (closing_of_trace _ rfl) (by simp) trivial
  | mutableEndpoint discovery result =>
    exact hclosing (closing_mutableEndpoint env s discovery result) (by simp) trivial
  | removeEndpointById id =>
    exact hclosing (closing_removeEndpointById env s id) (by simp) trivial
  | removeEndpointByName name =>
    exact hclosing (closing_removeEndpointByName env s name) (by simp) trivial
  | removeEndpoint e => exact hclosing (closing_removeEndpoint env s e) (by simp) trivial
  | destroyEndpoint e => exact hclosing (closing_destroyEndpoint env s e) (by simp) trivial
  | pushForwardMessage e type sequence data metadata =>
    exact iff_of_true (noEarlyLoss_pushForwardMessage env s e type sequence data metadata) trivial
  | retryPendingMessages e tickTime maxCount =>
    obtain ⟨sent, happends, hsent⟩ := retryPendingMessages_events env s e tickTime maxCount
    have hretried : s.retried (env, .retryPendingMessages e tickTime maxCount) =
        some (e, tickTime, maxCount) := rfl
    rw [← List.append_nil sent] at happends
    rw [RetryEvents.noEarlyLoss_iff hretried hsent happends (by simp)]
    exact and_iff_left (by simp)
  | processRound =>
    rcases processRound_events env s with ⟨hwoken, hrecycled, happends⟩ |
      ⟨e, hwoken, hrecycled, sent, happends, hsent⟩
    · refine iff_of_true ?_ ?_
      · have hnew : s.newEvents (s.step (env, .processRound)) = [] := happends.newEvents
        exact ⟨by simp [hnew], by simp [hnew], by simp [hnew]⟩
      · exact ⟨by simp [hwoken], by simp [hrecycled]⟩
    · have hretried : s.retried (env, .processRound) =
          some (e, s.lastTickTimepoint, s.conf.loopTimes) := by
        rw [retried, hwoken]
        rfl
      rw [RetryEvents.noEarlyLoss_iff hretried hsent happends ?_]
      · rw [recycleEvents_expired_iff]
        unfold Patient
        rw [hwoken, hrecycled]
        by_cases hrecycles : s.Recycles e <;> simp [hrecycles]
      · intro event hmem
        unfold recycleEvents at hmem
        split at hmem
        · exact ⟨_, List.mem_singleton.1 hmem⟩
        · cases hmem
  | _ => exact iff_of_true (hsame rfl) trivial

/-! ## Runs -/

/-- **No premature message loss.** In every run every step loses no message early if and only if
    every step meets the condition. -/
theorem stepsMeet_noEarlyLoss_iff (conf : AppConf) (now : Int)
    (inputs : List (Environment × AppOp)) :
    Run.StepsMeet step NoEarlyLoss (init conf now) inputs ↔
      Run.StepsMeet step Patient (init conf now) inputs :=
  ⟨fun h => h.mono step fun s input => (noEarlyLoss_iff s input).1,
    fun h => h.mono step fun s input => (noEarlyLoss_iff s input).2⟩

/-- A message waits for the handle of a new endpoint to become ready; when it is sent the connector
    has no connection. -/
def failedRetryRun : List (Environment × AppOp) :=
  [({}, .copyFrom 0 { nodeInfo := { id := 1 } }), ({}, .mutableEndpoint (some 0) (some ⟨7, false⟩)),
    ({}, .pushForwardMessage 0 0 0 [1] none), ({}, .setReady 0), ({}, .tick 16000000),
    ({ send := fun _ => { code := .atnodeNoConnection } }, .processRound)]

/-- The accepted message is reported as failed and dropped long before it expires. -/
theorem not_stepsMeet_noEarlyLoss_failedRetryRun :
    let last := Run.run step (init {} 0) failedRetryRun
    .pushed 0 0 .success ∈ last.trace ∧
      .response 0 0 (some 7) .atnodeNoConnection ∈ last.trace ∧ last.pendingSerials 0 = [] ∧
      last.lastTickTimepoint = 16000000 ∧ last.conf.getConfigureMessageTimeout = 8000000000 ∧
      ¬ Run.StepsMeet step NoEarlyLoss (init {} 0) failedRetryRun := by
  refine ⟨by decide +kernel, by decide +kernel, by decide +kernel, by decide +kernel,
    by decide +kernel, fun hmeet => ?_⟩
  obtain ⟨-, -, -, -, -, hlast, -⟩ := hmeet
  have hconnected := ((noEarlyLoss_iff _ _).1 hlast).1 0 (by decide +kernel) 0 (by decide +kernel)
  exact absurd hconnected (by decide)

end App

end LibAtapp.Connectors
