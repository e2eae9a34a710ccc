import LibAtapp.Connectors.Draining

set_option autoImplicit false

/-! # What draining does to the queue

A retry or a cancellation takes messages off the front of the queue up to its next callback, in
which it reports the front message; a push appends its message or reports it. -/

namespace LibAtapp.Connectors

namespace App

variable {env : Environment} {s t u : App} {e : EndpointPtr}

/-! ## What calls do to the queue -/

theorem answered_record (s : App) (event : ForwardEvent) (e : EndpointPtr) (n : Nat) :
    (s.record event).answered e n =
      s.answered e n + if event.isResponseTo e n then 1 else 0 := by
  simp [answered, record, List.countP_singleton]

/-- The queue of the endpoint is the same, and no message of it is reported. -/
structure SameQueue (e : EndpointPtr) (s t : App) : Prop where
  pending : (t.endpoint e).pendingMessage = (s.endpoint e).pendingMessage
  size : (t.endpoint e).pendingMessageSize = (s.endpoint e).pendingMessageSize
  answered : ∀ n, t.answered e n = s.answered e n
  pushCount : t.pushCount = s.pushCount

theorem SameQueue.refl (e : EndpointPtr) (s : App) : SameQueue e s s := ⟨rfl, rfl, fun _ => rfl, rfl⟩

theorem SameQueue.trans (hst : SameQueue e s t) (htu : SameQueue e t u) : SameQueue e s u where
  pending := htu.pending.trans hst.pending
  size := htu.size.trans hst.size
  answered := fun n => (htu.answered n).trans (hst.answered n)
  pushCount := htu.pushCount.trans hst.pushCount

theorem SameMessages.sameQueue (h : SameMessages s t) (e : EndpointPtr) : SameQueue e s t where
  pending := h.pending e
  size := h.size e
  answered := fun n => by rw [App.answered, App.answered, h.trace]
  pushCount := h.pushCount

/-- An event that is no response. -/
theorem sameQueue_record {event : ForwardEvent} (hevent : ∀ n, event.isResponseTo e n = false) :
    SameQueue e s (s.record event) where
  pending := rfl
  size := rfl
  answered := fun n => by rw [answered_record, hevent, if_neg Bool.false_ne_true, Nat.add_zero]
  pushCount := rfl

theorem sameQueue_modifyEndpoint {f : AtappEndpoint → AtappEndpoint}
    (hf : ∀ ep, (f ep).pendingMessage = ep.pendingMessage ∧
      (f ep).pendingMessageSize = ep.pendingMessageSize) : SameQueue e s (s.modifyEndpoint e f) where
  pending := s.modifyEndpoint_field e _ (fun ep => (hf ep).1) e
  size := s.modifyEndpoint_field e _ (fun ep => (hf ep).2) e
  answered := fun _ => rfl
  pushCount := rfl

theorem SameQueue.sizeExact (h : SameQueue e s t) (hs : s.SizeExact e) : t.SizeExact e := by
  rw [SizeExact, h.size, h.pending]
  exact hs

theorem sameQueue_onSendForwardRequest (env : Environment) (s : App) (e : EndpointPtr) (h : HandlePtr)
    (serial k : Nat) : SameQueue e s (s.onSendForwardRequest env e h serial k).1 :=
  (sameQueue_record fun _ => rfl).trans
    ((sameMessages_onSendForwardRequest env s e h serial k).sameQueue e)

theorem pendingMessage_popPending (s : App) (e : EndpointPtr) (msg : PendingMessage) :
    ((s.popPending e msg).endpoint e).pendingMessage = (s.endpoint e).pendingMessage.tail := by
  rw [popPending, endpoint_modifyEndpoint_self]

/-- Popping the front message keeps the byte counter exact. -/
theorem sizeExact_popPending {msg : PendingMessage} {msgs : List PendingMessage}
    (hqueue : (s.endpoint e).pendingMessage = msg :: msgs) (hs : s.SizeExact e) :
    (s.popPending e msg).SizeExact e := by
  rw [SizeExact, hqueue, List.map_cons, List.sum_cons] at hs
  rw [SizeExact, pendingMessage_popPending, hqueue, List.tail_cons, popPending,
    endpoint_modifyEndpoint_self]
  simp only
  split
  · omega
  · omega

/-- The messages that the call will take off the queue. -/
def heldBy (frame : Option Frame) : List PendingMessage := (frame.bind Frame.held).toList

/-- What a call, or the rest of one, does up to its next callback: it takes messages off the front,
    and reports the front message where it makes a callback. -/
structure Reached (e : EndpointPtr) (s : App) (r : App × Option Frame) : Prop where
  suffix : (r.1.endpoint e).pendingMessage <:+ (s.endpoint e).pendingMessage
  held : heldBy r.2 <+: (r.1.endpoint e).pendingMessage
  holds : (heldBy r.2).length = r.2.toList.length
  answered : ∀ n, r.1.answered e n =
    s.answered e n + ((heldBy r.2).map PendingMessage.serial).count n
  size : s.SizeExact e → r.1.SizeExact e
  pushCount : r.1.pushCount = s.pushCount

/-- The call ends. -/
theorem SameQueue.reached (h : SameQueue e s t) : Reached e s (t, none) where
  suffix := h.pending ▸ List.suffix_refl _
  held := List.nil_prefix
  holds := rfl
  answered := h.answered
  size := h.sizeExact
  pushCount := h.pushCount

theorem Reached.of_sameQueue {r : App × Option Frame} (h : SameQueue e s t) (hr : Reached e t r) :
    Reached e s r where
  suffix := h.pending ▸ hr.suffix
  held := hr.held
  holds := hr.holds
  answered := fun n => (hr.answered n).trans (by rw [h.answered])
  size := fun hs => hr.size (h.sizeExact hs)
  pushCount := hr.pushCount.trans h.pushCount

/-- The front message has been sent. -/
theorem Reached.of_popPending {msg : PendingMessage} {msgs : List PendingMessage}
    {r : App × Option Frame} (hqueue : (s.endpoint e).pendingMessage = msg :: msgs)
    (hr : Reached e (s.popPending e msg) r) : Reached e s r where
  suffix := by
    have hsuffix := hr.suffix
    rw [pendingMessage_popPending] at hsuffix
    exact hsuffix.trans (List.tail_suffix _)
  held := hr.held
  holds := hr.holds
  answered := hr.answered
  size := fun hs => hr.size (sizeExact_popPending hqueue hs)
  pushCount := hr.pushCount

/-- The front message is reported. -/
theorem reached_report {msg : PendingMessage} {msgs : List PendingMessage} {frame : Frame}
    (hqueue : (s.endpoint e).pendingMessage = msg :: msgs) (hframe : frame.held = some msg)
    (c : Option ConnectorPtr) (code : ErrorCode) :
    Reached e s (s.triggerOnReceiveForwardResponse e c msg.serial code, some frame) := by
  have hheld : heldBy (some frame) = [msg] := by
    rw [heldBy, Option.bind_some, hframe]
    rfl
  refine ⟨List.suffix_refl _, ?_, by rw [hheld]; rfl, fun n => ?_, fun hs => hs, rfl⟩
  · rw [hheld]
    show [msg] <+: (s.endpoint e).pendingMessage
    rw [hqueue]
    exact ⟨msgs, rfl⟩
  · rw [hheld, triggerOnReceiveForwardResponse, answered_record]
    simp [ForwardEvent.isResponseTo, List.count_singleton]

/-- Clearing the byte counter of an empty queue. -/
theorem Reached.of_clearSize {r : App × Option Frame} (hempty : (s.endpoint e).pendingMessage = [])
    (hr : Reached e (s.modifyEndpoint e fun ep => { ep with pendingMessageSize := 0 }) r) :
    Reached e s r := by
  have hpending : ((s.modifyEndpoint e fun ep => { ep with pendingMessageSize := 0 }).endpoint
      e).pendingMessage = (s.endpoint e).pendingMessage := by
    rw [endpoint_modifyEndpoint_self]
  refine ⟨hpending ▸ hr.suffix, hr.held, hr.holds, hr.answered, fun _ => hr.size ?_, hr.pushCount⟩
  rw [SizeExact, hpending, hempty, endpoint_modifyEndpoint_self]
  rfl

theorem reached_settlePending (s : App) (e : EndpointPtr) :
    Reached e s (s.settlePending e, none) := by
  unfold settlePending
  split
  · next hempty => exact Reached.of_clearSize hempty (SameQueue.refl e _).reached
  · exact ((sameMessages_addWaker s e _).sameQueue e).reached

/-- **The loop of a retry.** -/
theorem reached_retryOn (env : Environment) (e : EndpointPtr)
    (target : Option (HandlePtr × ConnectorPtr)) (tickTime : Int) (msgs : List PendingMessage)
    (s : App) (maxCount : Int) (k : Nat) (hqueue : (s.endpoint e).pendingMessage = msgs) :
    Reached e s (retryOn env e target tickTime s msgs maxCount k) := by
  induction msgs generalizing s maxCount k with
  | nil => exact reached_settlePending s e
  | cons msg msgs ih =>
    unfold retryOn
    split
    · next h c _ =>
      have hsend := sameQueue_onSendForwardRequest env s e h msg.serial k
      have hqueue' := hsend.pending.trans hqueue
      dsimp only
      split
      · -- the connector took the message
        refine Reached.of_sameQueue hsend (Reached.of_popPending hqueue' (ih _ _ _ ?_))
        rw [pendingMessage_popPending, hqueue', List.tail_cons]
      · exact Reached.of_sameQueue hsend (reached_report hqueue' rfl _ _)
    · split
      · exact reached_settlePending s e
      · exact reached_report hqueue rfl _ _

theorem retryOn_not_isCancel (env : Environment) (e : EndpointPtr)
    (target : Option (HandlePtr × ConnectorPtr)) (tickTime : Int) (msgs : List PendingMessage)
    (s : App) (maxCount : Int) (k : Nat) :
    ∀ frame ∈ (retryOn env e target tickTime s msgs maxCount k).2, frame.isCancel = false := by
  induction msgs generalizing s maxCount k with
  | nil => simp [retryOn]
  | cons msg msgs ih =>
    unfold retryOn
    split
    · dsimp only
      split
      · exact ih _ _ _
      · simp [Frame.isCancel]
    · split
      · simp
      · simp [Frame.isCancel]

theorem sameQueue_finishReset (env : Environment) (s : App) (e : EndpointPtr) :
    SameQueue e s (s.finishReset env e) := by
  have hflag : ∀ t : App, SameQueue e t (t.modifyEndpoint e fun ep => { ep with closing := false }) :=
    fun _ => sameQueue_modifyEndpoint fun _ => ⟨rfl, rfl⟩
  exact (((sameMessages_unbindAll env s e).sameQueue e).trans (hflag _)).trans
    (sameQueue_record fun _ => rfl)

/-- **The loop of a cancellation.** -/
theorem reached_cancelOn (env : Environment) (s : App) (e : EndpointPtr) (c : ConnectorPtr) :
    Reached e s (s.cancelOn env e c) := by
  unfold cancelOn
  split
  · next hempty => exact Reached.of_clearSize hempty (sameQueue_finishReset env _ e).reached
  · next msg msgs hqueue => exact reached_report hqueue rfl _ _

/-- A cancellation that waits for a callback has not changed the flag of the endpoint. -/
theorem closing_cancelOn {c : ConnectorPtr} {frame : Frame}
    (hframe : frame ∈ (s.cancelOn env e c).2) :
    ((s.cancelOn env e c).1.endpoint e).closing = (s.endpoint e).closing := by
  unfold cancelOn at hframe ⊢
  split at hframe
  · cases hframe
  · rfl

/-! ## What a push does to the queue -/

/-- A push appends its message, reports it exactly if it refuses it, or does neither. -/
structure Pushed (e : EndpointPtr) (serial : Nat) (s : App) (r : App × ErrorCode) : Prop where
  queue : (r.1.endpoint e).pendingMessage = (s.endpoint e).pendingMessage ∨
    r.2 = .success ∧ ∃ msg : PendingMessage, msg.serial = serial ∧
      (r.1.endpoint e).pendingMessage = (s.endpoint e).pendingMessage ++ [msg]
  answered : ∀ n, r.1.answered e n =
    s.answered e n + if r.2 ≠ .success ∧ n = serial then 1 else 0
  size : s.SizeExact e → r.1.SizeExact e
  closing : (r.1.endpoint e).closing = (s.endpoint e).closing
  pushCount : r.1.pushCount = s.pushCount

/-- The push has sent its message, or has had none. -/
theorem SameQueue.pushed (h : SameQueue e s t) (hclosing : (t.endpoint e).closing = (s.endpoint e).closing)
    (serial : Nat) : Pushed e serial s (t, .success) where
  queue := Or.inl h.pending
  answered := fun n => by simp [h.answered]
  size := h.sizeExact
  closing := hclosing
  pushCount := h.pushCount

theorem pushed_refused (s : App) (e : EndpointPtr) (c : Option ConnectorPtr) (serial : Nat)
    {code : ErrorCode} (hcode : code ≠ .success) :
    Pushed e serial s (s.triggerOnReceiveForwardResponse e c serial code, code) where
  queue := Or.inl rfl
  answered := by
    intro n
    rw [triggerOnReceiveForwardResponse, answered_record]
    simp [ForwardEvent.isResponseTo, hcode, eq_comm]
  size := fun hs => hs
  closing := rfl
  pushCount := rfl

theorem Pushed.of_sameQueue {serial : Nat} {r : App × ErrorCode} (h : SameQueue e s t)
    (hclosing : (t.endpoint e).closing = (s.endpoint e).closing) (hr : Pushed e serial t r) :
    Pushed e serial s r where
  queue := h.pending ▸ hr.queue
  answered := fun n => by rw [hr.answered, h.answered]
  size := fun hs => hr.size (h.sizeExact hs)
  closing := hr.closing.trans hclosing
  pushCount := hr.pushCount.trans h.pushCount

theorem pushed_pushPending (env : Environment) (s : App) (e : EndpointPtr) (serial : Nat)
    (type : Int) (sequence : Nat) (data : Bytes) (metadata : Option AtappMetadata) :
    Pushed e serial s (s.pushPending env e serial type sequence data metadata) := by
  unfold pushPending
  split
  · exact pushed_refused s e _ serial (by decide)
  · have heffect := pushEffect_queueMessage s e serial type sequence data metadata
    refine ⟨Or.inr ⟨rfl, ⟨serial, s.lastTickTimepoint + s.conf.getConfigureMessageTimeout, type,
      sequence, data, metadata⟩, rfl, ?_⟩, fun n => ?_, heffect.size e, heffect.closing e,
      heffect.pushCount⟩
    · unfold queueMessage
      rw [(sameMessages_addWaker _ e _).pending, endpoint_modifyEndpoint_self]
    · unfold queueMessage
      rw [((sameMessages_addWaker _ e _).sameQueue e).answered]
      simp [App.answered, modifyEndpoint]

/-- **A push** up to its callback. -/
theorem pushed_pushMessage (env : Environment) (s : App) (e : EndpointPtr) (serial : Nat)
    (type : Int) (sequence : Nat) (data : Bytes) (metadata : Option AtappMetadata) :
    Pushed e serial s (s.pushMessage env e serial type sequence data metadata) := by
  unfold pushMessage
  split
  · exact pushed_refused s e _ serial (by decide)
  split
  · exact (SameQueue.refl e s).pushed rfl serial
  split
  · exact pushed_pushPending env s e serial type sequence data metadata
  split
  · exact pushed_pushPending env s e serial type sequence data metadata
  · next h _ =>
    split
    · exact pushed_pushPending env s e serial type sequence data metadata
    · have hsend := sameQueue_onSendForwardRequest env s e h serial 0
      have hclosing : ((s.onSendForwardRequest env e h serial 0).1.endpoint e).closing =
          (s.endpoint e).closing :=
        (sameMessages_onSendForwardRequest env s e h serial 0).closing e
      generalize s.onSendForwardRequest env e h serial 0 = result at hsend hclosing
      obtain ⟨t, code⟩ := result
      split
      · next heq =>
        cases heq
        exact hsend.pushed hclosing serial
      · next heq =>
        cases heq
        exact Pushed.of_sameQueue hsend hclosing (pushed_pushPending env _ e serial type _ data metadata)
      · next heq =>
        cases heq
        exact Pushed.of_sameQueue hsend hclosing (pushed_pushPending env _ e serial type _ data metadata)
      · next hsuccess _ _ heq =>
        cases heq
        exact Pushed.of_sameQueue hsend hclosing (pushed_refused _ e _ serial hsuccess)

end App

end LibAtapp.Connectors
