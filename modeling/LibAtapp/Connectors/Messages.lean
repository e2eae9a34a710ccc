import LibAtapp.Connectors.Frames

set_option autoImplicit false

/-! # What happens to messages

A message that an endpoint accepted is handed to a connector, reported by a failing response, or
waits in the queue. Here these three are counted for one message, and each operation on queues is
shown to move messages from one to another without changing the sum. -/

namespace LibAtapp.Connectors

namespace ForwardEvent

/-- Does the event answer the message? -/
def isResponseTo (e : EndpointPtr) (n : Nat) : ForwardEvent → Bool
  | .response e' n' _ _ => decide (e' = e ∧ n' = n)
  | _ => false

/-- One for an event that takes the message out of the hands of the endpoint, else zero. -/
def fateOf (e : EndpointPtr) (n : Nat) : ForwardEvent → Nat
  | .request e' n' .success => if e' = e ∧ n' = n then 1 else 0
  | .response e' n' _ _ => if e' = e ∧ n' = n then 1 else 0
  | _ => 0

end ForwardEvent

namespace App

open Relation

variable {env : Environment} {s t u : App} {e : EndpointPtr}

/-! ## Counting -/

/-- The numbers of the queued messages. -/
def pendingSerials (s : App) (e : EndpointPtr) : List Nat :=
  (s.endpoint e).pendingMessage.map PendingMessage.serial

/-- How often the message was handed to a connector that took it. -/
def handed (s : App) (e : EndpointPtr) (n : Nat) : Nat := s.trace.count (.request e n .success)

/-- How often the message was answered. -/
def answered (s : App) (e : EndpointPtr) (n : Nat) : Nat :=
  s.trace.countP (ForwardEvent.isResponseTo e n)

/-- The fates of a message: how often it was handed over or answered, or waits. -/
def fates (s : App) (e : EndpointPtr) (n : Nat) : Nat :=
  s.handed e n + s.answered e n + (s.pendingSerials e).count n

/-- The byte counter is the sum of the sizes of the queued messages. -/
def SizeExact (s : App) (e : EndpointPtr) : Prop :=
  (s.endpoint e).pendingMessageSize =
    ((s.endpoint e).pendingMessage.map fun msg => msg.data.length).sum

/-- An event adds its own fate to those of the messages. -/
theorem fates_record (s : App) (event : ForwardEvent) (e : EndpointPtr) (n : Nat) :
    (s.record event).fates e n = s.fates e n + event.fateOf e n := by
  have hpending : (s.record event).pendingSerials e = s.pendingSerials e := rfl
  have hhanded : (s.record event).handed e n =
      s.handed e n + if event = .request e n .success then 1 else 0 := by
    simp [handed, record, List.count_singleton]
  have hanswered : (s.record event).answered e n =
      s.answered e n + if event.isResponseTo e n then 1 else 0 := by
    simp [answered, record, List.countP_singleton]
  rw [fates, fates, hpending, hhanded, hanswered]
  have hsum : (if event = .request e n .success then 1 else 0) +
      (if event.isResponseTo e n then 1 else 0) = event.fateOf e n := by
    cases event with
    | request e' n' code => cases code <;> simp [ForwardEvent.isResponseTo, ForwardEvent.fateOf]
    | _ => simp [ForwardEvent.isResponseTo, ForwardEvent.fateOf]
  omega

/-! ## Frames -/

/-- No endpoint appears, disappears or changes its node, and the indexes stay. -/
structure SameObjects (s t : App) : Prop where
  alive : ∀ e, (t.endpoint e).alive = (s.endpoint e).alive
  closing : ∀ e, (t.endpoint e).closing = (s.endpoint e).closing
  discovery : ∀ e, (t.endpoint e).discovery = (s.endpoint e).discovery
  endpointCount : t.endpointCount = s.endpointCount
  byId : t.endpointIndexById = s.endpointIndexById
  byName : t.endpointIndexByName = s.endpointIndexByName
  heap : t.heap = s.heap
  lastTick : t.lastTickTimepoint = s.lastTickTimepoint
  conf : t.conf = s.conf

theorem SameObjects.refl (s : App) : SameObjects s s :=
  ⟨fun _ => rfl, fun _ => rfl, fun _ => rfl, rfl, rfl, rfl, rfl, rfl, rfl⟩

theorem SameObjects.trans (hst : SameObjects s t) (htu : SameObjects t u) : SameObjects s u where
  alive := fun e => (htu.alive e).trans (hst.alive e)
  closing := fun e => (htu.closing e).trans (hst.closing e)
  discovery := fun e => (htu.discovery e).trans (hst.discovery e)
  endpointCount := htu.endpointCount.trans hst.endpointCount
  byId := htu.byId.trans hst.byId
  byName := htu.byName.trans hst.byName
  heap := htu.heap.trans hst.heap
  lastTick := htu.lastTick.trans hst.lastTick
  conf := htu.conf.trans hst.conf

/-- The messages do not change either. -/
structure SameMessages (s t : App) : Prop extends SameObjects s t where
  pending : ∀ e, (t.endpoint e).pendingMessage = (s.endpoint e).pendingMessage
  size : ∀ e, (t.endpoint e).pendingMessageSize = (s.endpoint e).pendingMessageSize
  trace : t.trace = s.trace
  pushCount : t.pushCount = s.pushCount

theorem SameMessages.refl (s : App) : SameMessages s s :=
  ⟨SameObjects.refl s, fun _ => rfl, fun _ => rfl, rfl, rfl⟩

theorem SameMessages.trans (hst : SameMessages s t) (htu : SameMessages t u) :
    SameMessages s u where
  toSameObjects := hst.toSameObjects.trans htu.toSameObjects
  pending := fun e => (htu.pending e).trans (hst.pending e)
  size := fun e => (htu.size e).trans (hst.size e)
  trace := htu.trace.trans hst.trace
  pushCount := htu.pushCount.trans hst.pushCount

/-- Messages only leave queues, each with the fate that it gets. -/
structure Balanced (s t : App) : Prop extends SameObjects s t where
  pushCount : t.pushCount = s.pushCount
  fates : ∀ e n, t.fates e n = s.fates e n
  pushed : ∀ e n code, .pushed e n code ∈ t.trace ↔ .pushed e n code ∈ s.trace
  resets : ∀ e left, .reset e left ∈ t.trace ↔ .reset e left ∈ s.trace
  failing : ∀ e n c code, .response e n c code ∈ t.trace →
    .response e n c code ∈ s.trace ∨ code ≠ .success
  size : ∀ e, s.SizeExact e → t.SizeExact e
  suffix : ∀ e, (t.endpoint e).pendingMessage <:+ (s.endpoint e).pendingMessage

theorem SameMessages.balanced (h : SameMessages s t) : Balanced s t where
  toSameObjects := h.toSameObjects
  pushCount := h.pushCount
  fates := by
    intro e n
    simp only [App.fates, handed, answered, pendingSerials, h.trace, h.pending]
  pushed := by simp [h.trace]
  resets := by simp [h.trace]
  failing := by
    intro e n c code hmem
    rw [h.trace] at hmem
    exact Or.inl hmem
  size := by
    intro e hsize
    rw [SizeExact, h.size, h.pending]
    exact hsize
  suffix := fun e => (h.pending e) ▸ List.suffix_refl _

theorem Balanced.trans (hst : Balanced s t) (htu : Balanced t u) : Balanced s u where
  toSameObjects := hst.toSameObjects.trans htu.toSameObjects
  pushCount := htu.pushCount.trans hst.pushCount
  fates := fun e n => (htu.fates e n).trans (hst.fates e n)
  pushed := fun e n code => (htu.pushed e n code).trans (hst.pushed e n code)
  resets := fun e left => (htu.resets e left).trans (hst.resets e left)
  failing := by
    intro e n c code hmem
    rcases htu.failing e n c code hmem with hold | hcode
    · exact hst.failing e n c code hold
    · exact Or.inr hcode
  size := fun e hsize => htu.size e (hst.size e hsize)
  suffix := fun e => (htu.suffix e).trans (hst.suffix e)

/-! ## Operations that leave the messages alone -/

theorem sameMessages_modifyHandle (s : App) (h : HandlePtr)
    (f : AtappConnectionHandle → AtappConnectionHandle) : SameMessages s (s.modifyHandle h f) :=
  ⟨⟨fun _ => rfl, fun _ => rfl, fun _ => rfl, rfl, rfl, rfl, rfl, rfl, rfl⟩, fun _ => rfl,
    fun _ => rfl, rfl, rfl⟩

theorem sameMessages_modifyConnector (s : App) (c : ConnectorPtr)
    (f : AtappConnectorImpl → AtappConnectorImpl) :
    SameMessages s (s.modifyConnector c f) :=
  ⟨⟨fun _ => rfl, fun _ => rfl, fun _ => rfl, rfl, rfl, rfl, rfl, rfl, rfl⟩, fun _ => rfl,
    fun _ => rfl, rfl, rfl⟩

/-- A field that a change of an endpoint keeps is the same in every endpoint. -/
theorem modifyEndpoint_field {α : Type} (s : App) (e : EndpointPtr)
    {f : AtappEndpoint → AtappEndpoint} (g : AtappEndpoint → α) (hg : ∀ ep, g (f ep) = g ep)
    (e' : EndpointPtr) : g ((s.modifyEndpoint e f).endpoint e') = g (s.endpoint e') := by
  rw [endpoint_modifyEndpoint]
  split
  · next heq => rw [heq, hg]
  · rfl

/-- A change of an endpoint that does not concern what it is. -/
theorem sameObjects_modifyEndpoint (s : App) (e : EndpointPtr) {f : AtappEndpoint → AtappEndpoint}
    (hf : ∀ ep, (f ep).alive = ep.alive ∧ (f ep).closing = ep.closing ∧
      (f ep).discovery = ep.discovery) :
    SameObjects s (s.modifyEndpoint e f) :=
  ⟨s.modifyEndpoint_field e AtappEndpoint.alive fun ep => (hf ep).1,
    s.modifyEndpoint_field e AtappEndpoint.closing fun ep => (hf ep).2.1,
    s.modifyEndpoint_field e AtappEndpoint.discovery fun ep => (hf ep).2.2,
    rfl, rfl, rfl, rfl, rfl, rfl⟩

/-- A change of an endpoint that concerns neither its messages nor what it is. -/
theorem sameMessages_modifyEndpoint (s : App) (e : EndpointPtr) {f : AtappEndpoint → AtappEndpoint}
    (hf : ∀ ep, (f ep).alive = ep.alive ∧ (f ep).closing = ep.closing ∧
      (f ep).discovery = ep.discovery)
    (hmessages : ∀ ep, (f ep).pendingMessage = ep.pendingMessage ∧
      (f ep).pendingMessageSize = ep.pendingMessageSize) :
    SameMessages s (s.modifyEndpoint e f) :=
  ⟨sameObjects_modifyEndpoint s e hf,
    s.modifyEndpoint_field e AtappEndpoint.pendingMessage fun ep => (hmessages ep).1,
    s.modifyEndpoint_field e AtappEndpoint.pendingMessageSize fun ep => (hmessages ep).2, rfl, rfl⟩

theorem sameMessages_addWaker (s : App) (e : EndpointPtr) (time : Int) :
    SameMessages s (s.addWaker e time) := by
  obtain ⟨heq, -⟩ | ⟨-, -, waker, -, -, heq⟩ := s.addWaker_cases e time
  · rw [heq]
    exact SameMessages.refl s
  · rw [heq]
    have hwaker : SameMessages s { s with endpointWaker := waker } :=
      ⟨⟨fun _ => rfl, fun _ => rfl, fun _ => rfl, rfl, rfl, rfl, rfl, rfl, rfl⟩, fun _ => rfl,
        fun _ => rfl, rfl, rfl⟩
    exact hwaker.trans (sameMessages_modifyEndpoint { s with endpointWaker := waker } e
      (f := fun ep => { ep with nearestWaker := time }) (fun _ => ⟨rfl, rfl, rfl⟩) fun _ => ⟨rfl, rfl⟩)

theorem sameMessages_dropRefer (s : App) (h : HandlePtr) (e : EndpointPtr) :
    SameMessages s (s.dropRefer h e) := by
  unfold dropRefer
  split
  · dsimp only
    have hfilter : SameMessages s (s.modifyEndpoint e fun ep =>
        { ep with referConnections := ep.referConnections.filter (· ≠ h) }) :=
      sameMessages_modifyEndpoint s e (fun _ => ⟨rfl, rfl, rfl⟩) fun _ => ⟨rfl, rfl⟩
    split
    · refine hfilter.trans (SameMessages.trans ?_ (sameMessages_addWaker _ e _))
      exact sameMessages_modifyEndpoint _ e (fun _ => ⟨rfl, rfl, rfl⟩) fun _ => ⟨rfl, rfl⟩
    · exact hfilter
  · exact SameMessages.refl s

theorem Closes.sameMessages (h : Closes s t) : SameMessages s t := by
  refine h.keeps (p := SameMessages s) (fun t u hupdate ht => ht.trans ?_) (SameMessages.refl s)
  cases hupdate with
  | dropRefer h e => exact sameMessages_dropRefer t h e
  | eraseHandle h c => exact sameMessages_modifyConnector t c _
  | _ => exact sameMessages_modifyHandle t _ _

theorem sameMessages_destroyHandle (s : App) (h : HandlePtr) :
    SameMessages s (s.destroyHandle env h) :=
  (closes_close env s h).sameMessages.trans (sameMessages_modifyHandle _ h _)

/-- A fold of operations that leave the messages alone. -/
theorem sameMessages_foldl {f : App → HandlePtr → App} (hf : ∀ s h, SameMessages s (f s h))
    (handles : List HandlePtr) (s : App) : SameMessages s (handles.foldl f s) := by
  induction handles generalizing s with
  | nil => exact SameMessages.refl s
  | cons h handles ih => exact (hf s h).trans (ih _)

theorem sameMessages_unbindAll (env : Environment) (s : App) (e : EndpointPtr) :
    SameMessages s (s.unbindAll env e) :=
  (sameMessages_modifyEndpoint s e (f := fun ep => { ep with referConnections := [] })
    (fun _ => ⟨rfl, rfl, rfl⟩) fun _ => ⟨rfl, rfl⟩).trans
    (sameMessages_foldl (fun s h => (closes_unbindEndpoint env s h e).sameMessages) _ _)

theorem sameMessages_cleanup (s : App) (c : ConnectorPtr) : SameMessages s (s.cleanup env c) :=
  (sameMessages_modifyConnector s c _).trans
    (sameMessages_foldl (fun s h => (closes_unbindConnector env s h c).sameMessages) _ _)

theorem sameMessages_setReady (s : App) (h : HandlePtr) : SameMessages s (s.setReady h) := by
  unfold setReady
  split
  · exact SameMessages.refl s
  · dsimp only
    split
    · exact (sameMessages_modifyHandle s h _).trans (sameMessages_addWaker _ _ _)
    · exact sameMessages_modifyHandle s h _

theorem sameMessages_setUnready (s : App) (h : HandlePtr) : SameMessages s (s.setUnready h) := by
  unfold setUnready
  split
  · dsimp only
    have hflag := sameMessages_modifyHandle s h fun x => { x with ready := false }
    split
    · exact hflag
    · split
      · exact hflag.trans (sameMessages_addWaker _ _ _)
      · exact hflag
  · exact SameMessages.refl s

theorem sameMessages_bindConnector (s : App) (h : HandlePtr) (c : ConnectorPtr) :
    SameMessages s (s.bindConnector env h c) := by
  have hrelease : SameMessages s (s.releaseConnector env h) := by
    unfold releaseConnector
    split
    · exact (closes_unbindConnector env s h _).sameMessages
    · exact SameMessages.refl s
  unfold bindConnector
  split
  · exact SameMessages.refl s
  · exact (hrelease.trans (sameMessages_modifyHandle _ h _)).trans
      (sameMessages_modifyConnector _ c _)

theorem sameMessages_bindEndpoint (s : App) (h : HandlePtr) (e : EndpointPtr) :
    SameMessages s (s.bindEndpoint env h e) := by
  have hrelease : SameMessages s (s.releaseEndpoint env h) := by
    unfold releaseEndpoint
    split
    · exact (closes_unbindEndpoint env s h _).sameMessages
    · exact SameMessages.refl s
  have hattach : SameMessages s ((s.releaseEndpoint env h).attachEndpoint h e) :=
    (hrelease.trans (sameMessages_modifyHandle _ h _)).trans
      (sameMessages_modifyEndpoint _ e (fun _ => ⟨rfl, rfl, rfl⟩) fun _ => ⟨rfl, rfl⟩)
  unfold bindEndpoint
  split
  · exact SameMessages.refl s
  · dsimp only
    split
    · exact hattach.trans (sameMessages_addWaker _ _ _)
    · exact hattach

theorem sameMessages_newHandle (s : App) : SameMessages s s.newHandle :=
  ⟨⟨fun _ => rfl, fun _ => rfl, fun _ => rfl, rfl, rfl, rfl, rfl, rfl, rfl⟩, fun _ => rfl,
    fun _ => rfl, rfl, rfl⟩

theorem sameMessages_eraseWaker (s : App) (key : WakerKey) : SameMessages s (s.eraseWaker key) :=
  ⟨⟨fun _ => rfl, fun _ => rfl, fun _ => rfl, rfl, rfl, rfl, rfl, rfl, rfl⟩, fun _ => rfl,
    fun _ => rfl, rfl, rfl⟩

theorem sameMessages_connectEndpoint (env : Environment) (s : App) (e : EndpointPtr)
    (result : Option ConnectResult) :
    SameMessages s (s.connectEndpoint env e result) := by
  unfold connectEndpoint
  dsimp only
  have hnew := (sameMessages_addWaker s e s.getNextTickTime).trans (sameMessages_newHandle _)
  split
  · exact hnew.trans (sameMessages_destroyHandle _ _)
  · refine SameMessages.trans ?_ (sameMessages_bindEndpoint _ _ _)
    refine SameMessages.trans ?_ (sameMessages_bindConnector _ _ _)
    split
    · exact hnew.trans (sameMessages_setReady _ _)
    · exact hnew

/-- The operations that only bind handles or release them. -/
def bindsOnly : AppOp → Bool
  | .newHandle | .bindEndpoint _ _ | .unbindEndpoint _ _ | .addConnectionHandle _ _
  | .removeConnectionHandle _ _ | .bindConnector _ _ | .unbindConnector _ _ | .closeHandle _
  | .setReady _ | .setUnready _ | .destroyHandle _ | .cleanup _ | .destroyConnector _ => true
  | _ => false

/-- Binding handles leaves the messages alone. -/
theorem sameMessages_step (env : Environment) (s : App) {op : AppOp}
    (hop : bindsOnly op = true) :
    SameMessages s (s.step (env, op)) := by
  cases op with
  | newHandle => exact sameMessages_newHandle s
  | bindEndpoint h e => exact sameMessages_bindEndpoint s h e
  | unbindEndpoint h e => exact (closes_unbindEndpoint env s h e).sameMessages
  | addConnectionHandle e h =>
    change SameMessages s (s.addConnectionHandle env e h)
    unfold addConnectionHandle
    split
    · exact SameMessages.refl s
    · exact sameMessages_bindEndpoint s h e
  | removeConnectionHandle e h =>
    change SameMessages s (s.removeConnectionHandle env e h)
    unfold removeConnectionHandle
    split
    · exact SameMessages.refl s
    · exact (closes_unbindEndpoint env s h e).sameMessages
  | bindConnector h c => exact sameMessages_bindConnector s h c
  | unbindConnector h c => exact (closes_unbindConnector env s h c).sameMessages
  | closeHandle h => exact (closes_close env s h).sameMessages
  | setReady h => exact sameMessages_setReady s h
  | setUnready h => exact sameMessages_setUnready s h
  | destroyHandle h => exact sameMessages_destroyHandle s h
  | cleanup c => exact sameMessages_cleanup s c
  | destroyConnector c =>
    have hflag : SameMessages (s.cleanup env c) (s.destroyConnector env c) :=
      sameMessages_modifyConnector _ c _
    exact (sameMessages_cleanup s c).trans hflag
  | _ => cases hop

/-! ## Messages that leave a queue -/

theorem Balanced.refl (s : App) : Balanced s s := (SameMessages.refl s).balanced

theorem sameObjects_record (s : App) (event : ForwardEvent) : SameObjects s (s.record event) :=
  ⟨fun _ => rfl, fun _ => rfl, fun _ => rfl, rfl, rfl, rfl, rfl, rfl, rfl⟩

theorem mem_trace_record {event event' : ForwardEvent} :
    event' ∈ (s.record event).trace ↔ event' ∈ s.trace ∨ event' = event := by
  rw [record, List.mem_append, List.mem_singleton]

/-- A request that the connector refused is no fate. -/
theorem balanced_refused (s : App) (e : EndpointPtr) (n : Nat) {code : ErrorCode}
    (hcode : code ≠ .success) : Balanced s (s.record (.request e n code)) where
  toSameObjects := sameObjects_record s _
  pushCount := rfl
  fates := by
    intro e' n'
    rw [fates_record]
    cases code with
    | success => exact absurd rfl hcode
    | _ => rfl
  pushed := by simp [mem_trace_record]
  resets := by simp [mem_trace_record]
  failing := by
    intro e' n' c code' hmem
    rcases mem_trace_record.1 hmem with hold | heq
    · exact Or.inl hold
    · cases heq
  size := fun _ h => h
  suffix := fun _ => List.suffix_refl _

/-- An event that is the one fate of a message. -/
structure IsFate (e : EndpointPtr) (n : Nat) (event : ForwardEvent) : Prop where
  fate : ∀ e' n', event.fateOf e' n' = if e' = e ∧ n' = n then 1 else 0
  pushed : ∀ e' n' code, event ≠ .pushed e' n' code
  reset : ∀ e' left, event ≠ .reset e' left
  failing : ∀ e' n' c code, event = .response e' n' c code → code ≠ .success

theorem isFate_handed (e : EndpointPtr) (n : Nat) : IsFate e n (.request e n .success) where
  fate := by simp [ForwardEvent.fateOf, eq_comm]
  pushed := by simp
  reset := by simp
  failing := by simp

theorem isFate_answered (e : EndpointPtr) (n : Nat) (c : Option ConnectorPtr) {code : ErrorCode}
    (hcode : code ≠ .success) : IsFate e n (.response e n c code) where
  fate := by simp [ForwardEvent.fateOf, eq_comm]
  pushed := by simp
  reset := by simp
  failing := by
    intro e' n' c' code' heq
    cases heq
    exact hcode

/-- The front message leaves the queue with its fate. -/
theorem balanced_popPending {msg : PendingMessage} {msgs : List PendingMessage}
    {event : ForwardEvent} (hpending : (s.endpoint e).pendingMessage = msg :: msgs)
    (hfate : IsFate e msg.serial event) (ht : SameMessages (s.record event) t) :
    Balanced s (t.popPending e msg) ∧ ((t.popPending e msg).endpoint e).pendingMessage = msgs := by
  have hfront : (t.endpoint e).pendingMessage = msg :: msgs := (ht.pending e).trans hpending
  have hself : ((t.popPending e msg).endpoint e).pendingMessage = msgs := by
    rw [popPending, endpoint_modifyEndpoint_self]
    simp only [hfront, List.tail_cons]
  have hother : ∀ e' ≠ e, (t.popPending e msg).endpoint e' = t.endpoint e' :=
    fun e' hne => endpoint_modifyEndpoint_of_ne hne _
  have hobjects : SameObjects t (t.popPending e msg) :=
    sameObjects_modifyEndpoint t e fun _ => ⟨rfl, rfl, rfl⟩
  have htrace : (t.popPending e msg).trace = s.trace ++ [event] := ht.trace
  refine ⟨⟨((sameObjects_record s event).trans ht.toSameObjects).trans hobjects, ht.pushCount,
    fun e' n => ?_, fun e' n code => ?_, fun e' left => ?_, fun e' n c code hmem => ?_,
    fun e' hsize => ?_, fun e' => ?_⟩, hself⟩
  · -- what the event adds, the queue loses
    have hcount : (t.pendingSerials e').count n =
        ((t.popPending e msg).pendingSerials e').count n +
          if e' = e ∧ n = msg.serial then 1 else 0 := by
      by_cases he : e' = e
      · subst he
        rw [pendingSerials, pendingSerials, hself, hfront, List.map_cons, List.count_cons]
        by_cases hn : n = msg.serial
        · simp [hn]
        · simp [hn, Ne.symm hn]
      · rw [pendingSerials, pendingSerials, hother e' he, if_neg fun h => he h.1]
        rfl
    have hrecorded : t.fates e' n = s.fates e' n + event.fateOf e' n := by
      rw [ht.balanced.fates, fates_record]
    rw [hfate.fate] at hrecorded
    have hhanded : (t.popPending e msg).handed e' n = t.handed e' n := rfl
    have hanswered : (t.popPending e msg).answered e' n = t.answered e' n := rfl
    rw [App.fates] at hrecorded ⊢
    omega
  · rw [htrace]
    simp [(hfate.pushed e' n code).symm]
  · rw [htrace]
    simp [(hfate.reset e' left).symm]
  · rw [htrace, List.mem_append, List.mem_singleton] at hmem
    rcases hmem with hold | heq
    · exact Or.inl hold
    · exact Or.inr (hfate.failing e' n c code heq.symm)
  · by_cases he : e' = e
    · subst he
      have hsize' : t.SizeExact e' := ht.balanced.size e' hsize
      rw [SizeExact, hfront, List.map_cons, List.sum_cons] at hsize'
      have hpop : ((t.popPending e' msg).endpoint e').pendingMessageSize =
          (t.endpoint e').pendingMessageSize - msg.data.length := by
        rw [popPending, endpoint_modifyEndpoint_self]
        simp only
        split
        · rfl
        · omega
      rw [SizeExact, hself, hpop]
      omega
    · rw [SizeExact, hother e' he]
      exact ht.balanced.size e' hsize
  · by_cases he : e' = e
    · subst he
      rw [hself, hpending]
      exact List.suffix_cons _ _
    · rw [hother e' he, ht.pending]
      exact List.suffix_refl _

theorem sameMessages_onSendForwardRequest (env : Environment) (s : App) (e : EndpointPtr) (h : HandlePtr)
    (serial k : Nat) :
    SameMessages (s.record (.request e serial (env.send k).code))
      (s.onSendForwardRequest env e h serial k).1 := by
  unfold onSendForwardRequest
  dsimp only
  split
  · exact sameMessages_setUnready _ h
  · exact SameMessages.refl _

theorem SameMessages.record (h : SameMessages s t) (event : ForwardEvent) :
    SameMessages (s.record event) (t.record event) where
  toSameObjects := ⟨h.alive, h.closing, h.discovery, h.endpointCount, h.byId, h.byName, h.heap,
    h.lastTick, h.conf⟩
  pending := h.pending
  size := h.size
  trace := by rw [App.record, App.record, h.trace]
  pushCount := h.pushCount

/-- One message that is sent: the connector takes it, or it is answered with the code that the
    connector returned. -/
theorem balanced_sendPending {msg : PendingMessage} {msgs : List PendingMessage}
    (hpending : (s.endpoint e).pendingMessage = msg :: msgs) (h : HandlePtr) (c : ConnectorPtr)
    (k : Nat) {code : ErrorCode}
    (ht : s.onSendForwardRequest env e h msg.serial k = (t, code)) :
    let t' := if code = .success then t
      else t.triggerOnReceiveForwardResponse e (some c) msg.serial code
    Balanced s (t'.popPending e msg) ∧
      ((t'.popPending e msg).endpoint e).pendingMessage = msgs := by
  have hcode : (env.send k).code = code := congrArg Prod.snd ht
  have hsend : SameMessages (s.record (.request e msg.serial code)) t := by
    have hsame := sameMessages_onSendForwardRequest env s e h msg.serial k
    rwa [ht, hcode] at hsame
  by_cases hsuccess : code = .success
  · simp only [if_pos hsuccess]
    rw [hsuccess] at hsend
    exact balanced_popPending hpending (isFate_handed e msg.serial) hsend
  · simp only [if_neg hsuccess]
    have hrefused := balanced_refused s e msg.serial hsuccess
    obtain ⟨hpop, hrest⟩ := balanced_popPending (s := s.record (.request e msg.serial code))
      hpending (isFate_answered e msg.serial (some c) hsuccess)
      (hsend.record (.response e msg.serial (some c) code))
    exact ⟨hrefused.trans hpop, hrest⟩

/-- A message that is answered without being sent. -/
theorem balanced_answerPending {msg : PendingMessage} {msgs : List PendingMessage}
    (hpending : (s.endpoint e).pendingMessage = msg :: msgs) (c : Option ConnectorPtr)
    (code : ErrorCode) (hcode : code ≠ .success) :
    Balanced s ((s.triggerOnReceiveForwardResponse e c msg.serial code).popPending e msg) ∧
      (((s.triggerOnReceiveForwardResponse e c msg.serial code).popPending e msg).endpoint
        e).pendingMessage = msgs :=
  balanced_popPending hpending (isFate_answered e msg.serial c hcode) (SameMessages.refl _)

/-- The loop of `retry_pending_messages` over the whole queue. -/
theorem balanced_retryLoop (target : Option (HandlePtr × ConnectorPtr)) (tickTime : Int)
    (msgs : List PendingMessage) (s : App) (maxCount : Int) (k : Nat)
    (hpending : (s.endpoint e).pendingMessage = msgs) :
    Balanced s (retryLoop env e target tickTime s msgs maxCount k).1 := by
  induction msgs generalizing s maxCount k with
  | nil => exact Balanced.refl s
  | cons msg msgs ih =>
    unfold retryLoop
    split
    · next _ h c _ =>
      obtain ⟨hpop, hrest⟩ := balanced_sendPending hpending h c k rfl
      exact hpop.trans (ih _ _ _ hrest)
    · split
      · exact Balanced.refl s
      · have hanswer := fun c => balanced_answerPending hpending c .nodeTimeout (by decide)
        exact (hanswer _).1.trans (ih _ _ _ (hanswer _).2)

/-- Without a ready handle the loop answers the expired messages at the front. -/
theorem pendingMessage_retryLoop_none (env : Environment) (tickTime : Int)
    (msgs : List PendingMessage) (s : App)
    {maxCount : Int} (hcount : 0 < maxCount) (k : Nat)
    (hpending : (s.endpoint e).pendingMessage = msgs) :
    (((retryLoop env e none tickTime s msgs maxCount k).1.endpoint e).pendingMessage =
      msgs.dropWhile fun msg => msg.expiredTimepoint ≤ tickTime) := by
  induction msgs generalizing s with
  | nil => exact hpending
  | cons msg msgs ih =>
    unfold retryLoop
    dsimp only
    by_cases hexpired : msg.expiredTimepoint ≤ tickTime
    · rw [if_neg (by omega), List.dropWhile_cons, if_pos (by simpa using hexpired)]
      obtain ⟨-, hrest⟩ := balanced_answerPending hpending ((none : Option (HandlePtr ×
        ConnectorPtr)).map Prod.snd) .nodeTimeout (by decide)
      exact ih _ hrest
    · rw [if_pos (by omega), List.dropWhile_cons, if_neg (by simpa using hexpired)]
      exact hpending

/-- Clearing the byte counter of an empty queue. -/
theorem balanced_clearSize (hpending : (s.endpoint e).pendingMessage = []) :
    Balanced s (s.modifyEndpoint e fun ep => { ep with pendingMessageSize := 0 }) := by
  set s' := s.modifyEndpoint e fun ep => { ep with pendingMessageSize := 0 } with hs'
  have hqueue : ∀ e', (s'.endpoint e').pendingMessage = (s.endpoint e').pendingMessage :=
    s.modifyEndpoint_field e AtappEndpoint.pendingMessage fun _ => rfl
  refine ⟨sameObjects_modifyEndpoint s e fun _ => ⟨rfl, rfl, rfl⟩, rfl, fun e' n => ?_,
    fun _ _ _ => Iff.rfl, fun _ _ => Iff.rfl, fun _ _ _ _ h => Or.inl h, fun e' hsize => ?_,
    fun e' => ?_⟩
  · rw [App.fates, App.fates, pendingSerials, pendingSerials, hqueue]
    rfl
  · by_cases he : e' = e
    · subst he
      rw [SizeExact, hqueue, hpending, hs', endpoint_modifyEndpoint_self]
      rfl
    · rw [SizeExact, hs', endpoint_modifyEndpoint_of_ne he]
      exact hsize
  · exact (hqueue e') ▸ List.suffix_refl _

/-- The loop of `cancel_pending_messages` over the whole queue. -/
theorem balanced_cancelLoop (c : ConnectorPtr) (msgs : List PendingMessage) (s : App)
    (hpending : (s.endpoint e).pendingMessage = msgs) :
    Balanced s (cancelLoop e c s msgs) ∧ ((cancelLoop e c s msgs).endpoint e).pendingMessage = [] := by
  induction msgs generalizing s with
  | nil => exact ⟨Balanced.refl s, hpending⟩
  | cons msg msgs ih =>
    obtain ⟨hpop, hrest⟩ := balanced_answerPending hpending (some c) .closing (by decide)
    obtain ⟨hloop, hempty⟩ := ih _ hrest
    exact ⟨hpop.trans hloop, hempty⟩

theorem balanced_afterLoop (t : App) (e : EndpointPtr) :
    Balanced t (match (t.endpoint e).pendingMessage with
      | [] => t.modifyEndpoint e fun ep => { ep with pendingMessageSize := 0 }
      | msg :: _ => t.addWaker e msg.expiredTimepoint) := by
  split
  · next hempty => exact balanced_clearSize hempty
  · exact (sameMessages_addWaker t e _).balanced

/-- `retry_pending_messages` keeps the sum of the fates. -/
theorem balanced_retryPendingMessages (env : Environment) (s : App) (e : EndpointPtr)
    (tickTime maxCount : Int) :
    Balanced s (s.retryPendingMessages env e tickTime maxCount).1 := by
  unfold retryPendingMessages
  dsimp only
  set s₁ := if (s.endpoint e).nearestWaker ≤ tickTime then
      s.modifyEndpoint e fun ep => { ep with nearestWaker := 0 }
    else s with hs₁
  have hdisarm : SameMessages s s₁ := by
    rw [hs₁]
    split
    · exact sameMessages_modifyEndpoint s e (fun _ => ⟨rfl, rfl, rfl⟩) fun _ => ⟨rfl, rfl⟩
    · exact SameMessages.refl s
  split
  · exact hdisarm.balanced
  · exact (hdisarm.balanced.trans (balanced_retryLoop _ _ _ _ _ _ rfl)).trans
      (balanced_afterLoop _ e)

/-- Whether the messages of an endpoint can be answered when it closes: a ready handle with a
    connector comes first. -/
def CanAnswer (env : Environment) (s : App) (e : EndpointPtr) : Prop :=
  (s.readyConnector (s.getReadyConnectionHandle env e)).isSome = true

instance (env : Environment) (s : App) (e : EndpointPtr) : Decidable (CanAnswer env s e) :=
  inferInstanceAs (Decidable (_ = true))

/-- `cancel_pending_messages` answers every message, or does nothing. -/
theorem balanced_cancelPendingMessages (env : Environment) (s : App) (e : EndpointPtr) :
    Balanced s (s.cancelPendingMessages env e) ∧
      ((s.cancelPendingMessages env e).endpoint e).pendingMessage =
        if CanAnswer env s e then [] else (s.endpoint e).pendingMessage := by
  cases hready : s.readyConnector (s.getReadyConnectionHandle env e) with
  | none =>
    have hnot : ¬ CanAnswer env s e := by simp [CanAnswer, hready]
    rw [cancelPendingMessages, hready, if_neg hnot]
    exact ⟨Balanced.refl s, rfl⟩
  | some c =>
    have hcan : CanAnswer env s e := by simp [CanAnswer, hready]
    rw [cancelPendingMessages, hready, if_pos hcan]
    obtain ⟨hloop, hempty⟩ := balanced_cancelLoop c (s.endpoint e).pendingMessage s rfl
    have hclear := balanced_clearSize hempty
    exact ⟨hloop.trans hclear, List.suffix_nil.1 (hempty ▸ hclear.suffix e)⟩

/-- What `reset` does to the messages: it answers all of them or none, and leaves the endpoint
    open. -/
theorem resetEndpoint_messages (env : Environment) (hclosing : (s.endpoint e).closing = false) :
    ∃ t, Balanced s t ∧ (t.endpoint e).pendingMessage =
        (if CanAnswer env s e then [] else (s.endpoint e).pendingMessage) ∧
      s.resetEndpoint env e = t.record (.reset e (t.pendingSerials e)) := by
  set s₁ := s.modifyEndpoint e fun ep => { ep with closing := true } with hs₁
  set s₂ := s₁.cancelPendingMessages env e with hs₂
  set s₃ := s₂.unbindAll env e with hs₃
  set s₄ := s₃.modifyEndpoint e fun ep => { ep with closing := false } with hs₄
  -- apart from the flag, the first and the last update change nothing
  have hfirst : ∀ {α : Type} (g : AtappEndpoint → α),
      (∀ ep b, g { ep with closing := b } = g ep) → ∀ e', g (s₁.endpoint e') = g (s.endpoint e') :=
    fun g hg => s.modifyEndpoint_field e g fun ep => hg ep true
  have hlast : ∀ {α : Type} (g : AtappEndpoint → α),
      (∀ ep b, g { ep with closing := b } = g ep) → ∀ e', g (s₄.endpoint e') = g (s₃.endpoint e') :=
    fun g hg => s₃.modifyEndpoint_field e g fun ep => hg ep false
  obtain ⟨hcancel, hqueue⟩ := balanced_cancelPendingMessages env s₁ e
  have hunbind : SameMessages s₂ s₃ := sameMessages_unbindAll env s₂ e
  have hmid : Balanced s₁ s₃ := hcancel.trans hunbind.balanced
  have hcan : CanAnswer env s₁ e ↔ CanAnswer env s e := by
    rw [CanAnswer, CanAnswer, getReadyConnectionHandle, getReadyConnectionHandle,
      hfirst AtappEndpoint.referConnections fun _ _ => rfl]
    rfl
  have hpending : (s₄.endpoint e).pendingMessage =
      if CanAnswer env s e then [] else (s.endpoint e).pendingMessage := by
    rw [hlast AtappEndpoint.pendingMessage fun _ _ => rfl, hunbind.pending, hqueue,
      hfirst AtappEndpoint.pendingMessage fun _ _ => rfl]
    simp only [hcan]
  have hclosed : ∀ e', (s₄.endpoint e').closing = (s.endpoint e').closing := by
    intro e'
    by_cases he : e' = e
    · subst he
      rw [hs₄, endpoint_modifyEndpoint_self, hclosing]
    · rw [hs₄, endpoint_modifyEndpoint_of_ne he, hmid.closing, hs₁,
        endpoint_modifyEndpoint_of_ne he]
  have hserials : ∀ e', s₁.pendingSerials e' = s.pendingSerials e' ∧
      s₄.pendingSerials e' = s₃.pendingSerials e' := by
    intro e'
    rw [pendingSerials, pendingSerials, pendingSerials, pendingSerials,
      hfirst AtappEndpoint.pendingMessage fun _ _ => rfl,
      hlast AtappEndpoint.pendingMessage fun _ _ => rfl]
    exact ⟨rfl, rfl⟩
  refine ⟨s₄, ⟨⟨fun e' => ?_, hclosed, fun e' => ?_, hmid.endpointCount, hmid.byId, hmid.byName,
    hmid.heap, hmid.lastTick, hmid.conf⟩, hmid.pushCount, fun e' n => ?_, hmid.pushed, hmid.resets,
    hmid.failing, fun e' hsize => ?_, fun e' => ?_⟩, hpending, ?_⟩
  · rw [hlast AtappEndpoint.alive fun _ _ => rfl, hmid.alive,
      hfirst AtappEndpoint.alive fun _ _ => rfl]
  · rw [hlast AtappEndpoint.discovery fun _ _ => rfl, hmid.discovery,
      hfirst AtappEndpoint.discovery fun _ _ => rfl]
  · have hsum := hmid.fates e' n
    rw [App.fates, App.fates, ← (hserials e').2, (hserials e').1] at hsum
    exact hsum
  · rw [SizeExact, hlast AtappEndpoint.pendingMessageSize fun _ _ => rfl,
      hlast AtappEndpoint.pendingMessage fun _ _ => rfl]
    refine hmid.size e' ?_
    rw [SizeExact, hfirst AtappEndpoint.pendingMessageSize fun _ _ => rfl,
      hfirst AtappEndpoint.pendingMessage fun _ _ => rfl]
    exact hsize
  · rw [hlast AtappEndpoint.pendingMessage fun _ _ => rfl,
      ← hfirst AtappEndpoint.pendingMessage fun _ _ => rfl]
    exact hmid.suffix e'
  · unfold resetEndpoint
    rw [hclosing]
    rfl

/-! ## Pushing a message -/

/-- What pushing message `serial` to endpoint `e` does where it returns `code`. -/
structure PushEffect (e : EndpointPtr) (serial : Nat) (code : ErrorCode) (s t : App) : Prop
    extends SameObjects s t where
  pushCount : t.pushCount = s.pushCount
  fates : ∀ e' n, ¬ (e' = e ∧ n = serial) → t.fates e' n = s.fates e' n
  accepted : code = .success → t.fates e serial = s.fates e serial + 1
  pushed : ∀ e' n code', .pushed e' n code' ∈ t.trace ↔ .pushed e' n code' ∈ s.trace
  resets : ∀ e' left, .reset e' left ∈ t.trace ↔ .reset e' left ∈ s.trace
  failing : ∀ e' n c code', .response e' n c code' ∈ t.trace →
    .response e' n c code' ∈ s.trace ∨ code' ≠ .success
  size : ∀ e', s.SizeExact e' → t.SizeExact e'
  pending : ∀ e', t.pendingSerials e' = s.pendingSerials e' ∨
    (e' = e ∧ t.pendingSerials e' = s.pendingSerials e' ++ [serial])

theorem SameMessages.pendingSerials (h : SameMessages s t) (e : EndpointPtr) :
    t.pendingSerials e = s.pendingSerials e := by
  rw [App.pendingSerials, App.pendingSerials, h.pending]

/-- The message gets its fate at once. -/
theorem pushEffect_of_isFate {serial : Nat} {event : ForwardEvent} (hfate : IsFate e serial event)
    (code : ErrorCode) (ht : SameMessages (s.record event) t) : PushEffect e serial code s t where
  toSameObjects := (sameObjects_record s event).trans ht.toSameObjects
  pushCount := ht.pushCount
  fates := by
    intro e' n hother
    rw [ht.balanced.fates, fates_record, hfate.fate, if_neg hother, Nat.add_zero]
  accepted := by
    intro _
    rw [ht.balanced.fates, fates_record, hfate.fate, if_pos ⟨rfl, rfl⟩]
  pushed := by
    intro e' n code'
    rw [ht.trace, mem_trace_record]
    simp [(hfate.pushed e' n code').symm]
  resets := by
    intro e' left
    rw [ht.trace, mem_trace_record]
    simp [(hfate.reset e' left).symm]
  failing := by
    intro e' n c code' hmem
    rw [ht.trace, mem_trace_record] at hmem
    rcases hmem with hold | heq
    · exact Or.inl hold
    · exact Or.inr (hfate.failing e' n c code' heq.symm)
  size := fun e' hsize => ht.balanced.size e' hsize
  pending := fun e' => Or.inl (ht.pendingSerials e')

/-- The message waits in the queue. -/
theorem pushEffect_queueMessage (s : App) (e : EndpointPtr) (serial : Nat) (type : Int)
    (sequence : Nat) (data : Bytes) (metadata : Option AtappMetadata) :
    PushEffect e serial .success s (s.queueMessage e serial type sequence data metadata) := by
  set expired := s.lastTickTimepoint + s.conf.getConfigureMessageTimeout
  set msg : PendingMessage :=
    { serial := serial, expiredTimepoint := expired, type := type, messageSequence := sequence,
      data := data, metadata := metadata } with hmsg
  set s₁ := s.modifyEndpoint e fun ep =>
    { ep with
      pendingMessage := ep.pendingMessage ++ [msg]
      pendingMessageSize := ep.pendingMessageSize + data.length } with hs₁
  have hwake : SameMessages s₁ (s.queueMessage e serial type sequence data metadata) :=
    sameMessages_addWaker s₁ e expired
  have hobjects : SameObjects s s₁ := sameObjects_modifyEndpoint s e fun _ => ⟨rfl, rfl, rfl⟩
  have hself : (s₁.endpoint e).pendingMessage = (s.endpoint e).pendingMessage ++ [msg] ∧
      (s₁.endpoint e).pendingMessageSize = (s.endpoint e).pendingMessageSize + data.length := by
    rw [hs₁, endpoint_modifyEndpoint_self]
    exact ⟨rfl, rfl⟩
  have hother : ∀ e' ≠ e, s₁.endpoint e' = s.endpoint e' :=
    fun e' hne => endpoint_modifyEndpoint_of_ne hne _
  have hserials : s₁.pendingSerials e = s.pendingSerials e ++ [serial] := by
    rw [pendingSerials, hself.1, List.map_append]
    rfl
  have hserials' : ∀ e' ≠ e, s₁.pendingSerials e' = s.pendingSerials e' := by
    intro e' hne
    rw [pendingSerials, hother e' hne]
    rfl
  have hcounts : ∀ e' n, s₁.handed e' n = s.handed e' n ∧ s₁.answered e' n = s.answered e' n :=
    fun _ _ => ⟨rfl, rfl⟩
  refine ⟨hobjects.trans hwake.toSameObjects, hwake.pushCount, fun e' n hne => ?_, fun _ => ?_,
    fun e' n code' => by rw [hwake.trace]; rfl, fun e' left => by rw [hwake.trace]; rfl,
    fun e' n c code' hmem => Or.inl (by rwa [hwake.trace] at hmem), fun e' hsize => ?_,
    fun e' => ?_⟩
  · rw [hwake.balanced.fates, App.fates, App.fates, (hcounts e' n).1, (hcounts e' n).2]
    by_cases he : e' = e
    · subst he
      have hn : n ≠ serial := fun h => hne ⟨rfl, h⟩
      rw [hserials, List.count_append, List.count_singleton, if_neg (by simpa using hn.symm),
        Nat.add_zero]
    · rw [hserials' e' he]
  · rw [hwake.balanced.fates, App.fates, App.fates, (hcounts e serial).1, (hcounts e serial).2,
      hserials, List.count_append, List.count_singleton_self]
    omega
  · refine hwake.balanced.size e' ?_
    by_cases he : e' = e
    · subst he
      rw [SizeExact, hself.1, hself.2, List.map_append, List.sum_append]
      rw [SizeExact] at hsize
      simp [hmsg, hsize]
    · rw [SizeExact, hother e' he]
      exact hsize
  · rw [hwake.pendingSerials]
    by_cases he : e' = e
    · exact Or.inr ⟨he, he ▸ hserials⟩
    · exact Or.inl (hserials' e' he)

/-- A refused request comes before the rest of the push. -/
theorem PushEffect.of_refused {serial : Nat} {code refused : ErrorCode}
    (hrefused : refused ≠ .success) (ht : SameMessages (s.record (.request e serial refused)) t)
    (h : PushEffect e serial code t u) : PushEffect e serial code s u := by
  have hbalanced : Balanced s t := (balanced_refused s e serial hrefused).trans ht.balanced
  have hserials : ∀ e', t.pendingSerials e' = s.pendingSerials e' := fun e' => ht.pendingSerials e'
  refine ⟨hbalanced.toSameObjects.trans h.toSameObjects, h.pushCount.trans hbalanced.pushCount,
    fun e' n hne => (h.fates e' n hne).trans (hbalanced.fates e' n), fun hcode => ?_,
    fun e' n code' => (h.pushed e' n code').trans (hbalanced.pushed e' n code'),
    fun e' left => (h.resets e' left).trans (hbalanced.resets e' left),
    fun e' n c code' hmem => ?_, fun e' hsize => h.size e' (hbalanced.size e' hsize),
    fun e' => hserials e' ▸ h.pending e'⟩
  · rw [h.accepted hcode, hbalanced.fates]
  · rcases h.failing e' n c code' hmem with hold | hcode
    · exact hbalanced.failing e' n c code' hold
    · exact Or.inr hcode

theorem pushEffect_pushPending (s : App) (e : EndpointPtr) (serial : Nat) (type : Int)
    (sequence : Nat) (data : Bytes) (metadata : Option AtappMetadata) :
    PushEffect e serial (s.pushPending env e serial type sequence data metadata).2 s
      (s.pushPending env e serial type sequence data metadata).1 := by
  unfold pushPending
  split
  · exact pushEffect_of_isFate (isFate_answered e serial _ (by decide)) _ (SameMessages.refl _)
  · exact pushEffect_queueMessage s e serial type sequence data metadata

/-- A message with data is accepted with one fate, or refused. -/
theorem pushEffect_pushMessage (env : Environment) (s : App) (e : EndpointPtr) (serial : Nat) (type : Int)
    (sequence : Nat) {data : Bytes} (hdata : data ≠ []) (metadata : Option AtappMetadata) :
    PushEffect e serial (s.pushMessage env e serial type sequence data metadata).2 s
      (s.pushMessage env e serial type sequence data metadata).1 := by
  unfold pushMessage
  split
  · exact pushEffect_of_isFate (isFate_answered e serial _ (by decide)) _ (SameMessages.refl _)
  split
  · exact pushEffect_pushPending s e serial type sequence data metadata
  split
  · exact pushEffect_pushPending s e serial type sequence data metadata
  · next h _ =>
    split
    · exact pushEffect_pushPending s e serial type sequence data metadata
    · have hsend := sameMessages_onSendForwardRequest env s e h serial 0
      have hcode : (s.onSendForwardRequest env e h serial 0).2 = (env.send 0).code := rfl
      split
      · next heq =>
        rw [heq] at hsend hcode
        rw [← hcode] at hsend
        exact pushEffect_of_isFate (isFate_handed e serial) _ hsend
      · next heq =>
        rw [heq] at hsend hcode
        rw [← hcode] at hsend
        exact PushEffect.of_refused ErrorCode.noConfusion hsend (pushEffect_pushPending ..)
      · next heq =>
        rw [heq] at hsend hcode
        rw [← hcode] at hsend
        exact PushEffect.of_refused ErrorCode.noConfusion hsend (pushEffect_pushPending ..)
      · next t code hne _ _ heq =>
        rw [heq] at hsend hcode
        rw [← hcode] at hsend
        exact PushEffect.of_refused hne hsend
          (pushEffect_of_isFate (isFate_answered e serial _ hne) code (SameMessages.refl _))

end App

end LibAtapp.Connectors
