import LibAtapp.Connectors.AppEndpoints

set_option autoImplicit false

/-! # What the operations on messages and bindings change

The operations are long chains of small updates. Here each chain is shown once to consist of
updates of one of two kinds: updates of queues, wakers and the trace (`QueueUpdate`), or updates
that unbind handles (`UnbindUpdate`). A fact that every update of a kind keeps is then kept by every
operation of that kind. -/

namespace LibAtapp.Connectors.App

open Relation

/-! ## Updates of queues -/

/-- An update that sending, queueing and answering messages is made of. -/
inductive QueueUpdate (s : App) : App → Prop
  | record (event : ForwardEvent) : QueueUpdate s (s.record event)
  | count (n : Nat) : QueueUpdate s { s with pushCount := n }
  | queue (e : EndpointPtr) (messages : List PendingMessage) (size : Nat) :
      QueueUpdate s (s.modifyEndpoint e fun ep =>
        { ep with pendingMessage := messages, pendingMessageSize := size })
  | disarm (e : EndpointPtr) :
      QueueUpdate s (s.modifyEndpoint e fun ep => { ep with nearestWaker := 0 })
  | unready (h : HandlePtr) : QueueUpdate s (s.modifyHandle h fun x => { x with ready := false })
  | wake (e : EndpointPtr) (t : Int) : QueueUpdate s (s.addWaker e t)

/-- A chain of updates of queues. -/
abbrev Queues : App → App → Prop := ReflTransGen QueueUpdate

section

variable {env : Environment} {s : App} {e : EndpointPtr}

theorem Queues.single {t : App} (h : QueueUpdate s t) : Queues s t := ReflTransGen.single h

theorem queues_setUnready (s : App) (h : HandlePtr) : Queues s (s.setUnready h) := by
  unfold setUnready
  split
  · dsimp only
    have hflag := Queues.single (QueueUpdate.unready (s := s) h)
    split
    · exact hflag
    · split
      · exact hflag.tail (QueueUpdate.wake _ _)
      · exact hflag
  · exact ReflTransGen.refl

theorem queues_onSendForwardRequest (h : HandlePtr) (serial k : Nat) :
    Queues s (s.onSendForwardRequest env e h serial k).1 := by
  unfold onSendForwardRequest
  dsimp only
  have hrecord := Queues.single (QueueUpdate.record (s := s) (.request e serial (env.send k).code))
  split
  · exact hrecord.trans (queues_setUnready _ h)
  · exact hrecord

theorem queues_queueMessage (serial : Nat) (type : Int) (sequence : Nat) (data : Bytes)
    (metadata : Option AtappMetadata) :
    Queues s (s.queueMessage e serial type sequence data metadata) :=
  ReflTransGen.tail (ReflTransGen.single (QueueUpdate.queue e _ _)) (QueueUpdate.wake e _)

theorem queues_pushPending (serial : Nat) (type : Int) (sequence : Nat) (data : Bytes)
    (metadata : Option AtappMetadata) :
    Queues s (s.pushPending env e serial type sequence data metadata).1 := by
  unfold pushPending
  split
  · exact Queues.single (QueueUpdate.record _)
  · exact queues_queueMessage serial type sequence data metadata

theorem queues_pushMessage (serial : Nat) (type : Int) (sequence : Nat) (data : Bytes)
    (metadata : Option AtappMetadata) :
    Queues s (s.pushMessage env e serial type sequence data metadata).1 := by
  unfold pushMessage
  split
  · exact Queues.single (QueueUpdate.record _)
  split
  · exact ReflTransGen.refl
  split
  · exact queues_pushPending serial type sequence data metadata
  split
  · exact queues_pushPending serial type sequence data metadata
  · next h _ =>
    split
    · exact queues_pushPending serial type sequence data metadata
    · -- the connector has been asked; what it returns decides
      have hsend : Queues s (s.onSendForwardRequest env e h serial 0).1 :=
        queues_onSendForwardRequest h serial 0
      split
      · next heq => rwa [heq] at hsend
      · next heq =>
        rw [heq] at hsend
        exact hsend.trans (queues_pushPending ..)
      · next heq =>
        rw [heq] at hsend
        exact hsend.trans (queues_pushPending ..)
      · next heq =>
        rw [heq] at hsend
        exact hsend.tail (QueueUpdate.record _)

theorem queues_pushForwardMessage (type : Int) (sequence : Nat) (data : Bytes)
    (metadata : Option AtappMetadata) :
    Queues s (s.pushForwardMessage env e type sequence data metadata).1 := by
  unfold pushForwardMessage
  dsimp only
  have hpush : Queues s
      (pushMessage env { s with pushCount := s.pushCount + 1 } e s.pushCount type sequence data
        metadata).1 :=
    (Queues.single (QueueUpdate.count (s.pushCount + 1))).trans
      (queues_pushMessage s.pushCount type sequence data metadata)
  split
  · exact hpush
  · exact hpush.tail (QueueUpdate.record _)

theorem queues_popPending (s : App) (e : EndpointPtr) (msg : PendingMessage) :
    Queues s (s.popPending e msg) :=
  ReflTransGen.single (QueueUpdate.queue e _ _)

theorem queues_retryLoop (target : Option (HandlePtr × ConnectorPtr)) (tickTime : Int)
    (msgs : List PendingMessage) (s : App) (maxCount : Int) (k : Nat) :
    Queues s (retryLoop env e target tickTime s msgs maxCount k).1 := by
  induction msgs generalizing s maxCount k with
  | nil => exact ReflTransGen.refl
  | cons msg msgs ih =>
    unfold retryLoop
    split
    · next _ h c _ =>
      have hsend : Queues s (s.onSendForwardRequest env e h msg.serial k).1 :=
        queues_onSendForwardRequest h msg.serial k
      dsimp only
      refine hsend.trans (ReflTransGen.trans ?_ (ih _ _ _))
      split
      · exact queues_popPending _ e msg
      · exact ReflTransGen.head (QueueUpdate.record _) (queues_popPending _ e msg)
    · split
      · exact ReflTransGen.refl
      · dsimp only
        refine ReflTransGen.trans ?_ (ih _ _ _)
        exact ReflTransGen.head (QueueUpdate.record _) (queues_popPending _ e msg)

/-- The end of the loop: an empty queue is counted anew, the next message waits for its timeout. -/
theorem queues_afterLoop (t : App) :
    Queues t (match (t.endpoint e).pendingMessage with
      | [] => t.modifyEndpoint e fun ep => { ep with pendingMessageSize := 0 }
      | msg :: _ => t.addWaker e msg.expiredTimepoint) := by
  split
  · exact Queues.single (QueueUpdate.queue e _ _)
  · exact Queues.single (QueueUpdate.wake e _)

theorem queues_retryPendingMessages (tickTime maxCount : Int) :
    Queues s (s.retryPendingMessages env e tickTime maxCount).1 := by
  unfold retryPendingMessages
  dsimp only
  set s₁ := if (s.endpoint e).nearestWaker ≤ tickTime then
      s.modifyEndpoint e fun ep => { ep with nearestWaker := 0 }
    else s with hs₁
  have hdisarm : Queues s s₁ := by
    rw [hs₁]
    split
    · exact Queues.single (QueueUpdate.disarm e)
    · exact ReflTransGen.refl
  split
  · exact hdisarm
  · exact (hdisarm.trans (queues_retryLoop _ _ _ _ _ _)).trans (queues_afterLoop _)

theorem queues_cancelLoop (c : ConnectorPtr) (msgs : List PendingMessage) (s : App) :
    Queues s (cancelLoop e c s msgs) := by
  induction msgs generalizing s with
  | nil => exact ReflTransGen.refl
  | cons msg msgs ih =>
    refine ReflTransGen.trans ?_ (ih _)
    exact ReflTransGen.head (QueueUpdate.record _) (queues_popPending _ e msg)

theorem queues_cancelPendingMessages : Queues s (s.cancelPendingMessages env e) := by
  unfold cancelPendingMessages
  split
  · exact ReflTransGen.refl
  · exact (queues_cancelLoop _ _ _).tail (QueueUpdate.queue e _ _)

end

/-! ## Updates that unbind -/

/-- An update that closing and unbinding one handle is made of. -/
inductive CloseUpdate (s : App) : App → Prop
  | markClosing (h : HandlePtr) :
      CloseUpdate s (s.modifyHandle h AtappConnectionHandle.markClosing)
  | clearEndpoint (h : HandlePtr) :
      CloseUpdate s (s.modifyHandle h AtappConnectionHandle.clearEndpoint)
  | clearConnector (h : HandlePtr) :
      CloseUpdate s (s.modifyHandle h AtappConnectionHandle.clearConnector)
  | destroyed (h : HandlePtr) :
      CloseUpdate s (s.modifyHandle h AtappConnectionHandle.destroyed)
  | dropRefer (h : HandlePtr) (e : EndpointPtr) : CloseUpdate s (s.dropRefer h e)
  | eraseHandle (h : HandlePtr) (c : ConnectorPtr) : CloseUpdate s (s.eraseHandle h c)

/-- A chain of updates that close. -/
abbrev Closes : App → App → Prop := ReflTransGen CloseUpdate

/-- An update that closing and unbinding handles is made of. -/
inductive UnbindUpdate (s : App) : App → Prop
  | markClosing (h : HandlePtr) :
      UnbindUpdate s (s.modifyHandle h AtappConnectionHandle.markClosing)
  | clearEndpoint (h : HandlePtr) :
      UnbindUpdate s (s.modifyHandle h AtappConnectionHandle.clearEndpoint)
  | clearConnector (h : HandlePtr) :
      UnbindUpdate s (s.modifyHandle h AtappConnectionHandle.clearConnector)
  | destroyed (h : HandlePtr) :
      UnbindUpdate s (s.modifyHandle h AtappConnectionHandle.destroyed)
  | dropRefer (h : HandlePtr) (e : EndpointPtr) : UnbindUpdate s (s.dropRefer h e)
  | eraseHandle (h : HandlePtr) (c : ConnectorPtr) : UnbindUpdate s (s.eraseHandle h c)
  | emptyRefer (e : EndpointPtr) :
      UnbindUpdate s (s.modifyEndpoint e fun ep => { ep with referConnections := [] })
  | emptyHandles (c : ConnectorPtr) :
      UnbindUpdate s (s.modifyConnector c fun co => { co with handles := [] })
  | closingFlag (e : EndpointPtr) (flag : Bool) :
      UnbindUpdate s (s.modifyEndpoint e fun ep => { ep with closing := flag })

/-- A chain of updates that unbind. -/
abbrev Unbinds : App → App → Prop := ReflTransGen UnbindUpdate

theorem CloseUpdate.unbinds {s t : App} (h : CloseUpdate s t) : UnbindUpdate s t := by
  cases h with
  | markClosing h => exact UnbindUpdate.markClosing h
  | clearEndpoint h => exact UnbindUpdate.clearEndpoint h
  | clearConnector h => exact UnbindUpdate.clearConnector h
  | destroyed h => exact UnbindUpdate.destroyed h
  | dropRefer h e => exact UnbindUpdate.dropRefer h e
  | eraseHandle h c => exact UnbindUpdate.eraseHandle h c

theorem Closes.unbinds {s t : App} (h : Closes s t) : Unbinds s t :=
  ReflTransGen.mono (fun _ _ => CloseUpdate.unbinds) _ _ h

section

variable (env : Environment)

/-- The `unbind`s that `close` calls for what the handle is bound to. -/
theorem closes_unbindBound {depth : Nat} (t : App) (h : HandlePtr)
    (hend : ∀ s e, Closes s (unbindEndpointAt env depth s h e)) :
    Closes t (match (t.handle h).endpoint with
      | some e => unbindEndpointAt env depth t h e
      | none => t) := by
  split
  · exact hend _ _
  · exact .refl

theorem closes_unbindConnected {depth : Nat} (t : App) (h : HandlePtr)
    (hcon : ∀ s c, Closes s (unbindConnectorAt env depth s h c)) :
    Closes t (match (t.handle h).connector with
      | some c => unbindConnectorAt env depth t h c
      | none => t) := by
  split
  · exact hcon _ _
  · exact .refl

/-- At every depth, `close` and the `unbind`s are chains of closing updates. -/
theorem closes_at (depth : Nat) :
    (∀ s h, Closes s (closeAt env depth s h)) ∧
    (∀ s h e, Closes s (unbindEndpointAt env depth s h e)) ∧
    (∀ s h c, Closes s (unbindConnectorAt env depth s h c)) := by
  induction depth with
  | zero => exact ⟨fun _ _ => .refl, fun _ _ _ => .refl, fun _ _ _ => .refl⟩
  | succ depth ih =>
    obtain ⟨ihClose, ihEndpoint, ihConnector⟩ := ih
    refine ⟨fun s h => ?_, fun s h e => ?_, fun s h c => ?_⟩
    · rw [closeAt]
      split
      · exact .refl
      · refine ReflTransGen.head (CloseUpdate.markClosing h) ?_
        dsimp only
        exact (closes_unbindBound env _ h fun t e => ihEndpoint t h e).trans
          (closes_unbindConnected env _ h fun t c => ihConnector t h c)
    · rw [unbindEndpointAt]
      refine ReflTransGen.head (CloseUpdate.dropRefer h e) ?_
      split
      · exact ReflTransGen.head (CloseUpdate.clearEndpoint h) (ihClose _ _)
      · exact .refl
    · rw [unbindConnectorAt]
      split
      · refine ReflTransGen.head (CloseUpdate.clearConnector h)
          (ReflTransGen.head (CloseUpdate.eraseHandle h c) ?_)
        dsimp only
        split
        · exact ihClose _ _
        · exact ((ihClose _ _).trans (ihClose _ _)).tail (CloseUpdate.destroyed h)
      · exact ReflTransGen.single (CloseUpdate.eraseHandle h c)

theorem closes_close (s : App) (h : HandlePtr) : Closes s (s.close env h) :=
  (closes_at env callDepth).1 s h

theorem closes_unbindEndpoint (s : App) (h : HandlePtr) (e : EndpointPtr) :
    Closes s (s.unbindEndpoint env h e) :=
  (closes_at env callDepth).2.1 s h e

theorem closes_unbindConnector (s : App) (h : HandlePtr) (c : ConnectorPtr) :
    Closes s (s.unbindConnector env h c) :=
  (closes_at env callDepth).2.2 s h c

theorem unbinds_close (s : App) (h : HandlePtr) : Unbinds s (s.close env h) :=
  (closes_close env s h).unbinds

theorem unbinds_unbindEndpoint (s : App) (h : HandlePtr) (e : EndpointPtr) :
    Unbinds s (s.unbindEndpoint env h e) :=
  (closes_unbindEndpoint env s h e).unbinds

theorem unbinds_unbindConnector (s : App) (h : HandlePtr) (c : ConnectorPtr) :
    Unbinds s (s.unbindConnector env h c) :=
  (closes_unbindConnector env s h c).unbinds

theorem unbinds_destroyHandle (s : App) (h : HandlePtr) : Unbinds s (s.destroyHandle env h) :=
  (unbinds_close env s h).tail (UnbindUpdate.destroyed h)

/-- A chain for each element of a list is a chain for its fold. -/
theorem unbinds_foldl {f : App → HandlePtr → App} (hf : ∀ s h, Unbinds s (f s h))
    (handles : List HandlePtr) (s : App) : Unbinds s (handles.foldl f s) := by
  induction handles generalizing s with
  | nil => exact .refl
  | cons h handles ih => exact (hf s h).trans (ih _)

theorem unbinds_unbindAll (s : App) (e : EndpointPtr) : Unbinds s (s.unbindAll env e) :=
  ReflTransGen.head (UnbindUpdate.emptyRefer e)
    (unbinds_foldl (fun s h => unbinds_unbindEndpoint env s h e) _ _)

theorem unbinds_cleanup (s : App) (c : ConnectorPtr) : Unbinds s (s.cleanup env c) :=
  ReflTransGen.head (UnbindUpdate.emptyHandles c)
    (unbinds_foldl (fun s h => unbinds_unbindConnector env s h c) _ _)

end

/-! ## Resetting an endpoint -/

/-- A chain of updates of both kinds. -/
abbrev Settles : App → App → Prop :=
  ReflTransGen fun s t => QueueUpdate s t ∨ UnbindUpdate s t

theorem Queues.settles {s t : App} (h : Queues s t) : Settles s t :=
  ReflTransGen.mono (fun _ _ => Or.inl) _ _ h

theorem Unbinds.settles {s t : App} (h : Unbinds s t) : Settles s t :=
  ReflTransGen.mono (fun _ _ => Or.inr) _ _ h

theorem settles_resetEndpoint (env : Environment) (s : App) (e : EndpointPtr) :
    Settles s (s.resetEndpoint env e) := by
  unfold resetEndpoint
  split
  · exact .refl
  · refine ReflTransGen.head (Or.inr (UnbindUpdate.closingFlag e true)) ?_
    have hcancel : ∀ t : App, Queues t (t.cancelPendingMessages env e) :=
      fun _ => queues_cancelPendingMessages
    refine (hcancel _).settles.trans ?_
    refine (unbinds_unbindAll env _ e).settles.trans ?_
    refine ReflTransGen.head (Or.inr (UnbindUpdate.closingFlag e false)) ?_
    exact (Queues.single (QueueUpdate.record _)).settles

/-! ## Facts that every update keeps -/

/-- A fact that every closing update keeps is kept by a chain of them. -/
theorem Closes.keeps {p : App → Prop} (hp : ∀ s t, CloseUpdate s t → p s → p t) {s t : App}
    (h : Closes s t) (hs : p s) : p t := by
  induction h with
  | refl => exact hs
  | tail _ hstep ih => exact hp _ _ hstep ih

/-- A fact that every unbinding update keeps is kept by a chain of them. -/
theorem Unbinds.keeps {p : App → Prop} (hp : ∀ s t, UnbindUpdate s t → p s → p t) {s t : App}
    (h : Unbinds s t) (hs : p s) : p t := by
  induction h with
  | refl => exact hs
  | tail _ hstep ih => exact hp _ _ hstep ih

/-- A fact that every queue update keeps is kept by a chain of them. -/
theorem Queues.keeps {p : App → Prop} (hp : ∀ s t, QueueUpdate s t → p s → p t) {s t : App}
    (h : Queues s t) (hs : p s) : p t := by
  induction h with
  | refl => exact hs
  | tail _ hstep ih => exact hp _ _ hstep ih

/-- A fact that every update of both kinds keeps is kept by a chain of them. -/
theorem Settles.keeps {p : App → Prop} (hqueue : ∀ s t, QueueUpdate s t → p s → p t)
    (hunbind : ∀ s t, UnbindUpdate s t → p s → p t) {s t : App} (h : Settles s t) (hs : p s) :
    p t := by
  induction h with
  | refl => exact hs
  | tail _ hstep ih =>
    rcases hstep with hstep | hstep
    · exact hqueue _ _ hstep ih
    · exact hunbind _ _ hstep ih

end LibAtapp.Connectors.App
