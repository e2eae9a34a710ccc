import LibAtapp.Connectors.Wakers
import LibAtapp.Connectors.MessageFates

set_option autoImplicit false

/-! # Pending messages are woken in time

An endpoint with pending messages must be woken before its front message expires, and at the next
tick if a ready handle could send them. The first holds in every run. The second does not: a retry
that stops at its limit arms the waker at the expiry of the front message although the handle is
ready, and so do a push and a retry that do not use the ready handle. The main result says in which
runs every message is woken in time. -/

namespace LibAtapp.Connectors.App

variable {env : Environment} {s t u : App} {e : EndpointPtr}

/-! ## The property -/

/-- The waker of the endpoint is listed, is not later than the expiry of the front message, and not
    later than the next tick if a ready handle could send the messages. -/
structure WokenInTime (s : App) (e : EndpointPtr) : Prop where
  listed : (s.endpoint e).nearestWaker ≠ 0 →
    ((s.endpoint e).nearestWaker, some e) ∈ s.endpointWaker
  front : ∀ msg ∈ (s.endpoint e).pendingMessage.head?, (s.endpoint e).nearestWaker ≠ 0 ∧
    (s.endpoint e).nearestWaker ≤ msg.expiredTimepoint
  soon : (s.endpoint e).pendingMessage ≠ [] → HasReady s e →
    (s.endpoint e).nearestWaker ≤ s.getNextTickTime

/-- Every live endpoint is woken in time. -/
def AllWokenInTime (s : App) : Prop := ∀ e, (s.endpoint e).alive = true → WokenInTime s e

/-! ## The condition -/

/-- Every pending message expires at the next tick or earlier. -/
def Urgent (s : App) (e : EndpointPtr) : Prop :=
  ∀ msg ∈ (s.endpoint e).pendingMessage, msg.expiredTimepoint ≤ s.getNextTickTime

instance (s : App) (e : EndpointPtr) : Decidable (s.Urgent e) :=
  inferInstanceAs (Decidable (∀ msg ∈ (s.endpoint e).pendingMessage, _))

/-- A retry that resets the waker of an endpoint with a ready handle sends all its messages: the
    first ready handle has a connector, and the limit is high enough. -/
def Drains (env : Environment) (s : App) (e : EndpointPtr) (tickTime maxCount : Int) : Prop :=
  (s.endpoint e).nearestWaker ≤ tickTime → HasReady s e →
    (CanAnswer env s e ∧ ((s.endpoint e).pendingMessage.length : Int) ≤
      if maxCount ≤ 0 then int32Max else maxCount) ∨ Urgent s e

instance (env : Environment) (s : App) (e : EndpointPtr) (tickTime maxCount : Int) :
    Decidable (Drains env s e tickTime maxCount) :=
  inferInstanceAs (Decidable (_ → _ → _ ∨ _))

/-- The endpoint that a round wakes. -/
def woken (env : Environment) (s : App) : Option EndpointPtr :=
  match s.wakerBegin env with
  | some (time, some e) =>
    if time ≤ s.lastTickTimepoint ∧ (s.endpoint e).alive = true then some e else none
  | _ => none

/-- A connection error that puts a message into the queue takes the readiness away from the only
    ready handle. -/
def ErrorUnready (env : Environment) (s : App) (e : EndpointPtr) : Prop :=
  (env.send 0).unready = true ∧ ∀ h ∈ (s.endpoint e).referConnections,
    (s.handle h).Delivers e → s.getReadyConnectionHandle env e = some h

instance (env : Environment) (s : App) (e : EndpointPtr) : Decidable (ErrorUnready env s e) :=
  inferInstanceAs (Decidable (_ ∧ ∀ h ∈ (s.endpoint e).referConnections, _ → _))

/-- A message that an endpoint with a ready handle and an empty queue has to keep leaves it awake:
    the endpoint wakes at the next tick anyway, the message expires by then, or the first ready
    handle has a connector and no connection error leaves a ready handle. -/
def PushesSoon (env : Environment) (s : App) (e : EndpointPtr) (data : Bytes) : Prop :=
  (s.endpoint e).pendingMessage = [] → data ≠ [] → s.bufferLimit e data.length = false →
    HasReady s e → WakesNext s e ∨ s.conf.getConfigureMessageTimeout ≤ s.conf.timerTickInterval ∨
      (CanAnswer env s e ∧ ((env.send 0).code = .atnodeNoConnection ∨
        (env.send 0).code = .atnodeInvalidId → ErrorUnready env s e))

instance (env : Environment) (s : App) (e : EndpointPtr) (data : Bytes) :
    Decidable (PushesSoon env s e data) :=
  inferInstanceAs (Decidable (_ → _ → _ → _ → _ ∨ _ ∨ _ ∧ (_ → _)))

/-- A ready handle that has no connector is not bound to an endpoint with pending messages that
    sleeps. -/
def BindsAwake (s : App) (h : HandlePtr) : Prop :=
  (s.handle h).ready = true → (s.handle h).connector = none →
    ∀ e ∈ (s.handle h).endpoint, WakesNext s e ∨ (s.endpoint e).pendingMessage = []

instance (s : App) (h : HandlePtr) : Decidable (s.BindsAwake h) :=
  inferInstanceAs (Decidable (_ → _ → ∀ e ∈ (s.handle h).endpoint, _ ∨ _))

/-- **The condition on a step.** The app does not stop and its clock does not go back; a retry sends
    all messages that a ready handle could send, a push keeps no message that it could send, and a
    ready handle gets its connector while its endpoint is awake. -/
def WakesSoon (s : App) (input : Environment × AppOp) : Prop :=
  match input.2 with
  | .tick now => s.lastTickTimepoint ≤ now
  | .stop => False
  | .pushForwardMessage e _ _ data _ => PushesSoon input.1 s e data
  | .retryPendingMessages e tickTime maxCount => Drains input.1 s e tickTime maxCount
  | .processRound => ∀ e ∈ s.woken input.1,
      Drains input.1 s e s.lastTickTimepoint s.conf.loopTimes
  | .bindConnector h _ => BindsAwake s h
  | _ => True

/-! ## Steady operations -/

/-- A steady operation that leaves the queue alone or empties it keeps the endpoint awake. -/
theorem WokenInTime.steady (hs : WokenInTime s e) (h : Steady s t)
    (halive : (t.endpoint e).alive = true)
    (hpending : (t.endpoint e).pendingMessage = (s.endpoint e).pendingMessage ∨
      (t.endpoint e).pendingMessage = []) : WokenInTime t e := by
  have hpos : (0 : Int) < second := by decide
  refine ⟨h.listed e halive hs.listed, fun msg hmsg => ?_, fun hne hready => ?_⟩
  · rcases hpending with heq | hnil
    · obtain ⟨hset, hle⟩ := hs.front msg (heq ▸ hmsg)
      rcases h.nearest e with hsame | ⟨hsecond, hzero | hearly⟩
      · rw [hsame]
        exact ⟨hset, hle⟩
      · exact absurd hzero hset
      · omega
    · rw [hnil] at hmsg
      cases hmsg
  · have heq := hpending.resolve_right hne
    rcases h.ready e hready with hready | hnext | hidle
    · -- it was awake before
      have hne' : (s.endpoint e).pendingMessage ≠ [] := heq ▸ hne
      have hset : (s.endpoint e).nearestWaker ≠ 0 := by
        cases hqueue : (s.endpoint e).pendingMessage with
        | nil => exact absurd hqueue hne'
        | cons msg _ => exact (hs.front msg (by rw [hqueue]; rfl)).1
      have hnext : WakesNext s e := ⟨hset, hs.soon hne' hready⟩
      exact (h.wakesNext hnext).2
    · exact hnext.2
    · exact absurd hidle hne

/-- The queues are left alone or emptied. -/
def QueuesKept (s t : App) : Prop := ∀ e, (t.endpoint e).pendingMessage =
  (s.endpoint e).pendingMessage ∨ (t.endpoint e).pendingMessage = []

theorem QueuesKept.trans (hst : QueuesKept s t) (htu : QueuesKept t u) : QueuesKept s u := by
  intro e
  rcases htu e with heq | hnil
  · rw [heq]
    exact hst e
  · exact Or.inr hnil

theorem SameMessages.queuesKept (h : SameMessages s t) : QueuesKept s t :=
  fun e => Or.inl (h.pending e)

/-- Times are set, and every live endpoint is woken in time. -/
structure Awake (s : App) : Prop where
  times : TimesSet s
  woken : AllWokenInTime s

theorem Awake.steadyFrom (hs : Awake s) (h : SteadyFrom s t) (hpending : QueuesKept s t) :
    Awake t := by
  obtain ⟨htimes, hsteady⟩ := h hs.times
  refine ⟨htimes, fun e halive => ?_⟩
  exact (hs.woken e (hsteady.alive e halive)).steady hsteady halive (hpending e)

/-! ## Removing -/

theorem queuesKept_cancelPendingMessages (env : Environment) (s : App) (e : EndpointPtr) :
    QueuesKept s (s.cancelPendingMessages env e) := by
  intro e'
  by_cases he : e' = e
  · subst he
    rw [(balanced_cancelPendingMessages env s e').2]
    split
    · exact Or.inr rfl
    · exact Or.inl rfl
  · -- the loop only pops messages of the endpoint
    have hloop : ∀ (c : ConnectorPtr) (msgs : List PendingMessage) (s : App),
        (cancelLoop e c s msgs).endpoint e' = s.endpoint e' := by
      intro c msgs
      induction msgs with
      | nil => exact fun _ => rfl
      | cons msg msgs ih =>
        intro s
        refine (ih _).trans ?_
        exact endpoint_modifyEndpoint_of_ne he _
    refine Or.inl ?_
    unfold cancelPendingMessages
    split
    · rfl
    · rw [endpoint_modifyEndpoint_of_ne he, hloop]

theorem queuesKept_resetEndpoint (s : App) (e : EndpointPtr) :
    QueuesKept s (s.resetEndpoint env e) := by
  have hflag : ∀ (t : App) (flag : Bool),
      QueuesKept t (t.modifyEndpoint e fun ep => { ep with closing := flag }) :=
    fun t flag e' => Or.inl (t.modifyEndpoint_field e (f := fun ep => { ep with closing := flag })
      AtappEndpoint.pendingMessage (fun _ => rfl) e')
  unfold resetEndpoint
  split
  · exact fun _ => Or.inl rfl
  · dsimp only
    refine (hflag s true).trans ?_
    refine (queuesKept_cancelPendingMessages env _ e).trans ?_
    refine (sameMessages_unbindAll env _ e).queuesKept.trans ?_
    exact (hflag _ false).trans fun _ => Or.inl rfl

theorem Awake.withIndexes (hs : Awake s) (byId : Nat → Option EndpointPtr)
    (byName : Bytes → Option EndpointPtr) : Awake (s.withIndexes byId byName) :=
  hs.steadyFrom (steadyFrom_withIndexes s byId byName) fun _ => Or.inl rfl

theorem Awake.resetEndpoint (hs : Awake s) (e : EndpointPtr) : Awake (s.resetEndpoint env e) :=
  hs.steadyFrom (steadyFrom_resetEndpoint env s e) (queuesKept_resetEndpoint s e)

theorem Awake.eraseIdOf (hs : Awake s) (e : EndpointPtr) (id : Nat) : Awake (s.eraseIdOf e id) := by
  obtain ⟨byId, heq⟩ := s.eraseIdOf_eq e id
  rw [heq]
  exact hs.withIndexes _ _

theorem Awake.eraseNameOf (hs : Awake s) (e : EndpointPtr) (name : Bytes) :
    Awake (s.eraseNameOf e name) := by
  obtain ⟨byName, heq⟩ := s.eraseNameOf_eq e name
  rw [heq]
  exact hs.withIndexes _ _

theorem Awake.removeEndpoint (hs : Awake s) (e : EndpointPtr) : Awake (s.removeEndpoint env e) :=
  ((hs.eraseIdOf e _).eraseNameOf e _).resetEndpoint e

theorem Awake.removeEndpointById (hs : Awake s) (id : Nat) :
    Awake (s.removeEndpointById env id) := by
  unfold App.removeEndpointById
  split
  · exact hs
  · next e _ =>
    exact ((hs.withIndexes (Function.update s.endpointIndexById id none)
      s.endpointIndexByName).eraseNameOf e _).resetEndpoint e

theorem Awake.removeEndpointByName (hs : Awake s) (name : Bytes) :
    Awake (s.removeEndpointByName env name) := by
  unfold App.removeEndpointByName
  split
  · exact hs
  · next e _ =>
    exact ((hs.withIndexes s.endpointIndexById
      (Function.update s.endpointIndexByName name none)).eraseIdOf e _).resetEndpoint e

/-! ## Retrying -/

/-- Retrying the messages of an endpoint leaves the other queues alone. -/
theorem pendingMessage_retryLoop_of_ne {e' : EndpointPtr} (hne : e' ≠ e)
    (target : Option (HandlePtr × ConnectorPtr)) (tickTime : Int) (msgs : List PendingMessage)
    (s : App) (maxCount : Int) (k : Nat) :
    ((retryLoop env e target tickTime s msgs maxCount k).1.endpoint e').pendingMessage =
      (s.endpoint e').pendingMessage := by
  have hpop : ∀ (t : App) (msg : PendingMessage),
      ((t.popPending e msg).endpoint e').pendingMessage = (t.endpoint e').pendingMessage := by
    intro t msg
    rw [popPending, endpoint_modifyEndpoint_of_ne hne]
  induction msgs generalizing s maxCount k with
  | nil => rfl
  | cons msg msgs ih =>
    unfold retryLoop
    split
    · next _ h c _ =>
      have hsend := (sameMessages_onSendForwardRequest env s e h msg.serial k).pending e'
      dsimp only
      rw [ih, hpop]
      split
      · exact hsend
      · exact hsend
    · split
      · rfl
      · dsimp only
        rw [ih, hpop]
        rfl

/-- A loop with a target and a limit that is high enough sends every message. -/
theorem pendingMessage_retryLoop_some (h : HandlePtr) (c : ConnectorPtr) (tickTime : Int)
    (msgs : List PendingMessage) (s : App) {maxCount : Int} (hle : (msgs.length : Int) ≤ maxCount)
    (k : Nat) (hpending : (s.endpoint e).pendingMessage = msgs) :
    ((retryLoop env e (some (h, c)) tickTime s msgs maxCount k).1.endpoint e).pendingMessage =
      [] := by
  induction msgs generalizing s maxCount k with
  | nil => exact hpending
  | cons msg msgs ih =>
    rw [List.length_cons, Int.natCast_succ] at hle
    have hcount : decide (maxCount > 0) = true := by
      rw [decide_eq_true_eq]
      omega
    unfold retryLoop
    rw [hcount]
    dsimp only
    exact ih _ (by omega) _ (balanced_sendPending hpending h c k rfl).2

/-- Where the messages can be answered, a retry has a target. -/
theorem exists_target (h : CanAnswer env s e) :
    ∃ h c, ((s.getReadyConnectionHandle env e).bind fun h =>
      (s.handle h).connector.map fun c => (h, c)) = some (h, c) := by
  unfold CanAnswer readyConnector at h
  cases hready : s.getReadyConnectionHandle env e with
  | none => simp [hready] at h
  | some h' =>
    rw [hready, Option.bind_some] at h
    obtain ⟨c, hc⟩ := Option.isSome_iff_exists.1 h
    exact ⟨h', c, by simp [hc]⟩

section SpendWaker

variable {tickTime : Int}

/-- Nothing but the waker of the endpoint changes. -/
theorem spendWaker_field {α : Type} (g : AtappEndpoint → α)
    (hg : ∀ ep, g { ep with nearestWaker := 0 } = g ep) (e' : EndpointPtr) :
    g ((s.spendWaker e tickTime).endpoint e') = g (s.endpoint e') := by
  unfold spendWaker
  split
  · exact s.modifyEndpoint_field e g hg e'
  · rfl

theorem endpoint_spendWaker_of_ne {e' : EndpointPtr} (hne : e' ≠ e) :
    (s.spendWaker e tickTime).endpoint e' = s.endpoint e' := by
  unfold spendWaker
  split
  · exact endpoint_modifyEndpoint_of_ne hne _
  · rfl

theorem spendWaker_rest :
    (s.spendWaker e tickTime).handle = s.handle ∧
      (s.spendWaker e tickTime).endpointWaker = s.endpointWaker ∧
      (s.spendWaker e tickTime).getNextTickTime = s.getNextTickTime ∧
      (s.spendWaker e tickTime).conf = s.conf ∧
      (s.spendWaker e tickTime).isClosing = s.isClosing ∧
      (s.spendWaker e tickTime).lastTickTimepoint = s.lastTickTimepoint := by
  unfold spendWaker
  split
  · exact ⟨rfl, rfl, rfl, rfl, rfl, rfl⟩
  · exact ⟨rfl, rfl, rfl, rfl, rfl, rfl⟩

theorem nearestWaker_spendWaker :
    (((s.spendWaker e tickTime).endpoint e).nearestWaker = 0 ∧
        (s.endpoint e).nearestWaker ≤ tickTime) ∨
      (((s.spendWaker e tickTime).endpoint e).nearestWaker = (s.endpoint e).nearestWaker ∧
        tickTime < (s.endpoint e).nearestWaker) := by
  unfold spendWaker
  split
  · next hdue =>
    rw [endpoint_modifyEndpoint_self]
    exact Or.inl ⟨rfl, hdue⟩
  · exact Or.inr ⟨rfl, by omega⟩

theorem hasReady_spendWaker (e' : EndpointPtr) :
    HasReady (s.spendWaker e tickTime) e' ↔ HasReady s e' := by
  rw [HasReady, HasReady, spendWaker_rest.1,
    spendWaker_field AtappEndpoint.referConnections fun _ => rfl]

theorem CanAnswer.spendWaker (h : CanAnswer env s e) :
    CanAnswer env (s.spendWaker e tickTime) e := by
  rw [CanAnswer, getReadyConnectionHandle, readyConnector, spendWaker_rest.1,
    spendWaker_field AtappEndpoint.referConnections fun _ => rfl]
  exact h

theorem TimesSet.spendWaker (hs : TimesSet s) (e : EndpointPtr) (tickTime : Int) :
    TimesSet (s.spendWaker e tickTime) := by
  obtain ⟨-, -, -, hconf, hclosing, hlast⟩ := @spendWaker_rest s e tickTime
  refine ⟨hclosing.trans hs.running, hlast ▸ hs.now, hconf ▸ hs.messageTimeout,
    hconf ▸ hs.gcTimeout, fun e' => ?_, fun e' h => ?_, fun e' msg hmem => ?_⟩
  · by_cases he : e' = e
    · subst he
      rcases @nearestWaker_spendWaker s e' tickTime with ⟨hzero, -⟩ | ⟨heq, -⟩
      · exact Or.inl hzero
      · rw [heq]
        exact hs.nearest e'
    · rw [endpoint_spendWaker_of_ne he]
      exact hs.nearest e'
  · rw [spendWaker_field AtappEndpoint.gcTimepoint fun _ => rfl]
    exact hs.gc e' ((spendWaker_field AtappEndpoint.alive (fun _ => rfl) e').symm.trans h)
  · rw [spendWaker_field AtappEndpoint.pendingMessage fun _ => rfl] at hmem
    exact hs.expiry e' msg hmem

/-- The other endpoints are woken as before. -/
theorem WokenInTime.spendWaker {e' : EndpointPtr} (h : WokenInTime s e') (hne : e' ≠ e)
    (tickTime : Int) : WokenInTime (s.spendWaker e tickTime) e' := by
  obtain ⟨-, hwaker, hnextTick, -⟩ := @spendWaker_rest s e tickTime
  refine ⟨?_, ?_, ?_⟩
  · rw [endpoint_spendWaker_of_ne hne, hwaker]
    exact h.listed
  · rw [endpoint_spendWaker_of_ne hne]
    exact h.front
  · rw [endpoint_spendWaker_of_ne hne, hasReady_spendWaker, hnextTick]
    exact h.soon

end SpendWaker

/-- **Retrying** leaves every endpoint awake, if the endpoint itself was awake apart from a waker
    that has come due, and its messages are drained. -/
theorem awake_retryPendingMessages (hs : TimesSet s) (e : EndpointPtr) (tickTime maxCount : Int)
    (hothers : ∀ e' ≠ e, (s.endpoint e').alive = true → WokenInTime s e')
    (hlisted : (s.endpoint e).alive = true → (s.endpoint e).nearestWaker ≠ 0 →
      tickTime < (s.endpoint e).nearestWaker →
        ((s.endpoint e).nearestWaker, some e) ∈ s.endpointWaker)
    (hsoon : (s.endpoint e).alive = true → tickTime < (s.endpoint e).nearestWaker →
      (s.endpoint e).pendingMessage ≠ [] → HasReady s e → WakesNext s e)
    (hdrains : Drains env s e tickTime maxCount) :
    Awake (s.retryPendingMessages env e tickTime maxCount).1 := by
  unfold retryPendingMessages
  dsimp only
  set s₁ := if (s.endpoint e).nearestWaker ≤ tickTime then
      s.modifyEndpoint e fun ep => { ep with nearestWaker := 0 }
    else s with hs₁
  have hspent : s.spendWaker e tickTime = s₁ := hs₁.symm
  obtain ⟨hhandle, hwaker, hnextTick, -⟩ := @spendWaker_rest s e tickTime
  have hnearest := @nearestWaker_spendWaker s e tickTime
  have hpending := @spendWaker_field s e tickTime _ AtappEndpoint.pendingMessage fun _ => rfl
  have halive := @spendWaker_field s e tickTime _ AtappEndpoint.alive fun _ => rfl
  have hready := @hasReady_spendWaker s e tickTime
  have htimes := hs.spendWaker e tickTime
  have hothers₁ : ∀ e' ≠ e, ((s.spendWaker e tickTime).endpoint e').alive = true →
      WokenInTime (s.spendWaker e tickTime) e' := fun e' hne h =>
    (hothers e' hne ((halive e').symm.trans h)).spendWaker hne tickTime
  simp only [hspent] at hhandle hwaker hnextTick hnearest hpending halive hready htimes hothers₁
  have hlisted₁ : (s₁.endpoint e).alive = true → (s₁.endpoint e).nearestWaker ≠ 0 →
      ((s₁.endpoint e).nearestWaker, some e) ∈ s₁.endpointWaker := by
    intro h hne
    obtain ⟨heq, hlate⟩ := hnearest.resolve_left fun hzero => hne hzero.1
    rw [heq] at hne ⊢
    rw [hwaker]
    exact hlisted ((halive e).symm.trans h) hne hlate
  -- what is left to show of the state at the end
  have hend : ∀ u : App, TimesSet u → Steady s₁ u →
      (∀ e' ≠ e, (u.endpoint e').pendingMessage = (s₁.endpoint e').pendingMessage) →
      (∀ msg ∈ (u.endpoint e).pendingMessage.head?, (u.endpoint e).nearestWaker ≠ 0 ∧
        (u.endpoint e).nearestWaker ≤ msg.expiredTimepoint) →
      ((u.endpoint e).alive = true → (u.endpoint e).pendingMessage ≠ [] → HasReady u e →
        (u.endpoint e).nearestWaker ≤ u.getNextTickTime) → Awake u := by
    intro u hu hsteady hqueues hfront hnext
    refine ⟨hu, fun e' h => ?_⟩
    by_cases he : e' = e
    · subst he
      exact ⟨hsteady.listed e' h (hlisted₁ (hsteady.alive e' h)), hfront, hnext h⟩
    · exact (hothers₁ e' he (hsteady.alive e' h)).steady hsteady h (Or.inl (hqueues e' he))
  split
  · next hnil =>
    refine hend s₁ htimes (Steady.refl s₁) (fun _ _ => rfl) ?_ fun _ hne => absurd hnil hne
    rw [hnil]
    exact fun _ h => by cases h
  · set target := (s₁.getReadyConnectionHandle env e).bind fun h =>
      (s₁.handle h).connector.map fun c => (h, c) with htarget
    set limit := if maxCount ≤ 0 then int32Max else maxCount with hlimit
    set t := (retryLoop env e target tickTime s₁ (s₁.endpoint e).pendingMessage limit 0).1 with ht
    have hloop : SteadyFrom s₁ t := steadyFrom_retryLoop target tickTime _ s₁ limit 0
    obtain ⟨ht', hsteady⟩ := hloop htimes
    have hqueues : ∀ e' ≠ e, (t.endpoint e').pendingMessage = (s₁.endpoint e').pendingMessage :=
      fun e' hne => pendingMessage_retryLoop_of_ne hne target tickTime _ s₁ limit 0
    have hsuffix : (t.endpoint e).pendingMessage <:+ (s.endpoint e).pendingMessage := by
      have hloop : Balanced s₁ t := balanced_retryLoop target tickTime _ s₁ limit 0 rfl
      exact hpending e ▸ hloop.suffix e
    split
    · next hnil =>
      -- every message was sent or answered
      obtain ⟨hu, hsize⟩ := steadyFrom_modifyEndpoint t e (quiet_messageSize 0) ht'
      have hsame := t.modifyEndpoint_field e (f := fun ep => { ep with pendingMessageSize := 0 })
        AtappEndpoint.pendingMessage (fun _ => rfl)
      refine hend _ hu (hsteady.trans hsize) (fun e' hne => (hsame e').trans (hqueues e' hne))
        (fun msg hmsg => ?_)
        fun _ hne => absurd ((hsame e).trans hnil) hne
      rw [hsame, hnil] at hmsg
      cases hmsg
    · next msg msgs hcons =>
      have hmem : msg ∈ (t.endpoint e).pendingMessage := hcons ▸ List.mem_cons_self
      have hexpiry := ht'.expiry e msg hmem
      obtain ⟨hu, hwake⟩ := steadyFrom_addWaker t e hexpiry ht'
      have hsame := (sameMessages_addWaker t e msg.expiredTimepoint).pending
      obtain ⟨hset, hle⟩ := nearestWaker_addWaker ht' e hexpiry
      have hall := hsteady.trans hwake
      refine hend _ hu hall (fun e' hne => (hsame e').trans (hqueues e' hne)) (fun msg' hmsg => ?_)
        fun hlive hne hhas => ?_
      · rw [hsame, hcons] at hmsg
        cases hmsg
        exact ⟨hset, hle⟩
      · rcases hall.ready e hhas with hhas | hnext | hidle
        · have hhas' := (hready e).1 hhas
          have hqueue : (s.endpoint e).pendingMessage ≠ [] :=
            List.ne_nil_of_mem (hsuffix.subset hmem)
          by_cases hdue : (s.endpoint e).nearestWaker ≤ tickTime
          · rcases hdrains hdue hhas' with ⟨hcan, hlength⟩ | hurgent
            · -- the loop has sent every message
              have hcan₁ : CanAnswer env s₁ e := hspent ▸ hcan.spendWaker
              obtain ⟨h, c, hhc⟩ := exists_target hcan₁
              have hnil : (t.endpoint e).pendingMessage = [] := by
                rw [ht, htarget, hhc]
                exact pendingMessage_retryLoop_some h c tickTime _ s₁ (by rwa [hpending]) 0 rfl
              exact absurd (hsame e) (by rw [hnil]; exact hne)
            · refine hle.trans ?_
              rw [hall.nextTick, hnextTick]
              exact hurgent msg (hsuffix.subset hmem)
          · have hlate : tickTime < (s.endpoint e).nearestWaker := by omega
            have hnext := hsoon ((halive e).symm.trans (hall.alive e hlive)) hlate hqueue hhas'
            have hnext₁ : WakesNext s₁ e := by
              rw [WakesNext, (hnearest.resolve_left fun hzero => hdue hzero.2).1, hnextTick]
              exact hnext
            exact (hall.wakesNext hnext₁).2
        · exact hnext.2
        · exact absurd hidle hne

/-! ## Pushing -/

/-- An endpoint with pending messages and a ready handle wakes at the next tick. -/
theorem WokenInTime.wakesNext (hs : WokenInTime s e) (hne : (s.endpoint e).pendingMessage ≠ [])
    (hready : HasReady s e) : WakesNext s e := by
  obtain ⟨msg, msgs, hcons⟩ := List.exists_cons_of_ne_nil hne
  exact ⟨(hs.front msg (by rw [hcons]; rfl)).1, hs.soon hne hready⟩

/-- **Queueing a message** leaves the endpoint awake if a ready handle could send it only where the
    endpoint wakes early enough anyway. -/
theorem Awake.queueMessage (hs : Awake s) (e : EndpointPtr) (serial : Nat) (type : Int)
    (sequence : Nat) (data : Bytes) (metadata : Option AtappMetadata)
    (hcond : (s.endpoint e).pendingMessage = [] → HasReady s e →
      WakesNext s e ∨ s.conf.getConfigureMessageTimeout ≤ s.conf.timerTickInterval) :
    Awake (s.queueMessage e serial type sequence data metadata) := by
  obtain ⟨htimes, hwoken⟩ := hs
  set expired := s.lastTickTimepoint + s.conf.getConfigureMessageTimeout with hexpired
  set msg : PendingMessage :=
    { serial := serial, expiredTimepoint := expired, type := type, messageSequence := sequence,
      data := data, metadata := metadata } with hmsg
  set s₁ := s.modifyEndpoint e fun ep =>
    { ep with
      pendingMessage := ep.pendingMessage ++ [msg]
      pendingMessageSize := ep.pendingMessageSize + data.length } with hs₁
  have hresult : s.queueMessage e serial type sequence data metadata = s₁.addWaker e expired := rfl
  have hlate : second ≤ expired := by
    have hnow := htimes.now
    have htimeout := htimes.messageTimeout
    omega
  have hself : s₁.endpoint e = { s.endpoint e with
      pendingMessage := (s.endpoint e).pendingMessage ++ [msg]
      pendingMessageSize := (s.endpoint e).pendingMessageSize + data.length } := by
    rw [hs₁, endpoint_modifyEndpoint_self]
  have hother : ∀ e' ≠ e, s₁.endpoint e' = s.endpoint e' :=
    fun e' hne => endpoint_modifyEndpoint_of_ne hne _
  have htimes₁ : TimesSet s₁ := by
    refine ⟨htimes.running, htimes.now, htimes.messageTimeout, htimes.gcTimeout, fun e' => ?_,
      fun e' h => ?_, fun e' m hmem => ?_⟩
    · by_cases he : e' = e
      · rw [he, hself]
        exact htimes.nearest e
      · rw [hother e' he]
        exact htimes.nearest e'
    · by_cases he : e' = e
      · rw [he, hself] at h ⊢
        exact htimes.gc e h
      · rw [hother e' he] at h ⊢
        exact htimes.gc e' h
    · by_cases he : e' = e
      · rw [he, hself] at hmem
        rcases List.mem_append.1 hmem with hold | hnew
        · exact htimes.expiry e m hold
        · rw [List.mem_singleton.1 hnew]
          exact hlate
      · rw [hother e' he] at hmem
        exact htimes.expiry e' m hmem
  obtain ⟨hu, hsteady⟩ := steadyFrom_addWaker s₁ e hlate htimes₁
  obtain ⟨hset, hle⟩ := nearestWaker_addWaker htimes₁ e hlate
  have hsame := (sameMessages_addWaker s₁ e expired).pending
  rw [hresult]
  generalize s₁.addWaker e expired = u at *
  refine ⟨hu, fun e' halive => ?_⟩
  have halive₁ := hsteady.alive e' halive
  by_cases he : e' = e
  · subst he
    have hqueue : (u.endpoint e').pendingMessage = (s.endpoint e').pendingMessage ++ [msg] := by
      rw [hsame, hself]
    have hnearest : (s₁.endpoint e').nearestWaker = (s.endpoint e').nearestWaker := by rw [hself]
    have hnext : WakesNext s e' → WakesNext u e' := by
      intro hnext
      refine hsteady.wakesNext ?_
      rw [WakesNext, hnearest]
      exact hnext
    have hold := hwoken e' (by rwa [hself] at halive₁)
    refine ⟨hsteady.listed e' halive ?_, fun m hm => ?_, fun hne hready => ?_⟩
    · rw [hnearest]
      exact hold.listed
    · -- the front message is an old one or the new one
      rw [hqueue] at hm
      cases hpending : (s.endpoint e').pendingMessage with
      | nil =>
        rw [hpending] at hm
        cases hm
        exact ⟨hset, hle⟩
      | cons m' msgs =>
        rw [hpending] at hm
        cases hm
        obtain ⟨hset', hle'⟩ := hold.front m (by rw [hpending]; rfl)
        refine ⟨hset, ?_⟩
        rcases hsteady.nearest e' with heq | ⟨-, hzero | hearly⟩
        · omega
        · exact absurd (hnearest.symm.trans hzero) hset'
        · omega
    · rcases hsteady.ready e' hready with hready₁ | hnow | hidle
      · have hready' : HasReady s e' := by
          rw [HasReady, hself] at hready₁
          exact hready₁
        by_cases hpending : (s.endpoint e').pendingMessage = []
        · rcases hcond hpending hready' with hwakes | hshort
          · exact (hnext hwakes).2
          · refine hle.trans ?_
            rw [hsteady.nextTick]
            change expired ≤ s.lastTickTimepoint + s.conf.timerTickInterval
            omega
        · exact (hnext (hold.wakesNext hpending hready')).2
      · exact hnow.2
      · exact absurd hidle hne
  · -- another endpoint
    have hold := hwoken e' (by rwa [hother e' he] at halive₁)
    have hwoken₁ : WokenInTime s₁ e' := by
      refine ⟨?_, ?_, ?_⟩
      · rw [hother e' he]
        exact hold.listed
      · rw [hother e' he]
        exact hold.front
      · rw [HasReady, hother e' he]
        exact hold.soon
    exact hwoken₁.steady hsteady halive (Or.inl (hsame e'))

theorem Awake.pushPending (hs : Awake s) (e : EndpointPtr) (serial : Nat) (type : Int)
    (sequence : Nat) (data : Bytes) (metadata : Option AtappMetadata)
    (hcond : (s.endpoint e).pendingMessage = [] → s.bufferLimit e data.length = false →
      HasReady s e → WakesNext s e ∨
        s.conf.getConfigureMessageTimeout ≤ s.conf.timerTickInterval) :
    Awake (s.pushPending env e serial type sequence data metadata).1 := by
  unfold App.pushPending
  split
  · exact hs.steadyFrom (steadyFrom_record s _) fun _ => Or.inl rfl
  · next hroom =>
    exact hs.queueMessage e serial type sequence data metadata fun hnil =>
      hcond hnil (Bool.eq_false_iff.2 hroom)

/-- A handle that delivers after a request delivered before, and is not the one that the connector
    made unready. -/
theorem hasReady_onSendForwardRequest {e' : EndpointPtr} {h : HandlePtr} {serial k : Nat}
    (hready : HasReady (s.onSendForwardRequest env e h serial k).1 e') :
    ∃ h' ∈ (s.endpoint e').referConnections, (s.handle h').Delivers e' ∧
      ((env.send k).unready = true → h' ≠ h) := by
  unfold onSendForwardRequest at hready
  dsimp only at hready
  split at hready
  · next hunready =>
    obtain ⟨h', hmem, hdelivers⟩ := hready
    set s₁ := s.record (.request e serial (env.send k).code) with hs₁
    have hrefer : ((s₁.setUnready h).endpoint e').referConnections =
        (s.endpoint e').referConnections := by
      unfold setUnready
      split
      · dsimp only
        split
        · rfl
        · split
          · rw [referConnections_addWaker]
            rfl
          · rfl
      · rfl
    have hhandle : ∀ h', (s₁.setUnready h).handle h' =
        if h' = h ∧ (s.handle h).ready = true then { s.handle h with ready := false }
        else s.handle h' := by
      intro h'
      unfold setUnready
      split
      · next hflag =>
        have hmodify : (s₁.modifyHandle h fun x => { x with ready := false }).handle h' =
            if h' = h ∧ (s.handle h).ready = true then { s.handle h with ready := false }
            else s.handle h' := by
          rw [handle_modifyHandle]
          by_cases heq : h' = h
          · rw [if_pos heq, if_pos ⟨heq, hflag⟩]
            rfl
          · rw [if_neg heq, if_neg fun h => heq h.1]
            rfl
        dsimp only
        split
        · exact hmodify
        · split
          · rw [handle_addWaker]
            exact hmodify
          · exact hmodify
      · next hflag =>
        rw [if_neg fun h => hflag h.2]
        rfl
    rw [hrefer] at hmem
    rw [hhandle] at hdelivers
    by_cases heq : h' = h ∧ (s.handle h).ready = true
    · rw [if_pos heq] at hdelivers
      exact absurd hdelivers.1 Bool.false_ne_true
    · rw [if_neg heq] at hdelivers
      exact ⟨h', hmem, hdelivers, fun _ hsame => heq ⟨hsame, hsame ▸ hdelivers.1⟩⟩
  · next hkept =>
    obtain ⟨h', hmem, hdelivers⟩ := hready
    exact ⟨h', hmem, hdelivers, fun hunready => absurd hunready hkept⟩

/-- **Pushing a message** leaves every endpoint awake under the condition. -/
theorem Awake.pushMessage (hs : Awake s) (e : EndpointPtr) (serial : Nat) (type : Int)
    (sequence : Nat) (data : Bytes) (metadata : Option AtappMetadata)
    (hcond : PushesSoon env s e data) :
    Awake (s.pushMessage env e serial type sequence data metadata).1 := by
  unfold App.pushMessage
  split
  · exact hs.steadyFrom (steadyFrom_record s _) fun _ => Or.inl rfl
  split
  · exact hs
  next hdata =>
  split
  · next hne =>
    exact hs.pushPending e serial type sequence data metadata fun hnil => absurd hnil hne
  next hempty =>
  have hnil : (s.endpoint e).pendingMessage = [] := not_not.1 hempty
  -- without a target the condition leaves the first two cases
  have hwithout : ¬ CanAnswer env s e →
      Awake (s.pushPending env e serial type sequence data metadata).1 := by
    intro hcannot
    refine hs.pushPending e serial type sequence data metadata fun _ hroom hready => ?_
    rcases hcond hnil hdata hroom hready with hnext | hshort | ⟨hcan, -⟩
    · exact Or.inl hnext
    · exact Or.inr hshort
    · exact absurd hcan hcannot
  split
  · next hnone => exact hwithout (by simp [CanAnswer, readyConnector, hnone])
  · next h hsome =>
    split
    · next hnone => exact hwithout (by simp [CanAnswer, readyConnector, hsome, hnone])
    · next c hcon =>
      have hsend := steadyFrom_onSendForwardRequest env s e h serial 0
      have hsame := sameMessages_onSendForwardRequest env s e h serial 0
      have hcode : (s.onSendForwardRequest env e h serial 0).2 = (env.send 0).code := rfl
      have hbefore : HasReady (s.onSendForwardRequest env e h serial 0).1 e →
          ∃ h' ∈ (s.endpoint e).referConnections, (s.handle h').Delivers e ∧
            ((env.send 0).unready = true → h' ≠ h) := hasReady_onSendForwardRequest
      obtain ⟨-, hsteady⟩ := hsend hs.times
      have hawake := hs.steadyFrom hsend fun e' => Or.inl (hsame.pending e')
      generalize s.onSendForwardRequest env e h serial 0 = result at *
      obtain ⟨t, code⟩ := result
      -- a connection error puts the message into the queue
      have herror : code = .atnodeNoConnection ∨ code = .atnodeInvalidId →
          Awake (t.pushPending env e serial type (env.send 0).sequence data metadata).1 := by
        intro hrefused
        refine hawake.pushPending e serial type _ data metadata fun _ hroom hready => ?_
        obtain ⟨h', hmem, hdelivers, hother⟩ := hbefore hready
        have hroom' : s.bufferLimit e data.length = false := by
          rw [← hroom, bufferLimit, bufferLimit, hsame.conf, hsame.pending, hsame.size]
          rfl
        rcases hcond hnil hdata hroom' ⟨h', hmem, hdelivers⟩ with hnext | hshort | ⟨-, hunready⟩
        · exact Or.inl (hsteady.wakesNext hnext)
        · rw [hsteady.conf]
          exact Or.inr hshort
        · obtain ⟨hflag, honly⟩ := hunready (hcode ▸ hrefused)
          have hfirst := hsome.symm.trans (honly h' hmem hdelivers)
          exact absurd (Option.some.inj hfirst).symm (hother hflag)
      split
      · next heq =>
        cases heq
        exact hawake
      · next heq =>
        cases heq
        exact herror (Or.inl rfl)
      · next heq =>
        cases heq
        exact herror (Or.inr rfl)
      · next heq =>
        cases heq
        exact hawake.steadyFrom (steadyFrom_record t _) fun _ => Or.inl rfl

theorem Awake.pushForwardMessage (hs : Awake s) (e : EndpointPtr) (type : Int) (sequence : Nat)
    (data : Bytes) (metadata : Option AtappMetadata) (hcond : PushesSoon env s e data) :
    Awake (s.pushForwardMessage env e type sequence data metadata).1 := by
  set s₀ : App := { s with pushCount := s.pushCount + 1 } with hs₀
  have hs₀' : Awake s₀ := by
    have hold := hs.times
    refine ⟨⟨hold.running, hold.now, hold.messageTimeout, hold.gcTimeout, hold.nearest, hold.gc,
      hold.expiry⟩, fun e halive => ?_⟩
    obtain ⟨hlisted, hfront, hsoon⟩ := hs.woken e halive
    exact ⟨hlisted, hfront, hsoon⟩
  have hpush := hs₀'.pushMessage e s.pushCount type sequence data metadata hcond
  unfold App.pushForwardMessage
  dsimp only
  split
  · exact hpush
  · exact hpush.steadyFrom (steadyFrom_record _ _) fun _ => Or.inl rfl

/-! ## Creating and destroying -/

theorem Awake.storeEndpoint (hs : Awake s) (e : EndpointPtr) (node : NodePtr) (id : Nat)
    (name : Bytes) (needId needName : Bool) :
    Awake (s.storeEndpoint e node id name needId needName) := by
  refine hs.steadyFrom (steadyFrom_storeEndpoint s e node id name needId needName) fun e' => ?_
  rw [endpoint_storeEndpoint, Function.update_apply]
  split
  · next he => exact Or.inl (he ▸ rfl)
  · exact Or.inl rfl

/-- A new endpoint has no waker and no message. -/
theorem Awake.createEndpoint (hs : Awake s) : Awake s.createEndpoint := by
  have hpos : (0 : Int) ≤ s.conf.endpointGcTimeout := hs.times.gcTimeout
  have hnow := hs.times.now
  have hother : ∀ e ≠ s.endpointCount, s.createEndpoint.endpoint e = s.endpoint e :=
    fun e hne => Function.update_of_ne hne _ _
  refine ⟨⟨hs.times.running, hnow, hs.times.messageTimeout, hpos, fun e => ?_, fun e halive => ?_,
    fun e msg hmem => ?_⟩, fun e halive => ?_⟩
  · by_cases he : e = s.endpointCount
    · rw [he, createEndpoint_self]
      exact Or.inl rfl
    · rw [hother e he]
      exact hs.times.nearest e
  · by_cases he : e = s.endpointCount
    · rw [he, createEndpoint_self]
      show second ≤ s.lastTickTimepoint + s.conf.endpointGcTimeout
      omega
    · rw [hother e he] at halive ⊢
      exact hs.times.gc e halive
  · by_cases he : e = s.endpointCount
    · rw [he, createEndpoint_self] at hmem
      cases hmem
    · rw [hother e he] at hmem
      exact hs.times.expiry e msg hmem
  · by_cases he : e = s.endpointCount
    · rw [he]
      refine ⟨fun hne => ?_, fun msg hmsg => ?_, fun hne => ?_⟩
      · rw [createEndpoint_self] at hne
        exact absurd rfl hne
      · rw [createEndpoint_self] at hmsg
        cases hmsg
      · rw [createEndpoint_self] at hne
        exact absurd rfl hne
    · rw [hother e he] at halive
      obtain ⟨hlisted, hfront, hsoon⟩ := hs.woken e halive
      refine ⟨?_, ?_, ?_⟩
      · rw [hother e he]
        exact hlisted
      · rw [hother e he]
        exact hfront
      · rw [HasReady, hother e he]
        exact hsoon

theorem Awake.mutableEndpoint (hs : Awake s) (discovery : Option NodePtr)
    (result : Option ConnectResult) : Awake (s.mutableEndpoint env discovery result).1 := by
  unfold App.mutableEndpoint
  split
  · exact hs
  split
  · exact hs
  · next node =>
    dsimp only
    rw [lookup_eq]
    cases s.foundById (s.heap node).id with
    | none =>
      cases s.foundByName (s.heap node).name with
      | some e => exact hs.storeEndpoint _ _ _ _ _ _
      | none =>
        have hstore := hs.createEndpoint.storeEndpoint s.endpointCount node (s.heap node).id
          (s.heap node).name (decide ((s.heap node).id ≠ 0)) (decide ((s.heap node).name ≠ []))
        exact hstore.steadyFrom (steadyFrom_connectEndpoint env _ _ result)
          (sameMessages_connectEndpoint env _ _ result).queuesKept
    | some e' =>
      cases s.foundByName (s.heap node).name with
      | none => exact hs.storeEndpoint _ _ _ _ _ _
      | some e =>
        dsimp only
        by_cases he : e = e'
        · rw [if_pos he]
          exact hs.storeEndpoint _ _ _ _ _ _
        · rw [if_neg he]
          exact (hs.removeEndpointById _).storeEndpoint _ _ _ _ _ _

/-- What becomes of an endpoint that is destroyed does not matter, and the others stay awake. -/
theorem Awake.destroyEndpoint (hs : Awake s) (e : EndpointPtr) :
    Awake (s.destroyEndpoint env e) := by
  let dead : AtappEndpoint → AtappEndpoint := fun ep => { ep with alive := false }
  let free : AtappEndpoint → AtappEndpoint :=
    fun ep => { ep with pendingMessage := [], pendingMessageSize := 0 }
  have hdead : Quiet dead :=
    ⟨fun _ h => absurd h Bool.false_ne_true, fun _ => rfl, fun _ => rfl, fun _ _ h => h,
      fun _ _ h => h⟩
  have hfree : Quiet free :=
    ⟨fun _ h => h, fun _ => rfl, fun _ => rfl, fun _ _ h => h, fun _ => List.nil_subset _⟩
  have hs₁ : Awake (s.modifyEndpoint e dead) := by
    refine hs.steadyFrom (steadyFrom_modifyEndpoint s e hdead) fun e' => Or.inl ?_
    exact s.modifyEndpoint_field e (f := dead) AtappEndpoint.pendingMessage (fun _ => rfl) e'
  have hqueues : ∀ t : App, QueuesKept t (t.modifyEndpoint e free) := by
    intro t e'
    rw [endpoint_modifyEndpoint]
    split
    · exact Or.inr rfl
    · exact Or.inl rfl
  exact (hs₁.resetEndpoint e).steadyFrom (steadyFrom_modifyEndpoint _ e hfree) (hqueues _)

/-! ## Rounds -/

theorem Awake.wakeEndpoint (hs : TimesSet s) {key : WakerKey} (hkey : key.2 = some e)
    (hdue : key.1 ≤ s.lastTickTimepoint) (hwoken : AllWokenInTime s)
    (halive : (s.endpoint e).alive = true)
    (hdrains : Drains env s e s.lastTickTimepoint s.conf.loopTimes) :
    Awake ((s.eraseWaker key).wakeEndpoint env e) := by
  set s₁ := s.eraseWaker key with hs₁
  have htimes : TimesSet s₁ := ⟨hs.running, hs.now, hs.messageTimeout, hs.gcTimeout, hs.nearest,
    hs.gc, hs.expiry⟩
  have hkept : ∀ t e', (t, some e') ∈ s.endpointWaker → (e' = e → s.lastTickTimepoint < t) →
      (t, some e') ∈ s₁.endpointWaker := by
    intro t e' hmem hlate
    refine List.mem_filter.2 ⟨hmem, ?_⟩
    rw [decide_eq_true_eq]
    intro heq
    have he : e' = e := by
      rw [← heq] at hkey
      exact Option.some.inj hkey
    have hlt := hlate he
    rw [← heq] at hdue
    exact absurd hdue (by omega)
  have hold := hwoken e halive
  have hretry : Awake (s₁.retryPendingMessages env e s₁.lastTickTimepoint s₁.conf.loopTimes).1 := by
    refine awake_retryPendingMessages htimes e _ _ (fun e' hne h => ?_)
      (fun _ hset hlate => hkept _ e (hold.listed hset) fun _ => hlate)
      (fun _ _ => hold.wakesNext) hdrains
    obtain ⟨hlisted, hfront, hsoon⟩ := hwoken e' h
    exact ⟨fun hset => hkept _ e' (hlisted hset) fun he => absurd he hne, hfront, hsoon⟩
  have hlive := (balanced_retryPendingMessages env s₁ e s₁.lastTickTimepoint s₁.conf.loopTimes).alive e
  unfold App.wakeEndpoint
  generalize (s₁.retryPendingMessages env e s₁.lastTickTimepoint s₁.conf.loopTimes).1 = t at *
  unfold recycle
  split
  · split
    · exact hretry.removeEndpoint e
    · have hgc := hretry.times.gc e (hlive.trans halive)
      exact hretry.steadyFrom (steadyFrom_addWaker t e hgc)
        (sameMessages_addWaker t e _).queuesKept
  · exact hretry

/-- **One round** leaves every endpoint awake if it drains the endpoint that it wakes. -/
theorem Awake.processRound (hs : Awake s) (hcond : ∀ e ∈ s.woken env,
    Drains env s e s.lastTickTimepoint s.conf.loopTimes) : Awake (s.processRound env) := by
  have herase : ∀ key : WakerKey, (∀ e, key.2 = some e → (s.endpoint e).alive ≠ true) →
      Awake (s.eraseWaker key) := by
    intro key hdead
    have hold := hs.times
    refine ⟨⟨hold.running, hold.now, hold.messageTimeout, hold.gcTimeout, hold.nearest, hold.gc,
      hold.expiry⟩, fun e halive => ?_⟩
    obtain ⟨hlisted, hfront, hsoon⟩ := hs.woken e halive
    refine ⟨fun hne => List.mem_filter.2 ⟨hlisted hne, ?_⟩, hfront, hsoon⟩
    rw [decide_eq_true_eq]
    intro heq
    exact hdead e (by rw [← heq]) halive
  unfold App.processRound
  unfold App.woken at hcond
  cases hbegin : s.wakerBegin env with
  | none => exact hs
  | some key =>
    obtain ⟨time, target⟩ := key
    dsimp only
    by_cases hdue : time ≤ s.lastTickTimepoint
    · rw [if_pos hdue]
      cases target with
      | none => exact herase _ fun e he => by cases he
      | some e =>
        dsimp only
        split
        · next halive =>
          refine Awake.wakeEndpoint hs.times rfl hdue hs.woken halive (hcond e ?_)
          rw [hbegin]
          exact if_pos ⟨hdue, halive⟩
        · next hdead =>
          refine herase _ fun e' he' => ?_
          cases he'
          exact hdead
    · rw [if_neg hdue]
      exact hs

/-! ## Runs -/

/-- Binding handles is steady under the condition. -/
theorem steadyFrom_step {op : AppOp} (hcond : WakesSoon s (env, op)) (hop : bindsOnly op = true) :
    SteadyFrom s (s.step (env, op)) := by
  cases op with
  | newHandle => exact steadyFrom_newHandle s
  | bindEndpoint h e => exact steadyFrom_bindEndpoint s h e
  | unbindEndpoint h e => exact (closes_unbindEndpoint env s h e).steadyFrom
  | addConnectionHandle e h =>
    change SteadyFrom s (s.addConnectionHandle env e h)
    unfold addConnectionHandle
    split
    · exact SteadyFrom.refl s
    · exact steadyFrom_bindEndpoint s h e
  | removeConnectionHandle e h =>
    change SteadyFrom s (s.removeConnectionHandle env e h)
    unfold removeConnectionHandle
    split
    · exact SteadyFrom.refl s
    · exact (closes_unbindEndpoint env s h e).steadyFrom
  | bindConnector h c => exact steadyFrom_bindConnector s h c hcond
  | unbindConnector h c => exact (closes_unbindConnector env s h c).steadyFrom
  | closeHandle h => exact (closes_close env s h).steadyFrom
  | setReady h => exact steadyFrom_setReady s h
  | setUnready h => exact steadyFrom_setUnready s h
  | destroyHandle h => exact steadyFrom_destroyHandle s h
  | cleanup c => exact steadyFrom_cleanup s c
  | destroyConnector c =>
    have hflag : SteadyFrom (s.cleanup env c) (s.destroyConnector env c) :=
      steadyFrom_modifyConnector _ c _
    exact (steadyFrom_cleanup s c).trans hflag
  | _ => cases hop

/-- **Every step** that meets the condition leaves every endpoint awake. -/
theorem Awake.step (hs : Awake s) {input : Environment × AppOp} (hcond : WakesSoon s input) :
    Awake (s.step input) := by
  obtain ⟨env, op⟩ := input
  cases op with
  | tick now =>
    have hold := hs.times
    have hle : s.lastTickTimepoint ≤ now := hcond
    refine ⟨⟨hold.running, hold.now.trans hle, hold.messageTimeout, hold.gcTimeout, hold.nearest,
      hold.gc, hold.expiry⟩, fun e halive => ?_⟩
    obtain ⟨hlisted, hfront, hsoon⟩ := hs.woken e halive
    refine ⟨hlisted, hfront, fun hne hready => (hsoon hne hready).trans ?_⟩
    exact Int.add_le_add_right hle _
  | stop => exact absurd hcond id
  | copyFrom node content =>
    have hold := hs.times
    refine ⟨⟨hold.running, hold.now, hold.messageTimeout, hold.gcTimeout, hold.nearest, hold.gc,
      hold.expiry⟩, fun e halive => ?_⟩
    obtain ⟨hlisted, hfront, hsoon⟩ := hs.woken e halive
    exact ⟨hlisted, hfront, hsoon⟩
  | mutableEndpoint discovery result => exact hs.mutableEndpoint discovery result
  | removeEndpointById id => exact hs.removeEndpointById id
  | removeEndpointByName name => exact hs.removeEndpointByName name
  | removeEndpoint e => exact hs.removeEndpoint e
  | pushForwardMessage e type sequence data metadata =>
    exact hs.pushForwardMessage e type sequence data metadata hcond
  | retryPendingMessages e tickTime maxCount =>
    exact awake_retryPendingMessages hs.times e tickTime maxCount (fun e' _ => hs.woken e')
      (fun halive hset _ => (hs.woken e halive).listed hset)
      (fun halive _ => (hs.woken e halive).wakesNext) hcond
  | processRound => exact hs.processRound hcond
  | destroyEndpoint e => exact hs.destroyEndpoint e
  | _ =>
    exact hs.steadyFrom (steadyFrom_step hcond rfl) (sameMessages_step env s rfl).queuesKept

theorem awake_init (conf : AppConf) {now : Int} (hnow : second ≤ now)
    (htimeout : 0 ≤ conf.getConfigureMessageTimeout) (hgc : 0 ≤ conf.endpointGcTimeout) :
    Awake (init conf now) := by
  refine ⟨⟨rfl, hnow, htimeout, hgc, fun _ => Or.inl rfl, fun _ h => ?_, fun _ _ h => ?_⟩,
    fun _ h => ?_⟩
  · exact absurd h Bool.false_ne_true
  · cases h
  · exact absurd h Bool.false_ne_true

/-- **Pending messages are woken in time.** In every run whose steps meet the condition, every live
    endpoint with a waker is listed in the map, an endpoint with pending messages wakes before its
    front message expires, and at the next tick if a bound ready handle with a connector could send
    them. The clock starts a second after the epoch or later, and no timeout is negative. -/
theorem always_allWokenInTime (conf : AppConf) {now : Int} (hnow : second ≤ now)
    (htimeout : 0 ≤ conf.getConfigureMessageTimeout) (hgc : 0 ≤ conf.endpointGcTimeout)
    (inputs : List (Environment × AppOp))
    (hcond : Run.StepsMeet step WakesSoon (init conf now) inputs) :
    Run.Always step AllWokenInTime (init conf now) inputs := by
  have hawake : Run.Always step Awake (init conf now) inputs :=
    Run.always_of_stepsMeet step (fun _ _ hs hmeet => hs.step hmeet)
      (awake_init conf hnow htimeout hgc) hcond
  exact Run.Always.mono step (fun _ hs => hs.woken) hawake

/-- Two messages wait for the handle of a new endpoint, and are sent at the tick after it becomes
    ready. -/
def waitingMessagesRun : List (Environment × AppOp) :=
  [({}, .copyFrom 0 { nodeInfo := { id := 1 } }), ({}, .mutableEndpoint (some 0) (some ⟨7, false⟩)),
    ({}, .pushForwardMessage 0 0 0 [1] none), ({}, .pushForwardMessage 0 0 0 [2] none),
    ({}, .setReady 0), ({}, .tick 2016000000), ({}, .processRound)]

theorem always_allWokenInTime_waitingMessagesRun :
    Run.Always step AllWokenInTime (init {} 2000000000) waitingMessagesRun := by
  refine always_allWokenInTime {} (by decide) (by decide) (by decide) waitingMessagesRun
    ⟨trivial, trivial, ?_, ?_, trivial, ?_, ?_, trivial⟩
  · show PushesSoon _ _ _ _
    decide +kernel
  · show PushesSoon _ _ _ _
    decide +kernel
  · show _ ≤ _
    decide +kernel
  · show ∀ e ∈ App.woken _ _, Drains _ _ e _ _
    decide +kernel

/-- The app sends one message in a round, and the second waits until it expires. -/
theorem not_always_allWokenInTime_waitingMessagesRun :
    let last := Run.run step (init { loopTimes := 1 } 2000000000) waitingMessagesRun
    (last.endpoint 0).alive = true ∧ last.pendingSerials 0 = [1] ∧ HasReady last 0 ∧
      last.getNextTickTime = 2024000000 ∧ (last.endpoint 0).nearestWaker = 10000000000 ∧
      ¬ Run.Always step AllWokenInTime (init { loopTimes := 1 } 2000000000) waitingMessagesRun := by
  refine ⟨by decide +kernel, by decide +kernel, by decide +kernel, by decide +kernel,
    by decide +kernel, fun halways => ?_⟩
  have hsoon := (halways.last step 0 (by decide +kernel)).soon (by decide +kernel)
    (by decide +kernel)
  exact absurd hsoon (by decide +kernel)

end LibAtapp.Connectors.App
