import LibAtapp.Connectors.Wakers

set_option autoImplicit false

/-! # Internal events

`app::process_internal_events` serves, round after round, the first due waker and the queue of the
loopback connector, until the clock reaches the end of the tick or a round handles no message. The
callbacks it makes can do anything to the app, so they are functions on the whole state. A waker can
be served without handling a message, and then the loop ends although other wakers may be due. -/

namespace LibAtapp.Connectors

/-! ## The state and the callbacks -/

/-- `atapp_connector_loopback::pending_message_t`. -/
structure LoopbackMessage where
  type : Int
  messageSequence : Nat
  data : Bytes
  metadata : Option AtappMetadata
  deriving DecidableEq

/-- The queue of `atapp_connector_loopback`. -/
structure AtappConnectorLoopback where
  pendingMessage : List LoopbackMessage := []
  pendingMessageSize : Nat := 0

/-- The app with its loopback connector, and how often the clock was read and callbacks were made,
    so that both can depend on it. -/
structure World where
  app : App
  loopbackConnector : Option AtappConnectorLoopback := some {}
  readings : Nat := 0
  calls : Nat := 0

/-- What internal events meet outside: the clock at each reading, `on_send_forward_request` of the
    connectors, and the callbacks of the app for failed and for received messages. -/
structure Callbacks where
  getSysNow : Nat → Int
  onSendForwardRequest : EndpointPtr → HandlePtr → PendingMessage → World → World × ErrorCode :=
    fun _ _ _ w => (w, .success)
  onForwardResponse : EndpointPtr → Option ConnectorPtr → PendingMessage → ErrorCode → World →
    World := fun _ _ _ _ w => w
  onForwardRequest : LoopbackMessage → World → World := fun _ w => w

namespace World

variable (env : Environment) (cb : Callbacks) (w : World)

/-- The queue of the loopback connector, if there is one. -/
def loopbackPending : List LoopbackMessage :=
  (w.loopbackConnector.map AtappConnectorLoopback.pendingMessage).getD []

/-- Change the app. -/
def withApp (app : App) : World := { w with app := app }

/-- A callback is about to be made. -/
def called : World := { w with calls := w.calls + 1 }

/-- The clock has been read. -/
def read : World := { w with readings := w.readings + 1 }

/-! ## Retrying with callbacks -/

/-- The loop of `retry_pending_messages`. The callbacks can push further messages, so the number of
    iterations is bounded by the first argument only. -/
def retryLoop (e : EndpointPtr) (target : Option (HandlePtr × ConnectorPtr)) (tickTime : Int) :
    Nat → World → Int → Option (World × Int)
  | 0, _, _ => none
  | fuel + 1, w, maxCount =>
    match (w.app.endpoint e).pendingMessage with
    | [] => some (w, 0)
    | msg :: _ =>
      match target, decide (maxCount > 0) with
      | some (h, c), true =>
        let (w, code) := cb.onSendForwardRequest e h msg w.called
        let w := if code = .success then w else cb.onForwardResponse e (some c) msg code w.called
        (retryLoop e target tickTime fuel (w.withApp (w.app.popPending e msg)) (maxCount - 1)).map
          fun r => (r.1, r.2 + 1)
      | _, _ =>
        if msg.expiredTimepoint > tickTime ∨ maxCount ≤ 0 then some (w, 0)
        else
          let w := cb.onForwardResponse e (target.map Prod.snd) msg .nodeTimeout w.called
          (retryLoop e target tickTime fuel (w.withApp (w.app.popPending e msg)) maxCount).map
            fun r => (r.1, r.2 + 1)

/-- The ready handle of the endpoint with its connector, which `retry_pending_messages` uses. -/
def retryTarget (e : EndpointPtr) : Option (HandlePtr × ConnectorPtr) :=
  (w.app.getReadyConnectionHandle env e).bind fun h =>
    (w.app.handle h).connector.map fun c => (h, c)

/-- `retry_pending_messages` before its loop: a waker that is not later than the tick is spent. -/
def spendWaker (e : EndpointPtr) (tickTime : Int) : World :=
  if (w.app.endpoint e).nearestWaker ≤ tickTime then
    w.withApp (w.app.modifyEndpoint e fun ep => { ep with nearestWaker := 0 })
  else w

/-- `retry_pending_messages` after its loop: the counter of an empty queue is cleared, else the
    waker is armed at the expiry of the first message. -/
def settlePending (e : EndpointPtr) : World :=
  match (w.app.endpoint e).pendingMessage with
  | [] => w.withApp (w.app.modifyEndpoint e fun ep => { ep with pendingMessageSize := 0 })
  | msg :: _ => w.withApp (w.app.addWaker e msg.expiredTimepoint)

/-- `retry_pending_messages`. -/
def retryPendingMessages (fuel : Nat) (e : EndpointPtr) (tickTime maxCount : Int) :
    Option (World × Int) :=
  let w := w.spendWaker e tickTime
  if (w.app.endpoint e).pendingMessage = [] then some (w, 0)
  else
    let maxCount := if maxCount ≤ 0 then App.int32Max else maxCount
    (retryLoop cb e (w.retryTarget env e) tickTime fuel w maxCount).map
      fun r => (r.1.settlePending e, r.2)

/-! ## The loopback connector -/

/-- Take a message off the front of the loopback queue. -/
def popLoopback (msg : LoopbackMessage) : World :=
  { w with
    loopbackConnector := w.loopbackConnector.map fun c =>
      { pendingMessage := c.pendingMessage.tail
        pendingMessageSize := if c.pendingMessageSize ≥ msg.data.length then
          c.pendingMessageSize - msg.data.length else 0 } }

/-- The inner loop of `atapp_connector_loopback::process`: up to `limit` messages. -/
def processMessages : Nat → World → World × Int
  | 0, w => (w, 0)
  | limit + 1, w =>
    match w.loopbackPending with
    | [] => (w, 0)
    | msg :: _ =>
      let (w, ret) := processMessages limit ((cb.onForwardRequest msg w.called).popLoopback msg)
      (w, ret + 1)

/-- How many messages the inner loop takes before the clock is read. -/
def messageLimit (maxLoopMessages : Int) : Nat :=
  let maxLoopMessages := if maxLoopMessages ≤ 0 then 1000 else maxLoopMessages
  (if maxLoopMessages > 10 then maxLoopMessages / 10 else maxLoopMessages).toNat

/-- `atapp_connector_loopback::process`. -/
def processLoopback (maxEndTimepoint : Int) (limit : Nat) : Nat → World → Option (World × Int)
  | 0, _ => none
  | fuel + 1, w =>
    if w.loopbackPending = [] then some (w, 0)
    else
      let (w, ret) := processMessages cb limit w
      if cb.getSysNow w.readings ≥ maxEndTimepoint then some (w.read, ret)
      else (processLoopback maxEndTimepoint limit fuel w.read).map fun r => (r.1, ret + r.2)

/-! ## Rounds -/

/-- The part of a round that serves the first waker if it is due. An endpoint is only recycled when
    it has no handle, and closing it then makes no callback. -/
def serveWaker (fuel : Nat) : Option (World × Int) :=
  match w.app.wakerBegin env with
  | none => some (w, 0)
  | some key =>
    if key.1 ≤ w.app.lastTickTimepoint then
      let w := w.withApp (w.app.eraseWaker key)
      match key.2.filter fun e => (w.app.endpoint e).alive with
      | none => some (w, 0)
      | some e =>
        (w.retryPendingMessages env cb fuel e w.app.lastTickTimepoint w.app.conf.loopTimes).map
          fun r => (r.1.withApp (r.1.app.recycle env e), if r.2 > 0 then r.2 else 0)
    else some (w, 0)

/-- One round of the loop of `process_internal_events`, with the messages it handled. -/
def processRound (endTick : Int) (fuel : Nat) : Option (World × Int) :=
  (w.serveWaker env cb fuel).bind fun r =>
    match r.1.loopbackConnector with
    | none => some r
    | some _ =>
      (processLoopback cb endTick (messageLimit r.1.app.conf.loopTimes) fuel r.1).map
        fun l => (l.1, r.2 + l.2)

/-- What a call of `process_internal_events` leaves: the state, the messages it handled, and the
    clock when the loop ended. -/
structure Processed where
  world : World
  ret : Int
  clock : Int

/-- `process_internal_events`, if it returns within this number of rounds. -/
def processInternalEvents (endTick : Int) : Nat → World → Option Processed
  | 0, _ => none
  | fuel + 1, w =>
    (w.processRound env cb endTick fuel).bind fun r =>
      let clock := cb.getSysNow r.1.readings
      if clock < endTick ∧ r.2 > 0 then
        (processInternalEvents endTick fuel r.1.read).map fun p => { p with ret := r.2 + p.ret }
      else some { world := r.1.read, ret := if r.2 > 0 then r.2 else 0, clock := clock }

/-- The states in which the rounds of a call start. -/
def roundStarts (endTick : Int) : Nat → World → List World
  | 0, _ => []
  | fuel + 1, w =>
    w :: match w.processRound env cb endTick fuel with
      | none => []
      | some r =>
        if cb.getSysNow r.1.readings < endTick ∧ r.2 > 0 then
          roundStarts endTick fuel r.1.read
        else []

/-! ## What is due -/

/-- The time of the waker has come. -/
def Due (key : WakerKey) : Prop := key.1 ≤ w.app.lastTickTimepoint

instance (key : WakerKey) : Decidable (w.Due key) := inferInstanceAs (Decidable (_ ≤ _))

/-- No waker is due and no loopback message waits. -/
def AllServed : Prop := (∀ key ∈ w.app.endpointWaker, ¬ w.Due key) ∧ w.loopbackPending = []

instance : Decidable w.AllServed :=
  inferInstanceAs (Decidable ((∀ key ∈ w.app.endpointWaker, _) ∧ _))

/-- Waking the endpoint sends nothing: the weak pointer has expired, the queue is empty, or there is
    no ready connection and the first message has time left. -/
def WakesInVain (e : EndpointPtr) : Prop :=
  (w.app.endpoint e).alive = true → (w.app.endpoint e).pendingMessage ≠ [] →
    w.retryTarget env e = none ∧
      ∀ msg ∈ (w.app.endpoint e).pendingMessage.head?, w.app.lastTickTimepoint < msg.expiredTimepoint

instance (e : EndpointPtr) : Decidable (w.WakesInVain env e) :=
  inferInstanceAs (Decidable (_ → _ → _ ∧ ∀ msg ∈ (w.app.endpoint e).pendingMessage.head?, _))

/-- The round will handle nothing although another waker than the first one is due. -/
def Starves : Prop :=
  w.loopbackPending = [] ∧ ∃ key ∈ w.app.wakerBegin env, w.Due key ∧
    (∀ e ∈ key.2, w.WakesInVain env e) ∧ ∃ other ∈ w.app.endpointWaker, other ≠ key ∧ w.Due other

instance : Decidable (w.Starves env) :=
  inferInstanceAs (Decidable (_ ∧ ∃ key ∈ w.app.wakerBegin env, _ ∧ (∀ e ∈ key.2, _) ∧
    ∃ other ∈ w.app.endpointWaker, _))

end World

/-! ## Operations that change no due waker -/

namespace App

variable {env : Environment} {s t u : App} {e : EndpointPtr}

/-- The due wakers are the same. -/
structure SameDue (s t : App) : Prop where
  lastTick : t.lastTickTimepoint = s.lastTickTimepoint
  due : ∀ key : WakerKey, key.1 ≤ s.lastTickTimepoint →
    (key ∈ t.endpointWaker ↔ key ∈ s.endpointWaker)

theorem SameDue.refl (s : App) : SameDue s s := ⟨rfl, fun _ _ => Iff.rfl⟩

theorem SameDue.trans (hst : SameDue s t) (htu : SameDue t u) : SameDue s u where
  lastTick := htu.lastTick.trans hst.lastTick
  due := fun key hkey => (htu.due key (hst.lastTick ▸ hkey)).trans (hst.due key hkey)

/-- Arming a waker for a later time adds no due waker, and the waker it replaces is later still. -/
theorem sameDue_addWaker (s : App) (e : EndpointPtr) {time : Int}
    (htime : s.lastTickTimepoint < time) : SameDue s (s.addWaker e time) := by
  refine ⟨?_, fun key hkey => ?_⟩
  · obtain ⟨h, -⟩ | ⟨-, -, _, -, -, h⟩ := s.addWaker_cases e time <;> rw [h]
  · have hnew : ∀ ep, key ≠ (time, ep) := by
      rintro ep rfl
      exact absurd hkey (not_le.2 htime)
    unfold addWaker addEndpointWaker
    split
    · cases hclosing : s.isClosing with
      | true => simp
      | false =>
        simp only [Bool.false_eq_true, if_false, modifyEndpoint]
        generalize (if (s.endpoint e).alive then some e else none) = ep
        split
        · next hprevious =>
          have hold : key ≠ ((s.endpoint e).nearestWaker, ep) := by
            rintro rfl
            dsimp only at hkey
            omega
          simp [List.mem_filter, List.mem_insert_iff, hnew ep, hold]
        · simp [List.mem_insert_iff, hnew ep]
    · exact Iff.rfl

theorem sameDue_modifyEndpoint (s : App) (e : EndpointPtr) (f : AtappEndpoint → AtappEndpoint) :
    SameDue s (s.modifyEndpoint e f) := ⟨rfl, fun _ _ => Iff.rfl⟩

/-- Closing an endpoint without handles touches no waker and makes no callback. -/
theorem sameDue_resetEndpoint (hempty : (s.endpoint e).referConnections = []) :
    SameDue s (s.resetEndpoint env e) := by
  unfold resetEndpoint
  split
  · exact SameDue.refl s
  · have hwalk : env.walk [] = [] := List.Perm.eq_nil (env.walk_perm [])
    have hcancel : (s.modifyEndpoint e fun ep => { ep with closing := true }).cancelPendingMessages
        env e = s.modifyEndpoint e fun ep => { ep with closing := true } := by
      simp [cancelPendingMessages, getReadyConnectionHandle, readyConnector, hempty, hwalk]
    have hunbind : ((s.modifyEndpoint e fun ep => { ep with closing := true }).endpoint
        e).referConnections = [] := by simp [hempty]
    dsimp only
    rw [hcancel, unbindAll, hunbind, hwalk]
    exact ⟨rfl, fun _ _ => Iff.rfl⟩

theorem sameDue_withIndexes (s : App) (byId : Nat → Option EndpointPtr)
    (byName : Bytes → Option EndpointPtr) : SameDue s (s.withIndexes byId byName) :=
  ⟨rfl, fun _ _ => Iff.rfl⟩

theorem sameDue_recycle (env : Environment) (s : App) (e : EndpointPtr) :
    SameDue s (s.recycle env e) := by
  unfold recycle
  split
  · next hempty =>
    have hempty := List.isEmpty_iff.1 hempty
    split
    · unfold removeEndpoint
      obtain ⟨byId, hid⟩ := s.eraseIdOf_eq e (s.getId e)
      rw [hid]
      obtain ⟨byName, hname⟩ := (s.withIndexes byId s.endpointIndexByName).eraseNameOf_eq e
        ((s.withIndexes byId s.endpointIndexByName).getName e)
      dsimp only
      rw [hname]
      exact ((sameDue_withIndexes s _ _).trans (sameDue_withIndexes _ _ _)).trans
        (sameDue_resetEndpoint hempty)
    · next hlate => exact sameDue_addWaker s e (by omega)
  · exact SameDue.refl s

/-- The first waker is no later than any other. -/
theorem wakerBegin_le {key other : WakerKey} (hkey : s.wakerBegin env = some key)
    (hother : other ∈ s.endpointWaker) : key.1 ≤ other.1 := by
  have hfold : ∀ (keys : List WakerKey) (best : Option WakerKey) (k : WakerKey),
      keys.foldl earlierWaker best = some k →
      (∀ b ∈ best, k.1 ≤ b.1) ∧ ∀ o ∈ keys, k.1 ≤ o.1 := by
    intro keys
    induction keys with
    | nil =>
      rintro best k rfl
      exact ⟨fun b hb => by rw [Option.some.inj hb], by simp⟩
    | cons head keys ih =>
      intro best k hk
      obtain ⟨hbest, hrest⟩ := ih _ k hk
      -- the better of the two is no later than either
      have hboth : (∀ b ∈ best, k.1 ≤ b.1) ∧ k.1 ≤ head.1 := by
        cases best with
        | none => exact ⟨by simp, hbest head rfl⟩
        | some b =>
          by_cases hlt : head.1 < b.1
          · have hle := hbest head (by simp [earlierWaker, hlt])
            exact ⟨fun b' hb' => by obtain rfl := Option.some.inj hb'; omega, hle⟩
          · have hle := hbest b (by simp [earlierWaker, hlt])
            exact ⟨fun b' hb' => by obtain rfl := Option.some.inj hb'; omega, by omega⟩
      refine ⟨hboth.1, fun o ho => ?_⟩
      rcases List.mem_cons.1 ho with rfl | ho
      · exact hboth.2
      · exact hrest o ho
  exact (hfold _ none key hkey).2 other ((env.wakers_perm _).mem_iff.2 hother)

/-- Where there are wakers there is a first one. -/
theorem exists_wakerBegin (env : Environment) {other : WakerKey}
    (hother : other ∈ s.endpointWaker) : ∃ key, s.wakerBegin env = some key := by
  have hfold : ∀ (keys : List WakerKey) (best : Option WakerKey),
      (best ≠ none ∨ keys ≠ []) → ∃ k, keys.foldl earlierWaker best = some k := by
    intro keys
    induction keys with
    | nil =>
      rintro (_ | b) h
      · simp at h
      · exact ⟨b, rfl⟩
    | cons head keys ih =>
      intro best _
      refine ih _ (Or.inl ?_)
      unfold earlierWaker
      split
      · simp
      · split <;> simp
  refine hfold _ none (Or.inr ?_)
  exact List.ne_nil_of_mem ((env.wakers_perm _).mem_iff.2 hother)

end App

/-! ## Rounds that handle nothing -/

namespace World

open App (SameDue)

variable {env : Environment} {cb : Callbacks} {w v : World} {e : EndpointPtr} {fuel : Nat}

/-- Nothing but wakers that are not due and the bookkeeping of endpoints changed, and no callback was
    made. -/
structure Idle (w v : World) : Prop where
  due : SameDue w.app v.app
  loopback : v.loopbackConnector = w.loopbackConnector
  readings : v.readings = w.readings

theorem Idle.refl (w : World) : Idle w w := ⟨SameDue.refl _, rfl, rfl⟩

theorem Idle.withApp {app : App} (h : Idle w v) (happ : SameDue v.app app) :
    Idle w (v.withApp app) := ⟨h.due.trans happ, h.loopback, h.readings⟩

theorem idle_spendWaker (w : World) (e : EndpointPtr) (tickTime : Int) :
    Idle w (w.spendWaker e tickTime) := by
  unfold spendWaker
  split
  · exact (Idle.refl w).withApp (App.sameDue_modifyEndpoint _ _ _)
  · exact Idle.refl w

theorem pendingMessage_spendWaker (w : World) (e : EndpointPtr) (tickTime : Int) :
    ((w.spendWaker e tickTime).app.endpoint e).pendingMessage =
      (w.app.endpoint e).pendingMessage := by
  unfold spendWaker
  split
  · simp [withApp]
  · rfl

theorem retryTarget_spendWaker (w : World) (e : EndpointPtr) (tickTime : Int) :
    (w.spendWaker e tickTime).retryTarget env e = w.retryTarget env e := by
  unfold spendWaker
  split
  · simp [withApp, retryTarget, App.getReadyConnectionHandle]
  · rfl

/-- The loop handles at least the first message if there is a connection or no time left. -/
theorem retryLoop_pos {target : Option (HandlePtr × ConnectorPtr)} {tickTime maxCount : Int}
    {r : World × Int} (hr : w.retryLoop cb e target tickTime fuel maxCount = some r) : 0 ≤ r.2 := by
  induction fuel generalizing w maxCount r with
  | zero => simp [retryLoop] at hr
  | succ fuel ih =>
    rw [retryLoop.eq_def] at hr
    dsimp only at hr
    split at hr
    · obtain rfl := Option.some.inj hr
      exact le_refl _
    · split at hr
      · obtain ⟨r', hr', rfl⟩ := Option.map_eq_some_iff.1 hr
        have := ih hr'
        dsimp only
        omega
      · split at hr
        · obtain rfl := Option.some.inj hr
          exact le_refl _
        · obtain ⟨r', hr', rfl⟩ := Option.map_eq_some_iff.1 hr
          have := ih hr'
          dsimp only
          omega

/-- The connection that a retry finds, or the time left to the first message, decides whether the
    retry handles a message. -/
theorem retryPendingMessages_spec {maxCount : Int} {r : World × Int}
    (hr : w.retryPendingMessages env cb fuel e w.app.lastTickTimepoint maxCount = some r) :
    ((((w.app.endpoint e).pendingMessage ≠ [] → w.retryTarget env e = none ∧
        ∀ msg ∈ (w.app.endpoint e).pendingMessage.head?,
          w.app.lastTickTimepoint < msg.expiredTimepoint) ∧ r.2 = 0 ∧ Idle w r.1)) ∨
      (¬ ((w.app.endpoint e).pendingMessage ≠ [] → w.retryTarget env e = none ∧
        ∀ msg ∈ (w.app.endpoint e).pendingMessage.head?,
          w.app.lastTickTimepoint < msg.expiredTimepoint) ∧ 0 < r.2) := by
  have hpending := pendingMessage_spendWaker w e w.app.lastTickTimepoint
  have htarget : (w.spendWaker e w.app.lastTickTimepoint).retryTarget env e =
      w.retryTarget env e := retryTarget_spendWaker w e w.app.lastTickTimepoint
  have hidle := idle_spendWaker w e w.app.lastTickTimepoint
  rw [retryPendingMessages] at hr
  dsimp only at hr
  rw [htarget] at hr
  generalize w.spendWaker e w.app.lastTickTimepoint = v at hr hpending htarget hidle
  cases hqueue : (w.app.endpoint e).pendingMessage with
  | nil =>
    rw [hpending, hqueue, if_pos rfl] at hr
    obtain rfl := Option.some.inj hr
    exact Or.inl ⟨fun h => absurd rfl h, rfl, hidle⟩
  | cons msg msgs =>
    rw [hpending, hqueue, if_neg (List.cons_ne_nil _ _)] at hr
    obtain ⟨r', hr', rfl⟩ := Option.map_eq_some_iff.1 hr
    rw [hqueue] at hpending
    have hmax : 0 < (if maxCount ≤ 0 then App.int32Max else maxCount) := by
      split
      · decide
      · omega
    generalize (if maxCount ≤ 0 then App.int32Max else maxCount) = maxCount at hr' hmax
    cases fuel with
    | zero => simp [retryLoop] at hr'
    | succ fuel =>
      rw [retryLoop.eq_def] at hr'
      simp only [hpending] at hr'
      cases htarget' : w.retryTarget env e with
      | some target =>
        -- the first message is sent
        simp only [htarget', decide_eq_true hmax] at hr'
        obtain ⟨r'', hr'', rfl⟩ := Option.map_eq_some_iff.1 hr'
        have hpos := retryLoop_pos hr''
        refine Or.inr ⟨fun h => absurd (h (List.cons_ne_nil _ _)).1 (Option.some_ne_none _), ?_⟩
        dsimp only
        omega
      | none =>
        simp only [htarget'] at hr'
        by_cases hlate : w.app.lastTickTimepoint < msg.expiredTimepoint
        · rw [if_pos (Or.inl hlate)] at hr'
          obtain rfl := Option.some.inj hr'
          refine Or.inl ⟨fun _ => ⟨rfl, by simpa using hlate⟩, rfl, ?_⟩
          have hsettle : v.settlePending e = v.withApp (v.app.addWaker e msg.expiredTimepoint) := by
            rw [settlePending, hpending]
          rw [hsettle]
          exact hidle.withApp (App.sameDue_addWaker v.app e (hidle.due.lastTick ▸ hlate))
        · rw [if_neg (by omega)] at hr'
          obtain ⟨r'', hr'', rfl⟩ := Option.map_eq_some_iff.1 hr'
          have hpos := retryLoop_pos hr''
          refine Or.inr ⟨fun h => hlate (by simpa using (h (List.cons_ne_nil _ _)).2), ?_⟩
          dsimp only
          omega

/-- A round that serves the first waker in vain leaves the other due wakers; one that does not
    handles a message. -/
theorem serveWaker_spec {r : World × Int} (hr : w.serveWaker env cb fuel = some r) :
    (r.2 = 0 ∧ r.1.loopbackConnector = w.loopbackConnector ∧ r.1.readings = w.readings ∧
      ((∃ key ∈ r.1.app.endpointWaker, r.1.Due key) ↔
        ∃ key ∈ w.app.wakerBegin env, w.Due key ∧
          ∃ other ∈ w.app.endpointWaker, other ≠ key ∧ w.Due other) ∧
      ∀ key ∈ w.app.wakerBegin env, w.Due key → ∀ e ∈ key.2, w.WakesInVain env e) ∨
    (0 < r.2 ∧ ∃ key ∈ w.app.wakerBegin env, w.Due key ∧ ∃ e ∈ key.2, ¬ w.WakesInVain env e) := by
  rw [serveWaker] at hr
  cases hbegin : w.app.wakerBegin env with
  | none =>
    rw [hbegin] at hr
    obtain rfl := Option.some.inj hr
    refine Or.inl ⟨rfl, rfl, rfl, ⟨?_, by simp⟩, by simp⟩
    rintro ⟨key, hkey, -⟩
    obtain ⟨first, hfirst⟩ := App.exists_wakerBegin env hkey
    rw [hbegin] at hfirst
    exact absurd hfirst.symm (Option.some_ne_none _)
  | some key =>
    simp only [hbegin] at hr
    by_cases hdue : key.1 ≤ w.app.lastTickTimepoint
    · rw [if_pos hdue] at hr
      -- the due wakers that are left, after what follows changed none of them
      have hleft : ∀ u : World, Idle (w.withApp (w.app.eraseWaker key)) u →
          u.loopbackConnector = w.loopbackConnector ∧ u.readings = w.readings ∧
          ((∃ other ∈ u.app.endpointWaker, u.Due other) ↔
            ∃ first ∈ (some key : Option WakerKey), w.Due first ∧
              ∃ other ∈ w.app.endpointWaker, other ≠ first ∧ w.Due other) := by
        intro u hu
        have hmem : ∀ other : WakerKey, other.1 ≤ w.app.lastTickTimepoint →
            (other ∈ u.app.endpointWaker ↔ other ∈ w.app.endpointWaker ∧ other ≠ key) := by
          intro other hother
          rw [hu.due.due other hother]
          simp [withApp, App.eraseWaker, List.mem_filter]
        have htick : u.app.lastTickTimepoint = w.app.lastTickTimepoint := hu.due.lastTick
        refine ⟨hu.loopback, hu.readings, ?_⟩
        constructor
        · rintro ⟨other, hother, hd⟩
          rw [Due, htick] at hd
          obtain ⟨hw, hne⟩ := (hmem other hd).1 hother
          exact ⟨key, rfl, hdue, other, hw, hne, hd⟩
        · rintro ⟨first, hfirst, -, other, hother, hne, hd⟩
          obtain rfl := Option.some.inj hfirst
          refine ⟨other, (hmem other hd).2 ⟨hother, hne⟩, ?_⟩
          rw [Due, htick]
          exact hd
      cases hlock : key.2.filter fun e => (w.app.endpoint e).alive with
      | none =>
        have hlock' : (key.2.filter fun e => ((w.withApp (w.app.eraseWaker key)).app.endpoint
            e).alive) = none := hlock
        rw [hlock'] at hr
        obtain rfl := Option.some.inj hr
        obtain ⟨h1, h2, h3⟩ := hleft _ (Idle.refl _)
        refine Or.inl ⟨rfl, h1, h2, h3, ?_⟩
        rintro first hfirst - e he halive
        obtain rfl := Option.some.inj hfirst
        have hkey : key.2 = some e := he
        rw [hkey] at hlock
        simp [Option.filter, halive] at hlock
      | some e =>
        have hlock' : (key.2.filter fun e => ((w.withApp (w.app.eraseWaker key)).app.endpoint
            e).alive) = some e := hlock
        rw [hlock'] at hr
        obtain ⟨r', hr', rfl⟩ := Option.map_eq_some_iff.1 hr
        obtain ⟨hkey, halive⟩ := Option.filter_eq_some_iff.1 hlock
        have hspec := retryPendingMessages_spec hr'
        have hvain : (((w.withApp (w.app.eraseWaker key)).app.endpoint e).pendingMessage ≠ [] →
            (w.withApp (w.app.eraseWaker key)).retryTarget env e = none ∧
            ∀ msg ∈ ((w.withApp (w.app.eraseWaker key)).app.endpoint e).pendingMessage.head?,
              (w.withApp (w.app.eraseWaker key)).app.lastTickTimepoint < msg.expiredTimepoint) ↔
            w.WakesInVain env e :=
          ⟨fun h _ hne => h hne, fun h hne => h halive hne⟩
        rw [hvain] at hspec
        rcases hspec with ⟨hvain, hzero, hidle⟩ | ⟨hnot, hpos⟩
        · obtain ⟨h1, h2, h3⟩ := hleft _ (hidle.withApp (App.sameDue_recycle env r'.1.app e))
          refine Or.inl ⟨by simp [hzero], h1, h2, h3, ?_⟩
          rintro first hfirst - e' he'
          obtain rfl := Option.some.inj hfirst
          obtain rfl : e = e' := Option.some.inj (hkey.symm.trans he')
          exact hvain
        · refine Or.inr ⟨by dsimp only; rw [if_pos hpos]; exact hpos, key, rfl, hdue, e, hkey, hnot⟩
    · rw [if_neg hdue] at hr
      obtain rfl := Option.some.inj hr
      refine Or.inl ⟨rfl, rfl, rfl, ⟨?_, ?_⟩, ?_⟩
      · rintro ⟨other, hother, hd⟩
        exact absurd ((App.wakerBegin_le hbegin hother).trans hd) hdue
      · rintro ⟨first, hfirst, hd, -⟩
        obtain rfl := Option.some.inj hfirst
        exact absurd hd hdue
      · rintro first hfirst hd
        obtain rfl := Option.some.inj hfirst
        exact absurd hd hdue

theorem messageLimit_pos (maxLoopMessages : Int) : 0 < messageLimit maxLoopMessages := by
  unfold messageLimit
  dsimp only
  split_ifs <;> omega

theorem processMessages_nonneg (cb : Callbacks) (limit : Nat) (w : World) :
    0 ≤ (processMessages cb limit w).2 := by
  induction limit generalizing w with
  | zero => exact le_refl _
  | succ limit ih =>
    rw [processMessages]
    split
    · exact le_refl _
    · next msg msgs _ =>
      have := ih ((cb.onForwardRequest msg w.called).popLoopback msg)
      dsimp only
      omega

/-- The loopback connector handles a message exactly if one waits. -/
theorem processLoopback_spec {endTick : Int} {limit : Nat} (hlimit : 0 < limit) {r : World × Int}
    (hr : processLoopback cb endTick limit fuel w = some r) :
    (w.loopbackPending = [] ∧ r = (w, 0)) ∨ (w.loopbackPending ≠ [] ∧ 0 < r.2) := by
  induction fuel generalizing w r with
  | zero => simp [processLoopback] at hr
  | succ fuel ih =>
    rw [processLoopback] at hr
    by_cases hempty : w.loopbackPending = []
    · rw [if_pos hempty] at hr
      exact Or.inl ⟨hempty, (Option.some.inj hr).symm⟩
    · rw [if_neg hempty] at hr
      have hpos : 0 < (processMessages cb limit w).2 := by
        obtain ⟨limit, rfl⟩ := Nat.exists_eq_succ_of_ne_zero hlimit.ne'
        rw [processMessages]
        split
        · next hnil => exact absurd hnil hempty
        · next msg msgs _ =>
          have := processMessages_nonneg cb limit
            ((cb.onForwardRequest msg w.called).popLoopback msg)
          dsimp only
          omega
      refine Or.inr ⟨hempty, ?_⟩
      dsimp only at hr
      split at hr
      · obtain rfl := Option.some.inj hr
        exact hpos
      · obtain ⟨r', hr', rfl⟩ := Option.map_eq_some_iff.1 hr
        have hrest : 0 ≤ r'.2 := by
          rcases ih hr' with ⟨-, rfl⟩ | ⟨-, h⟩
          · exact le_refl _
          · exact h.le
        dsimp only
        omega

theorem loopbackPending_of_none (h : w.loopbackConnector = none) : w.loopbackPending = [] := by
  simp [loopbackPending, h]

/-- A round that handles nothing reads no clock, and leaves a due waker exactly if it starves one. -/
theorem processRound_spec {endTick : Int} {r : World × Int}
    (hr : w.processRound env cb endTick fuel = some r) :
    (r.2 = 0 ∧ r.1.readings = w.readings ∧ (r.1.AllServed ↔ ¬ w.Starves env)) ∨
      (0 < r.2 ∧ ¬ w.Starves env) := by
  rw [processRound] at hr
  obtain ⟨r', hserve, hr⟩ := Option.bind_eq_some_iff.1 hr
  -- what the loopback connector adds
  have hloop : (r'.1.loopbackPending = [] ∧ r = r') ∨
      (r'.1.loopbackPending ≠ [] ∧ r'.2 < r.2) := by
    cases hconnector : r'.1.loopbackConnector with
    | none =>
      simp only [hconnector] at hr
      exact Or.inl ⟨loopbackPending_of_none hconnector, (Option.some.inj hr).symm⟩
    | some c =>
      simp only [hconnector] at hr
      obtain ⟨l, hl, rfl⟩ := Option.map_eq_some_iff.1 hr
      rcases processLoopback_spec (messageLimit_pos _) hl with ⟨hempty, rfl⟩ | ⟨hne, hpos⟩
      · exact Or.inl ⟨hempty, by simp⟩
      · exact Or.inr ⟨hne, by dsimp only; omega⟩
  rcases serveWaker_spec hserve with ⟨hzero, hconnector, hreadings, hleft, hvain⟩ |
    ⟨hpos, key, hkey, hdue, e, he, hnot⟩
  · have hpending : r'.1.loopbackPending = w.loopbackPending := by
      rw [loopbackPending, hconnector, loopbackPending]
    have hstarves : w.Starves env ↔ w.loopbackPending = [] ∧
        ∃ other ∈ r'.1.app.endpointWaker, r'.1.Due other := by
      rw [hleft]
      refine and_congr_right fun _ => ⟨?_, ?_⟩
      · rintro ⟨key, hkey, hdue, -, hother⟩
        exact ⟨key, hkey, hdue, hother⟩
      · rintro ⟨key, hkey, hdue, hother⟩
        exact ⟨key, hkey, hdue, hvain key hkey hdue, hother⟩
    rcases hloop with ⟨hempty, rfl⟩ | ⟨hne, hmore⟩
    · refine Or.inl ⟨hzero, hreadings, ?_⟩
      rw [hstarves, AllServed, ← hpending]
      simp [hempty]
    · refine Or.inr ⟨by omega, fun hs => hne (hpending.trans hs.1)⟩
  · refine Or.inr ⟨?_, ?_⟩
    · rcases hloop with ⟨-, rfl⟩ | ⟨-, hmore⟩
      · exact hpos
      · omega
    · rintro ⟨-, key', hkey', -, hall, -⟩
      obtain rfl : key = key' := Option.some.inj (hkey.symm.trans hkey')
      exact hnot (hall e he)

/-- **Due endpoints are served**: when `process_internal_events` returns, the clock has reached the
    end of the tick or nothing due is left, exactly if none of its rounds serves a waker in vain, with
    nothing in the loopback queue and time left, while another waker is due. -/
theorem processInternalEvents_served_iff {endTick : Int} {p : Processed}
    (hp : processInternalEvents env cb endTick fuel w = some p) :
    (endTick ≤ p.clock ∨ p.world.AllServed) ↔
      ∀ v ∈ roundStarts env cb endTick fuel w, v.Starves env →
        endTick ≤ cb.getSysNow v.readings := by
  induction fuel generalizing w p with
  | zero => simp [processInternalEvents] at hp
  | succ fuel ih =>
    rw [processInternalEvents] at hp
    obtain ⟨r, hround, hp⟩ := Option.bind_eq_some_iff.1 hp
    have hspec := processRound_spec hround
    rw [roundStarts, hround]
    dsimp only at hp ⊢
    by_cases hmore : cb.getSysNow r.1.readings < endTick ∧ r.2 > 0
    · -- the round handled a message, and the loop goes on
      rw [if_pos hmore] at hp ⊢
      obtain ⟨p', hp', rfl⟩ := Option.map_eq_some_iff.1 hp
      have hnot : ¬ w.Starves env := by
        rcases hspec with ⟨hzero, -⟩ | ⟨-, hnot⟩
        · omega
        · exact hnot
      rw [List.forall_mem_cons]
      exact (ih hp').trans ⟨fun h => ⟨fun hs => absurd hs hnot, h⟩, fun h => h.2⟩
    · rw [if_neg hmore] at hp ⊢
      obtain rfl := Option.some.inj hp
      rw [List.forall_mem_singleton]
      have hread : r.1.read.AllServed ↔ r.1.AllServed := Iff.rfl
      dsimp only
      rw [hread]
      rcases hspec with ⟨-, hreadings, hserved⟩ | ⟨hpos, hnot⟩
      · rw [hserved, hreadings]
        by_cases hs : w.Starves env
        · simp [hs]
        · simp [hs]
      · have hclock : endTick ≤ cb.getSysNow r.1.readings := by omega
        exact iff_of_true (Or.inl hclock) fun hs => absurd hs hnot

/-! ## Two due wakers -/

/-- Two endpoints without connections, the first with an empty queue and the second with a message
    whose time is over, and these wakers. -/
def dueWorld (wakers : List WakerKey) : World where
  app :=
    { conf := {}
      lastTickTimepoint := 70000000000
      endpoint := fun e =>
        { alive := true
          gcTimepoint := 90000000000
          pendingMessage := if e = 2 then
            [{ serial := 0, expiredTimepoint := 69000000000, type := 1, messageSequence := 1,
               data := [0], metadata := none }] else []
          pendingMessageSize := if e = 2 then 1 else 0 }
      endpointWaker := wakers }

/-- The clock stands still, and the callbacks do nothing. -/
def idleCallbacks : Callbacks where
  getSysNow := fun _ => 70000000001

/-- With one due waker everything is served: the message is answered and the second round finds
    nothing more. -/
theorem processInternalEvents_served_dueWorld : ∃ p,
    processInternalEvents {} idleCallbacks 78000000000 3 (dueWorld [(69000000000, some 2)]) =
      some p ∧ (78000000000 ≤ p.clock ∨ p.world.AllServed) := by
  obtain ⟨p, hp⟩ : ∃ p, processInternalEvents {} idleCallbacks 78000000000 3
      (dueWorld [(69000000000, some 2)]) = some p := ⟨_, rfl⟩
  exact ⟨p, hp, (processInternalEvents_served_iff hp).2 (by decide +kernel)⟩

/-- With two due wakers the loop ends after the first one, which had nothing to send, and the
    message of the second endpoint is not answered. -/
theorem not_processInternalEvents_served_dueWorld : ∃ p,
    processInternalEvents {} idleCallbacks 78000000000 3
      (dueWorld [(69000000000, some 1), (69000000000, some 2)]) = some p ∧
      ¬ (78000000000 ≤ p.clock ∨ p.world.AllServed) :=
  ⟨_, rfl, by decide +kernel⟩

end World

end LibAtapp.Connectors
