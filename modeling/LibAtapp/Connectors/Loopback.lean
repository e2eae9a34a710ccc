import LibAtapp.Connectors.InternalEvents
import LibAtapp.Library.Run

set_option autoImplicit false

/-! # The loopback queue

A program that sends to itself queues its messages in the loopback connector, and a tick hands them to
the callback for received messages. The callback can send again while its own message is still at
the front of the queue, and it can do anything else to the app. Every message that is accepted is
handed to the callback once and in order, and the accounting of the queue is exact. -/

namespace LibAtapp.Connectors

/-! ## Sending -/

/-- The arguments of `on_send_forward_request`. -/
structure SendRequest where
  handle : Option HandlePtr
  type : Int
  sequence : Option Nat
  data : Bytes
  metadata : Option AtappMetadata

/-- The message that is queued for a request. -/
def SendRequest.message (r : SendRequest) : LoopbackMessage where
  type := r.type
  messageSequence := r.sequence.getD 0
  data := r.data
  metadata := r.metadata

/-- `EN_ATAPP_ERR_NOT_INITED` -/
def notInited : ErrorCode := .other 1001

/-- The queue has no room for another message of this size. -/
def AtappConnectorLoopback.full (conf : AppConf) (c : AtappConnectorLoopback) (size : Nat) : Bool :=
  (decide (conf.sendBufferNumber > 0) &&
    decide (c.pendingMessage.length + 1 > conf.sendBufferNumber)) ||
  (decide (conf.sendBufferSize > 0) &&
    decide (c.pendingMessageSize + size > conf.sendBufferSize))

/-- Queue a message at the back. -/
def AtappConnectorLoopback.push (c : AtappConnectorLoopback) (msg : LoopbackMessage) :
    AtappConnectorLoopback where
  pendingMessage := c.pendingMessage ++ [msg]
  pendingMessageSize := c.pendingMessageSize + msg.data.length

/-- `atapp_connector_loopback::on_send_forward_request`. -/
def AtappConnectorLoopback.onSendForwardRequest (conf : AppConf) (c : AtappConnectorLoopback)
    (r : SendRequest) : AtappConnectorLoopback × ErrorCode :=
  if r.handle = none then (c, notInited)
  else if r.data = [] then (c, .success)
  else if c.full conf r.data.length then (c, .buffLimit)
  else (c.push r.message, .success)

/-! ## Programs -/

/-- Something a program does: it sends to itself, or it does something else to the app. -/
inductive Act where
  | send (r : SendRequest)
  | app (f : App → App)

/-- The loopback side of a program: the clock, and what the callback for a received message does. -/
structure Program where
  getSysNow : Nat → Int
  onForwardRequest : LoopbackMessage → World → List Act

namespace World

/-- Send a message, with what the queue accepted of it. -/
def send (r : SendRequest) (w : World) : World × List LoopbackMessage :=
  match w.loopbackConnector with
  | none => (w, [])
  | some c =>
    let c' := (c.onSendForwardRequest w.app.conf r).1
    ({ w with loopbackConnector := some c' },
      if c'.pendingMessage = c.pendingMessage then [] else [r.message])

/-- Do something, with the messages that the queue accepted. -/
def act : Act → World → World × List LoopbackMessage
  | .send r, w => w.send r
  | .app f, w => (w.withApp (f w.app), [])

/-- Do things in turn. -/
def acts : List Act → World → World × List LoopbackMessage
  | [], w => (w, [])
  | a :: as, w => ((acts as (w.act a).1).1, (w.act a).2 ++ (acts as (w.act a).1).2)

end World

/-- The callbacks of a program. -/
def Program.callbacks (p : Program) : Callbacks where
  getSysNow := p.getSysNow
  onForwardRequest := fun msg w => (w.acts (p.onForwardRequest msg w)).1

/-! ## Runs -/

/-- The messages that the queue accepted and those that were handed to the callback. -/
structure LoopbackLog where
  accepted : List LoopbackMessage := []
  delivered : List LoopbackMessage := []

/-- One log after another. -/
def LoopbackLog.append (l r : LoopbackLog) : LoopbackLog :=
  { accepted := l.accepted ++ r.accepted, delivered := l.delivered ++ r.delivered }

namespace World

variable (p : Program)

/-- The log of `processMessages`. -/
def messagesLog : Nat → World → LoopbackLog
  | 0, _ => {}
  | limit + 1, w =>
    match w.loopbackPending with
    | [] => {}
    | msg :: _ =>
      let r := w.called.acts (p.onForwardRequest msg w.called)
      LoopbackLog.append { accepted := r.2, delivered := [msg] }
        (messagesLog limit (r.1.popLoopback msg))

/-- The log of `processLoopback`. -/
def processLog (maxEndTimepoint : Int) (limit : Nat) : Nat → World → LoopbackLog
  | 0, _ => {}
  | fuel + 1, w =>
    if w.loopbackPending = [] then {}
    else
      let w' := (processMessages p.callbacks limit w).1
      if p.getSysNow w'.readings ≥ maxEndTimepoint then messagesLog p limit w
      else (messagesLog p limit w).append (processLog maxEndTimepoint limit fuel w'.read)

end World

/-- The app with the log of everything so far. -/
structure LoopbackRun where
  world : World
  log : LoopbackLog := {}

/-- What happens in turn: things are done outside of a tick, or a tick calls `process`. -/
inductive LoopbackInput where
  | acts (as : List Act)
  | process (maxEndTimepoint maxLoopMessages : Int) (fuel : Nat)

/-- One step of a run. A call of `process` is given a bound on its clock readings. -/
def LoopbackRun.step (p : Program) (s : LoopbackRun) : LoopbackInput → LoopbackRun
  | .acts as =>
    { world := (s.world.acts as).1, log := s.log.append { accepted := (s.world.acts as).2 } }
  | .process maxEndTimepoint maxLoopMessages fuel =>
    let limit := World.messageLimit maxLoopMessages
    match s.world.processLoopback p.callbacks maxEndTimepoint limit fuel with
    | none => s
    | some r => { world := r.1, log := s.log.append (s.world.processLog p maxEndTimepoint limit fuel) }

/-! ## What the queue counts -/

namespace World

/-- The bytes that the messages hold. -/
def bytesOf (messages : List LoopbackMessage) : Nat :=
  (messages.map fun msg => msg.data.length).sum

/-- The size of the queue is the size of its messages. -/
def Counted (w : World) : Prop :=
  ∀ c, w.loopbackConnector = some c → c.pendingMessageSize = bytesOf c.pendingMessage

/-- The queue keeps to the limits of the configuration. -/
def Within (w : World) : Prop :=
  ∀ c, w.loopbackConnector = some c →
    (0 < w.app.conf.sendBufferNumber → c.pendingMessage.length ≤ w.app.conf.sendBufferNumber) ∧
    (0 < w.app.conf.sendBufferSize → c.pendingMessageSize ≤ w.app.conf.sendBufferSize)

theorem bytesOf_append (front back : List LoopbackMessage) :
    bytesOf (front ++ back) = bytesOf front + bytesOf back := by
  simp [bytesOf]

/-! ## One send -/

/-- What a send does: nothing, or it queues the message at the back, where there is room. -/
theorem send_cases (r : SendRequest) (w : World) :
    w.send r = (w, []) ∨ ∃ c, w.loopbackConnector = some c ∧
      c.full w.app.conf r.data.length = false ∧
      w.send r = ({ w with loopbackConnector := some (c.push r.message) }, [r.message]) := by
  unfold send
  cases hc : w.loopbackConnector with
  | none => exact .inl rfl
  | some c =>
    have hsame : ({ w with loopbackConnector := some c } : World) = w := by rw [← hc]
    unfold AtappConnectorLoopback.onSendForwardRequest
    by_cases hhandle : r.handle = none
    · simp [hhandle, hsame]
    · by_cases hdata : r.data = []
      · simp [hhandle, hdata, hsame]
      · cases hfull : c.full w.app.conf r.data.length with
        | true => simp [hhandle, hdata, hfull, hsame]
        | false =>
          exact .inr ⟨c, rfl, hfull, by simp [hhandle, hdata, hfull, AtappConnectorLoopback.push]⟩

/-- What is accepted is queued at the back. -/
theorem send_pending (r : SendRequest) (w : World) :
    (w.send r).1.loopbackPending = w.loopbackPending ++ (w.send r).2 := by
  rcases w.send_cases r with h | ⟨c, hc, -, h⟩ <;> rw [h]
  · simp
  · simp [loopbackPending, hc, AtappConnectorLoopback.push]

theorem send_readings (r : SendRequest) (w : World) : (w.send r).1.readings = w.readings := by
  rcases w.send_cases r with h | ⟨c, hc, -, h⟩ <;> rw [h]

theorem send_counted {r : SendRequest} {w : World} (h : w.Counted) : (w.send r).1.Counted := by
  rcases w.send_cases r with hsend | ⟨c, hc, -, hsend⟩ <;> rw [hsend]
  · exact h
  · intro c' hc'
    obtain rfl := Option.some.inj hc'
    have hold := h c hc
    simp only [AtappConnectorLoopback.push, bytesOf_append, hold]
    simp [bytesOf]

theorem send_within {r : SendRequest} {w : World} (h : w.Within) : (w.send r).1.Within := by
  rcases w.send_cases r with hsend | ⟨c, hc, hfull, hsend⟩ <;> rw [hsend]
  · exact h
  · intro c' hc'
    obtain rfl := Option.some.inj hc'
    simp only [AtappConnectorLoopback.full, Bool.or_eq_false_iff, Bool.and_eq_false_iff,
      decide_eq_false_iff_not] at hfull
    simp only [AtappConnectorLoopback.push, SendRequest.message, List.length_append,
      List.length_cons, List.length_nil]
    omega

/-! ## Many sends -/

theorem acts_pending (as : List Act) (w : World) :
    (w.acts as).1.loopbackPending = w.loopbackPending ++ (w.acts as).2 := by
  induction as generalizing w with
  | nil => simp [acts]
  | cons a as ih =>
    have hact : (w.act a).1.loopbackPending = w.loopbackPending ++ (w.act a).2 := by
      cases a with
      | send r => exact send_pending r w
      | app f => simp [act, withApp, loopbackPending]
    simp only [acts]
    rw [ih, hact, List.append_assoc]

theorem acts_readings (as : List Act) (w : World) : (w.acts as).1.readings = w.readings := by
  induction as generalizing w with
  | nil => rfl
  | cons a as ih =>
    simp only [acts]
    rw [ih]
    cases a with
    | send r => exact send_readings r w
    | app f => rfl

theorem acts_counted {as : List Act} {w : World} (h : w.Counted) : (w.acts as).1.Counted := by
  induction as generalizing w with
  | nil => exact h
  | cons a as ih =>
    refine ih ?_
    cases a with
    | send r => exact send_counted h
    | app f => exact h

/-- What is done to the app leaves its configuration alone. -/
def KeepsConf (as : List Act) : Prop := ∀ f, Act.app f ∈ as → ∀ app, (f app).conf = app.conf

theorem acts_within {as : List Act} (has : KeepsConf as) {w : World} (h : w.Within) :
    (w.acts as).1.Within := by
  induction as generalizing w with
  | nil => exact h
  | cons a as ih =>
    refine ih (fun f hf => has f (List.mem_cons_of_mem _ hf)) ?_
    cases a with
    | send r => exact send_within h
    | app f =>
      intro c hc
      have hconf : (w.act (.app f)).1.app.conf = w.app.conf := has f (List.mem_cons_self ..) w.app
      rw [hconf]
      exact h c hc

/-! ## Handing messages to the callback -/

theorem popLoopback_pending (msg : LoopbackMessage) (w : World) :
    (w.popLoopback msg).loopbackPending = w.loopbackPending.tail := by
  cases hc : w.loopbackConnector <;> simp [popLoopback, loopbackPending, hc]

/-- The front message is taken off, and the size of the queue goes down by its size. -/
theorem popLoopback_counted {msg : LoopbackMessage} {rest : List LoopbackMessage} {w : World}
    (hpending : w.loopbackPending = msg :: rest) (h : w.Counted) : (w.popLoopback msg).Counted := by
  intro c' hc'
  cases hc : w.loopbackConnector with
  | none => simp [popLoopback, hc] at hc'
  | some c =>
    have hsize := h c hc
    simp only [loopbackPending, hc, Option.map_some, Option.getD_some] at hpending
    simp only [popLoopback, hc, Option.map_some, Option.some.injEq] at hc'
    rw [hpending] at hsize
    subst hc'
    have hhead : bytesOf (msg :: rest) = msg.data.length + bytesOf rest := by simp [bytesOf]
    simp only [hpending, List.tail_cons]
    rw [if_pos (by omega)]
    omega

theorem popLoopback_within {msg : LoopbackMessage} {w : World} (h : w.Within) :
    (w.popLoopback msg).Within := by
  intro c' hc'
  cases hc : w.loopbackConnector with
  | none => simp [popLoopback, hc] at hc'
  | some c =>
    obtain ⟨hnumber, hsize⟩ := h c hc
    simp only [popLoopback, hc, Option.map_some, Option.some.injEq] at hc'
    subst hc'
    simp only [popLoopback, List.length_tail]
    constructor
    · intro hpos
      have := hnumber hpos
      omega
    · intro hpos
      have := hsize hpos
      split <;> omega

variable (p : Program)

/-- What `processMessages` does with the front message. -/
theorem processMessages_cons (limit : Nat) {w : World} {msg : LoopbackMessage}
    {rest : List LoopbackMessage} (hpending : w.loopbackPending = msg :: rest) :
    processMessages p.callbacks (limit + 1) w =
      let next := (w.called.acts (p.onForwardRequest msg w.called)).1.popLoopback msg
      ((processMessages p.callbacks limit next).1, (processMessages p.callbacks limit next).2 + 1) := by
  rw [processMessages, hpending]
  rfl

/-- The queue after the callback for its front message. -/
theorem next_pending {w : World} {msg : LoopbackMessage} {rest : List LoopbackMessage}
    (hpending : w.loopbackPending = msg :: rest) :
    ((w.called.acts (p.onForwardRequest msg w.called)).1.popLoopback msg).loopbackPending
      = rest ++ (w.called.acts (p.onForwardRequest msg w.called)).2 := by
  have hcalled : w.called.loopbackPending = msg :: rest := hpending
  rw [popLoopback_pending, acts_pending, hcalled]
  rfl

/-- What waited and what was accepted is what was delivered and what still waits. -/
theorem messagesLog_conserves (limit : Nat) (w : World) :
    w.loopbackPending ++ (messagesLog p limit w).accepted
        = (messagesLog p limit w).delivered ++
          (processMessages p.callbacks limit w).1.loopbackPending ∧
      (processMessages p.callbacks limit w).2 = ((messagesLog p limit w).delivered.length : Int) := by
  induction limit generalizing w with
  | zero => simp [messagesLog, processMessages]
  | succ limit ih =>
    cases hpending : w.loopbackPending with
    | nil => simp [messagesLog, processMessages, hpending]
    | cons msg rest =>
      rw [processMessages_cons p limit hpending]
      simp only [messagesLog, hpending, LoopbackLog.append]
      obtain ⟨hqueue, hcount⟩ :=
        ih ((w.called.acts (p.onForwardRequest msg w.called)).1.popLoopback msg)
      rw [next_pending p hpending] at hqueue
      constructor
      · rw [List.cons_append, ← List.append_assoc, hqueue]
        rfl
      · rw [hcount]
        simp [Int.add_comm]

theorem processMessages_readings (limit : Nat) (w : World) :
    (processMessages p.callbacks limit w).1.readings = w.readings := by
  induction limit generalizing w with
  | zero => rfl
  | succ limit ih =>
    cases hpending : w.loopbackPending with
    | nil => simp [processMessages, hpending]
    | cons msg rest =>
      rw [processMessages_cons p limit hpending]
      dsimp only
      rw [ih]
      exact acts_readings _ _

theorem processMessages_counted (limit : Nat) {w : World} (h : w.Counted) :
    (processMessages p.callbacks limit w).1.Counted := by
  induction limit generalizing w with
  | zero => exact h
  | succ limit ih =>
    cases hpending : w.loopbackPending with
    | nil => simpa [processMessages, hpending] using h
    | cons msg rest =>
      rw [processMessages_cons p limit hpending]
      have hcalled : w.called.loopbackPending = msg :: rest := hpending
      have hqueue : (w.called.acts (p.onForwardRequest msg w.called)).1.loopbackPending
          = msg :: (rest ++ (w.called.acts (p.onForwardRequest msg w.called)).2) := by
        rw [acts_pending, hcalled]
        rfl
      have hacts : (w.called.acts (p.onForwardRequest msg w.called)).1.Counted :=
        acts_counted (w := w.called) h
      exact ih (popLoopback_counted hqueue hacts)

theorem processMessages_within (hp : ∀ msg w, KeepsConf (p.onForwardRequest msg w)) (limit : Nat)
    {w : World} (h : w.Within) : (processMessages p.callbacks limit w).1.Within := by
  induction limit generalizing w with
  | zero => exact h
  | succ limit ih =>
    cases hpending : w.loopbackPending with
    | nil => simpa [processMessages, hpending] using h
    | cons msg rest =>
      rw [processMessages_cons p limit hpending]
      exact ih (popLoopback_within (acts_within (hp _ _) (w := w.called) h))

/-! ## A call of `process` -/

section Process

variable {p} {endTimepoint : Int} {limit fuel : Nat} {w : World} {r : World × Int}

/-- A call that returns has handled its messages in batches, and it has emptied the queue or seen the
    clock reach the end. -/
theorem processLoopback_log
    (hr : processLoopback p.callbacks endTimepoint limit fuel w = some r) :
    w.loopbackPending ++ (processLog p endTimepoint limit fuel w).accepted
        = (processLog p endTimepoint limit fuel w).delivered ++ r.1.loopbackPending ∧
      r.2 = ((processLog p endTimepoint limit fuel w).delivered.length : Int) ∧
      (r.1.loopbackPending = [] ∨
        ∃ n, w.readings ≤ n ∧ n < r.1.readings ∧ endTimepoint ≤ p.getSysNow n) := by
  induction fuel generalizing w r with
  | zero => simp [processLoopback] at hr
  | succ fuel ih =>
    rw [processLoopback] at hr
    rw [processLog]
    by_cases hempty : w.loopbackPending = []
    · rw [if_pos hempty] at hr ⊢
      obtain rfl := Option.some.inj hr
      simp [hempty]
    · rw [if_neg hempty] at hr ⊢
      obtain ⟨hqueue, hcount⟩ := messagesLog_conserves p limit w
      have hreadings := processMessages_readings p limit w
      dsimp only at hr ⊢
      by_cases hlate : p.getSysNow (processMessages p.callbacks limit w).1.readings ≥ endTimepoint
      · rw [if_pos hlate]
        rw [if_pos (show p.callbacks.getSysNow _ ≥ endTimepoint from hlate)] at hr
        obtain rfl := Option.some.inj hr
        refine ⟨hqueue, hcount, .inr ⟨w.readings, le_rfl, ?_, ?_⟩⟩
        · show w.readings < (processMessages p.callbacks limit w).1.readings + 1
          omega
        · rwa [hreadings] at hlate
      · rw [if_neg hlate]
        rw [if_neg (show ¬p.callbacks.getSysNow _ ≥ endTimepoint from hlate)] at hr
        obtain ⟨r', hr', rfl⟩ := Option.map_eq_some_iff.1 hr
        obtain ⟨hqueue', hcount', hend⟩ := ih hr'
        refine ⟨?_, ?_, ?_⟩
        · have hread : (processMessages p.callbacks limit w).1.read.loopbackPending
              = (processMessages p.callbacks limit w).1.loopbackPending := rfl
          rw [hread] at hqueue'
          simp only [LoopbackLog.append]
          rw [← List.append_assoc, hqueue, List.append_assoc, hqueue', List.append_assoc]
        · simp only [LoopbackLog.append, List.length_append, hcount, hcount']
          omega
        · rcases hend with hend | ⟨n, hn, hlt, hclock⟩
          · exact .inl hend
          · have hstart : (processMessages p.callbacks limit w).1.read.readings = w.readings + 1 :=
              congrArg (· + 1) hreadings
            exact .inr ⟨n, by omega, hlt, hclock⟩

theorem processLoopback_counted
    (hr : processLoopback p.callbacks endTimepoint limit fuel w = some r) (h : w.Counted) :
    r.1.Counted := by
  induction fuel generalizing w r with
  | zero => simp [processLoopback] at hr
  | succ fuel ih =>
    rw [processLoopback] at hr
    split at hr
    · obtain rfl := Option.some.inj hr
      exact h
    · dsimp only at hr
      have hbatch : (processMessages p.callbacks limit w).1.read.Counted :=
        processMessages_counted p limit h
      split at hr
      · obtain rfl := Option.some.inj hr
        exact hbatch
      · obtain ⟨r', hr', rfl⟩ := Option.map_eq_some_iff.1 hr
        exact ih (r := r') hr' hbatch

theorem processLoopback_within (hp : ∀ msg w, KeepsConf (p.onForwardRequest msg w))
    (hr : processLoopback p.callbacks endTimepoint limit fuel w = some r) (h : w.Within) :
    r.1.Within := by
  induction fuel generalizing w r with
  | zero => simp [processLoopback] at hr
  | succ fuel ih =>
    rw [processLoopback] at hr
    split at hr
    · obtain rfl := Option.some.inj hr
      exact h
    · dsimp only at hr
      have hbatch : (processMessages p.callbacks limit w).1.read.Within :=
        processMessages_within p hp limit h
      split at hr
      · obtain rfl := Option.some.inj hr
        exact hbatch
      · obtain ⟨r', hr', rfl⟩ := Option.map_eq_some_iff.1 hr
        exact ih (r := r') hr' hbatch

/-- Whatever the callback sends, a call returns once the clock reaches the end. -/
theorem processLoopback_returns (p : Program) (limit n : Nat) {w : World}
    (hclock : endTimepoint ≤ p.getSysNow (w.readings + n)) :
    ∃ r, processLoopback p.callbacks endTimepoint limit (n + 1) w = some r := by
  induction n generalizing w with
  | zero =>
    rw [processLoopback]
    split
    · exact ⟨_, rfl⟩
    · have hreadings := processMessages_readings p limit w
      dsimp only
      rw [if_pos (by rw [hreadings]; exact hclock)]
      exact ⟨_, rfl⟩
  | succ n ih =>
    rw [processLoopback]
    split
    · exact ⟨_, rfl⟩
    · dsimp only
      split
      · exact ⟨_, rfl⟩
      · have hstart : (processMessages p.callbacks limit w).1.read.readings = w.readings + 1 :=
          congrArg (· + 1) (processMessages_readings p limit w)
        obtain ⟨r, hr⟩ := ih (w := (processMessages p.callbacks limit w).1.read) (by
          rw [hstart, Nat.add_assoc, Nat.add_comm 1 n]
          exact hclock)
        rw [hr]
        exact ⟨_, rfl⟩

end Process

end World

/-! ## Whole runs -/

namespace LoopbackRun

variable (p : Program)

/-- The queue holds what was accepted and not yet delivered, and its size is right. -/
def Exact (s : LoopbackRun) : Prop :=
  s.log.accepted = s.log.delivered ++ s.world.loopbackPending ∧ s.world.Counted

theorem exact_start (app : App) : Exact { world := { app := app } } := by
  constructor
  · rfl
  · intro c hc
    obtain rfl := Option.some.inj hc
    rfl

theorem step_exact {s : LoopbackRun} (h : s.Exact) (input : LoopbackInput) :
    (s.step p input).Exact := by
  obtain ⟨hqueue, hcounted⟩ := h
  cases input with
  | acts as =>
    refine ⟨?_, World.acts_counted hcounted⟩
    simp only [step, LoopbackLog.append, List.append_nil]
    rw [World.acts_pending, hqueue, List.append_assoc]
  | process maxEndTimepoint maxLoopMessages fuel =>
    rw [step]
    cases hr : s.world.processLoopback p.callbacks maxEndTimepoint
        (World.messageLimit maxLoopMessages) fuel with
    | none => exact ⟨hqueue, hcounted⟩
    | some r =>
      refine ⟨?_, World.processLoopback_counted hr hcounted⟩
      have hlog := (World.processLoopback_log hr).1
      simp only [LoopbackLog.append]
      rw [hqueue, List.append_assoc, hlog, List.append_assoc]

theorem step_within (hp : ∀ msg w, World.KeepsConf (p.onForwardRequest msg w)) {s : LoopbackRun}
    (h : s.world.Within) {input : LoopbackInput}
    (hinput : ∀ as, input = .acts as → World.KeepsConf as) : (s.step p input).world.Within := by
  cases input with
  | acts as => exact World.acts_within (hinput as rfl) h
  | process maxEndTimepoint maxLoopMessages fuel =>
    rw [step]
    cases hr : s.world.processLoopback p.callbacks maxEndTimepoint
        (World.messageLimit maxLoopMessages) fuel with
    | none => exact h
    | some r => exact World.processLoopback_within hp hr h

end LoopbackRun

/-- **The loopback queue**: in every run the messages that were accepted are those that were handed to
    the callback, in order and once each, and then those that wait, whose bytes are counted. A further
    call of `process` returns once the clock reaches its end, with an empty queue unless the clock did,
    and it reports how many messages it delivered. While the configuration stays as it is, the queue
    keeps to its limits. -/
theorem loopback_run (p : Program) (app : App) (inputs : List LoopbackInput) :
    let s := Run.run (LoopbackRun.step p) { world := { app := app } } inputs
    s.log.accepted = s.log.delivered ++ s.world.loopbackPending ∧ s.world.Counted ∧
    (∀ endTimepoint maxLoopMessages, (∃ n, s.world.readings ≤ n ∧ endTimepoint ≤ p.getSysNow n) →
      ∃ fuel r, s.world.processLoopback p.callbacks endTimepoint
          (World.messageLimit maxLoopMessages) fuel = some r ∧
        (r.1.loopbackPending = [] ∨
          ∃ n, s.world.readings ≤ n ∧ n < r.1.readings ∧ endTimepoint ≤ p.getSysNow n) ∧
        r.2 = ((s.world.processLog p endTimepoint (World.messageLimit maxLoopMessages)
          fuel).delivered.length : Int)) ∧
    ((∀ msg w, World.KeepsConf (p.onForwardRequest msg w)) →
      (∀ as, .acts as ∈ inputs → World.KeepsConf as) → s.world.Within) := by
  dsimp only
  have hstepExact : ∀ s i, LoopbackRun.Exact s → LoopbackRun.Exact (LoopbackRun.step p s i) :=
    fun s i h => LoopbackRun.step_exact p h i
  have hexact := Run.invariant_all (LoopbackRun.step p) hstepExact (LoopbackRun.exact_start app)
    inputs
  refine ⟨hexact.1, hexact.2, ?_, ?_⟩
  · rintro endTimepoint maxLoopMessages ⟨n, hn, hclock⟩
    obtain ⟨k, rfl⟩ := Nat.exists_eq_add_of_le hn
    obtain ⟨r, hr⟩ := World.processLoopback_returns p (World.messageLimit maxLoopMessages) k hclock
    obtain ⟨-, hcount, hend⟩ := World.processLoopback_log hr
    exact ⟨k + 1, r, hr, hend, hcount⟩
  · intro hp hinputs
    have hstart : World.Within { app := app } := by
      intro c hc
      obtain rfl := Option.some.inj hc
      simp
    have hstep : ∀ s i, s.world.Within → (∀ as, i = .acts as → World.KeepsConf as) →
        (LoopbackRun.step p s i).world.Within :=
      fun s i h hi => LoopbackRun.step_within p hp h hi
    refine Run.invariant (LoopbackRun.step p) hstep hstart ?_
    refine Run.stepsMeet_of_mem _ ?_ _
    rintro i hi as rfl
    exact hinputs as hi

/-! ## A program that answers itself -/

/-- A request to send some bytes with a type. -/
def exampleRequest (type : Int) : SendRequest where
  handle := some 0
  type := type
  sequence := some 7
  data := [1, 2]
  metadata := none

/-- On a message of type 1 the program sends one of type 2 and tries to send a third. -/
def exampleProgram : Program where
  getSysNow n := n
  onForwardRequest msg _ :=
    if msg.type = 1 then [.send (exampleRequest 2), .send (exampleRequest 3)] else []

/-- With room for two messages the third is refused, since the first is still at the front. -/
theorem loopback_run_example :
    let app : App := { conf := { sendBufferNumber := 2 }, lastTickTimepoint := 0 }
    let s := Run.run (LoopbackRun.step exampleProgram) { world := { app := app } }
      [.acts [.send (exampleRequest 1)], .process 100 0 3]
    s.log.delivered = s.log.accepted ∧ s.log.accepted.map LoopbackMessage.type = [1, 2] ∧
      s.world.Within := by
  have h := loopback_run exampleProgram { conf := { sendBufferNumber := 2 }, lastTickTimepoint := 0 }
    [.acts [.send (exampleRequest 1)], .process 100 0 3]
  refine ⟨by decide +kernel, by decide +kernel, h.2.2.2 ?_ ?_⟩
  · intro msg w f hf
    simp only [exampleProgram] at hf
    split at hf <;> simp at hf
  · intro as has f hf
    simp only [List.mem_cons, LoopbackInput.acts.injEq, reduceCtorEq, List.not_mem_nil,
      or_false] at has
    subst has
    simp at hf

end LibAtapp.Connectors
