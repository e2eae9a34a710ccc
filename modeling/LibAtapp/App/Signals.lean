import LibAtapp.Library.Run

set_option autoImplicit false

/-! # Termination signals

`_app_setup_signal_handle` stores a signal in the first free slot of `pending_signals_`, between
any two statements of the main thread. `run_ev_loop` calls `process_signals` when the first slot
is taken, which copies the slots, clears them and processes the copy. A signal is lost when it
finds no free slot and when it arrives between the copy and the clearing; whether a termination
signal is lost as well depends on what else is on its way. -/

namespace LibAtapp.Signals

/-- `internal_options_t::kMaxSignalCount` -/
def maxSignalCount : ℕ := 32

def sigterm : ℕ := 15

def sigstop : ℕ := 19

/-! ## Slots -/

/-- An array of `kMaxSignalCount` signal numbers; 0 marks a free slot. -/
structure Slots where
  list : List ℕ
  length_list : list.length = maxSignalCount

/-- The handler's loop: the first free slot takes the signal. -/
def storeFirstFree (signo : ℕ) : List ℕ → List ℕ
  | [] => []
  | slot :: slots => if slot = 0 then signo :: slots else slot :: storeFirstFree signo slots

/-- What a loop reads that breaks at the first free slot. -/
def occupied (slots : List ℕ) : List ℕ := slots.takeWhile (· ≠ 0)

@[simp] theorem length_storeFirstFree (signo : ℕ) (slots : List ℕ) :
    (storeFirstFree signo slots).length = slots.length := by
  induction slots with
  | nil => rfl
  | cons slot slots ih =>
      by_cases h : slot = 0
      · simp [storeFirstFree, h]
      · simp [storeFirstFree, h, ih]

theorem occupied_prefix_storeFirstFree (signo : ℕ) (slots : List ℕ) :
    occupied slots <+: occupied (storeFirstFree signo slots) := by
  induction slots with
  | nil => exact List.prefix_rfl
  | cons slot slots ih =>
      by_cases h : slot = 0
      · simp [occupied, h]
      · simpa [occupied, storeFirstFree, h] using ih

theorem mem_occupied_storeFirstFree {signo : ℕ} (hsigno : signo ≠ 0) {slots : List ℕ}
    (hfree : 0 ∈ slots) : signo ∈ occupied (storeFirstFree signo slots) := by
  induction slots with
  | nil => simp at hfree
  | cons slot slots ih =>
      by_cases h : slot = 0
      · simp [occupied, storeFirstFree, h, hsigno]
      · have hrest : 0 ∈ slots := (List.mem_cons.1 hfree).resolve_left (Ne.symm h)
        have hih := ih hrest
        simp only [storeFirstFree, if_neg h, occupied] at hih ⊢
        rw [List.takeWhile_cons_of_pos (by simpa using h)]
        exact List.mem_cons_of_mem slot hih

/-- Storing adds at most the stored signal. -/
theorem count_storeFirstFree_le {x : ℕ} (hx : x ≠ 0) (signo : ℕ) (slots : List ℕ) :
    (storeFirstFree signo slots).count x ≤ slots.count x + if signo = x then 1 else 0 := by
  induction slots with
  | nil => simp [storeFirstFree]
  | cons slot slots ih =>
      by_cases h : slot = 0
      · have hslot : ¬ slot = x := fun he => hx (he.symm.trans h)
        subst h
        simp [storeFirstFree, List.count_cons, hslot]
      · simp only [storeFirstFree, if_neg h, List.count_cons]
        omega

namespace Slots

/-- `{0}` -/
def empty : Slots := ⟨List.replicate maxSignalCount 0, List.length_replicate⟩

def store (slots : Slots) (signo : ℕ) : Slots :=
  ⟨storeFirstFree signo slots.list, by rw [length_storeFirstFree, slots.length_list]⟩

/-- `slots[i]` -/
def at' (slots : Slots) (i : ℕ) : ℕ := slots.list.getD i 0

end Slots

/-! ## The app -/

/-- What else the two functions read and write. `evLoopStop` is what `uv_stop` asks of the loop. -/
structure Flags where
  busNode : Bool
  evLoop : Bool
  evLoopStop : Bool
  upgradeMode : Bool
  stoping : Bool
  stopped : Bool
  deriving DecidableEq

/-- The statement the main thread executes next, in `run_ev_loop`, in the `process_signals` it
    calls, or outside both. -/
inductive Statement
  | caller
  | updateTime
  | processCustomTimers
  | testBusNode
  | uvRun
  | testPending
  | testFirst
  | declareSignals
  | memcpy
  | memset
  | testSignal (i : ℕ)
  | processSignal (i : ℕ)
  | stopModules
  deriving DecidableEq

/-- The app `last_instance_` points to; `signals` is the local copy of `process_signals`. -/
structure App where
  flags : Flags
  pendingSignals : Slots
  signals : Slots
  pc : Statement

/-- What a reader of a run sees: deliveries, the calls of `process_signal` and `stop`, and where an
    execution of `process_signals` begins and ends. -/
inductive Event
  | delivered (signo : ℕ)
  | began
  | processed (signo : ℕ)
  | stopCalled
  | ended
  deriving DecidableEq

/-- One step: the handler runs, the main thread executes its next statement, or a callback of the
    application sets flags. -/
inductive Input
  | handler (signo : ℕ)
  | main
  | callback (flags : Flags)

/-- `uv_stop`, where there is a loop -/
def Flags.uvStop (flags : Flags) : Flags :=
  if flags.evLoop then { flags with evLoopStop := true } else flags

/-- `app::_app_setup_signal_handle` -/
def appSetupSignalHandle (app : App) (signo : ℕ) : App :=
  { app with pendingSignals := app.pendingSignals.store signo, flags := app.flags.uvStop }

/-- `app::stop` -/
def stop (flags : Flags) : Flags :=
  let flags := { flags with stoping := true }
  if flags.busNode then flags.uvStop else flags

/-- The cases of the `switch` that stop the app (SIGSTOP only where the platform has it) -/
def callsStop (signo : ℕ) : Bool := signo = sigstop || signo = sigterm

/-- `app::process_signal` -/
def processSignal (flags : Flags) (signo : ℕ) : Flags :=
  if callsStop signo then stop { flags with upgradeMode := false } else flags

/-- The main thread executes one statement. An execution of `process_signals` begins at the test in
    `run_ev_loop`; where the test finds the first slot free, it ends there. -/
def mainStep (app : App) : App × List Event :=
  match app.pc with
  | .caller => ({ app with pc := .updateTime }, [])
  | .updateTime => ({ app with pc := .processCustomTimers }, [])
  | .processCustomTimers => ({ app with pc := .testBusNode }, [])
  | .testBusNode =>
    if app.flags.busNode then ({ app with pc := .uvRun }, []) else ({ app with pc := .caller }, [])
  | .uvRun =>
    ({ app with pc := .testPending, flags := { app.flags with evLoopStop := false } }, [])
  | .testPending =>
    if app.pendingSignals.at' 0 ≠ 0 then ({ app with pc := .testFirst }, [.began])
    else ({ app with pc := .stopModules }, [.began, .ended])
  | .testFirst =>
    if app.pendingSignals.at' 0 = 0 then ({ app with pc := .stopModules }, [.ended])
    else ({ app with pc := .declareSignals }, [])
  | .declareSignals => ({ app with pc := .memcpy, signals := .empty }, [])
  | .memcpy => ({ app with pc := .memset, signals := app.pendingSignals }, [])
  | .memset => ({ app with pc := .testSignal 0, pendingSignals := .empty }, [])
  | .testSignal i =>
    if i < maxSignalCount ∧ app.signals.at' i ≠ 0 then ({ app with pc := .processSignal i }, [])
    else ({ app with pc := .stopModules }, [.ended])
  | .processSignal i =>
    let signo := app.signals.at' i
    ({ app with pc := .testSignal (i + 1), flags := processSignal app.flags signo },
      .processed signo :: if callsStop signo then [.stopCalled] else [])
  | .stopModules => ({ app with pc := .caller }, [])

/-- Statements in which code of the application runs, which does not touch the signals. -/
def Statement.RunsCallbacks : Statement → Bool
  | .caller | .processCustomTimers | .uvRun | .stopModules => true
  | _ => false

def step (app : App) : Input → App × List Event
  | .handler signo => (appSetupSignalHandle app signo, [.delivered signo])
  | .main => mainStep app
  | .callback flags =>
    if app.pc.RunsCallbacks then ({ app with flags := flags }, []) else (app, [])

def next (app : App) (input : Input) : App := (step app input).1

/-- The events of a run -/
def trace : App → List Input → List Event
  | _, [] => []
  | app, input :: inputs => (step app input).2 ++ trace (next app input) inputs

theorem trace_append (app : App) (front back : List Input) :
    trace app (front ++ back) = trace app front ++ trace (Run.run next app front) back := by
  induction front generalizing app with
  | nil => rfl
  | cons input front ih =>
      rw [List.cons_append, trace, trace, ih, List.append_assoc]
      rfl

/-- An app before its first round, with no signal stored. -/
def initial (flags : Flags) : App := ⟨flags, .empty, .empty, .caller⟩

/-! ## What a run owes -/

/-- `stop` is called before `process_signals` has ended `n` times, unless the run stops before. -/
def Answered : ℕ → List Event → Prop
  | 0, _ => False
  | _ + 1, [] => True
  | _ + 1, .stopCalled :: _ => True
  | n + 1, .ended :: events => Answered n events
  | n + 1, .delivered _ :: events => Answered (n + 1) events
  | n + 1, .began :: events => Answered (n + 1) events
  | n + 1, .processed _ :: events => Answered (n + 1) events

/-- Whether an execution of `process_signals` is current after an event. -/
def Event.inside (before : Bool) : Event → Bool
  | .began => true
  | .ended => false
  | _ => before

/-- Each delivery of SIGTERM is answered in the current or the next execution of
    `process_signals`. -/
def AllAnswered : Bool → List Event → Prop
  | _, [] => True
  | inside, e :: events =>
    (e = .delivered sigterm → Answered (if inside then 2 else 1) events) ∧
      AllAnswered (e.inside inside) events

instance answeredDecidable : ∀ (n : ℕ) (events : List Event), Decidable (Answered n events)
  | 0, _ => isFalse (by simp [Answered])
  | _ + 1, [] => isTrue trivial
  | _ + 1, .stopCalled :: _ => isTrue trivial
  | n + 1, .ended :: events => answeredDecidable n events
  | n + 1, .delivered _ :: events => answeredDecidable (n + 1) events
  | n + 1, .began :: events => answeredDecidable (n + 1) events
  | n + 1, .processed _ :: events => answeredDecidable (n + 1) events

instance allAnsweredDecidable :
    ∀ (inside : Bool) (events : List Event), Decidable (AllAnswered inside events)
  | _, [] => isTrue trivial
  | inside, e :: events =>
    have := allAnsweredDecidable (e.inside inside) events
    inferInstanceAs (Decidable ((e = .delivered sigterm →
      Answered (if inside then 2 else 1) events) ∧ AllAnswered (e.inside inside) events))

/-- No signal is processed more often than it was delivered. -/
def ProcessedOnce (events : List Event) : Prop :=
  ∀ signo, events.count (.processed signo) ≤ events.count (.delivered signo)

/-! ## No signal is processed twice -/

/-- The signals that may still be processed. Between the copy and the clearing these are the copied
    ones alone. -/
def App.ahead (app : App) : List ℕ :=
  match app.pc with
  | .memset => app.signals.list
  | .testSignal i | .processSignal i => app.signals.list.drop i ++ app.pendingSignals.list
  | _ => app.pendingSignals.list

theorem count_ahead_store_le {x : ℕ} (hx : x ≠ 0) (app : App) (signo : ℕ) :
    (appSetupSignalHandle app signo).ahead.count x ≤
      app.ahead.count x + if signo = x then 1 else 0 := by
  obtain ⟨flags, pending, signals, pc⟩ := app
  have hstore : (pending.store signo).list.count x ≤
      pending.list.count x + if signo = x then 1 else 0 :=
    count_storeFirstFree_le hx signo _
  cases pc with
  | memset => simp [App.ahead, appSetupSignalHandle]
  | testSignal i | processSignal i =>
      simp only [App.ahead, appSetupSignalHandle, List.count_append]
      omega
  | _ => exact hstore

theorem count_empty {x : ℕ} (hx : x ≠ 0) : Slots.empty.list.count x = 0 := by
  simp [Slots.empty, List.count_replicate, Ne.symm hx]

/-- The slot a loop has come to, taken from those it has still to read. -/
theorem count_drop_at {x : ℕ} (hx : x ≠ 0) (slots : Slots) (i : ℕ) :
    (slots.list.drop i).count x =
      (slots.list.drop (i + 1)).count x + if slots.at' i = x then 1 else 0 := by
  by_cases hi : i < slots.list.length
  · have hat : slots.at' i = slots.list[i] := by simp [Slots.at', List.getElem?_eq_getElem hi]
    rw [List.drop_eq_getElem_cons hi, List.count_cons, hat]
    simp
  · have hat : slots.at' i = 0 := by simp [Slots.at', List.getElem?_eq_none (not_lt.1 hi)]
    rw [List.drop_eq_nil_of_le (not_lt.1 hi), List.drop_eq_nil_of_le (by omega), hat,
      if_neg (Ne.symm hx), Nat.add_zero]

/-- A step leaves no more of a signal than there was, less what it processed, plus what was
    delivered. -/
theorem step_count_le {x : ℕ} (hx : x ≠ 0) (app : App) (input : Input) :
    (step app input).2.count (.processed x) + (next app input).ahead.count x ≤
      app.ahead.count x + (step app input).2.count (.delivered x) := by
  cases input with
  | handler signo =>
      have h := count_ahead_store_le hx app signo
      simpa [step, next, List.count_cons] using h
  | callback flags =>
      by_cases hcall : app.pc.RunsCallbacks
      · simp [step, next, hcall, App.ahead]
      · simp [step, next, hcall]
  | main =>
      obtain ⟨flags, pending, signals, pc⟩ := app
      cases pc with
      | testBusNode | testPending | testFirst =>
          simp only [step, next, mainStep]
          split <;> simp [App.ahead]
      | memset => simp [step, next, mainStep, App.ahead, count_empty hx]
      | testSignal i =>
          simp only [step, next, mainStep]
          split <;> simp [App.ahead]
      | processSignal i =>
          have hdrop := count_drop_at hx signals i
          simp only [step, next, mainStep, App.ahead, List.count_append, List.count_cons]
          split <;> simp <;> omega
      | _ => simp [step, next, mainStep, App.ahead]

theorem count_processed_le {x : ℕ} (hx : x ≠ 0) (app : App) (inputs : List Input) :
    (trace app inputs).count (.processed x) ≤
      app.ahead.count x + (trace app inputs).count (.delivered x) := by
  induction inputs generalizing app with
  | nil => simp [trace]
  | cons input inputs ih =>
      have hstep := step_count_le hx app input
      have hrest := ih (next app input)
      simp only [trace, List.count_append]
      omega

/-- The slot that is about to be processed is not free. -/
def App.Reads (app : App) : Prop := ∀ i, app.pc = .processSignal i → app.signals.at' i ≠ 0

theorem reads_next {app : App} (h : app.Reads) (input : Input) : (next app input).Reads := by
  intro i hi
  cases input with
  | handler signo => exact h i hi
  | callback flags =>
      by_cases hcall : app.pc.RunsCallbacks
      · simp only [next, step, if_pos hcall] at hi ⊢
        exact h i hi
      · simp only [next, step, if_neg hcall] at hi ⊢
        exact h i hi
  | main =>
      obtain ⟨flags, pending, signals, pc⟩ := app
      cases pc with
      | testBusNode | testPending | testFirst =>
          simp only [next, step, mainStep] at hi
          split at hi <;> simp at hi
      | testSignal j =>
          simp only [next, step, mainStep] at hi ⊢
          split at hi
          · next hj => simp_all
          · simp at hi
      | _ => simp [next, step, mainStep] at hi

theorem not_processed_zero {app : App} (h : app.Reads) (inputs : List Input) :
    .processed 0 ∉ trace app inputs := by
  induction inputs generalizing app with
  | nil => simp [trace]
  | cons input inputs ih =>
      simp only [trace, List.mem_append, not_or]
      refine ⟨?_, ih (reads_next h input)⟩
      cases input with
      | handler signo => simp [step]
      | callback flags => by_cases hcall : app.pc.RunsCallbacks <;> simp [step, hcall]
      | main =>
          obtain ⟨flags, pending, signals, pc⟩ := app
          cases pc with
          | testBusNode | testPending | testFirst | testSignal i =>
              simp only [step, mainStep]
              split <;> simp
          | processSignal i =>
              have hi : signals.at' i ≠ 0 := h i rfl
              simp only [step, mainStep]
              split <;> simp [Ne.symm hi]
          | _ => simp [step, mainStep]

theorem processedOnce_trace (flags : Flags) (inputs : List Input) :
    ProcessedOnce (trace (initial flags) inputs) := by
  intro signo
  by_cases hsigno : signo = 0
  · have hreads : (initial flags).Reads := by simp [App.Reads, initial]
    rw [hsigno, List.count_eq_zero.2 (not_processed_zero hreads inputs)]
    exact Nat.zero_le _
  · have h := count_processed_le hsigno (initial flags) inputs
    have hahead : (initial flags).ahead.count signo = 0 := count_empty hsigno
    omega

/-! ## What is on its way is answered -/

/-- A loop over the slots comes to a signal that stops the app. -/
def HasStop (slots : List ℕ) : Prop := ∃ signo ∈ occupied slots, callsStop signo = true

theorem HasStop.store {slots : List ℕ} (h : HasStop slots) (signo : ℕ) :
    HasStop (storeFirstFree signo slots) := by
  obtain ⟨s, hs, hstop⟩ := h
  exact ⟨s, (occupied_prefix_storeFirstFree signo slots).subset hs, hstop⟩

theorem hasStop_store_sigterm {slots : List ℕ} (hfree : 0 ∈ slots) :
    HasStop (storeFirstFree sigterm slots) :=
  ⟨sigterm, mem_occupied_storeFirstFree (by decide) hfree, by decide⟩

/-- The loop passes the slot it has come to, unless that one stops the app. -/
theorem HasStop.advance {slots : Slots} {i : ℕ} (h : HasStop (slots.list.drop i)) :
    i < maxSignalCount ∧ slots.at' i ≠ 0 ∧
      (callsStop (slots.at' i) = false → HasStop (slots.list.drop (i + 1))) := by
  obtain ⟨signo, hmem, hstop⟩ := h
  by_cases hi : i < slots.list.length
  · have hat : slots.at' i = slots.list[i] := by simp [Slots.at', List.getElem?_eq_getElem hi]
    rw [List.drop_eq_getElem_cons hi, ← hat] at hmem
    by_cases hzero : slots.at' i = 0
    · simp [occupied, hzero] at hmem
    · refine ⟨slots.length_list ▸ hi, hzero, fun hno => ⟨signo, ?_, hstop⟩⟩
      rw [occupied, List.takeWhile_cons_of_pos (by simpa using hzero)] at hmem
      obtain rfl | hrest := List.mem_cons.1 hmem
      · rw [hno] at hstop
        exact absurd hstop Bool.false_ne_true
      · exact hrest
  · rw [List.drop_eq_nil_of_le (not_lt.1 hi)] at hmem
    simp [occupied] at hmem

theorem HasStop.first {slots : Slots} (h : HasStop slots.list) : slots.at' 0 ≠ 0 :=
  (HasStop.advance (i := 0) (by simpa using h)).2.1

theorem hasStop_of_first {slots : Slots} (h : callsStop (slots.at' 0) = true) :
    HasStop slots.list := by
  obtain ⟨list, hlength⟩ := slots
  cases list with
  | nil => simp [maxSignalCount] at hlength
  | cons slot rest =>
      have hslot : callsStop slot = true := h
      have hne : slot ≠ 0 := by
        rintro rfl
        exact absurd hslot (by decide)
      refine ⟨slot, ?_, hslot⟩
      simp [occupied, hne]

/-- A call of `stop` is on its way within `n` executions of `process_signals`, the current one
    included: the signal is among the copied ones that are still to be read, or in the slots that
    the current execution will copy, or, after the copy, in those the next execution will. -/
def App.StopWithin (app : App) (n : ℕ) : Prop :=
  match app.pc with
  | .memset => 1 ≤ n ∧ HasStop app.signals.list
  | .testSignal i | .processSignal i =>
    1 ≤ n ∧ HasStop (app.signals.list.drop i) ∨ 2 ≤ n ∧ HasStop app.pendingSignals.list
  | _ => 1 ≤ n ∧ HasStop app.pendingSignals.list

theorem App.StopWithin.pos {app : App} {n : ℕ} (h : app.StopWithin n) : 1 ≤ n := by
  obtain ⟨flags, pending, signals, pc⟩ := app
  cases pc with
  | testSignal i | processSignal i => obtain h | h := h <;> omega
  | _ => exact h.1

theorem App.StopWithin.handler {app : App} {n : ℕ} (h : app.StopWithin n) (signo : ℕ) :
    (appSetupSignalHandle app signo).StopWithin n := by
  obtain ⟨flags, pending, signals, pc⟩ := app
  cases pc with
  | memset => exact h
  | testSignal i | processSignal i => exact h.imp_right fun ⟨hn, hs⟩ => ⟨hn, hs.store signo⟩
  | _ => exact ⟨h.1, h.2.store signo⟩

/-- What is on its way is answered, whatever else happens. -/
theorem answered_of_stopWithin {app : App} {n : ℕ} (h : app.StopWithin n) (inputs : List Input) :
    Answered n (trace app inputs) := by
  induction inputs generalizing app n with
  | nil =>
      obtain ⟨m, rfl⟩ : ∃ m, n = m + 1 := ⟨n - 1, by have := h.pos; omega⟩
      trivial
  | cons input inputs ih =>
      obtain ⟨m, rfl⟩ : ∃ m, n = m + 1 := ⟨n - 1, by have := h.pos; omega⟩
      cases input with
      | handler signo => exact ih (h.handler signo)
      | callback flags =>
          by_cases hcall : app.pc.RunsCallbacks
          · simp only [trace, step, next, if_pos hcall, List.nil_append]
            exact ih h
          · simp only [trace, step, next, if_neg hcall, List.nil_append]
            exact ih h
      | main =>
          obtain ⟨flags, pending, signals, pc⟩ := app
          cases pc with
          | testBusNode =>
              simp only [trace, step, next, mainStep]
              split
              · exact ih h
              · exact ih h
          | testPending | testFirst =>
              have hfirst : pending.at' 0 ≠ 0 := h.2.first
              simp only [trace, step, next, mainStep, if_pos hfirst, if_neg hfirst]
              exact ih h
          | memset =>
              have hs : HasStop (signals.list.drop 0) := h.2
              exact ih (Or.inl ⟨h.1, hs⟩)
          | testSignal i =>
              obtain ⟨hn, hs⟩ | ⟨hn, hs⟩ := h
              · have hreads : i < maxSignalCount ∧ signals.at' i ≠ 0 :=
                  ⟨hs.advance.1, hs.advance.2.1⟩
                simp only [trace, step, next, mainStep, if_pos hreads]
                exact ih (Or.inl ⟨hn, hs⟩)
              · obtain ⟨k, rfl⟩ : ∃ k, m = k + 1 := ⟨m - 1, by omega⟩
                simp only [trace, step, next, mainStep]
                split
                · exact ih (Or.inr ⟨hn, hs⟩)
                · -- the current execution ends, and the next one copies the slots
                  exact ih (n := k + 1) ⟨by omega, hs⟩
          | processSignal i =>
              cases hcall : callsStop (signals.at' i) with
              | true => simp [trace, step, next, mainStep, hcall, Answered]
              | false =>
                  simp only [trace, step, next, mainStep, hcall]
                  exact ih (h.imp_left fun ⟨hn, hs⟩ => ⟨hn, hs.advance.2.2 hcall⟩)
          | _ => exact ih h

/-! ## Deliveries that are kept -/

/-- Whether an execution of `process_signals` is current. -/
def App.inside (app : App) : Bool :=
  match app.pc with
  | .testFirst | .declareSignals | .memcpy | .memset | .testSignal _ | .processSignal _ => true
  | _ => false

/-- In how many executions of `process_signals` a delivery is to be answered. -/
def App.deadline (app : App) : ℕ := if app.inside then 2 else 1

/-- A delivery of SIGTERM is kept: it finds a free slot and does not fall between the copy and the
    clearing, or a call of `stop` is on its way already. -/
def Kept (app : App) : Input → Prop
  | .handler signo => signo = sigterm →
    0 ∈ app.pendingSignals.list ∧ app.pc ≠ .memset ∨ app.StopWithin app.deadline
  | _ => True

theorem stopWithin_of_kept {app : App} (h : Kept app (.handler sigterm)) :
    (appSetupSignalHandle app sigterm).StopWithin app.deadline := by
  obtain ⟨hfree, hpc⟩ | hahead := h rfl
  · have hstop : HasStop (app.pendingSignals.store sigterm).list := hasStop_store_sigterm hfree
    obtain ⟨flags, pending, signals, pc⟩ := app
    cases pc with
    | memset => exact absurd rfl hpc
    | testSignal i | processSignal i => exact Or.inr ⟨le_rfl, hstop⟩
    | testFirst | declareSignals | memcpy => exact ⟨Nat.le_succ 1, hstop⟩
    | _ => exact ⟨le_rfl, hstop⟩
  · exact hahead.handler sigterm

theorem allAnswered_append {front back : List Event} (h : .delivered sigterm ∉ front)
    (inside : Bool) :
    AllAnswered inside (front ++ back) ↔
      AllAnswered (front.foldl (fun b e => e.inside b) inside) back := by
  induction front generalizing inside with
  | nil => rfl
  | cons e front ih =>
      rw [List.mem_cons, not_or] at h
      obtain ⟨hne, hrest⟩ := h
      simp only [List.cons_append, AllAnswered, List.foldl_cons, ih hrest]
      exact and_iff_right fun he => absurd he.symm hne

/-- The events of a statement of the main thread, and of a callback, move the reader along with the
    program counter. -/
theorem inside_next (app : App) (input : Input) :
    (step app input).2.foldl (fun b e => e.inside b) app.inside = (next app input).inside := by
  cases input with
  | handler signo => rfl
  | callback flags => by_cases hcall : app.pc.RunsCallbacks <;> simp [step, next, hcall, App.inside]
  | main =>
      obtain ⟨flags, pending, signals, pc⟩ := app
      cases pc with
      | testBusNode | testPending | testFirst | testSignal i =>
          simp only [step, next, mainStep]
          split <;> rfl
      | processSignal i =>
          simp only [step, next, mainStep]
          split <;> rfl
      | _ => rfl

theorem not_delivered (app : App) (input : Input) (h : input ≠ .handler sigterm) :
    .delivered sigterm ∉ (step app input).2 := by
  cases input with
  | handler signo =>
      have hne : ¬ sigterm = signo := fun he => h (by rw [he])
      simp [step, hne]
  | callback flags => by_cases hcall : app.pc.RunsCallbacks <;> simp [step, hcall]
  | main =>
      obtain ⟨flags, pending, signals, pc⟩ := app
      cases pc with
      | testBusNode | testPending | testFirst | testSignal i | processSignal i =>
          simp only [step, mainStep]
          split <;> simp
      | _ => simp [step, mainStep]

/-- A run that keeps its deliveries of SIGTERM answers all of them. -/
theorem allAnswered_of_kept {app : App} {inputs : List Input}
    (h : Run.StepsMeet next Kept app inputs) : AllAnswered app.inside (trace app inputs) := by
  induction inputs generalizing app with
  | nil => trivial
  | cons input inputs ih =>
      obtain ⟨hkept, hrest⟩ := h
      have hback := ih hrest
      rw [← inside_next app input] at hback
      by_cases hterm : input = .handler sigterm
      · subst hterm
        exact ⟨fun _ => answered_of_stopWithin (stopWithin_of_kept hkept) inputs, hback⟩
      · exact (allAnswered_append (not_delivered app input hterm) app.inside).2 hback

/-! ## Runs with the one signal the handler is installed for -/

/-- All stored signals stop the app, and an execution that reaches the copy has one to copy. -/
structure App.StopsOnly (app : App) : Prop where
  pending : ∀ signo ∈ app.pendingSignals.list, signo ≠ 0 → callsStop signo = true
  first : app.pc = .declareSignals ∨ app.pc = .memcpy → app.pendingSignals.at' 0 ≠ 0
  copied : app.pc = .memset → HasStop app.signals.list

theorem mem_storeFirstFree {x signo : ℕ} {slots : List ℕ}
    (h : x ∈ storeFirstFree signo slots) : x = signo ∨ x ∈ slots := by
  induction slots with
  | nil => simp [storeFirstFree] at h
  | cons slot slots ih =>
      by_cases hslot : slot = 0
      · simp only [storeFirstFree, if_pos hslot, List.mem_cons] at h
        exact h.imp_right (List.mem_cons_of_mem slot)
      · simp only [storeFirstFree, if_neg hslot, List.mem_cons] at h
        obtain rfl | hrest := h
        · exact Or.inr List.mem_cons_self
        · exact (ih hrest).imp_right (List.mem_cons_of_mem slot)

/-- A signal that took the first slot stays there until the slots are cleared. -/
theorem at_zero_store {slots : Slots} (h : slots.at' 0 ≠ 0) (signo : ℕ) :
    (slots.store signo).at' 0 = slots.at' 0 := by
  obtain ⟨list, hlength⟩ := slots
  cases list with
  | nil => simp [maxSignalCount] at hlength
  | cons slot rest =>
      have hne : slot ≠ 0 := h
      simp [Slots.store, Slots.at', storeFirstFree, hne]

theorem Slots.at_mem (slots : Slots) : slots.at' 0 ∈ slots.list := by
  obtain ⟨list, hlength⟩ := slots
  cases list with
  | nil => simp [maxSignalCount] at hlength
  | cons slot rest => exact List.mem_cons_self

theorem App.StopsOnly.next {app : App} (h : app.StopsOnly) {input : Input}
    (hinput : ∀ signo, input = .handler signo → signo = sigterm) : (next app input).StopsOnly := by
  cases input with
  | handler signo =>
      obtain rfl := hinput signo rfl
      constructor
      · intro x hx hne
        obtain rfl | hold := mem_storeFirstFree hx
        · rfl
        · exact h.pending x hold hne
      · intro hpc
        have hfirst := h.first hpc
        exact (at_zero_store hfirst sigterm).symm ▸ hfirst
      · exact h.copied
  | callback flags =>
      by_cases hcall : app.pc.RunsCallbacks
      · simp only [Signals.next, step, if_pos hcall]
        exact ⟨h.pending, h.first, h.copied⟩
      · simp only [Signals.next, step, if_neg hcall]
        exact h
  | main =>
      obtain ⟨flags, pending, signals, pc⟩ := app
      have hpending : ∀ signo ∈ pending.list, signo ≠ 0 → callsStop signo = true := h.pending
      cases pc with
      | testBusNode | testPending | testSignal i =>
          simp only [Signals.next, step, mainStep]
          split <;> exact ⟨hpending, by simp, by simp⟩
      | testFirst =>
          simp only [Signals.next, step, mainStep]
          split
          · exact ⟨hpending, by simp, by simp⟩
          · next hfirst => exact ⟨hpending, fun _ => hfirst, by simp⟩
      | declareSignals =>
          exact ⟨hpending, fun _ => h.first (Or.inl rfl), by simp [Signals.next, step, mainStep]⟩
      | memcpy =>
          have hfirst : pending.at' 0 ≠ 0 := h.first (Or.inr rfl)
          refine ⟨hpending, by simp [Signals.next, step, mainStep], fun _ => ?_⟩
          exact hasStop_of_first (hpending _ pending.at_mem hfirst)
      | memset =>
          refine ⟨fun signo hmem hne => ?_, by simp [Signals.next, step, mainStep],
            by simp [Signals.next, step, mainStep]⟩
          exact absurd (List.eq_of_mem_replicate hmem) hne
      | _ => exact ⟨hpending, by simp [Signals.next, step, mainStep],
          by simp [Signals.next, step, mainStep]⟩

theorem App.StopsOnly.kept {app : App} (h : app.StopsOnly) (input : Input) : Kept app input := by
  cases input with
  | main | callback flags => trivial
  | handler signo =>
      rintro -
      have hpending := h.pending
      have hcopied := h.copied
      obtain ⟨flags, pending, signals, pc⟩ := app
      by_cases hpc : pc = .memset
      · subst hpc
        exact Or.inr ⟨Nat.le_succ 1, hcopied rfl⟩
      by_cases hfree : 0 ∈ pending.list
      · exact Or.inl ⟨hfree, hpc⟩
      · -- all slots are taken, so the first one holds a signal that stops the app
        right
        have hfirst : pending.at' 0 ≠ 0 := fun hzero => hfree (hzero ▸ pending.at_mem)
        have hstop : HasStop pending.list :=
          hasStop_of_first (hpending _ pending.at_mem hfirst)
        cases pc with
        | memset => exact absurd rfl hpc
        | testSignal i | processSignal i => exact Or.inr ⟨le_rfl, hstop⟩
        | testFirst | declareSignals | memcpy => exact ⟨Nat.le_succ 1, hstop⟩
        | _ => exact ⟨le_rfl, hstop⟩

/-- With the one signal `setup_signal` installs the handler for, every delivery is kept. -/
theorem kept_of_sigterm {app : App} (h : app.StopsOnly) {inputs : List Input}
    (hinputs : ∀ signo, .handler signo ∈ inputs → signo = sigterm) :
    Run.StepsMeet next Kept app inputs := by
  induction inputs generalizing app with
  | nil => trivial
  | cons input inputs ih =>
      have hnext : (next app input).StopsOnly :=
        h.next fun signo he => hinputs signo (he ▸ List.mem_cons_self)
      exact ⟨h.kept input, ih hnext fun signo hmem => hinputs signo (List.mem_cons_of_mem _ hmem)⟩

theorem stopsOnly_initial (flags : Flags) : (initial flags).StopsOnly := by
  refine ⟨fun signo hmem hne => ?_, by simp [initial], by simp [initial]⟩
  exact absurd (List.eq_of_mem_replicate hmem) hne

/-- **Every delivery of SIGTERM that is kept is answered** in the current or the next execution of
    `process_signals`, in any run and whatever becomes of the others; all are kept when the handler
    runs with SIGTERM only; and no run processes a signal more often than it was delivered. -/
theorem sigterm_answered (flags : Flags) (inputs : List Input) :
    (∀ front back, inputs = front ++ .handler sigterm :: back →
      Kept (Run.run next (initial flags) front) (.handler sigterm) →
        ∃ rest, trace (initial flags) inputs =
            trace (initial flags) front ++ .delivered sigterm :: rest ∧
          Answered (Run.run next (initial flags) front).deadline rest) ∧
    ((∀ signo, .handler signo ∈ inputs → signo = sigterm) →
      AllAnswered false (trace (initial flags) inputs)) ∧
    ProcessedOnce (trace (initial flags) inputs) := by
  refine ⟨?_, fun h => ?_, processedOnce_trace flags inputs⟩
  · rintro front back rfl hkept
    refine ⟨_, trace_append (initial flags) front _, ?_⟩
    exact answered_of_stopWithin (stopWithin_of_kept hkept) back
  · exact allAnswered_of_kept (kept_of_sigterm (stopsOnly_initial flags) h)

/-- An app with its bus node and its loop -/
def running : Flags := ⟨true, true, false, false, false, false⟩

/-- SIGUSR1 -/
def sigusr1 : ℕ := 10

/-- A round that processes SIGUSR1, with SIGTERM delivered between the copy and the clearing, and a
    next round that processes SIGUSR1 again. -/
def clearedRun : List Input :=
  .handler sigusr1 :: List.replicate 9 .main ++ .handler sigterm :: List.replicate 4 .main ++
    .handler sigusr1 :: List.replicate 14 .main

/-- SIGTERM after as many signals as there are slots, and the round that processes these. -/
def fullRun : List Input :=
  List.replicate maxSignalCount (.handler sigusr1) ++ .handler sigterm :: List.replicate 75 .main

/-- After a SIGTERM that was lost, another one is answered. -/
theorem sigterm_answered_clearedRun :
    ∃ rest, trace (initial running) (clearedRun ++ .handler sigterm :: List.replicate 11 .main) =
        trace (initial running) clearedRun ++ .delivered sigterm :: rest ∧
      Answered (Run.run next (initial running) clearedRun).deadline rest :=
  (sigterm_answered running _).1 clearedRun _ rfl fun _ =>
    Or.inl ⟨by decide +kernel, by decide +kernel⟩

theorem not_allAnswered_clearedRun_fullRun :
    ¬ AllAnswered false (trace (initial running) clearedRun) ∧
      ¬ AllAnswered false (trace (initial running) fullRun) := by
  decide +kernel

end LibAtapp.Signals
