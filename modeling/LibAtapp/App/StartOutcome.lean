import LibAtapp.App.Startup

set_option autoImplicit false

/-! # When an app keeps its modules

The modules of an app that was started, or whose start was rolled back, are stopped and cleaned up
as they should be, as long as the flags fit that the app finds. A start that has initialised a module
and cannot write its pid file leaves the module without `stop()` and `cleanup()`, and so does a
stopping app that finds it disabled by its own callbacks. -/

namespace LibAtapp.Lifecycle

open App

/-! ## The condition -/

/-- Whether the module at `i` is enabled before the start. -/
def enabledForSetup (modules : List (Bool × SuspendedStop)) (i : Nat) : Bool :=
  (modules[i]?.map (·.1)).getD false

namespace App.Startup

variable (startup : Startup) (modules : List (Bool × SuspendedStop))

/-- Whether the module at `i` is still enabled after its `setup()`. -/
def enabledForReload (i : Nat) : Bool := enabledForSetup modules i && (startup.setup i).enabled

/-- Whether the module at `i` is still enabled after its `reload()`. -/
def enabledForInit (i : Nat) : Bool :=
  startup.enabledForReload modules i && (startup.reload i).enabled

/-- What the start meets before the first `init()` is in order. -/
structure Prepares (timeout : Bool) : Prop where
  setup : ∀ i, enabledForSetup modules i = true → 0 ≤ (startup.setup i).result
  setupLog : 0 ≤ startup.setupLog
  setupTickTimer : 0 ≤ startup.setupTickTimer
  setupAtbus : 0 ≤ startup.setupAtbus
  setupCurlMulti : 0 ≤ startup.setupCurlMulti
  reload : ∀ i, startup.enabledForReload modules i = true → 0 ≤ (startup.reload i).result
  inTime : timeout = false ∧ startup.timedOutInSetupLog = false ∧ startup.timedOutInReload = false

/-- Everything that the start meets before the pid file is in order. -/
structure ReachesPidfile (timeout : Bool) : Prop where
  prepares : startup.Prepares modules timeout
  init : ∀ i, startup.enabledForInit modules i = true →
    0 ≤ (startup.init i).result ∧ (startup.init i).timedOut = false
  inTime : startup.timedOutInCallback = false

end App.Startup

namespace App

/-! ## Before the first `init()` -/

/-- Whether the module at `i` is enabled. -/
def enabledAt (app : App) (i : Nat) : Bool := (app.modules[i]?.map (·.enabled)).getD false

theorem enabledAt_construct (modules : List (Bool × SuspendedStop)) (timeout : Bool) (i : Nat) :
    (construct modules timeout).enabledAt i = enabledForSetup modules i := by
  unfold enabledAt enabledForSetup construct
  rw [List.getElem?_map, Option.map_map]
  rfl

theorem forall_enabled_iff {app : App} {P : Nat → Prop} :
    (∀ j m, app.modules[j]? = some m → m.enabled = true → P j) ↔
      ∀ j, app.enabledAt j = true → P j := by
  refine ⟨fun h j hj => ?_, fun h j m hm hon => h j (by simp [enabledAt, hm, hon])⟩
  unfold enabledAt at hj
  cases hm : app.modules[j]? with
  | none => rw [hm] at hj; cases hj
  | some m => exact h j m hm (by rwa [hm] at hj)

section Equations

variable {outcome : Nat → Setup} {i : Nat} {m : Module} {rest : List Module}

theorem callEnabled_disabled (h : m.enabled = false) :
    callEnabled outcome i (m :: rest)
      = ((callEnabled outcome (i + 1) rest).1, m :: (callEnabled outcome (i + 1) rest).2) := by
  simp only [callEnabled, h, Bool.false_eq_true, if_false]

theorem callEnabled_failed (h : m.enabled = true) (hresult : (outcome i).result < 0) :
    callEnabled outcome i (m :: rest)
      = ((outcome i).result, { m with enabled := (outcome i).enabled } :: rest) := by
  simp only [callEnabled, h, if_true, if_pos hresult]

theorem callEnabled_called (h : m.enabled = true) (hresult : 0 ≤ (outcome i).result) :
    callEnabled outcome i (m :: rest)
      = ((callEnabled outcome (i + 1) rest).1,
          { m with enabled := (outcome i).enabled } :: (callEnabled outcome (i + 1) rest).2) := by
  simp only [callEnabled, h, if_true, if_neg (Int.not_lt.2 hresult)]

end Equations

/-- The calls succeed exactly if the callback of every enabled module does, and then leave every
    module enabled that its callback leaves enabled. -/
theorem callEnabled_succeeds (outcome : Nat → Setup) (i : Nat) (xs : List Module) :
    (0 ≤ (callEnabled outcome i xs).1 ↔
      ∀ j m, xs[j]? = some m → m.enabled = true → 0 ≤ (outcome (i + j)).result) ∧
    (0 ≤ (callEnabled outcome i xs).1 →
      ∀ j, (callEnabled outcome i xs).2[j]?.map (·.enabled)
        = xs[j]?.map fun m => m.enabled && (outcome (i + j)).enabled) := by
  induction xs generalizing i with
  | nil => exact ⟨⟨fun _ _ _ hm => absurd hm nofun, fun _ => Int.le_refl 0⟩, fun _ _ => rfl⟩
  | cons m rest ih =>
      obtain ⟨hlater, hflags⟩ := ih (i + 1)
      simp only [show ∀ j, i + 1 + j = i + (j + 1) by omega] at hlater hflags
      cases henabled : m.enabled with
      | false =>
          rw [callEnabled_disabled henabled]
          refine ⟨hlater.trans ⟨fun h j x hx hon => ?_, fun h j x hx => h (j + 1) x hx⟩,
            fun h j => ?_⟩
          · cases j with
            | zero => cases hx; rw [henabled] at hon; cases hon
            | succ j => exact h j x hx hon
          · cases j with
            | zero => simp [henabled]
            | succ j => exact hflags h j
      | true =>
          by_cases hresult : (outcome i).result < 0
          · rw [callEnabled_failed henabled hresult]
            have hno : ¬ 0 ≤ (outcome i).result := by omega
            exact ⟨⟨fun h => absurd h hno, fun h => absurd (h 0 m rfl henabled) hno⟩,
              fun h => absurd h hno⟩
          · rw [callEnabled_called henabled (Int.not_lt.1 hresult)]
            refine ⟨hlater.trans ⟨fun h j x hx hon => ?_, fun h j x hx => h (j + 1) x hx⟩,
              fun h j => ?_⟩
            · cases j with
              | zero => exact Int.not_lt.1 hresult
              | succ j => exact h j x hx hon
            · cases j with
              | zero => simp [henabled]
              | succ j => exact hflags h j

theorem callEnabled_calls (outcome : Nat → Setup) (i : Nat) (xs : List Module) :
    (callEnabled outcome i xs).2.map (·.calls) = xs.map (·.calls) := by
  induction xs generalizing i with
  | nil => rfl
  | cons m rest ih =>
      cases henabled : m.enabled with
      | false => rw [callEnabled_disabled henabled, List.map_cons, List.map_cons, ih]
      | true =>
          by_cases hresult : (outcome i).result < 0
          · rw [callEnabled_failed henabled hresult]
            rfl
          · rw [callEnabled_called henabled (Int.not_lt.1 hresult), List.map_cons, List.map_cons, ih]

theorem callEach_succeeds (app : App) (outcome : Nat → Setup) :
    0 ≤ (app.callEach outcome).1 ↔ ∀ j, app.enabledAt j = true → 0 ≤ (outcome j).result := by
  rw [← forall_enabled_iff]
  have hsucceeds := (callEnabled_succeeds outcome 0 app.modules).1
  simp only [Nat.zero_add] at hsucceeds
  exact hsucceeds

theorem Fresh.callEach {app : App} (h : Fresh app) (outcome : Nat → Setup) :
    Fresh (app.callEach outcome).2 := by
  refine ⟨fun m hm => ?_, h.cleaned⟩
  have hcalls : m.calls ∈ (callEnabled outcome 0 app.modules).2.map (·.calls) :=
    List.mem_map.2 ⟨m, hm, rfl⟩
  rw [callEnabled_calls] at hcalls
  obtain ⟨x, hx, heq⟩ := List.mem_map.1 hcalls
  rw [← heq]
  exact h.calls x hx

theorem enabledAt_callEach (app : App) (outcome : Nat → Setup) (h : 0 ≤ (app.callEach outcome).1)
    (i : Nat) :
    (app.callEach outcome).2.enabledAt i = (app.enabledAt i && (outcome i).enabled) := by
  show (Option.map _ (callEnabled outcome 0 app.modules).2[i]?).getD false = _
  rw [(callEnabled_succeeds outcome 0 app.modules).2 h, Nat.zero_add]
  unfold enabledAt
  cases app.modules[i]? <;> rfl

theorem fresh_construct (modules : List (Bool × SuspendedStop)) (timeout : Bool) :
    Fresh (construct modules timeout) := by
  refine ⟨fun m hm => ?_, rfl⟩
  obtain ⟨x, -, rfl⟩ := List.mem_map.1 hm
  rfl

/-- What `prepare` comes to: it fails before the first `init()`, or all is in order up to there. -/
theorem prepare_cases (modules : List (Bool × SuspendedStop)) (timeout : Bool) (startup : Startup) :
    let prepared := (construct modules timeout).prepare startup
    Fresh prepared.2 ∧
      (¬ startup.Prepares modules timeout ∧ prepared.1 < 0 ∨
        startup.Prepares modules timeout ∧ prepared.1 = 0 ∧ prepared.2.timeout = false ∧
          ∀ i, prepared.2.enabledAt i = startup.enabledForInit modules i) := by
  have hsetup := callEach_succeeds (construct modules timeout) startup.setup
  have hfresh := (fresh_construct modules timeout).callEach startup.setup
  have hflags := enabledAt_callEach (construct modules timeout) startup.setup
  simp only [enabledAt_construct] at hsetup hflags
  have htimeout : ((construct modules timeout).callEach startup.setup).2.timeout = timeout := rfl
  simp only [prepare]
  generalize (construct modules timeout).callEach startup.setup = setup at *
  by_cases hres : setup.1 < 0
  · rw [if_pos hres]
    exact ⟨hfresh, .inl ⟨fun hall => absurd (hsetup.2 hall.setup) (Int.not_le.2 hres), hres⟩⟩
  rw [if_neg hres]
  by_cases hlog : startup.setupLog < 0
  · rw [if_pos hlog]
    exact ⟨hfresh, .inl ⟨fun hall => absurd hall.setupLog (Int.not_le.2 hlog), hlog⟩⟩
  rw [if_neg hlog]
  have hexpired : Fresh (setup.2.expire startup.timedOutInSetupLog) :=
    ⟨hfresh.calls, hfresh.cleaned⟩
  cases hlate : (setup.2.expire startup.timedOutInSetupLog).timeout with
  | true =>
      rw [if_pos rfl]
      refine ⟨hexpired, .inl ⟨fun hall => ?_, operationTimeout_neg⟩⟩
      rw [expire, htimeout, hall.inTime.1, hall.inTime.2.1] at hlate
      cases hlate
  | false =>
      rw [if_neg Bool.false_ne_true]
      by_cases htick : startup.setupTickTimer < 0
      · rw [if_pos htick]
        have hneg : EN_ATAPP_ERR_SETUP_TIMER < 0 := by decide
        exact ⟨hexpired, .inl ⟨fun hall => absurd hall.setupTickTimer (Int.not_le.2 htick), hneg⟩⟩
      rw [if_neg htick]
      by_cases hatbus : startup.setupAtbus < 0
      · rw [if_pos hatbus]
        exact ⟨hexpired, .inl ⟨fun hall => absurd hall.setupAtbus (Int.not_le.2 hatbus), hatbus⟩⟩
      rw [if_neg hatbus]
      by_cases hcurl : startup.setupCurlMulti < 0
      · rw [if_pos hcurl]
        exact ⟨hexpired, .inl ⟨fun hall => absurd hall.setupCurlMulti (Int.not_le.2 hcurl), hcurl⟩⟩
      rw [if_neg hcurl]
      -- what the setups have left enabled is reloaded
      have hready : ∀ i, (setup.2.expire startup.timedOutInSetupLog).enabledAt i
          = startup.enabledForReload modules i := hflags (Int.not_lt.1 hres)
      have hreload := callEach_succeeds (setup.2.expire startup.timedOutInSetupLog) startup.reload
      have hfresh' := hexpired.callEach startup.reload
      have hflags' := enabledAt_callEach (setup.2.expire startup.timedOutInSetupLog) startup.reload
      have htimeout' : ((setup.2.expire startup.timedOutInSetupLog).callEach
          startup.reload).2.timeout = false := hlate
      simp only [hready] at hreload hflags'
      generalize (setup.2.expire startup.timedOutInSetupLog).callEach startup.reload = reload at *
      by_cases hres' : reload.1 < 0
      · rw [if_pos hres']
        exact ⟨hfresh', .inl ⟨fun hall => absurd (hreload.2 hall.reload) (Int.not_le.2 hres'),
          hres'⟩⟩
      rw [if_neg hres']
      cases hlast : startup.timedOutInReload with
      | true =>
          rw [if_pos (by simp [expire])]
          refine ⟨⟨hfresh'.calls, hfresh'.cleaned⟩, .inl ⟨fun hall => ?_, operationTimeout_neg⟩⟩
          rw [hall.inTime.2.2] at hlast
          cases hlast
      | false =>
          rw [if_neg (by simp [expire, htimeout'])]
          rw [expire, htimeout, Bool.or_eq_false_iff] at hlate
          exact ⟨⟨hfresh'.calls, hfresh'.cleaned⟩, .inr ⟨⟨hsetup.1 (Int.not_lt.1 hres),
            Int.not_lt.1 hlog, Int.not_lt.1 htick, Int.not_lt.1 hatbus, Int.not_lt.1 hcurl,
            hreload.1 (Int.not_lt.1 hres'), hlate.1, hlate.2, hlast⟩, rfl,
            by simp [expire, htimeout'], hflags' (Int.not_lt.1 hres')⟩⟩

/-- What a start that gets to its first `init()` goes on with. -/
structure Prepared (modules : List (Bool × SuspendedStop)) (timeout : Bool) (startup : Startup)
    (app : App) : Prop where
  fresh : Fresh app
  inTime : app.timeout = false
  init : (construct modules timeout).init startup = app.initModules startup
  reaches : startup.ReachesPidfile modules timeout ↔ app.InitsAll startup
  enabledAt : ∀ i, app.enabledAt i = startup.enabledForInit modules i

section Prepare

variable {modules : List (Bool × SuspendedStop)} {timeout : Bool} {startup : Startup}

theorem prepared_of_prepares (h : startup.Prepares modules timeout) :
    Prepared modules timeout startup ((construct modules timeout).prepare startup).2 := by
  obtain ⟨hfresh, ⟨hnot, -⟩ | ⟨-, hzero, hclear, hflags⟩⟩ :=
    prepare_cases modules timeout startup
  · exact absurd h hnot
  · refine ⟨hfresh, hclear, ?_, ?_, hflags⟩
    · unfold init
      dsimp only
      rw [hzero, if_neg (Int.lt_irrefl 0)]
    · unfold InitsAll
      rw [forall_enabled_iff]
      simp only [hflags]
      exact ⟨fun hreaches => ⟨hreaches.init, hreaches.inTime⟩,
        fun hall => ⟨h, hall.1, hall.2⟩⟩

/-- A start that fails before the first `init()`. -/
theorem init_of_not_prepares (h : ¬ startup.Prepares modules timeout) :
    ∃ code after, (construct modules timeout).init startup = some (code, after) ∧ code < 0 ∧
      Fresh after := by
  obtain ⟨hfresh, ⟨-, hneg⟩ | ⟨hprepares, -⟩⟩ := prepare_cases modules timeout startup
  · refine ⟨_, _, ?_, hneg, hfresh⟩
    unfold init
    rw [if_pos hneg]
  · exact absurd hprepares h

end Prepare

/-! ## Keeping the lifecycle -/

/-- What a start owes to its modules: one that returns an error has rolled them back, and after
    one that succeeds the run keeps them. -/
def LifecycleKept (app : App) (startup : Startup) (passes : List Pass) : Prop :=
  ∀ code after, app.init startup = some (code, after) →
    (code < 0 → RollBackKept after) ∧ (0 ≤ code → Run.Always runInner NormalKept after passes)

/-- What a start and the run after it need: a start that gets to its pid file with a module that it
    has initialised writes it, and the flags fit that a rollback and the passes find. A rollback
    that does not come to an end owes nothing yet. -/
structure LifecycleFits (modules : List (Bool × SuspendedStop)) (timeout : Bool)
    (startup : Startup) (passes : List Pass) : Prop where
  pidfile : startup.ReachesPidfile modules timeout → (∃ i, startup.enabledForInit modules i = true) →
    startup.writePidfile = true
  rollBack : startup.Prepares modules timeout →
    ((construct modules timeout).init startup).isSome = true →
      ((construct modules timeout).prepare startup).2.RollBackFits startup
  passes : ∀ after, (construct modules timeout).init startup = some (0, after) →
    Run.StepsMeet runInner FlagsFit after passes

/-- A start comes to an end once the timeout fires while it is rolled back. -/
theorem init_isSome (modules : List (Bool × SuspendedStop)) (timeout : Bool) {startup : Startup}
    (hfires : ∃ r ∈ startup.rounds, r.timedOut = true) :
    ((construct modules timeout).init startup).isSome = true := by
  unfold init initModules
  dsimp only
  split_ifs
  · rfl
  · rw [Option.isSome_map, initFailedCleanup, Option.isSome_map]
    exact stopRounds_isSome hfires _ _
  · rfl
  · rfl

/-- A module that was only initialised has not got what it is due. -/
theorem not_rolledBack_init (result : Int) : ¬ RolledBack [.init result] := by
  intro hrolled
  generalize heq : [Callback.init result] = calls at hrolled
  cases hrolled with
  | closed _ hclosed =>
      cases hclosed with
      | inited _ seq => cases seq <;> cases heq
      | skipped seq hstopping => exact hstopping.ne_init heq.symm
  | failed _ seq => cases seq <;> cases heq
  | untouched => cases heq

/-- At the pid file the modules have got what they are due exactly if none was initialised. -/
theorem rollBackKept_iff_of_calls {app after : App} {startup : Startup}
    (hcalls : ∀ j : Nat, after.modules[j]?.map (·.calls)
      = app.modules[j]?.map fun m => if m.enabled then [.init (startup.init j).result] else [])
    (hcleaned : after.cleaned = []) : RollBackKept after ↔ ∀ i, app.enabledAt i = false := by
  constructor
  · intro hkept i
    by_contra hon
    have hinited := hcalls i
    unfold enabledAt at hon
    cases hm : app.modules[i]? with
    | none => simp [hm] at hon
    | some m =>
        simp only [hm, Option.map_some, Option.getD_some, Bool.not_eq_false] at hon hinited
        rw [if_pos hon] at hinited
        obtain ⟨x, hx, hxcalls⟩ := Option.map_eq_some_iff.1 hinited
        have hdue := hkept.1 x (List.mem_of_getElem? hx)
        rw [hxcalls] at hdue
        exact not_rolledBack_init _ hdue
  · intro hoff
    refine Fresh.rollBackKept ⟨fun m hm => ?_, hcleaned⟩
    obtain ⟨j, hj⟩ := List.mem_iff_getElem?.1 hm
    have hnone := hcalls j
    rw [hj, Option.map_some] at hnone
    obtain ⟨x, hx, hxcalls⟩ := Option.map_eq_some_iff.1 hnone.symm
    have hxoff := hoff j
    rw [enabledAt, hx, Option.map_some, Option.getD_some] at hxoff
    rw [hxoff, if_neg Bool.false_ne_true] at hxcalls
    exact hxcalls.symm

section Kept

variable {modules : List (Bool × SuspendedStop)} {timeout : Bool} {startup : Startup}
  {passes : List Pass} {app : App}

/-- A start that keeps the modules has written its pid file, if it gets there with one that it has
    initialised. -/
theorem Prepared.writes (h : Prepared modules timeout startup app)
    (hkept : LifecycleKept (construct modules timeout) startup passes)
    (hall : app.InitsAll startup) (hsome : ∃ i, startup.enabledForInit modules i = true) :
    startup.writePidfile = true := by
  obtain ⟨⟨code, after⟩, hreturns⟩ := Option.isSome_iff_exists.1 (initModules_isSome h.inTime hall)
  cases initModules_end h.fresh h.inTime hreturns with
  | rolledBack hnot => exact absurd hall hnot
  | started _ hwritten => exact hwritten
  | noPidfile _ _ hfailed hcalls hcleaned =>
      have hdue := (hkept code after (h.init.trans hreturns)).1 (by rw [hfailed]; decide)
      obtain ⟨i, hi⟩ := hsome
      rw [← h.enabledAt, (rollBackKept_iff_of_calls hcalls hcleaned).1 hdue i] at hi
      cases hi

/-- No rollback is needed where every `init()` succeeds in time. -/
theorem rollBackFits_of_initsAll (htimeout : app.timeout = false) (hall : app.InitsAll startup) :
    app.RollBackFits startup :=
  fun hneg => absurd hneg (Int.not_lt.2 (callInit_of_initsAll htimeout hall).1)

/-- A start that keeps the modules has found the flags fit, if it was rolled back. -/
theorem Prepared.rollBackFits (h : Prepared modules timeout startup app)
    (hkept : LifecycleKept (construct modules timeout) startup passes)
    (hends : ((construct modules timeout).init startup).isSome = true) :
    app.RollBackFits startup := by
  obtain ⟨⟨code, after⟩, hreturns⟩ := Option.isSome_iff_exists.1 hends
  cases initModules_end h.fresh h.inTime (h.init.symm.trans hreturns) with
  | rolledBack _ hneg hiff => exact hiff.1 ((hkept code after hreturns).1 hneg)
  | started hall => exact rollBackFits_of_initsAll h.inTime hall
  | noPidfile hall => exact rollBackFits_of_initsAll h.inTime hall

/-- A start that succeeds leaves an app that runs. -/
theorem Prepared.running {after : App} (h : Prepared modules timeout startup app)
    (hreturns : (construct modules timeout).init startup = some (0, after)) : after.Running := by
  generalize hcode : (0 : Int) = code at hreturns
  cases initModules_end h.fresh h.inTime (h.init.symm.trans hreturns) with
  | rolledBack _ hneg => omega
  | started _ _ _ hrunning => exact hrunning
  | noPidfile _ _ hfailed =>
      rw [← hcode] at hfailed
      cases hfailed

/-- Where the condition is met, the modules get what they are due at each end of a start. -/
theorem Prepared.kept (h : Prepared modules timeout startup app)
    (hrollBack : ((construct modules timeout).init startup).isSome = true → app.RollBackFits startup)
    (hfits : LifecycleFits modules timeout startup passes) :
    LifecycleKept (construct modules timeout) startup passes := by
  intro code after hreturns
  cases initModules_end h.fresh h.inTime (h.init.symm.trans hreturns) with
  | rolledBack _ hneg hiff =>
      have hround := hrollBack (by rw [hreturns]; rfl)
      exact ⟨fun _ => hiff.2 hround, fun hpos => absurd hneg (Int.not_lt.2 hpos)⟩
  | started _ _ hok hrunning =>
      subst hok
      refine ⟨fun hneg => absurd hneg (Int.lt_irrefl 0), fun _ => ?_⟩
      exact (hrunning.always_normalKept_iff passes).2 (hfits.passes after hreturns)
  | noPidfile hall hwritten hfailed hcalls hcleaned =>
      refine ⟨fun _ => (rollBackKept_iff_of_calls hcalls hcleaned).2 fun i => ?_, fun hpos => ?_⟩
      · by_contra hon
        rw [Bool.not_eq_false, h.enabledAt] at hon
        rw [hfits.pidfile (h.reaches.2 hall) ⟨i, hon⟩] at hwritten
        cases hwritten
      · rw [hfailed] at hpos
        exact absurd hpos (by decide)

end Kept

/-- **A start and the run after it keep the modules exactly if** the pid file is written whenever
    the start gets there with a module that it has initialised, and the flags fit that the app
    finds while it rolls back or stops. -/
theorem lifecycleKept_iff (modules : List (Bool × SuspendedStop)) (timeout : Bool)
    (startup : Startup) (passes : List Pass) :
    LifecycleKept (construct modules timeout) startup passes ↔
      LifecycleFits modules timeout startup passes := by
  by_cases hprepares : startup.Prepares modules timeout
  · have hprepared := prepared_of_prepares hprepares
    constructor
    · intro hkept
      refine ⟨fun hpid => hprepared.writes hkept (hprepared.reaches.1 hpid),
        fun _ => hprepared.rollBackFits hkept, fun after hreturns => ?_⟩
      have hruns := (hkept 0 after hreturns).2 (Int.le_refl 0)
      exact ((hprepared.running hreturns).always_normalKept_iff passes).1 hruns
    · exact fun hfits => hprepared.kept (hfits.rollBack hprepares) hfits
  · -- nothing was initialised
    obtain ⟨code, after, hinit, hneg, hfresh⟩ := init_of_not_prepares hprepares
    constructor
    · refine fun _ => ⟨fun hreaches => absurd hreaches.prepares hprepares,
        fun hall => absurd hall hprepares, fun after' hreturns => ?_⟩
      obtain ⟨rfl, -⟩ := Prod.mk.inj (Option.some.inj (hinit.symm.trans hreturns))
      exact absurd hneg (Int.lt_irrefl 0)
    · intro _ code' after' hreturns
      obtain ⟨rfl, rfl⟩ := Prod.mk.inj (Option.some.inj (hinit.symm.trans hreturns))
      exact ⟨fun _ => hfresh.rollBackKept, fun hpos => absurd hneg (Int.not_lt.2 hpos)⟩

/-- A start with one module, in which everything is in order but the pid file. -/
def noPidfileStart : Startup :=
  { setup := fun _ => {}, reload := fun _ => {}, init := fun _ => {}, writePidfile := false,
    rounds := [] }

/-- A start with one module, which disables itself in `init()`. -/
def selfDisabledStart : Startup :=
  { setup := fun _ => {}, reload := fun _ => {}, init := fun _ => { own := some false },
    writePidfile := true, rounds := [] }

/-- A pass in which the app is asked to stop. -/
def stopPass : Pass := { stop := true, visits := fun _ => {} }

/-- A module gets nothing after its `init()` when `init` returns the error of the pid file, and no
    `stop()` when it has disabled itself. -/
theorem not_lifecycleKept_noPidfile_selfDisabled :
    ¬ LifecycleKept (construct [(true, {})] false) noPidfileStart [] ∧
      ¬ LifecycleKept (construct [(true, {})] false) selfDisabledStart [stopPass] := by
  constructor
  · intro hkept
    have hreturns : (construct [(true, {})] false).init noPidfileStart
        = some (EN_ATAPP_ERR_WRITE_PID_FILE,
            { modules := [{ actived := true, calls := [.init 0] }] }) := by
      decide +kernel
    have hdue := ((hkept _ _ hreturns).1 (by decide)).1 _ List.mem_cons_self
    exact not_rolledBack_init 0 hdue
  · intro hkept
    have hreturns : (construct [(true, {})] false).init selfDisabledStart
        = some (0,
            { initialized := true,
              modules := [{ enabled := false, actived := true, calls := [.init 0] }] }) := by
      decide +kernel
    have hlast := ((hkept _ _ hreturns).2 (Int.le_refl 0)).last
    have hclosed := (hlast.1 _ List.mem_cons_self).2
    exact (Standing.closed_iff (.inl (due_init (Int.le_refl 0)).asked)).1 hclosed
      (due_init (Int.le_refl 0))

end App

end LibAtapp.Lifecycle
