import LibAtapp.Library.Run
import LibAtapp.Library.Sweep

set_option autoImplicit false

/-! # The lifecycle of modules

`app::init` sets up, reloads and initialises its modules in order, and rolls back when one of them
fails or the initialise timeout fires. The loop of a started app calls `stop()` of every enabled
module once the app is to stop, until all of them are disabled, and then cleans all of them up.

Every module keeps the callbacks that the app has called, in order; `cleaned` has the modules in
the order in which `cleanup()` was called. What the callbacks return and when the timers fire comes
from outside. A module may call `enable` and `disable` in any of its callbacks: what they have made
of its flag comes from outside as well, where the app reads the flag for the next time. -/

namespace LibAtapp.Lifecycle

/-! ## Modules -/

/-- A callback of a module, with what it returned where the app looks at it. -/
inductive Callback
  | init (result : Int)
  | stop (result : Int)
  | timeout
  | cleanup
  | initFailedStop (result : Int)
  | initFailedTimeout
  | initFailedCleanup
deriving DecidableEq, Repr

/-- `suspended_stop_info`, in nanoseconds; no deadline is `time_point::min()`. -/
structure SuspendedStop where
  stopSuspendCallback : Bool := false
  stopSuspendTimeout : Option Int := none
  stopSuspendDuration : Int := 5000000000
deriving DecidableEq

structure Module where
  enabled : Bool := true
  actived : Bool := false
  suspendedStop : SuspendedStop := {}
  calls : List Callback := []
deriving DecidableEq

namespace Module

/-- A module with the flags it has before the app starts. -/
def added (enabled : Bool) (suspendedStop : SuspendedStop) : Module :=
  { enabled := enabled, suspendedStop := suspendedStop }

def call (m : Module) (c : Callback) : Module := { m with calls := m.calls ++ [c] }

def active (m : Module) : Module := { m with actived := true }

def enable (m : Module) : Module := { m with enabled := true }

def disable (m : Module) : Module := { m with enabled := false, actived := false }

/-- The module after it has called `enable` or `disable` itself; the last call counts. -/
def own (m : Module) (change : Option Bool) : Module :=
  match change with
  | none => m
  | some true => m.enable
  | some false => m.disable

/-- `suspend_stop` leaves a deadline that is already running as it is. -/
def suspendStop (m : Module) (duration : Int) : Module :=
  { m with suspendedStop :=
      { m.suspendedStop with stopSuspendDuration := duration, stopSuspendCallback := true } }

/-- Whether the module still asks to wait, at the time `now`; `answer` is what its callback
    returns. The first call starts the deadline. -/
def checkSuspendStop (m : Module) (now : Int) (answer : Bool) : Bool × Module :=
  let info := m.suspendedStop
  if info.stopSuspendCallback then
    let deadline := info.stopSuspendTimeout.getD (now + info.stopSuspendDuration)
    if deadline ≤ now ∨ answer = false then
      (false, { m with suspendedStop :=
        { info with stopSuspendTimeout := some deadline, stopSuspendCallback := false } })
    else
      (true, { m with suspendedStop := { info with stopSuspendTimeout := some deadline } })
  else
    (false, m)

@[simp] theorem call_enabled (m : Module) (c : Callback) : (m.call c).enabled = m.enabled := rfl

@[simp] theorem call_calls (m : Module) (c : Callback) : (m.call c).calls = m.calls ++ [c] := rfl

@[simp] theorem active_enabled (m : Module) : m.active.enabled = m.enabled := rfl

@[simp] theorem active_calls (m : Module) : m.active.calls = m.calls := rfl

@[simp] theorem disable_enabled (m : Module) : m.disable.enabled = false := rfl

@[simp] theorem disable_calls (m : Module) : m.disable.calls = m.calls := rfl

@[simp] theorem own_calls (m : Module) (change : Option Bool) : (m.own change).calls = m.calls := by
  cases change with
  | none => rfl
  | some enabled => cases enabled <;> rfl

@[simp] theorem suspendStop_enabled (m : Module) (duration : Int) :
    (m.suspendStop duration).enabled = m.enabled := rfl

@[simp] theorem suspendStop_calls (m : Module) (duration : Int) :
    (m.suspendStop duration).calls = m.calls := rfl

@[simp] theorem checkSuspendStop_enabled (m : Module) (now : Int) (answer : Bool) :
    (m.checkSuspendStop now answer).2.enabled = m.enabled := by
  simp only [checkSuspendStop]
  repeat' split
  all_goals rfl

@[simp] theorem checkSuspendStop_calls (m : Module) (now : Int) (answer : Bool) :
    (m.checkSuspendStop now answer).2.calls = m.calls := by
  simp only [checkSuspendStop]
  repeat' split
  all_goals rfl

end Module

/-! ## One visit of a stopping app -/

/-- What happens when a stopping app visits a module: what the module has made of its flag and the
    `suspend_stop` call that was made since the last visit, the clock, what the suspend callback
    returns, whether the timeout fires by then, and what `stop()` returns. -/
structure Visit where
  own : Option Bool := none
  suspended : Option Int := none
  now : Int := 0
  answer : Bool := false
  timedOut : Bool := false
  result : Int := 0

/-- What the loops over the modules hand on: whether the timeout has fired, and whether a module
    needs more time. -/
structure Progress where
  timeout : Bool
  moreEvent : Bool
deriving DecidableEq

/-- `suspend_stop` calls of the module, then the check. -/
def Module.visited (m : Module) (v : Visit) : Bool × Module :=
  ((v.suspended.map m.suspendStop).getD m).checkSuspendStop v.now v.answer

@[simp] theorem Module.visited_enabled (m : Module) (v : Visit) :
    (m.visited v).2.enabled = m.enabled := by
  unfold visited
  cases v.suspended <;> simp

@[simp] theorem Module.visited_calls (m : Module) (v : Visit) :
    (m.visited v).2.calls = m.calls := by
  unfold visited
  cases v.suspended <;> simp

/-- Whether the app finds the module enabled. -/
def Module.enabledAt (m : Module) (v : Visit) : Bool := (m.own v.own).enabled

/-- Whether the module asks to wait before `stop()`. -/
def Module.suspendsAt (m : Module) (v : Visit) : Bool := ((m.own v.own).visited v).1

/-- The module after `stop()` has returned, and whether it needs more time. -/
def Module.stop (m : Module) (result : Int) : Bool × Module :=
  if result ≤ 0 then (false, (m.call (.stop result)).disable)
  else (true, m.call (.stop result))

@[simp] theorem Module.stop_calls (m : Module) (result : Int) :
    (m.stop result).2.calls = m.calls ++ [.stop result] := by
  unfold stop
  split_ifs <;> rfl

theorem Module.stop_more (m : Module) (result : Int) :
    (m.stop result).1 = decide (0 < result) := by
  unfold stop
  split_ifs with hresult
  · exact (decide_eq_false (Int.not_lt.2 hresult)).symm
  · exact (decide_eq_true (Int.not_le.1 hresult)).symm

/-- Whether `stop()` is called: a module that asks to wait is left alone up to the timeout. -/
def Module.stopsAt (m : Module) (v : Visit) (timeout : Bool) : Bool :=
  m.enabledAt v && !(m.suspendsAt v && !timeout)

/-- Whether the app waits for the module. -/
def Module.waitsAt (m : Module) (v : Visit) (timeout : Bool) : Bool :=
  m.enabledAt v && ((m.suspendsAt v && !timeout) || decide (0 < v.result))

/-- `timeout()` of a module that is still enabled. -/
def Module.expired (m : Module) : Module := if m.enabled then (m.call .timeout).disable else m

@[simp] theorem Module.expired_enabled (m : Module) : m.expired.enabled = false := by
  unfold expired
  split_ifs with henabled
  · rfl
  · simpa using henabled

/-! ## The app -/

structure App where
  modules : List Module
  timeout : Bool := false
  stoping : Bool := false
  stopped : Bool := false
  initialized : Bool := false
  cleaned : List Nat := []
deriving DecidableEq

def EN_ATAPP_ERR_WRITE_PID_FILE : Int := -1003

def EN_ATAPP_ERR_SETUP_TIMER : Int := -1004

def EN_ATAPP_ERR_OPERATION_TIMEOUT : Int := -1008

namespace App

/-- The app before it starts; the timeout flag may be left over from an earlier attempt. -/
def construct (modules : List (Bool × SuspendedStop)) (timeout : Bool) : App :=
  { modules := modules.map fun m => Module.added m.1 m.2, timeout := timeout }

/-- The timeout timer fires, or not. -/
def expire (app : App) (timedOut : Bool) : App := { app with timeout := app.timeout || timedOut }

/-- The flags of `app::stop`. -/
def stop (app : App) : App := { app with stoping := true }

def cleanupModule (app : App) (i : Nat) : App :=
  { app with modules := app.modules.modify i (·.call .cleanup), cleaned := app.cleaned ++ [i] }

/-- Cleans the modules before `count` up, the last one first, except a failed one. -/
def cleanupModules (failed : Option Nat) : Nat → App → App
  | 0, app => app
  | count + 1, app =>
      cleanupModules failed count (if failed = some count then app else app.cleanupModule count)

/-! ## Rolling a failed start back -/

/-- A round of the loop in `init_failed_cleanup`. -/
structure Round where
  visits : Nat → Visit
  initFailedStop : Int
  timedOut : Bool

/-- The visit of `stop_inited_modules` to the module at `i`. -/
def stopInitedModule (endIdx : Nat) (failed : Option Nat) (visits : Nat → Visit) (i : Nat)
    (p : Progress) (m : Module) : Progress × Module :=
  if i < endIdx ∧ failed ≠ some i then
    let m := m.own (visits i).own
    if m.enabled then
      let check := m.visited (visits i)
      let timeout := p.timeout || (visits i).timedOut
      if check.1 && !timeout then
        (⟨timeout, true⟩, check.2)
      else
        let stopped := check.2.stop (visits i).result
        (⟨timeout, p.moreEvent || stopped.1⟩, stopped.2)
    else
      (p, m)
  else
    (p, m)

/-- Whether more events are needed, and the app after the visits. -/
def stopInitedModules (app : App) (endIdx : Nat) (failed : Option Nat) (visits : Nat → Visit) :
    Bool × App :=
  let visit := stopInitedModule endIdx failed visits
  let swept := Sweep.sweep visit 0 ⟨app.timeout, false⟩ app.modules
  (swept.1.moreEvent, { app with modules := swept.2, timeout := swept.1.timeout })

/-- `init_failed_stop()` of the module that has failed, while it is needed. -/
def initFailedStop (app : App) (failed : Option Nat) (needStop : Bool) (result : Int) :
    Bool × App :=
  match failed, needStop with
  | some i, true =>
      let modules := app.modules.modify i (·.call (.initFailedStop result))
      (decide (0 < result), { app with modules := modules })
  | _, _ => (false, app)

/-- The loop of `init_failed_cleanup`: whether the failed module still has to be stopped, and the
    app. There is no result while the loop goes on after the given rounds. -/
def stopRounds (endIdx : Nat) (failed : Option Nat) : List Round → Bool → App → Option (Bool × App)
  | rounds, needStop, app =>
      if app.timeout then some (needStop, app)
      else match rounds with
        | [] => none
        | round :: rest =>
            let inited := app.stopInitedModules endIdx failed round.visits
            let failing := inited.2.initFailedStop failed needStop round.initFailedStop
            if inited.1 || failing.1 then
              stopRounds endIdx failed rest failing.1 (failing.2.expire round.timedOut)
            else
              some (failing.1, failing.2.expire round.timedOut)

/-- `timeout()` of the module at `i`, when it is still enabled. -/
def timeoutInitedModule (endIdx : Nat) (failed : Option Nat) (own : Nat → Option Bool) (i : Nat)
    (m : Module) : Module :=
  if i < endIdx ∧ failed ≠ some i then (m.own (own i)).expired else m

def timeoutInitedModules (app : App) (endIdx : Nat) (failed : Option Nat)
    (own : Nat → Option Bool) : App :=
  { app with modules := app.modules.mapIdx (timeoutInitedModule endIdx failed own) }

/-- The last callbacks of the module that has failed. -/
def finishFailed (app : App) (failed : Option Nat) (needStop : Bool) : App :=
  match failed with
  | none => app
  | some i =>
      let timedOut :=
        if needStop && app.timeout then app.modules.modify i (·.call .initFailedTimeout)
        else app.modules
      { app with modules := timedOut.modify i (·.call .initFailedCleanup) }

/-- What `init_failed_cleanup` does after its loop. -/
def finishCleanup (app : App) (endIdx : Nat) (failed : Option Nat) (own : Nat → Option Bool)
    (needStop : Bool) : App :=
  let app := if app.timeout then app.timeoutInitedModules endIdx failed own else app
  (app.finishFailed failed needStop).cleanupModules failed endIdx

/-- `init_failed_cleanup`; `endIdx` is within the list where it is called. What the modules have
    made of their flags since the last round is in `own`. -/
def initFailedCleanup (app : App) (endIdx : Nat) (failed : Option Nat) (rounds : List Round)
    (own : Nat → Option Bool) : Option App :=
  (stopRounds endIdx failed rounds failed.isSome app.stop).map fun (needStop, app) =>
    app.finishCleanup endIdx failed own needStop

/-! ## Starting -/

/-- What `setup()` or `reload()` of a module returns, and whether it leaves the module enabled. -/
structure Setup where
  result : Int := 0
  enabled : Bool := true

/-- What `init()` of a module returns and makes of its flag, and whether the timeout fires by
    then. -/
structure Init where
  result : Int := 0
  own : Option Bool := none
  timedOut : Bool := false

/-- What a start meets. -/
structure Startup where
  setup : Nat → Setup
  setupLog : Int := 0
  timedOutInSetupLog : Bool := false
  setupTickTimer : Int := 0
  setupAtbus : Int := 0
  setupCurlMulti : Int := 0
  reload : Nat → Setup
  timedOutInReload : Bool := false
  init : Nat → Init
  timedOutInCallback : Bool := false
  writePidfile : Bool
  rounds : List Round
  ownAfterRounds : Nat → Option Bool := fun _ => none

/-- Calls `setup()` or `reload()` of every enabled module, up to the first one that fails. -/
def callEnabled (outcome : Nat → Setup) : Nat → List Module → Int × List Module
  | _, [] => (0, [])
  | i, m :: rest =>
      if m.enabled then
        let here := { m with enabled := (outcome i).enabled }
        if (outcome i).result < 0 then
          ((outcome i).result, here :: rest)
        else
          let later := callEnabled outcome (i + 1) rest
          (later.1, here :: later.2)
      else
        let later := callEnabled outcome (i + 1) rest
        (later.1, m :: later.2)

def callEach (app : App) (outcome : Nat → Setup) : Int × App :=
  let called := callEnabled outcome 0 app.modules
  (called.1, { app with modules := called.2 })

/-- Where the loop over `init()` has stopped. -/
structure InitLoop where
  modInitRes : Int
  initedModIdx : Nat
  initFailedModIdx : Option Nat
  timeout : Bool
  modules : List Module

/-- The loop over `init()`, at the module `i`. A timeout leaves the loop after a module that has
    been initialised and activated. -/
def initLoop (outcome : Nat → Init) : Nat → Bool → List Module → InitLoop
  | i, timeout, [] => ⟨0, i, none, timeout, []⟩
  | i, timeout, m :: rest =>
      if m.enabled then
        let called := (m.call (.init (outcome i).result)).own (outcome i).own
        let timeout := timeout || (outcome i).timedOut
        if (outcome i).result < 0 then
          ⟨(outcome i).result, i, some i, timeout, called :: rest⟩
        else if timeout then
          ⟨EN_ATAPP_ERR_OPERATION_TIMEOUT, i, none, timeout, called.active :: rest⟩
        else
          let later := initLoop outcome (i + 1) timeout rest
          { later with modules := called.active :: later.modules }
      else
        let later := initLoop outcome (i + 1) timeout rest
        { later with modules := m :: later.modules }

/-- `inited_mod_end_idx`: a module that was activated before the loop was left counts. -/
def InitLoop.initedModEndIdx (l : InitLoop) : Nat :=
  match l.initFailedModIdx, l.modules[l.initedModIdx]? with
  | none, some m => if m.actived then l.initedModIdx + 1 else l.initedModIdx
  | _, _ => l.initedModIdx

/-- `init` from the first `init()` up to the rollback: the result, where the loop was left, and the
    app. -/
def callInit (app : App) (startup : Startup) : Int × InitLoop × App :=
  let l := initLoop startup.init 0 app.timeout app.modules
  let app := { app with modules := l.modules, timeout := l.timeout }
  let app := app.expire (decide (0 ≤ l.modInitRes) && startup.timedOutInCallback)
  (if 0 ≤ l.modInitRes ∧ app.timeout then EN_ATAPP_ERR_OPERATION_TIMEOUT else l.modInitRes, l, app)

/-- `init` from the first `init()` on. The pid file is written last: where that fails, the app
    returns as it is. -/
def initModules (app : App) (startup : Startup) : Option (Int × App) :=
  let (modInitRes, l, app) := app.callInit startup
  if modInitRes < 0 then
    (app.initFailedCleanup l.initedModEndIdx l.initFailedModIdx startup.rounds
      startup.ownAfterRounds).map (modInitRes, ·)
  else if !startup.writePidfile then
    some (EN_ATAPP_ERR_WRITE_PID_FILE, app)
  else
    some (0, { app with stopped := false, stoping := false, initialized := true })

/-- `init` up to the first `init()`: the error, or zero, and the app. -/
def prepare (app : App) (startup : Startup) : Int × App :=
  let setup := app.callEach startup.setup
  if setup.1 < 0 then setup
  else if startup.setupLog < 0 then (startup.setupLog, setup.2)
  else
    let app := setup.2.expire startup.timedOutInSetupLog
    if app.timeout then (EN_ATAPP_ERR_OPERATION_TIMEOUT, app)
    else if startup.setupTickTimer < 0 then (EN_ATAPP_ERR_SETUP_TIMER, app)
    else if startup.setupAtbus < 0 then (startup.setupAtbus, app)
    else if startup.setupCurlMulti < 0 then (startup.setupCurlMulti, app)
    else
      let reload := app.callEach startup.reload
      if reload.1 < 0 then reload
      else
        let app := reload.2.expire startup.timedOutInReload
        if app.timeout then (EN_ATAPP_ERR_OPERATION_TIMEOUT, app) else (0, app)

/-- `app::init` of an app in start mode, from the setup of its modules on. -/
def init (app : App) (startup : Startup) : Option (Int × App) :=
  let prepared := app.prepare startup
  if prepared.1 < 0 then some prepared else prepared.2.initModules startup

/-! ## Running -/

/-- What a call of `run_inner` meets: whether a stop is requested and the timeout fires while
    events are processed, and the visits of its loops. -/
structure Pass where
  stop : Bool := false
  timedOut : Bool := false
  visits : Nat → Visit

/-- The visit to the module at `i` in the loop that stops modules. -/
def stopModule (visits : Nat → Visit) (i : Nat) (p : Progress) (m : Module) : Progress × Module :=
  let m := m.own (visits i).own
  if m.enabled then
    let check := m.visited (visits i)
    let timeout := p.timeout || (visits i).timedOut
    if check.1 then
      (⟨timeout, true⟩, check.2)
    else
      let stopped := check.2.stop (visits i).result
      (⟨timeout, p.moreEvent || stopped.1⟩, stopped.2)
  else
    (p, m)

/-- The visit to the module at `i` in the loop after the timeout. -/
def timeoutModule (visits : Nat → Visit) (i : Nat) (m : Module) : Module :=
  (m.own (visits i).own).expired

/-- `run_ev_loop`: the modules are only stopped once the app is to stop. -/
def runEvLoop (app : App) (pass : Pass) : App :=
  let app := app.expire pass.timedOut
  let app := if pass.stop then app.stop else app
  if app.stoping then
    if app.timeout then
      { app with modules := app.modules.mapIdx (timeoutModule pass.visits), stopped := true }
    else
      let swept := Sweep.sweep (stopModule pass.visits) 0 ⟨app.timeout, false⟩ app.modules
      { app with modules := swept.2, timeout := swept.1.timeout, stopped := !swept.1.moreEvent }
  else
    app

/-- `run_inner`: a closed app cleans its modules up, once. -/
def runInner (app : App) (pass : Pass) : App :=
  if app.initialized then
    let app := app.runEvLoop pass
    if app.stopped then
      { cleanupModules none app.modules.length app with initialized := false }
    else app
  else app

end App

end LibAtapp.Lifecycle
