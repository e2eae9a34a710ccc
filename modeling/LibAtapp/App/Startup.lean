import LibAtapp.App.RollBack

set_option autoImplicit false

/-! # Starting an app

`app::init` returns an error in three places: before any module is initialised, after the modules
were rolled back, and when the pid file cannot be written. In the last place the modules are left
as they are, each with its `init()` only. -/

namespace LibAtapp.Lifecycle

/-! ## The loop over `init()` -/

namespace App

theorem operationTimeout_neg : EN_ATAPP_ERR_OPERATION_TIMEOUT < 0 := by decide

section Equations

variable {outcome : Nat → Init} {i : Nat} {timeout : Bool} {m : Module} {rest : List Module}

theorem initLoop_disabled (h : m.enabled = false) :
    initLoop outcome i timeout (m :: rest)
      = { initLoop outcome (i + 1) timeout rest with
          modules := m :: (initLoop outcome (i + 1) timeout rest).modules } := by
  simp only [initLoop, h, Bool.false_eq_true, if_false]

theorem initLoop_failed (h : m.enabled = true) (hresult : (outcome i).result < 0) :
    initLoop outcome i timeout (m :: rest)
      = ⟨(outcome i).result, i, some i, timeout || (outcome i).timedOut,
          (m.call (.init (outcome i).result)).own (outcome i).own :: rest⟩ := by
  simp only [initLoop, h, if_true, if_pos hresult]

theorem initLoop_timedOut (h : m.enabled = true) (hresult : 0 ≤ (outcome i).result)
    (htimeout : (timeout || (outcome i).timedOut) = true) :
    initLoop outcome i timeout (m :: rest)
      = ⟨EN_ATAPP_ERR_OPERATION_TIMEOUT, i, none, true,
          ((m.call (.init (outcome i).result)).own (outcome i).own).active :: rest⟩ := by
  simp only [initLoop, h, if_true, if_neg (Int.not_lt.2 hresult), htimeout]

theorem initLoop_inited (h : m.enabled = true) (hresult : 0 ≤ (outcome i).result)
    (htimeout : (timeout || (outcome i).timedOut) = false) :
    initLoop outcome i timeout (m :: rest)
      = { initLoop outcome (i + 1) false rest with
          modules := ((m.call (.init (outcome i).result)).own (outcome i).own).active ::
            (initLoop outcome (i + 1) false rest).modules } := by
  simp only [initLoop, h, if_true, if_neg (Int.not_lt.2 hresult), htimeout, Bool.false_eq_true,
    if_false]

end Equations

/-- The modules that count as initialised once the loop is left. -/
def InitLoop.endIdx (l : InitLoop) : Nat :=
  if l.initFailedModIdx = none ∧ l.modInitRes < 0 then l.initedModIdx + 1 else l.initedModIdx

/-- How the loop is left when it started at the module `i`, with `count` modules to go. -/
structure InitLoop.Left (i count : Nat) (l : InitLoop) : Prop where
  length : l.modules.length = count
  reached : i ≤ l.initedModIdx
  failedIdx : ∀ k, l.initFailedModIdx = some k → k = l.initedModIdx
  success : 0 ≤ l.modInitRes → l.initedModIdx = i + count ∧ l.initFailedModIdx = none
  timedOut : l.modInitRes < 0 → l.initFailedModIdx = none →
    ∃ m, l.modules[l.initedModIdx - i]? = some m ∧ m.actived = true
  stages : ∀ j m, l.modules[j]? = some m →
    Stage l.endIdx l.initFailedModIdx l.initFailedModIdx.isSome (i + j) m.calls

theorem InitLoop.Left.cons {i count : Nat} {l : InitLoop} (h : l.Left (i + 1) count) {m : Module}
    (hm : Standing m.calls) : ({ l with modules := m :: l.modules } : InitLoop).Left i (count + 1) := by
  have hreached := h.reached
  have hend : i < l.endIdx := by
    unfold InitLoop.endIdx
    split_ifs <;> omega
  refine ⟨by rw [List.length_cons, h.length], by show i ≤ l.initedModIdx; omega, h.failedIdx,
    fun hres => ?_, fun hres hnone => ?_, fun j x hx => ?_⟩
  · obtain ⟨hidx, hnone⟩ := h.success hres
    exact ⟨by show l.initedModIdx = _; omega, hnone⟩
  · obtain ⟨x, hx, hactived⟩ := h.timedOut hres hnone
    refine ⟨x, ?_, hactived⟩
    show (m :: l.modules)[l.initedModIdx - i]? = some x
    rw [show l.initedModIdx - i = (l.initedModIdx - (i + 1)) + 1 by omega]
    exact hx
  · cases j with
    | zero =>
        cases hx
        refine .of_standing ⟨hend, fun hfailed => ?_⟩ hm
        have := h.failedIdx i hfailed
        omega
    | succ j =>
        have hstage := h.stages j x hx
        rwa [show i + 1 + j = i + (j + 1) by omega] at hstage

/-- The loop is left at its first module: that one is in its stage, and the others are fresh. -/
theorem InitLoop.Left.here {i : Nat} {rest : List Module} {l : InitLoop} {m : Module}
    (hmodules : l.modules = m :: rest) (hidx : l.initedModIdx = i) (hres : l.modInitRes < 0)
    (hfailed : l.initFailedModIdx = some i ∧ Failing true m.calls ∨
      l.initFailedModIdx = none ∧ Standing m.calls ∧ m.actived = true)
    (hrest : ∀ x ∈ rest, x.calls = []) : l.Left i (rest.length + 1) := by
  have hend : l.endIdx ≤ i + 1 := by
    unfold InitLoop.endIdx
    split_ifs <;> omega
  refine ⟨by rw [hmodules, List.length_cons], by omega, fun k hk => ?_, fun h => by omega,
    fun _ hnone => ⟨m, ?_, ?_⟩, fun j x hx => ?_⟩
  · obtain ⟨hsome, -⟩ | ⟨hnone, -⟩ := hfailed
    · rw [hsome] at hk
      exact (Option.some.inj hk).symm.trans hidx.symm
    · rw [hnone] at hk
      cases hk
  · rw [hmodules, hidx, Nat.sub_self]
    rfl
  · obtain ⟨hsome, -⟩ | ⟨-, -, hactived⟩ := hfailed
    · rw [hsome] at hnone
      cases hnone
    · exact hactived
  · rw [hmodules] at hx
    cases j with
    | zero =>
        cases hx
        obtain ⟨hsome, hfailing⟩ | ⟨hnone, hstanding, -⟩ := hfailed
        · rw [hsome]
          exact .of_failing rfl hfailing
        · refine .of_standing ⟨?_, by rw [hnone]; exact nofun⟩ hstanding
          unfold InitLoop.endIdx
          rw [if_pos ⟨hnone, hres⟩]
          omega
    | succ j =>
        have hcalls := hrest x (List.mem_of_getElem? hx)
        unfold Stage
        rw [if_neg ?_, if_neg (by omega)]
        · exact hcalls
        · obtain ⟨hsome, -⟩ | ⟨hnone, -⟩ := hfailed
          · rw [hsome, Option.some.injEq]
            omega
          · rw [hnone]
            exact nofun

/-- The calls of a module after its first `init()`. -/
theorem calls_init {m : Module} (hfresh : m.calls = []) (outcome : Init) :
    ((m.call (.init outcome.result)).own outcome.own).calls = [.init outcome.result] := by
  rw [Module.own_calls, Module.call_calls, hfresh]
  rfl

/-- **The loop over `init()`** leaves every module in its stage. -/
theorem initLoop_left (outcome : Nat → Init) (i : Nat) (timeout : Bool) (xs : List Module)
    (hfresh : ∀ m ∈ xs, m.calls = []) : (initLoop outcome i timeout xs).Left i xs.length := by
  induction xs generalizing i timeout with
  | nil =>
      exact ⟨rfl, Nat.le_refl i, nofun, fun _ => ⟨rfl, rfl⟩, fun h => absurd h (Int.lt_irrefl 0),
        nofun⟩
  | cons m rest ih =>
      have hrest : ∀ m ∈ rest, m.calls = [] := fun x hx => hfresh x (List.mem_cons_of_mem m hx)
      have hnone := hfresh m List.mem_cons_self
      have hcalls := calls_init hnone (outcome i)
      cases henabled : m.enabled with
      | false =>
          rw [initLoop_disabled henabled]
          refine (ih (i + 1) timeout hrest).cons (.inl ?_)
          rw [hnone]
          exact asked_nil
      | true =>
          by_cases hresult : (outcome i).result < 0
          · rw [initLoop_failed henabled hresult]
            refine .here rfl rfl hresult (.inl ⟨rfl, ?_⟩) hrest
            rw [hcalls]
            exact ⟨(outcome i).result, [], hresult, rfl, waiting_nil⟩
          · have hinited : Standing
                ((m.call (.init (outcome i).result)).own (outcome i).own).active.calls := by
              rw [Module.active_calls, hcalls]
              exact .inl (due_init (Int.not_lt.1 hresult)).asked
            cases htimeout : timeout || (outcome i).timedOut with
            | true =>
                rw [initLoop_timedOut henabled (Int.not_lt.1 hresult) htimeout]
                exact .here rfl rfl operationTimeout_neg (.inr ⟨rfl, hinited, rfl⟩) hrest
            | false =>
                rw [initLoop_inited henabled (Int.not_lt.1 hresult) htimeout]
                exact (ih (i + 1) false hrest).cons hinited

/-- What `init` hands to the rollback is where the loop was left. -/
theorem InitLoop.Left.initedModEndIdx {count : Nat} {l : InitLoop} (h : l.Left 0 count) :
    l.initedModEndIdx = l.endIdx := by
  unfold InitLoop.initedModEndIdx InitLoop.endIdx
  by_cases hres : l.modInitRes < 0
  · cases hfailed : l.initFailedModIdx with
    | some k => simp
    | none =>
        obtain ⟨m, hm, hactived⟩ := h.timedOut hres hfailed
        rw [Nat.sub_zero] at hm
        simp [hm, hactived, hres]
  · obtain ⟨hidx, hnone⟩ := h.success (Int.not_lt.1 hres)
    have hout : l.modules[l.initedModIdx]? = none := by
      rw [List.getElem?_eq_none_iff, h.length]
      omega
    simp [hnone, hout, hres]

/-- Every module counts as initialised where the loop comes to its end. -/
theorem InitLoop.Left.inited {count : Nat} {l : InitLoop} (h : l.Left 0 count)
    (hend : 0 ≤ l.modInitRes) {j : Nat} {m : Module} (hj : l.modules[j]? = some m) :
    j < l.endIdx ∧ l.initFailedModIdx ≠ some j := by
  obtain ⟨hidx, hnone⟩ := h.success hend
  have hlt := (List.getElem?_eq_some_iff.1 hj).1
  rw [h.length] at hlt
  refine ⟨?_, by rw [hnone]; exact nofun⟩
  rw [InitLoop.endIdx, if_neg (fun hfailed => absurd hfailed.2 (Int.not_lt.2 hend)), hidx]
  omega

/-- The loop comes to its end exactly if every `init()` it calls succeeds in time. -/
theorem initLoop_succeeds (outcome : Nat → Init) (i : Nat) (xs : List Module) :
    0 ≤ (initLoop outcome i false xs).modInitRes ↔
      ∀ j m, xs[j]? = some m → m.enabled = true →
        0 ≤ (outcome (i + j)).result ∧ (outcome (i + j)).timedOut = false := by
  induction xs generalizing i with
  | nil => exact ⟨fun _ _ _ hm => absurd hm nofun, fun _ => Int.le_refl 0⟩
  | cons m rest ih =>
      -- the modules after the first one
      have hlater : 0 ≤ (initLoop outcome (i + 1) false rest).modInitRes ↔
          ∀ j x, rest[j]? = some x → x.enabled = true →
            0 ≤ (outcome (i + (j + 1))).result ∧ (outcome (i + (j + 1))).timedOut = false := by
        rw [ih (i + 1)]
        simp only [show ∀ j, i + 1 + j = i + (j + 1) by omega]
      cases henabled : m.enabled with
      | false =>
          rw [initLoop_disabled henabled]
          refine hlater.trans ⟨fun h j x hx hon => ?_, fun h j x hx => h (j + 1) x hx⟩
          cases j with
          | zero => cases hx; rw [henabled] at hon; cases hon
          | succ j => exact h j x hx hon
      | true =>
          by_cases hresult : (outcome i).result < 0
          · rw [initLoop_failed henabled hresult]
            have hno : ¬ 0 ≤ (outcome i).result := by omega
            exact ⟨fun h => absurd h hno, fun h => absurd (h 0 m rfl henabled).1 hno⟩
          · cases htimeout : (outcome i).timedOut with
            | true =>
                rw [initLoop_timedOut henabled (Int.not_lt.1 hresult) (by rw [htimeout]; rfl)]
                refine ⟨fun h => absurd operationTimeout_neg (Int.not_lt.2 h), fun h => ?_⟩
                have hclear := (h 0 m rfl henabled).2
                rw [Nat.add_zero, htimeout] at hclear
                cases hclear
            | false =>
                rw [initLoop_inited henabled (Int.not_lt.1 hresult) (by rw [htimeout]; rfl)]
                refine hlater.trans ⟨fun h j x hx hon => ?_, fun h j x hx => h (j + 1) x hx⟩
                cases j with
                | zero => exact ⟨Int.not_lt.1 hresult, htimeout⟩
                | succ j => exact h j x hx hon

/-- A loop that comes to its end has called `init()` of the enabled modules, and nothing else. -/
theorem initLoop_calls (outcome : Nat → Init) (i : Nat) (xs : List Module)
    (hfresh : ∀ m ∈ xs, m.calls = []) (h : 0 ≤ (initLoop outcome i false xs).modInitRes) (j : Nat) :
    (initLoop outcome i false xs).modules[j]?.map (·.calls)
      = xs[j]?.map fun m => if m.enabled then [.init (outcome (i + j)).result] else [] := by
  induction xs generalizing i j with
  | nil => rfl
  | cons m rest ih =>
      have hrest : ∀ m ∈ rest, m.calls = [] := fun x hx => hfresh x (List.mem_cons_of_mem m hx)
      have hnone := hfresh m List.mem_cons_self
      cases henabled : m.enabled with
      | false =>
          rw [initLoop_disabled henabled] at h ⊢
          cases j with
          | zero => simp [henabled, hnone]
          | succ j =>
              rw [show i + (j + 1) = i + 1 + j by omega]
              exact ih (i + 1) hrest h j
      | true =>
          obtain ⟨hresult, htimeout⟩ := (initLoop_succeeds outcome i (m :: rest)).1 h 0 m rfl henabled
          rw [Nat.add_zero] at hresult htimeout
          rw [initLoop_inited henabled hresult (by rw [Bool.false_or]; exact htimeout)] at h ⊢
          cases j with
          | zero => simp [henabled, hnone]
          | succ j =>
              rw [show i + (j + 1) = i + 1 + j by omega]
              exact ih (i + 1) hrest h j

/-- The timeout flag is clear where the loop comes to its end. -/
theorem initLoop_timeout (outcome : Nat → Init) (i : Nat) (xs : List Module)
    (h : 0 ≤ (initLoop outcome i false xs).modInitRes) :
    (initLoop outcome i false xs).timeout = false := by
  induction xs generalizing i with
  | nil => rfl
  | cons m rest ih =>
      cases henabled : m.enabled with
      | false =>
          rw [initLoop_disabled henabled] at h ⊢
          exact ih (i + 1) h
      | true =>
          obtain ⟨hresult, htimeout⟩ := (initLoop_succeeds outcome i (m :: rest)).1 h 0 m rfl henabled
          rw [Nat.add_zero] at hresult htimeout
          rw [initLoop_inited henabled hresult (by rw [Bool.false_or]; exact htimeout)] at h ⊢
          exact ih (i + 1) h

/-! ## The three ends of `init` -/

/-- No module was called yet. -/
structure Fresh (app : App) : Prop where
  calls : ∀ m ∈ app.modules, m.calls = []
  cleaned : app.cleaned = []

theorem Fresh.rollBackKept {app : App} (h : Fresh app) : RollBackKept app := by
  refine ⟨fun m hm => ?_, ?_⟩
  · rw [h.calls m hm]
    exact .untouched
  · rw [h.cleaned]
    exact List.Pairwise.nil

/-- Every `init()` succeeds in time, and the callback after them is in time as well. -/
def InitsAll (app : App) (startup : Startup) : Prop :=
  (∀ j m, app.modules[j]? = some m → m.enabled = true →
    0 ≤ (startup.init j).result ∧ (startup.init j).timedOut = false) ∧
  startup.timedOutInCallback = false

/-- The flags that a rollback finds fit, where the start gets to one. -/
def RollBackFits (app : App) (startup : Startup) : Prop :=
  let (modInitRes, l, app) := app.callInit startup
  modInitRes < 0 → RoundsFit l.initedModEndIdx l.initFailedModIdx startup.ownAfterRounds
    startup.rounds l.initFailedModIdx.isSome app.stop

/-- How a start goes on from the first `init()`: it is rolled back, or it succeeds, or it ends at
    the pid file with the modules initialised. -/
inductive InitsEnd (app : App) (startup : Startup) (code : Int) (after : App) : Prop
  | rolledBack (h : ¬ app.InitsAll startup) (failed : code < 0)
      (kept : RollBackKept after ↔ app.RollBackFits startup)
  | started (h : app.InitsAll startup) (written : startup.writePidfile = true) (ok : code = 0)
      (running : after.Running)
  | noPidfile (h : app.InitsAll startup) (written : startup.writePidfile = false)
      (failed : code = EN_ATAPP_ERR_WRITE_PID_FILE)
      (calls : ∀ j : Nat, after.modules[j]?.map (·.calls)
        = app.modules[j]?.map fun m => if m.enabled then [.init (startup.init j).result] else [])
      (cleaned : after.cleaned = [])

section CallInit

variable {app : App} {startup : Startup}

/-- Where every `init()` succeeds in time, the app only has its modules changed. -/
theorem callInit_of_initsAll (htimeout : app.timeout = false) (hall : app.InitsAll startup) :
    0 ≤ (app.callInit startup).1 ∧ (app.callInit startup).2.2 =
      { app with modules := (initLoop startup.init 0 false app.modules).modules } := by
  have hend := (initLoop_succeeds startup.init 0 app.modules).2
    (by simpa only [Nat.zero_add] using hall.1)
  have hclear := initLoop_timeout startup.init 0 app.modules hend
  simp [callInit, htimeout, expire, hclear, hall.2, hend]

/-- Such a start comes to an end. -/
theorem initModules_isSome (htimeout : app.timeout = false) (hall : app.InitsAll startup) :
    (app.initModules startup).isSome = true := by
  unfold initModules
  dsimp only
  rw [if_neg (Int.not_lt.2 (callInit_of_initsAll htimeout hall).1)]
  split_ifs <;> rfl

/-- In every other start `init_failed_cleanup` decides. -/
theorem callInit_of_not_initsAll (htimeout : app.timeout = false)
    (hall : ¬ app.InitsAll startup) : (app.callInit startup).1 < 0 := by
  have hsucceeds := initLoop_succeeds startup.init 0 app.modules
  simp only [Nat.zero_add] at hsucceeds
  simp only [callInit, htimeout]
  generalize initLoop startup.init 0 false app.modules = l at hsucceeds ⊢
  by_cases hres : l.modInitRes < 0
  · have hnot : ¬ 0 ≤ l.modInitRes := Int.not_le.2 hres
    simp [hnot, hres]
  · have hend := Int.not_lt.1 hres
    cases hcallback : startup.timedOutInCallback with
    | true => simp [hend, expire, operationTimeout_neg]
    | false => exact absurd ⟨hsucceeds.1 hend, hcallback⟩ hall

/-- The loop whose modules `init` goes on with. -/
theorem callInit_loop (htimeout : app.timeout = false) :
    (app.callInit startup).2.1 = initLoop startup.init 0 false app.modules ∧
      (app.callInit startup).2.2.modules
        = (initLoop startup.init 0 false app.modules).modules := by
  simp only [callInit, htimeout, expire, and_self]

/-- What a rollback starts with. -/
theorem Fresh.rollingBack (h : Fresh app) (htimeout : app.timeout = false) :
    RollingBack (app.callInit startup).2.1.initedModEndIdx
      (app.callInit startup).2.1.initFailedModIdx
      (app.callInit startup).2.1.initFailedModIdx.isSome (app.callInit startup).2.2 := by
  have hleft := initLoop_left startup.init 0 false app.modules h.calls
  obtain ⟨hloop, hmodules⟩ := @callInit_loop app startup htimeout
  rw [hloop]
  refine ⟨fun j m hm => ?_, h.cleaned⟩
  rw [hmodules] at hm
  rw [hleft.initedModEndIdx]
  simpa only [Nat.zero_add] using hleft.stages j m hm

/-- Every module is in a standing where the loop comes to its end. -/
theorem standing_initLoop (hfresh : ∀ m ∈ app.modules, m.calls = [])
    (hend : 0 ≤ (initLoop startup.init 0 false app.modules).modInitRes) :
    ∀ m ∈ (initLoop startup.init 0 false app.modules).modules, Standing m.calls := by
  have hleft := initLoop_left startup.init 0 false app.modules hfresh
  intro m hm
  obtain ⟨j, hj⟩ := List.mem_iff_getElem?.1 hm
  have hstage := hleft.stages j m hj
  rw [Nat.zero_add] at hstage
  exact hstage.standing (hleft.inited hend hj)

theorem initModules_end {after : App} {code : Int} (h : Fresh app) (htimeout : app.timeout = false)
    (hreturns : app.initModules startup = some (code, after)) : InitsEnd app startup code after := by
  unfold initModules at hreturns
  dsimp only at hreturns
  by_cases hall : app.InitsAll startup
  · obtain ⟨hok, hlooped⟩ := callInit_of_initsAll htimeout hall
    have hend := (initLoop_succeeds startup.init 0 app.modules).2
      (by simpa only [Nat.zero_add] using hall.1)
    rw [if_neg (Int.not_lt.2 hok), hlooped] at hreturns
    cases hwritten : startup.writePidfile with
    | true =>
        rw [hwritten] at hreturns
        cases hreturns
        exact .started hall hwritten rfl ⟨rfl, rfl, standing_initLoop h.calls hend, h.cleaned⟩
    | false =>
        rw [hwritten] at hreturns
        cases hreturns
        refine .noPidfile hall hwritten rfl (fun j => ?_) h.cleaned
        have hcalls := initLoop_calls startup.init 0 app.modules h.calls hend j
        rwa [Nat.zero_add] at hcalls
  · have hneg := callInit_of_not_initsAll htimeout hall
    rw [if_pos hneg] at hreturns
    obtain ⟨rolled, hcleanup, hcode⟩ := Option.map_eq_some_iff.1 hreturns
    cases hcode
    refine .rolledBack hall hneg (((h.rollingBack htimeout).initFailedCleanup_iff hcleanup).trans ?_)
    exact ⟨fun hfits _ => hfits, fun hfits => hfits hneg⟩

end CallInit

end App

end LibAtapp.Lifecycle
