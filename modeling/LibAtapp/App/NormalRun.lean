import LibAtapp.App.ModuleFates

set_option autoImplicit false

/-! # The run of a started app

A pass of a stopping app calls the modules that it finds enabled. It keeps what the modules are due
exactly if it does not call a module that was stopped, and passes over no module that is due when it
closes the app: the flags that it finds fit. -/

namespace LibAtapp.Lifecycle

namespace App

/-- The property of a started app: while it is not closed no module is cleaned up and each is in a
    standing; when it is closed every module is disabled and closed, the last one first. -/
def NormalKept (app : App) : Prop :=
  if app.stopped then
    (∀ m ∈ app.modules, m.enabled = false ∧ Closed m.calls) ∧
      app.cleaned = (List.range app.modules.length).reverse
  else
    (∀ m ∈ app.modules, Standing m.calls) ∧ app.cleaned = []

/-! ## The condition on a pass -/

/-- The flags that the visits of a stopping app find fit: no module is called again that was
    stopped, and none that is due is passed over unless the app waits for another one. -/
structure FitsVisits (visits : Nat → Visit) (modules : List Module) : Prop where
  ended : ∀ i (m : Module), modules[i]? = some m → Ended m.calls → m.stopsAt (visits i) false = false
  due : (∀ i (m : Module), modules[i]? = some m → m.waitsAt (visits i) false = false) →
    ∀ i (m : Module), modules[i]? = some m → Due m.calls → m.enabledAt (visits i) = true

/-- The flags that a pass finds fit, where it stops modules. -/
def FlagsFit (app : App) (pass : Pass) : Prop :=
  app.initialized = true → (app.stoping || pass.stop) = true →
    if app.timeout || pass.timedOut then
      ∀ i (m : Module), app.modules[i]? = some m → FitsTimeout m (pass.visits i).own
    else FitsVisits pass.visits app.modules

/-! ## One visit -/

section Visit

variable (visits : Nat → Visit) (i : Nat) (p : Progress) (m : Module)

theorem stopModule_calls :
    (stopModule visits i p m).2.calls = m.callsAfter (visits i) false := by
  unfold stopModule Module.callsAfter Module.stopsAt Module.enabledAt Module.suspendsAt
  dsimp only
  cases (m.own (visits i).own).enabled <;> cases ((m.own (visits i).own).visited (visits i)).1 <;>
    simp

theorem stopModule_moreEvent :
    (stopModule visits i p m).1.moreEvent
      = (p.moreEvent || m.waitsAt (visits i) false) := by
  unfold stopModule Module.waitsAt Module.enabledAt Module.suspendsAt
  dsimp only
  cases (m.own (visits i).own).enabled <;> cases ((m.own (visits i).own).visited (visits i)).1 <;>
    simp [Module.stop_more]

/-- A module that the app does not wait for is disabled after its visit. -/
theorem stopModule_enabled (hwaits : m.waitsAt (visits i) false = false) :
    (stopModule visits i p m).2.enabled = false := by
  unfold Module.waitsAt Module.enabledAt Module.suspendsAt at hwaits
  unfold stopModule Module.stop
  dsimp only
  cases henabled : (m.own (visits i).own).enabled with
  | false => simp [henabled]
  | true =>
      rw [henabled, Bool.true_and, Bool.or_eq_false_iff, Bool.not_false, Bool.and_true,
        decide_eq_false_iff_not, Int.not_lt] at hwaits
      simp [hwaits]

end Visit

/-! ## The visits of one pass -/

theorem forall_mem_iff_getElem? {P : Module → Prop} {xs : List Module} :
    (∀ m ∈ xs, P m) ↔ ∀ (j : Nat) m, xs[j]? = some m → P m := by
  refine ⟨fun h j m hm => h m (List.mem_of_getElem? hm), fun h m hm => ?_⟩
  obtain ⟨j, hj⟩ := List.mem_iff_getElem?.1 hm
  exact h j m hj

section Visits

variable (visits : Nat → Visit) {modules : List Module}

/-- The app waits for a module after the visits exactly if it waits for one at its visit. -/
theorem sweep_moreEvent_iff :
    (Sweep.sweep (stopModule visits) 0 ⟨false, false⟩ modules).1.moreEvent = false ↔
      ∀ i (m : Module), modules[i]? = some m → m.waitsAt (visits i) false = false := by
  have hmore := @Sweep.flag_sweep_iff _ _ (stopModule visits) 0 ⟨false, false⟩ modules
    Progress.moreEvent _ (stopModule_moreEvent visits)
  rw [Sweep.visitsMeet_iff_forall] at hmore
  simpa only [Nat.zero_add, true_and] using hmore

/-- The visits keep the standings exactly if they call no module again that was ended. -/
theorem sweep_standing_iff
    (hstanding : ∀ (i : Nat) m, modules[i]? = some m → Standing m.calls) :
    (∀ m ∈ (Sweep.sweep (stopModule visits) 0 ⟨false, false⟩ modules).2, Standing m.calls) ↔
      ∀ i (m : Module), modules[i]? = some m → Ended m.calls →
        m.stopsAt (visits i) false = false := by
  have hvisits := @Sweep.forall_sweep_iff _ _ (stopModule visits)
    (fun i _ m => Ended m.calls → m.stopsAt (visits i) false = false) 0 ⟨false, false⟩
    modules (fun _ _ _ => True) (fun _ m => Standing m.calls) (fun _ m => Standing m.calls)
    (fun i p m hm _ => by
      rw [stopModule_calls]
      exact standing_callsAfter_iff hm)
    (by simpa only [Nat.zero_add] using hstanding)
    (Sweep.visitsMeet_iff_forall.2 fun _ _ _ => trivial)
  rw [Sweep.visitsMeet_iff_forall] at hvisits
  simp only [Nat.zero_add] at hvisits
  rw [forall_mem_iff_getElem?, hvisits]

/-- Visits after which the app waits for no module close them exactly if the flags fit. -/
theorem sweep_closed_iff
    (hstanding : ∀ (i : Nat) m, modules[i]? = some m → Standing m.calls)
    (hnone : ∀ (i : Nat) m, modules[i]? = some m → m.waitsAt (visits i) false = false) :
    (∀ (j : Nat) (m : Module),
        (Sweep.sweep (stopModule visits) 0 ⟨false, false⟩ modules).2[j]? = some m →
          Closed (m.calls ++ [.cleanup])) ↔ FitsVisits visits modules := by
  have hvisits := @Sweep.forall_sweep_iff _ _ (stopModule visits)
    (fun i _ m => (Ended m.calls → m.stopsAt (visits i) false = false) ∧
      (Due m.calls → m.enabledAt (visits i) = true)) 0 ⟨false, false⟩
    modules (fun i _ m => m.waitsAt (visits i) false = false)
    (fun _ m => Standing m.calls) (fun _ m => Closed (m.calls ++ [.cleanup]))
    (fun i p m hm hw => by
      rw [stopModule_calls]
      exact closed_callsAfter_iff hm hw)
    (by simpa only [Nat.zero_add] using hstanding)
    (Sweep.visitsMeet_iff_forall.2 (by simpa only [Nat.zero_add] using hnone))
  rw [Sweep.visitsMeet_iff_forall] at hvisits
  simp only [Nat.zero_add] at hvisits
  rw [hvisits]
  exact ⟨fun hfits => ⟨fun i m hm => (hfits i m hm).1, fun _ i m hm => (hfits i m hm).2⟩,
    fun hfits i m hm => ⟨hfits.ended i m hm, hfits.due hnone i m hm⟩⟩

theorem sweep_disabled
    (hnone : ∀ (i : Nat) m, modules[i]? = some m → m.waitsAt (visits i) false = false) :
    ∀ m ∈ (Sweep.sweep (stopModule visits) 0 ⟨false, false⟩ modules).2, m.enabled = false := by
  intro m hm
  obtain ⟨j, hj⟩ := List.mem_iff_getElem?.1 hm
  obtain ⟨x, p, hx, rfl⟩ := Sweep.exists_visit hj
  exact stopModule_enabled visits (0 + j) p x (by rw [Nat.zero_add]; exact hnone j x hx)

end Visits

/-! ## One pass -/

/-- While the app runs: it is initialised and not closed, and every module is in a standing. -/
structure Running (app : App) : Prop where
  initialized : app.initialized = true
  notStopped : app.stopped = false
  standing : ∀ m ∈ app.modules, Standing m.calls
  cleaned : app.cleaned = []

/-- Once the app is closed: every module was cleaned up. -/
structure IsClosed (app : App) : Prop where
  initialized : app.initialized = false
  stopped : app.stopped = true
  closed : ∀ m ∈ app.modules, m.enabled = false ∧ Closed m.calls
  cleaned : app.cleaned = (List.range app.modules.length).reverse

theorem Running.normalKept {app : App} (h : app.Running) : NormalKept app := by
  unfold NormalKept
  rw [if_neg (by rw [h.notStopped]; exact Bool.false_ne_true)]
  exact ⟨h.standing, h.cleaned⟩

theorem IsClosed.normalKept {app : App} (h : app.IsClosed) : NormalKept app := by
  unfold NormalKept
  rw [if_pos h.stopped]
  exact ⟨h.closed, h.cleaned⟩

/-- The cleanup after which `run_inner` has closed an app. -/
def closeModules (app : App) : App :=
  { cleanupModules none app.modules.length app with initialized := false }

/-- An app that is stopped with disabled modules is closed exactly if each of them is. -/
theorem closeModules_iff {app : App} (hstopped : app.stopped = true) (hcleaned : app.cleaned = [])
    (hdisabled : ∀ m ∈ app.modules, m.enabled = false) :
    (NormalKept app.closeModules ↔
        ∀ (j : Nat) (m : Module), app.modules[j]? = some m → Closed (m.calls ++ [.cleanup])) ∧
      (NormalKept app.closeModules → app.closeModules.IsClosed) := by
  have hcalled : ∀ j : Nat,
      app.closeModules.modules[j]? = app.modules[j]?.map (Module.call · .cleanup) := by
    intro j
    show (cleanupModules none app.modules.length app).modules[j]? = _
    rw [getElem?_cleanupModules]
    cases hm : app.modules[j]? with
    | none => rfl
    | some m =>
        have hlt := (List.getElem?_eq_some_iff.1 hm).1
        simp only [Option.map_some]
        rw [if_pos ⟨hlt, nofun⟩]
  have hends : app.closeModules.stopped = true :=
    (stopped_cleanupModules none app.modules.length app).trans hstopped
  have horder : app.closeModules.cleaned = (List.range app.closeModules.modules.length).reverse := by
    show (cleanupModules none app.modules.length app).cleaned = _
    rw [cleaned_cleanupModules, hcleaned]
    simp [closeModules, length_cleanupModules]
  have hkept : NormalKept app.closeModules ↔
      ∀ m ∈ app.closeModules.modules, m.enabled = false ∧ Closed m.calls := by
    unfold NormalKept
    rw [if_pos hends]
    exact ⟨fun h => h.1, fun h => ⟨h, horder⟩⟩
  refine ⟨hkept.trans ⟨fun h j m hm => ?_, fun h m hm => ?_⟩,
    fun h => ⟨rfl, hends, hkept.1 h, horder⟩⟩
  · have hmem := List.mem_of_getElem? ((hcalled j).trans (by rw [hm]; rfl))
    exact (h _ hmem).2
  · obtain ⟨j, hj⟩ := List.mem_iff_getElem?.1 hm
    rw [hcalled] at hj
    obtain ⟨x, hx, rfl⟩ := Option.map_eq_some_iff.1 hj
    exact ⟨hdisabled x (List.mem_of_getElem? hx), h j x hx⟩

section Pass

variable {app : App} {pass : Pass}

/-- A pass of an app that is not to stop changes no module. -/
theorem Running.runInner_running (h : app.Running) (hstop : (app.stoping || pass.stop) = false) :
    (app.runInner pass).Running := by
  obtain ⟨hstoping, hpass⟩ := Bool.or_eq_false_iff.1 hstop
  have hsame : app.runInner pass = app.expire pass.timedOut := by
    simp [runInner, runEvLoop, h.initialized, hpass, hstoping, h.notStopped, expire]
  rw [hsame]
  exact ⟨h.initialized, h.notStopped, h.standing, h.cleaned⟩

/-- The app that is stopping, with the timeout flag that it has by then. -/
theorem runInner_stopping (hinit : app.initialized = true)
    (hstop : (app.stoping || pass.stop) = true) :
    ∃ ready : App, ready.modules = app.modules ∧ ready.cleaned = app.cleaned ∧
      ready.initialized = true ∧ ready.timeout = (app.timeout || pass.timedOut) ∧
      ready.stoping = true ∧
      app.runInner pass = ready.runInner { pass with stop := false, timedOut := false } := by
  refine ⟨if pass.stop then (app.expire pass.timedOut).stop else app.expire pass.timedOut, ?_⟩
  cases hpass : pass.stop with
  | true => simp [expire, stop, runInner, runEvLoop, hinit, hpass]
  | false =>
      rw [hpass, Bool.or_false] at hstop
      simp [expire, runInner, runEvLoop, hinit, hpass, hstop]

/-- **The pass after the timeout** closes the app exactly if the flags fit. -/
theorem Running.runInner_timeout (h : app.Running) (hstop : (app.stoping || pass.stop) = true)
    (htimeout : (app.timeout || pass.timedOut) = true) :
    (NormalKept (app.runInner pass) ↔
        ∀ i (m : Module), app.modules[i]? = some m → FitsTimeout m (pass.visits i).own) ∧
      (NormalKept (app.runInner pass) → (app.runInner pass).IsClosed) := by
  obtain ⟨ready, hmodules, hcleaned, hinit, hready, hstoping, hsame⟩ :=
    runInner_stopping h.initialized hstop
  have hclose : app.runInner pass = closeModules
      { ready with modules := app.modules.mapIdx (timeoutModule pass.visits), stopped := true } := by
    rw [hsame]
    simp [runInner, runEvLoop, hinit, hstoping, hready, htimeout, expire, closeModules, hmodules]
  rw [hclose]
  have hdisabled : ∀ m ∈ app.modules.mapIdx (timeoutModule pass.visits), m.enabled = false := by
    intro m hm
    obtain ⟨i, hi, rfl⟩ := List.mem_mapIdx.1 hm
    exact Module.expired_enabled _
  have hiff := @closeModules_iff { ready with
    modules := app.modules.mapIdx (timeoutModule pass.visits), stopped := true }
    rfl (hcleaned.trans h.cleaned) hdisabled
  refine ⟨hiff.1.trans ?_, hiff.2⟩
  simp only [List.getElem?_mapIdx, Option.map_eq_some_iff, forall_exists_index, and_imp]
  have hstanding := forall_mem_iff_getElem?.1 h.standing
  constructor
  · exact fun hclosed i m hm => (closed_expired_iff (hstanding i m hm) _).1 (hclosed i _ m hm rfl)
  · rintro hfits i _ m hm rfl
    exact (closed_expired_iff (hstanding i m hm) _).2 (hfits i m hm)

/-- **A pass that stops modules** keeps them exactly if the flags fit; it closes the app where that
    waits for no module. -/
theorem Running.runInner_visits (h : app.Running) (hstop : (app.stoping || pass.stop) = true)
    (htimeout : (app.timeout || pass.timedOut) = false) :
    (NormalKept (app.runInner pass) ↔ FitsVisits pass.visits app.modules) ∧
      (NormalKept (app.runInner pass) →
        (app.runInner pass).Running ∨ (app.runInner pass).IsClosed) := by
  obtain ⟨ready, hmodules, hcleaned, hinit, hready, hstoping, hsame⟩ :=
    runInner_stopping h.initialized hstop
  have hstanding := forall_mem_iff_getElem?.1 h.standing
  generalize hswept : Sweep.sweep (stopModule pass.visits) 0 ⟨false, false⟩ app.modules = swept
  have hmore := @sweep_moreEvent_iff pass.visits app.modules
  rw [hswept] at hmore
  cases hwaits : swept.1.moreEvent with
  | true =>
      have hrun : app.runInner pass
          = { ready with modules := swept.2, timeout := swept.1.timeout, stopped := false } := by
        rw [hsame]
        simp [runInner, runEvLoop, hinit, hstoping, hready, htimeout, expire, hmodules, hswept,
          hwaits]
      have hkept := sweep_standing_iff pass.visits hstanding
      rw [hswept] at hkept
      have hnormal : NormalKept (app.runInner pass) ↔ ∀ m ∈ swept.2, Standing m.calls := by
        rw [hrun]
        exact ⟨fun hkept => hkept.1, fun hkept => ⟨hkept, hcleaned.trans h.cleaned⟩⟩
      rw [hnormal, hkept]
      refine ⟨⟨fun hended => ⟨hended, fun hnone => ?_⟩, fun hfits => hfits.ended⟩, fun hended => ?_⟩
      · rw [hmore.2 hnone] at hwaits
        cases hwaits
      · rw [hrun]
        exact .inl ⟨hinit, rfl, hkept.2 hended, hcleaned.trans h.cleaned⟩
  | false =>
      have hnone := hmore.1 hwaits
      have hrun : app.runInner pass = closeModules
          { ready with modules := swept.2, timeout := swept.1.timeout, stopped := true } := by
        rw [hsame]
        simp [runInner, runEvLoop, hinit, hstoping, hready, htimeout, expire, hmodules, hswept,
          hwaits, closeModules]
      have hdisabled := sweep_disabled pass.visits hnone
      have hclosed := sweep_closed_iff pass.visits hstanding hnone
      rw [hswept] at hdisabled hclosed
      have hiff := @closeModules_iff
        { ready with modules := swept.2, timeout := swept.1.timeout, stopped := true }
        rfl (hcleaned.trans h.cleaned) hdisabled
      rw [hrun]
      exact ⟨hiff.1.trans hclosed, fun hkept => .inr (hiff.2 hkept)⟩

/-- **Every pass** keeps the modules exactly if the flags that it finds fit. -/
theorem runInner_kept_iff (h : app.Running ∨ app.IsClosed) (pass : Pass) :
    (NormalKept (app.runInner pass) ↔ FlagsFit app pass) ∧
      (NormalKept (app.runInner pass) →
        (app.runInner pass).Running ∨ (app.runInner pass).IsClosed) := by
  unfold FlagsFit
  obtain hrunning | hclosed := h
  · cases hstop : app.stoping || pass.stop with
    | false =>
        have hkept := hrunning.runInner_running hstop
        exact ⟨⟨fun _ _ hstops => absurd hstops Bool.false_ne_true, fun _ => hkept.normalKept⟩,
          fun _ => .inl hkept⟩
    | true =>
        cases htimeout : app.timeout || pass.timedOut with
        | true =>
            obtain ⟨hiff, hends⟩ := hrunning.runInner_timeout hstop htimeout
            refine ⟨hiff.trans ?_, fun hkept => .inr (hends hkept)⟩
            exact ⟨fun hfits _ _ => hfits, fun hfits => hfits hrunning.initialized rfl⟩
        | false =>
            obtain ⟨hiff, hends⟩ := hrunning.runInner_visits hstop htimeout
            refine ⟨hiff.trans ?_, hends⟩
            exact ⟨fun hfits _ _ => hfits, fun hfits => hfits hrunning.initialized rfl⟩
  · have hsame : app.runInner pass = app := by simp [runInner, hclosed.initialized]
    rw [hsame]
    refine ⟨⟨fun _ hinit => ?_, fun _ => hclosed.normalKept⟩, fun _ => .inr hclosed⟩
    rw [hclosed.initialized] at hinit
    cases hinit

end Pass

/-- **Every run** of a started app keeps its modules exactly if the flags fit in every pass. -/
theorem Running.always_normalKept_iff {app : App} (h : app.Running) (passes : List Pass) :
    Run.Always runInner NormalKept app passes ↔ Run.StepsMeet runInner FlagsFit app passes := by
  refine @Run.always_iff_stepsMeet _ _ runInner (fun app => app.Running ∨ app.IsClosed) NormalKept
    (fun _ _ => True) FlagsFit ?_ ?_ app passes (.inl h) h.normalKept
    (Run.stepsMeet_of_forall _ (fun _ _ => trivial) _ _)
  · intro app pass hside _ _ hfits
    obtain ⟨hiff, hends⟩ := runInner_kept_iff hside pass
    exact hends (hiff.2 hfits)
  · exact fun app pass hside _ _ => (runInner_kept_iff hside pass).1

end App

end LibAtapp.Lifecycle
