import LibAtapp.App.StartOutcome

set_option autoImplicit false

/-! # Modules that leave their flags alone

The app disables a module only where it ends it, and enables none again. As long as no module calls
`enable` or `disable` itself from its `init()` on, a module is enabled exactly while it is due, and
the flags that the app finds fit in every round and in every pass. What a start then needs is that
its pid file is written. -/

namespace LibAtapp.Lifecycle

/-- The flag of a module says whether the module is due. -/
def Flagged (m : Module) : Prop := m.enabled = true ↔ Due m.calls

/-! ## One module -/

section Module

variable {m : Module} {v : Visit}

theorem Due.again {calls : List Callback} {result : Int} (h : Due calls) (hresult : 0 < result) :
    Due (calls ++ [.stop result]) := by
  obtain ⟨first, seq, hfirst, rfl, hwaiting⟩ := h
  exact ⟨first, seq ++ [.stop result], hfirst, rfl, hwaiting.again hresult⟩

theorem not_due_nil : ¬ Due [] := by
  rintro ⟨_, _, -, heq, -⟩
  cases heq

/-- A module that has only got its `init()`. -/
theorem Flagged.init (hfresh : m.calls = []) (hon : m.enabled = true) {result : Int}
    (hresult : 0 ≤ result) : Flagged (m.call (.init result)).active := by
  have hdue : Due (m.call (.init result)).active.calls := by
    rw [Module.active_calls, Module.call_calls, hfresh]
    exact due_init hresult
  exact iff_of_true hon hdue

theorem Flagged.fitsTimeout (h : Flagged m) : FitsTimeout m none :=
  ⟨fun hended => Bool.eq_false_iff.2 fun hon => hended.not_due (h.1 hon), h.2⟩

theorem Flagged.enabledAt (h : Flagged m) (hown : v.own = none) (hdue : Due m.calls) :
    m.enabledAt v = true := by
  unfold Module.enabledAt
  rw [hown]
  exact h.2 hdue

theorem Flagged.stopsAt (h : Flagged m) (hown : v.own = none) (hended : Ended m.calls)
    (timeout : Bool) : m.stopsAt v timeout = false := by
  unfold Module.stopsAt Module.enabledAt
  rw [hown, show (m.own none).enabled = false from h.fitsTimeout.1 hended]
  rfl

theorem Flagged.visited (h : Flagged m) (v : Visit) : Flagged (m.visited v).2 := by
  unfold Flagged
  rw [Module.visited_enabled, Module.visited_calls]
  exact h

/-- `stop()` leaves a module enabled exactly if it asks for more time. -/
theorem Flagged.stop (h : Flagged m) (hon : m.enabled = true) (result : Int) :
    Flagged (m.stop result).2 := by
  unfold Module.stop
  split_ifs with hresult
  · have hended := (h.1 hon).asked.ends (.stopped result hresult)
    exact iff_of_false Bool.false_ne_true hended.not_due
  · exact iff_of_true hon ((h.1 hon).again (Int.not_le.1 hresult))

theorem Flagged.expired (h : Flagged m) : Flagged m.expired := by
  unfold Module.expired
  split_ifs with hon
  · exact iff_of_false Bool.false_ne_true ((h.1 hon).asked.ends .timedOut).not_due
  · exact h

theorem Flagged.stopModule {visits : Nat → Visit} {i : Nat} (h : Flagged m)
    (hown : (visits i).own = none) (p : Progress) :
    Flagged (App.stopModule visits i p m).2 := by
  unfold App.stopModule
  rw [hown]
  dsimp only [Module.own]
  split_ifs with hon
  · exact h.visited _
  · exact (h.visited _).stop (by rw [Module.visited_enabled, hon]) _
  · exact h

theorem Flagged.stopInitedModule {visits : Nat → Visit} {i : Nat} (h : Flagged m)
    (hown : (visits i).own = none) (endIdx : Nat) (failed : Option Nat) (p : Progress) :
    Flagged (App.stopInitedModule endIdx failed visits i p m).2 := by
  unfold App.stopInitedModule
  rw [hown]
  dsimp only [Module.own]
  split_ifs with hi hon
  · exact h.visited _
  · exact (h.visited _).stop (by rw [Module.visited_enabled, hon]) _
  · exact h
  · exact h

end Module

namespace App

/-! ## Passes -/

/-- The modules leave their flags alone during a pass. -/
def Pass.LeavesFlags (pass : Pass) : Prop := ∀ i, (pass.visits i).own = none

section Pass

variable {app : App} {pass : Pass}

theorem flagsFit_of_flagged (h : ∀ m ∈ app.modules, Flagged m) (hleaves : pass.LeavesFlags) :
    FlagsFit app pass := by
  intro _ _
  split_ifs
  · intro i m hm
    rw [hleaves i]
    exact (h m (List.mem_of_getElem? hm)).fitsTimeout
  · refine ⟨fun i m hm hended => ?_, fun _ i m hm hdue => ?_⟩
    · exact (h m (List.mem_of_getElem? hm)).stopsAt (hleaves i) hended false
    · exact (h m (List.mem_of_getElem? hm)).enabledAt (hleaves i) hdue

theorem runEvLoop_flagged (h : ∀ m ∈ app.modules, Flagged m) (hleaves : pass.LeavesFlags) :
    ∀ m ∈ (app.runEvLoop pass).modules, Flagged m := by
  unfold runEvLoop
  dsimp only
  have hsame : (if pass.stop then (app.expire pass.timedOut).stop
      else app.expire pass.timedOut).modules = app.modules := by split_ifs <;> rfl
  generalize (if pass.stop then (app.expire pass.timedOut).stop
    else app.expire pass.timedOut) = ready at hsame
  split_ifs
  · rw [hsame]
    intro m hm
    obtain ⟨i, hi, rfl⟩ := List.mem_mapIdx.1 hm
    unfold timeoutModule
    rw [hleaves i]
    exact (h _ (List.getElem_mem hi)).expired
  · rw [hsame]
    intro m hm
    obtain ⟨j, hj⟩ := List.mem_iff_getElem?.1 hm
    obtain ⟨x, p, hx, rfl⟩ := Sweep.exists_visit hj
    exact (h x (List.mem_of_getElem? hx)).stopModule (hleaves _) p
  · rw [hsame]
    exact h

/-- A pass keeps the flags right up to the one that closes the app. -/
theorem runInner_flagged (h : app.initialized = true → ∀ m ∈ app.modules, Flagged m)
    (hleaves : pass.LeavesFlags) :
    (app.runInner pass).initialized = true → ∀ m ∈ (app.runInner pass).modules, Flagged m := by
  unfold runInner
  dsimp only
  split_ifs with hinit hstopped
  · exact nofun
  · exact fun _ => runEvLoop_flagged (h hinit) hleaves
  · exact h

/-- In every pass of such a run the flags fit. -/
theorem stepsMeet_flagsFit {passes : List Pass} (h : ∀ m ∈ app.modules, Flagged m)
    (hleaves : ∀ pass ∈ passes, pass.LeavesFlags) :
    Run.StepsMeet runInner FlagsFit app passes := by
  refine @Run.stepsMeet_of_invariant _ _ runInner
    (fun app => app.initialized = true → ∀ m ∈ app.modules, Flagged m)
    (fun _ pass => pass.LeavesFlags) FlagsFit
    (fun _ _ hflagged hpass => runInner_flagged hflagged hpass) (fun _ _ hflagged hpass => ?_)
    app passes (fun _ => h) (Run.stepsMeet_of_mem runInner hleaves app)
  exact fun hinit => flagsFit_of_flagged (hflagged hinit) hpass hinit

end Pass

/-! ## Rounds -/

/-- The modules that a rollback stops have the flags that they should have. -/
def InitedFlagged (endIdx : Nat) (failed : Option Nat) (app : App) : Prop :=
  ∀ i m, app.modules[i]? = some m → i < endIdx ∧ failed ≠ some i → Flagged m

section Rounds

variable {endIdx : Nat} {failed : Option Nat} {needStop : Bool} {app : App}

theorem InitedFlagged.roundFits (h : app.InitedFlagged endIdx failed) {visits : Nat → Visit}
    (hown : ∀ i, (visits i).own = none) : app.RoundFits endIdx failed visits := by
  have hvisits : Sweep.VisitsMeet (App.stopInitedModule endIdx failed visits)
      (fun i _ m => i < endIdx ∧ failed ≠ some i → Flagged m) 0 ⟨app.timeout, false⟩
      app.modules := by
    rw [Sweep.visitsMeet_iff_forall]
    intro j x hx
    rw [Nat.zero_add]
    exact h j x hx
  exact hvisits.mono fun i p m hflagged hi hended => (hflagged hi).stopsAt (hown i) hended _

theorem InitedFlagged.nonePassedOver (h : app.InitedFlagged endIdx failed) {visits : Nat → Visit}
    (hown : ∀ i, (visits i).own = none) : app.NonePassedOver endIdx failed visits :=
  fun i m hm hi hdue => (h i m hm hi).enabledAt (hown i) hdue

theorem InitedFlagged.fitsAfterRounds (h : app.InitedFlagged endIdx failed)
    {own : Nat → Option Bool} (hown : ∀ i, own i = none) :
    app.FitsAfterRounds endIdx failed own := by
  intro i m hm hi
  rw [hown i]
  exact (h i m hm hi).fitsTimeout

theorem InitedFlagged.stopInitedModules (h : app.InitedFlagged endIdx failed)
    {visits : Nat → Visit} (hown : ∀ i, (visits i).own = none) :
    (app.stopInitedModules endIdx failed visits).2.InitedFlagged endIdx failed := by
  intro i m hm hi
  obtain ⟨x, p, hx, rfl⟩ := Sweep.exists_visit hm
  exact (h i x hx hi).stopInitedModule (hown _) endIdx failed p

theorem InitedFlagged.initFailedStop (h : app.InitedFlagged endIdx failed) (result : Int) :
    (app.initFailedStop failed needStop result).2.InitedFlagged endIdx failed := by
  intro i m hm hi
  rw [getElem?_initFailedStop app needStop result hi.2] at hm
  exact h i m hm hi

/-- In every round the flags fit, and after the last one. -/
theorem InitedFlagged.roundsFit {own : Nat → Option Bool} {rounds : List Round}
    (h : app.InitedFlagged endIdx failed)
    (hleaves : ∀ r ∈ rounds, ∀ i, (r.visits i).own = none) (hown : ∀ i, own i = none) :
    RoundsFit endIdx failed own rounds needStop app := by
  induction rounds generalizing needStop app with
  | nil =>
      unfold RoundsFit
      split_ifs
      · exact h.fitsAfterRounds hown
      · trivial
  | cons round rest ih =>
      cases htimeout : app.timeout with
      | true =>
          rw [roundsFit_of_timeout htimeout]
          exact h.fitsAfterRounds hown
      | false =>
          have hvisits := hleaves round List.mem_cons_self
          have hnext : (((app.stopInitedModules endIdx failed round.visits).2.initFailedStop failed
              needStop round.initFailedStop).2.expire round.timedOut).InitedFlagged endIdx failed :=
            (h.stopInitedModules hvisits).initFailedStop round.initFailedStop
          rw [roundsFit_cons htimeout]
          refine ⟨h.roundFits hvisits, ?_⟩
          split_ifs
          · exact ih hnext fun r hr => hleaves r (List.mem_cons_of_mem round hr)
          · exact hnext.fitsAfterRounds hown
          · exact h.nonePassedOver hvisits

end Rounds

/-! ## The start -/

/-- The modules leave their flags alone from the first `init()` on. -/
structure Startup.LeavesFlags (startup : Startup) : Prop where
  init : ∀ i, (startup.init i).own = none
  rounds : ∀ r ∈ startup.rounds, ∀ i, (r.visits i).own = none
  afterRounds : ∀ i, startup.ownAfterRounds i = none

/-- The modules that the loop over `init()` has initialised are flagged. -/
theorem initLoop_flagged {outcome : Nat → Init} (hown : ∀ i, (outcome i).own = none) (i : Nat)
    (timeout : Bool) (xs : List Module) (hfresh : ∀ m ∈ xs, m.calls = []) (j : Nat) (m : Module)
    (hm : (initLoop outcome i timeout xs).modules[j]? = some m)
    (hj : i + j < (initLoop outcome i timeout xs).endIdx)
    (hfailed : (initLoop outcome i timeout xs).initFailedModIdx ≠ some (i + j)) : Flagged m := by
  induction xs generalizing i timeout j with
  | nil => cases hm
  | cons x rest ih =>
      have hrest : ∀ m ∈ rest, m.calls = [] := fun y hy => hfresh y (List.mem_cons_of_mem x hy)
      have hnone := hfresh x List.mem_cons_self
      have hshift : ∀ k, i + (k + 1) = i + 1 + k := fun k => by omega
      cases henabled : x.enabled with
      | false =>
          rw [initLoop_disabled henabled] at hm hj hfailed
          cases j with
          | zero =>
              cases hm
              refine iff_of_false (by rw [henabled]; exact Bool.false_ne_true) ?_
              rw [hnone]
              exact not_due_nil
          | succ k =>
              rw [hshift k] at hj hfailed
              exact ih (i + 1) timeout hrest k hm hj hfailed
      | true =>
          by_cases hresult : (outcome i).result < 0
          · rw [initLoop_failed henabled hresult] at hj hfailed
            cases j with
            | zero => exact absurd rfl hfailed
            | succ k =>
                simp only [InitLoop.endIdx, reduceCtorEq, false_and, if_false] at hj
                omega
          · have hinited :
                Flagged ((x.call (.init (outcome i).result)).own (outcome i).own).active := by
              rw [hown i]
              exact .init hnone henabled (Int.not_lt.1 hresult)
            cases htimeout : timeout || (outcome i).timedOut with
            | true =>
                rw [initLoop_timedOut henabled (Int.not_lt.1 hresult) htimeout] at hm hj
                cases j with
                | zero =>
                    cases hm
                    exact hinited
                | succ k =>
                    simp only [InitLoop.endIdx, operationTimeout_neg, and_self, if_true] at hj
                    omega
            | false =>
                rw [initLoop_inited henabled (Int.not_lt.1 hresult) htimeout] at hm hj hfailed
                cases j with
                | zero =>
                    cases hm
                    exact hinited
                | succ k =>
                    rw [hshift k] at hj hfailed
                    exact ih (i + 1) false hrest k hm hj hfailed

section Start

variable {app : App} {startup : Startup}

/-- The modules with which a rollback starts. -/
theorem callInit_flagged (h : Fresh app) (htimeout : app.timeout = false)
    (hleaves : startup.LeavesFlags) :
    (app.callInit startup).2.2.InitedFlagged (app.callInit startup).2.1.initedModEndIdx
      (app.callInit startup).2.1.initFailedModIdx := by
  have hleft := initLoop_left startup.init 0 false app.modules h.calls
  obtain ⟨hloop, hmodules⟩ := @callInit_loop app startup htimeout
  rw [hloop, hleft.initedModEndIdx]
  intro j m hm hj
  rw [hmodules] at hm
  exact initLoop_flagged hleaves.init 0 false app.modules h.calls j m hm
    (by rw [Nat.zero_add]; exact hj.1) (by rw [Nat.zero_add]; exact hj.2)

theorem rollBackFits_of_leavesFlags (h : Fresh app) (htimeout : app.timeout = false)
    (hleaves : startup.LeavesFlags) : app.RollBackFits startup := by
  intro _
  have hinited : (app.callInit startup).2.2.stop.InitedFlagged _ _ :=
    callInit_flagged h htimeout hleaves
  exact hinited.roundsFit hleaves.rounds hleaves.afterRounds

/-- The modules with which a started app runs. -/
theorem initModules_flagged {after : App} (h : Fresh app) (htimeout : app.timeout = false)
    (hleaves : startup.LeavesFlags) (hreturns : app.initModules startup = some (0, after)) :
    ∀ m ∈ after.modules, Flagged m := by
  unfold initModules at hreturns
  dsimp only at hreturns
  split_ifs at hreturns with hres hwritten
  · obtain ⟨_, -, hcode⟩ := Option.map_eq_some_iff.1 hreturns
    rw [(Prod.ext_iff.1 hcode).1] at hres
    exact absurd hres (Int.lt_irrefl 0)
  · cases hreturns
  · have hall : app.InitsAll startup := by
      by_contra hnot
      exact hres (callInit_of_not_initsAll htimeout hnot)
    have hend := (initLoop_succeeds startup.init 0 app.modules).2
      (by simpa only [Nat.zero_add] using hall.1)
    have hleft := initLoop_left startup.init 0 false app.modules h.calls
    have hmodules := (@callInit_loop app startup htimeout).2
    cases hreturns
    intro m hm
    obtain ⟨j, hj⟩ := List.mem_iff_getElem?.1 hm
    have hj' := (congrArg (·[j]?) hmodules).symm.trans hj
    obtain ⟨hlt, hne⟩ := hleft.inited hend hj'
    exact initLoop_flagged hleaves.init 0 false app.modules h.calls j m hj'
      (by rw [Nat.zero_add]; exact hlt) (by rw [Nat.zero_add]; exact hne)

end Start

/-- **Where the modules leave their flags alone**, the start and the run after it only need the pid
    file: it is written whenever the start gets there with a module that it has initialised. -/
theorem lifecycleFits_iff_pidfile {startup : Startup} {passes : List Pass}
    (modules : List (Bool × SuspendedStop)) (timeout : Bool) (hleaves : startup.LeavesFlags)
    (hpasses : ∀ pass ∈ passes, pass.LeavesFlags) :
    LifecycleFits modules timeout startup passes ↔
      (startup.ReachesPidfile modules timeout →
        (∃ i, startup.enabledForInit modules i = true) → startup.writePidfile = true) := by
  refine ⟨fun hfits => hfits.pidfile, fun hpid => ?_⟩
  by_cases hprepares : startup.Prepares modules timeout
  · have hprepared := prepared_of_prepares hprepares
    refine ⟨hpid, fun _ _ => ?_, fun after hreturns => ?_⟩
    · exact rollBackFits_of_leavesFlags hprepared.fresh hprepared.inTime hleaves
    · have hflagged := initModules_flagged hprepared.fresh hprepared.inTime hleaves
        (hprepared.init.symm.trans hreturns)
      exact stepsMeet_flagsFit hflagged hpasses
  · -- nothing was initialised
    obtain ⟨code, _, hinit, hneg, -⟩ := init_of_not_prepares hprepares
    refine ⟨hpid, fun hall => absurd hall hprepares, fun after hreturns => ?_⟩
    obtain ⟨rfl, -⟩ := Prod.mk.inj (Option.some.inj (hinit.symm.trans hreturns))
    exact absurd hneg (Int.lt_irrefl 0)

end App

end LibAtapp.Lifecycle
