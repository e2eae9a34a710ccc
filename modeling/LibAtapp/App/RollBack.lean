import LibAtapp.App.NormalRun

set_option autoImplicit false

/-! # Rolling a failed start back

`init_failed_cleanup` stops the modules that were initialised and the one that has failed, in
rounds, until nothing needs more events or the timeout fires. Each of them has then been stopped,
or gets its timeout, and is cleaned up, exactly if the flags that the rounds find fit: a module that
is called again after it was stopped stays spoiled to the end. -/

namespace LibAtapp.Lifecycle

/-- A module whose `init()` has failed: it has only asked for more time, or it is stopped. -/
def Failing (needStop : Bool) (calls : List Callback) : Prop :=
  ∃ result seq, result < 0 ∧ calls = .init result :: seq ∧
    if needStop then Waiting .initFailedStop seq
    else StopSequence .initFailedStop .initFailedTimeout seq

section Failing

variable {calls : List Callback}

/-- `init_failed_stop()` of a module that still needs it. -/
theorem Failing.stop (h : Failing true calls) (result : Int) :
    Failing (decide (0 < result)) (calls ++ [.initFailedStop result]) := by
  obtain ⟨r, seq, hr, rfl, hwaiting⟩ := h
  refine ⟨r, seq ++ [.initFailedStop result], hr, rfl, ?_⟩
  by_cases hresult : 0 < result
  · rw [if_pos (decide_eq_true hresult)]
    exact Waiting.again hwaiting hresult
  · rw [if_neg (by simpa using hresult)]
    exact Waiting.append hwaiting (.stopped result (by omega))

/-- `init_failed_timeout()` of a module that still needs to be stopped. -/
theorem Failing.timeout (h : Failing true calls) : Failing false (calls ++ [.initFailedTimeout]) := by
  obtain ⟨r, seq, hr, rfl, hwaiting⟩ := h
  exact ⟨r, seq ++ [.initFailedTimeout], hr, rfl, Waiting.append hwaiting .timedOut⟩

theorem Failing.cleanup (h : Failing false calls) :
    RolledBack (calls ++ [.initFailedCleanup]) := by
  obtain ⟨r, seq, hr, rfl, hfinished⟩ := h
  rw [List.cons_append]
  exact .failed r seq hr hfinished

end Failing

namespace App

/-- A start that was rolled back: every module has got what it is due, the last one first. -/
def RollBackKept (app : App) : Prop :=
  (∀ m ∈ app.modules, RolledBack m.calls) ∧ app.cleaned.Pairwise (· > ·)

/-! ## The condition on the rounds -/

/-- The visits of a round call no module again that was stopped. -/
def RoundFits (endIdx : Nat) (failed : Option Nat) (visits : Nat → Visit) (app : App) : Prop :=
  Sweep.VisitsMeet (stopInitedModule endIdx failed visits)
    (fun i p m => i < endIdx ∧ failed ≠ some i → Ended m.calls →
      m.stopsAt (visits i) (p.timeout || (visits i).timedOut) = false)
    0 ⟨app.timeout, false⟩ app.modules

/-- The visits of a round pass over no module that is due. -/
def NonePassedOver (endIdx : Nat) (failed : Option Nat) (visits : Nat → Visit) (app : App) : Prop :=
  ∀ i m, app.modules[i]? = some m → i < endIdx ∧ failed ≠ some i → Due m.calls →
    m.enabledAt (visits i) = true

/-- The flags fit that the modules have when the rounds are ended by the timeout. -/
def FitsAfterRounds (endIdx : Nat) (failed : Option Nat) (own : Nat → Option Bool) (app : App) :
    Prop :=
  ∀ i m, app.modules[i]? = some m → i < endIdx ∧ failed ≠ some i → FitsTimeout m (own i)

/-- The flags that the rounds find fit: no module is called again that was stopped, and where the
    rounds end none that is due is passed over. -/
def RoundsFit (endIdx : Nat) (failed : Option Nat) (own : Nat → Option Bool) :
    List Round → Bool → App → Prop
  | rounds, needStop, app =>
      if app.timeout then app.FitsAfterRounds endIdx failed own
      else match rounds with
        | [] => True
        | round :: rest =>
            let inited := app.stopInitedModules endIdx failed round.visits
            let failing := inited.2.initFailedStop failed needStop round.initFailedStop
            let next := failing.2.expire round.timedOut
            app.RoundFits endIdx failed round.visits ∧
              if inited.1 || failing.1 then RoundsFit endIdx failed own rest failing.1 next
              else if next.timeout then next.FitsAfterRounds endIdx failed own
              else app.NonePassedOver endIdx failed round.visits

/-! ## Stages -/

/-- How far the module at `i` has come while a start is rolled back: the modules before `endIdx`
    are in a standing, apart from the failed one, and the others were never called. -/
def Stage (endIdx : Nat) (failed : Option Nat) (needStop : Bool) (i : Nat) (calls : List Callback) :
    Prop :=
  if failed = some i then Failing needStop calls
  else if i < endIdx then Standing calls
  else calls = []

section Stage

variable {endIdx : Nat} {failed : Option Nat} {needStop : Bool} {i : Nat} {calls : List Callback}

theorem Stage.failing (h : Stage endIdx failed needStop i calls) (hfailed : failed = some i) :
    Failing needStop calls := by
  unfold Stage at h
  rwa [if_pos hfailed] at h

theorem Stage.standing (h : Stage endIdx failed needStop i calls)
    (hi : i < endIdx ∧ failed ≠ some i) : Standing calls := by
  unfold Stage at h
  rwa [if_neg hi.2, if_pos hi.1] at h

theorem Stage.of_failing (hfailed : failed = some i) (h : Failing needStop calls) :
    Stage endIdx failed needStop i calls := by
  unfold Stage
  rwa [if_pos hfailed]

theorem Stage.of_standing (hi : i < endIdx ∧ failed ≠ some i) (h : Standing calls) :
    Stage endIdx failed needStop i calls := by
  unfold Stage
  rwa [if_neg hi.2, if_pos hi.1]

/-- The stage of a module other than the failed one does not depend on `needStop`. -/
theorem Stage.other (h : Stage endIdx failed needStop i calls) (hfailed : failed ≠ some i)
    (needStop' : Bool) : Stage endIdx failed needStop' i calls := by
  unfold Stage at h ⊢
  rwa [if_neg hfailed] at h ⊢

end Stage

/-- Rolling back, before any module is cleaned up. -/
structure RollingBack (endIdx : Nat) (failed : Option Nat) (needStop : Bool) (app : App) :
    Prop where
  stages : ∀ i m, app.modules[i]? = some m → Stage endIdx failed needStop i m.calls
  cleaned : app.cleaned = []

/-! ## Calls are not taken back -/

/-- Every module has its calls and perhaps more. -/
def Grows (app app' : App) : Prop :=
  ∀ (i : Nat) (m : Module), app.modules[i]? = some m →
    ∃ m' more, app'.modules[i]? = some m' ∧ m'.calls = m.calls ++ more

/-- A module was called again after it was ended. -/
def SomeSpoiled (app : App) : Prop :=
  ∃ (i : Nat) (m : Module), app.modules[i]? = some m ∧ Spoiled m.calls

section Grows

variable {app app' app'' : App}

theorem Grows.of_modules (h : app'.modules = app.modules) : app.Grows app' :=
  fun i m hm => ⟨m, [], by rw [h, hm], (List.append_nil _).symm⟩

theorem Grows.trans (h : app.Grows app') (h' : app'.Grows app'') : app.Grows app'' := by
  intro i m hm
  obtain ⟨m', more, hm', hcalls⟩ := h i m hm
  obtain ⟨m'', more', hm'', hcalls'⟩ := h' i m' hm'
  exact ⟨m'', more ++ more', hm'', by rw [hcalls', hcalls, List.append_assoc]⟩

theorem SomeSpoiled.grows (h : app.SomeSpoiled) (hgrows : app.Grows app') : app'.SomeSpoiled := by
  obtain ⟨i, m, hm, hspoiled⟩ := h
  obtain ⟨m', more, hm', hcalls⟩ := hgrows i m hm
  exact ⟨i, m', hm', by rw [hcalls]; exact hspoiled.append more⟩

theorem SomeSpoiled.not_rollBackKept (h : app.SomeSpoiled) : ¬ RollBackKept app := by
  obtain ⟨i, m, hm, hspoiled⟩ := h
  exact fun hkept => hspoiled.not_rolledBack (hkept.1 m (List.mem_of_getElem? hm))

theorem grows_modify (app : App) (i : Nat) (c : Callback) :
    app.Grows { app with modules := app.modules.modify i (·.call c) } := by
  intro j m hm
  by_cases hij : i = j
  · exact ⟨m.call c, [c], by simp [hm, hij], rfl⟩
  · exact ⟨m, [], by simp [hm, hij], (List.append_nil _).symm⟩

theorem grows_initFailedStop (app : App) (failed : Option Nat) (needStop : Bool) (result : Int) :
    app.Grows (app.initFailedStop failed needStop result).2 := by
  cases failed with
  | none => exact .of_modules rfl
  | some i =>
      cases needStop with
      | false => exact .of_modules rfl
      | true => exact grows_modify app i _

theorem grows_expire (app : App) (timedOut : Bool) : app.Grows (app.expire timedOut) :=
  .of_modules rfl

theorem grows_timeoutInitedModules (app : App) (endIdx : Nat) (failed : Option Nat)
    (own : Nat → Option Bool) : app.Grows (app.timeoutInitedModules endIdx failed own) := by
  intro i m hm
  refine ⟨timeoutInitedModule endIdx failed own i m, ?_⟩
  have hvisited : (app.timeoutInitedModules endIdx failed own).modules[i]?
      = some (timeoutInitedModule endIdx failed own i m) := by
    rw [timeoutInitedModules, List.getElem?_mapIdx, hm]
    rfl
  unfold timeoutInitedModule Module.expired at hvisited ⊢
  split_ifs at hvisited ⊢
  · exact ⟨[.timeout], hvisited, by simp⟩
  · exact ⟨[], hvisited, by simp⟩
  · exact ⟨[], hvisited, (List.append_nil _).symm⟩

theorem grows_finishFailed (app : App) (failed : Option Nat) (needStop : Bool) :
    app.Grows (app.finishFailed failed needStop) := by
  cases failed with
  | none => exact .of_modules rfl
  | some i =>
      unfold finishFailed
      dsimp only
      split_ifs
      · exact (grows_modify app i .initFailedTimeout).trans (grows_modify _ i .initFailedCleanup)
      · exact grows_modify app i .initFailedCleanup

theorem grows_cleanupModules (failed : Option Nat) (count : Nat) (app : App) :
    app.Grows (app.cleanupModules failed count) := by
  intro i m hm
  rw [getElem?_cleanupModules, hm]
  by_cases hcleaned : i < count ∧ failed ≠ some i
  · exact ⟨m.call .cleanup, [.cleanup], by simp [hcleaned], rfl⟩
  · exact ⟨m, [], by simp [hcleaned], (List.append_nil _).symm⟩

theorem grows_finishCleanup (app : App) (endIdx : Nat) (failed : Option Nat)
    (own : Nat → Option Bool) (needStop : Bool) :
    app.Grows (app.finishCleanup endIdx failed own needStop) := by
  unfold finishCleanup
  dsimp only
  split_ifs
  · exact ((grows_timeoutInitedModules app endIdx failed own).trans
      (grows_finishFailed _ failed needStop)).trans (grows_cleanupModules failed endIdx _)
  · exact (grows_finishFailed app failed needStop).trans (grows_cleanupModules failed endIdx _)

end Grows

/-! ## One round -/

section Round

variable {endIdx : Nat} {failed : Option Nat} {needStop : Bool} {app : App}

theorem stopInitedModule_other {i : Nat} (hi : ¬ (i < endIdx ∧ failed ≠ some i))
    (visits : Nat → Visit) (p : Progress) (m : Module) :
    stopInitedModule endIdx failed visits i p m = (p, m) := by
  unfold stopInitedModule
  rw [if_neg hi]

theorem stopInitedModule_calls {i : Nat} (hi : i < endIdx ∧ failed ≠ some i)
    (visits : Nat → Visit) (p : Progress) (m : Module) :
    (stopInitedModule endIdx failed visits i p m).2.calls
      = m.callsAfter (visits i) (p.timeout || (visits i).timedOut) := by
  unfold stopInitedModule Module.callsAfter Module.stopsAt Module.enabledAt Module.suspendsAt
  rw [if_pos hi]
  dsimp only
  cases (m.own (visits i).own).enabled <;>
    cases ((m.own (visits i).own).visited (visits i)).1 <;>
      cases p.timeout || (visits i).timedOut <;> simp

theorem stopInitedModule_moreEvent (endIdx : Nat) (failed : Option Nat) (visits : Nat → Visit)
    (i : Nat) (p : Progress) (m : Module) :
    (stopInitedModule endIdx failed visits i p m).1.moreEvent
      = (p.moreEvent || (decide (i < endIdx ∧ failed ≠ some i) &&
          m.waitsAt (visits i) (p.timeout || (visits i).timedOut))) := by
  by_cases hi : i < endIdx ∧ failed ≠ some i
  · rw [decide_eq_true hi, Bool.true_and]
    unfold stopInitedModule Module.waitsAt Module.enabledAt Module.suspendsAt
    rw [if_pos hi]
    dsimp only
    cases (m.own (visits i).own).enabled <;>
      cases ((m.own (visits i).own).visited (visits i)).1 <;>
        cases p.timeout || (visits i).timedOut <;> simp [Module.stop_more]
  · rw [stopInitedModule_other hi, decide_eq_false hi, Bool.false_and, Bool.or_false]

/-- A round keeps the stages exactly if its visits call no module again. -/
theorem RollingBack.stages_iff (h : RollingBack endIdx failed needStop app)
    (visits : Nat → Visit) :
    RollingBack endIdx failed needStop (app.stopInitedModules endIdx failed visits).2 ↔
      app.RoundFits endIdx failed visits := by
  have hvisits := @Sweep.forall_sweep_iff _ _ (stopInitedModule endIdx failed visits)
    (fun i p m => i < endIdx ∧ failed ≠ some i → Ended m.calls →
      m.stopsAt (visits i) (p.timeout || (visits i).timedOut) = false)
    0 ⟨app.timeout, false⟩ app.modules (fun _ _ _ => True)
    (fun i m => Stage endIdx failed needStop i m.calls)
    (fun i m => Stage endIdx failed needStop i m.calls)
    (fun i p m hm _ => by
      by_cases hi : i < endIdx ∧ failed ≠ some i
      · rw [stopInitedModule_calls hi]
        have hkept := @standing_callsAfter_iff m (visits i) (p.timeout || (visits i).timedOut)
          (hm.standing hi)
        exact ⟨fun hstage _ => hkept.1 (hstage.standing hi),
          fun hfits => .of_standing hi (hkept.2 (hfits hi))⟩
      · rw [stopInitedModule_other hi]
        exact ⟨fun _ hin => absurd hin hi, fun _ => hm⟩)
    (by simpa only [Nat.zero_add] using h.stages)
    (Sweep.visitsMeet_iff_forall.2 fun _ _ _ => trivial)
  simp only [Nat.zero_add] at hvisits
  exact Iff.trans ⟨fun hkept => hkept.stages, fun hstages => ⟨hstages, h.cleaned⟩⟩ hvisits

/-- A round that calls a module again spoils it. -/
theorem RollingBack.someSpoiled (h : RollingBack endIdx failed needStop app)
    {visits : Nat → Visit} (hnot : ¬ app.RoundFits endIdx failed visits) :
    (app.stopInitedModules endIdx failed visits).2.SomeSpoiled := by
  rw [← h.stages_iff] at hnot
  by_contra hnone
  refine hnot ⟨fun i m hm => ?_, h.cleaned⟩
  obtain ⟨x, p, hx, rfl⟩ := Sweep.exists_visit hm
  rw [Nat.zero_add] at hm ⊢
  by_cases hi : i < endIdx ∧ failed ≠ some i
  · have hstanding := (h.stages i x hx).standing hi
    refine .of_standing hi ?_
    have hspoils : ¬ Spoiled (stopInitedModule endIdx failed visits i p x).2.calls :=
      fun hspoiled => hnone ⟨i, _, hm, hspoiled⟩
    rw [stopInitedModule_calls hi] at hspoils ⊢
    refine (standing_callsAfter_iff hstanding).2 fun hended => ?_
    unfold Module.callsAfter at hspoils
    cases hstops : x.stopsAt (visits i) (p.timeout || (visits i).timedOut) with
    | false => rfl
    | true =>
        rw [hstops, if_pos rfl] at hspoils
        exact absurd (hended.spoiled (.inr ⟨_, rfl⟩)) hspoils
  · rw [stopInitedModule_other hi]
    exact h.stages i x hx

/-- A round after which no more events are needed closes every module exactly if its flags fit. -/
theorem RollingBack.closed_iff (h : RollingBack endIdx failed needStop app) {visits : Nat → Visit}
    (hmore : (app.stopInitedModules endIdx failed visits).1 = false) :
    (∀ i m, (app.stopInitedModules endIdx failed visits).2.modules[i]? = some m →
        i < endIdx ∧ failed ≠ some i → Closed (m.calls ++ [.cleanup])) ↔
      app.RoundFits endIdx failed visits ∧ app.NonePassedOver endIdx failed visits := by
  have hwaits := (Sweep.flag_sweep_iff (stopInitedModule_moreEvent endIdx failed visits)).1 hmore
  have hvisits := @Sweep.forall_sweep_iff _ _ (stopInitedModule endIdx failed visits)
    (fun i p m => (i < endIdx ∧ failed ≠ some i → Ended m.calls →
      m.stopsAt (visits i) (p.timeout || (visits i).timedOut) = false) ∧
      (i < endIdx ∧ failed ≠ some i → Due m.calls → m.enabledAt (visits i) = true))
    0 ⟨app.timeout, false⟩ app.modules _
    (fun i m => Stage endIdx failed needStop i m.calls)
    (fun i m => i < endIdx ∧ failed ≠ some i → Closed (m.calls ++ [.cleanup]))
    (fun i p m hm hw => by
      by_cases hi : i < endIdx ∧ failed ≠ some i
      · rw [decide_eq_true hi, Bool.true_and] at hw
        rw [stopInitedModule_calls hi]
        have hiff := closed_callsAfter_iff (hm.standing hi) hw
        exact ⟨fun hclosed => ⟨fun _ => (hiff.1 (hclosed hi)).1, fun _ => (hiff.1 (hclosed hi)).2⟩,
          fun hfits _ => hiff.2 ⟨hfits.1 hi, hfits.2 hi⟩⟩
      · exact ⟨fun _ => ⟨fun hin => absurd hin hi, fun hin => absurd hin hi⟩,
          fun _ hin => absurd hin hi⟩)
    (by simpa only [Nat.zero_add] using h.stages) hwaits.2
  rw [Sweep.visitsMeet_and, Sweep.visitsMeet_iff_forall] at hvisits
  simp only [Nat.zero_add] at hvisits
  exact hvisits

theorem RollingBack.initFailedStop (h : RollingBack endIdx failed needStop app)
    (hnone : failed = none → needStop = false) (result : Int) :
    RollingBack endIdx failed (app.initFailedStop failed needStop result).1
        (app.initFailedStop failed needStop result).2 ∧
      (failed = none → (app.initFailedStop failed needStop result).1 = false) := by
  cases hfailed : failed with
  | none =>
      have hneed := hnone hfailed
      subst hfailed hneed
      exact ⟨h, fun _ => rfl⟩
  | some k =>
      subst hfailed
      cases needStop with
      | false => exact ⟨h, nofun⟩
      | true =>
          refine ⟨⟨fun i m hm => ?_, h.cleaned⟩, nofun⟩
          simp only [App.initFailedStop, List.getElem?_modify] at hm
          obtain ⟨x, hx, rfl⟩ := Option.map_eq_some_iff.1 hm
          have hstage := h.stages i x hx
          split_ifs with hi
          · subst hi
            exact .of_failing rfl ((hstage.failing rfl).stop result)
          · exact hstage.other (by simpa using hi) _

/-- `init_failed_stop()` calls no other module. -/
theorem getElem?_initFailedStop (app : App) (needStop : Bool) (result : Int) {i : Nat}
    (hi : failed ≠ some i) :
    (app.initFailedStop failed needStop result).2.modules[i]? = app.modules[i]? := by
  cases failed with
  | none => rfl
  | some k =>
      cases needStop with
      | false => rfl
      | true =>
          have hne : k ≠ i := by simpa using hi
          simp [App.initFailedStop, hne]

theorem RollingBack.expire (h : RollingBack endIdx failed needStop app) (timedOut : Bool) :
    RollingBack endIdx failed needStop (app.expire timedOut) :=
  ⟨h.stages, h.cleaned⟩

end Round

/-! ## After the rounds -/

/-- What the last callbacks need apart from the modules that were initialised: the failed module is
    on its way, and the others were never called. -/
structure Leaving (endIdx : Nat) (failed : Option Nat) (needStop : Bool) (app : App) : Prop where
  failing : ∀ i m, app.modules[i]? = some m → failed = some i → Failing needStop m.calls
  untouched : ∀ i m, app.modules[i]? = some m → failed ≠ some i → ¬ i < endIdx → m.calls = []
  cleaned : app.cleaned = []

section Finish

variable {endIdx : Nat} {failed : Option Nat} {needStop : Bool} {app : App}

theorem RollingBack.leaving (h : RollingBack endIdx failed needStop app) :
    Leaving endIdx failed needStop app := by
  refine ⟨fun i m hm => (h.stages i m hm).failing, fun i m hm hfailed hlt => ?_, h.cleaned⟩
  have hstage := h.stages i m hm
  unfold Stage at hstage
  rwa [if_neg hfailed, if_neg hlt] at hstage

theorem getElem?_finishFailed (app : App) (failed : Option Nat) (needStop : Bool) (j : Nat) :
    (app.finishFailed failed needStop).modules[j]? = app.modules[j]?.map fun m =>
      if failed = some j then
        (if needStop && app.timeout then m.call .initFailedTimeout else m).call .initFailedCleanup
      else m := by
  cases failed with
  | none => simp [finishFailed]
  | some k =>
      by_cases hk : k = j
      · subst hk
        cases hexpired : needStop && app.timeout <;>
          cases hm : app.modules[k]? <;> simp [finishFailed, hexpired, hm]
      · cases hexpired : needStop && app.timeout <;>
          cases hm : app.modules[j]? <;> simp [finishFailed, hexpired, hm, hk]

theorem cleaned_finishFailed (app : App) (failed : Option Nat) (needStop : Bool) :
    (app.finishFailed failed needStop).cleaned = app.cleaned := by
  cases failed <;> rfl

/-- The last callbacks, once the failed module is stopped or is due its timeout: every module has
    got what it is due exactly if its cleanup closes it. -/
theorem Leaving.finish_iff (h : Leaving endIdx failed needStop app)
    (hneed : needStop = true → app.timeout = true) :
    RollBackKept ((app.finishFailed failed needStop).cleanupModules failed endIdx) ↔
      ∀ i m, app.modules[i]? = some m → i < endIdx ∧ failed ≠ some i →
        Closed (m.calls ++ [.cleanup]) := by
  have hcalls : ∀ i, ((app.finishFailed failed needStop).cleanupModules failed endIdx).modules[i]?
      = _ := fun i => by rw [getElem?_cleanupModules, getElem?_finishFailed, Option.map_map]
  constructor
  · intro hkept i m hm hi
    have hrolled := hkept.1 (m.call .cleanup) (List.mem_of_getElem? ((hcalls i).trans (by
      simp [hm, hi])))
    exact rolledBack_append_iff.1 hrolled
  · intro hclosed
    refine ⟨fun m hm => ?_, ?_⟩
    · obtain ⟨j, hj⟩ := List.mem_iff_getElem?.1 hm
      rw [hcalls] at hj
      obtain ⟨x, hx, rfl⟩ := Option.map_eq_some_iff.1 hj
      dsimp only [Function.comp]
      by_cases hfailed : failed = some j
      · rw [if_neg (fun hclean => hclean.2 hfailed), if_pos hfailed]
        have hfailing := h.failing j x hx hfailed
        cases needStop with
        | false => exact hfailing.cleanup
        | true =>
            rw [if_pos (by rw [hneed rfl]; rfl)]
            exact hfailing.timeout.cleanup
      · rw [if_neg hfailed]
        by_cases hlt : j < endIdx
        · rw [if_pos ⟨hlt, hfailed⟩]
          exact .closed _ (hclosed j x hx ⟨hlt, hfailed⟩)
        · rw [if_neg (fun hclean => hlt hclean.1), h.untouched j x hx hfailed hlt]
          exact .untouched
    · rw [cleaned_cleanupModules, cleaned_finishFailed, h.cleaned, List.nil_append]
      refine List.Pairwise.filter _ ?_
      rw [List.pairwise_reverse]
      exact List.pairwise_lt_range

/-- Once the timeout has fired, the modules get what they are due exactly if their flags fit. -/
theorem RollingBack.finishCleanup_timeout_iff (h : RollingBack endIdx failed needStop app)
    (htimeout : app.timeout = true) (own : Nat → Option Bool) :
    RollBackKept (app.finishCleanup endIdx failed own needStop) ↔
      app.FitsAfterRounds endIdx failed own := by
  have hcalls : ∀ i, (app.timeoutInitedModules endIdx failed own).modules[i]?
      = app.modules[i]?.map (timeoutInitedModule endIdx failed own i) := fun i =>
    List.getElem?_mapIdx
  have hother : ∀ i m, ¬ (i < endIdx ∧ failed ≠ some i) →
      timeoutInitedModule endIdx failed own i m = m := fun i m hi => by
    unfold timeoutInitedModule
    rw [if_neg hi]
  have hleaving : Leaving endIdx failed needStop (app.timeoutInitedModules endIdx failed own) := by
    refine ⟨fun i m hm hfailed => ?_, fun i m hm hfailed hlt => ?_, h.cleaned⟩
    all_goals
      rw [hcalls] at hm
      obtain ⟨x, hx, rfl⟩ := Option.map_eq_some_iff.1 hm
    · rw [hother i x (fun hi => hi.2 hfailed)]
      exact h.leaving.failing i x hx hfailed
    · rw [hother i x (fun hi => hlt hi.1)]
      exact h.leaving.untouched i x hx hfailed hlt
  unfold finishCleanup
  rw [if_pos htimeout]
  refine (hleaving.finish_iff fun _ => htimeout).trans ⟨fun hclosed i m hm hi => ?_,
    fun hfits i m hm hi => ?_⟩
  · have hclosed' := hclosed i _ ((hcalls i).trans (by rw [hm]; rfl)) hi
    unfold timeoutInitedModule at hclosed'
    rw [if_pos hi] at hclosed'
    exact (closed_expired_iff ((h.stages i m hm).standing hi) _).1 hclosed'
  · rw [hcalls] at hm
    obtain ⟨x, hx, rfl⟩ := Option.map_eq_some_iff.1 hm
    unfold timeoutInitedModule
    rw [if_pos hi]
    exact (closed_expired_iff ((h.stages i x hx).standing hi) _).2 (hfits i x hx hi)

end Finish

/-! ## All rounds -/

section Rounds

variable {endIdx : Nat} {failed : Option Nat} {needStop : Bool} {app : App}

theorem stopRounds_of_timeout (h : app.timeout = true) (rounds : List Round) :
    stopRounds endIdx failed rounds needStop app = some (needStop, app) := by
  unfold stopRounds
  rw [if_pos h]

theorem stopRounds_cons (h : app.timeout = false) (round : Round) (rest : List Round) :
    stopRounds endIdx failed (round :: rest) needStop app
      = let inited := app.stopInitedModules endIdx failed round.visits
        let failing := inited.2.initFailedStop failed needStop round.initFailedStop
        if inited.1 || failing.1 then
          stopRounds endIdx failed rest failing.1 (failing.2.expire round.timedOut)
        else some (failing.1, failing.2.expire round.timedOut) := by
  rw [stopRounds, if_neg (by rw [h]; exact Bool.false_ne_true)]

theorem grows_stopInitedModules (app : App) (endIdx : Nat) (failed : Option Nat)
    (visits : Nat → Visit) : app.Grows (app.stopInitedModules endIdx failed visits).2 := by
  intro i m hm
  obtain ⟨p, hp⟩ := @Sweep.exists_visited _ _ (stopInitedModule endIdx failed visits) 0
    ⟨app.timeout, false⟩ app.modules i m hm
  rw [Nat.zero_add] at hp
  by_cases hi : i < endIdx ∧ failed ≠ some i
  · have hcalls := stopInitedModule_calls hi visits p m
    unfold Module.callsAfter at hcalls
    split_ifs at hcalls
    · exact ⟨_, _, hp, hcalls⟩
    · exact ⟨_, [], hp, by rw [hcalls, List.append_nil]⟩
  · rw [stopInitedModule_other hi] at hp
    exact ⟨m, [], hp, (List.append_nil _).symm⟩

theorem grows_stopRounds {rounds : List Round} {last : Bool} {after : App}
    (hreturns : stopRounds endIdx failed rounds needStop app = some (last, after)) :
    app.Grows after := by
  induction rounds generalizing needStop app with
  | nil =>
      unfold stopRounds at hreturns
      split_ifs at hreturns
      cases hreturns
      exact .of_modules rfl
  | cons round rest ih =>
      cases htimeout : app.timeout with
      | true =>
          rw [stopRounds_of_timeout htimeout] at hreturns
          cases hreturns
          exact .of_modules rfl
      | false =>
          rw [stopRounds_cons htimeout] at hreturns
          dsimp only at hreturns
          have hround := ((grows_stopInitedModules app endIdx failed round.visits).trans
            (grows_initFailedStop _ failed needStop round.initFailedStop)).trans
            (grows_expire _ round.timedOut)
          split_ifs at hreturns
          · exact hround.trans (ih hreturns)
          · cases hreturns
            exact hround

theorem roundsFit_of_timeout (h : app.timeout = true) (own : Nat → Option Bool)
    (rounds : List Round) :
    RoundsFit endIdx failed own rounds needStop app ↔ app.FitsAfterRounds endIdx failed own := by
  unfold RoundsFit
  rw [if_pos h]

theorem roundsFit_cons (h : app.timeout = false) (own : Nat → Option Bool) (round : Round)
    (rest : List Round) :
    RoundsFit endIdx failed own (round :: rest) needStop app ↔
      let inited := app.stopInitedModules endIdx failed round.visits
      let failing := inited.2.initFailedStop failed needStop round.initFailedStop
      let next := failing.2.expire round.timedOut
      app.RoundFits endIdx failed round.visits ∧
        if inited.1 || failing.1 then RoundsFit endIdx failed own rest failing.1 next
        else if next.timeout then next.FitsAfterRounds endIdx failed own
        else app.NonePassedOver endIdx failed round.visits := by
  rw [RoundsFit, if_neg (by rw [h]; exact Bool.false_ne_true)]

/-- A module that a round spoils stays spoiled to the end. -/
theorem RollingBack.roundFits_of_kept (h : RollingBack endIdx failed needStop app)
    {visits : Nat → Visit} {after : App}
    (hgrows : (app.stopInitedModules endIdx failed visits).2.Grows after)
    (hkept : RollBackKept after) : app.RoundFits endIdx failed visits := by
  by_contra hnot
  exact ((h.someSpoiled hnot).grows hgrows).not_rollBackKept hkept

/-- The last round, where nothing needs more events and the timeout has not fired. -/
theorem RollingBack.finishCleanup_done_iff (h : RollingBack endIdx failed needStop app)
    (hnone : failed = none → needStop = false) {round : Round} (own : Nat → Option Bool)
    (hfits : app.RoundFits endIdx failed round.visits)
    (hdone : (app.stopInitedModules endIdx failed round.visits).1 = false)
    (hstopped : ((app.stopInitedModules endIdx failed round.visits).2.initFailedStop failed needStop
      round.initFailedStop).1 = false)
    (hlate : ¬ (((app.stopInitedModules endIdx failed round.visits).2.initFailedStop failed needStop
      round.initFailedStop).2.expire round.timedOut).timeout = true) :
    RollBackKept ((((app.stopInitedModules endIdx failed round.visits).2.initFailedStop failed
        needStop round.initFailedStop).2.expire round.timedOut).finishCleanup endIdx failed own
          ((app.stopInitedModules endIdx failed round.visits).2.initFailedStop failed needStop
            round.initFailedStop).1) ↔
      app.NonePassedOver endIdx failed round.visits := by
  have hinited := (h.stages_iff round.visits).2 hfits
  have hnext := (hinited.initFailedStop hnone round.initFailedStop).1.expire round.timedOut
  unfold finishCleanup
  rw [if_neg hlate]
  rw [hnext.leaving.finish_iff fun hneed => by rw [hstopped] at hneed; cases hneed]
  refine Iff.trans ?_ ((h.closed_iff hdone).trans (and_iff_right hfits))
  have hsame : ∀ i, failed ≠ some i → _ := fun i hi => getElem?_initFailedStop
    (app.stopInitedModules endIdx failed round.visits).2 needStop round.initFailedStop hi
  exact ⟨fun hclosed i m hm hi => hclosed i m ((hsame i hi.2).trans hm) hi,
    fun hclosed i m hm hi => hclosed i m ((hsame i hi.2).symm.trans hm) hi⟩

/-- **The rounds** give every module what it is due exactly if the flags that they find fit. -/
theorem RollingBack.stopRounds_iff (own : Nat → Option Bool) {rounds : List Round} {last : Bool}
    {after : App} (h : RollingBack endIdx failed needStop app)
    (hnone : failed = none → needStop = false)
    (hreturns : App.stopRounds endIdx failed rounds needStop app = some (last, after)) :
    RollBackKept (after.finishCleanup endIdx failed own last) ↔
      RoundsFit endIdx failed own rounds needStop app := by
  induction rounds generalizing needStop app with
  | nil =>
      cases htimeout : app.timeout with
      | true =>
          rw [stopRounds_of_timeout htimeout] at hreturns
          cases hreturns
          rw [roundsFit_of_timeout htimeout]
          exact h.finishCleanup_timeout_iff htimeout own
      | false =>
          rw [App.stopRounds, if_neg (by rw [htimeout]; exact Bool.false_ne_true)] at hreturns
          cases hreturns
  | cons round rest ih =>
      cases htimeout : app.timeout with
      | true =>
          rw [stopRounds_of_timeout htimeout] at hreturns
          cases hreturns
          rw [roundsFit_of_timeout htimeout]
          exact h.finishCleanup_timeout_iff htimeout own
      | false =>
          rw [stopRounds_cons htimeout] at hreturns
          rw [roundsFit_cons htimeout]
          dsimp only at hreturns ⊢
          have hround := (grows_initFailedStop (app.stopInitedModules endIdx failed round.visits).2
            failed needStop round.initFailedStop).trans (grows_expire _ round.timedOut)
          by_cases hfits : app.RoundFits endIdx failed round.visits
          · have hinited := (h.stages_iff round.visits).2 hfits
            obtain ⟨hfailing, hnone'⟩ := hinited.initFailedStop hnone round.initFailedStop
            have hnext := hfailing.expire round.timedOut
            rw [and_iff_right hfits]
            split_ifs at hreturns ⊢ with hmore hlate
            · exact ih hnext hnone' hreturns
            · cases hreturns
              exact hnext.finishCleanup_timeout_iff hlate own
            · cases hreturns
              obtain ⟨hdone, hstopped⟩ := Bool.or_eq_false_iff.1 (Bool.not_eq_true _ ▸ hmore)
              exact h.finishCleanup_done_iff hnone own hfits hdone hstopped hlate
          · refine ⟨fun hkept => absurd (h.roundFits_of_kept ?_ hkept) hfits,
              fun hboth => absurd hboth.1 hfits⟩
            refine Grows.trans ?_ (grows_finishCleanup _ endIdx failed own last)
            split_ifs at hreturns
            · exact hround.trans (grows_stopRounds hreturns)
            · cases hreturns
              exact hround

/-- **A start that is rolled back** gives every module what it is due exactly if the flags fit. -/
theorem RollingBack.initFailedCleanup_iff {rounds : List Round} {own : Nat → Option Bool}
    {after : App} (h : RollingBack endIdx failed failed.isSome app)
    (hreturns : app.initFailedCleanup endIdx failed rounds own = some after) :
    RollBackKept after ↔ RoundsFit endIdx failed own rounds failed.isSome app.stop := by
  unfold App.initFailedCleanup at hreturns
  obtain ⟨⟨last, stopped⟩, hrounds, rfl⟩ := Option.map_eq_some_iff.1 hreturns
  have hstart : RollingBack endIdx failed failed.isSome app.stop := ⟨h.stages, h.cleaned⟩
  exact hstart.stopRounds_iff own (fun hnone => by rw [hnone]; rfl) hrounds

/-- The loop comes to an end once the timeout fires in a round. -/
theorem stopRounds_isSome {rounds : List Round} (hfires : ∃ r ∈ rounds, r.timedOut = true)
    (needStop : Bool) (app : App) :
    (stopRounds endIdx failed rounds needStop app).isSome = true := by
  induction rounds generalizing needStop app with
  | nil =>
      obtain ⟨r, hr, -⟩ := hfires
      cases hr
  | cons round rest ih =>
      cases htimeout : app.timeout with
      | true =>
          rw [stopRounds_of_timeout htimeout]
          rfl
      | false =>
          rw [stopRounds_cons htimeout]
          dsimp only
          split_ifs
          · obtain ⟨r, hr, hr'⟩ := hfires
            obtain rfl | hrest := List.mem_cons.1 hr
            · rw [stopRounds_of_timeout (by simp [expire, hr'])]
              rfl
            · exact ih ⟨r, hrest, hr'⟩ _ _
          · rfl

end Rounds

end App

end LibAtapp.Lifecycle
