import LibAtapp.Modules.WorkerPool

set_option autoImplicit false

/-! # The expected worker count and its bounds

`tick` holds the count it scales up to against the maximum and the count it scales down to against
the minimum, each when its own window has elapsed and its load asks for a change. The count it
starts from is held against neither. -/

namespace LibAtapp.WorkerPool

namespace WorkerPoolModule

variable (m : WorkerPoolModule) (now sysNow : Int)

/-- The bounds that `reload` stores are in order. -/
theorem reloadBounds_ordered (cfg : PoolConfigure) :
    1 ≤ (reloadBounds cfg).1 ∧ (reloadBounds cfg).1 ≤ (reloadBounds cfg).2 := by
  unfold reloadBounds
  dsimp only
  split_ifs <;> omega

/-! ## One tick -/

/-- The workers that the load asks for when it is measured for scaling up at `now`. -/
def upLoad : Nat := m.scalingUpTargetCount (now - m.scalingStatistics.lastScalingUpCheckpoint)

/-- The workers that the load asks for when it is measured for scaling down at `now`. -/
def downLoad : Nat :=
  m.scalingDownTargetCount (now - m.scalingStatistics.lastScalingDownCheckpoint)

theorem scaleUp_count (count : Nat) :
    (m.scaleUp now count).1 = if m.scalingUpDue now then
      max count (min (m.upLoad now) m.scalingConfigure.maxWorkers) else count := by
  unfold scaleUp scalingUpDue upLoad
  simp only [Bool.and_eq_true, decide_eq_true_eq]
  split_ifs <;> omega

theorem scaleDown_count (count : Nat) :
    (m.scaleDown now count).1 = if m.scalingDownDue now then
      min count (max (m.downLoad now) m.scalingConfigure.minWorkers) else count := by
  unfold scaleDown scalingDownDue downLoad
  simp only [Bool.and_eq_true, decide_eq_true_eq]
  split_ifs <;> omega

/-- What the block for scaling up leaves behind. -/
theorem scaleUp_snd (count : Nat) :
    (m.scaleUp now count).2 = m ∨ (m.scaleUp now count).2 = m.checkScalingUp now ∨
      (m.scaleUp now count).2 = (m.checkScalingUp now).collectScalingUp := by
  unfold scaleUp
  dsimp only
  split_ifs
  · exact .inr (.inl rfl)
  · exact .inl rfl
  · exact .inr (.inl rfl)
  all_goals exact .inr (.inr rfl)

/-- What the block for scaling down leaves behind. -/
theorem scaleDown_snd (count : Nat) :
    (m.scaleDown now count).2 = m ∨ (m.scaleDown now count).2 = m.checkScalingDown now ∨
      (m.scaleDown now count).2 = (m.checkScalingDown now).collectScalingDown := by
  unfold scaleDown
  dsimp only
  split_ifs
  · exact .inr (.inl rfl)
  · exact .inl rfl
  · exact .inr (.inl rfl)
  all_goals exact .inr (.inr rfl)

/-- Collecting for scaling up changes nothing that scaling down reads. -/
theorem downLoad_collectScalingUp : m.collectScalingUp.downLoad now = m.downLoad now := by
  have hjobs : m.collectScalingUp.queueSize = m.queueSize := by
    rw [queueSize, collectScalingUp, List.map_map]
    rfl
  have hcpu : m.collectScalingUp.scalingDownCpuTime = m.scalingDownCpuTime := by
    rw [scalingDownCpuTime, collectScalingUp, List.map_map]
    rfl
  simp only [downLoad, scalingDownTargetCount, hjobs, hcpu]
  rfl

theorem scalingDown_scaleUp (count : Nat) :
    (m.scaleUp now count).2.scalingDownDue now = m.scalingDownDue now ∧
      (m.scaleUp now count).2.downLoad now = m.downLoad now ∧
      (m.scaleUp now count).2.scalingConfigure = m.scalingConfigure := by
  obtain h | h | h := m.scaleUp_snd now count
  · rw [h]
    exact ⟨rfl, rfl, rfl⟩
  · rw [h]
    exact ⟨rfl, rfl, rfl⟩
  · rw [h]
    exact ⟨rfl, (m.checkScalingUp now).downLoad_collectScalingUp now, rfl⟩

theorem scale_scalingConfigure : (m.scale now).scalingConfigure = m.scalingConfigure := by
  have hup := (m.scalingDown_scaleUp now m.startCount).2.2
  show ((m.scaleUp now m.startCount).2.scaleDown now _).2.scalingConfigure = _
  obtain h | h | h := (m.scaleUp now m.startCount).2.scaleDown_snd now (m.scaleUp now m.startCount).1
  · rw [h, hup]
  · rw [h]
    exact hup
  · rw [h]
    exact hup

/-- The count after a tick. -/
theorem scale_currentExpectWorkers :
    (m.scale now).workerSet.currentExpectWorkers =
      let c := m.scalingConfigure
      let up := if m.scalingUpDue now then max m.startCount (min (m.upLoad now) c.maxWorkers)
        else m.startCount
      if m.scalingDownDue now then min up (max (m.downLoad now) c.minWorkers) else up := by
  obtain ⟨hdue, hload, hconf⟩ := m.scalingDown_scaleUp now m.startCount
  show ((m.scaleUp now m.startCount).2.scaleDown now (m.scaleUp now m.startCount).1).1 = _
  rw [scaleDown_count, hdue, hload, hconf, scaleUp_count]

end WorkerPoolModule

/-! ## Everything else leaves the count alone -/

namespace WorkerSet

/-- The functions that create, remove and feed workers keep what `tick` and `reload` decide. -/
structure SameTarget (s s' : WorkerSet) : Prop where
  count : s'.currentExpectWorkers = s.currentExpectWorkers
  closing : s'.closing = s.closing

variable {s : WorkerSet} (sysNow : Int)

theorem SameTarget.refl (s : WorkerSet) : SameTarget s s := ⟨rfl, rfl⟩

theorem SameTarget.trans {s s' s'' : WorkerSet} (h : SameTarget s s') (h' : SameTarget s' s'') :
    SameTarget s s'' :=
  ⟨h'.count.trans h.count, h'.closing.trans h.closing⟩

theorem sameTarget_doScalingUp : SameTarget s (s.doScalingUp sysNow) := by
  unfold doScalingUp
  split_ifs
  · exact ⟨rfl, rfl⟩
  · exact SameTarget.refl s

theorem sameTarget_reduceLoop (expectWorkers : Nat) (reversed : List Worker) :
    SameTarget s (reduceLoop sysNow expectWorkers reversed s) := by
  induction reversed generalizing s with
  | nil => exact ⟨rfl, rfl⟩
  | cons last front ih =>
    rw [reduceLoop]
    split_ifs
    · have hremoved : SameTarget s (s.collectRemoved last) := ⟨rfl, rfl⟩
      exact hremoved.trans ih
    · exact ⟨rfl, rfl⟩

theorem sameTarget_foldl_collectRemoved (removed : List Worker) :
    SameTarget s (removed.foldl collectRemoved s) := by
  induction removed generalizing s with
  | nil => exact SameTarget.refl s
  | cons w removed ih =>
    have hremoved : SameTarget s (s.collectRemoved w) := ⟨rfl, rfl⟩
    exact hremoved.trans ih

theorem sameTarget_internalAutofixWorkers : SameTarget s (s.internalAutofixWorkers sysNow) := by
  unfold internalAutofixWorkers
  split_ifs
  · have hswept := sameTarget_foldl_collectRemoved (s := s)
      (s.workers.filter (·.isExited sysNow))
    exact ⟨hswept.count, hswept.closing⟩
  · exact SameTarget.refl s

theorem sameTarget_rebalanceLoop (candidates : List Nat) (jobs : Nat) :
    SameTarget s (rebalanceLoop candidates jobs s) := by
  induction jobs generalizing s with
  | zero => exact SameTarget.refl s
  | succ jobs ih =>
    rw [rebalanceLoop]
    cases leastLoaded s.workers candidates WorkerCompareKey.max none with
    | none => exact SameTarget.refl s
    | some i =>
      have hgiven : SameTarget s { s.emplace i with sharedJobs := jobs } := ⟨rfl, rfl⟩
      exact hgiven.trans ih

theorem sameTarget_rebalanceJobs : SameTarget s (s.rebalanceJobs sysNow) := by
  unfold rebalanceJobs
  split_ifs
  · exact SameTarget.refl s
  · exact (sameTarget_doScalingUp sysNow).trans (sameTarget_rebalanceLoop _ _)

theorem sameTarget_spawn (limit : Nat) : SameTarget s (s.spawn limit sysNow).2 := by
  have hup := sameTarget_doScalingUp (s := s) sysNow
  unfold spawn
  dsimp only
  split
  · exact hup.trans ⟨rfl, rfl⟩
  · split_ifs
    · exact hup
    · exact hup.trans ⟨rfl, rfl⟩

theorem sameTarget_spawnTo (limit workerId : Nat) :
    SameTarget s (s.spawnTo limit workerId sysNow).2 := by
  have hup := sameTarget_doScalingUp (s := s) sysNow
  unfold spawnTo
  dsimp only
  split
  · exact hup
  · split_ifs
    · exact hup
    · exact hup.trans ⟨rfl, rfl⟩

end WorkerSet

namespace WorkerPoolModule

variable (m : WorkerPoolModule) (now sysNow : Int)

theorem sameTarget_maintain :
    WorkerSet.SameTarget m.workerSet (m.maintain now sysNow).workerSet := by
  unfold maintain
  split_ifs
  · exact (WorkerSet.sameTarget_internalAutofixWorkers sysNow).trans
      (WorkerSet.sameTarget_rebalanceJobs sysNow)
  · exact (WorkerSet.sameTarget_reduceLoop sysNow _ _).trans
      (WorkerSet.sameTarget_rebalanceJobs sysNow)

theorem maintain_scalingConfigure :
    (m.maintain now sysNow).scalingConfigure = m.scalingConfigure := by
  unfold maintain
  split_ifs <;> rfl

end WorkerPoolModule

/-! ## Runs -/

/-- A module and the windows that have elapsed at ticks since its configuration was loaded last. -/
structure WindowHistory where
  pool : WorkerPoolModule
  upElapsed : Bool := false
  downElapsed : Bool := false

namespace WindowHistory

def step (s : WindowHistory) (action : Action) : WindowHistory :=
  match action with
  | .reload _ => { pool := s.pool.step action }
  | .tick now _ =>
    { pool := s.pool.step action
      upElapsed := s.upElapsed || s.pool.scalingUpDue now
      downElapsed := s.downElapsed || s.pool.scalingDownDue now }
  | _ => { s with pool := s.pool.step action }

/-- The count is within bounds that are in order. -/
def InBounds (m : WorkerPoolModule) : Prop :=
  m.scalingConfigure.minWorkers ≤ m.workerSet.currentExpectWorkers ∧
    m.workerSet.currentExpectWorkers ≤ m.scalingConfigure.maxWorkers

/-- The bounds are in order, and once both windows have elapsed the count is within them. -/
structure BoundsKept (s : WindowHistory) : Prop where
  ordered : 1 ≤ s.pool.scalingConfigure.minWorkers ∧
    s.pool.scalingConfigure.minWorkers ≤ s.pool.scalingConfigure.maxWorkers
  bounded : s.upElapsed = true → s.downElapsed = true → InBounds s.pool

/-- At a tick after which both windows have elapsed, the count is not below the minimum before, or
    the load is measured and asks for the minimum at least; and it is not above the maximum
    before, or the load is measured and asks for the maximum at most. -/
def LoadFits (s : WindowHistory) : Action → Prop
  | .tick now _ =>
    let m := s.pool
    (s.upElapsed || m.scalingUpDue now) = true → (s.downElapsed || m.scalingDownDue now) = true →
      (m.scalingConfigure.minWorkers ≤ m.startCount ∨
        m.scalingUpDue now = true ∧ m.scalingConfigure.minWorkers ≤ m.upLoad now) ∧
      (m.startCount ≤ m.scalingConfigure.maxWorkers ∨
        m.scalingDownDue now = true ∧ m.downLoad now ≤ m.scalingConfigure.maxWorkers)
  | _ => True

/-- A tick leaves the count within the bounds exactly if the load fits. -/
theorem inBounds_tick_iff (m : WorkerPoolModule) (now sysNow : Int)
    (hordered : m.scalingConfigure.minWorkers ≤ m.scalingConfigure.maxWorkers) :
    InBounds (m.tick now sysNow) ↔
      (m.scalingConfigure.minWorkers ≤ m.startCount ∨
        m.scalingUpDue now = true ∧ m.scalingConfigure.minWorkers ≤ m.upLoad now) ∧
      (m.startCount ≤ m.scalingConfigure.maxWorkers ∨
        m.scalingDownDue now = true ∧ m.downLoad now ≤ m.scalingConfigure.maxWorkers) := by
  have hconf : (m.tick now sysNow).scalingConfigure = m.scalingConfigure :=
    ((m.scale now).maintain_scalingConfigure now sysNow).trans (m.scale_scalingConfigure now)
  have hcount := ((m.scale now).sameTarget_maintain now sysNow).count.trans
    (m.scale_currentExpectWorkers now)
  have hcount' : (m.tick now sysNow).workerSet.currentExpectWorkers = _ := hcount
  rw [InBounds, hconf, hcount']
  dsimp only
  split_ifs with hdown hup hup
  all_goals simp only [hdown, hup, true_and, false_and, or_false, Bool.false_eq_true]
  all_goals omega

/-- What reads neither the clock nor a configuration changes neither bounds nor count. -/
theorem BoundsKept.of_sameTarget {s : WindowHistory} (h : BoundsKept s) {pool : WorkerPoolModule}
    (hconf : pool.scalingConfigure = s.pool.scalingConfigure)
    (hsame : s.pool.workerSet.SameTarget pool.workerSet) :
    BoundsKept { s with pool := pool } := by
  refine ⟨?_, fun hup hdown => ?_⟩
  · rw [hconf]
    exact h.ordered
  · have hbounds := h.bounded hup hdown
    rw [InBounds, hconf, hsame.count]
    exact hbounds

theorem boundsKept_reload (s : WindowHistory) (cfg : PoolConfigure) :
    BoundsKept (s.step (.reload cfg)) := by
  have hconf : (s.pool.reload cfg).scalingConfigure
      = WorkerPoolModule.reloadScalingConfigure cfg := by
    unfold WorkerPoolModule.reload
    dsimp only
    split_ifs <;> rfl
  refine ⟨?_, fun hup => absurd hup Bool.false_ne_true⟩
  show 1 ≤ (s.pool.reload cfg).scalingConfigure.minWorkers ∧
    (s.pool.reload cfg).scalingConfigure.minWorkers
      ≤ (s.pool.reload cfg).scalingConfigure.maxWorkers
  rw [hconf]
  exact WorkerPoolModule.reloadBounds_ordered cfg

/-- **Every step** keeps the bounds exactly if its load fits. -/
theorem boundsKept_step_iff {s : WindowHistory} (h : BoundsKept s) (action : Action) :
    BoundsKept (s.step action) ↔ LoadFits s action := by
  cases action with
  | tick now sysNow =>
    have hconf : (s.pool.tick now sysNow).scalingConfigure = s.pool.scalingConfigure :=
      ((s.pool.scale now).maintain_scalingConfigure now sysNow).trans
        (s.pool.scale_scalingConfigure now)
    have hiff := inBounds_tick_iff s.pool now sysNow h.ordered.2
    constructor
    · intro hkept hup hdown
      exact hiff.1 (hkept.bounded hup hdown)
    · intro hfits
      refine ⟨?_, fun hup hdown => hiff.2 (hfits hup hdown)⟩
      show 1 ≤ (s.pool.tick now sysNow).scalingConfigure.minWorkers ∧
        (s.pool.tick now sysNow).scalingConfigure.minWorkers
          ≤ (s.pool.tick now sysNow).scalingConfigure.maxWorkers
      rw [hconf]
      exact h.ordered
  | reload cfg => exact iff_of_true (boundsKept_reload s cfg) trivial
  | init => exact iff_of_true (h.of_sameTarget rfl ⟨rfl, rfl⟩) trivial
  | active => exact iff_of_true (h.of_sameTarget rfl ⟨rfl, rfl⟩) trivial
  | spawn sysNow =>
    exact iff_of_true (h.of_sameTarget rfl (WorkerSet.sameTarget_spawn sysNow _)) trivial
  | spawnTo workerId sysNow =>
    exact iff_of_true (h.of_sameTarget rfl (WorkerSet.sameTarget_spawnTo sysNow _ _)) trivial
  | addTickCallback workerId sysNow =>
    exact iff_of_true (h.of_sameTarget rfl (WorkerSet.sameTarget_doScalingUp sysNow)) trivial
  | thread i progress => exact iff_of_true (h.of_sameTarget rfl ⟨rfl, rfl⟩) trivial

/-- A module constructed at `now`. -/
def construct (now : Int) : WindowHistory := { pool := WorkerPoolModule.construct now }

/-- **The count keeps to the bounds** throughout a run exactly if at every tick after which both
    windows have elapsed the load fits: nothing else moves a count that a reload, or the count a
    module starts with, puts outside. -/
theorem always_boundsKept_iff (now : Int) (actions : List Action) :
    Run.Always step BoundsKept (construct now) actions ↔
      Run.StepsMeet step LoadFits (construct now) actions := by
  have hstart : BoundsKept (construct now) :=
    ⟨⟨(by decide : 1 ≤ 2), (by decide : 2 ≤ 4)⟩, fun hup => absurd hup Bool.false_ne_true⟩
  have hany : Run.StepsMeet step (fun _ _ => True) (construct now) actions :=
    Run.stepsMeet_of_forall step (fun _ _ => trivial) _ _
  have hside : ∀ (s : WindowHistory) (action : Action), True → BoundsKept s → True →
      LoadFits s action → True := fun _ _ _ _ _ _ => trivial
  exact Run.always_iff_stepsMeet step hside
    (fun s action _ hs _ => boundsKept_step_iff hs action) trivial hstart hany

/-- A module whose minimum is configured to three starts with two workers, and an idle tick leaves
    it at two. -/
theorem not_always_boundsKept_idle :
    ¬ Run.Always step BoundsKept (construct 0)
      [.reload { workerNumberMin := 3 }, .init, .active, .tick (seconds 100) (seconds 100)] := by
  intro halways
  have hbounds := (halways.last step).bounded (by decide +kernel) (by decide +kernel)
  exact absurd hbounds.1 (by decide +kernel)

end WindowHistory

end LibAtapp.WorkerPool
