import LibAtapp.Library.Hysteresis
import LibAtapp.Modules.WorkerBounds

set_option autoImplicit false

/-! # Scaling under a constant load

Under a load that is measured the same in every window, `tick` is a governor of the expected count:
when the window of scaling up has elapsed it raises the count to a mark, and when that of scaling
down has elapsed it lowers it to another one. The two marks come of the same load by different
limits and roundings, and nothing keeps the first one from being above the second one. -/

namespace LibAtapp.WorkerPool

open Hysteresis

/-! ## Loads -/

/-- A load: the CPU time per time in thousandths, and the jobs that wait in the queues. -/
structure Load where
  permillage : Nat
  queueSize : Nat
deriving DecidableEq, Repr

namespace ScalingConfigure

variable (c : ScalingConfigure) (load : Load)

/-- The count that a load raises the expected count to. -/
def raisesTo : Nat :=
  let byCpu := (toUint32 ((load.permillage : Int).tdiv c.scalingUpCpuPermillage) + 1) % 2 ^ 32
  let byQueue := (load.queueSize / c.scalingUpQueueSize + 1) % 2 ^ 32
  min (if c.scalingUpQueueSize > 0 ∧ byQueue > byCpu then byQueue else byCpu) c.maxWorkers

/-- The count that a load lowers the expected count to. -/
def lowersTo : Nat :=
  let byCpu := toUint32 ((load.permillage : Int).tdiv c.scalingDownCpuPermillage)
  let byQueue := load.queueSize / c.scalingDownQueueSize % 2 ^ 32
  max (if c.scalingDownQueueSize > 0 ∧ byQueue > byCpu then byQueue else byCpu) c.minWorkers

/-- The load raises the count no further than it lowers it, or both are always measured at the same
    ticks. -/
def Steady : Prop :=
  c.raisesTo load ≤ c.lowersTo load ∨
    c.scalingUpStableWindowSeconds = c.scalingDownStableWindowSeconds

instance : Decidable (c.Steady load) := inferInstanceAs (Decidable (_ ∨ _))

end ScalingConfigure

/-- What `tick` measures at this time is the load, in every window that has elapsed. -/
structure WorkerPoolModule.Measures (m : WorkerPoolModule) (now : Int) (load : Load) : Prop where
  queueSize : m.scalingUpDue now ∨ m.scalingDownDue now → m.queueSize = load.queueSize
  scalingUp : m.scalingUpDue now → (m.scalingUpCpuTime * 1000).tdiv
    (now - m.scalingStatistics.lastScalingUpCheckpoint) = load.permillage
  scalingDown : m.scalingDownDue now → (m.scalingDownCpuTime * 1000).tdiv
    (now - m.scalingStatistics.lastScalingDownCheckpoint) = load.permillage

/-! ## Runs of ticks -/

/-- What can happen between two ticks of a module whose configuration stays as it is. -/
def Action.BetweenTicks : Action → Prop
  | .init | .reload _ | .tick _ _ => False
  | .active | .spawn _ | .spawnTo _ _ | .addTickCallback _ _ | .thread _ _ => True

/-- The times of the ticks, and what happens before each of them. -/
structure TickedRun where
  constructedAt : Int
  now : Nat → Int
  sysNow : Nat → Int
  between : Nat → List Action
  betweenTicks : ∀ n, ∀ action ∈ between n, action.BetweenTicks

namespace TickedRun

variable (r : TickedRun) (cfg : PoolConfigure)

/-- The module before a tick. -/
def pool : Nat → WorkerPoolModule
  | 0 => Run.run WorkerPoolModule.step
    ((WorkerPoolModule.construct r.constructedAt).reload cfg).init (r.between 0)
  | n + 1 =>
    Run.run WorkerPoolModule.step ((pool n).tick (r.now n) (r.sysNow n)) (r.between (n + 1))

/-- `current_expect_workers` before a tick. -/
def counts (n : Nat) : Nat := (r.pool cfg n).workerSet.currentExpectWorkers

/-- The ticks advance without bound, and the same load is measured at all of them. -/
structure ConstantLoad (load : Load) : Prop where
  advancing : Advancing r.now
  measures : ∀ n, (r.pool cfg n).Measures (r.now n) load

end TickedRun

/-! ## A tick is a look of the governor -/

namespace WorkerPoolModule

variable (m : WorkerPoolModule) (now sysNow : Int)

/-- What the governor sees of a module. -/
def governed : State Nat :=
  { level := m.workerSet.currentExpectWorkers
    lastUp := m.scalingStatistics.lastScalingUpCheckpoint
    lastDown := m.scalingStatistics.lastScalingDownCheckpoint }

theorem positiveOr_pos (n : Int) {fallback : Int} (h : 0 < fallback) :
    0 < positiveOr n fallback := by
  unfold positiveOr
  split_ifs <;> omega

/-- The governor of a configuration under a load. -/
def governor (cfg : PoolConfigure) (load : Load) : Governor Nat where
  up := (reloadScalingConfigure cfg).raisesTo load
  down := (reloadScalingConfigure cfg).lowersTo load
  upWindow := seconds (reloadScalingConfigure cfg).scalingUpStableWindowSeconds
  downWindow := seconds (reloadScalingConfigure cfg).scalingDownStableWindowSeconds
  upWindow_pos := by
    have h := positiveOr_pos (toInt32 cfg.scalingUpStabilizationWindow.seconds)
      (show (0 : Int) < 10 by decide)
    show 0 < positiveOr _ 10 * 1000000000
    omega
  downWindow_pos := by
    have h := positiveOr_pos (toInt32 cfg.scalingDownStabilizationWindow.seconds)
      (show (0 : Int) < 10 by decide)
    show 0 < positiveOr _ 10 * 1000000000
    omega

theorem scaleUp_statistics (count : Nat)
    (hwindow : 0 < seconds m.scalingConfigure.scalingUpStableWindowSeconds) :
    (m.scaleUp now count).2.scalingStatistics = { m.scalingStatistics with
      lastScalingUpCheckpoint := checkpoint
        (seconds m.scalingConfigure.scalingUpStableWindowSeconds)
        m.scalingStatistics.lastScalingUpCheckpoint now } := by
  unfold scaleUp
  dsimp only
  by_cases hback : now < m.scalingStatistics.lastScalingUpCheckpoint
  · rw [if_pos hback, checkpoint, if_pos hback]
    rfl
  · by_cases helapsed : Elapsed (seconds m.scalingConfigure.scalingUpStableWindowSeconds)
        m.scalingStatistics.lastScalingUpCheckpoint now
    · have hlater : ¬ now - m.scalingStatistics.lastScalingUpCheckpoint ≤ 0 := by
        unfold Elapsed at helapsed
        omega
      rw [if_neg hback, if_neg (not_lt.2 helapsed), if_neg hlater, checkpoint_of_elapsed helapsed]
      rfl
    · rw [if_neg hback, if_pos (not_le.1 helapsed), checkpoint, if_neg hback, if_neg helapsed]

theorem scaleDown_statistics (count : Nat)
    (hwindow : 0 < seconds m.scalingConfigure.scalingDownStableWindowSeconds) :
    (m.scaleDown now count).2.scalingStatistics = { m.scalingStatistics with
      lastScalingDownCheckpoint := checkpoint
        (seconds m.scalingConfigure.scalingDownStableWindowSeconds)
        m.scalingStatistics.lastScalingDownCheckpoint now } := by
  unfold scaleDown
  dsimp only
  by_cases hback : now < m.scalingStatistics.lastScalingDownCheckpoint
  · rw [if_pos hback, checkpoint, if_pos hback]
    rfl
  · by_cases helapsed : Elapsed (seconds m.scalingConfigure.scalingDownStableWindowSeconds)
        m.scalingStatistics.lastScalingDownCheckpoint now
    · have hlater : ¬ now - m.scalingStatistics.lastScalingDownCheckpoint ≤ 0 := by
        unfold Elapsed at helapsed
        omega
      rw [if_neg hback, if_neg (not_lt.2 helapsed), if_neg hlater, checkpoint_of_elapsed helapsed]
      rfl
    · rw [if_neg hback, if_pos (not_le.1 helapsed), checkpoint, if_neg hback, if_neg helapsed]

variable {m now} {cfg : PoolConfigure} {load : Load}

theorem scalingUpDue_iff (hconf : m.scalingConfigure = reloadScalingConfigure cfg) :
    m.scalingUpDue now ↔ Elapsed (governor cfg load).upWindow m.governed.lastUp now := by
  have hwindow := (governor cfg load).upWindow_pos
  unfold scalingUpDue Elapsed
  simp only [Bool.and_eq_true, decide_eq_true_eq, hconf]
  show _ ∧ _ + (governor cfg load).upWindow ≤ now ↔
    m.scalingStatistics.lastScalingUpCheckpoint + _ ≤ _
  omega

theorem scalingDownDue_iff (hconf : m.scalingConfigure = reloadScalingConfigure cfg) :
    m.scalingDownDue now ↔ Elapsed (governor cfg load).downWindow m.governed.lastDown now := by
  have hwindow := (governor cfg load).downWindow_pos
  unfold scalingDownDue Elapsed
  simp only [Bool.and_eq_true, decide_eq_true_eq, hconf]
  show _ ∧ _ + (governor cfg load).downWindow ≤ now ↔
    m.scalingStatistics.lastScalingDownCheckpoint + _ ≤ _
  omega

/-- The load is what the marks are made of. -/
theorem Measures.min_upLoad (h : m.Measures now load) (hdue : m.scalingUpDue now) :
    min (m.upLoad now) m.scalingConfigure.maxWorkers = m.scalingConfigure.raisesTo load := by
  simp only [upLoad, scalingUpTargetCount, h.scalingUp hdue, h.queueSize (Or.inl hdue)]
  rfl

theorem Measures.max_downLoad (h : m.Measures now load) (hdue : m.scalingDownDue now) :
    max (m.downLoad now) m.scalingConfigure.minWorkers = m.scalingConfigure.lowersTo load := by
  simp only [downLoad, scalingDownTargetCount, h.scalingDown hdue, h.queueSize (Or.inr hdue)]
  rfl

/-- What a tick leaves in the clocks of the windows. -/
theorem tick_checkpoints (load : Load) (hconf : m.scalingConfigure = reloadScalingConfigure cfg)
    (now sysNow : Int) :
    (m.tick now sysNow).governed.lastUp =
        checkpoint (governor cfg load).upWindow m.governed.lastUp now ∧
      (m.tick now sysNow).governed.lastDown =
        checkpoint (governor cfg load).downWindow m.governed.lastDown now := by
  have hup := m.scaleUp_statistics now m.startCount
    (by rw [hconf]; exact (governor cfg load).upWindow_pos)
  have hconf' := (m.scalingDown_scaleUp now m.startCount).2.2
  have hdown := (m.scaleUp now m.startCount).2.scaleDown_statistics now
    (m.scaleUp now m.startCount).1 (by rw [hconf', hconf]; exact (governor cfg load).downWindow_pos)
  have hmaintain : ∀ m' : WorkerPoolModule, (m'.maintain now sysNow).governed.lastUp =
      m'.governed.lastUp ∧ (m'.maintain now sysNow).governed.lastDown = m'.governed.lastDown := by
    intro m'
    unfold maintain
    split_ifs <;> exact ⟨rfl, rfl⟩
  have hscale : (m.scale now).scalingStatistics = ((m.scaleUp now m.startCount).2.scaleDown now
      (m.scaleUp now m.startCount).1).2.scalingStatistics := rfl
  rw [hdown, hup, hconf', hconf] at hscale
  have htick := hmaintain (m.scale now)
  constructor
  · refine htick.1.trans ?_
    rw [governed, hscale]
    rfl
  · refine htick.2.trans ?_
    rw [governed, hscale]
    rfl

/-- **A tick** is a look of the governor. -/
theorem governed_tick (hconf : m.scalingConfigure = reloadScalingConfigure cfg)
    (hcount : 0 < m.workerSet.currentExpectWorkers) (h : m.Measures now load) (sysNow : Int) :
    (m.tick now sysNow).governed = (governor cfg load).step m.governed now := by
  obtain ⟨hup, hdown⟩ := tick_checkpoints load hconf now sysNow
  have hlevel : (m.tick now sysNow).workerSet.currentExpectWorkers =
      ((governor cfg load).step m.governed now).level := by
    refine ((m.scale now).sameTarget_maintain now sysNow).count.trans ?_
    rw [m.scale_currentExpectWorkers now, startCount, if_neg (Nat.not_le.2 hcount)]
    dsimp only
    unfold Governor.step
    dsimp only
    by_cases hdueUp : m.scalingUpDue now
    · rw [if_pos hdueUp, if_pos ((scalingUpDue_iff hconf).1 hdueUp), h.min_upLoad hdueUp]
      by_cases hdueDown : m.scalingDownDue now
      · rw [if_pos hdueDown, if_pos ((scalingDownDue_iff hconf).1 hdueDown),
          h.max_downLoad hdueDown, hconf]
        rfl
      · rw [if_neg hdueDown, if_neg (fun hd => hdueDown ((scalingDownDue_iff hconf).2 hd)), hconf]
        rfl
    · rw [if_neg hdueUp, if_neg (fun hd => hdueUp ((scalingUpDue_iff hconf).2 hd))]
      by_cases hdueDown : m.scalingDownDue now
      · rw [if_pos hdueDown, if_pos ((scalingDownDue_iff hconf).1 hdueDown),
          h.max_downLoad hdueDown, hconf]
        rfl
      · rw [if_neg hdueDown, if_neg (fun hd => hdueDown ((scalingDownDue_iff hconf).2 hd))]
        rfl
  exact State.ext hlevel hup hdown

theorem tick_scalingConfigure (m : WorkerPoolModule) (now sysNow : Int) :
    (m.tick now sysNow).scalingConfigure = m.scalingConfigure :=
  ((m.scale now).maintain_scalingConfigure now sysNow).trans (m.scale_scalingConfigure now)

/-! ## Between ticks -/

/-- What happens between ticks changes nothing that the governor sees. -/
theorem governed_step {action : Action} (h : action.BetweenTicks) (m : WorkerPoolModule) :
    (m.step action).governed = m.governed ∧
      (m.step action).scalingConfigure = m.scalingConfigure := by
  cases action with
  | init => exact h.elim
  | reload cfg => exact h.elim
  | tick now sysNow => exact h.elim
  | active => exact ⟨rfl, rfl⟩
  | spawn sysNow =>
      refine ⟨?_, rfl⟩
      have hcount := (WorkerSet.sameTarget_spawn (s := m.workerSet) sysNow
        m.scalingConfigure.queueSizeLimit).count
      exact congrArg (fun count => State.mk count _ _) hcount
  | spawnTo workerId sysNow =>
      refine ⟨?_, rfl⟩
      have hcount := (WorkerSet.sameTarget_spawnTo (s := m.workerSet) sysNow
        m.scalingConfigure.queueSizeLimit workerId).count
      exact congrArg (fun count => State.mk count _ _) hcount
  | addTickCallback workerId sysNow =>
      refine ⟨?_, rfl⟩
      have hcount := (WorkerSet.sameTarget_doScalingUp (s := m.workerSet) sysNow).count
      exact congrArg (fun count => State.mk count _ _) hcount
  | thread i progress => exact ⟨rfl, rfl⟩

theorem governed_run {actions : List Action} (h : ∀ action ∈ actions, action.BetweenTicks)
    (m : WorkerPoolModule) : (Run.run step m actions).governed = m.governed ∧
      (Run.run step m actions).scalingConfigure = m.scalingConfigure := by
  induction actions generalizing m with
  | nil => exact ⟨rfl, rfl⟩
  | cons action actions ih =>
      obtain ⟨hgoverned, hconf⟩ := governed_step (h action List.mem_cons_self) m
      obtain ⟨hgoverned', hconf'⟩ :=
        ih (fun a ha => h a (List.mem_cons_of_mem action ha)) (m.step action)
      exact ⟨hgoverned'.trans hgoverned, hconf'.trans hconf⟩

end WorkerPoolModule

/-! ## Whole runs -/

namespace TickedRun

open WorkerPoolModule

variable {r : TickedRun} {cfg : PoolConfigure} {load : Load}

theorem pool_zero (r : TickedRun) (cfg : PoolConfigure) :
    (r.pool cfg 0).governed = ⟨2, 0, 0⟩ ∧
      (r.pool cfg 0).scalingConfigure = reloadScalingConfigure cfg := by
  obtain ⟨hgoverned, hconf⟩ := governed_run (r.betweenTicks 0)
    ((WorkerPoolModule.construct r.constructedAt).reload cfg).init
  exact ⟨hgoverned, hconf⟩

theorem pool_scalingConfigure (r : TickedRun) (cfg : PoolConfigure) (n : Nat) :
    (r.pool cfg n).scalingConfigure = reloadScalingConfigure cfg := by
  induction n with
  | zero => exact (r.pool_zero cfg).2
  | succ n ih =>
      have hquiet := (governed_run (r.betweenTicks (n + 1))
        ((r.pool cfg n).tick (r.now n) (r.sysNow n))).2
      exact hquiet.trans (((r.pool cfg n).tick_scalingConfigure _ _).trans ih)

/-- A look of the governor leaves a positive count. -/
theorem level_step_pos (cfg : PoolConfigure) (load : Load) {s : State Nat} (h : 0 < s.level)
    (now : Int) : 0 < ((governor cfg load).step s now).level := by
  have hmin : 1 ≤ (reloadScalingConfigure cfg).minWorkers := (reloadBounds_ordered cfg).1
  have hdown : 0 < (governor cfg load).down := lt_of_lt_of_le hmin (Nat.le_max_right _ _)
  unfold Governor.step
  dsimp only
  split_ifs
  · exact lt_min (lt_of_lt_of_le h (Nat.le_max_left _ _)) hdown
  · exact lt_min h hdown
  · exact lt_of_lt_of_le h (Nat.le_max_left _ _)
  · exact h

/-- **A run** under a constant load is a run of the governor. -/
theorem governed_pool (hmeasures : ∀ n, (r.pool cfg n).Measures (r.now n) load) (n : Nat) :
    (r.pool cfg n).governed = (governor cfg load).states ⟨2, 0, 0⟩ r.now n ∧
      0 < (r.pool cfg n).workerSet.currentExpectWorkers := by
  induction n with
  | zero =>
      have hstart := (r.pool_zero cfg).1
      refine ⟨hstart, ?_⟩
      have hlevel : (r.pool cfg 0).workerSet.currentExpectWorkers = 2 := congrArg State.level hstart
      omega
  | succ n ih =>
      have htick := governed_tick (r.pool_scalingConfigure cfg n) ih.2 (hmeasures n) (r.sysNow n)
      have hquiet := (governed_run (r.betweenTicks (n + 1))
        ((r.pool cfg n).tick (r.now n) (r.sysNow n))).1
      have hnext : (r.pool cfg (n + 1)).governed =
          (governor cfg load).step (r.pool cfg n).governed (r.now n) := hquiet.trans htick
      refine ⟨?_, ?_⟩
      · rw [hnext, ih.1]
        rfl
      · have hpos := level_step_pos cfg load (s := (r.pool cfg n).governed) ih.2 (r.now n)
        rwa [← hnext] at hpos

theorem counts_eq (hmeasures : ∀ n, (r.pool cfg n).Measures (r.now n) load) :
    r.counts cfg = fun n => ((governor cfg load).states ⟨2, 0, 0⟩ r.now n).level := by
  funext n
  exact congrArg State.level (governed_pool hmeasures n).1

/-- Windows of as many seconds are as long. -/
theorem seconds_injective {a b : Int} : seconds a = seconds b ↔ a = b := by
  unfold seconds
  omega

/-- **A steady load** lets the count settle. -/
theorem ConstantLoad.settles (h : r.ConstantLoad cfg load)
    (hsteady : (reloadScalingConfigure cfg).Steady load) : Settles (r.counts cfg) := by
  rw [counts_eq h.measures]
  rcases hsteady with hmarks | hwindows
  · exact Governor.settles_of_le hmarks _ h.advancing
  · exact Governor.settles_of_eq (seconds_injective.2 hwindows) rfl h.advancing

end TickedRun

end LibAtapp.WorkerPool
