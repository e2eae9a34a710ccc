import LibAtapp.Modules.ScalingRuns

set_option autoImplicit false

/-! # When scaling settles

For every load there is a run of the pool in which it is measured at all ticks: one worker that is
busy for the same part of all time and always has the same jobs in its queue. With the ticks at
times at which the governor never comes to rest, the expected count alternates, unless the load is
steady. -/

namespace LibAtapp.WorkerPool

open Hysteresis

/-! ## A pool with one busy worker -/

/-- `std::chrono::milliseconds` as a duration of the system clock. -/
def milliseconds (n : Int) : Int := n * 1000000

/-- A worker that has been busy for `busy` microseconds, and one that is idle. -/
def crew (load : Load) (busy up down : Int) : List Worker :=
  [{ workerId := 1, status := .kRunning, createdTime := 0, privateJobs := load.queueSize,
      cpuTimeBusyUs := busy, cpuTimeCollectScalingUpUs := up, cpuTimeCollectScalingDownUs := down },
    { workerId := 2, createdTime := 0 }]

/-- What the thread of the busy worker shows after `ms` milliseconds. -/
def busyProgress (load : Load) (ms : Int) : ThreadProgress :=
  { status := .kRunning, privateJobs := load.queueSize, cpuTimeBusyUs := load.permillage * ms }

/-- The pool has the busy worker of a load after `ms` milliseconds, with the windows begun after
    `up` and `down` milliseconds. -/
structure Busy (load : Load) (ms up down : Int) (m : WorkerPoolModule) : Prop where
  workers : m.workerSet.workers =
    crew load (load.permillage * ms) (load.permillage * up) (load.permillage * down)
  removedUp : m.workerSet.cpuTimeCollectScalingUpForRemovedWorkers = 0
  removedDown : m.workerSet.cpuTimeCollectScalingDownForRemovedWorkers = 0
  sharedJobs : m.workerSet.sharedJobs = 0
  lastUp : m.scalingStatistics.lastScalingUpCheckpoint = milliseconds up
  lastDown : m.scalingStatistics.lastScalingDownCheckpoint = milliseconds down

namespace Busy

variable {load : Load} {ms up down : Int} {m : WorkerPoolModule}

/-- The part of a time that is a number of thousandths, in thousandths. -/
theorem tdiv_thousandths (permillage : Nat) {elapsed : Int} (h : 0 < elapsed) :
    (microseconds (permillage * elapsed) * 1000).tdiv (milliseconds elapsed) = permillage := by
  have heq : microseconds (permillage * elapsed) * 1000 = permillage * milliseconds elapsed := by
    unfold microseconds milliseconds
    ring
  rw [heq]
  refine Int.mul_tdiv_cancel _ (ne_of_gt ?_)
  unfold milliseconds
  omega

/-- What a worker was busy since a collection. -/
theorem collected (permillage : Nat) {last : Int} (h : last ≤ ms) :
    (if (permillage : Int) * ms > permillage * last then
      microseconds (permillage * ms - permillage * last) else 0)
      = microseconds (permillage * (ms - last)) := by
  have hle : (permillage : Int) * last ≤ permillage * ms :=
    mul_le_mul_of_nonneg_left h (Int.natCast_nonneg _)
  split_ifs with hlt
  · rw [mul_sub]
  · have heq : (permillage : Int) * ms = permillage * last := by omega
    rw [mul_sub, heq, sub_self]
    rfl

theorem scalingUpCpuTime (h : Busy load ms up down m) (hup : up ≤ ms) :
    m.scalingUpCpuTime = microseconds (load.permillage * (ms - up)) := by
  rw [WorkerPoolModule.scalingUpCpuTime, h.workers, h.removedUp, ← collected load.permillage hup]
  simp [crew, Worker.scalingUpCpuTime]

theorem scalingDownCpuTime (h : Busy load ms up down m) (hdown : down ≤ ms) :
    m.scalingDownCpuTime = microseconds (load.permillage * (ms - down)) := by
  rw [WorkerPoolModule.scalingDownCpuTime, h.workers, h.removedDown,
    ← collected load.permillage hdown]
  simp [crew, Worker.scalingDownCpuTime]

/-- **The load is measured** whenever a window has elapsed. -/
theorem measures (h : Busy load ms up down m) (hup : up ≤ ms) (hdown : down ≤ ms) :
    m.Measures (milliseconds ms) load where
  queueSize _ := by simp [WorkerPoolModule.queueSize, h.workers, crew]
  scalingUp hdue := by
    have hlt : up < ms := by
      unfold WorkerPoolModule.scalingUpDue at hdue
      simp only [h.lastUp, Bool.and_eq_true, decide_eq_true_eq, milliseconds] at hdue
      omega
    have hoffset : milliseconds ms - milliseconds up = milliseconds (ms - up) := by
      unfold milliseconds
      ring
    rw [h.scalingUpCpuTime hup, h.lastUp, hoffset]
    exact tdiv_thousandths _ (by omega)
  scalingDown hdue := by
    have hlt : down < ms := by
      unfold WorkerPoolModule.scalingDownDue at hdue
      simp only [h.lastDown, Bool.and_eq_true, decide_eq_true_eq, milliseconds] at hdue
      omega
    have hoffset : milliseconds ms - milliseconds down = milliseconds (ms - down) := by
      unfold milliseconds
      ring
    rw [h.scalingDownCpuTime hdown, h.lastDown, hoffset]
    exact tdiv_thousandths _ (by omega)

theorem milliseconds_le {a b : Int} : milliseconds a ≤ milliseconds b ↔ a ≤ b := by
  unfold milliseconds
  omega

/-- Measuring for scaling up begins its window anew with what the worker has been busy. -/
theorem scaleUp (h : Busy load ms up down m) (hup : up ≤ ms) (count : Nat) :
    ∃ up' ≤ ms, Busy load ms up' down (m.scaleUp (milliseconds ms) count).2 := by
  have hback : ¬ milliseconds ms < m.scalingStatistics.lastScalingUpCheckpoint := by
    rw [h.lastUp, not_lt]
    exact milliseconds_le.2 hup
  unfold WorkerPoolModule.scaleUp
  dsimp only
  rw [if_neg hback]
  split_ifs with hwindow hnone
  · exact ⟨up, hup, h⟩
  · -- no time has passed
    have heq : up = ms := by
      rw [h.lastUp] at hnone
      unfold milliseconds at hnone
      omega
    subst heq
    exact ⟨up, le_rfl, h.workers, h.removedUp, h.removedDown, h.sharedJobs, rfl, h.lastDown⟩
  all_goals
    refine ⟨ms, le_rfl, ?_, rfl, h.removedDown, h.sharedJobs, rfl, h.lastDown⟩
    show m.workerSet.workers.map Worker.collectScalingUp = _
    rw [h.workers]
    rfl

theorem scaleDown (h : Busy load ms up down m) (hdown : down ≤ ms) (count : Nat) :
    ∃ down' ≤ ms, Busy load ms up down' (m.scaleDown (milliseconds ms) count).2 := by
  have hback : ¬ milliseconds ms < m.scalingStatistics.lastScalingDownCheckpoint := by
    rw [h.lastDown, not_lt]
    exact milliseconds_le.2 hdown
  unfold WorkerPoolModule.scaleDown
  dsimp only
  rw [if_neg hback]
  split_ifs with hwindow hnone
  · exact ⟨down, hdown, h⟩
  · have heq : down = ms := by
      rw [h.lastDown] at hnone
      unfold milliseconds at hnone
      omega
    subst heq
    exact ⟨down, le_rfl, h.workers, h.removedUp, h.removedDown, h.sharedJobs, h.lastUp, rfl⟩
  all_goals
    refine ⟨ms, le_rfl, ?_, h.removedUp, rfl, h.sharedJobs, h.lastUp, rfl⟩
    show m.workerSet.workers.map Worker.collectScalingDown = _
    rw [h.workers]
    rfl

theorem not_isExited_crew (load : Load) (busy up down : Int) :
    ∀ w ∈ crew load busy up down, w.isExited 0 = false := by
  intro w hw
  simp only [crew, List.mem_cons, List.not_mem_nil, or_false] at hw
  rcases hw with rfl | rfl
  · rfl
  · rfl

theorem reduceLoop_eq (s : WorkerSet) (expectWorkers : Nat) {reversed : List Worker}
    (h : ∀ w ∈ reversed, w.isExited 0 = false) :
    WorkerSet.reduceLoop 0 expectWorkers reversed s = { s with workers := reversed.reverse } := by
  cases reversed with
  | nil => rfl
  | cons last front =>
      rw [WorkerSet.reduceLoop, if_neg]
      rw [h last List.mem_cons_self]
      exact fun hexited => Bool.false_ne_true hexited.2

/-- With nobody to remove and no job to move the workers are left alone. -/
theorem maintain (h : Busy load ms up down m) (now : Int) :
    Busy load ms up down (m.maintain now 0) := by
  have hlive : ∀ w ∈ m.workerSet.workers, w.isExited 0 = false := by
    rw [h.workers]
    exact not_isExited_crew _ _ _ _
  have hfix : m.workerSet.internalAutofixWorkers 0 = m.workerSet := by
    have hnone : m.workerSet.needAutofix 0 = false := by
      rw [WorkerSet.needAutofix, List.any_eq_false]
      intro w hw
      rw [hlive w (List.mem_of_mem_take hw)]
      exact Bool.false_ne_true
    rw [WorkerSet.internalAutofixWorkers, hnone]
    rfl
  have hreduce : m.workerSet.internalReduceWorkers 0 = m.workerSet := by
    rw [WorkerSet.internalReduceWorkers,
      reduceLoop_eq m.workerSet _ fun w hw => hlive w (List.mem_reverse.1 hw), List.reverse_reverse]
  have hshared : m.workerSet.rebalanceJobs 0 = m.workerSet := if_pos h.sharedJobs
  unfold WorkerPoolModule.maintain
  rw [hfix, hreduce, hshared]
  split_ifs
  · exact ⟨h.workers, h.removedUp, h.removedDown, h.sharedJobs, h.lastUp, h.lastDown⟩
  · exact h

/-- **A tick** keeps the worker busy. -/
theorem tick (h : Busy load ms up down m) (hup : up ≤ ms) (hdown : down ≤ ms) :
    ∃ up' ≤ ms, ∃ down' ≤ ms, Busy load ms up' down' (m.tick (milliseconds ms) 0) := by
  obtain ⟨up', hup', hraised⟩ := h.scaleUp hup m.startCount
  obtain ⟨down', hdown', hlowered⟩ := hraised.scaleDown hdown
    (m.scaleUp (milliseconds ms) m.startCount).1
  have hscaled : Busy load ms up' down' (m.scale (milliseconds ms)) :=
    ⟨hlowered.workers, hlowered.removedUp, hlowered.removedDown, hlowered.sharedJobs,
      hlowered.lastUp, hlowered.lastDown⟩
  exact ⟨up', hup', down', hdown', hscaled.maintain _⟩

/-- The worker goes on. -/
theorem thread (h : Busy load ms up down m) (later : Int) :
    Busy load later up down (m.step (.thread 0 (busyProgress load later))) := by
  refine ⟨?_, h.removedUp, h.removedDown, rfl, h.lastUp, h.lastDown⟩
  show m.workerSet.workers.modify 0 _ = _
  rw [h.workers]
  rfl

end Busy

/-! ## The run of the busy worker -/

/-- What happens before a tick after `ms` milliseconds: before the first one the workers are
    created. -/
def busyBetween (load : Load) (ms : Nat → Int) : Nat → List Action
  | 0 => [.addTickCallback 0 0, .thread 0 (busyProgress load (ms 0))]
  | n + 1 => [.thread 0 (busyProgress load (ms (n + 1)))]

/-- The run with ticks after these milliseconds. -/
def busyRun (load : Load) (ms : Nat → Int) : TickedRun where
  constructedAt := 0
  now n := milliseconds (ms n)
  sysNow _ := 0
  between := busyBetween load ms
  betweenTicks n action haction := by
    cases n with
    | zero =>
        simp only [busyBetween, List.mem_cons, List.not_mem_nil, or_false] at haction
        rcases haction with rfl | rfl
        · trivial
        · trivial
    | succ n =>
        simp only [busyBetween, List.mem_cons, List.not_mem_nil, or_false] at haction
        subst haction
        trivial

section BusyRun

variable (cfg : PoolConfigure) (load : Load) {ms : Nat → Int}

theorem busy_pool_zero (ms : Nat → Int) :
    Busy load (ms 0) 0 0 ((busyRun load ms).pool cfg 0) := by
  let s := ((WorkerPoolModule.construct 0).reload cfg).init
  have hcreated : (s.step (.addTickCallback 0 0)).workerSet.workers =
      [{ workerId := 1, createdTime := 0 }, { workerId := 2, createdTime := 0 }] := rfl
  have hworkers : ((busyRun load ms).pool cfg 0).workerSet.workers =
      (s.step (.addTickCallback 0 0)).workerSet.workers.modify 0
        (·.run (busyProgress load (ms 0))) := rfl
  refine ⟨?_, rfl, rfl, rfl, rfl, rfl⟩
  rw [hworkers, hcreated, mul_zero, crew]
  rfl

/-- **In every run of the busy worker** the worker is busy before every tick. -/
theorem busy_pool (hmono : Monotone ms) (hpos : 0 ≤ ms 0) (n : Nat) :
    ∃ up ≤ ms n, ∃ down ≤ ms n, Busy load (ms n) up down ((busyRun load ms).pool cfg n) := by
  induction n with
  | zero => exact ⟨0, hpos, 0, hpos, busy_pool_zero cfg load ms⟩
  | succ n ih =>
      obtain ⟨up, hup, down, hdown, hbusy⟩ := ih
      obtain ⟨up', hup', down', hdown', hticked⟩ := hbusy.tick hup hdown
      have hle := hmono (Nat.le_succ n)
      exact ⟨up', hup'.trans hle, down', hdown'.trans hle, hticked.thread (ms (n + 1))⟩

theorem constantLoad_busyRun (hmono : Monotone ms) (hpos : 0 ≤ ms 0)
    (hadvancing : Advancing fun n => milliseconds (ms n)) :
    (busyRun load ms).ConstantLoad cfg load where
  advancing := hadvancing
  measures n := by
    obtain ⟨up, hup, down, hdown, hbusy⟩ := busy_pool cfg load hmono hpos n
    exact hbusy.measures hup hdown

end BusyRun

/-! ## Settling -/

section Settling

open WorkerPoolModule

variable (cfg : PoolConfigure) (load : Load)

/-- Half a second is shorter than every window, and windows that differ do so by more. -/
theorem grain_governor : (governor cfg load).Grain (milliseconds 500) := by
  have hup : 0 < seconds _ := (governor cfg load).upWindow_pos
  have hdown : 0 < seconds _ := (governor cfg load).downWindow_pos
  unfold seconds at hup hdown
  refine ⟨by decide, ?_, ?_, fun hlt => ?_⟩
  · show milliseconds 500 < seconds _
    unfold milliseconds seconds
    omega
  · show milliseconds 500 < seconds _
    unfold milliseconds seconds
    omega
  · have hlt' : seconds _ < seconds _ := hlt
    show seconds _ + milliseconds 500 ≤ seconds _
    unfold seconds at hlt' ⊢
    unfold milliseconds
    omega

/-- The times at which the governor never comes to rest, in milliseconds. -/
def restlessMilliseconds (n : Nat) : Int :=
  (governor cfg load).restless (milliseconds 500) n / 1000000

theorem milliseconds_restless (n : Nat) : milliseconds (restlessMilliseconds cfg load n) =
    (governor cfg load).restless (milliseconds 500) n := by
  have hseconds : ∀ k, (1000000 : Int) ∣ seconds k := fun k => ⟨k * 1000, by unfold seconds; ring⟩
  exact Int.ediv_mul_cancel (Governor.dvd_restless (hseconds _) (hseconds _) (by decide) n)

/-- **An unsteady load** keeps some run from settling. -/
theorem exists_not_settles (h : ¬ (reloadScalingConfigure cfg).Steady load) :
    ∃ r : TickedRun, r.ConstantLoad cfg load ∧ ¬ Settles (r.counts cfg) := by
  obtain ⟨hmarks, hwindows⟩ := not_or.1 h
  have hgrain := grain_governor cfg load
  have hadvancing := Governor.advancing_restless hgrain
  have hnow : (fun n => milliseconds (restlessMilliseconds cfg load n)) =
      (governor cfg load).restless (milliseconds 500) := by
    funext n
    exact milliseconds_restless cfg load n
  have hmono : Monotone (restlessMilliseconds cfg load) := by
    intro a b hab
    exact Int.ediv_le_ediv (by decide) (hadvancing.mono hab)
  have hpos : 0 ≤ restlessMilliseconds cfg load 0 := by
    refine Int.ediv_nonneg ?_ (by decide)
    have hfirst := Governor.restless_first (governor cfg load) (milliseconds 500) 0
    rw [Nat.mul_zero] at hfirst
    have hup := (governor cfg load).upWindow_pos
    have hdown := (governor cfg load).downWindow_pos
    rw [hfirst, Governor.round]
    push_cast
    linarith
  have hload : (busyRun load (restlessMilliseconds cfg load)).ConstantLoad cfg load :=
    constantLoad_busyRun cfg load hmono hpos (hnow ▸ hadvancing)
  refine ⟨_, hload, ?_⟩
  rw [TickedRun.counts_eq hload.measures]
  have htimes : (busyRun load (restlessMilliseconds cfg load)).now =
      (governor cfg load).restless (milliseconds 500) := hnow
  rw [htimes]
  exact Governor.not_settles_restless hgrain (not_le.1 hmarks)
    (fun heq => hwindows (TickedRun.seconds_injective.1 heq)) le_rfl le_rfl

/-- **Scaling settles** under a constant load, at whatever times the ticks are, exactly if the load
    is steady for the configuration. -/
theorem scaling_settles_iff :
    (∀ r : TickedRun, r.ConstantLoad cfg load → Settles (r.counts cfg)) ↔
      (reloadScalingConfigure cfg).Steady load := by
  constructor
  · intro h
    by_contra hnot
    obtain ⟨r, hload, hrestless⟩ := exists_not_settles cfg load hnot
    exact hrestless (h r hload)
  · exact fun hsteady r hload => hload.settles hsteady

end Settling

/-- The default configuration with a longer window for scaling down. -/
def slowDown : PoolConfigure := { scalingDownStabilizationWindow := { seconds := 20 } }

/-- A worker that is busy all the time raises the count to three and lowers it to two. -/
theorem not_scaling_settles_slowDown :
    ¬ ∀ (cfg : PoolConfigure) (load : Load) (r : TickedRun),
      r.ConstantLoad cfg load → Settles (r.counts cfg) := by
  intro h
  obtain ⟨r, hload, hrestless⟩ := exists_not_settles slowDown ⟨1000, 0⟩ (by decide +kernel)
  exact hrestless (h slowDown ⟨1000, 0⟩ r hload)

end LibAtapp.WorkerPool
