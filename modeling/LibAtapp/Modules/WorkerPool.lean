import LibAtapp.Library.Run
import Mathlib.Algebra.Ring.Int.Defs
import Mathlib.Algebra.Ring.Nat

set_option autoImplicit false

/-! # The worker pool: how many workers there are

The part of `worker_pool_module.cpp` that decides how many workers there should be and keeps as
many: the configuration, the scaling in `tick`, and the functions that create and remove workers.
A queue is the number of its jobs here; which job is where is the subject of
`LibAtapp.Modules.WorkerJobs`.

Times of the system clock and its durations are in nanoseconds, the counters of a worker in
microseconds, as in the source. What a worker thread does to its own status, queue and counters
is an action of its own, so that these are arbitrary when the module reads them. -/

namespace LibAtapp.WorkerPool

/-- `std::chrono::seconds` as a duration of the system clock. -/
def seconds (n : Int) : Int := n * 1000000000

/-- `std::chrono::microseconds` as a duration of the system clock. -/
def microseconds (n : Int) : Int := n * 1000

/-- `static_cast<uint32_t>` -/
def toUint32 (n : Int) : Nat := (n % 2 ^ 32).toNat

/-- `static_cast<int32_t>` -/
def toInt32 (n : Int) : Int := Int.bmod n (2 ^ 32)

/-! ## Workers -/

/-- `worker_status` -/
inductive WorkerStatus
  | kCreated
  | kRunning
  | kSleeping
  | kExiting
  | kExited
deriving DecidableEq, Repr

/-- `worker_pool_module::worker`, as far as the other threads read it. -/
structure Worker where
  workerId : Nat
  status : WorkerStatus := .kCreated
  createdTime : Int
  privateJobs : Nat := 0
  cpuTimeBusyUs : Int := 0
  cpuTimeLastSecondBusyUs : Int := 0
  cpuTimeLastMinuteBusyUs : Int := 0
  cpuTimeCollectScalingUpUs : Int := 0
  cpuTimeCollectScalingDownUs : Int := 0
deriving DecidableEq, Repr

namespace Worker

/-- Created for a while and not started. -/
def isLeaked (w : Worker) (sysNow : Int) : Bool :=
  w.status == .kCreated
    && (sysNow - w.createdTime < seconds (-30) || seconds 30 < sysNow - w.createdTime)

/-- `worker::is_exiting` -/
def isExiting (w : Worker) (sysNow : Int) : Bool :=
  w.status == .kExited || w.status == .kExiting || w.isLeaked sysNow

/-- `worker::is_exited` -/
def isExited (w : Worker) (sysNow : Int) : Bool :=
  w.status == .kExited || w.isLeaked sysNow

/-- What `collect_scaling_up_cpu_time` returns. -/
def scalingUpCpuTime (w : Worker) : Int :=
  if w.cpuTimeBusyUs > w.cpuTimeCollectScalingUpUs then
    microseconds (w.cpuTimeBusyUs - w.cpuTimeCollectScalingUpUs)
  else 0

/-- What `collect_scaling_down_cpu_time` returns. -/
def scalingDownCpuTime (w : Worker) : Int :=
  if w.cpuTimeBusyUs > w.cpuTimeCollectScalingDownUs then
    microseconds (w.cpuTimeBusyUs - w.cpuTimeCollectScalingDownUs)
  else 0

/-- The worker after `collect_scaling_up_cpu_time`. -/
def collectScalingUp (w : Worker) : Worker :=
  { w with cpuTimeCollectScalingUpUs := w.cpuTimeBusyUs }

/-- The worker after `collect_scaling_down_cpu_time`. -/
def collectScalingDown (w : Worker) : Worker :=
  { w with cpuTimeCollectScalingDownUs := w.cpuTimeBusyUs }

end Worker

/-- `worker_compare_key`, less the address of the worker: no two workers of the list have one id. -/
structure WorkerCompareKey where
  pendingJobSize : Nat
  cpuTimeLastSecondBusyUs : Int
  cpuTimeLastMinuteBusyUs : Int
  workerId : Nat
deriving DecidableEq, Repr

namespace WorkerCompareKey

/-- `worker_compare_key::max` -/
def max : WorkerCompareKey :=
  { pendingJobSize := 2 ^ 64 - 1, cpuTimeLastSecondBusyUs := 2 ^ 63 - 1,
    cpuTimeLastMinuteBusyUs := 2 ^ 63 - 1, workerId := 2 ^ 32 - 1 }

/-- `operator<` of the keys. -/
def lt (l r : WorkerCompareKey) : Bool :=
  if l.pendingJobSize ≠ r.pendingJobSize then l.pendingJobSize < r.pendingJobSize
  else if (8000 ≤ l.cpuTimeLastSecondBusyUs ∨ 8000 ≤ r.cpuTimeLastSecondBusyUs)
      ∧ l.cpuTimeLastSecondBusyUs ≠ r.cpuTimeLastSecondBusyUs then
    l.cpuTimeLastSecondBusyUs < r.cpuTimeLastSecondBusyUs
  else if l.cpuTimeLastMinuteBusyUs ≠ r.cpuTimeLastMinuteBusyUs then
    l.cpuTimeLastMinuteBusyUs < r.cpuTimeLastMinuteBusyUs
  else l.workerId < r.workerId

end WorkerCompareKey

/-- `worker::make_compare_key` -/
def Worker.makeCompareKey (w : Worker) : WorkerCompareKey :=
  { pendingJobSize := w.privateJobs, cpuTimeLastSecondBusyUs := w.cpuTimeLastSecondBusyUs,
    cpuTimeLastMinuteBusyUs := w.cpuTimeLastMinuteBusyUs, workerId := w.workerId }

/-! ## Configuration -/

/-- `google.protobuf.Duration` -/
structure Duration where
  seconds : Int := 0
  nanos : Int := 0
deriving DecidableEq, Repr

/-- A duration in microseconds, as `reload` computes it. -/
def Duration.toMicroseconds (d : Duration) : Int := d.nanos.tdiv 1000 + d.seconds * 1000000

/-- `atapp_worker_pool` of the configuration, with its `scaling_rules`. -/
structure PoolConfigure where
  queueSize : Nat := 20480
  tickMinInterval : Duration := { nanos := 4000000 }
  tickMaxInterval : Duration := { nanos := 100000000 }
  tickPreserveInterval : Duration := { nanos := 8000000 }
  workerNumberMin : Nat := 2
  workerNumberMax : Nat := 4
  scalingUpStabilizationWindow : Duration := { seconds := 10 }
  scalingUpCpuPermillage : Int := 600
  scalingUpQueueSize : Nat := 16
  scalingDownStabilizationWindow : Duration := { seconds := 10 }
  scalingDownCpuPermillage : Int := 500
  scalingDownQueueSize : Nat := 12
  leakScanInterval : Duration := { seconds := 300 }
deriving DecidableEq, Repr

/-- `scaling_configure` -/
structure ScalingConfigure where
  queueSizeLimit : Nat := 20480
  maxWorkers : Nat := 4
  minWorkers : Nat := 2
  scalingUpCpuPermillage : Int := 600
  scalingUpQueueSize : Nat := 16
  scalingUpStableWindowSeconds : Int := 10
  scalingDownCpuPermillage : Int := 500
  scalingDownQueueSize : Nat := 12
  scalingDownStableWindowSeconds : Int := 10
  leakScanIntervalSeconds : Int := 300
deriving DecidableEq, Repr

/-- `scaling_statistics` -/
structure ScalingStatistics where
  lastScalingUpCheckpoint : Int
  lastScalingDownCheckpoint : Int
  leakScanCheckpoint : Int
deriving DecidableEq, Repr

/-- `worker_set` -/
structure WorkerSet where
  needScalingUp : Bool := false
  closing : Bool := false
  currentExpectWorkers : Nat := 2
  configureTickMinIntervalMicroseconds : Int := 4
  configureTickMaxIntervalMicroseconds : Int := 128
  configureTickPreserveMicrosecondsInSecond : Int := 8000
  workers : List Worker := []
  cpuTimeCollectScalingUpForRemovedWorkers : Int := 0
  cpuTimeCollectScalingDownForRemovedWorkers : Int := 0
  sharedJobs : Nat := 0
deriving DecidableEq, Repr

/-- `worker_pool_module` -/
structure WorkerPoolModule where
  actived : Bool := false
  workerSet : WorkerSet := {}
  scalingConfigure : ScalingConfigure := {}
  scalingStatistics : ScalingStatistics
deriving DecidableEq, Repr

/-! ## Creating and removing workers -/

namespace WorkerSet

/-- The workers that `do_scaling_up` creates. -/
def created (s : WorkerSet) (sysNow : Int) : List Worker :=
  (List.range' s.workers.length (s.currentExpectWorkers - s.workers.length)).map
    fun i => { workerId := i + 1, createdTime := sysNow }

/-- `do_scaling_up` -/
def doScalingUp (s : WorkerSet) (sysNow : Int) : WorkerSet :=
  if s.needScalingUp then
    { s with needScalingUp := false, workers := s.workers ++ s.created sysNow }
  else s

/-- The count that `internal_reduce_workers` and `internal_autofix_workers` work with. -/
def expectWorkers (s : WorkerSet) : Nat := if s.closing then 0 else s.currentExpectWorkers

/-- A worker leaves the list, and what it worked since the last collection is kept. -/
def collectRemoved (s : WorkerSet) (w : Worker) : WorkerSet :=
  { s with
    cpuTimeCollectScalingUpForRemovedWorkers :=
      s.cpuTimeCollectScalingUpForRemovedWorkers + w.scalingUpCpuTime
    cpuTimeCollectScalingDownForRemovedWorkers :=
      s.cpuTimeCollectScalingDownForRemovedWorkers + w.scalingDownCpuTime }

/-- The loop of `internal_reduce_workers`, on the workers from the last one to the first. -/
def reduceLoop (sysNow : Int) (expectWorkers : Nat) : List Worker → WorkerSet → WorkerSet
  | [], s => { s with workers := [] }
  | last :: front, s =>
    if front.length + 1 > expectWorkers ∧ last.isExited sysNow then
      reduceLoop sysNow expectWorkers front (s.collectRemoved last)
    else { s with workers := (last :: front).reverse }

/-- `internal_reduce_workers` -/
def internalReduceWorkers (s : WorkerSet) (sysNow : Int) : WorkerSet :=
  reduceLoop sysNow s.expectWorkers s.workers.reverse s

/-- Some worker that should be there has exited. -/
def needAutofix (s : WorkerSet) (sysNow : Int) : Bool :=
  (s.workers.take s.expectWorkers).any (·.isExited sysNow)

/-- `new_workers[i]->get_context().worker_id = i + 1` -/
def renumber (workers : List Worker) : List Worker :=
  workers.mapIdx fun i w => { w with workerId := i + 1 }

/-- `internal_autofix_workers` -/
def internalAutofixWorkers (s : WorkerSet) (sysNow : Int) : WorkerSet :=
  if s.needAutofix sysNow then
    let swept := (s.workers.filter (·.isExited sysNow)).foldl collectRemoved s
    { swept with workers := renumber (s.workers.filter fun w => !w.isExited sysNow) }
  else s

/-! ## Selecting a worker -/

/-- The positions that `select_worker` and `rebalance_jobs` look at: workers that are not exiting,
    up to the first whose id is too large. -/
def candidates (s : WorkerSet) (sysNow : Int) : List Nat :=
  ((s.workers.zipIdx.filter fun p => !p.1.isExiting sysNow).takeWhile
    fun p => p.1.workerId ≤ s.currentExpectWorkers).map Prod.snd

/-- The candidate with the least key below `minKey`, the first one of several. -/
def leastLoaded (workers : List Worker) : List Nat → WorkerCompareKey → Option Nat → Option Nat
  | [], _, ret => ret
  | i :: rest, minKey, ret =>
    match workers[i]? with
    | none => leastLoaded workers rest minKey ret
    | some w =>
      if w.makeCompareKey.lt minKey then leastLoaded workers rest w.makeCompareKey (some i)
      else leastLoaded workers rest minKey ret

/-- `select_worker()` after its `do_scaling_up`. -/
def selectWorker (s : WorkerSet) (sysNow : Int) : Option Nat :=
  leastLoaded s.workers (s.candidates sysNow) WorkerCompareKey.max none

/-- `worker::emplace` on the worker at a position. -/
def emplace (s : WorkerSet) (i : Nat) : WorkerSet :=
  { s with workers := s.workers.modify i fun w => { w with privateJobs := w.privateJobs + 1 } }

/-- The loop of `rebalance_jobs`: every shared job goes to the worker whose key is the least at
    that moment. -/
def rebalanceLoop (candidates : List Nat) : Nat → WorkerSet → WorkerSet
  | 0, s => s
  | jobs + 1, s =>
    match leastLoaded s.workers candidates WorkerCompareKey.max none with
    | none => s
    | some i => rebalanceLoop candidates jobs { s.emplace i with sharedJobs := jobs }

/-- `rebalance_jobs` -/
def rebalanceJobs (s : WorkerSet) (sysNow : Int) : WorkerSet :=
  if s.sharedJobs = 0 then s
  else
    let s := s.doScalingUp sysNow
    rebalanceLoop (s.candidates sysNow) s.sharedJobs s

/-- What `spawn` and `select_worker` answer. -/
inductive Outcome
  | success
  | params
  | closed
  | noAvailableWorker
  | busy
deriving DecidableEq, Repr

/-- `spawn(action, selected_context)`: the job goes to the selected worker, or to the shared
    queue when there is none. -/
def spawn (s : WorkerSet) (queueSizeLimit : Nat) (sysNow : Int) : Outcome × WorkerSet :=
  let s := s.doScalingUp sysNow
  match s.selectWorker sysNow with
  | none => (.success, { s with sharedJobs := s.sharedJobs + 1 })
  | some i =>
    if (s.workers[i]?.map Worker.privateJobs).getD 0 ≥ queueSizeLimit then (.busy, s)
    else (.success, s.emplace i)

/-- `select_worker(context, output)` after its `do_scaling_up`: the position of the worker. -/
def selectWorkerOf (s : WorkerSet) (workerId : Nat) (sysNow : Int) : Except Outcome Nat :=
  if workerId = 0 then .error .params
  else if workerId > s.currentExpectWorkers then
    .error (if s.closing then .closed else .noAvailableWorker)
  else
    let byIndex := if (s.workers[workerId - 1]?.map Worker.workerId) = some workerId
      then some (workerId - 1) else none
    let found := byIndex <|> s.workers.findIdx? fun w => w.workerId = workerId
    match found.filter fun i => !(s.workers[i]?.any (·.isExiting sysNow)) with
    | some i => .ok i
    | none => .error (if s.closing then .closed else .noAvailableWorker)

/-- `spawn(action, context)` -/
def spawnTo (s : WorkerSet) (queueSizeLimit workerId : Nat) (sysNow : Int) :
    Outcome × WorkerSet :=
  let s := s.doScalingUp sysNow
  match s.selectWorkerOf workerId sysNow with
  | .error outcome => (outcome, s)
  | .ok i =>
    if (s.workers[i]?.map Worker.privateJobs).getD 0 ≥ queueSizeLimit then (.busy, s)
    else (.success, s.emplace i)

end WorkerSet

/-! ## The module -/

namespace WorkerPoolModule

/-- `apply_configure` -/
def applyConfigure (m : WorkerPoolModule) : WorkerPoolModule :=
  { m with scalingStatistics := { m.scalingStatistics with
      lastScalingUpCheckpoint := 0
      lastScalingDownCheckpoint := 0 } }

/-- `init` -/
def init (m : WorkerPoolModule) : WorkerPoolModule := m.applyConfigure

/-- `n` unless it is not positive. -/
def positiveOr (n fallback : Int) : Int := if n ≤ 0 then fallback else n

/-- The bounds as `reload` takes them from the configuration: the smaller one first, then at least
    one worker, then the larger one. -/
def reloadBounds (cfg : PoolConfigure) : Nat × Nat :=
  let minWorkers := if cfg.workerNumberMin > cfg.workerNumberMax then cfg.workerNumberMax
    else cfg.workerNumberMin
  let minWorkers := if minWorkers ≤ 0 then 1 else minWorkers
  (minWorkers, if minWorkers > cfg.workerNumberMax then minWorkers else cfg.workerNumberMax)

/-- The part of `reload` that fills `scaling_configure_`. Both CPU limits are read from
    `scaling_down_cpu_permillage` there. -/
def reloadScalingConfigure (cfg : PoolConfigure) : ScalingConfigure :=
  let upPermillage := positiveOr cfg.scalingDownCpuPermillage 600
  let downPermillage := positiveOr cfg.scalingDownCpuPermillage 500
  { queueSizeLimit := cfg.queueSize
    maxWorkers := (reloadBounds cfg).2
    minWorkers := (reloadBounds cfg).1
    scalingUpCpuPermillage := upPermillage
    scalingUpQueueSize := cfg.scalingUpQueueSize
    scalingUpStableWindowSeconds :=
      positiveOr (toInt32 cfg.scalingUpStabilizationWindow.seconds) 10
    scalingDownCpuPermillage := if downPermillage > upPermillage then upPermillage
      else downPermillage
    scalingDownQueueSize := cfg.scalingDownQueueSize
    scalingDownStableWindowSeconds :=
      positiveOr (toInt32 cfg.scalingDownStabilizationWindow.seconds) 10
    leakScanIntervalSeconds := positiveOr (toInt32 cfg.leakScanInterval.seconds) 300 }

/-- `reload` -/
def reload (m : WorkerPoolModule) (cfg : PoolConfigure) : WorkerPoolModule :=
  let tickMax := cfg.tickMaxInterval.toMicroseconds
  let tickMin := cfg.tickMinInterval.toMicroseconds
  let preserve := cfg.tickPreserveInterval.toMicroseconds
  let m := { m with
    workerSet := { m.workerSet with
      configureTickMaxIntervalMicroseconds := if tickMax ≤ 1000 then 128000 else tickMax
      configureTickMinIntervalMicroseconds := if tickMin < 1000 then 4000 else tickMin
      configureTickPreserveMicrosecondsInSecond := if preserve < 1000 then 8000 else preserve }
    scalingConfigure := reloadScalingConfigure cfg }
  if m.actived then m.applyConfigure
  else { m with workerSet := { m.workerSet with needScalingUp := true } }

/-! ### Scaling -/

/-- The jobs that wait in the queues of the workers. -/
def queueSize (m : WorkerPoolModule) : Nat := (m.workerSet.workers.map Worker.privateJobs).sum

/-- The CPU time collected for scaling up. -/
def scalingUpCpuTime (m : WorkerPoolModule) : Int :=
  m.workerSet.cpuTimeCollectScalingUpForRemovedWorkers
    + (m.workerSet.workers.map Worker.scalingUpCpuTime).sum

/-- The CPU time collected for scaling down. -/
def scalingDownCpuTime (m : WorkerPoolModule) : Int :=
  m.workerSet.cpuTimeCollectScalingDownForRemovedWorkers
    + (m.workerSet.workers.map Worker.scalingDownCpuTime).sum

/-- `scaling_up_target_count` before it is held against the maximum. -/
def scalingUpTargetCount (m : WorkerPoolModule) (offset : Int) : Nat :=
  let c := m.scalingConfigure
  let byCpu := (toUint32 (((m.scalingUpCpuTime * 1000).tdiv offset).tdiv c.scalingUpCpuPermillage)
    + 1) % 2 ^ 32
  let byQueue := (m.queueSize / c.scalingUpQueueSize + 1) % 2 ^ 32
  if c.scalingUpQueueSize > 0 ∧ byQueue > byCpu then byQueue else byCpu

/-- `scaling_down_target_count` before it is held against the minimum. -/
def scalingDownTargetCount (m : WorkerPoolModule) (offset : Int) : Nat :=
  let c := m.scalingConfigure
  let byCpu := toUint32 (((m.scalingDownCpuTime * 1000).tdiv offset).tdiv
    c.scalingDownCpuPermillage)
  let byQueue := m.queueSize / c.scalingDownQueueSize % 2 ^ 32
  if c.scalingDownQueueSize > 0 ∧ byQueue > byCpu then byQueue else byCpu

/-- The window of scaling up has elapsed, so that the load is measured. -/
def scalingUpDue (m : WorkerPoolModule) (now : Int) : Bool :=
  let last := m.scalingStatistics.lastScalingUpCheckpoint
  last < now && last + seconds m.scalingConfigure.scalingUpStableWindowSeconds ≤ now

/-- The window of scaling down has elapsed. -/
def scalingDownDue (m : WorkerPoolModule) (now : Int) : Bool :=
  let last := m.scalingStatistics.lastScalingDownCheckpoint
  last < now && last + seconds m.scalingConfigure.scalingDownStableWindowSeconds ≤ now

/-- `last_scaling_up_checkpoint = now` -/
def checkScalingUp (m : WorkerPoolModule) (now : Int) : WorkerPoolModule :=
  { m with scalingStatistics := { m.scalingStatistics with lastScalingUpCheckpoint := now } }

/-- `last_scaling_down_checkpoint = now` -/
def checkScalingDown (m : WorkerPoolModule) (now : Int) : WorkerPoolModule :=
  { m with scalingStatistics := { m.scalingStatistics with lastScalingDownCheckpoint := now } }

/-- What is left to collect for scaling up after a collection. -/
def collectScalingUp (m : WorkerPoolModule) : WorkerPoolModule :=
  { m with workerSet := { m.workerSet with
      cpuTimeCollectScalingUpForRemovedWorkers := 0
      workers := m.workerSet.workers.map Worker.collectScalingUp } }

/-- What is left to collect for scaling down after a collection. -/
def collectScalingDown (m : WorkerPoolModule) : WorkerPoolModule :=
  { m with workerSet := { m.workerSet with
      cpuTimeCollectScalingDownForRemovedWorkers := 0
      workers := m.workerSet.workers.map Worker.collectScalingDown } }

/-- The block of `tick` under "calculate scaling up". -/
def scaleUp (m : WorkerPoolModule) (now : Int) (expectWorkers : Nat) : Nat × WorkerPoolModule :=
  let last := m.scalingStatistics.lastScalingUpCheckpoint
  if now < last then (expectWorkers, m.checkScalingUp now)
  else if now < last + seconds m.scalingConfigure.scalingUpStableWindowSeconds then
    (expectWorkers, m)
  else if now - last ≤ 0 then (expectWorkers, m.checkScalingUp now)
  else
    let target := m.scalingUpTargetCount (now - last)
    let target := if target > m.scalingConfigure.maxWorkers then m.scalingConfigure.maxWorkers
      else target
    (if target > expectWorkers then target else expectWorkers,
      (m.checkScalingUp now).collectScalingUp)

/-- The block of `tick` under "calculate scaling down". -/
def scaleDown (m : WorkerPoolModule) (now : Int) (expectWorkers : Nat) : Nat × WorkerPoolModule :=
  let last := m.scalingStatistics.lastScalingDownCheckpoint
  if now < last then (expectWorkers, m.checkScalingDown now)
  else if now < last + seconds m.scalingConfigure.scalingDownStableWindowSeconds then
    (expectWorkers, m)
  else if now - last ≤ 0 then (expectWorkers, m.checkScalingDown now)
  else
    let target := m.scalingDownTargetCount (now - last)
    let target := if target < m.scalingConfigure.minWorkers then m.scalingConfigure.minWorkers
      else target
    (if target < expectWorkers then target else expectWorkers,
      (m.checkScalingDown now).collectScalingDown)

/-- The count that `tick` starts from. -/
def startCount (m : WorkerPoolModule) : Nat :=
  if m.workerSet.currentExpectWorkers ≤ 0 then m.scalingConfigure.minWorkers
  else m.workerSet.currentExpectWorkers

/-- `tick` up to the exchange of `current_expect_workers`. -/
def scale (m : WorkerPoolModule) (now : Int) : WorkerPoolModule :=
  let up := m.scaleUp now m.startCount
  let down := up.2.scaleDown now up.1
  { down.2 with workerSet := { down.2.workerSet with
      currentExpectWorkers := down.1
      needScalingUp := down.2.workerSet.needScalingUp
        || decide (down.1 ≠ m.workerSet.currentExpectWorkers) } }

/-- The clock of the module is too far from the last leak scan. -/
def leakScanDue (m : WorkerPoolModule) (now : Int) : Bool :=
  let interval := seconds m.scalingConfigure.leakScanIntervalSeconds
  let last := m.scalingStatistics.leakScanCheckpoint
  !(last - interval ≤ now && now < last + interval)

/-- The rest of `tick`. -/
def maintain (m : WorkerPoolModule) (now sysNow : Int) : WorkerPoolModule :=
  if m.leakScanDue now then
    { m with
      scalingStatistics := { m.scalingStatistics with leakScanCheckpoint := now }
      workerSet := (m.workerSet.internalAutofixWorkers sysNow).rebalanceJobs sysNow }
  else { m with workerSet := (m.workerSet.internalReduceWorkers sysNow).rebalanceJobs sysNow }

/-- `tick(now)` while the module is not closing; `sysNow` is what the system clock shows to
    `is_exited` and to new workers. -/
def tick (m : WorkerPoolModule) (now sysNow : Int) : WorkerPoolModule :=
  (m.scale now).maintain now sysNow

end WorkerPoolModule

/-! ## Runs -/

/-- Where a worker thread can go from a status; a thread may stop at any time. -/
def WorkerStatus.next : WorkerStatus → WorkerStatus → Bool
  | .kCreated, later => later == .kCreated || later == .kRunning
  | .kRunning, later => later == .kRunning || later == .kSleeping || later == .kExiting
  | .kSleeping, later => later == .kSleeping || later == .kRunning
  | .kExiting, later => later == .kExiting || later == .kExited
  | .kExited, later => later == .kExited

/-- What the threads have done since the module looked last: the new status, queue and counters of
    one worker, and the length of the shared queue. -/
structure ThreadProgress where
  status : WorkerStatus := .kRunning
  privateJobs : Nat := 0
  cpuTimeBusyUs : Int := 0
  cpuTimeLastSecondBusyUs : Int := 0
  cpuTimeLastMinuteBusyUs : Int := 0
  sharedJobs : Nat := 0
deriving DecidableEq, Repr

/-- The worker after its thread has run. -/
def Worker.run (w : Worker) (p : ThreadProgress) : Worker :=
  if w.status.next p.status then
    { w with
      status := p.status
      privateJobs := p.privateJobs
      cpuTimeBusyUs := p.cpuTimeBusyUs
      cpuTimeLastSecondBusyUs := p.cpuTimeLastSecondBusyUs
      cpuTimeLastMinuteBusyUs := p.cpuTimeLastMinuteBusyUs }
  else w

/-- What happens to the module, and what its threads do. -/
inductive Action
  | init
  | active
  | reload (cfg : PoolConfigure)
  | tick (now sysNow : Int)
  | spawn (sysNow : Int)
  | spawnTo (workerId : Nat) (sysNow : Int)
  | addTickCallback (workerId : Nat) (sysNow : Int)
  | thread (i : Nat) (progress : ThreadProgress)

/-- The module after an action. -/
def WorkerPoolModule.step (m : WorkerPoolModule) : Action → WorkerPoolModule
  | .init => m.init
  | .active => { m with actived := true }
  | .reload cfg => m.reload cfg
  | .tick now sysNow => m.tick now sysNow
  | .spawn sysNow =>
    { m with workerSet := (m.workerSet.spawn m.scalingConfigure.queueSizeLimit sysNow).2 }
  | .spawnTo workerId sysNow =>
    { m with workerSet :=
        (m.workerSet.spawnTo m.scalingConfigure.queueSizeLimit workerId sysNow).2 }
  -- of `add_tick_callback` only the `do_scaling_up` of `select_worker` is seen here
  | .addTickCallback _ sysNow => { m with workerSet := m.workerSet.doScalingUp sysNow }
  | .thread i progress =>
    { m with workerSet := { m.workerSet with
        workers := m.workerSet.workers.modify i (·.run progress)
        sharedJobs := progress.sharedJobs } }

/-- A module that is constructed at `now`. -/
def WorkerPoolModule.construct (now : Int) : WorkerPoolModule :=
  { scalingStatistics := ⟨now, now, now⟩ }

end LibAtapp.WorkerPool
