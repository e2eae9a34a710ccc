import LibAtapp.Library.Places
import LibAtapp.Library.Run

set_option autoImplicit false

/-! # The worker pool: where the jobs are

The threads of the worker pool as one step relation. A step is one operation on a queue or a
status: `spawn` selects a worker and enqueues in two steps, a worker leaves its loop, stores
`kExiting`, moves its private jobs over one by one and stores `kExited`, and the main thread moves
shared jobs, checks the queues in `stop` and drops workers from the list, all in any order.

Which worker `spawn` selects and where `rebalance_jobs` puts a job depends on their loads; here it
is any worker they look at. A worker thread can always be late: a step is taken when it is listed
in the run and possible, and a step that is not possible leaves the state as it is. -/

namespace LibAtapp.WorkerJobs

open Places

/-- Where a job can be (a job is the number of its call of `spawn`): the queue of a worker, the
    shared queue, the hand of a worker thread or of the main thread, or behind it. -/
inductive Place
  | privateJobs (w : Nat)
  | sharedJobs
  | workerHand (w : Nat)
  | mainHand
  | executed
deriving DecidableEq

/-- How far the thread of a worker is: not started; in its loop; out of its loop; `kExiting` and
    moving its jobs over; done with that; and `kExited`. -/
inductive Phase
  | created
  | running
  | leaving
  | exiting
  | drained
  | exited
deriving DecidableEq, Repr

/-- A worker object. -/
structure Worker where
  workerId : Nat
  phase : Phase := .created
deriving DecidableEq, Repr

/-- `is_exiting`; a worker that did not start may be taken for a leaked one. -/
def Worker.isExiting (w : Worker) (leaked : Bool) : Bool :=
  match w.phase with
  | .created => leaked
  | .running | .leaving => false
  | .exiting | .drained | .exited => true

/-- `is_exited` -/
def Worker.isExited (w : Worker) (leaked : Bool) : Bool :=
  match w.phase with
  | .created => leaked
  | .exited => true
  | _ => false

/-- A call of `spawn` between selecting a worker and enqueueing. -/
structure SpawnCall where
  job : Nat
  target : Option Nat
  checked : Bool := false
deriving DecidableEq, Repr

/-- Where a call of `spawn` enqueues. -/
def SpawnCall.place (call : SpawnCall) : Place :=
  match call.target with
  | some w => .privateJobs w
  | none => .sharedJobs

/-- What the main thread is doing. -/
inductive MainThread
  | idle
  | rebalancing (candidates : List Nat)
  | doingShared
  | stopping (remaining : List Nat)
deriving DecidableEq, Repr

/-- The state of the pool. -/
structure Pool where
  contents : Place → List Nat := fun _ => []
  /-- all worker objects, by the order of their creation -/
  threads : List Worker := []
  /-- `worker_set.workers` -/
  workers : List Nat := []
  currentExpectWorkers : Nat := 2
  closing : Bool := false
  cleaning : Bool := false
  queueSizeLimit : Nat := 20480
  spawning : Nat → Option SpawnCall := fun _ => none
  nextJob : Nat := 0
  /-- the jobs for which `spawn` returns `EN_ATAPP_ERR_SUCCESS` -/
  accepted : List Nat := []
  main : MainThread := .idle
  /-- the module is still ticked -/
  ticking : Bool := true
  /-- the last step was a `stop` that returned 0 -/
  stopped : Bool := false

/-- One operation of one thread. `leaked` says which workers have not started for too long. -/
inductive Step
  | spawnSelect (caller : Nat) (choice : Option Nat) (leaked : Nat → Bool)
  | spawnToSelect (caller : Nat) (workerId : Nat) (leaked : Nat → Bool)
  | spawnCheck (caller : Nat)
  | spawnEmplace (caller : Nat)
  | workerStart (w : Nat)
  | workerPop (w : Nat)
  | workerExecute (w : Nat)
  | workerLeave (w : Nat)
  | workerExiting (w : Nat)
  | drainPop (w : Nat)
  | drainPush (w : Nat)
  | drainEnd (w : Nat)
  | workerExited (w : Nat)
  | tickScale (expectWorkers : Nat)
  | doScalingUp
  | internalReduceWorkers (leaked : Nat → Bool)
  | internalAutofixWorkers (leaked : Nat → Bool)
  | rebalanceBegin (leaked : Nat → Bool)
  | rebalancePop
  | rebalancePush (w : Nat)
  | rebalanceEnd
  | sharedPop
  | sharedExecute
  | sharedEnd
  | stopClose
  | stopExpect
  | stopBegin
  | stopCheck (leaked : Nat → Bool)
  | stopReturn
  | internalCleanup

namespace Pool

variable (s : Pool)

/-- The worker object at an address. -/
def thread (w : Nat) : Worker := (s.threads[w]?).getD { workerId := 0, phase := .exited }

/-- The phase of a worker. -/
def phase (w : Nat) : Phase := (s.thread w).phase

/-- A worker stores a status or goes on. -/
def setPhase (w : Nat) (phase : Phase) : Pool :=
  { s with threads := s.threads.modify w fun v => { v with phase := phase } }

/-- The workers that `select_worker` and `rebalance_jobs` look at. -/
def candidates (leaked : Nat → Bool) : List Nat :=
  (s.workers.filter fun w => !(s.thread w).isExiting (leaked w)).takeWhile
    fun w => (s.thread w).workerId ≤ s.currentExpectWorkers

/-- `select_worker()`: any worker it looks at, none if there is none. -/
def selects (choice : Option Nat) (leaked : Nat → Bool) : Bool :=
  match choice with
  | some w => w ∈ s.candidates leaked
  | none => s.candidates leaked = []

/-- `select_worker(context, output)`: the worker with the id, unless it is exiting. -/
def selectWorkerOf (workerId : Nat) (leaked : Nat → Bool) : Option Nat :=
  if workerId = 0 ∨ workerId > s.currentExpectWorkers then none
  else (s.workers.find? fun w => (s.thread w).workerId = workerId).filter
    fun w => !(s.thread w).isExiting (leaked w)

/-- A call of `spawn` has selected a worker. -/
def beginSpawn (caller : Nat) (target : Option Nat) : Pool :=
  { s with
    spawning := Function.update s.spawning caller (some { job := s.nextJob, target := target })
    nextJob := s.nextJob + 1 }

/-- A call of `spawn` has returned. -/
def endSpawn (caller : Nat) : Pool :=
  { s with spawning := Function.update s.spawning caller none }

/-- What `spawn` checks before it enqueues: the pool is not cleaned up when no worker was found,
    and the queue of the worker is not too long. -/
def refuses (call : SpawnCall) : Bool :=
  match call.target with
  | some w => s.queueSizeLimit ≤ (s.contents (.privateJobs w)).length
  | none => s.cleaning

/-- The count that the functions which remove workers work with. -/
def expectWorkers : Nat := if s.closing then 0 else s.currentExpectWorkers

/-- The thread of a worker leaves its loop. -/
def leavesLoop (w : Nat) : Bool :=
  s.cleaning || s.closing || s.currentExpectWorkers < (s.thread w).workerId

/-- A job moves from one place to another. -/
def move (p q : Place) : Pool := { s with contents := transfer s.contents p q }

/-- `do_scaling_up`: a worker object for every missing worker. -/
def scaleUp : Pool :=
  let missing := s.currentExpectWorkers - s.workers.length
  { s with
    threads := s.threads ++
      (List.range' s.workers.length missing).map fun i => { workerId := i + 1 }
    workers := s.workers ++ List.range' s.threads.length missing }

/-- `new_workers[i]->get_context().worker_id = i + 1` -/
def renumber (threads : List Worker) : List Nat → Nat → List Worker
  | [], _ => threads
  | w :: rest, i => renumber (threads.modify w fun v => { v with workerId := i + 1 }) rest (i + 1)

/-- `internal_autofix_workers` -/
def autofix (leaked : Nat → Bool) : Pool :=
  if (s.workers.take s.expectWorkers).any fun w => (s.thread w).isExited (leaked w) then
    let kept := s.workers.filter fun w => !(s.thread w).isExited (leaked w)
    { s with threads := renumber s.threads kept 0, workers := kept }
  else s

/-- One operation; a step that is not possible changes nothing. -/
def act (s : Pool) : Step → Pool
  | .spawnSelect caller choice leaked =>
    if s.spawning caller = none ∧ s.selects choice leaked then s.beginSpawn caller choice else s
  | .spawnToSelect caller workerId leaked =>
    match s.selectWorkerOf workerId leaked with
    | some w => if s.spawning caller = none then s.beginSpawn caller (some w) else s
    | none => s
  | .spawnCheck caller =>
    match s.spawning caller with
    | some call =>
      if call.checked then s
      else if s.refuses call then s.endSpawn caller
      else { s with spawning :=
        Function.update s.spawning caller (some { call with checked := true }) }
    | none => s
  | .spawnEmplace caller =>
    match s.spawning caller with
    | some call =>
      if call.checked then
        { s.endSpawn caller with
          contents := push s.contents call.place call.job
          accepted := call.job :: s.accepted }
      else s
    | none => s
  | .workerStart w => if s.phase w = .created then s.setPhase w .running else s
  | .workerPop w =>
    if s.phase w = .running ∧ s.contents (.workerHand w) = [] then
      s.move (.privateJobs w) (.workerHand w)
    else s
  | .workerExecute w =>
    if s.phase w = .running then s.move (.workerHand w) .executed else s
  | .workerLeave w =>
    if s.phase w = .running ∧ s.contents (.workerHand w) = [] ∧ s.leavesLoop w then
      s.setPhase w .leaving
    else s
  | .workerExiting w => if s.phase w = .leaving then s.setPhase w .exiting else s
  | .drainPop w =>
    if s.phase w = .exiting ∧ s.contents (.workerHand w) = [] then
      s.move (.privateJobs w) (.workerHand w)
    else s
  | .drainPush w => if s.phase w = .exiting then s.move (.workerHand w) .sharedJobs else s
  | .drainEnd w =>
    if s.phase w = .exiting ∧ s.contents (.workerHand w) = []
        ∧ s.contents (.privateJobs w) = [] then
      s.setPhase w .drained
    else s
  | .workerExited w => if s.phase w = .drained then s.setPhase w .exited else s
  | .tickScale expectWorkers =>
    if s.main = .idle ∧ s.ticking ∧ !s.closing then
      { s with currentExpectWorkers := expectWorkers }
    else s
  | .doScalingUp => s.scaleUp
  | .internalReduceWorkers leaked =>
    match s.workers.getLast? with
    | some w =>
      if s.main = .idle ∧ s.expectWorkers < s.workers.length
          ∧ (s.thread w).isExited (leaked w) then
        { s with workers := s.workers.dropLast }
      else s
    | none => s
  | .internalAutofixWorkers leaked =>
    if s.main = .idle ∧ s.ticking ∧ !s.closing then s.autofix leaked else s
  | .rebalanceBegin leaked =>
    if s.main = .idle ∧ s.ticking ∧ s.contents .sharedJobs ≠ [] then
      { s with main := .rebalancing (s.candidates leaked) }
    else s
  | .rebalancePop =>
    match s.main with
    | .rebalancing (_ :: _) =>
      if s.contents .mainHand = [] then s.move .sharedJobs .mainHand else s
    | _ => s
  | .rebalancePush w =>
    match s.main with
    | .rebalancing candidates =>
      if w ∈ candidates then s.move .mainHand (.privateJobs w) else s
    | _ => s
  | .rebalanceEnd =>
    match s.main with
    | .rebalancing candidates =>
      if s.contents .mainHand = [] ∧ (candidates = [] ∨ s.contents .sharedJobs = []) then
        { s with main := .idle }
      else s
    | _ => s
  -- `do_shared_job_on_main_thread`, which `tick` calls while the pool is closing
  | .sharedPop =>
    if (s.main = .idle ∨ s.main = .doingShared) ∧ s.ticking ∧ s.closing
        ∧ s.contents .mainHand = [] then
      { s.move .sharedJobs .mainHand with main := .doingShared }
    else s
  | .sharedExecute => if s.main = .doingShared then s.move .mainHand .executed else s
  | .sharedEnd =>
    if s.main = .doingShared ∧ s.contents .mainHand = [] then { s with main := .idle } else s
  | .stopClose => if s.main = .idle ∧ s.ticking then { s with closing := true } else s
  | .stopExpect =>
    if s.main = .idle ∧ s.closing then { s with currentExpectWorkers := 0 } else s
  | .stopBegin =>
    if s.main = .idle ∧ s.ticking ∧ s.closing then { s with main := .stopping s.workers } else s
  | .stopCheck leaked =>
    match s.main with
    | .stopping (w :: rest) =>
      if (s.thread w).isExiting (leaked w) ∨ s.contents (.privateJobs w) = [] then
        { s with main := .stopping rest }
      -- `return 1`
      else { s with main := .idle }
    | _ => s
  | .stopReturn =>
    match s.main with
    | .stopping [] =>
      if s.contents .sharedJobs ≠ [] then { s with main := .idle }
      -- `return 0`: the module is disabled and not ticked again
      else { s with main := .idle, ticking := false, stopped := true }
    | _ => s
  | .internalCleanup =>
    if s.main = .idle then { s with closing := true, cleaning := true, ticking := false } else s

/-- One step of the run. -/
def step (s : Pool) (a : Step) : Pool := { s with stopped := false }.act a

/-! ## What should hold -/

/-- The place is still going to be emptied: the queue of a worker that has not finished moving its
    jobs over, the shared queue while the module is ticked, the hand of a thread that goes on with
    the job. -/
def Drains : Place → Prop
  | .privateJobs w => s.phase w ≠ .drained ∧ s.phase w ≠ .exited
  | .sharedJobs => s.ticking = true
  | .workerHand w => s.phase w = .running ∨ s.phase w = .exiting
  | .mainHand => s.main = .doingShared ∨ ∃ candidates, s.main = .rebalancing candidates
  | .executed => True

/-- No job is executed twice; an accepted job is executed or on its way; and when `stop` has just
    returned 0 every accepted job has been executed. -/
structure JobsSafe : Prop where
  once : (s.contents .executed).Nodup
  pending : ∀ j ∈ s.accepted, j ∉ s.contents .executed → ∃ p, j ∈ s.contents p ∧ s.Drains p
  stopped : s.stopped = true → ∀ j ∈ s.accepted, j ∈ s.contents .executed

end Pool

end LibAtapp.WorkerJobs
