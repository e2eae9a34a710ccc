import LibAtapp.Library.GreedyBalance
import LibAtapp.Library.OrderedMap
import LibAtapp.Library.SortedRing
import LibAtapp.Modules.WorkerReplacement
import Mathlib.Data.Prod.Lex
import Mathlib.Order.Basic

set_option autoImplicit false

/-! # The worker pool: where `rebalance_jobs` puts the shared jobs

`rebalance_jobs` of `worker_pool_module.cpp` with the jobs themselves in the queues, the addresses
of the workers, and the `std::map` from the keys of the workers to the workers. The queues are
changed by nobody else here; the CPU times of a worker may be others each time its key is made. -/

namespace LibAtapp.Rebalance

/-! ## Keys -/

/-- `worker_compare_key` -/
structure WorkerCompareKey extends WorkerPool.WorkerCompareKey where
  workerPtr : Nat
deriving DecidableEq, Repr

namespace WorkerCompareKey

/-- `operator<` of the keys. -/
def lt (l r : WorkerCompareKey) : Bool :=
  if l.pendingJobSize ≠ r.pendingJobSize then l.pendingJobSize < r.pendingJobSize
  else if (8000 ≤ l.cpuTimeLastSecondBusyUs ∨ 8000 ≤ r.cpuTimeLastSecondBusyUs)
      ∧ l.cpuTimeLastSecondBusyUs ≠ r.cpuTimeLastSecondBusyUs then
    l.cpuTimeLastSecondBusyUs < r.cpuTimeLastSecondBusyUs
  else if l.cpuTimeLastMinuteBusyUs ≠ r.cpuTimeLastMinuteBusyUs then
    l.cpuTimeLastMinuteBusyUs < r.cpuTimeLastMinuteBusyUs
  else if l.workerId ≠ r.workerId then l.workerId < r.workerId
  else l.workerPtr < r.workerPtr

/-- What the comparison goes by, in its order: all times of the last second below the threshold
    count as one. -/
def rank (k : WorkerCompareKey) : ℕ ×ₗ ℤ ×ₗ ℤ ×ₗ ℕ ×ₗ ℕ :=
  toLex (k.pendingJobSize, toLex (max k.cpuTimeLastSecondBusyUs 7999,
    toLex (k.cpuTimeLastMinuteBusyUs, toLex (k.workerId, k.workerPtr))))

variable {l r : WorkerCompareKey}

/-- The second criterion compares the times of the last second as far as they reach the
    threshold. -/
theorem lt_iff_rank_lt : l.lt r ↔ l.rank < r.rank := by
  simp only [rank, Prod.Lex.toLex_lt_toLex]
  unfold lt
  split_ifs with hpending hsecond hminute hid <;> simp only [decide_eq_true_eq] <;> omega

theorem lt_irrefl (k : WorkerCompareKey) : ¬ k.lt k := by
  intro h
  exact (lt_iff_rank_lt.1 h).false

theorem lt_trans {m : WorkerCompareKey} (h : l.lt r) (h' : r.lt m) : l.lt m := by
  rw [lt_iff_rank_lt] at h h' ⊢
  exact h.trans h'

/-- Workers at two addresses are told apart, whatever else is in their keys. -/
theorem lt_or_lt (h : l.workerPtr ≠ r.workerPtr) : l.lt r ∨ r.lt l := by
  rw [lt_iff_rank_lt, lt_iff_rank_lt]
  refine lt_or_gt_of_ne fun hrank => h ?_
  simp only [rank, toLex_inj, Prod.mk.injEq] at hrank
  exact hrank.2.2.2.2

theorem pendingJobSize_le (h : l.lt r) : l.pendingJobSize ≤ r.pendingJobSize := by
  rw [lt_iff_rank_lt, rank, rank, Prod.Lex.toLex_lt_toLex] at h
  rcases h with h | h
  · exact Nat.le_of_lt h
  · exact Nat.le_of_eq h.1

end WorkerCompareKey

/-! ## Workers with their jobs -/

/-- What a key shows of the CPU times of a worker. -/
structure CpuTimes where
  lastSecondBusyUs : Int := 0
  lastMinuteBusyUs : Int := 0
deriving DecidableEq, Repr

/-- `worker_pool_module::worker` with its address and the jobs in `private_jobs`. -/
structure Worker (Job : Type) extends WorkerPool.Worker where
  workerPtr : Nat
  queue : List Job
  counted : privateJobs = queue.length

variable {Job : Type}

namespace Worker

variable (w : Worker Job)

/-- `worker::make_compare_key` -/
def makeCompareKey : WorkerCompareKey :=
  { w.toWorker.makeCompareKey with workerPtr := w.workerPtr }

/-- `worker::emplace` -/
def emplace (job : Job) : Worker Job :=
  { w with
    privateJobs := w.privateJobs + 1
    queue := w.queue ++ [job]
    counted := by rw [w.counted, List.length_append, List.length_singleton] }

/-- The worker after its thread has counted its CPU time. -/
def showing (times : CpuTimes) : Worker Job :=
  { w with
    cpuTimeLastSecondBusyUs := times.lastSecondBusyUs
    cpuTimeLastMinuteBusyUs := times.lastMinuteBusyUs }

/-- What does not change in a worker that is given jobs: its address, its id, its status and when
    it was created. -/
def identity : Nat × Nat × WorkerPool.WorkerStatus × Int :=
  (w.workerPtr, w.workerId, w.status, w.createdTime)

end Worker

/-- `worker_set.workers`: no object is there twice. -/
structure Workers (Job : Type) where
  list : List (Worker Job)
  distinct : (list.map Worker.workerPtr).Nodup

/-- Where `std::make_shared` puts a new object: at an address that no worker has. -/
structure Allocator where
  address : List Nat → Nat
  fresh : ∀ used, address used ∉ used

namespace Workers

/-- A worker object has changed. -/
def store (ws : Workers Job) (w : Worker Job) : Workers Job where
  list := ws.list.map fun v => if v.workerPtr = w.workerPtr then w else v
  distinct := by
    have hsame : ∀ v : Worker Job,
        (if v.workerPtr = w.workerPtr then w else v).workerPtr = v.workerPtr := by
      intro v
      split_ifs with h
      · exact h.symm
      · rfl
    simpa only [List.map_map, Function.comp_def, hsame] using ws.distinct

/-- One round of the loop of `do_scaling_up`. -/
def emplaceBack (ws : Workers Job) (alloc : Allocator) (sysNow : Int) : Workers Job where
  list := ws.list ++ [{
    workerId := ws.list.length + 1
    createdTime := sysNow
    workerPtr := alloc.address (ws.list.map Worker.workerPtr)
    queue := []
    counted := rfl }]
  distinct := by
    rw [List.map_append, List.map_singleton, List.nodup_append]
    refine ⟨ws.distinct, List.pairwise_singleton _ _, fun a ha b hb hab => ?_⟩
    rw [List.mem_singleton.1 hb] at hab
    exact alloc.fresh _ (hab ▸ ha)

/-- The loop of `do_scaling_up`. -/
def create (alloc : Allocator) (sysNow : Int) : Nat → Workers Job → Workers Job
  | 0, ws => ws
  | missing + 1, ws => create alloc sysNow missing (ws.emplaceBack alloc sysNow)

end Workers

/-- `worker_set`, as far as `rebalance_jobs` reads it. -/
structure WorkerSet (Job : Type) where
  needScalingUp : Bool := false
  currentExpectWorkers : Nat := 2
  workers : Workers Job
  sharedJobs : List Job

/-- `std::map<worker_compare_key, std::shared_ptr<worker>>` -/
abbrev WorkerMap (Job : Type) := List (WorkerCompareKey × Worker Job)

/-- The first loop of `rebalance_jobs`. -/
def collect (sysNow : Int) (expectWorkers : Nat) : List (Worker Job) → WorkerMap Job → WorkerMap Job
  | [], map => map
  | w :: rest, map =>
    if w.isExiting sysNow then collect sysNow expectWorkers rest map
    -- `break`: the ids ascend
    else if w.workerId > expectWorkers then map
    else collect sysNow expectWorkers rest
      (OrderedMap.assign WorkerCompareKey.lt w.makeCompareKey w map)

/-- The second loop of `rebalance_jobs`: the workers and the shared jobs after it. `times` has the
    CPU times that the worker shows when it is put back, by the number of jobs still shared. -/
def moveJobs (times : Nat → CpuTimes) :
    List Job → WorkerMap Job → Workers Job → Workers Job × List Job
  | [], _, ws => (ws, [])
  -- without workers `rebalance_jobs` has returned before the loop
  | job :: jobs, [], ws => (ws, job :: jobs)
  | job :: jobs, (_, w) :: map, ws =>
    let w := (w.emplace job).showing (times jobs.length)
    moveJobs times jobs (OrderedMap.assign WorkerCompareKey.lt w.makeCompareKey w map) (ws.store w)

namespace WorkerSet

/-- `do_scaling_up` -/
def doScalingUp (s : WorkerSet Job) (alloc : Allocator) (sysNow : Int) : WorkerSet Job :=
  if s.needScalingUp then
    { s with
      needScalingUp := false
      workers := s.workers.create alloc sysNow (s.currentExpectWorkers - s.workers.list.length) }
  else s

/-- The set that the jobs are moved in: with an empty shared queue `rebalance_jobs` returns before
    its `do_scaling_up`. -/
def scaled (s : WorkerSet Job) (alloc : Allocator) (sysNow : Int) : WorkerSet Job :=
  if s.sharedJobs.isEmpty then s else s.doScalingUp alloc sysNow

/-- `rebalance_jobs` -/
def rebalanceJobs (s : WorkerSet Job) (alloc : Allocator) (times : Nat → CpuTimes)
    (sysNow : Int) : WorkerSet Job :=
  let s := s.scaled alloc sysNow
  let map := collect sysNow s.currentExpectWorkers s.workers.list []
  let moved := moveJobs times s.sharedJobs map s.workers
  { s with workers := moved.1, sharedJobs := moved.2 }

end WorkerSet

/-! ## What a rebalance does -/

/-- A worker that is not exiting and has an id within the expected count. -/
def Worker.Eligible (w : Worker Job) (sysNow : Int) (expectWorkers : Nat) : Prop :=
  w.isExiting sysNow = false ∧ w.workerId ≤ expectWorkers

/-- Among the workers that are not exiting, those with an id within the count come first. -/
def WorkerSet.EligibleFirst (s : WorkerSet Job) (sysNow : Int) : Prop :=
  SortedRing.Initial (fun w : Worker Job => decide (w.workerId ≤ s.currentExpectWorkers))
    (s.workers.list.filter fun w => !w.isExiting sysNow)

/-- The jobs that go to an address when the jobs go to these addresses, one after the other. -/
def received (p : Nat) (targets : List Nat) (jobs : List Job) : List Job :=
  ((targets.zip jobs).filter fun given => given.1 = p).map Prod.snd

/-- The set `s'` comes of `s` by moving every shared job, in order, to the worker at its address in
    `targets`. -/
structure Rebalanced (s s' : WorkerSet Job) (targets : List Nat) (sysNow : Int) : Prop where
  placed : targets.length = s.sharedJobs.length
  eligible : ∀ p ∈ targets, ∃ w ∈ s.workers.list, w.workerPtr = p ∧
    w.Eligible sysNow s.currentExpectWorkers
  queues : s'.workers.list.map (fun w => (w.identity, w.queue)) =
    s.workers.list.map fun w => (w.identity, w.queue ++ received w.workerPtr targets s.sharedJobs)
  emptied : s'.sharedJobs = []
  others : ∀ w ∈ s.workers.list, ¬ w.Eligible sysNow s.currentExpectWorkers →
    received w.workerPtr targets s.sharedJobs = []
  balanced : ∀ a ∈ s'.workers.list, a.workerPtr ∈ targets → ∀ b ∈ s'.workers.list,
    b.Eligible sysNow s.currentExpectWorkers → a.queue.length ≤ b.queue.length + 1

/-! ## The map of the workers -/

theorem collect_eq (sysNow : Int) (expectWorkers : Nat) (ws : List (Worker Job))
    (map : WorkerMap Job) :
    collect sysNow expectWorkers ws map =
      ((ws.filter fun w => !w.isExiting sysNow).takeWhile
        fun w => decide (w.workerId ≤ expectWorkers)).foldl
        (fun map w => OrderedMap.assign WorkerCompareKey.lt w.makeCompareKey w map) map := by
  induction ws generalizing map with
  | nil => rfl
  | cons w ws ih =>
      rw [collect]
      cases hexiting : w.isExiting sysNow with
      | true => simpa [hexiting] using ih map
      | false =>
          by_cases hid : w.workerId ≤ expectWorkers
          · simp only [Bool.false_eq_true, if_false, if_neg (Nat.not_lt.2 hid), ih]
            simp [hexiting, hid]
          · simp [hexiting, hid, Nat.lt_of_not_le hid]

/-- The map holds the workers at these addresses with the keys they have now. -/
structure Holds (map : WorkerMap Job) (ws : Workers Job) (bins : Set Nat) : Prop where
  sorted : OrderedMap.Sorted WorkerCompareKey.lt map
  key : ∀ e ∈ map, e.1 = e.2.makeCompareKey
  mem : ∀ e ∈ map, e.2 ∈ ws.list
  bins : ∀ p, p ∈ bins ↔ ∃ e ∈ map, e.2.workerPtr = p
  distinct : (map.map fun e => e.2.workerPtr).Nodup

/-- The key of a worker is told from those of workers at other addresses. -/
theorem apart_of_forall {map : WorkerMap Job} (hkey : ∀ e ∈ map, e.1 = e.2.makeCompareKey)
    {w : Worker Job} (h : ∀ e ∈ map, e.2.workerPtr ≠ w.workerPtr) :
    OrderedMap.Apart WorkerCompareKey.lt w.makeCompareKey map := by
  intro e he
  refine WorkerCompareKey.lt_or_lt ?_
  rw [hkey e he]
  exact (h e he).symm

/-- A worker at a new address comes into the map. -/
theorem Holds.assign {map : WorkerMap Job} {ws : Workers Job} {bins : Set Nat}
    (h : Holds map ws bins) {w : Worker Job} (hw : w ∈ ws.list) (hnew : w.workerPtr ∉ bins) :
    Holds (OrderedMap.assign WorkerCompareKey.lt w.makeCompareKey w map) ws
      {p | p = w.workerPtr ∨ p ∈ bins} := by
  have hother : ∀ e ∈ map, e.2.workerPtr ≠ w.workerPtr :=
    fun e he heq => hnew ((h.bins _).2 ⟨e, he, heq⟩)
  have hapart := apart_of_forall h.key hother
  have hmem : ∀ e, e ∈ OrderedMap.assign WorkerCompareKey.lt w.makeCompareKey w map ↔
      e = (w.makeCompareKey, w) ∨ e ∈ map := fun e => OrderedMap.mem_assign hapart
  refine ⟨h.sorted.assign (fun _ _ _ => WorkerCompareKey.lt_trans) hapart, ?_, ?_, ?_, ?_⟩
  · intro e he
    rcases (hmem e).1 he with rfl | he
    · rfl
    · exact h.key e he
  · intro e he
    rcases (hmem e).1 he with rfl | he
    · exact hw
    · exact h.mem e he
  · intro p
    have hbins := h.bins p
    constructor
    · rintro (rfl | hp)
      · exact ⟨_, (hmem _).2 (Or.inl rfl), rfl⟩
      · obtain ⟨e, he, heq⟩ := hbins.1 hp
        exact ⟨e, (hmem e).2 (Or.inr he), heq⟩
    · rintro ⟨e, he, heq⟩
      rcases (hmem e).1 he with rfl | he
      · exact Or.inl heq.symm
      · exact Or.inr (hbins.2 ⟨e, he, heq⟩)
  · rw [((OrderedMap.assign_perm hapart).map _).nodup_iff, List.map_cons, List.nodup_cons]
    refine ⟨fun hin => ?_, h.distinct⟩
    obtain ⟨e, he, heq⟩ := List.mem_map.1 hin
    exact hother e he heq

/-- The map after its first worker is taken out and has changed. -/
theorem Holds.tail {e : WorkerCompareKey × Worker Job} {map : WorkerMap Job} {ws : Workers Job}
    {bins : Set Nat} (h : Holds (e :: map) ws bins) {w : Worker Job}
    (hptr : w.workerPtr = e.2.workerPtr) :
    Holds map (ws.store w) {p | p ∈ bins ∧ p ≠ w.workerPtr} := by
  have hdistinct := List.nodup_cons.1 h.distinct
  have hother : ∀ e' ∈ map, e'.2.workerPtr ≠ w.workerPtr := by
    intro e' he' heq
    exact hdistinct.1 (List.mem_map.2 ⟨e', he', heq.trans hptr⟩)
  refine ⟨(List.pairwise_cons.1 h.sorted).2, fun e' he' => h.key e' (List.mem_cons_of_mem e he'),
    fun e' he' => ?_, fun p => ?_, hdistinct.2⟩
  · refine List.mem_map.2 ⟨e'.2, h.mem e' (List.mem_cons_of_mem e he'), ?_⟩
    exact if_neg (hother e' he')
  · constructor
    · rintro ⟨hp, hne⟩
      obtain ⟨e', he', rfl⟩ := (h.bins p).1 hp
      rcases List.mem_cons.1 he' with rfl | he'
      · exact absurd hptr.symm hne
      · exact ⟨e', he', rfl⟩
    · rintro ⟨e', he', rfl⟩
      exact ⟨(h.bins _).2 ⟨e', List.mem_cons_of_mem e he', rfl⟩, hother e' he'⟩

/-- **One round** takes the first worker out and puts it back with its new key. -/
theorem Holds.round {e : WorkerCompareKey × Worker Job} {map : WorkerMap Job} {ws : Workers Job}
    {bins : Set Nat} (h : Holds (e :: map) ws bins) {w : Worker Job}
    (hptr : w.workerPtr = e.2.workerPtr) :
    Holds (OrderedMap.assign WorkerCompareKey.lt w.makeCompareKey w map) (ws.store w) bins := by
  have hstored : w ∈ (ws.store w).list :=
    List.mem_map.2 ⟨e.2, h.mem e List.mem_cons_self, if_pos hptr.symm⟩
  have hin : w.workerPtr ∈ bins := (h.bins _).2 ⟨e, List.mem_cons_self, hptr.symm⟩
  have hnew : w.workerPtr ∉ {p | p ∈ bins ∧ p ≠ w.workerPtr} := fun hp => hp.2 rfl
  have hback := (h.tail hptr).assign hstored hnew
  have hbins : {p | p = w.workerPtr ∨ p ∈ {p | p ∈ bins ∧ p ≠ w.workerPtr}} = bins := by
    ext p
    constructor
    · rintro (rfl | hp)
      · exact hin
      · exact hp.1
    · intro hp
      by_cases hpw : p = w.workerPtr
      · exact Or.inl hpw
      · exact Or.inr ⟨hp, hpw⟩
  rwa [hbins] at hback

/-- Workers at different addresses come into the map one after the other. -/
theorem Holds.foldl_assign {map : WorkerMap Job} {ws : Workers Job} {bins : Set Nat}
    (h : Holds map ws bins) {new : List (Worker Job)} (hmem : ∀ w ∈ new, w ∈ ws.list)
    (hdistinct : (new.map Worker.workerPtr).Nodup) (hnew : ∀ w ∈ new, w.workerPtr ∉ bins) :
    Holds (new.foldl (fun map w => OrderedMap.assign WorkerCompareKey.lt w.makeCompareKey w map)
      map) ws {p | p ∈ bins ∨ p ∈ new.map Worker.workerPtr} := by
  induction new generalizing map bins with
  | nil => simpa using h
  | cons w new ih =>
      obtain ⟨hw, hrest⟩ := List.nodup_cons.1 hdistinct
      have hput := h.assign (hmem w List.mem_cons_self) (hnew w List.mem_cons_self)
      have hfold := ih hput (fun v hv => hmem v (List.mem_cons_of_mem w hv)) hrest ?_
      · have hbins : {p | p ∈ {p | p = w.workerPtr ∨ p ∈ bins} ∨ p ∈ new.map Worker.workerPtr} =
            {p | p ∈ bins ∨ p ∈ (w :: new).map Worker.workerPtr} := by
          ext p
          simp only [Set.mem_ofPred_eq, List.map_cons, List.mem_cons]
          tauto
        rwa [hbins] at hfold
      · rintro v hv (hvw | hvb)
        · exact hw (hvw ▸ List.mem_map_of_mem hv)
        · exact hnew v (List.mem_cons_of_mem w hv) hvb

/-- **The map** of `rebalance_jobs` has the eligible workers. -/
theorem holds_collect {s : WorkerSet Job} {sysNow : Int} (h : s.EligibleFirst sysNow) :
    Holds (collect sysNow s.currentExpectWorkers s.workers.list []) s.workers
      {p | ∃ w ∈ s.workers.list, w.workerPtr = p ∧ w.Eligible sysNow s.currentExpectWorkers} := by
  have hnone : Holds ([] : WorkerMap Job) s.workers ∅ :=
    ⟨List.Pairwise.nil, by simp, by simp, by simp, List.nodup_nil⟩
  rw [collect_eq, SortedRing.takeWhile_eq_filter h, List.filter_filter]
  have hsub := List.filter_sublist (l := s.workers.list)
    (p := fun w => decide (w.workerId ≤ s.currentExpectWorkers) && !w.isExiting sysNow)
  have hfold := hnone.foldl_assign (fun w hw => hsub.subset hw)
    ((hsub.map Worker.workerPtr).nodup s.workers.distinct) (fun w _ hw => hw.elim)
  have hbins : {p | p ∈ (∅ : Set Nat) ∨ p ∈ (s.workers.list.filter fun w =>
      decide (w.workerId ≤ s.currentExpectWorkers) && !w.isExiting sysNow).map Worker.workerPtr} =
      {p | ∃ w ∈ s.workers.list, w.workerPtr = p ∧ w.Eligible sysNow s.currentExpectWorkers} := by
    ext p
    simp only [Set.mem_ofPred_eq, Set.mem_empty_iff_false, false_or, List.mem_map, List.mem_filter,
      Bool.and_eq_true, decide_eq_true_eq, Bool.not_eq_true', Worker.Eligible]
    constructor
    · rintro ⟨w, ⟨hw, hid, hexiting⟩, hp⟩
      exact ⟨w, hw, hp, hexiting, hid⟩
    · rintro ⟨w, hw, hp, hexiting, hid⟩
      exact ⟨w, ⟨hw, hid, hexiting⟩, hp⟩
  rwa [hbins] at hfold

/-! ## The loop -/

theorem received_nil (p : Nat) (jobs : List Job) : received p [] jobs = [] := rfl

theorem received_cons_self (p : Nat) (job : Job) (targets : List Nat) (jobs : List Job) :
    received p (p :: targets) (job :: jobs) = job :: received p targets jobs := by
  simp [received]

theorem received_cons_of_ne {p t : Nat} (h : t ≠ p) (job : Job) (targets : List Nat)
    (jobs : List Job) : received p (t :: targets) (job :: jobs) = received p targets jobs := by
  simp [received, h]

theorem received_eq_nil {p : Nat} {targets : List Nat} (h : p ∉ targets) (jobs : List Job) :
    received p targets jobs = [] := by
  induction targets generalizing jobs with
  | nil => rfl
  | cons t targets ih =>
      rw [List.mem_cons, not_or] at h
      cases jobs with
      | nil => rfl
      | cons job jobs => rw [received_cons_of_ne (Ne.symm h.1), ih h.2]

/-- In a list of distinct workers the address tells the worker. -/
theorem Workers.eq_of_workerPtr_eq (ws : Workers Job) {v w : Worker Job} (hv : v ∈ ws.list)
    (hw : w ∈ ws.list) (h : v.workerPtr = w.workerPtr) : v = w :=
  List.inj_on_of_nodup_map ws.distinct hv hw h

/-- The lengths of the queues by the addresses of the workers. -/
def Loads (load : Nat → Nat) (ws : Workers Job) : Prop :=
  ∀ w ∈ ws.list, load w.workerPtr = w.queue.length

theorem exists_loads (ws : Workers Job) : ∃ load, Loads load ws := by
  obtain ⟨ws, hdistinct⟩ := ws
  induction ws with
  | nil => exact ⟨fun _ => 0, fun w hw => absurd hw List.not_mem_nil⟩
  | cons w ws ih =>
      obtain ⟨hw, hrest⟩ := List.nodup_cons.1 hdistinct
      obtain ⟨load, hload⟩ := ih hrest
      refine ⟨Function.update load w.workerPtr w.queue.length, fun v hv => ?_⟩
      rcases List.mem_cons.1 hv with rfl | hv
      · exact Function.update_self ..
      · have hne : v.workerPtr ≠ w.workerPtr := fun heq => hw (heq ▸ List.mem_map_of_mem hv)
        rw [Function.update_of_ne hne]
        exact hload v hv

/-- The jobs were given to workers of the least load, in order. -/
structure Moved (bins : Set Nat) (load : Nat → Nat) (jobs : List Job) (ws ws' : Workers Job)
    (targets : List Nat) : Prop where
  placed : targets.length = jobs.length
  greedy : GreedyBalance.Greedy bins load targets
  queues : ws'.list.map (fun w => (w.identity, w.queue)) =
    ws.list.map fun w => (w.identity, w.queue ++ received w.workerPtr targets jobs)
  loads : Loads (GreedyBalance.giveAll load targets) ws'

section Round

variable {e : WorkerCompareKey × Worker Job} {map : WorkerMap Job} {ws : Workers Job}
  {bins : Set Nat} {load : Nat → Nat} {w : Worker Job} {job : Job}

/-- The first worker of the map has the least load. -/
theorem Holds.least (h : Holds (e :: map) ws bins) (hload : Loads load ws) :
    ∀ p ∈ bins, load e.2.workerPtr ≤ load p := by
  have hlen : ∀ e' ∈ e :: map, load e'.2.workerPtr = e'.1.pendingJobSize := by
    intro e' he'
    rw [hload e'.2 (h.mem e' he'), h.key e' he', ← e'.2.counted]
    rfl
  intro p hp
  obtain ⟨e', he', rfl⟩ := (h.bins p).1 hp
  rw [hlen e List.mem_cons_self, hlen e' he']
  exact h.sorted.head_le (p := fun k k' => k.pendingJobSize ≤ k'.pendingJobSize)
    (fun k => Nat.le_refl _) (fun _ _ => WorkerCompareKey.pendingJobSize_le) he'

theorem loads_store (hload : Loads load ws) (hmem : e.2 ∈ ws.list)
    (hptr : w.workerPtr = e.2.workerPtr) (hqueue : w.queue = e.2.queue ++ [job]) :
    Loads (GreedyBalance.give load e.2.workerPtr) (ws.store w) := by
  intro v' hv'
  obtain ⟨v, hv, rfl⟩ := List.mem_map.1 hv'
  split_ifs with hvw
  · rw [hptr, GreedyBalance.give, Function.update_self, hload e.2 hmem, hqueue, List.length_append]
    rfl
  · rw [GreedyBalance.give, Function.update_of_ne (hptr ▸ hvw), hload v hv]

/-- A job for one worker and then the others are the jobs for all. -/
theorem queues_store (hmem : e.2 ∈ ws.list) (hidentity : w.identity = e.2.identity)
    (hqueue : w.queue = e.2.queue ++ [job]) (targets : List Nat) (jobs : List Job) :
    (ws.store w).list.map (fun v => (v.identity, v.queue ++ received v.workerPtr targets jobs)) =
      ws.list.map fun v => (v.identity,
        v.queue ++ received v.workerPtr (e.2.workerPtr :: targets) (job :: jobs)) := by
  have hptr : w.workerPtr = e.2.workerPtr := congrArg Prod.fst hidentity
  simp only [Workers.store, List.map_map]
  refine List.map_congr_left fun v hv => ?_
  rw [Function.comp_apply]
  by_cases hvw : v.workerPtr = w.workerPtr
  · obtain rfl := ws.eq_of_workerPtr_eq hv hmem (hvw.trans hptr)
    rw [if_pos hvw, hidentity, hqueue, hptr, received_cons_self, List.append_assoc]
    rfl
  · rw [if_neg hvw, received_cons_of_ne (hptr ▸ Ne.symm hvw)]

end Round

/-- **The loop** moves all jobs when there is a worker to move them to. -/
theorem moveJobs_spec (times : Nat → CpuTimes) {bins : Set Nat} (hbins : bins.Nonempty)
    {jobs : List Job} {map : WorkerMap Job} {ws : Workers Job} {load : Nat → Nat}
    (hholds : Holds map ws bins) (hload : Loads load ws) :
    (moveJobs times jobs map ws).2 = [] ∧
      ∃ targets, Moved bins load jobs ws (moveJobs times jobs map ws).1 targets := by
  induction jobs generalizing map ws load with
  | nil =>
      refine ⟨rfl, [], rfl, trivial, ?_, hload⟩
      simp only [received_nil, List.append_nil]
      rfl
  | cons job jobs ih =>
      cases map with
      | nil =>
          obtain ⟨p, hp⟩ := hbins
          obtain ⟨e, he, -⟩ := (hholds.bins p).1 hp
          exact absurd he List.not_mem_nil
      | cons e map =>
          have hmem := hholds.mem e List.mem_cons_self
          let w := (e.2.emplace job).showing (times jobs.length)
          obtain ⟨hempty, targets, hmoved⟩ :=
            ih (hholds.round (w := w) rfl) (loads_store (w := w) hload hmem rfl rfl)
          refine ⟨hempty, e.2.workerPtr :: targets, congrArg Nat.succ hmoved.placed,
            ⟨(hholds.bins _).2 ⟨e, List.mem_cons_self, rfl⟩, hholds.least hload, hmoved.greedy⟩,
            ?_, hmoved.loads⟩
          exact hmoved.queues.trans (queues_store (w := w) hmem rfl rfl targets jobs)

/-! ## Rebalancing -/

/-- A worker that is left has the identity of one that was there. -/
theorem exists_of_queues (s s' : WorkerSet Job) {targets : List Nat} {jobs : List Job}
    (h : s'.workers.list.map (fun w => (w.identity, w.queue)) =
      s.workers.list.map fun w => (w.identity, w.queue ++ received w.workerPtr targets jobs))
    {w : Worker Job} (hw : w ∈ s'.workers.list) :
    ∃ v ∈ s.workers.list, v.identity = w.identity := by
  have hin : (w.identity, w.queue) ∈ s'.workers.list.map fun w => (w.identity, w.queue) :=
    List.mem_map.2 ⟨w, hw, rfl⟩
  rw [h] at hin
  obtain ⟨v, hv, heq⟩ := List.mem_map.1 hin
  exact ⟨v, hv, congrArg Prod.fst heq⟩

theorem eligible_congr {v w : Worker Job} (h : v.identity = w.identity) (sysNow : Int)
    (expectWorkers : Nat) :
    v.Eligible sysNow expectWorkers ↔ w.Eligible sysNow expectWorkers := by
  simp only [Worker.identity, Prod.mk.injEq] at h
  obtain ⟨-, hid, hstatus, hcreated⟩ := h
  simp only [Worker.Eligible, WorkerPool.Worker.isExiting, WorkerPool.Worker.isLeaked, hid, hstatus,
    hcreated]

/-! ## Lists as the pool keeps them -/

theorem dense_emplaceBack {ws : Workers Job}
    (h : WorkerPool.Dense (ws.list.map Worker.toWorker)) (alloc : Allocator) (sysNow : Int) :
    WorkerPool.Dense ((ws.emplaceBack alloc sysNow).list.map Worker.toWorker) := by
  intro i w hw
  rw [Workers.emplaceBack, List.map_append, List.getElem?_append, List.length_map] at hw
  split_ifs at hw with hi
  · exact h i w hw
  · obtain ⟨hlt, rfl⟩ := List.getElem?_eq_some_iff.1 hw
    rw [List.length_map, List.length_singleton] at hlt
    have hlast : i = ws.list.length := by omega
    subst hlast
    simp

theorem dense_create {ws : Workers Job} (h : WorkerPool.Dense (ws.list.map Worker.toWorker))
    (alloc : Allocator) (sysNow : Int) (missing : Nat) :
    WorkerPool.Dense ((ws.create alloc sysNow missing).list.map Worker.toWorker) := by
  induction missing generalizing ws with
  | zero => exact h
  | succ missing ih => exact ih (dense_emplaceBack h alloc sysNow)

/-- Dense ids ascend, before and after missing workers are created. -/
theorem eligibleFirst_of_dense {s : WorkerSet Job}
    (h : WorkerPool.Dense (s.workers.list.map Worker.toWorker)) (alloc : Allocator)
    (sysNow : Int) : (s.scaled alloc sysNow).EligibleFirst sysNow := by
  have hdense : WorkerPool.Dense ((s.scaled alloc sysNow).workers.list.map Worker.toWorker) := by
    unfold WorkerSet.scaled WorkerSet.doScalingUp
    split_ifs
    · exact h
    · exact dense_create h alloc sysNow _
    · exact h
  have hid : ∀ (i : Nat) (hi : i < (s.scaled alloc sysNow).workers.list.length),
      ((s.scaled alloc sysNow).workers.list[i]).workerId = i + 1 := by
    intro i hi
    refine hdense i _ ?_
    rw [List.getElem?_map, List.getElem?_eq_getElem hi]
    rfl
  refine List.Pairwise.filter _ (List.pairwise_iff_getElem.2 fun i j hi hj hij => ?_)
  simp only [decide_eq_true_eq, hid i hi, hid j hj]
  omega

/-! ## Rebalancing -/

/-- The keys of distinct workers are in a strict total order, whatever they contain. -/
structure StrictTotal : Prop where
  irrefl : ∀ k : WorkerCompareKey, ¬ k.lt k
  trans : ∀ k l m : WorkerCompareKey, k.lt l → l.lt m → k.lt m
  total : ∀ k l : WorkerCompareKey, k.workerPtr ≠ l.workerPtr → k.lt l ∨ l.lt k

theorem strictTotal : StrictTotal :=
  ⟨WorkerCompareKey.lt_irrefl, fun _ _ _ => WorkerCompareKey.lt_trans,
    fun _ _ => WorkerCompareKey.lt_or_lt⟩

/-- **Rebalancing is complete and balanced** when the workers that the loop looks at are all the
    eligible ones and there is one. -/
theorem rebalanceJobs_balanced (alloc : Allocator) (times : Nat → CpuTimes) (sysNow : Int)
    (s : WorkerSet Job) (hfirst : (s.scaled alloc sysNow).EligibleFirst sysNow)
    (hsome : ∃ w ∈ (s.scaled alloc sysNow).workers.list,
      w.Eligible sysNow (s.scaled alloc sysNow).currentExpectWorkers) :
    StrictTotal ∧ ∃ targets, Rebalanced (s.scaled alloc sysNow)
      (s.rebalanceJobs alloc times sysNow) targets sysNow := by
  obtain ⟨load, hload⟩ := exists_loads (s.scaled alloc sysNow).workers
  have hbins : {p | ∃ w ∈ (s.scaled alloc sysNow).workers.list, w.workerPtr = p ∧
      w.Eligible sysNow (s.scaled alloc sysNow).currentExpectWorkers}.Nonempty := by
    obtain ⟨w, hw, heligible⟩ := hsome
    exact ⟨w.workerPtr, w, hw, rfl, heligible⟩
  obtain ⟨hempty, targets, hmoved⟩ := moveJobs_spec times hbins (holds_collect hfirst) hload
  refine ⟨strictTotal, targets, hmoved.placed, fun p hp => hmoved.greedy.mem_bins hp,
    hmoved.queues, hempty, ?_, ?_⟩
  · intro w hw hnot
    refine received_eq_nil (fun hp => hnot ?_) _
    obtain ⟨v, hv, hptr, heligible⟩ := hmoved.greedy.mem_bins hp
    rwa [← Workers.eq_of_workerPtr_eq _ hv hw hptr]
  · intro a ha hgiven b hb heligible
    obtain ⟨v, hv, hidentity⟩ := exists_of_queues _ (s.rebalanceJobs alloc times sysNow)
      hmoved.queues hb
    rw [← hmoved.loads a ha, ← hmoved.loads b hb]
    refine hmoved.greedy.balanced hgiven ⟨v, hv, congrArg Prod.fst hidentity, ?_⟩
    rwa [eligible_congr hidentity]

/-- The first address above all that are used. -/
def nextAddress : Allocator where
  address used := used.foldr max 0 + 1
  fresh := by
    intro used h
    have hle : ∀ (used : List Nat), ∀ a ∈ used, a ≤ used.foldr max 0 := by
      intro used
      induction used with
      | nil => simp
      | cons b used ih =>
          intro a ha
          rcases List.mem_cons.1 ha with rfl | ha
          · exact Nat.le_max_left _ _
          · exact (ih a ha).trans (Nat.le_max_right _ _)
    exact absurd (hle used _ h) (Nat.not_succ_le_self _)

/-- Three jobs wait for two workers that are to be created. -/
def threeJobs : WorkerSet Nat :=
  { needScalingUp := true, workers := ⟨[], List.nodup_nil⟩, sharedJobs := [10, 11, 12] }

theorem rebalanceJobs_balanced_threeJobs : StrictTotal ∧ ∃ targets,
    Rebalanced (threeJobs.scaled nextAddress 0)
      (threeJobs.rebalanceJobs nextAddress (fun _ => {}) 0) targets 0 := by
  refine rebalanceJobs_balanced nextAddress (fun _ => {}) 0 threeJobs
    (eligibleFirst_of_dense (fun i w hw => by simp [threeJobs] at hw) nextAddress 0) ?_
  refine ⟨_, List.mem_cons_self, ?_⟩
  exact ⟨rfl, by decide⟩

example : ((threeJobs.rebalanceJobs nextAddress (fun _ => {}) 0).workers.list.map
    fun w => (w.workerId, w.queue)) = [(1, [10, 12]), (2, [11])] := by decide

/-- A worker that runs. -/
def runningWorker (workerId workerPtr : Nat) : Worker Nat :=
  { workerId, workerPtr, status := .kRunning, createdTime := 0, queue := [], counted := rfl }

/-- A worker with an id above the count stands before the only one within it. -/
def outOfOrder : WorkerSet Nat :=
  { currentExpectWorkers := 3
    workers := ⟨[runningWorker 5 1, runningWorker 1 2], by decide⟩
    sharedJobs := [10] }

/-- The loop over the workers ends at the first id above the count, and the job stays shared. -/
theorem not_rebalanced_outOfOrder :
    ¬ ∀ (alloc : Allocator) (times : Nat → CpuTimes) (sysNow : Int) (s : WorkerSet Nat),
      (∃ w ∈ (s.scaled alloc sysNow).workers.list,
        w.Eligible sysNow (s.scaled alloc sysNow).currentExpectWorkers) →
      StrictTotal ∧ ∃ targets, Rebalanced (s.scaled alloc sysNow)
        (s.rebalanceJobs alloc times sysNow) targets sysNow := by
  intro h
  have hsome : ∃ w ∈ (outOfOrder.scaled nextAddress 0).workers.list,
      w.Eligible 0 (outOfOrder.scaled nextAddress 0).currentExpectWorkers :=
    ⟨runningWorker 1 2, List.mem_cons_of_mem _ List.mem_cons_self, rfl, by decide⟩
  obtain ⟨-, targets, hrebalanced⟩ := h nextAddress (fun _ => {}) 0 outOfOrder hsome
  have hleft : (outOfOrder.rebalanceJobs nextAddress (fun _ => {}) 0).sharedJobs = [10] := by
    decide
  exact absurd (hleft.symm.trans hrebalanced.emptied) (by decide)

end LibAtapp.Rebalance
