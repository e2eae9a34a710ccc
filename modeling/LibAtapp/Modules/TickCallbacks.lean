import LibAtapp.Modules.WorkerIds

set_option autoImplicit false

/-! # The worker pool: tick callbacks

`add_tick_callback` and `remove_tick_callback` over the threads of `LibAtapp.Modules.WorkerJobs`. A
call selects a worker in one step and changes its list in another, after a `doScalingUp` of its own,
and a worker walks its list one callback after the other; all of that interleaves with the steps of
the pool. A worker with callbacks leaves its loop only when the pool is cleaned up. The lock on a
list is not modelled, so that there are more interleavings here than in the source. -/

namespace LibAtapp.TickCallbacks

open WorkerJobs

/-- `worker_tick_handle_type` -/
inductive TickHandleType
  | kWorkerTickHandleAny
  | kWorkerTickHandleSpecify
deriving DecidableEq, Repr

/-- `worker_tick_action_handle_data`. A callback is the number of its handle, an owner the worker
    with the list, and `iter` is `none` at the end of the list. -/
structure TickHandle where
  type : TickHandleType := .kWorkerTickHandleAny
  specifyWorker : Nat := 0
  version : Nat := 0
  iter : Option Nat := none
  owner : Nat
deriving DecidableEq, Repr

/-- `worker_tick_action_container_type` of a worker, with the callback it is calling. -/
structure TickHandles where
  version : Nat := 1
  data : List Nat := []
  calling : Option Nat := none
deriving DecidableEq, Repr

/-- The pool with the callbacks of its workers. -/
structure TickPool where
  pool : Pool
  tickHandles : Nat → TickHandles := fun _ => {}
  /-- all handles that were returned -/
  handles : List TickHandle := []
  /-- the calls of `add_tick_callback` that have selected a worker -/
  adding : Nat → Option Nat := fun _ => none
  /-- the calls of `remove_tick_callback` that have selected a worker, by handle and worker -/
  removing : Nat → Option (Nat × Nat) := fun _ => none
  /-- the handles for which `remove_tick_callback` has returned true -/
  removed : List Nat := []
  /-- the callbacks in the order they were called -/
  called : List Nat := []

/-- One operation of one thread. -/
inductive Step
  | pool (a : WorkerJobs.Step)
  | addSelect (call workerId : Nat) (leaked : Nat → Bool)
  | addInsert (call : Nat)
  | removeSelect (call handle : Nat) (leaked : Nat → Bool)
  | removeErase (call : Nat)
  | callFirst (w : Nat)
  | callNext (w : Nat)

/-- `select_worker(context, output)` after its `do_scaling_up`. -/
def selectWorker (s : Pool) (workerId : Nat) (leaked : Nat → Bool) : Option Nat :=
  if workerId = 0 ∨ workerId > s.currentExpectWorkers then none
  else
    let byIndex := s.workers[workerId - 1]?.filter fun w => s.idOf w = workerId
    let found := byIndex <|> s.workers.find? fun w => s.idOf w = workerId
    found.filter fun w => !(s.thread w).isExiting (leaked w)

namespace TickPool

variable (s : TickPool)

/-- A list of a worker has changed. -/
def setList (w : Nat) (ticks : TickHandles) : TickPool :=
  { s with tickHandles := Function.update s.tickHandles w ticks }

/-- `worker::add_tick_callback` -/
def insertCallback (w : Nat) : TickPool :=
  let ticks := s.tickHandles w
  { s.setList w { ticks with data := ticks.data ++ [s.handles.length] } with
    handles := s.handles ++ [{
      type := .kWorkerTickHandleSpecify
      specifyWorker := s.pool.idOf w
      version := ticks.version
      iter := some s.handles.length
      owner := w }] }

/-- `worker::remove_tick_callback` -/
def eraseCallback (h w : Nat) : Bool × TickPool :=
  let ticks := s.tickHandles w
  match s.handles[h]? with
  | none => (false, s)
  | some handle =>
    if handle.owner ≠ w then (false, s)
    else if handle.version ≠ ticks.version then
      (false, { s with handles := s.handles.set h { handle with iter := none } })
    else match handle.iter with
      | none => (false, s)
      | some callback =>
        (true, { s.setList w { ticks with data := ticks.data.erase callback } with
          handles := s.handles.set h { handle with iter := none, version := 0 }
          removed := h :: s.removed })

/-- What `remove_tick_callback` selects before it erases. -/
def removeTarget (h : Nat) (leaked : Nat → Bool) : Option Nat :=
  match s.handles[h]? with
  | none => none
  | some handle =>
    if handle.type ≠ .kWorkerTickHandleSpecify then none
    else selectWorker s.pool handle.specifyWorker leaked

/-- `remove_tick_callback` with nothing between its steps. -/
def removeTickCallback (h : Nat) (leaked : Nat → Bool) : Bool × TickPool :=
  match s.removeTarget h leaked with
  | none => (false, s)
  | some w => s.eraseCallback h w

/-- The walk of a worker over its list comes to a callback, or to the end. -/
def visit (w : Nat) (callback : Option Nat) : TickPool :=
  { s.setList w { s.tickHandles w with calling := callback } with
    called := s.called ++ callback.toList }

/-- The callback after another one in a list. -/
def next (data : List Nat) (callback : Nat) : Option Nat :=
  ((data.dropWhile (· ≠ callback)).drop 1).head?

/-- A worker leaves its loop at the top of a round, and with callbacks only when the pool is
    cleaned up. -/
def mayAct : WorkerJobs.Step → Bool
  | .workerLeave w =>
    (s.tickHandles w).calling = none ∧ (s.pool.cleaning ∨ (s.tickHandles w).data = [])
  | _ => true

/-- One operation; a step that is not possible changes nothing. -/
def step (s : TickPool) : Step → TickPool
  | .pool a => if s.mayAct a then { s with pool := s.pool.step a } else s
  | .addSelect call workerId leaked =>
    { s with adding := Function.update s.adding call (selectWorker s.pool workerId leaked) }
  | .addInsert call =>
    match s.adding call with
    | none => s
    | some w => { s.insertCallback w with adding := Function.update s.adding call none }
  | .removeSelect call h leaked =>
    { s with removing :=
        Function.update s.removing call ((s.removeTarget h leaked).map fun w => (h, w)) }
  | .removeErase call =>
    match s.removing call with
    | none => s
    | some (h, w) =>
      { (s.eraseCallback h w).2 with removing := Function.update s.removing call none }
  | .callFirst w =>
    if s.pool.phase w = .running ∧ (s.tickHandles w).calling = none then
      s.visit w (s.tickHandles w).data.head?
    else s
  | .callNext w =>
    match (s.tickHandles w).calling with
    | none => s
    | some callback => s.visit w (next (s.tickHandles w).data callback)

/-- A pool that is constructed. -/
def start (queueSizeLimit : Nat) : TickPool := { pool := Pool.construct queueSizeLimit }

/-! ## What should hold -/

/-- The thread of a worker has not ended. -/
def Alive (w : Nat) : Prop := s.pool.phase w ≠ .exited

/-- No callback is erased while it is being called: the walk would go on from an iterator that is
    not valid any more. -/
def OutsideItself : Step → Prop
  | .removeErase call => ∀ h w, s.removing call = some (h, w) → (s.tickHandles w).calling ≠ some h
  | _ => True

/-- Removing a handle returns true, erases its callback and no other one; and whatever happens then,
    the callback is not called and removing the handle again returns false. -/
structure Releases (h : Nat) (leaked : Nat → Bool) : Prop where
  returnsTrue : (s.removeTickCallback h leaked).1 = true
  erased : ∀ w, ((s.removeTickCallback h leaked).2.tickHandles w).data =
    (s.tickHandles w).data.erase h
  silent : ∀ later, Run.StepsMeet step OutsideItself (s.removeTickCallback h leaked).2 later →
    ∃ calls, (Run.run step (s.removeTickCallback h leaked).2 later).called = s.called ++ calls ∧
      h ∉ calls
  once : ∀ later, Run.StepsMeet step OutsideItself (s.removeTickCallback h leaked).2 later →
    ∀ leaked', ((Run.run step (s.removeTickCallback h leaked).2 later).removeTickCallback
      h leaked').1 = false

/-- The worker with the callback is listed, is not exiting, and still has the id that it had when
    the callback was added, within the expected count. -/
structure Selectable (handle : TickHandle) (leaked : Nat → Bool) : Prop where
  listed : handle.owner ∈ s.pool.workers
  sameId : s.pool.idOf handle.owner = handle.specifyWorker
  expected : handle.specifyWorker ≤ s.pool.currentExpectWorkers
  notExiting : (s.pool.thread handle.owner).isExiting (leaked handle.owner) = false

/-- A handle that can still be asked to remove the callback of a thread that goes on. -/
structure Pending (h : Nat) (handle : TickHandle) : Prop where
  issued : s.handles[h]? = some handle
  notRemoved : h ∉ s.removed
  alive : s.Alive handle.owner
  outside : (s.tickHandles handle.owner).calling ≠ some h

/-- The callbacks of live workers can be removed. -/
def AllReleased : Prop := ∀ h handle leaked, s.Pending h handle → s.Releases h leaked

/-- The callbacks that can be removed are exactly those of workers that can be selected. -/
def ReleasedIfSelectable : Prop :=
  ∀ h handle leaked, s.Pending h handle → (s.Releases h leaked ↔ s.Selectable handle leaked)

variable {s}

/-! ## Selecting -/

/-- In a numbered pool the worker with an id is the one at its position. -/
theorem selectWorker_eq_some_iff {p : Pool} (hp : p.Numbered) {workerId w : Nat}
    {leaked : Nat → Bool} : selectWorker p workerId leaked = some w ↔
      w ∈ p.workers ∧ p.idOf w = workerId ∧ workerId ≤ p.currentExpectWorkers ∧
        (p.thread w).isExiting (leaked w) = false := by
  unfold selectWorker
  constructor
  · intro h
    split_ifs at h with hrange
    simp only [Option.filter_eq_some_iff, Option.orElse_eq_orElse, Option.orElse_eq_or,
      Option.or_eq_some_iff] at h
    obtain ⟨hfound, hexiting⟩ := h
    have hin : w ∈ p.workers ∧ p.idOf w = workerId := by
      rcases hfound with hindex | ⟨-, hfound⟩
      · exact ⟨List.mem_iff_getElem?.2 ⟨_, hindex.1⟩, by simpa using hindex.2⟩
      · exact ⟨List.mem_of_find?_eq_some hfound, by simpa using List.find?_some hfound⟩
    exact ⟨hin.1, hin.2, by omega, by simpa using hexiting⟩
  · rintro ⟨hw, rfl, hle, hexiting⟩
    obtain ⟨i, hi⟩ := List.mem_iff_getElem?.1 hw
    have hid := hp.dense i w hi
    have hindex : p.workers[p.idOf w - 1]? = some w := by
      rw [hid]
      exact hi
    rw [if_neg (by omega), hindex]
    simp [hexiting]

/-! ## What holds in every state -/

/-- A handle refers to its callback in the list of its worker until it is removed, and every
    callback of a list is one of those. -/
structure Kept (s : TickPool) : Prop where
  numbered : s.pool.Numbered
  version : ∀ w, (s.tickHandles w).version = 1
  listed : ∀ w, ∀ n ∈ (s.tickHandles w).data, ∃ handle, s.handles[n]? = some handle ∧
    handle.owner = w
  distinct : ∀ w, (s.tickHandles w).data.Nodup
  handle : ∀ h handle, s.handles[h]? = some handle → handle.type = .kWorkerTickHandleSpecify ∧
    (h ∉ s.removed → handle.iter = some h ∧ handle.version = 1 ∧
      h ∈ (s.tickHandles handle.owner).data) ∧
    (h ∈ s.removed → handle.iter = none ∧ h ∉ (s.tickHandles handle.owner).data)
  issued : ∀ h ∈ s.removed, h < s.handles.length
  calling : ∀ w n, (s.tickHandles w).calling = some n → n ∈ (s.tickHandles w).data

theorem kept_start (queueSizeLimit : Nat) : Kept (start queueSizeLimit) where
  numbered := Pool.numbered_construct queueSizeLimit
  version _ := rfl
  listed _ _ hn := absurd hn List.not_mem_nil
  distinct _ := List.nodup_nil
  handle h handle hh := by simp [start] at hh
  issued _ hh := absurd hh List.not_mem_nil
  calling _ _ hn := by simp [start] at hn

theorem setList_self (s : TickPool) (w : Nat) (ticks : TickHandles) :
    (s.setList w ticks).tickHandles w = ticks := Function.update_self ..

theorem setList_of_ne {v w : Nat} (h : v ≠ w) (ticks : TickHandles) :
    (s.setList w ticks).tickHandles v = s.tickHandles v := Function.update_of_ne h ..

/-- The handle that `worker::add_tick_callback` returns is new. -/
theorem Kept.insertCallback (h : Kept s) (w : Nat) : Kept (s.insertCallback w) := by
  have hnew : ∀ v, s.handles.length ∉ (s.tickHandles v).data := by
    intro v hin
    obtain ⟨handle, hhandle, -⟩ := h.listed v _ hin
    simp at hhandle
  have hlists : ∀ v n, n ∈ ((s.insertCallback w).tickHandles v).data ↔
      n ∈ (s.tickHandles v).data ∨ (v = w ∧ n = s.handles.length) := by
    intro v n
    show n ∈ ((s.setList w _).tickHandles v).data ↔ _
    by_cases hv : v = w
    · subst hv
      rw [setList_self]
      simp
    · rw [setList_of_ne hv]
      simp [hv]
  have hothers : ∀ v, ((s.insertCallback w).tickHandles v).version = (s.tickHandles v).version ∧
      ((s.insertCallback w).tickHandles v).calling = (s.tickHandles v).calling := by
    intro v
    show ((s.setList w _).tickHandles v).version = _ ∧ ((s.setList w _).tickHandles v).calling = _
    by_cases hv : v = w
    · subst hv
      rw [setList_self]
      exact ⟨rfl, rfl⟩
    · rw [setList_of_ne hv]
      exact ⟨rfl, rfl⟩
  refine ⟨h.numbered, fun v => (hothers v).1.trans (h.version v), fun v n hn => ?_, fun v => ?_,
    fun n handle hhandle => ?_, fun n hn => ?_, fun v n hn => ?_⟩
  · rcases (hlists v n).1 hn with hold | ⟨rfl, rfl⟩
    · obtain ⟨handle, hhandle, howner⟩ := h.listed v n hold
      refine ⟨handle, ?_, howner⟩
      show (s.handles ++ [_])[n]? = some handle
      rw [List.getElem?_append_left (List.getElem?_eq_some_iff.1 hhandle).1]
      exact hhandle
    · exact ⟨_, List.getElem?_concat_length, rfl⟩
  · show ((s.setList w _).tickHandles v).data.Nodup
    by_cases hv : v = w
    · subst hv
      rw [setList_self]
      refine List.nodup_append.2 ⟨h.distinct v, List.pairwise_singleton _ _, ?_⟩
      intro a ha b hb hab
      rw [List.mem_singleton.1 hb] at hab
      exact hnew v (hab ▸ ha)
    · rw [setList_of_ne hv]
      exact h.distinct v
  · have hhandle' : (s.handles ++ [_])[n]? = some handle := hhandle
    rw [List.getElem?_append] at hhandle'
    split_ifs at hhandle' with hlt
    · obtain ⟨htype, hkept, hgone⟩ := h.handle n handle hhandle'
      refine ⟨htype, fun hn => ?_, fun hn => ?_⟩
      · obtain ⟨hiter, hversion, hin⟩ := hkept hn
        exact ⟨hiter, hversion, (hlists _ _).2 (Or.inl hin)⟩
      · obtain ⟨hiter, hout⟩ := hgone hn
        refine ⟨hiter, fun hin => ?_⟩
        rcases (hlists _ _).1 hin with hin | ⟨-, heq⟩
        · exact hout hin
        · omega
    · -- the new handle
      obtain ⟨hpos, rfl⟩ := List.getElem?_eq_some_iff.1 hhandle'
      rw [List.length_singleton] at hpos
      have hn : n = s.handles.length := by omega
      subst hn
      simp only [Nat.sub_self, List.getElem_cons_zero]
      refine ⟨trivial, fun _ => ⟨trivial, h.version w, (hlists _ _).2 (Or.inr ⟨rfl, rfl⟩)⟩,
        fun hn => ?_⟩
      exact absurd (h.issued _ hn) (Nat.lt_irrefl _)
  · have hlt := h.issued n hn
    show n < (s.handles ++ [_]).length
    rw [List.length_append]
    exact Nat.lt_add_right _ hlt
  · rw [(hothers v).2] at hn
    exact (hlists v n).2 (Or.inl (h.calling v n hn))

/-- The pool after a callback is erased. -/
def erased (s : TickPool) (h : Nat) (handle : TickHandle) : TickPool :=
  let ticks := s.tickHandles handle.owner
  { s.setList handle.owner { ticks with data := ticks.data.erase h } with
    handles := s.handles.set h { handle with iter := none, version := 0 }
    removed := h :: s.removed }

section Erase

variable {n w : Nat} {handle : TickHandle}

theorem Kept.eraseCallback_of_notRemoved (h : Kept s) (hhandle : s.handles[n]? = some handle)
    (hn : n ∉ s.removed) : s.eraseCallback n handle.owner = (true, s.erased n handle) := by
  obtain ⟨hiter, hversion, -⟩ := (h.handle n handle hhandle).2.1 hn
  simp [eraseCallback, erased, hhandle, hversion, h.version, hiter]

/-- The end of the list stays the end of the list. -/
theorem eraseCallback_of_iter_eq_none (hhandle : s.handles[n]? = some handle)
    (hiter : handle.iter = none) (w : Nat) : s.eraseCallback n w = (false, s) := by
  have hset : s.handles.set n { handle with iter := none } = s.handles := by
    obtain ⟨hlt, rfl⟩ := List.getElem?_eq_some_iff.1 hhandle
    rw [← hiter]
    exact List.set_getElem_self hlt
  simp only [eraseCallback, hhandle, hset]
  split_ifs
  · rfl
  · rfl
  · rw [hiter]

theorem eraseCallback_of_owner_ne (hhandle : s.handles[n]? = some handle)
    (howner : handle.owner ≠ w) : s.eraseCallback n w = (false, s) := by
  simp [eraseCallback, hhandle, howner]

theorem eraseCallback_of_none (hhandle : s.handles[n]? = none) :
    s.eraseCallback n w = (false, s) := by
  simp [eraseCallback, hhandle]

/-- Erasing either changes nothing or takes a callback away that is there. -/
theorem Kept.eraseCallback_cases (h : Kept s) (n w : Nat) : s.eraseCallback n w = (false, s) ∨
    ∃ handle, s.handles[n]? = some handle ∧ handle.owner = w ∧ n ∉ s.removed ∧
      s.eraseCallback n w = (true, s.erased n handle) := by
  cases hhandle : s.handles[n]? with
  | none => exact Or.inl (eraseCallback_of_none hhandle)
  | some handle =>
      by_cases howner : handle.owner = w
      · by_cases hn : n ∈ s.removed
        · have hiter := ((h.handle n handle hhandle).2.2 hn).1
          exact Or.inl (eraseCallback_of_iter_eq_none hhandle hiter w)
        · refine Or.inr ⟨handle, rfl, howner, hn, ?_⟩
          rw [← howner]
          exact h.eraseCallback_of_notRemoved hhandle hn
      · exact Or.inl (eraseCallback_of_owner_ne hhandle howner)

theorem erased_tickHandles (s : TickPool) (n : Nat) (handle : TickHandle) (v : Nat) :
    ((s.erased n handle).tickHandles v).version = (s.tickHandles v).version ∧
      ((s.erased n handle).tickHandles v).calling = (s.tickHandles v).calling ∧
      ((s.erased n handle).tickHandles v).data =
        if v = handle.owner then (s.tickHandles v).data.erase n else (s.tickHandles v).data := by
  show ((s.setList _ _).tickHandles v).version = _ ∧ ((s.setList _ _).tickHandles v).calling = _ ∧
    ((s.setList _ _).tickHandles v).data = _
  split_ifs with hv
  · subst hv
    rw [setList_self]
    exact ⟨rfl, rfl, rfl⟩
  · rw [setList_of_ne hv]
    exact ⟨rfl, rfl, rfl⟩

/-- A callback is in the list of its owner only. -/
theorem Kept.data_erased (h : Kept s) (hhandle : s.handles[n]? = some handle) (v : Nat) :
    ((s.erased n handle).tickHandles v).data = (s.tickHandles v).data.erase n := by
  rw [(erased_tickHandles s n handle v).2.2]
  split_ifs with hv
  · rfl
  · refine (List.erase_of_not_mem fun hin => hv ?_).symm
    obtain ⟨handle', hhandle', howner⟩ := h.listed v n hin
    rw [hhandle] at hhandle'
    exact (Option.some.inj hhandle' ▸ howner).symm

/-- A callback that is not being called is erased and nothing else. -/
theorem Kept.erased (h : Kept s) (hhandle : s.handles[n]? = some handle)
    (hout : (s.tickHandles handle.owner).calling ≠ some n) : Kept (s.erased n handle) := by
  have hdata := h.data_erased hhandle
  have hothers := erased_tickHandles s n handle
  refine ⟨h.numbered, fun v => (hothers v).1.trans (h.version v), fun v m hm => ?_, fun v => ?_,
    fun m other hother => ?_, fun m hm => ?_, fun v m hm => ?_⟩
  · rw [hdata] at hm
    obtain ⟨other, hother, howner⟩ := h.listed v m (List.mem_of_mem_erase hm)
    have hne : m ≠ n := by
      rintro rfl
      exact (h.distinct v).not_mem_erase hm
    refine ⟨other, ?_, howner⟩
    show (s.handles.set n _)[m]? = some other
    rw [List.getElem?_set_ne (Ne.symm hne)]
    exact hother
  · rw [hdata]
    exact (h.distinct v).erase n
  · have hother' : (s.handles.set n _)[m]? = some other := hother
    by_cases hmn : m = n
    · subst hmn
      have hlt := (List.getElem?_eq_some_iff.1 hhandle).1
      rw [List.getElem?_set_self hlt] at hother'
      obtain rfl := Option.some.inj hother'
      refine ⟨(h.handle m handle hhandle).1, fun hm => absurd List.mem_cons_self hm, fun _ => ?_⟩
      refine ⟨rfl, fun hin => ?_⟩
      rw [hdata] at hin
      exact (h.distinct _).not_mem_erase hin
    · rw [List.getElem?_set_ne (Ne.symm hmn)] at hother'
      obtain ⟨htype, hkept, hgone⟩ := h.handle m other hother'
      refine ⟨htype, fun hm => ?_, fun hm => ?_⟩
      · obtain ⟨hiter, hversion, hin⟩ := hkept fun hm' => hm (List.mem_cons_of_mem n hm')
        refine ⟨hiter, hversion, ?_⟩
        rw [hdata]
        exact (List.mem_erase_of_ne hmn).2 hin
      · obtain ⟨hiter, hnot⟩ := hgone ((List.mem_cons.1 hm).resolve_left hmn)
        refine ⟨hiter, fun hin => hnot ?_⟩
        rw [hdata] at hin
        exact List.mem_of_mem_erase hin
  · show m < (s.handles.set n _).length
    rw [List.length_set]
    rcases List.mem_cons.1 hm with rfl | hm
    · exact (List.getElem?_eq_some_iff.1 hhandle).1
    · exact h.issued m hm
  · rw [(hothers v).2.1] at hm
    have hin := h.calling v m hm
    have hne : m ≠ n := by
      rintro rfl
      obtain ⟨other, hother, howner⟩ := h.listed v m hin
      rw [hhandle] at hother
      obtain rfl := Option.some.inj hother
      exact hout (howner ▸ hm)
    rw [hdata]
    exact (List.mem_erase_of_ne hne).2 hin

end Erase

/-! ## Walking a list -/

theorem next_mem {data : List Nat} {n m : Nat} (h : next data n = some m) : m ∈ data := by
  rw [next, List.head?_eq_some_iff] at h
  obtain ⟨rest, hrest⟩ := h
  have hin : m ∈ (data.dropWhile (· ≠ n)).drop 1 := by
    rw [hrest]
    exact List.mem_cons_self
  exact (List.dropWhile_suffix _).subset (List.mem_of_mem_drop hin)

/-- The walk of a worker comes to a callback of its list. -/
theorem Kept.visit (h : Kept s) {w : Nat} {callback : Option Nat}
    (hin : ∀ n ∈ callback, n ∈ (s.tickHandles w).data) : Kept (s.visit w callback) := by
  have hlists : ∀ v, ((s.visit w callback).tickHandles v).data = (s.tickHandles v).data ∧
      ((s.visit w callback).tickHandles v).version = (s.tickHandles v).version ∧
      ((s.visit w callback).tickHandles v).calling =
        if v = w then callback else (s.tickHandles v).calling := by
    intro v
    show ((s.setList w _).tickHandles v).data = _ ∧ ((s.setList w _).tickHandles v).version = _ ∧
      ((s.setList w _).tickHandles v).calling = _
    split_ifs with hv
    · subst hv
      rw [setList_self]
      exact ⟨rfl, rfl, rfl⟩
    · rw [setList_of_ne hv]
      exact ⟨rfl, rfl, rfl⟩
  refine ⟨h.numbered, fun v => (hlists v).2.1.trans (h.version v), fun v n hn => ?_, fun v => ?_,
    fun n handle hhandle => ?_, h.issued, fun v n hn => ?_⟩
  · rw [(hlists v).1] at hn
    exact h.listed v n hn
  · rw [(hlists v).1]
    exact h.distinct v
  · rw [(hlists _).1]
    exact h.handle n handle hhandle
  · rw [(hlists v).1]
    rw [(hlists v).2.2] at hn
    split_ifs at hn with hv
    · subst hv
      exact hin n hn
    · exact h.calling v n hn

theorem Kept.step (h : Kept s) {a : Step} (hout : s.OutsideItself a) : Kept (s.step a) := by
  cases a with
  | pool a =>
      rw [TickPool.step]
      split_ifs
      · exact ⟨h.numbered.step a, h.version, h.listed, h.distinct, h.handle, h.issued, h.calling⟩
      · exact h
  | addSelect call workerId leaked =>
      exact ⟨h.numbered, h.version, h.listed, h.distinct, h.handle, h.issued, h.calling⟩
  | addInsert call =>
      rw [TickPool.step]
      cases s.adding call with
      | none => exact h
      | some w =>
          have hkept := h.insertCallback w
          exact ⟨hkept.numbered, hkept.version, hkept.listed, hkept.distinct, hkept.handle,
            hkept.issued, hkept.calling⟩
  | removeSelect call n leaked =>
      exact ⟨h.numbered, h.version, h.listed, h.distinct, h.handle, h.issued, h.calling⟩
  | removeErase call =>
      rw [TickPool.step]
      cases hcall : s.removing call with
      | none => exact h
      | some target =>
          obtain ⟨n, w⟩ := target
          have hkept : Kept (s.eraseCallback n w).2 := by
            rcases h.eraseCallback_cases n w with heq | ⟨handle, hhandle, rfl, -, heq⟩
            · rw [heq]
              exact h
            · rw [heq]
              exact h.erased hhandle (hout n _ hcall)
          exact ⟨hkept.numbered, hkept.version, hkept.listed, hkept.distinct, hkept.handle,
            hkept.issued, hkept.calling⟩
  | callFirst w =>
      rw [TickPool.step]
      split_ifs
      · exact h.visit fun n hn => List.mem_of_head? hn
      · exact h
  | callNext w =>
      rw [TickPool.step]
      cases (s.tickHandles w).calling with
      | none => exact h
      | some callback => exact h.visit fun n hn => next_mem hn

/-! ## A callback that is gone stays gone -/

/-- A callback that was erased, and what has been called since then. -/
structure Gone (n : Nat) (before : List Nat) (s : TickPool) : Prop where
  issued : n < s.handles.length
  iter : ∀ handle, s.handles[n]? = some handle → handle.iter = none
  unlisted : ∀ w, n ∉ (s.tickHandles w).data
  notCalling : ∀ w, (s.tickHandles w).calling ≠ some n
  called : ∃ calls, s.called = before ++ calls ∧ n ∉ calls

section Gone

variable {n : Nat} {before : List Nat}

theorem Gone.removeTickCallback_eq_false (h : Gone n before s) (leaked : Nat → Bool) :
    (s.removeTickCallback n leaked).1 = false := by
  rw [removeTickCallback]
  cases s.removeTarget n leaked with
  | none => rfl
  | some w =>
      have hhandle := List.getElem?_eq_getElem h.issued
      show (s.eraseCallback n w).1 = false
      rw [eraseCallback_of_iter_eq_none hhandle (h.iter _ hhandle)]

theorem Gone.insertCallback (h : Gone n before s) (w : Nat) :
    Gone n before (s.insertCallback w) := by
  refine ⟨?_, fun handle hhandle => ?_, fun v => ?_, fun v => ?_, h.called⟩
  · show n < (s.handles ++ [_]).length
    rw [List.length_append]
    exact Nat.lt_add_right _ h.issued
  · have hhandle' : (s.handles ++ [_])[n]? = some handle := hhandle
    rw [List.getElem?_append_left h.issued] at hhandle'
    exact h.iter handle hhandle'
  · show n ∉ ((s.setList w _).tickHandles v).data
    by_cases hv : v = w
    · subst hv
      rw [setList_self, List.mem_append, List.mem_singleton, not_or]
      exact ⟨h.unlisted v, Nat.ne_of_lt h.issued⟩
    · rw [setList_of_ne hv]
      exact h.unlisted v
  · show ((s.setList w _).tickHandles v).calling ≠ some n
    by_cases hv : v = w
    · subst hv
      rw [setList_self]
      exact h.notCalling v
    · rw [setList_of_ne hv]
      exact h.notCalling v

theorem Gone.eraseCallback (h : Gone n before s) (m w : Nat) :
    Gone n before (s.eraseCallback m w).2 := by
  unfold TickPool.eraseCallback
  cases hhandle : s.handles[m]? with
  | none => exact h
  | some handle =>
      -- whatever is set in a handle, an iterator that was at the end stays there
      have hset : ∀ version, ∀ other, (s.handles.set m
          { handle with iter := none, version := version })[n]? = some other →
          other.iter = none := by
        intro version other hother
        rw [List.getElem?_set] at hother
        split_ifs at hother with hmn hlt
        · rw [← Option.some.inj hother]
        · exact h.iter other hother
      dsimp only
      split_ifs
      · exact h
      · exact ⟨by simpa using h.issued, hset handle.version, h.unlisted, h.notCalling, h.called⟩
      · cases handle.iter with
        | none => exact h
        | some callback =>
            refine ⟨by simpa using h.issued, hset 0, fun v => ?_, fun v => ?_, h.called⟩
            · show n ∉ ((s.setList w _).tickHandles v).data
              by_cases hv : v = w
              · subst hv
                rw [setList_self]
                exact fun hin => h.unlisted v (List.mem_of_mem_erase hin)
              · rw [setList_of_ne hv]
                exact h.unlisted v
            · show ((s.setList w _).tickHandles v).calling ≠ some n
              by_cases hv : v = w
              · subst hv
                rw [setList_self]
                exact h.notCalling v
              · rw [setList_of_ne hv]
                exact h.notCalling v

theorem Gone.visit (h : Gone n before s) {w : Nat} {callback : Option Nat}
    (hin : ∀ m ∈ callback, m ∈ (s.tickHandles w).data) : Gone n before (s.visit w callback) := by
  have hnot : n ∉ callback := fun hn => h.unlisted w (hin n hn)
  refine ⟨h.issued, h.iter, fun v => ?_, fun v => ?_, ?_⟩
  · show n ∉ ((s.setList w _).tickHandles v).data
    by_cases hv : v = w
    · subst hv
      rw [setList_self]
      exact h.unlisted v
    · rw [setList_of_ne hv]
      exact h.unlisted v
  · show ((s.setList w _).tickHandles v).calling ≠ some n
    by_cases hv : v = w
    · subst hv
      rw [setList_self]
      exact hnot
    · rw [setList_of_ne hv]
      exact h.notCalling v
  · obtain ⟨calls, hcalls, hn⟩ := h.called
    refine ⟨calls ++ callback.toList, ?_, ?_⟩
    · rw [TickPool.visit, hcalls, List.append_assoc]
    · rw [List.mem_append, Option.mem_toList, not_or]
      exact ⟨hn, hnot⟩

theorem Gone.step (h : Gone n before s) (a : Step) : Gone n before (s.step a) := by
  cases a with
  | pool a =>
      rw [TickPool.step]
      split_ifs
      · exact ⟨h.issued, h.iter, h.unlisted, h.notCalling, h.called⟩
      · exact h
  | addSelect call workerId leaked =>
      exact ⟨h.issued, h.iter, h.unlisted, h.notCalling, h.called⟩
  | addInsert call =>
      rw [TickPool.step]
      cases s.adding call with
      | none => exact h
      | some w =>
          have hgone := h.insertCallback w
          exact ⟨hgone.issued, hgone.iter, hgone.unlisted, hgone.notCalling, hgone.called⟩
  | removeSelect call m leaked =>
      exact ⟨h.issued, h.iter, h.unlisted, h.notCalling, h.called⟩
  | removeErase call =>
      rw [TickPool.step]
      cases s.removing call with
      | none => exact h
      | some target =>
          have hgone := h.eraseCallback target.1 target.2
          exact ⟨hgone.issued, hgone.iter, hgone.unlisted, hgone.notCalling, hgone.called⟩
  | callFirst w =>
      rw [TickPool.step]
      split_ifs
      · exact h.visit fun m hm => List.mem_of_head? hm
      · exact h
  | callNext w =>
      rw [TickPool.step]
      cases (s.tickHandles w).calling with
      | none => exact h
      | some callback => exact h.visit fun m hm => next_mem hm

theorem Gone.run (h : Gone n before s) (later : List Step) :
    Gone n before (Run.run TickPool.step s later) :=
  Run.invariant_all TickPool.step (fun _ a hs => hs.step a) h later

end Gone

/-! ## Removing -/

theorem Kept.removeTarget_eq_some_iff (h : Kept s) {n w : Nat} {handle : TickHandle}
    (hhandle : s.handles[n]? = some handle) {leaked : Nat → Bool} :
    s.removeTarget n leaked = some w ↔ w ∈ s.pool.workers ∧
      s.pool.idOf w = handle.specifyWorker ∧
      handle.specifyWorker ≤ s.pool.currentExpectWorkers ∧
      (s.pool.thread w).isExiting (leaked w) = false := by
  have htype := (h.handle n handle hhandle).1
  rw [← selectWorker_eq_some_iff h.numbered]
  simp [removeTarget, hhandle, htype]

/-- A callback that has been erased is gone. -/
theorem Kept.gone_erased (h : Kept s) {n : Nat} {handle : TickHandle}
    (hhandle : s.handles[n]? = some handle)
    (hout : (s.tickHandles handle.owner).calling ≠ some n) :
    Gone n s.called (s.erased n handle) := by
  have hkept := h.erased hhandle hout
  have hlt := (List.getElem?_eq_some_iff.1 hhandle).1
  have hhandle' : (s.erased n handle).handles[n]? =
      some { handle with iter := none, version := 0 } := List.getElem?_set_self hlt
  have hunlisted : ∀ v, n ∉ ((s.erased n handle).tickHandles v).data := by
    intro v hin
    rw [h.data_erased hhandle] at hin
    exact (h.distinct v).not_mem_erase hin
  refine ⟨(List.getElem?_eq_some_iff.1 hhandle').1, fun other hother => ?_, hunlisted,
    fun v hcalling => hunlisted v (hkept.calling v n hcalling), [], ?_, List.not_mem_nil⟩
  · rw [hhandle'] at hother
    rw [← Option.some.inj hother]
  · exact (List.append_nil _).symm

/-- **A callback can be removed** exactly if its worker can be selected. -/
theorem Kept.releases_iff (h : Kept s) {n : Nat} {handle : TickHandle}
    (hpending : s.Pending n handle) (leaked : Nat → Bool) :
    s.Releases n leaked ↔ s.Selectable handle leaked := by
  have hhandle := hpending.issued
  constructor
  · rintro ⟨htrue, -, -, -⟩
    rw [removeTickCallback] at htrue
    cases htarget : s.removeTarget n leaked with
    | none => simp [htarget] at htrue
    | some w =>
        rw [htarget] at htrue
        obtain ⟨hlisted, hid, hexpected, hexiting⟩ :=
          (h.removeTarget_eq_some_iff hhandle).1 htarget
        rcases h.eraseCallback_cases n w with heq | ⟨handle', hhandle', howner, -, -⟩
        · simp [heq] at htrue
        · rw [hhandle] at hhandle'
          obtain rfl := Option.some.inj hhandle'
          subst howner
          exact ⟨hlisted, hid, hexpected, hexiting⟩
  · rintro ⟨hlisted, hid, hexpected, hexiting⟩
    have htarget := (h.removeTarget_eq_some_iff hhandle).2 ⟨hlisted, hid, hexpected, hexiting⟩
    have hremove : s.removeTickCallback n leaked = (true, s.erased n handle) := by
      rw [removeTickCallback, htarget]
      exact h.eraseCallback_of_notRemoved hhandle hpending.notRemoved
    have hgone := h.gone_erased hhandle hpending.outside
    refine ⟨by rw [hremove], fun w => ?_, fun later _ => ?_, fun later _ leaked' => ?_⟩
    · rw [hremove]
      exact h.data_erased hhandle w
    · rw [hremove]
      exact (hgone.run later).called
    · rw [hremove]
      exact (hgone.run later).removeTickCallback_eq_false leaked'

/-- **Callbacks of live workers** can be removed, in every state of every run, exactly as long as
    `select_worker` still finds their worker under the id that it had when they were added. -/
theorem always_releasedIfSelectable (queueSizeLimit : Nat) (steps : List Step)
    (hcond : Run.StepsMeet step OutsideItself (start queueSizeLimit) steps) :
    Run.Always step ReleasedIfSelectable (start queueSizeLimit) steps := by
  have hkept : Run.Always step Kept (start queueSizeLimit) steps :=
    Run.always_of_stepsMeet step (fun _ _ hs hout => hs.step hout) (kept_start queueSizeLimit) hcond
  exact Run.Always.mono step
    (fun _ hs _ _ leaked hpending => hs.releases_iff hpending leaked) hkept

/-- Two workers start, the second one is given a callback, and the pool is scaled down to one. -/
def scaledDownRun : List Step :=
  [.pool .doScalingUp, .pool (.workerStart 0), .pool (.workerStart 1),
    .addSelect 0 2 (fun _ => false), .addInsert 0, .callFirst 1, .callNext 1, .pool (.tickScale 1),
    .pool (.workerLeave 1)]

theorem outsideItself_scaledDownRun :
    Run.StepsMeet step OutsideItself (start 20480) scaledDownRun :=
  ⟨trivial, trivial, trivial, trivial, trivial, trivial, trivial, trivial, trivial, trivial⟩

theorem always_releasedIfSelectable_scaledDownRun :
    Run.Always step ReleasedIfSelectable (start 20480) scaledDownRun :=
  always_releasedIfSelectable 20480 scaledDownRun outsideItself_scaledDownRun

/-- The second worker goes on for its callback, and the callback cannot be removed any more. -/
theorem not_always_allReleased_scaledDownRun :
    ¬ ∀ (queueSizeLimit : Nat) (steps : List Step),
      Run.StepsMeet step OutsideItself (start queueSizeLimit) steps →
      Run.Always step AllReleased (start queueSizeLimit) steps := by
  intro h
  have hlast := (h 20480 scaledDownRun outsideItself_scaledDownRun).last step
  have hpending : (Run.run step (start 20480) scaledDownRun).Pending 0
      { type := .kWorkerTickHandleSpecify, specifyWorker := 2, version := 1, iter := some 0,
        owner := 1 } :=
    ⟨by decide, by decide, by unfold Alive; decide, by decide⟩
  have hreleases := (hlast 0 _ (fun _ => false) hpending).returnsTrue
  exact absurd hreleases (by decide)

end TickPool

end LibAtapp.TickCallbacks
