import LibAtapp.Modules.WorkerBounds

set_option autoImplicit false

/-! # Replacing workers

Workers are created by `do_scaling_up` when a flag asks for it, and removed by
`internal_reduce_workers` from the end of the list and by `internal_autofix_workers` from anywhere
in it. Ids stay dense, and the flag is set whenever workers are missing, except after a leak scan
that leaves too few workers for the count that the same tick has just scaled to: it renumbers them
and does not ask for new ones. -/

namespace LibAtapp.WorkerPool

/-! ## Dense ids -/

/-- Every worker has the id of its position. -/
def Dense (workers : List Worker) : Prop :=
  ∀ i w, workers[i]? = some w → w.workerId = i + 1

theorem Dense.of_prefix {workers longer : List Worker} (h : Dense longer)
    (hfront : workers <+: longer) : Dense workers := by
  intro i w hw
  obtain ⟨rest, rfl⟩ := hfront
  refine h i w ?_
  rw [List.getElem?_append_left (List.getElem?_eq_some_iff.1 hw).1]
  exact hw

theorem dense_renumber (workers : List Worker) : Dense (WorkerSet.renumber workers) := by
  intro i w hw
  rw [WorkerSet.renumber, List.getElem?_mapIdx] at hw
  obtain ⟨v, -, rfl⟩ := Option.map_eq_some_iff.1 hw
  rfl

/-- In a dense list the ids up to `count` are the first `count` workers. -/
theorem Dense.mem_take {workers : List Worker} (h : Dense workers) {w : Worker} {count : Nat}
    (hmem : w ∈ workers) (hid : w.workerId ≤ count) : w ∈ workers.take count := by
  obtain ⟨i, hi⟩ := List.mem_iff_getElem?.1 hmem
  have hpos := h i w hi
  refine List.mem_iff_getElem?.2 ⟨i, ?_⟩
  rw [List.getElem?_take_of_lt (by omega)]
  exact hi

/-- The lists hold the same threads in the same places: ids, status and start are the same. -/
def SameThreads (workers workers' : List Worker) : Prop :=
  workers'.map (fun w => (w.workerId, w.status, w.createdTime))
    = workers.map fun w => (w.workerId, w.status, w.createdTime)

section SameThreads

variable {workers workers' : List Worker}

theorem SameThreads.length (h : SameThreads workers workers') :
    workers'.length = workers.length := by
  have hlength := congrArg List.length h
  rwa [List.length_map, List.length_map] at hlength

/-- A worker has a counterpart in the other list. -/
theorem SameThreads.getElem? (h : SameThreads workers workers') {i : Nat} {w : Worker}
    (hw : workers'[i]? = some w) :
    ∃ v, workers[i]? = some v ∧ w.workerId = v.workerId ∧ w.status = v.status ∧
      w.createdTime = v.createdTime := by
  have hat := congrArg (·[i]?) h
  simp only [List.getElem?_map, hw, Option.map_some] at hat
  obtain ⟨v, hv, heq⟩ := Option.map_eq_some_iff.1 hat.symm
  simp only [Prod.mk.injEq] at heq
  exact ⟨v, hv, heq.1.symm, heq.2.1.symm, heq.2.2.symm⟩

theorem SameThreads.dense (h : SameThreads workers workers') (hdense : Dense workers) :
    Dense workers' := by
  intro i w hw
  obtain ⟨v, hv, hid, -⟩ := h.getElem? hw
  rw [hid]
  exact hdense i v hv

theorem isExited_congr {w v : Worker} (hstatus : w.status = v.status)
    (hcreated : w.createdTime = v.createdTime) (sysNow : Int) :
    w.isExited sysNow = v.isExited sysNow := by
  rw [Worker.isExited, Worker.isExited, Worker.isLeaked, Worker.isLeaked, hstatus, hcreated]

theorem sameThreads_map {f : Worker → Worker}
    (hf : ∀ w, (f w).workerId = w.workerId ∧ (f w).status = w.status ∧
      (f w).createdTime = w.createdTime) : SameThreads workers (workers.map f) := by
  rw [SameThreads, List.map_map]
  refine List.map_congr_left fun w _ => ?_
  rw [Function.comp_apply, (hf w).1, (hf w).2.1, (hf w).2.2]

theorem sameThreads_modify {f : Worker → Worker} (i : Nat)
    (hf : ∀ w, (f w).workerId = w.workerId ∧ (f w).status = w.status ∧
      (f w).createdTime = w.createdTime) : SameThreads workers (workers.modify i f) := by
  induction workers generalizing i with
  | nil => rw [List.modify_nil]; rfl
  | cons w workers ih =>
    cases i with
    | zero =>
      show ((f w).workerId, (f w).status, (f w).createdTime) :: _ = _ :: _
      rw [(hf w).1, (hf w).2.1, (hf w).2.2]
    | succ i =>
      show _ :: (workers.modify i f).map _ = _ :: workers.map _
      rw [ih i]

end SameThreads

namespace WorkerSet

/-! ## What the functions keep -/

/-- In a set that is not closing ids are dense, and missing workers are asked for. -/
structure Staffed (s : WorkerSet) : Prop where
  notClosing : s.closing = false
  dense : Dense s.workers
  missing : s.workers.length < s.currentExpectWorkers → s.needScalingUp = true

/-- No worker that should be there has exited. -/
def Swept (s : WorkerSet) (sysNow : Int) : Prop :=
  ∀ w ∈ s.workers, w.workerId ≤ s.currentExpectWorkers → w.isExited sysNow = false

/-- The same threads are in the same places, and the same is asked for. -/
structure SameCrew (s s' : WorkerSet) : Prop where
  threads : SameThreads s.workers s'.workers
  target : SameTarget s s'
  need : s'.needScalingUp = s.needScalingUp

variable {s s' : WorkerSet}

theorem SameCrew.trans {s'' : WorkerSet} (h : SameCrew s s') (h' : SameCrew s' s'') :
    SameCrew s s'' :=
  ⟨h'.threads.trans h.threads, h.target.trans h'.target, h'.need.trans h.need⟩

theorem Staffed.of_sameCrew (h : Staffed s) (hcrew : SameCrew s s') : Staffed s' := by
  refine ⟨hcrew.target.closing.trans h.notClosing, hcrew.threads.dense h.dense,
    fun hmissing => ?_⟩
  rw [hcrew.threads.length, hcrew.target.count] at hmissing
  rw [hcrew.need]
  exact h.missing hmissing

theorem Swept.of_sameCrew {sysNow : Int} (h : Swept s sysNow) (hcrew : SameCrew s s') :
    Swept s' sysNow := by
  intro w hw hid
  obtain ⟨i, hi⟩ := List.mem_iff_getElem?.1 hw
  obtain ⟨v, hv, hids, hstatus, hcreated⟩ := hcrew.threads.getElem? hi
  rw [isExited_congr hstatus hcreated]
  refine h v (List.mem_iff_getElem?.2 ⟨i, hv⟩) ?_
  rw [← hids, ← hcrew.target.count]
  exact hid

theorem sameCrew_emplace (s : WorkerSet) (i : Nat) : SameCrew s (s.emplace i) :=
  ⟨sameThreads_modify i fun _ => ⟨rfl, rfl, rfl⟩, ⟨rfl, rfl⟩, rfl⟩

theorem sameCrew_rebalanceLoop (candidates : List Nat) (jobs : Nat) :
    SameCrew s (rebalanceLoop candidates jobs s) := by
  induction jobs generalizing s with
  | zero => exact ⟨rfl, SameTarget.refl s, rfl⟩
  | succ jobs ih =>
    rw [rebalanceLoop]
    cases leastLoaded s.workers candidates WorkerCompareKey.max none with
    | none => exact ⟨rfl, SameTarget.refl s, rfl⟩
    | some i =>
      have hemplace := sameCrew_emplace s i
      have hgiven : SameCrew s { s.emplace i with sharedJobs := jobs } :=
        ⟨hemplace.threads, ⟨rfl, rfl⟩, hemplace.need⟩
      exact hgiven.trans ih

/-- The workers that are created continue the ids, and none has exited. -/
theorem dense_append_created (h : Dense s.workers) (sysNow : Int) :
    Dense (s.workers ++ s.created sysNow) := by
  intro i w hw
  by_cases hi : i < s.workers.length
  · rw [List.getElem?_append_left hi] at hw
    exact h i w hw
  · rw [List.getElem?_append_right (Nat.le_of_not_lt hi), created, List.getElem?_map,
      Option.map_eq_some_iff] at hw
    obtain ⟨j, hj, rfl⟩ := hw
    obtain ⟨hlt, hj⟩ := List.getElem?_eq_some_iff.1 hj
    rw [List.getElem_range'] at hj
    show j + 1 = i + 1
    omega

theorem length_append_created (s : WorkerSet) (sysNow : Int) :
    (s.workers ++ s.created sysNow).length = max s.workers.length s.currentExpectWorkers := by
  rw [List.length_append, created, List.length_map, List.length_range']
  omega

theorem isExited_of_mem_created {w : Worker} {sysNow : Int} (h : w ∈ s.created sysNow) :
    w.isExited sysNow = false := by
  obtain ⟨i, -, rfl⟩ := List.mem_map.1 h
  simp [Worker.isExited, Worker.isLeaked, seconds]

theorem Staffed.doScalingUp (h : Staffed s) (sysNow : Int) : Staffed (s.doScalingUp sysNow) := by
  unfold WorkerSet.doScalingUp
  split_ifs
  · refine ⟨h.notClosing, dense_append_created h.dense sysNow, fun hmissing => ?_⟩
    have hlength := s.length_append_created sysNow
    dsimp only at hmissing
    omega
  · exact h

/-- **Missing workers are recreated**, and the others stay. -/
theorem Staffed.recreates (h : Staffed s) (sysNow : Int)
    (hmissing : s.workers.length < s.currentExpectWorkers) :
    s.workers <+: (s.doScalingUp sysNow).workers ∧
      (s.doScalingUp sysNow).workers.length = s.currentExpectWorkers ∧
      Dense (s.doScalingUp sysNow).workers := by
  have hneed := h.missing hmissing
  have hlength := s.length_append_created sysNow
  have hworkers : (s.doScalingUp sysNow).workers = s.workers ++ s.created sysNow := by
    rw [WorkerSet.doScalingUp, if_pos hneed]
  rw [hworkers]
  exact ⟨List.prefix_append _ _, by omega, dense_append_created h.dense sysNow⟩

theorem Swept.doScalingUp {sysNow : Int} (h : Swept s sysNow) :
    Swept (s.doScalingUp sysNow) sysNow := by
  unfold WorkerSet.doScalingUp
  split_ifs
  · intro w hw hid
    obtain hold | hnew := List.mem_append.1 hw
    · exact h w hold hid
    · exact isExited_of_mem_created hnew
  · exact h

theorem Staffed.rebalanceJobs (h : Staffed s) (sysNow : Int) :
    Staffed (s.rebalanceJobs sysNow) := by
  unfold WorkerSet.rebalanceJobs
  split_ifs
  · exact h
  · exact (h.doScalingUp sysNow).of_sameCrew (sameCrew_rebalanceLoop _ _)

theorem Swept.rebalanceJobs {sysNow : Int} (h : Swept s sysNow) :
    Swept (s.rebalanceJobs sysNow) sysNow := by
  unfold WorkerSet.rebalanceJobs
  split_ifs
  · exact h
  · exact h.doScalingUp.of_sameCrew (sameCrew_rebalanceLoop _ _)

theorem Staffed.spawn (h : Staffed s) (limit : Nat) (sysNow : Int) :
    Staffed (s.spawn limit sysNow).2 := by
  have hup := h.doScalingUp sysNow
  unfold WorkerSet.spawn
  dsimp only
  split
  · exact ⟨hup.notClosing, hup.dense, hup.missing⟩
  · split_ifs
    · exact hup
    · exact hup.of_sameCrew (sameCrew_emplace _ _)

theorem Staffed.spawnTo (h : Staffed s) (limit workerId : Nat) (sysNow : Int) :
    Staffed (s.spawnTo limit workerId sysNow).2 := by
  have hup := h.doScalingUp sysNow
  unfold WorkerSet.spawnTo
  dsimp only
  split
  · exact hup
  · split_ifs
    · exact hup
    · exact hup.of_sameCrew (sameCrew_emplace _ _)

/-- Whatever a thread does, its worker stays in its place. -/
theorem Staffed.thread (h : Staffed s) (i : Nat) (progress : ThreadProgress) :
    Staffed { s with
      workers := s.workers.modify i (·.run progress), sharedJobs := progress.sharedJobs } := by
  refine ⟨h.notClosing, fun j w hw => ?_, fun hmissing => ?_⟩
  · have hw' : (s.workers.modify i (·.run progress))[j]? = some w := hw
    rw [List.getElem?_modify] at hw'
    obtain ⟨v, hv, hwv⟩ := Option.map_eq_some_iff.1 hw'
    have hid : w.workerId = v.workerId := by
      rw [← hwv]
      split_ifs
      · rw [Worker.run]
        split_ifs <;> rfl
      · rfl
    rw [hid]
    exact h.dense j v hv
  · refine h.missing ?_
    have hlength : (s.workers.modify i (·.run progress)).length = s.workers.length :=
      List.length_modify _ _ _
    rw [← hlength]
    exact hmissing

/-! ## Removing workers -/

/-- Reducing leaves a front of the list that is no shorter than it should be. -/
theorem reduceLoop_spec (sysNow : Int) (expectWorkers : Nat) (reversed : List Worker)
    (s : WorkerSet) :
    (reduceLoop sysNow expectWorkers reversed s).workers <+: reversed.reverse ∧
      min expectWorkers reversed.length
        ≤ (reduceLoop sysNow expectWorkers reversed s).workers.length ∧
      (reduceLoop sysNow expectWorkers reversed s).needScalingUp = s.needScalingUp := by
  induction reversed generalizing s with
  | nil => exact ⟨List.prefix_rfl, Nat.min_le_right _ _, rfl⟩
  | cons last front ih =>
    rw [reduceLoop]
    split_ifs with hpop
    · obtain ⟨hfront, hlength, hneed⟩ := ih (s.collectRemoved last)
      refine ⟨hfront.trans ?_, ?_, hneed⟩
      · rw [List.reverse_cons]
        exact List.prefix_append _ _
      · rw [List.length_cons]
        omega
    · refine ⟨List.prefix_rfl, ?_, rfl⟩
      show _ ≤ (last :: front).reverse.length
      rw [List.length_reverse]
      exact Nat.min_le_right _ _

theorem Staffed.internalReduceWorkers (h : Staffed s) (sysNow : Int) :
    Staffed (s.internalReduceWorkers sysNow) := by
  obtain ⟨hfront, hlength, hneed⟩ := reduceLoop_spec sysNow s.expectWorkers s.workers.reverse s
  have htarget := sameTarget_reduceLoop (s := s) sysNow s.expectWorkers s.workers.reverse
  have hexpect : s.expectWorkers = s.currentExpectWorkers := by
    rw [expectWorkers, h.notClosing]
    rfl
  rw [List.reverse_reverse] at hfront
  rw [List.length_reverse, hexpect] at hlength
  refine ⟨htarget.closing.trans h.notClosing, h.dense.of_prefix hfront, fun hmissing => ?_⟩
  rw [WorkerSet.internalReduceWorkers, hneed]
  rw [WorkerSet.internalReduceWorkers, htarget.count, hexpect] at hmissing
  -- what is left is as long as it should be, unless the list was too short before
  refine h.missing ?_
  omega

/-- The workers that have not exited. -/
def live (s : WorkerSet) (sysNow : Int) : List Worker :=
  s.workers.filter fun w => !w.isExited sysNow

theorem needScalingUp_foldl_collectRemoved (removed : List Worker) (s : WorkerSet) :
    (removed.foldl collectRemoved s).needScalingUp = s.needScalingUp := by
  induction removed generalizing s with
  | nil => rfl
  | cons w removed ih => exact ih (s.collectRemoved w)

/-- A leak scan keeps the list staffed if it finds enough live workers or new ones are asked for
    anyway. -/
theorem Staffed.internalAutofixWorkers (h : Staffed s) (sysNow : Int)
    (hlive : s.needScalingUp = true ∨ s.currentExpectWorkers ≤ (s.live sysNow).length) :
    Staffed (s.internalAutofixWorkers sysNow) := by
  have htarget := sameTarget_internalAutofixWorkers (s := s) sysNow
  refine ⟨htarget.closing.trans h.notClosing, ?_, ?_⟩
  · unfold WorkerSet.internalAutofixWorkers
    split_ifs
    · exact dense_renumber _
    · exact h.dense
  · rw [htarget.count]
    unfold WorkerSet.internalAutofixWorkers
    split_ifs
    · intro hmissing
      have hlength : (renumber (s.live sysNow)).length = (s.live sysNow).length :=
        List.length_mapIdx
      have hmissing' : (renumber (s.live sysNow)).length < s.currentExpectWorkers := hmissing
      show ((s.workers.filter (·.isExited sysNow)).foldl collectRemoved s).needScalingUp = true
      rw [needScalingUp_foldl_collectRemoved]
      exact hlive.resolve_right (by omega)
    · exact h.missing

/-- Where enough of the workers are there but not alive, some worker that should be there has
    exited. -/
theorem needAutofix_of_live (h : Staffed s) {sysNow : Int} (hneed : s.needScalingUp = false)
    (hlive : (s.live sysNow).length < s.currentExpectWorkers) :
    s.needAutofix sysNow = true := by
  have hexpect : s.expectWorkers = s.currentExpectWorkers := by
    rw [expectWorkers, h.notClosing]
    rfl
  by_contra hfix
  rw [needAutofix, hexpect, Bool.not_eq_true, List.any_eq_false] at hfix
  -- the first workers are all alive, and there are as many as there should be
  have hfront : (s.workers.take s.currentExpectWorkers).filter (fun w => !w.isExited sysNow)
      = s.workers.take s.currentExpectWorkers := by
    refine List.filter_eq_self.2 fun w hw => ?_
    simpa using hfix w hw
  have hle := ((List.take_sublist s.currentExpectWorkers s.workers).filter
    fun w => !w.isExited sysNow).length_le
  rw [hfront, List.length_take] at hle
  have hthere : ¬ s.workers.length < s.currentExpectWorkers := fun hmissing =>
    absurd (h.missing hmissing) (hneed ▸ Bool.false_ne_true)
  have hlive' : (s.workers.filter fun w => !w.isExited sysNow).length < _ := hlive
  omega

theorem sameCrew_rebalanceJobs (hneed : s.needScalingUp = false) (sysNow : Int) :
    SameCrew s (s.rebalanceJobs sysNow) := by
  have hup : s.doScalingUp sysNow = s := by
    rw [WorkerSet.doScalingUp, hneed]
    rfl
  unfold WorkerSet.rebalanceJobs
  split_ifs
  · exact ⟨rfl, SameTarget.refl s, rfl⟩
  · rw [hup]
    exact sameCrew_rebalanceLoop _ _

/-- A leak scan that finds too few live workers leaves these, and nobody asks for new ones. -/
theorem Staffed.sameCrew_rebalanceJobs_internalAutofixWorkers (h : Staffed s) {sysNow : Int}
    (hneed : s.needScalingUp = false)
    (hlive : (s.live sysNow).length < s.currentExpectWorkers) :
    SameCrew { s with workers := renumber (s.live sysNow) }
      ((s.internalAutofixWorkers sysNow).rebalanceJobs sysNow) := by
  have htarget := sameTarget_internalAutofixWorkers (s := s) sysNow
  have hfix : SameCrew { s with workers := renumber (s.live sysNow) }
      (s.internalAutofixWorkers sysNow) := by
    have hautofix : (s.internalAutofixWorkers sysNow).workers = renumber (s.live sysNow) ∧
        (s.internalAutofixWorkers sysNow).needScalingUp = s.needScalingUp := by
      unfold WorkerSet.internalAutofixWorkers
      rw [if_pos (needAutofix_of_live h hneed hlive)]
      exact ⟨rfl, needScalingUp_foldl_collectRemoved _ s⟩
    refine ⟨?_, ⟨htarget.count, htarget.closing⟩, hautofix.2⟩
    rw [SameThreads, hautofix.1]
  exact hfix.trans (sameCrew_rebalanceJobs (hfix.need.trans hneed) sysNow)

/-- **After a leak scan** no worker that should be there has exited. -/
theorem Staffed.swept_internalAutofixWorkers (h : Staffed s) (sysNow : Int) :
    Swept (s.internalAutofixWorkers sysNow) sysNow := by
  intro w hw hid
  rw [(sameTarget_internalAutofixWorkers (s := s) sysNow).count] at hid
  unfold WorkerSet.internalAutofixWorkers at hw
  split_ifs at hw with hfix
  · -- the workers that are left are renumbered live ones
    obtain ⟨i, hi⟩ := List.mem_iff_getElem?.1 hw
    have hi' : (renumber (s.live sysNow))[i]? = some w := hi
    rw [renumber, List.getElem?_mapIdx] at hi'
    obtain ⟨v, hv, rfl⟩ := Option.map_eq_some_iff.1 hi'
    have hmem := List.mem_filter.1 (List.mem_iff_getElem?.2 ⟨i, hv⟩)
    rw [isExited_congr (w := { v with workerId := i + 1 }) (v := v) rfl rfl]
    simpa using hmem.2
  · -- no worker that should be there was found
    have hexpect : s.expectWorkers = s.currentExpectWorkers := by
      rw [expectWorkers, h.notClosing]
      rfl
    rw [needAutofix, hexpect, Bool.not_eq_true, List.any_eq_false] at hfix
    simpa using hfix w (h.dense.mem_take hw hid)

end WorkerSet

/-! ## Ticks -/

namespace WorkerPoolModule

variable {m : WorkerPoolModule}

theorem sameCrew_scaleUp (m : WorkerPoolModule) (now : Int) (count : Nat) :
    m.workerSet.SameCrew (m.scaleUp now count).2.workerSet := by
  obtain h | h | h := m.scaleUp_snd now count
  · rw [h]
    exact ⟨rfl, ⟨rfl, rfl⟩, rfl⟩
  · rw [h]
    exact ⟨rfl, ⟨rfl, rfl⟩, rfl⟩
  · rw [h]
    exact ⟨sameThreads_map fun _ => ⟨rfl, rfl, rfl⟩, ⟨rfl, rfl⟩, rfl⟩

theorem sameCrew_scaleDown (m : WorkerPoolModule) (now : Int) (count : Nat) :
    m.workerSet.SameCrew (m.scaleDown now count).2.workerSet := by
  obtain h | h | h := m.scaleDown_snd now count
  · rw [h]
    exact ⟨rfl, ⟨rfl, rfl⟩, rfl⟩
  · rw [h]
    exact ⟨rfl, ⟨rfl, rfl⟩, rfl⟩
  · rw [h]
    exact ⟨sameThreads_map fun _ => ⟨rfl, rfl, rfl⟩, ⟨rfl, rfl⟩, rfl⟩

/-- Scaling leaves the workers where they are and asks for new ones when the count changes. -/
theorem scale_workerSet (m : WorkerPoolModule) (now : Int) :
    SameThreads m.workerSet.workers (m.scale now).workerSet.workers ∧
      (m.scale now).workerSet.closing = m.workerSet.closing ∧
      (m.scale now).workerSet.needScalingUp = (m.workerSet.needScalingUp
        || decide ((m.scale now).workerSet.currentExpectWorkers
          ≠ m.workerSet.currentExpectWorkers)) := by
  have hcrew := (m.sameCrew_scaleUp now m.startCount).trans
    ((m.scaleUp now m.startCount).2.sameCrew_scaleDown now (m.scaleUp now m.startCount).1)
  refine ⟨hcrew.threads, hcrew.target.closing, ?_⟩
  show (_ || _) = (_ || _)
  rw [hcrew.need]
  rfl

theorem staffed_scale (h : m.workerSet.Staffed) (now : Int) : (m.scale now).workerSet.Staffed := by
  obtain ⟨hthreads, hclosing, hneed⟩ := m.scale_workerSet now
  refine ⟨hclosing.trans h.notClosing, hthreads.dense h.dense, fun hmissing => ?_⟩
  rw [hneed, Bool.or_eq_true, decide_eq_true_eq]
  rw [hthreads.length] at hmissing
  by_cases hcount : (m.scale now).workerSet.currentExpectWorkers = m.workerSet.currentExpectWorkers
  · exact .inl (h.missing (hcount ▸ hmissing))
  · exact .inr hcount

theorem leakScanDue_scale (m : WorkerPoolModule) (now : Int) :
    (m.scale now).leakScanDue now = m.leakScanDue now := by
  have hup : (m.scaleUp now m.startCount).2.scalingStatistics.leakScanCheckpoint
      = m.scalingStatistics.leakScanCheckpoint := by
    obtain h | h | h := m.scaleUp_snd now m.startCount
    · rw [h]
    · rw [h]
      rfl
    · rw [h]
      rfl
  have hlast : (m.scale now).scalingStatistics.leakScanCheckpoint
      = m.scalingStatistics.leakScanCheckpoint := by
    show ((m.scaleUp now m.startCount).2.scaleDown now
      (m.scaleUp now m.startCount).1).2.scalingStatistics.leakScanCheckpoint = _
    obtain h | h | h := (m.scaleUp now m.startCount).2.scaleDown_snd now
      (m.scaleUp now m.startCount).1
    · rw [h]
      exact hup
    · rw [h]
      exact hup
    · rw [h]
      exact hup
  rw [leakScanDue, leakScanDue, hlast, m.scale_scalingConfigure]

/-- Live workers are live whatever has been collected from them. -/
theorem length_live_of_sameThreads {s s' : WorkerSet} (h : SameThreads s.workers s'.workers)
    (sysNow : Int) : (s'.live sysNow).length = (s.live sysNow).length := by
  let exited (k : Nat × WorkerStatus × Int) : Bool :=
    Worker.isExited { workerId := k.1, status := k.2.1, createdTime := k.2.2 } sysNow
  have hlive : ∀ t : WorkerSet, (t.live sysNow).length
      = ((t.workers.map fun w => (w.workerId, w.status, w.createdTime)).filter
        fun k => !exited k).length := by
    intro t
    rw [List.filter_map, List.length_map]
    rfl
  rw [hlive, hlive, h]

/-- The count that the load, the bounds and the count before ask for at `now`. -/
def scaledCount (m : WorkerPoolModule) (now : Int) : Nat :=
  let c := m.scalingConfigure
  let up := if m.scalingUpDue now then max m.startCount (min (m.upLoad now) c.maxWorkers)
    else m.startCount
  if m.scalingDownDue now then min up (max (m.downLoad now) c.minWorkers) else up

theorem scale_count (m : WorkerPoolModule) (now : Int) :
    (m.scale now).workerSet.currentExpectWorkers = m.scaledCount now :=
  m.scale_currentExpectWorkers now

/-- A leak scan at this tick finds enough live workers for the count that is asked for, or new ones
    are asked for before it: by the flag, or by scaling to another count. -/
def EnoughLive (m : WorkerPoolModule) (now sysNow : Int) : Prop :=
  m.leakScanDue now = true → m.workerSet.needScalingUp = true ∨
    m.scaledCount now ≠ m.workerSet.currentExpectWorkers ∨
    m.scaledCount now ≤ (m.workerSet.live sysNow).length

/-- The condition in terms of the set that the leak scan works on. -/
theorem enoughLive_iff (m : WorkerPoolModule) (now sysNow : Int) :
    m.EnoughLive now sysNow ↔ (m.leakScanDue now = true →
      (m.scale now).workerSet.needScalingUp = true ∨ (m.scale now).workerSet.currentExpectWorkers
        ≤ ((m.scale now).workerSet.live sysNow).length) := by
  obtain ⟨hthreads, -, hneed⟩ := m.scale_workerSet now
  rw [hneed, length_live_of_sameThreads hthreads, scale_count, Bool.or_eq_true, decide_eq_true_eq,
    or_assoc, EnoughLive]

/-- **A tick** whose leak scan finds enough live workers keeps the set staffed. -/
theorem staffed_tick (h : m.workerSet.Staffed) {now sysNow : Int}
    (hlive : m.EnoughLive now sysNow) : (m.tick now sysNow).workerSet.Staffed := by
  have hscaled := staffed_scale h now
  rw [enoughLive_iff] at hlive
  unfold tick maintain
  split_ifs with hdue
  · rw [leakScanDue_scale] at hdue
    exact (hscaled.internalAutofixWorkers sysNow (hlive hdue)).rebalanceJobs sysNow
  · exact (hscaled.internalReduceWorkers sysNow).rebalanceJobs sysNow

/-- A tick whose leak scan does not find enough leaves workers missing that nobody asks for. -/
theorem enoughLive_of_tick (h : m.workerSet.Staffed) {now sysNow : Int}
    (hmissing : (m.tick now sysNow).workerSet.workers.length
        < (m.tick now sysNow).workerSet.currentExpectWorkers →
      (m.tick now sysNow).workerSet.needScalingUp = true) : m.EnoughLive now sysNow := by
  rw [enoughLive_iff]
  intro hdue
  by_contra hfew
  obtain ⟨hneed, hlive⟩ := not_or.1 hfew
  rw [Bool.not_eq_true] at hneed
  have hcrew := (staffed_scale h now).sameCrew_rebalanceJobs_internalAutofixWorkers hneed
    (Nat.lt_of_not_le hlive)
  unfold tick maintain at hmissing
  rw [if_pos (by rw [leakScanDue_scale]; exact hdue)] at hmissing
  dsimp only at hmissing
  rw [hcrew.threads.length, hcrew.target.count, hcrew.need] at hmissing
  have hlength : (WorkerSet.renumber ((m.scale now).workerSet.live sysNow)).length
      = ((m.scale now).workerSet.live sysNow).length := List.length_mapIdx
  have hasked := hmissing (hlength ▸ Nat.lt_of_not_le hlive)
  rw [hneed] at hasked
  exact Bool.false_ne_true hasked

/-- A tick with a leak scan leaves no exited worker among those that should be there. -/
theorem swept_tick (h : m.workerSet.Staffed) {now : Int} (sysNow : Int)
    (hdue : m.leakScanDue now = true) : (m.tick now sysNow).workerSet.Swept sysNow := by
  have hscaled := staffed_scale h now
  unfold tick maintain
  rw [if_pos (by rw [leakScanDue_scale]; exact hdue)]
  exact (hscaled.swept_internalAutofixWorkers sysNow).rebalanceJobs

/-- A reload keeps the workers, and asks for new ones unless the module is active. -/
theorem staffed_reload (h : m.workerSet.Staffed) (cfg : PoolConfigure) :
    (m.reload cfg).workerSet.Staffed := by
  unfold reload
  dsimp only
  cases hactive : m.actived with
  | true => exact ⟨h.notClosing, h.dense, h.missing⟩
  | false => exact ⟨h.notClosing, h.dense, fun _ => rfl⟩

end WorkerPoolModule

/-! ## Runs -/

/-- A module, and the system time of the leak scan that its last action made, if it did. -/
structure LeakScanHistory where
  pool : WorkerPoolModule
  scannedAt : Option Int := none

namespace LeakScanHistory

def step (s : LeakScanHistory) (action : Action) : LeakScanHistory :=
  match action with
  | .tick now sysNow =>
    { pool := s.pool.step action
      scannedAt := if s.pool.leakScanDue now then some sysNow else none }
  | _ => { pool := s.pool.step action }

/-- Ids are dense; missing workers are asked for, so that the next `do_scaling_up` recreates
    exactly these; and a leak scan leaves no exited worker that should be there. -/
structure WorkersReplaced (s : LeakScanHistory) : Prop where
  dense : Dense s.pool.workerSet.workers
  missing : s.pool.workerSet.workers.length < s.pool.workerSet.currentExpectWorkers →
    s.pool.workerSet.needScalingUp = true
  recreated : ∀ sysNow,
    s.pool.workerSet.workers.length < s.pool.workerSet.currentExpectWorkers →
      s.pool.workerSet.workers <+: (s.pool.workerSet.doScalingUp sysNow).workers ∧
      (s.pool.workerSet.doScalingUp sysNow).workers.length
        = s.pool.workerSet.currentExpectWorkers ∧
      Dense (s.pool.workerSet.doScalingUp sysNow).workers
  swept : ∀ sysNow, s.scannedAt = some sysNow → s.pool.workerSet.Swept sysNow

/-- The invariant behind it. -/
structure Tended (s : LeakScanHistory) : Prop where
  staffed : s.pool.workerSet.Staffed
  swept : ∀ sysNow, s.scannedAt = some sysNow → s.pool.workerSet.Swept sysNow

theorem Tended.workersReplaced {s : LeakScanHistory} (h : Tended s) : WorkersReplaced s :=
  ⟨h.staffed.dense, h.staffed.missing, fun sysNow hmissing => h.staffed.recreates sysNow hmissing,
    h.swept⟩

/-- The condition on the steps of a run. -/
def ScansFindEnough (s : LeakScanHistory) : Action → Prop
  | .tick now sysNow => s.pool.EnoughLive now sysNow
  | _ => True

theorem Tended.of_staffed {pool : WorkerPoolModule} (h : pool.workerSet.Staffed) :
    Tended { pool := pool } :=
  ⟨h, fun _ hscan => by cases hscan⟩

/-- **Every step** that meets the condition keeps the set tended. -/
theorem Tended.step {s : LeakScanHistory} (h : Tended s) {action : Action}
    (hcond : ScansFindEnough s action) : Tended (s.step action) := by
  have hold := h.staffed
  cases action with
  | init => exact Tended.of_staffed hold
  | active => exact Tended.of_staffed hold
  | reload cfg => exact Tended.of_staffed (WorkerPoolModule.staffed_reload hold cfg)
  | tick now sysNow =>
    refine ⟨WorkerPoolModule.staffed_tick hold hcond, fun at' hat => ?_⟩
    have hat' : (if s.pool.leakScanDue now then some sysNow else none) = some at' := hat
    split_ifs at hat' with hdue
    obtain rfl := Option.some.inj hat'
    exact WorkerPoolModule.swept_tick hold sysNow hdue
  | spawn sysNow => exact Tended.of_staffed (hold.spawn _ sysNow)
  | spawnTo workerId sysNow => exact Tended.of_staffed (hold.spawnTo _ workerId sysNow)
  | addTickCallback workerId sysNow => exact Tended.of_staffed (hold.doScalingUp sysNow)
  | thread i progress => exact Tended.of_staffed (hold.thread i progress)

/-- A module as `app::init` leaves it before it initialises its modules. -/
def start (now : Int) (cfg : PoolConfigure) : LeakScanHistory :=
  { pool := (WorkerPoolModule.construct now).reload cfg }

theorem tended_start (now : Int) (cfg : PoolConfigure) : Tended (start now cfg) :=
  Tended.of_staffed ⟨rfl, fun i w hw => absurd hw (by cases i <;> exact fun h => by cases h),
    fun _ => rfl⟩

/-- **Every step** leaves the workers replaced exactly if it meets the condition. -/
theorem workersReplaced_step_iff {s : LeakScanHistory} (h : Tended s) (action : Action) :
    WorkersReplaced (s.step action) ↔ ScansFindEnough s action := by
  constructor
  · intro hreplaced
    cases action with
    | tick now sysNow => exact WorkerPoolModule.enoughLive_of_tick h.staffed hreplaced.missing
    | init | active | reload | spawn | spawnTo | addTickCallback | thread => trivial
  · exact fun hcond => (h.step hcond).workersReplaced

/-- **Missing workers are replaced** in every state of a run exactly if every leak scan finds as
    many live workers as the tick has scaled to, or new ones are asked for before it. -/
theorem always_workersReplaced_iff (now : Int) (cfg : PoolConfigure) (actions : List Action) :
    Run.Always step WorkersReplaced (start now cfg) actions ↔
      Run.StepsMeet step ScansFindEnough (start now cfg) actions := by
  have hany : Run.StepsMeet step (fun _ _ => True) (start now cfg) actions :=
    Run.stepsMeet_of_forall step (fun _ _ => trivial) _ _
  have htended := tended_start now cfg
  exact Run.always_iff_stepsMeet step (fun _ _ hs _ _ hcond => hs.step hcond)
    (fun _ action hs _ _ => workersReplaced_step_iff hs action) htended htended.workersReplaced
    hany

/-- Two workers start and pass a leak scan, and the second one goes away. -/
def exitingWorkerRun : List Action :=
  [.init, .active, .spawn 0, .thread 0 {}, .thread 1 {}, .tick (seconds 300) (seconds 300),
    .thread 1 { status := .kExiting }, .thread 1 { status := .kExited }]

/-- Jobs of the first worker make the tick of the next leak scan scale up to four workers: the scan
    removes the exited worker, and the new ones are asked for. -/
theorem always_workersReplaced_busyWorker :
    Run.Always step WorkersReplaced (start 0 {})
      (exitingWorkerRun ++ [.thread 0 { privateJobs := 60 }, .tick (seconds 600) (seconds 600)]) := by
  refine (always_workersReplaced_iff 0 {} _).2
    ⟨trivial, trivial, trivial, trivial, trivial, ?_, trivial, trivial, trivial, ?_, trivial⟩
  · intro _
    exact .inr (.inr (by decide +kernel))
  · intro _
    exact .inr (.inl (by decide +kernel))

/-- Without them the count stays: the scan removes the worker, and nobody asks for another one. -/
theorem not_always_workersReplaced_leakScan :
    ¬ Run.Always step WorkersReplaced (start 0 {})
      (exitingWorkerRun ++ [.tick (seconds 600) (seconds 600)]) := by
  intro halways
  have hneed := (halways.last step).missing (by decide +kernel)
  exact absurd hneed (by decide +kernel)

end LeakScanHistory

end LibAtapp.WorkerPool
