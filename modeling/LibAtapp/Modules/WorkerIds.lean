import LibAtapp.Modules.WorkerJobFates

set_option autoImplicit false

/-! # Which worker has which id

A worker object keeps its id until `internal_autofix_workers` renumbers the list. In every state
the listed workers are different objects and have the ids of their positions; an object that has
left the list keeps the id it had. -/

namespace LibAtapp.WorkerJobs

namespace Pool

variable {s : Pool}

/-- The id of a worker object. -/
def idOf (s : Pool) (w : Nat) : Nat := (s.thread w).workerId

/-- The listed workers are different objects, and each has the id of its position. -/
structure Numbered (s : Pool) : Prop where
  created : ∀ w ∈ s.workers, w < s.threads.length
  distinct : s.workers.Nodup
  dense : ∀ i w, s.workers[i]? = some w → s.idOf w = i + 1

theorem idOf_eq (s : Pool) (w : Nat) :
    s.idOf w = (s.threads[w]?.map Worker.workerId).getD 0 := by
  rw [idOf, thread]
  cases s.threads[w]? <;> rfl

/-! ## Renumbering -/

theorem length_renumber (threads : List Worker) (kept : List Nat) (i : Nat) :
    (renumber threads kept i).length = threads.length := by
  induction kept generalizing threads i with
  | nil => rfl
  | cons k kept ih => rw [renumber, ih, List.length_modify]

theorem renumber_of_not_mem {threads : List Worker} {kept : List Nat} {w : Nat} (h : w ∉ kept)
    (i : Nat) : (renumber threads kept i)[w]? = threads[w]? := by
  induction kept generalizing threads i with
  | nil => rfl
  | cons k kept ih =>
    rw [List.mem_cons, not_or] at h
    rw [renumber, ih h.2, List.getElem?_modify]
    simp [Ne.symm h.1]

/-- The workers are numbered by their positions. -/
theorem renumber_of_getElem? (threads : List Worker) {kept : List Nat} (hdistinct : kept.Nodup)
    (hcreated : ∀ w ∈ kept, w < threads.length) {j w : Nat} (hj : kept[j]? = some w) (i : Nat) :
    (renumber threads kept i)[w]?.map Worker.workerId = some (i + j + 1) := by
  induction kept generalizing threads i j with
  | nil => simp at hj
  | cons k kept ih =>
    obtain ⟨hk, hrest⟩ := List.nodup_cons.1 hdistinct
    rw [renumber]
    cases j with
    | zero =>
      obtain rfl : k = w := by simpa using hj
      rw [renumber_of_not_mem hk, List.getElem?_modify,
        List.getElem?_eq_getElem (hcreated k List.mem_cons_self)]
      simp
    | succ j =>
      have hlater : kept[j]? = some w := by simpa using hj
      rw [ih _ hrest (fun v hv => ?_) hlater]
      · congr 1
        omega
      · rw [List.length_modify]
        exact hcreated v (List.mem_cons_of_mem k hv)

/-! ## What a step does to the list -/

/-- What a step does to the workers: nothing to the list and the ids, it creates the missing ones,
    removes the last one, or removes exited ones and renumbers the others. -/
inductive CrewEffect (s s' : Pool) : Prop
  | quiet (workers : s'.workers = s.workers) (ids : ∀ w, s'.idOf w = s.idOf w)
      (threads : s'.threads.length = s.threads.length)
  | created (workers : s'.workers = s.scaleUp.workers) (threads : s'.threads = s.scaleUp.threads)
  | reduced (workers : s'.workers = s.workers.dropLast) (threads : s'.threads = s.threads)
  | renumbered (kept : List Nat) (sub : kept.Sublist s.workers) (workers : s'.workers = kept)
      (threads : s'.threads = renumber s.threads kept 0)

theorem crewEffect_setPhase (s : Pool) (w : Nat) (phase : Phase) :
    CrewEffect s (s.setPhase w phase) := by
  refine .quiet rfl (fun v => ?_) (List.length_modify _ _ _)
  rw [idOf_eq, idOf_eq, setPhase, List.getElem?_modify]
  cases s.threads[v]? with
  | none => rfl
  | some t =>
    show Worker.workerId (if w = v then _ else t) = t.workerId
    split_ifs <;> rfl

theorem crewEffect_autofix (s : Pool) (leaked : Nat → Bool) : CrewEffect s (s.autofix leaked) := by
  unfold autofix
  split_ifs
  · exact .renumbered _ List.filter_sublist rfl rfl
  · exact .quiet rfl (fun _ => rfl) rfl

theorem crewEffect_act (s : Pool) (a : Step) : CrewEffect s (s.act a) := by
  have hsame : CrewEffect s s := .quiet rfl (fun _ => rfl) rfl
  cases a <;> simp only [act]
  case doScalingUp => exact .created rfl rfl
  case internalReduceWorkers leaked =>
    cases s.workers.getLast? with
    | none => exact hsame
    | some w =>
      dsimp only
      split_ifs
      · exact .reduced rfl rfl
      · exact hsame
  case internalAutofixWorkers leaked =>
    split_ifs
    · exact crewEffect_autofix s leaked
    · exact hsame
  -- the others touch a status at most
  all_goals
    (repeat' split) <;> first
      | exact .quiet rfl (fun _ => rfl) rfl
      | exact crewEffect_setPhase s _ _

/-! ## Every state is numbered -/

theorem idOf_congr {s' : Pool} (h : s'.threads = s.threads) (w : Nat) : s'.idOf w = s.idOf w := by
  rw [idOf_eq, idOf_eq, h]

theorem Numbered.scaleUp (h : Numbered s) : Numbered s.scaleUp := by
  have hold : ∀ w < s.threads.length, s.scaleUp.idOf w = s.idOf w := by
    intro w hw
    rw [idOf_eq, idOf_eq, Pool.scaleUp, List.getElem?_append_left hw]
  refine ⟨fun w hw => ?_, ?_, fun i w hw => ?_⟩
  · have hlength : s.scaleUp.threads.length =
        s.threads.length + (s.currentExpectWorkers - s.workers.length) := by
      simp [Pool.scaleUp]
    rw [hlength]
    rcases List.mem_append.1 hw with hw | hw
    · have hlt := h.created w hw
      omega
    · have hlt := (List.mem_range'_1.1 hw).2
      omega
  · refine List.nodup_append.2 ⟨h.distinct, List.nodup_range', fun v hv w hw heq => ?_⟩
    have hlt := h.created v hv
    have hge := (List.mem_range'_1.1 hw).1
    omega
  · rw [Pool.scaleUp, List.getElem?_append] at hw
    split_ifs at hw with hi
    · rw [hold w (h.created w (List.mem_iff_getElem?.2 ⟨i, hw⟩))]
      exact h.dense i w hw
    · -- the new object at position `i`
      obtain ⟨hlt, hw⟩ := List.getElem?_eq_some_iff.1 hw
      rw [List.length_range'] at hlt
      rw [List.getElem_range'] at hw
      have hnew : s.threads.length ≤ w := by omega
      rw [idOf_eq, Pool.scaleUp, List.getElem?_append_right hnew, List.getElem?_map,
        List.getElem?_range' (by omega)]
      show s.workers.length + 1 * (w - s.threads.length) + 1 = i + 1
      omega

theorem Numbered.of_effect (h : Numbered s) {s' : Pool} (heffect : CrewEffect s s') :
    Numbered s' := by
  cases heffect with
  | quiet hworkers hids hthreads =>
    refine ⟨fun w hw => ?_, hworkers ▸ h.distinct, fun i w hw => ?_⟩
    · rw [hthreads]
      exact h.created w (hworkers ▸ hw)
    · rw [hids]
      exact h.dense i w (hworkers ▸ hw)
  | created hworkers hthreads =>
    have hup := h.scaleUp
    refine ⟨fun w hw => ?_, hworkers ▸ hup.distinct, fun i w hw => ?_⟩
    · rw [hthreads]
      exact hup.created w (hworkers ▸ hw)
    · rw [idOf_congr hthreads]
      exact hup.dense i w (hworkers ▸ hw)
  | reduced hworkers hthreads =>
    have hsub := List.dropLast_sublist s.workers
    refine ⟨fun w hw => ?_, hworkers ▸ hsub.nodup h.distinct, fun i w hw => ?_⟩
    · rw [hthreads]
      exact h.created w (hsub.subset (hworkers ▸ hw))
    · rw [idOf_congr hthreads]
      rw [hworkers, List.getElem?_dropLast] at hw
      split_ifs at hw
      exact h.dense i w hw
  | renumbered kept hsub hworkers hthreads =>
    refine ⟨fun w hw => ?_, hworkers ▸ hsub.nodup h.distinct, fun i w hw => ?_⟩
    · rw [hthreads, length_renumber]
      exact h.created w (hsub.subset (hworkers ▸ hw))
    · have hid := renumber_of_getElem? s.threads (hsub.nodup h.distinct)
        (fun v hv => h.created v (hsub.subset hv)) (hworkers ▸ hw) 0
      rw [idOf_eq, hthreads, hid]
      show 0 + i + 1 = i + 1
      omega

theorem Numbered.step (h : Numbered s) (a : Step) : Numbered (s.step a) := by
  have hcleared : Numbered { s with stopped := false } := ⟨h.created, h.distinct, h.dense⟩
  exact hcleared.of_effect (crewEffect_act _ a)

theorem numbered_construct (queueSizeLimit : Nat) : Numbered (construct queueSizeLimit) :=
  ⟨fun _ hw => absurd hw List.not_mem_nil, List.nodup_nil, fun i w hw => by simp [construct] at hw⟩

end Pool

end LibAtapp.WorkerJobs
