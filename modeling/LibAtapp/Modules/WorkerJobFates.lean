import LibAtapp.Modules.WorkerJobs

set_option autoImplicit false

/-! # No accepted job is lost

A job is put into one place when it is accepted and then only moves, so it is never executed
twice. It is lost in a place that nobody empties any more: the queue of a worker that has moved its
jobs over already, or the shared queue of a module that is not ticked. The run keeps its jobs
exactly if no step puts a job there and the module does not stop while jobs are elsewhere. -/

namespace LibAtapp.WorkerJobs

open Places

namespace Pool

variable {s : Pool}

/-! ## What a step does to the jobs -/

/-- What a step does with jobs: nothing, it moves one, or a checked call of `spawn` enqueues. -/
inductive JobEffect (s s' : Pool) : Prop
  | quiet (contents : s'.contents = s.contents) (accepted : s'.accepted = s.accepted)
  | moved (p q : Place) (contents : s'.contents = transfer s.contents p q)
      (accepted : s'.accepted = s.accepted)
  | enqueued (caller : Nat) (call : SpawnCall) (called : s.spawning caller = some call)
      (contents : s'.contents = push s.contents call.place call.job)
      (accepted : s'.accepted = call.job :: s.accepted) (ended : s'.spawning caller = none)

/-- What a step does with the calls of `spawn`: nothing, one begins, one ends, one is checked. -/
inductive CallEffect (s s' : Pool) : Prop
  | quiet (spawning : s'.spawning = s.spawning) (nextJob : s'.nextJob = s.nextJob)
  | begun (caller : Nat) (target : Option Nat)
      (spawning : s'.spawning
        = Function.update s.spawning caller (some { job := s.nextJob, target := target }))
      (nextJob : s'.nextJob = s.nextJob + 1)
  | ended (caller : Nat) (spawning : s'.spawning = Function.update s.spawning caller none)
      (nextJob : s'.nextJob = s.nextJob)
  | checked (caller : Nat) (call : SpawnCall) (called : s.spawning caller = some call)
      (spawning : s'.spawning
        = Function.update s.spawning caller (some { call with checked := true }))
      (nextJob : s'.nextJob = s.nextJob)

/-- Replacing workers in the list touches neither jobs nor calls, nor what the main thread does. -/
theorem autofix_frame (s : Pool) (leaked : Nat → Bool) :
    (s.autofix leaked).contents = s.contents ∧ (s.autofix leaked).accepted = s.accepted ∧
      (s.autofix leaked).spawning = s.spawning ∧ (s.autofix leaked).nextJob = s.nextJob ∧
      (s.autofix leaked).main = s.main ∧ (s.autofix leaked).ticking = s.ticking ∧
      (s.autofix leaked).stopped = s.stopped := by
  unfold autofix
  split_ifs
  · exact ⟨rfl, rfl, rfl, rfl, rfl, rfl, rfl⟩
  · exact ⟨rfl, rfl, rfl, rfl, rfl, rfl, rfl⟩

theorem jobEffect_act (s : Pool) (a : Step) : JobEffect s (s.act a) := by
  have hsame : JobEffect s s := .quiet rfl rfl
  cases a <;> simp only [act]
  case spawnEmplace caller =>
    cases hcall : s.spawning caller with
    | none => exact hsame
    | some call =>
      dsimp only
      split_ifs
      · exact .enqueued caller call hcall rfl rfl (Function.update_self ..)
      · exact hsame
  case internalAutofixWorkers leaked =>
    have hframe := s.autofix_frame leaked
    split_ifs
    · exact .quiet hframe.1 hframe.2.1
    · exact hsame
  -- every other branch leaves the jobs alone or moves one
  all_goals
    (repeat' split) <;> first
      | exact .quiet rfl rfl
      | exact .moved _ _ rfl rfl

theorem callEffect_act (s : Pool) (a : Step) : CallEffect s (s.act a) := by
  have hsame : CallEffect s s := .quiet rfl rfl
  cases a <;> simp only [act]
  case spawnSelect caller choice leaked =>
    split_ifs
    · exact .begun caller choice rfl rfl
    · exact hsame
  case spawnToSelect caller workerId leaked =>
    cases s.selectWorkerOf workerId leaked with
    | none => exact hsame
    | some w =>
      dsimp only
      split_ifs
      · exact .begun caller (some w) rfl rfl
      · exact hsame
  case spawnCheck caller =>
    cases hcall : s.spawning caller with
    | none => exact hsame
    | some call =>
      dsimp only
      split_ifs
      · exact hsame
      · exact .ended caller rfl rfl
      · exact .checked caller call hcall rfl rfl
  case spawnEmplace caller =>
    cases hcall : s.spawning caller with
    | none => exact hsame
    | some call =>
      dsimp only
      split_ifs
      · exact .ended caller rfl rfl
      · exact hsame
  case internalAutofixWorkers leaked =>
    have hframe := s.autofix_frame leaked
    split_ifs
    · exact .quiet hframe.2.2.1 hframe.2.2.2.1
    · exact hsame
  all_goals
    (repeat' split) <;> exact .quiet rfl rfl

/-! ## One place for every job -/

/-- Every accepted job is in exactly one place, and every call of `spawn` has a job of its own. -/
structure JobsPlaced (s : Pool) : Prop where
  separate : Separate s.contents
  placed : ∀ j, j ∈ s.accepted ↔ ∃ p, j ∈ s.contents p
  fresh : ∀ j ∈ s.accepted, j < s.nextJob
  called : ∀ caller call, s.spawning caller = some call →
    call.job < s.nextJob ∧ call.job ∉ s.accepted ∧
      ∀ caller' call', s.spawning caller' = some call' → call'.job = call.job → caller' = caller

/-- A pool that is constructed, with the limit of its configuration. -/
def construct (queueSizeLimit : Nat) : Pool := { queueSizeLimit := queueSizeLimit }

theorem jobsPlaced_construct (queueSizeLimit : Nat) : JobsPlaced (construct queueSizeLimit) :=
  ⟨⟨fun _ => List.nodup_nil, fun _ _ _ h => absurd h List.not_mem_nil⟩,
    fun _ => ⟨fun h => absurd h List.not_mem_nil, fun ⟨_, h⟩ => absurd h List.not_mem_nil⟩,
    fun _ h => absurd h List.not_mem_nil, fun _ _ h => absurd h nofun⟩

theorem CallEffect.nextJob_le {s' : Pool} (h : CallEffect s s') : s.nextJob ≤ s'.nextJob := by
  cases h with
  | quiet _ hnext => exact hnext.ge
  | begun _ _ _ hnext => omega
  | ended _ _ hnext => exact hnext.ge
  | checked _ _ _ _ hnext => exact hnext.ge

/-- A call was there before with the same job, or it is the one that begins. -/
theorem CallEffect.origin {s' : Pool} (h : CallEffect s s') :
    (∀ caller call, s'.spawning caller = some call →
      ∃ old, s.spawning caller = some old ∧ old.job = call.job) ∨
    ∃ new, s'.nextJob = s.nextJob + 1 ∧ ∀ caller call, s'.spawning caller = some call →
      caller = new ∧ call.job = s.nextJob ∨
        caller ≠ new ∧ ∃ old, s.spawning caller = some old ∧ old.job = call.job := by
  cases h with
  | quiet hspawning _ =>
    refine .inl fun caller call hcall => ⟨call, ?_, rfl⟩
    rwa [hspawning] at hcall
  | begun new target hspawning hnext =>
    refine .inr ⟨new, hnext, fun caller call hcall => ?_⟩
    rw [hspawning] at hcall
    by_cases heq : caller = new
    · subst heq
      rw [Function.update_self, Option.some.injEq] at hcall
      exact .inl ⟨rfl, hcall ▸ rfl⟩
    · rw [Function.update_of_ne heq] at hcall
      exact .inr ⟨heq, call, hcall, rfl⟩
  | ended ending hspawning _ =>
    refine .inl fun caller call hcall => ⟨call, ?_, rfl⟩
    rw [hspawning] at hcall
    by_cases heq : caller = ending
    · subst heq
      rw [Function.update_self] at hcall
      cases hcall
    · rwa [Function.update_of_ne heq] at hcall
  | checked checking old hold hspawning _ =>
    refine .inl fun caller call hcall => ?_
    rw [hspawning] at hcall
    by_cases heq : caller = checking
    · subst heq
      rw [Function.update_self, Option.some.injEq] at hcall
      exact ⟨old, hold, hcall ▸ rfl⟩
    · rw [Function.update_of_ne heq] at hcall
      exact ⟨call, hcall, rfl⟩

/-- What is accepted after a step was accepted before it, or its call has just ended. -/
theorem JobEffect.accepted_origin {s' : Pool} (h : JobEffect s s') {j : Nat}
    (hj : j ∈ s'.accepted) :
    j ∈ s.accepted ∨ ∃ caller call, s.spawning caller = some call ∧ call.job = j ∧
      s'.spawning caller = none := by
  cases h with
  | quiet _ haccepted => exact .inl (haccepted ▸ hj)
  | moved _ _ _ haccepted => exact .inl (haccepted ▸ hj)
  | enqueued caller call hcalled _ haccepted hended =>
    rw [haccepted] at hj
    obtain rfl | hold := List.mem_cons.1 hj
    · exact .inr ⟨caller, call, hcalled, rfl, hended⟩
    · exact .inl hold

/-- **Every step** keeps every accepted job in exactly one place. -/
theorem JobsPlaced.act (h : JobsPlaced s) (a : Step) : JobsPlaced (s.act a) := by
  have hjobs := s.jobEffect_act a
  have hcalls := s.callEffect_act a
  generalize s.act a = s' at hjobs hcalls ⊢
  have haccepted : ∀ j ∈ s'.accepted, j < s.nextJob := by
    intro j hj
    obtain hold | ⟨caller, call, hcall, rfl, -⟩ := hjobs.accepted_origin hj
    · exact h.fresh j hold
    · exact (h.called caller call hcall).1
  -- the job of a call that was there before is not accepted while the call goes on
  have hcalled : ∀ caller call old, s'.spawning caller = some call →
      s.spawning caller = some old → old.job = call.job → call.job ∉ s'.accepted := by
    intro caller call old hcall hold hjob hmem
    obtain ⟨-, hnew, hunique⟩ := h.called caller old hold
    obtain hbefore | ⟨caller', call', hcall', hjob', hended⟩ := hjobs.accepted_origin hmem
    · exact hnew (hjob ▸ hbefore)
    · have heq := hunique caller' call' hcall' (hjob'.trans hjob.symm)
      rw [heq, hcall] at hended
      cases hended
  refine ⟨?_, ?_, fun j hj => (haccepted j hj).trans_le hcalls.nextJob_le, ?_⟩
  · cases hjobs with
    | quiet hcontents _ => exact hcontents ▸ h.separate
    | moved p q hcontents _ => exact hcontents ▸ h.separate.transfer p q
    | enqueued caller call hcall hcontents _ _ =>
      refine hcontents ▸ h.separate.push fun q hq => ?_
      exact (h.called caller call hcall).2.1 ((h.placed _).2 ⟨q, hq⟩)
  · intro j
    cases hjobs with
    | quiet hcontents haccepted => rw [haccepted, hcontents, h.placed]
    | moved p q hcontents haccepted => rw [haccepted, hcontents, exists_mem_transfer, h.placed]
    | enqueued caller call _ hcontents haccepted _ =>
      rw [haccepted, hcontents, exists_mem_push, List.mem_cons, h.placed, or_comm]
  · intro caller call hcall
    obtain hall | ⟨new, hnext, hall⟩ := hcalls.origin
    · obtain ⟨old, hold, hjob⟩ := hall caller call hcall
      obtain ⟨hlt, -, hunique⟩ := h.called caller old hold
      refine ⟨hjob ▸ hlt.trans_le hcalls.nextJob_le, hcalled caller call old hcall hold hjob, ?_⟩
      intro caller' call' hcall' hsame
      obtain ⟨old', hold', hjob'⟩ := hall caller' call' hcall'
      exact hunique caller' old' hold' (by rw [hjob', hsame, hjob])
    · obtain ⟨rfl, hjob⟩ | ⟨hne, old, hold, hjob⟩ := hall caller call hcall
      · refine ⟨by omega, fun hmem => absurd (haccepted _ hmem) (by omega), ?_⟩
        intro caller' call' hcall' hsame
        obtain ⟨rfl, -⟩ | ⟨-, old', hold', hjob'⟩ := hall caller' call' hcall'
        · rfl
        · have hlt := (h.called caller' old' hold').1
          omega
      · obtain ⟨hlt, -, hunique⟩ := h.called caller old hold
        refine ⟨by omega, hcalled caller call old hcall hold hjob, ?_⟩
        intro caller' call' hcall' hsame
        obtain ⟨-, hjob'⟩ | ⟨-, old', hold', hjob'⟩ := hall caller' call' hcall'
        · omega
        · exact hunique caller' old' hold' (by rw [hjob', hsame, hjob])

/-! ## No job in a dead place -/

/-- Every place that holds jobs is still going to be emptied. -/
def SafePlaces (s : Pool) : Prop := ∀ p, s.contents p ≠ [] → s.Drains p

/-- With one place for every job, jobs are safe when their places are and a stopped pool has none
    left. -/
theorem JobsPlaced.jobsSafe_iff (h : JobsPlaced s) :
    JobsSafe s ↔ SafePlaces s ∧
      (s.stopped = true → ∀ p, p ≠ .executed → s.contents p = []) := by
  constructor
  · intro hsafe
    refine ⟨fun p hp => ?_, fun hstopped p hne => ?_⟩
    · obtain ⟨j, hj⟩ := List.exists_mem_of_ne_nil _ hp
      by_cases hne : p = .executed
      · subst hne
        trivial
      · have hnot : j ∉ s.contents .executed := fun hexec =>
          hne (h.separate.apart p .executed j hj hexec)
        obtain ⟨q, hq, hdrains⟩ := hsafe.pending j ((h.placed j).2 ⟨p, hj⟩) hnot
        exact h.separate.apart q p j hq hj ▸ hdrains
    · refine List.eq_nil_iff_forall_not_mem.2 fun j hj => hne ?_
      exact h.separate.apart p .executed j hj (hsafe.stopped hstopped j ((h.placed j).2 ⟨p, hj⟩))
  · rintro ⟨hplaces, hstopped⟩
    refine ⟨h.separate.nodup _, fun j hj _ => ?_, fun hstop j hj => ?_⟩
    · obtain ⟨p, hp⟩ := (h.placed j).1 hj
      exact ⟨p, hp, hplaces p (List.ne_nil_of_mem hp)⟩
    · obtain ⟨p, hp⟩ := (h.placed j).1 hj
      by_contra hnot
      have hne : p ≠ .executed := fun heq => hnot (heq ▸ hp)
      exact List.ne_nil_of_mem hp (hstopped hstop p hne)

/-- A job is moved to a place that is going to be emptied. -/
theorem SafePlaces.move (h : SafePlaces s) {p q : Place} (hq : s.contents p ≠ [] → s.Drains q) :
    SafePlaces (s.move p q) := by
  intro r hr
  obtain hold | ⟨rfl, hp⟩ := ne_nil_of_transfer hr
  · exact h r hold
  · exact hq hp

/-- Nothing is moved, and no thread that had not exited goes on otherwise. -/
theorem SafePlaces.of_phase (h : SafePlaces s) {s' : Pool} (hcontents : s'.contents = s.contents)
    (hticking : s'.ticking = s.ticking) (hmain : s'.main = s.main)
    (hphase : ∀ w, s.phase w ≠ .exited → s'.phase w = s.phase w) : SafePlaces s' := by
  intro p hp
  rw [hcontents] at hp
  have hdrains := h p hp
  cases p with
  | privateJobs w =>
    show s'.phase w ≠ .drained ∧ s'.phase w ≠ .exited
    rw [hphase w hdrains.2]
    exact hdrains
  | sharedJobs => exact hticking.trans hdrains
  | workerHand w =>
    show s'.phase w = .running ∨ s'.phase w = .exiting
    rw [hphase w (by rintro heq; obtain h' | h' := hdrains <;> rw [heq] at h' <;> cases h')]
    exact hdrains
  | mainHand =>
    show s'.main = .doingShared ∨ ∃ candidates, s'.main = .rebalancing candidates
    rw [hmain]
    exact hdrains
  | executed => trivial

/-- The main thread goes on with what it holds. -/
theorem SafePlaces.main (h : SafePlaces s) {s' : Pool} (hcontents : s'.contents = s.contents)
    (hticking : s'.ticking = s.ticking) (hthreads : s'.threads = s.threads)
    (hmain : s.contents .mainHand ≠ [] → s'.Drains .mainHand) : SafePlaces s' := by
  intro p hp
  rw [hcontents] at hp
  have hdrains := h p hp
  have hphase : ∀ w, s'.phase w = s.phase w := by
    intro w
    rw [phase, phase, thread, thread, hthreads]
  cases p with
  | privateJobs w =>
    show s'.phase w ≠ .drained ∧ s'.phase w ≠ .exited
    rw [hphase]
    exact hdrains
  | sharedJobs => exact hticking.trans hdrains
  | workerHand w =>
    show s'.phase w = .running ∨ s'.phase w = .exiting
    rw [hphase]
    exact hdrains
  | mainHand => exact hmain hp
  | executed => trivial

theorem phase_setPhase_of_ne {v w : Nat} (hne : v ≠ w) (phase : Phase) :
    (s.setPhase w phase).phase v = s.phase v := by
  simp [Pool.phase, thread, Pool.setPhase, Ne.symm hne]

/-- A thread that has not exited is there. -/
theorem exists_thread {w : Nat} (h : s.phase w ≠ .exited) :
    ∃ v, s.threads[w]? = some v ∧ s.thread w = v := by
  cases hthread : s.threads[w]? with
  | none => exact absurd (by rw [Pool.phase, thread, hthread]; rfl) h
  | some v => exact ⟨v, rfl, by rw [thread, hthread]; rfl⟩

theorem phase_setPhase_self {w : Nat} (h : s.phase w ≠ .exited) (phase : Phase) :
    (s.setPhase w phase).phase w = phase := by
  obtain ⟨v, hv, -⟩ := exists_thread h
  simp [Pool.phase, thread, Pool.setPhase, hv]

/-- A thread goes on with what is in its queue and in its hand. -/
theorem SafePlaces.setPhase (h : SafePlaces s) {w : Nat} {phase : Phase}
    (hlive : s.phase w ≠ .exited)
    (hprivate : s.contents (.privateJobs w) ≠ [] → phase ≠ .drained ∧ phase ≠ .exited)
    (hhand : s.contents (.workerHand w) ≠ [] → phase = .running ∨ phase = .exiting) :
    SafePlaces (s.setPhase w phase) := by
  intro p hp
  have hdrains := h p hp
  cases p with
  | privateJobs v =>
    show (s.setPhase w phase).phase v ≠ .drained ∧ (s.setPhase w phase).phase v ≠ .exited
    by_cases hvw : v = w
    · subst hvw
      rw [phase_setPhase_self hlive]
      exact hprivate hp
    · rw [phase_setPhase_of_ne hvw]
      exact hdrains
  | sharedJobs => exact hdrains
  | workerHand v =>
    show (s.setPhase w phase).phase v = .running ∨ (s.setPhase w phase).phase v = .exiting
    by_cases hvw : v = w
    · subst hvw
      rw [phase_setPhase_self hlive]
      exact hhand hp
    · rw [phase_setPhase_of_ne hvw]
      exact hdrains
  | mainHand => exact hdrains
  | executed => trivial

theorem phase_scaleUp {w : Nat} (h : s.phase w ≠ .exited) : s.scaleUp.phase w = s.phase w := by
  obtain ⟨v, hv, -⟩ := exists_thread h
  have hlt := (List.getElem?_eq_some_iff.1 hv).1
  rw [phase, phase, thread, thread, scaleUp, List.getElem?_append_left hlt]

theorem phase_renumber (threads : List Worker) (kept : List Nat) (i w : Nat) :
    ((renumber threads kept i)[w]?.map Worker.phase) = threads[w]?.map Worker.phase := by
  induction kept generalizing threads i with
  | nil => rfl
  | cons k kept ih =>
    rw [renumber, ih, List.getElem?_modify]
    cases threads[w]? with
    | none => rfl
    | some v =>
      show some (Worker.phase (if k = w then _ else v)) = _
      split_ifs <;> rfl

theorem phase_eq (s : Pool) (w : Nat) :
    s.phase w = (s.threads[w]?.map Worker.phase).getD .exited := by
  rw [phase, thread]
  cases s.threads[w]? <;> rfl

theorem phase_autofix (s : Pool) (leaked : Nat → Bool) (w : Nat) :
    (s.autofix leaked).phase w = s.phase w := by
  unfold autofix
  split_ifs
  · rw [phase_eq, phase_eq s, phase_renumber]
  · rfl

/-! ## Which steps keep the jobs -/

/-- A job goes to the queue of a worker only while that worker has not finished moving its jobs
    over, and to the shared queue only while the module is ticked; `stop` returns 0 only when no
    worker has a job left in its queue or its hand; and the module is cleaned up only with an
    empty shared queue. -/
def KeepsJobs (s : Pool) : Step → Prop
  | .spawnEmplace caller => ∀ call, s.spawning caller = some call → call.checked = true →
      s.Drains call.place
  | .rebalancePush w => ∀ candidates, s.main = .rebalancing candidates → w ∈ candidates →
      s.contents .mainHand ≠ [] → s.Drains (.privateJobs w)
  | .drainPush w => s.phase w = .exiting → s.contents (.workerHand w) ≠ [] →
      s.Drains .sharedJobs
  | .stopReturn => s.main = .stopping [] → s.contents .sharedJobs = [] →
      ∀ w < s.threads.length, s.contents (.privateJobs w) = [] ∧ s.contents (.workerHand w) = []
  | .internalCleanup => s.main = .idle → s.contents .sharedJobs = []
  | _ => True

/-- A job that is moved arrives, so the place it is moved to has to be safe. -/
theorem SafePlaces.move_iff (h : SafePlaces s) {p q : Place} :
    SafePlaces (s.move p q) ↔ (s.contents p ≠ [] → s.Drains q) :=
  ⟨fun hmoved hp => hmoved q (transfer_target_ne_nil hp), h.move⟩

theorem safePlaces_spawnEmplace_iff (h : SafePlaces s) (caller : Nat) :
    SafePlaces (s.act (.spawnEmplace caller)) ↔ KeepsJobs s (.spawnEmplace caller) := by
  simp only [act, KeepsJobs]
  cases hcall : s.spawning caller with
  | none => exact iff_of_true h fun _ hcall' _ => absurd hcall' (Option.some_ne_none _).symm
  | some call =>
    dsimp only
    split_ifs with hchecked
    · constructor
      · intro hsafe call' hcall' _
        obtain rfl := Option.some.inj hcall'
        exact hsafe call.place (List.ne_nil_of_mem (mem_push.2 (.inr ⟨rfl, rfl⟩)))
      · intro hdrains p hp
        obtain ⟨j, hj⟩ := List.exists_mem_of_ne_nil _ hp
        obtain hold | ⟨rfl, -⟩ := mem_push.1 hj
        · exact h p (List.ne_nil_of_mem hold)
        · exact hdrains call rfl hchecked
    · refine iff_of_true h fun call' hcall' hchecked' => ?_
      obtain rfl := Option.some.inj hcall'
      exact absurd hchecked' hchecked

theorem safePlaces_rebalancePush_iff (h : SafePlaces s) (w : Nat) :
    SafePlaces (s.act (.rebalancePush w)) ↔ KeepsJobs s (.rebalancePush w) := by
  simp only [act, KeepsJobs]
  cases hmain : s.main with
  | rebalancing candidates =>
    dsimp only
    split_ifs with hmem
    · rw [h.move_iff]
      constructor
      · intro hsafe candidates' heq _ hhand
        exact hsafe hhand
      · intro hsafe hhand
        exact hsafe candidates rfl hmem hhand
    · refine iff_of_true h fun candidates' heq hmem' => ?_
      obtain rfl := MainThread.rebalancing.inj heq
      exact absurd hmem' hmem
  | idle => exact iff_of_true h nofun
  | doingShared => exact iff_of_true h nofun
  | stopping remaining => exact iff_of_true h nofun

theorem safePlaces_drainPush_iff (h : SafePlaces s) (w : Nat) :
    SafePlaces (s.act (.drainPush w)) ↔ KeepsJobs s (.drainPush w) := by
  simp only [act, KeepsJobs]
  split_ifs with hphase
  · rw [h.move_iff]
    exact ⟨fun hsafe _ => hsafe, fun hsafe => hsafe hphase⟩
  · exact iff_of_true h fun hphase' => absurd hphase' hphase

theorem safePlaces_internalCleanup_iff (h : SafePlaces s) :
    SafePlaces (s.act .internalCleanup) ↔ KeepsJobs s .internalCleanup := by
  simp only [act, KeepsJobs]
  split_ifs with hidle
  · constructor
    · intro hsafe _
      by_contra hshared
      exact absurd (hsafe .sharedJobs hshared) Bool.false_ne_true
    · intro hshared p hp
      cases p with
      | sharedJobs => exact absurd (hshared hidle) hp
      | privateJobs w => exact h (.privateJobs w) hp
      | workerHand w => exact h (.workerHand w) hp
      | mainHand => exact h .mainHand hp
      | executed => trivial
  · exact iff_of_true h fun hidle' => absurd hidle' hidle

/-- The main thread holds nothing while it does nothing or checks the queues. -/
theorem SafePlaces.mainHand_eq_nil (h : SafePlaces s)
    (hmain : s.main = .idle ∨ ∃ remaining, s.main = .stopping remaining) :
    s.contents .mainHand = [] := by
  by_contra hne
  have hdrains : s.main = .doingShared ∨ ∃ candidates, s.main = .rebalancing candidates :=
    h .mainHand hne
  obtain hidle | ⟨remaining, hstopping⟩ := hmain
  · rw [hidle] at hdrains
    obtain hdoing | ⟨_, hrebalancing⟩ := hdrains
    · cases hdoing
    · cases hrebalancing
  · rw [hstopping] at hdrains
    obtain hdoing | ⟨_, hrebalancing⟩ := hdrains
    · cases hdoing
    · cases hrebalancing

/-- The steps without a condition. -/
theorem SafePlaces.act (h : SafePlaces s) (a : Step)
    (ha : match a with
      | .spawnEmplace _ | .rebalancePush _ | .drainPush _ | .stopReturn | .internalCleanup => False
      | _ => True) : SafePlaces (s.act a) := by
  have hsame : ∀ w, s.phase w ≠ .exited → s.phase w = s.phase w := fun _ _ => rfl
  cases a with
  | spawnEmplace => cases ha
  | rebalancePush => cases ha
  | drainPush => cases ha
  | stopReturn => cases ha
  | internalCleanup => cases ha
  | spawnSelect caller choice leaked =>
    simp only [Pool.act]
    split_ifs
    · exact h.of_phase rfl rfl rfl hsame
    · exact h
  | spawnToSelect caller workerId leaked =>
    simp only [Pool.act]
    split
    · split_ifs
      · exact h.of_phase rfl rfl rfl hsame
      · exact h
    · exact h
  | spawnCheck caller =>
    simp only [Pool.act]
    split
    · split_ifs
      · exact h
      · exact h.of_phase rfl rfl rfl hsame
      · exact h.of_phase rfl rfl rfl hsame
    · exact h
  | workerStart w =>
    simp only [Pool.act]
    split_ifs with hphase
    · exact h.setPhase (by rw [hphase]; decide) (fun _ => by decide) fun _ => .inl rfl
    · exact h
  | workerPop w =>
    simp only [Pool.act]
    split_ifs with hphase
    · exact h.move fun _ => .inl hphase.1
    · exact h
  | workerExecute w =>
    simp only [Pool.act]
    split_ifs
    · exact h.move fun _ => trivial
    · exact h
  | workerLeave w =>
    simp only [Pool.act]
    split_ifs with hphase
    · exact h.setPhase (by rw [hphase.1]; decide) (fun _ => by decide)
        fun hhand => absurd hphase.2.1 hhand
    · exact h
  | workerExiting w =>
    simp only [Pool.act]
    split_ifs with hphase
    · exact h.setPhase (by rw [hphase]; decide) (fun _ => by decide) fun _ => .inr rfl
    · exact h
  | drainPop w =>
    simp only [Pool.act]
    split_ifs with hphase
    · exact h.move fun _ => .inr hphase.1
    · exact h
  | drainEnd w =>
    simp only [Pool.act]
    split_ifs with hphase
    · exact h.setPhase (by rw [hphase.1]; decide) (fun hprivate => absurd hphase.2.2 hprivate)
        fun hhand => absurd hphase.2.1 hhand
    · exact h
  | workerExited w =>
    simp only [Pool.act]
    split_ifs with hphase
    · refine h.setPhase (by rw [hphase]; decide) (fun hprivate => ?_) fun hhand => ?_
      · exact absurd hphase (h (.privateJobs w) hprivate).1
      · obtain hrunning | hexiting := h (.workerHand w) hhand
        · rw [hphase] at hrunning
          cases hrunning
        · rw [hphase] at hexiting
          cases hexiting
    · exact h
  | tickScale expectWorkers =>
    simp only [Pool.act]
    split_ifs
    · exact h.of_phase rfl rfl rfl hsame
    · exact h
  | doScalingUp => exact h.of_phase rfl rfl rfl fun _ => phase_scaleUp
  | internalReduceWorkers leaked =>
    simp only [Pool.act]
    split
    · split_ifs
      · exact h.of_phase rfl rfl rfl hsame
      · exact h
    · exact h
  | internalAutofixWorkers leaked =>
    simp only [Pool.act]
    split_ifs
    · obtain ⟨hcontents, -, -, -, hmain, hticking, -⟩ := s.autofix_frame leaked
      exact h.of_phase hcontents hticking hmain fun w _ => s.phase_autofix leaked w
    · exact h
  | rebalanceBegin leaked =>
    simp only [Pool.act]
    split_ifs
    · exact h.main rfl rfl rfl fun _ => .inr ⟨_, rfl⟩
    · exact h
  | rebalancePop =>
    simp only [Pool.act]
    split
    · next hmain =>
      split_ifs
      · exact h.move fun _ => .inr ⟨_, hmain⟩
      · exact h
    · exact h
  | rebalanceEnd =>
    simp only [Pool.act]
    split
    · split_ifs with hend
      · exact h.main rfl rfl rfl fun hhand => absurd hend.1 hhand
      · exact h
    · exact h
  | sharedPop =>
    simp only [Pool.act]
    split_ifs
    · have hmain : SafePlaces { s with main := .doingShared } :=
        h.main rfl rfl rfl fun _ => .inl rfl
      exact hmain.move fun _ => .inl rfl
    · exact h
  | sharedExecute =>
    simp only [Pool.act]
    split_ifs
    · exact h.move fun _ => trivial
    · exact h
  | sharedEnd =>
    simp only [Pool.act]
    split_ifs with hend
    · exact h.main rfl rfl rfl fun hhand => absurd hend.2 hhand
    · exact h
  | stopClose =>
    simp only [Pool.act]
    split_ifs
    · exact h.of_phase rfl rfl rfl hsame
    · exact h
  | stopExpect =>
    simp only [Pool.act]
    split_ifs
    · exact h.of_phase rfl rfl rfl hsame
    · exact h
  | stopBegin =>
    simp only [Pool.act]
    split_ifs with hbegin
    · exact h.main rfl rfl rfl fun hhand => absurd (h.mainHand_eq_nil (.inl hbegin.1)) hhand
    · exact h
  | stopCheck leaked =>
    simp only [Pool.act]
    split
    · next hmain =>
      have hempty := h.mainHand_eq_nil (.inr ⟨_, hmain⟩)
      split_ifs
      · exact h.main rfl rfl rfl fun hhand => absurd hempty hhand
      · exact h.main rfl rfl rfl fun hhand => absurd hempty hhand
    · exact h

/-- Only `stop` sets the flag that it has returned 0. -/
theorem stopped_act (s : Pool) (a : Step) (ha : a ≠ .stopReturn) :
    (s.act a).stopped = s.stopped := by
  cases a <;> simp only [act]
  case stopReturn => exact absurd rfl ha
  case internalAutofixWorkers leaked =>
    have hframe := s.autofix_frame leaked
    split_ifs
    · exact hframe.2.2.2.2.2.2
    · rfl
  all_goals
    (repeat' split) <;> rfl

/-- Every step but the return of `stop` keeps the places safe exactly if it keeps the jobs. -/
theorem safePlaces_act_iff (h : SafePlaces s) (a : Step) (ha : a ≠ .stopReturn) :
    SafePlaces (s.act a) ↔ KeepsJobs s a := by
  cases a with
  | spawnEmplace caller => exact safePlaces_spawnEmplace_iff h caller
  | rebalancePush w => exact safePlaces_rebalancePush_iff h w
  | drainPush w => exact safePlaces_drainPush_iff h w
  | internalCleanup => exact safePlaces_internalCleanup_iff h
  | stopReturn => exact absurd rfl ha
  | _ => exact iff_of_true (h.act _ trivial) trivial

/-- Only worker objects have jobs. -/
theorem SafePlaces.lt_length (h : SafePlaces s) {w : Nat}
    (hw : s.contents (.privateJobs w) ≠ [] ∨ s.contents (.workerHand w) ≠ []) :
    w < s.threads.length := by
  have hlive : s.phase w ≠ .exited := by
    obtain hprivate | hhand := hw
    · exact (h (.privateJobs w) hprivate).2
    · intro hexited
      obtain hphase | hphase := h (.workerHand w) hhand
      · rw [hexited] at hphase
        cases hphase
      · rw [hexited] at hphase
        cases hphase
  obtain ⟨v, hv, -⟩ := exists_thread hlive
  exact (List.getElem?_eq_some_iff.1 hv).1

/-- `stop` returns 0 with nothing left exactly if no worker has a job. -/
theorem jobsSafe_stopReturn_iff (hplaced : JobsPlaced s) (h : SafePlaces s)
    (hstopped : s.stopped = false) :
    JobsSafe (s.act .stopReturn) ↔ KeepsJobs s .stopReturn := by
  rw [(hplaced.act .stopReturn).jobsSafe_iff]
  have hgoing : SafePlaces s ∧ (s.stopped = true → ∀ p, p ≠ .executed → s.contents p = []) :=
    ⟨h, fun htrue => by rw [hstopped] at htrue; cases htrue⟩
  simp only [act, KeepsJobs]
  cases hmain : s.main with
  | idle => exact iff_of_true hgoing nofun
  | doingShared => exact iff_of_true hgoing nofun
  | rebalancing candidates => exact iff_of_true hgoing nofun
  | stopping remaining =>
    have hhand := h.mainHand_eq_nil (.inr ⟨_, hmain⟩)
    cases remaining with
    | cons w remaining => exact iff_of_true hgoing nofun
    | nil =>
      dsimp only
      split_ifs with hshared
      · refine iff_of_true ⟨?_, hgoing.2⟩ fun _ hempty => absurd hempty hshared
        exact h.main rfl rfl rfl fun hne => absurd hhand hne
      · have hshared' : s.contents .sharedJobs = [] := not_not.1 hshared
        constructor
        · intro hsafe _ _ w _
          exact ⟨hsafe.2 rfl (.privateJobs w) nofun, hsafe.2 rfl (.workerHand w) nofun⟩
        · intro hkeeps
          have hworkers : ∀ w, s.contents (.privateJobs w) = [] ∧
              s.contents (.workerHand w) = [] := by
            intro w
            by_cases hw : w < s.threads.length
            · exact hkeeps rfl hshared' w hw
            · refine ⟨?_, ?_⟩
              · by_contra hne
                exact hw (h.lt_length (.inl hne))
              · by_contra hne
                exact hw (h.lt_length (.inr hne))
          have hempty : ∀ p, p ≠ .executed → s.contents p = [] := by
            intro p hne
            cases p with
            | privateJobs w => exact (hworkers w).1
            | sharedJobs => exact hshared'
            | workerHand w => exact (hworkers w).2
            | mainHand => exact hhand
            | executed => exact absurd rfl hne
          refine ⟨fun p hp => ?_, fun _ => hempty⟩
          by_cases hne : p = .executed
          · subst hne
            trivial
          · exact absurd (hempty p hne) hp

/-! ## Runs -/

/-- The state before a step with the flag of the last `stop` taken back. -/
theorem JobsPlaced.step (h : JobsPlaced s) (a : Step) : JobsPlaced (s.step a) := by
  have hunset : JobsPlaced { s with stopped := false } :=
    ⟨h.separate, h.placed, h.fresh, h.called⟩
  exact hunset.act a

/-- **Every step** keeps the jobs safe exactly if it meets the condition. -/
theorem jobsSafe_step_iff (hplaced : JobsPlaced s) (hsafe : JobsSafe s) (a : Step) :
    JobsSafe (s.step a) ↔ KeepsJobs s a := by
  have hunset : JobsPlaced { s with stopped := false } :=
    ⟨hplaced.separate, hplaced.placed, hplaced.fresh, hplaced.called⟩
  have hplaces : SafePlaces { s with stopped := false } := (hplaced.jobsSafe_iff.1 hsafe).1
  have hkeeps : KeepsJobs { s with stopped := false } a ↔ KeepsJobs s a := by
    cases a <;> exact Iff.rfl
  rw [← hkeeps]
  by_cases hreturn : a = .stopReturn
  · subst hreturn
    exact jobsSafe_stopReturn_iff hunset hplaces rfl
  · rw [← safePlaces_act_iff hplaces a hreturn, Pool.step, (hunset.act a).jobsSafe_iff,
      stopped_act _ a hreturn]
    exact and_iff_left fun htrue => absurd htrue Bool.false_ne_true

theorem jobsPlaced_run (queueSizeLimit : Nat) (steps : List Step) :
    JobsPlaced (Run.run step (construct queueSizeLimit) steps) :=
  @Run.invariant_all _ _ step JobsPlaced (fun _ a hs => JobsPlaced.step hs a) _
    (jobsPlaced_construct queueSizeLimit) steps

theorem jobsSafe_construct (queueSizeLimit : Nat) : JobsSafe (construct queueSizeLimit) :=
  ⟨List.nodup_nil, fun _ hj => absurd hj List.not_mem_nil,
    fun htrue => absurd htrue Bool.false_ne_true⟩

/-- **No job is executed twice**, in any run. -/
theorem always_executedOnce (queueSizeLimit : Nat) (steps : List Step) :
    Run.Always step (fun s => (s.contents .executed).Nodup) (construct queueSizeLimit) steps := by
  intro front _
  exact (jobsPlaced_run queueSizeLimit front).separate.nodup _

/-- **No accepted job is lost or run twice** throughout a run exactly if every step keeps the
    jobs. -/
theorem always_jobsSafe_iff (queueSizeLimit : Nat) (steps : List Step) :
    Run.Always step JobsSafe (construct queueSizeLimit) steps ↔
      Run.StepsMeet step KeepsJobs (construct queueSizeLimit) steps := by
  have hany : Run.StepsMeet step (fun _ _ => True) (construct queueSizeLimit) steps :=
    Run.stepsMeet_of_forall step (fun _ _ => trivial) _ _
  exact Run.always_iff_stepsMeet step (fun _ a hs _ _ _ => JobsPlaced.step hs a)
    (fun _ a hs hp _ => jobsSafe_step_iff hs hp a) (jobsPlaced_construct queueSizeLimit)
    (jobsSafe_construct queueSizeLimit) hany

/-- `spawn` finds the worker with the id 2, the pool is scaled down and the worker goes away before
    the job is enqueued. -/
def lateSpawnRun : List Step :=
  [.doScalingUp, .workerStart 0, .workerStart 1, .spawnToSelect 0 2 fun _ => false, .spawnCheck 0,
    .tickScale 1, .workerLeave 1, .workerExiting 1, .drainEnd 1, .spawnEmplace 0]

/-- The job stays in a queue that nobody looks at again. -/
theorem not_always_jobsSafe_lateSpawnRun :
    ¬ Run.Always step JobsSafe (construct 20480) lateSpawnRun := by
  intro halways
  obtain ⟨p, hp, hdrains⟩ := (halways.last step).pending 0 (by decide +kernel) (by decide +kernel)
  obtain rfl := (jobsPlaced_run 20480 lateSpawnRun).separate.apart p (.privateJobs 1) 0 hp (by decide +kernel)
  exact absurd (by decide +kernel) hdrains.1

end Pool

end LibAtapp.WorkerJobs
