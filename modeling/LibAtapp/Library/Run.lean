import Mathlib.Data.List.Infix

set_option autoImplicit false

/-! # Runs of a deterministic system

A system is a step function from a state and an input to the next state. This file has its runs
over input lists, the predicate that every step of a run meets a condition on the state before it
and its input, and the induction rules that carry a property along a run. -/

namespace LibAtapp.Run

variable {σ ι : Type} (step : σ → ι → σ)

/-- The state after a list of inputs. -/
def run (s : σ) (inputs : List ι) : σ := inputs.foldl step s

@[simp] theorem run_nil (s : σ) : run step s [] = s := rfl

@[simp] theorem run_cons (s : σ) (i : ι) (is : List ι) :
    run step s (i :: is) = run step (step s i) is := rfl

theorem run_append (s : σ) (is js : List ι) :
    run step s (is ++ js) = run step (run step s is) js :=
  List.foldl_append

/-- Every step of the run meets `cond`, a condition on the state before the step and its input. -/
def StepsMeet (cond : σ → ι → Prop) : σ → List ι → Prop
  | _, [] => True
  | s, i :: is => cond s i ∧ StepsMeet cond (step s i) is

instance stepsMeetDecidable (cond : σ → ι → Prop) [∀ s i, Decidable (cond s i)] :
    ∀ (s : σ) (is : List ι), Decidable (StepsMeet step cond s is)
  | _, [] => inferInstanceAs (Decidable True)
  | s, i :: is =>
    have := stepsMeetDecidable cond (step s i) is
    inferInstanceAs (Decidable (cond s i ∧ StepsMeet step cond (step s i) is))

theorem StepsMeet.append {cond : σ → ι → Prop} {s : σ} {is js : List ι} :
    StepsMeet step cond s (is ++ js) ↔
      StepsMeet step cond s is ∧ StepsMeet step cond (run step s is) js := by
  induction is generalizing s with
  | nil => simp [StepsMeet]
  | cons i is ih => simp only [List.cons_append, StepsMeet, ih, run_cons, and_assoc]

/-- A step of a run whose steps all meet `cond` meets it after the steps before it. -/
theorem StepsMeet.at_split {cond : σ → ι → Prop} {s : σ} {is js : List ι} {i : ι}
    (h : StepsMeet step cond s (is ++ i :: js)) :
    StepsMeet step cond s is ∧ cond (run step s is) i := by
  obtain ⟨hfront, hback⟩ := (StepsMeet.append step).1 h
  exact ⟨hfront, hback.1⟩

/-- Where not all steps meet `cond`, there is a first one that does not. -/
theorem exists_first_of_not_stepsMeet {cond : σ → ι → Prop} {s : σ} {is : List ι}
    (h : ¬ StepsMeet step cond s is) :
    ∃ front i back, is = front ++ i :: back ∧ StepsMeet step cond s front ∧
      ¬ cond (run step s front) i := by
  induction is generalizing s with
  | nil => exact absurd trivial h
  | cons i is ih =>
      by_cases hi : cond s i
      · obtain ⟨front, j, back, heq, hfront, hj⟩ := ih (fun hrest => h ⟨hi, hrest⟩)
        exact ⟨i :: front, j, back, by rw [heq]; rfl, ⟨hi, hfront⟩, hj⟩
      · exact ⟨[], i, is, rfl, trivial, hi⟩

/-- A property that holds behind a run and not before it is brought about by a step of the run, from
    which on it holds. -/
theorem exists_turn {p : σ → Prop} {s : σ} {is : List ι} (hs : ¬ p s)
    (h : p (run step s is)) :
    ∃ front i back, is = front ++ i :: back ∧ ¬ p (run step s front) ∧
      ∀ later, later <+: back → p (run step s (front ++ i :: later)) := by
  induction is using List.reverseRecOn with
  | nil => exact absurd h hs
  | append_singleton is j ih =>
    by_cases hj : p (run step s is)
    · obtain ⟨front, i, back, rfl, hfront, hback⟩ := ih hj
      refine ⟨front, i, back ++ [j], by simp, hfront, fun later hlater => ?_⟩
      rcases List.prefix_concat_iff.1 hlater with rfl | hlater
      · simpa using h
      · exact hback later hlater
    · refine ⟨is, j, [], rfl, hj, fun later hlater => ?_⟩
      rw [List.prefix_nil.1 hlater]
      exact h

theorem StepsMeet.mono {cond cond' : σ → ι → Prop} (h : ∀ s i, cond s i → cond' s i) {s : σ}
    {is : List ι} (hs : StepsMeet step cond s is) : StepsMeet step cond' s is := by
  induction is generalizing s with
  | nil => trivial
  | cons i is ih => exact ⟨h s i hs.1, ih hs.2⟩

theorem StepsMeet.and {cond cond' : σ → ι → Prop} {s : σ} {is : List ι}
    (h : StepsMeet step cond s is) (h' : StepsMeet step cond' s is) :
    StepsMeet step (fun s i => cond s i ∧ cond' s i) s is := by
  induction is generalizing s with
  | nil => trivial
  | cons i is ih => exact ⟨⟨h.1, h'.1⟩, ih h.2 h'.2⟩

theorem stepsMeet_of_forall {cond : σ → ι → Prop} (h : ∀ s i, cond s i) (s : σ) (is : List ι) :
    StepsMeet step cond s is := by
  induction is generalizing s with
  | nil => trivial
  | cons i is ih => exact ⟨h s i, ih _⟩

/-- A condition on inputs alone. -/
theorem stepsMeet_of_mem {cond : ι → Prop} {is : List ι} (h : ∀ i ∈ is, cond i) (s : σ) :
    StepsMeet step (fun _ i => cond i) s is := by
  induction is generalizing s with
  | nil => trivial
  | cons i is ih => exact ⟨h i List.mem_cons_self, ih (fun j hj => h j (List.mem_cons_of_mem i hj)) _⟩

/-- An invariant that every step meeting `cond` preserves holds at the end of a run whose steps
    all meet `cond`. -/
theorem invariant {inv : σ → Prop} {cond : σ → ι → Prop}
    (hstep : ∀ s i, inv s → cond s i → inv (step s i)) {s : σ} {is : List ι} (hs : inv s)
    (hmeet : StepsMeet step cond s is) : inv (run step s is) := by
  induction is generalizing s with
  | nil => exact hs
  | cons i is ih => exact ih (hstep s i hs hmeet.1) hmeet.2

/-- Where an invariant kept by the steps that meet `cond` makes each of them meet `cond'`, all steps
    of a run that meet `cond` meet `cond'`. -/
theorem stepsMeet_of_invariant {inv : σ → Prop} {cond cond' : σ → ι → Prop}
    (hstep : ∀ s i, inv s → cond s i → inv (step s i))
    (hcond : ∀ s i, inv s → cond s i → cond' s i) {s : σ} {is : List ι} (hs : inv s)
    (hmeet : StepsMeet step cond s is) : StepsMeet step cond' s is := by
  induction is generalizing s with
  | nil => trivial
  | cons i is ih =>
      exact ⟨hcond s i hs hmeet.1, ih (hstep s i hs hmeet.1) hmeet.2⟩

/-- An invariant that every step preserves holds at the end of every run. -/
theorem invariant_all {inv : σ → Prop} (hstep : ∀ s i, inv s → inv (step s i)) {s : σ} (hs : inv s)
    (is : List ι) : inv (run step s is) := by
  have hmeet : StepsMeet step (fun _ _ => True) s is :=
    stepsMeet_of_forall step (fun _ _ => trivial) s is
  exact invariant step (fun s i h _ => hstep s i h) hs hmeet

/-- The property holds in every state the run passes through. -/
def Always (prop : σ → Prop) (s : σ) (is : List ι) : Prop :=
  ∀ front, front <+: is → prop (run step s front)

theorem Always.last {prop : σ → Prop} {s : σ} {is : List ι} (h : Always step prop s is) :
    prop (run step s is) :=
  h is List.prefix_rfl

theorem always_nil {prop : σ → Prop} {s : σ} : Always step prop s [] ↔ prop s := by
  refine ⟨fun h => h [] List.prefix_rfl, fun h front hf => ?_⟩
  rw [List.prefix_nil.1 hf]
  exact h

theorem always_cons {prop : σ → Prop} {s : σ} {i : ι} {is : List ι} :
    Always step prop s (i :: is) ↔ prop s ∧ Always step prop (step s i) is := by
  constructor
  · intro h
    exact ⟨h [] List.nil_prefix, fun front hf => h (i :: front) (List.cons_prefix_cons.2 ⟨rfl, hf⟩)⟩
  · rintro ⟨hs, h⟩ front hf
    cases front with
    | nil => exact hs
    | cons j front =>
        obtain ⟨rfl, hf'⟩ := List.cons_prefix_cons.1 hf
        exact h front hf'

theorem Always.mono {prop prop' : σ → Prop} (himp : ∀ s, prop s → prop' s) {s : σ} {is : List ι}
    (h : Always step prop s is) : Always step prop' s is :=
  fun front hf => himp _ (h front hf)

/-- An invariant that every step meeting `cond` preserves holds in every state of a run whose
    steps all meet `cond`. -/
theorem always_of_stepsMeet {inv : σ → Prop} {cond : σ → ι → Prop}
    (hstep : ∀ s i, inv s → cond s i → inv (step s i)) {s : σ} {is : List ι} (hs : inv s)
    (hmeet : StepsMeet step cond s is) : Always step inv s is := by
  induction is generalizing s with
  | nil => exact (always_nil step).2 hs
  | cons i is ih => exact (always_cons step).2 ⟨hs, ih (hstep s i hs hmeet.1) hmeet.2⟩

/-- When, in states with the side invariant `side` and for steps in `dom`, a step keeps `prop`
    exactly if it meets `cond`, a run in `dom` keeps `prop` throughout exactly if all its steps
    meet `cond`. -/
theorem always_iff_stepsMeet {side prop : σ → Prop} {dom cond : σ → ι → Prop}
    (hside : ∀ s i, side s → prop s → dom s i → cond s i → side (step s i))
    (hstep : ∀ s i, side s → prop s → dom s i → (prop (step s i) ↔ cond s i)) {s : σ} {is : List ι}
    (hs : side s) (hp : prop s) (hdom : StepsMeet step dom s is) :
    Always step prop s is ↔ StepsMeet step cond s is := by
  induction is generalizing s with
  | nil => exact ⟨fun _ => trivial, fun _ => (always_nil step).2 hp⟩
  | cons i is ih =>
      obtain ⟨hd, hdom⟩ := hdom
      rw [always_cons]
      constructor
      · rintro ⟨_, h⟩
        have hp' := h [] List.nil_prefix
        have hc := (hstep s i hs hp hd).1 hp'
        exact ⟨hc, (ih (hside s i hs hp hd hc) hp' hdom).1 h⟩
      · rintro ⟨hc, h⟩
        exact ⟨hp, (ih (hside s i hs hp hd hc) ((hstep s i hs hp hd).2 hc) hdom).2 h⟩

end LibAtapp.Run
