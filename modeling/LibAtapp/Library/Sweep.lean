set_option autoImplicit false

/-! # Sweeps over a list

A sweep visits the elements of a list in order. Each visit replaces its element and hands an
accumulator to the next one. What a sweep does to one element is one visit, under the accumulator
that the visits before it have left, so a property of all elements after the sweep is a condition
on every visit. -/

namespace LibAtapp.Sweep

variable {σ α : Type} (visit : Nat → σ → α → σ × α)

/-- Visits the elements from the position `i` on. -/
def sweep : Nat → σ → List α → σ × List α
  | _, acc, [] => (acc, [])
  | i, acc, x :: xs =>
      let here := visit i acc x
      let rest := sweep (i + 1) here.1 xs
      (rest.1, here.2 :: rest.2)

/-- Every visit meets `cond`, a condition on the accumulator and the element before it. -/
def VisitsMeet (cond : Nat → σ → α → Prop) : Nat → σ → List α → Prop
  | _, _, [] => True
  | i, acc, x :: xs => cond i acc x ∧ VisitsMeet cond (i + 1) (visit i acc x).1 xs

section Visits

variable {visit} {cond : Nat → σ → α → Prop} {i : Nat} {acc : σ} {xs : List α}

/-- A condition that the accumulator has no part in. -/
theorem visitsMeet_iff_forall {cond : Nat → α → Prop} :
    VisitsMeet visit (fun i _ x => cond i x) i acc xs ↔
      ∀ j x, xs[j]? = some x → cond (i + j) x := by
  induction xs generalizing i acc with
  | nil => exact ⟨fun _ _ _ hx => absurd hx nofun, fun _ => trivial⟩
  | cons x xs ih =>
      rw [VisitsMeet, ih]
      simp only [show ∀ j, i + 1 + j = i + (j + 1) by omega]
      constructor
      · rintro ⟨hhere, hrest⟩ j y hy
        cases j with
        | zero =>
            cases hy
            exact hhere
        | succ j => exact hrest j y hy
      · exact fun h => ⟨h 0 x rfl, fun j y hy => h (j + 1) y hy⟩

theorem VisitsMeet.mono {cond' : Nat → σ → α → Prop}
    (himp : ∀ i acc x, cond i acc x → cond' i acc x) (h : VisitsMeet visit cond i acc xs) :
    VisitsMeet visit cond' i acc xs := by
  induction xs generalizing i acc with
  | nil => trivial
  | cons x xs ih => exact ⟨himp i acc x h.1, ih h.2⟩

theorem visitsMeet_and {cond cond' : Nat → σ → α → Prop} :
    VisitsMeet visit (fun i acc x => cond i acc x ∧ cond' i acc x) i acc xs ↔
      VisitsMeet visit cond i acc xs ∧ VisitsMeet visit cond' i acc xs := by
  induction xs generalizing i acc with
  | nil => exact ⟨fun _ => ⟨trivial, trivial⟩, fun _ => trivial⟩
  | cons x xs ih =>
      rw [VisitsMeet, VisitsMeet, VisitsMeet, ih]
      exact and_and_and_comm

/-- Where the elements have a property before their visits, they have another one after the sweep
    exactly if every visit meets the condition under which it gives that property. -/
theorem forall_sweep_iff {dom : Nat → σ → α → Prop} {before after : Nat → α → Prop}
    (hvisit : ∀ i acc x, before i x → dom i acc x → (after i (visit i acc x).2 ↔ cond i acc x))
    (hbefore : ∀ j x, xs[j]? = some x → before (i + j) x) (hdom : VisitsMeet visit dom i acc xs) :
    (∀ j y, (sweep visit i acc xs).2[j]? = some y → after (i + j) y) ↔
      VisitsMeet visit cond i acc xs := by
  induction xs generalizing i acc with
  | nil => exact ⟨fun _ => trivial, fun _ _ _ hy => absurd hy nofun⟩
  | cons x xs ih =>
      obtain ⟨hhere, hrest⟩ := hdom
      have hlater := ih (i := i + 1) (fun j y hy => by
        rw [show i + 1 + j = i + (j + 1) by omega]
        exact hbefore (j + 1) y hy) hrest
      simp only [show ∀ j, i + 1 + j = i + (j + 1) by omega] at hlater
      rw [VisitsMeet, ← hlater, ← hvisit i acc x (hbefore 0 x rfl) hhere]
      constructor
      · exact fun h => ⟨h 0 _ rfl, fun j y hy => h (j + 1) y hy⟩
      · rintro ⟨hfirst, hothers⟩ j y hy
        cases j with
        | zero =>
            cases hy
            exact hfirst
        | succ j => exact hothers j y hy

/-- A flag that visits only raise is clear after the sweep exactly if it was clear before and no
    visit has raised it. -/
theorem flag_sweep_iff {flag : σ → Bool} {raises : Nat → σ → α → Bool}
    (hvisit : ∀ i acc x, flag (visit i acc x).1 = (flag acc || raises i acc x)) :
    flag (sweep visit i acc xs).1 = false ↔
      flag acc = false ∧ VisitsMeet visit (fun i acc x => raises i acc x = false) i acc xs := by
  induction xs generalizing i acc with
  | nil => exact ⟨fun h => ⟨h, trivial⟩, fun h => h.1⟩
  | cons x xs ih =>
      show flag (sweep visit (i + 1) (visit i acc x).1 xs).1 = false ↔ _
      rw [ih, hvisit, Bool.or_eq_false_iff, VisitsMeet, and_assoc]

/-- Every element before the sweep is one after its visit. -/
theorem exists_visited {j : Nat} {x : α} (hx : xs[j]? = some x) :
    ∃ a, (sweep visit i acc xs).2[j]? = some (visit (i + j) a x).2 := by
  induction xs generalizing i acc j with
  | nil => cases hx
  | cons y xs ih =>
      cases j with
      | zero =>
          cases hx
          exact ⟨acc, rfl⟩
      | succ j =>
          rw [show i + (j + 1) = i + 1 + j by omega]
          exact ih hx

/-- Every element after the sweep was visited. -/
theorem exists_visit {j : Nat} {y : α} (hy : (sweep visit i acc xs).2[j]? = some y) :
    ∃ x a, xs[j]? = some x ∧ y = (visit (i + j) a x).2 := by
  induction xs generalizing i acc j with
  | nil => cases hy
  | cons x xs ih =>
      cases j with
      | zero => exact ⟨x, acc, rfl, (Option.some.inj hy).symm⟩
      | succ j =>
          have hrest : (sweep visit (i + 1) (visit i acc x).1 xs).2[j]? = some y := hy
          obtain ⟨x', a, hx', hy'⟩ := ih hrest
          rw [show i + 1 + j = i + (j + 1) by omega] at hy'
          exact ⟨x', a, hx', hy'⟩

end Visits

end LibAtapp.Sweep
