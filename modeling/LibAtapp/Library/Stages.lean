import LibAtapp.Library.Run

set_option autoImplicit false

/-! # Getting up stage by stage

A system gets up in stages, counted by a rank. A stage is passed in two moves: the system asks for
what is missing, once it is time, and is answered. Other steps may come in between and may even pass
stages on their own, but they take nothing back. This file has the rule that a system whose steps
are all good is at the top after as many rounds as stages are missing, where a round has a step that
is late enough to ask and behind it one that answers. -/

namespace LibAtapp.Run

variable {σ ι δ : Type} (step : σ → ι → σ)

/-- The stages of a system. `rank` is the stage of a state, `asked` says that what is missing was
    asked for, `waits s d` that it may be asked for after the time `d`, `late d i` that a step is
    after that time, and `answers` which steps answer what is asked for at a rank. -/
structure Stages (side : σ → Prop) (good : σ → ι → Prop) (rank : σ → ℕ) (top : ℕ)
    (asked : σ → Prop) (waits : σ → δ → Prop) (late : δ → ι → Prop) (answers : ℕ → ι → Prop) :
    Prop where
  keeps : ∀ s i, side s → good s i → side (step s i)
  rises : ∀ s i, side s → good s i → rank s ≤ rank (step s i)
  holds : ∀ s i, side s → good s i → rank s < top → rank (step s i) = rank s → asked s →
    asked (step s i)
  delays : ∀ s i d, side s → good s i → rank s < top → rank (step s i) = rank s → waits s d →
    waits (step s i) d ∨ asked (step s i)
  asks : ∀ s i d, side s → good s i → rank s < top → waits s d → late d i →
    rank s < rank (step s i) ∨ asked (step s i)
  passes : ∀ s i, side s → good s i → rank s < top → asked s → answers (rank s) i →
    rank s < rank (step s i)

/-- A round: a step that is late enough to ask for what is missing at the start of the round, and
    behind it one that answers it. -/
def Round (rank : σ → ℕ) (top : ℕ) (waits : σ → δ → Prop) (late : δ → ι → Prop)
    (answers : ℕ → ι → Prop) (s : σ) (round : List ι) : Prop :=
  rank s < top → ∃ front i back d, round = front ++ i :: back ∧ waits s d ∧ late d i ∧
    ∃ j ∈ back, answers (rank s) j

/-- So many rounds, one after the other. -/
def Rounds (rank : σ → ℕ) (top : ℕ) (waits : σ → δ → Prop) (late : δ → ι → Prop)
    (answers : ℕ → ι → Prop) : σ → List (List ι) → Prop
  | _, [] => True
  | s, round :: rounds => Round rank top waits late answers s round ∧
    Rounds rank top waits late answers (run step s round) rounds

namespace Stages

variable {step} {side : σ → Prop} {good : σ → ι → Prop} {rank : σ → ℕ} {top : ℕ} {asked : σ → Prop}
  {waits : σ → δ → Prop} {late : δ → ι → Prop} {answers : ℕ → ι → Prop}
  (h : Stages step side good rank top asked waits late answers)
include h

theorem side_run {s : σ} {is : List ι} (hside : side s) (hgood : StepsMeet step good s is) :
    side (run step s is) :=
  invariant step h.keeps hside hgood

theorem rank_run {s : σ} {is : List ι} (hside : side s) (hgood : StepsMeet step good s is) :
    rank s ≤ rank (run step s is) := by
  induction is generalizing s with
  | nil => exact le_rfl
  | cons i is ih =>
    exact (h.rises s i hside hgood.1).trans (ih (h.keeps s i hside hgood.1) hgood.2)

/-- Until a stage is passed, what was asked for stays asked for. -/
theorem asked_run {s : σ} {is : List ι} (hside : side s) (hgood : StepsMeet step good s is)
    (htop : rank s < top) (hasked : asked s) :
    rank s < rank (run step s is) ∨ rank (run step s is) = rank s ∧ asked (run step s is) := by
  induction is generalizing s with
  | nil => exact Or.inr ⟨rfl, hasked⟩
  | cons i is ih =>
    obtain ⟨hi, hgood⟩ := hgood
    have hside' := h.keeps s i hside hi
    rcases (h.rises s i hside hi).eq_or_lt with heq | hlt
    · rw [heq] at htop ⊢
      exact ih hside' hgood htop (h.holds s i hside hi (heq ▸ htop) heq.symm hasked)
    · exact Or.inl (hlt.trans_le (h.rank_run hside' hgood))

/-- Until a stage is passed or what is missing is asked for, it may be asked for as early. -/
theorem waits_run {s : σ} {is : List ι} {d : δ} (hside : side s) (hgood : StepsMeet step good s is)
    (htop : rank s < top) (hwaits : waits s d) :
    rank s < rank (run step s is) ∨
      rank (run step s is) = rank s ∧ (waits (run step s is) d ∨ asked (run step s is)) := by
  induction is generalizing s with
  | nil => exact Or.inr ⟨rfl, Or.inl hwaits⟩
  | cons i is ih =>
    obtain ⟨hi, hgood⟩ := hgood
    have hside' := h.keeps s i hside hi
    rcases (h.rises s i hside hi).eq_or_lt with heq | hlt
    · have htop' : rank (step s i) < top := heq ▸ htop
      rw [heq]
      rcases h.delays s i d hside hi htop heq.symm hwaits with hwaits | hasked
      · exact ih hside' hgood htop' hwaits
      · exact (h.asked_run hside' hgood htop' hasked).imp_right (And.imp_right Or.inr)
    · exact Or.inl (hlt.trans_le (h.rank_run hside' hgood))

/-- An answer passes the stage that is asked for. -/
theorem rank_lt_of_answer {s : σ} {is : List ι} (hside : side s)
    (hgood : StepsMeet step good s is) (htop : rank s < top) (hasked : asked s) {j : ι}
    (hj : j ∈ is) (hanswer : answers (rank s) j) : rank s < rank (run step s is) := by
  obtain ⟨front, back, rfl⟩ := List.append_of_mem hj
  obtain ⟨hfront, hgoodj, hback⟩ := (StepsMeet.append step).1 hgood
  have hside' := h.side_run hside hfront
  have hlast := h.rank_run (h.keeps _ j hside' hgoodj) hback
  rw [run_append, run_cons]
  refine lt_of_lt_of_le ?_ hlast
  rcases h.asked_run hside hfront htop hasked with hlt | ⟨heq, hasked⟩
  · exact hlt.trans_le (h.rises _ j hside' hgoodj)
  · rw [← heq] at htop hanswer ⊢
    exact h.passes _ j hside' hgoodj htop hasked hanswer

/-- **A round passes a stage.** -/
theorem rank_lt_of_round {s : σ} {round : List ι} (hside : side s)
    (hgood : StepsMeet step good s round) (htop : rank s < top)
    (hround : Round rank top waits late answers s round) : rank s < rank (run step s round) := by
  obtain ⟨front, i, back, d, rfl, hwaits, hlate, j, hj, hanswer⟩ := hround htop
  obtain ⟨hfront, hgoodi, hback⟩ := (StepsMeet.append step).1 hgood
  have hside' := h.side_run hside hfront
  have hside'' := h.keeps _ i hside' hgoodi
  have hstep := h.rises _ i hside' hgoodi
  have hlast := h.rank_run hside'' hback
  rw [run_append, run_cons]
  rcases h.waits_run hside hfront htop hwaits with hlt | ⟨heq, hcase⟩
  · exact hlt.trans_le (hstep.trans hlast)
  have htop' : rank (run step s front) < top := heq ▸ htop
  -- at the late step the stage is passed, or asked for from then on
  have hnext : rank s < rank (step (run step s front) i) ∨
      rank (step (run step s front) i) = rank s ∧ asked (step (run step s front) i) := by
    rcases hstep.eq_or_lt with hsame | hlt
    · rcases hcase with hwaits | hasked
      · rcases h.asks _ i d hside' hgoodi htop' hwaits hlate with hlt | hasked
        · exact Or.inl (heq ▸ hlt)
        · exact Or.inr ⟨hsame.symm.trans heq, hasked⟩
      · exact Or.inr ⟨hsame.symm.trans heq, h.holds _ i hside' hgoodi htop' hsame.symm hasked⟩
    · exact Or.inl (heq ▸ hlt)
  rcases hnext with hlt | ⟨hsame, hasked⟩
  · exact hlt.trans_le hlast
  · rw [← hsame] at htop hanswer ⊢
    exact h.rank_lt_of_answer hside'' hback htop hasked hj hanswer

/-- **Enough rounds lead to the top.** -/
theorem top_le_rank {rounds : List (List ι)} {s : σ} (hside : side s)
    (hgood : StepsMeet step good s rounds.flatten)
    (hrounds : Rounds step rank top waits late answers s rounds)
    (henough : top ≤ rank s + rounds.length) : top ≤ rank (run step s rounds.flatten) := by
  induction rounds generalizing s with
  | nil => simpa using henough
  | cons round rounds ih =>
    rw [List.flatten_cons] at hgood ⊢
    obtain ⟨hfirst, hrest⟩ := (StepsMeet.append step).1 hgood
    have hside' := h.side_run hside hfirst
    rw [run_append]
    by_cases htop : rank s < top
    · refine ih hside' hrest hrounds.2 ?_
      have hlt := h.rank_lt_of_round hside hfirst htop hrounds.1
      rw [List.length_cons] at henough
      omega
    · exact (not_lt.1 htop).trans
        ((h.rank_run hside hfirst).trans (h.rank_run hside' hrest))

end Stages

end LibAtapp.Run
