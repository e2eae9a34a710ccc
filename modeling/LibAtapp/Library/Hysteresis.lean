import Mathlib.Data.Int.ConditionallyCompleteOrder
import Mathlib.Order.Monotone.Basic
import Mathlib.Tactic.Linarith
import Mathlib.Tactic.Positivity
import Mathlib.Tactic.Ring

set_option autoImplicit false

/-! # A level with two windows

A level is raised to one mark and lowered to another, each when its own window has elapsed since it
was looked at last. When the upper mark of the raising is not above the mark of the lowering, or
both are always looked at together, the level settles for every sequence of times; otherwise there
are times at which it never does. -/

namespace LibAtapp.Hysteresis

variable {α : Type} [LinearOrder α]

/-- The level is raised to `up` and lowered to `down`. -/
structure Governor (α : Type) where
  up : α
  down : α
  upWindow : ℤ
  downWindow : ℤ
  upWindow_pos : 0 < upWindow
  downWindow_pos : 0 < downWindow

/-- The level, and when the two windows began. -/
@[ext]
structure State (α : Type) where
  level : α
  lastUp : ℤ
  lastDown : ℤ

/-- A window has elapsed. -/
def Elapsed (window last now : ℤ) : Prop := last + window ≤ now

instance (window last now : ℤ) : Decidable (Elapsed window last now) :=
  inferInstanceAs (Decidable (_ ≤ _))

/-- When a window begins after a moment: it begins anew when it has elapsed or the clock shows a
    time before it. -/
def checkpoint (window last now : ℤ) : ℤ :=
  if now < last then now else if Elapsed window last now then now else last

namespace Governor

variable (g : Governor α)

/-- One look at the level. -/
def step (s : State α) (now : ℤ) : State α where
  level :=
    let level := if Elapsed g.upWindow s.lastUp now then max s.level g.up else s.level
    if Elapsed g.downWindow s.lastDown now then min level g.down else level
  lastUp := checkpoint g.upWindow s.lastUp now
  lastDown := checkpoint g.downWindow s.lastDown now

/-- The states before the looks at these times. -/
def states (s : State α) (now : ℕ → ℤ) : ℕ → State α
  | 0 => s
  | n + 1 => g.step (states s now n) (now n)

end Governor

/-- Times that advance without bound. -/
structure Advancing (now : ℕ → ℤ) : Prop where
  mono : Monotone now
  unbounded : ∀ bound, ∃ n, bound ≤ now n

/-- A sequence is constant from some place on. -/
def Settles (level : ℕ → α) : Prop := ∃ N, ∀ n ≥ N, level n = level N

/-! ## Windows elapse -/

theorem checkpoint_of_elapsed {window last now : ℤ} (h : Elapsed window last now) :
    checkpoint window last now = now := by
  rw [checkpoint, if_pos h]
  exact ite_self now

theorem checkpoint_le_of_not_elapsed {window last now : ℤ} (h : ¬ Elapsed window last now) :
    checkpoint window last now ≤ last := by
  rw [checkpoint, if_neg h]
  split_ifs with hnow
  · exact hnow.le
  · exact le_rfl

/-- **A window elapses** again and again. -/
theorem exists_elapsed {now : ℕ → ℤ} (hnow : Advancing now) (window : ℤ) (last : ℕ → ℤ)
    (hlast : ∀ n, last (n + 1) = checkpoint window (last n) (now n)) (N : ℕ) :
    ∃ n ≥ N, Elapsed window (last n) (now n) := by
  by_contra hnone
  have hnot : ∀ n ≥ N, ¬ Elapsed window (last n) (now n) := fun n hn h => hnone ⟨n, hn, h⟩
  have hbefore : ∀ n ≥ N, last n ≤ last N := by
    intro n hn
    induction n, hn using Nat.le_induction with
    | base => exact le_rfl
    | succ n hn ih =>
        rw [hlast]
        exact (checkpoint_le_of_not_elapsed (hnot n hn)).trans ih
  obtain ⟨m, hm⟩ := hnow.unbounded (last N + window)
  -- late enough, the time has passed every end that the window can have
  have hle := hbefore (max m N) (le_max_right m N)
  have hlate := hm.trans (hnow.mono (le_max_left m N))
  exact hnot (max m N) (le_max_right m N) (show _ ≤ _ by linarith)

namespace Governor

variable {g : Governor α} {s : State α} {now : ℕ → ℤ}

/-! ## Marks in order -/

theorem le_level_step (h : g.up ≤ g.down) (t : ℤ) (hlevel : g.up ≤ s.level) :
    g.up ≤ (g.step s t).level := by
  unfold step
  dsimp only
  split_ifs
  · exact le_min (le_max_right _ _) h
  · exact le_min hlevel h
  · exact le_max_right _ _
  · exact hlevel

theorem level_step_le (h : g.up ≤ g.down) (t : ℤ) (hlevel : s.level ≤ g.down) :
    (g.step s t).level ≤ g.down := by
  unfold step
  dsimp only
  split_ifs
  · exact min_le_right _ _
  · exact min_le_right _ _
  · exact max_le hlevel h
  · exact hlevel

theorem level_step_of_between (t : ℤ) (hup : g.up ≤ s.level) (hdown : s.level ≤ g.down) :
    (g.step s t).level = s.level := by
  unfold step
  dsimp only
  split_ifs
  · rw [max_eq_left hup, min_eq_left hdown]
  · exact min_eq_left hdown
  · exact max_eq_left hup
  · rfl

/-- What holds after some step and is kept by all holds from there on. -/
theorem states_of_le {p : State α → Prop} (hstep : ∀ s t, p s → p (g.step s t)) {N : ℕ}
    (hN : p (g.states s now N)) {n : ℕ} (hn : N ≤ n) : p (g.states s now n) := by
  induction n, hn using Nat.le_induction with
  | base => exact hN
  | succ n _ ih => exact hstep _ _ ih

/-- **With the marks in order** the level settles between them. -/
theorem settles_of_le (h : g.up ≤ g.down) (s : State α) (hnow : Advancing now) :
    Settles fun n => (g.states s now n).level := by
  obtain ⟨nup, -, hup⟩ := exists_elapsed hnow g.upWindow
    (fun n => (g.states s now n).lastUp) (fun _ => rfl) 0
  obtain ⟨ndown, -, hdown⟩ := exists_elapsed hnow g.downWindow
    (fun n => (g.states s now n).lastDown) (fun _ => rfl) 0
  have hraised : g.up ≤ (g.states s now (nup + 1)).level := by
    show g.up ≤ (g.step _ _).level
    unfold step
    dsimp only
    rw [if_pos hup]
    split_ifs
    · exact le_min (le_max_right _ _) h
    · exact le_max_right _ _
  have hlowered : (g.states s now (ndown + 1)).level ≤ g.down := by
    show (g.step _ _).level ≤ g.down
    unfold step
    dsimp only
    rw [if_pos hdown]
    exact min_le_right _ _
  have hbetween : ∀ n ≥ max (nup + 1) (ndown + 1),
      g.up ≤ (g.states s now n).level ∧ (g.states s now n).level ≤ g.down := by
    intro n hn
    exact ⟨states_of_le (p := fun s => g.up ≤ s.level) (fun s t => le_level_step h t) hraised
        ((le_max_left _ _).trans hn),
      states_of_le (p := fun s => s.level ≤ g.down) (fun s t => level_step_le h t) hlowered
        ((le_max_right _ _).trans hn)⟩
  refine ⟨max (nup + 1) (ndown + 1), fun n hn => ?_⟩
  induction n, hn using Nat.le_induction with
  | base => rfl
  | succ n hn ih =>
      obtain ⟨hge, hle⟩ := hbetween n hn
      exact (level_step_of_between (now n) hge hle).trans ih

/-! ## Windows in step -/

/-- **With the windows in step** the lowering has the last word. -/
theorem settles_of_eq (h : g.upWindow = g.downWindow) (hlast : s.lastUp = s.lastDown)
    (hnow : Advancing now) : Settles fun n => (g.states s now n).level := by
  by_cases hle : g.up ≤ g.down
  · exact settles_of_le hle s hnow
  · have hsame : ∀ n, (g.states s now n).lastUp = (g.states s now n).lastDown := by
      intro n
      induction n with
      | zero => exact hlast
      | succ n ih =>
          show checkpoint _ _ _ = checkpoint _ _ _
          rw [ih, h]
    obtain ⟨N, -, hN⟩ := exists_elapsed hnow g.upWindow
      (fun n => (g.states s now n).lastUp) (fun _ => rfl) 0
    have hdown : ∀ n, Elapsed g.upWindow (g.states s now n).lastUp (now n) →
        (g.states s now (n + 1)).level = g.down := by
      intro n hn
      show (g.step _ _).level = g.down
      have hn' : Elapsed g.downWindow (g.states s now n).lastDown (now n) := by
        rw [← hsame, ← h]
        exact hn
      unfold step
      dsimp only
      rw [if_pos hn, if_pos hn']
      exact min_eq_right ((not_le.1 hle).le.trans (le_max_right _ _))
    have hstays : ∀ n ≥ N + 1, (g.states s now n).level = g.down := by
      intro n hn
      induction n, hn using Nat.le_induction with
      | base => exact hdown N hN
      | succ n _ ih =>
          by_cases helapsed : Elapsed g.upWindow (g.states s now n).lastUp (now n)
          · exact hdown n helapsed
          · have hnot : ¬ Elapsed g.downWindow (g.states s now n).lastDown (now n) := by
              rw [← hsame, ← h]
              exact helapsed
            show (g.step _ _).level = g.down
            unfold step
            dsimp only
            rw [if_neg helapsed, if_neg hnot]
            exact ih
    exact ⟨N + 1, fun n hn => (hstays n hn).trans (hstays (N + 1) le_rfl).symm⟩

/-! ## Marks out of order -/

variable (g)

/-- How long a round of `restless` takes. -/
def round : ℤ := 2 * g.upWindow + g.downWindow

/-- When in a round of `restless` the level is looked at for the second time. -/
def second (unit : ℤ) : ℤ := if g.upWindow < g.downWindow then unit else g.upWindow - unit

/-- Times in rounds of three looks: at the first one both windows have elapsed, at the second one
    that of the raising has not, and at the third one that of the lowering has not. -/
def restless (unit : ℤ) (n : ℕ) : ℤ :=
  g.round * (n / 3 + 1 : ℕ) +
    if n % 3 = 0 then 0 else if n % 3 = 1 then g.second unit else g.upWindow

/-- A unit that both windows are longer than, and by which they differ at least. -/
structure Grain (unit : ℤ) : Prop where
  pos : 0 < unit
  lt_up : unit < g.upWindow
  lt_down : unit < g.downWindow
  apart : g.downWindow < g.upWindow → g.downWindow + unit ≤ g.upWindow

variable {g} {unit : ℤ}

omit [LinearOrder α] in
theorem second_bounds (h : g.Grain unit) : 0 < g.second unit ∧ g.second unit < g.upWindow := by
  obtain ⟨hpos, hup, -, -⟩ := h
  unfold second
  split_ifs
  · exact ⟨hpos, hup⟩
  · constructor <;> linarith

omit [LinearOrder α] in
theorem restless_first (g : Governor α) (unit : ℤ) (k : ℕ) :
    g.restless unit (3 * k) = g.round * (k + 1 : ℕ) := by
  have hdiv : 3 * k / 3 = k := by omega
  have hmod : 3 * k % 3 = 0 := by omega
  rw [restless, hdiv, if_pos hmod, add_zero]

omit [LinearOrder α] in
theorem restless_second (g : Governor α) (unit : ℤ) (k : ℕ) :
    g.restless unit (3 * k + 1) = g.round * (k + 1 : ℕ) + g.second unit := by
  have hdiv : (3 * k + 1) / 3 = k := by omega
  have hmod : (3 * k + 1) % 3 = 1 := by omega
  rw [restless, hdiv, hmod]
  simp

omit [LinearOrder α] in
theorem restless_third (g : Governor α) (unit : ℤ) (k : ℕ) :
    g.restless unit (3 * k + 2) = g.round * (k + 1 : ℕ) + g.upWindow := by
  have hdiv : (3 * k + 2) / 3 = k := by omega
  have hmod : (3 * k + 2) % 3 = 2 := by omega
  rw [restless, hdiv, hmod]
  simp

omit [LinearOrder α] in
theorem advancing_restless (h : g.Grain unit) : Advancing (g.restless unit) where
  mono := by
    obtain ⟨hpos, hlt⟩ := second_bounds h
    refine monotone_nat_of_le_succ fun n => ?_
    obtain ⟨k, rfl | rfl | rfl⟩ : ∃ k, n = 3 * k ∨ n = 3 * k + 1 ∨ n = 3 * k + 2 :=
      ⟨n / 3, by omega⟩
    · rw [restless_first, restless_second]
      linarith
    · rw [restless_second, restless_third]
      linarith
    · have hnext : 3 * k + 2 + 1 = 3 * (k + 1) := by ring
      rw [hnext, restless_third, restless_first, Nat.cast_add (k + 1) 1, mul_add, round]
      have hup := g.upWindow_pos
      have hdown := g.downWindow_pos
      push_cast
      linarith
  unbounded := by
    intro bound
    refine ⟨3 * bound.toNat, ?_⟩
    rw [restless_first]
    have hle : bound ≤ (bound.toNat + 1 : ℕ) := by omega
    have hround : 1 ≤ g.round := by
      have hup := g.upWindow_pos
      have hdown := g.downWindow_pos
      unfold round
      linarith
    exact hle.trans (le_mul_of_one_le_left (by positivity) hround)

omit [LinearOrder α] in
/-- The times are multiples of what the windows and the unit are multiples of. -/
theorem dvd_restless {d : ℤ} (hup : d ∣ g.upWindow) (hdown : d ∣ g.downWindow) (hunit : d ∣ unit)
    (n : ℕ) : d ∣ g.restless unit n := by
  have hround : d ∣ g.round := dvd_add (hup.mul_left 2) hdown
  have hsecond : d ∣ g.second unit := by
    unfold second
    split_ifs
    · exact hunit
    · exact dvd_sub hup hunit
  refine dvd_add (hround.mul_right _) ?_
  split_ifs
  · exact dvd_zero d
  · exact hsecond
  · exact hup

/-- **One round** of restless looks lowers the level and raises it again. -/
theorem step_round (h : g.Grain unit) (hlt : g.down < g.up) (hne : g.upWindow ≠ g.downWindow)
    {s : State α} {t : ℤ} (hup : Elapsed g.upWindow s.lastUp t)
    (hdown : Elapsed g.downWindow s.lastDown t) :
    let s₁ := g.step s t
    let s₃ := g.step (g.step s₁ (t + g.second unit)) (t + g.upWindow)
    s₁.level = g.down ∧ s₃.level = g.up ∧ Elapsed g.upWindow s₃.lastUp (t + g.round) ∧
      Elapsed g.downWindow s₃.lastDown (t + g.round) := by
  intro s₁ s₃
  obtain ⟨hpos, hsecond⟩ := second_bounds h
  have hfirst : s₁ = ⟨g.down, t, t⟩ := by
    show State.mk _ _ _ = _
    rw [if_pos hup, if_pos hdown, checkpoint_of_elapsed hup, checkpoint_of_elapsed hdown,
      min_eq_right (hlt.le.trans (le_max_right _ _))]
  -- the second look happens before the window of the raising has elapsed
  have hnotup : ¬ Elapsed g.upWindow t (t + g.second unit) := by
    unfold Elapsed
    linarith
  have hsecondState : g.step s₁ (t + g.second unit) =
      ⟨g.down, t, checkpoint g.downWindow t (t + g.second unit)⟩ := by
    rw [hfirst]
    have hlast : checkpoint g.upWindow t (t + g.second unit) = t := by
      rw [checkpoint, if_neg (by linarith), if_neg hnotup]
    unfold step
    dsimp only
    rw [if_neg hnotup, min_self, ite_self, hlast]
  -- the third look happens when that of the lowering has not
  have hnotdown : ¬ Elapsed g.downWindow (checkpoint g.downWindow t (t + g.second unit))
      (t + g.upWindow) := by
    rcases lt_or_gt_of_ne hne with hwindow | hwindow
    · have hunit : g.second unit = unit := if_pos hwindow
      have hnot : ¬ Elapsed g.downWindow t (t + g.second unit) := by
        unfold Elapsed
        linarith [h.lt_down]
      rw [checkpoint, if_neg (by linarith), if_neg hnot]
      unfold Elapsed
      linarith
    · have hunit : g.second unit = g.upWindow - unit := if_neg (not_lt.2 hwindow.le)
      have helapsed : Elapsed g.downWindow t (t + g.second unit) := by
        unfold Elapsed
        linarith [h.apart hwindow]
      rw [checkpoint_of_elapsed helapsed]
      unfold Elapsed
      linarith [h.lt_down]
  have hraise : Elapsed g.upWindow t (t + g.upWindow) := le_rfl
  have hthird : s₃ = ⟨g.up, t + g.upWindow, checkpoint g.downWindow
      (checkpoint g.downWindow t (t + g.second unit)) (t + g.upWindow)⟩ := by
    show g.step (g.step s₁ _) _ = _
    rw [hsecondState]
    show State.mk _ _ _ = _
    rw [if_pos hraise, if_neg hnotdown, checkpoint_of_elapsed hraise, max_eq_right hlt.le]
  have hwindows := g.downWindow_pos
  have hwindows' := g.upWindow_pos
  refine ⟨by rw [hfirst], by rw [hthird], ?_, ?_⟩
  · rw [hthird]
    show t + g.upWindow + g.upWindow ≤ t + (2 * g.upWindow + g.downWindow)
    linarith
  · rw [hthird]
    have hlast := checkpoint_le_of_not_elapsed hnotdown
    have hbefore : checkpoint g.downWindow t (t + g.second unit) ≤ t + g.second unit := by
      unfold checkpoint
      split_ifs <;> linarith
    show checkpoint _ _ _ + g.downWindow ≤ t + (2 * g.upWindow + g.downWindow)
    linarith

/-- **With the marks out of order** and different windows there are times at which the level never
    settles. -/
theorem not_settles_restless (h : g.Grain unit) (hlt : g.down < g.up)
    (hne : g.upWindow ≠ g.downWindow) {s : State α} (hup : s.lastUp ≤ 0) (hdown : s.lastDown ≤ 0) :
    ¬ Settles fun n => (g.states s (g.restless unit) n).level := by
  have hround : ∀ k, Elapsed g.upWindow (g.states s (g.restless unit) (3 * k)).lastUp
        (g.round * (k + 1 : ℕ)) ∧
      Elapsed g.downWindow (g.states s (g.restless unit) (3 * k)).lastDown
        (g.round * (k + 1 : ℕ)) := by
    intro k
    induction k with
    | zero =>
        have hwindows := g.downWindow_pos
        have hwindows' := g.upWindow_pos
        simp only [Nat.zero_add, Nat.cast_one, mul_one, round]
        constructor
        · show s.lastUp + g.upWindow ≤ _
          linarith
        · show s.lastDown + g.downWindow ≤ _
          linarith
    | succ k ih =>
        obtain ⟨-, -, hthird⟩ := step_round h hlt hne ih.1 ih.2
        have hnext : g.round * (k + 1 + 1 : ℕ) = g.round * (k + 1 : ℕ) + g.round := by
          push_cast
          ring
        rw [hnext]
        simpa only [Nat.mul_succ, states, restless_first, restless_second, restless_third]
          using hthird
  rintro ⟨N, hN⟩
  obtain ⟨hfirst, hthird, -⟩ := step_round h hlt hne (hround N).1 (hround N).2
  have hlow : (g.states s (g.restless unit) (3 * N + 1)).level = g.down := by
    rw [states, restless_first]
    exact hfirst
  have hhigh : (g.states s (g.restless unit) (3 * N + 3)).level = g.up := by
    rw [states, states, states, restless_first, restless_second, restless_third]
    exact hthird
  have hsame := (hN (3 * N + 3) (by omega)).trans (hN (3 * N + 1) (by omega)).symm
  exact hlt.ne' (hhigh.symm.trans (hsame.trans hlow))

end Governor

end LibAtapp.Hysteresis
