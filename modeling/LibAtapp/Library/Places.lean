import Mathlib.Logic.Function.Basic
import Mathlib.Data.List.Nodup

set_option autoImplicit false

/-! # Tokens in places

Places that hold lists of tokens, such as queues and the hands of threads. A token is pushed into
a place once and then only moves: one step takes the first token of a place and puts it at the end
of another. Tokens are kept apart, none is in two places or twice in one, and no move loses one. -/

namespace LibAtapp.Places

variable {P T : Type} [DecidableEq P]

/-- A token is put at the end of a place. -/
def push (contents : P → List T) (p : P) (t : T) : P → List T :=
  Function.update contents p (contents p ++ [t])

/-- The first token of `p` goes to the end of `q`. -/
def transfer (contents : P → List T) (p q : P) : P → List T :=
  match contents p with
  | [] => contents
  | t :: rest => push (Function.update contents p rest) q t

/-- No token is in two places, or twice in one. -/
structure Separate (contents : P → List T) : Prop where
  nodup : ∀ p, (contents p).Nodup
  apart : ∀ p q t, t ∈ contents p → t ∈ contents q → p = q

section Push

variable {contents : P → List T} {p : P} {t : T}

theorem push_self : push contents p t p = contents p ++ [t] := Function.update_self ..

theorem push_of_ne {q : P} (h : q ≠ p) : push contents p t q = contents q :=
  Function.update_of_ne h ..

theorem mem_push {q : P} {u : T} : u ∈ push contents p t q ↔ u ∈ contents q ∨ q = p ∧ u = t := by
  by_cases h : q = p
  · subst h
    simp [push_self]
  · simp [push_of_ne h, h]

/-- A new token keeps the tokens apart. -/
theorem Separate.push (h : Separate contents) (hnew : ∀ q, t ∉ contents q) :
    Separate (push contents p t) := by
  constructor
  · intro q
    by_cases hq : q = p
    · subst hq
      rw [push_self, List.nodup_append]
      refine ⟨h.nodup q, List.nodup_singleton t, fun u hu v hv heq => hnew q ?_⟩
      rw [List.mem_singleton] at hv
      rwa [← hv, ← heq]
    · rw [push_of_ne hq]
      exact h.nodup q
  · intro q r u hq hr
    obtain hqold | ⟨hqp, hqt⟩ := mem_push.1 hq
    · obtain hrold | ⟨-, hrt⟩ := mem_push.1 hr
      · exact h.apart q r u hqold hrold
      · exact absurd (hrt ▸ hqold) (hnew q)
    · obtain hrold | ⟨hrp, -⟩ := mem_push.1 hr
      · exact absurd (hqt ▸ hrold) (hnew r)
      · exact hqp.trans hrp.symm

theorem exists_mem_push {u : T} :
    (∃ q, u ∈ push contents p t q) ↔ (∃ q, u ∈ contents q) ∨ u = t := by
  constructor
  · rintro ⟨q, hq⟩
    exact (mem_push.1 hq).imp (fun h => ⟨q, h⟩) And.right
  · rintro (⟨q, hq⟩ | rfl)
    · exact ⟨q, mem_push.2 (.inl hq)⟩
    · exact ⟨p, mem_push.2 (.inr ⟨rfl, rfl⟩)⟩

end Push

section Transfer

variable {contents : P → List T} {p q : P}

theorem transfer_of_cons {t : T} {rest : List T} (h : contents p = t :: rest) :
    transfer contents p q = push (Function.update contents p rest) q t := by
  rw [transfer, h]

theorem transfer_of_nil (h : contents p = []) : transfer contents p q = contents := by
  rw [transfer, h]

/-- Taking a token out keeps the others apart, and it is nowhere else. -/
theorem Separate.take (h : Separate contents) {t : T} {rest : List T}
    (hp : contents p = t :: rest) :
    Separate (Function.update contents p rest) ∧
      ∀ r, t ∉ Function.update contents p rest r := by
  have hnodup := hp ▸ h.nodup p
  have hsub : ∀ r u, u ∈ Function.update contents p rest r → u ∈ contents r := by
    intro r u hu
    by_cases hr : r = p
    · subst hr
      rw [Function.update_self] at hu
      rw [hp]
      exact List.mem_cons_of_mem t hu
    · rwa [Function.update_of_ne hr] at hu
  refine ⟨⟨fun r => ?_, fun r r' u hu hu' => h.apart r r' u (hsub r u hu) (hsub r' u hu')⟩, ?_⟩
  · by_cases hr : r = p
    · subst hr
      rw [Function.update_self]
      exact (List.nodup_cons.1 hnodup).2
    · rw [Function.update_of_ne hr]
      exact h.nodup r
  · intro r hmem
    have hr : r = p := h.apart r p t (hsub r t hmem) (hp ▸ List.mem_cons_self)
    subst hr
    rw [Function.update_self] at hmem
    exact (List.nodup_cons.1 hnodup).1 hmem

theorem Separate.transfer (h : Separate contents) (p q : P) : Separate (transfer contents p q) := by
  cases hp : contents p with
  | nil => rwa [transfer_of_nil hp]
  | cons t rest =>
    obtain ⟨hrest, hnew⟩ := h.take hp
    rw [transfer_of_cons hp]
    exact hrest.push hnew

/-- **No move loses a token** or makes one. -/
theorem exists_mem_transfer {u : T} :
    (∃ r, u ∈ transfer contents p q r) ↔ ∃ r, u ∈ contents r := by
  cases hp : contents p with
  | nil => rw [transfer_of_nil hp]
  | cons t rest =>
    rw [transfer_of_cons hp, exists_mem_push]
    constructor
    · rintro (⟨r, hr⟩ | rfl)
      · by_cases hrp : r = p
        · subst hrp
          rw [Function.update_self] at hr
          exact ⟨r, hp ▸ List.mem_cons_of_mem t hr⟩
        · rw [Function.update_of_ne hrp] at hr
          exact ⟨r, hr⟩
      · exact ⟨p, hp ▸ List.mem_cons_self⟩
    · rintro ⟨r, hr⟩
      by_cases hrp : r = p
      · subst hrp
        rw [hp] at hr
        obtain rfl | hrest := List.mem_cons.1 hr
        · exact .inr rfl
        · exact .inl ⟨r, by rwa [Function.update_self]⟩
      · exact .inl ⟨r, by rwa [Function.update_of_ne hrp]⟩

/-- A place that is not empty after a move was not empty before, or received the token. -/
theorem ne_nil_of_transfer {r : P} (h : transfer contents p q r ≠ []) :
    contents r ≠ [] ∨ r = q ∧ contents p ≠ [] := by
  cases hp : contents p with
  | nil =>
    rw [transfer_of_nil hp] at h
    exact .inl h
  | cons t rest =>
    by_cases hrq : r = q
    · exact .inr ⟨hrq, List.cons_ne_nil t rest⟩
    · rw [transfer_of_cons hp, push_of_ne hrq] at h
      by_cases hrp : r = p
      · subst hrp
        exact .inl (hp ▸ List.cons_ne_nil t rest)
      · rw [Function.update_of_ne hrp] at h
        exact .inl h

/-- The place that receives is not empty afterwards. -/
theorem transfer_target_ne_nil (h : contents p ≠ []) : transfer contents p q q ≠ [] := by
  obtain ⟨t, rest, hp⟩ := List.exists_cons_of_ne_nil h
  rw [transfer_of_cons hp, push_self]
  simp

end Transfer

end LibAtapp.Places
