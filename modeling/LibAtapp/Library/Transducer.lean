import Mathlib.Data.List.Basic

set_option autoImplicit false

/-! # Readers that are fed in chunks

A reader takes one symbol at a time and now and then completes an item, which a consumer handles
before the next symbol is read. The consumer may fail or have other effects, so it runs in a
monad. This file has the feeding of a whole input, of an input that arrives in chunks, and the
reading of one item at a time, and relates the three. -/

namespace LibAtapp.Transducer

variable {σ ι α τ : Type} {m : Type → Type} [Monad m]
variable (step : σ → ι → σ × Option α) (consume : τ → α → m τ)

/-- Read one symbol, and consume the item if it completes one. -/
def feedOne (st : σ × τ) (i : ι) : m (σ × τ) :=
  match step st.1 i with
  | (s, none) => pure (s, st.2)
  | (s, some item) => do
    let t ← consume st.2 item
    pure (s, t)

/-- Read all symbols of an input. -/
def feed (st : σ × τ) (input : List ι) : m (σ × τ) := input.foldlM (feedOne step consume) st

/-- Read until the first item is complete: the reader's state after it, and the item with the
    input that is left, if there is one. -/
def readItem : σ → List ι → σ × Option (α × List ι)
  | s, [] => (s, none)
  | s, i :: rest =>
    match step s i with
    | (s', none) => readItem s' rest
    | (s', some item) => (s', some (item, rest))

theorem readItem_cons_none {s s' : σ} {i : ι} (h : step s i = (s', none)) (rest : List ι) :
    readItem step s (i :: rest) = readItem step s' rest := by
  simp only [readItem, h]

theorem readItem_cons_some {s s' : σ} {i : ι} {item : α} (h : step s i = (s', some item))
    (rest : List ι) : readItem step s (i :: rest) = (s', some (item, rest)) := by
  simp only [readItem, h]

/-- What is left after an item is shorter than the input. -/
theorem length_of_readItem {s s' : σ} {input rest : List ι} {item : α}
    (h : readItem step s input = (s', some (item, rest))) : rest.length < input.length := by
  induction input generalizing s with
  | nil => simp [readItem] at h
  | cons i input ih =>
      rw [readItem] at h
      split at h
      · have := ih h
        rw [List.length_cons]
        omega
      · simp only [Prod.mk.injEq, Option.some.injEq] at h
        obtain ⟨-, -, rfl⟩ := h
        rw [List.length_cons]
        omega

variable [LawfulMonad m]

/-- **Feeding an input is reading its items one by one**, each consumed before the next. -/
theorem feed_eq_readItem (s : σ) (t : τ) (input : List ι) :
    feed step consume (s, t) input =
      (match readItem step s input with
      | (s', none) => pure (s', t)
      | (s', some (item, rest)) => do
        let t' ← consume t item
        feed step consume (s', t') rest) := by
  induction input generalizing s with
  | nil => rfl
  | cons i input ih =>
      rw [feed, List.foldlM_cons, feedOne]
      rcases hi : step s i with ⟨s', _ | item⟩
      · rw [readItem_cons_none step hi]
        simp only [pure_bind]
        exact ih s'
      · rw [readItem_cons_some step hi]
        simp only [bind_assoc, pure_bind]
        rfl

/-- **Chunk boundaries do not matter**: the state is carried across each cut. -/
theorem foldlM_feed (st : σ × τ) (chunks : List (List ι)) :
    chunks.foldlM (feed step consume) st = feed step consume st chunks.flatten := by
  induction chunks generalizing st with
  | nil => rfl
  | cons chunk chunks ih =>
      have happend : feed step consume st (chunk ++ chunks.flatten) =
          (do
            let st' ← feed step consume st chunk
            feed step consume st' chunks.flatten) := List.foldlM_append
      rw [List.foldlM_cons, List.flatten_cons, happend]
      simp only [ih]

end LibAtapp.Transducer
