import Mathlib.Data.List.Basic

set_option autoImplicit false

/-! # Finders that count nesting

A finder walks over a text with a number of open brackets and returns the position of what it
looks for. A text that it walks over without a trace, whatever follows, is passed; what is passed
is closed under concatenation and under bracketing, so that a printer's output is passed by
induction on what is printed. -/

namespace LibAtapp.Scanner

variable {α : Type} {finder : Nat → List α → Option Nat} {depth : Nat}

/-- At `depth` the finder passes over `text` and returns what it finds after it. -/
def Passes (finder : Nat → List α → Option Nat) (depth : Nat) (text : List α) : Prop :=
  ∀ tail, finder depth (text ++ tail) = (finder depth tail).map (· + text.length)

theorem map_add_add (k l : Nat) (found : Option Nat) :
    (found.map (· + k)).map (· + l) = found.map (· + (k + l)) := by
  rw [Option.map_map]
  congr 1
  funext n
  exact Nat.add_assoc n k l

theorem Passes.nil : Passes finder depth [] := by
  intro tail
  simp

theorem Passes.append {text more : List α} (h : Passes finder depth text)
    (hmore : Passes finder depth more) : Passes finder depth (text ++ more) := by
  intro tail
  rw [List.append_assoc, h, hmore, map_add_add, List.length_append, Nat.add_comm text.length]

/-- Passing over single symbols is passing over their text. -/
theorem Passes.plain {text : List α}
    (h : ∀ c ∈ text, ∀ rest, finder depth (c :: rest) = (finder depth rest).map (· + 1)) :
    Passes finder depth text := by
  induction text with
  | nil => exact Passes.nil
  | cons c text ih =>
    intro tail
    rw [List.cons_append, h c List.mem_cons_self,
      ih fun d hd => h d (List.mem_cons_of_mem c hd), map_add_add]
    rfl

/-- What is between brackets is passed one level deeper. -/
theorem Passes.group {opening inner closing : List α}
    (hopen : ∀ rest, finder depth (opening ++ rest)
      = (finder (depth + 1) rest).map (· + opening.length))
    (hclose : ∀ rest, finder (depth + 1) (closing ++ rest)
      = (finder depth rest).map (· + closing.length))
    (h : Passes finder (depth + 1) inner) :
    Passes finder depth (opening ++ (inner ++ closing)) := by
  intro tail
  rw [List.append_assoc, List.append_assoc, hopen, h, hclose, map_add_add, map_add_add]
  simp only [List.length_append]
  congr 2
  funext n
  omega

end LibAtapp.Scanner
