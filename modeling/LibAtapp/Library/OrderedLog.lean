import Mathlib.Data.List.Infix
import Mathlib.Order.Lattice

set_option autoImplicit false

/-! # Reading an ordered log

A log holds entries in the order of their revisions, and a reader hands them on to a consumer. This
file says what it means that the reader has handed on everything up to a revision and that it did
so in order, and proves that reading on from the first entry that is missing keeps the order. -/

namespace LibAtapp.OrderedLog

variable {ε ρ : Type} [LinearOrder ρ] (revision : ε → ρ)

/-- The entries are in the order of their revisions. -/
def Sorted (log : List ε) : Prop := log.Pairwise (fun a b => revision a ≤ revision b)

/-- Every entry above `low` and up to `top` has been handed on. -/
def DeliveredUpTo (log delivered : List ε) (low top : ρ) : Prop :=
  ∀ e ∈ log, low < revision e → revision e ≤ top → e ∈ delivered

/-- Every entry was handed on after all entries above `low` with smaller revisions. -/
def InOrder (log delivered : List ε) (low : ρ) : Prop :=
  ∀ before e after, delivered = before ++ e :: after →
    ∀ f ∈ log, low < revision f → revision f < revision e → f ∈ before

/-- The entries from a revision on. -/
def entriesFrom (log : List ε) (start : ρ) : List ε := log.filter (fun e => start ≤ revision e)

variable {revision} {log delivered : List ε} {low top start : ρ}

theorem inOrder_nil : InOrder revision log [] low := by
  intro before e after h
  cases before <;> cases h

theorem mem_entriesFrom {e : ε} : e ∈ entriesFrom revision log start ↔ e ∈ log ∧ start ≤ revision e := by
  simp [entriesFrom]

theorem entriesFrom_append (log new : List ε) (start : ρ) :
    entriesFrom revision (log ++ new) start =
      entriesFrom revision log start ++ entriesFrom revision new start :=
  List.filter_append ..

/-- New entries above everything handed on do not disturb the order. -/
theorem InOrder.append_log {new : List ε} (h : InOrder revision log delivered low)
    (hnew : ∀ e ∈ delivered, ∀ f ∈ new, revision e ≤ revision f) :
    InOrder revision (log ++ new) delivered low := by
  intro before e after hsplit f hf hlow hlt
  rcases List.mem_append.1 hf with hf | hf
  · exact h before e after hsplit f hf hlow hlt
  · have he : e ∈ delivered := by simp [hsplit]
    exact absurd (hnew e he f hf) (not_le.2 hlt)

/-- New entries above `top` do not change what has been handed on up to it. -/
theorem DeliveredUpTo.append_log {new : List ε} (h : DeliveredUpTo revision log delivered low top)
    (hnew : ∀ f ∈ new, top < revision f) :
    DeliveredUpTo revision (log ++ new) delivered low top := by
  intro e he hlow htop
  rcases List.mem_append.1 he with he | he
  · exact h e he hlow htop
  · exact absurd htop (not_le.2 (hnew e he))

/-- In a sorted list an entry with a smaller revision stands before one with a larger one. -/
theorem Sorted.mem_before {before after : List ε} {e f : ε}
    (hsorted : Sorted revision (before ++ e :: after)) (hf : f ∈ before ++ e :: after)
    (hlt : revision f < revision e) : f ∈ before := by
  rcases List.mem_append.1 hf with hf | hf
  · exact hf
  · rcases List.mem_cons.1 hf with rfl | hf
    · exact absurd hlt (lt_irrefl _)
    · have hle := (List.pairwise_cons.1 (List.pairwise_append.1 hsorted).2.1).1 f hf
      exact absurd hlt (not_lt.2 hle)

/-- A reader started at `start` with everything below handed on, and has handed on the first
    `sent` entries from there: whatever comes before one of the next entries has been handed on,
    or stands before it among the next entries. -/
theorem mem_of_next {sent n : Nat} {next after : List ε} {e f : ε} (hsorted : Sorted revision log)
    (hstart : ∀ e ∈ log, low < revision e → revision e < start → e ∈ delivered)
    (hsent : ∀ e ∈ (entriesFrom revision log start).take sent, e ∈ delivered)
    (hnext : ((entriesFrom revision log start).drop sent).take n = next ++ e :: after)
    (hf : f ∈ log) (hlow : low < revision f) (hlt : revision f < revision e) :
    f ∈ delivered ++ next := by
  by_cases hbelow : revision f < start
  · exact List.mem_append_left _ (hstart f hf hlow hbelow)
  · have hmem : f ∈ entriesFrom revision log start := mem_entriesFrom.2 ⟨hf, not_lt.1 hbelow⟩
    have hparts : entriesFrom revision log start =
        ((entriesFrom revision log start).take sent ++ next) ++
          e :: (after ++ ((entriesFrom revision log start).drop sent).drop n) := by
      conv_lhs => rw [← List.take_append_drop sent (entriesFrom revision log start),
        ← List.take_append_drop n ((entriesFrom revision log start).drop sent), hnext]
      simp only [List.append_assoc, List.cons_append]
    have hsortedFrom : Sorted revision (entriesFrom revision log start) := hsorted.filter _
    rw [hparts] at hsortedFrom hmem
    rcases List.mem_append.1 (hsortedFrom.mem_before hmem hlt) with hf | hf
    · exact List.mem_append_left _ (hsent f hf)
    · exact List.mem_append_right _ hf

/-- **Reading on keeps the order.** -/
theorem InOrder.append_next {sent : Nat} (h : InOrder revision log delivered low)
    (hsorted : Sorted revision log)
    (hstart : ∀ e ∈ log, low < revision e → revision e < start → e ∈ delivered)
    (hsent : ∀ e ∈ (entriesFrom revision log start).take sent, e ∈ delivered) (n : Nat) :
    InOrder revision log
      (delivered ++ ((entriesFrom revision log start).drop sent).take n) low := by
  intro before e after hsplit f hf hlow hlt
  rcases List.append_eq_append_iff.1 hsplit with ⟨next, hbefore, hnext⟩ | ⟨rest, hdelivered, hrest⟩
  · rw [hbefore]
    exact mem_of_next hsorted hstart hsent hnext hf hlow hlt
  · cases rest with
    | nil =>
        rw [List.append_nil] at hdelivered
        rw [List.nil_append] at hrest
        have hfirst : f ∈ delivered ++ [] :=
          mem_of_next hsorted hstart hsent hrest.symm hf hlow hlt
        rwa [List.append_nil, hdelivered] at hfirst
    | cons d rest =>
        simp only [List.cons_append, List.cons.injEq] at hrest
        obtain ⟨rfl, -⟩ := hrest
        exact h before e rest hdelivered f hf hlow hlt

end LibAtapp.OrderedLog
