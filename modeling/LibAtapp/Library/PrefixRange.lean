import Mathlib.Data.List.Lex
import Mathlib.Data.List.Infix
import Mathlib.Order.Lattice

set_option autoImplicit false

/-! # Ranges of strings with a common prefix

The strings that begin with a given key are an interval of the lexicographic order: it starts at
the key and ends before the key with its last symbol increased, where symbols that cannot be
increased are first dropped from the end. This file has the end of that interval over any linearly
ordered alphabet, and lemmas on prefixes of strings that a separator divides. -/

namespace LibAtapp.PrefixRange

variable {α : Type}

section Order

variable [LinearOrder α]

/-- `next` gives the least symbol above a symbol, and nothing for the largest symbol. -/
structure IsNext (next : α → Option α) : Prop where
  lt_iff : ∀ {a b : α}, next a = some b → ∀ c, c < b ↔ c ≤ a
  le_of_none : ∀ {a : α}, next a = none → ∀ c, c ≤ a

/-- The end of the range of strings that begin with the key, when it has one. -/
def prefixEnd (next : α → Option α) : List α → Option (List α)
  | [] => none
  | a :: key =>
    match prefixEnd next key with
    | some last => some (a :: last)
    | none => (next a).map (fun b => [b])

theorem cons_le_cons {a b : α} {s t : List α} : a :: s ≤ b :: t ↔ a < b ∨ a = b ∧ s ≤ t := by
  rw [← not_lt, List.cons_lt_cons_iff, not_or, not_lt, not_and, not_lt]
  constructor
  · rintro ⟨hle, h⟩
    rcases lt_or_eq_of_le hle with hlt | heq
    · exact Or.inl hlt
    · exact Or.inr ⟨heq, h heq.symm⟩
  · intro h
    rcases h with hlt | ⟨heq, h⟩
    · exact ⟨hlt.le, fun heq => absurd heq.symm hlt.ne⟩
    · exact ⟨heq.le, fun _ => h⟩

theorem not_cons_le_nil (a : α) (s : List α) : ¬ a :: s ≤ [] := by
  rw [not_le]
  exact List.nil_lt_cons a s

variable {next : α → Option α}

/-- Where the range has no end, every string from the key on begins with the key. -/
theorem le_iff_prefix_of_none (hnext : IsNext next) {key : List α}
    (h : prefixEnd next key = none) (x : List α) : key ≤ x ↔ key <+: x := by
  induction key generalizing x with
  | nil => exact iff_of_true (not_lt.1 (List.not_lt_nil x)) List.nil_prefix
  | cons a key ih =>
      rw [prefixEnd] at h
      split at h
      · cases h
      · next hkey =>
        rw [Option.map_eq_none_iff] at h
        cases x with
        | nil => exact iff_of_false (not_cons_le_nil a key) (by simp)
        | cons b x =>
            rw [cons_le_cons, List.cons_prefix_cons, ih hkey x]
            have hnot : ¬ a < b := not_lt.2 (hnext.le_of_none h b)
            exact or_iff_right hnot

/-- **The range of a key is the set of strings that begin with it.** -/
theorem mem_range_iff_prefix (hnext : IsNext next) {key last : List α}
    (h : prefixEnd next key = some last) (x : List α) : key ≤ x ∧ x < last ↔ key <+: x := by
  induction key generalizing x last with
  | nil => cases h
  | cons a key ih =>
      rw [prefixEnd] at h
      cases x with
      | nil => exact iff_of_false (fun hx => not_cons_le_nil a key hx.1) (by simp)
      | cons b x =>
          rw [cons_le_cons, List.cons_prefix_cons]
          split at h
          · next rest hrest =>
            simp only [Option.some.injEq] at h
            subst h
            rw [List.cons_lt_cons_iff, ← ih hrest x]
            constructor
            · rintro ⟨hlow, hhigh⟩
              rcases hlow with hlt | ⟨rfl, hle⟩
              · rcases hhigh with hlt' | ⟨heq, -⟩
                · exact absurd hlt' hlt.asymm
                · exact absurd heq hlt.ne'
              · rcases hhigh with hlt' | ⟨-, hlt'⟩
                · exact absurd hlt' (lt_irrefl a)
                · exact ⟨rfl, hle, hlt'⟩
            · rintro ⟨heq, hle, hlt⟩
              exact ⟨Or.inr ⟨heq, hle⟩, Or.inr ⟨heq.symm, hlt⟩⟩
          · next hkey =>
            obtain ⟨c, hc, rfl⟩ := Option.map_eq_some_iff.1 h
            have hbelow : b :: x < [c] ↔ b ≤ a := by
              rw [List.cons_lt_cons_iff, hnext.lt_iff hc b]
              exact or_iff_left (fun hx => absurd hx.2 (List.not_lt_nil x))
            rw [hbelow, ← le_iff_prefix_of_none hnext hkey x]
            constructor
            · rintro ⟨hlow, hle⟩
              rcases hlow with hlt | heq
              · exact absurd hle (not_le.2 hlt)
              · exact heq
            · intro heq
              exact ⟨Or.inr heq, heq.1.ge⟩

end Order

/-! ## Strings with a separator -/

/-- A prefix without the separator ends before it. -/
theorem prefix_append_sep {sep : α} {s : List α} (hs : sep ∉ s) (v t : List α) :
    s <+: v ++ sep :: t ↔ s <+: v := by
  induction s generalizing v with
  | nil => simp
  | cons a s ih =>
      have ha : a ≠ sep := fun h => hs (by simp [h])
      have hs' : sep ∉ s := fun h => hs (by simp [h])
      cases v with
      | nil => simp [ha]
      | cons b v => simp only [List.cons_append, List.cons_prefix_cons, ih hs' v]

/-- One divided string begins with another when the parts before the separator agree and the parts
    after it begin with one another, or when the other string is found before the separator. -/
theorem sep_prefix_sep_iff {sep : α} {s t : List α} (hs : sep ∉ s) (ht : sep ∉ t) (u v : List α) :
    u ++ sep :: s <+: v ++ sep :: t ↔ (u = v ∧ s <+: t) ∨ u ++ sep :: s <+: v := by
  induction u generalizing v with
  | nil =>
      cases v with
      | nil => simp
      | cons b v => simp [prefix_append_sep hs]
  | cons a u ih =>
      cases v with
      | nil =>
          have hnot : ¬ u ++ sep :: s <+: t := fun h => ht (h.subset (by simp))
          simp [hnot]
      | cons b v =>
          simp only [List.cons_append, List.cons_prefix_cons, ih v, List.cons.injEq]
          tauto

end LibAtapp.PrefixRange
