import Mathlib.Data.Set.Basic
import Mathlib.Logic.Function.Basic

set_option autoImplicit false

/-! # Sets of items that clash

A registry keeps items of which some clash, for example because they have a key in common. Putting
an item takes away all items it clashes with, and removing an item takes away all items that clash
with it. This file has what lists of puts and removals leave, when a registry is brought up to date
with a list by putting the list and removing what is left over, and when a registry is the image of
a map from owners to items. -/

namespace LibAtapp.KeyedSet

variable {α κ : Type} (clash : α → α → Prop)

/-- The items after `x` is put. -/
def put (s : Set α) (x : α) : Set α := {y | y = x ∨ (y ∈ s ∧ ¬ clash y x)}

/-- The items after what clashes with `x` is removed. -/
def remove (s : Set α) (x : α) : Set α := {y | y ∈ s ∧ ¬ clash y x}

/-- The items after a list of items is put, one after the other. -/
def putAll (s : Set α) (xs : List α) : Set α := xs.foldl (put clash) s

/-- The items after a list of removals. -/
def removeAll (s : Set α) (xs : List α) : Set α := xs.foldl (remove clash) s

variable {clash}

theorem mem_put {s : Set α} {x y : α} : y ∈ put clash s x ↔ y = x ∨ (y ∈ s ∧ ¬ clash y x) :=
  Iff.rfl

theorem mem_remove {s : Set α} {x y : α} : y ∈ remove clash s x ↔ y ∈ s ∧ ¬ clash y x :=
  Iff.rfl

/-- Items that do not clash with each other are all there after they are put, beside those that
    clash with none of them. -/
theorem mem_putAll {s : Set α} {xs : List α} (h : xs.Pairwise (fun a b => ¬ clash a b)) {y : α} :
    y ∈ putAll clash s xs ↔ y ∈ xs ∨ (y ∈ s ∧ ∀ x ∈ xs, ¬ clash y x) := by
  induction xs generalizing s with
  | nil => simp [putAll]
  | cons x xs ih =>
      obtain ⟨hx, hxs⟩ := List.pairwise_cons.1 h
      have hstep : y ∈ putAll clash (put clash s x) xs ↔
          y ∈ xs ∨ (y ∈ put clash s x ∧ ∀ z ∈ xs, ¬ clash y z) := ih hxs
      rw [mem_put] at hstep
      refine hstep.trans ?_
      simp only [List.mem_cons, forall_eq_or_imp]
      constructor
      · intro hy
        rcases hy with hy | ⟨hy | hy, hrest⟩
        · exact Or.inl (Or.inr hy)
        · exact Or.inl (Or.inl hy)
        · exact Or.inr ⟨hy.1, hy.2, hrest⟩
      · intro hy
        rcases hy with (hy | hy) | ⟨hy, hyx, hrest⟩
        · subst hy
          exact Or.inr ⟨Or.inl rfl, hx⟩
        · exact Or.inl hy
        · exact Or.inr ⟨Or.inr ⟨hy, hyx⟩, hrest⟩

theorem mem_removeAll {s : Set α} {xs : List α} {y : α} :
    y ∈ removeAll clash s xs ↔ y ∈ s ∧ ∀ x ∈ xs, ¬ clash y x := by
  induction xs generalizing s with
  | nil => simp [removeAll]
  | cons x xs ih =>
      have hstep : y ∈ removeAll clash (remove clash s x) xs ↔
          y ∈ remove clash s x ∧ ∀ z ∈ xs, ¬ clash y z := ih
      rw [mem_remove, and_assoc] at hstep
      refine hstep.trans ?_
      simp only [List.mem_cons, forall_eq_or_imp]

/-- **Bringing a registry up to date.** Put the items of a list and then remove the items `left`,
    with which everything old clashes that clashes with nothing in the list: exactly the list
    remains if and only if no removed item clashes with an item of the list. -/
theorem removeAll_putAll_eq_iff {s : Set α} {xs left : List α}
    (h : xs.Pairwise (fun a b => ¬ clash a b))
    (hleft : ∀ y ∈ s, (∀ x ∈ xs, ¬ clash y x) → ∃ z ∈ left, clash y z) :
    removeAll clash (putAll clash s xs) left = {y | y ∈ xs} ↔
      ∀ x ∈ xs, ∀ y ∈ left, ¬ clash x y := by
  have hmem : ∀ y, y ∈ removeAll clash (putAll clash s xs) left ↔
      y ∈ xs ∧ ∀ z ∈ left, ¬ clash y z := by
    intro y
    rw [mem_removeAll, mem_putAll h]
    constructor
    · rintro ⟨hy, hno⟩
      rcases hy with hy | ⟨hy, hclear⟩
      · exact ⟨hy, hno⟩
      · -- an old item that clashes with nothing in the list is removed
        obtain ⟨z, hz, hclash⟩ := hleft y hy hclear
        exact absurd hclash (hno z hz)
    · exact fun hy => ⟨Or.inl hy.1, hy.2⟩
  constructor
  · intro heq x hx
    have hx' : x ∈ removeAll clash (putAll clash s xs) left := heq ▸ hx
    exact ((hmem x).1 hx').2
  · intro hno
    ext y
    rw [hmem]
    exact ⟨fun hy => hy.1, fun hy => ⟨hy, hno y hy⟩⟩

/-! ## Owners -/

/-- The items of a map from owners. -/
def image (registry : κ → Option α) : Set α := {y | ∃ k, registry k = some y}

/-- Of the items in the map, `x` clashes with that of owner `k` and with no other. -/
def OwnedBy (clash : α → α → Prop) (registry : κ → Option α) (k : κ) (x : α) : Prop :=
  ∀ k' y, registry k' = some y → (clash y x ↔ k' = k)

variable [DecidableEq κ]

/-- Putting an item that only clashes with its owner's replaces it in the map. -/
theorem put_image {registry : κ → Option α} {k : κ} {x : α} (h : OwnedBy clash registry k x) :
    put clash (image registry) x = image (Function.update registry k (some x)) := by
  ext y
  simp only [mem_put, image, Set.mem_ofPred_eq]
  constructor
  · intro hy
    rcases hy with hy | ⟨⟨k', hk'⟩, hclear⟩
    · exact ⟨k, by rw [Function.update_self, hy]⟩
    · have hne : k' ≠ k := fun heq => hclear ((h k' y hk').2 heq)
      exact ⟨k', by rw [Function.update_of_ne hne, hk']⟩
  · rintro ⟨k', hk'⟩
    by_cases heq : k' = k
    · subst heq
      rw [Function.update_self] at hk'
      exact Or.inl (Option.some.inj hk').symm
    · rw [Function.update_of_ne heq] at hk'
      exact Or.inr ⟨⟨k', hk'⟩, fun hclash => heq ((h k' y hk').1 hclash)⟩

/-- Removing what clashes with an item that only clashes with its owner's takes the owner out of
    the map. -/
theorem remove_image {registry : κ → Option α} {k : κ} {x : α} (h : OwnedBy clash registry k x) :
    remove clash (image registry) x = image (Function.update registry k none) := by
  ext y
  simp only [mem_remove, image, Set.mem_ofPred_eq]
  constructor
  · rintro ⟨⟨k', hk'⟩, hclear⟩
    have hne : k' ≠ k := fun heq => hclear ((h k' y hk').2 heq)
    exact ⟨k', by rw [Function.update_of_ne hne, hk']⟩
  · rintro ⟨k', hk'⟩
    by_cases heq : k' = k
    · subst heq
      rw [Function.update_self] at hk'
      cases hk'
    · rw [Function.update_of_ne heq] at hk'
      exact ⟨⟨k', hk'⟩, fun hclash => heq ((h k' y hk').1 hclash)⟩

end LibAtapp.KeyedSet
