import Mathlib.Data.List.Perm.Basic

set_option autoImplicit false

/-! # Ordered maps

A map that is kept in the order of a comparison, as the list of its entries. Assigning to a key
that is equivalent to one of the map replaces its value; where the comparison tells the new key
from all others it adds an entry, in its place. -/

namespace LibAtapp.OrderedMap

variable {κ α : Type} (lt : κ → κ → Bool)

/-- `map[key] = value` -/
def assign (key : κ) (value : α) : List (κ × α) → List (κ × α)
  | [] => [(key, value)]
  | (k, v) :: rest =>
    if lt key k then (key, value) :: (k, v) :: rest
    else if lt k key then (k, v) :: assign key value rest
    else (k, value) :: rest

/-- The entries ascend. -/
def Sorted (map : List (κ × α)) : Prop := map.Pairwise fun e e' => lt e.1 e'.1

/-- The comparison tells a key from every key of the map. -/
def Apart (key : κ) (map : List (κ × α)) : Prop := ∀ e ∈ map, lt key e.1 ∨ lt e.1 key

variable {lt} {key : κ} {value : α} {map : List (κ × α)}

/-- Assigning to a new key adds its entry. -/
theorem assign_perm (h : Apart lt key map) :
    (assign lt key value map).Perm ((key, value) :: map) := by
  induction map with
  | nil => exact List.Perm.refl _
  | cons e rest ih =>
      have hrest : Apart lt key rest := fun e' he' => h e' (List.mem_cons_of_mem e he')
      rw [assign]
      split_ifs with hlt hgt
      · exact List.Perm.refl _
      · exact ((ih hrest).cons e).trans (List.Perm.swap _ _ _)
      · exact absurd (h e List.mem_cons_self) (by simp [hlt, hgt])

theorem mem_assign (h : Apart lt key map) {e : κ × α} :
    e ∈ assign lt key value map ↔ e = (key, value) ∨ e ∈ map := by
  rw [(assign_perm h).mem_iff, List.mem_cons]

/-- A new key comes to its place. -/
theorem Sorted.assign (htrans : ∀ a b c, lt a b → lt b c → lt a c) (h : Sorted lt map)
    (hapart : Apart lt key map) : Sorted lt (assign lt key value map) := by
  induction map with
  | nil => simp [OrderedMap.assign, Sorted]
  | cons e rest ih =>
      obtain ⟨hleast, hsorted⟩ := List.pairwise_cons.1 h
      have hrest : Apart lt key rest := fun e' he' => hapart e' (List.mem_cons_of_mem e he')
      rw [OrderedMap.assign]
      split_ifs with hlt hgt
      · refine List.pairwise_cons.2 ⟨fun e' he' => ?_, h⟩
        rcases List.mem_cons.1 he' with rfl | he'
        · exact hlt
        · exact htrans _ _ _ hlt (hleast e' he')
      · refine List.pairwise_cons.2 ⟨fun e' he' => ?_, ih hsorted hrest⟩
        rcases (mem_assign hrest).1 he' with rfl | he'
        · exact hgt
        · exact hleast e' he'
      · exact absurd (hapart e List.mem_cons_self) (by simp [hlt, hgt])

/-- No entry comes before the first one. -/
theorem Sorted.head_le {p : κ → κ → Prop} (hrefl : ∀ a, p a a) (hlt : ∀ a b, lt a b → p a b)
    {e : κ × α} (h : Sorted lt (e :: map)) {e' : κ × α} (he' : e' ∈ e :: map) : p e.1 e'.1 := by
  rcases List.mem_cons.1 he' with rfl | he'
  · exact hrefl _
  · exact hlt _ _ ((List.pairwise_cons.1 h).1 e' he')

end LibAtapp.OrderedMap
