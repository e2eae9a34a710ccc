import LibAtapp.Conf.LogCategories
import LibAtapp.Library.Run
import Mathlib.Data.List.Perm.Subperm

set_option autoImplicit false

/-! # Merging by identity

After a merge of entries, entries with the same name should be in one category, every category
should have the index it was given, and the numbers in the existed keys should be those of the sorted
list. That is the case exactly where the numbers that the loaders use on the way are already those of
the end. -/

namespace LibAtapp.Conf

/-! ## Where entries go -/

section Lookup

variable {entry : LogEntry} {categories : List LogCategory} {i : Nat}

/-- What is known of a category that the loop over the categories has found. -/
theorem findCategory_eq_some {name : Bytes} {first : Nat} {index : Int}
    {found : Option Nat} (h : findCategory name first index categories found = some i) :
    found = some i ∨ first ≤ i ∧ ∃ category, categories[i - first]? = some category ∧
      (category.name = name ∨ category.index = index ∨ category.index < i) := by
  induction categories generalizing first index found with
  | nil => exact .inl h
  | cons head rest ih =>
      unfold findCategory at h
      split_ifs at h with hmatch
      · obtain hhere | ⟨hle, category, hget, hcases⟩ := ih h
        · cases hhere
          refine .inr ⟨le_refl _, head, by simp, ?_⟩
          obtain hname | hindex := hmatch
          · exact .inl hname
          · exact .inr (.inl hindex)
        · refine .inr ⟨by omega, category, ?_, ?_⟩
          · rw [show i - first = (i - (first + 1)) + 1 by omega, List.getElem?_cons_succ]
            exact hget
          · obtain hname | hindex | hlt := hcases
            · exact .inl hname
            · exact .inr (.inr (by omega))
            · exact .inr (.inr hlt)
      · obtain hhere | ⟨hle, category, hget, hcases⟩ := ih h
        · exact .inl hhere
        · refine .inr ⟨by omega, category, ?_, hcases⟩
          rw [show i - first = (i - (first + 1)) + 1 by omega, List.getElem?_cons_succ]
          exact hget

/-- A category that is found has the name of the entry or the index it asks for; with the loop that
    goes on it may also have an index below its place. -/
theorem lookup_eq_some (h : entry.lookup categories = some i) :
    ∃ category, categories[i]? = some category ∧
      (category.name = entry.name ∨
        (entry.source = .yaml → category.index = entry.index.getD (-1)) ∧
        (entry.source ≠ .yaml →
          category.index = entry.index.getD entry.position ∨ category.index < i)) := by
  unfold LogEntry.lookup at h
  cases hsource : entry.source with
  | yaml =>
      rw [hsource] at h
      obtain ⟨hlt, hmatch, -⟩ := List.findIdx?_eq_some_iff_getElem.1 h
      refine ⟨categories[i], List.getElem?_eq_getElem hlt, ?_⟩
      obtain hname | hindex := of_decide_eq_true hmatch
      · exact .inl hname
      · exact .inr ⟨fun _ => hindex, fun hne => absurd rfl hne⟩
  | environment =>
      rw [hsource] at h
      obtain hnone | ⟨-, category, hget, hcases⟩ := findCategory_eq_some h
      · cases hnone
      · exact ⟨category, hget, hcases.imp id fun hindex => ⟨nofun, fun _ => hindex⟩⟩
  | ini =>
      rw [hsource] at h
      obtain hnone | ⟨-, category, hget, hcases⟩ := findCategory_eq_some h
      · cases hnone
      · exact ⟨category, hget, hcases.imp id fun hindex => ⟨nofun, fun _ => hindex⟩⟩

theorem lookup_lt (h : entry.lookup categories = some i) : i < categories.length := by
  obtain ⟨category, hget, -⟩ := lookup_eq_some h
  exact (List.getElem?_eq_some_iff.1 hget).1

theorem place_eq (h : entry.lookup categories = some i) : entry.place categories = i := by
  unfold LogEntry.place
  rw [h]
  rfl

theorem place_of_none (h : entry.lookup categories = none) :
    entry.place categories = categories.length := by
  unfold LogEntry.place
  rw [h]
  rfl

theorem place_le (entry : LogEntry) (categories : List LogCategory) :
    entry.place categories ≤ categories.length := by
  cases h : entry.lookup categories with
  | none => exact (place_of_none h).le
  | some i =>
      rw [place_eq h]
      exact (lookup_lt h).le

theorem indexAt_eq {category : LogCategory} (h : categories[i]? = some category) :
    indexAt categories i = category.index := by
  unfold indexAt
  rw [h]

end Lookup

/-! ## One merge -/

namespace LogState

variable {s : LogState} {entry : LogEntry}

/-- The category of an entry after it is merged. -/
def merged (s : LogState) (entry : LogEntry) : LogCategory where
  name := if entry.newName ≠ [] then entry.newName
    else if entry.mergedIndex s.categories ∈ s.named then (s.found entry).name else []
  index := entry.mergedIndex s.categories
  sinks := (s.found entry).sinks + entry.addedSinks

/-- A merge changes the category of the entry, or appends it. -/
theorem getElem?_merge (s : LogState) (entry : LogEntry) (i : Nat) :
    (s.merge entry).categories[i]?
      = if i = entry.place s.categories then some (s.merged entry) else s.categories[i]? := by
  have hle := place_le entry s.categories
  have hcategories : (s.merge entry).categories
      = if entry.place s.categories < s.categories.length
        then s.categories.set (entry.place s.categories) (s.merged entry)
        else s.categories ++ [s.merged entry] := rfl
  rw [hcategories]
  split_ifs with hlt hi hi
  · rw [hi, List.getElem?_set_self hlt]
  · rw [List.getElem?_set_ne (Ne.symm hi)]
  · rw [hi, show entry.place s.categories = s.categories.length by omega]
    simp
  · rw [List.getElem?_append]
    split_ifs with hin
    · rfl
    · rw [List.getElem?_eq_none (by simp; omega), List.getElem?_eq_none (by omega)]

theorem indexAt_merge (s : LogState) (entry : LogEntry) (i : Nat) :
    indexAt (s.merge entry).categories i
      = if i = entry.place s.categories then entry.mergedIndex s.categories
        else indexAt s.categories i := by
  unfold indexAt
  rw [getElem?_merge]
  split_ifs <;> rfl

theorem length_merge (s : LogState) (entry : LogEntry) :
    (s.merge entry).categories.length
      = if entry.place s.categories < s.categories.length then s.categories.length
        else s.categories.length + 1 := by
  have hcategories : (s.merge entry).categories
      = if entry.place s.categories < s.categories.length
        then s.categories.set (entry.place s.categories) (s.merged entry)
        else s.categories ++ [s.merged entry] := rfl
  rw [hcategories]
  split_ifs <;> simp

theorem lt_length_merge {i : Nat} :
    i < (s.merge entry).categories.length ↔
      i = entry.place s.categories ∨ i < s.categories.length := by
  rw [← not_le, ← List.getElem?_eq_none_iff, getElem?_merge]
  split_ifs with hi
  · simp [hi]
  · rw [List.getElem?_eq_none_iff, not_le]
    simp [hi]

theorem mem_keys_merge {key : LogKey} :
    key ∈ (s.merge entry).keys ↔
      key ∈ s.keys ∨ (key.number = entry.mergedIndex s.categories ∧
        key.owner = entry.place s.categories ∧
        ∀ sink, key.sink = some sink → sink ∈ entry.sinkKeys (s.found entry).sinks) := by
  have hkeys : (s.merge entry).keys = s.keys ++
      { number := entry.mergedIndex s.categories, owner := entry.place s.categories } ::
        (entry.sinkKeys (s.found entry).sinks).map fun sink =>
          { number := entry.mergedIndex s.categories, owner := entry.place s.categories,
            sink := some sink } := rfl
  rw [hkeys, List.mem_append, List.mem_cons, List.mem_map]
  refine or_congr_right ⟨?_, ?_⟩
  · rintro (rfl | ⟨sink, hsink, rfl⟩)
    · exact ⟨rfl, rfl, nofun⟩
    · exact ⟨rfl, rfl, fun _ heq => Option.some.inj heq ▸ hsink⟩
  · rintro ⟨hnumber, howner, hsink⟩
    obtain ⟨number, owner, sink⟩ := key
    cases hnumber
    cases howner
    cases sink with
    | none => exact .inl rfl
    | some sink => exact .inr ⟨sink, hsink sink rfl, rfl⟩

end LogState

/-! ## The property and its condition -/

/-- The key belongs to the category with its number in the given order, and to the sink with its
    number there. -/
def LogKey.Refers (key : LogKey) (order : List Nat) : Prop :=
  (∃ p : Nat, key.number = p ∧ order[p]? = some key.owner) ∧
    ∀ sink, key.sink = some sink → sink.1 = sink.2

/-- The entries have a name in common, in the text or after expansion. -/
def LogEntry.SharesName (entry other : LogEntry) : Prop :=
  entry.name = other.name ∨ entry.name = other.newName ∨ entry.newName = other.name ∨
    entry.newName = other.newName

/-- The entries have a name in common, or ask for the same index. -/
def LogEntry.Collides (entry other : LogEntry) : Prop :=
  entry.SharesName other ∨ entry.askedIndex ≠ none ∧ entry.askedIndex = other.askedIndex

/-- Entries are merged by their names, and indices and keys are those of the sorted list. -/
structure LogState.MergesByIdentity (s : LogState) : Prop where
  oneCategory : ∀ x ∈ s.placed, ∀ y ∈ s.placed, x.1.newName = y.1.newName → x.2 = y.2
  indices : (s.categories.map (·.index)).Nodup
  explicit : ∀ (k : Nat) (entry : LogEntry) (c : Nat) (i : Int), s.placed[k]? = some (entry, c) →
    entry.index = some i →
    (∀ k' y, k' ≠ k → s.placed[k']? = some y → ¬ entry.Collides y.1) →
    (s.categories[c]?).map (·.index) = some i
  sorted : (s.order.map (indexAt s.categories)).Pairwise (· ≤ ·)
  keys : ∀ key ∈ s.keys, key.Refers s.order

/-- The numbers that the loader of the entry uses are those of its category: one that is found by
    the environment or the INI loader has its place for an index, sinks are counted from 0 only in a
    category without sinks, and an entry with the name of an earlier one finds its category. -/
structure LogEntry.FindsItsOwn (s : LogState) (entry : LogEntry) : Prop where
  index : entry.source ≠ .yaml → ∀ i, entry.lookup s.categories = some i →
    indexAt s.categories i = i
  listed : entry.source = .ini → entry.listed ≠ 0 → (s.found entry).sinks = 0
  counted : entry.counted ≠ 0 → entry.countStart (s.found entry).sinks = 0
  name : ∀ x ∈ s.placed, x.1.newName = entry.newName → entry.place s.categories = x.2

/-- The indices that new categories get. -/
def createdIndices : LogState → List LogEntry → List Int
  | _, [] => []
  | s, entry :: rest =>
    (if entry.lookup s.categories = none then [entry.mergedIndex s.categories] else [])
      ++ createdIndices (s.merge entry) rest

/-- Every entry finds its own, the new categories get the numbers from 0 on without a gap, and an
    entry from YAML whose index is negative, and counts as none, collides with another one. -/
structure MergesCleanly (entries : List LogEntry) : Prop where
  entry : Run.StepsMeet LogState.merge (fun s entry => entry.FindsItsOwn s) {} entries
  numbers : ∃ n, (createdIndices {} entries).Perm ((List.range n).map Nat.cast)
  negative : ∀ (k : Nat) (entry : LogEntry) (i : Int), entries[k]? = some entry →
    entry.source = .yaml → entry.index = some i → i < 0 →
    ∃ k' other, k' ≠ k ∧ entries[k']? = some other ∧ entry.Collides other

theorem sinkKeys_iff (entry : LogEntry) (old : Nat) :
    (∀ sink ∈ entry.sinkKeys old, sink.1 = sink.2) ↔
      (entry.source = .ini → entry.listed ≠ 0 → old = 0) ∧
        (entry.counted ≠ 0 → entry.countStart old = 0) := by
  simp only [LogEntry.sinkKeys, List.mem_append, List.mem_map, List.mem_range]
  constructor
  · intro h
    refine ⟨fun hini hlisted => ?_, fun hcounted => ?_⟩
    · have hzero := h _ (.inl ⟨0, by omega, rfl⟩)
      rw [if_pos hini] at hzero
      omega
    · have hzero := h _ (.inr ⟨0, by omega, rfl⟩)
      dsimp only at hzero
      omega
  · rintro ⟨hlisted, hcounted⟩ sink (⟨j, hj, rfl⟩ | ⟨j, hj, rfl⟩)
    · dsimp only
      split_ifs with hini
      · have := hlisted hini (by omega)
        omega
      · rfl
    · have := hcounted (by omega)
      dsimp only
      omega

end LibAtapp.Conf
