import LibAtapp.Conf.LogMerge
import LibAtapp.Conf.ScalarFormats

set_option autoImplicit false

/-! # When merging keeps identities

Two invariants hold of every merge: a category has a key with its index, and its name comes from an
entry. A third one holds as long as every entry finds its own: then an index never changes, and all
keys of a category have the same number. -/

namespace LibAtapp.Conf

namespace LogState

variable {s : LogState} {entry : LogEntry}

/-! ## Every merge -/

/-- A category has a key with its index, and its name comes from an entry. -/
structure Traced (s : LogState) : Prop where
  key : ∀ i < s.categories.length, ∃ key ∈ s.keys, key.owner = i ∧
    key.number = indexAt s.categories i
  name : ∀ (i : Nat) (category : LogCategory), s.categories[i]? = some category →
    category.name = [] ∨
      ∃ x ∈ s.placed, x.1.name = category.name ∨ x.1.newName = category.name

theorem found_eq {category : LogCategory} (h : s.categories[entry.place s.categories]? = some category) :
    s.found entry = category := by
  unfold found
  rw [h]

/-- The name of a merged category is that of the entry, or was there before. -/
theorem Traced.name_merged (h : s.Traced) (entry : LogEntry) :
    (s.merged entry).name = [] ∨ ∃ x ∈ s.placed ++ [(entry, entry.place s.categories)],
      x.1.name = (s.merged entry).name ∨ x.1.newName = (s.merged entry).name := by
  unfold merged
  dsimp only
  split_ifs with hnew hnamed
  · exact .inr ⟨_, List.mem_append_right _ List.mem_cons_self, .inr rfl⟩
  · cases hget : s.categories[entry.place s.categories]? with
    | some category =>
        rw [found_eq hget]
        refine (h.name _ category hget).imp id ?_
        rintro ⟨x, hx, hname⟩
        exact ⟨x, List.mem_append_left _ hx, hname⟩
    | none =>
        unfold found
        rw [hget]
        dsimp only
        split_ifs
        · exact .inr ⟨_, List.mem_append_right _ List.mem_cons_self, .inl rfl⟩
        · exact .inl rfl
  · exact .inl rfl

theorem Traced.merge (h : s.Traced) (entry : LogEntry) : (s.merge entry).Traced := by
  refine ⟨fun i hi => ?_, fun i category hget => ?_⟩
  · rw [indexAt_merge]
    by_cases hplace : i = entry.place s.categories
    · rw [if_pos hplace]
      exact ⟨⟨entry.mergedIndex s.categories, i, none⟩,
        mem_keys_merge.2 (.inr ⟨rfl, hplace, nofun⟩), rfl, rfl⟩
    · rw [if_neg hplace]
      obtain ⟨key, hkey, howner⟩ := h.key i ((lt_length_merge.1 hi).resolve_left hplace)
      exact ⟨key, mem_keys_merge.2 (.inl hkey), howner⟩
  · show category.name = [] ∨ ∃ x ∈ s.placed ++ [(entry, entry.place s.categories)], _
    rw [getElem?_merge] at hget
    split_ifs at hget
    · cases hget
      exact h.name_merged entry
    · refine (h.name i category hget).imp id ?_
      rintro ⟨x, hx, hname⟩
      exact ⟨x, List.mem_append_left _ hx, hname⟩

theorem traced_run (entries : List LogEntry) : (Run.run merge {} entries).Traced :=
  @Run.invariant_all _ _ merge Traced (fun _ entry h => h.merge entry) _
    ⟨fun _ hi => absurd hi (Nat.not_lt_zero _), fun _ _ hget => by cases hget⟩ entries

/-- Merges only add keys and entries. -/
theorem keys_subset_run (s : LogState) (entries : List LogEntry) :
    ∀ key ∈ s.keys, key ∈ (Run.run merge s entries).keys := by
  induction entries generalizing s with
  | nil => exact fun _ hkey => hkey
  | cons entry rest ih => exact fun key hkey => ih _ key (mem_keys_merge.2 (.inl hkey))

theorem placed_prefix_run (s : LogState) (entries : List LogEntry) :
    s.placed <+: (Run.run merge s entries).placed := by
  induction entries generalizing s with
  | nil => exact List.prefix_rfl
  | cons entry rest ih =>
      exact (List.prefix_append s.placed [(entry, _)]).trans (ih (s.merge entry))

/-- The entries that are placed are those that were merged. -/
theorem placed_run (s : LogState) (entries : List LogEntry) :
    (Run.run merge s entries).placed.map Prod.fst = s.placed.map Prod.fst ++ entries := by
  induction entries generalizing s with
  | nil => simp
  | cons entry rest ih =>
      rw [Run.run_cons, ih]
      simp [merge]

/-! ## Merges that find their own -/

/-- All keys have the numbers of their categories and sinks, entries with the same name are in the
    same category, and an entry with an index has it unless it shares a name with an earlier one or
    its index is negative. -/
structure Settled (s : LogState) : Prop where
  keys : ∀ key ∈ s.keys, key.owner < s.categories.length ∧
    indexAt s.categories key.owner = key.number ∧ ∀ sink, key.sink = some sink → sink.1 = sink.2
  placed : ∀ x ∈ s.placed, x.2 < s.categories.length
  names : ∀ x ∈ s.placed, ∀ y ∈ s.placed, x.1.newName = y.1.newName → x.2 = y.2
  explicit : ∀ (k : Nat) (entry : LogEntry) (c : Nat) (i : Int), s.placed[k]? = some (entry, c) →
    entry.index = some i → indexAt s.categories c = i ∨
      (∃ k' y, k' ≠ k ∧ s.placed[k']? = some y ∧ entry.SharesName y.1) ∨
      entry.source = .yaml ∧ i < 0

/-- An entry that finds its own changes no index. -/
theorem mergedIndex_of_lookup (hfinds : entry.FindsItsOwn s) {i : Nat}
    (h : entry.lookup s.categories = some i) :
    entry.mergedIndex s.categories = indexAt s.categories i := by
  unfold LogEntry.mergedIndex
  rw [h]
  cases hsource : entry.source with
  | yaml => rfl
  | environment => exact (hfinds.index (by rw [hsource]; decide) i h).symm
  | ini => exact (hfinds.index (by rw [hsource]; decide) i h).symm

theorem indexAt_merge_of_lt (hfinds : entry.FindsItsOwn s) {i : Nat} (hi : i < s.categories.length) :
    indexAt (s.merge entry).categories i = indexAt s.categories i := by
  rw [indexAt_merge]
  split_ifs with hplace
  · cases hlookup : entry.lookup s.categories with
    | none =>
        rw [place_of_none hlookup] at hplace
        omega
    | some j =>
        rw [mergedIndex_of_lookup hfinds hlookup, hplace, place_eq hlookup]
  · rfl

/-- An entry with an index is merged under it, or shares a name with an earlier one, or its index
    is negative. -/
theorem mergedIndex_of_index (htraced : s.Traced) (hfinds : entry.FindsItsOwn s)
    (hname : entry.name ≠ []) {i : Int} (hindex : entry.index = some i) :
    entry.mergedIndex s.categories = i ∨ (∃ x ∈ s.placed, entry.SharesName x.1) ∨
      entry.source = .yaml ∧ i < 0 := by
  cases hlookup : entry.lookup s.categories with
  | none =>
      unfold LogEntry.mergedIndex
      rw [hlookup, hindex]
      cases hsource : entry.source with
      | yaml =>
          by_cases hneg : i < 0
          · exact .inr (.inr ⟨rfl, hneg⟩)
          · exact .inl (if_neg hneg)
      | environment => exact .inl rfl
      | ini => exact .inl rfl
  | some j =>
      obtain ⟨category, hget, hsame | ⟨hyaml, hother⟩⟩ := lookup_eq_some hlookup
      · obtain hempty | ⟨x, hx, hx'⟩ := htraced.name j category hget
        · exact absurd (hsame.symm.trans hempty) hname
        · refine .inr (.inl ⟨x, hx, ?_⟩)
          obtain hx' | hx' := hx'
          · exact .inl (hsame.symm.trans hx'.symm)
          · exact .inr (.inl (hsame.symm.trans hx'.symm))
      · rw [mergedIndex_of_lookup hfinds hlookup, indexAt_eq hget]
        rw [hindex, Option.getD_some] at hyaml hother
        by_cases hsource : entry.source = .yaml
        · exact .inl (hyaml hsource)
        · obtain hasked | hlt := hother hsource
          · exact .inl hasked
          -- the place of the category is its index, so the loop had not gone on to it
          · have hplace := hfinds.index hsource j hlookup
            rw [indexAt_eq hget] at hplace
            omega

theorem Settled.merge (h : s.Settled) (htraced : s.Traced) (hname : entry.name ≠ [])
    (hfinds : entry.FindsItsOwn s) : (s.merge entry).Settled := by
  have hplaced : (s.merge entry).placed = s.placed ++ [(entry, entry.place s.categories)] := rfl
  have hnew : indexAt (s.merge entry).categories (entry.place s.categories)
      = entry.mergedIndex s.categories := by rw [indexAt_merge, if_pos rfl]
  refine ⟨fun key hkey => ?_, fun x hx => ?_, fun x hx y hy heq => ?_,
    fun k other c i hget hindex => ?_⟩
  · obtain hkey | ⟨hnumber, howner, hsink⟩ := mem_keys_merge.1 hkey
    · obtain ⟨hlt, hnumber, hsink⟩ := h.keys key hkey
      exact ⟨lt_length_merge.2 (.inr hlt), by rw [indexAt_merge_of_lt hfinds hlt, hnumber], hsink⟩
    · refine ⟨lt_length_merge.2 (.inl howner), by rw [howner, hnew, hnumber], fun sink hget => ?_⟩
      exact (sinkKeys_iff entry _).2 ⟨hfinds.listed, hfinds.counted⟩ sink (hsink sink hget)
  · rw [hplaced, List.mem_append, List.mem_singleton] at hx
    obtain hx | rfl := hx
    · exact lt_length_merge.2 (.inr (h.placed x hx))
    · exact lt_length_merge.2 (.inl rfl)
  · rw [hplaced, List.mem_append, List.mem_singleton] at hx hy
    obtain hx | rfl := hx <;> obtain hy | rfl := hy
    · exact h.names x hx y hy heq
    · exact (hfinds.name x hx heq).symm
    · exact hfinds.name y hy heq.symm
    · rfl
  · rw [hplaced, List.getElem?_append] at hget
    split_ifs at hget with hk
    · have hlt := h.placed _ (List.mem_of_getElem? hget)
      obtain hsame | ⟨k', y, hne, hy, hshares⟩ | hneg := h.explicit k other c i hget hindex
      · exact .inl (by rw [indexAt_merge_of_lt hfinds hlt, hsame])
      · exact .inr (.inl ⟨k', y, hne, by rw [hplaced, List.getElem?_append_left
          (List.getElem?_eq_some_iff.1 hy).1, hy], hshares⟩)
      · exact .inr (.inr hneg)
    · have hk' : k = s.placed.length := by
        have := (List.getElem?_eq_some_iff.1 hget).1
        simp only [List.length_singleton] at this
        omega
      rw [hk', Nat.sub_self] at hget
      cases hget
      obtain hsame | ⟨x, hx, hshares⟩ | hneg := mergedIndex_of_index htraced hfinds hname hindex
      · exact .inl (by rw [hnew, hsame])
      · obtain ⟨k', hget'⟩ := List.mem_iff_getElem?.1 hx
        have hlt := (List.getElem?_eq_some_iff.1 hget').1
        exact .inr (.inl ⟨k', x, by omega, by rw [hplaced, List.getElem?_append_left hlt, hget'],
          hshares⟩)
      · exact .inr (.inr hneg)

/-- **A run** of entries that find their own is settled. -/
theorem settled_run {entries : List LogEntry}
    (hmeet : Run.StepsMeet merge (fun s entry => entry.FindsItsOwn s) {} entries)
    (hnames : ∀ entry ∈ entries, entry.name ≠ []) : (Run.run merge {} entries).Settled := by
  have hstep : ∀ s entry, Settled s ∧ Traced s → entry.FindsItsOwn s ∧ entry.name ≠ [] →
      (merge s entry).Settled ∧ (merge s entry).Traced :=
    fun _ entry h hfinds => ⟨h.1.merge h.2 hfinds.2 hfinds.1, h.2.merge entry⟩
  have hinitial : Settled {} ∧ Traced {} :=
    ⟨⟨nofun, nofun, nofun, fun _ _ _ _ hget => by cases hget⟩, traced_run []⟩
  exact (Run.invariant merge hstep hinitial
    (hmeet.and merge (Run.stepsMeet_of_mem merge hnames {}))).1

/-! ## Indices and the order -/

theorem map_indexAt_range (categories : List LogCategory) :
    (List.range categories.length).map (indexAt categories) = categories.map (·.index) := by
  refine List.ext_getElem (by simp) fun i hi hi' => ?_
  rw [List.length_map] at hi'
  simp [indexAt, List.getElem?_eq_getElem hi']

theorem map_index_merge (hfinds : entry.FindsItsOwn s) :
    (s.merge entry).categories.map (·.index) = s.categories.map (·.index) ++
      (if entry.lookup s.categories = none then [entry.mergedIndex s.categories] else []) := by
  rw [← map_indexAt_range, ← map_indexAt_range]
  have hold : (List.range s.categories.length).map (indexAt (s.merge entry).categories)
      = (List.range s.categories.length).map (indexAt s.categories) :=
    List.map_congr_left fun i hi => indexAt_merge_of_lt hfinds (List.mem_range.1 hi)
  cases hlookup : entry.lookup s.categories with
  | some i =>
      have hlt := lookup_lt hlookup
      have hlength := length_merge s entry
      rw [place_eq hlookup, if_pos hlt] at hlength
      rw [hlength, hold, if_neg nofun, List.append_nil]
  | none =>
      have hplace := place_of_none hlookup
      have hlength := length_merge s entry
      rw [hplace, if_neg (Nat.lt_irrefl _)] at hlength
      rw [hlength, List.range_succ, List.map_append, hold, if_pos rfl, List.map_singleton,
        indexAt_merge, if_pos hplace.symm]

theorem map_index_run {entries : List LogEntry}
    (hmeet : Run.StepsMeet merge (fun s entry => entry.FindsItsOwn s) s entries) :
    (Run.run merge s entries).categories.map (·.index)
      = s.categories.map (·.index) ++ createdIndices s entries := by
  induction entries generalizing s with
  | nil => simp [createdIndices]
  | cons entry rest ih =>
      rw [Run.run_cons, ih hmeet.2, map_index_merge hmeet.1, List.append_assoc]
      rfl

theorem perm_order (s : LogState) : s.order.Perm (List.range s.categories.length) :=
  List.mergeSort_perm _ _

theorem pairwise_order (s : LogState) :
    (s.order.map (indexAt s.categories)).Pairwise (· ≤ ·) := by
  have htrans : ∀ i j k : Nat, decide (indexAt s.categories i ≤ indexAt s.categories j) = true →
      decide (indexAt s.categories j ≤ indexAt s.categories k) = true →
      decide (indexAt s.categories i ≤ indexAt s.categories k) = true := by
    simp only [decide_eq_true_eq]
    exact fun i j k => le_trans
  have htotal : ∀ i j : Nat, (decide (indexAt s.categories i ≤ indexAt s.categories j) ||
      decide (indexAt s.categories j ≤ indexAt s.categories i)) = true := by
    simp only [Bool.or_eq_true, decide_eq_true_eq]
    exact fun i j => le_total _ _
  rw [List.pairwise_map]
  exact (List.pairwise_mergeSort htrans htotal _).imp of_decide_eq_true

/-- Where the indices are the numbers from 0 on, every category is sorted to its index. -/
theorem getElem?_order {n : Nat}
    (h : (s.categories.map (·.index)).Perm ((List.range n).map Nat.cast)) {i : Nat}
    (hi : i < s.categories.length) :
    ∃ p : Nat, indexAt s.categories i = p ∧ s.order[p]? = some i := by
  have hperm : (s.order.map (indexAt s.categories)).Perm ((List.range n).map Nat.cast) := by
    refine (s.perm_order.map _).trans ?_
    rw [map_indexAt_range]
    exact h
  have hnumbers : ((List.range n).map (Nat.cast : Nat → Int)).Pairwise (· ≤ ·) := by
    rw [List.pairwise_map]
    exact List.pairwise_le_range.imp Int.ofNat_le.2
  have hsorted := hperm.eq_of_pairwise (fun _ _ _ _ => le_antisymm) s.pairwise_order hnumbers
  obtain ⟨p, hp⟩ := List.mem_iff_getElem?.1 (s.perm_order.mem_iff.2 (List.mem_range.2 hi))
  refine ⟨p, ?_, hp⟩
  have hget : (s.order.map (indexAt s.categories))[p]? = some (indexAt s.categories i) := by
    rw [List.getElem?_map, hp]
    rfl
  rw [hsorted, List.getElem?_map] at hget
  obtain ⟨q, hq, heq⟩ := Option.map_eq_some_iff.1 hget
  rw [← heq, ← (List.getElem?_eq_some_iff.1 hq).2, List.getElem_range]

/-! ## Exactly when -/

/-- Where entries are merged by identity in the end, an entry found its own on the way. -/
theorem MergesByIdentity.findsItsOwn {t : LogState} (h : t.MergesByIdentity) (htraced : s.Traced)
    (hkeys : ∀ key ∈ (s.merge entry).keys, key ∈ t.keys)
    (hplaced : ∀ x ∈ (s.merge entry).placed, x ∈ t.placed) : entry.FindsItsOwn s := by
  have hsinks : ∀ sink ∈ entry.sinkKeys (s.found entry).sinks, sink.1 = sink.2 := fun sink hsink =>
    (h.keys ⟨entry.mergedIndex s.categories, entry.place s.categories, some sink⟩
      (hkeys _ (mem_keys_merge.2 (.inr ⟨rfl, rfl, fun _ heq => Option.some.inj heq ▸ hsink⟩)))).2
        sink rfl
  obtain ⟨hlisted, hcounted⟩ := (sinkKeys_iff entry _).1 hsinks
  refine ⟨fun hsource i hlookup => ?_, hlisted, hcounted, fun x hx hname => ?_⟩
  · -- the category has a key with its index, and gets one with its place
    obtain ⟨key, hkey, howner, hnumber⟩ := htraced.key i (lookup_lt hlookup)
    obtain ⟨⟨p, hp, hget⟩, -⟩ := h.keys key (hkeys key (mem_keys_merge.2 (.inl hkey)))
    obtain ⟨⟨q, hq, hget'⟩, -⟩ := h.keys ⟨entry.mergedIndex s.categories, i, none⟩
      (hkeys _ (mem_keys_merge.2 (.inr ⟨rfl, (place_eq hlookup).symm, nofun⟩)))
    have hmerged : entry.mergedIndex s.categories = i := by
      unfold LogEntry.mergedIndex
      rw [hlookup]
      cases hcase : entry.source with
      | yaml => exact absurd hcase hsource
      | environment => rfl
      | ini => rfl
    have hnodup : t.order.Nodup := t.perm_order.nodup_iff.2 List.nodup_range
    obtain ⟨hlt, hgetp⟩ := List.getElem?_eq_some_iff.1 hget
    obtain ⟨hlt', hgetq⟩ := List.getElem?_eq_some_iff.1 hget'
    have hpq : p = q := (List.Nodup.getElem_inj_iff hnodup).1 (hgetp.trans (howner.trans hgetq.symm))
    calc indexAt s.categories i = p := hnumber.symm.trans hp
      _ = q := by rw [hpq]
      _ = i := hq.symm.trans hmerged
  · exact (h.oneCategory x (hplaced x (List.mem_append_left _ hx)) (entry, entry.place s.categories)
      (hplaced _ (List.mem_append_right _ List.mem_cons_self)) hname).symm

end LogState

/-- **Merging by identity**: it holds exactly where the entries are merged cleanly. -/
theorem mergesByIdentity_iff {entries : List LogEntry} (hnames : ∀ entry ∈ entries, entry.name ≠ []) :
    (Run.run LogState.merge {} entries).MergesByIdentity ↔ MergesCleanly entries := by
  have htraced := LogState.traced_run entries
  have hentries : (Run.run LogState.merge {} entries).placed.map Prod.fst = entries :=
    LogState.placed_run {} entries
  have hget_iff : ∀ (k : Nat) (entry : LogEntry), entries[k]? = some entry ↔
      ∃ c, (Run.run LogState.merge {} entries).placed[k]? = some (entry, c) := by
    intro k entry
    rw [← congrArg (·[k]?) hentries, List.getElem?_map, Option.map_eq_some_iff]
    exact ⟨fun ⟨x, hx, heq⟩ => ⟨x.2, heq ▸ hx⟩, fun ⟨c, hc⟩ => ⟨(entry, c), hc, rfl⟩⟩
  constructor
  · intro h
    have hentry : Run.StepsMeet LogState.merge (fun s entry => entry.FindsItsOwn s) {} entries := by
      by_contra hnot
      obtain ⟨front, entry, back, rfl, -, hfinds⟩ := Run.exists_first_of_not_stepsMeet _ hnot
      refine hfinds (h.findsItsOwn (LogState.traced_run front) ?_ ?_)
      · rw [Run.run_append, Run.run_cons]
        exact LogState.keys_subset_run _ back
      · rw [Run.run_append, Run.run_cons]
        exact fun x hx => (LogState.placed_prefix_run _ back).subset hx
    have hcreated := LogState.map_index_run hentry
    rw [show ({} : LogState).categories.map (·.index) = [] from rfl, List.nil_append] at hcreated
    have hplaces : ∀ i < (Run.run LogState.merge {} entries).categories.length, ∃ p : Nat,
        indexAt (Run.run LogState.merge {} entries).categories i = p ∧
          (Run.run LogState.merge {} entries).order[p]? = some i := by
      intro i hi
      obtain ⟨key, hkey, rfl, hnumber⟩ := htraced.key i hi
      rw [← hnumber]
      exact (h.keys key hkey).1
    refine ⟨hentry, ⟨(Run.run LogState.merge {} entries).categories.length, ?_⟩,
      fun k entry i hget hyaml hindex hneg => ?_⟩
    · rw [← hcreated]
      refine (List.subperm_of_subset h.indices fun index hindex => ?_).perm_of_length_le (by simp)
      rw [← LogState.map_indexAt_range] at hindex
      obtain ⟨i, hi, rfl⟩ := List.mem_map.1 hindex
      obtain ⟨p, hp, hget⟩ := hplaces i (List.mem_range.1 hi)
      have hlt := (List.getElem?_eq_some_iff.1 hget).1
      rw [(LogState.perm_order _).length_eq, List.length_range] at hlt
      exact hp ▸ List.mem_map.2 ⟨p, List.mem_range.2 hlt, rfl⟩
    · by_contra hnone
      obtain ⟨c, hc⟩ := (hget_iff k entry).1 hget
      have hexplicit := h.explicit k entry c i hc hindex fun k' y hne hy hcollides =>
        hnone ⟨k', y.1, hne, (hget_iff k' y.1).2 ⟨y.2, hy⟩, hcollides⟩
      obtain ⟨category, hcategory, rfl⟩ := Option.map_eq_some_iff.1 hexplicit
      obtain ⟨p, hp, -⟩ := hplaces c (List.getElem?_eq_some_iff.1 hcategory).1
      rw [indexAt_eq hcategory] at hp
      omega
  · rintro ⟨hentry, ⟨n, hnumbers⟩, hnegative⟩
    have hsettled := LogState.settled_run hentry hnames
    have hcreated := LogState.map_index_run hentry
    rw [show ({} : LogState).categories.map (·.index) = [] from rfl, List.nil_append] at hcreated
    rw [← hcreated] at hnumbers
    refine ⟨hsettled.names, ?_, fun k entry c i hget hindex halone => ?_, LogState.pairwise_order _,
      fun key hkey => ?_⟩
    · rw [hnumbers.nodup_iff]
      exact List.nodup_range.map fun _ _ => Int.ofNat_inj.1
    · have hlt := hsettled.placed _ (List.mem_of_getElem? hget)
      have hcategory := List.getElem?_eq_getElem hlt
      obtain hsame | ⟨k', y, hne, hy, hshares⟩ | ⟨hyaml, hneg⟩ :=
        hsettled.explicit k entry c i hget hindex
      · rw [hcategory, ← hsame, indexAt_eq hcategory]
        rfl
      · exact absurd (.inl hshares) (halone k' y hne hy)
      · obtain ⟨k', other, hne, hother, hcollides⟩ :=
          hnegative k entry i ((hget_iff k entry).2 ⟨c, hget⟩) hyaml hindex hneg
        obtain ⟨c', hc'⟩ := (hget_iff k' other).1 hother
        exact absurd hcollides (halone k' (other, c') hne hc')
    · obtain ⟨hlt, hnumber, hsink⟩ := hsettled.keys key hkey
      rw [LogKey.Refers, ← hnumber]
      exact ⟨LogState.getElem?_order hnumbers hlt, hsink⟩

/-! ## The entries of the sources -/

namespace LogSources

/-- No loader makes an entry without a name. -/
theorem name_ne_nil (srcs : LogSources) : ∀ entry ∈ srcs.entries, entry.name ≠ [] := by
  intro entry hentry
  rw [entries, List.mem_append, List.mem_append] at hentry
  obtain (henvironment | hini) | hyaml := hentry
  · split_ifs at henvironment
    · cases henvironment
    · obtain ⟨position, hposition, rfl⟩ := List.mem_map.1 henvironment
      have hname := List.mem_takeWhile_imp hposition
      exact of_decide_eq_true hname
  · unfold iniEntries at hini
    cases hroot : srcs.iniRoot with
    | none =>
        rw [hroot] at hini
        cases hini
    | some src =>
        rw [hroot] at hini
        dsimp only at hini
        cases hcategories : (src.child (ascii "category")).or (src.child (ascii "cat")) with
        | none =>
            rw [hcategories] at hini
            cases hini
        | some categories =>
            rw [hcategories] at hini
            obtain ⟨⟨v, position⟩, -, hv⟩ := List.mem_filterMap.1 hini
            dsimp only at hv
            split_ifs at hv with hname
            cases hv
            exact hname
  · have hone : ∀ src, srcs.yamlEntry src = some entry → entry.name ≠ [] := by
      intro src hsrc
      unfold yamlEntry at hsrc
      split at hsrc
      · cases hsrc
        exact List.cons_ne_nil _ _
      · cases hsrc
    obtain ⟨document, -, hdocument⟩ := List.mem_flatMap.1 hyaml
    split at hdocument
    · split at hdocument
      · exact hone _ (Option.mem_toList.1 hdocument)
      · obtain ⟨src, -, hsrc⟩ := List.mem_filterMap.1 hdocument
        exact hone src hsrc
      · cases hdocument
    · cases hdocument

end LogSources

/-- **For all sources**: categories are merged by identity exactly where this is clean. -/
theorem parseLogConfiguresInto_iff (srcs : LogSources) :
    (parseLogConfiguresInto srcs).MergesByIdentity ↔ MergesCleanly srcs.entries :=
  mergesByIdentity_iff srcs.name_ne_nil

/-- The category `db` in the environment and in an INI file, with the index 3 in both. -/
def databaseSources : LogSources where
  reader := ⟨FieldKind.decimalReader, fun _ => ⟨0, 0⟩⟩
  environment name :=
    if name = ascii "ATAPP_LOG_CATEGORY_0_NAME" then ascii "db"
    else if name = ascii "ATAPP_LOG_CATEGORY_0_INDEX" then ascii "3"
    else []
  environmentPrefix := ascii "ATAPP_LOG"
  limit := 2
  root := .node [] [(ascii "log", .node [] [(ascii "category", .node [] [(ascii "0",
    .node [] [(ascii "name", .node [ascii "db"] []), (ascii "index", .node [ascii "3"] [])])])])]
  path := [ascii "log"]
  documents := []

/-- The INI loader gives the category its place as the index, and the keys from the environment
    belong to no category any more. -/
theorem not_mergesByIdentity_database :
    ¬ (parseLogConfiguresInto databaseSources).MergesByIdentity := by
  intro h
  have hlength : (parseLogConfiguresInto databaseSources).categories.length = 1 := by decide +kernel
  have hkey : (⟨3, 0, none⟩ : LogKey) ∈ (parseLogConfiguresInto databaseSources).keys := by
    decide +kernel
  obtain ⟨⟨p, hp, hget⟩, -⟩ := h.keys _ hkey
  have hlt := (List.getElem?_eq_some_iff.1 hget).1
  rw [(LogState.perm_order _).length_eq, hlength, List.length_range] at hlt
  have hthree : (3 : Int) = p := hp
  omega

end LibAtapp.Conf
