import LibAtapp.Library.SortedRing
import Mathlib.Data.List.Rotate
import Mathlib.Data.List.Chain

set_option autoImplicit false

/-! # Runs on a ring

The elements of a ring have owners. A run is a stretch of neighbours with one owner, and a run may
go through the end of the list that represents the ring. Keeping only the last element of every
run leaves, from every position on, the same first owner and the same owners in the order of their
first occurrence. -/

namespace LibAtapp.CyclicRuns

open SortedRing

variable {α β : Type} [DecidableEq β] (owner : α → β)

/-! ## Definitions -/

/-- Every element with the next one, the last with the first. -/
def cyclicPairs (l : List α) : List (α × α) := l.zip (l.rotate 1)

/-- The elements whose next one has another owner. -/
def ends (l : List α) : List α :=
  ((cyclicPairs l).filter (fun p => owner p.1 ≠ owner p.2)).map Prod.fst

/-- The last element of every run, one element if there is a single run. -/
def compact (l : List α) : List α :=
  if ends owner l = [] then l.getLast?.toList else ends owner l

/-- The last elements of all runs of `first :: rest` but the last run, read as a plain list. -/
def runEnds (first : α) : List α → List α
  | [] => []
  | y :: ys => if owner y = owner first then runEnds y ys else first :: runEnds y ys

/-- The elements of a list that are not in `seen`, in the order of their first occurrence. -/
def firsts (seen : List β) : List β → List β
  | [] => []
  | b :: l => if b ∈ seen then firsts seen l else b :: firsts (b :: seen) l

/-- The last element of `first :: rest`. -/
abbrev lastOf (first : α) (rest : List α) : α := (first :: rest).getLast (List.cons_ne_nil _ _)

/-! ## The runs of a plain list -/

section

variable {owner}

/-- The runs in front of the last one and the last element together begin with the owner of the
    first element. -/
theorem runEnds_head (first : α) (rest : List α) :
    ∃ front tail, runEnds owner first rest ++ [lastOf first rest] = front :: tail ∧
      owner front = owner first := by
  induction rest generalizing first with
  | nil => exact ⟨first, [], rfl, rfl⟩
  | cons y ys ih =>
    obtain ⟨front, tail, heq, howner⟩ := ih y
    simp only [runEnds]
    split
    · next hsame =>
      refine ⟨front, tail, ?_, howner.trans hsame⟩
      rw [lastOf, List.getLast_cons_cons]
      exact heq
    · exact ⟨first, _, rfl, rfl⟩

theorem owner_of_runEnds_cons {first front : α} {rest tail : List α}
    (h : runEnds owner first rest = front :: tail) : owner front = owner first := by
  obtain ⟨front', tail', heq, howner⟩ := @runEnds_head α β _ owner first rest
  rw [h, List.cons_append] at heq
  rw [(List.cons.inj heq).1, howner]

/-- A single run. -/
theorem owner_of_runEnds_nil {first : α} {rest : List α} (h : runEnds owner first rest = []) :
    ∀ a ∈ first :: rest, owner a = owner first := by
  induction rest generalizing first with
  | nil =>
    intro a ha
    rw [List.mem_singleton.1 ha]
  | cons y ys ih =>
    simp only [runEnds] at h
    split at h
    · next hsame =>
      intro a ha
      rcases List.mem_cons.1 ha with rfl | ha
      · rfl
      · exact (ih h a ha).trans hsame
    · exact absurd h (List.cons_ne_nil _ _)

/-- Neighbours among the kept elements have different owners. -/
theorem isChain_runEnds (first : α) (rest : List α) :
    (runEnds owner first rest ++ [lastOf first rest]).IsChain
      (fun a b => owner a ≠ owner b) := by
  induction rest generalizing first with
  | nil => exact List.IsChain.singleton _
  | cons y ys ih =>
    have hlast : lastOf first (y :: ys) = lastOf y ys := List.getLast_cons_cons
    simp only [runEnds, hlast]
    split
    · exact ih y
    · next hdiffer =>
      obtain ⟨front, tail, heq, howner⟩ := @runEnds_head α β _ owner y ys
      have hchain := ih y
      rw [List.cons_append, heq, List.isChain_cons_cons]
      rw [heq] at hchain
      refine ⟨?_, hchain⟩
      rw [howner]
      exact fun h => hdiffer h.symm

/-- The pairs of a list and its continuation by `next`. -/
theorem filter_zip_eq (next first : α) (rest : List α) :
    (((first :: rest).zip (rest ++ [next])).filter
        (fun p => owner p.1 ≠ owner p.2)).map Prod.fst =
      runEnds owner first rest ++
        if owner (lastOf first rest) = owner next then [] else [lastOf first rest] := by
  induction rest generalizing first with
  | nil =>
    by_cases h : owner first = owner next
    · simp [runEnds, h]
    · simp [runEnds, h]
  | cons y ys ih =>
    have hlast : lastOf first (y :: ys) = lastOf y ys := List.getLast_cons_cons
    rw [List.cons_append, List.zip_cons_cons, hlast]
    simp only [runEnds]
    by_cases h : owner y = owner first
    · rw [List.filter_cons_of_neg (by simp [h]), ih, if_pos h]
    · have h' : owner first ≠ owner y := fun heq => h heq.symm
      rw [List.filter_cons_of_pos (by simpa using h'), List.map_cons, ih, if_neg h,
        List.cons_append]

/-! ## The runs of a ring -/

theorem ends_cons (first : α) (rest : List α) :
    ends owner (first :: rest) = runEnds owner first rest ++
      if owner (lastOf first rest) = owner first then [] else [lastOf first rest] := by
  rw [ends, cyclicPairs, List.rotate_cons_succ, List.rotate_zero, filter_zip_eq]

/-- A ring is a single run exactly if its list is one. -/
theorem ends_eq_nil_iff (first : α) (rest : List α) :
    ends owner (first :: rest) = [] ↔ runEnds owner first rest = [] := by
  rw [ends_cons]
  constructor
  · intro h
    exact (List.append_eq_nil_iff.1 h).1
  · intro h
    have hlast := owner_of_runEnds_nil h (lastOf first rest) (List.getLast_mem _)
    rw [h, if_pos hlast]
    rfl

theorem compact_cons (first : α) (rest : List α) :
    compact owner (first :: rest) =
      match runEnds owner first rest with
      | [] => [lastOf first rest]
      | front :: tail => front :: tail ++
        if owner (lastOf first rest) = owner first then [] else [lastOf first rest] := by
  unfold compact
  cases hruns : runEnds owner first rest with
  | nil =>
    rw [if_pos ((ends_eq_nil_iff first rest).2 hruns), List.getLast?_eq_some_getLast (by simp)]
    rfl
  | cons front tail =>
    rw [if_neg, ends_cons, hruns]
    intro h
    rw [ends_eq_nil_iff, hruns] at h
    exact List.cons_ne_nil _ _ h

/-- The first kept element has the owner of the first element. -/
theorem owner_head_compact (l : List α) :
    (compact owner l).head?.map owner = l.head?.map owner := by
  cases l with
  | nil => simp [compact, ends, cyclicPairs]
  | cons first rest =>
    rw [compact_cons]
    cases hruns : runEnds owner first rest with
    | nil =>
      have hlast := owner_of_runEnds_nil hruns (lastOf first rest) (List.getLast_mem _)
      simp [hlast]
    | cons front tail => simp [owner_of_runEnds_cons hruns]

/-- Cyclic neighbours among the kept elements have different owners, unless there is only one. -/
theorem compact_pairs (l : List α) :
    (compact owner l).length = 1 ∨
      ∀ p ∈ cyclicPairs (compact owner l), owner p.1 ≠ owner p.2 := by
  cases l with
  | nil => exact Or.inr (by simp [compact, ends, cyclicPairs])
  | cons first rest =>
    rw [compact_cons]
    have hchain := @isChain_runEnds α β _ owner first rest
    cases hruns : runEnds owner first rest with
    | nil => exact Or.inl rfl
    | cons front tail =>
      refine Or.inr ?_
      rw [hruns] at hchain
      have hfront := owner_of_runEnds_cons hruns
      -- the pairs of a list followed by `front` are those of a chain
      have hpairs : ∀ (l : List α) (a : α),
          (a :: l ++ [front]).IsChain (fun a b => owner a ≠ owner b) →
          ∀ p ∈ (a :: l).zip (l ++ [front]), owner p.1 ≠ owner p.2 := by
        intro l
        induction l with
        | nil =>
          intro a h p hp
          rw [List.mem_singleton.1 hp]
          exact (List.isChain_cons_cons.1 h).1
        | cons b l ih =>
          intro a h p hp
          obtain ⟨hab, hrest⟩ := List.isChain_cons_cons.1 h
          rcases List.mem_cons.1 hp with rfl | hp
          · exact hab
          · exact ih b hrest p hp
      dsimp only
      split
      · next hlast =>
        rw [List.append_nil, cyclicPairs, List.rotate_cons_succ, List.rotate_zero]
        refine hpairs tail front ?_
        -- the dropped last element and `front` have one owner
        rw [List.isChain_append] at hchain ⊢
        refine ⟨hchain.1, List.IsChain.singleton _, fun a ha b hb => ?_⟩
        rw [List.head?_cons, Option.mem_some_iff] at hb
        rw [← hb, hfront, ← hlast]
        exact hchain.2.2 a ha _ rfl
      · next hlast =>
        rw [cyclicPairs, List.cons_append, List.rotate_cons_succ, List.rotate_zero]
        refine hpairs (tail ++ [lastOf first rest]) front ?_
        rw [List.isChain_append]
        refine ⟨hchain, List.IsChain.singleton _, fun a ha b hb => ?_⟩
        rw [List.head?_cons, Option.mem_some_iff] at hb
        rw [← List.cons_append, List.getLast?_concat, Option.mem_some_iff] at ha
        rw [← ha, ← hb, hfront]
        exact hlast

end

/-! ## First occurrences -/

theorem firsts_of_mem {seen : List β} {b : β} {l : List β} (h : b ∈ seen) :
    firsts seen (b :: l) = firsts seen l := by
  rw [firsts, if_pos h]

theorem firsts_cons_cons (seen : List β) (b : β) (l : List β) :
    firsts seen (b :: b :: l) = firsts seen (b :: l) := by
  by_cases h : b ∈ seen
  · rw [firsts_of_mem h]
  · rw [firsts, firsts, if_neg h, if_neg h, firsts_of_mem List.mem_cons_self]

theorem firsts_append_of_mem {b : β} {l : List β} (seen : List β) (h : b ∈ l ∨ b ∈ seen) :
    firsts seen (l ++ [b]) = firsts seen l := by
  induction l generalizing seen with
  | nil =>
    rcases h with h | h
    · exact absurd h List.not_mem_nil
    · exact firsts_of_mem h
  | cons a l ih =>
    rw [List.cons_append, firsts, firsts]
    split
    · next ha =>
      refine ih seen ?_
      rcases h with h | h
      · rcases List.mem_cons.1 h with rfl | h
        · exact Or.inr ha
        · exact Or.inl h
      · exact Or.inr h
    · congr 1
      refine ih _ ?_
      rcases h with h | h
      · rcases List.mem_cons.1 h with rfl | h
        · exact Or.inr List.mem_cons_self
        · exact Or.inl h
      · exact Or.inr (List.mem_cons_of_mem _ h)

theorem firsts_congr {seen seen' : List β} {l : List β} (h : ∀ b ∈ l, b ∈ seen ↔ b ∈ seen') :
    firsts seen l = firsts seen' l := by
  induction l generalizing seen seen' with
  | nil => rfl
  | cons a l ih =>
    have hrest : ∀ b ∈ l, b ∈ seen ↔ b ∈ seen' := fun b hb => h b (List.mem_cons_of_mem a hb)
    have hgrown : ∀ b ∈ l, b ∈ a :: seen ↔ b ∈ a :: seen' := by
      intro b hb
      rw [List.mem_cons, List.mem_cons, hrest b hb]
    rw [firsts, firsts]
    by_cases ha : a ∈ seen
    · rw [if_pos ha, if_pos ((h a List.mem_cons_self).1 ha), ih hrest]
    · rw [if_neg ha, if_neg (fun ha' => ha ((h a List.mem_cons_self).2 ha')), ih hgrown]

theorem firsts_filter (seen : List β) (q : β → Bool) (l : List β) :
    firsts seen (l.filter q) = (firsts seen l).filter q := by
  induction l generalizing seen with
  | nil => rfl
  | cons b l ih =>
    cases hb : q b with
    | true =>
      rw [List.filter_cons_of_pos hb, firsts, firsts]
      split
      · exact ih seen
      · rw [List.filter_cons_of_pos hb, ih]
    | false =>
      rw [List.filter_cons_of_neg (by simp [hb]), firsts]
      split
      · exact ih seen
      · rw [List.filter_cons_of_neg (by simp [hb]), ← ih]
        -- what the filter drops does not come again
        refine firsts_congr fun a ha => ?_
        have hab : a ≠ b := by
          rintro rfl
          rw [List.mem_filter, hb] at ha
          exact Bool.false_ne_true ha.2
        simp [hab]

theorem mem_firsts {seen : List β} {b : β} {l : List β} :
    b ∈ firsts seen l ↔ b ∈ l ∧ b ∉ seen := by
  induction l generalizing seen with
  | nil => simp [firsts]
  | cons a l ih =>
    rw [firsts]
    by_cases ha : a ∈ seen
    · rw [if_pos ha, ih, List.mem_cons]
      constructor
      · exact fun h => ⟨Or.inr h.1, h.2⟩
      · rintro ⟨rfl | hb, hnot⟩
        · exact absurd ha hnot
        · exact ⟨hb, hnot⟩
    · rw [if_neg ha, List.mem_cons, ih, List.mem_cons, List.mem_cons]
      by_cases hab : b = a
      · simp [hab, ha]
      · simp [hab]

/-- Each element occurs once, in the order of the first occurrences. -/
theorem firsts_pairwise_idxOf [BEq β] [LawfulBEq β] (seen l : List β) :
    (firsts seen l).Pairwise (fun a b => l.idxOf a < l.idxOf b) := by
  induction l generalizing seen with
  | nil => exact List.Pairwise.nil
  | cons a l ih =>
    -- in front of the list, an element only shifts the others
    have hshift : ∀ seen', a ∈ seen' → (firsts seen' l).Pairwise
        (fun b c => (a :: l).idxOf b < (a :: l).idxOf c) := by
      intro seen' ha
      refine (ih seen').imp_of_mem fun {b c} hb hc hbc => ?_
      have hab : a ≠ b := fun h => (mem_firsts.1 hb).2 (h ▸ ha)
      have hac : a ≠ c := fun h => (mem_firsts.1 hc).2 (h ▸ ha)
      rw [List.idxOf_cons_ne _ hab, List.idxOf_cons_ne _ hac]
      omega
    rw [firsts]
    by_cases ha : a ∈ seen
    · rw [if_pos ha]
      exact hshift seen ha
    · rw [if_neg ha, List.pairwise_cons]
      refine ⟨fun b hb => ?_, hshift _ List.mem_cons_self⟩
      have hab : a ≠ b := fun h => (mem_firsts.1 hb).2 (h ▸ List.mem_cons_self)
      rw [List.idxOf_cons_self, List.idxOf_cons_ne _ hab]
      exact Nat.succ_pos _

theorem firsts_nodup (l : List β) : (firsts [] l).Nodup :=
  (firsts_pairwise_idxOf [] l).imp fun hab he => absurd (he ▸ hab) (lt_irrefl _)

section

variable {owner}

/-- Keeping the last element of every run keeps the first occurrences of the owners. -/
theorem firsts_runEnds (seen : List β) (first : α) (rest : List α) :
    firsts seen ((runEnds owner first rest ++ [lastOf first rest]).map owner) =
      firsts seen ((first :: rest).map owner) := by
  induction rest generalizing seen first with
  | nil => rfl
  | cons y ys ih =>
    have hlast : lastOf first (y :: ys) = lastOf y ys := List.getLast_cons_cons
    simp only [runEnds, hlast]
    split
    · next hsame =>
      rw [ih, List.map_cons, List.map_cons, List.map_cons, ← hsame, firsts_cons_cons]
    · rw [List.cons_append, List.map_cons, List.map_cons (l := y :: ys), firsts, firsts, ih, ih]

theorem firsts_compact (seen : List β) (l : List α) :
    firsts seen ((compact owner l).map owner) = firsts seen (l.map owner) := by
  cases l with
  | nil => simp [compact, ends, cyclicPairs]
  | cons first rest =>
    rw [← firsts_runEnds, compact_cons]
    cases hruns : runEnds owner first rest with
    | nil => rfl
    | cons front tail =>
      dsimp only
      split
      · next hlast =>
        -- the owner of the dropped element comes first
        rw [List.append_nil, List.map_append, List.map_singleton]
        refine (firsts_append_of_mem seen (Or.inl ?_)).symm
        rw [hlast, ← owner_of_runEnds_cons hruns]
        exact List.mem_map_of_mem List.mem_cons_self
      · rfl

end

/-! ## From every position on -/

/-- Reading from a position on is a rotation. -/
theorem ringFrom_eq_rotate (below : α → Bool) (l : List α) :
    ringFrom below l = l.rotate (l.takeWhile below).length := by
  have hle : (l.takeWhile below).length ≤ l.length := (List.takeWhile_prefix below).length_le
  have hsplit : l.takeWhile below ++ l.dropWhile below = l := List.takeWhile_append_dropWhile
  have hdrop : (l.takeWhile below ++ l.dropWhile below).drop (l.takeWhile below).length =
      l.dropWhile below := List.drop_left
  have htake : (l.takeWhile below ++ l.dropWhile below).take (l.takeWhile below).length =
      l.takeWhile below := List.take_left
  rw [hsplit] at hdrop htake
  rw [List.rotate_eq_drop_append_take hle, hdrop, htake]
  rfl

/-- The initial part below an element is what stands in front of it. -/
theorem takeWhile_eq_take {below : α → Bool} {l : List α} {i : Nat} (hi : i < l.length)
    (hbelow : ∀ a ∈ l.take i, below a = true) (hat : below l[i] = false) :
    l.takeWhile below = l.take i := by
  conv_lhs => rw [← List.take_append_drop i l]
  rw [List.takeWhile_append_of_pos hbelow, List.drop_eq_getElem_cons hi,
    List.takeWhile_cons_of_neg (by simp [hat]), List.append_nil]

/-- Reading a strictly sorted list from one of its elements on. -/
theorem ringFrom_getElem {κ : Type} [LinearOrder κ] {f : α → κ} {l : List α}
    (hsorted : l.Pairwise (fun a b => f a < f b)) {i : Nat} (hi : i < l.length) :
    ringFrom (fun a => decide (f a < f l[i])) l = l.rotate i := by
  have hbelow : ∀ a ∈ l.take i, decide (f a < f l[i]) = true := by
    intro a ha
    obtain ⟨j, hj, rfl⟩ := List.mem_take_iff_getElem.1 ha
    exact decide_eq_true (List.pairwise_iff_getElem.1 hsorted j i _ hi (by omega))
  rw [ringFrom_eq_rotate, takeWhile_eq_take hi hbelow (by simp), List.length_take,
    Nat.min_eq_left hi.le]

theorem cyclicPairs_rotate (l : List α) (n : Nat) :
    cyclicPairs (l.rotate n) = (cyclicPairs l).rotate n := by
  change List.zipWith Prod.mk _ _ = (List.zipWith Prod.mk _ _).rotate n
  rw [List.zipWith_rotate_distrib _ _ _ _ (by simp), List.rotate_rotate, List.rotate_rotate,
    Nat.add_comm]

theorem map_fst_cyclicPairs (l : List α) : (cyclicPairs l).map Prod.fst = l :=
  List.map_fst_zip (by simp)

/-- The pairs of a ring that is read from a position on. -/
theorem cyclicPairs_ringFrom (below : α → Bool) (l : List α) :
    ringFrom (below ∘ Prod.fst) (cyclicPairs l) = cyclicPairs (ringFrom below l) := by
  have hlength : ((cyclicPairs l).takeWhile (below ∘ Prod.fst)).length =
      (l.takeWhile below).length := by
    conv_rhs => rw [← map_fst_cyclicPairs l]
    rw [List.takeWhile_map, List.length_map]
  rw [ringFrom_eq_rotate, ringFrom_eq_rotate, hlength, cyclicPairs_rotate]

theorem map_ringFrom {γ : Type} (below : α → Bool) (f : γ → α) (l : List γ) :
    ringFrom below (l.map f) = (ringFrom (below ∘ f) l).map f := by
  rw [ringFrom, ringFrom, List.dropWhile_map, List.takeWhile_map, List.map_append]

section

variable {owner} {below : α → Bool} {l : List α}

/-- The ends of the runs do not depend on where the ring is read from. -/
theorem ends_ringFrom (h : Initial below l) :
    ringFrom below (ends owner l) = ends owner (ringFrom below l) := by
  have hpairs : Initial (below ∘ Prod.fst) (cyclicPairs l) := by
    have hmap : ((cyclicPairs l).map Prod.fst).Pairwise
        (fun a b => below b = true → below a = true) := by
      rw [map_fst_cyclicPairs]
      exact h
    exact List.pairwise_map.1 hmap
  unfold ends
  rw [map_ringFrom, ringFrom_filter hpairs, cyclicPairs_ringFrom]

/-- The owners of the compact ring, read from any position on. -/
theorem map_ringFrom_compact (h : Initial below l) :
    (ringFrom below (compact owner l)).map owner =
      (compact owner (ringFrom below l)).map owner := by
  have hends := @ends_ringFrom α β _ owner below l h
  by_cases hnil : ends owner l = []
  · -- one run: every element has the same owner
    have hempty : ringFrom below ([] : List α) = [] := rfl
    rw [hnil, hempty] at hends
    unfold compact
    rw [if_pos hnil, ← hends, if_pos rfl]
    cases l with
    | nil => rfl
    | cons first rest =>
      have hsame := owner_of_runEnds_nil ((ends_eq_nil_iff first rest).1 hnil)
      have hperm := ringFrom_perm below (first :: rest)
      have hne : ringFrom below (first :: rest) ≠ [] := by
        intro hring
        rw [hring] at hperm
        exact List.cons_ne_nil _ _ (List.nil_perm.1 hperm)
      have hlast := hperm.mem_iff.1 (List.getLast_mem hne)
      rw [List.getLast?_eq_some_getLast hne, List.getLast?_eq_some_getLast (List.cons_ne_nil _ _)]
      have hsingle : ∀ a : α, ringFrom below [a] = [a] := by
        intro a
        cases ha : below a <;> simp [ringFrom, ha]
      rw [Option.toList_some, Option.toList_some, hsingle, List.map_singleton, List.map_singleton,
        hsame _ hlast, hsame _ (List.getLast_mem _)]
  · have hnil' : ends owner (ringFrom below l) ≠ [] := by
      rw [← hends]
      intro hring
      have hperm := ringFrom_perm below (ends owner l)
      rw [hring] at hperm
      exact hnil (List.nil_perm.1 hperm)
    unfold compact
    rw [if_neg hnil, if_neg hnil', hends]

/-- The owners of the compact ring in the order of their first occurrence, from any position on,
    are those of the ring. -/
theorem firsts_ringFrom_compact (seen : List β) (h : Initial below l) :
    firsts seen ((ringFrom below (compact owner l)).map owner) =
      firsts seen ((ringFrom below l).map owner) := by
  rw [map_ringFrom_compact h, firsts_compact]

/-- The first owner from any position on. -/
theorem owner_head_ringFrom_compact (h : Initial below l) :
    (ringFrom below (compact owner l)).head?.map owner =
      (ringFrom below l).head?.map owner := by
  rw [← owner_head_compact (ringFrom below l), ← List.head?_map, ← List.head?_map,
    map_ringFrom_compact h]

end

end LibAtapp.CyclicRuns
