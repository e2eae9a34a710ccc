import Mathlib.Data.List.Nodup

set_option autoImplicit false

/-! # Worklists

A loop takes items from the front of a list. An item stands for a node, or for none; a node whose
key has not come up yet is visited, which adds items at the end. Where only finitely many keys add
items the loop ends, and it visits a node of every key in the closure of the first items exactly
once. -/

namespace LibAtapp

/-- A worklist over a state. Only the keys in `growing` add items. -/
structure Worklist (Item Key Node σ : Type) where
  resolve : Item → Option Node
  key : Node → Key
  visit : σ → Node → σ × List Item
  growing : List Key
  bounded : ∀ s node, key node ∉ growing → (visit s node).2 = []

namespace Worklist

variable {Item Key Node σ : Type} [DecidableEq Key] (w : Worklist Item Key Node σ)

/-- How many keys that add items have not come up. -/
def unvisited (visited : List Node) : Nat :=
  (w.growing.filter fun k => k ∉ visited.map w.key).length

theorem unvisited_append_le (visited : List Node) (node : Node) :
    w.unvisited (visited ++ [node]) ≤ w.unvisited visited := by
  refine (List.monotone_filter_right w.growing fun k hk => ?_).length_le
  simp only [List.map_append, List.mem_append, not_or, decide_eq_true_eq] at hk ⊢
  exact hk.1

theorem unvisited_append_lt {visited : List Node} {node : Node}
    (hnew : w.key node ∉ visited.map w.key) (hmem : w.key node ∈ w.growing) :
    w.unvisited (visited ++ [node]) < w.unvisited visited := by
  have hsplit : w.growing.filter (fun k => k ∉ (visited ++ [node]).map w.key) =
      (w.growing.filter fun k => k ∉ visited.map w.key).filter (· ≠ w.key node) := by
    rw [List.filter_filter]
    refine List.filter_congr fun k _ => ?_
    simp [and_comm]
  unfold unvisited
  rw [hsplit]
  exact List.length_filter_lt_length_iff_exists.2
    ⟨w.key node, List.mem_filter.2 ⟨hmem, by simpa using hnew⟩, by simp⟩

/-- The loop: the state at its end, and the nodes it visited in order. -/
def loop (s : σ) (visited : List Node) : List Item → σ × List Node
  | [] => (s, visited)
  | item :: pending =>
    match w.resolve item with
    | none => loop s visited pending
    | some node =>
      if _h : w.key node ∈ visited.map w.key then loop s visited pending
      else loop (w.visit s node).1 (visited ++ [node]) (pending ++ (w.visit s node).2)
termination_by pending => (w.unvisited visited, pending.length)
decreasing_by
  · exact Prod.Lex.right _ (by simp)
  · exact Prod.Lex.right _ (by simp)
  · by_cases hmem : w.key node ∈ w.growing
    · exact Prod.Lex.left _ _ (w.unvisited_append_lt _h hmem)
    · rw [w.bounded s node hmem, List.append_nil]
      rcases Nat.lt_or_eq_of_le (w.unvisited_append_le visited node) with hlt | heq
      · exact Prod.Lex.left _ _ hlt
      · rw [heq]
        exact Prod.Lex.right _ (by simp)

/-! ## The closure -/

/-- The nodes that items stand for, and those that they lead to. -/
inductive Closure (resolve : Item → Option Node) (follow : Node → List Item) (start : List Item) :
    Node → Prop
  | start {item : Item} {node : Node} (hmem : item ∈ start) (hresolve : resolve item = some node) :
    Closure resolve follow start node
  | follow {node next : Node} {item : Item} (hnode : Closure resolve follow start node)
    (hmem : item ∈ follow node) (hresolve : resolve item = some next) :
    Closure resolve follow start next

section Closure

variable {resolve : Item → Option Node} {follow follow' : Node → List Item}
  {start start' : List Item}

/-- A closure lies in another that has its first nodes and what follows them. -/
theorem Closure.least {p : Node → Prop}
    (hstart : ∀ item ∈ start, ∀ node, resolve item = some node → p node)
    (hfollow : ∀ node, Closure resolve follow start node → p node → ∀ item ∈ follow node,
      ∀ next, resolve item = some next → p next)
    {node : Node} (h : Closure resolve follow start node) : p node := by
  induction h with
  | start hmem hresolve => exact hstart _ hmem _ hresolve
  | follow hnode hmem hresolve ih => exact hfollow _ hnode ih _ hmem _ hresolve

theorem Closure.mono (hsub : ∀ node, ∀ item ∈ follow node, item ∈ follow' node) {node : Node}
    (h : Closure resolve follow start node) : Closure resolve follow' start node :=
  h.least (fun _ hmem _ hresolve => .start hmem hresolve)
    (fun node _ hnode item hmem _ hresolve => hnode.follow (hsub node item hmem) hresolve)

end Closure

/-! ## What the loop visits -/

variable {w} {follow : Node → List Item}

/-- What a run of the loop adds to the nodes that were visited before. -/
structure Adds (w : Worklist Item Key Node σ) (follow : Node → List Item) (s : σ)
    (visited : List Node) (pending : List Item) (new : List Node) : Prop where
  result : w.loop s visited pending =
    (new.foldl (fun s node => (w.visit s node).1) s, visited ++ new)
  distinct : (visited.map w.key).Nodup → ((visited ++ new).map w.key).Nodup
  inClosure : ∀ node ∈ new, Closure w.resolve follow pending node
  closed : ∀ item, item ∈ pending ∨ (∃ node ∈ new, item ∈ follow node) →
    ∀ next, w.resolve item = some next → w.key next ∈ (visited ++ new).map w.key

theorem exists_adds (hfollow : ∀ s node, (w.visit s node).2 = follow node) (s : σ)
    (visited : List Node) (pending : List Item) : ∃ new, Adds w follow s visited pending new := by
  induction s, visited, pending using loop.induct w with
  | case1 s visited =>
    exact ⟨[], by rw [loop]; simp, by simp, by simp, by simp⟩
  | case2 s visited item pending hnone ih =>
    obtain ⟨new, hresult, hdistinct, hclosure, hclosed⟩ := ih
    refine ⟨new, by rw [loop, hnone]; exact hresult, hdistinct, fun node hnode => ?_, ?_⟩
    · exact (hclosure node hnode).least
        (fun item hmem _ hres => .start (List.mem_cons_of_mem _ hmem) hres)
        (fun _ _ hin _ hmem _ hres => hin.follow hmem hres)
    · rintro item' (hmem | hmem) next hres
      · rcases List.mem_cons.1 hmem with rfl | hmem
        · rw [hnone] at hres
          cases hres
        · exact hclosed item' (Or.inl hmem) next hres
      · exact hclosed item' (Or.inr hmem) next hres
  | case3 s visited item pending node hnode hseen ih =>
    obtain ⟨new, hresult, hdistinct, hclosure, hclosed⟩ := ih
    refine ⟨new, ?_, hdistinct, fun node hnode => ?_, ?_⟩
    · rw [loop, hnode]
      dsimp only
      rw [dif_pos hseen]
      exact hresult
    · exact (hclosure node hnode).least
        (fun item hmem _ hres => .start (List.mem_cons_of_mem _ hmem) hres)
        (fun _ _ hin _ hmem _ hres => hin.follow hmem hres)
    · rintro item' (hmem | hmem) next hres
      · rcases List.mem_cons.1 hmem with rfl | hmem
        · -- the node of the item came up before
          rw [hnode] at hres
          cases hres
          rw [List.map_append]
          exact List.mem_append_left _ hseen
        · exact hclosed item' (Or.inl hmem) next hres
      · exact hclosed item' (Or.inr hmem) next hres
  | case4 s visited item pending node hnode hnew ih =>
    obtain ⟨new, hresult, hdistinct, hclosure, hclosed⟩ := ih
    rw [hfollow] at hresult hclosure hclosed
    have hfirst : Closure w.resolve follow (item :: pending) node :=
      .start List.mem_cons_self hnode
    refine ⟨node :: new, ?_, fun hnodup => ?_, ?_, ?_⟩
    · rw [loop, hnode]
      dsimp only
      rw [dif_neg hnew, hfollow, hresult, List.append_assoc]
      rfl
    · have hlonger : ((visited ++ [node]).map w.key).Nodup := by
        rw [List.map_append, List.map_singleton]
        exact List.nodup_append.2 ⟨hnodup, List.nodup_singleton _, fun k hk k' hk' heq => by
          rw [List.mem_singleton.1 hk'] at heq
          exact hnew (heq ▸ hk)⟩
      have hall := hdistinct hlonger
      rwa [List.append_assoc] at hall
    · rintro n (_ | ⟨_, hn⟩)
      · exact hfirst
      · refine (hclosure n hn).least (fun item' hmem n' hres => ?_)
          (fun _ _ hin _ hmem _ hres => hin.follow hmem hres)
        rcases List.mem_append.1 hmem with hmem | hmem
        · exact .start (List.mem_cons_of_mem _ hmem) hres
        · exact hfirst.follow hmem hres
    · have hsame : visited ++ node :: new = visited ++ [node] ++ new := by simp
      rw [hsame]
      rintro item' (hmem | ⟨n, hn, hmem⟩) next hres
      · rcases List.mem_cons.1 hmem with rfl | hmem
        · rw [hnode] at hres
          cases hres
          simp
        · exact hclosed item' (Or.inl (List.mem_append_left _ hmem)) next hres
      · rcases List.mem_cons.1 hn with rfl | hn
        · exact hclosed item' (Or.inl (List.mem_append_right _ hmem)) next hres
        · exact hclosed item' (Or.inr ⟨n, hn, hmem⟩) next hres

/-- What a run from the first items visits. -/
structure Visits (w : Worklist Item Key Node σ) (follow : Node → List Item) (s : σ)
    (start : List Item) (visited : List Node) : Prop where
  result : w.loop s [] start = (visited.foldl (fun s node => (w.visit s node).1) s, visited)
  distinct : (visited.map w.key).Nodup
  inClosure : ∀ node ∈ visited, Closure w.resolve follow start node
  /-- Where a key has one node in the closure, every node of the closure is visited. -/
  complete : (∀ a b, Closure w.resolve follow start a → Closure w.resolve follow start b →
    w.key a = w.key b → a = b) → ∀ node, Closure w.resolve follow start node → node ∈ visited

theorem exists_visits (hfollow : ∀ s node, (w.visit s node).2 = follow node) (s : σ)
    (start : List Item) : ∃ visited, Visits w follow s start visited := by
  obtain ⟨visited, hresult, hdistinct, hclosure, hclosed⟩ := exists_adds hfollow s [] start
  simp only [List.nil_append] at hresult hdistinct hclosed
  refine ⟨visited, hresult, hdistinct List.nodup_nil, hclosure, fun hone node hnode => ?_⟩
  -- a visited node with the key of a node of the closure is that node
  have hthis : ∀ n, Closure w.resolve follow start n → w.key n ∈ visited.map w.key →
      n ∈ visited := by
    intro n hn hkey
    obtain ⟨m, hm, heq⟩ := List.mem_map.1 hkey
    exact hone m n (hclosure m hm) hn heq ▸ hm
  induction hnode with
  | start hmem hres => exact hthis _ (.start hmem hres) (hclosed _ (Or.inl hmem) _ hres)
  | follow hprev hmem hres ih =>
    exact hthis _ (hprev.follow hmem hres) (hclosed _ (Or.inr ⟨_, ih, hmem⟩) _ hres)

end Worklist

end LibAtapp
