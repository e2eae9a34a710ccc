import LibAtapp.Library.OrderedLog
import Mathlib.Logic.Function.Basic

set_option autoImplicit false

/-! # Replaying a log of keyed changes

Each entry of a log gives its key a value or takes it away. A replica replays entries that it is
handed, perhaps some of them twice and on top of an older state. The last entry of a key decides, so
the replica is right on a key as soon as it has replayed the log up to the last entry of the key, and
again each time it has. -/

namespace LibAtapp.LogReplica

variable {ε κ ν : Type} [DecidableEq κ] (key : ε → κ) (value : ε → Option ν)

/-- A store: the values of the keys that have one. -/
abbrev Store (κ ν : Type) := κ → Option ν

/-- Apply one entry. -/
def apply (store : Store κ ν) (e : ε) : Store κ ν := Function.update store (key e) (value e)

/-- Apply entries in turn. -/
def replay (store : Store κ ν) (entries : List ε) : Store κ ν := entries.foldl (apply key value) store

variable {key value}

@[simp] theorem replay_nil (store : Store κ ν) : replay key value store [] = store := rfl

@[simp] theorem replay_cons (store : Store κ ν) (e : ε) (entries : List ε) :
    replay key value store (e :: entries) = replay key value (apply key value store e) entries := rfl

theorem replay_append (store : Store κ ν) (front back : List ε) :
    replay key value store (front ++ back)
      = replay key value (replay key value store front) back :=
  List.foldl_append

theorem apply_of_ne {store : Store κ ν} {e : ε} {k : κ} (h : key e ≠ k) :
    apply key value store e k = store k :=
  Function.update_of_ne h.symm _ _

/-- Entries of other keys change nothing. -/
theorem replay_of_absent {entries : List ε} {k : κ} (h : ∀ e ∈ entries, key e ≠ k)
    (store : Store κ ν) : replay key value store entries k = store k := by
  induction entries generalizing store with
  | nil => rfl
  | cons e entries ih =>
    rw [replay_cons, ih fun e' he' => h e' (List.mem_cons_of_mem _ he')]
    exact apply_of_ne (h e (List.mem_cons_self ..))

/-- An entry of the key makes the stores before irrelevant. -/
theorem replay_of_present {entries : List ε} {k : κ} (h : ∃ e ∈ entries, key e = k)
    (store store' : Store κ ν) :
    replay key value store entries k = replay key value store' entries k := by
  induction entries generalizing store store' with
  | nil => simp at h
  | cons e entries ih =>
    rw [replay_cons, replay_cons]
    by_cases hrest : ∃ e' ∈ entries, key e' = k
    · exact ih hrest _ _
    · have habsent : ∀ e' ∈ entries, key e' ≠ k := fun e' he' heq => hrest ⟨e', he', heq⟩
      have hhead : key e = k := by
        obtain ⟨e', he', heq⟩ := h
        rcases List.mem_cons.1 he' with rfl | he'
        · exact heq
        · exact absurd heq (habsent e' he')
      rw [replay_of_absent habsent, replay_of_absent habsent]
      simp [apply, hhead]

/-- Stores that agree on a key agree on it after the same entries. -/
theorem replay_congr {store store' : Store κ ν} {k : κ} (h : store k = store' k)
    (entries : List ε) :
    replay key value store entries k = replay key value store' entries k := by
  by_cases hpresent : ∃ e ∈ entries, key e = k
  · exact replay_of_present hpresent _ _
  · have habsent : ∀ e ∈ entries, key e ≠ k := fun e he heq => hpresent ⟨e, he, heq⟩
    rw [replay_of_absent habsent, replay_of_absent habsent, h]

/-- Entries of different keys: each one decides its key. -/
theorem replay_of_mem {entries : List ε} (hnodup : (entries.map key).Nodup) {e : ε}
    (he : e ∈ entries) (store : Store κ ν) :
    replay key value store entries (key e) = value e := by
  induction entries generalizing store with
  | nil => cases he
  | cons e' entries ih =>
    rw [List.map_cons, List.nodup_cons] at hnodup
    rw [replay_cons]
    rcases List.mem_cons.1 he with rfl | he
    · have habsent : ∀ e' ∈ entries, key e' ≠ key e :=
        fun e' he' heq => hnodup.1 (heq ▸ List.mem_map_of_mem he')
      rw [replay_of_absent habsent]
      exact Function.update_self _ _ _
    · exact ih hnodup.2 he _

/-- A value of the replayed store comes from the last entry of its key, or was there before. -/
theorem replay_eq_some {entries : List ε} {store : Store κ ν} {k : κ} {v : ν}
    (h : replay key value store entries k = some v) :
    (store k = some v ∧ ∀ e ∈ entries, key e ≠ k) ∨
      ∃ front e back, entries = front ++ e :: back ∧ key e = k ∧ value e = some v ∧
        ∀ e' ∈ back, key e' ≠ k := by
  induction entries generalizing store with
  | nil => exact Or.inl ⟨h, by simp⟩
  | cons e entries ih =>
    rcases ih h with ⟨hhead, habsent⟩ | ⟨front, e', back, rfl, hkey, hvalue, hback⟩
    · by_cases hkey : key e = k
      · refine Or.inr ⟨[], e, entries, rfl, hkey, ?_, habsent⟩
        simpa [apply, hkey] using hhead
      · refine Or.inl ⟨(apply_of_ne hkey).symm.trans hhead, ?_⟩
        simpa [hkey] using habsent
    · exact Or.inr ⟨e :: front, e', back, rfl, hkey, hvalue, hback⟩

/-! ## Replicas of a log -/

/-- The store of the whole log. -/
def storeOf (key : ε → κ) (value : ε → Option ν) (log : List ε) : Store κ ν :=
  replay key value (fun _ => none) log

/-- The replica is right on every key that is in none of the entries. -/
def RightExcept (key : ε → κ) (value : ε → Option ν) (log : List ε) (replica : Store κ ν)
    (missing : List ε) : Prop :=
  ∀ k, (∀ e ∈ missing, key e ≠ k) → replica k = storeOf key value log k

section RightExcept

variable {log missing : List ε} {replica : Store κ ν}

/-- Fewer keys are claimed to be right. -/
theorem RightExcept.mono (h : RightExcept key value log replica missing) {more : List ε}
    (hsub : ∀ e ∈ missing, e ∈ more) : RightExcept key value log replica more :=
  fun k hk => h k fun e he => hk e (hsub e he)

/-- New entries of the log are missing. -/
theorem RightExcept.append_log (h : RightExcept key value log replica missing) (new : List ε) :
    RightExcept key value (log ++ new) replica (missing ++ new) := by
  intro k hk
  have hnew : ∀ e ∈ new, key e ≠ k := fun e he => hk e (List.mem_append_right _ he)
  rw [storeOf, replay_append, replay_of_absent hnew]
  exact h k fun e he => hk e (List.mem_append_left _ he)

/-- **Replaying the next entries**: what is missing is the end of the log, and a part of it is
    replayed from its front on. -/
theorem RightExcept.replay_next {before next rest : List ε}
    (h : RightExcept key value (before ++ (next ++ rest)) replica (next ++ rest)) :
    RightExcept key value (before ++ (next ++ rest)) (replay key value replica next) rest := by
  intro k hk
  by_cases hpresent : ∃ e ∈ next, key e = k
  · rw [storeOf, replay_append, replay_append, replay_of_absent hk]
    exact replay_of_present hpresent _ _
  · have habsent : ∀ e ∈ next, key e ≠ k := fun e he heq => hpresent ⟨e, he, heq⟩
    rw [replay_of_absent habsent]
    refine h k fun e he => ?_
    rcases List.mem_append.1 he with he | he
    · exact habsent e he
    · exact hk e he

/-- Without anything missing the replica is the store. -/
theorem RightExcept.eq_storeOf (h : RightExcept key value log replica []) :
    replica = storeOf key value log := by
  funext k
  exact h k (by simp)

/-- The store of the front of a log is right except for the rest. -/
theorem rightExcept_front (front rest : List ε) :
    RightExcept key value (front ++ rest) (storeOf key value front) rest := by
  intro k hk
  rw [storeOf, storeOf, replay_append, replay_of_absent hk]

end RightExcept

/-! ## Entries that are newer than what they replace -/

section Newer

variable {ρ : Type} [LinearOrder ρ] {rank : ε → ρ} {age : ν → ρ}

/-- What the store has for the key of the entry is older. -/
def Newer (key : ε → κ) (rank : ε → ρ) (age : ν → ρ) (store : Store κ ν) (e : ε) : Prop :=
  ∀ v ∈ store (key e), age v < rank e

/-- Each of the entries is newer than what it replaces. -/
def NewerInTurn (key : ε → κ) (value : ε → Option ν) (rank : ε → ρ) (age : ν → ρ) :
    Store κ ν → List ε → Prop
  | _, [] => True
  | store, e :: entries =>
    Newer key rank age store e ∧ NewerInTurn key value rank age (apply key value store e) entries

/-- **Entries in the order of their ranks**: when all of them are newer than what the store has, each
    is newer than what it replaces, and the rest is newer than what the first ones leave. -/
theorem newerInTurn_of_pairwise (hage : ∀ e v, value e = some v → age v = rank e)
    {entries rest : List ε} {store : Store κ ν}
    (hnewer : ∀ e ∈ entries ++ rest, Newer key rank age store e)
    (hpair : (entries ++ rest).Pairwise fun a b => key a = key b → rank a < rank b) :
    NewerInTurn key value rank age store entries ∧
      ∀ e ∈ rest, Newer key rank age (replay key value store entries) e := by
  induction entries generalizing store with
  | nil => exact ⟨trivial, hnewer⟩
  | cons e entries ih =>
    obtain ⟨hfirst, hpair⟩ := List.pairwise_cons.1 hpair
    have happly : ∀ e' ∈ entries ++ rest, Newer key rank age (apply key value store e) e' := by
      intro e' he' v hv
      by_cases hkey : key e = key e'
      · rw [apply, hkey, Function.update_self] at hv
        rw [hage e v hv]
        exact hfirst e' he' hkey
      · rw [apply_of_ne hkey] at hv
        exact hnewer e' (List.mem_cons_of_mem _ he') v hv
    obtain ⟨hturn, hrest⟩ := ih happly hpair
    exact ⟨⟨hnewer e List.mem_cons_self, hturn⟩, hrest⟩

end Newer

/-! ## Logs in the order of their revisions -/

section Sorted

variable {ρ : Type} [LinearOrder ρ] {revision : ε → ρ} {log : List ε}

/-- A sorted log is its entries below a revision and then those from it on. -/
theorem filter_lt_append_entriesFrom (h : OrderedLog.Sorted revision log) (start : ρ) :
    log.filter (fun e => revision e < start) ++ OrderedLog.entriesFrom revision log start = log := by
  induction log with
  | nil => rfl
  | cons e log ih =>
    obtain ⟨hhead, htail⟩ := List.pairwise_cons.1 h
    by_cases hlt : revision e < start
    · have hnot : ¬start ≤ revision e := not_le.2 hlt
      rw [OrderedLog.entriesFrom, List.filter_cons_of_pos (by simpa using hlt),
        List.filter_cons_of_neg (by simpa using hlt), List.cons_append]
      exact congrArg _ (ih htail)
    · have hle : start ≤ revision e := not_lt.1 hlt
      have hnone : log.filter (fun e => decide (revision e < start)) = [] := by
        rw [List.filter_eq_nil_iff]
        intro e' he'
        simpa using hle.trans (hhead e' he')
      have hall : log.filter (fun e => decide (start ≤ revision e)) = log := by
        rw [List.filter_eq_self]
        intro e' he'
        simpa using hle.trans (hhead e' he')
      rw [OrderedLog.entriesFrom, List.filter_cons_of_neg (by simpa using hle),
        List.filter_cons_of_pos (by simpa using hle), hnone, hall, List.nil_append]

end Sorted

end LibAtapp.LogReplica
