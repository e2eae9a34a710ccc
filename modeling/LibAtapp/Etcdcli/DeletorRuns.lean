import LibAtapp.Etcdcli.Deletors
import LibAtapp.Library.Run

set_option autoImplicit false

/-! # Runs of removals

A cluster whose keepalives are registered and removed again, with requests that end in any way at
any time. A registered path is spared from deletion unless a delete request that fails is still in
flight for it, or another keepalive of the path is removed; and nothing is left of the deletors of
a cluster that is closed unless a delete request is in flight then. -/

namespace LibAtapp

/-- A cluster and the keepalives that were registered, by address. `nextAddr` is the address of the
    next deletor. `closed` says that the cluster was closed, and not used again since. -/
structure EtcdDeletors where
  cluster : EtcdCluster := {}
  hasData : Nat → Bool := fun _ => false
  nextAddr : Nat := 0
  closed : Bool := false

/-- What happens to the deletors. -/
inductive DeletorsStep where
  | addKeepalive (keepalive : Nat) (now : Int) (outcome : StartOutcome)
  | addRetryKeepalive (keepalive : Nat) (now : Int) (outcome : StartOutcome)
  /-- The keepalive puts its value. -/
  | put (keepalive : Nat)
  | removeKeepalive (keepalive : Nat) (outcome : StartOutcome)
  | retryPendingActions (outcome : Bytes → StartOutcome)
  /-- The delete request at this place is complete. -/
  | complete (index : Nat) (result : DeleteResult) (retry : MemberRetry)
  | close
  | reset
  | destroy
  | init
  /-- `set_lease` clears the list of the keepalives to try again. -/
  | clearRetryActors
  /-- The rest of the cluster sets its configuration, flags and requests. -/
  | other (conf : ClusterConf) (running enableLease : Bool)
      (rpcUpdateMembers rpcKeepalive : HttpRequestPtr)

namespace EtcdDeletors

variable (path : Nat → Bytes)

/-- One step, unless it uses a null request. -/
def stepOption (s : EtcdDeletors) : DeletorsStep → Option EtcdDeletors
  | .addKeepalive k now outcome => do
    let (cluster, added) ← s.cluster.addKeepalive k (path k) now outcome
    return { s with cluster, closed := s.closed && !added }
  | .addRetryKeepalive k now outcome => do
    let (cluster, added) ← s.cluster.addRetryKeepalive k now outcome
    return { s with cluster, closed := s.closed && !added }
  | .put k => some { s with hasData := Function.update s.hasData k true }
  | .removeKeepalive k outcome => do
    let (cluster, found) ← s.cluster.removeKeepalive k (path k) (s.hasData k) s.nextAddr outcome
    return { s with
      cluster
      hasData := if found then Function.update s.hasData k false else s.hasData
      nextAddr := if found && s.hasData k then s.nextAddr + 1 else s.nextAddr }
  | .retryPendingActions outcome => do
    let cluster ← s.cluster.retryPendingActions outcome
    return { s with cluster }
  | .complete i result retry =>
    match s.cluster.deleting[i]? with
    | none => some s
    | some deletor => do
      let cluster := { s.cluster with deleting := s.cluster.deleting.eraseIdx i }
      let cluster ← cluster.onRemoveKeepalivePath deletor result retry
      return { s with cluster }
  | .close => do
    let cluster ← s.cluster.close
    return { s with cluster, closed := true }
  | .reset => do
    let cluster ← s.cluster.reset
    return { s with cluster, closed := true }
  | .destroy => do
    let cluster ← s.cluster.destroy
    return { s with cluster, closed := true }
  | .init => some { s with cluster := { s.cluster with curlMulti := true, closing := false } }
  | .clearRetryActors => some { s with cluster := { s.cluster with keepaliveRetryActors := [] } }
  | .other conf running enableLease rpcUpdateMembers rpcKeepalive =>
    some { s with cluster := { s.cluster with
      conf, running, enableLease, rpcUpdateMembers, rpcKeepalive } }

/-- A step that would use a null request does not happen. -/
def step (s : EtcdDeletors) (i : DeletorsStep) : EtcdDeletors := (s.stepOption path i).getD s

/-! ## What holds of every run -/

/-- Each deletor so far waits, is in flight or was freed, and is only one of these. -/
structure Inv (s : EtcdDeletors) : Prop where
  deletors : s.cluster.deletors.Perm (List.range s.nextAddr)
  owned : s.cluster.DeletorInv
  actors : s.cluster.keepaliveActors.Nodup

namespace Inv

variable {s : EtcdDeletors} (h : s.Inv)
include h

theorem nodup : s.cluster.deletors.Nodup := h.deletors.nodup_iff.2 List.nodup_range

theorem fresh : s.nextAddr ∉ s.cluster.waiting := fun hmem =>
  absurd (h.deletors.subset (List.mem_append_left _ hmem)) (by simp)

end Inv

theorem initial_inv : ({} : EtcdDeletors).Inv where
  deletors := List.Perm.refl _
  owned := ⟨by simp, by simp, by simp⟩
  actors := List.nodup_nil

/-- A deletor whose request is complete, out of the deletors in flight. -/
theorem complete_spec {s : EtcdDeletors} (h : s.Inv) {i : Nat} {deletor : KeepaliveDeletor}
    (hi : s.cluster.deleting[i]? = some deletor) (result : DeleteResult) (retry : MemberRetry) :
    ∃ after, step path s (.complete i result retry) = { s with cluster := after } ∧
      after.deletors.Perm s.cluster.deletors ∧ after.DeletorInv ∧
      after.keepaliveActors = s.cluster.keepaliveActors ∧
      after.keepaliveRetryActors = s.cluster.keepaliveRetryActors ∧
      after.deleteRequests = s.cluster.deleteRequests ∧
      (∀ other ∈ after.keepaliveDeletors,
        other = deletor.path ∨ other ∈ s.cluster.keepaliveDeletors) ∧
      (result.failed = true → deletor.path ∈ after.keepaliveDeletors) ∧
      (result.failed = false → after.keepaliveDeletors = s.cluster.keepaliveDeletors) := by
  obtain ⟨hlt, hget⟩ := List.getElem?_eq_some_iff.1 hi
  have hperm : (deletor :: s.cluster.deleting.eraseIdx i).Perm s.cluster.deleting := by
    rw [← hget]
    exact List.getElem_cons_eraseIdx_perm hlt
  have hmem : deletor ∈ s.cluster.deleting := hperm.subset List.mem_cons_self
  have hfresh : deletor.addr ∉ s.cluster.waiting := fun hwaits =>
    (List.nodup_append.1 h.nodup).2.2 _ hwaits _
      (List.mem_append_left _ (List.mem_map_of_mem hmem)) rfl
  have hinv : EtcdCluster.DeletorInv
      { s.cluster with deleting := s.cluster.deleting.eraseIdx i } :=
    ⟨h.owned.keyed, h.owned.waitingOwned, fun d hd =>
      h.owned.deletingOwned d (hperm.subset (List.mem_cons_of_mem _ hd))⟩
  obtain ⟨after, hafter, hreceived, hrequests, hfailed, hdone⟩ :=
    EtcdCluster.onRemoveKeepalivePath_received
      { s.cluster with deleting := s.cluster.deleting.eraseIdx i } hfresh
      (h.owned.deletingOwned _ hmem) result retry
  refine ⟨after, ?_, ?_, hreceived.inv hinv, hreceived.actors, hreceived.retryActors, hrequests,
    hreceived.waits, hfailed, hdone⟩
  · rw [step, stepOption, hi]
    show (Option.bind _ _).getD s = _
    rw [hafter]
    rfl
  · refine hreceived.deletors.trans (List.perm_middle.symm.trans ?_)
    refine List.Perm.append_left _ ?_
    rw [← List.cons_append, ← List.map_cons]
    exact (hperm.map _).append_right _

theorem addKeepalive_step (s : EtcdDeletors) (k : Nat) (now : Int) (outcome : StartOutcome) :
    step path s (.addKeepalive k now outcome) = s ∨
    ∃ after, step path s (.addKeepalive k now outcome) =
        { s with cluster := after, closed := false } ∧ s.cluster.Added after k (path k) := by
  cases hadd : s.cluster.addKeepalive k (path k) now outcome with
  | none => exact Or.inl (by rw [step, stepOption, hadd]; rfl)
  | some result =>
    obtain ⟨after, added⟩ := result
    have hstep : step path s (.addKeepalive k now outcome) =
        { s with cluster := after, closed := s.closed && !added } := by
      rw [step, stepOption, hadd]
      rfl
    rcases s.cluster.addKeepalive_cases hadd with ⟨rfl, rfl⟩ | ⟨rfl, hadded⟩
    · exact Or.inl (by rw [hstep, Bool.not_false, Bool.and_true])
    · exact Or.inr ⟨after, by rw [hstep, Bool.not_true, Bool.and_false], hadded⟩

theorem addRetryKeepalive_step (s : EtcdDeletors) (k : Nat) (now : Int) (outcome : StartOutcome) :
    step path s (.addRetryKeepalive k now outcome) = s ∨
    ∃ after, step path s (.addRetryKeepalive k now outcome) =
        { s with cluster := after, closed := false } ∧
      EtcdCluster.SameDeletors { s.cluster with
        keepaliveRetryActors := s.cluster.keepaliveRetryActors ++ [k] } after := by
  cases hadd : s.cluster.addRetryKeepalive k now outcome with
  | none => exact Or.inl (by rw [step, stepOption, hadd]; rfl)
  | some result =>
    obtain ⟨after, added⟩ := result
    have hstep : step path s (.addRetryKeepalive k now outcome) =
        { s with cluster := after, closed := s.closed && !added } := by
      rw [step, stepOption, hadd]
      rfl
    rcases s.cluster.addRetryKeepalive_cases hadd with ⟨rfl, rfl⟩ | ⟨rfl, hadded⟩
    · exact Or.inl (by rw [hstep, Bool.not_false, Bool.and_true])
    · exact Or.inr ⟨after, by rw [hstep, Bool.not_true, Bool.and_false], hadded⟩

/-- `remove_keepalive` finds the keepalive. -/
def Finds (s : EtcdDeletors) (k : Nat) : Prop :=
  k ∈ s.cluster.keepaliveActors ∨ k ∈ s.cluster.keepaliveRetryActors

theorem removeKeepalive_step {s : EtcdDeletors} (h : s.Inv) (k : Nat) (outcome : StartOutcome) :
    (step path s (.removeKeepalive k outcome) = s ∧ ¬ s.Finds k) ∨
    (∃ hasData, step path s (.removeKeepalive k outcome) =
        { s with cluster := s.cluster.unlistKeepalive k, hasData } ∧
      s.Finds k ∧ s.hasData k = false) ∨
    ∃ after hasData, step path s (.removeKeepalive k outcome) =
        { s with cluster := after, hasData, nextAddr := s.nextAddr + 1 } ∧
      s.Finds k ∧ s.hasData k = true ∧
      (s.cluster.unlistKeepalive k).Received after s.nextAddr (path k) ∧
      (after.deleteRequests = path k :: s.cluster.deleteRequests ∨
        path k ∈ after.keepaliveDeletors) := by
  rcases s.cluster.removeKeepalive_cases k (path k) (s.hasData k) h.fresh outcome with
    ⟨hremove, hnot⟩ | ⟨hremove, hfinds, hdata⟩ | ⟨after, hremove, hfinds, hdata, hrest⟩
  · exact Or.inl ⟨by rw [step, stepOption, hremove]; rfl, hnot⟩
  · refine Or.inr (Or.inl ⟨Function.update s.hasData k false, ?_, hfinds, hdata⟩)
    rw [step, stepOption, hremove, hdata]
    rfl
  · refine Or.inr (Or.inr ⟨after, Function.update s.hasData k false, ?_, hfinds, hdata, hrest⟩)
    rw [step, stepOption, hremove, hdata]
    rfl

theorem retryPendingActions_step {s : EtcdDeletors} (h : s.Inv) (outcome : Bytes → StartOutcome) :
    ∃ after, step path s (.retryPendingActions outcome) = { s with cluster := after } ∧
      (s.cluster.keepaliveDeletors = ∅ → after.deleting = s.cluster.deleting) ∧
      after.deletors.Perm s.cluster.deletors ∧
      (∀ other ∈ after.keepaliveDeletors, other ∈ s.cluster.keepaliveDeletors) ∧
      (∀ other ∉ s.cluster.keepaliveDeletors,
        after.deleteRequests.count other = s.cluster.deleteRequests.count other) ∧
      after.DeletorInv ∧ after.keepaliveActors = s.cluster.keepaliveActors ∧
      after.keepaliveRetryActors ⊆ s.cluster.keepaliveRetryActors := by
  obtain ⟨after, hafter, hrest⟩ := s.cluster.retryPendingActions_spec outcome h.owned h.nodup
  exact ⟨after, by rw [step, stepOption, hafter]; rfl, hrest⟩

/-- The cluster is closed, reset or destroyed. -/
def Closes : DeletorsStep → Prop
  | .close | .reset | .destroy => True
  | _ => False

theorem closes_step (s : EtcdDeletors) {i : DeletorsStep} (hi : Closes i) :
    ∃ after, step path s i = { s with cluster := after, closed := true } ∧
      s.cluster.Shut after := by
  cases i with
  | close =>
    obtain ⟨after, hafter, hshut⟩ := s.cluster.close_shut
    exact ⟨after, by rw [step, stepOption, hafter]; rfl, hshut⟩
  | reset =>
    obtain ⟨after, hafter, hshut⟩ := s.cluster.reset_shut
    exact ⟨after, by rw [step, stepOption, hafter]; rfl, hshut⟩
  | destroy =>
    obtain ⟨after, hafter, hshut⟩ := s.cluster.destroy_shut
    exact ⟨after, by rw [step, stepOption, hafter]; rfl, hshut⟩
  | _ => exact hi.elim

theorem closes_inv {s : EtcdDeletors} (h : s.Inv) {i : DeletorsStep} (hi : Closes i) :
    (step path s i).Inv := by
  obtain ⟨after, hstep, hshut⟩ := closes_step path s hi
  rw [hstep]
  refine ⟨hshut.deletors.trans h.deletors, ?_, ?_⟩
  · constructor
    · show ∀ entry ∈ after.keepaliveDeletors.entries, _
      rw [hshut.waiting]
      simp
    · show ∀ entry ∈ after.keepaliveDeletors.entries, _
      rw [hshut.waiting]
      simp
    · show ∀ deletor ∈ after.deleting, _
      rw [hshut.deleting]
      exact h.owned.deletingOwned
  · show after.keepaliveActors.Nodup
    rw [hshut.actors]
    exact List.nodup_nil

theorem unlist_nodup {cluster : EtcdCluster} (h : cluster.keepaliveActors.Nodup) (k : Nat) :
    (cluster.unlistKeepalive k).keepaliveActors.Nodup :=
  (SwapRemove.removeFirst_perm k _).nodup_iff.2 (h.erase k)

/-- Of distinct keepalives the others stay. -/
theorem mem_unlist_iff {cluster : EtcdCluster} (h : cluster.keepaliveActors.Nodup) (k other : Nat) :
    other ∈ (cluster.unlistKeepalive k).keepaliveActors ↔
      other ≠ k ∧ other ∈ cluster.keepaliveActors :=
  (SwapRemove.removeFirst_perm k _).mem_iff.trans h.mem_erase_iff

theorem step_inv {s : EtcdDeletors} (h : s.Inv) (i : DeletorsStep) : (step path s i).Inv := by
  cases i with
  | addKeepalive k now outcome =>
    rcases addKeepalive_step path s k now outcome with hstep | ⟨after, hstep, hadded⟩
    · rw [hstep]
      exact h
    · rw [hstep]
      refine ⟨hadded.deletors.trans h.deletors, hadded.inv h.owned, ?_⟩
      show after.keepaliveActors.Nodup
      rw [hadded.actors]
      rw [← List.concat_eq_append]
      exact (List.nodup_concat _ _).2 ⟨hadded.fresh, h.actors⟩
  | addRetryKeepalive k now outcome =>
    rcases addRetryKeepalive_step path s k now outcome with hstep | ⟨after, hstep, hsame⟩
    · rw [hstep]
      exact h
    · rw [hstep]
      refine ⟨?_, hsame.deletorInv ⟨h.owned.keyed, h.owned.waitingOwned, h.owned.deletingOwned⟩, ?_⟩
      · show after.deletors.Perm _
        rw [hsame.deletors_eq]
        exact h.deletors
      · show after.keepaliveActors.Nodup
        rw [hsame.actors]
        exact h.actors
  | put k => exact ⟨h.deletors, h.owned, h.actors⟩
  | removeKeepalive k outcome =>
    have hunlist : (s.cluster.unlistKeepalive k).DeletorInv :=
      ⟨h.owned.keyed, h.owned.waitingOwned, h.owned.deletingOwned⟩
    rcases removeKeepalive_step path h k outcome with ⟨hstep, -⟩ | ⟨hasData, hstep, -⟩ |
      ⟨after, hasData, hstep, -, -, hreceived, -⟩
    · rw [hstep]
      exact h
    · rw [hstep]
      exact ⟨h.deletors, hunlist, unlist_nodup h.actors k⟩
    · rw [hstep]
      refine ⟨?_, hreceived.inv hunlist, ?_⟩
      · rw [List.range_succ]
        exact hreceived.deletors.trans
          ((h.deletors.cons s.nextAddr).trans (List.perm_append_singleton _ _).symm)
      · show after.keepaliveActors.Nodup
        rw [hreceived.actors]
        exact unlist_nodup h.actors k
  | retryPendingActions outcome =>
    obtain ⟨after, hstep, -, hperm, -, -, hinv, hactors, -⟩ :=
      retryPendingActions_step path h outcome
    rw [hstep]
    exact ⟨hperm.trans h.deletors, hinv, show after.keepaliveActors.Nodup from hactors ▸ h.actors⟩
  | complete i result retry =>
    cases hi : s.cluster.deleting[i]? with
    | none =>
      rw [step, stepOption, hi]
      exact h
    | some deletor =>
      obtain ⟨after, hstep, hperm, hinv, hactors, -⟩ := complete_spec path h hi result retry
      rw [hstep]
      exact ⟨hperm.trans h.deletors, hinv, show after.keepaliveActors.Nodup from hactors ▸ h.actors⟩
  | close => exact closes_inv path h trivial
  | reset => exact closes_inv path h trivial
  | destroy => exact closes_inv path h trivial
  | init =>
    exact ⟨h.deletors, ⟨h.owned.keyed, h.owned.waitingOwned, h.owned.deletingOwned⟩, h.actors⟩
  | clearRetryActors =>
    exact ⟨h.deletors, ⟨h.owned.keyed, h.owned.waitingOwned, h.owned.deletingOwned⟩, h.actors⟩
  | other conf running enableLease rpcUpdateMembers rpcKeepalive =>
    exact ⟨h.deletors, ⟨h.owned.keyed, h.owned.waitingOwned, h.owned.deletingOwned⟩, h.actors⟩

/-! ## Registered paths -/

/-- No deletor waits for the path of a registered keepalive, and for those that stay registered no
    delete request is made. -/
structure Spares (before after : EtcdDeletors) : Prop where
  waits : ∀ k ∈ after.cluster.keepaliveActors, path k ∉ after.cluster.keepaliveDeletors
  requests : ∀ k ∈ before.cluster.keepaliveActors, k ∈ after.cluster.keepaliveActors →
    after.cluster.deleteRequests.count (path k) = before.cluster.deleteRequests.count (path k)

/-- No delete request fails whose path is registered, and no keepalive with data is removed whose
    path is that of another registered one. -/
def RemovesNoRegistered (s : EtcdDeletors) : DeletorsStep → Prop
  | .removeKeepalive k _ => s.Finds k → s.hasData k = true →
    ∀ other ∈ s.cluster.keepaliveActors, other ≠ k → path other ≠ path k
  | .complete i result _ => ∀ deletor, s.cluster.deleting[i]? = some deletor →
    result.failed = true → ∀ k ∈ s.cluster.keepaliveActors, path k ≠ deletor.path
  | _ => True

/-- No deletor waits for the path of a registered keepalive. -/
def Spared (s : EtcdDeletors) : Prop :=
  ∀ k ∈ s.cluster.keepaliveActors, path k ∉ s.cluster.keepaliveDeletors

variable {path} in
/-- The registered keepalives stay, and no further deletor waits. -/
theorem Spared.spares {s after : EtcdDeletors} (h : s.Spared path)
    (hactors : after.cluster.keepaliveActors ⊆ s.cluster.keepaliveActors)
    (hwaits : ∀ other ∈ after.cluster.keepaliveDeletors, other ∈ s.cluster.keepaliveDeletors)
    (hrequests : ∀ k ∈ s.cluster.keepaliveActors,
      after.cluster.deleteRequests.count (path k) = s.cluster.deleteRequests.count (path k)) :
    Spares path s after where
  waits k hk hother := h k (hactors hk) (hwaits _ hother)
  requests k hk _ := hrequests k hk

theorem removeKeepalive_spares_iff {s : EtcdDeletors} (h : s.Inv) (hspared : s.Spared path)
    (k : Nat) (outcome : StartOutcome) :
    Spares path s (step path s (.removeKeepalive k outcome)) ↔
      RemovesNoRegistered path s (.removeKeepalive k outcome) := by
  have hsubset : (s.cluster.unlistKeepalive k).keepaliveActors ⊆ s.cluster.keepaliveActors :=
    fun other hother => ((mem_unlist_iff h.actors k other).1 hother).2
  rcases removeKeepalive_step path h k outcome with ⟨hstep, hnot⟩ |
    ⟨hasData, hstep, -, hdata⟩ | ⟨after, hasData, hstep, hfinds, hdata, hreceived, hnew⟩
  · rw [hstep]
    exact iff_of_true
      (hspared.spares (List.Subset.refl _) (fun _ hother => hother) (fun _ _ => rfl))
      (fun hfinds => absurd hfinds hnot)
  · rw [hstep]
    refine iff_of_true (hspared.spares hsubset (fun _ hother => hother) (fun _ _ => rfl)) ?_
    intro _ hother
    rw [hdata] at hother
    cases hother
  · rw [hstep]
    have hactors : ∀ other, other ∈ after.keepaliveActors ↔
        other ≠ k ∧ other ∈ s.cluster.keepaliveActors := by
      intro other
      rw [hreceived.actors]
      exact mem_unlist_iff h.actors k other
    constructor
    · intro hspares _ _ other hother hne heq
      have hstays := (hactors other).2 ⟨hne, hother⟩
      rcases hnew with hnew | hnew
      · -- the request is for the path of the other keepalive
        have hcount := hspares.requests other hother hstays
        rw [hnew, heq, List.count_cons_self] at hcount
        omega
      · exact hspares.waits other hstays (heq ▸ hnew)
    · intro hcond
      have hother : ∀ other ∈ s.cluster.keepaliveActors, other ≠ k → path other ≠ path k :=
        hcond hfinds hdata
      constructor
      · intro other hstays hwaits
        obtain ⟨hne, hmem⟩ := (hactors other).1 hstays
        rcases hreceived.waits _ hwaits with heq | hwaits
        · exact hother other hmem hne heq
        · exact hspared other hmem hwaits
      · intro other hmem hstays
        have hne := hother other hmem ((hactors other).1 hstays).1
        show after.deleteRequests.count _ = _
        rcases hreceived.requests with hsame | hsame
        · rw [hsame]
          rfl
        · rw [hsame, List.count_cons_of_ne (Ne.symm hne)]
          rfl

theorem complete_spares_iff {s : EtcdDeletors} (h : s.Inv) (hspared : s.Spared path) (i : Nat)
    (result : DeleteResult) (retry : MemberRetry) :
    Spares path s (step path s (.complete i result retry)) ↔
      RemovesNoRegistered path s (.complete i result retry) := by
  cases hi : s.cluster.deleting[i]? with
  | none =>
    have hstep : step path s (.complete i result retry) = s := by
      rw [step, stepOption, hi]
      rfl
    rw [hstep]
    refine iff_of_true
      (hspared.spares (List.Subset.refl _) (fun _ hother => hother) (fun _ _ => rfl)) ?_
    intro deletor hdeletor
    rw [hi] at hdeletor
    cases hdeletor
  | some deletor =>
    obtain ⟨after, hstep, -, -, hactors, -, hrequests, hwaits, hfailed, hdone⟩ :=
      complete_spec path h hi result retry
    rw [hstep]
    constructor
    · intro hspares other hother hresult k hk heq
      cases hi.symm.trans hother
      exact hspares.waits k (hactors ▸ hk) (heq ▸ hfailed hresult)
    · intro hcond
      constructor
      · intro k hk hwait
        have hk : k ∈ s.cluster.keepaliveActors := hactors ▸ hk
        cases hresult : result.failed with
        | true =>
          rcases hwaits _ hwait with heq | hwait
          · exact hcond deletor hi hresult k hk heq
          · exact hspared k hk hwait
        | false => exact hspared k hk (hdone hresult ▸ hwait)
      · intro k _ _
        show after.deleteRequests.count _ = _
        rw [hrequests]

theorem step_spares_iff {s : EtcdDeletors} (h : s.Inv) (hspared : s.Spared path)
    (i : DeletorsStep) : Spares path s (step path s i) ↔ RemovesNoRegistered path s i := by
  have hself : Spares path s s :=
    hspared.spares (List.Subset.refl _) (fun _ hother => hother) (fun _ _ => rfl)
  have hcloses : Closes i → Spares path s (step path s i) := by
    intro hi
    obtain ⟨after, hstep, hshut⟩ := closes_step path s hi
    rw [hstep]
    constructor
    · intro k hk
      exact absurd (hshut.actors ▸ hk) List.not_mem_nil
    · intro k _ hk
      exact absurd (hshut.actors ▸ hk) List.not_mem_nil
  cases i with
  | removeKeepalive k outcome => exact removeKeepalive_spares_iff path h hspared k outcome
  | complete i result retry => exact complete_spares_iff path h hspared i result retry
  | addKeepalive k now outcome =>
    refine iff_of_true ?_ trivial
    rcases addKeepalive_step path s k now outcome with hstep | ⟨after, hstep, hadded⟩
    · rw [hstep]
      exact hself
    · rw [hstep]
      constructor
      · intro other hother hwaits
        obtain ⟨hne, hwaits⟩ := (hadded.waits _).1 hwaits
        have hother : other ∈ after.keepaliveActors := hother
        rw [hadded.actors, List.mem_append, List.mem_singleton] at hother
        rcases hother with hother | rfl
        · exact hspared other hother hwaits
        · exact hne rfl
      · intro other _ _
        show after.deleteRequests.count _ = _
        rw [hadded.requests]
  | addRetryKeepalive k now outcome =>
    refine iff_of_true ?_ trivial
    rcases addRetryKeepalive_step path s k now outcome with hstep | ⟨after, hstep, hsame⟩
    · rw [hstep]
      exact hself
    · rw [hstep]
      refine hspared.spares ?_ ?_ ?_
      · show after.keepaliveActors ⊆ _
        rw [hsame.actors]
        exact List.Subset.refl _
      · show ∀ other ∈ after.keepaliveDeletors, _
        rw [hsame.waiting]
        exact fun _ hother => hother
      · intro other _
        show after.deleteRequests.count _ = _
        rw [hsame.requests]
  | retryPendingActions outcome =>
    refine iff_of_true ?_ trivial
    obtain ⟨after, hstep, -, -, hwaits, hrequests, -, hactors, -⟩ :=
      retryPendingActions_step path h outcome
    rw [hstep]
    refine hspared.spares ?_ hwaits (fun k hk => hrequests _ (hspared k hk))
    show after.keepaliveActors ⊆ _
    rw [hactors]
    exact List.Subset.refl _
  | close => exact iff_of_true (hcloses trivial) trivial
  | reset => exact iff_of_true (hcloses trivial) trivial
  | destroy => exact iff_of_true (hcloses trivial) trivial
  | put k => exact iff_of_true ⟨hself.waits, hself.requests⟩ trivial
  | init => exact iff_of_true ⟨hself.waits, hself.requests⟩ trivial
  | clearRetryActors => exact iff_of_true ⟨hself.waits, hself.requests⟩ trivial
  | other conf running enableLease rpcUpdateMembers rpcKeepalive =>
    exact iff_of_true ⟨hself.waits, hself.requests⟩ trivial

/-- **A registered path is spared** in a run exactly if no delete request fails for a path that is
    registered, and no keepalive with data is removed whose path is that of another one. -/
theorem stepsMeet_spares_iff (steps : List DeletorsStep) :
    Run.StepsMeet (step path) (fun s i => Spares path s (step path s i)) {} steps ↔
      Run.StepsMeet (step path) (RemovesNoRegistered path) {} steps := by
  have hinitial : ({} : EtcdDeletors).Inv ∧ ({} : EtcdDeletors).Spared path :=
    ⟨initial_inv, fun k hk => absurd hk List.not_mem_nil⟩
  have hstep : ∀ s i, (Inv s ∧ s.Spared path) →
      (Spares path s (step path s i) ↔ RemovesNoRegistered path s i) :=
    fun s i h => step_spares_iff path h.1 h.2 i
  have hkept : ∀ s i, (Inv s ∧ s.Spared path) → Spares path s (step path s i) →
      Inv (step path s i) ∧ (step path s i).Spared path :=
    fun s i h hspares => ⟨step_inv path h.1 i, hspares.waits⟩
  constructor
  · exact Run.stepsMeet_of_invariant _ hkept (fun s i h => (hstep s i h).1) hinitial
  · exact Run.stepsMeet_of_invariant _ (fun s i h hcond => hkept s i h ((hstep s i h).2 hcond))
      (fun s i h => (hstep s i h).2) hinitial

/-- A host is selected. -/
def selectHost : DeletorsStep :=
  .other { hosts := [ascii "http://h"], pathNode := ascii "http://h" } true true none none

/-- While the delete request of the first keepalive runs, a second one is registered with the same
    path. The request fails, and its deletor waits to delete the path again. -/
theorem not_spares_registered_again :
    ¬ Run.StepsMeet (step fun _ => ascii "/k")
      (fun s i => Spares (fun _ => ascii "/k") s (step (fun _ => ascii "/k") s i)) {}
      [selectHost, .addKeepalive 1 1 .started, .put 1, .removeKeepalive 1 .started,
        .addKeepalive 2 1 .started, .complete 0 ⟨7, false, false⟩ {}] := by
  intro h
  have hspares := h.2.2.2.2.2.1
  exact hspares.waits 2 (by decide) (by decide)

/-! ## Closing -/

/-- No deletor is freed twice. Of a closed cluster no deletor is left that would touch it, and each
    was freed. -/
structure NothingOutlives (s : EtcdDeletors) : Prop where
  once : s.cluster.freed.Nodup
  waiting : s.closed = true → ∀ entry ∈ s.cluster.keepaliveDeletors.entries, entry.2.owned = false
  deleting : s.closed = true → ∀ deletor ∈ s.cluster.deleting, deletor.owned = false
  freed : s.closed = true → ∀ addr < s.nextAddr, addr ∈ s.cluster.freed

/-- No delete request runs when the cluster is closed. -/
def ClosesIdle (s : EtcdDeletors) (i : DeletorsStep) : Prop :=
  Closes i → s.cluster.deleting = []

/-- All deletors are owned, so none is left at all. -/
theorem nothingOutlives_iff {s : EtcdDeletors} (h : s.Inv) :
    s.NothingOutlives ↔
      (s.closed = true → s.cluster.keepaliveDeletors = ∅ ∧ s.cluster.deleting = []) := by
  constructor
  · intro hnothing hclosed
    constructor
    · refine AList.ext (List.eq_nil_iff_forall_not_mem.2 fun entry hentry => ?_)
      have howned := h.owned.waitingOwned entry hentry
      rw [hnothing.waiting hclosed entry hentry] at howned
      cases howned
    · refine List.eq_nil_iff_forall_not_mem.2 fun deletor hdeletor => ?_
      have howned := h.owned.deletingOwned deletor hdeletor
      rw [hnothing.deleting hclosed deletor hdeletor] at howned
      cases howned
  · intro hnone
    refine ⟨((List.nodup_append.1 (List.nodup_append.1 h.nodup).2.1).2.1), ?_, ?_, ?_⟩
    · intro hclosed
      rw [(hnone hclosed).1]
      simp
    · intro hclosed
      rw [(hnone hclosed).2]
      simp
    · intro hclosed addr haddr
      have hmem := h.deletors.symm.subset (List.mem_range.2 haddr)
      rw [EtcdCluster.deletors, EtcdCluster.waiting, (hnone hclosed).1, (hnone hclosed).2] at hmem
      simpa using hmem

/-- Nothing is left in the cluster. -/
structure Empty (cluster : EtcdCluster) : Prop where
  actors : cluster.keepaliveActors = []
  retryActors : cluster.keepaliveRetryActors = []
  waiting : cluster.keepaliveDeletors = ∅
  deleting : cluster.deleting = []

theorem keepaliveDeletors_eq_empty {map : AList (fun _ : Bytes => KeepaliveDeletor)}
    (h : ∀ other, other ∉ map) : map = ∅ := by
  refine AList.ext (List.eq_nil_iff_forall_not_mem.2 fun entry hentry => ?_)
  exact h entry.1 (AList.mem_keys.2 (List.mem_map_of_mem hentry))

/-- A closed cluster is empty, until it is used again. -/
def ClosedEmpty (s : EtcdDeletors) : Prop := s.closed = true → Empty s.cluster

theorem step_closedEmpty {s : EtcdDeletors} (h : s.Inv) (hempty : s.ClosedEmpty)
    {i : DeletorsStep} (hi : ¬ Closes i) : (step path s i).ClosedEmpty := by
  cases i with
  | addKeepalive k now outcome =>
    rcases addKeepalive_step path s k now outcome with hstep | ⟨after, hstep, -⟩
    · rw [hstep]
      exact hempty
    · rw [hstep]
      exact fun hclosed => absurd hclosed Bool.false_ne_true
  | addRetryKeepalive k now outcome =>
    rcases addRetryKeepalive_step path s k now outcome with hstep | ⟨after, hstep, -⟩
    · rw [hstep]
      exact hempty
    · rw [hstep]
      exact fun hclosed => absurd hclosed Bool.false_ne_true
  | put k => exact hempty
  | removeKeepalive k outcome =>
    have hnot : s.closed = true → ¬ s.Finds k := by
      intro hclosed
      rw [Finds, (hempty hclosed).actors, (hempty hclosed).retryActors]
      simp
    rcases removeKeepalive_step path h k outcome with ⟨hstep, -⟩ | ⟨hasData, hstep, hfinds, -⟩ |
      ⟨after, hasData, hstep, hfinds, -⟩
    · rw [hstep]
      exact hempty
    · rw [hstep]
      exact fun hclosed => absurd hfinds (hnot hclosed)
    · rw [hstep]
      exact fun hclosed => absurd hfinds (hnot hclosed)
  | retryPendingActions outcome =>
    obtain ⟨after, hstep, hdeleting, -, hwaits, -, -, hactors, hretryActors⟩ :=
      retryPendingActions_step path h outcome
    rw [hstep]
    intro hclosed
    have hnone := hempty hclosed
    refine ⟨hactors.trans hnone.actors, ?_, ?_, (hdeleting hnone.waiting).trans hnone.deleting⟩
    · rw [hnone.retryActors] at hretryActors
      exact List.subset_nil.1 hretryActors
    · rw [hnone.waiting] at hwaits
      exact keepaliveDeletors_eq_empty fun other hother => AList.notMem_empty _ (hwaits other hother)
  | complete i result retry =>
    cases hrunning : s.cluster.deleting[i]? with
    | none =>
      rw [step, stepOption, hrunning]
      exact hempty
    | some deletor =>
      obtain ⟨after, hstep, -⟩ := complete_spec path h hrunning result retry
      rw [hstep]
      intro hclosed
      rw [(hempty hclosed).deleting] at hrunning
      cases hrunning
  | close => exact absurd trivial hi
  | reset => exact absurd trivial hi
  | destroy => exact absurd trivial hi
  | init =>
    intro hclosed
    have hnone := hempty hclosed
    exact ⟨hnone.actors, hnone.retryActors, hnone.waiting, hnone.deleting⟩
  | clearRetryActors =>
    intro hclosed
    have hnone := hempty hclosed
    exact ⟨hnone.actors, rfl, hnone.waiting, hnone.deleting⟩
  | other conf running enableLease rpcUpdateMembers rpcKeepalive =>
    intro hclosed
    have hnone := hempty hclosed
    exact ⟨hnone.actors, hnone.retryActors, hnone.waiting, hnone.deleting⟩

/-- Closing leaves the deletors in flight. -/
theorem closes_nothingOutlives_iff {s : EtcdDeletors} (h : s.Inv) {i : DeletorsStep}
    (hi : Closes i) : (step path s i).NothingOutlives ↔ s.cluster.deleting = [] := by
  rw [nothingOutlives_iff (closes_inv path h hi)]
  obtain ⟨after, hstep, hshut⟩ := closes_step path s hi
  rw [hstep]
  constructor
  · intro hnone
    rw [← hshut.deleting]
    exact (hnone rfl).2
  · exact fun hidle _ => ⟨hshut.waiting, hshut.deleting.trans hidle⟩

theorem closes_closedEmpty {s : EtcdDeletors} {i : DeletorsStep} (hi : Closes i)
    (hidle : s.cluster.deleting = []) : (step path s i).ClosedEmpty := by
  obtain ⟨after, hstep, hshut⟩ := closes_step path s hi
  rw [hstep]
  exact fun _ => ⟨hshut.actors, hshut.retryActors, hshut.waiting, hshut.deleting.trans hidle⟩

theorem ClosedEmpty.nothingOutlives {s : EtcdDeletors} (h : s.Inv) (hempty : s.ClosedEmpty) :
    s.NothingOutlives :=
  (nothingOutlives_iff h).2 fun hclosed => ⟨(hempty hclosed).waiting, (hempty hclosed).deleting⟩

/-- **No deletor outlives its cluster** in a run exactly if no delete request runs when the cluster
    is closed, reset or destroyed. -/
theorem always_nothingOutlives_iff (steps : List DeletorsStep) :
    Run.Always (step path) NothingOutlives {} steps ↔
      Run.StepsMeet (step path) ClosesIdle {} steps := by
  have hempty : ({} : EtcdDeletors).ClosedEmpty := fun h => absurd h Bool.false_ne_true
  have hside : ∀ s i, (Inv s ∧ s.ClosedEmpty) → s.NothingOutlives → True → s.ClosesIdle i →
      Inv (step path s i) ∧ (step path s i).ClosedEmpty := by
    intro s i ⟨hinv, hclosed⟩ _ _ hcond
    refine ⟨step_inv path hinv i, ?_⟩
    by_cases hi : Closes i
    · exact closes_closedEmpty path hi (hcond hi)
    · exact step_closedEmpty path hinv hclosed hi
  have hstep : ∀ s i, (Inv s ∧ s.ClosedEmpty) → s.NothingOutlives → True →
      ((step path s i).NothingOutlives ↔ s.ClosesIdle i) := by
    intro s i ⟨hinv, hclosed⟩ _ _
    by_cases hi : Closes i
    · rw [closes_nothingOutlives_iff path hinv hi]
      exact ⟨fun hidle _ => hidle, fun hcond => hcond hi⟩
    · have hkept := step_closedEmpty path hinv hclosed hi
      exact iff_of_true (hkept.nothingOutlives (step_inv path hinv i)) (fun h => absurd h hi)
  exact Run.always_iff_stepsMeet _ hside hstep ⟨initial_inv, hempty⟩
    (hempty.nothingOutlives initial_inv) (Run.stepsMeet_of_forall _ (fun _ _ => trivial) _ _)

/-- The first keepalive is removed, and the cluster is closed while the delete request runs. -/
theorem not_always_nothingOutlives_running :
    ¬ Run.Always (step fun _ => ascii "/k") NothingOutlives {}
      [selectHost, .addKeepalive 1 1 .started, .put 1, .removeKeepalive 1 .started, .close] := by
  intro h
  exact absurd (h.last.deleting (by decide)) (by decide)

end EtcdDeletors

end LibAtapp
