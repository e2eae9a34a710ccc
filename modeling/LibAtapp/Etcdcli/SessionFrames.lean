import LibAtapp.Etcdcli.KeepaliveProcess
import LibAtapp.Etcdcli.Session

set_option autoImplicit false

/-! # What the requests of a session change

One lemma for each function that a step of a session calls: the request for the members, the
requests for the lease, and what is done with the lists of keepalives and their deletors. -/

namespace LibAtapp

namespace EtcdCluster

/-! ## Lists of keepalives -/

/-- Only the lists of keepalives and the deletors change. -/
def OnlyLists (before after : EtcdCluster) : Prop :=
  after = { before with
    keepaliveActors := after.keepaliveActors
    keepaliveRetryActors := after.keepaliveRetryActors
    keepaliveDeletors := after.keepaliveDeletors
    deleting := after.deleting
    deleteRequests := after.deleteRequests
    freed := after.freed }

theorem OnlyLists.refl (self : EtcdCluster) : self.OnlyLists self := rfl

theorem OnlyLists.trans {a b c : EtcdCluster} (h : a.OnlyLists b) (h' : b.OnlyLists c) :
    a.OnlyLists c := by
  unfold OnlyLists at *
  rw [h'] at ⊢
  rw [h]

theorem deleteKeepalivePath_onlyLists {self after : EtcdCluster} {deletor : KeepaliveDeletor}
    {delayDelete : Bool} {outcome : StartOutcome}
    (h : self.deleteKeepalivePath deletor delayDelete outcome = some after) :
    self.OnlyLists after := by
  unfold deleteKeepalivePath at h
  dsimp only at h
  generalize (if self.conf.keepaliveRetryTimes = 0 then 8
    else self.conf.keepaliveRetryTimes) = maxRetryTimes at h
  split at h
  · cases h
    rfl
  split at h
  · cases (deleteKeepaliveDeletor_eq _ _).symm.trans h
    rfl
  split at h
  · cases h
    rfl
  · obtain ⟨request, -, h⟩ := Option.bind_eq_some_iff.1 h
    split at h <;> cases h <;> rfl

theorem removeKeepalivePath_onlyLists {self after : EtcdCluster} {deletor : KeepaliveDeletor}
    {delayDelete : Bool} {outcome : StartOutcome}
    (h : self.removeKeepalivePath deletor delayDelete outcome = some after) :
    self.OnlyLists after := by
  obtain ⟨mid, hmid, h⟩ := Option.bind_eq_some_iff.1 h
  have hfirst : self.OnlyLists
      { self with keepaliveDeletors := self.keepaliveDeletors.erase deletor.path } := rfl
  have hlists := hfirst.trans (deleteKeepalivePath_onlyLists hmid)
  cases hold : (self.keepaliveDeletors.lookup deletor.path).filter
      (fun old => old.addr ≠ deletor.addr) with
  | none =>
    rw [hold] at h
    cases h
    exact hlists
  | some old =>
    rw [hold] at h
    cases (mid.deleteKeepaliveDeletor_eq old).symm.trans h
    exact hlists.trans rfl

/-- `retry_pending_actions` gets through, and keeps the keepalives that are registered. -/
theorem retryPendingActions_onlyLists (self : EtcdCluster) (deletes : Bytes → StartOutcome) :
    ∃ after, self.retryPendingActions deletes = some after ∧ self.OnlyLists after ∧
      after.keepaliveActors = self.keepaliveActors := by
  have hfold : ∀ (entries : List (Sigma fun _ : Bytes => KeepaliveDeletor))
      (self after : EtcdCluster),
      entries.foldlM
          (fun self entry => self.removeKeepalivePath entry.2 false (deletes entry.2.path)) self =
        some after → self.OnlyLists after := by
    intro entries
    induction entries with
    | nil =>
      intro self after h
      cases h
      rfl
    | cons entry entries ih =>
      intro self after h
      rw [List.foldlM_cons] at h
      obtain ⟨mid, hmid, h⟩ := Option.bind_eq_some_iff.1 h
      exact (removeKeepalivePath_onlyLists hmid).trans (ih mid after h)
  obtain ⟨after, hafter, hsame, -⟩ := self.retryPendingActions_same deletes
  refine ⟨after, hafter, ?_, hsame.actors⟩
  unfold retryPendingActions at hafter
  dsimp only at hafter
  split at hafter
  · exact OnlyLists.trans (b := { self with
      keepaliveRetryActors := [], keepaliveDeletors := ∅ }) rfl (hfold _ _ _ hafter)
  · exact OnlyLists.trans (b := { self with keepaliveDeletors := ∅ }) rfl (hfold _ _ _ hafter)

/-- `set_lease` gets through: the lease is set. -/
theorem setLease_onlyLists (self : EtcdCluster) (v : Int) (force : Bool)
    (deletes : Bytes → StartOutcome) :
    ∃ after, self.setLease v force deletes = some after ∧
      ({ self with conf := { self.conf with lease := v } } : EtcdCluster).OnlyLists after ∧
      after.keepaliveActors = self.keepaliveActors := by
  unfold setLease
  dsimp only
  split
  · exact retryPendingActions_onlyLists _ deletes
  split
  · obtain ⟨after, hafter, hlists, hactors⟩ := retryPendingActions_onlyLists
      { self with conf := { self.conf with lease := v }, keepaliveRetryActors := [] } deletes
    exact ⟨after, hafter, OnlyLists.trans (b := { self with
      conf := { self.conf with lease := v }, keepaliveRetryActors := [] }) rfl hlists, hactors⟩
  · exact ⟨_, rfl, rfl, rfl⟩

/-! ## The request for the members -/

/-- The hosts are the configured ones, not those of the members. -/
def Manual (conf : ClusterConf) : Prop := conf.autoUpdateHosts = false ∧ conf.confHosts ≠ []

/-- `create_request_member_update` gets past its tests. -/
structure AsksMembers (cluster : EtcdCluster) : Prop where
  multi : cluster.curlMulti = true
  opened : cluster.closing = false
  hosts : cluster.conf.confHosts ≠ [] ∨ cluster.conf.hosts ≠ []

/-- What `create_request_member_update` makes of a cluster. -/
inductive MemberRequest (self : EtcdCluster) (draw : Nat) (outcome : StartOutcome) :
    EtcdCluster → Prop where
  | skipped (h : ¬ self.AsksMembers) : MemberRequest self draw outcome self
  | refilled (next : Int) (h : self.AsksMembers) (hmanual : Manual self.conf)
      (hempty : self.conf.hosts = []) : MemberRequest self draw outcome { self with
        conf := { self.conf with
          etcdMembersNextUpdateTime := next
          hosts := self.conf.confHosts
          pathNode := pickHost self.conf.confHosts draw }
        rpcUpdateMembers := none }
  | trusted (next : Int) (h : self.AsksMembers) (hmanual : Manual self.conf)
      (hhosts : self.conf.hosts ≠ []) : MemberRequest self draw outcome { self with
        conf := { self.conf with etcdMembersNextUpdateTime := next }
        rpcUpdateMembers := none }
  | asked (next : Int) (request : HttpRequest) (h : self.AsksMembers) (hauto : ¬ Manual self.conf)
      (hstarted : outcome = .started) : MemberRequest self draw outcome { self with
        conf := { self.conf with etcdMembersNextUpdateTime := next }
        rpcUpdateMembers := some request }
  | failed (next : Int) (h : self.AsksMembers) (hauto : ¬ Manual self.conf)
      (hfailed : outcome ≠ .started) : MemberRequest self draw outcome { self with
        conf := { self.conf with etcdMembersNextUpdateTime := next }
        rpcUpdateMembers := none }

theorem createRequestMemberUpdate_cases {self after : EtcdCluster} {now : Int} {draw : Nat}
    {outcome : StartOutcome} {sent : Bool}
    (h : self.createRequestMemberUpdate now draw outcome = some (after, sent)) :
    MemberRequest self draw outcome after := by
  unfold createRequestMemberUpdate at h
  dsimp only at h
  split at h
  · next hmulti =>
    cases h
    exact .skipped fun hasks => by simp [hasks.multi] at hmulti
  split at h
  · next hclosing =>
    cases h
    exact .skipped fun hasks => by simp [hasks.opened] at hclosing
  split at h
  · next hhosts =>
    cases h
    exact .skipped fun hasks => hasks.hosts.elim (fun hne => hne hhosts.1) (fun hne => hne hhosts.2)
  next hmulti hclosing hhosts =>
  have hasks : self.AsksMembers := by
    refine ⟨by simpa using hmulti, by simpa using hclosing, ?_⟩
    by_contra hnone
    rw [not_or, not_not, not_not] at hnone
    exact hhosts hnone
  split at h
  · next hmanual =>
    have hmanual' : Manual self.conf := ⟨by simpa using hmanual.1, hmanual.2⟩
    split at h
    · next hempty =>
      cases h
      exact .refilled _ hasks hmanual' hempty
    · next hne =>
      cases h
      exact .trusted _ hasks hmanual' hne
  · next hauto =>
    have hauto' : ¬ Manual self.conf := fun hmanual =>
      hauto ⟨by simpa using hmanual.1, hmanual.2⟩
    cases outcome with
    | createFailed =>
      cases h
      exact .failed _ hasks hauto' (by decide)
    | startFailed =>
      cases h
      exact .failed _ hasks hauto' (by decide)
    | started =>
      cases h
      exact .asked _ _ hasks hauto' rfl

/-- What `retry_request_member_update` makes of a cluster: it may drop a host and select another,
    and then asks for the members, now or earlier than planned. -/
structure MemberRetried (cluster : EtcdCluster) (draw : Nat) (outcome : StartOutcome)
    (after mid : EtcdCluster) : Prop where
  shape : mid = { cluster with
    conf := { cluster.conf with hosts := mid.conf.hosts, pathNode := mid.conf.pathNode } }
  hosts : mid.conf.hosts ⊆ cluster.conf.hosts
  selected : mid.conf.hosts = cluster.conf.hosts ∧ mid.conf.pathNode = cluster.conf.pathNode ∨
    ∃ draw, mid.conf.pathNode = pickHost mid.conf.hosts draw
  after : MemberRequest mid draw outcome after ∨ after = mid ∨ ∃ next, after = { mid with
    conf := { mid.conf with etcdMembersNextUpdateTime := next } }

theorem retryRequestMemberUpdate_retried {self after : EtcdCluster} {badUrl : Bytes} {now : Int}
    {selectDraw draw : Nat} {outcome : StartOutcome} {sent : Bool}
    (h : self.retryRequestMemberUpdate badUrl now selectDraw draw outcome = some (after, sent)) :
    ∃ mid, MemberRetried self draw outcome after mid := by
  unfold retryRequestMemberUpdate at h
  dsimp only at h
  generalize hmid : (if self.conf.pathNode = [] then self.selectClusterMember selectDraw
    else if Conf.strncaseEq self.conf.pathNode badUrl self.conf.pathNode.length = true then
      ({ self with conf := { self.conf with
          hosts := SwapRemove.removeAll self.conf.pathNode self.conf.hosts } }
        ).selectClusterMember selectDraw
    else self) = mid at h
  have hshape : mid = { self with
        conf := { self.conf with hosts := mid.conf.hosts, pathNode := mid.conf.pathNode } } ∧
      mid.conf.hosts ⊆ self.conf.hosts ∧
      (mid.conf.hosts = self.conf.hosts ∧ mid.conf.pathNode = self.conf.pathNode ∨
        ∃ draw, mid.conf.pathNode = pickHost mid.conf.hosts draw) := by
    rw [← hmid]
    split
    · exact ⟨rfl, List.Subset.refl _, Or.inr ⟨selectDraw, rfl⟩⟩
    split
    · refine ⟨rfl, ?_, Or.inr ⟨selectDraw, rfl⟩⟩
      exact SwapRemove.removeAll_subset _ _
    · exact ⟨rfl, List.Subset.refl _, Or.inl ⟨rfl, rfl⟩⟩
  refine ⟨mid, hshape.1, hshape.2.1, hshape.2.2, ?_⟩
  generalize (if (!mid.running) = true ∧ mid.conf.etcdMembersInitRetryInterval > 0 then
      mid.conf.etcdMembersInitRetryInterval
    else if mid.conf.etcdMembersRetryInterval ≤ 0 then 60000
    else mid.conf.etcdMembersRetryInterval) = retryInterval at h
  split at h
  · cases h
    exact Or.inr (Or.inr ⟨_, rfl⟩)
  split at h
  · cases h
    exact Or.inr (Or.inl rfl)
  · exact Or.inl (createRequestMemberUpdate_cases h)

/-! ## The requests for the lease -/

/-- The shortest time between two requests for the lease. -/
def leasePace (conf : ClusterConf) : Int :=
  min (if conf.keepaliveInterval ≤ 0 then 3000 else conf.keepaliveInterval)
    (if conf.keepaliveRetryInterval ≤ 0 then 3000 else conf.keepaliveRetryInterval)

theorem leasePace_pos (conf : ClusterConf) : 0 < leasePace conf := by
  unfold leasePace
  split <;> split <;> omega

/-- The lease is asked for, at a time that is due. -/
structure LeaseRequest (cluster : EtcdCluster) (now : Int) (outcome : StartOutcome)
    (after : EtcdCluster) : Prop where
  asks : cluster.GrantsLease now
  shape : after = { cluster with
    conf := { cluster.conf with keepaliveNextUpdateTime := after.conf.keepaliveNextUpdateTime }
    rpcKeepalive := after.rpcKeepalive }
  next : now + leasePace cluster.conf ≤ after.conf.keepaliveNextUpdateTime
  rpc : after.rpcKeepalive.isSome ↔ outcome = .started

theorem createRequestLeaseGrant_cases {self after : EtcdCluster} {now : Int}
    {outcome : StartOutcome} {sent : Bool}
    (h : self.createRequestLeaseGrant now outcome = some (after, sent)) :
    ¬ self.GrantsLease now ∧ after = self ∨ LeaseRequest self now outcome after := by
  by_cases hgrants : self.GrantsLease now
  · refine Or.inr ?_
    have hnow : ¬ now ≤ self.conf.keepaliveNextUpdateTime := not_le.2 hgrants.due
    unfold createRequestLeaseGrant at h
    rw [if_neg (by simp [hgrants.multi, hgrants.host]), if_neg (by simp [hgrants.opened,
      hgrants.enabled]), if_neg hnow] at h
    dsimp only at h
    generalize hdelay : (if self.running = true ∧ self.conf.keepaliveInterval > 0 then
      self.conf.keepaliveInterval else if self.conf.keepaliveRetryInterval > 0 then
      self.conf.keepaliveRetryInterval else 3000) = delay at h
    have hpace : leasePace self.conf ≤ delay := by
      rw [← hdelay, leasePace]
      split_ifs <;> omega
    cases outcome with
    | createFailed => cases h
    | startFailed =>
      cases h
      exact ⟨hgrants, rfl, by simpa using hpace, by simp⟩
    | started =>
      cases h
      exact ⟨hgrants, rfl, by simpa using hpace, by simp⟩
  · refine Or.inl ⟨hgrants, ?_⟩
    unfold createRequestLeaseGrant at h
    rcases not_grantsLease hgrants with hfirst | hsecond | hthird
    · rw [if_pos hfirst] at h
      cases h
      rfl
    · rw [if_pos hsecond] at h
      split at h <;> cases h <;> rfl
    · rw [if_pos hthird] at h
      split at h
      · cases h
        rfl
      · split at h <;> cases h <;> rfl

theorem createRequestLeaseKeepalive_cases {self after : EtcdCluster} {now : Int}
    {outcome : StartOutcome} {sent : Bool}
    (h : self.createRequestLeaseKeepalive now outcome = some (after, sent)) :
    after = self ∨ self.conf.lease ≠ 0 ∧ LeaseRequest self now outcome after := by
  unfold createRequestLeaseKeepalive at h
  by_cases hlease : self.conf.lease = 0
  · rw [if_pos (Or.inr (Or.inl hlease))] at h
    cases h
    exact Or.inl rfl
  by_cases hgrants : self.GrantsLease now
  · refine Or.inr ⟨hlease, ?_⟩
    rw [if_neg (by simp [hgrants.multi, hgrants.host, hlease]), if_neg (by simp [hgrants.opened,
      hgrants.enabled]), if_neg (not_le.2 hgrants.due)] at h
    dsimp only at h
    generalize hdelay : (if self.conf.keepaliveInterval ≤ 0 then (3000 : Int)
      else self.conf.keepaliveInterval) = delay at h
    have hpace : leasePace self.conf ≤ delay := by
      rw [← hdelay, leasePace]
      exact min_le_left _ _
    cases outcome with
    | createFailed => cases h
    | startFailed =>
      cases h
      exact ⟨hgrants, rfl, by simpa using hpace, by simp⟩
    | started =>
      cases h
      exact ⟨hgrants, rfl, by simpa using hpace, by simp⟩
  · refine Or.inl ?_
    rcases not_grantsLease hgrants with hfirst | hsecond | hthird
    · rw [if_pos (hfirst.imp_right Or.inr)] at h
      cases h
      rfl
    · rw [if_pos hsecond] at h
      split at h <;> cases h <;> rfl
    · rw [if_pos hthird] at h
      split at h
      · cases h
        rfl
      · split at h <;> cases h <;> rfl

/-- Turning the lease on asks for one. -/
theorem setFlagEnableLease_cases {self after : EtcdCluster} {now : Int} {outcome : StartOutcome}
    (h : self.setFlagEnableLease now outcome = some after) :
    self.enableLease = true ∧ after = self ∨
      self.enableLease = false ∧ (after = { self with enableLease := true } ∨
        LeaseRequest { self with enableLease := true } now outcome after) := by
  unfold setFlagEnableLease at h
  split at h
  · next henabled =>
    cases h
    exact Or.inl ⟨henabled, rfl⟩
  · next hdisabled =>
    obtain ⟨⟨mid, sent⟩, hgrant, h⟩ := Option.bind_eq_some_iff.1 h
    cases h
    refine Or.inr ⟨by simpa using hdisabled, ?_⟩
    exact (createRequestLeaseGrant_cases hgrant).imp_left And.right

theorem addKeepalive_enables {self after : EtcdCluster} {keepalive : Nat} {path : Bytes} {now : Int}
    {outcome : StartOutcome} {added : Bool}
    (h : self.addKeepalive keepalive path now outcome = some (after, added)) :
    after = self ∨
      ∃ mid, self.setFlagEnableLease now outcome = some mid ∧ mid.OnlyLists after := by
  unfold addKeepalive at h
  split at h
  · cases h
    exact Or.inl rfl
  split at h
  · cases h
    exact Or.inl rfl
  · obtain ⟨mid, hmid, h⟩ := Option.bind_eq_some_iff.1 h
    refine Or.inr ⟨mid, hmid, ?_⟩
    dsimp only at h
    cases hold : mid.keepaliveDeletors.lookup path with
    | none =>
      simp only [hold] at h
      cases h
      rfl
    | some deletor =>
      simp only [hold, deleteKeepaliveDeletor_eq] at h
      cases h
      rfl

theorem addRetryKeepalive_enables {self after : EtcdCluster} {keepalive : Nat} {now : Int}
    {outcome : StartOutcome} {added : Bool}
    (h : self.addRetryKeepalive keepalive now outcome = some (after, added)) :
    after = self ∨
      ∃ mid, self.setFlagEnableLease now outcome = some mid ∧ mid.OnlyLists after := by
  unfold addRetryKeepalive at h
  split at h
  · cases h
    exact Or.inl rfl
  split at h
  · cases h
    exact Or.inl rfl
  · obtain ⟨mid, hmid, h⟩ := Option.bind_eq_some_iff.1 h
    cases h
    exact Or.inr ⟨mid, hmid, rfl⟩

theorem removeKeepalive_onlyLists {self after : EtcdCluster} {keepalive : Nat} {path : Bytes}
    {hasData : Bool} {addr : Nat} {outcome : StartOutcome} {found : Bool}
    (h : self.removeKeepalive keepalive path hasData addr outcome = some (after, found)) :
    self.OnlyLists after := by
  unfold removeKeepalive at h
  dsimp only at h
  split at h
  · obtain ⟨mid, hmid, h⟩ := Option.bind_eq_some_iff.1 h
    cases h
    exact OnlyLists.trans (b := self.unlistKeepalive keepalive) rfl
      (removeKeepalivePath_onlyLists hmid)
  · cases h
    rfl

/-- `close` shuts everything. -/
theorem close_onlyLists {self after : EtcdCluster} (h : self.close = some after) :
    ({ self with
      closing := true, running := false, rpcUpdateMembers := none, rpcKeepalive := none
      conf := { self.conf with lease := if self.curlMulti then 0 else self.conf.lease }
    } : EtcdCluster).OnlyLists after := by
  unfold close at h
  obtain ⟨mid, hmid, h⟩ := Option.bind_eq_some_iff.1 h
  have hmid' : ({ self with closing := true, running := false, rpcKeepalive := none
      } : EtcdCluster).OnlyLists mid := by
    have hfold : ∀ (entries : List (Sigma fun _ : Bytes => KeepaliveDeletor))
        (self after : EtcdCluster),
        entries.foldlM (fun self entry => self.deleteKeepaliveDeletor entry.2) self = some after →
          self.OnlyLists after := by
      intro entries
      induction entries with
      | nil =>
        intro self after h
        cases h
        rfl
      | cons entry entries ih =>
        intro self after h
        rw [List.foldlM_cons, deleteKeepaliveDeletor_eq] at h
        exact OnlyLists.trans (b := { self with freed := entry.2.addr :: self.freed }) rfl
          (ih _ after h)
    exact OnlyLists.trans (b := { self with
      closing := true, running := false, rpcKeepalive := none, keepaliveDeletors := ∅ }) rfl
      (hfold _ _ _ hmid)
  have hmulti : mid.curlMulti = self.curlMulti := by
    rw [hmid']
  dsimp only at h
  rw [hmulti] at h
  split at h
  · next hcurl =>
    cases h
    rw [if_pos hcurl, hmid']
    rfl
  · next hcurl =>
    cases h
    rw [if_neg hcurl, hmid']
    rfl

end EtcdCluster

end LibAtapp
