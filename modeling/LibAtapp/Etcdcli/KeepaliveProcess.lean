import LibAtapp.Etcdcli.Deletors

set_option autoImplicit false

/-! # Processing a keepalive

What `process` makes of an idle keepalive whose cluster is open: it asks for the check, puts the
value or does nothing, and where its request cannot be created or started it is queued. Then the
calls and callbacks of the actor that lead to `process`. -/

namespace LibAtapp

namespace EtcdCluster

/-- What matters to the keepalives, apart from the list of those to try again. -/
structure SameForKeepalives (before after : EtcdCluster) : Prop where
  curlMulti : after.curlMulti = before.curlMulti
  closing : after.closing = before.closing
  running : after.running = before.running
  enableLease : after.enableLease = before.enableLease
  conf : after.conf = before.conf
  actors : after.keepaliveActors = before.keepaliveActors

/-- Queue a keepalive for a retry. -/
def queue (self : EtcdCluster) (keepalive : Nat) : EtcdCluster :=
  if keepalive ∈ self.keepaliveRetryActors then self
  else { self with keepaliveRetryActors := self.keepaliveRetryActors ++ [keepalive] }

theorem mem_queue {self : EtcdCluster} {keepalive other : Nat} :
    other ∈ (self.queue keepalive).keepaliveRetryActors ↔
      other = keepalive ∨ other ∈ self.keepaliveRetryActors := by
  unfold queue
  split
  · next hmem =>
    refine ⟨Or.inr, ?_⟩
    rintro (rfl | h)
    · exact hmem
    · exact h
  · simp [or_comm]

theorem queue_nodup {self : EtcdCluster} (h : self.keepaliveRetryActors.Nodup) (keepalive : Nat) :
    (self.queue keepalive).keepaliveRetryActors.Nodup := by
  unfold queue
  split
  · exact h
  · next hnot =>
    show (self.keepaliveRetryActors ++ [keepalive]).Nodup
    rw [← List.concat_eq_append]
    exact (List.nodup_concat _ _).2 ⟨hnot, h⟩

theorem queue_same (self : EtcdCluster) (keepalive : Nat) :
    self.SameForKeepalives (self.queue keepalive) := by
  unfold queue
  split <;> exact ⟨rfl, rfl, rfl, rfl, rfl, rfl⟩

/-- The lease is on once a keepalive was added, so none is asked for. -/
theorem addRetryKeepalive_eq {self : EtcdCluster} (hopen : self.closing = false)
    (henabled : self.enableLease = true) (keepalive : Nat) (now : Int) (outcome : StartOutcome) :
    ∃ added, self.addRetryKeepalive keepalive now outcome = some (self.queue keepalive, added) := by
  unfold addRetryKeepalive queue
  rw [if_neg (by simp [hopen])]
  split
  · exact ⟨_, rfl⟩
  · rw [setFlagEnableLease, if_pos henabled]
    exact ⟨_, rfl⟩

/-- A put request can be created and started. -/
def PutStarts (self : EtcdCluster) (outcome : StartOutcome) : Prop :=
  self.Ready ∧ self.conf.lease ≠ 0 ∧ outcome = .started

/-- A put request carries the value and the lease. -/
theorem createRequestKvSet_body {self : EtcdCluster} {key value : Bytes} {outcome : StartOutcome}
    {request : HttpRequest} (h : self.createRequestKvSet key value outcome = some request) :
    request.body = .kvSet key value self.conf.lease := by
  unfold createRequestKvSet createRequest at h
  split at h
  · cases h
  · split at h
    · cases h
    · cases outcome <;> cases h <;> rfl

/-- A put request is there and started exactly if it can be. -/
theorem createRequestKvSet_started_iff (self : EtcdCluster) (key value : Bytes)
    (outcome : StartOutcome) :
    (self.createRequestKvSet key value outcome).isSome ∧ outcome ≠ .startFailed ↔
      self.PutStarts outcome := by
  unfold createRequestKvSet PutStarts
  by_cases hlease : self.conf.lease = 0
  · simp [hlease]
  rw [if_neg hlease]
  by_cases hready : self.Ready
  · rw [createRequest_of_ready _ hready]
    cases outcome <;> simp [HttpRequestPtr.create, hready, hlease]
  · rw [createRequest, if_pos]
    · simp [hready]
    · by_contra hnot
      rw [not_or, not_or] at hnot
      exact hready ⟨by simpa using hnot.1, hnot.2.1, by simpa using hnot.2.2⟩

theorem createRequestKvGet_body {self : EtcdCluster} {key rangeEnd : Bytes}
    {outcome : StartOutcome} {request : HttpRequest}
    (h : self.createRequestKvGet key rangeEnd outcome = some request) :
    request.body = .kvGet (EtcdPacker.packKeyRange key rangeEnd) := by
  unfold createRequestKvGet createRequest at h
  split at h
  · cases h
  · cases outcome <;> cases h <;> rfl

theorem SameForKeepalives.trans {first second third : EtcdCluster}
    (h : first.SameForKeepalives second) (h' : second.SameForKeepalives third) :
    first.SameForKeepalives third where
  curlMulti := h'.curlMulti.trans h.curlMulti
  closing := h'.closing.trans h.closing
  running := h'.running.trans h.running
  enableLease := h'.enableLease.trans h.enableLease
  conf := h'.conf.trans h.conf
  actors := h'.actors.trans h.actors

theorem SameForKeepalives.putStarts_iff {before after : EtcdCluster}
    (h : before.SameForKeepalives after) (outcome : StartOutcome) :
    after.PutStarts outcome ↔ before.PutStarts outcome := by
  have hready : after.Ready ↔ before.Ready := by
    constructor
    · intro hready
      exact ⟨h.curlMulti ▸ hready.multi, h.conf ▸ hready.host, h.closing ▸ hready.opened⟩
    · intro hready
      exact ⟨h.curlMulti ▸ hready.multi, h.conf ▸ hready.host, h.closing ▸ hready.opened⟩
  rw [PutStarts, PutStarts, hready, h.conf]

/-! ## What the deletors leave alone -/

theorem deleteKeepalivePath_same {self after : EtcdCluster} {deletor : KeepaliveDeletor}
    {delayDelete : Bool} {outcome : StartOutcome}
    (h : self.deleteKeepalivePath deletor delayDelete outcome = some after) :
    self.SameForKeepalives after ∧ after.keepaliveRetryActors = self.keepaliveRetryActors := by
  unfold deleteKeepalivePath at h
  dsimp only at h
  generalize (if self.conf.keepaliveRetryTimes = 0 then 8
    else self.conf.keepaliveRetryTimes) = maxRetryTimes at h
  split at h
  · cases h
    exact ⟨⟨rfl, rfl, rfl, rfl, rfl, rfl⟩, rfl⟩
  split at h
  · cases (deleteKeepaliveDeletor_eq _ _).symm.trans h
    exact ⟨⟨rfl, rfl, rfl, rfl, rfl, rfl⟩, rfl⟩
  split at h
  · cases h
    exact ⟨⟨rfl, rfl, rfl, rfl, rfl, rfl⟩, rfl⟩
  · obtain ⟨request, -, h⟩ := Option.bind_eq_some_iff.1 h
    split at h <;> cases h <;> exact ⟨⟨rfl, rfl, rfl, rfl, rfl, rfl⟩, rfl⟩

theorem removeKeepalivePath_same {self after : EtcdCluster} {deletor : KeepaliveDeletor}
    {delayDelete : Bool} {outcome : StartOutcome}
    (h : self.removeKeepalivePath deletor delayDelete outcome = some after) :
    self.SameForKeepalives after ∧ after.keepaliveRetryActors = self.keepaliveRetryActors := by
  obtain ⟨mid, hmid, h⟩ := Option.bind_eq_some_iff.1 h
  obtain ⟨hsame, hretry⟩ := deleteKeepalivePath_same hmid
  obtain ⟨hmulti, hclosing, hrunning, henabled, hconf, hactors⟩ := hsame
  cases hold : (self.keepaliveDeletors.lookup deletor.path).filter
      (fun old => old.addr ≠ deletor.addr) with
  | none =>
    rw [hold] at h
    cases h
    exact ⟨⟨hmulti, hclosing, hrunning, henabled, hconf, hactors⟩, hretry⟩
  | some old =>
    rw [hold] at h
    cases (mid.deleteKeepaliveDeletor_eq old).symm.trans h
    exact ⟨⟨hmulti, hclosing, hrunning, henabled, hconf, hactors⟩, hretry⟩

/-- A tick always gets through the deletors, and they leave the keepalives alone. -/
theorem retryPendingActions_same (self : EtcdCluster) (outcome : Bytes → StartOutcome) :
    ∃ after, self.retryPendingActions outcome = some after ∧ self.SameForKeepalives after ∧
      after.keepaliveRetryActors =
        if self.conf.lease ≠ 0 then [] else self.keepaliveRetryActors := by
  have hfold : ∀ (entries : List (Sigma fun _ : Bytes => KeepaliveDeletor)) (self : EtcdCluster),
      ∃ after, entries.foldlM
          (fun self entry => self.removeKeepalivePath entry.2 false (outcome entry.2.path)) self =
            some after ∧
        self.SameForKeepalives after ∧ after.keepaliveRetryActors = self.keepaliveRetryActors := by
    intro entries
    induction entries with
    | nil => exact fun self => ⟨self, rfl, ⟨rfl, rfl, rfl, rfl, rfl, rfl⟩, rfl⟩
    | cons entry entries ih =>
      intro self
      obtain ⟨mid, hmid⟩ := Option.ne_none_iff_exists'.1
        (self.removeKeepalivePath_ne_none (outcome entry.2.path) entry.2 false)
      obtain ⟨hsame, hretry⟩ := removeKeepalivePath_same hmid
      obtain ⟨after, hafter, hsame', hretry'⟩ := ih mid
      refine ⟨after, ?_, hsame.trans hsame', hretry'.trans hretry⟩
      rw [List.foldlM_cons, hmid]
      exact hafter
  unfold retryPendingActions
  dsimp only
  split
  · obtain ⟨after, hafter, hsame, hretry⟩ := hfold self.keepaliveDeletors.entries
      { self with keepaliveRetryActors := [], keepaliveDeletors := ∅ }
    exact ⟨after, hafter, ⟨hsame.curlMulti, hsame.closing, hsame.running, hsame.enableLease,
      hsame.conf, hsame.actors⟩, hretry⟩
  · obtain ⟨after, hafter, hsame, hretry⟩ := hfold self.keepaliveDeletors.entries
      { self with keepaliveDeletors := ∅ }
    exact ⟨after, hafter, ⟨hsame.curlMulti, hsame.closing, hsame.running, hsame.enableLease,
      hsame.conf, hsame.actors⟩, hretry⟩

/-! ## Turning the lease on -/

/-- Asking for a lease changes no flag, and not the lease that is held. -/
theorem createRequestLeaseGrant_flags {self after : EtcdCluster} {now : Int}
    {outcome : StartOutcome} {sent : Bool}
    (h : self.createRequestLeaseGrant now outcome = some (after, sent)) :
    after.closing = self.closing ∧ after.running = self.running ∧
      after.enableLease = self.enableLease ∧ after.conf.lease = self.conf.lease := by
  unfold createRequestLeaseGrant at h
  dsimp only at h
  split at h
  · cases h
    exact ⟨rfl, rfl, rfl, rfl⟩
  split at h
  · cases h
    exact ⟨rfl, rfl, rfl, rfl⟩
  split at h
  · cases h
    exact ⟨rfl, rfl, rfl, rfl⟩
  cases outcome <;> cases h <;> exact ⟨rfl, rfl, rfl, rfl⟩

theorem setFlagEnableLease_flags {self after : EtcdCluster} {now : Int} {outcome : StartOutcome}
    (h : self.setFlagEnableLease now outcome = some after) :
    after.closing = self.closing ∧ after.running = self.running ∧
      after.enableLease = true ∧ after.conf.lease = self.conf.lease := by
  unfold setFlagEnableLease at h
  split at h
  · next henabled =>
    cases h
    exact ⟨rfl, rfl, henabled, rfl⟩
  · obtain ⟨⟨granted, sent⟩, hgrant, hafter⟩ := Option.bind_eq_some_iff.1 h
    cases hafter
    exact createRequestLeaseGrant_flags hgrant

/-- `add_keepalive` registers the keepalive and turns the lease on. -/
theorem addKeepalive_flags {self after : EtcdCluster} {keepalive : Nat} {path : Bytes} {now : Int}
    {outcome : StartOutcome} {added : Bool}
    (h : self.addKeepalive keepalive path now outcome = some (after, added)) :
    added = false ∧ after = self ∨ added = true ∧ self.closing = false ∧
      keepalive ∉ self.keepaliveActors ∧
      after.keepaliveActors = self.keepaliveActors ++ [keepalive] ∧
      after.keepaliveRetryActors = self.keepaliveRetryActors ∧ after.closing = self.closing ∧
      after.running = self.running ∧ after.enableLease = true ∧
      after.conf.lease = self.conf.lease := by
  unfold addKeepalive at h
  split at h
  · cases h
    exact Or.inl ⟨rfl, rfl⟩
  split at h
  · cases h
    exact Or.inl ⟨rfl, rfl⟩
  next hopen hnew =>
    obtain ⟨mid, hmid, h⟩ := Option.bind_eq_some_iff.1 h
    have hsame := setFlagEnableLease_same _ hmid
    have hflags := setFlagEnableLease_flags hmid
    have hactors : mid.keepaliveActors ++ [keepalive] = self.keepaliveActors ++ [keepalive] := by
      rw [hsame.actors]
    refine Or.inr ?_
    dsimp only at h
    cases hlookup : mid.keepaliveDeletors.lookup path with
    | none =>
      rw [hlookup] at h
      cases h
      exact ⟨rfl, by simpa using hopen, hnew, hactors, hsame.retryActors, hflags⟩
    | some deletor =>
      rw [hlookup] at h
      simp only [deleteKeepaliveDeletor_eq, Option.bind_eq_bind, Option.bind_some] at h
      cases h
      exact ⟨rfl, by simpa using hopen, hnew, hactors, hsame.retryActors, hflags⟩

/-- A closed cluster is closing. -/
theorem close_closing {self after : EtcdCluster} (h : self.close = some after) :
    after.closing = true := by
  unfold close at h
  dsimp only at h
  rw [cleanupKeepaliveDeletors_eq] at h
  simp only [Option.bind_eq_bind, Option.bind_some] at h
  split at h <;> cases h <;> rfl

end EtcdCluster

namespace EtcdKeepalive

/-- The check has passed, or none is set. -/
def Cleared (self : EtcdKeepalive) : Prop :=
  self.checker = false ∨ self.isCheckRun = true ∧ self.isCheckPassed = true

/-- Before the check has run it has not passed, and no value is put. -/
def Unchecked (self : EtcdKeepalive) : Prop :=
  self.isCheckRun = false → self.isCheckPassed = false ∧ self.isValueChanged = true

/-- What `process` makes of an idle keepalive. -/
structure Processed (owner : EtcdCluster) (outcome : StartOutcome) (before after : EtcdKeepalive)
    (failed : Bool) : Prop where
  addr : after.addr = before.addr
  value : after.value = before.value
  checker : after.checker = before.checker
  unchecked : after.Unchecked
  passed : after.isCheckPassed = true ↔ before.Cleared
  request : ∀ req, after.rpcOpr = some req →
    after.isCheckRun = false ∧ (∃ range, req.body = .kvGet range) ∨
      ∃ key, req.body = .kvSet key before.value owner.conf.lease
  starts : before.Cleared → before.isValueChanged = true → owner.PutStarts outcome →
    after.rpcOpr.isSome
  fails : before.Cleared → before.isValueChanged = true → ¬ owner.PutStarts outcome →
    after.rpcOpr = none ∧ failed = true

/-- What `createProcessRequest` makes of it, before the request is started. -/
structure Asked (owner : EtcdCluster) (outcome : StartOutcome) (before after : EtcdKeepalive)
    (retry : Bool) : Prop where
  addr : after.addr = before.addr
  value : after.value = before.value
  checker : after.checker = before.checker
  run : after.isCheckRun = before.isCheckRun
  passed : after.isCheckPassed = before.isCheckPassed
  changed : after.isCheckRun = false → after.isValueChanged = before.isValueChanged
  request : ∀ req, after.rpcOpr = some req → retry = false ∧
    (after.isCheckRun = false ∧ (∃ range, req.body = .kvGet range) ∨
      ∃ key, req.body = .kvSet key before.value owner.conf.lease)
  put : before.isCheckRun = true → before.isCheckPassed = true → before.isValueChanged = true →
    (after.rpcOpr.isSome ∧ outcome ≠ .startFailed ↔ owner.PutStarts outcome) ∧
      (after.rpcOpr = none → retry = true)

theorem createProcessRequest_asked {self : EtcdKeepalive} (hidle : self.rpcOpr = none)
    (owner : EtcdCluster) (outcome : StartOutcome) :
    ∃ after retry, self.createProcessRequest owner outcome = some (after, retry) ∧
      Asked owner outcome self after retry := by
  unfold createProcessRequest
  by_cases hrun : self.isCheckRun = false
  · rw [if_pos hrun]
    dsimp only
    cases hreq : owner.createRequestKvGet self.path [] outcome with
    | none =>
      exact ⟨_, _, rfl, rfl, rfl, rfl, rfl, rfl, fun _ => rfl, by simp [hidle], by simp [hrun]⟩
    | some request =>
      refine ⟨_, _, rfl, rfl, rfl, rfl, rfl, rfl, fun _ => rfl, ?_, by simp [hrun]⟩
      rintro req ⟨⟩
      exact ⟨rfl, Or.inl ⟨hrun, _, EtcdCluster.createRequestKvGet_body hreq⟩⟩
  rw [if_neg hrun]
  by_cases hput : self.isCheckRun = true ∧ self.isCheckPassed = true ∧ self.isValueChanged = true
  · rw [if_pos hput]
    dsimp only
    have hstarts := owner.createRequestKvSet_started_iff self.path self.value outcome
    cases hreq : owner.createRequestKvSet self.path self.value outcome with
    | none =>
      rw [hreq] at hstarts
      refine ⟨_, _, rfl, rfl, rfl, rfl, rfl, rfl, fun _ => rfl, by simp [hidle], fun _ _ _ => ?_⟩
      exact ⟨by rw [hidle]; exact hstarts, fun _ => rfl⟩
    | some request =>
      rw [hreq] at hstarts
      refine ⟨_, _, rfl, rfl, rfl, rfl, rfl, rfl, fun h => absurd h (by simp [hput.1]), ?_,
        fun _ _ _ => ⟨hstarts, fun h => by cases h⟩⟩
      rintro req ⟨⟩
      exact ⟨rfl, Or.inr ⟨_, EtcdCluster.createRequestKvSet_body hreq⟩⟩
  · rw [if_neg hput]
    exact ⟨_, _, rfl, rfl, rfl, rfl, rfl, rfl, fun _ => rfl, by simp [hidle],
      fun hrun hpassed hchanged => absurd ⟨hrun, hpassed, hchanged⟩ hput⟩

theorem process_processed (self : EtcdKeepalive) (hidle : self.rpcOpr = none)
    (hunchecked : self.Unchecked) {owner : EtcdCluster} (hopen : owner.closing = false)
    (henabled : owner.enableLease = true) (now : Int) (outcome leaseOutcome : StartOutcome) :
    ∃ after failed, self.process owner now outcome leaseOutcome =
        some (after, if failed then owner.queue self.addr else owner) ∧
      Processed owner outcome self after failed := by
  unfold process
  rw [if_neg (by simp [hidle])]
  dsimp only
  generalize hmid : (if (!self.checker) = true then
      { self with isActived := false, isCheckRun := true, isCheckPassed := true,
                  retryTimes := self.retryTimes + 1 }
    else { self with isActived := false }) = mid
  have hsame : mid.addr = self.addr ∧ mid.value = self.value ∧ mid.checker = self.checker ∧
      mid.rpcOpr = none ∧ mid.isValueChanged = self.isValueChanged := by
    rw [← hmid]
    split <;> exact ⟨rfl, rfl, rfl, hidle, rfl⟩
  obtain ⟨haddr, hvalue, hchecker, hrpc, hchanged⟩ := hsame
  -- without a check function the check counts as passed
  have hcleared : mid.isCheckPassed = true ↔ self.Cleared := by
    rw [← hmid, Cleared]
    have hnot := hunchecked
    unfold Unchecked at hnot
    cases hset : self.checker with
    | false => simp
    | true =>
      cases hran : self.isCheckRun with
      | false => simpa using (hnot hran).1
      | true => simp
  have hrun : self.Cleared → mid.isCheckRun = true := by
    rw [← hmid, Cleared]
    cases hset : self.checker with
    | false => simp
    | true => simpa using fun hran _ => hran
  have hmidUnchecked : mid.isCheckRun = false →
      mid.isCheckPassed = false ∧ mid.isValueChanged = true := by
    rw [← hmid]
    unfold Unchecked at hunchecked
    cases hset : self.checker with
    | false => simp
    | true => exact hunchecked
  obtain ⟨next, retry, hasked, hnext⟩ := createProcessRequest_asked hrpc owner outcome
  have hnextUnchecked : next.Unchecked := by
    intro hnot
    have hmidNot : mid.isCheckRun = false := hnext.run ▸ hnot
    rw [hnext.passed, hnext.changed hnot]
    exact hmidUnchecked hmidNot
  have hpassed : next.isCheckPassed = true ↔ self.Cleared := by
    rw [hnext.passed]
    exact hcleared
  rw [hasked]
  obtain ⟨added, hadd⟩ := EtcdCluster.addRetryKeepalive_eq hopen henabled self.addr now leaseOutcome
  have hsameAddr : next.addr = self.addr := hnext.addr.trans haddr
  have hput : self.Cleared → self.isValueChanged = true →
      (next.rpcOpr.isSome ∧ outcome ≠ .startFailed ↔ owner.PutStarts outcome) ∧
        (next.rpcOpr = none → retry = true) :=
    fun h hset => hnext.put (hrun h) (hcleared.2 h) (hchanged.trans hset)
  cases hreq : next.rpcOpr with
  | none =>
    refine ⟨next, retry, ?_, hsameAddr, hnext.value.trans hvalue, hnext.checker.trans hchecker,
      hnextUnchecked, hpassed, by simp [hreq], fun h hset hstarts => ?_, fun h hset _ => ?_⟩
    · cases retry <;> simp [hreq, hsameAddr, hadd]
    · exact ((hput h hset).1.2 hstarts).1
    · exact ⟨hreq, (hput h hset).2 hreq⟩
  | some request =>
    obtain ⟨hkept, hbody⟩ := hnext.request request hreq
    subst hkept
    by_cases hstart : outcome = .startFailed
    · refine ⟨{ next with rpcOpr := none }, true, ?_, hsameAddr, hnext.value.trans hvalue,
        hnext.checker.trans hchecker, hnextUnchecked, hpassed, by simp,
        fun h hset hstarts => ?_, fun _ _ _ => ⟨rfl, rfl⟩⟩
      · simp [hreq, hstart, HttpRequestPtr.deref, hsameAddr, hadd]
      · exact absurd hstart ((hput h hset).1.2 hstarts).2
    · have hsame : { next with rpcOpr := some request } = next := by rw [← hreq]
      refine ⟨next, false, ?_, hsameAddr, hnext.value.trans hvalue, hnext.checker.trans hchecker,
        hnextUnchecked, hpassed, ?_, fun _ _ _ => by simp [hreq], fun h hset hnot => ?_⟩
      · simp [hreq, hstart, HttpRequestPtr.deref, hsame]
      · rw [← hvalue]
        exact fun req h => (hnext.request req h).2
      · exact absurd ((hput h hset).1.1 ⟨by simp [hreq], hstart⟩) hnot

/-- `reset_value_changed` -/
def resetValueChanged (self : EtcdKeepalive) : EtcdKeepalive := { self with isValueChanged := true }

/-- `close` -/
def close (self : EtcdKeepalive) (resetHasDataFlag : Bool) : EtcdKeepalive :=
  { self with
    rpcOpr := none, isActived := false, isValueChanged := true
    hasData := if resetHasDataFlag then false else self.hasData
    isCheckRun := false, isCheckPassed := false, checker := false, retryTimes := 0 }

/-- What the loops over the keepalives make of one: its value counts as changed, and it is
    processed if it is idle. -/
def Republished (owner : EtcdCluster) (outcome : StartOutcome) (before after : EtcdKeepalive)
    (failed : Bool) : Prop :=
  before.rpcOpr.isSome ∧ after = { before.resetValueChanged with isActived := true } ∧
      failed = false ∨
    before.rpcOpr = none ∧ Processed owner outcome before.resetValueChanged after failed

/-- The keepalive has passed its check and waits for nothing. -/
def Idle (self : EtcdKeepalive) : Prop := self.isCheckPassed = true ∧ self.rpcOpr = none

theorem Republished.idle_iff {owner : EtcdCluster} {outcome : StartOutcome}
    {before after : EtcdKeepalive} {failed : Bool}
    (h : Republished owner outcome before after failed) :
    after.Idle ↔ before.rpcOpr = none ∧ before.Cleared ∧ ¬ owner.PutStarts outcome := by
  rcases h with ⟨hbusy, rfl, -⟩ | ⟨hidle, h⟩
  · refine iff_of_false (fun hlost => ?_) (fun hlost => ?_)
    · rw [show before.rpcOpr = none from hlost.2] at hbusy
      cases hbusy
    · rw [hlost.1] at hbusy
      cases hbusy
  · constructor
    · rintro ⟨hpassed, hnone⟩
      have hcleared : before.Cleared := h.passed.1 hpassed
      refine ⟨hidle, hcleared, fun hstarts => ?_⟩
      have hsome := h.starts hcleared rfl hstarts
      rw [hnone] at hsome
      cases hsome
    · rintro ⟨-, hcleared, hnot⟩
      exact ⟨h.passed.2 hcleared, (h.fails hcleared rfl hnot).1⟩

theorem Republished.failed {owner : EtcdCluster} {outcome : StartOutcome}
    {before after : EtcdKeepalive} {failed : Bool}
    (h : Republished owner outcome before after failed) (hidle : after.Idle) : failed = true := by
  obtain ⟨hnone, hcleared, hnot⟩ := h.idle_iff.1 hidle
  rcases h with ⟨hbusy, -⟩ | ⟨-, h⟩
  · rw [hnone] at hbusy
    cases hbusy
  · exact (h.fails hcleared rfl hnot).2

theorem Republished.value {owner : EtcdCluster} {outcome : StartOutcome}
    {before after : EtcdKeepalive} {failed : Bool}
    (h : Republished owner outcome before after failed) : after.value = before.value := by
  rcases h with ⟨-, rfl, -⟩ | ⟨-, h⟩
  · rfl
  · exact h.value

theorem Republished.unchecked {owner : EtcdCluster} {outcome : StartOutcome}
    {before after : EtcdKeepalive} {failed : Bool}
    (h : Republished owner outcome before after failed) (hunchecked : before.Unchecked) :
    after.Unchecked := by
  rcases h with ⟨-, rfl, -⟩ | ⟨-, h⟩
  · exact fun hrun => ⟨(hunchecked hrun).1, rfl⟩
  · exact h.unchecked

/-- The attempt of another state of the same cluster. -/
theorem Republished.of_same {owner other : EtcdCluster} (hsame : owner.SameForKeepalives other)
    {outcome : StartOutcome} {before after : EtcdKeepalive} {failed : Bool}
    (h : Republished other outcome before after failed) :
    Republished owner outcome before after failed := by
  refine h.imp_right fun ⟨hidle, h⟩ => ⟨hidle, h.addr, h.value, h.checker, h.unchecked, h.passed,
    ?_, fun hcleared hset hstarts => ?_, fun hcleared hset hnot => ?_⟩
  · rw [← hsame.conf]
    exact h.request
  · exact h.starts hcleared hset ((hsame.putStarts_iff outcome).2 hstarts)
  · exact h.fails hcleared hset (fun hstarts => hnot ((hsame.putStarts_iff outcome).1 hstarts))

theorem Idle.cleared {self : EtcdKeepalive} (h : self.Idle) (hunchecked : self.Unchecked) :
    self.Cleared := by
  refine Or.inr ⟨?_, h.1⟩
  by_contra hrun
  have hnot := (hunchecked (by simpa using hrun)).1
  rw [h.1] at hnot
  cases hnot

/-- Tried twice, a keepalive ends up idle exactly if it could put its value and both attempts
    failed. -/
theorem Republished.twice_idle_iff {owner : EtcdCluster} {outcome outcome' : StartOutcome}
    {first second third : EtcdKeepalive} {failed failed' : Bool}
    (h : Republished owner outcome first second failed) (hunchecked : first.Unchecked)
    (h' : Republished owner outcome' second third failed') :
    third.Idle ↔ first.rpcOpr = none ∧ first.Cleared ∧ ¬ owner.PutStarts outcome ∧
      ¬ owner.PutStarts outcome' := by
  rw [h'.idle_iff]
  constructor
  · rintro ⟨hnone, hcleared, hnot⟩
    have hidle : second.Idle := by
      rcases h with ⟨hbusy, rfl, -⟩ | ⟨-, h⟩
      · rw [show first.rpcOpr = none from hnone] at hbusy
        cases hbusy
      · refine ⟨h.passed.2 ?_, hnone⟩
        rcases hcleared with hchecker | ⟨-, hpassed⟩
        · exact Or.inl (h.checker.symm.trans hchecker)
        · exact h.passed.1 hpassed
    obtain ⟨hfirst, hclearedFirst, hnotFirst⟩ := h.idle_iff.1 hidle
    exact ⟨hfirst, hclearedFirst, hnotFirst, hnot⟩
  · rintro ⟨hnone, hcleared, hnotFirst, hnot⟩
    have hidle := h.idle_iff.2 ⟨hnone, hcleared, hnotFirst⟩
    exact ⟨hidle.2, hidle.cleared (h.unchecked hunchecked), hnot⟩

end EtcdKeepalive

end LibAtapp
