import LibAtapp.Etcdcli.Cluster
import LibAtapp.Library.Run

set_option autoImplicit false

/-! # Null requests

A request may not be created, and then the pointer to it is null. The watchers, the keepalives and
the cluster itself test the pointer before they set the request up and start it, but three places
use it to log its url: the startup delay of a watcher, which comes before its first request, and the
two requests for the lease, where the request could not be created. -/

namespace LibAtapp

/-! ## The watcher -/

namespace EtcdWatcher

/-- `process` is in its startup delay: it has not asked for anything yet. -/
def DelaysStart (self : EtcdWatcher) (now : Int) : Prop :=
  self.rpcOpr = none ∧ self.watcherNextRequestTime ≤ now ∧ self.watcherNextRequestTime ≤ 0 ∧
    0 < self.startupRandomDelayMin

theorem process_eq_none_iff (self : EtcdWatcher) (now : Int) (outcome : StartOutcome) :
    self.process now outcome = none ↔ self.DelaysStart now := by
  unfold process DelaysStart
  cases hrpc : self.rpcOpr with
  | some request => simp
  | none =>
    by_cases hlater : self.watcherNextRequestTime > now
    · have hnot : ¬ self.watcherNextRequestTime ≤ now := by omega
      simp [hlater, hnot]
    · have hdue : self.watcherNextRequestTime ≤ now := by omega
      by_cases hdelay : self.watcherNextRequestTime ≤ 0 ∧ self.startupRandomDelayMin > 0
      · simp [hdue, hdelay.1, hdelay.2, hlater]
      · have hno : ¬ (self.watcherNextRequestTime ≤ now ∧ self.watcherNextRequestTime ≤ 0 ∧
            0 < self.startupRandomDelayMin) := fun h => hdelay h.2
        rw [if_neg (by simp), if_neg hlater, if_neg hdelay]
        refine ⟨fun hnone => ?_, fun h => absurd h.2.2 hdelay⟩
        split at hnone <;> exact absurd hnone (Option.some_ne_none _)

end EtcdWatcher

/-! ## The cluster -/

namespace EtcdCluster

variable (cluster : EtcdCluster) (now : Int) (outcome : StartOutcome)

/-- `create_request_lease_grant` gets to its request. -/
structure GrantsLease : Prop where
  multi : cluster.curlMulti = true
  host : cluster.conf.pathNode ≠ []
  opened : cluster.closing = false
  enabled : cluster.enableLease = true
  due : cluster.conf.keepaliveNextUpdateTime < now

/-- `create_request_lease_keepalive` gets to its request. -/
structure KeepsLease : Prop extends GrantsLease cluster now where
  lease : cluster.conf.lease ≠ 0

variable {cluster now} in
/-- A request for the lease that is not reached is not created. -/
theorem not_grantsLease (h : ¬ cluster.GrantsLease now) :
    (!cluster.curlMulti ∨ cluster.conf.pathNode = []) ∨ (cluster.closing ∨ !cluster.enableLease) ∨
      now ≤ cluster.conf.keepaliveNextUpdateTime := by
  by_contra hall
  simp only [Bool.not_eq_true', not_or, Bool.not_eq_false, Bool.not_eq_true] at hall
  obtain ⟨⟨hmulti, hhost⟩, ⟨hopened, henabled⟩, hnow⟩ := hall
  exact h ⟨hmulti, hhost, hopened, henabled, by omega⟩

theorem createRequestLeaseGrant_eq_none_iff :
    cluster.createRequestLeaseGrant now outcome = none ↔
      cluster.GrantsLease now ∧ outcome = .createFailed := by
  unfold createRequestLeaseGrant
  by_cases hgrants : cluster.GrantsLease now
  · have hnow : ¬ now ≤ cluster.conf.keepaliveNextUpdateTime := by
      have hdue := hgrants.due
      omega
    cases outcome <;>
      simp [hgrants, hgrants.multi, hgrants.host, hgrants.opened, hgrants.enabled, hnow,
        HttpRequestPtr.create, HttpRequestPtr.deref]
  · refine ⟨fun hnone => absurd hnone ?_, fun h => absurd h.1 hgrants⟩
    rcases not_grantsLease hgrants with h | h | h
    · rw [if_pos h]
      exact Option.some_ne_none _
    · rw [if_pos h]
      split <;> exact Option.some_ne_none _
    · rw [if_pos h]
      repeat' split
      all_goals exact Option.some_ne_none _

theorem createRequestLeaseKeepalive_eq_none_iff :
    cluster.createRequestLeaseKeepalive now outcome = none ↔
      cluster.KeepsLease now ∧ outcome = .createFailed := by
  unfold createRequestLeaseKeepalive
  by_cases hlease : cluster.conf.lease = 0
  · refine ⟨fun hnone => absurd hnone ?_, fun h => absurd hlease h.1.lease⟩
    rw [if_pos (Or.inr (Or.inl hlease))]
    exact Option.some_ne_none _
  by_cases hgrants : cluster.GrantsLease now
  · have hnow : ¬ now ≤ cluster.conf.keepaliveNextUpdateTime := by
      have hdue := hgrants.due
      omega
    have hkeeps : cluster.KeepsLease now := ⟨hgrants, hlease⟩
    cases outcome <;>
      simp [hkeeps, hlease, hgrants.multi, hgrants.host, hgrants.opened, hgrants.enabled, hnow,
        HttpRequestPtr.create, HttpRequestPtr.deref]
  · refine ⟨fun hnone => absurd hnone ?_, fun h => absurd h.1.toGrantsLease hgrants⟩
    rcases not_grantsLease hgrants with h | h | h
    · rw [if_pos (h.imp_right Or.inr)]
      exact Option.some_ne_none _
    · rw [if_pos h]
      split <;> exact Option.some_ne_none _
    · rw [if_pos h]
      repeat' split
      all_goals exact Option.some_ne_none _

theorem createRequestMemberUpdate_ne_none (draw : Nat) :
    cluster.createRequestMemberUpdate now draw outcome ≠ none := by
  unfold createRequestMemberUpdate
  dsimp only
  split
  · exact Option.some_ne_none _
  split
  · exact Option.some_ne_none _
  split
  · exact Option.some_ne_none _
  split
  · split <;> exact Option.some_ne_none _
  · cases outcome with
    | createFailed => exact Option.some_ne_none _
    | startFailed => exact Option.some_ne_none _
    | started => exact Option.some_ne_none _

/-! ## Removed paths -/

theorem deleteKeepaliveDeletor_eq (deletor : KeepaliveDeletor) :
    cluster.deleteKeepaliveDeletor deletor =
      some { cluster with freed := deletor.addr :: cluster.freed } := by
  unfold deleteKeepaliveDeletor
  cases hrpc : deletor.rpc with
  | none => rfl
  | some request => rfl

/-- The deletor goes away, waits for another try, or its request is made. -/
theorem deleteKeepalivePath_isSome (deletor : KeepaliveDeletor) (delayDelete : Bool) :
    (cluster.deleteKeepalivePath deletor delayDelete outcome).isSome := by
  unfold deleteKeepalivePath
  dsimp only
  by_cases hdelay : delayDelete = true
  · rw [if_pos hdelay]
    rfl
  rw [if_neg hdelay]
  by_cases htries : deletor.retryTimes + 1 >
      if cluster.conf.keepaliveRetryTimes = 0 then 8 else cluster.conf.keepaliveRetryTimes
  · rw [if_pos htries, deleteKeepaliveDeletor_eq]
    rfl
  · rw [if_neg htries]
    cases hrpc : cluster.createRequestKvDel deletor.path (ascii "+1") outcome with
    | none => rfl
    | some request => cases outcome <;> rfl

theorem removeKeepalivePath_ne_none (deletor : KeepaliveDeletor) (delayDelete : Bool) :
    cluster.removeKeepalivePath deletor delayDelete outcome ≠ none := by
  unfold removeKeepalivePath
  dsimp only
  obtain ⟨after, hafter⟩ := Option.isSome_iff_exists.1 (deleteKeepalivePath_isSome
    { cluster with keepaliveDeletors := cluster.keepaliveDeletors.erase deletor.path } outcome
    deletor delayDelete)
  rw [hafter]
  cases (cluster.keepaliveDeletors.lookup deletor.path).filter
      (fun old => old.addr ≠ deletor.addr) with
  | none => exact Option.some_ne_none _
  | some old =>
    show after.deleteKeepaliveDeletor old ≠ none
    rw [deleteKeepaliveDeletor_eq]
    exact Option.some_ne_none _

/-! ## Keepalives that are tried again -/

/-- A keepalive that is queued for a retry turns the lease on, and its lease is asked for. -/
structure TurnsLeaseOn (keepalive : Nat) : Prop where
  disabled : cluster.enableLease = false
  fresh : keepalive ∉ cluster.keepaliveRetryActors
  grants : { cluster with enableLease := true }.GrantsLease now

theorem addRetryKeepalive_eq_none_iff (keepalive : Nat) :
    cluster.addRetryKeepalive keepalive now outcome = none ↔
      cluster.TurnsLeaseOn now keepalive ∧ outcome = .createFailed := by
  unfold addRetryKeepalive
  by_cases hclosing : cluster.closing = true
  · rw [if_pos hclosing]
    refine ⟨fun h => absurd h (Option.some_ne_none _), fun h => ?_⟩
    have hopened : cluster.closing = false := h.1.grants.opened
    rw [hclosing] at hopened
    cases hopened
  by_cases hqueued : keepalive ∈ cluster.keepaliveRetryActors
  · rw [if_neg hclosing, if_pos hqueued]
    exact ⟨fun h => absurd h (Option.some_ne_none _), fun h => absurd hqueued h.1.fresh⟩
  rw [if_neg hclosing, if_neg hqueued, setFlagEnableLease]
  by_cases henabled : cluster.enableLease = true
  · rw [if_pos henabled]
    refine ⟨fun h => absurd h (Option.some_ne_none _), fun h => ?_⟩
    have hdisabled := h.1.disabled
    rw [henabled] at hdisabled
    cases hdisabled
  · rw [if_neg henabled]
    have hiff := createRequestLeaseGrant_eq_none_iff { cluster with enableLease := true } now outcome
    cases hgrant : ({ cluster with enableLease := true } : EtcdCluster).createRequestLeaseGrant now
        outcome with
    | none =>
      obtain ⟨hgrants, houtcome⟩ := hiff.1 hgrant
      exact ⟨fun _ => ⟨⟨by simpa using henabled, hqueued, hgrants⟩, houtcome⟩, fun _ => rfl⟩
    | some result =>
      refine ⟨fun h => absurd h (Option.some_ne_none _), fun h => ?_⟩
      rw [hgrant] at hiff
      exact absurd (hiff.2 ⟨h.1.grants, h.2⟩) (Option.some_ne_none _)

/-- Requests for keys can be created. -/
structure Ready : Prop where
  multi : cluster.curlMulti = true
  host : cluster.conf.pathNode ≠ []
  opened : cluster.closing = false

variable {cluster} in
theorem createRequest_of_ready (h : cluster.Ready) (api : Bytes) (body : RequestBody) :
    cluster.createRequest api body outcome =
      HttpRequestPtr.create ⟨cluster.conf.pathNode ++ api, body, cluster.getHttpTimeoutMs⟩
        outcome := by
  rw [createRequest, if_neg]
  simp [h.multi, h.host, h.opened]

end EtcdCluster

/-! ## The keepalives -/

namespace EtcdKeepalive

variable (self : EtcdKeepalive) (owner : EtcdCluster) (now : Int)
  (outcome leaseOutcome : StartOutcome)

/-- The check is asked for or the value is put, and that fails, also for want of a lease. -/
def AskFails : Prop :=
  if self.isCheckRun = false then outcome ≠ .started
  else self.isCheckPassed = true ∧ self.isValueChanged = true ∧
    (owner.conf.lease = 0 ∨ outcome ≠ .started)

/-- The request that is created, and the one that is not: that calls for a retry. -/
theorem createProcessRequest_eq (hidle : self.rpcOpr = none) :
    ∃ (after : EtcdKeepalive) (retry : Bool),
      self.createProcessRequest owner outcome = some (after, retry) ∧ after.addr = self.addr ∧
      (after.rpcOpr.isSome → retry = false) ∧
      (owner.Ready → ((retry = true ∨ after.rpcOpr.isSome ∧ outcome = .startFailed) ↔
        self.AskFails owner outcome)) := by
  unfold createProcessRequest AskFails
  by_cases hrun : self.isCheckRun = false
  · rw [if_pos hrun, if_pos hrun]
    dsimp only
    cases hreq : owner.createRequestKvGet self.path [] outcome with
    | none =>
      refine ⟨_, _, rfl, rfl, fun h => absurd h (by simp [hidle]), fun hready => ?_⟩
      rw [EtcdCluster.createRequestKvGet, EtcdCluster.createRequest_of_ready _ hready] at hreq
      cases outcome <;> simp_all [HttpRequestPtr.create]
    | some request =>
      refine ⟨_, _, rfl, rfl, fun _ => rfl, fun hready => ?_⟩
      rw [EtcdCluster.createRequestKvGet, EtcdCluster.createRequest_of_ready _ hready] at hreq
      cases outcome <;> simp_all [HttpRequestPtr.create]
  rw [if_neg hrun, if_neg hrun]
  by_cases hput : self.isCheckRun = true ∧ self.isCheckPassed = true ∧ self.isValueChanged = true
  · rw [if_pos hput]
    dsimp only
    cases hreq : owner.createRequestKvSet self.path self.value outcome with
    | none =>
      refine ⟨_, _, rfl, rfl, fun h => absurd h (by simp [hidle]), fun hready => ?_⟩
      by_cases hlease : owner.conf.lease = 0
      · simp [hput, hlease]
      · rw [EtcdCluster.createRequestKvSet, if_neg hlease,
          EtcdCluster.createRequest_of_ready _ hready] at hreq
        cases outcome <;> simp_all [HttpRequestPtr.create]
    | some request =>
      refine ⟨_, _, rfl, rfl, fun _ => rfl, fun hready => ?_⟩
      by_cases hlease : owner.conf.lease = 0
      · rw [EtcdCluster.createRequestKvSet, if_pos hlease] at hreq
        cases hreq
      · rw [EtcdCluster.createRequestKvSet, if_neg hlease,
          EtcdCluster.createRequest_of_ready _ hready] at hreq
        cases outcome <;> simp_all [HttpRequestPtr.create]
  · rw [if_neg hput]
    refine ⟨_, _, rfl, rfl, fun _ => rfl, fun _ => ?_⟩
    have hnot : ¬ (self.isCheckPassed = true ∧ self.isValueChanged = true) :=
      fun h => hput ⟨by simpa using hrun, h⟩
    simp only [hidle, Option.isSome_none, Bool.false_eq_true, false_and, or_self, false_iff]
    exact fun h => hnot ⟨h.1, h.2.1⟩

/-- A request of the keepalive is due and fails. -/
def RequestFails : Prop :=
  self.rpcOpr = none ∧
    if self.checker = true ∧ self.isCheckRun = false then outcome ≠ .started
    else (self.checker = false ∨ self.isCheckPassed = true) ∧ self.isValueChanged = true ∧
      (owner.conf.lease = 0 ∨ outcome ≠ .started)

/-- `process` ends by queueing the keepalive for a retry, or not. -/
theorem process_eq (hidle : self.rpcOpr = none) :
    ∃ (after : EtcdKeepalive) (retry : Bool), after.addr = self.addr ∧
      self.process owner now outcome leaseOutcome =
        (if retry then (owner.addRetryKeepalive after.addr now leaseOutcome).bind
            fun result => some (after, result.1)
          else some (after, owner)) ∧
      (owner.Ready → (retry = true ↔ self.RequestFails owner outcome)) := by
  unfold process
  rw [if_neg (by simp [hidle])]
  dsimp only
  generalize hmid : (if (!self.checker) = true then
      { self with isActived := false, isCheckRun := true, isCheckPassed := true,
                  retryTimes := self.retryTimes + 1 }
    else { self with isActived := false }) = mid
  have haddr : mid.addr = self.addr := by
    rw [← hmid]
    split <;> rfl
  have hrpc : mid.rpcOpr = none := by
    rw [← hmid]
    split <;> exact hidle
  have hfails : mid.AskFails owner outcome ↔ self.RequestFails owner outcome := by
    rw [← hmid, RequestFails, AskFails]
    cases hchecker : self.checker <;> simp [hidle]
  obtain ⟨after, retry, hcreate, hafter, hfresh, hiff⟩ :=
    mid.createProcessRequest_eq owner outcome hrpc
  rw [hfails] at hiff
  rw [hcreate]
  cases hreq : after.rpcOpr with
  | none =>
    refine ⟨after, retry, hafter.trans haddr, ?_, fun hready => ?_⟩
    · cases retry <;> simp [hreq]
    · simpa [hreq] using hiff hready
  | some request =>
    have hkept := hfresh (by simp [hreq])
    subst hkept
    by_cases hstart : outcome = .startFailed
    · refine ⟨{ after with rpcOpr := none }, true, hafter.trans haddr, ?_, fun hready => ?_⟩
      · simp [hreq, hstart, HttpRequestPtr.deref]
      · simpa [hreq, hstart] using hiff hready
    · refine ⟨after, false, hafter.trans haddr, ?_, fun hready => ?_⟩
      · have hsame : { after with rpcOpr := some request } = after := by rw [← hreq]
        simp [hreq, hstart, HttpRequestPtr.deref, hsame]
      · simpa [hreq, hstart] using hiff hready

theorem process_eq_none_iff :
    self.process owner now outcome leaseOutcome = none ↔
      self.RequestFails owner outcome ∧ owner.TurnsLeaseOn now self.addr ∧
        leaseOutcome = .createFailed := by
  by_cases hidle : self.rpcOpr = none
  · obtain ⟨after, retry, haddr, hprocess, hiff⟩ :=
      self.process_eq owner now outcome leaseOutcome hidle
    have hadd := owner.addRetryKeepalive_eq_none_iff now leaseOutcome self.addr
    rw [hprocess, haddr]
    cases retry with
    | false =>
      refine ⟨fun h => absurd h (Option.some_ne_none _), fun ⟨hfails, hturns, _⟩ => ?_⟩
      have hready : owner.Ready := ⟨hturns.grants.multi, hturns.grants.host, hturns.grants.opened⟩
      exact absurd ((hiff hready).2 hfails) Bool.false_ne_true
    | true =>
      rw [if_pos rfl, Option.bind_eq_none_iff]
      constructor
      · intro h
        cases hres : owner.addRetryKeepalive self.addr now leaseOutcome with
        | some result => exact absurd (h result hres) (Option.some_ne_none _)
        | none =>
          obtain ⟨hturns, houtcome⟩ := hadd.1 hres
          have hready : owner.Ready :=
            ⟨hturns.grants.multi, hturns.grants.host, hturns.grants.opened⟩
          exact ⟨(hiff hready).1 rfl, hturns, houtcome⟩
      · rintro ⟨-, hturns, houtcome⟩ result hres
        rw [hadd.2 ⟨hturns, houtcome⟩] at hres
        cases hres
  · unfold process
    rw [if_pos (Option.isSome_iff_ne_none.2 hidle)]
    exact ⟨fun h => absurd h (Option.some_ne_none _), fun h => absurd h.1.1 hidle⟩

end EtcdKeepalive

/-! ## Runs -/

/-- A cluster with its watchers and keepalives. -/
structure EtcdActors where
  cluster : EtcdCluster := {}
  watchers : Nat → EtcdWatcher
  keepalives : Nat → EtcdKeepalive

/-- A call that creates requests, or anything else that changes the actors. -/
inductive ActorsStep where
  | watcherProcess (watcher : Nat) (now : Int) (outcome : StartOutcome)
  | keepaliveProcess (keepalive : Nat) (now : Int) (outcome leaseOutcome : StartOutcome)
  | leaseGrant (now : Int) (outcome : StartOutcome)
  | leaseKeepalive (now : Int) (outcome : StartOutcome)
  | memberUpdate (now : Int) (draw : Nat) (outcome : StartOutcome)
  | removeKeepalivePath (deletor : KeepaliveDeletor) (delayDelete : Bool) (outcome : StartOutcome)
  | other (change : EtcdActors → EtcdActors)

namespace EtcdActors

/-- One step, unless it uses a null request. -/
def step (actors : EtcdActors) : ActorsStep → Option EtcdActors
  | .watcherProcess w now outcome => do
    let watcher ← (actors.watchers w).process now outcome
    return { actors with watchers := Function.update actors.watchers w watcher }
  | .keepaliveProcess k now outcome leaseOutcome => do
    let (keepalive, cluster) ←
      (actors.keepalives k).process actors.cluster now outcome leaseOutcome
    return { actors with cluster, keepalives := Function.update actors.keepalives k keepalive }
  | .leaseGrant now outcome => do
    let (cluster, _) ← actors.cluster.createRequestLeaseGrant now outcome
    return { actors with cluster }
  | .leaseKeepalive now outcome => do
    let (cluster, _) ← actors.cluster.createRequestLeaseKeepalive now outcome
    return { actors with cluster }
  | .memberUpdate now draw outcome => do
    let (cluster, _) ← actors.cluster.createRequestMemberUpdate now draw outcome
    return { actors with cluster }
  | .removeKeepalivePath deletor delayDelete outcome => do
    let cluster ← actors.cluster.removeKeepalivePath deletor delayDelete outcome
    return { actors with cluster }
  | .other change => some (change actors)

/-- The step logs the url of a request that does not exist. -/
def LogsNullUrl (actors : EtcdActors) : ActorsStep → Prop
  | .watcherProcess w now _ => (actors.watchers w).DelaysStart now
  | .keepaliveProcess k now outcome leaseOutcome =>
    (actors.keepalives k).RequestFails actors.cluster outcome ∧
      actors.cluster.TurnsLeaseOn now (actors.keepalives k).addr ∧ leaseOutcome = .createFailed
  | .leaseGrant now outcome => actors.cluster.GrantsLease now ∧ outcome = .createFailed
  | .leaseKeepalive now outcome => actors.cluster.KeepsLease now ∧ outcome = .createFailed
  | .memberUpdate .. => False
  | .removeKeepalivePath .. => False
  | .other _ => False

/-- The rest of a step uses no request. -/
theorem bind_some_eq_none_iff {α β : Type} {o : Option α} {f : α → β} :
    (o.bind fun a => some (f a)) = none ↔ o = none := by
  cases o <;> simp

theorem step_eq_none_iff (actors : EtcdActors) (s : ActorsStep) :
    actors.step s = none ↔ actors.LogsNullUrl s := by
  cases s with
  | watcherProcess w now outcome =>
    exact bind_some_eq_none_iff.trans ((actors.watchers w).process_eq_none_iff now outcome)
  | keepaliveProcess k now outcome leaseOutcome =>
    exact bind_some_eq_none_iff.trans
      ((actors.keepalives k).process_eq_none_iff actors.cluster now outcome leaseOutcome)
  | leaseGrant now outcome =>
    exact bind_some_eq_none_iff.trans
      (actors.cluster.createRequestLeaseGrant_eq_none_iff now outcome)
  | leaseKeepalive now outcome =>
    exact bind_some_eq_none_iff.trans
      (actors.cluster.createRequestLeaseKeepalive_eq_none_iff now outcome)
  | memberUpdate now draw outcome =>
    exact bind_some_eq_none_iff.trans
      (iff_false_intro (actors.cluster.createRequestMemberUpdate_ne_none now outcome draw))
  | removeKeepalivePath deletor delayDelete outcome =>
    exact bind_some_eq_none_iff.trans
      (iff_false_intro (actors.cluster.removeKeepalivePath_ne_none outcome deletor delayDelete))
  | other change => exact iff_false_intro (Option.some_ne_none _)

/-- A step of a run that has not used a null request yet. -/
def stepOption (actors : Option EtcdActors) (s : ActorsStep) : Option EtcdActors :=
  actors.bind fun actors => actors.step s

/-- **No null request is used** in a run exactly if no watcher is in its startup delay when it is
    processed, and every request for the lease that is reached can be created. -/
theorem always_ne_none_iff (actors : EtcdActors) (steps : List ActorsStep) :
    Run.Always stepOption (· ≠ none) (some actors) steps ↔
      Run.StepsMeet stepOption (fun before s => ∀ a, before = some a → ¬ a.LogsNullUrl s)
        (some actors) steps := by
  have hstep : ∀ (before : Option EtcdActors) (s : ActorsStep), True → before ≠ none → True →
      (stepOption before s ≠ none ↔ ∀ a, before = some a → ¬ a.LogsNullUrl s) := by
    intro before s _ hbefore _
    obtain ⟨a, rfl⟩ := Option.ne_none_iff_exists'.1 hbefore
    simp only [stepOption, Option.bind_some, ne_eq, step_eq_none_iff, Option.some.injEq,
      forall_eq']
  exact Run.always_iff_stepsMeet stepOption (fun _ _ _ _ _ _ => trivial) hstep trivial
    (Option.some_ne_none _) (Run.stepsMeet_of_forall _ (fun _ _ => trivial) _ _)

/-- New actors, whose watchers are to delay their start. -/
def delayedActors : EtcdActors where
  watchers _ := { path := ascii "/", rangeEnd := [], startupRandomDelayMin := 1000 }
  keepalives k := { addr := k, path := ascii "/" }

/-- The first call of a watcher with a startup delay logs the url of its request. -/
theorem not_always_ne_none_delayed :
    ¬ Run.Always stepOption (· ≠ none) (some delayedActors) [.watcherProcess 0 1 .started] :=
  fun h => h _ List.prefix_rfl rfl

end EtcdActors

end LibAtapp
