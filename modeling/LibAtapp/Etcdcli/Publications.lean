import LibAtapp.Etcdcli.KeepaliveProcess
import LibAtapp.Library.Run

set_option autoImplicit false

/-! # Publishing the values of keepalives

A cluster with its keepalives, whose lease comes and goes and whose requests end in any way. Who has
to publish a value again moves between `is_value_changed`, the request in flight, the list of
keepalives to try again and the lease. A value is lost where a keepalive that is tried again from
the list gets no request: it is not queued again, because it is still in the list, which is cleared
behind the loop. -/

namespace LibAtapp

/-- What comes from outside when a keepalive is activated. -/
structure Attempt where
  now : Int := 0
  outcome : StartOutcome := .started
  leaseOutcome : StartOutcome := .started

/-- A cluster and its keepalives, by address. `published` is the value and lease that were last put
    successfully. -/
structure Publications where
  cluster : EtcdCluster := {}
  keepalives : Nat → EtcdKeepalive
  published : Nat → Option (Bytes × Int) := fun _ => none

namespace Publications

/-- A keepalive is changed. -/
def set (s : Publications) (k : Nat) (keepalive : EtcdKeepalive) : Publications :=
  { s with keepalives := Function.update s.keepalives k keepalive }

/-- `active` -/
def active (s : Publications) (k : Nat) (attempt : Attempt) : Option Publications := do
  let (keepalive, cluster) ← { s.keepalives k with isActived := true }.process s.cluster
    attempt.now attempt.outcome attempt.leaseOutcome
  return { s with cluster, keepalives := Function.update s.keepalives k keepalive }

/-- The body of the loops over keepalives: `reset_value_changed` and `active`. -/
def republish (attempts : Nat → Attempt) (s : Publications) (k : Nat) : Option Publications :=
  (s.set k (s.keepalives k).resetValueChanged).active k (attempts k)

/-- The loop of `retry_pending_actions` over the keepalives. -/
def retryKeepalives (s : Publications) (attempts : Nat → Attempt) : Option Publications :=
  if s.cluster.conf.lease ≠ 0 then
    s.cluster.keepaliveRetryActors.foldlM (republish attempts) s
  else some s

/-- `retry_pending_actions` -/
def retryPendingActions (s : Publications) (attempts : Nat → Attempt)
    (deletes : Bytes → StartOutcome) : Option Publications := do
  let s ← s.retryKeepalives attempts
  let cluster ← s.cluster.retryPendingActions deletes
  return { s with cluster }

/-- What the requests of one `set_lease` meet. -/
structure LeaseAttempts where
  attempts : Nat → Attempt
  retries : Nat → Attempt
  deletes : Bytes → StartOutcome

/-- `set_lease` -/
def setLease (s : Publications) (lease : Int) (forceActiveKeepalives : Bool)
    (outside : LeaseAttempts) : Option Publications :=
  let oldLease := s.cluster.conf.lease
  let s := { s with cluster := { s.cluster with conf := { s.cluster.conf with lease } } }
  if oldLease = lease ∧ forceActiveKeepalives = false ∧ lease ≠ 0 then
    s.retryPendingActions outside.retries outside.deletes
  else if lease ≠ 0 then do
    let s := { s with cluster := { s.cluster with keepaliveRetryActors := [] } }
    let s ← s.cluster.keepaliveActors.foldlM (republish outside.attempts) s
    s.retryPendingActions outside.retries outside.deletes
  else some s

/-- `libcurl_callback_on_lease_keepalive` for an answer, with or without a TTL. The request for a
    new lease is left out. -/
def onLeaseKeepalive (s : Publications) (isGrant ttl : Bool) (lease : Int)
    (outside : LeaseAttempts) : Option Publications :=
  if !ttl then
    if isGrant then some s else s.setLease 0 isGrant outside
  else if lease = 0 then some s
  else
    let s := if !s.cluster.running ∧ !s.cluster.closing then
      { s with cluster := { s.cluster with running := true } } else s
    s.setLease lease isGrant outside

/-- `set_value` -/
def setValue (s : Publications) (k : Nat) (value : Bytes) (attempt : Attempt) :
    Option Publications :=
  if (s.keepalives k).value ≠ value then
    let s := s.set k { s.keepalives k with value, isValueChanged := true }
    if s.cluster.running ∧ s.cluster.conf.lease ≠ 0 then s.active k attempt else some s
  else some s

/-- `add_keepalive` -/
def addKeepalive (s : Publications) (k : Nat) (attempt : Attempt) : Option Publications := do
  let (cluster, added) ←
    s.cluster.addKeepalive k (s.keepalives k).path attempt.now attempt.leaseOutcome
  let s := { s with cluster }
  if added ∧ s.cluster.running ∧ s.cluster.conf.lease ≠ 0 then s.active k attempt else some s

/-- `add_retry_keepalive` after a failure. -/
def addRetry (s : Publications) (k : Nat) (attempt : Attempt) : Option Publications := do
  let (cluster, _) ← s.cluster.addRetryKeepalive k attempt.now attempt.leaseOutcome
  return { s with cluster }

/-- `libcurl_callback_on_get_data`. Without an answer the request failed, or its body has no list;
    else the answer is the verdict of the check function. -/
def onGetData (s : Publications) (k : Nat) (answer : Option Bool) (attempt : Attempt) :
    Option Publications :=
  let keepalive :=
    { s.keepalives k with rpcOpr := none, retryTimes := (s.keepalives k).retryTimes + 1 }
  match answer with
  | none => (s.set k keepalive).addRetry k attempt
  | some verdict =>
    let passed := if !keepalive.checker then true else verdict
    (s.set k { keepalive with isCheckRun := true, isCheckPassed := passed }).active k attempt

/-- `libcurl_callback_on_set_data` for a put of this value and lease. -/
def onSetData (s : Publications) (k : Nat) (value : Bytes) (lease : Int) (success : Bool)
    (attempt : Attempt) : Option Publications :=
  let keepalive := { s.keepalives k with rpcOpr := none }
  if success then
    ({ s with published := Function.update s.published k (some (value, lease)) }.set k
      { keepalive with hasData := true }).active k attempt
  else (s.set k { keepalive with isValueChanged := true }).addRetry k attempt

/-- The request of a keepalive is complete. -/
def complete (s : Publications) (k : Nat) (success : Bool) (verdict : Option Bool)
    (attempt : Attempt) : Option Publications :=
  match (s.keepalives k).rpcOpr with
  | none => some s
  | some request =>
    match request.body with
    | .kvGet _ => s.onGetData k (if success then verdict else none) attempt
    | .kvSet _ value lease => s.onSetData k value lease success attempt
    | _ => some s

/-- `close` of the cluster. -/
def close (s : Publications) : Option Publications := do
  let cluster ← s.cluster.close
  return { s with
    cluster
    keepalives := fun k =>
      if k ∈ s.cluster.keepaliveActors then (s.keepalives k).close false else s.keepalives k }

end Publications

/-- What happens to the keepalives of a cluster. -/
inductive PublicationsStep where
  | addKeepalive (keepalive : Nat) (attempt : Attempt)
  /-- The value of a registered keepalive is set. -/
  | setValue (keepalive : Nat) (value : Bytes) (attempt : Attempt)
  | retryPendingActions (attempts : Nat → Attempt) (deletes : Bytes → StartOutcome)
  | leaseKeepalive (isGrant ttl : Bool) (lease : Int) (outside : Publications.LeaseAttempts)
  /-- The request of a keepalive is complete. -/
  | complete (keepalive : Nat) (success : Bool) (verdict : Option Bool) (attempt : Attempt)
  | close
  /-- The rest of the cluster sets its configuration and requests, and turns running. -/
  | other (curlMulti running : Bool) (conf : ClusterConf)
      (rpcUpdateMembers rpcKeepalive : HttpRequestPtr)

namespace Publications

/-- One step, unless it uses a null request. -/
def stepOption (s : Publications) : PublicationsStep → Option Publications
  | .addKeepalive k attempt => s.addKeepalive k attempt
  | .setValue k value attempt =>
    if k ∈ s.cluster.keepaliveActors then s.setValue k value attempt else some s
  | .retryPendingActions attempts deletes => s.retryPendingActions attempts deletes
  | .leaseKeepalive isGrant ttl lease outside => s.onLeaseKeepalive isGrant ttl lease outside
  | .complete k success verdict attempt => s.complete k success verdict attempt
  | .close => s.close
  | .other curlMulti running conf rpcUpdateMembers rpcKeepalive =>
    some { s with cluster := { s.cluster with
      curlMulti, rpcUpdateMembers, rpcKeepalive
      running := s.cluster.running || running
      conf := { conf with lease := s.cluster.conf.lease } } }

/-- A step that would use a null request does not happen. -/
def step (s : Publications) (i : PublicationsStep) : Publications := (s.stepOption i).getD s

/-! ## What holds of every run -/

/-- The request of a keepalive asks for the check, or puts a value. If the value or the lease is
    another one since, it is marked as changed. -/
structure ActorOk (lease : Int) (k : Nat) (keepalive : EtcdKeepalive) : Prop where
  addr : keepalive.addr = k
  unchecked : keepalive.Unchecked
  request : ∀ req, keepalive.rpcOpr = some req →
    keepalive.isCheckRun = false ∧ (∃ range, req.body = .kvGet range) ∨
      ∃ key value putLease, req.body = .kvSet key value putLease ∧
        (keepalive.isValueChanged = true ∨
          value = keepalive.value ∧ (putLease = lease ∨ lease = 0))

/-- The keepalive was never activated. -/
structure Fresh (keepalive : EtcdKeepalive) : Prop where
  idle : keepalive.rpcOpr = none
  run : keepalive.isCheckRun = false
  passed : keepalive.isCheckPassed = false
  changed : keepalive.isValueChanged = true

/-- The registered keepalives and those to try again. -/
structure Registry (s : Publications) : Prop where
  fresh : ∀ k, k ∉ s.cluster.keepaliveActors → Fresh (s.keepalives k)
  running : s.cluster.conf.lease ≠ 0 → s.cluster.closing = false → s.cluster.running = true
  closing : s.cluster.closing = true → s.cluster.keepaliveActors = []
  enabled : s.cluster.keepaliveActors ≠ [] → s.cluster.enableLease = true
  registered : ∀ k ∈ s.cluster.keepaliveRetryActors, k ∈ s.cluster.keepaliveActors
  nodup : s.cluster.keepaliveActors.Nodup
  retryNodup : s.cluster.keepaliveRetryActors.Nodup

structure Inv (s : Publications) : Prop extends Registry s where
  actor : ∀ k, ActorOk s.cluster.conf.lease k (s.keepalives k)

/-- A keepalive that has passed its check and whose value and lease are not those that were put
    last has a request in flight or is tried again. -/
def Covered (s : Publications) (k : Nat) : Prop :=
  (s.keepalives k).isCheckPassed = true →
    s.published k ≠ some ((s.keepalives k).value, s.cluster.conf.lease) →
    (s.keepalives k).rpcOpr.isSome ∨ k ∈ s.cluster.keepaliveRetryActors

/-- **No value is lost** of a registered keepalive while a lease is held. -/
def NothingLost (s : Publications) : Prop :=
  s.cluster.closing = false → s.cluster.conf.lease ≠ 0 →
    ∀ k ∈ s.cluster.keepaliveActors, s.Covered k

/-- An idle keepalive that may put its value has to put it with this lease. -/
def Unpublished (s : Publications) (lease : Int) (k : Nat) : Prop :=
  (s.keepalives k).rpcOpr = none ∧ (s.keepalives k).Cleared ∧
    s.published k ≠ some ((s.keepalives k).value, lease)

/-- Every unpublished keepalive that is tried again from the list gets a request, in the first or,
    where there are two, the second attempt. -/
def RetriesStart (s : Publications) : PublicationsStep → Prop
  | .retryPendingActions attempts _ => s.cluster.conf.lease ≠ 0 →
    ∀ k ∈ s.cluster.keepaliveRetryActors, s.Unpublished s.cluster.conf.lease k →
      s.cluster.Ready ∧ (attempts k).outcome = .started
  | .leaseKeepalive isGrant ttl lease outside => ttl = true → lease ≠ 0 →
    if s.cluster.conf.lease = lease ∧ isGrant = false then
      ∀ k ∈ s.cluster.keepaliveRetryActors, s.Unpublished lease k →
        s.cluster.Ready ∧ (outside.retries k).outcome = .started
    else
      ∀ k ∈ s.cluster.keepaliveActors, s.Unpublished lease k →
        s.cluster.Ready ∧
          ((outside.attempts k).outcome = .started ∨ (outside.retries k).outcome = .started)
  | _ => True

/-! ## Activating keepalives -/

/-- What `active` makes of a keepalive. -/
def Activated (owner : EtcdCluster) (outcome : StartOutcome) (before after : EtcdKeepalive)
    (failed : Bool) : Prop :=
  before.rpcOpr.isSome ∧ after = { before with isActived := true } ∧ failed = false ∨
    before.rpcOpr = none ∧ EtcdKeepalive.Processed owner outcome before after failed

/-- The keepalive can be activated: its cluster is open and has the lease turned on. -/
structure Activable (s : Publications) (k : Nat) : Prop where
  opened : s.cluster.closing = false
  enabled : s.cluster.enableLease = true
  addr : (s.keepalives k).addr = k
  unchecked : (s.keepalives k).Unchecked

theorem active_spec {s : Publications} {k : Nat} (h : s.Activable k) (attempt : Attempt) :
    ∃ after failed,
      s.active k attempt =
        some { s.set k after with cluster := if failed then s.cluster.queue k else s.cluster } ∧
      Activated s.cluster attempt.outcome (s.keepalives k) after failed := by
  unfold active
  cases hrpc : (s.keepalives k).rpcOpr with
  | some request =>
    refine ⟨{ s.keepalives k with isActived := true }, false, ?_, Or.inl ⟨by rw [hrpc]; rfl, rfl, rfl⟩⟩
    rw [EtcdKeepalive.process, if_pos (by simp [hrpc])]
    rfl
  | none =>
    obtain ⟨after, failed, hprocess, hprocessed⟩ :=
      EtcdKeepalive.process_processed { s.keepalives k with isActived := true } hrpc
        h.unchecked h.opened h.enabled attempt.now attempt.outcome attempt.leaseOutcome
    refine ⟨after, failed, ?_, Or.inr ⟨hrpc, ?_⟩⟩
    · rw [hprocess, h.addr]
      rfl
    · exact ⟨hprocessed.addr, hprocessed.value, hprocessed.checker, hprocessed.unchecked,
        hprocessed.passed, hprocessed.request, hprocessed.starts, hprocessed.fails⟩

theorem republish_spec {s : Publications} {k : Nat} (h : s.Activable k) (attempts : Nat → Attempt) :
    ∃ after failed,
      republish attempts s k =
        some { s.set k after with cluster := if failed then s.cluster.queue k else s.cluster } ∧
      (s.keepalives k).Republished s.cluster (attempts k).outcome after failed := by
  have hset : (s.set k (s.keepalives k).resetValueChanged).keepalives k =
      (s.keepalives k).resetValueChanged := Function.update_self ..
  obtain ⟨after, failed, hactive, hactivated⟩ :=
    active_spec (s := s.set k (s.keepalives k).resetValueChanged) (k := k)
      ⟨h.opened, h.enabled, by rw [hset]; exact h.addr, by
        rw [hset]
        exact fun hrun => ⟨(h.unchecked hrun).1, rfl⟩⟩ (attempts k)
  rw [hset] at hactivated
  refine ⟨after, failed, ?_, hactivated⟩
  rw [republish, hactive]
  simp [set]

/-- The loop over keepalives: each is published again, and those whose request fails are queued. -/
theorem foldlM_republish {keepalives : List Nat} (hnodup : keepalives.Nodup) {s : Publications}
    (h : ∀ k ∈ keepalives, s.Activable k) (hretry : s.cluster.keepaliveRetryActors.Nodup)
    (attempts : Nat → Attempt) :
    ∃ after, keepalives.foldlM (republish attempts) s = some after ∧
      s.cluster.SameForKeepalives after.cluster ∧ after.published = s.published ∧
      after.cluster.keepaliveRetryActors.Nodup ∧
      (∀ k, k ∉ keepalives → after.keepalives k = s.keepalives k) ∧
      (∀ k ∈ after.cluster.keepaliveRetryActors,
        k ∈ s.cluster.keepaliveRetryActors ∨ k ∈ keepalives) ∧
      s.cluster.keepaliveRetryActors ⊆ after.cluster.keepaliveRetryActors ∧
      ∀ k ∈ keepalives, ∃ failed,
        (s.keepalives k).Republished s.cluster (attempts k).outcome (after.keepalives k) failed ∧
          (failed = true → k ∈ after.cluster.keepaliveRetryActors) := by
  induction keepalives generalizing s with
  | nil =>
    exact ⟨s, rfl, ⟨rfl, rfl, rfl, rfl, rfl, rfl⟩, rfl, hretry, fun _ _ => rfl,
      fun _ hk => Or.inl hk, List.Subset.refl _, by simp⟩
  | cons k keepalives ih =>
    obtain ⟨hfresh, hnodup⟩ := List.nodup_cons.1 hnodup
    obtain ⟨first, failed, hfirst, hrepublished⟩ :=
      republish_spec (h k List.mem_cons_self) attempts
    generalize hmid : ({ s.set k first with
      cluster := if failed then s.cluster.queue k else s.cluster } : Publications) = mid at hfirst
    have hmidCluster : mid.cluster = if failed then s.cluster.queue k else s.cluster := by
      rw [← hmid]
    have hmidActor : mid.keepalives k = first := by
      rw [← hmid]
      exact Function.update_self ..
    have hmidOther : ∀ other, other ≠ k → mid.keepalives other = s.keepalives other := by
      intro other hne
      rw [← hmid]
      exact Function.update_of_ne hne ..
    have hmidPublished : mid.published = s.published := by
      rw [← hmid]
      rfl
    have hsame : s.cluster.SameForKeepalives mid.cluster := by
      rw [hmidCluster]
      split
      · exact s.cluster.queue_same k
      · exact ⟨rfl, rfl, rfl, rfl, rfl, rfl⟩
    have hmidRetry : mid.cluster.keepaliveRetryActors.Nodup := by
      rw [hmidCluster]
      split
      · exact EtcdCluster.queue_nodup hretry k
      · exact hretry
    have hmidMem : ∀ other, other ∈ mid.cluster.keepaliveRetryActors ↔
        failed = true ∧ other = k ∨ other ∈ s.cluster.keepaliveRetryActors := by
      intro other
      rw [hmidCluster]
      cases failed with
      | false => simp
      | true => simpa using EtcdCluster.mem_queue
    have hmidActivable : ∀ other ∈ keepalives, mid.Activable other := by
      intro other hother
      have hne : other ≠ k := fun heq => hfresh (heq ▸ hother)
      have hbefore := h other (List.mem_cons_of_mem _ hother)
      refine ⟨hsame.closing.trans hbefore.opened, hsame.enableLease.trans hbefore.enabled, ?_, ?_⟩
      · rw [hmidOther other hne]
        exact hbefore.addr
      · rw [hmidOther other hne]
        exact hbefore.unchecked
    obtain ⟨after, hafter, hsame', hpublished, hafterRetry, hother, hmem, hsubset, hall⟩ :=
      ih hnodup hmidActivable hmidRetry
    refine ⟨after, ?_, hsame.trans hsame', hpublished.trans hmidPublished, hafterRetry, ?_, ?_, ?_,
      ?_⟩
    · rw [List.foldlM_cons, hfirst]
      exact hafter
    · intro other hnot
      rw [List.mem_cons, not_or] at hnot
      rw [hother other hnot.2, hmidOther other hnot.1]
    · intro other hqueued
      rcases hmem other hqueued with hqueued | hin
      · rcases (hmidMem other).1 hqueued with ⟨-, rfl⟩ | hqueued
        · exact Or.inr List.mem_cons_self
        · exact Or.inl hqueued
      · exact Or.inr (List.mem_cons_of_mem _ hin)
    · exact fun other hqueued => hsubset ((hmidMem other).2 (Or.inr hqueued))
    · intro other hin
      rcases List.mem_cons.1 hin with rfl | hin
      · refine ⟨failed, ?_, fun hfailed => hsubset ((hmidMem other).2 (Or.inl ⟨hfailed, rfl⟩))⟩
        rw [hother other hfresh, hmidActor]
        exact hrepublished
      · have hne : other ≠ k := fun heq => hfresh (heq ▸ hin)
        obtain ⟨failed', hrepublished', hqueued⟩ := hall other hin
        rw [hmidOther other hne] at hrepublished'
        exact ⟨failed', hrepublished'.of_same hsame, hqueued⟩

/-! ## One keepalive -/

theorem Registry.of_same {s after : Publications} (h : s.Registry)
    (hsame : s.cluster.SameForKeepalives after.cluster)
    (hfresh : ∀ k, k ∉ s.cluster.keepaliveActors → after.keepalives k = s.keepalives k)
    (hretry : ∀ k ∈ after.cluster.keepaliveRetryActors, k ∈ s.cluster.keepaliveActors)
    (hnodup : after.cluster.keepaliveRetryActors.Nodup) : after.Registry where
  fresh k hk := by
    rw [hsame.actors] at hk
    rw [hfresh k hk]
    exact h.fresh k hk
  running := by
    rw [hsame.conf, hsame.closing, hsame.running]
    exact h.running
  closing := by
    rw [hsame.closing, hsame.actors]
    exact h.closing
  enabled := by
    rw [hsame.actors, hsame.enableLease]
    exact h.enabled
  registered := by
    rw [hsame.actors]
    exact hretry
  nodup := by
    rw [hsame.actors]
    exact h.nodup
  retryNodup := hnodup

theorem Registry.opened {s : Publications} (h : s.Registry) {k : Nat}
    (hk : k ∈ s.cluster.keepaliveActors) : s.cluster.closing = false := by
  by_contra hclosing
  rw [h.closing (by simpa using hclosing)] at hk
  cases hk

theorem Registry.activable {s : Publications} (h : s.Registry) {k : Nat}
    (hk : k ∈ s.cluster.keepaliveActors) (haddr : (s.keepalives k).addr = k)
    (hunchecked : (s.keepalives k).Unchecked) : s.Activable k :=
  ⟨h.opened hk, h.enabled (List.ne_nil_of_mem hk), haddr, hunchecked⟩

theorem Inv.activable {s : Publications} (h : s.Inv) {k : Nat}
    (hk : k ∈ s.cluster.keepaliveActors) : s.Activable k :=
  h.toRegistry.activable hk (h.actor k).addr (h.actor k).unchecked

/-- A keepalive whose request is in flight is registered. -/
theorem Registry.mem_of_request {s : Publications} (h : s.Registry) {k : Nat} {req : HttpRequest}
    (hreq : (s.keepalives k).rpcOpr = some req) : k ∈ s.cluster.keepaliveActors := by
  by_contra hk
  rw [(h.fresh k hk).idle] at hreq
  cases hreq

@[simp] theorem set_keepalives_self (s : Publications) (k : Nat) (keepalive : EtcdKeepalive) :
    (s.set k keepalive).keepalives k = keepalive := Function.update_self ..

theorem set_keepalives_of_ne (s : Publications) {k other : Nat} (h : other ≠ k)
    (keepalive : EtcdKeepalive) : (s.set k keepalive).keepalives other = s.keepalives other :=
  Function.update_of_ne h ..

theorem Inv.set {s : Publications} (h : s.Inv) {k : Nat} (hk : k ∈ s.cluster.keepaliveActors)
    {keepalive : EtcdKeepalive} (hok : ActorOk s.cluster.conf.lease k keepalive) :
    (s.set k keepalive).Inv where
  toRegistry := h.toRegistry.of_same ⟨rfl, rfl, rfl, rfl, rfl, rfl⟩
    (fun other hother => set_keepalives_of_ne s (fun heq => hother (by rwa [heq])) keepalive)
    h.registered h.retryNodup
  actor other := by
    by_cases hne : other = k
    · subst hne
      rw [set_keepalives_self]
      exact hok
    · rw [set_keepalives_of_ne s hne]
      exact h.actor other

/-- A request that was just made is for the value and the lease. -/
theorem ActorOk.processed {owner : EtcdCluster} {outcome : StartOutcome}
    {before after : EtcdKeepalive} {failed : Bool} {k : Nat} (haddr : before.addr = k)
    (h : EtcdKeepalive.Processed owner outcome before after failed) :
    ActorOk owner.conf.lease k after where
  addr := h.addr.trans haddr
  unchecked := h.unchecked
  request req hreq := by
    refine (h.request req hreq).imp_right ?_
    rintro ⟨key, hbody⟩
    exact ⟨key, _, _, hbody, Or.inr ⟨h.value.symm, Or.inl rfl⟩⟩

theorem ActorOk.activated {lease : Int} {owner : EtcdCluster} {outcome : StartOutcome}
    {before after : EtcdKeepalive} {failed : Bool} {k : Nat} (hok : ActorOk lease k before)
    (hlease : owner.conf.lease = lease) (h : Activated owner outcome before after failed) :
    ActorOk lease k after := by
  rcases h with ⟨-, rfl, -⟩ | ⟨-, h⟩
  · exact ⟨hok.addr, hok.unchecked, hok.request⟩
  · rw [← hlease]
    exact ActorOk.processed hok.addr h

/-- Published again, a keepalive is all right with any lease. -/
theorem ActorOk.republished {lease : Int} {owner : EtcdCluster} {outcome : StartOutcome}
    {before after : EtcdKeepalive} {failed : Bool} {k : Nat} (hok : ActorOk lease k before)
    (h : before.Republished owner outcome after failed) : ActorOk owner.conf.lease k after := by
  rcases h with ⟨-, rfl, -⟩ | ⟨-, h⟩
  · refine ⟨hok.addr, fun hrun => ⟨(hok.unchecked hrun).1, rfl⟩, fun req hreq => ?_⟩
    refine (hok.request req hreq).imp_right ?_
    rintro ⟨key, value, putLease, hbody, -⟩
    exact ⟨key, value, putLease, hbody, Or.inl rfl⟩
  · exact ActorOk.processed (show before.resetValueChanged.addr = k from hok.addr) h

/-- The cluster after an activation. -/
theorem Inv.queued {s : Publications} (h : s.Inv) {k : Nat} (hk : k ∈ s.cluster.keepaliveActors)
    (failed : Bool) :
    Inv { s with cluster := if failed then s.cluster.queue k else s.cluster } := by
  cases failed with
  | false => exact h
  | true =>
    have hsame := s.cluster.queue_same k
    refine ⟨h.toRegistry.of_same hsame (fun _ _ => rfl) ?_ (EtcdCluster.queue_nodup h.retryNodup k),
      ?_⟩
    · intro other hother
      rcases EtcdCluster.mem_queue.1 hother with rfl | hother
      · exact hk
      · exact h.registered other hother
    · show ∀ other, ActorOk (s.cluster.queue k).conf.lease other _
      rw [hsame.conf]
      exact h.actor

/-- Activating a keepalive whose value is published, or marked as changed, loses nothing. -/
theorem active_keeps {s : Publications} (h : s.Inv) {k : Nat}
    (hk : k ∈ s.cluster.keepaliveActors) (attempt : Attempt)
    (hcovered : s.cluster.conf.lease ≠ 0 →
      ∀ other ∈ s.cluster.keepaliveActors, other ≠ k → s.Covered other)
    (hput : s.cluster.conf.lease ≠ 0 → (s.keepalives k).isValueChanged = false →
      s.published k = some ((s.keepalives k).value, s.cluster.conf.lease)) :
    ∃ after, s.active k attempt = some after ∧ after.Inv ∧ after.NothingLost := by
  obtain ⟨keepalive, failed, hactive, hactivated⟩ := active_spec (h.activable hk) attempt
  have hqueued := h.queued hk failed
  have hmem : ∀ other, other ∈ s.cluster.keepaliveRetryActors ∨ failed = true ∧ other = k →
      other ∈ (if failed then s.cluster.queue k else s.cluster).keepaliveRetryActors := by
    intro other hother
    cases failed with
    | false => simpa using hother
    | true =>
      refine EtcdCluster.mem_queue.2 ?_
      rcases hother with hother | ⟨-, rfl⟩
      · exact Or.inr hother
      · exact Or.inl rfl
  have hsame : s.cluster.SameForKeepalives (if failed then s.cluster.queue k else s.cluster) := by
    split
    · exact s.cluster.queue_same k
    · exact ⟨rfl, rfl, rfl, rfl, rfl, rfl⟩
  generalize (if failed then s.cluster.queue k else s.cluster) = cluster at *
  refine ⟨_, hactive, ?_, ?_⟩
  · refine hqueued.set (show k ∈ cluster.keepaliveActors from hsame.actors ▸ hk) ?_
    show ActorOk cluster.conf.lease k keepalive
    rw [hsame.conf]
    exact (h.actor k).activated rfl hactivated
  · intro _ hlease other hother hpassed hpublished
    have hheld : s.cluster.conf.lease ≠ 0 := hsame.conf ▸ hlease
    have hother : other ∈ s.cluster.keepaliveActors := hsame.actors ▸ hother
    have hpublished : s.published other ≠
        some (((s.set k keepalive).keepalives other).value, s.cluster.conf.lease) :=
      hsame.conf ▸ hpublished
    show ((s.set k keepalive).keepalives other).rpcOpr.isSome ∨ other ∈ cluster.keepaliveRetryActors
    have hpassed : ((s.set k keepalive).keepalives other).isCheckPassed = true := hpassed
    by_cases hne : other = k
    · subst hne
      rw [set_keepalives_self] at hpassed hpublished ⊢
      rcases hactivated with ⟨hbusy, rfl, -⟩ | ⟨-, hprocessed⟩
      · exact Or.inl hbusy
      have hcleared := hprocessed.passed.1 hpassed
      cases hchanged : (s.keepalives other).isValueChanged with
      | false =>
        rw [hprocessed.value] at hpublished
        exact absurd (hput hheld hchanged) hpublished
      | true =>
        by_cases hstarts : s.cluster.PutStarts attempt.outcome
        · exact Or.inl (hprocessed.starts hcleared hchanged hstarts)
        · have hfailed := (hprocessed.fails hcleared hchanged hstarts).2
          exact Or.inr (hmem other (Or.inr ⟨hfailed, rfl⟩))
    · rw [set_keepalives_of_ne s hne] at hpassed hpublished ⊢
      exact (hcovered hheld other hother hne hpassed hpublished).imp_right
        fun hqueued => hmem other (Or.inl hqueued)

/-- A keepalive whose request failed is tried again. -/
theorem addRetry_keeps {s : Publications} (h : s.Inv) {k : Nat}
    (hk : k ∈ s.cluster.keepaliveActors) (attempt : Attempt)
    (hcovered : s.cluster.conf.lease ≠ 0 →
      ∀ other ∈ s.cluster.keepaliveActors, other ≠ k → s.Covered other) :
    ∃ after, s.addRetry k attempt = some after ∧ after.Inv ∧ after.NothingLost := by
  obtain ⟨added, hadd⟩ := EtcdCluster.addRetryKeepalive_eq (h.opened hk)
    (h.enabled (List.ne_nil_of_mem hk)) k attempt.now attempt.leaseOutcome
  have hsame := s.cluster.queue_same k
  refine ⟨{ s with cluster := s.cluster.queue k }, by rw [addRetry, hadd]; rfl, h.queued hk true, ?_⟩
  intro _ hlease other hother hpassed hpublished
  have hheld : s.cluster.conf.lease ≠ 0 := hsame.conf ▸ hlease
  have hother : other ∈ s.cluster.keepaliveActors := hsame.actors ▸ hother
  by_cases hne : other = k
  · exact Or.inr (EtcdCluster.mem_queue.2 (Or.inl hne))
  · exact (hcovered hheld other hother hne hpassed (hsame.conf ▸ hpublished)).imp_right
      fun hqueued => EtcdCluster.mem_queue.2 (Or.inr hqueued)

/-- Marking one keepalive leaves the others covered. -/
theorem covered_set {s : Publications} {k other : Nat} (hne : other ≠ k) (h : s.Covered other)
    (keepalive : EtcdKeepalive) : (s.set k keepalive).Covered other := by
  intro hpassed hpublished
  have hsame := set_keepalives_of_ne s hne keepalive
  rw [hsame] at hpassed hpublished ⊢
  exact h hpassed hpublished

/-! ## Steps without a loop -/

theorem setValue_keeps {s : Publications} (h : s.Inv) (hlost : s.NothingLost) {k : Nat}
    (hk : k ∈ s.cluster.keepaliveActors) (value : Bytes) (attempt : Attempt) :
    ∃ after, s.setValue k value attempt = some after ∧ after.Inv ∧ after.NothingLost := by
  have hopen := h.opened hk
  have hok := h.actor k
  unfold setValue
  split
  · have hset : (s.set k { s.keepalives k with value, isValueChanged := true }).Inv := by
      refine h.set hk ⟨hok.addr, fun hrun => ⟨(hok.unchecked hrun).1, rfl⟩, fun req hreq => ?_⟩
      refine (hok.request req hreq).imp_right ?_
      rintro ⟨key, putValue, putLease, hbody, -⟩
      exact ⟨key, putValue, putLease, hbody, Or.inl rfl⟩
    dsimp only
    split
    · refine active_keeps hset hk attempt (fun hlease other hother hne => ?_) (fun _ hchanged => ?_)
      · exact covered_set hne (hlost hopen hlease other hother) _
      · rw [set_keepalives_self] at hchanged
        cases hchanged
    · next hnot =>
      refine ⟨_, rfl, hset, fun _ hlease => ?_⟩
      exact absurd ⟨h.running hlease hopen, hlease⟩ hnot
  · exact ⟨s, rfl, h, hlost⟩

theorem onGetData_keeps {s : Publications} (h : s.Inv) (hlost : s.NothingLost) {k : Nat}
    (hk : k ∈ s.cluster.keepaliveActors) (hrun : (s.keepalives k).isCheckRun = false)
    (answer : Option Bool) (attempt : Attempt) :
    ∃ after, s.onGetData k answer attempt = some after ∧ after.Inv ∧ after.NothingLost := by
  have hok := h.actor k
  have hunchecked := hok.unchecked hrun
  cases answer with
  | none =>
    have hset : (s.set k { s.keepalives k with
        rpcOpr := none, retryTimes := (s.keepalives k).retryTimes + 1 }).Inv :=
      h.set hk ⟨hok.addr, fun _ => hunchecked, by simp⟩
    exact addRetry_keeps hset hk attempt fun hlease other hother hne =>
      covered_set hne (hlost (h.opened hk) hlease other hother) _
  | some verdict =>
    have hset : (s.set k { s.keepalives k with
        rpcOpr := none, retryTimes := (s.keepalives k).retryTimes + 1, isCheckRun := true
        isCheckPassed := if !(s.keepalives k).checker then true else verdict }).Inv :=
      h.set hk ⟨hok.addr, fun hnot => absurd hnot.symm Bool.false_ne_true, by simp⟩
    refine active_keeps hset hk attempt
      (fun hlease other hother hne => covered_set hne (hlost (h.opened hk) hlease other hother) _)
      (fun _ hchanged => ?_)
    rw [set_keepalives_self] at hchanged
    have hchanged : (s.keepalives k).isValueChanged = false := hchanged
    rw [hunchecked.2] at hchanged
    cases hchanged

theorem onSetData_keeps {s : Publications} (h : s.Inv) (hlost : s.NothingLost) {k : Nat}
    (hk : k ∈ s.cluster.keepaliveActors) {value : Bytes} {lease : Int}
    (hrequest : (s.keepalives k).isValueChanged = true ∨ value = (s.keepalives k).value ∧
      (lease = s.cluster.conf.lease ∨ s.cluster.conf.lease = 0)) (success : Bool)
    (attempt : Attempt) :
    ∃ after, s.onSetData k value lease success attempt = some after ∧ after.Inv ∧
      after.NothingLost := by
  have hok := h.actor k
  cases success with
  | false =>
    have hset : (s.set k { s.keepalives k with rpcOpr := none, isValueChanged := true }).Inv :=
      h.set hk ⟨hok.addr, fun hrun => ⟨(hok.unchecked hrun).1, rfl⟩, by simp⟩
    exact addRetry_keeps hset hk attempt fun hlease other hother hne =>
      covered_set hne (hlost (h.opened hk) hlease other hother) _
  | true =>
    have hinv : Inv { s with published := Function.update s.published k (some (value, lease)) } :=
      ⟨⟨h.fresh, h.running, h.closing, h.enabled, h.registered, h.nodup, h.retryNodup⟩, h.actor⟩
    have hset : (({ s with published := Function.update s.published k (some (value, lease)) } :
        Publications).set k { s.keepalives k with rpcOpr := none, hasData := true }).Inv :=
      hinv.set hk ⟨hok.addr, hok.unchecked, by simp⟩
    refine active_keeps hset hk attempt
      (fun hlease other hother hne => covered_set hne ?_ _) (fun hlease hchanged => ?_)
    · intro hpassed hpublished
      refine hlost (h.opened hk) hlease other hother hpassed ?_
      rw [← Function.update_of_ne hne (some (value, lease)) s.published]
      exact hpublished
    · rw [set_keepalives_self] at hchanged ⊢
      have hchanged : (s.keepalives k).isValueChanged = false := hchanged
      show Function.update s.published k (some (value, lease)) k = _
      rw [Function.update_self]
      rcases hrequest with hset | ⟨rfl, rfl | hnone⟩
      · rw [hset] at hchanged
        cases hchanged
      · rfl
      · exact absurd hnone hlease

theorem complete_keeps {s : Publications} (h : s.Inv) (hlost : s.NothingLost) (k : Nat)
    (success : Bool) (verdict : Option Bool) (attempt : Attempt) :
    ∃ after, s.complete k success verdict attempt = some after ∧ after.Inv ∧ after.NothingLost := by
  unfold complete
  cases hrpc : (s.keepalives k).rpcOpr with
  | none => exact ⟨s, rfl, h, hlost⟩
  | some request =>
    have hk := h.mem_of_request hrpc
    rcases (h.actor k).request request hrpc with ⟨hrun, range, hbody⟩ |
      ⟨key, value, lease, hbody, hrequest⟩
    · dsimp only
      rw [hbody]
      exact onGetData_keeps h hlost hk hrun _ attempt
    · dsimp only
      rw [hbody]
      exact onSetData_keeps h hlost hk hrequest success attempt

theorem addKeepalive_keeps {s : Publications} (h : s.Inv) (hlost : s.NothingLost) {k : Nat}
    {attempt : Attempt} {after : Publications} (hafter : s.addKeepalive k attempt = some after) :
    after.Inv ∧ after.NothingLost := by
  obtain ⟨⟨cluster, added⟩, hadd, hafter⟩ := Option.bind_eq_some_iff.1 hafter
  rcases EtcdCluster.addKeepalive_flags hadd with ⟨rfl, rfl⟩ |
    ⟨rfl, hopen, hnew, hactors, hretry, hclosing, hrunning, henabled, hlease⟩
  · dsimp only at hafter
    rw [if_neg (by simp)] at hafter
    cases hafter
    exact ⟨h, hlost⟩
  have hmem : ∀ other, other ∈ cluster.keepaliveActors ↔
      other ∈ s.cluster.keepaliveActors ∨ other = k := by
    intro other
    rw [hactors, List.mem_append, List.mem_singleton]
  have hinv : Inv { s with cluster } := by
    refine ⟨⟨?_, ?_, ?_, fun _ => henabled, ?_, ?_, ?_⟩, ?_⟩
    · exact fun other hother => h.fresh other fun hin => hother ((hmem other).2 (Or.inl hin))
    · show cluster.conf.lease ≠ 0 → cluster.closing = false → cluster.running = true
      rw [hlease, hclosing, hrunning]
      exact h.running
    · intro hclosed
      rw [show cluster.closing = true from hclosed, hopen] at hclosing
      cases hclosing
    · show ∀ other ∈ cluster.keepaliveRetryActors, other ∈ cluster.keepaliveActors
      rw [hretry]
      exact fun other hother => (hmem other).2 (Or.inl (h.registered other hother))
    · show cluster.keepaliveActors.Nodup
      rw [hactors, ← List.concat_eq_append]
      exact (List.nodup_concat _ _).2 ⟨hnew, h.nodup⟩
    · show cluster.keepaliveRetryActors.Nodup
      rw [hretry]
      exact h.retryNodup
    · show ∀ other, ActorOk cluster.conf.lease other _
      rw [hlease]
      exact h.actor
  have hcovered : cluster.conf.lease ≠ 0 → ∀ other ∈ cluster.keepaliveActors, other ≠ k →
      Covered { s with cluster } other := by
    intro hheld other hother hne hpassed hpublished
    have hother : other ∈ s.cluster.keepaliveActors := ((hmem other).1 hother).resolve_right hne
    show _ ∨ other ∈ cluster.keepaliveRetryActors
    rw [hretry]
    exact hlost hopen (hlease ▸ hheld) other hother hpassed (hlease ▸ hpublished)
  have hk : k ∈ cluster.keepaliveActors := (hmem k).2 (Or.inr rfl)
  have hfresh := h.fresh k hnew
  dsimp only at hafter
  split at hafter
  · obtain ⟨last, hlast, hinvLast, hlostLast⟩ := active_keeps hinv hk attempt hcovered
      (fun _ hchanged => by
        rw [show ({ s with cluster } : Publications).keepalives k = s.keepalives k from rfl,
          hfresh.changed] at hchanged
        cases hchanged)
    cases hlast.symm.trans hafter
    exact ⟨hinvLast, hlostLast⟩
  · next hnot =>
    cases hafter
    refine ⟨hinv, fun hopened hheld => ?_⟩
    exact absurd ⟨rfl, hinv.running hheld hopened, hheld⟩ hnot

theorem close_keeps {s after : Publications} (h : s.Inv) (hafter : s.close = some after) :
    after.Inv ∧ after.NothingLost := by
  obtain ⟨cluster, hclose, hafter⟩ := Option.bind_eq_some_iff.1 hafter
  cases hafter
  have hclosing := EtcdCluster.close_closing hclose
  obtain ⟨closed, hclosed, hshut⟩ := s.cluster.close_shut
  cases hclosed.symm.trans hclose
  have hfresh : ∀ k, Fresh (if k ∈ s.cluster.keepaliveActors then (s.keepalives k).close false
      else s.keepalives k) := by
    intro k
    split
    · exact ⟨rfl, rfl, rfl, rfl⟩
    · next hk => exact h.fresh k hk
  refine ⟨⟨⟨fun k _ => hfresh k, ?_, ?_, ?_, ?_, ?_, ?_⟩, fun k => ⟨?_, ?_, ?_⟩⟩, ?_⟩
  · intro _ hopen
    rw [show cluster.closing = false from hopen] at hclosing
    cases hclosing
  · exact fun _ => hshut.actors
  · exact fun hne => absurd hshut.actors hne
  · show ∀ k ∈ cluster.keepaliveRetryActors, _
    rw [hshut.retryActors]
    simp
  · show cluster.keepaliveActors.Nodup
    rw [hshut.actors]
    exact List.nodup_nil
  · show cluster.keepaliveRetryActors.Nodup
    rw [hshut.retryActors]
    exact List.nodup_nil
  · show (if k ∈ s.cluster.keepaliveActors then _ else _ : EtcdKeepalive).addr = k
    split
    · exact (h.actor k).addr
    · exact (h.actor k).addr
  · exact fun _ => ⟨(hfresh k).passed, (hfresh k).changed⟩
  · intro req hreq
    rw [show _ = none from (hfresh k).idle] at hreq
    cases hreq
  · intro hopen
    rw [show cluster.closing = false from hopen] at hclosing
    cases hclosing

/-! ## The loops -/

theorem Fresh.actorOk {keepalive : EtcdKeepalive} (h : Fresh keepalive) {k : Nat}
    (haddr : keepalive.addr = k) (lease : Int) : ActorOk lease k keepalive where
  addr := haddr
  unchecked _ := ⟨h.passed, h.changed⟩
  request req hreq := by
    rw [h.idle] at hreq
    cases hreq

/-- The keepalives in the list are published again, and the list is cleared. -/
theorem retryPendingActions_spec {s : Publications} (h : s.Inv) (attempts : Nat → Attempt)
    (deletes : Bytes → StartOutcome) :
    ∃ after, s.retryPendingActions attempts deletes = some after ∧ after.Inv ∧
      s.cluster.SameForKeepalives after.cluster ∧ after.published = s.published ∧
      (s.cluster.conf.lease ≠ 0 → after.cluster.keepaliveRetryActors = [] ∧
        (∀ k, k ∉ s.cluster.keepaliveRetryActors → after.keepalives k = s.keepalives k) ∧
        ∀ k ∈ s.cluster.keepaliveRetryActors, ∃ failed,
          (s.keepalives k).Republished s.cluster (attempts k).outcome (after.keepalives k)
            failed) := by
  unfold retryPendingActions retryKeepalives
  by_cases hheld : s.cluster.conf.lease ≠ 0
  · obtain ⟨mid, hmid, hsame, hpublished, -, hother, -, -, hall⟩ :=
      foldlM_republish h.retryNodup (fun k hk => h.activable (h.registered k hk)) h.retryNodup
        attempts
    obtain ⟨cluster, hcluster, hsame', hretry⟩ := mid.cluster.retryPendingActions_same deletes
    rw [if_pos (by rw [hsame.conf]; exact hheld)] at hretry
    rw [if_pos hheld, hmid]
    refine ⟨{ mid with cluster }, ?_, ⟨h.toRegistry.of_same (hsame.trans hsame') ?_ ?_ ?_, ?_⟩,
      hsame.trans hsame', hpublished, fun _ => ⟨hretry, hother, fun k hk => ?_⟩⟩
    · exact Option.bind_eq_some_iff.2 ⟨mid, rfl, Option.bind_eq_some_iff.2 ⟨cluster, hcluster, rfl⟩⟩
    · exact fun k hk => hother k fun hin => hk (h.registered k hin)
    · show ∀ k ∈ cluster.keepaliveRetryActors, _
      rw [hretry]
      simp
    · show cluster.keepaliveRetryActors.Nodup
      rw [hretry]
      exact List.nodup_nil
    · intro k
      show ActorOk cluster.conf.lease k (mid.keepalives k)
      rw [(hsame.trans hsame').conf]
      by_cases hk : k ∈ s.cluster.keepaliveRetryActors
      · obtain ⟨failed, hrepublished, -⟩ := hall k hk
        exact (h.actor k).republished hrepublished
      · rw [hother k hk]
        exact h.actor k
    · obtain ⟨failed, hrepublished, -⟩ := hall k hk
      exact ⟨failed, hrepublished⟩
  · obtain ⟨cluster, hcluster, hsame, hretry⟩ := s.cluster.retryPendingActions_same deletes
    rw [if_neg hheld] at hretry ⊢
    refine ⟨{ s with cluster }, ?_, ⟨h.toRegistry.of_same hsame (fun _ _ => rfl) ?_ ?_, ?_⟩, hsame,
      rfl, fun hlease => absurd hlease hheld⟩
    · exact Option.bind_eq_some_iff.2 ⟨s, rfl, Option.bind_eq_some_iff.2 ⟨cluster, hcluster, rfl⟩⟩
    · show ∀ k ∈ cluster.keepaliveRetryActors, _
      rw [hretry]
      exact h.registered
    · show cluster.keepaliveRetryActors.Nodup
      rw [hretry]
      exact h.retryNodup
    · show ∀ k, ActorOk cluster.conf.lease k _
      rw [hsame.conf]
      exact h.actor

/-- Once the list is cleared, only a keepalive that does nothing may be lost. -/
theorem nothingLost_iff {s : Publications} (hretry : s.cluster.keepaliveRetryActors = []) :
    s.NothingLost ↔ (s.cluster.closing = false → s.cluster.conf.lease ≠ 0 →
      ∀ k ∈ s.cluster.keepaliveActors, (s.keepalives k).Idle →
        s.published k = some ((s.keepalives k).value, s.cluster.conf.lease)) := by
  constructor
  · intro hlost hopen hheld k hk ⟨hpassed, hnone⟩
    by_contra hpublished
    rcases hlost hopen hheld k hk hpassed hpublished with hbusy | hqueued
    · rw [hnone] at hbusy
      cases hbusy
    · rw [hretry] at hqueued
      cases hqueued
  · intro hidle hopen hheld k hk hpassed hpublished
    refine Or.inl (Option.isSome_iff_ne_none.2 fun hnone => hpublished ?_)
    exact hidle hopen hheld k hk ⟨hpassed, hnone⟩

theorem retryPendingActions_keeps_iff {s : Publications} (h : s.Inv) (hlost : s.NothingLost)
    (attempts : Nat → Attempt) (deletes : Bytes → StartOutcome) :
    ∃ after, s.retryPendingActions attempts deletes = some after ∧ after.Inv ∧
      (after.NothingLost ↔ (s.cluster.conf.lease ≠ 0 → ∀ k ∈ s.cluster.keepaliveRetryActors,
        s.Unpublished s.cluster.conf.lease k →
          s.cluster.Ready ∧ (attempts k).outcome = .started)) := by
  obtain ⟨after, hafter, hinv, hsame, hpublished, hrest⟩ :=
    retryPendingActions_spec h attempts deletes
  refine ⟨after, hafter, hinv, ?_⟩
  by_cases hheld : s.cluster.conf.lease = 0
  · exact iff_of_true (fun _ hlease => absurd (hsame.conf ▸ hheld) hlease)
      (fun hlease => absurd hheld hlease)
  obtain ⟨hretry, hother, hall⟩ := hrest hheld
  rw [nothingLost_iff hretry, hsame.closing, hsame.conf, hsame.actors, hpublished]
  constructor
  · intro hidle _ k hk ⟨hnone, hcleared, hput⟩
    by_contra hnot
    obtain ⟨failed, hrepublished⟩ := hall k hk
    have hactor := h.registered k hk
    refine hput ?_
    rw [← hrepublished.value]
    refine hidle (h.opened hactor) hheld k hactor (hrepublished.idle_iff.2 ⟨hnone, hcleared, ?_⟩)
    exact fun hstarts => hnot ⟨hstarts.1, hstarts.2.2⟩
  · intro hcond hopen _ k hk hidle
    by_cases hin : k ∈ s.cluster.keepaliveRetryActors
    · obtain ⟨failed, hrepublished⟩ := hall k hin
      obtain ⟨hnone, hcleared, hnot⟩ := hrepublished.idle_iff.1 hidle
      by_contra hput
      rw [hrepublished.value] at hput
      obtain ⟨hready, hstarted⟩ := hcond hheld k hin ⟨hnone, hcleared, hput⟩
      exact hnot ⟨hready, hheld, hstarted⟩
    · rw [hother k hin] at hidle ⊢
      by_contra hput
      rcases hlost hopen hheld k hk hidle.1 hput with hbusy | hqueued
      · rw [hidle.2] at hbusy
        cases hbusy
      · exact hin hqueued

/-- A new lease: every registered keepalive is published again, and those that failed once more. -/
theorem setLease_new_keeps_iff {s : Publications} (h : s.Inv)
    (hrunning : s.cluster.closing = false → s.cluster.running = true) {lease : Int}
    (hlease : lease ≠ 0) {force : Bool} (hnew : ¬ (s.cluster.conf.lease = lease ∧ force = false))
    (outside : LeaseAttempts) :
    ∃ after, s.setLease lease force outside = some after ∧ after.Inv ∧
      (after.NothingLost ↔ ∀ k ∈ s.cluster.keepaliveActors, s.Unpublished lease k →
        s.cluster.Ready ∧ ((outside.attempts k).outcome = .started ∨
          (outside.retries k).outcome = .started)) := by
  unfold setLease
  dsimp only
  rw [if_neg (fun hsame => hnew ⟨hsame.1, hsame.2.1⟩), if_pos hlease]
  -- the keepalives with the new lease and an empty list
  obtain ⟨first, hfirst⟩ : ∃ first : Publications, first = { s with cluster := { s.cluster with
      conf := { s.cluster.conf with lease }, keepaliveRetryActors := [] } } := ⟨_, rfl⟩
  have hregistry : first.Registry := by
    rw [hfirst]
    exact ⟨h.fresh, fun _ hopen => hrunning hopen, h.closing, h.enabled,
      fun k hk => absurd hk List.not_mem_nil, h.nodup, List.nodup_nil⟩
  have hactors : first.cluster.keepaliveActors = s.cluster.keepaliveActors := by rw [hfirst]
  have hkeepalives : first.keepalives = s.keepalives := by rw [hfirst]
  have hlease' : first.cluster.conf.lease = lease := by rw [hfirst]
  have hpublishedFirst : first.published = s.published := by rw [hfirst]
  have hclosingFirst : first.cluster.closing = s.cluster.closing := by rw [hfirst]
  have hstarts : ∀ outcome, first.cluster.PutStarts outcome ↔
      s.cluster.Ready ∧ outcome = .started := by
    intro outcome
    rw [hfirst]
    constructor
    · rintro ⟨hready, -, hstarted⟩
      exact ⟨⟨hready.multi, hready.host, hready.opened⟩, hstarted⟩
    · rintro ⟨hready, hstarted⟩
      exact ⟨⟨hready.multi, hready.host, hready.opened⟩, hlease, hstarted⟩
  rw [← hfirst]
  have hactivable : ∀ k ∈ first.cluster.keepaliveActors, first.Activable k := by
    intro k hk
    refine hregistry.activable hk ?_ ?_
    · rw [hkeepalives]
      exact (h.actor k).addr
    · rw [hkeepalives]
      exact (h.actor k).unchecked
  obtain ⟨mid, hmid, hsame, hpublished, hnodup, hother, hmem, -, hall⟩ :=
    foldlM_republish hregistry.nodup hactivable hregistry.retryNodup outside.attempts
  have hmid' : s.cluster.keepaliveActors.foldlM (republish outside.attempts) first = some mid := by
    rw [← hactors]
    exact hmid
  have hretryMid : ∀ k ∈ mid.cluster.keepaliveRetryActors, k ∈ first.cluster.keepaliveActors :=
    fun k hk => (hmem k hk).resolve_left (by rw [hfirst]; exact List.not_mem_nil)
  have hinvMid : mid.Inv := by
    refine ⟨hregistry.of_same hsame hother hretryMid hnodup, fun k => ?_⟩
    rw [hsame.conf]
    by_cases hk : k ∈ first.cluster.keepaliveActors
    · obtain ⟨failed, hrepublished, -⟩ := hall k hk
      rw [hkeepalives] at hrepublished
      exact (h.actor k).republished hrepublished
    · rw [hother k hk]
      exact (hregistry.fresh k hk).actorOk (by rw [hkeepalives]; exact (h.actor k).addr) _
  obtain ⟨after, hafter, hinv, hsame', hpublished', hrest⟩ :=
    retryPendingActions_spec hinvMid outside.retries outside.deletes
  obtain ⟨hretry, hother', hall'⟩ := hrest (by rw [hsame.conf, hlease']; exact hlease)
  -- at the end a keepalive does nothing if both attempts failed
  have hidle : ∀ k ∈ first.cluster.keepaliveActors, ((after.keepalives k).Idle ↔
      (s.keepalives k).rpcOpr = none ∧ (s.keepalives k).Cleared ∧
        ¬ first.cluster.PutStarts (outside.attempts k).outcome ∧
        ¬ first.cluster.PutStarts (outside.retries k).outcome) ∧
      (after.keepalives k).value = (s.keepalives k).value := by
    intro k hk
    obtain ⟨failed, hrepublished, hqueued⟩ := hall k hk
    rw [hkeepalives] at hrepublished
    by_cases hin : k ∈ mid.cluster.keepaliveRetryActors
    · obtain ⟨failed', hrepublished'⟩ := hall' k hin
      exact ⟨hrepublished.twice_idle_iff (h.actor k).unchecked (hrepublished'.of_same hsame),
        hrepublished'.value.trans hrepublished.value⟩
    · rw [hother' k hin]
      refine ⟨iff_of_false (fun hidle => hin (hqueued (hrepublished.failed hidle))) ?_,
        hrepublished.value⟩
      rintro ⟨hnone, hcleared, hnot, -⟩
      exact hin (hqueued (hrepublished.failed (hrepublished.idle_iff.2 ⟨hnone, hcleared, hnot⟩)))
  refine ⟨after, Option.bind_eq_some_iff.2 ⟨mid, hmid', hafter⟩, hinv, ?_⟩
  rw [nothingLost_iff hretry, (hsame.trans hsame').closing, (hsame.trans hsame').conf,
    (hsame.trans hsame').actors, hpublished'.trans (hpublished.trans hpublishedFirst), hlease',
    hclosingFirst, hactors]
  constructor
  · intro hlost k hk ⟨hnone, hcleared, hput⟩
    by_contra hnot
    rw [not_and_or] at hnot
    obtain ⟨hiff, hvalue⟩ := hidle k (hactors ▸ hk)
    refine hput ?_
    rw [← hvalue]
    refine hlost (h.opened hk) hlease k hk (hiff.2 ⟨hnone, hcleared, ?_, ?_⟩)
    · rw [hstarts]
      rintro ⟨hready, hstarted⟩
      exact hnot.elim (fun hn => hn hready) (fun hn => hn (Or.inl hstarted))
    · rw [hstarts]
      rintro ⟨hready, hstarted⟩
      exact hnot.elim (fun hn => hn hready) (fun hn => hn (Or.inr hstarted))
  · intro hcond _ _ k hk hdone
    obtain ⟨hiff, hvalue⟩ := hidle k (hactors ▸ hk)
    obtain ⟨hnone, hcleared, hnot, hnot'⟩ := hiff.1 hdone
    rw [hstarts] at hnot hnot'
    by_contra hput
    rw [hvalue] at hput
    obtain ⟨hready, hstarted⟩ := hcond k hk ⟨hnone, hcleared, hput⟩
    rcases hstarted with hstarted | hstarted
    · exact hnot ⟨hready, hstarted⟩
    · exact hnot' ⟨hready, hstarted⟩

/-- `set_lease` with a lease. -/
theorem setLease_keeps_iff {s : Publications} (h : s.Inv) (hlost : s.NothingLost)
    (hrunning : s.cluster.closing = false → s.cluster.running = true) {lease : Int}
    (hlease : lease ≠ 0) (force : Bool) (outside : LeaseAttempts) :
    ∃ after, s.setLease lease force outside = some after ∧ after.Inv ∧
      (after.NothingLost ↔
        if s.cluster.conf.lease = lease ∧ force = false then
          ∀ k ∈ s.cluster.keepaliveRetryActors, s.Unpublished lease k →
            s.cluster.Ready ∧ (outside.retries k).outcome = .started
        else
          ∀ k ∈ s.cluster.keepaliveActors, s.Unpublished lease k →
            s.cluster.Ready ∧ ((outside.attempts k).outcome = .started ∨
              (outside.retries k).outcome = .started)) := by
  by_cases hsame : s.cluster.conf.lease = lease ∧ force = false
  · rw [if_pos hsame]
    obtain ⟨rfl, rfl⟩ := hsame
    obtain ⟨after, hafter, hinv, hiff⟩ :=
      retryPendingActions_keeps_iff h hlost outside.retries outside.deletes
    refine ⟨after, ?_, hinv, hiff.trans ⟨fun hcond => hcond hlease, fun hcond _ => hcond⟩⟩
    rw [setLease, if_pos ⟨rfl, rfl, hlease⟩]
    exact hafter
  · rw [if_neg hsame]
    exact setLease_new_keeps_iff h hrunning hlease hsame outside

/-- The lease is lost. -/
theorem setLease_zero_keeps {s : Publications} (h : s.Inv) (force : Bool)
    (outside : LeaseAttempts) :
    ∃ after, s.setLease 0 force outside = some after ∧ after.Inv ∧ after.NothingLost := by
  unfold setLease
  rw [if_neg (by simp), if_neg (by simp)]
  refine ⟨_, rfl, ⟨⟨h.fresh, fun hne => absurd rfl hne, h.closing, h.enabled, h.registered, h.nodup,
    h.retryNodup⟩, fun k => ?_⟩, fun _ hne => absurd rfl hne⟩
  refine ⟨(h.actor k).addr, (h.actor k).unchecked, fun req hreq => ?_⟩
  refine ((h.actor k).request req hreq).imp_right ?_
  rintro ⟨key, value, putLease, hbody, hput⟩
  exact ⟨key, value, putLease, hbody, hput.imp_right fun hput => ⟨hput.1, Or.inr rfl⟩⟩

/-! ## Runs -/

theorem onLeaseKeepalive_keeps_iff {s : Publications} (h : s.Inv) (hlost : s.NothingLost)
    (isGrant ttl : Bool) (lease : Int) (outside : LeaseAttempts) :
    ∃ after, s.onLeaseKeepalive isGrant ttl lease outside = some after ∧ after.Inv ∧
      (after.NothingLost ↔ s.RetriesStart (.leaseKeepalive isGrant ttl lease outside)) := by
  unfold onLeaseKeepalive
  cases ttl with
  | false =>
    rw [if_pos (show (!false) = true from rfl)]
    cases isGrant with
    | true => exact ⟨s, rfl, h, iff_of_true hlost (fun httl => absurd httl Bool.false_ne_true)⟩
    | false =>
      obtain ⟨after, hafter, hinv, hkept⟩ := setLease_zero_keeps h false outside
      exact ⟨after, hafter, hinv, iff_of_true hkept (fun httl => absurd httl Bool.false_ne_true)⟩
  | true =>
    rw [if_neg (by simp)]
    by_cases hlease : lease = 0
    · rw [if_pos hlease]
      exact ⟨s, rfl, h, iff_of_true hlost (fun _ hne => absurd hlease hne)⟩
    rw [if_neg hlease]
    dsimp only
    by_cases hstopped : (!s.cluster.running) = true ∧ (!s.cluster.closing) = true
    · rw [if_pos hstopped]
      have hinv : Inv { s with cluster := { s.cluster with running := true } } :=
        ⟨⟨h.fresh, fun _ _ => rfl, h.closing, h.enabled, h.registered, h.nodup, h.retryNodup⟩,
          h.actor⟩
      obtain ⟨after, hafter, hafterInv, hiff⟩ :=
        setLease_keeps_iff hinv hlost (fun _ => rfl) hlease isGrant outside
      refine ⟨after, hafter, hafterInv, hiff.trans ?_⟩
      have hready : ({ s.cluster with running := true } : EtcdCluster).Ready ↔ s.cluster.Ready :=
        ⟨fun hr => ⟨hr.multi, hr.host, hr.opened⟩, fun hr => ⟨hr.multi, hr.host, hr.opened⟩⟩
      rw [hready]
      exact ⟨fun hcond _ _ => hcond, fun hcond => hcond rfl hlease⟩
    · rw [if_neg hstopped]
      have hrunning : s.cluster.closing = false → s.cluster.running = true := by
        intro hopen
        by_contra hrunning
        exact hstopped ⟨by simpa using hrunning, by simpa using hopen⟩
      obtain ⟨after, hafter, hinv, hiff⟩ :=
        setLease_keeps_iff h hlost hrunning hlease isGrant outside
      exact ⟨after, hafter, hinv,
        hiff.trans ⟨fun hcond _ _ => hcond, fun hcond => hcond rfl hlease⟩⟩

/-- A step keeps the invariant, and loses no value exactly if every retry from the list starts. -/
theorem step_keeps_iff {s : Publications} (h : s.Inv) (hlost : s.NothingLost)
    (i : PublicationsStep) :
    (step s i).Inv ∧ ((step s i).NothingLost ↔ s.RetriesStart i) := by
  cases i with
  | addKeepalive k attempt =>
    cases hadd : s.addKeepalive k attempt with
    | none =>
      rw [step, stepOption, hadd]
      exact ⟨h, iff_of_true hlost trivial⟩
    | some after =>
      rw [step, stepOption, hadd]
      obtain ⟨hinv, hkept⟩ := addKeepalive_keeps h hlost hadd
      exact ⟨hinv, iff_of_true hkept trivial⟩
  | setValue k value attempt =>
    rw [step, stepOption]
    by_cases hk : k ∈ s.cluster.keepaliveActors
    · obtain ⟨after, hafter, hinv, hkept⟩ := setValue_keeps h hlost hk value attempt
      rw [if_pos hk, hafter]
      exact ⟨hinv, iff_of_true hkept trivial⟩
    · rw [if_neg hk]
      exact ⟨h, iff_of_true hlost trivial⟩
  | retryPendingActions attempts deletes =>
    obtain ⟨after, hafter, hinv, hiff⟩ := retryPendingActions_keeps_iff h hlost attempts deletes
    rw [step, stepOption, hafter]
    exact ⟨hinv, hiff⟩
  | leaseKeepalive isGrant ttl lease outside =>
    obtain ⟨after, hafter, hinv, hiff⟩ :=
      onLeaseKeepalive_keeps_iff h hlost isGrant ttl lease outside
    rw [step, stepOption, hafter]
    exact ⟨hinv, hiff⟩
  | complete k success verdict attempt =>
    obtain ⟨after, hafter, hinv, hkept⟩ := complete_keeps h hlost k success verdict attempt
    rw [step, stepOption, hafter]
    exact ⟨hinv, iff_of_true hkept trivial⟩
  | close =>
    cases hclose : s.close with
    | none =>
      rw [step, stepOption, hclose]
      exact ⟨h, iff_of_true hlost trivial⟩
    | some after =>
      rw [step, stepOption, hclose]
      obtain ⟨hinv, hkept⟩ := close_keeps h hclose
      exact ⟨hinv, iff_of_true hkept trivial⟩
  | other curlMulti running conf rpcUpdateMembers rpcKeepalive =>
    refine ⟨⟨⟨h.fresh, fun hlease hopen => ?_, h.closing, h.enabled, h.registered, h.nodup,
      h.retryNodup⟩, h.actor⟩, iff_of_true hlost trivial⟩
    show (s.cluster.running || running) = true
    rw [h.running hlease hopen]
    rfl

/-- A new cluster, with any keepalives to be added. -/
def initial (path value : Nat → Bytes) (checker : Nat → Bool) : Publications where
  keepalives k := { addr := k, path := path k, value := value k, checker := checker k }

theorem initial_inv (path value : Nat → Bytes) (checker : Nat → Bool) :
    (initial path value checker).Inv := by
  have hfresh : ∀ k, Fresh ((initial path value checker).keepalives k) :=
    fun _ => ⟨rfl, rfl, rfl, rfl⟩
  exact ⟨⟨fun k _ => hfresh k, fun hne => absurd rfl hne, fun _ => rfl, fun hne => absurd rfl hne,
    fun _ hk => absurd hk List.not_mem_nil, List.nodup_nil, List.nodup_nil⟩,
    fun k => (hfresh k).actorOk rfl _⟩

/-- **No value is lost** in a run exactly if every unpublished keepalive that is tried again from
    the list gets a request. -/
theorem always_nothingLost_iff (path value : Nat → Bytes) (checker : Nat → Bool)
    (steps : List PublicationsStep) :
    Run.Always step NothingLost (initial path value checker) steps ↔
      Run.StepsMeet step RetriesStart (initial path value checker) steps := by
  have hside : ∀ s i, Inv s → s.NothingLost → True → s.RetriesStart i → (step s i).Inv :=
    fun s i h hlost _ _ => (step_keeps_iff h hlost i).1
  have hstep : ∀ s i, Inv s → s.NothingLost → True →
      ((step s i).NothingLost ↔ s.RetriesStart i) :=
    fun s i h hlost _ => (step_keeps_iff h hlost i).2
  exact Run.always_iff_stepsMeet step hside hstep (initial_inv path value checker)
    (fun _ hlease => absurd rfl hlease) (Run.stepsMeet_of_forall step (fun _ _ => trivial) _ _)

/-- The lease is granted, but the put request of the only keepalive cannot be created, neither at
    first nor from the list. -/
theorem not_always_nothingLost_granted :
    ¬ Run.Always step NothingLost
      (initial (fun _ => ascii "/k") (fun _ => ascii "v") (fun _ => false))
      [.other true false { pathNode := ascii "http://h" } none none, .addKeepalive 1 {},
        .leaseKeepalive true true 7 ⟨fun _ => { outcome := .createFailed },
          fun _ => { outcome := .createFailed }, fun _ => .started⟩] := by
  intro h
  have hlost : NothingLost _ := h.last
  exact absurd (hlost (by decide) (by decide) 1 (by decide) (by decide) (by decide)) (by decide)

end Publications

end LibAtapp
