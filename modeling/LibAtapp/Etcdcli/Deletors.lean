import LibAtapp.Etcdcli.HostRemoval
import LibAtapp.Etcdcli.RequestPointers

set_option autoImplicit false

/-! # Keepalive deletors

The path of a removed keepalive is deleted by a deletor. It waits in `keepalive_deletors_` for
another try, or it is in flight: then only the private data of its request refers to it. This file
has what happens to the deletors, and follows each of them from hand to hand until it is freed. -/

namespace LibAtapp

/-- How a delete request ends. -/
structure DeleteResult where
  errorCode : Int
  /-- The response code is in the success group. -/
  responseSuccess : Bool
  notFound : Bool
  deriving DecidableEq, Repr

/-- The request failed: a path that is not there counts as deleted. -/
def DeleteResult.failed (result : DeleteResult) : Bool :=
  decide (result.errorCode ≠ 0) || !result.responseSuccess && !result.notFound

/-- What comes from outside when a failed request asks for the members. -/
structure MemberRetry where
  now : Int := 0
  selectDraw : Nat := 0
  draw : Nat := 0
  outcome : StartOutcome := .started

namespace EtcdCluster

/-! ## Calls -/

/-- `add_keepalive` of a keepalive of this cluster, up to its activation. -/
def addKeepalive (self : EtcdCluster) (keepalive : Nat) (path : Bytes) (now : Int)
    (outcome : StartOutcome) : Option (EtcdCluster × Bool) :=
  if self.closing then some (self, false)
  else if keepalive ∈ self.keepaliveActors then some (self, false)
  else do
    let self ← self.setFlagEnableLease now outcome
    let self := { self with keepaliveActors := self.keepaliveActors ++ [keepalive] }
    match self.keepaliveDeletors.lookup path with
    | none => return (self, true)
    | some deletor =>
      let self := { self with keepaliveDeletors := self.keepaliveDeletors.erase path }
      let self ← self.deleteKeepaliveDeletor deletor
      return (self, true)

/-- The two loops of `remove_keepalive`. -/
def unlistKeepalive (self : EtcdCluster) (keepalive : Nat) : EtcdCluster :=
  { self with
    keepaliveActors := SwapRemove.removeFirst keepalive self.keepaliveActors
    keepaliveRetryActors := SwapRemove.removeFirst keepalive self.keepaliveRetryActors }

/-- `remove_keepalive` of a keepalive with this path. `hasData` is its `has_data()`, `addr` is the
    address of a new deletor. -/
def removeKeepalive (self : EtcdCluster) (keepalive : Nat) (path : Bytes) (hasData : Bool)
    (addr : Nat) (outcome : StartOutcome) : Option (EtcdCluster × Bool) :=
  let found := decide (keepalive ∈ self.keepaliveActors ∨ keepalive ∈ self.keepaliveRetryActors)
  let self := self.unlistKeepalive keepalive
  if found && hasData then do
    let self ← self.removeKeepalivePath { addr, path } false outcome
    return (self, true)
  else some (self, found)

/-- Only a network error asks for the members. -/
def retryAfterNetworkError (self : EtcdCluster) (errorCode : Int) (url : Bytes)
    (retry : MemberRetry) : Option EtcdCluster :=
  if errorCode ≠ 0 then
    (self.retryRequestMemberUpdate url retry.now retry.selectDraw retry.draw retry.outcome).map (·.1)
  else some self

/-- `libcurl_callback_on_remove_keepalive_path` for the request of a deletor. -/
def onRemoveKeepalivePath (self : EtcdCluster) (deletor : KeepaliveDeletor) (result : DeleteResult)
    (retry : MemberRetry) : Option EtcdCluster :=
  let url := (deletor.rpc.map (·.url)).getD []
  let deletor := { deletor with rpc := none }
  if result.failed then
    if deletor.owned then do
      let self ← self.retryAfterNetworkError result.errorCode url retry
      self.removeKeepalivePath deletor true retry.outcome
    else self.deleteKeepaliveDeletor deletor
  else self.deleteKeepaliveDeletor deletor

/-- `retry_pending_actions`. The keepalives it activates are still in the list, so they do not
    change the cluster. The outcome of a delete request depends on the path. -/
def retryPendingActions (self : EtcdCluster) (outcome : Bytes → StartOutcome) :
    Option EtcdCluster :=
  let self := if self.conf.lease ≠ 0 then { self with keepaliveRetryActors := [] } else self
  self.keepaliveDeletors.entries.foldlM
    (fun self entry => self.removeKeepalivePath entry.2 false (outcome entry.2.path))
    { self with keepaliveDeletors := ∅ }

/-- `cleanup_keepalive_deletors` -/
def cleanupKeepaliveDeletors (self : EtcdCluster) : Option EtcdCluster :=
  self.keepaliveDeletors.entries.foldlM (fun self entry => self.deleteKeepaliveDeletor entry.2)
    { self with keepaliveDeletors := ∅ }

/-- `close`. Waiting only concerns the request that revokes the lease. -/
def close (self : EtcdCluster) : Option EtcdCluster := do
  let self := { self with closing := true, running := false, rpcKeepalive := none }
  let self ← self.cleanupKeepaliveDeletors
  let self := { self with
    rpcUpdateMembers := none, keepaliveActors := [], keepaliveRetryActors := [] }
  if self.curlMulti then return { self with conf := { self.conf with lease := 0 } }
  else return self

/-- `reset`: of the configuration, the hosts stay. -/
def reset (self : EtcdCluster) : Option EtcdCluster := do
  let self ← self.close
  return { self with
    curlMulti := false, closing := false, running := false, enableLease := false
    conf := { confHosts := self.conf.confHosts, hosts := self.conf.hosts } }

/-- The destructor. -/
def destroy (self : EtcdCluster) : Option EtcdCluster := do
  let self ← self.reset
  self.cleanupKeepaliveDeletors

/-! ## Where the deletors are -/

/-- The addresses of the deletors that wait. -/
def waiting (self : EtcdCluster) : List Nat := self.keepaliveDeletors.entries.map (·.2.addr)

/-- The addresses of all deletors: waiting, in flight or freed. -/
def deletors (self : EtcdCluster) : List Nat :=
  self.waiting ++ (self.deleting.map KeepaliveDeletor.addr ++ self.freed)

/-- What is known of the deletors of a cluster: those that wait stand under their path, and all are
    owned. -/
structure DeletorInv (cluster : EtcdCluster) : Prop where
  keyed : ∀ entry ∈ cluster.keepaliveDeletors.entries, entry.1 = entry.2.path
  waitingOwned : ∀ entry ∈ cluster.keepaliveDeletors.entries, entry.2.owned = true
  deletingOwned : ∀ deletor ∈ cluster.deleting, deletor.owned = true

/-- The deletors, their requests and the lists of keepalives are those of another state. -/
structure SameDeletors (before after : EtcdCluster) : Prop where
  waiting : after.keepaliveDeletors = before.keepaliveDeletors
  deleting : after.deleting = before.deleting
  requests : after.deleteRequests = before.deleteRequests
  freed : after.freed = before.freed
  actors : after.keepaliveActors = before.keepaliveActors
  retryActors : after.keepaliveRetryActors = before.keepaliveRetryActors

namespace SameDeletors

variable {before after : EtcdCluster} (h : SameDeletors before after)
include h

theorem deletors_eq : after.deletors = before.deletors := by
  rw [deletors, deletors, EtcdCluster.waiting, EtcdCluster.waiting, h.waiting, h.deleting, h.freed]

theorem deletorInv (hinv : before.DeletorInv) : after.DeletorInv := by
  constructor
  · rw [h.waiting]
    exact hinv.keyed
  · rw [h.waiting]
    exact hinv.waitingOwned
  · rw [h.deleting]
    exact hinv.deletingOwned

end SameDeletors

variable (self : EtcdCluster)

theorem createRequestLeaseGrant_same {now : Int} {outcome : StartOutcome} {after : EtcdCluster}
    {sent : Bool} (h : self.createRequestLeaseGrant now outcome = some (after, sent)) :
    self.SameDeletors after := by
  unfold createRequestLeaseGrant at h
  dsimp only at h
  split at h
  · cases h
    exact ⟨rfl, rfl, rfl, rfl, rfl, rfl⟩
  split at h
  · cases h
    exact ⟨rfl, rfl, rfl, rfl, rfl, rfl⟩
  split at h
  · cases h
    exact ⟨rfl, rfl, rfl, rfl, rfl, rfl⟩
  cases outcome <;> cases h <;> exact ⟨rfl, rfl, rfl, rfl, rfl, rfl⟩

theorem setFlagEnableLease_same {now : Int} {outcome : StartOutcome} {after : EtcdCluster}
    (h : self.setFlagEnableLease now outcome = some after) : self.SameDeletors after := by
  unfold setFlagEnableLease at h
  split at h
  · cases h
    exact ⟨rfl, rfl, rfl, rfl, rfl, rfl⟩
  · obtain ⟨⟨granted, sent⟩, hgrant, hafter⟩ := Option.bind_eq_some_iff.1 h
    cases hafter
    obtain ⟨hwaiting, hdeleting, hrequests, hfreed, hactors, hretryActors⟩ :=
      createRequestLeaseGrant_same _ hgrant
    exact ⟨hwaiting, hdeleting, hrequests, hfreed, hactors, hretryActors⟩

/-- A keepalive that is queued for a retry only changes the list of these. -/
theorem addRetryKeepalive_cases {keepalive : Nat} {now : Int} {outcome : StartOutcome}
    {after : EtcdCluster} {added : Bool}
    (h : self.addRetryKeepalive keepalive now outcome = some (after, added)) :
    added = false ∧ after = self ∨ added = true ∧
      SameDeletors { self with keepaliveRetryActors := self.keepaliveRetryActors ++ [keepalive] }
        after := by
  unfold addRetryKeepalive at h
  split at h
  · cases h
    exact Or.inl ⟨rfl, rfl⟩
  split at h
  · cases h
    exact Or.inl ⟨rfl, rfl⟩
  · obtain ⟨mid, hmid, h⟩ := Option.bind_eq_some_iff.1 h
    cases h
    obtain ⟨hwaiting, hdeleting, hrequests, hfreed, hactors, hretryActors⟩ :=
      setFlagEnableLease_same _ hmid
    exact Or.inr ⟨rfl, hwaiting, hdeleting, hrequests, hfreed, hactors, by rw [hretryActors]⟩

theorem createRequestMemberUpdate_same {now : Int} {draw : Nat} {outcome : StartOutcome}
    {after : EtcdCluster} {sent : Bool}
    (h : self.createRequestMemberUpdate now draw outcome = some (after, sent)) :
    self.SameDeletors after := by
  unfold createRequestMemberUpdate at h
  dsimp only at h
  split at h
  · cases h
    exact ⟨rfl, rfl, rfl, rfl, rfl, rfl⟩
  split at h
  · cases h
    exact ⟨rfl, rfl, rfl, rfl, rfl, rfl⟩
  split at h
  · cases h
    exact ⟨rfl, rfl, rfl, rfl, rfl, rfl⟩
  split at h
  · split at h <;> cases h <;> exact ⟨rfl, rfl, rfl, rfl, rfl, rfl⟩
  · cases outcome <;> cases h <;> exact ⟨rfl, rfl, rfl, rfl, rfl, rfl⟩

theorem retryRequestMemberUpdate_same {badUrl : Bytes} {now : Int} {selectDraw draw : Nat}
    {outcome : StartOutcome} {after : EtcdCluster} {sent : Bool}
    (h : self.retryRequestMemberUpdate badUrl now selectDraw draw outcome = some (after, sent)) :
    self.SameDeletors after := by
  unfold retryRequestMemberUpdate at h
  dsimp only at h
  generalize hmid : (if self.conf.pathNode = [] then self.selectClusterMember selectDraw
    else if Conf.strncaseEq self.conf.pathNode badUrl self.conf.pathNode.length = true then
      ({ self with conf := { self.conf with
          hosts := SwapRemove.removeAll self.conf.pathNode self.conf.hosts } }
        ).selectClusterMember selectDraw
    else self) = mid at h
  have hsame : self.SameDeletors mid := by
    rw [← hmid]
    split
    · exact ⟨rfl, rfl, rfl, rfl, rfl, rfl⟩
    · split <;> exact ⟨rfl, rfl, rfl, rfl, rfl, rfl⟩
  obtain ⟨hwaiting, hdeleting, hrequests, hfreed, hactors, hretryActors⟩ := hsame
  generalize (if (!mid.running) = true ∧ mid.conf.etcdMembersInitRetryInterval > 0 then
      mid.conf.etcdMembersInitRetryInterval
    else if mid.conf.etcdMembersRetryInterval ≤ 0 then 60000
    else mid.conf.etcdMembersRetryInterval) = retryInterval at h
  split at h
  · cases h
    exact ⟨hwaiting, hdeleting, hrequests, hfreed, hactors, hretryActors⟩
  split at h
  · cases h
    exact ⟨hwaiting, hdeleting, hrequests, hfreed, hactors, hretryActors⟩
  · obtain ⟨hwaiting', hdeleting', hrequests', hfreed', hactors', hretryActors'⟩ :=
      createRequestMemberUpdate_same _ h
    exact ⟨hwaiting'.trans hwaiting, hdeleting'.trans hdeleting, hrequests'.trans hrequests,
      hfreed'.trans hfreed, hactors'.trans hactors, hretryActors'.trans hretryActors⟩

theorem retryAfterNetworkError_same (errorCode : Int) (url : Bytes) (retry : MemberRetry) :
    ∃ after, self.retryAfterNetworkError errorCode url retry = some after ∧
      self.SameDeletors after := by
  unfold retryAfterNetworkError
  by_cases herror : errorCode ≠ 0
  · obtain ⟨asked, sent, hasked, -⟩ := self.retryRequestMemberUpdate_conf url retry.now
      retry.selectDraw retry.draw retry.outcome
    rw [if_pos herror, hasked]
    exact ⟨asked, rfl, retryRequestMemberUpdate_same _ hasked⟩
  · rw [if_neg herror]
    exact ⟨self, rfl, rfl, rfl, rfl, rfl, rfl, rfl⟩

/-! ## A deletor comes in -/

/-- What is left of the map without a path, and what stood there. -/
theorem entries_perm_erase {map : AList (fun _ : Bytes => KeepaliveDeletor)} {path : Bytes}
    {deletor : KeepaliveDeletor} (h : map.lookup path = some deletor) :
    map.entries.Perm (⟨path, deletor⟩ :: (map.erase path).entries) := by
  have hmem : path ∈ map.entries.keys :=
    AList.mem_keys.2 (AList.lookup_isSome.1 (by rw [h]; rfl))
  obtain ⟨value, front, back, hfront, hentries, herase⟩ := List.exists_of_kerase hmem
  have hvalue : value = deletor := by
    have hlookup : map.lookup path = some value := by
      show map.entries.dlookup path = some value
      rw [hentries, List.dlookup_append]
      simp [List.dlookup_eq_none.2 hfront]
    rw [hlookup] at h
    exact Option.some.inj h
  have hrest : (map.erase path).entries = front ++ back := herase
  rw [hrest, hentries, hvalue]
  exact List.perm_middle

theorem mem_entries_of_lookup {map : AList (fun _ : Bytes => KeepaliveDeletor)} {path : Bytes}
    {deletor : KeepaliveDeletor} (h : map.lookup path = some deletor) :
    (⟨path, deletor⟩ : Sigma fun _ : Bytes => KeepaliveDeletor) ∈ map.entries :=
  (entries_perm_erase h).mem_iff.2 List.mem_cons_self

theorem entries_erase_subset (map : AList (fun _ : Bytes => KeepaliveDeletor)) (path : Bytes) :
    (map.erase path).entries ⊆ map.entries :=
  (List.kerase_sublist path map.entries).subset

theorem DeletorInv.erase {cluster : EtcdCluster} (h : cluster.DeletorInv) (path : Bytes) :
    DeletorInv { cluster with keepaliveDeletors := cluster.keepaliveDeletors.erase path } where
  keyed entry hentry := h.keyed entry (entries_erase_subset _ _ hentry)
  waitingOwned entry hentry := h.waitingOwned entry (entries_erase_subset _ _ hentry)
  deletingOwned := h.deletingOwned

theorem deletors_erase {path : Bytes} {deletor : KeepaliveDeletor}
    (h : self.keepaliveDeletors.lookup path = some deletor) :
    self.deletors.Perm (deletor.addr ::
      ({ self with keepaliveDeletors := self.keepaliveDeletors.erase path }).deletors) :=
  ((entries_perm_erase h).map _).append_right _

theorem deletors_free (addr : Nat) :
    ({ self with freed := addr :: self.freed }).deletors.Perm (addr :: self.deletors) := by
  show (self.waiting ++ (self.deleting.map _ ++ addr :: self.freed)).Perm _
  exact (List.perm_middle.append_left _).trans List.perm_middle

/-- A deletor has come in: it waits, is in flight or is freed, and the others are where they were
    or freed. -/
structure Received (before after : EtcdCluster) (addr : Nat) (path : Bytes) : Prop where
  deletors : after.deletors.Perm (addr :: before.deletors)
  waits : ∀ other, other ∈ after.keepaliveDeletors →
    other = path ∨ other ∈ before.keepaliveDeletors
  requests : after.deleteRequests = before.deleteRequests ∨
    after.deleteRequests = path :: before.deleteRequests
  inv : before.DeletorInv → after.DeletorInv
  actors : after.keepaliveActors = before.keepaliveActors
  retryActors : after.keepaliveRetryActors = before.keepaliveRetryActors

theorem received_free (addr : Nat) (path : Bytes) :
    self.Received { self with freed := addr :: self.freed } addr path where
  deletors := self.deletors_free addr
  waits _ hother := Or.inr hother
  requests := Or.inl rfl
  inv h := ⟨h.keyed, h.waitingOwned, h.deletingOwned⟩
  actors := rfl
  retryActors := rfl

theorem received_wait (deletor : KeepaliveDeletor) (hpath : deletor.path ∉ self.keepaliveDeletors)
    (howned : deletor.owned = true) :
    self.Received (self.retryDeletorLater deletor) deletor.addr deletor.path where
  deletors := by
    rw [retryDeletorLater, EtcdCluster.deletors, EtcdCluster.waiting,
      AList.entries_insert_of_notMem hpath]
    rfl
  waits path h := (AList.mem_insert _).1 h
  requests := Or.inl rfl
  inv h := by
    constructor
    · intro entry hentry
      rw [retryDeletorLater, AList.entries_insert_of_notMem hpath] at hentry
      rcases List.mem_cons.1 hentry with rfl | hentry
      · rfl
      · exact h.keyed entry hentry
    · intro entry hentry
      rw [retryDeletorLater, AList.entries_insert_of_notMem hpath] at hentry
      rcases List.mem_cons.1 hentry with rfl | hentry
      · exact howned
      · exact h.waitingOwned entry hentry
    · exact h.deletingOwned
  actors := rfl
  retryActors := rfl

/-- The request of the deletor is made. -/
theorem Received.request {before after : EtcdCluster} {addr : Nat} {path : Bytes}
    (h : Received { before with deleteRequests := path :: before.deleteRequests } after addr path)
    (hsame : after.deleteRequests = path :: before.deleteRequests) :
    before.Received after addr path where
  deletors := h.deletors
  waits := h.waits
  requests := Or.inr hsame
  inv hinv := h.inv ⟨hinv.keyed, hinv.waitingOwned, hinv.deletingOwned⟩
  actors := h.actors
  retryActors := h.retryActors

theorem received_delete (deletor : KeepaliveDeletor) (howned : deletor.owned = true) :
    self.Received { self with
      deleteRequests := deletor.path :: self.deleteRequests
      deleting := deletor :: self.deleting } deletor.addr deletor.path where
  deletors := List.perm_middle
  waits _ h := Or.inr h
  requests := Or.inr rfl
  inv h := ⟨h.keyed, h.waitingOwned, by simpa [howned] using h.deletingOwned⟩
  actors := rfl
  retryActors := rfl

/-- A deletor whose path is not in the map. -/
theorem deleteKeepalivePath_received {deletor : KeepaliveDeletor} {delayDelete : Bool}
    (hpath : deletor.path ∉ self.keepaliveDeletors)
    (howned : delayDelete = true → deletor.owned = true) (outcome : StartOutcome) :
    ∃ after, self.deleteKeepalivePath deletor delayDelete outcome = some after ∧
      self.Received after deletor.addr deletor.path := by
  unfold deleteKeepalivePath
  dsimp only
  by_cases hdelay : delayDelete = true
  · rw [if_pos hdelay]
    exact ⟨_, rfl, received_wait _ deletor hpath (howned hdelay)⟩
  rw [if_neg hdelay]
  by_cases htries : deletor.retryTimes + 1 >
      if self.conf.keepaliveRetryTimes = 0 then 8 else self.conf.keepaliveRetryTimes
  · rw [if_pos htries, deleteKeepaliveDeletor_eq]
    exact ⟨_, rfl, received_free _ deletor.addr deletor.path⟩
  rw [if_neg htries]
  cases hrpc : self.createRequestKvDel deletor.path (ascii "+1") outcome with
  | none =>
    exact ⟨_, rfl, received_wait _
      { deletor with owned := true, retryTimes := deletor.retryTimes + 1 } hpath rfl⟩
  | some request =>
    have hstarted := received_delete self
      { deletor with owned := true, retryTimes := deletor.retryTimes + 1, rpc := some request } rfl
    cases outcome with
    | createFailed => exact ⟨_, rfl, hstarted⟩
    | startFailed =>
      refine ⟨_, rfl, Received.request ?_ rfl⟩
      exact received_wait { self with deleteRequests := deletor.path :: self.deleteRequests }
        { deletor with owned := true, retryTimes := deletor.retryTimes + 1, rpc := none } hpath rfl
    | started => exact ⟨_, rfl, hstarted⟩

/-- `remove_keepalive_path` takes in a deletor that does not wait. An older deletor of its path is
    freed. -/
theorem removeKeepalivePath_received (deletor : KeepaliveDeletor) {delayDelete : Bool}
    (hfresh : deletor.addr ∉ self.waiting) (howned : delayDelete = true → deletor.owned = true)
    (outcome : StartOutcome) :
    ∃ after, self.removeKeepalivePath deletor delayDelete outcome = some after ∧
      self.Received after deletor.addr deletor.path := by
  obtain ⟨mid, hmid, hreceived⟩ := deleteKeepalivePath_received
    { self with keepaliveDeletors := self.keepaliveDeletors.erase deletor.path }
    (show deletor.path ∉ self.keepaliveDeletors.erase deletor.path by simp [AList.mem_erase])
    howned outcome
  have hwaits : ∀ other, other ∈ mid.keepaliveDeletors →
      other = deletor.path ∨ other ∈ self.keepaliveDeletors :=
    fun other hother => (hreceived.waits other hother).imp_right fun h => (AList.mem_erase.1 h).2
  unfold removeKeepalivePath
  dsimp only
  rw [hmid]
  show ∃ after, (match (self.keepaliveDeletors.lookup deletor.path).filter
      (fun old => old.addr ≠ deletor.addr) with
    | none => some mid
    | some old => mid.deleteKeepaliveDeletor old) = some after ∧ _
  cases hold : self.keepaliveDeletors.lookup deletor.path with
  | none =>
    have herase : self.keepaliveDeletors.erase deletor.path = self.keepaliveDeletors :=
      AList.ext (List.kerase_of_notMem_keys (AList.lookup_eq_none.1 hold))
    rw [herase] at hreceived
    exact ⟨mid, rfl, hreceived⟩
  | some old =>
    have hne : old.addr ≠ deletor.addr := by
      intro heq
      exact hfresh (heq ▸ List.mem_map.2 ⟨_, mem_entries_of_lookup hold, rfl⟩)
    have hfilter : (some old).filter (fun old => old.addr ≠ deletor.addr) = some old := by
      simp [hne]
    rw [hfilter]
    refine ⟨{ mid with freed := old.addr :: mid.freed }, mid.deleteKeepaliveDeletor_eq old, ?_⟩
    constructor
    · -- the old deletor is freed where it leaves the map
      refine (mid.deletors_free old.addr).trans ((hreceived.deletors.cons old.addr).trans ?_)
      exact (List.Perm.swap _ _ _).trans ((self.deletors_erase hold).symm.cons deletor.addr)
    · exact hwaits
    · exact hreceived.requests
    · intro hinv
      obtain ⟨hkeyed, hwaiting, hdeleting⟩ := hreceived.inv (hinv.erase _)
      exact ⟨hkeyed, hwaiting, hdeleting⟩
    · exact hreceived.actors
    · exact hreceived.retryActors

/-- Freeing an older deletor changes neither the map nor the requests. -/
theorem removeKeepalivePath_inv {deletor : KeepaliveDeletor} {delayDelete : Bool}
    {outcome : StartOutcome} {after : EtcdCluster}
    (h : self.removeKeepalivePath deletor delayDelete outcome = some after) :
    ∃ mid, { self with keepaliveDeletors := self.keepaliveDeletors.erase deletor.path
        }.deleteKeepalivePath deletor delayDelete outcome = some mid ∧
      after.keepaliveDeletors = mid.keepaliveDeletors ∧
      after.deleteRequests = mid.deleteRequests := by
  obtain ⟨mid, hmid, hafter⟩ := Option.bind_eq_some_iff.1 h
  refine ⟨mid, hmid, ?_⟩
  cases hold : (self.keepaliveDeletors.lookup deletor.path).filter
      (fun old => old.addr ≠ deletor.addr) with
  | none =>
    rw [hold] at hafter
    cases hafter
    exact ⟨rfl, rfl⟩
  | some old =>
    rw [hold] at hafter
    cases (mid.deleteKeepaliveDeletor_eq old).symm.trans hafter
    exact ⟨rfl, rfl⟩

/-- A deletor that is put back waits, and makes no request. -/
theorem removeKeepalivePath_delayed {deletor : KeepaliveDeletor} {outcome : StartOutcome}
    {after : EtcdCluster} (h : self.removeKeepalivePath deletor true outcome = some after) :
    after.deleteRequests = self.deleteRequests ∧ deletor.path ∈ after.keepaliveDeletors := by
  obtain ⟨mid, hmid, hwaits, hrequests⟩ := removeKeepalivePath_inv _ h
  cases hmid
  rw [hwaits, hrequests]
  exact ⟨rfl, (AList.mem_insert _).2 (Or.inl rfl)⟩

/-- A new deletor makes a request, or waits. -/
theorem removeKeepalivePath_new {addr : Nat} {path : Bytes} {outcome : StartOutcome}
    {after : EtcdCluster}
    (h : self.removeKeepalivePath { addr, path } false outcome = some after) :
    after.deleteRequests = path :: self.deleteRequests ∨ path ∈ after.keepaliveDeletors := by
  obtain ⟨mid, hmid, hwaits, hrequests⟩ := removeKeepalivePath_inv _ h
  rw [hwaits, hrequests]
  unfold deleteKeepalivePath at hmid
  dsimp only at hmid
  -- the first try is within every bound
  have htries : ¬ 0 + 1 > if self.conf.keepaliveRetryTimes = 0 then 8
      else self.conf.keepaliveRetryTimes := by
    split <;> omega
  rw [if_neg Bool.false_ne_true, if_neg htries] at hmid
  split at hmid
  · cases hmid
    exact Or.inr ((AList.mem_insert _).2 (Or.inl rfl))
  · obtain ⟨request, -, hmid⟩ := Option.bind_eq_some_iff.1 hmid
    split at hmid <;> cases hmid
    · exact Or.inr ((AList.mem_insert _).2 (Or.inl rfl))
    · exact Or.inl rfl

/-! ## What the calls do to the deletors -/

/-- The request of a deletor is complete: a deletor of this cluster waits for another try exactly if
    it failed, else it is freed. -/
theorem onRemoveKeepalivePath_received {deletor : KeepaliveDeletor}
    (hfresh : deletor.addr ∉ self.waiting) (howned : deletor.owned = true) (result : DeleteResult)
    (retry : MemberRetry) :
    ∃ after, self.onRemoveKeepalivePath deletor result retry = some after ∧
      self.Received after deletor.addr deletor.path ∧
      after.deleteRequests = self.deleteRequests ∧
      (result.failed = true → deletor.path ∈ after.keepaliveDeletors) ∧
      (result.failed = false → after.keepaliveDeletors = self.keepaliveDeletors) := by
  unfold onRemoveKeepalivePath
  dsimp only
  cases hfailed : result.failed with
  | false =>
    rw [if_neg (by simp), deleteKeepaliveDeletor_eq]
    exact ⟨_, rfl, received_free _ deletor.addr deletor.path, rfl, by simp, fun _ => rfl⟩
  | true =>
    rw [if_pos rfl, if_pos howned]
    obtain ⟨mid, hmid, hsame⟩ := self.retryAfterNetworkError_same result.errorCode
      ((deletor.rpc.map (·.url)).getD []) retry
    have hfresh' : deletor.addr ∉ mid.waiting := by
      rw [waiting, hsame.waiting]
      exact hfresh
    obtain ⟨after, hafter, hreceived⟩ := removeKeepalivePath_received mid
      { deletor with rpc := none } hfresh' (fun _ => howned) retry.outcome
    have hdelayed := removeKeepalivePath_delayed mid hafter
    refine ⟨after, Option.bind_eq_some_iff.2 ⟨mid, hmid, hafter⟩, ?_, ?_, fun _ => hdelayed.2,
      by simp⟩
    · constructor
      · rw [← hsame.deletors_eq]
        exact hreceived.deletors
      · rw [← hsame.waiting]
        exact hreceived.waits
      · rw [← hsame.requests]
        exact hreceived.requests
      · exact fun hinv => hreceived.inv (hsame.deletorInv hinv)
      · exact hreceived.actors.trans hsame.actors
      · exact hreceived.retryActors.trans hsame.retryActors
    · exact hdelayed.1.trans hsame.requests

/-- The waiting deletors come in again, one after the other. Only for their paths requests are
    made. -/
theorem foldlM_removeKeepalivePath
    (entries : List (Sigma fun _ : Bytes => KeepaliveDeletor)) (outcome : Bytes → StartOutcome)
    (hnodup : (entries.map (·.2.addr) ++ self.deletors).Nodup) :
    ∃ after, entries.foldlM
        (fun self entry => self.removeKeepalivePath entry.2 false (outcome entry.2.path)) self =
          some after ∧
      after.deletors.Perm (entries.map (·.2.addr) ++ self.deletors) ∧
      (∀ path ∈ after.keepaliveDeletors,
        path ∈ entries.map (·.2.path) ∨ path ∈ self.keepaliveDeletors) ∧
      (∀ path ∉ entries.map (·.2.path),
        after.deleteRequests.count path = self.deleteRequests.count path) ∧
      (self.DeletorInv → after.DeletorInv) ∧ after.keepaliveActors = self.keepaliveActors ∧
      after.keepaliveRetryActors = self.keepaliveRetryActors := by
  induction entries generalizing self with
  | nil => exact ⟨self, rfl, List.Perm.refl _, fun _ h => Or.inr h, fun _ _ => rfl, id, rfl, rfl⟩
  | cons entry entries ih =>
    rw [List.map_cons, List.cons_append, List.nodup_cons] at hnodup
    have hfresh : entry.2.addr ∉ self.waiting := fun h =>
      hnodup.1 (List.mem_append_right _ (List.mem_append_left _ h))
    obtain ⟨mid, hmid, hreceived⟩ := removeKeepalivePath_received self entry.2 hfresh
      (fun h => absurd h Bool.false_ne_true) (outcome entry.2.path)
    have hperm : (entries.map (·.2.addr) ++ mid.deletors).Perm
        (entry.2.addr :: (entries.map (·.2.addr) ++ self.deletors)) :=
      (hreceived.deletors.append_left _).trans List.perm_middle
    obtain ⟨after, hafter, hdeletors, hwaits, hrequests, hinv, hactors, hretryActors⟩ :=
      ih mid (hperm.nodup_iff.2 (List.nodup_cons.2 hnodup))
    refine ⟨after, ?_, hdeletors.trans hperm, ?_, ?_, fun h => hinv (hreceived.inv h),
      hactors.trans hreceived.actors, hretryActors.trans hreceived.retryActors⟩
    · rw [List.foldlM_cons, hmid]
      exact hafter
    · intro path hpath
      rcases hwaits path hpath with h | h
      · exact Or.inl (List.mem_cons_of_mem _ h)
      · rcases hreceived.waits path h with rfl | h
        · exact Or.inl List.mem_cons_self
        · exact Or.inr h
    · intro path hpath
      rw [List.map_cons, List.mem_cons, not_or] at hpath
      rw [hrequests path hpath.2]
      rcases hreceived.requests with h | h
      · rw [h]
      · rw [h, List.count_cons_of_ne (Ne.symm hpath.1)]

/-- A tick takes the waiting deletors out of the map and back in. -/
theorem retryPendingActions_spec (outcome : Bytes → StartOutcome) (hinv : self.DeletorInv)
    (hnodup : self.deletors.Nodup) :
    ∃ after, self.retryPendingActions outcome = some after ∧
      (self.keepaliveDeletors = ∅ → after.deleting = self.deleting) ∧
      after.deletors.Perm self.deletors ∧
      (∀ path ∈ after.keepaliveDeletors, path ∈ self.keepaliveDeletors) ∧
      (∀ path ∉ self.keepaliveDeletors,
        after.deleteRequests.count path = self.deleteRequests.count path) ∧
      after.DeletorInv ∧ after.keepaliveActors = self.keepaliveActors ∧
      after.keepaliveRetryActors ⊆ self.keepaliveRetryActors := by
  have hpaths : ∀ path, path ∈ self.keepaliveDeletors.entries.map (·.2.path) ↔
      path ∈ self.keepaliveDeletors := by
    intro path
    rw [AList.mem_keys, AList.keys, List.keys, List.mem_map, List.mem_map]
    constructor
    · rintro ⟨entry, hentry, rfl⟩
      exact ⟨entry, hentry, hinv.keyed entry hentry⟩
    · rintro ⟨entry, hentry, rfl⟩
      exact ⟨entry, hentry, (hinv.keyed entry hentry).symm⟩
  unfold retryPendingActions
  generalize hcleared : (if self.conf.lease ≠ 0 then { self with keepaliveRetryActors := [] }
    else self) = cleared
  have hwaiting : cleared.keepaliveDeletors = self.keepaliveDeletors := by
    rw [← hcleared]
    split <;> rfl
  have hkept : cleared.deletors = self.deletors ∧ cleared.deleteRequests = self.deleteRequests ∧
      cleared.deleting = self.deleting ∧ cleared.keepaliveActors = self.keepaliveActors := by
    rw [← hcleared]
    split <;> exact ⟨rfl, rfl, rfl, rfl⟩
  have hsubset : cleared.keepaliveRetryActors ⊆ self.keepaliveRetryActors := by
    rw [← hcleared]
    split
    · exact List.nil_subset _
    · exact List.Subset.refl _
  obtain ⟨hsame, hsameRequests, hsameDeleting, hsameActors⟩ := hkept
  dsimp only
  obtain ⟨after, hafter, hdeletors, hwaits, hrequests, hafterInv, hactors, hretryActors⟩ :=
    foldlM_removeKeepalivePath { cleared with keepaliveDeletors := ∅ }
      cleared.keepaliveDeletors.entries outcome (show cleared.deletors.Nodup by rwa [hsame])
  rw [hwaiting] at hwaits hrequests
  refine ⟨after, hafter, fun hempty => ?_, ?_, ?_, ?_, ?_, hactors.trans hsameActors, ?_⟩
  · rw [hwaiting, hempty] at hafter
    cases hafter
    exact hsameDeleting
  · rw [← hsame]
    exact hdeletors
  · intro path hpath
    rcases hwaits path hpath with h | h
    · exact (hpaths path).1 h
    · exact absurd h (AList.notMem_empty path)
  · intro path hpath
    rw [hrequests path (fun h => hpath ((hpaths path).1 h)), ← hsameRequests]
  · refine hafterInv ⟨by simp, by simp, ?_⟩
    show ∀ deletor ∈ cleared.deleting, deletor.owned = true
    rw [hsameDeleting]
    exact hinv.deletingOwned
  · rw [hretryActors]
    exact hsubset

/-- The waiting deletors are freed. -/
theorem foldlM_deleteKeepaliveDeletor
    (entries : List (Sigma fun _ : Bytes => KeepaliveDeletor)) :
    entries.foldlM (fun self entry => self.deleteKeepaliveDeletor entry.2) self =
      some { self with freed := (entries.map (·.2.addr)).reverse ++ self.freed } := by
  induction entries generalizing self with
  | nil => rfl
  | cons entry entries ih =>
    rw [List.foldlM_cons, deleteKeepaliveDeletor_eq]
    show entries.foldlM _ { self with freed := entry.2.addr :: self.freed } = _
    rw [ih]
    simp

theorem cleanupKeepaliveDeletors_eq :
    self.cleanupKeepaliveDeletors =
      some { self with keepaliveDeletors := ∅, freed := self.waiting.reverse ++ self.freed } :=
  foldlM_deleteKeepaliveDeletor { self with keepaliveDeletors := ∅ } _

/-- The cluster is closed: no deletor waits and no keepalive is left, but the deletors in flight
    are. -/
structure Shut (before after : EtcdCluster) : Prop where
  waiting : after.keepaliveDeletors = ∅
  deleting : after.deleting = before.deleting
  requests : after.deleteRequests = before.deleteRequests
  freed : after.freed = before.waiting.reverse ++ before.freed
  actors : after.keepaliveActors = []
  retryActors : after.keepaliveRetryActors = []

theorem close_shut : ∃ after, self.close = some after ∧ self.Shut after := by
  unfold close
  dsimp only
  rw [cleanupKeepaliveDeletors_eq]
  show ∃ after, (if self.curlMulti = true then _ else _) = some after ∧ _
  split
  · exact ⟨_, rfl, rfl, rfl, rfl, rfl, rfl, rfl⟩
  · exact ⟨_, rfl, rfl, rfl, rfl, rfl, rfl, rfl⟩

theorem reset_shut : ∃ after, self.reset = some after ∧ self.Shut after := by
  obtain ⟨closed, hclosed, hshut⟩ := self.close_shut
  unfold reset
  rw [hclosed]
  exact ⟨_, rfl, hshut.waiting, hshut.deleting, hshut.requests, hshut.freed, hshut.actors,
    hshut.retryActors⟩

theorem destroy_shut : ∃ after, self.destroy = some after ∧ self.Shut after := by
  obtain ⟨after, hafter, hshut⟩ := self.reset_shut
  unfold destroy
  rw [hafter]
  refine ⟨_, after.cleanupKeepaliveDeletors_eq, rfl, hshut.deleting, hshut.requests, ?_,
    hshut.actors, hshut.retryActors⟩
  show after.waiting.reverse ++ after.freed = _
  rw [waiting, hshut.waiting]
  exact hshut.freed

theorem Shut.deletors {before after : EtcdCluster} (h : before.Shut after) :
    after.deletors.Perm before.deletors := by
  rw [EtcdCluster.deletors, EtcdCluster.waiting, h.waiting, h.deleting, h.freed]
  show (before.deleting.map _ ++ (before.waiting.reverse ++ before.freed)).Perm _
  rw [← List.append_assoc]
  have hswap : (before.deleting.map KeepaliveDeletor.addr ++ before.waiting.reverse).Perm
      (before.waiting ++ before.deleting.map KeepaliveDeletor.addr) :=
    List.perm_append_comm.trans ((List.reverse_perm _).append_right _)
  rw [EtcdCluster.deletors, ← List.append_assoc]
  exact hswap.append_right _

/-- `add_keepalive` frees the deletor that waits for the path. -/
structure Added (before after : EtcdCluster) (keepalive : Nat) (path : Bytes) : Prop where
  fresh : keepalive ∉ before.keepaliveActors
  actors : after.keepaliveActors = before.keepaliveActors ++ [keepalive]
  waits : ∀ other, other ∈ after.keepaliveDeletors ↔
    other ≠ path ∧ other ∈ before.keepaliveDeletors
  deletors : after.deletors.Perm before.deletors
  requests : after.deleteRequests = before.deleteRequests
  inv : before.DeletorInv → after.DeletorInv

theorem addKeepalive_cases {keepalive : Nat} {path : Bytes} {now : Int} {outcome : StartOutcome}
    {after : EtcdCluster} {added : Bool}
    (h : self.addKeepalive keepalive path now outcome = some (after, added)) :
    added = false ∧ after = self ∨ added = true ∧ self.Added after keepalive path := by
  unfold addKeepalive at h
  split at h
  · cases h
    exact Or.inl ⟨rfl, rfl⟩
  split at h
  · cases h
    exact Or.inl ⟨rfl, rfl⟩
  next hnew =>
    obtain ⟨mid, hmid, h⟩ := Option.bind_eq_some_iff.1 h
    have hsame := setFlagEnableLease_same _ hmid
    have hactors : mid.keepaliveActors ++ [keepalive] = self.keepaliveActors ++ [keepalive] := by
      rw [hsame.actors]
    dsimp only at h
    right
    cases hlookup : mid.keepaliveDeletors.lookup path with
    | none =>
      rw [hlookup] at h
      cases h
      refine ⟨rfl, hnew, hactors, fun other => ?_, ?_, hsame.requests, fun hinv => ?_⟩
      · show other ∈ mid.keepaliveDeletors ↔ _
        rw [hsame.waiting] at hlookup ⊢
        refine ⟨fun hother => ⟨?_, hother⟩, And.right⟩
        rintro rfl
        exact AList.lookup_eq_none.1 hlookup hother
      · rw [← hsame.deletors_eq]
        exact List.Perm.refl _
      · obtain ⟨hkeyed, hwaiting, hdeleting⟩ := hsame.deletorInv hinv
        exact ⟨hkeyed, hwaiting, hdeleting⟩
    | some deletor =>
      rw [hlookup] at h
      simp only [deleteKeepaliveDeletor_eq, Option.bind_eq_bind, Option.bind_some] at h
      cases h
      refine ⟨rfl, hnew, hactors, fun other => ?_, ?_, hsame.requests, fun hinv => ?_⟩
      · show other ∈ mid.keepaliveDeletors.erase path ↔ _
        rw [AList.mem_erase, hsame.waiting]
      · rw [← hsame.deletors_eq]
        exact (deletors_free
          { mid with keepaliveDeletors := mid.keepaliveDeletors.erase path } deletor.addr).trans
          (mid.deletors_erase hlookup).symm
      · obtain ⟨hkeyed, hwaiting, hdeleting⟩ := (hsame.deletorInv hinv).erase path
        exact ⟨hkeyed, hwaiting, hdeleting⟩

/-- The path of a keepalive that is found and has data gets a new deletor. -/
theorem removeKeepalive_cases (keepalive : Nat) (path : Bytes) (hasData : Bool) {addr : Nat}
    (hfresh : addr ∉ self.waiting) (outcome : StartOutcome) :
    (self.removeKeepalive keepalive path hasData addr outcome = some (self, false) ∧
      ¬ (keepalive ∈ self.keepaliveActors ∨ keepalive ∈ self.keepaliveRetryActors)) ∨
    (self.removeKeepalive keepalive path hasData addr outcome =
        some (self.unlistKeepalive keepalive, true) ∧
      (keepalive ∈ self.keepaliveActors ∨ keepalive ∈ self.keepaliveRetryActors) ∧
      hasData = false) ∨
    ∃ after, self.removeKeepalive keepalive path hasData addr outcome = some (after, true) ∧
      (keepalive ∈ self.keepaliveActors ∨ keepalive ∈ self.keepaliveRetryActors) ∧
      hasData = true ∧ (self.unlistKeepalive keepalive).Received after addr path ∧
      (after.deleteRequests = path :: self.deleteRequests ∨ path ∈ after.keepaliveDeletors) := by
  unfold removeKeepalive
  by_cases hfound : keepalive ∈ self.keepaliveActors ∨ keepalive ∈ self.keepaliveRetryActors
  · rw [decide_eq_true hfound]
    cases hasData with
    | false => exact Or.inr (Or.inl ⟨rfl, hfound, rfl⟩)
    | true =>
      obtain ⟨after, hafter, hreceived⟩ := removeKeepalivePath_received
        (self.unlistKeepalive keepalive) { addr, path } hfresh
        (fun h => absurd h Bool.false_ne_true) outcome
      refine Or.inr (Or.inr ⟨after, ?_, hfound, rfl, hreceived, ?_⟩)
      · exact Option.bind_eq_some_iff.2 ⟨after, hafter, rfl⟩
      · exact removeKeepalivePath_new (self.unlistKeepalive keepalive) hafter
  · rw [decide_eq_false hfound]
    rw [not_or] at hfound
    refine Or.inl ⟨?_, not_or.2 hfound⟩
    show some (self.unlistKeepalive keepalive, false) = _
    rw [unlistKeepalive, SwapRemove.removeFirst_of_not_mem _ hfound.1,
      SwapRemove.removeFirst_of_not_mem _ hfound.2]

end EtcdCluster

end LibAtapp
