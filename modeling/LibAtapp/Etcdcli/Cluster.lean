import LibAtapp.Conf.Scalars
import LibAtapp.Etcdcli.KeyRange
import LibAtapp.Etcdcli.Watcher
import LibAtapp.Library.SwapRemove
import Mathlib.Data.List.AList

set_option autoImplicit false

/-! # The etcd cluster: members, lease and requests

The part of `etcd_cluster` that keeps the list of hosts, renews the lease, creates requests and
deletes the paths of removed keepalives. The time, the random numbers and the outcome of a request
are arguments. Pointers to requests are options, and `none` as the result of a function means that
it used a member of a null request. Logs, statistics and authorization are left out. -/

namespace LibAtapp

/-! ## Requests -/

/-- What a request asks etcd for. -/
inductive RequestBody where
  | memberList
  | leaseGrant (id ttl : Int)
  | leaseKeepalive (id : Int)
  | kvGet (range : KeyRange)
  | kvSet (key value : Bytes) (lease : Int)
  | kvDel (range : KeyRange)
  deriving DecidableEq, Repr

/-- `http_request`, as far as it is set up here. -/
structure HttpRequest where
  url : Bytes
  body : RequestBody
  timeoutMs : Int
  deriving DecidableEq, Repr

/-- `http_request::ptr_t`. -/
abbrev HttpRequestPtr := Option HttpRequest

namespace HttpRequestPtr

/-- `http_request::create`, which may return null. -/
def create (request : HttpRequest) : StartOutcome → HttpRequestPtr
  | .createFailed => none
  | .startFailed | .started => some request

/-- `->`: the request a pointer refers to, which a null pointer does not have. -/
def deref (ptr : HttpRequestPtr) : Option HttpRequest := ptr

end HttpRequestPtr

/-- `ETCD_API_V3_MEMBER_LIST` -/
def apiMemberList : Bytes := ascii "/v3/cluster/member/list"
/-- `ETCD_API_V3_KV_GET` -/
def apiKvGet : Bytes := ascii "/v3/kv/range"
/-- `ETCD_API_V3_KV_SET` -/
def apiKvSet : Bytes := ascii "/v3/kv/put"
/-- `ETCD_API_V3_KV_DELETE` -/
def apiKvDelete : Bytes := ascii "/v3/kv/deleterange"
/-- `ETCD_API_V3_LEASE_GRANT` -/
def apiLeaseGrant : Bytes := ascii "/v3/lease/grant"
/-- `ETCD_API_V3_LEASE_KEEPALIVE` -/
def apiLeaseKeepalive : Bytes := ascii "/v3/lease/keepalive"

/-! ## State -/

/-- `etcd_keepalive_deletor`, with its address. `owned` says that `owner` is the cluster. -/
structure KeepaliveDeletor where
  addr : Nat
  path : Bytes
  retryTimes : Nat := 0
  owned : Bool := false
  rpc : HttpRequestPtr := none
  deriving DecidableEq

/-- `etcd_cluster::conf_t`, as far as it is used here. Durations and times are in milliseconds. -/
structure ClusterConf where
  confHosts : List Bytes := []
  hosts : List Bytes := []
  httpRequestTimeout : Int := 10000
  pathNode : Bytes := []
  etcdMembersNextUpdateTime : Int := 0
  etcdMembersUpdateInterval : Int := 300000
  etcdMembersRetryInterval : Int := 60000
  etcdMembersInitRetryInterval : Int := 3000
  lease : Int := 0
  keepaliveNextUpdateTime : Int := 0
  keepaliveTimeout : Int := 16000
  keepaliveInterval : Int := 5000
  keepaliveRetryInterval : Int := 3000
  keepaliveRetryTimes : Nat := 8
  autoUpdateHosts : Bool := true
  deriving DecidableEq

/-- `etcd_cluster`. `curlMulti` says that `curl_multi_` is not null, the flags are `flags_`. A
    deletor whose request runs is only known to that request: `deleting` has these. The paths of the
    delete requests that were made and the addresses of the deletors that were deleted are recorded,
    the last first. -/
structure EtcdCluster where
  curlMulti : Bool := true
  closing : Bool := false
  running : Bool := false
  enableLease : Bool := false
  conf : ClusterConf := {}
  rpcUpdateMembers : HttpRequestPtr := none
  rpcKeepalive : HttpRequestPtr := none
  keepaliveActors : List Nat := []
  keepaliveRetryActors : List Nat := []
  keepaliveDeletors : AList (fun _ : Bytes => KeepaliveDeletor) := ∅
  deleting : List KeepaliveDeletor := []
  deleteRequests : List Bytes := []
  freed : List Nat := []

namespace EtcdCluster

/-- `get_http_timeout_ms` -/
def getHttpTimeoutMs (self : EtcdCluster) : Int :=
  if self.conf.httpRequestTimeout ≤ 0 then 30000 else self.conf.httpRequestTimeout

/-! ## Hosts -/

/-- `random_between` picks the host; a single host is taken without drawing. -/
def pickHost (hosts : List Bytes) (draw : Nat) : Bytes := hosts.getD (draw % hosts.length) []

/-- `select_cluster_member` -/
def selectClusterMember (self : EtcdCluster) (draw : Nat) : EtcdCluster :=
  { self with conf := { self.conf with pathNode := pickHost self.conf.hosts draw } }

/-- `create_request_member_update` -/
def createRequestMemberUpdate (self : EtcdCluster) (now : Int) (draw : Nat)
    (outcome : StartOutcome) : Option (EtcdCluster × Bool) :=
  if !self.curlMulti then some (self, false)
  else if self.closing then some (self, false)
  else if self.conf.confHosts = [] ∧ self.conf.hosts = [] then some (self, false)
  else
    let interval :=
      if self.conf.etcdMembersUpdateInterval ≤ 0 then 60000 else self.conf.etcdMembersUpdateInterval
    let self := { self with
      conf := { self.conf with etcdMembersNextUpdateTime := now + interval }
      rpcUpdateMembers := none }
    if !self.conf.autoUpdateHosts ∧ self.conf.confHosts ≠ [] then
      -- "Trust etcd ingress and do not use cluster member to keep healthy"
      if self.conf.hosts = [] then
        some (({ self with conf := { self.conf with hosts := self.conf.confHosts } }
          ).selectClusterMember draw, false)
      else some (self, false)
    else
      let hosts := if self.conf.hosts ≠ [] then self.conf.hosts else self.conf.confHosts
      let req := HttpRequestPtr.create
        ⟨pickHost hosts draw ++ apiMemberList, .memberList, self.getHttpTimeoutMs⟩ outcome
      if req.isSome then do
        let request ← req.deref
        if outcome = .startFailed then return (self, false)
        return ({ self with rpcUpdateMembers := some request }, true)
      else some (self, true)

/-- `retry_request_member_update`. The hosts that equal `path_node` are removed by swapping with
    the last host. -/
def retryRequestMemberUpdate (self : EtcdCluster) (badUrl : Bytes) (now : Int)
    (selectDraw draw : Nat) (outcome : StartOutcome) : Option (EtcdCluster × Bool) :=
  let pathNode := self.conf.pathNode
  let self :=
    if pathNode = [] then self.selectClusterMember selectDraw
    else if Conf.strncaseEq pathNode badUrl pathNode.length then
      let hosts := SwapRemove.removeAll pathNode self.conf.hosts
      ({ self with conf := { self.conf with hosts } }).selectClusterMember selectDraw
    else self
  let retryInterval :=
    if !self.running ∧ self.conf.etcdMembersInitRetryInterval > 0 then
      self.conf.etcdMembersInitRetryInterval
    else if self.conf.etcdMembersRetryInterval ≤ 0 then 60000
    else self.conf.etcdMembersRetryInterval
  if now + retryInterval < self.conf.etcdMembersNextUpdateTime then
    some ({ self with conf := { self.conf with etcdMembersNextUpdateTime := now + retryInterval } },
      false)
  else if now ≤ self.conf.etcdMembersNextUpdateTime then some (self, false)
  else self.createRequestMemberUpdate now draw outcome

/-! ## The lease -/

/-- `create_request_lease_grant`. Without a request its url is logged all the same. -/
def createRequestLeaseGrant (self : EtcdCluster) (now : Int) (outcome : StartOutcome) :
    Option (EtcdCluster × Bool) :=
  if !self.curlMulti ∨ self.conf.pathNode = [] then some (self, false)
  else if self.closing ∨ !self.enableLease then some (self, false)
  else if now ≤ self.conf.keepaliveNextUpdateTime then some (self, false)
  else
    let self := { self with rpcKeepalive := none }
    let delay :=
      if self.running ∧ self.conf.keepaliveInterval > 0 then self.conf.keepaliveInterval
      else if self.conf.keepaliveRetryInterval > 0 then self.conf.keepaliveRetryInterval
      else 3000
    -- the interval bounds the timeout of the request, the fixed delay does not
    let bounded := (self.running ∧ self.conf.keepaliveInterval > 0) ∨
      self.conf.keepaliveRetryInterval > 0
    let timeoutMs := if bounded then min self.getHttpTimeoutMs delay else self.getHttpTimeoutMs
    let self := { self with conf := { self.conf with keepaliveNextUpdateTime := now + delay } }
    let body := .leaseGrant self.conf.lease (self.conf.keepaliveTimeout.tdiv 1000)
    let req := HttpRequestPtr.create ⟨self.conf.pathNode ++ apiLeaseGrant, body, timeoutMs⟩ outcome
    if req.isSome then do
      let request ← req.deref
      if outcome = .startFailed then return (self, false)
      return ({ self with rpcKeepalive := some request }, true)
    else do
      let self := if self.conf.keepaliveRetryInterval ≤ 0 then
        { self with conf := { self.conf with
            keepaliveNextUpdateTime := now + self.conf.keepaliveRetryInterval } } else self
      let _request ← req.deref
      return (self, true)

/-- `create_request_lease_keepalive`. Without a request its url is logged all the same. -/
def createRequestLeaseKeepalive (self : EtcdCluster) (now : Int) (outcome : StartOutcome) :
    Option (EtcdCluster × Bool) :=
  if !self.curlMulti ∨ self.conf.lease = 0 ∨ self.conf.pathNode = [] then some (self, false)
  else if self.closing ∨ !self.enableLease then some (self, false)
  else if now ≤ self.conf.keepaliveNextUpdateTime then some (self, false)
  else
    let self := { self with rpcKeepalive := none }
    let delay := if self.conf.keepaliveInterval ≤ 0 then 3000 else self.conf.keepaliveInterval
    let timeoutMs := if self.conf.keepaliveInterval ≤ 0 then self.getHttpTimeoutMs
      else min self.getHttpTimeoutMs self.conf.keepaliveInterval
    let self := { self with conf := { self.conf with keepaliveNextUpdateTime := now + delay } }
    let req := HttpRequestPtr.create
      ⟨self.conf.pathNode ++ apiLeaseKeepalive, .leaseKeepalive self.conf.lease, timeoutMs⟩ outcome
    if req.isSome then do
      let request ← req.deref
      if outcome = .startFailed then return (self, false)
      return ({ self with rpcKeepalive := some request }, true)
    else do
      let self := if self.conf.keepaliveRetryInterval ≤ 0 then
        { self with conf := { self.conf with
            keepaliveNextUpdateTime := now + self.conf.keepaliveRetryInterval } } else self
      let _request ← req.deref
      return (self, true)

/-- `set_flag(kEnableLease, true)`: a new flag asks for a lease. -/
def setFlagEnableLease (self : EtcdCluster) (now : Int) (outcome : StartOutcome) :
    Option EtcdCluster :=
  if self.enableLease then some self
  else do
    let (self, _) ← { self with enableLease := true }.createRequestLeaseGrant now outcome
    return self

/-! ## Requests for keys -/

/-- `create_request_kv_get`, `create_request_kv_set` and `create_request_kv_del`: a request of the
    selected host, or null. -/
def createRequest (self : EtcdCluster) (api : Bytes) (body : RequestBody) (outcome : StartOutcome) :
    HttpRequestPtr :=
  if !self.curlMulti ∨ self.conf.pathNode = [] ∨ self.closing then none
  else HttpRequestPtr.create ⟨self.conf.pathNode ++ api, body, self.getHttpTimeoutMs⟩ outcome

/-- `create_request_kv_get` -/
def createRequestKvGet (self : EtcdCluster) (key rangeEnd : Bytes) (outcome : StartOutcome) :
    HttpRequestPtr :=
  self.createRequest apiKvGet (.kvGet (EtcdPacker.packKeyRange key rangeEnd)) outcome

/-- `create_request_kv_set` with `assign_lease` -/
def createRequestKvSet (self : EtcdCluster) (key value : Bytes) (outcome : StartOutcome) :
    HttpRequestPtr :=
  if self.conf.lease = 0 then none
  else self.createRequest apiKvSet (.kvSet key value self.conf.lease) outcome

/-- `create_request_kv_del` -/
def createRequestKvDel (self : EtcdCluster) (key rangeEnd : Bytes) (outcome : StartOutcome) :
    HttpRequestPtr :=
  self.createRequest apiKvDelete (.kvDel (EtcdPacker.packKeyRange key rangeEnd)) outcome

/-! ## Keepalives -/

/-- `add_retry_keepalive` of a keepalive of this cluster, named by its address. -/
def addRetryKeepalive (self : EtcdCluster) (keepalive : Nat) (now : Int) (outcome : StartOutcome) :
    Option (EtcdCluster × Bool) :=
  if self.closing then some (self, false)
  else if keepalive ∈ self.keepaliveRetryActors then some (self, false)
  else do
    let self ← self.setFlagEnableLease now outcome
    return ({ self with keepaliveRetryActors := self.keepaliveRetryActors ++ [keepalive] }, true)

/-- `delete_keepalive_deletor`: the request of the deletor is given up if it has one. -/
def deleteKeepaliveDeletor (self : EtcdCluster) (deletor : KeepaliveDeletor) :
    Option EtcdCluster :=
  let self := { self with freed := deletor.addr :: self.freed }
  if deletor.rpc.isSome then do
    let _request ← deletor.rpc.deref
    return self
  else some self

/-- Keep the deletor and try again later. -/
def retryDeletorLater (self : EtcdCluster) (deletor : KeepaliveDeletor) : EtcdCluster :=
  { self with keepaliveDeletors := self.keepaliveDeletors.insert deletor.path deletor }

/-- The loop body of `remove_keepalive_path` after the old deletor was taken out of the map. -/
def deleteKeepalivePath (self : EtcdCluster) (deletor : KeepaliveDeletor) (delayDelete : Bool)
    (outcome : StartOutcome) : Option EtcdCluster :=
  if delayDelete then some (self.retryDeletorLater deletor)
  else
    let deletor := { deletor with owned := true, retryTimes := deletor.retryTimes + 1 }
    let maxRetryTimes :=
      if self.conf.keepaliveRetryTimes = 0 then 8 else self.conf.keepaliveRetryTimes
    if deletor.retryTimes > maxRetryTimes then self.deleteKeepaliveDeletor deletor
    else
      let rpc := self.createRequestKvDel deletor.path (ascii "+1") outcome
      if rpc.isNone then some (self.retryDeletorLater deletor)
      else do
        let request ← rpc.deref
        let self := { self with deleteRequests := deletor.path :: self.deleteRequests }
        if outcome = .startFailed then
          return self.retryDeletorLater { deletor with rpc := none }
        return { self with deleting := { deletor with rpc := some request } :: self.deleting }

/-- `remove_keepalive_path` -/
def removeKeepalivePath (self : EtcdCluster) (deletor : KeepaliveDeletor) (delayDelete : Bool)
    (outcome : StartOutcome) : Option EtcdCluster := do
  let old := (self.keepaliveDeletors.lookup deletor.path).filter (fun old => old.addr ≠ deletor.addr)
  let self := { self with keepaliveDeletors := self.keepaliveDeletors.erase deletor.path }
  let self ← self.deleteKeepalivePath deletor delayDelete outcome
  match old with
  | none => return self
  | some old => self.deleteKeepaliveDeletor old

end EtcdCluster

/-! ## The keepalive actor -/

/-- `etcd_keepalive`, with its address. `checker` says that a check function is set. -/
structure EtcdKeepalive where
  addr : Nat
  path : Bytes
  value : Bytes := []
  rpcOpr : HttpRequestPtr := none
  isActived : Bool := false
  isValueChanged : Bool := true
  hasData : Bool := false
  checker : Bool := false
  isCheckRun : Bool := false
  isCheckPassed : Bool := false
  retryTimes : Nat := 0
  deriving DecidableEq

namespace EtcdKeepalive

/-- The request that `process` creates, if it needs one: the check first, then the value. The flag
    says that the request could not be created. -/
def createProcessRequest (self : EtcdKeepalive) (owner : EtcdCluster) (outcome : StartOutcome) :
    Option (EtcdKeepalive × Bool) :=
  if self.isCheckRun = false then
    let req := owner.createRequestKvGet self.path [] outcome
    if req.isNone then some ({ self with retryTimes := self.retryTimes + 1 }, true)
    else do
      let request ← req.deref
      return ({ self with rpcOpr := some request }, false)
  else if self.isCheckRun ∧ self.isCheckPassed ∧ self.isValueChanged then
    let req := owner.createRequestKvSet self.path self.value outcome
    if req.isNone then some (self, true)
    else do
      let request ← req.deref
      return ({ self with isValueChanged := false, rpcOpr := some request }, false)
  else some (self, false)

/-- `process`. A request that cannot be created or started queues the keepalive for a retry. The
    last two arguments are the outcomes of its own request and of a request for the lease. -/
def process (self : EtcdKeepalive) (owner : EtcdCluster) (now : Int)
    (outcome leaseOutcome : StartOutcome) : Option (EtcdKeepalive × EtcdCluster) :=
  if self.rpcOpr.isSome then some (self, owner)
  else do
    let self := { self with isActived := false }
    let self := if !self.checker then
      { self with isCheckRun := true, isCheckPassed := true, retryTimes := self.retryTimes + 1 }
      else self
    let (self, needRetry) ← self.createProcessRequest owner outcome
    let (self, needRetry) ←
      if self.rpcOpr.isSome then do
        let request ← self.rpcOpr.deref
        if outcome = .startFailed then pure ({ self with rpcOpr := none }, true)
        else pure ({ self with rpcOpr := some request }, needRetry)
      else pure (self, needRetry)
    if needRetry then do
      let (owner, _) ← owner.addRetryKeepalive self.addr now leaseOutcome
      return (self, owner)
    else return (self, owner)

end EtcdKeepalive

end LibAtapp
