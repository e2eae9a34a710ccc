import LibAtapp.Etcdcli.AnswerShapes
import LibAtapp.Etcdcli.Deletors

set_option autoImplicit false

/-! # The session of a cluster with etcd

`tick` of an `etcd_cluster` asks for what is missing: a host, a token, a lease. The answers come
back in callbacks, which may lose each of these again. This file adds the token, the flags and the
callbacks to the cluster, and has all that happens to it but for `reset` and a new configuration.
Pointers to requests and crashes are as for the cluster. Of the keepalives only the cluster's lists
matter here and whether each of them has passed its check; `retry_pending_actions` and `set_lease`
have no other effect on the cluster. -/

namespace LibAtapp

/-! ## State -/

/-- `ETCD_API_V3_AUTH_AUTHENTICATE` -/
def apiAuthAuthenticate : Bytes := ascii "/v3/auth/authenticate"
/-- `ETCD_API_V3_AUTH_USER_GET` -/
def apiAuthUserGet : Bytes := ascii "/v3/auth/user/get"

/-- `etcd_cluster::conf_t`, the part about the authorization. -/
structure AuthConf where
  authorization : Bytes := []
  authorizationHeader : Bytes := []
  authorizationUserRoles : List Bytes := []
  authorizationNextUpdateTime : Int := 0
  authorizationRetryInterval : Int := 5000
  authUserGetNextUpdateTime : Int := 0
  authUserGetRetryInterval : Int := 120000
  deriving DecidableEq

/-- What a request for the authorization asks for. -/
inductive AuthBody where
  | authenticate (name password : Bytes)
  | userGet (name : Bytes)
  deriving DecidableEq, Repr

/-- A request for the authorization. -/
structure AuthRequest where
  url : Bytes
  body : AuthBody
  timeoutMs : Int
  deriving DecidableEq, Repr

/-- A finished request. -/
structure HttpAnswer extends HttpResult where
  responseCode : Int
  content : Bytes
  deriving DecidableEq, Repr

/-- A callback takes the request for failed. -/
def HttpAnswer.failed (answer : HttpAnswer) : Bool :=
  decide (answer.errorCode ≠ 0) || !answer.responseSuccess

/-- What comes from outside during one step: the time, the random numbers, how the requests start
    that are made, and which of the keepalives that are activated have no checker. -/
structure SessionOutside where
  now : Int := 0
  selectDraw : Nat := 0
  draw : Nat := 0
  members : StartOutcome := .started
  auth : StartOutcome := .started
  lease : StartOutcome := .started
  deletes : Bytes → StartOutcome := fun _ => .started
  unchecked : List Nat := []

/-- The third-party text functions, with the text of a `double`, which a `Json` does not have. -/
structure SessionCodec extends TextCodec where
  doubleText : Bytes

/-- `etcd_cluster` with its authorization. `checked` says which keepalives have run and passed their
    check. The callbacks for running and for not running any more that were called and the times at
    which a lease was asked for are recorded, the last first. -/
structure EtcdSession where
  cluster : EtcdCluster := {}
  auth : AuthConf := {}
  rpcAuthenticate : Option AuthRequest := none
  ready : Bool := false
  checked : Nat → Bool := fun _ => false
  upDown : List Bool := []
  leaseTimes : List Int := []

/-! ## Texts -/

namespace EtcdPacker

/-- `unpack_to_string` -/
def unpackToString (codec : SessionCodec) : Json → Bytes
  | .null => ascii "null"
  | .bool false => ascii "false"
  | .bool true => ascii "true"
  | .object _ => ascii "[object object]"
  | .array _ => ascii "[object array]"
  | .string s => cString s
  | .int n => if n < 0 then ascii "-" ++ decimal n.natAbs else decimal n.natAbs
  | .double => codec.doubleText

/-- `unpack_string`: nothing without the member. -/
def unpackString (codec : SessionCodec) (json : Json) (name : Bytes) : Option (Option Bytes) := do
  match ← json.findMember name with
  | none => return none
  | some value => return some (unpackToString codec value)

end EtcdPacker

namespace EtcdCluster

/-- `set_lease`. The keepalives that fail in its loop wait in the list to try again, which
    `retry_pending_actions` clears. -/
def setLease (self : EtcdCluster) (v : Int) (forceActiveKeepalives : Bool)
    (deletes : Bytes → StartOutcome) : Option EtcdCluster :=
  let oldV := self.conf.lease
  let self := { self with conf := { self.conf with lease := v } }
  if oldV = v ∧ forceActiveKeepalives = false ∧ v ≠ 0 then self.retryPendingActions deletes
  else if v ≠ 0 then { self with keepaliveRetryActors := [] }.retryPendingActions deletes
  else some self

end EtcdCluster

namespace EtcdSession

/-! ## Flags -/

/-- `set_flag(kRunning, v)`: a change is told to the owner. -/
def setFlagRunning (self : EtcdSession) (v : Bool) : EtcdSession :=
  if v = self.cluster.running then self
  else { self with cluster := { self.cluster with running := v }, upDown := v :: self.upDown }

/-- `resolve_ready` -/
def resolveReady (self : EtcdSession) : EtcdSession :=
  if self.ready ∨ !self.cluster.running then self
  else if self.cluster.keepaliveActors.all self.checked then { self with ready := true }
  else self

/-- The cluster changes. Asking for a lease is what sets the time for the next request. -/
def setCluster (self : EtcdSession) (cluster : EtcdCluster) (now : Int) : EtcdSession :=
  { self with
    cluster
    leaseTimes :=
      if cluster.conf.keepaliveNextUpdateTime = self.cluster.conf.keepaliveNextUpdateTime then
        self.leaseTimes
      else now :: self.leaseTimes }

/-! ## Authorization -/

/-- `pick_conf_authorization`: the name and the password. -/
def pickConfAuthorization (self : EtcdSession) : Bytes × Bytes :=
  let authorization := self.auth.authorization
  (authorization.takeWhile (· ≠ 0x3A), (authorization.dropWhile (· ≠ 0x3A)).drop 1)

/-- `check_authorization` -/
def checkAuthorization (self : EtcdSession) : Bool :=
  decide (self.auth.authorization = []) || decide (self.auth.authorizationHeader ≠ [])

/-- `create_request_auth_authenticate` -/
def createRequestAuthAuthenticate (self : EtcdSession) (now : Int) (outcome : StartOutcome) :
    EtcdSession :=
  if !self.cluster.curlMulti then self
  else if self.cluster.closing then self
  else if self.cluster.conf.pathNode = [] then self
  else if self.auth.authorization = [] then
    { self with auth := { self.auth with authorizationHeader := [] } }
  else if now ≤ self.auth.authorizationNextUpdateTime then self
  else
    let interval := if self.auth.authorizationRetryInterval ≤ 0 then 3000
      else self.auth.authorizationRetryInterval
    let self := { self with
      rpcAuthenticate := none
      auth := { self.auth with authorizationNextUpdateTime := now + interval } }
    match outcome with
    | .createFailed | .startFailed => self
    | .started =>
      let (name, password) := self.pickConfAuthorization
      let userGetInterval :=
        if self.auth.authUserGetRetryInterval ≤ 0 then 3000 else self.auth.authUserGetRetryInterval
      { self with
        rpcAuthenticate := some ⟨self.cluster.conf.pathNode ++ apiAuthAuthenticate,
          .authenticate name password, self.cluster.getHttpTimeoutMs⟩
        auth := { self.auth with authUserGetNextUpdateTime := now + userGetInterval } }

/-- `create_request_auth_user_get` -/
def createRequestAuthUserGet (self : EtcdSession) (now : Int) (outcome : StartOutcome) :
    EtcdSession :=
  if !self.cluster.curlMulti then self
  else if self.cluster.closing then self
  else if self.cluster.conf.pathNode = [] then self
  else if self.auth.authorization = [] then self
  else if now ≤ self.auth.authUserGetNextUpdateTime then self
  else
    let interval :=
      if self.auth.authUserGetRetryInterval ≤ 0 then 3000 else self.auth.authUserGetRetryInterval
    let self := { self with
      rpcAuthenticate := none
      auth := { self.auth with authUserGetNextUpdateTime := now + interval } }
    match outcome with
    | .createFailed | .startFailed => self
    | .started => { self with
        rpcAuthenticate := some ⟨self.cluster.conf.pathNode ++ apiAuthUserGet,
          .userGet self.pickConfAuthorization.1, self.cluster.getHttpTimeoutMs⟩ }

/-- The failures that `check_authorization_expired` takes for those of a token. -/
def tokenExpired (codec : SessionCodec) (httpCode : Int) (content : Bytes) : Bool :=
  -- `ETCD_API_V3_ERROR_HTTP_CODE_AUTH`
  decide (httpCode = 401) ||
  -- `ETCD_API_V3_ERROR_GRPC_CODE_UNAUTHENTICATED`
  (match EtcdPacker.parseObject codec.toTextCodec content with
    | none => false
    | some doc =>
      decide (EtcdPacker.unpackInt64 codec.toTextCodec doc (ascii "code") 0 = some 16)) ||
  -- `ETCD_API_V3_ERROR_HTTP_INVALID_PARAM` and `ETCD_API_V3_ERROR_HTTP_PRECONDITION`
  (decide (httpCode = 400 ∨ httpCode = 412) &&
    content.tails.any (fun rest => (ascii "authenticat").isPrefixOf rest))

/-- `check_authorization_expired` -/
def checkAuthorizationExpired (codec : SessionCodec) (self : EtcdSession) (httpCode : Int)
    (content : Bytes) : EtcdSession :=
  if tokenExpired codec httpCode content then
    { self with auth := { self.auth with authorizationHeader := [] } }
  else self

/-! ## Requests -/

/-- `create_request_member_update` -/
def createRequestMemberUpdate (self : EtcdSession) (outside : SessionOutside) :
    Option EtcdSession := do
  let (cluster, _) ← self.cluster.createRequestMemberUpdate outside.now outside.draw outside.members
  return { self with cluster }

/-- `create_request_lease_grant` -/
def createRequestLeaseGrant (self : EtcdSession) (outside : SessionOutside) :
    Option EtcdSession := do
  let (cluster, _) ← self.cluster.createRequestLeaseGrant outside.now outside.lease
  return self.setCluster cluster outside.now

/-- `create_request_lease_keepalive` -/
def createRequestLeaseKeepalive (self : EtcdSession) (outside : SessionOutside) :
    Option EtcdSession := do
  let (cluster, _) ← self.cluster.createRequestLeaseKeepalive outside.now outside.lease
  return self.setCluster cluster outside.now

/-- Keepalives are activated: without a checker they have run and passed their check. -/
def activate (self : EtcdSession) (unchecked : List Nat) : EtcdSession :=
  { self with checked := fun k => self.checked k || decide (k ∈ unchecked) }

/-- `retry_pending_actions` -/
def retryPendingActions (self : EtcdSession) (outside : SessionOutside) : Option EtcdSession := do
  let cluster ← self.cluster.retryPendingActions outside.deletes
  return ({ self with cluster } : EtcdSession).activate outside.unchecked

/-- `set_lease` -/
def setLease (self : EtcdSession) (v : Int) (forceActiveKeepalives : Bool)
    (outside : SessionOutside) : Option EtcdSession := do
  let cluster ← self.cluster.setLease v forceActiveKeepalives outside.deletes
  return ({ self with cluster } : EtcdSession).activate outside.unchecked

/-! ## Ticks -/

/-- The first part of `tick`: the members. -/
def tickMembers (self : EtcdSession) (outside : SessionOutside) : Option EtcdSession :=
  if self.cluster.conf.etcdMembersNextUpdateTime < outside.now then
    self.createRequestMemberUpdate outside
  else some self

/-- The part of `tick` that keeps a lease. -/
def tickLease (self : EtcdSession) (outside : SessionOutside) : Option EtcdSession :=
  if self.cluster.conf.keepaliveNextUpdateTime < outside.now then
    self.createRequestLeaseKeepalive outside
  else some self

/-- The end of `tick`: the pending actions and `ready`. -/
def tickPending (self : EtcdSession) (outside : SessionOutside) : Option EtcdSession := do
  let self ← self.retryPendingActions outside
  return self.resolveReady

/-- The part of `tick` with a token: the user, the lease and what waits for it. -/
def tickAuthorized (self : EtcdSession) (outside : SessionOutside) : Option EtcdSession :=
  let self :=
    if self.auth.authorization ≠ [] ∧ self.rpcAuthenticate.isNone then
      self.createRequestAuthUserGet outside.now outside.auth
    else self
  if self.cluster.enableLease then
    -- "run actions after lease granted"
    if self.cluster.conf.lease = 0 then self.createRequestLeaseGrant outside
    else do
      let self ← self.tickLease outside
      self.tickPending outside
  else (self.setFlagRunning true).tickPending outside

/-- The part of `tick` after the members. -/
def tickHost (self : EtcdSession) (outside : SessionOutside) : Option EtcdSession :=
  -- "empty other actions will be delayed"
  if self.cluster.conf.pathNode = [] then some self
  else if !self.checkAuthorization then
    if self.rpcAuthenticate.isNone then
      some (self.createRequestAuthAuthenticate outside.now outside.auth)
    else some self
  else self.tickAuthorized outside

/-- `tick`, but for the number of requests that it returns. -/
def tick (self : EtcdSession) (outside : SessionOutside) : Option EtcdSession :=
  if !self.cluster.curlMulti then some self
  else if self.cluster.closing then some self
  else do
    let self ← self.tickMembers outside
    self.tickHost outside

/-! ## Answers -/

/-- Only a network error asks for the members. -/
def retryAfterNetworkError (self : EtcdSession) (answer : HttpAnswer) (url : Bytes)
    (outside : SessionOutside) : Option EtcdSession := do
  let cluster ← self.cluster.retryAfterNetworkError answer.errorCode url
    ⟨outside.now, outside.selectDraw, outside.draw, outside.members⟩
  return { self with cluster }

/-- `libcurl_callback_on_member_update` -/
def onMemberUpdate (codec : SessionCodec) (self : EtcdSession) (answer : HttpAnswer)
    (outside : SessionOutside) : Option EtcdSession :=
  match self.cluster.rpcUpdateMembers with
  | none => some self
  | some request =>
    let self := { self with cluster := { self.cluster with rpcUpdateMembers := none } }
    if answer.failed then self.retryAfterNetworkError answer request.url outside
    else
      match EtcdPacker.parseObject codec.toTextCodec answer.content with
      | none => some self
      | some doc => do
        match ← doc.findMember (ascii "members") with
        | some (.array _) =>
          let cluster ← self.cluster.onMemberUpdate outside.now outside.selectDraw doc
          ({ self with cluster } : EtcdSession).tick outside
        | _ => return self

/-- `libcurl_callback_on_auth_authenticate` for an answer that parses. -/
def onAuthenticated (codec : SessionCodec) (self : EtcdSession) (doc : Json)
    (outside : SessionOutside) : Option EtcdSession := do
  match ← EtcdPacker.unpackString codec doc (ascii "token") with
  | none => return self
  | some token =>
    let self := { self with
      auth := { self.auth with authorizationHeader := ascii "Authorization: " ++ token } }
    let self ← self.retryPendingActions outside
    -- "Renew user token later"
    let interval :=
      if self.auth.authUserGetRetryInterval ≤ 0 then 0 else self.auth.authUserGetRetryInterval
    return { self with
      auth := { self.auth with authUserGetNextUpdateTime := outside.now + interval } }

/-- `libcurl_callback_on_auth_user_get` for an answer that parses. -/
def onUserGet (self : EtcdSession) (doc : Json) (outside : SessionOutside) :
    Option EtcdSession := do
  match ← doc.findMember (ascii "roles") with
  | some (.array roles) =>
    let auth := { self.auth with authorizationUserRoles := roles.filterMap Json.string? }
    ({ self with auth } : EtcdSession).retryPendingActions outside
  | _ => return self

/-- `libcurl_callback_on_auth_authenticate` and `libcurl_callback_on_auth_user_get`, which differ
    in what they read from an answer that parses. -/
def onAuthorization (codec : SessionCodec) (self : EtcdSession) (answer : HttpAnswer)
    (outside : SessionOutside) : Option EtcdSession :=
  match self.rpcAuthenticate with
  | none => some self
  | some request =>
    let self := { self with rpcAuthenticate := none }
    if answer.failed then do
      let self ← self.retryAfterNetworkError answer request.url outside
      return self.checkAuthorizationExpired codec answer.responseCode answer.content
    else
      match EtcdPacker.parseObject codec.toTextCodec answer.content with
      | none => some self
      | some doc =>
        match request.body with
        | .authenticate _ _ => self.onAuthenticated codec doc outside
        | .userGet _ => self.onUserGet doc outside

/-- `libcurl_callback_on_lease_keepalive`, also of a request for a new lease. -/
def onLeaseKeepalive (codec : SessionCodec) (self : EtcdSession) (answer : HttpAnswer)
    (outside : SessionOutside) : Option EtcdSession :=
  match self.cluster.rpcKeepalive with
  | none => some self
  | some request =>
    let self := { self with cluster := { self.cluster with rpcKeepalive := none } }
    if answer.failed then do
      let self ← self.retryAfterNetworkError answer request.url outside
      return self.checkAuthorizationExpired codec answer.responseCode answer.content
    else
      match EtcdPacker.parseObject codec.toTextCodec answer.content with
      | none => some self
      | some doc => do
        match ← EtcdCluster.unpackLease codec.toTextCodec doc with
        | .grantFailed | .withoutId => return self
        | .notFound =>
          let self ← self.setLease 0 false outside
          self.createRequestLeaseGrant outside
        | .lease newLease isGrant =>
          let self :=
            if !self.cluster.running ∧ !self.cluster.closing then self.setFlagRunning true else self
          self.setLease newLease isGrant outside

/-- `libcurl_callback_on_remove_keepalive_path` for a deletor in flight. -/
def onDeleted (codec : SessionCodec) (self : EtcdSession) (i : Nat) (answer : HttpAnswer)
    (outside : SessionOutside) : Option EtcdSession :=
  match self.cluster.deleting[i]? with
  | none => some self
  | some deletor => do
    let result : DeleteResult :=
      ⟨answer.errorCode, answer.responseSuccess, decide (answer.responseCode = 404)⟩
    let cluster := { self.cluster with deleting := self.cluster.deleting.eraseIdx i }
    let cluster ← cluster.onRemoveKeepalivePath deletor result
      ⟨outside.now, outside.selectDraw, outside.draw, outside.members⟩
    let self := { self with cluster }
    if result.failed ∧ deletor.owned then
      return self.checkAuthorizationExpired codec answer.responseCode answer.content
    else return self

/-! ## Calls -/

/-- `init` -/
def init (self : EtcdSession) : EtcdSession :=
  { self with cluster := { self.cluster with curlMulti := true, closing := false } }

/-- `close`, which closes the keepalives too. -/
def close (self : EtcdSession) : Option EtcdSession := do
  let self := self.setFlagRunning false
  let cluster ← self.cluster.close
  return { self with
    cluster
    rpcAuthenticate := none
    checked := fun k => self.checked k && decide (k ∉ self.cluster.keepaliveActors) }

/-- `add_keepalive` -/
def addKeepalive (self : EtcdSession) (keepalive : Nat) (path : Bytes) (outside : SessionOutside) :
    Option EtcdSession := do
  let (cluster, _) ← self.cluster.addKeepalive keepalive path outside.now outside.lease
  return (self.setCluster cluster outside.now).activate outside.unchecked

/-- `add_retry_keepalive` -/
def addRetryKeepalive (self : EtcdSession) (keepalive : Nat) (outside : SessionOutside) :
    Option EtcdSession := do
  let (cluster, _) ← self.cluster.addRetryKeepalive keepalive outside.now outside.lease
  return self.setCluster cluster outside.now

/-- `remove_keepalive` -/
def removeKeepalive (self : EtcdSession) (keepalive : Nat) (path : Bytes) (hasData : Bool)
    (addr : Nat) (outside : SessionOutside) : Option EtcdSession := do
  let (cluster, found) ←
    self.cluster.removeKeepalive keepalive path hasData addr (outside.deletes path)
  if found then
    return { self with cluster, checked := Function.update self.checked keepalive false }
  else return { self with cluster }

/-- The end of `libcurl_callback_on_get_data`: the checker of a keepalive has run. -/
def onChecked (self : EtcdSession) (keepalive : Nat) (passed : Bool) : EtcdSession :=
  let self := { self with checked := Function.update self.checked keepalive passed }
  if passed then self.resolveReady else self

end EtcdSession

/-- What happens to a cluster. -/
inductive SessionStep where
  | init
  | tick (outside : SessionOutside)
  /-- The request for the members is done. -/
  | members (answer : HttpAnswer) (outside : SessionOutside)
  /-- The request for the authorization is done. -/
  | authorization (answer : HttpAnswer) (outside : SessionOutside)
  /-- The request for the lease is done. -/
  | lease (answer : HttpAnswer) (outside : SessionOutside)
  /-- A request is done that deletes the path of a keepalive. -/
  | deleted (i : Nat) (answer : HttpAnswer) (outside : SessionOutside)
  /-- A request of a keepalive or a watcher failed. -/
  | failed (httpCode : Int) (content : Bytes)
  | addKeepalive (keepalive : Nat) (path : Bytes) (outside : SessionOutside)
  | addRetryKeepalive (keepalive : Nat) (outside : SessionOutside)
  | removeKeepalive (keepalive : Nat) (path : Bytes) (hasData : Bool) (addr : Nat)
      (outside : SessionOutside)
  /-- A keepalive without a checker is activated, for another reason. -/
  | activated (keepalive : Nat)
  | checked (keepalive : Nat) (passed : Bool)
  | close

namespace EtcdSession

variable (codec : SessionCodec)

/-- One step, unless it uses a null request or reads an answer of the wrong shape. -/
def stepOption (s : EtcdSession) : SessionStep → Option EtcdSession
  | .init => some s.init
  | .tick outside => s.tick outside
  | .members answer outside => s.onMemberUpdate codec answer outside
  | .authorization answer outside => s.onAuthorization codec answer outside
  | .lease answer outside => s.onLeaseKeepalive codec answer outside
  | .deleted i answer outside => s.onDeleted codec i answer outside
  | .failed httpCode content => some (s.checkAuthorizationExpired codec httpCode content)
  | .addKeepalive keepalive path outside => s.addKeepalive keepalive path outside
  | .addRetryKeepalive keepalive outside => s.addRetryKeepalive keepalive outside
  | .removeKeepalive keepalive path hasData addr outside =>
    s.removeKeepalive keepalive path hasData addr outside
  | .activated keepalive => some (s.activate [keepalive])
  | .checked keepalive passed => some (s.onChecked keepalive passed)
  | .close => s.close

/-- A step that would crash does not happen. -/
def step (s : EtcdSession) (i : SessionStep) : EtcdSession := (s.stepOption codec i).getD s

/-- A new cluster with its configuration: it knows no host, and has no token and no lease. -/
def initial (conf : ClusterConf) (auth : AuthConf) : EtcdSession where
  cluster := { curlMulti := false, conf := { conf with hosts := [], pathNode := [], lease := 0 } }
  auth := { auth with authorizationHeader := [] }

end EtcdSession

end LibAtapp
