import LibAtapp.Connectors.Endpoint

set_option autoImplicit false

/-! # The endpoint indexes of the app

`app::remove_endpoint`, `app::mutable_endpoint` and `app::process_internal_events`, and the
operations of the endpoint side of the app as one step function. -/

namespace LibAtapp.Connectors

/-- What connecting a new endpoint meets: the connector that accepts the new handle, if one does,
    and whether it makes the handle ready at once. Which gateways match and which connectors refuse
    is left open. -/
structure ConnectResult where
  connector : ConnectorPtr
  ready : Bool

namespace App

variable (env : Environment) (s : App)

/-! ## The two indexes -/

/-- Write or erase the entry of an id. -/
def setIndexById (id : Nat) (entry : Option EndpointPtr) : App :=
  { s with endpointIndexById := Function.update s.endpointIndexById id entry }

/-- Write or erase the entry of a name. -/
def setIndexByName (name : Bytes) (entry : Option EndpointPtr) : App :=
  { s with endpointIndexByName := Function.update s.endpointIndexByName name entry }

/-! ## Removing -/

/-- Erase the entry of an id that belongs to the endpoint. -/
def eraseIdOf (e : EndpointPtr) (id : Nat) : App :=
  if id ≠ 0 ∧ s.endpointIndexById id = some e then s.setIndexById id none else s

/-- Erase the entry of a name that belongs to the endpoint. -/
def eraseNameOf (e : EndpointPtr) (name : Bytes) : App :=
  if name ≠ [] ∧ s.endpointIndexByName name = some e then s.setIndexByName name none else s

/-- Other index entries. -/
def withIndexes (byId : Nat → Option EndpointPtr) (byName : Bytes → Option EndpointPtr) :
    App :=
  { s with endpointIndexById := byId, endpointIndexByName := byName }

/-- Erasing the entry of an id or of a name changes only the indexes. -/
theorem eraseIdOf_eq (e : EndpointPtr) (id : Nat) :
    ∃ byId, s.eraseIdOf e id = s.withIndexes byId s.endpointIndexByName := by
  unfold eraseIdOf
  split
  · exact ⟨_, rfl⟩
  · exact ⟨_, rfl⟩

theorem eraseNameOf_eq (e : EndpointPtr) (name : Bytes) :
    ∃ byName, s.eraseNameOf e name = s.withIndexes s.endpointIndexById byName := by
  unfold eraseNameOf
  split
  · exact ⟨_, rfl⟩
  · exact ⟨_, rfl⟩

/-- `remove_endpoint(uint64_t)`. -/
def removeEndpointById (byId : Nat) : App :=
  match s.endpointIndexById byId with
  | none => s
  | some e =>
    let s := s.setIndexById byId none
    let s := s.eraseNameOf e (s.getName e)
    s.resetEndpoint env e

/-- `remove_endpoint(const std::string &)`. -/
def removeEndpointByName (byName : Bytes) : App :=
  match s.endpointIndexByName byName with
  | none => s
  | some e =>
    let s := s.setIndexByName byName none
    let s := s.eraseIdOf e (s.getId e)
    s.resetEndpoint env e

/-- `remove_endpoint(const atapp_endpoint::ptr_t &)`. -/
def removeEndpoint (e : EndpointPtr) : App :=
  let s := s.eraseIdOf e (s.getId e)
  let s := s.eraseNameOf e (s.getName e)
  s.resetEndpoint env e

/-! ## Creating -/

/-- What the two lookups of `mutable_endpoint` leave in its local variables. -/
structure Lookup where
  app : App
  ret : Option EndpointPtr := none
  needUpdateIdIndex : Bool := false
  needUpdateNameIndex : Bool := false

/-- The lookup by id. -/
def lookupId (id : Nat) : Lookup :=
  if id = 0 then { app := s }
  else
    let ret := s.endpointIndexById id
    { app := s, ret := ret, needUpdateIdIndex := ret.isNone }

/-- The lookup by name. Where it finds another endpoint than the lookup by id, that one is removed
    and the one with the name is used. -/
def lookupName (id : Nat) (name : Bytes) (l : Lookup) : Lookup :=
  if name = [] then l
  else
    match l.app.endpointIndexByName name with
    | none => { l with needUpdateNameIndex := true }
    | some e =>
      match l.ret with
      | none => { l with ret := some e }
      | some e' =>
        if e = e' then l
        else
          { l with
            app := l.app.removeEndpointById env id
            ret := some e
            needUpdateIdIndex := true }

/-- The endpoint that the index by id has for a node with this id. -/
def foundById (id : Nat) : Option EndpointPtr := if id = 0 then none else s.endpointIndexById id

/-- The endpoint that the index by name has for a node with this name. -/
def foundByName (name : Bytes) : Option EndpointPtr :=
  if name = [] then none else s.endpointIndexByName name

/-- What the two lookups do, by what the indexes have. -/
theorem lookup_eq (id : Nat) (name : Bytes) :
    lookupName env id name (s.lookupId id) =
      match s.foundById id, s.foundByName name with
      | none, none =>
        { app := s, needUpdateIdIndex := decide (id ≠ 0), needUpdateNameIndex := decide (name ≠ []) }
      | some e, none => { app := s, ret := some e, needUpdateNameIndex := decide (name ≠ []) }
      | none, some e => { app := s, ret := some e, needUpdateIdIndex := decide (id ≠ 0) }
      | some e', some e =>
        if e = e' then { app := s, ret := some e }
        else { app := s.removeEndpointById env id, ret := some e, needUpdateIdIndex := true } := by
  unfold lookupName lookupId foundById foundByName
  by_cases hid : id = 0
  · by_cases hname : name = []
    · simp [hid, hname]
    · cases hfound : s.endpointIndexByName name <;> simp [hid, hname, hfound]
  · by_cases hname : name = []
    · cases s.endpointIndexById id <;> simp [hid, hname]
    · cases s.endpointIndexById id with
      | none => cases hfound : s.endpointIndexByName name <;> simp [hid, hname, hfound]
      | some e' =>
        cases hfound : s.endpointIndexByName name with
        | none => simp [hid, hname, hfound]
        | some e =>
          by_cases he : e = e'
          · simp [hid, hname, hfound, he]
          · simp [hid, hname, hfound, he]

/-- `update_discovery`. -/
def updateDiscovery (e : EndpointPtr) (discovery : Option NodePtr) : App :=
  s.modifyEndpoint e fun ep => { ep with discovery := discovery }

/-- Write the entries that are missing and give the endpoint its discovery node. -/
def storeEndpoint (e : EndpointPtr) (node : NodePtr) (id : Nat) (name : Bytes)
    (needUpdateIdIndex needUpdateNameIndex : Bool) : App :=
  let s := if needUpdateIdIndex then s.setIndexById id (some e) else s
  let s := if needUpdateNameIndex then s.setIndexByName name (some e) else s
  s.updateDiscovery e (some node)

/-- Storing an endpoint writes index entries and the node. -/
theorem storeEndpoint_eq (e : EndpointPtr) (node : NodePtr) (id : Nat) (name : Bytes)
    (needId needName : Bool) : ∃ byId byName, s.storeEndpoint e node id name needId needName =
      (s.withIndexes byId byName).updateDiscovery e (some node) := by
  unfold storeEndpoint
  cases needId <;> cases needName <;> exact ⟨_, _, rfl⟩

theorem endpoint_storeEndpoint (e : EndpointPtr) (node : NodePtr) (id : Nat) (name : Bytes)
    (needId needName : Bool) : (s.storeEndpoint e node id name needId needName).endpoint =
      Function.update s.endpoint e { s.endpoint e with discovery := some node } := by
  unfold storeEndpoint updateDiscovery
  cases needId <;> cases needName <;> rfl

@[simp] theorem createEndpoint_self : s.createEndpoint.endpoint s.endpointCount =
    { alive := true, gcTimepoint := s.lastTickTimepoint + s.conf.endpointGcTimeout } := by
  simp [createEndpoint, modifyEndpoint]

/-- Connect a new endpoint: a new handle is offered to the connectors, and the one that accepts it
    is bound to it. -/
def connectEndpoint (e : EndpointPtr) (result : Option ConnectResult) : App :=
  let s := s.addWaker e s.getNextTickTime
  let h := s.handleCount
  let s := s.newHandle
  match result with
  | none => s.destroyHandle env h
  | some r =>
    let s := if r.ready then s.setReady h else s
    let s := s.bindConnector env h r.connector
    s.bindEndpoint env h e

/-- `mutable_endpoint`. -/
def mutableEndpoint (discovery : Option NodePtr) (result : Option ConnectResult) :
    App × Option EndpointPtr :=
  if s.isClosing then (s, none)
  else
    match discovery with
    | none => (s, none)
    | some node =>
      let id := (s.heap node).id
      let name := (s.heap node).name
      let l := lookupName env id name (s.lookupId id)
      match l.ret with
      | some e =>
        (l.app.storeEndpoint e node id name l.needUpdateIdIndex l.needUpdateNameIndex, some e)
      | none =>
        let e := l.app.endpointCount
        let s := l.app.createEndpoint
        let s := s.storeEndpoint e node id name l.needUpdateIdIndex l.needUpdateNameIndex
        (s.connectEndpoint env e result, some e)

/-! ## Wakers -/

/-- The earlier of two keys, the first of them where the times are equal. -/
def earlierWaker (best : Option WakerKey) (key : WakerKey) : Option WakerKey :=
  match best with
  | none => some key
  | some b => if key.1 < b.1 then some key else some b

/-- `endpoint_waker_.begin()`: a key with the least time. Among equal times the address decides,
    which the environment leaves open. -/
def wakerBegin : Option WakerKey := (env.wakers s.endpointWaker).foldl earlierWaker none

/-- The delayed recycling of an endpoint without handles. -/
def recycle (e : EndpointPtr) : App :=
  if (s.endpoint e).referConnections.isEmpty then
    if s.lastTickTimepoint ≥ (s.endpoint e).gcTimepoint then s.removeEndpoint env e
    else s.addWaker e (s.endpoint e).gcTimepoint
  else s

/-- `endpoint_waker_.erase`. -/
def eraseWaker (key : WakerKey) : App :=
  { s with endpointWaker := s.endpointWaker.filter (· ≠ key) }

/-- A woken endpoint retries its messages and may be recycled. -/
def wakeEndpoint (e : EndpointPtr) : App :=
  (s.retryPendingMessages env e s.lastTickTimepoint s.conf.loopTimes).1.recycle env e

/-- The part of one round of the loop of `process_internal_events` that serves the first waker. The
    loop ends when a round handles nothing or the time is over, so a call of
    `process_internal_events` is some number of rounds. -/
def processRound : App :=
  match s.wakerBegin env with
  | none => s
  | some key =>
    if key.1 ≤ s.lastTickTimepoint then
      match key.2 with
      | none => s.eraseWaker key
      | some e =>
        if (s.endpoint e).alive then (s.eraseWaker key).wakeEndpoint env e else s.eraseWaker key
    else s

theorem wakerBegin_mem {key : WakerKey} (h : s.wakerBegin env = some key) :
    key ∈ s.endpointWaker := by
  have hfold : ∀ (keys : List WakerKey) (best : Option WakerKey) (k : WakerKey),
      keys.foldl earlierWaker best = some k → best = some k ∨ k ∈ keys := by
    intro keys
    induction keys with
    | nil => exact fun best k hk => Or.inl hk
    | cons key keys ih =>
      intro best k hk
      rcases ih _ k hk with hbest | hmem
      · unfold earlierWaker at hbest
        split at hbest
        · exact Or.inr (Option.some.inj hbest ▸ List.mem_cons_self)
        · split at hbest
          · exact Or.inr (Option.some.inj hbest ▸ List.mem_cons_self)
          · exact Or.inl hbest
      · exact Or.inr (List.mem_cons_of_mem key hmem)
  rcases hfold _ none key h with hnone | hmem
  · exact absurd hnone.symm (Option.some_ne_none key)
  · exact (env.wakers_perm _).mem_iff.1 hmem

/-- What a round can do: nothing, forget a key whose endpoint is gone, or wake an endpoint whose
    key is due. -/
theorem processRound_cases :
    s.processRound env = s ∨
    ∃ key ∈ s.endpointWaker, key.1 ≤ s.lastTickTimepoint ∧
      (((∀ e, key.2 = some e → (s.endpoint e).alive = false) ∧
          s.processRound env = s.eraseWaker key) ∨
        ∃ e, key.2 = some e ∧ (s.endpoint e).alive = true ∧
          s.processRound env = (s.eraseWaker key).wakeEndpoint env e) := by
  unfold processRound
  cases hbegin : s.wakerBegin env with
  | none => exact Or.inl rfl
  | some key =>
    dsimp only
    by_cases hdue : key.1 ≤ s.lastTickTimepoint
    · rw [if_pos hdue]
      refine Or.inr ⟨key, wakerBegin_mem env s hbegin, hdue, ?_⟩
      cases hkey : key.2 with
      | none => exact Or.inl ⟨by simp, rfl⟩
      | some e =>
        dsimp only
        cases halive : (s.endpoint e).alive with
        | true => exact Or.inr ⟨e, rfl, halive, rfl⟩
        | false => exact Or.inl ⟨fun e' he' => Option.some.inj he' ▸ halive, rfl⟩
    · rw [if_neg hdue]
      exact Or.inl rfl

end App

/-! ## Operations -/

/-- An operation on the endpoint side of the app. -/
inductive AppOp
  | tick (now : Int)
  | stop
  | copyFrom (node : NodePtr) (content : EtcdDiscoveryNode)
  | mutableEndpoint (discovery : Option NodePtr) (result : Option ConnectResult)
  | removeEndpointById (id : Nat)
  | removeEndpointByName (name : Bytes)
  | removeEndpoint (e : EndpointPtr)
  | pushForwardMessage (e : EndpointPtr) (type : Int) (sequence : Nat) (data : Bytes)
      (metadata : Option AtappMetadata)
  | retryPendingMessages (e : EndpointPtr) (tickTime : Int) (maxCount : Int)
  | processRound
  | destroyEndpoint (e : EndpointPtr)
  | newHandle
  | bindEndpoint (h : HandlePtr) (e : EndpointPtr)
  | unbindEndpoint (h : HandlePtr) (e : EndpointPtr)
  | addConnectionHandle (e : EndpointPtr) (h : HandlePtr)
  | removeConnectionHandle (e : EndpointPtr) (h : HandlePtr)
  | bindConnector (h : HandlePtr) (c : ConnectorPtr)
  | unbindConnector (h : HandlePtr) (c : ConnectorPtr)
  | closeHandle (h : HandlePtr)
  | setReady (h : HandlePtr)
  | setUnready (h : HandlePtr)
  | destroyHandle (h : HandlePtr)
  | cleanup (c : ConnectorPtr)
  | destroyConnector (c : ConnectorPtr)

namespace AppOp

/-- The handle a caller names. -/
def handleOf : AppOp → Option HandlePtr
  | bindEndpoint h _ | unbindEndpoint h _ | addConnectionHandle _ h | removeConnectionHandle _ h
  | bindConnector h _ | unbindConnector h _ | closeHandle h | setReady h | setUnready h
  | destroyHandle h => some h
  | _ => none

/-- The endpoint a caller names. -/
def endpointOf : AppOp → Option EndpointPtr
  | removeEndpoint e | pushForwardMessage e _ _ _ _ | retryPendingMessages e _ _
  | destroyEndpoint e | bindEndpoint _ e | unbindEndpoint _ e | addConnectionHandle e _
  | removeConnectionHandle e _ => some e
  | _ => none

end AppOp

namespace App

/-- The caller holds live objects. An endpoint is only destroyed after its last shared pointer is
    gone, so not while an index holds one. -/
structure Callable (s : App) (op : AppOp) : Prop where
  handle : ∀ h, op.handleOf = some h → (s.handle h).alive = true
  endpoint : ∀ e, op.endpointOf = some e → (s.endpoint e).alive = true
  unshared : ∀ e, op = .destroyEndpoint e →
    (∀ id, s.endpointIndexById id ≠ some e) ∧ ∀ name, s.endpointIndexByName name ≠ some e

/-- An operation on live objects that destroys no endpoint can be called. -/
theorem callable_of_alive {s : App} {op : AppOp}
    (hhandle : ∀ h ∈ op.handleOf, (s.handle h).alive = true)
    (hend : ∀ e ∈ op.endpointOf, (s.endpoint e).alive = true)
    (hop : ∀ e, op ≠ .destroyEndpoint e) : s.Callable op :=
  ⟨hhandle, hend, fun e heq => absurd heq (hop e)⟩

/-- One operation in its environment. -/
def step (s : App) (input : Environment × AppOp) : App :=
  let env := input.1
  match input.2 with
  | .tick now => { s with lastTickTimepoint := now }
  | .stop => { s with isClosing := true }
  | .copyFrom node content => { s with heap := Function.update s.heap node content }
  | .mutableEndpoint discovery result => (s.mutableEndpoint env discovery result).1
  | .removeEndpointById id => s.removeEndpointById env id
  | .removeEndpointByName name => s.removeEndpointByName env name
  | .removeEndpoint e => s.removeEndpoint env e
  | .pushForwardMessage e type sequence data metadata =>
    (s.pushForwardMessage env e type sequence data metadata).1
  | .retryPendingMessages e tickTime maxCount =>
    (s.retryPendingMessages env e tickTime maxCount).1
  | .processRound => s.processRound env
  | .destroyEndpoint e => s.destroyEndpoint env e
  | .newHandle => s.newHandle
  | .bindEndpoint h e => s.bindEndpoint env h e
  | .unbindEndpoint h e => s.unbindEndpoint env h e
  | .addConnectionHandle e h => s.addConnectionHandle env e h
  | .removeConnectionHandle e h => s.removeConnectionHandle env e h
  | .bindConnector h c => s.bindConnector env h c
  | .unbindConnector h c => s.unbindConnector env h c
  | .closeHandle h => s.close env h
  | .setReady h => s.setReady h
  | .setUnready h => s.setUnready h
  | .destroyHandle h => s.destroyHandle env h
  | .cleanup c => s.cleanup env c
  | .destroyConnector c => s.destroyConnector env c

/-- An app that has just been set up. -/
def init (conf : AppConf) (now : Int) : App := { conf := conf, lastTickTimepoint := now }

end App

end LibAtapp.Connectors
