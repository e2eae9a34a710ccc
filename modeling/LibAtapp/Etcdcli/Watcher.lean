import LibAtapp.Etcdcli.Packer

set_option autoImplicit false

/-! # The etcd watcher

`etcd_watcher` reads a snapshot of a key range with a range request, then follows the range with a
watch request from the snapshot's revision on, and starts over when a request ends. The functions
here take the watcher's state to its next state; the time, the outcome of a request and the body
of an answer are arguments, and `none` is a failed assertion of rapidjson or the use of a null
request. What the watcher does to its surroundings is recorded in `effects`. -/

namespace LibAtapp

/-! ## Responses -/

/-- `etcd_watcher::event_t`. -/
structure WatchEvent where
  evtType : EtcdWatchEvent := .put
  kv : EtcdKeyValue := {}
  prevKv : EtcdKeyValue := {}
  deriving DecidableEq, Repr

/-- `etcd_watcher::response_t`. -/
structure WatchResponse where
  watchId : Int := 0
  created : Bool := false
  canceled : Bool := false
  snapshot : Bool := false
  compactRevision : Int := 0
  events : List WatchEvent := []
  deriving DecidableEq, Repr

/-- What one text of the watch stream holds: the header, if it has one, and the response. -/
structure WatchTrunk where
  header : Option EtcdResponseHeader
  response : WatchResponse
  deriving DecidableEq, Repr

/-- The answer of a range request: its header, if it has one, and the events made of its `kvs`. -/
structure RangeAnswer where
  header : Option EtcdResponseHeader
  events : List WatchEvent
  deriving DecidableEq, Repr

namespace EtcdPacker

variable (codec : TextCodec)

/-- `UTIL_STRFUNC_STRCASE_CMP` finds the text equal to `DELETE`. -/
def isDeleteText (text : Bytes) : Bool :=
  text.map (fun c => if 0x61 ≤ c ∧ c ≤ 0x7a then c - 0x20 else c) == ascii "DELETE"

/-- The type of an event of a watch response. A missing type, and one that is neither a string
    nor a number, leave the value a new event has. -/
def unpackEvtType (json : Json) : Option EtcdWatchEvent := do
  match ← json.findMember (ascii "type") with
  | none => return .put
  | some value =>
    match value.string? with
    | some text => return if isDeleteText text then .delete else .put
    | none =>
      if value.isNumber then
        let typeInt ← unpackUint64 codec json (ascii "type") 0
        return if typeInt = 0 then .put else .delete
      else return .put

/-- A key and value member, when there is one. -/
def unpackKeyValueMember (json : Json) (name : Bytes) : Option EtcdKeyValue := do
  match ← json.findMember name with
  | none => return {}
  | some value => unpackKeyValue codec {} value

/-- One event of a watch response. -/
def unpackWatchEvent (json : Json) : Option WatchEvent := do
  let evtType ← unpackEvtType codec json
  let kv ← unpackKeyValueMember codec json (ascii "kv")
  let prevKv ← unpackKeyValueMember codec json (ascii "prev_kv")
  return { evtType, kv, prevKv }

/-- The array under a name; anything else counts as no entries. -/
def unpackArray (json : Json) (name : Bytes) : Option (List Json) := do
  match ← json.findMember name with
  | some (.array items) => return items
  | _ => return []

/-- The header member, when there is one. -/
def unpackHeaderMember (json : Json) : Option (Option EtcdResponseHeader) := do
  match ← json.findMember (ascii "header") with
  | none => return none
  | some value => return some (← unpackHeader codec {} value)

/-- The content of a watch text. `fresh` is the indeterminate content of the `response_t` variable
    that the fields are unpacked into. -/
def unpackTrunk (fresh : WatchResponse) (root : Json) : Option WatchTrunk := do
  let result := (← root.findMember (ascii "result")).getD root
  let header ← unpackHeaderMember codec result
  let watchId ← unpackInt64 codec result (ascii "watch_id") fresh.watchId
  let compactRevision ← unpackInt64 codec result (ascii "compact_revision") fresh.compactRevision
  let created ← unpackBool codec result (ascii "created") fresh.created
  let canceled ← unpackBool codec result (ascii "canceled") fresh.canceled
  let events ← (← unpackArray result (ascii "events")).mapM (unpackWatchEvent codec)
  return { header, response := { watchId, created, canceled, compactRevision, events } }

/-- The content of a range answer: every key and value counts as a put. Without a revision in
    the header nothing else is unpacked. -/
def unpackRangeAnswer (doc : Json) : Option RangeAnswer := do
  let header ← unpackHeaderMember codec doc
  if (header.getD {}).revision = 0 then
    return { header, events := [] }
  else
    let kvs ← (← unpackArray doc (ascii "kvs")).mapM (unpackKeyValue codec {})
    return { header, events := kvs.map (fun kv => { kv }) }

end EtcdPacker

/-! ## The state of a watcher -/

/-- A request in `rpc_.rpc_opr_`. -/
inductive WatcherRequest where
  | range (path rangeEnd : Bytes)
  | watch (path rangeEnd : Bytes) (startRevision : Int) (prevKv progressNotify : Bool)
  deriving DecidableEq, Repr

/-- What a watcher does to its surroundings. -/
inductive WatcherEffect where
  /-- A text of the watch stream is complete and handed to `parse_object`. -/
  | trunk (valueJson : Bytes)
  /-- A call of `evt_handle_`. -/
  | evtHandle (header : EtcdResponseHeader) (response : WatchResponse)
  /-- `req.stop()` after a canceled response. -/
  | stop
  deriving DecidableEq, Repr

/-- `etcd_watcher`, without the bracket counter and buffer of the watch stream. -/
structure EtcdWatcher where
  path : Bytes
  rangeEnd : Bytes
  rpcOpr : Option WatcherRequest := none
  isActived : Bool := false
  isRetryMode : Bool := false
  enableProgressNotify : Bool := true
  enablePrevKv : Bool := false
  lastRevision : Int := 0
  watcherNextRequestTime : Int := 0
  retryInterval : Int := 15000
  startupRandomDelayMin : Int := 0
  evtHandle : Bool := true
  effects : List WatcherEffect := []
  deriving DecidableEq, Repr

/-- How `create_request_*` and `http_request::start` end. -/
inductive StartOutcome where
  | createFailed
  | startFailed
  | started
  deriving DecidableEq, Repr

/-- The result of a finished http request. -/
structure HttpResult where
  errorCode : Int
  /-- The response code is in the success group. -/
  responseSuccess : Bool
  deriving DecidableEq, Repr

/-- `CURLE_OPERATION_TIMEDOUT`. -/
def curleOperationTimedout : Int := 28

namespace EtcdWatcher

/-- Issue a request: only a started one stays in `rpc_opr_`. -/
def startRequest (self : EtcdWatcher) (now : Int) (request : WatcherRequest) :
    StartOutcome → EtcdWatcher
  | .createFailed => { self with watcherNextRequestTime := now + self.retryInterval }
  | .startFailed => self
  | .started => { self with rpcOpr := some request }

/-- `process`. With a startup delay the first call logs the url of the request, which is null. A
    started watch request begins with an empty stream buffer. -/
def process (self : EtcdWatcher) (now : Int) (outcome : StartOutcome) : Option EtcdWatcher :=
  if self.rpcOpr.isSome then some self
  else
    let self := { self with isActived := false }
    if self.watcherNextRequestTime > now then some self
    else if self.watcherNextRequestTime ≤ 0 ∧ self.startupRandomDelayMin > 0 then none
    else if self.lastRevision = 0 ∨ self.isRetryMode then
      -- Ask for the revision first; in retry mode the answer is only a test of the connection.
      let rangeEnd := if self.isRetryMode then [] else self.rangeEnd
      some (self.startRequest now (.range self.path rangeEnd) outcome)
    else
      some (self.startRequest now (.watch self.path self.rangeEnd (self.lastRevision + 1)
        self.enablePrevKv self.enableProgressNotify) outcome)

/-- `active`. -/
def active (self : EtcdWatcher) (now : Int) (outcome : StartOutcome) : Option EtcdWatcher :=
  { self with isActived := true }.process now outcome

/-- The call of the event handler, when one is set. -/
def trigger (self : EtcdWatcher) (header : EtcdResponseHeader) (response : WatchResponse) :
    EtcdWatcher :=
  if self.evtHandle then { self with effects := self.effects ++ [.evtHandle header response] }
  else self

/-- The end of `libcurl_callback_on_range_completed` for a failed request. -/
def onRangeFailed (self : EtcdWatcher) (now : Int) : EtcdWatcher :=
  { self with rpcOpr := none, watcherNextRequestTime := now + self.retryInterval }

/-- `libcurl_callback_on_range_completed` in retry mode, where the answer is not read. -/
def onRetryAnswer (self : EtcdWatcher) (now : Int) (outcome : StartOutcome) :
    Option EtcdWatcher :=
  { self with rpcOpr := none, isRetryMode := false,
              watcherNextRequestTime := now }.active now outcome

/-- `libcurl_callback_on_range_completed` for an answer that parses: its revision is saved and
    its keys are handed over as a snapshot. -/
def onRangeAnswer (self : EtcdWatcher) (now : Int) (outcome : StartOutcome)
    (answer : RangeAnswer) : Option EtcdWatcher :=
  let self := { self with rpcOpr := none }
  let header := answer.header.getD {}
  if header.revision = 0 then
    { self with watcherNextRequestTime := now + self.retryInterval }.active now outcome
  else
    let self := { self with lastRevision := header.revision }
    let self := self.trigger header { snapshot := true, events := answer.events }
    { self with watcherNextRequestTime := now }.active now outcome

/-- `libcurl_callback_on_range_completed`. -/
def onRangeCompleted (codec : TextCodec) (self : EtcdWatcher) (now : Int) (outcome : StartOutcome)
    (result : HttpResult) (httpContent : Bytes) : Option EtcdWatcher :=
  if result.errorCode ≠ 0 ∨ result.responseSuccess = false then some (self.onRangeFailed now)
  else if self.isRetryMode then self.onRetryAnswer now outcome
  else
    match EtcdPacker.parseObject codec httpContent with
    | none => (self.onRangeFailed now).active now outcome
    | some doc => do
      let answer ← EtcdPacker.unpackRangeAnswer codec doc
      self.onRangeAnswer now outcome answer

/-- `libcurl_callback_on_watch_completed`. -/
def onWatchCompleted (self : EtcdWatcher) (now : Int) (outcome : StartOutcome)
    (result : HttpResult) : Option EtcdWatcher :=
  let self := { self with rpcOpr := none, isRetryMode := true }
  if result.errorCode ≠ 0 ∨ result.responseSuccess = false then
    if result.errorCode ≠ curleOperationTimedout ∧ result.responseSuccess = false then
      { self with watcherNextRequestTime := now + self.retryInterval }.active now outcome
    else { self with watcherNextRequestTime := now }.active now outcome
  else self.active now outcome

/-- The part of `libcurl_callback_on_watch_write` that handles an unpacked text. -/
def onTrunk (self : EtcdWatcher) (trunk : WatchTrunk) : EtcdWatcher :=
  let previousRevision := self.lastRevision
  let header := trunk.header.getD {}
  let self := if header.revision ≠ 0 then { self with lastRevision := header.revision } else self
  let self := self.trigger header trunk.response
  if trunk.response.canceled then
    -- A compacted revision: the data must be read by a range request again.
    let lastRevision :=
      if previousRevision < trunk.response.compactRevision then 0 else self.lastRevision
    { self with lastRevision, effects := self.effects ++ [.stop] }
  else self

end EtcdWatcher

end LibAtapp
