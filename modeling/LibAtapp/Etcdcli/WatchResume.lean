import LibAtapp.Etcdcli.Watcher
import LibAtapp.Library.OrderedLog
import LibAtapp.Library.Run

set_option autoImplicit false

/-! # A watcher and its etcd server

A watcher together with the server it talks to, as a system that takes one step after another: the
server commits transactions and compacts its log, requests are started and end, and the responses
of a watch request arrive. `last_revision` is overwritten with the revision of every response
header and is the point from which the next watch request goes on, so the question is whether
everything up to it has been handed to the event handler (`NoSkip`). The main result says that this
is so in every run in which no header is ahead of the events that the watch has still to send. -/

namespace LibAtapp

/-! ## The server -/

namespace WatchEvent

/-- The revision of the transaction an event belongs to. -/
def revision (event : WatchEvent) : Int := event.kv.modRevision

/-- An event as a transaction commits it. -/
def commitAt (revision : Int) (event : WatchEvent) : WatchEvent :=
  { event with kv := { event.kv with modRevision := revision } }

end WatchEvent

/-- The keys and values at a revision: the last put of every key that is not deleted after it. -/
def storeAt (log : List WatchEvent) (revision : Int) : List EtcdKeyValue :=
  (log.filter (fun e => e.revision ≤ revision)).foldl
    (fun store e =>
      let others := store.filter (fun kv => kv.key ≠ e.kv.key)
      match e.evtType with
      | .put => others ++ [e.kv]
      | .delete => others) []

/-- The responses of a watch request. -/
inductive WatchAnswer where
  | created
  /-- The next events, so many of them. -/
  | events (count : Nat)
  | progress
  /-- The start revision is below the compacted one. -/
  | canceled
  deriving DecidableEq, Repr

/-- A watcher and a server. The last three fields belong to the watch request in flight: whether
    it was answered as created, whether it was canceled, and how many events were sent. -/
structure WatchSystem where
  watcher : EtcdWatcher
  log : List WatchEvent := []
  revision : Int := 0
  compactRevision : Int := 0
  created : Bool := false
  canceled : Bool := false
  sent : Nat := 0
  deriving DecidableEq

/-- What can happen. -/
inductive WatchStep where
  | commit (events : List WatchEvent)
  | compact (revision : Int)
  | active (now : Int) (outcome : StartOutcome)
  | rangeFailed (now : Int)
  /-- A range request is answered with the store at a revision. -/
  | rangeDone (now : Int) (outcome : StartOutcome) (revision : Int)
  /-- A response of the watch request arrives, with a revision in its header. -/
  | respond (revision : Int) (answer : WatchAnswer)
  | watchDone (now : Int) (outcome : StartOutcome) (result : HttpResult)

/-- The start revision of a watch request. -/
def WatcherRequest.startRevision? : WatcherRequest → Option Int
  | .range _ _ => none
  | .watch _ _ startRevision _ _ => some startRevision

/-- The start revision of the watch request in flight. -/
def EtcdWatcher.watchStart (self : EtcdWatcher) : Option Int :=
  self.rpcOpr.bind WatcherRequest.startRevision?

/-- A range request is in flight. -/
def EtcdWatcher.isRanging (self : EtcdWatcher) : Bool :=
  match self.rpcOpr with
  | some (.range _ _) => true
  | _ => false

namespace WatchSystem

/-- The events that the watch request in flight has still to send. -/
def pending (s : WatchSystem) (startRevision : Int) : List WatchEvent :=
  (OrderedLog.entriesFrom WatchEvent.revision s.log startRevision).drop s.sent

/-- A response of the server, when it can send it: events and progress come after `created`, and
    the header has a revision that the server had, not below those of the events. -/
def trunk (s : WatchSystem) (revision : Int) (answer : WatchAnswer) : Option WatchTrunk :=
  match s.watcher.watchStart with
  | none => none
  | some startRevision =>
    let header : EtcdResponseHeader := { revision }
    if s.canceled ∨ revision ≤ 0 ∨ s.revision < revision then none
    else
      match answer with
      | .created =>
        if s.created then none else some { header, response := { created := true } }
      | .events count =>
        let events := (s.pending startRevision).take count
        if s.created ∧ ∀ e ∈ events, e.revision ≤ revision then
          some { header, response := { events } }
        else none
      | .progress => if s.created then some { header, response := {} } else none
      | .canceled =>
        if startRevision < s.compactRevision then
          some { header, response := { canceled := true, compactRevision := s.compactRevision } }
        else none

/-- The watcher handles a response. -/
def respond (s : WatchSystem) (trunk : WatchTrunk) : WatchSystem :=
  { s with
    watcher := s.watcher.onTrunk trunk
    created := s.created || trunk.response.created
    canceled := s.canceled || trunk.response.canceled
    sent := s.sent + trunk.response.events.length }

/-- One step. What cannot happen changes nothing; `none` is a crash of the watcher. -/
def next (s : WatchSystem) : WatchStep → Option WatchSystem
  | .commit events =>
    some { s with revision := s.revision + 1
                  log := s.log ++ events.map (WatchEvent.commitAt (s.revision + 1)) }
  | .compact revision =>
    if s.compactRevision ≤ revision ∧ revision ≤ s.revision then
      some { s with compactRevision := revision }
    else some s
  | .active now outcome =>
    (s.watcher.active now outcome).map (fun watcher => { s with watcher })
  | .rangeFailed now =>
    if s.watcher.isRanging then some { s with watcher := s.watcher.onRangeFailed now } else some s
  | .rangeDone now outcome revision =>
    if s.watcher.isRanging ∧ 0 < revision ∧ revision ≤ s.revision then
      let answered :=
        if s.watcher.isRetryMode then s.watcher.onRetryAnswer now outcome
        else s.watcher.onRangeAnswer now outcome
          { header := some { revision }
            events := (storeAt s.log revision).map (fun kv => { kv }) }
      answered.map (fun watcher => { s with watcher })
    else some s
  | .respond revision answer =>
    match s.trunk revision answer with
    | none => some s
    | some trunk => some (s.respond trunk)
  | .watchDone now outcome result =>
    if s.watcher.watchStart.isSome then
      (s.watcher.onWatchCompleted now outcome result).map
        (fun watcher => { s with watcher, created := false, canceled := false, sent := 0 })
    else some s

/-- A step of a system that may have crashed. -/
def step (st : Option WatchSystem) (i : WatchStep) : Option WatchSystem :=
  st.bind (fun s => s.next i)

end WatchSystem

/-! ## What has been handed over -/

/-- The revision of the last snapshot and the events handed over since, after one more effect. -/
def WatcherEffect.handOver (handed : Int × List WatchEvent) : WatcherEffect →
    Int × List WatchEvent
  | .evtHandle header response =>
    if response.snapshot then (header.revision, []) else (handed.1, handed.2 ++ response.events)
  | _ => handed

/-- The revision of the last snapshot and the events handed to `evt_handle_` since. -/
def EtcdWatcher.handed (self : EtcdWatcher) : Int × List WatchEvent :=
  self.effects.foldl WatcherEffect.handOver (0, [])

namespace WatchSystem

/-- Since the last snapshot every event up to `last_revision` has been handed over, and every
    event was handed over after all the earlier ones. -/
structure NoSkip (s : WatchSystem) : Prop where
  upTo : OrderedLog.DeliveredUpTo WatchEvent.revision s.log s.watcher.handed.2 s.watcher.handed.1
    s.watcher.lastRevision
  inOrder : OrderedLog.InOrder WatchEvent.revision s.log s.watcher.handed.2 s.watcher.handed.1

/-- The watcher drops its revision when it handles the response: the range must be read again. -/
def Restarts (s : WatchSystem) (trunk : WatchTrunk) : Prop :=
  trunk.response.canceled = true ∧ s.watcher.lastRevision < trunk.response.compactRevision

/-- A response whose header is not ahead of the events that the watch has still to send after it,
    or that makes the watcher start over. -/
def HeaderNotAhead (s : WatchSystem) : WatchStep → Prop
  | .respond revision answer =>
    ∀ trunk ∈ s.trunk revision answer, ∀ startRevision ∈ s.watcher.watchStart,
      s.Restarts trunk ∨
        ∀ e ∈ (s.pending startRevision).drop trunk.response.events.length, revision < e.revision
  | _ => True

instance (s : WatchSystem) (i : WatchStep) : Decidable (s.HeaderNotAhead i) := by
  cases i <;> unfold HeaderNotAhead Restarts <;> infer_instance

end WatchSystem

/-! ## What the functions of the watcher change -/

namespace EtcdWatcher

/-- What a call of `process` keeps, and from where a watch request that it starts goes on. -/
structure Started (before after : EtcdWatcher) : Prop where
  lastRevision : after.lastRevision = before.lastRevision
  handed : after.handed = before.handed
  evtHandle : after.evtHandle = before.evtHandle
  start : after.watchStart = before.watchStart ∨
    before.watchStart = none ∧ after.watchStart = some (before.lastRevision + 1)

theorem started_startRequest (self : EtcdWatcher) (now : Int) (request : WatcherRequest)
    (outcome : StartOutcome) (hnone : self.rpcOpr = none)
    (hstart : request.startRevision? = none ∨
      request.startRevision? = some (self.lastRevision + 1)) :
    Started self (self.startRequest now request outcome) := by
  have hidle : self.watchStart = none := by rw [watchStart, hnone]; rfl
  cases outcome with
  | createFailed => exact ⟨rfl, rfl, rfl, Or.inl rfl⟩
  | startFailed => exact ⟨rfl, rfl, rfl, Or.inl rfl⟩
  | started =>
      refine ⟨rfl, rfl, rfl, ?_⟩
      rcases hstart with hrange | hwatch
      · exact Or.inl (hrange.trans hidle.symm)
      · exact Or.inr ⟨hidle, hwatch⟩

theorem started_process {self started : EtcdWatcher} {now : Int} {outcome : StartOutcome}
    (h : self.process now outcome = some started) : Started self started := by
  unfold process at h
  split at h
  · cases h
    exact ⟨rfl, rfl, rfl, Or.inl rfl⟩
  · next hrpc =>
    have hnone : { self with isActived := false }.rpcOpr = none := by simpa using hrpc
    simp only at h
    split at h
    · cases h
      exact ⟨rfl, rfl, rfl, Or.inl rfl⟩
    · split at h
      · cases h
      · split at h
        · cases h
          have hs := started_startRequest { self with isActived := false } now
            (.range self.path (if self.isRetryMode then [] else self.rangeEnd)) outcome hnone
            (Or.inl rfl)
          exact ⟨hs.lastRevision, hs.handed, hs.evtHandle, hs.start⟩
        · cases h
          have hs := started_startRequest { self with isActived := false } now
            (.watch self.path self.rangeEnd (self.lastRevision + 1) self.enablePrevKv
              self.enableProgressNotify) outcome hnone (Or.inr rfl)
          exact ⟨hs.lastRevision, hs.handed, hs.evtHandle, hs.start⟩

theorem started_active {self started : EtcdWatcher} {now : Int} {outcome : StartOutcome}
    (h : self.active now outcome = some started) : Started self started := by
  have hs := started_process h
  exact ⟨hs.lastRevision, hs.handed, hs.evtHandle, hs.start⟩

/-- What the end of a request keeps. -/
structure Stopped (before after : EtcdWatcher) : Prop where
  lastRevision : after.lastRevision = before.lastRevision
  handed : after.handed = before.handed
  evtHandle : after.evtHandle = before.evtHandle
  start : after.watchStart = none

theorem onRetryAnswer_spec {self answered : EtcdWatcher} {now : Int} {outcome : StartOutcome}
    (h : self.onRetryAnswer now outcome = some answered) :
    ∃ stopped, Stopped self stopped ∧ Started stopped answered := by
  unfold onRetryAnswer at h
  refine ⟨_, ?_, started_active h⟩
  exact ⟨rfl, rfl, rfl, rfl⟩

theorem onWatchCompleted_spec {self answered : EtcdWatcher} {now : Int} {outcome : StartOutcome}
    {result : HttpResult} (h : self.onWatchCompleted now outcome result = some answered) :
    ∃ stopped, Stopped self stopped ∧ Started stopped answered := by
  simp only [onWatchCompleted] at h
  split at h
  · split at h
    · refine ⟨_, ?_, started_active h⟩
      exact ⟨rfl, rfl, rfl, rfl⟩
    · refine ⟨_, ?_, started_active h⟩
      exact ⟨rfl, rfl, rfl, rfl⟩
  · refine ⟨_, ?_, started_active h⟩
    exact ⟨rfl, rfl, rfl, rfl⟩

/-- A range answer hands over a snapshot at its revision. -/
theorem onRangeAnswer_spec {self answered : EtcdWatcher} {now revision : Int}
    {outcome : StartOutcome} {events : List WatchEvent} (hhandle : self.evtHandle = true)
    (hpos : 0 < revision)
    (h : self.onRangeAnswer now outcome ⟨some { revision }, events⟩ = some answered) :
    ∃ stopped, stopped.lastRevision = revision ∧ stopped.handed = (revision, []) ∧
      stopped.evtHandle = true ∧ stopped.watchStart = none ∧ Started stopped answered := by
  simp only [onRangeAnswer, Option.getD_some, hpos.ne', if_false, trigger, hhandle, if_true] at h
  refine ⟨_, ?_, ?_, ?_, ?_, started_active h⟩
  · rfl
  · simp [handed, WatcherEffect.handOver]
  · rfl
  · rfl

/-- What the handling of a watch response changes. -/
theorem onTrunk_spec {self : EtcdWatcher} {trunk : WatchTrunk} {revision : Int}
    (hhandle : self.evtHandle = true) (hheader : trunk.header = some { revision })
    (hsnapshot : trunk.response.snapshot = false) (hpos : 0 < revision) :
    (self.onTrunk trunk).handed =
        (self.handed.1, self.handed.2 ++ trunk.response.events) ∧
      (self.onTrunk trunk).rpcOpr = self.rpcOpr ∧
      (self.onTrunk trunk).evtHandle = true ∧
      (self.onTrunk trunk).lastRevision =
        if trunk.response.canceled = true ∧ self.lastRevision < trunk.response.compactRevision then 0
        else revision := by
  by_cases hcanceled : trunk.response.canceled = true
  · by_cases hcompact : self.lastRevision < trunk.response.compactRevision
    · simp [onTrunk, trigger, handed, hhandle, hheader, hpos.ne', hcanceled, hcompact, hsnapshot,
        WatcherEffect.handOver]
    · simp [onTrunk, trigger, handed, hhandle, hheader, hpos.ne', hcanceled, hcompact, hsnapshot,
        WatcherEffect.handOver]
  · simp [onTrunk, trigger, handed, hhandle, hheader, hpos.ne', hcanceled, hsnapshot,
      WatcherEffect.handOver]

end EtcdWatcher

namespace WatchSystem

/-! ## The invariant -/

/-- The watch request in flight started where everything before was handed over, and what it sent
    was handed over. -/
structure Streaming (s : WatchSystem) (startRevision : Int) : Prop where
  bounded : startRevision ≤ s.revision + 1
  before : ∀ e ∈ s.log, s.watcher.handed.1 < e.revision → e.revision < startRevision →
    e ∈ s.watcher.handed.2
  sent_le : s.sent ≤ (OrderedLog.entriesFrom WatchEvent.revision s.log startRevision).length
  sent : ∀ e ∈ (OrderedLog.entriesFrom WatchEvent.revision s.log startRevision).take s.sent,
    e ∈ s.watcher.handed.2

/-- What the runs keep besides `NoSkip`. -/
structure Resuming (s : WatchSystem) : Prop extends NoSkip s where
  evtHandle : s.watcher.evtHandle = true
  sorted : OrderedLog.Sorted WatchEvent.revision s.log
  bounded : ∀ e ∈ s.log, e.revision ≤ s.revision
  handedBounded : ∀ e ∈ s.watcher.handed.2, e.revision ≤ s.revision
  resumeBounded : s.watcher.lastRevision ≤ s.revision
  snapshotNonneg : 0 ≤ s.watcher.handed.1
  revisionNonneg : 0 ≤ s.revision
  idle : s.watcher.watchStart = none → s.sent = 0
  streaming : ∀ startRevision ∈ s.watcher.watchStart, s.Streaming startRevision

/-- The end of a request keeps the invariant. -/
theorem Resuming.stopped {s : WatchSystem} (h : Resuming s) {watcher : EtcdWatcher}
    {created canceled : Bool} {sent : Nat} (hs : EtcdWatcher.Stopped s.watcher watcher)
    (hsent : sent = 0) : Resuming { s with watcher, created, canceled, sent } where
  upTo := by
    simp only [hs.lastRevision, hs.handed]
    exact h.upTo
  inOrder := by
    simp only [hs.handed]
    exact h.inOrder
  evtHandle := hs.evtHandle.trans h.evtHandle
  sorted := h.sorted
  bounded := h.bounded
  handedBounded := by
    simp only [hs.handed]
    exact h.handedBounded
  resumeBounded := by
    simp only [hs.lastRevision]
    exact h.resumeBounded
  snapshotNonneg := by
    simp only [hs.handed]
    exact h.snapshotNonneg
  revisionNonneg := h.revisionNonneg
  idle := fun _ => hsent
  streaming := by
    intro startRevision hmem
    simp only [hs.start] at hmem
    cases hmem

/-- A new snapshot starts over. -/
theorem Resuming.snapshot {s : WatchSystem} (h : Resuming s) {watcher : EtcdWatcher}
    {revision : Int} (hlast : watcher.lastRevision = revision)
    (hhanded : watcher.handed = (revision, [])) (hhandle : watcher.evtHandle = true)
    (hstart : watcher.watchStart = none) (hpos : 0 < revision) (hle : revision ≤ s.revision)
    (hsent : s.sent = 0) : Resuming { s with watcher } where
  upTo := by
    simp only [hlast, hhanded]
    intro e _ hlow htop
    omega
  inOrder := by
    simp only [hhanded]
    exact OrderedLog.inOrder_nil
  evtHandle := hhandle
  sorted := h.sorted
  bounded := h.bounded
  handedBounded := by simp [hhanded]
  resumeBounded := by
    simp only [hlast]
    exact hle
  snapshotNonneg := by
    simp only [hhanded]
    omega
  revisionNonneg := h.revisionNonneg
  idle := fun _ => hsent
  streaming := by
    intro startRevision hmem
    simp only [hstart] at hmem
    cases hmem

/-- A call of `process` keeps the invariant: a new watch request goes on where the last one
    stopped. -/
theorem Resuming.started {s : WatchSystem} (h : Resuming s) {watcher : EtcdWatcher}
    (hs : EtcdWatcher.Started s.watcher watcher) : Resuming { s with watcher } where
  upTo := by
    simp only [hs.lastRevision, hs.handed]
    exact h.upTo
  inOrder := by
    simp only [hs.handed]
    exact h.inOrder
  evtHandle := hs.evtHandle.trans h.evtHandle
  sorted := h.sorted
  bounded := h.bounded
  handedBounded := by
    simp only [hs.handed]
    exact h.handedBounded
  resumeBounded := by
    simp only [hs.lastRevision]
    exact h.resumeBounded
  snapshotNonneg := by
    simp only [hs.handed]
    exact h.snapshotNonneg
  revisionNonneg := h.revisionNonneg
  idle := by
    intro hnone
    rcases hs.start with hsame | ⟨-, hnew⟩
    · exact h.idle (hsame.symm.trans hnone)
    · rw [hnew] at hnone
      cases hnone
  streaming := by
    intro startRevision hmem
    rcases hs.start with hsame | ⟨hidle, hnew⟩
    · have hold := h.streaming startRevision (hsame ▸ hmem)
      refine ⟨hold.bounded, ?_, hold.sent_le, ?_⟩
      · simp only [hs.handed]
        exact hold.before
      · simp only [hs.handed]
        exact hold.sent
    · have heq : startRevision = s.watcher.lastRevision + 1 := by
        rw [hnew] at hmem
        exact (Option.some.inj hmem).symm
      have hsent : s.sent = 0 := h.idle hidle
      refine ⟨?_, ?_, ?_, ?_⟩
      · have hle := h.resumeBounded
        show startRevision ≤ s.revision + 1
        omega
      · intro e he hlow hlt
        simp only [hs.handed] at hlow ⊢
        exact h.upTo e he hlow (by omega)
      · simp only [hsent]
        exact Nat.zero_le _
      · simp [hsent]

/-- A transaction adds events above everything that was handed over. -/
theorem Resuming.commit {s : WatchSystem} (h : Resuming s) (events : List WatchEvent) :
    Resuming { s with revision := s.revision + 1
                      log := s.log ++ events.map (WatchEvent.commitAt (s.revision + 1)) } := by
  have hnew : ∀ e ∈ events.map (WatchEvent.commitAt (s.revision + 1)),
      e.revision = s.revision + 1 := by
    intro e he
    obtain ⟨event, -, rfl⟩ := List.mem_map.1 he
    rfl
  refine {
    upTo := h.upTo.append_log ?_, inOrder := h.inOrder.append_log ?_, evtHandle := h.evtHandle,
    sorted := ?_, bounded := ?_, handedBounded := ?_, resumeBounded := ?_,
    snapshotNonneg := h.snapshotNonneg, revisionNonneg := ?_, idle := h.idle, streaming := ?_ }
  · intro f hf
    have hle := h.resumeBounded
    rw [hnew f hf]
    omega
  · intro e he f hf
    have hle := h.handedBounded e he
    rw [hnew f hf]
    omega
  · refine List.pairwise_append.2 ⟨h.sorted, ?_, ?_⟩
    · apply List.pairwise_of_forall_mem_list
      intro a ha b hb
      rw [hnew a ha, hnew b hb]
    · intro a ha b hb
      have hle := h.bounded a ha
      rw [hnew b hb]
      omega
  · intro e he
    rcases List.mem_append.1 he with he | he
    · have hle := h.bounded e he
      show e.revision ≤ s.revision + 1
      omega
    · exact (hnew e he).le
  · intro e he
    have hle := h.handedBounded e he
    show e.revision ≤ s.revision + 1
    omega
  · have hle := h.resumeBounded
    show s.watcher.lastRevision ≤ s.revision + 1
    omega
  · have hle := h.revisionNonneg
    show 0 ≤ s.revision + 1
    omega
  · intro startRevision hmem
    have hold := h.streaming startRevision hmem
    refine ⟨?_, ?_, ?_, ?_⟩
    · have hle := hold.bounded
      show startRevision ≤ s.revision + 1 + 1
      omega
    · intro e he hlow hlt
      rcases List.mem_append.1 he with he | he
      · exact hold.before e he hlow hlt
      · have hle := hold.bounded
        rw [hnew e he] at hlt
        omega
    · rw [OrderedLog.entriesFrom_append, List.length_append]
      exact Nat.le_add_right_of_le hold.sent_le
    · intro e he
      rw [OrderedLog.entriesFrom_append, List.take_append_of_le_length hold.sent_le] at he
      exact hold.sent e he

/-- What a response that the server can send looks like. -/
theorem trunk_spec {s : WatchSystem} {revision : Int} {answer : WatchAnswer} {trunk : WatchTrunk}
    (h : s.trunk revision answer = some trunk) :
    ∃ startRevision, s.watcher.watchStart = some startRevision ∧ 0 < revision ∧
      revision ≤ s.revision ∧ trunk.header = some { revision } ∧
      trunk.response.snapshot = false ∧ trunk.response.events <+: s.pending startRevision := by
  unfold WatchSystem.trunk at h
  split at h
  · cases h
  · next startRevision hstart =>
    simp only at h
    split at h
    · cases h
    · next hok =>
      have hpos : 0 < revision := by omega
      have hle : revision ≤ s.revision := by omega
      cases answer with
      | created =>
          simp only at h
          split at h <;> cases h
          exact ⟨startRevision, hstart, hpos, hle, rfl, rfl, List.nil_prefix⟩
      | events count =>
          simp only at h
          split at h <;> cases h
          exact ⟨startRevision, hstart, hpos, hle, rfl, rfl, List.take_prefix _ _⟩
      | progress =>
          simp only at h
          split at h <;> cases h
          exact ⟨startRevision, hstart, hpos, hle, rfl, rfl, List.nil_prefix⟩
      | canceled =>
          simp only at h
          split at h <;> cases h
          exact ⟨startRevision, hstart, hpos, hle, rfl, rfl, List.nil_prefix⟩

/-- A response whose header is not ahead keeps the invariant. -/
theorem Resuming.respond {s : WatchSystem} (h : Resuming s) {revision : Int} {answer : WatchAnswer}
    {trunk : WatchTrunk} (htrunk : s.trunk revision answer = some trunk)
    (hahead : s.HeaderNotAhead (.respond revision answer)) : Resuming (s.respond trunk) := by
  obtain ⟨startRevision, hstart, hpos, hle, hheader, hsnapshot, hread⟩ := trunk_spec htrunk
  obtain ⟨hhanded, hrpc, hhandle, hlast⟩ :=
    EtcdWatcher.onTrunk_spec h.evtHandle hheader hsnapshot hpos
  have hold := h.streaming startRevision hstart
  have hevents : trunk.response.events =
      (s.pending startRevision).take trunk.response.events.length :=
    List.prefix_iff_eq_take.1 hread
  have hsend : ∀ e ∈ trunk.response.events, e ∈ s.log := by
    intro e he
    exact (OrderedLog.mem_entriesFrom.1 (List.mem_of_mem_drop (hread.subset he))).1
  -- The events from the start on: those sent before, those of this response, and the rest.
  have hsent : (OrderedLog.entriesFrom WatchEvent.revision s.log startRevision).take
      (s.sent + trunk.response.events.length) =
        (OrderedLog.entriesFrom WatchEvent.revision s.log startRevision).take s.sent ++
          trunk.response.events := by
    rw [List.take_add]
    exact congrArg _ hevents.symm
  have hstart' : (s.respond trunk).watcher.watchStart = some startRevision := by
    rw [← hstart]
    show (s.watcher.onTrunk trunk).rpcOpr.bind _ = s.watcher.rpcOpr.bind _
    rw [hrpc]
  refine {
    upTo := ?_, inOrder := ?_, evtHandle := hhandle, sorted := h.sorted, bounded := h.bounded,
    handedBounded := ?_, resumeBounded := ?_, snapshotNonneg := ?_,
    revisionNonneg := h.revisionNonneg, idle := ?_, streaming := ?_ }
  · show OrderedLog.DeliveredUpTo _ s.log (s.watcher.onTrunk trunk).handed.2
      (s.watcher.onTrunk trunk).handed.1 (s.watcher.onTrunk trunk).lastRevision
    rw [hhanded, hlast]
    intro e he hlow htop
    split at htop
    · have hnonneg := h.snapshotNonneg
      simp only at hlow
      omega
    · next hrestart =>
      have hrest := (hahead trunk htrunk startRevision hstart).resolve_left hrestart
      by_cases hbelow : e.revision < startRevision
      · exact List.mem_append_left _ (hold.before e he hlow hbelow)
      · have hmem := OrderedLog.mem_entriesFrom.2 ⟨he, not_lt.1 hbelow⟩
        rw [← List.take_append_drop (s.sent + trunk.response.events.length)
          (OrderedLog.entriesFrom WatchEvent.revision s.log startRevision), hsent,
          ← List.drop_drop] at hmem
        rcases List.mem_append.1 hmem with hmem | hmem
        · rcases List.mem_append.1 hmem with hmem | hmem
          · exact List.mem_append_left _ (hold.sent e hmem)
          · exact List.mem_append_right _ hmem
        · exact absurd htop (not_le.2 (hrest e hmem))
  · show OrderedLog.InOrder _ s.log (s.watcher.onTrunk trunk).handed.2
      (s.watcher.onTrunk trunk).handed.1
    rw [hhanded, hevents]
    exact h.inOrder.append_next h.sorted hold.before hold.sent _
  · show ∀ e ∈ (s.watcher.onTrunk trunk).handed.2, e.revision ≤ s.revision
    rw [hhanded]
    intro e he
    rcases List.mem_append.1 he with he | he
    · exact h.handedBounded e he
    · exact h.bounded e (hsend e he)
  · show (s.watcher.onTrunk trunk).lastRevision ≤ s.revision
    rw [hlast]
    split
    · exact h.revisionNonneg
    · exact hle
  · show 0 ≤ (s.watcher.onTrunk trunk).handed.1
    rw [hhanded]
    exact h.snapshotNonneg
  · intro hnone
    rw [hstart'] at hnone
    cases hnone
  · intro start hmem
    rw [hstart'] at hmem
    cases hmem
    refine ⟨hold.bounded, ?_, ?_, ?_⟩
    · show ∀ e ∈ s.log, (s.watcher.onTrunk trunk).handed.1 < e.revision →
        e.revision < startRevision → e ∈ (s.watcher.onTrunk trunk).handed.2
      rw [hhanded]
      intro e he hlow hlt
      exact List.mem_append_left _ (hold.before e he hlow hlt)
    · have hlen := hread.length_le
      rw [pending, List.length_drop] at hlen
      have hsentLe := hold.sent_le
      show s.sent + trunk.response.events.length ≤
        (OrderedLog.entriesFrom WatchEvent.revision s.log startRevision).length
      omega
    · show ∀ e ∈ (OrderedLog.entriesFrom WatchEvent.revision s.log startRevision).take
          (s.sent + trunk.response.events.length), e ∈ (s.watcher.onTrunk trunk).handed.2
      rw [hsent, hhanded]
      intro e he
      rcases List.mem_append.1 he with he | he
      · exact List.mem_append_left _ (hold.sent e he)
      · exact List.mem_append_right _ he

/-- **One step keeps the invariant**, when a response that it handles is not ahead. -/
theorem Resuming.next {s : WatchSystem} (h : Resuming s) {i : WatchStep}
    (hahead : s.HeaderNotAhead i) {s' : WatchSystem} (hnext : s.next i = some s') :
    Resuming s' := by
  have hidle : s.watcher.isRanging = true → s.watcher.watchStart = none := by
    unfold EtcdWatcher.isRanging EtcdWatcher.watchStart
    split <;> simp_all [WatcherRequest.startRevision?]
  cases i with
  | commit events =>
      cases hnext
      exact h.commit events
  | compact revision =>
      simp only [WatchSystem.next] at hnext
      split at hnext <;> cases hnext
      · exact ⟨⟨h.upTo, h.inOrder⟩, h.evtHandle, h.sorted, h.bounded, h.handedBounded, h.resumeBounded,
          h.snapshotNonneg, h.revisionNonneg, h.idle,
          fun start hmem => ⟨(h.streaming start hmem).bounded, (h.streaming start hmem).before,
            (h.streaming start hmem).sent_le, (h.streaming start hmem).sent⟩⟩
      · exact h
  | active now outcome =>
      obtain ⟨watcher, hactive, rfl⟩ := Option.map_eq_some_iff.1 hnext
      exact h.started (EtcdWatcher.started_active hactive)
  | rangeFailed now =>
      simp only [WatchSystem.next] at hnext
      split at hnext <;> cases hnext
      · next hranging =>
        exact h.stopped ⟨rfl, rfl, rfl, rfl⟩ (h.idle (hidle hranging))
      · exact h
  | rangeDone now outcome revision =>
      simp only [WatchSystem.next] at hnext
      split at hnext
      · next hok =>
        obtain ⟨hranging, hpos, hle⟩ := hok
        have hsent := h.idle (hidle hranging)
        obtain ⟨watcher, hanswer, rfl⟩ := Option.map_eq_some_iff.1 hnext
        split at hanswer
        · obtain ⟨stopped, hstop, hstart⟩ := EtcdWatcher.onRetryAnswer_spec hanswer
          exact (h.stopped hstop hsent).started hstart
        · obtain ⟨stopped, hlast, hhanded, hhandle, hnone, hstart⟩ :=
            EtcdWatcher.onRangeAnswer_spec h.evtHandle hpos hanswer
          exact (h.snapshot hlast hhanded hhandle hnone hpos hle hsent).started hstart
      · cases hnext
        exact h
  | respond revision answer =>
      simp only [WatchSystem.next] at hnext
      split at hnext <;> cases hnext
      · exact h
      · next trunk htrunk => exact h.respond htrunk hahead
  | watchDone now outcome result =>
      simp only [WatchSystem.next] at hnext
      split at hnext
      · obtain ⟨watcher, hanswer, rfl⟩ := Option.map_eq_some_iff.1 hnext
        obtain ⟨stopped, hstop, hstart⟩ := EtcdWatcher.onWatchCompleted_spec hanswer
        exact (h.stopped hstop rfl).started hstart
      · cases hnext
        exact h

/-! ## Runs -/

/-- A property of the states in which the watcher has not crashed. -/
def IfRunning (prop : WatchSystem → Prop) (st : Option WatchSystem) : Prop := ∀ s ∈ st, prop s

/-- The start of a run: a new watcher with an event handler and a server with an empty log. -/
def initial (path rangeEnd : Bytes) (startupRandomDelayMin : Int) : WatchSystem :=
  { watcher := { path, rangeEnd, startupRandomDelayMin } }

theorem resuming_initial (path rangeEnd : Bytes) (startupRandomDelayMin : Int) :
    Resuming (initial path rangeEnd startupRandomDelayMin) where
  upTo := by intro e he; cases he
  inOrder := OrderedLog.inOrder_nil
  evtHandle := rfl
  sorted := List.Pairwise.nil
  bounded := by intro e he; cases he
  handedBounded := by intro e he; cases he
  resumeBounded := le_refl (0 : Int)
  snapshotNonneg := le_refl (0 : Int)
  revisionNonneg := le_refl (0 : Int)
  idle := fun _ => rfl
  streaming := by intro startRevision hmem; cases hmem

/-- A step of a header that is not ahead, in a system that may have crashed. -/
def StepNotAhead (st : Option WatchSystem) (i : WatchStep) : Prop :=
  IfRunning (fun s => s.HeaderNotAhead i) st

/-- **No event is skipped in a run in which no response header is ahead of the events that the
    watch has still to send.** -/
theorem always_noSkip (path rangeEnd : Bytes) (startupRandomDelayMin : Int)
    (steps : List WatchStep)
    (h : Run.StepsMeet step StepNotAhead (some (initial path rangeEnd startupRandomDelayMin))
      steps) :
    Run.Always step (IfRunning NoSkip) (some (initial path rangeEnd startupRandomDelayMin))
      steps := by
  have hstep : ∀ st i, IfRunning Resuming st → StepNotAhead st i → IfRunning Resuming (step st i) := by
    intro st i hst hahead s' hs'
    obtain ⟨s, hs, hnext⟩ := Option.bind_eq_some_iff.1 hs'
    exact (hst s hs).next (hahead s hs) hnext
  have hinit : IfRunning Resuming (some (initial path rangeEnd startupRandomDelayMin)) := by
    intro s hs
    cases hs
    exact resuming_initial path rangeEnd startupRandomDelayMin
  have hrun := Run.always_of_stepsMeet step hstep hinit h
  exact hrun.mono step (fun st hst s hs => (hst s hs).toNoSkip)

instance (st : Option WatchSystem) (i : WatchStep) : Decidable (StepNotAhead st i) :=
  inferInstanceAs (Decidable (∀ s ∈ st, s.HeaderNotAhead i))

/-- A put of a key. -/
def putEvent (key : Bytes) : WatchEvent := { kv := { key } }

/-- A connection breaks after all that the header announced has arrived. -/
def orderlySteps : List WatchStep :=
  [.commit [putEvent (ascii "/a")], .active 1 .started, .rangeDone 1 .started 1,
   .respond 1 .created, .commit [putEvent (ascii "/b")], .respond 2 (.events 1),
   .watchDone 1 .started ⟨28, true⟩, .rangeDone 1 .started 2, .commit [putEvent (ascii "/c")],
   .respond 2 .created, .respond 3 (.events 1)]

theorem always_noSkip_orderly :
    Run.Always step (IfRunning NoSkip) (some (initial [] [] 0)) orderlySteps :=
  always_noSkip [] [] 0 orderlySteps (by decide +kernel)

/-- A connection breaks between a header and the event it is ahead of. -/
def brokenSteps : List WatchStep :=
  [.commit [putEvent (ascii "/a")], .active 1 .started, .rangeDone 1 .started 1,
   .commit [putEvent (ascii "/b")], .respond 2 .created, .watchDone 1 .started ⟨28, true⟩,
   .rangeDone 1 .started 2, .commit [putEvent (ascii "/c")], .respond 3 .created,
   .respond 3 (.events 1)]

/-- The created response with revision 2 moves the resume point past the event of revision 2; the
    connection breaks before the event, and the next watch starts at revision 3. -/
theorem brokenSteps_skips :
    ¬ ∀ (path rangeEnd : Bytes) (startupRandomDelayMin : Int) (steps : List WatchStep),
      Run.Always step (IfRunning NoSkip) (some (initial path rangeEnd startupRandomDelayMin))
        steps := by
  intro h
  have hend := (h [] [] 0 brokenSteps).last
  have hrun : (Run.run step (some (initial [] [] 0)) brokenSteps).map
      (fun s => (s.watcher.handed, s.log)) =
        some ((1, [(putEvent (ascii "/c")).commitAt 3]), [(putEvent (ascii "/a")).commitAt 1,
          (putEvent (ascii "/b")).commitAt 2, (putEvent (ascii "/c")).commitAt 3]) := by
    decide +kernel
  obtain ⟨s, hs, heq⟩ := Option.map_eq_some_iff.1 hrun
  obtain ⟨hhanded, hlog⟩ := Prod.mk.inj heq
  have horder := (hend s hs).inOrder
  rw [hhanded, hlog] at horder
  have hskip := horder [] _ [] rfl ((putEvent (ascii "/b")).commitAt 2) (by simp) (by decide)
    (by decide)
  cases hskip

end WatchSystem

end LibAtapp
