import LibAtapp.Etcdcli.WatchResume
import LibAtapp.Library.LogReplica

set_option autoImplicit false

/-! # The replica of an event handler

An event handler that starts over at each snapshot and applies each event keeps a replica of the keys
of the range. The watcher may hand it an event again after it reconnects, and a snapshot may be older
than what the handler already knows. In every run in which no header is ahead of the events that the
watch has still to send, the replica is right on every key without a change above `last_revision`, and
it is the store of the server whenever the watch has nothing more to send. -/

namespace LibAtapp

open LogReplica (Store RightExcept replay storeOf)

namespace WatchEvent

/-- The key that an event changes. -/
def key (event : WatchEvent) : Bytes := event.kv.key

/-- What the key has after the event. -/
def value (event : WatchEvent) : Option EtcdKeyValue :=
  match event.evtType with
  | .put => some event.kv
  | .delete => none

end WatchEvent

/-- The replica of a handler after one more effect. -/
def WatcherEffect.applyTo (replica : Store Bytes EtcdKeyValue) :
    WatcherEffect → Store Bytes EtcdKeyValue
  | .evtHandle _ response =>
    replay WatchEvent.key WatchEvent.value (if response.snapshot then fun _ => none else replica)
      response.events
  | _ => replica

/-- The replica of a handler after everything that was handed to it. -/
def EtcdWatcher.replica (self : EtcdWatcher) : Store Bytes EtcdKeyValue :=
  self.effects.foldl WatcherEffect.applyTo fun _ => none

namespace WatchSystem

/-- The values of the keys at the server. -/
def store (s : WatchSystem) : Store Bytes EtcdKeyValue :=
  storeOf WatchEvent.key WatchEvent.value s.log

/-- The replica is right on every key whose changes are all at most at `last_revision`, and on every
    key when the watch in flight has sent all its events. -/
structure Replicates (s : WatchSystem) : Prop where
  settled : ∀ k, (∀ e ∈ s.log, e.key = k → e.revision ≤ s.watcher.lastRevision) →
    s.watcher.replica k = s.store k
  drained : ∀ startRevision ∈ s.watcher.watchStart, s.pending startRevision = [] →
    s.watcher.replica = s.store

end WatchSystem

/-! ## What the functions of the watcher hand over -/

namespace EtcdWatcher

variable {self after : EtcdWatcher} {now : Int} {outcome : StartOutcome}

theorem effects_process (h : self.process now outcome = some after) :
    after.effects = self.effects := by
  have hrequest : ∀ (watcher : EtcdWatcher) (request : WatcherRequest),
      (watcher.startRequest now request outcome).effects = watcher.effects := by
    intro watcher request
    cases outcome <;> rfl
  unfold process at h
  split at h
  · cases h
    rfl
  · simp only at h
    split at h
    · cases h
      rfl
    · split at h
      · cases h
      · split at h
        · cases h
          exact hrequest _ _
        · cases h
          exact hrequest _ _

theorem effects_active (h : self.active now outcome = some after) :
    after.effects = self.effects := by
  have heffects := effects_process h
  exact heffects

theorem replica_of_effects (h : after.effects = self.effects) : after.replica = self.replica := by
  simp [replica, h]

theorem effects_onRetryAnswer (h : self.onRetryAnswer now outcome = some after) :
    after.effects = self.effects := by
  unfold onRetryAnswer at h
  have heffects := effects_active h
  exact heffects

theorem effects_onWatchCompleted {result : HttpResult}
    (h : self.onWatchCompleted now outcome result = some after) :
    after.effects = self.effects := by
  simp only [onWatchCompleted] at h
  split at h
  · split at h
    · have heffects := effects_active h
      exact heffects
    · have heffects := effects_active h
      exact heffects
  · have heffects := effects_active h
    exact heffects

/-- A range answer hands over a snapshot. -/
theorem effects_onRangeAnswer {revision : Int} {events : List WatchEvent}
    (hhandle : self.evtHandle = true) (hpos : 0 < revision)
    (h : self.onRangeAnswer now outcome ⟨some { revision }, events⟩ = some after) :
    after.effects = self.effects ++ [.evtHandle { revision } { snapshot := true, events }] := by
  simp only [onRangeAnswer, Option.getD_some, hpos.ne', if_false, trigger, hhandle, if_true] at h
  have heffects := effects_active h
  exact heffects

/-- A response of the watch is handed over; a canceled request is stopped. -/
theorem effects_onTrunk {trunk : WatchTrunk} (hhandle : self.evtHandle = true) :
    (self.onTrunk trunk).effects = self.effects ++
      .evtHandle (trunk.header.getD {}) trunk.response ::
        if trunk.response.canceled then [.stop] else [] := by
  by_cases hrevision : (trunk.header.getD {}).revision = 0
  · by_cases hcanceled : trunk.response.canceled = true
    · simp [onTrunk, trigger, hhandle, hrevision, hcanceled]
    · simp [onTrunk, trigger, hhandle, hrevision, hcanceled]
  · by_cases hcanceled : trunk.response.canceled = true
    · simp [onTrunk, trigger, hhandle, hrevision, hcanceled]
    · simp [onTrunk, trigger, hhandle, hrevision, hcanceled]

/-- The events of a watch response are applied. -/
theorem replica_onTrunk {trunk : WatchTrunk} (hhandle : self.evtHandle = true)
    (hsnapshot : trunk.response.snapshot = false) :
    (self.onTrunk trunk).replica
      = replay WatchEvent.key WatchEvent.value self.replica trunk.response.events := by
  by_cases hcanceled : trunk.response.canceled = true
  · simp [replica, effects_onTrunk hhandle, hcanceled, hsnapshot, WatcherEffect.applyTo]
  · simp [replica, effects_onTrunk hhandle, hcanceled, hsnapshot, WatcherEffect.applyTo]

/-- A watch request in flight goes on from a revision that is set. -/
def Resumes (self : EtcdWatcher) : Prop :=
  ∀ startRevision ∈ self.watchStart,
    startRevision = self.lastRevision + 1 ∧ self.lastRevision ≠ 0

theorem resumes_of_idle (h : self.watchStart = none) : self.Resumes := by
  intro startRevision hmem
  rw [h] at hmem
  cases hmem

theorem resumes_process (hidle : self.watchStart = none)
    (h : self.process now outcome = some after) : after.Resumes := by
  unfold process at h
  split at h
  · cases h
    exact resumes_of_idle hidle
  · next hrpc =>
    have hnone : self.rpcOpr = none := by simpa using hrpc
    simp only at h
    split at h
    · cases h
      exact resumes_of_idle hidle
    · split at h
      · cases h
      · split at h
        · cases h
          refine resumes_of_idle ?_
          cases outcome <;> simp [startRequest, watchStart, hnone, WatcherRequest.startRevision?]
        · next hlast =>
          cases h
          intro startRevision hmem
          cases outcome <;>
            simp [startRequest, watchStart, hnone, WatcherRequest.startRevision?] at hmem
          exact ⟨hmem.symm, fun hzero => hlast (Or.inl hzero)⟩

theorem resumes_active (hidle : self.watchStart = none)
    (h : self.active now outcome = some after) : after.Resumes := by
  unfold active at h
  refine resumes_process ?_ h
  exact hidle

theorem resumes_onRetryAnswer (h : self.onRetryAnswer now outcome = some after) :
    after.Resumes := by
  unfold onRetryAnswer at h
  exact resumes_active rfl h

theorem resumes_onWatchCompleted {result : HttpResult}
    (h : self.onWatchCompleted now outcome result = some after) : after.Resumes := by
  simp only [onWatchCompleted] at h
  split at h
  · split at h
    · exact resumes_active rfl h
    · exact resumes_active rfl h
  · exact resumes_active rfl h

theorem resumes_onRangeAnswer {answer : RangeAnswer}
    (h : self.onRangeAnswer now outcome answer = some after) : after.Resumes := by
  have htrigger : ∀ (watcher : EtcdWatcher) header response, watcher.watchStart = none →
      (watcher.trigger header response).watchStart = none := by
    intro watcher header response hnone
    unfold trigger
    split <;> exact hnone
  unfold onRangeAnswer at h
  simp only at h
  split at h
  · exact resumes_active rfl h
  · refine resumes_active ?_ h
    exact htrigger _ _ _ rfl

end EtcdWatcher

/-! ## Snapshots -/

/-- Without the entries of a key the key has no value, and the others are as before. -/
theorem replay_filter_ne (store : Store Bytes EtcdKeyValue) (key : Bytes)
    (kvs : List EtcdKeyValue) (hstore : store key = none) :
    replay EtcdKeyValue.key some store (kvs.filter fun kv => kv.key ≠ key)
      = Function.update (replay EtcdKeyValue.key some store kvs) key none := by
  funext k
  by_cases hk : k = key
  · subst hk
    rw [Function.update_self, LogReplica.replay_of_absent, hstore]
    intro kv hkv
    simpa using (List.mem_filter.1 hkv).2
  · rw [Function.update_of_ne hk]
    induction kvs generalizing store with
    | nil => rfl
    | cons kv kvs ih =>
      by_cases hkey : kv.key = key
      · rw [List.filter_cons_of_neg (by simpa using hkey), LogReplica.replay_cons, ih store hstore]
        refine LogReplica.replay_congr ?_ kvs
        exact (LogReplica.apply_of_ne fun heq : kv.key = k => hk (heq.symm.trans hkey)).symm
      · rw [List.filter_cons_of_pos (by simpa using hkey), LogReplica.replay_cons,
          LogReplica.replay_cons]
        refine ih _ ?_
        rw [LogReplica.apply_of_ne hkey, hstore]

/-- The keys and values of a range answer are those of the log up to its revision. -/
theorem replay_storeAt (log : List WatchEvent) (revision : Int) :
    replay EtcdKeyValue.key some (fun _ => none) (storeAt log revision)
      = storeOf WatchEvent.key WatchEvent.value (log.filter fun e => e.revision ≤ revision) := by
  unfold storeAt storeOf
  generalize log.filter (fun e => decide (e.revision ≤ revision)) = events
  -- the list that the fold builds replays to the store that the events build
  have hfold : ∀ (events : List WatchEvent) (kvs : List EtcdKeyValue)
      (store : Store Bytes EtcdKeyValue),
      replay EtcdKeyValue.key some (fun _ => none) kvs = store →
      replay EtcdKeyValue.key some (fun _ => none) (events.foldl (fun kvs e =>
          let others := kvs.filter (fun kv => kv.key ≠ e.kv.key)
          match e.evtType with
          | .put => others ++ [e.kv]
          | .delete => others) kvs)
        = replay WatchEvent.key WatchEvent.value store events := by
    intro events
    induction events with
    | nil => exact fun kvs store h => h
    | cons e events ih =>
      intro kvs store h
      rw [List.foldl_cons, LogReplica.replay_cons]
      refine ih _ _ ?_
      have hothers := replay_filter_ne (fun _ => none) e.kv.key kvs rfl
      rw [h] at hothers
      cases htype : e.evtType with
      | put =>
        simp only []
        rw [LogReplica.replay_append, hothers]
        simp [LogReplica.apply, WatchEvent.key, WatchEvent.value, htype]
      | delete =>
        simp only []
        rw [hothers]
        simp [LogReplica.apply, WatchEvent.key, WatchEvent.value, htype]
  exact hfold events [] _ rfl

/-- A snapshot is replayed to the keys and values of the log up to its revision. -/
theorem replay_snapshot (log : List WatchEvent) (revision : Int) :
    replay WatchEvent.key WatchEvent.value (fun _ => none)
        ((storeAt log revision).map fun kv => { kv })
      = storeOf WatchEvent.key WatchEvent.value (log.filter fun e => e.revision ≤ revision) := by
  rw [← replay_storeAt]
  unfold replay
  rw [List.foldl_map]
  rfl

namespace WatchSystem

/-! ## What a step changes -/

/-- Nothing is committed or handed over, and a watch in flight is the one before or a new one. -/
structure Quiet (s s' : WatchSystem) : Prop where
  log : s'.log = s.log
  effects : s'.watcher.effects = s.watcher.effects
  lastRevision : s'.watcher.lastRevision = s.watcher.lastRevision
  watch : s'.watcher.watchStart = s.watcher.watchStart ∧ s'.canceled = s.canceled ∧
      s'.sent = s.sent ∨ s'.watcher.Resumes ∧ s'.sent = 0

/-- A range answer is handed over. -/
structure Snapshot (s : WatchSystem) (revision : Int) (watcher : EtcdWatcher) : Prop where
  lastRevision : watcher.lastRevision = revision
  effects : watcher.effects = s.watcher.effects ++ [.evtHandle { revision }
    { snapshot := true, events := (storeAt s.log revision).map fun kv => { kv } }]
  resumes : watcher.Resumes
  sent : s.sent = 0

theorem Snapshot.replica {s : WatchSystem} {revision : Int} {watcher : EtcdWatcher}
    (h : Snapshot s revision watcher) :
    watcher.replica = replay WatchEvent.key WatchEvent.value (fun _ => none)
      ((storeAt s.log revision).map fun kv => { kv }) := by
  simp [EtcdWatcher.replica, h.effects, WatcherEffect.applyTo]

/-- What one step changes. -/
inductive Change (s : WatchSystem) : WatchStep → WatchSystem → Prop
  | commit (events : List WatchEvent) : Change s (.commit events)
      { s with revision := s.revision + 1
               log := s.log ++ events.map (WatchEvent.commitAt (s.revision + 1)) }
  | quiet {i : WatchStep} {s' : WatchSystem} (h : Quiet s s') : Change s i s'
  | snapshot {now : Int} {outcome : StartOutcome} {revision : Int} {watcher : EtcdWatcher}
      (ranging : s.watcher.isRanging = true) (retry : s.watcher.isRetryMode = false)
      (h : Snapshot s revision watcher) :
      Change s (.rangeDone now outcome revision) { s with watcher }
  | respond {revision : Int} {answer : WatchAnswer} {trunk : WatchTrunk}
      (h : s.trunk revision answer = some trunk) :
      Change s (.respond revision answer) (s.respond trunk)

theorem Quiet.refl (s : WatchSystem) : Quiet s s := ⟨rfl, rfl, rfl, Or.inl ⟨rfl, rfl, rfl⟩⟩

/-- **Every step is one of these changes.** -/
theorem change_of_next {s : WatchSystem} (h : Resuming s) {i : WatchStep} {s' : WatchSystem}
    (hnext : s.next i = some s') : Change s i s' := by
  have hidle : s.watcher.isRanging = true → s.sent = 0 := by
    intro hranging
    refine h.idle ?_
    unfold EtcdWatcher.isRanging at hranging
    unfold EtcdWatcher.watchStart
    split at hranging <;> simp_all [WatcherRequest.startRevision?]
  cases i with
  | commit events =>
    cases hnext
    exact .commit events
  | compact revision =>
    simp only [WatchSystem.next] at hnext
    split at hnext <;> cases hnext
    · exact .quiet ⟨rfl, rfl, rfl, Or.inl ⟨rfl, rfl, rfl⟩⟩
    · exact .quiet (Quiet.refl s)
  | active now outcome =>
    obtain ⟨watcher, hactive, rfl⟩ := Option.map_eq_some_iff.1 hnext
    have hstarted := EtcdWatcher.started_active hactive
    refine .quiet ⟨rfl, EtcdWatcher.effects_active hactive, hstarted.lastRevision, ?_⟩
    rcases hstarted.start with hsame | ⟨hnone, -⟩
    · exact Or.inl ⟨hsame, rfl, rfl⟩
    · exact Or.inr ⟨EtcdWatcher.resumes_active hnone hactive, h.idle hnone⟩
  | rangeFailed now =>
    simp only [WatchSystem.next] at hnext
    split at hnext <;> cases hnext
    · next hranging =>
      exact .quiet ⟨rfl, rfl, rfl, Or.inr ⟨EtcdWatcher.resumes_of_idle rfl, hidle hranging⟩⟩
    · exact .quiet (Quiet.refl s)
  | rangeDone now outcome revision =>
    simp only [WatchSystem.next] at hnext
    split at hnext
    · next hok =>
      obtain ⟨hranging, hpos, hle⟩ := hok
      obtain ⟨watcher, hanswer, rfl⟩ := Option.map_eq_some_iff.1 hnext
      split at hanswer
      · obtain ⟨stopped, hstop, hstart⟩ := EtcdWatcher.onRetryAnswer_spec hanswer
        exact .quiet ⟨rfl, EtcdWatcher.effects_onRetryAnswer hanswer,
          hstart.lastRevision.trans hstop.lastRevision,
          Or.inr ⟨EtcdWatcher.resumes_onRetryAnswer hanswer, hidle hranging⟩⟩
      · next hretry =>
        obtain ⟨stopped, hlast, -, -, -, hstart⟩ :=
          EtcdWatcher.onRangeAnswer_spec h.evtHandle hpos hanswer
        exact .snapshot hranging (by simpa using hretry) ⟨hstart.lastRevision.trans hlast,
          EtcdWatcher.effects_onRangeAnswer h.evtHandle hpos hanswer,
          EtcdWatcher.resumes_onRangeAnswer hanswer, hidle hranging⟩
    · cases hnext
      exact .quiet (Quiet.refl s)
  | respond revision answer =>
    simp only [WatchSystem.next] at hnext
    split at hnext <;> cases hnext
    · exact .quiet (Quiet.refl s)
    · next trunk htrunk => exact .respond htrunk
  | watchDone now outcome result =>
    simp only [WatchSystem.next] at hnext
    split at hnext
    · obtain ⟨watcher, hanswer, rfl⟩ := Option.map_eq_some_iff.1 hnext
      obtain ⟨stopped, hstop, hstart⟩ := EtcdWatcher.onWatchCompleted_spec hanswer
      exact .quiet ⟨rfl, EtcdWatcher.effects_onWatchCompleted hanswer,
        hstart.lastRevision.trans hstop.lastRevision,
        Or.inr ⟨EtcdWatcher.resumes_onWatchCompleted hanswer, rfl⟩⟩
    · cases hnext
      exact .quiet (Quiet.refl s)

/-! ## The invariant -/

/-- What the runs keep for the replica. -/
structure Replicating (s : WatchSystem) : Prop extends Resuming s where
  positive : ∀ e ∈ s.log, 0 < e.revision
  right : RightExcept WatchEvent.key WatchEvent.value s.log s.watcher.replica
    (OrderedLog.entriesFrom WatchEvent.revision s.log (s.watcher.lastRevision + 1))
  rightPending : ∀ startRevision ∈ s.watcher.watchStart,
    RightExcept WatchEvent.key WatchEvent.value s.log s.watcher.replica (s.pending startRevision)

theorem Replicating.replicates {s : WatchSystem} (h : Replicating s) : Replicates s where
  settled := by
    intro k hk
    refine h.right k ?_
    intro e he heq
    obtain ⟨hmem, hle⟩ := OrderedLog.mem_entriesFrom.1 he
    have htop := hk e hmem heq
    omega
  drained := by
    intro startRevision hstart hnil
    have hright := h.rightPending startRevision hstart
    rw [hnil] at hright
    exact hright.eq_storeOf

/-- Nothing is handed over: what was right is still right, and a new watch has nothing sent. -/
theorem Replicating.quiet {s s' : WatchSystem} (h : Replicating s) (hresuming : Resuming s')
    (hquiet : Quiet s s') : Replicating s' := by
  have hreplica := EtcdWatcher.replica_of_effects hquiet.effects
  refine { toResuming := hresuming, positive := ?_, right := ?_, rightPending := ?_ }
  · rw [hquiet.log]
    exact h.positive
  · rw [hquiet.log, hreplica, hquiet.lastRevision]
    exact h.right
  · intro startRevision hmem
    rw [hquiet.log, hreplica]
    rcases hquiet.watch with ⟨hsame, -, hsent⟩ | ⟨hresumes, hsent⟩
    · simp only [pending, hquiet.log, hsent]
      exact h.rightPending startRevision (hsame ▸ hmem)
    · obtain ⟨rfl, -⟩ := hresumes startRevision hmem
      simp only [pending, hquiet.log, hsent, hquiet.lastRevision, List.drop_zero]
      exact h.right

/-- What a transaction changes is missing. -/
theorem Replicating.commit {s : WatchSystem} (h : Replicating s) (events : List WatchEvent) :
    Replicating { s with revision := s.revision + 1
                         log := s.log ++ events.map (WatchEvent.commitAt (s.revision + 1)) } := by
  have hnew : ∀ e ∈ events.map (WatchEvent.commitAt (s.revision + 1)),
      e.revision = s.revision + 1 := by
    intro e he
    obtain ⟨event, -, rfl⟩ := List.mem_map.1 he
    rfl
  have hfrom : ∀ startRevision ≤ s.revision + 1,
      OrderedLog.entriesFrom WatchEvent.revision
        (events.map (WatchEvent.commitAt (s.revision + 1))) startRevision
        = events.map (WatchEvent.commitAt (s.revision + 1)) := by
    intro startRevision hle
    rw [OrderedLog.entriesFrom, List.filter_eq_self]
    intro e he
    rw [hnew e he]
    simpa using hle
  refine { toResuming := h.toResuming.commit events, positive := ?_, right := ?_,
           rightPending := ?_ }
  · intro e he
    rcases List.mem_append.1 he with he | he
    · exact h.positive e he
    · have hnonneg := h.revisionNonneg
      rw [hnew e he]
      omega
  · have hle := h.resumeBounded
    show RightExcept _ _ (s.log ++ _) s.watcher.replica
      (OrderedLog.entriesFrom WatchEvent.revision (s.log ++ _) (s.watcher.lastRevision + 1))
    rw [OrderedLog.entriesFrom_append, hfrom _ (by omega)]
    exact h.right.append_log _
  · intro startRevision hmem
    have hold := h.streaming startRevision hmem
    have hpending : ({ s with
        revision := s.revision + 1
        log := s.log ++ events.map (WatchEvent.commitAt (s.revision + 1)) } :
          WatchSystem).pending startRevision
        = s.pending startRevision ++ events.map (WatchEvent.commitAt (s.revision + 1)) := by
      simp only [pending]
      rw [OrderedLog.entriesFrom_append, hfrom _ hold.bounded,
        List.drop_append_of_le_length hold.sent_le]
    rw [hpending]
    exact (h.rightPending startRevision hmem).append_log _

/-- A snapshot is right up to its revision. -/
theorem rightExcept_snapshot {log : List WatchEvent}
    (hsorted : OrderedLog.Sorted WatchEvent.revision log) (revision : Int) :
    RightExcept WatchEvent.key WatchEvent.value log
      (replay WatchEvent.key WatchEvent.value (fun _ => none)
        ((storeAt log revision).map fun kv => { kv }))
      (OrderedLog.entriesFrom WatchEvent.revision log (revision + 1)) := by
  have hfilter : log.filter (fun e => decide (e.revision ≤ revision))
      = log.filter (fun e => decide (e.revision < revision + 1)) := by
    refine List.filter_congr fun e _ => ?_
    rw [decide_eq_decide]
    omega
  have hfront : RightExcept WatchEvent.key WatchEvent.value log
      (storeOf WatchEvent.key WatchEvent.value (log.filter fun e => e.revision < revision + 1))
      (OrderedLog.entriesFrom WatchEvent.revision log (revision + 1)) := by
    have hfront : ∀ front rest : List WatchEvent,
        RightExcept WatchEvent.key WatchEvent.value (front ++ rest)
          (storeOf WatchEvent.key WatchEvent.value front) rest :=
      LogReplica.rightExcept_front
    have hsplit := LogReplica.filter_lt_append_entriesFrom hsorted (revision + 1)
    have hfrom := hfront (log.filter fun e => e.revision < revision + 1)
      (OrderedLog.entriesFrom WatchEvent.revision log (revision + 1))
    rwa [hsplit] at hfrom
  rw [replay_snapshot, hfilter]
  exact hfront

/-- A snapshot starts the replica over. -/
theorem Replicating.snapshot {s : WatchSystem} (h : Replicating s) {watcher : EtcdWatcher}
    {revision : Int} (hresuming : Resuming { s with watcher })
    (hsnapshot : Snapshot s revision watcher) : Replicating { s with watcher } := by
  have hright : RightExcept WatchEvent.key WatchEvent.value s.log watcher.replica
      (OrderedLog.entriesFrom WatchEvent.revision s.log (watcher.lastRevision + 1)) := by
    rw [hsnapshot.replica, hsnapshot.lastRevision]
    exact rightExcept_snapshot h.sorted revision
  refine { toResuming := hresuming, positive := h.positive, right := hright, rightPending := ?_ }
  intro startRevision hmem
  obtain ⟨rfl, -⟩ := hsnapshot.resumes startRevision hmem
  simp only [pending, hsnapshot.sent, List.drop_zero]
  exact hright

/-- A response hands over the next events of its watch. -/
theorem Replicating.respond {s : WatchSystem} (h : Replicating s) {revision : Int}
    {answer : WatchAnswer} {trunk : WatchTrunk} (htrunk : s.trunk revision answer = some trunk)
    (hahead : s.HeaderNotAhead (.respond revision answer)) : Replicating (s.respond trunk) := by
  obtain ⟨startRevision, hstart, hpos, hle, hheader, hsnapshot, hread⟩ := trunk_spec htrunk
  obtain ⟨-, hrpc, -, hlast⟩ := EtcdWatcher.onTrunk_spec h.evtHandle hheader hsnapshot hpos
  have hreplica : (s.watcher.onTrunk trunk).replica
      = replay WatchEvent.key WatchEvent.value s.watcher.replica trunk.response.events :=
    EtcdWatcher.replica_onTrunk h.evtHandle hsnapshot
  have hstart' : (s.respond trunk).watcher.watchStart = some startRevision := by
    rw [← hstart]
    show (s.watcher.onTrunk trunk).rpcOpr.bind _ = s.watcher.rpcOpr.bind _
    rw [hrpc]
  -- The log: what is below the start, what was sent before, this response, and the rest.
  obtain ⟨rest, hrest⟩ := hread
  have hpending : (s.respond trunk).pending startRevision = rest := by
    have hdrop : (s.pending startRevision).drop trunk.response.events.length = rest := by
      rw [← hrest, List.drop_left]
    rw [← hdrop]
    simp [pending, WatchSystem.respond, List.drop_drop]
  have hlog : s.log = s.log.filter (fun e => e.revision < startRevision) ++
      (OrderedLog.entriesFrom WatchEvent.revision s.log startRevision).take s.sent ++
        (trunk.response.events ++ rest) := by
    rw [hrest, pending, List.append_assoc, List.take_append_drop]
    exact (LogReplica.filter_lt_append_entriesFrom h.sorted startRevision).symm
  have hright : RightExcept WatchEvent.key WatchEvent.value s.log
      (s.watcher.onTrunk trunk).replica rest := by
    have hold := h.rightPending startRevision hstart
    rw [hreplica]
    rw [← hrest] at hold
    rw [hlog] at hold ⊢
    exact hold.replay_next
  refine { toResuming := h.toResuming.respond htrunk hahead, positive := h.positive, right := ?_,
           rightPending := ?_ }
  · show RightExcept _ _ s.log (s.watcher.onTrunk trunk).replica
      (OrderedLog.entriesFrom WatchEvent.revision s.log ((s.watcher.onTrunk trunk).lastRevision + 1))
    refine hright.mono fun e he => OrderedLog.mem_entriesFrom.2 ⟨?_, ?_⟩
    · rw [hlog]
      exact List.mem_append_right _ (List.mem_append_right _ he)
    · rw [hlast]
      split
      · have hmem : e ∈ s.log := by
          rw [hlog]
          exact List.mem_append_right _ (List.mem_append_right _ he)
        have hposE := h.positive e hmem
        omega
      · next hrestart =>
        have hbelow := (hahead trunk htrunk startRevision hstart).resolve_left hrestart
        have hdrop : (s.pending startRevision).drop trunk.response.events.length = rest := by
          rw [← hrest, List.drop_left]
        have hltE := hbelow e (hdrop ▸ he)
        omega
  · intro start hmem
    obtain rfl : startRevision = start := Option.some.inj (hstart' ▸ hmem)
    rw [hpending]
    exact hright

/-- **One step keeps the replica right**, when a response that it handles is not ahead. -/
theorem Replicating.next {s : WatchSystem} (h : Replicating s) {i : WatchStep}
    (hahead : s.HeaderNotAhead i) {s' : WatchSystem} (hnext : s.next i = some s') :
    Replicating s' := by
  have hresuming := h.toResuming.next hahead hnext
  cases change_of_next h.toResuming hnext with
  | commit events => exact h.commit events
  | quiet hquiet => exact h.quiet hresuming hquiet
  | snapshot _ _ hsnapshot => exact h.snapshot hresuming hsnapshot
  | respond htrunk => exact h.respond htrunk hahead

/-! ## Runs -/

theorem replicating_initial (path rangeEnd : Bytes) (startupRandomDelayMin : Int) :
    Replicating (initial path rangeEnd startupRandomDelayMin) where
  toResuming := resuming_initial path rangeEnd startupRandomDelayMin
  positive := by intro e he; cases he
  right := fun _ _ => rfl
  rightPending := by intro startRevision hmem; cases hmem

/-- **The replica follows the server**, in a run in which no response header is ahead of the events
    that the watch has still to send: it is right on every key without a change above
    `last_revision`, and on all keys when the watch has sent everything. -/
theorem always_replicates (path rangeEnd : Bytes) (startupRandomDelayMin : Int)
    (steps : List WatchStep)
    (h : Run.StepsMeet step StepNotAhead (some (initial path rangeEnd startupRandomDelayMin))
      steps) :
    Run.Always step (IfRunning Replicates) (some (initial path rangeEnd startupRandomDelayMin))
      steps := by
  have hstep : ∀ st i, IfRunning Replicating st → StepNotAhead st i →
      IfRunning Replicating (step st i) := by
    intro st i hst hahead s' hs'
    obtain ⟨s, hs, hnext⟩ := Option.bind_eq_some_iff.1 hs'
    exact (hst s hs).next (hahead s hs) hnext
  have hinit : IfRunning Replicating (some (initial path rangeEnd startupRandomDelayMin)) := by
    intro s hs
    cases hs
    exact replicating_initial path rangeEnd startupRandomDelayMin
  have hrun := Run.always_of_stepsMeet step hstep hinit h
  exact hrun.mono step (fun st hst s hs => (hst s hs).replicates)

/-- A key is put and deleted again, the connection breaks after a header with an old revision, and the
    watcher is handed both events once more. -/
def repeatedSteps : List WatchStep :=
  [.active 1 .started, .commit [putEvent (ascii "/a")], .rangeDone 1 .started 1,
   .respond 1 .created, .commit [putEvent (ascii "/b")],
   .commit [{ putEvent (ascii "/b") with evtType := .delete }], .respond 2 (.events 1),
   .respond 3 (.events 1), .respond 1 .progress, .watchDone 1 .started ⟨28, true⟩,
   .rangeDone 1 .started 3, .respond 1 .created, .respond 3 (.events 2)]

theorem always_replicates_repeated :
    Run.Always step (IfRunning Replicates) (some (initial [] [] 0)) repeatedSteps :=
  always_replicates [] [] 0 repeatedSteps (by decide +kernel)

end WatchSystem

end LibAtapp
