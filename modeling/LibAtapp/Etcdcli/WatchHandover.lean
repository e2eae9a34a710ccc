import LibAtapp.Etcdcli.WatchReplica

set_option autoImplicit false

/-! # What the event handler may rely on

A handler that keeps the revision of each key takes an event for stale when it knows a newer one. It
is handed old events again when a header carries an older revision than one before, since the watch
then resumes at the old revision. The main result is that this is the only way: in a run in which no
header is behind an earlier one either, every event is newer than what the handler knows of its key,
and so is every key of a snapshot that it does not already know as it is. -/

namespace LibAtapp

open LogReplica (Store Newer NewerInTurn replay storeOf)

namespace WatcherEffect

/-- The largest revision of a header that the handler was handed, after one more effect. -/
def seeHeader (seen : Int) : WatcherEffect → Int
  | .evtHandle header _ => max seen header.revision
  | _ => seen

/-- The events that are handed over have the property, and a snapshot puts each of its keys once. -/
def Carries (prop : WatchEvent → Prop) : WatcherEffect → Prop
  | .evtHandle _ response =>
    (∀ e ∈ response.events, prop e) ∧ (response.snapshot = true →
      (response.events.map WatchEvent.key).Nodup ∧ ∀ e ∈ response.events, e.evtType = .put)
  | _ => True

/-- A response that is newer than the replica: each event is newer than what it replaces, and a key
    of a snapshot is at least as new. -/
def Fresh (replica : Store Bytes EtcdKeyValue) : WatcherEffect → Prop
  | .evtHandle _ response =>
    if response.snapshot then
      ∀ e ∈ response.events, ∀ kv ∈ replica e.key, kv = e.kv ∨ kv.modRevision < e.revision
    else
      NewerInTurn WatchEvent.key WatchEvent.value WatchEvent.revision EtcdKeyValue.modRevision
        replica response.events
  | _ => True

end WatcherEffect

namespace EtcdWatcher

/-- The largest revision of a header that was handed over. -/
def seen (self : EtcdWatcher) : Int := self.effects.foldl WatcherEffect.seeHeader 0

/-- Every response was newer than the replica of the ones before. -/
def HandedFresh (self : EtcdWatcher) : Prop :=
  Run.StepsMeet WatcherEffect.applyTo (fun replica effect => effect.Fresh replica) (fun _ => none)
    self.effects

end EtcdWatcher

namespace WatchSystem

/-- The events of a transaction meet the condition. -/
def CommitMeets (cond : WatchEvent → Prop) : WatchStep → Prop
  | .commit events => ∀ e ∈ events, cond e
  | _ => True

/-- The events of a transaction have different keys. -/
def CommitDistinct : WatchStep → Prop
  | .commit events => (events.map WatchEvent.key).Nodup
  | _ => True

/-- A header that is not behind one that was handed over before. -/
def HeaderNotBehind (s : WatchSystem) : WatchStep → Prop
  | .respond revision answer => (s.trunk revision answer).isSome → s.watcher.seen ≤ revision
  | .rangeDone _ _ revision =>
    s.watcher.isRanging = true → s.watcher.isRetryMode = false → s.watcher.seen ≤ revision
  | _ => True

instance (s : WatchSystem) : ∀ i, Decidable (s.HeaderNotBehind i)
  | .respond revision answer =>
    inferInstanceAs (Decidable ((s.trunk revision answer).isSome → s.watcher.seen ≤ revision))
  | .rangeDone _ _ revision => inferInstanceAs (Decidable (s.watcher.isRanging = true →
      s.watcher.isRetryMode = false → s.watcher.seen ≤ revision))
  | .commit _ | .compact _ | .active _ _ | .rangeFailed _ | .watchDone _ _ _ => instDecidableTrue

instance (cond : WatchEvent → Prop) [DecidablePred cond] : ∀ i, Decidable (CommitMeets cond i)
  | .commit events => inferInstanceAs (Decidable (∀ e ∈ events, cond e))
  | .compact _ | .active _ _ | .rangeFailed _ | .rangeDone _ _ _ | .respond _ _
  | .watchDone _ _ _ => instDecidableTrue

instance : ∀ i, Decidable (CommitDistinct i)
  | .commit events => inferInstanceAs (Decidable (events.map WatchEvent.key).Nodup)
  | .compact _ | .active _ _ | .rangeFailed _ | .rangeDone _ _ _ | .respond _ _
  | .watchDone _ _ _ => instDecidableTrue

end WatchSystem

namespace WatchEvent

theorem value_eq_some {e : WatchEvent} {kv : EtcdKeyValue} (h : e.value = some kv) :
    e.evtType = .put ∧ kv = e.kv := by
  unfold value at h
  split at h
  · next htype =>
    cases h
    exact ⟨htype, rfl⟩
  · cases h

/-- The revision of a value is that of the event it comes from. -/
theorem modRevision_of_value (e : WatchEvent) (kv : EtcdKeyValue) (h : e.value = some kv) :
    kv.modRevision = e.revision := by
  rw [(value_eq_some h).2]
  rfl

end WatchEvent

namespace WatchSystem

variable {cond prop : WatchEvent → Prop} {s : WatchSystem}

/-- Only a watch that is not canceled is answered, and its header covers the events. -/
theorem trunk_open {revision : Int} {answer : WatchAnswer} {trunk : WatchTrunk}
    (h : s.trunk revision answer = some trunk) :
    s.canceled = false ∧ ∀ e ∈ trunk.response.events, e.revision ≤ revision := by
  unfold WatchSystem.trunk at h
  split at h
  · cases h
  · simp only at h
    split at h
    · cases h
    · next hok =>
      refine ⟨by simp_all, ?_⟩
      cases answer with
      | events count =>
        simp only at h
        split at h <;> cases h
        next hcovered => exact hcovered.2
      | created =>
        simp only at h
        split at h <;> cases h
        simp
      | progress =>
        simp only at h
        split at h <;> cases h
        simp
      | canceled =>
        simp only at h
        split at h <;> cases h
        simp

/-! ## What the events carry -/

/-- All events are in the log for a reason, and are handed over as they are in the log. -/
structure Carrying (prop : WatchEvent → Prop) (s : WatchSystem) : Prop extends Replicating s where
  met : ∀ e ∈ s.log, prop e
  carried : ∀ effect ∈ s.watcher.effects, effect.Carries prop

/-- A range answer has each key once. -/
theorem nodup_storeAt (log : List WatchEvent) (revision : Int) :
    ((storeAt log revision).map EtcdKeyValue.key).Nodup := by
  unfold storeAt
  refine List.foldlRecOn (motive := fun kvs : List EtcdKeyValue => (kvs.map EtcdKeyValue.key).Nodup)
    _ _ (by simp) ?_
  intro kvs h e _
  have hothers : ((kvs.filter fun kv => kv.key ≠ e.kv.key).map EtcdKeyValue.key).Nodup :=
    h.sublist (List.filter_sublist.map _)
  cases htype : e.evtType with
  | put =>
    simp only []
    rw [List.map_append, List.nodup_append]
    refine ⟨hothers, by simp, ?_⟩
    intro k hk k' hk'
    obtain ⟨kv, hkv, rfl⟩ := List.mem_map.1 hk
    obtain rfl : k' = e.kv.key := by simpa using hk'
    simpa using (List.mem_filter.1 hkv).2
  | delete => exact hothers

/-- What a range answer has is what the log up to the revision leaves. -/
theorem storeOf_of_mem_storeAt {log : List WatchEvent} {revision : Int} {kv : EtcdKeyValue}
    (h : kv ∈ storeAt log revision) :
    storeOf WatchEvent.key WatchEvent.value (log.filter fun e => e.revision ≤ revision) kv.key
      = some kv := by
  rw [← replay_storeAt]
  exact LogReplica.replay_of_mem (nodup_storeAt log revision) h _

/-- What a step hands over, and what it commits, carries the property. -/
theorem Carrying.next (h : Carrying prop s)
    (hcommit : ∀ revision e, 0 < revision → cond e → prop (WatchEvent.commitAt revision e))
    (hput : ∀ e, prop e → e.evtType = .put → prop { kv := e.kv }) {i : WatchStep}
    (hahead : s.HeaderNotAhead i) (hmeets : CommitMeets cond i) {s' : WatchSystem}
    (hnext : s.next i = some s') : Carrying prop s' := by
  have hreplicating := h.toReplicating.next hahead hnext
  cases change_of_next h.toResuming hnext with
  | commit events =>
    refine { toReplicating := hreplicating, met := ?_, carried := h.carried }
    intro e he
    rcases List.mem_append.1 he with he | he
    · exact h.met e he
    · obtain ⟨event, hevent, rfl⟩ := List.mem_map.1 he
      have hnonneg := h.revisionNonneg
      exact hcommit _ _ (by omega) (hmeets event hevent)
  | quiet hquiet =>
    refine { toReplicating := hreplicating, met := ?_, carried := ?_ }
    · rw [hquiet.log]
      exact h.met
    · rw [hquiet.effects]
      exact h.carried
  | snapshot _ _ hsnapshot =>
    refine { toReplicating := hreplicating, met := h.met, carried := ?_ }
    simp only [hsnapshot.effects]
    refine List.forall_mem_append.2 ⟨h.carried, List.forall_mem_singleton.2 ⟨?_, fun _ => ⟨?_, ?_⟩⟩⟩
    · intro e he
      obtain ⟨kv, hkv, rfl⟩ := List.mem_map.1 he
      rcases LogReplica.replay_eq_some (storeOf_of_mem_storeAt hkv) with
        ⟨hnone, -⟩ | ⟨front, e, back, hsplit, -, hvalue, -⟩
      · cases hnone
      · have hmem : e ∈ front ++ e :: back := by simp
        rw [← hsplit] at hmem
        obtain ⟨htype, rfl⟩ := WatchEvent.value_eq_some hvalue
        exact hput e (h.met e (List.mem_filter.1 hmem).1) htype
    · rw [List.map_map]
      exact nodup_storeAt s.log _
    · intro e he
      obtain ⟨kv, -, rfl⟩ := List.mem_map.1 he
      rfl
  | respond htrunk =>
    next revision answer trunk =>
    obtain ⟨startRevision, -, -, -, -, hsnapshot, hread⟩ := trunk_spec htrunk
    refine { toReplicating := hreplicating, met := h.met, carried := ?_ }
    show ∀ effect ∈ (s.watcher.onTrunk trunk).effects, effect.Carries prop
    rw [EtcdWatcher.effects_onTrunk h.evtHandle]
    refine List.forall_mem_append.2 ⟨h.carried, List.forall_mem_cons.2 ⟨⟨?_, ?_⟩, ?_⟩⟩
    · intro e he
      exact h.met e (OrderedLog.mem_entriesFrom.1 (List.mem_of_mem_drop (hread.subset he))).1
    · intro htrue
      rw [hsnapshot] at htrue
      cases htrue
    · split <;> simp [WatcherEffect.Carries]

/-! ## How old the events are -/

/-- What the runs keep for the responses that are handed over. -/
structure Handing (s : WatchSystem) : Prop extends Replicating s where
  distinct : s.log.Pairwise fun a b => a.key = b.key → a.revision < b.revision
  /-- What the replica knows are events of the log that some header covered. -/
  known : ∀ k kv, s.watcher.replica k = some kv →
    ∃ e ∈ s.log, e.key = k ∧ e.value = some kv ∧ e.revision ≤ s.watcher.seen
  last : s.watcher.lastRevision = 0 ∨ s.watcher.lastRevision = s.watcher.seen
  newer : s.canceled = false → ∀ startRevision ∈ s.watcher.watchStart,
    ∀ e ∈ s.pending startRevision,
      Newer WatchEvent.key WatchEvent.revision EtcdKeyValue.modRevision s.watcher.replica e
  fresh : s.watcher.HandedFresh

/-- What comes after a revision that covers all headers is newer than the replica. -/
theorem Handing.newer_of_seen (h : Handing s) {revision : Int} (hseen : s.watcher.seen ≤ revision) :
    ∀ e ∈ OrderedLog.entriesFrom WatchEvent.revision s.log (revision + 1),
      Newer WatchEvent.key WatchEvent.revision EtcdKeyValue.modRevision s.watcher.replica e := by
  intro e he kv hkv
  obtain ⟨e', -, -, hvalue, hle⟩ := h.known e.key kv hkv
  have hfrom := (OrderedLog.mem_entriesFrom.1 he).2
  rw [WatchEvent.modRevision_of_value e' kv hvalue]
  omega

/-- A transaction of different keys adds events that are newer than everything known. -/
theorem Handing.commit (h : Handing s) {events : List WatchEvent}
    (hnodup : (events.map WatchEvent.key).Nodup) :
    Handing { s with
      revision := s.revision + 1
      log := s.log ++ events.map (WatchEvent.commitAt (s.revision + 1)) } := by
  have hnew : ∀ e ∈ events.map (WatchEvent.commitAt (s.revision + 1)),
      e.revision = s.revision + 1 := by
    intro e he
    obtain ⟨event, -, rfl⟩ := List.mem_map.1 he
    rfl
  refine { toReplicating := h.toReplicating.commit events, distinct := ?_, known := ?_,
           last := h.last, newer := ?_, fresh := h.fresh }
  · refine List.pairwise_append.2 ⟨h.distinct, ?_, ?_⟩
    · -- two events of the transaction have different keys
      refine List.pairwise_map.2 ((List.pairwise_map.1 hnodup).imp ?_)
      intro a b hne heq
      exact absurd heq hne
    · intro a ha b hb _
      have hle := h.bounded a ha
      rw [hnew b hb]
      omega
  · intro k kv hkv
    obtain ⟨e, he, hrest⟩ := h.known k kv hkv
    exact ⟨e, List.mem_append_left _ he, hrest⟩
  · intro hcanceled startRevision hmem e he kv hkv
    have hold := h.streaming startRevision hmem
    simp only [pending, OrderedLog.entriesFrom_append] at he
    rw [List.drop_append_of_le_length hold.sent_le] at he
    rcases List.mem_append.1 he with he | he
    · exact h.newer hcanceled startRevision hmem e he kv hkv
    · obtain ⟨e', hlog, -, hvalue, -⟩ := h.known _ kv hkv
      have hle := h.bounded e' hlog
      rw [WatchEvent.modRevision_of_value e' kv hvalue,
        hnew e (OrderedLog.mem_entriesFrom.1 he).1]
      omega

/-- Nothing is handed over: a new watch goes on after everything that is known. -/
theorem Handing.quiet (h : Handing s) {s' : WatchSystem} (hreplicating : Replicating s')
    (hquiet : Quiet s s') : Handing s' := by
  have hreplica := EtcdWatcher.replica_of_effects hquiet.effects
  have hseen : s'.watcher.seen = s.watcher.seen := by
    rw [EtcdWatcher.seen, hquiet.effects, EtcdWatcher.seen]
  refine { toReplicating := hreplicating, distinct := ?_, known := ?_, last := ?_, newer := ?_,
           fresh := ?_ }
  · rw [hquiet.log]
    exact h.distinct
  · rw [hquiet.log, hreplica, hseen]
    exact h.known
  · rw [hquiet.lastRevision, hseen]
    exact h.last
  · intro hcanceled startRevision hmem
    rw [hreplica]
    rcases hquiet.watch with ⟨hsame, hcancel, hsent⟩ | ⟨hresumes, hsent⟩
    · simp only [pending, hquiet.log, hsent]
      exact h.newer (hcancel ▸ hcanceled) startRevision (hsame ▸ hmem)
    · obtain ⟨rfl, hne⟩ := hresumes startRevision hmem
      simp only [pending, hquiet.log, hsent, hquiet.lastRevision, List.drop_zero]
      rw [hquiet.lastRevision] at hne
      exact h.newer_of_seen (h.last.resolve_left hne).ge
  · unfold EtcdWatcher.HandedFresh
    rw [hquiet.effects]
    exact h.fresh

/-! ### Snapshots -/

/-- What a snapshot shows of a key is the last event of the key up to the revision. -/
theorem snapshot_eq_some {log : List WatchEvent} {revision : Int} {k : Bytes} {kv : EtcdKeyValue}
    (hdistinct : log.Pairwise fun a b => a.key = b.key → a.revision < b.revision)
    (h : storeOf WatchEvent.key WatchEvent.value (log.filter fun e => e.revision ≤ revision) k
      = some kv) :
    ∃ e ∈ log, e.key = k ∧ e.value = some kv ∧ e.revision ≤ revision ∧
      ∀ e' ∈ log, e'.key = k → e'.revision ≤ revision → e' = e ∨ e'.revision < e.revision := by
  rcases LogReplica.replay_eq_some h with ⟨hnone, -⟩ | ⟨front, e, back, hsplit, hkey, hvalue, hback⟩
  · cases hnone
  · have hmem : ∀ e', e' ∈ front ++ e :: back ↔ e' ∈ log ∧ e'.revision ≤ revision := by
      intro e'
      rw [← hsplit]
      simp
    have he := (hmem e).1 (by simp)
    refine ⟨e, he.1, hkey, hvalue, he.2, ?_⟩
    intro e' hlog hkey' hle
    have hpair := hdistinct.filter fun e => decide (e.revision ≤ revision)
    rw [hsplit] at hpair
    rcases List.mem_append.1 ((hmem e').2 ⟨hlog, hle⟩) with hfront | hrest
    · have hbefore := (List.pairwise_append.1 hpair).2.2 e' hfront e List.mem_cons_self
      exact Or.inr (hbefore (hkey'.trans hkey.symm))
    · rcases List.mem_cons.1 hrest with rfl | hmemBack
      · exact Or.inl rfl
      · exact absurd hkey' (hback e' hmemBack)

/-- **A snapshot** that is not behind a header is fresh, and everything known is in it. -/
theorem Handing.snapshot (h : Handing s) {watcher : EtcdWatcher} {revision : Int}
    (hreplicating : Replicating { s with watcher }) (hsnapshot : Snapshot s revision watcher)
    (hbehind : s.watcher.seen ≤ revision) : Handing { s with watcher } := by
  have hreplica : watcher.replica = storeOf WatchEvent.key WatchEvent.value
      (s.log.filter fun e => e.revision ≤ revision) := by
    rw [hsnapshot.replica, replay_snapshot]
  have hseen : watcher.seen = revision := by
    have hmax : watcher.seen = max s.watcher.seen revision := by
      simp [EtcdWatcher.seen, hsnapshot.effects, WatcherEffect.seeHeader]
    rw [hmax]
    exact max_eq_right hbehind
  have hknown : ∀ k kv, watcher.replica k = some kv →
      ∃ e ∈ s.log, e.key = k ∧ e.value = some kv ∧ e.revision ≤ revision := by
    intro k kv hkv
    rw [hreplica] at hkv
    obtain ⟨e, he, hkey, hvalue, hle, -⟩ := snapshot_eq_some h.distinct hkv
    exact ⟨e, he, hkey, hvalue, hle⟩
  refine { toReplicating := hreplicating, distinct := h.distinct, known := ?_,
           last := Or.inr (hsnapshot.lastRevision.trans hseen.symm), newer := ?_, fresh := ?_ }
  · rw [hseen]
    exact hknown
  · intro _ startRevision hmem e he kv hkv
    obtain ⟨rfl, -⟩ := hsnapshot.resumes startRevision hmem
    obtain ⟨e', -, -, hvalue, hle⟩ := hknown _ kv hkv
    simp only [pending, hsnapshot.sent, hsnapshot.lastRevision, List.drop_zero] at he
    have hfrom := (OrderedLog.mem_entriesFrom.1 he).2
    rw [WatchEvent.modRevision_of_value e' kv hvalue]
    omega
  · unfold EtcdWatcher.HandedFresh
    rw [hsnapshot.effects]
    refine (Run.StepsMeet.append _).2 ⟨h.fresh, ?_, trivial⟩
    simp only [WatcherEffect.Fresh, if_true]
    intro e he kv hkv
    obtain ⟨kv', hkv', rfl⟩ := List.mem_map.1 he
    obtain ⟨e', hlog, hkey, hvalue, hle⟩ := h.known _ kv hkv
    obtain ⟨e, -, -, hvalue', -, holder⟩ :=
      snapshot_eq_some h.distinct (storeOf_of_mem_storeAt hkv')
    rcases holder e' hlog hkey (hle.trans hbehind) with rfl | hlt
    · exact Or.inl (Option.some.inj (hvalue.symm.trans hvalue'))
    · refine Or.inr ?_
      show kv.modRevision < kv'.modRevision
      rw [WatchEvent.modRevision_of_value e' kv hvalue,
        WatchEvent.modRevision_of_value e kv' hvalue']
      exact hlt

/-! ### Responses -/

/-- **A response** hands over the next events of the watch, which are newer than the replica. -/
theorem Handing.respond (h : Handing s) {revision : Int} {answer : WatchAnswer}
    {trunk : WatchTrunk} (htrunk : s.trunk revision answer = some trunk)
    (hreplicating : Replicating (s.respond trunk)) (hbehind : s.watcher.seen ≤ revision) :
    Handing (s.respond trunk) := by
  obtain ⟨startRevision, hstart, hpos, -, hheader, hsnapshot, hread⟩ := trunk_spec htrunk
  obtain ⟨hopen, hcovered⟩ := trunk_open htrunk
  obtain ⟨-, hrpc, -, hlast⟩ := EtcdWatcher.onTrunk_spec h.evtHandle hheader hsnapshot hpos
  have heffects : (s.watcher.onTrunk trunk).effects = s.watcher.effects ++
      .evtHandle { revision } trunk.response ::
        if trunk.response.canceled then [.stop] else [] := by
    rw [EtcdWatcher.effects_onTrunk h.evtHandle, hheader]
    rfl
  have hreplica : (s.watcher.onTrunk trunk).replica
      = replay WatchEvent.key WatchEvent.value s.watcher.replica trunk.response.events :=
    EtcdWatcher.replica_onTrunk h.evtHandle hsnapshot
  have hseen : (s.watcher.onTrunk trunk).seen = revision := by
    have hmax : (s.watcher.onTrunk trunk).seen = max s.watcher.seen revision := by
      unfold EtcdWatcher.seen
      rw [heffects]
      split <;> simp [WatcherEffect.seeHeader]
    rw [hmax]
    exact max_eq_right hbehind
  obtain ⟨rest, hrest⟩ := hread
  have hpending : (s.respond trunk).pending startRevision = rest := by
    have hdrop : (s.pending startRevision).drop trunk.response.events.length = rest := by
      rw [← hrest, List.drop_left]
    rw [← hdrop]
    simp [pending, WatchSystem.respond, List.drop_drop]
  have hlog : ∀ e ∈ trunk.response.events, e ∈ s.log := by
    intro e he
    have hmem : e ∈ s.pending startRevision := hrest ▸ List.mem_append_left rest he
    exact (OrderedLog.mem_entriesFrom.1 (List.mem_of_mem_drop hmem)).1
  have hpair : (trunk.response.events ++ rest).Pairwise
      fun a b => a.key = b.key → a.revision < b.revision := by
    rw [hrest]
    exact (h.distinct.filter _).sublist (List.drop_sublist _ _)
  have hold := h.newer hopen startRevision hstart
  rw [← hrest] at hold
  obtain ⟨hturn, hnewer⟩ :=
    LogReplica.newerInTurn_of_pairwise WatchEvent.modRevision_of_value hold hpair
  refine { toReplicating := hreplicating, distinct := h.distinct, known := ?_, last := ?_,
           newer := ?_, fresh := ?_ }
  · show ∀ k kv, (s.watcher.onTrunk trunk).replica k = some kv → ∃ e ∈ s.log,
      e.key = k ∧ e.value = some kv ∧ e.revision ≤ (s.watcher.onTrunk trunk).seen
    intro k kv hkv
    rw [hseen]
    rw [hreplica] at hkv
    rcases LogReplica.replay_eq_some hkv with ⟨hbefore, -⟩ | ⟨front, e, back, hsplit, hkey, hvalue, -⟩
    · obtain ⟨e, he, hkey, hvalue, hle⟩ := h.known k kv hbefore
      exact ⟨e, he, hkey, hvalue, hle.trans hbehind⟩
    · have he : e ∈ trunk.response.events := by simp [hsplit]
      exact ⟨e, hlog e he, hkey, hvalue, hcovered e he⟩
  · show (s.watcher.onTrunk trunk).lastRevision = 0 ∨
      (s.watcher.onTrunk trunk).lastRevision = (s.watcher.onTrunk trunk).seen
    rw [hlast, hseen]
    split
    · exact Or.inl rfl
    · exact Or.inr rfl
  · intro _ start hmem
    have hstart' : (s.respond trunk).watcher.watchStart = some startRevision := by
      rw [← hstart]
      show (s.watcher.onTrunk trunk).rpcOpr.bind _ = s.watcher.rpcOpr.bind _
      rw [hrpc]
    obtain rfl : startRevision = start := Option.some.inj (hstart'.symm.trans hmem)
    rw [hpending]
    show ∀ e ∈ rest, Newer _ _ _ (s.watcher.onTrunk trunk).replica e
    rw [hreplica]
    exact hnewer
  · show (s.watcher.onTrunk trunk).HandedFresh
    unfold EtcdWatcher.HandedFresh
    rw [heffects]
    refine (Run.StepsMeet.append _).2 ⟨h.fresh, ?_, ?_⟩
    · simp only [WatcherEffect.Fresh, hsnapshot, Bool.false_eq_true, if_false]
      exact hturn
    · split
      · exact ⟨trivial, trivial⟩
      · trivial

/-- **One step hands over fresh responses**, when no header is ahead or behind. -/
theorem Handing.next (h : Handing s) {i : WatchStep} (hahead : s.HeaderNotAhead i)
    (hbehind : s.HeaderNotBehind i) (hdistinct : CommitDistinct i) {s' : WatchSystem}
    (hnext : s.next i = some s') : Handing s' := by
  have hreplicating := h.toReplicating.next hahead hnext
  cases change_of_next h.toResuming hnext with
  | commit events => exact h.commit hdistinct
  | quiet hquiet => exact h.quiet hreplicating hquiet
  | snapshot hranging hretry hsnapshot =>
    exact h.snapshot hreplicating hsnapshot (hbehind hranging hretry)
  | respond htrunk => exact h.respond htrunk hreplicating (hbehind (htrunk ▸ rfl))

/-! ## Runs -/

/-- The condition on a step: no header is ahead, and what is committed meets a condition. -/
def StepCarries (cond : WatchEvent → Prop) (st : Option WatchSystem) (i : WatchStep) : Prop :=
  StepNotAhead st i ∧ CommitMeets cond i

/-- The condition on a step: no header is behind, and a transaction changes a key at most once. -/
def StepFresh (st : Option WatchSystem) (i : WatchStep) : Prop :=
  IfRunning (fun s => s.HeaderNotBehind i) st ∧ CommitDistinct i

instance (cond : WatchEvent → Prop) [DecidablePred cond] (st : Option WatchSystem)
    (i : WatchStep) : Decidable (StepCarries cond st i) :=
  inferInstanceAs (Decidable (_ ∧ _))

instance (st : Option WatchSystem) (i : WatchStep) : Decidable (StepFresh st i) :=
  inferInstanceAs (Decidable ((∀ s ∈ st, s.HeaderNotBehind i) ∧ _))

/-- **The events that are handed over carry what is committed**, in a run in which no header is
    ahead. -/
theorem always_carrying (prop : WatchEvent → Prop)
    (hcommit : ∀ revision e, 0 < revision → cond e → prop (WatchEvent.commitAt revision e))
    (hput : ∀ e, prop e → e.evtType = .put → prop { kv := e.kv }) (path rangeEnd : Bytes)
    (startupRandomDelayMin : Int) {steps : List WatchStep}
    (h : Run.StepsMeet step (StepCarries cond)
      (some (initial path rangeEnd startupRandomDelayMin)) steps) :
    Run.Always step (IfRunning (Carrying prop))
      (some (initial path rangeEnd startupRandomDelayMin)) steps := by
  refine Run.always_of_stepsMeet step ?_ ?_ h
  · intro st i hst hi s' hs'
    obtain ⟨s, hs, hnext⟩ := Option.bind_eq_some_iff.1 hs'
    exact (hst s hs).next hcommit hput (hi.1 s hs) hi.2 hnext
  · intro s hs
    cases hs
    exact { toReplicating := replicating_initial path rangeEnd startupRandomDelayMin
            met := by simp [initial]
            carried := by simp [initial] }

/-- **Every response is fresh** in a run in which no header is ahead or behind. -/
theorem always_handing (path rangeEnd : Bytes) (startupRandomDelayMin : Int)
    {steps : List WatchStep}
    (h : Run.StepsMeet step (fun st i => StepNotAhead st i ∧ StepFresh st i)
      (some (initial path rangeEnd startupRandomDelayMin)) steps) :
    Run.Always step (IfRunning Handing)
      (some (initial path rangeEnd startupRandomDelayMin)) steps := by
  refine Run.always_of_stepsMeet step ?_ ?_ h
  · intro st i hst hi s' hs'
    obtain ⟨s, hs, hnext⟩ := Option.bind_eq_some_iff.1 hs'
    exact (hst s hs).next (hi.1 s hs) (hi.2.1 s hs) hi.2.2 hnext
  · intro s hs
    cases hs
    exact { toReplicating := replicating_initial path rangeEnd startupRandomDelayMin
            distinct := List.Pairwise.nil
            known := by
              intro k kv hkv
              cases hkv
            last := Or.inl rfl
            newer := by
              intro _ startRevision hmem
              cases hmem
            fresh := trivial }

end WatchSystem

end LibAtapp
