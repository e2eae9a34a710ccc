import LibAtapp.Etcdcli.WatchHandover
import LibAtapp.Modules.TopologyHistory

set_option autoImplicit false

/-! # The topology set and the etcd server

The watcher of a topology directory hands its responses to the callback, which keeps the topology set.
Here the two run together with the server: an entry of the set is compared with what the server has
under the key of its id. The entry follows the replica of the responses, because each response is newer
than the ones before, and the replica follows the server. The main result is that whenever the watch
has nothing more to send, the entries of the context are exactly the infos that the server has, across
all lost connections, compactions and snapshots. -/

namespace LibAtapp

open LogReplica (Store Newer NewerInTurn replay)

/-- The callback after one more effect of the watcher. -/
def TopologyWatcherState.handleEffect (codec : TopologyCodec) (order : TopologySetOrder)
    (st : TopologyWatcherState) : WatcherEffect → TopologyWatcherState
  | .evtHandle _ response => st.handleResponse codec order response
  | _ => st

namespace WatchedTopology

variable (w : WatchedTopology) (names : Nat → Bytes) (start : TopologyModule)

/-- The id that is read from an event. -/
def idOf (event : WatchEvent) : Nat := (w.decoded event).storage.info.id

/-- The event is about the key of the id that is read from it, and the set had no entry of the id
    at the start. -/
def OwnEvent (event : WatchEvent) : Prop :=
  w.idOf event ≠ 0 ∧ start.find (w.idOf event) = none ∧
    event = if event.evtType = .put then w.putEvent (App.named names (w.idOf event)) event.kv
      else w.deleteEvent (App.named names (w.idOf event)) event.kv

instance : DecidablePred (w.OwnEvent names start) := fun event =>
  inferInstanceAs (Decidable (w.idOf event ≠ 0 ∧ start.find (w.idOf event) = none ∧ _))

/-- The entry of an id shows the value of its key. -/
structure Shows (id : Nat) (σ : TopologyStorage) (kv : EtcdKeyValue) : Prop where
  context : σ.contextAddr = w.contextAddr
  info_id : σ.info.id = id
  info : AtappTopologyInfo.topologyEqual σ.info (w.putInfo (App.named names id) kv) = true

/-- The entries of the context show exactly the values of a store. -/
structure HoldsStore (m : TopologyModule) (store : Store Bytes EtcdKeyValue) : Prop where
  live : ∀ id σ, m.find id = some σ → σ.contextAddr = w.contextAddr →
    ∃ kv, store (w.key (App.named names id)) = some kv ∧ w.Shows names id σ kv
  held : ∀ k kv, store k = some kv →
    ∃ id σ, k = w.key (App.named names id) ∧ m.find id = some σ ∧ w.Shows names id σ kv

/-- The entry and the value are both there, and agree, or both are not. -/
inductive Agrees (id : Nat) : Option TopologyStorage → Option EtcdKeyValue → Prop
  | absent : Agrees id none none
  | present {σ : TopologyStorage} {kv : EtcdKeyValue} (shows : w.Shows names id σ kv)
      (revision : σ.version.modifyRevision = kv.modRevision) : Agrees id (some σ) (some kv)

/-- **The entries follow a replica.** -/
structure Tracks (replica : Store Bytes EtcdKeyValue) (st : TopologyWatcherState) : Prop where
  elected : st.Elected
  context : st.ctx.addr = w.contextAddr
  strangers : TopologyModule.SameStrangers w.contextAddr start st.mod
  agrees : ∀ id, id ≠ 0 → start.find id = none →
    w.Agrees names id (st.mod.find id) (replica (w.key (App.named names id)))
  own : ∀ id σ, st.mod.find id = some σ → σ.contextAddr = w.contextAddr →
    id ≠ 0 ∧ start.find id = none

/-! ## The keys of events -/

variable {w} {names} {start}

theorem OwnEvent.key_eq {event : WatchEvent} (h : w.OwnEvent names start event) :
    event.key = w.key (App.named names (w.idOf event)) := by
  have hevent := congrArg WatchEvent.key h.2.2
  rw [hevent]
  split <;> rfl

theorem OwnEvent.put {event : WatchEvent} (h : w.OwnEvent names start event)
    (htype : event.evtType = .put) :
    event = w.putEvent (App.named names (w.idOf event)) event.kv := by
  have hevent := h.2.2
  rwa [if_pos htype] at hevent

/-- What is decoded from a put. -/
theorem decoded_put {event : WatchEvent} (h : w.OwnEvent names start event)
    (htype : event.evtType = .put) (hpos : 0 < event.revision) :
    (w.decoded event).action = .put ∧ (w.decoded event).storage.contextAddr = w.contextAddr ∧
      (w.decoded event).storage.info = w.putInfo (App.named names (w.idOf event)) event.kv ∧
      (w.decoded event).storage.version.modifyRevision = event.revision := by
  have hevent := h.put htype
  refine ⟨?_, rfl, ?_, ?_⟩
  · simp [decoded, TopologyModule.decodeEvent, htype]
  · rw [putInfo, ← hevent]
  · have hprev : event.prevKv = {} := by
      rw [hevent]
      rfl
    show max event.prevKv.modRevision event.kv.modRevision = event.kv.modRevision
    rw [hprev]
    exact max_eq_right hpos.le

/-! ## One event -/

variable {m : TopologyModule} {event : WatchEvent}

/-- What is there belongs to the context. -/
theorem Agrees.filter_own {id : Nat} {stored : Option TopologyStorage} {kv? : Option EtcdKeyValue}
    (h : w.Agrees names id stored kv?) :
    stored.filter (fun σ => σ.contextAddr ≠ w.contextAddr) = none := by
  cases h with
  | absent => rfl
  | present hshows _ => simp [hshows.context]

theorem Agrees.of_some {id : Nat} {σ : TopologyStorage} {kv? : Option EtcdKeyValue}
    (h : w.Agrees names id (some σ) kv?) : ∃ kv, kv? = some kv ∧ w.Shows names id σ kv := by
  cases h with
  | present hshows _ => exact ⟨_, rfl, hshows⟩

theorem Agrees.of_value {id : Nat} {stored : Option TopologyStorage} {kv : EtcdKeyValue}
    (h : w.Agrees names id stored (some kv)) : ∃ σ, stored = some σ ∧ w.Shows names id σ kv := by
  cases h with
  | present hshows _ => exact ⟨_, rfl, hshows⟩

/-- **A put** that is newer than the value, or is the value itself. -/
theorem Agrees.put {kv? : Option EtcdKeyValue} (h : w.OwnEvent names start event)
    (htype : event.evtType = .put) (hpos : 0 < event.revision)
    (hagrees : w.Agrees names (w.idOf event) (m.find (w.idOf event)) kv?)
    (hnewer : ∀ kv ∈ kv?, kv = event.kv ∨ kv.modRevision < event.revision) :
    w.Agrees names (w.idOf event) ((m.update (w.decoded event)).find (w.idOf event))
      (some event.kv) := by
  obtain ⟨haction, hcontext, hinfo, hrevision⟩ := decoded_put h htype hpos
  have hself : AtappTopologyInfo.topologyEqual (w.decoded event).storage.info
      (w.putInfo (App.named names (w.idOf event)) event.kv) = true := by
    rw [hinfo]
    exact AtappTopologyInfo.topologyEqual_self _
  cases hstored : m.find (w.idOf event) with
  | none =>
    have hput : (m.update (w.decoded event)).find (w.idOf event) =
        some (w.decoded event).storage := (TopologyModule.put_of_none haction hstored).1
    rw [hput]
    exact .present ⟨hcontext, rfl, hself⟩ hrevision
  | some σ =>
    rw [hstored] at hagrees
    cases hagrees with
    | present hshows hmod =>
      next kv =>
      obtain ⟨after, hafter, hafterContext, hafterInfo, -, hafterRevision, -⟩ :=
        TopologyModule.put_of_some haction hstored (hshows.context.trans hcontext.symm)
      have hfind : (m.update (w.decoded event)).find (w.idOf event) = some after := hafter
      rw [hfind]
      have hle : kv.modRevision ≤ event.revision := by
        rcases hnewer kv rfl with rfl | hlt
        · exact le_refl _
        · exact hlt.le
      refine .present ⟨hafterContext.trans hshows.context, ?_, ?_⟩ ?_
      · rw [hafterInfo]
        split
        · rfl
        · exact hshows.info_id
      · rw [hafterInfo]
        split
        · exact hself
        · next hkeeps =>
          rcases hnewer kv rfl with rfl | hlt
          · exact hshows.info
          · -- the revision grows, so only an equal info is kept
            by_contra hdiffers
            refine hkeeps ⟨?_, ?_⟩
            · simp [TopologyStorage.grows, hmod, hrevision, hlt]
            · rw [hinfo]
              simpa using hdiffers
      · rw [hafterRevision, hmod, hrevision]
        exact max_eq_right hle

/-- **A delete.** -/
theorem Agrees.delete {kv? : Option EtcdKeyValue} (htype : event.evtType = .delete)
    (hagrees : w.Agrees names (w.idOf event) (m.find (w.idOf event)) kv?) :
    w.Agrees names (w.idOf event) ((m.update (w.decoded event)).find (w.idOf event)) none := by
  have haction : (w.decoded event).action = .delete := by
    simp [decoded, TopologyModule.decodeEvent, htype]
  have hfind : (m.update (w.decoded event)).find (w.idOf event) =
      (m.find (w.idOf event)).filter (fun σ => σ.contextAddr ≠ w.contextAddr) :=
    TopologyModule.delete_find haction
  rw [hfind, hagrees.filter_own]
  exact .absent

/-! ## One response -/

variable {order : TopologySetOrder} {replica : Store Bytes EtcdKeyValue} {st : TopologyWatcherState}

/-- A response keeps the election, the context and the other contexts. -/
theorem Tracks.of_response (h : w.Tracks names start replica st) (body : WatchResponse)
    {replica' : Store Bytes EtcdKeyValue}
    (hagrees : ∀ id, id ≠ 0 → start.find id = none →
      w.Agrees names id ((st.handleResponse w.codec order body).mod.find id)
        (replica' (w.key (App.named names id))))
    (hown : ∀ id σ, (st.handleResponse w.codec order body).mod.find id = some σ →
      σ.contextAddr = w.contextAddr → id ≠ 0 ∧ start.find id = none) :
    w.Tracks names start replica' (st.handleResponse w.codec order body) := by
  obtain ⟨helected, haddr, hstrangers⟩ :=
    TopologyWatcherState.handleResponse_keeps w.codec order h.elected body
  rw [h.context] at hstrangers
  exact ⟨helected, haddr.trans h.context, h.strangers.trans hstrangers, hagrees, hown⟩

/-- **An event** that is newer than the value that it replaces. -/
theorem Tracks.one (h : w.Tracks names start replica st) (hevent : w.OwnEvent names start event)
    (hpos : 0 < event.revision)
    (hnewer : Newer WatchEvent.key WatchEvent.revision EtcdKeyValue.modRevision replica event) :
    w.Tracks names start (LogReplica.apply WatchEvent.key WatchEvent.value replica event)
      (st.handleResponse w.codec order { events := [event] }) := by
  have hmod : (st.handleResponse w.codec order { events := [event] }).mod =
      st.mod.update (w.decoded event) := by
    rw [TopologyWatcherState.handleResponse_event, h.context]
    exact if_neg hevent.1
  have hothers : ∀ id ≠ w.idOf event,
      (st.handleResponse w.codec order { events := [event] }).mod.find id = st.mod.find id := by
    intro id hid
    rw [hmod]
    exact TopologyModule.find_update_of_ne hid
  refine h.of_response _ ?_ ?_
  · intro id hid hstart
    by_cases heq : id = w.idOf event
    · subst heq
      have hold := h.agrees _ hid hstart
      rw [← hevent.key_eq] at hold ⊢
      rw [hmod, LogReplica.apply, Function.update_self]
      cases htype : event.evtType with
      | put =>
        have hvalue : event.value = some event.kv := by simp [WatchEvent.value, htype]
        rw [hvalue]
        exact hold.put hevent htype hpos fun kv hkv => Or.inr (hnewer kv hkv)
      | delete =>
        have hvalue : event.value = none := by simp [WatchEvent.value, htype]
        rw [hvalue]
        exact hold.delete htype
    · have hkey : event.key ≠ w.key (App.named names id) := by
        intro hkey
        exact heq (ServiceDiscoveryModule.named_of_keyPath (hkey.symm.trans hevent.key_eq))
      rw [hothers id heq, LogReplica.apply_of_ne hkey]
      exact h.agrees id hid hstart
  · intro id σ hfind hctx
    by_cases heq : id = w.idOf event
    · subst heq
      exact ⟨hevent.1, hevent.2.1⟩
    · exact h.own id σ ((hothers id heq).symm.trans hfind) hctx

/-- **The events of a watch response**, each newer than what it replaces. -/
theorem Tracks.events {events : List WatchEvent} (h : w.Tracks names start replica st)
    (hevents : ∀ e ∈ events, w.OwnEvent names start e ∧ 0 < e.revision)
    (hnewer : NewerInTurn WatchEvent.key WatchEvent.value WatchEvent.revision
      EtcdKeyValue.modRevision replica events) :
    w.Tracks names start (replay WatchEvent.key WatchEvent.value replica events)
      (st.handleResponse w.codec order { events }) := by
  rw [TopologyWatcherState.handleResponse_events]
  induction events generalizing replica st with
  | nil => exact h
  | cons e events ih =>
    obtain ⟨hfirst, hpos⟩ := hevents e List.mem_cons_self
    exact ih (h.one hfirst hpos hnewer.1) (fun e' he' => hevents e' (List.mem_cons_of_mem e he'))
      hnewer.2

/-- **A snapshot** of different keys, each at least as new as what is known of it. -/
theorem Tracks.snapshot {events : List WatchEvent} (h : w.Tracks names start replica st)
    (hevents : ∀ e ∈ events, w.OwnEvent names start e ∧ 0 < e.revision)
    (hnodup : (events.map WatchEvent.key).Nodup)
    (hnewer : ∀ e ∈ events, e.evtType = .put ∧
      ∀ kv ∈ replica e.key, kv = e.kv ∨ kv.modRevision < e.revision) :
    w.Tracks names start (replay WatchEvent.key WatchEvent.value (fun _ => none) events)
      (st.handleResponse w.codec order { snapshot := true, events }) := by
  have hids : (events.map (TopologyModule.eventId w.codec st.ctx.addr)).Nodup := by
    -- events of one id are events of one key
    refine List.pairwise_map.2 ((List.pairwise_map.1 hnodup).imp_of_mem ?_)
    intro a b ha hb hne heq
    rw [h.context] at heq
    have hid : w.idOf a = w.idOf b := heq
    refine hne ?_
    rw [(hevents a ha).1.key_eq, (hevents b hb).1.key_eq, hid]
  obtain ⟨hfound, hothers⟩ := TopologyWatcherState.handleResponse_snapshot_find w.codec order events
    h.elected
    (by
      intro id σ hfind hctx
      obtain ⟨hid, hstart⟩ := h.own id σ hfind (hctx.trans h.context)
      have hagrees := h.agrees id hid hstart
      rw [hfind] at hagrees
      obtain ⟨kv, -, hshows⟩ := hagrees.of_some
      exact hshows.info_id)
    (fun e he => h.context ▸ (hevents e he).1.1) hids
  rw [h.context] at hfound hothers
  refine h.of_response _ ?_ ?_
  · intro id hid hstart
    by_cases hmem : id ∈ events.map (TopologyModule.eventId w.codec w.contextAddr)
    · obtain ⟨e, he, rfl⟩ := List.mem_map.1 hmem
      obtain ⟨hevent, hpos⟩ := hevents e he
      obtain ⟨htype, hknown⟩ := hnewer e he
      have hold := h.agrees _ hid hstart
      have hkey : e.key = w.key (App.named names (TopologyModule.eventId w.codec w.contextAddr e)) :=
        hevent.key_eq
      have hvalue : e.value = some e.kv := by simp [WatchEvent.value, htype]
      rw [hfound e he, ← hkey, LogReplica.replay_of_mem hnodup he, hvalue]
      rw [← hkey] at hold
      exact hold.put hevent htype hpos hknown
    · have habsent : ∀ e ∈ events, e.key ≠ w.key (App.named names id) := by
        intro e he hkey
        have heq := ServiceDiscoveryModule.named_of_keyPath (hkey.symm.trans (hevents e he).1.key_eq)
        exact hmem (heq ▸ List.mem_map_of_mem he)
      rw [hothers id hmem, (h.agrees id hid hstart).filter_own, LogReplica.replay_of_absent habsent]
      exact .absent
  · intro id σ hfind hctx
    by_cases hmem : id ∈ events.map (TopologyModule.eventId w.codec w.contextAddr)
    · obtain ⟨e, he, rfl⟩ := List.mem_map.1 hmem
      exact ⟨(hevents e he).1.1, (hevents e he).1.2.1⟩
    · rw [hothers id hmem] at hfind
      obtain ⟨-, hne⟩ := Option.filter_eq_some_iff.1 hfind
      exact absurd hctx (of_decide_eq_true hne)

/-- **One effect of the watcher.** -/
theorem Tracks.effect (h : w.Tracks names start replica st) {effect : WatcherEffect}
    (hcarries : effect.Carries fun e => w.OwnEvent names start e ∧ 0 < e.revision)
    (hfresh : effect.Fresh replica) :
    w.Tracks names start (effect.applyTo replica) (st.handleEffect w.codec order effect) := by
  cases effect with
  | trunk valueJson => exact h
  | stop => exact h
  | evtHandle header response =>
    have hbody : st.handleResponse w.codec order response = st.handleResponse w.codec order
        { snapshot := response.snapshot, events := response.events } := rfl
    simp only [TopologyWatcherState.handleEffect, WatcherEffect.applyTo, hbody]
    cases hsnapshot : response.snapshot with
    | true =>
      simp only [WatcherEffect.Fresh, hsnapshot, if_true] at hfresh ⊢
      obtain ⟨hnodup, hput⟩ := hcarries.2 hsnapshot
      exact h.snapshot hcarries.1 hnodup fun e he => ⟨hput e he, hfresh e he⟩
    | false =>
      simp only [WatcherEffect.Fresh, hsnapshot, Bool.false_eq_true, if_false] at hfresh ⊢
      exact h.events hcarries.1 hfresh

/-- Where the replica is the store, the entries show exactly its values. -/
theorem Tracks.holdsStore (h : w.Tracks names start replica st)
    (hkeys : ∀ k kv, replica k = some kv →
      ∃ id, k = w.key (App.named names id) ∧ id ≠ 0 ∧ start.find id = none) :
    w.HoldsStore names st.mod replica := by
  refine ⟨?_, ?_⟩
  · intro id σ hfind hctx
    obtain ⟨hid, hstart⟩ := h.own id σ hfind hctx
    have hagrees := h.agrees id hid hstart
    rw [hfind] at hagrees
    exact hagrees.of_some
  · intro k kv hkv
    obtain ⟨id, rfl, hid, hstart⟩ := hkeys k kv hkv
    have hagrees := h.agrees id hid hstart
    rw [hkv] at hagrees
    obtain ⟨σ, hfind, hshows⟩ := hagrees.of_value
    exact ⟨id, σ, rfl, hfind, hshows⟩

/-! ## Runs -/

/-- The callback after everything that was handed over. -/
def callbackAfter (w : WatchedTopology) (order : TopologySetOrder) (watcher : TopologyWatcherState)
    (s : WatchSystem) : TopologyWatcherState :=
  s.watcher.effects.foldl (TopologyWatcherState.handleEffect w.codec order) watcher

/-- The revision of a transaction changes neither the key nor the info of an event. -/
theorem OwnEvent.commitAt (h : w.OwnEvent names start event) (revision : Int) :
    w.OwnEvent names start (event.commitAt revision) := by
  obtain ⟨hid, hstart, hevent⟩ := h
  refine ⟨hid, hstart, ?_⟩
  have hcommit := congrArg (WatchEvent.commitAt revision) hevent
  refine hcommit.trans ?_
  show _ = if event.evtType = .put then
      w.putEvent (App.named names (w.idOf event)) (event.commitAt revision).kv
    else w.deleteEvent (App.named names (w.idOf event)) (event.commitAt revision).kv
  split <;> rfl

/-- The event of a snapshot is the put that it shows. -/
theorem OwnEvent.of_put (h : w.OwnEvent names start event) (htype : event.evtType = .put) :
    w.OwnEvent names start { kv := event.kv } := by
  have hput := h.put htype
  have hkv := congrArg WatchEvent.kv hput
  have hevent : event = { kv := event.kv } :=
    hput.trans (congrArg (fun kv => ({ kv } : WatchEvent)) hkv.symm)
  rwa [← hevent]

/-- The callback follows the replica of what was handed over. -/
theorem tracks_callbackAfter {s : WatchSystem} {watcher : TopologyWatcherState}
    (hcarried : ∀ effect ∈ s.watcher.effects,
      effect.Carries fun e => w.OwnEvent names start e ∧ 0 < e.revision)
    (h : s.watcher.HandedFresh) (hstart : w.Tracks names start (fun _ => none) watcher) :
    w.Tracks names start s.watcher.replica (w.callbackAfter order watcher s) := by
  unfold EtcdWatcher.HandedFresh at h
  unfold EtcdWatcher.replica callbackAfter
  generalize s.watcher.effects = effects at h hcarried
  generalize (fun _ => none : Store Bytes EtcdKeyValue) = replica at h hstart
  induction effects generalizing replica watcher with
  | nil => exact hstart
  | cons effect effects ih =>
    obtain ⟨hfirst, hrest⟩ := List.forall_mem_cons.1 hcarried
    exact ih hrest _ h.2 (hstart.effect hfirst h.1)

/-- **The topology set is in step with the server.** Let the elected watcher of a context start
    without an entry of its own, and let every id have one name. In a run in which no header is ahead
    or behind, the entries of the other contexts never change; the entry of an id shows what the
    server has under its key as soon as all changes of the key are at most at `last_revision`; and
    whenever the watch has sent everything, the entries of the context show exactly what the server
    has. -/
theorem always_topologyInStep (order : TopologySetOrder) (w : WatchedTopology)
    (names : Nat → Bytes) (watcher : TopologyWatcherState) (helected : watcher.Elected)
    (hcontext : watcher.ctx.addr = w.contextAddr)
    (hnone : ∀ id σ, watcher.mod.find id = some σ → σ.contextAddr ≠ w.contextAddr)
    (path rangeEnd : Bytes) (startupRandomDelayMin : Int) (steps : List WatchStep)
    (h : Run.StepsMeet WatchSystem.step
      (fun st i => WatchSystem.StepCarries (w.OwnEvent names watcher.mod) st i ∧
        WatchSystem.StepFresh st i)
      (some (WatchSystem.initial path rangeEnd startupRandomDelayMin)) steps) :
    Run.Always WatchSystem.step
      (WatchSystem.IfRunning fun s =>
        let m := (w.callbackAfter order watcher s).mod
        TopologyModule.SameStrangers w.contextAddr watcher.mod m ∧
        (∀ id, id ≠ 0 → watcher.mod.find id = none →
          (∀ e ∈ s.log, e.key = w.key (App.named names id) → e.revision ≤ s.watcher.lastRevision) →
          w.Agrees names id (m.find id) (s.store (w.key (App.named names id)))) ∧
        ∀ startRevision ∈ s.watcher.watchStart, s.pending startRevision = [] →
          w.HoldsStore names m s.store)
      (some (WatchSystem.initial path rangeEnd startupRandomDelayMin)) steps := by
  have hstart : w.Tracks names watcher.mod (fun _ => none) watcher := by
    refine ⟨helected, hcontext, TopologyModule.SameStrangers.refl _, ?_, ?_⟩
    · intro id _ hfree
      rw [hfree]
      exact .absent
    · intro id σ hfind hctx
      exact absurd hctx (hnone id σ hfind)
  have hcarrying := WatchSystem.always_carrying
    (fun e => w.OwnEvent names watcher.mod e ∧ 0 < e.revision)
    (fun revision e hpos he => ⟨he.commitAt revision, hpos⟩)
    (fun e he htype => ⟨he.1.of_put htype, he.2⟩) path rangeEnd startupRandomDelayMin
    (h.mono _ fun st i hi => hi.1)
  have hhanding := WatchSystem.always_handing path rangeEnd startupRandomDelayMin
    (h.mono _ fun st i hi => ⟨hi.1.1, hi.2⟩)
  intro front hfront s hrun
  have hcarries := hcarrying front hfront s hrun
  have hs := hhanding front hfront s hrun
  have htracks : w.Tracks names watcher.mod s.watcher.replica (w.callbackAfter order watcher s) :=
    tracks_callbackAfter hcarries.carried hs.fresh hstart
  refine ⟨htracks.strangers, ?_, ?_⟩
  · intro id hid hfree hsettled
    rw [← hs.toReplicating.replicates.settled _ hsettled]
    exact htracks.agrees id hid hfree
  · intro startRevision hmem hdrained
    have hreplica := hs.toReplicating.replicates.drained startRevision hmem hdrained
    rw [← hreplica]
    refine htracks.holdsStore ?_
    intro k kv hkv
    obtain ⟨e, he, hkey, -⟩ := hs.known k kv hkv
    have hevent := (hcarries.met e he).1
    exact ⟨w.idOf e, hkey.symm.trans hevent.key_eq, hevent.1, hevent.2.1⟩

/-- The topology directory of context 5, with the infos of the histories. -/
def exampleTopology : WatchedTopology := TopologyHistory.watchedTopology TopologyHistory.renamedInfos

/-- Instance 1 is called `a`, the others `c`. -/
def exampleNames (id : Nat) : Bytes := if id = 1 then ascii "a" else ascii "c"

/-- The key of an instance is put. -/
def examplePut (id : Nat) : WatchEvent :=
  exampleTopology.putEvent (App.named exampleNames id) { value := jsonText { id, name := exampleNames id } }

/-- The key of an instance expires while the connection is lost. -/
def exampleSteps : List WatchStep :=
  [.active 1 .started, .commit [examplePut 1], .rangeDone 1 .started 1, .respond 1 .created,
   .commit [examplePut 2], .respond 2 (.events 1),
   .commit [exampleTopology.deleteEvent (App.named exampleNames 1) {}], .watchDone 1 .started ⟨28, true⟩,
   .rangeDone 1 .started 3, .respond 2 .created, .respond 3 (.events 1)]

theorem always_topologyInStep_example :
    (Run.run WatchSystem.step (some (WatchSystem.initial [] [] 0)) exampleSteps).map (fun s =>
        let m := (exampleTopology.callbackAfter TopologyHistory.entryOrder
          TopologyHistory.firstWatcher s).mod
        (s.watcher.watchStart.map s.pending, (m.find 1).isSome, (m.find 2).isSome)) =
      some (some [], false, true) ∧
    Run.Always WatchSystem.step
      (WatchSystem.IfRunning fun s =>
        let m := (exampleTopology.callbackAfter TopologyHistory.entryOrder
          TopologyHistory.firstWatcher s).mod
        TopologyModule.SameStrangers 5 TopologyHistory.firstWatcher.mod m ∧
        (∀ id, id ≠ 0 → TopologyHistory.firstWatcher.mod.find id = none →
          (∀ e ∈ s.log, e.key = exampleTopology.key (App.named exampleNames id) →
            e.revision ≤ s.watcher.lastRevision) →
          exampleTopology.Agrees exampleNames id (m.find id)
            (s.store (exampleTopology.key (App.named exampleNames id)))) ∧
        ∀ startRevision ∈ s.watcher.watchStart, s.pending startRevision = [] →
          exampleTopology.HoldsStore exampleNames m s.store)
      (some (WatchSystem.initial [] [] 0)) exampleSteps := by
  have hforeign : ∀ e ∈ TopologyHistory.firstWatcher.mod.internalTopologyInfoSet.entries,
      e.2.contextAddr ≠ 5 := by
    decide
  refine ⟨by decide +kernel, ?_⟩
  exact always_topologyInStep TopologyHistory.entryOrder exampleTopology exampleNames
    TopologyHistory.firstWatcher ⟨by decide, by decide, by decide⟩ rfl
    (fun id σ hσ => hforeign ⟨id, σ⟩ (AList.mem_lookup_iff.1 hσ)) [] [] 0 exampleSteps
    (by decide +kernel)

end WatchedTopology

end LibAtapp
