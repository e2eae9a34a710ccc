import LibAtapp.Modules.TopologyWatcher
import LibAtapp.Library.Run

set_option autoImplicit false

/-! # The order of topology events

The Put events of one key may be delivered late, twice and in any order. Of their three revisions
only the modify revision orders the writes of a key: the version starts at one again when the key
is deleted and created anew. `topology_update_version` takes an event for newer when any of the
three is greater than what is stored, so that an event of an earlier life of the key can replace
the newest info. The main result says in which runs the newest info wins throughout. -/

namespace LibAtapp

/-! ## The writes of a key -/

/-- A write of one key. Other keys are written in between, `gap` times. -/
inductive TopologyKeyWrite where
  | put (gap : Nat) (info : AtappTopologyInfo)
  | delete (gap : Nat)

/-- What etcd keeps of a key: the revision of its last write, the create revision and the version
    of its present life. The version is zero while the key is deleted. -/
structure EtcdKeyRevisions where
  revision : Int := 0
  createRevision : Int := 0
  version : Int := 0
  ordered : createRevision ≤ revision := by decide

namespace EtcdKeyRevisions

/-- The revisions after a Put. -/
def put (st : EtcdKeyRevisions) (gap : Nat) : EtcdKeyRevisions where
  revision := st.revision + gap + 1
  createRevision := if st.version = 0 then st.revision + gap + 1 else st.createRevision
  version := st.version + 1
  ordered := by
    have := st.ordered
    split <;> omega

/-- The revisions after a Delete. -/
def delete (st : EtcdKeyRevisions) (gap : Nat) : EtcdKeyRevisions where
  revision := st.revision + gap + 1
  createRevision := st.createRevision
  version := 0
  ordered := by
    have := st.ordered
    omega

/-- The version that an event of the last Put carries. -/
def dataVersion (st : EtcdKeyRevisions) : EtcdDataVersion where
  createRevision := st.createRevision
  modifyRevision := st.revision
  version := st.version

/-- The infos and versions that a list of writes produces. -/
def produced : EtcdKeyRevisions → List TopologyKeyWrite →
    List (AtappTopologyInfo × EtcdDataVersion)
  | _, [] => []
  | st, .put gap info :: writes => (info, (st.put gap).dataVersion) :: produced (st.put gap) writes
  | st, .delete gap :: writes => produced (st.delete gap) writes

theorem produced_after (st : EtcdKeyRevisions) (writes : List TopologyKeyWrite) :
    ∀ w ∈ st.produced writes, st.revision < w.2.modifyRevision ∧
      st.createRevision ≤ w.2.createRevision := by
  induction writes generalizing st with
  | nil => simp [produced]
  | cons write writes ih =>
    have hordered := st.ordered
    cases write with
    | put gap info =>
      intro w hw
      have hput : st.createRevision ≤ (st.put gap).createRevision := by
        simp only [put]
        split <;> omega
      have hrevision : st.revision < (st.put gap).revision := by
        simp only [put]
        omega
      rcases List.mem_cons.1 hw with rfl | hw
      · exact ⟨hrevision, hput⟩
      · have hlater := ih (st.put gap) w hw
        exact ⟨by omega, by omega⟩
    | delete gap =>
      intro w hw
      have hlater := ih (st.delete gap) w hw
      simp only [delete] at hlater
      exact ⟨by omega, hlater.2⟩

/-- Later writes have greater modify revisions and no smaller create revisions. -/
theorem produced_pairwise (st : EtcdKeyRevisions) (writes : List TopologyKeyWrite) :
    (st.produced writes).Pairwise fun a b => a.2.modifyRevision < b.2.modifyRevision ∧
      a.2.createRevision ≤ b.2.createRevision := by
  induction writes generalizing st with
  | nil => exact List.Pairwise.nil
  | cons write writes ih =>
    cases write with
    | put gap info =>
      refine List.pairwise_cons.2 ⟨fun w hw => ?_, ih (st.put gap)⟩
      exact produced_after (st.put gap) writes w hw
    | delete gap => exact ih (st.delete gap)

end EtcdKeyRevisions

/-- The Put events of the writes of one key: one context, one id. -/
def topologyPutEvents (contextAddr id : Nat) (writes : List TopologyKeyWrite) :
    List TopologyInfoT :=
  (EtcdKeyRevisions.produced {} writes).map fun w =>
    { storage := { info := { w.1 with id := id }, contextAddr := contextAddr, version := w.2 } }

/-- The event is of an earlier write. -/
def WrittenBefore (a b : TopologyInfoT) : Prop :=
  a.storage.version.modifyRevision < b.storage.version.modifyRevision ∧
    a.storage.version.createRevision ≤ b.storage.version.createRevision

section

variable {contextAddr id : Nat} {writes : List TopologyKeyWrite} {a b : TopologyInfoT}

theorem topologyPutEvents_fields (ha : a ∈ topologyPutEvents contextAddr id writes) :
    a.action = .put ∧ a.storage.contextAddr = contextAddr ∧ a.storage.info.id = id := by
  obtain ⟨w, -, rfl⟩ := List.mem_map.1 ha
  exact ⟨rfl, rfl, rfl⟩

/-- Two events of one key are the same write, or one is of an earlier write than the other. -/
theorem topologyPutEvents_trichotomy (ha : a ∈ topologyPutEvents contextAddr id writes)
    (hb : b ∈ topologyPutEvents contextAddr id writes) :
    a = b ∨ WrittenBefore a b ∨ WrittenBefore b a := by
  have hpairs : (topologyPutEvents contextAddr id writes).Pairwise fun a b =>
      WrittenBefore a b ∨ WrittenBefore b a := by
    refine List.pairwise_map.2 ?_
    exact (EtcdKeyRevisions.produced_pairwise {} writes).imp Or.inl
  have hsymm : Std.Symm fun a b => WrittenBefore a b ∨ WrittenBefore b a :=
    ⟨fun _ _ h => h.symm⟩
  by_cases hab : a = b
  · exact Or.inl hab
  · exact Or.inr (hpairs.forall ha hb hab)

end

/-! ## Runs of events -/

/-- What one event met and did: the entry of its id before and after it, and the calls. -/
structure TopologyAnswer where
  before : Option TopologyStorage
  event : TopologyInfoT
  after : Option TopologyStorage
  calls : List TopologyCall
  deriving DecidableEq

/-- The topology set and the events it has answered. -/
structure TopologyRun where
  module : TopologyModule := {}
  answers : List TopologyAnswer := []

namespace TopologyRun

/-- One event. -/
def step (st : TopologyRun) (event : TopologyInfoT) : TopologyRun :=
  let result := st.module.updateInternalWatcherEvent event
  { module := result.1
    answers := st.answers ++
      [{ before := st.module.find event.storage.info.id
         event := event
         after := result.1.find event.storage.info.id
         calls := result.2 }] }

/-- No event that is not newer than the stored entry has replaced its info or fired, and the stored
    info is that of the newest event. -/
structure NewestWins (st : TopologyRun) : Prop where
  stale : ∀ a ∈ st.answers, ∀ stored, a.before = some stored →
    a.event.storage.version.modifyRevision ≤ stored.version.modifyRevision →
    a.after.map TopologyStorage.info = some stored.info ∧ a.calls = []
  newest : ∀ a ∈ st.answers,
    (∀ b ∈ st.answers,
      b.event.storage.version.modifyRevision ≤ a.event.storage.version.modifyRevision) →
    (st.module.find a.event.storage.info.id).map TopologyStorage.info = some a.event.storage.info

/-- **The condition on an event.** An event that is not newer than the stored entry has no greater
    version, or its info compares equal to the stored one; an event that is newer and whose info
    compares equal has the same info. -/
def KeepsNewest (st : TopologyRun) (event : TopologyInfoT) : Prop :=
  ∀ stored, st.module.find event.storage.info.id = some stored →
    (event.storage.version.modifyRevision ≤ stored.version.modifyRevision →
      event.storage.version.version ≤ stored.version.version ∨
        AtappTopologyInfo.topologyEqual stored.info event.storage.info = true) ∧
    (stored.version.modifyRevision < event.storage.version.modifyRevision →
      AtappTopologyInfo.topologyEqual stored.info event.storage.info = true →
      stored.info = event.storage.info)

instance (st : TopologyRun) (event : TopologyInfoT) : Decidable (st.KeepsNewest event) :=
  match h : st.module.find event.storage.info.id with
  | none => isTrue fun stored hstored => by
      rw [h] at hstored
      cases hstored
  | some stored =>
    decidable_of_iff
      ((event.storage.version.modifyRevision ≤ stored.version.modifyRevision →
        event.storage.version.version ≤ stored.version.version ∨
          AtappTopologyInfo.topologyEqual stored.info event.storage.info = true) ∧
      (stored.version.modifyRevision < event.storage.version.modifyRevision →
        AtappTopologyInfo.topologyEqual stored.info event.storage.info = true →
        stored.info = event.storage.info))
      ⟨fun hstored stored' h' => by
          rw [h] at h'
          exact Option.some.inj h' ▸ hstored,
        fun hall => hall stored h⟩

/-! ## What the stored revisions are -/

/-- The answered events are events of the key, and the stored counters are the greatest ones that
    were delivered. -/
structure Merges (contextAddr id : Nat) (writes : List TopologyKeyWrite) (st : TopologyRun) :
    Prop where
  events : ∀ a ∈ st.answers, a.event ∈ topologyPutEvents contextAddr id writes
  empty : st.module.find id = none → st.answers = []
  context : ∀ stored, st.module.find id = some stored → stored.contextAddr = contextAddr
  bounds : ∀ stored, st.module.find id = some stored → ∀ a ∈ st.answers,
    a.event.storage.version.createRevision ≤ stored.version.createRevision ∧
      a.event.storage.version.modifyRevision ≤ stored.version.modifyRevision
  attained : ∀ stored, st.module.find id = some stored →
    ∃ a ∈ st.answers, a.event.storage.version.modifyRevision = stored.version.modifyRevision

variable {contextAddr id : Nat} {writes : List TopologyKeyWrite} {st : TopologyRun}
  {event : TopologyInfoT}

/-- An event that is not newer than the entry was not created later either. -/
theorem Merges.createRevision_le (hm : Merges contextAddr id writes st)
    (hevent : event ∈ topologyPutEvents contextAddr id writes) {stored : TopologyStorage}
    (hstored : st.module.find id = some stored)
    (hle : event.storage.version.modifyRevision ≤ stored.version.modifyRevision) :
    event.storage.version.createRevision ≤ stored.version.createRevision := by
  obtain ⟨a, ha, hattained⟩ := hm.attained stored hstored
  have hbound := (hm.bounds stored hstored a ha).1
  rcases topologyPutEvents_trichotomy hevent (hm.events a ha) with
    rfl | ⟨hlt, hcreate⟩ | ⟨hlt, hcreate⟩
  · exact hbound
  · omega
  · omega

theorem Merges.step (hm : Merges contextAddr id writes st)
    (hevent : event ∈ topologyPutEvents contextAddr id writes) :
    Merges contextAddr id writes (st.step event) := by
  obtain ⟨haction, hcontext, hid⟩ := topologyPutEvents_fields hevent
  subst hid
  have hevents : ∀ a ∈ (st.step event).answers,
      a.event ∈ topologyPutEvents contextAddr event.storage.info.id writes := by
    intro a ha
    rcases List.mem_append.1 ha with ha | ha
    · exact hm.events a ha
    · rw [List.mem_singleton.1 ha]
      exact hevent
  cases hfind : st.module.find event.storage.info.id with
  | none =>
    -- the first event
    obtain ⟨hput, -⟩ := TopologyModule.put_of_none haction hfind
    have hanswers : ∀ a ∈ (st.step event).answers, a.event = event := by
      intro a ha
      rcases List.mem_append.1 ha with ha | ha
      · rw [hm.empty hfind] at ha
        exact absurd ha List.not_mem_nil
      · rw [List.mem_singleton.1 ha]
    have hstored : ∀ stored, (st.step event).module.find event.storage.info.id = some stored →
        event.storage = stored := by
      intro stored h
      exact Option.some.inj (hput.symm.trans h)
    refine ⟨hevents, fun h => ?_, fun stored h => ?_, fun stored h a ha => ?_, fun stored h => ?_⟩
    · exact absurd (hput.symm.trans h) (Option.some_ne_none _)
    · rw [← hstored stored h]
      exact hcontext
    · rw [← hstored stored h, hanswers a ha]
      exact ⟨le_refl _, le_refl _⟩
    · refine ⟨_, List.mem_append_right _ List.mem_cons_self, ?_⟩
      rw [← hstored stored h]
  | some before =>
    obtain ⟨after, hafter, hctx, -, hcreate, hmodify, -⟩ :=
      TopologyModule.put_of_some haction hfind ((hm.context before hfind).trans hcontext.symm)
    have hstored : ∀ stored, (st.step event).module.find event.storage.info.id = some stored →
        after = stored := by
      intro stored h
      exact Option.some.inj (hafter.symm.trans h)
    refine ⟨hevents, fun h => ?_, fun stored h => ?_, fun stored h a ha => ?_, fun stored h => ?_⟩
    · exact absurd (hafter.symm.trans h) (Option.some_ne_none _)
    · rw [← hstored stored h, hctx]
      exact hm.context before hfind
    · rw [← hstored stored h, hcreate, hmodify]
      rcases List.mem_append.1 ha with ha | ha
      · have := hm.bounds before hfind a ha
        omega
      · rw [List.mem_singleton.1 ha]
        exact ⟨le_max_right _ _, le_max_right _ _⟩
    · rw [← hstored stored h, hmodify]
      by_cases hle : event.storage.version.modifyRevision ≤ before.version.modifyRevision
      · obtain ⟨a, ha, hattained⟩ := hm.attained before hfind
        refine ⟨a, List.mem_append_left _ ha, ?_⟩
        rw [hattained, max_eq_left hle]
      · refine ⟨_, List.mem_append_right _ List.mem_cons_self, ?_⟩
        rw [max_eq_right (by omega)]

/-- **One event** keeps the newest info in place exactly if it meets the condition. -/
theorem newestWins_step_iff (hm : Merges contextAddr id writes st) (hw : NewestWins st)
    (hevent : event ∈ topologyPutEvents contextAddr id writes) :
    NewestWins (st.step event) ↔ st.KeepsNewest event := by
  have hm' := hm.step hevent
  obtain ⟨haction, hcontext, hid⟩ := topologyPutEvents_fields hevent
  subst hid
  cases hfind : st.module.find event.storage.info.id with
  | none =>
    obtain ⟨hput, -⟩ := TopologyModule.put_of_none haction hfind
    have hanswers := hm.empty hfind
    refine ⟨fun _ stored h => ?_, fun _ => ⟨fun a ha stored h => ?_, fun a ha _ => ?_⟩⟩
    · rw [hfind] at h
      cases h
    · simp only [step, hanswers, List.nil_append, List.mem_singleton] at ha
      rw [ha, hfind] at h
      cases h
    · simp only [step, hanswers, List.nil_append, List.mem_singleton] at ha
      rw [ha]
      exact congrArg (Option.map TopologyStorage.info) hput
  | some stored =>
    have hctx : stored.contextAddr = event.storage.contextAddr :=
      (hm.context stored hfind).trans hcontext.symm
    obtain ⟨after, hafter, -, hinfo, -, -, hcalls⟩ :=
      TopologyModule.put_of_some haction hfind hctx
    have hlast : TopologyAnswer.mk (some stored) event (some after)
        (st.module.updateInternalWatcherEvent event).2 ∈ (st.step event).answers := by
      rw [← hfind, ← hafter]
      exact List.mem_append_right _ List.mem_cons_self
    constructor
    · intro hw' stored' hstored'
      rw [hfind] at hstored'
      obtain rfl := Option.some.inj hstored'
      refine ⟨fun hle => ?_, fun hlt hequal => ?_⟩
      · have hnot := hcalls.1 (hw'.stale _ hlast stored rfl hle).2
        by_cases hequal : AtappTopologyInfo.topologyEqual stored.info event.storage.info = true
        · exact Or.inr hequal
        · refine Or.inl (not_lt.1 fun hversion => hnot ⟨?_, by simpa using hequal⟩)
          simp [TopologyStorage.grows, hversion]
      · have hnot : ¬ TopologyModule.Replaces stored event := by
          intro h
          rw [h.2] at hequal
          exact Bool.false_ne_true hequal
        have hnewest := hw'.newest _ hlast fun b hb => ?_
        · have hsome : some after.info = some event.storage.info :=
            (congrArg (Option.map TopologyStorage.info) hafter).symm.trans hnewest
          rw [if_neg hnot] at hinfo
          rw [← hinfo]
          exact Option.some.inj hsome
        · rcases List.mem_append.1 hb with hb | hb
          · exact ((hm.bounds stored hfind b hb).2.trans_lt hlt).le
          · rw [List.mem_singleton.1 hb]
    · intro hkeeps
      obtain ⟨hstale, hnewer⟩ := hkeeps stored hfind
      -- an event that is not newer does not replace the info
      have hnot : event.storage.version.modifyRevision ≤ stored.version.modifyRevision →
          ¬ TopologyModule.Replaces stored event := by
        intro hle h
        rcases hstale hle with hversion | hequal
        · have hcreate := hm.createRevision_le hevent hfind hle
          have hgrows := h.1
          simp only [TopologyStorage.grows, gt_iff_lt, Bool.or_eq_true, decide_eq_true_eq] at hgrows
          omega
        · rw [h.2] at hequal
          exact Bool.false_ne_true hequal
      obtain ⟨top, htop, htopRevision⟩ := hm.attained stored hfind
      have htopNewest : stored.info = top.event.storage.info := by
        have hid := (topologyPutEvents_fields (hm.events top htop)).2.2
        have hnewest := hw.newest top htop fun b hb => by
          have := (hm.bounds stored hfind b hb).2
          omega
        rw [hid, hfind] at hnewest
        exact Option.some.inj hnewest
      have hmap : ((st.step event).module.find event.storage.info.id).map TopologyStorage.info =
          some after.info := congrArg (Option.map TopologyStorage.info) hafter
      refine ⟨fun a ha stored' hstored' hle => ?_, fun a ha hmax => ?_⟩
      · rcases List.mem_append.1 ha with ha | ha
        · exact hw.stale a ha stored' hstored' hle
        · rw [List.mem_singleton.1 ha] at hstored' hle ⊢
          obtain rfl := Option.some.inj (hfind.symm.trans hstored')
          rw [if_neg (hnot hle)] at hinfo
          exact ⟨hmap.trans (by rw [hinfo]), hcalls.2 (hnot hle)⟩
      · rw [(topologyPutEvents_fields (hm'.events a ha)).2.2, hmap]
        rcases List.mem_append.1 ha with ha | ha
        · -- the newest event is an earlier one
          have hevent_le : event.storage.version.modifyRevision ≤
              a.event.storage.version.modifyRevision := hmax _ (List.mem_append_right _ List.mem_cons_self)
          have ha_le := (hm.bounds stored hfind a ha).2
          have htop_le := hmax top (List.mem_append_left _ htop)
          rw [if_neg (hnot (by omega))] at hinfo
          rw [hinfo, htopNewest]
          rcases topologyPutEvents_trichotomy (hm.events a ha) (hm.events top htop) with
            heq | ⟨hlt, -⟩ | ⟨hlt, -⟩
          · rw [heq]
          · omega
          · omega
        · rw [List.mem_singleton.1 ha] at hmax ⊢
          have htop_le : top.event.storage.version.modifyRevision ≤
              event.storage.version.modifyRevision := hmax top (List.mem_append_left _ htop)
          by_cases hlt : stored.version.modifyRevision < event.storage.version.modifyRevision
          · by_cases hreplaces : TopologyModule.Replaces stored event
            · rw [hinfo, if_pos hreplaces]
            · rw [hinfo, if_neg hreplaces]
              refine congrArg some (hnewer hlt ?_)
              have hgrows : stored.grows event.storage.version = true := by
                simp [TopologyStorage.grows, hlt]
              by_contra hequal
              exact hreplaces ⟨hgrows, by simpa using hequal⟩
          · -- the newest event is delivered once more
            rw [hinfo, if_neg (hnot (by omega)), htopNewest]
            rcases topologyPutEvents_trichotomy hevent (hm.events top htop) with
              heq | ⟨hlt', -⟩ | ⟨hlt', -⟩
            · rw [heq]
            · omega
            · omega

/-- **The newest info wins.** Let a set without an entry of an id be given any Put events of one
    key with this id, late, repeated and in any order. No event that is not newer than the stored
    entry replaces it or fires, and the stored info is that of the newest event delivered so far, in
    every state passed through, if and only if every event meets the condition. -/
theorem always_newestWins_iff (contextAddr id : Nat) (writes : List TopologyKeyWrite)
    (m : TopologyModule) (hnone : m.find id = none) (events : List TopologyInfoT)
    (hevents : ∀ event ∈ events, event ∈ topologyPutEvents contextAddr id writes) :
    Run.Always step NewestWins { module := m } events ↔
      Run.StepsMeet step KeepsNewest { module := m } events := by
  have hmerges : Merges contextAddr id writes { module := m } := by
    refine ⟨fun a ha => ?_, fun _ => rfl, fun stored h => ?_, fun stored h => ?_, fun stored h => ?_⟩
    · exact absurd ha List.not_mem_nil
    · exact absurd (hnone.symm.trans h) (Option.some_ne_none stored).symm
    · exact absurd (hnone.symm.trans h) (Option.some_ne_none stored).symm
    · exact absurd (hnone.symm.trans h) (Option.some_ne_none stored).symm
  have hempty : NewestWins { module := m } :=
    ⟨fun a ha => absurd ha List.not_mem_nil, fun a ha => absurd ha List.not_mem_nil⟩
  exact Run.always_iff_stepsMeet step (fun st event hm _ hevent _ => hm.step hevent)
    (fun st event hm hw hevent => newestWins_step_iff hm hw hevent) hmerges hempty
    (Run.stepsMeet_of_mem step hevents _)

/-- A key is written twice, deleted and created anew. -/
def recreatedKey : List TopologyKeyWrite :=
  [.put 0 { name := [97] }, .put 0 { name := [97], upstreamId := 2 }, .delete 0,
    .put 0 { name := [97], upstreamId := 3 }]

/-- The event of the second life. -/
def newLifeEvent : TopologyInfoT :=
  { storage :=
      { info := { id := 1, name := [97], upstreamId := 3 }
        contextAddr := 5
        version := { createRevision := 4, modifyRevision := 4, version := 1 } } }

/-- The event of the second write of the first life. -/
def oldLifeEvent : TopologyInfoT :=
  { storage :=
      { info := { id := 1, name := [97], upstreamId := 2 }
        contextAddr := 5
        version := { createRevision := 1, modifyRevision := 2, version := 2 } } }

theorem always_newestWins_inOrder :
    Run.Always step NewestWins {} [oldLifeEvent, newLifeEvent, newLifeEvent] :=
  (always_newestWins_iff 5 1 recreatedKey {} rfl _ (by decide)).2 (by decide)

/-- The late event of the first life replaces the info of the second one. -/
theorem not_always_newestWins_late :
    (∀ event ∈ [newLifeEvent, oldLifeEvent], event ∈ topologyPutEvents 5 1 recreatedKey) ∧
      ((Run.run step {} [newLifeEvent, oldLifeEvent]).module.find 1).map TopologyStorage.info =
        some oldLifeEvent.storage.info ∧
      ¬ Run.Always step NewestWins {} [newLifeEvent, oldLifeEvent] := by
  refine ⟨by decide, by decide, fun h => ?_⟩
  have hstale := (h.last step).stale
    { before := some newLifeEvent.storage
      event := oldLifeEvent
      after := some
        { oldLifeEvent.storage with
          version := { createRevision := 4, modifyRevision := 4, version := 2 } }
      calls := [⟨.put, oldLifeEvent.storage.info, oldLifeEvent.storage.version⟩] }
    (by decide) newLifeEvent.storage rfl (by decide)
  revert hstale
  decide

end TopologyRun

end LibAtapp
