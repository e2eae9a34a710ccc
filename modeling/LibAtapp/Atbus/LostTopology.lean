import LibAtapp.Atbus.Reachable
import LibAtapp.Atbus.DirectReconnect

set_option autoImplicit false

/-! # Entries without topology

An entry that has lost its topology has a deadline, and one timer for the deadline and its
reconnects. The timer is never later than the deadline, and removes the entry there. -/

namespace LibAtapp.Atbus

namespace Connector

variable {scope : Scope} {s t : Connector} {id o : Nat}

/-! ## The timer -/

/-- A timer that is live and no later than the deadline of the entry, if it has one. -/
def IsTimed (h : ConnectionHandleData) : Prop :=
  h.lostTopology = true → ∃ pending, h.timer = some pending ∧ pending ≤ h.lostTopologyTimeout

/-- All entries but some are timed. -/
def TimedBut (but : Nat → Prop) (s : Connector) : Prop :=
  ∀ id o, s.find id = some o → ¬ but o → IsTimed (s.objects o)

theorem earlierTimer_le_pending {timer : Option Int} {pending : Int} (h : timer = some pending)
    (timeout : Int) : ∃ earlier, earlierTimer timer timeout = some earlier ∧ earlier ≤ pending := by
  subst h
  by_cases hle : pending ≤ timeout
  · exact ⟨pending, if_pos hle, le_refl _⟩
  · exact ⟨timeout, if_neg hle, (not_le.1 hle).le⟩

theorem IsTimed.earlier {h : ConnectionHandleData} (ht : IsTimed h) (timeout : Int) :
    IsTimed { h with timer := earlierTimer h.timer timeout } := by
  intro hlost
  obtain ⟨pending, hpending, hle⟩ := ht hlost
  obtain ⟨earlier, heq, hearlier⟩ := earlierTimer_le_pending hpending timeout
  exact ⟨earlier, heq, hearlier.trans hle⟩

theorem isTimed_setHandleLostTopology (h : IsTimed (s.objects o)) :
    IsTimed ((s.setHandleLostTopology o).objects o) := by
  unfold setHandleLostTopology
  split_ifs with hlost
  · exact h
  · dsimp only
    rw [updateTimer, objects_modify_self, objects_modify_self]
    intro _
    exact earlierTimer_le _ _

/-- A change of one entry that keeps it timed keeps all of them timed. -/
theorem TimedBut.modify {but : Nat → Prop} {f : ConnectionHandleData → ConnectionHandleData}
    (h : TimedBut but s) (hf : IsTimed (s.objects o) → IsTimed (f (s.objects o))) :
    TimedBut but (s.modify o f) := by
  intro id p hp hbut
  have htimed := h id p hp hbut
  rw [objects_modify]
  split_ifs with heq
  · subst heq
    exact hf htimed
  · exact htimed

theorem TimedBut.setHandleLostTopology {but : Nat → Prop} (h : TimedBut but s) (o : Nat) :
    TimedBut but (s.setHandleLostTopology o) := by
  intro id p hp hbut
  rw [(setHandleLostTopology_sameMap s o).find] at hp
  have htimed := h id p hp hbut
  by_cases heq : p = o
  · subst heq
    exact isTimed_setHandleLostTopology htimed
  · unfold Connector.setHandleLostTopology
    dsimp only
    split_ifs
    · exact htimed
    · rw [updateTimer, objects_modify_of_ne _ _ heq, objects_modify_of_ne _ _ heq]
      exact htimed

theorem TimedBut.create {but : Nat → Prop} (hs : s.WellFormed) (h : TimedBut but s) (id : Nat)
    (handle : Option Nat) : TimedBut but (s.createConnectionHandle id handle) := by
  intro id' p hp hbut
  rw [find_createConnectionHandle] at hp
  split_ifs at hp with heq
  · obtain rfl := Option.some.inj hp
    intro hlost
    simp [createConnectionHandle] at hlost
  · have hne : p ≠ s.allocated := Nat.ne_of_lt (hs id' p hp).2
    have htimed := h id' p hp hbut
    simpa [createConnectionHandle, hne] using htimed

theorem TimedBut.change {but : Nat → Prop} (hs : s.WellFormed) (h : TimedBut but s)
    (hchange : Change scope s t) : TimedBut but t := by
  cases hchange with
  | disconnect id => exact h
  | erase id => exact fun id' o ho => h id' o (find_of_find_erase ho)
  | abandon id => exact h
  | connect address hconnect => exact h
  | setProxy o id hbind => exact h.modify fun ht => ht
  | setProxyFor o ids => exact h.modify fun ht => ht
  | becomeReady o hready => exact h.modify fun ht => ht
  | becomeUnready o hready => exact h.modify fun ht => ht
  | setAppReady o ready =>
    obtain ⟨appReady, heq⟩ := setAppReady_eq s o ready
    rw [heq]
    exact h
  | dropTimer o htimer =>
    refine h.modify fun _ hlost => ?_
    rw [needTimer] at htimer
    have hlost' : (s.objects o).lostTopology = true := hlost
    simp [hlost'] at htimer
  | retry o timeout hle =>
    refine (h.modify fun ht => ht).modify fun ht => ?_
    exact ht.earlier timeout
  | waitDiscovery o hproxy => exact h.modify fun ht => ht
  | setAppHandle id o a hfind hnew => exact h.modify fun ht => ht
  | create id handle hfind hnew => exact h.create hs id handle
  | createLost id handle hfind hnew => exact (h.create hs id handle).setHandleLostTopology _

/-! ## Flags and deadlines -/

/-- The id, the flag and the deadline of every entry that there is stay. -/
def KeepsTopology (s t : Connector) : Prop :=
  s.allocated ≤ t.allocated ∧ ∀ o < s.allocated,
    (t.objects o).currentBusId = (s.objects o).currentBusId ∧
    (t.objects o).lostTopology = (s.objects o).lostTopology ∧
    (t.objects o).lostTopologyTimeout = (s.objects o).lostTopologyTimeout

theorem KeepsTopology.refl (s : Connector) : KeepsTopology s s :=
  ⟨le_refl _, fun _ _ => ⟨rfl, rfl, rfl⟩⟩

theorem KeepsTopology.modify (h : KeepsTopology s t) (p : Nat)
    {f : ConnectionHandleData → ConnectionHandleData}
    (hf : ∀ h, (f h).currentBusId = h.currentBusId ∧ (f h).lostTopology = h.lostTopology ∧
      (f h).lostTopologyTimeout = h.lostTopologyTimeout) : KeepsTopology s (t.modify p f) := by
  refine ⟨h.1, fun o ho => ?_⟩
  rw [objects_modify]
  split_ifs with heq
  · subst heq
    obtain ⟨h1, h2, h3⟩ := hf (t.objects o)
    rw [h1, h2, h3]
    exact h.2 o ho
  · exact h.2 o ho

theorem KeepsTopology.create (h : KeepsTopology s t) (id : Nat) (handle : Option Nat) :
    KeepsTopology s (t.createConnectionHandle id handle) := by
  refine ⟨h.1.trans (Nat.le_succ _), fun o ho => ?_⟩
  have hne : o ≠ t.allocated := Nat.ne_of_lt (Nat.lt_of_lt_of_le ho h.1)
  simpa [createConnectionHandle, hne] using h.2 o ho

theorem Changes.keepsTopology (h : Changes scope s t) : KeepsTopology s t := by
  refine h.relates KeepsTopology.refl ?_
  intro s t u hst hchange
  cases hchange with
  | disconnect id => exact hst
  | erase id => exact hst
  | abandon id => exact hst
  | connect address h => exact hst
  | setProxy o id h => exact hst.modify o fun _ => ⟨rfl, rfl, rfl⟩
  | setProxyFor o ids => exact hst.modify o fun _ => ⟨rfl, rfl, rfl⟩
  | becomeReady o h => exact hst.modify o fun _ => ⟨rfl, rfl, rfl⟩
  | becomeUnready o h => exact hst.modify o fun _ => ⟨rfl, rfl, rfl⟩
  | setAppReady o ready =>
    obtain ⟨appReady, h⟩ := setAppReady_eq t o ready
    rw [h]
    exact hst
  | dropTimer o h => exact hst.modify o fun _ => ⟨rfl, rfl, rfl⟩
  | retry o timeout h =>
    have hnext : KeepsTopology s (t.modify o fun h => { h with
        reconnectRetryTimes := (h.reconnectRetryTimes + 1) % 2 ^ 32
        reconnectNextTimepoint := t.runTimeout o }) :=
      hst.modify o fun _ => ⟨rfl, rfl, rfl⟩
    exact hnext.modify o fun _ => ⟨rfl, rfl, rfl⟩
  | waitDiscovery o h => exact hst.modify o fun _ => ⟨rfl, rfl, rfl⟩
  | setAppHandle id o a h hnew => exact hst.modify o fun _ => ⟨rfl, rfl, rfl⟩
  | create id handle h hnew => exact hst.create id handle
  | createLost id handle h hnew =>
    have hcreated := hst.create id handle
    refine ⟨?_, fun o ho => ?_⟩
    · rw [(setHandleLostTopology_sameMap _ _).allocated]
      exact hcreated.1
    · have hne : o ≠ t.allocated := Nat.ne_of_lt (Nat.lt_of_lt_of_le ho hst.1)
      unfold setHandleLostTopology
      dsimp only
      split_ifs
      · exact hcreated.2 o ho
      · rw [updateTimer, objects_modify_of_ne _ _ hne, objects_modify_of_ne _ _ hne]
        exact hcreated.2 o ho

/-! ## The timer of an entry -/

/-- An entry whose id is gone is not in the map, if it has kept that id. -/
theorem find_ne_of_gone (ht : t.WellFormed) (hkeeps : KeepsTopology s t) (ho : o < s.allocated)
    (hgone : t.find (s.objects o).currentBusId = none) (id : Nat) : t.find id ≠ some o := by
  intro hfind
  obtain ⟨hid, -⟩ := ht id o hfind
  rw [(hkeeps.2 o ho).1] at hid
  rw [hid, hfind] at hgone
  cases hgone

/-- Removing an entry that has lost its timer leaves the others timed. -/
theorem timedBut_removeConnectionHandle (hs : s.WellFormed)
    (hfind : s.find (s.objects o).currentBusId = some o) (h : TimedBut (· = o) s) :
    TimedBut (fun _ => False)
      (s.removeConnectionHandle s.reentry (s.objects o).currentBusId) := by
  have hleads : Leads Scope.inner s
      (s.removeConnectionHandle s.reentry (s.objects o).currentBusId) :=
    (removeConnectionHandle_leads (reentry_leads s) s _).leads
  have hchanges := hleads hs (.inl trivial)
  have htimed := hchanges.keeps (P := fun s => s.WellFormed ∧ TimedBut (· = o) s)
    (fun s t hchange h => ⟨hchange.wellFormed h.1, h.2.change h.1 hchange⟩) ⟨hs, h⟩
  have hgone : (s.removeConnectionHandle s.reentry (s.objects o).currentBusId).find
      (s.objects o).currentBusId = none :=
    removeConnectionHandle_find (reentry_leads s) (Nat.lt_succ_self _) hs _
  intro id p hp _
  refine htimed.2 id p hp fun heq => ?_
  subst heq
  exact find_ne_of_gone htimed.1 hchanges.keepsTopology (hs _ p hfind).2 hgone id hp

theorem timedBut_removeTimer (h : TimedBut (fun _ => False) s) (o : Nat) :
    TimedBut (· = o) (s.removeTimer o) := by
  intro id p hp hne
  rw [removeTimer, objects_modify_of_ne _ _ hne]
  exact h id p hp not_false

/-- Arming the timer of an entry that has lost it, no later than its deadline, has it timed. -/
theorem timedBut_of_armed {but : Nat → Prop} (h : TimedBut (· = o) s)
    (ho : IsTimed (s.objects o)) : TimedBut but s := by
  intro id p hp _
  by_cases heq : p = o
  · rw [heq]
    exact ho
  · exact h id p hp heq

theorem timedBut_onTimer (hs : s.WellFormed) (h : TimedBut (fun _ => False) s) (o : Nat) :
    TimedBut (fun _ => False) (s.onTimer o) := by
  have hgone : (s.removeTimer o).WellFormed := wellFormed_modify (fun _ => rfl) hs
  have htimed := timedBut_removeTimer h o
  have hid : ((s.removeTimer o).objects o).currentBusId = (s.objects o).currentBusId := by
    rw [removeTimer, objects_modify_self]
  rcases onTimer_cases s o with ⟨hnext, hidle⟩ | ⟨hfind, hnext⟩
  · rw [hnext]
    rcases hidle with hnone | ⟨-, hkept⟩
    · -- the entry is in the map under no id
      intro id p hp _
      refine htimed id p hp fun heq => hnone ?_
      subst heq
      rw [(hs id p hp).1]
      exact hp
    · refine timedBut_of_armed htimed fun hlost => ?_
      rw [removeTimer, objects_modify_self] at hlost
      rw [hkept] at hlost
      cases hlost
  · have hfind' : (s.removeTimer o).find ((s.removeTimer o).objects o).currentBusId = some o := by
      rw [hid]
      exact hfind
    rcases hnext with ⟨-, -, hnext⟩ | ⟨hlater, ⟨timeout, hnext, hdeadline, -⟩ |
      ⟨-, -, ⟨-, hnext⟩ | ⟨-, hnext⟩⟩⟩
    · rw [hnext, ← hid]
      exact timedBut_removeConnectionHandle hgone hfind' htimed
    · rw [hnext]
      have hother : TimedBut (· = o) ((s.removeTimer o).updateTimer o timeout) :=
        htimed.modify fun ht => ht.earlier timeout
      refine timedBut_of_armed hother fun hlost => ?_
      rw [updateTimer, objects_modify_self, removeTimer, objects_modify_self] at hlost ⊢
      exact ⟨timeout, rfl, hdeadline hlost⟩
    · rw [hnext, ← hid]
      exact timedBut_removeConnectionHandle (s := { s.removeTimer o with
        abandoned := ((s.removeTimer o).objects o).currentBusId :: s.abandoned }) hgone hfind' htimed
    · rw [hnext]
      set scheduled := (s.removeTimer o).scheduleReconnect o (deadline (s.objects o)) with heq
      have hchange : Change Scope.inner (s.removeTimer o) scheduled := scheduleReconnect_change _ o _
      have hscheduled : TimedBut (fun _ => False) scheduled := by
        refine timedBut_of_armed (htimed.change hgone hchange) fun hlost => ?_
        rw [heq, scheduleReconnect_objects, removeTimer, objects_modify_self] at hlost ⊢
        refine ⟨_, rfl, ?_⟩
        show earlierTimeout _ (deadline (s.objects o)) ≤ _
        rw [deadline, if_pos hlost]
        exact earlierTimeout_le_previous _ _
      have hfind'' : scheduled.find (s.objects o).currentBusId = some o := by
        rw [heq, (scheduleReconnect_sameMap _ o _).find]
        exact hfind
      have hreconnect := tryDirectReconnect_leads_any hfind'' (hchange.wellFormed hgone) (.inl trivial)
      exact (hreconnect.keeps (P := fun s => s.WellFormed ∧ TimedBut (fun _ => False) s)
        (fun s t hchange h => ⟨hchange.wellFormed h.1, h.2.change h.1 hchange⟩)
        ⟨hchange.wellFormed hgone, hscheduled⟩).2

theorem timedBut_findTopology (h : TimedBut (fun _ => False) s) (o : Nat) :
    TimedBut (fun _ => False) (s.findTopology o) := by
  have hfound : TimedBut (fun _ => False)
      (s.modify o fun h => { h with lostTopology := false, lostTopologyTimeout := 0 }) :=
    h.modify fun _ hlost => by cases hlost
  simp only [findTopology]
  split_ifs with htimer
  · exact hfound
  · refine hfound.modify fun _ hlost => ?_
    rw [objects_modify_self] at hlost
    cases hlost

theorem timedBut_isKept : IsKept (fun _ => True) (TimedBut fun _ => False) where
  change := fun _ _ hs h hchange => h.change hs hchange
  surroundings := fun _ _ h => h
  handles := fun _ _ _ h => h
  clear := fun _ h => h
  endpoints := fun _ _ h => h
  active := fun _ _ h => h.modify fun ht => ht
  resume := fun _ _ h => h.modify fun ht => ht
  upstream := fun _ _ _ h => h.modify fun ht => ht
  loseTopology := fun _ _ o _ _ _ h => h.setHandleLostTopology o
  findTopology := fun _ o h => timedBut_findTopology h o
  timer := fun _ o hs h => timedBut_onTimer hs h o

/-- In every reachable state an entry without topology has a live timer that is no later than its
    deadline. -/
theorem Reachable.isTimed (hs : Reachable s) (hfind : s.find id = some o) :
    IsTimed (s.objects o) :=
  (hs.holds timedBut_isKept (fun _ _ _ h => by cases h) fun _ _ h => h).2 id o hfind not_false

/-! ## Removal at the deadline -/

/-- The id was given up since a state because it has no reconnect left. -/
def HasAbandoned (s t : Connector) (id : Nat) : Prop := (id :: s.abandoned) <:+ t.abandoned

/-- An entry stays where it is, or its id was given up. -/
def StaysOrAbandoned (s t : Connector) (id : Nat) : Prop :=
  t.find id = s.find id ∨ HasAbandoned s t id

theorem StaysOrAbandoned.of_sameMap (h : SameMap s t) : StaysOrAbandoned s t id := .inl (h.find id)

theorem StaysOrAbandoned.after_sameMap {u : Connector} (h' : StaysOrAbandoned t u id)
    (h : SameMap s t) : StaysOrAbandoned s u id := by
  refine h'.imp (fun h' => h'.trans (h.find id)) fun h' => ?_
  unfold HasAbandoned at h' ⊢
  rw [← h.abandoned]
  exact h'

/-- A reconnect of an entry leaves it in the map unless it has no reconnect left. -/
theorem tryDirectReconnect_stays (hs : s.WellFormed) (hfind : s.find id = some o) :
    StaysOrAbandoned s (s.tryDirectReconnect s.reentry o).1 id := by
  obtain ⟨t, hquiet, hnext⟩ := tryDirectReconnect_reconnectsOnly s.reentry hs hfind
  rcases hnext with hkept | hgone
  · rw [hkept]
    exact .inl (hquiet.find id)
  · rw [hgone]
    right
    have hremoved : Leads Scope.inner { t with abandoned := id :: t.abandoned } _ :=
      removeConnectionHandle_leads (reentry_leads s) _ id (by
        show t.endpoints.length < _
        rw [hquiet.endpoints]
        exact Nat.lt_succ_self _)
    have habandoned := (hremoved (hquiet.leads.wellFormed hs) (.inl trivial)).abandoned
    unfold HasAbandoned
    rw [← hquiet.abandoned]
    exact habandoned

/-- The timer of an entry removes it at its deadline. -/
theorem onTimer_find_none (hs : s.WellFormed) (hfind : s.find id = some o)
    (hlost : (s.objects o).lostTopology = true)
    (hdue : (s.objects o).lostTopologyTimeout ≤ s.around.sysNow) : (s.onTimer o).find id = none := by
  obtain ⟨hid, -⟩ := hs id o hfind
  have hgone : (s.removeTimer o).WellFormed := wellFormed_modify (fun _ => rfl) hs
  rw [← hid] at hfind ⊢
  have hnext : s.onTimer o = _ := (if_neg (not_not_intro hfind)).trans (if_pos ⟨hlost, hdue⟩)
  rw [hnext]
  exact removeConnectionHandle_find (reentry_leads _) (Nat.lt_succ_self _) hgone _

/-- Where the entry has its topology or its deadline is yet to come, the timer leaves it unless it
    has no reconnect left. -/
theorem onTimer_stays (hs : s.WellFormed) (hfind : s.find id = some o)
    (hlater : ¬ ((s.objects o).lostTopology = true ∧
      (s.objects o).lostTopologyTimeout ≤ s.around.sysNow)) :
    (s.onTimer o).find id = some o ∨ HasAbandoned s (s.onTimer o) id := by
  obtain ⟨hid, -⟩ := hs id o hfind
  have hgone : (s.removeTimer o).WellFormed := wellFormed_modify (fun _ => rfl) hs
  have hsame : SameMap s (s.removeTimer o) := modify_sameMap s o _
  suffices h : StaysOrAbandoned s (s.onTimer o) id from h.imp_left fun h => h.trans hfind
  rcases onTimer_cases s o with ⟨hnext, -⟩ | ⟨-, ⟨hlost, hdue, -⟩ | ⟨-, ⟨timeout, hnext, -⟩ |
    ⟨-, -, ⟨hexceeded, hnext⟩ | ⟨-, hnext⟩⟩⟩⟩
  · rw [hnext]
    exact .of_sameMap hsame
  · exact absurd ⟨hlost, hdue⟩ hlater
  · rw [hnext]
    exact .of_sameMap (hsame.trans (modify_sameMap _ o _))
  · rw [hnext, hid]
    right
    have hleads : Leads Scope.inner { s.removeTimer o with
        abandoned := id :: (s.removeTimer o).abandoned } _ :=
      removeConnectionHandle_leads (reentry_leads (s.removeTimer o)) _ id (Nat.lt_succ_self _)
    exact (hleads hgone (.inl trivial)).abandoned
  · rw [hnext]
    have hscheduled := scheduleReconnect_sameMap (s.removeTimer o) o (deadline (s.objects o))
    have hfind' := ((hsame.trans hscheduled).find id).trans hfind
    have hwf := (scheduleReconnect_change (s.removeTimer o) o (deadline (s.objects o)) :
      Change Scope.inner _ _).wellFormed hgone
    exact (tryDirectReconnect_stays hwf hfind').after_sameMap (hsame.trans hscheduled)

/-! ## A topology that came back -/

/-- The entry of an id has its topology. -/
def HasTopology (id o : Nat) (s : Connector) : Prop :=
  o < s.allocated ∧ (s.objects o).currentBusId = id ∧ (s.objects o).lostTopology = false

theorem HasTopology.keeps (h : HasTopology id o s) (hkeeps : KeepsTopology s t) :
    HasTopology id o t := by
  obtain ⟨hlt, hid, hkept⟩ := h
  obtain ⟨hid', hkept', -⟩ := hkeeps.2 o hlt
  exact ⟨Nat.lt_of_lt_of_le hlt hkeeps.1, hid'.trans hid, hkept'.trans hkept⟩

theorem hasTopology_onTimer (hs : s.WellFormed) (h : HasTopology id o s) (p : Nat) :
    HasTopology id o (s.onTimer p) := by
  have hremoved : KeepsTopology s (s.removeTimer p) :=
    (KeepsTopology.refl s).modify p fun _ => ⟨rfl, rfl, rfl⟩
  exact (onTimer_keeps (fun _ _ _ h hchange => h.keeps (Changes.single hchange).keepsTopology) hs p
    (h.keeps hremoved)
    fun _ => h.keeps (hremoved.modify p fun _ => ⟨rfl, rfl, rfl⟩)).2

theorem HasTopology.modify (h : HasTopology id o s) (p : Nat)
    {f : ConnectionHandleData → ConnectionHandleData}
    (hf : ∀ h, (f h).currentBusId = h.currentBusId ∧
      ((f h).lostTopology = h.lostTopology ∨ (f h).lostTopology = false)) :
    HasTopology id o (s.modify p f) := by
  obtain ⟨hlt, hid, hkept⟩ := h
  refine ⟨hlt, ?_⟩
  rw [objects_modify]
  split_ifs with heq
  · subst heq
    obtain ⟨hid', hkept'⟩ := hf (s.objects o)
    refine ⟨hid'.trans hid, ?_⟩
    rcases hkept' with h | h
    · exact h.trans hkept
    · exact h
  · exact ⟨hid, hkept⟩

/-- The topology of an entry is lost only by the removal of its own peer. -/
theorem hasTopology_isKept (id o : Nat) : IsKept (· ≠ id) (HasTopology id o) where
  change := fun _ _ _ h hchange => h.keeps (Changes.single hchange).keepsTopology
  surroundings := fun _ _ h => h
  handles := fun _ _ _ h => h
  clear := fun _ h => h
  endpoints := fun _ _ h => h
  active := fun _ p h => h.modify p fun _ => ⟨rfl, .inl rfl⟩
  resume := fun _ p h => h.modify p fun _ => ⟨rfl, .inl rfl⟩
  upstream := fun _ p _ h => h.modify p fun _ => ⟨rfl, .inl rfl⟩
  loseTopology := by
    intro s id' p hs hfind hne h
    have hother : o ≠ p := by
      rintro rfl
      exact hne ((hs id' o hfind).1.symm.trans h.2.1)
    unfold setHandleLostTopology
    dsimp only
    split_ifs
    · exact h
    · obtain ⟨hlt, hid, hkept⟩ := h
      refine ⟨hlt, ?_⟩
      rw [updateTimer, objects_modify_of_ne _ _ hother, objects_modify_of_ne _ _ hother]
      exact ⟨hid, hkept⟩
  findTopology := by
    intro s p h
    have hfound : HasTopology id o (s.modify p fun h =>
        { h with lostTopology := false, lostTopologyTimeout := 0 }) :=
      h.modify p fun _ => ⟨rfl, .inr rfl⟩
    simp only [findTopology]
    split_ifs
    · exact hfound
    · exact hfound.modify p fun _ => ⟨rfl, .inl rfl⟩
  timer := fun _ p hs h => hasTopology_onTimer hs h p

theorem hasTopology_updateTopologyPeer (hs : s.WellFormed) (hfind : s.find id = some o)
    (upstream : Nat) : HasTopology id o (s.updateTopologyPeer id upstream) := by
  obtain ⟨hid, hlt⟩ := hs id o hfind
  have hclear : s.clearCache.WellFormed := hs
  refine (updateTopologyPeer_of_found (hasTopology_isKept id o) hfind
    ⟨findTopology_wellFormed hclear o, ?_⟩ upstream).2
  have hfound : HasTopology id o (s.clearCache.modify o fun h =>
      { h with lostTopology := false, lostTopologyTimeout := 0 }) := by
    refine ⟨hlt, ?_, ?_⟩
    · rw [objects_modify_self]
      exact hid
    · rw [objects_modify_self]
  simp only [findTopology]
  split_ifs
  · exact hfound
  · exact hfound.modify o fun _ => ⟨rfl, .inl rfl⟩

/-- An entry without topology has a live timer no later than its deadline, which removes it there.
    No update makes a live timer later, a timer before the deadline or of an entry with topology
    leaves the entry unless it has no reconnect left, and an entry whose topology came back has it
    until its peer is removed again. -/
theorem lostTopology_deadline (hs : Reachable s) (hfind : s.find id = some o) :
    ((s.objects o).lostTopology = true →
      (∃ pending, (s.objects o).timer = some pending ∧
        pending ≤ (s.objects o).lostTopologyTimeout) ∧
      ((s.objects o).lostTopologyTimeout ≤ s.around.sysNow → (s.onTimer o).find id = none)) ∧
    (∀ timeout pending, (s.objects o).timer = some pending →
      ∃ earlier, ((s.updateTimer o timeout).objects o).timer = some earlier ∧ earlier ≤ pending) ∧
    (¬ ((s.objects o).lostTopology = true ∧ (s.objects o).lostTopologyTimeout ≤ s.around.sysNow) →
      (s.onTimer o).find id = some o ∨ HasAbandoned s (s.onTimer o) id) ∧
    (∀ upstream events, (∀ event ∈ events, event ≠ .removeTopologyPeer id) →
      let t := Run.run step s (.updateTopologyPeer id upstream :: events)
      (t.objects o).lostTopology = false ∧
        (t.find id = some o → (t.onTimer o).find id = some o ∨ HasAbandoned t (t.onTimer o) id)) := by
  refine ⟨fun hlost => ⟨hs.isTimed hfind hlost, onTimer_find_none hs.wellFormed hfind hlost⟩, ?_,
    onTimer_stays hs.wellFormed hfind, ?_⟩
  · intro timeout pending hpending
    rw [updateTimer, objects_modify_self]
    exact earlierTimer_le_pending hpending timeout
  · intro upstream events hevents t
    have hreachable : Reachable t := hs.run _
    have hback : Holds (HasTopology id o) (s.updateTopologyPeer id upstream) :=
      ⟨(hs.run [.updateTopologyPeer id upstream]).wellFormed,
        hasTopology_updateTopologyPeer hs.wellFormed hfind upstream⟩
    have hkept : Holds (HasTopology id o) t := by
      have hmeet : Run.StepsMeet step (fun _ event => event ≠ .removeTopologyPeer id)
          (s.updateTopologyPeer id upstream) events :=
        Run.stepsMeet_of_mem step hevents _
      show Holds _ (Run.run step (s.updateTopologyPeer id upstream) events)
      refine Run.invariant step (fun s event h hne => ?_) hback hmeet
      refine step_holds (hasTopology_isKept id o) s event h (fun id' heq => ?_)
        fun _ _ _ _ _ h => h
      rintro rfl
      exact hne heq
    refine ⟨hkept.2.2.2, fun hfind' => onTimer_stays hreachable.wellFormed hfind' ?_⟩
    rw [hkept.2.2.2]
    simp

/-- What is around the connection to a node that is not in the topology. -/
def outsideTopology (now : Int) : Surroundings where
  sysNow := now
  conf := {}
  nodeId := 1
  upstreamEndpoint := none
  relation := fun _ => .invalid
  nextHop := fun _ => none
  peers := fun _ => []
  discovery := fun _ => some [⟨[65], true, true⟩]
  pendingMessageCount := fun _ => none

/-- The connection to a node that has no topology yet, at the time 0. -/
def unknownNode : Connector :=
  Run.run step (initial (outsideTopology 0)) [.newHandle 1, .startConnect 7 1]

/-- The same connection at a later time, after other steps. -/
def unknownNodeAt (now : Int) (events : List Event) : Connector :=
  Run.run step unknownNode (events ++ [.surroundings (outsideTopology now)])

/-- The timer of the node fires before the deadline, at it, and after the topology has come. -/
theorem lostTopology_deadline_unknownNode :
    (∃ pending, (unknownNode.objects 0).timer = some pending ∧
      pending ≤ (unknownNode.objects 0).lostTopologyTimeout) ∧
    (∃ earlier, ((unknownNode.updateTimer 0 60000000000).objects 0).timer = some earlier ∧
      earlier ≤ 8000000000) ∧
    (((unknownNodeAt 8000000000 []).onTimer 0).find 7 = some 0 ∨
      HasAbandoned (unknownNodeAt 8000000000 []) ((unknownNodeAt 8000000000 []).onTimer 0) 7) ∧
    ((unknownNodeAt 120000000000 []).onTimer 0).find 7 = none ∧
    let back := unknownNodeAt 120000000000 [.updateTopologyPeer 7 2]
    (back.objects 0).lostTopology = false ∧ (back.find 7 = some 0 →
      (back.onTimer 0).find 7 = some 0 ∨ HasAbandoned back (back.onTimer 0) 7) := by
  have hreachable : ∀ events, Reachable (Run.run step unknownNode events) := fun events =>
    Reachable.run ⟨outsideTopology 0, _, rfl⟩ events
  obtain ⟨hlost, hearlier, -, hback⟩ :=
    lostTopology_deadline (hreachable []) (show unknownNode.find 7 = some 0 from rfl)
  obtain ⟨-, -, hstays, -⟩ := lostTopology_deadline (hreachable _)
    (show (unknownNodeAt 8000000000 []).find 7 = some 0 from rfl)
  obtain ⟨hgone, -, -, -⟩ := lostTopology_deadline (hreachable _)
    (show (unknownNodeAt 120000000000 []).find 7 = some 0 from rfl)
  exact ⟨(hlost rfl).1, hearlier _ _ rfl, hstays (by decide), (hgone rfl).2 (by decide),
    hback 2 [.surroundings (outsideTopology 120000000000)] (by simp)⟩

end Connector

end LibAtapp.Atbus
