import LibAtapp.Atbus.Changes

set_option autoImplicit false

/-! # Reachable states

The induction over the callbacks. An invariant is kept by every step if it is kept by every
elementary change and by the few other changes that the callbacks make themselves; what the timer of
an entry does is left to the invariant, since the timer is gone before it is set again. -/

namespace LibAtapp.Atbus

namespace Connector

/-- A property that the changes keep, given that entries are well-formed and that only some ids lose
    their topology. -/
structure IsKept (loses : Nat → Prop) (P : Connector → Prop) : Prop where
  change : ∀ s t, s.WellFormed → P s → Change Scope.any s t → P t
  surroundings : ∀ (s : Connector) around, P s → P { s with around }
  handles : ∀ (s : Connector) privateData appReady, P s → P { s with privateData, appReady }
  clear : ∀ s : Connector, P s → P s.clearCache
  endpoints : ∀ (s : Connector) endpoints, P s → P { s with endpoints }
  active : ∀ (s : Connector) o, P s → P (s.modify o fun h => { h with isActiveConnection := true })
  resume : ∀ (s : Connector) o, P s →
    P (s.modify o fun h => { h with waitForDiscoveryToConnect := false })
  upstream : ∀ (s : Connector) o id, P s →
    P (s.modify o fun h => { h with topologyUpstreamBusId := id })
  loseTopology : ∀ (s : Connector) id o, s.WellFormed → s.find id = some o → loses id → P s →
    P (s.setHandleLostTopology o)
  findTopology : ∀ (s : Connector) o, P s → P (s.findTopology o)
  timer : ∀ (s : Connector) o, s.WellFormed → P s → P (s.onTimer o)

variable {loses : Nat → Prop} {P : Connector → Prop} {s t : Connector}

/-- The property holds, and entries are well-formed. -/
def Holds (P : Connector → Prop) (s : Connector) : Prop := s.WellFormed ∧ P s

/-- A function that makes changes keeps what every change keeps. -/
theorem Leads.keeps (hP : ∀ s t, s.WellFormed → P s → Change Scope.any s t → P t)
    (hleads : Leads Scope.any s t) (h : Holds P s) : Holds P t := by
  have hchanges := hleads h.1 (.inl trivial)
  exact hchanges.keeps
    (fun s t hchange h => ⟨hchange.wellFormed h.1, hP s t h.1 h.2 hchange⟩) h

theorem Holds.leads (hP : IsKept loses P) (h : Holds P s) (hleads : Leads Scope.any s t) :
    Holds P t :=
  hleads.keeps hP.change h

theorem Holds.changes (hP : IsKept loses P) (h : Holds P s) (hchanges : Changes Scope.any s t) :
    Holds P t :=
  h.leads hP (Leads.of_changes hchanges)

theorem tryConnectTo_leads_any (s : Connector) (id : Nat) (handle : Option Nat)
    (allowProxy : Bool) :
    Leads Scope.any s (s.tryConnectTo s.reentry id handle allowProxy).1 :=
  (tryConnectTo_leads (reentry_leads s) (.inl fun _ => trivial) (.inl trivial)).leads

theorem tryDirectReconnect_leads_any {s : Connector} {id o : Nat} (hfind : s.find id = some o) :
    Leads Scope.any s (s.tryDirectReconnect s.reentry o).1 :=
  (tryDirectReconnect_leads (reentry_leads s) hfind (.inl trivial)).leads

/-! ## The callbacks -/

theorem startConnect_holds (hP : IsKept loses P) (h : Holds P s) (id : Nat) (handle : Option Nat) :
    Holds P (s.startConnect id handle).1 := by
  have hconnect := h.leads hP (tryConnectTo_leads_any s id handle true)
  unfold startConnect
  generalize s.tryConnectTo s.reentry id handle true = connected at hconnect ⊢
  obtain ⟨t, result⟩ := connected
  cases handle with
  | none => exact hconnect
  | some a =>
    dsimp only
    cases t.find (t.privateData a) with
    | none => exact hconnect
    | some o => exact ⟨wellFormed_modify (fun _ => rfl) hconnect.1, hP.active t o hconnect.2⟩

theorem closeConnection_holds (hP : IsKept loses P) (h : Holds P s) (a : Nat) :
    Holds P (s.closeConnection a) := by
  have hclosed : Holds P { s with appReady := Function.update s.appReady a false } :=
    ⟨h.1, hP.handles s _ _ h.2⟩
  have hleads : Leads Scope.any { s with appReady := Function.update s.appReady a false }
      (s.closeConnection a) :=
    onCloseConnection_leads (reentry_leads s) _ a (Nat.lt_succ_self s.endpoints.length)
  exact hclosed.leads hP hleads

theorem onSendForwardRequest_holds (hP : IsKept loses P) (h : Holds P s) (a : Nat) :
    Holds P (s.onSendForwardRequest a) := by
  unfold onSendForwardRequest
  cases s.find (s.privateData a) with
  | none => exact ⟨h.1, hP.handles s _ _ h.2⟩
  | some o => exact h.leads hP (setHandleUnready_leads s o)

theorem onDiscoveryEvent_holds (hP : IsKept loses P) (h : Holds P s) (put : Bool) (id : Nat) :
    Holds P (s.onDiscoveryEvent put id) := by
  have hclear : Holds P s.clearCache := ⟨h.1, hP.clear s h.2⟩
  simp only [onDiscoveryEvent]
  split_ifs
  · unfold resumeHandleDiscovery
    cases hfind : s.clearCache.find id with
    | none => exact hclear
    | some o =>
      dsimp only
      split_ifs
      · have hresume : Holds P (s.clearCache.modify o fun h =>
            { h with waitForDiscoveryToConnect := false }) :=
          ⟨wellFormed_modify (fun _ => rfl) hclear.1, hP.resume _ o hclear.2⟩
        exact hresume.leads hP (tryDirectReconnect_leads_any hfind)
      · exact hclear
  · cases s.clearCache.find id with
    | none => exact hclear
    | some o => exact hclear.changes hP (setHandleWaitingDiscovery_changes _ o)

theorem removeTopologyPeer_holds (hP : IsKept loses P) (h : Holds P s) {id : Nat}
    (hid : loses id) : Holds P (s.removeTopologyPeer id) := by
  have hclear : Holds P s.clearCache := ⟨h.1, hP.clear s h.2⟩
  simp only [removeTopologyPeer]
  cases hfind : s.clearCache.find id with
  | none => exact hclear
  | some o =>
    exact ⟨wellFormed_setHandleLostTopology o hclear.1,
      hP.loseTopology _ id o hclear.1 hfind hid hclear.2⟩

theorem findTopology_wellFormed (hs : s.WellFormed) (o : Nat) : (s.findTopology o).WellFormed := by
  simp only [findTopology]
  split_ifs
  · exact wellFormed_modify (fun _ => rfl) hs
  · exact wellFormed_modify (fun _ => rfl) (wellFormed_modify (fun _ => rfl) hs)

theorem leaveProxy_leads (s : Connector) (id o : Nat) : Leads Scope.any s (s.leaveProxy id o) := by
  simp only [leaveProxy]
  split_ifs
  · exact Leads.refl s
  · cases s.find (s.objects o).proxyBusId with
    | none => exact Leads.refl s
    | some proxy =>
      dsimp only
      split_ifs
      · exact (unbindConnectionHandleProxy_leads (reentry_leads s) s o proxy).leads.trans
          (removeConnectionHandle_leads (reentry_leads _) _ _).leads
      · exact (unbindConnectionHandleProxy_leads (reentry_leads s) s o proxy).leads

theorem renewRoute_leads (s : Connector) (id upstream o : Nat) :
    Leads Scope.any s (s.renewRoute id upstream o) := by
  unfold renewRoute
  by_cases havailable : s.checkAtbusEndpointAvailable id = true
  · rw [if_pos havailable]
    exact setHandleReady_leads s o
  · rw [if_neg havailable]
    by_cases hkeep : (!s.needKeepHandle o) = true
    · rw [if_pos hkeep]
      exact (removeConnectionHandle_leads (reentry_leads s) s id).leads
    · rw [if_neg hkeep]
      split
      · rename_i proxy _
        have hbind : Leads Scope.any s (s.bindConnectionHandleProxy s.reentry o proxy) :=
          (bindConnectionHandleProxy_leads (reentry_leads s) (fun _ => trivial) s o proxy).leads
        refine hbind.trans ?_
        dsimp only
        split_ifs
        · exact setHandleReady_leads _ o
        · exact setHandleUnready_leads _ o
      · split_ifs
        · exact setHandleUnready_leads s o
        · cases s.around.discovery id with
          | none =>
            exact (Leads.of_changes (setHandleWaitingDiscovery_changes s o)).trans
              (setHandleUnready_leads _ o)
          | some gateways =>
            dsimp only
            have hconnect := tryConnectTo_leads_any s id (s.objects o).appHandle
              (s.objects o).isActiveConnection
            split_ifs
            · exact hconnect
            · refine hconnect.trans ?_
              split
              · exact Leads.refl _
              · split_ifs
                · exact (setupReconnectTimer_leads (reentry_leads _) _ _ _).leads
                · exact Leads.refl _

/-- What `update_topology_peer` does after it has found the topology of the entry. -/
theorem updateTopologyPeer_of_found (hP : IsKept loses P) {id o : Nat} (hfind : s.find id = some o)
    (hfound : Holds P (s.clearCache.findTopology o)) (upstream : Nat) :
    Holds P (s.updateTopologyPeer id upstream) := by
  have hfind' : (s.clearCache.findTopology o).find id = some o := by
    simp only [findTopology]
    split_ifs
    · exact hfind
    · exact hfind
  have hupstream : Holds P ((s.clearCache.findTopology o).modify o fun h =>
      { h with topologyUpstreamBusId := upstream }) :=
    ⟨wellFormed_modify (fun _ => rfl) hfound.1, hP.upstream _ o upstream hfound.2⟩
  simp only [updateTopologyPeer]
  rw [show s.clearCache.find id = some o from hfind]
  dsimp only
  split_ifs
  · exact hfound.leads hP (tryDirectReconnect_leads_any hfind')
  · exact hupstream
  · exact hupstream.leads hP ((leaveProxy_leads _ id o).trans (renewRoute_leads _ id upstream o))

theorem updateTopologyPeer_holds (hP : IsKept loses P) (h : Holds P s) (id upstream : Nat) :
    Holds P (s.updateTopologyPeer id upstream) := by
  have hclear : Holds P s.clearCache := ⟨h.1, hP.clear s h.2⟩
  cases hfind : s.find id with
  | none =>
    simp only [updateTopologyPeer]
    rw [show s.clearCache.find id = none from hfind]
    exact hclear
  | some o =>
    exact updateTopologyPeer_of_found hP hfind
      ⟨findTopology_wellFormed hclear.1 o, hP.findTopology _ o hclear.2⟩ upstream

theorem onUpdateEndpoint_holds (hP : IsKept loses P) (h : Holds P s) (id : Nat) (available : Bool)
    (res : Int) : Holds P (s.onUpdateEndpoint id available res) := by
  have hendpoints : Holds P { s with
      endpoints := (id, available) :: s.endpoints.filter fun endpoint => endpoint.1 ≠ id } :=
    ⟨h.1, hP.endpoints s _ h.2⟩
  simp only [onUpdateEndpoint]
  split
  · exact hendpoints
  · split_ifs
    · exact hendpoints
    · exact hendpoints
    · exact hendpoints.leads hP (setHandleReady_leads _ _)

/-- What the timer of an entry does: nothing if the entry is gone, or is ready and has its topology;
    it removes the entry at its deadline or when it has no reconnect left, waits again, or starts
    the next reconnect. -/
theorem onTimer_cases (s : Connector) (o : Nat) :
    let t := s.removeTimer o
    let h := s.objects o
    let id := h.currentBusId
    s.onTimer o = t ∧ (s.find id ≠ some o ∨ h.ready = true ∧ h.lostTopology = false) ∨
    s.find id = some o ∧
      (h.lostTopology = true ∧ h.lostTopologyTimeout ≤ s.around.sysNow ∧
          s.onTimer o = t.removeConnectionHandle t.reentry id ∨
        ¬ (h.lostTopology = true ∧ h.lostTopologyTimeout ≤ s.around.sysNow) ∧
          ((∃ timeout, s.onTimer o = t.updateTimer o timeout ∧
              (h.lostTopology = true → timeout ≤ h.lostTopologyTimeout) ∧
              (h.ready = false → s.around.sysNow < h.reconnectNextTimepoint ∧
                timeout ≤ h.reconnectNextTimepoint)) ∨
            h.ready = false ∧ h.reconnectNextTimepoint ≤ s.around.sysNow ∧
              (t.IsExceeded o ∧ s.onTimer o =
                  { t with abandoned := id :: t.abandoned }.removeConnectionHandle t.reentry id ∨
                ¬ t.IsExceeded o ∧ s.onTimer o =
                  ((t.scheduleReconnect o (deadline h)).tryDirectReconnect
                    (t.scheduleReconnect o (deadline h)).reentry o).1))) := by
  intro t h id
  by_cases hfind : t.find id ≠ some o
  · exact .inl ⟨if_pos hfind, .inl hfind⟩
  · have hfound := (if_neg hfind : s.onTimer o = _)
    have hfind' : s.find id = some o := not_not.1 hfind
    by_cases hlost : h.lostTopology = true ∧ h.lostTopologyTimeout ≤ s.around.sysNow
    · exact .inr ⟨hfind', .inl ⟨hlost.1, hlost.2, hfound.trans (if_pos hlost)⟩⟩
    · replace hfound := hfound.trans (if_neg hlost)
      by_cases hready : h.ready = true
      · replace hfound := hfound.trans (if_pos hready)
        by_cases hlost' : h.lostTopology = true
        · have hdeadline : deadline (s.objects o) = some (s.objects o).lostTopologyTimeout :=
            if_pos hlost'
          refine .inr ⟨hfind', .inr ⟨hlost, .inl ⟨_, hfound.trans (by rw [hdeadline]),
            fun _ => le_refl _, fun hnot => ?_⟩⟩⟩
          rw [hready] at hnot
          cases hnot
        · have hdeadline : deadline (s.objects o) = none := if_neg hlost'
          exact .inl ⟨hfound.trans (by rw [hdeadline]), .inr ⟨hready, by simpa using hlost'⟩⟩
      · replace hfound := hfound.trans (if_neg hready)
        have hunready : h.ready = false := by simpa using hready
        refine .inr ⟨hfind', .inr ⟨hlost, ?_⟩⟩
        by_cases hwait : s.around.sysNow < h.reconnectNextTimepoint
        · refine .inl ⟨_, hfound.trans (if_pos hwait), fun hlost' => ?_, fun _ => ⟨hwait, ?_⟩⟩
          · rw [deadline, if_pos hlost']
            exact earlierTimeout_le_previous _ _
          · exact earlierTimeout_le _ _
        · replace hfound := hfound.trans (if_neg hwait)
          refine .inr ⟨hunready, not_lt.1 hwait, ?_⟩
          by_cases hexceeded : t.IsExceeded o
          · refine .inl ⟨hexceeded, hfound.trans ?_⟩
            have hsetup : t.setupReconnectTimer t.reentry id (deadline h) = _ :=
              setupReconnectTimer_exceeded_eq (not_not.1 hfind) hexceeded _
            simp only [t, h, id] at hsetup
            rw [hsetup]
            rfl
          · refine .inr ⟨hexceeded, hfound.trans ?_⟩
            have hsetup : t.setupReconnectTimer t.reentry id (deadline h) = _ :=
              setupReconnectTimer_eq (not_not.1 hfind) hexceeded (deadline h)
            rw [hsetup]
            rfl

/-- The timer of an entry keeps what every change keeps, if its end and a new timeout do. -/
theorem onTimer_keeps (hP : ∀ s t, s.WellFormed → P s → Change Scope.any s t → P t)
    (hs : s.WellFormed) (o : Nat) (hremoved : P (s.removeTimer o))
    (hupdated : ∀ timeout, P ((s.removeTimer o).updateTimer o timeout)) :
    Holds P (s.onTimer o) := by
  have hgone : Holds P (s.removeTimer o) := ⟨wellFormed_modify (fun _ => rfl) hs, hremoved⟩
  rcases onTimer_cases s o with ⟨h, -⟩ | ⟨hfind, ⟨-, -, h⟩ | ⟨-, ⟨timeout, h, -⟩ | ⟨-, -, hnext⟩⟩⟩
  · rw [h]
    exact hgone
  · rw [h]
    exact (removeConnectionHandle_leads (reentry_leads _) _ _).leads.keeps hP hgone
  · rw [h]
    exact ⟨wellFormed_modify (fun _ => rfl) hgone.1, hupdated timeout⟩
  · rcases hnext with ⟨-, h⟩ | ⟨-, h⟩
    · rw [h]
      set t := s.removeTimer o
      have habandon : Leads Scope.any t { t with
          abandoned := (s.objects o).currentBusId :: t.abandoned } :=
        Leads.of_change (.abandon t _)
      have hremove : Leads Scope.any { t with
          abandoned := (s.objects o).currentBusId :: t.abandoned } _ :=
        removeConnectionHandle_leads (reentry_leads t) _ (s.objects o).currentBusId
          (Nat.lt_succ_self _)
      exact (habandon.trans hremove).keeps hP hgone
    · rw [h]
      have hfind' : ((s.removeTimer o).scheduleReconnect o (deadline (s.objects o))).find
          (s.objects o).currentBusId = some o := by
        rw [(scheduleReconnect_sameMap _ o _).find]
        exact hfind
      exact ((Leads.of_change (scheduleReconnect_change _ o _)).trans
        (tryDirectReconnect_leads_any hfind')).keeps hP hgone

/-- Every step keeps the property, if it is kept when a connect is remembered. -/
theorem step_holds (hP : IsKept loses P) (s : Connector) (event : Event) (h : Holds P s)
    (hloses : ∀ id, event = .removeTopologyPeer id → loses id)
    (hremember : ∀ id a (s : Connector) result, event = .startConnect id a → P s →
      P { s with lastConnect := ⟨id, some a, result⟩ }) : Holds P (step s event) := by
  cases event with
  | surroundings around => exact ⟨h.1, hP.surroundings s around h.2⟩
  | newHandle a => exact ⟨h.1, hP.handles s _ _ h.2⟩
  | startConnect id a =>
    show Holds P (s.onStartConnect id (some a)).1
    unfold onStartConnect
    split_ifs
    · exact h
    · have hstart := startConnect_holds hP h id (some a)
      exact ⟨hstart.1, hremember id a _ _ rfl hstart.2⟩
  | closeConnection a => exact closeConnection_holds hP h a
  | sendFails a => exact onSendForwardRequest_holds hP h a
  | discovery put id => exact onDiscoveryEvent_holds hP h put id
  | removeTopologyPeer id => exact removeTopologyPeer_holds hP h (hloses id rfl)
  | updateTopologyPeer id upstream => exact updateTopologyPeer_holds hP h id upstream
  | updateEndpoint id available res => exact onUpdateEndpoint_holds hP h id available res
  | removeEndpoint id =>
    have hendpoints : Holds P { s with
        endpoints := s.endpoints.filter fun endpoint => endpoint.1 ≠ id } :=
      ⟨h.1, hP.endpoints s _ h.2⟩
    exact hendpoints.leads hP (onRemoveEndpointIn_leads _ _ _ id).leads
  | timer o =>
    have hwf := onTimer_keeps (P := fun _ => True) (fun _ _ _ _ _ => trivial) h.1 o trivial
      fun _ => trivial
    exact ⟨hwf.1, hP.timer s o h.1 h.2⟩

/-- A connector without entries. -/
def initial (around : Surroundings) : Connector := { around }

/-- A state of a run. -/
def Reachable (s : Connector) : Prop :=
  ∃ around events, s = Run.run step (initial around) events

theorem Reachable.holds (hP : IsKept (fun _ => True) P) (hinitial : ∀ around, P (initial around))
    (hremember : ∀ (s : Connector) lastConnect, P s → P { s with lastConnect })
    (h : Reachable s) : Holds P s := by
  obtain ⟨around, events, rfl⟩ := h
  refine Run.invariant_all step (fun s event h => ?_) ⟨fun _ _ h => (by cases h), hinitial around⟩
    events
  exact step_holds hP s event h (fun _ _ => trivial) fun _ _ s _ _ h => hremember s _ h

theorem isKept_true : IsKept (fun _ => True) fun _ => True := by
  constructor <;> intros <;> trivial

theorem step_wellFormed (event : Event) (hs : s.WellFormed) : (step s event).WellFormed :=
  (step_holds isKept_true s event ⟨hs, trivial⟩ (fun _ _ => trivial) fun _ _ _ _ _ _ => trivial).1

theorem Reachable.wellFormed (h : Reachable s) : s.WellFormed :=
  (h.holds isKept_true (fun _ => trivial) fun _ _ _ => trivial).1

/-- The calls of every callback end by themselves: no run reaches the bound on a recursion. -/
theorem Reachable.not_exhausted (h : Reachable s) : s.exhausted = false := by
  have hchange : ∀ s t : Connector, s.WellFormed → s.exhausted = false → Change Scope.any s t →
      t.exhausted = false :=
    fun s t _ h hchange => (Changes.single hchange).exhausted.trans h
  refine (h.holds (P := fun s => s.exhausted = false) ?_ (fun _ => rfl) fun _ _ h => h).2
  constructor
  case change => exact hchange
  case timer => exact fun s o hs h => (onTimer_keeps hchange hs o h fun _ => h).2
  case loseTopology =>
    intro s id o _ _ _ h
    unfold setHandleLostTopology
    split_ifs <;> exact h
  case findTopology =>
    intro s o h
    simp only [findTopology]
    split_ifs <;> exact h
  all_goals
    intros
    assumption

/-- A run from a reachable state. -/
theorem Reachable.run (h : Reachable s) (events : List Event) : Reachable (Run.run step s events) := by
  obtain ⟨around, front, rfl⟩ := h
  exact ⟨around, front ++ events, (Run.run_append step _ front events).symm⟩

end Connector

end LibAtapp.Atbus
