import LibAtapp.Atbus.Changes

set_option autoImplicit false

/-! # Direct reconnects

A direct reconnect of an entry needs no proxy and no new entry. It leaves `handles_` and the
endpoints as they are, unless the entry has no reconnect left and is removed at the end. -/

namespace LibAtapp.Atbus

namespace Connector

variable {s t u : Connector} {id o : Nat}

/-- Changes where no entry and no endpoint comes or goes. -/
structure Quiet (s t : Connector) : Prop where
  leads : Leads Scope.inner s t
  handles : t.handles = s.handles
  endpoints : t.endpoints = s.endpoints
  abandoned : t.abandoned = s.abandoned

namespace Quiet

theorem refl (s : Connector) : Quiet s s := ⟨Leads.refl s, rfl, rfl, rfl⟩

theorem trans (h : Quiet s t) (h' : Quiet t u) : Quiet s u :=
  ⟨h.leads.trans h'.leads, h'.handles.trans h.handles, h'.endpoints.trans h.endpoints,
    h'.abandoned.trans h.abandoned⟩

theorem of_sameMap (hleads : Leads Scope.inner s t) (h : SameMap s t) : Quiet s t :=
  ⟨hleads, h.handles, h.endpoints, h.abandoned⟩

theorem find (h : Quiet s t) (id : Nat) : t.find id = s.find id := by
  unfold Connector.find
  rw [h.handles]

theorem setHandleReady (s : Connector) (o : Nat) : Quiet s (s.setHandleReady o) :=
  .of_sameMap (setHandleReady_leads s o) (setHandleReady_sameMap s o)

theorem setHandleUnready (s : Connector) (o : Nat) : Quiet s (s.setHandleUnready o) :=
  .of_sameMap (setHandleUnready_leads s o) (setHandleUnready_sameMap s o)

theorem scheduleReconnect (s : Connector) (o : Nat) (previousTimeout : Option Int) :
    Quiet s (s.scheduleReconnect o previousTimeout) :=
  .of_sameMap (Leads.of_change (scheduleReconnect_change s o previousTimeout))
    (scheduleReconnect_sameMap s o previousTimeout)

theorem connect (s : Connector) (address : Bytes) :
    Quiet s { s with connects := address :: s.connects } :=
  ⟨Leads.of_change (.connect s address trivial), rfl, rfl, rfl⟩

theorem setHandleWaitingDiscovery (s : Connector) (o : Nat) :
    Quiet s (s.setHandleWaitingDiscovery o) := by
  have hleads : Leads Scope.inner s (s.setHandleWaitingDiscovery o) :=
    Leads.of_changes (setHandleWaitingDiscovery_changes s o)
  refine ⟨hleads, ?_, ?_, ?_⟩
  all_goals
    simp only [Connector.setHandleWaitingDiscovery]
    split_ifs <;> rfl

end Quiet

/-- The end of a reconnect: the entry is there, or it was given up. -/
def ReconnectsOnly (reenter : Connector → Nat → Connector) (id : Nat) (s t : Connector) : Prop :=
  ∃ u, Quiet s u ∧
    (t = u ∨ t = { u with abandoned := id :: u.abandoned }.removeConnectionHandle reenter id)

section

variable {reenter : Connector → Nat → Connector}

theorem Quiet.reconnectsOnly (h : Quiet s t) : ReconnectsOnly reenter id s t := ⟨t, h, .inl rfl⟩

end

variable (reenter : Connector → Nat → Connector)

theorem setupReconnectTimer_cases (hfind : s.find id = some o) (previousTimeout : Option Int) :
    let next := s.setupReconnectTimer reenter id previousTimeout
    next.2 = true ∧ Quiet s next.1 ∨
      next.2 = false ∧ next.1 = { s with abandoned := id :: s.abandoned }.removeConnectionHandle
        reenter id := by
  by_cases hexceeded : s.IsExceeded o
  · rw [setupReconnectTimer_exceeded_eq hfind hexceeded]
    exact .inr ⟨rfl, rfl⟩
  · rw [setupReconnectTimer_eq hfind hexceeded]
    exact .inl ⟨rfl, .scheduleReconnect s o previousTimeout⟩

theorem mutableConnectionHandle_self (hfind : s.find id = some o) :
    s.mutableConnectionHandle id (s.objects o).appHandle = (s, o) := by
  unfold mutableConnectionHandle
  rw [hfind]
  cases happ : (s.objects o).appHandle with
  | none => rfl
  | some a =>
    dsimp only
    rw [modify_eq_self (by rw [← happ])]

theorem onStartConnectToConnectedEndpoint_quiet (hfind : s.find id = some o) :
    Quiet s (s.onStartConnectToConnectedEndpoint id (s.objects o).appHandle).1 := by
  unfold onStartConnectToConnectedEndpoint
  rw [mutableConnectionHandle_self hfind]
  dsimp only
  split_ifs
  · exact .refl s
  · exact .setHandleReady s o
  · exact .setHandleReady s o
  · exact .setHandleUnready s o
  · exact .refl s

/-- An entry that connects directly is still there if it was not given up. -/
theorem connectThrough_cases (hfind : s.find id = some o) :
    let next := s.connectThrough reenter id (s.objects o).appHandle id
    next.2.2 = true ∧ Quiet s next.1 ∨
      next.2.2 = false ∧ ReconnectsOnly reenter id s next.1 := by
  have hunready := Quiet.setHandleUnready s o
  unfold connectThrough entriesThrough
  rw [if_pos rfl, mutableConnectionHandle_self hfind]
  dsimp only
  split_ifs
  · exact .inl ⟨rfl, .setHandleReady s o⟩
  · rcases setupReconnectTimer_cases reenter ((hunready.find id).trans hfind) none
      with ⟨hkept, hquiet⟩ | ⟨hgone, heq⟩
    · exact .inl ⟨hkept, hunready.trans hquiet⟩
    · exact .inr ⟨hgone, _, hunready, .inr heq⟩
  · exact .inl ⟨rfl, hunready⟩

theorem connectThrough_reconnectsOnly (hfind : s.find id = some o) :
    ReconnectsOnly reenter id s (s.connectThrough reenter id (s.objects o).appHandle id).1 := by
  rcases connectThrough_cases reenter hfind with ⟨-, h⟩ | ⟨-, h⟩
  · exact h.reconnectsOnly
  · exact h

theorem connectTo_reconnectsOnly (hfind : s.find id = some o) (address : Bytes) :
    ReconnectsOnly reenter id s (s.connectTo reenter id (s.objects o).appHandle id address).1 := by
  have hunready := Quiet.setHandleUnready s o
  have hsetup := setupReconnectTimer_cases reenter ((hunready.find id).trans hfind) none
  unfold connectTo entriesThrough
  rw [if_pos rfl, mutableConnectionHandle_self hfind]
  dsimp only at hsetup ⊢
  split_ifs with hready hwait hkept
  · exact (Quiet.setHandleReady s o).reconnectsOnly
  · exact hunready.reconnectsOnly
  · rcases hsetup with ⟨-, hquiet⟩ | ⟨hgone, -⟩
    · exact ((hunready.trans hquiet).trans (.connect _ address)).reconnectsOnly
    · rw [hgone] at hkept
      cases hkept
  · rcases hsetup with ⟨hkept', -⟩ | ⟨-, heq⟩
    · exact absurd hkept' hkept
    · exact ⟨_, hunready, .inr heq⟩

theorem connectByCandidates_reconnectsOnly (hfind : s.find id = some o)
    (candidates : List Candidate) :
    ReconnectsOnly reenter id s
      (connectByCandidates reenter id (s.objects o).appHandle false candidates s).1 := by
  have hrefl : ReconnectsOnly reenter id s s := (Quiet.refl s).reconnectsOnly
  induction candidates with
  | nil => exact hrefl
  | cons candidate rest ih =>
      simp only [connectByCandidates]
      by_cases hforeign : (!false && decide (candidate.busId ≠ id)) = true
      · rw [if_pos hforeign]
        split_ifs
        · exact ih
        · exact hrefl
        · exact hrefl
      · have hself : candidate.busId = id := by simpa using hforeign
        rw [if_neg hforeign, hself]
        by_cases hallowed : (!candidate.isAllowed) = true
        · rw [if_pos hallowed]
          exact hrefl
        · rw [if_neg hallowed]
          by_cases hendpoint : s.hasEndpoint id = true
          · rw [if_pos hendpoint]
            exact connectThrough_reconnectsOnly reenter hfind
          · rw [if_neg hendpoint]
            cases s.around.discovery id with
            | none =>
              have hthrough := connectThrough_cases reenter hfind
              dsimp only at hthrough ⊢
              split_ifs with hkept
              · rcases hthrough with ⟨-, hquiet⟩ | ⟨hgone, -⟩
                · exact (hquiet.trans (.setHandleWaitingDiscovery _ _)).reconnectsOnly
                · rw [hgone] at hkept
                  cases hkept
              · exact connectThrough_reconnectsOnly reenter hfind
            | some gateways =>
              dsimp only
              split
              · exact connectTo_reconnectsOnly reenter hfind _
              · exact ih

/-- A reconnect of an entry leaves it in the map unless it has no reconnect left. -/
theorem tryDirectReconnect_reconnectsOnly (hs : s.WellFormed) (hfind : s.find id = some o) :
    ReconnectsOnly reenter id s (s.tryDirectReconnect reenter o).1 := by
  obtain ⟨hid, -⟩ := hs id o hfind
  have hrefl : ReconnectsOnly reenter id s s := (Quiet.refl s).reconnectsOnly
  unfold tryDirectReconnect
  dsimp only
  split_ifs with hready hlost hstream hproxy
  · exact hrefl
  · exact hrefl
  · exact hrefl
  · exact hrefl
  · exact hrefl
  · rw [hid] at hstream ⊢
    cases s.around.discovery id with
    | none =>
      have hwait : Leads Scope.inner s
          (s.modify o fun h => { h with waitForDiscoveryToConnect := true }) :=
        Leads.of_change (.waitDiscovery s o (by simpa using hproxy))
      exact (Quiet.of_sameMap hwait (modify_sameMap s o _)).reconnectsOnly
    | some gateways =>
      have hstream' : (s.around.relation id).isStream = false := by simpa using hstream
      have hdirect : ReconnectsOnly reenter id s
          (if s.allowsDirect id then s.onStartConnectToSameOrOtherUpstreamPeer reenter id
            (s.objects o).appHandle false else (s, .tryNext)).1 := by
        unfold onStartConnectToSameOrOtherUpstreamPeer
        split_ifs
        · exact hrefl
        · cases s.candidates id with
          | nil => exact hrefl
          | cons candidate rest =>
            exact connectByCandidates_reconnectsOnly reenter hfind (candidate :: rest)
        · exact hrefl
      simp only [tryConnectTo, hstream', Bool.false_eq_true, if_false, Bool.not_false, if_true]
      generalize (if s.allowsDirect id = true then s.onStartConnectToSameOrOtherUpstreamPeer reenter
        id (s.objects o).appHandle false else (s, ConnectResult.tryNext)) = direct at hdirect ⊢
      split_ifs
      · exact (onStartConnectToConnectedEndpoint_quiet hfind).reconnectsOnly
      · exact hdirect
      · exact hdirect
      · exact hdirect

end Connector

end LibAtapp.Atbus
