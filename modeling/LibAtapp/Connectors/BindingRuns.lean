import LibAtapp.Connectors.HandleRuns

set_option autoImplicit false

/-! # Every run of the endpoint side of the app

The agreement of the bindings as a property of runs: it holds in every state of a run exactly if
every step meets `ReleasesBindings`, which is a condition on the flags and pointers of the handles
that the step may destroy. -/

namespace LibAtapp.Connectors.App

open BackRef

variable {env : Environment} {s : App} {h : HandlePtr} {e : EndpointPtr} {c : ConnectorPtr}

/-! ## New objects -/

/-- Pointers that have not been given out yet name nothing. -/
structure Fresh (s : App) : Prop where
  handle : ∀ h, s.handleCount ≤ h → (s.handle h).alive = false
  endpoint : ∀ e, s.endpointCount ≤ e →
    (s.endpoint e).alive = false ∧ (s.endpoint e).referConnections = []

/-- No handle comes to life, no endpoint that does not live gets a handle. -/
structure NothingNew (s t : App) : Prop where
  handleCount : t.handleCount = s.handleCount
  endpointCount : t.endpointCount = s.endpointCount
  handle : ∀ h, (s.handle h).alive = false → (t.handle h).alive = false
  endpoint : ∀ e, (t.endpoint e).alive = true → (s.endpoint e).alive = true
  refer : ∀ e h, h ∈ (t.endpoint e).referConnections → h ∈ (s.endpoint e).referConnections

theorem NothingNew.refl (s : App) : NothingNew s s :=
  ⟨rfl, rfl, fun _ => id, fun _ => id, fun _ _ => id⟩

theorem NothingNew.trans {t u : App} (hst : NothingNew s t) (htu : NothingNew t u) :
    NothingNew s u where
  handleCount := htu.handleCount.trans hst.handleCount
  endpointCount := htu.endpointCount.trans hst.endpointCount
  handle := fun h hdead => htu.handle h (hst.handle h hdead)
  endpoint := fun e halive => hst.endpoint e (htu.endpoint e halive)
  refer := fun e h hmem => hst.refer e h (htu.refer e h hmem)

theorem Fresh.of_nothingNew {t : App} (hs : Fresh s) (hst : NothingNew s t) : Fresh t where
  handle := by
    intro h hh
    rw [hst.handleCount] at hh
    exact hst.handle h (hs.handle h hh)
  endpoint := by
    intro e he
    rw [hst.endpointCount] at he
    obtain ⟨hdead, hempty⟩ := hs.endpoint e he
    constructor
    · rw [← Bool.not_eq_true]
      intro halive
      rw [hst.endpoint e halive] at hdead
      exact absurd hdead (by decide)
    · refine List.eq_nil_iff_forall_not_mem.2 fun h hmem => ?_
      have hold := hst.refer e h hmem
      rw [hempty] at hold
      exact absurd hold List.not_mem_nil

theorem nothingNew_modifyHandle {f : AtappConnectionHandle → AtappConnectionHandle}
    (hf : (s.handle h).alive = false → (f (s.handle h)).alive = false) :
    NothingNew s (s.modifyHandle h f) where
  handleCount := rfl
  endpointCount := rfl
  handle := by
    intro h' hdead
    rw [handle_modifyHandle]
    split
    · next heq => exact hf (heq ▸ hdead)
    · exact hdead
  endpoint := fun _ => id
  refer := fun _ _ => id

theorem nothingNew_modifyEndpoint {f : AtappEndpoint → AtappEndpoint}
    (halive : (f (s.endpoint e)).alive = true → (s.endpoint e).alive = true)
    (hrefer : ∀ h ∈ (f (s.endpoint e)).referConnections, h ∈ (s.endpoint e).referConnections) :
    NothingNew s (s.modifyEndpoint e f) where
  handleCount := rfl
  endpointCount := rfl
  handle := fun _ => id
  endpoint := by
    intro e' he'
    rw [endpoint_modifyEndpoint] at he'
    split at he'
    · next heq => exact heq ▸ halive he'
    · exact he'
  refer := by
    intro e' h hmem
    rw [endpoint_modifyEndpoint] at hmem
    split at hmem
    · next heq => exact heq ▸ hrefer h hmem
    · exact hmem

theorem nothingNew_addWaker (s : App) (e : EndpointPtr) (t : Int) :
    NothingNew s (s.addWaker e t) := by
  obtain ⟨heq, -⟩ | ⟨-, -, waker, -, -, heq⟩ := s.addWaker_cases e t
  · rw [heq]
    exact NothingNew.refl s
  · rw [heq]
    have hwaker : NothingNew s { s with endpointWaker := waker } :=
      ⟨rfl, rfl, fun _ => id, fun _ => id, fun _ _ => id⟩
    exact hwaker.trans (nothingNew_modifyEndpoint (s := { s with endpointWaker := waker })
      (f := fun ep => { ep with nearestWaker := t }) id (fun _ => id))

theorem QueueUpdate.nothingNew {t : App} (h : QueueUpdate s t) : NothingNew s t := by
  cases h with
  | record event => exact ⟨rfl, rfl, fun _ => id, fun _ => id, fun _ _ => id⟩
  | count n => exact ⟨rfl, rfl, fun _ => id, fun _ => id, fun _ _ => id⟩
  | queue e messages size => exact nothingNew_modifyEndpoint id (fun _ => id)
  | disarm e => exact nothingNew_modifyEndpoint id (fun _ => id)
  | unready h => exact nothingNew_modifyHandle id
  | wake e time => exact nothingNew_addWaker _ e time

theorem nothingNew_dropRefer (s : App) (h : HandlePtr) (e : EndpointPtr) :
    NothingNew s (s.dropRefer h e) := by
  unfold dropRefer
  split
  · dsimp only
    have hfilter : NothingNew s (s.modifyEndpoint e fun ep =>
        { ep with referConnections := ep.referConnections.filter (· ≠ h) }) :=
      nothingNew_modifyEndpoint id fun _ hmem => (List.mem_filter.1 hmem).1
    split
    · refine hfilter.trans (NothingNew.trans ?_ (nothingNew_addWaker _ e _))
      exact nothingNew_modifyEndpoint id (fun _ => id)
    · exact hfilter
  · exact NothingNew.refl s

theorem UnbindUpdate.nothingNew {t : App} (h : UnbindUpdate s t) : NothingNew s t := by
  cases h with
  | markClosing h => exact nothingNew_modifyHandle id
  | clearEndpoint h => exact nothingNew_modifyHandle id
  | clearConnector h => exact nothingNew_modifyHandle id
  | destroyed h => exact nothingNew_modifyHandle fun _ => rfl
  | dropRefer h e => exact nothingNew_dropRefer _ h e
  | eraseHandle h c => exact ⟨rfl, rfl, fun _ => id, fun _ => id, fun _ _ => id⟩
  | emptyRefer e =>
    exact nothingNew_modifyEndpoint id fun _ hmem => absurd hmem List.not_mem_nil
  | emptyHandles c => exact ⟨rfl, rfl, fun _ => id, fun _ => id, fun _ _ => id⟩
  | closingFlag e flag => exact nothingNew_modifyEndpoint id (fun _ => id)

theorem Settles.nothingNew {t : App} (h : Settles s t) : NothingNew s t :=
  h.keeps (p := NothingNew s) (fun _ _ hupdate ht => ht.trans hupdate.nothingNew)
    (fun _ _ hupdate ht => ht.trans hupdate.nothingNew) (NothingNew.refl s)

/-! ## The compound operations -/

/-- An index entry concerns neither objects nor bindings. -/
theorem nothingNew_setIndexById (s : App) (id : Nat) (entry : Option EndpointPtr) :
    NothingNew s (s.setIndexById id entry) :=
  ⟨rfl, rfl, fun _ h => h, fun _ h => h, fun _ _ h => h⟩

theorem nothingNew_setIndexByName (s : App) (name : Bytes) (entry : Option EndpointPtr) :
    NothingNew s (s.setIndexByName name entry) :=
  ⟨rfl, rfl, fun _ h => h, fun _ h => h, fun _ _ h => h⟩

/-- Both sides agree, and what is new is unused. -/
structure Consistent (s : App) : Prop where
  linked : BothLinked s
  fresh : Fresh s

theorem Consistent.settles_of {t : App} (hs : Consistent s) (hst : NothingNew s t)
    (ht : BothLinked t) : Consistent t :=
  ⟨ht, hs.fresh.of_nothingNew hst⟩

theorem Consistent.resetEndpoint (hs : Consistent s) : Consistent (s.resetEndpoint env e) :=
  hs.settles_of (settles_resetEndpoint env s e).nothingNew hs.linked.resetEndpoint

theorem Consistent.setIndexById (hs : Consistent s) (id : Nat) (entry : Option EndpointPtr) :
    Consistent (s.setIndexById id entry) :=
  hs.settles_of (nothingNew_setIndexById s id entry)
    (hs.linked.congr rfl (fun _ => rfl) (fun _ => rfl))

theorem Consistent.setIndexByName (hs : Consistent s) (name : Bytes)
    (entry : Option EndpointPtr) : Consistent (s.setIndexByName name entry) :=
  hs.settles_of (nothingNew_setIndexByName s name entry)
    (hs.linked.congr rfl (fun _ => rfl) (fun _ => rfl))

theorem Consistent.eraseIdOf (hs : Consistent s) (id : Nat) : Consistent (s.eraseIdOf e id) := by
  unfold App.eraseIdOf
  split
  · exact hs.setIndexById id none
  · exact hs

theorem Consistent.eraseNameOf (hs : Consistent s) (name : Bytes) :
    Consistent (s.eraseNameOf e name) := by
  unfold App.eraseNameOf
  split
  · exact hs.setIndexByName name none
  · exact hs

theorem Consistent.removeEndpointById (hs : Consistent s) (id : Nat) :
    Consistent (s.removeEndpointById env id) := by
  unfold App.removeEndpointById
  split
  · exact hs
  · exact ((hs.setIndexById id none).eraseNameOf _).resetEndpoint

theorem Consistent.removeEndpointByName (hs : Consistent s) (name : Bytes) :
    Consistent (s.removeEndpointByName env name) := by
  unfold App.removeEndpointByName
  split
  · exact hs
  · exact ((hs.setIndexByName name none).eraseIdOf _).resetEndpoint

theorem Consistent.removeEndpoint (hs : Consistent s) : Consistent (s.removeEndpoint env e) :=
  ((hs.eraseIdOf _).eraseNameOf _).resetEndpoint

theorem Consistent.queues {t : App} (hs : Consistent s) (h : Queues s t) : Consistent t :=
  hs.settles_of h.settles.nothingNew (hs.linked.queues h)

theorem Consistent.addWaker (hs : Consistent s) (t : Int) : Consistent (s.addWaker e t) :=
  hs.settles_of (nothingNew_addWaker s e t) (hs.linked.addWaker t)

theorem Consistent.eraseWaker (hs : Consistent s) (key : WakerKey) :
    Consistent (s.eraseWaker key) :=
  hs.settles_of ⟨rfl, rfl, fun _ h => h, fun _ h => h, fun _ _ h => h⟩
    (hs.linked.congr rfl (fun _ => rfl) (fun _ => rfl))

theorem Consistent.wakeEndpoint (hs : Consistent s) : Consistent (s.wakeEndpoint env e) := by
  have hretry : Consistent
      (s.retryPendingMessages env e s.lastTickTimepoint s.conf.loopTimes).1 :=
    hs.queues (queues_retryPendingMessages s.lastTickTimepoint s.conf.loopTimes)
  unfold App.wakeEndpoint recycle
  split
  · split
    · exact hretry.removeEndpoint
    · exact hretry.addWaker _
  · exact hretry

theorem Consistent.processRound (hs : Consistent s) : Consistent (s.processRound env) := by
  obtain heq | ⟨key, -, -, ⟨-, heq⟩ | ⟨e, -, -, heq⟩⟩ := s.processRound_cases env
  · rw [heq]
    exact hs
  · rw [heq]
    exact hs.eraseWaker key
  · rw [heq]
    exact (hs.eraseWaker key).wakeEndpoint

theorem Consistent.destroyEndpoint (hs : Consistent s) : Consistent (s.destroyEndpoint env e) := by
  refine hs.settles_of ?_ hs.linked.destroyEndpoint
  unfold App.destroyEndpoint
  dsimp only
  set s₁ := s.modifyEndpoint e fun ep => { ep with alive := false } with hs₁
  have hdead : NothingNew s s₁ := by
    refine nothingNew_modifyEndpoint (fun hfalse => absurd hfalse ?_) (fun _ => id)
    simp
  refine (hdead.trans (settles_resetEndpoint env s₁ e).nothingNew).trans ?_
  exact nothingNew_modifyEndpoint id (fun _ => id)

/-! ## Creating an endpoint -/

theorem Consistent.newHandle (hs : Consistent s) : Consistent s.newHandle := by
  have hdead := hs.fresh.handle s.handleCount (le_refl _)
  have hends : s.newHandle.endpointOf = s.endpointOf := by
    funext h
    by_cases hh : h = s.handleCount
    · subst hh
      simp [endpointOf, App.newHandle, modifyHandle, hdead]
    · simp [endpointOf, App.newHandle, modifyHandle, hh]
  have hcons : s.newHandle.connectorOf = s.connectorOf := by
    funext h
    by_cases hh : h = s.handleCount
    · subst hh
      simp [connectorOf, App.newHandle, modifyHandle, hdead]
    · simp [connectorOf, App.newHandle, modifyHandle, hh]
  refine ⟨?_, ⟨fun h hh => ?_, hs.fresh.endpoint⟩⟩
  · unfold BothLinked
    rw [hends, hcons]
    exact hs.linked
  · change s.handleCount + 1 ≤ h at hh
    simp only [App.newHandle, modifyHandle]
    rw [Function.update_of_ne (Nat.ne_of_gt hh)]
    exact hs.fresh.handle h (Nat.le_of_lt hh)

theorem Consistent.createEndpoint (hs : Consistent s) : Consistent s.createEndpoint := by
  have hempty := (hs.fresh.endpoint s.endpointCount (le_refl _)).2
  refine ⟨hs.linked.congr rfl (fun e => ?_) (fun _ => rfl), ⟨hs.fresh.handle, fun e he => ?_⟩⟩
  · by_cases he : e = s.endpointCount
    · subst he
      simp [App.createEndpoint, modifyEndpoint, hempty]
    · simp [App.createEndpoint, modifyEndpoint, he]
  · change s.endpointCount + 1 ≤ e at he
    simp only [App.createEndpoint, modifyEndpoint]
    rw [Function.update_of_ne (Nat.ne_of_gt he)]
    exact hs.fresh.endpoint e (Nat.le_of_lt he)

theorem Consistent.storeEndpoint (hs : Consistent s) (node : NodePtr) (id : Nat) (name : Bytes)
    (needId needName : Bool) : Consistent (s.storeEndpoint e node id name needId needName) := by
  have hid : Consistent (if needId then s.setIndexById id (some e) else s) := by
    split
    · exact hs.setIndexById id _
    · exact hs
  unfold App.storeEndpoint updateDiscovery
  dsimp only
  set s₁ := if needId then s.setIndexById id (some e) else s
  have hname : Consistent (if needName then s₁.setIndexByName name (some e) else s₁) := by
    split
    · exact hid.setIndexByName name _
    · exact hid
  refine hname.settles_of (nothingNew_modifyEndpoint (fun h => h) (fun _ h => h)) ?_
  exact hname.linked.modifyEndpoint rfl

/-- Destroying a handle that is open or bound to nothing keeps the agreement. -/
theorem bothLinked_destroyHandle (hs : BothLinked s) (halive : (s.handle h).alive = true) :
    BothLinked (s.destroyHandle env h) ↔ ((s.handle h).closing = true →
      (s.handle h).endpoint = none ∧ (s.handle h).connector = none) := by
  unfold App.destroyHandle
  cases hclosing : (s.handle h).closing with
  | false =>
    refine iff_of_true ?_ (by simp)
    obtain ⟨-, hend, hcon⟩ := closeOnce_handle env s h
    rw [close_eq, hclosing]
    exact hs.closeOnce.destroyed hend hcon
  | true =>
    rw [close_eq, hclosing, if_pos rfl]
    constructor
    · intro ht _
      obtain ⟨hrefer, hhandles⟩ := (twoSided_iff.2 ht).destroyed h
        (by simp [AtappConnectionHandle.destroyed])
      constructor
      · rw [Option.eq_none_iff_forall_ne_some]
        intro e hend
        exact hrefer e ((hs.1 h e).1 (by rw [endpointOf, if_pos halive, hend]))
      · rw [Option.eq_none_iff_forall_ne_some]
        intro c hcon
        exact hhandles c ((hs.2 h c).1 (by rw [connectorOf, if_pos halive, hcon]))
    · intro hfree
      exact hs.destroyed (hfree rfl).1 (hfree rfl).2

theorem nothingNew_destroyHandle (s : App) (h : HandlePtr) :
    NothingNew s (s.destroyHandle env h) :=
  (unbinds_destroyHandle env s h).settles.nothingNew

theorem Consistent.setReady (hs : Consistent s) : Consistent (s.setReady h) := by
  unfold App.setReady
  split
  · exact hs
  · dsimp only
    have hflag : Consistent (s.modifyHandle h fun x => { x with ready := true, closing := false }) :=
      hs.settles_of (nothingNew_modifyHandle id) (hs.linked.modifyHandle rfl rfl rfl)
    split
    · exact hflag.addWaker _
    · exact hflag

theorem setReady_handle (s : App) (h : HandlePtr) :
    ((s.setReady h).handle h).alive = (s.handle h).alive ∧
      ((s.setReady h).handle h).endpoint = (s.handle h).endpoint ∧
      ((s.setReady h).handle h).connector = (s.handle h).connector := by
  unfold App.setReady
  split
  · exact ⟨rfl, rfl, rfl⟩
  · dsimp only
    split <;> simp

theorem nothingNew_releaseEndpoint (s : App) (h : HandlePtr) :
    NothingNew s (s.releaseEndpoint env h) := by
  unfold releaseEndpoint
  split
  · exact (unbinds_unbindEndpoint env s h _).settles.nothingNew
  · exact NothingNew.refl s

/-- Binding to a connector changes nothing but what is bound. -/
theorem nothingNew_bindConnector (s : App) (h : HandlePtr) (c : ConnectorPtr) :
    NothingNew s (s.bindConnector env h c) := by
  have hrelease : NothingNew s (s.releaseConnector env h) := by
    unfold releaseConnector
    split
    · exact (unbinds_unbindConnector env s h _).settles.nothingNew
    · exact NothingNew.refl s
  unfold App.bindConnector
  split
  · exact NothingNew.refl s
  · refine hrelease.trans ((nothingNew_modifyHandle (h := h)
      (f := fun x => { x with connector := some c }) fun hdead => hdead).trans ?_)
    exact ⟨rfl, rfl, fun _ h => h, fun _ h => h, fun _ _ h => h⟩

/-- Binding a handle to a live endpoint keeps new pointers unused. -/
theorem Fresh.bindEndpoint (hs : Fresh s) (he : (s.endpoint e).alive = true) :
    Fresh (s.bindEndpoint env h e) := by
  have hrelease : NothingNew s (s.releaseEndpoint env h) := nothingNew_releaseEndpoint s h
  have hs₁ := hs.of_nothingNew hrelease
  have hjoin : Fresh ((s.releaseEndpoint env h).attachEndpoint h e) := by
    refine ⟨(hs₁.of_nothingNew (nothingNew_modifyHandle (h := h)
      (f := fun x => { x with endpoint := some e }) fun hdead => hdead)).handle, fun e' he' => ?_⟩
    have hne : e' ≠ e := by
      rintro rfl
      change (s.releaseEndpoint env h).endpointCount ≤ e' at he'
      rw [hrelease.endpointCount] at he'
      rw [(hs.endpoint e' he').1] at he
      exact absurd he (by decide)
    rw [attachEndpoint, endpoint_modifyEndpoint_of_ne hne]
    exact hs₁.endpoint e' he'
  unfold App.bindEndpoint
  split
  · exact hs
  · dsimp only
    split
    · exact hjoin.of_nothingNew (nothingNew_addWaker _ _ _)
    · exact hjoin

/-- Connecting a new endpoint keeps the agreement: the handle is new. -/
theorem Consistent.connectEndpoint (hs : Consistent s) (he : (s.endpoint e).alive = true)
    (result : Option ConnectResult) : Consistent (s.connectEndpoint env e result) := by
  unfold App.connectEndpoint
  dsimp only
  have hwake : Consistent (s.addWaker e s.getNextTickTime) := hs.addWaker _
  set s₁ := s.addWaker e s.getNextTickTime with hs₁
  have halive₁ : (s₁.endpoint e).alive = true := by
    obtain ⟨heq, -⟩ | ⟨-, -, _, -, -, heq⟩ := s.addWaker_cases e s.getNextTickTime
    · rw [hs₁, heq, he]
    · rw [hs₁, heq]
      simp [he]
  set h := s₁.handleCount
  have hnew : Consistent s₁.newHandle := hwake.newHandle
  have hhandle : s₁.newHandle.handle h = { alive := true } := by
    simp [App.newHandle, modifyHandle, h]
  cases result with
  | none =>
    refine hnew.settles_of (nothingNew_destroyHandle _ h) ?_
    refine (bothLinked_destroyHandle hnew.linked (by rw [hhandle])).2 fun _ => ?_
    rw [hhandle]
    exact ⟨rfl, rfl⟩
  | some r =>
    dsimp only
    set s₂ := if r.ready then s₁.newHandle.setReady h else s₁.newHandle with hs₂
    have hready : Consistent s₂ := by
      rw [hs₂]
      split
      · exact hnew.setReady
      · exact hnew
    have hhandle₂ : (s₂.handle h).alive = true ∧ (s₂.handle h).endpoint = none ∧
        (s₂.handle h).connector = none := by
      rw [hs₂]
      split
      · obtain ⟨halive, hend, hcon⟩ := setReady_handle s₁.newHandle h
        rw [halive, hend, hcon, hhandle]
        exact ⟨rfl, rfl, rfl⟩
      · rw [hhandle]
        exact ⟨rfl, rfl, rfl⟩
    have hendpoint₂ : (s₂.endpoint e).alive = true := by
      rw [hs₂]
      split
      · unfold App.setReady
        split
        · exact halive₁
        · dsimp only
          split
          · next he' _ =>
            rw [handle_modifyHandle_self, hhandle] at he'
            exact absurd he' (by simp)
          · exact halive₁
      · exact halive₁
    have hbind : Consistent (s₂.bindConnector env h r.connector) := by
      refine hready.settles_of (nothingNew_bindConnector _ _ _) ?_
      refine (bothLinked_bindConnector hready.linked hhandle₂.1).2 fun c' hc' => ?_
      rw [hhandle₂.2.2] at hc'
      exact absurd hc'.symm (Option.some_ne_none c')
    -- the handle had no connector, so binding it is all that happens
    have hstep : (s₂.bindConnector env h r.connector).endpoint = s₂.endpoint ∧
        ((s₂.bindConnector env h r.connector).handle h).alive = true ∧
        ((s₂.bindConnector env h r.connector).handle h).endpoint = none := by
      unfold App.bindConnector releaseConnector
      rw [hhandle₂.2.2]
      split
      · exact ⟨rfl, hhandle₂.1, hhandle₂.2.1⟩
      · simp [attachConnector, hhandle₂.1, hhandle₂.2.1]
    refine ⟨(bothLinked_bindEndpoint hbind.linked hstep.2.1).2 fun e' c' he' => ?_,
      hbind.fresh.bindEndpoint (by rw [hstep.1, hendpoint₂])⟩
    rw [hstep.2.2] at he'
    exact absurd he'.symm (Option.some_ne_none e')

theorem Consistent.lookupName (hs : Consistent s) (id : Nat) (name : Bytes) :
    Consistent (lookupName env id name (s.lookupId id)).app := by
  have hid : (s.lookupId id).app = s := by
    unfold lookupId
    split <;> rfl
  unfold App.lookupName
  split
  · rwa [hid]
  split
  · rwa [hid]
  split
  · rwa [hid]
  split
  · rwa [hid]
  · rw [hid]
    exact hs.removeEndpointById id

theorem Consistent.mutableEndpoint (hs : Consistent s) (discovery : Option NodePtr)
    (result : Option ConnectResult) : Consistent (s.mutableEndpoint env discovery result).1 := by
  unfold App.mutableEndpoint
  split
  · exact hs
  split
  · exact hs
  · next node =>
    dsimp only
    have hlookup : Consistent
        (App.lookupName env (s.heap node).id (s.heap node).name (s.lookupId (s.heap node).id)).app :=
      hs.lookupName (s.heap node).id (s.heap node).name
    split
    · exact hlookup.storeEndpoint _ _ _ _ _
    · refine (hlookup.createEndpoint.storeEndpoint _ _ _ _ _).connectEndpoint ?_ result
      rw [endpoint_storeEndpoint, Function.update_self, createEndpoint_self]

/-! ## Steps and runs -/

/-- The step destroys no handle that one side still lists afterwards. Destroying a handle needs it
    to be open or bound to nothing. A connector that drops the last reference of the handle it
    loses destroys it, which is harmless for an open handle; a handle that is closing must have no
    endpoint, and binding the handle somewhere else must not come after that. -/
def ReleasesBindings (s : App) (input : Environment × AppOp) : Prop :=
  match input.2 with
  | .destroyHandle h => (s.handle h).closing = true →
      (s.handle h).endpoint = none ∧ (s.handle h).connector = none
  | .unbindConnector h c => (s.handle h).connector = some c → Dropped input.1 s c h →
      (s.handle h).closing = true → (s.handle h).endpoint = none
  | .cleanup c | .destroyConnector c => CleanupReleases input.1 s c
  | .bindConnector h c => ∀ c', (s.handle h).connector = some c' → c' ≠ c →
      (s.connector c).isDestroying = false → ¬ Dropped input.1 s c' h
  | .bindEndpoint h e => ∀ e' c, (s.handle h).endpoint = some e' → e' ≠ e →
      (s.handle h).closing = false → (s.handle h).connector = some c → ¬ Dropped input.1 s c h
  | .addConnectionHandle e h => (s.endpoint e).closing = false →
      ∀ e' c, (s.handle h).endpoint = some e' → e' ≠ e → (s.handle h).closing = false →
        (s.handle h).connector = some c → ¬ Dropped input.1 s c h
  | _ => True

/-- Unbinding from a connector breaks the agreement where it destroys a handle that an endpoint
    still lists. -/
theorem bothLinked_unbindConnector (hs : BothLinked s) (halive : (s.handle h).alive = true) :
    BothLinked (s.unbindConnector env h c) ↔
      ((s.handle h).connector = some c → Dropped env s c h → (s.handle h).closing = true →
        (s.handle h).endpoint = none) := by
  constructor
  · intro ht hcon hd hclosing
    rw [unbindConnector_of_closing hcon hclosing hd] at ht
    rw [Option.eq_none_iff_forall_ne_some]
    intro e hend
    refine not_bothLinked_of_listed (h := h) ?_ (Or.inl ⟨e, ?_⟩) ht
    · simp [AtappConnectionHandle.destroyed]
    · exact (hs.1 h e).1 (by rw [endpointOf, if_pos halive, hend])
  · exact hs.unbindConnector

/-- A step keeps new pointers unused. -/
theorem fresh_step (hs : Consistent s) (env : Environment) {op : AppOp} (hcall : s.Callable op) :
    Fresh (s.step (env, op)) := by
  have hunbinds : ∀ {t : App}, Unbinds s t → Fresh t :=
    fun h => hs.fresh.of_nothingNew h.settles.nothingNew
  cases op with
  | tick now => exact ⟨hs.fresh.handle, hs.fresh.endpoint⟩
  | stop => exact ⟨hs.fresh.handle, hs.fresh.endpoint⟩
  | copyFrom node content => exact ⟨hs.fresh.handle, hs.fresh.endpoint⟩
  | mutableEndpoint discovery result => exact (hs.mutableEndpoint discovery result).fresh
  | removeEndpointById id => exact (hs.removeEndpointById id).fresh
  | removeEndpointByName name => exact (hs.removeEndpointByName name).fresh
  | removeEndpoint e => exact hs.removeEndpoint.fresh
  | pushForwardMessage e type sequence data metadata =>
    exact (hs.queues (queues_pushForwardMessage type sequence data metadata)).fresh
  | retryPendingMessages e tickTime maxCount =>
    exact (hs.queues (queues_retryPendingMessages tickTime maxCount)).fresh
  | processRound => exact hs.processRound.fresh
  | destroyEndpoint e => exact hs.destroyEndpoint.fresh
  | newHandle => exact hs.newHandle.fresh
  | bindEndpoint h e => exact hs.fresh.bindEndpoint (hcall.endpoint e rfl)
  | unbindEndpoint h e => exact hunbinds (unbinds_unbindEndpoint env s h e)
  | addConnectionHandle e h =>
    change Fresh (s.addConnectionHandle env e h)
    unfold App.addConnectionHandle
    split
    · exact hs.fresh
    · exact hs.fresh.bindEndpoint (hcall.endpoint e rfl)
  | removeConnectionHandle e h =>
    change Fresh (s.removeConnectionHandle env e h)
    unfold App.removeConnectionHandle
    split
    · exact hs.fresh
    · exact hunbinds (unbinds_unbindEndpoint env s h e)
  | bindConnector h c => exact hs.fresh.of_nothingNew (nothingNew_bindConnector s h c)
  | unbindConnector h c => exact hunbinds (unbinds_unbindConnector env s h c)
  | closeHandle h => exact hunbinds (unbinds_close env s h)
  | setReady h => exact hs.setReady.fresh
  | setUnready h => exact (hs.queues (queues_setUnready s h)).fresh
  | destroyHandle h => exact hunbinds (unbinds_destroyHandle env s h)
  | cleanup c => exact hunbinds (unbinds_cleanup env s c)
  | destroyConnector c =>
    have hclean : Fresh (s.cleanup env c) := hunbinds (unbinds_cleanup env s c)
    exact ⟨hclean.handle, hclean.endpoint⟩

/-- A step keeps the agreement exactly if it destroys no handle that is still listed. -/
theorem bothLinked_step (hs : Consistent s) (env : Environment) {op : AppOp}
    (hcall : s.Callable op) :
    BothLinked (s.step (env, op)) ↔ ReleasesBindings s (env, op) := by
  have hkeep : ∀ {t : App}, BothLinked t → (BothLinked t ↔ True) := fun ht => iff_true_intro ht
  cases op with
  | tick now => exact hkeep (hs.linked.congr rfl (fun _ => rfl) (fun _ => rfl))
  | stop => exact hkeep (hs.linked.congr rfl (fun _ => rfl) (fun _ => rfl))
  | copyFrom node content => exact hkeep (hs.linked.congr rfl (fun _ => rfl) (fun _ => rfl))
  | mutableEndpoint discovery result => exact hkeep (hs.mutableEndpoint discovery result).linked
  | removeEndpointById id => exact hkeep (hs.removeEndpointById id).linked
  | removeEndpointByName name => exact hkeep (hs.removeEndpointByName name).linked
  | removeEndpoint e => exact hkeep hs.removeEndpoint.linked
  | pushForwardMessage e type sequence data metadata =>
    exact hkeep (hs.queues (queues_pushForwardMessage type sequence data metadata)).linked
  | retryPendingMessages e tickTime maxCount =>
    exact hkeep (hs.queues (queues_retryPendingMessages tickTime maxCount)).linked
  | processRound => exact hkeep hs.processRound.linked
  | destroyEndpoint e => exact hkeep hs.destroyEndpoint.linked
  | newHandle => exact hkeep hs.newHandle.linked
  | bindEndpoint h e => exact bothLinked_bindEndpoint hs.linked (hcall.handle h rfl)
  | unbindEndpoint h e => exact hkeep hs.linked.unbindEndpoint
  | addConnectionHandle e h =>
    change BothLinked (s.addConnectionHandle env e h) ↔ _
    unfold App.addConnectionHandle
    split
    · next hclosing =>
      exact iff_of_true hs.linked fun hopen => absurd hclosing (by rw [hopen]; decide)
    · next hopen =>
      rw [bothLinked_bindEndpoint hs.linked (hcall.handle h rfl)]
      rw [Bool.not_eq_true] at hopen
      exact ⟨fun hcond _ => hcond, fun hcond => hcond hopen⟩
  | removeConnectionHandle e h =>
    change BothLinked (s.removeConnectionHandle env e h) ↔ True
    unfold App.removeConnectionHandle
    split
    · exact hkeep hs.linked
    · exact hkeep hs.linked.unbindEndpoint
  | bindConnector h c => exact bothLinked_bindConnector hs.linked (hcall.handle h rfl)
  | unbindConnector h c => exact bothLinked_unbindConnector hs.linked (hcall.handle h rfl)
  | closeHandle h => exact hkeep hs.linked.close
  | setReady h => exact hkeep hs.setReady.linked
  | setUnready h => exact hkeep (hs.queues (queues_setUnready s h)).linked
  | destroyHandle h => exact bothLinked_destroyHandle hs.linked (hcall.handle h rfl)
  | cleanup c =>
    exact ⟨fun ht => not_imp_not.1 (not_bothLinked_cleanup hs.linked) ht, hs.linked.cleanup⟩
  | destroyConnector c =>
    have hflag : BothLinked (s.destroyConnector env c) ↔ BothLinked (s.cleanup env c) := by
      have hhandles : ∀ c', ((s.destroyConnector env c).connector c').handles =
          ((s.cleanup env c).connector c').handles := by
        intro c'
        rw [App.destroyConnector, connector_modifyConnector]
        split
        · next heq => rw [heq]
        · rfl
      constructor
      · intro ht
        exact ht.congr rfl (fun _ => rfl) fun c' => (hhandles c').symm
      · intro ht
        exact ht.congr rfl (fun _ => rfl) hhandles
    change BothLinked (s.destroyConnector env c) ↔ _
    rw [hflag]
    exact ⟨fun ht => not_imp_not.1 (not_bothLinked_cleanup hs.linked) ht, hs.linked.cleanup⟩

theorem consistent_init (conf : AppConf) (now : Int) : Consistent (init conf now) := by
  refine ⟨⟨fun h e => ?_, fun h c => ?_⟩, ⟨fun _ _ => rfl, fun _ _ => ⟨rfl, rfl⟩⟩⟩
  · simp [endpointOf, init]
  · simp [connectorOf, init]

/-- In every run of an app, handles, endpoints and connectors agree on all bindings in every state
    exactly if every step meets `ReleasesBindings`. -/
theorem always_twoSided_iff (conf : AppConf) (now : Int) (inputs : List (Environment × AppOp))
    (hcall : Run.StepsMeet step (fun s input => s.Callable input.2) (init conf now) inputs) :
    Run.Always step TwoSided (init conf now) inputs ↔
      Run.StepsMeet step ReleasesBindings (init conf now) inputs := by
  have hinit := consistent_init conf now
  refine Run.always_iff_stepsMeet step ?_ ?_ hinit.fresh (twoSided_iff.2 hinit.linked) hcall
  · intro s input hfresh hs hcall _
    exact fresh_step ⟨twoSided_iff.1 hs, hfresh⟩ input.1 hcall
  · intro s input hfresh hs hcall
    rw [twoSided_iff]
    exact bothLinked_step ⟨twoSided_iff.1 hs, hfresh⟩ input.1 hcall

/-- An operation that names no endpoint can be called on a live handle. -/
theorem callable_of_handle {op : AppOp} (hend : op.endpointOf = none)
    (halive : ∀ h, op.handleOf = some h → (s.handle h).alive = true) : s.Callable op where
  handle := halive
  endpoint := by simp [hend]
  unshared := by
    rintro e rfl
    exact absurd hend (by simp [AppOp.endpointOf])

/-- A handle is bound to a connector, closed and destroyed. -/
def closedHandleRun : List (Environment × AppOp) :=
  [({}, .newHandle), ({}, .bindConnector 0 1), ({}, .closeHandle 0), ({}, .destroyHandle 0)]

theorem always_twoSided_closedHandleRun : Run.Always step TwoSided (init {} 0) closedHandleRun := by
  refine (always_twoSided_iff {} 0 closedHandleRun ⟨?_, ?_, ?_, ?_, trivial⟩).2
    ⟨trivial, ?_, trivial, ?_, trivial⟩
  · exact callable_of_handle rfl (by simp [AppOp.handleOf])
  · refine callable_of_handle rfl ?_
    rintro h ⟨⟩
    rfl
  · refine callable_of_handle rfl ?_
    rintro h ⟨⟩
    rfl
  · refine callable_of_handle rfl ?_
    rintro h ⟨⟩
    rfl
  · intro c' hc'
    exact absurd hc'.symm (Option.some_ne_none c')
  · intro _
    exact ⟨rfl, rfl⟩

/-- A handle is bound to one connector and then to another: leaving the first closes it, so that
    its destructor does not leave the second. -/
def reboundHandleRun : List (Environment × AppOp) :=
  [({}, .newHandle), ({}, .bindConnector 0 1), ({}, .bindConnector 0 2), ({}, .destroyHandle 0)]

theorem not_always_twoSided_reboundHandleRun :
    Run.StepsMeet step (fun s input => s.Callable input.2) (init {} 0) reboundHandleRun ∧
      ¬ Run.Always step TwoSided (init {} 0) reboundHandleRun := by
  constructor
  · refine ⟨?_, ?_, ?_, ?_, trivial⟩
    · exact callable_of_handle rfl (by simp [AppOp.handleOf])
    · refine callable_of_handle rfl ?_
      rintro h ⟨⟩
      rfl
    · refine callable_of_handle rfl ?_
      rintro h ⟨⟩
      rfl
    · refine callable_of_handle rfl ?_
      rintro h ⟨⟩
      rfl
  · intro halways
    have hlast := halways.last step
    refine (hlast.destroyed 0 rfl).2 2 ?_
    decide

end LibAtapp.Connectors.App
