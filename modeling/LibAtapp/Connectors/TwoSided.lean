import LibAtapp.Connectors.Frames
import LibAtapp.Library.BackRef
import LibAtapp.Library.Run

set_option autoImplicit false

/-! # The two sides of a binding

A handle points to its endpoint and its connector, and both list their handles. The sides agree
after every operation as long as no handle is destroyed in a state in which its destructor does
not unbind it: `close` returns at once when the closing flag is set, so the destructor of a
handle that was bound after it had been closed leaves it in the sets. -/

namespace LibAtapp.Connectors.App

open BackRef

variable {env : Environment} {s : App} {h : HandlePtr} {e : EndpointPtr} {c : ConnectorPtr}

/-! ## The two references -/

/-- The endpoint of a handle that has not been destroyed. -/
def endpointOf (s : App) (h : HandlePtr) : Option EndpointPtr :=
  if (s.handle h).alive then (s.handle h).endpoint else none

/-- The connector of a handle that has not been destroyed. -/
def connectorOf (s : App) (h : HandlePtr) : Option ConnectorPtr :=
  if (s.handle h).alive then (s.handle h).connector else none

/-- Handles, endpoints and connectors agree on what is bound to what. -/
structure TwoSided (s : App) : Prop where
  endpoint : ∀ h e, (s.handle h).alive = true →
    ((s.handle h).endpoint = some e ↔ h ∈ (s.endpoint e).referConnections)
  connector : ∀ h c, (s.handle h).alive = true →
    ((s.handle h).connector = some c ↔ h ∈ (s.connector c).handles)
  oneEndpoint : ∀ h e e', h ∈ (s.endpoint e).referConnections →
    h ∈ (s.endpoint e').referConnections → e = e'
  oneConnector : ∀ h c c', h ∈ (s.connector c).handles → h ∈ (s.connector c').handles → c = c'
  destroyed : ∀ h, (s.handle h).alive = false →
    (∀ e, h ∉ (s.endpoint e).referConnections) ∧ ∀ c, h ∉ (s.connector c).handles

/-- Both references are kept on both sides. -/
def BothLinked (s : App) : Prop :=
  Linked s.endpointOf (fun e => (s.endpoint e).referConnections) ∧
    Linked s.connectorOf (fun c => (s.connector c).handles)

theorem twoSided_iff : TwoSided s ↔ BothLinked s := by
  constructor
  · intro hs
    refine ⟨fun h e => ?_, fun h c => ?_⟩
    · cases halive : (s.handle h).alive with
      | true => simpa [endpointOf, halive] using hs.endpoint h e halive
      | false => simpa [endpointOf, halive] using (hs.destroyed h halive).1 e
    · cases halive : (s.handle h).alive with
      | true => simpa [connectorOf, halive] using hs.connector h c halive
      | false => simpa [connectorOf, halive] using (hs.destroyed h halive).2 c
  · rintro ⟨hend, hcon⟩
    refine ⟨fun h e halive => ?_, fun h c halive => ?_, fun h e e' he he' => hend.unique he he',
      fun h c c' hc hc' => hcon.unique hc hc', fun h halive => ⟨fun e => ?_, fun c => ?_⟩⟩
    · simpa [endpointOf, halive] using hend h e
    · simpa [connectorOf, halive] using hcon h c
    · exact hend.not_listed (by simp [endpointOf, halive]) e
    · exact hcon.not_listed (by simp [connectorOf, halive]) c

/-! ## What the parts of unbinding change -/

@[simp] theorem referConnections_addWaker (s : App) (e e' : EndpointPtr) (t : Int) :
    ((s.addWaker e t).endpoint e').referConnections = (s.endpoint e').referConnections := by
  obtain ⟨h, -⟩ | ⟨-, -, _, -, -, h⟩ := s.addWaker_cases e t
  · rw [h]
  · rw [h]
    dsimp only
    by_cases he : e' = e
    · subst he
      rw [Function.update_self]
    · rw [Function.update_of_ne he]

theorem mem_referConnections_dropRefer {h' : HandlePtr} {e' : EndpointPtr} :
    h' ∈ ((s.dropRefer h e).endpoint e').referConnections ↔
      h' ∈ (s.endpoint e').referConnections ∧ ¬ (h' = h ∧ e' = e) := by
  have hmodify : ∀ t : App, (∀ e', (t.endpoint e').referConnections =
      ((s.modifyEndpoint e fun ep =>
        { ep with referConnections := ep.referConnections.filter (· ≠ h) }).endpoint
          e').referConnections) →
      (h' ∈ (t.endpoint e').referConnections ↔
        h' ∈ (s.endpoint e').referConnections ∧ ¬ (h' = h ∧ e' = e)) := by
    intro t ht
    rw [ht, endpoint_modifyEndpoint]
    by_cases he : e' = e
    · subst he
      simp
    · simp [he]
  unfold dropRefer
  split
  · dsimp only
    split
    · refine hmodify _ fun e'' => ?_
      rw [referConnections_addWaker, endpoint_modifyEndpoint]
      split
      · next he => rw [he]
      · rfl
    · exact hmodify _ fun _ => rfl
  · next hnot =>
    constructor
    · intro hmem
      refine ⟨hmem, ?_⟩
      rintro ⟨rfl, rfl⟩
      exact hnot hmem
    · exact fun hmem => hmem.1

theorem mem_handles_eraseHandle {h' : HandlePtr} {c' : ConnectorPtr} :
    h' ∈ ((s.eraseHandle h c).connector c').handles ↔
      h' ∈ (s.connector c').handles ∧ ¬ (h' = h ∧ c' = c) := by
  rw [eraseHandle, connector_modifyConnector]
  by_cases hc : c' = c
  · subst hc
    simp
  · simp [hc]

/-- Changes of a handle that leave its life and its endpoint leave what every handle points to. -/
theorem endpointOf_modifyHandle {f : AtappConnectionHandle → AtappConnectionHandle}
    (hf : (f (s.handle h)).alive = (s.handle h).alive ∧
      (f (s.handle h)).endpoint = (s.handle h).endpoint) :
    (s.modifyHandle h f).endpointOf = s.endpointOf := by
  funext h'
  unfold endpointOf
  rw [handle_modifyHandle]
  split
  · next heq => rw [hf.1, hf.2, heq]
  · rfl

theorem connectorOf_modifyHandle {f : AtappConnectionHandle → AtappConnectionHandle}
    (hf : (f (s.handle h)).alive = (s.handle h).alive ∧
      (f (s.handle h)).connector = (s.handle h).connector) :
    (s.modifyHandle h f).connectorOf = s.connectorOf := by
  funext h'
  unfold connectorOf
  rw [handle_modifyHandle]
  split
  · next heq => rw [hf.1, hf.2, heq]
  · rfl

theorem endpointOf_modifyHandle_of_ne {f : AtappConnectionHandle → AtappConnectionHandle}
    {h' : HandlePtr} (hne : h' ≠ h) : (s.modifyHandle h f).endpointOf h' = s.endpointOf h' := by
  unfold endpointOf
  rw [handle_modifyHandle_of_ne hne]

theorem connectorOf_modifyHandle_of_ne {f : AtappConnectionHandle → AtappConnectionHandle}
    {h' : HandlePtr} (hne : h' ≠ h) : (s.modifyHandle h f).connectorOf h' = s.connectorOf h' := by
  unfold connectorOf
  rw [handle_modifyHandle_of_ne hne]

@[simp] theorem endpointOf_modifyConnector (s : App) (c : ConnectorPtr)
    (f : AtappConnectorImpl → AtappConnectorImpl) :
    (s.modifyConnector c f).endpointOf = s.endpointOf := rfl

@[simp] theorem connectorOf_modifyConnector (s : App) (c : ConnectorPtr)
    (f : AtappConnectorImpl → AtappConnectorImpl) :
    (s.modifyConnector c f).connectorOf = s.connectorOf := rfl

@[simp] theorem endpointOf_modifyEndpoint (s : App) (e : EndpointPtr)
    (f : AtappEndpoint → AtappEndpoint) : (s.modifyEndpoint e f).endpointOf = s.endpointOf := rfl

@[simp] theorem connectorOf_modifyEndpoint (s : App) (e : EndpointPtr)
    (f : AtappEndpoint → AtappEndpoint) :
    (s.modifyEndpoint e f).connectorOf = s.connectorOf := rfl

/-- What `endpointOf` and `connectorOf` are read from. -/
theorem endpointOf_congr {t : App} (heq : t.handle = s.handle) : t.endpointOf = s.endpointOf := by
  funext h
  simp only [endpointOf, heq]

theorem connectorOf_congr {t : App} (heq : t.handle = s.handle) :
    t.connectorOf = s.connectorOf := by
  funext h
  simp only [connectorOf, heq]

/-- Agreement only depends on the handles and on the two families of sets. -/
theorem BothLinked.congr {t : App} (hs : BothLinked s) (hhandle : t.handle = s.handle)
    (hrefer : ∀ e, (t.endpoint e).referConnections = (s.endpoint e).referConnections)
    (hhandles : ∀ c, (t.connector c).handles = (s.connector c).handles) : BothLinked t := by
  unfold BothLinked
  simp only [endpointOf_congr hhandle, connectorOf_congr hhandle, hrefer, hhandles]
  exact hs

/-- Updates of flags leave the agreement. -/
theorem BothLinked.modifyHandle (hs : BothLinked s)
    {f : AtappConnectionHandle → AtappConnectionHandle}
    (halive : (f (s.handle h)).alive = (s.handle h).alive)
    (hend : (f (s.handle h)).endpoint = (s.handle h).endpoint)
    (hcon : (f (s.handle h)).connector = (s.handle h).connector) :
    BothLinked (s.modifyHandle h f) := by
  unfold BothLinked
  rw [endpointOf_modifyHandle ⟨halive, hend⟩, connectorOf_modifyHandle ⟨halive, hcon⟩]
  exact hs

theorem BothLinked.addWaker (hs : BothLinked s) (t : Int) : BothLinked (s.addWaker e t) :=
  hs.congr (by simp) (by simp) (by simp)

/-! ## Unbinding keeps the agreement -/

/-- A handle loses its endpoint on both sides. -/
theorem linked_clearEndpoint
    (hs : Linked s.endpointOf (fun e => (s.endpoint e).referConnections))
    (howner : ∀ e', (s.handle h).endpoint = some e' → e' = e) :
    Linked ((s.dropRefer h e).modifyHandle h AtappConnectionHandle.clearEndpoint).endpointOf
      (fun e' => ((s.dropRefer h e).endpoint e').referConnections) := by
  refine hs.unlink (h := h) (e := e) ?_ ?_ ?_ ?_
  · intro e' htarget
    unfold endpointOf at htarget
    split at htarget
    · exact howner e' htarget
    · exact absurd htarget.symm (Option.some_ne_none e')
  · simp [endpointOf, AtappConnectionHandle.clearEndpoint]
  · intro h' hne
    rw [endpointOf_modifyHandle_of_ne hne, endpointOf_congr (handle_dropRefer s h e)]
  · intro h' e'
    exact mem_referConnections_dropRefer

/-- Leaving the endpoint keeps what the endpoints know. -/
theorem linked_leaveEndpoint
    (hs : Linked s.endpointOf (fun e => (s.endpoint e).referConnections)) :
    Linked (s.leaveEndpoint h).endpointOf
      (fun e => ((s.leaveEndpoint h).endpoint e).referConnections) := by
  unfold App.leaveEndpoint
  split
  · next hend =>
    exact linked_clearEndpoint hs fun e' he' => Option.some.inj (he'.symm.trans hend)
  · exact hs

/-- Leaving the endpoint does not concern the connectors. -/
theorem connectorOf_leaveEndpoint (s : App) (h : HandlePtr) :
    (s.leaveEndpoint h).connectorOf = s.connectorOf := by
  funext h'
  unfold connectorOf
  by_cases hh : h' = h
  · subst hh
    rw [leaveEndpoint_handle]
    rfl
  · rw [leaveEndpoint_handle_of_ne _ hh]

theorem BothLinked.leaveEndpoint (hs : BothLinked s) : BothLinked (s.leaveEndpoint h) := by
  refine ⟨linked_leaveEndpoint hs.1, ?_⟩
  rw [connectorOf_leaveEndpoint]
  simpa using hs.2

/-- Forgetting a handle that does not point to the endpoint changes nothing. -/
theorem BothLinked.dropRefer (hs : BothLinked s) (hne : (s.handle h).endpoint ≠ some e) :
    BothLinked (s.dropRefer h e) := by
  have hnot : h ∉ (s.endpoint e).referConnections := by
    intro hmem
    have htarget := (hs.1 h e).2 hmem
    unfold endpointOf at htarget
    split at htarget
    · exact hne htarget
    · exact absurd htarget.symm (Option.some_ne_none e)
  rw [App.dropRefer, if_neg hnot]
  exact hs

/-- A handle loses its connector. -/
theorem connectorOf_clearConnector (s : App) (h : HandlePtr) (c : ConnectorPtr) (h' : HandlePtr) :
    ((s.modifyHandle h AtappConnectionHandle.clearConnector).eraseHandle h c).connectorOf h' =
      if h' = h then none else s.connectorOf h' := by
  unfold connectorOf
  rw [handle_eraseHandle, handle_modifyHandle]
  split
  · exact ite_self none
  · rfl

/-- Losing the connector does not concern the endpoints. -/
theorem endpointOf_clearConnector (s : App) (h : HandlePtr) (c : ConnectorPtr) :
    ((s.modifyHandle h AtappConnectionHandle.clearConnector).eraseHandle h c).endpointOf =
      s.endpointOf := by
  have hsame : (s.modifyHandle h AtappConnectionHandle.clearConnector).endpointOf = s.endpointOf :=
    endpointOf_modifyHandle ⟨rfl, rfl⟩
  rw [← hsame]
  exact endpointOf_congr rfl

theorem BothLinked.eraseHandle (hs : BothLinked s)
    (howner : ∀ c', (s.handle h).connector = some c' → c' = c) :
    BothLinked ((s.modifyHandle h AtappConnectionHandle.clearConnector).eraseHandle h c) := by
  refine ⟨?_, hs.2.unlink (h := h) (e := c) ?_ ?_ ?_ ?_⟩
  · rw [endpointOf_clearConnector]
    exact hs.1
  · intro c' htarget
    unfold connectorOf at htarget
    split at htarget
    · exact howner c' htarget
    · exact absurd htarget.symm (Option.some_ne_none c')
  · rw [connectorOf_clearConnector, if_pos rfl]
  · intro h' hne
    rw [connectorOf_clearConnector, if_neg hne]
  · intro h' c'
    exact mem_handles_eraseHandle

/-- Destroying a handle that no endpoint knows does not concern the endpoints. -/
theorem endpointOf_destroyed (hend : (s.handle h).endpoint = none) :
    (s.modifyHandle h AtappConnectionHandle.destroyed).endpointOf = s.endpointOf := by
  funext h'
  unfold endpointOf
  rw [handle_modifyHandle]
  split
  · next heq => simp [AtappConnectionHandle.destroyed, heq, hend]
  · rfl

theorem connectorOf_destroyed (hcon : (s.handle h).connector = none) :
    (s.modifyHandle h AtappConnectionHandle.destroyed).connectorOf = s.connectorOf := by
  funext h'
  unfold connectorOf
  rw [handle_modifyHandle]
  split
  · next heq => simp [AtappConnectionHandle.destroyed, heq, hcon]
  · rfl

/-- A handle that is bound to nothing can be destroyed. -/
theorem BothLinked.destroyed (hs : BothLinked s) (hend : (s.handle h).endpoint = none)
    (hcon : (s.handle h).connector = none) :
    BothLinked (s.modifyHandle h AtappConnectionHandle.destroyed) := by
  unfold BothLinked
  rw [endpointOf_destroyed hend, connectorOf_destroyed hcon]
  exact hs

/-- `on_close_connection` of the connector drops the last reference of the handle. -/
def Dropped (env : Environment) (s : App) (c : ConnectorPtr) (h : HandlePtr) : Prop :=
  (s.connector c).isDestroying = false ∧ env.drops h = true

instance : Decidable (Dropped env s c h) := inferInstanceAs (Decidable (_ ∧ _))

@[simp] theorem not_dropped_iff :
    ((s.connector c).isDestroying || !env.drops h) = true ↔ ¬ Dropped env s c h := by
  unfold Dropped
  cases (s.connector c).isDestroying <;> cases env.drops h <;> simp

/-- Leaving a connector, with the test on the state before. -/
theorem leaveConnector_eq (env : Environment) (s : App) (h : HandlePtr) (c : ConnectorPtr) :
    s.leaveConnector env h c =
      if Dropped env s c h then
        ((s.modifyHandle h AtappConnectionHandle.clearConnector).eraseHandle h c).modifyHandle h
          AtappConnectionHandle.destroyed
      else (s.modifyHandle h AtappConnectionHandle.clearConnector).eraseHandle h c := by
  unfold App.leaveConnector
  dsimp only
  have hdestroying : (((s.modifyHandle h AtappConnectionHandle.clearConnector).eraseHandle h
      c).connector c).isDestroying = (s.connector c).isDestroying := by
    simp [App.eraseHandle]
  rw [hdestroying]
  by_cases hd : Dropped env s c h
  · rw [if_pos hd, if_neg (by rw [not_dropped_iff]; exact not_not.2 hd)]
  · rw [if_neg hd, if_pos (by rw [not_dropped_iff]; exact hd)]

theorem BothLinked.leaveConnector (hs : BothLinked s)
    (howner : ∀ c', (s.handle h).connector = some c' → c' = c)
    (hfree : Dropped env s c h → (s.handle h).endpoint = none) :
    BothLinked (s.leaveConnector env h c) := by
  rw [leaveConnector_eq]
  split
  · next hdropped =>
    refine (hs.eraseHandle howner).destroyed ?_ ?_
    · simpa [AtappConnectionHandle.clearConnector] using hfree hdropped
    · simp [AtappConnectionHandle.clearConnector]
  · exact hs.eraseHandle howner

theorem BothLinked.closeOnce (hs : BothLinked s) : BothLinked (s.closeOnce env h) := by
  have hmark : BothLinked (s.modifyHandle h AtappConnectionHandle.markClosing) :=
    hs.modifyHandle rfl rfl rfl
  unfold App.closeOnce
  dsimp only
  split
  · next c hcon =>
    refine hmark.leaveEndpoint.leaveConnector ?_ ?_
    · intro c' hc'
      exact Option.some.inj (hc'.symm.trans hcon)
    · intro _
      simp [AtappConnectionHandle.clearEndpoint]
  · exact hmark.leaveEndpoint

theorem close_eq (env : Environment) (s : App) (h : HandlePtr) :
    s.close env h = if (s.handle h).closing then s else s.closeOnce env h :=
  closeAt_eq env s h 1

theorem BothLinked.close (hs : BothLinked s) : BothLinked (s.close env h) := by
  rw [close_eq]
  split
  · exact hs
  · exact hs.closeOnce

theorem unbindEndpoint_eq (env : Environment) (s : App) (h : HandlePtr) (e : EndpointPtr) :
    s.unbindEndpoint env h e =
      if (s.handle h).endpoint = some e then
        ((s.dropRefer h e).modifyHandle h AtappConnectionHandle.clearEndpoint).close env h
      else s.dropRefer h e := by
  rw [unbindEndpoint, callDepth, unbindEndpointAt]
  simp only [handle_dropRefer, close_depth env _ _ 0]

theorem BothLinked.unbindEndpoint (hs : BothLinked s) :
    BothLinked (s.unbindEndpoint env h e) := by
  rw [unbindEndpoint_eq]
  split
  · next hend =>
    have hleave := hs.leaveEndpoint (h := h)
    rw [App.leaveEndpoint, hend] at hleave
    exact hleave.close
  · next hne => exact hs.dropRefer hne

/-! ## What a handle looks like after it is closed -/

/-- Closing clears both pointers of the handle. -/
theorem closeOnce_handle (env : Environment) (s : App) (h : HandlePtr) :
    ((s.closeOnce env h).handle h).closing = true ∧
      ((s.closeOnce env h).handle h).endpoint = none ∧
      ((s.closeOnce env h).handle h).connector = none := by
  have hleave : ∀ (t : App) (c : ConnectorPtr), (t.handle h).closing = true →
      (t.handle h).endpoint = none →
      ((t.leaveConnector env h c).handle h).closing = true ∧
        ((t.leaveConnector env h c).handle h).endpoint = none ∧
        ((t.leaveConnector env h c).handle h).connector = none := by
    intro t c hclosing hend
    rw [leaveConnector_eq]
    split <;> simp [AtappConnectionHandle.clearConnector, AtappConnectionHandle.destroyed,
      hclosing, hend]
  unfold App.closeOnce
  dsimp only
  set s₁ := (s.modifyHandle h AtappConnectionHandle.markClosing).leaveEndpoint h with hs₁
  have hhandle : s₁.handle h = (s.handle h).markClosing.clearEndpoint := by simp [hs₁]
  split
  · exact hleave s₁ _ (by rw [hhandle]; rfl) (by rw [hhandle]; rfl)
  · next hcon => exact ⟨by rw [hhandle]; rfl, by rw [hhandle]; rfl, hcon⟩

theorem closing_close (env : Environment) (s : App) (h : HandlePtr) :
    ((s.close env h).handle h).closing = true := by
  rw [close_eq]
  split
  · next hclosing => exact hclosing
  · exact (closeOnce_handle env s h).1

/-- Unbinding a handle does not touch the other handles. -/
theorem leaveConnector_handle_of_ne {h' : HandlePtr} (hne : h' ≠ h) :
    (s.leaveConnector env h c).handle h' = s.handle h' := by
  rw [leaveConnector_eq]
  split
  · simp [handle_modifyHandle_of_ne hne]
  · simp [handle_modifyHandle_of_ne hne]

theorem close_handle_of_ne {h' : HandlePtr} (hne : h' ≠ h) :
    (s.close env h).handle h' = s.handle h' := by
  rw [close_eq]
  split
  · rfl
  · unfold App.closeOnce
    dsimp only
    split
    · rw [leaveConnector_handle_of_ne hne, leaveEndpoint_handle_of_ne _ hne,
        handle_modifyHandle_of_ne hne]
    · rw [leaveEndpoint_handle_of_ne _ hne, handle_modifyHandle_of_ne hne]

/-- Whether a connector is being destroyed does not change. -/
theorem Unbinds.isDestroying {t : App} (h : Unbinds s t) (c : ConnectorPtr) :
    (t.connector c).isDestroying = (s.connector c).isDestroying := by
  refine h.keeps (p := fun t => (t.connector c).isDestroying = (s.connector c).isDestroying)
    ?_ rfl
  intro t u hupdate ht
  rw [← ht]
  cases hupdate with
  | dropRefer h e => rw [connector_dropRefer]
  | eraseHandle h c' =>
    rw [App.eraseHandle, connector_modifyConnector]
    split
    · next heq => rw [heq]
    · rfl
  | emptyHandles c' =>
    rw [connector_modifyConnector]
    split
    · next heq => rw [heq]
    · rfl
  | _ => rfl

theorem unbindConnector_eq (env : Environment) (s : App) (h : HandlePtr) (c : ConnectorPtr) :
    s.unbindConnector env h c =
      if (s.handle h).connector = some c then
        let t := ((s.modifyHandle h AtappConnectionHandle.clearConnector).eraseHandle h c).close env h
        if Dropped env s c h then t.modifyHandle h AtappConnectionHandle.destroyed else t
      else s.eraseHandle h c := by
  rw [unbindConnector, callDepth, unbindConnectorAt]
  simp only [close_depth env _ _ 0]
  split
  · set s₁ := (s.modifyHandle h AtappConnectionHandle.clearConnector).eraseHandle h c
    have hdestroying : ((s₁.close env h).connector c).isDestroying =
        (s.connector c).isDestroying := by
      rw [(unbinds_close env s₁ h).isDestroying c]
      simp [s₁, App.eraseHandle]
    have hagain : (s₁.close env h).close env h = s₁.close env h := by
      rw [close_eq env (s₁.close env h), if_pos (closing_close env s₁ h)]
    rw [hdestroying, hagain]
    by_cases hd : Dropped env s c h
    · rw [if_pos hd, if_neg (by rw [not_dropped_iff]; exact not_not.2 hd)]
    · rw [if_neg hd, if_pos (by rw [not_dropped_iff]; exact hd)]
  · rfl

/-- Forgetting a handle that does not point to the connector changes nothing. -/
theorem BothLinked.eraseOther (hs : BothLinked s) (hne : (s.handle h).connector ≠ some c) :
    BothLinked (s.eraseHandle h c) := by
  have hnot : h ∉ (s.connector c).handles := by
    intro hmem
    have htarget := (hs.2 h c).2 hmem
    unfold connectorOf at htarget
    split at htarget
    · exact hne htarget
    · exact absurd htarget.symm (Option.some_ne_none c)
  refine ⟨hs.1, fun h' c' => ?_⟩
  rw [mem_handles_eraseHandle, ← hs.2 h' c']
  constructor
  · intro htarget
    refine ⟨htarget, ?_⟩
    rintro ⟨rfl, rfl⟩
    exact hnot ((hs.2 _ _).1 htarget)
  · exact fun htarget => htarget.1

/-- Unbinding from a connector keeps the agreement, unless it destroys a handle that was closed
    before and is still bound to an endpoint. -/
theorem BothLinked.unbindConnector (hs : BothLinked s)
    (hfree : (s.handle h).connector = some c → Dropped env s c h → (s.handle h).closing = true →
      (s.handle h).endpoint = none) :
    BothLinked (s.unbindConnector env h c) := by
  rw [unbindConnector_eq]
  split
  · next hcon =>
    dsimp only
    have herased := hs.eraseHandle (h := h) (c := c)
      (fun c' hc' => Option.some.inj (hc'.symm.trans hcon))
    set s₁ := (s.modifyHandle h AtappConnectionHandle.clearConnector).eraseHandle h c with hs₁
    have hhandle : s₁.handle h = (s.handle h).clearConnector := by simp [hs₁]
    split
    · next hdropped =>
      refine herased.close.destroyed ?_ ?_
      · rw [close_eq]
        split
        · next hclosing =>
          rw [hhandle] at hclosing ⊢
          exact hfree hcon hdropped hclosing
        · exact (closeOnce_handle env s₁ h).2.1
      · rw [close_eq]
        split
        · rw [hhandle]
          rfl
        · exact (closeOnce_handle env s₁ h).2.2
    · exact herased.close
  · next hne => exact hs.eraseOther hne

end LibAtapp.Connectors.App
