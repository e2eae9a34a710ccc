import LibAtapp.Connectors.TwoSided

set_option autoImplicit false

/-! # Bindings over whole runs

Which operations keep the two sides of every binding in agreement. Closing, unbinding from an
endpoint, resetting an endpoint and everything that only concerns messages always do. Binding,
unbinding from a connector, cleaning a connector up and destroying a handle do exactly if no
handle is destroyed while one side still lists it. -/

namespace LibAtapp.Connectors.App

open BackRef

variable {env : Environment} {s : App} {h : HandlePtr} {e : EndpointPtr} {c : ConnectorPtr}

/-! ## Updates outside of the bindings -/

theorem referConnections_modifyEndpoint {f : AtappEndpoint → AtappEndpoint}
    (hf : (f (s.endpoint e)).referConnections = (s.endpoint e).referConnections)
    (e' : EndpointPtr) :
    ((s.modifyEndpoint e f).endpoint e').referConnections =
      (s.endpoint e').referConnections := by
  rw [endpoint_modifyEndpoint]
  split
  · next heq => rw [hf, heq]
  · rfl

theorem BothLinked.modifyEndpoint (hs : BothLinked s) {f : AtappEndpoint → AtappEndpoint}
    (hf : (f (s.endpoint e)).referConnections = (s.endpoint e).referConnections) :
    BothLinked (s.modifyEndpoint e f) :=
  hs.congr rfl (referConnections_modifyEndpoint hf) (fun _ => rfl)

theorem BothLinked.queues (hs : BothLinked s) {t : App} (h : Queues s t) : BothLinked t := by
  refine h.keeps ?_ hs
  intro t u hupdate ht
  cases hupdate with
  | record event => exact ht.congr rfl (fun _ => rfl) (fun _ => rfl)
  | count n => exact ht.congr rfl (fun _ => rfl) (fun _ => rfl)
  | queue e messages size => exact ht.modifyEndpoint rfl
  | disarm e => exact ht.modifyEndpoint rfl
  | unready h => exact ht.modifyHandle rfl rfl rfl
  | wake e time => exact ht.addWaker time

/-- A destroyed handle that is still listed breaks the agreement. -/
theorem not_bothLinked_of_listed (hdead : (s.handle h).alive = false)
    (hlisted : (∃ e, h ∈ (s.endpoint e).referConnections) ∨ ∃ c, h ∈ (s.connector c).handles) :
    ¬ BothLinked s := by
  intro hs
  obtain ⟨hrefer, hhandles⟩ := (twoSided_iff.2 hs).destroyed h hdead
  rcases hlisted with ⟨e, he⟩ | ⟨c, hc⟩
  · exact hrefer e he
  · exact hhandles c hc

/-! ## Who survives -/

/-- Closing destroys a handle only if it was open and its connector drops it. -/
theorem close_alive (env : Environment) (s : App) (h : HandlePtr) :
    ((s.close env h).handle h).alive = true ↔ (s.handle h).alive = true ∧
      ((s.handle h).closing = false → ∀ c, (s.handle h).connector = some c →
        ¬ Dropped env s c h) := by
  rw [close_eq]
  cases hclosing : (s.handle h).closing with
  | true => simp
  | false =>
    simp only [Bool.false_eq_true, if_false, true_implies]
    unfold App.closeOnce
    dsimp only
    set s₁ := (s.modifyHandle h AtappConnectionHandle.markClosing).leaveEndpoint h with hs₁
    have hhandle : s₁.handle h = (s.handle h).markClosing.clearEndpoint := by simp [hs₁]
    have hcon : (s₁.handle h).connector = (s.handle h).connector := by rw [hhandle]; rfl
    rw [hcon]
    split
    · next c hc =>
      have hdropped : Dropped env s₁ c h ↔ Dropped env s c h := by simp [Dropped, hs₁]
      rw [leaveConnector_eq, hc]
      by_cases hd : Dropped env s c h
      · rw [if_pos (hdropped.2 hd)]
        simp [AtappConnectionHandle.destroyed, hd]
      · rw [if_neg (fun h => hd (hdropped.1 h))]
        simp [AtappConnectionHandle.clearConnector, AtappConnectionHandle.clearEndpoint,
          AtappConnectionHandle.markClosing, hhandle, hd]
    · next hc =>
      simp [AtappConnectionHandle.clearEndpoint, AtappConnectionHandle.markClosing, hhandle, hc]

/-- Unbinding from a connector destroys the handle exactly if that connector drops it. -/
theorem unbindConnector_handle (env : Environment) (s : App) (h : HandlePtr)
    {c : ConnectorPtr} (hcon : (s.handle h).connector = some c) :
    ((s.unbindConnector env h c).handle h).connector = none ∧
      (((s.unbindConnector env h c).handle h).alive = true ↔
        (s.handle h).alive = true ∧ ¬ Dropped env s c h) := by
  rw [unbindConnector_eq, if_pos hcon]
  dsimp only
  set s₁ := (s.modifyHandle h AtappConnectionHandle.clearConnector).eraseHandle h c with hs₁
  have hhandle : s₁.handle h = (s.handle h).clearConnector := by simp [hs₁]
  have hnone : ((s₁.close env h).handle h).connector = none := by
    rw [close_eq]
    split
    · rw [hhandle]
      rfl
    · exact (closeOnce_handle env s₁ h).2.2
  have halive : ((s₁.close env h).handle h).alive = true ↔ (s.handle h).alive = true := by
    rw [close_alive, hhandle]
    simp [AtappConnectionHandle.clearConnector]
  split
  · next hd => exact ⟨by simpa [AtappConnectionHandle.destroyed] using hnone,
      by simp [AtappConnectionHandle.destroyed, hd]⟩
  · next hd => exact ⟨hnone, by rw [halive]; simp [hd]⟩

/-- Unbinding from an endpoint closes the handle, which destroys it exactly if it was open and its
    connector drops it. -/
theorem unbindEndpoint_handle (env : Environment) (s : App) (h : HandlePtr)
    {e : EndpointPtr} (hend : (s.handle h).endpoint = some e) :
    ((s.unbindEndpoint env h e).handle h).endpoint = none ∧
      (((s.unbindEndpoint env h e).handle h).alive = true ↔ (s.handle h).alive = true ∧
        ((s.handle h).closing = false → ∀ c, (s.handle h).connector = some c →
          ¬ Dropped env s c h)) := by
  rw [unbindEndpoint_eq, if_pos hend]
  set s₁ := (s.dropRefer h e).modifyHandle h AtappConnectionHandle.clearEndpoint with hs₁
  have hhandle : s₁.handle h = (s.handle h).clearEndpoint := by simp [hs₁]
  constructor
  · rw [close_eq]
    split
    · rw [hhandle]
      rfl
    · exact (closeOnce_handle env s₁ h).2.1
  · rw [close_alive, hhandle]
    simp [AtappConnectionHandle.clearEndpoint, Dropped, hs₁]

/-! ## Binding -/

/-- A live handle without connector joins one. -/
theorem BothLinked.joinConnector (hs : BothLinked s) (halive : (s.handle h).alive = true)
    (hfree : (s.handle h).connector = none) :
    BothLinked (s.attachConnector h c) := by
  unfold attachConnector
  set s₁ := s.modifyHandle h fun x => { x with connector := some c } with hs₁
  refine ⟨?_, hs.2.link (h := h) (e := c) ?_ ?_ ?_ ?_⟩
  · rw [endpointOf_modifyConnector, hs₁, endpointOf_modifyHandle ⟨rfl, rfl⟩]
    exact hs.1
  · simp [connectorOf, hfree]
  · simp [connectorOf, hs₁, halive]
  · intro h' hne
    rw [connectorOf_modifyConnector, hs₁, connectorOf_modifyHandle_of_ne hne]
  · intro h' c'
    rw [connector_modifyConnector]
    by_cases hc : c' = c
    · subst hc
      simp [hs₁, or_comm]
    · simp [hc, hs₁]

/-- A live handle without endpoint joins one. -/
theorem BothLinked.joinEndpoint (hs : BothLinked s) (halive : (s.handle h).alive = true)
    (hfree : (s.handle h).endpoint = none) :
    BothLinked (s.attachEndpoint h e) := by
  unfold attachEndpoint
  set s₁ := s.modifyHandle h fun x => { x with endpoint := some e } with hs₁
  refine ⟨hs.1.link (h := h) (e := e) ?_ ?_ ?_ ?_, ?_⟩
  · simp [endpointOf, hfree]
  · simp [endpointOf, hs₁, halive]
  · intro h' hne
    rw [endpointOf_modifyEndpoint, hs₁, endpointOf_modifyHandle_of_ne hne]
  · intro h' e'
    rw [endpoint_modifyEndpoint]
    by_cases he : e' = e
    · subst he
      simp [hs₁, or_comm]
    · simp [he, hs₁]
  · rw [connectorOf_modifyEndpoint, hs₁, connectorOf_modifyHandle ⟨rfl, rfl⟩]
    exact hs.2

/-- Binding to a connector keeps the agreement exactly if leaving the old connector does not
    destroy the handle. -/
theorem bothLinked_bindConnector (hs : BothLinked s) (halive : (s.handle h).alive = true) :
    BothLinked (s.bindConnector env h c) ↔
      ∀ c', (s.handle h).connector = some c' → c' ≠ c → (s.connector c).isDestroying = false →
        ¬ Dropped env s c' h := by
  unfold App.bindConnector
  split
  · next hskip =>
    refine iff_of_true hs fun c' hc' hne hdestroying => ?_
    rcases hskip with hsame | hskip
    · rw [hc'] at hsame
      exact absurd (Option.some.inj hsame) hne
    · rw [hskip] at hdestroying
      exact absurd hdestroying (by decide)
  · next hbind =>
    rw [not_or, Bool.not_eq_true] at hbind
    unfold releaseConnector
    cases hcon : (s.handle h).connector with
    | none => exact iff_of_true (hs.joinConnector halive hcon) (by simp)
    | some c' =>
      dsimp only
      obtain ⟨hnone, halive'⟩ := unbindConnector_handle env s h hcon
      have hne : c' ≠ c := fun heq => hbind.1 (by rw [hcon, heq])
      by_cases hd : Dropped env s c' h
      · refine iff_of_false ?_ fun hcond => hcond c' rfl hne hbind.2 hd
        refine not_bothLinked_of_listed (h := h) ?_ (Or.inr ⟨c, by simp [attachConnector]⟩)
        rw [attachConnector, handle_modifyConnector, handle_modifyHandle_self,
          ← Bool.not_eq_true, halive']
        exact fun hboth => hboth.2 hd
      · refine iff_of_true ?_ fun c'' hc'' _ _ => Option.some.inj hc'' ▸ hd
        refine BothLinked.joinConnector ?_ (halive'.2 ⟨halive, hd⟩) hnone
        exact hs.unbindConnector fun _ hdropped => absurd hdropped hd

/-- Binding to an endpoint keeps the agreement exactly if leaving the old endpoint does not
    destroy the handle. -/
theorem bothLinked_bindEndpoint (hs : BothLinked s) (halive : (s.handle h).alive = true) :
    BothLinked (s.bindEndpoint env h e) ↔
      ∀ e' c, (s.handle h).endpoint = some e' → e' ≠ e → (s.handle h).closing = false →
        (s.handle h).connector = some c → ¬ Dropped env s c h := by
  have hwake : ∀ t : App, BothLinked (if (t.handle h).ready then t.addWaker e t.getNextTickTime
      else t) ↔ BothLinked t := by
    intro t
    split
    · constructor
      · intro ht
        exact ht.congr (by simp) (by simp) (by simp)
      · exact fun ht => ht.addWaker _
    · exact Iff.rfl
  unfold App.bindEndpoint
  split
  · next hsame =>
    refine iff_of_true hs fun e' c' he' hne _ _ => ?_
    rw [he'] at hsame
    exact absurd (Option.some.inj hsame) hne
  · next hbind =>
    dsimp only
    rw [hwake, releaseEndpoint]
    cases hend : (s.handle h).endpoint with
    | none => exact iff_of_true (hs.joinEndpoint halive hend) (by simp)
    | some e' =>
      dsimp only
      obtain ⟨hnone, halive'⟩ := unbindEndpoint_handle env s h hend
      have hne : e' ≠ e := fun heq => hbind (by rw [hend, heq])
      by_cases hd : (s.handle h).closing = false → ∀ c, (s.handle h).connector = some c →
          ¬ Dropped env s c h
      · refine iff_of_true ?_ fun e'' c' _ _ hclosing hc' => hd hclosing c' hc'
        exact hs.unbindEndpoint.joinEndpoint (halive'.2 ⟨halive, hd⟩) hnone
      · refine iff_of_false ?_ fun hcond => hd fun hclosing c' hc' =>
          hcond e' c' rfl hne hclosing hc'
        refine not_bothLinked_of_listed (h := h) ?_ (Or.inl ⟨e, by simp [attachEndpoint]⟩)
        rw [attachEndpoint, handle_modifyEndpoint, handle_modifyHandle_self, ← Bool.not_eq_true,
          halive']
        exact fun hboth => hd hboth.2

/-! ## Resetting an endpoint -/

/-- The endpoint has dropped the handles of `rest`, which still point to it. -/
def EndpointDropped (e : EndpointPtr) (rest : List HandlePtr) (s : App) : Prop :=
  LinkedBut e rest s.endpointOf (fun e => (s.endpoint e).referConnections) ∧
    Linked s.connectorOf (fun c => (s.connector c).handles)

/-- Leaving the connector keeps what the connectors know. -/
theorem linked_leaveConnector (hs : Linked s.connectorOf (fun c => (s.connector c).handles))
    (hcon : (s.handle h).connector = some c) :
    Linked (s.leaveConnector env h c).connectorOf
      (fun c' => ((s.leaveConnector env h c).connector c').handles) := by
  have herased : Linked ((s.modifyHandle h AtappConnectionHandle.clearConnector).eraseHandle h
      c).connectorOf (fun c' => (((s.modifyHandle h AtappConnectionHandle.clearConnector).eraseHandle
        h c).connector c').handles) := by
    refine hs.unlink (h := h) (e := c) ?_ ?_ ?_ fun h' c' => mem_handles_eraseHandle
    · intro c' htarget
      unfold connectorOf at htarget
      split at htarget
      · exact Option.some.inj (htarget.symm.trans hcon)
      · exact absurd htarget.symm (Option.some_ne_none c')
    · rw [connectorOf_clearConnector, if_pos rfl]
    · intro h' hne
      rw [connectorOf_clearConnector, if_neg hne]
  rw [leaveConnector_eq]
  split
  · rw [connectorOf_destroyed (by simp [AtappConnectionHandle.clearConnector])]
    exact herased
  · exact herased

/-- Leaving the connector does not concern the endpoints of a handle that has none. -/
theorem endpointOf_leaveConnector (hend : (s.handle h).endpoint = none) :
    (s.leaveConnector env h c).endpointOf = s.endpointOf := by
  rw [leaveConnector_eq]
  split
  · rw [endpointOf_destroyed (by simpa [AtappConnectionHandle.clearConnector] using hend),
      endpointOf_clearConnector]
  · exact endpointOf_clearConnector s h c

@[simp] theorem endpoint_leaveConnector : (s.leaveConnector env h c).endpoint = s.endpoint := by
  rw [leaveConnector_eq]
  split <;> rfl

/-- Closing a handle that has no endpoint concerns no endpoint. -/
theorem close_of_noEndpoint (env : Environment) (hend : (s.handle h).endpoint = none) :
    (s.close env h).endpointOf = s.endpointOf ∧ (s.close env h).endpoint = s.endpoint ∧
      (Linked s.connectorOf (fun c => (s.connector c).handles) →
        Linked (s.close env h).connectorOf (fun c => ((s.close env h).connector c).handles)) := by
  rw [close_eq]
  split
  · exact ⟨rfl, rfl, id⟩
  · unfold App.closeOnce
    dsimp only
    set s₁ := s.modifyHandle h AtappConnectionHandle.markClosing with hs₁
    have hend₁ : (s₁.handle h).endpoint = none := by
      simpa [hs₁, AtappConnectionHandle.markClosing] using hend
    have hstay : s₁.leaveEndpoint h = s₁ := by rw [App.leaveEndpoint, hend₁]
    have hend₂ : s₁.endpointOf = s.endpointOf := by rw [hs₁, endpointOf_modifyHandle ⟨rfl, rfl⟩]
    have hcon₂ : s₁.connectorOf = s.connectorOf := by rw [hs₁, connectorOf_modifyHandle ⟨rfl, rfl⟩]
    rw [hstay]
    split
    · next c hcon =>
      refine ⟨by rw [endpointOf_leaveConnector hend₁, hend₂], endpoint_leaveConnector, fun hl => ?_⟩
      exact linked_leaveConnector (by rw [hcon₂]; exact hl) hcon
    · exact ⟨hend₂, rfl, fun hl => by rw [hcon₂]; exact hl⟩

/-- Unbinding one of the handles that the endpoint has dropped. -/
theorem EndpointDropped.unbindEndpoint {rest : List HandlePtr}
    (hs : EndpointDropped e (h :: rest) s) :
    EndpointDropped e rest (s.unbindEndpoint env h e) := by
  have hnot : h ∉ (s.endpoint e).referConnections := by
    intro hmem
    exact ((hs.1 h e).1 hmem).2 ⟨rfl, List.mem_cons_self⟩
  have hdrop : s.dropRefer h e = s := by rw [App.dropRefer, if_neg hnot]
  rw [unbindEndpoint_eq, hdrop]
  split
  · next hend =>
    set s₁ := s.modifyHandle h AtappConnectionHandle.clearEndpoint with hs₁
    obtain ⟨hends, hcell, hlinked⟩ := close_of_noEndpoint (s := s₁) (h := h) env
      (by simp [hs₁, AtappConnectionHandle.clearEndpoint])
    constructor
    · rw [hends]
      refine hs.1.clear (h := h) ?_ ?_ ?_ ?_
      · intro e' htarget
        unfold endpointOf at htarget
        split at htarget
        · exact Option.some.inj (htarget.symm.trans hend)
        · exact absurd htarget.symm (Option.some_ne_none e')
      · simp [hs₁, endpointOf, AtappConnectionHandle.clearEndpoint]
      · intro h' hne
        rw [hs₁, endpointOf_modifyHandle_of_ne hne]
      · intro h' e'
        rw [hcell]
        rfl
    · refine hlinked ?_
      rw [hs₁, connectorOf_modifyHandle ⟨rfl, rfl⟩]
      exact hs.2
  · next hne =>
    refine ⟨hs.1.skip ?_, hs.2⟩
    unfold endpointOf
    split
    · exact hne
    · exact (Option.some_ne_none e).symm

theorem BothLinked.unbindAll (hs : BothLinked s) : BothLinked (s.unbindAll env e) := by
  unfold App.unbindAll
  dsimp only
  set s₁ := s.modifyEndpoint e fun ep => { ep with referConnections := [] } with hs₁
  have hfold : ∀ (rest : List HandlePtr) (t : App), EndpointDropped e rest t →
      BothLinked (rest.foldl (fun s h => s.unbindEndpoint env h e) t) := by
    intro rest
    induction rest with
    | nil =>
      intro t ht
      exact ⟨linkedBut_nil.1 ht.1, ht.2⟩
    | cons h rest ih =>
      intro t ht
      exact ih _ ht.unbindEndpoint
  refine hfold _ _ ⟨?_, hs.2⟩
  rw [hs₁, endpointOf_modifyEndpoint]
  refine hs.1.drop_all ?_ ?_ ?_
  · intro h'
    exact (env.walk_perm _).mem_iff
  · simp
  · intro e' hne
    rw [endpoint_modifyEndpoint_of_ne hne]

theorem BothLinked.record (hs : BothLinked s) (event : ForwardEvent) :
    BothLinked (s.record event) :=
  hs.congr rfl (fun _ => rfl) (fun _ => rfl)

theorem BothLinked.resetEndpoint (hs : BothLinked s) : BothLinked (s.resetEndpoint env e) := by
  unfold App.resetEndpoint
  split
  · exact hs
  · refine BothLinked.record (BothLinked.modifyEndpoint (BothLinked.unbindAll ?_) ?_) _
    · exact (hs.modifyEndpoint (e := e) (f := fun ep => { ep with closing := true }) rfl).queues
        queues_cancelPendingMessages
    · rfl

theorem BothLinked.destroyEndpoint (hs : BothLinked s) : BothLinked (s.destroyEndpoint env e) := by
  unfold App.destroyEndpoint
  apply BothLinked.modifyEndpoint
  · apply BothLinked.resetEndpoint
    exact hs.modifyEndpoint rfl
  · rfl

/-! ## Cleaning a connector up -/

/-- The connector has dropped the handles of `rest`, which still point to it. -/
def ConnectorDropped (c : ConnectorPtr) (rest : List HandlePtr) (s : App) : Prop :=
  Linked s.endpointOf (fun e => (s.endpoint e).referConnections) ∧
    LinkedBut c rest s.connectorOf (fun c => (s.connector c).handles)

/-- Closing a handle that has no connector concerns no connector. -/
theorem close_of_noConnector (env : Environment) (hcon : (s.handle h).connector = none) :
    (s.close env h).connectorOf = s.connectorOf ∧
      (s.close env h).connector = s.connector ∧
      (Linked s.endpointOf (fun e => (s.endpoint e).referConnections) →
        Linked (s.close env h).endpointOf
          (fun e => ((s.close env h).endpoint e).referConnections)) := by
  rw [close_eq]
  split
  · exact ⟨rfl, rfl, id⟩
  · unfold App.closeOnce
    dsimp only
    set s₁ := s.modifyHandle h AtappConnectionHandle.markClosing with hs₁
    have hend₁ : s₁.endpointOf = s.endpointOf := by rw [hs₁, endpointOf_modifyHandle ⟨rfl, rfl⟩]
    have hcon₁ : s₁.connectorOf = s.connectorOf := by rw [hs₁, connectorOf_modifyHandle ⟨rfl, rfl⟩]
    have hnone : ((s₁.leaveEndpoint h).handle h).connector = none := by
      simpa [hs₁, AtappConnectionHandle.markClosing, AtappConnectionHandle.clearEndpoint] using hcon
    rw [hnone]
    refine ⟨by rw [connectorOf_leaveEndpoint, hcon₁], by rw [connector_leaveEndpoint]; rfl,
      fun hl => ?_⟩
    exact linked_leaveEndpoint (by rw [hend₁]; exact hl)

/-- Unbinding one of the handles that the connector has dropped. -/
theorem ConnectorDropped.unbindConnector {rest : List HandlePtr}
    (hs : ConnectorDropped c (h :: rest) s)
    (hfree : (s.handle h).connector = some c → Dropped env s c h → (s.handle h).closing = true →
      (s.handle h).endpoint = none) :
    ConnectorDropped c rest (s.unbindConnector env h c) := by
  have hnot : h ∉ (s.connector c).handles := by
    intro hmem
    exact ((hs.2 h c).1 hmem).2 ⟨rfl, List.mem_cons_self⟩
  have hsame : ∀ h' c', h' ∈ ((s.eraseHandle h c).connector c').handles ↔
      h' ∈ (s.connector c').handles := by
    intro h' c'
    rw [mem_handles_eraseHandle]
    refine ⟨fun hmem => hmem.1, fun hmem => ⟨hmem, ?_⟩⟩
    rintro ⟨rfl, rfl⟩
    exact hnot hmem
  rw [unbindConnector_eq]
  split
  · next hcon =>
    dsimp only
    set s₁ := (s.modifyHandle h AtappConnectionHandle.clearConnector).eraseHandle h c with hs₁
    have hhandle : s₁.handle h = (s.handle h).clearConnector := by simp [hs₁]
    obtain ⟨hcons, hcell, hlinked⟩ := close_of_noConnector (s := s₁) (h := h) env
      (by rw [hhandle]; rfl)
    have hclosed : ConnectorDropped c rest (s₁.close env h) := by
      constructor
      · refine hlinked ?_
        rw [hs₁, endpointOf_clearConnector]
        exact hs.1
      · rw [hcons, hcell]
        refine hs.2.clear (h := h) ?_ ?_ ?_ hsame
        · intro c' htarget
          unfold connectorOf at htarget
          split at htarget
          · exact Option.some.inj (htarget.symm.trans hcon)
          · exact absurd htarget.symm (Option.some_ne_none c')
        · rw [hs₁, connectorOf_clearConnector, if_pos rfl]
        · intro h' hne
          rw [hs₁, connectorOf_clearConnector, if_neg hne]
    split
    · next hd =>
      -- the handle is destroyed, so it must have lost its endpoint before
      have hend : ((s₁.close env h).handle h).endpoint = none := by
        rw [close_eq]
        split
        · next hclosing =>
          rw [hhandle] at hclosing ⊢
          exact hfree hcon hd hclosing
        · exact (closeOnce_handle env s₁ h).2.1
      have hnone : ((s₁.close env h).handle h).connector = none := by
        rw [close_eq]
        split
        · rw [hhandle]
          rfl
        · exact (closeOnce_handle env s₁ h).2.2
      unfold ConnectorDropped
      rw [endpointOf_destroyed hend, connectorOf_destroyed hnone]
      exact hclosed
    · exact hclosed
  · next hne =>
    refine ⟨hs.1, ?_⟩
    have hskip := hs.2.skip (h := h) (by
      unfold connectorOf
      split
      · exact hne
      · exact (Option.some_ne_none c).symm)
    intro h' c'
    rw [hsame h' c']
    exact hskip h' c'

theorem unbindConnector_handle_of_ne {h' : HandlePtr} (hne : h' ≠ h) :
    (s.unbindConnector env h c).handle h' = s.handle h' := by
  have herase : ((s.modifyHandle h AtappConnectionHandle.clearConnector).eraseHandle h c).handle h' =
      s.handle h' := by
    rw [handle_eraseHandle, handle_modifyHandle_of_ne hne]
  rw [unbindConnector_eq]
  split
  · dsimp only
    split
    · rw [handle_modifyHandle_of_ne hne, close_handle_of_ne hne, herase]
    · rw [close_handle_of_ne hne, herase]
  · rfl

/-- The handles of the connector that its cleanup may not destroy: closed before, and still bound
    to an endpoint. -/
def CleanupReleases (env : Environment) (s : App) (c : ConnectorPtr) : Prop :=
  ∀ h ∈ (s.connector c).handles, Dropped env s c h → (s.handle h).closing = true →
    (s.handle h).endpoint = none

theorem BothLinked.cleanup (hs : BothLinked s) (hfree : CleanupReleases env s c) :
    BothLinked (s.cleanup env c) := by
  unfold App.cleanup
  dsimp only
  set s₁ := s.modifyConnector c fun co => { co with handles := [] } with hs₁
  -- a handle that still has to be unbound is as it was before the cleanup
  have hfold : ∀ (rest : List HandlePtr) (t : App), ConnectorDropped c rest t →
      (∀ h ∈ rest, (t.handle h).connector = some c → t.handle h = s.handle h) →
      (∀ h ∈ rest, h ∈ (s.connector c).handles) →
      (t.connector c).isDestroying = (s.connector c).isDestroying →
      BothLinked (rest.foldl (fun s h => s.unbindConnector env h c) t) := by
    intro rest
    induction rest with
    | nil =>
      intro t ht _ _ _
      exact ⟨ht.1, linkedBut_nil.1 ht.2⟩
    | cons h rest ih =>
      intro t ht hsame hmem hdestroying
      simp only [List.foldl_cons]
      have hfree' : (t.handle h).connector = some c → Dropped env t c h →
          (t.handle h).closing = true → (t.handle h).endpoint = none := by
        intro hcon hd
        rw [hsame h List.mem_cons_self hcon]
        refine hfree h (hmem h List.mem_cons_self) ?_
        rwa [Dropped, ← hdestroying]
      refine ih _ (ht.unbindConnector hfree') ?_ (fun h' hh' => hmem h' (List.mem_cons_of_mem h hh'))
        (by rw [(unbinds_unbindConnector env t h c).isDestroying c, hdestroying])
      intro h' hh' hcon
      by_cases hh : h' = h
      · subst hh
        by_cases hcon' : (t.handle h').connector = some c
        · rw [(unbindConnector_handle env t h' hcon').1] at hcon
          exact absurd hcon.symm (Option.some_ne_none c)
        · rw [unbindConnector_eq, if_neg hcon'] at hcon
          exact absurd hcon hcon'
      · rw [unbindConnector_handle_of_ne hh] at hcon ⊢
        exact hsame h' (List.mem_cons_of_mem h hh') hcon
  refine hfold _ _ ⟨hs.1, ?_⟩ ?_ ?_ ?_
  · rw [hs₁, connectorOf_modifyConnector]
    refine hs.2.drop_all ?_ ?_ ?_
    · intro h'
      exact (env.walk_perm _).mem_iff
    · simp
    · intro c' hne
      rw [connector_modifyConnector_of_ne hne]
  · exact fun _ _ _ => rfl
  · intro h' hh'
    exact (env.walk_perm _).mem_iff.1 hh'
  · simp [hs₁]

/-- Unbinding a handle takes only that handle out of the sets of the endpoints. -/
theorem mem_referConnections_close {h' : HandlePtr} {e' : EndpointPtr} (hne : h' ≠ h) :
    h' ∈ ((s.close env h).endpoint e').referConnections ↔
      h' ∈ (s.endpoint e').referConnections := by
  have hleave : ∀ t : App, h' ∈ ((t.leaveEndpoint h).endpoint e').referConnections ↔
      h' ∈ (t.endpoint e').referConnections := by
    intro t
    unfold App.leaveEndpoint
    split
    · rw [endpoint_modifyHandle, mem_referConnections_dropRefer]
      exact ⟨fun hmem => hmem.1, fun hmem => ⟨hmem, fun heq => hne heq.1⟩⟩
    · exact Iff.rfl
  rw [close_eq]
  split
  · exact Iff.rfl
  · unfold App.closeOnce
    dsimp only
    split
    · rw [endpoint_leaveConnector, hleave]
      rfl
    · rw [hleave]
      rfl

theorem mem_referConnections_unbindConnector {h' : HandlePtr} {e' : EndpointPtr} (hne : h' ≠ h) :
    h' ∈ ((s.unbindConnector env h c).endpoint e').referConnections ↔
      h' ∈ (s.endpoint e').referConnections := by
  rw [unbindConnector_eq]
  split
  · dsimp only
    split
    · rw [endpoint_modifyHandle, mem_referConnections_close hne]
      rfl
    · rw [mem_referConnections_close hne]
      rfl
  · rfl

/-- Unbinding a handle that was closed before leaves its endpoint. -/
theorem unbindConnector_of_closing (hcon : (s.handle h).connector = some c)
    (hclosing : (s.handle h).closing = true) (hd : Dropped env s c h) :
    s.unbindConnector env h c =
      ((s.modifyHandle h AtappConnectionHandle.clearConnector).eraseHandle h c).modifyHandle h
        AtappConnectionHandle.destroyed := by
  rw [unbindConnector_eq, if_pos hcon]
  dsimp only
  rw [if_pos hd, close_eq, if_pos]
  simpa [AtappConnectionHandle.clearConnector] using hclosing

/-- A cleanup that destroys a handle which was closed before leaves it with its endpoint. -/
theorem not_bothLinked_cleanup (hs : BothLinked s) (hfree : ¬ CleanupReleases env s c) :
    ¬ BothLinked (s.cleanup env c) := by
  unfold CleanupReleases at hfree
  push Not at hfree
  obtain ⟨h, hmem, hd, hclosing, hbound⟩ := hfree
  obtain ⟨e, hend⟩ := Option.ne_none_iff_exists'.1 hbound
  have hown : (s.handle h).alive = true ∧ (s.handle h).connector = some c := by
    have htarget := (hs.2 h c).2 hmem
    unfold connectorOf at htarget
    split at htarget
    · next halive => exact ⟨halive, htarget⟩
    · exact absurd htarget.symm (Option.some_ne_none c)
  have hrefer : h ∈ (s.endpoint e).referConnections :=
    (hs.1 h e).1 (by rw [endpointOf, if_pos hown.1, hend])
  unfold App.cleanup
  dsimp only
  set s₁ := s.modifyConnector c fun co => { co with handles := [] } with hs₁
  -- the handle is either still to come or destroyed, and its endpoint lists it all the time
  have hfold : ∀ (rest : List HandlePtr) (t : App), h ∈ (t.endpoint e).referConnections →
      (t.connector c).isDestroying = (s.connector c).isDestroying →
      ((h ∈ rest ∧ t.handle h = s.handle h) ∨
        ((t.handle h).alive = false ∧ (t.handle h).connector ≠ some c)) →
      ¬ BothLinked (rest.foldl (fun s h => s.unbindConnector env h c) t) := by
    intro rest
    induction rest with
    | nil =>
      rintro t hlisted - (⟨hnil, -⟩ | ⟨hdead, -⟩)
      · exact absurd hnil List.not_mem_nil
      · exact not_bothLinked_of_listed hdead (Or.inl ⟨e, hlisted⟩)
    | cons h' rest ih =>
      intro t hlisted hdestroying hstate
      simp only [List.foldl_cons]
      have hdestroying' : ((t.unbindConnector env h' c).connector c).isDestroying =
          (s.connector c).isDestroying := by
        rw [(unbinds_unbindConnector env t h' c).isDestroying c, hdestroying]
      by_cases hh : h' = h
      · subst hh
        rcases hstate with ⟨-, hsame⟩ | ⟨hdead, hne⟩
        · have heq : t.unbindConnector env h' c = _ := unbindConnector_of_closing
            (by rw [hsame, hown.2]) (by rw [hsame, hclosing]) (by rwa [Dropped, hdestroying])
          refine ih _ ?_ hdestroying' (Or.inr ?_)
          · rw [heq]
            exact hlisted
          · rw [heq]
            simp [AtappConnectionHandle.destroyed, AtappConnectionHandle.clearConnector]
        · refine ih _ ?_ hdestroying' (Or.inr ?_)
          · rw [unbindConnector_eq, if_neg hne]
            exact hlisted
          · rw [unbindConnector_eq, if_neg hne]
            exact ⟨hdead, hne⟩
      · have hhandle : (t.unbindConnector env h' c).handle h = t.handle h :=
          unbindConnector_handle_of_ne fun heq => hh heq.symm
        refine ih _ ?_ hdestroying' ?_
        · rwa [mem_referConnections_unbindConnector fun heq => hh heq.symm]
        · rw [hhandle]
          rcases hstate with ⟨hin, hsame⟩ | hdead
          · exact Or.inl ⟨(List.mem_cons.1 hin).resolve_left fun heq => hh heq.symm, hsame⟩
          · exact Or.inr hdead
  refine hfold _ _ ?_ ?_ (Or.inl ⟨(env.walk_perm _).mem_iff.2 hmem, rfl⟩)
  · exact hrefer
  · simp [hs₁]

end LibAtapp.Connectors.App
