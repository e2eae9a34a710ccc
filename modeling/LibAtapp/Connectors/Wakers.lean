import LibAtapp.Connectors.Messages
import LibAtapp.Connectors.TwoSided

set_option autoImplicit false

/-! # The wakers of the endpoints

A waker says when an endpoint wants to be woken: once in the endpoint, as its nearest waker, and once
in the ordered map of the app. Most operations only move a waker to an earlier time and only take
handles away, so they keep every promise that was made; `Steady` says this, and each operation is
shown to be steady here. -/

namespace LibAtapp.Connectors

/-- A handle that is ready, has a connector and points to the endpoint. -/
def AtappConnectionHandle.Delivers (x : AtappConnectionHandle) (e : EndpointPtr) : Prop :=
  x.ready = true ∧ x.connector ≠ none ∧ x.endpoint = some e

instance (x : AtappConnectionHandle) (e : EndpointPtr) : Decidable (x.Delivers e) :=
  inferInstanceAs (Decidable (_ ∧ _))

namespace App

variable {env : Environment} {s t u : App} {e : EndpointPtr}

/-- A second. An earlier nearest waker counts as none, because it is compared in whole seconds. -/
def second : Int := 1000000000

/-- A ready handle with a connector is bound to the endpoint. -/
def HasReady (s : App) (e : EndpointPtr) : Prop :=
  ∃ h ∈ (s.endpoint e).referConnections, (s.handle h).Delivers e

instance (s : App) (e : EndpointPtr) : Decidable (s.HasReady e) :=
  inferInstanceAs (Decidable (∃ h ∈ (s.endpoint e).referConnections, (s.handle h).Delivers e))

/-- The endpoint will be woken at the next tick or earlier. -/
def WakesNext (s : App) (e : EndpointPtr) : Prop :=
  (s.endpoint e).nearestWaker ≠ 0 ∧ (s.endpoint e).nearestWaker ≤ s.getNextTickTime

instance (s : App) (e : EndpointPtr) : Decidable (s.WakesNext e) :=
  inferInstanceAs (Decidable (_ ∧ _))

/-! ## Times -/

/-- The app is running, and every time that a waker can be set to is a second after the epoch or
    later. -/
structure TimesSet (s : App) : Prop where
  running : s.isClosing = false
  now : second ≤ s.lastTickTimepoint
  messageTimeout : 0 ≤ s.conf.getConfigureMessageTimeout
  gcTimeout : 0 ≤ s.conf.endpointGcTimeout
  nearest : ∀ e, (s.endpoint e).nearestWaker = 0 ∨ second ≤ (s.endpoint e).nearestWaker
  gc : ∀ e, (s.endpoint e).alive = true → second ≤ (s.endpoint e).gcTimepoint
  expiry : ∀ e, ∀ msg ∈ (s.endpoint e).pendingMessage, second ≤ msg.expiredTimepoint

theorem TimesSet.nextTick (hs : TimesSet s) : second ≤ s.getNextTickTime := by
  have hnow := hs.now
  have hinterval := s.conf.interval_pos
  unfold getNextTickTime
  omega

/-- A time from the first second on is not taken for none. -/
theorem toTimeT_ne_zero {time : Int} (h : second ≤ time) : toTimeT time ≠ 0 := by
  have hle : 1000000000 ≤ time := h
  rw [toTimeT, Int.tdiv_eq_ediv_of_nonneg (by omega)]
  omega

/-- The waker that an endpoint has after it is told to wake at a time. -/
def earlier (nearest time : Int) : Int := if nearest = 0 then time else min nearest time

/-- **What `add_waker` does** while the app runs: the nearest waker of the endpoint moves to the time
    if that is earlier, and is listed if it was listed before. -/
theorem addWaker_spec (hs : TimesSet s) (e : EndpointPtr) (time : Int) :
    ∃ waker : List WakerKey,
      s.addWaker e time =
        { s with
          endpointWaker := waker
          endpoint := Function.update s.endpoint e
            { s.endpoint e with nearestWaker := earlier (s.endpoint e).nearestWaker time } } ∧
      (∀ e' ≠ e, ∀ t, (t, some e') ∈ s.endpointWaker → (t, some e') ∈ waker) ∧
      ((s.endpoint e).alive = true →
        ((s.endpoint e).nearestWaker ≠ 0 →
          ((s.endpoint e).nearestWaker, some e) ∈ s.endpointWaker) →
        (earlier (s.endpoint e).nearestWaker time, some e) ∈ waker) := by
  have hpos : (0 : Int) < second := by decide
  obtain ⟨heq, hclosing | ⟨hlate, hset⟩⟩ | ⟨-, harm, waker, hlisted, hother, heq⟩ :=
    s.addWaker_cases e time
  · rw [hs.running] at hclosing
    exact absurd hclosing (by decide)
  · -- the endpoint wakes earlier already
    have hne : (s.endpoint e).nearestWaker ≠ 0 := by
      intro hzero
      exact hset (by rw [hzero]; rfl)
    have hsame : earlier (s.endpoint e).nearestWaker time = (s.endpoint e).nearestWaker := by
      rw [earlier, if_neg hne]
      omega
    refine ⟨s.endpointWaker, ?_, fun _ _ _ h => h, fun _ hlist => ?_⟩
    · rw [heq, hsame, Function.update_eq_self]
    · rw [hsame]
      exact hlist hne
  · have hmoves : earlier (s.endpoint e).nearestWaker time = time := by
      unfold earlier
      split
      · rfl
      · next hne =>
        rcases harm with hearly | hzero
        · omega
        · exact absurd hzero (toTimeT_ne_zero ((hs.nearest e).resolve_left hne))
    refine ⟨waker, ?_, fun e' hne t hmem => hother _ hmem ?_ ?_, fun halive _ => ?_⟩
    · rw [heq, hmoves]
    · intro hkey
      exact hne (Option.some.inj (congrArg Prod.snd hkey))
    · intro hkey
      exact Option.some_ne_none e' (congrArg Prod.snd hkey)
    · rw [hmoves]
      exact hlisted halive

/-! ## Steady operations -/

/-- Wakers only move to earlier times and stay listed, and an endpoint that gets a ready handle is
    woken at the next tick or has nothing to send. -/
structure Steady (s t : App) : Prop where
  conf : t.conf = s.conf
  lastTick : t.lastTickTimepoint = s.lastTickTimepoint
  isClosing : t.isClosing = s.isClosing
  alive : ∀ e, (t.endpoint e).alive = true → (s.endpoint e).alive = true
  nearest : ∀ e, (t.endpoint e).nearestWaker = (s.endpoint e).nearestWaker ∨
    (second ≤ (t.endpoint e).nearestWaker ∧ ((s.endpoint e).nearestWaker = 0 ∨
      (t.endpoint e).nearestWaker ≤ (s.endpoint e).nearestWaker))
  gc : ∀ e, (t.endpoint e).gcTimepoint = (s.endpoint e).gcTimepoint ∨
    second ≤ (t.endpoint e).gcTimepoint
  listed : ∀ e, (t.endpoint e).alive = true →
    ((s.endpoint e).nearestWaker ≠ 0 →
      ((s.endpoint e).nearestWaker, some e) ∈ s.endpointWaker) →
    (t.endpoint e).nearestWaker ≠ 0 → ((t.endpoint e).nearestWaker, some e) ∈ t.endpointWaker
  idle : ∀ e, (s.endpoint e).pendingMessage = [] → (t.endpoint e).pendingMessage = []
  ready : ∀ e, HasReady t e → HasReady s e ∨ WakesNext t e ∨ (t.endpoint e).pendingMessage = []

theorem Steady.refl (s : App) : Steady s s :=
  ⟨rfl, rfl, rfl, fun _ h => h, fun _ => Or.inl rfl, fun _ => Or.inl rfl, fun _ _ h => h,
    fun _ h => h, fun _ => Or.inl⟩

theorem Steady.nextTick (h : Steady s t) : t.getNextTickTime = s.getNextTickTime := by
  rw [getNextTickTime, getNextTickTime, h.conf, h.lastTick]

/-- An endpoint that wakes at the next tick goes on doing so. -/
theorem Steady.wakesNext (h : Steady s t) (hs : WakesNext s e) : WakesNext t e := by
  have hpos : (0 : Int) < second := by decide
  obtain ⟨hne, hle⟩ := hs
  rw [WakesNext, h.nextTick]
  rcases h.nearest e with heq | ⟨hsecond, hzero | hearly⟩
  · rw [heq]
    exact ⟨hne, hle⟩
  · exact absurd hzero hne
  · omega

theorem Steady.trans (hst : Steady s t) (htu : Steady t u) : Steady s u where
  conf := htu.conf.trans hst.conf
  lastTick := htu.lastTick.trans hst.lastTick
  isClosing := htu.isClosing.trans hst.isClosing
  alive := fun e h => hst.alive e (htu.alive e h)
  nearest := by
    intro e
    have hpos : (0 : Int) < second := by decide
    rcases htu.nearest e with heq | ⟨hsecond, hle⟩
    · rw [heq]
      exact hst.nearest e
    · refine Or.inr ⟨hsecond, ?_⟩
      rcases hst.nearest e with heq | ⟨hsecond', hle'⟩
      · rw [← heq]
        exact hle
      · omega
  gc := by
    intro e
    rcases htu.gc e with heq | hle
    · rw [heq]
      exact hst.gc e
    · exact Or.inr hle
  listed := fun e halive hlist => htu.listed e halive (hst.listed e (htu.alive e halive) hlist)
  idle := fun e h => htu.idle e (hst.idle e h)
  ready := by
    intro e hready
    rcases htu.ready e hready with hready | hnow
    · rcases hst.ready e hready with hready | hnext | hidle
      · exact Or.inl hready
      · exact Or.inr (Or.inl (htu.wakesNext hnext))
      · exact Or.inr (Or.inr (htu.idle e hidle))
    · exact Or.inr hnow

/-- The times stay set if the new messages expire late enough. -/
theorem TimesSet.steady (hs : TimesSet s) (h : Steady s t)
    (hpending : ∀ e, ∀ msg ∈ (t.endpoint e).pendingMessage,
      msg ∈ (s.endpoint e).pendingMessage ∨ second ≤ msg.expiredTimepoint) : TimesSet t where
  running := h.isClosing.trans hs.running
  now := h.lastTick ▸ hs.now
  messageTimeout := h.conf ▸ hs.messageTimeout
  gcTimeout := h.conf ▸ hs.gcTimeout
  nearest := by
    intro e
    rcases h.nearest e with heq | ⟨hsecond, -⟩
    · rw [heq]
      exact hs.nearest e
    · exact Or.inr hsecond
  gc := by
    intro e halive
    rcases h.gc e with heq | hle
    · rw [heq]
      exact hs.gc e (h.alive e halive)
    · exact hle
  expiry := by
    intro e msg hmem
    rcases hpending e msg hmem with hold | hle
    · exact hs.expiry e msg hold
    · exact hle

/-- From times that are set, the operation is steady and leaves the times set. -/
def SteadyFrom (s t : App) : Prop := TimesSet s → TimesSet t ∧ Steady s t

theorem SteadyFrom.refl (s : App) : SteadyFrom s s := fun hs => ⟨hs, Steady.refl s⟩

theorem SteadyFrom.trans (hst : SteadyFrom s t) (htu : SteadyFrom t u) : SteadyFrom s u := by
  intro hs
  obtain ⟨ht, hsteady⟩ := hst hs
  obtain ⟨hu, hsteady'⟩ := htu ht
  exact ⟨hu, hsteady.trans hsteady'⟩

theorem SteadyFrom.foldl {f : App → HandlePtr → App} (hf : ∀ s h, SteadyFrom s (f s h))
    (handles : List HandlePtr) (s : App) : SteadyFrom s (handles.foldl f s) := by
  induction handles generalizing s with
  | nil => exact SteadyFrom.refl s
  | cons h handles ih => exact (hf s h).trans (ih _)

/-! ## Updates that arm no waker -/

/-- A change of a handle that does not make it deliver. -/
theorem steady_modifyHandle (s : App) (h : HandlePtr)
    {f : AtappConnectionHandle → AtappConnectionHandle}
    (hf : ∀ e, (f (s.handle h)).Delivers e → (s.handle h).Delivers e) :
    Steady s (s.modifyHandle h f) := by
  refine { Steady.refl s with ready := fun e hready => Or.inl ?_ }
  obtain ⟨h', hmem, hdelivers⟩ := hready
  refine ⟨h', hmem, ?_⟩
  rw [handle_modifyHandle] at hdelivers
  split at hdelivers
  · next heq => exact heq ▸ hf e hdelivers
  · exact hdelivers

theorem steadyFrom_modifyHandle (s : App) (h : HandlePtr)
    {f : AtappConnectionHandle → AtappConnectionHandle}
    (hf : ∀ e, (f (s.handle h)).Delivers e → (s.handle h).Delivers e) :
    SteadyFrom s (s.modifyHandle h f) := fun hs =>
  have hsteady := steady_modifyHandle s h hf
  ⟨hs.steady hsteady fun _ _ => Or.inl, hsteady⟩

theorem steadyFrom_modifyConnector (s : App) (c : ConnectorPtr)
    (f : AtappConnectorImpl → AtappConnectorImpl) : SteadyFrom s (s.modifyConnector c f) :=
  fun hs => ⟨⟨hs.running, hs.now, hs.messageTimeout, hs.gcTimeout, hs.nearest, hs.gc, hs.expiry⟩,
    ⟨rfl, rfl, rfl, fun _ h => h, fun _ => Or.inl rfl, fun _ => Or.inl rfl, fun _ _ h => h,
      fun _ h => h, fun _ => Or.inl⟩⟩

theorem steadyFrom_record (s : App) (event : ForwardEvent) : SteadyFrom s (s.record event) :=
  fun hs => ⟨⟨hs.running, hs.now, hs.messageTimeout, hs.gcTimeout, hs.nearest, hs.gc, hs.expiry⟩,
    ⟨rfl, rfl, rfl, fun _ h => h, fun _ => Or.inl rfl, fun _ => Or.inl rfl, fun _ _ h => h,
      fun _ h => h, fun _ => Or.inl⟩⟩

/-- A change of an endpoint that concerns neither its waker nor its time of recycling, gives it no
    handle and lets no message in. -/
structure Quiet (f : AtappEndpoint → AtappEndpoint) : Prop where
  alive : ∀ ep, (f ep).alive = true → ep.alive = true
  nearest : ∀ ep, (f ep).nearestWaker = ep.nearestWaker
  gc : ∀ ep, (f ep).gcTimepoint = ep.gcTimepoint
  refer : ∀ ep, (f ep).referConnections ⊆ ep.referConnections
  pending : ∀ ep, (f ep).pendingMessage ⊆ ep.pendingMessage

theorem steadyFrom_modifyEndpoint (s : App) (e : EndpointPtr) {f : AtappEndpoint → AtappEndpoint}
    (hf : Quiet f) : SteadyFrom s (s.modifyEndpoint e f) := by
  intro hs
  have hnearest := s.modifyEndpoint_field e AtappEndpoint.nearestWaker hf.nearest
  have hgc := s.modifyEndpoint_field e AtappEndpoint.gcTimepoint hf.gc
  have hsub : ∀ e', (((s.modifyEndpoint e f).endpoint e').alive = true →
      (s.endpoint e').alive = true) ∧
      ((s.modifyEndpoint e f).endpoint e').referConnections ⊆ (s.endpoint e').referConnections ∧
      ((s.modifyEndpoint e f).endpoint e').pendingMessage ⊆ (s.endpoint e').pendingMessage := by
    intro e'
    rw [endpoint_modifyEndpoint]
    split
    · next heq => exact heq ▸ ⟨hf.alive _, hf.refer _, hf.pending _⟩
    · exact ⟨fun h => h, fun _ h => h, fun _ h => h⟩
  have hsteady : Steady s (s.modifyEndpoint e f) := by
    refine ⟨rfl, rfl, rfl, fun e' => (hsub e').1, fun e' => Or.inl (hnearest e'),
      fun e' => Or.inl (hgc e'), fun e' _ hlist => ?_, fun e' hidle => ?_,
      fun e' hready => Or.inl ?_⟩
    · rw [hnearest]
      exact hlist
    · exact List.subset_nil.1 (hidle ▸ (hsub e').2.2)
    · obtain ⟨h, hmem, hdelivers⟩ := hready
      exact ⟨h, (hsub e').2.1 hmem, hdelivers⟩
  exact ⟨hs.steady hsteady fun e' _ hmem => Or.inl ((hsub e').2.2 hmem), hsteady⟩

/-! ## Updates that arm a waker -/

theorem steadyFrom_addWaker (s : App) (e : EndpointPtr) {time : Int} (htime : second ≤ time) :
    SteadyFrom s (s.addWaker e time) := by
  intro hs
  obtain ⟨waker, heq, hother, hself⟩ := addWaker_spec hs e time
  have hendpoint : ∀ e', (s.addWaker e time).endpoint e' = if e' = e then
      { s.endpoint e with nearestWaker := earlier (s.endpoint e).nearestWaker time }
      else s.endpoint e' := by
    intro e'
    rw [heq]
    exact Function.update_apply _ _ _ _
  have hfield : ∀ {α : Type} (g : AtappEndpoint → α),
      (∀ ep n, g { ep with nearestWaker := n } = g ep) →
      ∀ e', g ((s.addWaker e time).endpoint e') = g (s.endpoint e') := by
    intro α g hg e'
    rw [hendpoint]
    split
    · next he => rw [hg, he]
    · rfl
  have hsteady : Steady s (s.addWaker e time) := by
    refine ⟨by rw [heq], by rw [heq], by rw [heq],
      fun e' h => (hfield AtappEndpoint.alive (fun _ _ => rfl) e').symm.trans h, fun e' => ?_,
      fun e' => Or.inl (hfield AtappEndpoint.gcTimepoint (fun _ _ => rfl) e'),
      fun e' halive hlist hne => ?_,
      fun e' => (hfield AtappEndpoint.pendingMessage (fun _ _ => rfl) e').trans,
      fun e' hready => Or.inl ?_⟩
    · rw [hendpoint]
      split
      · next he =>
        subst he
        have hold := hs.nearest e'
        refine Or.inr ?_
        dsimp only
        unfold earlier
        split
        · exact ⟨htime, Or.inl ‹_›⟩
        · omega
      · exact Or.inl rfl
    · rw [hfield AtappEndpoint.alive fun _ _ => rfl] at halive
      rw [hendpoint] at hne ⊢
      split
      · next he =>
        subst he
        rw [heq]
        exact hself halive hlist
      · next he =>
        rw [if_neg he] at hne
        rw [heq]
        exact hother e' he _ (hlist hne)
    · obtain ⟨h, hmem, hdelivers⟩ := hready
      rw [hfield AtappEndpoint.referConnections fun _ _ => rfl] at hmem
      rw [handle_addWaker] at hdelivers
      exact ⟨h, hmem, hdelivers⟩
  refine ⟨hs.steady hsteady fun e' msg hmem => Or.inl ?_, hsteady⟩
  rw [hfield AtappEndpoint.pendingMessage fun _ _ => rfl] at hmem
  exact hmem

/-- After it is told to wake at a time, an endpoint wakes no later. -/
theorem nearestWaker_addWaker (hs : TimesSet s) (e : EndpointPtr) {time : Int}
    (htime : second ≤ time) : ((s.addWaker e time).endpoint e).nearestWaker ≠ 0 ∧
      ((s.addWaker e time).endpoint e).nearestWaker ≤ time := by
  have hpos : (0 : Int) < second := by decide
  have hold := hs.nearest e
  obtain ⟨waker, heq, -, -⟩ := addWaker_spec hs e time
  rw [heq]
  simp only [Function.update_self]
  unfold earlier
  split
  · omega
  · omega

/-! ## Closing and unbinding -/

theorem quiet_closing (flag : Bool) : Quiet fun ep => { ep with closing := flag } :=
  ⟨fun _ h => h, fun _ => rfl, fun _ => rfl, fun _ _ h => h, fun _ _ h => h⟩

theorem quiet_messageSize (size : Nat) : Quiet fun ep => { ep with pendingMessageSize := size } :=
  ⟨fun _ h => h, fun _ => rfl, fun _ => rfl, fun _ _ h => h, fun _ _ h => h⟩

/-- An endpoint that loses its last handle is woken when it is to be recycled. -/
theorem steadyFrom_dropRefer (s : App) (h : HandlePtr) (e : EndpointPtr) :
    SteadyFrom s (s.dropRefer h e) := by
  unfold dropRefer
  split
  · dsimp only
    have hfilter : SteadyFrom s (s.modifyEndpoint e fun ep =>
        { ep with referConnections := ep.referConnections.filter (· ≠ h) }) :=
      steadyFrom_modifyEndpoint s e ⟨fun _ h => h, fun _ => rfl, fun _ => rfl,
        fun _ _ hmem => List.mem_of_mem_filter hmem, fun _ _ h => h⟩
    generalize s.modifyEndpoint e (fun ep =>
      { ep with referConnections := ep.referConnections.filter (· ≠ h) }) = t at *
    split
    · refine hfilter.trans fun ht => ?_
      have htick := ht.nextTick
      have hgc := ht.gcTimeout
      set time := t.getNextTickTime + t.conf.endpointGcTimeout with htime
      have hpos : second ≤ time := by omega
      set u := t.modifyEndpoint e fun ep => { ep with gcTimepoint := time } with hu
      have hself : (u.endpoint e).gcTimepoint = time := by
        rw [hu, endpoint_modifyEndpoint_self]
      rw [hself]
      have hsteady : SteadyFrom t u := by
        intro ht
        have hsame := fun {α : Type} (g : AtappEndpoint → α)
          (hg : ∀ ep : AtappEndpoint, g { ep with gcTimepoint := time } = g ep) =>
            t.modifyEndpoint_field e g hg
        have hstep : Steady t u := by
          refine ⟨rfl, rfl, rfl, fun e' => ?_, fun e' => Or.inl ?_, fun e' => ?_, fun e' _ hlist => ?_,
            fun e' => (hsame AtappEndpoint.pendingMessage (fun _ => rfl) e').trans,
            fun e' hready => Or.inl ?_⟩
          · exact (hsame AtappEndpoint.alive (fun _ => rfl) e').symm.trans
          · exact hsame AtappEndpoint.nearestWaker (fun _ => rfl) e'
          · rw [hu, endpoint_modifyEndpoint]
            split
            · exact Or.inr hpos
            · exact Or.inl rfl
          · rw [hu, hsame AtappEndpoint.nearestWaker fun _ => rfl]
            exact hlist
          · obtain ⟨h', hmem, hdelivers⟩ := hready
            rw [hu, hsame AtappEndpoint.referConnections fun _ => rfl] at hmem
            exact ⟨h', hmem, hdelivers⟩
        refine ⟨ht.steady hstep fun e' msg hmem => Or.inl ?_, hstep⟩
        rw [hu, hsame AtappEndpoint.pendingMessage fun _ => rfl] at hmem
        exact hmem
      exact (hsteady.trans (steadyFrom_addWaker u e hpos)) ht
    · exact hfilter
  · exact SteadyFrom.refl s

theorem Closes.steadyFrom (h : Closes s t) : SteadyFrom s t := by
  refine h.keeps (p := SteadyFrom s) (fun t u hupdate ht => ht.trans ?_) (SteadyFrom.refl s)
  cases hupdate with
  | markClosing h => exact steadyFrom_modifyHandle t h fun _ hd => absurd hd.1 Bool.false_ne_true
  | clearEndpoint h => exact steadyFrom_modifyHandle t h fun e hd => by cases hd.2.2
  | clearConnector h => exact steadyFrom_modifyHandle t h fun _ hd => absurd rfl hd.2.1
  | destroyed h => exact steadyFrom_modifyHandle t h fun _ hd => hd
  | dropRefer h e => exact steadyFrom_dropRefer t h e
  | eraseHandle h c => exact steadyFrom_modifyConnector t c _

theorem steadyFrom_destroyHandle (s : App) (h : HandlePtr) :
    SteadyFrom s (s.destroyHandle env h) :=
  (closes_close env s h).steadyFrom.trans (steadyFrom_modifyHandle _ h fun _ hd => hd)

theorem steadyFrom_unbindAll (env : Environment) (s : App) (e : EndpointPtr) :
    SteadyFrom s (s.unbindAll env e) :=
  (steadyFrom_modifyEndpoint s e (f := fun ep => { ep with referConnections := [] })
    ⟨fun _ h => h, fun _ => rfl, fun _ => rfl, fun _ => List.nil_subset _, fun _ _ h => h⟩).trans
    (SteadyFrom.foldl (fun s h => (closes_unbindEndpoint env s h e).steadyFrom) _ _)

theorem steadyFrom_cleanup (s : App) (c : ConnectorPtr) : SteadyFrom s (s.cleanup env c) :=
  (steadyFrom_modifyConnector s c _).trans
    (SteadyFrom.foldl (fun s h => (closes_unbindConnector env s h c).steadyFrom) _ _)

/-! ## Readiness and binding -/

/-- A handle that becomes ready wakes its endpoint at the next tick. -/
theorem steadyFrom_setReady (s : App) (h : HandlePtr) : SteadyFrom s (s.setReady h) := by
  unfold setReady
  split
  · exact SteadyFrom.refl s
  · dsimp only
    set t := s.modifyHandle h fun x => { x with ready := true, closing := false } with ht
    intro hs
    have htimes : TimesSet t := ⟨hs.running, hs.now, hs.messageTimeout, hs.gcTimeout, hs.nearest,
      hs.gc, hs.expiry⟩
    -- only the handle can have begun to deliver
    have hready : ∀ e, HasReady t e → HasReady s e ∨ (t.handle h).Delivers e := by
      intro e hready
      obtain ⟨h', hmem, hdelivers⟩ := hready
      by_cases heq : h' = h
      · exact Or.inr (heq ▸ hdelivers)
      · rw [ht, handle_modifyHandle_of_ne heq] at hdelivers
        exact Or.inl ⟨h', hmem, hdelivers⟩
    have hsteady : ∀ u : App, Steady t u → (∀ e, (t.handle h).Delivers e → WakesNext u e) →
        Steady s u := by
      intro u hu hwakes
      refine ⟨hu.conf, hu.lastTick, hu.isClosing, hu.alive, hu.nearest, hu.gc, hu.listed, hu.idle,
        fun e hhas => ?_⟩
      rcases hu.ready e hhas with hhas | hnow
      · rcases hready e hhas with hhas | hdelivers
        · exact Or.inl hhas
        · exact Or.inr (Or.inl (hwakes e hdelivers))
      · exact Or.inr hnow
    split
    · next e c hend hcon =>
      obtain ⟨hu, hwake⟩ := steadyFrom_addWaker t e htimes.nextTick htimes
      refine ⟨hu, hsteady _ hwake fun e' hdelivers => ?_⟩
      have he : e' = e := Option.some.inj (hdelivers.2.2.symm.trans hend)
      rw [he, WakesNext, hwake.nextTick]
      exact nearestWaker_addWaker htimes e htimes.nextTick
    · next hunbound =>
      refine ⟨htimes, hsteady t (Steady.refl t) fun e' hdelivers => ?_⟩
      obtain ⟨c, hcon⟩ := Option.ne_none_iff_exists'.1 hdelivers.2.1
      exact absurd hcon (hunbound e' c hdelivers.2.2)

theorem steadyFrom_setUnready (s : App) (h : HandlePtr) : SteadyFrom s (s.setUnready h) := by
  unfold setUnready
  split
  · dsimp only
    have hflag : SteadyFrom s (s.modifyHandle h fun x => { x with ready := false }) :=
      steadyFrom_modifyHandle s h fun _ hd => absurd hd.1 Bool.false_ne_true
    split
    · exact hflag
    · next e _ =>
      split
      · next hidle =>
        refine hflag.trans fun ht => steadyFrom_addWaker _ e ?_ ht
        -- the front message of the queue says when
        unfold getNextPendingMessageTimeout
        split
        · next hnil => exact absurd hnil hidle.2
        · next msg _ hcons => exact ht.expiry e msg (hcons ▸ List.mem_cons_self)
      · exact hflag
  · exact SteadyFrom.refl s

/-- Closing and unbinding make no handle ready and bind none. -/
theorem Closes.bound (hst : Closes s t) {h : HandlePtr} :
    (∀ e, h ∈ (t.endpoint e).referConnections → h ∈ (s.endpoint e).referConnections) ∧
      ((t.handle h).ready = true → (s.handle h).ready = true) ∧
      ∀ e, (t.handle h).endpoint = some e → (s.handle h).endpoint = some e := by
  refine hst.keeps (p := fun t =>
    (∀ e, h ∈ (t.endpoint e).referConnections → h ∈ (s.endpoint e).referConnections) ∧
      ((t.handle h).ready = true → (s.handle h).ready = true) ∧
      ∀ e, (t.handle h).endpoint = some e → (s.handle h).endpoint = some e)
    (fun t u hupdate ht => ?_) ⟨fun _ h => h, fun h => h, fun _ h => h⟩
  obtain ⟨hrefer, hready, hend⟩ := ht
  have hmodify : ∀ (h' : HandlePtr) {f : AtappConnectionHandle → AtappConnectionHandle},
      (∀ x, (f x).ready = true → x.ready = true) → (∀ x e, (f x).endpoint = some e →
        x.endpoint = some e) →
      (((t.modifyHandle h' f).handle h).ready = true → (s.handle h).ready = true) ∧
        ∀ e, ((t.modifyHandle h' f).handle h).endpoint = some e →
          (s.handle h).endpoint = some e := by
    intro h' f hf hf'
    rw [handle_modifyHandle]
    split
    · next heq =>
      rw [← heq]
      exact ⟨fun hr => hready (hf _ hr), fun e he => hend e (hf' _ e he)⟩
    · exact ⟨hready, hend⟩
  cases hupdate with
  | markClosing h' =>
    exact ⟨hrefer, hmodify h' (fun _ hr => absurd hr Bool.false_ne_true) fun _ _ he => he⟩
  | clearEndpoint h' => exact ⟨hrefer, hmodify h' (fun _ hr => hr) fun _ _ he => by cases he⟩
  | clearConnector h' => exact ⟨hrefer, hmodify h' (fun _ hr => hr) fun _ _ he => he⟩
  | destroyed h' => exact ⟨hrefer, hmodify h' (fun _ hr => hr) fun _ _ he => he⟩
  | eraseHandle h' c => exact ⟨hrefer, hready, hend⟩
  | dropRefer h' e' =>
    rw [handle_dropRefer]
    exact ⟨fun e hmem => hrefer e (mem_referConnections_dropRefer.1 hmem).1, hready, hend⟩

/-- A handle gets a connector. If it is ready and had none, its endpoint must wake at the next tick
    or have nothing to send. -/
theorem steadyFrom_bindConnector (s : App) (h : HandlePtr) (c : ConnectorPtr)
    (hcond : (s.handle h).ready = true → (s.handle h).connector = none →
      ∀ e ∈ (s.handle h).endpoint, WakesNext s e ∨ (s.endpoint e).pendingMessage = []) :
    SteadyFrom s (s.bindConnector env h c) := by
  unfold bindConnector
  split
  · exact SteadyFrom.refl s
  · have hcloses : Closes s (s.releaseConnector env h) := by
      unfold releaseConnector
      split
      · exact closes_unbindConnector env s h _
      · exact .refl
    intro hs
    obtain ⟨ht, hsteady⟩ := hcloses.steadyFrom hs
    obtain ⟨hrefer, hready, hend⟩ := hcloses.bound (h := h)
    generalize s.releaseConnector env h = t at *
    set u := t.attachConnector h c with hu
    have hstep : Steady s u := by
      refine ⟨hsteady.conf, hsteady.lastTick, hsteady.isClosing, hsteady.alive, hsteady.nearest,
        hsteady.gc, hsteady.listed, hsteady.idle, fun e hhas => ?_⟩
      obtain ⟨h', hmem, hdelivers⟩ := hhas
      change h' ∈ (t.endpoint e).referConnections at hmem
      change ((t.modifyHandle h fun x => { x with connector := some c }).handle h').Delivers e
        at hdelivers
      by_cases heq : h' = h
      · -- the handle itself
        subst heq
        rw [handle_modifyHandle_self] at hdelivers
        have hend' := hend e hdelivers.2.2
        cases hcon : (s.handle h').connector with
        | some c' =>
          exact Or.inl ⟨h', hrefer e hmem, hready hdelivers.1, by simp [hcon], hend'⟩
        | none =>
          rcases hcond (hready hdelivers.1) hcon e hend' with hnext | hidle
          · exact Or.inr (Or.inl (hsteady.wakesNext hnext))
          · exact Or.inr (Or.inr (hsteady.idle e hidle))
      · rw [handle_modifyHandle_of_ne heq] at hdelivers
        exact hsteady.ready e ⟨h', hmem, hdelivers⟩
    exact ⟨⟨ht.running, ht.now, ht.messageTimeout, ht.gcTimeout, ht.nearest, ht.gc, ht.expiry⟩,
      hstep⟩

/-- A ready handle that is bound to an endpoint wakes it at the next tick. -/
theorem steadyFrom_bindEndpoint (s : App) (h : HandlePtr) (e : EndpointPtr) :
    SteadyFrom s (s.bindEndpoint env h e) := by
  unfold bindEndpoint
  split
  · exact SteadyFrom.refl s
  · have hcloses : Closes s (s.releaseEndpoint env h) := by
      unfold releaseEndpoint
      split
      · exact closes_unbindEndpoint env s h _
      · exact .refl
    refine hcloses.steadyFrom.trans ?_
    generalize s.releaseEndpoint env h = t at *
    intro ht
    set u := t.attachEndpoint h e with hu
    have hsame := fun {α : Type} (g : AtappEndpoint → α) (hg : ∀ ep : AtappEndpoint,
        g { ep with referConnections := ep.referConnections.insert h } = g ep) =>
      (t.modifyHandle h fun x => { x with endpoint := some e }).modifyEndpoint_field e g hg
    have hnearest : ∀ e', (u.endpoint e').nearestWaker = (t.endpoint e').nearestWaker :=
      hsame AtappEndpoint.nearestWaker fun _ => rfl
    have hgc : ∀ e', (u.endpoint e').gcTimepoint = (t.endpoint e').gcTimepoint :=
      hsame AtappEndpoint.gcTimepoint fun _ => rfl
    have halive : ∀ e', (u.endpoint e').alive = (t.endpoint e').alive :=
      hsame AtappEndpoint.alive fun _ => rfl
    have hpending : ∀ e', (u.endpoint e').pendingMessage = (t.endpoint e').pendingMessage :=
      hsame AtappEndpoint.pendingMessage fun _ => rfl
    have htimes : TimesSet u := by
      refine ⟨ht.running, ht.now, ht.messageTimeout, ht.gcTimeout, fun e' => ?_, fun e' h' => ?_,
        fun e' msg hmem => ?_⟩
      · rw [hnearest]
        exact ht.nearest e'
      · rw [hgc]
        exact ht.gc e' ((halive e').symm.trans h')
      · rw [hpending] at hmem
        exact ht.expiry e' msg hmem
    -- only the handle can have begun to deliver, and only to this endpoint
    have hready : ∀ e', HasReady u e' → HasReady t e' ∨ (e' = e ∧ (u.handle h).ready = true) := by
      intro e' hhas
      obtain ⟨h', hmem, hdelivers⟩ := hhas
      have hhandle : u.handle h' =
          (t.modifyHandle h fun x => { x with endpoint := some e }).handle h' := rfl
      by_cases heq : h' = h
      · subst heq
        have hend : (u.handle h').endpoint = some e := by
          rw [hhandle, handle_modifyHandle_self]
        exact Or.inr ⟨Option.some.inj (hdelivers.2.2.symm.trans hend), hdelivers.1⟩
      · rw [hhandle, handle_modifyHandle_of_ne heq] at hdelivers
        refine Or.inl ⟨h', ?_, hdelivers⟩
        rw [hu, attachEndpoint, endpoint_modifyEndpoint] at hmem
        split at hmem
        · next he =>
          rcases List.mem_insert_iff.1 hmem with hself | hold
          · exact absurd hself heq
          · exact he ▸ hold
        · exact hmem
    have hsteady : ∀ v : App, Steady u v → ((u.handle h).ready = true → WakesNext v e) →
        Steady t v := by
      intro v hv hwakes
      refine ⟨hv.conf, hv.lastTick, hv.isClosing, fun e' h' => (halive e').symm.trans (hv.alive e' h'),
        fun e' => ?_, fun e' => ?_, fun e' h' hlist => hv.listed e' h' ?_,
        fun e' hidle => hv.idle e' ((hpending e').trans hidle), fun e' hhas => ?_⟩
      · rw [← hnearest]
        exact hv.nearest e'
      · rw [← hgc]
        exact hv.gc e'
      · rw [hnearest]
        exact hlist
      · rcases hv.ready e' hhas with hhas | hnow
        · rcases hready e' hhas with hhas | ⟨he, hflag⟩
          · exact Or.inl hhas
          · exact Or.inr (Or.inl (he ▸ hwakes hflag))
        · exact Or.inr hnow
    dsimp only
    split
    · obtain ⟨hv, hwake⟩ := steadyFrom_addWaker u e htimes.nextTick htimes
      refine ⟨hv, hsteady _ hwake fun _ => ?_⟩
      rw [WakesNext, hwake.nextTick]
      exact nearestWaker_addWaker htimes e htimes.nextTick
    · next hunready => exact ⟨htimes, hsteady u (Steady.refl u) fun h' => absurd h' hunready⟩

/-- A new handle is bound to nothing. -/
theorem steadyFrom_newHandle (s : App) : SteadyFrom s s.newHandle := by
  intro hs
  refine ⟨⟨hs.running, hs.now, hs.messageTimeout, hs.gcTimeout, hs.nearest, hs.gc, hs.expiry⟩,
    ⟨rfl, rfl, rfl, fun _ h => h, fun _ => Or.inl rfl, fun _ => Or.inl rfl, fun _ _ h => h,
      fun _ h => h, fun e hhas => Or.inl ?_⟩⟩
  obtain ⟨h, hmem, hdelivers⟩ := hhas
  refine ⟨h, hmem, ?_⟩
  change ((s.modifyHandle s.handleCount fun _ => { alive := true }).handle h).Delivers e at hdelivers
  rw [handle_modifyHandle] at hdelivers
  split at hdelivers
  · exact absurd hdelivers.1 Bool.false_ne_true
  · exact hdelivers

theorem endpoint_setReady (s : App) (h : HandlePtr) :
    ((s.setReady h).handle h).endpoint = (s.handle h).endpoint := by
  unfold setReady
  split
  · rfl
  · dsimp only
    split
    · rw [handle_addWaker, handle_modifyHandle_self]
    · rw [handle_modifyHandle_self]

/-- Connecting an endpoint is steady: the new handle has its connector before its endpoint. -/
theorem steadyFrom_connectEndpoint (env : Environment) (s : App) (e : EndpointPtr)
    (result : Option ConnectResult) :
    SteadyFrom s (s.connectEndpoint env e result) := by
  unfold connectEndpoint
  dsimp only
  have hwake : SteadyFrom s (s.addWaker e s.getNextTickTime) :=
    fun hs => steadyFrom_addWaker s e hs.nextTick hs
  generalize s.addWaker e s.getNextTickTime = t at *
  have hnew := hwake.trans (steadyFrom_newHandle t)
  have hunbound : (t.newHandle.handle t.handleCount).endpoint = none := by
    simp [newHandle, modifyHandle]
  split
  · exact hnew.trans (steadyFrom_destroyHandle _ _)
  · next r =>
    have hready : SteadyFrom t.newHandle
        (if r.ready then t.newHandle.setReady t.handleCount else t.newHandle) ∧
        ((if r.ready then t.newHandle.setReady t.handleCount else t.newHandle).handle
          t.handleCount).endpoint = none := by
      split
      · exact ⟨steadyFrom_setReady _ _, (endpoint_setReady _ _).trans hunbound⟩
      · exact ⟨SteadyFrom.refl _, hunbound⟩
    refine (hnew.trans hready.1).trans (SteadyFrom.trans ?_ (steadyFrom_bindEndpoint _ _ _))
    refine steadyFrom_bindConnector _ _ _ fun _ _ e' he' => ?_
    rw [hready.2] at he'
    cases he'

/-! ## Sending, cancelling and resetting -/

theorem steadyFrom_onSendForwardRequest (env : Environment) (s : App) (e : EndpointPtr) (h : HandlePtr)
    (serial k : Nat) : SteadyFrom s (s.onSendForwardRequest env e h serial k).1 := by
  unfold onSendForwardRequest
  dsimp only
  split
  · exact (steadyFrom_record s _).trans (steadyFrom_setUnready _ h)
  · exact steadyFrom_record s _

theorem steadyFrom_popPending (s : App) (e : EndpointPtr) (msg : PendingMessage) :
    SteadyFrom s (s.popPending e msg) :=
  steadyFrom_modifyEndpoint s e ⟨fun _ h => h, fun _ => rfl, fun _ => rfl, fun _ _ h => h,
    fun _ => List.tail_subset _⟩

theorem steadyFrom_retryLoop (target : Option (HandlePtr × ConnectorPtr)) (tickTime : Int)
    (msgs : List PendingMessage) (s : App) (maxCount : Int) (k : Nat) :
    SteadyFrom s (retryLoop env e target tickTime s msgs maxCount k).1 := by
  induction msgs generalizing s maxCount k with
  | nil => exact SteadyFrom.refl s
  | cons msg msgs ih =>
    unfold retryLoop
    split
    · next _ h c _ =>
      dsimp only
      refine (steadyFrom_onSendForwardRequest env s e h msg.serial k).trans
        (SteadyFrom.trans ?_ (ih _ _ _))
      split
      · exact steadyFrom_popPending _ e msg
      · exact (steadyFrom_record _ _).trans (steadyFrom_popPending _ e msg)
    · split
      · exact SteadyFrom.refl s
      · dsimp only
        exact ((steadyFrom_record _ _).trans (steadyFrom_popPending _ e msg)).trans (ih _ _ _)

theorem steadyFrom_cancelPendingMessages (env : Environment) (s : App) (e : EndpointPtr) :
    SteadyFrom s (s.cancelPendingMessages env e) := by
  have hloop : ∀ (c : ConnectorPtr) (msgs : List PendingMessage) (s : App),
      SteadyFrom s (cancelLoop e c s msgs) := by
    intro c msgs
    induction msgs with
    | nil => exact SteadyFrom.refl
    | cons msg msgs ih =>
      exact fun s => ((steadyFrom_record _ _).trans (steadyFrom_popPending _ e msg)).trans (ih _)
  unfold cancelPendingMessages
  split
  · exact SteadyFrom.refl s
  · exact (hloop _ _ _).trans (steadyFrom_modifyEndpoint _ e (quiet_messageSize 0))

theorem steadyFrom_resetEndpoint (env : Environment) (s : App) (e : EndpointPtr) :
    SteadyFrom s (s.resetEndpoint env e) := by
  unfold resetEndpoint
  split
  · exact SteadyFrom.refl s
  · dsimp only
    refine (steadyFrom_modifyEndpoint s e (quiet_closing true)).trans ?_
    refine (steadyFrom_cancelPendingMessages env _ e).trans ?_
    refine (steadyFrom_unbindAll env _ e).trans ?_
    exact (steadyFrom_modifyEndpoint _ e (quiet_closing false)).trans (steadyFrom_record _ _)

/-! ## Indexes -/

theorem steadyFrom_withIndexes (s : App) (byId : Nat → Option EndpointPtr)
    (byName : Bytes → Option EndpointPtr) : SteadyFrom s (s.withIndexes byId byName) :=
  fun hs => ⟨⟨hs.running, hs.now, hs.messageTimeout, hs.gcTimeout, hs.nearest, hs.gc, hs.expiry⟩,
    ⟨rfl, rfl, rfl, fun _ h => h, fun _ => Or.inl rfl, fun _ => Or.inl rfl, fun _ _ h => h,
      fun _ h => h, fun _ => Or.inl⟩⟩

theorem steadyFrom_storeEndpoint (s : App) (e : EndpointPtr) (node : NodePtr) (id : Nat)
    (name : Bytes) (needId needName : Bool) :
    SteadyFrom s (s.storeEndpoint e node id name needId needName) := by
  obtain ⟨byId, byName, heq⟩ := s.storeEndpoint_eq e node id name needId needName
  rw [heq]
  exact (steadyFrom_withIndexes s byId byName).trans (steadyFrom_modifyEndpoint _ e
    ⟨fun _ h => h, fun _ => rfl, fun _ => rfl, fun _ _ h => h, fun _ _ h => h⟩)

end App

end LibAtapp.Connectors
