import LibAtapp.Connectors.Messages
import LibAtapp.Library.Run
import Mathlib.Data.List.TakeWhile

set_option autoImplicit false

/-! # The fate of every accepted message

A message that an endpoint accepted should be handed to a connector once, be answered once, or wait,
and none should be left when the endpoint closes. Pushing, retrying and cancelling keep this.
Closing does not: `cancel_pending_messages` answers nobody where no handle with a connector is
ready, and the garbage collection closes endpoints that have no handle at all. The main result says
in which runs every message has its one fate. -/

namespace LibAtapp.Connectors.App

open Relation

variable {env : Environment} {s t : App} {e : EndpointPtr}

/-! ## The property -/

/-- Every accepted message has exactly one fate. -/
structure Accounted (s : App) : Prop where
  size : ∀ e, s.SizeExact e
  order : ∀ e, (s.pendingSerials e).Pairwise (· < ·)
  fate : ∀ e n, .pushed e n .success ∈ s.trace →
    s.handed e n + s.answered e n + (s.pendingSerials e).count n = 1
  failing : ∀ e n c code, .response e n c code ∈ s.trace → code ≠ .success
  closed : ∀ e left, .reset e left ∈ s.trace → left = []

/-- Between operations no endpoint is closing, and new pointers and numbers are unused. -/
structure Numbered (s : App) : Prop where
  closing : ∀ e, (s.endpoint e).closing = false
  alive : ∀ e, (s.endpoint e).alive = true → e < s.endpointCount
  queue : ∀ e, s.endpointCount ≤ e → (s.endpoint e).pendingMessage = []
  fates : ∀ e n, s.pushCount ≤ n → s.fates e n = 0
  pushed : ∀ e n code, .pushed e n code ∈ s.trace → n < s.pushCount

/-! ## The condition -/

/-- The messages of an endpoint that closes are answered: it has none, or a ready handle with a
    connector comes first. -/
def Answers (env : Environment) (s : App) (e : EndpointPtr) : Prop :=
  (s.endpoint e).pendingMessage = [] ∨ CanAnswer env s e

instance (env : Environment) (s : App) (e : EndpointPtr) : Decidable (Answers env s e) :=
  inferInstanceAs (Decidable (_ ∨ _))

/-- The endpoint that `mutable_endpoint` removes because the name leads to another one. -/
def replaced (s : App) (discovery : Option NodePtr) : Option EndpointPtr :=
  if s.isClosing then none
  else
    match discovery with
    | none => none
    | some node =>
      match s.foundById (s.heap node).id, s.foundByName (s.heap node).name with
      | some e', some e => if e = e' then none else some e'
      | _, _ => none

/-- The endpoint that a round recycles. -/
def recycled (env : Environment) (s : App) : Option EndpointPtr :=
  match s.wakerBegin env with
  | some (time, some e) =>
    if time ≤ s.lastTickTimepoint ∧ (s.endpoint e).alive = true ∧
        (s.endpoint e).referConnections.isEmpty = true ∧
        s.lastTickTimepoint ≥ (s.endpoint e).gcTimepoint then some e
    else none
  | _ => none

/-- **The condition on a step.** The messages of every endpoint that the step closes are answered.
    An endpoint is recycled when it has no handle, so that only messages that have expired by then
    are answered. -/
def ClosesAnswered (s : App) (input : Environment × AppOp) : Prop :=
  match input.2 with
  | .mutableEndpoint discovery _ => ∀ e ∈ s.replaced discovery, Answers input.1 s e
  | .removeEndpointById id => ∀ e ∈ s.endpointIndexById id, Answers input.1 s e
  | .removeEndpointByName name => ∀ e ∈ s.endpointIndexByName name, Answers input.1 s e
  | .removeEndpoint e | .destroyEndpoint e => Answers input.1 s e
  | .processRound => ∀ e ∈ s.recycled input.1, ∀ msg ∈ (s.endpoint e).pendingMessage,
      msg.expiredTimepoint ≤ s.lastTickTimepoint
  | _ => True

/-! ## Keeping the account -/

theorem Accounted.balanced (hs : Accounted s) (h : Balanced s t) : Accounted t where
  size := fun e => h.size e (hs.size e)
  order := by
    intro e
    have hsuffix : t.pendingSerials e <:+ s.pendingSerials e := by
      obtain ⟨front, hfront⟩ := h.suffix e
      exact ⟨front.map PendingMessage.serial, by rw [pendingSerials, ← List.map_append, hfront]; rfl⟩
    exact (hs.order e).sublist hsuffix.sublist
  fate := by
    intro e n hpushed
    have hfates := h.fates e n
    rw [App.fates, App.fates] at hfates
    rw [hfates]
    exact hs.fate e n ((h.pushed e n _).1 hpushed)
  failing := by
    intro e n c code hmem
    rcases h.failing e n c code hmem with hold | hcode
    · exact hs.failing e n c code hold
    · exact hcode
  closed := fun e left hmem => hs.closed e left ((h.resets e left).1 hmem)

theorem Numbered.balanced (hs : Numbered s) (h : Balanced s t) : Numbered t where
  closing := fun e => (h.closing e).trans (hs.closing e)
  alive := by
    intro e halive
    rw [h.endpointCount]
    exact hs.alive e ((h.alive e).symm.trans halive)
  queue := by
    intro e he
    rw [h.endpointCount] at he
    exact List.suffix_nil.1 (hs.queue e he ▸ h.suffix e)
  fates := by
    intro e n hn
    rw [h.pushCount] at hn
    exact (h.fates e n).trans (hs.fates e n hn)
  pushed := by
    intro e n code hmem
    rw [h.pushCount]
    exact hs.pushed e n code ((h.pushed e n code).1 hmem)

/-- The account only reads the endpoints and the trace. -/
theorem Accounted.congr (hs : Accounted s) (hend : ∀ e, (t.endpoint e).pendingMessage =
    (s.endpoint e).pendingMessage ∧ (t.endpoint e).pendingMessageSize =
      (s.endpoint e).pendingMessageSize) (htrace : t.trace = s.trace) : Accounted t := by
  have hserials : ∀ e, t.pendingSerials e = s.pendingSerials e := by
    intro e
    rw [pendingSerials, pendingSerials, (hend e).1]
  refine ⟨fun e => ?_, fun e => ?_, fun e n hpushed => ?_, ?_, ?_⟩
  · rw [SizeExact, (hend e).1, (hend e).2]
    exact hs.size e
  · rw [hserials]
    exact hs.order e
  · rw [hserials, handed, answered, htrace]
    exact hs.fate e n (htrace ▸ hpushed)
  · rw [htrace]
    exact hs.failing
  · rw [htrace]
    exact hs.closed

/-- The account is kept, and what is new is unused. -/
structure Kept (s : App) : Prop where
  accounted : Accounted s
  numbered : Numbered s

theorem Kept.balanced (hs : Kept s) (h : Balanced s t) : Kept t :=
  ⟨hs.accounted.balanced h, hs.numbered.balanced h⟩

/-- The account only reads the endpoints, the trace and what is unused. -/
theorem Kept.congr (hs : Kept s) (hend : t.endpoint = s.endpoint) (htrace : t.trace = s.trace)
    (hpush : t.pushCount = s.pushCount) (hcount : t.endpointCount = s.endpointCount) : Kept t := by
  have hn := hs.numbered
  refine ⟨hs.accounted.congr (fun e => by rw [hend]; exact ⟨rfl, rfl⟩) htrace,
    ⟨hend ▸ hn.closing, ?_, ?_, fun e n hle => ?_, ?_⟩⟩
  · rw [hend, hcount]
    exact hn.alive
  · rw [hend, hcount]
    exact hn.queue
  · rw [App.fates, handed, answered, pendingSerials, htrace, hend]
    exact hn.fates e n (hpush ▸ hle)
  · rw [htrace, hpush]
    exact hn.pushed

/-- An operation with result `t` keeps the account if `cond` holds, and else leaves messages behind
    in an endpoint that it closes. -/
structure KeepsIf (t : App) (cond : Prop) : Prop where
  needs : (∀ e left, .reset e left ∈ t.trace → left = []) → cond
  kept : cond → Kept t

theorem KeepsIf.congr {cond cond' : Prop} (h : KeepsIf t cond) (hiff : cond ↔ cond') :
    KeepsIf t cond' :=
  ⟨fun hempty => hiff.1 (h.needs hempty), fun hcond => h.kept (hiff.2 hcond)⟩

theorem Kept.keepsIf {cond : Prop} (ht : Kept t) (hcond : cond) : KeepsIf t cond :=
  ⟨fun _ => hcond, fun _ => ht⟩

/-- What comes after an operation records no reset and keeps the account too. -/
theorem KeepsIf.after {u : App} {cond : Prop} (h : KeepsIf t cond) (htrace : u.trace = t.trace)
    (hkept : Kept t → Kept u) : KeepsIf u cond where
  needs := by
    intro hempty
    rw [htrace] at hempty
    exact h.needs hempty
  kept := fun hcond => hkept (h.kept hcond)

/-! ## Pushing -/

/-- The numbers in a queue are used. -/
theorem Numbered.lt_pushCount (hn : Numbered s) {n : Nat} (h : n ∈ s.pendingSerials e) :
    n < s.pushCount := by
  by_contra hge
  have hzero := hn.fates e n (by omega)
  have hcount := List.count_pos_iff.2 h
  rw [App.fates] at hzero
  omega

theorem Kept.pushForwardMessage (hkept : Kept s)
    (he : e < s.endpointCount) (type : Int) (sequence : Nat) (data : Bytes) (metadata : Option AtappMetadata) :
    Kept (s.pushForwardMessage env e type sequence data metadata).1 := by
  obtain ⟨hs, hn⟩ := hkept
  set s₀ : App := { s with pushCount := s.pushCount + 1 } with hs₀
  have haccounted₀ : Accounted s₀ := hs.congr (fun _ => ⟨rfl, rfl⟩) rfl
  have hnumbered₀ : Numbered s₀ :=
    ⟨hn.closing, hn.alive, hn.queue, fun e n h => hn.fates e n (Nat.le_of_succ_le h),
      fun e n code h => Nat.lt_succ_of_lt (hn.pushed e n code h)⟩
  have hresult : (s.pushForwardMessage env e type sequence data metadata).1 =
      if data = [] then (s₀.pushMessage env e s.pushCount type sequence data metadata).1
      else (s₀.pushMessage env e s.pushCount type sequence data metadata).1.record
        (.pushed e s.pushCount (s₀.pushMessage env e s.pushCount type sequence data metadata).2) := by
    unfold App.pushForwardMessage
    rfl
  rw [hresult]
  by_cases hdata : data = []
  · -- a message without data is not queued
    have hskip : s₀.pushMessage env e s.pushCount type sequence data metadata = (s₀, .success) := by
      unfold pushMessage
      rw [if_neg (by rw [hnumbered₀.closing]; decide), if_pos hdata]
    rw [if_pos hdata, hskip]
    exact ⟨haccounted₀, hnumbered₀⟩
  · rw [if_neg hdata]
    have heffect := pushEffect_pushMessage env s₀ e s.pushCount type sequence hdata metadata
    generalize s₀.pushMessage env e s.pushCount type sequence data metadata = result at heffect
    obtain ⟨t, code⟩ := result
    have hserials : ∀ e', (t.record (.pushed e s.pushCount code)).pendingSerials e' =
        t.pendingSerials e' := fun _ => rfl
    have hfates : ∀ e' n, (t.record (.pushed e s.pushCount code)).fates e' n = t.fates e' n := by
      intro e' n
      rw [fates_record]
      rfl
    have hfates₀ : ∀ e' n, s₀.fates e' n = s.fates e' n := fun _ _ => rfl
    constructor
    · refine ⟨fun e' => heffect.size e' (haccounted₀.size e'), fun e' => ?_,
        fun e' n hpushed => ?_, fun e' n c code' hmem => ?_, fun e' left hmem => ?_⟩
      · rw [hserials]
        rcases heffect.pending e' with heq | ⟨he, heq⟩
        · rw [heq]
          exact haccounted₀.order e'
        · rw [heq]
          refine List.pairwise_append.2 ⟨haccounted₀.order e', List.pairwise_singleton _ _, ?_⟩
          intro n hmem m hm
          rw [List.mem_singleton.1 hm]
          exact hn.lt_pushCount hmem
      · have hsum : (t.record (.pushed e s.pushCount code)).fates e' n = 1 := by
          rw [hfates]
          rcases mem_trace_record.1 hpushed with hold | heq
          · have hold₀ := (heffect.pushed e' n _).1 hold
            have hlt := hn.pushed e' n _ hold₀
            rw [heffect.fates e' n (by omega), hfates₀]
            exact hs.fate e' n hold₀
          · cases heq
            rw [heffect.accepted rfl, hfates₀, hn.fates e s.pushCount (le_refl _)]
        exact hsum
      · rcases mem_trace_record.1 hmem with hold | heq
        · rcases heffect.failing e' n c code' hold with hold | hcode
          · exact hs.failing e' n c code' hold
          · exact hcode
        · cases heq
      · rcases mem_trace_record.1 hmem with hold | heq
        · exact hs.closed e' left ((heffect.resets e' left).1 hold)
        · cases heq
    · refine ⟨fun e' => (heffect.closing e').trans (hn.closing e'), fun e' halive => ?_,
        fun e' he' => ?_, fun e' n hle => ?_, fun e' n code' hmem => ?_⟩
      · exact heffect.endpointCount ▸ hn.alive e' ((heffect.alive e').symm.trans halive)
      · have hnew : s.endpointCount ≤ e' := by
          have hcount : t.endpointCount = s.endpointCount := heffect.endpointCount
          exact hcount ▸ he'
        have hempty : s₀.pendingSerials e' = [] :=
          congrArg (List.map PendingMessage.serial) (hn.queue e' hnew)
        rcases heffect.pending e' with heq | ⟨hsame, -⟩
        · exact List.map_eq_nil_iff.1 (heq.trans hempty)
        · exact absurd (hsame ▸ hnew) (Nat.not_le.2 he)
      · have hcount : t.pushCount = s.pushCount + 1 := heffect.pushCount
        have hle' : s.pushCount + 1 ≤ n := hcount ▸ hle
        rw [hfates, heffect.fates e' n (by omega), hfates₀]
        exact hn.fates e' n (by omega)
      · have hcount : t.pushCount = s.pushCount + 1 := heffect.pushCount
        change n < t.pushCount
        rcases mem_trace_record.1 hmem with hold | heq
        · have := hn.pushed e' n code' ((heffect.pushed e' n code').1 hold)
          omega
        · cases heq
          omega

/-! ## Closing -/

theorem Kept.withIndexes (hs : Kept s) (byId : Nat → Option EndpointPtr)
    (byName : Bytes → Option EndpointPtr) : Kept (s.withIndexes byId byName) :=
  have hn := hs.numbered
  ⟨hs.accounted.congr (fun _ => ⟨rfl, rfl⟩) rfl,
    ⟨hn.closing, hn.alive, hn.queue, hn.fates, hn.pushed⟩⟩

/-- `reset` leaves messages exactly where nobody can be asked to answer them. -/
theorem pendingSerials_reset (h : (t.endpoint e).pendingMessage =
    if CanAnswer env s e then [] else (s.endpoint e).pendingMessage) :
    t.pendingSerials e = [] ↔ Answers env s e := by
  rw [pendingSerials, List.map_eq_nil_iff, h, Answers]
  by_cases hcan : CanAnswer env s e
  · rw [if_pos hcan]
    exact iff_of_true rfl (Or.inr hcan)
  · rw [if_neg hcan]
    exact ⟨Or.inl, fun h => h.resolve_right hcan⟩

/-- **Resetting an endpoint** keeps the account exactly if its messages are answered. -/
theorem keepsIf_resetEndpoint (env : Environment) (hs : Kept s) (e : EndpointPtr) :
    KeepsIf (s.resetEndpoint env e) (Answers env s e) := by
  obtain ⟨t, hbalanced, hpending, heq⟩ :=
    resetEndpoint_messages env (hs.numbered.closing e)
  obtain ⟨ht, htn⟩ := hs.balanced hbalanced
  have hfates : ∀ e' n, (t.record (.reset e (t.pendingSerials e))).fates e' n = t.fates e' n := by
    intro e' n
    rw [fates_record]
    rfl
  rw [heq, ← pendingSerials_reset hpending]
  refine ⟨fun h => h e _ (mem_trace_record.2 (Or.inr rfl)), fun hempty => ⟨?_, ?_⟩⟩
  · refine ⟨ht.size, ht.order, fun e' n hpushed => ?_, fun e' n c code hmem => ?_,
      fun e' left hmem => ?_⟩
    · refine (hfates e' n).trans (ht.fate e' n ?_)
      exact (mem_trace_record.1 hpushed).resolve_right ForwardEvent.noConfusion
    · exact ht.failing e' n c code
        ((mem_trace_record.1 hmem).resolve_right ForwardEvent.noConfusion)
    · rcases mem_trace_record.1 hmem with hold | hlast
      · exact ht.closed e' left hold
      · cases hlast
        exact hempty
  · refine ⟨htn.closing, htn.alive, htn.queue, fun e' n hle => ?_, fun e' n code hmem => ?_⟩
    · exact (hfates e' n).trans (htn.fates e' n hle)
    · exact htn.pushed e' n code
        ((mem_trace_record.1 hmem).resolve_right ForwardEvent.noConfusion)

/-- **Removing an endpoint** keeps the account exactly if its messages are answered. -/
theorem keepsIf_removeEndpoint (env : Environment) (hs : Kept s) (e : EndpointPtr) :
    KeepsIf (s.removeEndpoint env e) (Answers env s e) := by
  unfold removeEndpoint
  dsimp only
  obtain ⟨byId, hbyId⟩ := s.eraseIdOf_eq e (s.getId e)
  rw [hbyId]
  obtain ⟨byName, hbyName⟩ := (s.withIndexes byId s.endpointIndexByName).eraseNameOf_eq e
    ((s.withIndexes byId s.endpointIndexByName).getName e)
  rw [hbyName]
  exact keepsIf_resetEndpoint _ ((hs.withIndexes _ _).withIndexes _ _) e

/-- A condition on the endpoint that is found. -/
theorem forall_mem_some_iff {p : EndpointPtr → Prop} : p e ↔ ∀ e' ∈ some e, p e' := by
  refine ⟨fun h e' he' => ?_, fun h => h e rfl⟩
  cases he'
  exact h

theorem keepsIf_removeEndpointById (hs : Kept s) (id : Nat) :
    KeepsIf (s.removeEndpointById env id) (∀ e ∈ s.endpointIndexById id, Answers env s e) := by
  unfold removeEndpointById
  cases hfound : s.endpointIndexById id with
  | none => exact hs.keepsIf (by simp)
  | some e =>
    dsimp only
    obtain ⟨byName, hbyName⟩ := (s.setIndexById id none).eraseNameOf_eq e
      ((s.setIndexById id none).getName e)
    rw [hbyName]
    have hreset := keepsIf_resetEndpoint env
      (hs.withIndexes (Function.update s.endpointIndexById id none) byName) e
    exact hreset.congr (forall_mem_some_iff (p := Answers env s))

theorem keepsIf_removeEndpointByName (hs : Kept s) (name : Bytes) :
    KeepsIf (s.removeEndpointByName env name)
      (∀ e ∈ s.endpointIndexByName name, Answers env s e) := by
  unfold removeEndpointByName
  cases hfound : s.endpointIndexByName name with
  | none => exact hs.keepsIf (by simp)
  | some e =>
    dsimp only
    obtain ⟨byId, hbyId⟩ := (s.setIndexByName name none).eraseIdOf_eq e
      ((s.setIndexByName name none).getId e)
    rw [hbyId]
    have hreset := keepsIf_resetEndpoint env
      (hs.withIndexes byId (Function.update s.endpointIndexByName name none)) e
    exact hreset.congr (forall_mem_some_iff (p := Answers env s))

/-- A change of an endpoint that concerns neither its messages nor its flag nor its life. -/
theorem Kept.modifyEndpoint (hs : Kept s) (e : EndpointPtr) {f : AtappEndpoint → AtappEndpoint}
    (hf : ∀ ep, ((f ep).alive = true → ep.alive = true) ∧ (f ep).closing = ep.closing)
    (hmessages : ∀ ep, (f ep).pendingMessage = ep.pendingMessage ∧
      (f ep).pendingMessageSize = ep.pendingMessageSize) :
    Kept (s.modifyEndpoint e f) := by
  have hpending := s.modifyEndpoint_field e AtappEndpoint.pendingMessage
    (fun ep => (hmessages ep).1)
  have hsize := s.modifyEndpoint_field e AtappEndpoint.pendingMessageSize
    (fun ep => (hmessages ep).2)
  have hserials : ∀ e', (s.modifyEndpoint e f).pendingSerials e' = s.pendingSerials e' := by
    intro e'
    rw [pendingSerials, pendingSerials, hpending]
  have hn := hs.numbered
  refine ⟨hs.accounted.congr (fun e' => ⟨hpending e', hsize e'⟩) rfl,
    ⟨fun e' => ?_, fun e' halive => ?_, fun e' he' => ?_, fun e' n hle => ?_, hn.pushed⟩⟩
  · exact (s.modifyEndpoint_field e AtappEndpoint.closing (fun ep => (hf ep).2) e').trans
      (hn.closing e')
  · refine hn.alive e' ?_
    rw [endpoint_modifyEndpoint] at halive
    split at halive
    · next heq => exact heq ▸ (hf _).1 halive
    · exact halive
  · exact (hpending e').trans (hn.queue e' he')
  · rw [App.fates, hserials]
    exact hn.fates e' n hle

/-- **Destroying an endpoint**: what `reset` left is freed. -/
theorem keepsIf_destroyEndpoint (hs : Kept s) (e : EndpointPtr) :
    KeepsIf (s.destroyEndpoint env e) (Answers env s e) := by
  let dead : AtappEndpoint → AtappEndpoint := fun ep => { ep with alive := false }
  set s₁ := s.modifyEndpoint e dead with hs₁
  have hkept₁ : Kept s₁ := hs.modifyEndpoint e
    (fun ep => ⟨fun h => absurd h Bool.false_ne_true, rfl⟩) fun _ => ⟨rfl, rfl⟩
  have hqueue : (s₁.endpoint e).pendingMessage = (s.endpoint e).pendingMessage :=
    s.modifyEndpoint_field e (f := dead) AtappEndpoint.pendingMessage (fun _ => rfl) e
  have hrefer : (s₁.endpoint e).referConnections = (s.endpoint e).referConnections :=
    s.modifyEndpoint_field e (f := dead) AtappEndpoint.referConnections (fun _ => rfl) e
  have hanswers : Answers env s₁ e ↔ Answers env s e := by
    rw [Answers, Answers, CanAnswer, CanAnswer, getReadyConnectionHandle, getReadyConnectionHandle,
      hqueue, hrefer]
    rfl
  obtain ⟨t, hbalanced, hpending, heq⟩ :=
    resetEndpoint_messages env (hkept₁.numbered.closing e)
  have hreset := (keepsIf_resetEndpoint env hkept₁ e).congr hanswers
  set s₂ := s₁.resetEndpoint env e with hs₂
  have hdestroy : s.destroyEndpoint env e = s₂.modifyEndpoint e fun ep =>
      { ep with pendingMessage := [], pendingMessageSize := 0 } := rfl
  rw [hdestroy]
  refine ⟨fun h => hreset.needs h, fun h => (hreset.kept h).balanced ?_⟩
  -- with an empty queue nothing is freed
  have hempty : (s₂.endpoint e).pendingMessage = [] := by
    rw [heq]
    exact List.map_eq_nil_iff.1 ((pendingSerials_reset hpending).2 (hanswers.2 h))
  have hclear := balanced_clearSize hempty
  have hsame : (s₂.modifyEndpoint e fun ep => { ep with pendingMessageSize := 0 }) =
      s₂.modifyEndpoint e fun ep => { ep with pendingMessage := [], pendingMessageSize := 0 } := by
    rw [modifyEndpoint, modifyEndpoint, hempty]
  exact hsame ▸ hclear

/-! ## Rounds -/

/-- Updates of queues change neither the handles of an endpoint nor its time of recycling. -/
theorem Queues.refer (h : Queues s t) (e : EndpointPtr) :
    (t.endpoint e).referConnections = (s.endpoint e).referConnections ∧
      (t.endpoint e).gcTimepoint = (s.endpoint e).gcTimepoint := by
  refine h.keeps (p := fun t => (t.endpoint e).referConnections =
    (s.endpoint e).referConnections ∧ (t.endpoint e).gcTimepoint = (s.endpoint e).gcTimepoint)
    (fun t u hupdate ht => ?_) ⟨rfl, rfl⟩
  have hmodify : ∀ (e' : EndpointPtr) (f : AtappEndpoint → AtappEndpoint),
      (∀ ep, (f ep).referConnections = ep.referConnections ∧
        (f ep).gcTimepoint = ep.gcTimepoint) →
      ((t.modifyEndpoint e' f).endpoint e).referConnections = (t.endpoint e).referConnections ∧
        ((t.modifyEndpoint e' f).endpoint e).gcTimepoint = (t.endpoint e).gcTimepoint :=
    fun e' f hf => ⟨t.modifyEndpoint_field e' _ (fun ep => (hf ep).1) e,
      t.modifyEndpoint_field e' _ (fun ep => (hf ep).2) e⟩
  have hfield : (u.endpoint e).referConnections = (t.endpoint e).referConnections ∧
      (u.endpoint e).gcTimepoint = (t.endpoint e).gcTimepoint := by
    cases hupdate with
    | queue e' messages size => exact hmodify e' _ fun _ => ⟨rfl, rfl⟩
    | disarm e' => exact hmodify e' _ fun _ => ⟨rfl, rfl⟩
    | wake e' time =>
      obtain ⟨heq, -⟩ | ⟨-, -, waker, -, -, heq⟩ := t.addWaker_cases e' time
      · rw [heq]
        exact ⟨rfl, rfl⟩
      · rw [heq]
        exact hmodify e' (fun ep => { ep with nearestWaker := time }) fun _ => ⟨rfl, rfl⟩
    | _ => exact ⟨rfl, rfl⟩
  exact ⟨hfield.1.trans ht.1, hfield.2.trans ht.2⟩

/-- An endpoint without handles has no ready one. -/
theorem getReadyConnectionHandle_of_empty (hempty : (s.endpoint e).referConnections = []) :
    s.getReadyConnectionHandle env e = none := by
  rw [getReadyConnectionHandle, hempty, List.perm_nil.1 (env.walk_perm [])]
  rfl

/-- An endpoint without handles answers the expired messages at the front. -/
theorem pendingMessage_retry_idle (env : Environment) (hempty : (s.endpoint e).referConnections = [])
    (tickTime maxCount : Int) :
    ((s.retryPendingMessages env e tickTime maxCount).1.endpoint e).pendingMessage =
      (s.endpoint e).pendingMessage.dropWhile fun msg => msg.expiredTimepoint ≤ tickTime := by
  unfold retryPendingMessages
  dsimp only
  set s₁ := if (s.endpoint e).nearestWaker ≤ tickTime then
      s.modifyEndpoint e fun ep => { ep with nearestWaker := 0 }
    else s with hs₁
  have hfield : ∀ {α : Type} (g : AtappEndpoint → α),
      (∀ ep, g { ep with nearestWaker := 0 } = g ep) → g (s₁.endpoint e) = g (s.endpoint e) := by
    intro α g hg
    rw [hs₁]
    split
    · exact s.modifyEndpoint_field e g hg e
    · rfl
  have hpending := hfield AtappEndpoint.pendingMessage fun _ => rfl
  have hempty₁ := (hfield AtappEndpoint.referConnections fun _ => rfl).trans hempty
  rw [hpending, getReadyConnectionHandle_of_empty hempty₁, Option.bind_none]
  split
  · next hnil => rw [hpending, hnil, List.dropWhile_nil]
  · have hcount : 0 < (if maxCount ≤ 0 then int32Max else maxCount) := by
      split
      · decide
      · omega
    have hloop := pendingMessage_retryLoop_none env tickTime
      (s.endpoint e).pendingMessage s₁ hcount 0 hpending
    split
    · next hnil =>
      rw [endpoint_modifyEndpoint_self]
      exact hloop
    · exact ((sameMessages_addWaker _ e _).pending e).trans hloop

/-- **Waking an endpoint**: if it is recycled, its messages must have expired. -/
theorem keepsIf_wakeEndpoint (env : Environment) (hs : Kept s) (e : EndpointPtr) :
    KeepsIf (s.wakeEndpoint env e) ((s.endpoint e).referConnections.isEmpty = true →
      s.lastTickTimepoint ≥ (s.endpoint e).gcTimepoint →
        ∀ msg ∈ (s.endpoint e).pendingMessage, msg.expiredTimepoint ≤ s.lastTickTimepoint) := by
  unfold wakeEndpoint
  have hbalanced := balanced_retryPendingMessages env s e s.lastTickTimepoint s.conf.loopTimes
  have hqueues : Queues s
      (s.retryPendingMessages env e s.lastTickTimepoint s.conf.loopTimes).1 :=
    queues_retryPendingMessages _ _
  obtain ⟨hrefer, hgc⟩ := hqueues.refer e
  have hidle := fun hempty : (s.endpoint e).referConnections = [] =>
    pendingMessage_retry_idle env hempty s.lastTickTimepoint s.conf.loopTimes
  generalize (s.retryPendingMessages env e s.lastTickTimepoint s.conf.loopTimes).1 = t at *
  have ht := hs.balanced hbalanced
  unfold recycle
  rw [hrefer, hgc, hbalanced.lastTick]
  split
  · next hempty =>
    split
    · next hdue =>
      have hnil : (s.endpoint e).referConnections = [] := List.isEmpty_iff.1 hempty
      have hcannot : ¬ CanAnswer env t e := by
        rw [CanAnswer, getReadyConnectionHandle_of_empty (hrefer.trans hnil)]
        simp [readyConnector]
      refine (keepsIf_removeEndpoint env ht e).congr ?_
      rw [Answers, hidle hnil, List.dropWhile_eq_nil_iff]
      simp only [decide_eq_true_eq]
      exact ⟨fun h _ _ => h.resolve_right hcannot, fun h => Or.inl (h hempty hdue)⟩
    · next hdue =>
      have hwake := (sameMessages_addWaker t e (s.endpoint e).gcTimepoint).balanced
      exact (ht.balanced hwake).keepsIf fun _ h => absurd h hdue
  · next hne => exact ht.keepsIf fun h => absurd h hne

/-- **One round** of `process_internal_events`. -/
theorem keepsIf_processRound (hs : Kept s) :
    KeepsIf (s.processRound env) (∀ e ∈ s.recycled env,
      ∀ msg ∈ (s.endpoint e).pendingMessage, msg.expiredTimepoint ≤ s.lastTickTimepoint) := by
  unfold processRound recycled
  cases hbegin : s.wakerBegin env with
  | none => exact hs.keepsIf (by simp)
  | some key =>
    obtain ⟨time, target⟩ := key
    have hs' := hs.balanced (sameMessages_eraseWaker s (time, target)).balanced
    cases target with
    | none =>
      dsimp only
      split
      · exact hs'.keepsIf (by simp)
      · exact hs.keepsIf (by simp)
    | some e =>
      dsimp only
      by_cases hdue : time ≤ s.lastTickTimepoint
      · rw [if_pos hdue]
        by_cases halive : (s.endpoint e).alive = true
        · rw [if_pos halive]
          refine (keepsIf_wakeEndpoint env hs' e).congr ?_
          show ((s.endpoint e).referConnections.isEmpty = true → _ → _) ↔ _
          by_cases hrecycle : (s.endpoint e).referConnections.isEmpty = true ∧
              s.lastTickTimepoint ≥ (s.endpoint e).gcTimepoint
          · rw [if_pos ⟨hdue, halive, hrecycle⟩]
            refine ⟨fun h e' he' => ?_, fun h _ _ => h e rfl⟩
            cases he'
            exact h hrecycle.1 hrecycle.2
          · rw [if_neg fun h => hrecycle h.2.2]
            exact iff_of_true (fun hempty hgc => absurd ⟨hempty, hgc⟩ hrecycle) (by simp)
        · rw [if_neg halive, if_neg fun h => halive h.2.1]
          exact hs'.keepsIf (by simp)
      · rw [if_neg hdue, if_neg fun h => hdue h.1]
        exact hs.keepsIf (by simp)

/-! ## Creating -/

theorem Kept.storeEndpoint (hs : Kept s) (e : EndpointPtr) (node : NodePtr) (id : Nat)
    (name : Bytes) (needId needName : Bool) :
    Kept (s.storeEndpoint e node id name needId needName) := by
  obtain ⟨byId, byName, heq⟩ := s.storeEndpoint_eq e node id name needId needName
  rw [heq]
  exact (hs.withIndexes byId byName).modifyEndpoint e (fun _ => ⟨fun h => h, rfl⟩)
    fun _ => ⟨rfl, rfl⟩

theorem Kept.createEndpoint (hs : Kept s) : Kept s.createEndpoint := by
  have hn := hs.numbered
  have hother : ∀ e ≠ s.endpointCount, s.createEndpoint.endpoint e = s.endpoint e :=
    fun e hne => Function.update_of_ne hne _ _
  have hempty := hn.queue s.endpointCount (le_refl _)
  have hserials : ∀ e, s.createEndpoint.pendingSerials e = s.pendingSerials e := by
    intro e
    by_cases he : e = s.endpointCount
    · rw [he, pendingSerials, pendingSerials, createEndpoint_self, hempty]
    · rw [pendingSerials, pendingSerials, hother e he]
  have hfates : ∀ e n, s.createEndpoint.fates e n = s.fates e n := by
    intro e n
    rw [App.fates, App.fates, hserials]
    rfl
  constructor
  · refine ⟨fun e => ?_, fun e => ?_, fun e n hpushed => ?_, hs.accounted.failing,
      hs.accounted.closed⟩
    · by_cases he : e = s.endpointCount
      · rw [SizeExact, he, createEndpoint_self]
        rfl
      · rw [SizeExact, hother e he]
        exact hs.accounted.size e
    · rw [hserials]
      exact hs.accounted.order e
    · exact (hfates e n).trans (hs.accounted.fate e n hpushed)
  · refine ⟨fun e => ?_, fun e halive => ?_, fun e he => ?_, fun e n hle => ?_, hn.pushed⟩
    · by_cases he : e = s.endpointCount
      · rw [he, createEndpoint_self]
      · rw [hother e he]
        exact hn.closing e
    · by_cases he : e = s.endpointCount
      · rw [he]
        exact Nat.lt_succ_self _
      · rw [hother e he] at halive
        exact Nat.lt_succ_of_lt (hn.alive e halive)
    · have hlt : s.endpointCount < e := he
      rw [hother e (Nat.ne_of_gt hlt)]
      exact hn.queue e (Nat.le_of_lt hlt)
    · exact (hfates e n).trans (hn.fates e n hle)

/-- **`mutable_endpoint`**: an endpoint that is removed on the way must answer its messages. -/
theorem keepsIf_mutableEndpoint (hs : Kept s) (discovery : Option NodePtr)
    (result : Option ConnectResult) :
    KeepsIf (s.mutableEndpoint env discovery result).1
      (∀ e ∈ s.replaced discovery, Answers env s e) := by
  have hstore : ∀ {t : App} {cond : Prop}, KeepsIf t cond → ∀ e node id name needId needName,
      KeepsIf (t.storeEndpoint e node id name needId needName) cond := by
    intro t cond ht e node id name needId needName
    refine ht.after ?_ fun hkept => hkept.storeEndpoint e node id name needId needName
    obtain ⟨byId, byName, heq⟩ := t.storeEndpoint_eq e node id name needId needName
    rw [heq]
    rfl
  unfold mutableEndpoint replaced
  by_cases hclosing : s.isClosing = true
  · rw [if_pos hclosing, if_pos hclosing]
    exact hs.keepsIf (by simp)
  · rw [if_neg hclosing, if_neg hclosing]
    cases discovery with
    | none => exact hs.keepsIf (by simp)
    | some node =>
      dsimp only
      rw [lookup_eq]
      cases hid : s.foundById (s.heap node).id with
      | none =>
        cases hname : s.foundByName (s.heap node).name with
        | some e => exact hstore (hs.keepsIf (by simp)) _ _ _ _ _ _
        | none =>
          have hconnect := fun t : App => sameMessages_connectEndpoint env t
            s.endpointCount result
          refine (hstore (hs.createEndpoint.keepsIf (by simp)) _ _ _ _ _ _).after
            (hconnect _).trace fun hkept => hkept.balanced (hconnect _).balanced
      | some e' =>
        cases hname : s.foundByName (s.heap node).name with
        | none => exact hstore (hs.keepsIf (by simp)) _ _ _ _ _ _
        | some e =>
          dsimp only
          by_cases he : e = e'
          · rw [if_pos he, if_pos he]
            exact hstore (hs.keepsIf (by simp)) _ _ _ _ _ _
          · rw [if_neg he, if_neg he]
            have hfound : s.endpointIndexById (s.heap node).id = some e' := by
              unfold foundById at hid
              split at hid
              · cases hid
              · exact hid
            refine hstore ?_ _ _ _ _ _ _
            rw [← hfound]
            exact keepsIf_removeEndpointById hs _

/-! ## Runs -/

/-- **Every step** keeps the account exactly if it meets the condition. -/
theorem keepsIf_step (hs : Kept s) (env : Environment) {op : AppOp} (hcall : s.Callable op) :
    KeepsIf (s.step (env, op)) (ClosesAnswered s (env, op)) := by
  have hsame : ∀ {t : App}, SameMessages s t → KeepsIf t True :=
    fun h => (hs.balanced h.balanced).keepsIf trivial
  have hother : ∀ {t : App}, t.endpoint = s.endpoint → t.trace = s.trace →
      t.pushCount = s.pushCount → t.endpointCount = s.endpointCount → KeepsIf t True :=
    fun hend htrace hpush hcount => (hs.congr hend htrace hpush hcount).keepsIf trivial
  cases op with
  | tick now => exact hother (t := s.step (env, .tick now)) rfl rfl rfl rfl
  | stop => exact hother (t := s.step (env, .stop)) rfl rfl rfl rfl
  | copyFrom node content => exact hother (t := s.step (env, .copyFrom node content)) rfl rfl rfl rfl
  | mutableEndpoint discovery result => exact keepsIf_mutableEndpoint hs discovery result
  | removeEndpointById id => exact keepsIf_removeEndpointById hs id
  | removeEndpointByName name => exact keepsIf_removeEndpointByName hs name
  | removeEndpoint e => exact keepsIf_removeEndpoint _ hs e
  | pushForwardMessage e type sequence data metadata =>
    have he := hs.numbered.alive e (hcall.endpoint e rfl)
    exact (hs.pushForwardMessage he type sequence data metadata).keepsIf trivial
  | retryPendingMessages e tickTime maxCount =>
    exact (hs.balanced (balanced_retryPendingMessages _ s e tickTime maxCount)).keepsIf trivial
  | processRound => exact keepsIf_processRound hs
  | destroyEndpoint e => exact keepsIf_destroyEndpoint hs e
  | _ => exact hsame (sameMessages_step env s rfl)

theorem kept_init (conf : AppConf) (now : Int) : Kept (init conf now) := by
  refine ⟨⟨fun _ => rfl, fun _ => List.Pairwise.nil, ?_, ?_, ?_⟩,
    ⟨fun _ => rfl, ?_, fun _ _ => rfl, fun _ _ _ => rfl, ?_⟩⟩
  all_goals simp [init]

/-- **Every accepted message has exactly one fate.** In every run of callable operations every
    accepted message is, in every state, handed to a connector once, answered once by a failing
    response or waiting in its queue, queues are in the order of the pushes, their byte counters
    are exact and no endpoint closes with messages left, if and only if every step meets the
    condition. -/
theorem always_accounted_iff (conf : AppConf) (now : Int) (inputs : List (Environment × AppOp))
    (hcall : Run.StepsMeet step (fun s input => s.Callable input.2) (init conf now) inputs) :
    Run.Always step Accounted (init conf now) inputs ↔
      Run.StepsMeet step ClosesAnswered (init conf now) inputs := by
  have hinit := kept_init conf now
  refine Run.always_iff_stepsMeet step ?_ ?_ hinit.numbered hinit.accounted hcall
  · intro s input hn hs hcall hcond
    exact ((keepsIf_step ⟨hs, hn⟩ input.1 hcall).kept hcond).numbered
  · intro s input hn hs hcall
    have hkeeps := keepsIf_step ⟨hs, hn⟩ input.1 hcall
    exact ⟨fun h => hkeeps.needs h.closed, fun hcond => (hkeeps.kept hcond).accounted⟩

/-- A message waits for the handle of a new endpoint to become ready, is sent by the next round, and
    the endpoint is removed. -/
def sentMessageRun : List (Environment × AppOp) :=
  [({}, .copyFrom 0 { nodeInfo := { id := 1 } }), ({}, .mutableEndpoint (some 0) (some ⟨7, false⟩)),
    ({}, .pushForwardMessage 0 0 0 [1] none), ({}, .setReady 0), ({}, .tick 16000000),
    ({}, .processRound), ({}, .removeEndpointById 1)]

theorem always_accounted_sentMessageRun :
    Run.Always step Accounted (init {} 0) sentMessageRun := by
  refine (always_accounted_iff {} 0 sentMessageRun ⟨?_, ?_, ?_, ?_, ?_, ?_, ?_, trivial⟩).2
    ⟨trivial, ?_, trivial, trivial, trivial, ?_, ?_, trivial⟩
  · exact callable_of_alive (by decide +kernel) (by decide +kernel) (by simp)
  · exact callable_of_alive (by decide +kernel) (by decide +kernel) (by simp)
  · exact callable_of_alive (by decide +kernel) (by decide +kernel) (by simp)
  · exact callable_of_alive (by decide +kernel) (by decide +kernel) (by simp)
  · exact callable_of_alive (by decide +kernel) (by decide +kernel) (by simp)
  · exact callable_of_alive (by decide +kernel) (by decide +kernel) (by simp)
  · exact callable_of_alive (by decide +kernel) (by decide +kernel) (by simp)
  · show ∀ e ∈ replaced _ _, Answers _ _ e
    decide +kernel
  · show ∀ e ∈ recycled _ _, ∀ msg ∈ _, _
    decide +kernel
  · show ∀ e ∈ App.endpointIndexById _ _, Answers _ _ e
    decide +kernel

/-- A message waits in an endpoint without a connection when the endpoint is removed; then its last
    reference goes. -/
def droppedMessageRun : List (Environment × AppOp) :=
  [({}, .copyFrom 0 { nodeInfo := { id := 1 } }), ({}, .mutableEndpoint (some 0) none),
    ({}, .pushForwardMessage 0 0 0 [1] none), ({}, .removeEndpointById 1), ({}, .destroyEndpoint 0)]

/-- The message is accepted, and it is neither handed over nor answered, nor does it wait. -/
theorem not_always_accounted_droppedMessageRun :
    Run.StepsMeet step (fun s input => s.Callable input.2) (init {} 0) droppedMessageRun ∧
      .pushed 0 0 .success ∈ (Run.run step (init {} 0) droppedMessageRun).trace ∧
      (Run.run step (init {} 0) droppedMessageRun).fates 0 0 = 0 ∧
      ¬ Run.Always step Accounted (init {} 0) droppedMessageRun := by
  refine ⟨⟨?_, ?_, ?_, ?_, ⟨by simp [AppOp.handleOf], ?_, ?_⟩, trivial⟩, by decide +kernel,
    by decide +kernel, ?_⟩
  · exact callable_of_alive (by decide +kernel) (by decide +kernel) (by simp)
  · exact callable_of_alive (by decide +kernel) (by decide +kernel) (by simp)
  · exact callable_of_alive (by decide +kernel) (by decide +kernel) (by simp)
  · exact callable_of_alive (by decide +kernel) (by decide +kernel) (by simp)
  · intro e he
    cases he
    decide +kernel
  · intro e he
    cases he
    refine ⟨fun id => ?_, fun name => ?_⟩
    · show Function.update (Function.update (fun _ => none) 1 (some 0)) 1 none id ≠ some 0
      by_cases hid : id = 1 <;> simp [hid]
    · exact (Option.some_ne_none 0).symm
  · intro halways
    have hleft := (halways.last step).closed 0 [0] (by decide +kernel)
    exact absurd hleft (by decide)

end LibAtapp.Connectors.App
