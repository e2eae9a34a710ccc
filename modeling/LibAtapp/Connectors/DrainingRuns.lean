import LibAtapp.Connectors.DrainingCalls
import Mathlib.Data.Nat.Count

set_option autoImplicit false

/-! # Re-entrant draining

While a call waits for the callback in which it reports a message, the callback can use the
endpoint. Pushes and operations on handles do no harm, and neither does a removal while the endpoint
is being reset. But a removal during a retry cancels the messages, the reported one included: it is
reported again and freed, and the retry goes on with a message that is gone. -/

namespace LibAtapp.Connectors.Draining

open App

variable {env : Environment} {e : EndpointPtr} {s₀ s : App} {stack : List Frame} {m : Draining}

/-! ## The invariant -/

/-- The messages that wait and that no call has reported yet. -/
def unreported (e : EndpointPtr) (m : Draining) : List PendingMessage :=
  (m.app.endpoint e).pendingMessage.drop m.held.length

/-- What holds in a run that began in the state `s₀`: at most one call holds a message, and that is
    the front of the queue. -/
structure Inv (e : EndpointPtr) (s₀ : App) (m : Draining) : Prop where
  held : m.held <+: (m.app.endpoint e).pendingMessage
  single : m.held.length ≤ 1
  closing : m.stack.any Frame.isCancel = true → (m.app.endpoint e).closing = true
  size : m.app.SizeExact e
  count : ∀ n, m.app.answered e n + ((unreported e m).map PendingMessage.serial).count n ≤
    s₀.answered e n + 1
  base : ∀ n, s₀.answered e n ≤ m.app.answered e n
  told : ∀ msg ∈ m.held, s₀.answered e msg.serial + 1 ≤ m.app.answered e msg.serial
  fresh : ∀ n, m.app.pushCount ≤ n → m.app.answered e n ≤ s₀.answered e n
  used : ∀ msg ∈ (m.app.endpoint e).pendingMessage, msg.serial < m.app.pushCount

theorem Inv.reentrant (h : Inv e s₀ m) : Reentrant e s₀ m where
  once := fun n => (Nat.le_add_right _ _).trans (h.count n)
  front := by
    intro frame hframe msg hmsg
    obtain ⟨rest, hrest⟩ := h.held
    cases hstack : m.stack with
    | nil =>
      rw [hstack] at hframe
      cases hframe
    | cons top stack =>
      rw [hstack] at hframe
      cases hframe
      have hheld : frame.held = some msg := hmsg
      rw [← hrest, Draining.held, hstack, List.filterMap_cons, hheld]
      rfl
  size := h.size

/-- A call that holds nothing is neither a retry nor a reset. -/
theorem any_eq_false_of_held (hfree : stack.filterMap Frame.held = []) :
    stack.any Frame.isCancel = false ∧ stack.any Frame.isRetry = false := by
  rw [List.filterMap_eq_nil_iff] at hfree
  constructor
  · rw [List.any_eq_false]
    intro frame hframe
    have hnone := hfree frame hframe
    cases frame <;> simp_all [Frame.held, Frame.isCancel]
  · rw [List.any_eq_false]
    intro frame hframe
    have hnone := hfree frame hframe
    cases frame <;> simp_all [Frame.held, Frame.isRetry]

theorem held_enter (r : App × Option Frame) (stack : List Frame) :
    (enter r stack).held = heldBy r.2 ++ stack.filterMap Frame.held := by
  obtain ⟨app, _ | frame⟩ := r
  · rfl
  · cases hheld : frame.held <;> simp [enter, Draining.held, heldBy, hheld]

/-- What waits to be reported or to return. -/
def waiting (e : EndpointPtr) (m : Draining) : Nat := m.stack.length + (unreported e m).length

/-- **Calls where no message is held** keep the invariant. -/
theorem inv_enter {r : App × Option Frame} (h : Inv e s₀ ⟨s, stack⟩)
    (hfree : stack.filterMap Frame.held = []) (hr : Reached e s r)
    (hcancel : ∀ frame ∈ r.2, frame.isCancel = true → (r.1.endpoint e).closing = true) :
    Inv e s₀ (enter r stack) ∧ waiting e (enter r stack) ≤ waiting e ⟨s, stack⟩ := by
  have hheld : (enter r stack).held = heldBy r.2 := by
    rw [held_enter, hfree, List.append_nil]
  have hnone : (⟨s, stack⟩ : Draining).held = [] := hfree
  have hbefore : unreported e ⟨s, stack⟩ = (s.endpoint e).pendingMessage := by
    rw [unreported, hnone]
    rfl
  have hlength : (heldBy r.2).length ≤ 1 := by
    unfold heldBy
    cases r.2.bind Frame.held <;> simp
  -- what is reported was not reported before
  have hsplit : (r.1.endpoint e).pendingMessage =
      heldBy r.2 ++ unreported e (enter r stack) := by
    rw [unreported, hheld]
    exact (List.prefix_iff_eq_append.1 hr.held).symm
  have hsuffix := hr.suffix
  rw [hsplit] at hsuffix
  have hanswered : ∀ n, (enter r stack).app.answered e n =
      s.answered e n + ((heldBy r.2).map PendingMessage.serial).count n := hr.answered
  have hused : ∀ msg ∈ (r.1.endpoint e).pendingMessage, msg.serial < s.pushCount :=
    fun msg hmsg => h.used msg (hr.suffix.subset hmsg)
  refine ⟨⟨?_, ?_, ?_, hr.size h.size, fun n => ?_, fun n => ?_, fun msg hmsg => ?_,
    fun n hn => ?_, fun msg hmsg => ?_⟩, ?_⟩
  · rw [hheld]
    exact hr.held
  · rw [hheld]
    exact hlength
  · intro hany
    have hstack := (any_eq_false_of_held hfree).1
    have htop : r.2.toList.any Frame.isCancel = true := by
      have hany' : (r.2.toList ++ stack).any Frame.isCancel = true := hany
      rwa [List.any_append, hstack, Bool.or_false] at hany'
    obtain ⟨frame, hframe, hiscancel⟩ := List.any_eq_true.1 htop
    exact hcancel frame (Option.mem_toList.1 hframe) hiscancel
  · have hcount : s.answered e n + ((unreported e ⟨s, stack⟩).map PendingMessage.serial).count n ≤
        s₀.answered e n + 1 := h.count n
    have hle := (hsuffix.sublist.map PendingMessage.serial).count_le n
    rw [hbefore] at hcount
    rw [List.map_append, List.count_append] at hle
    rw [hanswered]
    omega
  · have hbase : s₀.answered e n ≤ s.answered e n := h.base n
    rw [hanswered]
    omega
  · rw [hheld] at hmsg
    have hbase : s₀.answered e msg.serial ≤ s.answered e msg.serial := h.base msg.serial
    have hone := List.count_pos_iff.2 (List.mem_map_of_mem (f := PendingMessage.serial) hmsg)
    rw [hanswered]
    omega
  · have hn' : s.pushCount ≤ n := hr.pushCount ▸ hn
    have hfresh : s.answered e n ≤ s₀.answered e n := h.fresh n hn'
    have hzero : ((heldBy r.2).map PendingMessage.serial).count n = 0 := by
      rw [List.count_eq_zero, List.mem_map]
      rintro ⟨msg, hmsg, rfl⟩
      have := hused msg (hr.held.subset hmsg)
      omega
    rw [hanswered]
    omega
  · have hlt := hused msg hmsg
    have hcount : (enter r stack).app.pushCount = s.pushCount := hr.pushCount
    omega
  · have hle := hsuffix.length_le
    have hholds := hr.holds
    rw [List.length_append] at hle
    rw [waiting, waiting, hbefore]
    show (r.2.toList ++ stack).length + _ ≤ stack.length + _
    rw [List.length_append]
    omega

/-- Changes that do not concern the queue keep the invariant. -/
theorem Inv.sameQueue {t : App} (h : Inv e s₀ ⟨s, stack⟩) (hsame : SameQueue e s t)
    (hclosing : stack.any Frame.isCancel = true → (t.endpoint e).closing = true) :
    Inv e s₀ ⟨t, stack⟩ ∧ waiting e ⟨t, stack⟩ = waiting e ⟨s, stack⟩ := by
  have hunreported : unreported e ⟨t, stack⟩ = unreported e ⟨s, stack⟩ := by
    show (t.endpoint e).pendingMessage.drop _ = (s.endpoint e).pendingMessage.drop _
    rw [hsame.pending]
    rfl
  have hanswered : ∀ n, (⟨t, stack⟩ : Draining).app.answered e n = s.answered e n :=
    hsame.answered
  refine ⟨⟨?_, h.single, hclosing, hsame.sizeExact h.size, fun n => ?_, fun n => ?_,
    fun msg hmsg => ?_, fun n hn => ?_, fun msg hmsg => ?_⟩, ?_⟩
  · show _ <+: (t.endpoint e).pendingMessage
    rw [hsame.pending]
    exact h.held
  · rw [hanswered, hunreported]
    exact h.count n
  · rw [hanswered]
    exact h.base n
  · rw [hanswered]
    exact h.told msg hmsg
  · rw [hanswered]
    exact h.fresh n (hsame.pushCount ▸ hn)
  · show _ < t.pushCount
    rw [hsame.pushCount]
    exact h.used msg (hsame.pending ▸ hmsg)
  · rw [waiting, waiting, hunreported]

/-- A push that waits holds no message. -/
theorem inv_push_iff (e : EndpointPtr) (s₀ s : App) (stack : List Frame) (serial : Nat)
    (code : ErrorCode) (data : Bytes) :
    Inv e s₀ ⟨s, .push serial code data :: stack⟩ ↔ Inv e s₀ ⟨s, stack⟩ :=
  ⟨fun h => ⟨h.held, h.single, h.closing, h.size, h.count, h.base, h.told, h.fresh, h.used⟩,
    fun h => ⟨h.held, h.single, h.closing, h.size, h.count, h.base, h.told, h.fresh, h.used⟩⟩

theorem waiting_push (e : EndpointPtr) (s : App) (stack : List Frame) (serial : Nat)
    (code : ErrorCode) (data : Bytes) :
    waiting e ⟨s, .push serial code data :: stack⟩ = waiting e ⟨s, stack⟩ + 1 := by
  show stack.length + 1 + (unreported e ⟨s, stack⟩).length =
    stack.length + (unreported e ⟨s, stack⟩).length + 1
  omega

/-- A push returns. -/
theorem Inv.finishPush (h : Inv e s₀ ⟨s, stack⟩) (serial : Nat) (code : ErrorCode) (data : Bytes) :
    Inv e s₀ ⟨s.finishPush e serial code data, stack⟩ ∧
      waiting e ⟨s.finishPush e serial code data, stack⟩ = waiting e ⟨s, stack⟩ := by
  unfold App.finishPush
  split
  · exact ⟨h, rfl⟩
  · exact h.sameQueue (sameQueue_record fun _ => rfl) h.closing

/-- The callback of a call that holds a message has returned: the message is the front of the queue,
    and when it is off no call holds a message. -/
theorem Inv.popHeld {frame : Frame} {msg : PendingMessage}
    (h : Inv e s₀ ⟨s, frame :: stack⟩) (hframe : frame.held = some msg) :
    stack.filterMap Frame.held = [] ∧ Inv e s₀ ⟨s.popPending e msg, stack⟩ ∧
      waiting e ⟨s.popPending e msg, stack⟩ + 1 = waiting e ⟨s, frame :: stack⟩ := by
  have hheld : (⟨s, frame :: stack⟩ : Draining).held = msg :: stack.filterMap Frame.held := by
    rw [Draining.held, List.filterMap_cons, hframe]
  have hfree : stack.filterMap Frame.held = [] := by
    have hsingle := h.single
    rw [hheld, List.length_cons] at hsingle
    exact List.length_eq_zero_iff.1 (by omega)
  rw [hfree] at hheld
  obtain ⟨msgs, hqueue⟩ := h.held
  rw [hheld, List.singleton_append] at hqueue
  have hqueue : (s.endpoint e).pendingMessage = msg :: msgs := hqueue.symm
  have hpop : ((s.popPending e msg).endpoint e).pendingMessage = msgs := by
    rw [pendingMessage_popPending, hqueue, List.tail_cons]
  have hnone : (⟨s.popPending e msg, stack⟩ : Draining).held = [] := hfree
  have hafter : unreported e ⟨s.popPending e msg, stack⟩ = msgs := by
    rw [unreported, hnone]
    exact hpop
  have hbefore : unreported e ⟨s, frame :: stack⟩ = msgs := by
    rw [unreported, hheld]
    show (s.endpoint e).pendingMessage.drop 1 = msgs
    rw [hqueue]
    rfl
  refine ⟨hfree, ⟨?_, ?_, fun hany => ?_, sizeExact_popPending hqueue h.size, fun n => ?_, h.base,
    fun old hold => ?_, h.fresh, fun old hold => ?_⟩, ?_⟩
  · rw [hnone]
    exact List.nil_prefix
  · rw [hnone]
    exact Nat.zero_le 1
  · rw [(any_eq_false_of_held hfree).1] at hany
    cases hany
  · have hcount := h.count n
    rw [hbefore] at hcount
    rw [hafter]
    exact hcount
  · rw [hnone] at hold
    cases hold
  · refine h.used old ?_
    show old ∈ (s.endpoint e).pendingMessage
    rw [hqueue]
    exact List.mem_cons_of_mem _ (hpop ▸ hold)
  · rw [waiting, waiting, hafter, hbefore, List.length_cons]
    show stack.length + _ + 1 = stack.length + 1 + _
    omega

/-- **A push**, however many calls wait. -/
theorem Inv.pushed {r : App × ErrorCode} (h : Inv e s₀ ⟨s, stack⟩)
    (hr : Pushed e s.pushCount { s with pushCount := s.pushCount + 1 } r) :
    Inv e s₀ ⟨r.1, stack⟩ ∧
      waiting e ⟨r.1, stack⟩ ≤ waiting e ⟨s, stack⟩ + if r.2 = .success then 1 else 0 := by
  set held := stack.filterMap Frame.held with hheld
  have hanswered : ∀ n, r.1.answered e n =
      s.answered e n + if r.2 ≠ .success ∧ n = s.pushCount then 1 else 0 := hr.answered
  have hcount : r.1.pushCount = s.pushCount + 1 := hr.pushCount
  have hclosing : (r.1.endpoint e).closing = (s.endpoint e).closing := hr.closing
  have hprefix : held <+: (s.endpoint e).pendingMessage := h.held
  -- a new message comes after those that are held
  have hunreported : unreported e ⟨r.1, stack⟩ = unreported e ⟨s, stack⟩ ∨
      r.2 = .success ∧ ∃ msg : PendingMessage, msg.serial = s.pushCount ∧
        unreported e ⟨r.1, stack⟩ = unreported e ⟨s, stack⟩ ++ [msg] := by
    show (r.1.endpoint e).pendingMessage.drop held.length =
        (s.endpoint e).pendingMessage.drop held.length ∨ _ ∧ ∃ msg : PendingMessage, _ ∧
      (r.1.endpoint e).pendingMessage.drop held.length =
        (s.endpoint e).pendingMessage.drop held.length ++ [msg]
    rcases hr.queue with hsame | ⟨hcode, msg, hserial, hqueue⟩
    · exact Or.inl (congrArg _ hsame)
    · refine Or.inr ⟨hcode, msg, hserial, ?_⟩
      rw [hqueue]
      exact List.drop_append_of_le_length hprefix.length_le
  have hqueue : ∀ msg ∈ (r.1.endpoint e).pendingMessage,
      msg ∈ (s.endpoint e).pendingMessage ∨ msg.serial = s.pushCount := by
    intro msg hmsg
    rcases hr.queue with hsame | ⟨-, new, hserial, hqueue⟩
    · exact Or.inl (hsame ▸ hmsg)
    · rw [hqueue] at hmsg
      rcases List.mem_append.1 hmsg with hold | hnew
      · exact Or.inl hold
      · rw [List.mem_singleton.1 hnew]
        exact Or.inr hserial
  have hfresh : ∀ n, s.pushCount ≤ n → s.answered e n ≤ s₀.answered e n := h.fresh
  have hzero : ((unreported e ⟨s, stack⟩).map PendingMessage.serial).count s.pushCount = 0 := by
    rw [List.count_eq_zero, List.mem_map]
    rintro ⟨msg, hmsg, heq⟩
    have hlt := h.used msg (List.mem_of_mem_drop hmsg)
    exact absurd heq (Nat.ne_of_lt hlt)
  refine ⟨⟨?_, h.single, fun hany => hclosing.trans (h.closing hany), hr.size h.size, fun n => ?_,
    fun n => ?_, fun msg hmsg => ?_, fun n hn => ?_, fun msg hmsg => ?_⟩, ?_⟩
  · rcases hr.queue with hsame | ⟨-, msg, -, hqueue⟩
    · exact hsame.symm ▸ hprefix
    · exact hqueue.symm ▸ hprefix.trans (List.prefix_append _ _)
  · have hold : s.answered e n + _ ≤ s₀.answered e n + 1 := h.count n
    show r.1.answered e n + _ ≤ _
    rw [hanswered]
    rcases hunreported with hsame | ⟨hcode, msg, hserial, hnew⟩
    · rw [hsame]
      by_cases hn : n = s.pushCount
      · subst hn
        have := hfresh s.pushCount (le_refl _)
        rw [hzero]
        split <;> omega
      · rw [if_neg fun hnew => hn hnew.2]
        exact hold
    · rw [hnew, List.map_append, List.count_append, if_neg fun hrefused => hrefused.1 hcode]
      by_cases hn : n = s.pushCount
      · subst hn
        have := hfresh s.pushCount (le_refl _)
        rw [hzero]
        simp [hserial]
        omega
      · have hother : ([msg].map PendingMessage.serial).count n = 0 := by
          rw [List.count_eq_zero, List.map_singleton, List.mem_singleton, hserial]
          exact hn
        omega
  · have hold : s₀.answered e n ≤ s.answered e n := h.base n
    show _ ≤ r.1.answered e n
    rw [hanswered]
    omega
  · have hold : s₀.answered e msg.serial + 1 ≤ s.answered e msg.serial := h.told msg hmsg
    show _ ≤ r.1.answered e msg.serial
    rw [hanswered]
    omega
  · have hn' : s.pushCount + 1 ≤ n := hcount ▸ hn
    show r.1.answered e n ≤ _
    rw [hanswered, if_neg (by omega)]
    exact hfresh n (by omega)
  · show msg.serial < r.1.pushCount
    rw [hcount]
    rcases hqueue msg hmsg with hold | hnew
    · have : msg.serial < s.pushCount := h.used msg hold
      omega
    · omega
  · rw [waiting, waiting]
    show stack.length + _ ≤ stack.length + _ + _
    rcases hunreported with hsame | ⟨hcode, msg, -, hnew⟩
    · rw [hsame]
      omega
    · rw [hnew, if_pos hcode, List.length_append, List.length_singleton]
      omega

/-! ## Removing -/

/-- What `reset` finds: the endpoint is closing, or nobody can be asked to answer its messages, or
    they are cancelled. -/
theorem callReset_cases (env : Environment) (s : App) (e : EndpointPtr) :
    ((s.endpoint e).closing = true ∧ s.callReset env e = (s, none)) ∨
    ((s.endpoint e).closing = false ∧ ∃ t, SameQueue e s t ∧ (t.endpoint e).closing = true ∧
      ((¬ CanAnswer env s e ∧ s.callReset env e = (t.finishReset env e, none)) ∨
        (CanAnswer env s e ∧ ∃ c, s.callReset env e = t.cancelOn env e c))) := by
  unfold callReset
  cases hclosing : (s.endpoint e).closing with
  | true => exact Or.inl ⟨rfl, if_pos rfl⟩
  | false =>
    set t := s.modifyEndpoint e fun ep => { ep with closing := true } with ht
    have hready : t.readyConnector (t.getReadyConnectionHandle env e) =
        s.readyConnector (s.getReadyConnectionHandle env e) := by
      have hrefer : (t.endpoint e).referConnections = (s.endpoint e).referConnections := by
        rw [ht, endpoint_modifyEndpoint_self]
      rw [getReadyConnectionHandle, getReadyConnectionHandle, hrefer]
      rfl
    refine Or.inr ⟨rfl, t, sameQueue_modifyEndpoint fun _ => ⟨rfl, rfl⟩, ?_, ?_⟩
    · rw [ht, endpoint_modifyEndpoint_self]
    · rw [if_neg Bool.false_ne_true]
      dsimp only
      rw [hready, CanAnswer]
      cases s.readyConnector (s.getReadyConnectionHandle env e) with
      | none => exact Or.inl ⟨Bool.false_ne_true, rfl⟩
      | some c => exact Or.inr ⟨rfl, c, rfl⟩

/-- Removing an endpoint erases index entries and resets it. -/
theorem callRemoveEndpoint_eq (env : Environment) (s : App) (e : EndpointPtr) :
    ∃ byId byName, s.callRemoveEndpoint env e = (s.withIndexes byId byName).callReset env e := by
  unfold callRemoveEndpoint
  obtain ⟨byId, hbyId⟩ := s.eraseIdOf_eq e (s.getId e)
  dsimp only
  rw [hbyId]
  obtain ⟨byName, hbyName⟩ := (s.withIndexes byId s.endpointIndexByName).eraseNameOf_eq e
    ((s.withIndexes byId s.endpointIndexByName).getName e)
  exact ⟨byId, byName, by rw [hbyName]; rfl⟩

/-- Calls that hold a message are retries or resets. -/
theorem filterMap_held_eq_nil (hcancel : stack.any Frame.isCancel = false)
    (hretry : stack.any Frame.isRetry = false) : stack.filterMap Frame.held = [] := by
  rw [List.any_eq_false] at hcancel hretry
  rw [List.filterMap_eq_nil_iff]
  intro frame hframe
  have hcancel := hcancel frame hframe
  have hretry := hretry frame hframe
  cases frame <;> simp_all [Frame.held, Frame.isCancel, Frame.isRetry]

/-- **A removal** that spares the retries that wait. -/
theorem Inv.removeEndpoint (h : Inv e s₀ ⟨s, stack⟩)
    (hcond : stack.any Frame.isRetry = true →
      (s.endpoint e).closing = true ∨ ¬ CanAnswer env s e) :
    Inv e s₀ (enter (s.callRemoveEndpoint env e) stack) ∧
      waiting e (enter (s.callRemoveEndpoint env e) stack) ≤ waiting e ⟨s, stack⟩ := by
  obtain ⟨byId, byName, heq⟩ := callRemoveEndpoint_eq env s e
  rw [heq]
  have herased : Inv e s₀ ⟨s.withIndexes byId byName, stack⟩ ∧
      waiting e ⟨s.withIndexes byId byName, stack⟩ = waiting e ⟨s, stack⟩ :=
    h.sameQueue ⟨rfl, rfl, fun _ => rfl, rfl⟩ h.closing
  have hnone : (s.endpoint e).closing = false → stack.any Frame.isCancel = false := by
    intro hopen
    rw [Bool.eq_false_iff]
    intro hany
    exact absurd ((h.closing hany).symm.trans hopen) (by decide)
  rcases callReset_cases env (s.withIndexes byId byName) e with ⟨-, hsame⟩ |
    ⟨hopen, t, hsame, hclosing, ⟨-, hfinish⟩ | ⟨hcan, c, hcancel⟩⟩
  · rw [hsame]
    exact ⟨herased.1, herased.2.le⟩
  · -- no call is a reset, and this one is over
    have hkept := herased.1.sameQueue (hsame.trans (sameQueue_finishReset env t e))
      fun hany => absurd hany (by rw [hnone hopen]; decide)
    rw [hfinish]
    exact ⟨hkept.1, (hkept.2.trans herased.2).le⟩
  · have hretry : stack.any Frame.isRetry = false := by
      rw [Bool.eq_false_iff]
      intro hany
      rcases hcond hany with hclosed | hcannot
      · exact absurd (hclosed.symm.trans hopen) (by decide)
      · exact hcannot hcan
    have hkept := herased.1.sameQueue hsame fun _ => hclosing
    rw [hcancel]
    obtain ⟨hinv, hle⟩ := inv_enter hkept.1 (filterMap_held_eq_nil (hnone hopen) hretry)
      (reached_cancelOn env t e c)
      fun frame hframe _ => (closing_cancelOn hframe).trans hclosing
    exact ⟨hinv, hle.trans (hkept.2.trans herased.2).le⟩

/-- **A removal during a retry** that cancels the messages reports the front message again. -/
theorem Inv.not_reentrant_removeEndpoint (h : Inv e s₀ ⟨s, stack⟩)
    (hretry : stack.any Frame.isRetry = true) (hopen : (s.endpoint e).closing = false)
    (hcan : CanAnswer env s e) :
    ¬ Reentrant e s₀ (enter (s.callRemoveEndpoint env e) stack) := by
  intro hreentrant
  -- the retry holds the front message
  obtain ⟨msg, msgs, hheld⟩ : ∃ msg msgs, stack.filterMap Frame.held = msg :: msgs := by
    cases hheld : stack.filterMap Frame.held with
    | nil =>
      rw [(any_eq_false_of_held hheld).2] at hretry
      cases hretry
    | cons msg msgs => exact ⟨msg, msgs, rfl⟩
  obtain ⟨rest, hrest⟩ := h.held
  have hqueue : (s.endpoint e).pendingMessage = msg :: (msgs ++ rest) := by
    rw [← List.cons_append, ← hheld]
    exact hrest.symm
  have htold : s₀.answered e msg.serial + 1 ≤ s.answered e msg.serial := by
    refine h.told msg ?_
    show msg ∈ stack.filterMap Frame.held
    rw [hheld]
    exact List.mem_cons_self
  obtain ⟨byId, byName, heq⟩ := callRemoveEndpoint_eq env s e
  rcases callReset_cases env (s.withIndexes byId byName) e with ⟨hclosed, -⟩ |
    ⟨-, t, hsame, -, ⟨hcannot, -⟩ | ⟨-, c, hcancel⟩⟩
  · exact absurd (hclosed.symm.trans hopen) (by decide)
  · exact hcannot hcan
  · have honce := hreentrant.once msg.serial
    have hfront : (t.endpoint e).pendingMessage = msg :: (msgs ++ rest) :=
      hsame.pending.trans hqueue
    have hreached : Reached e t (t.triggerOnReceiveForwardResponse e (some c) msg.serial .closing,
        some (.cancel msg c)) := reached_report hfront rfl (some c) .closing
    rw [heq, hcancel, cancelOn] at honce
    simp only [hfront] at honce
    have hanswered : (t.triggerOnReceiveForwardResponse e (some c) msg.serial .closing).answered e
        msg.serial = _ := hreached.answered msg.serial
    have hkept : t.answered e msg.serial = s.answered e msg.serial := hsame.answered msg.serial
    have hone : ((heldBy (some (.cancel msg c))).map PendingMessage.serial).count msg.serial = 1 := by
      simp [heldBy, Frame.held]
    simp only [enter] at honce
    rw [hone, hkept] at hanswered
    omega

/-! ## Steps -/

/-- One for a callback that returns to a call that waits. -/
def returns (m : Draining) (input : Environment × CallbackOp) : Nat :=
  if input.2.isRet = true ∧ m.stack ≠ [] then 1 else 0

/-- One for a push. -/
def pushes (input : Environment × CallbackOp) : Nat := if input.2.isPush = true then 1 else 0

/-- **The callback returns.** -/
theorem Inv.ret {frame : Frame} (h : Inv e s₀ ⟨s, frame :: stack⟩) :
    Inv e s₀ (enter (s.resume env e frame) stack) ∧
      waiting e (enter (s.resume env e frame) stack) + 1 ≤ waiting e ⟨s, frame :: stack⟩ := by
  cases frame with
  | push serial code data =>
    obtain ⟨hinv, heq⟩ := ((inv_push_iff e s₀ s stack serial code data).1 h).finishPush serial code
      data
    refine ⟨hinv, ?_⟩
    rw [waiting_push, ← heq]
    exact le_refl _
  | retry msg target tickTime maxCount =>
    obtain ⟨hfree, hinv, hwaiting⟩ := h.popHeld rfl
    obtain ⟨hinv', hle⟩ := inv_enter hinv hfree
      (reached_retryOn env e target tickTime _ (s.popPending e msg) maxCount 0 rfl)
      fun frame hframe hcancel =>
        absurd hcancel (by rw [retryOn_not_isCancel env e target tickTime _ _ _ _ frame hframe]; decide)
    exact ⟨hinv', (Nat.add_le_add_right hle 1).trans hwaiting.le⟩
  | cancel msg c =>
    obtain ⟨hfree, hinv, hwaiting⟩ := h.popHeld rfl
    have hclosing : ((s.popPending e msg).endpoint e).closing = true := by
      rw [popPending, endpoint_modifyEndpoint_self]
      exact h.closing rfl
    obtain ⟨hinv', hle⟩ := inv_enter hinv hfree (reached_cancelOn env (s.popPending e msg) e c)
      fun frame hframe _ => (closing_cancelOn hframe).trans hclosing
    exact ⟨hinv', (Nat.add_le_add_right hle 1).trans hwaiting.le⟩

/-- A push is made. -/
theorem Inv.pushForwardMessage (h : Inv e s₀ ⟨s, stack⟩) (type : Int) (sequence : Nat)
    (data : Bytes) (metadata : Option AtappMetadata) :
    Inv e s₀ (enter (s.callPush env e type sequence data metadata) stack) ∧
      waiting e (enter (s.callPush env e type sequence data metadata) stack) ≤
        waiting e ⟨s, stack⟩ + 1 := by
  have hpush := pushed_pushMessage env { s with pushCount := s.pushCount + 1 } e s.pushCount type
    sequence data metadata
  unfold callPush
  dsimp only
  generalize pushMessage env { s with pushCount := s.pushCount + 1 } e s.pushCount type sequence
    data metadata = r at hpush ⊢
  obtain ⟨hinv, hle⟩ := h.pushed hpush
  obtain ⟨t, code⟩ := r
  dsimp only at hinv hle ⊢
  split
  · next hcode =>
    rw [if_pos hcode] at hle
    obtain ⟨hinv', heq⟩ := hinv.finishPush s.pushCount code data
    exact ⟨hinv', heq.le.trans hle⟩
  · next hcode =>
    rw [if_neg hcode] at hle
    refine ⟨(inv_push_iff e s₀ t stack s.pushCount code data).2 hinv, ?_⟩
    exact (waiting_push e t stack s.pushCount code data).le.trans (Nat.add_le_add_right hle 1)

/-- **Every step** that spares the retries that wait keeps the invariant; a return leaves less to
    wait for, and only a push adds to it. -/
theorem inv_step {input : Environment × CallbackOp} (h : Inv e s₀ m)
    (hcond : SparesRetry e m input) :
    Inv e s₀ (step e m input) ∧
      waiting e (step e m input) + returns m input ≤ waiting e m + pushes input := by
  obtain ⟨env, op⟩ := input
  obtain ⟨s, stack⟩ := m
  cases op with
  | ret =>
    cases stack with
    | nil => exact ⟨h, le_refl _⟩
    | cons frame stack => exact h.ret
  | pushForwardMessage type sequence data metadata =>
    exact h.pushForwardMessage type sequence data metadata
  | removeEndpoint => exact h.removeEndpoint hcond
  | binds op hop =>
    have hsame := sameMessages_step env s hop
    obtain ⟨hinv, heq⟩ := h.sameQueue (hsame.sameQueue e) fun hany =>
      (hsame.closing e).trans (h.closing hany)
    exact ⟨hinv, heq.le⟩

/-- **A step is re-entrant** exactly if it spares the retries that wait. -/
theorem Inv.reentrant_iff {input : Environment × CallbackOp} (h : Inv e s₀ m) :
    Reentrant e s₀ (Draining.step e m input) ↔ SparesRetry e m input := by
  refine ⟨fun hreentrant => ?_, fun hcond => (inv_step h hcond).1.reentrant⟩
  obtain ⟨env, op⟩ := input
  obtain ⟨s, stack⟩ := m
  cases op with
  | removeEndpoint =>
    intro hretry
    by_contra hnot
    rw [not_or, Bool.not_eq_true, not_not] at hnot
    exact h.not_reentrant_removeEndpoint hretry hnot.1 hnot.2 hreentrant
  | _ => trivial

/-! ## Callbacks that do nothing -/

/-- The environment after the first `k` calls of `on_send_forward_request`. -/
def afterSends (env : Environment) (k : Nat) : Environment :=
  { env with send := fun j => env.send (k + j) }

theorem retryOn_afterSends (env : Environment) (e : EndpointPtr)
    (target : Option (HandlePtr × ConnectorPtr)) (tickTime : Int) (k : Nat)
    (msgs : List PendingMessage) (s : App) (maxCount : Int) (j : Nat) :
    retryOn (afterSends env k) e target tickTime s msgs maxCount j =
      retryOn env e target tickTime s msgs maxCount (k + j) := by
  induction msgs generalizing s maxCount j with
  | nil => rfl
  | cons msg msgs ih =>
    have hsend : ∀ h, s.onSendForwardRequest (afterSends env k) e h msg.serial j =
        s.onSendForwardRequest env e h msg.serial (k + j) := fun _ => rfl
    unfold retryOn
    split
    · dsimp only
      rw [hsend, ih]
      rfl
    · rfl

/-- A call that is made, and callbacks that return at once, end in the state `t`. -/
def Returns (e : EndpointPtr) (m : Draining) (t : App) (stack : List Frame) : Prop :=
  ∃ inputs : List (Environment × CallbackOp), (∀ input ∈ inputs, input.2 = .ret) ∧
    Run.run (step e) m inputs = ⟨t, stack⟩

theorem returns_done (e : EndpointPtr) (t : App) (stack : List Frame) :
    Returns e (enter (t, none) stack) t stack :=
  ⟨[], by simp, rfl⟩

theorem Returns.ret {frame : Frame} {t : App} (env : Environment)
    (h : Returns e (enter (s.resume env e frame) stack) t stack) :
    Returns e (enter (s, some frame) stack) t stack := by
  obtain ⟨inputs, hret, hrun⟩ := h
  refine ⟨(env, .ret) :: inputs, ?_, hrun⟩
  intro input hinput
  rcases List.mem_cons.1 hinput with rfl | hinput
  · rfl
  · exact hret input hinput

theorem returns_retryOn (env : Environment) (e : EndpointPtr)
    (target : Option (HandlePtr × ConnectorPtr)) (tickTime : Int) (msgs : List PendingMessage)
    (s : App) (maxCount : Int) (k : Nat) (stack : List Frame)
    (hqueue : (s.endpoint e).pendingMessage = msgs) :
    Returns e (enter (retryOn env e target tickTime s msgs maxCount k) stack)
      ((retryLoop env e target tickTime s msgs maxCount k).1.settlePending e) stack := by
  induction msgs generalizing s maxCount k with
  | nil => exact returns_done e _ stack
  | cons msg msgs ih =>
    -- the callback returns, and the loop goes on with the next message
    have hresume : ∀ (t : App) (maxCount : Int) (j : Nat),
        (t.endpoint e).pendingMessage = msg :: msgs →
        Returns e (enter (t, some (.retry msg target tickTime maxCount)) stack)
          ((retryLoop env e target tickTime (t.popPending e msg) msgs maxCount j).1.settlePending e)
          stack := by
      intro t maxCount j ht
      have hrest : ((t.popPending e msg).endpoint e).pendingMessage = msgs := by
        rw [pendingMessage_popPending, ht, List.tail_cons]
      refine Returns.ret (afterSends env j) ?_
      unfold resume
      dsimp only
      rw [hrest, retryOn_afterSends]
      exact ih _ _ _ hrest
    cases target with
    | none =>
      unfold retryOn retryLoop
      dsimp only
      split
      · exact returns_done e _ stack
      · exact hresume _ _ _ hqueue
    | some target =>
      by_cases hcount : 0 < maxCount
      · have hsend := sameQueue_onSendForwardRequest env s e target.1 msg.serial k
        have hqueue' := hsend.pending.trans hqueue
        simp only [retryOn, retryLoop, gt_iff_lt, decide_eq_true hcount]
        split
        · refine ih _ _ _ ?_
          rw [pendingMessage_popPending, hqueue', List.tail_cons]
        · exact hresume _ _ _ hqueue'
      · have hstop : msg.expiredTimepoint > tickTime ∨ maxCount ≤ 0 := Or.inr (by omega)
        simp only [retryOn, retryLoop, gt_iff_lt, decide_eq_false hcount, if_pos hstop]
        exact returns_done e _ stack

/-- **A retry** whose callbacks do nothing does what the function of the model does. -/
theorem returns_retry (env : Environment) (s : App) (e : EndpointPtr) (tickTime maxCount : Int) :
    Returns e (start e env s (.retry tickTime maxCount))
      (s.retryPendingMessages env e tickTime maxCount).1 [] := by
  unfold start callRetry retryPendingMessages
  dsimp only
  rw [show (if (s.endpoint e).nearestWaker ≤ tickTime then
      s.modifyEndpoint e fun ep => { ep with nearestWaker := 0 } else s) = s.spendWaker e tickTime
    from rfl]
  split
  · exact returns_done e _ []
  · exact returns_retryOn env e _ tickTime _ _ _ 0 [] rfl

theorem returns_cancelOn (env : Environment) (e : EndpointPtr) (c : ConnectorPtr)
    (msgs : List PendingMessage) (s : App) (stack : List Frame)
    (hqueue : (s.endpoint e).pendingMessage = msgs) :
    Returns e (enter (s.cancelOn env e c) stack)
      (((cancelLoop e c s msgs).modifyEndpoint e fun ep =>
        { ep with pendingMessageSize := 0 }).finishReset env e) stack := by
  induction msgs generalizing s with
  | nil =>
    unfold cancelOn
    simp only [hqueue]
    exact returns_done e _ stack
  | cons msg msgs ih =>
    unfold cancelOn
    simp only [hqueue]
    refine Returns.ret env (ih _ ?_)
    rw [pendingMessage_popPending]
    show (s.endpoint e).pendingMessage.tail = msgs
    rw [hqueue, List.tail_cons]

/-- The cancelling of a reset, with or without a ready connector. -/
theorem returns_cancel (env : Environment) (e : EndpointPtr) (t : App) :
    Returns e
      (enter (match t.readyConnector (t.getReadyConnectionHandle env e) with
        | none => (t.finishReset env e, none)
        | some c => t.cancelOn env e c) [])
      ((t.cancelPendingMessages env e).finishReset env e) [] := by
  unfold cancelPendingMessages
  cases t.readyConnector (t.getReadyConnectionHandle env e) with
  | none => exact returns_done e _ []
  | some c => exact returns_cancelOn env e c _ t [] rfl

/-- **A removal** whose callbacks do nothing does what the function of the model does. -/
theorem returns_remove (env : Environment) (s : App) (e : EndpointPtr) :
    Returns e (start e env s .remove) (s.removeEndpoint env e) [] := by
  have hreset : ∀ t : App, Returns e (enter (t.callReset env e) []) (t.resetEndpoint env e) [] := by
    intro t
    unfold callReset resetEndpoint
    split
    · exact returns_done e _ []
    · exact returns_cancel env e _
  exact hreset _

/-- What the functions of the model make of a call. -/
def Call.plain (env : Environment) (s : App) (e : EndpointPtr) : Call → App
  | .retry tickTime maxCount => (s.retryPendingMessages env e tickTime maxCount).1
  | .remove => s.removeEndpoint env e

/-- **The calls refine the functions of the model**: with callbacks that do nothing, a call returns
    with the state that its function gives. -/
theorem start_refines_plain (env : Environment) (s : App) (e : EndpointPtr) (call : Call) :
    Returns e (start e env s call) (call.plain env s e) [] := by
  cases call with
  | retry tickTime maxCount => exact returns_retry env s e tickTime maxCount
  | remove => exact returns_remove env s e

/-! ## Runs -/

/-- The messages of the queue are different objects, older than the next one, and counted. -/
structure Queued (e : EndpointPtr) (s : App) : Prop where
  nodup : (s.pendingSerials e).Nodup
  used : ∀ msg ∈ (s.endpoint e).pendingMessage, msg.serial < s.pushCount
  size : s.SizeExact e

theorem Queued.inv (h : Queued e s) : Inv e s ⟨s, []⟩ where
  held := List.nil_prefix
  single := Nat.zero_le 1
  closing := fun hany => absurd hany Bool.false_ne_true
  size := h.size
  count := fun n => Nat.add_le_add_left (List.nodup_iff_count_le_one.1 h.nodup n) _
  base := fun _ => le_refl _
  told := fun _ hmsg => absurd hmsg List.not_mem_nil
  fresh := fun _ _ => le_refl _
  used := h.used

/-- The first call. -/
theorem Queued.start (env : Environment) (h : Queued e s) (call : Call) :
    Inv e s (start e env s call) ∧
      waiting e (start e env s call) ≤ (s.endpoint e).pendingMessage.length := by
  have hwaiting : waiting e ⟨s, []⟩ = (s.endpoint e).pendingMessage.length := Nat.zero_add _
  rw [← hwaiting]
  cases call with
  | remove => exact h.inv.removeEndpoint fun hany => absurd hany Bool.false_ne_true
  | retry tickTime maxCount =>
    have hspend : SameQueue e s (s.spendWaker e tickTime) := by
      unfold spendWaker
      split
      · exact sameQueue_modifyEndpoint fun _ => ⟨rfl, rfl⟩
      · exact SameQueue.refl e s
    have hreached : Reached e s (s.callRetry env e tickTime maxCount) := by
      unfold callRetry
      dsimp only
      split
      · exact hspend.reached
      · exact Reached.of_sameQueue hspend (reached_retryOn env e _ tickTime _ _ _ 0 rfl)
    have hcancel : ∀ frame ∈ (s.callRetry env e tickTime maxCount).2, frame.isCancel = false := by
      unfold callRetry
      dsimp only
      split
      · simp
      · exact retryOn_not_isCancel env e _ tickTime _ _ _ 0
    exact inv_enter h.inv rfl hreached fun frame hframe hiscancel =>
      absurd hiscancel (by rw [hcancel frame hframe]; decide)

/-- The state after the first `n` inputs. -/
def after (e : EndpointPtr) (m : Draining) (inputs : Nat → Environment × CallbackOp) (n : Nat) :
    Draining :=
  Run.run (step e) m ((List.range n).map inputs)

theorem after_succ (e : EndpointPtr) (m : Draining) (inputs : Nat → Environment × CallbackOp)
    (n : Nat) : after e m inputs (n + 1) = step e (after e m inputs n) (inputs n) := by
  rw [after, List.range_succ, List.map_append, Run.run_append]
  rfl

/-- While a call waits, the returns are bounded by what waits at first and the pushes. -/
theorem Inv.count_ret_le (h : Inv e s₀ m) (inputs : Nat → Environment × CallbackOp)
    (hcond : ∀ n, SparesRetry e (after e m inputs n) (inputs n))
    (hstack : ∀ n, (after e m inputs n).stack ≠ []) (n : Nat) :
    Inv e s₀ (after e m inputs n) ∧
      waiting e (after e m inputs n) + Nat.count (fun k => (inputs k).2.isRet = true) n ≤
        waiting e m + Nat.count (fun k => (inputs k).2.isPush = true) n := by
  induction n with
  | zero => exact ⟨h, by rw [Nat.count_zero, Nat.count_zero]; exact le_refl _⟩
  | succ n ih =>
    obtain ⟨hinv, hle⟩ := ih
    obtain ⟨hinv', hle'⟩ := inv_step hinv (hcond n)
    have hreturns : returns (after e m inputs n) (inputs n) =
        if (inputs n).2.isRet = true then 1 else 0 := by
      simp [returns, hstack n]
    rw [after_succ, Nat.count_succ, Nat.count_succ]
    rw [hreturns, pushes] at hle'
    exact ⟨hinv', by omega⟩

/-- What happens again and again happens any number of times. -/
theorem exists_le_count {p : Nat → Prop} [DecidablePred p] (hp : ∀ n, ∃ k ≥ n, p k) (b : Nat) :
    ∃ n, b ≤ Nat.count p n := by
  induction b with
  | zero => exact ⟨0, Nat.zero_le _⟩
  | succ b ih =>
    obtain ⟨n, hn⟩ := ih
    obtain ⟨k, hk, hpk⟩ := hp n
    refine ⟨k + 1, ?_⟩
    rw [Nat.count_succ, if_pos hpk]
    exact Nat.succ_le_succ (hn.trans (Nat.count_monotone p hk))

/-- What stops happening happens boundedly often. -/
theorem count_le_of_stops {p : Nat → Prop} [DecidablePred p] {bound : Nat}
    (hp : ∀ n ≥ bound, ¬ p n) (n : Nat) : Nat.count p n ≤ bound := by
  induction n with
  | zero => exact Nat.zero_le _
  | succ n ih =>
    by_cases hn : bound ≤ n
    · rw [Nat.count_succ, if_neg (hp n hn)]
      exact ih
    · have hle : Nat.count p (n + 1) ≤ n + 1 := Nat.count_le p
      omega

/-- **Draining ends**: callbacks that return and push finitely many messages lead back to the end
    of the first call. -/
theorem Inv.exists_stack_nil (h : Inv e s₀ m) (inputs : Nat → Environment × CallbackOp)
    (hcond : ∀ n, SparesRetry e (after e m inputs n) (inputs n))
    (hret : ∀ n, ∃ k ≥ n, (inputs k).2.isRet = true)
    (hpush : ∃ bound, ∀ n ≥ bound, (inputs n).2.isPush = false) :
    ∃ n, (after e m inputs n).stack = [] := by
  by_contra hnone
  rw [not_exists] at hnone
  obtain ⟨bound, hbound⟩ := hpush
  obtain ⟨n, hn⟩ := exists_le_count hret (waiting e m + bound + 1)
  have hle := (h.count_ret_le inputs hcond hnone n).2
  have hpushes := count_le_of_stops (p := fun k => (inputs k).2.isPush = true)
    (fun n (hn : n ≥ bound) => by simp [hbound n hn]) n
  omega

/-- **Draining is re-entrant.** From every state of an endpoint, `retry_pending_messages` and
    `remove_endpoint` with callbacks that use the endpoint report every message at most once, find
    the reported message at the front of the queue and keep the byte counter exact, in every state
    of the run, if and only if no callback of a retry lets the messages be cancelled; then the call
    ends if the callbacks return and push finitely many messages. -/
theorem draining_reentrant_iff (env : Environment) {s : App} (hs : Queued e s) (call : Call) :
    (∀ inputs : List (Environment × CallbackOp),
      Run.Always (step e) (Reentrant e s) (start e env s call) inputs ↔
        Run.StepsMeet (step e) (SparesRetry e) (start e env s call) inputs) ∧
    ∀ inputs : Nat → Environment × CallbackOp,
      (∀ n, SparesRetry e (after e (start e env s call) inputs n) (inputs n)) →
      (∀ n, ∃ k ≥ n, (inputs k).2.isRet = true) →
      (∃ bound, ∀ n ≥ bound, (inputs n).2.isPush = false) →
      ∃ n, (after e (start e env s call) inputs n).stack = [] := by
  have hstart := (hs.start env call).1
  refine ⟨fun inputs => ?_, hstart.exists_stack_nil⟩
  have hside : ∀ (m : Draining) (input : Environment × CallbackOp), Inv e s m → Reentrant e s m →
      True → SparesRetry e m input → Inv e s (step e m input) :=
    fun _ _ hinv _ _ hcond => (inv_step hinv hcond).1
  have hstep : ∀ (m : Draining) (input : Environment × CallbackOp), Inv e s m → Reentrant e s m →
      True → (Reentrant e s (step e m input) ↔ SparesRetry e m input) :=
    fun _ _ hinv _ _ => hinv.reentrant_iff
  exact Run.always_iff_stepsMeet (step e) hside hstep hstart hstart.reentrant
    (Run.stepsMeet_of_forall _ (fun _ _ => trivial) _ _)

/-- A message waits for a handle, which has just become ready. -/
def waitingApp : App :=
  Run.run App.step (App.init {} 0) [({}, .copyFrom 0 { nodeInfo := { id := 1 } }),
    ({}, .mutableEndpoint (some 0) (some ⟨7, false⟩)), ({}, .pushForwardMessage 0 0 0 [1] none),
    ({}, .setReady 0)]

theorem queued_waitingApp : Queued 0 waitingApp where
  nodup := by decide +kernel
  used := by decide +kernel
  size := by
    show _ = _
    decide +kernel

/-- The connector refuses the message, and the callback pushes another one. -/
theorem draining_reentrant_pushingCallback :
    Run.Always (step 0) (Reentrant 0 waitingApp)
        (start 0 { send := fun _ => { code := .other 1 } } waitingApp (.retry 16000000 0))
        [({}, .pushForwardMessage 0 0 [2] none), ({}, .ret)] ∧
      ∃ n, (after 0 (start 0 { send := fun _ => { code := .other 1 } } waitingApp
        (.retry 16000000 0)) (fun _ => ({}, .ret)) n).stack = [] := by
  obtain ⟨hsafe, hends⟩ := draining_reentrant_iff { send := fun _ => { code := .other 1 } }
    queued_waitingApp (.retry 16000000 0)
  exact ⟨(hsafe _).2 ⟨trivial, trivial, trivial⟩,
    hends (fun _ => ({}, .ret)) (fun _ => trivial) (fun n => ⟨n, le_refl n, rfl⟩) ⟨0, fun _ _ => rfl⟩⟩

/-- The connector refuses the message, and the callback removes the endpoint: the message is reported
    again and freed, and the retry goes on with it. -/
theorem not_always_reentrant_removingCallback :
    let first := start 0 { send := fun _ => { code := .other 1 } } waitingApp (.retry 16000000 0)
    let last := Run.run (step 0) first [({}, .removeEndpoint), ({}, .ret)]
    last.app.answered 0 0 = 2 ∧ last.held.map PendingMessage.serial = [0] ∧
      (last.app.endpoint 0).pendingMessage = [] ∧
      ¬ Run.Always (step 0) (Reentrant 0 waitingApp) first [({}, .removeEndpoint), ({}, .ret)] := by
  refine ⟨by decide +kernel, by decide +kernel, by decide +kernel, fun halways => ?_⟩
  have honce := (halways.last (step 0)).once 0
  exact absurd honce (by decide +kernel)

end LibAtapp.Connectors.Draining
