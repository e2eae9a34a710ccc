import LibAtapp.Etcdcli.SessionRecovery

set_option autoImplicit false

/-! # When a session is ready

`resolve_ready` turns the flag on, at the end of a `tick` and of a check. Nothing turns it off. -/

namespace LibAtapp

/-- The keepalives that a step lets pass: the checker says so, or there is none. -/
def SessionStep.passed : SessionStep → List Nat
  | .tick outside | .members _ outside | .authorization _ outside | .lease _ outside
  | .addKeepalive _ _ outside => outside.unchecked
  | .activated keepalive | .checked keepalive true => [keepalive]
  | _ => []

namespace EtcdSession

/-- The cluster runs, and all its keepalives have run and passed their check. -/
def AllPassed (s : EtcdSession) : Prop :=
  s.cluster.running = true ∧ s.cluster.keepaliveActors.all s.checked = true

/-- A keepalive has passed only if it had before or is one of `passed`. -/
def Adds (passed : List Nat) (s s' : EtcdSession) : Prop :=
  ∀ k, s'.checked k = true → s.checked k = true ∨ k ∈ passed

/-- The flag stays as it is, and no other keepalives pass. -/
structure Kept (passed : List Nat) (s s' : EtcdSession) : Prop where
  ready : s'.ready = s.ready
  adds : Adds passed s s'

/-- The flag stays as it is, or is turned on because it may, and no other keepalives pass. -/
structure Readied (passed : List Nat) (s s' : EtcdSession) : Prop where
  ready : s'.ready = s.ready ∨ s.ready = false ∧ s'.ready = true ∧ s'.AllPassed
  adds : Adds passed s s'

section

variable {s mid s' : EtcdSession} {outside : SessionOutside} {passed : List Nat}

theorem Kept.of_same (hready : s'.ready = s.ready) (hchecked : s'.checked = s.checked) :
    Kept passed s s' :=
  ⟨hready, fun _ hk => Or.inl (hchecked ▸ hk)⟩

theorem Adds.trans (h : Adds passed s mid) (h' : Adds passed mid s') : Adds passed s s' := by
  intro k hk
  rcases h' k hk with hmid | hmem
  · exact h k hmid
  · exact Or.inr hmem

theorem Kept.trans (h : Kept passed s mid) (h' : Kept passed mid s') : Kept passed s s' :=
  ⟨h'.ready.trans h.ready, h.adds.trans h'.adds⟩

theorem Kept.readied (h : Kept passed s s') : Readied passed s s' :=
  ⟨Or.inl h.ready, h.adds⟩

theorem Kept.trans_readied (h : Kept passed s mid) (h' : Readied passed mid s') :
    Readied passed s s' := by
  refine ⟨?_, h.adds.trans h'.adds⟩
  rw [← h.ready]
  exact h'.ready

theorem Readied.of_same (h : some mid = some s') (hready : mid.ready = s.ready)
    (hchecked : mid.checked = s.checked) : Readied passed s s' := by
  obtain rfl := Option.some.inj h
  exact (Kept.of_same hready hchecked).readied

theorem resolveReady_readied (s : EtcdSession) : Readied passed s s.resolveReady := by
  unfold resolveReady
  split
  · exact (Kept.of_same rfl rfl).readied
  next hneeded =>
  split
  · next hall =>
    rw [not_or] at hneeded
    exact ⟨Or.inr ⟨by simpa using hneeded.1, rfl, by simpa using hneeded.2, hall⟩,
      fun _ => Or.inl⟩
  · exact (Kept.of_same rfl rfl).readied

/-! ## What leaves the flag alone -/

/-- Activated without a checker, a keepalive has passed. -/
theorem activate_kept (s : EtcdSession) (unchecked : List Nat) :
    Kept unchecked s (s.activate unchecked) := by
  refine ⟨rfl, fun k hk => ?_⟩
  simpa [activate] using hk

/-- What only takes a new cluster leaves the flag alone. -/
theorem Kept.of_bind {α : Type} {o : Option α} {f : α → EtcdSession}
    (h : (o.bind fun a => some (f a)) = some s') (hf : ∀ a, Kept passed s (f a)) :
    Kept passed s s' := by
  obtain ⟨a, -, h⟩ := Option.bind_eq_some_iff.1 h
  rw [← Option.some.inj h]
  exact hf a

theorem retryPendingActions_kept (h : s.retryPendingActions outside = some s') :
    Kept outside.unchecked s s' :=
  .of_bind h fun cluster => ⟨rfl, (activate_kept { s with cluster } outside.unchecked).adds⟩

theorem setLease_kept {v : Int} {force : Bool} (h : s.setLease v force outside = some s') :
    Kept outside.unchecked s s' :=
  .of_bind h fun cluster => ⟨rfl, (activate_kept { s with cluster } outside.unchecked).adds⟩

theorem createRequestMemberUpdate_kept (h : s.createRequestMemberUpdate outside = some s') :
    Kept passed s s' :=
  .of_bind h fun _ => .of_same rfl rfl

theorem createRequestLeaseGrant_kept (h : s.createRequestLeaseGrant outside = some s') :
    Kept passed s s' :=
  .of_bind h fun _ => .of_same rfl rfl

theorem createRequestLeaseKeepalive_kept (h : s.createRequestLeaseKeepalive outside = some s') :
    Kept passed s s' :=
  .of_bind h fun _ => .of_same rfl rfl

theorem retryAfterNetworkError_kept {answer : HttpAnswer} {url : Bytes}
    (h : s.retryAfterNetworkError answer url outside = some s') : Kept passed s s' :=
  .of_bind h fun _ => .of_same rfl rfl

theorem checkAuthorizationExpired_kept (codec : SessionCodec) (s : EtcdSession) (httpCode : Int)
    (content : Bytes) : Kept passed s (s.checkAuthorizationExpired codec httpCode content) := by
  unfold checkAuthorizationExpired
  split <;> exact .of_same rfl rfl

theorem setFlagRunning_kept (s : EtcdSession) (v : Bool) : Kept passed s (s.setFlagRunning v) := by
  rw [setFlagRunning_eq]
  exact .of_same rfl rfl

/-! ## Ticks -/

theorem tickPending_readied (h : s.tickPending outside = some s') :
    Readied outside.unchecked s s' := by
  obtain ⟨retried, hretried, h⟩ := Option.bind_eq_some_iff.1 h
  cases h
  exact (retryPendingActions_kept hretried).trans_readied (resolveReady_readied retried)

theorem tickAuthorized_readied (h : s.tickAuthorized outside = some s') :
    Readied outside.unchecked s s' := by
  unfold tickAuthorized at h
  dsimp only at h
  generalize hmid : (if s.auth.authorization ≠ [] ∧ s.rpcAuthenticate.isNone = true then
    s.createRequestAuthUserGet outside.now outside.auth else s) = mid at h
  have hsame : Kept outside.unchecked s mid := by
    rw [← hmid]
    split
    · rw [createRequestAuthUserGet_eq]
      exact .of_same rfl rfl
    · exact .of_same rfl rfl
  refine hsame.trans_readied ?_
  split at h
  · split at h
    · exact (createRequestLeaseGrant_kept h).readied
    · obtain ⟨kept, hkept, h⟩ := Option.bind_eq_some_iff.1 h
      refine Kept.trans_readied ?_ (tickPending_readied h)
      unfold tickLease at hkept
      split at hkept
      · exact createRequestLeaseKeepalive_kept hkept
      · cases hkept
        exact .of_same rfl rfl
  · exact (setFlagRunning_kept mid true).trans_readied (tickPending_readied h)

theorem tickHost_readied (h : s.tickHost outside = some s') : Readied outside.unchecked s s' := by
  unfold tickHost at h
  split at h
  · exact .of_same h rfl rfl
  split at h
  · split at h
    · cases h
      rw [createRequestAuthAuthenticate_eq]
      exact .of_same rfl rfl rfl
    · exact .of_same h rfl rfl
  · exact tickAuthorized_readied h

theorem tick_readied (h : s.tick outside = some s') : Readied outside.unchecked s s' := by
  unfold tick at h
  split at h
  · exact .of_same h rfl rfl
  split at h
  · exact .of_same h rfl rfl
  · obtain ⟨mid, hmid, h⟩ := Option.bind_eq_some_iff.1 h
    refine Kept.trans_readied ?_ (tickHost_readied h)
    unfold tickMembers at hmid
    split at hmid
    · exact createRequestMemberUpdate_kept hmid
    · cases hmid
      exact .of_same rfl rfl

/-! ## Answers -/

theorem onMemberUpdate_readied {codec : SessionCodec} {answer : HttpAnswer}
    (h : s.onMemberUpdate codec answer outside = some s') :
    Readied outside.unchecked s s' := by
  unfold onMemberUpdate at h
  split at h
  · exact .of_same h rfl rfl
  next request hrequest =>
  have hasked : Kept outside.unchecked s
      { s with cluster := { s.cluster with rpcUpdateMembers := none } } := .of_same rfl rfl
  dsimp only at h
  split at h
  · exact (hasked.trans (retryAfterNetworkError_kept h)).readied
  split at h
  · exact .of_same h rfl rfl
  obtain ⟨found, -, h⟩ := Option.bind_eq_some_iff.1 h
  split at h
  · obtain ⟨cluster, -, h⟩ := Option.bind_eq_some_iff.1 h
    have htaken : Kept outside.unchecked s { s with cluster } := .of_same rfl rfl
    exact htaken.trans_readied (tick_readied h)
  · exact .of_same h rfl rfl

theorem onAuthorization_kept {codec : SessionCodec} {answer : HttpAnswer}
    (h : s.onAuthorization codec answer outside = some s') : Kept outside.unchecked s s' := by
  unfold onAuthorization at h
  split at h
  · cases h
    exact .of_same rfl rfl
  next request hrequest =>
  have hasked : Kept outside.unchecked s { s with rpcAuthenticate := none } := .of_same rfl rfl
  dsimp only at h
  split at h
  · obtain ⟨mid, hmid, h⟩ := Option.bind_eq_some_iff.1 h
    cases h
    exact (hasked.trans (retryAfterNetworkError_kept hmid)).trans
      (checkAuthorizationExpired_kept ..)
  split at h
  · cases h
    exact hasked
  refine hasked.trans ?_
  split at h
  · unfold onAuthenticated at h
    obtain ⟨found, -, h⟩ := Option.bind_eq_some_iff.1 h
    split at h
    · cases h
      exact .of_same rfl rfl
    · obtain ⟨mid, hmid, h⟩ := Option.bind_eq_some_iff.1 h
      cases h
      have hretried := retryPendingActions_kept hmid
      exact ⟨hretried.ready, hretried.adds⟩
  · unfold onUserGet at h
    obtain ⟨found, -, h⟩ := Option.bind_eq_some_iff.1 h
    split at h
    · have hretried := retryPendingActions_kept h
      exact ⟨hretried.ready, hretried.adds⟩
    · cases h
      exact .of_same rfl rfl

theorem onLeaseKeepalive_kept {codec : SessionCodec} {answer : HttpAnswer}
    (h : s.onLeaseKeepalive codec answer outside = some s') : Kept outside.unchecked s s' := by
  unfold onLeaseKeepalive at h
  split at h
  · cases h
    exact .of_same rfl rfl
  next request hrequest =>
  have hasked : Kept outside.unchecked s
      { s with cluster := { s.cluster with rpcKeepalive := none } } := .of_same rfl rfl
  dsimp only at h
  split at h
  · obtain ⟨mid, hmid, h⟩ := Option.bind_eq_some_iff.1 h
    cases h
    exact (hasked.trans (retryAfterNetworkError_kept hmid)).trans
      (checkAuthorizationExpired_kept ..)
  split at h
  · cases h
    exact hasked
  obtain ⟨found, -, h⟩ := Option.bind_eq_some_iff.1 h
  refine hasked.trans ?_
  split at h
  · cases h
    exact .of_same rfl rfl
  · cases h
    exact .of_same rfl rfl
  · obtain ⟨mid, hmid, h⟩ := Option.bind_eq_some_iff.1 h
    exact (setLease_kept hmid).trans (createRequestLeaseGrant_kept h)
  · refine Kept.trans ?_ (setLease_kept h)
    split
    · exact setFlagRunning_kept _ true
    · exact .of_same rfl rfl

theorem onDeleted_kept {codec : SessionCodec} {i : Nat} {answer : HttpAnswer}
    (h : s.onDeleted codec i answer outside = some s') : Kept passed s s' := by
  unfold onDeleted at h
  split at h
  · cases h
    exact .of_same rfl rfl
  obtain ⟨cluster, -, h⟩ := Option.bind_eq_some_iff.1 h
  split at h
  · cases h
    have htaken : Kept passed s { s with cluster } := .of_same rfl rfl
    exact htaken.trans (checkAuthorizationExpired_kept ..)
  · cases h
    exact .of_same rfl rfl

/-! ## Calls -/

theorem removeKeepalive_kept {keepalive addr : Nat} {path : Bytes} {hasData : Bool}
    (h : s.removeKeepalive keepalive path hasData addr outside = some s') : Kept passed s s' := by
  obtain ⟨made, -, h⟩ := Option.bind_eq_some_iff.1 h
  dsimp only at h
  split at h
  · cases h
    refine ⟨rfl, fun k hk => Or.inl ?_⟩
    by_cases hkeepalive : k = keepalive
    · simp [hkeepalive] at hk
    · simpa [hkeepalive] using hk
  · cases h
    exact .of_same rfl rfl

theorem close_kept (h : s.close = some s') : Kept passed s s' := by
  obtain ⟨cluster, -, h⟩ := Option.bind_eq_some_iff.1 h
  cases h
  have hstopped : Kept passed s (s.setFlagRunning false) := setFlagRunning_kept s false
  refine hstopped.trans ⟨rfl, fun k hk => Or.inl ?_⟩
  simp only [Bool.and_eq_true] at hk
  exact hk.1

/-- A keepalive passes with its check, and `resolve_ready` follows. -/
theorem onChecked_readied (s : EtcdSession) (keepalive : Nat) (result : Bool) :
    Readied (SessionStep.checked keepalive result).passed s (s.onChecked keepalive result) := by
  unfold onChecked
  cases result with
  | false =>
    refine ⟨Or.inl rfl, fun k hk => Or.inl ?_⟩
    by_cases hkeepalive : k = keepalive
    · simp [hkeepalive] at hk
    · simpa [hkeepalive] using hk
  | true =>
    have hpassed : Kept [keepalive] s
        { s with checked := Function.update s.checked keepalive true } := by
      refine ⟨rfl, fun k hk => ?_⟩
      by_cases hkeepalive : k = keepalive
      · exact Or.inr (List.mem_singleton.2 hkeepalive)
      · exact Or.inl (by simpa [hkeepalive] using hk)
    exact hpassed.trans_readied (resolveReady_readied _)

/-- **A session gets ready for a reason**: a step that turns the flag on leaves the cluster running
    with all its keepalives checked, and no step turns the flag off. A keepalive has passed only if
    it had before or the step lets it pass. -/
theorem step_readied (codec : SessionCodec) (s : EtcdSession) (i : SessionStep) :
    Readied i.passed s (step codec s i) := by
  unfold step
  cases hstep : s.stepOption codec i with
  | none => exact (Kept.of_same rfl rfl).readied
  | some s' =>
    rw [Option.getD_some]
    cases i with
    | init => exact .of_same hstep rfl rfl
    | tick outside => exact tick_readied hstep
    | members answer outside => exact onMemberUpdate_readied hstep
    | authorization answer outside => exact (onAuthorization_kept hstep).readied
    | lease answer outside => exact (onLeaseKeepalive_kept hstep).readied
    | deleted i answer outside => exact (onDeleted_kept hstep).readied
    | failed httpCode content =>
      cases hstep
      exact (checkAuthorizationExpired_kept ..).readied
    | addKeepalive keepalive path outside =>
      obtain ⟨⟨cluster, added⟩, -, hstep⟩ := Option.bind_eq_some_iff.1 hstep
      cases hstep
      have hadded : Kept outside.unchecked s (s.setCluster cluster outside.now) := .of_same rfl rfl
      exact (hadded.trans (activate_kept ..)).readied
    | addRetryKeepalive keepalive outside =>
      obtain ⟨⟨cluster, added⟩, -, hstep⟩ := Option.bind_eq_some_iff.1 hstep
      exact .of_same hstep rfl rfl
    | removeKeepalive keepalive path hasData addr outside =>
      exact (removeKeepalive_kept hstep).readied
    | activated keepalive =>
      cases hstep
      exact (activate_kept ..).readied
    | checked keepalive result =>
      cases hstep
      exact onChecked_readied s keepalive result
    | close => exact (close_kept hstep).readied

end

/-! ## Runs -/

section

variable (codec : SessionCodec)

/-- **A keepalive passed in a run**: a step let it pass, and from then on no check of it failed, and
    it was not closed. -/
def Passed (s : EtcdSession) (steps : List SessionStep) (k : Nat) : Prop :=
  ∃ front i back, steps = front ++ i :: back ∧ k ∈ i.passed ∧ .checked k false ∉ back ∧
    ∀ later, later <+: back → (Run.run (step codec) s (front ++ i :: later)).checked k = true

variable {codec}

theorem passed_of_checked {s : EtcdSession} {steps : List SessionStep} {k : Nat}
    (hs : s.checked k = false) (h : (Run.run (step codec) s steps).checked k = true) :
    Passed codec s steps k := by
  obtain ⟨front, i, back, rfl, hfront, hback⟩ := Run.exists_turn (step codec)
    (p := fun s => s.checked k = true) (by simp [hs]) h
  refine ⟨front, i, back, rfl, ?_, fun hfailed => ?_, hback⟩
  · have hi := hback [] List.nil_prefix
    rw [Run.run_append] at hi
    exact ((step_readied codec _ i).adds k hi).resolve_left hfront
  · -- right behind the failed check the keepalive has not passed
    obtain ⟨early, late, rfl⟩ := List.append_of_mem hfailed
    have hbehind := hback (early ++ [.checked k false]) (by simp)
    rw [← List.cons_append, ← List.append_assoc, Run.run_append] at hbehind
    simp [step, stepOption, onChecked] at hbehind

theorem AllPassed.of_step {s : EtcdSession} {i : SessionStep} (hoff : s.ready = false)
    (hon : (step codec s i).ready = true) : (step codec s i).AllPassed := by
  rcases (step_readied codec s i).ready with hsame | ⟨-, -, hpassed⟩
  · cases hon.symm.trans (hsame.trans hoff)
  · exact hpassed

/-- A check that passes turns the flag on where it may be on. -/
theorem AllPassed.ready_of_checked {s : EtcdSession} {k : Nat}
    (h : (step codec s (.checked k true)).AllPassed) :
    (step codec s (.checked k true)).ready = true := by
  obtain ⟨hrunning, hall⟩ := h
  have hstep : step codec s (.checked k true) =
      ({ s with checked := Function.update s.checked k true } : EtcdSession).resolveReady := rfl
  rw [hstep] at hrunning hall ⊢
  unfold resolveReady at *
  grind

/-- The flag stays on. -/
theorem ready_run {s : EtcdSession} (hon : s.ready = true) (steps : List SessionStep) :
    (Run.run (step codec) s steps).ready = true := by
  have hstep : ∀ s i, s.ready = true → (step codec s i).ready = true := by
    intro s i hon
    rcases (step_readied codec s i).ready with hsame | ⟨-, hready, -⟩
    · exact hsame.trans hon
    · exact hready
  exact Run.invariant_all _ hstep hon steps

/-- **A session that is ready got ready for a reason**: one step turned the flag on, and after that
    step the cluster ran and all keepalives that were registered had passed in the run. The flag was
    off before it, although no check that passed was missed, and stays on from then on. -/
theorem ready_since_allPassed (codec : SessionCodec) (conf : ClusterConf) (auth : AuthConf)
    (steps : List SessionStep)
    (hready : (Run.run (step codec) (initial conf auth) steps).ready = true) :
    ∃ front i back, steps = front ++ i :: back ∧
      (∀ early, early <+: front →
        (Run.run (step codec) (initial conf auth) early).ready = false) ∧
      (∀ early k, early ++ [.checked k true] <+: front →
        ¬ (Run.run (step codec) (initial conf auth) (early ++ [.checked k true])).AllPassed) ∧
      (Run.run (step codec) (initial conf auth) (front ++ [i])).cluster.running = true ∧
      (∀ k ∈ (Run.run (step codec) (initial conf auth) (front ++ [i])).cluster.keepaliveActors,
        Passed codec (initial conf auth) (front ++ [i]) k) ∧
      ∀ later, later <+: back →
        (Run.run (step codec) (initial conf auth) (front ++ i :: later)).ready = true := by
  obtain ⟨front, i, back, rfl, hfront, hback⟩ := Run.exists_turn (step codec)
    (p := fun s => s.ready = true) (show ¬ (initial conf auth).ready = true from Bool.false_ne_true) hready
  have hoff : ∀ early, early <+: front →
      (Run.run (step codec) (initial conf auth) early).ready = false := by
    rintro early ⟨rest, rfl⟩
    rw [Run.run_append] at hfront
    exact Bool.eq_false_iff.2 fun hon => hfront (ready_run hon rest)
  have hpassed : (Run.run (step codec) (initial conf auth) (front ++ [i])).AllPassed := by
    have hon := hback [] List.nil_prefix
    rw [Run.run_append] at hon ⊢
    exact AllPassed.of_step (hoff front List.prefix_rfl) hon
  refine ⟨front, i, back, rfl, hoff, fun early k hearly hall => ?_, hpassed.1, fun k hk => ?_,
    hback⟩
  · have hoff' := hoff _ hearly
    rw [Run.run_append, Run.run_cons, Run.run_nil] at hall hoff'
    cases hoff'.symm.trans hall.ready_of_checked
  · exact passed_of_checked rfl (List.all_eq_true.1 hpassed.2 k hk)

/-- Of two keepalives one passes its check and one is removed for it, and a `tick` follows. -/
def sampleChecks : List SessionStep :=
  sampleStart ++ [.addKeepalive 2 (ascii "/l") { now := 2 }] ++ sampleRound ++
    [.checked 2 false, .checked 1 true, .removeKeepalive 2 (ascii "/l") false 2 {},
      .tick { now := 30 }, .addKeepalive 3 (ascii "/m") {}]

theorem ready_since_allPassed_sample :
    (Run.run (step sampleCodec) (initial sampleConf {}) sampleChecks).ready = true ∧
      ∃ front i back, sampleChecks = front ++ i :: back ∧
        (∀ early, early <+: front →
          (Run.run (step sampleCodec) (initial sampleConf {}) early).ready = false) ∧
        (∀ early k, early ++ [.checked k true] <+: front →
          ¬ (Run.run (step sampleCodec) (initial sampleConf {})
            (early ++ [.checked k true])).AllPassed) ∧
        (Run.run (step sampleCodec) (initial sampleConf {}) (front ++ [i])).cluster.running = true ∧
        (∀ k ∈ (Run.run (step sampleCodec) (initial sampleConf {})
            (front ++ [i])).cluster.keepaliveActors,
          Passed sampleCodec (initial sampleConf {}) (front ++ [i]) k) ∧
        ∀ later, later <+: back →
          (Run.run (step sampleCodec) (initial sampleConf {}) (front ++ i :: later)).ready = true := by
  have hready : (Run.run (step sampleCodec) (initial sampleConf {}) sampleChecks).ready = true := by
    decide +kernel
  exact ⟨hready, ready_since_allPassed sampleCodec sampleConf {} _ hready⟩

end

end EtcdSession

end LibAtapp
