import LibAtapp.App.Lifecycle

set_option autoImplicit false

/-! # What modules get

A module that was initialised gets `stop()` until it returns no positive number, or one
`timeout()`, and `cleanup()` after that. A stopping app keeps every module in a standing on the way
there, as long as it does not call a module again that was stopped; and it leaves out no module that
is due as long as it finds that one enabled. Both can go wrong only where a module has changed its
flag itself. -/

namespace LibAtapp.Lifecycle

/-! ## Sequences of callbacks -/

/-- The callbacks of a module being stopped: `stop` until it returns no positive number, or one
    `expired` instead. -/
inductive StopSequence (stop : Int → Callback) (expired : Callback) : List Callback → Prop
  | stopped (result : Int) (h : result ≤ 0) : StopSequence stop expired [stop result]
  | timedOut : StopSequence stop expired [expired]
  | again (result : Int) (h : 0 < result) (rest : List Callback)
      (hrest : StopSequence stop expired rest) : StopSequence stop expired (stop result :: rest)

/-- So far `stop` has only asked for more time. -/
def Waiting (stop : Int → Callback) (calls : List Callback) : Prop :=
  ∀ c ∈ calls, ∃ result, 0 < result ∧ c = stop result

section Sequences

variable {stop : Int → Callback} {expired : Callback} {calls : List Callback}

theorem waiting_nil : Waiting stop [] := fun _ h => absurd h List.not_mem_nil

theorem Waiting.again (h : Waiting stop calls) {result : Int} (hresult : 0 < result) :
    Waiting stop (calls ++ [stop result]) := by
  intro c hc
  obtain hold | hnew := List.mem_append.1 hc
  · exact h c hold
  · exact ⟨result, hresult, List.mem_singleton.1 hnew⟩

/-- A finished sequence may wait first. -/
theorem Waiting.append (h : Waiting stop calls) {rest : List Callback}
    (hrest : StopSequence stop expired rest) : StopSequence stop expired (calls ++ rest) := by
  induction calls with
  | nil => exact hrest
  | cons c calls ih =>
      obtain ⟨result, hresult, rfl⟩ := h c List.mem_cons_self
      exact .again result hresult _ (ih fun c' hc' => h c' (List.mem_cons_of_mem _ hc'))

end Sequences

/-- What the app asks a module to end with. -/
def IsStop (c : Callback) : Prop := c = .timeout ∨ ∃ result, c = .stop result

/-- A list of calls that ends a module, or that has only asked it so far. -/
def Stopping (seq : List Callback) : Prop := Waiting .stop seq ∨ StopSequence .stop .timeout seq

theorem StopSequence.not_waiting {seq : List Callback} (h : StopSequence .stop .timeout seq) :
    ¬ Waiting .stop seq := by
  intro hwaiting
  induction h with
  | stopped result hresult =>
      obtain ⟨more, hmore, heq⟩ := hwaiting _ List.mem_cons_self
      cases heq
      omega
  | timedOut =>
      obtain ⟨_, -, heq⟩ := hwaiting _ List.mem_cons_self
      cases heq
  | again _ _ rest _ ih => exact ih fun c hc => hwaiting c (List.mem_cons_of_mem _ hc)

/-- Such a list begins with one of its calls. -/
theorem Stopping.isStop_head {c : Callback} {seq : List Callback} (h : Stopping (c :: seq)) :
    IsStop c := by
  obtain hwaiting | hfinished := h
  · obtain ⟨result, -, rfl⟩ := hwaiting c List.mem_cons_self
    exact .inr ⟨result, rfl⟩
  · cases hfinished with
    | stopped result => exact .inr ⟨result, rfl⟩
    | timedOut => exact .inl rfl
    | again result => exact .inr ⟨result, rfl⟩

/-- What follows a call that asked for more time is such a list again. -/
theorem Stopping.tail {result : Int} {seq : List Callback} (h : Stopping (.stop result :: seq))
    (hresult : 0 < result) : Stopping seq := by
  obtain hwaiting | hfinished := h
  · exact .inl fun c hc => hwaiting c (List.mem_cons_of_mem _ hc)
  · cases hfinished with
    | stopped _ hdone => omega
    | again _ _ _ hrest => exact .inr hrest

/-- After a call that ends the module there are no more. -/
theorem Stopping.eq_nil {c : Callback} {seq : List Callback} (h : Stopping (c :: seq))
    (hend : c = .timeout ∨ ∃ result, result ≤ 0 ∧ c = .stop result) : seq = [] := by
  obtain hwaiting | hfinished := h
  · obtain ⟨more, hmore, heq⟩ := hwaiting c List.mem_cons_self
    obtain rfl | ⟨result, hresult, rfl⟩ := hend
    · cases heq
    · cases heq
      omega
  · cases hfinished with
    | stopped => rfl
    | timedOut => rfl
    | again more hmore =>
        obtain heq | ⟨result, hresult, heq⟩ := hend
        · cases heq
        · cases heq
          omega

/-- A finished sequence is not followed by another call where only a cleanup may come. -/
theorem StopSequence.next_cleanup {ended : List Callback}
    (h : StopSequence .stop .timeout ended) {seq : List Callback} (hseq : Stopping seq)
    {last c : Callback} {rest : List Callback} (hlast : ¬ IsStop last)
    (heq : seq ++ [last] = ended ++ c :: rest) : c = last := by
  induction h generalizing seq with
  | stopped result hresult =>
      cases seq with
      | nil =>
          cases heq
      | cons d seq =>
          obtain ⟨rfl, htail⟩ := List.cons.inj heq
          rw [hseq.eq_nil (.inr ⟨result, hresult, rfl⟩)] at htail
          exact (List.cons.inj htail).1.symm
  | timedOut =>
      cases seq with
      | nil => cases heq
      | cons d seq =>
          obtain ⟨rfl, htail⟩ := List.cons.inj heq
          rw [hseq.eq_nil (.inl rfl)] at htail
          exact (List.cons.inj htail).1.symm
  | again result hresult ended' _ ih =>
      cases seq with
      | nil =>
          obtain ⟨hhead, -⟩ := List.cons.inj heq
          exact absurd (.inr ⟨result, hhead⟩) hlast
      | cons d seq =>
          obtain ⟨rfl, htail⟩ := List.cons.inj heq
          exact ih (hseq.tail hresult) htail

/-! ## Standings -/

/-- The callbacks of a module before the app stops it: `init()`, where it was initialised. -/
def Begun (start : List Callback) : Prop :=
  start = [] ∨ ∃ result, 0 ≤ result ∧ start = [.init result]

/-- The module was not ended: the app has at most asked it to stop. -/
def Asked (calls : List Callback) : Prop :=
  ∃ start seq, Begun start ∧ calls = start ++ seq ∧ Waiting .stop seq

/-- The module was ended by `stop()` or by `timeout()`. -/
def Ended (calls : List Callback) : Prop :=
  ∃ start seq, Begun start ∧ calls = start ++ seq ∧ StopSequence .stop .timeout seq

/-- The module was initialised and was not ended yet. -/
def Due (calls : List Callback) : Prop :=
  ∃ result seq, 0 ≤ result ∧ calls = .init result :: seq ∧ Waiting .stop seq

/-- Where a module stands while the app runs or stops. -/
def Standing (calls : List Callback) : Prop := Asked calls ∨ Ended calls

/-- A module that was ended and called again. -/
def Spoiled (calls : List Callback) : Prop :=
  ∃ ended c rest, Ended ended ∧ IsStop c ∧ calls = ended ++ c :: rest

section Standings

variable {calls : List Callback} {result : Int}

theorem asked_nil : Asked [] := ⟨[], [], .inl rfl, rfl, waiting_nil⟩

theorem due_init (h : 0 ≤ result) : Due [.init result] := ⟨result, [], h, rfl, waiting_nil⟩

theorem Due.asked (h : Due calls) : Asked calls := by
  obtain ⟨result, seq, hresult, rfl, hwaiting⟩ := h
  exact ⟨[.init result], seq, .inr ⟨result, hresult, rfl⟩, rfl, hwaiting⟩

theorem Asked.again (h : Asked calls) (hresult : 0 < result) : Asked (calls ++ [.stop result]) := by
  obtain ⟨start, seq, hstart, rfl, hwaiting⟩ := h
  exact ⟨start, _, hstart, List.append_assoc .., hwaiting.again hresult⟩

theorem Asked.ends (h : Asked calls) {last : List Callback}
    (hlast : StopSequence .stop .timeout last) : Ended (calls ++ last) := by
  obtain ⟨start, seq, hstart, rfl, hwaiting⟩ := h
  exact ⟨start, _, hstart, List.append_assoc .., hwaiting.append hlast⟩

/-- `stop()` of a module that was not ended. -/
theorem Asked.stop (h : Asked calls) (result : Int) : Standing (calls ++ [.stop result]) := by
  by_cases hresult : 0 < result
  · exact .inl (h.again hresult)
  · exact .inr (h.ends (.stopped result (Int.not_lt.1 hresult)))

theorem Ended.spoiled (h : Ended calls) {c : Callback} (hc : IsStop c) : Spoiled (calls ++ [c]) :=
  ⟨calls, c, [], h, hc, rfl⟩

theorem Spoiled.append (h : Spoiled calls) (more : List Callback) : Spoiled (calls ++ more) := by
  obtain ⟨ended, c, rest, hended, hc, rfl⟩ := h
  exact ⟨ended, c, rest ++ more, hended, hc, by rw [List.append_assoc, List.cons_append]⟩

/-- A module that was ended is not due. -/
theorem Ended.not_due (h : Ended calls) : ¬ Due calls := by
  obtain ⟨start, seq, hstart, rfl, hfinished⟩ := h
  rintro ⟨result, waited, -, heq, hwaiting⟩
  obtain rfl | ⟨result', -, rfl⟩ := hstart
  · rw [List.nil_append] at heq
    rw [heq] at hfinished
    obtain hhead | ⟨_, hhead⟩ := Stopping.isStop_head (.inr hfinished)
    · cases hhead
    · cases hhead
  · obtain ⟨-, rfl⟩ := List.cons.inj heq
    exact hfinished.not_waiting hwaiting

end Standings

/-- What every module has got when the app is closed. A module that was not initialised may have
    been asked to stop nevertheless, where it has enabled itself. -/
inductive Closed : List Callback → Prop
  | inited (result : Int) (seq : List Callback) (inited : 0 ≤ result)
      (finished : StopSequence .stop .timeout seq) : Closed (.init result :: (seq ++ [.cleanup]))
  | skipped (seq : List Callback) (stopping : Stopping seq) : Closed (seq ++ [.cleanup])

/-- What every module has got when the app gives a start up. -/
inductive RolledBack : List Callback → Prop
  | closed (calls : List Callback) (h : Closed calls) : RolledBack calls
  | failed (result : Int) (seq : List Callback) (failed : result < 0)
      (finished : StopSequence .initFailedStop .initFailedTimeout seq) :
      RolledBack (.init result :: (seq ++ [.initFailedCleanup]))
  | untouched : RolledBack []

section Fates

variable {calls : List Callback}

/-- A list of stopping calls with a cleanup does not begin with `init()`. -/
theorem Stopping.ne_init {seq rest : List Callback} {result : Int} (h : Stopping seq)
    (heq : seq ++ [.cleanup] = .init result :: rest) : False := by
  cases seq with
  | nil => cases heq
  | cons c seq =>
      obtain ⟨rfl, -⟩ := List.cons.inj heq
      obtain hhead | ⟨_, hhead⟩ := h.isStop_head
      · cases hhead
      · cases hhead

theorem not_isStop_cleanup : ¬ IsStop .cleanup := by
  rintro (heq | ⟨_, heq⟩)
  · cases heq
  · cases heq

/-- A module that is not due is closed by its cleanup, and one that is due is not. -/
theorem Standing.closed_iff (h : Standing calls) : Closed (calls ++ [.cleanup]) ↔ ¬ Due calls := by
  constructor
  · rintro hclosed ⟨result, seq, -, rfl, hwaiting⟩
    generalize heq : .init result :: seq ++ [.cleanup] = all at hclosed
    cases hclosed with
    | inited result' seq' _ hfinished =>
        obtain ⟨-, hseq⟩ := List.cons.inj heq
        obtain ⟨rfl, -⟩ := List.append_inj' hseq rfl
        exact hfinished.not_waiting hwaiting
    | skipped seq' hstopping => exact hstopping.ne_init heq.symm
  · intro hdue
    obtain ⟨start, seq, hstart, rfl, hwaiting⟩ | ⟨start, seq, hstart, rfl, hfinished⟩ := h
    · obtain rfl | ⟨result, hresult, rfl⟩ := hstart
      · exact .skipped seq (.inl hwaiting)
      · exact absurd ⟨result, seq, hresult, rfl, hwaiting⟩ hdue
    · obtain rfl | ⟨result, hresult, rfl⟩ := hstart
      · exact .skipped seq (.inr hfinished)
      · exact .inited result seq hresult hfinished

/-- A module that was called again gets what it is due no more. -/
theorem Spoiled.not_rolledBack (h : Spoiled calls) : ¬ RolledBack calls := by
  obtain ⟨ended, c, rest, ⟨start, seq, hstart, rfl, hfinished⟩, hc, heq⟩ := h
  have hinit : ∀ result rest', seq ++ c :: rest ≠ .init result :: rest' := by
    intro result rest' hcons
    cases seq with
    | nil => cases hfinished
    | cons d seq =>
        obtain ⟨rfl, -⟩ := List.cons.inj hcons
        obtain hhead | ⟨_, hhead⟩ := Stopping.isStop_head (.inr hfinished)
        · cases hhead
        · cases hhead
  rw [List.append_assoc] at heq
  intro hrolled
  cases hrolled with
  | closed _ hclosed =>
      cases hclosed with
      | inited result seq' _ hfinished' =>
          obtain rfl | ⟨result', -, rfl⟩ := hstart
          · exact hinit _ _ heq.symm
          · obtain ⟨-, htail⟩ := List.cons.inj heq
            have hlast := hfinished.next_cleanup (.inr hfinished') not_isStop_cleanup htail
            rw [hlast] at hc
            exact not_isStop_cleanup hc
      | skipped seq' hstopping =>
          obtain rfl | ⟨result', -, rfl⟩ := hstart
          · have hlast := hfinished.next_cleanup hstopping not_isStop_cleanup heq
            rw [hlast] at hc
            exact not_isStop_cleanup hc
          · exact hstopping.ne_init heq
  | failed result seq' hresult =>
      obtain rfl | ⟨result', hresult', rfl⟩ := hstart
      · exact hinit _ _ heq.symm
      · obtain ⟨hhead, -⟩ := List.cons.inj heq
        cases hhead
        omega
  | untouched =>
      obtain rfl | ⟨_, -, rfl⟩ := hstart
      · cases seq <;> cases heq
      · cases heq

theorem Spoiled.not_closed (h : Spoiled calls) : ¬ Closed calls := fun hclosed =>
  h.not_rolledBack (.closed calls hclosed)

theorem Spoiled.not_standing (h : Spoiled calls) : ¬ Standing calls := by
  intro hstanding
  by_cases hdue : Due calls
  · -- one that is due is closed by `stop()` and its cleanup
    have hended := hdue.asked.ends (.stopped 0 (Int.le_refl 0))
    have hclosed := (Standing.closed_iff (.inr hended)).2 hended.not_due
    exact ((h.append _).append _).not_closed hclosed
  · exact (h.append _).not_closed (hstanding.closed_iff.2 hdue)

/-- Calling a module in a standing keeps it in one exactly if it was not ended. -/
theorem Standing.stop_iff (h : Standing calls) (result : Int) :
    Standing (calls ++ [.stop result]) ↔ ¬ Ended calls := by
  constructor
  · exact fun hstanding hended => (hended.spoiled (.inr ⟨result, rfl⟩)).not_standing hstanding
  · intro hended
    obtain hasked | hended' := h
    · exact hasked.stop result
    · exact absurd hended' hended

/-- A call that ends the module gives it what it is due before the cleanup, exactly if it was not
    ended. -/
theorem Standing.closed_append_iff (h : Standing calls) {c : Callback} (hc : IsStop c)
    (hlast : StopSequence .stop .timeout [c]) :
    Closed (calls ++ [c] ++ [.cleanup]) ↔ ¬ Ended calls := by
  constructor
  · exact fun hclosed hended => ((hended.spoiled hc).append _).not_closed hclosed
  · intro hended
    obtain hasked | hended' := h
    · have hends := hasked.ends hlast
      exact (Standing.closed_iff (.inr hends)).2 hends.not_due
    · exact absurd hended' hended

/-- A start that is given up owes the same to a module in a standing as an app that is closed. -/
theorem rolledBack_append_iff : RolledBack (calls ++ [.cleanup]) ↔ Closed (calls ++ [.cleanup]) := by
  refine ⟨fun h => ?_, .closed _⟩
  generalize heq : calls ++ [.cleanup] = all at h
  cases h with
  | closed _ hclosed => exact hclosed
  | failed result seq =>
      rw [← List.cons_append] at heq
      obtain ⟨-, hlast⟩ := List.append_inj' heq rfl
      cases hlast
  | untouched => cases calls <;> cases heq

end Fates

/-! ## Visits -/

/-- The calls of a module after a visit. -/
def Module.callsAfter (m : Module) (v : Visit) (timeout : Bool) : List Callback :=
  if m.stopsAt v timeout then m.calls ++ [.stop v.result] else m.calls

/-- The flag of a module fits where the timeout ends it: it is cleared once the module was stopped,
    and set as long as the module is due. -/
def FitsTimeout (m : Module) (own : Option Bool) : Prop :=
  (Ended m.calls → (m.own own).enabled = false) ∧ (Due m.calls → (m.own own).enabled = true)

section Visits

variable {m : Module} {v : Visit} {timeout : Bool}

/-- A visit keeps a module in a standing exactly if it does not stop it again. -/
theorem standing_callsAfter_iff (h : Standing m.calls) :
    Standing (m.callsAfter v timeout) ↔ (Ended m.calls → m.stopsAt v timeout = false) := by
  unfold Module.callsAfter
  cases m.stopsAt v timeout with
  | false => exact ⟨fun _ _ => rfl, fun _ => h⟩
  | true =>
      rw [if_pos rfl, h.stop_iff]
      exact ⟨fun hended hended' => absurd hended' hended, fun himp hended => nomatch himp hended⟩

/-- A visit after which the app does not wait closes the module exactly if the flag fits. -/
theorem closed_callsAfter_iff (h : Standing m.calls) (hwaits : m.waitsAt v timeout = false) :
    Closed (m.callsAfter v timeout ++ [.cleanup]) ↔
      (Ended m.calls → m.stopsAt v timeout = false) ∧ (Due m.calls → m.enabledAt v = true) := by
  unfold Module.waitsAt at hwaits
  unfold Module.callsAfter Module.stopsAt
  cases henabled : m.enabledAt v with
  | false =>
      rw [Bool.false_and, if_neg Bool.false_ne_true, h.closed_iff]
      exact ⟨fun hdue => ⟨fun _ => rfl, fun hdue' => absurd hdue' hdue⟩,
        fun hfits hdue => nomatch hfits.2 hdue⟩
  | true =>
      rw [henabled, Bool.true_and, Bool.or_eq_false_iff, decide_eq_false_iff_not] at hwaits
      obtain ⟨hsuspends, hresult⟩ := hwaits
      rw [hsuspends, Bool.not_false, Bool.and_true, if_pos rfl]
      rw [h.closed_append_iff (.inr ⟨_, rfl⟩) (.stopped _ (Int.not_lt.1 hresult))]
      exact ⟨fun hended => ⟨fun hended' => absurd hended' hended, fun _ => rfl⟩,
        fun hfits hended => nomatch hfits.1 hended⟩

/-- The timeout closes a module in a standing exactly if its flag fits. -/
theorem closed_expired_iff (h : Standing m.calls) (own : Option Bool) :
    Closed ((m.own own).expired.calls ++ [.cleanup]) ↔ FitsTimeout m own := by
  unfold Module.expired FitsTimeout
  cases henabled : (m.own own).enabled with
  | false =>
      rw [if_neg Bool.false_ne_true, Module.own_calls, h.closed_iff]
      exact ⟨fun hdue => ⟨fun _ => rfl, fun hdue' => absurd hdue' hdue⟩,
        fun hfits hdue => nomatch hfits.2 hdue⟩
  | true =>
      rw [if_pos rfl, Module.disable_calls, Module.call_calls, Module.own_calls,
        h.closed_append_iff (.inl rfl) .timedOut]
      exact ⟨fun hended => ⟨fun hended' => absurd hended' hended, fun _ => rfl⟩,
        fun hfits hended => nomatch hfits.1 hended⟩

end Visits

/-! ## Cleaning up -/

namespace App

/-- The modules before `count` are cleaned up, except the failed one; the others are left. -/
theorem getElem?_cleanupModules (failed : Option Nat) (count : Nat) (app : App) (j : Nat) :
    (cleanupModules failed count app).modules[j]?
      = app.modules[j]?.map fun m =>
          if j < count ∧ failed ≠ some j then m.call .cleanup else m := by
  induction count generalizing app with
  | zero => simp [cleanupModules]
  | succ count ih =>
      simp only [cleanupModules]
      rw [ih]
      by_cases hfailed : failed = some count
      · rw [if_pos hfailed]
        congr 1
        funext m
        by_cases hj : j = count
        · subst hj
          rw [if_neg (by omega), if_neg (by rintro ⟨-, hne⟩; exact hne hfailed)]
        · have hlt : j < count + 1 ↔ j < count := by omega
          simp only [hlt]
      · rw [if_neg hfailed]
        simp only [cleanupModule, List.getElem?_modify]
        by_cases hj : count = j
        · subst hj
          cases app.modules[count]? <;> simp [hfailed]
        · have hlt : j < count + 1 ↔ j < count := by omega
          cases app.modules[j]? <;> simp [hj, hlt]

theorem length_cleanupModules (failed : Option Nat) (count : Nat) (app : App) :
    (cleanupModules failed count app).modules.length = app.modules.length := by
  induction count generalizing app with
  | zero => rfl
  | succ count ih =>
      simp only [cleanupModules]
      rw [ih]
      split_ifs
      · rfl
      · exact List.length_modify ..

theorem stopped_cleanupModules (failed : Option Nat) (count : Nat) (app : App) :
    (cleanupModules failed count app).stopped = app.stopped := by
  induction count generalizing app with
  | zero => rfl
  | succ count ih =>
      simp only [cleanupModules]
      rw [ih]
      split_ifs <;> rfl

theorem cleaned_cleanupModules (failed : Option Nat) (count : Nat) (app : App) :
    (cleanupModules failed count app).cleaned
      = app.cleaned ++ (List.range count).reverse.filter fun i => failed ≠ some i := by
  induction count generalizing app with
  | zero => simp [cleanupModules]
  | succ count ih =>
      simp only [cleanupModules]
      rw [ih, List.range_succ, List.reverse_append, List.filter_append]
      by_cases hfailed : failed = some count
      · simp [hfailed]
      · simp [hfailed, cleanupModule]

end App

end LibAtapp.Lifecycle
