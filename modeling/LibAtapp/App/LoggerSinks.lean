import LibAtapp.Protocol

set_option autoImplicit false

/-! # The sinks of a logger

`setup_logger` is called again on every reload. It gives the sinks that a logger has already the
levels of the configured sinks, by position and without looking at their types, makes new sinks
for the configured ones beyond them, if their type is registered, and removes the sinks that are
left over. -/

namespace LibAtapp.LoggerSinks

/-- `atapp_log_sink`, as far as `setup_logger` reads it -/
structure AtappLogSink where
  type : Bytes
  levelMin : Bytes
  levelMax : Bytes

/-- `atapp_log_category`, as far as `setup_logger` reads it -/
structure AtappLogCategory where
  prefixFormat : Bytes
  stacktraceMin : Bytes
  stacktraceMax : Bytes
  sink : List AtappLogSink

/-- A sink of a logger: its handler and the levels it takes. -/
structure Sink (Level Handler : Type) where
  handler : Handler
  levelMin : Level
  levelMax : Level

/-- `log_wrapper`: a level, the formats and a vector of sinks. -/
structure LogWrapper (Level Handler : Type) where
  level : Level
  prefixFormat : Bytes
  stacktraceMin : Level
  stacktraceMax : Level
  sinks : List (Sink Level Handler)

/-- What the app brings: the levels with their names, and `log_reg_`, which makes a handler for a
    logger, the position of a sink, its category and its configuration. -/
structure LogMakers (Level Handler : Type) where
  getLevelByName : Bytes → Level
  kFatal : Level
  kDebug : Level
  kDisabled : Level
  logReg : Bytes → Option
    (LogWrapper Level Handler → ℕ → AtappLogCategory → AtappLogSink → Handler)

variable {Level Handler : Type}

namespace LogWrapper

/-- `log_wrapper::init`, which keeps the sinks -/
def init (logger : LogWrapper Level Handler) (level : Level) : LogWrapper Level Handler :=
  { logger with level := level }

/-- `log_wrapper::add_sink` -/
def addSink (logger : LogWrapper Level Handler) (sink : Sink Level Handler) :
    LogWrapper Level Handler :=
  { logger with sinks := logger.sinks ++ [sink] }

/-- `log_wrapper::set_sink` -/
def setSink (logger : LogWrapper Level Handler) (i : ℕ) (levelMin levelMax : Level) :
    LogWrapper Level Handler :=
  { logger with
    sinks := logger.sinks.modify i fun s => { s with levelMin := levelMin, levelMax := levelMax } }

end LogWrapper

/-- The loop of `pop_sink` at the end -/
def popSinks {α : Type} (newSinkNumber : ℕ) (sinks : List α) : List α :=
  if newSinkNumber < sinks.length then popSinks newSinkNumber sinks.dropLast else sinks
termination_by sinks.length
decreasing_by
  rw [List.length_dropLast]
  omega

namespace LogMakers

variable (env : LogMakers Level Handler)

/-- `log_handle_min` and `log_handle_max` of a configured sink -/
def levels (sink : AtappLogSink) : Level × Level :=
  (if sink.levelMin = [] then env.kDebug else env.getLevelByName sink.levelMin,
    if sink.levelMax = [] then env.kFatal else env.getLevelByName sink.levelMax)

/-- The type of a configured sink has a maker. -/
def Registered (sink : AtappLogSink) : Bool := (env.logReg sink.type).isSome

/-- The first part of `setup_logger`: the level, the prefix and the levels of stack traces. -/
def setupHeader (minLevel : Bytes) (conf : AtappLogCategory) (logger : LogWrapper Level Handler) :
    LogWrapper Level Handler :=
  let logger := logger.init (env.getLevelByName minLevel)
  let logger :=
    if conf.prefixFormat = [] then logger else { logger with prefixFormat := conf.prefixFormat }
  if conf.stacktraceMin = [] ∧ conf.stacktraceMax = [] then logger
  else
    { logger with
      stacktraceMin :=
        if conf.stacktraceMin = [] then env.kDisabled else env.getLevelByName conf.stacktraceMin
      stacktraceMax :=
        if conf.stacktraceMax = [] then env.kDisabled else env.getLevelByName conf.stacktraceMax }

/-- The loop over the configured sinks, at position `j`; `newSinkNumber` counts the sinks that
    stay. -/
def registerSinks (conf : AtappLogCategory) (oldSinkNumber : ℕ) :
    List AtappLogSink → ℕ → LogWrapper Level Handler → ℕ → LogWrapper Level Handler × ℕ
  | [], _, logger, newSinkNumber => (logger, newSinkNumber)
  | sink :: rest, j, logger, newSinkNumber =>
    if oldSinkNumber ≤ newSinkNumber then
      match env.logReg sink.type with
      | some maker =>
        let handler := maker logger j conf sink
        registerSinks conf oldSinkNumber rest (j + 1)
          (logger.addSink ⟨handler, (env.levels sink).1, (env.levels sink).2⟩) (newSinkNumber + 1)
      | none => registerSinks conf oldSinkNumber rest (j + 1) logger newSinkNumber
    else
      registerSinks conf oldSinkNumber rest (j + 1)
        (logger.setSink newSinkNumber (env.levels sink).1 (env.levels sink).2) (newSinkNumber + 1)

/-- `app::setup_logger` -/
def setupLogger (minLevel : Bytes) (conf : AtappLogCategory) (logger : LogWrapper Level Handler) :
    LogWrapper Level Handler :=
  let logger := env.setupHeader minLevel conf logger
  let (logger, newSinkNumber) := env.registerSinks conf logger.sinks.length conf.sink 0 logger 0
  { logger with sinks := popSinks newSinkNumber logger.sinks }

end LogMakers

/-! ## What the loops do -/

theorem popSinks_eq_take {α : Type} (n : ℕ) (sinks : List α) : popSinks n sinks = sinks.take n := by
  fun_induction popSinks n sinks with
  | case1 sinks h ih =>
      rw [ih, List.dropLast_eq_take, List.take_take, Nat.min_eq_left (by omega)]
  | case2 sinks h => rw [List.take_of_length_le (not_lt.1 h)]

/-- The levels a sink takes -/
def Sink.levels (sink : Sink Level Handler) : Level × Level := (sink.levelMin, sink.levelMax)

namespace LogMakers

variable (env : LogMakers Level Handler)

/-- An existing sink with the levels of a configured one -/
def relevel (sink : Sink Level Handler) (conf : AtappLogSink) : Sink Level Handler :=
  { sink with levelMin := (env.levels conf).1, levelMax := (env.levels conf).2 }

theorem map_levels_zipWith (sinks : List (Sink Level Handler)) (confs : List AtappLogSink) :
    (List.zipWith env.relevel sinks confs).map Sink.levels =
      (confs.take sinks.length).map env.levels := by
  induction sinks generalizing confs with
  | nil => simp
  | cons sink sinks ih =>
      cases confs with
      | nil => simp
      | cons conf confs => simp [ih, relevel, Sink.levels]

theorem modify_append_length {α : Type} (f : α → α) (front : List α) (a : α) (back : List α) :
    (front ++ a :: back).modify front.length f = front ++ f a :: back := by
  induction front with
  | nil => rfl
  | cons b front ih => simpa using ih

/-- Sinks that have their levels already keep them. -/
theorem zipWith_relevel_of_levels {sinks : List (Sink Level Handler)} {confs : List AtappLogSink}
    (h : sinks.map Sink.levels = (confs.take sinks.length).map env.levels) :
    List.zipWith env.relevel sinks confs = sinks := by
  induction sinks generalizing confs with
  | nil => simp
  | cons sink sinks ih =>
      cases confs with
      | nil => simp at h
      | cons conf confs =>
          simp only [List.length_cons, List.take_succ_cons, List.map_cons, List.cons.injEq] at h
          obtain ⟨hlevels, hrest⟩ := h
          have hsink : env.relevel sink conf = sink := by
            simp [relevel, ← hlevels, Sink.levels]
          rw [List.zipWith_cons_cons, hsink, ih hrest]

/-- Beyond the sinks that were there, each configured sink of a registered type gets one. -/
theorem registerSinks_new (conf : AtappLogCategory) {old : ℕ} (confs : List AtappLogSink) (j : ℕ)
    (logger : LogWrapper Level Handler) {new : ℕ} (h : old ≤ new) :
    ∃ added, env.registerSinks conf old confs j logger new =
        ({ logger with sinks := logger.sinks ++ added }, new + added.length) ∧
      added.map Sink.levels = (confs.filter env.Registered).map env.levels := by
  induction confs generalizing j logger new with
  | nil => exact ⟨[], by simp [registerSinks], rfl⟩
  | cons sink rest ih =>
      cases hreg : env.logReg sink.type with
      | none =>
          obtain ⟨added, heq, hlevels⟩ := ih (j + 1) logger h
          refine ⟨added, ?_, ?_⟩
          · simp [registerSinks, h, hreg, heq]
          · simp [Registered, hreg, hlevels]
      | some maker =>
          obtain ⟨added, heq, hlevels⟩ := ih (j + 1)
            (logger.addSink
              ⟨maker logger j conf sink, (env.levels sink).1, (env.levels sink).2⟩)
            (Nat.le_succ_of_le h)
          refine ⟨⟨maker logger j conf sink, (env.levels sink).1, (env.levels sink).2⟩ :: added,
            ?_, ?_⟩
          · simp only [registerSinks, if_pos h, hreg]
            refine heq.trans ?_
            simp only [LogWrapper.addSink, List.append_assoc, List.singleton_append,
              List.length_cons, Prod.mk.injEq, true_and]
            omega
          · simp [Registered, hreg, hlevels, Sink.levels]

/-- The whole loop: the sinks that were there take the levels of the configured sinks at their
    positions, and the rest of the configured sinks add those of registered types. -/
theorem registerSinks_eq (conf : AtappLogCategory) (confs : List AtappLogSink) (j : ℕ)
    (logger : LogWrapper Level Handler) (front back : List (Sink Level Handler))
    (hsinks : logger.sinks = front ++ back) :
    ∃ added, env.registerSinks conf logger.sinks.length confs j logger front.length =
        ({ logger with
            sinks := front ++ (List.zipWith env.relevel back confs ++ back.drop confs.length) ++
              added },
          front.length + min back.length confs.length + added.length) ∧
      added.map Sink.levels =
        ((confs.drop back.length).filter env.Registered).map env.levels := by
  induction confs generalizing j logger front back with
  | nil => exact ⟨[], by simp [registerSinks, ← hsinks], by simp⟩
  | cons sink rest ih =>
      cases back with
      | nil =>
          rw [List.append_nil] at hsinks
          obtain ⟨added, heq, hlevels⟩ := env.registerSinks_new conf (sink :: rest) j logger
            (le_of_eq (congrArg List.length hsinks))
          rw [hsinks] at heq
          exact ⟨added, by simpa [hsinks] using heq, by simpa using hlevels⟩
      | cons s back =>
          have hlt : ¬ logger.sinks.length ≤ front.length := by
            rw [hsinks, List.length_append, List.length_cons]
            omega
          have hset : (logger.setSink front.length (env.levels sink).1 (env.levels sink).2).sinks =
              (front ++ [env.relevel s sink]) ++ back := by
            simp only [LogWrapper.setSink, hsinks, modify_append_length]
            simp [relevel]
          have hlength : (logger.setSink front.length (env.levels sink).1
              (env.levels sink).2).sinks.length = logger.sinks.length := by
            simp [LogWrapper.setSink]
          obtain ⟨added, heq, hlevels⟩ := ih (j + 1) _ (front ++ [env.relevel s sink]) back hset
          refine ⟨added, ?_, by simpa using hlevels⟩
          rw [hlength, List.length_append, List.length_singleton] at heq
          rw [registerSinks, if_neg hlt, heq]
          simp [LogWrapper.setSink]
          omega

/-- What `setup_logger` leaves: the sinks that were there, as far as there are configured ones,
    with the levels of those, and new sinks for the configured ones of registered types beyond. -/
theorem setupLogger_eq (minLevel : Bytes) (conf : AtappLogCategory)
    (logger : LogWrapper Level Handler) :
    ∃ added, env.setupLogger minLevel conf logger =
        { env.setupHeader minLevel conf logger with
          sinks := List.zipWith env.relevel logger.sinks conf.sink ++ added } ∧
      added.map Sink.levels =
        ((conf.sink.drop logger.sinks.length).filter env.Registered).map env.levels := by
  have hheader : (env.setupHeader minLevel conf logger).sinks = logger.sinks := by
    simp only [setupHeader]
    split_ifs <;> rfl
  obtain ⟨added, heq, hlevels⟩ := env.registerSinks_eq conf conf.sink 0
    (env.setupHeader minLevel conf logger) [] logger.sinks (by simp [hheader])
  refine ⟨added, ?_, hlevels⟩
  rw [List.length_nil] at heq
  simp only [setupLogger, heq, popSinks_eq_take, List.nil_append, Nat.zero_add]
  congr 1
  obtain hle | hlt := le_or_gt logger.sinks.length conf.sink.length
  · -- every sink that was there is kept, so nothing is popped
    rw [List.drop_eq_nil_of_le hle, List.append_nil, Nat.min_eq_left hle]
    exact List.take_of_length_le (by simp [Nat.min_eq_left hle])
  · have hnil : added = [] := by
      rw [List.drop_eq_nil_of_le hlt.le] at hlevels
      simpa using hlevels
    subst hnil
    simp [Nat.min_eq_right hlt.le]

theorem setupHeader_idem (minLevel : Bytes) (conf : AtappLogCategory)
    (logger : LogWrapper Level Handler) (sinks : List (Sink Level Handler)) :
    env.setupHeader minLevel conf { env.setupHeader minLevel conf logger with sinks := sinks } =
      { env.setupHeader minLevel conf logger with sinks := sinks } := by
  simp only [setupHeader, LogWrapper.init]
  split_ifs <;> rfl

/-! ## Reloading -/

theorem filter_drop_countP_eq_nil {α : Type} (p : α → Bool) (l : List α) :
    (l.drop (l.countP p)).filter p = [] ↔ l.Pairwise fun a b => p b = true → p a = true := by
  induction l with
  | nil => simp
  | cons a l ih =>
      by_cases ha : p a = true
      · simp [ha, ih]
      · -- nothing after `a` may satisfy `p`, and then nothing is dropped
        have hpairwise : (a :: l).Pairwise (fun a b => p b = true → p a = true) ↔
            l.countP p = 0 := by
          rw [List.pairwise_cons, List.countP_eq_zero]
          refine ⟨fun h b hb hpb => ha (h.1 b hb hpb), fun h => ⟨fun b hb hpb => ?_, ?_⟩⟩
          · exact absurd hpb (h b hb)
          · exact List.pairwise_of_forall_mem_list fun b _ c hc hpc => absurd hpc (h c hc)
        rw [hpairwise, List.countP_cons_of_neg ha, ← List.length_eq_zero_iff,
          ← List.countP_eq_length_filter]
        cases hcount : l.countP p with
        | zero => simp [ha, hcount]
        | succ k =>
            have hsplit : (l.take k).countP p + (l.drop k).countP p = l.countP p := by
              rw [← List.countP_append, List.take_append_drop]
            have htake : (l.take k).countP p ≤ k :=
              List.countP_le_length.trans (List.length_take_le k l)
            rw [List.drop_succ_cons]
            omega

/-- The sinks take the levels of the configured sinks of registered types exactly when no sink that
    was there stands at the position of another. -/
theorem map_levels_setupLogger_iff (minLevel : Bytes) (conf : AtappLogCategory)
    (logger : LogWrapper Level Handler) :
    (env.setupLogger minLevel conf logger).sinks.map Sink.levels =
        (conf.sink.filter env.Registered).map env.levels ↔
      ∀ sink ∈ conf.sink.take logger.sinks.length, env.Registered sink = true := by
  obtain ⟨added, heq, hlevels⟩ := env.setupLogger_eq minLevel conf logger
  have hsplit : conf.sink.filter env.Registered =
      (conf.sink.take logger.sinks.length).filter env.Registered ++
        (conf.sink.drop logger.sinks.length).filter env.Registered := by
    rw [← List.filter_append, List.take_append_drop]
  rw [heq, List.map_append, map_levels_zipWith, hlevels, hsplit, List.map_append,
    List.append_cancel_right_eq, ← List.filter_eq_self]
  constructor
  · intro h
    have hlength := congrArg List.length h
    rw [List.length_map, List.length_map] at hlength
    exact List.filter_sublist.eq_of_length hlength.symm
  · intro h
    rw [h]

/-- Where the sinks follow the configured ones of registered types, a reload changes nothing
    exactly when these come before all others. -/
theorem setupLogger_again_iff (minLevel : Bytes) (conf : AtappLogCategory)
    (logger : LogWrapper Level Handler)
    (h : (env.setupLogger minLevel conf logger).sinks.map Sink.levels =
      (conf.sink.filter env.Registered).map env.levels) :
    env.setupLogger minLevel conf (env.setupLogger minLevel conf logger) =
        env.setupLogger minLevel conf logger ↔
      conf.sink.Pairwise fun a b => env.Registered b = true → env.Registered a = true := by
  obtain ⟨_, heq, -⟩ := env.setupLogger_eq minLevel conf logger
  obtain ⟨added, hagain, hlevels⟩ :=
    env.setupLogger_eq minLevel conf (env.setupLogger minLevel conf logger)
  have hheader : env.setupHeader minLevel conf (env.setupLogger minLevel conf logger) =
      env.setupLogger minLevel conf logger := by
    rw [heq, setupHeader_idem]
  have hlength : (env.setupLogger minLevel conf logger).sinks.length =
      conf.sink.countP env.Registered := by
    rw [List.countP_eq_length_filter, ← List.length_map (f := env.levels), ← h, List.length_map]
  rw [hheader] at hagain
  rw [← filter_drop_countP_eq_nil, ← hlength]
  constructor
  · intro hsame
    -- a configured sink of a registered type beyond the sinks would add another one
    have hcount := congrArg (fun l => l.sinks.length) (hagain.symm.trans hsame)
    have hle : (env.setupLogger minLevel conf logger).sinks.length ≤ conf.sink.length :=
      hlength ▸ List.countP_le_length
    simp only [List.length_append, List.length_zipWith, Nat.min_eq_left hle] at hcount
    have hnil : added = [] := List.length_eq_zero_iff.1 (by omega)
    simpa [hnil] using hlevels
  · intro hnil
    rw [hnil, List.map_nil, List.map_eq_nil_iff] at hlevels
    have htake : conf.sink.filter env.Registered =
        (conf.sink.take (env.setupLogger minLevel conf logger).sinks.length).filter
          env.Registered := by
      conv_lhs => rw [← List.take_append_drop (env.setupLogger minLevel conf logger).sinks.length
        conf.sink, List.filter_append, hnil, List.append_nil]
    have hall : (conf.sink.take (env.setupLogger minLevel conf logger).sinks.length).filter
        env.Registered = conf.sink.take (env.setupLogger minLevel conf logger).sinks.length := by
      refine List.filter_sublist.eq_of_length ?_
      rw [← htake, ← List.countP_eq_length_filter, ← hlength, List.length_take,
        Nat.min_eq_left (hlength ▸ List.countP_le_length)]
    rw [htake, hall] at h
    rw [hagain, zipWith_relevel_of_levels env h, hlevels, List.append_nil]

/-- After `setup_logger` the sinks follow the configured ones of registered types and a reload
    changes nothing, exactly when the configured sinks at the positions of the sinks that were
    there are of registered types, and none of a registered type comes after one that is not. -/
theorem setupLogger_reload_iff (minLevel : Bytes) (conf : AtappLogCategory)
    (logger : LogWrapper Level Handler) :
    ((env.setupLogger minLevel conf logger).sinks.map Sink.levels =
        (conf.sink.filter env.Registered).map env.levels ∧
      env.setupLogger minLevel conf (env.setupLogger minLevel conf logger) =
        env.setupLogger minLevel conf logger) ↔
      (∀ sink ∈ conf.sink.take logger.sinks.length, env.Registered sink = true) ∧
      conf.sink.Pairwise fun a b => env.Registered b = true → env.Registered a = true := by
  constructor
  · rintro ⟨hlevels, hsame⟩
    exact ⟨(env.map_levels_setupLogger_iff minLevel conf logger).1 hlevels,
      (env.setupLogger_again_iff minLevel conf logger hlevels).1 hsame⟩
  · rintro ⟨hregistered, hfirst⟩
    have hlevels := (env.map_levels_setupLogger_iff minLevel conf logger).2 hregistered
    exact ⟨hlevels, (env.setupLogger_again_iff minLevel conf logger hlevels).2 hfirst⟩

end LogMakers

/-- An app whose one registered type is `file`, with levels that are their own names. -/
def fileOnly : LogMakers Bytes Unit where
  getLevelByName := id
  kFatal := ascii "fatal"
  kDebug := ascii "debug"
  kDisabled := ascii "disabled"
  logReg := fun type => if type = ascii "file" then some fun _ _ _ _ => () else none

/-- A sink of a type without a maker before one of type `file`. -/
def unknownFirst : AtappLogCategory :=
  ⟨[], [], [], [⟨ascii "kafka", ascii "error", []⟩, ⟨ascii "file", ascii "info", []⟩]⟩

/-- A logger without sinks -/
def noSinks : LogWrapper Bytes Unit := ⟨[], [], [], [], []⟩

/-- The reload gives the one sink the levels of the other type and adds a second sink. -/
theorem not_reload_unknownFirst :
    ¬ ((fileOnly.setupLogger [] unknownFirst noSinks).sinks.map Sink.levels =
          (unknownFirst.sink.filter fileOnly.Registered).map fileOnly.levels ∧
        fileOnly.setupLogger [] unknownFirst (fileOnly.setupLogger [] unknownFirst noSinks) =
          fileOnly.setupLogger [] unknownFirst noSinks) := by
  rintro ⟨-, hsame⟩
  have hcount := congrArg (fun l => l.sinks.length) hsame
  simp [LogMakers.setupLogger, LogMakers.setupHeader, LogMakers.registerSinks, popSinks_eq_take,
    fileOnly, unknownFirst, noSinks, LogWrapper.init, LogWrapper.addSink, LogWrapper.setSink,
    ascii] at hcount

end LibAtapp.LoggerSinks
