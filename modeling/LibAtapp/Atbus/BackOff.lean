import LibAtapp.Atbus.Changes
import Mathlib.Algebra.Order.Ring.Int
import Mathlib.Tactic.Ring
import Mathlib.Tactic.Positivity

set_option autoImplicit false

/-! # The back-off of reconnects

The delays of `setup_reconnect_timer` over any sequence of calls for one entry, with the entry
getting ready and unready in between. The delay before the reconnect after `k` others is the start
interval doubled `k` times, up to the maximum. -/

namespace LibAtapp.Atbus

namespace Connector

/-! ## The loop -/

theorem int64_eq_self {n : Int} (hlow : -2 ^ 63 ≤ n) (hhigh : n < 2 ^ 63) : int64 n = n := by
  unfold int64
  exact Int.bmod_eq_of_le_mul_two (by omega) (by omega)

/-- The delay before the reconnect after `k` others, in microseconds. -/
def delay (conf : BusConf) (k : Nat) : Int :=
  min (conf.reconnectStartInterval * 2 ^ k) conf.reconnectMaxInterval

theorem delay_le_max (conf : BusConf) (k : Nat) : delay conf k ≤ conf.reconnectMaxInterval :=
  min_le_right _ _

theorem delay_mono {conf : BusConf} (hstart : 0 < conf.reconnectStartInterval) {j k : Nat}
    (h : j ≤ k) : delay conf j ≤ delay conf k := by
  have hpow : (2 : Int) ^ j ≤ 2 ^ k := pow_le_pow_right₀ (by omega) h
  exact min_le_min_right _ (mul_le_mul_of_nonneg_left hpow hstart.le)

/-- The loop doubles an interval that is not above the maximum, and stops there. -/
theorem backOff_eq {max : Int} (k : Nat) {interval : Int} (hpos : 0 < interval)
    (hle : interval ≤ max) (hfits : 2 * min (interval * 2 ^ k) max < 2 ^ 63) :
    backOff max k interval = min (interval * 2 ^ k) max := by
  induction k generalizing interval with
  | zero => rw [backOff, pow_zero, mul_one, min_eq_left hle]
  | succ k ih =>
      have hpow : interval * 2 ^ (k + 1) = 2 * interval * 2 ^ k := by rw [pow_succ]; ring
      have hone : (1 : Int) ≤ 2 ^ k := one_le_pow₀ (by omega)
      have hgrows : 2 * interval ≤ interval * 2 ^ (k + 1) := by
        rw [hpow]
        exact le_mul_of_one_le_right (by omega) hone
      have hdouble : int64 (2 * interval) = 2 * interval := by
        refine int64_eq_self (by omega) ?_
        rcases le_total (interval * 2 ^ (k + 1)) max with h | h
        · rw [min_eq_left h] at hfits
          omega
        · rw [min_eq_right h] at hfits
          omega
      show (if max ≤ int64 (2 * interval) then max else backOff max k (int64 (2 * interval))) = _
      rw [hdouble]
      split_ifs with hmax
      · exact (min_eq_right (hmax.trans hgrows)).symm
      · rw [hpow] at hfits ⊢
        exact ih (by omega) (by omega) hfits

/-- The clock has a time some delay after now. -/
def FitsClock (now delay : Int) : Prop :=
  -2 ^ 63 ≤ now ∧ 1000 * delay < 2 ^ 63 ∧ now + 1000 * delay < 2 ^ 63

theorem timeAfter_eq {now delay : Int} (hpos : 0 ≤ delay) (h : FitsClock now delay) :
    timeAfter now delay = now + 1000 * delay := by
  obtain ⟨hlow, hdelay, hhigh⟩ := h
  unfold timeAfter
  rw [int64_eq_self (by omega : -2 ^ 63 ≤ 1000 * delay) hdelay, int64_eq_self (by omega) hhigh]

theorem reconnectInterval_eq {conf : BusConf} {k : Nat} (hstart : 0 < conf.reconnectStartInterval)
    (hle : conf.reconnectStartInterval ≤ conf.reconnectMaxInterval)
    (hfits : 1000 * delay conf k < 2 ^ 63) : reconnectInterval conf k = delay conf k := by
  have hpos : 0 ≤ delay conf k :=
    le_min (mul_nonneg hstart.le (by positivity)) (hstart.le.trans hle)
  unfold reconnectInterval intervalOr
  rw [if_neg (by omega), if_neg (by omega)]
  exact backOff_eq k hstart hle (show 2 * delay conf k < 2 ^ 63 by omega)

/-! ## Calls for one entry -/

/-- A call of `setup_reconnect_timer` for an entry, or what happens to it in between: the time and
    all else around it but its configuration change, it gets ready or unready, its timer is gone. -/
inductive Attempt
  | surroundings (around : Surroundings)
  | setup (previousTimeout : Option Int)
  | ready
  | unready
  | timerGone

/-- The connector, and how often `setup_reconnect_timer` was called since the entry was created or
    last became ready. -/
structure Attempts where
  connector : Connector
  calls : Nat

/-- One step for the entry of an id. -/
def attempt (id : Nat) (r : Attempts) : Attempt → Attempts
  | .surroundings around =>
    { r with connector.around := { around with conf := r.connector.around.conf } }
  | .setup previousTimeout =>
    { connector := (r.connector.setupReconnectTimer r.connector.reentry id previousTimeout).1
      calls := r.calls + 1 }
  | .ready =>
    match r.connector.find id with
    | none => r
    | some o =>
      { connector := r.connector.setHandleReady o
        calls := if (r.connector.objects o).ready then r.calls else 0 }
  | .unready =>
    match r.connector.find id with
    | none => r
    | some o => { r with connector := r.connector.setHandleUnready o }
  | .timerGone =>
    match r.connector.find id with
    | none => r
    | some o => { r with connector := r.connector.removeTimer o }

/-- The next reconnect of an entry is scheduled after its delay, and its timer for the earlier of
    that and a timeout. -/
structure IsScheduled (s after : Connector) (o k : Nat) (previousTimeout : Option Int) : Prop where
  time : (after.objects o).reconnectNextTimepoint =
    s.around.sysNow + 1000 * delay s.around.conf k
  withinMax : delay s.around.conf k ≤ s.around.conf.reconnectMaxInterval
  grows : ∀ j ≤ k, delay s.around.conf j ≤ delay s.around.conf k
  timer : (after.objects o).timer =
    some (earlierTimeout (s.around.sysNow + 1000 * delay s.around.conf k) previousTimeout)

/-- What a call does to the entry: it is removed if it has made all of its reconnects, or else the
    next one is scheduled. -/
def BacksOff (id : Nat) (r : Attempts) : Attempt → Prop
  | .setup previousTimeout => ∀ o, r.connector.find id = some o →
    let limit := r.connector.around.conf.reconnectMaxTryTimes
    let after := r.connector.setupReconnectTimer r.connector.reentry id previousTimeout
    if 0 < limit ∧ r.calls = limit then after.2 = false ∧ after.1.find id = none
    else after.2 = true ∧ after.1.find id = some o ∧
      IsScheduled r.connector after.1 o r.calls previousTimeout
  | _ => True

/-- When a call that schedules a reconnect backs off: the start interval is not above the maximum,
    the counter has not overflowed, the clock has the time of the reconnect, and no earlier timer of
    the entry is live, which would stay. -/
def CanBackOff (id : Nat) (r : Attempts) : Attempt → Prop
  | .setup previousTimeout => ∀ o, r.connector.find id = some o →
    let conf := r.connector.around.conf
    let now := r.connector.around.sysNow
    ¬ (0 < conf.reconnectMaxTryTimes ∧ r.calls = conf.reconnectMaxTryTimes) →
      conf.reconnectStartInterval ≤ conf.reconnectMaxInterval ∧ r.calls < 2 ^ 32 ∧
      FitsClock now (delay conf r.calls) ∧
      ∀ pending, (r.connector.objects o).timer = some pending →
        earlierTimeout (now + 1000 * delay conf r.calls) previousTimeout ≤ pending
  | _ => True

/-! ## Every call backs off -/

/-- The entry is gone, or its counter is the number of calls so far and not above the limit. -/
def CountsCalls (id o : Nat) (conf : BusConf) (r : Attempts) : Prop :=
  r.connector.WellFormed ∧ (r.connector.find id = none ∨
    r.connector.find id = some o ∧ r.connector.around.conf = conf ∧
      (r.connector.objects o).reconnectRetryTimes = r.calls % 2 ^ 32 ∧
      (0 < conf.reconnectMaxTryTimes → r.calls ≤ conf.reconnectMaxTryTimes))

variable {s : Connector} {id o : Nat}

theorem isExceeded_iff {conf : BusConf} {k : Nat} (hconf : s.around.conf = conf)
    (hretry : (s.objects o).reconnectRetryTimes = k % 2 ^ 32)
    (hlimit : conf.reconnectMaxTryTimes < 2 ^ 32)
    (hle : 0 < conf.reconnectMaxTryTimes → k ≤ conf.reconnectMaxTryTimes) :
    s.IsExceeded o ↔ 0 < conf.reconnectMaxTryTimes ∧ k = conf.reconnectMaxTryTimes := by
  unfold IsExceeded
  rw [hconf, hretry]
  constructor
  · rintro ⟨hpos, hge⟩
    have := hle hpos
    exact ⟨hpos, by omega⟩
  · rintro ⟨hpos, rfl⟩
    exact ⟨hpos, by omega⟩

theorem setupReconnectTimer_exceeded (hs : s.WellFormed) (hfind : s.find id = some o)
    (h : s.IsExceeded o) (previousTimeout : Option Int) :
    (s.setupReconnectTimer s.reentry id previousTimeout).2 = false ∧
      (s.setupReconnectTimer s.reentry id previousTimeout).1.find id = none := by
  unfold setupReconnectTimer
  rw [hfind]
  simp only [if_pos h, true_and]
  have hs' : { s with abandoned := id :: s.abandoned }.WellFormed := hs
  exact removeConnectionHandle_find (s := { s with abandoned := id :: s.abandoned })
    (reentry_leads s) (Nat.lt_succ_self _) hs' id

/-- What keeps the map and the times of the entry keeps the count. -/
theorem CountsCalls.of_sameMap {conf : BusConf} {r : Attempts} {t : Connector} {calls : Nat}
    (h : CountsCalls id o conf r) (hwf : t.WellFormed) (hsame : SameMap r.connector t)
    (hretry : (t.objects o).reconnectRetryTimes = calls % 2 ^ 32)
    (hle : 0 < conf.reconnectMaxTryTimes → calls ≤ conf.reconnectMaxTryTimes) :
    CountsCalls id o conf ⟨t, calls⟩ := by
  refine ⟨hwf, h.2.imp (fun hnone => ?_) fun ⟨hfind, hconf, _⟩ => ?_⟩
  · rw [← hnone]
    exact hsame.find id
  · exact ⟨(hsame.find id).trans hfind, by rw [hsame.around, hconf], hretry, hle⟩

/-- A step keeps the count. -/
theorem attempt_countsCalls {conf : BusConf} (hlimit : conf.reconnectMaxTryTimes < 2 ^ 32)
    (r : Attempts) (i : Attempt) (h : CountsCalls id o conf r) :
    CountsCalls id o conf (attempt id r i) := by
  obtain ⟨hwf, hcounts⟩ := h
  cases i with
  | surroundings around => exact ⟨hwf, hcounts⟩
  | setup previousTimeout =>
    have hsetup : Leads Scope.inner r.connector (r.connector.setupReconnectTimer
        r.connector.reentry id previousTimeout).1 :=
      (setupReconnectTimer_leads (reentry_leads _) _ _ _).leads
    refine ⟨hsetup.wellFormed hwf, ?_⟩
    rcases hcounts with hnone | ⟨hfind, hconf, hretry, hle⟩
    · left
      show (r.connector.setupReconnectTimer _ id _).1.find id = none
      rw [setupReconnectTimer, hnone]
      exact hnone
    · by_cases hexceeded : r.connector.IsExceeded o
      · exact .inl (setupReconnectTimer_exceeded hwf hfind hexceeded previousTimeout).2
      · right
        have hsame := scheduleReconnect_sameMap r.connector o previousTimeout
        simp only [attempt, setupReconnectTimer_eq hfind hexceeded]
        refine ⟨by rw [hsame.find, hfind], by rw [hsame.around, hconf], ?_, fun hpos => ?_⟩
        · rw [scheduleReconnect_objects]
          show ((r.connector.objects o).reconnectRetryTimes + 1) % 2 ^ 32 = _
          rw [hretry]
          omega
        · have := hle hpos
          rw [isExceeded_iff hconf hretry hlimit hle] at hexceeded
          omega
  | ready =>
    simp only [attempt]
    rcases hcounts with hnone | ⟨hfind, hconf, hretry, hle⟩
    · rw [hnone]
      exact ⟨hwf, .inl hnone⟩
    · rw [hfind]
      refine CountsCalls.of_sameMap ⟨hwf, .inr ⟨hfind, hconf, hretry, hle⟩⟩
        ((setHandleReady_leads _ o).wellFormed hwf)
        (setHandleReady_sameMap _ o) ?_ ?_
      · split_ifs with hready
        · rw [setHandleReady, setHandleReadyIn_objects hready _ _ rfl, hretry]
        · obtain ⟨ids, timer, h, -⟩ := setHandleReady_objects (by simpa using hready)
          rw [h]
          rfl
      · intro hpos
        split_ifs
        · exact hle hpos
        · exact Nat.zero_le _
  | unready =>
    simp only [attempt]
    rcases hcounts with hnone | ⟨hfind, hconf, hretry, hle⟩
    · rw [hnone]
      exact ⟨hwf, .inl hnone⟩
    · rw [hfind]
      refine CountsCalls.of_sameMap ⟨hwf, .inr ⟨hfind, hconf, hretry, hle⟩⟩
        ((setHandleUnready_leads _ o).wellFormed hwf)
        (setHandleUnready_sameMap _ o) ?_ hle
      obtain ⟨ready, ids, h⟩ := setHandleUnready_objects (s := r.connector) (p := o) o
      rw [h]
      exact hretry
  | timerGone =>
    simp only [attempt]
    rcases hcounts with hnone | ⟨hfind, hconf, hretry, hle⟩
    · rw [hnone]
      exact ⟨hwf, .inl hnone⟩
    · rw [hfind]
      refine CountsCalls.of_sameMap ⟨hwf, .inr ⟨hfind, hconf, hretry, hle⟩⟩
        (wellFormed_modify (fun _ => rfl) hwf) (modify_sameMap _ o _) ?_ hle
      rw [removeTimer, objects_modify_self]
      exact hretry

/-- A call backs off where it can. -/
theorem backsOff_of_countsCalls {conf : BusConf} (hlimit : conf.reconnectMaxTryTimes < 2 ^ 32)
    (hstart : 0 < conf.reconnectStartInterval) {r : Attempts} {i : Attempt}
    (h : CountsCalls id o conf r) (hcan : CanBackOff id r i) : BacksOff id r i := by
  cases i with
  | surroundings around => trivial
  | ready => trivial
  | unready => trivial
  | timerGone => trivial
  | setup previousTimeout =>
    intro p hp
    obtain ⟨hwf, hnone | ⟨hfind, hconf, hretry, hle⟩⟩ := h
    · rw [hnone] at hp
      cases hp
    · obtain rfl : o = p := Option.some.inj (hfind.symm.trans hp)
      have hcan := hcan o hfind
      have hexceeded := isExceeded_iff hconf hretry hlimit hle
      dsimp only at hcan ⊢
      rw [hconf] at hcan ⊢
      split_ifs with hdone
      · exact setupReconnectTimer_exceeded hwf hfind (hexceeded.2 hdone) previousTimeout
      · obtain ⟨hconfigured, hcalls, hfits, htimer⟩ := hcan hdone
        rw [setupReconnectTimer_eq hfind (fun h => hdone (hexceeded.1 h))]
        refine ⟨rfl, by rw [(scheduleReconnect_sameMap _ o _).find, hfind], ?_⟩
        have hrun : r.connector.runTimeout o =
            r.connector.around.sysNow + 1000 * delay conf r.calls := by
          rw [Nat.mod_eq_of_lt hcalls] at hretry
          unfold runTimeout
          rw [hretry, hconf, reconnectInterval_eq hstart hconfigured hfits.2.1, timeAfter_eq ?_ hfits]
          exact le_min (mul_nonneg hstart.le (by positivity)) (hstart.le.trans hconfigured)
        constructor
        · rw [scheduleReconnect_objects, hconf]
          exact hrun
        · exact delay_le_max _ _
        · intro j hj
          rw [hconf]
          exact delay_mono hstart hj
        · rw [scheduleReconnect_objects, hconf]
          show earlierTimer _ _ = _
          rw [hrun]
          cases hlive : (r.connector.objects o).timer with
          | none => rfl
          | some pending =>
            have hle := htimer pending hlive
            unfold earlierTimer
            dsimp only
            split_ifs with h
            · rw [le_antisymm h hle]
            · rfl

/-- Every sequence of calls for an entry that is new or just got ready, at any times and with the
    entry getting ready and unready in between, backs off at every call if every call can. -/
theorem attempts_backOff (hs : s.WellFormed) (hfind : s.find id = some o)
    (hstart : 0 < s.around.conf.reconnectStartInterval)
    (hlimit : s.around.conf.reconnectMaxTryTimes < 2 ^ 32)
    (hnew : (s.objects o).reconnectRetryTimes = 0) (attempts : List Attempt)
    (hcan : Run.StepsMeet (attempt id) (CanBackOff id) ⟨s, 0⟩ attempts) :
    Run.StepsMeet (attempt id) (BacksOff id) ⟨s, 0⟩ attempts := by
  have hcounts : CountsCalls id o s.around.conf ⟨s, 0⟩ :=
    ⟨hs, .inr ⟨hfind, rfl, hnew, fun _ => Nat.zero_le _⟩⟩
  exact Run.stepsMeet_of_invariant (attempt id) (fun r i h _ => attempt_countsCalls hlimit r i h)
    (fun r i h hcan => backsOff_of_countsCalls hlimit hstart h hcan) hcounts hcan

/-- A new entry for the node 7 with a topology, at the time 0. -/
def newEntry (conf : BusConf) : Connector :=
  ({ around := { sysNow := 0, conf, nodeId := 1, upstreamEndpoint := none,
                 relation := fun _ => .sameUpstreamPeer, nextHop := fun _ => none,
                 peers := fun id => [⟨id, true⟩], discovery := fun _ => none,
                 pendingMessageCount := fun _ => none } : Connector }.mutableConnectionHandle 7 none).1

theorem newEntry_wellFormed (conf : BusConf) : (newEntry conf).WellFormed :=
  (mutableConnectionHandle_changes (.inl fun _ => trivial) : Changes Scope.any _ _).wellFormed
    (fun _ _ h => by cases h)

/-- An entry that may be tried twice: the delays are 2 and 4 s, and the third call removes it. -/
theorem attempts_backOff_newEntry :
    let conf : BusConf := { reconnectMaxTryTimes := 2, reconnectStartInterval := 2000000,
                            reconnectMaxInterval := 8000000 }
    let attempts := [Attempt.setup none, .timerGone, .setup none, .setup none]
    Run.StepsMeet (attempt 7) (CanBackOff 7) ⟨newEntry conf, 0⟩ attempts ∧
      Run.StepsMeet (attempt 7) (BacksOff 7) ⟨newEntry conf, 0⟩ attempts := by
  intro conf attempts
  have hcan : Run.StepsMeet (attempt 7) (CanBackOff 7) ⟨newEntry conf, 0⟩ attempts := by
    refine ⟨fun o ho _ => ⟨by decide, by decide, by unfold FitsClock; decide, ?_⟩, trivial,
      fun o ho _ => ⟨by decide, by decide, by unfold FitsClock; decide, ?_⟩,
      fun o ho h => absurd (by decide) h, trivial⟩
    · obtain rfl : 0 = o := Option.some.inj ho
      intro pending h
      cases h
    · obtain rfl : 0 = o := Option.some.inj ho
      intro pending h
      cases h
  exact ⟨hcan, attempts_backOff (newEntry_wellFormed conf) rfl (by decide) (by decide) rfl attempts
    hcan⟩

/-- With a start interval above the maximum the first delay is the start interval. -/
theorem not_attempts_backOff_long :
    let conf : BusConf := { reconnectStartInterval := 30000000, reconnectMaxInterval := 10000000 }
    ¬ Run.StepsMeet (attempt 7) (BacksOff 7) ⟨newEntry conf, 0⟩ [.setup none] := by
  intro conf h
  have htime := (h.1 0 rfl).2.2.time
  revert htime
  decide +kernel

end Connector

end LibAtapp.Atbus
