import ThreefoldSdk.Billing.Overdue

/-! The downtime of a node in the current minting period, as the playground computes it from the
uptime events (`getNodeAvailability` in `utils/node.ts`). Times are in seconds. -/

namespace ThreefoldSdk.Playground
open Billing

structure UptimeEvent where
  uptime : ℤ
  timestamp : ℤ
deriving DecidableEq, Repr

structure NodeAvailability where
  downtime : ℤ
  currentPeriod : ℤ
deriving DecidableEq, Repr

def STANDARD_PERIOD_DURATION : ℤ := (24 * 60 * 60 * (365 * 3 + 366 * 2)) / 60

def FIRST_PERIOD_START_TIMESTAMP : ℤ := 1522501000

def UPTIME_EVENTS_INTERVAL : ℤ := 3600

def secondsSinceCurrentPeriodStart (secondsSinceEpoch : ℤ) : ℤ :=
  (secondsSinceEpoch - FIRST_PERIOD_START_TIMESTAMP).tmod STANDARD_PERIOD_DURATION

def currentPeriodStartTimestamp (secondsSinceEpoch : ℤ) : ℤ :=
  secondsSinceEpoch - secondsSinceCurrentPeriodStart secondsSinceEpoch

def downBetween (e e' : UptimeEvent) : ℤ :=
  -- the uptime fell, or is shorter than the time between the events
  if e'.uptime < e.uptime ∨ e'.uptime < e'.timestamp - e.timestamp then
    e'.timestamp - e.timestamp - e'.uptime
  else 0

def sumDowntime (time : ℤ) (e : UptimeEvent) : List UptimeEvent → ℤ
  | [] => time
  | e' :: es => sumDowntime (time + downBetween e e') e' es

def lastEvent (e : UptimeEvent) (es : List UptimeEvent) : UptimeEvent := es.getLastD e

/-- `res` is the answer of the indexer: the events of the node after the start of the period. -/
def getNodeAvailability (secondsSinceEpoch : ℤ) (res : List UptimeEvent) : NodeAvailability :=
  let currentPeriod := secondsSinceCurrentPeriodStart secondsSinceEpoch
  if res.length = 0 then ⟨currentPeriod, currentPeriod⟩
  else
    -- the period begins with an event of no uptime
    let fakeDataPoint := ⟨0, currentPeriodStartTimestamp secondsSinceEpoch⟩
    let time := sumDowntime 0 fakeDataPoint res
    let elapsedSinceLastUptimeEvent := secondsSinceEpoch - (lastEvent fakeDataPoint res).timestamp
    ⟨if UPTIME_EVENTS_INTERVAL ≤ elapsedSinceLastUptimeEvent then time + elapsedSinceLastUptimeEvent
      else time, currentPeriod⟩

/-- `toFixed` of any number: the sign is set apart. -/
def toFixedSigned (decimals : ℕ) (x : ℚ) : ℚ :=
  if x < 0 then -toFixed decimals (-x) else toFixed decimals x

def calculateUptime (currentPeriod downtime : ℤ) : ℚ :=
  toFixedSigned 2 (((currentPeriod - downtime) / currentPeriod : ℚ) * 100)

structure UptimeReports (start now : ℤ) (events : List UptimeEvent) : Prop where
  ascending : events.Pairwise fun e e' => e.timestamp ≤ e'.timestamp
  uptime : ∀ e ∈ events, 0 ≤ e.uptime
  started : ∀ e ∈ events, start < e.timestamp
  past : ∀ e ∈ events, e.timestamp ≤ now

/-- The seconds between two events that the node was not up for. -/
def missing (e e' : UptimeEvent) : ℤ := max 0 (e'.timestamp - e.timestamp - e'.uptime)

/-- The seconds by which an uptime is longer than the time since the event before it, where it is
lower than the uptime there. -/
def excess (e e' : UptimeEvent) : ℤ :=
  if e'.uptime < e.uptime then max 0 (e'.uptime - (e'.timestamp - e.timestamp)) else 0

def overPairs (f : UptimeEvent → UptimeEvent → ℤ) (e : UptimeEvent) : List UptimeEvent → ℤ
  | [] => 0
  | e' :: es => f e e' + overPairs f e' es

/-- The time since the last event, when the node should have reported again. -/
def silence (now : ℤ) (e : UptimeEvent) : ℤ :=
  if UPTIME_EVENTS_INTERVAL ≤ now - e.timestamp then now - e.timestamp else 0

section
variable {e : UptimeEvent} {es : List UptimeEvent} {now : ℤ}

theorem downBetween_eq (e e' : UptimeEvent) : downBetween e e' = missing e e' - excess e e' := by
  unfold downBetween missing excess
  split_ifs <;> omega

theorem sumDowntime_eq (time : ℤ) (e : UptimeEvent) (es : List UptimeEvent) :
    sumDowntime time e es = time + (overPairs missing e es - overPairs excess e es) := by
  induction es generalizing time e with
  | nil => simp only [sumDowntime, overPairs, sub_self, add_zero]
  | cons e' es ih =>
    rw [sumDowntime, ih, downBetween_eq, overPairs, overPairs]
    ring

theorem overPairs_excess_nonneg (e : UptimeEvent) (es : List UptimeEvent) :
    0 ≤ overPairs excess e es := by
  induction es generalizing e with
  | nil => exact le_rfl
  | cons e' es ih =>
    have hone : 0 ≤ excess e e' := by
      unfold excess
      split_ifs
      · exact le_max_left _ _
      · exact le_rfl
    exact add_nonneg hone (ih e')

theorem lastEvent_cons (e e' : UptimeEvent) (es : List UptimeEvent) :
    lastEvent e (e' :: es) = lastEvent e' es := List.getLastD_cons

/-- What is missing between the events is at most the time between the first and the last. -/
theorem overPairs_missing_le (hascending : (e :: es).Pairwise fun e e' => e.timestamp ≤ e'.timestamp)
    (huptime : ∀ e' ∈ es, 0 ≤ e'.uptime) :
    overPairs missing e es ≤ (lastEvent e es).timestamp - e.timestamp := by
  induction es generalizing e with
  | nil => exact (sub_self e.timestamp).ge
  | cons e' es ih =>
    obtain ⟨hfirst, hrest⟩ := List.pairwise_cons.mp hascending
    have hgap : e.timestamp ≤ e'.timestamp := hfirst e' List.mem_cons_self
    have hup : 0 ≤ e'.uptime := huptime e' List.mem_cons_self
    have hone : missing e e' ≤ e'.timestamp - e.timestamp := by
      unfold missing
      omega
    have hall := ih hrest fun x hx => huptime x (List.mem_cons_of_mem _ hx)
    rw [overPairs, lastEvent_cons]
    linarith

theorem silence_le (h : e.timestamp ≤ now) : silence now e ≤ now - e.timestamp := by
  unfold silence
  split_ifs
  · exact le_rfl
  · exact sub_nonneg.mpr h

theorem lastEvent_past (hfirst : e.timestamp ≤ now) (hpast : ∀ e' ∈ es, e'.timestamp ≤ now) :
    (lastEvent e es).timestamp ≤ now := by
  induction es generalizing e with
  | nil => exact hfirst
  | cons e' es ih =>
    rw [lastEvent_cons]
    obtain ⟨hnext, hrest⟩ := List.forall_mem_cons.mp hpast
    exact ih hnext hrest

theorem toFixedSigned_bounds {x : ℚ} (h₀ : 0 ≤ x) (h₁ : x ≤ 100) :
    0 ≤ toFixedSigned 2 x ∧ toFixedSigned 2 x ≤ 100 := by
  unfold toFixedSigned toFixed
  rw [if_neg (not_lt.mpr h₀)]
  have hlow : (0 : ℤ) ≤ ⌊x * 10 ^ 2 + 1 / 2⌋ := Int.floor_nonneg.mpr (by positivity)
  have hhigh : ⌊x * 10 ^ 2 + 1 / 2⌋ ≤ (10000 : ℤ) := by
    rw [← Int.lt_add_one_iff, Int.floor_lt]
    push_cast
    linarith
  have hlow' : (0 : ℚ) ≤ ⌊x * 10 ^ 2 + 1 / 2⌋ := by exact_mod_cast hlow
  have hhigh' : (⌊x * 10 ^ 2 + 1 / 2⌋ : ℚ) ≤ 10000 := by exact_mod_cast hhigh
  constructor
  · positivity
  · rw [div_le_iff₀ (by norm_num)]
    linarith

theorem calculateUptime_bounds {currentPeriod downtime : ℤ} (hperiod : 0 < currentPeriod)
    (h₀ : 0 ≤ downtime) (h₁ : downtime ≤ currentPeriod) :
    0 ≤ calculateUptime currentPeriod downtime ∧ calculateUptime currentPeriod downtime ≤ 100 := by
  have hperiod' : (0 : ℚ) < currentPeriod := by exact_mod_cast hperiod
  have h₀' : (0 : ℚ) ≤ downtime := by exact_mod_cast h₀
  have h₁' : (downtime : ℚ) ≤ currentPeriod := by exact_mod_cast h₁
  have hlow : (0 : ℚ) ≤ (currentPeriod - downtime) / currentPeriod :=
    div_nonneg (sub_nonneg.mpr h₁') hperiod'.le
  have hhigh : ((currentPeriod - downtime) / currentPeriod : ℚ) ≤ 1 := by
    rw [div_le_one hperiod']
    linarith
  exact toFixedSigned_bounds (by linarith) (by linarith)

end

/-- The downtime is a part of the elapsed period, and the uptime a percentage. -/
structure WithinPeriod (a : NodeAvailability) : Prop where
  nonneg : 0 ≤ a.downtime
  atMost : a.downtime ≤ a.currentPeriod
  percentage : 0 ≤ calculateUptime a.currentPeriod a.downtime ∧
    calculateUptime a.currentPeriod a.downtime ≤ 100

/-- The fake data point at the start of the period. -/
def periodStart (now : ℤ) : UptimeEvent := ⟨0, currentPeriodStartTimestamp now⟩

theorem getNodeAvailability_downtime (now : ℤ) {events : List UptimeEvent} (h : events ≠ []) :
    (getNodeAvailability now events).downtime =
      overPairs missing (periodStart now) events + silence now (lastEvent (periodStart now) events) -
        overPairs excess (periodStart now) events := by
  have hlength : ¬events.length = 0 := fun hzero => h (List.length_eq_zero_iff.mp hzero)
  unfold getNodeAvailability
  rw [if_neg hlength]
  change (if UPTIME_EVENTS_INTERVAL ≤ now - (lastEvent (periodStart now) events).timestamp then
      sumDowntime 0 (periodStart now) events +
        (now - (lastEvent (periodStart now) events).timestamp)
    else sumDowntime 0 (periodStart now) events) = _
  rw [sumDowntime_eq, silence]
  split_ifs <;> ring

/-- The downtime is within its period exactly when the uptimes that fell exceed the time they have
by no more than the node was missing. -/
theorem downtime_withinPeriod_iff {now : ℤ} {events : List UptimeEvent}
    (hperiod : 0 < secondsSinceCurrentPeriodStart now)
    (hreports : UptimeReports (currentPeriodStartTimestamp now) now events) :
    WithinPeriod (getNodeAvailability now events) ↔
      overPairs excess (periodStart now) events ≤
        overPairs missing (periodStart now) events +
          silence now (lastEvent (periodStart now) events) := by
  have hstart : (periodStart now).timestamp = now - secondsSinceCurrentPeriodStart now := rfl
  have hcurrent : (getNodeAvailability now events).currentPeriod =
      secondsSinceCurrentPeriodStart now := by
    unfold getNodeAvailability
    split_ifs
    · rfl
    · rfl
  have hlast : (lastEvent (periodStart now) events).timestamp ≤ now :=
    lastEvent_past (by rw [hstart]; linarith) hreports.past
  have hsilence := silence_le hlast
  by_cases hnil : events = []
  · subst hnil
    have hdown : (getNodeAvailability now []).downtime = secondsSinceCurrentPeriodStart now := rfl
    have hquiet : 0 ≤ silence now (lastEvent (periodStart now) []) := by
      unfold silence
      split_ifs
      · exact sub_nonneg.mpr hlast
      · exact le_rfl
    refine iff_of_true ⟨by rw [hdown]; exact hperiod.le, by rw [hdown, hcurrent], ?_⟩ ?_
    · rw [hdown, hcurrent]
      exact calculateUptime_bounds hperiod hperiod.le le_rfl
    · simpa only [overPairs, zero_add] using hquiet
  have hdown := getNodeAvailability_downtime now hnil
  have hmissing : overPairs missing (periodStart now) events ≤
      (lastEvent (periodStart now) events).timestamp - (periodStart now).timestamp := by
    refine overPairs_missing_le (List.pairwise_cons.mpr ⟨?_, hreports.ascending⟩) hreports.uptime
    exact fun e he => (hreports.started e he).le
  have hatMost : (getNodeAvailability now events).downtime ≤
      (getNodeAvailability now events).currentPeriod := by
    have hexcess := overPairs_excess_nonneg (periodStart now) events
    rw [hdown, hcurrent]
    linarith
  constructor
  · intro h
    have hnonneg := h.nonneg
    rw [hdown] at hnonneg
    linarith
  · intro h
    have hnonneg : 0 ≤ (getNodeAvailability now events).downtime := by
      rw [hdown]
      linarith
    exact ⟨hnonneg, hatMost, calculateUptime_bounds (hcurrent ▸ hperiod) hnonneg hatMost⟩

/-- Two thousand seconds after the start of the second period. -/
def sampleNow : ℤ := FIRST_PERIOD_START_TIMESTAMP + STANDARD_PERIOD_DURATION + 2000

/-- A node that was restarted a hundred seconds before its only event. -/
def restarted : List UptimeEvent := [⟨100, sampleNow - 500⟩]

theorem restarted_withinPeriod : WithinPeriod (getNodeAvailability sampleNow restarted) := by
  refine (downtime_withinPeriod_iff (by decide) ⟨?_, ?_, ?_, ?_⟩).mpr (by decide)
  · decide
  · decide
  · decide
  · decide

/-- Forty seconds after an event the node reports a lower uptime of more than forty seconds. -/
def lateReport : List UptimeEvent := [⟨5000, sampleNow - 1000⟩, ⟨2000, sampleNow - 960⟩]

theorem lateReport_not_withinPeriod : ¬WithinPeriod (getNodeAvailability sampleNow lateReport) := by
  intro h
  have hnegative : (getNodeAvailability sampleNow lateReport).downtime = -1960 := by decide
  have hnonneg := h.nonneg
  rw [hnegative] at hnonneg
  exact absurd hnonneg (by decide)

end ThreefoldSdk.Playground
