import StructurePulse.Replay.Lifecycle
import StructurePulse.Store.RiskBound
import StructurePulse.Strategy.Acceptance

/-!
# The breakeven stop after the first target

The planner places the first target by the risk of the zone, the tracker and the replay
place the breakeven stop by the fees. The stop protects the entry exactly when the fees
of a round trip are smaller than the distance of the target.
-/

namespace StructurePulse.Replay
open Store Signals SMC Strategy
set_option autoImplicit false

section Levels
variable {entry fee distance : ℚ}

theorem lt_breakeven_long (hentry : 0 < entry) (hfee : 0 < fee) (hfee' : fee < 1) :
    entry < entry * (1 + fee) / (1 - fee) := by
  have hfees := mul_pos hentry hfee
  rw [lt_div_iff₀ (by linarith)]
  linarith

theorem breakeven_long_lt_iff (hfee' : fee < 1) :
    entry * (1 + fee) / (1 - fee) < entry + distance ↔ 2 * fee * entry < distance * (1 - fee) := by
  rw [div_lt_iff₀ (by linarith)]
  constructor
  · intro h
    linarith
  · intro h
    linarith

theorem breakeven_short_lt (hentry : 0 < entry) (hfee : 0 < fee) :
    entry * (1 - fee) / (1 + fee) < entry := by
  have hfees := mul_pos hentry hfee
  rw [div_lt_iff₀ (by linarith)]
  linarith

theorem lt_breakeven_short_iff (hfee : 0 < fee) :
    entry - distance < entry * (1 - fee) / (1 + fee) ↔ 2 * fee * entry < distance * (1 + fee) := by
  rw [lt_div_iff₀ (by linarith)]
  constructor
  · intro h
    linarith
  · intro h
    linarith

end Levels

section Protection

/-- The stop lies strictly between the entry and the first target, so no trade that fills
the target is beyond it. -/
structure Protective (direction : TradeDirection) (plan : TradePlan) (stop : ℚ) : Prop where
  between : match direction with
    | .long => plan.plannedEntry < stop ∧ stop < plan.takeProfit1
    | .short => plan.takeProfit1 < stop ∧ stop < plan.plannedEntry
  notBeyond : ∀ price, targetReached direction plan.takeProfit1 price = true →
    beyondStop direction stop price = false

/-- The fees of a round trip at the entry are below the distance of the first target: one
and a half times half the zone and a tenth of the ATR. -/
def FeesBelowTarget (direction : TradeDirection) (zone : EntryZone) (atr feeRate : ℚ) : Prop :=
  match direction with
  | .long => 2 * feeRate * ((zone.lower + zone.upper) / 2) <
      ((zone.upper - zone.lower) / 2 + atr / 10) * (3 / 2) * (1 - feeRate)
  | .short => 2 * feeRate * ((zone.lower + zone.upper) / 2) <
      ((zone.upper - zone.lower) / 2 + atr / 10) * (3 / 2) * (1 + feeRate)

instance (direction : TradeDirection) (zone : EntryZone) (atr feeRate : ℚ) :
    Decidable (FeesBelowTarget direction zone atr feeRate) := by
  unfold FeesBelowTarget
  split <;> infer_instance

theorem protective_of_between {direction : TradeDirection} {plan : TradePlan} {stop : ℚ}
    (h : match direction with
      | .long => plan.plannedEntry < stop ∧ stop < plan.takeProfit1
      | .short => plan.takeProfit1 < stop ∧ stop < plan.plannedEntry) :
    Protective direction plan stop := by
  refine ⟨h, fun price hprice => ?_⟩
  cases direction with
  | long =>
    have hreached := of_decide_eq_true hprice
    exact decide_eq_false (not_le.mpr (h.2.trans_le hreached))
  | short =>
    have hreached := of_decide_eq_true hprice
    exact decide_eq_false (not_le.mpr (hreached.trans_lt h.1))

/-- The distance of the stop of a plan: half the zone and the buffer. -/
theorem riskPerUnit_eq_zone (planned : TradePlanInput) :
    planned.riskPerUnit = (planned.entryUpper - planned.entryLower) / 2
      + planned.atr * planned.config.stopAtrBuffer := by
  unfold TradePlanInput.riskPerUnit TradePlanInput.stopLoss TradePlanInput.plannedEntry
  cases planned.direction with
  | long =>
    simp only
    ring
  | short =>
    simp only
    ring

theorem protective_iff {direction : TradeDirection} {zone : EntryZone} {planned : TradePlanInput}
    {state : LifecycleState} (hsized : Sized planned) (hon : OnPlan planned state)
    (hdirection : planned.direction = direction)
    (hlower : planned.entryLower = zone.lower) (hupper : planned.entryUpper = zone.upper)
    (hbuffer : planned.config.stopAtrBuffer = 1 / 10)
    (hmultiple : planned.config.takeProfit1RMultiple = 3 / 2)
    (hfee : 0 < planned.feeRate) (hfee' : planned.feeRate < 1) :
    Protective direction planned.plan (feeAdjustedBreakeven state) ↔
      FeesBelowTarget direction zone planned.atr planned.feeRate := by
  have hentry := hsized.plannedEntry_pos
  have hcentre : planned.plannedEntry = (zone.lower + zone.upper) / 2 := by
    unfold TradePlanInput.plannedEntry
    rw [hlower, hupper]
  have hrisk : planned.riskPerUnit = (zone.upper - zone.lower) / 2 + planned.atr / 10 := by
    rw [riskPerUnit_eq_zone, hlower, hupper, hbuffer]
    ring
  have htarget : planned.plan.takeProfit1 = planned.takeProfit1 := rfl
  have hplanned : planned.plan.plannedEntry = planned.plannedEntry := rfl
  unfold FeesBelowTarget
  rw [← hcentre, ← hrisk]
  cases direction with
  | long =>
    have hstop : feeAdjustedBreakeven state =
        planned.plannedEntry * (1 + planned.feeRate) / (1 - planned.feeRate) := by
      unfold feeAdjustedBreakeven
      rw [hon.direction, hdirection, hon.plannedEntry, hon.takerFeeRate]
    have hfirst : planned.takeProfit1 = planned.plannedEntry + planned.riskPerUnit * (3 / 2) := by
      unfold TradePlanInput.takeProfit1
      rw [hdirection, hmultiple]
    rw [hstop]
    constructor
    · intro h
      have hbetween := h.between.2
      rw [htarget, hfirst] at hbetween
      exact (breakeven_long_lt_iff hfee').mp hbetween
    · intro h
      refine protective_of_between ⟨lt_breakeven_long hentry hfee hfee', ?_⟩
      rw [htarget, hfirst]
      exact (breakeven_long_lt_iff hfee').mpr h
  | short =>
    have hstop : feeAdjustedBreakeven state =
        planned.plannedEntry * (1 - planned.feeRate) / (1 + planned.feeRate) := by
      unfold feeAdjustedBreakeven
      rw [hon.direction, hdirection, hon.plannedEntry, hon.takerFeeRate]
    have hfirst : planned.takeProfit1 = planned.plannedEntry - planned.riskPerUnit * (3 / 2) := by
      unfold TradePlanInput.takeProfit1
      rw [hdirection, hmultiple]
    rw [hstop]
    constructor
    · intro h
      have hbetween := h.between.1
      rw [htarget, hfirst] at hbetween
      exact (lt_breakeven_short_iff hfee).mp hbetween
    · intro h
      refine protective_of_between ⟨?_, breakeven_short_lt hentry hfee⟩
      rw [htarget, hfirst]
      exact (lt_breakeven_short_iff hfee).mpr h

end Protection

section Result

/-- The stop that the first target installs in any run. -/
theorem installed_stop {start : LifecycleState} (hd : StopDiscipline start)
    (events : List MarketEvent) {decided : LifecycleState} {action : LifecycleAction}
    (h : (decided, action) ∈ bookings start events) (htarget : action.target = .tp1Reached) :
    action.currentStop = some (feeAdjustedBreakeven start) := by
  obtain ⟨hsame, hb⟩ := bookings_spec hd events h
  cases hb with
  | unfilled _ target _ _ => rcases target with t | t <;> rw [t] at htarget <;> cases htarget
  | entry _ eq =>
    rw [eq] at htarget
    cases htarget
  | stopOut _ target _ => rcases target with t | t <;> rw [t] at htarget <;> cases htarget
  | firstTarget _ eq =>
    rw [eq, ← hsame.feeAdjustedBreakeven_eq]
    rfl
  | breakeven _ target _ => rcases target with t | t <;> rw [t] at htarget <;> cases htarget
  | secondTarget _ eq =>
    rw [eq] at htarget
    cases htarget

theorem breakevenPrice_eq {planned : TradePlanInput} (hsized : Sized planned)
    {state : LifecycleState} (hon : OnPlan planned state) :
    breakevenPrice planned.direction planned.plan = feeAdjustedBreakeven state := by
  have hnotional : planned.plan.notional > 0 := hsized.notional_pos
  have hrate : feeRate planned.plan = planned.feeRate := by
    unfold feeRate
    rw [if_pos hnotional]
    exact hsized.takerFeeRate_eq
  unfold breakevenPrice feeAdjustedBreakeven
  rw [hrate, hon.direction, hon.plannedEntry, hon.takerFeeRate]
  rfl

/-- For every accepted candidate at the default parameters, the stop that the tracker and
the replay install at the first target is protective exactly when the fees of a round trip
are below the distance of the target. -/
theorem breakeven_protective_iff (input : StrategyInput) (direction : TradeDirection)
    (hfee : 0 < input.market.takerFeeRate) (hfee' : input.market.takerFeeRate < 1)
    (haccepted : (evaluateDirection input direction .standard).status = .accepted)
    (recordId snapshotId signalId : Nat) (now : Int) (fundingRate : ℚ) (interval : Int) :
    ∃ plan start zone atr,
      (evaluateDirection input direction .standard).tradePlan = some plan ∧
      publishedState recordId snapshotId signalId
        (evaluateDirection input direction .standard).toSignalCandidate now fundingRate interval =
          .ok start ∧
      latestEntryZone input.analysis15m (smcDirection direction) = some zone ∧
      latestAtr input.analysis15m = some atr ∧
      (∀ events decided action, (decided, action) ∈ bookings start events →
        action.target = .tp1Reached → action.currentStop = some (feeAdjustedBreakeven start)) ∧
      breakevenPrice direction plan = feeAdjustedBreakeven start ∧
      (Protective direction plan (feeAdjustedBreakeven start) ↔
        FeesBelowTarget direction zone atr input.market.takerFeeRate) := by
  obtain ⟨zone, atr, target, planned, h⟩ := accepted_spec haccepted
  obtain rfl := h.asked
  obtain ⟨start, hstart, hon, -, hd⟩ := publishedState_eq h.sized h.plan rfl recordId snapshotId
    signalId now fundingRate interval
  refine ⟨_, start, zone, atr, h.plan, hstart, h.found, h.measured, ?_, ?_, ?_⟩
  · intro events decided action hbooked htarget
    exact installed_stop hd events hbooked htarget
  · exact breakevenPrice_eq h.sized hon
  · exact protective_iff h.sized hon rfl rfl rfl rfl rfl hfee hfee'

/-- A zone of two hundredths around 100 with an ATR of 0.2: the first target is at 100.045,
the breakeven stop above 100.11. -/
def tightInput : StrategyInput := sampleStrategyInput (9999 / 100) (10001 / 100) 101 (1 / 5)

def tightPlanned : TradePlanInput where
  direction := .long
  entryLower := 9999 / 100
  entryUpper := 10001 / 100
  atr := 1 / 5
  targetPrice := 101
  feeRate := 55 / 100000
  instrumentMaxLeverage := 100
  quantityStep := 1 / 100000000
  minimumNotional := 0
  config := .standard

theorem breakeven_beyond_target :
    (evaluateDirection tightInput .long .standard).status = .accepted ∧
      ∃ start, publishedState 1 1 1 (evaluateDirection tightInput .long .standard).toSignalCandidate 0 0
          480 = .ok start ∧
        (evaluateDirection tightInput .long .standard).tradePlan = some tightPlanned.plan ∧
        ¬ Protective .long tightPlanned.plan (feeAdjustedBreakeven start) := by
  have hplan : (evaluateDirection tightInput .long .standard).tradePlan = some tightPlanned.plan := by
    decide +kernel
  have hsized : Sized tightPlanned :=
    (@buildTradePlan_some tightPlanned tightPlanned.plan [] (by decide +kernel)).1
  obtain ⟨start, hstart, hon, -, -⟩ := publishedState_eq hsized hplan rfl 1 1 1 0 0 480
  refine ⟨by decide +kernel, start, hstart, hplan, fun h => ?_⟩
  have hbelow := h.between.2
  rw [← breakevenPrice_eq hsized hon] at hbelow
  revert hbelow
  decide +kernel

theorem breakeven_protective_sample :
    ∃ plan start zone atr,
      (evaluateDirection (sampleStrategyInput 90 92 130 5) .long .standard).tradePlan = some plan ∧
      publishedState 1 1 1
        (evaluateDirection (sampleStrategyInput 90 92 130 5) .long .standard).toSignalCandidate 0 0 480 =
          .ok start ∧
      latestEntryZone (sampleStrategyInput 90 92 130 5).analysis15m .bullish = some zone ∧
      latestAtr (sampleStrategyInput 90 92 130 5).analysis15m = some atr ∧
      (∀ events decided action, (decided, action) ∈ bookings start events →
        action.target = .tp1Reached → action.currentStop = some (feeAdjustedBreakeven start)) ∧
      breakevenPrice .long plan = feeAdjustedBreakeven start ∧
      (Protective .long plan (feeAdjustedBreakeven start) ↔
        FeesBelowTarget .long zone atr (55 / 100000)) :=
  breakeven_protective_iff (sampleStrategyInput 90 92 130 5) .long (by decide +kernel)
    (by decide +kernel) (by decide +kernel) 1 1 1 0 0 480

end Result

end StructurePulse.Replay
