import StructurePulse.Library.Transactions
import StructurePulse.Strategy.Risk
import Mathlib.Tactic.FieldSimp

/-!
# Safe and maximal position sizes

`buildTradePlanChecked` is the planner with divisions that can raise. What a returned plan
guarantees about the size, the loss and the leverage follows from `Sized` and the two
roundings.
-/

namespace StructurePulse.Strategy
open Library
set_option autoImplicit false

section Rounding

theorem lt_toIntegralDown_add_one (x : ℚ) : x < toIntegralDown x + 1 := by
  unfold toIntegralDown
  split_ifs with h
  · exact Int.lt_floor_add_one x
  · have hceil := Int.le_ceil x
    linarith

/-- A quantity that was rounded down to the step is a whole number of steps. -/
theorem exists_steps_of_pos {x step : ℚ} (hstep : 0 < step) (hpos : 0 < toIntegralDown x * step) :
    ∃ n : Nat, 0 < n ∧ toIntegralDown x * step = n * step := by
  have hrounded : 0 < toIntegralDown x := (mul_pos_iff_of_pos_right hstep).mp hpos
  obtain ⟨m, hm⟩ : ∃ m : Int, toIntegralDown x = m := by
    unfold toIntegralDown
    split_ifs
    · exact ⟨_, rfl⟩
    · exact ⟨_, rfl⟩
  rw [hm] at hrounded ⊢
  have hm0 : 0 < m := by exact_mod_cast hrounded
  refine ⟨m.toNat, by omega, ?_⟩
  congr 1
  exact_mod_cast (Int.toNat_of_nonneg hm0.le).symm

theorem quantizeCentsDown_le {x : ℚ} (h : 0 ≤ x) : quantizeCentsDown x ≤ x := by
  have hcents := toIntegralDown_le (mul_nonneg h (show (0 : ℚ) ≤ 100 by norm_num))
  unfold quantizeCentsDown
  linarith

end Rounding

section Divisions

/-- `Decimal` division, which raises on a zero divisor. -/
def checkedDiv (a b : ℚ) : Except Unit ℚ := if b = 0 then .error () else .ok (a / b)

theorem checkedDiv_of_pos {a b : ℚ} (h : 0 < b) : checkedDiv a b = .ok (a / b) :=
  if_neg h.ne'

/-- `build_trade_plan` with every division checked. -/
def buildTradePlanChecked (input : TradePlanInput) :
    Except Unit (Option TradePlan × List PlanDetail) :=
  if input.entryLower ≤ 0 ∨ input.entryUpper ≤ input.entryLower ∨ input.atr ≤ 0 ∨
      input.quantityStep ≤ 0 then
    .ok (none, [.invalidEntryZone])
  else if input.stopLoss ≤ 0 ∨ input.riskPerUnit ≤ 0 then
    .ok (none, [.invalidStopLoss])
  else if input.rewardPerUnit ≤ 0 then
    .ok (none, [.noDirectionalLiquidityTarget])
  else if input.netRewardPerUnit ≤ 0 then
    .ok (none, [.feesConsumeReward])
  else do
    let rawQuantity ← checkedDiv input.config.riskAmount input.netRiskPerUnit
    let steps ← checkedDiv rawQuantity input.quantityStep
    let quantity := toIntegralDown steps * input.quantityStep
    let notional := quantity * input.plannedEntry
    if quantity ≤ 0 then
      .ok (none, [.quantityBelowExchangeMinimum])
    else if notional < input.minimumNotional then
      .ok (none, [.notionalBelowExchangeMinimum])
    else do
      let grossRewardToRisk ← checkedDiv input.rewardPerUnit input.riskPerUnit
      let netRewardToRisk ← checkedDiv input.netRewardPerUnit input.netRiskPerUnit
      let stopFraction ← checkedDiv input.riskPerUnit input.plannedEntry
      let uncapped ← checkedDiv 1 (stopFraction * input.config.liquidationBufferMultiplier)
      let recommendedLeverage := max 1 (min (min input.config.maximumDisplayLeverage
        input.instrumentMaxLeverage) (quantizeCentsDown uncapped))
      let estimatedMargin ← checkedDiv notional recommendedLeverage
      .ok (some { input.plan with
          grossRewardToRisk := grossRewardToRisk
          netRewardToRisk := netRewardToRisk
          quantity := quantity
          notional := notional
          recommendedLeverage := recommendedLeverage
          estimatedMargin := estimatedMargin
          estimatedEntryFee := quantity * input.entryFeePerUnit
          estimatedExitFee := quantity * input.exitFeePerUnit
          estimatedLossAtStop := quantity * input.netRiskPerUnit },
        if recommendedLeverage < input.config.maximumDisplayLeverage then
          [.leverageReducedForLiquidationBuffer]
        else [])

/-- No input makes the planner divide by zero. -/
theorem buildTradePlanChecked_eq (input : TradePlanInput) (hfee : 0 ≤ input.feeRate) :
    buildTradePlanChecked input = .ok (buildTradePlan input) := by
  unfold buildTradePlanChecked buildTradePlan
  split_ifs with hzone hstop hreward hnet hquantity hnotional
  · rfl
  · rfl
  · rfl
  · rfl
  all_goals
    push Not at hzone hstop
    have hentry : 0 < input.plannedEntry := by
      unfold TradePlanInput.plannedEntry
      linarith [hzone.1, hzone.2.1]
    have hrisk : 0 < input.netRiskPerUnit := by
      have hentryFee := mul_nonneg hentry.le hfee
      have hstopFee := mul_nonneg hstop.1.le hfee
      unfold TradePlanInput.netRiskPerUnit TradePlanInput.entryFeePerUnit
      linarith [hstop.2]
    refine bind_eq_ok.mpr ⟨_, checkedDiv_of_pos hrisk, ?_⟩
    refine bind_eq_ok.mpr ⟨_, checkedDiv_of_pos hzone.2.2.2, ?_⟩
  · exact if_pos hquantity
  · exact (if_neg hquantity).trans (if_pos hnotional)
  all_goals
    have hbuffer : 0 < input.config.liquidationBufferMultiplier :=
      zero_lt_one.trans input.config.liquidationBufferMultiplier_gt
    refine (if_neg hquantity).trans ((if_neg hnotional).trans ?_)
    refine bind_eq_ok.mpr ⟨_, checkedDiv_of_pos hstop.2, ?_⟩
    refine bind_eq_ok.mpr ⟨_, checkedDiv_of_pos hrisk, ?_⟩
    refine bind_eq_ok.mpr ⟨_, checkedDiv_of_pos hentry, ?_⟩
    refine bind_eq_ok.mpr ⟨_, checkedDiv_of_pos (mul_pos (div_pos hstop.2 hentry) hbuffer), ?_⟩
    refine bind_eq_ok.mpr ⟨_, checkedDiv_of_pos (zero_lt_one.trans_le (le_max_left 1 _)), ?_⟩
    refine congrArg Except.ok (congrArg (Prod.mk _) ?_)
  · rename_i hreduced
    exact if_pos hreduced
  · rename_i hfull
    exact if_neg hfull

end Divisions

section Leverage

/-- The inputs agree on everything but the leverage parameters. -/
structure SameButLeverage (input other : TradePlanInput) : Prop where
  direction : other.direction = input.direction
  entryLower : other.entryLower = input.entryLower
  entryUpper : other.entryUpper = input.entryUpper
  atr : other.atr = input.atr
  targetPrice : other.targetPrice = input.targetPrice
  feeRate : other.feeRate = input.feeRate
  quantityStep : other.quantityStep = input.quantityStep
  minimumNotional : other.minimumNotional = input.minimumNotional
  riskAmount : other.config.riskAmount = input.config.riskAmount
  stopAtrBuffer : other.config.stopAtrBuffer = input.config.stopAtrBuffer

/-- The size and the monetary risk of a plan. -/
def monetaryRisk (plan : TradePlan) : ℚ × ℚ × ℚ × ℚ :=
  (plan.quantity, plan.notional, plan.riskAmount, plan.estimatedLossAtStop)

/-- Whether there is a plan, and its size, do not depend on the leverage parameters. -/
theorem SameButLeverage.monetaryRisk_eq {input other : TradePlanInput}
    (h : SameButLeverage input other) :
    (buildTradePlan other).1.map monetaryRisk = (buildTradePlan input).1.map monetaryRisk := by
  have hentry : other.plannedEntry = input.plannedEntry := by
    unfold TradePlanInput.plannedEntry
    rw [h.entryLower, h.entryUpper]
  have hstop : other.stopLoss = input.stopLoss := by
    unfold TradePlanInput.stopLoss
    rw [h.direction, h.entryLower, h.entryUpper, h.atr, h.stopAtrBuffer]
  have hrisk : other.riskPerUnit = input.riskPerUnit := by
    unfold TradePlanInput.riskPerUnit
    rw [h.direction, hentry, hstop]
  have hreward : other.rewardPerUnit = input.rewardPerUnit := by
    unfold TradePlanInput.rewardPerUnit
    rw [h.direction, hentry, h.targetPrice]
  have hnetRisk : other.netRiskPerUnit = input.netRiskPerUnit := by
    unfold TradePlanInput.netRiskPerUnit TradePlanInput.entryFeePerUnit
    rw [hentry, hstop, hrisk, h.feeRate]
  have hnetReward : other.netRewardPerUnit = input.netRewardPerUnit := by
    unfold TradePlanInput.netRewardPerUnit TradePlanInput.entryFeePerUnit
      TradePlanInput.exitFeePerUnit
    rw [hentry, hreward, h.targetPrice, h.feeRate]
  have hquantity : other.quantity = input.quantity := by
    unfold TradePlanInput.quantity
    rw [hnetRisk, h.riskAmount, h.quantityStep]
  have hnotional : other.notional = input.notional := by
    unfold TradePlanInput.notional
    rw [hquantity, hentry]
  have hplan : monetaryRisk other.plan = monetaryRisk input.plan := by
    unfold monetaryRisk TradePlanInput.plan
    simp only [hquantity, hnotional, h.riskAmount, hnetRisk]
  unfold buildTradePlan
  rw [h.entryLower, h.entryUpper, h.atr, h.quantityStep, hstop, hrisk, hreward, hnetReward,
    hquantity, hnotional, h.minimumNotional]
  split_ifs
  all_goals
    first
    | rfl
    | exact congrArg some hplan

end Leverage

section Plans
variable {input : TradePlanInput}

/-- How far the stop is from the entry, on the losing side. -/
def stopDistance (direction : TradeDirection) (plan : TradePlan) : ℚ :=
  match direction with
  | .long => plan.plannedEntry - plan.stopLoss
  | .short => plan.stopLoss - plan.plannedEntry

/-- The loss of one unit at the stop: the price risk and the fees of entry and exit. -/
def lossPerUnit (direction : TradeDirection) (plan : TradePlan) (feeRate : ℚ) : ℚ :=
  stopDistance direction plan + plan.plannedEntry * feeRate + plan.stopLoss * feeRate

/-- What a plan promises about its size and its leverage. -/
structure SafelySized (input : TradePlanInput) (plan : TradePlan) : Prop where
  steps : ∃ n : Nat, 0 < n ∧ plan.quantity = n * input.quantityStep
  loss : plan.estimatedLossAtStop =
    plan.quantity * lossPerUnit input.direction plan input.feeRate
  affordable : plan.estimatedLossAtStop ≤ plan.riskAmount
  maximal : plan.riskAmount <
    (plan.quantity + input.quantityStep) * lossPerUnit input.direction plan input.feeRate
  notional : plan.notional = plan.quantity * plan.plannedEntry ∧
    input.minimumNotional ≤ plan.notional
  leverage : 1 ≤ plan.recommendedLeverage ∧
    plan.recommendedLeverage ≤ input.config.maximumDisplayLeverage ∧
    plan.recommendedLeverage ≤ input.instrumentMaxLeverage
  buffered : 1 < plan.recommendedLeverage → plan.recommendedLeverage *
    (stopDistance input.direction plan / plan.plannedEntry) *
      input.config.liquidationBufferMultiplier ≤ 1

theorem riskPerUnit_eq (input : TradePlanInput) :
    input.riskPerUnit = stopDistance input.direction input.plan := by
  unfold TradePlanInput.riskPerUnit stopDistance
  cases input.direction with
  | long => rfl
  | short => rfl

theorem netRiskPerUnit_eq (input : TradePlanInput) :
    input.netRiskPerUnit = lossPerUnit input.direction input.plan input.feeRate := by
  unfold lossPerUnit
  rw [← riskPerUnit_eq]
  rfl

/-- One step more than the rounded quantity costs more than the budget. -/
theorem Sized.riskAmount_lt (h : Sized input) (hfee : 0 ≤ input.feeRate) :
    input.config.riskAmount < (input.quantity + input.quantityStep) * input.netRiskPerUnit := by
  have hrisk := h.netRiskPerUnit_pos hfee
  have hstep := h.quantityStep_pos
  have hraw : input.config.riskAmount / input.netRiskPerUnit <
      input.quantity + input.quantityStep := by
    have hlt := lt_toIntegralDown_add_one
      (input.config.riskAmount / input.netRiskPerUnit / input.quantityStep)
    rw [div_lt_iff₀ hstep] at hlt
    unfold TradePlanInput.quantity
    linarith
  exact (div_lt_iff₀ hrisk).mp hraw

/-- Above one, the leverage leaves the liquidation buffer at the stop. -/
theorem Sized.leverage_buffered (h : Sized input) (hlarge : 1 < input.recommendedLeverage) :
    input.recommendedLeverage * (input.riskPerUnit / input.plannedEntry) *
      input.config.liquidationBufferMultiplier ≤ 1 := by
  have hbuffer : 0 < input.config.liquidationBufferMultiplier :=
    zero_lt_one.trans input.config.liquidationBufferMultiplier_gt
  have hfraction := div_pos h.riskPerUnit_pos h.plannedEntry_pos
  have hdivisor := mul_pos hfraction hbuffer
  have hsafe : input.recommendedLeverage ≤ input.safeLeverage := by
    rcases le_max_iff.mp (le_refl input.recommendedLeverage) with hone | hmin
    · exact absurd hlarge (not_lt.mpr hone)
    · exact hmin.trans (min_le_right _ _)
  have hrounded : input.safeLeverage ≤
      1 / (input.riskPerUnit / input.plannedEntry * input.config.liquidationBufferMultiplier) :=
    quantizeCentsDown_le (div_nonneg zero_le_one hdivisor.le)
  rw [mul_assoc]
  exact (le_div_iff₀ hdivisor).mp (hsafe.trans hrounded)

/-- Every plan is safely sized, the size ignores the leverage parameters, and the planner
divides by zero on no input. -/
theorem position_sizing (input : TradePlanInput) (hfee : 0 ≤ input.feeRate)
    (hleverage : 1 ≤ input.instrumentMaxLeverage) :
    buildTradePlanChecked input = .ok (buildTradePlan input) ∧
      (∀ other, SameButLeverage input other →
        (buildTradePlan other).1.map monetaryRisk = (buildTradePlan input).1.map monetaryRisk) ∧
      ∀ plan details, buildTradePlan input = (some plan, details) → SafelySized input plan := by
  refine ⟨buildTradePlanChecked_eq input hfee, fun other h => h.monetaryRisk_eq, ?_⟩
  intro plan details hplan
  obtain ⟨hsized, rfl⟩ := buildTradePlan_some hplan
  constructor
  · exact exists_steps_of_pos hsized.quantityStep_pos hsized.quantity_pos
  · exact congrArg (input.quantity * ·) (netRiskPerUnit_eq input)
  · exact hsized.loss_le_riskAmount hfee
  · have hlt := hsized.riskAmount_lt hfee
    rw [netRiskPerUnit_eq] at hlt
    exact hlt
  · exact ⟨rfl, hsized.minimumNotional_le⟩
  · refine ⟨le_max_left 1 _, ?_, ?_⟩
    · refine max_le input.config.maximumDisplayLeverage_ge ?_
      exact (min_le_left _ _).trans (min_le_left _ _)
    · refine max_le hleverage ?_
      exact (min_le_left _ _).trans (min_le_right _ _)
  · intro hlarge
    have hbuffered := hsized.leverage_buffered hlarge
    rw [riskPerUnit_eq] at hbuffered
    exact hbuffered

/-- A wide zone at the default parameters, as in the test of the reduced leverage. -/
def wideZoneInput : TradePlanInput where
  direction := .long
  entryLower := 90
  entryUpper := 110
  atr := 10
  targetPrice := 150
  feeRate := 55 / 100000
  instrumentMaxLeverage := 100
  quantityStep := 1 / 1000
  minimumNotional := 5
  config := .standard

theorem position_sizing_sample :
    buildTradePlanChecked wideZoneInput = .ok (buildTradePlan wideZoneInput) ∧
      (∀ other, SameButLeverage wideZoneInput other →
        (buildTradePlan other).1.map monetaryRisk =
          (buildTradePlan wideZoneInput).1.map monetaryRisk) ∧
      ∀ plan details, buildTradePlan wideZoneInput = (some plan, details) →
        SafelySized wideZoneInput plan :=
  position_sizing wideZoneInput (by decide +kernel) (by decide +kernel)

end Plans

end StructurePulse.Strategy
