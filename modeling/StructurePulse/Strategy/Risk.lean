import StructurePulse.Strategy.Config
import StructurePulse.Strategy.Models
import Mathlib.Tactic.Ring
import Mathlib.Tactic.Linarith
import Mathlib.Algebra.Order.Field.Basic
import Mathlib.Algebra.Order.Floor.Ring

/-!
# Position sizing

`buildTradePlan` turns an entry zone and a target into levels and a quantity.
`Sized` collects what a returned plan guarantees; later results use it and never
unfold the planner.
-/

namespace StructurePulse.Strategy
set_option autoImplicit false

/-- `Decimal.to_integral_value(rounding=ROUND_DOWN)`: truncation towards zero. -/
def toIntegralDown (x : ℚ) : ℚ := if 0 ≤ x then (⌊x⌋ : ℚ) else (⌈x⌉ : ℚ)

theorem toIntegralDown_le {x : ℚ} (h : 0 ≤ x) : toIntegralDown x ≤ x := by
  simp only [toIntegralDown, if_pos h]
  exact Int.floor_le x

/-- `Decimal.quantize(Decimal("0.01"), rounding=ROUND_DOWN)`. -/
def quantizeCentsDown (x : ℚ) : ℚ := toIntegralDown (x * 100) / 100

/-- The keyword arguments of `build_trade_plan`. -/
structure TradePlanInput where
  direction : TradeDirection
  entryLower : ℚ
  entryUpper : ℚ
  atr : ℚ
  targetPrice : ℚ
  feeRate : ℚ
  instrumentMaxLeverage : ℚ
  quantityStep : ℚ
  minimumNotional : ℚ
  config : StrategyConfig

namespace TradePlanInput
variable (input : TradePlanInput)

def plannedEntry : ℚ := (input.entryLower + input.entryUpper) / 2

def stopLoss : ℚ :=
  let buffer := input.atr * input.config.stopAtrBuffer
  match input.direction with
  | .long => input.entryLower - buffer
  | .short => input.entryUpper + buffer

def riskPerUnit : ℚ :=
  match input.direction with
  | .long => input.plannedEntry - input.stopLoss
  | .short => input.stopLoss - input.plannedEntry

def rewardPerUnit : ℚ :=
  match input.direction with
  | .long => input.targetPrice - input.plannedEntry
  | .short => input.plannedEntry - input.targetPrice

def entryFeePerUnit : ℚ := input.plannedEntry * input.feeRate

def exitFeePerUnit : ℚ := input.targetPrice * input.feeRate

def netRiskPerUnit : ℚ :=
  input.riskPerUnit + input.entryFeePerUnit + input.stopLoss * input.feeRate

def netRewardPerUnit : ℚ := input.rewardPerUnit - input.entryFeePerUnit - input.exitFeePerUnit

def quantity : ℚ :=
  let rawQuantity := input.config.riskAmount / input.netRiskPerUnit
  toIntegralDown (rawQuantity / input.quantityStep) * input.quantityStep

def notional : ℚ := input.quantity * input.plannedEntry

def safeLeverage : ℚ :=
  let stopFraction := input.riskPerUnit / input.plannedEntry
  quantizeCentsDown (1 / (stopFraction * input.config.liquidationBufferMultiplier))

def recommendedLeverage : ℚ :=
  max 1 (min (min input.config.maximumDisplayLeverage input.instrumentMaxLeverage)
    input.safeLeverage)

def takeProfit1 : ℚ :=
  let tp1Distance := input.riskPerUnit * input.config.takeProfit1RMultiple
  match input.direction with
  | .long => input.plannedEntry + tp1Distance
  | .short => input.plannedEntry - tp1Distance

def plan : TradePlan where
  entryLower := input.entryLower
  entryUpper := input.entryUpper
  plannedEntry := input.plannedEntry
  stopLoss := input.stopLoss
  takeProfit1 := input.takeProfit1
  takeProfit2 := input.targetPrice
  grossRewardToRisk := input.rewardPerUnit / input.riskPerUnit
  netRewardToRisk := input.netRewardPerUnit / input.netRiskPerUnit
  riskAmount := input.config.riskAmount
  quantity := input.quantity
  notional := input.notional
  recommendedLeverage := input.recommendedLeverage
  estimatedMargin := input.notional / input.recommendedLeverage
  estimatedEntryFee := input.quantity * input.entryFeePerUnit
  estimatedExitFee := input.quantity * input.exitFeePerUnit
  estimatedLossAtStop := input.quantity * input.netRiskPerUnit
  invalidation := match input.direction with
    | .long => .closeBelow input.stopLoss
    | .short => .closeAbove input.stopLoss

end TradePlanInput

def buildTradePlan (input : TradePlanInput) : Option TradePlan × List PlanDetail :=
  if input.entryLower ≤ 0 ∨ input.entryUpper ≤ input.entryLower ∨ input.atr ≤ 0 ∨
      input.quantityStep ≤ 0 then
    (none, [.invalidEntryZone])
  else if input.stopLoss ≤ 0 ∨ input.riskPerUnit ≤ 0 then
    (none, [.invalidStopLoss])
  else if input.rewardPerUnit ≤ 0 then
    (none, [.noDirectionalLiquidityTarget])
  else if input.netRewardPerUnit ≤ 0 then
    (none, [.feesConsumeReward])
  else if input.quantity ≤ 0 then
    (none, [.quantityBelowExchangeMinimum])
  else if input.notional < input.minimumNotional then
    (none, [.notionalBelowExchangeMinimum])
  else
    (some input.plan,
      if input.recommendedLeverage < input.config.maximumDisplayLeverage then
        [.leverageReducedForLiquidationBuffer]
      else [])

/-- What every input that passes the planner's checks satisfies. -/
structure Sized (input : TradePlanInput) : Prop where
  entryLower_pos : 0 < input.entryLower
  entry_lt : input.entryLower < input.entryUpper
  atr_pos : 0 < input.atr
  quantityStep_pos : 0 < input.quantityStep
  stopLoss_pos : 0 < input.stopLoss
  riskPerUnit_pos : 0 < input.riskPerUnit
  rewardPerUnit_pos : 0 < input.rewardPerUnit
  netRewardPerUnit_pos : 0 < input.netRewardPerUnit
  quantity_pos : 0 < input.quantity
  minimumNotional_le : input.minimumNotional ≤ input.notional

theorem buildTradePlan_some {input : TradePlanInput} {plan : TradePlan}
    {details : List PlanDetail} (h : buildTradePlan input = (some plan, details)) :
    Sized input ∧ plan = input.plan := by
  unfold buildTradePlan at h
  split at h
  · simp at h
  rename_i hzone
  split at h
  · simp at h
  rename_i hstop
  split at h
  · simp at h
  rename_i hreward
  split at h
  · simp at h
  rename_i hnet
  split at h
  · simp at h
  rename_i hquantity
  split at h
  · simp at h
  rename_i hnotional
  push Not at hzone hstop hreward hnet hquantity hnotional
  refine ⟨⟨hzone.1, hzone.2.1, hzone.2.2.1, hzone.2.2.2, hstop.1, hstop.2, hreward, hnet,
    hquantity, hnotional⟩, ?_⟩
  exact (Option.some.inj (congrArg Prod.fst h)).symm

namespace Sized
variable {input : TradePlanInput} (h : Sized input)
include h

theorem plannedEntry_pos : 0 < input.plannedEntry := by
  have := h.entryLower_pos
  have := h.entry_lt
  unfold TradePlanInput.plannedEntry
  linarith

theorem plannedEntry_mem :
    input.entryLower < input.plannedEntry ∧ input.plannedEntry < input.entryUpper := by
  have := h.entry_lt
  unfold TradePlanInput.plannedEntry
  constructor <;> linarith

theorem netRiskPerUnit_pos (hf : 0 ≤ input.feeRate) : 0 < input.netRiskPerUnit := by
  have h1 := mul_nonneg (le_of_lt h.plannedEntry_pos) hf
  have h2 := mul_nonneg (le_of_lt h.stopLoss_pos) hf
  have h3 := h.riskPerUnit_pos
  unfold TradePlanInput.netRiskPerUnit TradePlanInput.entryFeePerUnit
  linarith

theorem notional_pos : 0 < input.notional := mul_pos h.quantity_pos h.plannedEntry_pos

/-- Rounding the quantity down to the lot step never costs more than the budget. -/
theorem loss_le_riskAmount (hf : 0 ≤ input.feeRate) :
    input.quantity * input.netRiskPerUnit ≤ input.config.riskAmount := by
  have hn := h.netRiskPerUnit_pos hf
  have hstep := h.quantityStep_pos
  have hraw : 0 ≤ input.config.riskAmount / input.netRiskPerUnit / input.quantityStep :=
    div_nonneg (div_nonneg (le_of_lt input.config.riskAmount_pos) (le_of_lt hn)) (le_of_lt hstep)
  have hq : input.quantity ≤ input.config.riskAmount / input.netRiskPerUnit := by
    calc input.quantity
        ≤ input.config.riskAmount / input.netRiskPerUnit / input.quantityStep
            * input.quantityStep :=
          mul_le_mul_of_nonneg_right (toIntegralDown_le hraw) (le_of_lt hstep)
      _ = input.config.riskAmount / input.netRiskPerUnit := div_mul_cancel₀ _ (ne_of_gt hstep)
  calc input.quantity * input.netRiskPerUnit
      ≤ input.config.riskAmount / input.netRiskPerUnit * input.netRiskPerUnit :=
        mul_le_mul_of_nonneg_right hq (le_of_lt hn)
    _ = input.config.riskAmount := div_mul_cancel₀ _ (ne_of_gt hn)

/-- The fee rate the store recovers from the plan is the planner's own. -/
theorem takerFeeRate_eq : input.plan.estimatedEntryFee / input.plan.notional = input.feeRate := by
  have hq := ne_of_gt h.quantity_pos
  have hp := ne_of_gt h.plannedEntry_pos
  simp only [TradePlanInput.plan, TradePlanInput.notional, TradePlanInput.entryFeePerUnit]
  field_simp

end Sized

end StructurePulse.Strategy
