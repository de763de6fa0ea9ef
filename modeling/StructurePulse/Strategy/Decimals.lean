import StructurePulse.Library.Decimals
import StructurePulse.Strategy.Evaluator

/-!
# Planning in rounded arithmetic

The planner with every result rounded by a context. Truncation, `quantize`, `min`, `max` and
comparison are exact in `decimal` too. Under `id` the plan of a candidate is the exact one.
-/

namespace StructurePulse.Strategy.Rounded
open Library SMC
set_option autoImplicit false

section Planner
variable (context : ℚ → ℚ) (input : TradePlanInput)

def plannedEntry : Decimal context :=
  ((input.entryLower : Decimal context) + (input.entryUpper : Decimal context)) / 2

def stopLoss : Decimal context :=
  let buffer := (input.atr : Decimal context) * (input.config.stopAtrBuffer : Decimal context)
  match input.direction with
  | .long => (input.entryLower : Decimal context) - buffer
  | .short => (input.entryUpper : Decimal context) + buffer

def riskPerUnit : Decimal context :=
  match input.direction with
  | .long => plannedEntry context input - stopLoss context input
  | .short => stopLoss context input - plannedEntry context input

def rewardPerUnit : Decimal context :=
  match input.direction with
  | .long => (input.targetPrice : Decimal context) - plannedEntry context input
  | .short => plannedEntry context input - (input.targetPrice : Decimal context)

def entryFeePerUnit : Decimal context :=
  plannedEntry context input * (input.feeRate : Decimal context)

def exitFeePerUnit : Decimal context :=
  (input.targetPrice : Decimal context) * (input.feeRate : Decimal context)

def netRiskPerUnit : Decimal context :=
  riskPerUnit context input + entryFeePerUnit context input
    + stopLoss context input * (input.feeRate : Decimal context)

def netRewardPerUnit : Decimal context :=
  rewardPerUnit context input - entryFeePerUnit context input - exitFeePerUnit context input

/-- `risk_amount` of the configuration. -/
def riskAmount : Decimal context :=
  (input.config.referenceBalance : Decimal context) * (input.config.riskFraction : Decimal context)

def quantity : Decimal context :=
  let quantityStep : Decimal context := input.quantityStep
  let rawQuantity := riskAmount context input / netRiskPerUnit context input
  (toIntegralDown (rawQuantity / quantityStep).value : Decimal context) * quantityStep

def notional : Decimal context := quantity context input * plannedEntry context input

def safeLeverage : ℚ :=
  let stopFraction := riskPerUnit context input / plannedEntry context input
  let multiplier : Decimal context := input.config.liquidationBufferMultiplier
  quantizeCentsDown (1 / (stopFraction * multiplier)).value

def recommendedLeverage : ℚ :=
  max 1 (min (min input.config.maximumDisplayLeverage input.instrumentMaxLeverage)
    (safeLeverage context input))

def takeProfit1 : Decimal context :=
  let multiple : Decimal context := input.config.takeProfit1RMultiple
  let tp1Distance := riskPerUnit context input * multiple
  match input.direction with
  | .long => plannedEntry context input + tp1Distance
  | .short => plannedEntry context input - tp1Distance

def plan : TradePlan where
  entryLower := input.entryLower
  entryUpper := input.entryUpper
  plannedEntry := (plannedEntry context input).value
  stopLoss := (stopLoss context input).value
  takeProfit1 := (takeProfit1 context input).value
  takeProfit2 := input.targetPrice
  grossRewardToRisk := (rewardPerUnit context input / riskPerUnit context input).value
  netRewardToRisk := (netRewardPerUnit context input / netRiskPerUnit context input).value
  riskAmount := (riskAmount context input).value
  quantity := (quantity context input).value
  notional := (notional context input).value
  recommendedLeverage := recommendedLeverage context input
  estimatedMargin :=
    (notional context input / (recommendedLeverage context input : Decimal context)).value
  estimatedEntryFee := (quantity context input * entryFeePerUnit context input).value
  estimatedExitFee := (quantity context input * exitFeePerUnit context input).value
  estimatedLossAtStop := (quantity context input * netRiskPerUnit context input).value
  invalidation := match input.direction with
    | .long => .closeBelow (stopLoss context input).value
    | .short => .closeAbove (stopLoss context input).value

def buildTradePlan : Option TradePlan × List PlanDetail :=
  if input.entryLower ≤ 0 ∨ input.entryUpper ≤ input.entryLower ∨ input.atr ≤ 0 ∨
      input.quantityStep ≤ 0 then
    (none, [.invalidEntryZone])
  else if (stopLoss context input).value ≤ 0 ∨ (riskPerUnit context input).value ≤ 0 then
    (none, [.invalidStopLoss])
  else if (rewardPerUnit context input).value ≤ 0 then
    (none, [.noDirectionalLiquidityTarget])
  else if (netRewardPerUnit context input).value ≤ 0 then
    (none, [.feesConsumeReward])
  else if (quantity context input).value ≤ 0 then
    (none, [.quantityBelowExchangeMinimum])
  else if (notional context input).value < input.minimumNotional then
    (none, [.notionalBelowExchangeMinimum])
  else
    (some (plan context input),
      if recommendedLeverage context input < input.config.maximumDisplayLeverage then
        [.leverageReducedForLiquidationBuffer]
      else [])

/-- Without rounding this is the planner. -/
theorem buildTradePlan_id : buildTradePlan id input = Strategy.buildTradePlan input := by
  obtain ⟨direction⟩ := input
  cases direction <;> rfl

end Planner

section Candidate
variable (context : ℚ → ℚ) (input : StrategyInput) (direction : TradeDirection)
  (config : StrategyConfig)

/-- `_liquidity_target`, whose entry is the rounded middle of the zone. -/
def liquidityTarget (zone : EntryZone) : Option ℚ :=
  let entry := (((zone.lower : Decimal context) + (zone.upper : Decimal context)) / 2).value
  let swings := input.analysis15m.swings ++ input.analysis1h.swings
  match direction with
  | .long =>
    ((swings.filter fun swing => decide (swing.kind = .high ∧ swing.price > entry)).map
      Swing.price).min?
  | .short =>
    ((swings.filter fun swing => decide (swing.kind = .low ∧ swing.price < entry)).map
      Swing.price).max?

/-- The trade plan of a candidate. -/
def tradePlan : Option TradePlan :=
  (latestEntryZone input.analysis15m (smcDirection direction)).bind fun zone =>
    (latestAtr input.analysis15m).bind fun atr =>
      (liquidityTarget context input direction zone).bind fun target =>
        (buildTradePlan context {
          direction := direction
          entryLower := zone.lower
          entryUpper := zone.upper
          atr := atr
          targetPrice := target
          feeRate := input.market.takerFeeRate
          instrumentMaxLeverage := input.market.instrumentMaxLeverage
          quantityStep := input.market.instrumentQuantityStep
          minimumNotional := input.market.instrumentMinNotional
          config := config }).1

theorem liquidityTarget_id (zone : EntryZone) : liquidityTarget id input direction zone =
    Strategy.liquidityTarget input.analysis15m input.analysis1h direction zone := by
  cases direction <;> rfl

/-- Without rounding it is the plan of the evaluated candidate. -/
theorem tradePlan_id : tradePlan id input direction config =
    (evaluateDirection input direction config).tradePlan := by
  unfold tradePlan evaluateDirection
  cases hzone : latestEntryZone input.analysis15m (smcDirection direction) with
  | none => rfl
  | some zone =>
    simp only [Option.bind_some, planOf, planInput, liquidityTarget_id, buildTradePlan_id]
    cases latestAtr input.analysis15m with
    | none => rfl
    | some atr =>
      cases Strategy.liquidityTarget input.analysis15m input.analysis1h direction zone with
      | none => rfl
      | some target =>
        simp only [Option.bind_some]
        split
        · rename_i hbuilt
          rw [hbuilt]
        · rename_i hbuilt
          rw [hbuilt]

end Candidate

end StructurePulse.Strategy.Rounded
