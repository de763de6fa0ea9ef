import StructurePulse.Market

/-! Strategy outputs. The score components, the evidence texts and the suppression
reasons of a candidate are not read by publication or tracking and are left out. -/

namespace StructurePulse.Strategy
set_option autoImplicit false

inductive CandidateStatus where
  | accepted
  | suppressed
  deriving Repr, DecidableEq

inductive Strength where
  | standard
  | strong
  deriving Repr, DecidableEq

/-- The texts `build_trade_plan` returns beside the plan. -/
inductive PlanDetail where
  | invalidEntryZone
  | invalidStopLoss
  | noDirectionalLiquidityTarget
  | feesConsumeReward
  | quantityBelowExchangeMinimum
  | notionalBelowExchangeMinimum
  | leverageReducedForLiquidationBuffer
  deriving Repr, DecidableEq

inductive CandidateWarning where
  | crowdedFunding
  | abnormalBtcMovement
  | plan (detail : PlanDetail)
  deriving Repr, DecidableEq

/-- `f"close below {stop_loss}"` or `f"close above {stop_loss}"`. -/
inductive Invalidation where
  | closeBelow (level : ℚ)
  | closeAbove (level : ℚ)
  deriving Repr, DecidableEq

structure TradePlan where
  entryLower : ℚ
  entryUpper : ℚ
  plannedEntry : ℚ
  stopLoss : ℚ
  takeProfit1 : ℚ
  takeProfit2 : ℚ
  grossRewardToRisk : ℚ
  netRewardToRisk : ℚ
  riskAmount : ℚ
  quantity : ℚ
  notional : ℚ
  recommendedLeverage : ℚ
  estimatedMargin : ℚ
  estimatedEntryFee : ℚ
  estimatedExitFee : ℚ
  estimatedLossAtStop : ℚ
  invalidation : Invalidation
  deriving Repr, DecidableEq

structure SignalCandidate where
  symbol : Symbol
  direction : TradeDirection
  strategyVersion : String
  status : CandidateStatus
  score : Int
  strength : Strength
  warnings : List CandidateWarning
  tradePlan : Option TradePlan
  analyzedAt : Int
  expiresAt : Int
  deriving Repr, DecidableEq

end StructurePulse.Strategy
