import StructurePulse.SMC.Config

/-! Strategy configuration, with the checks of `__post_init__` as fields. -/

namespace StructurePulse.Strategy
set_option autoImplicit false

structure ScoreWeights where
  higherTimeframeAlignment : Int := 20
  liquiditySweep : Int := 20
  structureConfirmation : Int := 20
  entryZoneQuality : Int := 15
  premiumDiscount : Int := 10
  volumeOpenInterest : Int := 10
  fundingBtcCondition : Int := 5
  nonneg : 0 ≤ higherTimeframeAlignment ∧ 0 ≤ liquiditySweep ∧ 0 ≤ structureConfirmation ∧
    0 ≤ entryZoneQuality ∧ 0 ≤ premiumDiscount ∧ 0 ≤ volumeOpenInterest ∧
    0 ≤ fundingBtcCondition := by norm_num
  sum_eq : higherTimeframeAlignment + liquiditySweep + structureConfirmation + entryZoneQuality
    + premiumDiscount + volumeOpenInterest + fundingBtcCondition = 100 := by norm_num

structure StrategyConfig where
  version : String := "smc-v1.0.0"
  smc : SMC.SMCConfig := .standard
  weights : ScoreWeights := {}
  minimumScore : Int := 70
  strongScore : Int := 85
  minimumNetRewardToRisk : ℚ := 3
  signalLifetimeMinutes : Int := 90
  referenceBalance : ℚ := 10000
  riskFraction : ℚ := 1 / 100
  maximumDisplayLeverage : ℚ := 20
  liquidationBufferMultiplier : ℚ := 3 / 2
  stopAtrBuffer : ℚ := 1 / 10
  takeProfit1RMultiple : ℚ := 3 / 2
  minimumTurnover24hUsdt : ℚ := 10000000
  maximumSpreadBps : ℚ := 20
  minimumAtrPercent : ℚ := 1 / 1000
  maximumAtrPercent : ℚ := 15 / 100
  volumeConfirmationRatio : ℚ := 1
  openInterestConfirmationRatio : ℚ := 0
  crowdedFundingRate : ℚ := 1 / 1000
  btcReturnWarningThreshold : ℚ := 2 / 100
  btcTrueRangeWarningRatio : ℚ := 5 / 2
  version_nonempty : version ≠ "" := by decide
  minimumScore_range : 0 ≤ minimumScore ∧ minimumScore ≤ 100 := by norm_num
  strongScore_range : minimumScore ≤ strongScore ∧ strongScore ≤ 100 := by norm_num
  minimumNetRewardToRisk_pos : 0 < minimumNetRewardToRisk := by norm_num
  signalLifetimeMinutes_pos : 1 ≤ signalLifetimeMinutes := by norm_num
  referenceBalance_pos : 0 < referenceBalance := by norm_num
  riskFraction_range : 0 < riskFraction ∧ riskFraction < 1 := by norm_num
  maximumDisplayLeverage_ge : 1 ≤ maximumDisplayLeverage := by norm_num
  liquidationBufferMultiplier_gt : 1 < liquidationBufferMultiplier := by norm_num
  stopAtrBuffer_nonneg : 0 ≤ stopAtrBuffer := by norm_num

/-- `StrategyConfig()`. -/
def StrategyConfig.standard : StrategyConfig where
  stopAtrBuffer_nonneg := SMC.SMCConfig.standard.equalLevelAtrTolerance_nonneg

def StrategyConfig.riskAmount (config : StrategyConfig) : ℚ :=
  config.referenceBalance * config.riskFraction

theorem StrategyConfig.riskAmount_pos (config : StrategyConfig) : 0 < config.riskAmount :=
  mul_pos config.referenceBalance_pos config.riskFraction_range.1

end StructurePulse.Strategy
