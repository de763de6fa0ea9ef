import Mathlib.Data.Rat.Defs
import Mathlib.Tactic.NormNum

/-! Configuration of the SMC core. The checks of `__post_init__` are fields, so a
configuration that the source refuses to construct does not exist here. -/

namespace StructurePulse.SMC
set_option autoImplicit false

inductive Timeframe where
  | m5
  | m15
  | h1
  | h4
  deriving Repr, DecidableEq

structure SMCConfig where
  atrPeriod : Nat := 14
  rangeAveragePeriod : Nat := 20
  swingLookback5m : Nat := 3
  swingLookback15m : Nat := 3
  swingLookback1h : Nat := 1
  swingLookback4h : Nat := 1
  equalLevelAtrTolerance : ℚ := 1 / 10
  equalLevelMaxSeparation : Nat := 100
  fvgMinAtrRatio : ℚ := 1 / 10
  displacementBodyAtrRatio : ℚ := 1
  displacementRangeAverageRatio : ℚ := 3 / 2
  displacementCloseFraction : ℚ := 7 / 10
  orderBlockSearchLookback : Nat := 20
  atrPeriod_pos : 1 ≤ atrPeriod := by norm_num
  rangeAveragePeriod_pos : 1 ≤ rangeAveragePeriod := by norm_num
  swingLookback5m_pos : 1 ≤ swingLookback5m := by norm_num
  swingLookback15m_pos : 1 ≤ swingLookback15m := by norm_num
  swingLookback1h_pos : 1 ≤ swingLookback1h := by norm_num
  swingLookback4h_pos : 1 ≤ swingLookback4h := by norm_num
  equalLevelAtrTolerance_nonneg : 0 ≤ equalLevelAtrTolerance := by norm_num
  equalLevelMaxSeparation_pos : 1 ≤ equalLevelMaxSeparation := by norm_num
  fvgMinAtrRatio_nonneg : 0 ≤ fvgMinAtrRatio := by norm_num
  displacementBodyAtrRatio_nonneg : 0 ≤ displacementBodyAtrRatio := by norm_num
  displacementRangeAverageRatio_nonneg : 0 ≤ displacementRangeAverageRatio := by norm_num
  displacementCloseFraction_range :
    0 ≤ displacementCloseFraction ∧ displacementCloseFraction ≤ 1 := by norm_num
  orderBlockSearchLookback_pos : 1 ≤ orderBlockSearchLookback := by norm_num

/-- `SMCConfig()`. -/
def SMCConfig.standard : SMCConfig := {}

def SMCConfig.swingLookback (config : SMCConfig) : Timeframe → Nat
  | .m5 => config.swingLookback5m
  | .m15 => config.swingLookback15m
  | .h1 => config.swingLookback1h
  | .h4 => config.swingLookback4h

end StructurePulse.SMC
