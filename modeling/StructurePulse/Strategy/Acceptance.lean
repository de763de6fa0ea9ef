import StructurePulse.Strategy.Evaluator
import Mathlib.Algebra.Order.BigOperators.Group.List

/-!
# What an accepted candidate is

A candidate is accepted when no branch of the evaluation finds a reason against it.
`accepted_spec` turns that into what every branch has found; the order of the levels
follows from it and from what the planner guarantees.
-/

namespace StructurePulse.Strategy
open Library SMC
set_option autoImplicit false

section Scores
variable (input : StrategyInput) (direction : TradeDirection) (config : StrategyConfig)

theorem half_le {weight : Int} (h : 0 ≤ weight) : weight / 2 ≤ weight := by
  omega

theorem mul_confirmations_le {weight : Int} (h : 0 ≤ weight) (a b : Bool) :
    weight * ((a.toNat : Int) + (b.toNat : Int)) / 2 ≤ weight := by
  cases a <;> cases b <;> simp only [Bool.toNat_false, Bool.toNat_true] <;> omega

theorem awarded_le_maximum :
    ∀ component ∈ scoreComponents input direction config,
      component.awarded ≤ component.maximum := by
  obtain ⟨halignment, hsweep, hstructure, hzone, hlocation, hvolume, hfunding⟩ :=
    config.weights.nonneg
  intro component hcomponent
  unfold scoreComponents at hcomponent
  simp only [List.mem_cons, List.not_mem_nil, or_false] at hcomponent
  rcases hcomponent with rfl | rfl | rfl | rfl | rfl | rfl | rfl
  · simp only
    split_ifs
    · exact le_refl _
    · exact half_le halignment
    · exact halignment
  · simp only
    split_ifs
    · exact le_refl _
    · exact hsweep
  · simp only
    split_ifs
    · exact le_refl _
    · exact half_le hstructure
    · exact hstructure
  · simp only
    split_ifs
    · exact le_refl _
    · exact hzone
  · simp only
    split_ifs
    · exact le_refl _
    · exact hlocation
  · exact mul_confirmations_le hvolume _ _
  · simp only
    split_ifs
    · exact hfunding
    · exact le_refl _

theorem sum_maximum :
    ((scoreComponents input direction config).map ScoreComponent.maximum).sum = 100 := by
  have hsum := config.weights.sum_eq
  unfold scoreComponents
  simp only [List.map_cons, List.map_nil, List.sum_cons, List.sum_nil]
  omega

theorem score_le :
    ((scoreComponents input direction config).map ScoreComponent.awarded).sum ≤ 100 := by
  rw [← sum_maximum input direction config]
  exact List.sum_le_sum (awarded_le_maximum input direction config)

end Scores

section Accepted
variable {input : StrategyInput} {direction : TradeDirection} {config : StrategyConfig}

/-- What every branch of the evaluation found for an accepted candidate. -/
structure AcceptedBy (input : StrategyInput) (direction : TradeDirection) (config : StrategyConfig)
    (zone : EntryZone) (atr target : ℚ) (planned : TradePlanInput) : Prop where
  found : latestEntryZone input.analysis15m (smcDirection direction) = some zone
  measured : latestAtr input.analysis15m = some atr
  targeted : liquidityTarget input.analysis15m input.analysis1h direction zone = some target
  asked : planned = {
    direction := direction
    entryLower := zone.lower
    entryUpper := zone.upper
    atr := atr
    targetPrice := target
    feeRate := input.market.takerFeeRate
    instrumentMaxLeverage := input.market.instrumentMaxLeverage
    quantityStep := input.market.instrumentQuantityStep
    minimumNotional := input.market.instrumentMinNotional
    config := config }
  sized : Sized planned
  plan : (evaluateDirection input direction config).tradePlan = some planned.plan
  reward : config.minimumNetRewardToRisk ≤ planned.plan.netRewardToRisk
  score : config.minimumScore ≤ (evaluateDirection input direction config).score

/-- A zone whose plan adds no reason has a plan with enough reward. -/
theorem planOf_unsuppressed {zone : EntryZone} (h : (planOf input direction config zone).2.2 = []) :
    ∃ planned, planInput input direction config zone = .ok planned ∧ Sized planned ∧
      (planOf input direction config zone).1 = some planned.plan ∧
        config.minimumNetRewardToRisk ≤ planned.plan.netRewardToRisk := by
  unfold planOf at h ⊢
  split at h
  · cases h
  · rename_i planned hplanned
    split at h
    · rename_i details hnone
      have hreason := List.map_eq_nil_iff.mp h
      rw [hreason] at hnone
      exfalso
      revert hnone
      unfold buildTradePlan
      split_ifs
      all_goals
        intro hnone
        cases hnone
    · rename_i plan details hsome
      obtain ⟨hsized, rfl⟩ := buildTradePlan_some hsome
      refine ⟨planned, hplanned, hsized, rfl, ?_⟩
      split at h
      · cases h
      · rename_i henough
        exact not_lt.mp henough

theorem planInput_ok {zone : EntryZone} {planned : TradePlanInput}
    (h : planInput input direction config zone = .ok planned) :
    ∃ atr target, latestAtr input.analysis15m = some atr ∧
      liquidityTarget input.analysis15m input.analysis1h direction zone = some target ∧
      planned = {
        direction := direction
        entryLower := zone.lower
        entryUpper := zone.upper
        atr := atr
        targetPrice := target
        feeRate := input.market.takerFeeRate
        instrumentMaxLeverage := input.market.instrumentMaxLeverage
        quantityStep := input.market.instrumentQuantityStep
        minimumNotional := input.market.instrumentMinNotional
        config := config } := by
  unfold planInput at h
  split at h
  · cases h
  · cases h
  · rename_i atr target hatr htarget
    cases h
    exact ⟨atr, target, hatr, htarget, rfl⟩

theorem eq_nil_of_accepted {reasons : List SuppressionReason}
    (h : (if reasons.isEmpty then CandidateStatus.accepted else .suppressed) = .accepted) :
    reasons = [] := by
  by_cases hempty : reasons.isEmpty = true
  · exact List.isEmpty_iff.mp hempty
  · rw [if_neg hempty] at h
    cases h

theorem accepted_spec (h : (evaluateDirection input direction config).status = .accepted) :
    ∃ zone atr target planned, AcceptedBy input direction config zone atr target planned := by
  have hreasons := eq_nil_of_accepted h
  simp only [List.append_eq_nil_iff] at hreasons
  obtain ⟨⟨⟨⟨⟨-, hzone⟩, -⟩, -⟩, hplan⟩, hscore⟩ := hreasons
  cases hfound : latestEntryZone input.analysis15m (smcDirection direction) with
  | none =>
    rw [hfound] at hzone
    cases hzone
  | some zone =>
    rw [hfound] at hplan
    obtain ⟨planned, hplanned, hsized, hsome, hreward⟩ := planOf_unsuppressed hplan
    obtain ⟨atr, target, hatr, htarget, heq⟩ := planInput_ok hplanned
    refine ⟨zone, atr, target, planned, hfound, hatr, htarget, heq, hsized, ?_, hreward, ?_⟩
    · unfold evaluateDirection
      rw [hfound]
      exact hsome
    · by_contra hlow
      have hbelow : ((scoreComponents input direction config).map ScoreComponent.awarded).sum <
          config.minimumScore := not_le.mp hlow
      rw [if_pos hbelow] at hscore
      cases hscore

end Accepted

section Levels
variable {input : TradePlanInput}

/-- Stop, zone and targets follow each other strictly in the direction of the trade. -/
def LevelsOrdered (direction : TradeDirection) (plan : TradePlan) : Prop :=
  match direction with
  | .long => plan.stopLoss < plan.entryLower ∧ plan.entryLower < plan.plannedEntry ∧
      plan.plannedEntry < plan.entryUpper ∧ plan.entryUpper < plan.takeProfit1 ∧
      plan.takeProfit1 < plan.takeProfit2
  | .short => plan.takeProfit2 < plan.takeProfit1 ∧ plan.takeProfit1 < plan.entryLower ∧
      plan.entryLower < plan.plannedEntry ∧ plan.plannedEntry < plan.entryUpper ∧
      plan.entryUpper < plan.stopLoss

/-- A bound on the reward after fees is one on the reward before fees. -/
theorem Sized.reward_ge (h : Sized input) (hfee : 0 ≤ input.feeRate) {multiple : ℚ}
    (hmultiple : 0 < multiple) (hnet : multiple ≤ input.plan.netRewardToRisk) :
    multiple * input.riskPerUnit ≤ input.rewardPerUnit := by
  have hentryFee := mul_nonneg h.plannedEntry_pos.le hfee
  have hstopFee := mul_nonneg h.stopLoss_pos.le hfee
  have hreward := h.rewardPerUnit_pos
  have hbound : multiple * input.netRiskPerUnit ≤ input.netRewardPerUnit :=
    (le_div_iff₀ (h.netRiskPerUnit_pos hfee)).mp hnet
  unfold TradePlanInput.netRiskPerUnit TradePlanInput.netRewardPerUnit
    TradePlanInput.entryFeePerUnit TradePlanInput.exitFeePerUnit at hbound
  cases hdirection : input.direction with
  | long =>
    have htarget : 0 ≤ input.targetPrice * input.feeRate := by
      refine mul_nonneg ?_ hfee
      have hentry := h.plannedEntry_pos
      simp only [TradePlanInput.rewardPerUnit, hdirection] at hreward
      linarith
    have hfees := mul_nonneg hmultiple.le (add_nonneg hentryFee hstopFee)
    linarith
  | short =>
    -- both sides of the bound carry the factor 1 + fee rate
    have hstop : input.stopLoss = input.plannedEntry + input.riskPerUnit := by
      simp only [TradePlanInput.riskPerUnit, hdirection]
      ring
    have htarget : input.targetPrice = input.plannedEntry - input.rewardPerUnit := by
      simp only [TradePlanInput.rewardPerUnit, hdirection]
      ring
    rw [hstop, htarget] at hbound
    have hfees := mul_nonneg hmultiple.le hentryFee
    have hscaled : multiple * input.riskPerUnit * (1 + input.feeRate) ≤
        input.rewardPerUnit * (1 + input.feeRate) := by
      linarith
    exact le_of_mul_le_mul_right hscaled (by linarith)

theorem Sized.levelsOrdered (h : Sized input) (hfee : 0 ≤ input.feeRate)
    (hbuffer : 0 < input.config.stopAtrBuffer) (hone : 1 ≤ input.config.takeProfit1RMultiple)
    (hbelow : input.config.takeProfit1RMultiple < input.config.minimumNetRewardToRisk)
    (hreward : input.config.minimumNetRewardToRisk ≤ input.plan.netRewardToRisk) :
    LevelsOrdered input.direction input.plan := by
  have hmargin := mul_pos h.atr_pos hbuffer
  have hrisk := h.riskPerUnit_pos
  obtain ⟨hlower, hupper⟩ := h.plannedEntry_mem
  have hfirst : input.riskPerUnit ≤ input.riskPerUnit * input.config.takeProfit1RMultiple :=
    le_mul_of_one_le_right hrisk.le hone
  have hsecond : input.riskPerUnit * input.config.takeProfit1RMultiple < input.rewardPerUnit := by
    refine lt_of_lt_of_le ?_ (h.reward_ge hfee input.config.minimumNetRewardToRisk_pos hreward)
    rw [mul_comm]
    exact mul_lt_mul_of_pos_right hbelow hrisk
  have hcentre : input.plannedEntry - input.entryLower = input.entryUpper - input.plannedEntry := by
    unfold TradePlanInput.plannedEntry
    ring
  unfold LevelsOrdered TradePlanInput.plan
  cases hdirection : input.direction with
  | long =>
    simp only [TradePlanInput.takeProfit1, TradePlanInput.riskPerUnit, TradePlanInput.rewardPerUnit,
      TradePlanInput.stopLoss, hdirection] at hfirst hsecond ⊢
    refine ⟨?_, hlower, hupper, ?_, ?_⟩ <;> linarith
  | short =>
    simp only [TradePlanInput.takeProfit1, TradePlanInput.riskPerUnit, TradePlanInput.rewardPerUnit,
      TradePlanInput.stopLoss, hdirection] at hfirst hsecond ⊢
    refine ⟨?_, ?_, hlower, hupper, ?_⟩ <;> linarith

end Levels

section Result

/-- What an accepted candidate promises. -/
structure Tradable (config : StrategyConfig) (candidate : EvaluatedCandidate) (plan : TradePlan) :
    Prop where
  present : candidate.tradePlan = some plan
  total : candidate.score = (candidate.components.map ScoreComponent.awarded).sum
  range : config.minimumScore ≤ candidate.score ∧ candidate.score ≤ 100
  capped : ∀ component ∈ candidate.components, component.awarded ≤ component.maximum
  reward : config.minimumNetRewardToRisk ≤ plan.netRewardToRisk
  ordered : LevelsOrdered candidate.direction plan

/-- Every accepted candidate is tradable as stated. -/
theorem accepted_candidate_tradable (input : StrategyInput) (direction : TradeDirection)
    (config : StrategyConfig) (hbuffer : 0 < config.stopAtrBuffer)
    (hone : 1 ≤ config.takeProfit1RMultiple)
    (hbelow : config.takeProfit1RMultiple < config.minimumNetRewardToRisk)
    (hfee : 0 ≤ input.market.takerFeeRate)
    (haccepted : (evaluateDirection input direction config).status = .accepted) :
    ∃ plan, Tradable config (evaluateDirection input direction config) plan := by
  obtain ⟨zone, atr, target, planned, h⟩ := accepted_spec haccepted
  obtain rfl := h.asked
  refine ⟨_, h.plan, rfl, ⟨h.score, score_le input direction config⟩, ?_, h.reward, ?_⟩
  · exact awarded_le_maximum input direction config
  · exact h.sized.levelsOrdered hfee hbuffer hone hbelow h.reward

end Result

section Sample

def sampleSwing (kind : SwingKind) (price : ℚ) (index : Nat) : Swing where
  kind := kind
  index := index
  confirmationIndex := index + 1
  time := 0
  price := price

/-- A bullish analysis with a retested gap as its zone. -/
def sampleAnalysis (timeframe : Timeframe) (lower upper target atr : ℚ) : SMCAnalysis where
  symbol := "BTCUSDT"
  timeframe := timeframe
  candleCount := 100
  atr := [none, some atr]
  swings := [sampleSwing .high 100 2, sampleSwing .high target 6]
  structureBreaks := [{
    kind := .bos
    direction := .bullish
    index := 8
    time := 0
    closePrice := 105
    brokenSwing := sampleSwing .high 100 2
    priorTrend := some .bullish }]
  liquiditySweeps := [{
    direction := .bullish
    index := 7
    time := 0
    level := 90
    extremePrice := 89
    sweptSwing := sampleSwing .low 80 1 }]
  equalLevels := []
  displacements := [{
    direction := .bullish
    index := 8
    time := 0
    bodySize := 8
    rangeSize := 10
    atr := atr
    averageRange := 4 }]
  fairValueGaps := [{
    direction := .bullish
    startIndex := 6
    createdIndex := 8
    createdAt := 0
    lowerPrice := lower
    upperPrice := upper
    status := .partiallyFilled
    firstTouchIndex := some 9 }]
  orderBlocks := []
  dealingRange := none
  priceLocation := some .discount

/-- A long setup in which every component is awarded. -/
def sampleStrategyInput (lower upper target atr : ℚ) : StrategyInput where
  symbol := "BTCUSDT"
  analyzedAt := 0
  analysis4h := sampleAnalysis .h4 lower upper target atr
  analysis1h := sampleAnalysis .h1 lower upper target atr
  analysis15m := sampleAnalysis .m15 lower upper target atr
  analysis5m := sampleAnalysis .m5 lower upper target atr
  market := {
    currentPrice := upper
    volumeRatio := some (6 / 5)
    openInterestChangeRatio := some (1 / 50)
    fundingRate := some 0
    spreadBps := some 5
    turnover24hUsdt := some 100000000
    btc5mReturn := some (1 / 1000)
    btcTrueRangeAtrRatio := some 1 }

theorem accepted_candidate_tradable_sample :
    ∃ plan, Tradable .standard
      (evaluateDirection (sampleStrategyInput 90 92 130 5) .long .standard) plan :=
  accepted_candidate_tradable (sampleStrategyInput 90 92 130 5) .long .standard (by decide +kernel)
    (by decide +kernel) (by decide +kernel) (by decide +kernel) (by decide +kernel)

end Sample

end StructurePulse.Strategy
