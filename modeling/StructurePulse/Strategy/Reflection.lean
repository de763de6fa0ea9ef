import StructurePulse.SMC.Mirror
import StructurePulse.Strategy.Acceptance
import StructurePulse.Strategy.Decimals

/-!
# Reflected inputs

The reflection of an input about a price exchanges the two sides of the market. Each
reading of the evaluator is the same for one side of the input and for the other side of
its reflection, so the two candidates are images of each other.
-/

namespace StructurePulse.SMC
set_option autoImplicit false

section Reflection
variable (centre : ℚ)

/-- The reflection of a price is `centre - price`. -/
def Swing.reflect (swing : Swing) : Swing := { swing.mirror with price := centre - swing.price }

def StructureBreak.reflect (event : StructureBreak) : StructureBreak :=
  { event.mirror with
    closePrice := centre - event.closePrice
    brokenSwing := event.brokenSwing.reflect centre }

def LiquiditySweep.reflect (sweep : LiquiditySweep) : LiquiditySweep :=
  { sweep.mirror with
    level := centre - sweep.level
    extremePrice := centre - sweep.extremePrice
    sweptSwing := sweep.sweptSwing.reflect centre }

def EqualLevel.reflect (level : EqualLevel) : EqualLevel :=
  { level.mirror with
    firstSwing := level.firstSwing.reflect centre
    secondSwing := level.secondSwing.reflect centre
    price := centre - level.price }

def FairValueGap.reflect (gap : FairValueGap) : FairValueGap :=
  { gap.mirror with
    lowerPrice := centre - gap.upperPrice
    upperPrice := centre - gap.lowerPrice }

def OrderBlock.reflect (block : OrderBlock) : OrderBlock :=
  { block.mirror with
    lowerPrice := centre - block.upperPrice
    upperPrice := centre - block.lowerPrice
    breakEvent := block.breakEvent.reflect centre }

def DealingRange.reflect (dealingRange : DealingRange) : DealingRange where
  lowSwing := dealingRange.highSwing.reflect centre
  highSwing := dealingRange.lowSwing.reflect centre
  lowPrice := centre - dealingRange.highPrice
  highPrice := centre - dealingRange.lowPrice
  midpoint := centre - dealingRange.midpoint

/-- The distances, `atr` among them, stay as they are. -/
def SMCAnalysis.reflect (analysis : SMCAnalysis) : SMCAnalysis where
  symbol := analysis.symbol
  timeframe := analysis.timeframe
  candleCount := analysis.candleCount
  atr := analysis.atr
  swings := analysis.swings.map (Swing.reflect centre)
  structureBreaks := analysis.structureBreaks.map (StructureBreak.reflect centre)
  liquiditySweeps := analysis.liquiditySweeps.map (LiquiditySweep.reflect centre)
  equalLevels := analysis.equalLevels.map (EqualLevel.reflect centre)
  displacements := analysis.displacements.map Displacement.mirror
  fairValueGaps := analysis.fairValueGaps.map (FairValueGap.reflect centre)
  orderBlocks := analysis.orderBlocks.map (OrderBlock.reflect centre)
  dealingRange := analysis.dealingRange.map (DealingRange.reflect centre)
  priceLocation := analysis.priceLocation.map PriceLocation.mirror

end Reflection

end StructurePulse.SMC

namespace StructurePulse.Strategy
open Library SMC
set_option autoImplicit false

section Inputs
variable (centre : ℚ)

def StrategyMarketContext.reflect (market : StrategyMarketContext) : StrategyMarketContext :=
  { market with
    currentPrice := centre - market.currentPrice
    fundingRate := market.fundingRate.map Neg.neg }

def StrategyInput.reflect (input : StrategyInput) : StrategyInput :=
  { input with
    analysis4h := input.analysis4h.reflect centre
    analysis1h := input.analysis1h.reflect centre
    analysis15m := input.analysis15m.reflect centre
    analysis5m := input.analysis5m.reflect centre
    market := input.market.reflect centre }

def EntryZone.reflect (zone : EntryZone) : EntryZone :=
  { zone with lower := centre - zone.upper, upper := centre - zone.lower }

end Inputs

section Readings
variable {centre : ℚ} {analysis setup context : SMCAnalysis} {direction : TradeDirection}

theorem smcDirection_opposite (direction : TradeDirection) :
    smcDirection direction.opposite = (smcDirection direction).opposite := by
  cases direction <;> rfl

theorem desiredLocation_opposite (direction : TradeDirection) :
    desiredLocation direction.opposite = (desiredLocation direction).mirror := by
  cases direction <;> rfl

@[simp] theorem PriceLocation.mirror_inj {a b : PriceLocation} : a.mirror = b.mirror ↔ a = b := by
  cases a <;> cases b <;> decide

theorem latestBreakDirection_reflect :
    latestBreakDirection (analysis.reflect centre) =
      (latestBreakDirection analysis).map Direction.opposite := by
  unfold latestBreakDirection SMCAnalysis.reflect
  rw [List.getLast?_map, Option.map_map, Option.map_map]
  rfl

/-- The latest record of a side. -/
theorem find?_reflect {α : Type} {image : α → α} {side : α → Direction}
    (hside : ∀ x, side (image x) = (side x).opposite) (direction : Direction) (values : List α) :
    (values.map image).reverse.find? (fun x => decide (side x = direction.opposite)) =
      (values.reverse.find? fun x => decide (side x = direction)).map image := by
  rw [← List.map_reverse, List.find?_map]
  simp only [Function.comp_def, hside, Direction.opposite_inj]

theorem latestSweep_reflect (input : StrategyInput) :
    latestSweep (input.reflect centre) direction.opposite =
      (latestSweep input direction).map (LiquiditySweep.reflect centre) := by
  unfold latestSweep
  rw [smcDirection_opposite]
  exact @find?_reflect _ (LiquiditySweep.reflect centre) LiquiditySweep.direction (fun _ => rfl) _ _

theorem latestBreak_reflect :
    latestBreak direction.opposite (analysis.reflect centre) =
      (latestBreak direction analysis).map (StructureBreak.reflect centre) := by
  unfold latestBreak
  rw [smcDirection_opposite]
  exact @find?_reflect _ (StructureBreak.reflect centre) StructureBreak.direction (fun _ => rfl) _ _

theorem hasDisplacement_reflect (input : StrategyInput) :
    hasDisplacement (input.reflect centre) direction.opposite = hasDisplacement input direction := by
  unfold hasDisplacement
  rw [show (input.reflect centre).analysis15m = input.analysis15m.reflect centre from rfl,
    latestBreak_reflect]
  cases latestBreak direction input.analysis15m with
  | none => rfl
  | some setup =>
    simp only [Option.map_some, SMCAnalysis.reflect, List.any_map, Function.comp_def,
      smcDirection_opposite]
    simp only [Displacement.mirror, StructureBreak.reflect, StructureBreak.mirror,
      Direction.opposite_inj]

theorem countHigher_reflect (input : StrategyInput) {test test' : Option Direction → Bool}
    (htest : ∀ found, test' (found.map Direction.opposite) = test found) :
    countHigher (input.reflect centre) test' = countHigher input test := by
  unfold countHigher higherTimeframeDirections
  simp only [StrategyInput.reflect, latestBreakDirection_reflect, htest]

theorem alignedCount_reflect (input : StrategyInput) :
    alignedCount (input.reflect centre) direction.opposite = alignedCount input direction := by
  refine countHigher_reflect input fun found => ?_
  rw [smcDirection_opposite]
  cases found <;> simp

theorem opposingCount_reflect (input : StrategyInput) :
    opposingCount (input.reflect centre) direction.opposite = opposingCount input direction := by
  refine countHigher_reflect input fun found => ?_
  rw [smcDirection_opposite]
  cases found <;> simp

theorem locationMatches_reflect (input : StrategyInput) :
    locationMatches (input.reflect centre) direction.opposite = locationMatches input direction := by
  have hlocation : ∀ analysis : SMCAnalysis,
      (analysis.reflect centre).priceLocation = some (desiredLocation direction.opposite) ↔
        analysis.priceLocation = some (desiredLocation direction) := by
    intro analysis
    rw [desiredLocation_opposite]
    change analysis.priceLocation.map PriceLocation.mirror = _ ↔ _
    cases analysis.priceLocation <;> simp
  unfold locationMatches
  exact decide_eq_decide.mpr (or_congr (hlocation _) (hlocation _))

/-- A rate is crowded for one side exactly when its negative is for the other. -/
theorem fundingIsCrowded_opposite (fundingRate : Option ℚ) (threshold : ℚ) :
    fundingIsCrowded direction.opposite (fundingRate.map Neg.neg) threshold =
      fundingIsCrowded direction fundingRate threshold := by
  cases fundingRate with
  | none => rfl
  | some rate =>
    cases direction with
    | long => simp [fundingIsCrowded, TradeDirection.opposite]
    | short =>
      simp only [fundingIsCrowded, TradeDirection.opposite, Option.map_some]
      exact decide_eq_decide.mpr le_neg

end Readings

section Zones
variable {centre : ℚ} {analysis : SMCAnalysis} {direction : TradeDirection}

theorem entryZones_reflect (direction : Direction) :
    entryZones (analysis.reflect centre) direction.opposite =
      (entryZones analysis direction).map (EntryZone.reflect centre) := by
  unfold entryZones SMCAnalysis.reflect
  rw [List.map_append, List.map_map, List.map_map, List.filter_map, List.filter_map, List.map_map,
    List.map_map]
  simp only [Function.comp_def, FairValueGap.reflect, FairValueGap.mirror, OrderBlock.reflect,
    OrderBlock.mirror, Direction.opposite_inj]
  rfl

theorem latestEntryZone_reflect (direction : Direction) :
    latestEntryZone (analysis.reflect centre) direction.opposite =
      (latestEntryZone analysis direction).map (EntryZone.reflect centre) := by
  unfold latestEntryZone
  rw [entryZones_reflect, List.foldl_map]
  change List.foldl _ (Option.map (EntryZone.reflect centre) none) _ = _
  refine List.foldl_hom (Option.map (EntryZone.reflect centre)) fun best zone => ?_
  cases best with
  | none => rfl
  | some other =>
    by_cases hlater : other.createdIndex < zone.createdIndex
    · simp [EntryZone.reflect, hlater]
    · simp [EntryZone.reflect, hlater]

/-- The targets of a side, in the order in which they are compared. -/
theorem liquidityTarget_reflect (setup context : SMCAnalysis) (zone : EntryZone) :
    liquidityTarget (setup.reflect centre) (context.reflect centre) direction.opposite
        (zone.reflect centre) =
      (liquidityTarget setup context direction zone).map (centre - ·) := by
  have hanti : Antitone fun price : ℚ => centre - price := fun _ _ h => sub_le_sub_left h centre
  have hentry : ((zone.reflect centre).lower + (zone.reflect centre).upper) / 2 =
      centre - (zone.lower + zone.upper) / 2 := by
    simp only [EntryZone.reflect]
    ring
  have hswings : (setup.reflect centre).swings ++ (context.reflect centre).swings =
      (setup.swings ++ context.swings).map (Swing.reflect centre) := List.map_append.symm
  unfold liquidityTarget
  simp only [hentry, hswings, List.filter_map, List.map_map]
  cases direction with
  | long =>
    simp only [TradeDirection.opposite]
    rw [← max?_map_of_antitone hanti, List.map_map]
    refine congrArg (fun swings : List Swing => (swings.map fun swing => centre - swing.price).max?)
      (List.filter_congr fun swing _ => decide_eq_decide.mpr (and_congr ?_ ?_))
    · change swing.kind.mirror = .low ↔ _
      cases swing.kind <;> simp [SwingKind.mirror]
    · exact sub_lt_sub_iff_left centre
  | short =>
    simp only [TradeDirection.opposite]
    rw [← min?_map_of_antitone hanti, List.map_map]
    refine congrArg (fun swings : List Swing => (swings.map fun swing => centre - swing.price).min?)
      (List.filter_congr fun swing _ => decide_eq_decide.mpr (and_congr ?_ ?_))
    · change swing.kind.mirror = .high ↔ _
      cases swing.kind <;> simp [SwingKind.mirror]
    · exact sub_lt_sub_iff_left centre

end Zones

section Components
variable (centre : ℚ) (input : StrategyInput) (direction : TradeDirection) (config : StrategyConfig)

/-- What a component has awarded, without its evidence. -/
def ScoreComponent.award (component : ScoreComponent) : ComponentName × Int × Int :=
  (component.name, component.awarded, component.maximum)

theorem scoreComponents_reflect :
    (scoreComponents (input.reflect centre) direction.opposite config).map ScoreComponent.award =
      (scoreComponents input direction config).map ScoreComponent.award := by
  have hbreak : (latestBreak direction.opposite (input.reflect centre).analysis15m).isSome =
      (latestBreak direction input.analysis15m).isSome := by
    rw [show (input.reflect centre).analysis15m = input.analysis15m.reflect centre from rfl,
      latestBreak_reflect, Option.isSome_map]
  have hzone : (latestEntryZone (input.reflect centre).analysis15m
        (smcDirection direction.opposite)).isSome =
      (latestEntryZone input.analysis15m (smcDirection direction)).isSome := by
    rw [show (input.reflect centre).analysis15m = input.analysis15m.reflect centre from rfl,
      smcDirection_opposite, latestEntryZone_reflect, Option.isSome_map]
  have hfunding : fundingIsCrowded direction.opposite (input.reflect centre).market.fundingRate
      config.crowdedFundingRate =
        fundingIsCrowded direction input.market.fundingRate config.crowdedFundingRate :=
    fundingIsCrowded_opposite _ _
  unfold scoreComponents
  simp only [List.map_cons, List.map_nil, ScoreComponent.award, alignedCount_reflect,
    opposingCount_reflect, latestSweep_reflect, Option.isSome_map, hasDisplacement_reflect, hbreak,
    hzone, locationMatches_reflect, hfunding]
  rfl

end Components

section Reasons
variable (input : StrategyInput) (direction : TradeDirection) (config : StrategyConfig)

/-- The reasons that depend on the side of the market and not on the levels themselves. -/
def sidedReasons : List SuppressionReason :=
  [.higherTimeframesOpposed, .missing15mStructureDisplacement, .missingEntryZone,
    .entryZoneNotRetested, .missing5mConfirmation, .atrUnavailable, .liquidityTargetUnavailable]

/-- Where `_evaluate_direction` finds them. -/
def foundReasons : List SuppressionReason :=
  (if opposingCount input direction = 2 then [.higherTimeframesOpposed] else []) ++
  (if hasDisplacement input direction then [] else [.missing15mStructureDisplacement]) ++
  (match latestEntryZone input.analysis15m (smcDirection direction) with
    | none => [.missingEntryZone]
    | some zone =>
      if zone.status ≠ .partiallyFilled ∧
          ¬(zone.lower ≤ input.market.currentPrice ∧ input.market.currentPrice ≤ zone.upper) then
        [.entryZoneNotRetested]
      else []) ++
  (if (latestBreak direction input.analysis5m).isNone then [.missing5mConfirmation] else []) ++
  match (latestEntryZone input.analysis15m (smcDirection direction)).map
      (planInput input direction config) with
  | some (.error reason) => [reason]
  | _ => []

theorem marketFilterReasons_unsided :
    ∀ reason ∈ marketFilterReasons input config, reason ∉ sidedReasons := by
  intro reason hreason
  unfold marketFilterReasons at hreason
  simp only [List.mem_append, List.mem_ite_nil_right, List.mem_singleton] at hreason
  rcases hreason with (⟨-, rfl⟩ | ⟨-, rfl⟩) | hreason
  · decide
  · decide
  · split at hreason
    · cases hreason
    · simp only [List.mem_append, List.mem_ite_nil_right, List.mem_singleton] at hreason
      rcases hreason with ⟨-, ⟨-, rfl⟩ | ⟨-, rfl⟩⟩
      · decide
      · decide

theorem mem_planOf_reasons {reason : SuppressionReason} (hsided : reason ∈ sidedReasons)
    (zone : EntryZone) :
    reason ∈ (planOf input direction config zone).2.2 ↔
      planInput input direction config zone = .error reason := by
  have hother : (∀ detail, reason ≠ .plan detail) ∧ reason ≠ .rewardToRiskBelowMinimum := by
    constructor
    · rintro detail rfl
      simp [sidedReasons] at hsided
    · rintro rfl
      simp [sidedReasons] at hsided
  unfold planOf
  cases planInput input direction config zone with
  | error other =>
    simp only [List.mem_singleton, Except.error.injEq]
    exact eq_comm
  | ok planned =>
    refine iff_of_false (fun hmem => ?_) (by simp)
    simp only at hmem
    split at hmem
    · obtain ⟨detail, -, heq⟩ := List.mem_map.mp hmem
      exact hother.1 detail heq.symm
    · exact hother.2 (List.mem_singleton.mp (List.mem_ite_nil_right.mp hmem).2)

theorem mem_dictValues_id {α : Type} [DecidableEq α] {xs : List α} {x : α} :
    x ∈ dictValues id xs ↔ x ∈ xs :=
  (dictValues_spec fun _ _ _ _ h => h).2 x

theorem mem_suppressionReasons {reason : SuppressionReason} (hsided : reason ∈ sidedReasons) :
    reason ∈ (evaluateDirection input direction config).suppressionReasons ↔
      reason ∈ foundReasons input direction config := by
  have hmarket : reason ∉ marketFilterReasons input config := fun h =>
    marketFilterReasons_unsided input config reason h hsided
  have hscore : reason ≠ .scoreBelowThreshold := by
    rintro rfl
    simp [sidedReasons] at hsided
  unfold evaluateDirection foundReasons
  simp only [mem_dictValues_id, List.mem_append]
  cases hzone : latestEntryZone input.analysis15m (smcDirection direction) with
  | none => simp [hmarket, hscore]
  | some zone =>
    simp only [mem_planOf_reasons input direction config hsided, Option.map_some]
    cases planInput input direction config zone with
    | error other => simp [hmarket, hscore, @eq_comm _ reason other]
    | ok planned => simp [hmarket, hscore]

end Reasons

section Plans
variable (centre : ℚ)

/-- What the planner is asked for the reflected input. -/
def TradePlanInput.reflect (planned : TradePlanInput) : TradePlanInput :=
  { planned with
    direction := planned.direction.opposite
    entryLower := centre - planned.entryUpper
    entryUpper := centre - planned.entryLower
    targetPrice := centre - planned.targetPrice }

namespace TradePlanInput
variable (planned : TradePlanInput)

@[simp] theorem plannedEntry_reflect :
    (planned.reflect centre).plannedEntry = centre - planned.plannedEntry := by
  simp only [plannedEntry, reflect]
  ring

@[simp] theorem stopLoss_reflect : (planned.reflect centre).stopLoss = centre - planned.stopLoss := by
  unfold stopLoss
  cases hdirection : planned.direction <;> simp only [reflect, hdirection, TradeDirection.opposite]
  · ring
  · ring

@[simp] theorem riskPerUnit_reflect :
    (planned.reflect centre).riskPerUnit = planned.riskPerUnit := by
  unfold riskPerUnit
  rw [plannedEntry_reflect, stopLoss_reflect]
  cases hdirection : planned.direction <;> simp only [reflect, hdirection, TradeDirection.opposite]
  · ring
  · ring

@[simp] theorem rewardPerUnit_reflect :
    (planned.reflect centre).rewardPerUnit = planned.rewardPerUnit := by
  unfold rewardPerUnit
  rw [plannedEntry_reflect]
  cases hdirection : planned.direction <;> simp only [reflect, hdirection, TradeDirection.opposite]
  · ring
  · ring

@[simp] theorem takeProfit1_reflect :
    (planned.reflect centre).takeProfit1 = centre - planned.takeProfit1 := by
  unfold takeProfit1
  rw [plannedEntry_reflect, riskPerUnit_reflect]
  cases hdirection : planned.direction <;> simp only [reflect, hdirection, TradeDirection.opposite]
  · ring
  · ring

/-- A fee is charged on prices, so only a fee of zero is the same on both sides. -/
theorem netRiskPerUnit_of_free {planned : TradePlanInput} (hfee : planned.feeRate = 0) :
    planned.netRiskPerUnit = planned.riskPerUnit := by
  unfold netRiskPerUnit entryFeePerUnit
  rw [hfee]
  ring

theorem netRewardPerUnit_of_free {planned : TradePlanInput} (hfee : planned.feeRate = 0) :
    planned.netRewardPerUnit = planned.rewardPerUnit := by
  unfold netRewardPerUnit entryFeePerUnit exitFeePerUnit
  rw [hfee]
  ring

theorem quantity_reflect {planned : TradePlanInput} (hfee : planned.feeRate = 0) :
    (planned.reflect centre).quantity = planned.quantity := by
  have himage : (planned.reflect centre).feeRate = 0 := hfee
  unfold quantity
  rw [netRiskPerUnit_of_free hfee, netRiskPerUnit_of_free himage, riskPerUnit_reflect]
  rfl

end TradePlanInput

/-- A plan and the plan of the reflected input. -/
structure MirrorPlans (centre : ℚ) (plan image : TradePlan) : Prop where
  entryLower : image.entryLower = centre - plan.entryUpper
  entryUpper : image.entryUpper = centre - plan.entryLower
  stopLoss : image.stopLoss = centre - plan.stopLoss
  takeProfit1 : image.takeProfit1 = centre - plan.takeProfit1
  takeProfit2 : image.takeProfit2 = centre - plan.takeProfit2
  quantity : image.quantity = plan.quantity
  grossRewardToRisk : image.grossRewardToRisk = plan.grossRewardToRisk
  netRewardToRisk : image.netRewardToRisk = plan.netRewardToRisk

theorem mirrorPlans_reflect {planned : TradePlanInput} (hfee : planned.feeRate = 0) :
    MirrorPlans centre planned.plan (planned.reflect centre).plan where
  entryLower := rfl
  entryUpper := rfl
  stopLoss := planned.stopLoss_reflect centre
  takeProfit1 := planned.takeProfit1_reflect centre
  takeProfit2 := rfl
  quantity := TradePlanInput.quantity_reflect centre hfee
  grossRewardToRisk := by
    simp only [TradePlanInput.plan, TradePlanInput.rewardPerUnit_reflect,
      TradePlanInput.riskPerUnit_reflect]
  netRewardToRisk := by
    have himage : (planned.reflect centre).feeRate = 0 := hfee
    simp only [TradePlanInput.plan]
    rw [TradePlanInput.netRewardPerUnit_of_free hfee, TradePlanInput.netRiskPerUnit_of_free hfee,
      TradePlanInput.netRewardPerUnit_of_free himage, TradePlanInput.netRiskPerUnit_of_free himage,
      TradePlanInput.rewardPerUnit_reflect, TradePlanInput.riskPerUnit_reflect]

variable (input : StrategyInput) (direction : TradeDirection) (config : StrategyConfig)

theorem planInput_reflect (zone : EntryZone) :
    planInput (input.reflect centre) direction.opposite config (zone.reflect centre) =
      (planInput input direction config zone).map (TradePlanInput.reflect centre) := by
  have htarget : liquidityTarget (input.reflect centre).analysis15m (input.reflect centre).analysis1h
      direction.opposite (zone.reflect centre) =
        (liquidityTarget input.analysis15m input.analysis1h direction zone).map (centre - ·) :=
    liquidityTarget_reflect _ _ _
  unfold planInput
  rw [htarget, show latestAtr (input.reflect centre).analysis15m = latestAtr input.analysis15m from rfl]
  cases latestAtr input.analysis15m with
  | none => rfl
  | some atr =>
    cases liquidityTarget input.analysis15m input.analysis1h direction zone with
    | none => rfl
    | some target => rfl

theorem foundReasons_reflect :
    foundReasons (input.reflect centre) direction.opposite config =
      foundReasons input direction config := by
  have hconfirmation : (latestBreak direction.opposite (input.reflect centre).analysis5m).isNone =
      (latestBreak direction input.analysis5m).isNone := by
    rw [show (input.reflect centre).analysis5m = input.analysis5m.reflect centre from rfl,
      latestBreak_reflect, Option.isNone_map]
  have hzone : latestEntryZone (input.reflect centre).analysis15m (smcDirection direction.opposite) =
      (latestEntryZone input.analysis15m (smcDirection direction)).map (EntryZone.reflect centre) := by
    rw [smcDirection_opposite]
    exact latestEntryZone_reflect _
  unfold foundReasons
  rw [opposingCount_reflect, hasDisplacement_reflect, hconfirmation, hzone]
  cases latestEntryZone input.analysis15m (smcDirection direction) with
  | none => rfl
  | some zone =>
    have hretest : ((zone.reflect centre).lower ≤ (input.reflect centre).market.currentPrice ∧
          (input.reflect centre).market.currentPrice ≤ (zone.reflect centre).upper) ↔
        zone.lower ≤ input.market.currentPrice ∧ input.market.currentPrice ≤ zone.upper := by
      change centre - zone.upper ≤ centre - input.market.currentPrice ∧
        centre - input.market.currentPrice ≤ centre - zone.lower ↔ _
      rw [sub_le_sub_iff_left, sub_le_sub_iff_left, and_comm]
    simp only [Option.map_some, hretest, planInput_reflect,
      show (zone.reflect centre).status = zone.status from rfl]
    cases planInput input direction config zone with
    | error reason => rfl
    | ok planned => rfl

theorem tradePlan_some {input : StrategyInput} {direction : TradeDirection} {config : StrategyConfig}
    {plan : TradePlan} (h : (evaluateDirection input direction config).tradePlan = some plan) :
    ∃ zone planned, latestEntryZone input.analysis15m (smcDirection direction) = some zone ∧
      planInput input direction config zone = .ok planned ∧ plan = planned.plan := by
  unfold evaluateDirection at h
  simp only at h
  cases hzone : latestEntryZone input.analysis15m (smcDirection direction) with
  | none =>
    rw [hzone] at h
    cases h
  | some zone =>
    rw [hzone] at h
    simp only [planOf] at h
    split at h
    · cases h
    · rename_i planned hplanned
      split at h
      · cases h
      · rename_i found details hfound
        cases h
        exact ⟨zone, planned, rfl, hplanned, (buildTradePlan_some hfound).2⟩

end Plans

section Candidates

/-- A candidate and the candidate of the other side of the reflected input. -/
structure MirrorImages (centre : ℚ) (market : StrategyMarketContext)
    (candidate image : EvaluatedCandidate) : Prop where
  direction : image.direction = candidate.direction.opposite
  components : image.components.map ScoreComponent.award =
    candidate.components.map ScoreComponent.award
  warnings : ∀ warning ∈ [CandidateWarning.crowdedFunding, .abnormalBtcMovement],
    warning ∈ image.warnings ↔ warning ∈ candidate.warnings
  reasons : ∀ reason ∈ sidedReasons,
    reason ∈ image.suppressionReasons ↔ reason ∈ candidate.suppressionReasons
  plans : market.takerFeeRate = 0 → market.instrumentMinNotional = 0 →
    ∀ plan imagePlan, candidate.tradePlan = some plan → image.tradePlan = some imagePlan →
      MirrorPlans centre plan imagePlan

variable (centre : ℚ) (input : StrategyInput) (direction : TradeDirection) (config : StrategyConfig)

/-- Where `_evaluate_direction` finds the warnings about the market. -/
theorem mem_warnings : (.crowdedFunding ∈ (evaluateDirection input direction config).warnings ↔
      fundingIsCrowded direction input.market.fundingRate config.crowdedFundingRate = true) ∧
    (.abnormalBtcMovement ∈ (evaluateDirection input direction config).warnings ↔
      btcIsAbnormal input.market config = true) := by
  unfold evaluateDirection
  simp [mem_dictValues_id]

theorem evaluateDirection_reflect :
    MirrorImages centre input.market (evaluateDirection input direction config)
      (evaluateDirection (input.reflect centre) direction.opposite config) where
  direction := rfl
  components := scoreComponents_reflect centre input direction config
  warnings := by
    intro warning hwarning
    obtain ⟨hcrowded, habnormal⟩ := mem_warnings input direction config
    obtain ⟨hcrowded', habnormal'⟩ := mem_warnings (input.reflect centre) direction.opposite config
    simp only [List.mem_cons, List.not_mem_nil, or_false] at hwarning
    rcases hwarning with rfl | rfl
    · rw [hcrowded, hcrowded', ← fundingIsCrowded_opposite input.market.fundingRate]
      rfl
    · rw [habnormal, habnormal']
      rfl
  reasons := by
    intro reason hsided
    rw [mem_suppressionReasons _ _ _ hsided, mem_suppressionReasons _ _ _ hsided,
      foundReasons_reflect]
  plans := by
    intro hfee _ plan imagePlan hplan himage
    obtain ⟨zone, planned, hzone, hplanned, rfl⟩ := tradePlan_some hplan
    obtain ⟨zone', planned', hzone', hplanned', rfl⟩ := tradePlan_some himage
    have hsame : zone' = zone.reflect centre := by
      rw [smcDirection_opposite] at hzone'
      have hreflected := hzone'.symm.trans (latestEntryZone_reflect _)
      rw [hzone] at hreflected
      exact Option.some.inj hreflected
    subst hsame
    rw [planInput_reflect, hplanned] at hplanned'
    cases hplanned'
    refine mirrorPlans_reflect centre ?_
    obtain ⟨atr, target, -, -, rfl⟩ := planInput_ok hplanned
    exact hfee

/-- The long candidate of an input and the short one of its reflection are images of each
other, and so are the short one and the long one. -/
theorem mirrored_evaluation :
    List.Forall₂ (MirrorImages centre input.market) (evaluateCandidates input config)
      (evaluateCandidates (input.reflect centre) config).reverse :=
  .cons (evaluateDirection_reflect centre input .long config)
    (.cons (evaluateDirection_reflect centre input .short config) .nil)

/-- A long setup that pays no fees. -/
def freeInput : StrategyInput :=
  { sampleStrategyInput 90 92 130 5 with
    market := { (sampleStrategyInput 90 92 130 5).market with takerFeeRate := 0 } }

theorem mirrored_evaluation_sample : ∃ plan imagePlan,
    (evaluateDirection freeInput .long .standard).tradePlan = some plan ∧
      (evaluateDirection (freeInput.reflect 200) .short .standard).tradePlan = some imagePlan ∧
      MirrorPlans 200 plan imagePlan := by
  obtain ⟨plan, hplan⟩ := Option.isSome_iff_exists.mp
    (show (evaluateDirection freeInput .long .standard).tradePlan.isSome = true by decide +kernel)
  obtain ⟨imagePlan, himage⟩ := Option.isSome_iff_exists.mp
    (show (evaluateDirection (freeInput.reflect 200) .short .standard).tradePlan.isSome = true by
      decide +kernel)
  have hboth := mirrored_evaluation 200 freeInput .standard
  change List.Forall₂ _ [_, _] [_, _] at hboth
  rw [List.forall₂_cons] at hboth
  exact ⟨plan, imagePlan, hplan, himage, hboth.1.plans rfl rfl plan imagePlan hplan himage⟩

/-- The average of 14 true ranges whose sum is 10, and contracts sold whole. -/
def wholeContracts : StrategyInput :=
  { sampleStrategyInput (199 / 2) (201 / 2) 110 (Library.defaultContext (10 / 14)) with
    market := { freeInput.market with instrumentQuantityStep := 1 } }

/-- With 28 digits the risk to a stop below the zone and to one above it round differently:
the long buys 175 contracts and its reflection sells 174. -/
theorem rounding_breaks_mirror : ∃ plan imagePlan,
    Rounded.tradePlan Library.defaultContext wholeContracts .long .standard = some plan ∧
      Rounded.tradePlan Library.defaultContext (wholeContracts.reflect 200) .short .standard =
        some imagePlan ∧
      plan.quantity = 175 ∧ imagePlan.quantity = 174 ∧ ¬ MirrorPlans 200 plan imagePlan := by
  have hlong : (Rounded.tradePlan Library.defaultContext wholeContracts .long .standard).map
      TradePlan.quantity = some 175 := by decide +kernel
  have hshort : (Rounded.tradePlan Library.defaultContext (wholeContracts.reflect 200) .short
      .standard).map TradePlan.quantity = some 174 := by decide +kernel
  obtain ⟨plan, hplan, hquantity⟩ := Option.map_eq_some_iff.mp hlong
  obtain ⟨imagePlan, himage, hquantity'⟩ := Option.map_eq_some_iff.mp hshort
  refine ⟨plan, imagePlan, hplan, himage, hquantity, hquantity', ?_⟩
  intro hmirror
  have hsame := hmirror.quantity
  rw [hquantity, hquantity'] at hsame
  exact absurd hsame (by decide)

end Candidates

end StructurePulse.Strategy
