import StructurePulse.Library.Rescalings
import StructurePulse.SMC.Analysis
import Mathlib.Data.List.GetD

/-!
# Prices in other units

A series may quote its prices in other units or from another origin. The detectors compare
prices with prices and distances with distances, so the whole report is quoted in the new
units and nothing else of it changes.
-/

namespace StructurePulse.SMC
open Library
set_option autoImplicit false

variable (units : Rescaling ℚ)

section Rescale

def Candle.rescale (candle : Candle) : Candle where
  symbol := candle.symbol
  timeframe := candle.timeframe
  openTime := candle.openTime
  closeTime := candle.closeTime
  openPrice := units.position candle.openPrice
  highPrice := units.position candle.highPrice
  lowPrice := units.position candle.lowPrice
  closePrice := units.position candle.closePrice
  volume := candle.volume
  openTime_lt := candle.openTime_lt
  low_le_high := units.position_le.mpr candle.low_le_high
  low_le_body := by
    rw [← units.position_min]
    exact units.position_le.mpr candle.low_le_body
  body_le_high := by
    rw [← units.position_max]
    exact units.position_le.mpr candle.body_le_high
  volume_nonneg := candle.volume_nonneg

def Swing.rescale (swing : Swing) : Swing :=
  { swing with price := units.position swing.price }

def StructureBreak.rescale (event : StructureBreak) : StructureBreak :=
  { event with
    closePrice := units.position event.closePrice
    brokenSwing := event.brokenSwing.rescale units }

def LiquiditySweep.rescale (sweep : LiquiditySweep) : LiquiditySweep :=
  { sweep with
    level := units.position sweep.level
    extremePrice := units.position sweep.extremePrice
    sweptSwing := sweep.sweptSwing.rescale units }

def EqualLevel.rescale (level : EqualLevel) : EqualLevel :=
  { level with
    firstSwing := level.firstSwing.rescale units
    secondSwing := level.secondSwing.rescale units
    price := units.position level.price
    tolerance := units.distance level.tolerance }

def Displacement.rescale (event : Displacement) : Displacement :=
  { event with
    bodySize := units.distance event.bodySize
    rangeSize := units.distance event.rangeSize
    atr := units.distance event.atr
    averageRange := units.distance event.averageRange }

def FairValueGap.rescale (gap : FairValueGap) : FairValueGap :=
  { gap with
    lowerPrice := units.position gap.lowerPrice
    upperPrice := units.position gap.upperPrice }

def OrderBlock.rescale (block : OrderBlock) : OrderBlock :=
  { block with
    lowerPrice := units.position block.lowerPrice
    upperPrice := units.position block.upperPrice
    breakEvent := block.breakEvent.rescale units }

def DealingRange.rescale (dealingRange : DealingRange) : DealingRange where
  lowSwing := dealingRange.lowSwing.rescale units
  highSwing := dealingRange.highSwing.rescale units
  lowPrice := units.position dealingRange.lowPrice
  highPrice := units.position dealingRange.highPrice
  midpoint := units.position dealingRange.midpoint

def SMCAnalysis.rescale (analysis : SMCAnalysis) : SMCAnalysis :=
  { analysis with
    atr := analysis.atr.map (Option.map units.distance)
    swings := analysis.swings.map (Swing.rescale units)
    structureBreaks := analysis.structureBreaks.map (StructureBreak.rescale units)
    liquiditySweeps := analysis.liquiditySweeps.map (LiquiditySweep.rescale units)
    equalLevels := analysis.equalLevels.map (EqualLevel.rescale units)
    displacements := analysis.displacements.map (Displacement.rescale units)
    fairValueGaps := analysis.fairValueGaps.map (FairValueGap.rescale units)
    orderBlocks := analysis.orderBlocks.map (OrderBlock.rescale units)
    dealingRange := analysis.dealingRange.map (DealingRange.rescale units) }

end Rescale

section Candle
variable (candle : Candle)

@[simp] theorem Candle.rangeSize_rescale :
    (candle.rescale units).rangeSize = units.distance candle.rangeSize :=
  units.position_sub_position candle.highPrice candle.lowPrice

@[simp] theorem Candle.bodySize_rescale :
    (candle.rescale units).bodySize = units.distance candle.bodySize := by
  change |units.position candle.closePrice - units.position candle.openPrice| = _
  rw [units.position_sub_position, units.abs_distance]
  rfl

@[simp] theorem Candle.direction_rescale : (candle.rescale units).direction = candle.direction := by
  unfold Candle.direction
  simp only [Candle.rescale, gt_iff_lt, Rescaling.position_lt]

theorem closePosition_rescale (direction : Direction) :
    closePosition (candle.rescale units) direction = closePosition candle direction := by
  cases direction with
  | bullish =>
    change (units.position candle.closePrice - units.position candle.lowPrice) /
      (candle.rescale units).rangeSize = (candle.closePrice - candle.lowPrice) / candle.rangeSize
    rw [Candle.rangeSize_rescale, units.position_sub_position, units.distance_div_distance]
  | bearish =>
    change (units.position candle.highPrice - units.position candle.closePrice) /
      (candle.rescale units).rangeSize = (candle.highPrice - candle.closePrice) / candle.rangeSize
    rw [Candle.rangeSize_rescale, units.position_sub_position, units.distance_div_distance]

end Candle

section Statistics

/-- The loop keeps a running total, which is a distance. -/
theorem rollingMeanFrom_rescale (values : List ℚ) (period index : Nat) (runningTotal : ℚ)
    (rest : List ℚ) :
    rollingMeanFrom (values.map units.distance) period index (units.distance runningTotal)
        (rest.map units.distance) =
      (rollingMeanFrom values period index runningTotal rest).map (Option.map units.distance) := by
  induction rest generalizing index runningTotal with
  | nil => rfl
  | cons value rest ih =>
    have hleaving : (values.map units.distance).getD (index - period) 0 =
        units.distance (values.getD (index - period) 0) := by
      have hmap := List.getD_map values 0 units.distance (n := index - period)
      rw [units.distance_zero] at hmap
      exact hmap
    have htotal : (if index ≥ period then units.distance runningTotal + units.distance value -
          (values.map units.distance).getD (index - period) 0
        else units.distance runningTotal + units.distance value) =
        units.distance (if index ≥ period then runningTotal + value -
          values.getD (index - period) 0 else runningTotal + value) := by
      rw [hleaving, apply_ite units.distance, units.distance_sub, units.distance_add]
    rw [List.map_cons, rollingMeanFrom, rollingMeanFrom]
    simp only [htotal]
    rw [List.map_cons, ih, units.distance_div]
    split_ifs <;> rfl

theorem rollingMean_rescale (values : List ℚ) (period : Nat) :
    rollingMean (values.map units.distance) period =
      (rollingMean values period).map (Option.map units.distance) := by
  have hfrom := rollingMeanFrom_rescale units values period 0 0 values
  rw [units.distance_zero] at hfrom
  exact hfrom

theorem trueRange_rescale (previous candle : Candle) :
    trueRange (previous.rescale units) (candle.rescale units) =
      units.distance (trueRange previous candle) := by
  unfold trueRange
  rw [units.distance_max, units.distance_max, Candle.rangeSize_rescale]
  simp only [Candle.rescale, Rescaling.position_sub_position, Rescaling.abs_distance]

theorem trueRanges_rescale (candles : List Candle) :
    trueRanges (candles.map (Candle.rescale units)) = (trueRanges candles).map units.distance := by
  cases candles with
  | nil => rfl
  | cons first rest =>
    rw [List.map_cons, trueRanges, trueRanges, Candle.rangeSize_rescale, ← List.map_cons,
      List.zipWith_map, List.map_cons, List.map_zipWith]
    simp only [trueRange_rescale]

theorem smoothedRanges_rescale (period : Nat) (current : ℚ) (ranges : List ℚ) :
    smoothedRanges period (units.distance current) (ranges.map units.distance) =
      (smoothedRanges period current ranges).map (Option.map units.distance) := by
  induction ranges generalizing current with
  | nil => rfl
  | cons value ranges ih =>
    have hcurrent : (units.distance current * ((period : ℚ) - 1) + units.distance value) / period =
        units.distance ((current * ((period : ℚ) - 1) + value) / period) := by
      rw [units.distance_mul, ← units.distance_add, units.distance_div]
    rw [List.map_cons, smoothedRanges, smoothedRanges]
    simp only [hcurrent]
    rw [List.map_cons, ih]
    rfl

theorem averageTrueRange_rescale (candles : List Candle) (period : Nat) :
    averageTrueRange (candles.map (Candle.rescale units)) period =
      (averageTrueRange candles period).map (Option.map units.distance) := by
  unfold averageTrueRange
  simp only [trueRanges_rescale, List.length_map]
  by_cases hshort : (trueRanges candles).length < period
  · rw [if_pos hshort, if_pos hshort, List.map_replicate]
    rfl
  · rw [if_neg hshort, if_neg hshort, List.map_append, List.map_replicate, List.map_cons,
      ← List.map_take, ← List.map_drop, units.sum_map_distance, units.distance_div,
      smoothedRanges_rescale]
    rfl

end Statistics

section Swings
variable (candles : List Candle) (lookback : Nat)

theorem neighbours_rescale (index : Nat) :
    neighbours (candles.map (Candle.rescale units)) lookback index =
      (neighbours candles lookback index).map (Candle.rescale units) := by
  unfold neighbours
  rw [List.map_append, List.map_take, List.map_take, List.map_drop, List.map_drop]

theorem swingsAt_rescale (index : Nat) :
    swingsAt (candles.map (Candle.rescale units)) lookback index =
      (swingsAt candles lookback index).map (Swing.rescale units) := by
  unfold swingsAt
  rw [List.getElem?_map]
  cases candles[index]? with
  | none => rfl
  | some candle =>
    simp only [Option.map_some]
    rw [neighbours_rescale, List.all_map, List.all_map, List.map_append]
    simp only [Function.comp_def, Candle.rescale, gt_iff_lt, Rescaling.position_lt]
    congr 1
    · split_ifs <;> rfl
    · split_ifs <;> rfl

theorem detectSwings_rescale :
    detectSwings (candles.map (Candle.rescale units)) lookback =
      (detectSwings candles lookback).map (Swing.rescale units) := by
  have hswings : swingsAt (candles.map (Candle.rescale units)) lookback =
      fun index => (swingsAt candles lookback index).map (Swing.rescale units) :=
    funext (swingsAt_rescale units candles lookback)
  unfold detectSwings
  rw [hswings, ← List.map_flatMap, sortedBy_map, List.length_map]
  rfl

end Swings

section Structure
variable (swings : List Swing)

def LatestSwings.rescale (latest : LatestSwings) : LatestSwings where
  high := latest.high.map (Swing.rescale units)
  low := latest.low.map (Swing.rescale units)

theorem take_rescale (latest : LatestSwings) (swing : Swing) :
    (latest.rescale units).take (swing.rescale units) = (latest.take swing).rescale units := by
  have hkind : (swing.rescale units).kind = swing.kind := rfl
  unfold LatestSwings.take
  rw [hkind]
  cases swing.kind <;> rfl

theorem advance_rescale (latest : LatestSwings) (index : Nat) :
    (latest.rescale units).advance (swings.map (Swing.rescale units)) index =
      (latest.advance swings index).rescale units := by
  unfold LatestSwings.advance availableAt
  rw [List.filter_map, List.foldl_map]
  exact List.foldl_hom (LatestSwings.rescale units) fun latest swing => take_rescale units latest swing

theorem closedAbove_rescale (latest : LatestSwings) (candle : Candle) :
    closedAbove (latest.rescale units) (candle.rescale units) =
      (closedAbove latest candle).map (Swing.rescale units) := by
  unfold closedAbove LatestSwings.rescale
  rw [Option.filter_map]
  simp only [Function.comp_def, Swing.rescale, Candle.rescale, gt_iff_lt, Rescaling.position_lt]

theorem closedBelow_rescale (latest : LatestSwings) (candle : Candle) :
    closedBelow (latest.rescale units) (candle.rescale units) =
      (closedBelow latest candle).map (Swing.rescale units) := by
  unfold closedBelow LatestSwings.rescale
  rw [Option.filter_map]
  simp only [Function.comp_def, Swing.rescale, Candle.rescale, Rescaling.position_lt]

def StructureState.rescale (state : StructureState) : StructureState :=
  { state with latest := state.latest.rescale units }

theorem structureStep_rescale (state : StructureState) (candle : Candle) (index : Nat) :
    structureStep (swings.map (Swing.rescale units)) (state.rescale units) (candle.rescale units)
        index =
      ((structureStep swings state candle index).1.rescale units,
        (structureStep swings state candle index).2.map (StructureBreak.rescale units)) := by
  have hlatest : (state.rescale units).latest = state.latest.rescale units := rfl
  unfold structureStep
  rw [hlatest]
  simp only [advance_rescale, closedAbove_rescale, closedBelow_rescale]
  cases closedAbove (state.latest.advance swings index) candle with
  | some high => rfl
  | none =>
    cases closedBelow (state.latest.advance swings index) candle with
    | some low => rfl
    | none => rfl

theorem detectStructureBreaks_rescale (candles : List Candle) :
    detectStructureBreaks (swings.map (Swing.rescale units)) (candles.map (Candle.rescale units)) =
      (detectStructureBreaks swings candles).map (StructureBreak.rescale units) := by
  unfold detectStructureBreaks
  refine (emitFrom_lockstep (fun _ state state' => state' = StructureState.rescale units state)
    (List.map (StructureBreak.rescale units)) id (fun _ _ => List.map_append) (fun _ _ => rfl) rfl
    (Candle.rescale units) (show ({} : StructureState) = StructureState.rescale units {} from rfl)
    ?_).symm
  intro index candle state state' _ hstate
  rw [hstate, structureStep_rescale]
  exact ⟨rfl, rfl⟩

end Structure

section Liquidity
variable (swings : List Swing)

theorem sweptHigh_rescale (latest : LatestSwings) (candle : Candle) :
    sweptHigh (latest.rescale units) (candle.rescale units) =
      (sweptHigh latest candle).map (Swing.rescale units) := by
  unfold sweptHigh LatestSwings.rescale
  rw [Option.filter_map]
  simp only [Function.comp_def, Swing.rescale, Candle.rescale, gt_iff_lt, Rescaling.position_lt]

theorem sweptLow_rescale (latest : LatestSwings) (candle : Candle) :
    sweptLow (latest.rescale units) (candle.rescale units) =
      (sweptLow latest candle).map (Swing.rescale units) := by
  unfold sweptLow LatestSwings.rescale
  rw [Option.filter_map]
  simp only [Function.comp_def, Swing.rescale, Candle.rescale, Rescaling.position_lt]

theorem sweepStep_rescale (latest : LatestSwings) (candle : Candle) (index : Nat) :
    sweepStep (swings.map (Swing.rescale units)) (latest.rescale units) (candle.rescale units)
        index =
      ((sweepStep swings latest candle index).1.rescale units,
        (sweepStep swings latest candle index).2.map (LiquiditySweep.rescale units)) := by
  unfold sweepStep
  simp only [advance_rescale, sweptHigh_rescale, sweptLow_rescale]
  cases sweptHigh (latest.advance swings index) candle with
  | some high => cases sweptLow (latest.advance swings index) candle <;> rfl
  | none => cases sweptLow (latest.advance swings index) candle <;> rfl

theorem detectLiquiditySweeps_rescale (candles : List Candle) :
    detectLiquiditySweeps (swings.map (Swing.rescale units)) (candles.map (Candle.rescale units)) =
      (detectLiquiditySweeps swings candles).map (LiquiditySweep.rescale units) := by
  unfold detectLiquiditySweeps
  refine (emitFrom_lockstep (fun _ latest latest' => latest' = LatestSwings.rescale units latest)
    (List.map (LiquiditySweep.rescale units)) id (fun _ _ => List.map_append) (fun _ _ => rfl) rfl
    (Candle.rescale units) (show ({} : LatestSwings) = LatestSwings.rescale units {} from rfl)
    ?_).symm
  intro index candle latest latest' _ hlatest
  rw [hlatest, sweepStep_rescale]
  exact ⟨rfl, rfl⟩

theorem equalLevel_rescale (atrValues : List (Option ℚ)) (toleranceRatio : ℚ)
    (maxSeparation : Nat) (kind : SwingKind) (first second : Swing) :
    equalLevel (atrValues.map (Option.map units.distance)) toleranceRatio maxSeparation kind
        (first.rescale units, second.rescale units) =
      (equalLevel atrValues toleranceRatio maxSeparation kind (first, second)).map
        (EqualLevel.rescale units) := by
  have hdistance : |(second.rescale units).price - (first.rescale units).price| =
      units.distance |second.price - first.price| := by
    rw [← units.abs_distance, ← units.position_sub_position]
    rfl
  unfold equalLevel
  by_cases hfar : second.index - first.index > maxSeparation
  · rw [if_pos hfar]
    exact if_pos hfar
  · rw [if_neg hfar]
    refine (if_neg hfar).trans ?_
    simp only [show (second.rescale units).confirmationIndex = second.confirmationIndex from rfl]
    rw [List.getElem?_map]
    rcases atrValues[second.confirmationIndex]? with _ | _ | atr
    · rfl
    · rfl
    · simp only [Option.map_some, hdistance, units.distance_mul, Rescaling.distance_le]
      split_ifs
      · rw [Option.map_some, EqualLevel.rescale, ← units.position_midpoint]
        rfl
      · rfl

theorem equalLevelsOf_rescale (atrValues : List (Option ℚ)) (toleranceRatio : ℚ)
    (maxSeparation : Nat) (kind : SwingKind) :
    equalLevelsOf (swings.map (Swing.rescale units)) (atrValues.map (Option.map units.distance))
        toleranceRatio maxSeparation kind =
      (equalLevelsOf swings atrValues toleranceRatio maxSeparation kind).map
        (EqualLevel.rescale units) := by
  have hof : swingsOf (swings.map (Swing.rescale units)) kind =
      (swingsOf swings kind).map (Swing.rescale units) := by
    unfold swingsOf
    rw [List.filter_map, sortedBy_map]
    rfl
  unfold equalLevelsOf
  rw [hof, ← List.map_tail, List.zip_map, List.filterMap_map, List.map_filterMap]
  congr 1
  funext pair
  exact equalLevel_rescale units atrValues toleranceRatio maxSeparation kind pair.1 pair.2

theorem detectEqualLevels_rescale (atrValues : List (Option ℚ)) (toleranceRatio : ℚ)
    (maxSeparation : Nat) :
    detectEqualLevels (swings.map (Swing.rescale units)) (atrValues.map (Option.map units.distance))
        toleranceRatio maxSeparation =
      (detectEqualLevels swings atrValues toleranceRatio maxSeparation).map
        (EqualLevel.rescale units) := by
  unfold detectEqualLevels
  rw [equalLevelsOf_rescale, equalLevelsOf_rescale, ← List.map_append, sortedBy_map]
  rfl

end Liquidity

section Displacements
variable (config : SMCConfig)

theorem displacementAt_rescale (atr averageRange : Option ℚ) (candle : Candle) (index : Nat) :
    displacementAt config (atr.map units.distance) (averageRange.map units.distance)
        (candle.rescale units) index =
      (displacementAt config atr averageRange candle index).map (Displacement.rescale units) := by
  unfold displacementAt
  rw [candle.direction_rescale]
  cases atr with
  | none => rfl
  | some atr =>
    cases averageRange with
    | none => rfl
    | some averageRange =>
      cases candle.direction with
      | none => rfl
      | some direction =>
        simp only [Option.map_some]
        rw [Candle.rangeSize_rescale, Candle.bodySize_rescale, closePosition_rescale,
          units.distance_mul, units.distance_mul]
        simp only [Rescaling.distance_eq_zero, Rescaling.distance_lt]
        split_ifs <;> rfl

theorem getD_map_none {α β : Type} (f : α → β) (values : List (Option α)) (index : Nat) :
    (values.map (Option.map f)).getD index none = (values.getD index none).map f :=
  List.getD_map values none (Option.map f)

theorem detectDisplacements_rescale (candles : List Candle) (atrValues : List (Option ℚ)) :
    detectDisplacements config (candles.map (Candle.rescale units))
        (atrValues.map (Option.map units.distance)) =
      (detectDisplacements config candles atrValues).map (Displacement.rescale units) := by
  have hranges : (candles.map (Candle.rescale units)).map Candle.rangeSize =
      (candles.map Candle.rangeSize).map units.distance := by
    rw [List.map_map, List.map_map]
    exact List.map_congr_left fun candle _ => candle.rangeSize_rescale units
  unfold detectDisplacements
  rw [hranges, rollingMean_rescale]
  refine (emitFrom_lockstep (fun _ _ _ => True) (List.map (Displacement.rescale units)) id
    (fun _ _ => List.map_append) (fun _ _ => rfl) rfl (Candle.rescale units) trivial ?_).symm
  intro index candle _ _ _ _
  refine ⟨?_, trivial⟩
  simp only [getD_map_none, displacementAt_rescale]
  exact Option.toList_map.symm

end Displacements

section Gaps
variable (candles : List Candle)

theorem FairValueGap.isFilledBy_rescale (gap : FairValueGap) (candle : Candle) :
    (gap.rescale units).isFilledBy (candle.rescale units) = gap.isFilledBy candle := by
  unfold FairValueGap.isFilledBy FairValueGap.rescale Candle.rescale
  cases gap.direction with
  | bullish => simp only [Rescaling.position_le]
  | bearish => simp only [ge_iff_le, Rescaling.position_le]

theorem FairValueGap.isTouchedBy_rescale (gap : FairValueGap) (candle : Candle) :
    (gap.rescale units).isTouchedBy (candle.rescale units) = gap.isTouchedBy candle := by
  unfold FairValueGap.isTouchedBy FairValueGap.rescale Candle.rescale
  cases gap.direction with
  | bullish => simp only [Rescaling.position_lt]
  | bearish => simp only [gt_iff_lt, Rescaling.position_lt]

theorem resolveGapFrom_rescale (gap : FairValueGap) (index : Nat) (status : ZoneStatus)
    (firstTouch : Option Nat) :
    resolveGapFrom (gap.rescale units) index status firstTouch
        (candles.map (Candle.rescale units)) =
      (resolveGapFrom gap index status firstTouch candles).rescale units := by
  induction candles generalizing index status firstTouch with
  | nil => rfl
  | cons candle candles ih =>
    rw [List.map_cons, resolveGapFrom, resolveGapFrom, gap.isFilledBy_rescale,
      gap.isTouchedBy_rescale]
    split_ifs
    · rfl
    · exact ih _ _ _
    · exact ih _ _ _

theorem gapBetween_rescale (first third : Candle) :
    gapBetween (first.rescale units) (third.rescale units) =
      (gapBetween first third).map fun gap =>
        (gap.1, units.position gap.2.1, units.position gap.2.2) := by
  unfold gapBetween
  simp only [Candle.rescale, gt_iff_lt, Rescaling.position_lt]
  split_ifs <;> rfl

theorem gapAt_rescale (atrValues : List (Option ℚ)) (minAtrRatio : ℚ) (index : Nat) :
    gapAt (candles.map (Candle.rescale units)) (atrValues.map (Option.map units.distance))
        minAtrRatio index =
      (gapAt candles atrValues minAtrRatio index).map (FairValueGap.rescale units) := by
  unfold gapAt
  rw [List.getElem?_map, List.getElem?_map, getD_map_none]
  cases candles[index - 2]? with
  | none => rfl
  | some first =>
    cases candles[index]? with
    | none => rfl
    | some third =>
      cases atrValues.getD index none with
      | none => rfl
      | some atr =>
        simp only [Option.map_some]
        rw [gapBetween_rescale]
        cases gapBetween first third with
        | none => rfl
        | some gap =>
          obtain ⟨direction, lower, upper⟩ := gap
          simp only [Option.map_some, Rescaling.position_sub_position, units.distance_mul,
            Rescaling.distance_lt]
          split_ifs <;> rfl

theorem detectFairValueGaps_rescale (atrValues : List (Option ℚ)) (minAtrRatio : ℚ) :
    detectFairValueGaps (candles.map (Candle.rescale units))
        (atrValues.map (Option.map units.distance)) minAtrRatio =
      (detectFairValueGaps candles atrValues minAtrRatio).map (FairValueGap.rescale units) := by
  unfold detectFairValueGaps
  rw [List.length_map, List.map_flatMap]
  refine List.flatMap_congr fun index _ => ?_
  rw [gapAt_rescale]
  cases gapAt candles atrValues minAtrRatio index with
  | none => rfl
  | some gap =>
    have hresolve := resolveGapFrom_rescale units (candles.drop (gap.createdIndex + 1)) gap
      (gap.createdIndex + 1) gap.status none
    rw [List.map_drop] at hresolve
    exact congrArg (fun resolved => [resolved]) hresolve

end Gaps

section OrderBlocks
variable (candles : List Candle)

theorem OrderBlock.isInvalidatedBy_rescale (block : OrderBlock) (candle : Candle) :
    (block.rescale units).isInvalidatedBy (candle.rescale units) =
      block.isInvalidatedBy candle := by
  unfold OrderBlock.isInvalidatedBy OrderBlock.rescale Candle.rescale
  cases block.direction with
  | bullish => simp only [Rescaling.position_lt]
  | bearish => simp only [gt_iff_lt, Rescaling.position_lt]

theorem OrderBlock.isTouchedBy_rescale (block : OrderBlock) (candle : Candle) :
    (block.rescale units).isTouchedBy (candle.rescale units) = block.isTouchedBy candle := by
  unfold OrderBlock.isTouchedBy OrderBlock.rescale Candle.rescale
  cases block.direction with
  | bullish => simp only [Rescaling.position_le]
  | bearish => simp only [ge_iff_le, Rescaling.position_le]

theorem resolveOrderBlockFrom_rescale (block : OrderBlock) (index : Nat) (status : ZoneStatus)
    (firstTouch : Option Nat) :
    resolveOrderBlockFrom (block.rescale units) index status firstTouch
        (candles.map (Candle.rescale units)) =
      (resolveOrderBlockFrom block index status firstTouch candles).rescale units := by
  induction candles generalizing index status firstTouch with
  | nil => rfl
  | cons candle candles ih =>
    rw [List.map_cons, resolveOrderBlockFrom, resolveOrderBlockFrom, block.isInvalidatedBy_rescale,
      block.isTouchedBy_rescale]
    split_ifs
    · rfl
    · exact ih _ _ _
    · exact ih _ _ _

theorem resolveOrderBlock_rescale (block : OrderBlock) :
    resolveOrderBlock (candles.map (Candle.rescale units)) (block.rescale units) =
      (resolveOrderBlock candles block).rescale units := by
  have hresolve := resolveOrderBlockFrom_rescale units (candles.drop (block.createdIndex + 1))
    block (block.createdIndex + 1) block.status none
  rw [List.map_drop] at hresolve
  exact hresolve

theorem sourceIndex_rescale (searchLookback : Nat) (event : StructureBreak) :
    sourceIndex (candles.map (Candle.rescale units)) searchLookback (event.rescale units) =
      sourceIndex candles searchLookback event := by
  have hcandle : ∀ index : Nat,
      ((candles.map (Candle.rescale units))[index]?).bind Candle.direction =
        (candles[index]?).bind Candle.direction := by
    intro index
    rw [List.getElem?_map]
    cases candles[index]? with
    | none => rfl
    | some candle => exact candle.direction_rescale units
  unfold sourceIndex
  simp only [hcandle]
  rfl

theorem displacementBy_rescale (displacements : List Displacement) (index : Nat) :
    displacementBy (displacements.map (Displacement.rescale units)) index =
      (displacementBy displacements index).map (Displacement.rescale units) := by
  unfold displacementBy
  rw [← List.map_reverse, List.find?_map]
  rfl

theorem blockAt_rescale (displacements : List Displacement) (searchLookback : Nat)
    (event : StructureBreak) :
    blockAt (candles.map (Candle.rescale units)) (displacements.map (Displacement.rescale units))
        searchLookback (event.rescale units) =
      (blockAt candles displacements searchLookback event).map (OrderBlock.rescale units) := by
  have hindex : (event.rescale units).index = event.index := rfl
  unfold blockAt
  rw [hindex, displacementBy_rescale, sourceIndex_rescale]
  cases displacementBy displacements event.index with
  | none => rfl
  | some displacement =>
    have hagrees : (displacement.rescale units).direction ≠ (event.rescale units).direction ↔
        displacement.direction ≠ event.direction := Iff.rfl
    simp only [Option.map_some, hagrees]
    split_ifs
    · rfl
    · cases sourceIndex candles searchLookback event with
      | none => rfl
      | some index =>
        simp only
        rw [List.getElem?_map]
        cases candles[index]? <;> rfl

theorem orderBlocksFrom_rescale (displacements : List Displacement) (searchLookback : Nat)
    (used : List (Direction × Nat)) (breaks : List StructureBreak) :
    orderBlocksFrom (candles.map (Candle.rescale units))
        (displacements.map (Displacement.rescale units)) searchLookback used
        (breaks.map (StructureBreak.rescale units)) =
      (orderBlocksFrom candles displacements searchLookback used breaks).map
        (OrderBlock.rescale units) := by
  induction breaks generalizing used with
  | nil => rfl
  | cons event breaks ih =>
    rw [List.map_cons, orderBlocksFrom, orderBlocksFrom, blockAt_rescale]
    cases blockAt candles displacements searchLookback event with
    | none => exact ih used
    | some block =>
      have hused : ((block.rescale units).direction, (block.rescale units).candleIndex) =
          (block.direction, block.candleIndex) := rfl
      simp only [Option.map_some, hused]
      split_ifs
      · exact ih used
      · rw [List.map_cons, resolveOrderBlock_rescale, ih]

end OrderBlocks

section Ranges
variable (swings : List Swing)

theorem mostRecent_rescale :
    mostRecent (swings.map (Swing.rescale units)) =
      (mostRecent swings).map (Swing.rescale units) := by
  unfold mostRecent
  rw [List.foldl_map]
  refine @List.foldl_hom _ _ _ (Option.map (Swing.rescale units)) _ _ swings none
    fun best swing => ?_
  cases best with
  | none => rfl
  | some other =>
    have hrecency : recency (other.rescale units) < recency (swing.rescale units) ↔
        recency other < recency swing := Iff.rfl
    simp only [Option.map_some, hrecency]
    split_ifs <;> rfl

theorem activeDealingRange_rescale :
    activeDealingRange (swings.map (Swing.rescale units)) =
      (activeDealingRange swings).map (DealingRange.rescale units) := by
  have hkind : ∀ kind : SwingKind,
      (swings.map (Swing.rescale units)).filter (fun swing => decide (swing.kind = kind)) =
        (swings.filter fun swing => decide (swing.kind = kind)).map (Swing.rescale units) :=
    fun kind => List.filter_map
  unfold activeDealingRange
  rw [hkind, hkind, mostRecent_rescale, mostRecent_rescale]
  cases mostRecent (swings.filter fun swing => decide (swing.kind = .high)) with
  | none => rfl
  | some high =>
    cases mostRecent (swings.filter fun swing => decide (swing.kind = .low)) with
    | none => rfl
    | some low =>
      simp only [Option.map_some, Swing.rescale, ge_iff_le, Rescaling.position_le,
        Rescaling.position_midpoint]
      split_ifs <;> rfl

theorem classifyPrice_rescale (price : ℚ) (dealingRange : DealingRange) :
    classifyPrice (units.position price) (dealingRange.rescale units) =
      classifyPrice price dealingRange := by
  unfold classifyPrice
  simp only [DealingRange.rescale, gt_iff_lt, Rescaling.position_lt]

end Ranges

section Analysis

theorem analysisOf_rescale (config : SMCConfig) (candles : List Candle) (first last : Candle) :
    analysisOf config (candles.map (Candle.rescale units)) (first.rescale units)
        (last.rescale units) =
      (analysisOf config candles first last).rescale units := by
  have htimeframe : (first.rescale units).timeframe = first.timeframe := rfl
  have hlocation : ∀ dealingRange : Option DealingRange,
      (dealingRange.map (DealingRange.rescale units)).map
          (classifyPrice (last.rescale units).closePrice) =
        dealingRange.map (classifyPrice last.closePrice) := by
    intro dealingRange
    rw [Option.map_map]
    exact Option.map_congr fun range _ => classifyPrice_rescale units last.closePrice range
  unfold analysisOf SMCAnalysis.rescale
  simp only [htimeframe, detectSwings_rescale, averageTrueRange_rescale,
    detectStructureBreaks_rescale, detectLiquiditySweeps_rescale, detectEqualLevels_rescale,
    detectDisplacements_rescale, detectFairValueGaps_rescale, detectOrderBlocks,
    orderBlocksFrom_rescale, activeDealingRange_rescale, hlocation, List.length_map]
  rfl

theorem validatePairs_rescale (first : Candle) (candles : List Candle) :
    validatePairs (first.rescale units) (candles.map (Candle.rescale units)) =
      validatePairs first candles := by
  induction candles with
  | nil => rfl
  | cons previous rest ih =>
    cases rest with
    | nil => rfl
    | cons candle rest =>
      rw [List.map_cons] at ih
      rw [List.map_cons, List.map_cons, validatePairs, validatePairs, ih]
      rfl

theorem validateCandleSeries_rescale (candles : List Candle) :
    validateCandleSeries (candles.map (Candle.rescale units)) = validateCandleSeries candles := by
  cases candles with
  | nil => rfl
  | cons first rest => exact validatePairs_rescale units first (first :: rest)

/-- In exact arithmetic, the analysis of a series in other units is its analysis, in these
units. -/
theorem analyze_rescale (config : SMCConfig) (candles : List Candle) :
    analyze config (candles.map (Candle.rescale units)) =
      (analyze config candles).map (SMCAnalysis.rescale units) := by
  unfold analyze
  rw [validateCandleSeries_rescale, List.head?_map, List.getLast?_map]
  cases validateCandleSeries candles with
  | error error => rfl
  | ok =>
    cases candles.head? with
    | none => rfl
    | some first =>
      cases candles.getLast? with
      | none => rfl
      | some last => exact congrArg Except.ok (analysisOf_rescale units config candles first last)

end Analysis

end StructurePulse.SMC
