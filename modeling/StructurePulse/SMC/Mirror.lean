import StructurePulse.SMC.Analysis
import Mathlib.Algebra.Order.Group.MinMax

/-!
# Mirrored prices

The mirror of a series replaces each price by its negative, so highs become lows and
bullish becomes bearish. Here are the mirrors of all the records and the detectors that
look at single candles, windows or zones; the running scans are in `Symmetry`.
-/

namespace StructurePulse.SMC
open Library
set_option autoImplicit false

section Mirrors

def Candle.mirror (candle : Candle) : Candle where
  symbol := candle.symbol
  timeframe := candle.timeframe
  openTime := candle.openTime
  closeTime := candle.closeTime
  openPrice := -candle.openPrice
  highPrice := -candle.lowPrice
  lowPrice := -candle.highPrice
  closePrice := -candle.closePrice
  volume := candle.volume
  openTime_lt := candle.openTime_lt
  low_le_high := neg_le_neg candle.low_le_high
  low_le_body := by
    rw [min_neg_neg]
    exact neg_le_neg candle.body_le_high
  body_le_high := by
    rw [max_neg_neg]
    exact neg_le_neg candle.low_le_body
  volume_nonneg := candle.volume_nonneg

def SwingKind.mirror : SwingKind → SwingKind
  | .high => .low
  | .low => .high

def Swing.mirror (swing : Swing) : Swing :=
  { swing with kind := swing.kind.mirror, price := -swing.price }

def StructureBreak.mirror (event : StructureBreak) : StructureBreak :=
  { event with
    direction := event.direction.opposite
    closePrice := -event.closePrice
    brokenSwing := event.brokenSwing.mirror
    priorTrend := event.priorTrend.map Direction.opposite }

def LiquiditySweep.mirror (sweep : LiquiditySweep) : LiquiditySweep :=
  { sweep with
    direction := sweep.direction.opposite
    level := -sweep.level
    extremePrice := -sweep.extremePrice
    sweptSwing := sweep.sweptSwing.mirror }

def EqualLevel.mirror (level : EqualLevel) : EqualLevel :=
  { level with
    kind := level.kind.mirror
    firstSwing := level.firstSwing.mirror
    secondSwing := level.secondSwing.mirror
    price := -level.price }

def Displacement.mirror (event : Displacement) : Displacement :=
  { event with direction := event.direction.opposite }

def FairValueGap.mirror (gap : FairValueGap) : FairValueGap :=
  { gap with
    direction := gap.direction.opposite
    lowerPrice := -gap.upperPrice
    upperPrice := -gap.lowerPrice }

def OrderBlock.mirror (block : OrderBlock) : OrderBlock :=
  { block with
    direction := block.direction.opposite
    lowerPrice := -block.upperPrice
    upperPrice := -block.lowerPrice
    breakEvent := block.breakEvent.mirror }

def DealingRange.mirror (dealingRange : DealingRange) : DealingRange where
  lowSwing := dealingRange.highSwing.mirror
  highSwing := dealingRange.lowSwing.mirror
  lowPrice := -dealingRange.highPrice
  highPrice := -dealingRange.lowPrice
  midpoint := -dealingRange.midpoint

def PriceLocation.mirror : PriceLocation → PriceLocation
  | .discount => .premium
  | .equilibrium => .equilibrium
  | .premium => .discount

end Mirrors

section Candle
variable (candle : Candle)

@[simp] theorem Direction.opposite_opposite (direction : Direction) :
    direction.opposite.opposite = direction := by
  cases direction <;> rfl

@[simp] theorem Direction.opposite_inj {a b : Direction} : a.opposite = b.opposite ↔ a = b := by
  cases a <;> cases b <;> decide

@[simp] theorem SwingKind.mirror_inj {a b : SwingKind} : a.mirror = b.mirror ↔ a = b := by
  cases a <;> cases b <;> decide

@[simp] theorem Candle.rangeSize_mirror : candle.mirror.rangeSize = candle.rangeSize := by
  change -candle.lowPrice - -candle.highPrice = candle.highPrice - candle.lowPrice
  ring

@[simp] theorem Candle.bodySize_mirror : candle.mirror.bodySize = candle.bodySize := by
  change |-candle.closePrice - -candle.openPrice| = |candle.closePrice - candle.openPrice|
  rw [neg_sub_neg, abs_sub_comm]

@[simp] theorem Candle.direction_mirror :
    candle.mirror.direction = candle.direction.map Direction.opposite := by
  unfold Candle.direction
  simp only [Candle.mirror, gt_iff_lt, neg_lt_neg_iff]
  rcases lt_trichotomy candle.openPrice candle.closePrice with h | h | h
  · rw [if_neg h.asymm, if_pos h, if_pos h]
    rfl
  · rw [h, if_neg (lt_irrefl _), if_neg (lt_irrefl _)]
    rfl
  · rw [if_pos h, if_neg h.asymm, if_pos h]
    rfl

theorem closePosition_mirror (direction : Direction) :
    closePosition candle.mirror direction.opposite = closePosition candle direction := by
  cases direction with
  | bullish =>
    change (-candle.lowPrice - -candle.closePrice) / candle.mirror.rangeSize =
      (candle.closePrice - candle.lowPrice) / candle.rangeSize
    rw [candle.rangeSize_mirror, neg_sub_neg]
  | bearish =>
    change (-candle.closePrice - -candle.highPrice) / candle.mirror.rangeSize =
      (candle.highPrice - candle.closePrice) / candle.rangeSize
    rw [candle.rangeSize_mirror, neg_sub_neg]

end Candle

section Statistics

theorem trueRange_mirror (previous candle : Candle) :
    trueRange previous.mirror candle.mirror = trueRange previous candle := by
  unfold trueRange
  rw [candle.rangeSize_mirror]
  change max (max candle.rangeSize |-candle.lowPrice - -previous.closePrice|)
    |-candle.highPrice - -previous.closePrice| = _
  rw [neg_sub_neg, neg_sub_neg, abs_sub_comm previous.closePrice,
    abs_sub_comm previous.closePrice, max_right_comm]

theorem trueRanges_mirror (candles : List Candle) :
    trueRanges (candles.map Candle.mirror) = trueRanges candles := by
  cases candles with
  | nil => rfl
  | cons first rest =>
    rw [List.map_cons, trueRanges, trueRanges, first.rangeSize_mirror, ← List.map_cons,
      List.zipWith_map]
    simp only [trueRange_mirror]

theorem averageTrueRange_mirror (candles : List Candle) (period : Nat) :
    averageTrueRange (candles.map Candle.mirror) period = averageTrueRange candles period := by
  unfold averageTrueRange
  rw [trueRanges_mirror]

end Statistics

section Swings
variable (candles : List Candle) (lookback : Nat)

theorem neighbours_mirror (index : Nat) :
    neighbours (candles.map Candle.mirror) lookback index =
      (neighbours candles lookback index).map Candle.mirror := by
  unfold neighbours
  rw [List.map_append, List.map_take, List.map_take, List.map_drop, List.map_drop]

/-- At one index there is at most one swing of each kind, and they swap. -/
theorem swingsAt_mirror (kind : SwingKind) (index : Nat) :
    (swingsAt (candles.map Candle.mirror) lookback index).filter
        (fun swing => decide (swing.kind = kind.mirror)) =
      ((swingsAt candles lookback index).filter fun swing => decide (swing.kind = kind)).map
        Swing.mirror := by
  unfold swingsAt
  rw [List.getElem?_map]
  cases candles[index]? with
  | none => rfl
  | some candle =>
    simp only [Option.map_some]
    rw [neighbours_mirror, List.all_map, List.all_map]
    simp only [Function.comp_def, Candle.mirror, gt_iff_lt, neg_lt_neg_iff]
    cases kind with
    | high => split_ifs <;> rfl
    | low => split_ifs <;> rfl

theorem detectSwings_mirror (kind : SwingKind) :
    (detectSwings (candles.map Candle.mirror) lookback).filter
        (fun swing => decide (swing.kind = kind.mirror)) =
      ((detectSwings candles lookback).filter fun swing => decide (swing.kind = kind)).map
        Swing.mirror := by
  unfold detectSwings
  rw [← sortedBy_filter, ← sortedBy_filter, List.filter_flatMap, List.filter_flatMap, List.length_map]
  simp only [swingsAt_mirror]
  rw [← List.map_flatMap]
  refine (List.map_insertionSort _ _ Swing.mirror _ fun a ha b hb => ?_).symm
  -- swings of one kind are compared by their confirmation and index only
  obtain ⟨i, -, hi⟩ := List.mem_flatMap.mp ha
  obtain ⟨j, -, hj⟩ := List.mem_flatMap.mp hb
  have hka : a.kind = kind := of_decide_eq_true (List.mem_filter.mp hi).2
  have hkb : b.kind = kind := of_decide_eq_true (List.mem_filter.mp hj).2
  simp only [swingKey, Swing.mirror, Prod.Lex.toLex_le_toLex, hka, hkb, le_refl, and_true]

end Swings

section EqualLevels
variable {swings swings' : List Swing}
variable (hswings : ∀ kind : SwingKind,
  swings'.filter (fun swing => decide (swing.kind = SwingKind.mirror kind)) =
    (swings.filter fun swing => decide (swing.kind = kind)).map Swing.mirror)

theorem equalLevel_mirror (atrValues : List (Option ℚ)) (toleranceRatio : ℚ) (maxSeparation : Nat)
    (kind : SwingKind) (first second : Swing) :
    equalLevel atrValues toleranceRatio maxSeparation kind.mirror (first.mirror, second.mirror) =
      (equalLevel atrValues toleranceRatio maxSeparation kind (first, second)).map
        EqualLevel.mirror := by
  have hdistance : |second.mirror.price - first.mirror.price| = |second.price - first.price| := by
    change |-second.price - -first.price| = _
    rw [neg_sub_neg, abs_sub_comm]
  have hprice : (first.mirror.price + second.mirror.price) / 2 =
      -((first.price + second.price) / 2) := by
    change (-first.price + -second.price) / 2 = _
    ring
  unfold equalLevel
  by_cases hfar : second.index - first.index > maxSeparation
  · rw [if_pos hfar]
    exact if_pos hfar
  · rw [if_neg hfar]
    refine (if_neg hfar).trans ?_
    simp only [show second.mirror.confirmationIndex = second.confirmationIndex from rfl]
    rcases atrValues[second.confirmationIndex]? with _ | _ | atr
    · rfl
    · rfl
    · simp only [hdistance, hprice]
      split
      · rfl
      · rfl

include hswings

theorem equalLevelsOf_mirror (atrValues : List (Option ℚ)) (toleranceRatio : ℚ)
    (maxSeparation : Nat) (kind : SwingKind) :
    equalLevelsOf swings' atrValues toleranceRatio maxSeparation kind.mirror =
      (equalLevelsOf swings atrValues toleranceRatio maxSeparation kind).map EqualLevel.mirror := by
  have hof : swingsOf swings' kind.mirror = (swingsOf swings kind).map Swing.mirror := by
    unfold swingsOf
    rw [hswings, sortedBy_map]
    rfl
  unfold equalLevelsOf
  rw [hof, ← List.map_tail, List.zip_map, List.filterMap_map, List.map_filterMap]
  congr 1
  funext pair
  exact equalLevel_mirror atrValues toleranceRatio maxSeparation kind pair.1 pair.2

omit hswings

theorem equalLevelsOf_kind {atrValues : List (Option ℚ)} {toleranceRatio : ℚ} {maxSeparation : Nat}
    {kind : SwingKind} : ∀ level ∈ equalLevelsOf swings atrValues toleranceRatio maxSeparation kind,
      level.kind = kind := by
  intro level hlevel
  obtain ⟨pair, -, hpair⟩ := List.mem_filterMap.mp hlevel
  unfold equalLevel at hpair
  split_ifs at hpair
  split at hpair
  · cases hpair
  · cases hpair
  · simp only at hpair
    split_ifs at hpair
    cases hpair
    rfl

/-- The levels of one kind, in the order of the report. -/
theorem filter_detectEqualLevels (atrValues : List (Option ℚ)) (toleranceRatio : ℚ)
    (maxSeparation : Nat) (kind : SwingKind) :
    (detectEqualLevels swings atrValues toleranceRatio maxSeparation).filter
        (fun level => decide (level.kind = kind)) =
      sortedBy (fun level => level.secondSwing.confirmationIndex)
        (equalLevelsOf swings atrValues toleranceRatio maxSeparation kind) := by
  have hown : ∀ k, (equalLevelsOf swings atrValues toleranceRatio maxSeparation k).filter
      (fun level => decide (level.kind = kind)) =
        if k = kind then equalLevelsOf swings atrValues toleranceRatio maxSeparation k else [] := by
    intro k
    split
    · refine List.filter_eq_self.mpr fun level hlevel => ?_
      rw [equalLevelsOf_kind level hlevel]
      exact decide_eq_true ‹_›
    · refine List.filter_eq_nil_iff.mpr fun level hlevel => ?_
      rw [equalLevelsOf_kind level hlevel]
      simpa using ‹¬ k = kind›
  unfold detectEqualLevels
  rw [← sortedBy_filter, List.filter_append, hown, hown]
  cases kind with
  | high => rw [if_pos rfl, if_neg (by decide), List.append_nil]
  | low => rw [if_neg (by decide), if_pos rfl, List.nil_append]

include hswings

theorem detectEqualLevels_mirror (atrValues : List (Option ℚ)) (toleranceRatio : ℚ)
    (maxSeparation : Nat) (kind : SwingKind) :
    (detectEqualLevels swings' atrValues toleranceRatio maxSeparation).filter
        (fun level => decide (level.kind = kind.mirror)) =
      ((detectEqualLevels swings atrValues toleranceRatio maxSeparation).filter
        fun level => decide (level.kind = kind)).map EqualLevel.mirror := by
  rw [filter_detectEqualLevels, filter_detectEqualLevels, equalLevelsOf_mirror hswings,
    sortedBy_map]
  rfl

end EqualLevels

section Displacements
variable (config : SMCConfig)

theorem displacementAt_mirror (atr averageRange : Option ℚ) (candle : Candle) (index : Nat) :
    displacementAt config atr averageRange candle.mirror index =
      (displacementAt config atr averageRange candle index).map Displacement.mirror := by
  unfold displacementAt
  rw [candle.direction_mirror]
  cases atr with
  | none => rfl
  | some atr =>
    cases averageRange with
    | none => rfl
    | some averageRange =>
      cases candle.direction with
      | none => rfl
      | some direction =>
        simp only [Option.map_some]
        rw [candle.rangeSize_mirror, candle.bodySize_mirror, closePosition_mirror]
        split_ifs <;> rfl

theorem detectDisplacements_mirror (candles : List Candle) (atrValues : List (Option ℚ)) :
    detectDisplacements config (candles.map Candle.mirror) atrValues =
      (detectDisplacements config candles atrValues).map Displacement.mirror := by
  have hranges : (candles.map Candle.mirror).map Candle.rangeSize = candles.map Candle.rangeSize := by
    rw [List.map_map]
    exact List.map_congr_left fun candle _ => candle.rangeSize_mirror
  unfold detectDisplacements
  simp only [hranges]
  refine (emitFrom_lockstep (fun _ _ _ => True) (List.map Displacement.mirror) id
    (fun _ _ => List.map_append) (fun _ _ => rfl) rfl Candle.mirror trivial ?_).symm
  intro i candle _ _ _ _
  refine ⟨?_, trivial⟩
  simp only [displacementAt_mirror]
  exact Option.toList_map.symm

end Displacements

section Gaps
variable (candles : List Candle)

theorem FairValueGap.isFilledBy_mirror (gap : FairValueGap) (candle : Candle) :
    gap.mirror.isFilledBy candle.mirror = gap.isFilledBy candle := by
  unfold FairValueGap.isFilledBy FairValueGap.mirror Candle.mirror
  cases gap.direction with
  | bullish => simp [Direction.opposite]
  | bearish => simp [Direction.opposite]

theorem FairValueGap.isTouchedBy_mirror (gap : FairValueGap) (candle : Candle) :
    gap.mirror.isTouchedBy candle.mirror = gap.isTouchedBy candle := by
  unfold FairValueGap.isTouchedBy FairValueGap.mirror Candle.mirror
  cases gap.direction with
  | bullish => simp [Direction.opposite]
  | bearish => simp [Direction.opposite]

theorem resolveGapFrom_mirror (gap : FairValueGap) (index : Nat) (status : ZoneStatus)
    (firstTouch : Option Nat) :
    resolveGapFrom gap.mirror index status firstTouch (candles.map Candle.mirror) =
      (resolveGapFrom gap index status firstTouch candles).mirror := by
  induction candles generalizing index status firstTouch with
  | nil => rfl
  | cons candle candles ih =>
    rw [List.map_cons, resolveGapFrom, resolveGapFrom, gap.isFilledBy_mirror, gap.isTouchedBy_mirror]
    split_ifs
    · rfl
    · exact ih _ _ _
    · exact ih _ _ _

theorem gapBetween_mirror (first third : Candle) :
    gapBetween first.mirror third.mirror =
      (gapBetween first third).map fun gap => (gap.1.opposite, -gap.2.2, -gap.2.1) := by
  have hfirst := first.low_le_high
  have hthird := third.low_le_high
  unfold gapBetween
  simp only [Candle.mirror, gt_iff_lt, neg_lt_neg_iff]
  -- the candles cannot leave a gap on both sides
  by_cases hup : first.highPrice < third.lowPrice
  · have hdown : ¬ third.highPrice < first.lowPrice :=
      not_lt.mpr (hfirst.trans (hup.le.trans hthird))
    rw [if_neg hdown, if_pos hup, if_pos hup]
    rfl
  · rw [if_neg hup, if_neg hup]
    split_ifs <;> rfl

theorem gapAt_mirror (atrValues : List (Option ℚ)) (minAtrRatio : ℚ) (index : Nat) :
    gapAt (candles.map Candle.mirror) atrValues minAtrRatio index =
      (gapAt candles atrValues minAtrRatio index).map FairValueGap.mirror := by
  unfold gapAt
  rw [List.getElem?_map, List.getElem?_map]
  cases candles[index - 2]? with
  | none => rfl
  | some first =>
    cases candles[index]? with
    | none => rfl
    | some third =>
      cases atrValues.getD index none with
      | none => rfl
      | some atr =>
        simp only [Option.map_some]
        rw [gapBetween_mirror]
        cases gapBetween first third with
        | none => rfl
        | some gap =>
          obtain ⟨direction, lower, upper⟩ := gap
          simp only [Option.map_some]
          rw [neg_sub_neg]
          split_ifs <;> rfl

theorem detectFairValueGaps_mirror (atrValues : List (Option ℚ)) (minAtrRatio : ℚ) :
    detectFairValueGaps (candles.map Candle.mirror) atrValues minAtrRatio =
      (detectFairValueGaps candles atrValues minAtrRatio).map FairValueGap.mirror := by
  unfold detectFairValueGaps
  rw [List.length_map, List.map_flatMap]
  refine List.flatMap_congr fun index _ => ?_
  rw [gapAt_mirror]
  cases gapAt candles atrValues minAtrRatio index with
  | none => rfl
  | some gap =>
    have hresolve := resolveGapFrom_mirror (candles.drop (gap.createdIndex + 1)) gap
      (gap.createdIndex + 1) gap.status none
    rw [List.map_drop] at hresolve
    exact congrArg (fun resolved => [resolved]) hresolve

end Gaps

section OrderBlocks
variable (candles : List Candle)

theorem OrderBlock.isInvalidatedBy_mirror (block : OrderBlock) (candle : Candle) :
    block.mirror.isInvalidatedBy candle.mirror = block.isInvalidatedBy candle := by
  unfold OrderBlock.isInvalidatedBy OrderBlock.mirror Candle.mirror
  cases block.direction with
  | bullish => simp [Direction.opposite]
  | bearish => simp [Direction.opposite]

theorem OrderBlock.isTouchedBy_mirror (block : OrderBlock) (candle : Candle) :
    block.mirror.isTouchedBy candle.mirror = block.isTouchedBy candle := by
  unfold OrderBlock.isTouchedBy OrderBlock.mirror Candle.mirror
  cases block.direction with
  | bullish => simp [Direction.opposite]
  | bearish => simp [Direction.opposite]

theorem resolveOrderBlockFrom_mirror (block : OrderBlock) (index : Nat) (status : ZoneStatus)
    (firstTouch : Option Nat) :
    resolveOrderBlockFrom block.mirror index status firstTouch (candles.map Candle.mirror) =
      (resolveOrderBlockFrom block index status firstTouch candles).mirror := by
  induction candles generalizing index status firstTouch with
  | nil => rfl
  | cons candle candles ih =>
    rw [List.map_cons, resolveOrderBlockFrom, resolveOrderBlockFrom, block.isInvalidatedBy_mirror,
      block.isTouchedBy_mirror]
    split_ifs
    · rfl
    · exact ih _ _ _
    · exact ih _ _ _

theorem resolveOrderBlock_mirror (block : OrderBlock) :
    resolveOrderBlock (candles.map Candle.mirror) block.mirror =
      (resolveOrderBlock candles block).mirror := by
  have hresolve := resolveOrderBlockFrom_mirror (candles.drop (block.createdIndex + 1)) block
    (block.createdIndex + 1) block.status none
  rw [List.map_drop] at hresolve
  exact hresolve

theorem sourceIndex_mirror (searchLookback : Nat) (event : StructureBreak) :
    sourceIndex (candles.map Candle.mirror) searchLookback event.mirror =
      sourceIndex candles searchLookback event := by
  unfold sourceIndex
  change ((List.range' (event.index - searchLookback)
    (event.index - (event.index - searchLookback))).reverse.find? fun index =>
      decide (((candles.map Candle.mirror)[index]?).bind Candle.direction =
        some event.direction.opposite.opposite)) = _
  congr 1
  funext index
  rw [List.getElem?_map]
  cases candles[index]? with
  | none => rfl
  | some candle =>
    rw [Option.map_some, Option.bind_some, Option.bind_some, candle.direction_mirror]
    cases candle.direction with
    | none => rfl
    | some direction => cases direction <;> cases event.direction <;> rfl

theorem displacementBy_mirror (displacements : List Displacement) (index : Nat) :
    displacementBy (displacements.map Displacement.mirror) index =
      (displacementBy displacements index).map Displacement.mirror := by
  unfold displacementBy
  rw [← List.map_reverse, List.find?_map]
  rfl

theorem blockAt_mirror (displacements : List Displacement) (searchLookback : Nat)
    (event : StructureBreak) :
    blockAt (candles.map Candle.mirror) (displacements.map Displacement.mirror) searchLookback
        event.mirror =
      (blockAt candles displacements searchLookback event).map OrderBlock.mirror := by
  have hindex : event.mirror.index = event.index := rfl
  unfold blockAt
  rw [hindex, displacementBy_mirror, sourceIndex_mirror]
  cases displacementBy displacements event.index with
  | none => rfl
  | some displacement =>
    simp only [Option.map_some]
    by_cases hagrees : displacement.direction = event.direction
    · have hagrees' : displacement.mirror.direction = event.mirror.direction :=
        congrArg Direction.opposite hagrees
      rw [if_neg (not_not_intro hagrees), if_neg (not_not_intro hagrees')]
      cases sourceIndex candles searchLookback event with
      | none => rfl
      | some index =>
        simp only
        rw [List.getElem?_map]
        cases candles[index]? <;> rfl
    · have hagrees' : displacement.mirror.direction ≠ event.mirror.direction :=
        fun h => hagrees (Direction.opposite_inj.mp h)
      rw [if_pos hagrees, if_pos hagrees']
      rfl

/-- A candle that was used, on the mirrored side. -/
def usedMirror (used : Direction × Nat) : Direction × Nat := (used.1.opposite, used.2)

theorem orderBlocksFrom_mirror (displacements : List Displacement) (searchLookback : Nat)
    (used : List (Direction × Nat)) (breaks : List StructureBreak) :
    orderBlocksFrom (candles.map Candle.mirror) (displacements.map Displacement.mirror)
        searchLookback (used.map usedMirror) (breaks.map StructureBreak.mirror) =
      (orderBlocksFrom candles displacements searchLookback used breaks).map OrderBlock.mirror := by
  induction breaks generalizing used with
  | nil => rfl
  | cons event breaks ih =>
    rw [List.map_cons, orderBlocksFrom, orderBlocksFrom, blockAt_mirror]
    cases blockAt candles displacements searchLookback event with
    | none => exact ih used
    | some block =>
      have hinjective : Function.Injective usedMirror := by
        rintro ⟨a, i⟩ ⟨b, j⟩ h
        rw [usedMirror, usedMirror, Prod.mk.injEq, Direction.opposite_inj] at h
        exact Prod.ext h.1 h.2
      have hmem : (block.mirror.direction, block.mirror.candleIndex) ∈ used.map usedMirror ↔
          (block.direction, block.candleIndex) ∈ used :=
        List.mem_map_of_injective hinjective (a := (block.direction, block.candleIndex))
      simp only [Option.map_some]
      by_cases hused : (block.direction, block.candleIndex) ∈ used
      · rw [if_pos (hmem.mpr hused), if_pos hused]
        exact ih used
      · rw [if_neg fun h => hused (hmem.mp h), if_neg hused, List.map_cons,
          resolveOrderBlock_mirror, ← ih]
        rfl

end OrderBlocks

section Ranges
variable {swings swings' : List Swing}
variable (hswings : ∀ kind : SwingKind,
  swings'.filter (fun swing => decide (swing.kind = SwingKind.mirror kind)) =
    (swings.filter fun swing => decide (swing.kind = kind)).map Swing.mirror)

theorem mostRecent_mirror (swings : List Swing) :
    mostRecent (swings.map Swing.mirror) = (mostRecent swings).map Swing.mirror := by
  unfold mostRecent
  rw [List.foldl_map]
  refine @List.foldl_hom _ _ _ (Option.map Swing.mirror) _ _ swings none fun best swing => ?_
  cases best with
  | none => rfl
  | some other =>
    have hrecency : recency other.mirror < recency swing.mirror ↔ recency other < recency swing :=
      Iff.rfl
    simp only [Option.map_some, hrecency]
    split_ifs <;> rfl

include hswings

theorem activeDealingRange_mirror :
    activeDealingRange swings' = (activeDealingRange swings).map DealingRange.mirror := by
  have hhigh : swings'.filter (fun swing => decide (swing.kind = .high)) =
      (swings.filter fun swing => decide (swing.kind = .low)).map Swing.mirror := hswings .low
  have hlow : swings'.filter (fun swing => decide (swing.kind = .low)) =
      (swings.filter fun swing => decide (swing.kind = .high)).map Swing.mirror := hswings .high
  unfold activeDealingRange
  rw [hhigh, hlow, mostRecent_mirror, mostRecent_mirror]
  cases mostRecent (swings.filter fun swing => decide (swing.kind = .high)) with
  | none => cases mostRecent (swings.filter fun swing => decide (swing.kind = .low)) <;> rfl
  | some high =>
    cases mostRecent (swings.filter fun swing => decide (swing.kind = .low)) with
    | none => rfl
    | some low =>
      have hmidpoint : (high.mirror.price + low.mirror.price) / 2 = -((low.price + high.price) / 2) := by
        change (-high.price + -low.price) / 2 = _
        ring
      have horder : high.mirror.price ≥ low.mirror.price ↔ low.price ≥ high.price := neg_le_neg_iff
      simp only [Option.map_some, hmidpoint, horder]
      split_ifs <;> rfl

omit hswings

theorem classifyPrice_mirror (price : ℚ) (dealingRange : DealingRange) :
    classifyPrice (-price) dealingRange.mirror = (classifyPrice price dealingRange).mirror := by
  unfold classifyPrice
  simp only [DealingRange.mirror, gt_iff_lt, neg_lt_neg_iff]
  rcases lt_trichotomy price dealingRange.midpoint with h | h | h
  · rw [if_neg h.asymm, if_pos h, if_pos h]
    rfl
  · rw [h, if_neg (lt_irrefl _), if_neg (lt_irrefl _)]
    rfl
  · rw [if_pos h, if_neg h.asymm, if_pos h]
    rfl

end Ranges

end StructurePulse.SMC
