import StructurePulse.Library.OrderedLists
import StructurePulse.Library.Scans
import StructurePulse.SMC.Models
import Mathlib.Algebra.Order.Group.Unbundled.Abs

/-!
# The detectors of the SMC core

One definition for each detector of the source; `emit` is its loop over the enumerated
candles. The detectors refuse periods, ratios and lookbacks that `SMCConfig` refuses
already; those checks cannot fail inside `analyze` and are left out.
-/

namespace StructurePulse.SMC
open Library
set_option autoImplicit false

section Statistics

/-- The loop of `rolling_mean`, from an index on. -/
def rollingMeanFrom (values : List ℚ) (period : Nat) : Nat → ℚ → List ℚ → List (Option ℚ)
  | _, _, [] => []
  | index, runningTotal, value :: rest =>
    let runningTotal := runningTotal + value
    let runningTotal :=
      if index ≥ period then runningTotal - values.getD (index - period) 0 else runningTotal
    (if index ≥ period - 1 then some (runningTotal / period) else none) ::
      rollingMeanFrom values period (index + 1) runningTotal rest

def rollingMean (values : List ℚ) (period : Nat) : List (Option ℚ) :=
  rollingMeanFrom values period 0 0 values

def trueRange (previous candle : Candle) : ℚ :=
  max (max candle.rangeSize |candle.highPrice - previous.closePrice|)
    |candle.lowPrice - previous.closePrice|

def trueRanges : List Candle → List ℚ
  | [] => []
  | first :: rest => first.rangeSize :: List.zipWith trueRange (first :: rest) rest

/-- The smoothing of `average_true_range` after its first value. -/
def smoothedRanges (period : Nat) : ℚ → List ℚ → List (Option ℚ)
  | _, [] => []
  | current, value :: rest =>
    let current := (current * ((period : ℚ) - 1) + value) / period
    some current :: smoothedRanges period current rest

def averageTrueRange (candles : List Candle) (period : Nat) : List (Option ℚ) :=
  let ranges := trueRanges candles
  if ranges.length < period then List.replicate ranges.length none
  else
    let first := (ranges.take period).sum / period
    List.replicate (period - 1) none ++ some first :: smoothedRanges period first (ranges.drop period)

end Statistics

section Swings
variable (candles : List Candle) (lookback : Nat)

/-- `candles[index - lookback : index] + candles[index + 1 : index + lookback + 1]`. -/
def neighbours (index : Nat) : List Candle :=
  (candles.drop (index - lookback)).take lookback ++ (candles.drop (index + 1)).take lookback

/-- The swings at an index: first a high, then a low. -/
def swingsAt (index : Nat) : List Swing :=
  match candles[index]? with
  | none => []
  | some candle =>
    (if (neighbours candles lookback index).all fun neighbour =>
        decide (candle.highPrice > neighbour.highPrice) then
      [{ kind := .high
         index := index
         confirmationIndex := index + lookback
         time := candle.openTime
         price := candle.highPrice }]
    else []) ++
    (if (neighbours candles lookback index).all fun neighbour =>
        decide (candle.lowPrice < neighbour.lowPrice) then
      [{ kind := .low
         index := index
         confirmationIndex := index + lookback
         time := candle.openTime
         price := candle.lowPrice }]
    else [])

/-- `"high" < "low"`. -/
def SwingKind.rank : SwingKind → Nat
  | .high => 0
  | .low => 1

def swingKey (swing : Swing) : Nat ×ₗ Nat ×ₗ Nat :=
  toLex (swing.confirmationIndex, toLex (swing.index, swing.kind.rank))

def detectSwings : List Swing :=
  sortedBy swingKey ((List.range' lookback (candles.length - 2 * lookback)).flatMap
    (swingsAt candles lookback))

end Swings

section Structure
variable (swings : List Swing)

/-- `available.get(index, ())`: the swings confirmed by the candle before. -/
def availableAt (index : Nat) : List Swing :=
  swings.filter fun swing => decide (swing.confirmationIndex + 1 = index)

/-- `latest_high` and `latest_low`. -/
structure LatestSwings where
  high : Option Swing := none
  low : Option Swing := none
  deriving DecidableEq

def LatestSwings.take (latest : LatestSwings) (swing : Swing) : LatestSwings :=
  match swing.kind with
  | .high => { latest with high := some swing }
  | .low => { latest with low := some swing }

def LatestSwings.advance (latest : LatestSwings) (index : Nat) : LatestSwings :=
  (availableAt swings index).foldl LatestSwings.take latest

structure StructureState where
  latest : LatestSwings := {}
  trend : Option Direction := none
  deriving DecidableEq

def structureBreak (trend : Option Direction) (direction : Direction) (target : Swing)
    (candle : Candle) (index : Nat) : StructureBreak where
  kind := if trend ≠ none ∧ trend ≠ some direction then .choch else .bos
  direction := direction
  index := index
  time := candle.closeTime
  closePrice := candle.closePrice
  brokenSwing := target
  priorTrend := trend

/-- The latest swing that the candle closes beyond. -/
def closedAbove (latest : LatestSwings) (candle : Candle) : Option Swing :=
  latest.high.filter fun swing => decide (candle.closePrice > swing.price)

def closedBelow (latest : LatestSwings) (candle : Candle) : Option Swing :=
  latest.low.filter fun swing => decide (candle.closePrice < swing.price)

def structureStep (state : StructureState) (candle : Candle) (index : Nat) :
    StructureState × List StructureBreak :=
  let latest := state.latest.advance swings index
  match closedAbove latest candle, closedBelow latest candle with
  | some target, _ =>
    ({ latest := { latest with high := none }, trend := some .bullish },
      [structureBreak state.trend .bullish target candle index])
  | none, some target =>
    ({ latest := { latest with low := none }, trend := some .bearish },
      [structureBreak state.trend .bearish target candle index])
  | none, none => ({ state with latest := latest }, [])

def detectStructureBreaks (candles : List Candle) : List StructureBreak :=
  emit (structureStep swings) {} candles

end Structure

section Liquidity
variable (swings : List Swing)

/-- A wick above the latest high that closes back below it. -/
def sweptHigh (latest : LatestSwings) (candle : Candle) : Option Swing :=
  latest.high.filter fun swing =>
    decide (candle.highPrice > swing.price ∧ swing.price > candle.closePrice)

def sweptLow (latest : LatestSwings) (candle : Candle) : Option Swing :=
  latest.low.filter fun swing =>
    decide (candle.lowPrice < swing.price ∧ swing.price < candle.closePrice)

def liquiditySweep (direction : Direction) (extremePrice : ℚ) (candle : Candle) (index : Nat)
    (swing : Swing) : LiquiditySweep where
  direction := direction
  index := index
  time := candle.closeTime
  level := swing.price
  extremePrice := extremePrice
  sweptSwing := swing

def sweepStep (latest : LatestSwings) (candle : Candle) (index : Nat) :
    LatestSwings × List LiquiditySweep :=
  let latest := latest.advance swings index
  let high := sweptHigh latest candle
  let low := sweptLow latest candle
  ({ high := if high.isSome then none else latest.high
     low := if low.isSome then none else latest.low },
    (high.map (liquiditySweep .bearish candle.highPrice candle index)).toList ++
      (low.map (liquiditySweep .bullish candle.lowPrice candle index)).toList)

def detectLiquiditySweeps (candles : List Candle) : List LiquiditySweep :=
  emit (sweepStep swings) {} candles

/-- The body of the loop over pairs of consecutive swings of one kind. -/
def equalLevel (atrValues : List (Option ℚ)) (toleranceRatio : ℚ) (maxSeparation : Nat)
    (kind : SwingKind) (pair : Swing × Swing) : Option EqualLevel :=
  if pair.2.index - pair.1.index > maxSeparation then none
  else
    match atrValues[pair.2.confirmationIndex]? with
    | none => none
    | some none => none
    | some (some atr) =>
      let tolerance := atr * toleranceRatio
      if |pair.2.price - pair.1.price| ≤ tolerance then
        some {
          kind := kind
          firstSwing := pair.1
          secondSwing := pair.2
          price := (pair.1.price + pair.2.price) / 2
          tolerance := tolerance }
      else none

def swingsOf (kind : SwingKind) : List Swing :=
  sortedBy Swing.index (swings.filter fun swing => decide (swing.kind = kind))

def equalLevelsOf (atrValues : List (Option ℚ)) (toleranceRatio : ℚ) (maxSeparation : Nat)
    (kind : SwingKind) : List EqualLevel :=
  ((swingsOf swings kind).zip (swingsOf swings kind).tail).filterMap
    (equalLevel atrValues toleranceRatio maxSeparation kind)

def detectEqualLevels (atrValues : List (Option ℚ)) (toleranceRatio : ℚ) (maxSeparation : Nat) :
    List EqualLevel :=
  sortedBy (fun level => level.secondSwing.confirmationIndex)
    (equalLevelsOf swings atrValues toleranceRatio maxSeparation .high ++
      equalLevelsOf swings atrValues toleranceRatio maxSeparation .low)

end Liquidity

section Displacements
variable (config : SMCConfig)

/-- Where in its range a candle closes, seen in its direction. -/
def closePosition (candle : Candle) : Direction → ℚ
  | .bullish => (candle.closePrice - candle.lowPrice) / candle.rangeSize
  | .bearish => (candle.highPrice - candle.closePrice) / candle.rangeSize

def displacementAt (atr averageRange : Option ℚ) (candle : Candle) (index : Nat) :
    Option Displacement :=
  match atr, averageRange, candle.direction with
  | some atr, some averageRange, some direction =>
    if candle.rangeSize = 0 then none
    else if candle.bodySize < atr * config.displacementBodyAtrRatio then none
    else if candle.rangeSize < averageRange * config.displacementRangeAverageRatio then none
    else if closePosition candle direction < config.displacementCloseFraction then none
    else
      some {
        direction := direction
        index := index
        time := candle.closeTime
        bodySize := candle.bodySize
        rangeSize := candle.rangeSize
        atr := atr
        averageRange := averageRange }
  | _, _, _ => none

def detectDisplacements (candles : List Candle) (atrValues : List (Option ℚ)) : List Displacement :=
  let averageRanges := rollingMean (candles.map Candle.rangeSize) config.rangeAveragePeriod
  emit (fun (_ : Unit) candle index =>
    ((), (displacementAt config (atrValues.getD index none) (averageRanges.getD index none) candle
      index).toList)) () candles

end Displacements

section Gaps
variable (candles : List Candle)

/-- The candle trades through the whole gap, or into it. -/
def FairValueGap.isFilledBy (gap : FairValueGap) (candle : Candle) : Bool :=
  match gap.direction with
  | .bullish => decide (candle.lowPrice ≤ gap.lowerPrice)
  | .bearish => decide (candle.highPrice ≥ gap.upperPrice)

def FairValueGap.isTouchedBy (gap : FairValueGap) (candle : Candle) : Bool :=
  match gap.direction with
  | .bullish => decide (candle.lowPrice < gap.upperPrice)
  | .bearish => decide (candle.highPrice > gap.lowerPrice)

/-- The loop of `_resolve_gap`, which carries the status and the first touch. -/
def resolveGapFrom (gap : FairValueGap) :
    Nat → ZoneStatus → Option Nat → List Candle → FairValueGap
  | _, status, firstTouch, [] => { gap with status := status, firstTouchIndex := firstTouch }
  | index, status, firstTouch, candle :: rest =>
    if gap.isFilledBy candle then
      { gap with
        status := .filled
        firstTouchIndex := some (firstTouch.getD index)
        resolvedIndex := some index }
    else if gap.isTouchedBy candle then
      resolveGapFrom gap (index + 1) .partiallyFilled (some (firstTouch.getD index)) rest
    else resolveGapFrom gap (index + 1) status firstTouch rest

def resolveGap (gap : FairValueGap) : FairValueGap :=
  resolveGapFrom gap (gap.createdIndex + 1) gap.status none (candles.drop (gap.createdIndex + 1))

/-- The bounds of a gap between the candles around an impulse, if they leave one. -/
def gapBetween (first third : Candle) : Option (Direction × ℚ × ℚ) :=
  if third.lowPrice > first.highPrice then some (.bullish, first.highPrice, third.lowPrice)
  else if third.highPrice < first.lowPrice then some (.bearish, third.highPrice, first.lowPrice)
  else none

/-- The gap created at an index, still open. -/
def gapAt (atrValues : List (Option ℚ)) (minAtrRatio : ℚ) (index : Nat) : Option FairValueGap :=
  match candles[index - 2]?, candles[index]?, atrValues.getD index none with
  | some first, some third, some atr =>
    match gapBetween first third with
    | none => none
    | some (direction, lower, upper) =>
      if upper - lower < atr * minAtrRatio then none
      else
        some {
          direction := direction
          startIndex := index - 2
          createdIndex := index
          createdAt := third.closeTime
          lowerPrice := lower
          upperPrice := upper
          status := .open }
  | _, _, _ => none

def detectFairValueGaps (atrValues : List (Option ℚ)) (minAtrRatio : ℚ) : List FairValueGap :=
  (List.range' 2 (candles.length - 2)).flatMap fun index =>
    ((gapAt candles atrValues minAtrRatio index).map (resolveGap candles)).toList

end Gaps

section OrderBlocks
variable (candles : List Candle)

def OrderBlock.isInvalidatedBy (block : OrderBlock) (candle : Candle) : Bool :=
  match block.direction with
  | .bullish => decide (candle.closePrice < block.lowerPrice)
  | .bearish => decide (candle.closePrice > block.upperPrice)

def OrderBlock.isTouchedBy (block : OrderBlock) (candle : Candle) : Bool :=
  match block.direction with
  | .bullish => decide (candle.lowPrice ≤ block.upperPrice)
  | .bearish => decide (candle.highPrice ≥ block.lowerPrice)

/-- The loop of `_resolve_order_block`. -/
def resolveOrderBlockFrom (block : OrderBlock) :
    Nat → ZoneStatus → Option Nat → List Candle → OrderBlock
  | _, status, firstTouch, [] => { block with status := status, firstTouchIndex := firstTouch }
  | index, status, firstTouch, candle :: rest =>
    if block.isInvalidatedBy candle then
      { block with
        status := .invalidated
        firstTouchIndex := firstTouch
        invalidatedIndex := some index }
    else if block.isTouchedBy candle && firstTouch.isNone then
      resolveOrderBlockFrom block (index + 1) .partiallyFilled (some index) rest
    else resolveOrderBlockFrom block (index + 1) status firstTouch rest

def resolveOrderBlock (block : OrderBlock) : OrderBlock :=
  resolveOrderBlockFrom block (block.createdIndex + 1) block.status none
    (candles.drop (block.createdIndex + 1))

def Direction.opposite : Direction → Direction
  | .bullish => .bearish
  | .bearish => .bullish

/-- The last candle against the break within the lookback. -/
def sourceIndex (searchLookback : Nat) (event : StructureBreak) : Option Nat :=
  let start := event.index - searchLookback
  (List.range' start (event.index - start)).reverse.find? fun index =>
    decide ((candles[index]?).bind Candle.direction = some event.direction.opposite)

/-- `displacement_by_index.get(index)`: a later displacement replaces an earlier one. -/
def displacementBy (displacements : List Displacement) (index : Nat) : Option Displacement :=
  displacements.reverse.find? fun event => decide (event.index = index)

/-- The block of a break that has a displacement, still open. -/
def blockAt (displacements : List Displacement) (searchLookback : Nat) (event : StructureBreak) :
    Option OrderBlock :=
  match displacementBy displacements event.index with
  | none => none
  | some displacement =>
    if displacement.direction ≠ event.direction then none
    else
      match sourceIndex candles searchLookback event with
      | none => none
      | some index =>
        (candles[index]?).map fun source => {
          direction := event.direction
          candleIndex := index
          createdIndex := event.index
          createdAt := event.time
          lowerPrice := source.lowPrice
          upperPrice := source.highPrice
          breakEvent := event
          status := .open }

/-- The loop over the breaks, with `used_candles`. -/
def orderBlocksFrom (displacements : List Displacement) (searchLookback : Nat) :
    List (Direction × Nat) → List StructureBreak → List OrderBlock
  | _, [] => []
  | used, event :: rest =>
    match blockAt candles displacements searchLookback event with
    | none => orderBlocksFrom displacements searchLookback used rest
    | some block =>
      if (block.direction, block.candleIndex) ∈ used then
        orderBlocksFrom displacements searchLookback used rest
      else
        resolveOrderBlock candles block ::
          orderBlocksFrom displacements searchLookback ((block.direction, block.candleIndex) :: used)
            rest

def detectOrderBlocks (structureBreaks : List StructureBreak) (displacements : List Displacement)
    (searchLookback : Nat) : List OrderBlock :=
  orderBlocksFrom candles displacements searchLookback [] structureBreaks

end OrderBlocks

section Ranges

/-- `_recency`. -/
def recency (swing : Swing) : Nat ×ₗ Nat := toLex (swing.confirmationIndex, swing.index)

/-- `max(swings, key=_recency, default=None)`: the first of the largest. -/
def mostRecent (swings : List Swing) : Option Swing :=
  swings.foldl (fun best swing =>
    match best with
    | none => some swing
    | some other => if recency other < recency swing then some swing else some other) none

def activeDealingRange (swings : List Swing) : Option DealingRange :=
  match mostRecent (swings.filter fun swing => decide (swing.kind = .high)),
    mostRecent (swings.filter fun swing => decide (swing.kind = .low)) with
  | some high, some low =>
    if low.price ≥ high.price then none
    else
      some {
        lowSwing := low
        highSwing := high
        lowPrice := low.price
        highPrice := high.price
        midpoint := (low.price + high.price) / 2 }
  | _, _ => none

def classifyPrice (price : ℚ) (dealingRange : DealingRange) : PriceLocation :=
  if price < dealingRange.midpoint then .discount
  else if price > dealingRange.midpoint then .premium
  else .equilibrium

end Ranges

end StructurePulse.SMC
