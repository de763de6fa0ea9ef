import StructurePulse.Market
import StructurePulse.SMC.Config

/-!
# What the SMC core reads and reports

A `Candle` carries the checks of its `__post_init__`, so an impossible candle does not
exist here. A `datetime` is always timezone-aware, as in the market data.
-/

namespace StructurePulse.SMC
set_option autoImplicit false

inductive Direction where
  | bullish
  | bearish
  deriving Repr, DecidableEq

inductive SwingKind where
  | high
  | low
  deriving Repr, DecidableEq

inductive BreakKind where
  | bos
  | choch
  deriving Repr, DecidableEq

inductive ZoneStatus where
  | open
  | partiallyFilled
  | filled
  | invalidated
  deriving Repr, DecidableEq

inductive PriceLocation where
  | discount
  | equilibrium
  | premium
  deriving Repr, DecidableEq

structure Candle where
  symbol : Symbol
  timeframe : Timeframe
  openTime : Int
  closeTime : Int
  openPrice : ℚ
  highPrice : ℚ
  lowPrice : ℚ
  closePrice : ℚ
  volume : ℚ := 0
  openTime_lt : openTime < closeTime
  low_le_high : lowPrice ≤ highPrice
  low_le_body : lowPrice ≤ min openPrice closePrice
  body_le_high : max openPrice closePrice ≤ highPrice
  volume_nonneg : 0 ≤ volume
  deriving DecidableEq

/-- The candle at a place of a series whose body and wicks span the given prices. -/
def Candle.drawn (timeframe : Timeframe) (index : Nat) (low openPrice closePrice high : ℚ) :
    Candle where
  symbol := "BTCUSDT"
  timeframe := timeframe
  openTime := 300000000 * index
  closeTime := 300000000 * index + 300000000
  openPrice := openPrice
  highPrice := max high (max openPrice closePrice)
  lowPrice := min low (min openPrice closePrice)
  closePrice := closePrice
  openTime_lt := by omega
  low_le_high := (min_le_right _ _).trans (min_le_max.trans (le_max_right _ _))
  low_le_body := min_le_right _ _
  body_le_high := le_max_right _ _
  volume_nonneg := le_refl 0

section Candle
variable (candle : Candle)

def Candle.bodySize : ℚ := |candle.closePrice - candle.openPrice|

def Candle.rangeSize : ℚ := candle.highPrice - candle.lowPrice

def Candle.direction : Option Direction :=
  if candle.closePrice > candle.openPrice then some .bullish
  else if candle.closePrice < candle.openPrice then some .bearish
  else none

theorem Candle.low_le_close : candle.lowPrice ≤ candle.closePrice :=
  (le_min_iff.mp candle.low_le_body).2

theorem Candle.close_le_high : candle.closePrice ≤ candle.highPrice :=
  (max_le_iff.mp candle.body_le_high).2

end Candle

structure Swing where
  kind : SwingKind
  index : Nat
  confirmationIndex : Nat
  time : Int
  price : ℚ
  deriving Repr, DecidableEq

structure StructureBreak where
  kind : BreakKind
  direction : Direction
  index : Nat
  time : Int
  closePrice : ℚ
  brokenSwing : Swing
  priorTrend : Option Direction
  deriving Repr, DecidableEq

structure LiquiditySweep where
  direction : Direction
  index : Nat
  time : Int
  level : ℚ
  extremePrice : ℚ
  sweptSwing : Swing
  deriving Repr, DecidableEq

structure EqualLevel where
  kind : SwingKind
  firstSwing : Swing
  secondSwing : Swing
  price : ℚ
  tolerance : ℚ
  deriving Repr, DecidableEq

structure Displacement where
  direction : Direction
  index : Nat
  time : Int
  bodySize : ℚ
  rangeSize : ℚ
  atr : ℚ
  averageRange : ℚ
  deriving Repr, DecidableEq

structure FairValueGap where
  direction : Direction
  startIndex : Nat
  createdIndex : Nat
  createdAt : Int
  lowerPrice : ℚ
  upperPrice : ℚ
  status : ZoneStatus
  firstTouchIndex : Option Nat := none
  resolvedIndex : Option Nat := none
  deriving Repr, DecidableEq

structure OrderBlock where
  direction : Direction
  candleIndex : Nat
  createdIndex : Nat
  createdAt : Int
  lowerPrice : ℚ
  upperPrice : ℚ
  breakEvent : StructureBreak
  status : ZoneStatus
  firstTouchIndex : Option Nat := none
  invalidatedIndex : Option Nat := none
  deriving Repr, DecidableEq

structure DealingRange where
  lowSwing : Swing
  highSwing : Swing
  lowPrice : ℚ
  highPrice : ℚ
  midpoint : ℚ
  deriving Repr, DecidableEq

structure SMCAnalysis where
  symbol : Symbol
  timeframe : Timeframe
  candleCount : Nat
  atr : List (Option ℚ)
  swings : List Swing
  structureBreaks : List StructureBreak
  liquiditySweeps : List LiquiditySweep
  equalLevels : List EqualLevel
  displacements : List Displacement
  fairValueGaps : List FairValueGap
  orderBlocks : List OrderBlock
  dealingRange : Option DealingRange
  priceLocation : Option PriceLocation
  deriving Repr, DecidableEq

end StructurePulse.SMC
