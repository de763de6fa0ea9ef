import Mathlib.Data.Rat.Floor
import Mathlib.Data.Prod.Lex
import Mathlib.Data.String.Basic
import Mathlib.Order.Interval.Set.Defs

/-!
# Market data shared by the tracker, the store and the analysis

A `Decimal` is the exact rational it denotes and its arithmetic is exact; the `Rounded`
namespaces hold the formulas whose results the 28 digits of the code change. A
timezone-aware `datetime` and a `timedelta` are integers counting microseconds, their
resolution; instants count from the Unix epoch.
-/

namespace StructurePulse
set_option autoImplicit false

abbrev Symbol := String

def oneMicrosecond : Int := 1
def oneMinute : Int := 60000000
def oneHour : Int := 60 * oneMinute

/-- `timedelta(minutes=n)`. -/
def minutes (n : Int) : Int := n * oneMinute

/-- `value.replace(second=0, microsecond=0)`. -/
def minuteFloor (value : Int) : Int := value - value % oneMinute

theorem oneMinute_pos : 0 < oneMinute := by decide

theorem minuteFloor_le (value : Int) : minuteFloor value ≤ value := by
  unfold minuteFloor oneMinute
  omega

theorem lt_minuteFloor_add (value : Int) : value < minuteFloor value + oneMinute := by
  unfold minuteFloor oneMinute
  omega

theorem dvd_minuteFloor (value : Int) : oneMinute ∣ minuteFloor value :=
  Int.dvd_self_sub_emod

inductive TradeDirection where
  | long
  | short
  deriving Repr, DecidableEq

def TradeDirection.opposite : TradeDirection → TradeDirection
  | .long => .short
  | .short => .long

inductive TradeSide where
  | buy
  | sell
  deriving Repr, DecidableEq

structure Candle1m where
  symbol : Symbol
  openTime : Int
  openPrice : ℚ
  highPrice : ℚ
  lowPrice : ℚ
  closePrice : ℚ
  volume : ℚ
  turnover : ℚ
  deriving Repr, DecidableEq

structure PublicTrade where
  tradeId : String
  symbol : Symbol
  price : ℚ
  size : ℚ
  side : TradeSide
  executedAt : Int
  sequence : Int
  isBlockTrade : Bool := false
  isRpiTrade : Bool := false
  deriving Repr, DecidableEq

/-- The sort key `(executed_at, sequence, trade_id)` of every trade list. -/
abbrev TradeKey := Int ×ₗ Int ×ₗ String

def PublicTrade.key (trade : PublicTrade) : TradeKey :=
  toLex (trade.executedAt, toLex (trade.sequence, trade.tradeId))

theorem executedAt_le_of_key_le {s t : PublicTrade} (h : s.key ≤ t.key) :
    s.executedAt ≤ t.executedAt := by
  rcases Prod.Lex.le_iff.mp h with h | h
  · exact le_of_lt h
  · exact le_of_eq h.1

theorem executedAt_le_of_key_lt {s t : PublicTrade} (h : s.key < t.key) :
    s.executedAt ≤ t.executedAt := executedAt_le_of_key_le (le_of_lt h)

/-- The exchange's order of trades, as a list: strictly increasing keys. -/
def ExchangeOrdered (trades : List PublicTrade) : Prop := trades.Pairwise fun s t => s.key < t.key

instance (trades : List PublicTrade) : Decidable (ExchangeOrdered trades) :=
  inferInstanceAs (Decidable (List.Pairwise _ _))

end StructurePulse
