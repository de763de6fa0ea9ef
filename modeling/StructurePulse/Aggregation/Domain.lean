import StructurePulse.Library.OrderedLists
import StructurePulse.Market
import StructurePulse.SMC.Config
import Mathlib.Algebra.Order.BigOperators.Group.List

/-!
# Aggregating 1m candles

An interval of a timeframe is aggregated only from all of its minutes. `aggregateCandles`
checks that; `aggregateCandles_minutes` is what an aggregate says about its candles.
-/

namespace StructurePulse.Aggregation
open Library SMC
set_option autoImplicit false

section Intervals

/-- `TIMEFRAME_MINUTES`. -/
def timeframeMinutes : Timeframe → Nat
  | .m5 => 5
  | .m15 => 15
  | .h1 => 60
  | .h4 => 240

/-- `TIMEFRAMES`. -/
def timeframes : List Timeframe := [.m5, .m15, .h1, .h4]

theorem timeframeMinutes_pos (timeframe : Timeframe) : 0 < timeframeMinutes timeframe := by
  cases timeframe <;> decide

/-- `int(timestamp)` cuts towards zero, `//` and `%` round down. -/
def intervalStart (value : Int) (timeframe : Timeframe) : Int :=
  let minuteIndex := value.tdiv 1000000 / 60
  let duration : Int := timeframeMinutes timeframe
  (minuteIndex - minuteIndex % duration) * oneMinute

def intervalLength (timeframe : Timeframe) : Int := minutes (timeframeMinutes timeframe)

def intervalEnd (start : Int) (timeframe : Timeframe) : Int :=
  intervalStart start timeframe + intervalLength timeframe

theorem intervalLength_pos (timeframe : Timeframe) : 0 < intervalLength timeframe := by
  cases timeframe <;> decide

theorem intervalStart_minute (k : Int) (timeframe : Timeframe) :
    intervalStart (k * oneMinute) timeframe = (k - k % timeframeMinutes timeframe) * oneMinute := by
  have hsplit : k * oneMinute = k * 60 * 1000000 := by
    unfold oneMinute
    omega
  have hminute : (k * oneMinute).tdiv 1000000 / 60 = k := by
    rw [hsplit, Int.mul_tdiv_cancel _ (by decide), Int.mul_ediv_cancel _ (by decide)]
  unfold intervalStart
  simp only [hminute]

theorem intervalStart_spec {value : Int} (h : oneMinute ∣ value) (timeframe : Timeframe) :
    intervalStart value timeframe ≤ value ∧
      value + oneMinute ≤ intervalStart value timeframe + intervalLength timeframe := by
  obtain ⟨k, rfl⟩ := h
  rw [Int.mul_comm, intervalStart_minute]
  unfold intervalLength minutes oneMinute
  have hpos := timeframeMinutes_pos timeframe
  have hnonneg := Int.emod_nonneg k (show (timeframeMinutes timeframe : Int) ≠ 0 by omega)
  have hlt := Int.emod_lt_of_pos k (show (0 : Int) < timeframeMinutes timeframe by omega)
  constructor
  · omega
  · omega

/-- An interval starts in itself. -/
theorem intervalStart_idem (value : Int) (timeframe : Timeframe) :
    intervalStart (intervalStart value timeframe) timeframe = intervalStart value timeframe := by
  have hstart : intervalStart value timeframe = (value.tdiv 1000000 / 60 -
      value.tdiv 1000000 / 60 % timeframeMinutes timeframe) * oneMinute := rfl
  rw [hstart, intervalStart_minute]
  have hzero : (value.tdiv 1000000 / 60 - value.tdiv 1000000 / 60 % timeframeMinutes timeframe) %
      timeframeMinutes timeframe = 0 := by
    rw [Int.sub_emod, Int.emod_emod_of_dvd _ (dvd_refl _), sub_self, Int.zero_emod]
  rw [hzero, sub_zero]

/-- The minutes of an interval start in it. -/
theorem intervalStart_add {start : Int} (timeframe : Timeframe)
    (hstart : intervalStart start timeframe = start) {i : Nat} (hi : i < timeframeMinutes timeframe) :
    intervalStart (start + minutes i) timeframe = start := by
  have hindex : start = (start.tdiv 1000000 / 60 -
      start.tdiv 1000000 / 60 % timeframeMinutes timeframe) * oneMinute := hstart.symm
  generalize hk : start.tdiv 1000000 / 60 - start.tdiv 1000000 / 60 % timeframeMinutes timeframe = k
    at hindex
  have hzero : k % timeframeMinutes timeframe = 0 := by
    rw [← hk, Int.sub_emod, Int.emod_emod_of_dvd _ (dvd_refl _), sub_self, Int.zero_emod]
  rw [hindex, minutes, ← Int.add_mul, intervalStart_minute]
  have hmod : (k + (i : Int)) % timeframeMinutes timeframe = i := by
    rw [Int.add_emod, hzero, Int.zero_add, Int.emod_emod_of_dvd _ (dvd_refl _)]
    exact Int.emod_eq_of_lt (by omega) (by omega)
  rw [hmod, Int.add_sub_cancel]

end Intervals

section Aggregates

structure AggregatedCandle where
  symbol : Symbol
  timeframe : Timeframe
  openTime : Int
  closeTime : Int
  openPrice : ℚ
  highPrice : ℚ
  lowPrice : ℚ
  closePrice : ℚ
  volume : ℚ
  turnover : ℚ
  sourceCandleCount : Nat
  deriving Repr, DecidableEq

/-- The aggregate of candles that were checked, in order. -/
def aggregateOf (timeframe : Timeframe) (first : Candle1m) (rest : List Candle1m) :
    AggregatedCandle where
  symbol := first.symbol
  timeframe := timeframe
  openTime := intervalStart first.openTime timeframe
  closeTime := intervalEnd (intervalStart first.openTime timeframe) timeframe
  openPrice := first.openPrice
  highPrice := rest.foldl (fun high candle => max high candle.highPrice) first.highPrice
  lowPrice := rest.foldl (fun low candle => min low candle.lowPrice) first.lowPrice
  closePrice := (rest.getLastD first).closePrice
  volume := ((first :: rest).map Candle1m.volume).sum
  turnover := ((first :: rest).map Candle1m.turnover).sum
  sourceCandleCount := timeframeMinutes timeframe

/-- Every candle is at its minute of the interval. -/
def onMinutes (start : Int) (ordered : List Candle1m) : Bool :=
  ordered.zipIdx.all fun (candle, index) => decide (candle.openTime = start + minutes index)

def aggregateCandles (candles : List Candle1m) (timeframe : Timeframe)
    (expectedOpenTime : Option Int) : Option AggregatedCandle :=
  match sortedBy Candle1m.openTime candles with
  | [] => none
  | first :: rest =>
    let start := intervalStart first.openTime timeframe
    if expectedOpenTime.any fun expected => decide (start ≠ intervalStart expected timeframe) then
      none
    else if (first :: rest).length ≠ timeframeMinutes timeframe then none
    else if (first :: rest).any fun candle => decide (candle.symbol ≠ first.symbol) then none
    else if !onMinutes start (first :: rest) then none
    else some (aggregateOf timeframe first rest)

/-- An aggregate is made from the candles of all its minutes. -/
structure AggregatedFrom (candles : List Candle1m) (timeframe : Timeframe)
    (aggregate : AggregatedCandle) (first : Candle1m) (rest : List Candle1m) : Prop where
  ordered : sortedBy Candle1m.openTime candles = first :: rest
  eq : aggregate = aggregateOf timeframe first rest
  length : (first :: rest).length = timeframeMinutes timeframe
  symbols : ∀ candle ∈ first :: rest, candle.symbol = first.symbol
  onMinutes : ∀ (i : Nat) candle, (first :: rest)[i]? = some candle →
    candle.openTime = intervalStart first.openTime timeframe + minutes i

theorem aggregateCandles_some {candles : List Candle1m} {timeframe : Timeframe}
    {expected : Option Int} {aggregate : AggregatedCandle}
    (h : aggregateCandles candles timeframe expected = some aggregate) :
    (∀ time ∈ expected, aggregate.openTime = intervalStart time timeframe) ∧
      ∃ first rest, AggregatedFrom candles timeframe aggregate first rest := by
  unfold aggregateCandles at h
  split at h
  · cases h
  · rename_i first rest hordered
    simp only at h
    split_ifs at h with hexpected hlength hsymbols hminutes
    cases h
    refine ⟨fun time htime => ?_, first, rest, hordered, rfl, not_not.mp hlength, ?_, ?_⟩
    · rw [Option.mem_def.mp htime, Option.any_some, decide_eq_true_eq, not_not] at hexpected
      exact hexpected
    · intro candle hcandle
      by_contra hne
      exact hsymbols (List.any_eq_true.mpr ⟨candle, hcandle, decide_eq_true hne⟩)
    · intro i candle hi
      rw [Bool.not_eq_true', Bool.not_eq_false] at hminutes
      have hall := List.all_eq_true.mp hminutes (candle, i)
        (List.mem_zipIdx_iff_getElem?.mpr hi)
      exact of_decide_eq_true hall

end Aggregates

end StructurePulse.Aggregation
