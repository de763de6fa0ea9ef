import StructurePulse.Library.Transactions
import StructurePulse.Replay.Runner

/-!
# The aggregated series of well-formed candles

Over well-formed candles that open on whole minutes the aggregation never raises. Its
series is increasing, and cutting the candles at an instant cuts the series at the same
instant: an interval whose end is not reached lacks its last minute.
-/

namespace StructurePulse.Replay
open Library SMC Strategy Aggregation
set_option autoImplicit false

/-- A 1m candle whose body lies in its range. -/
structure Formed (candle : Candle1m) : Prop where
  low_le_open : candle.lowPrice ≤ candle.openPrice
  low_le_close : candle.lowPrice ≤ candle.closePrice
  open_le_high : candle.openPrice ≤ candle.highPrice
  close_le_high : candle.closePrice ≤ candle.highPrice
  volume_nonneg : 0 ≤ candle.volume

section Aggregate
variable {candles : List Candle1m} {timeframe : Timeframe}

/-- The aggregate of well-formed candles passes the checks of `Candle`. -/
theorem smcCandle_aggregateOf {first : Candle1m} {rest : List Candle1m}
    (hformed : ∀ candle ∈ first :: rest, Formed candle) :
    ∃ candle, smcCandle (aggregateOf timeframe first rest) = .ok candle := by
  have hfirst := hformed first List.mem_cons_self
  have hlast : rest.getLastD first ∈ first :: rest := List.getLastD_mem_cons
  obtain ⟨-, hlows⟩ := isLeast_foldl_min Candle1m.lowPrice first.lowPrice rest
  obtain ⟨-, hhighs⟩ := isGreatest_foldl_max Candle1m.highPrice first.highPrice rest
  have hlow := hlows (Or.inl rfl)
  have hhigh := hhighs (Or.inl rfl)
  have hlastlow : rest.foldl (fun low candle => min low candle.lowPrice) first.lowPrice ≤
      (rest.getLastD first).lowPrice := by
    rcases List.mem_cons.mp hlast with h | h
    · rw [h]
      exact hlow
    · exact hlows (Or.inr ⟨_, h, rfl⟩)
  have hlasthigh : (rest.getLastD first).highPrice ≤
      rest.foldl (fun high candle => max high candle.highPrice) first.highPrice := by
    rcases List.mem_cons.mp hlast with h | h
    · rw [h]
      exact hhigh
    · exact hhighs (Or.inr ⟨_, h, rfl⟩)
  have hclose := hformed _ hlast
  unfold smcCandle
  rw [dif_pos]
  · exact ⟨_, rfl⟩
  · refine ⟨?_, ?_, ?_, ?_, ?_⟩
    · have hpos := intervalLength_pos timeframe
      change intervalStart first.openTime timeframe <
        intervalEnd (intervalStart first.openTime timeframe) timeframe
      rw [intervalEnd, intervalStart_idem]
      omega
    · exact hlow.trans ((hfirst.low_le_open.trans hfirst.open_le_high).trans hhigh)
    · exact le_min (hlow.trans hfirst.low_le_open) (hlastlow.trans hclose.low_le_close)
    · exact max_le (hfirst.open_le_high.trans hhigh) (hclose.close_le_high.trans hlasthigh)
    · refine List.sum_nonneg fun volume hvolume => ?_
      obtain ⟨candle, hcandle, rfl⟩ := List.mem_map.mp hvolume
      exact (hformed candle hcandle).volume_nonneg

theorem smcCandle_eq {aggregate : AggregatedCandle} {candle : Candle}
    (h : smcCandle aggregate = .ok candle) :
    candle.symbol = aggregate.symbol ∧ candle.timeframe = aggregate.timeframe ∧
      candle.openTime = aggregate.openTime ∧ candle.closeTime = aggregate.closeTime := by
  unfold smcCandle at h
  split at h
  · cases h
    exact ⟨rfl, rfl, rfl, rfl⟩
  · cases h

/-- An aggregate of a bucket covers the bucket's interval, up to its last minute. -/
structure Covers (candles : List Candle1m) (timeframe : Timeframe) (start : Int)
    (aggregate : AggregatedCandle) : Prop where
  ofTimeframe : aggregate.timeframe = timeframe
  symbol : ∃ candle ∈ candles, aggregate.symbol = candle.symbol
  openTime : aggregate.openTime = start
  closeTime : aggregate.closeTime = start + intervalLength timeframe
  first : ∃ candle ∈ candles, intervalStart candle.openTime timeframe = start
  last : ∃ candle ∈ candles, candle.openTime + oneMinute = start + intervalLength timeframe

theorem bucketAggregate_covers {start : Int} {aggregate : AggregatedCandle}
    (h : bucketAggregate candles timeframe start = some aggregate) :
    Covers candles timeframe start aggregate := by
  obtain ⟨-, first, rest, hfrom⟩ := aggregateCandles_some h
  have hmem : ∀ candle ∈ first :: rest,
      candle ∈ candles ∧ intervalStart candle.openTime timeframe = start := by
    intro candle hcandle
    rw [← hfrom.ordered, mem_sortedBy, List.mem_filter, decide_eq_true_eq] at hcandle
    exact hcandle
  have hstart := (hmem first List.mem_cons_self).2
  have hpos := timeframeMinutes_pos timeframe
  have hlength := hfrom.length
  have hlast : timeframeMinutes timeframe - 1 < (first :: rest).length := by omega
  have hget := List.getElem?_eq_getElem hlast
  refine ⟨?_, ⟨first, (hmem first List.mem_cons_self).1, ?_⟩, ?_, ?_,
    ⟨first, (hmem first List.mem_cons_self).1, hstart⟩,
    ⟨_, (hmem _ (List.getElem_mem hlast)).1, ?_⟩⟩
  · rw [hfrom.eq]
    rfl
  · rw [hfrom.eq]
    rfl
  · rw [hfrom.eq]
    exact hstart
  · rw [hfrom.eq]
    change intervalEnd (intervalStart first.openTime timeframe) timeframe = _
    rw [intervalEnd, intervalStart_idem, hstart]
  · rw [hfrom.onMinutes _ _ hget, hstart]
    unfold intervalLength minutes oneMinute
    omega

theorem smcCandle_bucketAggregate (hformed : ∀ candle ∈ candles, Formed candle) {start : Int}
    {aggregate : AggregatedCandle} (h : bucketAggregate candles timeframe start = some aggregate) :
    ∃ candle, smcCandle aggregate = .ok candle := by
  obtain ⟨-, first, rest, hfrom⟩ := aggregateCandles_some h
  rw [hfrom.eq]
  refine smcCandle_aggregateOf fun candle hcandle => ?_
  rw [← hfrom.ordered, mem_sortedBy, List.mem_filter] at hcandle
  exact hformed candle hcandle.1

end Aggregate

section Series
variable (candles : List Candle1m) (timeframe : Timeframe)

/-- The candle of an interval, if it can be aggregated. -/
def intervalCandle (start : Int) : Option Candle :=
  (bucketAggregate candles timeframe start).bind fun aggregate => (smcCandle aggregate).toOption

/-- The series of a timeframe. -/
def seriesOf : List Candle :=
  (bucketStarts candles timeframe).filterMap (intervalCandle candles timeframe)

variable {candles timeframe}

theorem aggregateTimeframe_eq (hformed : ∀ candle ∈ candles, Formed candle) :
    aggregateTimeframe candles timeframe = .ok (seriesOf candles timeframe) := by
  unfold aggregateTimeframe
  rw [mapM_eq_filterMap, List.filterMap_filterMap]
  · rfl
  · intro aggregate haggregate
    obtain ⟨start, -, hstart⟩ := List.mem_filterMap.mp haggregate
    exact smcCandle_bucketAggregate hformed hstart

theorem intervalCandle_some {start : Int} {candle : Candle}
    (h : intervalCandle candles timeframe start = some candle) :
    ∃ aggregate, Covers candles timeframe start aggregate ∧ smcCandle aggregate = .ok candle := by
  obtain ⟨aggregate, haggregate, hcandle⟩ := Option.bind_eq_some_iff.mp h
  refine ⟨aggregate, bucketAggregate_covers haggregate, ?_⟩
  cases hsmc : smcCandle aggregate with
  | error error =>
    rw [hsmc] at hcandle
    cases hcandle
  | ok other =>
    rw [hsmc] at hcandle
    cases hcandle
    rfl

theorem openTime_intervalCandle {start : Int} {candle : Candle}
    (h : intervalCandle candles timeframe start = some candle) :
    candle.openTime = start ∧ candle.closeTime = start + intervalLength timeframe := by
  obtain ⟨aggregate, hcovers, hsmc⟩ := intervalCandle_some h
  obtain ⟨-, -, hopen, hclose⟩ := smcCandle_eq hsmc
  exact ⟨hopen.trans hcovers.openTime, hclose.trans hcovers.closeTime⟩

/-- Every interval that can be aggregated is in the series. -/
theorem mem_seriesOf {candle : Candle} :
    candle ∈ seriesOf candles timeframe ↔
      ∃ start, intervalCandle candles timeframe start = some candle := by
  unfold seriesOf
  rw [List.mem_filterMap]
  refine ⟨fun ⟨start, _, h⟩ => ⟨start, h⟩, fun ⟨start, h⟩ => ⟨start, ?_, h⟩⟩
  obtain ⟨aggregate, hcovers, -⟩ := intervalCandle_some h
  obtain ⟨first, hfirst, hstart⟩ := hcovers.first
  unfold bucketStarts
  rw [mem_sortedBy, List.mem_dedup]
  exact List.mem_map.mpr ⟨first, hfirst, hstart⟩

theorem seriesOf_increasing :
    (seriesOf candles timeframe).Pairwise fun a b => a.openTime < b.openTime := by
  have hstarts : (bucketStarts candles timeframe).Pairwise fun a b => a < b := by
    unfold bucketStarts
    exact sortedBy_increasing id (List.nodup_dedup _)
  refine List.Pairwise.filterMap _ (fun a b hab x hx y hy => ?_) hstarts
  rw [(openTime_intervalCandle hx).1, (openTime_intervalCandle hy).1]
  exact hab

theorem closeTime_mem_seriesOf {candle : Candle} (h : candle ∈ seriesOf candles timeframe) :
    candle.closeTime = candle.openTime + intervalLength timeframe := by
  obtain ⟨start, hstart⟩ := mem_seriesOf.mp h
  obtain ⟨hopen, hclose⟩ := openTime_intervalCandle hstart
  rw [hopen, hclose]

theorem seriesOf_closes_increasing :
    (seriesOf candles timeframe).Pairwise fun a b => a.closeTime < b.closeTime := by
  refine List.Pairwise.imp_of_mem (fun ha hb hab => ?_) seriesOf_increasing
  rw [closeTime_mem_seriesOf ha, closeTime_mem_seriesOf hb]
  omega

theorem mem_seriesOf_of {candle : Candle} (h : candle ∈ seriesOf candles timeframe) :
    candle.timeframe = timeframe ∧ ∃ source ∈ candles, candle.symbol = source.symbol := by
  obtain ⟨start, hstart⟩ := mem_seriesOf.mp h
  obtain ⟨aggregate, hcovers, hsmc⟩ := intervalCandle_some hstart
  obtain ⟨hsymbol, htimeframe, -, -⟩ := smcCandle_eq hsmc
  obtain ⟨source, hsource, heq⟩ := hcovers.symbol
  exact ⟨htimeframe.trans hcovers.ofTimeframe, source, hsource, hsymbol.trans heq⟩

end Series

section Truncation
variable {candles : List Candle1m} {timeframe : Timeframe}

/-- The candle has closed at an instant. -/
def closedBy (instant : Int) (candle : Candle1m) : Bool :=
  decide (candle.openTime + oneMinute ≤ instant)

/-- An interval can be aggregated from the candles closed by an instant if and only if it
has ended by then, and then from the same candles. -/
theorem bucketAggregate_closedBy (haligned : ∀ candle ∈ candles, oneMinute ∣ candle.openTime)
    (instant start : Int) :
    bucketAggregate (candles.filter (closedBy instant)) timeframe start =
      if start + intervalLength timeframe ≤ instant then bucketAggregate candles timeframe start
      else none := by
  split
  · rename_i hended
    unfold bucketAggregate
    rw [List.filter_filter]
    congr 1
    refine List.filter_congr fun candle hcandle => ?_
    by_cases hstart : intervalStart candle.openTime timeframe = start
    · have hspec := (intervalStart_spec (haligned candle hcandle) timeframe).2
      rw [hstart] at hspec
      simp only [hstart, decide_true, Bool.true_and, closedBy]
      exact decide_eq_true (hspec.trans hended)
    · simp [hstart]
  · rename_i hended
    cases h : bucketAggregate (candles.filter (closedBy instant)) timeframe start with
    | none => rfl
    | some aggregate =>
      obtain ⟨last, hlast, hminute⟩ := (bucketAggregate_covers h).last
      have hclosed := of_decide_eq_true (List.mem_filter.mp hlast).2
      omega

theorem seriesOf_closedBy (haligned : ∀ candle ∈ candles, oneMinute ∣ candle.openTime)
    (instant : Int) :
    seriesOf (candles.filter (closedBy instant)) timeframe =
      (seriesOf candles timeframe).filter fun candle => decide (candle.closeTime ≤ instant) := by
  refine eq_of_increasing Candle.openTime seriesOf_increasing
    (seriesOf_increasing.filter _) fun candle => ?_
  rw [List.mem_filter, mem_seriesOf, mem_seriesOf, decide_eq_true_eq]
  have hinterval : ∀ start, intervalCandle (candles.filter (closedBy instant)) timeframe start =
      if start + intervalLength timeframe ≤ instant then intervalCandle candles timeframe start
      else none := by
    intro start
    unfold intervalCandle
    rw [bucketAggregate_closedBy haligned]
    split <;> rfl
  constructor
  · rintro ⟨start, hstart⟩
    rw [hinterval] at hstart
    split_ifs at hstart with hended
    refine ⟨⟨start, hstart⟩, ?_⟩
    rw [(openTime_intervalCandle hstart).2]
    exact hended
  · rintro ⟨⟨start, hstart⟩, hclosed⟩
    rw [(openTime_intervalCandle hstart).2] at hclosed
    refine ⟨start, ?_⟩
    rw [hinterval, if_pos hclosed]
    exact hstart

end Truncation

end StructurePulse.Replay
