import StructurePulse.Aggregation.Domain

/-!
# What an aggregate is, without the checks

Candles are complete for an interval if they are one symbol's and open at the minutes of the
interval, each once. `aggregateCandles` accepts complete candles only, in any order, and
summarizes them: first open, highest high, lowest low, last close and the sums.
-/

namespace StructurePulse.Aggregation
open Library SMC
set_option autoImplicit false

section Minutes

/-- The opening times of an interval's minutes. -/
def minutesOf (start : Int) (count : Nat) : List Int :=
  (List.range count).map fun (index : Nat) => start + minutes index

theorem mem_minutesOf {start time : Int} {count : Nat} :
    time ∈ minutesOf start count ↔ ∃ index : Nat, index < count ∧ time = start + minutes index := by
  unfold minutesOf
  rw [List.mem_map]
  simp only [List.mem_range]
  exact exists_congr fun index => and_congr_right fun _ => eq_comm

theorem minutesOf_increasing (start : Int) (count : Nat) :
    (minutesOf start count).Pairwise fun a b => a < b := by
  refine List.pairwise_map.mpr (List.pairwise_lt_range.imp fun {i j} hlt => ?_)
  unfold minutes oneMinute
  omega

/-- An interval is tiled by shorter ones. -/
theorem minutesOf_mul (start : Int) (pieces count : Nat) :
    minutesOf start (pieces * count) =
      (List.range pieces).flatMap fun (piece : Nat) => minutesOf (start + minutes (piece * count : Nat)) count := by
  induction pieces with
  | zero =>
    rw [Nat.zero_mul]
    rfl
  | succ pieces ih =>
    rw [List.range_succ, List.flatMap_append, ← ih, List.flatMap_singleton, Nat.succ_mul]
    unfold minutesOf
    rw [List.range_add, List.map_append, List.map_map, List.append_cancel_left_eq]
    refine List.map_congr_left fun index _ => ?_
    simp only [Function.comp_apply]
    unfold minutes oneMinute
    push_cast
    omega

/-- The intervals of a timeframe are counted from the epoch. -/
theorem intervalStart_eq_self_iff {start : Int} {timeframe : Timeframe} :
    intervalStart start timeframe = start ↔ intervalLength timeframe ∣ start := by
  constructor
  · intro h
    have hstart : start = (start.tdiv 1000000 / 60 -
        start.tdiv 1000000 / 60 % timeframeMinutes timeframe) * oneMinute := h.symm
    rw [hstart]
    unfold intervalLength minutes
    exact mul_dvd_mul_right (Int.dvd_self_sub_emod) oneMinute
  · rintro ⟨k, rfl⟩
    have hminute : intervalLength timeframe * k = timeframeMinutes timeframe * k * oneMinute := by
      unfold intervalLength minutes
      ring
    rw [hminute, intervalStart_minute, Int.mul_emod_right, sub_zero]

/-- From the epoch on, a time is in the interval that contains it. -/
theorem intervalStart_eq_iff {time start : Int} {timeframe : Timeframe} (htime : 0 ≤ time)
    (hstart : intervalLength timeframe ∣ start) :
    intervalStart time timeframe = start ↔
      start ≤ time ∧ time < start + intervalLength timeframe := by
  obtain ⟨k, rfl⟩ := hstart
  have hdiv : time.tdiv 1000000 = time / 1000000 := Int.tdiv_eq_ediv_of_nonneg htime
  unfold intervalStart
  rw [hdiv]
  unfold intervalLength minutes oneMinute
  cases timeframe with
  | m5 | m15 | h1 | h4 =>
    simp only [timeframeMinutes]
    push_cast
    omega

end Minutes

section Summary

/-- One symbol's candles, one at each minute of an interval. -/
structure CompleteInterval (candles : List Candle1m) (timeframe : Timeframe) (start : Int) :
    Prop where
  aligned : intervalLength timeframe ∣ start
  symbols : ∀ candle ∈ candles, ∀ other ∈ candles, candle.symbol = other.symbol
  times : (candles.map Candle1m.openTime).Perm (minutesOf start (timeframeMinutes timeframe))

/-- What an aggregate says about the candles of an interval. -/
structure Summarizes (candles : List Candle1m) (timeframe : Timeframe) (start : Int)
    (aggregate : AggregatedCandle) : Prop where
  symbol : ∀ candle ∈ candles, aggregate.symbol = candle.symbol
  ofTimeframe : aggregate.timeframe = timeframe
  openTime : aggregate.openTime = start
  closeTime : aggregate.closeTime = start + intervalLength timeframe
  openPrice : ∀ candle ∈ candles, candle.openTime = start →
    aggregate.openPrice = candle.openPrice
  highPrice : IsGreatest {price | ∃ candle ∈ candles, candle.highPrice = price} aggregate.highPrice
  lowPrice : IsLeast {price | ∃ candle ∈ candles, candle.lowPrice = price} aggregate.lowPrice
  closePrice : ∀ candle ∈ candles, candle.openTime + oneMinute = start + intervalLength timeframe →
    aggregate.closePrice = candle.closePrice
  volume : aggregate.volume = (candles.map Candle1m.volume).sum
  turnover : aggregate.turnover = (candles.map Candle1m.turnover).sum
  count : aggregate.sourceCandleCount = timeframeMinutes timeframe

variable {candles candles' : List Candle1m} {timeframe : Timeframe} {start : Int}
variable {aggregate : AggregatedCandle}

theorem CompleteInterval.exists_at (h : CompleteInterval candles timeframe start) {index : Nat}
    (hindex : index < timeframeMinutes timeframe) :
    ∃ candle ∈ candles, candle.openTime = start + minutes index := by
  have hmem : start + minutes index ∈ minutesOf start (timeframeMinutes timeframe) :=
    mem_minutesOf.mpr ⟨index, hindex, rfl⟩
  obtain ⟨candle, hcandle, htime⟩ := List.mem_map.mp (h.times.mem_iff.mpr hmem)
  exact ⟨candle, hcandle, htime⟩

/-- The candles of an interval have only one summary. -/
theorem CompleteInterval.summary_unique (h : CompleteInterval candles timeframe start)
    {other : AggregatedCandle} (ha : Summarizes candles timeframe start aggregate)
    (ho : Summarizes candles timeframe start other) : aggregate = other := by
  have hpos := timeframeMinutes_pos timeframe
  obtain ⟨first, hfirst, hopens⟩ := h.exists_at hpos
  obtain ⟨last, hlast, hlasts⟩ :=
    @CompleteInterval.exists_at _ _ _ h (timeframeMinutes timeframe - 1) (by omega)
  have hopen : first.openTime = start := by
    rw [hopens]
    unfold minutes
    omega
  have hclose : last.openTime + oneMinute = start + intervalLength timeframe := by
    rw [hlasts]
    unfold intervalLength minutes oneMinute
    omega
  cases aggregate with
  | mk symbol tf openTime closeTime openPrice highPrice lowPrice closePrice volume turnover count =>
    cases other with
    | mk symbol' tf' openTime' closeTime' openPrice' highPrice' lowPrice' closePrice' volume'
        turnover' count' =>
      rw [AggregatedCandle.mk.injEq]
      exact ⟨(ha.symbol first hfirst).trans (ho.symbol first hfirst).symm,
        ha.ofTimeframe.trans ho.ofTimeframe.symm, ha.openTime.trans ho.openTime.symm,
        ha.closeTime.trans ho.closeTime.symm,
        (ha.openPrice first hfirst hopen).trans (ho.openPrice first hfirst hopen).symm,
        ha.highPrice.unique ho.highPrice, ha.lowPrice.unique ho.lowPrice,
        (ha.closePrice last hlast hclose).trans (ho.closePrice last hlast hclose).symm,
        ha.volume.trans ho.volume.symm, ha.turnover.trans ho.turnover.symm,
        ha.count.trans ho.count.symm⟩

/-- Neither completeness nor the summary looks at the order. -/
theorem CompleteInterval.perm (h : CompleteInterval candles timeframe start)
    (hperm : candles'.Perm candles) : CompleteInterval candles' timeframe start where
  aligned := h.aligned
  symbols := fun candle hcandle other hother =>
    h.symbols candle (hperm.mem_iff.mp hcandle) other (hperm.mem_iff.mp hother)
  times := (hperm.map _).trans h.times

theorem Summarizes.perm (h : Summarizes candles timeframe start aggregate)
    (hperm : candles'.Perm candles) : Summarizes candles' timeframe start aggregate where
  symbol := fun candle hcandle => h.symbol candle (hperm.mem_iff.mp hcandle)
  ofTimeframe := h.ofTimeframe
  openTime := h.openTime
  closeTime := h.closeTime
  openPrice := fun candle hcandle => h.openPrice candle (hperm.mem_iff.mp hcandle)
  highPrice := by
    simp only [hperm.mem_iff]
    exact h.highPrice
  lowPrice := by
    simp only [hperm.mem_iff]
    exact h.lowPrice
  closePrice := fun candle hcandle => h.closePrice candle (hperm.mem_iff.mp hcandle)
  volume := h.volume.trans (hperm.map _).sum_eq.symm
  turnover := h.turnover.trans (hperm.map _).sum_eq.symm
  count := h.count

/-- Candles at the minutes of an interval, in order. -/
structure InOrder (timeframe : Timeframe) (start : Int) (first : Candle1m) (rest : List Candle1m) :
    Prop where
  aligned : intervalLength timeframe ∣ start
  symbols : ∀ candle ∈ first :: rest, candle.symbol = first.symbol
  times : (first :: rest).map Candle1m.openTime = minutesOf start (timeframeMinutes timeframe)

variable {first : Candle1m} {rest : List Candle1m}

theorem InOrder.length (h : InOrder timeframe start first rest) :
    (first :: rest).length = timeframeMinutes timeframe := by
  rw [← List.length_map Candle1m.openTime, h.times, minutesOf, List.length_map, List.length_range]

theorem InOrder.openTime_getElem (h : InOrder timeframe start first rest) {index : Nat}
    {candle : Candle1m} (hget : (first :: rest)[index]? = some candle) :
    candle.openTime = start + minutes index := by
  have hmap : ((first :: rest).map Candle1m.openTime)[index]? = some candle.openTime := by
    rw [List.getElem?_map, hget]
    rfl
  rw [h.times, minutesOf, List.getElem?_map, Option.map_eq_some_iff] at hmap
  obtain ⟨position, hposition, htime⟩ := hmap
  obtain ⟨hlt, heq⟩ := List.getElem?_eq_some_iff.mp hposition
  rw [List.getElem_range] at heq
  rw [← htime, heq]

theorem InOrder.first_openTime (h : InOrder timeframe start first rest) : first.openTime = start := by
  have htime := @InOrder.openTime_getElem _ _ _ _ h 0 first rfl
  rw [htime]
  unfold minutes
  omega

theorem InOrder.complete (h : InOrder timeframe start first rest) :
    CompleteInterval (first :: rest) timeframe start where
  aligned := h.aligned
  symbols := fun candle hcandle other hother =>
    (h.symbols candle hcandle).trans (h.symbols other hother).symm
  times := h.times ▸ List.Perm.refl _

/-- What the aggregation computes of candles in order is their summary. -/
theorem InOrder.summarizes (h : InOrder timeframe start first rest) :
    Summarizes (first :: rest) timeframe start (aggregateOf timeframe first rest) where
  symbol := fun candle hcandle => (h.symbols candle hcandle).symm
  ofTimeframe := rfl
  openTime := by
    show intervalStart first.openTime timeframe = start
    rw [h.first_openTime]
    exact intervalStart_eq_self_iff.mpr h.aligned
  closeTime := by
    show intervalEnd (intervalStart first.openTime timeframe) timeframe = _
    rw [intervalEnd, intervalStart_idem, h.first_openTime, intervalStart_eq_self_iff.mpr h.aligned]
  openPrice := by
    intro candle hcandle htime
    obtain ⟨index, hget⟩ := List.mem_iff_getElem?.mp hcandle
    have hindex := h.openTime_getElem hget
    have hzero : index = 0 := by
      rw [htime] at hindex
      unfold minutes oneMinute at hindex
      omega
    rw [hzero] at hget
    cases hget
    rfl
  highPrice := by
    have hgreatest := isGreatest_foldl_max Candle1m.highPrice first.highPrice rest
    simp only [List.exists_mem_cons_iff, eq_comm (a := first.highPrice)]
    exact hgreatest
  lowPrice := by
    have hleast := isLeast_foldl_min Candle1m.lowPrice first.lowPrice rest
    simp only [List.exists_mem_cons_iff, eq_comm (a := first.lowPrice)]
    exact hleast
  closePrice := by
    intro candle hcandle htime
    obtain ⟨index, hget⟩ := List.mem_iff_getElem?.mp hcandle
    have hindex := h.openTime_getElem hget
    have hlength := h.length
    have hlast : index = rest.length := by
      rw [List.length_cons] at hlength
      rw [hindex] at htime
      unfold intervalLength minutes oneMinute at htime
      omega
    rw [hlast, getElem?_length_getLastD] at hget
    cases hget
    rfl
  volume := rfl
  turnover := rfl
  count := rfl

/-- The order in which the aggregation looks at complete candles. -/
theorem CompleteInterval.inOrder (h : CompleteInterval candles timeframe start) :
    ∃ first rest, sortedBy Candle1m.openTime candles = first :: rest ∧
      InOrder timeframe start first rest := by
  have htimes : (sortedBy Candle1m.openTime candles).map Candle1m.openTime =
      minutesOf start (timeframeMinutes timeframe) := by
    have hincreasing := minutesOf_increasing start (timeframeMinutes timeframe)
    calc (sortedBy Candle1m.openTime candles).map Candle1m.openTime
        = sortedBy id (candles.map Candle1m.openTime) := (sortedBy_map id _ candles).symm
      _ = sortedBy id (minutesOf start (timeframeMinutes timeframe)) :=
        sortedBy_eq_of_perm h.times (hincreasing.imp ne_of_lt)
      _ = minutesOf start (timeframeMinutes timeframe) :=
        sortedBy_of_pairwise (hincreasing.imp le_of_lt)
  cases hsorted : sortedBy Candle1m.openTime candles with
  | nil =>
    have hpos := timeframeMinutes_pos timeframe
    have hlength := congrArg List.length htimes
    rw [hsorted, minutesOf, List.length_map, List.length_map, List.length_range] at hlength
    exact absurd hlength (Nat.ne_of_lt hpos)
  | cons first rest =>
    refine ⟨first, rest, rfl, h.aligned, fun candle hcandle => ?_, hsorted ▸ htimes⟩
    rw [← hsorted, mem_sortedBy] at hcandle
    have hfirst : first ∈ candles := by
      rw [← @mem_sortedBy _ _ _ Candle1m.openTime, hsorted]
      exact List.mem_cons_self
    exact h.symbols candle hcandle first hfirst

/-- What is accepted is in order. -/
theorem AggregatedFrom.inOrder (h : AggregatedFrom candles timeframe aggregate first rest) :
    InOrder timeframe (intervalStart first.openTime timeframe) first rest where
  aligned := intervalStart_eq_self_iff.mp (intervalStart_idem _ _)
  symbols := h.symbols
  times := by
    refine List.ext_getElem? fun index => ?_
    rw [minutesOf, List.getElem?_map, List.getElem?_map]
    have hlength := h.length
    by_cases hindex : index < timeframeMinutes timeframe
    · have hget := List.getElem?_eq_getElem (l := first :: rest) (i := index) (by omega)
      rw [hget, List.getElem?_range hindex, Option.map_some, Option.map_some, h.onMinutes index _ hget]
    · rw [List.getElem?_eq_none (by omega), List.getElem?_eq_none (by rw [List.length_range]; omega)]
      rfl

end Summary

section Result
variable {candles candles' : List Candle1m} {timeframe : Timeframe} {expected : Option Int}
variable {aggregate : AggregatedCandle}

/-- The aggregation accepts complete candles of the expected interval and summarizes them. -/
theorem aggregateCandles_eq_some_iff :
    aggregateCandles candles timeframe expected = some aggregate ↔
      ∃ start, CompleteInterval candles timeframe start ∧
        (∀ time ∈ expected, intervalStart time timeframe = start) ∧
        Summarizes candles timeframe start aggregate := by
  constructor
  · intro h
    obtain ⟨hexpected, first, rest, hfrom⟩ := aggregateCandles_some h
    have horder := hfrom.inOrder
    have hperm : candles.Perm (first :: rest) :=
      hfrom.ordered ▸ (@sortedBy_perm _ _ _ Candle1m.openTime candles).symm
    refine ⟨_, horder.complete.perm hperm, fun time htime => ?_, ?_⟩
    · rw [← hexpected time htime, hfrom.eq]
      rfl
    · rw [hfrom.eq]
      exact horder.summarizes.perm hperm
  · rintro ⟨start, hcomplete, hexpected, hsummary⟩
    obtain ⟨first, rest, hsorted, horder⟩ := hcomplete.inOrder
    have hperm : candles.Perm (first :: rest) :=
      hsorted ▸ (@sortedBy_perm _ _ _ Candle1m.openTime candles).symm
    have hsame := hcomplete.summary_unique hsummary (horder.summarizes.perm hperm)
    have hstart : intervalStart first.openTime timeframe = start := by
      rw [horder.first_openTime]
      exact intervalStart_eq_self_iff.mpr hcomplete.aligned
    unfold aggregateCandles
    rw [hsorted]
    simp only
    rw [if_neg, if_neg, if_neg, if_neg, hsame]
    · -- every candle is at its minute
      rw [Bool.not_eq_true', Bool.not_eq_false, onMinutes, List.all_eq_true]
      rintro ⟨candle, index⟩ hmem
      have hget := List.mem_zipIdx_iff_getElem?.mp hmem
      rw [hstart]
      exact decide_eq_true (horder.openTime_getElem hget)
    · rw [Bool.not_eq_true, List.any_eq_false]
      intro candle hcandle
      rw [decide_eq_true_eq, not_not]
      exact horder.symbols candle hcandle
    · exact not_not.mpr horder.length
    · rw [Bool.not_eq_true, hstart]
      cases expected with
      | none => rfl
      | some time =>
        rw [Option.any_some, decide_eq_false_iff_not, not_not]
        exact (hexpected time rfl).symm

/-- The aggregation does not depend on the order of the candles. -/
theorem aggregateCandles_perm (hperm : candles'.Perm candles) :
    aggregateCandles candles' timeframe expected = aggregateCandles candles timeframe expected := by
  refine Option.ext fun aggregate => ?_
  rw [aggregateCandles_eq_some_iff, aggregateCandles_eq_some_iff]
  constructor
  · rintro ⟨start, hcomplete, hexpected, hsummary⟩
    exact ⟨start, hcomplete.perm hperm.symm, hexpected, hsummary.perm hperm.symm⟩
  · rintro ⟨start, hcomplete, hexpected, hsummary⟩
    exact ⟨start, hcomplete.perm hperm, hexpected, hsummary.perm hperm⟩

/-- Complete candles have a summary. -/
theorem CompleteInterval.exists_summary {start : Int}
    (h : CompleteInterval candles timeframe start) :
    ∃ aggregate, Summarizes candles timeframe start aggregate := by
  obtain ⟨first, rest, hsorted, horder⟩ := h.inOrder
  exact ⟨_, horder.summarizes.perm
    (hsorted ▸ (@sortedBy_perm _ _ _ Candle1m.openTime candles).symm)⟩

end Result

end StructurePulse.Aggregation
