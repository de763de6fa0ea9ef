import StructurePulse.Library.Averages
import StructurePulse.SMC.Detectors

/-!
# The incremental statistics and their definitions

`rolling_mean` keeps a running total and `average_true_range` the last smoothed value. Both
are read here off the whole list.
-/

namespace StructurePulse.SMC
open Library
set_option autoImplicit false

section RollingMean

/-- The loop holds the sum of the last `period` values it has passed. -/
theorem rollingMeanFrom_eq {values : List ℚ} {period : Nat} (hperiod : 1 ≤ period) (index : Nat)
    (rest : List ℚ) (hrest : values.drop index = rest) (offset : Nat) (hoffset : offset < rest.length) :
    (rollingMeanFrom values period index (lastValues values period index).sum rest)[offset]? =
      some (if index + offset < period - 1 then none
        else some ((lastValues values period (index + offset + 1)).sum / period)) := by
  induction rest generalizing index offset with
  | nil => exact absurd hoffset (Nat.not_lt_zero _)
  | cons value rest ih =>
    have hindex : index < values.length := by
      have hlength := congrArg List.length hrest
      rw [List.length_drop, List.length_cons] at hlength
      omega
    have hvalue : values.getD index 0 = value := by
      rw [List.getD_eq_getElem?_getD, ← List.head?_drop, hrest]
      rfl
    have htail : values.drop (index + 1) = rest := by
      rw [← List.tail_drop, hrest, List.tail_cons]
    have htotal : (if index ≥ period then (lastValues values period index).sum + value -
        values.getD (index - period) 0 else (lastValues values period index).sum + value) =
          (lastValues values period (index + 1)).sum := by
      rw [sum_lastValues_succ hperiod hindex, hvalue]
      split_ifs
      · rfl
      · rw [sub_zero]
    rw [rollingMeanFrom]
    simp only [htotal]
    cases offset with
    | zero =>
      rw [List.getElem?_cons_zero, Nat.add_zero]
      by_cases hfull : index ≥ period - 1
      · have hplace : ¬index + 0 < period - 1 := Nat.not_lt.mpr hfull
        rw [if_pos hfull, if_neg hplace]
      · have hplace : index + 0 < period - 1 := Nat.lt_of_not_ge hfull
        rw [if_neg hfull, if_pos hplace]
    | succ offset =>
      rw [List.getElem?_cons_succ, ih (index + 1) htail offset (Nat.lt_of_succ_lt_succ hoffset)]
      have hsame : index + 1 + offset = index + (offset + 1) := by omega
      rw [hsame]

theorem length_rollingMeanFrom (values : List ℚ) (period index : Nat) (total : ℚ) (rest : List ℚ) :
    (rollingMeanFrom values period index total rest).length = rest.length := by
  induction rest generalizing index total with
  | nil => rfl
  | cons value rest ih => rw [rollingMeanFrom, List.length_cons, List.length_cons, ih]

theorem length_rollingMean (values : List ℚ) (period : Nat) :
    (rollingMean values period).length = values.length :=
  length_rollingMeanFrom values period 0 0 values

theorem rollingMean_eq {values : List ℚ} {period : Nat} (hperiod : 1 ≤ period) {index : Nat}
    (hindex : index < values.length) :
    (rollingMean values period)[index]? = some (if index < period - 1 then none
      else some (mean (lastValues values period (index + 1)))) := by
  have hloop := rollingMeanFrom_eq hperiod 0 values List.drop_zero index hindex
  rw [Nat.zero_add] at hloop
  have hempty : (lastValues values period 0).sum = 0 := by
    rw [lastValues, List.take_zero, List.drop_nil, List.sum_nil]
  rw [hempty] at hloop
  rw [rollingMean, hloop]
  by_cases hfull : index < period - 1
  · rw [if_pos hfull, if_pos hfull]
  · rw [if_neg hfull, if_neg hfull, mean, length_lastValues (by omega) hindex]

end RollingMean

section Ranges

theorem length_trueRanges (candles : List Candle) : (trueRanges candles).length = candles.length := by
  cases candles with
  | nil => rfl
  | cons first rest => simp [trueRanges]

theorem Candle.rangeSize_nonneg (candle : Candle) : 0 ≤ candle.rangeSize :=
  sub_nonneg.mpr candle.low_le_high

theorem trueRange_nonneg (previous candle : Candle) : 0 ≤ trueRange previous candle :=
  (abs_nonneg _).trans (le_max_right _ _)

theorem trueRanges_nonneg (candles : List Candle) : ∀ range ∈ trueRanges candles, 0 ≤ range := by
  cases candles with
  | nil => exact fun range hrange => absurd hrange List.not_mem_nil
  | cons first rest =>
    intro range hrange
    rcases List.mem_cons.mp hrange with rfl | hrange
    · exact first.rangeSize_nonneg
    · obtain ⟨index, hindex, rfl⟩ := List.mem_iff_getElem.mp hrange
      rw [List.getElem_zipWith]
      exact trueRange_nonneg _ _

end Ranges

section Smoothing

/-- How much of its last value a smoothing over `period` keeps. -/
def decay (period : Nat) : ℚ := ((period : ℚ) - 1) / period

/-- The closed form of the smoothing at an index from `period - 1` on: the later true ranges,
and the mean of the first ones as the seed. -/
def wilderAverage (ranges : List ℚ) (period index : Nat) : ℚ :=
  (∑ k ∈ Finset.range (index + 1 - period), decay period ^ k / period * ranges.getD (index - k) 0) +
    decay period ^ (index + 1 - period) * mean (ranges.take period)

variable {period : Nat} (hperiod : 1 ≤ period)
include hperiod

theorem decay_nonneg : 0 ≤ decay period :=
  div_nonneg (sub_nonneg.mpr (Nat.one_le_cast.mpr hperiod)) (Nat.cast_nonneg _)

theorem decay_add_weight : decay period + 1 / period = 1 := by
  have hne : (period : ℚ) ≠ 0 := Nat.cast_ne_zero.mpr (by omega)
  rw [decay, ← add_div, sub_add_cancel, div_self hne]

omit hperiod in
theorem smoothedRanges_eq (current : ℚ) (ranges : List ℚ) :
    smoothedRanges period current ranges =
      (smooth (decay period) (1 / period) current ranges).map some := by
  induction ranges generalizing current with
  | nil => rfl
  | cons value rest ih =>
    have hnext : (current * ((period : ℚ) - 1) + value) / period =
        decay period * current + 1 / period * value := by
      rw [decay]
      ring
    rw [smoothedRanges, smooth, List.map_cons]
    simp only [hnext, ih]

/-- Past the seed the closed form is what the smoothing leaves of the later ranges. -/
theorem wilderAverage_succ (ranges : List ℚ) (offset : Nat) :
    wilderAverage ranges period (period + offset) = weighted (decay period) (1 / period)
      (mean (ranges.take period)) (ranges.drop period) offset := by
  have hcount : period + offset + 1 - period = offset + 1 := by omega
  rw [wilderAverage, weighted, hcount]
  congr 1
  refine Finset.sum_congr rfl fun k hk => ?_
  have hk := Finset.mem_range.mp hk
  have hindex : period + offset - k = period + (offset - k) := by omega
  rw [hindex, List.getD_eq_getElem?_getD, List.getD_eq_getElem?_getD, List.getElem?_drop,
    div_eq_mul_one_div]

theorem wilderAverage_seed (ranges : List ℚ) :
    wilderAverage ranges period (period - 1) = mean (ranges.take period) := by
  have hcount : period - 1 + 1 - period = 0 := by omega
  rw [wilderAverage, hcount, Finset.sum_range_zero, pow_zero, zero_add, one_mul]

theorem averageTrueRange_eq (candles : List Candle) {index : Nat} (hindex : index < candles.length) :
    (averageTrueRange candles period)[index]? = some (if index < period - 1 then none
      else some (wilderAverage (trueRanges candles) period index)) := by
  have hlength := length_trueRanges candles
  unfold averageTrueRange
  simp only
  by_cases hshort : (trueRanges candles).length < period
  · rw [if_pos hshort, List.getElem?_replicate_of_lt (by omega), if_pos (by omega)]
  · have hseed : ((trueRanges candles).take period).sum / period =
        mean ((trueRanges candles).take period) := by
      rw [mean, List.length_take_of_le (Nat.not_lt.mp hshort)]
    rw [if_neg hshort, hseed]
    rcases Nat.lt_trichotomy index (period - 1) with hbefore | rfl | hafter
    · rw [if_pos hbefore, List.getElem?_append_left (by simpa using hbefore),
        List.getElem?_replicate_of_lt hbefore]
    · rw [if_neg (lt_irrefl _), List.getElem?_append_right (by simp), wilderAverage_seed hperiod]
      simp
    · obtain ⟨offset, rfl⟩ : ∃ offset, index = period + offset := ⟨index - period, by omega⟩
      have hplace : period + offset - (period - 1) = offset + 1 := by omega
      have hoffset : offset < ((trueRanges candles).drop period).length := by
        rw [List.length_drop]
        omega
      rw [if_neg (by omega), List.getElem?_append_right (by simp; omega), List.length_replicate,
        hplace, List.getElem?_cons_succ, smoothedRanges_eq, List.getElem?_map,
        smooth_getElem? _ _ hoffset, wilderAverage_succ hperiod]
      rfl

theorem length_averageTrueRange (candles : List Candle) :
    (averageTrueRange candles period).length = candles.length := by
  have hlength := length_trueRanges candles
  unfold averageTrueRange
  simp only
  by_cases hshort : (trueRanges candles).length < period
  · rw [if_pos hshort, List.length_replicate, hlength]
  · rw [if_neg hshort, smoothedRanges_eq, List.length_append, List.length_replicate,
      List.length_cons, List.length_map, length_smooth, List.length_drop]
    omega

/-- The average stays between the true ranges seen so far. -/
theorem wilderAverage_between (ranges : List ℚ) {index : Nat} (hindex : index < ranges.length)
    (hfull : period - 1 ≤ index) {low high : ℚ}
    (hranges : ∀ range ∈ ranges.take (index + 1), low ≤ range ∧ range ≤ high) :
    low ≤ wilderAverage ranges period index ∧ wilderAverage ranges period index ≤ high := by
  have hfirst : ranges.take period ≠ [] := by
    intro hnil
    rcases List.take_eq_nil_iff.mp hnil with hzero | hnil
    · omega
    · rw [hnil] at hindex
      exact absurd hindex (Nat.not_lt_zero _)
  have hsub : ∀ range ∈ ranges.take period, low ≤ range ∧ range ≤ high :=
    fun range hrange => hranges range (List.take_subset_take_left ranges (by omega) hrange)
  have hseed : low ≤ mean (ranges.take period) ∧ mean (ranges.take period) ≤ high :=
    ⟨le_mean hfirst fun range hrange => (hsub range hrange).1,
      mean_le hfirst fun range hrange => (hsub range hrange).2⟩
  rcases Nat.eq_or_lt_of_le hfull with rfl | hafter
  · rw [wilderAverage_seed hperiod]
    exact hseed
  · obtain ⟨offset, rfl⟩ : ∃ offset, index = period + offset := ⟨index - period, by omega⟩
    have hoffset : offset < (ranges.drop period).length := by
      rw [List.length_drop]
      omega
    rw [wilderAverage_succ hperiod]
    refine weighted_between (decay_nonneg hperiod) (div_nonneg zero_le_one (Nat.cast_nonneg _))
      (decay_add_weight hperiod) hseed hoffset fun range hrange => hranges range ?_
    have hpart : (ranges.drop period).take (offset + 1) =
        (ranges.take (period + offset + 1)).drop period := by
      rw [List.drop_take]
      congr 1
      omega
    rw [hpart] at hrange
    exact List.mem_of_mem_drop hrange

end Smoothing

/-- The rolling mean is the mean of the last `period` values, and the average true range is
the mean of the first `period` true ranges, smoothed from there on. -/
theorem statistics_equal_windows {period : Nat} (hperiod : 1 ≤ period) :
    (∀ values : List ℚ, (rollingMean values period).length = values.length ∧
      ∀ index < values.length,
        (index < period - 1 → (rollingMean values period)[index]? = some none) ∧
        (period - 1 ≤ index → (lastValues values period (index + 1)).length = period ∧
          (rollingMean values period)[index]? =
            some (some (mean (lastValues values period (index + 1)))))) ∧
    ∀ candles : List Candle, (averageTrueRange candles period).length = candles.length ∧
      ∀ index < candles.length,
        (index < period - 1 → (averageTrueRange candles period)[index]? = some none) ∧
        (period - 1 ≤ index → ∃ value, (averageTrueRange candles period)[index]? = some (some value) ∧
          value = wilderAverage (trueRanges candles) period index ∧
          (index = period - 1 → value = mean ((trueRanges candles).take period)) ∧
          (∀ smallest largest,
            IsLeast {range | range ∈ (trueRanges candles).take (index + 1)} smallest →
            IsGreatest {range | range ∈ (trueRanges candles).take (index + 1)} largest →
              smallest ≤ value ∧ value ≤ largest) ∧
          0 ≤ value) := by
  refine ⟨fun values => ⟨length_rollingMean values period, fun index hindex => ⟨?_, ?_⟩⟩,
    fun candles => ⟨?_, fun index hindex => ⟨?_, ?_⟩⟩⟩
  · intro hbefore
    rw [rollingMean_eq hperiod hindex, if_pos hbefore]
  · intro hfull
    refine ⟨length_lastValues (by omega) hindex, ?_⟩
    rw [rollingMean_eq hperiod hindex, if_neg (Nat.not_lt.mpr hfull)]
  · exact length_averageTrueRange hperiod candles
  · intro hbefore
    rw [averageTrueRange_eq hperiod candles hindex, if_pos hbefore]
  · intro hfull
    have hranges : index < (trueRanges candles).length := by rwa [length_trueRanges]
    refine ⟨_, ?_, rfl, ?_, ?_, ?_⟩
    · rw [averageTrueRange_eq hperiod candles hindex, if_neg (Nat.not_lt.mpr hfull)]
    · rintro rfl
      exact wilderAverage_seed hperiod _
    · intro smallest largest hsmallest hlargest
      exact wilderAverage_between hperiod _ hranges hfull fun range hrange =>
        ⟨hsmallest.2 hrange, hlargest.2 hrange⟩
    · obtain ⟨high, hhigh⟩ := ((trueRanges candles).take (index + 1)).finite_toSet.bddAbove
      exact (wilderAverage_between hperiod _ hranges hfull fun range hrange =>
        ⟨trueRanges_nonneg candles range (List.mem_of_mem_take hrange), hhigh hrange⟩).1

theorem statistics_equal_windows_sample :
    1 ≤ 2 ∧ (rollingMean [1, 2, 6] 2)[2]? = some (some (mean (lastValues [1, 2, 6] 2 3))) ∧
      mean (lastValues [1, 2, (6 : ℚ)] 2 3) = 4 := by
  refine ⟨by decide, ?_, by norm_num [mean, lastValues]⟩
  exact ((((statistics_equal_windows (by decide)).1 [1, 2, 6]).2 2 (by decide)).2 (by decide)).2

end StructurePulse.SMC
