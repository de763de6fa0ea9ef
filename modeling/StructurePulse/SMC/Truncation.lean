import StructurePulse.SMC.Analysis

/-!
# Analysing a prefix

No detector looks ahead: what it reports for the first `n` candles is the part of what
it reports for more candles that was known at candle `n - 1`. Zones are created once
and then only move forward.
-/

namespace StructurePulse.SMC
open Library
set_option autoImplicit false

section Statistics

theorem zipWith_take_succ {α β γ : Type*} (f : α → β → γ) (xs : List α) (ys : List β) (n : Nat) :
    List.zipWith f (xs.take (n + 1)) (ys.take n) = (List.zipWith f xs ys).take n := by
  induction n generalizing xs ys with
  | zero => simp
  | succ n ih =>
    cases xs with
    | nil => simp
    | cons x xs =>
      cases ys with
      | nil => simp
      | cons y ys =>
        rw [List.take_succ_cons, List.take_succ_cons, List.zipWith_cons_cons, ih,
          List.zipWith_cons_cons, List.take_succ_cons]

theorem trueRanges_take (candles : List Candle) (n : Nat) :
    trueRanges (candles.take n) = (trueRanges candles).take n := by
  cases candles with
  | nil =>
    rw [List.take_nil]
    exact (List.take_nil).symm
  | cons first rest =>
    cases n with
    | zero => rfl
    | succ n =>
      have hpairs := zipWith_take_succ trueRange (first :: rest) rest n
      rw [List.take_succ_cons] at hpairs
      rw [List.take_succ_cons, trueRanges, hpairs, trueRanges, List.take_succ_cons]

theorem smoothedRanges_take (period : Nat) (current : ℚ) (ranges : List ℚ) (n : Nat) :
    smoothedRanges period current (ranges.take n) = (smoothedRanges period current ranges).take n := by
  induction ranges generalizing current n with
  | nil =>
    rw [List.take_nil]
    exact (List.take_nil).symm
  | cons value ranges ih =>
    cases n with
    | zero => rfl
    | succ n =>
      rw [List.take_succ_cons, smoothedRanges, smoothedRanges, ih, List.take_succ_cons]

theorem averageTrueRange_take {period : Nat} (hperiod : 1 ≤ period) (candles : List Candle) (n : Nat) :
    averageTrueRange (candles.take n) period = (averageTrueRange candles period).take n := by
  unfold averageTrueRange
  rw [trueRanges_take]
  simp only
  generalize trueRanges candles = ranges
  by_cases hshort : ranges.length < period
  · have hshort' : (ranges.take n).length < period := by
      rw [List.length_take]
      omega
    rw [if_pos hshort, if_pos hshort', List.take_replicate, List.length_take]
  · rw [if_neg hshort]
    by_cases hcut : (ranges.take n).length < period
    · -- the prefix ends before the first average
      have hn : n ≤ period - 1 := by
        rw [List.length_take] at hcut
        omega
      rw [if_pos hcut, List.take_append_of_le_length (by simpa using hn), List.take_replicate,
        List.length_take]
      congr 1
      omega
    · have hn : period ≤ n := by
        rw [List.length_take] at hcut
        omega
      rw [if_neg hcut, List.take_append, List.length_replicate, List.take_replicate,
        min_eq_right (show period - 1 ≤ n by omega), show n - (period - 1) = n - period + 1 by omega,
        List.take_succ_cons, List.take_take, min_eq_left hn, List.drop_take, smoothedRanges_take]

theorem rollingMeanFrom_take (values : List ℚ) (period : Nat) (rest : List ℚ) (m n k : Nat)
    (total : ℚ) (hn : k + m ≤ n) (hperiod : 1 ≤ period) :
    rollingMeanFrom (values.take n) period k total (rest.take m) =
      (rollingMeanFrom values period k total rest).take m := by
  induction rest generalizing m k total with
  | nil =>
    rw [List.take_nil]
    exact (List.take_nil).symm
  | cons value rest ih =>
    cases m with
    | zero => rfl
    | succ m =>
      have hlookup : (values.take n).getD (k - period) 0 = values.getD (k - period) 0 := by
        simp only [List.getD_eq_getElem?_getD]
        rw [List.getElem?_take_of_lt (by omega)]
      rw [List.take_succ_cons, rollingMeanFrom, rollingMeanFrom]
      simp only [hlookup]
      rw [ih m (k + 1) _ (by omega), List.take_succ_cons]

theorem rollingMean_take {period : Nat} (hperiod : 1 ≤ period) (values : List ℚ) (n : Nat) :
    rollingMean (values.take n) period = (rollingMean values period).take n :=
  rollingMeanFrom_take values period values n n 0 0 (by omega) hperiod

end Statistics

section Swings
variable (candles : List Candle) (lookback n : Nat)

theorem swingsAt_index : ∀ i, ∀ swing ∈ swingsAt candles lookback i,
    swing.index = i ∧ swing.confirmationIndex = i + lookback := by
  intro i swing hswing
  unfold swingsAt at hswing
  split at hswing
  · cases hswing
  · rcases List.mem_append.mp hswing with h | h
    · split_ifs at h
      · rw [List.mem_singleton.mp h]
        exact ⟨rfl, rfl⟩
      · cases h
    · split_ifs at h
      · rw [List.mem_singleton.mp h]
        exact ⟨rfl, rfl⟩
      · cases h

/-- A swing only looks at the candles up to its confirmation. -/
theorem swingsAt_take {i : Nat} (hi : i + lookback < n) :
    swingsAt (candles.take n) lookback i = swingsAt candles lookback i := by
  have hneighbours : neighbours (candles.take n) lookback i = neighbours candles lookback i := by
    unfold neighbours
    rw [List.drop_take, List.drop_take, List.take_take, List.take_take,
      min_eq_left (show lookback ≤ n - (i - lookback) by omega),
      min_eq_left (show lookback ≤ n - (i + 1) by omega)]
  unfold swingsAt
  rw [hneighbours, List.getElem?_take_of_lt (by omega)]

theorem detectSwings_take (hn : n ≤ candles.length) :
    detectSwings (candles.take n) lookback =
      (detectSwings candles lookback).filter fun swing => decide (swing.confirmationIndex < n) := by
  unfold detectSwings
  rw [← sortedBy_filter]
  congr 1
  have hconfirmed : ∀ swing ∈ (List.range' lookback (candles.length - 2 * lookback)).flatMap
      (swingsAt candles lookback), decide (swing.confirmationIndex < n) =
        decide (swing.index < n - lookback) := by
    intro swing hswing
    obtain ⟨i, -, hi⟩ := List.mem_flatMap.mp hswing
    obtain ⟨hindex, hconf⟩ := swingsAt_index candles lookback i swing hi
    rw [hindex, hconf, decide_eq_decide]
    omega
  have hindex : ∀ i, ∀ swing ∈ swingsAt candles lookback i, Swing.index swing = i :=
    fun i swing hswing => (swingsAt_index candles lookback i swing hswing).1
  rw [List.filter_congr hconfirmed, filter_flatMap_index hindex, filter_range', List.length_take,
    min_eq_left hn]
  have hlength : min (candles.length - 2 * lookback) (n - lookback - lookback) = n - 2 * lookback := by
    omega
  rw [hlength]
  refine List.flatMap_congr fun i hi => swingsAt_take candles lookback n ?_
  rw [List.mem_range'_1] at hi
  omega

end Swings

section Scans
variable (swings : List Swing) (candles : List Candle) (n : Nat)

theorem availableAt_known {i : Nat} (hi : i < n) :
    availableAt (swings.filter fun swing => decide (swing.confirmationIndex < n)) i =
      availableAt swings i := by
  unfold availableAt
  rw [List.filter_filter]
  refine List.filter_congr fun swing _ => ?_
  by_cases h : swing.confirmationIndex + 1 = i
  · simp [h, show swing.confirmationIndex < n by omega]
  · simp [h]

theorem structureStep_indexed : Indexed StructureBreak.index (structureStep swings) := by
  intro state candle i event hevent
  unfold structureStep at hevent
  simp only at hevent
  split at hevent
  · rw [List.mem_singleton.mp hevent]
    rfl
  · rw [List.mem_singleton.mp hevent]
    rfl
  · cases hevent

theorem detectStructureBreaks_take :
    detectStructureBreaks (swings.filter fun swing => decide (swing.confirmationIndex < n))
        (candles.take n) =
      (detectStructureBreaks swings candles).filter fun event => decide (event.index < n) := by
  unfold detectStructureBreaks
  rw [← emit_take (structureStep_indexed swings)]
  refine emitFrom_congr fun state candle i _ hi => ?_
  rw [Nat.zero_add, List.length_take] at hi
  unfold structureStep LatestSwings.advance
  rw [availableAt_known swings n (by omega)]

theorem sweepStep_indexed : Indexed LiquiditySweep.index (sweepStep swings) := by
  intro latest candle i event hevent
  rcases List.mem_append.mp hevent with h | h
  · obtain ⟨swing, -, rfl⟩ := Option.map_eq_some_iff.mp (Option.mem_toList.mp h)
    rfl
  · obtain ⟨swing, -, rfl⟩ := Option.map_eq_some_iff.mp (Option.mem_toList.mp h)
    rfl

theorem detectLiquiditySweeps_take :
    detectLiquiditySweeps (swings.filter fun swing => decide (swing.confirmationIndex < n))
        (candles.take n) =
      (detectLiquiditySweeps swings candles).filter fun event => decide (event.index < n) := by
  unfold detectLiquiditySweeps
  rw [← emit_take (sweepStep_indexed swings)]
  refine emitFrom_congr fun latest candle i _ hi => ?_
  rw [Nat.zero_add, List.length_take] at hi
  unfold sweepStep LatestSwings.advance
  rw [availableAt_known swings n (by omega)]

theorem displacementAt_index {config : SMCConfig} {atr averageRange : Option ℚ} {candle : Candle}
    {index : Nat} {event : Displacement}
    (h : displacementAt config atr averageRange candle index = some event) : event.index = index := by
  unfold displacementAt at h
  split at h
  · split_ifs at h
    cases h
    rfl
  · cases h

theorem detectDisplacements_take (config : SMCConfig) (atr : List (Option ℚ)) :
    detectDisplacements config (candles.take n) (atr.take n) =
      (detectDisplacements config candles atr).filter fun event => decide (event.index < n) := by
  unfold detectDisplacements
  simp only
  rw [← emit_take]
  · refine emitFrom_congr fun _ candle i _ hi => ?_
    rw [Nat.zero_add, List.length_take] at hi
    simp only [List.map_take, rollingMean_take config.rangeAveragePeriod_pos,
      List.getD_eq_getElem?_getD]
    rw [List.getElem?_take_of_lt (show i < n by omega), List.getElem?_take_of_lt (by omega)]
  · intro _ candle i event hevent
    exact displacementAt_index (Option.mem_toList.mp hevent)

end Scans

section EqualLevels
variable {swings : List Swing} {lookback : Nat}

theorem equalLevel_secondSwing {atrValues : List (Option ℚ)} {toleranceRatio : ℚ}
    {maxSeparation : Nat} {kind : SwingKind} {pair : Swing × Swing} {level : EqualLevel}
    (h : equalLevel atrValues toleranceRatio maxSeparation kind pair = some level) :
    level.secondSwing = pair.2 := by
  unfold equalLevel at h
  split_ifs at h
  split at h
  · cases h
  · cases h
  · simp only at h
    split_ifs at h
    cases h
    rfl

theorem equalLevel_take (atrValues : List (Option ℚ)) (toleranceRatio : ℚ) (maxSeparation : Nat)
    (kind : SwingKind) (pair : Swing × Swing) {n : Nat} (hn : pair.2.confirmationIndex < n) :
    equalLevel (atrValues.take n) toleranceRatio maxSeparation kind pair =
      equalLevel atrValues toleranceRatio maxSeparation kind pair := by
  unfold equalLevel
  rw [List.getElem?_take_of_lt hn]

variable (hconfirmed : ∀ swing ∈ swings, swing.confirmationIndex = swing.index + lookback)
include hconfirmed

/-- Swings in the order of their indices are confirmed in that order. -/
theorem swingsOf_confirmed (kind : SwingKind) (n : Nat) :
    (swingsOf swings kind).Pairwise fun x y =>
      decide (y.confirmationIndex < n) = true → decide (x.confirmationIndex < n) = true := by
  refine List.Pairwise.imp_of_mem ?_ (sortedBy_pairwise Swing.index _)
  intro x y hx hy hle hlt
  rw [swingsOf, mem_sortedBy, List.mem_filter] at hx hy
  have hxconf := hconfirmed x hx.1
  have hyconf := hconfirmed y hy.1
  rw [decide_eq_true_eq] at hlt ⊢
  omega

theorem equalLevelsOf_take (atrValues : List (Option ℚ)) (toleranceRatio : ℚ) (maxSeparation : Nat)
    (kind : SwingKind) (n : Nat) :
    equalLevelsOf (swings.filter fun swing => decide (swing.confirmationIndex < n))
        (atrValues.take n) toleranceRatio maxSeparation kind =
      (equalLevelsOf swings atrValues toleranceRatio maxSeparation kind).filter fun level =>
        decide (level.secondSwing.confirmationIndex < n) := by
  have hswings : swingsOf (swings.filter fun swing => decide (swing.confirmationIndex < n)) kind =
      (swingsOf swings kind).filter fun swing => decide (swing.confirmationIndex < n) := by
    unfold swingsOf
    rw [← sortedBy_filter, List.filter_filter, List.filter_filter]
    congr 1
    exact List.filter_congr fun swing _ => Bool.and_comm _ _
  unfold equalLevelsOf
  rw [hswings, zip_tail_filter (swingsOf_confirmed hconfirmed kind n)]
  refine filterMap_filter_of_eq (fun pair _ hpair => ?_) fun pair _ level hlevel => ?_
  · exact equalLevel_take atrValues toleranceRatio maxSeparation kind pair (of_decide_eq_true hpair)
  · rw [equalLevel_secondSwing hlevel]

theorem detectEqualLevels_take (atrValues : List (Option ℚ)) (toleranceRatio : ℚ)
    (maxSeparation n : Nat) :
    detectEqualLevels (swings.filter fun swing => decide (swing.confirmationIndex < n))
        (atrValues.take n) toleranceRatio maxSeparation =
      (detectEqualLevels swings atrValues toleranceRatio maxSeparation).filter fun level =>
        decide (level.secondSwing.confirmationIndex < n) := by
  unfold detectEqualLevels
  rw [← sortedBy_filter, List.filter_append, equalLevelsOf_take hconfirmed,
    equalLevelsOf_take hconfirmed]

end EqualLevels

end StructurePulse.SMC
