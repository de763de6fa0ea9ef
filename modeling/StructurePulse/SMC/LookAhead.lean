import StructurePulse.SMC.Truncation
import StructurePulse.SMC.Zones

/-! No look-ahead: the analysis of a prefix is what a longer analysis knew at its end. -/

namespace StructurePulse.SMC
open Library
set_option autoImplicit false

/-- `early` is the part of `late` that was knowable at candle `n - 1`. -/
structure KnowableAt (n : Nat) (early late : SMCAnalysis) : Prop where
  symbol : early.symbol = late.symbol
  timeframe : early.timeframe = late.timeframe
  candleCount : early.candleCount = n
  atr : early.atr = late.atr.take n
  swings : early.swings = late.swings.filter fun swing => decide (swing.confirmationIndex < n)
  structureBreaks : early.structureBreaks =
    late.structureBreaks.filter fun event => decide (event.index < n)
  liquiditySweeps : early.liquiditySweeps =
    late.liquiditySweeps.filter fun event => decide (event.index < n)
  displacements : early.displacements =
    late.displacements.filter fun event => decide (event.index < n)
  equalLevels : early.equalLevels =
    late.equalLevels.filter fun level => decide (level.secondSwing.confirmationIndex < n)
  fairValueGaps : List.Forall₂ FairValueGap.Advances early.fairValueGaps
    (late.fairValueGaps.filter fun gap => decide (gap.createdIndex < n))
  orderBlocks : List.Forall₂ OrderBlock.Advances early.orderBlocks
    (late.orderBlocks.filter fun block => decide (block.createdIndex < n))

theorem confirmed_detectSwings (candles : List Candle) (lookback : Nat) :
    ∀ swing ∈ detectSwings candles lookback, swing.confirmationIndex = swing.index + lookback := by
  intro swing hswing
  unfold detectSwings at hswing
  rw [mem_sortedBy] at hswing
  obtain ⟨i, -, hi⟩ := List.mem_flatMap.mp hswing
  obtain ⟨hindex, hconf⟩ := swingsAt_index candles lookback i swing hi
  rw [hindex, hconf]

theorem analysisOf_take (config : SMCConfig) (candles : List Candle) (first last last' : Candle)
    {n : Nat} (hn : n ≤ candles.length) :
    KnowableAt n (analysisOf config (candles.take n) first last)
      (analysisOf config candles first last') := by
  have hatr := averageTrueRange_take config.atrPeriod_pos candles n
  have hswings := detectSwings_take candles (config.swingLookback first.timeframe) n hn
  have hbreaks := detectStructureBreaks_take
    (detectSwings candles (config.swingLookback first.timeframe)) candles n
  have hdisplacements := detectDisplacements_take candles n config
    (averageTrueRange candles config.atrPeriod)
  have hblocks : (detectStructureBreaks
      (detectSwings candles (config.swingLookback first.timeframe)) candles).Pairwise
        fun a b => a.index ≤ b.index :=
    pairwise_emitFrom (structureStep_indexed _) candles 0 {}
  constructor
  · rfl
  · rfl
  · exact List.length_take_of_le hn
  · exact hatr
  · exact hswings
  · simp only [analysisOf]
    rw [hswings, hbreaks]
  · simp only [analysisOf]
    rw [hswings, detectLiquiditySweeps_take]
  · simp only [analysisOf]
    rw [hatr, hdisplacements]
  · simp only [analysisOf]
    rw [hatr, hswings]
    exact detectEqualLevels_take (confirmed_detectSwings candles _) _ _ _ n
  · simp only [analysisOf]
    rw [hatr]
    exact detectFairValueGaps_take n hn
  · simp only [analysisOf]
    rw [hatr, hswings, hbreaks, hdisplacements]
    exact orderBlocksFrom_take hblocks []

/-- The analysis of a prefix is the part of any longer analysis that was knowable at its
last candle; a zone seen by both has only moved forward in between. -/
theorem analyze_prefix_knowable (config : SMCConfig) {candles : List Candle}
    (hvalid : validateCandleSeries candles = .ok ()) {n m : Nat} (hn : 1 ≤ n) (hnm : n ≤ m)
    (hm : m ≤ candles.length) :
    ∃ early late, analyze config (candles.take n) = .ok early ∧
      analyze config (candles.take m) = .ok late ∧ KnowableAt n early late := by
  obtain ⟨first, last, hfirst, hlast, hearly⟩ :=
    analyze_eq config (validateCandleSeries_take hvalid hn)
  obtain ⟨first', last', hfirst', hlast', hlate⟩ :=
    analyze_eq config (validateCandleSeries_take hvalid (hn.trans hnm))
  refine ⟨_, _, hearly, hlate, ?_⟩
  have hhead : ∀ k, 1 ≤ k → (candles.take k).head? = candles.head? := by
    intro k hk
    rw [List.head?_take, if_neg (by omega)]
  rw [hhead n hn] at hfirst
  rw [hhead m (hn.trans hnm), hfirst] at hfirst'
  cases hfirst'
  have hlength : (candles.take m).length = m := List.length_take_of_le hm
  have htake : (candles.take m).take n = candles.take n := by
    rw [List.take_take, min_eq_left hnm]
  rw [← htake]
  exact analysisOf_take config (candles.take m) first last last' (by omega)

section Sample

/-- A gap between the first candle and the third, which the fourth trades through. -/
def gapSeries : List Candle :=
  [.drawn .m5 0 10 10 11 11, .drawn .m5 1 11 11 14 14, .drawn .m5 2 14 14 15 15,
    .drawn .m5 3 9 9 15 15]

def gapConfig : SMCConfig :=
  { SMCConfig.standard with atrPeriod := 1, atrPeriod_pos := Nat.zero_lt_one }

theorem analyze_prefix_knowable_sample :
    validateCandleSeries gapSeries = .ok () ∧ ∃ early late,
      analyze gapConfig (gapSeries.take 3) = .ok early ∧
      analyze gapConfig (gapSeries.take 4) = .ok late ∧ KnowableAt 3 early late :=
  ⟨by decide +kernel, analyze_prefix_knowable gapConfig (by decide +kernel) (by decide) (by decide)
    (by decide)⟩

/-- The lifecycles of the gaps of an analysis. -/
def gapLives (result : Except SeriesError SMCAnalysis) : List ZoneLife :=
  match result with
  | .ok analysis => analysis.fairValueGaps.map FairValueGap.life
  | .error _ => []

/-- A gap that one candle trades through is filled without having been partially filled. -/
theorem analyze_fills_open_gap :
    validateCandleSeries gapSeries = .ok () ∧
    gapLives (analyze gapConfig (gapSeries.take 3)) = [⟨.open, none, none⟩] ∧
    gapLives (analyze gapConfig (gapSeries.take 4)) = [⟨.filled, some 3, some 3⟩] := by
  decide +kernel

end Sample

end StructurePulse.SMC
