import StructurePulse.SMC.Detectors

/-! The analysis of one candle series: the checks of the series, then every detector. -/

namespace StructurePulse.SMC
set_option autoImplicit false

inductive SeriesError where
  | noCandles
  | mixedSymbols
  | mixedTimeframes
  | notOrdered
  deriving Repr, DecidableEq

/-- The loop of `validate_candle_series` over consecutive candles. -/
def validatePairs (first : Candle) : List Candle → Except SeriesError Unit
  | previous :: candle :: rest =>
    if candle.symbol ≠ first.symbol then .error .mixedSymbols
    else if candle.timeframe ≠ first.timeframe then .error .mixedTimeframes
    else if candle.openTime ≤ previous.openTime then .error .notOrdered
    else validatePairs first (candle :: rest)
  | _ => .ok ()

def validateCandleSeries : List Candle → Except SeriesError Unit
  | [] => .error .noCandles
  | first :: rest => validatePairs first (first :: rest)

/-- What `analyze` reports for a series that was validated. -/
def analysisOf (config : SMCConfig) (candles : List Candle) (first last : Candle) : SMCAnalysis :=
  let atr := averageTrueRange candles config.atrPeriod
  let swings := detectSwings candles (config.swingLookback first.timeframe)
  let structureBreaks := detectStructureBreaks swings candles
  let displacements := detectDisplacements config candles atr
  let dealingRange := activeDealingRange swings
  { symbol := first.symbol
    timeframe := first.timeframe
    candleCount := candles.length
    atr := atr
    swings := swings
    structureBreaks := structureBreaks
    liquiditySweeps := detectLiquiditySweeps swings candles
    equalLevels :=
      detectEqualLevels swings atr config.equalLevelAtrTolerance config.equalLevelMaxSeparation
    displacements := displacements
    fairValueGaps := detectFairValueGaps candles atr config.fvgMinAtrRatio
    orderBlocks :=
      detectOrderBlocks candles structureBreaks displacements config.orderBlockSearchLookback
    dealingRange := dealingRange
    priceLocation := dealingRange.map (classifyPrice last.closePrice) }

def analyze (config : SMCConfig) (candles : List Candle) : Except SeriesError SMCAnalysis :=
  match validateCandleSeries candles, candles.head?, candles.getLast? with
  | .ok (), some first, some last => .ok (analysisOf config candles first last)
  | .error error, _, _ => .error error
  | .ok (), _, _ => .error .noCandles

section Validity

theorem validatePairs_take {first : Candle} {candles : List Candle}
    (h : validatePairs first candles = .ok ()) (n : Nat) :
    validatePairs first (candles.take n) = .ok () := by
  induction candles generalizing n with
  | nil =>
    rw [List.take_nil]
    exact h
  | cons previous rest ih =>
    cases n with
    | zero => rfl
    | succ n =>
      cases rest with
      | nil => cases n <;> rfl
      | cons candle rest =>
        cases n with
        | zero => rfl
        | succ n =>
          rw [validatePairs] at h
          split_ifs at h with hsymbol htimeframe hordered
          have hrest := ih h (n + 1)
          rw [List.take_succ_cons, List.take_succ_cons, validatePairs, if_neg hsymbol,
            if_neg htimeframe, if_neg hordered]
          exact hrest

theorem validateCandleSeries_take {candles : List Candle}
    (h : validateCandleSeries candles = .ok ()) {n : Nat} (hn : 1 ≤ n) :
    validateCandleSeries (candles.take n) = .ok () := by
  cases candles with
  | nil => cases h
  | cons first rest =>
    obtain ⟨m, rfl⟩ := Nat.exists_eq_add_of_le' hn
    rw [List.take_succ_cons]
    exact validatePairs_take h (m + 1)

/-- A validated series is analyzed. -/
theorem analyze_eq (config : SMCConfig) {candles : List Candle}
    (h : validateCandleSeries candles = .ok ()) :
    ∃ first last, candles.head? = some first ∧ candles.getLast? = some last ∧
      analyze config candles = .ok (analysisOf config candles first last) := by
  cases candles with
  | nil => cases h
  | cons first rest =>
    obtain ⟨last, hlast⟩ := Option.isSome_iff_exists.mp
      (List.getLast?_isSome.mpr (List.cons_ne_nil first rest))
    refine ⟨first, last, rfl, hlast, ?_⟩
    rw [analyze, h, hlast]
    rfl

end Validity

end StructurePulse.SMC
