import StructurePulse.Replay.Runner

/-!
# The live analysis service

`analyzeOnce` is one cycle: it loads the last candles of each profile, analyzes all of them
in one flat batch and assembles a `StrategyInput` for each symbol that has a ticker. What
raises inside the loop over the symbols costs one symbol, what raises outside ends the cycle.
-/

namespace StructurePulse.Analysis
open Library SMC Strategy Aggregation Replay
set_option autoImplicit false

/-- `TIMEFRAMES` of the service. -/
def serviceTimeframes : List Timeframe := [.h4, .h1, .m15, .m5]

structure StrategySymbolProfile where
  symbol : Symbol
  turnover24hUsdt : Option ℚ
  spreadBps : Option ℚ
  instrumentMaxLeverage : ℚ
  instrumentQuantityStep : ℚ
  instrumentMinNotional : ℚ
  deriving Repr, DecidableEq

structure MarketTicker where
  lastPrice : ℚ
  openInterest : ℚ
  fundingRate : ℚ
  deriving Repr, DecidableEq

structure PreparedSymbol where
  profile : StrategySymbolProfile
  candles : List (List Candle)
  deriving DecidableEq

structure StrategyAnalysisService where
  historyCandles : Nat
  minimumHistoryCandles : Nat
  config : StrategyConfig
  previousOpenInterest : Symbol → Option ℚ := fun _ => none

inductive CycleError where
  | run (error : RunError)
  | outOfRange
  deriving Repr, DecidableEq

section Loading

/-- `StrategyRepository.load_candles`: the last stored rows of a series, oldest first. -/
def loadCandles (records : List AggregatedCandle) (symbol : Symbol) (timeframe : Timeframe)
    (limit : Nat) : Except RunError (List Candle) :=
  let rows := sortedBy (fun record : AggregatedCandle => OrderDual.toDual record.openTime)
    (records.filter fun record => decide (record.symbol = symbol ∧ record.timeframe = timeframe))
  (rows.take limit).reverse.mapM smcCandle

variable (service : StrategyAnalysisService) (records : List AggregatedCandle)

/-- The candles of a profile; none if a timeframe has too few. -/
def prepareSymbol (profile : StrategySymbolProfile) : Except RunError (Option PreparedSymbol) := do
  let candles ← serviceTimeframes.mapM fun timeframe =>
    loadCandles records profile.symbol timeframe service.historyCandles
  return if candles.any fun items => decide (items.length < service.minimumHistoryCandles) then none
    else some { profile := profile, candles := candles }

def prepareSymbols (profiles : List StrategySymbolProfile) :
    Except RunError (List PreparedSymbol) := do
  let items ← profiles.mapM (prepareSymbol service records)
  return items.filterMap id

end Loading

section Batch

/-- `AnalysisProcessPool.analyze_batch`: the analyses come back in the order of the requests. -/
def analyzeBatch (requests : List (List Candle × SMCConfig)) :
    Except RunError (List SMCAnalysis) :=
  requests.mapM fun request => (analyze request.2 request.1).mapError .analysis

def batchRequests (service : StrategyAnalysisService) (prepared : List PreparedSymbol) :
    List (List Candle × SMCConfig) :=
  prepared.flatMap fun item => item.candles.map fun candles => (candles, service.config.smc)

/-- `analyses[index * len(TIMEFRAMES) : (index + 1) * len(TIMEFRAMES)]`. -/
def batchSlice (analyses : List SMCAnalysis) (index : Nat) : List SMCAnalysis :=
  (analyses.take ((index + 1) * serviceTimeframes.length)).drop (index * serviceTimeframes.length)

/-- `grouped`: of two entries with one key a dict keeps the later. -/
def groupedAnalyses (prepared : List PreparedSymbol) (analyses : List SMCAnalysis)
    (symbol : Symbol) : Option (List SMCAnalysis) :=
  (prepared.zipIdx.reverse.find? fun entry => decide (entry.1.profile.symbol = symbol)).map
    fun entry => batchSlice analyses entry.2

end Batch

section Inputs

/-- `_latest_volume_ratio` of the service. -/
def latestVolumeRatio (candles : List Candle) (period : Nat) : Option ℚ :=
  if candles.length ≤ period then none
  else
    let window := (candles.drop (candles.length - period - 1)).take period
    let baseline := (window.map Candle.volume).sum / period
    candles.getLast?.bind fun last => if baseline > 0 then some (last.volume / baseline) else none

/-- `_btc_state`. -/
def btcState (prepared : List PreparedSymbol) (grouped : Symbol → Option (List SMCAnalysis)) :
    Except CycleError BtcState :=
  match prepared.find? fun item => decide (item.profile.symbol = "BTCUSDT"), grouped "BTCUSDT" with
  | some btc, some btcAnalyses =>
    match (btc.candles[3]?).bind List.getLast?, btcAnalyses[3]? with
    | some candle5m, some analysis5m =>
      let returnValue :=
        if candle5m.openPrice > 0 then
          some ((candle5m.closePrice - candle5m.openPrice) / candle5m.openPrice)
        else none
      let rangeRatio := (latestAtr analysis5m).bind fun atr =>
        if atr > 0 then some (candle5m.rangeSize / atr) else none
      .ok (returnValue, rangeRatio)
    | _, _ => .error .outOfRange
  | _, _ => .ok (none, none)

/-- `oi_change` of `_strategy_input`. -/
def openInterestRatio (previous : Option ℚ) (ticker : MarketTicker) : Option ℚ :=
  match previous with
  | none => none
  | some previous =>
    if previous > 0 then some ((ticker.openInterest - previous) / previous) else none

/-- `_strategy_input`; none if it raises. -/
def strategyInput (service : StrategyAnalysisService) (item : PreparedSymbol)
    (analyses : List SMCAnalysis) (ticker : MarketTicker) (btc : BtcState) :
    Option StrategyInput :=
  match analyses, item.candles with
  | [analysis4h, analysis1h, analysis15m, analysis5m], [candles4h, candles1h, candles15m, candles5m] => do
    let last4h ← candles4h.getLast?
    let last1h ← candles1h.getLast?
    let last15m ← candles15m.getLast?
    let last5m ← candles5m.getLast?
    return {
      symbol := item.profile.symbol
      analyzedAt :=
        max (max (max last4h.closeTime last1h.closeTime) last15m.closeTime) last5m.closeTime
      analysis4h := analysis4h
      analysis1h := analysis1h
      analysis15m := analysis15m
      analysis5m := analysis5m
      market := {
        currentPrice := ticker.lastPrice
        volumeRatio := latestVolumeRatio candles15m 20
        openInterestChangeRatio :=
          openInterestRatio (service.previousOpenInterest item.profile.symbol) ticker
        fundingRate := some ticker.fundingRate
        spreadBps := item.profile.spreadBps
        turnover24hUsdt := item.profile.turnover24hUsdt
        btc5mReturn := btc.1
        btcTrueRangeAtrRatio := btc.2
        instrumentMaxLeverage := item.profile.instrumentMaxLeverage
        instrumentQuantityStep := item.profile.instrumentQuantityStep
        instrumentMinNotional := item.profile.instrumentMinNotional }
      inputCutoffs := [(.h4, last4h.closeTime), (.h1, last1h.closeTime), (.m15, last15m.closeTime),
        (.m5, last5m.closeTime)] }
  | _, _ => none

end Inputs

section Cycle

/-- `results`, and the inputs that were assembled. -/
structure Cycle where
  assembled : List StrategyInput := []
  created : Nat := 0
  duplicate : Nat := 0
  skipped : Nat := 0
  failed : Nat := 0

/-- `save_analysis`: whether a snapshot was created, or none if it raises. -/
abbrev SaveAnalysis := StrategyInput → List EvaluatedCandidate → Option Bool

variable (service : StrategyAnalysisService) (save : SaveAnalysis)
variable (tickers : Symbol → Option MarketTicker)

/-- The body of the loop over the prepared symbols. -/
def analyzeSymbol (grouped : Symbol → Option (List SMCAnalysis)) (btc : BtcState) (cycle : Cycle)
    (item : PreparedSymbol) : Cycle :=
  let analyses := (grouped item.profile.symbol).getD []
  match tickers item.profile.symbol with
  | none => { cycle with skipped := cycle.skipped + 1 }
  | some ticker =>
    if analyses.length ≠ serviceTimeframes.length then { cycle with skipped := cycle.skipped + 1 }
    else
      match strategyInput service item analyses ticker btc with
      | none => { cycle with failed := cycle.failed + 1 }
      | some input =>
        let cycle := { cycle with assembled := cycle.assembled ++ [input] }
        match save input (evaluateCandidates input service.config) with
        | none => { cycle with failed := cycle.failed + 1 }
        | some true => { cycle with created := cycle.created + 1 }
        | some false => { cycle with duplicate := cycle.duplicate + 1 }

/-- `analyze_once`. -/
def analyzeOnce (records : List AggregatedCandle) (profiles : List StrategySymbolProfile) :
    Except CycleError (Cycle × StrategyAnalysisService) := do
  let prepared ← (prepareSymbols service records profiles).mapError .run
  let analyses ← (analyzeBatch (batchRequests service prepared)).mapError .run
  let grouped := groupedAnalyses prepared analyses
  let btc ← btcState prepared grouped
  let cycle := prepared.foldl (analyzeSymbol service save tickers grouped btc) {}
  return (cycle, { service with
    previousOpenInterest := fun symbol => (tickers symbol).map MarketTicker.openInterest })

end Cycle

end StructurePulse.Analysis
