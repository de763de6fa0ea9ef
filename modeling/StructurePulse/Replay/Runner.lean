import StructurePulse.Aggregation.Domain
import StructurePulse.Replay.Lifecycle
import StructurePulse.Strategy.Evaluator

/-!
# The offline runner

`runReplay` sorts the rows, aggregates them for each symbol and walks over the closed 5m
candles in the order of their close times. A dict is the list of its items, or a lookup
function where it is only read by key.
-/

namespace StructurePulse.Replay
open Library SMC Strategy Aggregation
set_option autoImplicit false

structure ReplayConfig where
  historyCandles : Nat := 300
  minimumHistoryCandles : Nat := 30
  instrumentMaxLeverage : ℚ := 100
  instrumentQuantityStep : ℚ := 1 / 100000000
  instrumentMinNotional : ℚ := 0
  historyCandles_ge : minimumHistoryCandles ≤ historyCandles := by norm_num
  minimumHistoryCandles_pos : 1 ≤ minimumHistoryCandles := by norm_num
  instrumentMaxLeverage_ge : 1 ≤ instrumentMaxLeverage := by norm_num
  instrumentQuantityStep_pos : 0 < instrumentQuantityStep := by norm_num
  instrumentMinNotional_nonneg : 0 ≤ instrumentMinNotional := by norm_num

/-- The exceptions a run can raise. -/
inductive RunError where
  | invalidCandle
  | analysis (error : SeriesError)
  | resolution (error : ReplayError)
  deriving Repr, DecidableEq

section Aggregates

/-- The constructor of a `Candle`, with its checks. -/
def smcCandle (aggregate : AggregatedCandle) : Except RunError Candle :=
  if h : aggregate.openTime < aggregate.closeTime ∧ aggregate.lowPrice ≤ aggregate.highPrice ∧
      aggregate.lowPrice ≤ min aggregate.openPrice aggregate.closePrice ∧
      max aggregate.openPrice aggregate.closePrice ≤ aggregate.highPrice ∧
      0 ≤ aggregate.volume then
    .ok {
      symbol := aggregate.symbol
      timeframe := aggregate.timeframe
      openTime := aggregate.openTime
      closeTime := aggregate.closeTime
      openPrice := aggregate.openPrice
      highPrice := aggregate.highPrice
      lowPrice := aggregate.lowPrice
      closePrice := aggregate.closePrice
      volume := aggregate.volume
      openTime_lt := h.1
      low_le_high := h.2.1
      low_le_body := h.2.2.1
      body_le_high := h.2.2.2.1
      volume_nonneg := h.2.2.2.2 }
  else .error .invalidCandle

/-- `sorted(buckets)`: the starts of the intervals that hold a candle. -/
def bucketStarts (candles : List Candle1m) (timeframe : Timeframe) : List Int :=
  sortedBy id (candles.map fun candle => intervalStart candle.openTime timeframe).dedup

def bucketAggregate (candles : List Candle1m) (timeframe : Timeframe) (start : Int) :
    Option AggregatedCandle :=
  aggregateCandles
    (candles.filter fun candle => decide (intervalStart candle.openTime timeframe = start))
    timeframe (some start)

/-- `_aggregate_timeframe`. -/
def aggregateTimeframe (candles : List Candle1m) (timeframe : Timeframe) :
    Except RunError (List Candle) :=
  ((bucketStarts candles timeframe).filterMap (bucketAggregate candles timeframe)).mapM smcCandle

structure SymbolAggregates where
  symbol : Symbol
  m5 : List Candle
  m15 : List Candle
  h1 : List Candle
  h4 : List Candle
  deriving DecidableEq

def SymbolAggregates.series (aggregates : SymbolAggregates) : Timeframe → List Candle
  | .m5 => aggregates.m5
  | .m15 => aggregates.m15
  | .h1 => aggregates.h1
  | .h4 => aggregates.h4

def symbolAggregates (candles : List Candle1m) (symbol : Symbol) :
    Except RunError SymbolAggregates := do
  let own := candles.filter fun candle => decide (candle.symbol = symbol)
  let m5 ← aggregateTimeframe own .m5
  let m15 ← aggregateTimeframe own .m15
  let h1 ← aggregateTimeframe own .h1
  let h4 ← aggregateTimeframe own .h4
  return { symbol := symbol, m5 := m5, m15 := m15, h1 := h1, h4 := h4 }

def buildReplayAggregates (candles : List Candle1m) : Except RunError (List SymbolAggregates) :=
  (sortedBy id (candles.map Candle1m.symbol).dedup).mapM (symbolAggregates candles)

end Aggregates

section Histories

/-- What the loop reads: the aggregates by symbol and the sorted rows. -/
structure ReplayData where
  aggregates : List SymbolAggregates
  rows : List ReplayMarketRow

def ReplayData.aggregatesOf (data : ReplayData) (symbol : Symbol) : Option SymbolAggregates :=
  data.aggregates.find? fun aggregates => decide (aggregates.symbol = symbol)

def ReplayData.rowsOf (data : ReplayData) (symbol : Symbol) : List ReplayMarketRow :=
  data.rows.filter fun row => decide (row.candle.symbol = symbol)

/-- `bisect_right` on sorted times. -/
def bisectRight (times : List Int) (clock : Int) : Nat :=
  (times.takeWhile fun time => decide (time ≤ clock)).length

def historyAt (series : List Candle) (clock : Int) (config : ReplayConfig) : List Candle :=
  let stop := bisectRight (series.map Candle.closeTime) clock
  (series.take stop).drop (stop - config.historyCandles)

/-- `TIMEFRAMES` of the runner. -/
def runnerTimeframes : List Timeframe := [.h4, .h1, .m15, .m5]

/-- `_histories_at`. -/
def historiesAt (data : ReplayData) (config : ReplayConfig) (symbol : Symbol) (clock : Int) :
    Option (Timeframe → List Candle) :=
  match data.aggregatesOf symbol with
  | none => none
  | some aggregates =>
    let history := fun timeframe => historyAt (aggregates.series timeframe) clock config
    if runnerTimeframes.all fun timeframe =>
        decide (config.minimumHistoryCandles ≤ (history timeframe).length) then
      some history
    else none

def latestMarketRow (rows : List ReplayMarketRow) (clock : Int) : Option ReplayMarketRow :=
  (rows.take (bisectRight (rows.map fun row => row.candle.openTime + oneMinute) clock)).getLast?

def analyzeHistory (settings : StrategyConfig) (history : List Candle) :
    Except RunError SMCAnalysis :=
  (analyze settings.smc history).mapError .analysis

/-- The BTC return of the last 5m candle and its range over the ATR. -/
abbrev BtcState := Option ℚ × Option ℚ

/-- `_btc_state_at`. -/
def btcStateAt (data : ReplayData) (config : ReplayConfig) (settings : StrategyConfig)
    (clock : Int) : Except RunError BtcState :=
  match historiesAt data config "BTCUSDT" clock with
  | none => .ok (none, none)
  | some histories =>
    match (histories .m5).getLast? with
    | none => .ok (none, none)
    | some candle => do
      let btcReturn :=
        if candle.openPrice > 0 then some ((candle.closePrice - candle.openPrice) / candle.openPrice)
        else none
      let analysis ← analyzeHistory settings (histories .m5)
      let rangeRatio := (latestAtr analysis).bind fun atr =>
        if atr > 0 then some (candle.rangeSize / atr) else none
      return (btcReturn, rangeRatio)

/-- `_latest_volume_ratio`. -/
def latestVolumeRatio (candles : List Candle) (period : Nat) : Option ℚ :=
  if candles.length ≤ period then none
  else
    let window := (candles.drop (candles.length - period - 1)).take period
    let baseline := (window.map Candle.volume).sum / period
    candles.getLast?.bind fun last => if baseline > 0 then some (last.volume / baseline) else none

end Histories

section Runner

structure ReplayCandidate where
  sequence : Nat
  candidate : EvaluatedCandidate
  inputCutoffs : List (Timeframe × Int)
  deriving Repr, DecidableEq

/-- The variables of the loop over the events. -/
structure RunnerState where
  candidates : List ReplayCandidate := []
  sequence : Nat := 1
  previousOpenInterest : Symbol → Option ℚ := fun _ => none
  btcCache : Int → Option BtcState := fun _ => none

variable (data : ReplayData) (settings : StrategyConfig) (config : ReplayConfig)

/-- `btc_cache.get(clock)`, or the state at the clock. -/
def cachedBtcState (state : RunnerState) (clock : Int) : Except RunError BtcState :=
  match state.btcCache clock with
  | some btcState => .ok btcState
  | none => btcStateAt data config settings clock

def openInterestChange (previous current : Option ℚ) : Option ℚ :=
  match previous, current with
  | some previous, some current =>
    if previous > 0 then some ((current - previous) / previous) else none
  | _, _ => none

def marketContext (state : RunnerState) (symbol : Symbol) (row : ReplayMarketRow)
    (history15m : List Candle) (btcState : BtcState) : StrategyMarketContext where
  currentPrice := row.candle.closePrice
  volumeRatio := latestVolumeRatio history15m 20
  openInterestChangeRatio := openInterestChange (state.previousOpenInterest symbol) row.openInterest
  fundingRate := row.fundingRate
  spreadBps := row.spreadBps
  turnover24hUsdt := row.turnover24hUsdt
  btc5mReturn := btcState.1
  btcTrueRangeAtrRatio := btcState.2
  instrumentMaxLeverage := row.instrumentMaxLeverage.getD config.instrumentMaxLeverage
  instrumentQuantityStep := row.instrumentQuantityStep.getD config.instrumentQuantityStep
  instrumentMinNotional := row.instrumentMinNotional.getD config.instrumentMinNotional

def inputCutoffs (histories : Timeframe → List Candle) : List (Timeframe × Int) :=
  runnerTimeframes.filterMap fun timeframe =>
    (histories timeframe).getLast?.map fun candle => (timeframe, candle.closeTime)

/-- The state after the candidates of an event. -/
def RunnerState.record (state : RunnerState) (symbol : Symbol) (clock : Int)
    (row : ReplayMarketRow) (btcState : BtcState) (input : StrategyInput)
    (candidates : List EvaluatedCandidate) : RunnerState where
  candidates := state.candidates ++ candidates.zipIdx.map fun (candidate, index) =>
    { sequence := state.sequence + index
      candidate := candidate
      inputCutoffs := input.inputCutoffs }
  sequence := state.sequence + candidates.length
  previousOpenInterest :=
    if row.openInterest.isSome then Function.update state.previousOpenInterest symbol row.openInterest
    else state.previousOpenInterest
  btcCache := Function.update state.btcCache clock (some btcState)

/-- The body of the loop over the events. -/
def runEvent (state : RunnerState) (event : Int × Symbol) : Except RunError RunnerState :=
  match historiesAt data config event.2 event.1 with
  | none => .ok state
  | some histories =>
    match latestMarketRow (data.rowsOf event.2) event.1 with
    | none => .ok state
    | some row => do
      let analysis4h ← analyzeHistory settings (histories .h4)
      let analysis1h ← analyzeHistory settings (histories .h1)
      let analysis15m ← analyzeHistory settings (histories .m15)
      let analysis5m ← analyzeHistory settings (histories .m5)
      let btcState ← cachedBtcState data settings config state event.1
      let input : StrategyInput := {
        symbol := event.2
        analyzedAt := event.1
        analysis4h := analysis4h
        analysis1h := analysis1h
        analysis15m := analysis15m
        analysis5m := analysis5m
        market := marketContext config state event.2 row (histories .m15) btcState
        inputCutoffs := inputCutoffs histories }
      return state.record event.2 event.1 row btcState input (evaluateCandidates input settings)

end Runner

section Result

structure ReplaySummary where
  strategyVersion : String
  inputRows : Nat
  symbols : Nat
  candidateCount : Nat
  acceptedCount : Nat
  suppressedCount : Nat
  outcomeCounts : List (String × Nat)
  scoreBands : List (String × Nat)
  netProfit : ℚ
  profitFactor : Option ℚ
  maximumDrawdown : ℚ
  maximumDrawdownFraction : ℚ
  ambiguityCount : Nat
  deriving Repr, DecidableEq

structure ReplayResult where
  candidates : List ReplayCandidate
  outcomes : List ReplayOutcome
  summary : ReplaySummary
  deriving Repr, DecidableEq

def ReplayOutcomeStatus.value : ReplayOutcomeStatus → String
  | .expired => "expired"
  | .invalidatedBeforeEntry => "invalidated_before_entry"
  | .stopped => "stopped"
  | .stoppedAfterTp1 => "stopped_after_tp1"
  | .tp2 => "tp2"
  | .ambiguous => "ambiguous"
  | .stillOpen => "open"

/-- `dict(sorted(Counter(keys).items()))`. -/
def sortedCounts (keys : List String) : List (String × Nat) :=
  (sortedBy id keys.dedup).map fun key => (key, keys.count key)

def scoreBand (score minimum strong : Int) : String :=
  if score < minimum then "0-" ++ toString (minimum - 1)
  else if score < strong then toString minimum ++ "-" ++ toString (strong - 1)
  else toString strong ++ "-100"

/-- `datetime.max` in UTC. -/
def datetimeMax : Int := 253402300799999999

/-- `balance`, `peak` and the two drawdowns of the loop over the outcomes. -/
structure Drawdown where
  balance : ℚ
  peak : ℚ
  maximum : ℚ := 0
  maximumFraction : ℚ := 0

def Drawdown.add (state : Drawdown) (pnl : ℚ) : Drawdown :=
  let balance := state.balance + pnl
  let peak := max state.peak balance
  let drawdown := peak - balance
  { balance := balance
    peak := peak
    maximum := max state.maximum drawdown
    maximumFraction :=
      if peak > 0 then max state.maximumFraction (drawdown / peak) else state.maximumFraction }

def buildSummary (config : StrategyConfig) (inputRows symbolCount : Nat)
    (candidates : List ReplayCandidate) (outcomes : List ReplayOutcome) : ReplaySummary :=
  let orderedOutcomes := sortedBy
    (fun item => toLex (item.resolvedAt.getD datetimeMax, item.candidateSequence)) outcomes
  let positives := ((outcomes.filter fun item => decide (item.pnl > 0)).map (·.pnl)).sum
  let negatives := |((outcomes.filter fun item => decide (item.pnl < 0)).map (·.pnl)).sum|
  let drawdown := (orderedOutcomes.map (·.pnl)).foldl Drawdown.add
    { balance := config.referenceBalance, peak := config.referenceBalance }
  { strategyVersion := config.version
    inputRows := inputRows
    symbols := symbolCount
    candidateCount := candidates.length
    acceptedCount := candidates.countP fun item => decide (item.candidate.status = .accepted)
    suppressedCount := candidates.countP fun item => decide (item.candidate.status = .suppressed)
    outcomeCounts := sortedCounts (outcomes.map fun item => item.status.value)
    scoreBands := sortedCounts (candidates.map fun item =>
      scoreBand item.candidate.score config.minimumScore config.strongScore)
    netProfit := (outcomes.map (·.pnl)).sum
    profitFactor := if negatives > 0 then some (positives / negatives) else none
    maximumDrawdown := drawdown.maximum
    maximumDrawdownFraction := drawdown.maximumFraction
    ambiguityCount := outcomes.countP (·.ambiguous) }

def rowKey (row : ReplayMarketRow) : Int ×ₗ Symbol :=
  toLex (row.candle.openTime, row.candle.symbol)

/-- The closed 5m candles of all symbols, in the order they are evaluated. -/
def replayEvents (aggregates : List SymbolAggregates) : List (Int × Symbol) :=
  sortedBy (fun event : Int × Symbol => toLex event) (aggregates.flatMap fun item =>
    item.m5.map fun candle => (candle.closeTime, item.symbol))

variable (settings : StrategyConfig) (config : ReplayConfig)

/-- The data of a run and the variables after its loop. -/
def replayLoop (ordered : List ReplayMarketRow) : Except RunError (ReplayData × RunnerState) := do
  let aggregates ← buildReplayAggregates (ordered.map (·.candle))
  let data : ReplayData := { aggregates := aggregates, rows := ordered }
  let state ← (replayEvents aggregates).foldlM (runEvent data settings config) {}
  return (data, state)

def resolveAll (data : ReplayData) (candidates : List ReplayCandidate) :
    Except RunError (List ReplayOutcome) :=
  (candidates.filter fun item =>
    decide (item.candidate.status = .accepted) && item.candidate.tradePlan.isSome).mapM fun item =>
      (resolveCandidate item.sequence item.candidate.toSignalCandidate
        (data.rowsOf item.candidate.symbol)).mapError .resolution

def runReplay (rows : List ReplayMarketRow) : Except RunError ReplayResult := do
  let ordered := sortedBy rowKey rows
  let (data, state) ← replayLoop settings config ordered
  let outcomes ← resolveAll data state.candidates
  return {
    candidates := state.candidates
    outcomes := outcomes
    summary := buildSummary settings ordered.length data.aggregates.length state.candidates outcomes }

end Result

end StructurePulse.Replay
