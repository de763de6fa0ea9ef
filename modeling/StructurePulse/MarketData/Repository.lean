import StructurePulse.Aggregation.Domain
import StructurePulse.Library.Tables
import StructurePulse.Library.Transactions
import StructurePulse.Store.MarketData
import Mathlib.Data.Prod.Lex

/-!
# The market-data tables

The writing operations of the market-data repository, each one transaction. The rows of
a checkpoint, a candle and an aggregation job are upserted by their unique keys.
-/

namespace StructurePulse.MarketData
open Library SMC Aggregation Store
set_option autoImplicit false

section Records

/-- What the error texts are written from. -/
inductive MarketDataError where
  | liveBeforeCheckpoint
  | missingCandles (first last : Int)
  | incompleteRange (expected received : Int)
  | unexpectedMinute (expected received : Int)
  | reason (text : String)
  deriving Repr, DecidableEq

structure CheckpointRow extends DataCheckpointRecord where
  lastError : Option MarketDataError
  deriving Repr, DecidableEq

inductive GapStatus where
  | recovering
  | recovered
  | failed
  deriving Repr, DecidableEq

structure DataGapRecord where
  id : Nat
  symbol : Symbol
  stream : String
  startTime : Int
  endTime : Int
  status : GapStatus
  attempts : Nat
  error : Option MarketDataError
  recoveredAt : Option Int
  deriving Repr, DecidableEq

/-- The unique key of an aggregation job and of an aggregated candle. -/
structure Interval where
  symbol : Symbol
  timeframe : Timeframe
  openTime : Int
  deriving Repr, DecidableEq

inductive JobState where
  | pending
  | processing
  deriving Repr, DecidableEq

structure AggregationJobRecord extends Interval where
  id : Nat
  priority : Nat
  state : JobState
  attempts : Nat
  lastError : Option String
  availableAt : Int
  updatedAt : Int
  deriving Repr, DecidableEq

structure AggregationCursorRecord where
  symbol : Symbol
  lastScannedOpenTime : Option Int
  deriving Repr, DecidableEq

structure MarketTables where
  checkpoints : List CheckpointRow := []
  gaps : List DataGapRecord := []
  nextGapId : Nat := 0
  candles : List Candle1m := []
  jobs : List AggregationJobRecord := []
  nextJobId : Nat := 0
  cursors : List AggregationCursorRecord := []
  aggregates : List AggregatedCandle := []
  deriving Repr, DecidableEq

/-- What the lifecycle service reads. -/
def MarketTables.data (tables : MarketTables) : Store.MarketData where
  checkpoints := tables.checkpoints.map CheckpointRow.toDataCheckpointRecord
  candles := tables.candles

def checkpointKey (row : CheckpointRow) : Symbol × String := (row.symbol, row.stream)

def candleKey (candle : Candle1m) : Symbol × Int := (candle.symbol, candle.openTime)

def aggregateKey (candle : AggregatedCandle) : Interval where
  symbol := candle.symbol
  timeframe := candle.timeframe
  openTime := candle.openTime

def MarketTables.checkpoint (tables : MarketTables) (symbol : Symbol) (stream : String) :
    Option CheckpointRow :=
  lookup checkpointKey tables.checkpoints (symbol, stream)

end Records

section Checkpoints

/-- The `CASE` of the upsert: an unknown time gives way, otherwise the greatest. -/
def mergeConfirmed : Option Int → Option Int → Option Int
  | none, excluded => excluded
  | some old, none => some old
  | some old, some excluded => some (max old excluded)

def upsertCheckpoint (tables : MarketTables) (symbol : Symbol) (stream : String)
    (state : CheckpointState) (lastConfirmed : Option Int) (lastError : Option MarketDataError)
    (preserve : Bool) : MarketTables :=
  let last := match tables.checkpoint symbol stream with
    | none => lastConfirmed
    | some old =>
      if preserve then old.lastConfirmedOpenTime
      else mergeConfirmed old.lastConfirmedOpenTime lastConfirmed
  { tables with
    checkpoints := upsertRow checkpointKey tables.checkpoints
      { symbol := symbol
        stream := stream
        state := state
        lastConfirmedOpenTime := last
        lastError := lastError } }

end Checkpoints

section Candles

/-- A statement that would update one row twice raises. -/
def upsertCandles (tables : MarketTables) (candles : List Candle1m) : Except Unit MarketTables :=
  if (candles.map candleKey).Nodup then
    .ok { tables with candles := candles.foldl (upsertRow candleKey) tables.candles }
  else .error ()

def timeframeText : Timeframe → String
  | .m5 => "5m"
  | .m15 => "15m"
  | .h1 => "1h"
  | .h4 => "4h"

/-- The order of the tuples in `sorted(jobs)`. -/
def intervalOrder (interval : Interval) : String ×ₗ String ×ₗ Int :=
  toLex (interval.symbol, toLex (timeframeText interval.timeframe, interval.openTime))

def intervalOf (candle : Candle1m) (timeframe : Timeframe) : Interval where
  symbol := candle.symbol
  timeframe := timeframe
  openTime := intervalStart candle.openTime timeframe

/-- The candle is the last minute of its interval. -/
def isIntervalComplete (candle : Candle1m) (timeframe : Timeframe) : Bool :=
  candle.openTime + oneMinute = intervalEnd (intervalStart candle.openTime timeframe) timeframe

def affectedIntervals (candles : List Candle1m) (completedOnly : Bool) : List Interval :=
  (candles.flatMap fun candle => (timeframes.filter fun timeframe =>
    !completedOnly || isIntervalComplete candle timeframe).map (intervalOf candle)).dedup

def enqueueJob (priority : Nat) (now : Int) (tables : MarketTables) (interval : Interval) :
    MarketTables :=
  let row : AggregationJobRecord :=
    match lookup AggregationJobRecord.toInterval tables.jobs interval with
    | none =>
      { toInterval := interval
        id := tables.nextJobId
        priority := priority
        state := .pending
        attempts := 0
        lastError := none
        availableAt := now
        updatedAt := now }
    | some old =>
      { old with
        priority := min old.priority priority
        state := .pending
        lastError := none
        availableAt := now
        updatedAt := now }
  { tables with
    jobs := upsertRow AggregationJobRecord.toInterval tables.jobs row
    nextJobId := tables.nextJobId + 1 }

def enqueueAggregationJobs (tables : MarketTables) (candles : List Candle1m) (priority : Nat)
    (completedOnly : Bool) (now : Int) : MarketTables :=
  (sortedBy intervalOrder (affectedIntervals candles completedOnly)).foldl (enqueueJob priority now)
    tables

/-- The upsert and the enqueueing that the writing operations share. -/
def writeCandles (tables : MarketTables) (candles : List Candle1m) (priority : Nat)
    (completedOnly : Bool) (now : Int) : Except Unit MarketTables := do
  let tables ← upsertCandles tables candles
  return enqueueAggregationJobs tables candles priority completedOnly now

/-- Enqueueing changes nothing but the jobs. -/
theorem foldl_enqueueJob_frame (priority : Nat) (now : Int) (intervals : List Interval)
    (tables : MarketTables) :
    let enqueued := intervals.foldl (enqueueJob priority now) tables
    enqueued.candles = tables.candles ∧ enqueued.aggregates = tables.aggregates ∧
      enqueued.cursors = tables.cursors ∧ enqueued.checkpoints = tables.checkpoints := by
  induction intervals generalizing tables with
  | nil => exact ⟨rfl, rfl, rfl, rfl⟩
  | cons interval intervals ih => exact ih (enqueueJob priority now tables interval)

/-- A write of candles leaves the checkpoints alone. -/
theorem writeCandles_frame {old new : MarketTables} {candles : List Candle1m} {priority : Nat}
    {completedOnly : Bool} {now : Int}
    (h : writeCandles old candles priority completedOnly now = .ok new) :
    new.checkpoints = old.checkpoints ∧
      new.candles = candles.foldl (upsertRow candleKey) old.candles := by
  obtain ⟨mid, hmid, hnew⟩ := bind_eq_ok.mp h
  unfold upsertCandles at hmid
  split at hmid
  · cases hmid
    cases hnew
    obtain ⟨hcandles, -, -, hcheckpoints⟩ := foldl_enqueueJob_frame priority now
      (sortedBy intervalOrder (affectedIntervals candles completedOnly))
      { old with candles := candles.foldl (upsertRow candleKey) old.candles }
    exact ⟨hcheckpoints, hcandles⟩
  · cases hmid

end Candles

section Operations

/-- The new gap's id is the one before `nextGapId`. -/
def startGap (tables : MarketTables) (symbol : Symbol) (stream : String) (start stop : Int) :
    MarketTables :=
  let gap : DataGapRecord :=
    { id := tables.nextGapId
      symbol := symbol
      stream := stream
      startTime := start
      endTime := stop
      status := .recovering
      attempts := 1
      error := none
      recoveredAt := none }
  upsertCheckpoint { tables with gaps := tables.gaps ++ [gap], nextGapId := tables.nextGapId + 1 }
    symbol stream .recovering none none true

def saveBatch (tables : MarketTables) (symbol : Symbol) (stream : String) (candles : List Candle1m)
    (now : Int) : Except Unit MarketTables :=
  match candles.getLast? with
  | none => .ok tables
  | some last => do
    let tables ← writeCandles tables candles 100 false now
    return upsertCheckpoint tables symbol stream .recovering (some last.openTime) none false

inductive LiveIngestResult where
  | ready
  | duplicate
  | gap
  deriving Repr, DecidableEq

def ingestLiveCandle (tables : MarketTables) (stream : String) (candle : Candle1m) (now : Int) :
    Except Unit (LiveIngestResult × MarketTables) := do
  let checkpoint := tables.checkpoint candle.symbol stream
  let tables ← writeCandles tables [candle] 0 true now
  match checkpoint.bind fun row => row.lastConfirmedOpenTime with
  | none =>
    return (.gap, upsertCheckpoint tables candle.symbol stream .degraded none
      (some .liveBeforeCheckpoint) true)
  | some lastConfirmed =>
    if candle.openTime ≤ lastConfirmed then return (.duplicate, tables)
    else if candle.openTime = lastConfirmed + oneMinute then
      return (.ready, upsertCheckpoint tables candle.symbol stream .ready (some candle.openTime)
        none false)
    else
      return (.gap, upsertCheckpoint tables candle.symbol stream .degraded none
        (some (.missingCandles (lastConfirmed + oneMinute) (candle.openTime - oneMinute))) true)

def repairCandles (tables : MarketTables) (candles : List Candle1m) (now : Int) :
    Except Unit MarketTables :=
  if candles.isEmpty then .ok tables else writeCandles tables candles 10 false now

def markStreamState (tables : MarketTables) (symbols : List Symbol) (stream : String)
    (state : CheckpointState) (error : Option String) : MarketTables :=
  symbols.foldl (fun tables symbol =>
    upsertCheckpoint tables symbol stream state none (error.map .reason) true) tables

def markInactiveStreams (tables : MarketTables) (activeSymbols : List Symbol) (stream : String) :
    MarketTables :=
  { tables with
    checkpoints := tables.checkpoints.map fun row =>
      if row.stream = stream ∧ row.symbol ∉ activeSymbols then
        { row with state := .offline, lastError := none }
      else row }

/-- The gap with this id is settled, if there is one. -/
def settleGap (tables : MarketTables) (gapId : Option Nat)
    (change : DataGapRecord → DataGapRecord) : MarketTables :=
  { tables with
    gaps := tables.gaps.map fun gap => if gapId = some gap.id then change gap else gap }

def completeGap (tables : MarketTables) (gapId : Option Nat) (symbol : Symbol) (stream : String)
    (lastConfirmed now : Int) : MarketTables :=
  upsertCheckpoint (settleGap tables gapId fun gap =>
      { gap with status := .recovered, recoveredAt := some now, error := none })
    symbol stream .ready (some lastConfirmed) none false

def failGap (tables : MarketTables) (gapId : Option Nat) (symbol : Symbol) (stream : String)
    (error : MarketDataError) : MarketTables :=
  upsertCheckpoint (settleGap tables gapId fun gap =>
      { gap with status := .failed, error := some error })
    symbol stream .degraded none (some error) true

end Operations

end StructurePulse.MarketData
