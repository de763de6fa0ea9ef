import StructurePulse.MarketData.Repository

/-!
# The aggregation job queue

The operations of the aggregation repository, each one transaction. `locked` names the
job rows other transactions hold at that moment, which `SKIP LOCKED` leaves out.
-/

namespace StructurePulse.Aggregation
open Library SMC MarketData
set_option autoImplicit false

/-- A claimed job. -/
structure AggregationJob extends Interval where
  id : Nat
  priority : Nat
  attempts : Nat
  claimedAt : Int
  deriving Repr, DecidableEq

section Claims

def recoverStaleJobs (tables : MarketTables) (staleAfter now : Int) : MarketTables :=
  { tables with
    jobs := tables.jobs.map fun row =>
      if row.state = .processing ∧ row.updatedAt < now - staleAfter then
        { row with state := .pending, availableAt := now, updatedAt := now }
      else row }

/-- The columns of `order_by`. -/
def claimOrder (row : AggregationJobRecord) : Nat ×ₗ Int ×ₗ Nat :=
  toLex (row.priority, toLex (row.openTime, row.id))

def claimableJobs (tables : MarketTables) (claimedAt : Int) (limit : Nat) (locked : Nat → Bool) :
    List AggregationJobRecord :=
  (sortedBy claimOrder (tables.jobs.filter fun row =>
    decide (row.state = .pending ∧ row.availableAt ≤ claimedAt) && !locked row.id)).take limit

/-- A row as `claim_jobs` writes it. -/
def claimedRow (claimedAt : Int) (row : AggregationJobRecord) : AggregationJobRecord :=
  { row with state := .processing, attempts := row.attempts + 1, updatedAt := claimedAt }

def claimJobs (tables : MarketTables) (claimedAt : Int) (limit : Nat) (locked : Nat → Bool) :
    List AggregationJob × MarketTables :=
  let records := claimableJobs tables claimedAt limit locked
  (records.map fun row =>
      { toInterval := row.toInterval
        id := row.id
        priority := row.priority
        attempts := row.attempts + 1
        claimedAt := claimedAt },
    { tables with
      jobs := tables.jobs.map fun row =>
        if row.id ∈ records.map AggregationJobRecord.id then claimedRow claimedAt row else row })

end Claims

section Results

/-- The `WHERE` clause of `load_source_candles`. -/
def holds (interval : Interval) (candle : Candle1m) : Bool :=
  candle.symbol = interval.symbol ∧ candle.openTime ≥ interval.openTime ∧
    candle.openTime < intervalEnd interval.openTime interval.timeframe

def loadSourceCandles (tables : MarketTables) (interval : Interval) : List Candle1m :=
  sortedBy Candle1m.openTime (tables.candles.filter (holds interval))

/-- The row is still the one that was claimed. -/
def AggregationJob.Current (job : AggregationJob) (row : AggregationJobRecord) : Prop :=
  row.id = job.id ∧ row.state = .processing ∧ row.updatedAt = job.claimedAt

instance (job : AggregationJob) (row : AggregationJobRecord) : Decidable (job.Current row) := by
  unfold AggregationJob.Current
  infer_instance

/-- The upsert of a result, or the delete when there is none. -/
def storeResult (aggregates : List AggregatedCandle) (interval : Interval)
    (candle : Option AggregatedCandle) : List AggregatedCandle :=
  match candle with
  | none => aggregates.filter fun row => aggregateKey row ≠ interval
  | some candle => upsertRow aggregateKey aggregates candle

def finishJob (tables : MarketTables) (job : AggregationJob) (candle : Option AggregatedCandle) :
    MarketTables :=
  { tables with
    aggregates := storeResult tables.aggregates job.toInterval candle
    jobs := tables.jobs.filter fun row => ¬ job.Current row }

/-- `min(60.0, 2 ** min(job.attempts, 5))` seconds. -/
def retryDelay (job : AggregationJob) : Int := min 60 (2 ^ min job.attempts 5) * 1000000

def failJob (tables : MarketTables) (job : AggregationJob) (error : String) (now : Int) :
    MarketTables :=
  { tables with
    jobs := tables.jobs.map fun row =>
      if job.Current row then
        { row with
          state := .pending
          lastError := some error
          availableAt := now + retryDelay job
          updatedAt := now }
      else row }

end Results

section Seeding

/-- The time up to which the symbol's candles were scanned. -/
def lastScanned (tables : MarketTables) (symbol : Symbol) : Option Int :=
  (lookup AggregationCursorRecord.symbol tables.cursors symbol).bind fun row =>
    row.lastScannedOpenTime

/-- The open times of the symbol's candles that come after the cursor. -/
def unscannedTimes (tables : MarketTables) (symbol : Symbol) : List Int :=
  (sortedBy Candle1m.openTime (tables.candles.filter fun candle =>
    decide (candle.symbol = symbol) &&
      (lastScanned tables symbol).all fun last => decide (last < candle.openTime))).map
    Candle1m.openTime

/-- The candle that stands for a scanned open time. -/
def placeholderCandle (symbol : Symbol) (openTime : Int) : Candle1m where
  symbol := symbol
  openTime := openTime
  openPrice := 0
  highPrice := 0
  lowPrice := 0
  closePrice := 0
  volume := 0
  turnover := 0

/-- The jobs of the scanned candles are enqueued and the cursor moves to the last one. -/
def seedSymbol (tables : MarketTables) (symbol : Symbol) (openTimes : List Int) (last now : Int) :
    MarketTables :=
  let seeded := enqueueAggregationJobs tables (openTimes.map (placeholderCandle symbol)) 100 false now
  { seeded with
    cursors := upsertRow AggregationCursorRecord.symbol seeded.cursors ⟨symbol, some last⟩ }

/-- The first symbol with unscanned candles is seeded; the number of them is returned. -/
def seedNextBatch (tables : MarketTables) (batchSize : Nat) (now : Int) :
    List Symbol → Nat × MarketTables
  | [] => (0, tables)
  | symbol :: symbols =>
    let openTimes := (unscannedTimes tables symbol).take batchSize
    match openTimes.getLast? with
    | none => seedNextBatch tables batchSize now symbols
    | some last => (openTimes.length, seedSymbol tables symbol openTimes last now)

end Seeding

end StructurePulse.Aggregation
