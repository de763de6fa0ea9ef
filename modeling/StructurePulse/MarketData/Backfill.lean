import StructurePulse.MarketData.Repository

/-!
# Backfilling through REST

`sync_once` reads the checkpoints and fills each target up to the last closed minute. The
targets are filled side by side; `SyncTask` is one `_sync_target` on its way.
-/

namespace StructurePulse.MarketData
open Library SMC Aggregation Store
set_option autoImplicit false

/-- `STREAM_NAME`. -/
def streamName : String := "kline_1m"

section Answers

/-- A row of a kline answer; times count milliseconds. -/
structure Kline where
  startMs : Int
  openPrice : ℚ
  highPrice : ℚ
  lowPrice : ℚ
  closePrice : ℚ
  volume : ℚ
  turnover : ℚ
  deriving Repr, DecidableEq

def Kline.openTime (row : Kline) : Int := row.startMs * 1000

/-- `_normalize_kline`; the client puts the symbol it asked for on every row. -/
def normalizeKline (symbol : Symbol) (row : Kline) : Candle1m where
  symbol := symbol
  openTime := row.openTime
  openPrice := row.openPrice
  highPrice := row.highPrice
  lowPrice := row.lowPrice
  closePrice := row.closePrice
  volume := row.volume
  turnover := row.turnover

/-- What `get_closed_1m_klines` makes of the rows of an answer. -/
def closedKlines (symbol : Symbol) (start stop : Int) (rows : List Kline) : List Candle1m :=
  sortedBy Candle1m.openTime ((rows.filter fun row => start ≤ row.openTime ∧ row.openTime ≤ stop).map
    (normalizeKline symbol))

/-- `_validate_contiguous`; `int` cuts towards zero. -/
def validateContiguous (candles : List Candle1m) (start stop : Int) :
    Except MarketDataError Unit :=
  let expected := (stop - start).tdiv oneMinute + 1
  if (candles.length : Int) ≠ expected then .error (.incompleteRange expected candles.length)
  else
    match candles.zipIdx.find? fun (candle, index) =>
        candle.openTime ≠ start + (index : Int) * oneMinute with
    | some (candle, index) =>
      .error (.unexpectedMinute (start + (index : Int) * oneMinute) candle.openTime)
    | none => .ok ()

end Answers

section Tasks

structure MarketDataTarget where
  symbol : Symbol
  marketCapRank : Int
  launchTime : Int
  deriving Repr, DecidableEq

inductive SyncResult where
  | ready
  | recovered
  | failed
  deriving Repr, DecidableEq

inductive TaskPhase where
  | waiting
  | filling (cursor : Int) (gapId : Option Nat)
  | done (result : SyncResult)
  deriving Repr, DecidableEq

structure SyncTask where
  target : MarketDataTarget
  checkpointTime : Option Int
  lastClosed : Int
  phase : TaskPhase := .waiting
  deriving Repr, DecidableEq

def lastClosedMinute (serverTime : Int) : Int := minuteFloor serverTime - oneMinute

def startTime (initialHistory : Int) (target : MarketDataTarget) (checkpointTime : Option Int)
    (lastClosed : Int) : Int :=
  match checkpointTime with
  | some time => time + oneMinute
  | none => max (lastClosed - (initialHistory - 1) * oneMinute) (minuteFloor target.launchTime)

def requiresGap (checkpointTime : Option Int) (start stop : Int) : Bool :=
  checkpointTime.isNone || start < stop

/-- The key of `prioritized`. -/
def priority (target : MarketDataTarget) : Nat ×ₗ Int :=
  toLex (if target.symbol = "BTCUSDT" then 0 else if target.symbol = "ETHUSDT" then 1 else 2,
    target.marketCapRank)

def confirmedTime (tables : MarketTables) (symbol : Symbol) : Option Int :=
  (tables.checkpoint symbol streamName).bind fun row => row.lastConfirmedOpenTime

/-- The tasks that `sync_once` starts. -/
def syncTasks (tables : MarketTables) (targets : List MarketDataTarget) (serverTime : Int) :
    List SyncTask :=
  (sortedBy priority targets).map fun target =>
    { target := target
      checkpointTime := confirmedTime tables target.symbol
      lastClosed := lastClosedMinute serverTime }

section Steps
variable (initialHistory : Int) (batchCandles : Nat)

/-- `_sync_target` up to the loop: the target is complete, or its gap is opened. -/
def beginTask (tables : MarketTables) (task : SyncTask) (now : Int) : MarketTables × TaskPhase :=
  let start := startTime initialHistory task.target task.checkpointTime task.lastClosed
  if start > task.lastClosed then
    match task.checkpointTime with
    | some time => (completeGap tables none task.target.symbol streamName time now, .done .ready)
    | none => (tables, .done .ready)
  else if requiresGap task.checkpointTime start task.lastClosed then
    (startGap tables task.target.symbol streamName start task.lastClosed,
      .filling start (some tables.nextGapId))
  else (tables, .filling start none)

def batchEnd (cursor lastClosed : Int) : Int :=
  min (cursor + ((batchCandles : Int) - 1) * oneMinute) lastClosed

/-- The `except` branch. -/
def failTask (tables : MarketTables) (task : SyncTask) (gapId : Option Nat)
    (error : MarketDataError) : MarketTables × TaskPhase :=
  (failGap tables gapId task.target.symbol streamName error, .done .failed)

/-- One pass of the loop, with the rows the provider answers. -/
def fetchBatch (tables : MarketTables) (task : SyncTask) (cursor : Int) (gapId : Option Nat)
    (rows : List Kline) (now : Int) : MarketTables × TaskPhase :=
  let stop := batchEnd batchCandles cursor task.lastClosed
  let candles := closedKlines task.target.symbol cursor stop rows
  match validateContiguous candles cursor stop with
  | .error error => failTask tables task gapId error
  | .ok () =>
    match saveBatch tables task.target.symbol streamName candles now with
    | .error () => failTask tables task gapId (.reason "CardinalityViolationError")
    | .ok tables => (tables, .filling (stop + oneMinute) gapId)

end Steps

end Tasks

section Machine

/-- The tables and the tasks of the running `sync_once`. -/
structure World where
  tables : MarketTables := {}
  tasks : List SyncTask := []

inductive Action where
  | sync (targets : List MarketDataTarget) (serverTime : Int)
  | begin (index : Nat) (now : Int)
  | fetch (index : Nat) (rows : List Kline) (now : Int)
  | raise (index : Nat) (error : String)
  | complete (index : Nat) (now : Int)
  | crash
  | ingest (candle : Candle1m) (now : Int)
  | repair (candles : List Candle1m) (now : Int)
  | mark (symbols : List Symbol) (state : CheckpointState) (error : Option String)
  | markInactive (activeSymbols : List Symbol)

/-- The outcome of a step of the task at the index. -/
def World.advance (world : World) (index : Nat) (task : SyncTask)
    (outcome : MarketTables × TaskPhase) : World :=
  { world with
    tables := outcome.1
    tasks := world.tasks.set index { task with phase := outcome.2 } }

def TaskPhase.isDone : TaskPhase → Bool
  | .done _ => true
  | _ => false

variable (initialHistory : Int) (batchCandles : Nat)

/-- An action that its task cannot take now does nothing. `sync_once` starts when no other
one runs, with the targets of the universe of that moment; a universe selects a symbol once. -/
def step (world : World) : Action → Except Unit World
  | .sync targets serverTime =>
    if (world.tasks.all fun task => task.phase.isDone) ∧
        (targets.map MarketDataTarget.symbol).Nodup then
      .ok { world with tasks := syncTasks world.tables targets serverTime }
    else .error ()
  | .begin index now =>
    match world.tasks[index]? with
    | some task =>
      match task.phase with
      | .waiting => .ok (world.advance index task (beginTask initialHistory world.tables task now))
      | _ => .error ()
    | none => .error ()
  | .fetch index rows now =>
    match world.tasks[index]? with
    | some task =>
      match task.phase with
      | .filling cursor gapId =>
        if cursor ≤ task.lastClosed then
          .ok (world.advance index task
            (fetchBatch batchCandles world.tables task cursor gapId rows now))
        else .error ()
      | _ => .error ()
    | none => .error ()
  | .raise index error =>
    match world.tasks[index]? with
    | some task =>
      match task.phase with
      | .filling _ gapId =>
        .ok (world.advance index task (failTask world.tables task gapId (.reason error)))
      | _ => .error ()
    | none => .error ()
  | .complete index now =>
    match world.tasks[index]? with
    | some task =>
      match task.phase with
      | .filling cursor gapId =>
        if task.lastClosed < cursor then
          .ok (world.advance index task
            (completeGap world.tables gapId task.target.symbol streamName task.lastClosed now,
              .done .recovered))
        else .error ()
      | _ => .error ()
    | none => .error ()
  | .crash => .ok { world with tasks := [] }
  | .ingest candle now => do
    let ingested ← ingestLiveCandle world.tables streamName candle now
    return { world with tables := ingested.2 }
  | .repair candles now => do
    let tables ← repairCandles world.tables candles now
    return { world with tables := tables }
  | .mark symbols state error =>
    .ok { world with tables := markStreamState world.tables symbols streamName state error }
  | .markInactive activeSymbols =>
    .ok { world with tables := markInactiveStreams world.tables activeSymbols streamName }

/-- The world after a list of actions, from empty tables. -/
def run (actions : List Action) : World := runAll (step initialHistory batchCandles) {} actions

end Machine

section Advancing
variable {world : World} {index : Nat} {task other : SyncTask} {outcome : MarketTables × TaskPhase}

def taskSymbol (task : SyncTask) : Symbol := task.target.symbol

/-- A step of a task leaves the targets. -/
theorem World.advance_symbols (htask : world.tasks[index]? = some task) :
    (world.advance index task outcome).tasks.map taskSymbol = world.tasks.map taskSymbol := by
  have hbound := (List.getElem?_eq_some_iff.mp htask).1
  unfold World.advance
  rw [List.map_set]
  apply List.ext_getElem?
  intro position
  by_cases heq : index = position
  · subst heq
    rw [List.getElem?_set_self (by rw [List.length_map]; exact hbound), List.getElem?_map, htask]
    rfl
  · rw [List.getElem?_set_ne heq]

/-- The other tasks stay, and their symbols are other symbols. -/
theorem World.mem_advance (htask : world.tasks[index]? = some task)
    (hdistinct : (world.tasks.map taskSymbol).Nodup)
    (hother : other ∈ (world.advance index task outcome).tasks) :
    other = { task with phase := outcome.2 } ∨
      other ∈ world.tasks ∧ taskSymbol other ≠ taskSymbol task := by
  have hbound := (List.getElem?_eq_some_iff.mp htask).1
  obtain ⟨position, hposition⟩ := List.mem_iff_getElem?.mp hother
  unfold World.advance at hposition
  simp only at hposition
  by_cases heq : index = position
  · subst heq
    rw [List.getElem?_set_self hbound] at hposition
    cases hposition
    exact Or.inl rfl
  · rw [List.getElem?_set_ne heq] at hposition
    refine Or.inr ⟨List.mem_iff_getElem?.mpr ⟨position, hposition⟩, fun hsame => heq ?_⟩
    have hkeys : (world.tasks.map taskSymbol)[index]? = (world.tasks.map taskSymbol)[position]? := by
      rw [List.getElem?_map, List.getElem?_map, htask, hposition, Option.map_some, Option.map_some,
        hsame]
    exact (List.getElem?_inj (by rw [List.length_map]; exact hbound) hdistinct).mp hkeys

end Advancing

end StructurePulse.MarketData
