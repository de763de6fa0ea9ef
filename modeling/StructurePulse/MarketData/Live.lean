import StructurePulse.MarketData.States
import StructurePulse.Store.Runs
import StructurePulse.Universe.Refresh

/-!
# The live market-data service

`step` is one step of the worker between two awaits: of `LiveMarketDataService.run`, of the
strategy loop behind the readiness flag, of the shutdown or of a writer of the signal store.
The shards' events come in any order in which a shard is never reported the same way twice
running.
-/

namespace StructurePulse.Live
open Library MarketData Universe Store
set_option autoImplicit false

section Stream

structure Shard where
  symbols : List Symbol
  isConnected : Bool := true
  deriving Repr, DecidableEq

/-- `shard_symbols`. -/
def shardSymbols (upper : String → String) (symbols : List Symbol) (shardSize : Nat) :
    List (List Symbol) :=
  (sortedBy id (symbols.map upper).dedup).toChunks shardSize

/-- `symbols` of the stream manager. -/
def streamSymbols (stream : List Shard) : List Symbol := stream.flatMap Shard.symbols

def setConnected (stream : List Shard) (index : Nat) (isConnected : Bool) : List Shard :=
  stream.modify index fun shard => { shard with isConnected := isConnected }

end Stream

section State

/-- The settings, and the case conversions of the texts. -/
structure Settings where
  upper : String → String
  lower : String → String
  policy : UniversePolicyConfig
  rankingFetchLimit : Nat
  shardSize : Nat
  initialHistoryMinutes : Int
  batchCandles : Nat

/-- Where `run` stands: what it does next. -/
inductive Phase where
  | starting
  | selecting (atStart : Bool)
  | retiring (symbols : List Symbol)
  | warming (symbols : List Symbol)
  | connecting (symbols : List Symbol)
  | unsynced
  | syncing
  | waiting
  | gapFound
  | degrading (symbols : List Symbol) (reason : String)
  | recovering (symbols : List Symbol)
  | ended
  deriving Repr, DecidableEq

/-- `woken` says that the strategy loop is past the flag and has not read its symbols;
`cycles` is what each cycle found when it read them. -/
structure LiveWorld where
  universeTables : UniverseTables := {}
  market : MarketData.World := {}
  db : Database
  stream : List Shard := []
  ready : Bool := false
  quiescing : Bool := false
  phase : Phase := .starting
  woken : Bool := false
  cycles : List (List (Symbol × Option CheckpointState)) := []

inductive LiveAction where
  | refresh (answers : Option ProviderAnswers) (now : Int)
  | select
  | markInactive
  | markWarming
  | connect
  | sync (serverTime : Int)
  | task (action : MarketData.Action)
  | finish
  | reconcile
  | candle (candle : Candle1m) (now : Int)
  | gap
  | disconnected (index : Nat) (reason : String)
  | degrade
  | reconnected (index : Nat)
  | recover
  | repair (candles : List Candle1m) (now : Int)
  | quiesce
  | wake
  | cycle
  | store (op : StoreOp)

def LiveWorld.activeSymbols (world : LiveWorld) : List Symbol :=
  listActiveSymbols world.universeTables

def LiveWorld.stateOf (world : LiveWorld) (symbol : Symbol) : Option CheckpointState :=
  checkpointState world.market.tables symbol

end State

section Steps
variable (settings : Settings)

def instrumentRecord (row : InstrumentRow) : Store.InstrumentRecord where
  symbol := row.symbol
  fundingIntervalMinutes := row.fundingIntervalMinutes

/-- The refresh; the signal store sees the same table of instruments. -/
def refreshUniverse (world : LiveWorld) (answers : Option ProviderAnswers) (now : Int)
    (atStart : Bool) : Except Unit LiveWorld := do
  let tables ← Universe.refresh settings.upper settings.lower settings.policy
    settings.rankingFetchLimit world.universeTables answers now
  return { world with
    universeTables := tables
    db := { world.db with instruments := tables.instruments.map instrumentRecord }
    phase := .selecting atStart }

/-- The start of `run` after the refresh, or `_replace_symbols_if_changed` up to the first
transaction; `_active_symbols` sorts. -/
def selectSymbols (world : LiveWorld) (atStart : Bool) : LiveWorld :=
  let symbols := sortedBy id world.activeSymbols
  if atStart then
    if symbols.isEmpty then { world with phase := .ended }
    else { world with phase := .retiring symbols }
  else if symbols = streamSymbols world.stream ∨ symbols.isEmpty then { world with phase := .waiting }
  else { world with ready := false, phase := .retiring symbols }

/-- A transaction of the market-data repository. -/
def marketStep (world : LiveWorld) (action : MarketData.Action) (phase : Phase) :
    Except Unit LiveWorld := do
  let market ← MarketData.step settings.initialHistoryMinutes settings.batchCandles world.market
    action
  return { world with market := market, phase := phase }

def ingestCandle (world : LiveWorld) (candle : Candle1m) (now : Int) : Except Unit LiveWorld := do
  let ingested ← ingestLiveCandle world.market.tables streamName candle now
  return { world with
    market := { world.market with tables := ingested.2 }
    phase := if ingested.1 = .gap then .gapFound else .waiting }

/-- An action that is not due does nothing; an exception that leaves `run` ends the worker. -/
def step (world : LiveWorld) : LiveAction → Except Unit LiveWorld
  | .refresh answers now =>
    match world.phase with
    | .starting => refreshUniverse settings world answers now true
    | .waiting => refreshUniverse settings world answers now false
    | _ => .error ()
  | .select =>
    match world.phase with
    | .selecting atStart => .ok (selectSymbols world atStart)
    | _ => .error ()
  | .markInactive =>
    match world.phase with
    | .retiring symbols => marketStep settings world (.markInactive symbols) (.warming symbols)
    | _ => .error ()
  | .markWarming =>
    match world.phase with
    | .warming symbols => marketStep settings world (.mark symbols .warming none) (.connecting symbols)
    | _ => .error ()
  | .connect =>
    match world.phase with
    | .connecting symbols =>
      .ok { world with
        stream := (shardSymbols settings.upper symbols settings.shardSize).map (Shard.mk · true)
        phase := .unsynced }
    | _ => .error ()
  | .sync serverTime =>
    match world.phase with
    | .unsynced =>
      marketStep settings world (.sync (listActiveTargets world.universeTables) serverTime) .syncing
    | _ => .error ()
  | .task action =>
    match world.phase with
    | .syncing => if action.isTask then marketStep settings world action .syncing else .error ()
    | _ => .error ()
  | .finish =>
    match world.phase with
    | .syncing =>
      if world.market.tasks.all fun task => task.phase.isDone then
        .ok { world with ready := true, phase := .waiting }
      else .error ()
    | _ => .error ()
  | .reconcile =>
    match world.phase with
    | .waiting => .ok { world with ready := false, phase := .unsynced }
    | _ => .error ()
  | .candle candle now =>
    match world.phase with
    | .waiting => ingestCandle world candle now
    | _ => .error ()
  | .gap =>
    match world.phase with
    | .gapFound => .ok { world with ready := false, phase := .unsynced }
    | _ => .error ()
  | .disconnected index reason =>
    match world.phase, world.stream[index]? with
    | .waiting, some shard =>
      if shard.isConnected then
        .ok { world with
          ready := false
          stream := setConnected world.stream index false
          phase := .degrading shard.symbols reason }
      else .error ()
    | _, _ => .error ()
  | .degrade =>
    match world.phase with
    | .degrading symbols reason => marketStep settings world (.mark symbols .degraded (some reason)) .waiting
    | _ => .error ()
  | .reconnected index =>
    match world.phase, world.stream[index]? with
    | .waiting, some shard =>
      if shard.isConnected then .error ()
      else
        .ok { world with
          stream := setConnected world.stream index true
          phase := .recovering shard.symbols }
    | _, _ => .error ()
  | .recover =>
    match world.phase with
    | .recovering symbols => marketStep settings world (.mark symbols .recovering none) .unsynced
    | _ => .error ()
  | .repair candles now => marketStep settings world (.repair candles now) world.phase
  | .quiesce => .ok { world with quiescing := true, ready := false }
  | .wake => if world.ready ∧ ¬world.woken then .ok { world with woken := true } else .error ()
  | .cycle =>
    if world.woken then
      .ok { world with
        woken := false
        cycles := world.cycles ++ [world.activeSymbols.map fun symbol => (symbol, world.stateOf symbol)] }
    else .error ()
  | .store op =>
    match op.exec world.db with
    | .ok db => .ok { world with db := db }
    | .error _ => .error ()

/-- A new worker over an empty database; analysis snapshots and candidates are whatever
they are. -/
def initialWorld (snapshots : List AnalysisSnapshotRecord)
    (candidates : List SignalCandidateRecord) : LiveWorld where
  db := Database.initial [] snapshots candidates

end Steps

end StructurePulse.Live
