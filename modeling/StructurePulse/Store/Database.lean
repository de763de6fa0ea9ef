import StructurePulse.Library.Tables
import StructurePulse.Library.Transactions
import StructurePulse.Store.Records

/-!
# The tables of the signal store

Rows are kept in insertion order. An insert or update that breaks a unique index or
a foreign key raises and the surrounding transaction is rolled back. Instruments,
analysis snapshots and candidates are written by other services; here they are
whatever they are.
-/

namespace StructurePulse.Store
open Signals Library
set_option autoImplicit false

structure InstrumentRecord where
  symbol : Symbol
  fundingIntervalMinutes : Int
  deriving Repr, DecidableEq

/-- `fundingRate` is `market_context["funding_rate"]`. -/
structure AnalysisSnapshotRecord where
  id : Nat
  fundingRate : Option ℚ
  deriving Repr, DecidableEq

/-- A value of a JSON payload. -/
inductive PayloadValue where
  | text (value : String)
  | decimal (value : ℚ)
  | number (value : Int)
  deriving Repr, DecidableEq

abbrev Payload := List (String × PayloadValue)

structure SignalEventRecord where
  signalId : Nat
  eventType : String
  statusFrom : Option SignalStatus
  statusTo : SignalStatus
  eventTime : Int
  sourceEventId : Option String
  idempotencyKey : String
  payload : Payload
  deriving Repr, DecidableEq

/-- A row that records a change of status, not the publication and not a tracking note. -/
def SignalEventRecord.isTransition (event : SignalEventRecord) : Bool :=
  event.statusFrom.isSome && decide (event.statusFrom ≠ some event.statusTo)

inductive NotificationType where
  | newSignal
  | entryFilled
  | takeProfit1
  | signalResult
  | signalWarning
  | signalExpired
  | signalInvalidated
  deriving Repr, DecidableEq

def NotificationType.text : NotificationType → String
  | .newSignal => "new_signal"
  | .entryFilled => "entry_filled"
  | .takeProfit1 => "take_profit_1"
  | .signalResult => "signal_result"
  | .signalWarning => "signal_warning"
  | .signalExpired => "signal_expired"
  | .signalInvalidated => "signal_invalidated"

/-- `_notification_type`. -/
def notificationType : SignalStatus → Option NotificationType
  | .active => some .newSignal
  | .entered => some .entryFilled
  | .tp1Reached => some .takeProfit1
  | .stopped => some .signalResult
  | .stoppedAtBreakeven => some .signalResult
  | .tp2Completed => some .signalResult
  | .ambiguous => some .signalWarning
  | .coverageFailed => some .signalWarning
  | .expired => some .signalExpired
  | .invalidated => some .signalInvalidated
  | .preparing => some .signalWarning
  | .suppressed => some .signalWarning

structure NotificationPayload where
  signalId : Nat
  symbol : Symbol
  direction : TradeDirection
  status : SignalStatus
  eventType : String
  eventTime : Int
  score : Int
  strength : Strategy.Strength
  entryLower : ℚ
  entryUpper : ℚ
  plannedEntry : ℚ
  stopLoss : ℚ
  takeProfit1 : ℚ
  takeProfit2 : ℚ
  quantity : ℚ
  riskAmount : ℚ
  realizedPnl : ℚ
  fees : ℚ
  estimatedFunding : ℚ
  rMultiple : ℚ
  ambiguous : Bool
  deriving Repr, DecidableEq

/-- `_notification_payload`. -/
def notificationPayload (signal : SignalRecord) (trade : VirtualTradeRecord)
    (candidate : SignalCandidateRecord) (eventType : String) (eventTime : Int) :
    NotificationPayload where
  signalId := signal.id
  symbol := signal.symbol
  direction := signal.direction
  status := signal.status
  eventType := eventType
  eventTime := eventTime
  score := candidate.score
  strength := candidate.strength
  entryLower := signal.entryLower
  entryUpper := signal.entryUpper
  plannedEntry := signal.plannedEntry
  stopLoss := signal.stopLoss
  takeProfit1 := signal.takeProfit1
  takeProfit2 := signal.takeProfit2
  quantity := signal.quantity
  riskAmount := signal.riskAmount
  realizedPnl := trade.realizedPnl
  fees := trade.fees
  estimatedFunding := trade.estimatedFunding
  rMultiple := trade.rMultiple
  ambiguous := trade.ambiguous

structure NotificationOutboxRecord where
  idempotencyKey : String
  eventType : NotificationType
  signalId : Nat
  payload : NotificationPayload
  status : String := "pending"
  availableAt : Int
  deriving Repr, DecidableEq

structure Database where
  instruments : List InstrumentRecord
  snapshots : List AnalysisSnapshotRecord
  candidates : List SignalCandidateRecord
  signals : List SignalRecord := []
  trades : List VirtualTradeRecord := []
  events : List SignalEventRecord := []
  outbox : List NotificationOutboxRecord := []
  nextSignalId : Nat := 1
  deriving Repr, DecidableEq

namespace Database

def findInstrument (db : Database) (symbol : Symbol) : Option InstrumentRecord :=
  lookup InstrumentRecord.symbol db.instruments symbol

def findSnapshot (db : Database) (id : Nat) : Option AnalysisSnapshotRecord :=
  lookup AnalysisSnapshotRecord.id db.snapshots id

def findCandidate (db : Database) (id : Nat) : Option SignalCandidateRecord :=
  lookup SignalCandidateRecord.id db.candidates id

def findSignal (db : Database) (id : Nat) : Option SignalRecord :=
  lookup SignalRecord.id db.signals id

def findTrade (db : Database) (signalId : Nat) : Option VirtualTradeRecord :=
  lookup VirtualTradeRecord.signalId db.trades signalId

def findEvent (db : Database) (idempotencyKey : String) : Option SignalEventRecord :=
  lookup SignalEventRecord.idempotencyKey db.events idempotencyKey

/-- The partial index `uq_signals_one_active_per_symbol`, seen from one row. -/
def activeElsewhere (db : Database) (signal : SignalRecord) : Bool :=
  signal.status.isActive && db.signals.any fun other =>
    other.id ≠ signal.id ∧ other.symbol = signal.symbol ∧ other.status.isActive

def insertSignal (db : Database) (signal : SignalRecord) : Except StoreError Database :=
  if (db.findCandidate signal.candidateId).isNone then .error (.integrity "signals_candidate_id_fkey")
  else if (db.findInstrument signal.symbol).isNone then .error (.integrity "signals_symbol_fkey")
  else if db.signals.any fun other => other.candidateId = signal.candidateId then
    .error (.integrity "uq_signals_candidate_id")
  else if db.activeElsewhere signal then .error (.integrity "uq_signals_one_active_per_symbol")
  else .ok { db with signals := db.signals ++ [signal], nextSignalId := db.nextSignalId + 1 }

def updateSignal (db : Database) (signal : SignalRecord) : Except StoreError Database :=
  if db.activeElsewhere signal then .error (.integrity "uq_signals_one_active_per_symbol")
  else .ok { db with signals := replaceRow SignalRecord.id db.signals signal }

def insertTrade (db : Database) (trade : VirtualTradeRecord) : Except StoreError Database :=
  if (db.findTrade trade.signalId).isSome then .error (.integrity "uq_virtual_trades_signal_id")
  else .ok { db with trades := db.trades ++ [trade] }

def updateTrade (db : Database) (trade : VirtualTradeRecord) : Database :=
  { db with trades := replaceRow VirtualTradeRecord.signalId db.trades trade }

def insertEvent (db : Database) (event : SignalEventRecord) : Except StoreError Database :=
  if (db.findEvent event.idempotencyKey).isSome then
    .error (.integrity "uq_signal_events_idempotency_key")
  else .ok { db with events := db.events ++ [event] }

def insertOutbox (db : Database) (row : NotificationOutboxRecord) : Except StoreError Database :=
  if (lookup NotificationOutboxRecord.idempotencyKey db.outbox row.idempotencyKey).isSome then
    .error (.integrity "uq_notification_outbox_idempotency")
  else .ok { db with outbox := db.outbox ++ [row] }

/-- The events of one signal, oldest first. -/
def eventsOf (db : Database) (signalId : Nat) : List SignalEventRecord :=
  db.events.filter fun event => event.signalId = signalId

def outboxOf (db : Database) (signalId : Nat) : List NotificationOutboxRecord :=
  db.outbox.filter fun row => row.signalId = signalId

theorem insertSignal_ok {db next : Database} {signal : SignalRecord}
    (h : db.insertSignal signal = .ok next) :
    (db.findCandidate signal.candidateId).isSome = true ∧
    (∀ other ∈ db.signals, other.candidateId ≠ signal.candidateId) ∧
    db.activeElsewhere signal = false ∧
    next = { db with signals := db.signals ++ [signal], nextSignalId := db.nextSignalId + 1 } := by
  unfold insertSignal at h
  split_ifs at h with hcandidate _ hunique hactive
  cases h
  refine ⟨?_, by simpa using hunique, by simpa using hactive, rfl⟩
  exact Option.isSome_iff_ne_none.mpr fun hnone => hcandidate (by rw [hnone]; rfl)

theorem updateSignal_ok {db next : Database} {signal : SignalRecord}
    (h : db.updateSignal signal = .ok next) :
    next = { db with signals := replaceRow SignalRecord.id db.signals signal } := by
  unfold updateSignal at h
  split_ifs at h
  exact (Except.ok.inj h).symm

theorem insertTrade_ok {db next : Database} {trade : VirtualTradeRecord}
    (h : db.insertTrade trade = .ok next) :
    db.findTrade trade.signalId = none ∧ next = { db with trades := db.trades ++ [trade] } := by
  unfold insertTrade at h
  split_ifs at h with hnew
  exact ⟨Option.not_isSome_iff_eq_none.mp hnew, (Except.ok.inj h).symm⟩

theorem insertEvent_ok {db next : Database} {event : SignalEventRecord}
    (h : db.insertEvent event = .ok next) :
    db.findEvent event.idempotencyKey = none ∧ next = { db with events := db.events ++ [event] } := by
  unfold insertEvent at h
  split_ifs at h with hnew
  exact ⟨Option.not_isSome_iff_eq_none.mp hnew, (Except.ok.inj h).symm⟩

theorem insertOutbox_ok {db next : Database} {row : NotificationOutboxRecord}
    (h : db.insertOutbox row = .ok next) : next = { db with outbox := db.outbox ++ [row] } := by
  unfold insertOutbox at h
  split_ifs at h
  exact (Except.ok.inj h).symm

theorem updateSignal_commits {db : Database} {signal : SignalRecord}
    (h : db.activeElsewhere signal = false) : db.updateSignal signal =
      .ok { db with signals := replaceRow SignalRecord.id db.signals signal } :=
  if_neg (Bool.eq_false_iff.mp h)

theorem insertEvent_commits {db : Database} {event : SignalEventRecord}
    (h : db.findEvent event.idempotencyKey = none) :
    db.insertEvent event = .ok { db with events := db.events ++ [event] } :=
  if_neg (Option.not_isSome_iff_eq_none.mpr h)

theorem insertOutbox_commits {db : Database} {row : NotificationOutboxRecord}
    (h : lookup NotificationOutboxRecord.idempotencyKey db.outbox row.idempotencyKey = none) :
    db.insertOutbox row = .ok { db with outbox := db.outbox ++ [row] } :=
  if_neg (Option.not_isSome_iff_eq_none.mpr h)

end Database

end StructurePulse.Store
