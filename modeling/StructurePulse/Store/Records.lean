import StructurePulse.Strategy.Risk
import StructurePulse.Signals.Lifecycle
import StructurePulse.Signals.Policy

/-!
# Rows of the signal store

Column types of the five tables the signal repository touches and the functions
that build one row from another. A `Numeric` column holds the number that was written.
Surrogate keys of rows nothing looks up, and the `updated_at` columns, are left out.
-/

namespace StructurePulse.Store
open Signals Strategy
set_option autoImplicit false

structure SignalCandidateRecord where
  id : Nat
  analysisSnapshotId : Nat
  symbol : Symbol
  direction : TradeDirection
  status : CandidateStatus
  score : Int
  strength : Strength
  entryLower : Option ℚ
  entryUpper : Option ℚ
  plannedEntry : Option ℚ
  stopLoss : Option ℚ
  takeProfit1 : Option ℚ
  takeProfit2 : Option ℚ
  riskAmount : Option ℚ
  quantity : Option ℚ
  notional : Option ℚ
  estimatedEntryFee : Option ℚ
  expiresAt : Int
  deriving Repr, DecidableEq

/-- `StrategyRepository._candidate_record`. -/
def candidateRecord (id snapshotId : Nat) (candidate : SignalCandidate) :
    SignalCandidateRecord where
  id := id
  analysisSnapshotId := snapshotId
  symbol := candidate.symbol
  direction := candidate.direction
  status := candidate.status
  score := candidate.score
  strength := candidate.strength
  entryLower := candidate.tradePlan.map (·.entryLower)
  entryUpper := candidate.tradePlan.map (·.entryUpper)
  plannedEntry := candidate.tradePlan.map (·.plannedEntry)
  stopLoss := candidate.tradePlan.map (·.stopLoss)
  takeProfit1 := candidate.tradePlan.map (·.takeProfit1)
  takeProfit2 := candidate.tradePlan.map (·.takeProfit2)
  riskAmount := candidate.tradePlan.map (·.riskAmount)
  quantity := candidate.tradePlan.map (·.quantity)
  notional := candidate.tradePlan.map (·.notional)
  estimatedEntryFee := candidate.tradePlan.map (·.estimatedEntryFee)
  expiresAt := candidate.expiresAt

structure SignalRecord where
  id : Nat
  candidateId : Nat
  symbol : Symbol
  direction : TradeDirection
  status : SignalStatus
  suppressionReason : Option PublicationReason
  entryLower : ℚ
  entryUpper : ℚ
  plannedEntry : ℚ
  stopLoss : ℚ
  takeProfit1 : ℚ
  takeProfit2 : ℚ
  quantity : ℚ
  riskAmount : ℚ
  takerFeeRate : ℚ
  fundingRate : ℚ
  fundingIntervalMinutes : Int
  expiresAt : Int
  activatedAt : Option Int := none
  enteredAt : Option Int := none
  tp1ReachedAt : Option Int := none
  closedAt : Option Int := none
  version : Nat := 1
  createdAt : Int
  deriving Repr, DecidableEq

structure VirtualTradeRecord where
  signalId : Nat
  status : VirtualTradeStatus
  plannedEntry : ℚ
  currentStop : ℚ
  takeProfit1 : ℚ
  takeProfit2 : ℚ
  quantity : ℚ
  remainingQuantity : ℚ
  enteredAt : Option Int := none
  resolvedAt : Option Int := none
  realizedPnl : ℚ := 0
  fees : ℚ := 0
  estimatedFunding : ℚ := 0
  rMultiple : ℚ := 0
  ambiguous : Bool := false
  resolutionNote : Option String := none
  lastTradeId : Option String := none
  lastTradeTime : Option Int := none
  lastTradeSequence : Option Int := none
  version : Nat := 1
  deriving Repr, DecidableEq

/-- What aborts a transaction: the `ValueError`s of the repository and the constraints
of the tables. -/
inductive StoreError where
  | keyBelongsTo (idempotencyKey : String) (signalId : Nat)
  | signalMissing (signalId : Nat)
  | invalidTransition (error : InvalidTransition)
  | noVirtualTrade (signalId : Nat)
  | missingTradePlan
  | missingTradeLevels
  | integrity (constraint : String)
  deriving Repr, DecidableEq

def StoreError.text : StoreError → String
  | .keyBelongsTo idempotencyKey signalId =>
    s!"Idempotency key {idempotencyKey} belongs to signal {signalId}"
  | .signalMissing signalId => s!"Signal {signalId} does not exist"
  | .invalidTransition error => error.text
  | .noVirtualTrade signalId => s!"Signal {signalId} has no virtual trade"
  | .missingTradePlan => "Accepted candidate is missing a trade plan"
  | .missingTradeLevels => "Accepted candidate is missing virtual trade levels"
  | .integrity constraint => constraint

/-- The taker fee rate a signal is tracked with. -/
def signalFeeRate (candidate : SignalCandidateRecord) : ℚ :=
  match candidate.estimatedEntryFee, candidate.notional with
  | some fee, some notional => if notional > 0 then fee / notional else 55 / 100000
  | _, _ => 55 / 100000

/-- `SignalRepository._signal_record`. -/
def signalRecord (id : Nat) (candidate : SignalCandidateRecord) (status : SignalStatus)
    (reason : Option PublicationReason) (now : Int) (fundingRate : ℚ)
    (fundingIntervalMinutes : Int) : Except StoreError SignalRecord :=
  match candidate.entryLower, candidate.entryUpper, candidate.plannedEntry, candidate.stopLoss,
      candidate.takeProfit1, candidate.takeProfit2, candidate.quantity, candidate.riskAmount with
  | some entryLower, some entryUpper, some plannedEntry, some stopLoss, some takeProfit1,
      some takeProfit2, some quantity, some riskAmount =>
    .ok {
      id := id
      candidateId := candidate.id
      symbol := candidate.symbol
      direction := candidate.direction
      status := status
      suppressionReason := reason
      entryLower := entryLower
      entryUpper := entryUpper
      plannedEntry := plannedEntry
      stopLoss := stopLoss
      takeProfit1 := takeProfit1
      takeProfit2 := takeProfit2
      quantity := quantity
      riskAmount := riskAmount
      takerFeeRate := signalFeeRate candidate
      fundingRate := fundingRate
      fundingIntervalMinutes := fundingIntervalMinutes
      expiresAt := candidate.expiresAt
      createdAt := now }
  | _, _, _, _, _, _, _, _ => .error .missingTradePlan

/-- `SignalRepository._virtual_trade`. -/
def virtualTrade (signal : SignalRecord) (candidate : SignalCandidateRecord) :
    Except StoreError VirtualTradeRecord :=
  match candidate.plannedEntry, candidate.stopLoss, candidate.takeProfit1, candidate.takeProfit2,
      candidate.quantity with
  | some plannedEntry, some stopLoss, some takeProfit1, some takeProfit2, some quantity =>
    .ok {
      signalId := signal.id
      status := .waitingEntry
      plannedEntry := plannedEntry
      currentStop := stopLoss
      takeProfit1 := takeProfit1
      takeProfit2 := takeProfit2
      quantity := quantity
      remainingQuantity := quantity }
  | _, _, _, _, _ => .error .missingTradeLevels

structure TrackingSignalView where
  id : Nat
  symbol : Symbol
  direction : TradeDirection
  status : SignalStatus
  entryLower : ℚ
  entryUpper : ℚ
  plannedEntry : ℚ
  stopLoss : ℚ
  takeProfit1 : ℚ
  takeProfit2 : ℚ
  quantity : ℚ
  riskAmount : ℚ
  takerFeeRate : ℚ
  expiresAt : Int
  createdAt : Int
  currentStop : ℚ
  remainingQuantity : ℚ
  lastTradeId : Option String
  lastTradeTime : Option Int
  lastTradeSequence : Option Int
  fundingRate : ℚ := 0
  fundingIntervalMinutes : Int := 480
  enteredAt : Option Int := none
  tp1ReachedAt : Option Int := none
  deriving Repr, DecidableEq

def TrackingSignalView.coverageAnchor (signal : TrackingSignalView) : Int :=
  signal.lastTradeTime.getD signal.createdAt

/-- One row of `list_tracking_signals`. -/
def trackingView (signal : SignalRecord) (trade : VirtualTradeRecord) : TrackingSignalView where
  id := signal.id
  symbol := signal.symbol
  direction := signal.direction
  status := signal.status
  entryLower := signal.entryLower
  entryUpper := signal.entryUpper
  plannedEntry := signal.plannedEntry
  stopLoss := signal.stopLoss
  takeProfit1 := signal.takeProfit1
  takeProfit2 := signal.takeProfit2
  quantity := signal.quantity
  riskAmount := signal.riskAmount
  takerFeeRate := signal.takerFeeRate
  expiresAt := signal.expiresAt
  createdAt := signal.createdAt
  currentStop := trade.currentStop
  remainingQuantity := trade.remainingQuantity
  lastTradeId := trade.lastTradeId
  lastTradeTime := trade.lastTradeTime
  lastTradeSequence := trade.lastTradeSequence
  fundingRate := signal.fundingRate
  fundingIntervalMinutes := signal.fundingIntervalMinutes
  enteredAt := signal.enteredAt
  tp1ReachedAt := signal.tp1ReachedAt

/-- `_lifecycle_state` of the service. -/
def lifecycleState (signal : TrackingSignalView) : LifecycleState where
  signalId := signal.id
  symbol := signal.symbol
  direction := signal.direction
  status := signal.status
  entryLower := signal.entryLower
  entryUpper := signal.entryUpper
  plannedEntry := signal.plannedEntry
  stopLoss := signal.stopLoss
  takeProfit1 := signal.takeProfit1
  takeProfit2 := signal.takeProfit2
  quantity := signal.quantity
  riskAmount := signal.riskAmount
  takerFeeRate := signal.takerFeeRate
  expiresAt := signal.expiresAt
  currentStop := signal.currentStop
  fundingRate := signal.fundingRate
  fundingIntervalMinutes := signal.fundingIntervalMinutes
  enteredAt := signal.enteredAt
  tp1ReachedAt := signal.tp1ReachedAt

@[simp] theorem lifecycleState_status (signal : TrackingSignalView) :
    (lifecycleState signal).status = signal.status := rfl

end StructurePulse.Store
