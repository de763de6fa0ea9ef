import StructurePulse.Replay.Models
import StructurePulse.Signals.Fallback

/-!
# The offline resolver

`resolveCandidate` decides an accepted candidate from the 1m rows after its analysis.
The loop of the source keeps three variables; one pass of its body either returns an
outcome or leaves the variables for the next row. A division by zero raises in the
source and is zero here; `risk_amount` is positive and fee rates stay below one.
-/

namespace StructurePulse.Replay
open Strategy Signals
set_option autoImplicit false

section Levels
variable (direction : TradeDirection) (plan : TradePlan)

/-- `_touches_entry`. -/
def touchesEntryZone (low high : ℚ) : Bool :=
  decide (low ≤ plan.entryUpper ∧ high ≥ plan.entryLower)

def touchesTp1 (low high : ℚ) : Bool := touchesTarget direction plan.takeProfit1 low high

def touchesTp2 (low high : ℚ) : Bool := touchesTarget direction plan.takeProfit2 low high

def gappedBeyondStop (openPrice : ℚ) : Bool :=
  match direction with
  | .long => decide (openPrice < plan.stopLoss)
  | .short => decide (openPrice > plan.stopLoss)

def feeRate : ℚ := if plan.notional > 0 then plan.estimatedEntryFee / plan.notional else 0

/-- `_fee_adjusted_breakeven`. -/
def breakevenPrice : ℚ :=
  let feeRate := feeRate plan
  match direction with
  | .long => plan.plannedEntry * (1 + feeRate) / (1 - feeRate)
  | .short => plan.plannedEntry * (1 - feeRate) / (1 + feeRate)

end Levels

section Outcomes
variable (sequence : Nat) (candidate : SignalCandidate) (plan : TradePlan)

def flatOutcome (status : ReplayOutcomeStatus) (resolvedAt enteredAt : Option Int)
    (ambiguous : Bool) : ReplayOutcome where
  candidateSequence := sequence
  symbol := candidate.symbol
  direction := candidate.direction
  status := status
  enteredAt := enteredAt
  resolvedAt := resolvedAt
  pnl := 0
  rMultiple := 0
  fees := 0
  ambiguous := ambiguous

/-- The position closed half at TP1 and half at `price`. -/
def tp1ThenPrice (direction : TradeDirection) (price : ℚ) : ℚ × ℚ :=
  let half := plan.quantity / 2
  let sign : ℚ := if direction = .long then 1 else -1
  let gross := half * ((plan.takeProfit1 - plan.plannedEntry) * sign
    + (price - plan.plannedEntry) * sign)
  let fees := plan.estimatedEntryFee + half * plan.takeProfit1 * feeRate plan
    + half * price * feeRate plan
  (gross - fees, fees)

def pnlAfterTp1Stop (direction : TradeDirection) : ℚ × ℚ :=
  tp1ThenPrice plan direction (breakevenPrice direction plan)

def stoppedOutcome (enteredAt resolvedAt : Int) (ambiguous afterTp1 : Bool) : ReplayOutcome :=
  let result : ℚ × ℚ × ReplayOutcomeStatus :=
    if afterTp1 && !ambiguous then
      ((pnlAfterTp1Stop plan candidate.direction).1, (pnlAfterTp1Stop plan candidate.direction).2,
        .stoppedAfterTp1)
    else
      (-plan.estimatedLossAtStop,
        plan.estimatedEntryFee + plan.quantity * plan.stopLoss * feeRate plan,
        if ambiguous then .ambiguous else .stopped)
  { candidateSequence := sequence
    symbol := candidate.symbol
    direction := candidate.direction
    status := result.2.2
    enteredAt := some enteredAt
    resolvedAt := some resolvedAt
    pnl := result.1
    rMultiple := result.1 / plan.riskAmount
    fees := result.2.1
    ambiguous := ambiguous }

def targetOutcome (enteredAt resolvedAt : Int) : ReplayOutcome :=
  let result := tp1ThenPrice plan candidate.direction plan.takeProfit2
  { candidateSequence := sequence
    symbol := candidate.symbol
    direction := candidate.direction
    status := .tp2
    enteredAt := some enteredAt
    resolvedAt := some resolvedAt
    pnl := result.1
    rMultiple := result.1 / plan.riskAmount
    fees := result.2
    ambiguous := false }

end Outcomes

section Resolver

/-- The variables of the loop. -/
structure ResolverState where
  enteredAt : Option Int := none
  tp1Reached : Bool := false
  currentStop : ℚ
  deriving DecidableEq

variable (sequence : Nat) (candidate : SignalCandidate) (plan : TradePlan)

/-- The loop body before the entry. -/
def resolveWaiting (state : ResolverState) (candle : Candle1m) : ReplayOutcome ⊕ ResolverState :=
  if candle.openTime ≥ candidate.expiresAt then
    .inl (flatOutcome sequence candidate .expired (some candidate.expiresAt) none false)
  else if gappedBeyondStop candidate.direction plan candle.openPrice then
    .inl (flatOutcome sequence candidate .invalidatedBeforeEntry (some candle.openTime) none false)
  else if !touchesEntryZone plan candle.lowPrice candle.highPrice then .inr state
  else if touchesStop candidate.direction state.currentStop candle.lowPrice candle.highPrice then
    .inl (stoppedOutcome sequence candidate plan candle.openTime (candle.openTime + oneMinute)
      true false)
  else if touchesTp1 candidate.direction plan candle.lowPrice candle.highPrice then
    .inl (flatOutcome sequence candidate .ambiguous (some (candle.openTime + oneMinute))
      (some candle.openTime) true)
  else .inr { state with enteredAt := some candle.openTime }

/-- The loop body after the entry. -/
def resolveEntered (state : ResolverState) (enteredAt : Int) (candle : Candle1m) :
    ReplayOutcome ⊕ ResolverState :=
  let candleEnd := candle.openTime + oneMinute
  let stopTouched :=
    touchesStop candidate.direction state.currentStop candle.lowPrice candle.highPrice
  let tp1Touched :=
    !state.tp1Reached && touchesTp1 candidate.direction plan candle.lowPrice candle.highPrice
  let tp2Touched := touchesTp2 candidate.direction plan candle.lowPrice candle.highPrice
  if stopTouched && (tp1Touched || tp2Touched) then
    .inl (stoppedOutcome sequence candidate plan enteredAt candleEnd true state.tp1Reached)
  else if stopTouched then
    .inl (stoppedOutcome sequence candidate plan enteredAt candleEnd false state.tp1Reached)
  else if tp2Touched then .inl (targetOutcome sequence candidate plan enteredAt candleEnd)
  else if tp1Touched then
    .inr { state with
      tp1Reached := true
      currentStop := breakevenPrice candidate.direction plan }
  else .inr state

def resolveRow (state : ResolverState) (candle : Candle1m) : ReplayOutcome ⊕ ResolverState :=
  match state.enteredAt with
  | none => resolveWaiting sequence candidate plan state candle
  | some enteredAt => resolveEntered sequence candidate plan state enteredAt candle

def resolveRows : ResolverState → List Candle1m → ReplayOutcome
  | state, [] => flatOutcome sequence candidate .stillOpen none state.enteredAt false
  | state, candle :: rest =>
    match resolveRow sequence candidate plan state candle with
    | .inl outcome => outcome
    | .inr state => resolveRows state rest

inductive ReplayError where
  | notAccepted
  deriving Repr, DecidableEq

def resolveCandidate (rows : List ReplayMarketRow) : Except ReplayError ReplayOutcome :=
  match candidate.tradePlan with
  | none => .error .notAccepted
  | some plan =>
    if candidate.status ≠ .accepted then .error .notAccepted
    else
      let future := rows.filter fun row =>
        decide (row.candle.symbol = candidate.symbol ∧ row.candle.openTime ≥ candidate.analyzedAt)
      .ok (resolveRows sequence candidate plan { currentStop := plan.stopLoss }
        (future.map (·.candle)))

end Resolver

end StructurePulse.Replay
