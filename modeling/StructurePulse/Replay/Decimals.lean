import StructurePulse.Replay.Lifecycle
import StructurePulse.Signals.Decimals

/-!
# The offline resolver in rounded arithmetic

The resolver with every result rounded by a context: the fee rate it recovers from the plan,
the breakeven stop, and the results it reports. Under `id` it is the exact resolver.
-/

namespace StructurePulse.Replay.Rounded
open Library Strategy Signals
set_option autoImplicit false

section Outcomes
variable (context : ℚ → ℚ) (sequence : Nat) (candidate : SignalCandidate) (plan : TradePlan)

def feeRate : Decimal context :=
  if plan.notional > 0 then
    (plan.estimatedEntryFee : Decimal context) / (plan.notional : Decimal context)
  else 0

/-- `_fee_adjusted_breakeven`. -/
def breakevenPrice (direction : TradeDirection) : Decimal context :=
  let plannedEntry : Decimal context := plan.plannedEntry
  let feeRate := feeRate context plan
  match direction with
  | .long => plannedEntry * (1 + feeRate) / (1 - feeRate)
  | .short => plannedEntry * (1 - feeRate) / (1 + feeRate)

/-- The position closed half at TP1 and half at `price`. -/
def tp1ThenPrice (direction : TradeDirection) (price : Decimal context) :
    Decimal context × Decimal context :=
  let plannedEntry : Decimal context := plan.plannedEntry
  let takeProfit1 : Decimal context := plan.takeProfit1
  let half := (plan.quantity : Decimal context) / 2
  let sign : Decimal context := if direction = .long then 1 else (-1 : ℚ)
  let gross := half * ((takeProfit1 - plannedEntry) * sign + (price - plannedEntry) * sign)
  let fees := (plan.estimatedEntryFee : Decimal context) + half * takeProfit1 * feeRate context plan
    + half * price * feeRate context plan
  (gross - fees, fees)

/-- The outcome of a position that was entered and closed. -/
def closedOutcome (status : ReplayOutcomeStatus) (enteredAt resolvedAt : Int) (ambiguous : Bool)
    (result : Decimal context × Decimal context) : ReplayOutcome where
  candidateSequence := sequence
  symbol := candidate.symbol
  direction := candidate.direction
  status := status
  enteredAt := some enteredAt
  resolvedAt := some resolvedAt
  pnl := result.1.value
  rMultiple := (result.1 / (plan.riskAmount : Decimal context)).value
  fees := result.2.value
  ambiguous := ambiguous

def stoppedOutcome (enteredAt resolvedAt : Int) (ambiguous afterTp1 : Bool) : ReplayOutcome :=
  if afterTp1 && !ambiguous then
    closedOutcome context sequence candidate plan .stoppedAfterTp1 enteredAt resolvedAt ambiguous
      (tp1ThenPrice context plan candidate.direction
        (breakevenPrice context plan candidate.direction))
  else
    closedOutcome context sequence candidate plan (if ambiguous then .ambiguous else .stopped)
      enteredAt resolvedAt ambiguous
      (-(plan.estimatedLossAtStop : Decimal context),
        (plan.estimatedEntryFee : Decimal context)
          + (plan.quantity : Decimal context) * (plan.stopLoss : Decimal context)
            * feeRate context plan)

def targetOutcome (enteredAt resolvedAt : Int) : ReplayOutcome :=
  closedOutcome context sequence candidate plan .tp2 enteredAt resolvedAt false
    (tp1ThenPrice context plan candidate.direction plan.takeProfit2)

end Outcomes

section Resolver
variable (context : ℚ → ℚ) (sequence : Nat) (candidate : SignalCandidate) (plan : TradePlan)

/-- The loop body before the entry. -/
def resolveWaiting (state : ResolverState) (candle : Candle1m) : ReplayOutcome ⊕ ResolverState :=
  if candle.openTime ≥ candidate.expiresAt then
    .inl (flatOutcome sequence candidate .expired (some candidate.expiresAt) none false)
  else if gappedBeyondStop candidate.direction plan candle.openPrice then
    .inl (flatOutcome sequence candidate .invalidatedBeforeEntry (some candle.openTime) none false)
  else if !touchesEntryZone plan candle.lowPrice candle.highPrice then .inr state
  else if touchesStop candidate.direction state.currentStop candle.lowPrice candle.highPrice then
    .inl (stoppedOutcome context sequence candidate plan candle.openTime
      (candle.openTime + oneMinute) true false)
  else if touchesTp1 candidate.direction plan candle.lowPrice candle.highPrice then
    .inl (flatOutcome sequence candidate .ambiguous (some (candle.openTime + oneMinute))
      (some candle.openTime) true)
  else .inr { state with enteredAt := some candle.openTime }

/-- The loop body after the entry. -/
def resolveEntered (state : ResolverState) (enteredAt : Int) (candle : Candle1m) :
    ReplayOutcome ⊕ ResolverState :=
  let candleEnd := candle.openTime + oneMinute
  let stopTouched :=
    touchesStop candidate.direction state.currentStop candle.lowPrice candle.highPrice
  let tp1Touched :=
    !state.tp1Reached && touchesTp1 candidate.direction plan candle.lowPrice candle.highPrice
  let tp2Touched := touchesTp2 candidate.direction plan candle.lowPrice candle.highPrice
  if stopTouched && (tp1Touched || tp2Touched) then
    .inl (stoppedOutcome context sequence candidate plan enteredAt candleEnd true state.tp1Reached)
  else if stopTouched then
    .inl (stoppedOutcome context sequence candidate plan enteredAt candleEnd false state.tp1Reached)
  else if tp2Touched then
    .inl (targetOutcome context sequence candidate plan enteredAt candleEnd)
  else if tp1Touched then
    .inr { state with
      tp1Reached := true
      currentStop := (breakevenPrice context plan candidate.direction).value }
  else .inr state

def resolveRows : ResolverState → List Candle1m → ReplayOutcome
  | state, [] => flatOutcome sequence candidate .stillOpen none state.enteredAt false
  | state, candle :: rest =>
    let next := match state.enteredAt with
      | none => resolveWaiting context sequence candidate plan state candle
      | some enteredAt => resolveEntered context sequence candidate plan state enteredAt candle
    match next with
    | .inl outcome => outcome
    | .inr state => resolveRows state rest

end Resolver

section Exact
variable (sequence : Nat) (candidate : SignalCandidate) (plan : TradePlan)

theorem feeRate_id : (feeRate id plan).value = Replay.feeRate plan := by
  unfold feeRate Replay.feeRate
  split_ifs <;> rfl

theorem breakevenPrice_id (direction : TradeDirection) :
    (breakevenPrice id plan direction).value = Replay.breakevenPrice direction plan := by
  unfold breakevenPrice Replay.breakevenPrice
  rw [← feeRate_id]
  cases direction <;> rfl

theorem tp1ThenPrice_id (direction : TradeDirection) (price : Decimal id) :
    ((tp1ThenPrice id plan direction price).1.value, (tp1ThenPrice id plan direction price).2.value) =
      Replay.tp1ThenPrice plan direction price.value := by
  unfold tp1ThenPrice Replay.tp1ThenPrice
  rw [← feeRate_id]
  cases direction <;> rfl

theorem stoppedOutcome_id (enteredAt resolvedAt : Int) (ambiguous afterTp1 : Bool) :
    stoppedOutcome id sequence candidate plan enteredAt resolvedAt ambiguous afterTp1 =
      Replay.stoppedOutcome sequence candidate plan enteredAt resolvedAt ambiguous afterTp1 := by
  unfold stoppedOutcome Replay.stoppedOutcome closedOutcome pnlAfterTp1Stop
  rw [← breakevenPrice_id, ← tp1ThenPrice_id, ← feeRate_id]
  cases afterTp1 <;> cases ambiguous <;> rfl

theorem targetOutcome_id (enteredAt resolvedAt : Int) :
    targetOutcome id sequence candidate plan enteredAt resolvedAt =
      Replay.targetOutcome sequence candidate plan enteredAt resolvedAt := by
  unfold targetOutcome Replay.targetOutcome closedOutcome
  rw [← tp1ThenPrice_id plan candidate.direction ⟨plan.takeProfit2⟩]
  rfl

theorem resolveWaiting_id (state : ResolverState) (candle : Candle1m) :
    resolveWaiting id sequence candidate plan state candle =
      Replay.resolveWaiting sequence candidate plan state candle := by
  unfold resolveWaiting Replay.resolveWaiting
  rw [stoppedOutcome_id]

theorem resolveEntered_id (state : ResolverState) (enteredAt : Int) (candle : Candle1m) :
    resolveEntered id sequence candidate plan state enteredAt candle =
      Replay.resolveEntered sequence candidate plan state enteredAt candle := by
  unfold resolveEntered Replay.resolveEntered
  simp only [stoppedOutcome_id, targetOutcome_id, breakevenPrice_id]

/-- Without rounding this is the resolver. -/
theorem resolveRows_id (state : ResolverState) (candles : List Candle1m) :
    resolveRows id sequence candidate plan state candles =
      Replay.resolveRows sequence candidate plan state candles := by
  induction candles generalizing state with
  | nil => rfl
  | cons candle rest ih =>
    unfold resolveRows Replay.resolveRows Replay.resolveRow
    cases state.enteredAt with
    | none =>
      simp only [resolveWaiting_id]
      cases Replay.resolveWaiting sequence candidate plan state candle with
      | inl outcome => rfl
      | inr next => exact ih next
    | some enteredAt =>
      simp only [resolveEntered_id]
      cases Replay.resolveEntered sequence candidate plan state enteredAt candle with
      | inl outcome => rfl
      | inr next => exact ih next

end Exact

end StructurePulse.Replay.Rounded
