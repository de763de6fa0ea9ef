import StructurePulse.Market
import StructurePulse.Signals.StateMachine

/-!
# Exact-trade evaluation of one signal

`evaluatePublicTrade` is the tracker's decision for one public trade. The state
carries the immutable levels of the plan and the two fields the service updates,
`status` and `currentStop`. Decimal division raises on zero where `ℚ` returns
zero; `StrategyConfig` keeps `riskAmount` positive and fee rates stay below one.
-/

namespace StructurePulse.Signals
set_option autoImplicit false

structure LifecycleState where
  signalId : Nat
  symbol : Symbol
  direction : TradeDirection
  status : SignalStatus
  entryLower : ℚ
  entryUpper : ℚ
  plannedEntry : ℚ
  stopLoss : ℚ
  takeProfit1 : ℚ
  takeProfit2 : ℚ
  quantity : ℚ
  riskAmount : ℚ
  takerFeeRate : ℚ
  expiresAt : Int
  currentStop : ℚ
  fundingRate : ℚ := 0
  fundingIntervalMinutes : Int := 480
  enteredAt : Option Int := none
  tp1ReachedAt : Option Int := none
  deriving Repr, DecidableEq

/-- The `event_type` texts the evaluators and the service attach to transitions. -/
inductive LifecycleEventType where
  | signalExpired
  | entryInvalidated
  | entryFilled
  | stopLossFilled
  | takeProfit1Filled
  | breakevenStopFilled
  | takeProfit2Filled
  | fallbackSignalExpired
  | fallbackEntryInvalidated
  | fallbackAmbiguousStop
  | fallbackAmbiguousBreakeven
  deriving Repr, DecidableEq

def LifecycleEventType.text : LifecycleEventType → String
  | .signalExpired => "signal_expired"
  | .entryInvalidated => "entry_invalidated"
  | .entryFilled => "entry_filled"
  | .stopLossFilled => "stop_loss_filled"
  | .takeProfit1Filled => "take_profit_1_filled"
  | .breakevenStopFilled => "breakeven_stop_filled"
  | .takeProfit2Filled => "take_profit_2_filled"
  | .fallbackSignalExpired => "fallback_signal_expired"
  | .fallbackEntryInvalidated => "fallback_entry_invalidated"
  | .fallbackAmbiguousStop => "fallback_ambiguous_stop"
  | .fallbackAmbiguousBreakeven => "fallback_ambiguous_breakeven"

structure LifecycleAction where
  target : SignalStatus
  eventType : LifecycleEventType
  realizedPnl : Option ℚ := none
  fees : Option ℚ := none
  rMultiple : Option ℚ := none
  currentStop : Option ℚ := none
  remainingQuantity : Option ℚ := none
  deriving Repr, DecidableEq

def signedMove : TradeDirection → ℚ → ℚ → ℚ
  | .long, entry, exitPrice => exitPrice - entry
  | .short, entry, exitPrice => entry - exitPrice

def beyondStop : TradeDirection → ℚ → ℚ → Bool
  | .long, stop, price => decide (price ≤ stop)
  | .short, stop, price => decide (price ≥ stop)

def targetReached : TradeDirection → ℚ → ℚ → Bool
  | .long, target, price => decide (price ≥ target)
  | .short, target, price => decide (price ≤ target)

def feeAdjustedBreakeven (state : LifecycleState) : ℚ :=
  let fee := state.takerFeeRate
  match state.direction with
  | .long => state.plannedEntry * (1 + fee) / (1 - fee)
  | .short => state.plannedEntry * (1 - fee) / (1 + fee)

/-- `(pnl, fees)` of closing the whole position at `price`. -/
def fullExit (state : LifecycleState) (price : ℚ) : ℚ × ℚ :=
  let gross := state.quantity * signedMove state.direction state.plannedEntry price
  let fees := state.quantity * (state.plannedEntry + price) * state.takerFeeRate
  (gross - fees, fees)

def tp1Result (state : LifecycleState) : ℚ × ℚ :=
  let half := state.quantity / 2
  let gross := half * signedMove state.direction state.plannedEntry state.takeProfit1
  let fees := (state.quantity * state.plannedEntry + half * state.takeProfit1) * state.takerFeeRate
  (gross - fees, fees)

def tp1ThenExit (state : LifecycleState) (secondExit : ℚ) : ℚ × ℚ :=
  let half := state.quantity / 2
  let gross := half *
    (signedMove state.direction state.plannedEntry state.takeProfit1
      + signedMove state.direction state.plannedEntry secondExit)
  let fees := (state.quantity * state.plannedEntry + half * state.takeProfit1 + half * secondExit)
    * state.takerFeeRate
  (gross - fees, fees)

def tp1Action (state : LifecycleState) : LifecycleAction :=
  let (pnl, fees) := tp1Result state
  { target := .tp1Reached
    eventType := .takeProfit1Filled
    realizedPnl := some pnl
    fees := some fees
    rMultiple := some (pnl / state.riskAmount)
    currentStop := some (feeAdjustedBreakeven state)
    remainingQuantity := some (state.quantity / 2) }

def tp2Action (state : LifecycleState) : LifecycleAction :=
  let (pnl, fees) := tp1ThenExit state state.takeProfit2
  { target := .tp2Completed
    eventType := .takeProfit2Filled
    realizedPnl := some pnl
    fees := some fees
    rMultiple := some (pnl / state.riskAmount)
    remainingQuantity := some 0 }

/-- One trade at or beyond TP2 fills both halves, in order. -/
def tp1AndTp2 (state : LifecycleState) : List LifecycleAction := [tp1Action state, tp2Action state]

def enteredAction (state : LifecycleState) : LifecycleAction :=
  let entryFee := state.quantity * state.plannedEntry * state.takerFeeRate
  { target := .entered
    eventType := .entryFilled
    realizedPnl := some (-entryFee)
    fees := some entryFee
    rMultiple := some (-entryFee / state.riskAmount) }

def stoppedAction (state : LifecycleState) : LifecycleAction :=
  let (pnl, fees) := fullExit state state.currentStop
  { target := .stopped
    eventType := .stopLossFilled
    realizedPnl := some pnl
    fees := some fees
    rMultiple := some (pnl / state.riskAmount)
    remainingQuantity := some 0 }

def breakevenAction (state : LifecycleState) : LifecycleAction :=
  let (pnl, fees) := tp1ThenExit state state.currentStop
  { target := .stoppedAtBreakeven
    eventType := .breakevenStopFilled
    realizedPnl := some pnl
    fees := some fees
    rMultiple := some (pnl / state.riskAmount)
    remainingQuantity := some 0 }

/-- The three decisions `evaluate_public_trade` makes, one for each open status. -/
def evaluateActive (state : LifecycleState) (trade : PublicTrade) : List LifecycleAction :=
  if trade.executedAt ≥ state.expiresAt then
    [{ target := .expired, eventType := .signalExpired }]
  else if beyondStop state.direction state.stopLoss trade.price then
    [{ target := .invalidated, eventType := .entryInvalidated }]
  else if state.entryLower ≤ trade.price ∧ trade.price ≤ state.entryUpper then
    [enteredAction state]
  else []

def evaluateEntered (state : LifecycleState) (trade : PublicTrade) : List LifecycleAction :=
  if beyondStop state.direction state.currentStop trade.price then
    [stoppedAction state]
  else if targetReached state.direction state.takeProfit2 trade.price then
    tp1AndTp2 state
  else if targetReached state.direction state.takeProfit1 trade.price then
    [tp1Action state]
  else []

def evaluateTp1Reached (state : LifecycleState) (trade : PublicTrade) : List LifecycleAction :=
  if beyondStop state.direction state.currentStop trade.price then
    [breakevenAction state]
  else if targetReached state.direction state.takeProfit2 trade.price then
    [tp2Action state]
  else []

def evaluatePublicTrade (state : LifecycleState) (trade : PublicTrade) : List LifecycleAction :=
  if trade.symbol ≠ state.symbol then []
  else match state.status with
    | .active => evaluateActive state trade
    | .entered => evaluateEntered state trade
    | .tp1Reached => evaluateTp1Reached state trade
    | _ => []

@[simp] theorem evaluatePublicTrade_of_not_open {state : LifecycleState} (trade : PublicTrade)
    (ha : state.status ≠ .active) (he : state.status ≠ .entered) (ht : state.status ≠ .tp1Reached) :
    evaluatePublicTrade state trade = [] := by
  unfold evaluatePublicTrade
  split
  · rfl
  · split <;> first | rfl | contradiction

/-- Everything one trade can do to a signal: the fields an action books depend on
the state alone, the trade only selects which actions fire. -/
theorem evaluatePublicTrade_cases (state : LifecycleState) (trade : PublicTrade) :
    evaluatePublicTrade state trade = [] ∨
    (state.status = .active ∧
      (evaluatePublicTrade state trade = [{ target := .expired, eventType := .signalExpired }] ∨
       evaluatePublicTrade state trade =
        [{ target := .invalidated, eventType := .entryInvalidated }] ∨
       evaluatePublicTrade state trade = [enteredAction state])) ∨
    (state.status = .entered ∧
      (evaluatePublicTrade state trade = [stoppedAction state] ∨
       evaluatePublicTrade state trade = tp1AndTp2 state ∨
       evaluatePublicTrade state trade = [tp1Action state])) ∨
    (state.status = .tp1Reached ∧
      (evaluatePublicTrade state trade = [breakevenAction state] ∨
       evaluatePublicTrade state trade = [tp2Action state])) := by
  unfold evaluatePublicTrade
  split
  · exact Or.inl rfl
  · split
    · rename_i hs
      unfold evaluateActive
      split_ifs <;> simp [hs]
    · rename_i hs
      unfold evaluateEntered
      split_ifs <;> simp [hs]
    · rename_i hs
      unfold evaluateTp1Reached
      split_ifs <;> simp [hs]
    · exact Or.inl rfl

end StructurePulse.Signals
