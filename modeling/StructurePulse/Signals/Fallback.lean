import StructurePulse.Signals.Lifecycle

/-!
# Closed-candle fallback

`evaluateClosedCandle` decides a signal from one closed 1m candle when exact
trades are unavailable. It reuses the exact-trade evaluator on a synthetic trade
placed at the level it found touched, one microsecond before the candle closes.
-/

namespace StructurePulse.Signals
set_option autoImplicit false

def touchesStop : TradeDirection → ℚ → ℚ → ℚ → Bool
  | .long, stop, low, _ => decide (low ≤ stop)
  | .short, stop, _, high => decide (high ≥ stop)

def touchesTarget : TradeDirection → ℚ → ℚ → ℚ → Bool
  | .long, target, _, high => decide (high ≥ target)
  | .short, target, low, _ => decide (low ≤ target)

def touchesEntry (state : LifecycleState) (candle : Candle1m) : Bool :=
  decide (candle.lowPrice ≤ state.entryUpper ∧ candle.highPrice ≥ state.entryLower)

def syntheticTrade (candle : Candle1m) (price : ℚ) : PublicTrade where
  tradeId := s!"fallback:{candle.openTime / 1000000}"
  symbol := candle.symbol
  price := price
  size := 0
  side := .buy
  executedAt := candle.openTime + oneMinute - oneMicrosecond
  sequence := 0

/-- `replace(evaluate_public_trade(..)[0], target="ambiguous", event_type=..)`. The
source indexes the tuple; the list form is empty where the index would raise. -/
def markAmbiguous (eventType : LifecycleEventType) (actions : List LifecycleAction) :
    List LifecycleAction :=
  (actions.take 1).map fun stopped => { stopped with target := .ambiguous, eventType := eventType }

def closedCandleActive (state : LifecycleState) (candle : Candle1m) : List LifecycleAction :=
  let resolvedAt := candle.openTime + oneMinute
  if candle.openTime ≥ state.expiresAt ∨ resolvedAt > state.expiresAt then
    [{ target := .expired, eventType := .fallbackSignalExpired }]
  else
    let stopTouched :=
      touchesStop state.direction state.stopLoss candle.lowPrice candle.highPrice
    if !touchesEntry state candle then
      if stopTouched then [{ target := .invalidated, eventType := .fallbackEntryInvalidated }]
      else []
    else if stopTouched then
      markAmbiguous .fallbackAmbiguousStop
        (evaluatePublicTrade { state with status := .entered }
          (syntheticTrade candle state.stopLoss))
    else evaluatePublicTrade state (syntheticTrade candle state.plannedEntry)

def closedCandleEntered (state : LifecycleState) (candle : Candle1m) : List LifecycleAction :=
  let stopTouched :=
    touchesStop state.direction state.currentStop candle.lowPrice candle.highPrice
  let targetTouched :=
    touchesTarget state.direction state.takeProfit1 candle.lowPrice candle.highPrice
  let target2Touched :=
    touchesTarget state.direction state.takeProfit2 candle.lowPrice candle.highPrice
  if stopTouched && (targetTouched || target2Touched) then
    markAmbiguous .fallbackAmbiguousStop
      (evaluatePublicTrade state (syntheticTrade candle state.currentStop))
  else if stopTouched then
    evaluatePublicTrade state (syntheticTrade candle state.currentStop)
  else if target2Touched then
    evaluatePublicTrade state (syntheticTrade candle state.takeProfit2)
  else if targetTouched then
    evaluatePublicTrade state (syntheticTrade candle state.takeProfit1)
  else []

def closedCandleTp1Reached (state : LifecycleState) (candle : Candle1m) : List LifecycleAction :=
  let stopTouched :=
    touchesStop state.direction state.currentStop candle.lowPrice candle.highPrice
  let targetTouched :=
    touchesTarget state.direction state.takeProfit2 candle.lowPrice candle.highPrice
  if stopTouched && targetTouched then
    markAmbiguous .fallbackAmbiguousBreakeven
      (evaluatePublicTrade state (syntheticTrade candle state.currentStop))
  else if stopTouched then
    evaluatePublicTrade state (syntheticTrade candle state.currentStop)
  else if targetTouched then
    evaluatePublicTrade state (syntheticTrade candle state.takeProfit2)
  else []

def evaluateClosedCandle (state : LifecycleState) (candle : Candle1m) : List LifecycleAction :=
  if candle.symbol ≠ state.symbol then []
  else match state.status with
    | .active => closedCandleActive state candle
    | .entered => closedCandleEntered state candle
    | .tp1Reached => closedCandleTp1Reached state candle
    | _ => []

@[simp] theorem syntheticTrade_symbol (candle : Candle1m) (price : ℚ) :
    (syntheticTrade candle price).symbol = candle.symbol := rfl

@[simp] theorem syntheticTrade_price (candle : Candle1m) (price : ℚ) :
    (syntheticTrade candle price).price = price := rfl

@[simp] theorem syntheticTrade_executedAt (candle : Candle1m) (price : ℚ) :
    (syntheticTrade candle price).executedAt = candle.openTime + oneMinute - oneMicrosecond := rfl

@[simp] theorem beyondStop_self (direction : TradeDirection) (stop : ℚ) :
    beyondStop direction stop stop = true := by cases direction <;> simp [beyondStop]

@[simp] theorem targetReached_self (direction : TradeDirection) (target : ℚ) :
    targetReached direction target target = true := by cases direction <;> simp [targetReached]

@[simp] theorem markAmbiguous_nil (eventType : LifecycleEventType) :
    markAmbiguous eventType [] = [] := rfl

@[simp] theorem markAmbiguous_singleton (eventType : LifecycleEventType) (a : LifecycleAction) :
    markAmbiguous eventType [a] = [{ a with target := .ambiguous, eventType := eventType }] := rfl

@[simp] theorem evaluateClosedCandle_of_not_open {state : LifecycleState} (candle : Candle1m)
    (ha : state.status ≠ .active) (he : state.status ≠ .entered) (ht : state.status ≠ .tp1Reached) :
    evaluateClosedCandle state candle = [] := by
  unfold evaluateClosedCandle
  split
  · rfl
  · split <;> first | rfl | contradiction

/-- At the stop the synthetic trade always stops an entered position out, so the
`[0]` of the source is defined. -/
theorem evaluate_synthetic_stop {state : LifecycleState} {candle : Candle1m}
    (hsym : candle.symbol = state.symbol) (hs : state.status = .entered) :
    evaluatePublicTrade state (syntheticTrade candle state.currentStop) = [stoppedAction state] := by
  simp [evaluatePublicTrade, hsym, hs, evaluateEntered]

theorem evaluate_synthetic_breakeven {state : LifecycleState} {candle : Candle1m}
    (hsym : candle.symbol = state.symbol) (hs : state.status = .tp1Reached) :
    evaluatePublicTrade state (syntheticTrade candle state.currentStop) =
      [breakevenAction state] := by
  simp [evaluatePublicTrade, hsym, hs, evaluateTp1Reached]

theorem closedCandle_symbol {state : LifecycleState} {candle : Candle1m}
    (h : evaluateClosedCandle state candle ≠ []) : candle.symbol = state.symbol := by
  by_contra hne
  exact h (by simp [evaluateClosedCandle, hne])

end StructurePulse.Signals
