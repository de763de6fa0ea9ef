import StructurePulse.Library.Decimals
import StructurePulse.Signals.MarketFold

/-!
# The tracker's numbers in rounded arithmetic

The formulas of the tracker with every result rounded by a context. What an evaluator
decides compares stored numbers and rounds nothing; `rebook` puts the rounded numbers into
the actions it decided. Under `id` a run is the exact one.
-/

namespace StructurePulse.Signals.Rounded
open Library
set_option autoImplicit false

section Formulas
variable (context : ℚ → ℚ) (state : LifecycleState)

def signedMove (direction : TradeDirection) (entry exitPrice : Decimal context) : Decimal context :=
  match direction with
  | .long => exitPrice - entry
  | .short => entry - exitPrice

def feeAdjustedBreakeven : Decimal context :=
  let plannedEntry : Decimal context := state.plannedEntry
  let fee : Decimal context := state.takerFeeRate
  match state.direction with
  | .long => plannedEntry * (1 + fee) / (1 - fee)
  | .short => plannedEntry * (1 - fee) / (1 + fee)

def fullExit (price : Decimal context) : Decimal context × Decimal context :=
  let quantity : Decimal context := state.quantity
  let plannedEntry : Decimal context := state.plannedEntry
  let fee : Decimal context := state.takerFeeRate
  let gross := quantity * signedMove context state.direction plannedEntry price
  let fees := quantity * (plannedEntry + price) * fee
  (gross - fees, fees)

def tp1Result : Decimal context × Decimal context :=
  let quantity : Decimal context := state.quantity
  let plannedEntry : Decimal context := state.plannedEntry
  let takeProfit1 : Decimal context := state.takeProfit1
  let fee : Decimal context := state.takerFeeRate
  let half := quantity / 2
  let gross := half * signedMove context state.direction plannedEntry takeProfit1
  let fees := (quantity * plannedEntry + half * takeProfit1) * fee
  (gross - fees, fees)

def tp1ThenExit (secondExit : Decimal context) : Decimal context × Decimal context :=
  let quantity : Decimal context := state.quantity
  let plannedEntry : Decimal context := state.plannedEntry
  let takeProfit1 : Decimal context := state.takeProfit1
  let fee : Decimal context := state.takerFeeRate
  let half := quantity / 2
  let gross := half *
    (signedMove context state.direction plannedEntry takeProfit1
      + signedMove context state.direction plannedEntry secondExit)
  let fees := (quantity * plannedEntry + half * takeProfit1 + half * secondExit) * fee
  (gross - fees, fees)

/-- The numbers of a transition that books `result`. -/
def booked (target : SignalStatus) (eventType : LifecycleEventType)
    (result : Decimal context × Decimal context) : LifecycleAction where
  target := target
  eventType := eventType
  realizedPnl := some result.1.value
  fees := some result.2.value
  rMultiple := some (result.1 / (state.riskAmount : Decimal context)).value

def enteredAction : LifecycleAction :=
  let quantity : Decimal context := state.quantity
  let plannedEntry : Decimal context := state.plannedEntry
  let fee : Decimal context := state.takerFeeRate
  let entryFee := quantity * plannedEntry * fee
  booked context state .entered .entryFilled (-entryFee, entryFee)

def tp1Action : LifecycleAction :=
  { booked context state .tp1Reached .takeProfit1Filled (tp1Result context state) with
    currentStop := some (feeAdjustedBreakeven context state).value
    remainingQuantity := some ((state.quantity : Decimal context) / 2).value }

/-- An action that closes the position. -/
def closing (target : SignalStatus) (eventType : LifecycleEventType)
    (result : Decimal context × Decimal context) : LifecycleAction :=
  { booked context state target eventType result with remainingQuantity := some 0 }

end Formulas

section Runs
variable (context : ℚ → ℚ)

/-- An action that was decided in a state, with rounded numbers. -/
def rebook (state : LifecycleState) (action : LifecycleAction) : LifecycleAction :=
  let close := closing context state action.target action.eventType
  match action.target with
  | .entered => enteredAction context state
  | .tp1Reached => tp1Action context state
  | .tp2Completed => close (tp1ThenExit context state state.takeProfit2)
  | .stopped => close (fullExit context state state.currentStop)
  | .stoppedAtBreakeven => close (tp1ThenExit context state state.currentStop)
  | .ambiguous =>
    if state.status = .tp1Reached then close (tp1ThenExit context state state.currentStop)
    else close (fullExit context state state.currentStop)
  | _ => action

def evaluateEvent (state : LifecycleState) (event : MarketEvent) : List LifecycleAction :=
  (Signals.evaluateEvent state event).map (rebook context state)

def stepEvent (state : LifecycleState) (event : MarketEvent) : LifecycleState :=
  applyActions state event.time (evaluateEvent context state event)

def actionsOf : LifecycleState → List MarketEvent → List LifecycleAction
  | _, [] => []
  | state, event :: events =>
    evaluateEvent context state event ++ actionsOf (stepEvent context state event) events

end Runs

section Exact
variable {state : LifecycleState} {action : LifecycleAction}

variable (target : SignalStatus) (eventType : LifecycleEventType)

theorem feeAdjustedBreakeven_id :
    (feeAdjustedBreakeven id state).value = Signals.feeAdjustedBreakeven state := by
  unfold feeAdjustedBreakeven Signals.feeAdjustedBreakeven
  cases state.direction <;> rfl

theorem tp1Action_id : tp1Action id state = Signals.tp1Action state := by
  unfold tp1Action booked tp1Result signedMove Signals.tp1Action Signals.tp1Result Signals.signedMove
  rw [feeAdjustedBreakeven_id]
  cases state.direction <;> rfl

theorem closing_fullExit_id :
    closing id state target eventType (fullExit id state state.currentStop) =
      { stoppedAction state with target := target, eventType := eventType } := by
  unfold closing booked fullExit signedMove stoppedAction Signals.fullExit Signals.signedMove
  cases state.direction <;> rfl

theorem closing_tp1ThenExit_id :
    closing id state target eventType (tp1ThenExit id state state.currentStop) =
      { breakevenAction state with target := target, eventType := eventType } := by
  unfold closing booked tp1ThenExit signedMove breakevenAction Signals.tp1ThenExit Signals.signedMove
  cases state.direction <;> rfl

theorem closing_takeProfit2_id :
    closing id state target eventType (tp1ThenExit id state state.takeProfit2) =
      { tp2Action state with target := target, eventType := eventType } := by
  unfold closing booked tp1ThenExit signedMove tp2Action Signals.tp1ThenExit Signals.signedMove
  cases state.direction <;> rfl

/-- Without rounding the numbers of an action are its own. -/
theorem rebook_id (hd : StopDiscipline state) (hb : Booked state action) :
    rebook id state action = action := by
  unfold rebook
  simp only [closing_fullExit_id, closing_tp1ThenExit_id, closing_takeProfit2_id, tp1Action_id]
  cases hb with
  | unfilled _ target => rcases target with ht | ht <;> rw [ht]
  | entry _ eq =>
    rw [eq]
    rfl
  | stopOut status target eq =>
    rw [← hd.initial status] at eq
    have hopen : state.status ≠ .tp1Reached := by
      rcases status with hs | hs <;> rw [hs] <;> decide
    rcases target with ht | ht
    · rw [ht] at eq ⊢
      exact eq.symm
    · rw [ht] at eq ⊢
      simp only [if_neg hopen]
      exact eq.symm
  | firstTarget _ eq =>
    rw [eq]
    rfl
  | breakeven status target eq =>
    rw [← hd.breakeven status] at eq
    rcases target with ht | ht
    · rw [ht] at eq ⊢
      exact eq.symm
    · rw [ht] at eq ⊢
      simp only [if_pos status]
      exact eq.symm
  | secondTarget _ eq =>
    rw [eq]
    rfl

theorem evaluateEvent_id (hd : StopDiscipline state) (event : MarketEvent) :
    evaluateEvent id state event = Signals.evaluateEvent state event := by
  have hkept : ∀ action ∈ Signals.evaluateEvent state event, rebook id state action = action := by
    intro action haction
    apply rebook_id hd
    apply evaluateEvent_booked hd haction
  unfold evaluateEvent
  rw [List.map_congr_left hkept, List.map_id']

/-- Without rounding a run takes the exact actions. -/
theorem actionsOf_id (hd : StopDiscipline state) (events : List MarketEvent) :
    actionsOf id state events = (bookings state events).map Prod.snd := by
  induction events generalizing state with
  | nil => rfl
  | cons event events ih =>
    have hstep : stepEvent id state event = Signals.stepEvent state event := by
      unfold stepEvent Signals.stepEvent
      rw [evaluateEvent_id hd]
    unfold actionsOf bookings
    rw [hstep, evaluateEvent_id hd, ih (hd.stepEvent event), List.map_append, List.map_map]
    congr 1
    exact (List.map_id _).symm

end Exact

end StructurePulse.Signals.Rounded
