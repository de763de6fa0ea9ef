import StructurePulse.Signals.Fallback

/-!
# Folding market events through the evaluators

The tracker applies the actions of one trade or candle to its copy of the signal
and then looks at the next one. `bookings` is every action of a run, each with the
state it was decided in. `Booked` says, once and for both evaluators, what an
action can be; the results about runs are case analyses on it.
-/

namespace StructurePulse.Signals
set_option autoImplicit false

inductive MarketEvent where
  | trade (trade : PublicTrade)
  | candle (candle : Candle1m)
  deriving Repr, DecidableEq

/-- The `event_time` the service attaches to the actions of an event. -/
def MarketEvent.time : MarketEvent → Int
  | .trade t => t.executedAt
  | .candle c => c.openTime + oneMinute

def evaluateEvent (state : LifecycleState) : MarketEvent → List LifecycleAction
  | .trade t => evaluatePublicTrade state t
  | .candle c => evaluateClosedCandle state c

/-- The fields `_transition` replaces in the tracked signal. -/
def LifecycleState.advance (state : LifecycleState) (eventTime : Int) (action : LifecycleAction) :
    LifecycleState :=
  { state with
    status := action.target
    currentStop := action.currentStop.getD state.currentStop
    enteredAt := if action.target = .entered then some eventTime else state.enteredAt
    tp1ReachedAt := if action.target = .tp1Reached then some eventTime else state.tp1ReachedAt }

def applyActions (state : LifecycleState) (eventTime : Int) (actions : List LifecycleAction) :
    LifecycleState :=
  actions.foldl (fun s a => s.advance eventTime a) state

def stepEvent (state : LifecycleState) (event : MarketEvent) : LifecycleState :=
  applyActions state event.time (evaluateEvent state event)

def runEvents (state : LifecycleState) (events : List MarketEvent) : LifecycleState :=
  events.foldl stepEvent state

def bookings : LifecycleState → List MarketEvent → List (LifecycleState × LifecycleAction)
  | _, [] => []
  | state, event :: events =>
    (evaluateEvent state event).map (Prod.mk state) ++ bookings (stepEvent state event) events

/-- The stop the tracker holds is the plan's until TP1 and breakeven after it. -/
structure StopDiscipline (state : LifecycleState) : Prop where
  initial : state.status = .active ∨ state.status = .entered → state.currentStop = state.stopLoss
  breakeven : state.status = .tp1Reached → state.currentStop = feeAdjustedBreakeven state

/-- The levels, the size and the fee of a signal never change along a run. -/
structure SamePlan (s t : LifecycleState) : Prop where
  symbol : t.symbol = s.symbol
  direction : t.direction = s.direction
  entryLower : t.entryLower = s.entryLower
  entryUpper : t.entryUpper = s.entryUpper
  plannedEntry : t.plannedEntry = s.plannedEntry
  stopLoss : t.stopLoss = s.stopLoss
  takeProfit1 : t.takeProfit1 = s.takeProfit1
  takeProfit2 : t.takeProfit2 = s.takeProfit2
  quantity : t.quantity = s.quantity
  riskAmount : t.riskAmount = s.riskAmount
  takerFeeRate : t.takerFeeRate = s.takerFeeRate
  expiresAt : t.expiresAt = s.expiresAt

namespace SamePlan

theorem refl (s : LifecycleState) : SamePlan s s :=
  ⟨rfl, rfl, rfl, rfl, rfl, rfl, rfl, rfl, rfl, rfl, rfl, rfl⟩

theorem trans {s t u : LifecycleState} (h : SamePlan s t) (k : SamePlan t u) : SamePlan s u :=
  ⟨k.symbol.trans h.symbol, k.direction.trans h.direction, k.entryLower.trans h.entryLower,
    k.entryUpper.trans h.entryUpper, k.plannedEntry.trans h.plannedEntry,
    k.stopLoss.trans h.stopLoss, k.takeProfit1.trans h.takeProfit1,
    k.takeProfit2.trans h.takeProfit2, k.quantity.trans h.quantity,
    k.riskAmount.trans h.riskAmount, k.takerFeeRate.trans h.takerFeeRate,
    k.expiresAt.trans h.expiresAt⟩

theorem advance (state : LifecycleState) (eventTime : Int) (action : LifecycleAction) :
    SamePlan state (state.advance eventTime action) :=
  ⟨rfl, rfl, rfl, rfl, rfl, rfl, rfl, rfl, rfl, rfl, rfl, rfl⟩

theorem feeAdjustedBreakeven_eq {s t : LifecycleState} (h : SamePlan s t) :
    feeAdjustedBreakeven t = feeAdjustedBreakeven s := by
  simp [feeAdjustedBreakeven, h.takerFeeRate, h.direction, h.plannedEntry]

theorem fullExit_eq {s t : LifecycleState} (h : SamePlan s t) (price : ℚ) :
    fullExit t price = fullExit s price := by
  simp [fullExit, h.quantity, h.direction, h.plannedEntry, h.takerFeeRate]

theorem tp1Result_eq {s t : LifecycleState} (h : SamePlan s t) : tp1Result t = tp1Result s := by
  simp [tp1Result, h.quantity, h.direction, h.plannedEntry, h.takerFeeRate, h.takeProfit1]

theorem tp1ThenExit_eq {s t : LifecycleState} (h : SamePlan s t) (price : ℚ) :
    tp1ThenExit t price = tp1ThenExit s price := by
  simp [tp1ThenExit, h.quantity, h.direction, h.plannedEntry, h.takerFeeRate, h.takeProfit1]

theorem applyActions (state : LifecycleState) (eventTime : Int) (actions : List LifecycleAction) :
    SamePlan state (applyActions state eventTime actions) := by
  induction actions generalizing state with
  | nil => exact refl state
  | cons a as ih => exact (advance state eventTime a).trans (ih _)

theorem stepEvent (state : LifecycleState) (event : MarketEvent) :
    SamePlan state (stepEvent state event) := applyActions _ _ _

theorem runEvents (state : LifecycleState) (events : List MarketEvent) :
    SamePlan state (runEvents state events) := by
  induction events generalizing state with
  | nil => exact refl state
  | cons e es ih => exact (stepEvent state e).trans (ih _)

end SamePlan

/-- What an action of either evaluator is, given the stop the tracker holds. -/
inductive Booked (state : LifecycleState) (action : LifecycleAction) : Prop where
  | unfilled (status : state.status = .active)
      (target : action.target = .expired ∨ action.target = .invalidated)
      (pnl : action.realizedPnl = none) (stop : action.currentStop = none)
  | entry (status : state.status = .active) (eq : action = enteredAction state)
  | stopOut (status : state.status = .active ∨ state.status = .entered)
      (target : action.target = .stopped ∨ action.target = .ambiguous)
      (eq : action = { stoppedAction { state with currentStop := state.stopLoss } with
        target := action.target, eventType := action.eventType })
  | firstTarget (status : state.status = .entered) (eq : action = tp1Action state)
  | breakeven (status : state.status = .tp1Reached)
      (target : action.target = .stoppedAtBreakeven ∨ action.target = .ambiguous)
      (eq : action = { breakevenAction { state with currentStop := feeAdjustedBreakeven state } with
        target := action.target, eventType := action.eventType })
  | secondTarget (status : state.status = .entered ∨ state.status = .tp1Reached)
      (eq : action = tp2Action state)

theorem Booked.of_stopped {state : LifecycleState} (hd : StopDiscipline state)
    (hs : state.status = .entered) : Booked state (stoppedAction state) := by
  refine .stopOut (Or.inr hs) (Or.inl rfl) ?_
  simp [stoppedAction, fullExit, hd.initial (Or.inr hs)]

theorem Booked.of_breakeven {state : LifecycleState} (hd : StopDiscipline state)
    (hs : state.status = .tp1Reached) : Booked state (breakevenAction state) := by
  refine .breakeven hs (Or.inl rfl) ?_
  simp [breakevenAction, tp1ThenExit, hd.breakeven hs]

theorem evaluatePublicTrade_booked {state : LifecycleState} (hd : StopDiscipline state)
    {trade : PublicTrade} {action : LifecycleAction}
    (ha : action ∈ evaluatePublicTrade state trade) : Booked state action := by
  rcases evaluatePublicTrade_cases state trade with h | ⟨hs, h⟩ | ⟨hs, h⟩ | ⟨hs, h⟩
  · simp [h] at ha
  · rcases h with h | h | h <;> rw [h, List.mem_singleton] at ha <;> subst ha
    · exact .unfilled hs (Or.inl rfl) rfl rfl
    · exact .unfilled hs (Or.inr rfl) rfl rfl
    · exact .entry hs rfl
  · rcases h with h | h | h <;> rw [h] at ha
    · rw [List.mem_singleton] at ha
      exact ha ▸ .of_stopped hd hs
    · rcases List.mem_cons.mp ha with rfl | ha
      · exact .firstTarget hs rfl
      · rw [List.mem_singleton] at ha
        exact .secondTarget (Or.inl hs) ha
    · exact .firstTarget hs (List.mem_singleton.mp ha)
  · rcases h with h | h <;> rw [h, List.mem_singleton] at ha <;> subst ha
    · exact .of_breakeven hd hs
    · exact .secondTarget (Or.inr hs) rfl

theorem closedCandleActive_booked {state : LifecycleState} (hd : StopDiscipline state)
    {candle : Candle1m} (hsym : candle.symbol = state.symbol) (hs : state.status = .active)
    {action : LifecycleAction} (ha : action ∈ closedCandleActive state candle) :
    Booked state action := by
  have hstop := hd.initial (Or.inl hs)
  have hentered : evaluatePublicTrade { state with status := .entered }
      (syntheticTrade candle state.stopLoss) =
        [stoppedAction { state with status := .entered }] := by
    rw [← hstop]
    exact @evaluate_synthetic_stop { state with status := .entered } candle hsym rfl
  simp only [closedCandleActive] at ha
  split at ha
  · rw [List.mem_singleton] at ha
    subst ha
    exact .unfilled hs (Or.inl rfl) rfl rfl
  · split at ha
    · split at ha
      · rw [List.mem_singleton] at ha
        subst ha
        exact .unfilled hs (Or.inr rfl) rfl rfl
      · simp at ha
    · split at ha
      · rw [hentered, markAmbiguous_singleton, List.mem_singleton] at ha
        subst ha
        refine .stopOut (Or.inl hs) (Or.inr rfl) ?_
        simp [stoppedAction, fullExit, hstop]
      · exact evaluatePublicTrade_booked hd ha

theorem closedCandleEntered_booked {state : LifecycleState} (hd : StopDiscipline state)
    {candle : Candle1m} (hsym : candle.symbol = state.symbol) (hs : state.status = .entered)
    {action : LifecycleAction} (ha : action ∈ closedCandleEntered state candle) :
    Booked state action := by
  simp only [closedCandleEntered] at ha
  split at ha
  · rw [evaluate_synthetic_stop hsym hs, markAmbiguous_singleton, List.mem_singleton] at ha
    subst ha
    refine .stopOut (Or.inr hs) (Or.inr rfl) ?_
    simp [stoppedAction, fullExit, hd.initial (Or.inr hs)]
  · split_ifs at ha <;> first | exact evaluatePublicTrade_booked hd ha | simp at ha

theorem closedCandleTp1Reached_booked {state : LifecycleState} (hd : StopDiscipline state)
    {candle : Candle1m} (hsym : candle.symbol = state.symbol) (hs : state.status = .tp1Reached)
    {action : LifecycleAction} (ha : action ∈ closedCandleTp1Reached state candle) :
    Booked state action := by
  simp only [closedCandleTp1Reached] at ha
  split at ha
  · rw [evaluate_synthetic_breakeven hsym hs, markAmbiguous_singleton, List.mem_singleton] at ha
    subst ha
    refine .breakeven hs (Or.inr rfl) ?_
    simp [breakevenAction, tp1ThenExit, hd.breakeven hs]
  · split_ifs at ha <;> first | exact evaluatePublicTrade_booked hd ha | simp at ha

theorem evaluateClosedCandle_booked {state : LifecycleState} (hd : StopDiscipline state)
    {candle : Candle1m} {action : LifecycleAction}
    (ha : action ∈ evaluateClosedCandle state candle) : Booked state action := by
  have hsym := closedCandle_symbol (List.ne_nil_of_mem ha)
  rw [evaluateClosedCandle, if_neg (not_not.mpr hsym)] at ha
  split at ha
  · rename_i hs
    exact closedCandleActive_booked hd hsym hs ha
  · rename_i hs
    exact closedCandleEntered_booked hd hsym hs ha
  · rename_i hs
    exact closedCandleTp1Reached_booked hd hsym hs ha
  · simp at ha

theorem evaluateEvent_booked {state : LifecycleState} (hd : StopDiscipline state)
    {event : MarketEvent} {action : LifecycleAction} (ha : action ∈ evaluateEvent state event) :
    Booked state action := by
  cases event with
  | trade t => exact evaluatePublicTrade_booked hd ha
  | candle c => exact evaluateClosedCandle_booked hd ha

theorem Booked.stopDiscipline_advance {state : LifecycleState} {action : LifecycleAction}
    (hd : StopDiscipline state) (hb : Booked state action) (eventTime : Int) :
    StopDiscipline (state.advance eventTime action) := by
  have hbe : feeAdjustedBreakeven (state.advance eventTime action) = feeAdjustedBreakeven state :=
    (SamePlan.advance state eventTime action).feeAdjustedBreakeven_eq
  constructor
  · intro h
    change action.currentStop.getD state.currentStop = state.stopLoss
    change action.target = .active ∨ action.target = .entered at h
    cases hb with
    | unfilled status target _ stop =>
      rw [stop]
      exact hd.initial (Or.inl status)
    | entry status eq =>
      subst eq
      exact hd.initial (Or.inl status)
    | stopOut _ target _ => rcases target with t | t <;> simp [t] at h
    | firstTarget _ eq => subst eq; simp [tp1Action] at h
    | breakeven _ target _ => rcases target with t | t <;> simp [t] at h
    | secondTarget _ eq => subst eq; simp [tp2Action] at h
  · intro h
    change action.target = .tp1Reached at h
    change action.currentStop.getD state.currentStop = _
    rw [hbe]
    cases hb with
    | unfilled _ target _ _ => rcases target with t | t <;> simp [t] at h
    | entry _ eq => subst eq; simp [enteredAction] at h
    | stopOut _ target _ => rcases target with t | t <;> simp [t] at h
    | firstTarget _ eq => subst eq; rfl
    | breakeven _ target _ => rcases target with t | t <;> simp [t] at h
    | secondTarget _ eq => subst eq; simp [tp2Action] at h

/-- One event emits nothing, one action, or the two fills of a jump through TP2. -/
theorem evaluatePublicTrade_shape (state : LifecycleState) (trade : PublicTrade) :
    evaluatePublicTrade state trade = [] ∨ (∃ a, evaluatePublicTrade state trade = [a]) ∨
      (state.status = .entered ∧ evaluatePublicTrade state trade = tp1AndTp2 state) := by
  rcases evaluatePublicTrade_cases state trade with h | ⟨hs, h⟩ | ⟨hs, h⟩ | ⟨hs, h⟩
  · exact Or.inl h
  · rcases h with h | h | h <;> exact Or.inr (Or.inl ⟨_, h⟩)
  · rcases h with h | h | h
    · exact Or.inr (Or.inl ⟨_, h⟩)
    · exact Or.inr (Or.inr ⟨hs, h⟩)
    · exact Or.inr (Or.inl ⟨_, h⟩)
  · rcases h with h | h <;> exact Or.inr (Or.inl ⟨_, h⟩)

theorem markAmbiguous_shape (eventType : LifecycleEventType) (actions : List LifecycleAction) :
    markAmbiguous eventType actions = [] ∨ ∃ a, markAmbiguous eventType actions = [a] := by
  cases actions with
  | nil => exact Or.inl rfl
  | cons a as => exact Or.inr ⟨_, rfl⟩

theorem evaluateClosedCandle_shape (state : LifecycleState) (candle : Candle1m) :
    evaluateClosedCandle state candle = [] ∨ (∃ a, evaluateClosedCandle state candle = [a]) ∨
      (state.status = .entered ∧ evaluateClosedCandle state candle = tp1AndTp2 state) := by
  have hmark := fun t as => (markAmbiguous_shape t as).imp_right
    (Or.inl (b := state.status = .entered ∧ markAmbiguous t as = tp1AndTp2 state))
  unfold evaluateClosedCandle
  split
  · exact Or.inl rfl
  · split
    · simp only [closedCandleActive]
      split_ifs <;> first
        | exact Or.inl rfl
        | exact Or.inr (Or.inl ⟨_, rfl⟩)
        | exact hmark _ _
        | exact evaluatePublicTrade_shape _ _
    · simp only [closedCandleEntered]
      split_ifs <;> first
        | exact Or.inl rfl
        | exact hmark _ _
        | exact evaluatePublicTrade_shape _ _
    · simp only [closedCandleTp1Reached]
      split_ifs <;> first
        | exact Or.inl rfl
        | exact hmark _ _
        | exact evaluatePublicTrade_shape _ _
    · exact Or.inl rfl

theorem evaluateEvent_shape (state : LifecycleState) (event : MarketEvent) :
    evaluateEvent state event = [] ∨ (∃ a, evaluateEvent state event = [a]) ∨
      (state.status = .entered ∧ evaluateEvent state event = tp1AndTp2 state) := by
  cases event with
  | trade t => exact evaluatePublicTrade_shape state t
  | candle c => exact evaluateClosedCandle_shape state c

section Legality

/-- The targets of the actions lead from `status` along the transition table. -/
def LegalPath : SignalStatus → List LifecycleAction → Prop
  | _, [] => True
  | status, action :: rest => action.target ∈ signalTransitions status ∧ LegalPath action.target rest

theorem evaluatePublicTrade_legal (state : LifecycleState) (trade : PublicTrade) :
    LegalPath state.status (evaluatePublicTrade state trade) := by
  rcases evaluatePublicTrade_cases state trade with h | ⟨hs, h⟩ | ⟨hs, h⟩ | ⟨hs, h⟩
  · rw [h]
    trivial
  · rcases h with h | h | h <;> rw [h, hs] <;>
      simp [LegalPath, signalTransitions, enteredAction]
  · rcases h with h | h | h <;> rw [h, hs] <;>
      simp [LegalPath, signalTransitions, stoppedAction, tp1AndTp2, tp1Action, tp2Action]
  · rcases h with h | h <;> rw [h, hs] <;>
      simp [LegalPath, signalTransitions, breakevenAction, tp2Action]

theorem markAmbiguous_legal {status : SignalStatus} (h : .ambiguous ∈ signalTransitions status)
    (eventType : LifecycleEventType) (actions : List LifecycleAction) :
    LegalPath status (markAmbiguous eventType actions) := by
  cases actions with
  | nil => trivial
  | cons action actions => exact ⟨h, trivial⟩

theorem evaluateClosedCandle_legal (state : LifecycleState) (candle : Candle1m) :
    LegalPath state.status (evaluateClosedCandle state candle) := by
  have htrade := evaluatePublicTrade_legal state
  unfold evaluateClosedCandle
  split
  · trivial
  · split
    · rename_i hs
      rw [hs] at htrade ⊢
      simp only [closedCandleActive]
      split_ifs
      · exact ⟨by decide, trivial⟩
      · exact ⟨by decide, trivial⟩
      · trivial
      · exact markAmbiguous_legal (by decide) _ _
      · exact htrade _
    · rename_i hs
      rw [hs] at htrade ⊢
      simp only [closedCandleEntered]
      split_ifs
      · exact markAmbiguous_legal (by decide) _ _
      · exact htrade _
      · exact htrade _
      · exact htrade _
      · trivial
    · rename_i hs
      rw [hs] at htrade ⊢
      simp only [closedCandleTp1Reached]
      split_ifs
      · exact markAmbiguous_legal (by decide) _ _
      · exact htrade _
      · exact htrade _
      · trivial
    · trivial

end Legality

theorem StopDiscipline.stepEvent {state : LifecycleState} (hd : StopDiscipline state)
    (event : MarketEvent) : StopDiscipline (stepEvent state event) := by
  rcases evaluateEvent_shape state event with h | ⟨a, h⟩ | ⟨_, h⟩
  · simpa [Signals.stepEvent, applyActions, h] using hd
  · have ha : a ∈ evaluateEvent state event := h ▸ List.mem_singleton_self a
    simpa [Signals.stepEvent, applyActions, h] using
      (evaluateEvent_booked hd ha).stopDiscipline_advance hd event.time
  · -- after both fills the signal is closed and neither clause applies
    constructor <;> intro hs <;>
      simp [Signals.stepEvent, applyActions, h, tp1AndTp2, LifecycleState.advance, tp2Action] at hs

/-- Every booking of a run is decided in a state that keeps the plan of the start
and the stop discipline. -/
theorem bookings_spec {state : LifecycleState} (hd : StopDiscipline state)
    (events : List MarketEvent) {decided : LifecycleState} {action : LifecycleAction}
    (h : (decided, action) ∈ bookings state events) :
    SamePlan state decided ∧ Booked decided action := by
  induction events generalizing state with
  | nil => simp [bookings] at h
  | cons event events ih =>
    rcases List.mem_append.mp h with h | h
    · obtain ⟨a, ha, heq⟩ := List.mem_map.mp h
      cases heq
      exact ⟨SamePlan.refl _, evaluateEvent_booked hd ha⟩
    · obtain ⟨hsame, hb⟩ := ih (hd.stepEvent event) h
      exact ⟨(SamePlan.stepEvent state event).trans hsame, hb⟩

end StructurePulse.Signals
