import StructurePulse.Signals.Coverage
import StructurePulse.Signals.Funding
import StructurePulse.Signals.MarketFold
import StructurePulse.Store.MarketData
import StructurePulse.Store.Repository

/-!
# The lifecycle service, seen from one symbol

`Memory` is what `SignalLifecycleService` keeps for one symbol, and a `Tracker` one
operation of the service on it. The process can be killed at every `await`, and what
raises ends it too; both leave the database as the last commit made it. `life` is the
number of transactions the process still lives to commit. `calls` is not part of the
service: it records each call of an evaluator, with the signal and the anchor it was
made for.
-/

namespace StructurePulse.Service
open Signals Store Library
set_option autoImplicit false

structure EvaluatorCall where
  signal : TrackingSignalView
  anchor : Int
  event : MarketEvent
  deriving DecidableEq

/-- `_signals`, `_coverage_pending`, `_stream_ready` and `_stream.symbols`. -/
structure Memory where
  signal : Option TrackingSignalView := none
  coveragePending : Option Int := none
  streamReady : Bool := false
  subscribed : Bool := false
  deriving DecidableEq

structure Tracker extends Memory where
  db : Database
  life : Nat
  calls : List EvaluatorCall := []
  deriving DecidableEq

/-- What a service that has ended leaves behind; no cause if it was killed. -/
structure Stopped where
  db : Database
  calls : List EvaluatorCall
  cause : Option StoreError
  deriving DecidableEq

/-- One transaction of the service. -/
def Tracker.commit {α : Type} (t : Tracker)
    (write : Database → Except StoreError (Database × α)) : Except Stopped (Tracker × α) :=
  match t.life with
  | 0 => .error { db := t.db, calls := t.calls, cause := none }
  | life + 1 =>
    match write t.db with
    | .error cause => .error { db := t.db, calls := t.calls, cause := some cause }
    | .ok (db, result) => .ok ({ t with db := db, life := life }, result)

section Transitions

/-- `_refresh_signal`. -/
def Tracker.refresh (t : Tracker) (symbol : Symbol) : Tracker :=
  { t with signal := (listTrackingSignals t.db).find? fun item => item.symbol = symbol }

/-- The copy of the tracked signal after an applied transition to an open status. -/
def moved (signal : TrackingSignalView) (request : TransitionRequest) : TrackingSignalView :=
  { signal with
    status := request.target
    currentStop := request.currentStop.getD signal.currentStop
    remainingQuantity := request.remainingQuantity.getD signal.remainingQuantity
    enteredAt := if request.target = .entered then some request.eventTime else signal.enteredAt
    tp1ReachedAt :=
      if request.target = .tp1Reached then some request.eventTime else signal.tp1ReachedAt }

@[simp] theorem moved_status (signal : TrackingSignalView) (request : TransitionRequest) :
    (moved signal request).status = request.target := rfl

@[simp] theorem moved_id (signal : TrackingSignalView) (request : TransitionRequest) :
    (moved signal request).id = signal.id := rfl

/-- The branch of `_transition` for a closed signal, which also unsubscribes. -/
def Tracker.closed (t : Tracker) : Tracker :=
  { t with signal := none, coveragePending := none, streamReady := false, subscribed := false }

/-- The memory after a transition. -/
def Tracker.settle (t : Tracker) (signal : TrackingSignalView) (request : TransitionRequest)
    (applied : Bool) : Tracker :=
  if !applied then t.refresh signal.symbol
  else if request.target.isTerminal then t.closed
  else { t with signal := some (moved signal request) }

/-- `_transition`. -/
def Tracker.transition (t : Tracker) (signal : TrackingSignalView) (request : TransitionRequest) :
    Except Stopped Tracker := do
  let (t, result) ← t.commit (applyTransition · request)
  return t.settle signal request result.applied

/-- The copy of the tracked signal after a checkpoint. -/
def checkpointed (signal : TrackingSignalView) (trade : PublicTrade) : TrackingSignalView :=
  { signal with
    lastTradeId := some trade.tradeId
    lastTradeTime := some trade.executedAt
    lastTradeSequence := some trade.sequence }

/-- `_checkpoint`. -/
def Tracker.checkpoint (t : Tracker) (signal : TrackingSignalView) (trade : PublicTrade) :
    Except Stopped Tracker := do
  let (t, _) ← t.commit fun db =>
    (checkpointTrade db signal.id trade.tradeId trade.executedAt trade.sequence).map (·, ())
  return { t with signal := some (checkpointed signal trade) }

end Transitions

section Actions

/-- The targets whose result includes the estimated funding. -/
def bookedTargets : List SignalStatus :=
  [.tp1Reached, .stopped, .stoppedAtBreakeven, .tp2Completed, .ambiguous]

/-- What the callers of `_apply_action` say about the event behind an action. -/
structure EventContext where
  eventTime : Int
  idempotencyKey : String
  sourceEventId : Option String
  payload : Payload
  ambiguous : Option Bool := none
  resolutionNote : Option String := none

/-- The arguments `_apply_action` passes on to `_transition`. -/
def actionRequest (signal : TrackingSignalView) (action : LifecycleAction)
    (context : EventContext) : TransitionRequest :=
  let request : TransitionRequest := {
    signalId := signal.id
    target := action.target
    eventTime := context.eventTime
    idempotencyKey := context.idempotencyKey
    eventType := action.eventType.text
    sourceEventId := context.sourceEventId
    payload := context.payload
    realizedPnl := action.realizedPnl
    fees := action.fees
    estimatedFunding := some 0
    rMultiple := action.rMultiple
    ambiguous := context.ambiguous
    resolutionNote := context.resolutionNote
    currentStop := action.currentStop
    remainingQuantity := action.remainingQuantity }
  match action.realizedPnl with
  | none => request
  | some realizedPnl =>
    if action.target ∈ bookedTargets then
      let funding := estimateFundingCost (lifecycleState signal) context.eventTime action.target
      { request with
        realizedPnl := some (realizedPnl - funding)
        estimatedFunding := some funding
        rMultiple := some ((realizedPnl - funding) / signal.riskAmount) }
    else request

section Request
variable (signal : TrackingSignalView) (action : LifecycleAction) (context : EventContext)

/-- The booked funding changes the result of a request and nothing else. -/
theorem actionRequest_cases :
    ∃ realizedPnl estimatedFunding rMultiple, actionRequest signal action context = {
      signalId := signal.id
      target := action.target
      eventTime := context.eventTime
      idempotencyKey := context.idempotencyKey
      eventType := action.eventType.text
      sourceEventId := context.sourceEventId
      payload := context.payload
      realizedPnl := realizedPnl
      fees := action.fees
      estimatedFunding := estimatedFunding
      rMultiple := rMultiple
      ambiguous := context.ambiguous
      resolutionNote := context.resolutionNote
      currentStop := action.currentStop
      remainingQuantity := action.remainingQuantity } := by
  unfold actionRequest
  split
  · exact ⟨_, _, _, rfl⟩
  · simp only
    split_ifs
    · exact ⟨_, _, _, rfl⟩
    · exact ⟨_, _, _, rfl⟩

@[simp] theorem actionRequest_signalId :
    (actionRequest signal action context).signalId = signal.id := by
  obtain ⟨_, _, _, h⟩ := actionRequest_cases signal action context
  rw [h]

@[simp] theorem actionRequest_target :
    (actionRequest signal action context).target = action.target := by
  obtain ⟨_, _, _, h⟩ := actionRequest_cases signal action context
  rw [h]

@[simp] theorem actionRequest_eventTime :
    (actionRequest signal action context).eventTime = context.eventTime := by
  obtain ⟨_, _, _, h⟩ := actionRequest_cases signal action context
  rw [h]

@[simp] theorem actionRequest_idempotencyKey :
    (actionRequest signal action context).idempotencyKey = context.idempotencyKey := by
  obtain ⟨_, _, _, h⟩ := actionRequest_cases signal action context
  rw [h]

end Request

/-- `f"trade:{signal.id}:{trade.trade_id}:{action.target}:{index}"`. -/
def tradeKey (signalId : Nat) (tradeId : String) (target : SignalStatus) (index : Nat) : String :=
  s!"trade:{signalId}:{tradeId}:{target.text}:{index}"

def tradeContext (trade : PublicTrade) (signal : TrackingSignalView) (action : LifecycleAction)
    (index : Nat) : EventContext where
  eventTime := trade.executedAt
  idempotencyKey := tradeKey signal.id trade.tradeId action.target index
  sourceEventId := some trade.tradeId
  payload := [("price", .decimal trade.price), ("size", .decimal trade.size),
    ("sequence", .number trade.sequence)]

/-- `f"fallback:{current.id}:{int(open_time.timestamp())}:{action.target}:{index}"`. -/
def fallbackKey (signalId : Nat) (openTime : Int) (target : SignalStatus) (index : Nat) : String :=
  s!"fallback:{signalId}:{openTime / 1000000}:{target.text}:{index}"

def candleContext (candle : Candle1m) (coverageReason : CoverageFailure)
    (signal : TrackingSignalView) (action : LifecycleAction) (index : Nat) : EventContext where
  eventTime := candle.openTime + oneMinute
  idempotencyKey := fallbackKey signal.id candle.openTime action.target index
  sourceEventId := none
  payload := [("open_time", .number candle.openTime), ("open", .decimal candle.openPrice),
    ("high", .decimal candle.highPrice), ("low", .decimal candle.lowPrice),
    ("close", .decimal candle.closePrice), ("coverage_reason", .text coverageReason.text)]
  ambiguous := some (decide (action.target = .ambiguous))
  resolutionNote := if action.target = .ambiguous then
    some s!"conservative_1m_fallback:{coverageReason.text}" else none

/-- The loop over the actions of one event; it stops when the signal is closed. -/
def Tracker.applyActions (context : TrackingSignalView → LifecycleAction → Nat → EventContext) :
    Tracker → List (LifecycleAction × Nat) → Except Stopped Tracker
  | t, [] => .ok t
  | t, (action, index) :: rest =>
    match t.signal with
    | none => .ok t
    | some signal => do
      let t ← t.transition signal (actionRequest signal action (context signal action index))
      t.applyActions context rest

def Tracker.called (t : Tracker) (signal : TrackingSignalView) (anchor : Int)
    (event : MarketEvent) : Tracker :=
  { t with calls := t.calls ++ [⟨signal, anchor, event⟩] }

/-- `_process_trade`; `due` says that a checkpoint is asked for and its interval is over. -/
def Tracker.processTrade (t : Tracker) (trade : PublicTrade) (due : Bool) :
    Except Stopped Tracker :=
  match t.signal with
  | none => .ok t
  | some signal => do
    let t ← (t.called signal signal.coverageAnchor (.trade trade)).applyActions (tradeContext trade)
      (evaluatePublicTrade (lifecycleState signal) trade).zipIdx
    match t.signal with
    | none => .ok t
    | some signal => if due then t.checkpoint signal trade else .ok t

/-- The replay loop of a proven coverage or of the buffer after a candle recovery. -/
def Tracker.replay : Tracker → List PublicTrade → Except Stopped Tracker
  | t, [] => .ok t
  | t, trade :: rest =>
    match t.signal with
    | none => .ok t
    | some _ => do
      let t ← t.processTrade trade false
      t.replay rest

def Tracker.replayAndCheckpoint (t : Tracker) (trades : List PublicTrade) :
    Except Stopped Tracker := do
  let t ← t.replay trades
  match trades.getLast?, t.signal with
  | some last, some signal => t.checkpoint signal last
  | _, _ => .ok t

end Actions

section Coverage

/-- `f"signal:{signal.id}:coverage:{int(anchor.timestamp() * 1000)}"`. -/
def coverageKey (signalId : Nat) (anchor : Int) : String :=
  s!"signal:{signalId}:coverage:{anchor / 1000}"

def activationRequest (signal : TrackingSignalView) (anchor : Int) (tradeCount : Nat) :
    TransitionRequest where
  signalId := signal.id
  target := .active
  eventTime := anchor
  idempotencyKey := coverageKey signal.id anchor
  eventType := "trade_coverage_ready"
  payload := [("trade_count", .number tradeCount)]

def coverageFailedRequest (signal : TrackingSignalView) (anchor now : Int)
    (reason : Option CoverageFailure) : TransitionRequest where
  signalId := signal.id
  target := .coverageFailed
  eventTime := now
  idempotencyKey := coverageKey signal.id anchor
  eventType := "trade_coverage_failed"
  resolutionNote := reason.map (·.text)

/-- `self._coverage_pending.pop(symbol, None)`. -/
def Tracker.covered (t : Tracker) : Tracker := { t with coveragePending := none }

/-- A proven coverage activates a signal that waits for it. -/
def Tracker.activate (t : Tracker) (signal : TrackingSignalView) (anchor : Int)
    (tradeCount : Nat) : Except Stopped Tracker :=
  (if signal.status = .preparing then
    t.transition signal (activationRequest signal anchor tradeCount)
  else .ok t).map Tracker.covered

/-- The branch of `_establish_coverage` for a proven coverage. -/
def Tracker.acceptCoverage (t : Tracker) (signal : TrackingSignalView) (anchor : Int)
    (trades : List PublicTrade) : Except Stopped Tracker := do
  let t ← t.activate signal anchor trades.length
  t.replayAndCheckpoint trades

/-- The branch for an unproven coverage of a signal that still waits for it. -/
def Tracker.failCoverage (t : Tracker) (signal : TrackingSignalView) (anchor now : Int)
    (reason : Option CoverageFailure) : Except Stopped Tracker :=
  (t.transition signal (coverageFailedRequest signal anchor now reason)).map Tracker.covered

/-- The candle loop of `_recover_with_candles`. -/
def Tracker.applyCandles (anchor : Int) (coverageReason : CoverageFailure) :
    Tracker → List Candle1m → Except Stopped Tracker
  | t, [] => .ok t
  | t, candle :: rest =>
    match t.signal with
    | none => .ok t.covered
    | some current => do
      let t ← (t.called current anchor (.candle candle)).applyActions
        (candleContext candle coverageReason)
        (evaluateClosedCandle (lifecycleState current) candle).zipIdx
      match t.signal with
      | none => .ok t.covered
      | some _ => t.applyCandles anchor coverageReason rest

/-- The first and the last minute a recovery asks for. -/
def startOpenTime (anchor : Int) : Int := minuteFloor anchor

def endOpenTime (now : Int) : Int := minuteFloor now - oneMinute

def recoveredRequest (signal : TrackingSignalView) (anchor now : Int)
    (coverageReason : CoverageFailure) (candleCount : Nat) : TrackingRequest where
  signalId := signal.id
  eventTime := endOpenTime now + oneMinute
  idempotencyKey := s!"signal:{signal.id}:fallback:{anchor / 1000}"
  eventType := "trade_coverage_fallback_recovered"
  payload := [("coverage_reason", .text coverageReason.text),
    ("start_open_time", .number (startOpenTime anchor)),
    ("end_open_time", .number (endOpenTime now)), ("candle_count", .number candleCount)]

/-- `_recover_with_candles`, at the wall-clock time `now`, with the candles the
repository returns for the window and the buffer as it is after the candle loop. -/
def Tracker.recoverWithCandles (t : Tracker) (signal : TrackingSignalView) (anchor : Int)
    (coverageReason : CoverageFailure) (now : Int) (candles : List Candle1m)
    (buffer : List PublicTrade) : Except Stopped (Tracker × Bool) :=
  if endOpenTime now < startOpenTime anchor then .ok (t, false)
  else if candles.isEmpty then .ok (t, false)
  else do
    let t ← t.applyCandles anchor coverageReason candles
    match t.signal with
    | none => return (t, true)
    | some _ => do
      let (t, _) ← t.covered.commit (recordTrackingEvent ·
        (recoveredRequest signal anchor now coverageReason candles.length))
      let t ← t.replayAndCheckpoint (bufferedTrades buffer (endOpenTime now + oneMinute))
      return (t, true)

/-- What the service is told while it establishes a coverage: the REST page, the buffer
after it, the wall clock, the candle store and the buffer after the candle loop. -/
structure CoverageInput where
  rest : List PublicTrade
  buffer : List PublicTrade
  now : Int
  data : MarketData
  laterBuffer : List PublicTrade

/-- The candles a recovery loads. -/
def recoveryCandles (data : MarketData) (symbol : Symbol) (anchor now : Int) : List Candle1m :=
  loadReconciled1mWindow data symbol (startOpenTime anchor) (endOpenTime now)

/-- `_establish_coverage`. -/
def Tracker.establishCoverage (t : Tracker) (input : CoverageInput) : Except Stopped Tracker :=
  match t.signal, t.coveragePending with
  | some signal, some anchor =>
    let coverage := mergeTradeCoverage input.rest (bufferedTrades input.buffer anchor) anchor
    if coverage.proven then t.acceptCoverage signal anchor coverage.trades
    else if signal.status = .preparing then
      t.failCoverage signal anchor input.now coverage.reason
    else
      (t.recoverWithCandles signal anchor (coverage.reason.getD .unproven) input.now
        (recoveryCandles input.data signal.symbol anchor input.now) input.laterBuffer).map Prod.fst
  | _, _ => .ok t

end Coverage

section Reconcile

def expiredRequest (signal : TrackingSignalView) : TransitionRequest where
  signalId := signal.id
  target := .expired
  eventTime := signal.expiresAt
  idempotencyKey := s!"signal:{signal.id}:expired"
  eventType := "signal_expired"

/-- Takes over what the database says about the symbol. -/
def Tracker.reload (t : Tracker) (symbol : Symbol) : Tracker :=
  match ((listTrackingSignals t.db).filter fun item => item.symbol = symbol).getLast? with
  | some signal => { t with signal := some signal }
  | none => if t.signal.isSome then t.closed else t

/-- One symbol's share of `_reconcile`. -/
def Tracker.reconcile (t : Tracker) (symbol : Symbol) (now : Int) (input : CoverageInput) :
    Except Stopped Tracker :=
  let t := t.reload symbol
  match t.signal with
  | none => .ok t
  | some signal =>
    if signal.status = .preparing ∧ signal.expiresAt ≤ now then
      t.transition signal (expiredRequest signal)
    else if signal.status = .active ∧ signal.expiresAt ≤ now ∧ t.coveragePending = none ∧
        t.streamReady then
      t.transition signal (expiredRequest signal)
    else if !t.subscribed then
      .ok { t with subscribed := true, coveragePending := some signal.coverageAnchor }
    else if t.coveragePending.isSome ∧ t.streamReady then t.establishCoverage input
    else .ok t

end Reconcile

section Calls
variable {t t' : Tracker} {signal : TrackingSignalView}

@[simp] theorem refresh_calls (t : Tracker) (symbol : Symbol) : (t.refresh symbol).calls = t.calls :=
  rfl

@[simp] theorem covered_calls (t : Tracker) : t.covered.calls = t.calls := rfl

@[simp] theorem called_signal (t : Tracker) (signal : TrackingSignalView) (anchor : Int)
    (event : MarketEvent) : (t.called signal anchor event).signal = t.signal := rfl

@[simp] theorem called_db (t : Tracker) (signal : TrackingSignalView) (anchor : Int)
    (event : MarketEvent) : (t.called signal anchor event).db = t.db := rfl

theorem commit_ok {α : Type} {write : Database → Except StoreError (Database × α)} {result : α}
    (h : t.commit write = .ok (t', result)) :
    ∃ db life, write t.db = .ok (db, result) ∧ t.life = life + 1 ∧
      t' = { t with db := db, life := life } := by
  unfold Tracker.commit at h
  split at h
  · cases h
  · rename_i life hlife
    split at h
    · cases h
    · rename_i db _ hwrite
      cases h
      exact ⟨db, life, hwrite, hlife, rfl⟩

theorem transition_ok {request : TransitionRequest} (h : t.transition signal request = .ok t') :
    ∃ db life result, applyTransition t.db request = .ok (db, result) ∧ t.life = life + 1 ∧
      t' = { t with db := db, life := life : Tracker }.settle signal request result.applied := by
  obtain ⟨⟨next, result⟩, hcommit, h⟩ := bind_eq_ok.mp h
  obtain ⟨db, life, happly, hlife, rfl⟩ := commit_ok hcommit
  cases h
  exact ⟨db, life, result, happly, hlife, rfl⟩

@[simp] theorem settle_calls (t : Tracker) (signal : TrackingSignalView)
    (request : TransitionRequest) (applied : Bool) :
    (t.settle signal request applied).calls = t.calls := by
  unfold Tracker.settle
  split_ifs <;> rfl

@[simp] theorem settle_db (t : Tracker) (signal : TrackingSignalView)
    (request : TransitionRequest) (applied : Bool) :
    (t.settle signal request applied).db = t.db := by
  unfold Tracker.settle
  split_ifs <;> rfl

theorem transition_calls {request : TransitionRequest}
    (h : t.transition signal request = .ok t') : t'.calls = t.calls := by
  obtain ⟨db, life, result, -, -, rfl⟩ := transition_ok h
  exact settle_calls _ signal request result.applied

theorem checkpoint_ok {trade : PublicTrade} (h : t.checkpoint signal trade = .ok t') :
    ∃ db life, checkpointTrade t.db signal.id trade.tradeId trade.executedAt trade.sequence =
        .ok db ∧ t.life = life + 1 ∧
      t' = { t with db := db, life := life, signal := some (checkpointed signal trade) } := by
  obtain ⟨⟨next, result⟩, hcommit, h⟩ := bind_eq_ok.mp h
  obtain ⟨db, life, hwrite, hlife, rfl⟩ := commit_ok hcommit
  cases h
  refine ⟨db, life, ?_, hlife, rfl⟩
  cases hcheckpoint : checkpointTrade t.db signal.id trade.tradeId trade.executedAt
      trade.sequence with
  | error cause =>
    rw [hcheckpoint] at hwrite
    cases hwrite
  | ok next =>
    rw [hcheckpoint] at hwrite
    cases hwrite
    rfl

theorem commit_error {α : Type} {write : Database → Except StoreError (Database × α)}
    {left : Stopped} (h : t.commit write = .error left) : left.db = t.db ∧ left.calls = t.calls := by
  unfold Tracker.commit at h
  split at h
  · cases h
    exact ⟨rfl, rfl⟩
  · split at h
    · cases h
      exact ⟨rfl, rfl⟩
    · cases h

theorem transition_error {request : TransitionRequest} {left : Stopped}
    (h : t.transition signal request = .error left) : left.db = t.db ∧ left.calls = t.calls := by
  rcases bind_eq_error.mp h with hcommit | ⟨pair, -, hpure⟩
  · exact commit_error hcommit
  · cases hpure

theorem checkpoint_error {trade : PublicTrade} {left : Stopped}
    (h : t.checkpoint signal trade = .error left) : left.db = t.db ∧ left.calls = t.calls := by
  rcases bind_eq_error.mp h with hcommit | ⟨pair, -, hpure⟩
  · exact commit_error hcommit
  · cases hpure

theorem applyActions_calls {context : TrackingSignalView → LifecycleAction → Nat → EventContext}
    {actions : List (LifecycleAction × Nat)} (h : t.applyActions context actions = .ok t') :
    t'.calls = t.calls := by
  induction actions generalizing t with
  | nil =>
    cases h
    rfl
  | cons action actions ih =>
    unfold Tracker.applyActions at h
    split at h
    · cases h
      rfl
    · obtain ⟨mid, hmid, h⟩ := bind_eq_ok.mp h
      exact (ih h).trans (transition_calls hmid)

/-- A trade of a tracked signal is one call, and a trade without a signal none. -/
theorem processTrade_calls {trade : PublicTrade} {due : Bool}
    (h : t.processTrade trade due = .ok t') :
    (t.signal = none ∧ t' = t) ∨ ∃ signal, t.signal = some signal ∧
      t'.calls = t.calls ++ [⟨signal, signal.coverageAnchor, .trade trade⟩] := by
  unfold Tracker.processTrade at h
  split at h
  · cases h
    exact Or.inl ⟨‹_›, rfl⟩
  · rename_i signal hsignal
    obtain ⟨mid, hmid, h⟩ := bind_eq_ok.mp h
    have hcalls := applyActions_calls hmid
    refine Or.inr ⟨signal, hsignal, ?_⟩
    split at h
    · cases h
      exact hcalls
    · split_ifs at h
      · obtain ⟨db, life, -, -, rfl⟩ := checkpoint_ok h
        exact hcalls
      · cases h
        exact hcalls

/-- A replay calls the evaluator with its trades in order, and with all of them if the
signal is still tracked afterwards. -/
theorem replay_calls {trades : List PublicTrade} (h : t.replay trades = .ok t') :
    ∃ calls replayed, t'.calls = t.calls ++ calls ∧ replayed <+: trades ∧
      calls.map EvaluatorCall.event = replayed.map MarketEvent.trade ∧
      (t'.signal ≠ none → replayed = trades) := by
  induction trades generalizing t with
  | nil =>
    cases h
    exact ⟨[], [], (List.append_nil _).symm, List.prefix_rfl, rfl, fun _ => rfl⟩
  | cons trade trades ih =>
    unfold Tracker.replay at h
    split at h
    · rename_i hnone
      cases h
      exact ⟨[], [], (List.append_nil _).symm, List.nil_prefix, rfl, fun hsome =>
        absurd hnone hsome⟩
    · rename_i signal hsignal
      obtain ⟨mid, hmid, h⟩ := bind_eq_ok.mp h
      obtain ⟨calls, replayed, hcalls, hprefix, hevents, hall⟩ := ih h
      rcases processTrade_calls hmid with ⟨hnone, -⟩ | ⟨signal', -, hcall⟩
      · rw [hnone] at hsignal
        cases hsignal
      · refine ⟨⟨signal', signal'.coverageAnchor, .trade trade⟩ :: calls, trade :: replayed, ?_,
          List.cons_prefix_cons.mpr ⟨rfl, hprefix⟩, ?_, fun hsome => by rw [hall hsome]⟩
        · rw [hcalls, hcall, List.append_assoc, List.singleton_append]
        · rw [List.map_cons, List.map_cons, hevents]

theorem replayAndCheckpoint_calls {trades : List PublicTrade}
    (h : t.replayAndCheckpoint trades = .ok t') :
    ∃ calls replayed, t'.calls = t.calls ++ calls ∧ replayed <+: trades ∧
      calls.map EvaluatorCall.event = replayed.map MarketEvent.trade ∧
      (t'.signal ≠ none → replayed = trades) := by
  obtain ⟨mid, hmid, h⟩ := bind_eq_ok.mp h
  obtain ⟨calls, replayed, hcalls, hprefix, hevents, hall⟩ := replay_calls hmid
  refine ⟨calls, replayed, ?_⟩
  split at h
  · rename_i hsignal
    obtain ⟨db, life, -, -, rfl⟩ := checkpoint_ok h
    exact ⟨hcalls, hprefix, hevents, fun _ => hall (by rw [hsignal]; exact Option.some_ne_none _)⟩
  · cases h
    exact ⟨hcalls, hprefix, hevents, hall⟩

/-- The candle loop calls the evaluator with its candles in order, and with all of
them if the signal is still tracked afterwards. -/
theorem applyCandles_calls {anchor : Int} {coverageReason : CoverageFailure}
    {candles : List Candle1m} (h : t.applyCandles anchor coverageReason candles = .ok t') :
    ∃ calls applied, t'.calls = t.calls ++ calls ∧ applied <+: candles ∧
      calls.map EvaluatorCall.event = applied.map MarketEvent.candle ∧
      (t'.signal ≠ none → applied = candles) := by
  induction candles generalizing t with
  | nil =>
    cases h
    exact ⟨[], [], (List.append_nil _).symm, List.prefix_rfl, rfl, fun _ => rfl⟩
  | cons candle candles ih =>
    unfold Tracker.applyCandles at h
    split at h
    · rename_i hnone
      cases h
      exact ⟨[], [], (List.append_nil _).symm, List.nil_prefix, rfl, fun hsome =>
        absurd hnone hsome⟩
    · rename_i current hcurrent
      obtain ⟨mid, hmid, h⟩ := bind_eq_ok.mp h
      have hcall : mid.calls = t.calls ++ [⟨current, anchor, .candle candle⟩] :=
        applyActions_calls hmid
      split at h
      · rename_i hnone
        cases h
        exact ⟨[⟨current, anchor, .candle candle⟩], [candle], hcall,
          List.cons_prefix_cons.mpr ⟨rfl, List.nil_prefix⟩, rfl, fun hsome => absurd hnone hsome⟩
      · obtain ⟨calls, applied, hcalls, hprefix, hevents, hall⟩ := ih h
        refine ⟨⟨current, anchor, .candle candle⟩ :: calls, candle :: applied, ?_,
          List.cons_prefix_cons.mpr ⟨rfl, hprefix⟩, ?_, fun hsome => by rw [hall hsome]⟩
        · rw [hcalls, hcall, List.append_assoc, List.singleton_append]
        · rw [List.map_cons, List.map_cons, hevents]

end Calls

end StructurePulse.Service
