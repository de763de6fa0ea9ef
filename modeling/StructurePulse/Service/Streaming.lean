import StructurePulse.Service.Run

/-!
# The trade stream and the consumer of its events

A task of `BybitPublicTradeWebSocketManager` appends what it receives to the buffer of its
symbol and then waits until the bounded event queue takes it. `run` takes one event after the
other and waits for the REST page, or for the store, in the middle of a coverage; the tasks
go on meanwhile. `received` is not part of the code: it records what the tasks received.
-/

namespace StructurePulse.Service
open Signals Store Strategy Library
set_option autoImplicit false

/-- `TradeStreamEvent`. -/
inductive StreamEvent where
  | trade (trade : PublicTrade)
  | ready (symbol : Symbol)
  | disconnected (symbol : Symbol)
  deriving DecidableEq

def StreamEvent.symbol : StreamEvent → Symbol
  | .trade value => value.symbol
  | .ready symbol => symbol
  | .disconnected symbol => symbol

/-- `_events` and `_buffers`, and for each symbol the event its task has in `put`. -/
structure TradeStream where
  events : List StreamEvent := []
  buffers : Symbol → List PublicTrade := fun _ => []
  putting : Symbol → Option StreamEvent := fun _ => none

/-- What `subscribe` and `unsubscribe` leave of a symbol. -/
def TradeStream.reset (stream : TradeStream) (symbol : Symbol) : TradeStream where
  events := stream.events
  buffers := fun other => if other = symbol then [] else stream.buffers other
  putting := fun other => if other = symbol then none else stream.putting other

section Parts

/-- `_reconcile` of a symbol up to `_establish_coverage`, and whether it comes to it. -/
def Tracker.poll (t : Tracker) (symbol : Symbol) (now : Int) : Except Stopped (Tracker × Bool) :=
  let t := t.reload symbol
  match t.signal with
  | none => .ok (t, false)
  | some signal =>
    if signal.status = .preparing ∧ signal.expiresAt ≤ now then
      (t.transition signal (expiredRequest signal)).map (·, false)
    else if signal.status = .active ∧ signal.expiresAt ≤ now ∧ t.coveragePending = none ∧
        t.streamReady then
      (t.transition signal (expiredRequest signal)).map (·, false)
    else if !t.subscribed then
      .ok ({ t with subscribed := true, coveragePending := some signal.coverageAnchor }, false)
    else .ok (t, t.coveragePending.isSome ∧ t.streamReady)

theorem Tracker.reconcile_eq (t : Tracker) (symbol : Symbol) (now : Int) (input : CoverageInput) :
    t.reconcile symbol now input = (t.poll symbol now) >>= fun polled =>
      if polled.2 then polled.1.establishCoverage input else .ok polled.1 := by
  unfold Tracker.reconcile Tracker.poll
  cases hsignal : (t.reload symbol).signal with
  | none => simp only [ok_bind, hsignal, Bool.false_eq_true, if_false]
  | some signal =>
    simp only [hsignal]
    split_ifs with hwaiting hactive hsubscribed hlive
    · cases (t.reload symbol).transition signal (expiredRequest signal) <;> rfl
    · cases (t.reload symbol).transition signal (expiredRequest signal) <;> rfl
    · rfl
    · simp only [ok_bind, hlive, and_self, decide_true, if_true]
    · simp only [ok_bind, hlive, decide_false, Bool.false_eq_true, if_false]

/-- `_recover_with_candles` up to the replay of the buffer, and from when on it replays if it
comes to it. -/
def Tracker.applyRecovery (t : Tracker) (signal : TrackingSignalView) (anchor : Int)
    (coverageReason : CoverageFailure) (now : Int) (candles : List Candle1m) :
    Except Stopped (Tracker × Option Int) :=
  if endOpenTime now < startOpenTime anchor then .ok (t, none)
  else if candles.isEmpty then .ok (t, none)
  else do
    let t ← t.applyCandles anchor coverageReason candles
    match t.signal with
    | none => return (t, none)
    | some _ => do
      let (t, _) ← t.covered.commit (recordTrackingEvent ·
        (recoveredRequest signal anchor now coverageReason candles.length))
      return (t, some (endOpenTime now + oneMinute))

/-- `_establish_coverage` with the answered page and the buffer after it, up to the replay of
the buffer. -/
def Tracker.answered (t : Tracker) (rest buffer : List PublicTrade) (now : Int)
    (data : MarketData) : Except Stopped (Tracker × Option Int) :=
  match t.signal, t.coveragePending with
  | some signal, some anchor =>
    let coverage := mergeTradeCoverage rest (bufferedTrades buffer anchor) anchor
    if coverage.proven then (t.acceptCoverage signal anchor coverage.trades).map (·, none)
    else if signal.status = .preparing then
      (t.failCoverage signal anchor now coverage.reason).map (·, none)
    else
      t.applyRecovery signal anchor (coverage.reason.getD .unproven) now
        (recoveryCandles data signal.symbol anchor now)
  | _, _ => .ok (t, none)

/-- The replay of the buffer, if it comes to it. -/
def Tracker.replayBuffer (t : Tracker) (buffer : List PublicTrade) :
    Option Int → Except Stopped Tracker
  | none => .ok t
  | some replayFrom => t.replayAndCheckpoint (bufferedTrades buffer replayFrom)

theorem Tracker.recoverWithCandles_eq (t : Tracker) (signal : TrackingSignalView) (anchor : Int)
    (coverageReason : CoverageFailure) (now : Int) (candles : List Candle1m)
    (buffer : List PublicTrade) :
    (t.recoverWithCandles signal anchor coverageReason now candles buffer).map Prod.fst =
      (t.applyRecovery signal anchor coverageReason now candles) >>= fun applied =>
        applied.1.replayBuffer buffer applied.2 := by
  unfold Tracker.recoverWithCandles Tracker.applyRecovery
  split_ifs
  · rfl
  · rfl
  · cases t.applyCandles anchor coverageReason candles with
    | error left => rfl
    | ok t' =>
      simp only [ok_bind]
      cases t'.signal with
      | none => rfl
      | some current =>
        simp only
        cases t'.covered.commit (recordTrackingEvent ·
            (recoveredRequest signal anchor now coverageReason candles.length)) with
        | error left => rfl
        | ok committed =>
          change ((committed.1.replayAndCheckpoint
            (bufferedTrades buffer (endOpenTime now + oneMinute))) >>= fun t =>
              pure (t, true)).map Prod.fst = committed.1.replayAndCheckpoint
                (bufferedTrades buffer (endOpenTime now + oneMinute))
          cases committed.1.replayAndCheckpoint
            (bufferedTrades buffer (endOpenTime now + oneMinute)) <;> rfl

theorem Tracker.establishCoverage_eq (t : Tracker) (input : CoverageInput) :
    t.establishCoverage input =
      (t.answered input.rest input.buffer input.now input.data) >>= fun applied =>
        applied.1.replayBuffer input.laterBuffer applied.2 := by
  unfold Tracker.establishCoverage Tracker.answered
  cases t.signal with
  | none => rfl
  | some signal =>
    cases t.coveragePending with
    | none => rfl
    | some anchor =>
      simp only
      split_ifs
      · cases t.acceptCoverage signal anchor _ <;> rfl
      · cases t.failCoverage signal anchor input.now _ <;> rfl
      · exact t.recoverWithCandles_eq signal anchor _ input.now _ input.laterBuffer

end Parts

section World

structure StreamSettings where
  queueSize : Nat
  bufferSize : Nat

/-- Where the consumer waits: for the next event, for the REST page of a coverage, or for the
store before it replays the buffer from an instant on. -/
inductive Consumer where
  | idle
  | covering (symbol : Symbol)
  | recovered (symbol : Symbol) (replayFrom : Int)
  deriving DecidableEq

structure StreamWorld where
  service : LifecycleService
  stream : TradeStream := {}
  consumer : Consumer := .idle
  received : List PublicTrade := []

inductive StreamAction where
  | receive (trade : PublicTrade)
  | connected (symbol : Symbol)
  | lost (symbol : Symbol)
  | dropped (symbol : Symbol)
  | put (symbol : Symbol)
  | pop (due : Bool) (life : Nat)
  | poll (symbol : Symbol) (now : Int) (life : Nat)
  | answer (rest : List PublicTrade) (now : Int) (data : MarketData) (life : Nat)
  | replay (life : Nat)
  | publish (candidates : List (SignalCandidateRecord × SignalCandidate))
      (config : SignalPolicyConfig) (publicationTime : Int)
  | killed

/-- The events of a symbol that are on their way to the consumer. -/
def TradeStream.onTheWay (stream : TradeStream) (symbol : Symbol) : List StreamEvent :=
  stream.events.filter (fun event => event.symbol = symbol) ++ (stream.putting symbol).toList

/-- A task that waits in `put` receives nothing, and without a task there is nothing to put. -/
def StreamWorld.offer (world : StreamWorld) (event : StreamEvent) : Except Unit StreamWorld :=
  if (world.service.memory event.symbol).subscribed ∧
      world.stream.putting event.symbol = none then
    .ok { world with stream := { world.stream with
      putting := fun other => if other = event.symbol then some event else world.stream.putting other } }
  else .error ()

/-- What an operation on a symbol leaves, and where the consumer waits then. A service that
has ended starts again with a stream of its own. -/
def StreamWorld.settle (world : StreamWorld) (symbol : Symbol) :
    Except Stopped (Tracker × Consumer) → StreamWorld
  | .ok (t, consumer) =>
    { world with
      service := {
        db := t.db
        memory := fun other => if other = symbol then t.toMemory else world.service.memory other
        calls := t.calls }
      stream :=
        if t.subscribed = (world.service.memory symbol).subscribed then world.stream
        else world.stream.reset symbol
      consumer := consumer }
  | .error left =>
    { world with
      service := { db := left.db, calls := left.calls }
      stream := {}
      consumer := .idle }

/-- `_establish_coverage` waits for the page if there is something to cover. -/
def Tracker.await (t : Tracker) (symbol : Symbol) : Tracker × Consumer :=
  (t, if t.signal.isSome ∧ t.coveragePending.isSome then .covering symbol else .idle)

/-- `_handle_event` up to the page. -/
def Tracker.take (t : Tracker) (due : Bool) : StreamEvent → Except Stopped (Tracker × Consumer)
  | .trade trade =>
    if t.coveragePending.isSome then .ok (t, .idle) else (t.processTrade trade due).map (·, .idle)
  | .disconnected _ => .ok (t.disconnect, .idle)
  | .ready symbol => .ok ({ t with streamReady := true }.await symbol)

/-- The consumer after the answered page. -/
def waiting (symbol : Symbol) : Option Int → Consumer
  | none => .idle
  | some replayFrom => .recovered symbol replayFrom

/-- An action that its party cannot take now does nothing. -/
def stream (settings : StreamSettings) (world : StreamWorld) :
    StreamAction → Except Unit StreamWorld
  | .receive trade => do
    let world ← world.offer (.trade trade)
    return { world with
      stream := { world.stream with
        buffers := fun other =>
          if other = trade.symbol then
            bufferAppend settings.bufferSize (world.stream.buffers other) trade
          else world.stream.buffers other }
      received := world.received ++ [trade] }
  | .connected symbol => world.offer (.ready symbol)
  | .lost symbol => world.offer (.disconnected symbol)
  -- the ten seconds of `_subscribe` can end while a trade waits for room
  | .dropped symbol =>
    match world.stream.putting symbol with
    | some (.trade _) =>
      .ok { world with stream := { world.stream with
        putting := fun other => if other = symbol then none else world.stream.putting other } }
    | _ => .error ()
  | .put symbol =>
    match world.stream.putting symbol with
    | none => .error ()
    | some event =>
      if world.stream.events.length < settings.queueSize then
        .ok { world with stream := { world.stream with
          events := world.stream.events ++ [event]
          putting := fun other => if other = symbol then none else world.stream.putting other } }
      else .error ()
  | .pop due life =>
    match world.consumer, world.stream.events with
    | .idle, event :: events =>
      let world := { world with stream := { world.stream with events := events } }
      .ok (world.settle event.symbol ((world.service.tracker event.symbol life).take due event))
    | _, _ => .error ()
  | .poll symbol now life =>
    match world.consumer with
    | .idle =>
      .ok (world.settle symbol (((world.service.tracker symbol life).poll symbol now).map
        fun polled => if polled.2 then polled.1.await symbol else (polled.1, .idle)))
    | _ => .error ()
  | .answer rest now data life =>
    match world.consumer with
    | .covering symbol =>
      .ok (world.settle symbol (((world.service.tracker symbol life).answered rest
        (world.stream.buffers symbol) now data).map fun applied =>
          (applied.1, waiting symbol applied.2)))
    | _ => .error ()
  | .replay life =>
    match world.consumer with
    | .recovered symbol replayFrom =>
      .ok (world.settle symbol (((world.service.tracker symbol life).replayBuffer
        (world.stream.buffers symbol) (some replayFrom)).map (·, .idle)))
    | _ => .error ()
  | .publish candidates config publicationTime =>
    .ok { world with service := world.service.step (.publish candidates config publicationTime) }
  | .killed => .ok { world with
      service := world.service.step .killed, stream := {}, consumer := .idle }

def StreamWorld.initial (instruments : List InstrumentRecord)
    (snapshots : List AnalysisSnapshotRecord) (candidates : List SignalCandidateRecord) :
    StreamWorld where
  service := LifecycleService.initial instruments snapshots candidates

end World

end StructurePulse.Service
