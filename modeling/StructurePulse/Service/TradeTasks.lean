import StructurePulse.Service.Streaming

/-!
# The tasks of the trade stream

Every subscribed symbol has a task with a connection of its own. It reports a lost connection
at once, and a new one only when the first trade of it is in the buffer. `received` and
`handed` are not part of the code: they record what a task has appended to its buffer and what
it has given to `put`.
-/

namespace StructurePulse.Service
open Signals Store Strategy Library
set_option autoImplicit false

section Messages

/-- An entry of a public trade message; its texts are numbers. -/
structure TradeItem where
  timeMs : Int
  symbol : String
  side : TradeSide
  size : ℚ
  price : ℚ
  tradeId : String
  isBlockTrade : Bool := false
  isRpiTrade : Bool := false
  sequence : Int
  deriving Repr, DecidableEq

structure TradeMessage where
  topic : String
  data : List TradeItem
  deriving Repr, DecidableEq

/-- A message of another topic has no trades. -/
def parsePublicTrades (upper : String → String) (message : TradeMessage) : List PublicTrade :=
  match message.topic.dropPrefix? "publicTrade." with
  | none => []
  | some symbol =>
    sortedBy PublicTrade.key ((message.data.filter fun item =>
      decide (upper item.symbol = upper symbol.copy)).map fun item =>
        { tradeId := item.tradeId
          symbol := upper item.symbol
          price := item.price
          size := item.size
          side := item.side
          executedAt := item.timeMs * 1000
          sequence := item.sequence
          isBlockTrade := item.isBlockTrade
          isRpiTrade := item.isRpiTrade })

end Messages

section Tasks

/-- Where `_run_symbol` stands. `isBuffered` is `first_trade_buffered`; a connection is due to
be announced from its first message with trades on. `failed` is in the `except` block. -/
inductive TradePhase where
  | connecting
  | subscribing (isBuffered : Bool)
  | receiving (readyEmitted isDue : Bool)
  | failed (reason : String)
  | sleeping (delay : ℚ)
  deriving Repr, DecidableEq

/-- `pending` are the trades of the last message that are still to be buffered. -/
structure TradeTask where
  attempt : Nat := 0
  isReady : Bool := false
  phase : TradePhase := .connecting
  pending : List PublicTrade := []
  received : List PublicTrade := []
  handed : List StreamEvent := []
  deriving DecidableEq

inductive TradeAction where
  | connect
  | receive (message : TradeMessage)
  | take
  | acknowledge
  | announce
  | fail (reason : String)
  | pause (jitter : ℚ)
  | wake

structure TaskSettings extends StreamSettings where
  reconnectBase : ℚ
  reconnectMax : ℚ
  upper : String → String

/-- The exponential part; `random.uniform` adds up to a quarter of it. -/
def TaskSettings.reconnectDelay (settings : TaskSettings) (attempt : Nat) (jitter : ℚ) : ℚ :=
  let exponential := min settings.reconnectMax (settings.reconnectBase * 2 ^ attempt)
  exponential + jitter * (exponential / 4)

variable (settings : TaskSettings) (symbol : Symbol)

/-- The start of the `except` block. -/
def TradeTask.lose (world : StreamWorld) (task : TradeTask) (reason : String) :
    Except Unit (StreamWorld × TradeTask) := do
  let world ← stream settings.toStreamSettings world (.lost symbol)
  return (world, { task with
    isReady := false
    phase := .failed reason
    pending := []
    handed := task.handed ++ [.disconnected symbol] })

/-- One step of the task of a symbol. Its connection has no other subscription. -/
def taskStep (world : StreamWorld) (task : TradeTask) :
    TradeAction → Except Unit (StreamWorld × TradeTask)
  | .connect =>
    match task.phase with
    | .connecting => .ok (world, { task with phase := .subscribing false })
    | _ => .error ()
  | .receive message =>
    let trades := parsePublicTrades settings.upper message
    if task.pending = [] ∧ world.stream.putting symbol = none ∧
        ∀ trade ∈ trades, trade.symbol = symbol then
      match task.phase with
      | .subscribing isBuffered =>
        .ok (world, { task with
          phase := .subscribing (!trades.isEmpty || isBuffered)
          pending := trades })
      | .receiving readyEmitted false =>
        .ok (world, { task with
          phase := .receiving readyEmitted (!trades.isEmpty && !readyEmitted)
          pending := trades })
      | _ => .error ()
    else .error ()
  | .take =>
    match task.pending with
    | [] => .error ()
    | trade :: pending => do
      let world ← stream settings.toStreamSettings world (.receive trade)
      return (world, { task with
        pending := pending
        received := task.received ++ [trade]
        handed := task.handed ++ [.trade trade] })
  | .acknowledge =>
    match task.phase with
    | .subscribing isBuffered =>
      if task.pending = [] ∧ world.stream.putting symbol = none then
        .ok (world, { task with attempt := 0, phase := .receiving false isBuffered })
      else .error ()
    | _ => .error ()
  | .announce =>
    match task.phase, task.pending with
    | .receiving false true, [] => do
      let world ← stream settings.toStreamSettings world (.connected symbol)
      return (world, { task with
        isReady := true
        phase := .receiving true false
        handed := task.handed ++ [.ready symbol] })
    | _, _ => .error ()
  | .fail reason =>
    match task.phase, task.pending with
    | .connecting, _ => task.lose settings symbol world reason
    | .subscribing _, _ =>
      match world.stream.putting symbol with
      | none => task.lose settings symbol world reason
      | some _ => do
        let world ← stream settings.toStreamSettings world (.dropped symbol)
        { task with handed := task.handed.dropLast }.lose settings symbol world reason
    | .receiving _ false, [] => task.lose settings symbol world reason
    | _, _ => .error ()
  | .pause jitter =>
    match task.phase, world.stream.putting symbol with
    | .failed _, none =>
      .ok (world, { task with
        attempt := task.attempt + 1
        phase := .sleeping (settings.reconnectDelay task.attempt jitter) })
    | _, _ => .error ()
  | .wake =>
    match task.phase with
    | .sleeping _ => .ok (world, { task with phase := .connecting })
    | _ => .error ()

end Tasks

section World

structure TaskedWorld extends StreamWorld where
  tasks : Symbol → Option TradeTask := fun _ => none

inductive TaskedAction where
  | task (symbol : Symbol) (action : TradeAction)
  | service (action : StreamAction)

/-- Only a task hands over events. -/
def StreamAction.ofTask : StreamAction → Bool
  | .receive _ | .connected _ | .lost _ | .dropped _ => true
  | _ => false

def StreamWorld.isSubscribed (world : StreamWorld) (symbol : Symbol) : Bool :=
  (world.service.memory symbol).subscribed

/-- `subscribe` creates a task and `unsubscribe` cancels it. -/
def retask (before after : StreamWorld) (tasks : Symbol → Option TradeTask) (symbol : Symbol) :
    Option TradeTask :=
  if after.isSubscribed symbol then
    if before.isSubscribed symbol then tasks symbol else some {}
  else none

def taskedStep (settings : TaskSettings) (world : TaskedWorld) :
    TaskedAction → Except Unit TaskedWorld
  | .task symbol action =>
    match world.tasks symbol with
    | none => .error ()
    | some task => do
      let (next, task) ← taskStep settings symbol world.toStreamWorld task action
      return {
        toStreamWorld := next
        tasks := fun other => if other = symbol then some task else world.tasks other }
  | .service action =>
    if action.ofTask then .error ()
    else do
      let next ← stream settings.toStreamSettings world.toStreamWorld action
      return { toStreamWorld := next, tasks := retask world.toStreamWorld next world.tasks }

end World

section Sessions

/-- What the events of a task tell about its connection. -/
inductive StreamSession where
  | silent
  | flowing
  | ready
  deriving Repr, DecidableEq

/-- A connection is announced once, after its first trade. -/
def StreamSession.next : StreamSession → StreamEvent → Option StreamSession
  | .silent, .trade _ => some .flowing
  | .flowing, .trade _ => some .flowing
  | .ready, .trade _ => some .ready
  | .flowing, .ready _ => some .ready
  | .silent, .ready _ => none
  | .ready, .ready _ => none
  | _, .disconnected _ => some .silent

def sessionAfter (events : List StreamEvent) : Option StreamSession :=
  events.foldlM StreamSession.next .silent

theorem sessionAfter_snoc (events : List StreamEvent) (event : StreamEvent) :
    sessionAfter (events ++ [event]) = (sessionAfter events).bind fun session =>
      session.next event := by
  unfold sessionAfter
  rw [List.foldlM_append]
  cases events.foldlM StreamSession.next .silent with
  | none => rfl
  | some session =>
    simp only [Option.bind_eq_bind, Option.bind_some, List.foldlM_cons, List.foldlM_nil, bind_pure]

theorem sessionAfter_disconnected {events : List StreamEvent} {session : StreamSession}
    (h : sessionAfter events = some session) (symbol : Symbol) :
    sessionAfter (events ++ [.disconnected symbol]) = some .silent := by
  rw [sessionAfter_snoc, h]
  cases session <;> rfl

/-- A beginning of well-formed events is well formed. -/
theorem sessionAfter_of_append {events more : List StreamEvent} {session : StreamSession}
    (h : sessionAfter (events ++ more) = some session) :
    ∃ earlier, sessionAfter events = some earlier := by
  unfold sessionAfter at h ⊢
  rw [List.foldlM_append] at h
  cases hevents : events.foldlM StreamSession.next .silent with
  | none =>
    rw [hevents] at h
    cases h
  | some earlier => exact ⟨earlier, rfl⟩

end Sessions

end StructurePulse.Service
