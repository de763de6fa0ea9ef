import StructurePulse.MarketData.Tracking

/-!
# The kline shards and their event queue

Each shard is a task with its own connection; all of them put their events on one bounded
queue, from which `LiveMarketDataService.run` takes one at a time. A shard reports a lost
connection once and the next subscription once, so what the service has taken tells it, for
each shard, whether the shard is connected, up to the events still queued.
-/

namespace StructurePulse.Live
open Library MarketData Universe Store
set_option autoImplicit false

section Messages

/-- An entry of a kline message; its texts are numbers. -/
structure KlineItem where
  start : Int
  interval : String
  openPrice : ℚ
  closePrice : ℚ
  highPrice : ℚ
  lowPrice : ℚ
  volume : ℚ
  turnover : ℚ
  confirm : Bool
  deriving Repr, DecidableEq

structure KlineMessage where
  topic : String
  data : List KlineItem
  deriving Repr, DecidableEq

/-- A message of another topic has no candles; a start is in milliseconds. -/
def parseClosed1mCandles (upper : String → String) (message : KlineMessage) : List Candle1m :=
  match message.topic.dropPrefix? "kline.1." with
  | none => []
  | some symbol =>
    (message.data.filter fun item => item.confirm && item.interval == "1").map fun item =>
      { symbol := upper symbol.copy
        openTime := item.start * 1000
        openPrice := item.openPrice
        highPrice := item.highPrice
        lowPrice := item.lowPrice
        closePrice := item.closePrice
        volume := item.volume
        turnover := item.turnover }

/-- `shard` is the position of the task that put the event. -/
inductive MarketStreamEvent where
  | closedCandle (candle : Candle1m)
  | shardDisconnected (shard : Nat) (symbols : List Symbol) (reason : String)
  | shardReconnected (shard : Nat) (symbols : List Symbol)
  deriving Repr, DecidableEq

/-- How the service handles an event. -/
def MarketStreamEvent.action (event : MarketStreamEvent) (now : Int) : LiveAction :=
  match event with
  | .closedCandle candle => .candle candle now
  | .shardDisconnected shard _ reason => .disconnected shard reason
  | .shardReconnected shard _ => .reconnected shard

end Messages

section Tasks

/-- Where `_run_shard` stands: `acknowledged` has the subscription and an event to put,
`failed` is in the `except` block. -/
inductive ShardPhase where
  | connecting
  | subscribing
  | acknowledged
  | receiving
  | failed (reason : String)
  | sleeping (delay : ℚ)
  deriving Repr, DecidableEq

/-- `pending` are the candles of the last message that are still to be put. -/
structure ShardTask where
  symbols : List Symbol
  connectedOnce : Bool := false
  disconnectNotified : Bool := false
  attempt : Nat := 0
  isReady : Bool := false
  phase : ShardPhase := .connecting
  pending : List Candle1m := []
  deriving Repr, DecidableEq

inductive ShardAction where
  | connect
  | receive (message : KlineMessage)
  | put
  | acknowledge
  | announce
  | fail (reason : String)
  | report (jitter : ℚ)
  | wake

structure ReconnectSettings where
  queueSize : Nat
  reconnectBase : ℚ
  reconnectMax : ℚ

/-- The exponential part; `random.uniform` adds up to a quarter of it. -/
def reconnectDelay (reconnect : ReconnectSettings) (attempt : Nat) (jitter : ℚ) : ℚ :=
  let exponential := min reconnect.reconnectMax (reconnect.reconnectBase * 2 ^ attempt)
  exponential + jitter * (exponential / 4)

/-- `put` does not wait: a queue without a maximum is never full. -/
def hasRoom (reconnect : ReconnectSettings) (queue : List MarketStreamEvent) : Bool :=
  reconnect.queueSize == 0 || decide (queue.length < reconnect.queueSize)

/-- One step of the task at a position, and the queue after it. -/
def shardStep (upper : String → String) (reconnect : ReconnectSettings) (shard : Nat)
    (task : ShardTask) (queue : List MarketStreamEvent) :
    ShardAction → Except Unit (ShardTask × List MarketStreamEvent)
  | .connect =>
    match task.phase with
    | .connecting => .ok ({ task with phase := .subscribing }, queue)
    | _ => .error ()
  | .receive message =>
    match task.phase, task.pending with
    | .subscribing, [] => .ok ({ task with pending := parseClosed1mCandles upper message }, queue)
    | .receiving, [] => .ok ({ task with pending := parseClosed1mCandles upper message }, queue)
    | _, _ => .error ()
  | .put =>
    match task.pending with
    | [] => .error ()
    | candle :: pending =>
      if hasRoom reconnect queue then
        .ok ({ task with pending := pending }, queue ++ [.closedCandle candle])
      else .error ()
  | .acknowledge =>
    match task.phase, task.pending with
    | .subscribing, [] =>
      if task.connectedOnce then .ok ({ task with phase := .acknowledged }, queue)
      else
        .ok ({ task with
          connectedOnce := true
          isReady := true
          disconnectNotified := false
          attempt := 0
          phase := .receiving }, queue)
    | _, _ => .error ()
  | .announce =>
    match task.phase with
    | .acknowledged =>
      if hasRoom reconnect queue then
        .ok ({ task with disconnectNotified := false, attempt := 0, phase := .receiving },
          queue ++ [.shardReconnected shard task.symbols])
      else .error ()
    | _ => .error ()
  | .fail reason =>
    match task.phase, task.pending with
    | .connecting, _ => .ok ({ task with phase := .failed reason }, queue)
    -- the ten seconds of `_subscribe` can also end while a candle waits for room
    | .subscribing, _ => .ok ({ task with phase := .failed reason, pending := [] }, queue)
    | .receiving, [] => .ok ({ task with phase := .failed reason }, queue)
    | _, _ => .error ()
  | .report jitter =>
    match task.phase with
    | .failed reason =>
      let sleeping := { task with
        attempt := task.attempt + 1
        phase := .sleeping (reconnectDelay reconnect task.attempt jitter) }
      if task.connectedOnce ∧ ¬task.disconnectNotified then
        if hasRoom reconnect queue then
          .ok ({ sleeping with disconnectNotified := true },
            queue ++ [.shardDisconnected shard task.symbols reason])
        else .error ()
      else .ok (sleeping, queue)
    | _ => .error ()
  | .wake =>
    match task.phase with
    | .sleeping _ => .ok ({ task with phase := .connecting }, queue)
    | _ => .error ()

end Tasks

section World

/-- The service, the tasks of the stream manager and the queue between them. -/
structure StreamedWorld where
  live : LiveWorld
  tasks : List ShardTask := []
  queue : List MarketStreamEvent := []

inductive StreamedAction where
  | shard (index : Nat) (action : ShardAction)
  | next (now : Int)
  | live (action : LiveAction)

/-- `start`: the old tasks are cancelled, the queue is emptied. -/
def startShards (stream : List Shard) : List ShardTask :=
  stream.map fun shard => { symbols := shard.symbols }

/-- An event is taken when the service waits for one, and a sync waits until every shard has
been connected once. The service has no other events than those of the queue. -/
def streamedStep (settings : Settings) (reconnect : ReconnectSettings) (world : StreamedWorld) :
    StreamedAction → Except Unit StreamedWorld
  | .shard index action =>
    match world.tasks[index]? with
    | none => .error ()
    | some task => do
      let (task, queue) ← shardStep settings.upper reconnect index task world.queue action
      return { world with tasks := world.tasks.set index task, queue := queue }
  | .next now =>
    match world.live.phase, world.queue with
    | .waiting, event :: queue => do
      let live ← step settings world.live (event.action now)
      return { world with live := live, queue := queue }
    | _, _ => .error ()
  | .live (.candle _ _) => .error ()
  | .live (.disconnected _ _) => .error ()
  | .live (.reconnected _) => .error ()
  | .live .connect => do
    let live ← step settings world.live .connect
    return { live := live, tasks := startShards live.stream, queue := [] }
  | .live (.sync serverTime) =>
    if world.tasks.all ShardTask.isReady then do
      let live ← step settings world.live (.sync serverTime)
      return { world with live := live }
    else .error ()
  | .live action => do
    let live ← step settings world.live action
    return { world with live := live }

end World

section Reports

/-- The shard whose connection the event is about. -/
def MarketStreamEvent.shard? : MarketStreamEvent → Option Nat
  | .closedCandle _ => none
  | .shardDisconnected shard _ _ => some shard
  | .shardReconnected shard _ => some shard

def MarketStreamEvent.symbols : MarketStreamEvent → List Symbol
  | .closedCandle candle => [candle.symbol]
  | .shardDisconnected _ symbols _ => symbols
  | .shardReconnected _ symbols => symbols

/-- Whether the shard was connected before the event, and whether it is after it. -/
def MarketStreamEvent.connectedBefore : MarketStreamEvent → Bool
  | .shardReconnected _ _ => false
  | _ => true

def MarketStreamEvent.connectedAfter (event : MarketStreamEvent) : Bool := !event.connectedBefore

/-- The queued events about one shard. -/
def reportsOf (index : Nat) (queue : List MarketStreamEvent) : List MarketStreamEvent :=
  queue.filter fun event => decide (event.shard? = some index)

/-- What the phases say about the flags of the task. -/
def ShardTask.Consistent (task : ShardTask) : Prop :=
  match task.phase with
  | .receiving => task.connectedOnce = true ∧ task.disconnectNotified = false
  | .acknowledged => task.connectedOnce = true ∧ task.disconnectNotified = true
  | .failed _ => task.disconnectNotified = true → task.connectedOnce = true
  | _ => task.disconnectNotified = task.connectedOnce

/-- The service's view of a shard, continued by the queued events, is the task's own. -/
structure Linked (queue : List MarketStreamEvent) (index : Nat) (shard : Shard) (task : ShardTask) :
    Prop where
  symbols : task.symbols = shard.symbols
  chain : Chained MarketStreamEvent.connectedBefore MarketStreamEvent.connectedAfter
    shard.isConnected (reportsOf index queue) (!task.disconnectNotified)
  own : ∀ event ∈ reportsOf index queue, event.symbols = shard.symbols
  consistent : task.Consistent

variable {queue : List MarketStreamEvent} {index : Nat} {shard : Shard} {task : ShardTask}

theorem reportsOf_append (index : Nat) (queue : List MarketStreamEvent) (event : MarketStreamEvent) :
    reportsOf index (queue ++ [event]) =
      if event.shard? = some index then reportsOf index queue ++ [event] else reportsOf index queue := by
  unfold reportsOf
  rw [List.filter_append, List.filter_singleton]
  by_cases h : event.shard? = some index
  · simp [h]
  · simp [h]

theorem reportsOf_cons (index : Nat) (event : MarketStreamEvent) (queue : List MarketStreamEvent) :
    reportsOf index (event :: queue) =
      if event.shard? = some index then event :: reportsOf index queue else reportsOf index queue := by
  unfold reportsOf
  rw [List.filter_cons]
  by_cases h : event.shard? = some index
  · simp [h]
  · simp [h]

/-- An event about another shard or none. -/
theorem Linked.append_other (h : Linked queue index shard task) {event : MarketStreamEvent}
    (hevent : event.shard? ≠ some index) : Linked (queue ++ [event]) index shard task := by
  refine ⟨h.symbols, ?_, ?_, h.consistent⟩
  · rw [reportsOf_append, if_neg hevent]
    exact h.chain
  · rw [reportsOf_append, if_neg hevent]
    exact h.own

/-- A change of the task that neither its symbols nor its report show. -/
theorem Linked.with_task (h : Linked queue index shard task) {next : ShardTask}
    (hsymbols : next.symbols = task.symbols)
    (hnotified : next.disconnectNotified = task.disconnectNotified) (hnext : next.Consistent) :
    Linked queue index shard next := by
  refine ⟨hsymbols.trans h.symbols, ?_, h.own, hnext⟩
  rw [hnotified]
  exact h.chain

/-- The task reports what the service does not know yet. -/
theorem Linked.report (h : Linked queue index shard task) {next : ShardTask}
    {event : MarketStreamEvent} (hsymbols : next.symbols = task.symbols) (hnext : next.Consistent)
    (hevent : event.shard? = some index) (hown : event.symbols = task.symbols)
    (hbefore : event.connectedBefore = !task.disconnectNotified)
    (hafter : event.connectedAfter = !next.disconnectNotified) :
    Linked (queue ++ [event]) index shard next := by
  refine ⟨hsymbols.trans h.symbols, ?_, ?_, hnext⟩
  · rw [reportsOf_append, if_pos hevent, ← hafter]
    exact h.chain.snoc hbefore
  · rw [reportsOf_append, if_pos hevent]
    exact forall_mem_append_singleton h.own (hown.trans h.symbols)

/-- What one step of a task does to its own link and to those of the others. -/
theorem shardStep_linked {upper : String → String} {reconnect : ReconnectSettings}
    {action : ShardAction} {next : ShardTask} {later : List MarketStreamEvent}
    (h : Linked queue index shard task)
    (hstep : shardStep upper reconnect index task queue action = .ok (next, later)) :
    Linked later index shard next ∧
      (later = queue ∨ ∃ event, later = queue ++ [event] ∧
        ∀ other, event.shard? = some other → other = index) := by
  have hconsistent := h.consistent
  unfold ShardTask.Consistent at hconsistent
  cases action with
  | connect =>
    simp only [shardStep] at hstep
    split at hstep
    · rename_i hphase
      cases hstep
      rw [hphase] at hconsistent
      exact ⟨h.with_task rfl rfl hconsistent, Or.inl rfl⟩
    · cases hstep
  | receive message =>
    simp only [shardStep] at hstep
    split at hstep
    · rename_i hphase _
      cases hstep
      refine ⟨h.with_task rfl rfl ?_, Or.inl rfl⟩
      unfold ShardTask.Consistent
      simp only [hphase] at hconsistent ⊢
      exact hconsistent
    · rename_i hphase _
      cases hstep
      refine ⟨h.with_task rfl rfl ?_, Or.inl rfl⟩
      unfold ShardTask.Consistent
      simp only [hphase] at hconsistent ⊢
      exact hconsistent
    · cases hstep
  | put =>
    simp only [shardStep] at hstep
    split at hstep
    · cases hstep
    · rename_i candle pending _
      split at hstep
      · cases hstep
        have hother : (MarketStreamEvent.closedCandle candle).shard? ≠ some index := by
          intro hshard
          cases hshard
        have hlinked : Linked queue index shard { task with pending := pending } :=
          h.with_task rfl rfl h.consistent
        refine ⟨hlinked.append_other hother, Or.inr ⟨_, rfl, ?_⟩⟩
        intro other hshard
        cases hshard
      · cases hstep
  | acknowledge =>
    simp only [shardStep] at hstep
    split at hstep
    · rename_i hphase _
      rw [hphase] at hconsistent
      split at hstep
      · rename_i honce
        cases hstep
        exact ⟨h.with_task rfl rfl ⟨honce, hconsistent.trans honce⟩, Or.inl rfl⟩
      · rename_i honce
        cases hstep
        rw [Bool.not_eq_true] at honce
        exact ⟨h.with_task rfl (hconsistent.trans honce).symm ⟨rfl, rfl⟩, Or.inl rfl⟩
    · cases hstep
  | announce =>
    simp only [shardStep] at hstep
    split at hstep
    · rename_i hphase
      rw [hphase] at hconsistent
      split at hstep
      · cases hstep
        refine ⟨h.report rfl ⟨hconsistent.1, rfl⟩ rfl rfl ?_ rfl, Or.inr ⟨_, rfl, ?_⟩⟩
        · rw [hconsistent.2]
          rfl
        · intro other hother
          exact (Option.some.inj hother).symm
      · cases hstep
    · cases hstep
  | fail reason =>
    simp only [shardStep] at hstep
    split at hstep
    · rename_i hphase
      rw [hphase] at hconsistent
      cases hstep
      exact ⟨h.with_task rfl rfl fun hnotified => hconsistent ▸ hnotified, Or.inl rfl⟩
    · rename_i hphase
      rw [hphase] at hconsistent
      cases hstep
      exact ⟨h.with_task rfl rfl fun hnotified => hconsistent ▸ hnotified, Or.inl rfl⟩
    · rename_i hphase _
      rw [hphase] at hconsistent
      cases hstep
      exact ⟨h.with_task rfl rfl fun _ => hconsistent.1, Or.inl rfl⟩
    · cases hstep
  | report jitter =>
    simp only [shardStep] at hstep
    split at hstep
    · rename_i reason hphase
      rw [hphase] at hconsistent
      split at hstep
      · rename_i hdue
        obtain ⟨honce, hsilent⟩ := hdue
        rw [Bool.not_eq_true] at hsilent
        split at hstep
        · cases hstep
          refine ⟨h.report rfl honce.symm rfl rfl ?_ rfl, Or.inr ⟨_, rfl, ?_⟩⟩
          · rw [hsilent]
            rfl
          · intro other hother
            exact (Option.some.inj hother).symm
        · cases hstep
      · rename_i hdue
        cases hstep
        refine ⟨h.with_task rfl rfl ?_, Or.inl rfl⟩
        change task.disconnectNotified = task.connectedOnce
        cases hnotified : task.disconnectNotified with
        | true => exact (hconsistent hnotified).symm
        | false =>
          rw [hnotified] at hdue
          cases honce : task.connectedOnce with
          | true => exact absurd ⟨honce, Bool.false_ne_true⟩ hdue
          | false => rfl
    · cases hstep
  | wake =>
    simp only [shardStep] at hstep
    split at hstep
    · rename_i hphase
      rw [hphase] at hconsistent
      cases hstep
      exact ⟨h.with_task rfl rfl hconsistent, Or.inl rfl⟩
    · cases hstep

end Reports

section Queue
variable {queue : List MarketStreamEvent} {index : Nat} {shard : Shard} {task : ShardTask}
  {event : MarketStreamEvent}

/-- The service takes an event about another shard or none. -/
theorem Linked.passed (h : Linked (event :: queue) index shard task)
    (hevent : event.shard? ≠ some index) : Linked queue index shard task := by
  have hreports : reportsOf index (event :: queue) = reportsOf index queue := by
    rw [reportsOf_cons, if_neg hevent]
  obtain ⟨hsymbols, hchain, hown, hconsistent⟩ := h
  rw [hreports] at hchain hown
  exact ⟨hsymbols, hchain, hown, hconsistent⟩

/-- The service takes a report of this shard. -/
theorem Linked.taken (h : Linked (event :: queue) index shard task)
    (hevent : event.shard? = some index) :
    event.connectedBefore = shard.isConnected ∧ event.symbols = shard.symbols ∧
      Linked queue index { shard with isConnected := event.connectedAfter } task := by
  have hreports : reportsOf index (event :: queue) = event :: reportsOf index queue := by
    rw [reportsOf_cons, if_pos hevent]
  obtain ⟨hsymbols, hchain, hown, hconsistent⟩ := h
  rw [hreports] at hchain hown
  refine ⟨hchain.1, hown event List.mem_cons_self, hsymbols, hchain.2, ?_, hconsistent⟩
  intro other hother
  exact hown other (List.mem_cons_of_mem event hother)

theorem linked_initial (index : Nat) (shard : Shard) (hconnected : shard.isConnected = true) :
    Linked [] index shard { symbols := shard.symbols } := by
  refine ⟨rfl, hconnected, ?_, rfl⟩
  intro event hevent
  cases hevent

theorem getElem?_setConnected (stream : List Shard) (index position : Nat) (isConnected : Bool) :
    (setConnected stream index isConnected)[position]? =
      if index = position then
        stream[position]?.map fun shard => { shard with isConnected := isConnected }
      else stream[position]? := by
  unfold setConnected
  rw [List.getElem?_modify]
  rcases stream[position]? with _ | shard
  · simp
  · split <;> rfl

theorem length_setConnected (stream : List Shard) (index : Nat) (isConnected : Bool) :
    (setConnected stream index isConnected).length = stream.length := by
  unfold setConnected
  rw [List.length_modify]

end Queue

section Service
variable {settings : Settings} {world next : LiveWorld}

/-- The actions with which the service changes what it knows of the stream. -/
def LiveAction.touchesStream : LiveAction → Bool
  | .connect | .disconnected _ _ | .reconnected _ => true
  | _ => false

theorem marketStep_stream {action : MarketData.Action} {phase : Phase}
    (h : marketStep settings world action phase = .ok next) : next.stream = world.stream := by
  obtain ⟨market, -, rfl⟩ := marketStep_ok h
  rfl

theorem refreshUniverse_stream {answers : Option ProviderAnswers} {now : Int} {atStart : Bool}
    (h : refreshUniverse settings world answers now atStart = .ok next) :
    next.stream = world.stream := by
  obtain ⟨tables, -, hnext⟩ := bind_eq_ok.mp h
  cases hnext
  rfl

theorem selectSymbols_stream (world : LiveWorld) (atStart : Bool) :
    (selectSymbols world atStart).stream = world.stream := by
  unfold selectSymbols
  simp only
  split <;> split <;> rfl

theorem ingestCandle_stream {candle : Candle1m} {now : Int}
    (h : ingestCandle world candle now = .ok next) : next.stream = world.stream := by
  obtain ⟨ingested, -, hnext⟩ := bind_eq_ok.mp h
  cases hnext
  rfl

/-- Everything else leaves the stream as it is. -/
theorem step_stream {action : LiveAction} (haction : action.touchesStream = false)
    (h : Live.step settings world action = .ok next) : next.stream = world.stream := by
  cases action with
  | connect | disconnected _ _ | reconnected _ => cases haction
  | refresh answers now =>
    simp only [Live.step] at h
    split at h
    · exact refreshUniverse_stream h
    · exact refreshUniverse_stream h
    · cases h
  | select =>
    simp only [Live.step] at h
    split at h
    · cases h
      exact selectSymbols_stream world _
    · cases h
  | markInactive | markWarming | sync _ | degrade | recover =>
    simp only [Live.step] at h
    split at h
    · exact marketStep_stream h
    · cases h
  | task action =>
    simp only [Live.step] at h
    split at h
    · split at h
      · exact marketStep_stream h
      · cases h
    · cases h
  | finish =>
    simp only [Live.step] at h
    split at h
    · split at h
      · cases h
        rfl
      · cases h
    · cases h
  | candle candle now =>
    simp only [Live.step] at h
    split at h
    · exact ingestCandle_stream h
    · cases h
  | repair candles now => exact marketStep_stream h
  | quiesce =>
    cases h
    rfl
  | reconcile | gap | wake | cycle | store _ =>
    simp only [Live.step] at h
    split at h
    · cases h
      rfl
    · cases h

/-- The statement of a single candle updates no row twice. -/
theorem ingestCandle_accepts (world : LiveWorld) (candle : Candle1m) (now : Int) :
    ∃ next, ingestCandle world candle now = .ok next := by
  have hnodup : ([candle].map candleKey).Nodup := List.nodup_singleton _
  obtain ⟨tables, hwrite⟩ :
      ∃ tables, writeCandles world.market.tables [candle] 0 true now = .ok tables := by
    unfold writeCandles upsertCandles
    rw [if_pos hnodup, ok_bind]
    exact ⟨_, rfl⟩
  obtain ⟨ingested, hingest⟩ : ∃ ingested,
      ingestLiveCandle world.market.tables streamName candle now = .ok ingested := by
    unfold ingestLiveCandle
    simp only [hwrite, ok_bind]
    split
    · exact ⟨_, rfl⟩
    · split
      · exact ⟨_, rfl⟩
      · split
        · exact ⟨_, rfl⟩
        · exact ⟨_, rfl⟩
  unfold ingestCandle
  rw [hingest, ok_bind]
  exact ⟨_, rfl⟩

end Service

section Invariant
variable {settings : Settings} {reconnect : ReconnectSettings} {world next : StreamedWorld}

/-- Every task is linked with the shard at its position, and every report is about one. -/
structure Streamed (world : StreamedWorld) : Prop where
  length : world.tasks.length = world.live.stream.length
  linked : ∀ index task shard, world.tasks[index]? = some task →
    world.live.stream[index]? = some shard → Linked world.queue index shard task
  queued : ∀ event ∈ world.queue, ∀ index ∈ event.shard?, index < world.tasks.length

theorem Streamed.shard_at (h : Streamed world) {index : Nat} (hindex : index < world.tasks.length) :
    ∃ task shard, world.tasks[index]? = some task ∧ world.live.stream[index]? = some shard ∧
      Linked world.queue index shard task := by
  have htask := List.getElem?_eq_getElem hindex
  have hshard := List.getElem?_eq_getElem (h.length ▸ hindex)
  exact ⟨_, _, htask, hshard, h.linked index _ _ htask hshard⟩

/-- A step of the service that takes no event and leaves the stream alone. -/
theorem Streamed.with_live (h : Streamed world) {live : LiveWorld}
    (hstream : live.stream = world.live.stream) : Streamed { world with live := live } := by
  refine ⟨?_, ?_, h.queued⟩
  · rw [hstream]
    exact h.length
  · intro index task shard htask hshard
    rw [hstream] at hshard
    exact h.linked index task shard htask hshard

/-- A step of one task. -/
theorem Streamed.with_shard (h : Streamed world) {index : Nat} {task after : ShardTask}
    {later : List MarketStreamEvent} {action : ShardAction} (htask : world.tasks[index]? = some task)
    (hstep : shardStep settings.upper reconnect index task world.queue action = .ok (after, later)) :
    Streamed { world with tasks := world.tasks.set index after, queue := later } := by
  have hindex : index < world.tasks.length := (List.getElem?_eq_some_iff.mp htask).1
  obtain ⟨own, shard, hown, hshard, hlinked⟩ := h.shard_at hindex
  rw [htask] at hown
  cases hown
  obtain ⟨hnext, hlater⟩ := shardStep_linked hlinked hstep
  refine ⟨?_, ?_, ?_⟩
  · rw [List.length_set]
    exact h.length
  · intro position other shard' hother hshard'
    by_cases hposition : index = position
    · subst hposition
      rw [List.getElem?_set_self hindex] at hother
      rw [hshard] at hshard'
      cases hother
      cases hshard'
      exact hnext
    · rw [List.getElem?_set_ne hposition] at hother
      have hold := h.linked position other shard' hother hshard'
      rcases hlater with rfl | ⟨event, rfl, habout⟩
      · exact hold
      · apply hold.append_other
        intro hevent
        exact hposition (habout position hevent).symm
  · intro event hevent position hposition
    rw [List.length_set]
    rcases hlater with rfl | ⟨added, rfl, habout⟩
    · exact h.queued event hevent position hposition
    · rcases List.mem_append.mp hevent with hold | hadded
      · exact h.queued event hold position hposition
      · rw [List.mem_singleton.mp hadded] at hposition
        rw [habout position hposition]
        exact hindex

/-- The service takes an event that is about no shard. -/
theorem Streamed.with_candle (h : Streamed world) {candle : Candle1m}
    {queue : List MarketStreamEvent} {live : LiveWorld}
    (hqueue : world.queue = .closedCandle candle :: queue)
    (hstream : live.stream = world.live.stream) :
    Streamed { world with live := live, queue := queue } := by
  refine ⟨?_, ?_, ?_⟩
  · rw [hstream]
    exact h.length
  · intro index task shard htask hshard
    rw [hstream] at hshard
    have hlinked := h.linked index task shard htask hshard
    rw [hqueue] at hlinked
    apply hlinked.passed
    intro hevent
    cases hevent
  · intro event hevent
    apply h.queued event
    rw [hqueue]
    exact List.mem_cons_of_mem _ hevent

/-- The service takes the report of a shard. -/
theorem Streamed.with_report (h : Streamed world) {event : MarketStreamEvent} {index : Nat}
    {queue : List MarketStreamEvent} {live : LiveWorld} (hevent : event.shard? = some index)
    (hqueue : world.queue = event :: queue)
    (hstream : live.stream = setConnected world.live.stream index event.connectedAfter) :
    Streamed { world with live := live, queue := queue } := by
  refine ⟨?_, ?_, ?_⟩
  · rw [hstream, length_setConnected]
    exact h.length
  · intro position task shard htask hshard
    rw [hstream, getElem?_setConnected] at hshard
    split at hshard
    · rename_i hposition
      subst hposition
      obtain ⟨before, hbefore, rfl⟩ := Option.map_eq_some_iff.mp hshard
      have hlinked := h.linked index task before htask hbefore
      rw [hqueue] at hlinked
      exact (hlinked.taken hevent).2.2
    · rename_i hposition
      have hlinked := h.linked position task shard htask hshard
      rw [hqueue] at hlinked
      apply hlinked.passed
      intro hother
      rw [hevent] at hother
      exact hposition (Option.some.inj hother)
  · intro other hother
    apply h.queued other
    rw [hqueue]
    exact List.mem_cons_of_mem _ hother

/-- The tasks that `start` creates. -/
theorem streamed_start (live : LiveWorld) (hconnected : ∀ shard ∈ live.stream, shard.isConnected = true) :
    Streamed { live := live, tasks := startShards live.stream, queue := [] } := by
  refine ⟨?_, ?_, ?_⟩
  · unfold startShards
    rw [List.length_map]
  · intro index task shard htask hshard
    unfold startShards at htask
    rw [List.getElem?_map, hshard] at htask
    cases htask
    exact linked_initial index shard (hconnected shard (List.mem_of_getElem? hshard))
  · intro event hevent
    cases hevent

end Invariant

section Steps
variable {settings : Settings} {reconnect : ReconnectSettings} {world next : StreamedWorld}

/-- What the service does with the first event, when it waits for one. -/
theorem Streamed.takes (h : Streamed world) (hphase : world.live.phase = .waiting)
    {event : MarketStreamEvent} {queue : List MarketStreamEvent}
    (hqueue : world.queue = event :: queue) (now : Int) :
    ∃ live, step settings world.live (event.action now) = .ok live ∧
      Streamed { world with live := live, queue := queue } := by
  have hreport : ∀ index ∈ event.shard?, ∃ shard, world.live.stream[index]? = some shard ∧
      event.connectedBefore = shard.isConnected := by
    intro index hindex
    have hmem : event ∈ world.queue := by
      rw [hqueue]
      exact List.mem_cons_self
    obtain ⟨task, shard, -, hshard, hlinked⟩ := h.shard_at (h.queued event hmem index hindex)
    rw [hqueue] at hlinked
    exact ⟨shard, hshard, (hlinked.taken hindex).1⟩
  cases event with
  | closedCandle candle =>
    obtain ⟨live, hlive⟩ := ingestCandle_accepts world.live candle now
    refine ⟨live, ?_, h.with_candle hqueue (ingestCandle_stream hlive)⟩
    simp only [MarketStreamEvent.action, Live.step, hphase]
    exact hlive
  | shardDisconnected index symbols reason =>
    obtain ⟨shard, hshard, hconnected⟩ := hreport index rfl
    have hup : shard.isConnected = true := hconnected.symm
    let live := { world.live with
      ready := false
      stream := setConnected world.live.stream index false
      phase := .degrading shard.symbols reason }
    refine ⟨live, ?_, h.with_report rfl hqueue rfl⟩
    simp only [MarketStreamEvent.action, Live.step, hphase, hshard]
    rw [if_pos hup]
  | shardReconnected index symbols =>
    obtain ⟨shard, hshard, hdisconnected⟩ := hreport index rfl
    let live := { world.live with
      stream := setConnected world.live.stream index true
      phase := .recovering shard.symbols }
    have hdown : ¬shard.isConnected = true := by
      rw [← hdisconnected]
      exact Bool.false_ne_true
    refine ⟨live, ?_, h.with_report rfl hqueue rfl⟩
    simp only [MarketStreamEvent.action, Live.step, hphase, hshard]
    rw [if_neg hdown]

/-- A connection starts the tasks anew. -/
theorem Streamed.connected {live : LiveWorld} (hlive : step settings world.live .connect = .ok live) :
    Streamed { live := live, tasks := startShards live.stream, queue := [] } := by
  apply streamed_start
  simp only [Live.step] at hlive
  split at hlive
  · cases hlive
    intro shard hshard
    obtain ⟨symbols, -, rfl⟩ := List.mem_map.mp hshard
    rfl
  · cases hlive

/-- Of the service's own actions, all but those of the events. -/
theorem streamedStep_live {action : LiveAction}
    (hstep : streamedStep settings reconnect world (.live action) = .ok next) :
    ∃ live, step settings world.live action = .ok live ∧
      (next = { live := live, tasks := startShards live.stream, queue := [] } ∧ action = .connect ∨
        next = { world with live := live } ∧ action.touchesStream = false) := by
  cases action with
  | candle _ _ | disconnected _ _ | reconnected _ => cases hstep
  | connect =>
    obtain ⟨live, hlive, hnext⟩ := bind_eq_ok.mp hstep
    cases hnext
    exact ⟨live, hlive, Or.inl ⟨rfl, rfl⟩⟩
  | sync serverTime =>
    simp only [streamedStep] at hstep
    split at hstep
    · obtain ⟨live, hlive, hnext⟩ := bind_eq_ok.mp hstep
      cases hnext
      exact ⟨live, hlive, Or.inr ⟨rfl, rfl⟩⟩
    · cases hstep
  | _ =>
    obtain ⟨live, hlive, hnext⟩ := bind_eq_ok.mp hstep
    cases hnext
    exact ⟨live, hlive, Or.inr ⟨rfl, rfl⟩⟩

/-- One step keeps the links, and what it does to the service is a step of the service. -/
theorem Streamed.stepped (h : Streamed world) {action : StreamedAction}
    (hstep : streamedStep settings reconnect world action = .ok next) :
    Streamed next ∧
      (next.live = world.live ∨ ∃ action, step settings world.live action = .ok next.live) := by
  cases action with
  | shard index action =>
    simp only [streamedStep] at hstep
    split at hstep
    · cases hstep
    · rename_i task htask
      obtain ⟨⟨after, later⟩, hshard, hnext⟩ := bind_eq_ok.mp hstep
      cases hnext
      exact ⟨h.with_shard htask hshard, Or.inl rfl⟩
  | next now =>
    simp only [streamedStep] at hstep
    split at hstep
    · rename_i event queue hphase hqueue
      obtain ⟨live, hlive, hnext⟩ := bind_eq_ok.mp hstep
      cases hnext
      obtain ⟨taken, htaken, hstreamed⟩ := h.takes hphase hqueue now
      rw [hlive] at htaken
      cases htaken
      exact ⟨hstreamed, Or.inr ⟨_, hlive⟩⟩
    · cases hstep
  | live action =>
    obtain ⟨live, hlive, ⟨rfl, rfl⟩ | ⟨rfl, htouches⟩⟩ := streamedStep_live hstep
    · exact ⟨Streamed.connected hlive, Or.inr ⟨_, hlive⟩⟩
    · exact ⟨h.with_live (step_stream htouches hlive), Or.inr ⟨_, hlive⟩⟩

end Steps

section Result

/-- The task has had a subscription and is on its way to the next one. -/
def ShardTask.isDown (task : ShardTask) : Bool :=
  task.connectedOnce &&
    match task.phase with
    | .receiving | .failed _ => false
    | _ => true

theorem Linked.connection {index : Nat} {queue : List MarketStreamEvent} {shard : Shard}
    {task : ShardTask} (h : Linked queue index shard task) (hreports : reportsOf index queue = []) :
    (task.phase = .receiving → shard.isConnected = true) ∧
      (task.isDown = true → shard.isConnected = false) := by
  have hconnected : shard.isConnected = !task.disconnectNotified := by
    have hchain := h.chain
    rw [hreports] at hchain
    exact hchain
  have hconsistent := h.consistent
  unfold ShardTask.Consistent at hconsistent
  constructor
  · intro hphase
    rw [hphase] at hconsistent
    rw [hconnected, hconsistent.2]
    rfl
  · intro hdown
    obtain ⟨honce, hdown⟩ := Bool.and_eq_true_iff.mp hdown
    cases hphase : task.phase with
    | receiving | failed _ =>
      rw [hphase] at hdown
      cases hdown
    | acknowledged =>
      rw [hphase] at hconsistent
      rw [hconnected, hconsistent.2]
      rfl
    | connecting | subscribing | sleeping _ =>
      rw [hphase] at hconsistent
      rw [hconnected, hconsistent, honce]
      rfl

/-- In every run, what happens to the service is a run of the service alone, which takes every
event that the tasks put; a report names the symbols of its shard, and a shard without a
queued report is connected for the service if its task receives and is not if its task is
reconnecting. -/
theorem service_follows_shards (settings : Settings) (reconnect : ReconnectSettings)
    (snapshots : List AnalysisSnapshotRecord) (candidates : List SignalCandidateRecord)
    (actions : List StreamedAction) :
    let world := runAll (streamedStep settings reconnect)
      { live := initialWorld snapshots candidates } actions
    (∃ steps, world.live = runAll (step settings) (initialWorld snapshots candidates) steps) ∧
    (world.live.phase = .waiting → ∀ event ∈ world.queue.head?, ∀ now, ∃ live,
      step settings world.live (event.action now) = .ok live) ∧
    (∀ event ∈ world.queue, ∀ index ∈ event.shard?, ∃ shard,
      world.live.stream[index]? = some shard ∧ event.symbols = shard.symbols) ∧
    ∀ index task, world.tasks[index]? = some task → ∃ shard,
      world.live.stream[index]? = some shard ∧ task.symbols = shard.symbols ∧
      (reportsOf index world.queue = [] →
        (task.phase = .receiving → shard.isConnected = true) ∧
        (task.isDown = true → shard.isConnected = false)) := by
  intro world
  have hinvariant : Streamed world ∧
      ∃ steps, world.live = runAll (step settings) (initialWorld snapshots candidates) steps := by
    have hstart : Streamed { live := initialWorld snapshots candidates } := by
      apply streamed_start (initialWorld snapshots candidates)
      intro shard hshard
      cases hshard
    refine runAll_invariant (P := fun world => Streamed world ∧ ∃ steps, world.live =
      runAll (step settings) (initialWorld snapshots candidates) steps) ?_ ⟨hstart, [], rfl⟩ actions
    · intro before action after h hstep
      obtain ⟨hstreamed, steps, hsteps⟩ := h
      obtain ⟨hnext, hlive | ⟨taken, htaken⟩⟩ := hstreamed.stepped hstep
      · exact ⟨hnext, steps, hlive.trans hsteps⟩
      · refine ⟨hnext, steps ++ [taken], ?_⟩
        rw [runAll_append, ← hsteps]
        unfold runAll
        rw [List.foldl_cons, List.foldl_nil, transact, htaken]
  obtain ⟨hstreamed, hsteps⟩ := hinvariant
  refine ⟨hsteps, ?_, ?_, ?_⟩
  · intro hphase event hevent now
    obtain ⟨queue, hqueue⟩ := List.head?_eq_some_iff.mp hevent
    obtain ⟨live, hlive, -⟩ := hstreamed.takes hphase hqueue now
    exact ⟨live, hlive⟩
  · intro event hevent index hindex
    obtain ⟨task, shard, -, hshard, hlinked⟩ :=
      hstreamed.shard_at (hstreamed.queued event hevent index hindex)
    refine ⟨shard, hshard, hlinked.own event ?_⟩
    exact List.mem_filter.mpr ⟨hevent, decide_eq_true hindex⟩
  · intro index task htask
    have hindex := (List.getElem?_eq_some_iff.mp htask).1
    obtain ⟨own, shard, hown, hshard, hlinked⟩ := hstreamed.shard_at hindex
    rw [htask] at hown
    cases hown
    exact ⟨shard, hshard, hlinked.symbols, hlinked.connection⟩

/-- The second of two shards is lost and its report is queued behind a candle. -/
def lostShard : List StreamedAction :=
  (startOfService.take 5).map .live ++
    [.shard 0 .connect, .shard 0 .acknowledge, .shard 1 .connect, .shard 1 .acknowledge] ++
    ((startOfService.drop 5 ++ fillTask 0 ++ fillTask 1 ++ [LiveAction.finish]).map .live) ++
    [.shard 0 (.receive ⟨"kline.1.BTCUSDT", [⟨lastMinuteMs, "1", 100, 100, 100, 100, 1, 100, true⟩]⟩),
      .shard 0 .put, .shard 1 (.fail "closed"), .shard 1 (.report 0)]

example :
    let world := runAll (streamedStep smallSettings ⟨2, 1, 60⟩) { live := initialWorld [] [] } lostShard
    world.live.phase = .waiting ∧ world.queue.length = 2 ∧
      world.queue.getLast? = some (.shardDisconnected 1 ["ETHUSDT"] "closed") ∧
      world.tasks.map ShardTask.isDown = [false, true] := by
  decide +kernel

end Result

end StructurePulse.Live
