import StructurePulse.Service.TradeTasks

/-!
# The trade stream tasks keep to their protocol

The tasks and the consumer together are a run of the stream of `Streaming`. What a task hands
over between two lost connections is silence, then trades, then its announcement and more
trades; its ready flag and its buffer are those of the events that it handed over.
-/

namespace StructurePulse.Service
open Signals Store Strategy Library
set_option autoImplicit false

section Effects
variable {settings : StreamSettings} {world next : StreamWorld} {symbol : Symbol}

/-- The events of a symbol in the queue. -/
def TradeStream.queued (stream : TradeStream) (symbol : Symbol) : List StreamEvent :=
  stream.events.filter fun event => event.symbol = symbol

/-- Nothing of the symbol has changed. -/
structure Untouched (symbol : Symbol) (before after : StreamWorld) : Prop where
  subscribed : after.isSubscribed symbol = before.isSubscribed symbol
  queued : after.stream.queued symbol = before.stream.queued symbol
  putting : after.stream.putting symbol = before.stream.putting symbol
  buffer : after.stream.buffers symbol = before.stream.buffers symbol

theorem Untouched.refl (symbol : Symbol) (world : StreamWorld) : Untouched symbol world world :=
  ⟨rfl, rfl, rfl, rfl⟩

theorem Untouched.trans {first second third : StreamWorld} (h : Untouched symbol first second)
    (h' : Untouched symbol second third) : Untouched symbol first third :=
  ⟨h'.subscribed.trans h.subscribed, h'.queued.trans h.queued, h'.putting.trans h.putting,
    h'.buffer.trans h.buffer⟩

/-- The task of the symbol has handed over an event. -/
structure Offered (symbol : Symbol) (event : StreamEvent) (before after : StreamWorld) : Prop where
  own : event.symbol = symbol
  idle : before.stream.putting symbol = none
  service : after.service = before.service
  queued : after.stream.queued symbol = before.stream.queued symbol
  putting : after.stream.putting symbol = some event
  others : ∀ other, other ≠ symbol → Untouched other before after

theorem offer_ok {event : StreamEvent} (h : world.offer event = .ok next) :
    Offered event.symbol event world next ∧
      next.stream.buffers event.symbol = world.stream.buffers event.symbol := by
  unfold StreamWorld.offer at h
  split_ifs at h with hidle
  cases h
  refine ⟨⟨rfl, hidle.2, rfl, rfl, if_pos rfl, ?_⟩, rfl⟩
  intro other hother
  exact ⟨rfl, rfl, if_neg hother, rfl⟩

theorem stream_connected (h : stream settings world (.connected symbol) = .ok next) :
    Offered symbol (.ready symbol) world next ∧
      next.stream.buffers symbol = world.stream.buffers symbol :=
  offer_ok h

theorem stream_lost (h : stream settings world (.lost symbol) = .ok next) :
    Offered symbol (.disconnected symbol) world next ∧
      next.stream.buffers symbol = world.stream.buffers symbol :=
  offer_ok h

theorem stream_receive {trade : PublicTrade}
    (h : stream settings world (.receive trade) = .ok next) :
    Offered trade.symbol (.trade trade) world next ∧
      next.stream.buffers trade.symbol =
        bufferAppend settings.bufferSize (world.stream.buffers trade.symbol) trade := by
  obtain ⟨offered, hoffer, hnext⟩ := bind_eq_ok.mp h
  cases hnext
  obtain ⟨hoffered, hbuffer⟩ := offer_ok hoffer
  change offered.stream.buffers trade.symbol = world.stream.buffers trade.symbol at hbuffer
  refine ⟨⟨rfl, hoffered.idle, hoffered.service, hoffered.queued, hoffered.putting, ?_⟩, ?_⟩
  · intro other hother
    have hsame := hoffered.others other hother
    exact ⟨hsame.subscribed, hsame.queued, hsame.putting, (if_neg hother).trans hsame.buffer⟩
  · refine (if_pos rfl).trans ?_
    rw [hbuffer]

theorem stream_dropped (h : stream settings world (.dropped symbol) = .ok next) :
    (∃ trade, world.stream.putting symbol = some (.trade trade)) ∧
      next.service = world.service ∧ next.stream.queued symbol = world.stream.queued symbol ∧
      next.stream.putting symbol = none ∧
      next.stream.buffers symbol = world.stream.buffers symbol ∧
      ∀ other, other ≠ symbol → Untouched other world next := by
  unfold stream at h
  simp only at h
  split at h
  · rename_i trade hputting
    cases h
    refine ⟨⟨trade, hputting⟩, rfl, rfl, if_pos rfl, rfl, ?_⟩
    intro other hother
    exact ⟨rfl, rfl, if_neg hother, rfl⟩
  · cases h

/-- A deque with a maximum length keeps the last elements. -/
theorem bufferAppend_last (size : Nat) (received : List PublicTrade) (trade : PublicTrade) :
    bufferAppend size (received.drop (received.length - size)) trade =
      (received ++ [trade]).drop ((received ++ [trade]).length - size) := by
  have hkeeps : received.drop (received.length - size) ++ [trade] =
      (received ++ [trade]).drop (received.length - size) :=
    (List.drop_append_of_le_length (Nat.sub_le _ _)).symm
  unfold bufferAppend
  rw [hkeeps, List.drop_drop, List.length_append, List.length_drop, List.length_singleton]
  congr 1
  omega

end Effects

section Invariant

/-- The session that the phase of a task and its flags tell. -/
def TradeTask.Fits (task : TradeTask) (session : StreamSession) : Prop :=
  match task.phase with
  | .subscribing isBuffered =>
    session ≠ .ready ∧ (isBuffered = true → task.pending = [] → session = .flowing)
  | .receiving readyEmitted isDue =>
    (readyEmitted = true ↔ session = .ready) ∧
      (isDue = true → readyEmitted = false ∧ (task.pending = [] → session = .flowing))
  | _ => session = .silent ∧ task.pending = []

/-- What the stream holds of a symbol is what its task handed over and was not consumed yet.
Events of an earlier task may be in the queue before. -/
structure Recorded (settings : StreamSettings) (world : StreamWorld) (symbol : Symbol)
    (task : TradeTask) (stale consumed : List StreamEvent) : Prop where
  wellFormed : ∃ session, sessionAfter task.handed = some session
  onTheWay : ∃ kept, world.stream.queued symbol = stale ++ kept ∧
    task.handed = consumed ++ kept ++ (world.stream.putting symbol).toList
  buffer : world.stream.buffers symbol =
    task.received.drop (task.received.length - settings.bufferSize)

structure TaskKept (settings : StreamSettings) (world : StreamWorld) (symbol : Symbol)
    (task : TradeTask) (stale consumed : List StreamEvent) : Prop
    extends Recorded settings world symbol task stale consumed where
  fits : ∀ session, sessionAfter task.handed = some session →
    task.Fits session ∧ (task.isReady = true ↔ session = .ready)
  own : ∀ trade ∈ task.pending, trade.symbol = symbol

variable {settings : StreamSettings} {world next : StreamWorld} {symbol : Symbol}
  {task after : TradeTask} {stale consumed : List StreamEvent}

/-- The task changes nothing but itself. -/
theorem Recorded.with_task (h : Recorded settings world symbol task stale consumed)
    (hhanded : after.handed = task.handed) (hreceived : after.received = task.received) :
    Recorded settings world symbol after stale consumed := by
  refine ⟨?_, ?_, ?_⟩
  · rw [hhanded]
    exact h.wellFormed
  · rw [hhanded]
    exact h.onTheWay
  · rw [hreceived]
    exact h.buffer

/-- The task hands over an event. -/
theorem Recorded.hand (h : Recorded settings world symbol task stale consumed) {event : StreamEvent}
    (hoffered : Offered symbol event world next) (hhanded : after.handed = task.handed ++ [event])
    (hwellFormed : ∃ session, sessionAfter after.handed = some session)
    (hbuffer : next.stream.buffers symbol =
      after.received.drop (after.received.length - settings.bufferSize)) :
    Recorded settings next symbol after stale consumed := by
  refine ⟨hwellFormed, ?_, hbuffer⟩
  obtain ⟨kept, hqueued, hold⟩ := h.onTheWay
  rw [hoffered.idle, Option.toList_none, List.append_nil] at hold
  refine ⟨kept, hoffered.queued.trans hqueued, ?_⟩
  rw [hhanded, hold, hoffered.putting]
  rfl

/-- The trade that waited in `put` is in the buffer only. -/
theorem Recorded.dropped (h : Recorded settings world symbol task stale consumed)
    (hdropped : stream settings world (.dropped symbol) = .ok next) :
    Recorded settings next symbol { task with handed := task.handed.dropLast } stale consumed := by
  obtain ⟨⟨trade, hputting⟩, -, hqueued, hnone, hbuffer, -⟩ := stream_dropped hdropped
  obtain ⟨kept, hold, hhanded⟩ := h.onTheWay
  rw [hputting, Option.toList_some] at hhanded
  have hdrop : task.handed.dropLast = consumed ++ kept := by
    rw [hhanded, List.dropLast_concat]
  refine ⟨?_, ⟨kept, hqueued.trans hold, ?_⟩, hbuffer.trans h.buffer⟩
  · obtain ⟨session, hsession⟩ := h.wellFormed
    rw [hhanded] at hsession
    change ∃ session, sessionAfter task.handed.dropLast = some session
    rw [hdrop]
    exact sessionAfter_of_append hsession
  · rw [hnone, Option.toList_none, List.append_nil]
    exact hdrop

end Invariant

section Moves
variable {settings : TaskSettings} {world next : StreamWorld} {symbol : Symbol} {task : TradeTask}
  {stale consumed : List StreamEvent}

/-- What a task does to the world: steps of the stream that touch its own symbol only. -/
structure TaskMoves (settings : StreamSettings) (symbol : Symbol) (before after : StreamWorld) :
    Prop where
  refines : ∃ steps, after = runAll (stream settings) before steps
  service : after.service = before.service
  putting : ∀ event ∈ after.stream.putting symbol,
    event ∈ before.stream.putting symbol ∨ event.symbol = symbol
  others : ∀ other, other ≠ symbol → Untouched other before after

theorem TaskMoves.refl (settings : StreamSettings) (symbol : Symbol) (world : StreamWorld) :
    TaskMoves settings symbol world world :=
  ⟨⟨[], rfl⟩, rfl, fun _ => Or.inl, fun other _ => Untouched.refl other world⟩

theorem TaskMoves.trans {settings : StreamSettings} {first second third : StreamWorld}
    (h : TaskMoves settings symbol first second) (h' : TaskMoves settings symbol second third) :
    TaskMoves settings symbol first third := by
  obtain ⟨steps, hsteps⟩ := h.refines
  obtain ⟨more, hmore⟩ := h'.refines
  refine ⟨⟨steps ++ more, ?_⟩, h'.service.trans h.service, ?_, ?_⟩
  · rw [runAll_append, ← hsteps]
    exact hmore
  · intro event hevent
    rcases h'.putting event hevent with hsecond | hown
    · exact h.putting event hsecond
    · exact Or.inr hown
  · intro other hother
    exact (h.others other hother).trans (h'.others other hother)

theorem runAll_of_ok {settings : StreamSettings} {action : StreamAction}
    (h : stream settings world action = .ok next) :
    ∃ steps, next = runAll (stream settings) world steps := by
  refine ⟨[action], ?_⟩
  unfold runAll
  rw [List.foldl_cons, List.foldl_nil, transact, h]

theorem Offered.moves {event : StreamEvent} {settings : StreamSettings} {action : StreamAction}
    (h : Offered symbol event world next) (hstep : stream settings world action = .ok next) :
    TaskMoves settings symbol world next := by
  refine ⟨runAll_of_ok hstep, h.service, fun other hother => ?_, h.others⟩
  rw [h.putting] at hother
  cases hother
  exact Or.inr h.own

theorem dropped_moves {settings : StreamSettings}
    (h : stream settings world (.dropped symbol) = .ok next) :
    TaskMoves settings symbol world next := by
  obtain ⟨-, hservice, -, hnone, -, hothers⟩ := stream_dropped h
  refine ⟨runAll_of_ok h, hservice, fun event hevent => ?_, hothers⟩
  rw [hnone] at hevent
  cases hevent

/-- The connection is lost while nothing waits in `put`. -/
theorem Recorded.lose (h : Recorded settings.toStreamSettings world symbol task stale consumed)
    {reason : String} {after : TradeTask}
    (hlose : task.lose settings symbol world reason = .ok (next, after)) :
    TaskKept settings.toStreamSettings next symbol after stale consumed ∧
      TaskMoves settings.toStreamSettings symbol world next := by
  obtain ⟨lost, hlost, hnext⟩ := bind_eq_ok.mp hlose
  cases hnext
  obtain ⟨hoffered, hbuffer⟩ := stream_lost hlost
  obtain ⟨session, hsession⟩ := h.wellFormed
  have hsilent := sessionAfter_disconnected hsession symbol
  refine ⟨⟨h.hand hoffered rfl ⟨_, hsilent⟩ (hbuffer.trans h.buffer), ?_, ?_⟩,
    hoffered.moves hlost⟩
  · intro session hafter
    obtain rfl : StreamSession.silent = session := Option.some.inj (hsilent.symm.trans hafter)
    refine ⟨⟨rfl, rfl⟩, fun hready => ?_, fun hready => ?_⟩
    · cases hready
    · cases hready
  · intro trade htrade
    cases htrade

end Moves

section Task
variable {settings : TaskSettings} {world next : StreamWorld} {symbol : Symbol}
  {task after : TradeTask} {stale consumed : List StreamEvent}

/-- Every trade that a message brings is the subscribed symbol's, and the first one makes the
connection flow. -/
theorem TaskKept.receive (h : TaskKept settings.toStreamSettings world symbol task stale consumed)
    {message : TradeMessage}
    (hstep : taskStep settings symbol world task (.receive message) = .ok (next, after)) :
    next = world ∧ TaskKept settings.toStreamSettings world symbol after stale consumed := by
  simp only [taskStep] at hstep
  split at hstep
  · rename_i hidle
    obtain ⟨hpending, -, hsymbols⟩ := hidle
    split at hstep
    · rename_i isBuffered hphase
      cases hstep
      refine ⟨rfl, ⟨h.toRecorded.with_task rfl rfl, fun session hsession => ?_, hsymbols⟩⟩
      obtain ⟨hfits, hready⟩ := h.fits session hsession
      unfold TradeTask.Fits at hfits ⊢
      rw [hphase] at hfits
      refine ⟨⟨hfits.1, fun hbuffered hnothing => ?_⟩, hready⟩
      simp only at hbuffered hnothing
      rw [hnothing] at hbuffered
      exact hfits.2 hbuffered hpending
    · rename_i readyEmitted hphase
      cases hstep
      refine ⟨rfl, ⟨h.toRecorded.with_task rfl rfl, fun session hsession => ?_, hsymbols⟩⟩
      obtain ⟨hfits, hready⟩ := h.fits session hsession
      unfold TradeTask.Fits at hfits ⊢
      rw [hphase] at hfits
      refine ⟨⟨hfits.1, fun hdue => ?_⟩, hready⟩
      obtain ⟨hsome, hnotyet⟩ := Bool.and_eq_true_iff.mp hdue
      refine ⟨by simpa using hnotyet, fun hnothing => ?_⟩
      simp only at hnothing
      rw [hnothing] at hsome
      cases hsome
    · cases hstep
  · cases hstep

/-- A trade is buffered and handed over. -/
theorem TaskKept.take (h : TaskKept settings.toStreamSettings world symbol task stale consumed)
    (hstep : taskStep settings symbol world task .take = .ok (next, after)) :
    TaskKept settings.toStreamSettings next symbol after stale consumed ∧
      TaskMoves settings.toStreamSettings symbol world next := by
  simp only [taskStep] at hstep
  split at hstep
  · cases hstep
  · rename_i trade pending hpending
    obtain ⟨received, hreceived, hnext⟩ := bind_eq_ok.mp hstep
    cases hnext
    obtain ⟨hoffered, hbuffer⟩ := stream_receive hreceived
    have hown := h.own
    rw [hpending] at hown
    obtain rfl : trade.symbol = symbol := hown trade List.mem_cons_self
    obtain ⟨session, hsession⟩ := h.wellFormed
    obtain ⟨hfits, hready⟩ := h.fits session hsession
    -- a trade keeps an announced connection announced, and makes any other one flow
    let later : StreamSession := if session = .ready then .ready else .flowing
    have hlater : sessionAfter (task.handed ++ [.trade trade]) = some later := by
      rw [sessionAfter_snoc, hsession]
      cases session <;> rfl
    have hsame : later = .ready ↔ session = .ready := by
      unfold later
      split_ifs with hannounced
      · exact ⟨fun _ => hannounced, fun _ => rfl⟩
      · refine ⟨fun hflowing => ?_, fun h => absurd h hannounced⟩
        cases hflowing
    have hflows : session ≠ .ready → later = .flowing := fun hnot => if_neg hnot
    refine ⟨⟨h.toRecorded.hand hoffered rfl ⟨_, hlater⟩ ?_, ?_, ?_⟩, hoffered.moves hreceived⟩
    · rw [hbuffer, h.buffer]
      exact bufferAppend_last _ _ _
    · intro session' hsession'
      obtain rfl : later = session' := Option.some.inj (hlater.symm.trans hsession')
      refine ⟨?_, hready.trans hsame.symm⟩
      unfold TradeTask.Fits at hfits ⊢
      cases hphase : task.phase with
      | subscribing isBuffered =>
        rw [hphase] at hfits
        exact ⟨fun h => hfits.1 (hsame.mp h), fun _ _ => hflows hfits.1⟩
      | receiving readyEmitted isDue =>
        rw [hphase] at hfits
        refine ⟨hfits.1.trans hsame.symm, fun hdue => ⟨(hfits.2 hdue).1, fun _ => hflows ?_⟩⟩
        intro hannounced
        have hemitted := hfits.1.mpr hannounced
        rw [(hfits.2 hdue).1] at hemitted
        cases hemitted
      | connecting | failed _ | sleeping _ =>
        rw [hphase] at hfits
        rw [hfits.2] at hpending
        cases hpending
    · exact fun other hother => hown other (List.mem_cons_of_mem trade hother)

/-- The first connection with trades is announced. -/
theorem TaskKept.announce (h : TaskKept settings.toStreamSettings world symbol task stale consumed)
    (hstep : taskStep settings symbol world task .announce = .ok (next, after)) :
    TaskKept settings.toStreamSettings next symbol after stale consumed ∧
      TaskMoves settings.toStreamSettings symbol world next := by
  simp only [taskStep] at hstep
  split at hstep
  · rename_i hphase hpending
    obtain ⟨connected, hconnected, hnext⟩ := bind_eq_ok.mp hstep
    cases hnext
    obtain ⟨hoffered, hbuffer⟩ := stream_connected hconnected
    obtain ⟨session, hsession⟩ := h.wellFormed
    obtain ⟨hfits, -⟩ := h.fits session hsession
    unfold TradeTask.Fits at hfits
    rw [hphase] at hfits
    obtain rfl : session = .flowing := (hfits.2 rfl).2 hpending
    have hready : sessionAfter (task.handed ++ [.ready symbol]) = some .ready := by
      rw [sessionAfter_snoc, hsession]
      rfl
    refine ⟨⟨h.toRecorded.hand hoffered rfl ⟨_, hready⟩ (hbuffer.trans h.buffer), ?_, h.own⟩,
      hoffered.moves hconnected⟩
    intro session hafter
    obtain rfl : StreamSession.ready = session := Option.some.inj (hready.symm.trans hafter)
    refine ⟨⟨⟨fun _ => rfl, fun _ => rfl⟩, fun hdue => ?_⟩, fun _ => rfl, fun _ => rfl⟩
    cases hdue
  · cases hstep

theorem TaskKept.fail (h : TaskKept settings.toStreamSettings world symbol task stale consumed)
    {reason : String}
    (hstep : taskStep settings symbol world task (.fail reason) = .ok (next, after)) :
    TaskKept settings.toStreamSettings next symbol after stale consumed ∧
      TaskMoves settings.toStreamSettings symbol world next := by
  simp only [taskStep] at hstep
  split at hstep
  · exact h.toRecorded.lose hstep
  · split at hstep
    · exact h.toRecorded.lose hstep
    · obtain ⟨dropped, hdropped, hlose⟩ := bind_eq_ok.mp hstep
      obtain ⟨hkept, hmoves⟩ := (h.toRecorded.dropped hdropped).lose hlose
      exact ⟨hkept, (dropped_moves hdropped).trans hmoves⟩
  · exact h.toRecorded.lose hstep
  · cases hstep

/-- A task that only changes its phase. -/
theorem TaskKept.with_phase (h : TaskKept settings.toStreamSettings world symbol task stale consumed)
    {phase : TradePhase} {attempt : Nat}
    (hfits : ∀ session, task.Fits session →
      TradeTask.Fits { task with attempt := attempt, phase := phase } session) :
    TaskKept settings.toStreamSettings world symbol
      { task with attempt := attempt, phase := phase } stale consumed := by
  refine ⟨h.toRecorded.with_task rfl rfl, fun session hsession => ?_, h.own⟩
  obtain ⟨hfit, hready⟩ := h.fits session hsession
  exact ⟨hfits session hfit, hready⟩

/-- Every step of a task keeps its record, and is made of steps of the stream. -/
theorem TaskKept.step (h : TaskKept settings.toStreamSettings world symbol task stale consumed)
    {action : TradeAction}
    (hstep : taskStep settings symbol world task action = .ok (next, after)) :
    TaskKept settings.toStreamSettings next symbol after stale consumed ∧
      TaskMoves settings.toStreamSettings symbol world next := by
  cases action with
  | take => exact h.take hstep
  | announce => exact h.announce hstep
  | fail reason => exact h.fail hstep
  | receive message =>
    obtain ⟨rfl, hkept⟩ := h.receive hstep
    exact ⟨hkept, TaskMoves.refl _ _ _⟩
  | connect =>
    simp only [taskStep] at hstep
    split at hstep
    · rename_i hphase
      cases hstep
      refine ⟨h.with_phase fun session hfit => ?_, TaskMoves.refl _ _ _⟩
      unfold TradeTask.Fits at hfit ⊢
      rw [hphase] at hfit
      refine ⟨?_, fun hbuffered => ?_⟩
      · rw [hfit.1]
        exact StreamSession.noConfusion
      · cases hbuffered
    · cases hstep
  | acknowledge =>
    simp only [taskStep] at hstep
    split at hstep
    · rename_i isBuffered hphase
      split at hstep
      · rename_i hidle
        cases hstep
        refine ⟨h.with_phase fun session hfit => ?_, TaskMoves.refl _ _ _⟩
        unfold TradeTask.Fits at hfit ⊢
        rw [hphase] at hfit
        refine ⟨⟨fun hemitted => ?_, fun hready => absurd hready hfit.1⟩, fun hdue => ⟨rfl, ?_⟩⟩
        · cases hemitted
        · exact hfit.2 hdue
      · cases hstep
    · cases hstep
  | pause jitter =>
    simp only [taskStep] at hstep
    split at hstep
    · rename_i reason hphase _
      cases hstep
      refine ⟨h.with_phase fun session hfit => ?_, TaskMoves.refl _ _ _⟩
      unfold TradeTask.Fits at hfit ⊢
      rw [hphase] at hfit
      exact hfit
    · cases hstep
  | wake =>
    simp only [taskStep] at hstep
    split at hstep
    · rename_i delay hphase
      cases hstep
      refine ⟨h.with_phase fun session hfit => ?_, TaskMoves.refl _ _ _⟩
      unfold TradeTask.Fits at hfit ⊢
      rw [hphase] at hfit
      exact hfit
    · cases hstep

end Task

section Service
variable {settings : StreamSettings} {world next : StreamWorld} {symbol : Symbol}

/-- What the consumer does to the stream after it took an event: what it subscribes to starts
anew. -/
structure Served (before after : StreamWorld) : Prop where
  queued : ∀ symbol, after.isSubscribed symbol = true →
    after.stream.queued symbol = before.stream.queued symbol
  kept : ∀ symbol, before.isSubscribed symbol = true → after.isSubscribed symbol = true →
    after.stream.putting symbol = before.stream.putting symbol ∧
      after.stream.buffers symbol = before.stream.buffers symbol
  fresh : ∀ symbol, before.isSubscribed symbol = false → after.isSubscribed symbol = true →
    after.stream.putting symbol = none ∧ after.stream.buffers symbol = []
  putting : ∀ symbol, ∀ event ∈ after.stream.putting symbol,
    event ∈ before.stream.putting symbol

theorem settle_served (world : StreamWorld) (symbol : Symbol)
    (result : Except Stopped (Tracker × Consumer)) : Served world (world.settle symbol result) := by
  cases result with
  | error left =>
    refine ⟨fun other hafter => ?_, fun other _ hafter => ?_, fun other _ hafter => ?_,
      fun other event hevent => ?_⟩
    · cases hafter
    · cases hafter
    · cases hafter
    · cases hevent
  | ok pair =>
    obtain ⟨t, consumer⟩ := pair
    have hsubscribed : ∀ other, (world.settle symbol (.ok (t, consumer))).isSubscribed other =
        if other = symbol then t.subscribed else world.isSubscribed other := by
      intro other
      unfold StreamWorld.isSubscribed StreamWorld.settle
      simp only
      split_ifs <;> rfl
    by_cases hsame : t.subscribed = world.isSubscribed symbol
    · have hstream : (world.settle symbol (.ok (t, consumer))).stream = world.stream :=
        if_pos hsame
      refine ⟨fun other _ => ?_, fun other _ _ => ?_, fun other hbefore hafter => ?_,
        fun other event hevent => ?_⟩
      · rw [hstream]
      · rw [hstream]
        exact ⟨rfl, rfl⟩
      · rw [hsubscribed] at hafter
        split_ifs at hafter with hother
        · rw [hsame, ← hother, hbefore] at hafter
          cases hafter
        · rw [hbefore] at hafter
          cases hafter
      · rw [hstream] at hevent
        exact hevent
    · have hstream : (world.settle symbol (.ok (t, consumer))).stream = world.stream.reset symbol :=
        if_neg hsame
      refine ⟨fun other _ => ?_, fun other hbefore hafter => ?_, fun other hbefore hafter => ?_,
        fun other event hevent => ?_⟩
      · rw [hstream]
        rfl
      · rw [hsubscribed] at hafter
        split_ifs at hafter with hother
        · rw [hother] at hbefore
          exact absurd (hafter.trans hbefore.symm) hsame
        · rw [hstream]
          exact ⟨if_neg hother, if_neg hother⟩
      · rw [hsubscribed] at hafter
        split_ifs at hafter with hother
        · rw [hstream]
          exact ⟨if_pos hother, if_pos hother⟩
        · rw [hbefore] at hafter
          cases hafter
      · rw [hstream] at hevent
        unfold TradeStream.reset at hevent
        simp only at hevent
        split_ifs at hevent
        · cases hevent
        · exact hevent

/-- The world without the event that a step takes. -/
def StreamWorld.taken (world : StreamWorld) : StreamAction → StreamWorld
  | .pop _ _ => { world with stream := { world.stream with events := world.stream.events.tail } }
  | _ => world

/-- The steps of the consumer. -/
theorem stream_served {action : StreamAction} (htask : action.ofTask = false)
    (hput : ∀ symbol, action ≠ .put symbol) (h : stream settings world action = .ok next) :
    Served (world.taken action) next := by
  cases action with
  | receive _ | connected _ | lost _ | dropped _ => cases htask
  | put symbol => exact absurd rfl (hput symbol)
  | pop due life =>
    unfold stream at h
    simp only at h
    split at h
    · rename_i event events _ hevents
      cases h
      simp only [StreamWorld.taken, hevents, List.tail_cons]
      exact settle_served _ _ _
    · cases h
  | poll symbol now life =>
    unfold stream at h
    simp only at h
    split at h
    · cases h
      exact settle_served _ _ _
    · cases h
  | answer rest now data life =>
    unfold stream at h
    simp only at h
    split at h
    · cases h
      exact settle_served _ _ _
    · cases h
  | replay life =>
    unfold stream at h
    simp only at h
    split at h
    · cases h
      exact settle_served _ _ _
    · cases h
  | publish candidates config publicationTime =>
    cases h
    refine ⟨fun other _ => rfl, fun other _ _ => ⟨rfl, rfl⟩, fun other hbefore hafter => ?_,
      fun other event hevent => hevent⟩
    have hsame : world.isSubscribed other = true := hafter
    have hnot : world.isSubscribed other = false := hbefore
    rw [hnot] at hsame
    cases hsame
  | killed =>
    cases h
    refine ⟨fun other hafter => ?_, fun other _ hafter => ?_, fun other _ hafter => ?_,
      fun other event hevent => ?_⟩
    · cases hafter
    · cases hafter
    · cases hafter
    · cases hevent

/-- The queue takes the event that waits in `put`. -/
structure Enqueued (symbol : Symbol) (before after : StreamWorld) : Prop where
  service : after.service = before.service
  buffers : after.stream.buffers = before.stream.buffers
  putting : ∃ event, before.stream.putting symbol = some event ∧
    after.stream.events = before.stream.events ++ [event]
  idle : after.stream.putting symbol = none
  others : ∀ other, other ≠ symbol → after.stream.putting other = before.stream.putting other

theorem stream_put (h : stream settings world (.put symbol) = .ok next) :
    Enqueued symbol world next := by
  unfold stream at h
  simp only at h
  split at h
  · cases h
  · rename_i event hputting
    split_ifs at h
    cases h
    exact ⟨rfl, rfl, ⟨event, hputting, rfl⟩, if_pos rfl, fun other hother => if_neg hother⟩

end Service

section World
variable {settings : TaskSettings} {world next : TaskedWorld}

/-- The subscribed symbols have tasks, and every task has its record. -/
structure Tasked (settings : StreamSettings) (world : TaskedWorld) : Prop where
  tasks : ∀ symbol, (world.tasks symbol).isSome = world.isSubscribed symbol
  kept : ∀ symbol task, world.tasks symbol = some task →
    ∃ stale consumed, TaskKept settings world.toStreamWorld symbol task stale consumed
  putting : ∀ symbol, ∀ event ∈ world.stream.putting symbol, event.symbol = symbol

section Records
variable {settings : StreamSettings} {before after : StreamWorld} {symbol other : Symbol}
  {task : TradeTask} {stale consumed : List StreamEvent}

/-- What does not touch a symbol keeps the record of its task. -/
theorem TaskKept.untouched (h : TaskKept settings before symbol task stale consumed)
    (hsame : Untouched symbol before after) :
    TaskKept settings after symbol task stale consumed := by
  refine ⟨⟨h.wellFormed, ?_, hsame.buffer.trans h.buffer⟩, h.fits, h.own⟩
  rw [hsame.queued, hsame.putting]
  exact h.onTheWay

/-- A new task has handed over nothing yet. -/
theorem taskKept_initial (hputting : after.stream.putting symbol = none)
    (hbuffer : after.stream.buffers symbol = []) :
    TaskKept settings after symbol {} (after.stream.queued symbol) [] := by
  refine ⟨⟨⟨.silent, rfl⟩, ⟨[], ?_, ?_⟩, ?_⟩, ?_, ?_⟩
  · rw [List.append_nil]
  · rw [hputting]
    rfl
  · rw [hbuffer]
    exact List.drop_nil.symm
  · intro session hsession
    cases hsession
    refine ⟨⟨rfl, rfl⟩, fun hready => ?_, fun hready => ?_⟩
    · cases hready
    · cases hready
  · intro trade htrade
    cases htrade

/-- Events that were taken were the first ones of the symbol; those of an earlier task come
before those of this one. -/
theorem TaskKept.popped (h : TaskKept settings before symbol task stale consumed)
    (hputting : after.stream.putting symbol = before.stream.putting symbol)
    (hbuffer : after.stream.buffers symbol = before.stream.buffers symbol)
    {popped : List StreamEvent}
    (hpopped : before.stream.queued symbol = popped ++ after.stream.queued symbol) :
    ∃ left taken, TaskKept settings after symbol task left (consumed ++ taken) ∧
      (stale = [] → left = [] ∧ taken = popped) := by
  obtain ⟨kept, hqueued, hhanded⟩ := h.onTheWay
  rcases List.append_eq_append_iff.mp (hpopped.symm.trans hqueued) with
    ⟨left, hstale, hafter⟩ | ⟨taken, hstale, hkept⟩
  · refine ⟨left, [], ⟨⟨h.wellFormed, ⟨kept, hafter, ?_⟩, hbuffer.trans h.buffer⟩, h.fits,
      h.own⟩, fun hnone => ?_⟩
    · rw [hputting, List.append_nil]
      exact hhanded
    · rw [hnone] at hstale
      obtain ⟨hpopped', hleft⟩ := List.append_eq_nil_iff.mp hstale.symm
      exact ⟨hleft, hpopped'.symm⟩
  · refine ⟨[], taken, ⟨⟨h.wellFormed, ⟨after.stream.queued symbol, rfl, ?_⟩,
      hbuffer.trans h.buffer⟩, h.fits, h.own⟩, fun hnone => ⟨rfl, ?_⟩⟩
    · rw [hputting, hhanded, hkept, ← List.append_assoc]
    · rw [hstale, hnone, List.nil_append]

theorem TaskKept.enqueued (h : TaskKept settings before other task stale consumed)
    (henqueued : Enqueued symbol before after)
    (hsymbol : ∀ event ∈ before.stream.putting symbol, event.symbol = symbol) :
    TaskKept settings after other task stale consumed := by
  obtain ⟨event, hputting, hevents⟩ := henqueued.putting
  have hqueued : after.stream.queued other =
      before.stream.queued other ++ if other = symbol then [event] else [] := by
    unfold TradeStream.queued
    rw [hevents, List.filter_append, List.filter_singleton, hsymbol event hputting]
    congr 1
    by_cases hother : other = symbol
    · rw [if_pos hother, decide_eq_true hother.symm, cond_true]
    · rw [if_neg hother, decide_eq_false (Ne.symm hother), cond_false]
  refine ⟨⟨h.wellFormed, ?_, ?_⟩, h.fits, h.own⟩
  · obtain ⟨kept, hold, hhanded⟩ := h.onTheWay
    rw [hqueued, hold]
    by_cases hother : other = symbol
    · subst hother
      refine ⟨kept ++ [event], ?_, ?_⟩
      · rw [if_pos rfl, List.append_assoc]
      · rw [hhanded, hputting, henqueued.idle, Option.toList_some, Option.toList_none,
          List.append_nil, List.append_assoc]
    · refine ⟨kept, ?_, ?_⟩
      · rw [if_neg hother, List.append_nil]
      · rw [henqueued.others other hother]
        exact hhanded
  · rw [henqueued.buffers]
    exact h.buffer

end Records

/-- A step of one task. -/
theorem Tasked.task (h : Tasked settings.toStreamSettings world) {symbol : Symbol}
    {action : TradeAction} (hstep : taskedStep settings world (.task symbol action) = .ok next) :
    Tasked settings.toStreamSettings next ∧
      TaskMoves settings.toStreamSettings symbol world.toStreamWorld next.toStreamWorld := by
  simp only [taskedStep] at hstep
  split at hstep
  · cases hstep
  · rename_i task htask
    obtain ⟨⟨after, later⟩, htaken, hnext⟩ := bind_eq_ok.mp hstep
    cases hnext
    obtain ⟨stale, consumed, hrecord⟩ := h.kept symbol task htask
    obtain ⟨hkept, hmoves⟩ := hrecord.step htaken
    refine ⟨⟨fun other => ?_, fun other task' htask' => ?_, fun other event hevent => ?_⟩, hmoves⟩
    · have hsubscribed : after.isSubscribed other = world.isSubscribed other := by
        unfold StreamWorld.isSubscribed
        rw [hmoves.service]
      simp only
      rw [hsubscribed, ← h.tasks other]
      split_ifs with hother
      · rw [hother, htask]
        rfl
      · rfl
    · simp only at htask'
      split_ifs at htask' with hother
      · cases htask'
        rw [hother]
        exact ⟨stale, consumed, hkept⟩
      · obtain ⟨stale', consumed', hrecord'⟩ := h.kept other task' htask'
        exact ⟨stale', consumed', hrecord'.untouched (hmoves.others other hother)⟩
    · by_cases hother : other = symbol
      · subst hother
        rcases hmoves.putting event hevent with hold | hown
        · exact h.putting other event hold
        · exact hown
      · have hold : event ∈ world.stream.putting other := by
          rw [← (hmoves.others other hother).putting]
          exact hevent
        exact h.putting other event hold

/-- The event of the symbol that a step takes. -/
def StreamWorld.takenOf (world : StreamWorld) (symbol : Symbol) : StreamAction → List StreamEvent
  | .pop _ _ => (world.stream.events.take 1).filter fun event => event.symbol = symbol
  | _ => []

theorem queued_taken (world : StreamWorld) (action : StreamAction) (symbol : Symbol) :
    world.stream.queued symbol =
      world.takenOf symbol action ++ (world.taken action).stream.queued symbol := by
  cases action with
  | pop due life =>
    simp only [TradeStream.queued, StreamWorld.taken, StreamWorld.takenOf]
    rw [← List.filter_append]
    cases world.stream.events <;> rfl
  | _ => rfl

theorem taken_same (world : StreamWorld) (action : StreamAction) :
    (∀ symbol, (world.taken action).isSubscribed symbol = world.isSubscribed symbol) ∧
      (world.taken action).stream.putting = world.stream.putting ∧
      (world.taken action).stream.buffers = world.stream.buffers := by
  cases action <;> exact ⟨fun _ => rfl, rfl, rfl⟩

/-- A step of the consumer. -/
theorem Tasked.served (h : Tasked settings.toStreamSettings world) {action : StreamAction}
    {after : StreamWorld} (hserved : Served (world.toStreamWorld.taken action) after) :
    Tasked settings.toStreamSettings
      { toStreamWorld := after, tasks := retask world.toStreamWorld after world.tasks } := by
  obtain ⟨hsubscribed, hputs, hbuffers⟩ := taken_same world.toStreamWorld action
  refine ⟨fun symbol => ?_, fun symbol task htask => ?_, fun symbol event hevent => ?_⟩
  · simp only [retask]
    cases hafter : after.isSubscribed symbol with
    | false => rfl
    | true =>
      cases hbefore : world.isSubscribed symbol with
      | false => rfl
      | true =>
        rw [if_pos rfl, if_pos rfl, h.tasks symbol]
        exact hbefore
  · simp only [retask] at htask
    split_ifs at htask with hafter hbefore
    · obtain ⟨hputting, hbuffer⟩ := hserved.kept symbol ((hsubscribed symbol).trans hbefore) hafter
      have hpopped := queued_taken world.toStreamWorld action symbol
      rw [hputs] at hputting
      rw [hbuffers] at hbuffer
      rw [← hserved.queued symbol hafter] at hpopped
      obtain ⟨stale, consumed, hrecord⟩ := h.kept symbol task htask
      obtain ⟨left, taken, hkept, -⟩ := hrecord.popped hputting hbuffer hpopped
      exact ⟨left, consumed ++ taken, hkept⟩
    · cases htask
      rw [Bool.not_eq_true] at hbefore
      obtain ⟨hputting, hbuffer⟩ :=
        hserved.fresh symbol ((hsubscribed symbol).trans hbefore) hafter
      exact ⟨_, _, taskKept_initial hputting hbuffer⟩
  · have hold := hserved.putting symbol event hevent
    rw [hputs] at hold
    exact h.putting symbol event hold

/-- What leaves the service as it is leaves the tasks as they are. -/
theorem Tasked.retask_same (h : Tasked settings.toStreamSettings world) {after : StreamWorld}
    (hservice : after.service = world.service) :
    retask world.toStreamWorld after world.tasks = world.tasks := by
  funext symbol
  have hsome := h.tasks symbol
  unfold StreamWorld.isSubscribed at hsome
  unfold retask StreamWorld.isSubscribed
  rw [hservice]
  split_ifs with hsubscribed
  · rfl
  · rw [Bool.not_eq_true] at hsubscribed
    rw [hsubscribed, Option.isSome_eq_false_iff, Option.isNone_iff_eq_none] at hsome
    exact hsome.symm

/-- The queue takes an event. -/
theorem Tasked.enqueued (h : Tasked settings.toStreamSettings world) {symbol : Symbol}
    {after : StreamWorld} (henqueued : Enqueued symbol world.toStreamWorld after) :
    Tasked settings.toStreamSettings
      { toStreamWorld := after, tasks := retask world.toStreamWorld after world.tasks } := by
  rw [h.retask_same henqueued.service]
  refine ⟨fun other => ?_, fun other task htask => ?_, fun other event hevent => ?_⟩
  · unfold StreamWorld.isSubscribed
    rw [henqueued.service]
    exact h.tasks other
  · obtain ⟨stale, consumed, hrecord⟩ := h.kept other task htask
    exact ⟨stale, consumed, hrecord.enqueued henqueued (h.putting symbol)⟩
  · by_cases hother : other = symbol
    · subst hother
      have hnone : after.stream.putting other = some event := hevent
      rw [henqueued.idle] at hnone
      cases hnone
    · have hold : event ∈ world.stream.putting other := by
        rw [← henqueued.others other hother]
        exact hevent
      exact h.putting other event hold

/-- Every step keeps the records, and is made of steps of the stream. -/
theorem Tasked.step (h : Tasked settings.toStreamSettings world) {action : TaskedAction}
    (hstep : taskedStep settings world action = .ok next) :
    Tasked settings.toStreamSettings next ∧
      ∃ steps, next.toStreamWorld =
        runAll (stream settings.toStreamSettings) world.toStreamWorld steps := by
  cases action with
  | task symbol action =>
    obtain ⟨hnext, hmoves⟩ := h.task hstep
    exact ⟨hnext, hmoves.refines⟩
  | service action =>
    simp only [taskedStep] at hstep
    split at hstep
    · cases hstep
    · rename_i htask
      rw [Bool.not_eq_true] at htask
      obtain ⟨after, hafter, hnext⟩ := bind_eq_ok.mp hstep
      cases hnext
      refine ⟨?_, runAll_of_ok hafter⟩
      by_cases hput : ∃ symbol, action = .put symbol
      · obtain ⟨symbol, rfl⟩ := hput
        exact h.enqueued (stream_put hafter)
      · apply h.served
        exact stream_served htask (fun symbol hsymbol => hput ⟨symbol, hsymbol⟩) hafter

theorem tasked_initial (settings : StreamSettings) (instruments : List InstrumentRecord)
    (snapshots : List AnalysisSnapshotRecord) (candidates : List SignalCandidateRecord) :
    Tasked settings { toStreamWorld := StreamWorld.initial instruments snapshots candidates } := by
  refine ⟨fun symbol => rfl, fun symbol task htask => ?_, fun symbol event hevent => ?_⟩
  · cases htask
  · cases hevent

end World

section Runs
variable (settings : TaskSettings) (instruments : List InstrumentRecord)
variable (snapshots : List AnalysisSnapshotRecord) (candidates : List SignalCandidateRecord)

/-- In every run of the tasks, the queue and the consumer, the world without the tasks is that of
a run of the stream; the subscribed symbols are those with a task; a task announces a connection
once, after its first trade, and is ready exactly while it is announced; its events come to the
consumer in order, behind those of the tasks before it; and its buffer has its last trades. -/
theorem tasks_keep_protocol (actions : List TaskedAction) :
    let world := runAll (taskedStep settings)
      { toStreamWorld := StreamWorld.initial instruments snapshots candidates } actions
    (∃ steps, world.toStreamWorld = runAll (stream settings.toStreamSettings)
      (StreamWorld.initial instruments snapshots candidates) steps) ∧
    ∀ symbol, (world.tasks symbol).isSome = world.isSubscribed symbol ∧
      ∀ task, world.tasks symbol = some task →
        (∃ session, sessionAfter task.handed = some session ∧
          (task.isReady = true ↔ session = .ready)) ∧
        (∃ stale consumed kept, world.stream.queued symbol = stale ++ kept ∧
          task.handed = consumed ++ kept ++ (world.stream.putting symbol).toList) ∧
        world.stream.buffers symbol =
          task.received.drop (task.received.length - settings.bufferSize) := by
  intro world
  have hrun : Tasked settings.toStreamSettings world ∧
      ∃ steps, world.toStreamWorld = runAll (stream settings.toStreamSettings)
        (StreamWorld.initial instruments snapshots candidates) steps := by
    refine runAll_invariant (P := fun world : TaskedWorld =>
      Tasked settings.toStreamSettings world ∧ ∃ steps, world.toStreamWorld =
        runAll (stream settings.toStreamSettings)
          (StreamWorld.initial instruments snapshots candidates) steps) ?_
      ⟨tasked_initial settings.toStreamSettings instruments snapshots candidates, [], rfl⟩ actions
    intro before action after h hstep
    obtain ⟨htasked, steps, hsteps⟩ := h
    obtain ⟨hnext, more, hmore⟩ := htasked.step hstep
    refine ⟨hnext, steps ++ more, ?_⟩
    rw [runAll_append, ← hsteps]
    exact hmore
  obtain ⟨htasked, hsteps⟩ := hrun
  refine ⟨hsteps, fun symbol => ⟨htasked.tasks symbol, fun task htask => ?_⟩⟩
  obtain ⟨stale, consumed, hkept⟩ := htasked.kept symbol task htask
  obtain ⟨session, hsession⟩ := hkept.wellFormed
  exact ⟨⟨session, hsession, (hkept.fits session hsession).2⟩, ⟨stale, consumed, hkept.onTheWay⟩,
    hkept.buffer⟩

end Runs

end StructurePulse.Service
