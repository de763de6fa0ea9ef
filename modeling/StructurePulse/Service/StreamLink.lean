import StructurePulse.Service.CandleRecovery
import StructurePulse.Service.TradeProtocol

/-!
# What the consumer knows of a connection

`_stream_ready` follows the events that the consumer takes. They are those of the symbol's
task, unless an event of an earlier task is still in the queue: `unsubscribe` leaves it there.
-/

namespace StructurePulse.Service
open Signals Store Strategy Library
set_option autoImplicit false

section Results

/-- What `map` makes of a result. -/
theorem map_eq_ok {α β ε : Type} {result : Except ε α} {f : α → β} {b : β}
    (h : result.map f = .ok b) : ∃ a, result = .ok a ∧ f a = b := by
  cases result with
  | error left => cases h
  | ok a =>
    cases h
    exact ⟨a, rfl, rfl⟩

end Results

section Flags
variable {t t' : Tracker} {signal : TrackingSignalView}

/-- The two flags of the stream stay as they are, or the symbol is given up. -/
def Tracker.Follows (t t' : Tracker) : Prop :=
  t'.subscribed = t.subscribed ∧ t'.streamReady = t.streamReady ∨
    t'.subscribed = false ∧ t'.streamReady = false

theorem Tracker.Follows.refl (t : Tracker) : t.Follows t := Or.inl ⟨rfl, rfl⟩

theorem Tracker.Follows.trans {t'' : Tracker} (h : t.Follows t') (h' : t'.Follows t'') :
    t.Follows t'' := by
  rcases h' with ⟨hsubscribed, hready⟩ | hgone
  · rcases h with ⟨hsubscribed', hready'⟩ | ⟨hsubscribed', hready'⟩
    · exact Or.inl ⟨hsubscribed.trans hsubscribed', hready.trans hready'⟩
    · exact Or.inr ⟨hsubscribed.trans hsubscribed', hready.trans hready'⟩
  · exact Or.inr hgone

theorem commit_follows {α : Type} {write : Database → Except StoreError (Database × α)}
    {result : α} (h : t.commit write = .ok (t', result)) : t.Follows t' := by
  obtain ⟨db, life, -, -, rfl⟩ := commit_ok h
  exact Or.inl ⟨rfl, rfl⟩

theorem transition_follows {request : TransitionRequest}
    (h : t.transition signal request = .ok t') : t.Follows t' := by
  obtain ⟨db, life, result, -, -, rfl⟩ := transition_ok h
  unfold Tracker.settle
  split_ifs
  · exact Or.inl ⟨rfl, rfl⟩
  · exact Or.inr ⟨rfl, rfl⟩
  · exact Or.inl ⟨rfl, rfl⟩

theorem checkpoint_follows {trade : PublicTrade} (h : t.checkpoint signal trade = .ok t') :
    t.Follows t' := by
  obtain ⟨⟨committed, _⟩, hcommit, hnext⟩ := bind_eq_ok.mp h
  cases hnext
  exact (commit_follows hcommit).trans (Or.inl ⟨rfl, rfl⟩)

theorem applyActions_follows
    {context : TrackingSignalView → LifecycleAction → Nat → EventContext}
    {actions : List (LifecycleAction × Nat)} (h : t.applyActions context actions = .ok t') :
    t.Follows t' := by
  induction actions generalizing t with
  | nil =>
    cases h
    exact Tracker.Follows.refl _
  | cons action rest ih =>
    unfold Tracker.applyActions at h
    split at h
    · cases h
      exact Tracker.Follows.refl _
    · obtain ⟨after, htransition, hrest⟩ := bind_eq_ok.mp h
      exact (transition_follows htransition).trans (ih hrest)

theorem called_follows (t : Tracker) (signal : TrackingSignalView) (anchor : Int)
    (event : MarketEvent) : t.Follows (t.called signal anchor event) := Or.inl ⟨rfl, rfl⟩

theorem processTrade_follows {trade : PublicTrade} {due : Bool}
    (h : t.processTrade trade due = .ok t') : t.Follows t' := by
  unfold Tracker.processTrade at h
  split at h
  · cases h
    exact Tracker.Follows.refl _
  · obtain ⟨after, hactions, hrest⟩ := bind_eq_ok.mp h
    have hafter := (called_follows t _ _ _).trans (applyActions_follows hactions)
    split at hrest
    · cases hrest
      exact hafter
    · split at hrest
      · exact hafter.trans (checkpoint_follows hrest)
      · cases hrest
        exact hafter

theorem replay_follows {trades : List PublicTrade} (h : t.replay trades = .ok t') :
    t.Follows t' := by
  induction trades generalizing t with
  | nil =>
    cases h
    exact Tracker.Follows.refl _
  | cons trade rest ih =>
    unfold Tracker.replay at h
    split at h
    · cases h
      exact Tracker.Follows.refl _
    · obtain ⟨after, hprocess, hrest⟩ := bind_eq_ok.mp h
      exact (processTrade_follows hprocess).trans (ih hrest)

theorem replayAndCheckpoint_follows {trades : List PublicTrade}
    (h : t.replayAndCheckpoint trades = .ok t') : t.Follows t' := by
  obtain ⟨after, hreplay, hrest⟩ := bind_eq_ok.mp h
  have hafter := replay_follows hreplay
  split at hrest
  · exact hafter.trans (checkpoint_follows hrest)
  · cases hrest
    exact hafter

theorem applyCandles_follows {anchor : Int} {coverageReason : CoverageFailure}
    {candles : List Candle1m} (h : t.applyCandles anchor coverageReason candles = .ok t') :
    t.Follows t' := by
  induction candles generalizing t with
  | nil =>
    cases h
    exact Tracker.Follows.refl _
  | cons candle rest ih =>
    unfold Tracker.applyCandles at h
    split at h
    · cases h
      exact Or.inl ⟨rfl, rfl⟩
    · obtain ⟨after, hactions, hrest⟩ := bind_eq_ok.mp h
      have hafter := (called_follows t _ _ _).trans (applyActions_follows hactions)
      split at hrest
      · cases hrest
        exact hafter.trans (Or.inl ⟨rfl, rfl⟩)
      · exact hafter.trans (ih hrest)

theorem covered_follows (t : Tracker) : t.Follows t.covered := Or.inl ⟨rfl, rfl⟩

theorem acceptCoverage_follows {anchor : Int} {trades : List PublicTrade}
    (h : t.acceptCoverage signal anchor trades = .ok t') : t.Follows t' := by
  obtain ⟨activated, hactivate, hreplay⟩ := bind_eq_ok.mp h
  obtain ⟨after, hafter, rfl⟩ := map_eq_ok hactivate
  have hfollows : t.Follows after := by
    split_ifs at hafter
    · exact transition_follows hafter
    · cases hafter
      exact Tracker.Follows.refl _
  exact (hfollows.trans (covered_follows after)).trans (replayAndCheckpoint_follows hreplay)

theorem failCoverage_follows {anchor now : Int} {reason : Option CoverageFailure}
    (h : t.failCoverage signal anchor now reason = .ok t') : t.Follows t' := by
  obtain ⟨after, hafter, rfl⟩ := map_eq_ok h
  exact (transition_follows hafter).trans (covered_follows after)

theorem applyRecovery_follows {anchor now : Int} {coverageReason : CoverageFailure}
    {candles : List Candle1m} {replayFrom : Option Int}
    (h : t.applyRecovery signal anchor coverageReason now candles = .ok (t', replayFrom)) :
    t.Follows t' := by
  unfold Tracker.applyRecovery at h
  split_ifs at h
  · cases h
    exact Tracker.Follows.refl _
  · cases h
    exact Tracker.Follows.refl _
  · obtain ⟨after, hcandles, hrest⟩ := bind_eq_ok.mp h
    have hafter := applyCandles_follows hcandles
    split at hrest
    · cases hrest
      exact hafter
    · obtain ⟨⟨recorded, _⟩, hcommit, hnext⟩ := bind_eq_ok.mp hrest
      cases hnext
      exact hafter.trans ((covered_follows after).trans (commit_follows hcommit))

theorem answered_follows {rest buffer : List PublicTrade} {now : Int} {data : MarketData}
    {replayFrom : Option Int}
    (h : t.answered rest buffer now data = .ok (t', replayFrom)) : t.Follows t' := by
  unfold Tracker.answered at h
  split at h
  · simp only at h
    split_ifs at h
    · obtain ⟨after, hafter, hmapped⟩ := map_eq_ok h
      cases hmapped
      exact acceptCoverage_follows hafter
    · obtain ⟨after, hafter, hmapped⟩ := map_eq_ok h
      cases hmapped
      exact failCoverage_follows hafter
    · exact applyRecovery_follows h
  · cases h
    exact Tracker.Follows.refl _

theorem replayBuffer_follows {buffer : List PublicTrade} {replayFrom : Option Int}
    (h : t.replayBuffer buffer replayFrom = .ok t') : t.Follows t' := by
  cases replayFrom with
  | none =>
    cases h
    exact Tracker.Follows.refl _
  | some start => exact replayAndCheckpoint_follows h

theorem reload_follows (t : Tracker) (symbol : Symbol) : t.Follows (t.reload symbol) := by
  unfold Tracker.reload
  split
  · exact Or.inl ⟨rfl, rfl⟩
  · split_ifs
    · exact Or.inr ⟨rfl, rfl⟩
    · exact Tracker.Follows.refl _

/-- A symbol that still has a signal is not given up. -/
theorem reload_same {symbol : Symbol} (h : (t.reload symbol).signal = some signal) :
    (t.reload symbol).subscribed = t.subscribed ∧
      (t.reload symbol).streamReady = t.streamReady := by
  unfold Tracker.reload at h ⊢
  split
  · exact ⟨rfl, rfl⟩
  · rename_i hnone
    rw [hnone] at h
    simp only at h
    split_ifs at h ⊢
    · cases h
    · exact ⟨rfl, rfl⟩

/-- A poll may subscribe; it does not change what is known of the stream then. -/
theorem poll_follows {symbol : Symbol} {now : Int} {isDue : Bool}
    (h : t.poll symbol now = .ok (t', isDue)) :
    t.Follows t' ∨ t.subscribed = false ∧ t'.streamReady = t.streamReady := by
  have hreload := reload_follows t symbol
  unfold Tracker.poll at h
  simp only at h
  split at h
  · cases h
    exact Or.inl hreload
  · rename_i signal hsignal
    obtain ⟨hkept, hready⟩ := reload_same hsignal
    split_ifs at h with hwaiting hactive hsubscribed
    · obtain ⟨after, htransition, hmapped⟩ := map_eq_ok h
      cases hmapped
      exact Or.inl (hreload.trans (transition_follows htransition))
    · obtain ⟨after, htransition, hmapped⟩ := map_eq_ok h
      cases hmapped
      exact Or.inl (hreload.trans (transition_follows htransition))
    · cases h
      refine Or.inr ⟨?_, hready⟩
      rw [← hkept]
      simpa using hsubscribed
    · cases h
      exact Or.inl hreload

end Flags

section Sessions

/-- What an event says about `_stream_ready`. -/
def StreamEvent.flag? : StreamEvent → Option Bool
  | .trade _ => none
  | .ready _ => some true
  | .disconnected _ => some false

def flagAfter (events : List StreamEvent) (isReady : Bool) : Bool :=
  events.foldl (fun isReady event => event.flag?.getD isReady) isReady

/-- Well-formed events tell the session through their last flag. -/
theorem sessionAfter_flag {events : List StreamEvent} {session : StreamSession}
    (h : sessionAfter events = some session) :
    flagAfter events false = true ↔ session = .ready := by
  induction events using List.reverseRecOn generalizing session with
  | nil =>
    cases h
    exact ⟨fun hflag => absurd hflag Bool.false_ne_true, fun hready => by cases hready⟩
  | append_singleton events event ih =>
    rw [sessionAfter_snoc] at h
    obtain ⟨earlier, hearlier, hnext⟩ := Option.bind_eq_some_iff.mp h
    have hflag := ih hearlier
    have hsnoc : flagAfter (events ++ [event]) false =
        event.flag?.getD (flagAfter events false) := by
      unfold flagAfter
      rw [List.foldl_append]
      rfl
    rw [hsnoc]
    cases event with
    | trade trade =>
      refine hflag.trans ?_
      cases earlier <;> cases hnext <;> decide
    | ready symbol =>
      cases earlier <;> cases hnext
      exact ⟨fun _ => rfl, fun _ => rfl⟩
    | disconnected symbol =>
      have hsilent : session = .silent := by
        cases earlier <;> cases hnext <;> rfl
      rw [hsilent]
      constructor
      · intro hflag
        cases hflag
      · intro hready
        cases hready

end Sessions

section Steps
variable {settings : StreamSettings} {world next : StreamWorld}

def StreamWorld.isStreamReady (world : StreamWorld) (symbol : Symbol) : Bool :=
  (world.service.memory symbol).streamReady

/-- What a step does to the flags of a symbol: it follows what it takes, gives the symbol up, or
subscribes to it. -/
def Turned (world : StreamWorld) (symbol : Symbol) (action : StreamAction)
    (subscribed isReady : Bool) : Prop :=
  subscribed = world.isSubscribed symbol ∧
      isReady = flagAfter (world.takenOf symbol action) (world.isStreamReady symbol) ∨
    subscribed = false ∧ isReady = false ∨
    world.isSubscribed symbol = false ∧ isReady = world.isStreamReady symbol ∧
      world.takenOf symbol action = []

/-- An operation on one symbol. -/
theorem settle_turned {symbol : Symbol} {action : StreamAction} {mid : StreamWorld}
    {result : Except Stopped (Tracker × Consumer)} (hmid : mid.service = world.service)
    (hown : ∀ t consumer, result = .ok (t, consumer) →
      Turned world symbol action t.subscribed t.streamReady)
    (hothers : ∀ other, other ≠ symbol → world.takenOf other action = []) (other : Symbol) :
    Turned world other action ((mid.settle symbol result).isSubscribed other)
      ((mid.settle symbol result).isStreamReady other) := by
  cases result with
  | error left => exact Or.inr (Or.inl ⟨rfl, rfl⟩)
  | ok pair =>
    obtain ⟨t, consumer⟩ := pair
    by_cases hother : other = symbol
    · subst hother
      have hmemory : (mid.settle other (.ok (t, consumer))).service.memory other = t.toMemory :=
        if_pos rfl
      unfold StreamWorld.isSubscribed StreamWorld.isStreamReady
      rw [hmemory]
      exact hown t consumer rfl
    · have hmemory : (mid.settle symbol (.ok (t, consumer))).service.memory other =
          world.service.memory other := by
        rw [← hmid]
        exact if_neg hother
      refine Or.inl ⟨?_, ?_⟩
      · unfold StreamWorld.isSubscribed
        rw [hmemory]
      · rw [hothers other hother]
        unfold StreamWorld.isStreamReady
        rw [hmemory]
        rfl

/-- An operation that follows the flags of the memory. -/
theorem turned_of_follows {symbol : Symbol} {action : StreamAction} {life : Nat} {t : Tracker}
    (h : (world.service.tracker symbol life).Follows t)
    (hnothing : world.takenOf symbol action = []) :
    Turned world symbol action t.subscribed t.streamReady := by
  rcases h with ⟨hsubscribed, hready⟩ | hgone
  · refine Or.inl ⟨hsubscribed, ?_⟩
    rw [hnothing]
    exact hready
  · exact Or.inr (Or.inl hgone)

theorem take_turned {due : Bool} {event : StreamEvent} {t t' : Tracker} {consumer : Consumer}
    (h : t.take due event = .ok (t', consumer)) :
    t'.subscribed = t.subscribed ∧ t'.streamReady = event.flag?.getD t.streamReady ∨
      t'.subscribed = false ∧ t'.streamReady = false := by
  cases event with
  | trade trade =>
    simp only [Tracker.take] at h
    split_ifs at h
    · cases h
      exact Or.inl ⟨rfl, rfl⟩
    · obtain ⟨after, hprocess, hmapped⟩ := map_eq_ok h
      cases hmapped
      exact processTrade_follows hprocess
  | ready symbol =>
    cases h
    exact Or.inl ⟨rfl, rfl⟩
  | disconnected symbol =>
    cases h
    exact Or.inl ⟨rfl, rfl⟩

theorem stream_turned {action : StreamAction} (htask : action.ofTask = false)
    (h : stream settings world action = .ok next) (symbol : Symbol) :
    Turned world symbol action (next.isSubscribed symbol) (next.isStreamReady symbol) := by
  cases action with
  | receive _ | connected _ | lost _ | dropped _ => cases htask
  | put other =>
    unfold stream at h
    simp only at h
    split at h
    · cases h
    · split_ifs at h
      cases h
      exact Or.inl ⟨rfl, rfl⟩
  | pop due life =>
    unfold stream at h
    simp only at h
    split at h
    · rename_i event events _ hevents
      cases h
      have htaken : ∀ other, world.takenOf other (.pop due life) =
          if event.symbol = other then [event] else [] := by
        intro other
        unfold StreamWorld.takenOf
        rw [hevents]
        simp only [List.take_succ_cons, List.take_zero, List.filter_singleton, cond_eq_ite,
          decide_eq_true_eq]
      refine @settle_turned world event.symbol (.pop due life)
        { world with stream := { world.stream with events := events } } _ rfl ?_ ?_ symbol
      · intro t consumer hresult
        rcases take_turned hresult with ⟨hsubscribed, hready⟩ | hgone
        · refine Or.inl ⟨hsubscribed, ?_⟩
          rw [htaken, if_pos rfl]
          exact hready
        · exact Or.inr (Or.inl hgone)
      · intro other hother
        rw [htaken, if_neg (Ne.symm hother)]
    · cases h
  | poll other now life =>
    unfold stream at h
    simp only at h
    split at h
    · cases h
      refine settle_turned rfl ?_ (fun _ _ => rfl) symbol
      intro t consumer hresult
      obtain ⟨⟨polled, isDue⟩, hpoll, hmapped⟩ := map_eq_ok hresult
      have hpolled : t.subscribed = polled.subscribed ∧ t.streamReady = polled.streamReady := by
        simp only at hmapped
        split_ifs at hmapped
        · cases hmapped
          exact ⟨rfl, rfl⟩
        · cases hmapped
          exact ⟨rfl, rfl⟩
      rw [hpolled.1, hpolled.2]
      rcases poll_follows hpoll with hfollows | ⟨hsubscribed, hready⟩
      · exact turned_of_follows hfollows rfl
      · exact Or.inr (Or.inr ⟨hsubscribed, hready, rfl⟩)
    · cases h
  | answer rest now data life =>
    unfold stream at h
    simp only at h
    split at h
    · cases h
      refine settle_turned rfl ?_ (fun _ _ => rfl) symbol
      intro t consumer hresult
      obtain ⟨⟨answered, replayFrom⟩, hanswered, hmapped⟩ := map_eq_ok hresult
      cases hmapped
      exact turned_of_follows (answered_follows hanswered) rfl
    · cases h
  | replay life =>
    unfold stream at h
    simp only at h
    split at h
    · cases h
      refine settle_turned rfl ?_ (fun _ _ => rfl) symbol
      intro t consumer hresult
      obtain ⟨replayed, hreplayed, hmapped⟩ := map_eq_ok hresult
      cases hmapped
      exact turned_of_follows (replayBuffer_follows hreplayed) rfl
    · cases h
  | publish candidates config publicationTime =>
    cases h
    exact Or.inl ⟨rfl, rfl⟩
  | killed =>
    cases h
    exact Or.inr (Or.inl ⟨rfl, rfl⟩)

end Steps

section Link
variable {settings : TaskSettings} {world next : TaskedWorld}

/-- Every event in the queue is of a symbol that is subscribed. -/
def NoLeftovers (world : TaskedWorld) : Prop :=
  ∀ event ∈ world.stream.events, world.isSubscribed event.symbol = true

instance (world : TaskedWorld) : Decidable (NoLeftovers world) :=
  inferInstanceAs (Decidable (∀ event ∈ world.stream.events, _))

/-- `_stream_ready` of a symbol is what the consumed events of its task say. -/
structure Told (settings : StreamSettings) (world : TaskedWorld) : Prop where
  tasked : Tasked settings world
  gone : ∀ symbol, world.isSubscribed symbol = false → world.isStreamReady symbol = false
  told : ∀ symbol task, world.tasks symbol = some task → ∃ consumed,
    TaskKept settings world.toStreamWorld symbol task [] consumed ∧
      world.isStreamReady symbol = flagAfter consumed false

theorem NoLeftovers.queued (h : NoLeftovers world) {symbol : Symbol}
    (hsymbol : world.isSubscribed symbol = false) : world.stream.queued symbol = [] := by
  apply List.filter_eq_nil_iff.mpr
  intro event hevent hown
  have hsubscribed := h event hevent
  rw [of_decide_eq_true hown, hsymbol] at hsubscribed
  cases hsubscribed

theorem Told.task (h : Told settings.toStreamSettings world) {symbol : Symbol}
    {action : TradeAction} (hstep : taskedStep settings world (.task symbol action) = .ok next) :
    Told settings.toStreamSettings next := by
  obtain ⟨htasked, hmoves⟩ := h.tasked.task hstep
  have hmemory : ∀ other, next.isStreamReady other = world.isStreamReady other ∧
      next.isSubscribed other = world.isSubscribed other := by
    intro other
    unfold StreamWorld.isStreamReady StreamWorld.isSubscribed
    rw [hmoves.service]
    exact ⟨rfl, rfl⟩
  refine ⟨htasked, fun other hother => ?_, fun other later hlater => ?_⟩
  · rw [(hmemory other).1]
    rw [(hmemory other).2] at hother
    exact h.gone other hother
  · rw [(hmemory other).1]
    simp only [taskedStep] at hstep
    split at hstep
    · cases hstep
    · rename_i task htask
      obtain ⟨⟨after, own⟩, htaken, hnext⟩ := bind_eq_ok.mp hstep
      cases hnext
      simp only at hlater
      split_ifs at hlater with hother
      · cases hlater
        subst hother
        obtain ⟨consumed, hkept, hflag⟩ := h.told other task htask
        exact ⟨consumed, (hkept.step htaken).1, hflag⟩
      · obtain ⟨consumed, hkept, hflag⟩ := h.told other later hlater
        exact ⟨consumed, hkept.untouched (hmoves.others other hother), hflag⟩

theorem Told.enqueued (h : Told settings.toStreamSettings world) {symbol : Symbol}
    {after : StreamWorld} (henqueued : Enqueued symbol world.toStreamWorld after) :
    Told settings.toStreamSettings
      { toStreamWorld := after, tasks := retask world.toStreamWorld after world.tasks } := by
  refine ⟨h.tasked.enqueued henqueued, fun other hother => ?_, fun other task htask => ?_⟩
  · simp only [StreamWorld.isSubscribed, StreamWorld.isStreamReady, henqueued.service] at hother ⊢
    exact h.gone other hother
  · rw [h.tasked.retask_same henqueued.service] at htask
    obtain ⟨consumed, hkept, hflag⟩ := h.told other task htask
    refine ⟨consumed, hkept.enqueued henqueued (h.tasked.putting symbol), ?_⟩
    simp only [StreamWorld.isStreamReady, henqueued.service]
    exact hflag

/-- A step of the consumer, when no leftovers are in the queue. -/
theorem Told.served (h : Told settings.toStreamSettings world) (hclean : NoLeftovers world)
    {action : StreamAction} {after : StreamWorld}
    (hserved : Served (world.toStreamWorld.taken action) after)
    (hturned : ∀ symbol, Turned world.toStreamWorld symbol action (after.isSubscribed symbol)
      (after.isStreamReady symbol)) :
    Told settings.toStreamSettings
      { toStreamWorld := after, tasks := retask world.toStreamWorld after world.tasks } := by
  obtain ⟨hsame, hputs, hbuffers⟩ := taken_same world.toStreamWorld action
  have hnothing : ∀ symbol, world.isSubscribed symbol = false →
      world.toStreamWorld.takenOf symbol action = [] ∧
        (world.toStreamWorld.taken action).stream.queued symbol = [] := by
    intro symbol hsymbol
    have hqueued := queued_taken world.toStreamWorld action symbol
    rw [hclean.queued hsymbol] at hqueued
    exact List.append_eq_nil_iff.mp hqueued.symm
  refine ⟨h.tasked.served hserved, fun symbol hsymbol => ?_, fun symbol task htask => ?_⟩
  · change after.isStreamReady symbol = false
    rcases hturned symbol with ⟨hsubscribed, hready⟩ | ⟨-, hready⟩ | ⟨hbefore, hready, -⟩
    · have hbefore : world.isSubscribed symbol = false := hsubscribed.symm.trans hsymbol
      rw [hready, (hnothing symbol hbefore).1]
      exact h.gone symbol hbefore
    · exact hready
    · rw [hready]
      exact h.gone symbol hbefore
  · simp only [retask] at htask
    split_ifs at htask with hafter hbefore
    · obtain ⟨hputting, hbuffer⟩ := hserved.kept symbol ((hsame symbol).trans hbefore) hafter
      rw [hputs] at hputting
      rw [hbuffers] at hbuffer
      have hpopped := queued_taken world.toStreamWorld action symbol
      rw [← hserved.queued symbol hafter] at hpopped
      obtain ⟨consumed, hkept, hflag⟩ := h.told symbol task htask
      obtain ⟨left, taken, hlater, hexact⟩ := hkept.popped hputting hbuffer hpopped
      obtain ⟨rfl, rfl⟩ := hexact rfl
      refine ⟨_, hlater, ?_⟩
      rcases hturned symbol with ⟨-, hready⟩ | ⟨hgone, -⟩ | ⟨hnot, -, -⟩
      · change after.isStreamReady symbol = _
        rw [hready, hflag]
        exact List.foldl_append.symm
      · rw [hafter] at hgone
        cases hgone
      · have hbefore' : world.isSubscribed symbol = true := hbefore
        rw [hbefore'] at hnot
        cases hnot
    · cases htask
      rw [Bool.not_eq_true] at hbefore
      obtain ⟨hputting, hbuffer⟩ :=
        hserved.fresh symbol ((hsame symbol).trans hbefore) hafter
      have hqueued : after.stream.queued symbol = [] :=
        (hserved.queued symbol hafter).trans (hnothing symbol hbefore).2
      have hkept := @taskKept_initial settings.toStreamSettings after symbol hputting hbuffer
      rw [hqueued] at hkept
      refine ⟨[], hkept, ?_⟩
      change after.isStreamReady symbol = false
      rcases hturned symbol with ⟨hsubscribed, -⟩ | ⟨hgone, -⟩ | ⟨-, hready, -⟩
      · rw [hafter, hbefore] at hsubscribed
        cases hsubscribed
      · rw [hafter] at hgone
        cases hgone
      · rw [hready]
        exact h.gone symbol hbefore

theorem Told.step (h : Told settings.toStreamSettings world) (hclean : NoLeftovers world)
    {action : TaskedAction} (hstep : taskedStep settings world action = .ok next) :
    Told settings.toStreamSettings next := by
  cases action with
  | task symbol action => exact h.task hstep
  | service action =>
    simp only [taskedStep] at hstep
    split at hstep
    · cases hstep
    · rename_i htask
      rw [Bool.not_eq_true] at htask
      obtain ⟨after, hafter, hnext⟩ := bind_eq_ok.mp hstep
      cases hnext
      by_cases hput : ∃ symbol, action = .put symbol
      · obtain ⟨symbol, rfl⟩ := hput
        exact h.enqueued (stream_put hafter)
      · have hserved := stream_served htask (fun symbol hsymbol => hput ⟨symbol, hsymbol⟩) hafter
        exact h.served hclean hserved (stream_turned htask hafter)

theorem told_initial (settings : StreamSettings) (instruments : List InstrumentRecord)
    (snapshots : List AnalysisSnapshotRecord) (candidates : List SignalCandidateRecord) :
    Told settings { toStreamWorld := StreamWorld.initial instruments snapshots candidates } := by
  refine ⟨tasked_initial settings instruments snapshots candidates, fun symbol _ => rfl,
    fun symbol task htask => ?_⟩
  cases htask

end Link

section Runs
variable (settings : TaskSettings) (instruments : List InstrumentRecord)
variable (snapshots : List AnalysisSnapshotRecord) (candidates : List SignalCandidateRecord)

/-- As long as no event of an unsubscribed symbol is in the queue, the consumer takes a symbol for
ready exactly if the events that it has taken from the symbol's task announce the connection. -/
theorem stream_ready_follows (actions : List TaskedAction)
    (hclean : RunMeets (taskedStep settings) (fun world _ => NoLeftovers world)
      { toStreamWorld := StreamWorld.initial instruments snapshots candidates } actions) :
    let world := runAll (taskedStep settings)
      { toStreamWorld := StreamWorld.initial instruments snapshots candidates } actions
    ∀ symbol, (world.isSubscribed symbol = false → world.isStreamReady symbol = false) ∧
      ∀ task, world.tasks symbol = some task → ∃ consumed session,
        task.handed = consumed ++ world.stream.onTheWay symbol ∧
          sessionAfter consumed = some session ∧
          (world.isStreamReady symbol = true ↔ session = .ready) := by
  intro world symbol
  have htold : Told settings.toStreamSettings world :=
    runAll_invariant_of_meets (P := Told settings.toStreamSettings)
      (fun _ _ _ h hclean hstep => h.step hclean hstep)
      (told_initial settings.toStreamSettings instruments snapshots candidates) hclean
  refine ⟨htold.gone symbol, fun task htask => ?_⟩
  obtain ⟨consumed, hkept, hflag⟩ := htold.told symbol task htask
  obtain ⟨kept, hqueued, hhanded⟩ := hkept.onTheWay
  obtain ⟨last, hlast⟩ := hkept.wellFormed
  rw [hhanded, List.append_assoc] at hlast
  obtain ⟨session, hsession⟩ := sessionAfter_of_append hlast
  refine ⟨consumed, session, ?_, hsession, ?_⟩
  · rw [hhanded, List.append_assoc]
    unfold TradeStream.onTheWay
    change _ = consumed ++ (world.stream.queued symbol ++ _)
    rw [hqueued]
    rfl
  · rw [hflag]
    exact sessionAfter_flag hsession

end Runs

section Samples

def plainStream : TaskSettings where
  queueSize := 100
  bufferSize := 100
  reconnectBase := 1
  reconnectMax := 60
  upper := id

/-- The task connects and receives its first trade. -/
def firstTrade : List TaskedAction :=
  [.task "BTCUSDT" .connect, .task "BTCUSDT" .acknowledge,
    .task "BTCUSDT" (.receive ⟨"publicTrade.BTCUSDT",
      [{ timeMs := 10000, symbol := "BTCUSDT", side := .buy, size := 1, price := 110,
         tradeId := "a", sequence := 10 }]⟩),
    .task "BTCUSDT" .take, .service (.put "BTCUSDT"), .task "BTCUSDT" .announce,
    .service (.put "BTCUSDT")]

def laterCandidate : SignalCandidate := { sampleCandidate with expiresAt := minutes 4320 }

def sampleTasked : TaskedWorld where
  toStreamWorld := StreamWorld.initial [⟨"BTCUSDT", 480⟩] []
    [candidateRecord 1 1 sampleCandidate, candidateRecord 2 2 laterCandidate]

/-- A signal is published and subscribed, and its task connects. -/
def connectedRun : List TaskedAction :=
  [.service (.publish [(candidateRecord 1 1 sampleCandidate, sampleCandidate)] .standard 0),
    .service (.poll "BTCUSDT" 0 100)] ++ firstTrade

def announcedRun : List TaskedAction :=
  connectedRun ++ [.service (.pop false 100), .service (.pop false 100)]

theorem stream_ready_follows_sample :
    (runAll (taskedStep plainStream) sampleTasked announcedRun).isStreamReady "BTCUSDT" = true ∧
    ∀ symbol, ((runAll (taskedStep plainStream) sampleTasked announcedRun).isSubscribed symbol =
        false →
      (runAll (taskedStep plainStream) sampleTasked announcedRun).isStreamReady symbol = false) ∧
      ∀ task, (runAll (taskedStep plainStream) sampleTasked announcedRun).tasks symbol = some task →
        ∃ consumed session, task.handed = consumed ++
            (runAll (taskedStep plainStream) sampleTasked announcedRun).stream.onTheWay symbol ∧
          sessionAfter consumed = some session ∧
          ((runAll (taskedStep plainStream) sampleTasked announcedRun).isStreamReady symbol = true ↔
            session = .ready) :=
  ⟨by decide +kernel, stream_ready_follows plainStream _ _ _ announcedRun (by decide +kernel)⟩

/-- The first signal expires while its announcement is in the queue, and a later one is
published. -/
def staleRun : List TaskedAction :=
  connectedRun ++ [.service (.poll "BTCUSDT" (minutes 1440) 100), .service (.pop false 100),
    .service (.pop false 100),
    .service (.publish [(candidateRecord 2 2 laterCandidate, laterCandidate)] .standard
      (minutes 2880)),
    .service (.poll "BTCUSDT" (minutes 2880) 100), .service (.poll "BTCUSDT" (minutes 2881) 100)]

/-- The announcement of an earlier task makes the consumer cover the later signal while its task
is still connecting, and the signal fails. -/
theorem stale_announcement_fails_signal :
    ((runAll (taskedStep plainStream) sampleTasked staleRun).tasks "BTCUSDT").map
      TradeTask.phase = some .connecting ∧
    (((runAll (taskedStep plainStream) sampleTasked (staleRun ++
      [.service (.answer [] (minutes 2881) ⟨[], []⟩ 100)])).service.db.findSignal 2).map
        fun row => row.status) = some .coverageFailed := by
  decide +kernel

end Samples

end StructurePulse.Service
