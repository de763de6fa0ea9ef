import StructurePulse.Service.CandleRecovery
import StructurePulse.Service.Evaluations

/-!
# Trades are evaluated in the order of the exchange

A trade comes to the evaluator with its own event or with the replay of a coverage. A replay
evaluates a trade again if the trade's event is still on its way; as long as what is replayed
is older than what is on its way, and newer than what was evaluated before, every signal sees
the trades in the order of the exchange.
-/

namespace StructurePulse.Service
open Signals Store Strategy Library
set_option autoImplicit false

section Conditions

/-- The trades of a symbol that are on their way to the consumer. -/
def TradeStream.tradesOnTheWay (stream : TradeStream) (symbol : Symbol) : List PublicTrade :=
  (stream.onTheWay symbol).filterMap StreamEvent.trade?

/-- The trades of a symbol that its tasks received. -/
def receivedOf (received : List PublicTrade) (symbol : Symbol) : List PublicTrade :=
  received.filter fun trade => trade.symbol = symbol

/-- The exchange delivers the trades of a symbol in its order. -/
def DeliversInOrder (world : StreamWorld) : StreamAction → Prop
  | .receive trade => ∀ earlier ∈ receivedOf world.received trade.symbol, earlier.key < trade.key
  | _ => True

/-- The trades a step replays, and the signal it replays them for. -/
structure Replayed where
  symbol : Symbol
  id : Nat
  trades : List PublicTrade

def StreamWorld.replayed (world : StreamWorld) : StreamAction → Option Replayed
  | .answer rest _ _ _ =>
    match world.consumer with
    | .covering symbol =>
      match (world.service.memory symbol).signal, (world.service.memory symbol).coveragePending with
      | some signal, some anchor =>
        some ⟨symbol, signal.id,
          (mergeTradeCoverage rest (bufferedTrades (world.stream.buffers symbol) anchor) anchor).trades⟩
      | _, _ => none
    | _ => none
  | .replay _ =>
    match world.consumer with
    | .recovered symbol replayFrom =>
      (world.service.memory symbol).signal.map fun signal =>
        ⟨symbol, signal.id, bufferedTrades (world.stream.buffers symbol) replayFrom⟩
    | _ => none
  | _ => none

/-- A replayed trade fits in: it is newer than those evaluated for the signal, its stream has
come as far, and what is on the way is newer still. -/
structure FitsIn (world : StreamWorld) (symbol : Symbol) (id : Nat) (trade : PublicTrade) : Prop where
  newer : ∀ old ∈ evaluatedTrades world.service.calls id, old.key < trade.key
  delivered : ∃ last ∈ receivedOf world.received symbol, trade.key ≤ last.key
  ahead : ∀ later ∈ world.stream.tradesOnTheWay symbol, trade.key < later.key

instance (world : StreamWorld) (symbol : Symbol) (id : Nat) (trade : PublicTrade) :
    Decidable (FitsIn world symbol id trade) :=
  decidable_of_iff ((∀ old ∈ evaluatedTrades world.service.calls id, old.key < trade.key) ∧
      (∃ last ∈ receivedOf world.received symbol, trade.key ≤ last.key) ∧
      ∀ later ∈ world.stream.tradesOnTheWay symbol, trade.key < later.key)
    ⟨fun h => ⟨h.1, h.2.1, h.2.2⟩, fun h => ⟨h.newer, h.delivered, h.ahead⟩⟩

/-- Whatever the step replays fits in. -/
def ReplaysInOrder (world : StreamWorld) (action : StreamAction) : Prop :=
  ∀ replayed ∈ world.replayed action, ∀ trade ∈ replayed.trades,
    FitsIn world replayed.symbol replayed.id trade

instance (world : StreamWorld) (action : StreamAction) : Decidable (DeliversInOrder world action) := by
  unfold DeliversInOrder
  split
  · exact inferInstance
  · exact instDecidableTrue

instance (world : StreamWorld) (action : StreamAction) : Decidable (ReplaysInOrder world action) :=
  decidable_of_iff ((world.replayed action).toList.all fun replayed =>
      replayed.trades.all fun trade => FitsIn world replayed.symbol replayed.id trade) (by
    simp [ReplaysInOrder])

end Conditions

section Invariant

/-- The order of all that was received, is buffered, is on its way and was evaluated. -/
structure Ordered (world : StreamWorld) : Prop where
  intact : Intact AnyCall world.service
  evaluated : ∀ id, ExchangeOrdered (evaluatedTrades world.service.calls id)
  received : ∀ symbol, ExchangeOrdered (receivedOf world.received symbol)
  buffers : ∀ symbol, (world.stream.buffers symbol).Sublist (receivedOf world.received symbol)
  onTheWay : ∀ symbol,
    (world.stream.tradesOnTheWay symbol).Sublist (receivedOf world.received symbol)
  putting : ∀ symbol, ∀ event ∈ world.stream.putting symbol, event.symbol = symbol
  rows : ∀ call ∈ world.service.calls, call.trade?.isSome = true →
    ∃ row, world.service.db.findSignal call.signal.id = some row ∧ row.symbol = call.signal.symbol
  passed : ∀ call ∈ world.service.calls, ∀ trade ∈ call.trade?,
    (∃ last ∈ receivedOf world.received call.signal.symbol, trade.key ≤ last.key) ∧
      ∀ later ∈ world.stream.tradesOnTheWay call.signal.symbol, trade.key < later.key

/-- The trades an operation may evaluate for a signal. -/
structure Fresh (world : StreamWorld) (symbol : Symbol) (id : Nat) (trades : List PublicTrade) :
    Prop where
  row : trades ≠ [] → ∃ row, world.service.db.findSignal id = some row ∧ row.symbol = symbol
  ordered : ExchangeOrdered trades
  fits : ∀ trade ∈ trades, FitsIn world symbol id trade

theorem Fresh.nil (world : StreamWorld) (symbol : Symbol) (id : Nat) : Fresh world symbol id [] :=
  ⟨fun h => absurd rfl h, List.Pairwise.nil, fun _ h => absurd h List.not_mem_nil⟩

/-- Nothing in the stream is new but events that are no trades. -/
structure Keeps (old new : TradeStream) : Prop where
  buffers : ∀ symbol, (new.buffers symbol).Sublist (old.buffers symbol)
  onTheWay : ∀ symbol, (new.tradesOnTheWay symbol).Sublist (old.tradesOnTheWay symbol)
  putting : ∀ symbol, ∀ event ∈ new.putting symbol, event ∈ old.putting symbol ∨ event.symbol = symbol

theorem Keeps.refl (stream : TradeStream) : Keeps stream stream :=
  ⟨fun _ => List.Sublist.refl _, fun _ => List.Sublist.refl _, fun _ _ => Or.inl⟩

theorem Keeps.empty (stream : TradeStream) : Keeps stream {} :=
  ⟨fun _ => List.nil_sublist _, fun _ => List.nil_sublist _, fun _ _ h => by cases h⟩

theorem Keeps.reset (stream : TradeStream) (symbol : Symbol) : Keeps stream (stream.reset symbol) := by
  refine ⟨fun other => ?_, fun other => ?_, fun other event hevent => ?_⟩
  · unfold TradeStream.reset
    simp only
    split_ifs
    · exact List.nil_sublist _
    · exact List.Sublist.refl _
  · refine List.Sublist.filterMap _ (List.Sublist.append (List.Sublist.refl _) ?_)
    unfold TradeStream.reset
    simp only
    split_ifs
    · exact List.nil_sublist _
    · exact List.Sublist.refl _
  · unfold TradeStream.reset at hevent
    simp only at hevent
    split_ifs at hevent
    · cases hevent
    · exact Or.inl hevent

variable {world : StreamWorld} {symbol : Symbol} {id : Nat} {trades : List PublicTrade}

theorem exists_of_mem_evaluatedTrades {calls : List EvaluatorCall} {trade : PublicTrade}
    (h : trade ∈ evaluatedTrades calls id) :
    ∃ call ∈ calls, call.signal.id = id ∧ call.trade? = some trade := by
  obtain ⟨call, hcall, htrade⟩ := List.mem_filterMap.mp h
  obtain ⟨hmem, hid⟩ := List.mem_filter.mp hcall
  exact ⟨call, hmem, of_decide_eq_true hid, htrade⟩

/-- An operation on a symbol that evaluates what is fresh. -/
theorem Ordered.leaves (h : Ordered world) {t : Tracker} (hdb : t.db = world.service.db)
    (hcalls : t.calls = world.service.calls) {db : Database} {calls : List EvaluatorCall}
    (hleaves : Leaves id symbol trades t db calls) (hfresh : Fresh world symbol id trades)
    {next : StreamWorld} (hintact : Intact AnyCall next.service) (hnextdb : next.service.db = db)
    (hnextcalls : next.service.calls = calls) (hkeeps : Keeps world.stream next.stream)
    (hreceived : next.received = world.received) : Ordered next := by
  have hrows := hleaves.rows
  obtain ⟨added, hadded, htrades, hof⟩ := hleaves.evaluates
  rw [hdb] at hrows
  rw [hcalls] at hadded
  subst hnextdb hnextcalls
  -- a trade that was added is one of the fresh trades
  have hnew : ∀ call ∈ added, ∀ trade ∈ call.trade?, trade ∈ trades :=
    fun call hcall trade htrade => htrades.subset (List.mem_filterMap.mpr ⟨call, hcall, htrade⟩)
  refine ⟨hintact, fun other => ?_, ?_, ?_, ?_, ?_, ?_, ?_⟩
  · rw [hadded, evaluatedTrades_append]
    by_cases hother : other = id
    · subst hother
      have hall : evaluatedTrades added other = added.filterMap EvaluatorCall.trade? := by
        unfold evaluatedTrades
        rw [List.filter_eq_self.mpr fun call hcall => decide_eq_true (hof call hcall).1]
      rw [hall]
      refine List.pairwise_append.mpr ⟨h.evaluated other, hfresh.ordered.sublist htrades, ?_⟩
      intro old hold trade htrade
      exact (hfresh.fits trade (htrades.subset htrade)).newer old hold
    · have hnone : evaluatedTrades added other = [] := by
        unfold evaluatedTrades
        rw [List.filter_eq_nil_iff.mpr]
        · rfl
        · intro call hcall hid
          exact hother ((of_decide_eq_true hid).symm.trans (hof call hcall).1)
      rw [hnone, List.append_nil]
      exact h.evaluated other
  · rw [hreceived]
    exact h.received
  · rw [hreceived]
    exact fun other => (hkeeps.buffers other).trans (h.buffers other)
  · rw [hreceived]
    exact fun other => (hkeeps.onTheWay other).trans (h.onTheWay other)
  · exact fun other event hevent =>
      (hkeeps.putting other event hevent).elim (h.putting other event) fun hsymbol => hsymbol
  · intro call hcall hsome
    rw [hadded] at hcall
    rcases List.mem_append.mp hcall with hcall | hcall
    · obtain ⟨row, hrow, hsymbol⟩ := h.rows call hcall hsome
      obtain ⟨later, hlater, hsame⟩ := hrows _ row hrow
      exact ⟨later, hlater, hsame.trans hsymbol⟩
    · obtain ⟨trade, htrade⟩ := Option.isSome_iff_exists.mp hsome
      obtain ⟨row, hrow, hsymbol⟩ := hfresh.row (List.ne_nil_of_mem (hnew call hcall trade htrade))
      obtain ⟨later, hlater, hsame⟩ := hrows _ row hrow
      obtain ⟨hid, hcallsymbol⟩ := hof call hcall
      rw [hid, hcallsymbol]
      exact ⟨later, hlater, hsame.trans hsymbol⟩
  · intro call hcall trade htrade
    rw [hadded] at hcall
    rw [hreceived]
    rcases List.mem_append.mp hcall with hcall | hcall
    · obtain ⟨hlast, hlater⟩ := h.passed call hcall trade htrade
      exact ⟨hlast, fun later hmem => hlater later ((hkeeps.onTheWay _).subset hmem)⟩
    · have hfits := hfresh.fits trade (hnew call hcall trade htrade)
      rw [(hof call hcall).2]
      exact ⟨hfits.delivered, fun later hmem => hfits.ahead later ((hkeeps.onTheWay _).subset hmem)⟩

end Invariant

section Steps
variable {world next : StreamWorld} {symbol : Symbol} {id : Nat} {trades : List PublicTrade}

/-- Nothing but the stream has changed. -/
theorem Ordered.streamed (h : Ordered world) {next : StreamWorld}
    (hservice : next.service = world.service) (hkeeps : Keeps world.stream next.stream)
    (hreceived : next.received = world.received) : Ordered next := by
  have hleaves : Leaves 0 "" [] (world.service.tracker "" 0) world.service.db world.service.calls :=
    (h.intact.tracker "" 0).unwritten 0
  exact h.leaves rfl rfl hleaves (Fresh.nil world "" 0) (hservice ▸ h.intact) (by rw [hservice])
    (by rw [hservice]) hkeeps hreceived

/-- What an operation leaves of the world. -/
theorem Ordered.settle (h : Ordered world) {life : Nat} {x : Except Stopped (Tracker × Consumer)}
    (hworks : Working world.service.memory symbol id trades (world.service.tracker symbol life)
      (x.map Prod.fst))
    (hfresh : Fresh world symbol id trades) : Ordered (world.settle symbol x) := by
  cases x with
  | ok pair =>
    obtain ⟨t, consumer⟩ := pair
    have hleft : Works world.service.memory symbol id trades (world.service.tracker symbol life) t :=
      hworks
    refine h.leaves rfl rfl hleft.leaves hfresh ⟨hleft.leaves.journal, fun other => ?_, ?_⟩ rfl rfl ?_ rfl
    · by_cases hother : other = symbol
      · simp only [StreamWorld.settle, hother, if_true]
        exact hleft.tracked.synced
      · simp only [StreamWorld.settle, hother, if_false]
        exact hleft.tracked.others other hother
    · exact fun _ _ => trivial
    · unfold StreamWorld.settle
      simp only
      split_ifs
      · exact Keeps.refl _
      · exact Keeps.reset _ _
  | error left =>
    have hleft : Leaves id symbol trades (world.service.tracker symbol life) left.db left.calls :=
      hworks
    refine h.leaves rfl rfl hleft hfresh ⟨hleft.journal, fun other => ?_, fun _ _ => trivial⟩ rfl rfl
      (Keeps.empty _) rfl
    exact synced_none left.db other

/-- An operation that has nothing to do. -/
theorem Ordered.settle_same (h : Ordered world) {life : Nat} {x : Except Stopped (Tracker × Consumer)}
    (hx : x.map Prod.fst = .ok (world.service.tracker symbol life)) :
    Ordered (world.settle symbol x) := by
  have hsame : Working world.service.memory symbol (world.service.tracker symbol life).signalId []
      (world.service.tracker symbol life) (x.map Prod.fst) := by
    rw [hx]
    exact Works.refl (h.intact.tracker symbol life) (fun _ => Tracker.signalId_eq) []
  exact h.settle hsame (Fresh.nil world symbol _)

/-- A tracked signal has its row. -/
theorem Ordered.row (h : Ordered world) {signal : TrackingSignalView}
    (hsignal : (world.service.memory symbol).signal = some signal) :
    ∃ row, world.service.db.findSignal signal.id = some row ∧ row.symbol = symbol := by
  obtain ⟨row, trade, hrows⟩ := h.intact.synced symbol signal hsignal
  exact ⟨row, hrows.signalRow, hrows.sameSymbol⟩

theorem tradesOnTheWay_eq (stream : TradeStream) (symbol : Symbol) :
    stream.tradesOnTheWay symbol =
      (stream.events.filter fun event => event.symbol = symbol).filterMap StreamEvent.trade? ++
        (stream.putting symbol).toList.filterMap StreamEvent.trade? :=
  List.filterMap_append

/-- What a task offers comes after all that is on the way. -/
theorem tradesOnTheWay_offer {event : StreamEvent} (hoffer : world.offer event = .ok next)
    (symbol : Symbol) :
    next.stream.tradesOnTheWay symbol = world.stream.tradesOnTheWay symbol ++
      if symbol = event.symbol then event.trade?.toList else [] := by
  unfold StreamWorld.offer at hoffer
  split_ifs at hoffer with hidle
  cases hoffer
  rw [tradesOnTheWay_eq, tradesOnTheWay_eq]
  simp only
  split_ifs with hsymbol
  · rw [hsymbol, hidle.2]
    simp only [Option.toList_some, Option.toList_none, List.filterMap_cons, List.filterMap_nil,
      List.append_nil]
    cases event.trade? <;> rfl
  · rw [List.append_nil]

theorem offer_keeps {event : StreamEvent} (hoffer : world.offer event = .ok next) :
    next.service = world.service ∧ next.stream.buffers = world.stream.buffers ∧
      next.received = world.received := by
  unfold StreamWorld.offer at hoffer
  split_ifs at hoffer
  cases hoffer
  exact ⟨rfl, rfl, rfl⟩

theorem offer_putting {event : StreamEvent} (hoffer : world.offer event = .ok next)
    (symbol : Symbol) (other : StreamEvent) (h : other ∈ next.stream.putting symbol) :
    other ∈ world.stream.putting symbol ∨ other.symbol = symbol := by
  unfold StreamWorld.offer at hoffer
  split_ifs at hoffer
  cases hoffer
  simp only at h
  split_ifs at h with hsymbol
  · cases h
    exact Or.inr hsymbol.symm
  · exact Or.inl h

/-- An event that is not a trade. -/
theorem Ordered.offered (h : Ordered world) {event : StreamEvent} (hevent : event.trade? = none)
    (hoffer : world.offer event = .ok next) : Ordered next := by
  obtain ⟨hservice, hbuffers, hreceived⟩ := offer_keeps hoffer
  refine h.streamed hservice ⟨fun other => ?_, fun other => ?_, offer_putting hoffer⟩ hreceived
  · rw [hbuffers]
  · rw [tradesOnTheWay_offer hoffer, hevent]
    split_ifs
    · rw [Option.toList_none, List.append_nil]
    · rw [List.append_nil]

theorem Ordered.received_trade (h : Ordered world) (settings : StreamSettings) {trade : PublicTrade}
    (hdelivers : DeliversInOrder world (.receive trade))
    (hnext : Service.stream settings world (.receive trade) = .ok next) : Ordered next := by
  obtain ⟨offered, hoffer, hnext⟩ := bind_eq_ok.mp hnext
  cases hnext
  obtain ⟨hservice, hbuffers, hreceived⟩ := offer_keeps hoffer
  have hof : ∀ other, receivedOf (offered.received ++ [trade]) other =
      receivedOf world.received other ++ if other = trade.symbol then [trade] else [] := by
    intro other
    unfold receivedOf
    rw [hreceived, List.filter_append, List.filter_singleton]
    by_cases hother : other = trade.symbol
    · rw [if_pos hother, decide_eq_true hother.symm, cond_true]
    · rw [if_neg hother, decide_eq_false (Ne.symm hother), cond_false]
  have hway : ∀ other, offered.stream.tradesOnTheWay other =
      world.stream.tradesOnTheWay other ++ if other = trade.symbol then [trade] else [] :=
    tradesOnTheWay_offer hoffer
  refine ⟨hservice ▸ h.intact, ?_, fun other => ?_, fun other => ?_, fun other => ?_, ?_, ?_, ?_⟩
  · simp only [hservice]
    exact h.evaluated
  · rw [hof]
    refine List.pairwise_append.mpr ⟨h.received other, ?_, fun earlier hearlier later hlater => ?_⟩
    · split_ifs
      · exact List.pairwise_singleton _ _
      · exact List.Pairwise.nil
    · split_ifs at hlater with hother
      · rw [List.mem_singleton.mp hlater]
        exact hdelivers earlier (hother ▸ hearlier)
      · cases hlater
  · rw [hof]
    simp only [hbuffers]
    split_ifs with hother
    · unfold bufferAppend
      exact (List.drop_sublist _ _).trans ((h.buffers other).append (List.Sublist.refl _))
    · rw [List.append_nil]
      exact h.buffers other
  · rw [hof]
    change (offered.stream.tradesOnTheWay other).Sublist _
    rw [hway]
    exact (h.onTheWay other).append (List.Sublist.refl _)
  · exact fun other event hevent =>
      (offer_putting hoffer other event hevent).elim (h.putting other event) fun hsymbol => hsymbol
  · simp only [hservice]
    exact h.rows
  · intro call hcall evaluated hevaluated
    simp only [hservice] at hcall
    obtain ⟨⟨last, hlast, hle⟩, hlater⟩ := h.passed call hcall evaluated hevaluated
    rw [hof]
    refine ⟨⟨last, List.mem_append_left _ hlast, hle⟩, fun later hmem => ?_⟩
    change later ∈ offered.stream.tradesOnTheWay _ at hmem
    rw [hway] at hmem
    rcases List.mem_append.mp hmem with hmem | hmem
    · exact hlater later hmem
    · split_ifs at hmem with hother
      · rw [List.mem_singleton.mp hmem]
        exact hle.trans_lt (hdelivers last (hother ▸ hlast))
      · cases hmem

/-- The queue takes an event behind all that is on the way before it. -/
theorem Ordered.put (h : Ordered world) (settings : StreamSettings)
    (hnext : Service.stream settings world (.put symbol) = .ok next) : Ordered next := by
  unfold Service.stream at hnext
  simp only at hnext
  split at hnext
  · cases hnext
  · rename_i event hputting
    split_ifs at hnext
    cases hnext
    have hsymbol := h.putting symbol event hputting
    refine h.streamed rfl ⟨fun _ => List.Sublist.refl _, fun other => ?_, fun other event' hevent => ?_⟩ rfl
    · rw [tradesOnTheWay_eq, tradesOnTheWay_eq, List.filter_append, List.filterMap_append,
        List.append_assoc, List.filter_singleton]
      refine List.Sublist.append (List.Sublist.refl _) ?_
      simp only
      by_cases hother : other = symbol
      · rw [hother, if_pos rfl, hputting, decide_eq_true hsymbol, cond_true, Option.toList_none,
          List.filterMap_nil, List.append_nil, Option.toList_some]
      · rw [if_neg hother, decide_eq_false (fun heq => hother (heq.symm.trans hsymbol)), cond_false,
          List.filterMap_nil, List.nil_append]
    · simp only at hevent
      split_ifs at hevent
      · cases hevent
      · exact Or.inl hevent

/-- A trade that was not put is in the buffer only. -/
theorem Ordered.dropped (h : Ordered world) (settings : StreamSettings)
    (hnext : Service.stream settings world (.dropped symbol) = .ok next) : Ordered next := by
  unfold Service.stream at hnext
  simp only at hnext
  split at hnext
  · cases hnext
    refine h.streamed rfl ⟨fun _ => List.Sublist.refl _, fun other => ?_, fun other event hevent => ?_⟩ rfl
    · rw [tradesOnTheWay_eq, tradesOnTheWay_eq]
      apply List.Sublist.append (List.Sublist.refl _)
      simp only
      split_ifs
      · exact List.nil_sublist _
      · exact List.Sublist.refl _
    · simp only at hevent
      split_ifs at hevent
      · cases hevent
      · exact Or.inl hevent
  · cases hnext

/-- The popped event was the first of its symbol on the way. -/
theorem tradesOnTheWay_pop {event : StreamEvent} {events : List StreamEvent}
    (hevents : world.stream.events = event :: events) (symbol : Symbol) :
    world.stream.tradesOnTheWay symbol =
      (if symbol = event.symbol then event.trade?.toList else []) ++
        TradeStream.tradesOnTheWay { world.stream with events := events } symbol := by
  rw [tradesOnTheWay_eq, tradesOnTheWay_eq, hevents, List.filter_cons]
  simp only
  split_ifs with hevent hsymbol hsymbol
  · rw [List.filterMap_cons]
    cases event.trade? <;> rfl
  · exact absurd (of_decide_eq_true hevent).symm hsymbol
  · exact absurd (decide_eq_true hsymbol.symm) hevent
  · rfl

theorem Ordered.pop (h : Ordered world) (settings : StreamSettings) {due : Bool} {life : Nat}
    (hnext : Service.stream settings world (.pop due life) = .ok next) : Ordered next := by
  unfold Service.stream at hnext
  simp only at hnext
  split at hnext
  · rename_i event events hidle hevents
    cases hnext
    let popped : StreamWorld := { world with stream := { world.stream with events := events } }
    have hway := tradesOnTheWay_pop hevents
    have hpopped : Ordered popped :=
      h.streamed rfl ⟨fun _ => List.Sublist.refl _,
        fun other => hway other ▸ List.sublist_append_right _ _, fun _ _ => Or.inl⟩ rfl
    refine hpopped.settle ((h.intact.tracker event.symbol life).take_works due event) ?_
    cases hsignal : (world.service.memory event.symbol).signal with
    | none =>
      have htakes : (world.service.tracker event.symbol life).takes event = [] := by
        unfold Tracker.takes
        rw [show (world.service.tracker event.symbol life).signal = none from hsignal]
        rfl
      rw [htakes]
      exact Fresh.nil popped _ _
    | some signal =>
      have hid : (world.service.tracker event.symbol life).signalId = signal.id :=
        (Tracker.signalId_eq hsignal).symm
      have htakes : (world.service.tracker event.symbol life).takes event = event.trade?.toList := by
        unfold Tracker.takes
        rw [show (world.service.tracker event.symbol life).signal = some signal from hsignal]
        rfl
      obtain ⟨row, hrow, hrowsymbol⟩ := h.row hsignal
      rw [hid, htakes]
      have hfirst := hway event.symbol
      rw [if_pos rfl] at hfirst
      have hordered : ExchangeOrdered (world.stream.tradesOnTheWay event.symbol) :=
        (h.received _).sublist (h.onTheWay _)
      rw [hfirst] at hordered
      refine ⟨fun _ => ⟨row, hrow, hrowsymbol⟩, (List.pairwise_append.mp hordered).1,
        fun trade htrade => ?_⟩
      have hmem : trade ∈ world.stream.tradesOnTheWay event.symbol :=
        hfirst ▸ List.mem_append_left _ htrade
      refine ⟨fun old hold => ?_, ⟨trade, (h.onTheWay _).subset hmem, le_rfl⟩,
        fun later hlater => (List.pairwise_append.mp hordered).2.2 trade htrade later hlater⟩
      -- the row of the signal tells that what was evaluated for it was of this symbol
      obtain ⟨call, hcall, hcallid, hold⟩ := exists_of_mem_evaluatedTrades hold
      obtain ⟨other, hother, hothersymbol⟩ := h.rows call hcall (hold ▸ rfl)
      rw [hcallid, hrow] at hother
      cases hother
      have hpassed := (h.passed call hcall old hold).2 trade
      rw [← hothersymbol, hrowsymbol] at hpassed
      exact hpassed hmem
  · cases hnext

theorem Ordered.poll (h : Ordered world) (settings : StreamSettings) {now : Int} {life : Nat}
    (hnext : Service.stream settings world (.poll symbol now life) = .ok next) : Ordered next := by
  unfold Service.stream at hnext
  simp only at hnext
  split at hnext
  · cases hnext
    obtain ⟨id, hworks⟩ := (h.intact.tracker symbol life).poll_works now
    refine @Ordered.settle _ _ _ _ h life _ ?_ (Fresh.nil world symbol id)
    cases hpoll : (world.service.tracker symbol life).poll symbol now with
    | error left =>
      rw [hpoll] at hworks
      exact hworks
    | ok polled =>
      rw [hpoll] at hworks
      simp only [Except.map]
      split_ifs
      · exact hworks
      · exact hworks
  · cases hnext

/-- A replay of trades that fit in. -/
theorem Ordered.answer (h : Ordered world) (settings : StreamSettings) {rest : List PublicTrade}
    {now : Int} {data : MarketData} {life : Nat}
    (hreplays : ReplaysInOrder world (.answer rest now data life))
    (hnext : Service.stream settings world (.answer rest now data life) = .ok next) :
    Ordered next := by
  unfold Service.stream at hnext
  simp only at hnext
  split at hnext
  · rename_i symbol hconsumer
    cases hnext
    have htracked := h.intact.tracker symbol life
    let answered := (world.service.tracker symbol life).answered rest (world.stream.buffers symbol)
      now data
    have hfst : ∀ x : Except Stopped (Tracker × Option Int),
        (x.map fun applied => (applied.1, waiting symbol applied.2)).map Prod.fst = x.map Prod.fst := by
      intro x
      cases x <;> rfl
    have hidle : answered = .ok (world.service.tracker symbol life, none) →
        Ordered (world.settle symbol (answered.map fun applied =>
          (applied.1, waiting symbol applied.2))) := by
      intro heq
      refine @Ordered.settle_same _ _ h life _ ?_
      rw [hfst, heq]
      rfl
    cases hsignal : (world.service.memory symbol).signal with
    | none =>
      refine hidle ?_
      unfold answered Tracker.answered
      rw [show (world.service.tracker symbol life).signal = none from hsignal]
    | some signal =>
      cases hpending : (world.service.memory symbol).coveragePending with
      | none =>
        refine hidle ?_
        unfold answered Tracker.answered
        rw [show (world.service.tracker symbol life).coveragePending = none from hpending]
        cases (world.service.tracker symbol life).signal <;> rfl
      | some anchor =>
        have hworks := htracked.answered_works hsignal hpending rest (world.stream.buffers symbol) now
          data
        rw [← hfst] at hworks
        refine h.settle hworks ⟨fun _ => h.row hsignal, (mergeTradeCoverage_ordered _ _ _).1,
          fun trade htrade => ?_⟩
        refine hreplays ⟨symbol, signal.id, _⟩ ?_ trade htrade
        unfold StreamWorld.replayed
        simp only [hconsumer, hsignal, hpending]
        rfl
  · cases hnext

theorem Ordered.replay (h : Ordered world) (settings : StreamSettings) {life : Nat}
    (hreplays : ReplaysInOrder world (.replay life))
    (hnext : Service.stream settings world (.replay life) = .ok next) : Ordered next := by
  unfold Service.stream at hnext
  simp only at hnext
  split at hnext
  · rename_i symbol replayFrom hconsumer
    cases hnext
    have htracked := h.intact.tracker symbol life
    cases hsignal : (world.service.memory symbol).signal with
    | none =>
      refine @Ordered.settle_same _ _ h life _ ?_
      rw [map_pair_fst, replayBuffer_none hsignal]
    | some signal =>
      have hworks : Working world.service.memory symbol signal.id
          (bufferedTrades (world.stream.buffers symbol) replayFrom) (world.service.tracker symbol life)
          ((((world.service.tracker symbol life).replayBuffer (world.stream.buffers symbol)
            (some replayFrom)).map (·, Consumer.idle)).map Prod.fst) := by
        rw [map_pair_fst]
        exact htracked.replayBuffer_works hsignal (world.stream.buffers symbol) replayFrom
      have hordered : ExchangeOrdered (bufferedTrades (world.stream.buffers symbol) replayFrom) :=
        (h.received symbol).sublist ((List.filter_sublist).trans (h.buffers symbol))
      refine h.settle hworks ⟨fun _ => h.row hsignal, hordered, fun trade htrade => ?_⟩
      refine hreplays ⟨symbol, signal.id, _⟩ ?_ trade htrade
      unfold StreamWorld.replayed
      simp only [hconsumer, hsignal]
      rfl
  · cases hnext

/-- A publication keeps the rows. -/
theorem published_sameSymbols (db : Database)
    (candidates : List (SignalCandidateRecord × SignalCandidate)) (config : SignalPolicyConfig)
    (publicationTime : Int) :
    SameSymbols db (transact StoreOp.exec db (.publishCandidates candidates config publicationTime)) := by
  refine transact_invariant (P := SameSymbols db) (SameSymbols.refl db) fun next hnext => ?_
  obtain ⟨result, hnext⟩ := map_fst_ok hnext
  unfold publishCandidates at hnext
  split_ifs at hnext
  · cases hnext
    exact SameSymbols.refl db
  · obtain ⟨state, hloop, hnext⟩ := bind_eq_ok.mp hnext
    cases hnext
    refine foldlM_invariant (P := fun p : Publishing => SameSymbols db p.db) ?_ (SameSymbols.refl db)
      hloop
    intro p pair _ q hp hpass
    exact hp.trans fun id row hrow => ⟨row, (publishOne_keeps_rows hpass).1 id row hrow, rfl⟩

theorem Ordered.publish (h : Ordered world)
    (candidates : List (SignalCandidateRecord × SignalCandidate)) (config : SignalPolicyConfig)
    (publicationTime : Int) :
    Ordered { world with
      service := world.service.step (.publish candidates config publicationTime) } := by
  have hintact := h.intact.published candidates config publicationTime
  have hleaves : Leaves 0 "" [] (world.service.tracker "" 0)
      (world.service.step (.publish candidates config publicationTime)).db world.service.calls :=
    ⟨hintact.journal, published_sameSymbols _ _ _ _, Evaluates.refl 0 "" [] _⟩
  exact h.leaves rfl rfl hleaves (Fresh.nil world "" 0) hintact rfl rfl (Keeps.refl _) rfl

theorem Ordered.killed (h : Ordered world) :
    Ordered { world with service := world.service.step .killed, stream := {}, consumer := .idle } := by
  have hleaves : Leaves 0 "" [] (world.service.tracker "" 0) world.service.db world.service.calls :=
    (h.intact.tracker "" 0).unwritten 0
  exact h.leaves rfl rfl hleaves (Fresh.nil world "" 0)
    ⟨h.intact.journal, fun symbol => synced_none world.service.db symbol, h.intact.calls⟩ rfl rfl
    (Keeps.empty _) rfl

/-- Every step keeps the order, if what it delivers and what it replays is in order. -/
theorem Ordered.step (h : Ordered world) (settings : StreamSettings) {action : StreamAction}
    (hdelivers : DeliversInOrder world action) (hreplays : ReplaysInOrder world action)
    (hnext : Service.stream settings world action = .ok next) : Ordered next := by
  cases action with
  | receive trade => exact h.received_trade settings hdelivers hnext
  | connected symbol => exact h.offered rfl hnext
  | lost symbol => exact h.offered rfl hnext
  | dropped symbol => exact h.dropped settings hnext
  | put symbol => exact h.put settings hnext
  | pop due life => exact h.pop settings hnext
  | poll symbol now life => exact h.poll settings hnext
  | answer rest now data life => exact h.answer settings hreplays hnext
  | replay life => exact h.replay settings hreplays hnext
  | publish candidates config publicationTime =>
    cases hnext
    exact h.publish candidates config publicationTime
  | killed =>
    cases hnext
    exact h.killed

theorem Ordered.initial (instruments : List InstrumentRecord)
    (snapshots : List AnalysisSnapshotRecord) (candidates : List SignalCandidateRecord) :
    Ordered (StreamWorld.initial instruments snapshots candidates) where
  intact := Intact.initial instruments snapshots candidates
  evaluated := fun _ => List.Pairwise.nil
  received := fun _ => List.Pairwise.nil
  buffers := fun _ => List.nil_sublist _
  onTheWay := fun _ => List.nil_sublist _
  putting := fun _ _ h => by cases h
  rows := fun _ h => absurd h List.not_mem_nil
  passed := fun _ h => absurd h List.not_mem_nil

end Steps

section Runs
variable (settings : StreamSettings) (instruments : List InstrumentRecord)
variable (snapshots : List AnalysisSnapshotRecord) (candidates : List SignalCandidateRecord)

/-- For an exchange that delivers in order: if everything a run replays fits in where it is
replayed, every signal sees the trades in the order of the exchange, each at most once, in
every state of the run. -/
theorem evaluations_in_exchange_order (actions : List StreamAction)
    (hinorder : RunMeets (Service.stream settings)
      (fun world action => DeliversInOrder world action ∧ ReplaysInOrder world action)
      (StreamWorld.initial instruments snapshots candidates) actions) :
    ∀ before, before <+: actions → ∀ id, ExchangeOrdered (evaluatedTrades
      (runAll (Service.stream settings) (StreamWorld.initial instruments snapshots candidates)
        before).service.calls id) := by
  intro before hbefore
  exact (runAll_invariant_of_meets (P := Ordered)
    (fun _ _ _ hordered hcondition hnext => hordered.step settings hcondition.1 hcondition.2 hnext)
    (Ordered.initial instruments snapshots candidates) (hinorder.restrict hbefore)).evaluated

end Runs

section Handshake

/-- A signal is published and subscribed, the trade `a` arrives and passes the consumer, and
while the page is awaited something else happens. -/
def handshake (awaiting : List StreamAction) (rest : List PublicTrade) : List StreamAction :=
  [.publish [(candidateRecord 1 1 sampleCandidate, sampleCandidate)] .standard 0,
    .poll "BTCUSDT" 0 100, .receive (tradeAtSecond "a" 10 110), .put "BTCUSDT",
    .connected "BTCUSDT", .put "BTCUSDT", .pop false 100, .pop false 100] ++ awaiting ++
    [.answer rest (10 * 1000000) ⟨[], []⟩ 100]

/-- The trade `b` arrives and is evaluated with its event. -/
def arrivalOf (trade : PublicTrade) : List StreamAction :=
  [.receive trade, .put "BTCUSDT", .pop false 100]

def sampleWorld : StreamWorld :=
  StreamWorld.initial [⟨"BTCUSDT", 480⟩] [] [candidateRecord 1 1 sampleCandidate]

def orderedRun : List StreamAction :=
  handshake [] [tradeAtSecond "quiet" 0 110, tradeAtSecond "a" 10 110] ++
    arrivalOf (tradeAtSecond "b" 20 110)

/-- The trade `b` arrives while the page is awaited, and the page has it too. -/
def overtakenRun : List StreamAction :=
  handshake [.receive (tradeAtSecond "b" 20 110), .put "BTCUSDT"]
    [tradeAtSecond "quiet" 0 110, tradeAtSecond "a" 10 110, tradeAtSecond "b" 20 110] ++
    [.pop false 100]

theorem evaluations_in_exchange_order_sample :
    (evaluatedTrades (runAll (Service.stream ⟨100, 100⟩) sampleWorld orderedRun).service.calls 1).map
      PublicTrade.tradeId = ["quiet", "a", "b"] ∧
    ∀ before, before <+: orderedRun → ∀ id, ExchangeOrdered (evaluatedTrades
      (runAll (Service.stream ⟨100, 100⟩) sampleWorld before).service.calls id) :=
  ⟨by decide +kernel,
    evaluations_in_exchange_order ⟨100, 100⟩ _ _ _ orderedRun (by decide +kernel)⟩

/-- What is replayed while its event is on the way is evaluated twice. -/
theorem replayed_trade_evaluated_again :
    RunMeets (Service.stream ⟨100, 100⟩) DeliversInOrder sampleWorld overtakenRun ∧
    (evaluatedTrades (runAll (Service.stream ⟨100, 100⟩) sampleWorld overtakenRun).service.calls 1).map
      PublicTrade.tradeId = ["quiet", "a", "b", "b"] := by
  decide +kernel

end Handshake

end StructurePulse.Service
