import StructurePulse.Service.Streaming

/-!
# Which trades an operation evaluates

An operation of the service on a symbol evaluates trades for one signal only, in the order in
which it was given them. Both that and the symbols of the rows also hold of what an operation
leaves that ends the process.
-/

namespace StructurePulse.Service
open Signals Store Strategy Library
set_option autoImplicit false

def EvaluatorCall.trade? (call : EvaluatorCall) : Option PublicTrade :=
  match call.event with
  | .trade trade => some trade
  | .candle _ => none

/-- The trades `_process_trade` passed to `evaluate_public_trade` for a signal. -/
def evaluatedTrades (calls : List EvaluatorCall) (id : Nat) : List PublicTrade :=
  (calls.filter fun call => call.signal.id = id).filterMap EvaluatorCall.trade?

/-- The calls added evaluate some of the trades, in order, for one signal. -/
def Evaluates (id : Nat) (symbol : Symbol) (trades : List PublicTrade)
    (before after : List EvaluatorCall) : Prop :=
  ∃ added, after = before ++ added ∧ (added.filterMap EvaluatorCall.trade?).Sublist trades ∧
    ∀ call ∈ added, call.signal.id = id ∧ call.signal.symbol = symbol

/-- The rows are still there and of the same symbols. -/
def SameSymbols (old new : Database) : Prop :=
  ∀ id row, old.findSignal id = some row → ∃ later, new.findSignal id = some later ∧
    later.symbol = row.symbol

section Relations
variable {id : Nat} {symbol : Symbol} {first second : List PublicTrade}

theorem Evaluates.refl (id : Nat) (symbol : Symbol) (trades : List PublicTrade)
    (calls : List EvaluatorCall) : Evaluates id symbol trades calls calls :=
  ⟨[], (List.append_nil calls).symm, List.nil_sublist trades, fun _ h => absurd h List.not_mem_nil⟩

theorem Evaluates.trans {calls mid after : List EvaluatorCall}
    (h : Evaluates id symbol first calls mid) (hnext : Evaluates id symbol second mid after) :
    Evaluates id symbol (first ++ second) calls after := by
  obtain ⟨added, rfl, hadded, hcalls⟩ := h
  obtain ⟨more, rfl, hmore, hlater⟩ := hnext
  refine ⟨added ++ more, List.append_assoc _ _ _, ?_, fun call hcall => ?_⟩
  · rw [List.filterMap_append]
    exact hadded.append hmore
  · rcases List.mem_append.mp hcall with hcall | hcall
    · exact hcalls call hcall
    · exact hlater call hcall

theorem Evaluates.append_right {calls after : List EvaluatorCall}
    (h : Evaluates id symbol first calls after) (second : List PublicTrade) :
    Evaluates id symbol (first ++ second) calls after := by
  obtain ⟨added, hafter, hadded, hcalls⟩ := h
  exact ⟨added, hafter, hadded.trans (List.sublist_append_left first second), hcalls⟩

theorem evaluatedTrades_append (calls added : List EvaluatorCall) (id : Nat) :
    evaluatedTrades (calls ++ added) id = evaluatedTrades calls id ++ evaluatedTrades added id := by
  unfold evaluatedTrades
  rw [List.filter_append, List.filterMap_append]

theorem SameSymbols.refl (db : Database) : SameSymbols db db :=
  fun _ row hrow => ⟨row, hrow, rfl⟩

theorem SameSymbols.trans {db mid next : Database} (h : SameSymbols db mid)
    (hnext : SameSymbols mid next) : SameSymbols db next := by
  intro id row hrow
  obtain ⟨later, hlater, hsame⟩ := h id row hrow
  obtain ⟨last, hlast, hagain⟩ := hnext id later hlater
  exact ⟨last, hlast, hagain.trans hsame⟩

theorem SameSymbols.of_signals {db next : Database}
    (h : ∀ id, next.findSignal id = db.findSignal id) : SameSymbols db next :=
  fun id row hrow => ⟨row, (h id).trans hrow, rfl⟩

theorem transitioned_sameSymbols {db next : Database} {request : TransitionRequest}
    {row : SignalRecord} {trade : VirtualTradeRecord} {tradeStatus : VirtualTradeStatus}
    {outbox : List NotificationOutboxRecord}
    (h : Transitioned db next request row trade tradeStatus outbox) : SameSymbols db next := by
  intro id found hfound
  by_cases hid : id = request.signalId
  · subst hid
    cases h.signalRow.symm.trans hfound
    exact ⟨_, h.findSignal, rfl⟩
  · exact ⟨found, (h.findSignal_of_ne hid).trans hfound, rfl⟩

theorem applyTransition_sameSymbols {db next : Database} {request : TransitionRequest}
    {result : SignalTransitionResult} (h : applyTransition db request = .ok (next, result)) :
    SameSymbols db next := by
  rcases applyTransition_ok h with ⟨rfl, -, -⟩ | ⟨-, row, trade, tradeStatus, outbox, htransitioned⟩
  · exact SameSymbols.refl next
  · exact transitioned_sameSymbols htransitioned

theorem checkpointTrade_sameSymbols {db next : Database} {signalId : Nat} {tradeId : String}
    {executedAt sequence : Int}
    (h : checkpointTrade db signalId tradeId executedAt sequence = .ok next) :
    SameSymbols db next := by
  obtain ⟨trade, -, rfl | rfl⟩ := checkpointTrade_ok h
  · exact SameSymbols.refl next
  · exact SameSymbols.of_signals fun _ => rfl

theorem recordTrackingEvent_sameSymbols {db next : Database} {request : TrackingRequest}
    {added : Bool} (h : recordTrackingEvent db request = .ok (next, added)) :
    SameSymbols db next := by
  rcases recordTrackingEvent_ok h with ⟨rfl, -⟩ | ⟨-, -, signal, event, -, -, -, -, -, rfl⟩
  · exact SameSymbols.refl next
  · exact SameSymbols.of_signals fun _ => rfl

end Relations

section Works
variable {others : Symbol → Memory} {symbol : Symbol} {id : Nat} {t t' : Tracker}
variable {trades first second : List PublicTrade}

/-- What an operation leaves in the database and adds to the calls. -/
structure Leaves (id : Nat) (symbol : Symbol) (trades : List PublicTrade) (t : Tracker)
    (db : Database) (calls : List EvaluatorCall) : Prop where
  journal : Journal db
  rows : SameSymbols t.db db
  evaluates : Evaluates id symbol trades t.calls calls

/-- An operation that goes on with the signal it started with, if any. -/
structure Works (others : Symbol → Memory) (symbol : Symbol) (id : Nat)
    (trades : List PublicTrade) (t t' : Tracker) : Prop where
  tracked : Tracked AnyCall others symbol t'
  same : ∀ signal, t'.signal = some signal → signal.id = id
  leaves : Leaves id symbol trades t t'.db t'.calls

/-- How an operation ends that works on one signal. -/
def Working (others : Symbol → Memory) (symbol : Symbol) (id : Nat) (trades : List PublicTrade)
    (t : Tracker) : Except Stopped Tracker → Prop :=
  Ends (Works others symbol id trades t) fun left => Leaves id symbol trades t left.db left.calls

theorem Leaves.trans {db : Database} {calls : List EvaluatorCall}
    (h : Leaves id symbol first t t'.db t'.calls) (hnext : Leaves id symbol second t' db calls) :
    Leaves id symbol (first ++ second) t db calls :=
  ⟨hnext.journal, h.rows.trans hnext.rows, h.evaluates.trans hnext.evaluates⟩

theorem Works.then (second : List PublicTrade) {x : Except Stopped Tracker}
    (h : Works others symbol id first t t') (hx : Working others symbol id second t' x) :
    Working others symbol id (first ++ second) t x := by
  cases x with
  | ok last => exact ⟨hx.tracked, hx.same, h.leaves.trans hx.leaves⟩
  | error left => exact h.leaves.trans hx

theorem Working.bind (first second : List PublicTrade) {x : Except Stopped Tracker}
    {f : Tracker → Except Stopped Tracker} (hx : Working others symbol id first t x)
    (hf : ∀ t', Works others symbol id first t t' → Working others symbol id second t' (f t')) :
    Working others symbol id (first ++ second) t (x >>= f) := by
  cases x with
  | ok t' => exact hx.then second (hf t' hx)
  | error left => exact ⟨hx.journal, hx.rows, hx.evaluates.append_right second⟩

theorem Works.refl (h : Tracked AnyCall others symbol t)
    (hsame : ∀ signal, t.signal = some signal → signal.id = id) (trades : List PublicTrade) :
    Works others symbol id trades t t :=
  ⟨h, hsame, h.journal, SameSymbols.refl t.db, Evaluates.refl id symbol trades t.calls⟩

theorem Works.covered (h : Works others symbol id trades t t') :
    Works others symbol id trades t t'.covered :=
  ⟨h.tracked.covered, h.same, h.leaves⟩

theorem Working.covered {x : Except Stopped Tracker} (hx : Working others symbol id trades t x) :
    Working others symbol id trades t (x.map Tracker.covered) := by
  cases x with
  | ok t' => exact Works.covered hx
  | error left => exact hx

/-- The start counts by its rows and its calls. -/
theorem Working.start {start : Tracker} {x : Except Stopped Tracker} (hdb : start.db = t.db)
    (hcalls : start.calls = t.calls) (h : Working others symbol id trades start x) :
    Working others symbol id trades t x := by
  cases x with
  | ok last => exact ⟨h.tracked, h.same, h.leaves.journal, hdb ▸ h.leaves.rows,
      hcalls ▸ h.leaves.evaluates⟩
  | error left => exact ⟨h.journal, hdb ▸ h.rows, hcalls ▸ h.evaluates⟩

end Works

section Operations
variable {others : Symbol → Memory} {symbol : Symbol} {t : Tracker} {signal : TrackingSignalView}

/-- What a commit that raises leaves. -/
theorem Tracked.unwritten (h : Tracked AnyCall others symbol t) (id : Nat) :
    Leaves id symbol [] t t.db t.calls :=
  ⟨h.journal, SameSymbols.refl t.db, Evaluates.refl id symbol [] t.calls⟩

/-- The memory is one signal's: the only other row it could be read again from is not active. -/
theorem Tracked.refresh_same (h : Tracked AnyCall others symbol t) (hsignal : t.signal = some signal)
    {found : TrackingSignalView} (hfound : (t.refresh symbol).signal = some found) :
    found.id = signal.id := by
  obtain ⟨row, trade, hrows⟩ := h.synced signal hsignal
  obtain ⟨row', trade', hrows'⟩ := synced_refresh t h.journal.sound symbol found hfound
  have hone := h.journal.sound.oneActive row' (lookup_mem hrows'.signalRow) row
    (lookup_mem hrows.signalRow) hrows'.active hrows.active
    (hrows'.sameSymbol.trans hrows.sameSymbol.symm)
  rw [← @lookup_key _ _ _ SignalRecord.id _ _ _ hrows'.signalRow, hone]
  exact lookup_key hrows.signalRow

theorem Tracked.transition_works (h : Tracked AnyCall others symbol t)
    (hsignal : t.signal = some signal) {request : TransitionRequest}
    (hid : request.signalId = signal.id)
    (hkey : WellKeyed request.idempotencyKey request.signalId request.target) :
    Working others symbol signal.id [] t (t.transition signal request) := by
  have htracked := h.transition hsignal hid hkey
  obtain ⟨row, trade, hrows⟩ := h.synced signal hsignal
  cases hresult : t.transition signal request with
  | error left =>
    obtain ⟨hdb, hcalls⟩ := transition_error hresult
    rw [Working, Ends, hdb, hcalls]
    exact h.unwritten signal.id
  | ok t' =>
    have hnext := htracked.of_ok hresult
    obtain ⟨db, life, result, happly, -, rfl⟩ := transition_ok hresult
    refine ⟨hnext, ?_, hnext.journal, ?_, ?_⟩
    · intro found hfound
      rcases applyTransition_ok happly with ⟨rfl, hskipped, -⟩ | ⟨happlied, -⟩
      · rw [hskipped] at hfound
        refine h.refresh_same hsignal ?_
        rw [← hrows.symbol_eq]
        exact hfound
      · rw [happlied, settle_signal] at hfound
        unfold settled at hfound
        split_ifs at hfound
        cases hfound
        rfl
    · rw [settle_db]
      exact applyTransition_sameSymbols happly
    · rw [settle_calls]
      exact Evaluates.refl _ _ _ _

theorem Tracked.checkpoint_works (h : Tracked AnyCall others symbol t)
    (hsignal : t.signal = some signal) (trade : PublicTrade) :
    Working others symbol signal.id [] t (t.checkpoint signal trade) := by
  have htracked := h.checkpoint hsignal trade
  cases hresult : t.checkpoint signal trade with
  | error left =>
    obtain ⟨hdb, hcalls⟩ := checkpoint_error hresult
    rw [Working, Ends, hdb, hcalls]
    exact h.unwritten signal.id
  | ok t' =>
    have hnext := htracked.of_ok hresult
    obtain ⟨db, life, hwrite, -, rfl⟩ := checkpoint_ok hresult
    refine ⟨hnext, ?_, hnext.journal, checkpointTrade_sameSymbols hwrite, Evaluates.refl _ _ _ _⟩
    intro found hfound
    cases hfound
    rfl

end Operations

section Loops
variable {others : Symbol → Memory} {symbol : Symbol} {id : Nat} {t : Tracker}
variable (h : Tracked AnyCall others symbol t)
variable (hsame : ∀ signal, t.signal = some signal → signal.id = id)
include h hsame

theorem Tracked.applyActions_works
    {context : TrackingSignalView → LifecycleAction → Nat → EventContext}
    (hkey : ∀ signal action index,
      WellKeyed (context signal action index).idempotencyKey signal.id action.target)
    (actions : List (LifecycleAction × Nat)) :
    Working others symbol id [] t (t.applyActions context actions) := by
  induction actions generalizing t with
  | nil => exact Works.refl h hsame []
  | cons head actions ih =>
    unfold Tracker.applyActions
    split
    · exact Works.refl h hsame []
    · rename_i signal hsignal
      have hid := hsame signal hsignal
      subst hid
      refine Working.bind [] [] (h.transition_works hsignal ?_ ?_) fun t' ht' =>
        ih ht'.tracked ht'.same
      · simp
      · simpa using hkey signal head.1 head.2

theorem Tracked.called_works {signal : TrackingSignalView} (hsignal : t.signal = some signal)
    (anchor : Int) (trade : PublicTrade) :
    Works others symbol id [trade] t (t.called signal anchor (.trade trade)) := by
  obtain ⟨row, record, hrows⟩ := h.synced signal hsignal
  refine ⟨h.called trivial, hsame, h.journal, SameSymbols.refl t.db, ?_⟩
  refine ⟨[⟨signal, anchor, .trade trade⟩], rfl, List.Sublist.refl _, fun call hcall => ?_⟩
  rw [List.mem_singleton.mp hcall]
  exact ⟨hsame signal hsignal, hrows.symbol_eq⟩

theorem Tracked.processTrade_works (trade : PublicTrade) (due : Bool) :
    Working others symbol id [trade] t (t.processTrade trade due) := by
  unfold Tracker.processTrade
  split
  · exact Works.refl h hsame [trade]
  · rename_i signal hsignal
    have hcalled := h.called_works hsame hsignal signal.coverageAnchor trade
    refine Working.bind [trade] [] (hcalled.then []
      (hcalled.tracked.applyActions_works hcalled.same (fun _ _ _ => names_trade.wellKeyed) _))
      fun t' ht' => ?_
    split
    · exact Works.refl ht'.tracked ht'.same []
    · rename_i signal' hsignal'
      have hid := ht'.same signal' hsignal'
      subst hid
      split_ifs
      · exact ht'.tracked.checkpoint_works hsignal' trade
      · exact Works.refl ht'.tracked ht'.same []

theorem Tracked.replay_works (trades : List PublicTrade) :
    Working others symbol id trades t (t.replay trades) := by
  induction trades generalizing t with
  | nil => exact Works.refl h hsame []
  | cons trade trades ih =>
    unfold Tracker.replay
    split
    · exact Works.refl h hsame (trade :: trades)
    · exact Working.bind [trade] trades (h.processTrade_works hsame trade false) fun t' ht' =>
        ih ht'.tracked ht'.same

theorem Tracked.replayAndCheckpoint_works (trades : List PublicTrade) :
    Working others symbol id trades t (t.replayAndCheckpoint trades) := by
  have hdone : Working others symbol id (trades ++ []) t (t.replayAndCheckpoint trades) := by
    refine Working.bind trades [] (h.replay_works hsame trades) fun t' ht' => ?_
    split
    · rename_i hsignal
      have hid := ht'.same _ hsignal
      subst hid
      exact ht'.tracked.checkpoint_works hsignal _
    · exact Works.refl ht'.tracked ht'.same []
  rw [List.append_nil] at hdone
  exact hdone

theorem Tracked.applyCandles_works (anchor : Int) (reason : CoverageFailure)
    (candles : List Candle1m) :
    Working others symbol id [] t (t.applyCandles anchor reason candles) := by
  induction candles generalizing t with
  | nil => exact Works.refl h hsame []
  | cons candle candles ih =>
    unfold Tracker.applyCandles
    split
    · exact (Works.refl h hsame []).covered
    · rename_i current hcurrent
      obtain ⟨row, record, hrows⟩ := h.synced current hcurrent
      have hcalled : Works others symbol id [] t (t.called current anchor (.candle candle)) := by
        refine ⟨h.called trivial, hsame, h.journal, SameSymbols.refl t.db, ?_⟩
        refine ⟨[⟨current, anchor, .candle candle⟩], rfl, List.Sublist.refl _, fun call hcall => ?_⟩
        rw [List.mem_singleton.mp hcall]
        exact ⟨hsame current hcurrent, hrows.symbol_eq⟩
      refine Working.bind [] [] (hcalled.then [] (hcalled.tracked.applyActions_works hcalled.same
        (fun _ _ _ => names_candle.wellKeyed) _)) fun t' ht' => ?_
      split
      · exact (Works.refl ht'.tracked ht'.same []).covered
      · exact ih ht'.tracked ht'.same

end Loops

section Steps
variable {others : Symbol → Memory} {symbol : Symbol} {id : Nat} {t : Tracker}
variable {signal : TrackingSignalView} (h : Tracked AnyCall others symbol t)
include h

theorem Tracked.activate_works (hsignal : t.signal = some signal) (anchor : Int) (tradeCount : Nat) :
    Working others symbol signal.id [] t (t.activate signal anchor tradeCount) := by
  refine Working.covered ?_
  split_ifs
  · exact h.transition_works hsignal rfl (wellKeyed_of_first (coverageKey_first _ _)
      (show 0 < SignalStatus.active.rank by decide))
  · exact Works.refl h (by simp [hsignal]) []

theorem Tracked.acceptCoverage_works (hsignal : t.signal = some signal) (anchor : Int)
    (trades : List PublicTrade) :
    Working others symbol signal.id trades t (t.acceptCoverage signal anchor trades) :=
  Working.bind [] trades (h.activate_works hsignal anchor trades.length) fun _ ht' =>
    ht'.tracked.replayAndCheckpoint_works ht'.same trades

theorem Tracked.failCoverage_works (hsignal : t.signal = some signal) (anchor now : Int)
    (reason : Option CoverageFailure) :
    Working others symbol signal.id [] t (t.failCoverage signal anchor now reason) :=
  Working.covered (h.transition_works hsignal rfl (wellKeyed_of_first (coverageKey_first _ _)
    (show 0 < SignalStatus.coverageFailed.rank by decide)))

theorem Tracked.recorded_works (hsame : ∀ signal, t.signal = some signal → signal.id = id)
    (signal : TrackingSignalView) (anchor now : Int) (reason : CoverageFailure) (candleCount : Nat) :
    Working others symbol id [] t ((t.commit (recordTrackingEvent ·
      (recoveredRequest signal anchor now reason candleCount))).map Prod.fst) := by
  have htracked := h.recorded signal anchor now reason candleCount
  cases hresult : t.commit (recordTrackingEvent ·
      (recoveredRequest signal anchor now reason candleCount)) with
  | error left =>
    obtain ⟨hdb, hcalls⟩ := commit_error hresult
    change Leaves id symbol [] t left.db left.calls
    rw [hdb, hcalls]
    exact h.unwritten id
  | ok pair =>
    have hnext := htracked.of_ok hresult
    obtain ⟨noted, added⟩ := pair
    obtain ⟨db, life, hnote, -, rfl⟩ := commit_ok hresult
    exact ⟨hnext, hsame, hnext.journal, recordTrackingEvent_sameSymbols hnote,
      Evaluates.refl id symbol [] t.calls⟩

theorem Tracked.applyRecovery_works (hsame : ∀ signal, t.signal = some signal → signal.id = id)
    (signal : TrackingSignalView) (anchor : Int) (reason : CoverageFailure) (now : Int)
    (candles : List Candle1m) :
    Working others symbol id [] t
      ((t.applyRecovery signal anchor reason now candles).map Prod.fst) := by
  unfold Tracker.applyRecovery
  split_ifs
  · exact Works.refl h hsame []
  · exact Works.refl h hsame []
  · have happlied := h.applyCandles_works hsame anchor reason candles
    cases hresult : t.applyCandles anchor reason candles with
    | error left =>
      rw [hresult] at happlied
      exact happlied
    | ok t' =>
      rw [hresult] at happlied
      rw [ok_bind]
      have hworks : Works others symbol id [] t t' := happlied
      cases ht' : t'.signal with
      | none => exact hworks
      | some current =>
        have hnoted := hworks.covered.then [] (hworks.covered.tracked.recorded_works
          hworks.covered.same signal anchor now reason candles.length)
        simp only
        cases hnote : t'.covered.commit (recordTrackingEvent ·
            (recoveredRequest signal anchor now reason candles.length)) with
        | error left =>
          rw [hnote] at hnoted
          exact hnoted
        | ok pair =>
          rw [hnote] at hnoted
          exact hnoted

theorem Tracked.answered_works (hsignal : t.signal = some signal) {anchor : Int}
    (hpending : t.coveragePending = some anchor) (rest buffer : List PublicTrade) (now : Int)
    (data : MarketData) :
    Working others symbol signal.id
      (mergeTradeCoverage rest (bufferedTrades buffer anchor) anchor).trades t
      ((t.answered rest buffer now data).map Prod.fst) := by
  have hsame : ∀ other, t.signal = some other → other.id = signal.id := by simp [hsignal]
  unfold Tracker.answered
  rw [hsignal, hpending]
  simp only
  split_ifs with hproven hpreparing
  · rw [map_pair_fst]
    exact h.acceptCoverage_works hsignal anchor _
  · rw [map_pair_fst, mergeTradeCoverage_unproven (Bool.eq_false_iff.mpr hproven)]
    exact h.failCoverage_works hsignal anchor now _
  · rw [mergeTradeCoverage_unproven (Bool.eq_false_iff.mpr hproven)]
    exact h.applyRecovery_works hsame signal anchor _ now _

omit h in
theorem reload_keeps (t : Tracker) (symbol : Symbol) :
    (t.reload symbol).db = t.db ∧ (t.reload symbol).calls = t.calls := by
  unfold Tracker.reload
  split
  · exact ⟨rfl, rfl⟩
  · split_ifs
    · exact ⟨rfl, rfl⟩
    · exact ⟨rfl, rfl⟩

theorem Tracked.poll_works (now : Int) :
    ∃ id, Working others symbol id [] t ((t.poll symbol now).map Prod.fst) := by
  have hreload := h.reload
  have hstart : ∀ {id : Nat} {x : Except Stopped Tracker},
      Working others symbol id [] (t.reload symbol) x → Working others symbol id [] t x :=
    fun hx => hx.start (reload_keeps t symbol).1 (reload_keeps t symbol).2
  unfold Tracker.poll
  simp only
  split
  · rename_i hnone
    exact ⟨0, hstart (Works.refl hreload (by simp [hnone]) [])⟩
  · rename_i signal hsignal
    have hsame : ∀ other, (t.reload symbol).signal = some other → other.id = signal.id := by
      simp [hsignal]
    have hexpired : Working others symbol signal.id [] (t.reload symbol)
        ((t.reload symbol).transition signal (expiredRequest signal)) :=
      hreload.transition_works hsignal rfl (wellKeyed_of_first (expiredKey_first signal)
        (show 0 < SignalStatus.expired.rank by decide))
    refine ⟨signal.id, hstart ?_⟩
    split_ifs
    · rw [map_pair_fst]
      exact hexpired
    · rw [map_pair_fst]
      exact hexpired
    · exact ⟨hreload.withMemory rfl rfl rfl, hsame, hreload.journal,
        SameSymbols.refl (t.reload symbol).db, Evaluates.refl _ _ _ _⟩
    · exact Works.refl hreload hsame []

end Steps

section Events

/-- The signal of the memory, if any. -/
def Tracker.signalId (t : Tracker) : Nat := (t.signal.map TrackingSignalView.id).getD 0

def StreamEvent.trade? : StreamEvent → Option PublicTrade
  | .trade value => some value
  | _ => none

variable {others : Symbol → Memory} {symbol : Symbol} {t : Tracker}

theorem Tracker.signalId_eq {signal : TrackingSignalView} (hsignal : t.signal = some signal) :
    signal.id = t.signalId := by
  unfold Tracker.signalId
  rw [hsignal]
  rfl

/-- The trades an event can make the service evaluate. -/
def Tracker.takes (t : Tracker) (event : StreamEvent) : List PublicTrade :=
  if t.signal.isSome then event.trade?.toList else []

theorem Tracked.take_works (h : Tracked AnyCall others symbol t) (due : Bool) (event : StreamEvent) :
    Working others symbol t.signalId (t.takes event) t ((t.take due event).map Prod.fst) := by
  have hsame : ∀ signal, t.signal = some signal → signal.id = t.signalId :=
    fun _ => Tracker.signalId_eq
  unfold Tracker.take
  cases event with
  | trade trade =>
    simp only
    split_ifs
    · exact Works.refl h hsame _
    · rw [map_pair_fst]
      cases hsignal : t.signal with
      | none =>
        unfold Tracker.processTrade
        rw [hsignal]
        exact Works.refl h hsame _
      | some signal =>
        have htakes : t.takes (.trade trade) = [trade] := by
          unfold Tracker.takes
          rw [hsignal]
          rfl
        rw [htakes]
        exact h.processTrade_works hsame trade due
  | ready lost => exact ⟨h.withMemory rfl rfl rfl, hsame, (Works.refl h hsame _).leaves⟩
  | disconnected lost => exact ⟨h.withMemory rfl rfl rfl, hsame, (Works.refl h hsame _).leaves⟩

theorem Tracked.replayBuffer_works (h : Tracked AnyCall others symbol t)
    {signal : TrackingSignalView} (hsignal : t.signal = some signal) (buffer : List PublicTrade)
    (replayFrom : Int) :
    Working others symbol signal.id (bufferedTrades buffer replayFrom) t
      (t.replayBuffer buffer (some replayFrom)) :=
  h.replayAndCheckpoint_works (by simp [hsignal]) _

/-- Without a signal nothing is replayed. -/
theorem replayBuffer_none (hsignal : t.signal = none) (buffer : List PublicTrade) (replayFrom : Int) :
    t.replayBuffer buffer (some replayFrom) = .ok t := by
  have hreplay : ∀ trades, t.replay trades = .ok t := by
    intro trades
    cases trades with
    | nil => rfl
    | cons trade trades =>
      unfold Tracker.replay
      rw [hsignal]
  unfold Tracker.replayBuffer Tracker.replayAndCheckpoint
  simp only [hreplay, ok_bind]
  split
  · rename_i hsome
    rw [hsignal] at hsome
    cases hsome
  · rfl

end Events

end StructurePulse.Service
