import StructurePulse.Service.Journal

/-!
# The memory follows the database

Between two operations the tracked copy of a signal agrees with its rows in all but
the checkpoint columns, which the throttled checkpoint lets lag. `Tracked` couples
one operation's tracker with the memory of the other symbols; every transaction
keeps it, and a service that ends leaves a journal behind.
-/

namespace StructurePulse.Service
open Signals Store Strategy Library
set_option autoImplicit false

def withoutCheckpoint (signal : TrackingSignalView) : TrackingSignalView :=
  { signal with lastTradeId := none, lastTradeTime := none, lastTradeSequence := none }

/-- The rows a tracked copy was made from. -/
structure RowsOf (db : Database) (symbol : Symbol) (signal : TrackingSignalView)
    (row : SignalRecord) (trade : VirtualTradeRecord) : Prop where
  signalRow : db.findSignal signal.id = some row
  tradeRow : db.findTrade signal.id = some trade
  sameSymbol : row.symbol = symbol
  active : row.status.isActive = true
  view : withoutCheckpoint signal = withoutCheckpoint (trackingView row trade)

/-- The memory of a symbol is empty or a copy of current rows. -/
def Synced (db : Database) (symbol : Symbol) (memory : Option TrackingSignalView) : Prop :=
  ∀ signal, memory = some signal → ∃ row trade, RowsOf db symbol signal row trade

section Rows
variable {db next : Database} {symbol : Symbol} {signal : TrackingSignalView}
variable {row : SignalRecord} {trade : VirtualTradeRecord} {request : TransitionRequest}

theorem RowsOf.status (h : RowsOf db symbol signal row trade) : signal.status = row.status :=
  congrArg TrackingSignalView.status h.view

theorem RowsOf.symbol_eq (h : RowsOf db symbol signal row trade) : signal.symbol = symbol :=
  (congrArg TrackingSignalView.symbol h.view).trans h.sameSymbol

theorem synced_none (db : Database) (symbol : Symbol) : Synced db symbol none :=
  fun _ h => by cases h

theorem synced_some : Synced db symbol (some signal) ↔ ∃ row trade, RowsOf db symbol signal row trade :=
  ⟨fun h => h signal rfl, fun h _ hsame => Option.some.inj hsame ▸ h⟩

/-- What leaves a signal's rows alone leaves its copy in place. -/
theorem Synced.frame {memory : Option TrackingSignalView} (h : Synced db symbol memory)
    (hsignal : ∀ id row, db.findSignal id = some row → row.symbol = symbol →
      next.findSignal id = db.findSignal id)
    (htrade : ∀ id row trade, db.findSignal id = some row → row.symbol = symbol →
      db.findTrade id = some trade → next.findTrade id = db.findTrade id) :
    Synced next symbol memory := by
  intro signal hmemory
  obtain ⟨row, trade, hrows⟩ := h signal hmemory
  exact ⟨row, trade, (hsignal _ _ hrows.signalRow hrows.sameSymbol).trans hrows.signalRow,
    (htrade _ _ _ hrows.signalRow hrows.sameSymbol hrows.tradeRow).trans hrows.tradeRow, hrows.sameSymbol,
    hrows.active, hrows.view⟩

/-- A row of `list_tracking_signals` is a copy of current rows. -/
theorem synced_of_mem_list (hsound : Sound db) (hmem : signal ∈ listTrackingSignals db)
    (hsymbol : signal.symbol = symbol) : Synced db symbol (some signal) := by
  obtain ⟨row, hrow, hview⟩ := List.mem_filterMap.mp hmem
  obtain ⟨trade, htrade, rfl⟩ := Option.map_eq_some_iff.mp hview
  obtain ⟨hrow, hactive⟩ := List.mem_filter.mp (mem_sortedBy.mp hrow)
  exact synced_some.mpr ⟨row, trade, hsound.findSignal hrow, htrade, hsymbol, hactive, rfl⟩

theorem synced_refresh (t : Tracker) (hsound : Sound t.db) (symbol : Symbol) :
    Synced t.db symbol (t.refresh symbol).signal := by
  intro signal hfound
  exact synced_some.mp (synced_of_mem_list hsound (List.mem_of_find?_eq_some hfound)
    (by simpa using List.find?_some hfound))

variable {tradeStatus : VirtualTradeStatus} {outbox : List NotificationOutboxRecord}

/-- The moved copy is a copy of the moved rows. -/
theorem RowsOf.moved (h : RowsOf db symbol signal row trade)
    (ht : Transitioned db next request row trade tradeStatus outbox)
    (hid : request.signalId = signal.id) (hopen : request.target.isTerminal = false) :
    RowsOf next symbol (moved signal request)
      (row.transitioned request.target request.eventTime)
      (trade.transitioned tradeStatus request.target request) := by
  refine ⟨?_, ?_, h.sameSymbol, isActive_of_transition_open ht.legal hopen, ?_⟩
  · rw [← ht.findSignal, hid]
    rfl
  · rw [← ht.findTrade, hid]
    rfl
  · have hview := h.view
    simp only [withoutCheckpoint, trackingView, TrackingSignalView.mk.injEq] at hview
    simp only [withoutCheckpoint, trackingView, Service.moved, SignalRecord.transitioned,
      VirtualTradeRecord.transitioned, TrackingSignalView.mk.injEq]
    simp [hview]

end Rows

section Operations
variable {C : EvaluatorCall → Prop} {others : Symbol → Memory} {symbol : Symbol} {t : Tracker}
variable {signal : TrackingSignalView}

/-- An operation on `symbol`, with the memory of the other symbols. `C` is what the
evaluator calls so far satisfy. -/
structure Tracked (C : EvaluatorCall → Prop) (others : Symbol → Memory) (symbol : Symbol)
    (t : Tracker) : Prop where
  journal : Journal t.db
  synced : Synced t.db symbol t.signal
  others : ∀ other, other ≠ symbol → Synced t.db other (others other).signal
  calls : ∀ call ∈ t.calls, C call

/-- What a service that has ended leaves for the next start. -/
structure Left (C : EvaluatorCall → Prop) (left : Stopped) : Prop where
  journal : Journal left.db
  calls : ∀ call ∈ left.calls, C call

theorem Tracked.commit (h : Tracked C others symbol t) {α : Type}
    {write : Database → Except StoreError (Database × α)} {P : Tracker × α → Prop}
    (hok : ∀ db life result, write t.db = .ok (db, result) →
      P ({ t with db := db, life := life }, result)) : Ends P (Left C) (t.commit write) := by
  unfold Tracker.commit
  split
  · exact ⟨h.journal, h.calls⟩
  · split
    · exact ⟨h.journal, h.calls⟩
    · exact hok _ _ _ ‹_›

theorem Synced.untouched {db next : Database} {memory : Option TrackingSignalView}
    {other : Symbol} (h : Synced db other memory) {row : SignalRecord} {signalId : Nat}
    (hrow : db.findSignal signalId = some row) (hne : other ≠ row.symbol)
    (hsignal : ∀ id, id ≠ signalId → next.findSignal id = db.findSignal id)
    (htrade : ∀ id, id ≠ signalId → next.findTrade id = db.findTrade id) :
    Synced next other memory := by
  have hdistinct : ∀ id row', db.findSignal id = some row' → row'.symbol = other → id ≠ signalId := by
    intro id row' hrow' hother heq
    rw [heq, hrow, Option.some.injEq] at hrow'
    rw [← hrow'] at hother
    exact hne hother.symm
  exact h.frame (fun id row' hrow' hother => hsignal id (hdistinct id row' hrow' hother))
    fun id row' _ hrow' hother _ => htrade id (hdistinct id row' hrow' hother)

theorem Tracked.transition (h : Tracked C others symbol t) (hsignal : t.signal = some signal)
    {request : TransitionRequest} (hid : request.signalId = signal.id)
    (hkey : WellKeyed request.idempotencyKey request.signalId request.target) :
    Ends (Tracked C others symbol) (Left C) (t.transition signal request) := by
  obtain ⟨row, trade, hrows⟩ := h.synced signal hsignal
  refine Ends.bind (P := fun pair : Tracker × SignalTransitionResult =>
    ∃ db life, applyTransition t.db request = .ok (db, pair.2) ∧
      pair.1 = { t with db := db, life := life })
    (h.commit fun db life result happly => ⟨db, life, happly, rfl⟩) ?_
  rintro ⟨_, result⟩ ⟨db, life, happly, rfl⟩
  change Tracked C others symbol (Tracker.settle _ signal request result.applied)
  rcases applyTransition_ok happly with ⟨hsame, hskipped, -⟩ | ⟨happlied, row', trade', tradeStatus,
    outbox, ht⟩
  · -- the key is recorded: the memory is read again
    simp only at hsame hskipped
    rw [hsame, hskipped]
    refine ⟨h.journal, ?_, h.others, h.calls⟩
    change Synced t.db symbol (t.refresh signal.symbol).signal
    rw [hrows.symbol_eq]
    exact synced_refresh t h.journal.sound symbol
  · simp only at happlied
    have hrow : t.db.findSignal request.signalId = some row := hid ▸ hrows.signalRow
    have htrade : t.db.findTrade request.signalId = some trade := hid ▸ hrows.tradeRow
    cases ht.signalRow.symm.trans hrow
    cases ht.tradeRow.symm.trans htrade
    have hjournal := h.journal.transitioned hkey ht
    have hothers : ∀ other, other ≠ symbol → Synced db other (others other).signal :=
      fun other hne => (h.others other hne).untouched hrow (hrows.sameSymbol ▸ hne)
        (fun _ => ht.findSignal_of_ne) fun _ => ht.findTrade_of_ne
    rw [happlied]
    unfold Tracker.settle
    cases hterminal : request.target.isTerminal with
    | true => exact ⟨hjournal, synced_none db symbol, hothers, h.calls⟩
    | false => exact ⟨hjournal, synced_some.mpr ⟨_, _, hrows.moved ht hid hterminal⟩, hothers,
        h.calls⟩

theorem Tracked.checkpoint (h : Tracked C others symbol t) (hsignal : t.signal = some signal)
    (trade : PublicTrade) :
    Ends (Tracked C others symbol) (Left C) (t.checkpoint signal trade) := by
  obtain ⟨row, record, hrows⟩ := h.synced signal hsignal
  refine Ends.bind (P := fun pair : Tracker × Unit => ∃ db life,
    checkpointTrade t.db signal.id trade.tradeId trade.executedAt trade.sequence = .ok db ∧
      pair.1 = { t with db := db, life := life })
    (h.commit fun db life result hwrite => ⟨db, life, ?_, rfl⟩) ?_
  · cases hcheckpoint : checkpointTrade t.db signal.id trade.tradeId trade.executedAt
        trade.sequence with
    | error cause =>
      rw [hcheckpoint] at hwrite
      cases hwrite
    | ok next =>
      rw [hcheckpoint] at hwrite
      cases hwrite
      rfl
  · rintro ⟨_, result⟩ ⟨db, life, hdb, rfl⟩
    obtain ⟨record', hrecord', hnext⟩ := checkpointTrade_ok hdb
    cases hrecord'.symm.trans hrows.tradeRow
    have hid : record.signalId = signal.id := lookup_key hrows.tradeRow
    have hsignals : ∀ id, db.findSignal id = t.db.findSignal id := by
      rcases hnext with rfl | rfl <;> exact fun id => rfl
    have htrades : ∀ id, id ≠ signal.id → db.findTrade id = t.db.findTrade id := by
      intro id hne
      rcases hnext with rfl | rfl
      · rfl
      · exact lookup_replaceRow_of_ne fun heq => hne (heq.symm.trans hid)
    have hcurrent : ∃ record', db.findTrade signal.id = some record' ∧
        withoutCheckpoint (trackingView row record') = withoutCheckpoint (trackingView row record) := by
      rcases hnext with rfl | rfl
      · exact ⟨record, hrows.tradeRow, rfl⟩
      · refine ⟨{ record with
          lastTradeId := some trade.tradeId
          lastTradeTime := some trade.executedAt
          lastTradeSequence := some trade.sequence }, ?_, rfl⟩
        rw [← hid]
        exact @lookup_replaceRow_self _ _ _ VirtualTradeRecord.signalId t.db.trades record _
          (hid ▸ hrows.tradeRow)
    obtain ⟨record', hrecord', hview⟩ := hcurrent
    refine ⟨h.journal.checkpointed hdb, synced_some.mpr ⟨row, record', ?_⟩, ?_, h.calls⟩
    · exact ⟨(hsignals _).trans hrows.signalRow, hrecord', hrows.sameSymbol, hrows.active,
        hrows.view.trans hview.symm⟩
    · exact fun other hne => (h.others other hne).untouched hrows.signalRow
        (hrows.sameSymbol ▸ hne) (fun id _ => hsignals id) htrades

/-- A move of the tracked signal under a new key is applied, unless the process is
killed before. -/
theorem Tracked.commits (h : Tracked C others symbol t) (hsignal : t.signal = some signal)
    {request : TransitionRequest} (hid : request.signalId = signal.id)
    (hlegal : request.target ∈ signalTransitions signal.status)
    (hfresh : t.db.findEvent request.idempotencyKey = none) {life : Nat}
    (hlife : t.life = life + 1) :
    ∃ db row trade tradeStatus outbox, RowsOf t.db symbol signal row trade ∧
      Transitioned t.db db request row trade tradeStatus outbox ∧
      t.transition signal request =
        .ok ({ t with db := db, life := life : Tracker }.settle signal request true) := by
  obtain ⟨row, trade, hrows⟩ := h.synced signal hsignal
  rw [hrows.status] at hlegal
  have hrow : t.db.findSignal request.signalId = some row := hid ▸ hrows.signalRow
  obtain ⟨db, hdb⟩ := writeTransition_commits h.journal.sound hfresh hrow hlegal
  obtain ⟨-, row', trade', tradeStatus, outbox, ht⟩ := writeTransition_ok hfresh hdb
  have htrade : t.db.findTrade request.signalId = some trade := hid ▸ hrows.tradeRow
  cases ht.signalRow.symm.trans hrow
  cases ht.tradeRow.symm.trans htrade
  refine ⟨db, row, trade, tradeStatus, outbox, hrows, ht, ?_⟩
  have happly : applyTransition t.db request = .ok (db, ⟨true, request.signalId, request.target⟩) := by
    rw [applyTransition, hfresh]
    exact hdb
  simp only [Tracker.transition, Tracker.commit, hlife, happly]
  rfl

theorem Tracked.fresh (h : Tracked C others symbol t) (hsignal : t.signal = some signal)
    {key : String} {target : SignalStatus} (hlegal : target ∈ signalTransitions signal.status)
    (hnames : Names key signal.id target) : t.db.findEvent key = none := by
  obtain ⟨row, trade, hrows⟩ := h.synced signal hsignal
  exact h.journal.fresh hrows.signalRow (hrows.status ▸ hlegal) hnames

theorem Tracked.fresh_coverage (h : Tracked C others symbol t) (hsignal : t.signal = some signal)
    (hstatus : signal.status = .preparing) (anchor : Int) :
    t.db.findEvent (coverageKey signal.id anchor) = none := by
  obtain ⟨row, trade, hrows⟩ := h.synced signal hsignal
  exact h.journal.fresh_coverage hrows.signalRow (hrows.status ▸ hstatus) anchor

/-- The memory of a signal after an applied transition. -/
def settled (signal : TrackingSignalView) (request : TransitionRequest) :
    Option TrackingSignalView :=
  if request.target.isTerminal then none else some (moved signal request)

theorem settle_signal (t : Tracker) (signal : TrackingSignalView) (request : TransitionRequest) :
    (t.settle signal request true).signal = settled signal request := by
  unfold Tracker.settle settled
  cases request.target.isTerminal <;> rfl

theorem Tracked.applied (h : Tracked C others symbol t) (hsignal : t.signal = some signal)
    {request : TransitionRequest} (hid : request.signalId = signal.id)
    (hlegal : request.target ∈ signalTransitions signal.status)
    (hnames : Names request.idempotencyKey signal.id request.target) :
    Ends (fun t' => Tracked C others symbol t' ∧ t'.signal = settled signal request) (Left C)
      (t.transition signal request) := by
  have hends := h.transition hsignal hid (hid ▸ hnames.wellKeyed)
  cases hlife : t.life with
  | zero =>
    simp only [Tracker.transition, Tracker.commit, hlife]
    exact ⟨h.journal, h.calls⟩
  | succ life =>
    obtain ⟨db, row, trade, tradeStatus, outbox, -, -, hok⟩ :=
      h.commits hsignal hid hlegal (h.fresh hsignal hlegal hnames) hlife
    rw [hok] at hends ⊢
    exact ⟨hends, settle_signal _ signal request⟩

end Operations

section Loops
variable {C : EvaluatorCall → Prop} {others : Symbol → Memory} {symbol : Symbol} {t : Tracker}
variable {signal : TrackingSignalView}
variable {context : TrackingSignalView → LifecycleAction → Nat → EventContext}

theorem Tracked.applyActions (h : Tracked C others symbol t)
    (hkey : ∀ signal action index,
      WellKeyed (context signal action index).idempotencyKey signal.id action.target)
    (actions : List (LifecycleAction × Nat)) :
    Ends (Tracked C others symbol) (Left C) (t.applyActions context actions) := by
  induction actions generalizing t with
  | nil => exact h
  | cons head actions ih =>
    unfold Tracker.applyActions
    split
    · exact h
    · rename_i signal hsignal
      refine Ends.bind (h.transition hsignal ?_ ?_) fun t' ht' => ih ht'
      · simp
      · simpa using hkey signal head.1 head.2

/-- Remembers a call of an evaluator. -/
theorem Tracked.called (h : Tracked C others symbol t) {anchor : Int} {event : MarketEvent}
    (hcall : C ⟨signal, anchor, event⟩) : Tracked C others symbol (t.called signal anchor event) :=
  ⟨h.journal, h.synced, h.others, forall_mem_append_singleton h.calls hcall⟩

variable (hC : ∀ signal anchor trade, C ⟨signal, anchor, .trade trade⟩)
include hC

theorem Tracked.processTrade (h : Tracked C others symbol t) (trade : PublicTrade) (due : Bool) :
    Ends (Tracked C others symbol) (Left C) (t.processTrade trade due) := by
  unfold Tracker.processTrade
  split
  · exact h
  · rename_i signal hsignal
    refine Ends.bind ((h.called (hC signal _ trade)).applyActions
      (fun _ _ _ => names_trade.wellKeyed) _) fun t' ht' => ?_
    split
    · exact ht'
    · rename_i signal' hsignal'
      split_ifs
      · exact ht'.checkpoint hsignal' trade
      · exact ht'

theorem Tracked.replay (h : Tracked C others symbol t) (trades : List PublicTrade) :
    Ends (Tracked C others symbol) (Left C) (t.replay trades) := by
  induction trades generalizing t with
  | nil => exact h
  | cons trade trades ih =>
    unfold Tracker.replay
    split
    · exact h
    · exact Ends.bind (h.processTrade hC trade false) fun t' ht' => ih ht'

theorem Tracked.replayAndCheckpoint (h : Tracked C others symbol t) (trades : List PublicTrade) :
    Ends (Tracked C others symbol) (Left C) (t.replayAndCheckpoint trades) := by
  refine Ends.bind (h.replay hC trades) fun t' ht' => ?_
  split
  · rename_i hsignal
    exact ht'.checkpoint hsignal _
  · exact ht'

end Loops

end StructurePulse.Service
