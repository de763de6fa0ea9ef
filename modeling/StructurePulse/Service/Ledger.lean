import StructurePulse.Service.Sync
import StructurePulse.Signals.Levels

/-!
# What the rows say about a signal

A `Ledger` is the part of a signal's rows and events that does not depend on how far
the checkpoint lags. `Ledger.process` is what one trade does to it; the service does
the same, or the first transitions of it when it is killed in between.
-/

namespace StructurePulse.Service
open Signals Store Strategy Library
set_option autoImplicit false

structure Transition where
  statusFrom : Option SignalStatus
  statusTo : SignalStatus
  eventTime : Int
  eventType : String
  sourceEventId : Option String
  deriving Repr, DecidableEq

def transitionOf (event : SignalEventRecord) : Transition where
  statusFrom := event.statusFrom
  statusTo := event.statusTo
  eventTime := event.eventTime
  eventType := event.eventType
  sourceEventId := event.sourceEventId

structure Ledger where
  view : TrackingSignalView
  realizedPnl : ℚ
  fees : ℚ
  transitions : List Transition
  deriving Repr, DecidableEq

def ledgerOf (db : Database) (row : SignalRecord) (trade : VirtualTradeRecord) : Ledger where
  view := withoutCheckpoint (trackingView row trade)
  realizedPnl := trade.realizedPnl
  fees := trade.fees
  transitions := ((db.eventsOf row.id).filter (·.isTransition)).map transitionOf

def Ledger.apply (l : Ledger) (request : TransitionRequest) : Ledger where
  view := moved l.view request
  realizedPnl := request.realizedPnl.getD l.realizedPnl
  fees := request.fees.getD l.fees
  transitions := l.transitions ++ [{
    statusFrom := some l.view.status
    statusTo := request.target
    eventTime := request.eventTime
    eventType := request.eventType
    sourceEventId := request.sourceEventId }]

def Ledger.book (trade : PublicTrade) (l : Ledger) (head : LifecycleAction × Nat) : Ledger :=
  l.apply (actionRequest l.view head.1 (tradeContext trade l.view head.1 head.2))

/-- What a trade does to a signal. -/
def Ledger.process (l : Ledger) (trade : PublicTrade) : Ledger :=
  (evaluatePublicTrade (lifecycleState l.view) trade).zipIdx.foldl (Ledger.book trade) l

theorem Ledger.process_of_not_reaches {l : Ledger} {trade : PublicTrade}
    (h : tradeReaches (lifecycleState l.view) trade = false) : l.process trade = l := by
  rw [Ledger.process, (evaluatePublicTrade_eq_nil_iff _ _).mpr h]
  rfl

section Processing
variable {l : Ledger} {trade : PublicTrade}

@[simp] theorem book_status (trade : PublicTrade) (l : Ledger) (head : LifecycleAction × Nat) :
    (l.book trade head).view.status = head.1.target := by
  simp [Ledger.book, Ledger.apply]

@[simp] theorem book_symbol (trade : PublicTrade) (l : Ledger) (head : LifecycleAction × Nat) :
    (l.book trade head).view.symbol = l.view.symbol := rfl

theorem foldl_book_symbol (actions : List (LifecycleAction × Nat)) (l : Ledger) :
    (actions.foldl (Ledger.book trade) l).view.symbol = l.view.symbol := by
  induction actions generalizing l with
  | nil => rfl
  | cons head actions ih => exact (ih (l.book trade head)).trans (book_symbol trade l head)

/-- The index of an action only enters its key. -/
theorem book_index (trade : PublicTrade) (l : Ledger) (action : LifecycleAction) (i j : Nat) :
    l.book trade (action, i) = l.book trade (action, j) := by
  unfold Ledger.book actionRequest tradeContext
  simp only
  split
  · rfl
  · split_ifs <;> rfl

theorem Ledger.process_of_closed (h : l.view.status.isActive = false) (trade : PublicTrade) :
    l.process trade = l := by
  apply Ledger.process_of_not_reaches
  unfold tradeReaches
  rw [lifecycleState_status]
  cases hstatus : l.view.status <;> simp_all [SignalStatus.isActive]

theorem Ledger.foldl_process_of_closed (h : l.view.status.isActive = false)
    (trades : List PublicTrade) : trades.foldl Ledger.process l = l := by
  induction trades with
  | nil => rfl
  | cons trade trades ih =>
    rw [List.foldl_cons, Ledger.process_of_closed h]
    exact ih

theorem rank_le_foldl_book (actions : List (LifecycleAction × Nat)) :
    ∀ l : Ledger, LegalPath l.view.status (actions.map Prod.fst) →
      l.view.status.rank ≤ (actions.foldl (Ledger.book trade) l).view.status.rank := by
  induction actions with
  | nil => exact fun l _ => le_refl _
  | cons head actions ih =>
    intro l hpath
    obtain ⟨hlegal, hrest⟩ := hpath
    have hstep := rank_lt_of_transition hlegal
    have hrec := ih (l.book trade head) (by rw [book_status]; exact hrest)
    rw [book_status] at hrec
    exact (le_of_lt hstep).trans hrec

/-- A trade never sends a signal back. -/
theorem Ledger.rank_le_process (l : Ledger) (trade : PublicTrade) :
    l.view.status.rank ≤ (l.process trade).view.status.rank :=
  rank_le_foldl_book _ l (by simpa using evaluatePublicTrade_legal (lifecycleState l.view) trade)

/-- A trade that books both targets has reached the second. -/
theorem reached_of_tp1AndTp2 {state : LifecycleState}
    (h : evaluatePublicTrade state trade = tp1AndTp2 state) (hstatus : state.status = .entered) :
    trade.symbol = state.symbol ∧
      targetReached state.direction state.takeProfit2 trade.price = true := by
  unfold evaluatePublicTrade at h
  split_ifs at h with hsymbol
  · simp [tp1AndTp2] at h
  · rw [hstatus] at h
    refine ⟨not_not.mp hsymbol, ?_⟩
    simp only [evaluateEntered] at h
    split_ifs at h with hstop htarget
    · simp [tp1AndTp2] at h
    · exact htarget
    · simp [tp1AndTp2] at h
    · simp [tp1AndTp2] at h

/-- The second booking of such a trade can also be made by evaluating it again, unless
the trade lies beyond the breakeven stop of the first. -/
theorem Ledger.process_again {l : Ledger} (hstatus : l.view.status = .entered)
    (hactions : evaluatePublicTrade (lifecycleState l.view) trade =
      tp1AndTp2 (lifecycleState l.view))
    (hstop : beyondStop (l.book trade (tp1Action (lifecycleState l.view), 0)).view.direction
      (l.book trade (tp1Action (lifecycleState l.view), 0)).view.currentStop trade.price = false) :
    (l.book trade (tp1Action (lifecycleState l.view), 0)).process trade = l.process trade := by
  obtain ⟨hsymbol, htarget⟩ := reached_of_tp1AndTp2 hactions hstatus
  have hwhole : l.process trade = (l.book trade (tp1Action (lifecycleState l.view), 0)).book trade
      (tp2Action (lifecycleState l.view), 1) := by
    rw [Ledger.process, hactions]
    rfl
  have hagain : evaluatePublicTrade (lifecycleState
      (l.book trade (tp1Action (lifecycleState l.view), 0)).view) trade =
        [tp2Action (lifecycleState l.view)] := by
    have hsame : trade.symbol = (lifecycleState
        (l.book trade (tp1Action (lifecycleState l.view), 0)).view).symbol := hsymbol
    have hnow : (lifecycleState (l.book trade (tp1Action (lifecycleState l.view), 0)).view).status =
        .tp1Reached := book_status trade l _
    unfold evaluatePublicTrade
    rw [if_neg (not_not.mpr hsame), hnow]
    change evaluateTp1Reached _ trade = _
    unfold evaluateTp1Reached
    rw [if_neg (by rw [Bool.not_eq_true]; exact hstop)]
    exact if_pos htarget
  rw [hwhole, Ledger.process, hagain]
  exact book_index trade _ _ 0 1

end Processing

section Position
variable {db next : Database} {id : Nat} {l : Ledger} {anchor : Int}
variable {row : SignalRecord} {trade : VirtualTradeRecord} {request : TransitionRequest}

/-- The rows of the signal, as a ledger and the coverage anchor they give. -/
def At (db : Database) (id : Nat) (l : Ledger) (anchor : Int) : Prop :=
  ∃ row trade, db.findSignal id = some row ∧ db.findTrade id = some trade ∧
    l = ledgerOf db row trade ∧ anchor = (trackingView row trade).coverageAnchor

theorem At.unique {l' : Ledger} {anchor' : Int} (h : At db id l anchor) (h' : At db id l' anchor') :
    l = l' ∧ anchor = anchor' := by
  obtain ⟨row, trade, hrow, htrade, rfl, rfl⟩ := h
  obtain ⟨row', trade', hrow', htrade', rfl, rfl⟩ := h'
  cases hrow.symm.trans hrow'
  cases htrade.symm.trans htrade'
  exact ⟨rfl, rfl⟩

/-- A copy of the rows shows the ledger's view. -/
theorem At.view {symbol : Symbol} {signal : TrackingSignalView} (h : At db id l anchor)
    (hid : signal.id = id) (hrows : RowsOf db symbol signal row trade) :
    l.view = withoutCheckpoint signal := by
  obtain ⟨row', trade', hrow', htrade', rfl, -⟩ := h
  rw [← hid] at hrow' htrade'
  cases hrow'.symm.trans hrows.signalRow
  cases htrade'.symm.trans hrows.tradeRow
  exact hrows.view.symm

theorem At.transitioned {tradeStatus : VirtualTradeStatus} {outbox : List NotificationOutboxRecord}
    (h : At db request.signalId l anchor)
    (ht : Transitioned db next request row trade tradeStatus outbox) :
    At next request.signalId (l.apply request) anchor := by
  obtain ⟨row', trade', hrow', htrade', rfl, rfl⟩ := h
  cases hrow'.symm.trans ht.signalRow
  cases htrade'.symm.trans ht.tradeRow
  refine ⟨_, _, ht.findSignal, ht.findTrade, ?_, rfl⟩
  have hid : row.id = request.signalId := lookup_key ht.signalRow
  have hevents : next.eventsOf row.id = db.eventsOf row.id ++
      [request.event row.status request.target] :=
    eventsOf_append_self (by rw [ht.result]) hid.symm
  unfold Ledger.apply ledgerOf
  rw [Ledger.mk.injEq]
  refine ⟨rfl, rfl, rfl, ?_⟩
  simp only [SignalRecord.transitioned, hevents, List.filter_append, List.filter_singleton,
    isTransition_event ht.legal]
  simp [transitionOf, TransitionRequest.event, withoutCheckpoint, trackingView]

theorem At.checkpointed {tradeId : String} {executedAt sequence : Int} (h : At db id l anchor)
    (hnext : checkpointTrade db id tradeId executedAt sequence = .ok next) :
    ∃ anchor', At next id l anchor' ∧ (anchor' = anchor ∨ anchor' = executedAt) := by
  obtain ⟨row, trade, hrow, htrade, rfl, rfl⟩ := h
  obtain ⟨trade', htrade', rfl | rfl⟩ := checkpointTrade_ok hnext
  · exact ⟨_, ⟨row, trade, hrow, htrade, rfl, rfl⟩, Or.inl rfl⟩
  · cases htrade'.symm.trans htrade
    have hid : trade.signalId = id := lookup_key htrade
    refine ⟨executedAt, ⟨row, { trade with
      lastTradeId := some tradeId
      lastTradeTime := some executedAt
      lastTradeSequence := some sequence }, hrow, ?_, by rfl, by rfl⟩, Or.inr rfl⟩
    rw [← hid]
    exact @lookup_replaceRow_self _ _ _ VirtualTradeRecord.signalId db.trades trade _ (hid ▸ htrade)

end Position

section Evaluation
variable {C : EvaluatorCall → Prop} {others : Symbol → Memory} {symbol : Symbol} {t : Tracker}
variable {signal : TrackingSignalView} {id : Nat} {l : Ledger} {anchor : Int}

theorem Tracked.transition_at (h : Tracked C others symbol t) (hsignal : t.signal = some signal)
    (hat : At t.db signal.id l anchor) (request : TransitionRequest)
    (hid : request.signalId = signal.id)
    (hlegal : request.target ∈ signalTransitions signal.status)
    (hkey : WellKeyed request.idempotencyKey request.signalId request.target)
    (hfresh : t.db.findEvent request.idempotencyKey = none) {life : Nat}
    (hlife : t.life = life + 1) :
    ∃ t', t.transition signal request = .ok t' ∧ Tracked C others symbol t' ∧ t'.life = life ∧
      t'.signal = settled signal request ∧ At t'.db signal.id (l.apply request) anchor := by
  obtain ⟨db, row, trade, tradeStatus, outbox, -, ht, hok⟩ := h.commits hsignal hid hlegal hfresh hlife
  have htracked := (h.transition hsignal hid hkey).of_ok hok
  refine ⟨_, hok, htracked, ?_, settle_signal _ signal request, ?_⟩
  · unfold Tracker.settle
    split_ifs <;> rfl
  · rw [settle_db, ← hid]
    exact (hid ▸ hat : At t.db request.signalId l anchor).transitioned ht

/-- The memory after an evaluation: none once the signal is closed, else a copy with
one of the two anchors. -/
structure Follows (t : Tracker) (id : Nat) (l : Ledger) (anchors : Int → Prop) : Prop where
  closed : t.signal = none → l.view.status.isActive = false
  copy : ∀ signal, t.signal = some signal → signal.id = id ∧ anchors signal.coverageAnchor

theorem actionRequest_view (signal : TrackingSignalView) (action : LifecycleAction)
    (trade : PublicTrade) (index : Nat) :
    actionRequest (withoutCheckpoint signal) action
        (tradeContext trade (withoutCheckpoint signal) action index) =
      actionRequest signal action (tradeContext trade signal action index) := rfl

/-- The actions of one trade, all of them if the process lives for as many transactions
and otherwise the first ones. -/
theorem Tracked.applyActions_at (h : Tracked C others symbol t) (hsignal : t.signal = some signal)
    (hat : At t.db id l anchor) (hid : signal.id = id) (trade : PublicTrade)
    (actions : List (LifecycleAction × Nat))
    (hpath : LegalPath signal.status (actions.map Prod.fst)) :
    Ends (fun t' => actions.length ≤ t.life ∧ Tracked C others symbol t' ∧
        At t'.db id (actions.foldl (Ledger.book trade) l) anchor ∧
        Follows t' id (actions.foldl (Ledger.book trade) l) (· = signal.coverageAnchor))
      (fun left => t.life < actions.length ∧ Left C left ∧
        At left.db id ((actions.take t.life).foldl (Ledger.book trade) l) anchor)
      (t.applyActions (tradeContext trade) actions) := by
  induction actions generalizing t signal l with
  | nil =>
    refine ⟨Nat.zero_le _, h, hat, fun hnone => ?_, fun signal' hsignal' => ?_⟩
    · rw [hsignal] at hnone
      cases hnone
    · rw [hsignal, Option.some.injEq] at hsignal'
      rw [← hsignal']
      exact ⟨hid, rfl⟩
  | cons head actions ih =>
    obtain ⟨action, index⟩ := head
    obtain ⟨hlegal, hrest⟩ := hpath
    obtain ⟨row, record, hrows⟩ := h.synced signal hsignal
    have hview : l.view = withoutCheckpoint signal := hat.view hid hrows
    have hbook : l.book trade (action, index) =
        l.apply (actionRequest signal action (tradeContext trade signal action index)) := by
      rw [Ledger.book, hview, actionRequest_view]
    unfold Tracker.applyActions
    rw [hsignal]
    simp only
    cases hlife : t.life with
    | zero =>
      simp only [Tracker.transition, Tracker.commit, hlife]
      exact ⟨Nat.succ_pos _, ⟨h.journal, h.calls⟩, hat⟩
    | succ life =>
      obtain ⟨t', hok, htracked, hlife', hsettled, hat'⟩ := h.transition_at hsignal
        (hid ▸ hat) (actionRequest signal action (tradeContext trade signal action index))
        (by simp) (by simpa using hlegal) (by simpa using names_trade.wellKeyed)
        (h.fresh hsignal hlegal (by simpa using names_trade)) hlife
      rw [hok]
      change Ends _ _ (t'.applyActions (tradeContext trade) actions)
      rw [hid, ← hbook] at hat'
      cases hterminal : action.target.isTerminal with
      | true =>
        -- a closed signal has no legal action left
        have hdone : actions = [] := by
          cases actions with
          | nil => rfl
          | cons next actions =>
            have hopen := isActive_of_transition hrest.1
            rw [← Bool.not_eq_false, not_isTerminal_of_isActive hopen] at hterminal
            exact absurd rfl hterminal
        subst hdone
        have hnone : t'.signal = none := by
          rw [hsettled, settled, actionRequest_target, hterminal]
          rfl
        refine ⟨by simp, htracked, hat', fun _ => ?_, fun signal' hsignal' => ?_⟩
        · simp only [List.foldl_cons, List.foldl_nil, hbook, Ledger.apply, moved_status,
            actionRequest_target]
          by_contra hactive
          rw [not_isTerminal_of_isActive (Bool.not_eq_false _ ▸ hactive)] at hterminal
          cases hterminal
        · rw [hnone] at hsignal'
          cases hsignal'
      | false =>
        have hsome : t'.signal = some (moved signal
            (actionRequest signal action (tradeContext trade signal action index))) := by
          rw [hsettled, settled, actionRequest_target, hterminal]
          rfl
        have hloop := ih htracked hsome hat' hid (by simpa using hrest)
        rw [hlife'] at hloop
        revert hloop
        cases t'.applyActions (tradeContext trade) actions with
        | ok last =>
          rintro ⟨hlength, hlast, hledger, hfollows⟩
          exact ⟨Nat.succ_le_succ hlength, hlast, hledger, hfollows.closed, hfollows.copy⟩
        | error left =>
          rintro ⟨hlength, hleft, hledger⟩
          exact ⟨Nat.succ_lt_succ hlength, hleft, hledger⟩

/-- One trade: the whole of it, or the whole without the checkpoint, or its first
transitions. -/
theorem Tracked.processTrade_at (hC : ∀ signal anchor trade, C ⟨signal, anchor, .trade trade⟩)
    (h : Tracked C others symbol t) (hsignal : t.signal = some signal) (hat : At t.db id l anchor)
    (hid : signal.id = id) (trade : PublicTrade) (due : Bool) :
    Ends (fun t' => (evaluatePublicTrade (lifecycleState signal) trade).length ≤ t.life ∧
        Tracked C others symbol t' ∧
        (∃ anchor', At t'.db id (l.process trade) anchor' ∧
          (anchor' = anchor ∨ anchor' = trade.executedAt)) ∧
        Follows t' id (l.process trade) fun a => a = signal.coverageAnchor ∨ a = trade.executedAt)
      (fun left => Left C left ∧
        ((due = true ∧ (evaluatePublicTrade (lifecycleState signal) trade).length ≤ t.life ∧
            At left.db id (l.process trade) anchor) ∨
          (t.life < (evaluatePublicTrade (lifecycleState signal) trade).length ∧
            At left.db id (((evaluatePublicTrade (lifecycleState signal) trade).zipIdx.take
              t.life).foldl (Ledger.book trade) l) anchor)))
      (t.processTrade trade due) := by
  obtain ⟨row, record, hrows⟩ := h.synced signal hsignal
  have hview : l.view = withoutCheckpoint signal := hat.view hid hrows
  have hprocess : (evaluatePublicTrade (lifecycleState signal) trade).zipIdx.foldl
      (Ledger.book trade) l = l.process trade := by
    rw [Ledger.process, hview]
    rfl
  have hpath := evaluatePublicTrade_legal (lifecycleState signal) trade
  have hactions := (h.called (hC signal signal.coverageAnchor trade)).applyActions_at hsignal hat hid
    trade (evaluatePublicTrade (lifecycleState signal) trade).zipIdx (by simpa using hpath)
  rw [hprocess, List.length_zipIdx] at hactions
  unfold Tracker.processTrade
  rw [hsignal]
  simp only
  revert hactions
  cases (t.called signal signal.coverageAnchor (.trade trade)).applyActions (tradeContext trade)
      (evaluatePublicTrade (lifecycleState signal) trade).zipIdx with
  | error left =>
    rintro ⟨hlength, hleft, hledger⟩
    exact ⟨hleft, Or.inr ⟨hlength, hledger⟩⟩
  | ok t' =>
    rintro ⟨hlength, htracked, hledger, hfollows⟩
    rw [ok_bind]
    have hkept : Follows t' id (l.process trade) fun a =>
        a = signal.coverageAnchor ∨ a = trade.executedAt :=
      ⟨hfollows.closed, fun signal' hsignal' =>
        ⟨(hfollows.copy signal' hsignal').1, Or.inl (hfollows.copy signal' hsignal').2⟩⟩
    split
    · exact ⟨hlength, htracked, ⟨anchor, hledger, Or.inl rfl⟩, hkept⟩
    · rename_i signal' hsignal'
      split_ifs with hdue
      · have hcheckpoint := htracked.checkpoint hsignal' trade
        have hid' := (hfollows.copy signal' hsignal').1
        cases hresult : t'.checkpoint signal' trade with
        | error left =>
          have hdb := (checkpoint_error hresult).1
          exact ⟨hcheckpoint.of_error hresult, Or.inl ⟨hdue, hlength, hdb ▸ hledger⟩⟩
        | ok last =>
          have hlast := hcheckpoint.of_ok hresult
          obtain ⟨db, life, hdb, -, rfl⟩ := checkpoint_ok hresult
          rw [hid'] at hdb
          refine ⟨hlength, hlast, hledger.checkpointed hdb, fun hnone => ?_, fun s hs => ?_⟩
          · cases hnone
          · cases hs
            exact ⟨hid', Or.inr rfl⟩
      · exact ⟨hlength, htracked, ⟨anchor, hledger, Or.inl rfl⟩, hkept⟩

end Evaluation

end StructurePulse.Service
