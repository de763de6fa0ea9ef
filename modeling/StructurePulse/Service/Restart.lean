import StructurePulse.Service.CandleRecovery
import StructurePulse.Service.Ledger
import StructurePulse.Service.Run

/-!
# Restarts and reconnects of the exact tracking

A session follows one signal through trades, kills and disconnects. Whatever ends it,
the next coverage starts at the anchor, which lags the transitions, and hands over
every trade of the exchange from there on. The outcome is that of a session that was
never interrupted as long as the trades evaluated for a second time reach no level.
-/

namespace StructurePulse.Service
open Signals Store Strategy Library
set_option autoImplicit false

/-- `todo` is what the coverage and the stream still hand over. The last two fields are
not part of the service: the trades that were evaluated to their end, and the one
that was stopped between its two transitions. -/
structure Session where
  tracker : Tracker
  running : Bool := false
  todo : List PublicTrade := []
  settled : List PublicTrade := []
  cut : Option PublicTrade := none
  deriving DecidableEq

inductive SessionOp where
  | evaluate (due : Bool) (life : Nat)
  | disconnect
  | kill
  | resume (life : Nat)
  deriving DecidableEq

/-- A fresh process after its first reconciliation, which subscribes. -/
def restarted (symbol : Symbol) (db : Database) (calls : List EvaluatorCall) : Tracker :=
  let t := { db := db, life := 0, calls := calls : Tracker }.reload symbol
  { t with subscribed := true, coveragePending := t.signal.map (·.coverageAnchor) }

/-- The trades a complete coverage from `anchor` hands over. -/
def tradesFrom (exchange : List PublicTrade) (anchor : Int) : List PublicTrade :=
  exchange.filter fun trade => decide (anchor ≤ trade.executedAt)

section Steps
variable (exchange : List PublicTrade) (symbol : Symbol) (id : Nat)

/-- The next trade. `life` is where the process dies, if it does. -/
def Session.evaluate (s : Session) (due : Bool) (life : Nat) : Session :=
  match s.todo with
  | [] => s
  | trade :: rest =>
    match { s.tracker with life := life }.processTrade trade due with
    | .ok t => { s with tracker := t, todo := rest, settled := s.settled ++ [trade] }
    | .error left =>
      let transitions := match s.tracker.signal with
        | some signal => (evaluatePublicTrade (lifecycleState signal) trade).length
        | none => 0
      { tracker := restarted symbol left.db left.calls
        settled := if transitions ≤ life then s.settled ++ [trade] else s.settled
        cut := if 0 < life ∧ life < transitions then some trade else none }

/-- The coverage is complete: it replays the exchange's trades from the anchor on, and
the stream continues where it ends. -/
def Session.resume (s : Session) (life : Nat) : Session :=
  match s.tracker.signal.filter fun signal => signal.id = id, s.tracker.coveragePending with
  | some signal, some anchor =>
    match { s.tracker with life := life }.activate signal anchor (tradesFrom exchange anchor).length with
    | .ok t =>
      { s with tracker := t, running := true, todo := tradesFrom exchange anchor, cut := none }
    | .error left =>
      { tracker := restarted symbol left.db left.calls, settled := s.settled, cut := s.cut }
  | _, _ => { s with running := true, todo := [] }

def Session.step (s : Session) : SessionOp → Session
  | .evaluate due life => if s.running then s.evaluate symbol due life else s
  | .disconnect =>
    if s.running then { s with tracker := s.tracker.disconnect, running := false, todo := [] } else s
  | .kill =>
    { s with tracker := restarted symbol s.tracker.db s.tracker.calls, running := false, todo := [] }
  | .resume life => if s.running then s else s.resume exchange symbol id life

def Session.run (s : Session) (ops : List SessionOp) : Session :=
  ops.foldl (Session.step exchange symbol id) s

/-- The first start after the publication. -/
def Session.start (db : Database) : Session := { tracker := restarted symbol db [] }

/-- One coverage and then every trade, with a process that outlives them. -/
def Session.uninterrupted (db : Database) : Session :=
  (Session.start symbol db).run exchange symbol id
    (.resume 1 :: List.replicate exchange.length (.evaluate false 2))

end Steps

/-- No trade that the replay will evaluate again reaches a level of the signal; one that
was stopped between its two transitions is not beyond the breakeven stop. -/
def HarmlessResume (s : Session) : Prop :=
  ∀ signal ∈ s.tracker.signal, ∀ anchor ∈ s.tracker.coveragePending,
    (∀ trade ∈ s.settled, anchor ≤ trade.executedAt →
      tradeReaches (lifecycleState signal) trade = false) ∧
    ∀ trade ∈ s.cut, beyondStop signal.direction signal.currentStop trade.price = false

instance (s : Session) : Decidable (HarmlessResume s) :=
  inferInstanceAs (Decidable (∀ signal ∈ s.tracker.signal, ∀ anchor ∈ s.tracker.coveragePending,
    _ ∧ _))

/-- The condition on the state before an operation; only a resumption has one. -/
def HarmlessOp (s : Session) : SessionOp → Prop
  | .resume _ => s.running = false → HarmlessResume s
  | _ => True

instance (s : Session) : ∀ op : SessionOp, Decidable (HarmlessOp s op)
  | .resume _ => inferInstanceAs (Decidable (_ → HarmlessResume s))
  | .evaluate _ _ => isTrue trivial
  | .disconnect => isTrue trivial
  | .kill => isTrue trivial

def HarmlessSession (exchange : List PublicTrade) (symbol : Symbol) (id : Nat) :
    Session → List SessionOp → Prop
  | _, [] => True
  | s, op :: ops =>
    HarmlessOp s op ∧ HarmlessSession exchange symbol id (s.step exchange symbol id op) ops

instance decidableHarmlessSession (exchange : List PublicTrade) (symbol : Symbol) (id : Nat) :
    ∀ (s : Session) (ops : List SessionOp), Decidable (HarmlessSession exchange symbol id s ops)
  | _, [] => isTrue trivial
  | s, op :: ops =>
    @instDecidableAnd _ _ inferInstance
      (decidableHarmlessSession exchange symbol id (s.step exchange symbol id op) ops)

/-- What the rows say about the course of a signal. -/
structure Outcome where
  status : SignalStatus
  realizedPnl : ℚ
  fees : ℚ
  transitions : List Transition
  deriving Repr, DecidableEq

def Ledger.outcome (l : Ledger) : Outcome where
  status := l.view.status
  realizedPnl := l.realizedPnl
  fees := l.fees
  transitions := l.transitions

def outcome (db : Database) (id : Nat) : Option Outcome :=
  match db.findSignal id, db.findTrade id with
  | some row, some trade => some (ledgerOf db row trade).outcome
  | _, _ => none

theorem At.outcome_eq {db : Database} {id : Nat} {l : Ledger} {anchor : Int}
    (h : At db id l anchor) : outcome db id = some l.outcome := by
  obtain ⟨row, trade, hrow, htrade, rfl, -⟩ := h
  rw [outcome, hrow, htrade]

section Restarted
variable {db : Database} {symbol : Symbol} {id : Nat} {l : Ledger} {anchor : Int}

/-- The memory of the other symbols plays no part in a session. -/
abbrev nothing : Symbol → Memory := fun _ => {}

theorem tracked_restarted (h : Journal db) (calls : List EvaluatorCall) :
    Tracked AnyCall nothing symbol (restarted symbol db calls) := by
  have hfresh : Tracked AnyCall nothing symbol { db := db, life := 0, calls := calls } :=
    ⟨h, synced_none db symbol, fun _ _ => synced_none db _, fun _ _ => trivial⟩
  exact hfresh.reload.withMemory rfl rfl rfl

theorem restarted_db (symbol : Symbol) (db : Database) (calls : List EvaluatorCall) :
    (restarted symbol db calls).db = db := by
  unfold restarted Tracker.reload
  split
  · rfl
  · rfl

/-- A fresh process finds an open signal and starts from its durable anchor. -/
theorem restarted_signal (h : Journal db) (hat : At db id l anchor)
    (hactive : l.view.status.isActive = true) (hsymbol : l.view.symbol = symbol)
    (calls : List EvaluatorCall) :
    ∃ signal, (restarted symbol db calls).signal = some signal ∧ signal.id = id ∧
      signal.coverageAnchor = anchor ∧
      (restarted symbol db calls).coveragePending = some signal.coverageAnchor := by
  obtain ⟨row, trade, hrow, htrade, rfl, rfl⟩ := hat
  have hid : row.id = id := lookup_key hrow
  have hlisted : trackingView row trade ∈
      (listTrackingSignals db).filter fun item => item.symbol = symbol := by
    refine List.mem_filter.mpr ⟨List.mem_filterMap.mpr ⟨row, ?_, ?_⟩, decide_eq_true hsymbol⟩
    · exact mem_sortedBy.mpr (List.mem_filter.mpr ⟨lookup_mem hrow, hactive⟩)
    · rw [hid, htrade]
      rfl
  obtain ⟨signal, hlast⟩ := Option.isSome_iff_exists.mp
    (List.getLast?_isSome.mpr (List.ne_nil_of_mem hlisted))
  have hreload : (restarted symbol db calls).signal = some signal ∧
      (restarted symbol db calls).coveragePending = some signal.coverageAnchor := by
    unfold restarted Tracker.reload
    simp [hlast]
  obtain ⟨hmem, hsame⟩ := List.mem_filter.mp (List.mem_of_getLast? hlast)
  obtain ⟨row', trade', hrows⟩ := synced_some.mp
    (synced_of_mem_list h.sound hmem (of_decide_eq_true hsame))
  have hone : row'.id = row.id := h.sound.oneActive row' (lookup_mem hrows.signalRow) row
    (lookup_mem hrow) hrows.active hactive (hrows.sameSymbol.trans hsymbol.symm)
  have hid' : signal.id = id := (lookup_key hrows.signalRow).symm.trans (hone.trans hid)
  refine ⟨signal, hreload.1, hid', ?_, hreload.2⟩
  -- both are the view of the one row
  obtain ⟨row₂, hrow₂, hview⟩ := List.mem_filterMap.mp hmem
  obtain ⟨trade₂, htrade₂, rfl⟩ := Option.map_eq_some_iff.mp hview
  have hrow₂' := h.sound.findSignal (List.mem_filter.mp (mem_sortedBy.mp hrow₂)).1
  rw [show row₂.id = id from hid'] at htrade₂ hrow₂'
  cases htrade₂.symm.trans htrade
  cases hrow₂'.symm.trans hrow
  rfl

end Restarted

section Phases
variable (exchange : List PublicTrade) (symbol : Symbol) (id : Nat) (created : Int) (final : Ledger)

/-- A coverage from `anchor` misses none of `rest`. -/
structure Reaches (rest : List PublicTrade) (anchor : Int) : Prop where
  created : created ≤ anchor
  rest : ∀ trade ∈ rest, anchor ≤ trade.executedAt

/-- The next coverage follows the signal and starts at its anchor. -/
structure Ready (t : Tracker) (signal : TrackingSignalView) : Prop where
  memory : t.signal = some signal
  sameId : signal.id = id
  pending : t.coveragePending = some signal.coverageAnchor

/-- An open signal after the trades `done`, the trades `rest` still ahead. -/
structure Open (s : Session) (l : Ledger) (done rest : List PublicTrade) : Prop where
  split : tradesFrom exchange created = done ++ rest
  settled : ∀ trade ∈ done, trade ∈ s.settled
  rows : ∃ anchor, At s.tracker.db id l anchor ∧ Reaches created rest anchor
  active : l.view.status.isActive = true
  begun : 0 < l.view.status.rank
  symbol : l.view.symbol = symbol

/-- The activation, as a ledger. -/
def Ledger.activated (l : Ledger) : Ledger := l.apply (activationRequest l.view created 0)

/-- Where a session stands. In each phase the trades ahead lead to `final`. -/
inductive Phase (s : Session) : Prop
  | waiting (l : Ledger) (signal : TrackingSignalView) (running : s.running = false)
      (settled : s.settled = []) (cut : s.cut = none) (rows : At s.tracker.db id l created)
      (status : l.view.status = .preparing) (symbol : l.view.symbol = symbol)
      (ready : Ready id s.tracker signal) (anchor : signal.coverageAnchor = created)
      (outcome : (tradesFrom exchange created).foldl Ledger.process (l.activated created) = final)
  | running (l : Ledger) (signal : TrackingSignalView) (done replayed rest : List PublicTrade)
      (position : Open exchange symbol id created s l done rest) (running : s.running = true)
      (cut : s.cut = none) (signalEq : s.tracker.signal = some signal) (signalId : signal.id = id)
      (anchor : Reaches created rest signal.coverageAnchor) (todo : s.todo = replayed ++ rest)
      (again : ∀ trade ∈ replayed, trade ∈ done ∧ tradeReaches (lifecycleState l.view) trade = false)
      (outcome : rest.foldl Ledger.process l = final)
  | interrupted (l : Ledger) (signal : TrackingSignalView) (done rest : List PublicTrade)
      (position : Open exchange symbol id created s l done rest) (running : s.running = false)
      (ready : Ready id s.tracker signal) (anchor : Reaches created rest signal.coverageAnchor)
      (outcome : (∀ trade ∈ s.cut, beyondStop l.view.direction l.view.currentStop trade.price =
        false) → rest.foldl Ledger.process l = final)
  | closed (l : Ledger) (anchor : Int) (rows : At s.tracker.db id l anchor)
      (inactive : l.view.status.isActive = false) (outcome : l = final)
      (idle : s.running = true → s.tracker.signal = none ∨ s.todo = [])

/-- The invariant of a session. -/
structure Session.Sound (s : Session) : Prop where
  tracked : Tracked AnyCall nothing symbol s.tracker
  phase : Phase exchange symbol id created final s

end Phases

section Steps
variable {exchange : List PublicTrade} {symbol : Symbol} {id : Nat} {created : Int} {final : Ledger}
variable {s : Session}

theorem Reaches.tail {rest : List PublicTrade} {trade : PublicTrade} {anchor : Int}
    (h : Reaches created (trade :: rest) anchor) : Reaches created rest anchor :=
  ⟨h.created, fun t ht => h.rest t (List.mem_cons_of_mem trade ht)⟩

/-- Checkpointing a trade that is done misses nothing. -/
theorem reaches_of_done (hordered : ExchangeOrdered exchange) {done rest : List PublicTrade}
    (hsplit : tradesFrom exchange created = done ++ rest) {trade : PublicTrade} (h : trade ∈ done) :
    Reaches created rest trade.executedAt := by
  have hmem : trade ∈ tradesFrom exchange created := hsplit ▸ List.mem_append_left rest h
  have hpairs : (tradesFrom exchange created).Pairwise fun a b => a.key < b.key :=
    List.Pairwise.sublist List.filter_sublist hordered
  rw [hsplit, List.pairwise_append] at hpairs
  exact ⟨of_decide_eq_true (List.mem_filter.mp hmem).2, fun later hlater =>
    executedAt_le_of_key_lt (hpairs.2.2 trade h later hlater)⟩

/-- A process that ends leaves an open signal interrupted, or a closed one. -/
theorem Phase.left {db : Database} {calls : List EvaluatorCall} {l : Ledger} {anchor : Int}
    {done rest settled : List PublicTrade} {cut : Option PublicTrade} (hjournal : Journal db)
    (hrows : At db id l anchor) (hanchor : Reaches created rest anchor)
    (hsplit : tradesFrom exchange created = done ++ rest) (hsettled : ∀ trade ∈ done, trade ∈ settled)
    (hbegun : 0 < l.view.status.rank) (hsymbol : l.view.symbol = symbol)
    (hcut : l.view.status.isActive = false → cut = none)
    (houtcome : (∀ trade ∈ cut, beyondStop l.view.direction l.view.currentStop trade.price =
      false) → rest.foldl Ledger.process l = final) :
    Session.Sound exchange symbol id created final
      { tracker := restarted symbol db calls, settled := settled, cut := cut } := by
  refine ⟨tracked_restarted hjournal calls, ?_⟩
  cases hactive : l.view.status.isActive with
  | true =>
    obtain ⟨signal, hsignal, hid, hsame, hpending⟩ :=
      restarted_signal hjournal hrows hactive hsymbol calls
    refine .interrupted l signal done rest ⟨hsplit, hsettled, ⟨anchor, ?_, hanchor⟩, hactive, hbegun,
      hsymbol⟩ rfl ⟨hsignal, hid, hpending⟩ (hsame ▸ hanchor) houtcome
    simpa [restarted_db] using hrows
  | false =>
    refine .closed l anchor ?_ hactive ?_ fun hrunning => by cases hrunning
    · simpa [restarted_db] using hrows
    · rw [hcut hactive] at houtcome
      have hfinal := houtcome fun trade htrade => absurd htrade (Option.not_mem_none trade)
      rw [← hfinal, Ledger.foldl_process_of_closed hactive]

/-- A kill during the handshake changes nothing. -/
theorem Phase.wait {db : Database} (calls : List EvaluatorCall) {l : Ledger} (hjournal : Journal db)
    (hrows : At db id l created) (hstatus : l.view.status = .preparing)
    (hsymbol : l.view.symbol = symbol)
    (houtcome : (tradesFrom exchange created).foldl Ledger.process (l.activated created) = final) :
    Session.Sound exchange symbol id created final
      { tracker := restarted symbol db calls } := by
  obtain ⟨signal, hsignal, hid, hsame, hpending⟩ :=
    restarted_signal hjournal hrows (by rw [hstatus]; rfl) hsymbol calls
  refine ⟨tracked_restarted hjournal calls, .waiting l signal rfl rfl rfl ?_ hstatus hsymbol
    ⟨hsignal, hid, hpending⟩ hsame houtcome⟩
  simpa [restarted_db] using hrows

theorem Session.Sound.kill (h : s.Sound exchange symbol id created final) :
    (s.step exchange symbol id .kill).Sound exchange symbol id created final := by
  have hjournal := h.tracked.journal
  cases h.phase with
  | waiting l signal running settled cut rows status sameSymbol ready anchor outcome =>
    have hwait := Phase.wait s.tracker.calls hjournal rows status sameSymbol outcome
    simpa [Session.step, settled, cut] using hwait
  | running l signal done replayed rest position running cut signalEq signalId anchor todo again
      outcome =>
    obtain ⟨anchor', hrows, hanchor⟩ := position.rows
    exact Phase.left hjournal hrows hanchor position.split position.settled position.begun
      position.symbol (fun _ => cut) fun _ => outcome
  | interrupted l signal done rest position running ready anchor outcome =>
    obtain ⟨anchor', hrows, hanchor⟩ := position.rows
    refine Phase.left hjournal hrows hanchor position.split position.settled position.begun
      position.symbol (fun hclosed => ?_) outcome
    rw [position.active] at hclosed
    cases hclosed
  | closed l anchor rows inactive outcome idle =>
    refine ⟨tracked_restarted hjournal _, .closed l anchor ?_ inactive outcome fun hrunning => ?_⟩
    · simpa [Session.step, restarted_db] using rows
    · cases hrunning

theorem Session.Sound.disconnect (h : s.Sound exchange symbol id created final) :
    (s.step exchange symbol id .disconnect).Sound exchange symbol id created final := by
  unfold Session.step
  simp only
  split_ifs with hrun
  · refine ⟨h.tracked.withMemory rfl rfl rfl, ?_⟩
    cases h.phase with
    | waiting l signal running =>
      rw [running] at hrun
      cases hrun
    | running l signal done replayed rest position running cut signalEq signalId anchor todo again
        outcome =>
      refine .interrupted l signal done rest ⟨position.split, position.settled, position.rows,
        position.active, position.begun, position.symbol⟩ rfl ⟨signalEq, signalId, ?_⟩ anchor
        fun _ => outcome
      simp [Tracker.disconnect, signalEq]
    | interrupted l signal done rest position running =>
      rw [running] at hrun
      cases hrun
    | closed l anchor rows inactive outcome idle =>
      exact .closed l anchor rows inactive outcome fun hrunning => by cases hrunning
  · exact h

theorem view_of_rows (h : s.Sound exchange symbol id created final) {l : Ledger} {anchor : Int}
    (hrows : At s.tracker.db id l anchor) {signal : TrackingSignalView}
    (hsignal : s.tracker.signal = some signal) (hid : signal.id = id) :
    l.view = withoutCheckpoint signal ∧ signal.status.isActive = true := by
  obtain ⟨row, trade, hcopy⟩ := h.tracked.synced signal hsignal
  refine ⟨hrows.view hid hcopy, ?_⟩
  rw [hcopy.status]
  exact hcopy.active

theorem tradesFrom_eq_filter {anchor : Int} (h : created ≤ anchor) :
    tradesFrom exchange anchor =
      (tradesFrom exchange created).filter fun trade => decide (anchor ≤ trade.executedAt) := by
  unfold tradesFrom
  rw [List.filter_filter]
  refine List.filter_congr fun trade _ => ?_
  by_cases hanchor : anchor ≤ trade.executedAt
  · simp [hanchor, h.trans hanchor]
  · simp [hanchor]

end Steps

end StructurePulse.Service
