import StructurePulse.Service.Sync

/-!
# Runs of the lifecycle service

A run is any list of stream events, reconciliations, publications and kills. Each
event is handled to its end or up to the transaction at which the process dies; a
process that has ended starts again with an empty memory.
-/

namespace StructurePulse.Service
open Signals Store Strategy Library
set_option autoImplicit false

/-- A stream event, or one symbol's share of a reconciliation. -/
inductive ServiceEvent where
  | trade (trade : PublicTrade) (due : Bool)
  | disconnected (symbol : Symbol)
  | ready (symbol : Symbol) (input : CoverageInput)
  | reconcile (symbol : Symbol) (now : Int) (input : CoverageInput)

def ServiceEvent.symbol : ServiceEvent → Symbol
  | .trade value _ => value.symbol
  | .disconnected symbol => symbol
  | .ready symbol _ => symbol
  | .reconcile symbol _ _ => symbol

/-- The branch of `_handle_event` for a disconnect. -/
def Tracker.disconnect (t : Tracker) : Tracker :=
  { t with
    streamReady := false
    coveragePending := match t.signal with
      | some signal => some signal.coverageAnchor
      | none => t.coveragePending }

/-- `_handle_event`, and the loop body for a timeout. -/
def Tracker.handle (t : Tracker) : ServiceEvent → Except Stopped Tracker
  | .trade trade due => if t.coveragePending.isSome then .ok t else t.processTrade trade due
  | .disconnected _ => .ok t.disconnect
  | .ready _ input => { t with streamReady := true }.establishCoverage input
  | .reconcile symbol now input => t.reconcile symbol now input

inductive ServiceStep where
  | event (event : ServiceEvent) (life : Nat)
  | publish (candidates : List (SignalCandidateRecord × SignalCandidate))
      (config : SignalPolicyConfig) (publicationTime : Int)
  | killed

structure LifecycleService where
  db : Database
  memory : Symbol → Memory := fun _ => {}
  calls : List EvaluatorCall := []

/-- The service about to handle an event of the symbol. -/
def LifecycleService.tracker (s : LifecycleService) (symbol : Symbol) (life : Nat) : Tracker :=
  { toMemory := s.memory symbol, db := s.db, life := life, calls := s.calls }

def LifecycleService.step (s : LifecycleService) : ServiceStep → LifecycleService
  | .event event life =>
    match (s.tracker event.symbol life).handle event with
    | .ok t =>
      { db := t.db
        memory := fun symbol => if symbol = event.symbol then t.toMemory else s.memory symbol
        calls := t.calls }
    | .error left => { db := left.db, calls := left.calls }
  | .publish candidates config publicationTime =>
    let publication : StoreOp := .publishCandidates candidates config publicationTime
    { s with db := transact StoreOp.exec s.db publication }
  | .killed => { db := s.db, calls := s.calls }

def LifecycleService.run (s : LifecycleService) (steps : List ServiceStep) : LifecycleService := steps.foldl LifecycleService.step s

/-- A service before its first signal. -/
def LifecycleService.initial (instruments : List InstrumentRecord) (snapshots : List AnalysisSnapshotRecord)
    (candidates : List SignalCandidateRecord) : LifecycleService where
  db := Database.initial instruments snapshots candidates

section Coverage
variable {C : EvaluatorCall → Prop} {others : Symbol → Memory} {symbol : Symbol} {t : Tracker}

/-- The candle loop of a recovery that starts here keeps the invariant. -/
def CandlesKeep (C : EvaluatorCall → Prop) (t : Tracker) (input : CoverageInput) : Prop :=
  ∀ others symbol signal anchor reason, Tracked C others symbol t → t.signal = some signal →
    t.coveragePending = some anchor →
    (mergeTradeCoverage input.rest (bufferedTrades input.buffer anchor) anchor).proven = false →
    Ends (Tracked C others symbol) (Left C) (t.applyCandles anchor reason
      (recoveryCandles input.data signal.symbol anchor input.now))

theorem Tracked.withMemory (h : Tracked C others symbol t) {t' : Tracker} (hdb : t'.db = t.db)
    (hsignal : t'.signal = t.signal) (hcalls : t'.calls = t.calls) :
    Tracked C others symbol t' := by
  refine ⟨?_, ?_, ?_, ?_⟩
  · rw [hdb]
    exact h.journal
  · rw [hdb, hsignal]
    exact h.synced
  · rw [hdb]
    exact h.others
  · rw [hcalls]
    exact h.calls

theorem Tracked.covered (h : Tracked C others symbol t) : Tracked C others symbol t.covered :=
  h.withMemory rfl rfl rfl

theorem Tracked.activate (h : Tracked C others symbol t) {signal : TrackingSignalView}
    (hsignal : t.signal = some signal) (anchor : Int) (tradeCount : Nat) :
    Ends (Tracked C others symbol) (Left C) (t.activate signal anchor tradeCount) := by
  refine Ends.map (P := Tracked C others symbol) ?_ fun _ hmoved => hmoved.covered
  split_ifs
  · exact h.transition hsignal rfl (wellKeyed_of_first (coverageKey_first _ _)
      (show 0 < SignalStatus.active.rank by decide))
  · exact h

theorem Tracked.failCoverage (h : Tracked C others symbol t) {signal : TrackingSignalView}
    (hsignal : t.signal = some signal) (anchor now : Int) (reason : Option CoverageFailure) :
    Ends (Tracked C others symbol) (Left C) (t.failCoverage signal anchor now reason) :=
  (h.transition hsignal rfl (wellKeyed_of_first (coverageKey_first _ _)
    (show 0 < SignalStatus.coverageFailed.rank by decide))).map
    fun _ hmoved => hmoved.covered

theorem Tracked.applyCandles (hC : ∀ signal anchor candle, C ⟨signal, anchor, .candle candle⟩)
    (h : Tracked C others symbol t) (anchor : Int) (reason : CoverageFailure)
    (candles : List Candle1m) :
    Ends (Tracked C others symbol) (Left C) (t.applyCandles anchor reason candles) := by
  induction candles generalizing t with
  | nil => exact h
  | cons candle candles ih =>
    unfold Tracker.applyCandles
    split
    · exact h.covered
    · rename_i current hcurrent
      refine Ends.bind ((h.called (hC current anchor candle)).applyActions
        (fun _ _ _ => names_candle.wellKeyed) _) fun t' ht' => ?_
      split
      · exact ht'.covered
      · exact ih ht'

variable (hC : ∀ signal anchor trade, C ⟨signal, anchor, .trade trade⟩)
include hC

theorem Tracked.acceptCoverage (h : Tracked C others symbol t) {signal : TrackingSignalView}
    (hsignal : t.signal = some signal) (anchor : Int) (trades : List PublicTrade) :
    Ends (Tracked C others symbol) (Left C) (t.acceptCoverage signal anchor trades) :=
  Ends.bind (h.activate hsignal anchor _) fun _ hactivated => hactivated.replayAndCheckpoint hC trades

omit hC in
/-- The note about a recovery changes no row. -/
theorem Tracked.recorded (h : Tracked C others symbol t) (signal : TrackingSignalView)
    (anchor now : Int) (reason : CoverageFailure) (candleCount : Nat) :
    Ends (fun pair : Tracker × Bool => Tracked C others symbol pair.1) (Left C)
      (t.commit (recordTrackingEvent · (recoveredRequest signal anchor now reason candleCount))) := by
  refine h.commit fun db life added hnote => ?_
  have hjournal := h.journal.tracked (neutral_recovered _ _ _ _ _) hnote
  have hrows : ∀ id, db.findSignal id = t.db.findSignal id ∧ db.findTrade id = t.db.findTrade id := by
    rcases recordTrackingEvent_ok hnote with ⟨rfl, -⟩ | ⟨-, -, _, _, -, -, -, -, -, rfl⟩ <;>
      exact fun id => ⟨rfl, rfl⟩
  exact ⟨hjournal, h.synced.frame (fun id _ _ _ => (hrows id).1) fun id _ _ _ _ _ => (hrows id).2,
    fun other hne => (h.others other hne).frame (fun id _ _ _ => (hrows id).1)
      fun id _ _ _ _ _ => (hrows id).2, h.calls⟩

theorem Tracked.recoverWithCandles (h : Tracked C others symbol t) {signal : TrackingSignalView}
    {anchor now : Int} {reason : CoverageFailure} {candles : List Candle1m}
    (hcandles : Ends (Tracked C others symbol) (Left C) (t.applyCandles anchor reason candles))
    (buffer : List PublicTrade) :
    Ends (fun pair : Tracker × Bool => Tracked C others symbol pair.1) (Left C)
      (t.recoverWithCandles signal anchor reason now candles buffer) := by
  unfold Tracker.recoverWithCandles
  split_ifs
  · exact h
  · exact h
  · refine Ends.bind hcandles fun t' ht' => ?_
    split
    · exact ht'
    · exact Ends.bind (ht'.covered.recorded signal anchor now reason candles.length)
        fun pair hpair => Ends.bind (hpair.replayAndCheckpoint hC _) fun last hlast => hlast

theorem Tracked.establishCoverage (h : Tracked C others symbol t) {input : CoverageInput}
    (hcandles : CandlesKeep C t input) :
    Ends (Tracked C others symbol) (Left C) (t.establishCoverage input) := by
  unfold Tracker.establishCoverage
  split
  · rename_i signal anchor hsignal hanchor
    simp only
    split_ifs with hproven hpreparing
    · exact h.acceptCoverage hC hsignal anchor _
    · exact h.failCoverage hsignal anchor input.now _
    · exact (h.recoverWithCandles hC (hcandles others symbol signal anchor _ h hsignal hanchor
        (Bool.eq_false_iff.mpr hproven)) input.laterBuffer).map fun pair hpair => hpair
  · exact h

omit hC in
theorem Tracked.reload (h : Tracked C others symbol t) : Tracked C others symbol (t.reload symbol) := by
  unfold Tracker.reload
  split
  · rename_i signal hlast
    have hmem := List.mem_filter.mp (List.mem_of_getLast? hlast)
    exact ⟨h.journal, synced_of_mem_list h.journal.sound hmem.1 (of_decide_eq_true hmem.2),
      h.others, h.calls⟩
  · split_ifs
    · exact ⟨h.journal, synced_none t.db symbol, h.others, h.calls⟩
    · exact h

theorem Tracked.reconcile (h : Tracked C others symbol t) {now : Int} {input : CoverageInput}
    (hcandles : (t.reload symbol).subscribed = true → (t.reload symbol).streamReady = true →
      CandlesKeep C (t.reload symbol) input) :
    Ends (Tracked C others symbol) (Left C) (t.reconcile symbol now input) := by
  have hreload := h.reload
  unfold Tracker.reconcile
  simp only
  split
  · exact hreload
  · rename_i signal hsignal
    split_ifs with hwaiting hactive hsubscribed hlive
    · exact hreload.transition hsignal rfl (wellKeyed_of_first (expiredKey_first signal)
        (show 0 < SignalStatus.expired.rank by decide))
    · exact hreload.transition hsignal rfl (wellKeyed_of_first (expiredKey_first signal)
        (show 0 < SignalStatus.expired.rank by decide))
    · exact hreload.withMemory rfl rfl rfl
    · exact hreload.establishCoverage hC (hcandles (by simpa using hsubscribed) hlive.2)
    · exact hreload

end Coverage

section Runs
variable {C : EvaluatorCall → Prop} {s : LifecycleService}

/-- The service between two events. -/
structure Intact (C : EvaluatorCall → Prop) (s : LifecycleService) : Prop where
  journal : Journal s.db
  synced : ∀ symbol, Synced s.db symbol (s.memory symbol).signal
  calls : ∀ call ∈ s.calls, C call

/-- Whatever candle loop the step runs keeps the invariant. -/
def StepKeeps (C : EvaluatorCall → Prop) (s : LifecycleService) : ServiceStep → Prop
  | .event (.ready symbol input) life =>
    CandlesKeep C { s.tracker symbol life with streamReady := true } input
  | .event (.reconcile symbol _ input) life =>
    let t := (s.tracker symbol life).reload symbol
    t.subscribed = true → t.streamReady = true → CandlesKeep C t input
  | _ => True

theorem Intact.tracker (h : Intact C s) (symbol : Symbol) (life : Nat) :
    Tracked C s.memory symbol (s.tracker symbol life) :=
  ⟨h.journal, h.synced symbol, fun other _ => h.synced other, h.calls⟩

theorem Left.intact {left : Stopped} (h : Left C left) :
    Intact C { db := left.db, calls := left.calls } :=
  ⟨h.journal, fun symbol => synced_none left.db symbol, h.calls⟩

theorem Intact.initial (instruments : List InstrumentRecord)
    (snapshots : List AnalysisSnapshotRecord) (candidates : List SignalCandidateRecord) :
    Intact C (LifecycleService.initial instruments snapshots candidates) :=
  ⟨Journal.initial instruments snapshots candidates, fun symbol => synced_none _ symbol,
    fun _ hcall => absurd hcall List.not_mem_nil⟩

theorem publishOne_keeps_rows {config : SignalPolicyConfig} {publicationTime : Int}
    {state next : Publishing} {pair : SignalCandidateRecord × SignalCandidate}
    (hpass : publishOne config publicationTime state pair = .ok next) :
    (∀ id row, state.db.findSignal id = some row → next.db.findSignal id = some row) ∧
    ∀ id trade, state.db.findTrade id = some trade → next.db.findTrade id = some trade := by
  obtain ⟨signal, event, trades, hp⟩ := publishOne_ok hpass
  rw [hp.db]
  exact ⟨fun id row hrow => lookup_append_of_some hrow,
    fun id trade htrade => lookup_append_of_some htrade⟩

/-- A publication adds rows and leaves those of the tracked signals alone. -/
theorem Intact.published (h : Intact C s)
    (candidates : List (SignalCandidateRecord × SignalCandidate)) (config : SignalPolicyConfig)
    (publicationTime : Int) : Intact C (s.step (.publish candidates config publicationTime)) := by
  refine transact_invariant (P := fun db => Intact C { s with db := db }) h fun db hdb => ?_
  obtain ⟨result, hdb⟩ := map_fst_ok hdb
  unfold publishCandidates at hdb
  split_ifs at hdb
  · cases hdb
    exact h
  · obtain ⟨state, hloop, hdb⟩ := bind_eq_ok.mp hdb
    cases hdb
    refine foldlM_invariant (P := fun p : Publishing => Intact C { s with db := p.db }) ?_ h hloop
    intro p pair _ q hp hpass
    obtain ⟨hsignals, htrades⟩ := publishOne_keeps_rows hpass
    exact ⟨hp.journal.publishedOne hpass, fun symbol => (hp.synced symbol).frame
      (fun id row hrow _ => (hsignals id row hrow).trans hrow.symm)
      (fun id row trade _ _ htrade => (htrades id trade htrade).trans htrade.symm), hp.calls⟩

variable (hC : ∀ signal anchor trade, C ⟨signal, anchor, .trade trade⟩)
include hC

theorem Tracked.handle {others : Symbol → Memory} {t : Tracker} {event : ServiceEvent}
    (h : Tracked C others event.symbol t)
    (hready : ∀ symbol input, event = .ready symbol input →
      CandlesKeep C { t with streamReady := true } input)
    (hreconcile : ∀ symbol now input, event = .reconcile symbol now input →
      (t.reload symbol).subscribed = true → (t.reload symbol).streamReady = true →
        CandlesKeep C (t.reload symbol) input) :
    Ends (Tracked C others event.symbol) (Left C) (t.handle event) := by
  cases event with
  | trade trade due =>
    unfold Tracker.handle
    split_ifs
    · exact h
    · exact h.processTrade hC trade due
  | disconnected symbol => exact h.withMemory rfl rfl rfl
  | ready symbol input =>
    have hlive : Tracked C others symbol { t with streamReady := true } := h.withMemory rfl rfl rfl
    exact hlive.establishCoverage hC (hready symbol input rfl)
  | reconcile symbol now input => exact h.reconcile hC (hreconcile symbol now input rfl)

/-- Every step keeps the service intact. -/
theorem Intact.step (h : Intact C s) {step : ServiceStep} (hkeeps : StepKeeps C s step) :
    Intact C (s.step step) := by
  cases step with
  | event event life =>
    have hends : Ends (Tracked C s.memory event.symbol) (Left C)
        ((s.tracker event.symbol life).handle event) := by
      refine (h.tracker event.symbol life).handle hC ?_ ?_
      · rintro symbol input rfl
        exact hkeeps
      · rintro symbol now input rfl
        exact hkeeps
    unfold LifecycleService.step
    simp only
    split
    · rename_i t ht
      have htracked := hends.of_ok ht
      refine ⟨htracked.journal, fun symbol => ?_, htracked.calls⟩
      by_cases hsame : symbol = event.symbol
      · simp only [hsame, if_true]
        exact htracked.synced
      · simp only [hsame, if_false]
        exact htracked.others symbol hsame
    · exact (hends.of_error ‹_›).intact
  | publish candidates config publicationTime => exact h.published candidates config publicationTime
  | killed => exact ⟨h.journal, fun symbol => synced_none s.db symbol, h.calls⟩

end Runs

section AnyRun

/-- Nothing is asked of the evaluator calls. -/
abbrev AnyCall : EvaluatorCall → Prop := fun _ => True

theorem stepKeeps_any (s : LifecycleService) (step : ServiceStep) : StepKeeps AnyCall s step := by
  have hkeep : ∀ t input, CandlesKeep AnyCall t input :=
    fun _ _ _ _ _ _ _ htracked _ _ _ => htracked.applyCandles (fun _ _ _ => trivial) _ _ _
  cases step with
  | event event life =>
    cases event with
    | trade trade due => trivial
    | disconnected symbol => trivial
    | ready symbol input => exact hkeep _ _
    | reconcile symbol now input => exact fun _ _ => hkeep _ _
  | publish candidates config publicationTime => trivial
  | killed => trivial

end AnyRun

end StructurePulse.Service
