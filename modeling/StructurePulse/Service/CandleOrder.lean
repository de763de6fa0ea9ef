import StructurePulse.Service.CandleRecovery
import StructurePulse.Service.Run
import StructurePulse.Signals.Levels

/-!
# Which candles may decide a signal

A recovery starts at the minute of the anchor, so its first candle can hold prices
from before the anchor or before the signal's last transition. Once a candle has
decided, every later one opens after the transition it caused. So only a candle that
reaches a level of the state the recovery starts from can decide too early.
-/

namespace StructurePulse.Service
open Signals Store Strategy Library
set_option autoImplicit false

/-- The time of the signal's last transition: its creation, entry or first target. -/
def lastTransition (signal : TrackingSignalView) : Int :=
  match signal.status with
  | .entered => signal.enteredAt.getD signal.createdAt
  | .tp1Reached => signal.tp1ReachedAt.getD signal.createdAt
  | _ => signal.createdAt

/-- A candle that decides opened no earlier than the anchor and the last transition. -/
def Current (call : EvaluatorCall) : Prop :=
  match call.event with
  | .trade _ => True
  | .candle candle => evaluateClosedCandle (lifecycleState call.signal) candle ≠ [] →
      call.anchor ≤ candle.openTime ∧ lastTransition call.signal ≤ candle.openTime

instance : ∀ call : EvaluatorCall, Decidable (Current call)
  | ⟨_, _, .trade _⟩ => isTrue trivial
  | ⟨_, _, .candle _⟩ => inferInstanceAs (Decidable (_ → _))

def opensBefore (anchor : Int) (signal : TrackingSignalView) (candle : Candle1m) : Bool :=
  decide (candle.openTime < anchor) || decide (candle.openTime < lastTransition signal)

/-- If the coverage fails and candles take over, those that open before the anchor or
the last transition reach no live level of the signal. -/
def HarmlessCoverage (t : Tracker) (input : CoverageInput) : Prop :=
  ∀ signal ∈ t.signal, ∀ anchor ∈ t.coveragePending,
    (mergeTradeCoverage input.rest (bufferedTrades input.buffer anchor) anchor).proven = false →
    ∀ candle ∈ recoveryCandles input.data signal.symbol anchor input.now,
      opensBefore anchor signal candle = true → candleReaches (lifecycleState signal) candle = false

instance (t : Tracker) (input : CoverageInput) : Decidable (HarmlessCoverage t input) :=
  inferInstanceAs (Decidable (∀ signal ∈ t.signal, ∀ anchor ∈ t.coveragePending, _ → _))

/-- The condition on the state before a step; only a step that can start a recovery
has one. -/
def Harmless (s : LifecycleService) : ServiceStep → Prop
  | .event (.ready symbol input) life => HarmlessCoverage (s.tracker symbol life) input
  | .event (.reconcile symbol _ input) life =>
    let t := (s.tracker symbol life).reload symbol
    t.subscribed = true → t.streamReady = true → HarmlessCoverage t input
  | _ => True

instance (s : LifecycleService) : ∀ step : ServiceStep, Decidable (Harmless s step)
  | .event (.ready _ _) _ => inferInstanceAs (Decidable (HarmlessCoverage _ _))
  | .event (.reconcile _ _ _) _ => inferInstanceAs (Decidable (_ → _ → HarmlessCoverage _ _))
  | .event (.trade _ _) _ => isTrue trivial
  | .event (.disconnected _) _ => isTrue trivial
  | .publish _ _ _ => isTrue trivial
  | .killed => isTrue trivial

def HarmlessRun : LifecycleService → List ServiceStep → Prop
  | _, [] => True
  | s, step :: steps => Harmless s step ∧ HarmlessRun (s.step step) steps

instance decidableHarmlessRun : ∀ (s : LifecycleService) (steps : List ServiceStep),
    Decidable (HarmlessRun s steps)
  | _, [] => isTrue trivial
  | s, step :: steps =>
    @instDecidableAnd _ _ inferInstance (decidableHarmlessRun (s.step step) steps)

section Candles
variable {others : Symbol → Memory} {symbol : Symbol} {t : Tracker}
variable {signal : TrackingSignalView} {candle : Candle1m} {reason : CoverageFailure}

theorem lastTransition_moved {request : TransitionRequest}
    (h : request.target = .entered ∨ request.target = .tp1Reached) :
    lastTransition (moved signal request) = request.eventTime := by
  rcases h with h | h <;> simp [lastTransition, moved, h]

/-- What one candle decides happens when it closes. -/
theorem applyActions_last (h : Tracked Current others symbol t) (hsignal : t.signal = some signal)
    {actions : List (LifecycleAction × Nat)}
    (hpath : LegalPath signal.status (actions.map Prod.fst)) (hstatus : signal.status ≠ .preparing)
    (hlast : actions = [] → lastTransition signal ≤ candle.openTime + oneMinute) :
    Ends (fun t' => Tracked Current others symbol t' ∧ ∀ signal', t'.signal = some signal' →
      lastTransition signal' ≤ candle.openTime + oneMinute) (Left Current)
      (t.applyActions (candleContext candle reason) actions) := by
  induction actions generalizing t signal with
  | nil =>
    refine ⟨h, fun signal' hsignal' => ?_⟩
    rw [hsignal, Option.some.injEq] at hsignal'
    rw [← hsignal']
    exact hlast rfl
  | cons head actions ih =>
    obtain ⟨action, index⟩ := head
    obtain ⟨hlegal, hrest⟩ := hpath
    unfold Tracker.applyActions
    rw [hsignal]
    simp only
    refine Ends.bind (h.applied hsignal ?_ ?_ ?_) ?_
    · simp
    · simpa using hlegal
    · simpa using names_candle
    · rintro t' ⟨htracked, hsettled⟩
      unfold settled at hsettled
      split_ifs at hsettled with hterminal
      · -- the signal is closed and the loop ends
        have hdone : t'.applyActions (candleContext candle reason) actions = .ok t' := by
          cases actions with
          | nil => rfl
          | cons next actions => simp [Tracker.applyActions, hsettled]
        rw [hdone]
        refine ⟨htracked, fun signal' hsignal' => ?_⟩
        rw [hsettled] at hsignal'
        cases hsignal'
      · simp only [actionRequest_target] at hterminal
        have htarget := open_target_of_transition hlegal hstatus (Bool.eq_false_iff.mpr hterminal)
        refine ih htracked hsettled ?_ ?_ fun _ => ?_
        · simpa using hrest
        · rw [moved_status, actionRequest_target]
          rcases htarget with htarget | htarget <;> rw [htarget] <;> decide
        · rw [lastTransition_moved (by simpa using htarget)]
          simp [candleContext]

/-- The candle loop from a state in which the old candles of the window are harmless. -/
theorem applyCandles_current {anchor : Int} {candles : List Candle1m}
    (h : Tracked Current others symbol t) (hsignal : t.signal = some signal)
    (hsorted : candles.Pairwise fun a b => a.openTime + oneMinute ≤ b.openTime)
    (hharmless : ∀ candle ∈ candles, opensBefore anchor signal candle = true →
      candleReaches (lifecycleState signal) candle = false) :
    Ends (Tracked Current others symbol) (Left Current) (t.applyCandles anchor reason candles) := by
  induction candles generalizing t signal with
  | nil => exact h
  | cons candle candles ih =>
    obtain ⟨hfirst, hsorted⟩ := List.pairwise_cons.mp hsorted
    unfold Tracker.applyCandles
    rw [hsignal]
    simp only
    rcases hactions : evaluateClosedCandle (lifecycleState signal) candle with _ | ⟨action, actions⟩
    · -- nothing decided: the same state meets the next candle
      have hcall : Current ⟨signal, anchor, .candle candle⟩ := fun hne => absurd hactions hne
      simp only [List.zipIdx_nil, Tracker.applyActions]
      refine Ends.bind (P := fun t' => Tracked Current others symbol t' ∧ t'.signal = some signal)
        ⟨h.called hcall, hsignal⟩ ?_
      rintro t' ⟨htracked, hsame⟩
      rw [hsame]
      exact ih htracked hsame hsorted fun next hnext => hharmless next (List.mem_cons_of_mem _ hnext)
    · -- a decision: the candle is not an old one, and neither is any later one
      have hne : evaluateClosedCandle (lifecycleState signal) candle ≠ [] := by
        rw [hactions]
        exact List.cons_ne_nil _ _
      have hnew : opensBefore anchor signal candle = false := by
        by_contra hold
        exact hne (evaluateClosedCandle_eq_nil
          (hharmless candle List.mem_cons_self (Bool.not_eq_false _ ▸ hold)))
      simp only [opensBefore, Bool.or_eq_false_iff, decide_eq_false_iff_not, not_lt] at hnew
      have hcall : Current ⟨signal, anchor, .candle candle⟩ := fun _ => hnew
      have hpath := evaluateClosedCandle_legal (lifecycleState signal) candle
      have hstatus : signal.status ≠ .preparing := by
        intro hpreparing
        refine hne (evaluateClosedCandle_of_not_open candle ?_ ?_ ?_) <;>
          simp [lifecycleState, hpreparing]
      rw [hactions] at hpath
      refine Ends.bind (applyActions_last (h.called hcall) hsignal ?_ hstatus ?_) ?_
      · simpa using hpath
      · intro hnil
        simp at hnil
      · rintro t' ⟨htracked, hlast⟩
        split
        · exact htracked.covered
        · rename_i signal' hsignal'
          refine ih htracked hsignal' hsorted fun next hnext hold => ?_
          have hlater := hfirst next hnext
          have hlast := hlast signal' hsignal'
          have hpos := oneMinute_pos
          simp only [opensBefore, Bool.or_eq_true, decide_eq_true_eq] at hold
          omega

end Candles

section Runs
variable {s : LifecycleService}

theorem recoveryCandles_pairwise (data : MarketData) (symbol : Symbol) (anchor now : Int) :
    (recoveryCandles data symbol anchor now).Pairwise fun a b =>
      a.openTime + oneMinute ≤ b.openTime := by
  rcases loadReconciled1mWindow_spec data symbol (startOpenTime anchor) (endOpenTime now) with
    hnone | hopens
  · rw [recoveryCandles, hnone]
    exact List.Pairwise.nil
  · have hminutes := requestedMinutes_pairwise (startOpenTime anchor) (endOpenTime now)
    rw [← hopens] at hminutes
    exact List.pairwise_map.mp hminutes

theorem candlesKeep_current {t : Tracker} {input : CoverageInput} (h : HarmlessCoverage t input) :
    CandlesKeep Current t input :=
  fun _ _ signal anchor _ htracked hsignal hanchor hunproven =>
    applyCandles_current htracked hsignal (recoveryCandles_pairwise _ _ _ _)
      (h signal hsignal anchor hanchor hunproven)

theorem stepKeeps_current {step : ServiceStep} (h : Harmless s step) : StepKeeps Current s step := by
  cases step with
  | event event life =>
    cases event with
    | trade trade due => trivial
    | disconnected symbol => trivial
    | ready symbol input => exact candlesKeep_current h
    | reconcile symbol now input =>
      exact fun hsubscribed hlive => candlesKeep_current (h hsubscribed hlive)
  | publish candidates config publicationTime => trivial
  | killed => trivial

theorem Intact.run_current (h : Intact Current s) (steps : List ServiceStep)
    (hharmless : HarmlessRun s steps) : Intact Current (s.run steps) := by
  induction steps generalizing s with
  | nil => exact h
  | cons step steps ih =>
    exact ih (h.step (fun _ _ _ => trivial) (stepKeeps_current hharmless.1)) hharmless.2

/-- In every run of the service whose recoveries are harmless, each candle that
produced an action had opened no earlier than the coverage anchor and the signal's
last transition. -/
theorem fallback_decides_by_current_candles (instruments : List InstrumentRecord)
    (snapshots : List AnalysisSnapshotRecord) (candidates : List SignalCandidateRecord)
    (steps : List ServiceStep)
    (hharmless : HarmlessRun (LifecycleService.initial instruments snapshots candidates) steps) :
    ∀ call ∈ ((LifecycleService.initial instruments snapshots candidates).run steps).calls,
      Current call :=
  ((Intact.initial instruments snapshots candidates).run_current steps hharmless).calls

end Runs

section Reentry

/-- Minute 1 with the given range and a quiet minute 2, confirmed. -/
def minutesAroundEntry (low high : ℚ) : MarketData where
  checkpoints := [⟨"BTCUSDT", "kline_1m", .ready, some (minutes 2)⟩]
  candles := [(1, low, high), (2, 101, 102)].map fun (minute, low, high) =>
    { symbol := "BTCUSDT"
      openTime := minutes minute
      openPrice := high
      highPrice := high
      lowPrice := low
      closePrice := low
      volume := 1
      turnover := 1 }

/-- A signal is published, covered and, at 1:20, entered; then the connection is lost
and at 3:30 the coverage cannot be proven. -/
def entryThenReconnect (data : MarketData) : List ServiceStep :=
  let quiet := tradeAtSecond "a" 0 110
  let overlap := tradeAtSecond "b" 10 110
  let input : CoverageInput := ⟨[quiet, overlap], [overlap], 10 * 1000000, data, []⟩
  [.publish [(candidateRecord 1 1 sampleCandidate, sampleCandidate)] .standard 0,
    .event (.reconcile "BTCUSDT" 0 input) 100,
    .event (.ready "BTCUSDT" input) 100,
    .event (.trade (tradeAtSecond "c" 70 104) false) 100,
    .event (.trade (tradeAtSecond "d" 80 100) true) 100,
    .event (.disconnected "BTCUSDT") 100,
    .event (.ready "BTCUSDT" ⟨[], [], 210 * 1000000, data, []⟩) 100]

def sampleService : LifecycleService :=
  LifecycleService.initial [⟨"BTCUSDT", 480⟩] [] [candidateRecord 1 1 sampleCandidate]

/-- The candle of minute 1 reaches the first target at 1:10 and the entry at 1:20. The
recovery shows it to the entered signal and the target is booked. -/
theorem fallback_credits_target_before_entry :
    ∃ call ∈ (sampleService.run (entryThenReconnect (minutesAroundEntry 100 104))).calls,
      ¬ Current call := by
  decide +kernel

theorem fallback_decides_sample :
    HarmlessRun sampleService (entryThenReconnect (minutesAroundEntry 100 101)) ∧
      ∀ call ∈ (sampleService.run (entryThenReconnect (minutesAroundEntry 100 101))).calls,
        Current call := by
  have hharmless : HarmlessRun sampleService (entryThenReconnect (minutesAroundEntry 100 101)) := by
    decide +kernel
  exact ⟨hharmless, fallback_decides_by_current_candles _ _ _ _ hharmless⟩

end Reentry

end StructurePulse.Service
