import StructurePulse.Service.Run

/-!
# What every commit of the service keeps

A property of the tables and the evaluator calls holds after every run when each kind of
commit keeps it: an action that an evaluator returned, the activation, expiry or failed
coverage of a waiting signal, a checkpoint, a note and a publication.
-/

namespace StructurePulse.Service
open Signals Store Strategy Library
set_option autoImplicit false

/-- The actions that a call of an evaluator returned. -/
def EvaluatorCall.actions (call : EvaluatorCall) : List LifecycleAction :=
  evaluateEvent (lifecycleState call.signal) call.event

/-- The actions of a call that are left when the earlier ones have moved its signal. -/
def Remaining (call : EvaluatorCall) (signal : TrackingSignalView) (rest : List LifecycleAction) :
    Prop :=
  ∃ earlier, call.actions = earlier ++ rest ∧
    lifecycleState signal = Signals.applyActions (lifecycleState call.signal) call.event.time earlier

section Remaining
variable {call : EvaluatorCall} {signal : TrackingSignalView} {action : LifecycleAction}
variable {rest : List LifecycleAction}

theorem applyActions_signalId (state : LifecycleState) (eventTime : Int)
    (actions : List LifecycleAction) :
    (Signals.applyActions state eventTime actions).signalId = state.signalId := by
  induction actions generalizing state with
  | nil => rfl
  | cons action actions ih => exact ih (state.advance eventTime action)

theorem Remaining.signalId (h : Remaining call signal rest) : call.signal.id = signal.id := by
  obtain ⟨earlier, -, hstate⟩ := h
  have hid := applyActions_signalId (lifecycleState call.signal) call.event.time earlier
  rw [← hstate] at hid
  exact hid.symm

theorem Remaining.mem (h : Remaining call signal (action :: rest)) : action ∈ call.actions := by
  obtain ⟨earlier, hactions, -⟩ := h
  rw [hactions]
  exact List.mem_append_right _ List.mem_cons_self

theorem lifecycleState_moved (signal : TrackingSignalView) (action : LifecycleAction)
    (context : EventContext) : lifecycleState (moved signal (actionRequest signal action context)) =
      (lifecycleState signal).advance context.eventTime action := by
  obtain ⟨_, _, _, h⟩ := actionRequest_cases signal action context
  rw [h]
  rfl

theorem Remaining.next (h : Remaining call signal (action :: rest)) {context : EventContext}
    (htime : context.eventTime = call.event.time) :
    Remaining call (moved signal (actionRequest signal action context)) rest := by
  obtain ⟨earlier, hactions, hstate⟩ := h
  refine ⟨earlier ++ [action], by simpa using hactions, ?_⟩
  rw [lifecycleState_moved, htime, hstate, Signals.applyActions, Signals.applyActions,
    List.foldl_append]
  rfl

end Remaining

/-- The targets of the transitions that no evaluator asks for. -/
def openingTargets : List SignalStatus := [.active, .expired, .coverageFailed]

/-- Every kind of commit keeps the property. -/
structure Kept (P : Database → List EvaluatorCall → Prop) : Prop where
  called : ∀ {db calls} (call : EvaluatorCall), P db calls → P db (calls ++ [call])
  action : ∀ {db next calls symbol signal call action rest context row trade tradeStatus outbox},
    P db calls → call ∈ calls → Remaining call signal (action :: rest) →
    context.eventTime = call.event.time → RowsOf db symbol signal row trade →
    Transitioned db next (actionRequest signal action context) row trade tradeStatus outbox →
    P next calls
  opening : ∀ {db next calls request row trade tradeStatus outbox},
    P db calls → request.target ∈ openingTargets →
    Transitioned db next request row trade tradeStatus outbox → P next calls
  checkpointed : ∀ {db next calls signalId tradeId executedAt sequence},
    P db calls → checkpointTrade db signalId tradeId executedAt sequence = .ok next → P next calls
  recorded : ∀ {db next calls request added},
    P db calls → recordTrackingEvent db request = .ok (next, added) → P next calls
  published : ∀ {state next : Publishing} {calls config publicationTime pair},
    P state.db calls → Sound state.db → publishOne config publicationTime state pair = .ok next →
    P next.db calls

variable {P : Database → List EvaluatorCall → Prop} {others : Symbol → Memory} {symbol : Symbol}
variable {t : Tracker} {signal : TrackingSignalView}

/-- A tracker at work, with the property. -/
structure Held (P : Database → List EvaluatorCall → Prop) (others : Symbol → Memory)
    (symbol : Symbol) (t : Tracker) : Prop where
  tracked : Tracked AnyCall others symbol t
  holds : P t.db t.calls

/-- What a service that has ended leaves behind has the property. -/
def Gone (P : Database → List EvaluatorCall → Prop) (left : Stopped) : Prop := P left.db left.calls

section Leaves

theorem Held.transition (h : Held P others symbol t) (hsignal : t.signal = some signal)
    {request : TransitionRequest} (hid : request.signalId = signal.id)
    (hkey : WellKeyed request.idempotencyKey request.signalId request.target)
    (hstep : ∀ next row trade tradeStatus outbox, RowsOf t.db symbol signal row trade →
      Transitioned t.db next request row trade tradeStatus outbox → P next t.calls) :
    Ends (Held P others symbol) (Gone P) (t.transition signal request) := by
  have hends := h.tracked.transition hsignal hid hkey
  cases hresult : t.transition signal request with
  | error left =>
    obtain ⟨hdb, hcalls⟩ := transition_error hresult
    change P left.db left.calls
    rw [hdb, hcalls]
    exact h.holds
  | ok t' =>
    refine ⟨hends.of_ok hresult, ?_⟩
    obtain ⟨db, life, result, happly, -, rfl⟩ := transition_ok hresult
    rw [settle_db, settle_calls]
    rcases applyTransition_ok happly with ⟨hsame, -, -⟩ | ⟨-, row, trade, tradeStatus, outbox, ht⟩
    · rw [show db = t.db from hsame]
      exact h.holds
    · obtain ⟨row', trade', hrows⟩ := h.tracked.synced signal hsignal
      cases ht.signalRow.symm.trans (hid ▸ hrows.signalRow)
      cases ht.tradeRow.symm.trans (hid ▸ hrows.tradeRow)
      exact hstep db row trade tradeStatus outbox hrows ht

theorem Held.checkpoint (hkept : Kept P) (h : Held P others symbol t)
    (hsignal : t.signal = some signal) (trade : PublicTrade) :
    Ends (Held P others symbol) (Gone P) (t.checkpoint signal trade) := by
  have hends := h.tracked.checkpoint hsignal trade
  cases hresult : t.checkpoint signal trade with
  | error left =>
    obtain ⟨hdb, hcalls⟩ := checkpoint_error hresult
    change P left.db left.calls
    rw [hdb, hcalls]
    exact h.holds
  | ok t' =>
    refine ⟨hends.of_ok hresult, ?_⟩
    obtain ⟨db, life, hdb, -, rfl⟩ := checkpoint_ok hresult
    exact hkept.checkpointed h.holds hdb

theorem Held.called (hkept : Kept P) (h : Held P others symbol t) (signal : TrackingSignalView)
    (anchor : Int) (event : MarketEvent) : Held P others symbol (t.called signal anchor event) :=
  ⟨h.tracked.called trivial, hkept.called _ h.holds⟩

theorem Held.withMemory (h : Held P others symbol t) {t' : Tracker} (hdb : t'.db = t.db)
    (hsignal : t'.signal = t.signal) (hcalls : t'.calls = t.calls) : Held P others symbol t' := by
  refine ⟨h.tracked.withMemory hdb hsignal hcalls, ?_⟩
  rw [hdb, hcalls]
  exact h.holds

/-- A transition that no evaluator asked for. -/
theorem Held.opened (hkept : Kept P) (h : Held P others symbol t) (hsignal : t.signal = some signal)
    {request : TransitionRequest} (hid : request.signalId = signal.id)
    (hkey : WellKeyed request.idempotencyKey request.signalId request.target)
    (htarget : request.target ∈ openingTargets) :
    Ends (Held P others symbol) (Gone P) (t.transition signal request) :=
  h.transition hsignal hid hkey fun _ _ _ _ _ _ ht => hkept.opening h.holds htarget ht

end Leaves

section Evaluation
variable {context : TrackingSignalView → LifecycleAction → Nat → EventContext}

/-- The actions of one call, in the order the evaluator returned them. -/
theorem Held.applyActions (hkept : Kept P) (h : Held P others symbol t)
    (hnames : ∀ signal action index,
      Names (context signal action index).idempotencyKey signal.id action.target)
    {call : EvaluatorCall} (hcall : call ∈ t.calls)
    (htime : ∀ signal action index, (context signal action index).eventTime = call.event.time)
    (actions : List (LifecycleAction × Nat))
    (hsignal : ∀ signal, t.signal = some signal → Remaining call signal (actions.map Prod.fst) ∧
      LegalPath signal.status (actions.map Prod.fst)) :
    Ends (Held P others symbol) (Gone P) (t.applyActions context actions) := by
  induction actions generalizing t with
  | nil => exact h
  | cons head actions ih =>
    unfold Tracker.applyActions
    split
    · exact h
    · rename_i signal hsome
      obtain ⟨hremaining, hlegal, hrest⟩ := hsignal signal hsome
      have happlied : Ends (fun t' => Tracked AnyCall others symbol t' ∧ t'.signal =
            settled signal (actionRequest signal head.1 (context signal head.1 head.2)))
          (Left AnyCall)
          (t.transition signal (actionRequest signal head.1 (context signal head.1 head.2))) :=
        h.tracked.applied hsome (by simp) (by simpa using hlegal)
          (by simpa using hnames signal head.1 head.2)
      have hheld : Ends (Held P others symbol) (Gone P)
          (t.transition signal (actionRequest signal head.1 (context signal head.1 head.2))) :=
        h.transition hsome (by simp) (by simpa using (hnames signal head.1 head.2).wellKeyed)
          fun _ _ _ _ _ hrows ht =>
            hkept.action h.holds hcall hremaining (htime _ _ _) hrows ht
      cases hresult : t.transition signal
          (actionRequest signal head.1 (context signal head.1 head.2)) with
      | error left => exact hheld.of_error hresult
      | ok t' =>
        have hsettled := (happlied.of_ok hresult).2
        refine ih (hheld.of_ok hresult) (transition_calls hresult ▸ hcall) ?_
        intro signal' hsignal'
        rw [hsettled, settled] at hsignal'
        split_ifs at hsignal'
        cases hsignal'
        refine ⟨hremaining.next (htime _ _ _), ?_⟩
        rw [moved_status, actionRequest_target]
        exact hrest

theorem Held.processTrade (hkept : Kept P) (h : Held P others symbol t) (trade : PublicTrade)
    (due : Bool) : Ends (Held P others symbol) (Gone P) (t.processTrade trade due) := by
  unfold Tracker.processTrade
  split
  · exact h
  · rename_i signal hsignal
    have hpath := evaluatePublicTrade_legal (lifecycleState signal) trade
    refine Ends.bind ((h.called hkept signal signal.coverageAnchor (.trade trade)).applyActions hkept
      (fun _ _ _ => names_trade) (List.mem_append_right _ (List.mem_singleton_self _))
      (fun _ _ _ => rfl) _ ?_) fun t' ht' => ?_
    · intro signal' hsignal'
      cases hsignal.symm.trans hsignal'
      rw [List.zipIdx_map_fst]
      exact ⟨⟨[], rfl, rfl⟩, hpath⟩
    · split
      · exact ht'
      · rename_i signal' hsignal'
        split_ifs
        · exact ht'.checkpoint hkept hsignal' trade
        · exact ht'

theorem Held.replay (hkept : Kept P) (h : Held P others symbol t) (trades : List PublicTrade) :
    Ends (Held P others symbol) (Gone P) (t.replay trades) := by
  induction trades generalizing t with
  | nil => exact h
  | cons trade trades ih =>
    unfold Tracker.replay
    split
    · exact h
    · exact Ends.bind (h.processTrade hkept trade false) fun t' ht' => ih ht'

theorem Held.replayAndCheckpoint (hkept : Kept P) (h : Held P others symbol t)
    (trades : List PublicTrade) :
    Ends (Held P others symbol) (Gone P) (t.replayAndCheckpoint trades) := by
  refine Ends.bind (h.replay hkept trades) fun t' ht' => ?_
  split
  · rename_i hsignal
    exact ht'.checkpoint hkept hsignal _
  · exact ht'

theorem Held.applyCandles (hkept : Kept P) (h : Held P others symbol t) (anchor : Int)
    (reason : CoverageFailure) (candles : List Candle1m) :
    Ends (Held P others symbol) (Gone P) (t.applyCandles anchor reason candles) := by
  induction candles generalizing t with
  | nil => exact h
  | cons candle candles ih =>
    unfold Tracker.applyCandles
    split
    · exact h.withMemory rfl rfl rfl
    · rename_i current hcurrent
      have hpath := evaluateClosedCandle_legal (lifecycleState current) candle
      refine Ends.bind ((h.called hkept current anchor (.candle candle)).applyActions hkept
        (fun _ _ _ => names_candle) (List.mem_append_right _ (List.mem_singleton_self _))
      (fun _ _ _ => rfl) _ ?_) fun t' ht' => ?_
      · intro signal' hsignal'
        cases hcurrent.symm.trans hsignal'
        rw [List.zipIdx_map_fst]
        exact ⟨⟨[], rfl, rfl⟩, hpath⟩
      · split
        · exact ht'.withMemory rfl rfl rfl
        · exact ih ht'

end Evaluation

section Coverage

theorem Held.activate (hkept : Kept P) (h : Held P others symbol t) (hsignal : t.signal = some signal)
    (anchor : Int) (tradeCount : Nat) :
    Ends (Held P others symbol) (Gone P) (t.activate signal anchor tradeCount) := by
  refine Ends.map (P := Held P others symbol) ?_ fun _ hmoved => hmoved.withMemory rfl rfl rfl
  split_ifs
  · exact h.opened hkept hsignal rfl (wellKeyed_of_first (coverageKey_first _ _)
      (show 0 < SignalStatus.active.rank by decide)) (by simp [openingTargets, activationRequest])
  · exact h

theorem Held.failCoverage (hkept : Kept P) (h : Held P others symbol t)
    (hsignal : t.signal = some signal) (anchor now : Int) (reason : Option CoverageFailure) :
    Ends (Held P others symbol) (Gone P) (t.failCoverage signal anchor now reason) :=
  (h.opened hkept hsignal rfl (wellKeyed_of_first (coverageKey_first _ _)
    (show 0 < SignalStatus.coverageFailed.rank by decide))
    (by simp [openingTargets, coverageFailedRequest])).map
    fun _ hmoved => hmoved.withMemory rfl rfl rfl

theorem Held.recorded (hkept : Kept P) (h : Held P others symbol t) (signal : TrackingSignalView)
    (anchor now : Int) (reason : CoverageFailure) (candleCount : Nat) :
    Ends (fun pair : Tracker × Bool => Held P others symbol pair.1) (Gone P)
      (t.commit (recordTrackingEvent · (recoveredRequest signal anchor now reason candleCount))) := by
  have hends := h.tracked.recorded signal anchor now reason candleCount
  cases hresult : t.commit
      (recordTrackingEvent · (recoveredRequest signal anchor now reason candleCount)) with
  | error left =>
    obtain ⟨hdb, hcalls⟩ := commit_error hresult
    change P left.db left.calls
    rw [hdb, hcalls]
    exact h.holds
  | ok pair =>
    refine ⟨hends.of_ok hresult, ?_⟩
    obtain ⟨db, life, hnote, -, heq⟩ := commit_ok hresult
    rw [heq]
    exact hkept.recorded h.holds hnote

theorem Held.acceptCoverage (hkept : Kept P) (h : Held P others symbol t)
    (hsignal : t.signal = some signal) (anchor : Int) (trades : List PublicTrade) :
    Ends (Held P others symbol) (Gone P) (t.acceptCoverage signal anchor trades) :=
  Ends.bind (h.activate hkept hsignal anchor _) fun _ hactivated =>
    hactivated.replayAndCheckpoint hkept trades

theorem Held.recoverWithCandles (hkept : Kept P) (h : Held P others symbol t)
    (signal : TrackingSignalView) (anchor now : Int) (reason : CoverageFailure)
    (candles : List Candle1m) (buffer : List PublicTrade) :
    Ends (fun pair : Tracker × Bool => Held P others symbol pair.1) (Gone P)
      (t.recoverWithCandles signal anchor reason now candles buffer) := by
  unfold Tracker.recoverWithCandles
  split_ifs
  · exact h
  · exact h
  · refine Ends.bind (h.applyCandles hkept anchor reason candles) fun t' ht' => ?_
    split
    · exact ht'
    · have hcovered : Held P others symbol t'.covered := ht'.withMemory rfl rfl rfl
      exact Ends.bind (hcovered.recorded hkept signal anchor now reason candles.length)
        fun pair hpair => Ends.bind (hpair.replayAndCheckpoint hkept _) fun last hlast => hlast

theorem Held.establishCoverage (hkept : Kept P) (h : Held P others symbol t)
    (input : CoverageInput) :
    Ends (Held P others symbol) (Gone P) (t.establishCoverage input) := by
  unfold Tracker.establishCoverage
  split
  · rename_i signal anchor hsignal hanchor
    simp only
    split_ifs
    · exact h.acceptCoverage hkept hsignal anchor _
    · exact h.failCoverage hkept hsignal anchor input.now _
    · exact (h.recoverWithCandles hkept signal anchor input.now _ _ input.laterBuffer).map
        fun pair hpair => hpair
  · exact h

theorem Held.reload (h : Held P others symbol t) : Held P others symbol (t.reload symbol) := by
  refine ⟨h.tracked.reload, ?_⟩
  unfold Tracker.reload
  split
  · exact h.holds
  · split_ifs
    · exact h.holds
    · exact h.holds

theorem Held.reconcile (hkept : Kept P) (h : Held P others symbol t) (now : Int)
    (input : CoverageInput) :
    Ends (Held P others symbol) (Gone P) (t.reconcile symbol now input) := by
  have hreload := h.reload
  have hexpired : ∀ signal, (t.reload symbol).signal = some signal →
      Ends (Held P others symbol) (Gone P)
        ((t.reload symbol).transition signal (expiredRequest signal)) := fun signal hsignal =>
    hreload.opened hkept hsignal rfl (wellKeyed_of_first (expiredKey_first signal)
      (show 0 < SignalStatus.expired.rank by decide)) (by simp [openingTargets, expiredRequest])
  unfold Tracker.reconcile
  simp only
  split
  · exact hreload
  · rename_i signal hsignal
    split_ifs
    · exact hexpired signal hsignal
    · exact hexpired signal hsignal
    · exact hreload.withMemory rfl rfl rfl
    · exact hreload.establishCoverage hkept input
    · exact hreload

theorem Held.handle (hkept : Kept P) {event : ServiceEvent} (h : Held P others event.symbol t) :
    Ends (Held P others event.symbol) (Gone P) (t.handle event) := by
  cases event with
  | trade trade due =>
    unfold Tracker.handle
    split_ifs
    · exact h
    · exact h.processTrade hkept trade due
  | disconnected symbol => exact h.withMemory rfl rfl rfl
  | ready symbol input =>
    have hlive : Held P others symbol { t with streamReady := true } := h.withMemory rfl rfl rfl
    exact hlive.establishCoverage hkept input
  | reconcile symbol now input => exact h.reconcile hkept now input

end Coverage

section Runs
variable {s : LifecycleService}

theorem Kept.publish (hkept : Kept P) (hs : Intact AnyCall s) (h : P s.db s.calls)
    (candidates : List (SignalCandidateRecord × SignalCandidate)) (config : SignalPolicyConfig)
    (publicationTime : Int) :
    P (s.step (.publish candidates config publicationTime)).db s.calls := by
  refine transact_invariant (P := fun db => P db s.calls) h fun db hdb => ?_
  obtain ⟨result, hdb⟩ := map_fst_ok hdb
  unfold publishCandidates at hdb
  split_ifs at hdb
  · cases hdb
    exact h
  · obtain ⟨state, hloop, hdb⟩ := bind_eq_ok.mp hdb
    cases hdb
    have hboth := foldlM_invariant
      (P := fun p : Publishing => Journal p.db ∧ P p.db s.calls)
      (fun p pair _ q hp hpass =>
        ⟨hp.1.publishedOne hpass, hkept.published hp.2 hp.1.sound hpass⟩) ⟨hs.journal, h⟩ hloop
    exact hboth.2

/-- One step of the service keeps what every commit keeps. -/
theorem Kept.step (hkept : Kept P) (hs : Intact AnyCall s) (h : P s.db s.calls)
    (step : ServiceStep) : P (s.step step).db (s.step step).calls := by
  cases step with
  | event event life =>
    have hheld : Held P s.memory event.symbol (s.tracker event.symbol life) :=
      ⟨hs.tracker event.symbol life, h⟩
    have hends := hheld.handle hkept
    unfold LifecycleService.step
    simp only
    split
    · exact (hends.of_ok ‹_›).holds
    · exact hends.of_error ‹_›
  | publish candidates config publicationTime =>
    exact hkept.publish hs h candidates config publicationTime
  | killed => exact h

/-- So does every run, from a service between two events. -/
theorem Kept.run (hkept : Kept P) (hs : Intact AnyCall s) (h : P s.db s.calls)
    (steps : List ServiceStep) : P (s.run steps).db (s.run steps).calls := by
  induction steps generalizing s with
  | nil => exact h
  | cons step steps ih =>
    exact ih (hs.step (fun _ _ _ => trivial) (stepKeeps_any s step)) (hkept.step hs h step)

theorem Intact.run (hs : Intact AnyCall s) (steps : List ServiceStep) :
    Intact AnyCall (s.run steps) := by
  induction steps generalizing s with
  | nil => exact hs
  | cons step steps ih => exact ih (hs.step (fun _ _ _ => trivial) (stepKeeps_any s step))

end Runs

section Rows

/-- A property of the rows of each signal. -/
def EveryRow (R : List EvaluatorCall → SignalRecord → VirtualTradeRecord → Prop) (db : Database)
    (calls : List EvaluatorCall) : Prop :=
  ∀ id row trade, db.findSignal id = some row → db.findTrade id = some trade → R calls row trade

/-- Every kind of write to the rows of a signal keeps the property. -/
structure RowKept (R : List EvaluatorCall → SignalRecord → VirtualTradeRecord → Prop) : Prop where
  called : ∀ {calls row trade} (call : EvaluatorCall), R calls row trade →
    R (calls ++ [call]) row trade
  action : ∀ {db calls symbol signal call action rest context row trade tradeStatus},
    R calls row trade → call ∈ calls → Remaining call signal (action :: rest) →
    context.eventTime = call.event.time → RowsOf db symbol signal row trade →
    action.target ∈ signalTransitions row.status →
    R calls (row.transitioned action.target context.eventTime)
      (trade.transitioned tradeStatus action.target (actionRequest signal action context))
  opening : ∀ {calls tradeStatus} {row : SignalRecord} {trade : VirtualTradeRecord}
    {request : TransitionRequest}, request.target ∈ openingTargets →
    R calls (row.transitioned request.target request.eventTime)
      (trade.transitioned tradeStatus request.target request)
  checkpointed : ∀ {calls row trade tradeId executedAt sequence}, R calls row trade →
    R calls row { trade with
      lastTradeId := some tradeId
      lastTradeTime := some executedAt
      lastTradeSequence := some sequence }
  published : ∀ {calls row trade}, row.status ∈ [SignalStatus.preparing, .suppressed] →
    R calls row trade

variable {R : List EvaluatorCall → SignalRecord → VirtualTradeRecord → Prop}

theorem EveryRow.transitioned {db next : Database} {calls : List EvaluatorCall}
    {request : TransitionRequest} {row : SignalRecord} {trade : VirtualTradeRecord}
    {tradeStatus : VirtualTradeStatus} {outbox : List NotificationOutboxRecord}
    (h : EveryRow R db calls)
    (hrow : R calls (row.transitioned request.target request.eventTime)
      (trade.transitioned tradeStatus request.target request))
    (ht : Transitioned db next request row trade tradeStatus outbox) : EveryRow R next calls := by
  intro id row' trade' hrow' htrade'
  by_cases hid : id = request.signalId
  · subst hid
    cases hrow'.symm.trans ht.findSignal
    cases htrade'.symm.trans ht.findTrade
    exact hrow
  · rw [ht.findSignal_of_ne hid] at hrow'
    rw [ht.findTrade_of_ne hid] at htrade'
    exact h id row' trade' hrow' htrade'

theorem EveryRow.published {state next : Publishing} {calls : List EvaluatorCall}
    {config : SignalPolicyConfig} {publicationTime : Int}
    {pair : SignalCandidateRecord × SignalCandidate} (hkept : RowKept R)
    (h : EveryRow R state.db calls) (hsound : Sound state.db)
    (hpass : publishOne config publicationTime state pair = .ok next) :
    EveryRow R next.db calls := by
  obtain ⟨signal, event, trades, hp⟩ := publishOne_ok hpass
  intro id row trade hrow htrade
  rw [hp.db] at hrow htrade
  simp only [Database.findSignal, Database.findTrade, lookup_append] at hrow htrade
  cases hold : lookup SignalRecord.id state.db.signals id with
  | none =>
    rw [hold, Option.none_or] at hrow
    split_ifs at hrow
    cases hrow
    refine hkept.published ?_
    rw [hp.status]
    split_ifs <;> simp
  | some old =>
    have hbelow : id < state.db.nextSignalId := by
      rw [← lookup_key hold]
      exact hsound.signalsBelow _ (lookup_mem hold)
    rw [hold, Option.some_or, Option.some.injEq] at hrow
    subst hrow
    refine h id old trade hold ?_
    rcases hp.trade with ⟨-, rfl⟩ | ⟨-, added, rfl, hadded, -⟩
    · rwa [List.append_nil] at htrade
    · refine (lookup_append_of_ne ?_).symm.trans htrade
      rw [hadded, hp.id]
      exact (ne_of_lt hbelow).symm

/-- A property that every write to a signal's rows keeps is kept by every commit. -/
theorem RowKept.kept (hkept : RowKept R) : Kept (EveryRow R) where
  called call h id row trade hrow htrade := hkept.called call (h id row trade hrow htrade)
  action h hcall hremaining htime hrows ht := by
    refine EveryRow.transitioned h ?_ ht
    rw [actionRequest_target, actionRequest_eventTime]
    refine hkept.action (h _ _ _ hrows.signalRow hrows.tradeRow) hcall hremaining htime hrows ?_
    simpa using ht.legal
  opening h htarget ht := h.transitioned (hkept.opening htarget) ht
  checkpointed := by
    intro db next calls signalId tradeId executedAt sequence h hnext id row trade hrow htrade
    obtain ⟨old, hold, rfl | rfl⟩ := checkpointTrade_ok hnext
    · exact h id row trade hrow htrade
    · have hkey : old.signalId = signalId := lookup_key hold
      by_cases hid : id = signalId
      · subst hid
        rw [← hkey] at htrade
        cases htrade.symm.trans (@lookup_replaceRow_self _ _ _ VirtualTradeRecord.signalId db.trades
          old _ (hkey ▸ hold))
        exact hkept.checkpointed (h _ row old hrow hold)
      · refine h id row trade hrow ?_
        rw [← htrade]
        symm
        exact lookup_replaceRow_of_ne fun heq => hid (heq.symm.trans hkey)
  recorded := by
    intro db next calls request added h hnext id row trade hrow htrade
    rcases recordTrackingEvent_ok hnext with ⟨rfl, -⟩ | ⟨-, -, _, _, -, -, -, -, -, rfl⟩
    · exact h id row trade hrow htrade
    · exact h id row trade hrow htrade
  published h hsound hpass := h.published hkept hsound hpass

end Rows

end StructurePulse.Service
