import StructurePulse.Replay.Decimals
import StructurePulse.Store.RiskBound
import StructurePulse.Strategy.Decimals

/-!
# The offline resolver beside the live fallback

Both decide a signal from its closed minutes, one row after the other. Their states
stay coupled until a row on which they differ, so they agree on a series exactly when
it holds no such row. `Carries` is what the tracked state has from the plan.
-/

namespace StructurePulse.Replay
open Strategy Signals Store
set_option autoImplicit false

/-- The fold of the fallback, with the result booked last. -/
structure Position where
  state : LifecycleState
  pnl : ℚ := 0
  fees : ℚ := 0
  deriving DecidableEq

def Position.book (eventTime : Int) (p : Position) (action : LifecycleAction) : Position where
  state := p.state.advance eventTime action
  pnl := action.realizedPnl.getD p.pnl
  fees := action.fees.getD p.fees

def Position.step (p : Position) (candle : Candle1m) : Position :=
  (evaluateClosedCandle p.state candle).foldl (Position.book (candle.openTime + oneMinute)) p

def Position.run (p : Position) (candles : List Candle1m) : Position := candles.foldl Position.step p

def outcomeStatus : SignalStatus → ReplayOutcomeStatus
  | .expired => .expired
  | .invalidated => .invalidatedBeforeEntry
  | .stopped => .stopped
  | .stoppedAtBreakeven => .stoppedAfterTp1
  | .tp2Completed => .tp2
  | .ambiguous => .ambiguous
  | _ => .stillOpen

structure SameResolution (outcome : ReplayOutcome) (p : Position) : Prop where
  status : outcome.status = outcomeStatus p.state.status
  pnl : outcome.pnl = p.pnl
  fees : outcome.fees = p.fees
  ambiguous : outcome.ambiguous = decide (p.state.status = .ambiguous)

/-- A candle as an exchange reports it. -/
structure WellFormed (candle : Candle1m) : Prop where
  low_pos : 0 < candle.lowPrice
  low_le_open : candle.lowPrice ≤ candle.openPrice
  open_le_high : candle.openPrice ≤ candle.highPrice

/-- The tracked state has the plan's levels, and these lie as the planner puts them. -/
structure Carries (candidate : SignalCandidate) (plan : TradePlan) (state : LifecycleState) :
    Prop where
  symbol : state.symbol = candidate.symbol
  direction : state.direction = candidate.direction
  expiresAt : state.expiresAt = candidate.expiresAt
  entryLower : state.entryLower = plan.entryLower
  entryUpper : state.entryUpper = plan.entryUpper
  plannedEntry : state.plannedEntry = plan.plannedEntry
  stopLoss : state.stopLoss = plan.stopLoss
  takeProfit1 : state.takeProfit1 = plan.takeProfit1
  takeProfit2 : state.takeProfit2 = plan.takeProfit2
  quantity : state.quantity = plan.quantity
  takerFeeRate : state.takerFeeRate = feeRate plan
  entryFee : plan.estimatedEntryFee = plan.quantity * (plan.plannedEntry * feeRate plan)
  loss : (fullExit state state.stopLoss).1 = -plan.estimatedLossAtStop
  funded : Funded state
  directed : Directed state
  risk_pos : 0 < signedMove state.direction state.stopLoss state.plannedEntry
  inZone : state.entryLower ≤ state.plannedEntry ∧ state.plannedEntry ≤ state.entryUpper
  pays : 0 < signedMove state.direction (feeAdjustedBreakeven state) state.takeProfit2

section Carrying
variable {candidate : SignalCandidate} {plan : TradePlan} {s t : LifecycleState}

theorem Carries.samePlan (h : SamePlan s t) (hs : Carries candidate plan s) :
    Carries candidate plan t where
  symbol := h.symbol.trans hs.symbol
  direction := h.direction.trans hs.direction
  expiresAt := h.expiresAt.trans hs.expiresAt
  entryLower := h.entryLower.trans hs.entryLower
  entryUpper := h.entryUpper.trans hs.entryUpper
  plannedEntry := h.plannedEntry.trans hs.plannedEntry
  stopLoss := h.stopLoss.trans hs.stopLoss
  takeProfit1 := h.takeProfit1.trans hs.takeProfit1
  takeProfit2 := h.takeProfit2.trans hs.takeProfit2
  quantity := h.quantity.trans hs.quantity
  takerFeeRate := h.takerFeeRate.trans hs.takerFeeRate
  entryFee := hs.entryFee
  loss := by rw [h.fullExit_eq, h.stopLoss, hs.loss]
  funded := hs.funded.samePlan h
  directed := hs.directed.samePlan h
  risk_pos := by rw [h.direction, h.stopLoss, h.plannedEntry]; exact hs.risk_pos
  inZone := by rw [h.entryLower, h.plannedEntry, h.entryUpper]; exact hs.inZone
  pays := by rw [h.direction, h.feeAdjustedBreakeven_eq, h.takeProfit2]; exact hs.pays

theorem Carries.breakeven (h : Carries candidate plan s) :
    breakevenPrice candidate.direction plan = feeAdjustedBreakeven s := by
  unfold breakevenPrice feeAdjustedBreakeven
  rw [h.plannedEntry, h.takerFeeRate]
  cases hdirection : candidate.direction with
  | long => simp only [h.direction, hdirection]
  | short => simp only [h.direction, hdirection]

/-- The resolver's result of the two halves is the tracker's. -/
theorem Carries.tp1ThenPrice_eq (h : Carries candidate plan s) (price : ℚ) :
    tp1ThenPrice plan candidate.direction price = tp1ThenExit s price := by
  simp only [tp1ThenPrice, tp1ThenExit, h.direction, h.plannedEntry, h.takerFeeRate, h.takeProfit1,
    h.quantity, h.entryFee]
  cases candidate.direction with
  | long =>
    simp only [signedMove, if_true]
    rw [Prod.mk.injEq]
    constructor <;> ring
  | short =>
    simp only [signedMove, reduceCtorEq, if_false]
    rw [Prod.mk.injEq]
    constructor <;> ring

/-- So are the result and the fees of a stop before TP1. -/
theorem Carries.fullExit_eq (h : Carries candidate plan s) :
    fullExit s s.stopLoss = (-plan.estimatedLossAtStop,
      plan.estimatedEntryFee + plan.quantity * plan.stopLoss * feeRate plan) := by
  refine Prod.ext h.loss ?_
  simp only [fullExit, h.plannedEntry, h.takerFeeRate, h.stopLoss, h.quantity, h.entryFee]
  ring

/-- Neither target lies at or beyond the stop that is live when it is touched. -/
theorem Carries.not_beyond_stop {price : ℚ} (h : Carries candidate plan s)
    (hprice : 0 ≤ signedMove s.direction s.plannedEntry price) :
    beyondStop s.direction s.stopLoss price = false := by
  have hrisk := h.risk_pos
  cases hd : s.direction with
  | long =>
    rw [hd] at hrisk hprice
    simp only [signedMove] at hrisk hprice
    simp only [beyondStop, decide_eq_false_iff_not, not_le]
    linarith
  | short =>
    rw [hd] at hrisk hprice
    simp only [signedMove] at hrisk hprice
    simp only [beyondStop, decide_eq_false_iff_not, not_le, ge_iff_le]
    linarith

theorem Carries.not_beyond_breakeven (h : Carries candidate plan s) :
    beyondStop s.direction (feeAdjustedBreakeven s) s.takeProfit2 = false := by
  have hpays := h.pays
  cases hd : s.direction with
  | long =>
    rw [hd] at hpays
    simp only [signedMove] at hpays
    simp only [beyondStop, decide_eq_false_iff_not, not_le]
    linarith
  | short =>
    rw [hd] at hpays
    simp only [signedMove] at hpays
    simp only [beyondStop, decide_eq_false_iff_not, not_le, ge_iff_le]
    linarith

/-- Even the breakeven stop leaves more than the stop before TP1. -/
theorem Carries.loss_lt (h : Carries candidate plan s) :
    (fullExit s s.stopLoss).1 < (tp1ThenExit s (feeAdjustedBreakeven s)).1 := by
  have hstop := h.funded.halfLeg_strictMono h.risk_pos
  have htp1 := h.funded.halfLeg_mono h.directed.takeProfit1
  have hfee := h.funded.halfEntryFee_nonneg
  rw [halfLeg_entry] at hstop htp1
  rw [fullExit_eq_legs, tp1ThenExit_eq_legs, h.funded.halfLeg_breakeven]
  linarith

end Carrying

theorem touchesTp1_eq (direction : TradeDirection) (plan : TradePlan) (low high : ℚ) :
    touchesTarget direction plan.takeProfit1 low high = touchesTp1 direction plan low high := rfl

theorem touchesTp2_eq (direction : TradeDirection) (plan : TradePlan) (low high : ℚ) :
    touchesTarget direction plan.takeProfit2 low high = touchesTp2 direction plan low high := rfl

section Actions
variable {candidate : SignalCandidate} {plan : TradePlan} {state : LifecycleState}
variable {candle : Candle1m}

/-- The synthetic trade at a stop closes the position there. -/
theorem synthetic_stop (hsymbol : candle.symbol = state.symbol)
    (hstop : state.currentStop = state.stopLoss) :
    evaluatePublicTrade { state with status := .entered } (syntheticTrade candle state.stopLoss) =
      [stoppedAction state] := by
  have hplaced : evaluatePublicTrade { state with status := .entered }
      (syntheticTrade candle state.currentStop) = [stoppedAction state] :=
    evaluate_synthetic_stop hsymbol rfl
  rw [← hplaced, hstop]

/-- The fallback on a signal that waits for its entry. -/
theorem actions_active (h : Carries candidate plan state) (hsymbol : candle.symbol = state.symbol)
    (hstatus : state.status = .active) (hstop : state.currentStop = state.stopLoss) :
    evaluateClosedCandle state candle =
      if candle.openTime + oneMinute > state.expiresAt then
        [{ target := .expired, eventType := .fallbackSignalExpired }]
      else if !touchesEntry state candle then
        if touchesStop state.direction state.stopLoss candle.lowPrice candle.highPrice then
          [{ target := .invalidated, eventType := .fallbackEntryInvalidated }]
        else []
      else if touchesStop state.direction state.stopLoss candle.lowPrice candle.highPrice then
        [{ stoppedAction state with target := .ambiguous, eventType := .fallbackAmbiguousStop }]
      else [enteredAction state] := by
  have hexpiry : (candle.openTime ≥ state.expiresAt ∨ candle.openTime + oneMinute > state.expiresAt) ↔
      candle.openTime + oneMinute > state.expiresAt := by
    have := oneMinute_pos
    omega
  unfold evaluateClosedCandle
  rw [if_neg (not_not.mpr hsymbol), hstatus]
  simp only [closedCandleActive]
  rw [if_congr hexpiry rfl rfl]
  refine if_ctx_congr Iff.rfl (fun _ => rfl) fun hlive => ?_
  split_ifs with hzone htouch htouch
  · rfl
  · rfl
  · rw [synthetic_stop hsymbol hstop, markAmbiguous_singleton]
  · -- the synthetic trade at the planned entry fills it
    have hbefore : ¬ candle.openTime + oneMinute - oneMicrosecond ≥ state.expiresAt := by
      unfold oneMicrosecond
      omega
    have hinside : beyondStop state.direction state.stopLoss state.plannedEntry = false :=
      h.not_beyond_stop (by cases state.direction <;> simp [signedMove])
    unfold evaluatePublicTrade
    rw [syntheticTrade_symbol, if_neg (not_not.mpr hsymbol), hstatus]
    change evaluateActive state (syntheticTrade candle state.plannedEntry) = _
    unfold evaluateActive
    rw [syntheticTrade_executedAt, if_neg hbefore, syntheticTrade_price, hinside]
    exact if_pos h.inZone

theorem not_reached_of_touches {direction : TradeDirection} {near far low high : ℚ}
    (hnear : touchesTarget direction near low high = true)
    (hfar : touchesTarget direction far low high = false) :
    targetReached direction far near = false := by
  cases direction with
  | long =>
    simp only [touchesTarget, decide_eq_true_eq, decide_eq_false_iff_not, not_le, ge_iff_le] at hnear hfar
    simp only [targetReached, decide_eq_false_iff_not, not_le, ge_iff_le]
    linarith
  | short =>
    simp only [touchesTarget, decide_eq_true_eq, decide_eq_false_iff_not, not_le] at hnear hfar
    simp only [targetReached, decide_eq_false_iff_not, not_le]
    linarith

/-- The fallback on an entered signal. -/
theorem actions_entered (h : Carries candidate plan state) (hsymbol : candle.symbol = state.symbol)
    (hstatus : state.status = .entered) (hstop : state.currentStop = state.stopLoss) :
    evaluateClosedCandle state candle =
      if touchesStop state.direction state.stopLoss candle.lowPrice candle.highPrice then
        if touchesTarget state.direction state.takeProfit1 candle.lowPrice candle.highPrice ||
            touchesTarget state.direction state.takeProfit2 candle.lowPrice candle.highPrice then
          [{ stoppedAction state with target := .ambiguous, eventType := .fallbackAmbiguousStop }]
        else [stoppedAction state]
      else if touchesTarget state.direction state.takeProfit2 candle.lowPrice candle.highPrice then
        tp1AndTp2 state
      else if touchesTarget state.direction state.takeProfit1 candle.lowPrice candle.highPrice then
        [tp1Action state]
      else [] := by
  have hstopped : evaluatePublicTrade state (syntheticTrade candle state.stopLoss) =
      [stoppedAction state] := hstop ▸ evaluate_synthetic_stop hsymbol hstatus
  have htarget : ∀ price, 0 ≤ signedMove state.direction state.plannedEntry price →
      evaluatePublicTrade state (syntheticTrade candle price) =
        if targetReached state.direction state.takeProfit2 price then tp1AndTp2 state
        else if targetReached state.direction state.takeProfit1 price then [tp1Action state]
        else [] := by
    intro price hprice
    unfold evaluatePublicTrade
    rw [syntheticTrade_symbol, if_neg (not_not.mpr hsymbol), hstatus]
    change evaluateEntered state (syntheticTrade candle price) = _
    unfold evaluateEntered
    rw [syntheticTrade_price, hstop, h.not_beyond_stop hprice]
    rfl
  unfold evaluateClosedCandle
  rw [if_neg (not_not.mpr hsymbol), hstatus]
  simp only [closedCandleEntered, hstop, hstopped, markAmbiguous_singleton,
    htarget _ h.directed.takeProfit2, htarget _ h.directed.takeProfit1, targetReached_self, if_true]
  cases touchesStop state.direction state.stopLoss candle.lowPrice candle.highPrice with
  | true => simp
  | false =>
    cases hfar : touchesTarget state.direction state.takeProfit2 candle.lowPrice candle.highPrice with
    | true => simp
    | false =>
      cases hnear : touchesTarget state.direction state.takeProfit1 candle.lowPrice candle.highPrice with
      | true => simp [not_reached_of_touches hnear hfar]
      | false => simp

/-- The fallback on a signal that holds its second half. -/
theorem actions_tp1Reached (h : Carries candidate plan state)
    (hsymbol : candle.symbol = state.symbol) (hstatus : state.status = .tp1Reached)
    (hstop : state.currentStop = feeAdjustedBreakeven state) :
    evaluateClosedCandle state candle =
      if touchesStop state.direction state.currentStop candle.lowPrice candle.highPrice then
        if touchesTarget state.direction state.takeProfit2 candle.lowPrice candle.highPrice then
          [{ breakevenAction state with
              target := .ambiguous, eventType := .fallbackAmbiguousBreakeven }]
        else [breakevenAction state]
      else if touchesTarget state.direction state.takeProfit2 candle.lowPrice candle.highPrice then
        [tp2Action state]
      else [] := by
  have hstopped := evaluate_synthetic_breakeven hsymbol hstatus
  have htarget : evaluatePublicTrade state (syntheticTrade candle state.takeProfit2) =
      [tp2Action state] := by
    unfold evaluatePublicTrade
    rw [syntheticTrade_symbol, if_neg (not_not.mpr hsymbol), hstatus]
    change evaluateTp1Reached state (syntheticTrade candle state.takeProfit2) = _
    unfold evaluateTp1Reached
    rw [syntheticTrade_price, hstop, h.not_beyond_breakeven, targetReached_self]
    rfl
  unfold evaluateClosedCandle
  rw [if_neg (not_not.mpr hsymbol), hstatus]
  simp only [closedCandleTp1Reached, hstopped, htarget, markAmbiguous_singleton]
  cases touchesStop state.direction state.currentStop candle.lowPrice candle.highPrice <;>
    cases touchesTarget state.direction state.takeProfit2 candle.lowPrice candle.highPrice <;> simp

end Actions

section Conditions
variable (candidate : SignalCandidate) (plan : TradePlan)

/-- After TP1, no row touches both the breakeven stop and TP2, and the second half is
closed by some row unless the first half left nothing. -/
def halvedAlike : List Candle1m → Prop
  | [] => feeRate plan = 0 ∧ plan.takeProfit1 = plan.plannedEntry
  | candle :: rest =>
    if touchesStop candidate.direction (breakevenPrice candidate.direction plan) candle.lowPrice
        candle.highPrice then
      touchesTp2 candidate.direction plan candle.lowPrice candle.highPrice = false
    else
      touchesTp2 candidate.direction plan candle.lowPrice candle.highPrice = true ∨ halvedAlike rest

/-- An entered signal is closed by some row, or its entry was free. -/
def heldAlike : List Candle1m → Prop
  | [] => feeRate plan = 0
  | candle :: rest =>
    touchesStop candidate.direction plan.stopLoss candle.lowPrice candle.highPrice = true ∨
      touchesTp2 candidate.direction plan candle.lowPrice candle.highPrice = true ∨
      if touchesTp1 candidate.direction plan candle.lowPrice candle.highPrice then
        halvedAlike candidate plan rest
      else heldAlike rest

/-- Before the entry no row straddles the expiry; the row of the entry does not open
beyond the stop and touches TP1 only together with the stop; a row outside the entry
zone that touches the stop also opens beyond it. -/
def waitsAlike : List Candle1m → Prop
  | [] => True
  | candle :: rest =>
    candidate.expiresAt ≤ candle.openTime ∨
      (candle.openTime + oneMinute ≤ candidate.expiresAt ∧
        if touchesEntryZone plan candle.lowPrice candle.highPrice then
          gappedBeyondStop candidate.direction plan candle.openPrice = false ∧
            (touchesStop candidate.direction plan.stopLoss candle.lowPrice candle.highPrice = true ∨
              touchesTp1 candidate.direction plan candle.lowPrice candle.highPrice = false ∧
                heldAlike candidate plan rest)
        else
          gappedBeyondStop candidate.direction plan candle.openPrice = true ∨
            touchesStop candidate.direction plan.stopLoss candle.lowPrice candle.highPrice = false ∧
              waitsAlike rest)

instance decidableHalvedAlike : ∀ candles, Decidable (halvedAlike candidate plan candles)
  | [] => inferInstanceAs (Decidable (_ ∧ _))
  | _ :: rest =>
    have := decidableHalvedAlike rest
    inferInstanceAs (Decidable (ite _ _ _))

instance decidableHeldAlike : ∀ candles, Decidable (heldAlike candidate plan candles)
  | [] => inferInstanceAs (Decidable (_ = _))
  | _ :: rest =>
    have := decidableHeldAlike rest
    inferInstanceAs (Decidable (_ ∨ _ ∨ ite _ _ _))

instance decidableWaitsAlike : ∀ candles, Decidable (waitsAlike candidate plan candles)
  | [] => isTrue trivial
  | _ :: rest =>
    have := decidableWaitsAlike rest
    inferInstanceAs (Decidable (_ ∨ _ ∧ ite _ _ _))

end Conditions

section Lockstep
variable (sequence : Nat) (candidate : SignalCandidate) (plan : TradePlan)

/-- The resolver from `state` and the fold from `p` end alike and at the same row. -/
structure Alike (state : ResolverState) (p : Position) (candles : List Candle1m) : Prop where
  result : SameResolution (resolveRows sequence candidate plan state candles) (p.run candles)
  sameRow : ∀ n, (resolveRows sequence candidate plan state (candles.take n)).status = .stillOpen ↔
    outcomeStatus (p.run (candles.take n)).state.status = .stillOpen

variable {sequence candidate plan} {state next : ResolverState} {p : Position}
variable {outcome : ReplayOutcome} {candle : Candle1m} {candles : List Candle1m}

theorem run_of_closed (h : outcomeStatus p.state.status ≠ .stillOpen) (candles : List Candle1m) :
    p.run candles = p := by
  induction candles with
  | nil => rfl
  | cons candle candles ih =>
    have hstep : p.step candle = p := by
      unfold Position.step
      rw [evaluateClosedCandle_of_not_open candle]
      · rfl
      · intro hstatus
        exact h (by rw [hstatus]; rfl)
      · intro hstatus
        exact h (by rw [hstatus]; rfl)
      · intro hstatus
        exact h (by rw [hstatus]; rfl)
    rw [Position.run, List.foldl_cons, hstep]
    exact ih

theorem resolveRows_of_resolved
    (hrow : resolveRow sequence candidate plan state candle = .inl outcome) :
    resolveRows sequence candidate plan state (candle :: candles) = outcome := by
  rw [resolveRows, hrow]

theorem resolveRows_of_continued
    (hrow : resolveRow sequence candidate plan state candle = .inr next) :
    resolveRows sequence candidate plan state (candle :: candles) =
      resolveRows sequence candidate plan next candles := by
  rw [resolveRows, hrow]

/-- Both go on to the next row. -/
theorem alike_continued (hrow : resolveRow sequence candidate plan state candle = .inr next)
    (hopen : outcomeStatus p.state.status = .stillOpen) :
    Alike sequence candidate plan state p (candle :: candles) ↔
      Alike sequence candidate plan next (p.step candle) candles := by
  constructor
  · intro h
    refine ⟨?_, fun n => ?_⟩
    · have hresult := h.result
      rwa [resolveRows_of_continued hrow] at hresult
    · have hsame := h.sameRow (n + 1)
      rwa [List.take_succ_cons, resolveRows_of_continued hrow] at hsame
  · intro h
    refine ⟨?_, fun n => ?_⟩
    · rw [resolveRows_of_continued hrow]
      exact h.result
    · cases n with
      | zero => exact iff_of_true rfl hopen
      | succ n =>
        rw [List.take_succ_cons, resolveRows_of_continued hrow]
        exact h.sameRow n

/-- Both end here. -/
theorem alike_resolved (hrow : resolveRow sequence candidate plan state candle = .inl outcome)
    (houtcome : outcome.status ≠ .stillOpen) (hopen : outcomeStatus p.state.status = .stillOpen)
    (hclosed : outcomeStatus (p.step candle).state.status ≠ .stillOpen) :
    Alike sequence candidate plan state p (candle :: candles) ↔
      SameResolution outcome (p.step candle) := by
  have hrun : ∀ rest, p.run (candle :: rest) = p.step candle := fun rest => run_of_closed hclosed rest
  constructor
  · intro h
    have hresult := h.result
    rwa [resolveRows_of_resolved hrow, hrun] at hresult
  · intro h
    refine ⟨?_, fun n => ?_⟩
    · rw [resolveRows_of_resolved hrow, hrun]
      exact h
    · cases n with
      | zero => exact iff_of_true rfl hopen
      | succ n =>
        rw [List.take_succ_cons, resolveRows_of_resolved hrow, hrun]
        exact iff_of_false houtcome hclosed

/-- Only one of them ends here. -/
theorem not_alike_of_resolved
    (hrow : resolveRow sequence candidate plan state candle = .inl outcome)
    (houtcome : outcome.status ≠ .stillOpen)
    (hopen : outcomeStatus (p.step candle).state.status = .stillOpen) :
    ¬ Alike sequence candidate plan state p (candle :: candles) := by
  intro h
  have hsame := h.sameRow 1
  rw [List.take_succ_cons, List.take_zero, resolveRows_of_resolved hrow] at hsame
  exact houtcome (hsame.mpr hopen)

theorem not_alike_of_continued
    (hrow : resolveRow sequence candidate plan state candle = .inr next)
    (hclosed : outcomeStatus (p.step candle).state.status ≠ .stillOpen) :
    ¬ Alike sequence candidate plan state p (candle :: candles) := by
  intro h
  have hsame := h.sameRow 1
  rw [List.take_succ_cons, List.take_zero, resolveRows_of_continued hrow] at hsame
  exact hclosed (hsame.mp rfl)

end Lockstep

section Phases
variable {sequence : Nat} {candidate : SignalCandidate} {plan : TradePlan}
variable {state : ResolverState} {p : Position}

/-- The end of the rows: the resolver reports nothing for an open position. -/
theorem alike_nil (hopen : outcomeStatus p.state.status = .stillOpen) :
    Alike sequence candidate plan state p [] ↔ p.pnl = 0 ∧ p.fees = 0 := by
  have hambiguous : p.state.status ≠ .ambiguous := by
    intro hstatus
    rw [hstatus] at hopen
    cases hopen
  constructor
  · intro h
    exact ⟨h.result.pnl.symm, h.result.fees.symm⟩
  · rintro ⟨hpnl, hfees⟩
    refine ⟨⟨hopen.symm, hpnl.symm, hfees.symm, (decide_eq_false hambiguous).symm⟩, fun n => ?_⟩
    rw [List.take_nil]
    exact iff_of_true rfl hopen

theorem step_of_actions {candle : Candle1m} {actions : List LifecycleAction}
    (h : evaluateClosedCandle p.state candle = actions) :
    p.step candle = actions.foldl (Position.book (candle.openTime + oneMinute)) p := by
  rw [Position.step, h]

/-- Both end at the row, the fold with these actions. -/
theorem alike_booked {outcome : ReplayOutcome} {candle : Candle1m} {candles : List Candle1m}
    {actions : List LifecycleAction}
    (hrow : resolveRow sequence candidate plan state candle = .inl outcome)
    (hactions : evaluateClosedCandle p.state candle = actions)
    (houtcome : outcome.status ≠ .stillOpen) (hopen : outcomeStatus p.state.status = .stillOpen)
    (hclosed : outcomeStatus
      (actions.foldl (Position.book (candle.openTime + oneMinute)) p).state.status ≠ .stillOpen) :
    Alike sequence candidate plan state p (candle :: candles) ↔
      SameResolution outcome (actions.foldl (Position.book (candle.openTime + oneMinute)) p) := by
  have hstep := step_of_actions hactions
  rw [← hstep] at hclosed ⊢
  exact alike_resolved hrow houtcome hopen hclosed

section Results
variable {enteredAt resolvedAt eventTime : Int} {action : LifecycleAction}

/-- A stop before TP1, ambiguous or not. -/
theorem same_stopped (h : Carries candidate plan p.state) (hstop : p.state.currentStop = p.state.stopLoss)
    (hpnl : action.realizedPnl = (stoppedAction p.state).realizedPnl)
    (hfees : action.fees = (stoppedAction p.state).fees) (ambiguous : Bool)
    (htarget : action.target = if ambiguous then .ambiguous else .stopped) :
    SameResolution (stoppedOutcome sequence candidate plan enteredAt resolvedAt ambiguous false)
      (p.book eventTime action) := by
  have hvalue := h.fullExit_eq
  simp only [stoppedAction, hstop, hvalue] at hpnl hfees
  refine ⟨?_, ?_, ?_, ?_⟩
  · cases ambiguous <;> simp [stoppedOutcome, Position.book, LifecycleState.advance, htarget,
      outcomeStatus]
  · simp [stoppedOutcome, Position.book, hpnl]
  · simp [stoppedOutcome, Position.book, hfees]
  · cases ambiguous <;> simp [stoppedOutcome, Position.book, LifecycleState.advance, htarget]

/-- Both halves booked by one action. -/
theorem same_tp2 (h : Carries candidate plan p.state) :
    SameResolution (targetOutcome sequence candidate plan enteredAt resolvedAt)
      (p.book eventTime (tp2Action p.state)) := by
  refine ⟨rfl, ?_, ?_, rfl⟩ <;> simp [targetOutcome, h.tp1ThenPrice_eq, Position.book, tp2Action,
    h.takeProfit2]

theorem same_breakeven (h : Carries candidate plan p.state)
    (hstop : p.state.currentStop = feeAdjustedBreakeven p.state) :
    SameResolution (stoppedOutcome sequence candidate plan enteredAt resolvedAt false true)
      (p.book eventTime (breakevenAction p.state)) := by
  refine ⟨rfl, ?_, ?_, rfl⟩ <;> simp [stoppedOutcome, pnlAfterTp1Stop, h.tp1ThenPrice_eq,
    Position.book, breakevenAction, hstop, h.breakeven]

end Results

/-- Both hold the second half of the position. -/
structure Halved (candidate : SignalCandidate) (plan : TradePlan) (state : ResolverState)
    (p : Position) : Prop where
  carries : Carries candidate plan p.state
  status : p.state.status = .tp1Reached
  stop : p.state.currentStop = feeAdjustedBreakeven p.state
  value : (p.pnl, p.fees) = tp1Result p.state
  target_pos : 0 < plan.takeProfit1
  entered : ∃ enteredAt, state.enteredAt = some enteredAt
  tp1Reached : state.tp1Reached = true
  resolverStop : state.currentStop = breakevenPrice candidate.direction plan

theorem Halved.resolveRow {enteredAt : Int} (h : Halved candidate plan state p) (sequence : Nat)
    (hentered : state.enteredAt = some enteredAt) (candle : Candle1m) :
    resolveRow sequence candidate plan state candle =
      if touchesStop candidate.direction (breakevenPrice candidate.direction plan) candle.lowPrice
          candle.highPrice then
        .inl (stoppedOutcome sequence candidate plan enteredAt (candle.openTime + oneMinute)
          (touchesTp2 candidate.direction plan candle.lowPrice candle.highPrice) true)
      else if touchesTp2 candidate.direction plan candle.lowPrice candle.highPrice then
        .inl (targetOutcome sequence candidate plan enteredAt (candle.openTime + oneMinute))
      else .inr state := by
  simp only [Replay.resolveRow, hentered, resolveEntered, h.tp1Reached, h.resolverStop, Bool.not_true,
    Bool.false_and, Bool.false_or]
  cases touchesStop candidate.direction (breakevenPrice candidate.direction plan) candle.lowPrice
      candle.highPrice <;>
    cases touchesTp2 candidate.direction plan candle.lowPrice candle.highPrice <;> rfl

theorem halved_iff {candles : List Candle1m} (h : Halved candidate plan state p)
    (hsymbol : ∀ candle ∈ candles, candle.symbol = candidate.symbol) :
    Alike sequence candidate plan state p candles ↔ halvedAlike candidate plan candles := by
  obtain ⟨enteredAt, hentered⟩ := h.entered
  have hopen : outcomeStatus p.state.status = .stillOpen := by
    rw [h.status]
    rfl
  induction candles with
  | nil =>
    rw [alike_nil hopen]
    have hpnl := congrArg Prod.fst h.value
    have hfees := congrArg Prod.snd h.value
    simp only [tp1Result, h.carries.plannedEntry, h.carries.takerFeeRate, h.carries.takeProfit1,
      h.carries.quantity] at hpnl hfees
    have hquantity := h.carries.funded.quantity
    have hentry := h.carries.funded.plannedEntry
    rw [h.carries.quantity] at hquantity
    rw [h.carries.plannedEntry] at hentry
    have htarget := h.target_pos
    have hbase : 0 < plan.quantity * plan.plannedEntry + plan.quantity / 2 * plan.takeProfit1 := by
      positivity
    rw [hpnl, hfees]
    constructor
    · rintro ⟨hzero, hfree⟩
      rw [hfree, sub_zero] at hzero
      refine ⟨(mul_eq_zero.mp hfree).resolve_left (ne_of_gt hbase), ?_⟩
      have hmove := (mul_eq_zero.mp hzero).resolve_left (ne_of_gt (half_pos hquantity))
      revert hmove
      cases p.state.direction with
      | long =>
        simp only [signedMove]
        intro hmove
        linarith
      | short =>
        simp only [signedMove]
        intro hmove
        linarith
    · rintro ⟨hfree, hsame⟩
      rw [hfree, hsame]
      cases p.state.direction <;> simp [signedMove]
  | cons candle candles ih =>
    have hactions := actions_tp1Reached h.carries
      ((hsymbol candle List.mem_cons_self).trans h.carries.symbol.symm) h.status h.stop
    have hrow := h.resolveRow sequence hentered candle
    rw [h.stop, h.carries.direction, h.carries.takeProfit2, ← h.carries.breakeven] at hactions
    rw [touchesTp2_eq] at hactions
    rw [halvedAlike]
    cases hstop : touchesStop candidate.direction (breakevenPrice candidate.direction plan)
        candle.lowPrice candle.highPrice with
    | true =>
      simp only [hstop, if_true] at hrow hactions ⊢
      cases htarget : touchesTp2 candidate.direction plan candle.lowPrice candle.highPrice with
      | true =>
        simp only [htarget, if_true] at hrow hactions ⊢
        rw [alike_booked hrow hactions (by simp [stoppedOutcome]) hopen (by simp [Position.book,
          LifecycleState.advance, outcomeStatus])]
        refine iff_of_false (fun hsame => ?_) (by simp)
        -- the full loss is never the result of a breakeven stop
        have hpnl := hsame.pnl
        have hlt := h.carries.loss_lt
        simp only [stoppedOutcome, Position.book, breakevenAction, List.foldl_cons, List.foldl_nil,
          Option.getD_some, Bool.not_true, Bool.and_false, Bool.false_eq_true, if_false, h.stop] at hpnl
        rw [h.carries.loss, hpnl] at hlt
        exact lt_irrefl _ hlt
      | false =>
        simp only [htarget, Bool.false_eq_true, if_false] at hrow hactions ⊢
        rw [alike_booked hrow hactions (by simp [stoppedOutcome]) hopen (by simp [Position.book,
          LifecycleState.advance, outcomeStatus, breakevenAction])]
        exact iff_of_true (same_breakeven h.carries h.stop) trivial
    | false =>
      simp only [hstop, Bool.false_eq_true, if_false] at hrow hactions ⊢
      cases htarget : touchesTp2 candidate.direction plan candle.lowPrice candle.highPrice with
      | true =>
        simp only [htarget, if_true] at hrow hactions
        rw [alike_booked hrow hactions (by simp [targetOutcome]) hopen (by simp [Position.book,
          LifecycleState.advance, outcomeStatus, tp2Action])]
        exact iff_of_true (same_tp2 h.carries) (Or.inl rfl)
      | false =>
        simp only [htarget, Bool.false_eq_true, if_false] at hrow hactions
        rw [alike_continued hrow hopen, step_of_actions hactions]
        simp only [Bool.false_eq_true, false_or]
        exact ih fun c hc => hsymbol c (List.mem_cons_of_mem candle hc)

/-- Both hold the whole position. -/
structure Held (candidate : SignalCandidate) (plan : TradePlan) (state : ResolverState)
    (p : Position) : Prop where
  carries : Carries candidate plan p.state
  status : p.state.status = .entered
  stop : p.state.currentStop = p.state.stopLoss
  value : (enteredAction p.state).realizedPnl = some p.pnl ∧ (enteredAction p.state).fees = some p.fees
  entered : ∃ enteredAt, state.enteredAt = some enteredAt
  tp1Reached : state.tp1Reached = false
  resolverStop : state.currentStop = plan.stopLoss

theorem Held.resolveRow {enteredAt : Int} (h : Held candidate plan state p) (sequence : Nat)
    (hentered : state.enteredAt = some enteredAt) (candle : Candle1m) :
    resolveRow sequence candidate plan state candle =
      if touchesStop candidate.direction plan.stopLoss candle.lowPrice candle.highPrice then
        .inl (stoppedOutcome sequence candidate plan enteredAt (candle.openTime + oneMinute)
          (touchesTp1 candidate.direction plan candle.lowPrice candle.highPrice ||
            touchesTp2 candidate.direction plan candle.lowPrice candle.highPrice) false)
      else if touchesTp2 candidate.direction plan candle.lowPrice candle.highPrice then
        .inl (targetOutcome sequence candidate plan enteredAt (candle.openTime + oneMinute))
      else if touchesTp1 candidate.direction plan candle.lowPrice candle.highPrice then
        .inr { state with
          tp1Reached := true
          currentStop := breakevenPrice candidate.direction plan }
      else .inr state := by
  simp only [Replay.resolveRow, hentered, resolveEntered, h.tp1Reached, h.resolverStop, Bool.not_false,
    Bool.true_and]
  cases touchesStop candidate.direction plan.stopLoss candle.lowPrice candle.highPrice <;>
    cases touchesTp1 candidate.direction plan candle.lowPrice candle.highPrice <;>
      cases touchesTp2 candidate.direction plan candle.lowPrice candle.highPrice <;> rfl

/-- TP1 is a price the exchange quoted once a row touches it. -/
theorem Carries.takeProfit1_pos (h : Carries candidate plan p.state) {candle : Candle1m}
    (hlow : 0 < candle.lowPrice)
    (htouch : touchesTp1 candidate.direction plan candle.lowPrice candle.highPrice = true) :
    0 < plan.takeProfit1 := by
  have hentry := h.funded.plannedEntry
  have hside := h.directed.takeProfit1
  rw [h.plannedEntry] at hentry
  rw [h.direction, h.plannedEntry, h.takeProfit1] at hside
  cases hd : candidate.direction with
  | long =>
    rw [hd] at hside
    simp only [signedMove] at hside
    linarith
  | short =>
    rw [hd] at htouch
    simp only [touchesTp1, touchesTarget, decide_eq_true_eq] at htouch
    linarith

theorem Held.halved (h : Held candidate plan state p) (eventTime : Int)
    (hpos : 0 < plan.takeProfit1) :
    Halved candidate plan
      { state with tp1Reached := true, currentStop := breakevenPrice candidate.direction plan }
      (p.book eventTime (tp1Action p.state)) where
  carries := h.carries.samePlan (SamePlan.advance p.state eventTime (tp1Action p.state))
  status := rfl
  stop := rfl
  value := rfl
  target_pos := hpos
  entered := h.entered
  tp1Reached := rfl
  resolverStop := rfl

theorem held_iff {candles : List Candle1m} (h : Held candidate plan state p)
    (hrows : ∀ candle ∈ candles, candle.symbol = candidate.symbol ∧ WellFormed candle) :
    Alike sequence candidate plan state p candles ↔ heldAlike candidate plan candles := by
  obtain ⟨enteredAt, hentered⟩ := h.entered
  have hopen : outcomeStatus p.state.status = .stillOpen := by
    rw [h.status]
    rfl
  induction candles with
  | nil =>
    rw [alike_nil hopen, heldAlike]
    obtain ⟨hpnl, hfees⟩ := h.value
    simp only [enteredAction, h.carries.plannedEntry, h.carries.takerFeeRate, h.carries.quantity,
      Option.some.injEq] at hpnl hfees
    have hquantity := h.carries.funded.quantity
    have hentry := h.carries.funded.plannedEntry
    rw [h.carries.quantity] at hquantity
    rw [h.carries.plannedEntry] at hentry
    rw [← hpnl, ← hfees, neg_eq_zero, and_self]
    constructor
    · exact fun hfree => (mul_eq_zero.mp hfree).resolve_left (ne_of_gt (mul_pos hquantity hentry))
    · exact fun hfree => by rw [hfree, mul_zero]
  | cons candle candles ih =>
    obtain ⟨hsymbol, hformed⟩ := hrows candle List.mem_cons_self
    have hrest : ∀ c ∈ candles, c.symbol = candidate.symbol ∧ WellFormed c :=
      fun c hc => hrows c (List.mem_cons_of_mem candle hc)
    have hactions := actions_entered h.carries (hsymbol.trans h.carries.symbol.symm) h.status h.stop
    have hrow := h.resolveRow sequence hentered candle
    rw [h.carries.direction, h.carries.stopLoss, h.carries.takeProfit1, h.carries.takeProfit2] at hactions
    rw [touchesTp1_eq, touchesTp2_eq] at hactions
    rw [heldAlike]
    cases hstop : touchesStop candidate.direction plan.stopLoss candle.lowPrice candle.highPrice with
    | true =>
      simp only [hstop, if_true] at hrow hactions
      rw [alike_booked hrow hactions (by simp only [stoppedOutcome]; split_ifs <;> simp) hopen
        (by split_ifs <;> simp [Position.book, LifecycleState.advance, outcomeStatus, stoppedAction])]
      refine iff_of_true ?_ (Or.inl rfl)
      cases touchesTp1 candidate.direction plan candle.lowPrice candle.highPrice ||
          touchesTp2 candidate.direction plan candle.lowPrice candle.highPrice with
      | true =>
        simp only [if_true, List.foldl_cons, List.foldl_nil]
        refine same_stopped h.carries h.stop ?_ ?_ true ?_ <;> rfl
      | false =>
        simp only [Bool.false_eq_true, if_false, List.foldl_cons, List.foldl_nil]
        refine same_stopped h.carries h.stop ?_ ?_ false ?_ <;> rfl
    | false =>
      simp only [hstop, Bool.false_eq_true, if_false, false_or] at hrow hactions ⊢
      cases hfar : touchesTp2 candidate.direction plan candle.lowPrice candle.highPrice with
      | true =>
        simp only [hfar, if_true] at hrow hactions
        rw [alike_booked hrow hactions (by simp [targetOutcome]) hopen (by simp [tp1AndTp2,
          Position.book, LifecycleState.advance, outcomeStatus, tp2Action])]
        refine iff_of_true ?_ (Or.inl rfl)
        have hfirst := h.carries.samePlan
          (SamePlan.advance p.state (candle.openTime + oneMinute) (tp1Action p.state))
        exact @same_tp2 sequence candidate plan (p.book (candle.openTime + oneMinute)
          (tp1Action p.state)) enteredAt _ _ hfirst
      | false =>
        simp only [hfar, Bool.false_eq_true, if_false, false_or] at hrow hactions ⊢
        by_cases hnear : touchesTp1 candidate.direction plan candle.lowPrice candle.highPrice = true
        · rw [if_pos hnear] at hrow hactions ⊢
          rw [alike_continued hrow hopen, step_of_actions hactions]
          exact halved_iff (h.halved _ (h.carries.takeProfit1_pos hformed.low_pos hnear))
            fun c hc => (hrest c hc).1
        · rw [if_neg hnear] at hrow hactions ⊢
          rw [alike_continued hrow hopen, step_of_actions hactions]
          exact ih hrest

/-- Both wait for the entry. -/
structure Awaiting (candidate : SignalCandidate) (plan : TradePlan) (state : ResolverState)
    (p : Position) : Prop where
  carries : Carries candidate plan p.state
  status : p.state.status = .active
  stop : p.state.currentStop = p.state.stopLoss
  pnl : p.pnl = 0
  fees : p.fees = 0
  entered : state.enteredAt = none
  tp1Reached : state.tp1Reached = false
  resolverStop : state.currentStop = plan.stopLoss

/-- A candle that opens beyond the stop touches it. -/
theorem touchesStop_of_gapped {candle : Candle1m} (hformed : WellFormed candle)
    (hgap : gappedBeyondStop candidate.direction plan candle.openPrice = true) :
    touchesStop candidate.direction plan.stopLoss candle.lowPrice candle.highPrice = true := by
  have hlow := hformed.low_le_open
  have hhigh := hformed.open_le_high
  cases hd : candidate.direction with
  | long =>
    rw [hd] at hgap
    simp only [gappedBeyondStop, decide_eq_true_eq] at hgap
    simp only [touchesStop, decide_eq_true_eq]
    linarith
  | short =>
    rw [hd] at hgap
    simp only [gappedBeyondStop, decide_eq_true_eq] at hgap
    simp only [touchesStop, decide_eq_true_eq]
    linarith

theorem Awaiting.actions (h : Awaiting candidate plan state p) {candle : Candle1m}
    (hsymbol : candle.symbol = candidate.symbol) :
    evaluateClosedCandle p.state candle =
      if candle.openTime + oneMinute > candidate.expiresAt then
        [{ target := .expired, eventType := .fallbackSignalExpired }]
      else if !touchesEntryZone plan candle.lowPrice candle.highPrice then
        if touchesStop candidate.direction plan.stopLoss candle.lowPrice candle.highPrice then
          [{ target := .invalidated, eventType := .fallbackEntryInvalidated }]
        else []
      else if touchesStop candidate.direction plan.stopLoss candle.lowPrice candle.highPrice then
        [{ stoppedAction p.state with target := .ambiguous, eventType := .fallbackAmbiguousStop }]
      else [enteredAction p.state] := by
  have hentry : touchesEntry p.state candle = touchesEntryZone plan candle.lowPrice candle.highPrice := by
    simp only [touchesEntry, touchesEntryZone, h.carries.entryLower, h.carries.entryUpper]
  rw [actions_active h.carries (hsymbol.trans h.carries.symbol.symm) h.status h.stop, hentry,
    h.carries.direction, h.carries.stopLoss, h.carries.expiresAt]

theorem Awaiting.resolveRow (h : Awaiting candidate plan state p) (sequence : Nat)
    (candle : Candle1m) :
    resolveRow sequence candidate plan state candle =
      resolveWaiting sequence candidate plan state candle := by
  rw [Replay.resolveRow, h.entered]

theorem Awaiting.held (h : Awaiting candidate plan state p) (enteredAt eventTime : Int) :
    Held candidate plan { state with enteredAt := some enteredAt }
      (p.book eventTime (enteredAction p.state)) where
  carries := h.carries.samePlan (SamePlan.advance p.state eventTime (enteredAction p.state))
  status := rfl
  stop := h.stop
  value := ⟨rfl, rfl⟩
  entered := ⟨enteredAt, rfl⟩
  tp1Reached := h.tp1Reached
  resolverStop := h.resolverStop

/-- A row that straddles the expiry: the fallback expires the signal, the resolver does not. -/
theorem not_alike_of_straddle (h : Awaiting candidate plan state p) {candle : Candle1m}
    {candles : List Candle1m} (hsymbol : candle.symbol = candidate.symbol)
    (hbefore : candle.openTime < candidate.expiresAt)
    (hafter : candidate.expiresAt < candle.openTime + oneMinute) :
    ¬ Alike sequence candidate plan state p (candle :: candles) := by
  have hopen : outcomeStatus p.state.status = .stillOpen := by
    rw [h.status]
    rfl
  have hactions := h.actions hsymbol
  rw [if_pos hafter] at hactions
  cases hresult : Replay.resolveRow sequence candidate plan state candle with
  | inr next =>
    apply not_alike_of_continued hresult
    rw [step_of_actions hactions]
    simp [Position.book, LifecycleState.advance, outcomeStatus]
  | inl outcome =>
    intro halike
    rw [h.resolveRow, resolveWaiting, if_neg (not_le.mpr hbefore)] at hresult
    have hstatus : outcome.status = .expired := by
      have hend := halike.result.status
      rw [resolveRows_of_resolved ((h.resolveRow sequence candle).trans (by
        rw [resolveWaiting, if_neg (not_le.mpr hbefore)]; exact hresult))] at hend
      rw [hend, Position.run, List.foldl_cons, step_of_actions hactions]
      exact congrArg (fun q : Position => outcomeStatus q.state.status) (run_of_closed (by
        simp [Position.book, LifecycleState.advance, outcomeStatus]) candles)
    split_ifs at hresult
    · cases hresult
      cases hstatus
    · cases hresult
      simp [stoppedOutcome] at hstatus
    · cases hresult
      cases hstatus

theorem awaiting_iff {candles : List Candle1m} (h : Awaiting candidate plan state p)
    (hrows : ∀ candle ∈ candles, candle.symbol = candidate.symbol ∧ WellFormed candle) :
    Alike sequence candidate plan state p candles ↔ waitsAlike candidate plan candles := by
  have hopen : outcomeStatus p.state.status = .stillOpen := by
    rw [h.status]
    rfl
  induction candles with
  | nil =>
    rw [alike_nil hopen, waitsAlike]
    exact iff_of_true ⟨h.pnl, h.fees⟩ trivial
  | cons candle candles ih =>
    obtain ⟨hsymbol, hformed⟩ := hrows candle List.mem_cons_self
    have hrest : ∀ c ∈ candles, c.symbol = candidate.symbol ∧ WellFormed c :=
      fun c hc => hrows c (List.mem_cons_of_mem candle hc)
    have hactions := h.actions hsymbol
    have hrow := h.resolveRow sequence candle
    rw [resolveWaiting, h.resolverStop] at hrow
    have hpos := oneMinute_pos
    rw [waitsAlike]
    by_cases hexpired : candidate.expiresAt ≤ candle.openTime
    · rw [if_pos (show candle.openTime + oneMinute > candidate.expiresAt by omega)] at hactions
      rw [if_pos hexpired] at hrow
      rw [alike_booked hrow hactions (by simp [flatOutcome]) hopen (by simp [Position.book,
        LifecycleState.advance, outcomeStatus])]
      refine iff_of_true ⟨rfl, ?_, ?_, rfl⟩ (Or.inl hexpired)
      · exact h.pnl.symm
      · exact h.fees.symm
    by_cases hstraddle : candidate.expiresAt < candle.openTime + oneMinute
    · refine iff_of_false (not_alike_of_straddle h hsymbol (not_le.mp hexpired) hstraddle) ?_
      rintro (hlate | ⟨hearly, -⟩)
      · exact hexpired hlate
      · omega
    rw [if_neg hstraddle] at hactions
    rw [if_neg hexpired] at hrow
    rw [or_iff_right hexpired, and_iff_right (not_lt.mp hstraddle)]
    cases hgap : gappedBeyondStop candidate.direction plan candle.openPrice with
    | true =>
      rw [touchesStop_of_gapped hformed hgap] at hactions
      rw [hgap] at hrow
      simp only [if_true] at hrow hactions
      cases hzone : touchesEntryZone plan candle.lowPrice candle.highPrice with
      | true =>
        simp only [hzone, Bool.not_true, Bool.false_eq_true, if_false, if_true] at hactions ⊢
        rw [alike_booked hrow hactions (by simp [flatOutcome]) hopen (by simp [Position.book,
          LifecycleState.advance, outcomeStatus])]
        exact iff_of_false (fun hsame => by cases hsame.status) (by simp)
      | false =>
        simp only [hzone, Bool.not_false, if_true] at hactions
        rw [alike_booked hrow hactions (by simp [flatOutcome]) hopen (by simp [Position.book,
          LifecycleState.advance, outcomeStatus])]
        refine iff_of_true ⟨rfl, ?_, ?_, rfl⟩ (by simp)
        · exact h.pnl.symm
        · exact h.fees.symm
    | false =>
      rw [hgap] at hrow
      simp only [Bool.false_eq_true, if_false] at hrow
      cases hzone : touchesEntryZone plan candle.lowPrice candle.highPrice with
      | false =>
        simp only [hzone, Bool.not_false, if_true] at hactions hrow
        cases hstop : touchesStop candidate.direction plan.stopLoss candle.lowPrice
            candle.highPrice with
        | true =>
          simp only [hstop, if_true] at hactions
          refine iff_of_false (not_alike_of_continued hrow ?_) (by simp)
          rw [step_of_actions hactions]
          simp [Position.book, LifecycleState.advance, outcomeStatus]
        | false =>
          simp only [hstop, Bool.false_eq_true, if_false] at hactions
          rw [alike_continued hrow hopen, step_of_actions hactions]
          simp only [Bool.false_eq_true, if_false, false_or, true_and]
          exact ih hrest
      | true =>
        simp only [hzone, Bool.not_true, Bool.false_eq_true, if_false] at hactions hrow
        cases hstop : touchesStop candidate.direction plan.stopLoss candle.lowPrice
            candle.highPrice with
        | true =>
          simp only [hstop, if_true] at hactions hrow
          rw [alike_booked hrow hactions (by simp [stoppedOutcome]) hopen (by simp [Position.book,
            LifecycleState.advance, outcomeStatus])]
          refine iff_of_true ?_ (by simp)
          refine same_stopped h.carries h.stop ?_ ?_ true ?_ <;> rfl
        | false =>
          simp only [hstop, Bool.false_eq_true, if_false] at hactions hrow
          cases hnear : touchesTp1 candidate.direction plan candle.lowPrice candle.highPrice with
          | true =>
            simp only [hnear, if_true] at hrow
            refine iff_of_false (not_alike_of_resolved hrow (by simp [flatOutcome]) ?_) (by simp)
            rw [step_of_actions hactions]
            rfl
          | false =>
            simp only [hnear, Bool.false_eq_true, if_false] at hrow
            rw [alike_continued hrow hopen, step_of_actions hactions]
            simp only [Bool.false_eq_true, if_true, false_or, true_and]
            have hheld := h.held candle.openTime (candle.openTime + oneMinute)
            rw [h.resolverStop] at hheld
            exact held_iff hheld hrest

end Phases

section Published
variable {input : TradePlanInput} {candidate : SignalCandidate}

/-- Net of the fees the second target pays, so it lies beyond the breakeven price. -/
theorem target_beyond_breakeven (h : Sized input) (hfee : 0 ≤ input.feeRate)
    (hfee' : input.feeRate < 1) {state : LifecycleState} (hon : OnPlan input state) :
    0 < signedMove state.direction (feeAdjustedBreakeven state) state.takeProfit2 := by
  have hnet := h.netRewardPerUnit_pos
  have hless : (0 : ℚ) < 1 - input.feeRate := by linarith
  have hmore : (0 : ℚ) < 1 + input.feeRate := by linarith
  simp only [TradePlanInput.netRewardPerUnit, TradePlanInput.rewardPerUnit,
    TradePlanInput.entryFeePerUnit, TradePlanInput.exitFeePerUnit] at hnet
  simp only [feeAdjustedBreakeven, hon.direction, hon.plannedEntry, hon.takerFeeRate, hon.takeProfit2]
  cases hd : input.direction with
  | long =>
    rw [hd] at hnet
    simp only [signedMove] at hnet ⊢
    rw [sub_pos, div_lt_iff₀ hless]
    linarith
  | short =>
    rw [hd] at hnet
    simp only [signedMove] at hnet ⊢
    rw [sub_pos, lt_div_iff₀ hmore]
    linarith

theorem published_carries (hsized : Sized input) (hfee : 0 ≤ input.feeRate)
    (hfee' : input.feeRate < 1) (hmultiple : 0 ≤ input.config.takeProfit1RMultiple)
    (hplan : candidate.tradePlan = some input.plan) (hdirection : candidate.direction = input.direction)
    (recordId snapshotId signalId : Nat) (now : Int) (fundingRate : ℚ) (interval : Int) :
    ∃ start, publishedState recordId snapshotId signalId candidate now fundingRate interval =
        .ok start ∧ Carries candidate input.plan start ∧ start.status = .active ∧
      start.currentStop = start.stopLoss := by
  obtain ⟨start, hstart, hon, hstatus, hstop⟩ := publishedState_eq hsized hplan hdirection recordId
    snapshotId signalId now fundingRate interval
  have hrate : feeRate input.plan = input.feeRate := by
    have hpos : input.plan.notional > 0 := hsized.notional_pos
    rw [feeRate, if_pos hpos, hsized.takerFeeRate_eq]
  have hrow : start.symbol = candidate.symbol ∧ start.expiresAt = candidate.expiresAt ∧
      start.entryLower = input.entryLower ∧ start.entryUpper = input.entryUpper := by
    simp only [publishedState, signalRecord, virtualTrade, candidateRecord, hplan, Option.map_some,
      bind, Except.bind, pure, Except.pure] at hstart
    cases hstart
    exact ⟨rfl, rfl, rfl, rfl⟩
  obtain ⟨hlower, hupper⟩ := hsized.plannedEntry_mem
  refine ⟨start, hstart, ?_, hstatus, hstop.initial (Or.inl hstatus)⟩
  exact {
    symbol := hrow.1
    direction := hon.direction.trans hdirection.symm
    expiresAt := hrow.2.1
    entryLower := hrow.2.2.1
    entryUpper := hrow.2.2.2
    plannedEntry := hon.plannedEntry
    stopLoss := hon.stopLoss
    takeProfit1 := hon.takeProfit1
    takeProfit2 := hon.takeProfit2
    quantity := hon.quantity
    takerFeeRate := hon.takerFeeRate.trans hrate.symm
    entryFee := by rw [hrate]; rfl
    loss := hon.fullExit_stop
    funded := hon.funded hsized hfee hfee'
    directed := hon.directed hsized hmultiple
    risk_pos := by
      have hrisk := hsized.riskPerUnit_pos
      rw [TradePlanInput.riskPerUnit] at hrisk
      rw [hon.direction, hon.stopLoss, hon.plannedEntry]
      cases hd : input.direction <;> simp only [hd] at hrisk <;> exact hrisk
    inZone := by
      rw [hrow.2.2.1, hrow.2.2.2, hon.plannedEntry]
      exact ⟨le_of_lt hlower, le_of_lt hupper⟩
    pays := target_beyond_breakeven hsized hfee hfee' hon }

/-- The replay of a candidate and the fold of the fallback from its published state. -/
structure ResolvesAlike (sequence : Nat) (candidate : SignalCandidate) (rows : List ReplayMarketRow)
    (start : LifecycleState) : Prop where
  result : ∃ outcome, resolveCandidate sequence candidate rows = .ok outcome ∧
    SameResolution outcome (Position.run { state := start } (rows.map (·.candle)))
  sameRow : ∀ n, (∃ outcome, resolveCandidate sequence candidate (rows.take n) = .ok outcome ∧
      outcome.status = .stillOpen) ↔
    outcomeStatus (Position.run { state := start } ((rows.take n).map (·.candle))).state.status =
      .stillOpen

/-- The rows of the symbol from the analysis on. -/
def RowsOf (candidate : SignalCandidate) (rows : List ReplayMarketRow) : Prop :=
  ∀ row ∈ rows, row.candle.symbol = candidate.symbol ∧ candidate.analyzedAt ≤ row.candle.openTime ∧
    WellFormed row.candle

theorem resolveCandidate_eq {plan : TradePlan} (sequence : Nat)
    (haccepted : candidate.status = .accepted) (hplan : candidate.tradePlan = some plan)
    {rows : List ReplayMarketRow} (hrows : RowsOf candidate rows) :
    resolveCandidate sequence candidate rows = .ok (resolveRows sequence candidate plan
      { currentStop := plan.stopLoss } (rows.map (·.candle))) := by
  have hall : rows.filter (fun row => decide (row.candle.symbol = candidate.symbol ∧
      row.candle.openTime ≥ candidate.analyzedAt)) = rows :=
    List.filter_eq_self.mpr fun row hrow =>
      decide_eq_true ⟨(hrows row hrow).1, (hrows row hrow).2.1⟩
  unfold resolveCandidate
  rw [hplan]
  simp only [haccepted, ne_eq, not_true_eq_false, if_false, hall]

end Published

section Sample

def sampleRow (minute : Int) (openPrice low high : ℚ) : ReplayMarketRow where
  candle := {
    symbol := "BTCUSDT"
    openTime := minutes minute
    openPrice := openPrice
    highPrice := high
    lowPrice := low
    closePrice := openPrice
    volume := 1
    turnover := 1 }

/-- The fold of the fallback in rounded arithmetic. -/
def Position.runRounded (p : Position) (candles : List Candle1m) : Position :=
  candles.foldl (fun p candle =>
    (Signals.Rounded.evaluateEvent Library.defaultContext p.state (.candle candle)).foldl
      (Position.book (candle.openTime + oneMinute)) p) p

/-- The average of 14 true ranges whose sum is 10. -/
def averagedInput : TradePlanInput :=
  { sampleInput with atr := Library.defaultContext (10 / 14) }

def averagedPlan : TradePlan := Strategy.Rounded.plan Library.defaultContext averagedInput

def averagedCandidate : SignalCandidate := { sampleCandidate with tradePlan := some averagedPlan }

/-- The entry, and in the next minute the stop. -/
def enteredAndStopped : List ReplayMarketRow :=
  [sampleRow 1 100 (199 / 2) (201 / 2), sampleRow 2 99 98 100]

/-- With 28 digits a plain stop costs the estimate of the plan in the replay and the
tracker's own sum in the fallback. -/
theorem rounding_separates_replay :
    Strategy.Rounded.buildTradePlan Library.defaultContext averagedInput = (some averagedPlan, []) ∧
      RowsOf averagedCandidate enteredAndStopped ∧
      waitsAlike averagedCandidate averagedPlan (enteredAndStopped.map (·.candle)) ∧
      ∃ start, publishedState 1 1 1 averagedCandidate 0 0 480 = .ok start ∧
        let candles := enteredAndStopped.map (·.candle)
        let outcome := Rounded.resolveRows Library.defaultContext 1 averagedCandidate averagedPlan
          { currentStop := averagedPlan.stopLoss } candles
        let position := Position.runRounded { state := start } candles
        outcome.status = .stopped ∧ position.state.status = .stopped ∧
          outcome.pnl ≠ position.pnl := by
  refine ⟨by decide +kernel, ?_, by decide +kernel, _, rfl, ?_⟩
  · intro row hrow
    simp only [enteredAndStopped, List.mem_cons, List.not_mem_nil, or_false] at hrow
    rcases hrow with rfl | rfl <;>
      exact ⟨rfl, by decide +kernel, by decide +kernel, by decide +kernel, by decide +kernel⟩
  · decide +kernel

/-- The minute of the entry reaches TP1. The replay reports an ambiguous result of zero
and the fallback an open position. -/
theorem replay_drops_target_in_entry_row :
    ∃ start, publishedState 1 1 1 sampleCandidate 0 0 480 = .ok start ∧
      RowsOf sampleCandidate [sampleRow 1 102 100 104] ∧
      ¬ ResolvesAlike 1 sampleCandidate [sampleRow 1 102 100 104] start := by
  refine ⟨_, rfl, ?_, fun h => ?_⟩
  · intro row hrow
    cases List.mem_singleton.mp hrow
    exact ⟨rfl, by decide +kernel, by decide +kernel, by decide +kernel, by decide +kernel⟩
  · obtain ⟨outcome, hok, hsame⟩ := h.result
    have hstatus := hsame.status
    have hreplayed : (resolveCandidate 1 sampleCandidate [sampleRow 1 102 100 104]).map
        ReplayOutcome.status = .ok .ambiguous := by decide +kernel
    rw [hok, Except.map, Except.ok.injEq] at hreplayed
    rw [hreplayed] at hstatus
    exact absurd hstatus (by decide +kernel)

end Sample

end StructurePulse.Replay
