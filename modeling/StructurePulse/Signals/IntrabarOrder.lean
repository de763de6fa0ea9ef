import StructurePulse.Signals.Legs

/-!
# The closed-candle fallback against every intrabar order

A closed candle says which prices were reached, not in which order. The fallback is
compared with folding the exact-trade evaluator over every sequence of trades the
candle allows. Prices are compared in the direction of the trade: `toward` turns
the short case into the long one.
-/

namespace StructurePulse.Signals
set_option autoImplicit false

def toward : TradeDirection → ℚ → ℚ
  | .long, price => price
  | .short, price => -price

/-- The end of the candle a stop looks at. -/
def adverse (direction : TradeDirection) (candle : Candle1m) : ℚ :=
  match direction with
  | .long => candle.lowPrice
  | .short => candle.highPrice

/-- The end of the candle a target looks at. -/
def favourable (direction : TradeDirection) (candle : Candle1m) : ℚ :=
  match direction with
  | .long => candle.highPrice
  | .short => candle.lowPrice

theorem beyondStop_iff (direction : TradeDirection) (stop price : ℚ) :
    beyondStop direction stop price = true ↔ toward direction price ≤ toward direction stop := by
  cases direction <;> simp [beyondStop, toward]

theorem targetReached_iff (direction : TradeDirection) (target price : ℚ) :
    targetReached direction target price = true ↔
      toward direction target ≤ toward direction price := by
  cases direction <;> simp [targetReached, toward]

theorem touchesStop_iff (direction : TradeDirection) (stop : ℚ) (candle : Candle1m) :
    touchesStop direction stop candle.lowPrice candle.highPrice = true ↔
      toward direction (adverse direction candle) ≤ toward direction stop := by
  cases direction <;> simp [touchesStop, toward, adverse]

theorem touchesTarget_iff (direction : TradeDirection) (target : ℚ) (candle : Candle1m) :
    touchesTarget direction target candle.lowPrice candle.highPrice = true ↔
      toward direction target ≤ toward direction (favourable direction candle) := by
  cases direction <;> simp [touchesTarget, toward, favourable]

theorem signedMove_eq_toward (direction : TradeDirection) (entry exitPrice : ℚ) :
    signedMove direction entry exitPrice = toward direction exitPrice - toward direction entry := by
  cases direction with
  | long => rfl
  | short => simp only [signedMove, toward]; ring

/-- Trades a closed candle allows: its symbol, its minute, within its range, and
reaching both ends of it. No order is imposed on the sequence. -/
structure Consistent (candle : Candle1m) (trades : List PublicTrade) : Prop where
  symbol : ∀ t ∈ trades, t.symbol = candle.symbol
  minute : ∀ t ∈ trades, candle.openTime ≤ t.executedAt ∧ t.executedAt < candle.openTime + oneMinute
  range : ∀ t ∈ trades, candle.lowPrice ≤ t.price ∧ t.price ≤ candle.highPrice
  low : ∃ t ∈ trades, t.price = candle.lowPrice
  high : ∃ t ∈ trades, t.price = candle.highPrice

/-- The levels of a signal in trade direction: stop, entry zone, TP1, TP2. -/
structure OrderedLevels (state : LifecycleState) : Prop where
  stop_lt_zone : ∀ price, state.entryLower ≤ price → price ≤ state.entryUpper →
    toward state.direction state.stopLoss < toward state.direction price
  planned_mem : state.entryLower ≤ state.plannedEntry ∧ state.plannedEntry ≤ state.entryUpper
  zone_lt_target : ∀ price, state.entryLower ≤ price → price ≤ state.entryUpper →
    toward state.direction price < toward state.direction state.takeProfit1
  targets_lt : toward state.direction state.takeProfit1 < toward state.direction state.takeProfit2

/-- An open lifecycle state as the tracker holds it. -/
structure OpenState (state : LifecycleState) : Prop where
  status : state.status = .active ∨ state.status = .entered ∨ state.status = .tp1Reached
  discipline : StopDiscipline state
  funded : Funded state
  levels : OrderedLevels state

theorem OrderedLevels.directed {state : LifecycleState} (h : OrderedLevels state) :
    Directed state := by
  have hstop := h.stop_lt_zone _ h.planned_mem.1 h.planned_mem.2
  have htarget := h.zone_lt_target _ h.planned_mem.1 h.planned_mem.2
  have htargets := h.targets_lt
  refine ⟨?_, ?_, ?_⟩ <;> rw [signedMove_eq_toward] <;> linarith

/-- The PnL a run leaves on the virtual trade: the last one booked, zero if none. -/
def realizedPnl (booked : List (LifecycleState × LifecycleAction)) : ℚ :=
  ((booked.filterMap (·.2.realizedPnl)).getLast?).getD 0

def runTrades (state : LifecycleState) (trades : List PublicTrade) : LifecycleState :=
  runEvents state (trades.map .trade)

def tradesPnl (state : LifecycleState) (trades : List PublicTrade) : ℚ :=
  realizedPnl (bookings state (trades.map .trade))

def fallbackStatus (state : LifecycleState) (candle : Candle1m) : SignalStatus :=
  (stepEvent state (.candle candle)).status

def fallbackPnl (state : LifecycleState) (candle : Candle1m) : ℚ :=
  realizedPnl (bookings state [.candle candle])

def SignalStatus.isStoppedOut : SignalStatus → Bool
  | .stopped | .stoppedAtBreakeven => true
  | _ => false

/-- The fallback never beats a sequence of trades the candle allows. -/
def Conservative (state : LifecycleState) (candle : Candle1m) : Prop :=
  ∀ trades, Consistent candle trades →
    ((fallbackStatus state candle).isTerminal = true →
      fallbackPnl state candle ≤ tradesPnl state trades) ∧
    (fallbackStatus state candle = .tp1Reached ∨ fallbackStatus state candle = .tp2Completed →
      (runTrades state trades).status.isStoppedOut = false)

/-- The candles on which the fallback is optimistic. An entered position whose TP1 is
touched while the initial stop is not: the candle also reaches back to the breakeven
stop that TP1 installs, and not all of it lies beyond TP2. After TP1: a TP2 that lies
short of the breakeven stop, when the candle reaches beyond that stop. -/
def Optimistic (state : LifecycleState) (candle : Candle1m) : Prop :=
  candle.lowPrice ≤ candle.highPrice ∧
  ((state.status = .entered ∧
      toward state.direction state.stopLoss < toward state.direction (adverse state.direction candle) ∧
      toward state.direction state.takeProfit1 ≤
        toward state.direction (favourable state.direction candle) ∧
      toward state.direction (adverse state.direction candle) ≤
        toward state.direction (feeAdjustedBreakeven state) ∧
      toward state.direction (adverse state.direction candle) <
        toward state.direction state.takeProfit2) ∨
    (state.status = .tp1Reached ∧
      toward state.direction state.takeProfit2 <
        toward state.direction (feeAdjustedBreakeven state) ∧
      toward state.direction (feeAdjustedBreakeven state) <
        toward state.direction (favourable state.direction candle)))

instance (state : LifecycleState) (candle : Candle1m) : Decidable (Optimistic state candle) :=
  inferInstanceAs (Decidable (_ ∧ (_ ∨ _)))

/-! Runs of trades: one step by status, then what a whole sequence reaches. -/

theorem evaluateEvent_of_terminal {state : LifecycleState} (h : state.status.isTerminal = true)
    (event : MarketEvent) : evaluateEvent state event = [] := by
  have ha : state.status ≠ .active := by rintro hs; simp [hs, SignalStatus.isTerminal] at h
  have he : state.status ≠ .entered := by rintro hs; simp [hs, SignalStatus.isTerminal] at h
  have ht : state.status ≠ .tp1Reached := by rintro hs; simp [hs, SignalStatus.isTerminal] at h
  cases event with
  | trade t => exact evaluatePublicTrade_of_not_open t ha he ht
  | candle c => exact evaluateClosedCandle_of_not_open c ha he ht

theorem stepEvent_of_nil {state : LifecycleState} {event : MarketEvent}
    (h : evaluateEvent state event = []) : stepEvent state event = state := by
  simp [stepEvent, applyActions, h]

theorem runTrades_of_terminal {state : LifecycleState} (h : state.status.isTerminal = true)
    (trades : List PublicTrade) : runTrades state trades = state := by
  induction trades with
  | nil => rfl
  | cons t ts ih =>
    change runTrades (stepEvent state (.trade t)) ts = state
    rw [stepEvent_of_nil (evaluateEvent_of_terminal h _), ih]

theorem runTrades_append (state : LifecycleState) (ts us : List PublicTrade) :
    runTrades state (ts ++ us) = runTrades (runTrades state ts) us := by
  simp [runTrades, runEvents]

theorem bookings_append (state : LifecycleState) (es fs : List MarketEvent) :
    bookings state (es ++ fs) = bookings state es ++ bookings (runEvents state es) fs := by
  induction es generalizing state with
  | nil => rfl
  | cons e es ih => simp [bookings, ih, runEvents]

/-- An invariant of single steps holds after the whole sequence. -/
theorem runTrades_invariant {P : LifecycleState → Prop} {state : LifecycleState}
    (hd : StopDiscipline state) (trades : List PublicTrade) (h0 : P state)
    (hstep : ∀ s, SamePlan state s → StopDiscipline s → P s → ∀ t ∈ trades,
      P (stepEvent s (.trade t))) :
    SamePlan state (runTrades state trades) ∧ StopDiscipline (runTrades state trades) ∧
      P (runTrades state trades) := by
  induction trades using List.reverseRecOn with
  | nil => exact ⟨SamePlan.refl state, hd, h0⟩
  | append_singleton ts t ih =>
    obtain ⟨hsame, hdisc, hP⟩ := ih fun s hs hd hP u hu =>
      hstep s hs hd hP u (List.mem_append_left _ hu)
    rw [runTrades_append]
    exact ⟨hsame.trans (SamePlan.stepEvent _ _), hdisc.stepEvent _,
      hstep _ hsame hdisc hP t (List.mem_append_right _ (List.mem_singleton_self t))⟩

section OneTrade
variable {state : LifecycleState} {trade : PublicTrade} (hsym : trade.symbol = state.symbol)
include hsym

theorem stepTrade_entered (hs : state.status = .entered) :
    (stepEvent state (.trade trade)).status =
      if beyondStop state.direction state.currentStop trade.price then .stopped
      else if targetReached state.direction state.takeProfit2 trade.price then .tp2Completed
      else if targetReached state.direction state.takeProfit1 trade.price then .tp1Reached
      else .entered := by
  simp only [stepEvent, applyActions, evaluateEvent, evaluatePublicTrade, hsym, ne_eq,
    not_true_eq_false, if_false, hs, evaluateEntered]
  split_ifs <;> simp [LifecycleState.advance, hs, stoppedAction, tp1AndTp2, tp1Action, tp2Action]

theorem stepTrade_tp1Reached (hs : state.status = .tp1Reached) :
    (stepEvent state (.trade trade)).status =
      if beyondStop state.direction state.currentStop trade.price then .stoppedAtBreakeven
      else if targetReached state.direction state.takeProfit2 trade.price then .tp2Completed
      else .tp1Reached := by
  simp only [stepEvent, applyActions, evaluateEvent, evaluatePublicTrade, hsym, ne_eq,
    not_true_eq_false, if_false, hs, evaluateTp1Reached]
  split_ifs <;> simp [LifecycleState.advance, hs, breakevenAction, tp2Action]

end OneTrade

/-- The PnL of a run is a function of the status it ends in. -/
theorem tradesPnl_of_status {state : LifecycleState} (hd : StopDiscipline state)
    (hopen : state.status = .active ∨ state.status = .entered ∨ state.status = .tp1Reached)
    (trades : List PublicTrade) :
    match (runTrades state trades).status with
    | .stopped => tradesPnl state trades = (fullExit state state.stopLoss).1
    | .stoppedAtBreakeven =>
      tradesPnl state trades = (tp1ThenExit state (feeAdjustedBreakeven state)).1
    | .tp2Completed => tradesPnl state trades = (tp1ThenExit state state.takeProfit2).1
    | .active | .expired | .invalidated => tradesPnl state trades = 0
    | _ => True := by
  induction trades using List.reverseRecOn with
  | nil => rcases hopen with h | h | h <;> simp [runTrades, runEvents, h, tradesPnl, bookings,
      realizedPnl]
  | append_singleton ts t ih =>
    have hpnl : tradesPnl state (ts ++ [t]) = realizedPnl (bookings state (ts.map .trade) ++
        (evaluatePublicTrade (runTrades state ts) t).map (Prod.mk (runTrades state ts))) := by
      simp [tradesPnl, bookings_append, bookings, evaluateEvent, runTrades]
    obtain ⟨hsame, hdisc, -⟩ := runTrades_invariant (P := fun _ => True) hd ts trivial
      (fun _ _ _ _ _ _ => trivial)
    have hrun : runTrades state (ts ++ [t]) = applyActions (runTrades state ts) t.executedAt
        (evaluatePublicTrade (runTrades state ts) t) := by
      simp [runTrades, runEvents, stepEvent, evaluateEvent, MarketEvent.time]
    rw [hpnl, hrun]
    set s := runTrades state ts
    rcases evaluatePublicTrade_cases s t with h | ⟨hs, h⟩ | ⟨hs, h⟩ | ⟨hs, h⟩
    · simpa [h, applyActions, tradesPnl] using ih
    · rw [hs] at ih
      rcases h with h | h | h
      · simpa [h, applyActions, LifecycleState.advance, tradesPnl, realizedPnl] using ih
      · simpa [h, applyActions, LifecycleState.advance, tradesPnl, realizedPnl] using ih
      · simp [h, applyActions, LifecycleState.advance, enteredAction]
    · rcases h with h | h | h
      · simp [h, applyActions, LifecycleState.advance, stoppedAction, realizedPnl,
          hdisc.initial (Or.inr hs), hsame.fullExit_eq, hsame.stopLoss]
      · simp [h, applyActions, LifecycleState.advance, tp1AndTp2, tp1Action, tp2Action,
          realizedPnl, hsame.tp1ThenExit_eq, hsame.takeProfit2]
      · simp [h, applyActions, LifecycleState.advance, tp1Action]
    · rcases h with h | h
      · simp [h, applyActions, LifecycleState.advance, breakevenAction, realizedPnl,
          hdisc.breakeven hs, hsame.tp1ThenExit_eq, hsame.feeAdjustedBreakeven_eq]
      · simp [h, applyActions, LifecycleState.advance, tp2Action, realizedPnl,
          hsame.tp1ThenExit_eq, hsame.takeProfit2]

theorem stepTrade_of_active {state : LifecycleState} (hs : state.status = .active)
    (trade : PublicTrade) : (stepEvent state (.trade trade)).status = .active ∨
      (stepEvent state (.trade trade)).status = .expired ∨
      (stepEvent state (.trade trade)).status = .invalidated ∨
      (stepEvent state (.trade trade)).status = .entered := by
  rcases evaluatePublicTrade_cases state trade with h | ⟨-, h | h | h⟩ | ⟨hs', -⟩ | ⟨hs', -⟩
  · exact Or.inl (by rw [@stepEvent_of_nil state (.trade trade) h, hs])
  · exact Or.inr (Or.inl (by simp [stepEvent, applyActions, evaluateEvent, h,
      LifecycleState.advance]))
  · exact Or.inr (Or.inr (Or.inl (by simp [stepEvent, applyActions, evaluateEvent, h,
      LifecycleState.advance])))
  · exact Or.inr (Or.inr (Or.inr (by simp [stepEvent, applyActions, evaluateEvent, h,
      LifecycleState.advance, enteredAction])))
  · simp [hs] at hs'
  · simp [hs] at hs'

section Sequences
variable {state : LifecycleState} (hd : StopDiscipline state) {trades : List PublicTrade}
variable (hsym : ∀ t ∈ trades, t.symbol = state.symbol)
include hd hsym

/-- While no price comes back to a stop, nothing stops the signal out. -/
theorem run_not_stoppedOut (hstatus : state.status.isStoppedOut = false)
    (hstop : ∀ t ∈ trades, toward state.direction state.stopLoss < toward state.direction t.price)
    (hbreakeven : ∀ t ∈ trades,
      toward state.direction (feeAdjustedBreakeven state) < toward state.direction t.price) :
    (runTrades state trades).status.isStoppedOut = false := by
  refine (runTrades_invariant (P := fun s => s.status.isStoppedOut = false) hd trades hstatus
    ?_).2.2
  intro s hsame hdisc hs t ht
  have hts : t.symbol = s.symbol := (hsym t ht).trans hsame.symbol.symm
  by_cases he : s.status = .entered
  · have hno : ¬ beyondStop s.direction s.currentStop t.price = true := by
      rw [hdisc.initial (Or.inr he), hsame.stopLoss, hsame.direction, beyondStop_iff]
      exact not_le.mpr (hstop t ht)
    rw [stepTrade_entered hts he, if_neg hno]
    split_ifs <;> rfl
  by_cases hp : s.status = .tp1Reached
  · have hno : ¬ beyondStop s.direction s.currentStop t.price = true := by
      rw [hdisc.breakeven hp, hsame.feeAdjustedBreakeven_eq, hsame.direction, beyondStop_iff]
      exact not_le.mpr (hbreakeven t ht)
    rw [stepTrade_tp1Reached hts hp, if_neg hno]
    split_ifs <;> rfl
  by_cases ha : s.status = .active
  · rcases stepTrade_of_active ha t with h | h | h | h <;> rw [h] <;> rfl
  · rw [@stepEvent_of_nil s (.trade t) (evaluatePublicTrade_of_not_open t ha he hp)]
    exact hs

/-- Without a way back to a stop, reaching TP2 completes the signal. -/
theorem run_completes (hstatus : state.status = .entered ∨ state.status = .tp1Reached)
    (hstop : state.status = .entered →
      ∀ t ∈ trades, toward state.direction state.stopLoss < toward state.direction t.price)
    (hbreakeven : ∀ t ∈ trades,
      toward state.direction (feeAdjustedBreakeven state) < toward state.direction t.price)
    (hreach : ∃ t ∈ trades,
      toward state.direction state.takeProfit2 ≤ toward state.direction t.price) :
    (runTrades state trades).status = .tp2Completed := by
  obtain ⟨t, ht, hprice⟩ := hreach
  obtain ⟨before, after, rfl⟩ := List.append_of_mem ht
  have hinv := runTrades_invariant (P := fun s =>
    (s.status = .entered ∧ state.status = .entered) ∨ s.status = .tp1Reached ∨
      s.status = .tp2Completed) hd before
    (hstatus.imp (fun h => ⟨h, h⟩) Or.inl) (by
      intro s hsame hdisc hs u hu
      have hmem : u ∈ before ++ t :: after := List.mem_append_left _ hu
      have hus : u.symbol = s.symbol := (hsym u hmem).trans hsame.symbol.symm
      rcases hs with ⟨hs, hs0⟩ | hs | hs
      · have hno : ¬ beyondStop s.direction s.currentStop u.price = true := by
          rw [hdisc.initial (Or.inr hs), hsame.stopLoss, hsame.direction, beyondStop_iff]
          exact not_le.mpr (hstop hs0 u hmem)
        rw [stepTrade_entered hus hs, if_neg hno]
        split_ifs <;> simp [hs0]
      · have hno : ¬ beyondStop s.direction s.currentStop u.price = true := by
          rw [hdisc.breakeven hs, hsame.feeAdjustedBreakeven_eq, hsame.direction, beyondStop_iff]
          exact not_le.mpr (hbreakeven u hmem)
        rw [stepTrade_tp1Reached hus hs, if_neg hno]
        split_ifs <;> simp
      · rw [stepEvent_of_nil (evaluateEvent_of_terminal (by rw [hs]; rfl) _)]
        exact Or.inr (Or.inr hs))
  obtain ⟨hsame, hdisc, hP⟩ := hinv
  have hts : t.symbol = (runTrades state before).symbol := (hsym t ht).trans hsame.symbol.symm
  have hreached : targetReached (runTrades state before).direction
      (runTrades state before).takeProfit2 t.price = true := by
    rw [hsame.direction, hsame.takeProfit2, targetReached_iff]
    exact hprice
  have hdone : (stepEvent (runTrades state before) (.trade t)).status = .tp2Completed := by
    rcases hP with ⟨hs, hs0⟩ | hs | hs
    · have hno : ¬ beyondStop (runTrades state before).direction
          (runTrades state before).currentStop t.price = true := by
        rw [hdisc.initial (Or.inr hs), hsame.stopLoss, hsame.direction, beyondStop_iff]
        exact not_le.mpr (hstop hs0 t ht)
      rw [stepTrade_entered hts hs, if_neg hno, if_pos hreached]
    · have hno : ¬ beyondStop (runTrades state before).direction
          (runTrades state before).currentStop t.price = true := by
        rw [hdisc.breakeven hs, hsame.feeAdjustedBreakeven_eq, hsame.direction, beyondStop_iff]
        exact not_le.mpr (hbreakeven t ht)
      rw [stepTrade_tp1Reached hts hs, if_neg hno, if_pos hreached]
    · rw [stepEvent_of_nil (evaluateEvent_of_terminal (by rw [hs]; rfl) _), hs]
  rw [runTrades_append]
  change (runTrades (stepEvent (runTrades state before) (.trade t)) after).status = _
  rw [runTrades_of_terminal (by rw [hdone]; rfl), hdone]

/-- A first trade beyond TP2 fills both halves at once. -/
theorem run_completes_at_once (hs : state.status = .entered) (hne : trades ≠ [])
    (hstop : ∀ t ∈ trades, toward state.direction state.stopLoss < toward state.direction t.price)
    (hreach : ∀ t ∈ trades,
      toward state.direction state.takeProfit2 ≤ toward state.direction t.price) :
    (runTrades state trades).status = .tp2Completed := by
  obtain ⟨t, ts, rfl⟩ := List.exists_cons_of_ne_nil hne
  have ht := @List.mem_cons_self _ t ts
  have hno : ¬ beyondStop state.direction state.currentStop t.price = true := by
    rw [hd.initial (Or.inr hs), beyondStop_iff]
    exact not_le.mpr (hstop t ht)
  have hdone : (stepEvent state (.trade t)).status = .tp2Completed := by
    rw [stepTrade_entered (hsym t ht) hs, if_neg hno,
      if_pos ((targetReached_iff _ _ _).mpr (hreach t ht))]
  change (runTrades (stepEvent state (.trade t)) ts).status = _
  rw [runTrades_of_terminal (by rw [hdone]; rfl), hdone]

/-- After TP1 a trade at the breakeven stop ends the signal, if TP2 has not. -/
theorem run_after_tp1 (hs : state.status = .tp1Reached)
    (hback : ∃ t ∈ trades,
      toward state.direction t.price ≤ toward state.direction (feeAdjustedBreakeven state)) :
    (runTrades state trades).status = .stoppedAtBreakeven ∨
      ((runTrades state trades).status = .tp2Completed ∧ ∃ t ∈ trades,
        toward state.direction (feeAdjustedBreakeven state) < toward state.direction t.price ∧
        toward state.direction state.takeProfit2 ≤ toward state.direction t.price) := by
  obtain ⟨t, ht, hprice⟩ := hback
  obtain ⟨before, after, rfl⟩ := List.append_of_mem ht
  obtain ⟨hsame, hdisc, hP⟩ := runTrades_invariant (P := fun s =>
    s.status = .tp1Reached ∨ s.status = .stoppedAtBreakeven ∨
      (s.status = .tp2Completed ∧ ∃ u ∈ before ++ t :: after,
        toward state.direction (feeAdjustedBreakeven state) < toward state.direction u.price ∧
        toward state.direction state.takeProfit2 ≤ toward state.direction u.price)) hd before
    (Or.inl hs) (by
      intro s hsame hdisc hs u hu
      have hmem : u ∈ before ++ t :: after := List.mem_append_left _ hu
      have hus : u.symbol = s.symbol := (hsym u hmem).trans hsame.symbol.symm
      rcases hs with hs | hs | ⟨hs, hex⟩
      · rw [stepTrade_tp1Reached hus hs]
        split_ifs with hstop htarget
        · exact Or.inr (Or.inl rfl)
        · rw [hdisc.breakeven hs, hsame.feeAdjustedBreakeven_eq, hsame.direction,
            beyondStop_iff, not_le] at hstop
          rw [hsame.direction, hsame.takeProfit2, targetReached_iff] at htarget
          exact Or.inr (Or.inr ⟨rfl, u, hmem, hstop, htarget⟩)
        · exact Or.inl rfl
      · rw [stepEvent_of_nil (evaluateEvent_of_terminal (by rw [hs]; rfl) _)]
        exact Or.inr (Or.inl hs)
      · rw [stepEvent_of_nil (evaluateEvent_of_terminal (by rw [hs]; rfl) _)]
        exact Or.inr (Or.inr ⟨hs, hex⟩))
  have hts : t.symbol = (runTrades state before).symbol := (hsym t ht).trans hsame.symbol.symm
  rw [runTrades_append]
  change (runTrades (stepEvent (runTrades state before) (.trade t)) after).status = _ ∨
    (runTrades (stepEvent (runTrades state before) (.trade t)) after).status = _ ∧ _
  rcases hP with hs' | hs' | ⟨hs', hex⟩
  · have hyes : beyondStop (runTrades state before).direction
        (runTrades state before).currentStop t.price = true := by
      rw [hdisc.breakeven hs', hsame.feeAdjustedBreakeven_eq, hsame.direction, beyondStop_iff]
      exact hprice
    have hdone := stepTrade_tp1Reached hts hs'
    rw [if_pos hyes] at hdone
    rw [runTrades_of_terminal (by rw [hdone]; rfl)]
    exact Or.inl hdone
  · rw [stepEvent_of_nil (evaluateEvent_of_terminal (by rw [hs']; rfl) _),
      runTrades_of_terminal (by rw [hs']; rfl)]
    exact Or.inl hs'
  · rw [stepEvent_of_nil (evaluateEvent_of_terminal (by rw [hs']; rfl) _),
      runTrades_of_terminal (by rw [hs']; rfl)]
    exact Or.inr ⟨hs', hex⟩

omit hsym in
/-- A waiting signal whose zone is never touched books nothing. -/
theorem run_unfilled (hs : state.status = .active)
    (hzone : ∀ t ∈ trades, ¬ (state.entryLower ≤ t.price ∧ t.price ≤ state.entryUpper)) :
    tradesPnl state trades = 0 := by
  have hstatus := (runTrades_invariant (P := fun s =>
    s.status = .active ∨ s.status = .expired ∨ s.status = .invalidated) hd trades (Or.inl hs) (by
      intro s hsame _ hs t ht
      rcases hs with hs | hs | hs
      · rcases evaluatePublicTrade_cases s t with h | ⟨-, h | h | h⟩ | ⟨hs', -⟩ | ⟨hs', -⟩
        · rw [@stepEvent_of_nil s (.trade t) h]
          exact Or.inl hs
        · simp [stepEvent, applyActions, evaluateEvent, h, LifecycleState.advance]
        · simp [stepEvent, applyActions, evaluateEvent, h, LifecycleState.advance]
        · exfalso
          have hz := hzone t ht
          rw [← hsame.entryLower, ← hsame.entryUpper] at hz
          simp only [evaluatePublicTrade, hs, evaluateActive, hz, if_false] at h
          split_ifs at h <;> simp [enteredAction] at h
        · simp [hs] at hs'
        · simp [hs] at hs'
      · rw [stepEvent_of_nil (evaluateEvent_of_terminal (by rw [hs]; rfl) _)]
        exact Or.inr (Or.inl hs)
      · rw [stepEvent_of_nil (evaluateEvent_of_terminal (by rw [hs]; rfl) _)]
        exact Or.inr (Or.inr hs))).2.2
  have hpnl := tradesPnl_of_status hd (Or.inl hs) trades
  rcases hstatus with h | h | h <;> simpa [h] using hpnl

end Sequences

/-! What the fallback itself decides. -/

section Fallback
variable {state : LifecycleState} {candle : Candle1m}
variable (hopen : OpenState state) (hsym : candle.symbol = state.symbol)

theorem fallbackPnl_eq (state : LifecycleState) (candle : Candle1m) :
    fallbackPnl state candle =
      realizedPnl ((evaluateClosedCandle state candle).map (Prod.mk state)) := by
  simp [fallbackPnl, bookings, evaluateEvent]

theorem fallbackStatus_eq (state : LifecycleState) (candle : Candle1m) :
    fallbackStatus state candle = (applyActions state (candle.openTime + oneMinute)
      (evaluateClosedCandle state candle)).status := rfl

include hopen hsym

/-- An entered signal whose stop is in the candle books the full stop-out. -/
theorem fallback_entered_stop (hs : state.status = .entered)
    (hstop : toward state.direction (adverse state.direction candle) ≤
      toward state.direction state.stopLoss) :
    fallbackPnl state candle = (fullExit state state.stopLoss).1 ∧
      (fallbackStatus state candle = .ambiguous ∨ fallbackStatus state candle = .stopped) := by
  have hcur := hopen.discipline.initial (Or.inr hs)
  have htouch : touchesStop state.direction state.currentStop candle.lowPrice candle.highPrice =
      true := by rw [hcur]; exact (touchesStop_iff _ _ _).mpr hstop
  have heval := evaluate_synthetic_stop hsym hs
  rw [fallbackPnl_eq, fallbackStatus_eq]
  simp only [evaluateClosedCandle, hsym, ne_eq, not_true_eq_false, if_false, hs,
    closedCandleEntered, htouch, Bool.true_and]
  split_ifs with htarget
  · rw [heval]
    simp [realizedPnl, applyActions, LifecycleState.advance, stoppedAction, hcur]
  · rw [heval]
    simp [realizedPnl, applyActions, LifecycleState.advance, stoppedAction, hcur]

theorem fallback_entered_no_stop (hs : state.status = .entered)
    (hstop : toward state.direction state.stopLoss <
      toward state.direction (adverse state.direction candle)) :
    fallbackStatus state candle =
      (if toward state.direction state.takeProfit2 ≤
          toward state.direction (favourable state.direction candle) then .tp2Completed
        else if toward state.direction state.takeProfit1 ≤
          toward state.direction (favourable state.direction candle) then .tp1Reached
        else .entered) ∧
    (toward state.direction state.takeProfit2 ≤
          toward state.direction (favourable state.direction candle) →
      fallbackPnl state candle = (tp1ThenExit state state.takeProfit2).1) := by
  have hcur := hopen.discipline.initial (Or.inr hs)
  have hzone := hopen.levels.stop_lt_zone _ hopen.levels.planned_mem.1 hopen.levels.planned_mem.2
  have htarget := hopen.levels.zone_lt_target _ hopen.levels.planned_mem.1
    hopen.levels.planned_mem.2
  have htargets := hopen.levels.targets_lt
  have htouch : touchesStop state.direction state.currentStop candle.lowPrice candle.highPrice =
      false := by
    rw [hcur, Bool.eq_false_iff, ne_eq, touchesStop_iff]
    exact not_le.mpr hstop
  have hno1 : beyondStop state.direction state.stopLoss state.takeProfit1 = false := by
    rw [Bool.eq_false_iff, ne_eq, beyondStop_iff]
    linarith
  have hno2 : beyondStop state.direction state.stopLoss state.takeProfit2 = false := by
    rw [Bool.eq_false_iff, ne_eq, beyondStop_iff]
    linarith
  have hbefore : targetReached state.direction state.takeProfit2 state.takeProfit1 = false := by
    rw [Bool.eq_false_iff, ne_eq, targetReached_iff]
    linarith
  have heval2 : evaluatePublicTrade state (syntheticTrade candle state.takeProfit2) =
      tp1AndTp2 state := by
    simp [evaluatePublicTrade, hsym, hs, evaluateEntered, hcur, hno2]
  have heval1 : evaluatePublicTrade state (syntheticTrade candle state.takeProfit1) =
      [tp1Action state] := by
    simp [evaluatePublicTrade, hsym, hs, evaluateEntered, hcur, hno1, hbefore]
  rw [fallbackPnl_eq, fallbackStatus_eq]
  simp only [evaluateClosedCandle, hsym, ne_eq, not_true_eq_false, if_false, hs,
    closedCandleEntered, htouch, Bool.false_and, Bool.false_eq_true, heval1, heval2,
    touchesTarget_iff]
  constructor
  · split_ifs <;> simp [applyActions, LifecycleState.advance, tp1AndTp2, tp1Action, tp2Action, hs]
  · intro hreach
    simp [hreach, realizedPnl, tp1AndTp2, tp1Action, tp2Action]

/-- After TP1 a candle that reaches back to the breakeven stop is booked there. -/
theorem fallback_tp1_stop (hs : state.status = .tp1Reached)
    (hstop : toward state.direction (adverse state.direction candle) ≤
      toward state.direction (feeAdjustedBreakeven state)) :
    fallbackPnl state candle = (tp1ThenExit state (feeAdjustedBreakeven state)).1 ∧
      (fallbackStatus state candle = .ambiguous ∨
        fallbackStatus state candle = .stoppedAtBreakeven) := by
  have hcur := hopen.discipline.breakeven hs
  have htouch : touchesStop state.direction state.currentStop candle.lowPrice candle.highPrice =
      true := by rw [hcur]; exact (touchesStop_iff _ _ _).mpr hstop
  have heval := evaluate_synthetic_breakeven hsym hs
  rw [fallbackPnl_eq, fallbackStatus_eq]
  simp only [evaluateClosedCandle, hsym, ne_eq, not_true_eq_false, if_false, hs,
    closedCandleTp1Reached, htouch, Bool.true_and]
  split_ifs with htarget
  · rw [heval]
    simp [realizedPnl, applyActions, LifecycleState.advance, breakevenAction, hcur]
  · rw [heval]
    simp [realizedPnl, applyActions, LifecycleState.advance, breakevenAction, hcur]

theorem fallback_tp1_no_stop (hs : state.status = .tp1Reached)
    (hstop : toward state.direction (feeAdjustedBreakeven state) <
      toward state.direction (adverse state.direction candle)) :
    (¬ toward state.direction state.takeProfit2 ≤
        toward state.direction (favourable state.direction candle) ∧
      fallbackStatus state candle = .tp1Reached) ∨
    (toward state.direction state.takeProfit2 ≤
        toward state.direction (favourable state.direction candle) ∧
      toward state.direction state.takeProfit2 ≤
        toward state.direction (feeAdjustedBreakeven state) ∧
      fallbackStatus state candle = .stoppedAtBreakeven ∧
      fallbackPnl state candle = (tp1ThenExit state (feeAdjustedBreakeven state)).1) ∨
    (toward state.direction state.takeProfit2 ≤
        toward state.direction (favourable state.direction candle) ∧
      toward state.direction (feeAdjustedBreakeven state) <
        toward state.direction state.takeProfit2 ∧
      fallbackStatus state candle = .tp2Completed ∧
      fallbackPnl state candle = (tp1ThenExit state state.takeProfit2).1) := by
  have hcur := hopen.discipline.breakeven hs
  have htouch : touchesStop state.direction state.currentStop candle.lowPrice candle.highPrice =
      false := by
    rw [hcur, Bool.eq_false_iff, ne_eq, touchesStop_iff]
    exact not_le.mpr hstop
  rw [fallbackPnl_eq, fallbackStatus_eq]
  simp only [evaluateClosedCandle, hsym, ne_eq, not_true_eq_false, if_false, hs,
    closedCandleTp1Reached, htouch, Bool.false_and, Bool.false_eq_true, touchesTarget_iff]
  by_cases hreach : toward state.direction state.takeProfit2 ≤
      toward state.direction (favourable state.direction candle)
  · rw [if_pos hreach]
    by_cases hshort : toward state.direction state.takeProfit2 ≤
        toward state.direction (feeAdjustedBreakeven state)
    · have hb := (beyondStop_iff _ _ _).mpr hshort
      refine Or.inr (Or.inl ⟨hreach, hshort, ?_⟩)
      simp [evaluatePublicTrade, hsym, hs, evaluateTp1Reached, hb, applyActions,
        LifecycleState.advance, breakevenAction, realizedPnl, hcur]
    · have hb : beyondStop state.direction state.currentStop state.takeProfit2 = false := by
        rw [Bool.eq_false_iff, ne_eq, beyondStop_iff, hcur]
        exact hshort
      refine Or.inr (Or.inr ⟨hreach, not_le.mp hshort, ?_⟩)
      simp [evaluatePublicTrade, hsym, hs, evaluateTp1Reached, hb, applyActions,
        LifecycleState.advance, tp2Action, realizedPnl]
  · rw [if_neg hreach]
    exact Or.inl ⟨hreach, by simp [applyActions, hs]⟩

end Fallback

namespace OpenState
variable {state : LifecycleState} (hopen : OpenState state)
include hopen

/-- The breakeven stop lies beyond the initial one. -/
theorem stop_lt_breakeven : toward state.direction state.stopLoss <
    toward state.direction (feeAdjustedBreakeven state) := by
  have hzone := hopen.levels.stop_lt_zone _ hopen.levels.planned_mem.1 hopen.levels.planned_mem.2
  have hstrict : halfLeg state state.stopLoss < halfLeg state state.plannedEntry :=
    hopen.funded.halfLeg_strictMono (by rw [signedMove_eq_toward]; linarith)
  have hfee := hopen.funded.halfEntryFee_nonneg
  rw [halfLeg_entry] at hstrict
  by_contra hle
  have hback : halfLeg state (feeAdjustedBreakeven state) ≤ halfLeg state state.stopLoss :=
    hopen.funded.halfLeg_mono (by rw [signedMove_eq_toward]; linarith [not_lt.mp hle])
  rw [hopen.funded.halfLeg_breakeven] at hback
  linarith

theorem fullExit_stop_nonpos : (fullExit state state.stopLoss).1 ≤ 0 := by
  have hstop := hopen.funded.fullExit_stop_le_entry hopen.levels.directed.stop
  have hfee := hopen.funded.halfEntryFee_nonneg
  rw [fullExit_eq_legs]
  linarith

theorem stop_le_tradesPnl (trades : List PublicTrade) :
    (fullExit state state.stopLoss).1 ≤ tradesPnl state trades := by
  unfold tradesPnl realizedPnl
  cases hlast : ((bookings state (trades.map .trade)).filterMap (·.2.realizedPnl)).getLast? with
  | none => exact hopen.fullExit_stop_nonpos
  | some pnl =>
    obtain ⟨⟨decided, action⟩, hmem, hpnl⟩ := List.mem_filterMap.mp (List.mem_of_getLast? hlast)
    obtain ⟨hsame, hb⟩ := bookings_spec hopen.discipline _ hmem
    have hle := hb.stop_le_pnl (hopen.funded.samePlan hsame)
      (hopen.levels.directed.samePlan hsame) hpnl
    rwa [hsame.fullExit_eq, hsame.stopLoss] at hle

end OpenState

namespace Consistent
variable {candle : Candle1m} {trades : List PublicTrade} (h : Consistent candle trades)
variable (direction : TradeDirection)
include h

theorem between : ∀ t ∈ trades,
    toward direction (adverse direction candle) ≤ toward direction t.price ∧
      toward direction t.price ≤ toward direction (favourable direction candle) := by
  intro t ht
  have hr := h.range t ht
  cases direction with
  | long => exact hr
  | short => exact ⟨neg_le_neg hr.2, neg_le_neg hr.1⟩

theorem reaches_adverse : ∃ t ∈ trades, t.price = adverse direction candle := by
  cases direction with
  | long => exact h.low
  | short => exact h.high

theorem reaches_favourable : ∃ t ∈ trades, t.price = favourable direction candle := by
  cases direction with
  | long => exact h.high
  | short => exact h.low

omit direction in
theorem low_le_high : candle.lowPrice ≤ candle.highPrice := by
  obtain ⟨t, ht, -⟩ := h.low
  exact (h.range t ht).1.trans (h.range t ht).2

theorem adverse_le_favourable : toward direction (adverse direction candle) ≤
    toward direction (favourable direction candle) := by
  obtain ⟨t, ht, -⟩ := h.low
  have := h.between direction t ht
  linarith

end Consistent

section Sufficient
variable {state : LifecycleState} {candle : Candle1m} {trades : List PublicTrade}
variable (hopen : OpenState state) (hsym : candle.symbol = state.symbol)
variable (hcons : Consistent candle trades)
include hopen hsym hcons

theorem conservative_of_active (hs : state.status = .active)
    (hexp : candle.openTime + oneMinute ≤ state.expiresAt) :
    ((fallbackStatus state candle).isTerminal = true →
      fallbackPnl state candle ≤ tradesPnl state trades) ∧
    (fallbackStatus state candle = .tp1Reached ∨ fallbackStatus state candle = .tp2Completed →
      (runTrades state trades).status.isStoppedOut = false) := by
  have hwithin : ¬ (candle.openTime ≥ state.expiresAt ∨
      candle.openTime + oneMinute > state.expiresAt) := by
    unfold oneMinute at *
    omega
  have hcur := hopen.discipline.initial (Or.inl hs)
  rw [fallbackPnl_eq, fallbackStatus_eq]
  simp only [evaluateClosedCandle, hsym, ne_eq, not_true_eq_false, if_false, hs,
    closedCandleActive, hwithin]
  split_ifs with hzone hstop hstop
  · -- the zone is out of reach: neither side can have booked anything
    have hpnl := @run_unfilled _ hopen.discipline trades hs (by
      intro t ht hin
      have hr := hcons.range t ht
      simp only [touchesEntry, Bool.not_eq_true', decide_eq_false_iff_not, not_and, not_le] at hzone
      have := hzone (hr.1.trans hin.2)
      linarith [hin.1, hr.2])
    rw [hpnl]
    simp [realizedPnl, applyActions, LifecycleState.advance]
  · simp [applyActions, hs, SignalStatus.isTerminal]
  · have heval : evaluatePublicTrade { state with status := .entered }
        (syntheticTrade candle state.stopLoss) =
          [stoppedAction { state with status := .entered }] := by
      rw [← hcur]
      exact @evaluate_synthetic_stop { state with status := .entered } candle hsym rfl
    have hle := hopen.stop_le_tradesPnl trades
    rw [heval]
    refine ⟨fun _ => ?_, by simp [applyActions, LifecycleState.advance]⟩
    simpa [realizedPnl, stoppedAction, fullExit, hcur] using hle
  · have hno : beyondStop state.direction state.stopLoss state.plannedEntry = false := by
      rw [Bool.eq_false_iff, ne_eq, beyondStop_iff, not_le]
      exact hopen.levels.stop_lt_zone _ hopen.levels.planned_mem.1 hopen.levels.planned_mem.2
    have hbefore : ¬ candle.openTime + oneMinute - oneMicrosecond ≥ state.expiresAt := by
      unfold oneMicrosecond
      omega
    simp [evaluatePublicTrade, hsym, hs, evaluateActive, hno, hopen.levels.planned_mem, hbefore,
      applyActions, LifecycleState.advance, enteredAction, SignalStatus.isTerminal]

theorem conservative_of_entered (hs : state.status = .entered) (hfair : ¬ Optimistic state candle) :
    ((fallbackStatus state candle).isTerminal = true →
      fallbackPnl state candle ≤ tradesPnl state trades) ∧
    (fallbackStatus state candle = .tp1Reached ∨ fallbackStatus state candle = .tp2Completed →
      (runTrades state trades).status.isStoppedOut = false) := by
  have hts : ∀ t ∈ trades, t.symbol = state.symbol := fun t ht => (hcons.symbol t ht).trans hsym
  have hbetween := hcons.between state.direction
  by_cases hstop : toward state.direction (adverse state.direction candle) ≤
      toward state.direction state.stopLoss
  · obtain ⟨hpnl, hstatus⟩ := fallback_entered_stop hopen hsym hs hstop
    refine ⟨fun _ => hpnl ▸ hopen.stop_le_tradesPnl trades, ?_⟩
    rcases hstatus with h | h <;> simp [h]
  rw [not_le] at hstop
  have habove : ∀ t ∈ trades,
      toward state.direction state.stopLoss < toward state.direction t.price :=
    fun t ht => hstop.trans_le (hbetween t ht).1
  obtain ⟨hstatus, hpnl⟩ := fallback_entered_no_stop hopen hsym hs hstop
  by_cases hreach2 : toward state.direction state.takeProfit2 ≤
      toward state.direction (favourable state.direction candle)
  · have hreach1 := hopen.levels.targets_lt.le.trans hreach2
    have hdone : (runTrades state trades).status = .tp2Completed := by
      by_cases hback : toward state.direction (adverse state.direction candle) ≤
          toward state.direction (feeAdjustedBreakeven state)
      · -- the candle reaches back to breakeven, so all of it must lie beyond TP2
        have hbeyond : toward state.direction state.takeProfit2 ≤
            toward state.direction (adverse state.direction candle) := by
          by_contra hlt
          exact hfair ⟨hcons.low_le_high, Or.inl ⟨hs, hstop, hreach1, hback, not_le.mp hlt⟩⟩
        obtain ⟨t, ht, -⟩ := hcons.low
        exact run_completes_at_once hopen.discipline hts hs (List.ne_nil_of_mem ht) habove
          fun u hu => hbeyond.trans (hbetween u hu).1
      · obtain ⟨t, ht, hprice⟩ := hcons.reaches_favourable state.direction
        exact run_completes hopen.discipline hts (Or.inl hs) (fun _ => habove)
          (fun u hu => (not_le.mp hback).trans_le (hbetween u hu).1)
          ⟨t, ht, by rw [hprice]; exact hreach2⟩
    have htrades := tradesPnl_of_status hopen.discipline (Or.inr (Or.inl hs)) trades
    rw [hdone] at htrades
    exact ⟨fun _ => le_of_eq ((hpnl hreach2).trans htrades.symm), fun _ => by rw [hdone]; rfl⟩
  · rw [if_neg hreach2] at hstatus
    by_cases hreach1 : toward state.direction state.takeProfit1 ≤
        toward state.direction (favourable state.direction candle)
    · rw [if_pos hreach1] at hstatus
      have hclear : toward state.direction (feeAdjustedBreakeven state) <
          toward state.direction (adverse state.direction candle) := by
        by_contra hback
        exact hfair ⟨hcons.low_le_high, Or.inl ⟨hs, hstop, hreach1, not_lt.mp hback,
          (hcons.adverse_le_favourable state.direction).trans_lt (not_le.mp hreach2)⟩⟩
      refine ⟨fun h => by simp [hstatus, SignalStatus.isTerminal] at h, fun _ => ?_⟩
      exact run_not_stoppedOut hopen.discipline hts (by rw [hs]; rfl) habove
        fun t ht => hclear.trans_le (hbetween t ht).1
    · rw [if_neg hreach1] at hstatus
      simp [hstatus, SignalStatus.isTerminal]

theorem conservative_of_tp1Reached (hs : state.status = .tp1Reached)
    (hfair : ¬ Optimistic state candle) :
    ((fallbackStatus state candle).isTerminal = true →
      fallbackPnl state candle ≤ tradesPnl state trades) ∧
    (fallbackStatus state candle = .tp1Reached ∨ fallbackStatus state candle = .tp2Completed →
      (runTrades state trades).status.isStoppedOut = false) := by
  have hts : ∀ t ∈ trades, t.symbol = state.symbol := fun t ht => (hcons.symbol t ht).trans hsym
  have hbetween := hcons.between state.direction
  have hends := hcons.adverse_le_favourable state.direction
  have htrades := tradesPnl_of_status hopen.discipline (Or.inr (Or.inr hs)) trades
  -- beyond the breakeven stop, TP2 never lies short of it
  have hfar : toward state.direction (feeAdjustedBreakeven state) <
      toward state.direction (favourable state.direction candle) →
      toward state.direction (feeAdjustedBreakeven state) ≤
        toward state.direction state.takeProfit2 := by
    intro hbeyond
    by_contra hlt
    exact hfair ⟨hcons.low_le_high, Or.inr ⟨hs, not_le.mp hlt, hbeyond⟩⟩
  by_cases hstop : toward state.direction (adverse state.direction candle) ≤
      toward state.direction (feeAdjustedBreakeven state)
  · obtain ⟨hpnl, hstatus⟩ := fallback_tp1_stop hopen hsym hs hstop
    refine ⟨fun _ => ?_, ?_⟩
    · obtain ⟨t, ht, hprice⟩ := hcons.reaches_adverse state.direction
      rcases run_after_tp1 hopen.discipline hts hs ⟨t, ht, by rw [hprice]; exact hstop⟩ with
        hend | ⟨hend, u, hu, hbeyond, -⟩
      · rw [hend] at htrades
        exact le_of_eq (hpnl.trans htrades.symm)
      · rw [hend] at htrades
        have hmono : halfLeg state (feeAdjustedBreakeven state) ≤
            halfLeg state state.takeProfit2 := hopen.funded.halfLeg_mono (by
          rw [signedMove_eq_toward]
          linarith [hfar (hbeyond.trans_le (hbetween u hu).2)])
        rw [hpnl, htrades, tp1ThenExit_eq_legs, tp1ThenExit_eq_legs]
        linarith
    · rcases hstatus with h | h <;> simp [h]
  rw [not_le] at hstop
  have hclear : ∀ t ∈ trades,
      toward state.direction (feeAdjustedBreakeven state) < toward state.direction t.price :=
    fun t ht => hstop.trans_le (hbetween t ht).1
  have hdone : toward state.direction state.takeProfit2 ≤
      toward state.direction (favourable state.direction candle) →
      (runTrades state trades).status = .tp2Completed := by
    intro hreach
    obtain ⟨t, ht, hprice⟩ := hcons.reaches_favourable state.direction
    exact run_completes hopen.discipline hts (Or.inr hs) (fun h => by simp [hs] at h) hclear
      ⟨t, ht, by rw [hprice]; exact hreach⟩
  rcases fallback_tp1_no_stop hopen hsym hs hstop with ⟨-, hstatus⟩ |
    ⟨hreach, hshort, hstatus, hpnl⟩ | ⟨hreach, -, hstatus, hpnl⟩
  · refine ⟨fun h => by simp [hstatus, SignalStatus.isTerminal] at h, fun _ => ?_⟩
    exact run_not_stoppedOut hopen.discipline hts (by rw [hs]; rfl)
      (fun t ht => hopen.stop_lt_breakeven.trans (hclear t ht)) hclear
  · rw [hdone hreach] at htrades
    have heq : toward state.direction state.takeProfit2 =
        toward state.direction (feeAdjustedBreakeven state) :=
      le_antisymm hshort (hfar (hstop.trans_le hends))
    have hmono : halfLeg state (feeAdjustedBreakeven state) ≤ halfLeg state state.takeProfit2 :=
      hopen.funded.halfLeg_mono (by rw [signedMove_eq_toward]; linarith)
    refine ⟨fun _ => ?_, by simp [hstatus]⟩
    rw [hpnl, htrades, tp1ThenExit_eq_legs, tp1ThenExit_eq_legs]
    linarith
  · rw [hdone hreach] at htrades
    exact ⟨fun _ => le_of_eq (hpnl.trans htrades.symm), fun _ => by rw [hdone hreach]; rfl⟩

end Sufficient

/-! The optimistic candles really are: an ordered sequence that shows it for each. -/

/-- The `k`-th microsecond's trade of a candle, at a given price. -/
def tradeAt (candle : Candle1m) (k : Nat) (price : ℚ) : PublicTrade where
  tradeId := ""
  symbol := candle.symbol
  price := price
  size := 1
  side := .buy
  executedAt := candle.openTime + k
  sequence := k

theorem consistent_tradeAt {candle : Candle1m} (direction : TradeDirection) (prices : List ℚ)
    (hlen : prices.length ≤ 3)
    (hrange : ∀ p ∈ prices, candle.lowPrice ≤ p ∧ p ≤ candle.highPrice)
    (hadverse : adverse direction candle ∈ prices)
    (hfavourable : favourable direction candle ∈ prices) :
    Consistent candle (prices.mapIdx (tradeAt candle)) := by
  have hmem : ∀ p ∈ prices, ∃ t ∈ prices.mapIdx (tradeAt candle), t.price = p := by
    intro p hp
    obtain ⟨i, hi, rfl⟩ := List.mem_iff_getElem.mp hp
    exact ⟨_, List.mem_mapIdx.mpr ⟨i, hi, rfl⟩, rfl⟩
  have hends : candle.lowPrice ∈ prices ∧ candle.highPrice ∈ prices := by
    cases direction with
    | long => exact ⟨hadverse, hfavourable⟩
    | short => exact ⟨hfavourable, hadverse⟩
  refine ⟨?_, ?_, ?_, hmem _ hends.1, hmem _ hends.2⟩
  · intro t ht
    obtain ⟨i, hi, rfl⟩ := List.mem_mapIdx.mp ht
    rfl
  · intro t ht
    obtain ⟨i, hi, rfl⟩ := List.mem_mapIdx.mp ht
    simp only [tradeAt, oneMinute]
    omega
  · intro t ht
    obtain ⟨i, hi, rfl⟩ := List.mem_mapIdx.mp ht
    exact hrange _ (List.getElem_mem hi)

theorem range_of_toward {candle : Candle1m} (direction : TradeDirection) {price : ℚ}
    (hlow : toward direction (adverse direction candle) ≤ toward direction price)
    (hhigh : toward direction price ≤ toward direction (favourable direction candle)) :
    candle.lowPrice ≤ price ∧ price ≤ candle.highPrice := by
  cases direction with
  | long => exact ⟨hlow, hhigh⟩
  | short => exact ⟨neg_le_neg_iff.mp hhigh, neg_le_neg_iff.mp hlow⟩

section Necessary
variable {state : LifecycleState} {candle : Candle1m}
variable (hopen : OpenState state) (hsym : candle.symbol = state.symbol)
include hopen hsym

/-- TP1 first, then back to the breakeven stop, then the rest of the candle. -/
theorem optimistic_entered (hs : state.status = .entered)
    (hstop : toward state.direction state.stopLoss <
      toward state.direction (adverse state.direction candle))
    (hreach : toward state.direction state.takeProfit1 ≤
      toward state.direction (favourable state.direction candle))
    (hback : toward state.direction (adverse state.direction candle) ≤
      toward state.direction (feeAdjustedBreakeven state))
    (hshort : toward state.direction (adverse state.direction candle) <
      toward state.direction state.takeProfit2)
    (hrange : toward state.direction (adverse state.direction candle) ≤
      toward state.direction (favourable state.direction candle)) :
    ¬ Conservative state candle := by
  intro hcons
  obtain ⟨first, htp1, htp2, hlow, hhigh⟩ : ∃ first : ℚ,
      toward state.direction state.takeProfit1 ≤ toward state.direction first ∧
      toward state.direction first < toward state.direction state.takeProfit2 ∧
      toward state.direction (adverse state.direction candle) ≤ toward state.direction first ∧
      toward state.direction first ≤ toward state.direction (favourable state.direction candle) := by
    rcases le_total (toward state.direction state.takeProfit1)
      (toward state.direction (adverse state.direction candle)) with h | h
    · exact ⟨adverse state.direction candle, h, hshort, le_rfl, hrange⟩
    · exact ⟨state.takeProfit1, le_rfl, hopen.levels.targets_lt, h, hreach⟩
  have hsequence := @consistent_tradeAt candle state.direction
    [first, adverse state.direction candle, favourable state.direction candle] (by simp)
    (by
      intro p hp
      simp only [List.mem_cons, List.not_mem_nil, or_false] at hp
      rcases hp with rfl | rfl | rfl
      · exact range_of_toward state.direction hlow hhigh
      · exact range_of_toward state.direction le_rfl hrange
      · exact range_of_toward state.direction hrange le_rfl)
    (by simp) (by simp)
  obtain ⟨-, hsafe⟩ := hcons _ hsequence
  have hstatus : fallbackStatus state candle = .tp1Reached ∨
      fallbackStatus state candle = .tp2Completed := by
    rw [(fallback_entered_no_stop hopen hsym hs hstop).1, if_pos hreach]
    split_ifs <;> simp
  have hstopped : (runTrades state ([first, adverse state.direction candle,
      favourable state.direction candle].mapIdx (tradeAt candle))).status =
        .stoppedAtBreakeven := by
    have hno : ¬ beyondStop state.direction state.currentStop
        (tradeAt candle 0 first).price = true := by
      rw [hopen.discipline.initial (Or.inr hs), beyondStop_iff]
      exact not_le.mpr (hstop.trans_le hlow)
    have hno2 : ¬ targetReached state.direction state.takeProfit2
        (tradeAt candle 0 first).price = true := by
      rw [targetReached_iff]
      exact not_le.mpr htp2
    have hyes : targetReached state.direction state.takeProfit1
        (tradeAt candle 0 first).price = true := (targetReached_iff _ _ _).mpr htp1
    have h1 : (stepEvent state (.trade (tradeAt candle 0 first))).status = .tp1Reached := by
      rw [stepTrade_entered hsym hs, if_neg hno, if_neg hno2, if_pos hyes]
    have hsame := SamePlan.stepEvent state (.trade (tradeAt candle 0 first))
    have hdisc := hopen.discipline.stepEvent (.trade (tradeAt candle 0 first))
    have h2 : (stepEvent (stepEvent state (.trade (tradeAt candle 0 first)))
        (.trade (tradeAt candle 1 (adverse state.direction candle)))).status =
          .stoppedAtBreakeven := by
      rw [stepTrade_tp1Reached (hsym.trans hsame.symbol.symm) h1, if_pos]
      rw [hdisc.breakeven h1, hsame.feeAdjustedBreakeven_eq, hsame.direction, beyondStop_iff]
      exact hback
    change (runTrades (stepEvent (stepEvent state (.trade (tradeAt candle 0 first)))
      (.trade (tradeAt candle 1 (adverse state.direction candle)))) _).status = _
    rw [runTrades_of_terminal (by rw [h2]; rfl), h2]
  have := hsafe hstatus
  rw [hstopped] at this
  exact Bool.noConfusion this

/-- After TP1 with a TP2 short of breakeven: the far end first completes at TP2. -/
theorem optimistic_tp1Reached (hs : state.status = .tp1Reached)
    (hshort : toward state.direction state.takeProfit2 <
      toward state.direction (feeAdjustedBreakeven state))
    (hbeyond : toward state.direction (feeAdjustedBreakeven state) <
      toward state.direction (favourable state.direction candle))
    (hrange : toward state.direction (adverse state.direction candle) ≤
      toward state.direction (favourable state.direction candle)) :
    ¬ Conservative state candle := by
  intro hcons
  have hsequence := @consistent_tradeAt candle state.direction
    [favourable state.direction candle, adverse state.direction candle] (by simp)
    (by
      intro p hp
      simp only [List.mem_cons, List.not_mem_nil, or_false] at hp
      rcases hp with rfl | rfl
      · exact range_of_toward state.direction hrange le_rfl
      · exact range_of_toward state.direction le_rfl hrange)
    (by simp) (by simp)
  obtain ⟨hbelow, -⟩ := hcons _ hsequence
  have hpnl : fallbackPnl state candle = (tp1ThenExit state (feeAdjustedBreakeven state)).1 ∧
      (fallbackStatus state candle).isTerminal = true := by
    by_cases hstop : toward state.direction (adverse state.direction candle) ≤
        toward state.direction (feeAdjustedBreakeven state)
    · obtain ⟨hpnl, hstatus⟩ := fallback_tp1_stop hopen hsym hs hstop
      exact ⟨hpnl, by rcases hstatus with h | h <;> rw [h] <;> rfl⟩
    · rcases fallback_tp1_no_stop hopen hsym hs (not_le.mp hstop) with ⟨hfar, -⟩ |
        ⟨-, -, hstatus, hpnl⟩ | ⟨-, hlate, -⟩
      · exact absurd (hshort.trans hbeyond).le hfar
      · exact ⟨hpnl, by rw [hstatus]; rfl⟩
      · exact absurd hlate hshort.not_gt
  have hcompleted : (runTrades state ([favourable state.direction candle,
      adverse state.direction candle].mapIdx (tradeAt candle))).status = .tp2Completed := by
    have hno : ¬ beyondStop state.direction state.currentStop
        (tradeAt candle 0 (favourable state.direction candle)).price = true := by
      rw [hopen.discipline.breakeven hs, beyondStop_iff]
      exact not_le.mpr hbeyond
    have hyes : targetReached state.direction state.takeProfit2
        (tradeAt candle 0 (favourable state.direction candle)).price = true :=
      (targetReached_iff _ _ _).mpr (hshort.trans hbeyond).le
    have h1 : (stepEvent state (.trade (tradeAt candle 0
        (favourable state.direction candle)))).status = .tp2Completed := by
      rw [stepTrade_tp1Reached hsym hs, if_neg hno, if_pos hyes]
    change (runTrades (stepEvent state (.trade (tradeAt candle 0
      (favourable state.direction candle)))) _).status = _
    rw [runTrades_of_terminal (by rw [h1]; rfl), h1]
  have htrades := tradesPnl_of_status hopen.discipline (Or.inr (Or.inr hs))
    ([favourable state.direction candle, adverse state.direction candle].mapIdx (tradeAt candle))
  rw [hcompleted] at htrades
  have hle := hbelow hpnl.2
  rw [hpnl.1, htrades, tp1ThenExit_eq_legs, tp1ThenExit_eq_legs] at hle
  have hstrict : halfLeg state state.takeProfit2 < halfLeg state (feeAdjustedBreakeven state) :=
    hopen.funded.halfLeg_strictMono (by rw [signedMove_eq_toward]; linarith)
  linarith

end Necessary

theorem adverse_le_favourable {candle : Candle1m} (h : candle.lowPrice ≤ candle.highPrice)
    (direction : TradeDirection) : toward direction (adverse direction candle) ≤
      toward direction (favourable direction candle) := by
  cases direction with
  | long => exact h
  | short => exact neg_le_neg h

/-- The fallback is conservative against every intrabar order exactly on the candles
that are not optimistic. -/
theorem fallback_conservative_iff (state : LifecycleState) (candle : Candle1m)
    (hopen : OpenState state) (hsym : candle.symbol = state.symbol)
    (hexp : candle.openTime + oneMinute ≤ state.expiresAt) :
    Conservative state candle ↔ ¬ Optimistic state candle := by
  constructor
  · rintro hcons ⟨hrange, hcase⟩
    have hends := adverse_le_favourable hrange state.direction
    rcases hcase with ⟨hs, hstop, hreach, hback, hshort⟩ | ⟨hs, hshort, hbeyond⟩
    · exact optimistic_entered hopen hsym hs hstop hreach hback hshort hends hcons
    · exact optimistic_tp1Reached hopen hsym hs hshort hbeyond hends hcons
  · intro hfair trades hcons
    rcases hopen.status with hs | hs | hs
    · exact conservative_of_active hopen hsym hcons hs hexp
    · exact conservative_of_entered hopen hsym hcons hs hfair
    · exact conservative_of_tp1Reached hopen hsym hcons hs hfair

/-- The entered long of the test fixtures: stop 95, entry 100, TP1 105, TP2 110. -/
def sampleEntered : LifecycleState where
  signalId := 1
  symbol := "BTCUSDT"
  direction := .long
  status := .entered
  entryLower := 99
  entryUpper := 101
  plannedEntry := 100
  stopLoss := 95
  takeProfit1 := 105
  takeProfit2 := 110
  quantity := 20
  riskAmount := 100
  takerFeeRate := 55 / 100000
  expiresAt := minutes 90
  currentStop := 95

/-- A minute that ranges from `low` to `high`. -/
def sampleCandle (low high : ℚ) : Candle1m where
  symbol := "BTCUSDT"
  openTime := 0
  openPrice := 100
  highPrice := high
  lowPrice := low
  closePrice := 100
  volume := 1
  turnover := 100

theorem sampleEntered_open : OpenState sampleEntered := by
  refine ⟨Or.inr (Or.inl rfl), ⟨fun _ => rfl, fun h => by simp [sampleEntered] at h⟩,
    ⟨by decide +kernel, by decide +kernel, by decide +kernel, by decide +kernel⟩, ?_⟩
  refine ⟨?_, by decide +kernel, ?_, by decide +kernel⟩
  · intro price hlow _
    simp only [sampleEntered, toward] at hlow ⊢
    linarith
  · intro price _ hhigh
    simp only [sampleEntered, toward] at hhigh ⊢
    linarith

/-- The candle 96 to 111 takes an entered long to TP2, though 106, 96, 111 is a path
through it that stops the second half out at breakeven. -/
theorem fallback_credits_tp2_past_breakeven :
    ¬ Conservative sampleEntered (sampleCandle 96 111) ∧
      ∃ trades, Consistent (sampleCandle 96 111) trades ∧ ExchangeOrdered trades ∧
        fallbackStatus sampleEntered (sampleCandle 96 111) = .tp2Completed ∧
        (runTrades sampleEntered trades).status = .stoppedAtBreakeven ∧
        tradesPnl sampleEntered trades < fallbackPnl sampleEntered (sampleCandle 96 111) := by
  have hpath : Consistent (sampleCandle 96 111)
      ([106, 96, 111].mapIdx (tradeAt (sampleCandle 96 111))) := by
    refine consistent_tradeAt .long _ (by simp) ?_ ?_ ?_ <;> decide +kernel
  have hstopped : (runTrades sampleEntered
      ([106, 96, 111].mapIdx (tradeAt (sampleCandle 96 111)))).status = .stoppedAtBreakeven := by
    decide +kernel
  have hcompleted : fallbackStatus sampleEntered (sampleCandle 96 111) = .tp2Completed := by
    decide +kernel
  refine ⟨?_, _, hpath, by decide +kernel, hcompleted, hstopped, by decide +kernel⟩
  intro hcons
  have hsafe := (hcons _ hpath).2 (Or.inr hcompleted)
  rw [hstopped] at hsafe
  exact Bool.noConfusion hsafe

theorem fallback_conservative_sample : Conservative sampleEntered (sampleCandle 101 104) ↔
    ¬ Optimistic sampleEntered (sampleCandle 101 104) :=
  fallback_conservative_iff sampleEntered (sampleCandle 101 104) sampleEntered_open rfl
    (by decide)

end StructurePulse.Signals
