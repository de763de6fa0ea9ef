import StructurePulse.Signals.Fallback

/-!
# Live levels

Which levels of an open signal a trade or a candle reaches, without the evaluators:
where no level is reached the evaluators decide nothing.
-/

namespace StructurePulse.Signals
set_option autoImplicit false

def inEntryZone (state : LifecycleState) (price : ℚ) : Bool :=
  decide (state.entryLower ≤ price ∧ price ≤ state.entryUpper)

/-- The trade is past the expiry or at a level that is live in the signal's status. -/
def tradeReaches (state : LifecycleState) (trade : PublicTrade) : Bool :=
  trade.symbol = state.symbol && match state.status with
    | .active => decide (trade.executedAt ≥ state.expiresAt) ||
        beyondStop state.direction state.stopLoss trade.price || inEntryZone state trade.price
    | .entered => beyondStop state.direction state.currentStop trade.price ||
        targetReached state.direction state.takeProfit2 trade.price ||
        targetReached state.direction state.takeProfit1 trade.price
    | .tp1Reached => beyondStop state.direction state.currentStop trade.price ||
        targetReached state.direction state.takeProfit2 trade.price
    | _ => false

/-- The candle closes past the expiry or its range holds a live level. -/
def candleReaches (state : LifecycleState) (candle : Candle1m) : Bool :=
  candle.symbol = state.symbol && match state.status with
    | .active => decide (candle.openTime + oneMinute > state.expiresAt) ||
        touchesEntry state candle ||
        touchesStop state.direction state.stopLoss candle.lowPrice candle.highPrice
    | .entered => touchesStop state.direction state.currentStop candle.lowPrice candle.highPrice ||
        touchesTarget state.direction state.takeProfit2 candle.lowPrice candle.highPrice ||
        touchesTarget state.direction state.takeProfit1 candle.lowPrice candle.highPrice
    | .tp1Reached => touchesStop state.direction state.currentStop candle.lowPrice candle.highPrice ||
        touchesTarget state.direction state.takeProfit2 candle.lowPrice candle.highPrice
    | _ => false

/-- A trade is without effect exactly when it reaches no live level. -/
theorem evaluatePublicTrade_eq_nil_iff (state : LifecycleState) (trade : PublicTrade) :
    evaluatePublicTrade state trade = [] ↔ tradeReaches state trade = false := by
  unfold evaluatePublicTrade tradeReaches
  by_cases hsymbol : trade.symbol = state.symbol
  · simp only [hsymbol, ne_eq, not_true_eq_false, if_false, decide_true, Bool.true_and]
    split
    · unfold evaluateActive inEntryZone
      split_ifs <;> simp_all
    · unfold evaluateEntered
      split_ifs <;> simp_all [tp1AndTp2]
    · unfold evaluateTp1Reached
      split_ifs <;> simp_all
    · simp
  · simp [hsymbol]

theorem evaluateClosedCandle_eq_nil {state : LifecycleState} {candle : Candle1m}
    (h : candleReaches state candle = false) : evaluateClosedCandle state candle = [] := by
  unfold evaluateClosedCandle
  unfold candleReaches at h
  by_cases hsymbol : candle.symbol = state.symbol
  · simp only [hsymbol, ne_eq, not_true_eq_false, if_false, decide_true, Bool.true_and] at h ⊢
    split
    · rename_i hs
      simp only [hs, Bool.or_eq_false_iff, decide_eq_false_iff_not] at h
      obtain ⟨⟨hexpiry, hentry⟩, hstop⟩ := h
      have hopen : ¬ (candle.openTime ≥ state.expiresAt ∨
          candle.openTime + oneMinute > state.expiresAt) := by
        have := oneMinute_pos
        omega
      unfold closedCandleActive
      simp only [hentry, hstop]
      rw [if_neg hopen]
      simp
    · rename_i hs
      simp only [hs, Bool.or_eq_false_iff] at h
      simp [closedCandleEntered, h]
    · rename_i hs
      simp only [hs, Bool.or_eq_false_iff] at h
      simp [closedCandleTp1Reached, h]
    · rfl
  · simp [hsymbol]

end StructurePulse.Signals
