import StructurePulse.Signals.MarketFold
import Mathlib.Tactic.Ring
import Mathlib.Tactic.FieldSimp
import Mathlib.Tactic.Linarith
import Mathlib.Algebra.Order.Field.Basic

/-!
# The half-position legs behind every booked PnL

Each exit formula of the tracker is a sum of legs: half the quantity opened at the
planned entry and closed at one price, after the fees of both fills.
-/

namespace StructurePulse.Signals
set_option autoImplicit false

/-- PnL after fees of half the position closed at `price`. -/
def halfLeg (state : LifecycleState) (price : ℚ) : ℚ :=
  state.quantity / 2 * signedMove state.direction state.plannedEntry price
    - state.quantity / 2 * (state.plannedEntry + price) * state.takerFeeRate

/-- The fee paid to open half the position. -/
def halfEntryFee (state : LifecycleState) : ℚ :=
  state.quantity / 2 * state.plannedEntry * state.takerFeeRate

/-- The positivity every sized plan gives its state. -/
structure Funded (state : LifecycleState) : Prop where
  quantity : 0 < state.quantity
  plannedEntry : 0 < state.plannedEntry
  feeNonneg : 0 ≤ state.takerFeeRate
  feeLt : state.takerFeeRate < 1

variable {state : LifecycleState}

theorem fullExit_eq_legs (price : ℚ) : (fullExit state price).1 = 2 * halfLeg state price := by
  simp only [fullExit, halfLeg]
  ring

theorem tp1ThenExit_eq_legs (price : ℚ) :
    (tp1ThenExit state price).1 = halfLeg state state.takeProfit1 + halfLeg state price := by
  simp only [tp1ThenExit, halfLeg]
  ring

theorem tp1Result_eq_leg :
    (tp1Result state).1 = halfLeg state state.takeProfit1 - halfEntryFee state := by
  simp only [tp1Result, halfLeg, halfEntryFee]
  ring

theorem entered_pnl : (enteredAction state).realizedPnl = some (-(2 * halfEntryFee state)) := by
  simp only [enteredAction, halfEntryFee]
  congr 1
  ring

theorem Funded.samePlan {s t : LifecycleState} (h : SamePlan s t) (hs : Funded s) : Funded t :=
  ⟨h.quantity ▸ hs.quantity, h.plannedEntry ▸ hs.plannedEntry, h.takerFeeRate ▸ hs.feeNonneg,
    h.takerFeeRate ▸ hs.feeLt⟩

theorem Funded.halfEntryFee_nonneg (hs : Funded state) : 0 ≤ halfEntryFee state := by
  have hq := hs.quantity
  have hp := hs.plannedEntry
  have hf := hs.feeNonneg
  unfold halfEntryFee
  positivity

/-- The second half exactly pays for itself at the fee-adjusted breakeven. -/
theorem Funded.halfLeg_breakeven (hs : Funded state) :
    halfLeg state (feeAdjustedBreakeven state) = 0 := by
  have h1 : (1 : ℚ) - state.takerFeeRate ≠ 0 := by have := hs.feeLt; linarith
  have h2 : (1 : ℚ) + state.takerFeeRate ≠ 0 := by have := hs.feeNonneg; linarith
  unfold halfLeg feeAdjustedBreakeven
  cases state.direction with
  | long => simp only [signedMove]; field_simp; ring
  | short => simp only [signedMove]; field_simp; ring

/-- A half leg moves with its exit price in the direction of the trade. -/
theorem halfLeg_sub (price price' : ℚ) :
    halfLeg state price' - halfLeg state price =
      state.quantity / 2 * (signedMove state.direction price price'
        - (price' - price) * state.takerFeeRate) := by
  unfold halfLeg
  cases state.direction with
  | long => simp only [signedMove]; ring
  | short => simp only [signedMove]; ring

theorem Funded.halfLeg_strictMono (hs : Funded state) {price price' : ℚ}
    (h : 0 < signedMove state.direction price price') :
    halfLeg state price < halfLeg state price' := by
  have hf := hs.feeNonneg
  have hf' := hs.feeLt
  have hkey : 0 < signedMove state.direction price price' - (price' - price) * state.takerFeeRate := by
    cases hd : state.direction with
    | long =>
      rw [hd] at h
      simp only [signedMove] at h ⊢
      nlinarith
    | short =>
      rw [hd] at h
      simp only [signedMove] at h ⊢
      nlinarith
  have hsub := @halfLeg_sub state price price'
  have hpos := mul_pos (half_pos hs.quantity) hkey
  linarith

theorem Funded.halfLeg_mono (hs : Funded state) {price price' : ℚ}
    (h : 0 ≤ signedMove state.direction price price') :
    halfLeg state price ≤ halfLeg state price' := by
  rcases h.lt_or_eq with hlt | heq
  · exact le_of_lt (hs.halfLeg_strictMono hlt)
  · have hprice : price' = price := by
      cases hd : state.direction <;> simp only [hd, signedMove] at heq <;> linarith
    rw [hprice]

/-- Closing at the entry price loses the two entry-price fees. -/
theorem halfLeg_entry : halfLeg state state.plannedEntry = -(2 * halfEntryFee state) := by
  unfold halfLeg halfEntryFee
  cases state.direction <;> simp only [signedMove] <;> ring

/-- Being stopped out before TP1 costs at least the fee that opened the position. -/
theorem Funded.fullExit_stop_le_entry (hs : Funded state)
    (hrisk : 0 ≤ signedMove state.direction state.stopLoss state.plannedEntry) :
    2 * halfLeg state state.stopLoss ≤ -(2 * halfEntryFee state) := by
  have hmono := hs.halfLeg_mono hrisk
  have hfee := hs.halfEntryFee_nonneg
  rw [halfLeg_entry] at hmono
  linarith

/-- The plan's levels lie on the right sides of the planned entry. -/
structure Directed (state : LifecycleState) : Prop where
  stop : 0 ≤ signedMove state.direction state.stopLoss state.plannedEntry
  takeProfit1 : 0 ≤ signedMove state.direction state.plannedEntry state.takeProfit1
  takeProfit2 : 0 ≤ signedMove state.direction state.plannedEntry state.takeProfit2

theorem Directed.samePlan {s t : LifecycleState} (h : SamePlan s t) (hs : Directed s) :
    Directed t := by
  refine ⟨?_, ?_, ?_⟩ <;> simp only [h.direction, h.stopLoss, h.plannedEntry, h.takeProfit1,
    h.takeProfit2]
  · exact hs.stop
  · exact hs.takeProfit1
  · exact hs.takeProfit2

/-- No booking of a run is worse than the full stop-out before TP1. -/
theorem Booked.stop_le_pnl {action : LifecycleAction} (hs : Funded state) (hl : Directed state)
    (hb : Booked state action) {pnl : ℚ} (h : action.realizedPnl = some pnl) :
    (fullExit state state.stopLoss).1 ≤ pnl := by
  have hstop := hs.fullExit_stop_le_entry hl.stop
  have hentry := hs.halfLeg_mono hl.stop
  have htp1 := hs.halfLeg_mono hl.takeProfit1
  have htp2 := hs.halfLeg_mono hl.takeProfit2
  have hfee := hs.halfEntryFee_nonneg
  rw [halfLeg_entry] at hentry htp1 htp2
  rw [fullExit_eq_legs]
  cases hb with
  | unfilled _ _ hnone _ => simp [hnone] at h
  | entry _ eq =>
    rw [eq, entered_pnl, Option.some.injEq] at h
    linarith
  | stopOut _ _ eq =>
    have hpnl : (fullExit state state.stopLoss).1 = pnl := by rw [eq] at h; exact Option.some.inj h
    rw [fullExit_eq_legs] at hpnl
    linarith
  | firstTarget _ eq =>
    have hpnl : (tp1Result state).1 = pnl := by rw [eq] at h; exact Option.some.inj h
    rw [tp1Result_eq_leg] at hpnl
    linarith
  | breakeven _ _ eq =>
    have hpnl : (tp1ThenExit state (feeAdjustedBreakeven state)).1 = pnl := by
      rw [eq] at h; exact Option.some.inj h
    rw [tp1ThenExit_eq_legs, hs.halfLeg_breakeven] at hpnl
    linarith
  | secondTarget _ eq =>
    have hpnl : (tp1ThenExit state state.takeProfit2).1 = pnl := by
      rw [eq] at h; exact Option.some.inj h
    rw [tp1ThenExit_eq_legs] at hpnl
    linarith

end StructurePulse.Signals
