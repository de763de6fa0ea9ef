import StructurePulse.Store.Records
import StructurePulse.Signals.Legs

/-!
# The planner's risk bounds every run of the tracker

The planner sizes the position against its own estimate of the loss at the stop;
the tracker recomputes fees and levels from the stored row. The bridge is
`OnPlan`: the tracked state carries exactly the planner's numbers.
-/

namespace StructurePulse.Store
open Signals Strategy
set_option autoImplicit false

/-- The tracked state of a freshly activated signal, through every row built on the
way: candidate row, signal row, virtual trade and tracking view. -/
def publishedState (recordId snapshotId signalId : Nat) (candidate : SignalCandidate) (now : Int)
    (fundingRate : ℚ) (fundingIntervalMinutes : Int) : Except StoreError LifecycleState := do
  let record := candidateRecord recordId snapshotId candidate
  let signal ← signalRecord signalId record .preparing none now fundingRate fundingIntervalMinutes
  let trade ← virtualTrade signal record
  return lifecycleState (trackingView { signal with status := .active } trade)

/-- The tracked state carries the planner's numbers. -/
structure OnPlan (input : TradePlanInput) (state : LifecycleState) : Prop where
  direction : state.direction = input.direction
  plannedEntry : state.plannedEntry = input.plannedEntry
  stopLoss : state.stopLoss = input.stopLoss
  takeProfit1 : state.takeProfit1 = input.takeProfit1
  takeProfit2 : state.takeProfit2 = input.targetPrice
  quantity : state.quantity = input.quantity
  riskAmount : state.riskAmount = input.config.riskAmount
  takerFeeRate : state.takerFeeRate = input.feeRate

theorem publishedState_eq {input : TradePlanInput} (hsized : Sized input)
    {candidate : SignalCandidate} (hplan : candidate.tradePlan = some input.plan)
    (hdirection : candidate.direction = input.direction)
    (recordId snapshotId signalId : Nat) (now : Int) (fundingRate : ℚ) (interval : Int) :
    ∃ start, publishedState recordId snapshotId signalId candidate now fundingRate interval =
        .ok start ∧ OnPlan input start ∧ start.status = .active ∧ StopDiscipline start := by
  have hfee : signalFeeRate (candidateRecord recordId snapshotId candidate) = input.feeRate := by
    have hpos : input.plan.notional > 0 := hsized.notional_pos
    simpa [signalFeeRate, candidateRecord, hplan, hpos] using hsized.takerFeeRate_eq
  simp only [candidateRecord, hplan, Option.map_some] at hfee
  simp only [publishedState, signalRecord, virtualTrade, candidateRecord, hplan, Option.map_some,
    bind, Except.bind, pure, Except.pure]
  refine ⟨_, rfl, ⟨hdirection, rfl, rfl, rfl, rfl, rfl, rfl, hfee⟩, rfl, fun _ => rfl, ?_⟩
  intro h
  simp [lifecycleState, trackingView] at h

theorem OnPlan.samePlan {input : TradePlanInput} {s t : LifecycleState} (h : SamePlan s t)
    (hs : OnPlan input s) : OnPlan input t :=
  ⟨h.direction.trans hs.direction, h.plannedEntry.trans hs.plannedEntry,
    h.stopLoss.trans hs.stopLoss, h.takeProfit1.trans hs.takeProfit1,
    h.takeProfit2.trans hs.takeProfit2, h.quantity.trans hs.quantity,
    h.riskAmount.trans hs.riskAmount, h.takerFeeRate.trans hs.takerFeeRate⟩

section Planned
variable {input : TradePlanInput} {state : LifecycleState}
variable (hsized : Sized input) (hon : OnPlan input state)
include hsized hon

theorem OnPlan.funded (hf : 0 ≤ input.feeRate) (hf' : input.feeRate < 1) : Funded state :=
  ⟨hon.quantity ▸ hsized.quantity_pos, hon.plannedEntry ▸ hsized.plannedEntry_pos,
    hon.takerFeeRate ▸ hf, hon.takerFeeRate ▸ hf'⟩

theorem OnPlan.directed (hm : 0 ≤ input.config.takeProfit1RMultiple) : Directed state := by
  have hr := hsized.riskPerUnit_pos
  have hrm := mul_nonneg (le_of_lt hr) hm
  have hw := hsized.rewardPerUnit_pos
  rw [TradePlanInput.riskPerUnit] at hr
  rw [TradePlanInput.rewardPerUnit] at hw
  refine ⟨?_, ?_, ?_⟩ <;> simp only [hon.direction, hon.stopLoss, hon.plannedEntry,
    hon.takeProfit1, hon.takeProfit2, TradePlanInput.takeProfit1]
  · cases hd : input.direction <;> simp only [hd] at hr <;> simp only [signedMove] <;> linarith
  · cases input.direction <;> simp only [signedMove] <;> linarith
  · cases hd : input.direction <;> simp only [hd] at hw <;> simp only [signedMove] <;> linarith

omit hsized in
/-- The tracker's stop-out books exactly the loss the planner estimated. -/
theorem OnPlan.fullExit_stop : (fullExit state state.stopLoss).1 = -input.plan.estimatedLossAtStop := by
  simp only [fullExit, hon.quantity, hon.direction, hon.plannedEntry, hon.stopLoss,
    hon.takerFeeRate, TradePlanInput.plan, TradePlanInput.netRiskPerUnit,
    TradePlanInput.entryFeePerUnit, TradePlanInput.riskPerUnit]
  cases input.direction <;> simp only [signedMove] <;> ring

end Planned

/-- Along every run from the published plan, every booked PnL stays within the risk
amount, and a stop before TP1 books exactly the planner's estimate. -/
theorem risk_never_exceeded (input : TradePlanInput) (plan : TradePlan) (details : List PlanDetail)
    (hplan : buildTradePlan input = (some plan, details))
    (hfee : 0 ≤ input.feeRate) (hfee' : input.feeRate < 1)
    (hmultiple : 0 ≤ input.config.takeProfit1RMultiple)
    (candidate : SignalCandidate) (hcandidate : candidate.tradePlan = some plan)
    (hdirection : candidate.direction = input.direction)
    (recordId snapshotId signalId : Nat) (now : Int) (fundingRate : ℚ) (interval : Int) :
    ∃ start, publishedState recordId snapshotId signalId candidate now fundingRate interval =
        .ok start ∧
      ∀ (events : List MarketEvent) (decided : LifecycleState) (action : LifecycleAction),
        (decided, action) ∈ bookings start events →
          (∀ pnl, action.realizedPnl = some pnl → -plan.riskAmount ≤ pnl) ∧
          (action.target = .stopped ∨
              action.target = .ambiguous ∧ (decided.status = .active ∨ decided.status = .entered) →
            action.realizedPnl = some (-plan.estimatedLossAtStop) ∧
              ∃ r, action.rMultiple = some r ∧ -1 ≤ r) := by
  obtain ⟨hsized, rfl⟩ := buildTradePlan_some hplan
  obtain ⟨start, hstart, hon, _, hd⟩ := publishedState_eq hsized hcandidate hdirection recordId
    snapshotId signalId now fundingRate interval
  refine ⟨start, hstart, ?_⟩
  intro events decided action hmem
  obtain ⟨hsame, hb⟩ := bookings_spec hd events hmem
  have hon' := hon.samePlan hsame
  have hfunded := hon'.funded hsized hfee hfee'
  have hdirected := hon'.directed hsized hmultiple
  have hstop := hon'.fullExit_stop
  have hloss := hsized.loss_le_riskAmount hfee
  have hrisk := input.config.riskAmount_pos
  constructor
  · intro pnl hpnl
    have hle := hb.stop_le_pnl hfunded hdirected hpnl
    rw [hstop] at hle
    change -input.config.riskAmount ≤ pnl
    change -(input.quantity * input.netRiskPerUnit) ≤ pnl at hle
    linarith
  · intro htarget
    cases hb with
    | stopOut _ _ eq =>
      have hpnl : action.realizedPnl = some (-input.plan.estimatedLossAtStop) := by
        rw [eq, ← hstop]
        rfl
      refine ⟨hpnl, -input.plan.estimatedLossAtStop / input.config.riskAmount, ?_, ?_⟩
      · rw [eq, ← hstop, ← hon'.riskAmount]
        rfl
      · rw [le_div_iff₀ hrisk]
        change -1 * input.config.riskAmount ≤ -(input.quantity * input.netRiskPerUnit)
        linarith
    | unfilled _ target _ _ =>
      rcases target with t | t <;> simp [t] at htarget
    | entry _ eq => simp [eq, enteredAction] at htarget
    | firstTarget _ eq => simp [eq, tp1Action] at htarget
    | breakeven status target _ =>
      rcases target with t | t <;> simp [t, status] at htarget
    | secondTarget _ eq => simp [eq, tp2Action] at htarget

/-- A long setup with the default strategy parameters. -/
def sampleInput : TradePlanInput where
  direction := .long
  entryLower := 99
  entryUpper := 101
  atr := 10
  targetPrice := 120
  feeRate := 55 / 100000
  instrumentMaxLeverage := 100
  quantityStep := 1 / 100
  minimumNotional := 5
  config := .standard

def sampleCandidate : SignalCandidate where
  symbol := "BTCUSDT"
  direction := .long
  strategyVersion := "smc-v1.0.0"
  status := .accepted
  score := 80
  strength := .standard
  warnings := []
  tradePlan := some sampleInput.plan
  analyzedAt := 0
  expiresAt := minutes 90

theorem risk_never_exceeded_sample :
    ∃ start, publishedState 1 1 1 sampleCandidate 0 0 480 = .ok start ∧
      ∀ (events : List MarketEvent) (decided : LifecycleState) (action : LifecycleAction),
        (decided, action) ∈ bookings start events →
          (∀ pnl, action.realizedPnl = some pnl → -sampleInput.plan.riskAmount ≤ pnl) ∧
          (action.target = .stopped ∨
              action.target = .ambiguous ∧ (decided.status = .active ∨ decided.status = .entered) →
            action.realizedPnl = some (-sampleInput.plan.estimatedLossAtStop) ∧
              ∃ r, action.rMultiple = some r ∧ -1 ≤ r) :=
  risk_never_exceeded sampleInput sampleInput.plan [] (by decide +kernel) (by decide +kernel)
    (by decide +kernel) (by decide +kernel) sampleCandidate rfl rfl 1 1 1 0 0 480

end StructurePulse.Store
