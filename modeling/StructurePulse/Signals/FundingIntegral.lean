import StructurePulse.Library.StepFunctions
import StructurePulse.Signals.Funding

/-!
# Funding as an integral

Funding accrues at a constant rate on the quantity that is open. `fundingOver` integrates
that; the estimate of the service is a sum of rectangles.
-/

namespace StructurePulse.Signals
open Library
set_option autoImplicit false

section Accrual
variable (state : LifecycleState)

/-- What one unit of quantity is charged in a microsecond, signed: a long pays a positive
rate. -/
def unitFunding : ℚ :=
  (match state.direction with
    | .long => 1
    | .short => -1) * state.fundingRate * state.plannedEntry /
      (state.fundingIntervalMinutes * oneMinute)

/-- The quantity that is open after the entry: all of it until TP1, then half of it. -/
noncomputable def openQuantity (instant : ℝ) : ℝ :=
  match state.tp1ReachedAt with
  | none => state.quantity
  | some tp1ReachedAt =>
    stepFunction state.quantity (state.quantity / 2 : ℚ) tp1ReachedAt instant

noncomputable def fundingOver (start stop : Int) : ℝ :=
  unitFunding state * ∫ instant in (start : ℝ)..stop, openQuantity state instant

/-- A rectangle: a quantity held from one instant to another. -/
def fundingOf (quantity : ℚ) (start stop : Int) : ℚ :=
  unitFunding state * (quantity * (stop - start : Int))

end Accrual

section Estimate
variable {state : LifecycleState} {start stop : Int}

theorem segmentCost_eq (quantity : ℚ) (h : start ≤ stop) :
    segmentCost state quantity start stop = fundingOf state quantity start stop := by
  have hsub : (0 : ℚ) ≤ (stop - start : Int) / 1000000 := by
    have hnonneg : (0 : ℚ) ≤ (stop - start : Int) := by exact_mod_cast sub_nonneg.mpr h
    positivity
  have hminute : (oneMinute : ℚ) = 60 * 1000000 := by norm_num [oneMinute]
  unfold segmentCost fundingOf unitFunding
  cases hdirection : state.direction with
  | long =>
    simp only [max_eq_right hsub, hminute]
    ring
  | short =>
    simp only [max_eq_right hsub, hminute]
    ring

theorem fundingOver_of_none (h : state.tp1ReachedAt = none) :
    fundingOver state start stop = (fundingOf state state.quantity start stop : ℚ) := by
  have hopen : openQuantity state = fun _ => (state.quantity : ℝ) := by
    funext instant
    simp only [openQuantity, h]
  rw [fundingOver, hopen, intervalIntegral.integral_const, smul_eq_mul, fundingOf]
  push_cast
  ring

theorem fundingOver_of_some {tp1ReachedAt : Int} (h : state.tp1ReachedAt = some tp1ReachedAt)
    (hstart : start ≤ tp1ReachedAt) (hstop : tp1ReachedAt ≤ stop) :
    fundingOver state start stop =
      (fundingOf state state.quantity start tp1ReachedAt +
        fundingOf state (state.quantity / 2) tp1ReachedAt stop : ℚ) := by
  have hopen : openQuantity state =
      stepFunction state.quantity (state.quantity / 2 : ℚ) tp1ReachedAt := by
    funext instant
    simp only [openQuantity, h]
  rw [fundingOver, hopen, integral_stepFunction (by exact_mod_cast hstart)
    (by exact_mod_cast hstop), fundingOf, fundingOf]
  push_cast
  ring

/-- Nothing accrues without a rate. -/
theorem fundingOf_zero_rate (h : state.fundingRate = 0) (quantity : ℚ) :
    fundingOf state quantity start stop = 0 := by
  simp [fundingOf, unitFunding, h]

theorem fundingOf_self (quantity : ℚ) : fundingOf state quantity start start = 0 := by
  simp [fundingOf]

variable {enteredAt : Int}

/-- The estimate at TP1 charges the whole quantity from the entry. -/
theorem estimate_tp1 (hentered : state.enteredAt = some enteredAt)
    (hinterval : 0 < state.fundingIntervalMinutes) (h : enteredAt ≤ stop) :
    estimateFundingCost state stop .tp1Reached = fundingOf state state.quantity enteredAt stop := by
  unfold estimateFundingCost
  simp only [hentered]
  split_ifs with hzero
  · rcases hzero with hle | hnone | hrate
    · rw [le_antisymm h hle, fundingOf_self]
    · omega
    · rw [fundingOf_zero_rate hrate]
  · exact segmentCost_eq _ h

/-- At the end of a position that never reached TP1 so does the last one. -/
theorem estimate_full {target : SignalStatus} (hentered : state.enteredAt = some enteredAt)
    (htp1 : state.tp1ReachedAt = none) (hinterval : 0 < state.fundingIntervalMinutes)
    (h : enteredAt ≤ stop) :
    estimateFundingCost state stop target = fundingOf state state.quantity enteredAt stop := by
  unfold estimateFundingCost
  simp only [hentered, htp1]
  split_ifs with hzero
  · rcases hzero with hle | hnone | hrate
    · rw [le_antisymm h hle, fundingOf_self]
    · omega
    · rw [fundingOf_zero_rate hrate]
  · exact segmentCost_eq _ h
  · exact segmentCost_eq _ h

theorem estimate_halved {target : SignalStatus} {tp1ReachedAt : Int}
    (htarget : target ≠ .tp1Reached) (hentered : state.enteredAt = some enteredAt)
    (htp1 : state.tp1ReachedAt = some tp1ReachedAt) (hinterval : 0 < state.fundingIntervalMinutes)
    (hstart : enteredAt ≤ tp1ReachedAt) (hstop : tp1ReachedAt ≤ stop) :
    estimateFundingCost state stop target =
      fundingOf state state.quantity enteredAt tp1ReachedAt +
        fundingOf state (state.quantity / 2) tp1ReachedAt stop := by
  have hclamped : min (max tp1ReachedAt enteredAt) stop = tp1ReachedAt := by
    rw [max_eq_left hstart, min_eq_left hstop]
  unfold estimateFundingCost
  simp only [hentered, htp1, if_neg htarget, hclamped]
  split_ifs with hzero
  · rcases hzero with hle | hnone | hrate
    · have hfirst : tp1ReachedAt = enteredAt := le_antisymm (hstop.trans hle) hstart
      have hlast : stop = enteredAt := le_antisymm hle (hstart.trans hstop)
      rw [hfirst, hlast, fundingOf_self, fundingOf_self, add_zero]
    · omega
    · rw [fundingOf_zero_rate hrate, fundingOf_zero_rate hrate, add_zero]
  · rw [segmentCost_eq _ hstart, segmentCost_eq _ hstop]

theorem estimate_of_waiting {target : SignalStatus} (hentered : state.enteredAt = none) :
    estimateFundingCost state stop target = 0 := by
  simp only [estimateFundingCost, hentered]

end Estimate

section Fields

/-- The fields that a funding estimate reads, but for the time of TP1. -/
structure SameFunding (s t : LifecycleState) : Prop where
  direction : t.direction = s.direction
  fundingRate : t.fundingRate = s.fundingRate
  fundingIntervalMinutes : t.fundingIntervalMinutes = s.fundingIntervalMinutes
  plannedEntry : t.plannedEntry = s.plannedEntry
  quantity : t.quantity = s.quantity

namespace SameFunding
variable {s t u : LifecycleState}

theorem trans (h : SameFunding s t) (k : SameFunding t u) : SameFunding s u :=
  ⟨k.direction.trans h.direction, k.fundingRate.trans h.fundingRate,
    k.fundingIntervalMinutes.trans h.fundingIntervalMinutes, k.plannedEntry.trans h.plannedEntry,
    k.quantity.trans h.quantity⟩

theorem segmentCost_eq (h : SameFunding s t) (quantity : ℚ) (start stop : Int) :
    segmentCost t quantity start stop = segmentCost s quantity start stop := by
  unfold segmentCost
  rw [h.direction, h.fundingRate, h.fundingIntervalMinutes, h.plannedEntry]

theorem fundingOf_eq (h : SameFunding s t) (quantity : ℚ) (start stop : Int) :
    fundingOf t quantity start stop = fundingOf s quantity start stop := by
  unfold fundingOf unitFunding
  rw [h.direction, h.fundingRate, h.fundingIntervalMinutes, h.plannedEntry]

/-- The estimate at TP1 does not read the time of TP1. -/
theorem estimate_eq (h : SameFunding s t) (hentered : t.enteredAt = s.enteredAt)
    {target : SignalStatus} (htp1 : target = .tp1Reached ∨ t.tp1ReachedAt = s.tp1ReachedAt)
    (eventTime : Int) :
    estimateFundingCost t eventTime target = estimateFundingCost s eventTime target := by
  unfold estimateFundingCost
  rw [hentered, h.fundingIntervalMinutes, h.fundingRate]
  simp only [h.segmentCost_eq, h.quantity]
  rcases htp1 with rfl | htp1
  · rfl
  · rw [htp1]

end SameFunding

end Fields

end StructurePulse.Signals
