import StructurePulse.Signals.Lifecycle

/-! Estimated funding of a signal, prorated by holding time. -/

namespace StructurePulse.Signals
set_option autoImplicit false

/-- `segment_cost`: instants are microseconds, the interval is counted in seconds. -/
def segmentCost (state : LifecycleState) (quantity : ℚ) (start stop : Int) : ℚ :=
  let directionSign : ℚ := match state.direction with
    | .long => 1
    | .short => -1
  let rate := state.fundingRate * directionSign
  let intervalSeconds : ℚ := state.fundingIntervalMinutes * 60
  let seconds : ℚ := max 0 ((stop - start : Int) / 1000000)
  quantity * state.plannedEntry * rate * seconds / intervalSeconds

def estimateFundingCost (state : LifecycleState) (eventTime : Int) (target : SignalStatus) : ℚ :=
  match state.enteredAt with
  | none => 0
  | some enteredAt =>
    if eventTime ≤ enteredAt ∨ state.fundingIntervalMinutes ≤ 0 ∨ state.fundingRate = 0 then 0
    else if target = .tp1Reached then segmentCost state state.quantity enteredAt eventTime
    else match state.tp1ReachedAt with
      | none => segmentCost state state.quantity enteredAt eventTime
      | some tp1ReachedAt =>
        let tp1Time := min (max tp1ReachedAt enteredAt) eventTime
        segmentCost state state.quantity enteredAt tp1Time
          + segmentCost state (state.quantity / 2) tp1Time eventTime

end StructurePulse.Signals
