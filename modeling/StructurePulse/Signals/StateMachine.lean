import Mathlib.Data.Finset.Basic

/-! The signal and virtual-trade state machines. -/

namespace StructurePulse.Signals
set_option autoImplicit false

inductive SignalStatus where
  | suppressed
  | preparing
  | active
  | expired
  | invalidated
  | entered
  | stopped
  | tp1Reached
  | stoppedAtBreakeven
  | tp2Completed
  | ambiguous
  | coverageFailed
  deriving Repr, DecidableEq

inductive VirtualTradeStatus where
  | waitingEntry
  | entered
  | tp1Reached
  | stopped
  | stoppedAtBreakeven
  | tp2Completed
  | expired
  | invalidated
  | ambiguous
  | coverageFailed
  deriving Repr, DecidableEq

/-- `SIGNAL_TRANSITIONS`: the targets allowed from each status. -/
def signalTransitions : SignalStatus → List SignalStatus
  | .suppressed => []
  | .preparing => [.active, .coverageFailed, .expired]
  | .active => [.entered, .expired, .invalidated, .ambiguous, .coverageFailed]
  | .entered => [.stopped, .tp1Reached, .ambiguous]
  | .tp1Reached => [.stoppedAtBreakeven, .tp2Completed, .ambiguous]
  | .expired => []
  | .invalidated => []
  | .stopped => []
  | .stoppedAtBreakeven => []
  | .tp2Completed => []
  | .ambiguous => []
  | .coverageFailed => []

/-- `VIRTUAL_TRADE_TRANSITIONS`. -/
def virtualTradeTransitions : VirtualTradeStatus → List VirtualTradeStatus
  | .waitingEntry => [.entered, .expired, .invalidated, .ambiguous, .coverageFailed]
  | .entered => [.stopped, .tp1Reached, .ambiguous]
  | .tp1Reached => [.stoppedAtBreakeven, .tp2Completed, .ambiguous]
  | .stopped => []
  | .stoppedAtBreakeven => []
  | .tp2Completed => []
  | .expired => []
  | .invalidated => []
  | .ambiguous => []
  | .coverageFailed => []

def SignalStatus.text : SignalStatus → String
  | .suppressed => "suppressed"
  | .preparing => "preparing"
  | .active => "active"
  | .expired => "expired"
  | .invalidated => "invalidated"
  | .entered => "entered"
  | .stopped => "stopped"
  | .tp1Reached => "tp1_reached"
  | .stoppedAtBreakeven => "stopped_at_breakeven"
  | .tp2Completed => "tp2_completed"
  | .ambiguous => "ambiguous"
  | .coverageFailed => "coverage_failed"

def VirtualTradeStatus.text : VirtualTradeStatus → String
  | .waitingEntry => "waiting_entry"
  | .entered => "entered"
  | .tp1Reached => "tp1_reached"
  | .stopped => "stopped"
  | .stoppedAtBreakeven => "stopped_at_breakeven"
  | .tp2Completed => "tp2_completed"
  | .expired => "expired"
  | .invalidated => "invalidated"
  | .ambiguous => "ambiguous"
  | .coverageFailed => "coverage_failed"

theorem SignalStatus.text_injective {s t : SignalStatus} (h : s.text = t.text) : s = t := by
  cases s <;> cases t <;> first | rfl | (exact absurd h (by decide))

/-- The `ValueError` of either transition function. -/
inductive InvalidTransition where
  | signal (current target : SignalStatus)
  | virtualTrade (current target : VirtualTradeStatus)
  deriving Repr, DecidableEq

def InvalidTransition.text : InvalidTransition → String
  | .signal current target => s!"Invalid signal transition: {current.text} -> {target.text}"
  | .virtualTrade current target =>
    s!"Invalid virtual trade transition: {current.text} -> {target.text}"

def transitionSignal (current target : SignalStatus) : Except InvalidTransition SignalStatus :=
  if target ∈ signalTransitions current then .ok target else .error (.signal current target)

def transitionVirtualTrade (current target : VirtualTradeStatus) :
    Except InvalidTransition VirtualTradeStatus :=
  if target ∈ virtualTradeTransitions current then .ok target
  else .error (.virtualTrade current target)

/-- `ACTIVE_SIGNAL_STATUSES`. -/
def SignalStatus.isActive : SignalStatus → Bool
  | .preparing | .active | .entered | .tp1Reached => true
  | _ => false

/-- `TERMINAL_SIGNAL_STATUSES`: the terminal statuses of a published signal. -/
def SignalStatus.isTerminal : SignalStatus → Bool
  | .expired | .invalidated | .stopped | .stoppedAtBreakeven | .tp2Completed | .ambiguous
  | .coverageFailed => true
  | _ => false

/-- `PUBLISHED_SIGNAL_STATUSES`. -/
def SignalStatus.isPublished (status : SignalStatus) : Bool := status.isActive || status.isTerminal

theorem isPublished_iff (status : SignalStatus) :
    status.isPublished = true ↔ status ≠ .suppressed := by cases status <;> decide

theorem transitions_nil_of_not_active {status : SignalStatus} (h : status.isActive = false) :
    signalTransitions status = [] := by
  cases status <;> first | rfl | simp [SignalStatus.isActive] at h

theorem isPublished_of_transition {current target : SignalStatus}
    (h : target ∈ signalTransitions current) :
    current.isPublished = true ∧ target.isPublished = true := by
  cases current <;> cases target <;> simp_all [signalTransitions] <;> decide

theorem isActive_of_transition {current target : SignalStatus}
    (h : target ∈ signalTransitions current) : current.isActive = true := by
  by_contra hn
  simp [transitions_nil_of_not_active (Bool.eq_false_iff.mpr hn)] at h

/-- No table entry leads a status back to itself. -/
theorem transition_ne {current target : SignalStatus} (h : target ∈ signalTransitions current) :
    current ≠ target := by
  rintro rfl
  cases current <;> simp [signalTransitions] at h

/-- How far a signal has come; every transition leads further. -/
def SignalStatus.rank : SignalStatus → Nat
  | .suppressed | .preparing => 0
  | .active => 1
  | .entered => 2
  | .tp1Reached => 3
  | _ => 4

theorem rank_lt_of_transition {current target : SignalStatus}
    (h : target ∈ signalTransitions current) : current.rank < target.rank := by
  cases current <;> cases target <;> simp_all [signalTransitions, SignalStatus.rank]

/-- Once active, a signal that stays open enters or reaches its first target. -/
theorem open_target_of_transition {current target : SignalStatus}
    (h : target ∈ signalTransitions current) (hcurrent : current ≠ .preparing)
    (hopen : target.isTerminal = false) : target = .entered ∨ target = .tp1Reached := by
  cases current <;> cases target <;> simp_all [signalTransitions, SignalStatus.isTerminal]

theorem isActive_of_transition_open {current target : SignalStatus}
    (h : target ∈ signalTransitions current) (hopen : target.isTerminal = false) :
    target.isActive = true := by
  cases current <;> cases target <;>
    simp_all [signalTransitions, SignalStatus.isTerminal, SignalStatus.isActive]

theorem transitionSignal_ok {current target next : SignalStatus} :
    transitionSignal current target = .ok next ↔
      target ∈ signalTransitions current ∧ next = target := by
  unfold transitionSignal
  split_ifs with h <;> simp [h, eq_comm]

theorem transitionVirtualTrade_ok {current target next : VirtualTradeStatus} :
    transitionVirtualTrade current target = .ok next ↔
      target ∈ virtualTradeTransitions current ∧ next = target := by
  unfold transitionVirtualTrade
  split_ifs with h <;> simp [h, eq_comm]

/-- The virtual-trade status that goes with a published signal status. -/
def SignalStatus.tradeStatus : SignalStatus → Option VirtualTradeStatus
  | .suppressed => none
  | .preparing | .active => some .waitingEntry
  | .expired => some .expired
  | .invalidated => some .invalidated
  | .entered => some .entered
  | .stopped => some .stopped
  | .tp1Reached => some .tp1Reached
  | .stoppedAtBreakeven => some .stoppedAtBreakeven
  | .tp2Completed => some .tp2Completed
  | .ambiguous => some .ambiguous
  | .coverageFailed => some .coverageFailed

/-- Whatever the signal table allows, the virtual-trade table allows for the
corresponding statuses, or the two statuses share their virtual trade status. -/
theorem tradeStatus_of_transition {current target : SignalStatus}
    (h : target ∈ signalTransitions current) :
    ∃ s t, current.tradeStatus = some s ∧ target.tradeStatus = some t ∧
      ((target = .active ∧ s = t) ∨ (target ≠ .active ∧ t ∈ virtualTradeTransitions s)) := by
  cases current <;> cases target <;>
    simp_all [signalTransitions, SignalStatus.tradeStatus, virtualTradeTransitions]

theorem not_isTerminal_of_isActive {status : SignalStatus} (h : status.isActive = true) :
    status.isTerminal = false := by
  cases status <;> simp_all [SignalStatus.isActive, SignalStatus.isTerminal]

end StructurePulse.Signals
