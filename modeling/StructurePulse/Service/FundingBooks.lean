import StructurePulse.Service.CandleRecovery
import StructurePulse.Service.Commits
import StructurePulse.Signals.FundingIntegral

/-!
# The funding that a signal is charged

Every result of a position is booked with the estimate of its funding so far. The
columns of the signal name the instants of that estimate, so the amount can be read
from the rows alone.
-/

namespace StructurePulse.Service
open Signals Store Strategy Library
set_option autoImplicit false

section Prices
variable {state : LifecycleState} {action : LifecycleAction}

/-- An action on an open position has a result. -/
theorem pnl_of_filled {trade : PublicTrade} (hstatus : state.status ≠ .active)
    (h : action ∈ evaluatePublicTrade state trade) : ∃ pnl, action.realizedPnl = some pnl := by
  rcases evaluatePublicTrade_cases state trade with heq | ⟨hactive, -⟩ | ⟨-, heq⟩ | ⟨-, heq⟩
  · simp [heq] at h
  · exact absurd hactive hstatus
  · rcases heq with heq | heq | heq <;> rw [heq] at h
    · rw [List.mem_singleton.mp h]
      exact ⟨_, rfl⟩
    · rcases List.mem_pair.mp h with rfl | rfl
      · exact ⟨_, rfl⟩
      · exact ⟨_, rfl⟩
    · rw [List.mem_singleton.mp h]
      exact ⟨_, rfl⟩
  · rcases heq with heq | heq <;> rw [heq, List.mem_singleton] at h
    · rw [h]
      exact ⟨_, rfl⟩
    · rw [h]
      exact ⟨_, rfl⟩

theorem pnl_of_trade {trade : PublicTrade} (h : action ∈ evaluatePublicTrade state trade)
    (htarget : action.target ∈ bookedTargets) : ∃ pnl, action.realizedPnl = some pnl := by
  by_cases hstatus : state.status = .active
  · rcases evaluatePublicTrade_cases state trade with heq | ⟨-, heq⟩ | ⟨hother, -⟩ | ⟨hother, -⟩
    · simp [heq] at h
    · rcases heq with heq | heq | heq <;> rw [heq, List.mem_singleton] at h <;> subst h
      · simp [bookedTargets] at htarget
      · simp [bookedTargets] at htarget
      · exact ⟨_, rfl⟩
    · rw [hstatus] at hother
      cases hother
    · rw [hstatus] at hother
      cases hother
  · exact pnl_of_filled hstatus h

/-- A trade that reaches TP1 books it alone or with TP2. -/
theorem tp1_of_trade {trade : PublicTrade} (h : action ∈ evaluatePublicTrade state trade)
    (htarget : action.target = .tp1Reached) :
    evaluatePublicTrade state trade = [tp1Action state] ∨
      evaluatePublicTrade state trade = tp1AndTp2 state := by
  rcases evaluatePublicTrade_cases state trade with heq | ⟨-, heq⟩ | ⟨-, heq⟩ | ⟨-, heq⟩
  · simp [heq] at h
  · rcases heq with heq | heq | heq <;> rw [heq, List.mem_singleton] at h <;> rw [h] at htarget <;>
      cases htarget
  · rcases heq with heq | heq | heq
    · rw [heq, List.mem_singleton] at h
      rw [h] at htarget
      cases htarget
    · exact Or.inr heq
    · exact Or.inl heq
  · rcases heq with heq | heq <;> rw [heq, List.mem_singleton] at h <;> rw [h] at htarget <;>
      cases htarget

/-- A candle does what one trade does, or does not reach TP1. -/
theorem candle_cases (state : LifecycleState) (candle : Candle1m) :
    (∃ trade, evaluateClosedCandle state candle = evaluatePublicTrade state trade) ∨
      ∀ action ∈ evaluateClosedCandle state candle, action.target ≠ .tp1Reached ∧
        (action.target ∈ bookedTargets → ∃ pnl, action.realizedPnl = some pnl) := by
  have hambiguous : ∀ (other : LifecycleState) eventType trade, other.status ≠ .active →
      ∀ action ∈ markAmbiguous eventType (evaluatePublicTrade other trade),
        action.target ≠ .tp1Reached ∧
          (action.target ∈ bookedTargets → ∃ pnl, action.realizedPnl = some pnl) := by
    intro other eventType trade hother action h
    obtain ⟨stopped, hmem, rfl⟩ := List.mem_map.mp h
    exact ⟨by simp, fun _ => @pnl_of_filled other stopped trade hother (List.mem_of_mem_take hmem)⟩
  unfold evaluateClosedCandle
  split_ifs
  · exact Or.inr fun _ h => absurd h List.not_mem_nil
  · cases hstatus : state.status <;> simp only
    case active =>
      unfold closedCandleActive
      simp only
      split_ifs
      · exact Or.inr (by simp [bookedTargets])
      · exact Or.inr (by simp [bookedTargets])
      · exact Or.inr (by simp)
      · exact Or.inr (hambiguous _ _ _ (by simp))
      · exact Or.inl ⟨_, rfl⟩
    case entered =>
      unfold closedCandleEntered
      simp only
      split_ifs
      · exact Or.inr (hambiguous _ _ _ (by simp [hstatus]))
      · exact Or.inl ⟨_, rfl⟩
      · exact Or.inl ⟨_, rfl⟩
      · exact Or.inl ⟨_, rfl⟩
      · exact Or.inr (by simp)
    case tp1Reached =>
      unfold closedCandleTp1Reached
      simp only
      split_ifs
      · exact Or.inr (hambiguous _ _ _ (by simp [hstatus]))
      · exact Or.inl ⟨_, rfl⟩
      · exact Or.inl ⟨_, rfl⟩
      · exact Or.inr (by simp)
    all_goals exact Or.inr (by simp)

/-- Every action whose funding is booked has a result. -/
theorem pnl_of_booked {event : MarketEvent} (h : action ∈ evaluateEvent state event)
    (htarget : action.target ∈ bookedTargets) : ∃ pnl, action.realizedPnl = some pnl := by
  cases event with
  | trade trade => exact pnl_of_trade h htarget
  | candle candle =>
    rcases candle_cases state candle with ⟨trade, heq⟩ | hother
    · rw [evaluateEvent, heq] at h
      exact pnl_of_trade h htarget
    · exact (hother action h).2 htarget

theorem tp1_of_event {event : MarketEvent} (h : action ∈ evaluateEvent state event)
    (htarget : action.target = .tp1Reached) :
    evaluateEvent state event = [tp1Action state] ∨ evaluateEvent state event = tp1AndTp2 state := by
  cases event with
  | trade trade => exact tp1_of_trade h htarget
  | candle candle =>
    rcases candle_cases state candle with ⟨trade, heq⟩ | hother
    · rw [evaluateEvent, heq] at h ⊢
      exact tp1_of_trade h htarget
    · exact absurd htarget (hother action h).1

/-- What a booked action asks the store to write. -/
theorem actionRequest_booked {signal : TrackingSignalView} {context : EventContext} {pnl : ℚ}
    (hpnl : action.realizedPnl = some pnl) (htarget : action.target ∈ bookedTargets) :
    (actionRequest signal action context).estimatedFunding =
        some (estimateFundingCost (lifecycleState signal) context.eventTime action.target) ∧
      (actionRequest signal action context).realizedPnl = some (pnl -
        estimateFundingCost (lifecycleState signal) context.eventTime action.target) := by
  unfold actionRequest
  simp only [hpnl, if_pos htarget]
  exact ⟨trivial, trivial⟩

end Prices

section Books

/-- The statuses of a position that is or was open. -/
def filledStatuses : List SignalStatus :=
  [.entered, .stopped, .tp1Reached, .stoppedAtBreakeven, .tp2Completed]

/-- The statuses after TP1. -/
def halvedStatuses : List SignalStatus := [.tp1Reached, .stoppedAtBreakeven, .tp2Completed]

/-- The statuses of a position that has an end. -/
def exitStatuses : List SignalStatus :=
  [.stopped, .stoppedAtBreakeven, .tp2Completed, .ambiguous]

/-- The state of a signal, as its rows have it. -/
def stateOf (row : SignalRecord) (trade : VirtualTradeRecord) : LifecycleState :=
  lifecycleState (trackingView row trade)

/-- The instant of the last result of a signal. -/
def bookedAt (row : SignalRecord) : Option Int :=
  if row.status = .tp1Reached then row.tp1ReachedAt else row.closedAt

/-- The last result of a signal: the action that some call of an evaluator returned,
less the funding up to then. -/
structure Booking (calls : List EvaluatorCall) (row : SignalRecord) (trade : VirtualTradeRecord)
    (call : EvaluatorCall) (action : LifecycleAction) (pnl : ℚ) : Prop where
  called : call ∈ calls
  signal : call.signal.id = row.id
  returned : action ∈ call.actions
  target : action.target = row.status
  priced : action.realizedPnl = some pnl
  instant : bookedAt row = some call.event.time
  funding : trade.estimatedFunding =
    estimateFundingCost (stateOf row trade) call.event.time row.status
  result : trade.realizedPnl = pnl - trade.estimatedFunding
  /-- Both targets filled on one event. -/
  both : (∃ first ∈ call.actions, first.target = .tp1Reached) →
    row.tp1ReachedAt = some call.event.time

/-- What the rows of a signal say about its instants and its last result. -/
structure Charged (calls : List EvaluatorCall) (row : SignalRecord) (trade : VirtualTradeRecord) :
    Prop where
  entered : row.status ∈ filledStatuses → row.enteredAt.isSome = true
  halved : row.status ∈ halvedStatuses → row.tp1ReachedAt.isSome = true
  booked : row.status ∈ bookedTargets → ∃ call action pnl, Booking calls row trade call action pnl

variable {calls : List EvaluatorCall} {row : SignalRecord} {trade : VirtualTradeRecord}

theorem Charged.of_waiting (hfilled : row.status ∉ filledStatuses)
    (hbooked : row.status ∉ bookedTargets) : Charged calls row trade := by
  refine ⟨fun h => absurd h hfilled, fun h => absurd ?_ hfilled, fun h => absurd h hbooked⟩
  simp only [halvedStatuses, filledStatuses, List.mem_cons, List.not_mem_nil, or_false] at h ⊢
  exact Or.inr (Or.inr h)

theorem filled_of_transition {current target : SignalStatus}
    (h : target ∈ signalTransitions current) (htarget : target ∈ filledStatuses) :
    target = .entered ∨ current ∈ filledStatuses := by
  revert h htarget
  cases current <;> cases target <;> simp [signalTransitions, filledStatuses]

theorem halved_of_transition {current target : SignalStatus}
    (h : target ∈ signalTransitions current) (htarget : target ∈ halvedStatuses) :
    target = .tp1Reached ∨ current ∈ halvedStatuses := by
  revert h htarget
  cases current <;> cases target <;> simp [signalTransitions, halvedStatuses]

theorem terminal_of_booked {target : SignalStatus} (h : target ∈ bookedTargets) :
    target = .tp1Reached ∨ target.isTerminal = true := by
  revert h
  cases target <;> simp [bookedTargets, SignalStatus.isTerminal]

theorem bookedAt_transitioned {target : SignalStatus} (h : target ∈ bookedTargets)
    (row : SignalRecord) (eventTime : Int) :
    bookedAt (row.transitioned target eventTime) = some eventTime := by
  unfold bookedAt SignalRecord.transitioned
  rcases terminal_of_booked h with rfl | hterminal
  · rfl
  · have hne : target ≠ .tp1Reached := by
      rintro rfl
      cases hterminal
    simp only [hne, hterminal, if_false, if_true]

theorem RowsOf.sameFunding {db : Database} {symbol : Symbol} {signal : TrackingSignalView}
    (h : RowsOf db symbol signal row trade) :
    SameFunding (lifecycleState signal) (stateOf row trade) where
  direction := (congrArg TrackingSignalView.direction h.view).symm
  fundingRate := (congrArg TrackingSignalView.fundingRate h.view).symm
  fundingIntervalMinutes := (congrArg TrackingSignalView.fundingIntervalMinutes h.view).symm
  plannedEntry := (congrArg TrackingSignalView.plannedEntry h.view).symm
  quantity := (congrArg TrackingSignalView.quantity h.view).symm

theorem sameFunding_transitioned (row : SignalRecord) (trade : VirtualTradeRecord)
    (tradeStatus : VirtualTradeStatus) (request : TransitionRequest) (target : SignalStatus)
    (eventTime : Int) : SameFunding (stateOf row trade)
      (stateOf (row.transitioned target eventTime) (trade.transitioned tradeStatus target request)) :=
  ⟨rfl, rfl, rfl, rfl, rfl⟩

/-- If a call books TP1, then at or before the action at hand. -/
theorem tp1_of_remaining {signal : TrackingSignalView} {call : EvaluatorCall}
    {action : LifecycleAction} {rest : List LifecycleAction}
    (h : Remaining call signal (action :: rest))
    (hfirst : ∃ first ∈ call.actions, first.target = .tp1Reached) :
    action.target = .tp1Reached ∨
      (action.target ≠ .tp1Reached ∧ signal.tp1ReachedAt = some call.event.time) := by
  obtain ⟨earlier, hactions, hstate⟩ := h
  obtain ⟨first, hmem, htarget⟩ := hfirst
  rcases tp1_of_event hmem htarget with heq | heq
  all_goals
    rw [← EvaluatorCall.actions, hactions] at heq
  · rw [List.append_eq_singleton_iff] at heq
    rcases heq with ⟨-, hcons⟩ | ⟨-, hnil⟩
    · rw [List.cons.injEq] at hcons
      rw [hcons.1]
      exact Or.inl rfl
    · cases hnil
  · rw [tp1AndTp2] at heq
    cases earlier with
    | nil =>
      rw [List.nil_append, List.cons.injEq] at heq
      rw [heq.1]
      exact Or.inl rfl
    | cons head earlier =>
      rw [List.cons_append, List.cons.injEq, List.append_eq_singleton_iff] at heq
      rcases heq with ⟨rfl, ⟨rfl, hcons⟩ | ⟨-, hnil⟩⟩
      · rw [List.cons.injEq] at hcons
        rw [hcons.1]
        exact Or.inr ⟨by simp [tp2Action], congrArg LifecycleState.tp1ReachedAt hstate⟩
      · cases hnil

/-- The booking of an action. -/
theorem booking_of_action {db : Database} {symbol : Symbol} {signal : TrackingSignalView}
    {call : EvaluatorCall} {action : LifecycleAction} {context : EventContext}
    {rest : List LifecycleAction} (hcall : call ∈ calls)
    (hremaining : Remaining call signal (action :: rest))
    (htime : context.eventTime = call.event.time) (hrows : RowsOf db symbol signal row trade)
    (htarget : action.target ∈ bookedTargets) (tradeStatus : VirtualTradeStatus) :
    ∃ call action' pnl, Booking calls (row.transitioned action.target context.eventTime)
      (trade.transitioned tradeStatus action.target (actionRequest signal action context))
      call action' pnl := by
  obtain ⟨pnl, hpnl⟩ := pnl_of_booked hremaining.mem htarget
  obtain ⟨hfunding, hresult⟩ := @actionRequest_booked action signal context pnl hpnl htarget
  have hstored : (trade.transitioned tradeStatus action.target
      (actionRequest signal action context)).estimatedFunding =
        estimateFundingCost (lifecycleState signal) context.eventTime action.target := by
    simp only [VirtualTradeRecord.transitioned, hfunding, Option.getD_some]
  have hestimate : estimateFundingCost (stateOf (row.transitioned action.target context.eventTime)
        (trade.transitioned tradeStatus action.target (actionRequest signal action context)))
      context.eventTime action.target =
        estimateFundingCost (lifecycleState signal) context.eventTime action.target := by
    have hentered : action.target ≠ .entered := by
      intro heq
      rw [heq] at htarget
      simp [bookedTargets] at htarget
    refine SameFunding.estimate_eq (hrows.sameFunding.trans (sameFunding_transitioned ..)) ?_ ?_ _
    · change (if action.target = .entered then _ else row.enteredAt) = _
      rw [if_neg hentered]
      exact (congrArg TrackingSignalView.enteredAt hrows.view).symm
    · by_cases htp1 : action.target = .tp1Reached
      · exact Or.inl htp1
      · refine Or.inr ?_
        change (if action.target = .tp1Reached then _ else row.tp1ReachedAt) = _
        rw [if_neg htp1]
        exact (congrArg TrackingSignalView.tp1ReachedAt hrows.view).symm
  refine ⟨call, action, pnl, hcall, hremaining.signalId.trans ?_, hremaining.mem, rfl, hpnl, ?_,
    ?_, ?_, fun hfirst => ?_⟩
  · exact congrArg TrackingSignalView.id hrows.view
  · rw [← htime]
    exact bookedAt_transitioned htarget row _
  · rw [← htime, hstored]
    exact hestimate.symm
  · rw [hstored]
    simp only [VirtualTradeRecord.transitioned, hresult, Option.getD_some]
  · change (if action.target = .tp1Reached then some context.eventTime else row.tp1ReachedAt) = _
    rcases tp1_of_remaining hremaining hfirst with heq | ⟨hne, hreached⟩
    · rw [if_pos heq, htime]
    · rw [if_neg hne, ← hreached]
      exact (congrArg TrackingSignalView.tp1ReachedAt hrows.view).symm

theorem Booking.mono {more : List EvaluatorCall} {call : EvaluatorCall} {action : LifecycleAction}
    {pnl : ℚ} (h : Booking calls row trade call action pnl) :
    Booking (calls ++ more) row trade call action pnl :=
  { h with called := List.mem_append_left more h.called }

/-- Every write to the rows of a signal keeps its books. -/
theorem chargedKept : RowKept Charged where
  called call h := by
    refine ⟨h.entered, h.halved, fun hbooked => ?_⟩
    obtain ⟨caller, action, pnl, hbooking⟩ := h.booked hbooked
    exact ⟨caller, action, pnl, hbooking.mono⟩
  action := by
    intro db calls symbol signal call action rest context row trade tradeStatus h hcall hremaining
      htime hrows hlegal
    refine ⟨fun hfilled => ?_, fun hhalved => ?_, fun hbooked =>
      booking_of_action hcall hremaining htime hrows hbooked tradeStatus⟩
    · change (if action.target = .entered then some context.eventTime else row.enteredAt).isSome = true
      rcases filled_of_transition hlegal hfilled with heq | hbefore
      · rw [if_pos heq]
        rfl
      · split_ifs
        · rfl
        · exact h.entered hbefore
    · change (if action.target = .tp1Reached then some context.eventTime
        else row.tp1ReachedAt).isSome = true
      rcases halved_of_transition hlegal hhalved with heq | hbefore
      · rw [if_pos heq]
        rfl
      · split_ifs
        · rfl
        · exact h.halved hbefore
  opening := by
    intro calls tradeStatus row trade request htarget
    apply Charged.of_waiting
    all_goals
      change request.target ∉ _
      revert htarget
      cases request.target <;> simp [openingTargets, filledStatuses, bookedTargets]
  checkpointed := by
    intro calls row trade tradeId executedAt sequence h
    refine ⟨h.entered, h.halved, fun hbooked => ?_⟩
    obtain ⟨call, action, pnl, hbooking⟩ := h.booked hbooked
    exact ⟨call, action, pnl, hbooking.called, hbooking.signal, hbooking.returned, hbooking.target,
      hbooking.priced, hbooking.instant, hbooking.funding, hbooking.result, hbooking.both⟩
  published := by
    intro calls row trade hstatus
    apply Charged.of_waiting
    all_goals
      revert hstatus
      cases row.status <;> simp [filledStatuses, bookedTargets]

end Books

section Amounts
variable {calls : List EvaluatorCall} {row : SignalRecord} {trade : VirtualTradeRecord}
variable {enteredAt tp1ReachedAt closedAt : Int}

/-- The amount booked at TP1. -/
theorem Charged.at_tp1 (h : Charged calls row trade) (hstatus : row.status = .tp1Reached)
    (hinterval : 0 < row.fundingIntervalMinutes) (hentered : row.enteredAt = some enteredAt)
    (htp1 : row.tp1ReachedAt = some tp1ReachedAt) (hle : enteredAt ≤ tp1ReachedAt) :
    trade.estimatedFunding = fundingOf (stateOf row trade) row.quantity enteredAt tp1ReachedAt := by
  obtain ⟨call, action, pnl, hbooking⟩ := h.booked (by simp [hstatus, bookedTargets])
  have hinstant : tp1ReachedAt = call.event.time := by
    have hbooked := hbooking.instant
    rw [bookedAt, if_pos hstatus, htp1] at hbooked
    exact Option.some.inj hbooked
  rw [hbooking.funding, hstatus, ← hinstant]
  exact @estimate_tp1 (stateOf row trade) _ _ hentered hinterval hle

theorem booked_of_exit {status : SignalStatus} (h : status ∈ exitStatuses) :
    status ∈ bookedTargets ∧ status ≠ .tp1Reached := by
  revert h
  cases status <;> simp [exitStatuses, bookedTargets]

theorem Charged.at_exit (h : Charged calls row trade) (hstatus : row.status ∈ exitStatuses) :
    ∃ closedAt, row.closedAt = some closedAt ∧
      trade.estimatedFunding = estimateFundingCost (stateOf row trade) closedAt row.status := by
  obtain ⟨hbooked, hne⟩ := booked_of_exit hstatus
  obtain ⟨call, action, pnl, hbooking⟩ := h.booked hbooked
  refine ⟨call.event.time, ?_, hbooking.funding⟩
  rw [← hbooking.instant, bookedAt, if_neg hne]

/-- The funding of a signal: the integral of its open quantity up to its last result. -/
structure FundingBooks (calls : List EvaluatorCall) (row : SignalRecord)
    (trade : VirtualTradeRecord) : Prop where
  entered : row.status ∈ filledStatuses → ∃ enteredAt, row.enteredAt = some enteredAt
  halved : row.status ∈ halvedStatuses → ∃ tp1ReachedAt, row.tp1ReachedAt = some tp1ReachedAt
  closed : row.status ∈ exitStatuses → ∃ closedAt, row.closedAt = some closedAt
  atTp1 : ∀ enteredAt tp1ReachedAt, row.status = .tp1Reached → row.enteredAt = some enteredAt →
    row.tp1ReachedAt = some tp1ReachedAt → enteredAt ≤ tp1ReachedAt →
      (trade.estimatedFunding : ℝ) = fundingOver (stateOf row trade) enteredAt tp1ReachedAt
  atExit : ∀ enteredAt closedAt, row.status ∈ exitStatuses → row.enteredAt = some enteredAt →
    row.closedAt = some closedAt → enteredAt ≤ closedAt →
    (∀ tp1ReachedAt, row.tp1ReachedAt = some tp1ReachedAt →
      enteredAt ≤ tp1ReachedAt ∧ tp1ReachedAt ≤ closedAt) →
      (trade.estimatedFunding : ℝ) = fundingOver (stateOf row trade) enteredAt closedAt
  unfilled : row.status ∈ exitStatuses → row.enteredAt = none → trade.estimatedFunding = 0
  oneEvent : ∀ call action pnl enteredAt, Booking calls row trade call action pnl →
    row.status ∈ exitStatuses → (∃ first ∈ call.actions, first.target = .tp1Reached) →
    row.enteredAt = some enteredAt → enteredAt ≤ call.event.time →
      trade.estimatedFunding =
        fundingOf (stateOf row trade) row.quantity enteredAt call.event.time
  result : row.status ∈ bookedTargets → ∃ call action pnl, Booking calls row trade call action pnl

theorem Charged.books (h : Charged calls row trade) (hinterval : 0 < row.fundingIntervalMinutes) :
    FundingBooks calls row trade where
  entered hstatus := Option.isSome_iff_exists.mp (h.entered hstatus)
  halved hstatus := Option.isSome_iff_exists.mp (h.halved hstatus)
  closed hstatus := by
    obtain ⟨closedAt, hclosed, -⟩ := h.at_exit hstatus
    exact ⟨closedAt, hclosed⟩
  atTp1 := by
    intro enteredAt tp1ReachedAt hstatus hentered htp1 hle
    rw [h.at_tp1 hstatus hinterval hentered htp1 hle,
      @fundingOver_of_some (stateOf row trade) _ _ _ htp1 hle le_rfl, fundingOf_self, add_zero]
    rfl
  atExit := by
    intro enteredAt closedAt hstatus hentered hclosed hle htp1
    obtain ⟨stop, hstop, hfunding⟩ := h.at_exit hstatus
    cases hstop.symm.trans hclosed
    cases hreached : row.tp1ReachedAt with
    | none =>
      rw [hfunding, @estimate_full (stateOf row trade) _ _ _ hentered hreached hinterval hle,
        fundingOver_of_none hreached]
    | some tp1ReachedAt =>
      obtain ⟨hstart, hstop⟩ := htp1 tp1ReachedAt hreached
      rw [hfunding, @estimate_halved (stateOf row trade) _ _ _ _ (booked_of_exit hstatus).2 hentered
        hreached hinterval hstart hstop, fundingOver_of_some hreached hstart hstop]
  unfilled := by
    intro hstatus hentered
    obtain ⟨closedAt, -, hfunding⟩ := h.at_exit hstatus
    rw [hfunding]
    exact @estimate_of_waiting (stateOf row trade) _ _ hentered
  oneEvent := by
    intro call action pnl enteredAt hbooking hstatus hfirst hentered hle
    rw [hbooking.funding, @estimate_halved (stateOf row trade) _ _ _ _ (booked_of_exit hstatus).2
      hentered (hbooking.both hfirst) hinterval hle le_rfl, fundingOf_self, add_zero]
    rfl
  result := h.booked

end Amounts

section Runs
variable {db next : Database} {id : Nat} {row : SignalRecord} {trade : VirtualTradeRecord}

/-- The row of a signal once it has reached TP1. -/
def AfterTp1 (id : Nat) (row : SignalRecord) (trade : VirtualTradeRecord) (db : Database) : Prop :=
  ∃ now, db.findSignal id = some now ∧
    (∀ other, SameFunding (stateOf row trade) (stateOf now other)) ∧
    now.enteredAt = row.enteredAt ∧ now.tp1ReachedAt = row.tp1ReachedAt ∧
    now.status ∈ [.tp1Reached, .stoppedAtBreakeven, .tp2Completed, .ambiguous]

theorem AfterTp1.transitioned {request : TransitionRequest} {old : SignalRecord}
    {record : VirtualTradeRecord} {tradeStatus : VirtualTradeStatus}
    {outbox : List NotificationOutboxRecord} (h : AfterTp1 id row trade db)
    (ht : Transitioned db next request old record tradeStatus outbox) :
    AfterTp1 id row trade next := by
  obtain ⟨now, hnow, hsame, hentered, htp1, hstatus⟩ := h
  by_cases hid : id = request.signalId
  · subst hid
    cases hnow.symm.trans ht.signalRow
    have htarget : request.target ∉ [.entered, .tp1Reached] ∧
        request.target ∈ [.stoppedAtBreakeven, .tp2Completed, .ambiguous] := by
      have hlegal := ht.legal
      revert hlegal hstatus
      cases old.status <;> cases request.target <;> simp [signalTransitions]
    refine ⟨_, ht.findSignal, fun other => ?_, ?_, ?_, List.mem_cons_of_mem _ htarget.2⟩
    · exact (hsame other).trans ⟨rfl, rfl, rfl, rfl, rfl⟩
    · simp only [SignalRecord.transitioned]
      rw [if_neg fun heq => htarget.1 (by simp [heq])]
      exact hentered
    · simp only [SignalRecord.transitioned]
      rw [if_neg fun heq => htarget.1 (by simp [heq])]
      exact htp1
  · exact ⟨now, (ht.findSignal_of_ne hid).trans hnow, hsame, hentered, htp1, hstatus⟩

theorem afterTp1Kept (id : Nat) (row : SignalRecord) (trade : VirtualTradeRecord) :
    Kept fun db _ => AfterTp1 id row trade db where
  called _ h := h
  action h _ _ _ _ ht := h.transitioned ht
  opening h _ ht := h.transitioned ht
  checkpointed h hnext := by
    obtain ⟨old, -, rfl | rfl⟩ := checkpointTrade_ok hnext
    · exact h
    · exact h
  recorded h hnext := by
    rcases recordTrackingEvent_ok hnext with ⟨rfl, -⟩ | ⟨-, -, _, _, -, -, -, -, -, rfl⟩
    · exact h
    · exact h
  published h _ hpass := by
    obtain ⟨now, hnow, hrest⟩ := h
    exact ⟨now, (publishOne_keeps_rows hpass).1 id now hnow, hrest⟩

/-- Entered at 1:20, and at TP1 a minute later. -/
def untilTp1 : List ServiceStep :=
  let quiet := tradeAtSecond "a" 0 110
  let overlap := tradeAtSecond "b" 10 110
  let input : CoverageInput := ⟨[quiet, overlap], [overlap], 10 * 1000000, ⟨[], []⟩, []⟩
  [.publish [(candidateRecord 1 1 sampleCandidate, sampleCandidate)] .standard 0,
    .event (.reconcile "BTCUSDT" 0 input) 100,
    .event (.ready "BTCUSDT" input) 100,
    .event (.trade (tradeAtSecond "c" 80 100) false) 100,
    .event (.trade (tradeAtSecond "d" 140 104) true) 100]

def fundedService : LifecycleService :=
  LifecycleService.initial [⟨"BTCUSDT", 480⟩] [⟨1, some (1 / 1000)⟩]
    [candidateRecord 1 1 sampleCandidate]

end Runs

end StructurePulse.Service
