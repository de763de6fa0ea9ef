import StructurePulse.Library.FillLedger
import StructurePulse.Signals.Decimals
import StructurePulse.Signals.Legs

/-!
# The books of the tracker and the ledger of its fills

The evaluators compute cumulative fees and PnL anew for every action. `follow` adds the
fills of an action to a ledger instead: buy at the entry, close half at the first target,
close the rest at the stop in force or the second target. After every action of a run the
books are those of the ledger.
-/

namespace StructurePulse.Signals
open Library
set_option autoImplicit false

section Books

/-- The columns of the virtual trade that the actions book. -/
structure Book where
  realizedPnl : ℚ
  fees : ℚ
  remainingQuantity : ℚ
  deriving Repr, DecidableEq

/-- The virtual trade as it is published. -/
def openBook (plan : LifecycleState) : Book := ⟨0, 0, plan.quantity⟩

/-- A transition overwrites what its action carries. -/
def Book.record (book : Book) (action : LifecycleAction) : Book where
  realizedPnl := action.realizedPnl.getD book.realizedPnl
  fees := action.fees.getD book.fees
  remainingQuantity := action.remainingQuantity.getD book.remainingQuantity

def bookAfter (plan : LifecycleState) (actions : List LifecycleAction) : Book :=
  actions.foldl Book.record (openBook plan)

/-- The status after the actions. -/
def statusAfter (status : SignalStatus) (actions : List LifecycleAction) : SignalStatus :=
  actions.foldl (fun _ action => action.target) status

end Books

section Ledger
variable (plan : LifecycleState)

def buyEntry (ledger : FillLedger ℚ) : FillLedger ℚ :=
  ledger.buy plan.takerFeeRate plan.quantity plan.plannedEntry

def closeAt (quantity price : ℚ) (ledger : FillLedger ℚ) : FillLedger ℚ :=
  ledger.close plan.takerFeeRate (signedMove plan.direction plan.plannedEntry price) quantity price

def closeRest (price : ℚ) (ledger : FillLedger ℚ) : FillLedger ℚ :=
  closeAt plan ledger.position price ledger

/-- The stop of the plan until the first target, then the breakeven stop. -/
def stopInForce (status : SignalStatus) : ℚ :=
  if status = .tp1Reached then feeAdjustedBreakeven plan else plan.stopLoss

/-- The fills of a transition; an ambiguous candle that finds the signal waiting holds the
entry and the stop. -/
def follow (status target : SignalStatus) (ledger : FillLedger ℚ) : FillLedger ℚ :=
  match target with
  | .entered => buyEntry plan ledger
  | .tp1Reached => closeAt plan (plan.quantity / 2) plan.takeProfit1 ledger
  | .tp2Completed => closeRest plan plan.takeProfit2 ledger
  | .stopped => closeRest plan (stopInForce plan status) ledger
  | .stoppedAtBreakeven => closeRest plan (stopInForce plan status) ledger
  | .ambiguous =>
    closeRest plan (stopInForce plan status)
      (if status = .active then buyEntry plan ledger else ledger)
  | _ => ledger

def ledgerFrom : SignalStatus → FillLedger ℚ → List LifecycleAction → FillLedger ℚ
  | _, ledger, [] => ledger
  | status, ledger, action :: actions =>
    ledgerFrom action.target (follow plan status action.target ledger) actions

def ledgerAfter (actions : List LifecycleAction) : FillLedger ℚ :=
  ledgerFrom plan plan.status .empty actions

end Ledger

section Fits
variable {plan state : LifecycleState} {action : LifecycleAction}

/-- What an action in a status books, in terms of the plan. -/
inductive Fits (plan : LifecycleState) : SignalStatus → LifecycleAction → Prop
  | unfilled {action : LifecycleAction}
      (target : action.target = .expired ∨ action.target = .invalidated)
      (pnl : action.realizedPnl = none) (fees : action.fees = none)
      (remaining : action.remainingQuantity = none) : Fits plan .active action
  | entry {action : LifecycleAction} (target : action.target = .entered)
      (pnl : action.realizedPnl = some (-(plan.quantity * plan.plannedEntry * plan.takerFeeRate)))
      (fees : action.fees = some (plan.quantity * plan.plannedEntry * plan.takerFeeRate))
      (remaining : action.remainingQuantity = none) : Fits plan .active action
  | stopOut {action : LifecycleAction} (status : SignalStatus)
      (target : (status = .active ∧ action.target = .ambiguous) ∨
        (status = .entered ∧ (action.target = .stopped ∨ action.target = .ambiguous)))
      (pnl : action.realizedPnl = some (fullExit plan plan.stopLoss).1)
      (fees : action.fees = some (fullExit plan plan.stopLoss).2)
      (remaining : action.remainingQuantity = some 0) : Fits plan status action
  | firstTarget {action : LifecycleAction} (target : action.target = .tp1Reached)
      (pnl : action.realizedPnl = some (tp1Result plan).1)
      (fees : action.fees = some (tp1Result plan).2)
      (remaining : action.remainingQuantity = some (plan.quantity / 2)) :
      Fits plan .entered action
  | breakeven {action : LifecycleAction}
      (target : action.target = .stoppedAtBreakeven ∨ action.target = .ambiguous)
      (pnl : action.realizedPnl = some (tp1ThenExit plan (feeAdjustedBreakeven plan)).1)
      (fees : action.fees = some (tp1ThenExit plan (feeAdjustedBreakeven plan)).2)
      (remaining : action.remainingQuantity = some 0) : Fits plan .tp1Reached action
  | secondTarget {action : LifecycleAction} (target : action.target = .tp2Completed)
      (pnl : action.realizedPnl = some (tp1ThenExit plan plan.takeProfit2).1)
      (fees : action.fees = some (tp1ThenExit plan plan.takeProfit2).2)
      (remaining : action.remainingQuantity = some 0) : Fits plan .tp1Reached action

/-- Every action fits the status that the one before it left. -/
def FitsPath (plan : LifecycleState) : SignalStatus → List LifecycleAction → Prop
  | _, [] => True
  | status, action :: actions => Fits plan status action ∧ FitsPath plan action.target actions

theorem fitsPath_append {status : SignalStatus} {actions more : List LifecycleAction} :
    FitsPath plan status (actions ++ more) ↔
      FitsPath plan status actions ∧ FitsPath plan (statusAfter status actions) more := by
  induction actions generalizing status with
  | nil => exact (and_iff_right trivial).symm
  | cons action actions ih =>
    show Fits plan status action ∧ FitsPath plan action.target (actions ++ more) ↔
      (Fits plan status action ∧ FitsPath plan action.target actions) ∧
        FitsPath plan (statusAfter action.target actions) more
    rw [ih, and_assoc]

/-- Signals that expire or are invalidated book nothing. -/
theorem evaluatePublicTrade_unfilled {trade : PublicTrade}
    (h : action ∈ evaluatePublicTrade state trade)
    (htarget : action.target = .expired ∨ action.target = .invalidated) :
    action.fees = none ∧ action.remainingQuantity = none := by
  rcases evaluatePublicTrade_cases state trade with hnil | ⟨-, hactive⟩ | ⟨-, hentered⟩ | ⟨-, htp1⟩
  · rw [hnil] at h
    cases h
  · rcases hactive with heq | heq | heq
    all_goals
      rw [heq, List.mem_singleton] at h
      subst h
    · exact ⟨rfl, rfl⟩
    · exact ⟨rfl, rfl⟩
    · rcases htarget with ht | ht <;> cases ht
  · rcases hentered with heq | heq | heq
    · rw [heq, List.mem_singleton] at h
      subst h
      rcases htarget with ht | ht <;> cases ht
    · rw [heq] at h
      rcases List.mem_cons.mp h with rfl | hrest
      · rcases htarget with ht | ht <;> cases ht
      · rw [List.mem_singleton.mp hrest] at htarget
        rcases htarget with ht | ht <;> cases ht
    · rw [heq, List.mem_singleton] at h
      subst h
      rcases htarget with ht | ht <;> cases ht
  · rcases htp1 with heq | heq
    all_goals
      rw [heq, List.mem_singleton] at h
      subst h
      rcases htarget with ht | ht <;> cases ht

theorem markAmbiguous_target {eventType : LifecycleEventType} {actions : List LifecycleAction}
    (h : action ∈ markAmbiguous eventType actions) : action.target = .ambiguous := by
  obtain ⟨source, -, rfl⟩ := List.mem_map.mp h
  rfl

theorem evaluateClosedCandle_unfilled {candle : Candle1m}
    (h : action ∈ evaluateClosedCandle state candle)
    (htarget : action.target = .expired ∨ action.target = .invalidated) :
    action.fees = none ∧ action.remainingQuantity = none := by
  have hambiguous : action.target ≠ .ambiguous := by
    intro heq
    rw [heq] at htarget
    rcases htarget with ht | ht <;> cases ht
  unfold evaluateClosedCandle at h
  split at h
  · cases h
  · split at h
    · simp only [closedCandleActive] at h
      split_ifs at h
      · rw [List.mem_singleton.mp h]
        exact ⟨rfl, rfl⟩
      · rw [List.mem_singleton.mp h]
        exact ⟨rfl, rfl⟩
      · cases h
      · exact absurd (markAmbiguous_target h) hambiguous
      · exact evaluatePublicTrade_unfilled h htarget
    · simp only [closedCandleEntered] at h
      split_ifs at h
      · exact absurd (markAmbiguous_target h) hambiguous
      · exact evaluatePublicTrade_unfilled h htarget
      · exact evaluatePublicTrade_unfilled h htarget
      · exact evaluatePublicTrade_unfilled h htarget
      · cases h
    · simp only [closedCandleTp1Reached] at h
      split_ifs at h
      · exact absurd (markAmbiguous_target h) hambiguous
      · exact evaluatePublicTrade_unfilled h htarget
      · exact evaluatePublicTrade_unfilled h htarget
      · cases h
    · cases h

theorem evaluateEvent_unfilled {event : MarketEvent} (h : action ∈ evaluateEvent state event)
    (htarget : action.target = .expired ∨ action.target = .invalidated) :
    action.fees = none ∧ action.remainingQuantity = none := by
  cases event with
  | trade trade => exact evaluatePublicTrade_unfilled h htarget
  | candle candle => exact evaluateClosedCandle_unfilled h htarget

theorem evaluateEvent_legal (state : LifecycleState) (event : MarketEvent) :
    LegalPath state.status (evaluateEvent state event) := by
  cases event with
  | trade trade => exact evaluatePublicTrade_legal state trade
  | candle candle => exact evaluateClosedCandle_legal state candle

theorem fits_tp1Action (hsame : SamePlan plan state) : Fits plan .entered (tp1Action state) := by
  refine .firstTarget rfl ?_ ?_ ?_
  · simp only [tp1Action, hsame.tp1Result_eq]
  · simp only [tp1Action, hsame.tp1Result_eq]
  · simp only [tp1Action, hsame.quantity]

theorem fits_tp2Action (hsame : SamePlan plan state) : Fits plan .tp1Reached (tp2Action state) := by
  refine .secondTarget rfl ?_ ?_ rfl
  · simp only [tp2Action, hsame.takeProfit2, hsame.tp1ThenExit_eq]
  · simp only [tp2Action, hsame.takeProfit2, hsame.tp1ThenExit_eq]

/-- A legal booking of a state that runs on the plan fits the plan. -/
theorem Booked.fits (hsame : SamePlan plan state) (hb : Booked state action)
    (hlegal : action.target ∈ signalTransitions state.status)
    (hunfilled : action.target = .expired ∨ action.target = .invalidated →
      action.fees = none ∧ action.remainingQuantity = none) :
    Fits plan state.status action := by
  cases hb with
  | unfilled status target pnl _ =>
    obtain ⟨hfees, hremaining⟩ := hunfilled target
    rw [status]
    exact .unfilled target pnl hfees hremaining
  | entry status eq =>
    rw [status, eq]
    refine .entry rfl ?_ ?_ rfl
    · simp only [enteredAction, hsame.quantity, hsame.plannedEntry, hsame.takerFeeRate]
    · simp only [enteredAction, hsame.quantity, hsame.plannedEntry, hsame.takerFeeRate]
  | stopOut status target eq =>
    have hexit := hsame.fullExit_eq plan.stopLoss
    refine .stopOut _ ?_ ?_ ?_ ?_
    · rcases status with hactive | hentered
      · rcases target with ht | ht
        · rw [hactive, ht] at hlegal
          exact absurd hlegal (by decide)
        · exact Or.inl ⟨hactive, ht⟩
      · exact Or.inr ⟨hentered, target⟩
    · rw [eq, ← hexit, ← hsame.stopLoss]
      rfl
    · rw [eq, ← hexit, ← hsame.stopLoss]
      rfl
    · rw [eq]
      rfl
  | firstTarget status eq =>
    rw [status, eq]
    exact fits_tp1Action hsame
  | breakeven status target eq =>
    rw [status]
    refine .breakeven target ?_ ?_ ?_
    · rw [eq, ← hsame.feeAdjustedBreakeven_eq, ← hsame.tp1ThenExit_eq]
      rfl
    · rw [eq, ← hsame.feeAdjustedBreakeven_eq, ← hsame.tp1ThenExit_eq]
      rfl
    · rw [eq]
      rfl
  | secondTarget status eq =>
    rcases status with hentered | htp1
    · have htarget : action.target = .tp2Completed := by
        rw [eq]
        rfl
      rw [hentered, htarget] at hlegal
      exact absurd hlegal (by decide)
    · rw [htp1, eq]
      exact fits_tp2Action hsame

/-- The actions of one event fit the plan. -/
theorem evaluateEvent_fits (hsame : SamePlan plan state) (hd : StopDiscipline state)
    (event : MarketEvent) : FitsPath plan state.status (evaluateEvent state event) := by
  rcases evaluateEvent_shape state event with h | ⟨action, h⟩ | ⟨hs, h⟩
  · rw [h]
    trivial
  · have hmem : action ∈ evaluateEvent state event := h ▸ List.mem_singleton_self action
    have hlegal := evaluateEvent_legal state event
    rw [h] at hlegal ⊢
    exact ⟨(evaluateEvent_booked hd hmem).fits hsame hlegal.1 (evaluateEvent_unfilled hmem), trivial⟩
  · rw [h, hs]
    exact ⟨fits_tp1Action hsame, fits_tp2Action hsame, trivial⟩

theorem applyActions_status (state : LifecycleState) (eventTime : Int)
    (actions : List LifecycleAction) :
    (applyActions state eventTime actions).status = statusAfter state.status actions := by
  induction actions generalizing state with
  | nil => rfl
  | cons action actions ih => exact ih _

/-- The actions of a run, in order. -/
def actionsOf (plan : LifecycleState) (events : List MarketEvent) : List LifecycleAction :=
  (bookings plan events).map Prod.snd

theorem actionsOf_cons (state : LifecycleState) (event : MarketEvent) (events : List MarketEvent) :
    actionsOf state (event :: events) =
      evaluateEvent state event ++ actionsOf (stepEvent state event) events := by
  unfold actionsOf
  rw [bookings, List.map_append, List.map_map]
  congr 1
  exact List.map_id _

/-- All actions of a run fit the plan it started from. -/
theorem actionsOf_fits (hsame : SamePlan plan state) (hd : StopDiscipline state)
    (events : List MarketEvent) : FitsPath plan state.status (actionsOf state events) := by
  induction events generalizing state with
  | nil => trivial
  | cons event events ih =>
    rw [actionsOf_cons, fitsPath_append]
    refine ⟨evaluateEvent_fits hsame hd event, ?_⟩
    rw [← applyActions_status state event.time]
    exact ih (hsame.trans (SamePlan.stepEvent state event)) (hd.stepEvent event)

end Fits

section Legality

/-- The targets lead along the virtual-trade table. -/
def VirtualPath : VirtualTradeStatus → List LifecycleAction → Prop
  | _, [] => True
  | status, action :: actions => ∃ next, action.target.tradeStatus = some next ∧
      next ∈ virtualTradeTransitions status ∧ VirtualPath next actions

theorem LegalPath.virtual {status : SignalStatus} {trade : VirtualTradeStatus}
    {actions : List LifecycleAction} (h : LegalPath status actions)
    (hstatus : status.tradeStatus = some trade) (hopen : status ≠ .preparing) :
    VirtualPath trade actions := by
  induction actions generalizing status trade with
  | nil => trivial
  | cons action actions ih =>
    obtain ⟨hmem, hrest⟩ := h
    obtain ⟨s, t, hs, ht, hstep⟩ := tradeStatus_of_transition hmem
    have hst : s = trade := Option.some.inj (hs.symm.trans hstatus)
    have hnext : action.target ≠ .active ∧ action.target ≠ .preparing := by
      cases status <;> constructor <;> intro heq <;> rw [heq] at hmem <;>
        first | exact absurd hmem (by decide) | exact absurd rfl hopen
    rcases hstep with ⟨hactive, -⟩ | ⟨-, hvirtual⟩
    · exact absurd hactive hnext.1
    · exact ⟨t, ht, hst ▸ hvirtual, ih hrest ht hnext.2⟩

theorem fits_legal {plan : LifecycleState} {status : SignalStatus} {action : LifecycleAction}
    (h : Fits plan status action) : action.target ∈ signalTransitions status := by
  cases h with
  | unfilled target =>
    rcases target with ht | ht <;> rw [ht] <;> decide
  | entry target => rw [target]; decide
  | stopOut _ target =>
    rcases target with ⟨rfl, ht⟩ | ⟨rfl, ht | ht⟩ <;> rw [ht] <;> decide
  | firstTarget target => rw [target]; decide
  | breakeven target =>
    rcases target with ht | ht <;> rw [ht] <;> decide
  | secondTarget target => rw [target]; decide

theorem FitsPath.legal {plan : LifecycleState} {status : SignalStatus}
    {actions : List LifecycleAction} (h : FitsPath plan status actions) :
    LegalPath status actions := by
  induction actions generalizing status with
  | nil => trivial
  | cons action actions ih => exact ⟨fits_legal h.1, ih h.2⟩

/-- A path that goes on from a terminal status is at its end. -/
theorem LegalPath.eq_nil_of_terminal {status : SignalStatus} {actions : List LifecycleAction}
    (h : LegalPath status actions) (hterminal : status.isTerminal = true) : actions = [] := by
  cases actions with
  | nil => rfl
  | cons action actions =>
    have hactive := isActive_of_transition h.1
    rw [not_isTerminal_of_isActive hactive] at hterminal
    cases hterminal

end Legality

section Balance
variable {plan : LifecycleState} {status : SignalStatus} {book : Book} {ledger : FillLedger ℚ}
variable {action : LifecycleAction}

/-- The columns are the ledger's. -/
structure Agrees (book : Book) (ledger : FillLedger ℚ) : Prop where
  pnl : book.realizedPnl = ledger.realized
  fees : book.fees = ledger.fees
  remaining : book.remainingQuantity = ledger.position

/-- The books and the ledger of a signal in a status: nothing is filled before the entry, and
nothing is open at the end of a trade. -/
def Balanced (plan : LifecycleState) (status : SignalStatus) (book : Book)
    (ledger : FillLedger ℚ) : Prop :=
  match status with
  | .entered => ledger = buyEntry plan .empty ∧ Agrees book ledger
  | .tp1Reached =>
    ledger = closeAt plan (plan.quantity / 2) plan.takeProfit1 (buyEntry plan .empty) ∧
      Agrees book ledger
  | .stopped | .stoppedAtBreakeven | .tp2Completed | .ambiguous =>
    ledger.position = 0 ∧ Agrees book ledger
  | _ => book = openBook plan ∧ ledger = .empty

theorem agrees_entry : Agrees
    ⟨-(plan.quantity * plan.plannedEntry * plan.takerFeeRate),
      plan.quantity * plan.plannedEntry * plan.takerFeeRate, plan.quantity⟩
    (buyEntry plan .empty) := by
  unfold buyEntry FillLedger.buy FillLedger.empty
  constructor
  · ring
  · ring
  · ring

/-- Buying everything and closing it at one price is the full exit. -/
theorem agrees_fullExit (price : ℚ) : Agrees
    ⟨(fullExit plan price).1, (fullExit plan price).2, 0⟩
    (closeRest plan price (buyEntry plan .empty)) := by
  unfold closeRest closeAt buyEntry FillLedger.close FillLedger.buy FillLedger.empty fullExit
  constructor
  · ring
  · ring
  · ring

theorem agrees_tp1 : Agrees
    ⟨(tp1Result plan).1, (tp1Result plan).2, plan.quantity / 2⟩
    (closeAt plan (plan.quantity / 2) plan.takeProfit1 (buyEntry plan .empty)) := by
  unfold closeAt buyEntry FillLedger.close FillLedger.buy FillLedger.empty tp1Result
  constructor
  · ring
  · ring
  · ring

/-- Closing one half after the other is the two-legged exit. -/
theorem agrees_tp1ThenExit (price : ℚ) : Agrees
    ⟨(tp1ThenExit plan price).1, (tp1ThenExit plan price).2, 0⟩
    (closeRest plan price
      (closeAt plan (plan.quantity / 2) plan.takeProfit1 (buyEntry plan .empty))) := by
  unfold closeRest closeAt buyEntry FillLedger.close FillLedger.buy FillLedger.empty tp1ThenExit
  constructor
  · ring
  · ring
  · ring

theorem position_closeRest (price : ℚ) : (closeRest plan price ledger).position = 0 :=
  FillLedger.position_close_all

/-- One transition keeps the books balanced. -/
theorem Balanced.record (h : Balanced plan status book ledger) (hfits : Fits plan status action) :
    Balanced plan action.target (book.record action)
      (follow plan status action.target ledger) := by
  cases hfits with
  | unfilled target pnl fees remaining =>
    obtain ⟨hbook, hledger⟩ := h
    have hrecord : book.record action = openBook plan := by
      unfold Book.record
      rw [pnl, fees, remaining, hbook]
      rfl
    rcases target with ht | ht
    · rw [ht]
      exact ⟨hrecord, hledger⟩
    · rw [ht]
      exact ⟨hrecord, hledger⟩
  | entry target pnl fees remaining =>
    obtain ⟨hbook, hledger⟩ := h
    rw [target]
    refine ⟨congrArg (buyEntry plan) hledger, ?_⟩
    unfold Book.record
    rw [pnl, fees, remaining, hbook, hledger]
    exact agrees_entry
  | stopOut _ target pnl fees remaining =>
    have hagrees : Agrees (book.record action) (closeRest plan plan.stopLoss (buyEntry plan .empty)) := by
      unfold Book.record
      rw [pnl, fees, remaining]
      exact agrees_fullExit plan.stopLoss
    rcases target with ⟨rfl, ht⟩ | ⟨rfl, ht | ht⟩
    · obtain ⟨-, rfl⟩ := h
      rw [ht]
      exact ⟨position_closeRest _, hagrees⟩
    · obtain ⟨rfl, -⟩ := h
      rw [ht]
      exact ⟨position_closeRest _, hagrees⟩
    · obtain ⟨rfl, -⟩ := h
      rw [ht]
      exact ⟨position_closeRest _, hagrees⟩
  | firstTarget target pnl fees remaining =>
    obtain ⟨rfl, -⟩ := h
    rw [target]
    refine ⟨rfl, ?_⟩
    unfold Book.record
    rw [pnl, fees, remaining]
    exact agrees_tp1
  | breakeven target pnl fees remaining =>
    obtain ⟨rfl, -⟩ := h
    have hagrees : Agrees (book.record action) (closeRest plan (feeAdjustedBreakeven plan)
        (closeAt plan (plan.quantity / 2) plan.takeProfit1 (buyEntry plan .empty))) := by
      unfold Book.record
      rw [pnl, fees, remaining]
      exact agrees_tp1ThenExit _
    rcases target with ht | ht
    · rw [ht]
      exact ⟨position_closeRest _, hagrees⟩
    · rw [ht]
      exact ⟨position_closeRest _, hagrees⟩
  | secondTarget target pnl fees remaining =>
    obtain ⟨rfl, -⟩ := h
    rw [target]
    refine ⟨position_closeRest _, ?_⟩
    unfold Book.record
    rw [pnl, fees, remaining]
    exact agrees_tp1ThenExit _

theorem Balanced.run {actions : List LifecycleAction} (h : Balanced plan status book ledger)
    (hpath : FitsPath plan status actions) :
    Balanced plan (statusAfter status actions) (actions.foldl Book.record book)
      (ledgerFrom plan status ledger actions) := by
  induction actions generalizing status book ledger with
  | nil => exact h
  | cons action actions ih => exact ih (h.record hpath.1) hpath.2

theorem balanced_after {actions : List LifecycleAction} (hactive : plan.status = .active)
    (hpath : FitsPath plan .active actions) :
    Balanced plan (statusAfter .active actions) (bookAfter plan actions)
      (ledgerAfter plan actions) := by
  have hstart : Balanced plan .active (openBook plan) .empty := ⟨rfl, rfl⟩
  have hrun := hstart.run hpath
  unfold ledgerAfter
  rw [hactive]
  exact hrun

end Balance

section Fees
variable {plan : LifecycleState} {status : SignalStatus} {book : Book} {ledger : FillLedger ℚ}

/-- The levels of a plan are prices. -/
structure Priced (plan : LifecycleState) : Prop where
  stopLoss : 0 ≤ plan.stopLoss
  takeProfit1 : 0 ≤ plan.takeProfit1
  takeProfit2 : 0 ≤ plan.takeProfit2

theorem Funded.breakeven_nonneg (h : Funded plan) : 0 ≤ feeAdjustedBreakeven plan := by
  have hentry := le_of_lt h.plannedEntry
  have hfee := h.feeNonneg
  have hbelow : 0 ≤ 1 - plan.takerFeeRate := sub_nonneg.mpr (le_of_lt h.feeLt)
  unfold feeAdjustedBreakeven
  cases plan.direction with
  | long => positivity
  | short => positivity

theorem stopInForce_nonneg (hfunded : Funded plan) (hpriced : Priced plan) :
    0 ≤ stopInForce plan status := by
  unfold stopInForce
  split
  · exact hfunded.breakeven_nonneg
  · exact hpriced.stopLoss

theorem Balanced.position_nonneg (h : Balanced plan status book ledger) (hfunded : Funded plan) :
    0 ≤ ledger.position := by
  have hquantity := hfunded.quantity
  have hentered : (buyEntry plan .empty).position = plan.quantity := zero_add _
  cases status with
  | entered =>
    rw [h.1, hentered]
    exact le_of_lt hquantity
  | tp1Reached =>
    have hhalf : (closeAt plan (plan.quantity / 2) plan.takeProfit1 (buyEntry plan .empty)).position
        = plan.quantity - plan.quantity / 2 := congrArg (· - plan.quantity / 2) hentered
    rw [h.1, hhalf]
    linarith
  | stopped | stoppedAtBreakeven | tp2Completed | ambiguous => exact le_of_eq h.1.symm
  | suppressed | preparing | active | expired | invalidated | coverageFailed =>
    exact le_of_eq (congrArg FillLedger.position h.2).symm

theorem fees_le_closeRest (hfunded : Funded plan) (hposition : 0 ≤ ledger.position) {price : ℚ}
    (hprice : 0 ≤ price) : ledger.fees ≤ (closeRest plan price ledger).fees :=
  FillLedger.fees_le_close (mul_nonneg (mul_nonneg hposition hprice) hfunded.feeNonneg)

/-- Every fill pays a fee. -/
theorem fees_le_follow (hfunded : Funded plan) (hpriced : Priced plan)
    (hposition : 0 ≤ ledger.position) (target : SignalStatus) :
    ledger.fees ≤ (follow plan status target ledger).fees := by
  have hquantity := le_of_lt hfunded.quantity
  have hfee := hfunded.feeNonneg
  have hbuy : ledger.fees ≤ (buyEntry plan ledger).fees :=
    FillLedger.fees_le_buy
      (mul_nonneg (mul_nonneg hquantity (le_of_lt hfunded.plannedEntry)) hfee)
  have hstop := @stopInForce_nonneg plan status hfunded hpriced
  cases target with
  | entered => exact hbuy
  | tp1Reached =>
    exact FillLedger.fees_le_close
      (mul_nonneg (mul_nonneg (div_nonneg hquantity zero_le_two) hpriced.takeProfit1) hfee)
  | tp2Completed => exact fees_le_closeRest hfunded hposition hpriced.takeProfit2
  | stopped | stoppedAtBreakeven => exact fees_le_closeRest hfunded hposition hstop
  | ambiguous =>
    simp only [follow]
    split
    · have hbought : 0 ≤ (buyEntry plan ledger).position := add_nonneg hposition hquantity
      exact hbuy.trans (fees_le_closeRest hfunded hbought hstop)
    · exact fees_le_closeRest hfunded hposition hstop
  | suppressed | preparing | active | expired | invalidated | coverageFailed => exact le_refl _

theorem Balanced.cumulative (h : Balanced plan status book ledger) :
    book.realizedPnl = ledger.realized ∧ book.fees = ledger.fees := by
  cases status with
  | entered | tp1Reached | stopped | stoppedAtBreakeven | tp2Completed | ambiguous =>
    exact ⟨h.2.pnl, h.2.fees⟩
  | suppressed | preparing | active | expired | invalidated | coverageFailed =>
    rw [h.1, h.2]
    exact ⟨rfl, rfl⟩

end Fees

section Runs
variable {plan : LifecycleState}

theorem bookAfter_concat (actions : List LifecycleAction) (action : LifecycleAction) :
    bookAfter plan (actions ++ [action]) = (bookAfter plan actions).record action :=
  List.foldl_append

theorem ledgerFrom_concat (status : SignalStatus) (ledger : FillLedger ℚ)
    (actions : List LifecycleAction) (action : LifecycleAction) :
    ledgerFrom plan status ledger (actions ++ [action]) =
      follow plan (statusAfter status actions) action.target (ledgerFrom plan status ledger actions) := by
  induction actions generalizing status ledger with
  | nil => rfl
  | cons first actions ih => exact ih _ _

/-- A fill has been made. -/
def SignalStatus.isFilled : SignalStatus → Bool
  | .entered | .tp1Reached | .stopped | .stoppedAtBreakeven | .tp2Completed | .ambiguous => true
  | _ => false

/-- What the books are worth after some actions of a run. -/
structure BooksEqualLedger (plan : LifecycleState) (actions : List LifecycleAction) : Prop where
  pnl : (bookAfter plan actions).realizedPnl = (ledgerAfter plan actions).realized
  fees : (bookAfter plan actions).fees = (ledgerAfter plan actions).fees
  remaining : (statusAfter plan.status actions).isFilled = true →
    (bookAfter plan actions).remainingQuantity = (ledgerAfter plan actions).position
  waiting : (statusAfter plan.status actions).isFilled = false →
    bookAfter plan actions = openBook plan ∧ ledgerAfter plan actions = .empty
  flat : (bookAfter plan actions).remainingQuantity = 0 ↔
    (statusAfter plan.status actions).isFilled = true ∧
      (statusAfter plan.status actions).isTerminal = true

theorem Balanced.remaining {status : SignalStatus} {book : Book} {ledger : FillLedger ℚ}
    (h : Balanced plan status book ledger) (hfilled : status.isFilled = true) :
    book.remainingQuantity = ledger.position := by
  cases status with
  | entered | tp1Reached | stopped | stoppedAtBreakeven | tp2Completed | ambiguous =>
    exact h.2.remaining
  | suppressed | preparing | active | expired | invalidated | coverageFailed => cases hfilled

theorem Balanced.waiting {status : SignalStatus} {book : Book} {ledger : FillLedger ℚ}
    (h : Balanced plan status book ledger) (hfilled : status.isFilled = false) :
    book = openBook plan ∧ ledger = .empty := by
  cases status with
  | entered | tp1Reached | stopped | stoppedAtBreakeven | tp2Completed | ambiguous => cases hfilled
  | suppressed | preparing | active | expired | invalidated | coverageFailed => exact h

/-- Nothing is left of the quantity exactly at the end of a trade that was entered. -/
theorem Balanced.flat_iff {status : SignalStatus} {book : Book} {ledger : FillLedger ℚ}
    (h : Balanced plan status book ledger) (hquantity : 0 < plan.quantity) :
    book.remainingQuantity = 0 ↔ status.isFilled = true ∧ status.isTerminal = true := by
  have hentered : (buyEntry plan .empty).position = plan.quantity := zero_add _
  cases status with
  | entered =>
    rw [h.2.remaining, h.1, hentered]
    exact iff_of_false (ne_of_gt hquantity) (by decide)
  | tp1Reached =>
    have hhalf : (closeAt plan (plan.quantity / 2) plan.takeProfit1 (buyEntry plan .empty)).position
        = plan.quantity - plan.quantity / 2 := congrArg (· - plan.quantity / 2) hentered
    rw [h.2.remaining, h.1, hhalf]
    refine iff_of_false ?_ (by decide)
    linarith
  | stopped | stoppedAtBreakeven | tp2Completed | ambiguous =>
    exact iff_of_true (h.2.remaining.trans h.1) ⟨rfl, rfl⟩
  | suppressed | preparing | active | expired | invalidated | coverageFailed =>
    rw [h.1]
    exact iff_of_false (ne_of_gt hquantity) (fun hfilled => by cases hfilled.1)

theorem Balanced.booksEqualLedger {actions : List LifecycleAction}
    (h : Balanced plan (statusAfter plan.status actions) (bookAfter plan actions)
      (ledgerAfter plan actions)) (hquantity : 0 < plan.quantity) :
    BooksEqualLedger plan actions :=
  ⟨h.cumulative.1, h.cumulative.2, h.remaining, h.waiting, h.flat_iff hquantity⟩

/-- Half the quantity, bought at the entry. -/
def halfBought (plan : LifecycleState) : FillLedger ℚ :=
  FillLedger.empty.buy plan.takerFeeRate (plan.quantity / 2) plan.plannedEntry

theorem realized_halfBought (price : ℚ) :
    (closeRest plan price (halfBought plan)).realized = halfLeg plan price := by
  unfold closeRest closeAt halfBought FillLedger.close FillLedger.buy FillLedger.empty halfLeg
  ring

/-- A trade that ends at the breakeven stop is worth its first half. -/
theorem pnl_of_stoppedAtBreakeven (hfunded : Funded plan) {status : SignalStatus} {book : Book}
    {action : LifecycleAction} (hfits : Fits plan status action)
    (htarget : action.target = .stoppedAtBreakeven) :
    (book.record action).realizedPnl =
      (closeRest plan plan.takeProfit1 (halfBought plan)).realized := by
  cases hfits with
  | unfilled target =>
    rcases target with ht | ht
    · rw [ht] at htarget
      cases htarget
    · rw [ht] at htarget
      cases htarget
  | entry target =>
    rw [target] at htarget
    cases htarget
  | stopOut _ target =>
    rcases target with ⟨-, ht⟩ | ⟨-, ht | ht⟩
    · rw [ht] at htarget
      cases htarget
    · rw [ht] at htarget
      cases htarget
    · rw [ht] at htarget
      cases htarget
  | firstTarget target =>
    rw [target] at htarget
    cases htarget
  | breakeven _ pnl =>
    unfold Book.record
    rw [pnl, Option.getD_some, tp1ThenExit_eq_legs, hfunded.halfLeg_breakeven, add_zero,
      realized_halfBought]
  | secondTarget target =>
    rw [target] at htarget
    cases htarget

/-- Along every run of trades and candles the books are those of the ledger of fills, and the
actions those that both tables allow. -/
theorem books_equal_ledger (hactive : plan.status = .active)
    (hstop : plan.currentStop = plan.stopLoss) (hfunded : Funded plan)
    (events : List MarketEvent) :
    LegalPath .active (actionsOf plan events) ∧
    VirtualPath .waitingEntry (actionsOf plan events) ∧
    (∀ done, done <+: actionsOf plan events →
      (statusAfter .active done).isTerminal = true → done = actionsOf plan events) ∧
    (∀ done, done <+: actionsOf plan events → BooksEqualLedger plan done) ∧
    (Priced plan → ∀ done action, done ++ [action] <+: actionsOf plan events →
      (bookAfter plan done).fees ≤ (bookAfter plan (done ++ [action])).fees) ∧
    (closeRest plan (feeAdjustedBreakeven plan) (halfBought plan)).realized = 0 ∧
    (∀ done action, done ++ [action] <+: actionsOf plan events →
      action.target = .stoppedAtBreakeven →
      (bookAfter plan (done ++ [action])).realizedPnl =
        (closeRest plan plan.takeProfit1 (halfBought plan)).realized) := by
  have hdiscipline : StopDiscipline plan :=
    ⟨fun _ => hstop, fun h => by rw [hactive] at h; cases h⟩
  have hfits : FitsPath plan .active (actionsOf plan events) :=
    hactive ▸ actionsOf_fits (SamePlan.refl plan) hdiscipline events
  have hbefore : ∀ done, done <+: actionsOf plan events → FitsPath plan .active done := by
    rintro done ⟨more, hmore⟩
    rw [← hmore, fitsPath_append] at hfits
    exact hfits.1
  have hbalanced := fun done hdone => balanced_after hactive (hbefore done hdone)
  refine ⟨hfits.legal, hfits.legal.virtual rfl (by decide), ?_, ?_, ?_, ?_, ?_⟩
  · rintro done ⟨more, hmore⟩ hterminal
    rw [← hmore, fitsPath_append] at hfits
    rw [← hmore, hfits.2.legal.eq_nil_of_terminal hterminal, List.append_nil]
  · intro done hdone
    have h := hbalanced done hdone
    rw [← hactive] at h
    exact h.booksEqualLedger hfunded.quantity
  · intro hpriced done action hdone
    have hearlier := hbalanced done ((List.prefix_append done [action]).trans hdone)
    have hlater := hbalanced (done ++ [action]) hdone
    rw [hearlier.cumulative.2, hlater.cumulative.2]
    unfold ledgerAfter
    rw [ledgerFrom_concat]
    exact fees_le_follow hfunded hpriced (hearlier.position_nonneg hfunded) action.target
  · rw [realized_halfBought, hfunded.halfLeg_breakeven]
  · intro done action hdone htarget
    have hlast := hbefore _ hdone
    rw [fitsPath_append] at hlast
    rw [bookAfter_concat]
    exact pnl_of_stoppedAtBreakeven hfunded hlast.2.1 htarget

def samplePlan : LifecycleState where
  signalId := 1
  symbol := "BTCUSDT"
  direction := .long
  status := .active
  entryLower := 99
  entryUpper := 101
  plannedEntry := 100
  stopLoss := 95
  takeProfit1 := 105
  takeProfit2 := 110
  quantity := 2
  riskAmount := 10
  takerFeeRate := 1 / 1000
  expiresAt := 600000000
  currentStop := 95

def sampleFill (price : ℚ) (executedAt : Int) : MarketEvent :=
  .trade
    { tradeId := "t", symbol := "BTCUSDT", price := price, size := 1, side := .buy,
      executedAt := executedAt, sequence := 0 }

/-- The entry, the first target in a candle, and the breakeven stop. -/
def sampleEvents : List MarketEvent :=
  [sampleFill 100 0,
    .candle
      { symbol := "BTCUSDT", openTime := 60000000, openPrice := 102, highPrice := 106,
        lowPrice := 101, closePrice := 104, volume := 1, turnover := 1 },
    sampleFill 99 200000000, sampleFill 120 300000000]

theorem books_equal_ledger_sample :
    (actionsOf samplePlan sampleEvents).map LifecycleAction.target =
      [.entered, .tp1Reached, .stoppedAtBreakeven] ∧
    LegalPath .active (actionsOf samplePlan sampleEvents) ∧
    BooksEqualLedger samplePlan (actionsOf samplePlan sampleEvents) := by
  have hfunded : Funded samplePlan := ⟨by decide +kernel, by decide +kernel, by decide +kernel,
    by decide +kernel⟩
  obtain ⟨hlegal, -, -, hbooks, -⟩ := books_equal_ledger rfl rfl hfunded sampleEvents
  exact ⟨by decide +kernel, hlegal, hbooks _ (List.prefix_refl _)⟩

def roundedPlan : LifecycleState := { samplePlan with takerFeeRate := 55 / 100000 }

/-- What the tracker books for `roundedPlan`, and the ledger of the same fills: the entry, half
at the first target, the rest at the stop the tracker holds. -/
def roundedActions : List LifecycleAction :=
  Rounded.actionsOf defaultContext roundedPlan sampleEvents

def heldStop : ℚ := (Rounded.feeAdjustedBreakeven defaultContext roundedPlan).value

def roundedLedger : FillLedger ℚ :=
  closeRest roundedPlan heldStop
    (closeAt roundedPlan (roundedPlan.quantity / 2) roundedPlan.takeProfit1
      (buyEntry roundedPlan .empty))

/-- With 28 digits the books are not the ledger's, and the half that is closed at the
breakeven stop keeps a remainder. -/
theorem rounded_books_leave_ledger :
    Funded roundedPlan ∧
      roundedActions.map LifecycleAction.target = [.entered, .tp1Reached, .stoppedAtBreakeven] ∧
      (roundedActions.map LifecycleAction.currentStop)[1]? = some (some heldStop) ∧
      (bookAfter roundedPlan roundedActions).realizedPnl ≠ roundedLedger.realized ∧
      (closeRest roundedPlan heldStop (halfBought roundedPlan)).realized ≠ 0 := by
  refine ⟨⟨?_, ?_, ?_, ?_⟩, ?_⟩ <;> decide +kernel

end Runs

end StructurePulse.Signals
