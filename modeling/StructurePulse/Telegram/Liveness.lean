import StructurePulse.Telegram.FairService

/-!
# What is left behind, and the result

A row stays in `sending` only where the service that claimed it never marks it. A service that
is the only one to claim leaves no such row: at the end of each of its rounds only the rows
that were being sent before its first round can still be in that status.
-/

namespace StructurePulse.Telegram
open Library
set_option autoImplicit false

section Sending
variable {localTime : String → Int → Option Int} {maxAttempts : Nat} {retryBase : Int}
variable {world next : World} {service : Nat} {P : Nat → Prop}

def Action.isClaim : Action → Bool
  | .claim _ _ _ => true
  | _ => false

/-- Only rows of these ids are being sent. -/
def OnlySending (P : Nat → Prop) (rows : List DeliveryRecord) : Prop :=
  ∀ row ∈ rows, row.status = .sending → P row.id

/-- An update that starts no send call. -/
theorem OnlySending.updateWhere {rows : List DeliveryRecord} (h : OnlySending P rows)
    {test : DeliveryRecord → Bool} {change : DeliveryRecord → DeliveryRecord}
    (hchange : ∀ row, (change row).status ≠ .sending) :
    OnlySending P (updateWhere test change rows) := by
  intro row hrow hsending
  obtain ⟨old, hold, heq⟩ := List.mem_map.mp hrow
  split at heq
  · rw [← heq] at hsending
    exact absurd hsending (hchange old)
  · rw [← heq] at hsending ⊢
    exact h old hold hsending

theorem materializePending_only {tables : Tables} (h : OnlySending P tables.deliveries)
    (userIds : List Int) (batchSize : Nat) (now : Int) (locked : Nat → Bool) :
    OnlySending P
      (materializePending localTime tables userIds batchSize now locked).deliveries := by
  unfold materializePending
  split
  · exact h
  · apply List.foldlRecOn (motive := fun mid : Tables => OnlySending P mid.deliveries) _ _ h
    intro mid hmid outbox _
    unfold expand
    apply List.foldlRecOn (motive := fun mid : Tables => OnlySending P mid.deliveries) _ _ hmid
    intro inner hinner user _
    unfold insertDelivery
    split
    · exact hinner
    · -- what the policy lets through is pending
      refine forall_mem_append_singleton hinner fun hsending => ?_
      have hpending := @deliveryPolicy_final localTime outbox user now (by
        rw [show (deliveryPolicy localTime outbox user now).1 = .sending from hsending]
        rfl)
      rw [show (deliveryPolicy localTime outbox user now).1 = .sending from hsending] at hpending
      cases hpending

theorem markOutcome_only {tables : Tables} (h : OnlySending P tables.deliveries)
    (delivery : PendingDelivery) (now : Int) (outcome : SendOutcome) :
    OnlySending P (markOutcome retryBase tables delivery now outcome).deliveries := by
  cases outcome with
  | success messageId => exact h.updateWhere fun row hsending => by cases hsending
  | retryable error retryAfter => exact h.updateWhere fun row hsending => by cases hsending
  | permanent error => exact h.updateWhere fun row hsending => by cases hsending
  | unknown error => exact h.updateWhere fun row hsending => by cases hsending

/-- Only a claim makes a row that is being sent. -/
theorem step_only {action : Action} (h : OnlySending P world.tables.deliveries)
    (hclaim : action.isClaim = false)
    (hstep : step localTime maxAttempts retryBase world action = .ok next) :
    OnlySending P next.tables.deliveries := by
  cases action with
  | recover other now cutoff locked =>
    simp only [step] at hstep
    split at hstep
    · cases hstep
      exact h.updateWhere fun row hsending => by cases hsending
    · cases hstep
  | materialize other userIds batchSize now locked =>
    simp only [step] at hstep
    split at hstep
    · cases hstep
      exact materializePending_only h userIds batchSize now locked
    · cases hstep
  | claim other now locked => cases hclaim
  | send other =>
    simp only [step] at hstep
    split at hstep
    · cases hstep
      exact h
    · cases hstep
  | answer other outcome =>
    simp only [step] at hstep
    split at hstep
    · cases hstep
      exact h
    · cases hstep
  | mark other now =>
    simp only [step] at hstep
    split at hstep
    · cases hstep
      exact markOutcome_only h _ now _
    · cases hstep
  | crash other =>
    cases hstep
    exact h
  | enqueue eventType payload score availableAt =>
    cases hstep
    exact h
  | configure user =>
    cases hstep
    unfold saveUser
    split <;> exact h

theorem transact_only {action : Action} (h : OnlySending P world.tables.deliveries)
    (hclaim : action.isClaim = false) :
    OnlySending P (transact (step localTime maxAttempts retryBase) world action).tables.deliveries :=
  transact_invariant (P := fun next : World => OnlySending P next.tables.deliveries) h
    fun _ hstep => step_only h hclaim hstep

theorem runAll_only {actions : List Action} (h : OnlySending P world.tables.deliveries)
    (hclaims : ∀ action ∈ actions, action.isClaim = false) :
    OnlySending P
      (runAll (step localTime maxAttempts retryBase) world actions).tables.deliveries := by
  induction actions generalizing world with
  | nil => exact h
  | cons action actions ih =>
    apply ih (transact_only h (hclaims action List.mem_cons_self))
    intro other hother
    exact hclaims other (List.mem_cons_of_mem action hother)

/-- The service is idle, or it is at work on one more row. -/
def Busy (P : Nat → Prop) (service : Nat) (stage : PendingDelivery → Phase) (world : World) : Prop :=
  (world.phase service = .idle ∧ OnlySending P world.tables.deliveries) ∨
  ∃ delivery, world.phase service = stage delivery ∧
    OnlySending (fun id => P id ∨ id = delivery.deliveryId) world.tables.deliveries

theorem Busy.others {stage : PendingDelivery → Phase} {actions : List Action}
    (h : Busy P service stage world) (hforeign : ∀ action ∈ actions, action.service ≠ some service)
    (hclaims : ∀ action ∈ actions, action.isClaim = false) :
    Busy P service stage (runAll (step localTime maxAttempts retryBase) world actions) := by
  have hphase := @phase_others localTime maxAttempts retryBase service world actions hforeign
  rcases h with ⟨hidle, honly⟩ | ⟨delivery, hstage, honly⟩
  · exact Or.inl ⟨hphase.trans hidle, runAll_only honly hclaims⟩
  · exact Or.inr ⟨delivery, hphase.trans hstage, runAll_only honly hclaims⟩

theorem Busy.claim (hphase : world.phase service = .materialized)
    (h : OnlySending P world.tables.deliveries) (now : Int) (locked : Nat → Nat → Bool) :
    Busy P service .claimed
      (transact (step localTime maxAttempts retryBase) world (.claim service now locked)) := by
  have hprepared : OnlySending P (failExhausted (skipPaused world.tables now (locked 0)) maxAttempts
      now (locked 1)).deliveries := by
    apply OnlySending.updateWhere
    · exact h.updateWhere fun row hsending => by cases hsending
    · intro row hsending
      cases hsending
  unfold transact step
  simp only [hphase]
  unfold claimDelivery claimFirst
  cases hfound : (claimable (failExhausted (skipPaused world.tables now (locked 0)) maxAttempts
      now (locked 1)) maxAttempts now (locked 2)).head? with
  | none => exact Or.inl ⟨Function.update_self service _ _, hprepared⟩
  | some found =>
    refine Or.inr ⟨_, Function.update_self service _ _, ?_⟩
    intro row hrow hsending
    obtain ⟨old, hold, heq⟩ := List.mem_map.mp hrow
    split at heq
    · rename_i htest
      rw [← heq]
      exact Or.inr (of_decide_eq_true htest)
    · rw [← heq] at hsending ⊢
      exact Or.inl (hprepared old hold hsending)

theorem Busy.send (h : Busy P service .claimed world) :
    Busy P service .sending
      (transact (step localTime maxAttempts retryBase) world (.send service)) := by
  rcases h with ⟨hidle, honly⟩ | ⟨delivery, hstage, honly⟩
  · exact Or.inl ⟨phase_send.1 hidle, transact_only honly rfl⟩
  · exact Or.inr ⟨delivery, phase_send.2 delivery hstage, transact_only honly rfl⟩

theorem Busy.answer (h : Busy P service .sending world) (outcome : SendOutcome) :
    Busy P service (Phase.answered · outcome)
      (transact (step localTime maxAttempts retryBase) world (.answer service outcome)) := by
  rcases h with ⟨hidle, honly⟩ | ⟨delivery, hstage, honly⟩
  · exact Or.inl ⟨(phase_answer outcome).1 hidle, transact_only honly rfl⟩
  · exact Or.inr ⟨delivery, (phase_answer outcome).2 delivery hstage, transact_only honly rfl⟩

/-- An update of the row that is being sent. -/
theorem updateSending_only {tables : Tables} {deliveryId : Nat}
    {change : DeliveryRecord → DeliveryRecord}
    (h : OnlySending (fun id => P id ∨ id = deliveryId) tables.deliveries)
    (hchange : ∀ row, (change row).status ≠ .sending) :
    OnlySending P (updateSending tables deliveryId change).deliveries := by
  intro row hrow hsending
  obtain ⟨old, hold, heq⟩ := List.mem_map.mp hrow
  split at heq
  · rw [← heq] at hsending
    exact absurd hsending (hchange old)
  · rename_i htest
    rw [← heq] at hsending ⊢
    rcases h old hold hsending with hP | hid
    · exact hP
    · exact absurd (decide_eq_true ⟨hid, hsending⟩) htest

/-- The mark takes the row of the service out of the status. -/
theorem Busy.mark {outcome : SendOutcome} (h : Busy P service (Phase.answered · outcome) world)
    (now : Int) :
    OnlySending P (transact (step localTime maxAttempts retryBase) world
      (.mark service now)).tables.deliveries := by
  rcases h with ⟨hidle, honly⟩ | ⟨delivery, hstage, honly⟩
  · exact transact_only honly rfl
  · have hmarked : OnlySending P
        (markOutcome retryBase world.tables delivery now outcome).deliveries := by
      cases outcome with
      | success messageId => exact updateSending_only honly fun row hsending => by cases hsending
      | retryable error retryAfter =>
        exact updateSending_only honly fun row hsending => by cases hsending
      | permanent error => exact updateSending_only honly fun row hsending => by cases hsending
      | unknown error => exact updateSending_only honly fun row hsending => by cases hsending
    unfold transact step
    simp only [hstage]
    exact hmarked

end Sending

section Result
variable {localTime : String → Int → Option Int} {maxAttempts : Nat} {retryBase : Int}
variable {service : Nat} {userIds : List Int} {batchSize : Nat} {P : Nat → Prop}

/-- A round in which nobody else claims. -/
theorem round_only {world : World} (hidle : world.phase service = .idle)
    (h : OnlySending P world.tables.deliveries) (round : Round service)
    (halone : ∀ stage, ∀ action ∈ round.others stage, action.isClaim = false) :
    OnlySending P (runAll (step localTime maxAttempts retryBase) world
      (round.actions userIds batchSize)).tables.deliveries := by
  have hcons : ∀ world action actions,
      runAll (step localTime maxAttempts retryBase) world (action :: actions) =
        runAll (step localTime maxAttempts retryBase)
          (transact (step localTime maxAttempts retryBase) world action) actions :=
    fun _ _ _ => rfl
  unfold Round.actions
  simp only [runAll_append, hcons]
  refine Busy.mark (Busy.others (Busy.answer ?_ round.outcome) (round.foreign 4) (halone 4)) _
  apply Busy.others _ (round.foreign 3) (halone 3)
  apply Busy.send
  apply Busy.others _ (round.foreign 2) (halone 2)
  apply Busy.claim
  · rw [phase_others (round.foreign 1)]
    apply (phase_materialize _ userIds batchSize round.expandAt round.expandLocked).1
    rw [phase_others (round.foreign 0)]
    exact hidle
  · refine runAll_only ?_ (halone 1)
    exact transact_only (runAll_only h (halone 0)) rfl

theorem afterRounds_only {world : World} {rounds : Nat → Round service}
    (hkept : Kept maxAttempts world) (hidle : world.phase service = .idle)
    (h : OnlySending P world.tables.deliveries)
    (halone : ∀ n stage, ∀ action ∈ (rounds n).others stage, action.isClaim = false) (n : Nat) :
    OnlySending P (afterRounds localTime maxAttempts retryBase userIds batchSize world rounds
      n).tables.deliveries := by
  induction n with
  | zero => exact h
  | succ n ih => exact round_only (afterRounds_kept hkept hidle n).2 ih (rounds n) (halone n)

/-- A user, a record and a service that has started. -/
def settledHistory : List Action :=
  [.configure { userId := 7 }, .enqueue "tp1_hit" "BTCUSDT" none 5, .recover 0 0 0 fun _ => false]

/-- Rounds a minute apart in which nothing can be sent; before each claim another service claims
a row and crashes. -/
def settledRounds (n : Nat) : Round 0 where
  expandAt := n
  claimAt := n
  outcome := .retryable "timeout" 60
  markAt := n
  others := fun stage => if stage = 1 then
    [.recover 1 0 0 (fun _ => false), .materialize 1 [7] 1 0 (fun _ => false),
      .claim 1 n (fun _ _ => false), .crash 1] else []
  foreign := by
    intro stage action haction
    split at haction
    · simp only [List.mem_cons, List.not_mem_nil, or_false] at haction
      rcases haction with rfl | rfl | rfl | rfl <;> simp [Action.service]
    · cases haction

end Result

end StructurePulse.Telegram
