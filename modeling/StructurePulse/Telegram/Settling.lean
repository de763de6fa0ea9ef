import StructurePulse.Library.WorkQueues
import StructurePulse.Telegram.Filters

/-!
# Every notification is settled in the end

A service goes through `run_once` again and again. Between its steps the other components do
what they like: other services, which may crash on every row they claim, new records, changed
settings. Every step lowers what is left to do on the rows there are, or leaves the waiting
ones as they are, and both queries take the lowest id first; so no row waits for ever.
-/

namespace StructurePulse.Telegram
open Library
set_option autoImplicit false

section Queues

/-- The records that are to be expanded. -/
def outboxQueue : Queue OutboxRecord Unit where
  key := OutboxRecord.id
  label := fun _ => ()
  weight := fun row => if row.status = .pending then 1 else 0
  waiting := fun row => row.status = .pending

/-- A delivery row counts the attempts it has left, and one more until it is final. -/
def deliveryQueue (maxAttempts : Nat) : Queue DeliveryRecord (Nat × Int) where
  key := DeliveryRecord.id
  label := DeliveryRecord.key
  weight := fun row => if row.status.isFinal then 0 else maxAttempts + 1 - row.attempts
  waiting := fun row => row.status = .pending

variable {maxAttempts : Nat}

theorem weight_final {row : DeliveryRecord} (h : row.status.isFinal = true) :
    (deliveryQueue maxAttempts).weight row = 0 := if_pos h

theorem weight_open {row : DeliveryRecord} (h : row.status.isFinal = false) :
    (deliveryQueue maxAttempts).weight row = maxAttempts + 1 - row.attempts :=
  if_neg (by rw [h]; exact Bool.false_ne_true)

/-- A row that becomes final is eased, and its weight drops. -/
theorem weight_drops {row next : DeliveryRecord} (hopen : row.status.isFinal = false)
    (hcapped : row.attempts ≤ maxAttempts) (hfinal : next.status.isFinal = true) :
    (deliveryQueue maxAttempts).weight next < (deliveryQueue maxAttempts).weight row := by
  rw [weight_final hfinal, weight_open hopen]
  omega

theorem eases_final {row next : DeliveryRecord} (hid : next.id = row.id) (hkey : next.key = row.key)
    (hopen : row.status.isFinal = false) (hcapped : row.attempts ≤ maxAttempts)
    (hfinal : next.status.isFinal = true) : Eases (deliveryQueue maxAttempts) row next := by
  have hdrop := weight_drops hopen hcapped hfinal
  exact ⟨hid, hkey, hdrop.le, fun _ => Or.inr hdrop⟩

theorem advances_updateWhere {test : DeliveryRecord → Bool}
    {change : DeliveryRecord → DeliveryRecord} {rows : List DeliveryRecord} {fresh : Nat}
    (h : ∀ row ∈ rows, test row = true → Eases (deliveryQueue maxAttempts) row (change row)) :
    Advances (deliveryQueue maxAttempts) fresh rows (updateWhere test change rows) := by
  unfold updateWhere
  apply Advances.of_map
  intro row hrow
  split
  · exact h row hrow ‹_›
  · exact Eases.refl row

/-- The expanded record replaces a pending one. -/
theorem eases_expanded {outbox row : OutboxRecord} (processedAt : Option Int)
    (hid : row.id = outbox.id) :
    Eases outboxQueue row { outbox with status := .expanded, processedAt := processedAt } := by
  have hzero : outboxQueue.weight
      { outbox with status := .expanded, processedAt := processedAt } = 0 := rfl
  refine ⟨hid.symm, rfl, ?_, ?_⟩
  · rw [hzero]
    exact Nat.zero_le _
  · intro hwaiting
    right
    have hone : outboxQueue.weight row = 1 := if_pos hwaiting
    omega

end Queues

section Moves

/-- What every step does to the two queues. -/
structure Moves (maxAttempts : Nat) (tables next : Tables) : Prop where
  outbox : Advances outboxQueue tables.nextOutboxId tables.outbox next.outbox
  deliveries :
    Advances (deliveryQueue maxAttempts) tables.nextDeliveryId tables.deliveries next.deliveries
  outboxIds : tables.nextOutboxId ≤ next.nextOutboxId
  deliveryIds : tables.nextDeliveryId ≤ next.nextDeliveryId

variable {localTime : String → Int → Option Int} {maxAttempts : Nat} {retryBase : Int}
variable {tables mid next : Tables}

theorem Moves.refl (tables : Tables) : Moves maxAttempts tables tables :=
  ⟨Advances.refl _ _, Advances.refl _ _, Nat.le_refl _, Nat.le_refl _⟩

theorem Moves.trans (h : Moves maxAttempts tables mid) (h' : Moves maxAttempts mid next) :
    Moves maxAttempts tables next where
  outbox := h.outbox.trans h'.outbox h.outboxIds
  deliveries := h.deliveries.trans h'.deliveries h.deliveryIds
  outboxIds := h.outboxIds.trans h'.outboxIds
  deliveryIds := h.deliveryIds.trans h'.deliveryIds

/-- An update of the delivery rows. -/
theorem Moves.of_updateWhere {test : DeliveryRecord → Bool}
    {change : DeliveryRecord → DeliveryRecord}
    (h : ∀ row ∈ tables.deliveries, test row = true →
      Eases (deliveryQueue maxAttempts) row (change row)) :
    Moves maxAttempts tables
      { tables with deliveries := updateWhere test change tables.deliveries } :=
  ⟨Advances.refl _ _, advances_updateWhere h, Nat.le_refl _, Nat.le_refl _⟩

theorem insertDelivery_moves (outbox : OutboxRecord) (now : Int) (user : UserSettings) :
    Moves maxAttempts tables (insertDelivery localTime tables outbox now user) := by
  rcases @insertDelivery_cases localTime tables outbox now user with heq | ⟨row, hid, -, -, -, heq⟩
  · rw [heq]
    exact Moves.refl tables
  · rw [heq]
    refine ⟨Advances.refl _ _, Advances.of_append _ ?_, Nat.le_refl _, Nat.le_succ _⟩
    intro other hother
    rw [List.mem_singleton.mp hother]
    exact hid.ge

theorem expand_moves (users : List UserSettings) (now : Int) (outbox : OutboxRecord) :
    Moves maxAttempts tables (expand localTime users now tables outbox) := by
  have hinserted : Moves maxAttempts tables (users.foldl
      (fun tables user => insertDelivery localTime tables outbox now user) tables) := by
    apply List.foldlRecOn (motive := Moves maxAttempts tables) users _ (Moves.refl tables)
    intro mid hmid user _
    exact hmid.trans (insertDelivery_moves outbox now user)
  apply hinserted.trans
  refine ⟨?_, Advances.refl _ _, Nat.le_refl _, Nat.le_refl _⟩
  apply Advances.of_map
  intro row _
  split
  · exact eases_expanded (some now) ‹_›
  · exact Eases.refl row

theorem expandAll_moves (users : List UserSettings) (now : Int) (records : List OutboxRecord) :
    Moves maxAttempts tables (records.foldl (expand localTime users now) tables) := by
  apply List.foldlRecOn (motive := Moves maxAttempts tables) records _ (Moves.refl tables)
  intro mid hmid outbox _
  exact hmid.trans (expand_moves users now outbox)

theorem materializePending_moves (userIds : List Int) (batchSize : Nat) (now : Int)
    (locked : Nat → Bool) :
    Moves maxAttempts tables (materializePending localTime tables userIds batchSize now locked) := by
  unfold materializePending
  split
  · exact Moves.refl tables
  · exact expandAll_moves _ now _

theorem skipPaused_moves (hcapped : ∀ row ∈ tables.deliveries, row.attempts ≤ maxAttempts)
    (now : Int) (locked : Nat → Bool) :
    Moves maxAttempts tables (skipPaused tables now locked) := by
  apply Moves.of_updateWhere
  intro row hrow htest
  have hpending := of_decide_eq_true (Bool.and_eq_true_iff.mp (Bool.and_eq_true_iff.mp htest).1).1
  exact eases_final rfl rfl (by rw [hpending]; rfl) (hcapped row hrow) rfl

theorem failExhausted_moves (hcapped : ∀ row ∈ tables.deliveries, row.attempts ≤ maxAttempts)
    (now : Int) (locked : Nat → Bool) :
    Moves maxAttempts tables (failExhausted tables maxAttempts now locked) := by
  apply Moves.of_updateWhere
  intro row hrow htest
  have hpending := (of_decide_eq_true (Bool.and_eq_true_iff.mp htest).1).1
  exact eases_final rfl rfl (by rw [hpending]; rfl) (hcapped row hrow) rfl

/-- The row a claim takes loses one of its attempts. -/
theorem eases_claimed {row : DeliveryRecord} (hpending : row.status = .pending)
    (hbelow : row.attempts < maxAttempts) (now : Int) :
    let claimed := { row with
      status := .sending, attempts := row.attempts + 1, updatedAt := now }
    Eases (deliveryQueue maxAttempts) row claimed ∧
      (deliveryQueue maxAttempts).weight claimed < (deliveryQueue maxAttempts).weight row := by
  intro claimed
  have hopen : (deliveryQueue maxAttempts).weight row = maxAttempts + 1 - row.attempts := by
    apply weight_open
    rw [hpending]
    rfl
  have hclaimed : (deliveryQueue maxAttempts).weight claimed =
      maxAttempts + 1 - (row.attempts + 1) := weight_open rfl
  have hdrop : (deliveryQueue maxAttempts).weight claimed <
      (deliveryQueue maxAttempts).weight row := by omega
  exact ⟨⟨rfl, rfl, hdrop.le, fun _ => Or.inr hdrop⟩, hdrop⟩

theorem markOutcome_moves (hcapped : ∀ row ∈ tables.deliveries, row.attempts ≤ maxAttempts)
    (delivery : PendingDelivery) (now : Int) (outcome : SendOutcome) :
    Moves maxAttempts tables (markOutcome retryBase tables delivery now outcome) := by
  have hsending : ∀ row : DeliveryRecord,
      decide (row.id = delivery.deliveryId ∧ row.status = .sending) = true →
        row.status = .sending := by
    intro row htest
    exact (of_decide_eq_true htest).2
  cases outcome with
  | retryable error retryAfter =>
    apply Moves.of_updateWhere
    intro row hrow htest
    have hstatus := hsending row htest
    refine ⟨rfl, rfl, ?_, ?_⟩
    · rw [weight_open (by rfl), weight_open (by rw [hstatus]; rfl)]
    · intro hwaiting
      rw [show row.status = .pending from hwaiting] at hstatus
      cases hstatus
  | success messageId =>
    apply Moves.of_updateWhere
    intro row hrow htest
    exact eases_final rfl rfl (by rw [hsending row htest]; rfl) (hcapped row hrow) rfl
  | permanent error =>
    apply Moves.of_updateWhere
    intro row hrow htest
    exact eases_final rfl rfl (by rw [hsending row htest]; rfl) (hcapped row hrow) rfl
  | unknown error =>
    apply Moves.of_updateWhere
    intro row hrow htest
    exact eases_final rfl rfl (by rw [hsending row htest]; rfl) (hcapped row hrow) rfl

variable {nextId : Nat} {phase : Nat → Phase} {sends : List SendAttempt}

theorem claimFirst_moves (h : Sound maxAttempts tables.deliveries nextId phase sends) (now : Int)
    (locked : Nat → Bool) : Moves maxAttempts tables (claimFirst tables maxAttempts now locked).1 := by
  unfold claimFirst
  cases hfound : (claimable tables maxAttempts now locked).head? with
  | none => exact Moves.refl tables
  | some found =>
    obtain ⟨hrow, hpending, hbelow⟩ := mem_claimable (List.mem_of_head? hfound)
    apply Moves.of_updateWhere
    intro other hother htest
    rw [h.unique hother hrow (of_decide_eq_true htest)]
    exact (eases_claimed hpending hbelow now).1

/-- What a claim does before it looks for a row. -/
theorem prepared_moves (h : Sound maxAttempts tables.deliveries nextId phase sends) (now : Int)
    (locked : Nat → Nat → Bool) :
    Moves maxAttempts tables
      (failExhausted (skipPaused tables now (locked 0)) maxAttempts now (locked 1)) := by
  have hskip : Sound maxAttempts (skipPaused tables now (locked 0)).deliveries nextId phase sends :=
    skipPaused_sound h
  exact (skipPaused_moves h.capped now (locked 0)).trans
    (failExhausted_moves hskip.capped now (locked 1))

theorem claimDelivery_moves (h : Sound maxAttempts tables.deliveries nextId phase sends) (now : Int)
    (locked : Nat → Nat → Bool) :
    Moves maxAttempts tables (claimDelivery tables maxAttempts now locked).1 :=
  (prepared_moves h now locked).trans
    (claimFirst_moves (failExhausted_sound (skipPaused_sound h)) now (locked 2))

/-- One step of anybody. -/
theorem step_moves {world next : World} {action : Action} (h : world.Sound maxAttempts)
    (hstep : step localTime maxAttempts retryBase world action = .ok next) :
    Moves maxAttempts world.tables next.tables := by
  cases action with
  | recover service now cutoff locked =>
    simp only [step] at hstep
    split at hstep
    · cases hstep
      apply Moves.of_updateWhere
      intro row hrow htest
      have hsending := (of_decide_eq_true (Bool.and_eq_true_iff.mp htest).1).1
      exact eases_final rfl rfl (by rw [hsending]; rfl) (h.capped row hrow) rfl
    · cases hstep
  | materialize service userIds batchSize now locked =>
    simp only [step] at hstep
    split at hstep
    · cases hstep
      exact materializePending_moves userIds batchSize now locked
    · cases hstep
  | claim service now locked =>
    have hclaim := claimDelivery_moves h now locked
    simp only [step] at hstep
    split at hstep
    · split at hstep
      · rename_i tables heq
        cases hstep
        rw [heq] at hclaim
        exact hclaim
      · rename_i tables delivery heq
        cases hstep
        rw [heq] at hclaim
        exact hclaim
    · cases hstep
  | send service =>
    simp only [step] at hstep
    split at hstep
    · cases hstep
      exact Moves.refl _
    · cases hstep
  | answer service outcome =>
    simp only [step] at hstep
    split at hstep
    · cases hstep
      exact Moves.refl _
    · cases hstep
  | mark service now =>
    simp only [step] at hstep
    split at hstep
    · cases hstep
      exact markOutcome_moves h.capped _ now _
    · cases hstep
  | crash service =>
    cases hstep
    exact Moves.refl _
  | enqueue eventType payload score availableAt =>
    cases hstep
    refine ⟨Advances.of_append _ ?_, Advances.refl _ _, Nat.le_succ _, Nat.le_refl _⟩
    intro row hrow
    rw [List.mem_singleton.mp hrow]
    exact Nat.le_refl _
  | configure user =>
    cases hstep
    unfold saveUser
    split
    · exact ⟨Advances.refl _ _, Advances.refl _ _, Nat.le_refl _, Nat.le_refl _⟩
    · exact ⟨Advances.refl _ _, Advances.refl _ _, Nat.le_refl _, Nat.le_refl _⟩

/-- Any steps of anybody. -/
theorem run_moves {world : World} (h : world.Sound maxAttempts) (actions : List Action) :
    Moves maxAttempts world.tables
      (runAll (step localTime maxAttempts retryBase) world actions).tables :=
  runAll_relates (R := fun early late : World => Moves maxAttempts early.tables late.tables)
    (P := World.Sound maxAttempts) (fun world => Moves.refl world.tables)
    (fun _ _ _ early late => early.trans late) (fun _ _ _ hs hnext => step_sound hs hnext)
    (fun _ _ _ hs hnext => step_moves hs hnext) h actions

end Moves

end StructurePulse.Telegram
