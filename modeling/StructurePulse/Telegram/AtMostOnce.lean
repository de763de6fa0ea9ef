import StructurePulse.Telegram.Outbox

/-!
# A notification is never sent twice

A row that is being sent has at most one owner, and only the owner's mark makes it
pending again, after a retryable error. So at a claim every earlier attempt has ended in
a retryable error.
-/

namespace StructurePulse.Telegram
open Library
set_option autoImplicit false

section Invariant

/-- The attempt is known not to have been delivered. -/
def SendAttempt.Refused (entry : SendAttempt) : Prop :=
  ∃ outcome, entry.outcome = some outcome ∧ outcome.isRetryable = true

/-- Ownership of the delivery rows and the log of the send calls. -/
structure Sound (maxAttempts : Nat) (deliveries : List DeliveryRecord) (nextId : Nat)
    (phase : Nat → Phase) (sends : List SendAttempt) : Prop where
  ids : (deliveries.map DeliveryRecord.id).Nodup
  fresh : ∀ row ∈ deliveries, row.id < nextId
  capped : ∀ row ∈ deliveries, row.attempts ≤ maxAttempts
  owner : ∀ service delivery, (phase service).delivery = some delivery →
    ∃ row ∈ deliveries, row.id = delivery.deliveryId ∧ row.status ≠ .pending ∧
      row.attempts = delivery.attempts
  alone : ∀ service service' delivery delivery', (phase service).delivery = some delivery →
    (phase service').delivery = some delivery' → delivery.deliveryId = delivery'.deliveryId →
      service = service'
  logged : ∀ entry ∈ sends, ∃ row ∈ deliveries, row.id = entry.deliveryId ∧
    1 ≤ entry.attempt ∧ entry.attempt ≤ row.attempts ∧
    (entry.attempt < row.attempts ∨ row.status = .pending → entry.Refused)
  ordered : sends.Pairwise fun a b => a.deliveryId = b.deliveryId → a.attempt < b.attempt
  unsent : ∀ service delivery, phase service = .claimed delivery → 1 ≤ delivery.attempts ∧
    ∀ entry ∈ sends, entry.deliveryId = delivery.deliveryId → entry.attempt < delivery.attempts
  answered : ∀ service delivery outcome, phase service = .answered delivery outcome →
    ∀ entry ∈ sends, entry.deliveryId = delivery.deliveryId →
      entry.attempt = delivery.attempts → entry.outcome = some outcome

/-- A row keeps its identity and its attempts, and at most becomes final. -/
structure Quiet (row next : DeliveryRecord) : Prop where
  id : next.id = row.id
  outboxId : next.outboxId = row.outboxId
  userId : next.userId = row.userId
  attempts : next.attempts = row.attempts
  status : next.status = row.status ∨ (row.status.isFinal = false ∧ next.status.isFinal = true)

variable {maxAttempts : Nat} {deliveries : List DeliveryRecord} {nextId : Nat}
variable {phase : Nat → Phase} {sends : List SendAttempt}

theorem Quiet.pending {row next : DeliveryRecord} (h : Quiet row next)
    (hpending : next.status = .pending) : row.status = .pending := by
  rcases h.status with heq | ⟨-, hfinal⟩
  · rw [← heq]
    exact hpending
  · rw [hpending] at hfinal
    cases hfinal

theorem Sound.quiet (h : Sound maxAttempts deliveries nextId phase sends)
    {change : DeliveryRecord → DeliveryRecord} (hquiet : ∀ row ∈ deliveries, Quiet row (change row)) :
    Sound maxAttempts (deliveries.map change) nextId phase sends := by
  have hmem : ∀ row ∈ deliveries.map change, ∃ old ∈ deliveries, row = change old ∧ Quiet old row := by
    intro row hrow
    obtain ⟨old, hold, rfl⟩ := List.mem_map.mp hrow
    exact ⟨old, hold, rfl, hquiet old hold⟩
  have hids : (deliveries.map change).map DeliveryRecord.id = deliveries.map DeliveryRecord.id := by
    rw [List.map_map]
    exact List.map_congr_left fun row hrow => (hquiet row hrow).id
  refine ⟨?_, ?_, ?_, ?_, h.alone, ?_, h.ordered, h.unsent, h.answered⟩
  · rw [hids]
    exact h.ids
  · intro row hrow
    obtain ⟨old, hold, -, hq⟩ := hmem row hrow
    rw [hq.id]
    exact h.fresh old hold
  · intro row hrow
    obtain ⟨old, hold, -, hq⟩ := hmem row hrow
    rw [hq.attempts]
    exact h.capped old hold
  · intro service delivery hphase
    obtain ⟨row, hrow, hid, hstatus, hattempts⟩ := h.owner service delivery hphase
    have hq := hquiet row hrow
    exact ⟨change row, List.mem_map_of_mem hrow, hq.id.trans hid,
      fun hpending => hstatus (hq.pending hpending), hq.attempts.trans hattempts⟩
  · intro entry hentry
    obtain ⟨row, hrow, hid, hone, hle, hrefused⟩ := h.logged entry hentry
    have hq := hquiet row hrow
    refine ⟨change row, List.mem_map_of_mem hrow, hq.id.trans hid, hone, ?_, fun hcase => ?_⟩
    · rw [hq.attempts]
      exact hle
    · refine hrefused (hcase.imp (fun hlt => ?_) hq.pending)
      rw [← hq.attempts]
      exact hlt

/-- A service that works on no delivery owns none. -/
theorem Sound.release (h : Sound maxAttempts deliveries nextId phase sends) (service : Nat)
    (free : Phase) (hfree : free.delivery = none) :
    Sound maxAttempts deliveries nextId (Function.update phase service free) sends := by
  have hold : ∀ other delivery, (Function.update phase service free other).delivery = some delivery →
      other ≠ service ∧ (phase other).delivery = some delivery := by
    intro other delivery hother
    by_cases heq : other = service
    · rw [heq, Function.update_self, hfree] at hother
      cases hother
    · rw [Function.update_of_ne heq] at hother
      exact ⟨heq, hother⟩
  refine ⟨h.ids, h.fresh, h.capped, ?_, ?_, h.logged, h.ordered, ?_, ?_⟩
  · exact fun other delivery hother => h.owner other delivery (hold other delivery hother).2
  · exact fun s s' d d' hs hs' heq => h.alone s s' d d' (hold s d hs).2 (hold s' d' hs').2 heq
  · intro other delivery hother
    have hne := (hold other delivery (by rw [hother]; rfl)).1
    rw [Function.update_of_ne hne] at hother
    exact h.unsent other delivery hother
  · intro other delivery outcome hother
    have hne := (hold other delivery (by rw [hother]; rfl)).1
    rw [Function.update_of_ne hne] at hother
    exact h.answered other delivery outcome hother

/-- A new row has not been attempted. -/
theorem Sound.insert (h : Sound maxAttempts deliveries nextId phase sends) {row : DeliveryRecord}
    (hid : row.id = nextId) (hattempts : row.attempts = 0) :
    Sound maxAttempts (deliveries ++ [row]) (nextId + 1) phase sends := by
  have hkeep : ∀ old ∈ deliveries, old ∈ deliveries ++ [row] :=
    fun old hold => List.mem_append_left _ hold
  refine ⟨?_, ?_, ?_, ?_, h.alone, ?_, h.ordered, h.unsent, h.answered⟩
  · refine nodup_keys_append h.ids fun old hold => ?_
    have hlt := h.fresh old hold
    omega
  · refine forall_mem_append_singleton (fun old hold => ?_) ?_
    · exact Nat.lt_succ_of_lt (h.fresh old hold)
    · omega
  · exact forall_mem_append_singleton h.capped (by omega)
  · intro service delivery hphase
    obtain ⟨old, hold, hrest⟩ := h.owner service delivery hphase
    exact ⟨old, hkeep old hold, hrest⟩
  · intro entry hentry
    obtain ⟨old, hold, hrest⟩ := h.logged entry hentry
    exact ⟨old, hkeep old hold, hrest⟩

end Invariant

section Claim
variable {maxAttempts : Nat} {deliveries : List DeliveryRecord} {nextId : Nat}
variable {phase : Nat → Phase} {sends : List SendAttempt}

theorem Sound.unique (h : Sound maxAttempts deliveries nextId phase sends)
    {row other : DeliveryRecord} (hrow : row ∈ deliveries) (hother : other ∈ deliveries)
    (hid : row.id = other.id) : row = other :=
  List.inj_on_of_nodup_map h.ids hrow hother hid

/-- A claim takes a pending row, which has no owner and only refused attempts. -/
theorem Sound.claim (h : Sound maxAttempts deliveries nextId phase sends) {service : Nat}
    {row : DeliveryRecord} (hrow : row ∈ deliveries) (hpending : row.status = .pending)
    (hbelow : row.attempts < maxAttempts) {delivery : PendingDelivery}
    (hid : delivery.deliveryId = row.id) (hattempts : delivery.attempts = row.attempts + 1)
    {now : Int} :
    Sound maxAttempts (updateWhere (fun other => decide (other.id = row.id))
        (fun other => { other with
          status := .sending, attempts := other.attempts + 1, updatedAt := now }) deliveries)
      nextId (Function.update phase service (.claimed delivery)) sends := by
  have hchange : ∀ other ∈ deliveries, other.id ≠ row.id →
      other ∈ updateWhere (fun other => decide (other.id = row.id))
        (fun other => { other with
          status := .sending, attempts := other.attempts + 1, updatedAt := now }) deliveries := by
    intro other hother hne
    exact List.mem_map.mpr ⟨other, hother, if_neg (by simpa using hne)⟩
  have hclaimed : { row with status := .sending, attempts := row.attempts + 1, updatedAt := now } ∈
      updateWhere (fun other => decide (other.id = row.id))
        (fun other => { other with
          status := .sending, attempts := other.attempts + 1, updatedAt := now }) deliveries :=
    List.mem_map.mpr ⟨row, hrow, if_pos (decide_eq_true rfl)⟩
  have hback : ∀ next ∈ updateWhere (fun other => decide (other.id = row.id))
      (fun other => { other with
        status := .sending, attempts := other.attempts + 1, updatedAt := now }) deliveries,
      ∃ old ∈ deliveries, next.id = old.id ∧
        (next = old ∨ (old = row ∧ next.attempts = row.attempts + 1)) := by
    intro next hnext
    obtain ⟨old, hold, rfl⟩ := List.mem_map.mp hnext
    by_cases heq : old.id = row.id
    · have hsame := h.unique hold hrow heq
      rw [if_pos (decide_eq_true heq), hsame]
      exact ⟨row, hrow, rfl, Or.inr ⟨rfl, rfl⟩⟩
    · rw [if_neg (by simpa using heq)]
      exact ⟨old, hold, rfl, Or.inl rfl⟩
  -- nobody owns the row before the claim
  have hfree : ∀ other found, (phase other).delivery = some found → found.deliveryId ≠ row.id := by
    intro other found hfound heq
    obtain ⟨old, hold, holdid, hstatus, -⟩ := h.owner other found hfound
    rw [h.unique hold hrow (holdid.trans heq)] at hstatus
    exact hstatus hpending
  have hcases : ∀ other found, (Function.update phase service (.claimed delivery) other).delivery =
      some found → (other = service ∧ found = delivery) ∨
        (other ≠ service ∧ (phase other).delivery = some found) := by
    intro other found hfound
    by_cases heq : other = service
    · rw [heq, Function.update_self] at hfound
      cases hfound
      exact Or.inl ⟨heq, rfl⟩
    · rw [Function.update_of_ne heq] at hfound
      exact Or.inr ⟨heq, hfound⟩
  have hlog : ∀ entry ∈ sends, entry.deliveryId = row.id →
      1 ≤ entry.attempt ∧ entry.attempt ≤ row.attempts ∧ entry.Refused := by
    intro entry hentry heq
    obtain ⟨old, hold, holdid, hone, hle, hrefused⟩ := h.logged entry hentry
    rw [h.unique hold hrow (holdid.trans heq)] at hle hrefused
    exact ⟨hone, hle, hrefused (Or.inr hpending)⟩
  refine ⟨?_, ?_, ?_, ?_, ?_, ?_, h.ordered, ?_, ?_⟩
  · have hids : (updateWhere (fun other => decide (other.id = row.id))
        (fun other => { other with
          status := .sending, attempts := other.attempts + 1, updatedAt := now })
        deliveries).map DeliveryRecord.id = deliveries.map DeliveryRecord.id := by
      unfold updateWhere
      rw [List.map_map]
      refine List.map_congr_left fun other _ => ?_
      by_cases heq : other.id = row.id <;> simp [heq]
    rw [hids]
    exact h.ids
  · intro next hnext
    obtain ⟨old, hold, hsame, -⟩ := hback next hnext
    rw [hsame]
    exact h.fresh old hold
  · intro next hnext
    obtain ⟨old, hold, -, rfl | ⟨-, hmore⟩⟩ := hback next hnext
    · exact h.capped next hold
    · omega
  · intro other found hfound
    rcases hcases other found hfound with ⟨-, rfl⟩ | ⟨-, hfound⟩
    · exact ⟨_, hclaimed, hid.symm, by simp, hattempts.symm⟩
    · obtain ⟨old, hold, holdid, hrest⟩ := h.owner other found hfound
      refine ⟨old, hchange old hold fun heq => ?_, holdid, hrest⟩
      exact hfree other found hfound (holdid.symm.trans heq)
  · intro s s' d d' hs hs' heq
    rcases hcases s d hs with ⟨rfl, rfl⟩ | ⟨-, hheld⟩
    · rcases hcases s' d' hs' with ⟨rfl, -⟩ | ⟨-, hheld'⟩
      · rfl
      · exact absurd (heq.symm.trans hid) (hfree s' d' hheld')
    · rcases hcases s' d' hs' with ⟨-, rfl⟩ | ⟨-, hheld'⟩
      · exact absurd (heq.trans hid) (hfree s d hheld)
      · exact h.alone s s' d d' hheld hheld' heq
  · intro entry hentry
    by_cases heq : entry.deliveryId = row.id
    · obtain ⟨hone, hle, hrefused⟩ := hlog entry hentry heq
      exact ⟨_, hclaimed, heq.symm, hone, Nat.le_succ_of_le hle, fun _ => hrefused⟩
    · obtain ⟨old, hold, holdid, hrest⟩ := h.logged entry hentry
      exact ⟨old, hchange old hold fun hsame => heq (holdid.symm.trans hsame), holdid, hrest⟩
  · intro other found hfound
    rcases hcases other found (by rw [hfound]; rfl) with ⟨-, rfl⟩ | ⟨hne, -⟩
    · refine ⟨by omega, fun entry hentry heq => ?_⟩
      have hle := (hlog entry hentry (heq.trans hid)).2.1
      omega
    · rw [Function.update_of_ne hne] at hfound
      exact h.unsent other found hfound
  · intro other found outcome hfound
    by_cases heq : other = service
    · rw [heq, Function.update_self] at hfound
      cases hfound
    · rw [Function.update_of_ne heq] at hfound
      exact h.answered other found outcome hfound

end Claim

section Sending
variable {maxAttempts : Nat} {deliveries : List DeliveryRecord} {nextId : Nat}
variable {phase : Nat → Phase} {sends : List SendAttempt}

theorem delivery_update {service : Nat} {next : Phase}
    (hsame : next.delivery = (phase service).delivery) (other : Nat) :
    (Function.update phase service next other).delivery = (phase other).delivery := by
  by_cases heq : other = service
  · rw [heq, Function.update_self, hsame]
  · rw [Function.update_of_ne heq]

/-- A send call of the owner is the last attempt of its row. -/
theorem Sound.send (h : Sound maxAttempts deliveries nextId phase sends) {service : Nat}
    {delivery : PendingDelivery} (hphase : phase service = .claimed delivery) :
    Sound maxAttempts deliveries nextId (Function.update phase service (.sending delivery))
      (sends ++ [{ deliveryId := delivery.deliveryId, attempt := delivery.attempts }]) := by
  have hheld : (phase service).delivery = some delivery := by
    rw [hphase]
    rfl
  have hsame := @delivery_update phase service (.sending delivery) hheld.symm
  obtain ⟨hone, hunsent⟩ := h.unsent service delivery hphase
  have hothers : ∀ other found, other ≠ service → (phase other).delivery = some found →
      delivery.deliveryId ≠ found.deliveryId :=
    fun other found hne hfound heq => hne (h.alone other service found delivery hfound hheld heq.symm)
  refine ⟨h.ids, h.fresh, h.capped, ?_, ?_, ?_, ?_, ?_, ?_⟩
  · intro other found hfound
    rw [hsame] at hfound
    exact h.owner other found hfound
  · intro s s' d d' hs hs' heq
    rw [hsame] at hs hs'
    exact h.alone s s' d d' hs hs' heq
  · refine forall_mem_append_singleton h.logged ?_
    obtain ⟨row, hrow, hid, hstatus, hattempts⟩ := h.owner service delivery hheld
    refine ⟨row, hrow, hid, hone, hattempts.ge, fun hcase => ?_⟩
    rcases hcase with hlt | hpending
    · rw [hattempts] at hlt
      exact absurd hlt (lt_irrefl _)
    · exact absurd hpending hstatus
  · refine List.pairwise_append.mpr ⟨h.ordered, List.pairwise_singleton _ _, ?_⟩
    intro entry hentry last hlast heq
    rw [List.mem_singleton.mp hlast] at heq ⊢
    exact hunsent entry hentry heq
  · intro other found hfound
    by_cases heq : other = service
    · rw [heq, Function.update_self] at hfound
      cases hfound
    · rw [Function.update_of_ne heq] at hfound
      refine ⟨(h.unsent other found hfound).1, ?_⟩
      refine forall_mem_append_singleton (h.unsent other found hfound).2 fun hid => ?_
      exact absurd hid (hothers other found heq (by rw [hfound]; rfl))
  · intro other found outcome hfound
    by_cases heq : other = service
    · rw [heq, Function.update_self] at hfound
      cases hfound
    · rw [Function.update_of_ne heq] at hfound
      refine forall_mem_append_singleton (h.answered other found outcome hfound) fun hid => ?_
      exact absurd hid (hothers other found heq (by rw [hfound]; rfl))

theorem mem_recordOutcome {delivery : PendingDelivery} {outcome : SendOutcome} {entry : SendAttempt}
    (h : entry ∈ recordOutcome sends delivery outcome) :
    ∃ old ∈ sends, entry.deliveryId = old.deliveryId ∧ entry.attempt = old.attempt ∧
      if old.deliveryId = delivery.deliveryId ∧ old.attempt = delivery.attempts then
        entry.outcome = some outcome
      else entry = old := by
  obtain ⟨old, hold, rfl⟩ := List.mem_map.mp h
  refine ⟨old, hold, ?_⟩
  split <;> simp

/-- The answer of a call concerns the owner's attempt only. -/
theorem Sound.answer (h : Sound maxAttempts deliveries nextId phase sends) {service : Nat}
    {delivery : PendingDelivery} (hphase : phase service = .sending delivery)
    (outcome : SendOutcome) :
    Sound maxAttempts deliveries nextId (Function.update phase service (.answered delivery outcome))
      (recordOutcome sends delivery outcome) := by
  have hheld : (phase service).delivery = some delivery := by
    rw [hphase]
    rfl
  have hsame := @delivery_update phase service (.answered delivery outcome) hheld.symm
  obtain ⟨held, hheldrow, hheldid, hheldstatus, hheldattempts⟩ := h.owner service delivery hheld
  refine ⟨h.ids, h.fresh, h.capped, ?_, ?_, ?_, ?_, ?_, ?_⟩
  · intro other found hfound
    rw [hsame] at hfound
    exact h.owner other found hfound
  · intro s s' d d' hs hs' heq
    rw [hsame] at hs hs'
    exact h.alone s s' d d' hs hs' heq
  · intro entry hentry
    obtain ⟨old, hold, hid, hattempt, hchange⟩ := mem_recordOutcome hentry
    obtain ⟨row, hrow, hrowid, hone, hle, hrefused⟩ := h.logged old hold
    rw [hid, hattempt]
    refine ⟨row, hrow, hrowid, hone, hle, fun hcase => ?_⟩
    split_ifs at hchange with hown
    · -- the owner's own attempt is the last one of a row that is not pending
      have hrowheld := h.unique hrow hheldrow ((hrowid.trans hown.1).trans hheldid.symm)
      rw [hrowheld, hown.2, hheldattempts] at hcase
      rcases hcase with hlt | hpending
      · exact absurd hlt (lt_irrefl _)
      · exact absurd hpending hheldstatus
    · rw [hchange]
      exact hrefused hcase
  · refine List.pairwise_map.mpr (h.ordered.imp fun {a b} hab => ?_)
    split_ifs <;> exact hab
  · intro other found hfound
    by_cases heq : other = service
    · rw [heq, Function.update_self] at hfound
      cases hfound
    · rw [Function.update_of_ne heq] at hfound
      refine ⟨(h.unsent other found hfound).1, fun entry hentry hid => ?_⟩
      obtain ⟨old, hold, holdid, hattempt, -⟩ := mem_recordOutcome hentry
      rw [hattempt]
      exact (h.unsent other found hfound).2 old hold (holdid.symm.trans hid)
  · intro other found outcome' hfound entry hentry hid hattempts
    obtain ⟨old, hold, holdid, hattempt, hchange⟩ := mem_recordOutcome hentry
    by_cases heq : other = service
    · rw [heq, Function.update_self] at hfound
      cases hfound
      rw [if_pos ⟨holdid.symm.trans hid, hattempt.symm.trans hattempts⟩] at hchange
      exact hchange
    · rw [Function.update_of_ne heq] at hfound
      have hne : ¬(old.deliveryId = delivery.deliveryId ∧ old.attempt = delivery.attempts) := by
        rintro ⟨hown, -⟩
        refine heq (h.alone other service found delivery (by rw [hfound]; rfl) hheld ?_)
        rw [← hid, holdid, hown]
      rw [if_neg hne] at hchange
      rw [hchange] at hid hattempts ⊢
      exact h.answered other found outcome' hfound old hold hid hattempts

/-- After a retryable error the owner makes its row pending again, unless it was swept. -/
theorem Sound.retry (h : Sound maxAttempts deliveries nextId phase sends) {service : Nat}
    {delivery : PendingDelivery} {outcome : SendOutcome}
    (hphase : phase service = .answered delivery outcome) (hretry : outcome.isRetryable = true)
    {change : DeliveryRecord → DeliveryRecord} (hid : ∀ row, (change row).id = row.id)
    (hattempts : ∀ row, (change row).attempts = row.attempts) :
    Sound maxAttempts
      (updateWhere (fun row => decide (row.id = delivery.deliveryId ∧ row.status = .sending)) change
        deliveries) nextId (Function.update phase service .idle) sends := by
  have hheld : (phase service).delivery = some delivery := by
    rw [hphase]
    rfl
  obtain ⟨held, hheldrow, hheldid, -, hheldattempts⟩ := h.owner service delivery hheld
  have hrefused : ∀ entry ∈ sends, entry.deliveryId = held.id → entry.Refused := by
    intro entry hentry heq
    obtain ⟨row, hrow, hrowid, -, hle, hlogged⟩ := h.logged entry hentry
    rw [h.unique hrow hheldrow (hrowid.trans heq)] at hle hlogged
    rcases Nat.lt_or_eq_of_le hle with hlt | hlast
    · exact hlogged (Or.inl hlt)
    · refine ⟨outcome, ?_, hretry⟩
      exact h.answered service delivery outcome hphase entry hentry (heq.trans hheldid)
        (hlast.trans hheldattempts)
  have hids : ∀ row, (if decide (row.id = delivery.deliveryId ∧ row.status = .sending) = true then
      change row else row).id = row.id := by
    intro row
    split
    · exact hid row
    · rfl
  have hfixed : ∀ row, (if decide (row.id = delivery.deliveryId ∧ row.status = .sending) = true then
      change row else row).attempts = row.attempts := by
    intro row
    split
    · exact hattempts row
    · rfl
  have hmapped : (updateWhere (fun row => decide (row.id = delivery.deliveryId ∧
      row.status = .sending)) change deliveries).map DeliveryRecord.id =
        deliveries.map DeliveryRecord.id := by
    unfold updateWhere
    rw [List.map_map]
    exact List.map_congr_left fun row _ => hids row
  have hfree := h.release service .idle rfl
  refine ⟨?_, ?_, ?_, ?_, hfree.alone, ?_, h.ordered, hfree.unsent, hfree.answered⟩
  · rw [hmapped]
    exact h.ids
  · intro next hnext
    obtain ⟨row, hrow, rfl⟩ := List.mem_map.mp hnext
    rw [hids]
    exact h.fresh row hrow
  · intro next hnext
    obtain ⟨row, hrow, rfl⟩ := List.mem_map.mp hnext
    rw [hfixed]
    exact h.capped row hrow
  · intro other found hfound
    obtain ⟨row, hrow, hrowid, hstatus, hrowattempts⟩ := hfree.owner other found hfound
    refine ⟨row, List.mem_map.mpr ⟨row, hrow, if_neg ?_⟩, hrowid, hstatus, hrowattempts⟩
    rw [decide_eq_true_eq]
    rintro ⟨hown, -⟩
    -- nobody else owns the row
    by_cases heq : other = service
    · rw [heq, Function.update_self] at hfound
      cases hfound
    · rw [Function.update_of_ne heq] at hfound
      exact heq (h.alone other service found delivery hfound hheld (hrowid.symm.trans hown))
  · intro entry hentry
    obtain ⟨row, hrow, hrowid, hone, hle, hlogged⟩ := h.logged entry hentry
    refine ⟨_, List.mem_map_of_mem hrow, (hids row).trans hrowid, hone, ?_, fun hcase => ?_⟩
    · rw [hfixed]
      exact hle
    · rw [hfixed] at hcase
      by_cases hown : row.id = delivery.deliveryId
      · exact hrefused entry hentry ((hrowid.symm.trans hown).trans hheldid.symm)
      · rw [if_neg (by simp [hown])] at hcase
        exact hlogged hcase

end Sending

section Steps
variable {localTime : String → Int → Option Int} {maxAttempts : Nat} {retryBase : Int}

/-- The ownership of a world. -/
abbrev World.Sound (maxAttempts : Nat) (world : World) : Prop :=
  Telegram.Sound maxAttempts world.tables.deliveries world.tables.nextDeliveryId world.phase world.sends

theorem quiet_self (row : DeliveryRecord) : Quiet row row := ⟨rfl, rfl, rfl, rfl, Or.inl rfl⟩

/-- An update that makes rows final which are not. -/
theorem quiet_updateWhere {test : DeliveryRecord → Bool} {change : DeliveryRecord → DeliveryRecord}
    (h : ∀ row, test row = true → Quiet row (change row)) (row : DeliveryRecord) :
    Quiet row (if test row then change row else row) := by
  split
  · exact h row ‹_›
  · exact quiet_self row

variable {deliveries : List DeliveryRecord} {nextId : Nat}
variable {phase : Nat → Phase} {sends : List SendAttempt}

theorem Sound.updateWhere (h : Sound maxAttempts deliveries nextId phase sends)
    {test : DeliveryRecord → Bool} {change : DeliveryRecord → DeliveryRecord}
    (hquiet : ∀ row, test row = true → Quiet row (change row)) :
    Sound maxAttempts (updateWhere test change deliveries) nextId phase sends :=
  h.quiet fun row _ => quiet_updateWhere hquiet row

theorem insertDelivery_cases (tables : Tables) (outbox : OutboxRecord) (now : Int)
    (user : UserSettings) :
    insertDelivery localTime tables outbox now user = tables ∨
      ∃ row : DeliveryRecord, row.id = tables.nextDeliveryId ∧ row.attempts = 0 ∧
        row.outboxId = outbox.id ∧ row.userId = user.userId ∧
        insertDelivery localTime tables outbox now user = { tables with
          deliveries := tables.deliveries ++ [row]
          nextDeliveryId := tables.nextDeliveryId + 1 } := by
  unfold insertDelivery
  split
  · exact Or.inl rfl
  · exact Or.inr ⟨_, rfl, rfl, rfl, rfl, rfl⟩

theorem materializePending_sound {tables : Tables} {userIds : List Int} {batchSize : Nat} {now : Int}
    {locked : Nat → Bool}
    (h : Sound maxAttempts tables.deliveries tables.nextDeliveryId phase sends) :
    Sound maxAttempts (materializePending localTime tables userIds batchSize now locked).deliveries
      (materializePending localTime tables userIds batchSize now locked).nextDeliveryId phase
      sends := by
  unfold materializePending
  split
  · exact h
  · refine List.foldlRecOn (motive := fun tables : Tables =>
      Sound maxAttempts tables.deliveries tables.nextDeliveryId phase sends) _ _ h ?_
    intro tables h outbox _
    unfold expand
    refine List.foldlRecOn (motive := fun tables : Tables =>
      Sound maxAttempts tables.deliveries tables.nextDeliveryId phase sends) _ _ h ?_
    intro tables h user _
    rcases @insertDelivery_cases localTime tables outbox now user with
      heq | ⟨row, hid, hattempts, -, -, heq⟩
    · rw [heq]
      exact h
    · rw [heq]
      exact h.insert hid hattempts

theorem skipPaused_sound {tables : Tables} {now : Int} {locked : Nat → Bool}
    (h : Sound maxAttempts tables.deliveries nextId phase sends) :
    Sound maxAttempts (skipPaused tables now locked).deliveries nextId phase sends := by
  refine h.updateWhere fun row htest => ⟨rfl, rfl, rfl, rfl, Or.inr ⟨?_, rfl⟩⟩
  rw [of_decide_eq_true (Bool.and_eq_true_iff.mp (Bool.and_eq_true_iff.mp htest).1).1]
  rfl

theorem failExhausted_sound {tables : Tables} {limit : Nat} {now : Int} {locked : Nat → Bool}
    (h : Sound maxAttempts tables.deliveries nextId phase sends) :
    Sound maxAttempts (failExhausted tables limit now locked).deliveries nextId phase sends := by
  refine h.updateWhere fun row htest => ⟨rfl, rfl, rfl, rfl, Or.inr ⟨?_, rfl⟩⟩
  rw [(of_decide_eq_true (Bool.and_eq_true_iff.mp htest).1).1]
  rfl

theorem mem_claimable {tables : Tables} {now : Int} {locked : Nat → Bool}
    {found : DeliveryRecord × OutboxRecord × UserSettings}
    (h : found ∈ claimable tables maxAttempts now locked) :
    found.1 ∈ tables.deliveries ∧ found.1.status = .pending ∧ found.1.attempts < maxAttempts := by
  obtain ⟨row, hrow, hjoin⟩ := List.mem_filterMap.mp h
  rw [mem_sortedBy, List.mem_filter, Bool.and_eq_true_iff] at hrow
  have htest := of_decide_eq_true hrow.2.1
  split at hjoin
  · cases hjoin
    exact ⟨hrow.1, htest.1, htest.2.2⟩
  · cases hjoin

theorem recoverStaleSending_sound {tables : Tables} {now cutoff : Int} {locked : Nat → Bool}
    (h : Sound maxAttempts tables.deliveries nextId phase sends) :
    Sound maxAttempts (recoverStaleSending tables now cutoff locked).deliveries nextId phase
      sends := by
  refine h.updateWhere fun row htest => ⟨rfl, rfl, rfl, rfl, Or.inr ⟨?_, rfl⟩⟩
  rw [(of_decide_eq_true (Bool.and_eq_true_iff.mp htest).1).1]
  rfl

/-- Marking a row that is being sent as anything final. -/
theorem updateSending_sound {tables : Tables} {deliveryId : Nat}
    {change : DeliveryRecord → DeliveryRecord}
    (h : Sound maxAttempts tables.deliveries nextId phase sends)
    (hsame : ∀ row, (change row).id = row.id ∧ (change row).outboxId = row.outboxId ∧
      (change row).userId = row.userId ∧ (change row).attempts = row.attempts)
    (hfinal : ∀ row, (change row).status.isFinal = true) :
    Sound maxAttempts (updateSending tables deliveryId change).deliveries nextId phase sends := by
  refine h.updateWhere fun row htest => ?_
  obtain ⟨hid, houtbox, huser, hattempts⟩ := hsame row
  refine ⟨hid, houtbox, huser, hattempts, Or.inr ⟨?_, hfinal row⟩⟩
  rw [(of_decide_eq_true htest).2]
  rfl

theorem step_sound {world next : World} {action : Action} (h : world.Sound maxAttempts)
    (hstep : step localTime maxAttempts retryBase world action = .ok next) :
    next.Sound maxAttempts := by
  cases action with
  | recover service now cutoff locked =>
    simp only [step] at hstep
    split at hstep
    · cases hstep
      exact recoverStaleSending_sound (h.release service .idle rfl)
    · cases hstep
  | materialize service userIds batchSize now locked =>
    simp only [step] at hstep
    split at hstep
    · cases hstep
      exact materializePending_sound (h.release service .materialized rfl)
    · cases hstep
  | claim service now locked =>
    have hprepared : Sound maxAttempts (failExhausted (skipPaused world.tables now (locked 0))
        maxAttempts now (locked 1)).deliveries world.tables.nextDeliveryId world.phase world.sends :=
      failExhausted_sound (skipPaused_sound h)
    simp only [step] at hstep
    split at hstep
    · unfold claimDelivery claimFirst at hstep
      cases hfound : (claimable (failExhausted (skipPaused world.tables now (locked 0)) maxAttempts
          now (locked 1)) maxAttempts now (locked 2)).head? with
      | none =>
        rw [hfound] at hstep
        cases hstep
        exact hprepared.release service .idle rfl
      | some found =>
        rw [hfound] at hstep
        cases hstep
        obtain ⟨hrow, hpending, hbelow⟩ := mem_claimable (List.mem_of_head? hfound)
        exact hprepared.claim hrow hpending hbelow rfl rfl
    · cases hstep
  | send service =>
    simp only [step] at hstep
    split at hstep
    · rename_i delivery hphase
      cases hstep
      exact Sound.send h hphase
    · cases hstep
  | answer service outcome =>
    simp only [step] at hstep
    split at hstep
    · rename_i delivery hphase
      cases hstep
      exact Sound.answer h hphase outcome
    · cases hstep
  | mark service now =>
    simp only [step] at hstep
    split at hstep
    · rename_i delivery outcome hphase
      cases hstep
      cases outcome with
      | success messageId =>
        exact updateSending_sound (h.release service .idle rfl) (fun _ => ⟨rfl, rfl, rfl, rfl⟩)
          fun _ => rfl
      | retryable error retryAfter =>
        exact Sound.retry h hphase rfl (fun _ => rfl) fun _ => rfl
      | permanent error =>
        exact updateSending_sound (h.release service .idle rfl) (fun _ => ⟨rfl, rfl, rfl, rfl⟩)
          fun _ => rfl
      | unknown error =>
        exact updateSending_sound (h.release service .idle rfl) (fun _ => ⟨rfl, rfl, rfl, rfl⟩)
          fun _ => rfl
    · cases hstep
  | crash service =>
    cases hstep
    exact h.release service .starting rfl
  | enqueue eventType payload score availableAt =>
    cases hstep
    exact h
  | configure user =>
    cases hstep
    unfold saveUser
    split <;> exact h

theorem run_sound (actions : List Action) :
    (run localTime maxAttempts retryBase actions).Sound maxAttempts := by
  refine runAll_invariant (P := World.Sound maxAttempts) (fun _ _ _ hs hnext => step_sound hs hnext)
    ?_ actions
  constructor
  · exact List.nodup_nil
  · exact fun row hrow => absurd hrow List.not_mem_nil
  · exact fun row hrow => absurd hrow List.not_mem_nil
  · exact fun _ _ hphase => nomatch hphase
  · exact fun _ _ _ _ hphase => nomatch hphase
  · exact fun entry hentry => absurd hentry List.not_mem_nil
  · exact List.Pairwise.nil
  · exact fun _ _ hphase => nomatch hphase
  · exact fun _ _ _ hphase => nomatch hphase

end Steps

end StructurePulse.Telegram
