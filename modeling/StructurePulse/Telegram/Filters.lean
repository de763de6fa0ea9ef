import StructurePulse.Telegram.Expansion

/-!
# The filters of a user at sending time

The score and the schedule are looked at when a record is expanded, the pause flag once
more at the claim. `consulted` logs the settings and the time of every expansion. A
delivery on its way has passed the policy there; whether it still passes when it is sent
depends on what happened in between.
-/

namespace StructurePulse.Telegram
open Library
set_option autoImplicit false

section Watching

/-- The policy was asked for a record and the settings of a user. -/
structure Consultation where
  outboxId : Nat
  user : UserSettings
  now : Int
  deriving Repr, DecidableEq

def Consultation.key (entry : Consultation) : Nat × Int := (entry.outboxId, entry.user.userId)

structure History where
  world : World := {}
  consulted : List Consultation := []

def consultations (world : World) : Action → List Consultation
  | .materialize _ userIds batchSize now locked =>
    if userIds.isEmpty then []
    else (pendingOutbox world.tables batchSize now locked).flatMap fun outbox =>
      (listedUsers world.tables userIds).map fun user => ⟨outbox.id, user, now⟩
  | _ => []

variable (localTime : String → Int → Option Int) (maxAttempts : Nat) (retryBase : Int)

/-- An action at a time, with the log of the consultations. -/
def watch (history : History) (event : Int × Action) : Except Unit History := do
  let world ← step localTime maxAttempts retryBase history.world event.2
  return {
    world := world
    consulted := history.consulted ++ consultations history.world event.2 }

/-- What the service hands to the sender passes the filters of the user at this time. -/
def Respects (world : World) (time : Int) (service : Nat) : Prop :=
  match world.phase service with
  | .claimed delivery => delivery.eventType = "new_signal" →
    ∃ outbox ∈ world.tables.outbox, ∃ user ∈ world.tables.users,
      outbox.id = delivery.outboxId ∧ user.userId = delivery.userId ∧ user.paused = false ∧
        user.minimumScore ≤ outbox.score.getD 0 ∧
        notificationWindowIsOpen localTime time user = true
  | _ => True

instance (world : World) (time : Int) (service : Nat) :
    Decidable (Respects localTime world time service) := by
  unfold Respects
  split <;> infer_instance

/-- At a send of a new signal, the policy says of the record, the settings of the user and
the time what it said of the settings and the time of the expansion. -/
def Unchanged (history : History) (event : Int × Action) : Prop :=
  match event.2 with
  | .send service =>
    match history.world.phase service with
    | .claimed delivery => delivery.eventType = "new_signal" →
      ∀ outbox ∈ history.world.tables.outbox, outbox.id = delivery.outboxId →
        ∀ user ∈ history.world.tables.users, user.userId = delivery.userId →
          ∀ entry ∈ history.consulted, entry.key = (delivery.outboxId, delivery.userId) →
            (deliveryPolicy localTime outbox user event.1).1 =
              (deliveryPolicy localTime outbox entry.user entry.now).1
    | _ => True
  | _ => True

instance (history : History) (event : Int × Action) :
    Decidable (Unchanged localTime history event) := by
  unfold Unchanged
  cases event.2 with
  | send service =>
    simp only
    cases history.world.phase service with
    | claimed delivery => exact instDecidableForall
    | _ => infer_instance
  | _ => infer_instance

end Watching

section Policy
variable {localTime : String → Int → Option Int}

theorem deliveryPolicy_congr {outbox other : OutboxRecord} (htype : outbox.eventType = other.eventType)
    (hscore : outbox.score = other.score) (user : UserSettings) (now : Int) :
    deliveryPolicy localTime outbox user now = deliveryPolicy localTime other user now := by
  unfold deliveryPolicy
  rw [htype, hscore]

theorem deliveryPolicy_final {outbox : OutboxRecord} {user : UserSettings} {now : Int}
    (h : (deliveryPolicy localTime outbox user now).1.isFinal = false) :
    (deliveryPolicy localTime outbox user now).1 = .pending := by
  revert h
  unfold deliveryPolicy
  split_ifs
  all_goals
    intro h
    first | rfl | cases h

/-- The policy lets a new signal pass when the three filters do. -/
theorem deliveryPolicy_pending_iff {outbox : OutboxRecord} (htype : outbox.eventType = "new_signal")
    {user : UserSettings} {now : Int} :
    (deliveryPolicy localTime outbox user now).1 = .pending ↔
      user.paused = false ∧ user.minimumScore ≤ outbox.score.getD 0 ∧
        notificationWindowIsOpen localTime now user = true := by
  unfold deliveryPolicy
  rw [if_neg (not_not.mpr htype)]
  split_ifs with hpaused hscore hwindow
  · simp [hpaused]
  · simp [not_le.mpr hscore]
  · simp only [Bool.not_eq_true'] at hwindow
    simp [hwindow]
  · simp only [Bool.not_eq_true', Bool.not_eq_false] at hwindow
    simp [hpaused, not_lt.mp hscore, hwindow]

end Policy

section Materialize
variable {localTime : String → Int → Option Int} {users : List UserSettings} {now : Int}

theorem foldl_insertDelivery_users (tables : Tables) (outbox : OutboxRecord)
    (listed : List UserSettings) :
    (listed.foldl (fun tables user => insertDelivery localTime tables outbox now user) tables).users =
      tables.users := by
  refine List.foldlRecOn (motive := fun next : Tables => next.users = tables.users) _ _ rfl ?_
  intro next h user _
  rcases @insertDelivery_cases localTime next outbox now user with heq | ⟨row, -, -, -, -, heq⟩
  · rw [heq]
    exact h
  · rw [heq]
    exact h

theorem foldl_expand_users (tables : Tables) (records : List OutboxRecord) :
    (records.foldl (expand localTime users now) tables).users = tables.users := by
  refine List.foldlRecOn (motive := fun next : Tables => next.users = tables.users) _ _ rfl ?_
  intro next h outbox _
  exact (foldl_insertDelivery_users next outbox users).trans h

theorem expand_outbox (tables : Tables) (outbox : OutboxRecord) :
    (expand localTime users now tables outbox).outbox =
      replaceRow OutboxRecord.id tables.outbox
        { outbox with status := .expanded, processedAt := some now } := by
  rw [← (@insertDeliveries_keys localTime tables outbox now users).1]
  rfl

/-- Only the records of the batch change: they are expanded. -/
theorem mem_foldl_expand_outbox {tables : Tables} {records : List OutboxRecord} {row : OutboxRecord}
    (h : row ∈ (records.foldl (expand localTime users now) tables).outbox) :
    (row ∈ tables.outbox ∧ ∀ record ∈ records, row.id ≠ record.id) ∨
      (row.status = .expanded ∧ ∃ record ∈ records, record.id = row.id ∧
        record.eventType = row.eventType ∧ record.score = row.score) := by
  induction records generalizing tables with
  | nil => exact Or.inl ⟨h, fun record hrecord => absurd hrecord List.not_mem_nil⟩
  | cons outbox records ih =>
    rcases ih h with ⟨hmem, hfree⟩ | ⟨hstatus, record, hrecord, hsame⟩
    · rw [expand_outbox] at hmem
      rcases mem_replaceRow hmem with rfl | ⟨hold, hne⟩
      · exact Or.inr ⟨rfl, outbox, List.mem_cons_self, rfl, rfl, rfl⟩
      · refine Or.inl ⟨hold, fun record hrecord => ?_⟩
        rcases List.mem_cons.mp hrecord with rfl | hrest
        · exact hne
        · exact hfree record hrest
    · exact Or.inr ⟨hstatus, record, List.mem_cons_of_mem outbox hrecord, hsame⟩

theorem keys_foldl_expand_outbox (tables : Tables) (records : List OutboxRecord) :
    (records.foldl (expand localTime users now) tables).outbox.map OutboxRecord.id =
      tables.outbox.map OutboxRecord.id := by
  refine List.foldlRecOn (motive := fun next : Tables =>
    next.outbox.map OutboxRecord.id = tables.outbox.map OutboxRecord.id) _ _ rfl ?_
  intro next h outbox _
  rw [expand_outbox, keys_replaceRow]
  exact h

/-- A new row has the verdict of the policy on its record and its user. -/
theorem mem_foldl_expand_deliveries {tables : Tables} {records : List OutboxRecord}
    {row : DeliveryRecord} (h : row ∈ (records.foldl (expand localTime users now) tables).deliveries) :
    row ∈ tables.deliveries ∨ ∃ outbox ∈ records, ∃ user ∈ users,
      row.key = (outbox.id, user.userId) ∧ row.status = (deliveryPolicy localTime outbox user now).1 := by
  revert h
  refine List.foldlRecOn (motive := fun next : Tables => row ∈ next.deliveries →
    row ∈ tables.deliveries ∨ ∃ outbox ∈ records, ∃ user ∈ users,
      row.key = (outbox.id, user.userId) ∧ row.status = (deliveryPolicy localTime outbox user now).1)
    _ _ Or.inl ?_
  intro next hnext outbox houtbox
  refine List.foldlRecOn (motive := fun next : Tables => row ∈ next.deliveries →
    row ∈ tables.deliveries ∨ ∃ outbox ∈ records, ∃ user ∈ users,
      row.key = (outbox.id, user.userId) ∧ row.status = (deliveryPolicy localTime outbox user now).1)
    _ _ hnext ?_
  intro next hnext user huser hrow
  unfold insertDelivery at hrow
  split at hrow
  · exact hnext hrow
  · rcases List.mem_append.mp hrow with hold | hnew
    · exact hnext hold
    · rw [List.mem_singleton.mp hnew]
      exact Or.inr ⟨outbox, houtbox, user, huser, rfl, rfl⟩

end Materialize

section Judged
variable {localTime : String → Int → Option Int} {tables next : Tables} {phase : Nat → Phase}
variable {consulted later : List Consultation} {key : Nat × Int}

/-- The policy was asked for the record and the user, and let the delivery pass. -/
structure Passed (localTime : String → Int → Option Int) (tables : Tables)
    (consulted : List Consultation) (key : Nat × Int) : Prop where
  asked : ∃ entry ∈ consulted, entry.key = key
  record : key.1 ∈ tables.outbox.map OutboxRecord.id
  user : key.2 ∈ tables.users.map UserSettings.userId
  verdict : ∀ entry ∈ consulted, entry.key = key → ∀ outbox ∈ tables.outbox, outbox.id = key.1 →
    (deliveryPolicy localTime outbox entry.user entry.now).1 = .pending

/-- Every delivery that is not final, and every claimed one, has passed the policy. -/
structure Judged (localTime : String → Int → Option Int) (tables : Tables) (phase : Nat → Phase)
    (consulted : List Consultation) : Prop where
  users : (tables.users.map UserSettings.userId).Nodup
  expanded : ∀ entry ∈ consulted, entry.outboxId ∈ tables.outbox.map OutboxRecord.id ∧
    ∀ outbox ∈ tables.outbox, outbox.id = entry.outboxId → outbox.status = .expanded
  passed : ∀ row ∈ tables.deliveries, row.status.isFinal = false →
    Passed localTime tables consulted row.key
  claimed : ∀ service delivery, phase service = .claimed delivery →
    Passed localTime tables consulted (delivery.outboxId, delivery.userId) ∧
      ∀ outbox ∈ tables.outbox, outbox.id = delivery.outboxId →
        outbox.eventType = delivery.eventType

theorem Judged.phases (h : Judged localTime tables phase consulted) {phase' : Nat → Phase}
    (hphase : ∀ service delivery, phase' service = .claimed delivery →
      phase service = .claimed delivery) : Judged localTime tables phase' consulted :=
  ⟨h.users, h.expanded, h.passed, fun service delivery hclaimed =>
    h.claimed service delivery (hphase service delivery hclaimed)⟩

/-- A service that goes to a phase without a claim. -/
theorem Judged.release (h : Judged localTime tables phase consulted) {service : Nat} {free : Phase}
    (hfree : ∀ delivery, free ≠ .claimed delivery) :
    Judged localTime tables (Function.update phase service free) consulted := by
  refine h.phases fun other delivery hclaimed => ?_
  rw [Function.update_apply] at hclaimed
  split at hclaimed
  · exact absurd hclaimed (hfree delivery)
  · exact hclaimed

theorem Passed.congr (h : Passed localTime tables consulted key) (houtbox : next.outbox = tables.outbox)
    (husers : next.users = tables.users) : Passed localTime next consulted key := by
  constructor
  · exact h.asked
  · rw [houtbox]
    exact h.record
  · rw [husers]
    exact h.user
  · rw [houtbox]
    exact h.verdict

/-- An update of rows that are not final. -/
theorem Judged.update (h : Judged localTime tables phase consulted)
    {test : DeliveryRecord → Bool} {change : DeliveryRecord → DeliveryRecord}
    (hrows : next.deliveries = updateWhere test change tables.deliveries)
    (houtbox : next.outbox = tables.outbox) (husers : next.users = tables.users)
    (hkey : ∀ row, (change row).key = row.key)
    (htest : ∀ row ∈ tables.deliveries, test row = true → row.status.isFinal = false) :
    Judged localTime next phase consulted := by
  constructor
  · rw [husers]
    exact h.users
  · rw [houtbox]
    exact h.expanded
  · intro row hrow hopen
    rw [hrows] at hrow
    obtain ⟨source, hsource, rfl⟩ := List.mem_map.mp hrow
    refine Passed.congr ?_ houtbox husers
    split at hopen
    · rename_i hchanged
      rw [if_pos hchanged, hkey]
      exact h.passed source hsource (htest source hsource hchanged)
    · rename_i hkept
      rw [if_neg hkept]
      exact h.passed source hsource hopen
  · intro service delivery hclaimed
    obtain ⟨hpassed, htype⟩ := h.claimed service delivery hclaimed
    refine ⟨hpassed.congr houtbox husers, ?_⟩
    rw [houtbox]
    exact htype

end Judged

section Steps
variable {localTime : String → Int → Option Int} {maxAttempts : Nat} {retryBase : Int}
variable {tables : Tables} {phase : Nat → Phase} {consulted : List Consultation}
variable {key : Nat × Int}

theorem consultation_of_mem {records : List OutboxRecord} {users : List UserSettings} {now : Int}
    {entry : Consultation}
    (h : entry ∈ records.flatMap fun outbox => users.map fun user =>
      (⟨outbox.id, user, now⟩ : Consultation)) :
    ∃ outbox ∈ records, ∃ user ∈ users, entry = ⟨outbox.id, user, now⟩ := by
  obtain ⟨outbox, houtbox, hin⟩ := List.mem_flatMap.mp h
  obtain ⟨user, huser, rfl⟩ := List.mem_map.mp hin
  exact ⟨outbox, houtbox, user, huser, rfl⟩

/-- The records of a batch are pending, so nothing was asked about them before. -/
theorem Judged.unasked (h : Judged localTime tables phase consulted) {outbox : OutboxRecord}
    (houtbox : outbox ∈ tables.outbox) (hpending : outbox.status = .pending) :
    ∀ entry ∈ consulted, entry.outboxId ≠ outbox.id := by
  intro entry hentry heq
  have hstatus := (h.expanded entry hentry).2 outbox houtbox heq.symm
  rw [hpending] at hstatus
  cases hstatus

/-- An expansion keeps what was asked about earlier records. -/
theorem Passed.expand {users : List UserSettings} {now : Int} {records : List OutboxRecord}
    (hjudged : Judged localTime tables phase consulted)
    (hrecords : ∀ outbox ∈ records, outbox ∈ tables.outbox ∧ outbox.status = .pending)
    (h : Passed localTime tables consulted key) :
    Passed localTime (records.foldl (Telegram.expand localTime users now) tables)
      (consulted ++ records.flatMap fun outbox => users.map fun user => ⟨outbox.id, user, now⟩)
      key := by
  obtain ⟨asked, hasked, haskedKey⟩ := h.asked
  have hother : ∀ outbox ∈ records, key.1 ≠ outbox.id := by
    intro outbox houtbox heq
    obtain ⟨hmem, hpending⟩ := hrecords outbox houtbox
    refine hjudged.unasked hmem hpending asked hasked ?_
    rw [← heq, ← haskedKey]
    rfl
  constructor
  · exact ⟨asked, List.mem_append_left _ hasked, haskedKey⟩
  · rw [keys_foldl_expand_outbox]
    exact h.record
  · rw [foldl_expand_users]
    exact h.user
  · intro entry hentry hkey row hrow hid
    rcases List.mem_append.mp hentry with hold | hnew
    · rcases mem_foldl_expand_outbox hrow with ⟨hmem, -⟩ | ⟨-, record, hrecord, hsame, -⟩
      · exact h.verdict entry hold hkey row hmem hid
      · exact absurd (hid.symm.trans hsame.symm) (hother record hrecord)
    · obtain ⟨outbox, houtbox, user, -, rfl⟩ := consultation_of_mem hnew
      exact absurd (congrArg Prod.fst hkey).symm (hother outbox houtbox)

theorem Judged.expand {users : List UserSettings} {now : Int} {records : List OutboxRecord}
    (h : Judged localTime tables phase consulted)
    (hids : (tables.outbox.map OutboxRecord.id).Nodup)
    (hrecords : ∀ outbox ∈ records, outbox ∈ tables.outbox ∧ outbox.status = .pending)
    (hlisted : ∀ user ∈ users, user ∈ tables.users) :
    Judged localTime (records.foldl (Telegram.expand localTime users now) tables) phase
      (consulted ++ records.flatMap fun outbox => users.map fun user =>
        ⟨outbox.id, user, now⟩) := by
  constructor
  · rw [foldl_expand_users]
    exact h.users
  · intro entry hentry
    rw [keys_foldl_expand_outbox]
    rcases List.mem_append.mp hentry with hold | hnew
    · obtain ⟨hknown, hexpanded⟩ := h.expanded entry hold
      refine ⟨hknown, fun row hrow hid => ?_⟩
      rcases mem_foldl_expand_outbox hrow with ⟨hmem, -⟩ | ⟨hstatus, -⟩
      · exact hexpanded row hmem hid
      · exact hstatus
    · obtain ⟨outbox, houtbox, user, -, rfl⟩ := consultation_of_mem hnew
      refine ⟨List.mem_map.mpr ⟨outbox, (hrecords outbox houtbox).1, rfl⟩, fun row hrow hid => ?_⟩
      rcases mem_foldl_expand_outbox hrow with ⟨-, hfree⟩ | ⟨hstatus, -⟩
      · exact absurd hid (hfree outbox houtbox)
      · exact hstatus
  · intro row hrow hopen
    rcases mem_foldl_expand_deliveries hrow with hold | ⟨outbox, houtbox, user, huser, hkey, hstatus⟩
    · exact Passed.expand h hrecords (h.passed row hold hopen)
    · obtain ⟨hmem, hpending⟩ := hrecords outbox houtbox
      rw [hkey]
      refine ⟨⟨⟨outbox.id, user, now⟩, List.mem_append_right _ ?_, rfl⟩, ?_, ?_, ?_⟩
      · exact List.mem_flatMap.mpr ⟨outbox, houtbox, List.mem_map.mpr ⟨user, huser, rfl⟩⟩
      · rw [keys_foldl_expand_outbox]
        exact List.mem_map.mpr ⟨outbox, hmem, rfl⟩
      · rw [foldl_expand_users]
        exact List.mem_map.mpr ⟨user, hlisted user huser, rfl⟩
      · intro entry hentry hentryKey found hfound hid
        obtain ⟨hentryId, hentryUser⟩ := Prod.mk.inj hentryKey
        rcases List.mem_append.mp hentry with holdEntry | hnew
        · exact absurd hentryId (h.unasked hmem hpending entry holdEntry)
        -- the entry is the one of this record and this user
        · obtain ⟨other, hother, asked, hasked, rfl⟩ := consultation_of_mem hnew
          have hsame : asked = user :=
            List.inj_on_of_nodup_map h.users (hlisted asked hasked) (hlisted user huser) hentryUser
          rcases mem_foldl_expand_outbox hfound with ⟨-, hfree⟩ | ⟨-, record, hrecord, hrecordId, htype, hscore⟩
          · exact absurd hid (hfree outbox houtbox)
          · have hrecordSame : record = outbox :=
              List.inj_on_of_nodup_map hids (hrecords record hrecord).1 hmem (hrecordId.trans hid)
            rw [hsame, deliveryPolicy_congr htype.symm hscore.symm, hrecordSame]
            apply deliveryPolicy_final
            rw [← hstatus]
            exact hopen
  · intro service delivery hclaimed
    obtain ⟨hpassed, htype⟩ := h.claimed service delivery hclaimed
    refine ⟨Passed.expand h hrecords hpassed, fun row hrow hid => ?_⟩
    rcases mem_foldl_expand_outbox hrow with ⟨hmem, -⟩ | ⟨-, record, hrecord, hsame, hsameType, -⟩
    · exact htype row hmem hid
    · rw [← hsameType]
      exact htype record (hrecords record hrecord).1 (hsame.trans hid)

theorem consultations_materialize (world : World) (service : Nat) (userIds : List Int)
    (batchSize : Nat) (now : Int) (locked : Nat → Bool)
    (hjudged : Judged localTime world.tables world.phase consulted)
    (hids : (world.tables.outbox.map OutboxRecord.id).Nodup) :
    Judged localTime (materializePending localTime world.tables userIds batchSize now locked)
      world.phase
      (consulted ++ consultations world (.materialize service userIds batchSize now locked)) := by
  unfold materializePending consultations
  simp only
  split
  · rw [List.append_nil]
    exact hjudged
  · obtain ⟨-, hrecords⟩ := pendingOutbox_spec hids batchSize now locked
    refine hjudged.expand hids hrecords fun user huser => ?_
    exact List.mem_of_mem_filter huser

/-- A claim takes a row that is pending, with the rows it is joined with. -/
theorem Judged.claim (h : Judged localTime tables phase consulted)
    (hids : (tables.outbox.map OutboxRecord.id).Nodup)
    (hunique : ∀ row ∈ tables.deliveries, ∀ other ∈ tables.deliveries, row.id = other.id → row = other)
    {now : Int} {locked : Nat → Bool} {service : Nat} {delivery : PendingDelivery} {next : Tables}
    (hclaim : claimFirst tables maxAttempts now locked = (next, some delivery)) :
    Judged localTime next (Function.update phase service (.claimed delivery)) consulted := by
  unfold claimFirst at hclaim
  split at hclaim
  · cases hclaim
  · rename_i row outbox user hfound
    cases hclaim
    have hmem := List.mem_of_head? hfound
    obtain ⟨hrow, hpending, -⟩ := mem_claimable hmem
    obtain ⟨source, -, hjoin⟩ := List.mem_filterMap.mp hmem
    split at hjoin
    · rename_i foundOutbox foundUser houtbox huser
      cases hjoin
      have hopen : row.status.isFinal = false := by
        rw [hpending]
        rfl
      have hupdated : Judged localTime { tables with
          deliveries := updateWhere (fun other => decide (other.id = row.id))
            (fun other => { other with
              status := .sending, attempts := other.attempts + 1, updatedAt := now })
            tables.deliveries } phase consulted := by
        refine h.update rfl rfl rfl (fun _ => rfl) fun other hother htest => ?_
        rw [hunique other hother row hrow (of_decide_eq_true htest)]
        exact hopen
      refine ⟨hupdated.users, hupdated.expanded, hupdated.passed, fun other found hclaimed => ?_⟩
      rw [Function.update_apply] at hclaimed
      split at hclaimed
      · cases hclaimed
        have hid : outbox.id = row.outboxId := lookup_key houtbox
        have hpassed : Passed localTime tables consulted (outbox.id, row.userId) := by
          rw [hid]
          exact h.passed row hrow hopen
        refine ⟨hpassed.congr rfl rfl, fun record hrecord hrecordId => ?_⟩
        exact congrArg OutboxRecord.eventType
          (List.inj_on_of_nodup_map hids hrecord (lookup_mem houtbox) hrecordId)
      · exact hupdated.claimed other found hclaimed
    · cases hjoin

theorem Judged.enqueue (h : Judged localTime tables phase consulted) {row : OutboxRecord}
    (hfresh : row.id ∉ tables.outbox.map OutboxRecord.id) {nextId : Nat} :
    Judged localTime { tables with outbox := tables.outbox ++ [row], nextOutboxId := nextId } phase
      consulted := by
  have hsame : ∀ id ∈ tables.outbox.map OutboxRecord.id, ∀ found ∈ tables.outbox ++ [row],
      found.id = id → found ∈ tables.outbox := by
    intro id hid found hfound heq
    rcases List.mem_append.mp hfound with hold | hnew
    · exact hold
    · rw [List.mem_singleton.mp hnew] at heq
      exact absurd (heq ▸ hid) hfresh
  have hknown : ∀ id ∈ tables.outbox.map OutboxRecord.id,
      id ∈ (tables.outbox ++ [row]).map OutboxRecord.id := by
    intro id hid
    rw [List.map_append]
    exact List.mem_append_left _ hid
  have hpassed : ∀ key, Passed localTime tables consulted key → Passed localTime
      { tables with outbox := tables.outbox ++ [row], nextOutboxId := nextId } consulted key := by
    intro key hkey
    refine ⟨hkey.asked, hknown _ hkey.record, hkey.user, ?_⟩
    intro entry hentry hentryKey found hfound hid
    exact hkey.verdict entry hentry hentryKey found (hsame _ hkey.record found hfound hid) hid
  constructor
  · exact h.users
  · intro entry hentry
    obtain ⟨hin, hstatus⟩ := h.expanded entry hentry
    exact ⟨hknown _ hin, fun found hfound hid => hstatus found (hsame _ hin found hfound hid) hid⟩
  · intro delivery hdelivery hopen
    exact hpassed _ (h.passed delivery hdelivery hopen)
  · intro service delivery hclaimed
    obtain ⟨hkey, htype⟩ := h.claimed service delivery hclaimed
    refine ⟨hpassed _ hkey, fun found hfound hid => ?_⟩
    exact htype found (hsame _ hkey.record found hfound hid) hid

theorem saveUser_eq (tables : Tables) (user : UserSettings) :
    saveUser tables user =
      { tables with users := upsertRow UserSettings.userId tables.users user } := by
  unfold saveUser upsertRow
  split <;> rfl

theorem Judged.configure (h : Judged localTime tables phase consulted) (user : UserSettings) :
    Judged localTime (saveUser tables user) phase consulted := by
  rw [saveUser_eq]
  have hpassed : ∀ key, Passed localTime tables consulted key → Passed localTime
      { tables with users := upsertRow UserSettings.userId tables.users user } consulted key :=
    fun key hkey =>
      ⟨hkey.asked, hkey.record, mem_keys_upsertRow.mpr (Or.inl hkey.user), hkey.verdict⟩
  constructor
  · exact nodup_keys_upsertRow h.users
  · exact h.expanded
  · intro row hrow hopen
    exact hpassed _ (h.passed row hrow hopen)
  · intro service delivery hclaimed
    obtain ⟨hkey, htype⟩ := h.claimed service delivery hclaimed
    exact ⟨hpassed _ hkey, htype⟩

theorem Judged.sending (h : Judged localTime tables phase consulted) (deliveryId : Nat)
    {change : DeliveryRecord → DeliveryRecord} (hkey : ∀ row, (change row).key = row.key) :
    Judged localTime (updateSending tables deliveryId change) phase consulted := by
  refine h.update rfl rfl rfl hkey fun row _ htest => ?_
  rw [(of_decide_eq_true htest).2]
  rfl

theorem Judged.mark (h : Judged localTime tables phase consulted) (delivery : PendingDelivery)
    (now : Int) (outcome : SendOutcome) :
    Judged localTime (markOutcome retryBase tables delivery now outcome) phase consulted := by
  cases outcome with
  | success messageId => exact h.sending _ fun _ => rfl
  | retryable error retryAfter => exact h.sending _ fun _ => rfl
  | permanent error => exact h.sending _ fun _ => rfl
  | unknown error => exact h.sending _ fun _ => rfl

theorem step_judged {world next : World} {action : Action} (hsound : world.Sound maxAttempts)
    (hexpanded : world.tables.Expanded world.expansions)
    (h : Judged localTime world.tables world.phase consulted)
    (hstep : step localTime maxAttempts retryBase world action = .ok next) :
    Judged localTime next.tables next.phase (consulted ++ consultations world action) := by
  cases action with
  | recover service now cutoff locked =>
    simp only [consultations, List.append_nil]
    simp only [step] at hstep
    split at hstep
    · cases hstep
      refine (@Judged.release _ _ _ _ h service .idle fun _ => Phase.noConfusion).update rfl rfl rfl
        (fun _ => rfl) fun row _ htest => ?_
      rw [(of_decide_eq_true (Bool.and_eq_true_iff.mp htest).1).1]
      rfl
    · cases hstep
  | materialize service userIds batchSize now locked =>
    simp only [step] at hstep
    split at hstep
    · cases hstep
      exact (consultations_materialize world service userIds batchSize now locked h
        hexpanded.ids).release fun _ => Phase.noConfusion
    · cases hstep
  | claim service now locked =>
    simp only [consultations, List.append_nil]
    have hskipped : Judged localTime (skipPaused world.tables now (locked 0)) world.phase
        consulted := by
      refine h.update rfl rfl rfl (fun _ => rfl) fun row _ htest => ?_
      rw [of_decide_eq_true (Bool.and_eq_true_iff.mp (Bool.and_eq_true_iff.mp htest).1).1]
      rfl
    have hprepared : Judged localTime (failExhausted (skipPaused world.tables now (locked 0))
        maxAttempts now (locked 1)) world.phase consulted := by
      refine hskipped.update rfl rfl rfl (fun _ => rfl) fun row _ htest => ?_
      rw [(of_decide_eq_true (Bool.and_eq_true_iff.mp htest).1).1]
      rfl
    have hunique : Sound maxAttempts (failExhausted (skipPaused world.tables now (locked 0))
        maxAttempts now (locked 1)).deliveries world.tables.nextDeliveryId world.phase world.sends :=
      failExhausted_sound (skipPaused_sound hsound)
    simp only [step] at hstep
    split at hstep
    · split at hstep
      · rename_i tables hclaim
        cases hstep
        unfold claimDelivery claimFirst at hclaim
        split at hclaim
        · cases hclaim
          exact hprepared.release fun _ => Phase.noConfusion
        · cases hclaim
      · rename_i tables delivery hclaim
        cases hstep
        exact hprepared.claim hexpanded.ids
          (fun row hrow other hother hid => hunique.unique hrow hother hid) hclaim
    · cases hstep
  | send service =>
    simp only [consultations, List.append_nil]
    simp only [step] at hstep
    split at hstep
    · cases hstep
      exact h.release fun _ => Phase.noConfusion
    · cases hstep
  | answer service outcome =>
    simp only [consultations, List.append_nil]
    simp only [step] at hstep
    split at hstep
    · cases hstep
      exact h.release fun _ => Phase.noConfusion
    · cases hstep
  | mark service now =>
    simp only [consultations, List.append_nil]
    simp only [step] at hstep
    split at hstep
    · rename_i delivery outcome _
      cases hstep
      exact (h.release fun _ => Phase.noConfusion).mark delivery now outcome
    · cases hstep
  | crash service =>
    simp only [consultations, List.append_nil]
    cases hstep
    exact h.release fun _ => Phase.noConfusion
  | enqueue eventType payload score availableAt =>
    simp only [consultations, List.append_nil]
    cases hstep
    refine h.enqueue fun hin => ?_
    obtain ⟨row, hrow, hid⟩ := List.mem_map.mp hin
    have hfresh := hexpanded.fresh row hrow
    rw [hid] at hfresh
    exact absurd hfresh (lt_irrefl _)
  | configure user =>
    simp only [consultations, List.append_nil]
    cases hstep
    exact h.configure user

end Steps

section Result
variable (localTime : String → Int → Option Int) (maxAttempts : Nat) (retryBase : Int)

/-- What every watched run keeps. -/
structure Watched (history : History) : Prop where
  sound : history.world.Sound maxAttempts
  expanded : history.world.tables.Expanded history.world.expansions
  judged : Judged localTime history.world.tables history.world.phase history.consulted

variable {localTime maxAttempts retryBase}

theorem watched_step {history next : History} {event : Int × Action}
    (h : Watched localTime maxAttempts history)
    (hstep : watch localTime maxAttempts retryBase history event = .ok next) :
    Watched localTime maxAttempts next := by
  obtain ⟨world, hworld, hnext⟩ := bind_eq_ok.mp hstep
  cases hnext
  constructor
  · exact step_sound h.sound hworld
  · exact step_expanded h.expanded hworld
  · exact step_judged h.sound h.expanded h.judged hworld

theorem watched_initial : Watched localTime maxAttempts {} := by
  constructor
  · exact @run_sound localTime maxAttempts 0 []
  · exact @run_expanded localTime maxAttempts 0 []
  · constructor
    · exact List.nodup_nil
    · intro entry hentry
      cases hentry
    · intro row hrow
      cases hrow
    · intro service delivery hclaimed
      cases hclaimed

/-- The watched world is the world of the run. -/
theorem watched_world (events : List (Int × Action)) :
    (runAll (watch localTime maxAttempts retryBase) {} events).world =
      run localTime maxAttempts retryBase (events.map Prod.snd) := by
  suffices h : ∀ history : History, (runAll (watch localTime maxAttempts retryBase) history events).world =
      runAll (step localTime maxAttempts retryBase) history.world (events.map Prod.snd) from h {}
  induction events with
  | nil =>
    intro history
    rfl
  | cons event events ih =>
    intro history
    refine (ih _).trans ?_
    rw [List.map_cons]
    refine congrArg (fun world => runAll (step localTime maxAttempts retryBase) world
      (events.map Prod.snd)) ?_
    unfold transact watch
    cases step localTime maxAttempts retryBase history.world event.2 with
    | error e => rfl
    | ok world => rfl

/-- A send respects the filters exactly when the verdict of the expansion still stands. -/
theorem Watched.respects_iff {history : History} (h : Watched localTime maxAttempts history)
    (time : Int) (service : Nat) :
    Respects localTime history.world time service ↔
      Unchanged localTime history (time, .send service) := by
  unfold Respects Unchanged
  simp only
  split
  · rename_i delivery hclaimed
    obtain ⟨hpassed, htype⟩ := h.judged.claimed service delivery hclaimed
    constructor
    · intro hrespects hnew outbox houtbox hid user huser huserId entry hentry hkey
      obtain ⟨found, hfound, settings, hsettings, hfoundId, hsettingsId, hfilters⟩ := hrespects hnew
      have hsameOutbox : outbox = found := List.inj_on_of_nodup_map h.expanded.ids houtbox hfound
        (hid.trans hfoundId.symm)
      have hsameUser : user = settings := List.inj_on_of_nodup_map h.judged.users huser hsettings
        (huserId.trans hsettingsId.symm)
      rw [hpassed.verdict entry hentry hkey outbox houtbox hid, hsameUser, hsameOutbox]
      exact (deliveryPolicy_pending_iff ((htype found hfound hfoundId).trans hnew)).mpr hfilters
    · intro hunchanged hnew
      obtain ⟨entry, hentry, hkey⟩ := hpassed.asked
      obtain ⟨outbox, houtbox, hid⟩ := List.mem_map.mp hpassed.record
      obtain ⟨user, huser, huserId⟩ := List.mem_map.mp hpassed.user
      refine ⟨outbox, houtbox, user, huser, hid, huserId, ?_⟩
      apply (deliveryPolicy_pending_iff ((htype outbox houtbox hid).trans hnew)).mp
      rw [hunchanged hnew outbox houtbox hid user huser huserId entry hentry hkey]
      exact hpassed.verdict entry hentry hkey outbox houtbox hid
  · rfl

variable (localTime maxAttempts retryBase)

/-- In every run, every new signal is sent within the filters of its user at that time
exactly when no send comes after a change of the verdict of its expansion. -/
theorem filters_respected_iff (events : List (Int × Action)) :
    (∀ before time service, before ++ [(time, Action.send service)] <+: events →
      Respects localTime (run localTime maxAttempts retryBase (before.map Prod.snd)) time service) ↔
      RunMeets (watch localTime maxAttempts retryBase) (Unchanged localTime) {} events := by
  have hwatched : ∀ before : List (Int × Action), Watched localTime maxAttempts
      (runAll (watch localTime maxAttempts retryBase) {} before) :=
    fun before => runAll_invariant (fun _ _ _ hs hnext => watched_step hs hnext) watched_initial
      before
  constructor
  · intro h
    refine runMeets_iff_prefixes.mpr fun before event hbefore => ?_
    obtain ⟨time, action⟩ := event
    cases action with
    | send service =>
      apply ((hwatched before).respects_iff time service).mp
      rw [watched_world]
      exact h before time service hbefore
    | _ => exact trivial
  · intro h before time service hbefore
    rw [← @watched_world localTime maxAttempts retryBase]
    exact ((hwatched before).respects_iff time service).mpr
      (runMeets_iff_prefixes.mp h before (time, .send service) hbefore)

/-- The first send at 19:59 is refused for an hour; the second one is outside the window. -/
def retriedSignal (delay : Int) : List (Int × Action) :=
  let evening := 20 * oneHour - oneMinute
  let retried := evening + delay
  [(0, .configure { userId := 1 }), (0, .enqueue "new_signal" "BTCUSDT" (some 90) 0),
    (evening, .recover 0 evening 0 fun _ => false),
    (evening, .materialize 0 [1] 100 evening fun _ => false),
    (evening, .claim 0 evening fun _ _ => false), (evening, .send 0),
    (evening, .answer 0 (.retryable "Too Many Requests" delay)), (evening, .mark 0 evening),
    (retried, .materialize 0 [1] 100 retried fun _ => false),
    (retried, .claim 0 retried fun _ _ => false), (retried, .send 0)]

/-- A zone without offset. -/
def utcTime (_ : String) (now : Int) : Option Int := some (now % (24 * oneHour))

theorem retry_sends_outside_window :
    ¬ ∀ before time service,
      before ++ [(time, Action.send service)] <+: retriedSignal oneHour →
        Respects utcTime (run utcTime 5 0 (before.map Prod.snd)) time service := by
  intro h
  have hlast := h ((retriedSignal oneHour).take 10) (21 * oneHour - oneMinute) 0
    (List.prefix_refl _)
  revert hlast
  decide +kernel

theorem filters_respected_sample :
    RunMeets (watch utcTime 5 0) (Unchanged utcTime) {} (retriedSignal (20 * 1000000)) ∧
      ∀ before time service,
        before ++ [(time, Action.send service)] <+: retriedSignal (20 * 1000000) →
          Respects utcTime (run utcTime 5 0 (before.map Prod.snd)) time service := by
  have hmeets : RunMeets (watch utcTime 5 0) (Unchanged utcTime) {} (retriedSignal (20 * 1000000)) := by
    decide +kernel
  exact ⟨hmeets, (filters_respected_iff utcTime 5 0 (retriedSignal (20 * 1000000))).mpr hmeets⟩

end Result

end StructurePulse.Telegram
