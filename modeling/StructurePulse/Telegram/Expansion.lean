import StructurePulse.Telegram.AtMostOnce

/-!
# Expansion of outbox records, and the result

Each record is expanded once, into one row for each listed user. Together with the
ownership of the rows this gives what the outbox promises.
-/

namespace StructurePulse.Telegram
open Library
set_option autoImplicit false

section Keys

def DeliveryRecord.key (row : DeliveryRecord) : Nat × Int := (row.outboxId, row.userId)

def deliveryKeys (tables : Tables) : List (Nat × Int) := tables.deliveries.map DeliveryRecord.key

/-- Every expanded record is logged once and has the rows of its users. -/
structure Expanded (outbox : List OutboxRecord) (nextId : Nat) (keys : List (Nat × Int))
    (expansions : List (Nat × List Int)) : Prop where
  ids : (outbox.map OutboxRecord.id).Nodup
  fresh : ∀ row ∈ outbox, row.id < nextId
  once : (expansions.map Prod.fst).Nodup
  known : ∀ entry ∈ expansions, ∃ row ∈ outbox, row.id = entry.1
  recorded : ∀ row ∈ outbox, row.status = .expanded ↔ row.id ∈ expansions.map Prod.fst
  distinct : keys.Nodup
  delivered : ∀ entry ∈ expansions, ∀ user ∈ entry.2, (entry.1, user) ∈ keys
  source : ∀ key ∈ keys, ∃ entry ∈ expansions, entry.1 = key.1 ∧ key.2 ∈ entry.2

theorem deliveryKeys_updateWhere {test : DeliveryRecord → Bool}
    {change : DeliveryRecord → DeliveryRecord} (hsame : ∀ row, (change row).key = row.key)
    (rows : List DeliveryRecord) :
    (updateWhere test change rows).map DeliveryRecord.key = rows.map DeliveryRecord.key := by
  unfold updateWhere
  rw [List.map_map]
  refine List.map_congr_left fun row _ => ?_
  rw [Function.comp_apply]
  split
  · exact hsame row
  · rfl

variable {localTime : String → Int → Option Int}

theorem insertDelivery_keys (tables : Tables) (outbox : OutboxRecord) (now : Int)
    (user : UserSettings) :
    (insertDelivery localTime tables outbox now user).outbox = tables.outbox ∧
    (insertDelivery localTime tables outbox now user).nextOutboxId = tables.nextOutboxId ∧
    deliveryKeys (insertDelivery localTime tables outbox now user) =
      if (outbox.id, user.userId) ∈ deliveryKeys tables then deliveryKeys tables
      else deliveryKeys tables ++ [(outbox.id, user.userId)] := by
  have hmem : (tables.deliveries.any fun row => decide (row.outboxId = outbox.id ∧
      row.userId = user.userId)) = true ↔ (outbox.id, user.userId) ∈ deliveryKeys tables := by
    unfold deliveryKeys
    rw [List.any_eq_true, List.mem_map]
    simp only [decide_eq_true_eq, DeliveryRecord.key, Prod.mk.injEq]
  unfold insertDelivery
  by_cases hkey : (outbox.id, user.userId) ∈ deliveryKeys tables
  · rw [if_pos (hmem.mpr hkey), if_pos hkey]
    exact ⟨rfl, rfl, rfl⟩
  · rw [if_neg fun h => hkey (hmem.mp h), if_neg hkey]
    refine ⟨rfl, rfl, ?_⟩
    unfold deliveryKeys
    rw [List.map_append]
    rfl

/-- The rows of a record are inserted once for each user. -/
theorem insertDeliveries_keys (tables : Tables) (outbox : OutboxRecord) (now : Int)
    (users : List UserSettings) :
    let inserted := users.foldl
      (fun tables user => insertDelivery localTime tables outbox now user) tables
    inserted.outbox = tables.outbox ∧ inserted.nextOutboxId = tables.nextOutboxId ∧
    ((deliveryKeys tables).Nodup → (deliveryKeys inserted).Nodup) ∧
    ∀ key, key ∈ deliveryKeys inserted ↔ key ∈ deliveryKeys tables ∨
      (key.1 = outbox.id ∧ key.2 ∈ users.map UserSettings.userId) := by
  induction users generalizing tables with
  | nil => exact ⟨rfl, rfl, id, fun key => by simp⟩
  | cons user users ih =>
    obtain ⟨houtbox, hnext, hkeys⟩ := @insertDelivery_keys localTime tables outbox now user
    obtain ⟨ihoutbox, ihnext, ihnodup, ihmem⟩ :=
      ih (insertDelivery localTime tables outbox now user)
    refine ⟨ihoutbox.trans houtbox, ihnext.trans hnext, fun hnodup => ihnodup ?_, fun key => ?_⟩
    · rw [hkeys]
      split
      · exact hnodup
      · rename_i hnew
        refine List.nodup_append.mpr ⟨hnodup, List.nodup_singleton _, ?_⟩
        intro key hkey other hother heq
        rw [List.mem_singleton.mp hother] at heq
        exact hnew (heq ▸ hkey)
    · rw [List.foldl_cons, ihmem key, hkeys, List.map_cons, List.mem_cons]
      have hself : key = (outbox.id, user.userId) ↔ key.1 = outbox.id ∧ key.2 = user.userId :=
        Prod.ext_iff
      split
      · rename_i hold
        constructor
        · rintro (h | ⟨h, hu⟩)
          · exact Or.inl h
          · exact Or.inr ⟨h, Or.inr hu⟩
        · rintro (h | ⟨h, hu | hu⟩)
          · exact Or.inl h
          · exact Or.inl (hself.mpr ⟨h, hu⟩ ▸ hold)
          · exact Or.inr ⟨h, hu⟩
      · rw [List.mem_append, List.mem_singleton, hself]
        tauto

end Keys

section Expand
variable {localTime : String → Int → Option Int}
variable {tables : Tables} {expansions : List (Nat × List Int)}

/-- The expansions of a world. -/
abbrev Tables.Expanded (tables : Tables) (expansions : List (Nat × List Int)) : Prop :=
  Telegram.Expanded tables.outbox tables.nextOutboxId (deliveryKeys tables) expansions

theorem expand_expanded (h : tables.Expanded expansions) {outbox : OutboxRecord}
    (houtbox : outbox ∈ tables.outbox) (hpending : outbox.status = .pending)
    (users : List UserSettings) (now : Int) :
    (expand localTime users now tables outbox).Expanded
      (expansions ++ [(outbox.id, users.map UserSettings.userId)]) := by
  obtain ⟨hsame, hnext, hnodup, hmem⟩ := @insertDeliveries_keys localTime tables outbox now users
  have hfree : outbox.id ∉ expansions.map Prod.fst := by
    intro hin
    have hstatus := (h.recorded outbox houtbox).mpr hin
    rw [hpending] at hstatus
    cases hstatus
  have hrows : (expand localTime users now tables outbox).outbox =
      replaceRow OutboxRecord.id tables.outbox
        { outbox with status := .expanded, processedAt := some now } := by
    rw [← hsame]
    rfl
  have hnew : { outbox with status := OutboxStatus.expanded, processedAt := some now } ∈
      (expand localTime users now tables outbox).outbox := by
    rw [hrows]
    exact List.mem_map.mpr ⟨outbox, houtbox, if_pos rfl⟩
  refine ⟨?_, ?_, ?_, ?_, ?_, hnodup h.distinct, ?_, ?_⟩
  · rw [hrows, keys_replaceRow]
    exact h.ids
  · rw [hrows]
    refine forall_mem_replaceRow (fun row hrow => ?_) ?_
    · exact (h.fresh row hrow).trans_eq hnext.symm
    · exact (h.fresh outbox houtbox).trans_eq hnext.symm
  · rw [List.map_append]
    refine List.nodup_append.mpr ⟨h.once, List.nodup_singleton _, ?_⟩
    intro id hid other hother heq
    rw [heq, List.mem_singleton.mp hother] at hid
    exact hfree hid
  · refine forall_mem_append_singleton (fun entry hentry => ?_) ⟨_, hnew, rfl⟩
    obtain ⟨row, hrow, hid⟩ := h.known entry hentry
    rw [hrows]
    by_cases heq : row.id = outbox.id
    · exact ⟨_, List.mem_map.mpr ⟨outbox, houtbox, if_pos rfl⟩, heq.symm.trans hid⟩
    · exact ⟨row, mem_replaceRow_of_ne hrow heq, hid⟩
  · intro row hrow
    rw [hrows] at hrow
    rw [List.map_append, List.mem_append, List.map_singleton, List.mem_singleton]
    rcases mem_replaceRow hrow with rfl | ⟨hrow, hne⟩
    · exact ⟨fun _ => Or.inr rfl, fun _ => rfl⟩
    · rw [h.recorded row hrow, or_iff_left hne]
  · refine forall_mem_append_singleton (fun entry hentry user huser => ?_) fun user huser => ?_
    · exact (hmem _).mpr (Or.inl (h.delivered entry hentry user huser))
    · exact (hmem _).mpr (Or.inr ⟨rfl, huser⟩)
  · intro key hkey
    rcases (hmem key).mp hkey with hold | ⟨hid, huser⟩
    · obtain ⟨entry, hentry, hrest⟩ := h.source key hold
      exact ⟨entry, List.mem_append_left _ hentry, hrest⟩
    · exact ⟨_, List.mem_append_right _ (List.mem_singleton_self _), hid.symm, huser⟩

theorem expandAll_expanded (users : List UserSettings) (now : Int) {records : List OutboxRecord}
    (hdistinct : (records.map OutboxRecord.id).Nodup) (h : tables.Expanded expansions)
    (hrecords : ∀ outbox ∈ records, outbox ∈ tables.outbox ∧ outbox.status = .pending) :
    (records.foldl (expand localTime users now) tables).Expanded
      (expansions ++ records.map fun outbox => (outbox.id, users.map UserSettings.userId)) := by
  induction records generalizing tables expansions with
  | nil =>
    rw [List.map_nil, List.append_nil]
    exact h
  | cons outbox records ih =>
    rw [List.map_cons, List.nodup_cons] at hdistinct
    obtain ⟨houtbox, hpending⟩ := hrecords outbox List.mem_cons_self
    have hfirst := @expand_expanded localTime tables expansions h outbox houtbox hpending users now
    have hrest := ih hdistinct.2 hfirst fun other hother => ?_
    · rw [List.append_assoc, List.singleton_append] at hrest
      exact hrest
    · obtain ⟨hmem, hstatus⟩ := hrecords other (List.mem_cons_of_mem outbox hother)
      refine ⟨?_, hstatus⟩
      have hrows : (expand localTime users now tables outbox).outbox =
          replaceRow OutboxRecord.id tables.outbox
            { outbox with status := .expanded, processedAt := some now } := by
        rw [← (@insertDeliveries_keys localTime tables outbox now users).1]
        rfl
      rw [hrows]
      refine mem_replaceRow_of_ne hmem fun heq => hdistinct.1 ?_
      exact List.mem_map.mpr ⟨other, hother, heq⟩

theorem pendingOutbox_spec (hids : (tables.outbox.map OutboxRecord.id).Nodup) (batchSize : Nat)
    (now : Int) (locked : Nat → Bool) :
    ((pendingOutbox tables batchSize now locked).map OutboxRecord.id).Nodup ∧
      ∀ outbox ∈ pendingOutbox tables batchSize now locked,
        outbox ∈ tables.outbox ∧ outbox.status = .pending := by
  unfold pendingOutbox
  constructor
  · refine List.Nodup.sublist ((List.take_sublist _ _).map _) ?_
    refine ((sortedBy_perm _).map _).nodup_iff.mpr ?_
    exact List.Nodup.sublist (List.filter_sublist.map _) hids
  · intro outbox houtbox
    have hmem := List.mem_of_mem_take houtbox
    rw [mem_sortedBy, List.mem_filter, Bool.and_eq_true_iff] at hmem
    exact ⟨hmem.1, (of_decide_eq_true hmem.2.1).1⟩

end Expand

section Steps
variable {localTime : String → Int → Option Int} {maxAttempts : Nat} {retryBase : Int}

theorem skipPaused_keys (tables : Tables) (now : Int) (locked : Nat → Bool) :
    deliveryKeys (skipPaused tables now locked) = deliveryKeys tables :=
  deliveryKeys_updateWhere (by intro row; rfl) _

theorem failExhausted_keys (tables : Tables) (limit : Nat) (now : Int) (locked : Nat → Bool) :
    deliveryKeys (failExhausted tables limit now locked) = deliveryKeys tables :=
  deliveryKeys_updateWhere (by intro row; rfl) _

/-- An update of the delivery rows leaves their keys and the outbox alone. -/
theorem Expanded.rekey {tables next : Tables} {expansions : List (Nat × List Int)}
    (h : tables.Expanded expansions) (houtbox : next.outbox = tables.outbox)
    (hnext : next.nextOutboxId = tables.nextOutboxId)
    (hkeys : deliveryKeys next = deliveryKeys tables) : next.Expanded expansions := by
  unfold Tables.Expanded
  rw [houtbox, hnext, hkeys]
  exact h

theorem markOutcome_expanded {tables : Tables} {expansions : List (Nat × List Int)}
    (h : tables.Expanded expansions) (delivery : PendingDelivery) (now : Int)
    (outcome : SendOutcome) :
    (markOutcome retryBase tables delivery now outcome).Expanded expansions := by
  cases outcome with
  | success messageId => exact Expanded.rekey h rfl rfl (deliveryKeys_updateWhere (by intro row; rfl) _)
  | retryable error retryAfter =>
    exact Expanded.rekey h rfl rfl (deliveryKeys_updateWhere (by intro row; rfl) _)
  | permanent error => exact Expanded.rekey h rfl rfl (deliveryKeys_updateWhere (by intro row; rfl) _)
  | unknown error => exact Expanded.rekey h rfl rfl (deliveryKeys_updateWhere (by intro row; rfl) _)

theorem step_expanded {world next : World} {action : Action}
    (h : world.tables.Expanded world.expansions)
    (hstep : step localTime maxAttempts retryBase world action = .ok next) :
    next.tables.Expanded next.expansions := by
  cases action with
  | recover service now cutoff locked =>
    simp only [step] at hstep
    split at hstep
    · cases hstep
      exact Expanded.rekey h rfl rfl (deliveryKeys_updateWhere (by intro row; rfl) _)
    · cases hstep
  | materialize service userIds batchSize now locked =>
    simp only [step] at hstep
    split at hstep
    · cases hstep
      unfold materializePending
      simp only
      split
      · rw [List.append_nil]
        exact h
      · obtain ⟨hdistinct, hrecords⟩ := pendingOutbox_spec h.ids batchSize now locked
        rw [configuredIds_eq]
        exact expandAll_expanded _ now hdistinct h hrecords
    · cases hstep
  | claim service now locked =>
    have hprepared : (failExhausted (skipPaused world.tables now (locked 0)) maxAttempts now
        (locked 1)).Expanded world.expansions := by
      refine Expanded.rekey h rfl rfl ?_
      rw [failExhausted_keys, skipPaused_keys]
    simp only [step] at hstep
    split at hstep
    · unfold claimDelivery claimFirst at hstep
      cases hfound : (claimable (failExhausted (skipPaused world.tables now (locked 0)) maxAttempts
          now (locked 1)) maxAttempts now (locked 2)).head? with
      | none =>
        rw [hfound] at hstep
        cases hstep
        exact hprepared
      | some found =>
        rw [hfound] at hstep
        cases hstep
        exact Expanded.rekey hprepared rfl rfl (deliveryKeys_updateWhere (by intro row; rfl) _)
    · cases hstep
  | send service =>
    simp only [step] at hstep
    split at hstep
    · cases hstep
      exact h
    · cases hstep
  | answer service outcome =>
    simp only [step] at hstep
    split at hstep
    · cases hstep
      exact h
    · cases hstep
  | mark service now =>
    simp only [step] at hstep
    split at hstep
    · cases hstep
      exact markOutcome_expanded h _ now _
    · cases hstep
  | crash service =>
    cases hstep
    exact h
  | enqueue eventType payload score availableAt =>
    cases hstep
    have hnew : world.tables.nextOutboxId ∉ world.expansions.map Prod.fst := by
      intro hin
      obtain ⟨entry, hentry, hid⟩ := List.mem_map.mp hin
      obtain ⟨row, hrow, hrowid⟩ := h.known entry hentry
      have hlt := h.fresh row hrow
      omega
    refine ⟨?_, ?_, h.once, ?_, ?_, h.distinct, h.delivered, h.source⟩
    · refine nodup_keys_append h.ids fun row hrow => ?_
      exact (h.fresh row hrow).ne
    · exact forall_mem_append_singleton (fun row hrow => Nat.lt_succ_of_lt (h.fresh row hrow))
        (Nat.lt_succ_self _)
    · intro entry hentry
      obtain ⟨row, hrow, hid⟩ := h.known entry hentry
      exact ⟨row, List.mem_append_left _ hrow, hid⟩
    · refine forall_mem_append_singleton h.recorded ⟨fun hstatus => ?_, fun hin => ?_⟩
      · cases hstatus
      · exact absurd hin hnew
  | configure user =>
    cases hstep
    unfold saveUser
    split <;> exact h

theorem run_expanded (actions : List Action) :
    (run localTime maxAttempts retryBase actions).tables.Expanded
      (run localTime maxAttempts retryBase actions).expansions := by
  refine runAll_invariant (P := fun world : World => world.tables.Expanded world.expansions)
    (fun _ _ _ hs hnext => step_expanded hs hnext) ?_ actions
  constructor
  · exact List.nodup_nil
  · exact fun row hrow => absurd hrow List.not_mem_nil
  · exact List.nodup_nil
  · exact fun entry hentry => absurd hentry List.not_mem_nil
  · exact fun row hrow => absurd hrow List.not_mem_nil
  · exact List.nodup_nil
  · exact fun entry hentry => absurd hentry List.not_mem_nil
  · exact fun key hkey => absurd hkey List.not_mem_nil

end Steps

section Final
variable {localTime : String → Int → Option Int} {maxAttempts : Nat} {retryBase : Int}

/-- A final row keeps its status. -/
def KeepsFinal (early late : List DeliveryRecord) : Prop :=
  ∀ row ∈ early, row.status.isFinal = true → ∃ next ∈ late, next.id = row.id ∧ next.status = row.status

theorem keepsFinal_refl (rows : List DeliveryRecord) : KeepsFinal rows rows :=
  fun row hrow _ => ⟨row, hrow, rfl, rfl⟩

theorem KeepsFinal.trans {a b c : List DeliveryRecord} (h : KeepsFinal a b) (h' : KeepsFinal b c) :
    KeepsFinal a c := by
  intro row hrow hfinal
  obtain ⟨next, hnext, hid, hstatus⟩ := h row hrow hfinal
  obtain ⟨last, hlast, hid', hstatus'⟩ := h' next hnext (by rw [hstatus]; exact hfinal)
  exact ⟨last, hlast, hid'.trans hid, hstatus'.trans hstatus⟩

/-- Every update only touches rows that are not final. -/
theorem keepsFinal_updateWhere {test : DeliveryRecord → Bool}
    {change : DeliveryRecord → DeliveryRecord} {rows : List DeliveryRecord}
    (h : ∀ row ∈ rows, test row = true → row.status.isFinal = false) :
    KeepsFinal rows (updateWhere test change rows) := by
  intro row hrow hfinal
  refine ⟨row, List.mem_map.mpr ⟨row, hrow, if_neg fun htest => ?_⟩, rfl, rfl⟩
  rw [h row hrow htest] at hfinal
  cases hfinal

theorem keepsFinal_materialize (tables : Tables) (userIds : List Int) (batchSize : Nat) (now : Int)
    (locked : Nat → Bool) : KeepsFinal tables.deliveries
      (materializePending localTime tables userIds batchSize now locked).deliveries := by
  unfold materializePending
  split
  · exact keepsFinal_refl _
  · refine List.foldlRecOn (motive := fun next : Tables =>
      KeepsFinal tables.deliveries next.deliveries) _ _ (keepsFinal_refl _) ?_
    intro next h outbox _
    unfold expand
    refine List.foldlRecOn (motive := fun next : Tables =>
      KeepsFinal tables.deliveries next.deliveries) _ _ h ?_
    intro next h user _
    rcases @insertDelivery_cases localTime next outbox now user with heq | ⟨row, -, -, -, -, heq⟩
    · rw [heq]
      exact h
    · rw [heq]
      intro old hold hfinal
      obtain ⟨kept, hkept, hrest⟩ := h old hold hfinal
      exact ⟨kept, List.mem_append_left _ hkept, hrest⟩

theorem keepsFinal_updateSending (tables : Tables) (deliveryId : Nat)
    (change : DeliveryRecord → DeliveryRecord) :
    KeepsFinal tables.deliveries (updateSending tables deliveryId change).deliveries := by
  refine keepsFinal_updateWhere fun row _ htest => ?_
  rw [(of_decide_eq_true htest).2]
  rfl

theorem step_keepsFinal {world next : World} {action : Action} (hsound : world.Sound maxAttempts)
    (hstep : step localTime maxAttempts retryBase world action = .ok next) :
    KeepsFinal world.tables.deliveries next.tables.deliveries := by
  cases action with
  | recover service now cutoff locked =>
    simp only [step] at hstep
    split at hstep
    · cases hstep
      refine keepsFinal_updateWhere fun row _ htest => ?_
      rw [(of_decide_eq_true (Bool.and_eq_true_iff.mp htest).1).1]
      rfl
    · cases hstep
  | materialize service userIds batchSize now locked =>
    simp only [step] at hstep
    split at hstep
    · cases hstep
      exact keepsFinal_materialize _ _ _ _ _
    · cases hstep
  | claim service now locked =>
    have hskip : KeepsFinal world.tables.deliveries
        (skipPaused world.tables now (locked 0)).deliveries := by
      refine keepsFinal_updateWhere fun row _ htest => ?_
      rw [of_decide_eq_true (Bool.and_eq_true_iff.mp (Bool.and_eq_true_iff.mp htest).1).1]
      rfl
    have hfail : KeepsFinal (skipPaused world.tables now (locked 0)).deliveries
        (failExhausted (skipPaused world.tables now (locked 0)) maxAttempts now
          (locked 1)).deliveries := by
      refine keepsFinal_updateWhere fun row _ htest => ?_
      rw [(of_decide_eq_true (Bool.and_eq_true_iff.mp htest).1).1]
      rfl
    have hprepared : Sound maxAttempts (failExhausted (skipPaused world.tables now (locked 0))
        maxAttempts now (locked 1)).deliveries world.tables.nextDeliveryId world.phase world.sends :=
      failExhausted_sound (skipPaused_sound hsound)
    simp only [step] at hstep
    split at hstep
    · unfold claimDelivery claimFirst at hstep
      cases hfound : (claimable (failExhausted (skipPaused world.tables now (locked 0)) maxAttempts
          now (locked 1)) maxAttempts now (locked 2)).head? with
      | none =>
        rw [hfound] at hstep
        cases hstep
        exact hskip.trans hfail
      | some found =>
        rw [hfound] at hstep
        cases hstep
        obtain ⟨hrow, hpending, -⟩ := mem_claimable (List.mem_of_head? hfound)
        refine (hskip.trans hfail).trans (keepsFinal_updateWhere fun row hmem htest => ?_)
        rw [hprepared.unique hmem hrow (of_decide_eq_true htest), hpending]
        rfl
    · cases hstep
  | send service =>
    simp only [step] at hstep
    split at hstep
    · cases hstep
      exact keepsFinal_refl _
    · cases hstep
  | answer service outcome =>
    simp only [step] at hstep
    split at hstep
    · cases hstep
      exact keepsFinal_refl _
    · cases hstep
  | mark service now =>
    simp only [step] at hstep
    split at hstep
    · rename_i delivery outcome _
      cases hstep
      cases outcome with
      | success messageId => exact keepsFinal_updateSending _ _ _
      | retryable error retryAfter => exact keepsFinal_updateSending _ _ _
      | permanent error => exact keepsFinal_updateSending _ _ _
      | unknown error => exact keepsFinal_updateSending _ _ _
    · cases hstep
  | crash service =>
    cases hstep
    exact keepsFinal_refl _
  | enqueue eventType payload score availableAt =>
    cases hstep
    exact keepsFinal_refl _
  | configure user =>
    cases hstep
    unfold saveUser
    split <;> exact keepsFinal_refl _

end Final

section Result

/-- What the outbox promises about a world. -/
structure AtMostOnce (maxAttempts : Nat) (world : World) : Prop where
  expandedOnce : (world.expansions.map Prod.fst).Nodup
  expandedRecords : ∀ outbox ∈ world.tables.outbox,
    outbox.status = .expanded ↔ outbox.id ∈ world.expansions.map Prod.fst
  oneRow : ∀ entry ∈ world.expansions, ∀ user ∈ entry.2,
    world.tables.deliveries.countP (fun row => decide (row.key = (entry.1, user))) = 1
  refusedBefore : ∀ deliveryId,
    ∀ entry ∈ (world.sends.filter fun entry => decide (entry.deliveryId = deliveryId)).dropLast,
      entry.Refused
  capped : ∀ row ∈ world.tables.deliveries, row.attempts ≤ maxAttempts ∧
    world.sends.countP (fun entry => decide (entry.deliveryId = row.id)) ≤ row.attempts

theorem exists_later_of_mem_dropLast {α : Type*} {R : α → α → Prop} {l : List α}
    (h : l.Pairwise R) {x : α} (hx : x ∈ l.dropLast) : ∃ last ∈ l, R x last := by
  have hne : l ≠ [] := by
    rintro rfl
    cases hx
  rw [← List.dropLast_concat_getLast hne] at h
  exact ⟨l.getLast hne, List.getLast_mem hne,
    (List.pairwise_append.mp h).2.2 x hx _ (List.mem_singleton_self _)⟩

theorem length_le_of_increasing {l : List Nat} {n : Nat} (h : l.Pairwise (· < ·))
    (hrange : ∀ x ∈ l, 1 ≤ x ∧ x ≤ n) : l.length ≤ n := by
  have hsub : l ⊆ List.range' 1 n := by
    intro x hx
    have hbounds := hrange x hx
    rw [List.mem_range'_1]
    omega
  have hle := (List.subperm_of_subset (h.imp fun hlt => hlt.ne) hsub).length_le
  rw [List.length_range'] at hle
  exact hle

variable (localTime : String → Int → Option Int) (maxAttempts : Nat) (retryBase : Int)

/-- In every run each expanded record has one row for each of its users, only the last
send call of a row may have had any other answer than a retryable error, the attempts are
bounded, and final rows stay final in every continuation. -/
theorem notifications_sent_at_most_once (actions more : List Action) :
    AtMostOnce maxAttempts (run localTime maxAttempts retryBase actions) ∧
    KeepsFinal (run localTime maxAttempts retryBase actions).tables.deliveries
      (run localTime maxAttempts retryBase (actions ++ more)).tables.deliveries := by
  have hsound := @run_sound localTime maxAttempts retryBase actions
  have hexpanded := @run_expanded localTime maxAttempts retryBase actions
  refine ⟨⟨hexpanded.once, hexpanded.recorded, ?_, ?_, ?_⟩, ?_⟩
  · intro entry hentry user huser
    have hcount := List.count_eq_one_of_mem hexpanded.distinct
      (hexpanded.delivered entry hentry user huser)
    rw [deliveryKeys, List.count_eq_countP, List.countP_map] at hcount
    refine Eq.trans (List.countP_congr fun row _ => ?_) hcount
    simp
  · intro deliveryId entry hentry
    have hordered := hsound.ordered.filter fun entry => decide (entry.deliveryId = deliveryId)
    obtain ⟨last, hlast, hbefore⟩ := exists_later_of_mem_dropLast hordered hentry
    obtain ⟨hmem, hid⟩ := List.mem_filter.mp ((List.dropLast_sublist _).subset hentry)
    obtain ⟨hlastmem, hlastid⟩ := List.mem_filter.mp hlast
    rw [decide_eq_true_eq] at hid hlastid
    have hlt := hbefore (hid.trans hlastid.symm)
    obtain ⟨row, hrow, hrowid, -, -, hrefused⟩ := hsound.logged entry hmem
    obtain ⟨other, hother, hotherid, -, hle, -⟩ := hsound.logged last hlastmem
    have hsame := hsound.unique hother hrow
      ((hotherid.trans hlastid).trans (hrowid.trans hid).symm)
    rw [hsame] at hle
    exact hrefused (Or.inl (lt_of_lt_of_le hlt hle))
  · intro row hrow
    refine ⟨hsound.capped row hrow, ?_⟩
    rw [List.countP_eq_length_filter, ← List.length_map SendAttempt.attempt]
    refine length_le_of_increasing ?_ fun attempt hattempt => ?_
    · refine List.pairwise_map.mpr (List.Pairwise.imp_of_mem (fun ha hb hab => hab ?_)
        (hsound.ordered.filter _))
      exact (of_decide_eq_true (List.mem_filter.mp ha).2).trans
        (of_decide_eq_true (List.mem_filter.mp hb).2).symm
    · obtain ⟨entry, hentry, rfl⟩ := List.mem_map.mp hattempt
      obtain ⟨hmem, hid⟩ := List.mem_filter.mp hentry
      obtain ⟨other, hother, hotherid, hone, hle, -⟩ := hsound.logged entry hmem
      rw [hsound.unique hother hrow (hotherid.trans (of_decide_eq_true hid))] at hle
      exact ⟨hone, hle⟩
  · unfold run
    rw [runAll_append]
    exact runAll_relates (R := fun early late : World =>
        KeepsFinal early.tables.deliveries late.tables.deliveries)
      (P := World.Sound maxAttempts) (fun _ => keepsFinal_refl _) (fun _ _ _ => KeepsFinal.trans)
      (fun _ _ _ hs hnext => step_sound hs hnext)
      (fun _ _ _ hs hnext => step_keepsFinal hs hnext) hsound more

/-- One user with settings among two that are listed. The first send call is refused and
repeated after the wait. -/
def refusedThenSent : World :=
  let unlocked : Nat → Bool := fun _ => false
  run (fun _ _ => some (12 * oneHour)) 3 30 [
    .configure { userId := 7 },
    .enqueue "new_signal" "{}" (some 80) 0,
    .recover 0 0 0 unlocked,
    .materialize 0 [7, 8] 10 1 unlocked, .claim 0 1 fun _ => unlocked, .send 0,
    .answer 0 (.retryable "busy" 0), .mark 0 2,
    .materialize 0 [7, 8] 10 60 unlocked, .claim 0 60 fun _ => unlocked, .send 0,
    .answer 0 (.success 1), .mark 0 61]

example : refusedThenSent.expansions = [(1, [7])] ∧
    refusedThenSent.tables.deliveries.map (fun row => (row.key, row.status, row.attempts)) =
      [((1, 7), .sent, 2)] ∧
    refusedThenSent.sends.map SendAttempt.outcome =
      [some (.retryable "busy" 0), some (.success 1)] := by decide +kernel

end Result

end StructurePulse.Telegram
