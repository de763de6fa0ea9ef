import StructurePulse.Telegram.Settling

/-!
# A service that keeps going

One service that goes through its rounds for ever, with clocks that pass every instant and
rows that are not locked for ever, settles everything, whatever the others do meanwhile.
-/

namespace StructurePulse.Telegram
open Library
set_option autoImplicit false

section Serving
variable {localTime : String → Int → Option Int} {maxAttempts : Nat} {tables : Tables}

/-- An expansion takes the first of the due records, and one of them is at hand. -/
theorem materialize_lowers {outbox : OutboxRecord} {userIds : List Int} {batchSize : Nat}
    {now : Int} {locked : Nat → Bool} {bound : Nat} (houtbox : outbox ∈ tables.outbox)
    (hpending : outbox.status = .pending) (havailable : outbox.availableAt ≤ now)
    (hunlocked : locked outbox.id = false) (husers : userIds ≠ []) (hbatch : 0 < batchSize)
    (hkey : outbox.id < bound) (hbound : bound ≤ tables.nextOutboxId) :
    load outboxQueue bound
      (materializePending localTime tables userIds batchSize now locked).outbox <
        load outboxQueue bound tables.outbox := by
  have hmem : outbox ∈ sortedBy OutboxRecord.id (tables.outbox.filter fun row =>
      decide (row.status = .pending ∧ row.availableAt ≤ now) && !locked row.id) := by
    rw [mem_sortedBy, List.mem_filter, Bool.and_eq_true_iff, hunlocked]
    exact ⟨houtbox, decide_eq_true ⟨hpending, havailable⟩, rfl⟩
  obtain ⟨first, rest, hsorted, hfirst⟩ :=
    head_of_pairwise (sortedBy_pairwise _ _) (fun _ => le_refl _) hmem
  have htake : pendingOutbox tables batchSize now locked = first :: rest.take (batchSize - 1) := by
    unfold pendingOutbox
    rw [hsorted, List.take_cons hbatch]
  have hin : first ∈ tables.outbox ∧ first.status = .pending := by
    have hfirstmem := hsorted ▸ List.mem_cons_self (a := first) (l := rest)
    rw [mem_sortedBy, List.mem_filter, Bool.and_eq_true_iff] at hfirstmem
    exact ⟨hfirstmem.1, (of_decide_eq_true hfirstmem.2.1).1⟩
  have hone : load outboxQueue bound
      (expand localTime (listedUsers tables userIds) now tables first).outbox <
        load outboxQueue bound tables.outbox := by
    rw [expand_outbox]
    refine load_map_lt ?_ hin.1 (lt_of_le_of_lt hfirst hkey) ?_
    · intro row _
      split
      · exact eases_expanded (some now) ‹_›
      · exact Eases.refl row
    · have hweight : outboxQueue.weight first = 1 := if_pos hin.2
      rw [if_pos rfl, hweight]
      exact Nat.zero_lt_one
  have hrest := (@expandAll_moves localTime 0
    (expand localTime (listedUsers tables userIds) now tables first) (listedUsers tables userIds) now
      (rest.take (batchSize - 1))).outbox.load_le
        (hbound.trans (@expand_moves localTime 0 tables _ now first).outboxIds)
  unfold materializePending
  rw [if_neg (by rw [List.isEmpty_iff]; exact husers), htake, List.foldl_cons]
  exact lt_of_le_of_lt hrest hone

theorem claimable_sorted (now : Int) (locked : Nat → Bool) :
    (claimable tables maxAttempts now locked).Pairwise fun a b => a.1.id ≤ b.1.id := by
  unfold claimable
  apply List.Pairwise.filterMap _ _ (sortedBy_pairwise DeliveryRecord.id _)
  intro row row' hle joined hjoined joined' hjoined'
  split at hjoined
  · split at hjoined'
    · cases hjoined
      cases hjoined'
      exact hle
    · cases hjoined'
  · cases hjoined

/-- The joins of the claim find the record and the user of every row. -/
def Joined (tables : Tables) : Prop :=
  ∀ row ∈ tables.deliveries, (lookup OutboxRecord.id tables.outbox row.outboxId).isSome = true ∧
    (userOf tables row).isSome = true

variable {nextId : Nat} {phase : Nat → Phase} {sends : List SendAttempt}

/-- A claim takes the first of the due rows, unless it settles the one at hand at once. -/
theorem claim_lowers (h : Sound maxAttempts tables.deliveries nextId phase sends)
    (hjoined : Joined tables) {row : DeliveryRecord} {now : Int} {locked : Nat → Nat → Bool}
    {bound : Nat} (hrow : row ∈ tables.deliveries) (hpending : row.status = .pending)
    (hdue : row.nextAttemptAt ≤ now) (hunlocked : ∀ query, locked query row.id = false)
    (hkey : row.id < bound) (hbound : bound ≤ tables.nextDeliveryId) :
    load (deliveryQueue maxAttempts) bound (claimDelivery tables maxAttempts now locked).1.deliveries <
      load (deliveryQueue maxAttempts) bound tables.deliveries := by
  have hmoves := prepared_moves h now locked
  have hsound : Sound maxAttempts (failExhausted (skipPaused tables now (locked 0)) maxAttempts now
      (locked 1)).deliveries nextId phase sends := failExhausted_sound (skipPaused_sound h)
  have hle := hmoves.deliveries.load_le hbound
  rcases hmoves.deliveries.keeps_waiting hbound hrow hpending hkey with hthere | hlt
  · have hbelow : row.attempts < maxAttempts := by
      obtain ⟨old, -, heq⟩ := List.mem_map.mp hthere
      split at heq
      · rw [← heq] at hpending
        cases hpending
      · rename_i htest
        subst heq
        by_contra hnot
        apply htest
        exact Bool.and_eq_true_iff.mpr ⟨decide_eq_true ⟨hpending, not_lt.mp hnot⟩,
          by rw [hunlocked 1]; rfl⟩
    have hmem : ∃ joined ∈ claimable (failExhausted (skipPaused tables now (locked 0)) maxAttempts
        now (locked 1)) maxAttempts now (locked 2), joined.1 = row := by
      obtain ⟨outbox, houtbox⟩ := Option.isSome_iff_exists.mp (hjoined row hrow).1
      obtain ⟨user, huser⟩ := Option.isSome_iff_exists.mp (hjoined row hrow).2
      refine ⟨(row, outbox, user), List.mem_filterMap.mpr ⟨row, ?_, ?_⟩, rfl⟩
      · rw [mem_sortedBy, List.mem_filter, Bool.and_eq_true_iff, hunlocked 2]
        exact ⟨hthere, decide_eq_true ⟨hpending, hdue, hbelow⟩, rfl⟩
      · have hrecord : lookup OutboxRecord.id (failExhausted (skipPaused tables now (locked 0))
            maxAttempts now (locked 1)).outbox row.outboxId = some outbox := houtbox
        have hsettings : userOf (failExhausted (skipPaused tables now (locked 0)) maxAttempts now
            (locked 1)) row = some user := huser
        rw [hrecord, hsettings]
    obtain ⟨joined, hjoinedmem, rfl⟩ := hmem
    obtain ⟨first, rest, hclaimable, hfirst⟩ :=
      head_of_pairwise (claimable_sorted now (locked 2)) (fun _ => le_refl _) hjoinedmem
    obtain ⟨hfirstrow, hfirstpending, hfirstbelow⟩ :=
      mem_claimable (hclaimable ▸ List.mem_cons_self (a := first) (l := rest))
    refine lt_of_lt_of_le ?_ hle
    unfold claimDelivery claimFirst
    rw [hclaimable]
    have hclaimed := eases_claimed hfirstpending hfirstbelow now
    refine load_map_lt ?_ hfirstrow (lt_of_le_of_lt hfirst hkey) ?_
    · intro other hother
      split
      · rename_i htest
        rw [hsound.unique hother hfirstrow (of_decide_eq_true htest)]
        exact hclaimed.1
      · exact Eases.refl other
    · rw [if_pos (decide_eq_true rfl)]
      exact hclaimed.2
  · have hclaim := (claimFirst_moves hsound now (locked 2)).deliveries.load_le
      (hbound.trans hmoves.deliveryIds)
    exact lt_of_le_of_lt hclaim hlt

end Serving

section Joins
variable {localTime : String → Int → Option Int} {maxAttempts : Nat} {retryBase : Int}
variable {tables next : Tables}

/-- Every delivery row belongs to a user with settings. -/
def Addressed (tables : Tables) : Prop :=
  ∀ key ∈ deliveryKeys tables, (lookup UserSettings.userId tables.users key.2).isSome = true

theorem Addressed.rekey (h : Addressed tables) (husers : next.users = tables.users)
    (hkeys : deliveryKeys next = deliveryKeys tables) : Addressed next := by
  unfold Addressed
  rw [hkeys, husers]
  exact h

theorem materializePending_addressed (h : Addressed tables) (userIds : List Int) (batchSize : Nat)
    (now : Int) (locked : Nat → Bool) :
    Addressed (materializePending localTime tables userIds batchSize now locked) := by
  have hlisted : ∀ userId ∈ (listedUsers tables userIds).map UserSettings.userId,
      (lookup UserSettings.userId tables.users userId).isSome = true := by
    intro userId hmem
    obtain ⟨user, huser, rfl⟩ := List.mem_map.mp hmem
    unfold lookup
    rw [List.find?_isSome]
    exact ⟨user, List.mem_of_mem_filter huser, decide_eq_true rfl⟩
  unfold materializePending
  split
  · exact h
  · have hboth : Addressed ((pendingOutbox tables batchSize now locked).foldl
        (expand localTime (listedUsers tables userIds) now) tables) ∧
        ((pendingOutbox tables batchSize now locked).foldl
          (expand localTime (listedUsers tables userIds) now) tables).users = tables.users := by
      apply List.foldlRecOn
        (motive := fun mid : Tables => Addressed mid ∧ mid.users = tables.users) _ _ ⟨h, rfl⟩
      rintro mid ⟨hmid, husers⟩ outbox _
      have hsame := @foldl_insertDelivery_users localTime now mid outbox (listedUsers tables userIds)
      refine ⟨?_, hsame.trans husers⟩
      intro key hkey
      rcases ((@insertDeliveries_keys localTime mid outbox now
        (listedUsers tables userIds)).2.2.2 key).mp hkey with hold | ⟨-, hnew⟩
      · exact hsame ▸ hmid key hold
      · exact (hsame.trans husers) ▸ hlisted key.2 hnew
    exact hboth.1

theorem saveUser_lookup (user : UserSettings) {userId : Int}
    (h : (lookup UserSettings.userId tables.users userId).isSome = true) :
    (lookup UserSettings.userId (saveUser tables user).users userId).isSome = true := by
  obtain ⟨found, hlookup⟩ := Option.isSome_iff_exists.mp h
  unfold saveUser
  split
  · by_cases heq : user.userId = userId
    · rw [← heq] at hlookup ⊢
      rw [lookup_replaceRow_self hlookup]
      rfl
    · rw [lookup_replaceRow_of_ne heq]
      exact h
  · rw [lookup_append_of_some hlookup]
    rfl

theorem saveUser_addressed (h : Addressed tables) (user : UserSettings) :
    Addressed (saveUser tables user) := by
  intro key hkey
  apply saveUser_lookup user
  apply h key
  unfold saveUser at hkey
  split at hkey <;> exact hkey

theorem step_addressed {world after : World} {action : Action} (h : Addressed world.tables)
    (hstep : step localTime maxAttempts retryBase world action = .ok after) :
    Addressed after.tables := by
  cases action with
  | recover service now cutoff locked =>
    simp only [step] at hstep
    split at hstep
    · cases hstep
      exact h.rekey rfl (deliveryKeys_updateWhere (by intro row; rfl) _)
    · cases hstep
  | materialize service userIds batchSize now locked =>
    simp only [step] at hstep
    split at hstep
    · cases hstep
      exact materializePending_addressed h userIds batchSize now locked
    · cases hstep
  | claim service now locked =>
    have hprepared : Addressed (failExhausted (skipPaused world.tables now (locked 0)) maxAttempts
        now (locked 1)) := by
      refine h.rekey rfl ?_
      rw [failExhausted_keys, skipPaused_keys]
    simp only [step] at hstep
    split at hstep
    · unfold claimDelivery claimFirst at hstep
      cases hfound : (claimable (failExhausted (skipPaused world.tables now (locked 0)) maxAttempts
          now (locked 1)) maxAttempts now (locked 2)).head? with
      | none =>
        rw [hfound] at hstep
        cases hstep
        exact hprepared
      | some found =>
        rw [hfound] at hstep
        cases hstep
        exact hprepared.rekey rfl (deliveryKeys_updateWhere (by intro row; rfl) _)
    · cases hstep
  | send service =>
    simp only [step] at hstep
    split at hstep
    · cases hstep
      exact h
    · cases hstep
  | answer service outcome =>
    simp only [step] at hstep
    split at hstep
    · cases hstep
      exact h
    · cases hstep
  | mark service now =>
    simp only [step] at hstep
    split at hstep
    · rename_i delivery outcome _
      cases hstep
      cases outcome with
      | success messageId => exact h.rekey rfl (deliveryKeys_updateWhere (by intro row; rfl) _)
      | retryable error retryAfter =>
        exact h.rekey rfl (deliveryKeys_updateWhere (by intro row; rfl) _)
      | permanent error => exact h.rekey rfl (deliveryKeys_updateWhere (by intro row; rfl) _)
      | unknown error => exact h.rekey rfl (deliveryKeys_updateWhere (by intro row; rfl) _)
    · cases hstep
  | crash service =>
    cases hstep
    exact h
  | enqueue eventType payload score availableAt =>
    cases hstep
    exact h
  | configure user =>
    cases hstep
    exact saveUser_addressed h user

/-- The invariants of a run, in one. -/
structure Kept (maxAttempts : Nat) (world : World) : Prop where
  sound : world.Sound maxAttempts
  expanded : world.tables.Expanded world.expansions
  addressed : Addressed world.tables

theorem step_kept {world next : World} {action : Action} (h : Kept maxAttempts world)
    (hstep : step localTime maxAttempts retryBase world action = .ok next) : Kept maxAttempts next :=
  ⟨step_sound h.sound hstep, step_expanded h.expanded hstep, step_addressed h.addressed hstep⟩

theorem Kept.runAll {world : World} (h : Kept maxAttempts world) (actions : List Action) :
    Kept maxAttempts (runAll (step localTime maxAttempts retryBase) world actions) :=
  runAll_invariant (P := Kept maxAttempts) (fun _ _ _ hs hstep => step_kept hs hstep) h actions

theorem Kept.transact {world : World} (h : Kept maxAttempts world) (action : Action) :
    Kept maxAttempts (transact (step localTime maxAttempts retryBase) world action) :=
  h.runAll [action]

theorem run_kept (actions : List Action) : Kept maxAttempts (run localTime maxAttempts retryBase actions) := by
  refine ⟨run_sound actions, run_expanded actions, ?_⟩
  apply runAll_invariant (P := fun world : World => Addressed world.tables)
    (fun _ _ _ hs hstep => step_addressed hs hstep)
  intro key hkey
  cases hkey

/-- Every row finds its record and its user. -/
theorem Kept.joined {world : World} (h : Kept maxAttempts world) : Joined world.tables := by
  intro row hrow
  have hkey : row.key ∈ deliveryKeys world.tables := List.mem_map_of_mem hrow
  constructor
  · obtain ⟨entry, hentry, hid, -⟩ := h.expanded.source row.key hkey
    obtain ⟨outbox, houtbox, houtboxId⟩ := h.expanded.known entry hentry
    unfold lookup
    rw [List.find?_isSome]
    exact ⟨outbox, houtbox, decide_eq_true (houtboxId.trans hid)⟩
  · exact h.addressed row.key hkey

end Joins

section Rounds

/-- The service whose action it is; the other components have none. -/
def Action.service : Action → Option Nat
  | .recover service _ _ _ => some service
  | .materialize service _ _ _ _ => some service
  | .claim service _ _ => some service
  | .send service => some service
  | .answer service _ => some service
  | .mark service _ => some service
  | .crash service => some service
  | .enqueue _ _ _ _ => none
  | .configure _ => none

/-- What one call of `run_once` gets to see: the clocks, the rows that others hold locked and the
answer of the sender. -/
structure Turn where
  expandAt : Int
  expandLocked : Nat → Bool := fun _ => false
  claimAt : Int
  claimLocked : Nat → Nat → Bool := fun _ _ => false
  outcome : SendOutcome
  markAt : Int

/-- A call of `run_once` that the service survives. `others` is what everybody else does before
each of its steps. -/
structure Round (service : Nat) extends Turn where
  others : Nat → List Action := fun _ => []
  foreign : ∀ stage, ∀ action ∈ others stage, action.service ≠ some service

/-- Where the claim finds nothing, the last three actions do nothing. -/
def Round.actions {service : Nat} (round : Round service) (userIds : List Int) (batchSize : Nat) :
    List Action :=
  round.others 0 ++ .materialize service userIds batchSize round.expandAt round.expandLocked ::
    (round.others 1 ++ .claim service round.claimAt round.claimLocked ::
      (round.others 2 ++ .send service ::
        (round.others 3 ++ .answer service round.outcome ::
          (round.others 4 ++ [.mark service round.markAt]))))

/-- The clocks pass every instant, and no row is locked by others for ever. -/
def Fair (turns : Nat → Turn) : Prop :=
  ∀ (id : Nat) (time : Int) (n : Nat), ∃ m ≥ n,
    time ≤ (turns m).expandAt ∧ time ≤ (turns m).claimAt ∧
    (turns m).expandLocked id = false ∧ ∀ query, (turns m).claimLocked query id = false

variable (localTime : String → Int → Option Int) (maxAttempts : Nat) (retryBase : Int)
variable (userIds : List Int) (batchSize : Nat)

/-- The world after the first rounds. -/
def afterRounds {service : Nat} (world : World) (rounds : Nat → Round service) : Nat → World
  | 0 => world
  | n + 1 => runAll (step localTime maxAttempts retryBase) (afterRounds world rounds n)
      ((rounds n).actions userIds batchSize)

end Rounds

section Phases
variable {localTime : String → Int → Option Int} {maxAttempts : Nat} {retryBase : Int}
variable {service : Nat} {world : World}

theorem phase_foreign {action : Action} (h : action.service ≠ some service) {next : World}
    (hstep : step localTime maxAttempts retryBase world action = .ok next) :
    next.phase service = world.phase service := by
  have hgoto : ∀ (other : Nat) (phase : Phase), some other ≠ some service →
      Function.update world.phase other phase service = world.phase service := by
    intro other phase hne
    exact Function.update_of_ne (fun heq => hne (congrArg some heq.symm)) phase world.phase
  cases action with
  | recover other now cutoff locked =>
    simp only [step] at hstep
    split at hstep
    · cases hstep
      exact hgoto other _ h
    · cases hstep
  | materialize other userIds batchSize now locked =>
    simp only [step] at hstep
    split at hstep
    · cases hstep
      exact hgoto other _ h
    · cases hstep
  | claim other now locked =>
    simp only [step] at hstep
    split at hstep
    · split at hstep
      · cases hstep
        exact hgoto other _ h
      · cases hstep
        exact hgoto other _ h
    · cases hstep
  | send other =>
    simp only [step] at hstep
    split at hstep
    · cases hstep
      exact hgoto other _ h
    · cases hstep
  | answer other outcome =>
    simp only [step] at hstep
    split at hstep
    · cases hstep
      exact hgoto other _ h
    · cases hstep
  | mark other now =>
    simp only [step] at hstep
    split at hstep
    · cases hstep
      exact hgoto other _ h
    · cases hstep
  | crash other =>
    cases hstep
    exact hgoto other _ h
  | enqueue eventType payload score availableAt =>
    cases hstep
    rfl
  | configure user =>
    cases hstep
    rfl

/-- What the others do leaves the service where it is. -/
theorem phase_others {actions : List Action} (h : ∀ action ∈ actions, action.service ≠ some service) :
    (runAll (step localTime maxAttempts retryBase) world actions).phase service =
      world.phase service := by
  induction actions generalizing world with
  | nil => rfl
  | cons action actions ih =>
    have hone : (transact (step localTime maxAttempts retryBase) world action).phase service =
        world.phase service :=
      transact_invariant (P := fun next : World => next.phase service = world.phase service) rfl
        fun next hstep => phase_foreign (h action List.mem_cons_self) hstep
    have hrest := @ih (transact (step localTime maxAttempts retryBase) world action)
      fun other hother => h other (List.mem_cons_of_mem action hother)
    exact hrest.trans hone

theorem phase_materialize (hphase : world.phase service = .idle) (userIds : List Int)
    (batchSize : Nat) (now : Int) (locked : Nat → Bool) :
    (transact (step localTime maxAttempts retryBase) world
      (.materialize service userIds batchSize now locked)).phase service = .materialized ∧
    (transact (step localTime maxAttempts retryBase) world
      (.materialize service userIds batchSize now locked)).tables =
        materializePending localTime world.tables userIds batchSize now locked := by
  unfold transact step
  simp only [hphase]
  exact ⟨Function.update_self service _ _, trivial⟩

theorem phase_claim (hphase : world.phase service = .materialized) (now : Int)
    (locked : Nat → Nat → Bool) :
    ((transact (step localTime maxAttempts retryBase) world (.claim service now locked)).phase
        service = .idle ∨
      ∃ delivery, (transact (step localTime maxAttempts retryBase) world
        (.claim service now locked)).phase service = .claimed delivery) ∧
    (transact (step localTime maxAttempts retryBase) world (.claim service now locked)).tables =
      (claimDelivery world.tables maxAttempts now locked).1 := by
  unfold transact step
  simp only [hphase]
  cases hclaim : claimDelivery world.tables maxAttempts now locked with
  | mk tables found =>
    cases found with
    | none => exact ⟨Or.inl (Function.update_self service _ _), rfl⟩
    | some delivery => exact ⟨Or.inr ⟨delivery, Function.update_self service _ _⟩, rfl⟩

theorem phase_send :
    (world.phase service = .idle →
      (transact (step localTime maxAttempts retryBase) world (.send service)).phase service = .idle) ∧
    ∀ delivery, world.phase service = .claimed delivery →
      (transact (step localTime maxAttempts retryBase) world (.send service)).phase service =
        .sending delivery := by
  unfold transact step
  constructor
  · intro hphase
    simp only [hphase]
  · intro delivery hphase
    simp only [hphase]
    exact Function.update_self service _ _

theorem phase_answer (outcome : SendOutcome) :
    (world.phase service = .idle →
      (transact (step localTime maxAttempts retryBase) world (.answer service outcome)).phase
        service = .idle) ∧
    ∀ delivery, world.phase service = .sending delivery →
      (transact (step localTime maxAttempts retryBase) world (.answer service outcome)).phase
        service = .answered delivery outcome := by
  unfold transact step
  constructor
  · intro hphase
    simp only [hphase]
  · intro delivery hphase
    simp only [hphase]
    exact Function.update_self service _ _

theorem phase_mark (h : world.phase service = .idle ∨
      ∃ delivery outcome, world.phase service = .answered delivery outcome) (now : Int) :
    (transact (step localTime maxAttempts retryBase) world (.mark service now)).phase service =
      .idle := by
  unfold transact step
  rcases h with hphase | ⟨delivery, outcome, hphase⟩
  · simp only [hphase]
  · simp only [hphase]
    exact Function.update_self service _ _

end Phases

section Service
variable {localTime : String → Int → Option Int} {maxAttempts : Nat} {retryBase : Int}
variable {service : Nat} {userIds : List Int} {batchSize : Nat} {world : World}

/-- What the others do before a step of the service. -/
theorem others_stage (hkept : Kept maxAttempts world) (round : Round service) (stage : Nat) :
    let mid := runAll (step localTime maxAttempts retryBase) world (round.others stage)
    Kept maxAttempts mid ∧ Moves maxAttempts world.tables mid.tables ∧
      mid.phase service = world.phase service :=
  ⟨hkept.runAll _, run_moves hkept.sound _, phase_others (round.foreign stage)⟩

/-- A round, stage by stage: the world before its expansion and the one before its claim. -/
theorem round_stages (hkept : Kept maxAttempts world) (hidle : world.phase service = .idle)
    (round : Round service) :
    ∃ first second, Kept maxAttempts first ∧ Kept maxAttempts second ∧
      Moves maxAttempts world.tables first.tables ∧
      Moves maxAttempts
        (materializePending localTime first.tables userIds batchSize round.expandAt
          round.expandLocked) second.tables ∧
      Moves maxAttempts (claimDelivery second.tables maxAttempts round.claimAt round.claimLocked).1
        (runAll (step localTime maxAttempts retryBase) world
          (round.actions userIds batchSize)).tables ∧
      (runAll (step localTime maxAttempts retryBase) world
        (round.actions userIds batchSize)).phase service = .idle := by
  have hcons : ∀ world action actions,
      runAll (step localTime maxAttempts retryBase) world (action :: actions) =
        runAll (step localTime maxAttempts retryBase)
          (transact (step localTime maxAttempts retryBase) world action) actions :=
    fun _ _ _ => rfl
  unfold Round.actions
  simp only [runAll_append, hcons]
  obtain ⟨hfirst, hfirstMoves, hfirstPhase⟩ :=
    @others_stage localTime maxAttempts retryBase service world hkept round 0
  obtain ⟨hexpandedPhase, hexpandedTables⟩ := @phase_materialize localTime maxAttempts retryBase
    service _ (hfirstPhase.trans hidle) userIds batchSize round.expandAt round.expandLocked
  have hexpanded := @Kept.transact localTime maxAttempts retryBase _ hfirst
    (.materialize service userIds batchSize round.expandAt round.expandLocked)
  obtain ⟨hsecond, hsecondMoves, hsecondPhase⟩ :=
    @others_stage localTime maxAttempts retryBase service _ hexpanded round 1
  obtain ⟨hclaimedPhase, hclaimedTables⟩ := @phase_claim localTime maxAttempts retryBase service _
    (hsecondPhase.trans hexpandedPhase) round.claimAt round.claimLocked
  have hclaimed := @Kept.transact localTime maxAttempts retryBase _ hsecond
    (.claim service round.claimAt round.claimLocked)
  rw [hexpandedTables] at hsecondMoves
  refine ⟨_, _, hfirst, hsecond, hfirstMoves, hsecondMoves, ?_, ?_⟩
  · rw [← hclaimedTables]
    have hrest := @run_moves localTime maxAttempts retryBase _ hclaimed.sound (round.others 2 ++
      .send service :: (round.others 3 ++ .answer service round.outcome ::
        (round.others 4 ++ [.mark service round.markAt])))
    simp only [runAll_append, hcons] at hrest
    exact hrest
  · apply phase_mark
    rw [phase_others (round.foreign 4)]
    rcases hclaimedPhase with hphase | ⟨delivery, hphase⟩
    · left
      apply (phase_answer round.outcome).1
      rw [phase_others (round.foreign 3)]
      apply phase_send.1
      rw [phase_others (round.foreign 2)]
      exact hphase
    · refine Or.inr ⟨delivery, round.outcome, (phase_answer round.outcome).2 delivery ?_⟩
      rw [phase_others (round.foreign 3)]
      apply phase_send.2
      rw [phase_others (round.foreign 2)]
      exact hphase

variable {round : Round service} {bound : Nat}

/-- A round with its clock past a record works on the records up to it. -/
theorem round_lowers_outbox (hkept : Kept maxAttempts world) (hidle : world.phase service = .idle)
    (husers : userIds ≠ []) (hbatch : 0 < batchSize) {outbox : OutboxRecord}
    (houtbox : outbox ∈ world.tables.outbox) (hpending : outbox.status = .pending)
    (havailable : outbox.availableAt ≤ round.expandAt)
    (hunlocked : round.expandLocked outbox.id = false) (hkey : outbox.id < bound)
    (hbound : bound ≤ world.tables.nextOutboxId) :
    load outboxQueue bound (runAll (step localTime maxAttempts retryBase) world
      (round.actions userIds batchSize)).tables.outbox <
        load outboxQueue bound world.tables.outbox := by
  obtain ⟨first, second, -, hsecond, hfirstMoves, hsecondMoves, hrest, -⟩ :=
    @round_stages localTime maxAttempts retryBase service userIds batchSize world hkept hidle round
  have hexpand := @materializePending_moves localTime maxAttempts first.tables userIds batchSize
    round.expandAt round.expandLocked
  have hlast := (hsecondMoves.trans
    (claimDelivery_moves hsecond.sound round.claimAt round.claimLocked)).trans hrest
  have hfirstBound := hbound.trans hfirstMoves.outboxIds
  have hle := hlast.outbox.load_le (hfirstBound.trans hexpand.outboxIds)
  rcases hfirstMoves.outbox.keeps_waiting hbound houtbox hpending hkey with hthere | hlt
  · have hlower := @materialize_lowers localTime first.tables outbox userIds batchSize
      round.expandAt round.expandLocked bound hthere hpending havailable hunlocked husers hbatch hkey
        hfirstBound
    exact lt_of_le_of_lt hle (lt_of_lt_of_le hlower (hfirstMoves.outbox.load_le hbound))
  · exact lt_of_le_of_lt (hle.trans (hexpand.outbox.load_le hfirstBound)) hlt

/-- A round with its clock past a delivery works on the deliveries up to it. -/
theorem round_lowers_deliveries (hkept : Kept maxAttempts world)
    (hidle : world.phase service = .idle) {row : DeliveryRecord}
    (hrow : row ∈ world.tables.deliveries) (hpending : row.status = .pending)
    (hdue : row.nextAttemptAt ≤ round.claimAt)
    (hunlocked : ∀ query, round.claimLocked query row.id = false) (hkey : row.id < bound)
    (hbound : bound ≤ world.tables.nextDeliveryId) :
    load (deliveryQueue maxAttempts) bound (runAll (step localTime maxAttempts retryBase) world
      (round.actions userIds batchSize)).tables.deliveries <
        load (deliveryQueue maxAttempts) bound world.tables.deliveries := by
  obtain ⟨first, second, -, hsecond, hfirstMoves, hsecondMoves, hrest, -⟩ :=
    @round_stages localTime maxAttempts retryBase service userIds batchSize world hkept hidle round
  have hmoves := (hfirstMoves.trans (@materializePending_moves localTime maxAttempts first.tables
    userIds batchSize round.expandAt round.expandLocked)).trans hsecondMoves
  have hsecondBound := hbound.trans hmoves.deliveryIds
  have hclaim := claimDelivery_moves hsecond.sound round.claimAt round.claimLocked
  have hle := hrest.deliveries.load_le (hsecondBound.trans hclaim.deliveryIds)
  rcases hmoves.deliveries.keeps_waiting hbound hrow hpending hkey with hthere | hlt
  · have hlower := claim_lowers hsecond.sound hsecond.joined hthere hpending hdue hunlocked hkey
      hsecondBound
    exact lt_of_le_of_lt hle (lt_of_lt_of_le hlower (hmoves.deliveries.load_le hbound))
  · exact lt_of_le_of_lt (hle.trans (hclaim.deliveries.load_le hsecondBound)) hlt

end Service

section Logs
variable {localTime : String → Int → Option Int} {maxAttempts : Nat} {retryBase : Int}

/-- The log of the expansions only grows. -/
theorem step_expansions {world next : World} {action : Action}
    (hstep : step localTime maxAttempts retryBase world action = .ok next) :
    world.expansions ⊆ next.expansions := by
  cases action with
  | recover service now cutoff locked =>
    simp only [step] at hstep
    split at hstep
    · cases hstep
      exact List.Subset.refl _
    · cases hstep
  | materialize service userIds batchSize now locked =>
    simp only [step] at hstep
    split at hstep
    · cases hstep
      exact List.subset_append_left _ _
    · cases hstep
  | claim service now locked =>
    simp only [step] at hstep
    split at hstep
    · split at hstep
      · cases hstep
        exact List.Subset.refl _
      · cases hstep
        exact List.Subset.refl _
    · cases hstep
  | send service =>
    simp only [step] at hstep
    split at hstep
    · cases hstep
      exact List.Subset.refl _
    · cases hstep
  | answer service outcome =>
    simp only [step] at hstep
    split at hstep
    · cases hstep
      exact List.Subset.refl _
    · cases hstep
  | mark service now =>
    simp only [step] at hstep
    split at hstep
    · cases hstep
      exact List.Subset.refl _
    · cases hstep
  | crash service =>
    cases hstep
    exact List.Subset.refl _
  | enqueue eventType payload score availableAt =>
    cases hstep
    exact List.Subset.refl _
  | configure user =>
    cases hstep
    exact List.Subset.refl _

end Logs

section Settled
variable {localTime : String → Int → Option Int} {maxAttempts : Nat} {retryBase : Int}
variable {service : Nat} {userIds : List Int} {batchSize : Nat}
variable {world : World} {rounds : Nat → Round service}

theorem afterRounds_kept (hkept : Kept maxAttempts world) (hidle : world.phase service = .idle)
    (n : Nat) :
    Kept maxAttempts (afterRounds localTime maxAttempts retryBase userIds batchSize world rounds n) ∧
    (afterRounds localTime maxAttempts retryBase userIds batchSize world rounds n).phase service =
      .idle := by
  induction n with
  | zero => exact ⟨hkept, hidle⟩
  | succ n ih =>
    obtain ⟨-, -, -, -, -, -, -, hphase⟩ := @round_stages localTime maxAttempts retryBase service
      userIds batchSize _ ih.1 ih.2 (rounds n)
    exact ⟨ih.1.runAll _, hphase⟩

theorem afterRounds_moves (hkept : Kept maxAttempts world) (hidle : world.phase service = .idle)
    (n : Nat) :
    Moves maxAttempts
      (afterRounds localTime maxAttempts retryBase userIds batchSize world rounds n).tables
      (afterRounds localTime maxAttempts retryBase userIds batchSize world rounds (n + 1)).tables :=
  run_moves (afterRounds_kept hkept hidle n).1.sound _

theorem afterRounds_expansions {start stop : Nat} (hle : start ≤ stop) :
    (afterRounds localTime maxAttempts retryBase userIds batchSize world rounds start).expansions ⊆
      (afterRounds localTime maxAttempts retryBase userIds batchSize world rounds stop).expansions := by
  induction stop, hle using Nat.le_induction with
  | base => exact List.Subset.refl _
  | succ stop _ ih =>
    apply List.Subset.trans ih
    exact runAll_relates (R := fun early late : World => early.expansions ⊆ late.expansions)
      (P := fun _ => True) (fun _ => List.Subset.refl _) (fun _ _ _ => List.Subset.trans)
      (fun _ _ _ _ _ => trivial) (fun _ _ _ _ hstep => step_expansions hstep) trivial _

/-- Once a record is expanded, no later row belongs to it: what there is then are the images of
the rows that were there. -/
theorem rows_of_expanded (hkept : Kept maxAttempts world) (hidle : world.phase service = .idle)
    {start stop : Nat} (hle : start ≤ stop) {record : OutboxRecord}
    (hrecord : record ∈ (afterRounds localTime maxAttempts retryBase userIds batchSize world rounds
      start).tables.outbox) (hexpanded : record.status = .expanded) {row : DeliveryRecord}
    (hrow : row ∈ (afterRounds localTime maxAttempts retryBase userIds batchSize world rounds
      stop).tables.deliveries) (hof : row.outboxId = record.id) :
    row.id < (afterRounds localTime maxAttempts retryBase userIds batchSize world rounds
      start).tables.nextDeliveryId := by
  have hearly := (@afterRounds_kept localTime maxAttempts retryBase service userIds batchSize world
    rounds hkept hidle start).1
  have hlate := (@afterRounds_kept localTime maxAttempts retryBase service userIds batchSize world
    rounds hkept hidle stop).1
  have hmoves := fun n => @afterRounds_moves localTime maxAttempts retryBase service userIds
    batchSize world rounds hkept hidle n
  obtain ⟨entry, hentry, hid⟩ := List.mem_map.mp
    ((hearly.expanded.recorded record hrecord).mp hexpanded)
  obtain ⟨later, hlater, hlaterId, huser⟩ :=
    hlate.expanded.source row.key (List.mem_map_of_mem hrow)
  have hsame : later = entry := by
    apply List.inj_on_of_nodup_map hlate.expanded.once hlater
      (afterRounds_expansions hle hentry)
    exact hlaterId.trans (hof.trans hid.symm)
  rw [hsame] at hlaterId huser
  -- the row was there when the record was expanded, and its image is this row
  obtain ⟨old, hold, holdKey⟩ := List.mem_map.mp
    (hearly.expanded.delivered entry hentry row.key.2 huser)
  obtain ⟨next, hnext, hnextId, hnextKey⟩ := (advances_between (fun n => (hmoves n).deliveries)
    (fun n => (hmoves n).deliveryIds) hle).image hold
  have hnextRow : next = row := by
    apply List.inj_on_of_nodup_map hlate.expanded.distinct hnext hrow
    rw [show next.key = old.key from hnextKey, holdKey, hlaterId]
  rw [← hnextRow, show next.id = old.id from hnextId]
  exact hearly.sound.fresh old hold

/-- From some round on the record is expanded and none of its rows waits. -/
theorem eventually_settled (hkept : Kept maxAttempts world) (hidle : world.phase service = .idle)
    (husers : userIds ≠ []) (hbatch : 0 < batchSize) (hfair : Fair fun n => (rounds n).toTurn) {start : Nat}
    {outbox : OutboxRecord}
    (houtbox : outbox ∈ (afterRounds localTime maxAttempts retryBase userIds batchSize world rounds
      start).tables.outbox) :
    ∃ n ≥ start, ∀ m ≥ n,
      (∃ record ∈ (afterRounds localTime maxAttempts retryBase userIds batchSize world rounds
        m).tables.outbox, record.id = outbox.id ∧ record.status = .expanded) ∧
      ∀ row ∈ (afterRounds localTime maxAttempts retryBase userIds batchSize world rounds
        m).tables.deliveries, row.outboxId = outbox.id → row.status ≠ .pending := by
  have hkepts := fun n => @afterRounds_kept localTime maxAttempts retryBase service userIds
    batchSize world rounds hkept hidle n
  have hmoves := fun n => @afterRounds_moves localTime maxAttempts retryBase service userIds
    batchSize world rounds hkept hidle n
  -- the record is expanded
  obtain ⟨first, hfirst, hdone⟩ := eventually_served (fun n => (hmoves n).outbox)
    (fun n => (hmoves n).outboxIds) (fun n hbound row hrow hwaiting hkey => by
      obtain ⟨m, hm, hexpandAt, -, hunlocked, -⟩ := hfair row.id row.availableAt n
      refine ⟨m, hm, fun hthere => ?_⟩
      exact round_lowers_outbox (hkepts m).1 (hkepts m).2 husers hbatch hthere hwaiting hexpandAt
        hunlocked hkey (hbound.trans (monotone_nat_of_le_succ (fun n => (hmoves n).outboxIds) hm)))
    (Nat.succ_le_of_lt ((hkepts start).1.expanded.fresh outbox houtbox))
  have hexpanded : ∀ m ≥ first, ∃ record ∈ (afterRounds localTime maxAttempts retryBase userIds
      batchSize world rounds m).tables.outbox, record.id = outbox.id ∧ record.status = .expanded := by
    intro m hm
    obtain ⟨record, hrecord, hid, -⟩ := (advances_between (fun n => (hmoves n).outbox)
      (fun n => (hmoves n).outboxIds) (hfirst.trans hm)).image houtbox
    refine ⟨record, hrecord, hid, ?_⟩
    have hnot := hdone m hm record hrecord (hid.trans_lt (Nat.lt_succ_self _))
    cases hstatus : record.status with
    | pending => exact absurd hstatus hnot
    | expanded => rfl
  -- its rows are settled
  obtain ⟨last, hlast, hsettled⟩ := eventually_served (fun n => (hmoves n).deliveries)
    (fun n => (hmoves n).deliveryIds) (fun n hbound row hrow hwaiting hkey => by
      obtain ⟨m, hm, -, hclaimAt, -, hunlocked⟩ := hfair row.id row.nextAttemptAt n
      refine ⟨m, hm, fun hthere => ?_⟩
      exact round_lowers_deliveries (hkepts m).1 (hkepts m).2 hthere hwaiting hclaimAt hunlocked hkey
        (hbound.trans (monotone_nat_of_le_succ (fun n => (hmoves n).deliveryIds) hm)))
    (Nat.le_refl (afterRounds localTime maxAttempts retryBase userIds batchSize world rounds
      first).tables.nextDeliveryId)
  refine ⟨last, hfirst.trans hlast, ?_⟩
  intro m hm
  refine ⟨hexpanded m (hlast.trans hm), ?_⟩
  intro row hrow hof
  obtain ⟨record, hrecord, hid, hstatus⟩ := hexpanded first (Nat.le_refl first)
  exact hsettled m hm row hrow
    (rows_of_expanded hkept hidle (hlast.trans hm) hrecord hstatus hrow (hof.trans hid.symm))

end Settled

end StructurePulse.Telegram
