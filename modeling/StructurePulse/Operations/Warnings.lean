import StructurePulse.Library.Segments
import StructurePulse.Library.Transactions
import StructurePulse.Market
import Mathlib.Data.List.Nodup
import Mathlib.Data.Set.Finite.Lattice

/-!
# Service warnings and recoveries

`OperationalWarningService` keeps in memory since when the market data is not ready and
whether it has warned. The messages are rows of the outbox, and a row whose key is taken is
not inserted again. `run` goes on after a check that raises.
-/

namespace StructurePulse.Operations
open Library
set_option autoImplicit false

section Outbox

inductive OperationalEvent where
  | serviceWarning
  | serviceRecovered
  deriving Repr, DecidableEq

def OperationalEvent.text : OperationalEvent → String
  | .serviceWarning => "service_warning"
  | .serviceRecovered => "service_recovered"

structure OperationalPayload where
  service : String
  status : String
  reason : String
  eventTime : Int
  deriving Repr, DecidableEq

structure OperationalRecord where
  idempotencyKey : String
  eventType : OperationalEvent
  payload : OperationalPayload
  status : String := "pending"
  availableAt : Int
  deriving Repr, DecidableEq

/-- How the transaction of an enqueue ends; it can raise before or after its commit. -/
inductive EnqueueOutcome where
  | returns
  | raises (committed : Bool)
  deriving Repr, DecidableEq

def keyTaken (outbox : List OperationalRecord) (key : String) : Bool :=
  outbox.any fun row => row.idempotencyKey = key

/-- The outbox after the call, and whether a row was created. -/
def enqueueOperationalEvent (outbox : List OperationalRecord) (record : OperationalRecord) :
    EnqueueOutcome → List OperationalRecord × Except Unit Bool
  | .returns =>
    if keyTaken outbox record.idempotencyKey then (outbox, .ok false)
    else (outbox ++ [record], .ok true)
  | .raises committed =>
    if !committed || keyTaken outbox record.idempotencyKey then (outbox, .error ())
    else (outbox ++ [record], .error ())

end Outbox

section Service

structure WarningSettings where
  warningDelay : Int := 300 * 1000000
  cooldownSeconds : Int := 1800

structure WarningService where
  unreadySince : Option Int := none
  warningEmitted : Bool := false
  deriving Repr, DecidableEq

structure Monitor where
  service : WarningService := {}
  outbox : List OperationalRecord

/-- What a check finds: the flags of the runtime, the two clocks and how its enqueue would
end. -/
structure Check where
  quiescing : Bool := false
  ready : Bool
  monotonic : Int
  now : Int
  enqueue : EnqueueOutcome := .returns
  deriving Repr, DecidableEq

/-- `int(current_time.timestamp())`. -/
def secondOf (now : Int) : Int := now.tdiv 1000000

def bucketOf (settings : WarningSettings) (now : Int) : Int := secondOf now / settings.cooldownSeconds

def warningRecord (settings : WarningSettings) (now : Int) : OperationalRecord where
  idempotencyKey := s!"service:market-data-unready:{bucketOf settings now}"
  eventType := .serviceWarning
  payload := ⟨"market_data", "degraded", "market_data_not_ready", now⟩
  availableAt := now

def recoveredRecord (now : Int) : OperationalRecord where
  idempotencyKey := s!"service:market-data-recovered:{secondOf now}"
  eventType := .serviceRecovered
  payload := ⟨"market_data", "ready", "market_data_recovered", now⟩
  availableAt := now

/-- `_handle_recovery`: the flag is cleared before the enqueue is awaited. -/
def handleRecovery (monitor : Monitor) (check : Check) : Monitor × Except Unit Bool :=
  let service := { monitor.service with unreadySince := none }
  if !monitor.service.warningEmitted then ({ monitor with service := service }, .ok false)
  else
    let enqueued := enqueueOperationalEvent monitor.outbox (recoveredRecord check.now) check.enqueue
    ({ service := { service with warningEmitted := false }, outbox := enqueued.1 }, enqueued.2)

/-- The enqueue of a warning; an exception leaves the flag alone. -/
def emitWarning (settings : WarningSettings) (monitor : Monitor) (check : Check) :
    Monitor × Except Unit Bool :=
  let enqueued :=
    enqueueOperationalEvent monitor.outbox (warningRecord settings check.now) check.enqueue
  let emitted := match enqueued.2 with
    | .ok created => monitor.service.warningEmitted || created
    | .error _ => monitor.service.warningEmitted
  ({ service := { monitor.service with warningEmitted := emitted }, outbox := enqueued.1 }, enqueued.2)

def checkOnce (settings : WarningSettings) (monitor : Monitor) (check : Check) :
    Monitor × Except Unit Bool :=
  if check.quiescing then (monitor, .ok false)
  else if check.ready then handleRecovery monitor check
  else
    match monitor.service.unreadySince with
    | none =>
      ({ monitor with service := { monitor.service with unreadySince := some check.monotonic } },
        .ok false)
    | some since =>
      if check.monotonic - since < settings.warningDelay then (monitor, .ok false)
      else emitWarning settings monitor check

/-- The loop body of `run`. -/
def monitorStep (settings : WarningSettings) (monitor : Monitor) (check : Check) :
    Except Unit Monitor :=
  .ok (checkOnce settings monitor check).1

/-- A new service after its checks, on an outbox that holds some rows already. -/
def monitored (settings : WarningSettings) (rows : List OperationalRecord) (checks : List Check) :
    Monitor :=
  runAll (monitorStep settings) { outbox := rows } checks

/-- The messages that came to the rows. -/
def messages (rows : List OperationalRecord) (monitor : Monitor) : List OperationalRecord :=
  monitor.outbox.drop rows.length

def Check.seesReady (check : Check) : Bool := !check.quiescing && check.ready

end Service

section Steps
variable {settings : WarningSettings} {monitor : Monitor} {check : Check}

/-- What an enqueue can do. -/
theorem enqueue_cases (outbox : List OperationalRecord) (record : OperationalRecord)
    (outcome : EnqueueOutcome) :
    (keyTaken outbox record.idempotencyKey = false ∧ outcome ≠ .raises false ∧
      (enqueueOperationalEvent outbox record outcome).1 = outbox ++ [record] ∧
      (outcome = .returns → (enqueueOperationalEvent outbox record outcome).2 = .ok true) ∧
      (outcome ≠ .returns → (enqueueOperationalEvent outbox record outcome).2 = .error ())) ∨
    ((keyTaken outbox record.idempotencyKey = true ∨ outcome = .raises false) ∧
      (enqueueOperationalEvent outbox record outcome).1 = outbox ∧
      (enqueueOperationalEvent outbox record outcome).2 ≠ .ok true) := by
  cases htaken : keyTaken outbox record.idempotencyKey with
  | true =>
    refine Or.inr ⟨Or.inl rfl, ?_⟩
    cases outcome with
    | returns => simp [enqueueOperationalEvent, htaken]
    | raises committed => simp [enqueueOperationalEvent, htaken]
  | false =>
    cases outcome with
    | returns => exact Or.inl (by simp [enqueueOperationalEvent, htaken])
    | raises committed =>
      cases committed with
      | true => exact Or.inl (by simp [enqueueOperationalEvent, htaken])
      | false => exact Or.inr (by simp [enqueueOperationalEvent])

/-- A check enqueues nothing and keeps the flag. -/
structure Quiet (monitor next : Monitor) (check : Check) : Prop where
  outbox : next.outbox = monitor.outbox
  emitted : next.service.warningEmitted = monitor.service.warningEmitted
  ready : check.seesReady = true → monitor.service.warningEmitted = false

/-- The outage has lasted for the warning delay. -/
def WarningDue (settings : WarningSettings) (monitor : Monitor) (check : Check) : Prop :=
  check.quiescing = false ∧ check.ready = false ∧
    ∃ since ∈ monitor.service.unreadySince, settings.warningDelay ≤ check.monotonic - since

instance (settings : WarningSettings) (monitor : Monitor) (check : Check) :
    Decidable (WarningDue settings monitor check) :=
  inferInstanceAs (Decidable (_ ∧ _ ∧ _))

theorem WarningDue.unready (h : WarningDue settings monitor check) : check.seesReady = false := by
  simp [Check.seesReady, h.2.1]

theorem WarningDue.checkOnce_eq (h : WarningDue settings monitor check) :
    checkOnce settings monitor check = emitWarning settings monitor check := by
  obtain ⟨hrunning, hunready, since, hsince, hdelay⟩ := h
  rw [Option.mem_def] at hsince
  unfold checkOnce
  rw [if_neg (by simp [hrunning]), if_neg (by simp [hunready]), hsince]
  exact if_neg (not_lt.mpr hdelay)

/-- A check enqueues a warning; only an exception can keep it from setting the flag. -/
structure Warned (settings : WarningSettings) (monitor next : Monitor) (check : Check) : Prop where
  due : WarningDue settings monitor check
  free : keyTaken monitor.outbox (warningRecord settings check.now).idempotencyKey = false
  outbox : next.outbox = monitor.outbox ++ [warningRecord settings check.now]
  emitted : next.service.warningEmitted = true ∨
    check.enqueue = .raises true ∧ next.service.warningEmitted = monitor.service.warningEmitted

/-- A check takes its one chance to enqueue a recovery. -/
structure Recovered (monitor next : Monitor) (check : Check) : Prop where
  ready : check.seesReady = true
  owed : monitor.service.warningEmitted = true
  emitted : next.service.warningEmitted = false
  outbox : (keyTaken monitor.outbox (recoveredRecord check.now).idempotencyKey = false ∧
      check.enqueue ≠ .raises false) ∧
      next.outbox = monitor.outbox ++ [recoveredRecord check.now] ∨
    (keyTaken monitor.outbox (recoveredRecord check.now).idempotencyKey = true ∨
      check.enqueue = .raises false) ∧ next.outbox = monitor.outbox

theorem handleRecovery_cases (hready : check.seesReady = true) :
    Quiet monitor (handleRecovery monitor check).1 check ∨
      Recovered monitor (handleRecovery monitor check).1 check := by
  unfold handleRecovery
  cases hemitted : monitor.service.warningEmitted with
  | false => exact Or.inl ⟨rfl, rfl, fun _ => hemitted⟩
  | true =>
    refine Or.inr ⟨hready, hemitted, rfl, ?_⟩
    rcases enqueue_cases monitor.outbox (recoveredRecord check.now) check.enqueue with
      ⟨hfree, hstored, houtbox, -⟩ | ⟨hlost, houtbox, -⟩
    · exact Or.inl ⟨⟨hfree, hstored⟩, houtbox⟩
    · exact Or.inr ⟨hlost, houtbox⟩

theorem emitWarning_cases (hdue : WarningDue settings monitor check) :
    Quiet monitor (emitWarning settings monitor check).1 check ∨
      Warned settings monitor (emitWarning settings monitor check).1 check := by
  unfold emitWarning
  rcases enqueue_cases monitor.outbox (warningRecord settings check.now) check.enqueue with
    ⟨hfree, houtcome, houtbox, hreturns, hraises⟩ | ⟨-, houtbox, hcreated⟩
  · refine Or.inr ⟨hdue, hfree, houtbox, ?_⟩
    cases henqueue : check.enqueue with
    | returns =>
      rw [henqueue] at hreturns
      exact Or.inl (by simp [hreturns rfl])
    | raises committed =>
      rw [henqueue] at houtcome hraises
      cases committed with
      | true => exact Or.inr ⟨rfl, by simp [hraises nofun]⟩
      | false => exact absurd rfl houtcome
  · refine Or.inl ⟨houtbox, ?_, fun hready => absurd hready (by simp [hdue.unready])⟩
    cases hresult : (enqueueOperationalEvent monitor.outbox (warningRecord settings check.now)
        check.enqueue).2 with
    | error raised => simp [hresult]
    | ok created =>
      cases created with
      | true => exact absurd hresult hcreated
      | false => simp [hresult]

/-- What a check can do. -/
theorem checkOnce_cases (settings : WarningSettings) (monitor : Monitor) (check : Check) :
    Quiet monitor (checkOnce settings monitor check).1 check ∨
      Warned settings monitor (checkOnce settings monitor check).1 check ∨
      Recovered monitor (checkOnce settings monitor check).1 check := by
  unfold checkOnce
  by_cases hquiescing : check.quiescing = true
  · rw [if_pos hquiescing]
    exact Or.inl ⟨rfl, rfl, fun hready => absurd hready (by simp [Check.seesReady, hquiescing])⟩
  rw [if_neg hquiescing]
  by_cases hready : check.ready = true
  · rw [if_pos hready]
    exact (handleRecovery_cases (by simp [Check.seesReady, hquiescing, hready])).imp_right Or.inr
  have hunready : check.seesReady = false := by simp [Check.seesReady, hready]
  have hidle : check.seesReady = true → monitor.service.warningEmitted = false :=
    fun hseen => absurd hseen (by simp [hunready])
  rw [if_neg hready]
  cases hsince : monitor.service.unreadySince with
  | none => exact Or.inl ⟨rfl, rfl, hidle⟩
  | some since =>
    simp only
    split_ifs with hdelay
    · exact Or.inl ⟨rfl, rfl, hidle⟩
    · refine (emitWarning_cases ⟨?_, ?_, since, hsince, not_lt.mp hdelay⟩).imp_right Or.inl
      · simpa using hquiescing
      · simpa using hready

end Steps

section Pairing

/-- The last message is a warning. -/
def owed (added : List OperationalRecord) : Prop :=
  ∃ record, added.getLast? = some record ∧ record.eventType = .serviceWarning

/-- No two warnings are of one cooldown bucket. -/
def OncePerBucket (settings : WarningSettings) (added : List OperationalRecord) : Prop :=
  ((added.filter fun record => record.eventType = .serviceWarning).map fun record =>
    bucketOf settings record.payload.eventTime).Nodup

/-- Between two recoveries lies a warning. -/
def WarnedBetween (added : List OperationalRecord) : Prop :=
  ∀ before first between second after, added = before ++ first :: between ++ second :: after →
    first.eventType = .serviceRecovered → second.eventType = .serviceRecovered →
      ∃ record ∈ between, record.eventType = .serviceWarning

/-- Exactly one recovery follows the last warning, if there is any. -/
def RecoveredOnce (added : List OperationalRecord) : Prop :=
  ∀ before warning after, added = before ++ warning :: after →
    warning.eventType = .serviceWarning → (∀ record ∈ after, record.eventType = .serviceRecovered) →
      after.length = 1

/-- Every recovery directly follows a warning. -/
def Answers (added : List OperationalRecord) : Prop :=
  ∀ before record after, added = before ++ record :: after →
    record.eventType = .serviceRecovered → owed before

variable {added : List OperationalRecord} {record : OperationalRecord}

theorem owed_concat (added : List OperationalRecord) (record : OperationalRecord) :
    owed (added ++ [record]) ↔ record.eventType = .serviceWarning := by
  simp [owed]

theorem not_owed_recovered (before : List OperationalRecord)
    (h : record.eventType = .serviceRecovered) : ¬owed (before ++ [record]) := by
  rw [owed_concat, h]
  decide

theorem Answers.concat (h : Answers added) (hrecord : record.eventType = .serviceRecovered → owed added) :
    Answers (added ++ [record]) := by
  intro before other after hsplit hother
  rcases List.eq_nil_or_concat' after with rfl | ⟨rest, last, rfl⟩
  · obtain ⟨rfl, hlast⟩ := List.append_inj' hsplit rfl
    cases hlast
    exact hrecord hother
  · have hsplit : added ++ [record] = (before ++ other :: rest) ++ [last] := by
      rw [hsplit, List.append_assoc, List.cons_append]
    obtain ⟨hadded, -⟩ := List.append_inj' hsplit rfl
    exact h before other rest hadded hother

theorem Answers.warnedBetween (h : Answers added) : WarnedBetween added := by
  intro before first between second after hsplit hfirst hsecond
  obtain ⟨record, hlast, hwarning⟩ := h (before ++ first :: between) second after hsplit hsecond
  rcases List.eq_nil_or_concat' between with rfl | ⟨rest, last, rfl⟩
  · rw [List.getLast?_append_cons] at hlast
    cases hlast
    exact absurd (hfirst.symm.trans hwarning) (by decide)
  · have hwhole : before ++ first :: (rest ++ [last]) = (before ++ first :: rest) ++ [last] := by
      rw [List.append_assoc, List.cons_append]
    rw [hwhole, List.getLast?_concat, Option.some.injEq] at hlast
    subst hlast
    exact ⟨last, List.mem_append_right rest (List.mem_singleton_self last), hwarning⟩

theorem Answers.recoveredOnce (h : Answers added) (hpaid : ¬owed added) : RecoveredOnce added := by
  intro before warning after hsplit hwarning hafter
  match after with
  | [] => exact absurd (hsplit ▸ (owed_concat before warning).mpr hwarning) hpaid
  | [_] => rfl
  | first :: second :: rest =>
    -- the second of two recoveries in a row would follow no warning
    have hsplit : added = (before ++ [warning, first]) ++ second :: rest := by
      rw [hsplit, List.append_assoc, List.cons_append, List.cons_append, List.nil_append]
    have howed := h _ second rest hsplit (hafter second (by simp))
    have hwhole : before ++ [warning, first] = (before ++ [warning]) ++ [first] := by
      rw [List.append_assoc, List.singleton_append]
    rw [hwhole] at howed
    exact absurd howed (not_owed_recovered _ (hafter first (by simp)))

end Pairing

section Runs
variable {settings : WarningSettings} {rows : List OperationalRecord} {monitor next : Monitor}
variable {check : Check}

/-- The messages of a service and what its flag says about them. -/
structure Paired (settings : WarningSettings) (rows : List OperationalRecord) (monitor : Monitor) :
    Prop where
  kept : rows.length ≤ monitor.outbox.length
  keyed : ∀ record ∈ messages rows monitor, record.eventType = .serviceWarning →
    record.idempotencyKey = (warningRecord settings record.payload.eventTime).idempotencyKey
  once : OncePerBucket settings (messages rows monitor)
  answers : Answers (messages rows monitor)
  emitted : monitor.service.warningEmitted = true → owed (messages rows monitor)

theorem messages_append (hkept : rows.length ≤ monitor.outbox.length) {record : OperationalRecord}
    (h : next.outbox = monitor.outbox ++ [record]) :
    messages rows next = messages rows monitor ++ [record] := by
  rw [messages, messages, h, List.drop_append_of_le_length hkept]

theorem messages_same (h : next.outbox = monitor.outbox) :
    messages rows next = messages rows monitor := by
  rw [messages, messages, h]

/-- Nothing is enqueued, and the flag is at most cleared. -/
theorem Paired.same (h : Paired settings rows monitor) (houtbox : next.outbox = monitor.outbox)
    (hflag : next.service.warningEmitted = true → monitor.service.warningEmitted = true) :
    Paired settings rows next := by
  refine ⟨?_, ?_, ?_, ?_, fun hemitted => ?_⟩
  · rw [houtbox]
    exact h.kept
  · rw [messages_same houtbox]
    exact h.keyed
  · rw [messages_same houtbox]
    exact h.once
  · rw [messages_same houtbox]
    exact h.answers
  · rw [messages_same houtbox]
    exact h.emitted (hflag hemitted)

theorem Paired.warned (h : Paired settings rows monitor)
    (hwarned : Warned settings monitor next check) : Paired settings rows next := by
  have hmessages := messages_append h.kept hwarned.outbox
  refine ⟨?_, ?_, ?_, ?_, fun _ => ?_⟩
  · rw [hwarned.outbox, List.length_append]
    exact Nat.le_add_right_of_le h.kept
  · intro record hrecord hwarning
    rw [hmessages] at hrecord
    rcases List.mem_append.mp hrecord with hrecord | hrecord
    · exact h.keyed record hrecord hwarning
    · rw [List.mem_singleton.mp hrecord]
      rfl
  · have hlast : (messages rows monitor ++ [warningRecord settings check.now]).filter (fun record =>
        record.eventType = .serviceWarning) = (messages rows monitor).filter (fun record =>
          record.eventType = .serviceWarning) ++ [warningRecord settings check.now] := by
      rw [List.filter_append]
      rfl
    rw [hmessages, OncePerBucket, hlast, List.map_append]
    refine List.nodup_append.mpr ⟨h.once, List.nodup_singleton _, ?_⟩
    rintro bucket hbucket _ hnew rfl
    -- a warning of the same bucket would have taken the key
    obtain ⟨record, hrecord, hsame⟩ := List.mem_map.mp hbucket
    obtain ⟨hadded, hwarning⟩ := List.mem_filter.mp hrecord
    have hkey : record.idempotencyKey = (warningRecord settings check.now).idempotencyKey := by
      rw [h.keyed record hadded (of_decide_eq_true hwarning)]
      unfold warningRecord
      rw [hsame, List.mem_singleton.mp hnew]
      rfl
    have htaken : keyTaken monitor.outbox (warningRecord settings check.now).idempotencyKey = true :=
      List.any_eq_true.mpr ⟨record, List.mem_of_mem_drop hadded, decide_eq_true hkey⟩
    rw [hwarned.free] at htaken
    cases htaken
  · rw [hmessages]
    exact h.answers.concat nofun
  · rw [hmessages]
    exact (owed_concat _ _).mpr rfl

theorem Paired.recovered (h : Paired settings rows monitor)
    (howed : monitor.service.warningEmitted = true) (hcleared : next.service.warningEmitted = false)
    (houtbox : next.outbox = monitor.outbox ++ [recoveredRecord check.now]) :
    Paired settings rows next := by
  have hmessages := messages_append h.kept houtbox
  refine ⟨?_, ?_, ?_, ?_, fun hemitted => ?_⟩
  · rw [houtbox, List.length_append]
    exact Nat.le_add_right_of_le h.kept
  · intro record hrecord hwarning
    rw [hmessages] at hrecord
    rcases List.mem_append.mp hrecord with hrecord | hrecord
    · exact h.keyed record hrecord hwarning
    · rw [List.mem_singleton.mp hrecord] at hwarning
      cases hwarning
  · have hlast : (messages rows monitor ++ [recoveredRecord check.now]).filter (fun record =>
        record.eventType = .serviceWarning) = (messages rows monitor).filter (fun record =>
          record.eventType = .serviceWarning) := by
      rw [List.filter_append]
      exact List.append_nil _
    rw [hmessages, OncePerBucket, hlast]
    exact h.once
  · rw [hmessages]
    exact h.answers.concat fun _ => h.emitted howed
  · rw [hcleared] at hemitted
    cases hemitted

/-- A check keeps the messages paired. -/
theorem Paired.step (h : Paired settings rows monitor) (check : Check) :
    Paired settings rows (checkOnce settings monitor check).1 := by
  rcases checkOnce_cases settings monitor check with hquiet | hwarned | hrecovered
  · exact h.same hquiet.outbox fun hemitted => hquiet.emitted ▸ hemitted
  · exact h.warned hwarned
  · rcases hrecovered.outbox with ⟨-, houtbox⟩ | ⟨-, houtbox⟩
    · exact h.recovered hrecovered.owed hrecovered.emitted houtbox
    · exact h.same houtbox fun _ => hrecovered.owed

theorem paired_initial : Paired settings rows { outbox := rows } := by
  have hnone : messages rows { outbox := rows } = [] := List.drop_length
  refine ⟨le_refl _, ?_, ?_, ?_, nofun⟩
  · rw [hnone]
    exact fun _ hrecord => absurd hrecord List.not_mem_nil
  · rw [hnone]
    exact List.nodup_nil
  · rw [hnone]
    intro before record after hsplit
    exact absurd hsplit (List.append_ne_nil_of_right_ne_nil before (List.cons_ne_nil _ _)).symm

theorem monitored_paired (settings : WarningSettings) (rows : List OperationalRecord)
    (checks : List Check) : Paired settings rows (monitored settings rows checks) := by
  refine runAll_invariant (fun monitor check next h hnext => ?_) paired_initial checks
  cases hnext
  exact h.step check

end Runs

section Flag
variable {settings : WarningSettings} {rows : List OperationalRecord} {monitor : Monitor}
variable {check : Check}

/-- The enqueue of a check, if any, leaves the flag and the outbox in agreement: a recovery is
stored, and a first warning that is stored returns. -/
def KeepsFlag (settings : WarningSettings) (monitor : Monitor) (check : Check) : Prop :=
  (check.seesReady = true → monitor.service.warningEmitted = true →
    keyTaken monitor.outbox (recoveredRecord check.now).idempotencyKey = false ∧
      check.enqueue ≠ .raises false) ∧
  (WarningDue settings monitor check → monitor.service.warningEmitted = false →
    keyTaken monitor.outbox (warningRecord settings check.now).idempotencyKey = false →
      check.enqueue ≠ .raises true)

instance (settings : WarningSettings) (monitor : Monitor) (check : Check) :
    Decidable (KeepsFlag settings monitor check) :=
  inferInstanceAs (Decidable (_ ∧ _))

/-- The flag is set while the last message is a warning. -/
def Flagged (rows : List OperationalRecord) (monitor : Monitor) : Prop :=
  owed (messages rows monitor) → monitor.service.warningEmitted = true

/-- A check that keeps the flag, and no other one, leaves a warning flagged. -/
theorem flagged_step (h : Paired settings rows monitor) (hflag : Flagged rows monitor) :
    Flagged rows (checkOnce settings monitor check).1 ↔ KeepsFlag settings monitor check := by
  constructor
  · intro hnext
    refine ⟨fun hready howed => ?_, fun hdue hclear hfree hraises => ?_⟩
    · rcases checkOnce_cases settings monitor check with hquiet | hwarned | hrecovered
      · exact absurd howed (by simp [hquiet.ready hready])
      · exact absurd hready (by simp [hwarned.due.unready])
      · rcases hrecovered.outbox with ⟨hstored, -⟩ | ⟨-, houtbox⟩
        · exact hstored
        · -- the recovery is lost: the flag is cleared and the warning still the last message
          have hlost := hnext (messages_same houtbox ▸ h.emitted howed)
          rw [hrecovered.emitted] at hlost
          cases hlost
    · rw [hdue.checkOnce_eq] at hnext
      have houtbox : (emitWarning settings monitor check).1.outbox =
          monitor.outbox ++ [warningRecord settings check.now] := by
        simp [emitWarning, enqueueOperationalEvent, hfree, hraises]
      have hlost := hnext (messages_append h.kept houtbox ▸ (owed_concat _ _).mpr rfl)
      simp [emitWarning, enqueueOperationalEvent, hfree, hraises, hclear] at hlost
  · intro hkeeps howed
    rcases checkOnce_cases settings monitor check with hquiet | hwarned | hrecovered
    · rw [messages_same hquiet.outbox] at howed
      rw [hquiet.emitted]
      exact hflag howed
    · rcases hwarned.emitted with hemitted | ⟨hraises, hsame⟩
      · exact hemitted
      · cases hclear : monitor.service.warningEmitted with
        | true => rw [hsame, hclear]
        | false => exact absurd hraises (hkeeps.2 hwarned.due hclear hwarned.free)
    · obtain ⟨hfree, hstored⟩ := hkeeps.1 hrecovered.ready hrecovered.owed
      rcases hrecovered.outbox with ⟨-, houtbox⟩ | ⟨htaken | hraises, -⟩
      · rw [messages_append h.kept houtbox] at howed
        exact absurd howed (not_owed_recovered _ rfl)
      · rw [hfree] at htaken
        cases htaken
      · exact absurd hraises hstored

end Flag

section Outages
variable {settings : WarningSettings} {rows : List OperationalRecord}

/-- A check after the given ones that sees readiness, and whose enqueue would succeed. -/
structure Succeeds (checks : List Check) (outbox : List OperationalRecord) (check : Check) : Prop where
  later : ∀ earlier ∈ checks, earlier.now ≤ check.now ∧ earlier.monotonic ≤ check.monotonic
  ready : check.seesReady = true
  returns : check.enqueue = .returns
  free : keyTaken outbox (recoveredRecord check.now).idempotencyKey = false

/-- Wherever the checks stand, the next one that sees readiness and whose enqueue succeeds leaves
exactly one recovery for the last warned outage. -/
def RecoversOutages (settings : WarningSettings) (rows : List OperationalRecord)
    (checks : List Check) : Prop :=
  ∀ before, before <+: checks → ∀ check,
    Succeeds before (monitored settings rows before).outbox check →
      RecoveredOnce (messages rows (monitored settings rows (before ++ [check])))

theorem recoveredKey_injective {m n : Nat}
    (h : (recoveredRecord (m * 1000000)).idempotencyKey =
      (recoveredRecord (n * 1000000)).idempotencyKey) : m = n := by
  have hsecond : ∀ k : Nat, secondOf (k * 1000000) = k :=
    fun k => Int.mul_tdiv_cancel _ (by decide)
  unfold recoveredRecord at h
  simp only [hsecond] at h
  have hlist := congrArg String.toList h
  simp only [String.toList_append] at hlist
  have hdigits : (toString (m : Int)).toList = (toString (n : Int)).toList := by simpa using hlist
  exact toString_nat_injective (String.toList_inj.mp hdigits)

/-- Some later second is not used by any row. -/
theorem exists_succeeds (checks : List Check) (outbox : List OperationalRecord) :
    ∃ check, Succeeds checks outbox check := by
  obtain ⟨clock, hclock⟩ : ∃ clock : Nat, ∀ earlier ∈ checks, earlier.now ≤ clock := by
    induction checks with
    | nil => exact ⟨0, fun _ h => absurd h List.not_mem_nil⟩
    | cons first rest ih =>
      obtain ⟨clock, hclock⟩ := ih
      refine ⟨clock + first.now.toNat, fun earlier hearlier => ?_⟩
      rcases List.mem_cons.mp hearlier with rfl | hearlier
      · omega
      · have := hclock earlier hearlier
        omega
  obtain ⟨monotonic, hmonotonic⟩ : ∃ monotonic, ∀ earlier ∈ checks, earlier.monotonic ≤ monotonic := by
    induction checks with
    | nil => exact ⟨0, fun _ h => absurd h List.not_mem_nil⟩
    | cons first rest ih =>
      obtain ⟨monotonic, hmonotonic⟩ := ih fun earlier h => hclock earlier (List.mem_cons_of_mem _ h)
      refine ⟨max first.monotonic monotonic, fun earlier hearlier => ?_⟩
      rcases List.mem_cons.mp hearlier with rfl | hearlier
      · exact le_max_left _ _
      · exact (hmonotonic earlier hearlier).trans (le_max_right _ _)
  let key := fun n : Nat => (recoveredRecord ((clock + n : Nat) * 1000000)).idempotencyKey
  have hinfinite : (Set.range key).Infinite := Set.infinite_range_of_injective fun m n h =>
    Nat.add_left_cancel (recoveredKey_injective h)
  obtain ⟨_, ⟨n, rfl⟩, hfree⟩ := hinfinite.exists_notMem_finset
    (outbox.map OperationalRecord.idempotencyKey).toFinset
  refine ⟨{ ready := true, monotonic := monotonic, now := (clock + n : Nat) * 1000000 }, ?_, rfl, rfl, ?_⟩
  · intro earlier hearlier
    refine ⟨?_, hmonotonic earlier hearlier⟩
    have := hclock earlier hearlier
    push_cast
    omega
  · rw [List.mem_toFinset] at hfree
    refine Bool.eq_false_iff.mpr fun htaken => hfree ?_
    obtain ⟨row, hrow, hkey⟩ := List.any_eq_true.mp htaken
    exact List.mem_map.mpr ⟨row, hrow, of_decide_eq_true hkey⟩

theorem monitored_concat (settings : WarningSettings) (rows : List OperationalRecord)
    (checks : List Check) (check : Check) :
    monitored settings rows (checks ++ [check]) =
      (checkOnce settings (monitored settings rows checks) check).1 := by
  rw [monitored, runAll_append]
  rfl

/-- Outages get their one recovery exactly from where warnings are flagged. -/
theorem recovers_iff_flagged (before : List Check) :
    (∀ check, Succeeds before (monitored settings rows before).outbox check →
      RecoveredOnce (messages rows (monitored settings rows (before ++ [check])))) ↔
      Flagged rows (monitored settings rows before) := by
  have h := monitored_paired settings rows before
  generalize hmonitor : monitored settings rows before = monitor at h ⊢
  constructor
  · intro hall howed
    obtain ⟨check, hcheck⟩ := exists_succeeds before monitor.outbox
    by_contra hclear
    have honce := hall check hcheck
    rw [monitored_concat, hmonitor] at honce
    rcases checkOnce_cases settings monitor check with hquiet | hwarned | hrecovered
    · -- nothing is enqueued although the last message is a warning
      rw [messages_same hquiet.outbox] at honce
      obtain ⟨warning, hlast, hwarning⟩ := howed
      obtain ⟨earlier, hsplit⟩ := List.getLast?_eq_some_iff.mp hlast
      have hlength := honce earlier warning [] hsplit hwarning
        fun _ hrecord => absurd hrecord List.not_mem_nil
      exact absurd hlength (by decide)
    · exact absurd hcheck.ready (by simp [hwarned.due.unready])
    · exact hclear hrecovered.owed
  · intro hflag check hcheck
    rw [monitored_concat, hmonitor]
    refine (h.step check).answers.recoveredOnce fun howed => ?_
    have hkeeps : KeepsFlag settings monitor check := by
      refine ⟨fun _ _ => ⟨hcheck.free, ?_⟩, fun hdue => ?_⟩
      · rw [hcheck.returns]
        decide
      · exact absurd hcheck.ready (by simp [hdue.unready])
    have hemitted := (flagged_step h hflag).mpr hkeeps howed
    rcases checkOnce_cases settings monitor check with hquiet | hwarned | hrecovered
    · rw [hquiet.emitted, hquiet.ready hcheck.ready] at hemitted
      cases hemitted
    · exact absurd hcheck.ready (by simp [hwarned.due.unready])
    · rw [hrecovered.emitted] at hemitted
      cases hemitted

/-- Warnings come once in a bucket and recoveries only after a warning, whatever the enqueues
do; every warned outage gets its recovery exactly if no enqueue parts the flag from the outbox. -/
theorem warnings_paired_iff (settings : WarningSettings) (rows : List OperationalRecord)
    (checks : List Check) :
    OncePerBucket settings (messages rows (monitored settings rows checks)) ∧
      WarnedBetween (messages rows (monitored settings rows checks)) ∧
      (RecoversOutages settings rows checks ↔
        RunMeets (monitorStep settings) (KeepsFlag settings) { outbox := rows } checks) := by
  have h := monitored_paired settings rows checks
  refine ⟨h.once, h.answers.warnedBetween, ?_⟩
  have hgood : Paired settings rows { outbox := rows } ∧ Flagged rows { outbox := rows } := by
    refine ⟨paired_initial, fun howed => ?_⟩
    obtain ⟨record, hlast, -⟩ := howed
    rw [messages, List.drop_length] at hlast
    cases hlast
  rw [runMeets_iff_good (P := fun monitor => Paired settings rows monitor ∧ Flagged rows monitor)
    (fun monitor check hmonitor => ?_) hgood]
  · refine forall_congr' fun before => imp_congr_right fun _ => ?_
    rw [recovers_iff_flagged]
    exact ⟨fun hflag => ⟨monitored_paired settings rows before, hflag⟩, And.right⟩
  · have hstep : Flagged rows (checkOnce settings monitor check).1 ↔ KeepsFlag settings monitor check :=
      flagged_step hmonitor.1 hmonitor.2
    exact ⟨fun hnext => hstep.mp hnext.2, fun hkeeps => ⟨hmonitor.1.step check, hstep.mpr hkeeps⟩⟩

/-- Two outages. The first warning is refused and stored later, the one of the next bucket raises
after its commit, and the second outage ends before its warning is due again. -/
def answeredOutages : List Check :=
  [⟨false, false, 0, 0, .returns⟩, ⟨false, false, 300 * 1000000, 300 * 1000000, .raises false⟩,
    ⟨false, false, 330 * 1000000, 330 * 1000000, .returns⟩,
    ⟨false, false, 1800 * 1000000, 1800 * 1000000, .raises true⟩,
    ⟨false, true, 1830 * 1000000, 1830 * 1000000, .returns⟩,
    ⟨false, false, 1860 * 1000000, 1860 * 1000000, .returns⟩,
    ⟨false, false, 2160 * 1000000, 2160 * 1000000, .returns⟩,
    ⟨false, true, 2190 * 1000000, 2190 * 1000000, .returns⟩]

example : RunMeets (monitorStep {}) (KeepsFlag {}) { outbox := [] } answeredOutages ∧
    (messages [] (monitored {} [] answeredOutages)).map OperationalRecord.idempotencyKey =
      ["service:market-data-unready:0", "service:market-data-unready:1",
        "service:market-data-recovered:1830"] := by
  decide +kernel

/-- A warning at 5:00; readiness at 5:30, when the database refuses the recovery. -/
def refusedRecovery : List Check :=
  [⟨false, false, 0, 0, .returns⟩, ⟨false, false, 300 * 1000000, 300 * 1000000, .returns⟩,
    ⟨false, true, 330 * 1000000, 330 * 1000000, .raises false⟩]

/-- At 6:00 the database is back and nothing is enqueued. -/
theorem refused_recovery_is_lost : ¬RecoversOutages {} [] refusedRecovery := by
  intro hrecovers
  have honce := hrecovers refusedRecovery List.prefix_rfl
    ⟨false, true, 360 * 1000000, 360 * 1000000, .returns⟩ ⟨by decide, rfl, rfl, by decide +kernel⟩
  have hmessages : messages [] (monitored {} [] (refusedRecovery ++
      [⟨false, true, 360 * 1000000, 360 * 1000000, .returns⟩])) =
        [warningRecord {} (300 * 1000000)] := by
    decide +kernel
  rw [hmessages] at honce
  have hlength := honce [] _ [] rfl rfl fun _ hrecord => absurd hrecord List.not_mem_nil
  exact absurd hlength (by decide)

end Outages

end StructurePulse.Operations
