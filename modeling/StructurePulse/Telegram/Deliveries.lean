import StructurePulse.Library.OrderedLists
import StructurePulse.Library.Tables
import StructurePulse.Market

/-!
# The notification tables

The operations of the notification repository, each one transaction. `locked` names the
rows that other transactions hold at that moment; `SKIP LOCKED` leaves them out. A row
that a transaction holds is changed by no other one, so a transaction is one step.
-/

namespace StructurePulse.Telegram
open Library
set_option autoImplicit false

section Records

inductive OutboxStatus where
  | pending
  | expanded
  deriving Repr, DecidableEq

inductive DeliveryStatus where
  | pending
  | sending
  | sent
  | failed
  | skipped
  | deliveryUnknown
  deriving Repr, DecidableEq

def DeliveryStatus.isFinal : DeliveryStatus → Bool
  | .pending => false
  | .sending => false
  | _ => true

/-- `TelegramUserSettingsRecord`; a time of day counts microseconds from midnight. -/
structure UserSettings where
  userId : Int
  language : String := "ru"
  minimumScore : Int := 70
  scheduleTimezone : String := "Europe/Warsaw"
  scheduleStart : Int := 7 * oneHour
  scheduleEnd : Int := 20 * oneHour
  paused : Bool := false
  deriving Repr, DecidableEq

/-- `NotificationOutboxRecord`; `payload` is the rendered event, `score` its field of that
name if it has one. -/
structure OutboxRecord where
  id : Nat
  eventType : String
  payload : String
  score : Option Int := none
  status : OutboxStatus := .pending
  availableAt : Int
  processedAt : Option Int := none
  deriving Repr, DecidableEq

structure DeliveryRecord where
  id : Nat
  outboxId : Nat
  userId : Int
  status : DeliveryStatus := .pending
  attempts : Nat := 0
  nextAttemptAt : Int
  telegramMessageId : Option Int := none
  lastError : Option String := none
  sentAt : Option Int := none
  updatedAt : Int
  deriving Repr, DecidableEq

structure Tables where
  users : List UserSettings := []
  outbox : List OutboxRecord := []
  deliveries : List DeliveryRecord := []
  nextOutboxId : Nat := 1
  nextDeliveryId : Nat := 1
  deriving Repr, DecidableEq

/-- What `claim_delivery` hands to the service. -/
structure PendingDelivery where
  deliveryId : Nat
  outboxId : Nat
  userId : Int
  eventType : String
  payload : String
  language : String
  attempts : Nat
  deriving Repr, DecidableEq

end Records

section Policy
-- `now.astimezone(ZoneInfo(timezone)).time()`, or none for an unknown zone
variable (localTime : String → Int → Option Int)

def notificationWindowIsOpen (now : Int) (user : UserSettings) : Bool :=
  match localTime user.scheduleTimezone now with
  | none => false
  | some time =>
    if user.scheduleStart = user.scheduleEnd then true
    else if user.scheduleStart < user.scheduleEnd then
      decide (user.scheduleStart ≤ time ∧ time < user.scheduleEnd)
    else decide (time ≥ user.scheduleStart ∨ time < user.scheduleEnd)

def deliveryPolicy (outbox : OutboxRecord) (user : UserSettings) (now : Int) :
    DeliveryStatus × Option String :=
  if user.paused then (.skipped, some "notifications_paused")
  else if outbox.eventType ≠ "new_signal" then (.pending, none)
  else if outbox.score.getD 0 < user.minimumScore then (.skipped, some "below_score_threshold")
  else if !notificationWindowIsOpen localTime now user then
    (.skipped, some "outside_notification_schedule")
  else (.pending, none)

end Policy

section Expansion
variable (localTime : String → Int → Option Int)

/-- The insert with `ON CONFLICT DO NOTHING` on `(outbox_id, user_id)`. -/
def insertDelivery (tables : Tables) (outbox : OutboxRecord) (now : Int) (user : UserSettings) :
    Tables :=
  if tables.deliveries.any fun row => decide (row.outboxId = outbox.id ∧ row.userId = user.userId)
  then tables
  else
    { tables with
      deliveries := tables.deliveries ++ [{
        id := tables.nextDeliveryId
        outboxId := outbox.id
        userId := user.userId
        status := (deliveryPolicy localTime outbox user now).1
        nextAttemptAt := now
        lastError := (deliveryPolicy localTime outbox user now).2
        updatedAt := now }]
      nextDeliveryId := tables.nextDeliveryId + 1 }

/-- The loop body of `materialize_pending`. -/
def expand (users : List UserSettings) (now : Int) (tables : Tables) (outbox : OutboxRecord) :
    Tables :=
  let inserted := users.foldl (fun tables user => insertDelivery localTime tables outbox now user)
    tables
  { inserted with
    outbox := replaceRow OutboxRecord.id inserted.outbox
      { outbox with status := .expanded, processedAt := some now } }

def pendingOutbox (tables : Tables) (batchSize : Nat) (now : Int) (locked : Nat → Bool) :
    List OutboxRecord :=
  (sortedBy OutboxRecord.id (tables.outbox.filter fun row =>
    decide (row.status = .pending ∧ row.availableAt ≤ now) && !locked row.id)).take batchSize

def listedUsers (tables : Tables) (userIds : List Int) : List UserSettings :=
  tables.users.filter fun user => decide (user.userId ∈ userIds)

def materializePending (tables : Tables) (userIds : List Int) (batchSize : Nat) (now : Int)
    (locked : Nat → Bool) : Tables :=
  if userIds.isEmpty then tables
  else
    (pendingOutbox tables batchSize now locked).foldl
      (expand localTime (listedUsers tables userIds) now) tables

end Expansion

section Updates

/-- An update of the rows that satisfy a condition. -/
def updateWhere (test : DeliveryRecord → Bool) (change : DeliveryRecord → DeliveryRecord)
    (rows : List DeliveryRecord) : List DeliveryRecord :=
  rows.map fun row => if test row then change row else row

def recoverStaleSending (tables : Tables) (now cutoff : Int) (locked : Nat → Bool) : Tables :=
  { tables with
    deliveries := updateWhere
      (fun row => decide (row.status = .sending ∧ row.updatedAt < cutoff) && !locked row.id)
      (fun row => { row with
        status := .deliveryUnknown
        lastError := some "stale_sending_state_not_retried"
        updatedAt := now })
      tables.deliveries }

def userOf (tables : Tables) (row : DeliveryRecord) : Option UserSettings :=
  lookup UserSettings.userId tables.users row.userId

def skipPaused (tables : Tables) (now : Int) (locked : Nat → Bool) : Tables :=
  { tables with
    deliveries := updateWhere
      (fun row => decide (row.status = .pending) && (userOf tables row).any (·.paused) &&
        !locked row.id)
      (fun row => { row with
        status := .skipped, lastError := some "notifications_paused", updatedAt := now })
      tables.deliveries }

def failExhausted (tables : Tables) (maxAttempts : Nat) (now : Int) (locked : Nat → Bool) : Tables :=
  { tables with
    deliveries := updateWhere
      (fun row => decide (row.status = .pending ∧ row.attempts ≥ maxAttempts) && !locked row.id)
      (fun row => { row with
        status := .failed, lastError := some "max_attempts_exhausted", updatedAt := now })
      tables.deliveries }

/-- The rows the claim may take, with the rows they are joined with. -/
def claimable (tables : Tables) (maxAttempts : Nat) (now : Int) (locked : Nat → Bool) :
    List (DeliveryRecord × OutboxRecord × UserSettings) :=
  (sortedBy DeliveryRecord.id (tables.deliveries.filter fun row =>
    decide (row.status = .pending ∧ row.nextAttemptAt ≤ now ∧ row.attempts < maxAttempts) &&
      !locked row.id)).filterMap fun row =>
    match lookup OutboxRecord.id tables.outbox row.outboxId, userOf tables row with
    | some outbox, some user => some (row, outbox, user)
    | _, _ => none

/-- The last part of `claim_delivery`. -/
def claimFirst (tables : Tables) (maxAttempts : Nat) (now : Int) (locked : Nat → Bool) :
    Tables × Option PendingDelivery :=
  match (claimable tables maxAttempts now locked).head? with
  | none => (tables, none)
  | some (row, outbox, user) =>
    ({ tables with
        deliveries := updateWhere (fun other => decide (other.id = row.id))
          (fun other => { other with
            status := .sending, attempts := other.attempts + 1, updatedAt := now })
          tables.deliveries },
      some {
        deliveryId := row.id
        outboxId := outbox.id
        userId := row.userId
        eventType := outbox.eventType
        payload := outbox.payload
        language := user.language
        attempts := row.attempts + 1 })

def claimDelivery (tables : Tables) (maxAttempts : Nat) (now : Int) (locked : Nat → Nat → Bool) :
    Tables × Option PendingDelivery :=
  claimFirst (failExhausted (skipPaused tables now (locked 0)) maxAttempts now (locked 1))
    maxAttempts now (locked 2)

/-- The part of the mark operations they share: only a row that is still being sent. -/
def updateSending (tables : Tables) (deliveryId : Nat)
    (change : DeliveryRecord → DeliveryRecord) : Tables :=
  { tables with
    deliveries := updateWhere (fun row => decide (row.id = deliveryId ∧ row.status = .sending))
      change tables.deliveries }

def markRetry (tables : Tables) (deliveryId : Nat) (error : String) (now retryAfter : Int) :
    Tables :=
  updateSending tables deliveryId fun row => { row with
    status := .pending
    lastError := some (error.take 2000).toString
    nextAttemptAt := now + retryAfter
    updatedAt := now }

/-- `_finish_delivery`. -/
def finishDelivery (tables : Tables) (deliveryId : Nat) (status : DeliveryStatus)
    (messageId : Option Int) (error : Option String) (now : Int) : Tables :=
  updateSending tables deliveryId fun row => { row with
    status := status
    telegramMessageId := messageId
    lastError := error.bind fun text =>
      if text = "" then none else some (text.take 2000).toString
    sentAt := if status = .sent then some now else none
    updatedAt := now }

def markSent (tables : Tables) (deliveryId : Nat) (messageId : Int) (now : Int) : Tables :=
  finishDelivery tables deliveryId .sent (some messageId) none now

def markFailed (tables : Tables) (deliveryId : Nat) (error : String) (outcomeUnknown : Bool)
    (now : Int) : Tables :=
  finishDelivery tables deliveryId (if outcomeUnknown then .deliveryUnknown else .failed) none
    (some error) now

end Updates

end StructurePulse.Telegram
