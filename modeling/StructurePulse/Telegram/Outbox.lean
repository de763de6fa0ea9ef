import StructurePulse.Library.Transactions
import StructurePulse.Telegram.Deliveries

/-!
# Outbox services at work

Any number of services run against the tables. One action is one transaction, the start
or the end of a send call, a crash, or a change made by another component; a run is any
list of actions. `sends` logs every send call and `expansions` every expanded record.
-/

namespace StructurePulse.Telegram
open Library
set_option autoImplicit false

/-- How a send call ended. -/
inductive SendOutcome where
  | success (messageId : Int)
  | retryable (error : String) (retryAfter : Int)
  | permanent (error : String)
  | unknown (error : String)
  deriving Repr, DecidableEq

def SendOutcome.isRetryable : SendOutcome → Bool
  | .retryable _ _ => true
  | _ => false

/-- Where a service stands in `run` and `run_once`. -/
inductive Phase where
  | starting
  | idle
  | materialized
  | claimed (delivery : PendingDelivery)
  | sending (delivery : PendingDelivery)
  | answered (delivery : PendingDelivery) (outcome : SendOutcome)
  deriving Repr, DecidableEq

/-- The delivery a service works on. -/
def Phase.delivery : Phase → Option PendingDelivery
  | .claimed delivery => some delivery
  | .sending delivery => some delivery
  | .answered delivery _ => some delivery
  | _ => none

/-- One call of `send`; without an outcome while it runs, and for ever after a crash. -/
structure SendAttempt where
  deliveryId : Nat
  attempt : Nat
  outcome : Option SendOutcome := none
  deriving Repr, DecidableEq

structure World where
  tables : Tables := {}
  phase : Nat → Phase := fun _ => .starting
  sends : List SendAttempt := []
  expansions : List (Nat × List Int) := []

inductive Action where
  | recover (service : Nat) (now cutoff : Int) (locked : Nat → Bool)
  | materialize (service : Nat) (userIds : List Int) (batchSize : Nat) (now : Int)
      (locked : Nat → Bool)
  | claim (service : Nat) (now : Int) (locked : Nat → Nat → Bool)
  | send (service : Nat)
  | answer (service : Nat) (outcome : SendOutcome)
  | mark (service : Nat) (now : Int)
  | crash (service : Nat)
  | enqueue (eventType payload : String) (score : Option Int) (availableAt : Int)
  | configure (user : UserSettings)

def World.goto (world : World) (service : Nat) (phase : Phase) : World :=
  { world with phase := Function.update world.phase service phase }

/-- The outcome of the running call of a delivery. -/
def recordOutcome (sends : List SendAttempt) (delivery : PendingDelivery) (outcome : SendOutcome) :
    List SendAttempt :=
  sends.map fun entry =>
    if entry.deliveryId = delivery.deliveryId ∧ entry.attempt = delivery.attempts then
      { entry with outcome := some outcome }
    else entry

/-- What the service does with the answer: the `except` branches of `run_once`. -/
def markOutcome (retryBase : Int) (tables : Tables) (delivery : PendingDelivery) (now : Int) :
    SendOutcome → Tables
  | .success messageId => markSent tables delivery.deliveryId messageId now
  | .retryable error retryAfter =>
    markRetry tables delivery.deliveryId error now
      (max retryAfter (retryBase * 2 ^ (delivery.attempts - 1)))
  | .permanent error => markFailed tables delivery.deliveryId error false now
  | .unknown error => markFailed tables delivery.deliveryId error true now

/-- A setting row is inserted, or replaced if the user has one. -/
def saveUser (tables : Tables) (user : UserSettings) : Tables :=
  if (lookup UserSettings.userId tables.users user.userId).isSome then
    { tables with users := replaceRow UserSettings.userId tables.users user }
  else { tables with users := tables.users ++ [user] }

section Steps
variable (localTime : String → Int → Option Int) (maxAttempts : Nat) (retryBase : Int)

/-- The listed ids that the settings table has, for the log. -/
def configuredIds (tables : Tables) (userIds : List Int) : List Int :=
  (tables.users.map UserSettings.userId).filter fun userId => decide (userId ∈ userIds)

theorem configuredIds_eq (tables : Tables) (userIds : List Int) :
    configuredIds tables userIds = (listedUsers tables userIds).map UserSettings.userId :=
  List.filter_map

/-- An action that the phase of its service does not allow does nothing. -/
def step (world : World) : Action → Except Unit World
  | .recover service now cutoff locked =>
    match world.phase service with
    | .starting =>
      .ok { world.goto service .idle with
        tables := recoverStaleSending world.tables now cutoff locked }
    | _ => .error ()
  | .materialize service userIds batchSize now locked =>
    match world.phase service with
    | .idle =>
      .ok { world.goto service .materialized with
        tables := materializePending localTime world.tables userIds batchSize now locked
        expansions := world.expansions ++
          if userIds.isEmpty then []
          else (pendingOutbox world.tables batchSize now locked).map fun outbox =>
            (outbox.id, configuredIds world.tables userIds) }
    | _ => .error ()
  | .claim service now locked =>
    match world.phase service with
    | .materialized =>
      match claimDelivery world.tables maxAttempts now locked with
      | (tables, none) => .ok { world.goto service .idle with tables := tables }
      | (tables, some delivery) => .ok { world.goto service (.claimed delivery) with tables := tables }
    | _ => .error ()
  | .send service =>
    match world.phase service with
    | .claimed delivery =>
      .ok { world.goto service (.sending delivery) with
        sends := world.sends ++ [{ deliveryId := delivery.deliveryId, attempt := delivery.attempts }] }
    | _ => .error ()
  | .answer service outcome =>
    match world.phase service with
    | .sending delivery =>
      .ok { world.goto service (.answered delivery outcome) with
        sends := recordOutcome world.sends delivery outcome }
    | _ => .error ()
  | .mark service now =>
    match world.phase service with
    | .answered delivery outcome =>
      .ok { world.goto service .idle with
        tables := markOutcome retryBase world.tables delivery now outcome }
    | _ => .error ()
  | .crash service => .ok (world.goto service .starting)
  | .enqueue eventType payload score availableAt =>
    .ok { world with
      tables := { world.tables with
        outbox := world.tables.outbox ++ [{
          id := world.tables.nextOutboxId
          eventType := eventType
          payload := payload
          score := score
          availableAt := availableAt }]
        nextOutboxId := world.tables.nextOutboxId + 1 } }
  | .configure user => .ok { world with tables := saveUser world.tables user }

/-- The world after a list of actions, from empty tables and starting services. -/
def run (actions : List Action) : World :=
  runAll (step localTime maxAttempts retryBase) {} actions

end Steps

end StructurePulse.Telegram
