import StructurePulse.Library.OrderedLists
import StructurePulse.Store.Database

/-!
# The operations of the signal repository

Each operation is one transaction: it returns the new database and its result, or
raises, and then nothing of it is kept. The `_ok` lemmas say once what a
transaction that commits has done.
-/

namespace StructurePulse.Store
open Signals Strategy Library
set_option autoImplicit false

section Publication

structure SignalPublicationResult where
  prepared : Nat := 0
  suppressed : Nat := 0
  deriving Repr, DecidableEq

def SignalRecord.observation (signal : SignalRecord) : SignalObservation where
  symbol := signal.symbol
  status := signal.status
  createdAt := signal.createdAt

/-- The instant before which a finished signal is of no consequence. -/
def earliest (config : SignalPolicyConfig) (publicationTime : Int) : Int :=
  publicationTime -
    max (max oneHour (minutes config.cooldownMinutes)) (minutes config.burstWindowMinutes)

/-- The rows the publication query loads, as observations. -/
def observe (signals : List SignalRecord) (earliest : Int) : List SignalObservation :=
  (signals.filter fun s => s.status.isActive || decide (s.createdAt > earliest)).map
    SignalRecord.observation

/-- `f"candidate:{record.id}:publication"`. -/
def publicationKey (candidateId : Nat) : String := s!"candidate:{candidateId}:publication"

/-- The database and the local variables of the publication loop. -/
structure Publishing where
  db : Database
  observations : List SignalObservation
  result : SignalPublicationResult := {}
  deriving Repr, DecidableEq

def fundingRateOf (db : Database) (record : SignalCandidateRecord) : ℚ :=
  ((db.findSnapshot record.analysisSnapshotId).bind (·.fundingRate)).getD 0

def fundingIntervalOf (db : Database) (record : SignalCandidateRecord) : Int :=
  ((db.findInstrument record.symbol).map (·.fundingIntervalMinutes)).getD 480

def publicationEvent (signal : SignalRecord) (decision : PublicationDecision)
    (publicationTime : Int) : SignalEventRecord where
  signalId := signal.id
  eventType := if decision.allowed then "signal_prepared" else "signal_suppressed"
  statusFrom := none
  statusTo := signal.status
  eventTime := publicationTime
  sourceEventId := none
  idempotencyKey := publicationKey signal.candidateId
  payload := match decision.reason with
    | some reason => [("reason", .text reason.text)]
    | none => []

/-- One pass of the loop over the accepted candidates. -/
def publishOne (config : SignalPolicyConfig) (publicationTime : Int) (state : Publishing)
    (pair : SignalCandidateRecord × SignalCandidate) : Except StoreError Publishing := do
  let (record, candidate) := pair
  let decision := evaluatePublication candidate state.observations publicationTime config
  let status := if decision.allowed then SignalStatus.preparing else .suppressed
  let signal ← signalRecord state.db.nextSignalId record status decision.reason publicationTime
    (fundingRateOf state.db record) (fundingIntervalOf state.db record)
  let db ← state.db.insertSignal signal
  let db ← db.insertEvent (publicationEvent signal decision publicationTime)
  let observations := state.observations ++ [⟨signal.symbol, signal.status, publicationTime⟩]
  if decision.allowed then do
    let trade ← virtualTrade signal record
    let db ← db.insertTrade trade
    return { db := db, observations := observations,
             result := { state.result with prepared := state.result.prepared + 1 } }
  else
    return { db := db, observations := observations,
             result := { state.result with suppressed := state.result.suppressed + 1 } }

def accepted (candidates : List (SignalCandidateRecord × SignalCandidate)) :
    List (SignalCandidateRecord × SignalCandidate) :=
  candidates.filter fun pair => pair.2.status = .accepted ∧ pair.2.tradePlan.isSome

/-- The part of `publish_candidates` after the query. -/
def publishObserved (db : Database) (observations : List SignalObservation)
    (candidates : List (SignalCandidateRecord × SignalCandidate)) (config : SignalPolicyConfig)
    (publicationTime : Int) : Except StoreError (Database × SignalPublicationResult) := do
  let state ← (accepted candidates).foldlM (publishOne config publicationTime)
    { db := db, observations := observations }
  return (state.db, state.result)

def publishCandidates (db : Database) (candidates : List (SignalCandidateRecord × SignalCandidate))
    (config : SignalPolicyConfig) (publicationTime : Int) :
    Except StoreError (Database × SignalPublicationResult) :=
  if (accepted candidates).isEmpty then .ok (db, {})
  else publishObserved db (observe db.signals (earliest config publicationTime)) candidates config
    publicationTime

/-- What a committed pass has added: a signal with its first event, and a virtual
trade exactly when the publication was allowed. -/
structure Published (state next : Publishing) (record : SignalCandidateRecord) (allowed : Bool)
    (publicationTime : Int) (signal : SignalRecord) (event : SignalEventRecord)
    (trades : List VirtualTradeRecord) : Prop where
  id : signal.id = state.db.nextSignalId
  candidateId : signal.candidateId = record.id
  symbol : signal.symbol = record.symbol
  createdAt : signal.createdAt = publicationTime
  version : signal.version = 1
  closedAt : signal.closedAt = none
  status : signal.status = if allowed then .preparing else .suppressed
  eventSignal : event.signalId = signal.id
  eventFrom : event.statusFrom = none
  eventTo : event.statusTo = signal.status
  eventKey : event.idempotencyKey = publicationKey record.id
  keyFree : state.db.findEvent event.idempotencyKey = none
  candidate : (state.db.findCandidate record.id).isSome = true
  candidateFree : ∀ other ∈ state.db.signals, other.candidateId ≠ record.id
  activeFree : state.db.activeElsewhere signal = false
  trade : (allowed = false ∧ trades = []) ∨ (allowed = true ∧ ∃ trade, trades = [trade] ∧
    trade.signalId = signal.id ∧ trade.status = .waitingEntry ∧ trade.version = 1)
  observations : next.observations = state.observations ++ [signal.observation]
  db : next.db = { state.db with
    signals := state.db.signals ++ [signal]
    nextSignalId := state.db.nextSignalId + 1
    events := state.db.events ++ [event]
    trades := state.db.trades ++ trades }

theorem signalRecord_ok {id : Nat} {record : SignalCandidateRecord} {status : SignalStatus}
    {reason : Option PublicationReason} {now : Int} {fundingRate : ℚ}
    {fundingIntervalMinutes : Int} {signal : SignalRecord}
    (h : signalRecord id record status reason now fundingRate fundingIntervalMinutes = .ok signal) :
    signal.id = id ∧ signal.candidateId = record.id ∧ signal.symbol = record.symbol ∧
      signal.status = status ∧ signal.createdAt = now ∧ signal.version = 1 ∧
      signal.closedAt = none := by
  unfold signalRecord at h
  split at h
  · cases h
    exact ⟨rfl, rfl, rfl, rfl, rfl, rfl, rfl⟩
  · cases h

theorem virtualTrade_ok {signal : SignalRecord} {record : SignalCandidateRecord}
    {trade : VirtualTradeRecord} (h : virtualTrade signal record = .ok trade) :
    trade.signalId = signal.id ∧ trade.status = .waitingEntry ∧ trade.version = 1 := by
  unfold virtualTrade at h
  split at h
  · cases h
    exact ⟨rfl, rfl, rfl⟩
  · cases h

theorem publishOne_ok {config : SignalPolicyConfig} {publicationTime : Int}
    {state next : Publishing} {record : SignalCandidateRecord} {candidate : SignalCandidate}
    (h : publishOne config publicationTime state (record, candidate) = .ok next) :
    ∃ signal event trades, Published state next record
      (evaluatePublication candidate state.observations publicationTime config).allowed
      publicationTime signal event trades := by
  unfold publishOne at h
  simp only [bind_eq_ok] at h
  obtain ⟨signal, hsignal, db₁, hdb₁, db₂, hdb₂, h⟩ := h
  obtain ⟨hid, hcandidateId, hsymbol, hstatus, hcreated, hversion, hclosed⟩ :=
    signalRecord_ok hsignal
  obtain ⟨hcandidate, hfree, hactive, rfl⟩ := Database.insertSignal_ok hdb₁
  obtain ⟨hkey, rfl⟩ := Database.insertEvent_ok hdb₂
  rw [hcandidateId] at hcandidate hfree
  have hobservation : signal.observation = ⟨signal.symbol, signal.status, publicationTime⟩ := by
    rw [SignalRecord.observation, hcreated]
  split_ifs at h with hallowed
  · simp only [bind_eq_ok] at h
    obtain ⟨trade, htrade, db₃, hdb₃, h⟩ := h
    obtain ⟨htradeId, htradeStatus, htradeVersion⟩ := virtualTrade_ok htrade
    obtain ⟨-, rfl⟩ := Database.insertTrade_ok hdb₃
    cases h
    exact ⟨signal, publicationEvent signal _ publicationTime, [trade], hid, hcandidateId, hsymbol,
      hcreated, hversion, hclosed, hstatus, rfl, rfl, rfl, congrArg publicationKey hcandidateId,
      hkey, hcandidate, hfree, hactive,
      Or.inr ⟨hallowed, trade, rfl, htradeId, htradeStatus, htradeVersion⟩,
      by rw [hobservation], rfl⟩
  · cases h
    exact ⟨signal, publicationEvent signal _ publicationTime, [], hid, hcandidateId, hsymbol,
      hcreated, hversion, hclosed, hstatus, rfl, rfl, rfl, congrArg publicationKey hcandidateId,
      hkey, hcandidate, hfree, hactive, Or.inl ⟨Bool.eq_false_iff.mpr hallowed, rfl⟩,
      by rw [hobservation], by rw [List.append_nil]⟩

end Publication

section Transition

structure SignalTransitionResult where
  applied : Bool
  signalId : Nat
  status : SignalStatus
  deriving Repr, DecidableEq

/-- The keyword arguments of `apply_transition`. -/
structure TransitionRequest where
  signalId : Nat
  target : SignalStatus
  eventTime : Int
  idempotencyKey : String
  eventType : String
  sourceEventId : Option String := none
  payload : Payload := []
  realizedPnl : Option ℚ := none
  fees : Option ℚ := none
  estimatedFunding : Option ℚ := none
  rMultiple : Option ℚ := none
  ambiguous : Option Bool := none
  resolutionNote : Option String := none
  currentStop : Option ℚ := none
  remainingQuantity : Option ℚ := none
  deriving Repr, DecidableEq

/-- `_virtual_trade_target`. -/
def virtualTradeTarget : SignalStatus → Option VirtualTradeStatus
  | .preparing | .active => none
  | .suppressed => some .coverageFailed
  | .expired => some .expired
  | .invalidated => some .invalidated
  | .entered => some .entered
  | .stopped => some .stopped
  | .tp1Reached => some .tp1Reached
  | .stoppedAtBreakeven => some .stoppedAtBreakeven
  | .tp2Completed => some .tp2Completed
  | .ambiguous => some .ambiguous
  | .coverageFailed => some .coverageFailed

/-- The signal columns `apply_transition` writes. -/
def SignalRecord.transitioned (signal : SignalRecord) (nextStatus : SignalStatus)
    (eventTime : Int) : SignalRecord :=
  { signal with
    status := nextStatus
    version := signal.version + 1
    activatedAt := if nextStatus = .active then some eventTime else signal.activatedAt
    enteredAt := if nextStatus = .entered then some eventTime else signal.enteredAt
    tp1ReachedAt := if nextStatus = .tp1Reached then some eventTime else signal.tp1ReachedAt
    closedAt := if nextStatus.isTerminal then some eventTime else signal.closedAt }

/-- The virtual-trade columns `apply_transition` writes. -/
def VirtualTradeRecord.transitioned (trade : VirtualTradeRecord) (status : VirtualTradeStatus)
    (nextStatus : SignalStatus) (request : TransitionRequest) : VirtualTradeRecord :=
  { trade with
    status := status
    version := trade.version + 1
    enteredAt := if nextStatus = .entered then some request.eventTime else trade.enteredAt
    resolvedAt := if nextStatus.isTerminal then some request.eventTime else trade.resolvedAt
    realizedPnl := request.realizedPnl.getD trade.realizedPnl
    fees := request.fees.getD trade.fees
    estimatedFunding := request.estimatedFunding.getD trade.estimatedFunding
    rMultiple := request.rMultiple.getD trade.rMultiple
    ambiguous := request.ambiguous.getD trade.ambiguous
    resolutionNote := request.resolutionNote.or trade.resolutionNote
    currentStop := request.currentStop.getD trade.currentStop
    remainingQuantity := request.remainingQuantity.getD trade.remainingQuantity }

def TransitionRequest.event (request : TransitionRequest) (current next : SignalStatus) :
    SignalEventRecord where
  signalId := request.signalId
  eventType := request.eventType
  statusFrom := some current
  statusTo := next
  eventTime := request.eventTime
  sourceEventId := request.sourceEventId
  idempotencyKey := request.idempotencyKey
  payload := request.payload

/-- `f"signal-event:{idempotency_key}"`. -/
def outboxKey (idempotencyKey : String) : String := s!"signal-event:{idempotencyKey}"

/-- Raises what a transition function raises. -/
def legal {α : Type} (result : Except InvalidTransition α) : Except StoreError α :=
  result.mapError .invalidTransition

/-- The branch of `apply_transition` for a key that is already recorded. -/
def duplicateTransition (db : Database) (request : TransitionRequest)
    (duplicate : SignalEventRecord) : Except StoreError (Database × SignalTransitionResult) :=
  if duplicate.signalId ≠ request.signalId then
    .error (.keyBelongsTo request.idempotencyKey duplicate.signalId)
  else match db.findSignal request.signalId with
    | none => .error (.signalMissing request.signalId)
    | some current => .ok (db, ⟨false, request.signalId, current.status⟩)

/-- The status the virtual trade moves to. -/
def moveTrade (trade : VirtualTradeRecord) (nextStatus : SignalStatus) :
    Except StoreError VirtualTradeStatus :=
  match virtualTradeTarget nextStatus with
  | none => .ok trade.status
  | some tradeTarget => legal (transitionVirtualTrade trade.status tradeTarget)

def TransitionRequest.outboxRow (request : TransitionRequest) (kind : NotificationType)
    (signal : SignalRecord) (trade : VirtualTradeRecord) (candidate : SignalCandidateRecord) :
    NotificationOutboxRecord where
  idempotencyKey := outboxKey request.idempotencyKey
  eventType := kind
  signalId := signal.id
  payload := notificationPayload signal trade candidate request.eventType request.eventTime
  availableAt := request.eventTime

/-- Adds the outbox row when the status notifies and the candidate row is present. -/
def notify (db : Database) (request : TransitionRequest) (signal : SignalRecord)
    (trade : VirtualTradeRecord) : Except StoreError Database :=
  match notificationType signal.status, db.findCandidate signal.candidateId with
  | some kind, some candidate => db.insertOutbox (request.outboxRow kind signal trade candidate)
  | _, _ => .ok db

/-- The branch for a new key: the row updates, the event and the outbox row. -/
def writeTransition (db : Database) (request : TransitionRequest) :
    Except StoreError (Database × SignalTransitionResult) :=
  match db.findSignal request.signalId with
  | none => .error (.signalMissing request.signalId)
  | some signal => do
    let nextStatus ← legal (transitionSignal signal.status request.target)
    match db.findTrade request.signalId with
    | none => .error (.noVirtualTrade request.signalId)
    | some trade => do
      let tradeStatus ← moveTrade trade nextStatus
      let signal' := signal.transitioned nextStatus request.eventTime
      let trade' := trade.transitioned tradeStatus nextStatus request
      let db ← db.updateSignal signal'
      let db := db.updateTrade trade'
      let db ← db.insertEvent (request.event signal.status nextStatus)
      let db ← notify db request signal' trade'
      return (db, ⟨true, request.signalId, nextStatus⟩)

def applyTransition (db : Database) (request : TransitionRequest) :
    Except StoreError (Database × SignalTransitionResult) :=
  match db.findEvent request.idempotencyKey with
  | some duplicate => duplicateTransition db request duplicate
  | none => writeTransition db request

/-- What a committed transition has changed. -/
structure Transitioned (db next : Database) (request : TransitionRequest) (signal : SignalRecord)
    (trade : VirtualTradeRecord) (tradeStatus : VirtualTradeStatus)
    (outbox : List NotificationOutboxRecord) : Prop where
  keyFree : db.findEvent request.idempotencyKey = none
  signalRow : db.findSignal request.signalId = some signal
  tradeRow : db.findTrade request.signalId = some trade
  legal : request.target ∈ signalTransitions signal.status
  tradeMove : (virtualTradeTarget request.target = none ∧ tradeStatus = trade.status) ∨
    virtualTradeTarget request.target = some tradeStatus
  outboxRow : ((db.findCandidate signal.candidateId).isSome = true ∧ ∃ row, outbox = [row] ∧
      row.idempotencyKey = outboxKey request.idempotencyKey ∧ row.signalId = request.signalId) ∨
    (db.findCandidate signal.candidateId = none ∧ outbox = [])
  result : next = { db with
    signals := replaceRow SignalRecord.id db.signals
      (signal.transitioned request.target request.eventTime)
    trades := replaceRow VirtualTradeRecord.signalId db.trades
      (trade.transitioned tradeStatus request.target request)
    events := db.events ++ [request.event signal.status request.target]
    outbox := db.outbox ++ outbox }

theorem legal_ok {α : Type} {result : Except InvalidTransition α} {value : α}
    (h : Store.legal result = .ok value) : result = .ok value := by
  cases result with
  | error e => cases h
  | ok v => cases h; rfl

theorem moveTrade_ok {trade : VirtualTradeRecord} {nextStatus : SignalStatus}
    {tradeStatus : VirtualTradeStatus} (h : moveTrade trade nextStatus = .ok tradeStatus) :
    (virtualTradeTarget nextStatus = none ∧ tradeStatus = trade.status) ∨
      virtualTradeTarget nextStatus = some tradeStatus := by
  unfold moveTrade at h
  split at h
  · cases h
    exact Or.inl ⟨‹_›, rfl⟩
  · obtain ⟨-, rfl⟩ := transitionVirtualTrade_ok.mp (legal_ok h)
    exact Or.inr ‹_›

theorem notify_ok {db next : Database} {request : TransitionRequest} {signal : SignalRecord}
    {trade : VirtualTradeRecord} (h : notify db request signal trade = .ok next) :
    ∃ outbox, (((db.findCandidate signal.candidateId).isSome = true ∧ ∃ row, outbox = [row] ∧
        row.idempotencyKey = outboxKey request.idempotencyKey ∧ row.signalId = signal.id) ∨
      (db.findCandidate signal.candidateId = none ∧ outbox = [])) ∧
      next = { db with outbox := db.outbox ++ outbox } := by
  unfold notify at h
  split at h
  · rename_i candidate _ hcandidate
    exact ⟨_, Or.inl ⟨by rw [hcandidate]; rfl, _, rfl, rfl, rfl⟩, Database.insertOutbox_ok h⟩
  · rename_i hnone
    cases h
    refine ⟨[], Or.inr ⟨?_, rfl⟩, by simp⟩
    -- every status has a notification type, so only the candidate can be missing
    rcases hcandidate : db.findCandidate signal.candidateId with _ | candidate
    · rfl
    · obtain ⟨kind, hkind⟩ : ∃ kind, notificationType signal.status = some kind := by
        cases signal.status <;> exact ⟨_, rfl⟩
      exact absurd hcandidate (hnone kind candidate hkind)

theorem writeTransition_ok {db next : Database} {request : TransitionRequest}
    {result : SignalTransitionResult} (hkey : db.findEvent request.idempotencyKey = none)
    (h : writeTransition db request = .ok (next, result)) :
    result.applied = true ∧ ∃ signal trade tradeStatus outbox,
      Transitioned db next request signal trade tradeStatus outbox := by
  unfold writeTransition at h
  split at h
  · cases h
  rename_i signal hsignal
  obtain ⟨nextStatus, hlegal, h⟩ := bind_eq_ok.mp h
  obtain ⟨htarget, rfl⟩ := transitionSignal_ok.mp (legal_ok hlegal)
  split at h
  · cases h
  rename_i trade htrade
  simp only [bind_eq_ok] at h
  obtain ⟨tradeStatus, hmove, db₁, hdb₁, db₂, hdb₂, db₃, hdb₃, h⟩ := h
  obtain ⟨outbox, houtbox, h₃⟩ := notify_ok hdb₃
  have h₁ := Database.updateSignal_ok hdb₁
  obtain ⟨-, h₂⟩ := Database.insertEvent_ok hdb₂
  subst h₁ h₂ h₃
  cases h
  refine ⟨rfl, signal, trade, tradeStatus, outbox, hkey, hsignal, htrade, htarget,
    moveTrade_ok hmove, ?_, rfl⟩
  refine houtbox.imp_left ?_
  rintro ⟨hcandidate, row, hrow, hrowKey, hrowSignal⟩
  have hid : signal.id = request.signalId := lookup_key hsignal
  exact ⟨hcandidate, row, hrow, hrowKey, hrowSignal.trans hid⟩

/-- A transition that commits either found its key recorded and changed nothing, or
has made one legal move. -/
theorem applyTransition_ok {db next : Database} {request : TransitionRequest}
    {result : SignalTransitionResult} (h : applyTransition db request = .ok (next, result)) :
    (next = db ∧ result.applied = false ∧ (db.findEvent request.idempotencyKey).isSome = true) ∨
    (result.applied = true ∧ ∃ signal trade tradeStatus outbox,
      Transitioned db next request signal trade tradeStatus outbox) := by
  unfold applyTransition at h
  split at h
  · rename_i duplicate hfound
    unfold duplicateTransition at h
    split_ifs at h
    split at h
    · cases h
    · cases h
      exact Or.inl ⟨rfl, rfl, by rw [hfound]; rfl⟩
  · exact Or.inr (writeTransition_ok ‹_› h)

end Transition

section Rows
variable {db next : Database} {request : TransitionRequest} {signal : SignalRecord}
variable {trade : VirtualTradeRecord} {tradeStatus : VirtualTradeStatus}
variable {outbox : List NotificationOutboxRecord}

theorem Transitioned.findSignal (ht : Transitioned db next request signal trade tradeStatus outbox) :
    next.findSignal request.signalId = some (signal.transitioned request.target request.eventTime) := by
  have hid : signal.id = request.signalId := lookup_key ht.signalRow
  have hrow : lookup SignalRecord.id db.signals signal.id = some signal := hid ▸ ht.signalRow
  rw [ht.result, ← hid]
  exact @lookup_replaceRow_self _ _ _ SignalRecord.id db.signals signal
    (signal.transitioned request.target request.eventTime) hrow

theorem Transitioned.findTrade (ht : Transitioned db next request signal trade tradeStatus outbox) :
    next.findTrade request.signalId =
      some (trade.transitioned tradeStatus request.target request) := by
  have hid : trade.signalId = request.signalId := lookup_key ht.tradeRow
  have hrow : lookup VirtualTradeRecord.signalId db.trades trade.signalId = some trade :=
    hid ▸ ht.tradeRow
  rw [ht.result, ← hid]
  exact @lookup_replaceRow_self _ _ _ VirtualTradeRecord.signalId db.trades trade
    (trade.transitioned tradeStatus request.target request) hrow

theorem Transitioned.findSignal_of_ne
    (ht : Transitioned db next request signal trade tradeStatus outbox) {id : Nat}
    (hne : id ≠ request.signalId) : next.findSignal id = db.findSignal id := by
  have hid : signal.id = request.signalId := lookup_key ht.signalRow
  rw [ht.result]
  exact lookup_replaceRow_of_ne fun heq => hne (heq.symm.trans hid)

theorem Transitioned.findTrade_of_ne
    (ht : Transitioned db next request signal trade tradeStatus outbox) {id : Nat}
    (hne : id ≠ request.signalId) : next.findTrade id = db.findTrade id := by
  have hid : trade.signalId = request.signalId := lookup_key ht.tradeRow
  rw [ht.result]
  exact lookup_replaceRow_of_ne fun heq => hne (heq.symm.trans hid)

end Rows

section Tracking

def listTrackingSignals (db : Database) : List TrackingSignalView :=
  (sortedBy (fun signal => toLex (signal.createdAt, signal.id))
    (db.signals.filter (·.status.isActive))).filterMap fun signal =>
      (db.findTrade signal.id).map (trackingView signal)

/-- `(executed_at, sequence, trade_id) <= (last_trade_time, last_trade_sequence or 0,
last_trade_id or "")`. -/
def VirtualTradeRecord.checkpointed (trade : VirtualTradeRecord) (key : TradeKey) : Bool :=
  match trade.lastTradeTime with
  | none => false
  | some time =>
    decide (key ≤ toLex (time, toLex (trade.lastTradeSequence.getD 0, trade.lastTradeId.getD "")))

def checkpointTrade (db : Database) (signalId : Nat) (tradeId : String) (executedAt sequence : Int) :
    Except StoreError Database :=
  match db.findTrade signalId with
  | none => .error (.noVirtualTrade signalId)
  | some trade =>
    if trade.checkpointed (toLex (executedAt, toLex (sequence, tradeId))) then .ok db
    else .ok (db.updateTrade { trade with
      lastTradeId := some tradeId
      lastTradeTime := some executedAt
      lastTradeSequence := some sequence })

/-- The keyword arguments of `record_tracking_event`. -/
structure TrackingRequest where
  signalId : Nat
  eventTime : Int
  idempotencyKey : String
  eventType : String
  payload : Payload
  deriving Repr, DecidableEq

def recordTrackingEvent (db : Database) (request : TrackingRequest) :
    Except StoreError (Database × Bool) :=
  if (db.findEvent request.idempotencyKey).isSome then .ok (db, false)
  else match db.findSignal request.signalId with
    | none => .error (.signalMissing request.signalId)
    | some signal => do
      let db ← db.insertEvent {
        signalId := request.signalId
        eventType := request.eventType
        statusFrom := some signal.status
        statusTo := signal.status
        eventTime := request.eventTime
        sourceEventId := none
        idempotencyKey := request.idempotencyKey
        payload := request.payload }
      return (db, true)

theorem checkpointTrade_ok {db next : Database} {signalId : Nat} {tradeId : String}
    {executedAt sequence : Int} (h : checkpointTrade db signalId tradeId executedAt sequence = .ok next) :
    ∃ trade, db.findTrade signalId = some trade ∧ (next = db ∨
      next = db.updateTrade { trade with
        lastTradeId := some tradeId
        lastTradeTime := some executedAt
        lastTradeSequence := some sequence }) := by
  unfold checkpointTrade at h
  split at h
  · cases h
  · rename_i trade htrade
    refine ⟨trade, htrade, ?_⟩
    split_ifs at h
    · exact Or.inl (Except.ok.inj h).symm
    · exact Or.inr (Except.ok.inj h).symm

theorem recordTrackingEvent_ok {db next : Database} {request : TrackingRequest} {added : Bool}
    (h : recordTrackingEvent db request = .ok (next, added)) :
    (next = db ∧ added = false) ∨
    (added = true ∧ db.findEvent request.idempotencyKey = none ∧
      ∃ signal event, db.findSignal request.signalId = some signal ∧
        event.signalId = request.signalId ∧ event.statusFrom = some signal.status ∧
        event.statusTo = signal.status ∧ event.idempotencyKey = request.idempotencyKey ∧
        next = { db with events := db.events ++ [event] }) := by
  unfold recordTrackingEvent at h
  split_ifs at h with hfound
  · cases h
    exact Or.inl ⟨rfl, rfl⟩
  · split at h
    · cases h
    · rename_i signal hsignal
      obtain ⟨db₁, hdb₁, h⟩ := bind_eq_ok.mp h
      obtain ⟨hkey, hdb₁⟩ := Database.insertEvent_ok hdb₁
      cases h
      exact Or.inr ⟨rfl, hkey, signal, _, hsignal, rfl, rfl, rfl, rfl, hdb₁⟩

end Tracking

end StructurePulse.Store
