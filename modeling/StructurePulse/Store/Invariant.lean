import StructurePulse.Store.Repository

/-!
# The invariant of the signal store

`Sound` couples the five tables: each signal's events lead without a break from
nothing to its status, its virtual trade and its version follow, and the outbox is
the list of transitions. Every committed operation preserves it, so every database
a run reaches has it.
-/

namespace StructurePulse.Store
open Signals Library
set_option autoImplicit false

/-- The status and version a signal's virtual trade must have; none if suppressed. -/
def SignalRecord.expectedTrade (signal : SignalRecord) : Option (VirtualTradeStatus × Nat) :=
  signal.status.tradeStatus.map fun status => (status, signal.version)

def Database.tradeOf (db : Database) (signalId : Nat) : Option (VirtualTradeStatus × Nat) :=
  (db.findTrade signalId).map fun trade => (trade.status, trade.version)

/-- The events lead from no status at all to `status`. -/
abbrev EventChain (events : List SignalEventRecord) (status : SignalStatus) : Prop :=
  Chained SignalEventRecord.statusFrom (fun event => some event.statusTo) none events (some status)

structure SignalSound (db : Database) (signal : SignalRecord) : Prop where
  chain : EventChain (db.eventsOf signal.id) signal.status
  trade : db.tradeOf signal.id = signal.expectedTrade
  version : signal.version = 1 + (db.eventsOf signal.id).countP (·.isTransition)
  closed : signal.closedAt.isSome = signal.status.isTerminal
  candidate : (db.findCandidate signal.candidateId).isSome = true

/-- At most one signal of a symbol is active. -/
def OneActive (signals : List SignalRecord) : Prop :=
  ∀ s ∈ signals, ∀ t ∈ signals, s.status.isActive = true → t.status.isActive = true →
    s.symbol = t.symbol → s.id = t.id

structure Sound (db : Database) : Prop where
  ids : (db.signals.map SignalRecord.id).Nodup
  signalsBelow : ∀ signal ∈ db.signals, signal.id < db.nextSignalId
  tradesBelow : ∀ trade ∈ db.trades, trade.signalId < db.nextSignalId
  eventsBelow : ∀ event ∈ db.events, event.signalId < db.nextSignalId
  keys : (db.events.map SignalEventRecord.idempotencyKey).Nodup
  outbox : db.outbox.map (fun row => (row.signalId, row.idempotencyKey)) =
    (db.events.filter (·.isTransition)).map fun event =>
      (event.signalId, outboxKey event.idempotencyKey)
  oneActive : OneActive db.signals
  signals : ∀ signal ∈ db.signals, SignalSound db signal

theorem outboxKey_injective {k l : String} (h : outboxKey k = outboxKey l) : k = l :=
  (String.append_right_inj "signal-event:").mp h

section Frame
variable {db next : Database}

theorem eventsOf_append_of_ne {event : SignalEventRecord} {id : Nat}
    (hevents : next.events = db.events ++ [event]) (h : event.signalId ≠ id) :
    next.eventsOf id = db.eventsOf id := by
  simp [Database.eventsOf, hevents, h]

theorem eventsOf_append_self {event : SignalEventRecord} {id : Nat}
    (hevents : next.events = db.events ++ [event]) (h : event.signalId = id) :
    next.eventsOf id = db.eventsOf id ++ [event] := by
  simp [Database.eventsOf, hevents, h]

/-- What concerns other signals leaves a signal sound. -/
theorem SignalSound.frame {signal : SignalRecord} (h : SignalSound db signal)
    (hevents : next.eventsOf signal.id = db.eventsOf signal.id)
    (htrade : next.tradeOf signal.id = db.tradeOf signal.id)
    (hcandidates : next.candidates = db.candidates) : SignalSound next signal where
  chain := by rw [hevents]; exact h.chain
  trade := by rw [htrade]; exact h.trade
  version := by rw [hevents]; exact h.version
  closed := h.closed
  candidate := by
    unfold Database.findCandidate
    rw [hcandidates]
    exact h.candidate

end Frame

theorem Sound.findSignal {db : Database} (h : Sound db) {signal : SignalRecord}
    (hmem : signal ∈ db.signals) : db.findSignal signal.id = some signal :=
  lookup_of_mem h.ids hmem

theorem sound_initial {db : Database} (hsignals : db.signals = []) (htrades : db.trades = [])
    (hevents : db.events = []) (houtbox : db.outbox = []) : Sound db := by
  constructor <;> simp [hsignals, htrades, hevents, houtbox, OneActive]

theorem activeElsewhere_eq_false {db : Database} {signal : SignalRecord}
    (h : db.activeElsewhere signal = false) (ha : signal.status.isActive = true) :
    ∀ other ∈ db.signals, other.status.isActive = true → other.symbol = signal.symbol →
      other.id = signal.id := by
  intro other hother hactive hsymbol
  by_contra hne
  have hany : db.activeElsewhere signal = true := by
    rw [Database.activeElsewhere, ha, Bool.true_and, List.any_eq_true]
    exact ⟨other, hother, decide_eq_true ⟨hne, hsymbol, hactive⟩⟩
  rw [h] at hany
  cases hany

theorem OneActive.append {db : Database} {signal : SignalRecord} (h : OneActive db.signals)
    (hfree : db.activeElsewhere signal = false) : OneActive (db.signals ++ [signal]) := by
  intro s hs t ht hsa hta hst
  rcases List.mem_append.mp hs with hsold | hsnew <;>
    rcases List.mem_append.mp ht with htold | htnew
  · exact h s hsold t htold hsa hta hst
  · rw [List.mem_singleton.mp htnew] at hta hst ⊢
    exact activeElsewhere_eq_false hfree hta s hsold hsa hst
  · rw [List.mem_singleton.mp hsnew] at hsa hst ⊢
    exact (activeElsewhere_eq_false hfree hsa t htold hta hst.symm).symm
  · rw [List.mem_singleton.mp hsnew, List.mem_singleton.mp htnew]

/-- The first transaction of a signal leaves it sound and disturbs no other. -/
theorem Sound.published {state next : Publishing} {record : SignalCandidateRecord} {allowed : Bool}
    {publicationTime : Int} {signal : SignalRecord} {event : SignalEventRecord}
    {trades : List VirtualTradeRecord} (h : Sound state.db)
    (hp : Published state next record allowed publicationTime signal event trades) :
    Sound next.db := by
  have hid := hp.id
  have hnew : event.signalId = state.db.nextSignalId := hp.eventSignal.trans hid
  have hother : ∀ s ∈ state.db.signals, s.id ≠ signal.id :=
    fun s hs => ne_of_lt (hid ▸ h.signalsBelow s hs)
  have hevents : state.db.eventsOf signal.id = [] := by
    rw [Database.eventsOf, List.filter_eq_nil_iff]
    intro e he
    simpa using ne_of_lt (hid ▸ h.eventsBelow e he)
  have hnone : state.db.findTrade signal.id = none :=
    lookup_eq_none.mpr fun t ht => ne_of_lt (hid ▸ h.tradesBelow t ht)
  have hdb := hp.db
  refine ⟨?_, ?_, ?_, ?_, ?_, ?_, ?_, ?_⟩
  · rw [hdb]
    exact nodup_keys_append h.ids hother
  · rw [hdb]
    exact forall_mem_append_singleton (fun s hs => Nat.lt_succ_of_lt (h.signalsBelow s hs))
      (by rw [hid]; exact Nat.lt_succ_self _)
  · rw [hdb]
    rcases hp.trade with ⟨-, rfl⟩ | ⟨-, trade, rfl, htrade, -, -⟩
    · simpa using fun t ht => Nat.lt_succ_of_lt (h.tradesBelow t ht)
    · exact forall_mem_append_singleton (fun t ht => Nat.lt_succ_of_lt (h.tradesBelow t ht))
        (by rw [htrade, hid]; exact Nat.lt_succ_self _)
  · rw [hdb]
    exact forall_mem_append_singleton (fun e he => Nat.lt_succ_of_lt (h.eventsBelow e he))
      (by rw [hnew]; exact Nat.lt_succ_self _)
  · rw [hdb]
    exact nodup_keys_append h.keys (lookup_eq_none.mp hp.keyFree)
  · have hnot : event.isTransition = false := by
      simp [SignalEventRecord.isTransition, hp.eventFrom]
    rw [hdb]
    simpa [List.filter_append, hnot] using h.outbox
  · rw [hdb]
    exact h.oneActive.append hp.activeFree
  · rw [hdb]
    refine forall_mem_append_singleton (fun s hs => ?_) ?_
    · refine (h.signals s hs).frame ?_ ?_ rfl
      · exact eventsOf_append_of_ne rfl (by rw [hp.eventSignal]; exact (hother s hs).symm)
      · rcases hp.trade with ⟨-, rfl⟩ | ⟨-, trade, rfl, htrade, -, -⟩
        · simp [Database.tradeOf, Database.findTrade]
        · unfold Database.tradeOf Database.findTrade
          rw [lookup_append_of_ne (by rw [htrade]; exact (hother s hs).symm)]
    · refine ⟨?_, ?_, ?_, ?_, ?_⟩
      · rw [eventsOf_append_self rfl hp.eventSignal, hevents]
        exact ⟨hp.eventFrom, congrArg some hp.eventTo⟩
      · rcases hp.trade with ⟨hallowed, rfl⟩ | ⟨hallowed, trade, rfl, htrade, hstatus, hversion⟩
        · simp only [Database.tradeOf, Database.findTrade, List.append_nil] at hnone ⊢
          rw [hnone, SignalRecord.expectedTrade, hp.status, hallowed]
          rfl
        · have hfound : lookup VirtualTradeRecord.signalId (state.db.trades ++ [trade]) signal.id =
              some trade := by
            rw [← htrade]
            exact lookup_append_self (by rw [htrade]; exact lookup_eq_none.mp hnone)
          simp only [Database.tradeOf, Database.findTrade]
          rw [hfound, SignalRecord.expectedTrade, hp.status, hallowed, hp.version]
          simp [hstatus, hversion, SignalStatus.tradeStatus]
      · rw [eventsOf_append_self rfl hp.eventSignal, hevents, hp.version]
        simp [SignalEventRecord.isTransition, hp.eventFrom]
      · rw [hp.closedAt, hp.status]
        cases allowed <;> rfl
      · rw [hp.candidateId]
        exact hp.candidate

theorem OneActive.replace {signals : List SignalRecord} (h : OneActive signals)
    {signal row : SignalRecord} (hmem : signal ∈ signals) (hid : row.id = signal.id)
    (hsymbol : row.symbol = signal.symbol)
    (hactive : row.status.isActive = true → signal.status.isActive = true) :
    OneActive (replaceRow SignalRecord.id signals row) := by
  intro s hs t ht hsa hta hst
  rcases mem_replaceRow hs with hsrow | ⟨hsold, -⟩ <;>
    rcases mem_replaceRow ht with htrow | ⟨htold, -⟩
  · rw [hsrow, htrow]
  · rw [hsrow] at hsa hst ⊢
    exact hid.trans (h signal hmem t htold (hactive hsa) hta (hsymbol.symm.trans hst))
  · rw [htrow] at hta hst ⊢
    exact (h s hsold signal hmem hsa (hactive hta) (hst.trans hsymbol)).trans hid.symm
  · exact h s hsold t htold hsa hta hst

/-- A move of the virtual trade ends at the status that goes with the signal's. -/
theorem tradeStatus_moved {current target : SignalStatus} {old new : VirtualTradeStatus}
    (hlegal : target ∈ signalTransitions current) (hold : current.tradeStatus = some old)
    (hmove : (virtualTradeTarget target = none ∧ new = old) ∨ virtualTradeTarget target = some new) :
    target.tradeStatus = some new := by
  cases current <;> cases target <;>
    simp_all [signalTransitions, SignalStatus.tradeStatus, virtualTradeTarget]

theorem SignalSound.tradeRow {db : Database} {signal : SignalRecord} (h : SignalSound db signal)
    {trade : VirtualTradeRecord} (htrade : db.findTrade signal.id = some trade) :
    signal.status.tradeStatus = some trade.status ∧ trade.version = signal.version := by
  have hsome := h.trade
  rw [Database.tradeOf, htrade, SignalRecord.expectedTrade, Option.map_some, eq_comm,
    Option.map_eq_some_iff] at hsome
  obtain ⟨status, hstatus, heq⟩ := hsome
  rw [Prod.mk.injEq] at heq
  exact ⟨heq.1 ▸ hstatus, heq.2.symm⟩

section Transition
variable {db next : Database} {request : TransitionRequest} {signal : SignalRecord}
variable {trade : VirtualTradeRecord} {tradeStatus : VirtualTradeStatus}
variable {outbox : List NotificationOutboxRecord}

theorem isTransition_event {current target : SignalStatus}
    (hlegal : target ∈ signalTransitions current) :
    (request.event current target).isTransition = true := by
  simpa [SignalEventRecord.isTransition, TransitionRequest.event] using transition_ne hlegal

theorem Transitioned.undisturbed (ht : Transitioned db next request signal trade tradeStatus outbox)
    {other : SignalRecord} (h : SignalSound db other) (hne : other.id ≠ request.signalId) :
    SignalSound next other := by
  refine h.frame ?_ ?_ (by rw [ht.result])
  · exact eventsOf_append_of_ne (by rw [ht.result]) hne.symm
  · unfold Database.tradeOf
    rw [ht.findTrade_of_ne hne]

theorem Transitioned.moved (ht : Transitioned db next request signal trade tradeStatus outbox)
    (h : SignalSound db signal) :
    SignalSound next (signal.transitioned request.target request.eventTime) := by
  have hid : signal.id = request.signalId := lookup_key ht.signalRow
  have htradeId : trade.signalId = request.signalId := lookup_key ht.tradeRow
  obtain ⟨hstatus, hversion⟩ := h.tradeRow (hid ▸ ht.tradeRow)
  have hevents : next.eventsOf signal.id = db.eventsOf signal.id ++
      [request.event signal.status request.target] :=
    eventsOf_append_self (by rw [ht.result]) hid.symm
  have htrade : next.findTrade signal.id =
      some (trade.transitioned tradeStatus request.target request) := hid ▸ ht.findTrade
  refine ⟨?_, ?_, ?_, ?_, ?_⟩
  · change EventChain (next.eventsOf signal.id) request.target
    rw [hevents]
    exact h.chain.snoc rfl
  · change next.tradeOf signal.id = _
    rw [Database.tradeOf, htrade, SignalRecord.expectedTrade]
    have hmoved := tradeStatus_moved ht.legal hstatus ht.tradeMove
    simp [SignalRecord.transitioned, VirtualTradeRecord.transitioned, hmoved, hversion]
  · change signal.version + 1 = 1 + (next.eventsOf signal.id).countP (·.isTransition)
    rw [hevents, List.countP_append, h.version, List.countP_singleton,
      isTransition_event ht.legal]
    rfl
  · have hopen := not_isTerminal_of_isActive (isActive_of_transition ht.legal)
    have hclosed := h.closed
    rw [hopen] at hclosed
    simp only [SignalRecord.transitioned]
    split_ifs with hterminal
    · exact hterminal.symm
    · rw [hclosed, Bool.eq_false_iff.mpr hterminal]
  · have hcandidate := h.candidate
    unfold Database.findCandidate at hcandidate ⊢
    rw [ht.result]
    exact hcandidate

/-- A committed transition moves its signal along the chain and disturbs no other. -/
theorem Sound.transitioned (h : Sound db)
    (ht : Transitioned db next request signal trade tradeStatus outbox) : Sound next := by
  have hmem : signal ∈ db.signals := lookup_mem ht.signalRow
  have hid : signal.id = request.signalId := lookup_key ht.signalRow
  have hsound := h.signals signal hmem
  have hnext := ht.result
  refine ⟨?_, ?_, ?_, ?_, ?_, ?_, ?_, ?_⟩
  · rw [hnext]
    simpa using h.ids
  · rw [hnext]
    exact forall_mem_replaceRow h.signalsBelow (h.signalsBelow signal hmem)
  · rw [hnext]
    exact forall_mem_replaceRow h.tradesBelow (h.tradesBelow trade (lookup_mem ht.tradeRow))
  · rw [hnext]
    refine forall_mem_append_singleton h.eventsBelow ?_
    have hbelow := h.signalsBelow signal hmem
    rwa [hid] at hbelow
  · rw [hnext]
    exact nodup_keys_append h.keys (lookup_eq_none.mp ht.keyFree)
  · obtain ⟨row, rfl, hrowKey, hrowSignal⟩ : ∃ row, outbox = [row] ∧
        row.idempotencyKey = outboxKey request.idempotencyKey ∧ row.signalId = request.signalId := by
      rcases ht.outboxRow with ⟨-, hrow⟩ | ⟨hnone, -⟩
      · exact hrow
      · have hcandidate := hsound.candidate
        rw [hnone] at hcandidate
        cases hcandidate
    rw [hnext]
    simp only [List.map_append, List.filter_append, h.outbox, List.filter_singleton,
      isTransition_event ht.legal]
    simp [hrowKey, hrowSignal, TransitionRequest.event]
  · rw [hnext]
    exact h.oneActive.replace hmem rfl rfl fun _ => isActive_of_transition ht.legal
  · intro s hs
    rw [hnext] at hs
    rcases mem_replaceRow hs with hrow | ⟨hold, hne⟩
    · rw [hrow]
      exact ht.moved hsound
    · exact ht.undisturbed (h.signals s hold) fun heq => hne (heq.trans hid.symm)

end Transition

section Tracking
variable {db next : Database}

theorem Sound.checkpointed {signalId : Nat} {tradeId : String} {executedAt sequence : Int}
    (h : Sound db) (hnext : checkpointTrade db signalId tradeId executedAt sequence = .ok next) :
    Sound next := by
  obtain ⟨trade, htrade, rfl | rfl⟩ := checkpointTrade_ok hnext
  · exact h
  have htradeId : trade.signalId = signalId := lookup_key htrade
  refine ⟨h.ids, h.signalsBelow, forall_mem_replaceRow h.tradesBelow (h.tradesBelow trade
    (lookup_mem htrade)), h.eventsBelow, h.keys, h.outbox, h.oneActive, fun s hs => ?_⟩
  refine (h.signals s hs).frame rfl ?_ rfl
  unfold Database.tradeOf Database.findTrade Database.updateTrade
  by_cases hs : s.id = signalId
  · -- the checkpoint columns are neither status nor version
    have hrow : lookup VirtualTradeRecord.signalId db.trades trade.signalId = some trade := by
      rw [htradeId]
      exact htrade
    rw [hs, ← htradeId, hrow, @lookup_replaceRow_self _ _ _ VirtualTradeRecord.signalId db.trades
      trade { trade with
        lastTradeId := some tradeId
        lastTradeTime := some executedAt
        lastTradeSequence := some sequence } hrow]
    rfl
  · rw [lookup_replaceRow_of_ne]
    exact fun heq => hs (heq.symm.trans htradeId)

theorem Sound.tracked {request : TrackingRequest} {added : Bool} (h : Sound db)
    (hnext : recordTrackingEvent db request = .ok (next, added)) : Sound next := by
  rcases recordTrackingEvent_ok hnext with ⟨rfl, -⟩ | ⟨-, hfree, signal, event, hsignal, hevent,
    hfrom, hto, hkey, hnext⟩
  · exact h
  have hid : signal.id = request.signalId := lookup_key hsignal
  have hmem : signal ∈ db.signals := lookup_mem hsignal
  have hnot : event.isTransition = false := by
    simp [SignalEventRecord.isTransition, hfrom, hto]
  have hevents : next.events = db.events ++ [event] := by rw [hnext]
  have hsignals : next.signals = db.signals := by rw [hnext]
  refine ⟨?_, ?_, ?_, ?_, ?_, ?_, ?_, ?_⟩
  · rw [hsignals]
    exact h.ids
  · rw [hnext]
    exact h.signalsBelow
  · rw [hnext]
    exact h.tradesBelow
  · rw [hnext]
    refine forall_mem_append_singleton h.eventsBelow ?_
    rw [hevent, ← hid]
    exact h.signalsBelow signal hmem
  · rw [hevents]
    exact nodup_keys_append h.keys (lookup_eq_none.mp (hkey ▸ hfree))
  · rw [hnext]
    simpa [List.filter_append, hnot] using h.outbox
  · rw [hsignals]
    exact h.oneActive
  · rw [hsignals]
    intro s hs
    have hsound := h.signals s hs
    by_cases hsid : s.id = signal.id
    · have hsame : s = signal := List.inj_on_of_nodup_map h.ids hs hmem hsid
      subst hsame
      have happend := eventsOf_append_self hevents (hevent.trans hid.symm)
      refine ⟨?_, ?_, ?_, hsound.closed, ?_⟩
      · have hchain := hsound.chain.snoc hfrom
        rw [hto] at hchain
        rw [happend]
        exact hchain
      · rw [hnext]
        exact hsound.trade
      · rw [happend, List.countP_append, hsound.version]
        simp [hnot]
      · rw [hnext]
        exact hsound.candidate
    · refine hsound.frame ?_ (by rw [hnext]; rfl) (by rw [hnext])
      exact eventsOf_append_of_ne hevents fun heq => hsid (heq.symm.trans (hevent ▸ hid.symm))

end Tracking

end StructurePulse.Store
