import StructurePulse.Store.Invariant
import StructurePulse.Store.RiskBound

/-!
# Runs of the signal store

A run is any list of repository calls, each a transaction of its own. The run starts
with no signals and any instruments, snapshots and candidates.
-/

namespace StructurePulse.Store
open Signals Strategy Library
set_option autoImplicit false

inductive StoreOp where
  | publishCandidates (candidates : List (SignalCandidateRecord × SignalCandidate))
      (config : SignalPolicyConfig) (publicationTime : Int)
  | applyTransition (request : TransitionRequest)
  | checkpointTrade (signalId : Nat) (tradeId : String) (executedAt sequence : Int)
  | recordTrackingEvent (request : TrackingRequest)
  deriving DecidableEq

def StoreOp.exec (db : Database) : StoreOp → Except StoreError Database
  | .publishCandidates candidates config publicationTime =>
    (Store.publishCandidates db candidates config publicationTime).map Prod.fst
  | .applyTransition request => (Store.applyTransition db request).map Prod.fst
  | .checkpointTrade signalId tradeId executedAt sequence =>
    Store.checkpointTrade db signalId tradeId executedAt sequence
  | .recordTrackingEvent request => (Store.recordTrackingEvent db request).map Prod.fst

def Database.run (db : Database) (ops : List StoreOp) : Database := runAll StoreOp.exec db ops

def Database.initial (instruments : List InstrumentRecord) (snapshots : List AnalysisSnapshotRecord)
    (candidates : List SignalCandidateRecord) : Database where
  instruments := instruments
  snapshots := snapshots
  candidates := candidates

theorem map_fst_ok {α β ε : Type} {x : Except ε (α × β)} {a : α} (h : x.map Prod.fst = .ok a) :
    ∃ b, x = .ok (a, b) := by
  cases x with
  | error e => cases h
  | ok p =>
    cases h
    exact ⟨p.2, rfl⟩

/-- What a call that commits has done, one case for each operation. -/
inductive Committed (db next : Database) : Prop where
  | unchanged (h : next = db)
  | published (candidates : List (SignalCandidateRecord × SignalCandidate))
      (config : SignalPolicyConfig) (publicationTime : Int) (observations : List SignalObservation)
      (state : Publishing) (hdb : next = state.db)
      (h : (accepted candidates).foldlM (publishOne config publicationTime)
        { db := db, observations := observations } = .ok state)
  | transitioned (request : TransitionRequest) (signal : SignalRecord) (trade : VirtualTradeRecord)
      (tradeStatus : VirtualTradeStatus) (outbox : List NotificationOutboxRecord)
      (h : Transitioned db next request signal trade tradeStatus outbox)
  | checkpointed (signalId : Nat) (tradeId : String) (executedAt sequence : Int)
      (h : checkpointTrade db signalId tradeId executedAt sequence = .ok next)
  | tracked (request : TrackingRequest) (added : Bool)
      (h : recordTrackingEvent db request = .ok (next, added))

theorem exec_committed {db next : Database} {op : StoreOp} (h : op.exec db = .ok next) :
    Committed db next := by
  cases op with
  | publishCandidates candidates config publicationTime =>
    obtain ⟨result, h⟩ := map_fst_ok h
    unfold Store.publishCandidates at h
    split_ifs at h
    · cases h
      exact .unchanged rfl
    · obtain ⟨state, hstate, h⟩ := bind_eq_ok.mp h
      cases h
      exact .published candidates config publicationTime _ state rfl hstate
  | applyTransition request =>
    obtain ⟨result, h⟩ := map_fst_ok h
    rcases applyTransition_ok h with ⟨hsame, -, -⟩ | ⟨-, signal, trade, tradeStatus, outbox, h⟩
    · exact .unchanged hsame
    · exact .transitioned request signal trade tradeStatus outbox h
  | checkpointTrade signalId tradeId executedAt sequence =>
    exact .checkpointed signalId tradeId executedAt sequence h
  | recordTrackingEvent request =>
    obtain ⟨added, h⟩ := map_fst_ok h
    exact .tracked request added h

theorem Sound.committed {db next : Database} (h : Sound db) (hc : Committed db next) :
    Sound next := by
  cases hc with
  | unchanged hsame => exact hsame ▸ h
  | published candidates config publicationTime observations state hdb hloop =>
    rw [hdb]
    refine foldlM_invariant (P := fun s : Publishing => Sound s.db) ?_ h hloop
    intro s pair _ t hs hpass
    obtain ⟨signal, event, trades, hp⟩ := publishOne_ok hpass
    exact hs.published hp
  | transitioned request signal trade tradeStatus outbox ht => exact h.transitioned ht
  | checkpointed signalId tradeId executedAt sequence hnext => exact h.checkpointed hnext
  | tracked request added hnext => exact h.tracked hnext

theorem Sound.run {db : Database} (h : Sound db) (ops : List StoreOp) : Sound (db.run ops) :=
  runAll_invariant (fun _ _ _ hs hnext => hs.committed (exec_committed hnext)) h ops

theorem sound_run_initial (instruments : List InstrumentRecord)
    (snapshots : List AnalysisSnapshotRecord) (candidates : List SignalCandidateRecord)
    (ops : List StoreOp) :
    Sound ((Database.initial instruments snapshots candidates).run ops) :=
  (sound_initial rfl rfl rfl rfl).run ops

section Final

/-- Signals that are no longer active stay in the table as they are. -/
def KeepsFinal (db next : Database) : Prop :=
  ∀ signal ∈ db.signals, signal.status.isActive = false → signal ∈ next.signals

theorem keepsFinal_committed {db next : Database} (h : Sound db) (hc : Committed db next) :
    KeepsFinal db next := by
  intro s hs hfinal
  cases hc with
  | unchanged hsame => exact hsame ▸ hs
  | published candidates config publicationTime observations state hdb hloop =>
    rw [hdb]
    refine foldlM_invariant (P := fun p : Publishing => s ∈ p.db.signals) ?_ hs hloop
    intro p pair _ q hp hpass
    obtain ⟨signal, event, trades, hp'⟩ := publishOne_ok hpass
    rw [hp'.db]
    exact List.mem_append_left _ hp
  | transitioned request signal trade tradeStatus outbox ht =>
    rw [ht.result]
    refine mem_replaceRow_of_ne hs fun hid => ?_
    have hsame : s = signal := List.inj_on_of_nodup_map h.ids hs (lookup_mem ht.signalRow) hid
    have hactive := isActive_of_transition ht.legal
    rw [← hsame, hfinal] at hactive
    cases hactive
  | checkpointed signalId tradeId executedAt sequence hnext =>
    obtain ⟨trade, -, hsame | hsame⟩ := checkpointTrade_ok hnext <;> rw [hsame] <;> exact hs
  | tracked request added hnext =>
    rcases recordTrackingEvent_ok hnext with ⟨hsame, -⟩ | ⟨-, -, _, _, -, -, -, -, -, hsame⟩ <;>
      rw [hsame] <;> exact hs

theorem keepsFinal_run {db : Database} (h : Sound db) (ops : List StoreOp) :
    KeepsFinal db (db.run ops) := by
  refine runAll_relates (R := KeepsFinal) (P := Sound) ?_ ?_ ?_ ?_ h ops
  · exact fun db signal hs _ => hs
  · exact fun s t u hst htu signal hs hfinal => htu signal (hst signal hs hfinal) hfinal
  · exact fun _ _ _ hs hnext => hs.committed (exec_committed hnext)
  · exact fun _ _ _ hs hnext => keepsFinal_committed hs (exec_committed hnext)

end Final

section Acceptance
variable {db : Database} {request : TransitionRequest} {signal : SignalRecord}

theorem virtualTradeTarget_of_transition {current target : SignalStatus}
    (hlegal : target ∈ signalTransitions current) (hne : target ≠ .active) :
    virtualTradeTarget target = target.tradeStatus := by
  cases current <;> cases target <;> simp_all [signalTransitions] <;> rfl

/-- Of a sound database the virtual-trade table accepts every move the signal table accepts. -/
theorem moveTrade_accepts (h : SignalSound db signal) {trade : VirtualTradeRecord}
    (htrade : db.findTrade signal.id = some trade) {target : SignalStatus}
    (hlegal : target ∈ signalTransitions signal.status) :
    ∃ tradeStatus, moveTrade trade target = .ok tradeStatus := by
  obtain ⟨hstatus, -⟩ := h.tradeRow htrade
  obtain ⟨s, t, hs, ht, hmove⟩ := tradeStatus_of_transition hlegal
  cases hstatus.symm.trans hs
  by_cases hactive : target = .active
  · subst hactive
    exact ⟨_, rfl⟩
  · have htarget := virtualTradeTarget_of_transition hlegal hactive
    have hlegalTrade : t ∈ virtualTradeTransitions trade.status := by
      rcases hmove with ⟨heq, -⟩ | ⟨-, hmove⟩
      · exact absurd heq hactive
      · exact hmove
    refine ⟨t, ?_⟩
    simp [moveTrade, htarget, ht, transitionVirtualTrade, hlegalTrade, Store.legal,
      Except.mapError]

theorem SignalSound.hasTrade (h : SignalSound db signal) (hs : signal.status ≠ .suppressed) :
    ∃ trade, db.findTrade signal.id = some trade := by
  have htrade := h.trade
  rcases hfound : db.findTrade signal.id with _ | trade
  · rw [Database.tradeOf, hfound, SignalRecord.expectedTrade] at htrade
    cases hstatus : signal.status <;> simp_all [SignalStatus.tradeStatus]
  · exact ⟨trade, rfl⟩

theorem outbox_free (h : Sound db) {key : String} (hkey : db.findEvent key = none) :
    lookup NotificationOutboxRecord.idempotencyKey db.outbox (outboxKey key) = none := by
  refine lookup_eq_none.mpr fun row hrow hrowKey => ?_
  have hmem : (row.signalId, row.idempotencyKey) ∈
      db.outbox.map fun row => (row.signalId, row.idempotencyKey) := List.mem_map_of_mem hrow
  rw [h.outbox] at hmem
  obtain ⟨event, hevent, heq⟩ := List.mem_map.mp hmem
  have hsame := congrArg Prod.snd heq
  exact lookup_eq_none.mp hkey event (List.mem_filter.mp hevent).1
    (outboxKey_injective (hsame.trans hrowKey))

theorem notify_commits {trade : VirtualTradeRecord} {candidate : SignalCandidateRecord}
    (hcandidate : db.findCandidate signal.candidateId = some candidate)
    (hfree : lookup NotificationOutboxRecord.idempotencyKey db.outbox
      (outboxKey request.idempotencyKey) = none) :
    ∃ next, notify db request signal trade = .ok next := by
  obtain ⟨kind, hkind⟩ : ∃ kind, notificationType signal.status = some kind := by
    cases signal.status <;> exact ⟨_, rfl⟩
  have hrow := @Database.insertOutbox_commits db (request.outboxRow kind signal trade candidate) hfree
  rw [notify, hkind, hcandidate]
  exact ⟨_, hrow⟩

/-- With a new key a legal transition of an existing signal always commits. -/
theorem writeTransition_commits (h : Sound db) (hkey : db.findEvent request.idempotencyKey = none)
    (hsignal : db.findSignal request.signalId = some signal)
    (hlegal : request.target ∈ signalTransitions signal.status) :
    ∃ next, writeTransition db request = .ok (next, ⟨true, request.signalId, request.target⟩) := by
  have hmem : signal ∈ db.signals := lookup_mem hsignal
  have hid : signal.id = request.signalId := lookup_key hsignal
  have hsound := h.signals signal hmem
  have hactive := isActive_of_transition hlegal
  obtain ⟨trade, htrade⟩ := hsound.hasTrade (by rintro hs; rw [hs] at hactive; cases hactive)
  obtain ⟨tradeStatus, hmove⟩ := moveTrade_accepts hsound htrade hlegal
  have helsewhere : db.activeElsewhere (signal.transitioned request.target request.eventTime) =
      false := by
    rw [Database.activeElsewhere, Bool.and_eq_false_iff, List.any_eq_false]
    refine Or.inr fun other hother => ?_
    rw [decide_eq_true_eq]
    rintro ⟨hne, hsymbol, hotherActive⟩
    exact hne (h.oneActive other hother signal hmem hotherActive hactive hsymbol)
  have hfree := outbox_free h hkey
  obtain ⟨candidate, hcandidate⟩ := Option.isSome_iff_exists.mp hsound.candidate
  have hstep : Store.legal (transitionSignal signal.status request.target) = .ok request.target := by
    simp [transitionSignal, hlegal, Store.legal, Except.mapError]
  unfold writeTransition
  rw [hsignal]
  simp only [← hid, htrade]
  obtain ⟨recorded, hrecorded, hcandidates, houtbox⟩ : ∃ recorded : Database,
      ({ db with
          signals := replaceRow SignalRecord.id db.signals
            (signal.transitioned request.target request.eventTime) }.updateTrade
        (trade.transitioned tradeStatus request.target request)).insertEvent
          (request.event signal.status request.target) = .ok recorded ∧
        recorded.candidates = db.candidates ∧ recorded.outbox = db.outbox :=
    ⟨_, Database.insertEvent_commits hkey, by rfl, by rfl⟩
  rw [← houtbox] at hfree
  rw [Database.findCandidate, ← hcandidates] at hcandidate
  obtain ⟨next, hnext⟩ := @notify_commits recorded request
    (signal.transitioned request.target request.eventTime)
    (trade.transitioned tradeStatus request.target request) _ hcandidate hfree
  refine ⟨next, ?_⟩
  simp only [bind_eq_ok]
  exact ⟨_, hstep, tradeStatus, hmove, _, Database.updateSignal_commits helsewhere, recorded,
    hrecorded, next, hnext, rfl⟩

end Acceptance

section Signals

/-- What the five tables say together about one signal. -/
structure SignalInvariant (db : Database) (signal : SignalRecord) : Prop where
  chain : EventChain (db.eventsOf signal.id) signal.status
  correspondence : (db.findTrade signal.id).map (·.status) = signal.status.tradeStatus
  version : signal.version = 1 + (db.eventsOf signal.id).countP (·.isTransition)
  tradeVersion : ∀ trade, db.findTrade signal.id = some trade → trade.version = signal.version
  outbox : (db.outboxOf signal.id).map (·.idempotencyKey) =
    ((db.eventsOf signal.id).filter (·.isTransition)).map fun event =>
      outboxKey event.idempotencyKey
  outboxOnce : ∀ event ∈ db.eventsOf signal.id, event.isTransition = true →
    (db.outbox.countP fun row => row.idempotencyKey = outboxKey event.idempotencyKey) = 1
  closed : signal.closedAt.isSome = true ↔ signal.status.isTerminal = true

theorem outboxOf_eq {db : Database} (h : Sound db) (signalId : Nat) :
    (db.outboxOf signalId).map (·.idempotencyKey) =
      ((db.eventsOf signalId).filter (·.isTransition)).map fun event =>
        outboxKey event.idempotencyKey := by
  have hboth := congrArg (List.filter fun pair => decide (pair.1 = signalId)) h.outbox
  rw [List.filter_map, List.filter_map] at hboth
  have hkeys := congrArg (List.map Prod.snd) hboth
  rw [List.map_map, List.map_map] at hkeys
  rw [Database.outboxOf, Database.eventsOf, List.filter_comm]
  exact hkeys

theorem outbox_once {db : Database} (h : Sound db) {event : SignalEventRecord}
    (hevent : event ∈ db.events) (ht : event.isTransition = true) :
    (db.outbox.countP fun row => row.idempotencyKey = outboxKey event.idempotencyKey) = 1 := by
  have hpairs := congrArg (List.countP fun pair => decide (pair.2 = outboxKey event.idempotencyKey))
    h.outbox
  rw [List.countP_map, List.countP_map] at hpairs
  have hkeys : ((db.events.filter (·.isTransition)).map
      SignalEventRecord.idempotencyKey).Nodup :=
    h.keys.sublist ((List.filter_sublist).map _)
  have hcount := List.count_eq_one_of_mem hkeys
    (List.mem_map_of_mem (List.mem_filter.mpr ⟨hevent, ht⟩))
  rw [List.count, List.countP_map] at hcount
  rw [← hcount]
  refine hpairs.trans (List.countP_congr fun other _ => ?_)
  simp only [Function.comp_apply, decide_eq_true_eq, beq_iff_eq]
  exact ⟨outboxKey_injective, congrArg outboxKey⟩

theorem SignalSound.invariant {db : Database} {signal : SignalRecord} (hdb : Sound db)
    (h : SignalSound db signal) : SignalInvariant db signal where
  chain := h.chain
  correspondence := by
    have htrade := congrArg (Option.map Prod.fst) h.trade
    rw [Database.tradeOf, SignalRecord.expectedTrade, Option.map_map, Option.map_map] at htrade
    exact htrade.trans Option.map_id'
  version := h.version
  tradeVersion := fun trade htrade => (h.tradeRow htrade).2
  outbox := outboxOf_eq hdb signal.id
  outboxOnce := fun event hevent => outbox_once hdb (List.mem_filter.mp hevent).1
  closed := by rw [h.closed]

/-- After every run of repository calls every signal has the invariant, a closed or
suppressed one is never touched again, and a transition the signal table accepts is
not refused by the virtual-trade table. -/
theorem store_invariant (instruments : List InstrumentRecord)
    (snapshots : List AnalysisSnapshotRecord) (candidates : List SignalCandidateRecord)
    (ops : List StoreOp) :
    let db := (Database.initial instruments snapshots candidates).run ops
    (∀ signal ∈ db.signals, SignalInvariant db signal ∧
      (signal.status.isTerminal = true ∨ signal.status = .suppressed →
        ∀ later, signal ∈ (db.run later).signals)) ∧
    ∀ request signal, db.findEvent request.idempotencyKey = none →
      db.findSignal request.signalId = some signal →
      request.target ∈ signalTransitions signal.status →
      ∃ next, applyTransition db request =
        .ok (next, ⟨true, request.signalId, request.target⟩) := by
  intro db
  have hsound : Sound db := sound_run_initial instruments snapshots candidates ops
  refine ⟨fun signal hsignal => ⟨(hsound.signals signal hsignal).invariant hsound, ?_⟩, ?_⟩
  · intro hfinal later
    refine keepsFinal_run hsound later signal hsignal ?_
    rcases hfinal with hterminal | hsuppressed
    · by_contra hactive
      rw [not_isTerminal_of_isActive (Bool.not_eq_false _ ▸ hactive)] at hterminal
      cases hterminal
    · rw [hsuppressed]
      rfl
  · intro request signal hkey hsignal hlegal
    obtain ⟨next, hnext⟩ := writeTransition_commits hsound hkey hsignal hlegal
    refine ⟨next, ?_⟩
    rw [applyTransition, hkey]
    exact hnext

/-- Publication, activation, a repeated key, an illegal target and a stop. -/
def sampleOps : List StoreOp :=
  [.publishCandidates [(candidateRecord 1 1 sampleCandidate, sampleCandidate)] .standard 0,
    .applyTransition { signalId := 1, target := .active, eventTime := 1, idempotencyKey := "a",
                       eventType := "trade_coverage_ready" },
    .applyTransition { signalId := 1, target := .entered, eventTime := 2, idempotencyKey := "a",
                       eventType := "entry_filled" },
    .applyTransition { signalId := 1, target := .stopped, eventTime := 3, idempotencyKey := "b",
                       eventType := "stop_loss_filled" },
    .applyTransition { signalId := 1, target := .entered, eventTime := 4, idempotencyKey := "c",
                       eventType := "entry_filled" }]

def sampleStore : Database :=
  (Database.initial [⟨"BTCUSDT", 480⟩] [] [candidateRecord 1 1 sampleCandidate]).run sampleOps

theorem store_invariant_sample : sampleStore.signals.map (·.status) = [.entered] ∧
    ∀ signal ∈ sampleStore.signals, SignalInvariant sampleStore signal :=
  ⟨by decide +kernel, fun signal hsignal => ((store_invariant _ _ _ sampleOps).1 signal hsignal).1⟩

end Signals

end StructurePulse.Store
