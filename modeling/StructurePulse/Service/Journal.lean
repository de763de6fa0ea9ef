import StructurePulse.Library.Segments
import StructurePulse.Service.Tracker
import StructurePulse.Store.Runs

/-!
# The event journal under the service's keys

The service builds the key of a transition from the signal and the target, and no
signal reaches a status twice. So a transition the signal table allows never meets
its key in the journal: it always commits and is always applied.
-/

namespace StructurePulse.Service
open Signals Store Strategy Library
set_option autoImplicit false

section Keys

/-- The keys of the transitions that trades and candles decide. -/
def Names (key : String) (signalId : Nat) (target : SignalStatus) : Prop :=
  (∃ tradeId index, key = tradeKey signalId tradeId target index) ∨
  (∃ openTime index, key = fallbackKey signalId openTime target index)

theorem toString_text (text : String) : toString text = text := rfl

theorem plain_statusText (status : SignalStatus) : Plain status.text := by
  cases status <;> decide

theorem Names.last {key : String} {signalId : Nat} {target : SignalStatus}
    (h : Names key signalId target) : ∃ index : Nat, LastSegments key target.text (toString index) := by
  rcases h with ⟨tradeId, index, rfl⟩ | ⟨openTime, index, rfl⟩
  · exact ⟨index, plain_statusText target, plain_repr index,
      s!"trade:{signalId}:{tradeId}", by simp [tradeKey, toString_text, String.append_assoc]⟩
  · exact ⟨index, plain_statusText target, plain_repr index,
      s!"fallback:{signalId}:{openTime / 1000000}", by simp [fallbackKey, toString_text, String.append_assoc]⟩

theorem Names.first {key : String} {signalId : Nat} {target : SignalStatus}
    (h : Names key signalId target) :
    ∃ kind, (kind = "trade" ∨ kind = "fallback") ∧ FirstSegments key kind (toString signalId) := by
  rcases h with ⟨tradeId, index, rfl⟩ | ⟨openTime, index, rfl⟩
  · exact ⟨"trade", Or.inl rfl, by decide, plain_repr signalId,
      s!"{tradeId}:{target.text}:{index}", by simp [tradeKey, toString_text, String.append_assoc]⟩
  · exact ⟨"fallback", Or.inr rfl, by decide, plain_repr signalId,
      s!"{openTime / 1000000}:{target.text}:{index}", by simp [fallbackKey, toString_text, String.append_assoc]⟩

theorem Names.unique {key : String} {signalId signalId' : Nat} {target target' : SignalStatus}
    (h : Names key signalId target) (h' : Names key signalId' target') :
    signalId = signalId' ∧ target = target' := by
  obtain ⟨kind, -, hfirst⟩ := h.first
  obtain ⟨kind', -, hfirst'⟩ := h'.first
  obtain ⟨index, hlast⟩ := h.last
  obtain ⟨index', hlast'⟩ := h'.last
  exact ⟨toString_nat_injective (hfirst.unique hfirst').2,
    SignalStatus.text_injective (hlast.unique hlast').1⟩

/-- The keys of every other event start with another word. -/
theorem not_names {key kind name : String} (h : FirstSegments key kind name)
    (htrade : kind ≠ "trade") (hfallback : kind ≠ "fallback") (signalId : Nat)
    (target : SignalStatus) : ¬ Names key signalId target := by
  intro hnames
  obtain ⟨kind', hkind, hfirst⟩ := hnames.first
  rw [(h.unique hfirst).1] at htrade hfallback
  rcases hkind with hkind | hkind
  · exact htrade hkind
  · exact hfallback hkind

theorem names_trade {signal : TrackingSignalView} {trade : PublicTrade} {action : LifecycleAction}
    {index : Nat} : Names (tradeContext trade signal action index).idempotencyKey signal.id
      action.target :=
  Or.inl ⟨trade.tradeId, index, rfl⟩

theorem names_candle {signal : TrackingSignalView} {candle : Candle1m} {action : LifecycleAction}
    {reason : CoverageFailure} {index : Nat} :
    Names (candleContext candle reason signal action index).idempotencyKey signal.id action.target :=
  Or.inr ⟨candle.openTime, index, rfl⟩

theorem coverageKey_first (signalId : Nat) (anchor : Int) :
    FirstSegments (coverageKey signalId anchor) "signal" (toString signalId) :=
  ⟨by decide, plain_repr signalId, s!"coverage:{anchor / 1000}", by
    simp only [coverageKey, toString_text, String.append_assoc]
    rfl⟩

theorem coverageKey_last (signalId : Nat) (anchor : Int) :
    LastSegments (coverageKey signalId anchor) "coverage" (toString (anchor / 1000)) :=
  ⟨by decide, plain_int _, s!"signal:{signalId}", by
    simp only [coverageKey, toString_text, String.append_assoc]
    rfl⟩

theorem expiredKey_first (signal : TrackingSignalView) :
    FirstSegments (expiredRequest signal).idempotencyKey "signal" (toString signal.id) :=
  ⟨by decide, plain_repr signal.id, "expired",
    by simp [expiredRequest, toString_text, String.append_assoc]⟩

theorem recoveredKey_first (signal : TrackingSignalView) (anchor now : Int)
    (reason : CoverageFailure) (count : Nat) :
    FirstSegments (recoveredRequest signal anchor now reason count).idempotencyKey "signal"
      (toString signal.id) :=
  ⟨by decide, plain_repr signal.id, s!"fallback:{anchor / 1000}", by
    simp only [recoveredRequest, toString_text, String.append_assoc]
    rfl⟩

theorem recoveredKey_last (signal : TrackingSignalView) (anchor now : Int)
    (reason : CoverageFailure) (count : Nat) :
    LastSegments (recoveredRequest signal anchor now reason count).idempotencyKey "fallback"
      (toString (anchor / 1000)) :=
  ⟨by decide, plain_int _, s!"signal:{signal.id}", by
    simp only [recoveredRequest, toString_text, String.append_assoc]
    rfl⟩

theorem publicationKey_first (candidateId : Nat) :
    FirstSegments (publicationKey candidateId) "candidate" (toString candidateId) :=
  ⟨by decide, plain_repr candidateId, "publication",
    by simp [publicationKey, toString_text, String.append_assoc]⟩

/-- What an event says about itself agrees with its key: a key that names a signal and
a target belongs to that move, and a coverage key to a signal that is done waiting. -/
structure WellKeyed (key : String) (signalId : Nat) (target : SignalStatus) : Prop where
  named : ∀ id status, Names key id status → signalId = id ∧ target = status
  covered : ∀ id anchor, key = coverageKey id anchor → signalId = id ∧ 0 < target.rank

theorem Names.wellKeyed {key : String} {signalId : Nat} {target : SignalStatus}
    (h : Names key signalId target) : WellKeyed key signalId target := by
  refine ⟨fun _ _ h' => h.unique h', fun id anchor hcoverage => ?_⟩
  exact absurd h (not_names (hcoverage ▸ coverageKey_first id anchor) (by decide) (by decide) _ _)

theorem wellKeyed_of_first {key : String} {signalId : Nat}
    (h : FirstSegments key "signal" (toString signalId)) {target : SignalStatus}
    (htarget : 0 < target.rank) : WellKeyed key signalId target := by
  refine ⟨fun id status hnames => absurd hnames (not_names h (by decide) (by decide) id status), ?_⟩
  rintro id anchor rfl
  exact ⟨toString_nat_injective (h.unique (coverageKey_first id anchor)).2, htarget⟩

/-- A key that is none of the service's transition keys. -/
def Neutral (key : String) : Prop :=
  (∀ id status, ¬ Names key id status) ∧ ∀ id anchor, key ≠ coverageKey id anchor

theorem Neutral.wellKeyed {key : String} (h : Neutral key) (signalId : Nat)
    (target : SignalStatus) : WellKeyed key signalId target :=
  ⟨fun id status hnames => absurd hnames (h.1 id status),
    fun id anchor hcoverage => absurd hcoverage (h.2 id anchor)⟩

theorem neutral_recovered (signal : TrackingSignalView) (anchor now : Int)
    (reason : CoverageFailure) (count : Nat) :
    Neutral (recoveredRequest signal anchor now reason count).idempotencyKey := by
  refine ⟨not_names (recoveredKey_first _ _ _ _ _) (by decide) (by decide), fun id other heq => ?_⟩
  have hword := ((recoveredKey_last signal anchor now reason count).unique
    (heq ▸ coverageKey_last id other)).1
  exact absurd hword (by decide)

theorem neutral_publication (candidateId : Nat) : Neutral (publicationKey candidateId) := by
  refine ⟨not_names (publicationKey_first _) (by decide) (by decide), fun id anchor heq => ?_⟩
  have hword := ((publicationKey_first candidateId).unique (heq ▸ coverageKey_first id anchor)).1
  exact absurd hword (by decide)

end Keys

section Log

/-- An event records the publication, a note or a legal move. -/
def Lawful (event : SignalEventRecord) : Prop :=
  ∀ current, event.statusFrom = some current →
    event.statusTo = current ∨ event.statusTo ∈ signalTransitions current

/-- Along a chain of lawful events no status ranks above the last one. -/
theorem rank_le_of_chained {events : List SignalEventRecord} {start status : SignalStatus}
    (h : Chained SignalEventRecord.statusFrom (fun event => some event.statusTo) (some start)
      events (some status)) (hlawful : ∀ event ∈ events, Lawful event) :
    start.rank ≤ status.rank ∧ ∀ event ∈ events, event.statusTo.rank ≤ status.rank := by
  induction events generalizing start with
  | nil =>
    cases h
    exact ⟨le_refl _, fun event hevent => absurd hevent List.not_mem_nil⟩
  | cons event events ih =>
    obtain ⟨hfrom, hrest⟩ := h
    obtain ⟨hnext, hall⟩ := ih hrest fun e he => hlawful e (List.mem_cons_of_mem event he)
    have hstep : start.rank ≤ event.statusTo.rank := by
      rcases hlawful event List.mem_cons_self start hfrom with hsame | hlegal
      · rw [hsame]
      · exact le_of_lt (rank_lt_of_transition hlegal)
    refine ⟨hstep.trans hnext, fun e he => ?_⟩
    rcases List.mem_cons.mp he with rfl | he
    · exact hnext
    · exact hall e he

theorem rank_le_of_eventChain {events : List SignalEventRecord} {status : SignalStatus}
    (h : EventChain events status) (hlawful : ∀ event ∈ events, Lawful event) :
    ∀ event ∈ events, event.statusTo.rank ≤ status.rank := by
  cases events with
  | nil => exact fun event hevent => absurd hevent List.not_mem_nil
  | cons first events =>
    obtain ⟨hnext, hall⟩ := rank_le_of_chained h.2 fun e he =>
      hlawful e (List.mem_cons_of_mem first he)
    intro event hevent
    rcases List.mem_cons.mp hevent with rfl | hevent
    · exact hnext
    · exact hall event hevent

/-- A sound database whose events were written by the service and the publisher. -/
structure Journal (db : Database) : Prop where
  sound : Sound db
  lawful : ∀ event ∈ db.events, Lawful event
  keyed : ∀ event ∈ db.events, WellKeyed event.idempotencyKey event.signalId event.statusTo

variable {db next : Database} {request : TransitionRequest} {signal : SignalRecord}

theorem Journal.rank_le (h : Journal db) {signalId : Nat}
    (hsignal : db.findSignal signalId = some signal) {event : SignalEventRecord}
    (hevent : event ∈ db.events) (hid : event.signalId = signalId) :
    event.statusTo.rank ≤ signal.status.rank := by
  have hsignalId : signal.id = signalId := lookup_key hsignal
  have hmem : event ∈ db.eventsOf signal.id :=
    List.mem_filter.mpr ⟨hevent, decide_eq_true (hid.trans hsignalId.symm)⟩
  exact rank_le_of_eventChain (h.sound.signals signal (lookup_mem hsignal)).chain
    (fun e he => h.lawful e (List.mem_filter.mp he).1) event hmem

/-- The key of a move that is still ahead of a signal is not recorded. -/
theorem Journal.fresh (h : Journal db) {signalId : Nat} (hsignal : db.findSignal signalId = some signal)
    {key : String} {target : SignalStatus} (hlegal : target ∈ signalTransitions signal.status)
    (hnames : Names key signalId target) : db.findEvent key = none := by
  refine lookup_eq_none.mpr fun event hevent hkey => ?_
  obtain ⟨hid, hstatus⟩ := (h.keyed event hevent).named signalId target (hkey ▸ hnames)
  have hrank := h.rank_le hsignal hevent hid
  have hahead := rank_lt_of_transition hlegal
  rw [hstatus] at hrank
  omega

/-- Neither is the coverage key of a signal that still waits. -/
theorem Journal.fresh_coverage (h : Journal db) {signalId : Nat}
    (hsignal : db.findSignal signalId = some signal) (hstatus : signal.status = .preparing)
    (anchor : Int) : db.findEvent (coverageKey signalId anchor) = none := by
  refine lookup_eq_none.mpr fun event hevent hkey => ?_
  obtain ⟨hid, hpos⟩ := (h.keyed event hevent).covered signalId anchor hkey
  have hrank := h.rank_le hsignal hevent hid
  rw [hstatus, show SignalStatus.preparing.rank = 0 from rfl] at hrank
  omega

theorem Journal.initial (instruments : List InstrumentRecord)
    (snapshots : List AnalysisSnapshotRecord) (candidates : List SignalCandidateRecord) :
    Journal (Database.initial instruments snapshots candidates) :=
  ⟨sound_initial rfl rfl rfl rfl, fun _ h => absurd h List.not_mem_nil,
    fun _ h => absurd h List.not_mem_nil⟩

theorem Journal.transitioned (h : Journal db) {trade : VirtualTradeRecord}
    {tradeStatus : VirtualTradeStatus} {outbox : List NotificationOutboxRecord}
    (hkey : WellKeyed request.idempotencyKey request.signalId request.target)
    (ht : Transitioned db next request signal trade tradeStatus outbox) : Journal next := by
  refine ⟨h.sound.transitioned ht, ?_, ?_⟩
  · rw [ht.result]
    refine forall_mem_append_singleton h.lawful fun current hcurrent => Or.inr ?_
    cases hcurrent
    exact ht.legal
  · rw [ht.result]
    exact forall_mem_append_singleton h.keyed hkey

theorem Journal.checkpointed (h : Journal db) {signalId : Nat} {tradeId : String}
    {executedAt sequence : Int}
    (hnext : checkpointTrade db signalId tradeId executedAt sequence = .ok next) :
    Journal next := by
  have hevents : next.events = db.events := by
    obtain ⟨trade, -, rfl | rfl⟩ := checkpointTrade_ok hnext
    · rfl
    · rfl
  exact ⟨h.sound.checkpointed hnext, hevents ▸ h.lawful, hevents ▸ h.keyed⟩

theorem Journal.tracked (h : Journal db) {note : TrackingRequest} {added : Bool}
    (hkey : Neutral note.idempotencyKey)
    (hnext : recordTrackingEvent db note = .ok (next, added)) : Journal next := by
  have hsound := h.sound.tracked hnext
  rcases recordTrackingEvent_ok hnext with ⟨rfl, -⟩ | ⟨-, -, signal, event, -, -, hfrom, hto, hevent,
    rfl⟩
  · exact h
  refine ⟨hsound, forall_mem_append_singleton h.lawful ?_, forall_mem_append_singleton h.keyed ?_⟩
  · intro current hcurrent
    rw [hfrom, Option.some.injEq] at hcurrent
    exact Or.inl (hto.trans hcurrent)
  · rw [hevent]
    exact hkey.wellKeyed _ _

theorem Journal.publishedOne {state after : Publishing} (h : Journal state.db)
    {config : SignalPolicyConfig} {publicationTime : Int}
    {pair : SignalCandidateRecord × SignalCandidate}
    (hpass : publishOne config publicationTime state pair = .ok after) : Journal after.db := by
  obtain ⟨signal, event, trades, hp⟩ := publishOne_ok hpass
  refine ⟨h.sound.published hp, ?_, ?_⟩
  · rw [hp.db]
    refine forall_mem_append_singleton h.lawful fun current hcurrent => ?_
    rw [hp.eventFrom] at hcurrent
    cases hcurrent
  · rw [hp.db]
    refine forall_mem_append_singleton h.keyed ?_
    rw [hp.eventKey]
    exact (neutral_publication _).wellKeyed _ _

end Log

end StructurePulse.Service
