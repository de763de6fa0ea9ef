import StructurePulse.Store.Runs
import StructurePulse.Strategy.Acceptance

/-!
# The analyses of the strategy

`saveAnalysis` stores an analysis with its candidates and publishes them, in one transaction.
An input is known by its symbol, the strategy version and the cutoffs it was read up to.
-/

namespace StructurePulse.Store
open Signals Strategy SMC Library
set_option autoImplicit false

section Tables

structure StrategyVersionRecord where
  id : Nat
  version : String
  parameterChecksum : String
  isActive : Bool := true
  deriving Repr, DecidableEq

/-- The columns of `analysis_snapshots` that `save_analysis` reads back. -/
structure SavedAnalysis where
  id : Nat
  symbol : Symbol
  strategyVersionId : Nat
  inputSignature : String
  analyzedAt : Int
  inputCutoffs : List (Timeframe × Int)
  deriving Repr, DecidableEq

/-- `uq_analysis_snapshots_symbol_version_input`. -/
def SavedAnalysis.key (row : SavedAnalysis) : Symbol × Nat × String :=
  (row.symbol, row.strategyVersionId, row.inputSignature)

/-- `uq_signal_candidates_snapshot_direction`. -/
def SignalCandidateRecord.slot (record : SignalCandidateRecord) : Nat × TradeDirection :=
  (record.analysisSnapshotId, record.direction)

/-- Whether the row has a plan to publish. -/
def SignalCandidateRecord.isTradable (record : SignalCandidateRecord) : Bool :=
  record.status == .accepted && record.entryLower.isSome

structure AnalysisStore where
  versions : List StrategyVersionRecord := []
  analyses : List SavedAnalysis := []
  nextVersionId : Nat := 1
  nextAnalysisId : Nat := 1
  nextCandidateId : Nat := 1
  db : Database
  deriving DecidableEq

/-- SHA-256 of the JSON texts. -/
structure Digests where
  parameterChecksum : StrategyConfig → String
  inputSignature : Symbol → String → List (Timeframe × Int) → String

inductive SaveError where
  | differentParameters (version : String)
  | store (error : StoreError)
  deriving Repr, DecidableEq

def SaveError.text : SaveError → String
  | .differentParameters version => s!"Strategy version {version} already has different parameters"
  | .store error => error.text

end Tables

section Saving
variable (digests : Digests) (policy : SignalPolicyConfig)

def StrategyVersionRecord.deactivated (row : StrategyVersionRecord) : StrategyVersionRecord :=
  if row.isActive then { row with isActive := false } else row

def getOrCreateVersion (store : AnalysisStore) (config : StrategyConfig) :
    Except SaveError (AnalysisStore × StrategyVersionRecord) :=
  match lookup StrategyVersionRecord.version store.versions config.version with
  | some existing =>
    if existing.parameterChecksum ≠ digests.parameterChecksum config then
      .error (.differentParameters config.version)
    else .ok (store, existing)
  | none =>
    let record : StrategyVersionRecord := {
      id := store.nextVersionId
      version := config.version
      parameterChecksum := digests.parameterChecksum config }
    .ok ({ store with
      versions := store.versions.map StrategyVersionRecord.deactivated ++ [record]
      nextVersionId := store.nextVersionId + 1 }, record)

/-- The candidates with the rows they are stored in. -/
def savedPairs (snapshotId : Nat) :
    Nat → List SignalCandidate → List (SignalCandidateRecord × SignalCandidate)
  | _, [] => []
  | id, candidate :: candidates =>
    (candidateRecord id snapshotId candidate, candidate) :: savedPairs snapshotId (id + 1) candidates

/-- The inserts of the snapshot and its candidates, and the publication. -/
def insertAnalysis (store : AnalysisStore) (row : SavedAnalysis) (fundingRate : Option ℚ)
    (candidates : List SignalCandidate) (publicationTime : Int) : Except StoreError AnalysisStore :=
  let pairs := savedPairs row.id store.nextCandidateId candidates
  let records := pairs.map Prod.fst
  if (store.db.findInstrument row.symbol).isNone then
    .error (.integrity "analysis_snapshots_symbol_fkey")
  else if records.any fun record => (store.db.findInstrument record.symbol).isNone then
    .error (.integrity "signal_candidates_symbol_fkey")
  else if ¬(records.map SignalCandidateRecord.slot).Nodup then
    .error (.integrity "uq_signal_candidates_snapshot_direction")
  else do
    let db := { store.db with
      snapshots := store.db.snapshots ++ [{ id := row.id, fundingRate := fundingRate }]
      candidates := store.db.candidates ++ records }
    let (db, _) ← publishCandidates db pairs policy publicationTime
    return { store with
      analyses := store.analyses ++ [row]
      nextAnalysisId := store.nextAnalysisId + 1
      nextCandidateId := store.nextCandidateId + candidates.length
      db := db }

/-- The row a save looks for and may insert. -/
def savedRow (store : AnalysisStore) (version : StrategyVersionRecord)
    (input : StrategyInput) (config : StrategyConfig) : SavedAnalysis where
  id := store.nextAnalysisId
  symbol := input.symbol
  strategyVersionId := version.id
  inputSignature := digests.inputSignature input.symbol config.version input.inputCutoffs
  analyzedAt := input.analyzedAt
  inputCutoffs := input.inputCutoffs

/-- The id of the snapshot, and whether it is new. -/
def saveAnalysis (store : AnalysisStore) (input : StrategyInput) (candidates : List SignalCandidate)
    (config : StrategyConfig) (publicationTime : Int) :
    Except SaveError (AnalysisStore × Nat × Bool) := do
  let (store, version) ← getOrCreateVersion digests store config
  let row := savedRow digests store version input config
  match lookup SavedAnalysis.key store.analyses row.key with
  | some existing => return (store, existing.id, false)
  | none =>
    let store ← (insertAnalysis policy store row input.market.fundingRate candidates
      publicationTime).mapError .store
    return (store, row.id, true)

end Saving

section Runs

/-- A save, or another call of the signal repository. -/
inductive AnalysisOp where
  | save (input : StrategyInput) (candidates : List SignalCandidate) (config : StrategyConfig)
      (publicationTime : Int)
  | applyTransition (request : TransitionRequest)
  | checkpointTrade (signalId : Nat) (tradeId : String) (executedAt sequence : Int)
  | recordTrackingEvent (request : TrackingRequest)

def AnalysisStore.call (store : AnalysisStore) (op : StoreOp) : Except SaveError AnalysisStore := do
  let db ← (op.exec store.db).mapError .store
  return { store with db := db }

def AnalysisStore.step (digests : Digests) (policy : SignalPolicyConfig) (store : AnalysisStore) :
    AnalysisOp → Except SaveError AnalysisStore
  | .save input candidates config publicationTime =>
    (saveAnalysis digests policy store input candidates config publicationTime).map Prod.fst
  | .applyTransition request => store.call (.applyTransition request)
  | .checkpointTrade signalId tradeId executedAt sequence =>
    store.call (.checkpointTrade signalId tradeId executedAt sequence)
  | .recordTrackingEvent request => store.call (.recordTrackingEvent request)

def AnalysisStore.initial (instruments : List InstrumentRecord) : AnalysisStore where
  db := Database.initial instruments [] []

end Runs

section Publishing
variable {config : SignalPolicyConfig} {publicationTime : Int}

/-- What a call keeps of the tables that analyses write. -/
structure Untouched (db next : Database) : Prop where
  instruments : next.instruments = db.instruments
  snapshots : next.snapshots = db.snapshots
  candidates : next.candidates = db.candidates

/-- The signals a publication adds, in the order of their candidates. -/
theorem publishing_added {pairs : List (SignalCandidateRecord × SignalCandidate)}
    {state final : Publishing}
    (h : pairs.foldlM (publishOne config publicationTime) state = .ok final) :
    Untouched state.db final.db ∧ final.db.signals.map SignalRecord.candidateId =
      state.db.signals.map SignalRecord.candidateId ++ pairs.map fun pair => pair.1.id := by
  induction pairs generalizing state with
  | nil =>
    cases h
    exact ⟨⟨rfl, rfl, rfl⟩, (List.append_nil _).symm⟩
  | cons pair pairs ih =>
    obtain ⟨record, candidate⟩ := pair
    obtain ⟨next, hnext, hrest⟩ := bind_eq_ok.mp h
    obtain ⟨published, event, trades, hpublished⟩ := publishOne_ok hnext
    obtain ⟨⟨hinstruments, hsnapshots, hcandidates⟩, hsignals⟩ := ih hrest
    rw [hpublished.db] at hinstruments hsnapshots hcandidates hsignals
    refine ⟨⟨hinstruments, hsnapshots, hcandidates⟩, ?_⟩
    rw [hsignals, List.map_append, List.map_singleton, hpublished.candidateId, List.append_assoc]
    rfl

theorem publishCandidates_added {db next : Database}
    {pairs : List (SignalCandidateRecord × SignalCandidate)} {result : SignalPublicationResult}
    (h : publishCandidates db pairs config publicationTime = .ok (next, result)) :
    Untouched db next ∧ next.signals.map SignalRecord.candidateId =
      db.signals.map SignalRecord.candidateId ++ (accepted pairs).map fun pair => pair.1.id := by
  unfold publishCandidates at h
  split at h
  · rename_i hempty
    cases h
    rw [List.isEmpty_iff.mp hempty]
    exact ⟨⟨rfl, rfl, rfl⟩, (List.append_nil _).symm⟩
  · obtain ⟨state, hstate, hnext⟩ := bind_eq_ok.mp h
    cases hnext
    exact publishing_added hstate

theorem savedPairs_ids (snapshotId : Nat) (id : Nat) (candidates : List SignalCandidate) :
    (savedPairs snapshotId id candidates).map (fun pair => pair.1.id) =
      List.range' id candidates.length := by
  induction candidates generalizing id with
  | nil => rfl
  | cons candidate candidates ih =>
    rw [savedPairs, List.map_cons, ih, List.length_cons, List.range'_succ]
    rfl

theorem savedPairs_row {snapshotId id : Nat} {candidates : List SignalCandidate}
    {pair : SignalCandidateRecord × SignalCandidate}
    (h : pair ∈ savedPairs snapshotId id candidates) :
    pair.1 = candidateRecord pair.1.id snapshotId pair.2 := by
  induction candidates generalizing id with
  | nil => cases h
  | cons candidate candidates ih =>
    rcases List.mem_cons.mp h with rfl | h
    · rfl
    · exact ih h

theorem savedPairs_bounds {snapshotId id : Nat} {candidates : List SignalCandidate}
    {pair : SignalCandidateRecord × SignalCandidate}
    (h : pair ∈ savedPairs snapshotId id candidates) :
    id ≤ pair.1.id ∧ pair.1.id < id + candidates.length := by
  have hmem := List.mem_map_of_mem (f := fun pair => pair.1.id) h
  rw [savedPairs_ids, List.mem_range'_1] at hmem
  exact hmem

/-- A row has a plan exactly when its candidate is one that is published. -/
theorem mem_accepted_savedPairs {snapshotId id : Nat} {candidates : List SignalCandidate}
    {pair : SignalCandidateRecord × SignalCandidate}
    (h : pair ∈ savedPairs snapshotId id candidates) :
    pair ∈ accepted (savedPairs snapshotId id candidates) ↔ pair.1.isTradable = true := by
  unfold accepted SignalCandidateRecord.isTradable
  rw [savedPairs_row h, List.mem_filter]
  simp only [candidateRecord, Option.isSome_map, Bool.and_eq_true, beq_iff_eq, decide_eq_true_eq]
  exact ⟨fun hmem => hmem.2, fun htradable => ⟨h, htradable⟩⟩

theorem savedPairs_nodup (snapshotId id : Nat) (candidates : List SignalCandidate) :
    ((savedPairs snapshotId id candidates).map fun pair => pair.1.id).Nodup := by
  rw [savedPairs_ids]
  exact List.nodup_range'

/-- Each published row has one new signal. -/
theorem count_accepted {snapshotId id : Nat} {candidates : List SignalCandidate}
    {pair : SignalCandidateRecord × SignalCandidate}
    (h : pair ∈ savedPairs snapshotId id candidates) :
    ((accepted (savedPairs snapshotId id candidates)).map fun pair => pair.1.id).count pair.1.id =
      if pair.1.isTradable then 1 else 0 := by
  have hnodup := savedPairs_nodup snapshotId id candidates
  have hsublist : ((accepted (savedPairs snapshotId id candidates)).map
      fun pair => pair.1.id).Nodup := hnodup.sublist (List.filter_sublist.map _)
  by_cases htradable : pair.1.isTradable = true
  · rw [if_pos htradable]
    apply List.count_eq_one_of_mem hsublist
    exact List.mem_map_of_mem ((mem_accepted_savedPairs h).mpr htradable)
  · rw [if_neg htradable]
    apply List.count_eq_zero_of_not_mem
    intro hmem
    obtain ⟨other, hother, hid⟩ := List.mem_map.mp hmem
    have hsame : other = pair :=
      List.inj_on_of_nodup_map hnodup (List.mem_filter.mp hother).1 h hid
    rw [hsame] at hother
    exact htradable ((mem_accepted_savedPairs h).mp hother)

theorem count_accepted_of_lt {snapshotId id other : Nat} {candidates : List SignalCandidate}
    (h : other < id) :
    ((accepted (savedPairs snapshotId id candidates)).map fun pair => pair.1.id).count other = 0 := by
  apply List.count_eq_zero_of_not_mem
  intro hmem
  obtain ⟨pair, hpair, hid⟩ := List.mem_map.mp hmem
  have hbound := (savedPairs_bounds (List.mem_filter.mp hpair).1).1
  omega

end Publishing

section Invariant
variable {digests : Digests} {policy : SignalPolicyConfig} {store next : AnalysisStore}

/-- The newest version is the active one, a key has one analysis, a slot one candidate, and a
candidate with a plan one signal. -/
structure Filed (store : AnalysisStore) : Prop where
  sound : Sound store.db
  names : (store.versions.map StrategyVersionRecord.version).Nodup
  versionIds : (store.versions.map StrategyVersionRecord.id).Nodup
  versionsBelow : ∀ row ∈ store.versions, row.id < store.nextVersionId
  active : store.versions.filter StrategyVersionRecord.isActive = store.versions.getLast?.toList
  keys : (store.analyses.map SavedAnalysis.key).Nodup
  analysisIds : (store.analyses.map SavedAnalysis.id).Nodup
  analysesBelow : ∀ row ∈ store.analyses, row.id < store.nextAnalysisId
  versioned : ∀ row ∈ store.analyses, ∃ version ∈ store.versions, version.id = row.strategyVersionId
  candidatesBelow : ∀ record ∈ store.db.candidates, record.id < store.nextCandidateId
  slots : (store.db.candidates.map SignalCandidateRecord.slot).Nodup
  filed : ∀ record ∈ store.db.candidates, ∃ row ∈ store.analyses, row.id = record.analysisSnapshotId
  published : ∀ record ∈ store.db.candidates,
    (store.db.signals.map SignalRecord.candidateId).count record.id =
      if record.isTradable then 1 else 0

theorem filed_initial (instruments : List InstrumentRecord) :
    Filed (AnalysisStore.initial instruments) := by
  have hsound : Sound (AnalysisStore.initial instruments).db := sound_initial rfl rfl rfl rfl
  constructor <;> first | exact hsound | exact List.nodup_nil | rfl | (intro row hrow; cases hrow)

theorem deactivated_fields (row : StrategyVersionRecord) :
    row.deactivated.id = row.id ∧ row.deactivated.version = row.version ∧
      row.deactivated.parameterChecksum = row.parameterChecksum ∧ row.deactivated.isActive = false := by
  unfold StrategyVersionRecord.deactivated
  split
  · exact ⟨rfl, rfl, rfl, rfl⟩
  · rename_i h
    exact ⟨rfl, rfl, rfl, Bool.eq_false_iff.mpr h⟩

theorem map_deactivated {α : Type} {f : StrategyVersionRecord → α}
    (hf : ∀ row, f row.deactivated = f row) (rows : List StrategyVersionRecord) :
    (rows.map StrategyVersionRecord.deactivated).map f = rows.map f := by
  rw [List.map_map]
  exact List.map_congr_left fun row _ => hf row

/-- A version that is new becomes the active one. -/
theorem Filed.versioned_new (h : Filed store) {record : StrategyVersionRecord}
    (hid : record.id = store.nextVersionId) (hactive : record.isActive = true)
    (hname : lookup StrategyVersionRecord.version store.versions record.version = none) :
    Filed { store with
      versions := store.versions.map StrategyVersionRecord.deactivated ++ [record]
      nextVersionId := store.nextVersionId + 1 } := by
  have hids := map_deactivated (fun row => (deactivated_fields row).1) store.versions
  have hnames := map_deactivated (fun row => (deactivated_fields row).2.1) store.versions
  refine ⟨h.sound, ?_, ?_, ?_, ?_, h.keys, h.analysisIds, h.analysesBelow, ?_, h.candidatesBelow,
    h.slots, h.filed, h.published⟩
  · apply nodup_keys_append
    · rw [hnames]
      exact h.names
    · intro row hrow
      obtain ⟨old, hold, rfl⟩ := List.mem_map.mp hrow
      rw [(deactivated_fields old).2.1]
      exact lookup_eq_none.mp hname old hold
  · apply nodup_keys_append
    · rw [hids]
      exact h.versionIds
    · intro row hrow
      obtain ⟨old, hold, rfl⟩ := List.mem_map.mp hrow
      have hbelow := h.versionsBelow old hold
      rw [(deactivated_fields old).1, hid]
      omega
  · apply forall_mem_append_singleton
    · intro row hrow
      obtain ⟨old, hold, rfl⟩ := List.mem_map.mp hrow
      rw [(deactivated_fields old).1]
      exact Nat.lt_succ_of_lt (h.versionsBelow old hold)
    · rw [hid]
      exact Nat.lt_succ_self _
  · have hnone : (store.versions.map StrategyVersionRecord.deactivated).filter
        StrategyVersionRecord.isActive = [] := by
      apply List.filter_eq_nil_iff.mpr
      intro row hrow
      obtain ⟨old, -, rfl⟩ := List.mem_map.mp hrow
      rw [(deactivated_fields old).2.2.2]
      exact Bool.false_ne_true
    rw [List.filter_append, hnone, List.filter_singleton, hactive, List.getLast?_concat]
    rfl
  · intro row hrow
    obtain ⟨version, hversion, hversionId⟩ := h.versioned row hrow
    refine ⟨version.deactivated, ?_, (deactivated_fields version).1.trans hversionId⟩
    exact List.mem_append_left _ (List.mem_map_of_mem hversion)

theorem Filed.getOrCreateVersion (h : Filed store) {config : StrategyConfig}
    {version : StrategyVersionRecord}
    (hget : Store.getOrCreateVersion digests store config = .ok (next, version)) :
    Filed next ∧ version ∈ next.versions := by
  unfold Store.getOrCreateVersion at hget
  split at hget
  · rename_i existing hexisting
    split at hget
    · cases hget
    · cases hget
      exact ⟨h, lookup_mem hexisting⟩
  · rename_i hnew
    cases hget
    exact ⟨h.versioned_new rfl rfl hnew, List.mem_append_right _ (List.mem_singleton_self _)⟩

/-- Rows that no signal names yet. -/
theorem Sound.inserted {db : Database} (h : Sound db) (snapshots : List AnalysisSnapshotRecord)
    (records : List SignalCandidateRecord) :
    Sound { db with
      snapshots := db.snapshots ++ snapshots
      candidates := db.candidates ++ records } := by
  refine ⟨h.ids, h.signalsBelow, h.tradesBelow, h.eventsBelow, h.keys, h.outbox, h.oneActive, ?_⟩
  intro signal hsignal
  obtain ⟨hchain, htrade, hversion, hclosed, hcandidate⟩ := h.signals signal hsignal
  refine ⟨hchain, htrade, hversion, hclosed, ?_⟩
  obtain ⟨record, hrecord⟩ := Option.isSome_iff_exists.mp hcandidate
  have hkept : lookup SignalCandidateRecord.id (db.candidates ++ records) signal.candidateId =
      some record := lookup_append_of_some hrecord
  exact Option.isSome_iff_exists.mpr ⟨record, hkept⟩

/-- The signals before the insert are of older candidates. -/
theorem Filed.count_fresh (h : Filed store) {id : Nat} (hid : store.nextCandidateId ≤ id) :
    (store.db.signals.map SignalRecord.candidateId).count id = 0 := by
  apply List.count_eq_zero_of_not_mem
  intro hmem
  obtain ⟨signal, hsignal, rfl⟩ := List.mem_map.mp hmem
  obtain ⟨record, hrecord⟩ :=
    Option.isSome_iff_exists.mp (h.sound.signals signal hsignal).candidate
  have hbelow := h.candidatesBelow record (lookup_mem hrecord)
  have hkey : record.id = signal.candidateId := lookup_key hrecord
  omega

/-- What an insert that commits has done. -/
theorem insertAnalysis_ok {row : SavedAnalysis} {fundingRate : Option ℚ}
    {candidates : List SignalCandidate} {publicationTime : Int}
    (h : insertAnalysis policy store row fundingRate candidates publicationTime = .ok next) :
    ∃ db, next = { store with
        analyses := store.analyses ++ [row]
        nextAnalysisId := store.nextAnalysisId + 1
        nextCandidateId := store.nextCandidateId + candidates.length
        db := db } ∧
      (((savedPairs row.id store.nextCandidateId candidates).map Prod.fst).map
        SignalCandidateRecord.slot).Nodup ∧
      (Sound store.db → Sound db) ∧
      db.candidates = store.db.candidates ++
        (savedPairs row.id store.nextCandidateId candidates).map Prod.fst ∧
      db.signals.map SignalRecord.candidateId = store.db.signals.map SignalRecord.candidateId ++
        (accepted (savedPairs row.id store.nextCandidateId candidates)).map fun pair => pair.1.id := by
  unfold insertAnalysis at h
  simp only at h
  split at h
  · cases h
  · split at h
    · cases h
    · split at h
      · cases h
      · rename_i hslots
        obtain ⟨⟨db, result⟩, hpublish, hnext⟩ := bind_eq_ok.mp h
        cases hnext
        obtain ⟨huntouched, hsignals⟩ := publishCandidates_added hpublish
        refine ⟨db, rfl, not_not.mp hslots, ?_, huntouched.candidates, hsignals⟩
        intro hsound
        have hop : (StoreOp.publishCandidates (savedPairs row.id store.nextCandidateId candidates)
            policy publicationTime).exec { store.db with
              snapshots := store.db.snapshots ++ [{ id := row.id, fundingRate := fundingRate }]
              candidates := store.db.candidates ++
                (savedPairs row.id store.nextCandidateId candidates).map Prod.fst } = .ok db := by
          unfold StoreOp.exec
          simp only [hpublish]
          rfl
        exact (hsound.inserted _ _).committed (exec_committed hop)

theorem Filed.inserted (h : Filed store) {row : SavedAnalysis} {fundingRate : Option ℚ}
    {candidates : List SignalCandidate} {publicationTime : Int} (hid : row.id = store.nextAnalysisId)
    (hversion : ∃ version ∈ store.versions, version.id = row.strategyVersionId)
    (hkey : lookup SavedAnalysis.key store.analyses row.key = none)
    (hinsert : insertAnalysis policy store row fundingRate candidates publicationTime = .ok next) :
    Filed next := by
  obtain ⟨db, rfl, hslots, hsound, hcandidates, hsignals⟩ := insertAnalysis_ok hinsert
  have hfresh : ∀ old ∈ store.analyses, old.id ≠ row.id := by
    intro old hold
    have hbelow := h.analysesBelow old hold
    omega
  have hnew : ∀ record ∈ (savedPairs row.id store.nextCandidateId candidates).map Prod.fst,
      ∃ pair ∈ savedPairs row.id store.nextCandidateId candidates, pair.1 = record ∧
        record.analysisSnapshotId = row.id := by
    intro record hrecord
    obtain ⟨pair, hpair, rfl⟩ := List.mem_map.mp hrecord
    refine ⟨pair, hpair, rfl, ?_⟩
    rw [savedPairs_row hpair]
    rfl
  refine ⟨hsound h.sound, h.names, h.versionIds, h.versionsBelow, h.active,
    nodup_keys_append h.keys (lookup_eq_none.mp hkey), nodup_keys_append h.analysisIds hfresh, ?_,
    forall_mem_append_singleton h.versioned hversion, ?_, ?_, ?_, ?_⟩
  · apply forall_mem_append_singleton
    · intro old hold
      exact Nat.lt_succ_of_lt (h.analysesBelow old hold)
    · rw [hid]
      exact Nat.lt_succ_self _
  · intro record hrecord
    rw [hcandidates] at hrecord
    rcases List.mem_append.mp hrecord with hold | hadded
    · exact Nat.lt_add_right _ (h.candidatesBelow record hold)
    · obtain ⟨pair, hpair, rfl, -⟩ := hnew record hadded
      exact (savedPairs_bounds hpair).2
  · simp only [hcandidates, List.map_append]
    apply List.Nodup.append h.slots hslots
    intro slot holds hadded
    obtain ⟨old, hold, rfl⟩ := List.mem_map.mp holds
    obtain ⟨record, hrecord, hslot⟩ := List.mem_map.mp hadded
    obtain ⟨analysis, hanalysis, hanalysisId⟩ := h.filed old hold
    obtain ⟨-, -, -, hsnapshot⟩ := hnew record hrecord
    apply hfresh analysis hanalysis
    rw [hanalysisId, ← hsnapshot]
    exact (congrArg Prod.fst hslot).symm
  · intro record hrecord
    rw [hcandidates] at hrecord
    rcases List.mem_append.mp hrecord with hold | hadded
    · obtain ⟨analysis, hanalysis, hanalysisId⟩ := h.filed record hold
      exact ⟨analysis, List.mem_append_left _ hanalysis, hanalysisId⟩
    · obtain ⟨-, -, -, hsnapshot⟩ := hnew record hadded
      exact ⟨row, List.mem_append_right _ (List.mem_singleton_self row), hsnapshot.symm⟩
  · intro record hrecord
    rw [hcandidates] at hrecord
    simp only [hsignals, List.count_append]
    rcases List.mem_append.mp hrecord with hold | hadded
    · rw [count_accepted_of_lt (h.candidatesBelow record hold), Nat.add_zero]
      exact h.published record hold
    · obtain ⟨pair, hpair, rfl, -⟩ := hnew record hadded
      rw [h.count_fresh (savedPairs_bounds hpair).1, Nat.zero_add]
      exact count_accepted hpair

/-- A call of the repository that does not publish. -/
theorem call_untouched {db next : Database} {op : StoreOp} (h : op.exec db = .ok next)
    (hsound : Sound db) (hop : ∀ candidates config time, op ≠ .publishCandidates candidates config time) :
    Untouched db next ∧
      next.signals.map SignalRecord.candidateId = db.signals.map SignalRecord.candidateId := by
  cases op with
  | publishCandidates candidates config time => exact absurd rfl (hop candidates config time)
  | applyTransition request =>
    obtain ⟨result, h⟩ := map_fst_ok h
    rcases applyTransition_ok h with ⟨rfl, -, -⟩ | ⟨-, signal, trade, tradeStatus, outbox, h⟩
    · exact ⟨⟨rfl, rfl, rfl⟩, rfl⟩
    · rw [h.result]
      refine ⟨⟨rfl, rfl, rfl⟩, ?_⟩
      unfold replaceRow
      rw [List.map_map]
      apply List.map_congr_left
      intro row hrow
      by_cases hid : row.id = (signal.transitioned request.target request.eventTime).id
      · have hsame : row = signal :=
          List.inj_on_of_nodup_map hsound.ids hrow (lookup_mem h.signalRow) hid
        rw [Function.comp_apply, if_pos hid, hsame]
        rfl
      · rw [Function.comp_apply, if_neg hid]
  | checkpointTrade signalId tradeId executedAt sequence =>
    obtain ⟨trade, -, rfl | rfl⟩ := checkpointTrade_ok h
    · exact ⟨⟨rfl, rfl, rfl⟩, rfl⟩
    · exact ⟨⟨rfl, rfl, rfl⟩, rfl⟩
  | recordTrackingEvent request =>
    obtain ⟨added, h⟩ := map_fst_ok h
    rcases recordTrackingEvent_ok h with ⟨rfl, -⟩ | ⟨-, -, _, _, -, -, -, -, -, rfl⟩
    · exact ⟨⟨rfl, rfl, rfl⟩, rfl⟩
    · exact ⟨⟨rfl, rfl, rfl⟩, rfl⟩

theorem mapError_ok {α ε δ : Type} {x : Except ε α} {f : ε → δ} {a : α}
    (h : x.mapError f = .ok a) : x = .ok a := by
  cases x with
  | error e => cases h
  | ok b =>
    cases h
    rfl

theorem call_ok {op : StoreOp} (h : store.call op = .ok next) :
    ∃ db, op.exec store.db = .ok db ∧ next = { store with db := db } := by
  obtain ⟨db, hdb, hnext⟩ := bind_eq_ok.mp h
  cases hnext
  exact ⟨db, mapError_ok hdb, rfl⟩

theorem Filed.called (h : Filed store) {op : StoreOp} (hcall : store.call op = .ok next)
    (hop : ∀ candidates config time, op ≠ .publishCandidates candidates config time) :
    Filed next := by
  obtain ⟨db, hdb, rfl⟩ := call_ok hcall
  obtain ⟨huntouched, hsignals⟩ := call_untouched hdb h.sound hop
  refine ⟨h.sound.committed (exec_committed hdb), h.names, h.versionIds, h.versionsBelow, h.active,
    h.keys, h.analysisIds, h.analysesBelow, h.versioned, ?_, ?_, ?_, ?_⟩
  · rw [huntouched.candidates]
    exact h.candidatesBelow
  · rw [huntouched.candidates]
    exact h.slots
  · rw [huntouched.candidates]
    exact h.filed
  · simp only [huntouched.candidates, hsignals]
    exact h.published

/-- A save finds its input or inserts it. -/
theorem saveAnalysis_ok {input : StrategyInput} {candidates : List SignalCandidate}
    {config : StrategyConfig} {publicationTime : Int} {id : Nat} {created : Bool}
    (h : saveAnalysis digests policy store input candidates config publicationTime =
      .ok (next, id, created)) :
    ∃ versioned version, getOrCreateVersion digests store config = .ok (versioned, version) ∧
      ((∃ existing, lookup SavedAnalysis.key versioned.analyses
          (savedRow digests versioned version input config).key = some existing ∧
          existing.id = id ∧ next = versioned ∧ created = false) ∨
        (lookup SavedAnalysis.key versioned.analyses
            (savedRow digests versioned version input config).key = none ∧
          versioned.nextAnalysisId = id ∧ created = true ∧
          insertAnalysis policy versioned (savedRow digests versioned version input config)
            input.market.fundingRate candidates publicationTime = .ok next)) := by
  obtain ⟨⟨versioned, version⟩, hversion, h⟩ := bind_eq_ok.mp h
  refine ⟨versioned, version, hversion, ?_⟩
  simp only at h
  split at h
  · rename_i existing hexisting
    cases h
    exact Or.inl ⟨existing, hexisting, rfl, rfl, rfl⟩
  · rename_i hnew
    obtain ⟨inserted, hinserted, hnext⟩ := bind_eq_ok.mp h
    cases hnext
    exact Or.inr ⟨hnew, rfl, rfl, mapError_ok hinserted⟩

theorem Filed.saved (h : Filed store) {input : StrategyInput} {candidates : List SignalCandidate}
    {config : StrategyConfig} {publicationTime : Int} {id : Nat} {created : Bool}
    (hsave : saveAnalysis digests policy store input candidates config publicationTime =
      .ok (next, id, created)) : Filed next := by
  obtain ⟨versioned, version, hversion, ⟨existing, -, -, rfl, -⟩ | ⟨hnew, -, -, hinsert⟩⟩ :=
    saveAnalysis_ok hsave
  · exact (h.getOrCreateVersion hversion).1
  · obtain ⟨hfiled, hmem⟩ := h.getOrCreateVersion hversion
    exact hfiled.inserted rfl ⟨version, hmem, rfl⟩ hnew hinsert

theorem Filed.step (h : Filed store) {op : AnalysisOp}
    (hstep : store.step digests policy op = .ok next) : Filed next := by
  cases op with
  | save input candidates config publicationTime =>
    obtain ⟨⟨id, created⟩, hsave⟩ := map_fst_ok hstep
    exact h.saved hsave
  | applyTransition _ | checkpointTrade _ _ _ _ | recordTrackingEvent _ =>
    apply h.called hstep
    intro candidates config time hop
    cases hop

end Invariant

section Extension
variable {digests : Digests} {policy : SignalPolicyConfig} {store next : AnalysisStore}

/-- No version is renamed or changed, no analysis is removed. -/
structure Extends (store next : AnalysisStore) : Prop where
  versions : ∀ name row, lookup StrategyVersionRecord.version store.versions name = some row →
    ∃ kept, lookup StrategyVersionRecord.version next.versions name = some kept ∧
      kept.id = row.id ∧ kept.parameterChecksum = row.parameterChecksum
  analyses : ∃ more, next.analyses = store.analyses ++ more

theorem Extends.of_eq (hversions : next.versions = store.versions)
    (hanalyses : ∃ more, next.analyses = store.analyses ++ more) : Extends store next := by
  refine ⟨?_, hanalyses⟩
  intro name row hrow
  rw [hversions]
  exact ⟨row, hrow, rfl, rfl⟩

theorem Extends.refl (store : AnalysisStore) : Extends store store :=
  .of_eq rfl ⟨[], (List.append_nil _).symm⟩

theorem Extends.trans {middle : AnalysisStore} (h : Extends store middle)
    (h' : Extends middle next) : Extends store next := by
  constructor
  · intro name row hrow
    obtain ⟨kept, hkept, hid, hchecksum⟩ := h.versions name row hrow
    obtain ⟨last, hlast, hlastId, hlastChecksum⟩ := h'.versions name kept hkept
    exact ⟨last, hlast, hlastId.trans hid, hlastChecksum.trans hchecksum⟩
  · obtain ⟨more, hmore⟩ := h.analyses
    obtain ⟨others, hothers⟩ := h'.analyses
    exact ⟨more ++ others, by rw [hothers, hmore, List.append_assoc]⟩

theorem lookup_deactivated (rows : List StrategyVersionRecord) (name : String) :
    lookup StrategyVersionRecord.version (rows.map StrategyVersionRecord.deactivated) name =
      (lookup StrategyVersionRecord.version rows name).map StrategyVersionRecord.deactivated := by
  induction rows with
  | nil => rfl
  | cons row rows ih =>
    unfold lookup at ih ⊢
    rw [List.map_cons, List.find?_cons, List.find?_cons, (deactivated_fields row).2.1]
    by_cases hname : row.version = name
    · rw [decide_eq_true hname]
      rfl
    · rw [decide_eq_false hname]
      exact ih

theorem getOrCreateVersion_extends {config : StrategyConfig} {version : StrategyVersionRecord}
    (hget : getOrCreateVersion digests store config = .ok (next, version)) :
    Extends store next ∧
      lookup StrategyVersionRecord.version next.versions config.version = some version ∧
      version.parameterChecksum = digests.parameterChecksum config := by
  unfold getOrCreateVersion at hget
  split at hget
  · rename_i existing hexisting
    split at hget
    · cases hget
    · rename_i hchecksum
      cases hget
      exact ⟨Extends.refl store, hexisting, not_not.mp hchecksum⟩
  · rename_i hnew
    cases hget
    refine ⟨⟨?_, [], (List.append_nil _).symm⟩, ?_, rfl⟩
    · intro name row hrow
      refine ⟨row.deactivated, ?_, (deactivated_fields row).1, (deactivated_fields row).2.2.1⟩
      apply lookup_append_of_some
      rw [lookup_deactivated, hrow]
      rfl
    · apply lookup_append_self
      intro row hrow
      obtain ⟨old, hold, rfl⟩ := List.mem_map.mp hrow
      rw [(deactivated_fields old).2.1]
      exact lookup_eq_none.mp hnew old hold

/-- After a save the input is found under the id it returned. -/
theorem saveAnalysis_found {input : StrategyInput} {candidates : List SignalCandidate}
    {config : StrategyConfig} {publicationTime : Int} {id : Nat} {created : Bool}
    (hsave : saveAnalysis digests policy store input candidates config publicationTime =
      .ok (next, id, created)) :
    Extends store next ∧ ∃ version row,
      lookup StrategyVersionRecord.version next.versions config.version = some version ∧
      version.parameterChecksum = digests.parameterChecksum config ∧
      lookup SavedAnalysis.key next.analyses (input.symbol, version.id,
        digests.inputSignature input.symbol config.version input.inputCutoffs) = some row ∧
      row.id = id := by
  obtain ⟨versioned, version, hversion, hcases⟩ := saveAnalysis_ok hsave
  obtain ⟨hextends, hlookup, hchecksum⟩ := getOrCreateVersion_extends hversion
  rcases hcases with ⟨existing, hexisting, hid, rfl, -⟩ | ⟨hnew, hid, -, hinsert⟩
  · exact ⟨hextends, version, existing, hlookup, hchecksum, hexisting, hid⟩
  · obtain ⟨db, rfl, -⟩ := insertAnalysis_ok hinsert
    refine ⟨hextends.trans (.of_eq rfl ⟨_, rfl⟩), version, savedRow digests versioned version input
      config, hlookup, hchecksum, ?_, hid⟩
    exact lookup_append_self (lookup_eq_none.mp hnew)

theorem extends_step {op : AnalysisOp} (hstep : store.step digests policy op = .ok next) :
    Extends store next := by
  cases op with
  | save input candidates config publicationTime =>
    obtain ⟨⟨id, created⟩, hsave⟩ := map_fst_ok hstep
    exact (saveAnalysis_found hsave).1
  | applyTransition _ | checkpointTrade _ _ _ _ | recordTrackingEvent _ =>
    obtain ⟨db, -, rfl⟩ := call_ok hstep
    exact .of_eq rfl ⟨[], (List.append_nil _).symm⟩

theorem extends_runAll (store : AnalysisStore) (ops : List AnalysisOp) :
    Extends store (runAll (AnalysisStore.step digests policy) store ops) := by
  refine runAll_invariant (P := Extends store) ?_ (Extends.refl store) ops
  intro before op after h hstep
  exact h.trans (extends_step hstep)

end Extension

section Results
variable (digests : Digests) (policy : SignalPolicyConfig)

/-- In every run of saves, transitions, checkpoints and tracking events: one version is active,
the newest; an input is stored once for each version, with at most one candidate for each
direction; and a candidate has exactly one signal if it is accepted with a plan, and none
otherwise. -/
theorem candidates_published_once (instruments : List InstrumentRecord) (ops : List AnalysisOp) :
    let store := runAll (AnalysisStore.step digests policy) (AnalysisStore.initial instruments) ops
    (store.versions.map StrategyVersionRecord.version).Nodup ∧
    (store.versions.map StrategyVersionRecord.id).Nodup ∧
    store.versions.filter StrategyVersionRecord.isActive = store.versions.getLast?.toList ∧
    (store.analyses.map SavedAnalysis.key).Nodup ∧
    (store.db.candidates.map SignalCandidateRecord.slot).Nodup ∧
    ∀ record ∈ store.db.candidates,
      (∃ row ∈ store.analyses, row.id = record.analysisSnapshotId) ∧
      (store.db.signals.map SignalRecord.candidateId).count record.id =
        if record.isTradable then 1 else 0 := by
  intro store
  have hfiled : Filed store :=
    runAll_invariant (fun _ _ _ h hstep => h.step hstep) (filed_initial instruments) ops
  refine ⟨hfiled.names, hfiled.versionIds, hfiled.active, hfiled.keys, hfiled.slots, ?_⟩
  intro record hrecord
  exact ⟨hfiled.filed record hrecord, hfiled.published record hrecord⟩

variable {digests policy}

/-- An input that was saved is found again, whatever happened in between: to save it once more
changes nothing and publishes nothing. -/
theorem saved_again {store next : AnalysisStore} {input : StrategyInput}
    {candidates : List SignalCandidate} {config : StrategyConfig} {publicationTime : Int} {id : Nat}
    {created : Bool}
    (hsave : saveAnalysis digests policy store input candidates config publicationTime =
      .ok (next, id, created))
    (ops : List AnalysisOp) {again : StrategyInput} (hsymbol : again.symbol = input.symbol)
    (hcutoffs : again.inputCutoffs = input.inputCutoffs) (others : List SignalCandidate)
    (later : Int) :
    let after := runAll (AnalysisStore.step digests policy) next ops
    saveAnalysis digests policy after again others config later = .ok (after, id, false) := by
  intro after
  obtain ⟨-, version, row, hversion, hchecksum, hrow, hid⟩ := saveAnalysis_found hsave
  obtain ⟨hversions, more, hmore⟩ := @extends_runAll digests policy next ops
  obtain ⟨kept, hkept, hkeptId, hkeptChecksum⟩ := hversions config.version version hversion
  have hget : getOrCreateVersion digests after config = .ok (after, kept) := by
    unfold getOrCreateVersion
    simp only [after, hkept]
    rw [if_neg (not_not.mpr (hkeptChecksum.trans hchecksum))]
  have hfound : lookup SavedAnalysis.key after.analyses
      (savedRow digests after kept again config).key = some row := by
    have hkey : (savedRow digests after kept again config).key = (input.symbol, version.id,
        digests.inputSignature input.symbol config.version input.inputCutoffs) := by
      unfold savedRow SavedAnalysis.key
      simp only [hsymbol, hcutoffs, hkeptId]
    rw [hkey]
    exact (congrArg (fun rows => lookup SavedAnalysis.key rows _) hmore).trans
      (lookup_append_of_some hrow)
  unfold saveAnalysis
  rw [hget, ok_bind]
  simp only [hfound]
  rw [hid]
  rfl

def sampleDigests : Digests where
  parameterChecksum config := config.version
  inputSignature symbol version _ := symbol ++ version

/-- What a cycle saves of the sample input. -/
def saveSample (store : AnalysisStore) : Except SaveError (AnalysisStore × Nat × Bool) :=
  saveAnalysis sampleDigests .standard store (sampleStrategyInput 90 92 130 5) [sampleCandidate]
    .standard 0

def savedSample : AnalysisStore :=
  match saveSample (AnalysisStore.initial [⟨"BTCUSDT", 480⟩]) with
  | .ok (store, _) => store
  | .error _ => AnalysisStore.initial []

/-- Its signal is prepared; it becomes active and the next cycle saves the input once more. -/
theorem saved_again_sample :
    let after := runAll (AnalysisStore.step sampleDigests .standard) savedSample
      [.applyTransition { signalId := 1, target := .active, eventTime := 1, idempotencyKey := "a",
                          eventType := "trade_coverage_ready" }]
    after.db.signals.map SignalRecord.status = [.active] ∧ saveSample after = .ok (after, 1, false) := by
  have hsave : saveSample (AnalysisStore.initial [⟨"BTCUSDT", 480⟩]) = .ok (savedSample, 1, true) := by
    decide +kernel
  exact ⟨by decide +kernel, saved_again hsave _ rfl rfl [sampleCandidate] 0⟩

end Results

end StructurePulse.Store
