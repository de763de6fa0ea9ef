import StructurePulse.Aggregation.Jobs
import Mathlib.Data.List.Dedup

/-!
# Aggregation workers at work

Any number of workers and writers share the tables. One action is one transaction, a
step of a worker between two transactions, or a crash; a run is any list of actions.
`claims` logs the claims, `loads` counts the loads and `written` says which load the
newest stored result of an interval came from.
-/

namespace StructurePulse.Aggregation
open Library SMC MarketData
set_option autoImplicit false

section Machine

/-- Where a worker stands in `run` and `_process_job`. -/
inductive Worker where
  | stopped
  | running (queue : List AggregationJob)
  | loaded (job : AggregationJob) (candles : List Candle1m) (stamp : Nat)
      (queue : List AggregationJob)
  deriving Repr, DecidableEq

/-- The claimed jobs the worker has not finished. -/
def Worker.held : Worker → List AggregationJob
  | .stopped => []
  | .running queue => queue
  | .loaded job _ _ queue => job :: queue

structure World where
  tables : MarketTables := {}
  workers : Nat → Worker := fun _ => .stopped
  claims : List (Nat × Int) := []
  loads : Nat := 0
  written : Interval → Nat := fun _ => 0

inductive Action where
  | start (worker : Nat) (now staleAfter : Int)
  | seed (worker : Nat) (symbols : List Symbol) (batchSize : Nat) (now : Int)
  | claim (worker : Nat) (claimedAt : Int) (limit : Nat) (locked : Nat → Bool)
  | load (worker : Nat)
  | finish (worker : Nat)
  | fail (worker : Nat) (error : String) (now : Int)
  | crash (worker : Nat)
  | saveBatch (symbol : Symbol) (stream : String) (candles : List Candle1m) (now : Int)
  | ingest (stream : String) (candle : Candle1m) (now : Int)
  | repair (candles : List Candle1m) (now : Int)

def World.goto (world : World) (worker : Nat) (phase : Worker) : World :=
  { world with workers := Function.update world.workers worker phase }

/-- The result of a job, from the candles that were loaded for it. -/
def result (job : AggregationJob) (candles : List Candle1m) : Option AggregatedCandle :=
  aggregateCandles candles job.timeframe (some job.openTime)

/-- An action that its worker cannot take now does nothing, and neither does a claim with
a time at which one of the jobs was claimed before. -/
def step (world : World) : Action → Except Unit World
  | .start worker now staleAfter =>
    match world.workers worker with
    | .stopped =>
      .ok { world.goto worker (.running []) with
        tables := recoverStaleJobs world.tables staleAfter now }
    | _ => .error ()
  | .seed worker symbols batchSize now =>
    match world.workers worker with
    | .running [] =>
      .ok { world with tables := (seedNextBatch world.tables batchSize now symbols).2 }
    | _ => .error ()
  | .claim worker claimedAt limit locked =>
    match world.workers worker with
    | .running [] =>
      let claimed := claimJobs world.tables claimedAt limit locked
      if ∃ job ∈ claimed.1, (job.id, claimedAt) ∈ world.claims then .error ()
      else
        .ok { world.goto worker (.running claimed.1) with
          tables := claimed.2
          claims := world.claims ++ claimed.1.map fun job => (job.id, claimedAt) }
    | _ => .error ()
  | .load worker =>
    match world.workers worker with
    | .running (job :: queue) =>
      .ok { world.goto worker (.loaded job (loadSourceCandles world.tables job.toInterval)
          world.loads queue) with loads := world.loads + 1 }
    | _ => .error ()
  | .finish worker =>
    match world.workers worker with
    | .loaded job candles stamp queue =>
      .ok { world.goto worker (.running queue) with
        tables := finishJob world.tables job (result job candles)
        written := Function.update world.written job.toInterval
          (max (world.written job.toInterval) stamp) }
    | _ => .error ()
  | .fail worker error now =>
    match world.workers worker with
    | .running (job :: queue) =>
      .ok { world.goto worker (.running queue) with tables := failJob world.tables job error now }
    | .loaded job _ _ queue =>
      .ok { world.goto worker (.running queue) with tables := failJob world.tables job error now }
    | _ => .error ()
  | .crash worker => .ok (world.goto worker .stopped)
  | .saveBatch symbol stream candles now => do
    let tables ← saveBatch world.tables symbol stream candles now
    return { world with tables := tables }
  | .ingest stream candle now => do
    let ingested ← ingestLiveCandle world.tables stream candle now
    return { world with tables := ingested.2 }
  | .repair candles now => do
    let tables ← repairCandles world.tables candles now
    return { world with tables := tables }

/-- The world after a list of actions, from empty tables and stopped workers. -/
def run (actions : List Action) : World := runAll step {} actions

/-- The worker an action belongs to; writers have none. -/
def Action.worker : Action → Option Nat
  | .start worker _ _ => some worker
  | .seed worker _ _ _ => some worker
  | .claim worker _ _ _ => some worker
  | .load worker => some worker
  | .finish worker => some worker
  | .fail worker _ _ => some worker
  | .crash worker => some worker
  | _ => none

/-- The candles that an action writes, and whether only completed intervals are enqueued. -/
def Action.writes : Action → List Candle1m × Bool
  | .saveBatch _ _ candles _ => (candles, false)
  | .ingest _ candle _ => ([candle], true)
  | .repair candles _ => (candles, false)
  | _ => ([], false)

/-- The action writes a candle of the interval without enqueueing it. -/
def Action.Misses (action : Action) (interval : Interval) : Prop :=
  (∃ candle ∈ action.writes.1, holds interval candle = true) ∧
    interval ∉ affectedIntervals action.writes.1 action.writes.2

instance (action : Action) (interval : Interval) : Decidable (action.Misses interval) := by
  unfold Action.Misses
  infer_instance

/-- The stored aggregate of an interval. -/
def stored (tables : MarketTables) (interval : Interval) : Option AggregatedCandle :=
  lookup aggregateKey tables.aggregates interval

/-- What the stored candles of an interval aggregate to. -/
def current (tables : MarketTables) (interval : Interval) : Option AggregatedCandle :=
  aggregateCandles (loadSourceCandles tables interval) interval.timeframe (some interval.openTime)

/-- The interval has a job row. -/
def Queued (tables : MarketTables) (interval : Interval) : Prop :=
  interval ∈ tables.jobs.map AggregationJobRecord.toInterval

instance (tables : MarketTables) (interval : Interval) : Decidable (Queued tables interval) := by
  unfold Queued
  infer_instance

/-- The claim still owns its job row. -/
def Owns (tables : MarketTables) (job : AggregationJob) : Prop :=
  ∃ row ∈ tables.jobs, job.Current row

instance (tables : MarketTables) (job : AggregationJob) : Decidable (Owns tables job) := by
  unfold Owns
  infer_instance

end Machine

section Slots

def Aligned (interval : Interval) : Prop :=
  intervalStart interval.openTime interval.timeframe = interval.openTime

/-- The id and the interval of every job row. -/
def slots (tables : MarketTables) : List (Nat × Interval) :=
  tables.jobs.map fun row => (row.id, row.toInterval)

theorem mem_slots {tables : MarketTables} {row : AggregationJobRecord} (h : row ∈ tables.jobs) :
    (row.id, row.toInterval) ∈ slots tables :=
  List.mem_map.mpr ⟨row, h, rfl⟩

theorem queued_iff {tables : MarketTables} {interval : Interval} :
    Queued tables interval ↔ ∃ slot ∈ slots tables, slot.2 = interval := by
  unfold Queued slots
  rw [List.mem_map]
  constructor
  · rintro ⟨row, hrow, hkey⟩
    exact ⟨_, List.mem_map.mpr ⟨row, hrow, rfl⟩, hkey⟩
  · rintro ⟨slot, hslot, hkey⟩
    obtain ⟨row, hrow, rfl⟩ := List.mem_map.mp hslot
    exact ⟨row, hrow, hkey⟩

/-- The unique keys of the job table. -/
structure Keyed (slots : List (Nat × Interval)) (next : Nat) : Prop where
  ids : (slots.map Prod.fst).Nodup
  intervals : (slots.map Prod.snd).Nodup
  fresh : ∀ slot ∈ slots, slot.1 < next
  aligned : ∀ slot ∈ slots, Aligned slot.2

theorem Keyed.sublist {old new : List (Nat × Interval)} {next : Nat} (h : Keyed old next)
    (hsub : new.Sublist old) : Keyed new next := by
  constructor
  · exact h.ids.sublist (hsub.map _)
  · exact h.intervals.sublist (hsub.map _)
  · intro slot hslot
    exact h.fresh slot (hsub.subset hslot)
  · intro slot hslot
    exact h.aligned slot (hsub.subset hslot)

theorem Keyed.mono {old : List (Nat × Interval)} {next later : Nat} (h : Keyed old next)
    (hle : next ≤ later) : Keyed old later :=
  ⟨h.ids, h.intervals, fun slot hslot => (h.fresh slot hslot).trans_le hle, h.aligned⟩

theorem Keyed.append {old : List (Nat × Interval)} {next : Nat} (h : Keyed old next)
    {interval : Interval} (haligned : Aligned interval)
    (hfree : ∀ slot ∈ old, slot.2 ≠ interval) : Keyed (old ++ [(next, interval)]) (next + 1) := by
  constructor
  · apply nodup_keys_append h.ids
    intro slot hslot
    exact (h.fresh slot hslot).ne
  · exact nodup_keys_append h.intervals hfree
  · apply forall_mem_append_singleton
    · intro slot hslot
      exact Nat.lt_succ_of_lt (h.fresh slot hslot)
    · exact Nat.lt_succ_self next
  · exact forall_mem_append_singleton h.aligned haligned

theorem Keyed.row_eq {tables : MarketTables} {next : Nat} (h : Keyed (slots tables) next)
    {row other : AggregationJobRecord} (hrow : row ∈ tables.jobs) (hother : other ∈ tables.jobs)
    (hkey : row.toInterval = other.toInterval) : row = other := by
  refine List.inj_on_of_nodup_map (f := AggregationJobRecord.toInterval) ?_ hrow hother hkey
  have hintervals := h.intervals
  unfold slots at hintervals
  rw [List.map_map] at hintervals
  exact hintervals

end Slots

section Requeueing

/-- What a transaction that returns rows to the queue does: the rows of `added` are pending
and no row becomes processing. -/
structure Requeued (old new : MarketTables) (added : List Interval) : Prop where
  queued : ∀ interval, Queued new interval ↔ Queued old interval ∨ interval ∈ added
  processing : ∀ row ∈ new.jobs, row.state = .processing →
    row ∈ old.jobs ∧ row.toInterval ∉ added
  keyed : Keyed (slots old) old.nextJobId → Keyed (slots new) new.nextJobId
  kept : Keyed (slots old) old.nextJobId → ∀ slot ∈ slots old, slot ∈ slots new
  known : ∀ slot ∈ slots new, slot ∈ slots old ∨ old.nextJobId ≤ slot.1
  next : old.nextJobId ≤ new.nextJobId

variable {old mid new : MarketTables} {added more : List Interval}

theorem Requeued.trans (h : Requeued old mid added) (h' : Requeued mid new more) :
    Requeued old new (added ++ more) := by
  constructor
  · intro interval
    rw [h'.queued, h.queued, List.mem_append, or_assoc]
  · intro row hrow hstate
    obtain ⟨hmid, hmore⟩ := h'.processing row hrow hstate
    obtain ⟨hold, hadded⟩ := h.processing row hmid hstate
    refine ⟨hold, fun hmem => ?_⟩
    rcases List.mem_append.mp hmem with hmem | hmem
    · exact hadded hmem
    · exact hmore hmem
  · intro hkeyed
    exact h'.keyed (h.keyed hkeyed)
  · intro hkeyed slot hslot
    exact h'.kept (h.keyed hkeyed) slot (h.kept hkeyed slot hslot)
  · intro slot hslot
    rcases h'.known slot hslot with hmid | hle
    · exact h.known slot hmid
    · exact Or.inr (h.next.trans hle)
  · exact h.next.trans h'.next

theorem Requeued.refl (tables : MarketTables) : Requeued tables tables [] := by
  constructor
  · intro interval
    simp
  · intro row hrow _
    exact ⟨hrow, List.not_mem_nil⟩
  · exact id
  · intro _ slot hslot
    exact hslot
  · intro slot hslot
    exact Or.inl hslot
  · exact Nat.le_refl _

/-- Rows that are changed in place, and only away from processing. -/
theorem Requeued.of_map {change : AggregationJobRecord → AggregationJobRecord}
    (hjobs : new.jobs = old.jobs.map change) (hnext : new.nextJobId = old.nextJobId)
    (hslot : ∀ row, (change row).id = row.id ∧ (change row).toInterval = row.toInterval)
    (hstate : ∀ row, (change row).state = .processing → change row = row) :
    Requeued old new [] := by
  have hslots : slots new = slots old := by
    unfold slots
    rw [hjobs, List.map_map]
    refine List.map_congr_left fun row _ => ?_
    rw [Function.comp_apply, (hslot row).1, (hslot row).2]
  constructor
  · intro interval
    rw [queued_iff, queued_iff, hslots]
    simp
  · intro row hrow hprocessing
    rw [hjobs] at hrow
    obtain ⟨source, hsource, rfl⟩ := List.mem_map.mp hrow
    rw [hstate source hprocessing]
    exact ⟨hsource, List.not_mem_nil⟩
  · rw [hslots, hnext]
    exact id
  · rw [hslots]
    intro _ slot h
    exact h
  · rw [hslots]
    intro slot h
    exact Or.inl h
  · exact hnext.ge

/-- Only the jobs of the tables matter. -/
theorem Requeued.of_jobs {old' new' : MarketTables} {added : List Interval}
    (h : Requeued old new added) (hold : old'.jobs = old.jobs)
    (holdNext : old'.nextJobId = old.nextJobId) (hnew : new'.jobs = new.jobs)
    (hnewNext : new'.nextJobId = new.nextJobId) : Requeued old' new' added := by
  have hslots : slots old' = slots old := by
    unfold slots
    rw [hold]
  have hslots' : slots new' = slots new := by
    unfold slots
    rw [hnew]
  constructor
  · intro interval
    unfold Queued
    rw [hnew, hold]
    exact h.queued interval
  · rw [hnew, hold]
    exact h.processing
  · rw [hslots, hslots', holdNext, hnewNext]
    exact h.keyed
  · rw [hslots, hslots', holdNext]
    exact h.kept
  · rw [hslots, hslots', holdNext]
    exact h.known
  · rw [holdNext, hnewNext]
    exact h.next

theorem recoverStaleJobs_requeued (tables : MarketTables) (staleAfter now : Int) :
    Requeued tables (recoverStaleJobs tables staleAfter now) [] := by
  refine Requeued.of_map rfl rfl ?_ ?_
  · intro row
    split <;> exact ⟨rfl, rfl⟩
  · intro row hprocessing
    split at hprocessing
    · cases hprocessing
    · rename_i h
      rw [if_neg h]

theorem failJob_requeued (tables : MarketTables) (job : AggregationJob) (error : String)
    (now : Int) : Requeued tables (failJob tables job error now) [] := by
  refine Requeued.of_map rfl rfl ?_ ?_
  · intro row
    split <;> exact ⟨rfl, rfl⟩
  · intro row hprocessing
    split at hprocessing
    · cases hprocessing
    · rename_i h
      rw [if_neg h]

end Requeueing

section Enqueueing
variable {tables : MarketTables} {interval : Interval}

theorem enqueueJob_requeued (haligned : Aligned interval) (priority : Nat) (now : Int) :
    Requeued tables (enqueueJob priority now tables interval) [interval] := by
  -- the row of the interval, new or updated
  obtain ⟨row, hjobs, hinterval, hpending, hid⟩ : ∃ row : AggregationJobRecord,
      (enqueueJob priority now tables interval).jobs =
        upsertRow AggregationJobRecord.toInterval tables.jobs row ∧
      row.toInterval = interval ∧ row.state = .pending ∧
      ((∀ other ∈ tables.jobs, other.toInterval ≠ interval) ∧ row.id = tables.nextJobId ∨
        ∃ other ∈ tables.jobs, other.toInterval = interval ∧ row.id = other.id) := by
    unfold enqueueJob
    rcases hfound : lookup AggregationJobRecord.toInterval tables.jobs interval with _ | other
    · exact ⟨_, rfl, rfl, rfl, Or.inl ⟨lookup_eq_none.mp hfound, rfl⟩⟩
    · have hkey : other.toInterval = interval := lookup_key hfound
      exact ⟨_, rfl, hkey, rfl, Or.inr ⟨other, lookup_mem hfound, hkey, rfl⟩⟩
  have hnext : (enqueueJob priority now tables interval).nextJobId = tables.nextJobId + 1 := rfl
  have hslots : Keyed (slots tables) tables.nextJobId →
      slots (enqueueJob priority now tables interval) = slots tables ∨
        ((∀ slot ∈ slots tables, slot.2 ≠ interval) ∧
          slots (enqueueJob priority now tables interval) =
            slots tables ++ [(tables.nextJobId, interval)]) := by
    intro hkeyed
    unfold slots
    rw [hjobs]
    rcases upsertRow_cases AggregationJobRecord.toInterval tables.jobs row with ⟨-, heq⟩ | ⟨hfree, heq⟩
    · left
      rw [heq]
      unfold replaceRow
      rw [List.map_map]
      refine List.map_congr_left fun other hother => ?_
      rw [Function.comp_apply]
      split
      · rename_i hkey
        rcases hid with ⟨hnone, -⟩ | ⟨found, hfound, hfoundKey, hfoundId⟩
        · exact absurd (hkey.trans hinterval) (hnone other hother)
        · rw [hkeyed.row_eq hother hfound ((hkey.trans hinterval).trans hfoundKey.symm), hfoundId,
            hinterval, hfoundKey]
      · rfl
    · right
      have hnew : row.id = tables.nextJobId := by
        rcases hid with ⟨-, hid⟩ | ⟨found, hfound, hfoundKey, -⟩
        · exact hid
        · exact absurd (hfoundKey.trans hinterval.symm) (hfree found hfound)
      rw [heq, List.map_append, List.map_singleton, hnew, hinterval]
      refine ⟨?_, rfl⟩
      intro slot hslot
      obtain ⟨other, hother, rfl⟩ := List.mem_map.mp hslot
      rw [← hinterval]
      exact hfree other hother
  constructor
  · intro other
    unfold Queued
    rw [hjobs, mem_keys_upsertRow, hinterval, List.mem_singleton]
  · intro other hother hstate
    rw [hjobs] at hother
    rcases mem_upsertRow hother with rfl | ⟨hmem, hne⟩
    · rw [hpending] at hstate
      cases hstate
    · rw [hinterval] at hne
      exact ⟨hmem, fun hin => hne (List.mem_singleton.mp hin)⟩
  · intro hkeyed
    rw [hnext]
    rcases hslots hkeyed with heq | ⟨hfree, heq⟩
    · rw [heq]
      exact hkeyed.mono (Nat.le_succ _)
    · rw [heq]
      exact hkeyed.append haligned hfree
  · intro hkeyed slot hslot
    rcases hslots hkeyed with heq | ⟨-, heq⟩
    · rw [heq]
      exact hslot
    · rw [heq]
      exact List.mem_append_left _ hslot
  · intro slot hslot
    obtain ⟨other, hother, rfl⟩ := List.mem_map.mp hslot
    rw [hjobs] at hother
    rcases mem_upsertRow hother with rfl | ⟨hmem, -⟩
    · rcases hid with ⟨-, hid⟩ | ⟨found, hfound, hfoundKey, hfoundId⟩
      · exact Or.inr hid.ge
      · refine Or.inl ?_
        rw [hfoundId, hinterval, ← hfoundKey]
        exact mem_slots hfound
    · exact Or.inl (mem_slots hmem)
  · exact Nat.le_succ _

theorem foldl_enqueueJob_requeued {intervals : List Interval}
    (haligned : ∀ interval ∈ intervals, Aligned interval) (priority : Nat) (now : Int) :
    Requeued tables (intervals.foldl (enqueueJob priority now) tables) intervals := by
  induction intervals generalizing tables with
  | nil => exact Requeued.refl tables
  | cons interval intervals ih =>
    have hfirst := @enqueueJob_requeued tables interval
      (haligned interval List.mem_cons_self) priority now
    have hrest := @ih (enqueueJob priority now tables interval) fun other hother =>
      haligned other (List.mem_cons_of_mem _ hother)
    exact hfirst.trans hrest

theorem aligned_of_affected {candles : List Candle1m} {completedOnly : Bool}
    (h : interval ∈ affectedIntervals candles completedOnly) : Aligned interval := by
  unfold affectedIntervals at h
  obtain ⟨candle, -, hin⟩ := List.mem_flatMap.mp (List.mem_dedup.mp h)
  obtain ⟨timeframe, -, rfl⟩ := List.mem_map.mp hin
  exact intervalStart_idem candle.openTime timeframe

theorem Requeued.congr {old new : MarketTables} {added more : List Interval}
    (h : Requeued old new added) (heq : ∀ interval, interval ∈ added ↔ interval ∈ more) :
    Requeued old new more := by
  constructor
  · intro interval
    rw [h.queued, heq]
  · intro row hrow hstate
    rw [← heq]
    exact h.processing row hrow hstate
  · exact h.keyed
  · exact h.kept
  · exact h.known
  · exact h.next

theorem enqueueAggregationJobs_requeued (tables : MarketTables) (candles : List Candle1m)
    (priority : Nat) (completedOnly : Bool) (now : Int) :
    Requeued tables (enqueueAggregationJobs tables candles priority completedOnly now)
      (affectedIntervals candles completedOnly) := by
  unfold enqueueAggregationJobs
  refine Requeued.congr (foldl_enqueueJob_requeued (fun interval h => ?_) priority now) ?_
  · exact aligned_of_affected (mem_sortedBy.mp h)
  · intro interval
    exact mem_sortedBy

end Enqueueing

section Scanning
variable {tables : MarketTables} {symbol : Symbol}

/-- The seed scan has not passed the candle. -/
def Unscanned (tables : MarketTables) (candle : Candle1m) : Prop :=
  (lastScanned tables candle.symbol).all (fun last => decide (last < candle.openTime)) = true

instance (tables : MarketTables) (candle : Candle1m) : Decidable (Unscanned tables candle) := by
  unfold Unscanned
  infer_instance

/-- What a seed scan does: the candles it passes are enqueued. -/
structure Seeded (old new : MarketTables) (added : List Interval) : Prop where
  jobs : Requeued old new added
  candles : new.candles = old.candles
  aggregates : new.aggregates = old.aggregates
  scanned : ∀ candle ∈ old.candles, Unscanned old candle →
    Unscanned new candle ∨ ∀ timeframe, intervalOf candle timeframe ∈ added

theorem mem_unscannedTimes {openTime : Int} :
    openTime ∈ unscannedTimes tables symbol ↔
      ∃ candle ∈ tables.candles, candle.symbol = symbol ∧ Unscanned tables candle ∧
        candle.openTime = openTime := by
  unfold unscannedTimes
  rw [List.mem_map]
  constructor
  · rintro ⟨candle, hcandle, htime⟩
    obtain ⟨hmem, hkeep⟩ := List.mem_filter.mp (mem_sortedBy.mp hcandle)
    obtain ⟨hsymbol, hafter⟩ := Bool.and_eq_true_iff.mp hkeep
    have hsymbol := of_decide_eq_true hsymbol
    refine ⟨candle, hmem, hsymbol, ?_, htime⟩
    unfold Unscanned
    rw [hsymbol]
    exact hafter
  · rintro ⟨candle, hmem, rfl, hunscanned, htime⟩
    refine ⟨candle, mem_sortedBy.mpr (List.mem_filter.mpr ⟨hmem, ?_⟩), htime⟩
    exact Bool.and_eq_true_iff.mpr ⟨decide_eq_true rfl, hunscanned⟩

theorem unscannedTimes_pairwise : (unscannedTimes tables symbol).Pairwise (· ≤ ·) :=
  List.pairwise_map.mpr (sortedBy_pairwise _ _)

theorem mem_affectedIntervals_placeholder {openTimes : List Int} {candle : Candle1m}
    (h : candle.openTime ∈ openTimes) (timeframe : Timeframe) :
    intervalOf candle timeframe ∈
      affectedIntervals (openTimes.map (placeholderCandle candle.symbol)) false := by
  unfold affectedIntervals
  refine List.mem_dedup.mpr (List.mem_flatMap.mpr ⟨_, List.mem_map.mpr ⟨_, h, rfl⟩, ?_⟩)
  refine List.mem_map.mpr ⟨timeframe, List.mem_filter.mpr ⟨?_, rfl⟩, rfl⟩
  cases timeframe <;> decide

theorem seedSymbol_seeded {batchSize : Nat} {last now : Int}
    (hlast : ((unscannedTimes tables symbol).take batchSize).getLast? = some last) :
    ∃ added, Seeded tables (seedSymbol tables symbol
      ((unscannedTimes tables symbol).take batchSize) last now) added := by
  have hframe := foldl_enqueueJob_frame 100 now (sortedBy intervalOrder (affectedIntervals
    (((unscannedTimes tables symbol).take batchSize).map (placeholderCandle symbol)) false)) tables
  obtain ⟨hcandles, haggregates, hcursors, -⟩ := hframe
  have hjobs := enqueueAggregationJobs_requeued tables
    (((unscannedTimes tables symbol).take batchSize).map (placeholderCandle symbol)) 100 false now
  refine ⟨_, hjobs.of_jobs rfl rfl rfl rfl, hcandles, haggregates, ?_⟩
  intro candle hcandle hunscanned
  by_cases hsymbol : candle.symbol = symbol
  · subst hsymbol
    have hin := mem_unscannedTimes.mpr ⟨candle, hcandle, rfl, hunscanned, rfl⟩
    by_cases htaken : candle.openTime ∈ (unscannedTimes tables candle.symbol).take batchSize
    · exact Or.inr (mem_affectedIntervals_placeholder htaken)
    · left
      rw [← List.take_append_drop batchSize (unscannedTimes tables candle.symbol)] at hin
      have hdropped := (List.mem_append.mp hin).resolve_left htaken
      have hsorted := @unscannedTimes_pairwise tables candle.symbol
      rw [← List.take_append_drop batchSize (unscannedTimes tables candle.symbol)] at hsorted
      have hmem := List.mem_of_getLast? hlast
      have hle := (List.pairwise_append.mp hsorted).2.2 last hmem _ hdropped
      have hne : last ≠ candle.openTime := by
        intro heq
        exact htaken (heq ▸ hmem)
      unfold Unscanned lastScanned seedSymbol
      rw [lookup_upsertRow_self]
      exact decide_eq_true (lt_of_le_of_ne hle hne)
  · left
    unfold Unscanned lastScanned seedSymbol
    rw [lookup_upsertRow_of_ne (Ne.symm hsymbol)]
    unfold enqueueAggregationJobs
    rw [hcursors]
    exact hunscanned

theorem seedNextBatch_seeded (tables : MarketTables) (batchSize : Nat) (now : Int)
    (symbols : List Symbol) :
    ∃ added, Seeded tables (seedNextBatch tables batchSize now symbols).2 added := by
  induction symbols with
  | nil => exact ⟨[], Requeued.refl tables, rfl, rfl, fun _ _ h => Or.inl h⟩
  | cons symbol symbols ih =>
    unfold seedNextBatch
    simp only
    split
    · exact ih
    · rename_i last hlast
      exact seedSymbol_seeded hlast

/-- A scan that finds nothing leaves no candle behind. -/
theorem not_unscanned_of_seedNextBatch {batchSize : Nat} (hbatch : 0 < batchSize) {now : Int}
    {symbols : List Symbol} (h : (seedNextBatch tables batchSize now symbols).1 = 0)
    {candle : Candle1m} (hcandle : candle ∈ tables.candles) (hsymbol : candle.symbol ∈ symbols) :
    ¬ Unscanned tables candle := by
  induction symbols with
  | nil => cases hsymbol
  | cons symbol symbols ih =>
    intro hunscanned
    unfold seedNextBatch at h
    simp only at h
    split at h
    · rename_i hnone
      rcases List.mem_cons.mp hsymbol with rfl | hrest
      · have hin := mem_unscannedTimes.mpr ⟨candle, hcandle, rfl, hunscanned, rfl⟩
        have hempty := List.getLast?_eq_none_iff.mp hnone
        rcases List.take_eq_nil_iff.mp hempty with hzero | hnil
        · omega
        · rw [hnil] at hin
          cases hin
      · exact ih h hrest hunscanned
    · rename_i last hlast
      have hempty := List.length_eq_zero_iff.mp h
      rw [hempty] at hlast
      cases hlast

end Scanning

section Writing
variable {old new : MarketTables} {candles : List Candle1m} {completedOnly : Bool}

/-- What a transaction that writes candles does. -/
structure Written (old new : MarketTables) (candles : List Candle1m) (completedOnly : Bool) :
    Prop where
  jobs : Requeued old new (affectedIntervals candles completedOnly)
  candles : new.candles = candles.foldl (upsertRow candleKey) old.candles
  aggregates : new.aggregates = old.aggregates
  cursors : new.cursors = old.cursors

theorem Written.nothing (tables : MarketTables) (completedOnly : Bool) :
    Written tables tables [] completedOnly :=
  ⟨Requeued.refl tables, rfl, rfl, rfl⟩

theorem writeCandles_written {priority : Nat} {now : Int}
    (h : writeCandles old candles priority completedOnly now = .ok new) :
    Written old new candles completedOnly := by
  obtain ⟨mid, hmid, hnew⟩ := bind_eq_ok.mp h
  unfold upsertCandles at hmid
  split at hmid
  · cases hmid
    cases hnew
    have hframe := foldl_enqueueJob_frame priority now
      (sortedBy intervalOrder (affectedIntervals candles completedOnly))
      { old with candles := candles.foldl (upsertRow candleKey) old.candles }
    obtain ⟨hcandles, haggregates, hcursors, -⟩ := hframe
    have hjobs := enqueueAggregationJobs_requeued
      { old with candles := candles.foldl (upsertRow candleKey) old.candles } candles priority
      completedOnly now
    constructor
    · exact hjobs.of_jobs rfl rfl rfl rfl
    · exact hcandles
    · exact haggregates
    · exact hcursors
  · cases hmid

theorem Written.checkpoint (h : Written old new candles completedOnly) (symbol : Symbol)
    (stream : String) (state : Store.CheckpointState) (last : Option Int)
    (error : Option MarketDataError) (preserve : Bool) :
    Written old (upsertCheckpoint new symbol stream state last error preserve) candles
      completedOnly :=
  ⟨h.jobs.of_jobs rfl rfl rfl rfl, h.candles, h.aggregates, h.cursors⟩

theorem saveBatch_written {symbol : Symbol} {stream : String} {now : Int}
    (h : saveBatch old symbol stream candles now = .ok new) : Written old new candles false := by
  unfold saveBatch at h
  split at h
  · rename_i hnone
    cases h
    rw [List.getLast?_eq_none_iff.mp hnone]
    exact Written.nothing old false
  · obtain ⟨mid, hmid, hnew⟩ := bind_eq_ok.mp h
    cases hnew
    exact (writeCandles_written hmid).checkpoint _ _ _ _ _ _

theorem ingestLiveCandle_written {stream : String} {candle : Candle1m} {now : Int}
    {ingested : LiveIngestResult × MarketTables}
    (h : ingestLiveCandle old stream candle now = .ok ingested) :
    Written old ingested.2 [candle] true := by
  obtain ⟨mid, hmid, hnew⟩ := bind_eq_ok.mp h
  have hwritten := writeCandles_written hmid
  split at hnew
  · cases hnew
    exact hwritten.checkpoint _ _ _ _ _ _
  · split_ifs at hnew
    · cases hnew
      exact hwritten
    · cases hnew
      exact hwritten.checkpoint _ _ _ _ _ _
    · cases hnew
      exact hwritten.checkpoint _ _ _ _ _ _

theorem repairCandles_written {now : Int} (h : repairCandles old candles now = .ok new) :
    Written old new candles false := by
  unfold repairCandles at h
  split at h
  · rename_i hempty
    cases h
    rw [List.isEmpty_iff.mp hempty]
    exact Written.nothing old false
  · exact writeCandles_written h

end Writing

section Moves

/-- What one action does to the world. -/
inductive Moved (world : World) : Action → World → Prop where
  | release {action : Action} (worker : Nat) (queue : List AggregationJob) (phase : Worker)
      (tables : MarketTables) (haction : action.worker = some worker)
      (hqueue : queue <:+ (world.workers worker).held)
      (hphase : phase = .stopped ∨ phase = .running queue)
      (hjobs : Requeued world.tables tables [])
      (hsame : tables = { world.tables with jobs := tables.jobs }) :
      Moved world action { world.goto worker phase with tables := tables }
  | seed {worker : Nat} {symbols : List Symbol} {batchSize : Nat} {now : Int} :
      Moved world (.seed worker symbols batchSize now)
        { world with tables := (seedNextBatch world.tables batchSize now symbols).2 }
  | claim {worker : Nat} {claimedAt : Int} {limit : Nat} {locked : Nat → Bool}
      (hidle : world.workers worker = .running [])
      (hdistinct : ∀ job ∈ (claimJobs world.tables claimedAt limit locked).1,
        (job.id, claimedAt) ∉ world.claims) :
      Moved world (.claim worker claimedAt limit locked)
        { world.goto worker (.running (claimJobs world.tables claimedAt limit locked).1) with
          tables := (claimJobs world.tables claimedAt limit locked).2
          claims := world.claims ++ (claimJobs world.tables claimedAt limit locked).1.map
            fun job => (job.id, claimedAt) }
  | load {worker : Nat} {job : AggregationJob} {queue : List AggregationJob}
      (hrunning : world.workers worker = .running (job :: queue)) :
      Moved world (.load worker)
        { world.goto worker (.loaded job (loadSourceCandles world.tables job.toInterval)
            world.loads queue) with loads := world.loads + 1 }
  | finish {worker : Nat} {job : AggregationJob} {candles : List Candle1m} {stamp : Nat}
      {queue : List AggregationJob} (hloaded : world.workers worker = .loaded job candles stamp queue) :
      Moved world (.finish worker)
        { world.goto worker (.running queue) with
          tables := finishJob world.tables job (result job candles)
          written := Function.update world.written job.toInterval
            (max (world.written job.toInterval) stamp) }
  | write {action : Action} (tables : MarketTables)
      (hwritten : Written world.tables tables action.writes.1 action.writes.2) :
      Moved world action { world with tables := tables }

theorem step_moved {world next : World} {action : Action} (h : step world action = .ok next) :
    Moved world action next := by
  cases action with
  | start worker now staleAfter =>
    simp only [step] at h
    split at h
    · cases h
      refine Moved.release worker [] _ _ rfl List.nil_suffix (Or.inr rfl) ?_ rfl
      exact recoverStaleJobs_requeued _ _ _
    · cases h
  | seed worker symbols batchSize now =>
    simp only [step] at h
    split at h
    · cases h
      exact Moved.seed
    · cases h
  | claim worker claimedAt limit locked =>
    simp only [step] at h
    split at h
    · rename_i hidle
      split at h
      · cases h
      · rename_i hdistinct
        cases h
        refine Moved.claim hidle fun job hjob hin => ?_
        exact hdistinct ⟨job, hjob, hin⟩
    · cases h
  | load worker =>
    simp only [step] at h
    split at h
    · rename_i job queue hrunning
      cases h
      exact Moved.load hrunning
    · cases h
  | finish worker =>
    simp only [step] at h
    split at h
    · rename_i job candles stamp queue hloaded
      cases h
      exact Moved.finish hloaded
    · cases h
  | fail worker error now =>
    simp only [step] at h
    split at h
    · rename_i job queue hrunning
      cases h
      refine Moved.release worker queue _ _ rfl ?_ (Or.inr rfl) (failJob_requeued _ _ _ _) rfl
      rw [hrunning]
      exact List.suffix_cons job queue
    · rename_i job candles stamp queue hloaded
      cases h
      refine Moved.release worker queue _ _ rfl ?_ (Or.inr rfl) (failJob_requeued _ _ _ _) rfl
      rw [hloaded]
      exact List.suffix_cons job queue
    · cases h
  | crash worker =>
    cases h
    exact Moved.release worker [] _ _ rfl List.nil_suffix (Or.inl rfl) (Requeued.refl _) rfl
  | saveBatch symbol stream candles now =>
    obtain ⟨tables, htables, hnext⟩ := bind_eq_ok.mp h
    cases hnext
    exact Moved.write tables (saveBatch_written htables)
  | ingest stream candle now =>
    obtain ⟨ingested, hingested, hnext⟩ := bind_eq_ok.mp h
    cases hnext
    exact Moved.write ingested.2 (ingestLiveCandle_written hingested)
  | repair candles now =>
    obtain ⟨tables, htables, hnext⟩ := bind_eq_ok.mp h
    cases hnext
    exact Moved.write tables (repairCandles_written htables)

end Moves

end StructurePulse.Aggregation
