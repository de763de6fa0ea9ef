import StructurePulse.Aggregation.Propagation
import StructurePulse.Library.Progress

/-!
# Draining the queue

What is left of the seed scan and of the job table, once no one else writes: a worker
that keeps running its loop without a failure seeds every candle and finishes every job
after a bounded number of passes, whatever was queued before.
-/

namespace StructurePulse.Aggregation
open Library SMC MarketData
set_option autoImplicit false

section Backlog

/-- A pass of the loop in `run`: one seed scan, one claim and the claimed jobs, of which
there are at most as many as the claim may take. -/
def workerLoop (worker : Nat) (symbols : List Symbol) (sourceBatchSize jobBatchSize : Nat)
    (clock : Int × Int) : List Action :=
  .seed worker symbols sourceBatchSize clock.1 ::
    .claim worker clock.2 jobBatchSize (fun _ => false) ::
      (List.replicate jobBatchSize [Action.load worker, .finish worker]).flatten

/-- The candles of the symbols that the seed scan has not passed. -/
def unscanned (symbols : List Symbol) (tables : MarketTables) : Nat :=
  (symbols.map fun symbol => (unscannedTimes tables symbol).length).sum

/-- An unscanned candle makes at most one job for each timeframe. -/
def backlog (symbols : List Symbol) (tables : MarketTables) : Nat :=
  5 * unscanned symbols tables + tables.jobs.length

/-- The row can be claimed at any time from `now` on. -/
def Ready (now : Int) (row : AggregationJobRecord) : Prop :=
  row.state = .pending ∧ row.availableAt ≤ now

instance (now : Int) (row : AggregationJobRecord) : Decidable (Ready now row) := by
  unfold Ready
  infer_instance

theorem Ready.mono {now later : Int} {row : AggregationJobRecord} (h : Ready now row)
    (hle : now ≤ later) : Ready later row :=
  ⟨h.1, h.2.trans hle⟩

end Backlog

section Enqueued
variable {tables : MarketTables} {now : Int} {priority : Nat}

theorem length_upsertRow_le {rows : List AggregationJobRecord} {row : AggregationJobRecord} :
    (upsertRow AggregationJobRecord.toInterval rows row).length ≤ rows.length + 1 := by
  rcases upsertRow_cases AggregationJobRecord.toInterval rows row with ⟨-, heq⟩ | ⟨-, heq⟩
  · rw [heq]
    unfold replaceRow
    rw [List.length_map]
    exact Nat.le_succ _
  · rw [heq, List.length_append, List.length_singleton]

theorem enqueueJob_ready (interval : Interval) (h : ∀ row ∈ tables.jobs, Ready now row) :
    ∀ row ∈ (enqueueJob priority now tables interval).jobs, Ready now row := by
  intro row hrow
  rcases mem_upsertRow hrow with rfl | ⟨hold, -⟩
  · cases lookup AggregationJobRecord.toInterval tables.jobs interval with
    | none => exact ⟨rfl, Int.le_refl now⟩
    | some old => exact ⟨rfl, Int.le_refl now⟩
  · exact h row hold

theorem foldl_enqueueJob_ready (intervals : List Interval) (h : ∀ row ∈ tables.jobs, Ready now row) :
    (∀ row ∈ (intervals.foldl (enqueueJob priority now) tables).jobs, Ready now row) ∧
      (intervals.foldl (enqueueJob priority now) tables).jobs.length ≤
        tables.jobs.length + intervals.length := by
  induction intervals generalizing tables with
  | nil => exact ⟨h, Nat.le_refl _⟩
  | cons interval intervals ih =>
    obtain ⟨hready, hlength⟩ := ih (@enqueueJob_ready tables now priority interval h)
    refine ⟨hready, hlength.trans ?_⟩
    have hone : (enqueueJob priority now tables interval).jobs.length ≤ tables.jobs.length + 1 :=
      length_upsertRow_le
    rw [List.length_cons]
    omega

theorem length_affectedIntervals_le (candles : List Candle1m) (completedOnly : Bool) :
    (affectedIntervals candles completedOnly).length ≤ 4 * candles.length := by
  unfold affectedIntervals
  refine (List.dedup_sublist _).length_le.trans ?_
  induction candles with
  | nil => exact Nat.le_refl _
  | cons candle candles ih =>
    rw [List.flatMap_cons, List.length_append, List.length_map, List.length_cons]
    have hfour := List.length_filter_le
      (fun timeframe => !completedOnly || isIntervalComplete candle timeframe) timeframes
    have hlength : timeframes.length = 4 := rfl
    omega

end Enqueued

section Seeding
variable {tables : MarketTables} {symbols : List Symbol} {batchSize : Nat} {now : Int}
variable {symbol : Symbol} {last : Int}

/-- A scan seeds the first symbol that has unscanned candles, if there is one. -/
theorem seedNextBatch_cases :
    ((∀ symbol ∈ symbols, (unscannedTimes tables symbol).take batchSize = []) ∧
        seedNextBatch tables batchSize now symbols = (0, tables)) ∨
      ∃ symbol ∈ symbols, ∃ last,
        ((unscannedTimes tables symbol).take batchSize).getLast? = some last ∧
        (seedNextBatch tables batchSize now symbols).2 =
          seedSymbol tables symbol ((unscannedTimes tables symbol).take batchSize) last now := by
  induction symbols with
  | nil => exact Or.inl ⟨fun _ h => absurd h List.not_mem_nil, rfl⟩
  | cons symbol symbols ih =>
    rcases hlast : ((unscannedTimes tables symbol).take batchSize).getLast? with _ | last
    · have hskip : seedNextBatch tables batchSize now (symbol :: symbols) =
          seedNextBatch tables batchSize now symbols := by
        simp only [seedNextBatch, hlast]
      rw [hskip]
      rcases ih with ⟨hnone, hsame⟩ | ⟨found, hfound, rest⟩
      · refine Or.inl ⟨fun other hother => ?_, hsame⟩
        rcases List.mem_cons.mp hother with rfl | hrest
        · exact List.getLast?_eq_none_iff.mp hlast
        · exact hnone other hrest
      · exact Or.inr ⟨found, List.mem_cons_of_mem symbol hfound, rest⟩
    · refine Or.inr ⟨symbol, List.mem_cons_self, last, hlast, ?_⟩
      simp only [seedNextBatch, hlast]

theorem candles_seedSymbol (openTimes : List Int) :
    (seedSymbol tables symbol openTimes last now).candles = tables.candles :=
  (foldl_enqueueJob_frame 100 now _ tables).1

theorem lastScanned_seedSymbol_self (openTimes : List Int) :
    lastScanned (seedSymbol tables symbol openTimes last now) symbol = some last := by
  unfold lastScanned seedSymbol
  rw [lookup_upsertRow_self]
  rfl

theorem lastScanned_seedSymbol_of_ne (openTimes : List Int) {other : Symbol} (hne : symbol ≠ other) :
    lastScanned (seedSymbol tables symbol openTimes last now) other = lastScanned tables other := by
  obtain ⟨-, -, hcursors, -⟩ := foldl_enqueueJob_frame 100 now (sortedBy intervalOrder
    (affectedIntervals (openTimes.map (placeholderCandle symbol)) false)) tables
  unfold lastScanned seedSymbol
  rw [lookup_upsertRow_of_ne hne]
  unfold enqueueAggregationJobs
  rw [hcursors]

theorem unscannedTimes_seedSymbol_of_ne (openTimes : List Int) {other : Symbol}
    (hne : symbol ≠ other) :
    unscannedTimes (seedSymbol tables symbol openTimes last now) other =
      unscannedTimes tables other := by
  unfold unscannedTimes
  rw [candles_seedSymbol, lastScanned_seedSymbol_of_ne openTimes hne]

/-- The scan leaves the times after the last one it took. -/
theorem unscannedTimes_seedSymbol_self (openTimes : List Int)
    (hlast : last ∈ unscannedTimes tables symbol) :
    unscannedTimes (seedSymbol tables symbol openTimes last now) symbol =
      (unscannedTimes tables symbol).filter fun openTime => decide (last < openTime) := by
  have hafter : ∀ time, (lastScanned tables symbol).all (fun start => decide (start < last)) = true →
      last < time → (lastScanned tables symbol).all (fun start => decide (start < time)) = true := by
    intro time hstart htime
    cases hcursor : lastScanned tables symbol with
    | none => rfl
    | some start =>
      rw [hcursor] at hstart
      exact decide_eq_true ((of_decide_eq_true hstart).trans htime)
  have hpassed : (lastScanned tables symbol).all (fun start => decide (start < last)) = true := by
    obtain ⟨candle, -, rfl, hunscanned, rfl⟩ := mem_unscannedTimes.mp hlast
    exact hunscanned
  unfold unscannedTimes
  rw [candles_seedSymbol, lastScanned_seedSymbol_self, List.filter_map, ← sortedBy_filter,
    List.filter_filter]
  congr 2
  refine List.filter_congr fun candle _ => ?_
  by_cases htime : last < candle.openTime
  · simp [htime, hafter candle.openTime hpassed htime]
  · simp [htime]

theorem length_unscannedTimes_seedSymbol
    (hlast : ((unscannedTimes tables symbol).take batchSize).getLast? = some last) :
    (unscannedTimes (seedSymbol tables symbol ((unscannedTimes tables symbol).take batchSize) last
        now) symbol).length + ((unscannedTimes tables symbol).take batchSize).length ≤
      (unscannedTimes tables symbol).length := by
  have hmem : last ∈ (unscannedTimes tables symbol).take batchSize := List.mem_of_getLast? hlast
  have hsorted : ((unscannedTimes tables symbol).take batchSize).Pairwise (· ≤ ·) :=
    unscannedTimes_pairwise.sublist (List.take_sublist _ _)
  -- every taken time is at most the last one
  have htaken : ((unscannedTimes tables symbol).take batchSize).filter
      (fun openTime => decide (last < openTime)) = [] := by
    apply List.filter_eq_nil_iff.mpr
    intro openTime hopen
    have hle : openTime ≤ last := by
      obtain ⟨front, hfront⟩ := List.getLast?_eq_some_iff.mp hlast
      rw [hfront] at hopen hsorted
      rcases List.mem_append.mp hopen with hbefore | hsame
      · exact (List.pairwise_append.mp hsorted).2.2 openTime hbefore last List.mem_cons_self
      · exact (List.mem_singleton.mp hsame).le
    simpa using hle
  rw [unscannedTimes_seedSymbol_self _ (List.mem_of_mem_take hmem)]
  have hsplit := congrArg (List.filter fun openTime => decide (last < openTime))
    (List.take_append_drop batchSize (unscannedTimes tables symbol))
  rw [List.filter_append, htaken, List.nil_append] at hsplit
  have hdropped := List.length_filter_le (fun openTime => decide (last < openTime))
    ((unscannedTimes tables symbol).drop batchSize)
  rw [hsplit, List.length_drop] at hdropped
  rw [List.length_take]
  omega

/-- A scan never goes back. -/
theorem unscanned_of_seedSymbol (openTimes : List Int) {candle : Candle1m}
    (hlast : last ∈ unscannedTimes tables symbol)
    (h : Unscanned (seedSymbol tables symbol openTimes last now) candle) :
    Unscanned tables candle := by
  by_cases hsymbol : symbol = candle.symbol
  · obtain ⟨passed, -, hpassed, hunscanned, rfl⟩ := mem_unscannedTimes.mp hlast
    unfold Unscanned at h hunscanned ⊢
    rw [← hsymbol, lastScanned_seedSymbol_self] at h
    rw [hpassed] at hunscanned
    rw [← hsymbol]
    cases hcursor : lastScanned tables symbol with
    | none => rfl
    | some start =>
      rw [hcursor] at hunscanned
      exact decide_eq_true ((of_decide_eq_true hunscanned).trans (of_decide_eq_true h))
  · unfold Unscanned at h ⊢
    rwa [lastScanned_seedSymbol_of_ne openTimes hsymbol] at h

theorem unscanned_eq_zero (hbatch : 0 < batchSize)
    (h : ∀ symbol ∈ symbols, (unscannedTimes tables symbol).take batchSize = []) :
    unscanned symbols tables = 0 := by
  unfold unscanned
  apply List.sum_eq_zero
  intro amount hamount
  obtain ⟨symbol, hsymbol, rfl⟩ := List.mem_map.mp hamount
  rcases List.take_eq_nil_iff.mp (h symbol hsymbol) with hzero | hnil
  · omega
  · rw [hnil]
    rfl

theorem backlog_seedSymbol (hsymbol : symbol ∈ symbols) (hready : ∀ row ∈ tables.jobs, Ready now row)
    (hlast : ((unscannedTimes tables symbol).take batchSize).getLast? = some last) :
    backlog symbols (seedSymbol tables symbol ((unscannedTimes tables symbol).take batchSize) last
      now) < backlog symbols tables := by
  let openTimes := (unscannedTimes tables symbol).take batchSize
  have hdrop : unscanned symbols (seedSymbol tables symbol openTimes last now) + openTimes.length ≤
      unscanned symbols tables := by
    apply sum_map_add_le hsymbol
    · intro other _
      by_cases hother : symbol = other
      · subst hother
        exact (Nat.le_add_right _ _).trans (length_unscannedTimes_seedSymbol hlast)
      · rw [unscannedTimes_seedSymbol_of_ne openTimes hother]
    · exact length_unscannedTimes_seedSymbol hlast
  have hjobs : (seedSymbol tables symbol openTimes last now).jobs.length ≤
      tables.jobs.length + 4 * openTimes.length := by
    refine (foldl_enqueueJob_ready _ hready).2.trans ?_
    rw [(@sortedBy_perm _ _ _ intervalOrder _).length_eq]
    have hle := length_affectedIntervals_le (openTimes.map (placeholderCandle symbol)) false
    rw [List.length_map] at hle
    omega
  have hsome : 0 < openTimes.length := List.length_pos_of_mem (List.mem_of_getLast? hlast)
  change backlog symbols (seedSymbol tables symbol openTimes last now) < backlog symbols tables
  unfold backlog
  omega

/-- The jobs of a scan are those of unscanned candles. -/
theorem ahead_of_placeholder (hsymbol : symbol ∈ symbols) {interval : Interval}
    (h : interval ∈ affectedIntervals (((unscannedTimes tables symbol).take batchSize).map
      (placeholderCandle symbol)) false) : Ahead symbols tables interval := by
  unfold affectedIntervals at h
  obtain ⟨placeholder, hplaceholder, hin⟩ := List.mem_flatMap.mp (List.mem_dedup.mp h)
  obtain ⟨openTime, htaken, rfl⟩ := List.mem_map.mp hplaceholder
  obtain ⟨timeframe, -, rfl⟩ := List.mem_map.mp hin
  obtain ⟨candle, hcandle, rfl, hunscanned, rfl⟩ :=
    mem_unscannedTimes.mp (List.mem_of_mem_take htaken)
  exact ⟨hsymbol, candle, hcandle, rfl, hunscanned⟩

/-- What a scan does when nothing else happens. -/
structure Scanned (symbols : List Symbol) (now : Int) (old new : MarketTables) : Prop where
  candles : new.candles = old.candles
  aggregates : new.aggregates = old.aggregates
  owed : ∀ interval, Queued new interval ∨ Ahead symbols new interval ↔
    Queued old interval ∨ Ahead symbols old interval
  ready : ∀ row ∈ new.jobs, Ready now row
  lower : new = old ∧ unscanned symbols old = 0 ∨ backlog symbols new < backlog symbols old

theorem seedNextBatch_scanned (hbatch : 0 < batchSize) (hready : ∀ row ∈ tables.jobs, Ready now row) :
    Scanned symbols now tables (seedNextBatch tables batchSize now symbols).2 := by
  rcases @seedNextBatch_cases tables symbols batchSize now with ⟨hnone, hsame⟩ | ⟨symbol, hsymbol, last, hlast, hseeded⟩
  · rw [hsame]
    exact ⟨rfl, rfl, fun _ => Iff.rfl, hready, Or.inl ⟨rfl, unscanned_eq_zero hbatch hnone⟩⟩
  · have hmem : last ∈ unscannedTimes tables symbol :=
      List.mem_of_mem_take (List.mem_of_getLast? hlast)
    obtain ⟨added, hadded⟩ := @seedSymbol_seeded tables symbol batchSize last now hlast
    have honly : Requeued tables (seedSymbol tables symbol
        ((unscannedTimes tables symbol).take batchSize) last now) _ :=
      (enqueueAggregationJobs_requeued tables _ 100 false now).of_jobs rfl rfl rfl rfl
    rw [hseeded]
    constructor
    · exact hadded.candles
    · exact hadded.aggregates
    · intro interval
      constructor
      · rintro (hqueued | ⟨hactive, candle, hcandle, hinterval, hunscanned⟩)
        · rcases (honly.queued interval).mp hqueued with hold | hnew
          · exact Or.inl hold
          · exact Or.inr (ahead_of_placeholder hsymbol hnew)
        · rw [hadded.candles] at hcandle
          exact Or.inr ⟨hactive, candle, hcandle, hinterval,
            unscanned_of_seedSymbol _ hmem hunscanned⟩
      · rintro (hqueued | hahead)
        · exact Or.inl ((hadded.jobs.queued interval).mpr (Or.inl hqueued))
        · rcases hadded.ahead hahead with hstill | hin
          · exact Or.inr hstill
          · exact Or.inl ((hadded.jobs.queued interval).mpr (Or.inr hin))
    · exact (foldl_enqueueJob_ready _ hready).1
    · exact Or.inr (backlog_seedSymbol hsymbol hready hlast)

end Seeding

section Processing
variable {worker : Nat} {world : World}

/-- What the claimed jobs of one pass do when nothing fails. -/
structure Processed (worker : Nat) (queue : List AggregationJob) (old new : World) : Prop where
  running : new.workers worker = .running []
  claims : new.claims = old.claims
  candles : new.tables.candles = old.tables.candles
  cursors : new.tables.cursors = old.tables.cursors
  jobs : new.tables.jobs =
    old.tables.jobs.filter fun row => decide (∀ job ∈ queue, ¬ job.Current row)
  done : ∀ job ∈ queue, stored new.tables job.toInterval = current old.tables job.toInterval
  others : ∀ interval, (∀ job ∈ queue, job.toInterval ≠ interval) →
    stored new.tables interval = stored old.tables interval

/-- A worker without jobs has nothing to load. -/
theorem runAll_nothing_claimed (h : world.workers worker = .running []) (count : Nat) :
    runAll step world (List.replicate count [Action.load worker, .finish worker]).flatten = world := by
  have hload : transact step world (.load worker) = world := by simp only [transact, step, h]
  have hfinish : transact step world (.finish worker) = world := by simp only [transact, step, h]
  induction count with
  | zero => rfl
  | succ count ih =>
    have hpair : runAll step world [Action.load worker, .finish worker] = world := by
      change transact step (transact step world (.load worker)) (.finish worker) = world
      rw [hload, hfinish]
    rw [List.replicate_succ, List.flatten_cons, runAll_append, hpair, ih]

theorem symbol_of_loaded {tables : MarketTables} {interval : Interval} {candle : Candle1m}
    (h : candle ∈ loadSourceCandles tables interval) : candle.symbol = interval.symbol :=
  (of_decide_eq_true (List.mem_filter.mp (mem_sortedBy.mp h)).2).1

/-- The first job is loaded and finished. -/
theorem process_first {job : AggregationJob} {queue : List AggregationJob}
    (h : world.workers worker = .running (job :: queue)) :
    ∃ next, runAll step world [.load worker, .finish worker] = next ∧
      next.workers worker = .running queue ∧ next.claims = world.claims ∧
      next.tables = finishJob world.tables job
        (result job (loadSourceCandles world.tables job.toInterval)) := by
  refine ⟨_, rfl, ?_⟩
  simp only [runAll, List.foldl_cons, List.foldl_nil, transact, step, h, World.goto,
    Function.update_self, true_and]

theorem process_queue {queue : List AggregationJob} (h : world.workers worker = .running queue)
    (haligned : ∀ job ∈ queue, Aligned job.toInterval) {count : Nat} (hcount : queue.length ≤ count) :
    Processed worker queue world
      (runAll step world (List.replicate count [Action.load worker, .finish worker]).flatten) := by
  induction queue generalizing world count with
  | nil =>
    rw [runAll_nothing_claimed h]
    refine ⟨h, rfl, rfl, rfl, ?_, fun _ hjob => absurd hjob List.not_mem_nil, fun _ _ => rfl⟩
    symm
    apply List.filter_eq_self.mpr
    intro row _
    exact decide_eq_true fun job hjob => absurd hjob List.not_mem_nil
  | cons job queue ih =>
    obtain ⟨rest, rfl⟩ := Nat.exists_eq_add_of_le' hcount
    obtain ⟨next, hnext, hworkers, hclaims, htables⟩ := process_first h
    rw [List.length_cons, ← Nat.add_assoc, List.replicate_succ, List.flatten_cons, runAll_append, hnext]
    have hrest := @ih next hworkers (fun other hother => haligned other (List.mem_cons_of_mem job hother))
      (rest + queue.length) (Nat.le_add_left _ _)
    have hjob := haligned job List.mem_cons_self
    have hsymbols : ∀ candle ∈ loadSourceCandles world.tables job.toInterval,
        candle.symbol = job.symbol := fun _ => symbol_of_loaded
    have hcandles : next.tables.candles = world.tables.candles := by
      rw [htables]
      rfl
    constructor
    · exact hrest.running
    · exact hrest.claims.trans hclaims
    · exact hrest.candles.trans hcandles
    · rw [hrest.cursors, htables]
      rfl
    · rw [hrest.jobs, htables]
      unfold finishJob
      rw [List.filter_filter]
      refine List.filter_congr fun row _ => ?_
      rw [← Bool.decide_and, decide_eq_decide]
      simp only [List.forall_mem_cons]
      exact and_comm
    · intro other hother
      by_cases hlater : ∃ again ∈ queue, again.toInterval = other.toInterval
      · obtain ⟨again, hagain, hsame⟩ := hlater
        rw [← hsame, hrest.done again hagain, current_congr hcandles]
      · have hnone : ∀ again ∈ queue, again.toInterval ≠ other.toInterval :=
          fun again hagain hsame => hlater ⟨again, hagain, hsame⟩
        have hfirst : other = job :=
          (List.mem_cons.mp hother).resolve_right fun hin => hnone other hin rfl
        subst hfirst
        rw [hrest.others _ hnone, htables, stored_finishJob_self hjob hsymbols]
        rfl
    · intro interval hnone
      rw [hrest.others interval fun again hagain => hnone again (List.mem_cons_of_mem job hagain),
        htables, stored_finishJob_of_ne hjob hsymbols (hnone job List.mem_cons_self)]

end Processing

section Claiming
variable {tables : MarketTables} {claimedAt : Int} {limit : Nat} {locked : Nat → Bool}

/-- The rows the claim did not take. -/
def unclaimed (tables : MarketTables) (claimedAt : Int) (limit : Nat) (locked : Nat → Bool) :
    List AggregationJobRecord :=
  tables.jobs.filter fun row => decide
    (row.id ∉ (claimableJobs tables claimedAt limit locked).map AggregationJobRecord.id)

/-- Of pending rows, the finished claims leave those that were not claimed. -/
theorem jobs_after_claims (hpending : ∀ row ∈ tables.jobs, row.state = .pending) :
    ((claimJobs tables claimedAt limit locked).2.jobs.filter fun row => decide
      (∀ job ∈ (claimJobs tables claimedAt limit locked).1, ¬ job.Current row)) =
      unclaimed tables claimedAt limit locked := by
  have hcurrent : ∀ row ∈ tables.jobs, ∀ job ∈ (claimJobs tables claimedAt limit locked).1,
      ¬ job.Current row := by
    rintro row hrow job - ⟨-, hstate, -⟩
    rw [hpending row hrow] at hstate
    cases hstate
  unfold unclaimed
  generalize hids : (claimableJobs tables claimedAt limit locked).map AggregationJobRecord.id = ids
  have hjobs : (claimJobs tables claimedAt limit locked).2.jobs =
      tables.jobs.map fun row => if row.id ∈ ids then claimedRow claimedAt row else row := by
    rw [← hids]
    rfl
  rw [hjobs, List.filter_map]
  have hkeep : ∀ row ∈ tables.jobs, (decide (∀ job ∈ (claimJobs tables claimedAt limit locked).1,
      ¬ job.Current (if row.id ∈ ids then claimedRow claimedAt row else row))) =
        decide (row.id ∉ ids) := by
    intro row hrow
    rw [decide_eq_decide]
    by_cases hid : row.id ∈ ids
    · rw [if_pos hid]
      refine iff_of_false ?_ (not_not.mpr hid)
      intro hnone
      obtain ⟨record, hrecord, hsame⟩ := List.mem_map.mp (hids ▸ hid)
      refine hnone _ (List.mem_map.mpr ⟨record, hrecord, rfl⟩) ⟨hsame.symm, rfl, rfl⟩
    · rw [if_neg hid]
      exact iff_of_true (hcurrent row hrow) hid
  refine (congrArg _ (List.filter_congr hkeep)).trans ?_
  conv_rhs => rw [← List.map_id (tables.jobs.filter fun row => decide (row.id ∉ ids))]
  refine List.map_congr_left fun row hrow => ?_
  exact if_neg (of_decide_eq_true (List.mem_filter.mp hrow).2)

theorem length_unclaimed_lt {now : Int} (hready : ∀ row ∈ tables.jobs, Ready now row)
    (hdue : now ≤ claimedAt) (hlimit : 0 < limit) (hsome : tables.jobs ≠ []) :
    (unclaimed tables claimedAt limit fun _ => false).length < tables.jobs.length := by
  have hall : tables.jobs.filter (fun row =>
      decide (row.state = .pending ∧ row.availableAt ≤ claimedAt) && !(fun _ => false) row.id) =
        tables.jobs := by
    apply List.filter_eq_self.mpr
    intro row hrow
    rw [decide_eq_true ⟨(hready row hrow).1, (hready row hrow).2.trans hdue⟩]
    rfl
  obtain ⟨first, hfirst⟩ : ∃ row, row ∈ claimableJobs tables claimedAt limit fun _ => false := by
    unfold claimableJobs
    rw [hall]
    apply List.exists_mem_of_length_pos
    rw [List.length_take, (@sortedBy_perm _ _ _ claimOrder tables.jobs).length_eq]
    have hpos := List.length_pos_iff.mpr hsome
    omega
  apply List.length_filter_lt_length_iff_exists.mpr
  refine ⟨first, mem_claimableJobs hfirst, ?_⟩
  rw [Bool.not_eq_true, decide_eq_false_iff_not, not_not]
  exact List.mem_map.mpr ⟨first, hfirst, rfl⟩

end Claiming

section Passes
variable {active : List Symbol} {worker : Nat} {now : Int} {old mid new : MarketTables}

/-- A job or the seed scan will still see to the interval. -/
def Owed (active : List Symbol) (tables : MarketTables) (interval : Interval) : Prop :=
  Queued tables interval ∨ Ahead active tables interval

instance (active : List Symbol) (tables : MarketTables) (interval : Interval) :
    Decidable (Owed active tables interval) := by
  unfold Owed
  infer_instance

/-- The worker waits for its next pass: all rows can be claimed and no claim lies ahead. -/
structure Idle (worker : Nat) (now : Int) (world : World) : Prop where
  sound : Sound world
  running : world.workers worker = .running []
  ready : ∀ row ∈ world.tables.jobs, Ready now row
  claims : ∀ claim ∈ world.claims, claim.2 ≤ now

/-- What passes without writers do to the tables. -/
structure Drained (active : List Symbol) (old new : MarketTables) : Prop where
  candles : new.candles = old.candles
  owed : ∀ interval, Owed active new interval → Owed active old interval
  served : ∀ interval, Owed active old interval →
    Owed active new interval ∨ stored new interval = current new interval
  kept : ∀ interval, ¬ Owed active old interval → stored new interval = stored old interval

theorem Drained.refl (active : List Symbol) (tables : MarketTables) : Drained active tables tables :=
  ⟨rfl, fun _ h => h, fun _ h => Or.inl h, fun _ _ => rfl⟩

theorem Drained.trans (h : Drained active old mid) (h' : Drained active mid new) :
    Drained active old new := by
  constructor
  · exact h'.candles.trans h.candles
  · intro interval hnew
    exact h.owed interval (h'.owed interval hnew)
  · intro interval hold
    by_cases hmid : Owed active mid interval
    · exact h'.served interval hmid
    · right
      rw [h'.kept interval hmid, (h.served interval hold).resolve_left hmid, current_congr h'.candles]
  · intro interval hold
    have hmid : ¬ Owed active mid interval := fun hmid => hold (h.owed interval hmid)
    rw [h'.kept interval hmid, h.kept interval hold]

theorem Scanned.drained (h : Scanned active now old new) : Drained active old new := by
  constructor
  · exact h.candles
  · intro interval
    exact (h.owed interval).mp
  · intro interval hold
    exact Or.inl ((h.owed interval).mpr hold)
  · intro interval _
    exact stored_congr h.aggregates

theorem Ahead.congr {interval : Interval} (hcandles : new.candles = old.candles)
    (hcursors : new.cursors = old.cursors) :
    Ahead active new interval ↔ Ahead active old interval := by
  unfold Ahead Unscanned lastScanned
  rw [hcandles, hcursors]

/-- The jobs of one claim, all finished. -/
theorem Processed.drained {world next : World} {claimedAt : Int} {limit : Nat}
    {locked : Nat → Bool} {claimed : World} (hkeyed : Keyed (slots world.tables) world.tables.nextJobId)
    (hready : ∀ row ∈ world.tables.jobs, Ready now row)
    (hclaimed : claimed.tables = (claimJobs world.tables claimedAt limit locked).2)
    (h : Processed worker (claimJobs world.tables claimedAt limit locked).1 claimed next) :
    next.tables.jobs = unclaimed world.tables claimedAt limit locked ∧
      Drained active world.tables next.tables := by
  have hcandles : claimed.tables.candles = world.tables.candles := by
    rw [hclaimed]
    rfl
  have hcursors : claimed.tables.cursors = world.tables.cursors := by
    rw [hclaimed]
    rfl
  have hstored : ∀ interval, stored claimed.tables interval = stored world.tables interval := by
    intro interval
    rw [hclaimed]
    rfl
  have hjobs : next.tables.jobs = unclaimed world.tables claimedAt limit locked := by
    rw [h.jobs, hclaimed]
    exact jobs_after_claims fun row hrow => (hready row hrow).1
  have hahead : ∀ interval, Ahead active next.tables interval ↔ Ahead active world.tables interval :=
    fun interval => Ahead.congr (h.candles.trans hcandles) (h.cursors.trans hcursors)
  have hqueued : ∀ interval, Queued next.tables interval → Queued world.tables interval := by
    intro interval hnew
    obtain ⟨row, hrow, hkey⟩ := List.mem_map.mp hnew
    rw [hjobs] at hrow
    exact List.mem_map.mpr ⟨row, List.mem_of_mem_filter hrow, hkey⟩
  refine ⟨hjobs, ?_⟩
  constructor
  · exact h.candles.trans hcandles
  · intro interval hnew
    exact hnew.imp (hqueued interval) (hahead interval).mp
  · rintro interval (hold | hold)
    · obtain ⟨row, hrow, rfl⟩ := List.mem_map.mp hold
      by_cases hid : row.id ∈ (claimableJobs world.tables claimedAt limit locked).map
          AggregationJobRecord.id
      · obtain ⟨record, hrecord, hsame⟩ := List.mem_map.mp hid
        have heq := List.inj_on_of_nodup_map hkeyed.ids (mem_slots (mem_claimableJobs hrecord))
          (mem_slots hrow) hsame
        have hdone := h.done _ (List.mem_map.mpr ⟨record, hrecord, rfl⟩)
        right
        rw [current_congr h.candles, ← (Prod.mk.inj heq).2]
        exact hdone
      · refine Or.inl (Or.inl (List.mem_map.mpr ⟨row, ?_, rfl⟩))
        rw [hjobs]
        exact List.mem_filter.mpr ⟨hrow, decide_eq_true hid⟩
    · exact Or.inl (Or.inr ((hahead interval).mpr hold))
  · intro interval hnone
    rw [h.others interval, hstored]
    intro job hjob hsame
    refine hnone (Or.inl ?_)
    rw [← hsame]
    exact queued_iff.mpr ⟨_, (claimed_slot hjob).1, rfl⟩

variable {world : World} {sourceBatchSize jobBatchSize : Nat}

theorem Idle.seed (h : Idle worker now world) (hsource : 0 < sourceBatchSize) {seededAt : Int}
    (hlater : now ≤ seededAt) :
    Idle worker seededAt (transact step world (.seed worker active sourceBatchSize seededAt)) ∧
      Scanned active seededAt world.tables
        (transact step world (.seed worker active sourceBatchSize seededAt)).tables := by
  have hstep : step world (.seed worker active sourceBatchSize seededAt) =
      .ok { world with tables := (seedNextBatch world.tables sourceBatchSize seededAt active).2 } := by
    simp only [step, h.running]
  have hscanned := @seedNextBatch_scanned world.tables active sourceBatchSize seededAt hsource
    fun row hrow => (h.ready row hrow).mono hlater
  have hsound := h.sound.moved (step_moved hstep)
  unfold transact
  rw [hstep]
  refine ⟨⟨hsound, h.running, hscanned.ready, ?_⟩, hscanned⟩
  intro claim hclaim
  exact (h.claims claim hclaim).trans hlater

/-- The claim of a pass is never refused, and its jobs are all finished. -/
theorem Idle.serve {seen : Int} (h : Idle worker now world)
    (hclaims : ∀ claim ∈ world.claims, claim.2 ≤ seen) {claimedAt : Int} (hdue : now ≤ claimedAt) (hlater : seen < claimedAt) :
    let next := runAll step world (.claim worker claimedAt jobBatchSize (fun _ => false) ::
      (List.replicate jobBatchSize [Action.load worker, .finish worker]).flatten)
    Idle worker claimedAt next ∧ Drained active world.tables next.tables ∧
      next.tables.cursors = world.tables.cursors ∧
      next.tables.jobs = unclaimed world.tables claimedAt jobBatchSize fun _ => false := by
  intro next
  have hdistinct : ¬ ∃ job ∈ (claimJobs world.tables claimedAt jobBatchSize fun _ => false).1,
      (job.id, claimedAt) ∈ world.claims := by
    rintro ⟨job, -, hclaim⟩
    exact absurd (hclaims _ hclaim) (not_le.mpr hlater)
  obtain ⟨claimed, hclaimed⟩ : ∃ claimed, claimed =
      transact step world (.claim worker claimedAt jobBatchSize fun _ => false) := ⟨_, rfl⟩
  have hnext : next = runAll step claimed
      (List.replicate jobBatchSize [Action.load worker, .finish worker]).flatten := by
    rw [hclaimed]
    rfl
  simp only [transact, step, h.running, if_neg hdistinct] at hclaimed
  have hrunning : claimed.workers worker =
      .running (claimJobs world.tables claimedAt jobBatchSize fun _ => false).1 := by
    rw [hclaimed]
    exact Function.update_self _ _ _
  have hcount : (claimJobs world.tables claimedAt jobBatchSize fun _ => false).1.length ≤
      jobBatchSize := by
    unfold claimJobs claimableJobs
    rw [List.length_map, List.length_take]
    exact Nat.min_le_left _ _
  have hprocessed := process_queue hrunning (fun job hjob =>
    h.sound.keyed.aligned _ (claimed_slot hjob).1) hcount
  rw [← hnext] at hprocessed
  have htables : claimed.tables =
      (claimJobs world.tables claimedAt jobBatchSize fun _ => false).2 := by
    rw [hclaimed]
  obtain ⟨hjobs, hdrained⟩ := hprocessed.drained h.sound.keyed h.ready htables
  refine ⟨⟨?_, hprocessed.running, ?_, ?_⟩, hdrained, ?_, hjobs⟩
  · exact runAll_invariant (fun _ _ _ hsound hstep => hsound.moved (step_moved hstep)) h.sound _
  · intro row hrow
    rw [hjobs] at hrow
    exact (h.ready row (List.mem_of_mem_filter hrow)).mono hdue
  · rw [hprocessed.claims, hclaimed]
    intro claim hclaim
    rcases List.mem_append.mp hclaim with hbefore | hthis
    · exact (hclaims claim hbefore).trans hlater.le
    · obtain ⟨job, -, rfl⟩ := List.mem_map.mp hthis
      exact Int.le_refl claimedAt
  · rw [hprocessed.cursors, htables]
    rfl

theorem unscanned_congr (hcandles : new.candles = old.candles) (hcursors : new.cursors = old.cursors) :
    unscanned active new = unscanned active old := by
  unfold unscanned unscannedTimes lastScanned
  rw [hcandles, hcursors]

/-- One pass serves some of the backlog, as long as there is any. -/
theorem Idle.pass (h : Idle worker now world) (hsource : 0 < sourceBatchSize)
    (hjobBatch : 0 < jobBatchSize) {clock : Int × Int} (hseed : now ≤ clock.1)
    (hclaim : clock.1 ≤ clock.2) (hlater : now < clock.2) :
    let next := runAll step world (workerLoop worker active sourceBatchSize jobBatchSize clock)
    Idle worker clock.2 next ∧ Drained active world.tables next.tables ∧
      backlog active next.tables ≤ backlog active world.tables - 1 := by
  intro next
  obtain ⟨seeded, hseeded⟩ : ∃ seeded, seeded =
      transact step world (.seed worker active sourceBatchSize clock.1) := ⟨_, rfl⟩
  have hnext : next = runAll step seeded (.claim worker clock.2 jobBatchSize (fun _ => false) ::
      (List.replicate jobBatchSize [Action.load worker, .finish worker]).flatten) := by
    rw [hseeded]
    rfl
  obtain ⟨hwaiting, hscanned⟩ :=
    @Idle.seed active worker now world sourceBatchSize h hsource clock.1 hseed
  rw [← hseeded] at hwaiting hscanned
  have hclaims : ∀ claim ∈ seeded.claims, claim.2 ≤ now := by
    rw [hseeded]
    simpa only [transact, step, h.running] using h.claims
  have hserved := @Idle.serve active worker clock.1 seeded jobBatchSize now hwaiting hclaims clock.2
    hclaim hlater
  rw [← hnext] at hserved
  obtain ⟨hidle, hdrained, hcursors, hjobs⟩ := hserved
  refine ⟨hidle, hscanned.drained.trans hdrained, ?_⟩
  have hle : next.tables.jobs.length ≤ seeded.tables.jobs.length := by
    rw [hjobs]
    exact List.length_filter_le _ _
  have hsame : unscanned active next.tables = unscanned active seeded.tables :=
    unscanned_congr hdrained.candles hcursors
  rcases hscanned.lower with ⟨hidle, hnone⟩ | hlower
  · rw [hidle] at hle hsame
    unfold backlog
    by_cases hempty : world.tables.jobs = []
    · rw [hempty] at hle ⊢
      rw [List.length_nil] at hle
      omega
    · have hlt := @length_unclaimed_lt seeded.tables clock.2 jobBatchSize clock.1 hwaiting.ready
        hclaim hjobBatch (by rwa [hidle])
      rw [← hjobs, hidle] at hlt
      omega
  · unfold backlog at *
    omega

/-- Every pass of the loop comes after the claim of the last one. -/
def Forward : Int → List (Int × Int) → Prop
  | _, [] => True
  | now, clock :: clocks =>
    now ≤ clock.1 ∧ clock.1 ≤ clock.2 ∧ now < clock.2 ∧ Forward clock.2 clocks

instance decidableForward : ∀ (now : Int) (clocks : List (Int × Int)), Decidable (Forward now clocks)
  | _, [] => isTrue trivial
  | now, clock :: clocks =>
    have := decidableForward clock.2 clocks
    inferInstanceAs (Decidable (now ≤ clock.1 ∧ clock.1 ≤ clock.2 ∧ now < clock.2 ∧ _))

/-- What holds before every pass that is still to come. -/
def Waiting (active : List Symbol) (worker : Nat) (old : MarketTables) (world : World)
    (clocks : List (Int × Int)) : Prop :=
  ∃ now, Idle worker now world ∧ Forward now clocks ∧ Drained active old world.tables

theorem Waiting.pass {clock : Int × Int} {clocks : List (Int × Int)}
    (h : Waiting active worker old world (clock :: clocks)) (hsource : 0 < sourceBatchSize)
    (hjobBatch : 0 < jobBatchSize) :
    let next := runAll step world (workerLoop worker active sourceBatchSize jobBatchSize clock)
    Waiting active worker old next clocks ∧
      backlog active next.tables ≤ backlog active world.tables - 1 := by
  obtain ⟨now, hidle, ⟨hseed, hclaim, hlater, hrest⟩, hdrained⟩ := h
  obtain ⟨hnext, hpass, hlower⟩ := @Idle.pass active worker now world sourceBatchSize jobBatchSize
    hidle hsource hjobBatch clock hseed hclaim hlater
  exact ⟨⟨clock.2, hnext, hrest, hdrained.trans hpass⟩, hlower⟩

theorem not_owed_of_backlog (h : backlog active new = 0) (interval : Interval) :
    ¬ Owed active new interval := by
  unfold backlog at h
  rintro (hqueued | ⟨hactive, candle, hcandle, hinterval, hunscanned⟩)
  · obtain ⟨row, hrow, -⟩ := List.mem_map.mp hqueued
    have hpos := List.length_pos_of_mem hrow
    omega
  · have hin := mem_unscannedTimes.mpr ⟨candle, hcandle, rfl, hunscanned, rfl⟩
    have hpos := List.length_pos_of_mem hin
    have hsymbol : candle.symbol ∈ active := by
      rw [← hinterval] at hactive
      exact hactive
    have hle : (unscannedTimes new candle.symbol).length ≤ unscanned active new :=
      List.single_le_sum (fun _ _ => Nat.zero_le _) _ (List.mem_map.mpr ⟨_, hsymbol, rfl⟩)
    omega

theorem jobs_of_backlog (h : backlog active new = 0) : new.jobs = [] := by
  unfold backlog at h
  apply List.length_eq_zero_iff.mp
  omega

theorem seedNextBatch_of_backlog (h : backlog active new = 0) (batchSize : Nat) (now : Int) :
    (seedNextBatch new batchSize now active).1 = 0 := by
  rcases @seedNextBatch_cases new active batchSize now with ⟨-, hsame⟩ | ⟨symbol, hsymbol, last, hlast, -⟩
  · rw [hsame]
  · have hin := List.mem_of_mem_take (List.mem_of_getLast? hlast)
    obtain ⟨candle, hcandle, rfl, hunscanned, -⟩ := mem_unscannedTimes.mp hin
    exact absurd (Or.inr ⟨hsymbol, candle, hcandle, rfl, hunscanned⟩)
      (not_owed_of_backlog h (intervalOf candle .m5))

end Passes

section Drain

theorem runAll_flatMap {ι : Type*} (actions : ι → List Action) (passes : List ι) (world : World) :
    passes.foldl (fun world pass => runAll step world (actions pass)) world =
      runAll step world (passes.flatMap actions) := by
  induction passes generalizing world with
  | nil => rfl
  | cons pass passes ih =>
    rw [List.foldl_cons, ih, List.flatMap_cons, runAll_append]

/-- As many passes as the backlog counts empty the queue. -/
theorem Idle.drained {active : List Symbol} {worker : Nat} {now : Int} {world : World}
    {sourceBatchSize jobBatchSize : Nat} (h : Idle worker now world) (hsource : 0 < sourceBatchSize)
    (hjobBatch : 0 < jobBatchSize) {clocks : List (Int × Int)} (hclocks : Forward now clocks)
    (henough : backlog active world.tables ≤ clocks.length) :
    let next := runAll step world
      (clocks.flatMap (workerLoop worker active sourceBatchSize jobBatchSize))
    (∃ later, Idle worker later next) ∧ backlog active next.tables = 0 ∧
      Drained active world.tables next.tables := by
  have hwaiting : Waiting active worker world.tables world clocks :=
    ⟨now, h, hclocks, Drained.refl active world.tables⟩
  obtain ⟨⟨later, hidle, -, hdrained⟩, hempty⟩ := @foldl_exhausts World (Int × Int)
    (fun world clock =>
      runAll step world (workerLoop worker active sourceBatchSize jobBatchSize clock))
    (Waiting active worker world.tables) (fun world => backlog active world.tables)
    (fun _ _ _ h => h.pass hsource hjobBatch) clocks world hwaiting henough
  rw [runAll_flatMap] at hidle hdrained hempty
  exact ⟨⟨later, hidle⟩, hempty, hdrained⟩

theorem Drained.stored_eq {active : List Symbol} {old new : MarketTables}
    (h : Drained active old new) (hempty : backlog active new = 0) (interval : Interval) :
    stored new interval =
      if Owed active old interval then current old interval else stored old interval := by
  split
  · rename_i howed
    rw [← current_congr h.candles]
    exact (h.served interval howed).resolve_left (not_owed_of_backlog hempty interval)
  · rename_i hfree
    exact h.kept interval hfree

theorem sound_run (history : List Action) : Sound (run history) :=
  runAll_invariant (fun _ _ _ h hstep => h.moved (step_moved hstep)) sound_initial history

/-- Once every job is pending and due and no claim lies ahead, a worker that then runs alone and
without failures empties the queue in as many passes as the backlog counts: every interval that a
job or the seed scan still owed has the aggregate of its candles, and no other aggregate changed. -/
theorem backlog_drains (active : List Symbol) (worker : Nat) (history : List Action)
    {sourceBatchSize jobBatchSize : Nat} (hsource : 0 < sourceBatchSize)
    (hjobBatch : 0 < jobBatchSize) (now : Int)
    (hrunning : (run history).workers worker = .running [])
    (hready : ∀ row ∈ (run history).tables.jobs, Ready now row)
    (hclaims : ∀ claim ∈ (run history).claims, claim.2 ≤ now)
    (clocks : List (Int × Int)) (hclocks : Forward now clocks)
    (henough : backlog active (run history).tables ≤ clocks.length) :
    let before := (run history).tables
    let after := (run (history ++
      clocks.flatMap (workerLoop worker active sourceBatchSize jobBatchSize))).tables
    after.jobs = [] ∧ (∀ batchSize seededAt, (seedNextBatch after batchSize seededAt active).1 = 0) ∧
      after.candles = before.candles ∧
      ∀ interval, stored after interval =
        if Owed active before interval then current before interval else stored before interval := by
  intro before after
  have hidle : Idle worker now (run history) := ⟨sound_run history, hrunning, hready, hclaims⟩
  have hafter := @Idle.drained active worker now (run history) sourceBatchSize jobBatchSize hidle
    hsource hjobBatch clocks hclocks henough
  have hrun : run (history ++ clocks.flatMap (workerLoop worker active sourceBatchSize jobBatchSize)) =
      runAll step (run history)
        (clocks.flatMap (workerLoop worker active sourceBatchSize jobBatchSize)) :=
    runAll_append _ _ _
  rw [← hrun] at hafter
  obtain ⟨-, hempty, hdrained⟩ := hafter
  exact ⟨jobs_of_backlog hempty, seedNextBatch_of_backlog hempty, hdrained.candles,
    hdrained.stored_eq hempty⟩

/-- Five live minutes of which the last one enqueued its interval, and a worker that starts. -/
def fiveStoredMinutes : List Action :=
  (List.range 5).map (fun minute => liveMinute minute 100) ++ [.start 0 0 60]

theorem backlog_drains_sample :
    let after := (run (fiveStoredMinutes ++ ((List.range 26).map fun pass =>
      (2 * (pass : Int), 2 * (pass : Int) + 1)).flatMap (workerLoop 0 ["BTCUSDT"] 2 3))).tables
    after.jobs = [] ∧ stored after ⟨"BTCUSDT", .m5, 0⟩ =
      current (run fiveStoredMinutes).tables ⟨"BTCUSDT", .m5, 0⟩ := by
  have hdrained := backlog_drains ["BTCUSDT"] 0 fiveStoredMinutes (show 0 < 2 by decide)
    (show 0 < 3 by decide) 0 (by decide +kernel) (by decide +kernel) (by decide +kernel)
    ((List.range 26).map fun pass => (2 * (pass : Int), 2 * (pass : Int) + 1)) (by decide +kernel)
    (by decide +kernel)
  exact ⟨hdrained.1, (hdrained.2.2.2 _).trans (if_pos (by decide +kernel))⟩

end Drain

end StructurePulse.Aggregation
