import StructurePulse.Aggregation.Propagation

/-!
# Restarts and orphaned jobs

A process that dies leaves its claimed rows processing, and the only sweep that returns
them to the queue is the one at the start of the next process. `Accounted` is what should
hold of the rows while a worker runs; it does exactly when every start finds the rows of
the dead process stale.
-/

namespace StructurePulse.Aggregation
open Library SMC MarketData
set_option autoImplicit false

section Rows

/-- From its due time on the next claim that is large enough takes the row. -/
def Claimable (tables : MarketTables) (row : AggregationJobRecord) : Prop :=
  row.state = .pending ∧ ∀ claimedAt, row.availableAt ≤ claimedAt →
    row ∈ claimableJobs tables claimedAt tables.jobs.length fun _ => false

/-- No claim of the worker owns the processing row. -/
def Orphaned (world : World) (worker : Nat) (row : AggregationJobRecord) : Prop :=
  row.state = .processing ∧ ∀ job ∈ (world.workers worker).held, ¬ job.Current row

instance (world : World) (worker : Nat) (row : AggregationJobRecord) :
    Decidable (Orphaned world worker row) := by
  unfold Orphaned
  infer_instance

/-- While the worker runs, every job row waits for a claim or is owned by one of its claims. -/
def Accounted (worker : Nat) (world : World) : Prop :=
  world.workers worker ≠ .stopped → ∀ row ∈ world.tables.jobs,
    Claimable world.tables row ∨ ∃ job ∈ (world.workers worker).held, job.Current row

theorem claimable_of_pending {tables : MarketTables} {row : AggregationJobRecord}
    (hrow : row ∈ tables.jobs) (hpending : row.state = .pending) : Claimable tables row := by
  refine ⟨hpending, fun claimedAt hdue => ?_⟩
  unfold claimableJobs
  rw [List.take_of_length_le]
  · apply mem_sortedBy.mpr
    refine List.mem_filter.mpr ⟨hrow, ?_⟩
    rw [decide_eq_true ⟨hpending, hdue⟩]
    rfl
  · rw [(@sortedBy_perm _ _ _ claimOrder _).length_eq]
    exact List.length_filter_le _ _

theorem accounted_iff {worker : Nat} {world : World} :
    Accounted worker world ↔ (world.workers worker ≠ .stopped →
      ∀ row ∈ world.tables.jobs, ¬ Orphaned world worker row) := by
  constructor
  · rintro h hrunning row hrow ⟨hprocessing, hunowned⟩
    rcases h hrunning row hrow with ⟨hpending, -⟩ | ⟨job, hjob, hcurrent⟩
    · rw [hpending] at hprocessing
      cases hprocessing
    · exact hunowned job hjob hcurrent
  · intro h hrunning row hrow
    cases hstate : row.state with
    | pending => exact Or.inl (claimable_of_pending hrow hstate)
    | processing =>
      right
      by_contra hnone
      refine h hrunning row hrow ⟨hstate, fun job hjob hcurrent => ?_⟩
      exact hnone ⟨job, hjob, hcurrent⟩

end Rows

section Steps
variable {world next : World} {worker : Nat}

/-- At a start, the rows that are still processing were claimed before the stale limit. -/
def FindsStale (worker : Nat) (world : World) : Action → Prop
  | .start _ now staleAfter => world.workers worker = .stopped →
    ∀ row ∈ world.tables.jobs, row.state = .processing → row.updatedAt < now - staleAfter
  | _ => True

instance (worker : Nat) (world : World) (action : Action) :
    Decidable (FindsStale worker world action) := by
  unfold FindsStale
  split <;> infer_instance

/-- Every processing row is owned by the running worker. -/
def Owned (worker : Nat) (world : World) : Prop :=
  world.workers worker ≠ .stopped → ∀ row ∈ world.tables.jobs, row.state = .processing →
    ∃ job ∈ (world.workers worker).held, job.Current row

theorem Owned.of_requeued {added : List Interval} (h : Owned worker world)
    (hworkers : next.workers = world.workers) (hjobs : Requeued world.tables next.tables added) :
    Owned worker next := by
  intro hrunning row hrow hprocessing
  rw [hworkers] at hrunning ⊢
  exact h hrunning row (hjobs.processing row hrow hprocessing).1 hprocessing

theorem Owned.claim (h : Owned worker world) (hidle : world.workers worker = .running [])
    {claimedAt : Int} {limit : Nat} {locked : Nat → Bool}
    (hworker : next.workers worker =
      .running (claimJobs world.tables claimedAt limit locked).1)
    (htables : next.tables = (claimJobs world.tables claimedAt limit locked).2) :
    Owned worker next := by
  have hnone : ∀ row ∈ world.tables.jobs, row.state ≠ .processing := by
    intro row hrow hprocessing
    have hrunning : world.workers worker ≠ .stopped := by
      rw [hidle]
      exact Worker.noConfusion
    obtain ⟨job, hjob, -⟩ := h hrunning row hrow hprocessing
    rw [hidle] at hjob
    cases hjob
  intro _ row hrow hprocessing
  rw [htables] at hrow
  obtain ⟨source, hsource, rfl⟩ := List.mem_map.mp hrow
  rw [hworker]
  split at hprocessing
  · rename_i hclaimed
    obtain ⟨record, hrecord, hid⟩ := List.mem_map.mp hclaimed
    refine ⟨_, List.mem_map.mpr ⟨record, hrecord, rfl⟩, ?_⟩
    rw [if_pos hclaimed]
    exact ⟨hid.symm, rfl, rfl⟩
  · exact absurd hprocessing (hnone source hsource)

/-- The worker lets go of its first job when no processing row is current for it. -/
theorem Owned.release (h : Owned worker world) {job : AggregationJob} {queue : List AggregationJob}
    (hheld : (world.workers worker).held = job :: queue)
    (hworker : (next.workers worker).held = queue)
    (hrows : ∀ row ∈ next.tables.jobs, row.state = .processing →
      row ∈ world.tables.jobs ∧ ¬ job.Current row) : Owned worker next := by
  intro _ row hrow hprocessing
  obtain ⟨hold, hother⟩ := hrows row hrow hprocessing
  have hrunning : world.workers worker ≠ .stopped := by
    intro hstopped
    rw [hstopped] at hheld
    cases hheld
  obtain ⟨owner, howner, hcurrent⟩ := h hrunning row hold hprocessing
  rw [hheld] at howner
  rw [hworker]
  rcases List.mem_cons.mp howner with rfl | hrest
  · exact absurd hcurrent hother
  · exact ⟨owner, hrest, hcurrent⟩

theorem finishJob_rows {tables : MarketTables} {job : AggregationJob}
    {candle : Option AggregatedCandle} {row : AggregationJobRecord}
    (hrow : row ∈ (finishJob tables job candle).jobs) : row ∈ tables.jobs ∧ ¬ job.Current row := by
  obtain ⟨hold, hother⟩ := List.mem_filter.mp hrow
  exact ⟨hold, of_decide_eq_true hother⟩

theorem failJob_rows {tables : MarketTables} {job : AggregationJob} {error : String} {now : Int}
    {row : AggregationJobRecord} (hrow : row ∈ (failJob tables job error now).jobs)
    (hprocessing : row.state = .processing) : row ∈ tables.jobs ∧ ¬ job.Current row := by
  obtain ⟨source, hsource, rfl⟩ := List.mem_map.mp hrow
  split at hprocessing
  · cases hprocessing
  · rename_i hother
    rw [if_neg hother]
    exact ⟨hsource, hother⟩

theorem recoverStaleJobs_rows {tables : MarketTables} {staleAfter now : Int}
    {row : AggregationJobRecord} (hrow : row ∈ (recoverStaleJobs tables staleAfter now).jobs)
    (hprocessing : row.state = .processing) :
    row ∈ tables.jobs ∧ ¬ row.updatedAt < now - staleAfter := by
  obtain ⟨source, hsource, rfl⟩ := List.mem_map.mp hrow
  split at hprocessing
  · cases hprocessing
  · rename_i hfresh
    rw [if_neg hfresh]
    exact ⟨hsource, fun hstale => hfresh ⟨hprocessing, hstale⟩⟩

theorem workers_goto (world : World) (worker : Nat) (phase : Worker) :
    (world.goto worker phase).workers worker = phase := by
  simp only [World.goto, Function.update_self]

theorem Owned.step (h : Owned worker world) {action : Action}
    (hworker : ∀ other ∈ action.worker, other = worker) (hstale : FindsStale worker world action)
    (hstep : Aggregation.step world action = .ok next) : Owned worker next := by
  cases action with
  | start other now staleAfter =>
    obtain rfl := hworker other rfl
    simp only [Aggregation.step] at hstep
    split at hstep
    · rename_i hstopped
      cases hstep
      intro _ row hrow hprocessing
      obtain ⟨hold, hfresh⟩ := recoverStaleJobs_rows hrow hprocessing
      exact absurd (hstale hstopped row hold hprocessing) hfresh
    · cases hstep
  | seed other symbols batchSize now =>
    simp only [Aggregation.step] at hstep
    split at hstep
    · cases hstep
      obtain ⟨added, hseeded⟩ := seedNextBatch_seeded world.tables batchSize now symbols
      exact h.of_requeued rfl hseeded.jobs
    · cases hstep
  | claim other claimedAt limit locked =>
    obtain rfl := hworker other rfl
    simp only [Aggregation.step] at hstep
    split at hstep
    · rename_i hidle
      split at hstep
      · cases hstep
      · cases hstep
        exact h.claim hidle (workers_goto world other _) rfl
    · cases hstep
  | load other =>
    obtain rfl := hworker other rfl
    simp only [Aggregation.step] at hstep
    split at hstep
    · rename_i job queue hphase
      cases hstep
      have hheld : (world.workers other).held = job :: queue := by
        rw [hphase]
        rfl
      intro _ row hrow hprocessing
      have hrunning : world.workers other ≠ .stopped := by
        rw [hphase]
        exact Worker.noConfusion
      have howner := h hrunning row hrow hprocessing
      rw [hheld] at howner
      simp only [workers_goto]
      exact howner
    · cases hstep
  | finish other =>
    obtain rfl := hworker other rfl
    simp only [Aggregation.step] at hstep
    split at hstep
    · rename_i job candles stamp queue hphase
      cases hstep
      have hheld : (world.workers other).held = job :: queue := by
        rw [hphase]
        rfl
      refine h.release hheld (congrArg Worker.held (workers_goto world other _)) ?_
      intro row hrow _
      exact finishJob_rows hrow
    · cases hstep
  | fail other error now =>
    obtain rfl := hworker other rfl
    simp only [Aggregation.step] at hstep
    split at hstep
    · rename_i job queue hphase
      cases hstep
      have hheld : (world.workers other).held = job :: queue := by
        rw [hphase]
        rfl
      refine h.release hheld (congrArg Worker.held (workers_goto world other _)) ?_
      intro row hrow hprocessing
      exact failJob_rows hrow hprocessing
    · rename_i job candles stamp queue hphase
      cases hstep
      have hheld : (world.workers other).held = job :: queue := by
        rw [hphase]
        rfl
      refine h.release hheld (congrArg Worker.held (workers_goto world other _)) ?_
      intro row hrow hprocessing
      exact failJob_rows hrow hprocessing
    · cases hstep
  | crash other =>
    obtain rfl := hworker other rfl
    cases hstep
    intro hrunning
    exact absurd (workers_goto world other .stopped) hrunning
  | saveBatch symbol stream candles now =>
    obtain ⟨tables, htables, hnext⟩ := bind_eq_ok.mp hstep
    cases hnext
    exact h.of_requeued rfl (saveBatch_written htables).jobs
  | ingest stream candle now =>
    obtain ⟨ingested, hingested, hnext⟩ := bind_eq_ok.mp hstep
    cases hnext
    exact h.of_requeued rfl (ingestLiveCandle_written hingested).jobs
  | repair candles now =>
    obtain ⟨tables, htables, hnext⟩ := bind_eq_ok.mp hstep
    cases hnext
    exact h.of_requeued rfl (repairCandles_written htables).jobs

end Steps

section Restarts
variable {worker : Nat} {actions : List Action}

theorem Owned.accounted {world : World} (h : Owned worker world) : Accounted worker world := by
  apply accounted_iff.mpr
  rintro hrunning row hrow ⟨hprocessing, hunowned⟩
  obtain ⟨job, hjob, hcurrent⟩ := h hrunning row hrow hprocessing
  exact hunowned job hjob hcurrent

/-- A start that finds a fresh processing row leaves it orphaned. -/
theorem findsStale_of_accounted {world : World} {now staleAfter : Int}
    (h : Accounted worker (transact step world (.start worker now staleAfter))) :
    FindsStale worker world (.start worker now staleAfter) := by
  intro hstopped row hrow hprocessing
  by_contra hfresh
  have hnext : transact step world (.start worker now staleAfter) =
      { world.goto worker (.running []) with
        tables := recoverStaleJobs world.tables staleAfter now } := by
    unfold transact
    simp only [step]
    rw [hstopped]
  rw [hnext] at h
  have hphase := workers_goto world worker (.running [])
  refine accounted_iff.mp h ?_ row ?_ ⟨hprocessing, ?_⟩
  · simp only [hphase]
    exact Worker.noConfusion
  · refine List.mem_map.mpr ⟨row, hrow, if_neg ?_⟩
    rintro ⟨-, hstale⟩
    exact hfresh hstale
  · intro job hjob
    simp only [hphase] at hjob
    cases hjob

/-- In every history of one worker, its crashes and restarts, every row is accounted for at
all times exactly when every start finds the rows of the dead process stale. -/
theorem jobs_accounted_iff (worker : Nat) (actions : List Action)
    (hworker : ∀ action ∈ actions, ∀ other ∈ action.worker, other = worker) :
    (∀ before, before <+: actions → Accounted worker (run before)) ↔
      RunMeets step (FindsStale worker) {} actions := by
  constructor
  · intro h
    refine runMeets_iff_prefixes.mpr fun before action hbefore => ?_
    cases action with
    | start other now staleAfter =>
      have hmem : Action.start other now staleAfter ∈ actions :=
        hbefore.subset (List.mem_append_right before List.mem_cons_self)
      obtain rfl := hworker _ hmem other rfl
      apply findsStale_of_accounted
      have haccounted := h _ hbefore
      unfold run at haccounted
      rw [runAll_append] at haccounted
      exact haccounted
    | _ => exact trivial
  · intro h before hbefore
    have hmeets := (RunMeets.and_forall hworker h).restrict hbefore
    refine Owned.accounted (runAll_invariant_of_meets (P := Owned worker) ?_ ?_ hmeets)
    · intro world action next howned hcondition hstep
      exact howned.step hcondition.1 hcondition.2 hstep
    · intro hrunning
      exact absurd rfl hrunning

/-- A live minute is aggregated by a worker that dies after its load; the next process starts
after the delay, with a stale limit of five minutes. -/
def interruptedRun (delay : Int) : List Action :=
  [liveMinute 4 100, .start 0 (minutes 5) (minutes 5), .claim 0 (minutes 5) 100 fun _ => false,
    .load 0, .crash 0, .start 0 (minutes 5 + delay) (minutes 5)]

/-- A restart within the stale limit leaves the claimed job processing and owned by nobody. -/
theorem quick_restart_orphans_job :
    (∀ action ∈ interruptedRun oneMinute, ∀ other ∈ action.worker, other = 0) ∧
      ¬ Accounted 0 (run (interruptedRun oneMinute)) := by
  refine ⟨by decide +kernel, fun h => ?_⟩
  have horphan : (run (interruptedRun oneMinute)).workers 0 ≠ .stopped ∧
      ∃ row ∈ (run (interruptedRun oneMinute)).tables.jobs,
        Orphaned (run (interruptedRun oneMinute)) 0 row := by decide +kernel
  obtain ⟨hrunning, row, hrow, horphaned⟩ := horphan
  exact accounted_iff.mp h hrunning row hrow horphaned

theorem jobs_accounted_sample :
    RunMeets step (FindsStale 0) {} (interruptedRun (minutes 10)) ∧
      ∀ before, before <+: interruptedRun (minutes 10) → Accounted 0 (run before) := by
  have hmeets : RunMeets step (FindsStale 0) {} (interruptedRun (minutes 10)) := by decide +kernel
  exact ⟨hmeets, (jobs_accounted_iff 0 (interruptedRun (minutes 10)) (by decide +kernel)).mpr hmeets⟩

end Restarts

end StructurePulse.Aggregation
