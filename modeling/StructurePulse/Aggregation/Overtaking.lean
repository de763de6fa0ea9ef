import StructurePulse.Aggregation.Claims

/-!
# Stored aggregates under concurrent workers

A result is written whether or not its claim still owns the job row. As long as no result
overtakes one from a later load, an interval without a job row has the aggregate of its
candles.
-/

namespace StructurePulse.Aggregation
open Library SMC MarketData
set_option autoImplicit false

section Invariant

/-- A worker has loaded these candles for the interval. -/
def Loads (world : World) (interval : Interval) (job : AggregationJob) (candles : List Candle1m)
    (stamp : Nat) : Prop :=
  ∃ worker queue, world.workers worker = .loaded job candles stamp queue ∧
    job.toInterval = interval

/-- The action stores another result than the one already stored from a later load. -/
def Overtakes (world : World) (interval : Interval) : Action → Prop
  | .finish worker =>
    match world.workers worker with
    | .loaded job candles stamp _ =>
      job.toInterval = interval ∧ stamp < world.written interval ∧
        result job candles ≠ stored world.tables interval
    | _ => False
  | _ => False

instance (world : World) (interval : Interval) (action : Action) :
    Decidable (Overtakes world interval action) := by
  unfold Overtakes
  split
  · split <;> infer_instance
  · infer_instance

/-- The stored aggregate is right, or a job row will see to it. -/
structure Settled (world : World) (interval : Interval) : Prop where
  idle : ¬ Queued world.tables interval →
    stored world.tables interval = current world.tables interval ∧
      ∀ job candles stamp, Loads world interval job candles stamp →
        world.written interval ≤ stamp → result job candles = current world.tables interval
  owned : ∀ job candles stamp, Loads world interval job candles stamp → Owns world.tables job →
    ∀ job' candles' stamp', Loads world interval job' candles' stamp' → stamp ≤ stamp' →
      result job' candles' = current world.tables interval

variable {world next : World} {action : Action} {interval : Interval}

/-- A step that loads nothing, gives no row back and leaves the two views alone. -/
theorem Settled.of_frame (h : Settled world interval)
    (hcurrent : current next.tables interval = current world.tables interval)
    (hstored : stored next.tables interval = stored world.tables interval)
    (hwritten : next.written = world.written)
    (hloads : ∀ job candles stamp, Loads next interval job candles stamp →
      Loads world interval job candles stamp)
    (hqueued : Queued world.tables interval → Queued next.tables interval)
    (howns : ∀ job candles stamp, Loads world interval job candles stamp →
      Owns next.tables job → Owns world.tables job) : Settled next interval := by
  constructor
  · intro hidle
    obtain ⟨heq, hlater⟩ := h.idle fun hold => hidle (hqueued hold)
    rw [hcurrent, hstored, hwritten]
    refine ⟨heq, fun job candles stamp hloaded => ?_⟩
    exact hlater job candles stamp (hloads job candles stamp hloaded)
  · intro job candles stamp hloaded hown job' candles' stamp' hloaded' hle
    rw [hcurrent]
    have hold := hloads job candles stamp hloaded
    exact h.owned job candles stamp hold (howns job candles stamp hold hown) job' candles' stamp'
      (hloads job' candles' stamp' hloaded') hle

theorem Loads.held (h : Sound world) {job : AggregationJob} {candles : List Candle1m} {stamp : Nat}
    (hloads : Loads world interval job candles stamp) : Held world.tables world.claims job := by
  obtain ⟨worker, queue, hloaded, -⟩ := hloads
  apply h.held worker
  rw [hloaded]
  exact List.mem_cons_self

theorem Loads.stamp_lt (h : Sound world) {job : AggregationJob} {candles : List Candle1m}
    {stamp : Nat} (hloads : Loads world interval job candles stamp) : stamp < world.loads := by
  obtain ⟨worker, queue, hloaded, -⟩ := hloads
  exact (h.loaded worker job candles stamp queue hloaded).2

/-- A worker that moves to a phase without a load adds none. -/
theorem loads_of_goto {worker : Nat} {phase : Worker}
    (hphase : ∀ job candles stamp queue, phase ≠ .loaded job candles stamp queue)
    (hworkers : next.workers = Function.update world.workers worker phase) {job : AggregationJob}
    {candles : List Candle1m} {stamp : Nat} (h : Loads next interval job candles stamp) :
    Loads world interval job candles stamp := by
  obtain ⟨other, queue, hloaded, hinterval⟩ := h
  rw [hworkers, Function.update_apply] at hloaded
  split at hloaded
  · exact absurd hloaded (hphase job candles stamp queue)
  · exact ⟨other, queue, hloaded, hinterval⟩

theorem Settled.finish (hsound : Sound world) (h : Settled world interval) {worker : Nat}
    {job : AggregationJob} {candles : List Candle1m} {stamp : Nat} {queue : List AggregationJob}
    (hloaded : world.workers worker = .loaded job candles stamp queue)
    (horder : ¬ Overtakes world interval (.finish worker)) :
    Settled { world.goto worker (.running queue) with
      tables := finishJob world.tables job (result job candles)
      written := Function.update world.written job.toInterval
        (max (world.written job.toInterval) stamp) } interval := by
  have hheld : Held world.tables world.claims job := by
    apply hsound.held worker
    rw [hloaded]
    exact List.mem_cons_self
  have hsymbols := (hsound.loaded worker job candles stamp queue hloaded).1
  have hloads : ∀ job' candles' stamp',
      Loads (world.goto worker (.running queue)) interval job' candles' stamp' →
        Loads world interval job' candles' stamp' := by
    intro job' candles' stamp' hnew
    exact loads_of_goto (by intros; exact Worker.noConfusion) rfl hnew
  by_cases hinterval : job.toInterval = interval
  · subst hinterval
    have hself : Loads world job.toInterval job candles stamp := ⟨worker, queue, hloaded, rfl⟩
    constructor
    · intro hidle
      refine ⟨(stored_finishJob_self hheld.aligned hsymbols).trans ?_, ?_⟩
      · by_cases hown : Owns world.tables job
        · exact h.owned job candles stamp hself hown job candles stamp hself (Nat.le_refl _)
        · have hold : ¬ Queued world.tables job.toInterval := by
            intro hqueued
            rcases queued_finishJob hheld hqueued with hnew | ⟨-, hown'⟩
            · exact hidle hnew
            · exact hown hown'
          obtain ⟨heq, hlater⟩ := h.idle hold
          by_cases hstamp : world.written job.toInterval ≤ stamp
          · exact hlater job candles stamp hself hstamp
          · -- a late result that does not overtake is the stored one
            by_contra hne
            apply horder
            simp only [Overtakes, hloaded]
            refine ⟨trivial, Nat.lt_of_not_le hstamp, fun hresult => hne ?_⟩
            exact hresult.trans heq
      · intro job' candles' stamp' hnew hle
        simp only [Function.update_self] at hle
        have hold := hloads job' candles' stamp' hnew
        by_cases hown : Owns world.tables job
        · exact h.owned job candles stamp hself hown job' candles' stamp' hold
            ((Nat.le_max_right _ _).trans hle)
        · have hnot : ¬ Queued world.tables job.toInterval := by
            intro hqueued
            rcases queued_finishJob hheld hqueued with hnew | ⟨-, hown'⟩
            · exact hidle hnew
            · exact hown hown'
          exact (h.idle hnot).2 job' candles' stamp' hold ((Nat.le_max_left _ _).trans hle)
    · intro job' candles' stamp' hnew hown job'' candles'' stamp'' hnew' hle
      exact h.owned job' candles' stamp' (hloads job' candles' stamp' hnew) (owns_of_finishJob hown)
        job'' candles'' stamp'' (hloads job'' candles'' stamp'' hnew') hle
  · constructor
    · intro hidle
      have hold : ¬ Queued world.tables interval := by
        intro hqueued
        rcases queued_finishJob hheld hqueued with hnew | ⟨heq, -⟩
        · exact hidle hnew
        · exact hinterval heq.symm
      obtain ⟨heq, hlater⟩ := h.idle hold
      refine ⟨(stored_finishJob_of_ne hheld.aligned hsymbols hinterval).trans heq, ?_⟩
      intro job' candles' stamp' hnew hle
      simp only [Function.update_of_ne (Ne.symm hinterval)] at hle
      exact hlater job' candles' stamp' (hloads job' candles' stamp' hnew) hle
    · intro job' candles' stamp' hnew hown job'' candles'' stamp'' hnew' hle
      exact h.owned job' candles' stamp' (hloads job' candles' stamp' hnew) (owns_of_finishJob hown)
        job'' candles'' stamp'' (hloads job'' candles'' stamp'' hnew') hle

theorem Settled.moved (hsound : Sound world) (h : Settled world interval)
    (henqueues : ¬ action.Misses interval) (horder : ¬ Overtakes world interval action)
    (hmoved : Moved world action next) : Settled next interval := by
  cases hmoved with
  | release worker queue phase tables haction hqueue hphase hjobs hsame =>
    refine h.of_frame ?_ ?_ rfl ?_ ?_ ?_
    · rw [hsame]
      exact current_congr rfl
    · rw [hsame]
      exact stored_congr rfl
    · intro job candles stamp hnew
      refine loads_of_goto ?_ rfl hnew
      intro job' candles' stamp' queue' heq
      rcases hphase with hphase | hphase
      · rw [hphase] at heq
        cases heq
      · rw [hphase] at heq
        cases heq
    · intro hqueued
      exact (hjobs.queued interval).mpr (Or.inl hqueued)
    · intro job candles stamp hloads hown
      exact (hjobs.owns (hloads.held hsound) hown).1
  | @seed worker symbols batchSize now =>
    obtain ⟨added, hseeded⟩ := seedNextBatch_seeded world.tables batchSize now symbols
    refine h.of_frame (current_congr hseeded.candles) (stored_congr hseeded.aggregates) rfl ?_ ?_ ?_
    · intro job candles stamp hnew
      exact hnew
    · intro hqueued
      exact (hseeded.jobs.queued interval).mpr (Or.inl hqueued)
    · intro job candles stamp hloads hown
      exact (hseeded.jobs.owns (hloads.held hsound) hown).1
  | @claim worker claimedAt limit locked hidle hdistinct =>
    refine h.of_frame (current_congr rfl) (stored_congr rfl) rfl ?_ ?_ ?_
    · intro job candles stamp hnew
      exact loads_of_goto (by intros; exact Worker.noConfusion) rfl hnew
    · intro hqueued
      exact queued_claimJobs.mpr hqueued
    · intro job candles stamp hloads hown
      exact owns_of_claimJobs (hloads.held hsound).claimed hdistinct hown
  | @load worker job queue hrunning =>
    -- the new load is the newest one and shows the current candles
    have hloads : ∀ job' candles' stamp',
        Loads { world.goto worker (.loaded job (loadSourceCandles world.tables job.toInterval)
            world.loads queue) with loads := world.loads + 1 } interval job' candles' stamp' →
          Loads world interval job' candles' stamp' ∨
            (stamp' = world.loads ∧ result job' candles' = current world.tables interval) := by
      rintro job' candles' stamp' ⟨other, rest, hloaded, hinterval⟩
      simp only [World.goto, Function.update_apply] at hloaded
      split at hloaded
      · cases hloaded
        rw [← hinterval]
        exact Or.inr ⟨rfl, rfl⟩
      · exact Or.inl ⟨other, rest, hloaded, hinterval⟩
    constructor
    · intro hidle
      obtain ⟨heq, hlater⟩ := h.idle hidle
      refine ⟨heq, fun job' candles' stamp' hnew hle => ?_⟩
      rcases hloads job' candles' stamp' hnew with hold | ⟨-, hresult⟩
      · exact hlater job' candles' stamp' hold hle
      · exact hresult
    · intro job' candles' stamp' hnew hown job'' candles'' stamp'' hnew' hle
      rcases hloads job'' candles'' stamp'' hnew' with hold' | ⟨-, hresult⟩
      · rcases hloads job' candles' stamp' hnew with hold | ⟨hstamp, -⟩
        · exact h.owned job' candles' stamp' hold hown job'' candles'' stamp'' hold' hle
        · have hlt := hold'.stamp_lt hsound
          omega
      · exact hresult
  | @finish worker job candles stamp queue hloaded => exact h.finish hsound hloaded horder
  | write tables hwritten =>
    by_cases hin : interval ∈ affectedIntervals action.writes.1 action.writes.2
    · constructor
      · intro hidle
        exact absurd ((hwritten.jobs.queued interval).mpr (Or.inr hin)) hidle
      · intro job candles stamp hloads hown
        obtain ⟨-, hnot⟩ := hwritten.jobs.owns (Loads.held hsound hloads) hown
        obtain ⟨-, -, -, hinterval⟩ := hloads
        rw [hinterval] at hnot
        exact absurd hin hnot
    · have hout : ∀ candle ∈ action.writes.1, holds interval candle = false := by
        intro candle hcandle
        by_contra hne
        exact henqueues ⟨⟨candle, hcandle, Bool.of_not_eq_false hne⟩, hin⟩
      refine h.of_frame (hwritten.current hout) (stored_congr hwritten.aggregates) rfl ?_ ?_ ?_
      · intro job candles stamp hnew
        exact hnew
      · intro hqueued
        exact (hwritten.jobs.queued interval).mpr (Or.inl hqueued)
      · intro job candles stamp hloads hown
        exact (hwritten.jobs.owns (hloads.held hsound) hown).1

theorem settled_initial (interval : Interval) : Settled {} interval := by
  constructor
  · intro _
    refine ⟨rfl, ?_⟩
    rintro job candles stamp ⟨worker, queue, hloaded, -⟩
    cases hloaded
  · rintro job candles stamp ⟨worker, queue, hloaded, -⟩
    cases hloaded

/-- In every run in which each write enqueues the interval and no result overtakes one from
a later load, the interval has a job row or the aggregate of its candles. -/
theorem aggregates_keep_up (interval : Interval) (actions : List Action)
    (hmeets : RunMeets step (fun world action =>
      ¬ action.Misses interval ∧ ¬ Overtakes world interval action) {} actions)
    (hidle : ¬ Queued (run actions).tables interval) :
    stored (run actions).tables interval = current (run actions).tables interval := by
  have hsettled : Sound (run actions) ∧ Settled (run actions) interval := by
    refine runAll_invariant_of_meets (P := fun world => Sound world ∧ Settled world interval) ?_
      ⟨sound_initial, settled_initial interval⟩ hmeets
    intro world action next hworld hcondition hstep
    have hmoved := step_moved hstep
    exact ⟨hworld.1.moved hmoved, hworld.2.moved hworld.1 hcondition.1 hcondition.2 hmoved⟩
  exact (hsettled.2.idle hidle).1

end Invariant

section StaleResult

/-- The minutes 0 to 4 at one price. -/
def fiveMinutes (price : ℚ) : List Candle1m :=
  (List.range 5).map fun minute =>
    { symbol := "BTCUSDT"
      openTime := minutes minute
      openPrice := price
      highPrice := price
      lowPrice := price
      closePrice := price
      volume := 1
      turnover := price }

def firstInterval : Interval := ⟨"BTCUSDT", .m5, 0⟩

/-- Worker 0 loads the interval at price 100, which then is repaired to 101; worker 1
claims the job again. Only the job of the five minutes is claimed. -/
def repairBetweenLoads (price : ℚ) : List Action :=
  let others := fun id : Nat => decide (id ≠ 3)
  [.saveBatch "BTCUSDT" "kline_1m" (fiveMinutes 100) 0, .start 0 0 60, .start 1 0 60,
    .claim 0 10 1 others, .load 0, .repair (fiveMinutes price) 20, .claim 1 30 1 others, .load 1,
    .finish 1]

/-- The result of worker 0 comes last: it replaces the newer one and no job is left. -/
theorem stale_result_replaces_newer :
    RunMeets step (fun _ action => ¬ action.Misses firstInterval) {}
        (repairBetweenLoads 101 ++ [.finish 0]) ∧
      ¬ Queued (run (repairBetweenLoads 101 ++ [.finish 0])).tables firstInterval ∧
      stored (run (repairBetweenLoads 101 ++ [.finish 0])).tables firstInterval ≠
        current (run (repairBetweenLoads 101 ++ [.finish 0])).tables firstInterval := by
  decide +kernel

theorem aggregates_keep_up_sample :
    stored (run (repairBetweenLoads 101)).tables firstInterval =
      current (run (repairBetweenLoads 101)).tables firstInterval :=
  aggregates_keep_up firstInterval (repairBetweenLoads 101) (by decide +kernel) (by decide +kernel)

end StaleResult

end StructurePulse.Aggregation
