import StructurePulse.Aggregation.Claims

/-!
# Canonical candles and their aggregates

One worker processes the jobs between the writes. A live candle is enqueued only for the
intervals it completes; what else it changes reaches the aggregates as long as a job is
still to be loaded or the seed scan has not passed the interval.
-/

namespace StructurePulse.Aggregation
open Library SMC MarketData
set_option autoImplicit false

section Conditions

/-- The worker has loaded the interval and still owns its job row. -/
def LoadedFor (world : World) (worker : Nat) (interval : Interval) : Prop :=
  match world.workers worker with
  | .loaded job _ _ _ => job.toInterval = interval ∧ Owns world.tables job
  | _ => False

instance (world : World) (worker : Nat) (interval : Interval) :
    Decidable (LoadedFor world worker interval) := by
  unfold LoadedFor
  generalize world.workers worker = phase
  exact match phase with
    | .stopped | .running _ => inferInstanceAs (Decidable False)
    | .loaded _ _ _ _ => inferInstanceAs (Decidable (_ ∧ _))

/-- The seed scan of an active symbol will still come to a candle of the interval. -/
def Ahead (active : List Symbol) (tables : MarketTables) (interval : Interval) : Prop :=
  interval.symbol ∈ active ∧ ∃ candle ∈ tables.candles,
    intervalOf candle interval.timeframe = interval ∧ Unscanned tables candle

instance (active : List Symbol) (tables : MarketTables) (interval : Interval) :
    Decidable (Ahead active tables interval) := by
  unfold Ahead
  infer_instance

/-- A write that does not enqueue the interval of one of its candles leaves its aggregate
as it is, or finds a job that is still to be loaded, or is still to be scanned. -/
def Reaches (active : List Symbol) (worker : Nat) (interval : Interval) (world : World)
    (action : Action) : Prop :=
  action.Misses interval →
    current (transact step world action).tables interval = current world.tables interval ∨
      (Queued world.tables interval ∧ ¬ LoadedFor world worker interval) ∨
      Ahead active (transact step world action).tables interval

instance (active : List Symbol) (worker : Nat) (interval : Interval) (world : World)
    (action : Action) : Decidable (Reaches active worker interval world action) := by
  unfold Reaches
  infer_instance

end Conditions

section Single
variable {world next : World} {action : Action} {worker : Nat}

/-- Only one worker runs, and its jobs have their rows. -/
structure Single (world : World) (worker : Nat) : Prop where
  alone : ∀ other, other ≠ worker → world.workers other = .stopped
  rows : ∀ job ∈ (world.workers worker).held, (job.id, job.toInterval) ∈ slots world.tables
  distinct : ((world.workers worker).held.map AggregationJob.id).Nodup

theorem single_initial (worker : Nat) : Single {} worker := by
  constructor
  · intro other _
    rfl
  · intro job hjob
    cases hjob
  · exact List.nodup_nil

theorem claimed_ids (hkeyed : Keyed (slots world.tables) world.tables.nextJobId) (claimedAt : Int)
    (limit : Nat) (locked : Nat → Bool) :
    ((claimJobs world.tables claimedAt limit locked).1.map AggregationJob.id).Nodup := by
  have hids : (world.tables.jobs.map AggregationJobRecord.id).Nodup := by
    have h := hkeyed.ids
    unfold slots at h
    rw [List.map_map] at h
    exact h
  unfold claimJobs claimableJobs
  rw [List.map_map]
  refine List.Nodup.sublist ((List.take_sublist _ _).map _) ?_
  refine ((sortedBy_perm _).map AggregationJobRecord.id).nodup_iff.mpr ?_
  exact hids.sublist (List.filter_sublist.map _)

/-- The tables lose no row of a held job and the worker keeps some of its jobs. -/
theorem Single.of_suffix (h : Single world worker) {phase : Worker} {tables : MarketTables}
    {queue : List AggregationJob} (hphase : phase.held = queue)
    (hqueue : queue <:+ (world.workers worker).held)
    (hrows : ∀ job ∈ queue, (job.id, job.toInterval) ∈ slots world.tables →
      (job.id, job.toInterval) ∈ slots tables)
    (hnext : next.workers = Function.update world.workers worker phase)
    (htables : next.tables = tables) : Single next worker := by
  have hheld : (next.workers worker).held = queue := by
    rw [hnext, Function.update_self, hphase]
  constructor
  · intro other hother
    rw [hnext, Function.update_of_ne hother]
    exact h.alone other hother
  · rw [hheld, htables]
    intro job hjob
    exact hrows job hjob (h.rows job (hqueue.subset hjob))
  · rw [hheld]
    exact h.distinct.sublist (hqueue.sublist.map _)

theorem Single.of_tables (h : Single world worker) (hworkers : next.workers = world.workers)
    (hrows : ∀ slot ∈ slots world.tables, slot ∈ slots next.tables) : Single next worker := by
  constructor
  · rw [hworkers]
    exact h.alone
  · rw [hworkers]
    intro job hjob
    exact hrows _ (h.rows job hjob)
  · rw [hworkers]
    exact h.distinct

theorem Single.moved (hsound : Sound world) (h : Single world worker)
    (hworker : ∀ other ∈ action.worker, other = worker) (hmoved : Moved world action next) :
    Single next worker := by
  cases hmoved with
  | release other queue phase tables haction hqueue hphase hjobs hsame =>
    have heq : other = worker := hworker other haction
    subst heq
    have hheld : phase.held = [] ∨ phase.held = queue := by
      rcases hphase with rfl | rfl
      · exact Or.inl rfl
      · exact Or.inr rfl
    have hkept : ∀ job : AggregationJob, (job.id, job.toInterval) ∈ slots world.tables →
        (job.id, job.toInterval) ∈ slots tables := fun job => hjobs.kept hsound.keyed _
    rcases hheld with hheld | hheld
    · exact h.of_suffix hheld List.nil_suffix (fun job _ => hkept job) rfl rfl
    · exact h.of_suffix hheld hqueue (fun job _ => hkept job) rfl rfl
  | @seed other symbols batchSize now =>
    obtain ⟨added, hseeded⟩ := seedNextBatch_seeded world.tables batchSize now symbols
    exact h.of_tables rfl (hseeded.jobs.kept hsound.keyed)
  | @claim other claimedAt limit locked hidle hdistinct =>
    have heq : other = worker := hworker other rfl
    subst heq
    constructor
    · intro another hne
      simp only [World.goto, Function.update_of_ne hne]
      exact h.alone another hne
    · simp only [World.goto, Function.update_self, slots_claimJobs]
      intro job hjob
      exact (claimed_slot hjob).1
    · simp only [World.goto, Function.update_self]
      exact claimed_ids hsound.keyed claimedAt limit locked
  | @load other job queue hrunning =>
    have heq : other = worker := hworker other rfl
    subst heq
    have hheld : (Worker.loaded job (loadSourceCandles world.tables job.toInterval) world.loads
        queue).held = job :: queue := rfl
    refine h.of_suffix hheld ?_ (fun _ _ hrow => hrow) rfl rfl
    rw [hrunning]
    exact List.suffix_refl _
  | @finish other job candles stamp queue hloaded =>
    have heq : other = worker := hworker other rfl
    subst heq
    have hids := h.distinct
    rw [hloaded] at hids
    refine h.of_suffix rfl ?_ ?_ rfl rfl
    · rw [hloaded]
      exact List.suffix_cons job queue
    · intro waiting hwaiting hslot
      obtain ⟨row, hrow, heq⟩ := List.mem_map.mp hslot
      obtain ⟨hid, hinterval⟩ := Prod.mk.inj heq
      refine List.mem_map.mpr ⟨row, List.mem_filter.mpr ⟨hrow, decide_eq_true ?_⟩, heq⟩
      intro hcurrent
      refine (List.nodup_cons.mp hids).1 (List.mem_map.mpr ⟨waiting, hwaiting, ?_⟩)
      exact hid.symm.trans hcurrent.1
  | write tables hwritten => exact h.of_tables rfl (hwritten.jobs.kept hsound.keyed)

end Single

section Propagation
variable {world next : World} {action : Action} {worker : Nat} {active : List Symbol}
variable {interval : Interval} {old new : MarketTables} {added : List Interval}

theorem Ahead.mono (h : Ahead active old interval) (hcursors : new.cursors = old.cursors)
    (hkeys : ∀ key ∈ old.candles.map candleKey, key ∈ new.candles.map candleKey) :
    Ahead active new interval := by
  obtain ⟨hactive, candle, hcandle, hinterval, hunscanned⟩ := h
  obtain ⟨kept, hkept, hkey⟩ := List.mem_map.mp (hkeys _ (List.mem_map.mpr ⟨candle, hcandle, rfl⟩))
  obtain ⟨hsymbol, htime⟩ := Prod.mk.inj hkey
  refine ⟨hactive, kept, hkept, ?_, ?_⟩
  · rw [← hinterval]
    unfold intervalOf
    rw [hsymbol, htime]
  · unfold Unscanned lastScanned at hunscanned ⊢
    rw [hcursors, hsymbol, htime]
    exact hunscanned

theorem Seeded.ahead (h : Seeded old new added) (hahead : Ahead active old interval) :
    Ahead active new interval ∨ interval ∈ added := by
  obtain ⟨hactive, candle, hcandle, hinterval, hunscanned⟩ := hahead
  rcases h.scanned candle hcandle hunscanned with hstill | hadded
  · refine Or.inl ⟨hactive, candle, ?_, hinterval, hstill⟩
    rw [h.candles]
    exact hcandle
  · right
    rw [← hinterval]
    exact hadded _

/-- The aggregate is right, or a job or the seed scan will see to it. -/
structure Followed (active : List Symbol) (worker : Nat) (interval : Interval) (world : World) :
    Prop where
  idle : ¬ Queued world.tables interval →
    stored world.tables interval = current world.tables interval ∨ Ahead active world.tables interval
  loaded : ∀ job candles stamp queue, world.workers worker = .loaded job candles stamp queue →
    job.toInterval = interval → Owns world.tables job →
      result job candles = current world.tables interval ∨ Ahead active world.tables interval

/-- A step that changes neither view and loses no row and no unscanned candle. -/
theorem Followed.of_frame (h : Followed active worker interval world)
    (hcurrent : current next.tables interval = current world.tables interval)
    (hstored : stored next.tables interval = stored world.tables interval)
    (hahead : Ahead active world.tables interval →
      Ahead active next.tables interval ∨ Queued next.tables interval)
    (hloads : ∀ job candles stamp queue, next.workers worker = .loaded job candles stamp queue →
      world.workers worker = .loaded job candles stamp queue)
    (hqueued : Queued world.tables interval → Queued next.tables interval)
    (howns : ∀ job candles stamp queue, world.workers worker = .loaded job candles stamp queue →
      job.toInterval = interval → Owns next.tables job →
        Owns world.tables job ∧ (Ahead active world.tables interval →
          Ahead active next.tables interval)) : Followed active worker interval next := by
  constructor
  · intro hidle
    rw [hcurrent, hstored]
    rcases h.idle fun hold => hidle (hqueued hold) with heq | hwaits
    · exact Or.inl heq
    · exact Or.inr ((hahead hwaits).resolve_right hidle)
  · intro job candles stamp queue hloaded hinterval hown
    rw [hcurrent]
    have hold := hloads job candles stamp queue hloaded
    obtain ⟨hownOld, hstill⟩ := howns job candles stamp queue hold hinterval hown
    rcases h.loaded job candles stamp queue hold hinterval hownOld with heq | hwaits
    · exact Or.inl heq
    · exact Or.inr (hstill hwaits)

theorem Sound.loaded_held (h : Sound world) {job : AggregationJob} {candles : List Candle1m}
    {stamp : Nat} {queue : List AggregationJob}
    (hloaded : world.workers worker = .loaded job candles stamp queue) :
    Held world.tables world.claims job := by
  apply h.held worker
  rw [hloaded]
  exact List.mem_cons_self

theorem Followed.finish (hsound : Sound world) (hsingle : Single world worker)
    (h : Followed active worker interval world) {job : AggregationJob} {candles : List Candle1m}
    {stamp : Nat} {queue : List AggregationJob}
    (hloaded : world.workers worker = .loaded job candles stamp queue) :
    Followed active worker interval { world.goto worker (.running queue) with
      tables := finishJob world.tables job (result job candles)
      written := Function.update world.written job.toInterval
        (max (world.written job.toInterval) stamp) } := by
  have hheld := hsound.loaded_held hloaded
  have hsymbols := (hsound.loaded worker job candles stamp queue hloaded).1
  constructor
  · intro hidle
    by_cases hinterval : job.toInterval = interval
    · subst hinterval
      have hown : Owns world.tables job := by
        -- otherwise the row of the job is still there
        by_contra hnot
        apply hidle
        have hslot := hsingle.rows job (by
          rw [hloaded]
          exact List.mem_cons_self)
        rcases queued_finishJob hheld (queued_iff.mpr ⟨_, hslot, rfl⟩) with hrow | ⟨-, hown⟩
        · exact hrow
        · exact absurd hown hnot
      rcases h.loaded job candles stamp queue hloaded rfl hown with heq | hwaits
      · exact Or.inl ((stored_finishJob_self hheld.aligned hsymbols).trans heq)
      · exact Or.inr hwaits
    · have hold : ¬ Queued world.tables interval := by
        intro hqueued
        rcases queued_finishJob hheld hqueued with hnew | ⟨heq, -⟩
        · exact hidle hnew
        · exact hinterval heq.symm
      rcases h.idle hold with heq | hwaits
      · exact Or.inl ((stored_finishJob_of_ne hheld.aligned hsymbols hinterval).trans heq)
      · exact Or.inr hwaits
  · intro job' candles' stamp' queue' hloaded'
    simp only [World.goto, Function.update_self] at hloaded'
    cases hloaded'

theorem Followed.write (hsound : Sound world) (h : Followed active worker interval world)
    {tables : MarketTables} (hreaches : Reaches active worker interval world action)
    (hnext : transact step world action = { world with tables := tables })
    (hwritten : Written world.tables tables action.writes.1 action.writes.2) :
    Followed active worker interval { world with tables := tables } := by
  have howns : ∀ job candles stamp queue, world.workers worker = .loaded job candles stamp queue →
      Owns tables job → Owns world.tables job ∧
        job.toInterval ∉ affectedIntervals action.writes.1 action.writes.2 := by
    intro job candles stamp queue hloaded hown
    exact hwritten.jobs.owns (hsound.loaded_held hloaded) hown
  have hahead : Ahead active world.tables interval → Ahead active tables interval := by
    intro hwaits
    refine hwaits.mono hwritten.cursors fun key hkey => ?_
    rw [hwritten.candles]
    exact mem_keys_foldl_upsertRow.mpr (Or.inl hkey)
  by_cases hin : interval ∈ affectedIntervals action.writes.1 action.writes.2
  · constructor
    · intro hidle
      exact absurd ((hwritten.jobs.queued interval).mpr (Or.inr hin)) hidle
    · intro job candles stamp queue hloaded hinterval hown
      rw [← hinterval] at hin
      exact absurd hin (howns job candles stamp queue hloaded hown).2
  · have hkeeps : current tables interval = current world.tables interval →
        Followed active worker interval { world with tables := tables } := by
      intro hcurrent
      refine h.of_frame hcurrent (stored_congr hwritten.aggregates) (Or.inl ∘ hahead) ?_ ?_ ?_
      · intro job candles stamp queue hloaded
        exact hloaded
      · intro hqueued
        exact (hwritten.jobs.queued interval).mpr (Or.inl hqueued)
      · intro job candles stamp queue hloaded _ hown
        exact ⟨(howns job candles stamp queue hloaded hown).1, hahead⟩
    by_cases hmisses : action.Misses interval
    · unfold Reaches at hreaches
      rw [hnext] at hreaches
      rcases hreaches hmisses with hcurrent | ⟨hqueued, hnot⟩ | hwaits
      · exact hkeeps hcurrent
      · constructor
        · intro hidle
          exact absurd ((hwritten.jobs.queued interval).mpr (Or.inl hqueued)) hidle
        · intro job candles stamp queue hloaded hinterval hown
          refine absurd ?_ hnot
          unfold LoadedFor
          have hloaded' : world.workers worker = .loaded job candles stamp queue := hloaded
          rw [hloaded']
          exact ⟨hinterval, (howns job candles stamp queue hloaded hown).1⟩
      · exact ⟨fun _ => Or.inr hwaits, fun _ _ _ _ _ _ _ => Or.inr hwaits⟩
    · apply hkeeps
      apply hwritten.current
      intro candle hcandle
      by_contra hne
      exact hmisses ⟨⟨candle, hcandle, Bool.of_not_eq_false hne⟩, hin⟩

theorem Followed.moved (hsound : Sound world) (hsingle : Single world worker)
    (h : Followed active worker interval world) (hworker : ∀ other ∈ action.worker, other = worker)
    (hreaches : Reaches active worker interval world action)
    (hnext : transact step world action = next) (hmoved : Moved world action next) :
    Followed active worker interval next := by
  cases hmoved with
  | release other queue phase tables haction hqueue hphase hjobs hsame =>
    have heq : other = worker := hworker other haction
    subst heq
    constructor
    · intro hidle
      rw [hsame]
      exact h.idle fun hqueued => hidle ((hjobs.queued interval).mpr (Or.inl hqueued))
    · intro job candles stamp queue' hloaded
      simp only [World.goto, Function.update_self] at hloaded
      rcases hphase with rfl | rfl
      · cases hloaded
      · cases hloaded
  | @seed other symbols batchSize now =>
    obtain ⟨added, hseeded⟩ := seedNextBatch_seeded world.tables batchSize now symbols
    refine h.of_frame (current_congr hseeded.candles) (stored_congr hseeded.aggregates) ?_ ?_ ?_ ?_
    · intro hwaits
      rcases hseeded.ahead hwaits with hstill | hin
      · exact Or.inl hstill
      · exact Or.inr ((hseeded.jobs.queued interval).mpr (Or.inr hin))
    · intro job candles stamp queue hloaded
      exact hloaded
    · intro hqueued
      exact (hseeded.jobs.queued interval).mpr (Or.inl hqueued)
    · intro job candles stamp queue hloaded hinterval hown
      obtain ⟨hold, hnot⟩ := hseeded.jobs.owns (hsound.loaded_held hloaded) hown
      rw [hinterval] at hnot
      exact ⟨hold, fun hwaits => (hseeded.ahead hwaits).resolve_right hnot⟩
  | @claim other claimedAt limit locked hidle hdistinct =>
    have heq : other = worker := hworker other rfl
    subst heq
    constructor
    · intro hnot
      exact h.idle fun hqueued => hnot (queued_claimJobs.mpr hqueued)
    · intro job candles stamp queue hloaded
      simp only [World.goto, Function.update_self] at hloaded
      cases hloaded
  | @load other job queue hrunning =>
    have heq : other = worker := hworker other rfl
    subst heq
    refine ⟨h.idle, ?_⟩
    intro job' candles stamp rest hloaded hinterval _
    simp only [World.goto, Function.update_self] at hloaded
    cases hloaded
    rw [← hinterval]
    exact Or.inl rfl
  | @finish other job candles stamp queue hloaded =>
    have heq : other = worker := hworker other rfl
    subst heq
    exact h.finish hsound hsingle hloaded
  | write tables hwritten => exact h.write hsound hreaches hnext hwritten

theorem followed_initial (active : List Symbol) (worker : Nat) (interval : Interval) :
    Followed active worker interval {} := by
  constructor
  · intro _
    exact Or.inl rfl
  · intro job candles stamp queue hloaded
    cases hloaded

/-- In every run of one worker whose writes reach the interval, the interval has the
aggregate of its candles once no job is left and the seed scan finds nothing. -/
theorem candles_reach_aggregates (active : List Symbol) (worker : Nat) (interval : Interval)
    (actions : List Action)
    (hworker : ∀ action ∈ actions, ∀ other ∈ action.worker, other = worker)
    (hreaches : RunMeets step (Reaches active worker interval) {} actions)
    (hjobs : (run actions).tables.jobs = []) {batchSize : Nat} (hbatch : 0 < batchSize) (now : Int)
    (hseed : (seedNextBatch (run actions).tables batchSize now active).1 = 0) :
    stored (run actions).tables interval = current (run actions).tables interval := by
  have hmeets := RunMeets.and_forall hworker hreaches
  have hall : Sound (run actions) ∧ Single (run actions) worker ∧
      Followed active worker interval (run actions) := by
    refine runAll_invariant_of_meets (P := fun world => Sound world ∧ Single world worker ∧
      Followed active worker interval world) ?_ ⟨sound_initial, single_initial worker,
        followed_initial active worker interval⟩ hmeets
    intro world action next hworld hcondition hstep
    have hmoved := step_moved hstep
    obtain ⟨hsound, hsingle, hfollowed⟩ := hworld
    refine ⟨hsound.moved hmoved, hsingle.moved hsound hcondition.1 hmoved, ?_⟩
    refine hfollowed.moved hsound hsingle hcondition.1 hcondition.2 ?_ hmoved
    unfold transact
    rw [hstep]
  obtain ⟨-, -, hfollowed⟩ := hall
  have hidle : ¬ Queued (run actions).tables interval := by
    unfold Queued
    rw [hjobs]
    exact List.not_mem_nil
  refine (hfollowed.idle hidle).resolve_right ?_
  rintro ⟨hactive, candle, hcandle, hinterval, hunscanned⟩
  refine not_unscanned_of_seedNextBatch hbatch hseed hcandle ?_ hunscanned
  rw [← hinterval] at hactive
  exact hactive

end Propagation

section LostUpdate

def liveMinute (minute : Nat) (price : ℚ) : Action :=
  .ingest "kline_1m"
    { symbol := "BTCUSDT"
      openTime := minutes minute
      openPrice := price
      highPrice := price
      lowPrice := price
      closePrice := price
      volume := 1
      turnover := price } 0

/-- Five live minutes are seeded and all their jobs processed. -/
def fiveLiveMinutes : List Action :=
  (List.range 5).map (fun minute => liveMinute minute 100) ++
    [.start 0 0 60, .seed 0 ["BTCUSDT"] 100 0, .claim 0 10 100 fun _ => false] ++
    (List.replicate 4 [.load 0, .finish 0]).flatten

/-- Minute 2 is delivered again with another price: nothing is enqueued, the seed scan is
past it, and the stored aggregate keeps the old price. -/
theorem redelivered_minute_is_not_aggregated :
    let world := run (fiveLiveMinutes ++ [liveMinute 2 105])
    world.tables.jobs = [] ∧ (seedNextBatch world.tables 100 0 ["BTCUSDT"]).1 = 0 ∧
      stored world.tables ⟨"BTCUSDT", .m5, 0⟩ ≠ current world.tables ⟨"BTCUSDT", .m5, 0⟩ := by
  decide +kernel

theorem candles_reach_aggregates_sample :
    stored (run fiveLiveMinutes).tables ⟨"BTCUSDT", .m5, 0⟩ =
      current (run fiveLiveMinutes).tables ⟨"BTCUSDT", .m5, 0⟩ :=
  candles_reach_aggregates ["BTCUSDT"] 0 ⟨"BTCUSDT", .m5, 0⟩ fiveLiveMinutes (by decide +kernel)
    (by decide +kernel) (by decide +kernel) (show 0 < 100 by decide) 0 (by decide +kernel)

end LostUpdate

end StructurePulse.Aggregation
