import StructurePulse.Aggregation.Queue

/-!
# Claims and their rows

A claim that lost its row never owns it again: the row can only be claimed with a new
time. `Sound` is what every run keeps about the job rows and the claims.
-/

namespace StructurePulse.Aggregation
open Library SMC MarketData
set_option autoImplicit false

section Held
variable {old new : MarketTables} {added : List Interval} {claims : List (Nat × Int)}
variable {job : AggregationJob}

/-- What is known of a job that a worker holds. -/
structure Held (tables : MarketTables) (claims : List (Nat × Int)) (job : AggregationJob) :
    Prop where
  fresh : job.id < tables.nextJobId
  aligned : Aligned job.toInterval
  same : ∀ slot ∈ slots tables, slot.1 = job.id → slot.2 = job.toInterval
  claimed : (job.id, job.claimedAt) ∈ claims

theorem Held.requeued (h : Held old claims job) (hjobs : Requeued old new added) :
    Held new claims job := by
  refine ⟨h.fresh.trans_le hjobs.next, h.aligned, ?_, h.claimed⟩
  intro slot hslot hid
  rcases hjobs.known slot hslot with hold | hle
  · exact h.same slot hold hid
  · have hfresh := h.fresh
    omega

theorem Held.sublist (h : Held old claims job) (hsub : (slots new).Sublist (slots old))
    (hnext : new.nextJobId = old.nextJobId) : Held new claims job := by
  refine ⟨?_, h.aligned, ?_, h.claimed⟩
  · rw [hnext]
    exact h.fresh
  · intro slot hslot
    exact h.same slot (hsub.subset hslot)

theorem Held.interval_eq (h : Held old claims job) {row : AggregationJobRecord}
    (hrow : row ∈ old.jobs) (hid : row.id = job.id) : row.toInterval = job.toInterval :=
  h.same _ (mem_slots hrow) hid

/-- A row that was returned to the queue is owned by no claim. -/
theorem Requeued.owns (hjobs : Requeued old new added) (h : Held old claims job)
    (howns : Owns new job) : Owns old job ∧ job.toInterval ∉ added := by
  obtain ⟨row, hrow, hid, hstate, htime⟩ := howns
  obtain ⟨hold, hadded⟩ := hjobs.processing row hrow hstate
  rw [h.interval_eq hold hid] at hadded
  exact ⟨⟨row, hold, hid, hstate, htime⟩, hadded⟩

theorem Owns.queued (howns : Owns old job) (h : Held old claims job) :
    Queued old job.toInterval := by
  obtain ⟨row, hrow, hid, -, -⟩ := howns
  exact List.mem_map.mpr ⟨row, hrow, h.interval_eq hrow hid⟩

end Held

section ClaimStep
variable {tables : MarketTables} {claimedAt : Int} {limit : Nat} {locked : Nat → Bool}

theorem mem_claimableJobs {row : AggregationJobRecord}
    (h : row ∈ claimableJobs tables claimedAt limit locked) : row ∈ tables.jobs :=
  List.mem_of_mem_filter (mem_sortedBy.mp (List.mem_of_mem_take h))

theorem slots_claimJobs : slots (claimJobs tables claimedAt limit locked).2 = slots tables := by
  unfold slots claimJobs
  rw [List.map_map]
  refine List.map_congr_left fun row _ => ?_
  rw [Function.comp_apply]
  split <;> rfl

theorem queued_claimJobs {interval : Interval} :
    Queued (claimJobs tables claimedAt limit locked).2 interval ↔ Queued tables interval := by
  rw [queued_iff, queued_iff, slots_claimJobs]

/-- Every claimed job has the id and the interval of a row. -/
theorem claimed_slot {job : AggregationJob}
    (h : job ∈ (claimJobs tables claimedAt limit locked).1) :
    (job.id, job.toInterval) ∈ slots tables ∧ job.claimedAt = claimedAt := by
  obtain ⟨row, hrow, rfl⟩ := List.mem_map.mp h
  exact ⟨mem_slots (mem_claimableJobs hrow), rfl⟩

theorem claimed_held (hkeyed : Keyed (slots tables) tables.nextJobId) {claims : List (Nat × Int)}
    {job : AggregationJob} (h : job ∈ (claimJobs tables claimedAt limit locked).1) :
    Held (claimJobs tables claimedAt limit locked).2
      (claims ++ (claimJobs tables claimedAt limit locked).1.map fun job => (job.id, claimedAt))
      job := by
  obtain ⟨hslot, htime⟩ := claimed_slot h
  constructor
  · exact hkeyed.fresh _ hslot
  · exact hkeyed.aligned _ hslot
  · rw [slots_claimJobs]
    intro slot hin hid
    have heq : slot = (job.id, job.toInterval) :=
      List.inj_on_of_nodup_map hkeyed.ids hin hslot hid
    rw [heq]
  · rw [htime]
    exact List.mem_append_right _ (List.mem_map.mpr ⟨job, h, rfl⟩)

/-- A later claim does not give a row back to an earlier one. -/
theorem owns_of_claimJobs {claims : List (Nat × Int)} {job : AggregationJob}
    (hclaimed : (job.id, job.claimedAt) ∈ claims)
    (hdistinct : ∀ job ∈ (claimJobs tables claimedAt limit locked).1, (job.id, claimedAt) ∉ claims)
    (h : Owns (claimJobs tables claimedAt limit locked).2 job) : Owns tables job := by
  obtain ⟨row, hrow, hid, hstate, htime⟩ := h
  obtain ⟨source, hsource, heq⟩ := List.mem_map.mp hrow
  split at heq
  · rename_i hin
    obtain ⟨record, hrecord, hrecordId⟩ := List.mem_map.mp hin
    have hsame : source.id = job.id ∧ claimedAt = job.claimedAt := by
      rw [← hid, ← htime, ← heq]
      exact ⟨rfl, rfl⟩
    refine absurd hclaimed ?_
    rw [← hsame.1, ← hsame.2, ← hrecordId]
    exact hdistinct _ (List.mem_map.mpr ⟨record, hrecord, rfl⟩)
  · rw [heq] at hsource
    exact ⟨row, hsource, hid, hstate, htime⟩

end ClaimStep

section FinishStep
variable {tables : MarketTables} {job : AggregationJob} {candle : Option AggregatedCandle}

theorem slots_finishJob_sublist : (slots (finishJob tables job candle)).Sublist (slots tables) :=
  List.filter_sublist.map _

theorem owns_of_finishJob {other : AggregationJob} (h : Owns (finishJob tables job candle) other) :
    Owns tables other := by
  obtain ⟨row, hrow, hcurrent⟩ := h
  exact ⟨row, List.mem_of_mem_filter hrow, hcurrent⟩

/-- Only an owned row is deleted, and it is the row of the job's interval. -/
theorem queued_finishJob {claims : List (Nat × Int)} (hheld : Held tables claims job)
    {interval : Interval} (h : Queued tables interval) :
    Queued (finishJob tables job candle) interval ∨ (interval = job.toInterval ∧ Owns tables job) := by
  obtain ⟨row, hrow, rfl⟩ := List.mem_map.mp h
  by_cases hcurrent : job.Current row
  · exact Or.inr ⟨hheld.interval_eq hrow hcurrent.1, row, hrow, hcurrent⟩
  · refine Or.inl (List.mem_map.mpr ⟨row, List.mem_filter.mpr ⟨hrow, ?_⟩, rfl⟩)
    exact decide_eq_true hcurrent

/-- A result is stored under the interval of its job. -/
theorem aggregateKey_result (haligned : Aligned job.toInterval) {candles : List Candle1m}
    (hsymbols : ∀ candle ∈ candles, candle.symbol = job.symbol) {aggregate : AggregatedCandle}
    (h : result job candles = some aggregate) : aggregateKey aggregate = job.toInterval := by
  obtain ⟨hopen, first, rest, hfrom⟩ := aggregateCandles_some h
  have htime : aggregate.openTime = job.openTime := (hopen _ rfl).trans haligned
  have hfirst : first ∈ candles := by
    rw [← @mem_sortedBy _ _ _ Candle1m.openTime, hfrom.ordered]
    exact List.mem_cons_self
  unfold aggregateKey
  rw [htime, hfrom.eq]
  exact congrArg (fun symbol => Interval.mk symbol job.timeframe job.openTime) (hsymbols first hfirst)

theorem stored_finishJob_self (haligned : Aligned job.toInterval) {candles : List Candle1m}
    (hsymbols : ∀ candle ∈ candles, candle.symbol = job.symbol) :
    stored (finishJob tables job (result job candles)) job.toInterval = result job candles := by
  unfold stored finishJob storeResult
  rcases hresult : result job candles with _ | aggregate
  · refine lookup_eq_none.mpr fun row hrow => ?_
    exact of_decide_eq_true (List.mem_filter.mp hrow).2
  · rw [← aggregateKey_result haligned hsymbols hresult]
    exact lookup_upsertRow_self _ _

theorem stored_finishJob_of_ne (haligned : Aligned job.toInterval) {candles : List Candle1m}
    (hsymbols : ∀ candle ∈ candles, candle.symbol = job.symbol) {interval : Interval}
    (hne : job.toInterval ≠ interval) :
    stored (finishJob tables job (result job candles)) interval = stored tables interval := by
  unfold stored finishJob storeResult
  rcases hresult : result job candles with _ | aggregate
  · exact lookup_filter_of_ne fun row hrow => by
      rw [hrow]
      exact decide_eq_true hne.symm
  · refine lookup_upsertRow_of_ne ?_
    rw [aggregateKey_result haligned hsymbols hresult]
    exact hne

end FinishStep

section Views
variable {old new : MarketTables} {interval : Interval}

theorem current_congr (h : new.candles = old.candles) : current new interval = current old interval := by
  unfold current loadSourceCandles
  rw [h]

theorem stored_congr (h : new.aggregates = old.aggregates) :
    stored new interval = stored old interval := by
  unfold stored
  rw [h]

/-- Candles outside the interval do not change what is loaded for it. -/
theorem filter_foldl_upsert {candles : List Candle1m}
    (h : ∀ candle ∈ candles, holds interval candle = false) (rows : List Candle1m) :
    (candles.foldl (upsertRow candleKey) rows).filter (holds interval) =
      rows.filter (holds interval) := by
  induction candles generalizing rows with
  | nil => rfl
  | cons candle candles ih =>
    rw [List.foldl_cons, ih fun other hother => h other (List.mem_cons_of_mem _ hother)]
    apply filter_upsertRow_of_not
    intro row hkey
    have hout := h candle List.mem_cons_self
    obtain ⟨hsymbol, htime⟩ := Prod.mk.inj hkey
    unfold holds at hout ⊢
    rw [hsymbol, htime]
    exact hout

theorem Written.current {candles : List Candle1m} {completedOnly : Bool}
    (h : Written old new candles completedOnly)
    (hout : ∀ candle ∈ candles, holds interval candle = false) :
    Aggregation.current new interval = Aggregation.current old interval := by
  unfold Aggregation.current loadSourceCandles
  rw [h.candles, filter_foldl_upsert hout]

end Views

section Soundness

/-- What every run keeps about the job rows and the claims. -/
structure Sound (world : World) : Prop where
  keyed : Keyed (slots world.tables) world.tables.nextJobId
  held : ∀ worker, ∀ job ∈ (world.workers worker).held, Held world.tables world.claims job
  loaded : ∀ worker job candles stamp queue,
    world.workers worker = .loaded job candles stamp queue →
      (∀ candle ∈ candles, candle.symbol = job.symbol) ∧ stamp < world.loads

variable {world next : World} {action : Action}

theorem sound_initial : Sound {} := by
  constructor
  · constructor
    · exact List.nodup_nil
    · exact List.nodup_nil
    · intro slot hslot
      cases hslot
    · intro slot hslot
      cases hslot
  · intro worker job hjob
    cases hjob
  · intro worker job candles stamp queue hloaded
    cases hloaded

theorem Sound.moved (h : Sound world) (hmoved : Moved world action next) : Sound next := by
  cases hmoved with
  | release worker queue phase tables haction hqueue hphase hjobs hsame =>
    refine ⟨hjobs.keyed h.keyed, ?_, ?_⟩
    · intro other job hjob
      simp only [World.goto, Function.update_apply] at hjob
      split at hjob
      · refine (h.held worker job (hqueue.subset ?_)).requeued hjobs
        rcases hphase with rfl | rfl
        · cases hjob
        · exact hjob
      · exact (h.held other job hjob).requeued hjobs
    · intro other job candles stamp rest hloaded
      simp only [World.goto, Function.update_apply] at hloaded
      split at hloaded
      · rcases hphase with rfl | rfl
        · cases hloaded
        · cases hloaded
      · exact h.loaded other job candles stamp rest hloaded
  | @seed worker symbols batchSize now =>
    obtain ⟨added, hseeded⟩ := seedNextBatch_seeded world.tables batchSize now symbols
    refine ⟨hseeded.jobs.keyed h.keyed, ?_, h.loaded⟩
    intro other job hjob
    exact (h.held other job hjob).requeued hseeded.jobs
  | @claim worker claimedAt limit locked hidle hdistinct =>
    have hkeyed : Keyed (slots (claimJobs world.tables claimedAt limit locked).2)
        world.tables.nextJobId := by
      rw [slots_claimJobs]
      exact h.keyed
    refine ⟨hkeyed, ?_, ?_⟩
    · intro other job hjob
      simp only [World.goto, Function.update_apply] at hjob
      split at hjob
      · exact claimed_held h.keyed hjob
      · obtain ⟨hfresh, haligned, hsame, hclaimed⟩ := h.held other job hjob
        refine ⟨hfresh, haligned, ?_, List.mem_append_left _ hclaimed⟩
        simp only [slots_claimJobs]
        exact hsame
    · intro other job candles stamp queue hloaded
      simp only [World.goto, Function.update_apply] at hloaded
      split at hloaded
      · cases hloaded
      · exact h.loaded other job candles stamp queue hloaded
  | @load worker job queue hrunning =>
    refine ⟨h.keyed, ?_, ?_⟩
    · intro other job' hjob
      simp only [World.goto, Function.update_apply] at hjob
      split at hjob
      · refine h.held worker job' ?_
        rw [hrunning]
        exact hjob
      · exact h.held other job' hjob
    · intro other job' candles stamp rest hloaded
      simp only [World.goto, Function.update_apply] at hloaded
      split at hloaded
      · cases hloaded
        refine ⟨fun candle hcandle => ?_, Nat.lt_succ_self _⟩
        have hholds := (List.mem_filter.mp (mem_sortedBy.mp hcandle)).2
        exact (of_decide_eq_true hholds).1
      · obtain ⟨hsymbols, hstamp⟩ := h.loaded other job' candles stamp rest hloaded
        exact ⟨hsymbols, Nat.lt_succ_of_lt hstamp⟩
  | @finish worker job candles stamp queue hloaded =>
    refine ⟨h.keyed.sublist slots_finishJob_sublist, ?_, ?_⟩
    · intro other job' hjob
      have hheld : job' ∈ (world.workers other).held := by
        simp only [World.goto, Function.update_apply] at hjob
        split at hjob
        · rename_i heq
          rw [heq, hloaded]
          exact List.mem_cons_of_mem job hjob
        · exact hjob
      exact (h.held other job' hheld).sublist slots_finishJob_sublist rfl
    · intro other job' candles' stamp' rest hloaded'
      simp only [World.goto, Function.update_apply] at hloaded'
      split at hloaded'
      · cases hloaded'
      · exact h.loaded other job' candles' stamp' rest hloaded'
  | write tables hwritten =>
    refine ⟨hwritten.jobs.keyed h.keyed, ?_, h.loaded⟩
    intro worker job hjob
    exact (h.held worker job hjob).requeued hwritten.jobs

end Soundness

end StructurePulse.Aggregation
