import StructurePulse.Aggregation.Drain
import StructurePulse.Aggregation.Exactness
import StructurePulse.Library.Selections

/-!
# Reconciling aggregates with the exchange

The service compares the newest aggregate of each timeframe with the exchange's own candle
and writes the exchange's minutes over its own when they differ. When nothing else writes,
four rounds of it, each followed by the aggregation worker, leave nothing to repair.
-/

namespace StructurePulse.Aggregation
open Library SMC MarketData
set_option autoImplicit false

section Service

/-- `BYBIT_INTERVALS`. -/
def bybitInterval : Timeframe → String
  | .m5 => "5"
  | .m15 => "15"
  | .h1 => "60"
  | .h4 => "240"

/-- The two calls of the provider; an error is an exception. -/
structure KlineProvider where
  getKlines : Symbol → String → Int → Int → Nat → Except Unit (List Candle1m)
  getClosed1mKlines : Symbol → Int → Int → Nat → Except Unit (List Candle1m)

/-- Newest first, then by symbol. -/
def sampleOrder (row : AggregatedCandle) : Int ×ₗ String := toLex (-row.openTime, row.symbol)

/-- `DISTINCT ON (timeframe)`: the first row of each timeframe, timeframes in the order of
their texts. -/
def listReconciliationSamples (tables : MarketTables) (symbols : List Symbol) (limit : Nat) :
    List AggregatedCandle :=
  ((sortedBy timeframeText timeframes).filterMap fun timeframe =>
    (sortedBy sampleOrder (tables.aggregates.filter fun row =>
      decide (row.symbol ∈ symbols ∧ row.timeframe = timeframe))).head?).take limit

/-- `_matches`. -/
def agrees (sample : AggregatedCandle) (exchange : Candle1m) : Bool :=
  sample.openPrice = exchange.openPrice ∧ sample.highPrice = exchange.highPrice ∧
    sample.lowPrice = exchange.lowPrice ∧ sample.closePrice = exchange.closePrice ∧
    sample.volume = exchange.volume ∧ sample.turnover = exchange.turnover

inductive ReconciliationOutcome where
  | matched
  | repaired
  | failed
  deriving Repr, DecidableEq

/-- What the provider says about a sample: nothing when it agrees, else the minutes to write. -/
def examine (provider : KlineProvider) (sample : AggregatedCandle) :
    Except Unit (Option (List Candle1m)) := do
  let exchange ← provider.getKlines sample.symbol (bybitInterval sample.timeframe) sample.openTime
    sample.openTime 1
  if exchange.head?.any (agrees sample) then return none
  let repaired ← provider.getClosed1mKlines sample.symbol sample.openTime
    (intervalEnd sample.openTime sample.timeframe - oneMinute) (timeframeMinutes sample.timeframe)
  return some repaired

def reconcileSample (provider : KlineProvider) (tables : MarketTables) (now : Int)
    (sample : AggregatedCandle) : Except Unit (ReconciliationOutcome × MarketTables) := do
  match ← examine provider sample with
  | none => return (.matched, tables)
  | some candles => return (.repaired, ← repairCandles tables candles now)

/-- A sample that raises changes nothing. -/
def reconcileNext (provider : KlineProvider) (now : Int)
    (done : List ReconciliationOutcome × MarketTables) (sample : AggregatedCandle) :
    List ReconciliationOutcome × MarketTables :=
  match reconcileSample provider done.2 now sample with
  | .ok (outcome, tables) => (done.1 ++ [outcome], tables)
  | .error _ => (done.1 ++ [.failed], done.2)

/-- The outcomes, which `results` counts, and the tables. -/
def reconcileOnce (provider : KlineProvider) (tables : MarketTables) (symbols : List Symbol)
    (limit : Nat) (now : Int) : List ReconciliationOutcome × MarketTables :=
  (listReconciliationSamples tables symbols limit).foldl (reconcileNext provider now) ([], tables)

end Service

section Actions
variable {provider : KlineProvider} {now : Int}

/-- The transactions of one reconciliation. -/
def repairs (provider : KlineProvider) (now : Int) (samples : List AggregatedCandle) : List Action :=
  samples.filterMap fun sample =>
    match examine provider sample with
    | .ok (some candles) => some (.repair candles now)
    | _ => none

def reconcileActions (provider : KlineProvider) (symbols : List Symbol) (limit : Nat) (now : Int)
    (world : World) : List Action :=
  repairs provider now (listReconciliationSamples world.tables symbols limit)

theorem tables_repairs (samples : List AggregatedCandle) (world : World)
    (outcomes : List ReconciliationOutcome) :
    (runAll step world (repairs provider now samples)).tables =
      (samples.foldl (reconcileNext provider now) (outcomes, world.tables)).2 := by
  induction samples generalizing world outcomes with
  | nil => rfl
  | cons sample samples ih =>
    unfold repairs
    rw [List.foldl_cons]
    rcases hexamine : examine provider sample with error | answer
    · have hnext : reconcileNext provider now (outcomes, world.tables) sample =
          (outcomes ++ [.failed], world.tables) := by
        simp only [reconcileNext, reconcileSample, hexamine]
        rfl
      rw [List.filterMap_cons_none (by rw [hexamine]), hnext]
      exact ih world _
    · cases answer with
      | none =>
        have hnext : reconcileNext provider now (outcomes, world.tables) sample =
            (outcomes ++ [.matched], world.tables) := by
          simp only [reconcileNext, reconcileSample, hexamine]
          rfl
        rw [List.filterMap_cons_none (by rw [hexamine]), hnext]
        exact ih world _
      | some candles =>
        have hfirst : (sample :: samples).filterMap (fun sample =>
            match examine provider sample with
            | .ok (some candles) => some (Action.repair candles now)
            | _ => none) = .repair candles now :: repairs provider now samples := by
          apply List.filterMap_cons_some
          rw [hexamine]
        rw [hfirst]
        change (runAll step (transact step world (.repair candles now)) _).tables = _
        have hnext : ∃ outcome, reconcileNext provider now (outcomes, world.tables) sample =
            (outcomes ++ [outcome], (transact step world (.repair candles now)).tables) := by
          rcases hrepair : repairCandles world.tables candles now with error | tables
          · refine ⟨.failed, ?_⟩
            simp only [reconcileNext, reconcileSample, hexamine, transact, step, ok_bind, hrepair]
            rfl
          · refine ⟨.repaired, ?_⟩
            simp only [reconcileNext, reconcileSample, hexamine, transact, step, ok_bind, hrepair]
            rfl
        obtain ⟨outcome, hnext⟩ := hnext
        rw [hnext]
        exact ih _ _

/-- The transactions leave the tables as `reconcile_once` does. -/
theorem tables_reconcileActions (symbols : List Symbol) (limit : Nat) (world : World) :
    (runAll step world (reconcileActions provider symbols limit now world)).tables =
      (reconcileOnce provider world.tables symbols limit now).2 :=
  tables_repairs _ world []

end Actions

section Exchange
variable {exchange : Symbol → Int → Candle1m} {tables : MarketTables} {interval : Interval}

/-- The exchange's minutes of an interval. -/
def exchangeMinutes (exchange : Symbol → Int → Candle1m) (interval : Interval) : List Candle1m :=
  (minutesOf interval.openTime (timeframeMinutes interval.timeframe)).map (exchange interval.symbol)

/-- What the exchange's minutes aggregate to. -/
def exchangeAggregate (exchange : Symbol → Int → Candle1m) (interval : Interval) :
    Option AggregatedCandle :=
  aggregateCandles (exchangeMinutes exchange interval) interval.timeframe (some interval.openTime)

/-- The provider answers with the exchange's candles, and those of a timeframe are made of
its minutes. -/
structure Serves (provider : KlineProvider) (exchange : Symbol → Int → Candle1m) : Prop where
  keyed : ∀ symbol time, candleKey (exchange symbol time) = (symbol, time)
  klines : ∀ interval, Aligned interval → ∃ kline,
    provider.getKlines interval.symbol (bybitInterval interval.timeframe) interval.openTime
      interval.openTime 1 = .ok [kline] ∧
    ∀ aggregate, exchangeAggregate exchange interval = some aggregate → agrees aggregate kline = true
  minutes : ∀ interval, Aligned interval →
    provider.getClosed1mKlines interval.symbol interval.openTime
      (intervalEnd interval.openTime interval.timeframe - oneMinute)
      (timeframeMinutes interval.timeframe) = .ok (exchangeMinutes exchange interval)

/-- The stored minutes of the interval are the exchange's. -/
def Faithful (exchange : Symbol → Int → Candle1m) (tables : MarketTables) (interval : Interval) :
    Prop :=
  ∀ time ∈ minutesOf interval.openTime (timeframeMinutes interval.timeframe),
    lookup candleKey tables.candles (interval.symbol, time) = some (exchange interval.symbol time)

instance (exchange : Symbol → Int → Candle1m) (tables : MarketTables) (interval : Interval) :
    Decidable (Faithful exchange tables interval) := by
  unfold Faithful
  infer_instance

theorem Aligned.dvd (h : Aligned interval) : oneMinute ∣ interval.openTime := by
  rw [← h]
  unfold intervalStart
  exact Dvd.intro_left _ rfl

theorem Aligned.intervalEnd_eq (h : Aligned interval) :
    intervalEnd interval.openTime interval.timeframe =
      interval.openTime + intervalLength interval.timeframe := by
  unfold intervalEnd
  rw [h]

/-- The candles on minutes that an interval holds open at its minutes. -/
theorem holds_iff (h : Aligned interval) {candle : Candle1m} (hminute : oneMinute ∣ candle.openTime) :
    holds interval candle = true ↔ candle.symbol = interval.symbol ∧
      candle.openTime ∈ minutesOf interval.openTime (timeframeMinutes interval.timeframe) := by
  obtain ⟨first, hfirst⟩ := h.dvd
  obtain ⟨this, hthis⟩ := hminute
  unfold holds
  rw [decide_eq_true_eq, h.intervalEnd_eq, mem_minutesOf]
  refine and_congr_right fun _ => ?_
  unfold intervalLength minutes
  constructor
  · rintro ⟨hle, hlt⟩
    refine ⟨(this - first).toNat, ?_, ?_⟩
    · unfold oneMinute at *
      omega
    · unfold oneMinute at *
      omega
  · rintro ⟨index, hindex, htime⟩
    unfold oneMinute at *
    constructor
    · omega
    · omega

/-- The unique keys of the candles and the aggregates. -/
structure Tidy (tables : MarketTables) : Prop where
  candleKeys : (tables.candles.map candleKey).Nodup
  aggregateKeys : (tables.aggregates.map aggregateKey).Nodup
  aligned : ∀ row ∈ tables.aggregates, Aligned (aggregateKey row)

theorem Tidy.congr {old new : MarketTables} (h : Tidy old) (hcandles : new.candles = old.candles)
    (haggregates : new.aggregates = old.aggregates) : Tidy new := by
  constructor
  · rw [hcandles]
    exact h.candleKeys
  · rw [haggregates]
    exact h.aggregateKeys
  · rw [haggregates]
    exact h.aligned

theorem nodup_keys_foldl_upsertRow {rows candles : List Candle1m}
    (h : (rows.map candleKey).Nodup) :
    ((candles.foldl (upsertRow candleKey) rows).map candleKey).Nodup := by
  induction candles generalizing rows with
  | nil => exact h
  | cons candle candles ih => exact ih (nodup_keys_upsertRow h)

theorem Tidy.finish {job : AggregationJob} {candles : List Candle1m} (h : Tidy tables)
    (haligned : Aligned job.toInterval) (hsymbols : ∀ candle ∈ candles, candle.symbol = job.symbol) :
    Tidy (finishJob tables job (result job candles)) := by
  have hkey : ∀ aggregate, result job candles = some aggregate →
      aggregateKey aggregate = job.toInterval := fun _ => aggregateKey_result haligned hsymbols
  constructor
  · exact h.candleKeys
  · unfold finishJob storeResult
    cases result job candles with
    | none => exact h.aggregateKeys.sublist (List.filter_sublist.map _)
    | some aggregate => exact nodup_keys_upsertRow h.aggregateKeys
  · unfold finishJob storeResult
    rcases hresult : result job candles with _ | aggregate
    · intro row hrow
      exact h.aligned row (List.mem_of_mem_filter hrow)
    · intro row hrow
      rcases mem_upsertRow hrow with rfl | ⟨hold, -⟩
      · rw [hkey _ hresult]
        exact haligned
      · exact h.aligned row hold

theorem Tidy.moved {world next : World} {action : Action} (h : Tidy world.tables)
    (hsound : Sound world) (hmoved : Moved world action next) : Tidy next.tables := by
  cases hmoved with
  | release worker queue phase tables haction hqueue hphase hjobs hsame =>
    rw [hsame]
    exact h.congr rfl rfl
  | @seed worker symbols batchSize now =>
    obtain ⟨added, hseeded⟩ := seedNextBatch_seeded world.tables batchSize now symbols
    exact h.congr hseeded.candles hseeded.aggregates
  | claim hidle hdistinct => exact h.congr rfl rfl
  | load hrunning => exact h.congr rfl rfl
  | @finish worker job candles stamp queue hloaded =>
    have hheld := hsound.loaded_held hloaded
    exact h.finish hheld.aligned (hsound.loaded worker job candles stamp queue hloaded).1
  | write tables hwritten =>
    constructor
    · change (tables.candles.map candleKey).Nodup
      rw [hwritten.candles]
      exact nodup_keys_foldl_upsertRow h.candleKeys
    · change (tables.aggregates.map aggregateKey).Nodup
      rw [hwritten.aggregates]
      exact h.aggregateKeys
    · change ∀ row ∈ tables.aggregates, _
      rw [hwritten.aggregates]
      exact h.aligned

/-- Every run keeps the keys unique. -/
theorem tidy_runAll {world : World} (hsound : Sound world) (h : Tidy world.tables)
    (actions : List Action) : Tidy (runAll step world actions).tables := by
  have hboth : Sound (runAll step world actions) ∧ Tidy (runAll step world actions).tables := by
    refine runAll_invariant (P := fun world => Sound world ∧ Tidy world.tables) ?_ ⟨hsound, h⟩ actions
    rintro world action next ⟨hsound, htidy⟩ hstep
    have hmoved := step_moved hstep
    exact ⟨hsound.moved hmoved, htidy.moved hsound hmoved⟩
  exact hboth.2

theorem tidy_initial : Tidy {} :=
  ⟨List.nodup_nil, List.nodup_nil, fun _ hrow => absurd hrow List.not_mem_nil⟩

end Exchange

section Views
variable {exchange : Symbol → Int → Candle1m} {old new tables : MarketTables} {interval : Interval}

theorem mem_candles_iff (h : (tables.candles.map candleKey).Nodup) {candle : Candle1m} :
    candle ∈ tables.candles ↔ lookup candleKey tables.candles (candleKey candle) = some candle :=
  ⟨lookup_of_mem h, lookup_mem⟩

theorem nodup_loadSourceCandles (h : (tables.candles.map candleKey).Nodup) :
    (loadSourceCandles tables interval).Nodup :=
  (sortedBy_perm _).nodup_iff.mpr ((List.Nodup.of_map _ h).filter _)

theorem mem_loadSourceCandles {candle : Candle1m} :
    candle ∈ loadSourceCandles tables interval ↔
      candle ∈ tables.candles ∧ holds interval candle = true :=
  mem_sortedBy.trans List.mem_filter

/-- What an interval aggregates to only depends on the rows it holds. -/
theorem current_of_lookups (hold : (old.candles.map candleKey).Nodup)
    (hnew : (new.candles.map candleKey).Nodup)
    (h : ∀ candle, holds interval candle = true →
      lookup candleKey new.candles (candleKey candle) =
        lookup candleKey old.candles (candleKey candle)) :
    current new interval = current old interval := by
  unfold current
  apply aggregateCandles_perm
  apply (List.perm_ext_iff_of_nodup (nodup_loadSourceCandles hnew) (nodup_loadSourceCandles hold)).mpr
  intro candle
  rw [mem_loadSourceCandles, mem_loadSourceCandles, mem_candles_iff hnew, mem_candles_iff hold]
  refine and_congr_left fun hholds => ?_
  rw [h candle hholds]

theorem minutesOf_nodup (start : Int) (count : Nat) : (minutesOf start count).Nodup :=
  (minutesOf_increasing start count).imp fun hlt => hlt.ne

/-- An interval whose minutes are the exchange's aggregates to what they do. -/
theorem current_of_faithful (hkeys : (tables.candles.map candleKey).Nodup)
    (hminutes : ∀ candle ∈ tables.candles, oneMinute ∣ candle.openTime)
    (hkeyed : ∀ symbol time, candleKey (exchange symbol time) = (symbol, time))
    (haligned : Aligned interval) (h : Faithful exchange tables interval) :
    current tables interval = exchangeAggregate exchange interval := by
  unfold current exchangeAggregate
  apply aggregateCandles_perm
  have hnodup : (exchangeMinutes exchange interval).Nodup := by
    refine (minutesOf_nodup _ _).map_on fun time _ other _ hsame => ?_
    have hkey := congrArg candleKey hsame
    rw [hkeyed, hkeyed] at hkey
    exact (Prod.mk.inj hkey).2
  apply (List.perm_ext_iff_of_nodup (nodup_loadSourceCandles hkeys) hnodup).mpr
  intro candle
  rw [mem_loadSourceCandles]
  unfold exchangeMinutes
  rw [List.mem_map]
  constructor
  · rintro ⟨hcandle, hholds⟩
    obtain ⟨hsymbol, htime⟩ := (holds_iff haligned (hminutes candle hcandle)).mp hholds
    refine ⟨candle.openTime, htime, ?_⟩
    have hfound := (mem_candles_iff hkeys).mp hcandle
    rw [show candleKey candle = (interval.symbol, candle.openTime) from
      congrArg (fun symbol => (symbol, candle.openTime)) hsymbol, h _ htime] at hfound
    exact Option.some.inj hfound
  · rintro ⟨time, htime, rfl⟩
    have hin := lookup_mem (h time htime)
    refine ⟨hin, (holds_iff haligned (hminutes _ hin)).mpr ?_⟩
    obtain ⟨hsymbol, hopen⟩ := Prod.mk.inj (hkeyed interval.symbol time)
    rw [hsymbol, hopen]
    exact ⟨rfl, htime⟩

/-- An interval has an aggregate exactly when all its minutes are stored. -/
theorem current_isSome_iff (hkeys : (tables.candles.map candleKey).Nodup)
    (hminutes : ∀ candle ∈ tables.candles, oneMinute ∣ candle.openTime) (haligned : Aligned interval) :
    (current tables interval).isSome ↔
      ∀ time ∈ minutesOf interval.openTime (timeframeMinutes interval.timeframe),
        (lookup candleKey tables.candles (interval.symbol, time)).isSome := by
  have hheld : ∀ candle ∈ loadSourceCandles tables interval, candle.symbol = interval.symbol ∧
      candle.openTime ∈ minutesOf interval.openTime (timeframeMinutes interval.timeframe) := by
    intro candle hcandle
    obtain ⟨hin, hholds⟩ := mem_loadSourceCandles.mp hcandle
    exact (holds_iff haligned (hminutes candle hin)).mp hholds
  unfold current
  rw [Option.isSome_iff_exists]
  constructor
  · rintro ⟨aggregate, haggregate⟩ time htime
    obtain ⟨start, hcomplete, hexpected, -⟩ := aggregateCandles_eq_some_iff.mp haggregate
    have hstart : interval.openTime = start := haligned.symm.trans (hexpected _ rfl)
    rw [hstart] at htime
    obtain ⟨candle, hcandle, rfl⟩ := List.mem_map.mp (hcomplete.times.mem_iff.mpr htime)
    have hfound := (mem_candles_iff hkeys).mp (mem_loadSourceCandles.mp hcandle).1
    rw [← (hheld candle hcandle).1]
    exact Option.isSome_iff_exists.mpr ⟨candle, hfound⟩
  · intro hall
    have hcomplete : CompleteInterval (loadSourceCandles tables interval) interval.timeframe
        interval.openTime := by
      constructor
      · exact intervalStart_eq_self_iff.mp haligned
      · intro candle hcandle other hother
        rw [(hheld candle hcandle).1, (hheld other hother).1]
      · refine (List.perm_ext_iff_of_nodup ?_ (minutesOf_nodup _ _)).mpr fun time => ?_
        · refine (nodup_loadSourceCandles hkeys).map_on fun candle hcandle other hother hsame => ?_
          refine List.inj_on_of_nodup_map hkeys (mem_loadSourceCandles.mp hcandle).1
            (mem_loadSourceCandles.mp hother).1 ?_
          unfold candleKey
          rw [(hheld candle hcandle).1, (hheld other hother).1, hsame]
        · constructor
          · intro htime
            obtain ⟨candle, hcandle, rfl⟩ := List.mem_map.mp htime
            exact (hheld candle hcandle).2
          · intro htime
            obtain ⟨candle, hfound⟩ := Option.isSome_iff_exists.mp (hall time htime)
            have hkey : candleKey candle = (interval.symbol, time) := lookup_key hfound
            obtain ⟨hsymbol, hopen⟩ := Prod.mk.inj hkey
            refine List.mem_map.mpr ⟨candle, mem_loadSourceCandles.mpr ⟨lookup_mem hfound, ?_⟩, hopen⟩
            refine (holds_iff haligned (hminutes candle (lookup_mem hfound))).mpr ⟨hsymbol, ?_⟩
            rw [hopen]
            exact htime
    obtain ⟨aggregate, hsummary⟩ := hcomplete.exists_summary
    refine ⟨aggregate, aggregateCandles_eq_some_iff.mpr ⟨_, hcomplete, ?_, hsummary⟩⟩
    intro time htime
    cases htime
    exact haligned

end Views

section Mending
variable {exchange : Symbol → Int → Candle1m} {now : Int} {world : World} {active : List Symbol}

/-- The exchange's minutes of the interval cover the key. -/
def Covers (interval : Interval) (symbol : Symbol) (time : Int) : Prop :=
  interval.symbol = symbol ∧ time ∈ minutesOf interval.openTime (timeframeMinutes interval.timeframe)

instance (interval : Interval) (symbol : Symbol) (time : Int) :
    Decidable (Covers interval symbol time) := by
  unfold Covers
  infer_instance

/-- What writing the exchange's minutes of some intervals does. -/
structure Mended (exchange : Symbol → Int → Candle1m) (now : Int) (intervals : List Interval)
    (old new : World) : Prop where
  workers : new.workers = old.workers
  claims : new.claims = old.claims
  aggregates : new.tables.aggregates = old.tables.aggregates
  cursors : new.tables.cursors = old.tables.cursors
  lookups : ∀ symbol time, lookup candleKey new.tables.candles (symbol, time) =
    if ∃ interval ∈ intervals, Covers interval symbol time then some (exchange symbol time)
    else lookup candleKey old.tables.candles (symbol, time)
  queued : ∀ interval, Queued new.tables interval ↔ Queued old.tables interval ∨
    ∃ mended ∈ intervals, interval ∈ affectedIntervals (exchangeMinutes exchange mended) false
  ready : (∀ row ∈ old.tables.jobs, Ready now row) → ∀ row ∈ new.tables.jobs, Ready now row

theorem lookup_foldl_upsertRow (hkeyed : ∀ symbol time, candleKey (exchange symbol time) = (symbol, time))
    (rows : List Candle1m) (symbol : Symbol) (times : List Int) (key : Symbol × Int) :
    lookup candleKey ((times.map (exchange symbol)).foldl (upsertRow candleKey) rows) key =
      if key.1 = symbol ∧ key.2 ∈ times then some (exchange key.1 key.2)
      else lookup candleKey rows key := by
  induction times generalizing rows with
  | nil =>
    rw [if_neg (fun h => absurd h.2 List.not_mem_nil)]
    rfl
  | cons time times ih =>
    rw [List.map_cons, List.foldl_cons, ih]
    by_cases hlater : key.1 = symbol ∧ key.2 ∈ times
    · rw [if_pos hlater, if_pos ⟨hlater.1, List.mem_cons_of_mem time hlater.2⟩]
    · rw [if_neg hlater]
      by_cases hthis : key = (symbol, time)
      · subst hthis
        rw [if_pos ⟨rfl, List.mem_cons_self⟩]
        conv_lhs => rw [← hkeyed symbol time]
        exact lookup_upsertRow_self _ _
      · rw [lookup_upsertRow_of_ne (by rw [hkeyed]; exact Ne.symm hthis), if_neg]
        rintro ⟨hsymbol, hin⟩
        rcases List.mem_cons.mp hin with htime | hrest
        · exact hthis (Prod.ext hsymbol htime)
        · exact hlater ⟨hsymbol, hrest⟩

theorem Mended.nothing (world : World) : Mended exchange now [] world world := by
  constructor
  · rfl
  · rfl
  · rfl
  · rfl
  · intro symbol time
    rw [if_neg]
    rintro ⟨interval, hinterval, -⟩
    cases hinterval
  · intro interval
    rw [or_iff_left]
    rintro ⟨mended, hmended, -⟩
    cases hmended
  · exact id

theorem repairCandles_exchange
    (hkeyed : ∀ symbol time, candleKey (exchange symbol time) = (symbol, time))
    (tables : MarketTables) (interval : Interval) :
    repairCandles tables (exchangeMinutes exchange interval) now =
      .ok (enqueueAggregationJobs { tables with
        candles := (exchangeMinutes exchange interval).foldl (upsertRow candleKey) tables.candles }
          (exchangeMinutes exchange interval) 10 false now) := by
  have hnonempty : (exchangeMinutes exchange interval).isEmpty = false := by
    rw [List.isEmpty_eq_false_iff, ← List.length_pos_iff]
    unfold exchangeMinutes minutesOf
    rw [List.length_map, List.length_map, List.length_range]
    exact timeframeMinutes_pos interval.timeframe
  have hnodup : ((exchangeMinutes exchange interval).map candleKey).Nodup := by
    unfold exchangeMinutes
    rw [List.map_map]
    refine (minutesOf_nodup _ _).map_on fun time _ other _ hsame => ?_
    rw [Function.comp_apply, Function.comp_apply, hkeyed, hkeyed] at hsame
    exact (Prod.mk.inj hsame).2
  unfold repairCandles writeCandles upsertCandles
  rw [hnonempty, if_pos hnodup]
  rfl

/-- One interval is written. -/
theorem mended_one (hkeyed : ∀ symbol time, candleKey (exchange symbol time) = (symbol, time))
    (interval : Interval) :
    Mended exchange now [interval] world
      (transact step world (.repair (exchangeMinutes exchange interval) now)) := by
  have hrepair : repairCandles world.tables (exchangeMinutes exchange interval) now = _ :=
    repairCandles_exchange hkeyed world.tables interval
  have hwritten := repairCandles_written hrepair
  have hnext : transact step world (.repair (exchangeMinutes exchange interval) now) =
      { world with tables := enqueueAggregationJobs { world.tables with
        candles := (exchangeMinutes exchange interval).foldl (upsertRow candleKey)
          world.tables.candles } (exchangeMinutes exchange interval) 10 false now } := by
    simp only [transact, step, hrepair]
    rfl
  rw [hnext]
  constructor
  · rfl
  · rfl
  · exact hwritten.aggregates
  · exact hwritten.cursors
  · intro symbol time
    change lookup candleKey (enqueueAggregationJobs _ _ 10 false now).candles _ = _
    rw [hwritten.candles]
    unfold exchangeMinutes
    rw [lookup_foldl_upsertRow hkeyed]
    refine if_congr ?_ rfl rfl
    constructor
    · rintro ⟨hsymbol, htime⟩
      exact ⟨interval, List.mem_singleton_self interval, hsymbol.symm, htime⟩
    · rintro ⟨other, hother, hsymbol, htime⟩
      rw [List.mem_singleton.mp hother] at hsymbol htime
      exact ⟨hsymbol.symm, htime⟩
  · intro other
    change Queued (enqueueAggregationJobs _ _ 10 false now) other ↔ _
    rw [hwritten.jobs.queued]
    simp only [List.mem_singleton, exists_eq_left]
  · intro hready
    exact (@foldl_enqueueJob_ready { world.tables with
      candles := (exchangeMinutes exchange interval).foldl (upsertRow candleKey)
        world.tables.candles } now 10 _ hready).1

theorem Mended.trans {old mid new : World} {intervals more : List Interval}
    (h : Mended exchange now intervals old mid) (h' : Mended exchange now more mid new) :
    Mended exchange now (intervals ++ more) old new := by
  constructor
  · exact h'.workers.trans h.workers
  · exact h'.claims.trans h.claims
  · exact h'.aggregates.trans h.aggregates
  · exact h'.cursors.trans h.cursors
  · intro symbol time
    rw [h'.lookups, h.lookups]
    by_cases hmore : ∃ interval ∈ more, Covers interval symbol time
    · obtain ⟨interval, hinterval, hcovers⟩ := hmore
      rw [if_pos ⟨interval, hinterval, hcovers⟩,
        if_pos ⟨interval, List.mem_append_right _ hinterval, hcovers⟩]
    · rw [if_neg hmore]
      refine if_congr ?_ rfl rfl
      constructor
      · rintro ⟨interval, hinterval, hcovers⟩
        exact ⟨interval, List.mem_append_left _ hinterval, hcovers⟩
      · rintro ⟨interval, hinterval, hcovers⟩
        rcases List.mem_append.mp hinterval with hfirst | hlater
        · exact ⟨interval, hfirst, hcovers⟩
        · exact absurd ⟨interval, hlater, hcovers⟩ hmore
  · intro interval
    rw [h'.queued, h.queued, or_assoc]
    refine or_congr_right ?_
    constructor
    · rintro (⟨mended, hmended, hin⟩ | ⟨mended, hmended, hin⟩)
      · exact ⟨mended, List.mem_append_left _ hmended, hin⟩
      · exact ⟨mended, List.mem_append_right _ hmended, hin⟩
    · rintro ⟨mended, hmended, hin⟩
      rcases List.mem_append.mp hmended with hfirst | hlater
      · exact Or.inl ⟨mended, hfirst, hin⟩
      · exact Or.inr ⟨mended, hlater, hin⟩
  · intro hready
    exact h'.ready (h.ready hready)

/-- The intervals are written one after another. -/
theorem mended_all (hkeyed : ∀ symbol time, candleKey (exchange symbol time) = (symbol, time))
    (intervals : List Interval) :
    Mended exchange now intervals world (runAll step world (intervals.map fun interval =>
      .repair (exchangeMinutes exchange interval) now)) := by
  induction intervals generalizing world with
  | nil => exact Mended.nothing world
  | cons interval intervals ih => exact (mended_one hkeyed interval).trans ih

end Mending

section Samples
variable {provider : KlineProvider} {exchange : Symbol → Int → Candle1m}
variable {old new tables : MarketTables} {symbols : List Symbol} {limit : Nat}
variable {sample : AggregatedCandle}

/-- The sample is not found to match. -/
def disagrees (provider : KlineProvider) (sample : AggregatedCandle) : Bool :=
  match examine provider sample with
  | .ok none => false
  | _ => true

/-- The sampled intervals that are not found to match. -/
def disputed (provider : KlineProvider) (tables : MarketTables) (symbols : List Symbol)
    (limit : Nat) : List Interval :=
  ((listReconciliationSamples tables symbols limit).filter (disagrees provider)).map aggregateKey

theorem examine_serves (hserves : Serves provider exchange) (haligned : Aligned (aggregateKey sample)) :
    examine provider sample = .ok none ∨
      examine provider sample = .ok (some (exchangeMinutes exchange (aggregateKey sample))) := by
  obtain ⟨kline, hkline, -⟩ := hserves.klines _ haligned
  have hminutes : provider.getClosed1mKlines sample.symbol sample.openTime
      (intervalEnd sample.openTime sample.timeframe - oneMinute)
      (timeframeMinutes sample.timeframe) = .ok (exchangeMinutes exchange (aggregateKey sample)) :=
    hserves.minutes _ haligned
  unfold aggregateKey at hkline
  unfold examine
  rw [hkline, ok_bind]
  by_cases hagrees : [kline].head?.any (agrees sample) = true
  · rw [if_pos hagrees]
    exact Or.inl rfl
  · rw [if_neg hagrees, hminutes]
    exact Or.inr rfl

theorem agrees_of_exchange (hserves : Serves provider exchange)
    (haligned : Aligned (aggregateKey sample))
    (h : exchangeAggregate exchange (aggregateKey sample) = some sample) :
    disagrees provider sample = false := by
  obtain ⟨kline, hkline, hagrees⟩ := hserves.klines _ haligned
  unfold aggregateKey at hkline
  unfold disagrees examine
  rw [hkline, ok_bind, if_pos (show [kline].head?.any (agrees sample) = true from hagrees sample h)]
  rfl

theorem mem_listReconciliationSamples (h : sample ∈ listReconciliationSamples tables symbols limit) :
    sample ∈ tables.aggregates := by
  obtain ⟨timeframe, -, hhead⟩ := List.mem_filterMap.mp (List.mem_of_mem_take h)
  exact List.mem_of_mem_filter (sortedBy_head hhead).1

theorem length_listReconciliationSamples_le :
    (listReconciliationSamples tables symbols limit).length ≤ 4 := by
  unfold listReconciliationSamples
  rw [List.length_take]
  refine (Nat.min_le_right _ _).trans ((List.length_filterMap_le _ _).trans ?_)
  rw [(@sortedBy_perm _ _ _ timeframeText timeframes).length_eq]
  exact Nat.le_refl 4

/-- The samples are written where they disagree. -/
theorem repairs_eq (hserves : Serves provider exchange) (now : Int) {samples : List AggregatedCandle}
    (haligned : ∀ sample ∈ samples, Aligned (aggregateKey sample)) :
    repairs provider now samples = ((samples.filter (disagrees provider)).map aggregateKey).map
      fun interval => .repair (exchangeMinutes exchange interval) now := by
  induction samples with
  | nil => rfl
  | cons sample samples ih =>
    have hrest := ih fun other hother => haligned other (List.mem_cons_of_mem sample hother)
    unfold repairs at hrest ⊢
    rcases examine_serves hserves (haligned sample List.mem_cons_self) with hnone | hsome
    · have hfalse : disagrees provider sample = false := by
        unfold disagrees
        rw [hnone]
      rw [List.filterMap_cons_none (by rw [hnone]), List.filter_cons_of_neg (by rw [hfalse]; decide)]
      exact hrest
    · have htrue : disagrees provider sample = true := by
        unfold disagrees
        rw [hsome]
      rw [List.filter_cons_of_pos htrue, List.map_cons, List.map_cons, ← hrest]
      apply List.filterMap_cons_some
      rw [hsome]

theorem aggregateKey_eq_of_order {row other : AggregatedCandle} (horder : sampleOrder row = sampleOrder other)
    (htimeframe : row.timeframe = other.timeframe) : aggregateKey row = aggregateKey other := by
  have hpair := Prod.mk.inj (toLex.injective horder)
  unfold aggregateKey
  rw [neg_inj.mp hpair.1, hpair.2, htimeframe]

/-- Which intervals are sampled depends on which aggregates there are. -/
theorem sampled_congr (h : ∀ key, key ∈ old.aggregates.map aggregateKey ↔
    key ∈ new.aggregates.map aggregateKey) :
    (listReconciliationSamples new symbols limit).map aggregateKey =
      (listReconciliationSamples old symbols limit).map aggregateKey := by
  unfold listReconciliationSamples
  rw [List.map_take, List.map_take, List.map_filterMap, List.map_filterMap]
  congr 1
  refine List.filterMap_congr fun timeframe _ => ?_
  have hside : ∀ {first second : MarketTables}, (∀ key, key ∈ first.aggregates.map aggregateKey →
      key ∈ second.aggregates.map aggregateKey) → ∀ order,
      order ∈ (first.aggregates.filter fun row =>
        decide (row.symbol ∈ symbols ∧ row.timeframe = timeframe)).map sampleOrder →
      order ∈ (second.aggregates.filter fun row =>
        decide (row.symbol ∈ symbols ∧ row.timeframe = timeframe)).map sampleOrder := by
    intro first second hkeys order horder
    obtain ⟨row, hrow, rfl⟩ := List.mem_map.mp horder
    obtain ⟨hin, hkeep⟩ := List.mem_filter.mp hrow
    obtain ⟨other, hother, hsame⟩ := List.mem_map.mp (hkeys _ (List.mem_map.mpr ⟨row, hin, rfl⟩))
    obtain ⟨hsymbol, htimeframe, htime⟩ := Interval.mk.inj hsame
    refine List.mem_map.mpr ⟨other, List.mem_filter.mpr ⟨hother, ?_⟩, ?_⟩
    · rw [hsymbol, htimeframe]
      exact hkeep
    · unfold sampleOrder
      rw [htime, hsymbol]
  have hheads := @sortedBy_head_congr _ _ _ sampleOrder
    (new.aggregates.filter fun row => decide (row.symbol ∈ symbols ∧ row.timeframe = timeframe))
    (old.aggregates.filter fun row => decide (row.symbol ∈ symbols ∧ row.timeframe = timeframe))
    fun order => ⟨hside (fun key => (h key).mpr) order, hside (fun key => (h key).mp) order⟩
  have hof : ∀ {tables : MarketTables} {row : AggregatedCandle},
      (sortedBy sampleOrder (tables.aggregates.filter fun row =>
        decide (row.symbol ∈ symbols ∧ row.timeframe = timeframe))).head? = some row →
      row.timeframe = timeframe :=
    fun hrow => (of_decide_eq_true (List.mem_filter.mp (sortedBy_head hrow).1).2).2
  rcases hnew : (sortedBy sampleOrder (new.aggregates.filter fun row =>
      decide (row.symbol ∈ symbols ∧ row.timeframe = timeframe))).head? with _ | row
  · rw [hnew] at hheads
    rw [Option.map_eq_none_iff.mp hheads.symm]
  · rw [hnew] at hheads
    obtain ⟨other, hother, hsame⟩ := Option.map_eq_some_iff.mp hheads.symm
    rw [hother]
    exact congrArg some (aggregateKey_eq_of_order hsame.symm ((hof hnew).trans (hof hother).symm))

end Samples

section Rounds
variable {provider : KlineProvider} {exchange : Symbol → Int → Candle1m} {active : List Symbol}
variable {worker limit sourceBatchSize jobBatchSize : Nat} {world next : World} {interval : Interval}

/-- When one reconciliation writes, and the clocks of the worker's passes after it. -/
structure Round where
  repairedAt : Int
  clocks : List (Int × Int)

/-- A reconciliation and the worker's passes until the next one. -/
def playRound (provider : KlineProvider) (active : List Symbol)
    (worker limit sourceBatchSize jobBatchSize : Nat) (world : World) (round : Round) :
    Except Unit World :=
  .ok (runAll step
    (runAll step world (reconcileActions provider active limit round.repairedAt world))
    (round.clocks.flatMap (workerLoop worker active sourceBatchSize jobBatchSize)))

/-- The worker has the time to drain what the reconciliation enqueued. -/
def HasTime (provider : KlineProvider) (active : List Symbol) (limit : Nat) (world : World)
    (round : Round) : Prop :=
  (∀ claim ∈ world.claims, claim.2 ≤ round.repairedAt) ∧ Forward round.repairedAt round.clocks ∧
    backlog active (runAll step world
      (reconcileActions provider active limit round.repairedAt world)).tables ≤ round.clocks.length

instance (provider : KlineProvider) (active : List Symbol) (limit : Nat) (world : World)
    (round : Round) : Decidable (HasTime provider active limit world round) := by
  unfold HasTime
  infer_instance

/-- Nothing is left to do, and every aggregate is the one of its stored minutes. -/
structure Rested (active : List Symbol) (worker : Nat) (world : World) : Prop where
  idle : ∃ now, Idle worker now world
  tidy : Tidy world.tables
  minutes : ∀ candle ∈ world.tables.candles, oneMinute ∣ candle.openTime
  empty : backlog active world.tables = 0
  current : ∀ interval, Aligned interval →
    stored world.tables interval = current world.tables interval

theorem mem_affectedIntervals_exchange
    (hkeyed : ∀ symbol time, candleKey (exchange symbol time) = (symbol, time))
    (haligned : Aligned interval) {mended : Interval} {time : Int}
    (hcovers : Covers mended interval.symbol time)
    (htime : time ∈ minutesOf interval.openTime (timeframeMinutes interval.timeframe)) :
    interval ∈ affectedIntervals (exchangeMinutes exchange mended) false := by
  obtain ⟨index, hindex, rfl⟩ := mem_minutesOf.mp htime
  obtain ⟨hsymbol, hopen⟩ := Prod.mk.inj (hkeyed mended.symbol (interval.openTime + minutes index))
  have hof : intervalOf (exchange mended.symbol (interval.openTime + minutes index))
      interval.timeframe = interval := by
    unfold intervalOf
    rw [hsymbol, hopen, intervalStart_add interval.timeframe haligned hindex, hcovers.1]
  unfold affectedIntervals
  refine List.mem_dedup.mpr (List.mem_flatMap.mpr ⟨_, List.mem_map.mpr ⟨_, hcovers.2, rfl⟩, ?_⟩)
  refine List.mem_map.mpr ⟨interval.timeframe, List.mem_filter.mpr ⟨?_, rfl⟩, hof⟩
  cases interval.timeframe <;> decide

/-- An interval that a repair does not enqueue keeps what it aggregates to. -/
theorem Mended.current_eq {now : Int} {intervals : List Interval}
    (h : Mended exchange now intervals world next)
    (hkeyed : ∀ symbol time, candleKey (exchange symbol time) = (symbol, time))
    (hold : Tidy world.tables) (hnew : Tidy next.tables)
    (hmended : ∀ mended ∈ intervals, Aligned mended) (haligned : Aligned interval)
    (hout : ∀ mended ∈ intervals, interval ∉ affectedIntervals (exchangeMinutes exchange mended) false) :
    current next.tables interval = current world.tables interval := by
  refine current_of_lookups hold.candleKeys hnew.candleKeys fun candle hholds => ?_
  have hlookup := h.lookups candle.symbol candle.openTime
  refine hlookup.trans (if_neg ?_)
  rintro ⟨mended, hin, hcovers⟩
  have hminute : oneMinute ∣ candle.openTime := by
    obtain ⟨index, -, htime⟩ := mem_minutesOf.mp hcovers.2
    rw [htime]
    exact dvd_add (hmended mended hin).dvd (Dvd.intro_left _ rfl)
  obtain ⟨hsymbol, htime⟩ := (holds_iff haligned hminute).mp hholds
  rw [hsymbol] at hcovers
  exact hout mended hin (mem_affectedIntervals_exchange hkeyed haligned hcovers htime)

theorem sampled_of_disputed {tables : MarketTables}
    (h : interval ∈ disputed provider tables active limit) :
    interval ∈ (listReconciliationSamples tables active limit).map aggregateKey := by
  obtain ⟨sample, hsample, rfl⟩ := List.mem_map.mp h
  exact List.mem_map.mpr ⟨sample, List.mem_of_mem_filter hsample, rfl⟩

theorem Rested.disputed_aligned (h : Rested active worker world) :
    ∀ interval ∈ disputed provider world.tables active limit, Aligned interval := by
  intro interval hdisputed
  obtain ⟨sample, hsample, rfl⟩ := List.mem_map.mp (sampled_of_disputed hdisputed)
  exact h.tidy.aligned sample (mem_listReconciliationSamples hsample)

/-- One round writes the disputed intervals and comes to rest again. -/
theorem Rested.round (h : Rested active worker world) (hserves : Serves provider exchange)
    (hsource : 0 < sourceBatchSize) (hjobBatch : 0 < jobBatchSize) {round : Round}
    (hround : HasTime provider active limit world round)
    (hnext : playRound provider active worker limit sourceBatchSize jobBatchSize world round = .ok next) :
    Rested active worker next ∧ ∀ symbol time,
      lookup candleKey next.tables.candles (symbol, time) =
        if ∃ interval ∈ disputed provider world.tables active limit, Covers interval symbol time then
          some (exchange symbol time)
        else lookup candleKey world.tables.candles (symbol, time) := by
  obtain ⟨hclaims, hclocks, henough⟩ := hround
  obtain ⟨now, hidle⟩ := h.idle
  have haligned : ∀ sample ∈ listReconciliationSamples world.tables active limit,
      Aligned (aggregateKey sample) := fun sample hsample =>
    h.tidy.aligned sample (mem_listReconciliationSamples hsample)
  obtain ⟨mended, hmended⟩ : ∃ mended, mended =
      runAll step world (reconcileActions provider active limit round.repairedAt world) := ⟨_, rfl⟩
  have hwrites : Mended exchange round.repairedAt (disputed provider world.tables active limit)
      world mended := by
    rw [hmended]
    unfold reconcileActions
    rw [repairs_eq hserves round.repairedAt haligned]
    exact mended_all hserves.keyed _
  have htidy : Tidy mended.tables := by
    rw [hmended]
    exact tidy_runAll hidle.sound h.tidy _
  have hwaiting : Idle worker round.repairedAt mended := by
    constructor
    · rw [hmended]
      exact runAll_invariant (fun _ _ _ hsound hstep => hsound.moved (step_moved hstep)) hidle.sound _
    · rw [hwrites.workers]
      exact hidle.running
    · apply hwrites.ready
      rw [jobs_of_backlog h.empty]
      exact fun _ hrow => absurd hrow List.not_mem_nil
    · rw [hwrites.claims]
      exact hclaims
  rw [← hmended] at henough
  have hdrain := @Idle.drained active worker round.repairedAt mended sourceBatchSize jobBatchSize
    hwaiting hsource hjobBatch round.clocks hclocks henough
  unfold playRound at hnext
  rw [← hmended] at hnext
  rw [Except.ok.inj hnext] at hdrain
  obtain ⟨hlater, hempty, hdrained⟩ := hdrain
  have hlookups : ∀ symbol time, lookup candleKey next.tables.candles (symbol, time) =
      if ∃ interval ∈ disputed provider world.tables active limit, Covers interval symbol time then
        some (exchange symbol time)
      else lookup candleKey world.tables.candles (symbol, time) := by
    intro symbol time
    rw [hdrained.candles]
    exact hwrites.lookups symbol time
  have htidyNext : Tidy next.tables := by
    rw [← Except.ok.inj hnext]
    exact tidy_runAll hwaiting.sound htidy _
  refine ⟨⟨hlater, htidyNext, ?_, hempty, ?_⟩, hlookups⟩
  · intro candle hcandle
    have hfound := (mem_candles_iff htidyNext.candleKeys).mp hcandle
    rw [show candleKey candle = (candle.symbol, candle.openTime) from rfl, hlookups] at hfound
    split at hfound
    · rename_i hcovered
      obtain ⟨interval, hinterval, hcovers⟩ := hcovered
      obtain ⟨index, -, htime⟩ := mem_minutesOf.mp hcovers.2
      rw [htime]
      exact dvd_add (h.disputed_aligned interval hinterval).dvd (Dvd.intro_left _ rfl)
    · exact h.minutes candle (lookup_mem hfound)
  · intro interval hinterval
    rw [hdrained.stored_eq hempty, current_congr hdrained.candles]
    split
    · rfl
    · rename_i hfree
      have hout : ∀ other ∈ disputed provider world.tables active limit,
          interval ∉ affectedIntervals (exchangeMinutes exchange other) false :=
        fun other hother hin =>
          hfree (Or.inl ((hwrites.queued interval).mpr (Or.inr ⟨other, hother, hin⟩)))
      rw [hwrites.current_eq hserves.keyed h.tidy htidy h.disputed_aligned hinterval hout,
        stored_congr hwrites.aggregates]
      exact h.current interval hinterval

/-- A round as its states show it. -/
structure Played (provider : KlineProvider) (exchange : Symbol → Int → Candle1m)
    (active : List Symbol) (worker limit : Nat) (world next : World) : Prop where
  before : Rested active worker world
  after : Rested active worker next
  lookups : ∀ symbol time, lookup candleKey next.tables.candles (symbol, time) =
    if ∃ interval ∈ disputed provider world.tables active limit, Covers interval symbol time then
      some (exchange symbol time)
    else lookup candleKey world.tables.candles (symbol, time)

theorem Rested.stored_isSome (h : Rested active worker world) :
    (stored world.tables interval).isSome ↔ interval ∈ world.tables.aggregates.map aggregateKey := by
  unfold stored
  rw [Option.isSome_iff_exists]
  constructor
  · rintro ⟨row, hrow⟩
    exact List.mem_map.mpr ⟨row, lookup_mem hrow, lookup_key hrow⟩
  · intro hkey
    obtain ⟨row, hrow, rfl⟩ := List.mem_map.mp hkey
    exact ⟨row, lookup_of_mem h.tidy.aggregateKeys hrow⟩

/-- The minutes of a sampled interval are all stored. -/
theorem Rested.disputed_stored (h : Rested active worker world)
    (hdisputed : interval ∈ disputed provider world.tables active limit) {symbol : Symbol}
    {time : Int} (hcovers : Covers interval symbol time) :
    (lookup candleKey world.tables.candles (symbol, time)).isSome := by
  have haligned := h.disputed_aligned interval hdisputed
  have hkey : interval ∈ world.tables.aggregates.map aggregateKey := by
    obtain ⟨sample, hsample, rfl⟩ := List.mem_map.mp (sampled_of_disputed hdisputed)
    exact List.mem_map.mpr ⟨sample, mem_listReconciliationSamples hsample, rfl⟩
  have hsome := h.stored_isSome.mpr hkey
  rw [h.current interval haligned] at hsome
  rw [← hcovers.1]
  exact (current_isSome_iff h.tidy.candleKeys h.minutes haligned).mp hsome time hcovers.2

/-- A round neither adds nor removes an aggregate. -/
theorem Played.aggregates_iff (h : Played provider exchange active worker limit world next)
    (key : Interval) : key ∈ world.tables.aggregates.map aggregateKey ↔
      key ∈ next.tables.aggregates.map aggregateKey := by
  have hsame : ∀ symbol time, (lookup candleKey next.tables.candles (symbol, time)).isSome ↔
      (lookup candleKey world.tables.candles (symbol, time)).isSome := by
    intro symbol time
    rw [h.lookups]
    split
    · rename_i hcovered
      obtain ⟨interval, hinterval, hcovers⟩ := hcovered
      exact iff_of_true rfl (h.before.disputed_stored hinterval hcovers)
    · exact Iff.rfl
  rw [← h.before.stored_isSome, ← h.after.stored_isSome]
  by_cases haligned : Aligned key
  · rw [h.before.current key haligned, h.after.current key haligned,
      current_isSome_iff h.before.tidy.candleKeys h.before.minutes haligned,
      current_isSome_iff h.after.tidy.candleKeys h.after.minutes haligned]
    refine forall₂_congr fun time _ => ?_
    exact (hsame _ _).symm
  · have hnone : ∀ {world : World}, Rested active worker world → ¬ (stored world.tables key).isSome := by
      intro world hrested hsome
      obtain ⟨row, hrow, rfl⟩ := List.mem_map.mp (hrested.stored_isSome.mp hsome)
      exact haligned (hrested.tidy.aligned row hrow)
    exact iff_of_false (hnone h.before) (hnone h.after)

theorem Played.faithful (h : Played provider exchange active worker limit world next)
    (hfaithful : Faithful exchange world.tables interval ∨
      interval ∈ disputed provider world.tables active limit) :
    Faithful exchange next.tables interval := by
  intro time htime
  rw [h.lookups]
  split
  · rfl
  · rename_i hfree
    rcases hfaithful with hbefore | hdisputed
    · exact hbefore time htime
    · exact absurd ⟨interval, hdisputed, rfl, htime⟩ hfree

/-- A sample whose minutes are the exchange's is found to match. -/
theorem Rested.not_disputed (h : Rested active worker world) (hserves : Serves provider exchange)
    (hfaithful : Faithful exchange world.tables interval) :
    interval ∉ disputed provider world.tables active limit := by
  intro hdisputed
  obtain ⟨sample, hsample, rfl⟩ := List.mem_map.mp hdisputed
  obtain ⟨hin, hdisagrees⟩ := List.mem_filter.mp hsample
  have hrow := mem_listReconciliationSamples hin
  have haligned := h.tidy.aligned sample hrow
  have hstored : stored world.tables (aggregateKey sample) = some sample :=
    lookup_of_mem h.tidy.aggregateKeys hrow
  rw [h.current _ haligned, current_of_faithful h.tidy.candleKeys h.minutes hserves.keyed haligned
    hfaithful] at hstored
  rw [agrees_of_exchange hserves haligned hstored] at hdisagrees
  cases hdisagrees

/-- The sampled intervals whose minutes are not the exchange's. -/
def unfaithful (exchange : Symbol → Int → Candle1m) (active : List Symbol) (limit : Nat)
    (tables : MarketTables) : Nat :=
  (((listReconciliationSamples tables active limit).map aggregateKey).map fun interval =>
    if Faithful exchange tables interval then 0 else 1).sum

/-- How many rounds can still repair something. -/
def repairsLeft (provider : KlineProvider) (exchange : Symbol → Int → Candle1m)
    (active : List Symbol) (limit : Nat) (tables : MarketTables) : Nat :=
  if disputed provider tables active limit = [] then 0 else unfaithful exchange active limit tables

theorem repairsLeft_le (tables : MarketTables) :
    repairsLeft provider exchange active limit tables ≤ 4 := by
  unfold repairsLeft
  split
  · exact Nat.zero_le 4
  · unfold unfaithful
    refine (sum_map_le_length fun interval => ?_).trans ?_
    · split
      · exact Nat.zero_le 1
      · exact Nat.le_refl 1
    · rw [List.length_map]
      exact length_listReconciliationSamples_le

theorem Played.sampled_eq (h : Played provider exchange active worker limit world next) :
    (listReconciliationSamples next.tables active limit).map aggregateKey =
      (listReconciliationSamples world.tables active limit).map aggregateKey :=
  sampled_congr h.aggregates_iff

theorem Rested.samples_eq (h : Rested active worker world) :
    ((listReconciliationSamples world.tables active limit).map aggregateKey).filterMap
      (stored world.tables) = listReconciliationSamples world.tables active limit := by
  rw [List.filterMap_map]
  have hself : ∀ sample ∈ listReconciliationSamples world.tables active limit,
      (stored world.tables ∘ aggregateKey) sample = some sample := fun sample hsample =>
    lookup_of_mem h.tidy.aggregateKeys (mem_listReconciliationSamples hsample)
  rw [List.filterMap_congr hself, List.filterMap_some]

/-- Without a dispute a round leaves the samples as they are. -/
theorem Played.quiet (h : Played provider exchange active worker limit world next)
    (hquiet : disputed provider world.tables active limit = []) :
    disputed provider next.tables active limit = [] := by
  have hsame : ∀ candle : Candle1m, lookup candleKey next.tables.candles (candleKey candle) =
      lookup candleKey world.tables.candles (candleKey candle) := by
    intro candle
    refine (h.lookups candle.symbol candle.openTime).trans (if_neg ?_)
    rw [hquiet]
    rintro ⟨interval, hinterval, -⟩
    cases hinterval
  have hstored : ∀ key ∈ (listReconciliationSamples world.tables active limit).map aggregateKey,
      stored next.tables key = stored world.tables key := by
    intro key hkey
    obtain ⟨sample, hsample, rfl⟩ := List.mem_map.mp hkey
    have haligned := h.before.tidy.aligned sample (mem_listReconciliationSamples hsample)
    rw [h.after.current _ haligned, h.before.current _ haligned]
    exact current_of_lookups h.before.tidy.candleKeys h.after.tidy.candleKeys
      fun candle _ => hsame candle
  have hsamples : listReconciliationSamples next.tables active limit =
      listReconciliationSamples world.tables active limit := by
    rw [← h.after.samples_eq, h.sampled_eq, List.filterMap_congr hstored, h.before.samples_eq]
  unfold disputed at hquiet ⊢
  rw [hsamples]
  exact hquiet

/-- A round that repairs something leaves fewer samples to repair. -/
theorem Played.repairsLeft_le (h : Played provider exchange active worker limit world next)
    (hserves : Serves provider exchange) :
    repairsLeft provider exchange active limit next.tables ≤
      repairsLeft provider exchange active limit world.tables - 1 := by
  unfold repairsLeft
  by_cases hquiet : disputed provider world.tables active limit = []
  · rw [if_pos (h.quiet hquiet)]
    exact Nat.zero_le _
  · rw [if_neg hquiet]
    obtain ⟨interval, hdisputed⟩ := List.exists_mem_of_ne_nil _ hquiet
    have hbefore : ¬ Faithful exchange world.tables interval :=
      fun hfaithful => h.before.not_disputed hserves hfaithful hdisputed
    have hlower : unfaithful exchange active limit next.tables + 1 ≤
        unfaithful exchange active limit world.tables := by
      unfold unfaithful
      rw [h.sampled_eq]
      apply sum_map_add_le (sampled_of_disputed hdisputed)
      · intro other _
        by_cases hother : Faithful exchange world.tables other
        · rw [if_pos (h.faithful (Or.inl hother))]
          exact Nat.zero_le _
        · rw [if_neg hother]
          split
          · exact Nat.zero_le 1
          · exact Nat.le_refl 1
      · rw [if_pos (h.faithful (Or.inr hdisputed)), if_neg hbefore]
    split
    · exact Nat.zero_le _
    · omega

theorem Rested.quiet_of_repairsLeft (h : Rested active worker world)
    (hserves : Serves provider exchange)
    (hzero : repairsLeft provider exchange active limit world.tables = 0) :
    disputed provider world.tables active limit = [] := by
  apply List.eq_nil_iff_forall_not_mem.mpr
  intro interval hdisputed
  apply h.not_disputed hserves ?_ hdisputed
  unfold repairsLeft at hzero
  rw [if_neg (List.ne_nil_of_mem hdisputed)] at hzero
  by_contra hunfaithful
  have hle : (if Faithful exchange world.tables interval then 0 else 1) ≤
      unfaithful exchange active limit world.tables :=
    List.single_le_sum (fun _ _ => Nat.zero_le _) _
      (List.mem_map.mpr ⟨interval, sampled_of_disputed hdisputed, rfl⟩)
  rw [if_neg hunfaithful, hzero] at hle
  omega

/-- Without a dispute the service finds every sample to match. -/
theorem reconcileOnce_of_quiet {tables : MarketTables} (now : Int)
    (hquiet : disputed provider tables active limit = []) :
    reconcileOnce provider tables active limit now =
      (List.replicate (listReconciliationSamples tables active limit).length .matched, tables) := by
  have hnone : ∀ sample ∈ listReconciliationSamples tables active limit,
      examine provider sample = .ok none := by
    intro sample hsample
    have hfalse := List.filter_eq_nil_iff.mp (List.map_eq_nil_iff.mp hquiet) sample hsample
    unfold disagrees at hfalse
    split at hfalse
    · assumption
    · exact absurd rfl hfalse
  have hfold : ∀ (samples : List AggregatedCandle) outcomes,
      (∀ sample ∈ samples, examine provider sample = .ok none) →
      samples.foldl (reconcileNext provider now) (outcomes, tables) =
        (outcomes ++ List.replicate samples.length .matched, tables) := by
    intro samples
    induction samples with
    | nil =>
      intro outcomes _
      rw [List.length_nil, List.replicate_zero, List.append_nil]
      rfl
    | cons sample samples ih =>
      intro outcomes hall
      have hnext : reconcileNext provider now (outcomes, tables) sample =
          (outcomes ++ [.matched], tables) := by
        simp only [reconcileNext, reconcileSample, hall sample List.mem_cons_self]
        rfl
      rw [List.foldl_cons, hnext, ih _ fun other hother => hall other (List.mem_cons_of_mem _ hother),
        List.append_assoc, List.length_cons, List.replicate_succ]
      rfl
  exact hfold _ [] hnone

end Rounds

section Convergence

/-- Where the provider serves the exchange's candles, the worker has caught up and nothing else
writes, after four rounds of reconciliation every later one finds only matches among its samples
and changes nothing. -/
theorem reconciliation_converges {provider : KlineProvider} {exchange : Symbol → Int → Candle1m}
    (hserves : Serves provider exchange) (active : List Symbol) (worker limit : Nat)
    {sourceBatchSize jobBatchSize : Nat} (hsource : 0 < sourceBatchSize)
    (hjobBatch : 0 < jobBatchSize) (history : List Action)
    (hrunning : (run history).workers worker = .running [])
    (hempty : backlog active (run history).tables = 0)
    (hminutes : ∀ candle ∈ (run history).tables.candles, oneMinute ∣ candle.openTime)
    (hcurrent : ∀ interval, Aligned interval →
      stored (run history).tables interval = current (run history).tables interval)
    (rounds : List Round)
    (hrounds : RunMeets (playRound provider active worker limit sourceBatchSize jobBatchSize)
      (HasTime provider active limit) (run history) rounds)
    (hfour : 4 ≤ rounds.length) (now : Int) :
    let world := runAll (playRound provider active worker limit sourceBatchSize jobBatchSize)
      (run history) rounds
    reconcileOnce provider world.tables active limit now =
      (List.replicate (listReconciliationSamples world.tables active limit).length .matched,
        world.tables) := by
  intro world
  have hrested : Rested active worker (run history) := by
    obtain ⟨now, hclaims⟩ : ∃ now, ∀ claim ∈ (run history).claims, claim.2 ≤ now := by
      induction (run history).claims with
      | nil => exact ⟨0, fun _ hclaim => absurd hclaim List.not_mem_nil⟩
      | cons claim claims ih =>
        obtain ⟨bound, hbound⟩ := ih
        refine ⟨max claim.2 bound, List.forall_mem_cons.mpr ⟨le_max_left _ _, ?_⟩⟩
        exact fun other hother => (hbound other hother).trans (le_max_right _ _)
    refine ⟨⟨now, sound_run history, hrunning, ?_, hclaims⟩,
      tidy_runAll sound_initial tidy_initial history, hminutes, hempty, hcurrent⟩
    rw [jobs_of_backlog hempty]
    exact fun _ hrow => absurd hrow List.not_mem_nil
  have hdone := @foldl_exhausts World Round
    (transact (playRound provider active worker limit sourceBatchSize jobBatchSize))
    (fun world rounds => Rested active worker world ∧
      RunMeets (playRound provider active worker limit sourceBatchSize jobBatchSize)
        (HasTime provider active limit) world rounds)
    (fun world => repairsLeft provider exchange active limit world.tables) ?_ rounds (run history)
    ⟨hrested, hrounds⟩ ((repairsLeft_le _).trans hfour)
  · obtain ⟨⟨hlast, -⟩, hzero⟩ := hdone
    exact reconcileOnce_of_quiet now (hlast.quiet_of_repairsLeft hserves hzero)
  · rintro world round rest ⟨hworld, hround, hrest⟩
    obtain ⟨hnext, hlookups⟩ := hworld.round hserves hsource hjobBatch hround rfl
    exact ⟨⟨hnext, hrest⟩, Played.repairsLeft_le ⟨hworld, hnext, hlookups⟩ hserves⟩

/-- The exchange's candle of a timeframe. -/
def klineOf (aggregate : AggregatedCandle) : Candle1m where
  symbol := aggregate.symbol
  openTime := aggregate.openTime
  openPrice := aggregate.openPrice
  highPrice := aggregate.highPrice
  lowPrice := aggregate.lowPrice
  closePrice := aggregate.closePrice
  volume := aggregate.volume
  turnover := aggregate.turnover

/-- A provider that answers from the exchange's minutes. -/
def exchangeProvider (exchange : Symbol → Int → Candle1m) : KlineProvider where
  getKlines symbol interval start _ _ :=
    match timeframes.find? fun timeframe => bybitInterval timeframe = interval with
    | none => .error ()
    | some timeframe =>
      .ok ((exchangeAggregate exchange ⟨symbol, timeframe, start⟩).toList.map klineOf)
  getClosed1mKlines symbol start stop limit :=
    .ok (((minutesOf start limit).filter fun time => time ≤ stop).map (exchange symbol))

theorem exchangeProvider_serves {exchange : Symbol → Int → Candle1m}
    (hkeyed : ∀ symbol time, candleKey (exchange symbol time) = (symbol, time)) :
    Serves (exchangeProvider exchange) exchange := by
  refine ⟨hkeyed, fun interval haligned => ?_, fun interval haligned => ?_⟩
  · have hcomplete : CompleteInterval (exchangeMinutes exchange interval) interval.timeframe
        interval.openTime := by
      refine ⟨intervalStart_eq_self_iff.mp haligned, ?_, ?_⟩
      · intro candle hcandle other hother
        obtain ⟨time, -, rfl⟩ := List.mem_map.mp hcandle
        obtain ⟨later, -, rfl⟩ := List.mem_map.mp hother
        exact (Prod.mk.inj (hkeyed _ time)).1.trans (Prod.mk.inj (hkeyed _ later)).1.symm
      · unfold exchangeMinutes
        have hopen : Candle1m.openTime ∘ exchange interval.symbol = id :=
          funext fun time => (Prod.mk.inj (hkeyed interval.symbol time)).2
        rw [List.map_map, hopen, List.map_id]
    obtain ⟨aggregate, hsummary⟩ := hcomplete.exists_summary
    have hsome : exchangeAggregate exchange interval = some aggregate := by
      refine aggregateCandles_eq_some_iff.mpr ⟨_, hcomplete, ?_, hsummary⟩
      intro time htime
      cases htime
      exact haligned
    have hfind : (timeframes.find? fun timeframe =>
        bybitInterval timeframe = bybitInterval interval.timeframe) = some interval.timeframe := by
      cases interval.timeframe <;> rfl
    refine ⟨klineOf aggregate, ?_, ?_⟩
    · unfold exchangeProvider
      simp only [hfind, hsome, Option.toList_some, List.map_cons, List.map_nil]
    · intro other hother
      rw [hsome] at hother
      cases hother
      exact decide_eq_true ⟨rfl, rfl, rfl, rfl, rfl, rfl⟩
  · unfold exchangeProvider exchangeMinutes
    simp only
    rw [List.filter_eq_self.mpr]
    intro time htime
    obtain ⟨index, hindex, rfl⟩ := mem_minutesOf.mp htime
    rw [haligned.intervalEnd_eq]
    unfold intervalLength minutes oneMinute
    exact decide_eq_true (by omega)

/-- The exchange has another price in minute 2 than what was received. -/
def exchangeSample (symbol : Symbol) (time : Int) : Candle1m :=
  let price := if time = minutes 2 then 105 else 100
  { symbol := symbol
    openTime := time
    openPrice := price
    highPrice := price
    lowPrice := price
    closePrice := price
    volume := 1
    turnover := price }

def fourRounds : List Round :=
  [100, 200, 300, 400].map fun repairedAt =>
    ⟨repairedAt, (List.range 4).map fun (pass : Nat) =>
      (repairedAt + 2 * (pass : Int), repairedAt + 2 * (pass : Int) + 1)⟩

/-- Five received minutes have their one aggregate. -/
theorem fiveLiveMinutes_current {interval : Interval} (haligned : Aligned interval) :
    stored (run fiveLiveMinutes).tables interval = current (run fiveLiveMinutes).tables interval := by
  have htidy : Tidy (run fiveLiveMinutes).tables := tidy_runAll sound_initial tidy_initial _
  have hcandles : ∀ candle ∈ (run fiveLiveMinutes).tables.candles, candle.symbol = "BTCUSDT" ∧
      0 ≤ candle.openTime ∧ candle.openTime ≤ minutes 4 ∧ oneMinute ∣ candle.openTime := by
    decide +kernel
  have hkeys : (run fiveLiveMinutes).tables.aggregates.map aggregateKey = [⟨"BTCUSDT", .m5, 0⟩] := by
    decide +kernel
  by_cases hthis : interval = ⟨"BTCUSDT", .m5, 0⟩
  · rw [hthis]
    decide +kernel
  · have hstored : stored (run fiveLiveMinutes).tables interval = none := by
      apply lookup_eq_none.mpr
      intro row hrow hkey
      have hin := List.mem_map.mpr ⟨row, hrow, hkey⟩
      rw [hkeys] at hin
      exact hthis (List.mem_singleton.mp hin)
    have hcurrent : ¬ (current (run fiveLiveMinutes).tables interval).isSome := by
      rw [current_isSome_iff htidy.candleKeys (fun candle hcandle => (hcandles candle hcandle).2.2.2)
        haligned]
      intro hall
      have hminute : ∀ index < timeframeMinutes interval.timeframe, interval.symbol = "BTCUSDT" ∧
          0 ≤ interval.openTime + minutes index ∧ interval.openTime + minutes index ≤ minutes 4 := by
        intro index hindex
        obtain ⟨candle, hcandle⟩ :=
          Option.isSome_iff_exists.mp (hall _ (mem_minutesOf.mpr ⟨index, hindex, rfl⟩))
        have hkey : candleKey candle = (interval.symbol, interval.openTime + minutes index) :=
          lookup_key hcandle
        obtain ⟨hsymbol, htime⟩ := Prod.mk.inj hkey
        obtain ⟨hof, hlow, hhigh, -⟩ := hcandles candle (lookup_mem hcandle)
        rw [hsymbol] at hof
        rw [htime] at hlow hhigh
        exact ⟨hof, hlow, hhigh⟩
      obtain ⟨symbol, timeframe, openTime⟩ := interval
      cases timeframe with
      | m5 =>
        obtain ⟨hsymbol, hfirst, -⟩ := hminute 0 (show 0 < 5 by decide)
        obtain ⟨-, -, hlast⟩ := hminute 4 (show 4 < 5 by decide)
        have htime : openTime = 0 := by
          unfold minutes oneMinute at hfirst hlast
          simp only at hfirst hlast
          omega
        exact hthis (by rw [htime, show symbol = "BTCUSDT" from hsymbol])
      | m15 =>
        have hfirst := (hminute 0 (show 0 < 15 by decide)).2.1
        have hsixth := (hminute 5 (show 5 < 15 by decide)).2.2
        unfold minutes oneMinute at hfirst hsixth
        omega
      | h1 =>
        have hfirst := (hminute 0 (show 0 < 60 by decide)).2.1
        have hsixth := (hminute 5 (show 5 < 60 by decide)).2.2
        unfold minutes oneMinute at hfirst hsixth
        omega
      | h4 =>
        have hfirst := (hminute 0 (show 0 < 240 by decide)).2.1
        have hsixth := (hminute 5 (show 5 < 240 by decide)).2.2
        unfold minutes oneMinute at hfirst hsixth
        omega
    rw [hstored, Option.not_isSome_iff_eq_none.mp hcurrent]

theorem reconciliation_converges_sample :
    let world := runAll (playRound (exchangeProvider exchangeSample) ["BTCUSDT"] 0 4 10 10)
      (run fiveLiveMinutes) fourRounds
    reconcileOnce (exchangeProvider exchangeSample) world.tables ["BTCUSDT"] 4 500 =
      (List.replicate (listReconciliationSamples world.tables ["BTCUSDT"] 4).length .matched,
        world.tables) :=
  reconciliation_converges (exchangeProvider_serves fun _ _ => rfl) ["BTCUSDT"] 0 4
    (show 0 < 10 by decide) (show 0 < 10 by decide) fiveLiveMinutes (by decide +kernel)
    (by decide +kernel) (by decide +kernel) (fun _ => fiveLiveMinutes_current) fourRounds
    (by decide +kernel) (by decide) 500

end Convergence

end StructurePulse.Aggregation
