import StructurePulse.Replay.Series

/-!
# Replay sees no future and no input order

Everything the loop reads at a clock is cut at that clock, so cutting the rows at a later
instant changes nothing. The events up to an instant are the first events of the whole
run, and the candidates of the others are dated later.
-/

namespace StructurePulse.Replay
open Library SMC Strategy Aggregation
set_option autoImplicit false

section Data
variable (ordered : List ReplayMarketRow)

def ownCandles (symbol : Symbol) : List Candle1m :=
  (ordered.map (·.candle)).filter fun candle => decide (candle.symbol = symbol)

def rowSymbols : List Symbol := sortedBy id ((ordered.map (·.candle)).map Candle1m.symbol).dedup

def aggregatesFor (symbol : Symbol) : SymbolAggregates where
  symbol := symbol
  m5 := seriesOf (ownCandles ordered symbol) .m5
  m15 := seriesOf (ownCandles ordered symbol) .m15
  h1 := seriesOf (ownCandles ordered symbol) .h1
  h4 := seriesOf (ownCandles ordered symbol) .h4

/-- The data of a run over sorted rows. -/
def dataOf : ReplayData where
  aggregates := (rowSymbols ordered).map (aggregatesFor ordered)
  rows := ordered

theorem series_aggregatesFor (symbol : Symbol) (timeframe : Timeframe) :
    (aggregatesFor ordered symbol).series timeframe =
      seriesOf (ownCandles ordered symbol) timeframe := by
  cases timeframe <;> rfl

theorem mem_rowSymbols {symbol : Symbol} :
    symbol ∈ rowSymbols ordered ↔ ∃ row ∈ ordered, row.candle.symbol = symbol := by
  unfold rowSymbols
  rw [mem_sortedBy, List.mem_dedup, List.map_map, List.mem_map]
  rfl

variable {ordered}

theorem buildReplayAggregates_eq (hformed : ∀ row ∈ ordered, Formed row.candle) :
    buildReplayAggregates (ordered.map (·.candle)) = .ok (dataOf ordered).aggregates := by
  refine mapM_eq_map fun symbol _ => ?_
  have hown : ∀ candle ∈ ownCandles ordered symbol, Formed candle := by
    intro candle hcandle
    obtain ⟨row, hrow, rfl⟩ := List.mem_map.mp (List.mem_filter.mp hcandle).1
    exact hformed row hrow
  have hseries : ∀ timeframe, aggregateTimeframe ((ordered.map (·.candle)).filter fun candle =>
      decide (candle.symbol = symbol)) timeframe =
        .ok (seriesOf (ownCandles ordered symbol) timeframe) :=
    fun _ => aggregateTimeframe_eq hown
  unfold symbolAggregates
  simp only [hseries]
  rfl

theorem ownCandles_nil {symbol : Symbol} (h : symbol ∉ rowSymbols ordered) :
    ownCandles ordered symbol = [] := by
  refine List.filter_eq_nil_iff.mpr fun candle hcandle hsymbol => h ?_
  obtain ⟨row, hrow, rfl⟩ := List.mem_map.mp hcandle
  exact (mem_rowSymbols ordered).mpr ⟨row, hrow, of_decide_eq_true hsymbol⟩

theorem seriesOf_nil (timeframe : Timeframe) : seriesOf [] timeframe = [] := rfl

theorem aggregatesOf_dataOf (symbol : Symbol) :
    (dataOf ordered).aggregatesOf symbol =
      if symbol ∈ rowSymbols ordered then some (aggregatesFor ordered symbol) else none := by
  unfold ReplayData.aggregatesOf dataOf
  simp only
  generalize rowSymbols ordered = symbols
  induction symbols with
  | nil => rfl
  | cons first symbols ih =>
    rw [List.map_cons, List.find?_cons]
    by_cases hfirst : first = symbol
    · rw [decide_eq_true (show (aggregatesFor ordered first).symbol = symbol from hfirst),
        if_pos (List.mem_cons.mpr (Or.inl hfirst.symm)), hfirst]
    · have hmem : symbol ∈ first :: symbols ↔ symbol ∈ symbols := by
        rw [List.mem_cons, or_iff_right (Ne.symm hfirst)]
      rw [decide_eq_false (show (aggregatesFor ordered first).symbol ≠ symbol from hfirst)]
      simp only [hmem]
      exact ih

end Data

section Visible
variable {α : Type*} {key : α → Int}

/-- Up to a clock, `bisect_right` finds the elements that are not later. -/
theorem take_bisectRight {l : List α} (h : l.Pairwise fun x y => key x < key y) (clock : Int) :
    l.take (bisectRight (l.map key) clock) = l.filter fun x => decide (key x ≤ clock) := by
  have hsorted : l.Pairwise fun x y => decide (key y ≤ clock) = true → decide (key x ≤ clock) = true :=
    h.imp fun hxy hy => decide_eq_true (hxy.le.trans (of_decide_eq_true hy))
  have hwhile : bisectRight (l.map key) clock =
      (l.takeWhile fun x => decide (key x ≤ clock)).length := by
    unfold bisectRight
    rw [List.takeWhile_map, List.length_map]
    rfl
  rw [hwhile, ← takeWhile_eq_filter hsorted]
  exact (List.prefix_iff_eq_take.mp (List.takeWhile_prefix _)).symm

theorem bisectRight_eq_length {l : List α} (h : l.Pairwise fun x y => key x < key y) (clock : Int) :
    bisectRight (l.map key) clock = (l.filter fun x => decide (key x ≤ clock)).length := by
  have htake := congrArg List.length (take_bisectRight h clock)
  have hle : bisectRight (l.map key) clock ≤ l.length := by
    unfold bisectRight
    refine (List.takeWhile_prefix _).length_le.trans_eq ?_
    rw [List.length_map]
  rw [List.length_take, min_eq_left hle] at htake
  exact htake

theorem filter_filter_le {l : List α} {clock instant : Int} (h : clock ≤ instant) :
    (l.filter fun x => decide (key x ≤ instant)).filter (fun x => decide (key x ≤ clock)) =
      l.filter fun x => decide (key x ≤ clock) := by
  rw [List.filter_filter]
  refine List.filter_congr fun x _ => ?_
  by_cases hx : key x ≤ clock
  · simp [hx, hx.trans h]
  · simp [hx]

end Visible

section Histories
variable {config : ReplayConfig} {clock instant : Int}

/-- `_histories_at`, from the series of the symbol. -/
def historiesFrom (series : Timeframe → List Candle) (config : ReplayConfig) (clock : Int) :
    Option (Timeframe → List Candle) :=
  if runnerTimeframes.all fun timeframe =>
      decide (config.minimumHistoryCandles ≤ (historyAt (series timeframe) clock config).length) then
    some fun timeframe => historyAt (series timeframe) clock config
  else none

theorem historyAt_nil : historyAt [] clock config = [] := by
  simp [historyAt]

theorem historiesAt_dataOf (ordered : List ReplayMarketRow) (symbol : Symbol) :
    historiesAt (dataOf ordered) config symbol clock =
      historiesFrom (seriesOf (ownCandles ordered symbol)) config clock := by
  unfold historiesAt
  rw [aggregatesOf_dataOf]
  by_cases hsymbol : symbol ∈ rowSymbols ordered
  · rw [if_pos hsymbol]
    simp only [series_aggregatesFor]
    rfl
  · -- without rows every history is too short
    have hpos := config.minimumHistoryCandles_pos
    rw [if_neg hsymbol, ownCandles_nil hsymbol]
    unfold historiesFrom
    rw [if_neg]
    simp only [seriesOf_nil, historyAt_nil, runnerTimeframes, List.all_cons, List.length_nil]
    simp
    omega

theorem historyAt_eq {series : List Candle}
    (h : series.Pairwise fun a b => a.closeTime < b.closeTime) :
    historyAt series clock config =
      (series.filter fun candle => decide (candle.closeTime ≤ clock)).drop
        ((series.filter fun candle => decide (candle.closeTime ≤ clock)).length -
          config.historyCandles) := by
  unfold historyAt
  simp only
  rw [take_bisectRight h, bisectRight_eq_length h]

theorem historyAt_closed {series : List Candle}
    (h : series.Pairwise fun a b => a.closeTime < b.closeTime) (hclock : clock ≤ instant) :
    historyAt (series.filter fun candle => decide (candle.closeTime ≤ instant)) clock config =
      historyAt series clock config := by
  rw [historyAt_eq h, historyAt_eq (h.filter _), filter_filter_le hclock]

theorem mem_historyAt {series : List Candle}
    (h : series.Pairwise fun a b => a.closeTime < b.closeTime) {candle : Candle}
    (hcandle : candle ∈ historyAt series clock config) :
    candle ∈ series ∧ candle.closeTime ≤ clock := by
  rw [historyAt_eq h] at hcandle
  obtain ⟨hmem, hclosed⟩ := List.mem_filter.mp (List.mem_of_mem_drop hcandle)
  exact ⟨hmem, of_decide_eq_true hclosed⟩

theorem historiesFrom_some {series histories : Timeframe → List Candle}
    (h : historiesFrom series config clock = some histories) (timeframe : Timeframe) :
    histories timeframe = historyAt (series timeframe) clock config ∧ histories timeframe ≠ [] := by
  unfold historiesFrom at h
  split_ifs at h with hall
  cases h
  refine ⟨rfl, fun hnil => ?_⟩
  have hlength : config.minimumHistoryCandles ≤
      (historyAt (series timeframe) clock config).length := by
    refine of_decide_eq_true (List.all_eq_true.mp hall timeframe ?_)
    cases timeframe <;> decide
  have hpos := config.minimumHistoryCandles_pos
  have hzero := congrArg List.length hnil
  simp only [List.length_nil] at hzero
  omega

/-- An increasing series of one symbol and timeframe is valid. -/
theorem validateCandleSeries_of_increasing {series : List Candle} {symbol : Symbol}
    {timeframe : Timeframe} (hne : series ≠ [])
    (hsame : ∀ candle ∈ series, candle.symbol = symbol ∧ candle.timeframe = timeframe)
    (hincreasing : series.Pairwise fun a b => a.openTime < b.openTime) :
    validateCandleSeries series = .ok () := by
  have hpairs : ∀ first : Candle, first.symbol = symbol → first.timeframe = timeframe →
      validatePairs first series = .ok () := by
    intro first hsymbol htimeframe
    clear hne
    induction series with
    | nil => rfl
    | cons previous rest ih =>
      cases rest with
      | nil => rfl
      | cons candle rest =>
        obtain ⟨hnext, hrest⟩ := List.pairwise_cons.mp hincreasing
        have hcandle := hsame candle (by simp)
        rw [validatePairs, if_neg (by rw [hcandle.1, hsymbol]; simp),
          if_neg (by rw [hcandle.2, htimeframe]; simp),
          if_neg (not_le.mpr (hnext candle List.mem_cons_self))]
        exact ih (fun c hc => hsame c (List.mem_cons_of_mem previous hc)) hrest
  cases series with
  | nil => exact absurd rfl hne
  | cons first rest =>
    obtain ⟨hsymbol, htimeframe⟩ := hsame first List.mem_cons_self
    exact hpairs first hsymbol htimeframe

/-- The histories of one symbol can be analyzed. -/
theorem analyzeHistory_own (settings : StrategyConfig) {own : List Candle1m} {symbol : Symbol}
    (hown : ∀ candle ∈ own, candle.symbol = symbol) {histories : Timeframe → List Candle}
    (h : historiesFrom (seriesOf own) config clock = some histories) (timeframe : Timeframe) :
    ∃ analysis, analyzeHistory settings (histories timeframe) = .ok analysis := by
  obtain ⟨heq, hne⟩ := historiesFrom_some h timeframe
  have hvalid : validateCandleSeries (histories timeframe) = .ok () := by
    refine @validateCandleSeries_of_increasing _ symbol timeframe hne ?_ ?_
    · intro candle hcandle
      rw [heq] at hcandle
      obtain ⟨htimeframe, source, hsource, hsymbol⟩ :=
        mem_seriesOf_of (mem_historyAt seriesOf_closes_increasing hcandle).1
      exact ⟨hsymbol.trans (hown source hsource), htimeframe⟩
    · rw [heq]
      unfold historyAt
      exact (seriesOf_increasing.sublist (List.take_sublist _ _)).sublist (List.drop_sublist _ _)
  obtain ⟨first, last, -, -, hanalyze⟩ := analyze_eq settings.smc hvalid
  refine ⟨analysisOf settings.smc (histories timeframe) first last, ?_⟩
  rw [analyzeHistory, hanalyze]
  rfl

theorem analyzeHistory_ok (settings : StrategyConfig) (ordered : List ReplayMarketRow)
    {symbol : Symbol} {histories : Timeframe → List Candle}
    (h : historiesFrom (seriesOf (ownCandles ordered symbol)) config clock = some histories)
    (timeframe : Timeframe) : ∃ analysis, analyzeHistory settings (histories timeframe) = .ok analysis :=
  analyzeHistory_own settings
    (fun _ hcandle => of_decide_eq_true (List.mem_filter.mp hcandle).2) h timeframe

end Histories

section Truncation
variable {ordered : List ReplayMarketRow} {config : ReplayConfig} {settings : StrategyConfig}
variable {clock instant : Int}

/-- The rows closed by an instant. -/
def closedRows (instant : Int) (rows : List ReplayMarketRow) : List ReplayMarketRow :=
  rows.filter fun row => closedBy instant row.candle

theorem ownCandles_closedRows (symbol : Symbol) :
    ownCandles (closedRows instant ordered) symbol =
      (ownCandles ordered symbol).filter (closedBy instant) := by
  unfold ownCandles closedRows
  rw [List.filter_comm]
  simp only [List.filter_map]
  rfl

/-- The rows are sorted, each has its own key, and they open on whole minutes. -/
structure Readable (ordered : List ReplayMarketRow) : Prop where
  increasing : ordered.Pairwise fun a b => rowKey a < rowKey b
  onMinutes : ∀ row ∈ ordered, oneMinute ∣ row.candle.openTime

theorem Readable.own_onMinutes (h : Readable ordered) (symbol : Symbol) :
    ∀ candle ∈ ownCandles ordered symbol, oneMinute ∣ candle.openTime := by
  intro candle hcandle
  obtain ⟨row, hrow, rfl⟩ := List.mem_map.mp (List.mem_filter.mp hcandle).1
  exact h.onMinutes row hrow

theorem Readable.rowsOf_increasing (h : Readable ordered) (symbol : Symbol) :
    ((dataOf ordered).rowsOf symbol).Pairwise fun a b =>
      a.candle.openTime + oneMinute < b.candle.openTime + oneMinute := by
  refine List.Pairwise.imp_of_mem (fun ha hb hab => ?_) (h.increasing.filter _)
  have hsa := of_decide_eq_true (List.mem_filter.mp ha).2
  have hsb := of_decide_eq_true (List.mem_filter.mp hb).2
  rcases Prod.Lex.toLex_lt_toLex.mp hab with hlt | ⟨-, hlt⟩
  · exact Int.add_lt_add_right hlt oneMinute
  · rw [hsa, hsb] at hlt
    exact absurd hlt (lt_irrefl _)

theorem rowSymbols_closedRows :
    rowSymbols (closedRows instant ordered) =
      (rowSymbols ordered).filter fun symbol =>
        decide (symbol ∈ rowSymbols (closedRows instant ordered)) := by
  have hsorted : ∀ rows : List ReplayMarketRow,
      (rowSymbols rows).Pairwise fun a b => id a < id b :=
    fun rows => sortedBy_increasing id (List.nodup_dedup _)
  refine eq_of_increasing id (hsorted _) ((hsorted ordered).filter _) fun symbol => ?_
  rw [List.mem_filter, decide_eq_true_eq]
  refine ⟨fun hmem => ⟨?_, hmem⟩, fun hmem => hmem.2⟩
  obtain ⟨row, hrow, hsymbol⟩ := (mem_rowSymbols _).mp hmem
  exact (mem_rowSymbols _).mpr ⟨row, (List.mem_filter.mp hrow).1, hsymbol⟩

variable (hreadable : Readable ordered)
include hreadable

theorem historiesAt_closedRows (symbol : Symbol) (h : clock ≤ instant) :
    historiesAt (dataOf (closedRows instant ordered)) config symbol clock =
      historiesAt (dataOf ordered) config symbol clock := by
  have hhistory : ∀ timeframe, historyAt (seriesOf (ownCandles (closedRows instant ordered) symbol)
      timeframe) clock config = historyAt (seriesOf (ownCandles ordered symbol) timeframe) clock
        config := by
    intro timeframe
    rw [ownCandles_closedRows, seriesOf_closedBy (hreadable.own_onMinutes symbol),
      historyAt_closed seriesOf_closes_increasing h]
  rw [historiesAt_dataOf, historiesAt_dataOf]
  unfold historiesFrom
  simp only [hhistory]

theorem latestMarketRow_closedRows (symbol : Symbol) (h : clock ≤ instant) :
    latestMarketRow ((dataOf (closedRows instant ordered)).rowsOf symbol) clock =
      latestMarketRow ((dataOf ordered).rowsOf symbol) clock := by
  have hincreasing := hreadable.rowsOf_increasing symbol
  have hrows : (dataOf (closedRows instant ordered)).rowsOf symbol =
      ((dataOf ordered).rowsOf symbol).filter fun row =>
        decide (row.candle.openTime + oneMinute ≤ instant) :=
    List.filter_comm _ _ _
  unfold latestMarketRow
  rw [hrows, take_bisectRight hincreasing, take_bisectRight (hincreasing.filter _),
    @filter_filter_le _ (fun row : ReplayMarketRow => row.candle.openTime + oneMinute) _ _ _ h]

theorem runEvent_closedRows (state : RunnerState) (symbol : Symbol) (h : clock ≤ instant) :
    runEvent (dataOf (closedRows instant ordered)) settings config state (clock, symbol) =
      runEvent (dataOf ordered) settings config state (clock, symbol) := by
  have hbtc : cachedBtcState (dataOf (closedRows instant ordered)) settings config state clock =
      cachedBtcState (dataOf ordered) settings config state clock := by
    unfold cachedBtcState btcStateAt
    rw [historiesAt_closedRows hreadable "BTCUSDT" h]
  unfold runEvent
  simp only [historiesAt_closedRows hreadable symbol h,
    latestMarketRow_closedRows hreadable symbol h, hbtc]

/-- The events of the cut rows are the events up to the cut. -/
theorem replayEvents_closedRows :
    replayEvents (dataOf (closedRows instant ordered)).aggregates =
      (replayEvents (dataOf ordered).aggregates).filter fun event => decide (event.1 ≤ instant) := by
  unfold replayEvents
  rw [← sortedBy_filter]
  congr 1
  simp only [dataOf, List.flatMap_map]
  rw [List.filter_flatMap, rowSymbols_closedRows]
  have hown : ∀ symbol, ((aggregatesFor (closedRows instant ordered) symbol).m5.map
      fun candle => (candle.closeTime, symbol)) =
        ((aggregatesFor ordered symbol).m5.map fun candle => (candle.closeTime, symbol)).filter
          fun event => decide (event.1 ≤ instant) := by
    intro symbol
    unfold aggregatesFor
    rw [ownCandles_closedRows, seriesOf_closedBy (hreadable.own_onMinutes symbol), List.filter_map]
    rfl
  rw [flatMap_filter_of_nil]
  · exact List.flatMap_congr fun symbol _ => hown symbol
  · intro symbol _ hsymbol
    have hnil := ownCandles_nil (of_decide_eq_false hsymbol)
    simp only [aggregatesFor, hnil, seriesOf_nil]
    rfl

end Truncation

section Run
variable {ordered : List ReplayMarketRow} {config : ReplayConfig} {settings : StrategyConfig}

theorem btcStateAt_ok (ordered : List ReplayMarketRow) (config : ReplayConfig)
    (settings : StrategyConfig) (clock : Int) :
    ∃ btcState, btcStateAt (dataOf ordered) config settings clock = .ok btcState := by
  unfold btcStateAt
  cases hbtc : historiesAt (dataOf ordered) config "BTCUSDT" clock with
  | none => exact ⟨_, rfl⟩
  | some btcHistories =>
    rw [historiesAt_dataOf] at hbtc
    obtain ⟨analysis, hanalysis⟩ := analyzeHistory_ok settings ordered hbtc .m5
    simp only
    cases (btcHistories .m5).getLast? with
    | none => exact ⟨_, rfl⟩
    | some candle =>
      simp only [hanalysis]
      exact ⟨_, rfl⟩

theorem runEvent_ok (state : RunnerState) (event : Int × Symbol) :
    ∃ next, runEvent (dataOf ordered) settings config state event = .ok next := by
  unfold runEvent
  cases hhistories : historiesAt (dataOf ordered) config event.2 event.1 with
  | none => exact ⟨state, rfl⟩
  | some histories =>
    cases latestMarketRow ((dataOf ordered).rowsOf event.2) event.1 with
    | none => exact ⟨state, rfl⟩
    | some row =>
      rw [historiesAt_dataOf] at hhistories
      obtain ⟨analysis4h, h4⟩ := analyzeHistory_ok settings ordered hhistories .h4
      obtain ⟨analysis1h, h1⟩ := analyzeHistory_ok settings ordered hhistories .h1
      obtain ⟨analysis15m, h15⟩ := analyzeHistory_ok settings ordered hhistories .m15
      obtain ⟨analysis5m, h5⟩ := analyzeHistory_ok settings ordered hhistories .m5
      have hbtc : ∃ btcState,
          cachedBtcState (dataOf ordered) settings config state event.1 = .ok btcState := by
        unfold cachedBtcState
        cases state.btcCache event.1 with
        | some btcState => exact ⟨btcState, rfl⟩
        | none => exact btcStateAt_ok ordered config settings event.1
      obtain ⟨btcState, hbtc⟩ := hbtc
      simp only [h4, h1, h15, h5, hbtc]
      exact ⟨_, rfl⟩

/-- A candidate of an event at a clock: dated by it, from inputs closed by it. -/
structure Dated (clock : Int) (item : ReplayCandidate) : Prop where
  analyzedAt : item.candidate.analyzedAt = clock
  cutoffs : ∀ cutoff ∈ item.inputCutoffs, cutoff.2 ≤ clock

theorem runEvent_dated {state next : RunnerState} {event : Int × Symbol}
    (h : runEvent (dataOf ordered) settings config state event = .ok next) :
    ∃ extra, next.candidates = state.candidates ++ extra ∧ ∀ item ∈ extra, Dated event.1 item := by
  have hnone : ∃ extra, state.candidates = state.candidates ++ extra ∧
      ∀ item ∈ extra, Dated event.1 item :=
    ⟨[], (List.append_nil _).symm, fun item hitem => absurd hitem List.not_mem_nil⟩
  unfold runEvent at h
  split at h
  · cases h
    exact hnone
  · rename_i histories hhistories
    split at h
    · cases h
      exact hnone
    · obtain ⟨analysis4h, -, h⟩ := bind_eq_ok.mp h
      obtain ⟨analysis1h, -, h⟩ := bind_eq_ok.mp h
      obtain ⟨analysis15m, -, h⟩ := bind_eq_ok.mp h
      obtain ⟨analysis5m, -, h⟩ := bind_eq_ok.mp h
      obtain ⟨btcState, -, h⟩ := bind_eq_ok.mp h
      cases h
      refine ⟨_, rfl, fun item hitem => ?_⟩
      obtain ⟨⟨candidate, index⟩, hcandidate, rfl⟩ := List.mem_map.mp hitem
      constructor
      · exact analyzedAt_evaluateCandidates _ _ candidate (List.fst_mem_of_mem_zipIdx hcandidate)
      · intro cutoff hcutoff
        obtain ⟨timeframe, -, htimeframe⟩ := List.mem_filterMap.mp hcutoff
        obtain ⟨candle, hcandle, rfl⟩ := Option.map_eq_some_iff.mp htimeframe
        rw [historiesAt_dataOf] at hhistories
        have hlast := List.mem_of_getLast? hcandle
        rw [(historiesFrom_some hhistories timeframe).1] at hlast
        exact (mem_historyAt seriesOf_closes_increasing hlast).2

theorem run_dated {events : List (Int × Symbol)} {start last : RunnerState}
    (h : events.foldlM (runEvent (dataOf ordered) settings config) start = .ok last) :
    ∃ extra, last.candidates = start.candidates ++ extra ∧
      ∀ item ∈ extra, ∃ event ∈ events, Dated event.1 item := by
  refine foldlM_invariant (P := fun state => ∃ extra,
    state.candidates = start.candidates ++ extra ∧
      ∀ item ∈ extra, ∃ event ∈ events, Dated event.1 item) ?_ ?_ h
  · rintro state event hevent next ⟨extra, hextra, hdated⟩ hnext
    obtain ⟨more, hmore, hmored⟩ := runEvent_dated hnext
    refine ⟨extra ++ more, ?_, fun item hitem => ?_⟩
    · rw [hmore, hextra, List.append_assoc]
    · rcases List.mem_append.mp hitem with hitem | hitem
      · exact hdated item hitem
      · exact ⟨event, hevent, hmored item hitem⟩
  · exact ⟨[], (List.append_nil _).symm, fun item hitem => absurd hitem List.not_mem_nil⟩

/-- The loop over well-formed rows does not raise. -/
theorem replayLoop_ok (hformed : ∀ row ∈ ordered, Formed row.candle) :
    ∃ state, replayLoop settings config ordered = .ok (dataOf ordered, state) ∧
      (replayEvents (dataOf ordered).aggregates).foldlM
        (runEvent (dataOf ordered) settings config) {} = .ok state := by
  obtain ⟨state, hstate⟩ := foldlM_ok
    (fun state event _ => @runEvent_ok ordered config settings state event) {}
  refine ⟨state, ?_, hstate⟩
  exact bind_eq_ok.mpr ⟨_, buildReplayAggregates_eq hformed, bind_eq_ok.mpr ⟨state, hstate, rfl⟩⟩

theorem resolveAll_ok (data : ReplayData) (candidates : List ReplayCandidate) :
    ∃ outcomes, resolveAll data candidates = .ok outcomes := by
  unfold resolveAll
  rw [mapM_eq_filterMap]
  · exact ⟨_, rfl⟩
  · intro item hitem
    obtain ⟨haccepted, hplan⟩ := Bool.and_eq_true_iff.mp (List.mem_filter.mp hitem).2
    obtain ⟨plan, hplan⟩ := Option.isSome_iff_exists.mp hplan
    unfold resolveCandidate
    rw [hplan]
    simp only
    rw [if_neg (not_not_intro (of_decide_eq_true haccepted))]
    exact ⟨_, rfl⟩

theorem runReplay_ok {rows : List ReplayMarketRow} (hformed : ∀ row ∈ rows, Formed row.candle) :
    ∃ result state, runReplay settings config rows = .ok result ∧
      result.candidates = state.candidates ∧
      (replayEvents (dataOf (sortedBy rowKey rows)).aggregates).foldlM
        (runEvent (dataOf (sortedBy rowKey rows)) settings config) {} = .ok state := by
  have hsorted : ∀ row ∈ sortedBy rowKey rows, Formed row.candle :=
    fun row hrow => hformed row (mem_sortedBy.mp hrow)
  obtain ⟨state, hloop, hstate⟩ := @replayLoop_ok _ config settings hsorted
  obtain ⟨outcomes, houtcomes⟩ := resolveAll_ok (dataOf (sortedBy rowKey rows)) state.candidates
  exact ⟨_, state, bind_eq_ok.mpr ⟨_, hloop, bind_eq_ok.mpr ⟨outcomes, houtcomes, rfl⟩⟩, rfl, hstate⟩

end Run

section Chronology
variable (settings : StrategyConfig) (config : ReplayConfig)

def datedBy (instant : Int) (item : ReplayCandidate) : Bool :=
  decide (item.candidate.analyzedAt ≤ instant)

/-- What the loop finds up to an instant, it finds in the rows closed by then. -/
theorem run_closedRows {ordered : List ReplayMarketRow} (hreadable : Readable ordered)
    {instant : Int} {full early : RunnerState}
    (hfull : (replayEvents (dataOf ordered).aggregates).foldlM
      (runEvent (dataOf ordered) settings config) {} = .ok full)
    (hearly : (replayEvents (dataOf (closedRows instant ordered)).aggregates).foldlM
      (runEvent (dataOf (closedRows instant ordered)) settings config) {} = .ok early) :
    full.candidates.filter (datedBy instant) = early.candidates.filter (datedBy instant) := by
  have hsorted : (replayEvents (dataOf ordered).aggregates).Pairwise fun a b =>
      decide (b.1 ≤ instant) = true → decide (a.1 ≤ instant) = true := by
    refine (sortedBy_pairwise (fun event : Int × Symbol => toLex event) _).imp fun hab hb => ?_
    rcases Prod.Lex.toLex_le_toLex.mp hab with hlt | ⟨heq, -⟩
    · exact decide_eq_true (hlt.le.trans (of_decide_eq_true hb))
    · exact decide_eq_true (heq.le.trans (of_decide_eq_true hb))
  rw [← filter_append_filter_not hsorted, List.foldlM_append] at hfull
  obtain ⟨mid, hmid, hlate⟩ := bind_eq_ok.mp hfull
  have hsame : (replayEvents (dataOf (closedRows instant ordered)).aggregates).foldlM
      (runEvent (dataOf (closedRows instant ordered)) settings config) {} = .ok mid := by
    rw [replayEvents_closedRows hreadable, ← hmid]
    refine foldlM_congr (fun state event hevent => ?_) ({} : RunnerState)
    exact runEvent_closedRows hreadable state event.2
      (of_decide_eq_true (List.mem_filter.mp hevent).2)
  rw [hsame] at hearly
  cases hearly
  obtain ⟨extra, hextra, hdated⟩ := run_dated hlate
  have hnone : extra.filter (datedBy instant) = [] := by
    refine List.filter_eq_nil_iff.mpr fun item hitem hby => ?_
    obtain ⟨event, hevent, hat⟩ := hdated item hitem
    have hafter := (List.mem_filter.mp hevent).2
    rw [datedBy, hat.analyzedAt] at hby
    simp [of_decide_eq_true hby] at hafter
  rw [hextra, List.filter_append, hnone, List.append_nil]

/-- For rows that open on whole minutes: the candidates dated up to an instant are those
of the rows closed by it, every input was closed when it was read, and the order of the
rows does not matter. -/
theorem replay_chronology {rows : List ReplayMarketRow}
    (hformed : ∀ row ∈ rows, Formed row.candle)
    (hminutes : ∀ row ∈ rows, oneMinute ∣ row.candle.openTime)
    (hdistinct : rows.Pairwise fun a b => rowKey a ≠ rowKey b) (instant : Int) :
    ∃ full early, runReplay settings config rows = .ok full ∧
      runReplay settings config (closedRows instant rows) = .ok early ∧
      full.candidates.filter (datedBy instant) = early.candidates.filter (datedBy instant) ∧
      (∀ item ∈ full.candidates, ∀ cutoff ∈ item.inputCutoffs,
        cutoff.2 ≤ item.candidate.analyzedAt) ∧
      ∀ rows', rows'.Perm rows → runReplay settings config rows' = .ok full := by
  obtain ⟨full, fullState, hfull, hfullc, hfullrun⟩ := @runReplay_ok config settings rows hformed
  obtain ⟨early, earlyState, hearly, hearlyc, hearlyrun⟩ := @runReplay_ok config settings
    (closedRows instant rows) fun row hrow => hformed row (List.mem_filter.mp hrow).1
  have hreadable : Readable (sortedBy rowKey rows) :=
    ⟨sortedBy_increasing rowKey hdistinct, fun row hrow => hminutes row (mem_sortedBy.mp hrow)⟩
  have hcut : sortedBy rowKey (closedRows instant rows) =
      closedRows instant (sortedBy rowKey rows) := sortedBy_filter rowKey _ rows
  rw [hcut] at hearlyrun
  refine ⟨full, early, hfull, hearly, ?_, ?_, ?_⟩
  · rw [hfullc, hearlyc]
    exact run_closedRows settings config hreadable hfullrun hearlyrun
  · intro item hitem cutoff hcutoff
    obtain ⟨extra, hextra, hdated⟩ := run_dated hfullrun
    rw [hfullc, hextra] at hitem
    rcases List.mem_append.mp hitem with hstart | hitem
    · cases hstart
    · obtain ⟨event, -, hat⟩ := hdated item hitem
      rw [hat.analyzedAt]
      exact hat.cutoffs cutoff hcutoff
  · intro rows' hperm
    rw [← hfull]
    unfold runReplay
    rw [sortedBy_eq_of_perm hperm hdistinct]

end Chronology

section Sample

/-- A quiet row that opens at an instant. -/
def quietRow (openTime : Int) : ReplayMarketRow where
  candle := {
    symbol := "ETHUSDT"
    openTime := openTime
    openPrice := 100
    highPrice := 101
    lowPrice := 99
    closePrice := 100
    volume := 1
    turnover := 100 }

/-- The minutes of one 4h interval. -/
def intervalRows : List ReplayMarketRow := (List.range 240).map fun i : Nat => quietRow (minutes i)

def shortHistory : ReplayConfig where
  historyCandles := 1
  minimumHistoryCandles := 1
  historyCandles_ge := Nat.zero_lt_one
  minimumHistoryCandles_pos := Nat.zero_lt_one

def candidateCount (result : Except RunError ReplayResult) (instant : Int) : Nat :=
  match result with
  | .ok result => (result.candidates.filter (datedBy instant)).length
  | .error _ => 0

theorem quietRow_formed (openTime : Int) : Formed (quietRow openTime).candle := by
  constructor <;> norm_num [quietRow]

theorem mem_intervalRows {row : ReplayMarketRow} (h : row ∈ intervalRows) :
    Formed row.candle ∧ oneMinute ∣ row.candle.openTime := by
  obtain ⟨i, -, rfl⟩ := List.mem_map.mp h
  exact ⟨quietRow_formed _, Dvd.intro_left (i : Int) rfl⟩

theorem intervalRows_distinct : intervalRows.Pairwise fun a b => rowKey a ≠ rowKey b := by
  refine List.pairwise_map.mpr (List.pairwise_lt_range.imp fun hij heq => ?_)
  have htime := (Prod.mk.inj (toLex.injective heq)).1
  simp only [quietRow, minutes, oneMinute] at htime
  omega

theorem replay_chronology_sample :
    ∃ full early, runReplay .standard shortHistory intervalRows = .ok full ∧
      runReplay .standard shortHistory (closedRows (minutes 240) intervalRows) = .ok early ∧
      full.candidates.filter (datedBy (minutes 240)) =
        early.candidates.filter (datedBy (minutes 240)) ∧
      (∀ item ∈ full.candidates, ∀ cutoff ∈ item.inputCutoffs,
        cutoff.2 ≤ item.candidate.analyzedAt) ∧
      ∀ rows', rows'.Perm intervalRows → runReplay .standard shortHistory rows' = .ok full :=
  replay_chronology .standard shortHistory (fun _ h => (mem_intervalRows h).1)
    (fun _ h => (mem_intervalRows h).2) intervalRows_distinct (minutes 240)

/-- A row that opens in the middle of the last minute withholds the interval from the run
over all rows, but is not yet there when the interval ends. -/
theorem replay_withholds_interval_for_later_row :
    (∀ row ∈ intervalRows ++ [quietRow (minutes 239 + 30000000)], Formed row.candle) ∧
    (intervalRows ++ [quietRow (minutes 239 + 30000000)]).Pairwise
      (fun a b => rowKey a ≠ rowKey b) ∧
    candidateCount (runReplay .standard shortHistory (intervalRows ++ [quietRow (minutes 239 + 30000000)]))
      (minutes 240) = 0 ∧
    candidateCount (runReplay .standard shortHistory (closedRows (minutes 240)
      (intervalRows ++ [quietRow (minutes 239 + 30000000)]))) (minutes 240) = 2 := by
  refine ⟨fun row hrow => ?_, ?_, by decide +kernel, by decide +kernel⟩
  · rcases List.mem_append.mp hrow with h | h
    · exact (mem_intervalRows h).1
    · rw [List.mem_singleton.mp h]
      exact quietRow_formed _
  · refine List.pairwise_append.mpr ⟨intervalRows_distinct, List.pairwise_singleton _ _, ?_⟩
    intro a ha b hb heq
    obtain ⟨i, -, rfl⟩ := List.mem_map.mp ha
    rw [List.mem_singleton.mp hb] at heq
    have htime := (Prod.mk.inj (toLex.injective heq)).1
    simp only [quietRow, minutes, oneMinute] at htime
    omega

end Sample

end StructurePulse.Replay
