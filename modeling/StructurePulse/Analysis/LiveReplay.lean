import StructurePulse.Analysis.LiveCycle
import StructurePulse.Library.Partitions

/-!
# Live and replay see the same evidence

A replay of a dataset evaluates a symbol at an instant from the same histories that a live
cycle loads when the aggregates closed by the instant are stored. The cache of the BTC state
only holds what would be computed again.
-/

namespace StructurePulse.Analysis
open Library SMC Strategy Aggregation Replay
set_option autoImplicit false

section Dataset
variable {candles : List Candle1m} {rows : List ReplayMarketRow} {symbols : List Symbol}
variable {symbol : Symbol} {timeframe : Timeframe}

/-- The rows replay the dataset's candles of some symbols, in any order. -/
def ReplaysDataset (rows : List ReplayMarketRow) (candles : List Candle1m) (symbols : List Symbol) :
    Prop :=
  (rows.map (·.candle)).Perm (candles.filter fun candle => decide (candle.symbol ∈ symbols))

/-- The aggregation does not look at the order of the candles. -/
theorem seriesOf_perm {own other : List Candle1m} (hperm : own.Perm other) :
    seriesOf own timeframe = seriesOf other timeframe := by
  refine eq_of_increasing Candle.openTime seriesOf_increasing seriesOf_increasing fun candle => ?_
  have hinterval : ∀ start, intervalCandle own timeframe start =
      intervalCandle other timeframe start := by
    intro start
    unfold intervalCandle bucketAggregate
    rw [aggregateCandles_perm (hperm.filter _)]
  simp only [mem_seriesOf, hinterval]

theorem ReplaysDataset.own (h : ReplaysDataset rows candles symbols) (hsymbol : symbol ∈ symbols) :
    (ownCandles (sortedBy rowKey rows) symbol).Perm (candlesOf candles symbol) := by
  have hsorted : ((sortedBy rowKey rows).map (·.candle)).Perm
      (candles.filter fun candle => decide (candle.symbol ∈ symbols)) :=
    ((sortedBy_perm rows).map _).trans h
  have hown : (candles.filter fun candle => decide (candle.symbol ∈ symbols)).filter
      (fun candle => decide (candle.symbol = symbol)) = candlesOf candles symbol := by
    unfold candlesOf
    rw [List.filter_filter]
    refine List.filter_congr fun candle _ => ?_
    by_cases hc : candle.symbol = symbol
    · simp [hc, hsymbol]
    · simp [hc]
  rw [← hown]
  exact hsorted.filter _

theorem ReplaysDataset.own_nil (h : ReplaysDataset rows candles symbols) (hsymbol : symbol ∉ symbols) :
    ownCandles (sortedBy rowKey rows) symbol = [] := by
  refine List.filter_eq_nil_iff.mpr fun candle hcandle hc => hsymbol ?_
  have hmem := (((sortedBy_perm rows).map _).trans h).mem_iff.mp hcandle
  rw [← of_decide_eq_true hc]
  exact of_decide_eq_true (List.mem_filter.mp hmem).2

theorem ReplaysDataset.mem (h : ReplaysDataset rows candles symbols) {row : ReplayMarketRow}
    (hrow : row ∈ rows) : row.candle ∈ candles :=
  (List.mem_filter.mp (h.mem_iff.mp (List.mem_map_of_mem hrow))).1

theorem ReplaysDataset.readable (h : ReplaysDataset rows candles symbols)
    (hcanonical : Canonical candles) : Readable (sortedBy rowKey rows) where
  increasing := by
    have hdistinct : (rows.map (·.candle)).Pairwise fun a b =>
        a.symbol = b.symbol → a.openTime ≠ b.openTime :=
      h.symm.pairwise (hcanonical.distinct.filter _) fun hne hsymbol => (hne hsymbol.symm).symm
    refine sortedBy_increasing rowKey ((List.pairwise_map.mp hdistinct).imp fun hne heq => ?_)
    obtain ⟨htime, hsymbol⟩ := Prod.mk.inj (toLex.injective heq)
    exact hne hsymbol htime
  onMinutes := fun row hrow => hcanonical.onMinutes _ (h.mem (mem_sortedBy.mp hrow))

/-- The histories of a replay are those of the dataset. -/
theorem ReplaysDataset.histories (h : ReplaysDataset rows candles symbols)
    (hsymbol : symbol ∈ symbols) (config : ReplayConfig) (clock : Int) :
    historiesAt (dataOf (sortedBy rowKey rows)) config symbol clock =
      ownHistories candles config clock symbol := by
  rw [historiesAt_dataOf, ownHistories,
    show seriesOf (ownCandles (sortedBy rowKey rows) symbol) = seriesOf (candlesOf candles symbol) from
      funext fun _ => seriesOf_perm (h.own hsymbol)]

theorem ReplaysDataset.histories_none (h : ReplaysDataset rows candles symbols)
    (hsymbol : symbol ∉ symbols) (config : ReplayConfig) (clock : Int) :
    historiesAt (dataOf (sortedBy rowKey rows)) config symbol clock = none := by
  unfold historiesAt
  rw [aggregatesOf_dataOf, if_neg]
  intro hmem
  obtain ⟨row, hrow, hrowsymbol⟩ := (mem_rowSymbols _).mp hmem
  have hown : row.candle ∈ ownCandles (sortedBy rowKey rows) symbol :=
    List.mem_filter.mpr ⟨List.mem_map_of_mem hrow, decide_eq_true hrowsymbol⟩
  rw [h.own_nil hsymbol] at hown
  exact List.not_mem_nil hown

end Dataset

section Events
variable {data : ReplayData} {settings : StrategyConfig} {config : ReplayConfig}

/-- What an event of a replay evaluates: the row, the BTC state and the input. -/
def eventInput (data : ReplayData) (settings : StrategyConfig) (config : ReplayConfig)
    (state : RunnerState) (event : Int × Symbol) :
    Except RunError (Option (ReplayMarketRow × BtcState × StrategyInput)) :=
  match historiesAt data config event.2 event.1 with
  | none => .ok none
  | some histories =>
    match latestMarketRow (data.rowsOf event.2) event.1 with
    | none => .ok none
    | some row => do
      let analysis4h ← analyzeHistory settings (histories .h4)
      let analysis1h ← analyzeHistory settings (histories .h1)
      let analysis15m ← analyzeHistory settings (histories .m15)
      let analysis5m ← analyzeHistory settings (histories .m5)
      let btc ← cachedBtcState data settings config state event.1
      return some (row, btc, {
        symbol := event.2
        analyzedAt := event.1
        analysis4h := analysis4h
        analysis1h := analysis1h
        analysis15m := analysis15m
        analysis5m := analysis5m
        market := marketContext config state event.2 row (histories .m15) btc
        inputCutoffs := inputCutoffs histories })

/-- An event evaluates its input, if it has one. -/
theorem runEvent_eq (state : RunnerState) (event : Int × Symbol) :
    runEvent data settings config state event =
      (eventInput data settings config state event).map fun evaluated =>
        match evaluated with
        | none => state
        | some (row, btc, input) =>
          state.record event.2 event.1 row btc input (evaluateCandidates input settings) := by
  unfold runEvent eventInput
  cases historiesAt data config event.2 event.1 with
  | none => rfl
  | some histories =>
    cases latestMarketRow (data.rowsOf event.2) event.1 with
    | none => rfl
    | some row =>
      simp only
      cases analyzeHistory settings (histories .h4) with
      | error => rfl
      | ok =>
        cases analyzeHistory settings (histories .h1) with
        | error => rfl
        | ok =>
          cases analyzeHistory settings (histories .m15) with
          | error => rfl
          | ok =>
            cases analyzeHistory settings (histories .m5) with
            | error => rfl
            | ok => cases cachedBtcState data settings config state event.1 <;> rfl

/-- The cache holds what would be computed again. -/
def CacheExact (data : ReplayData) (settings : StrategyConfig) (config : ReplayConfig)
    (state : RunnerState) : Prop :=
  ∀ clock btc, state.btcCache clock = some btc → btcStateAt data config settings clock = .ok btc

theorem CacheExact.cached {state : RunnerState} (h : CacheExact data settings config state)
    (clock : Int) :
    cachedBtcState data settings config state clock = btcStateAt data config settings clock := by
  unfold cachedBtcState
  cases hcache : state.btcCache clock with
  | none => rfl
  | some btc => exact (h clock btc hcache).symm

theorem CacheExact.runEvent {state next : RunnerState} {event : Int × Symbol}
    (h : CacheExact data settings config state)
    (hnext : runEvent data settings config state event = .ok next) :
    CacheExact data settings config next := by
  unfold Replay.runEvent at hnext
  split at hnext
  · cases hnext
    exact h
  · split at hnext
    · cases hnext
      exact h
    · obtain ⟨analysis4h, -, hnext⟩ := bind_eq_ok.mp hnext
      obtain ⟨analysis1h, -, hnext⟩ := bind_eq_ok.mp hnext
      obtain ⟨analysis15m, -, hnext⟩ := bind_eq_ok.mp hnext
      obtain ⟨analysis5m, -, hnext⟩ := bind_eq_ok.mp hnext
      obtain ⟨btc, hbtc, hnext⟩ := bind_eq_ok.mp hnext
      cases hnext
      rw [h.cached] at hbtc
      intro clock cached hcached
      simp only [RunnerState.record, Function.update_apply] at hcached
      split_ifs at hcached with hclock
      · cases hcached
        rw [hclock]
        exact hbtc
      · exact h clock cached hcached

theorem cacheExact_run {events : List (Int × Symbol)} {state : RunnerState}
    (h : events.foldlM (runEvent data settings config) {} = .ok state) :
    CacheExact data settings config state :=
  foldlM_invariant (fun _ _ _ _ hstate hnext => hstate.runEvent hnext)
    (fun _ _ hcached => by cases hcached) h

/-- A replay over the data evaluates an input at the event of the symbol and the instant. -/
def Evaluates (data : ReplayData) (settings : StrategyConfig) (config : ReplayConfig)
    (instant : Int) (symbol : Symbol) (input : StrategyInput) : Prop :=
  ∃ earlier later state row btc,
    replayEvents data.aggregates = earlier ++ (instant, symbol) :: later ∧
    earlier.foldlM (runEvent data settings config) {} = .ok state ∧
    eventInput data settings config state (instant, symbol) = .ok (some (row, btc, input)) ∧
    runEvent data settings config state (instant, symbol) =
      .ok (state.record symbol instant row btc input (evaluateCandidates input settings))

end Events

section Evaluation
variable {candles : List Candle1m} {rows : List ReplayMarketRow} {symbols : List Symbol}
variable {instant : Int} {symbol : Symbol} {settings : StrategyConfig} {config : ReplayConfig}

/-- The series of a symbol has a 5m candle that closes at an instant. -/
def ClosesAt (candles : List Candle1m) (symbol : Symbol) (instant : Int) : Prop :=
  ∃ candle ∈ seriesOf (candlesOf candles symbol) .m5, candle.closeTime = instant

/-- Then it is the last candle of the history. -/
theorem ClosesAt.last (h : ClosesAt candles symbol instant) {histories : Timeframe → List Candle}
    (hown : ownHistories candles config instant symbol = some histories) {last : Candle}
    (hlast : (histories .m5).getLast? = some last) : last.closeTime = instant := by
  obtain ⟨candle, hcandle, hclose⟩ := h
  rw [(historiesFrom_some hown .m5).1, historyAt_eq seriesOf_closes_increasing,
    List.getLast?_drop] at hlast
  split_ifs at hlast
  obtain ⟨front, hfront⟩ := List.getLast?_eq_some_iff.mp hlast
  have hincreasing := (@seriesOf_closes_increasing (candlesOf candles symbol) .m5).filter
    fun candle => decide (candle.closeTime ≤ instant)
  have hmem : candle ∈ (seriesOf (candlesOf candles symbol) .m5).filter fun candle =>
      decide (candle.closeTime ≤ instant) :=
    List.mem_filter.mpr ⟨hcandle, decide_eq_true hclose.le⟩
  have hclosed := of_decide_eq_true (List.mem_filter.mp (List.mem_of_getLast? hlast)).2
  rw [hfront] at hincreasing hmem
  rcases List.mem_append.mp hmem with hmem | hmem
  · have hlt := (List.pairwise_append.mp hincreasing).2.2 candle hmem last (List.mem_singleton_self _)
    omega
  · rw [← List.mem_singleton.mp hmem]
    exact hclose

variable (hrows : ReplaysDataset rows candles symbols) (hsymbol : symbol ∈ symbols)
include hrows hsymbol

theorem ReplaysDataset.m5 :
    (aggregatesFor (sortedBy rowKey rows) symbol).m5 = seriesOf (candlesOf candles symbol) .m5 :=
  seriesOf_perm (hrows.own hsymbol)

/-- A replay reaches the instant. -/
theorem mem_replayEvents (hcloses : ClosesAt candles symbol instant) :
    (instant, symbol) ∈ replayEvents (dataOf (sortedBy rowKey rows)).aggregates := by
  obtain ⟨candle, hcandle, hclose⟩ := hcloses
  rw [← hrows.m5 hsymbol] at hcandle
  have hmem : symbol ∈ rowSymbols (sortedBy rowKey rows) := by
    by_contra hno
    unfold aggregatesFor at hcandle
    rw [ownCandles_nil hno] at hcandle
    exact List.not_mem_nil hcandle
  unfold replayEvents
  rw [mem_sortedBy, List.mem_flatMap]
  refine ⟨_, List.mem_map_of_mem hmem, List.mem_map.mpr ⟨candle, hcandle, ?_⟩⟩
  rw [hclose]
  rfl

/-- The last minute of the interval that closes has a row. -/
theorem latestMarketRow_some (hcanonical : Canonical candles)
    (hcloses : ClosesAt candles symbol instant) :
    ∃ row, latestMarketRow ((dataOf (sortedBy rowKey rows)).rowsOf symbol) instant = some row := by
  obtain ⟨candle, hcandle, hclose⟩ := hcloses
  obtain ⟨start, hstart⟩ := mem_seriesOf.mp hcandle
  obtain ⟨aggregate, hcovers, hsmc⟩ := intervalCandle_some hstart
  obtain ⟨last, hlast, hminute⟩ := hcovers.last
  have hend : last.openTime + oneMinute = instant := by
    rw [hminute, ← hclose, (openTime_intervalCandle hstart).2]
  obtain ⟨hcandles, hlastsymbol⟩ := List.mem_filter.mp ((hrows.own hsymbol).mem_iff.mpr hlast)
  obtain ⟨row, hrow, rfl⟩ := List.mem_map.mp hcandles
  have hmem : row ∈ ((dataOf (sortedBy rowKey rows)).rowsOf symbol).filter fun row =>
      decide (row.candle.openTime + oneMinute ≤ instant) :=
    List.mem_filter.mpr ⟨List.mem_filter.mpr ⟨hrow, hlastsymbol⟩, decide_eq_true hend.le⟩
  unfold latestMarketRow
  rw [take_bisectRight ((hrows.readable hcanonical).rowsOf_increasing symbol)]
  exact ⟨_, List.getLast?_eq_some_getLast (List.ne_nil_of_mem hmem)⟩

/-- Before any event of the instant, the replay evaluates the histories of the dataset. -/
theorem eventInput_own (hcanonical : Canonical candles) (hcloses : ClosesAt candles symbol instant)
    {histories : Timeframe → List Candle} {analyses : Timeframe → SMCAnalysis} {btc : BtcState}
    {state : RunnerState} (hown : ownHistories candles config instant symbol = some histories)
    (hanalyses : ∀ timeframe, analyzeHistory settings (histories timeframe) = .ok (analyses timeframe))
    (hcache : CacheExact (dataOf (sortedBy rowKey rows)) settings config state)
    (hbtc : btcStateAt (dataOf (sortedBy rowKey rows)) config settings instant = .ok btc) :
    ∃ row input, eventInput (dataOf (sortedBy rowKey rows)) settings config state (instant, symbol) =
        .ok (some (row, btc, input)) ∧
      evidenceOf input = evidenceFrom symbol instant histories analyses btc := by
  obtain ⟨row, hrow⟩ := latestMarketRow_some hrows hsymbol hcanonical hcloses
  rw [← hcache.cached] at hbtc
  unfold eventInput
  rw [hrows.histories hsymbol, hown]
  simp only [hrow, hanalyses, hbtc]
  refine ⟨row, _, rfl, ?_⟩
  unfold evidenceOf evidenceFrom
  congr 1
  funext timeframe
  cases timeframe <;> rfl

/-- A symbol with long enough histories is evaluated. -/
theorem evaluates_own (hcanonical : Canonical candles) (hcloses : ClosesAt candles symbol instant)
    {histories : Timeframe → List Candle}
    (hown : ownHistories candles config instant symbol = some histories) :
    ∃ input, Evaluates (dataOf (sortedBy rowKey rows)) settings config instant symbol input := by
  obtain ⟨earlier, later, hsplit⟩ :=
    List.append_of_mem (mem_replayEvents hrows hsymbol hcloses)
  obtain ⟨state, hstate⟩ := foldlM_ok
    (fun state event (_ : event ∈ earlier) => @runEvent_ok _ config settings state event) {}
  obtain ⟨analyses, hanalyses⟩ := analyses_of_ownHistories settings hown
  obtain ⟨btc, hbtc⟩ := btcStateAt_ok (sortedBy rowKey rows) config settings instant
  obtain ⟨row, input, hinput, -⟩ := eventInput_own hrows hsymbol hcanonical hcloses hown hanalyses
    (cacheExact_run hstate) hbtc
  refine ⟨input, earlier, later, state, row, btc, hsplit, hstate, hinput, ?_⟩
  rw [runEvent_eq, hinput]
  rfl

/-- What is evaluated are the histories of the dataset. -/
theorem Evaluates.own (hcanonical : Canonical candles) (hcloses : ClosesAt candles symbol instant)
    {input : StrategyInput} {btc : BtcState}
    (hbtc : btcStateAt (dataOf (sortedBy rowKey rows)) config settings instant = .ok btc)
    (h : Evaluates (dataOf (sortedBy rowKey rows)) settings config instant symbol input) :
    ∃ histories analyses, ownHistories candles config instant symbol = some histories ∧
      (∀ timeframe, analyzeHistory settings (histories timeframe) = .ok (analyses timeframe)) ∧
      evidenceOf input = evidenceFrom symbol instant histories analyses btc := by
  obtain ⟨earlier, later, state, row, cached, -, hstate, hinput, -⟩ := h
  cases hown : ownHistories candles config instant symbol with
  | none =>
    unfold eventInput at hinput
    rw [hrows.histories hsymbol, hown] at hinput
    cases hinput
  | some histories =>
    obtain ⟨analyses, hanalyses⟩ := analyses_of_ownHistories settings hown
    obtain ⟨row', input', hinput', hevidence⟩ := eventInput_own hrows hsymbol hcanonical hcloses hown
      hanalyses (cacheExact_run hstate) hbtc
    rw [hinput'] at hinput
    cases hinput
    exact ⟨histories, analyses, rfl, hanalyses, hevidence⟩

end Evaluation

section Agreement
variable {candles : List Candle1m} {records : List AggregatedCandle} {rows : List ReplayMarketRow}
variable {symbols : List Symbol} {instant : Int} {config : ReplayConfig}
variable {service : StrategyAnalysisService}

/-- When the aggregates closed by an instant are stored, a symbol of both sides with a 5m
candle that closes then is given an input by the live cycle exactly if it has a ticker and a
replay evaluates it at the instant, and then both inputs say the same of the candles. The
analyses of every input are those of its own symbol's stored candles. -/
theorem live_evidence_replayed (hcanonical : Canonical candles)
    (hstored : StoredAt records candles instant) (hrows : ReplaysDataset rows candles symbols)
    (hlimits : SameLimits service config) (save : SaveAnalysis)
    (tickers : Symbol → Option MarketTicker) (profiles : List StrategySymbolProfile)
    (hbtc : "BTCUSDT" ∈ profiles.map StrategySymbolProfile.symbol ↔ "BTCUSDT" ∈ symbols) :
    ∃ cycle after data state,
      analyzeOnce service save tickers records profiles = .ok (cycle, after) ∧
      replayLoop service.config config (sortedBy rowKey rows) = .ok (data, state) ∧
      (∀ profile ∈ profiles, profile.symbol ∈ symbols → ClosesAt candles profile.symbol instant →
        ((∃ live ∈ cycle.assembled, live.symbol = profile.symbol) ↔
          (tickers profile.symbol).isSome ∧
            ∃ replayed, Evaluates data service.config config instant profile.symbol replayed) ∧
        ∀ live ∈ cycle.assembled, live.symbol = profile.symbol →
          ∀ replayed, Evaluates data service.config config instant profile.symbol replayed →
            evidenceOf live = evidenceOf replayed) ∧
      ∀ live ∈ cycle.assembled, ∀ timeframe, ∃ history,
        loadCandles records live.symbol timeframe service.historyCandles = .ok history ∧
          analyzeHistory service.config history = .ok (analysisOfInput live timeframe) := by
  have hdata : historiesAt (dataOf (sortedBy rowKey rows)) config "BTCUSDT" instant =
      if "BTCUSDT" ∈ profiles.map StrategySymbolProfile.symbol then
        ownHistories candles config instant "BTCUSDT"
      else none := by
    by_cases hmem : "BTCUSDT" ∈ profiles.map StrategySymbolProfile.symbol
    · rw [if_pos hmem, hrows.histories (hbtc.mp hmem)]
    · rw [if_neg hmem, hrows.histories_none (hmem ∘ hbtc.mpr)]
  obtain ⟨cycle, after, btc, hcycle, hbtcState, hassembled⟩ :=
    analyzeOnce_stored hcanonical hstored hlimits save tickers profiles hdata
  obtain ⟨state, hloop, -⟩ := @replayLoop_ok (sortedBy rowKey rows) config service.config
    fun row hrow => hcanonical.formed _ (hrows.mem (mem_sortedBy.mp hrow))
  -- an assembled input, with the analyses of its own histories
  have hlive : ∀ live ∈ cycle.assembled, ∃ item histories analyses,
      Own candles config instant item histories ∧ live.symbol = item.profile.symbol ∧
      (tickers item.profile.symbol).isSome = true ∧
      (∀ timeframe, analyzeHistory service.config (histories timeframe) = .ok (analyses timeframe)) ∧
      analysisOfInput live = analyses ∧
      ∀ last, (histories .m5).getLast? = some last → last.closeTime = instant →
        evidenceOf live = evidenceFrom item.profile.symbol instant histories analyses btc := by
    intro live hmem
    obtain ⟨item, -, ⟨histories, hown⟩, ticker, hticker, hinput⟩ := (hassembled live).mp hmem
    obtain ⟨analyses, hanalyses, heq⟩ := hown.analyses service.config
    obtain ⟨input, hassembles, hsymbol, hof, hevidence⟩ :=
      strategyInput_own hown service analyses ticker btc
    rw [heq, hassembles] at hinput
    cases hinput
    exact ⟨item, histories, analyses, hown, hsymbol, hticker ▸ rfl, hanalyses, hof, hevidence⟩
  refine ⟨cycle, after, dataOf (sortedBy rowKey rows), state, hcycle, hloop, ?_, ?_⟩
  · intro profile hprofile hsymbol hcloses
    refine ⟨⟨?_, ?_⟩, ?_⟩
    · rintro ⟨live, hmem, hlivesymbol⟩
      obtain ⟨item, histories, -, hown, hitem, hticker, -⟩ := hlive live hmem
      rw [← hlivesymbol, hitem]
      rw [← hlivesymbol, hitem] at hsymbol hcloses
      exact ⟨hticker, evaluates_own hrows hsymbol hcanonical hcloses hown.found⟩
    · rintro ⟨hticker, replayed, hreplayed⟩
      obtain ⟨histories, -, hown, -⟩ := hreplayed.own hrows hsymbol hcanonical hcloses hbtcState
      obtain ⟨ticker, hticker⟩ := Option.isSome_iff_exists.mp hticker
      let item : PreparedSymbol := ⟨profile, serviceTimeframes.map histories⟩
      have hitem : Own candles config instant item histories := ⟨hown, rfl⟩
      obtain ⟨analyses, -, heq⟩ := hitem.analyses service.config
      obtain ⟨live, hinput, hlivesymbol, -⟩ := strategyInput_own hitem service analyses ticker btc
      rw [← heq] at hinput
      exact ⟨live, (hassembled live).mpr ⟨item, hprofile, ⟨histories, hitem⟩, ticker, hticker, hinput⟩,
        hlivesymbol⟩
    · intro live hmem hlivesymbol replayed hreplayed
      obtain ⟨item, histories, analyses, hown, hitem, -, hanalyses, -, hevidence⟩ := hlive live hmem
      obtain ⟨histories', analyses', hown', hanalyses', hevidence'⟩ :=
        hreplayed.own hrows hsymbol hcanonical hcloses hbtcState
      have hfound := hown.found
      rw [← hitem, hlivesymbol, hown'] at hfound
      cases hfound
      have hsame : analyses' = analyses := by
        funext timeframe
        have heq := hanalyses timeframe
        rw [hanalyses' timeframe] at heq
        exact Except.ok.inj heq
      obtain ⟨last, hlast, -⟩ := hown.last .m5
      rw [hevidence last hlast (hcloses.last hown' hlast), hevidence', hsame, ← hitem, hlivesymbol]
  · intro live hmem timeframe
    obtain ⟨item, histories, analyses, hown, hsymbol, -, hanalyses, hof, -⟩ := hlive live hmem
    refine ⟨histories timeframe, ?_, hof ▸ hanalyses timeframe⟩
    rw [hsymbol, hlimits.history, loadCandles_stored hcanonical hstored,
      (historiesFrom_some hown.found timeframe).1]

end Agreement

section Records
variable {candles : List Candle1m} {instant : Int} {symbol : Symbol} {timeframe : Timeframe}

/-- The aggregates of the candles of some symbols. -/
def recordsOf (candles : List Candle1m) (symbols : List Symbol) : List AggregatedCandle :=
  symbols.flatMap fun symbol =>
    serviceTimeframes.flatMap fun timeframe => aggregatesOf (candlesOf candles symbol) timeframe

theorem mem_aggregatesOf_own (hclosed : ∀ candle ∈ candles, candle.openTime + oneMinute ≤ instant)
    {aggregate : AggregatedCandle} (h : aggregate ∈ aggregatesOf (candlesOf candles symbol) timeframe) :
    aggregate.symbol = symbol ∧ aggregate.timeframe = timeframe ∧ aggregate.closeTime ≤ instant := by
  obtain ⟨start, hstart⟩ := mem_aggregatesOf h
  have hcovers := bucketAggregate_covers hstart
  obtain ⟨source, hsource, hsymbol⟩ := hcovers.symbol
  obtain ⟨last, hlast, hminute⟩ := hcovers.last
  refine ⟨hsymbol.trans (of_decide_eq_true (List.mem_filter.mp hsource).2), hcovers.ofTimeframe, ?_⟩
  rw [hcovers.closeTime, ← hminute]
  exact hclosed last (List.mem_filter.mp hlast).1

/-- The aggregates of candles that have all closed are what is stored of them. -/
theorem storedAt_recordsOf {symbols : List Symbol} (hnodup : symbols.Nodup)
    (hsymbols : ∀ candle ∈ candles, candle.symbol ∈ symbols)
    (hclosed : ∀ candle ∈ candles, candle.openTime + oneMinute ≤ instant) :
    StoredAt (recordsOf candles symbols) candles instant := by
  intro symbol timeframe
  have hframes : serviceTimeframes.Nodup ∧ timeframe ∈ serviceTimeframes := by
    cases timeframe <;> decide
  have hall : (aggregatesOf (candlesOf candles symbol) timeframe).filter (fun aggregate =>
      decide (aggregate.closeTime ≤ instant)) = aggregatesOf (candlesOf candles symbol) timeframe :=
    List.filter_eq_self.mpr fun aggregate haggregate =>
      decide_eq_true (mem_aggregatesOf_own hclosed haggregate).2.2
  -- first the rows of the symbol, and of these the ones of the timeframe
  have hsymbol := filter_flatMap_parts AggregatedCandle.symbol
    (fun symbol => serviceTimeframes.flatMap fun timeframe =>
      aggregatesOf (candlesOf candles symbol) timeframe)
    (fun _ record hrecord => by
      obtain ⟨_, -, hown⟩ := List.mem_flatMap.mp hrecord
      exact (mem_aggregatesOf_own hclosed hown).1) hnodup symbol
  have hframe := filter_flatMap_parts AggregatedCandle.timeframe
    (aggregatesOf (candlesOf candles symbol))
    (fun _ record hrecord => (mem_aggregatesOf_own hclosed hrecord).2.1) hframes.1 timeframe
  rw [if_pos hframes.2] at hframe
  have hrecords : (recordsOf candles symbols).filter (fun record =>
      decide (record.symbol = symbol ∧ record.timeframe = timeframe)) =
        aggregatesOf (candlesOf candles symbol) timeframe := by
    have hboth : (fun record : AggregatedCandle =>
        decide (record.symbol = symbol ∧ record.timeframe = timeframe)) = fun record =>
          decide (record.timeframe = timeframe) && decide (record.symbol = symbol) := by
      funext record
      rw [Bool.decide_and, Bool.and_comm]
    unfold recordsOf
    rw [hboth, ← List.filter_filter, hsymbol]
    split_ifs with hmem
    · exact hframe
    · have hnone : candlesOf candles symbol = [] :=
        List.filter_eq_nil_iff.mpr fun candle hcandle hc =>
          hmem (of_decide_eq_true hc ▸ hsymbols candle hcandle)
      rw [hnone]
      rfl
  rw [hall, hrecords]

end Records

section Sample

def sampleCandles : List Candle1m := intervalRows.map (·.candle)

def sampleRecords : List AggregatedCandle :=
  serviceTimeframes.flatMap fun timeframe => aggregatesOf sampleCandles timeframe

def sampleService : StrategyAnalysisService where
  historyCandles := 1
  minimumHistoryCandles := 1
  config := .standard

def sampleProfile : StrategySymbolProfile where
  symbol := "ETHUSDT"
  turnover24hUsdt := some 1000000
  spreadBps := some 1
  instrumentMaxLeverage := 100
  instrumentQuantityStep := 1 / 100
  instrumentMinNotional := 5

def sampleTicker : MarketTicker := { lastPrice := 100, openInterest := 1000, fundingRate := 0 }

theorem sampleCandles_canonical : Canonical sampleCandles where
  formed := by
    intro candle hcandle
    obtain ⟨row, hrow, rfl⟩ := List.mem_map.mp hcandle
    exact (mem_intervalRows hrow).1
  onMinutes := by
    intro candle hcandle
    obtain ⟨row, hrow, rfl⟩ := List.mem_map.mp hcandle
    exact (mem_intervalRows hrow).2
  distinct := List.pairwise_map.mpr (intervalRows_distinct.imp fun hne hsymbol htime =>
    hne (congrArg toLex (Prod.ext htime hsymbol)))

theorem mem_sampleCandles {candle : Candle1m} (h : candle ∈ sampleCandles) :
    candle.symbol = "ETHUSDT" ∧ candle.openTime + oneMinute ≤ minutes 240 := by
  obtain ⟨row, hrow, rfl⟩ := List.mem_map.mp h
  obtain ⟨i, hi, rfl⟩ := List.mem_map.mp hrow
  have hlt := List.mem_range.mp hi
  refine ⟨rfl, ?_⟩
  simp only [quietRow, minutes, oneMinute]
  omega

theorem sampleRecords_stored : StoredAt sampleRecords sampleCandles (minutes 240) := by
  have hown : candlesOf sampleCandles "ETHUSDT" = sampleCandles :=
    List.filter_eq_self.mpr fun candle hcandle => decide_eq_true (mem_sampleCandles hcandle).1
  have hrecords : recordsOf sampleCandles ["ETHUSDT"] = sampleRecords := by
    unfold recordsOf sampleRecords
    rw [List.flatMap_singleton, hown]
  rw [← hrecords]
  apply storedAt_recordsOf (List.nodup_singleton _)
  · intro candle hcandle
    rw [(mem_sampleCandles hcandle).1]
    exact List.mem_singleton_self _
  · exact fun candle hcandle => (mem_sampleCandles hcandle).2

theorem sampleRows_replay : ReplaysDataset intervalRows sampleCandles ["ETHUSDT"] := by
  refine List.Perm.of_eq (List.filter_eq_self.mpr fun candle hcandle => decide_eq_true ?_).symm
  rw [(mem_sampleCandles hcandle).1]
  exact List.mem_singleton_self _

theorem sample_closesAt : ClosesAt sampleCandles "ETHUSDT" (minutes 240) := by
  have hlast : ((seriesOf (candlesOf sampleCandles "ETHUSDT") .m5).getLast?.map Candle.closeTime) =
      some (minutes 240) := by decide +kernel
  obtain ⟨candle, hcandle, hclose⟩ := Option.map_eq_some_iff.mp hlast
  exact ⟨candle, List.mem_of_getLast? hcandle, hclose⟩

/-- A minute of a symbol whose extremes move every five minutes. -/
def pairedRow (symbol : Symbol) (i : Nat) : ReplayMarketRow where
  candle := { (quietRow (minutes i)).candle with
    symbol := symbol
    highPrice := 101 + (i / 5 % 7 : Nat)
    lowPrice := 99 - (i / 5 % 3 : Nat) }

/-- Two symbols from the fourth hour on; one minute of the first is missing, which withholds
the last 15m interval and the 5m interval within the history. -/
def pairedRows : List ReplayMarketRow :=
  ((List.range 495).filter fun i => decide (240 ≤ i ∧ i ≠ 482)).map (pairedRow "ETHUSDT") ++
    ((List.range 495).filter fun i => decide (240 ≤ i)).map (pairedRow "BTCUSDT")

def pairedCandles : List Candle1m := pairedRows.map (·.candle)

def pairedSymbols : List Symbol := ["BTCUSDT", "ETHUSDT"]

def pairedRecords : List AggregatedCandle := recordsOf pairedCandles pairedSymbols

def pairedHistory : ReplayConfig :=
  { shortHistory with historyCandles := 20, historyCandles_ge := Nat.succ_pos 19 }

def pairedService : StrategyAnalysisService := { sampleService with historyCandles := 20 }

def pairedProfiles : List StrategySymbolProfile :=
  [sampleProfile, { sampleProfile with symbol := "BTCUSDT" }]

theorem mem_pairedRows {row : ReplayMarketRow} (h : row ∈ pairedRows) :
    ∃ symbol ∈ pairedSymbols, ∃ i < 495, row = pairedRow symbol i := by
  rcases List.mem_append.mp h with h | h
  · obtain ⟨i, hi, rfl⟩ := List.mem_map.mp h
    exact ⟨"ETHUSDT", by decide, i, List.mem_range.mp (List.mem_filter.mp hi).1, rfl⟩
  · obtain ⟨i, hi, rfl⟩ := List.mem_map.mp h
    exact ⟨"BTCUSDT", by decide, i, List.mem_range.mp (List.mem_filter.mp hi).1, rfl⟩

theorem mem_pairedCandles {candle : Candle1m} (h : candle ∈ pairedCandles) :
    candle.symbol ∈ pairedSymbols ∧ candle.openTime + oneMinute ≤ minutes 495 := by
  obtain ⟨row, hrow, rfl⟩ := List.mem_map.mp h
  obtain ⟨symbol, hsymbol, i, hi, rfl⟩ := mem_pairedRows hrow
  refine ⟨hsymbol, ?_⟩
  simp only [pairedRow, quietRow, minutes, oneMinute]
  omega

theorem pairedRow_formed (symbol : Symbol) (i : Nat) : Formed (pairedRow symbol i).candle := by
  have hlow : ((i / 5 % 3 : Nat) : ℚ) ≤ 2 := by exact_mod_cast Nat.le_of_lt_succ (Nat.mod_lt _ (by omega))
  have hhigh : (0 : ℚ) ≤ (i / 5 % 7 : Nat) := Nat.cast_nonneg _
  constructor <;> simp only [pairedRow, quietRow] <;> linarith

theorem pairedCandles_canonical : Canonical pairedCandles where
  formed := by
    intro candle hcandle
    obtain ⟨row, hrow, rfl⟩ := List.mem_map.mp hcandle
    obtain ⟨symbol, -, i, -, rfl⟩ := mem_pairedRows hrow
    exact pairedRow_formed symbol i
  onMinutes := by
    intro candle hcandle
    obtain ⟨row, hrow, rfl⟩ := List.mem_map.mp hcandle
    obtain ⟨symbol, -, i, -, rfl⟩ := mem_pairedRows hrow
    exact Dvd.intro_left (i : Int) rfl
  distinct := by
    have hrange : ∀ (keep : Nat → Bool) (symbol : Symbol),
        (((List.range 495).filter keep).map (pairedRow symbol)).Pairwise fun a b =>
          a.candle.symbol = b.candle.symbol → a.candle.openTime ≠ b.candle.openTime := by
      intro keep symbol
      refine List.pairwise_map.mpr ((List.pairwise_lt_range.filter _).imp fun hij _ htime => ?_)
      simp only [pairedRow, quietRow, minutes, oneMinute] at htime
      omega
    refine List.pairwise_map.mpr (List.pairwise_append.mpr ⟨hrange _ _, hrange _ _, ?_⟩)
    intro first hfirst second hsecond hsymbol
    obtain ⟨i, -, rfl⟩ := List.mem_map.mp hfirst
    obtain ⟨j, -, rfl⟩ := List.mem_map.mp hsecond
    have hne : ("ETHUSDT" : Symbol) ≠ "BTCUSDT" := by decide
    exact absurd hsymbol hne

theorem pairedRecords_stored : StoredAt pairedRecords pairedCandles (minutes 495) :=
  storedAt_recordsOf (by decide) (fun _ h => (mem_pairedCandles h).1) fun _ h => (mem_pairedCandles h).2

theorem pairedRows_replay : ReplaysDataset pairedRows pairedCandles pairedSymbols :=
  List.Perm.of_eq (List.filter_eq_self.mpr fun _ h => decide_eq_true (mem_pairedCandles h).1).symm

theorem live_evidence_replayed_sample :
    ∃ cycle after data state,
      analyzeOnce pairedService (fun _ _ => some true) (fun _ => some sampleTicker) pairedRecords
        pairedProfiles = .ok (cycle, after) ∧
      replayLoop pairedService.config pairedHistory (sortedBy rowKey pairedRows) =
        .ok (data, state) ∧
      (∀ profile ∈ pairedProfiles, profile.symbol ∈ pairedSymbols →
        ClosesAt pairedCandles profile.symbol (minutes 495) →
        ((∃ live ∈ cycle.assembled, live.symbol = profile.symbol) ↔
          (some sampleTicker).isSome ∧ ∃ replayed,
            Evaluates data pairedService.config pairedHistory (minutes 495) profile.symbol replayed) ∧
        ∀ live ∈ cycle.assembled, live.symbol = profile.symbol →
          ∀ replayed,
            Evaluates data pairedService.config pairedHistory (minutes 495) profile.symbol replayed →
              evidenceOf live = evidenceOf replayed) ∧
      ∀ live ∈ cycle.assembled, ∀ timeframe, ∃ history,
        loadCandles pairedRecords live.symbol timeframe pairedService.historyCandles = .ok history ∧
          analyzeHistory pairedService.config history = .ok (analysisOfInput live timeframe) :=
  live_evidence_replayed pairedCandles_canonical pairedRecords_stored pairedRows_replay ⟨rfl, rfl⟩
    (fun _ _ => some true) (fun _ => some sampleTicker) pairedProfiles (by decide)

/-- The cycle gives both symbols an input, with the BTC state among them. -/
example :
    ((analyzeOnce pairedService (fun _ _ => some true) (fun _ => some sampleTicker) pairedRecords
      pairedProfiles).toOption.map fun cycle => cycle.1.assembled.map (·.symbol)) =
        some ["ETHUSDT", "BTCUSDT"] := by
  decide +kernel

/-- A replay evaluates a symbol whose ticker is missing, the live cycle skips it. -/
theorem replay_evaluates_without_ticker :
    Canonical sampleCandles ∧ StoredAt sampleRecords sampleCandles (minutes 240) ∧
    ReplaysDataset intervalRows sampleCandles ["ETHUSDT"] ∧ SameLimits sampleService shortHistory ∧
    ("BTCUSDT" ∈ [sampleProfile].map StrategySymbolProfile.symbol ↔ "BTCUSDT" ∈ ["ETHUSDT"]) ∧
    ClosesAt sampleCandles "ETHUSDT" (minutes 240) ∧
    (analyzeOnce sampleService (fun _ _ => some true) (fun _ => none) sampleRecords
      [sampleProfile]).toOption.map (fun cycle => cycle.1.assembled) = some [] ∧
    ∃ replayed, Evaluates (dataOf (sortedBy rowKey intervalRows)) sampleService.config shortHistory
      (minutes 240) "ETHUSDT" replayed := by
  refine ⟨sampleCandles_canonical, sampleRecords_stored, sampleRows_replay, ⟨rfl, rfl⟩, by decide,
    sample_closesAt, by decide +kernel, ?_⟩
  have hown : (ownHistories sampleCandles shortHistory (minutes 240) "ETHUSDT").isSome = true := by
    decide +kernel
  obtain ⟨histories, hown⟩ := Option.isSome_iff_exists.mp hown
  exact evaluates_own sampleRows_replay (List.mem_singleton_self _) sampleCandles_canonical
    sample_closesAt hown

end Sample

end StructurePulse.Analysis
