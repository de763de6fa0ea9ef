import StructurePulse.Aggregation.Exactness
import StructurePulse.Analysis.StrategyService
import StructurePulse.Replay.Chronology

/-!
# A live cycle over a stored dataset

When the aggregates that have closed by an instant are stored and no others, the last rows
of a series are the history of the series at that instant. The cycle then prepares exactly
the profiles with enough history and groups the analyses of their own histories.
-/

namespace StructurePulse.Analysis
open Library SMC Strategy Aggregation Replay
set_option autoImplicit false

section Stored
variable {candles : List Candle1m} {symbol : Symbol} {timeframe : Timeframe} {instant : Int}

/-- A 1m dataset: well-formed candles that open on whole minutes, each minute of a symbol
once. -/
structure Canonical (candles : List Candle1m) : Prop where
  formed : ∀ candle ∈ candles, Formed candle
  onMinutes : ∀ candle ∈ candles, oneMinute ∣ candle.openTime
  distinct : candles.Pairwise fun a b => a.symbol = b.symbol → a.openTime ≠ b.openTime

def candlesOf (candles : List Candle1m) (symbol : Symbol) : List Candle1m :=
  candles.filter fun candle => decide (candle.symbol = symbol)

/-- The aggregates of a series, in the order of their intervals. -/
def aggregatesOf (candles : List Candle1m) (timeframe : Timeframe) : List AggregatedCandle :=
  (bucketStarts candles timeframe).filterMap (bucketAggregate candles timeframe)

/-- The rows hold the aggregates of the intervals that have closed by an instant, and no
others. -/
def StoredAt (records : List AggregatedCandle) (candles : List Candle1m) (instant : Int) : Prop :=
  ∀ symbol timeframe,
    (records.filter fun record => decide (record.symbol = symbol ∧ record.timeframe = timeframe)).Perm
      ((aggregatesOf (candlesOf candles symbol) timeframe).filter fun aggregate =>
        decide (aggregate.closeTime ≤ instant))

theorem Canonical.own_formed (h : Canonical candles) (symbol : Symbol) :
    ∀ candle ∈ candlesOf candles symbol, Formed candle :=
  fun candle hcandle => h.formed candle (List.mem_filter.mp hcandle).1

theorem mem_aggregatesOf {aggregate : AggregatedCandle} (h : aggregate ∈ aggregatesOf candles timeframe) :
    ∃ start, bucketAggregate candles timeframe start = some aggregate := by
  obtain ⟨start, -, hstart⟩ := List.mem_filterMap.mp h
  exact ⟨start, hstart⟩

theorem aggregatesOf_increasing :
    (aggregatesOf candles timeframe).Pairwise fun a b => a.openTime < b.openTime := by
  have hstarts : (bucketStarts candles timeframe).Pairwise fun a b => a < b := by
    unfold bucketStarts
    exact sortedBy_increasing id (List.nodup_dedup _)
  refine List.Pairwise.filterMap _ (fun a b hab x hx y hy => ?_) hstarts
  rw [(bucketAggregate_covers hx).openTime, (bucketAggregate_covers hy).openTime]
  exact hab

/-- The series is made of the aggregates. -/
theorem seriesOf_eq_aggregates :
    seriesOf candles timeframe =
      (aggregatesOf candles timeframe).filterMap fun aggregate => (smcCandle aggregate).toOption := by
  unfold aggregatesOf
  rw [List.filterMap_filterMap]
  rfl

/-- The last stored rows of a series are its history. -/
theorem loadCandles_stored {records : List AggregatedCandle} (hcanonical : Canonical candles)
    (hstored : StoredAt records candles instant) (config : ReplayConfig) (symbol : Symbol)
    (timeframe : Timeframe) :
    loadCandles records symbol timeframe config.historyCandles =
      .ok (historyAt (seriesOf (candlesOf candles symbol) timeframe) instant config) := by
  let closed := (aggregatesOf (candlesOf candles symbol) timeframe).filter fun aggregate =>
    decide (aggregate.closeTime ≤ instant)
  have hincreasing : closed.reverse.Pairwise fun a b =>
      OrderDual.toDual a.openTime < OrderDual.toDual b.openTime :=
    List.pairwise_reverse.mpr (aggregatesOf_increasing.filter _)
  have hrows : sortedBy (fun record : AggregatedCandle => OrderDual.toDual record.openTime)
      (records.filter fun record => decide (record.symbol = symbol ∧ record.timeframe = timeframe)) =
        closed.reverse := by
    have hperm := (hstored symbol timeframe).trans (List.reverse_perm closed).symm
    rw [sortedBy_eq_of_perm hperm (hincreasing.imp ne_of_lt),
      sortedBy_of_pairwise (hincreasing.imp le_of_lt)]
  have hok : ∀ aggregate ∈ aggregatesOf (candlesOf candles symbol) timeframe,
      ∃ candle, smcCandle aggregate = .ok candle := by
    intro aggregate haggregate
    obtain ⟨start, hstart⟩ := mem_aggregatesOf haggregate
    exact smcCandle_bucketAggregate (hcanonical.own_formed symbol) hstart
  have hsome : ∀ aggregate ∈ closed, (smcCandle aggregate).toOption.isSome = true := by
    intro aggregate haggregate
    obtain ⟨candle, hcandle⟩ := hok aggregate (List.mem_filter.mp haggregate).1
    rw [hcandle]
    rfl
  have hclosed : closed.filterMap (fun aggregate => (smcCandle aggregate).toOption) =
      (seriesOf (candlesOf candles symbol) timeframe).filter fun candle =>
        decide (candle.closeTime ≤ instant) := by
    rw [seriesOf_eq_aggregates]
    refine filterMap_filter_of_eq (fun _ _ _ => rfl) fun aggregate haggregate candle hcandle => ?_
    obtain ⟨_, hok⟩ := hok aggregate haggregate
    rw [hok] at hcandle
    cases hcandle
    rw [(smcCandle_eq hok).2.2.2]
  unfold loadCandles
  simp only [hrows]
  rw [List.take_reverse, List.reverse_reverse, mapM_eq_filterMap, filterMap_drop hsome, hclosed,
    historyAt_eq seriesOf_closes_increasing, ← hclosed, List.filterMap_length_eq_length.mpr hsome]
  exact fun aggregate haggregate =>
    hok aggregate (List.mem_filter.mp (List.mem_of_mem_drop haggregate)).1

end Stored

section Prepared
variable {candles : List Candle1m} {records : List AggregatedCandle} {instant : Int}
variable {config : ReplayConfig} {service : StrategyAnalysisService}

/-- The histories of a symbol at an instant, if they are all long enough. -/
def ownHistories (candles : List Candle1m) (config : ReplayConfig) (instant : Int) (symbol : Symbol) :
    Option (Timeframe → List Candle) :=
  historiesFrom (seriesOf (candlesOf candles symbol)) config instant

def preparedOf (candles : List Candle1m) (config : ReplayConfig) (instant : Int)
    (profile : StrategySymbolProfile) : Option PreparedSymbol :=
  (ownHistories candles config instant profile.symbol).map fun histories =>
    { profile := profile, candles := serviceTimeframes.map histories }

/-- The limits of the service are those of a replay. -/
structure SameLimits (service : StrategyAnalysisService) (config : ReplayConfig) : Prop where
  history : service.historyCandles = config.historyCandles
  minimum : service.minimumHistoryCandles = config.minimumHistoryCandles

theorem prepareSymbol_eq (hcanonical : Canonical candles) (hstored : StoredAt records candles instant)
    (hlimits : SameLimits service config) (profile : StrategySymbolProfile) :
    prepareSymbol service records profile = .ok (preparedOf candles config instant profile) := by
  have hloads : serviceTimeframes.mapM (fun timeframe =>
      loadCandles records profile.symbol timeframe service.historyCandles) =
        .ok (serviceTimeframes.map fun timeframe =>
          historyAt (seriesOf (candlesOf candles profile.symbol) timeframe) instant config) := by
    rw [hlimits.history]
    exact mapM_eq_map fun timeframe _ => loadCandles_stored hcanonical hstored config _ timeframe
  unfold prepareSymbol
  rw [hloads, ok_bind, hlimits.minimum]
  unfold preparedOf ownHistories historiesFrom
  by_cases hall : runnerTimeframes.all (fun timeframe => decide (config.minimumHistoryCandles ≤
      (historyAt (seriesOf (candlesOf candles profile.symbol) timeframe) instant config).length)) = true
  · rw [if_pos hall, if_neg]
    · rfl
    · rw [List.any_map, Bool.not_eq_true, List.any_eq_false]
      intro timeframe htimeframe hshort
      have hlong := of_decide_eq_true (List.all_eq_true.mp hall timeframe htimeframe)
      exact absurd hlong (not_le.mpr (of_decide_eq_true hshort))
  · rw [if_neg hall, if_pos]
    · rfl
    · rw [Bool.not_eq_true, List.all_eq_false] at hall
      obtain ⟨timeframe, htimeframe, hshort⟩ := hall
      rw [decide_eq_true_eq, not_le] at hshort
      exact List.any_eq_true.mpr
        ⟨_, List.mem_map_of_mem htimeframe, decide_eq_true hshort⟩

theorem prepareSymbols_eq (hcanonical : Canonical candles)
    (hstored : StoredAt records candles instant) (hlimits : SameLimits service config)
    (profiles : List StrategySymbolProfile) :
    prepareSymbols service records profiles =
      .ok (profiles.filterMap (preparedOf candles config instant)) := by
  unfold prepareSymbols
  rw [mapM_eq_map fun profile _ => prepareSymbol_eq hcanonical hstored hlimits profile, ok_bind,
    List.filterMap_map]
  rfl

/-- A prepared item holds the histories of its own symbol. -/
structure Own (candles : List Candle1m) (config : ReplayConfig) (instant : Int)
    (item : PreparedSymbol) (histories : Timeframe → List Candle) : Prop where
  found : ownHistories candles config instant item.profile.symbol = some histories
  candles : item.candles = serviceTimeframes.map histories

theorem mem_prepared {profiles : List StrategySymbolProfile} {item : PreparedSymbol} :
    item ∈ profiles.filterMap (preparedOf candles config instant) ↔
      item.profile ∈ profiles ∧ ∃ histories, Own candles config instant item histories := by
  rw [List.mem_filterMap]
  constructor
  · rintro ⟨profile, hprofile, hitem⟩
    obtain ⟨histories, hfound, rfl⟩ := Option.map_eq_some_iff.mp hitem
    exact ⟨hprofile, histories, hfound, rfl⟩
  · rintro ⟨hprofile, histories, hown⟩
    refine ⟨item.profile, hprofile, Option.map_eq_some_iff.mpr ⟨histories, hown.found, ?_⟩⟩
    rw [← hown.candles]

end Prepared

section Grouped
variable {candles : List Candle1m} {instant : Int} {config : ReplayConfig}
variable {settings : StrategyConfig} {item other : PreparedSymbol}
variable {histories : Timeframe → List Candle} {prepared : List PreparedSymbol}

/-- The analyses of the item's own candles. -/
def ownAnalyses (settings : StrategyConfig) (item : PreparedSymbol) : List SMCAnalysis :=
  item.candles.filterMap fun candles => (analyzeHistory settings candles).toOption

/-- The analyses of the histories of a symbol, by timeframe. -/
theorem analyses_of_ownHistories (settings : StrategyConfig) {symbol : Symbol}
    (h : ownHistories candles config instant symbol = some histories) :
    ∃ analyses : Timeframe → SMCAnalysis,
      ∀ timeframe, analyzeHistory settings (histories timeframe) = .ok (analyses timeframe) :=
  Classical.skolem.mp (analyzeHistory_own settings
    (fun _ hcandle => of_decide_eq_true (List.mem_filter.mp hcandle).2) h)

theorem Own.analyses (h : Own candles config instant item histories) (settings : StrategyConfig) :
    ∃ analyses : Timeframe → SMCAnalysis,
      (∀ timeframe, analyzeHistory settings (histories timeframe) = .ok (analyses timeframe)) ∧
        ownAnalyses settings item = serviceTimeframes.map analyses := by
  obtain ⟨analyses, hanalyses⟩ := analyses_of_ownHistories settings h.found
  refine ⟨analyses, hanalyses, ?_⟩
  unfold ownAnalyses
  rw [h.candles, List.filterMap_map, ← List.filterMap_eq_map]
  refine List.filterMap_congr fun timeframe _ => ?_
  simp only [Function.comp_apply, hanalyses timeframe]
  rfl

theorem Own.eq_of_symbol {others : Timeframe → List Candle} (h : Own candles config instant item histories)
    (ho : Own candles config instant other others) (hsymbol : other.profile.symbol = item.profile.symbol) :
    other.candles = item.candles := by
  have hsame := h.found
  rw [← hsymbol, ho.found] at hsame
  cases hsame
  rw [ho.candles, h.candles]

variable (hown : ∀ item ∈ prepared, ∃ histories, Own candles config instant item histories)
include hown

theorem analyzeBatch_eq (service : StrategyAnalysisService) :
    analyzeBatch (batchRequests service prepared) =
      .ok (prepared.flatMap (ownAnalyses service.config)) := by
  unfold analyzeBatch batchRequests
  rw [mapM_eq_filterMap, List.filterMap_flatMap]
  · simp only [List.filterMap_map]
    rfl
  · intro request hrequest
    obtain ⟨item, hitem, hmem⟩ := List.mem_flatMap.mp hrequest
    obtain ⟨history, hhistory, rfl⟩ := List.mem_map.mp hmem
    obtain ⟨histories, h⟩ := hown item hitem
    rw [h.candles] at hhistory
    obtain ⟨timeframe, -, rfl⟩ := List.mem_map.mp hhistory
    obtain ⟨analyses, hanalyses, -⟩ := h.analyses service.config
    exact ⟨_, hanalyses timeframe⟩

/-- The flat batch is regrouped to the symbols it came from. -/
theorem groupedAnalyses_eq (hitem : item ∈ prepared) :
    groupedAnalyses prepared (prepared.flatMap (ownAnalyses settings)) item.profile.symbol =
      some (ownAnalyses settings item) := by
  have hlength : ∀ item ∈ prepared, (ownAnalyses settings item).length = serviceTimeframes.length := by
    intro item hitem
    obtain ⟨histories, h⟩ := hown item hitem
    obtain ⟨analyses, -, heq⟩ := h.analyses settings
    rw [heq, List.length_map]
  unfold groupedAnalyses
  cases hfound : prepared.zipIdx.reverse.find? fun entry =>
      decide (entry.1.profile.symbol = item.profile.symbol) with
  | none =>
    obtain ⟨index, hindex⟩ := List.mem_iff_getElem?.mp hitem
    have hmem : (item, index) ∈ prepared.zipIdx.reverse :=
      List.mem_reverse.mpr (List.mem_zipIdx_iff_getElem?.mpr hindex)
    exact absurd (decide_eq_true rfl) (List.find?_eq_none.mp hfound _ hmem)
  | some entry =>
    have hsymbol : entry.1.profile.symbol = item.profile.symbol := by
      simpa using List.find?_some hfound
    have hentry : prepared[entry.2]? = some entry.1 :=
      List.mem_zipIdx_iff_getElem?.mp (List.mem_reverse.mp (List.mem_of_find?_eq_some hfound))
    obtain ⟨histories, h⟩ := hown item hitem
    obtain ⟨others, ho⟩ := hown entry.1 (List.mem_of_getElem? hentry)
    have hsame : ownAnalyses settings entry.1 = ownAnalyses settings item := by
      unfold ownAnalyses
      rw [h.eq_of_symbol ho hsymbol]
    rw [Option.map_some, batchSlice, slice_flatMap hlength hentry, hsame]

end Grouped

section Evidence
variable {candles : List Candle1m} {instant : Int} {config : ReplayConfig}
variable {item : PreparedSymbol} {histories : Timeframe → List Candle}

/-- What an input says of the candles. -/
structure Evidence where
  symbol : Symbol
  analyzedAt : Int
  analyses : Timeframe → SMCAnalysis
  inputCutoffs : List (Timeframe × Int)
  volumeRatio : Option ℚ
  btc5mReturn : Option ℚ
  btcTrueRangeAtrRatio : Option ℚ

def analysisOfInput (input : StrategyInput) : Timeframe → SMCAnalysis
  | .m5 => input.analysis5m
  | .m15 => input.analysis15m
  | .h1 => input.analysis1h
  | .h4 => input.analysis4h

def evidenceOf (input : StrategyInput) : Evidence where
  symbol := input.symbol
  analyzedAt := input.analyzedAt
  analyses := analysisOfInput input
  inputCutoffs := input.inputCutoffs
  volumeRatio := input.market.volumeRatio
  btc5mReturn := input.market.btc5mReturn
  btcTrueRangeAtrRatio := input.market.btcTrueRangeAtrRatio

/-- What the histories of a symbol at an instant say. -/
def evidenceFrom (symbol : Symbol) (instant : Int) (histories : Timeframe → List Candle)
    (analyses : Timeframe → SMCAnalysis) (btc : BtcState) : Evidence where
  symbol := symbol
  analyzedAt := instant
  analyses := analyses
  inputCutoffs := inputCutoffs histories
  volumeRatio := latestVolumeRatio (histories .m15) 20
  btc5mReturn := btc.1
  btcTrueRangeAtrRatio := btc.2

/-- The last candle of each history, which has closed. -/
theorem Own.last (h : Own candles config instant item histories) (timeframe : Timeframe) :
    ∃ last, (histories timeframe).getLast? = some last ∧ last.closeTime ≤ instant := by
  obtain ⟨heq, hne⟩ := historiesFrom_some h.found timeframe
  refine ⟨_, List.getLast?_eq_some_getLast hne, ?_⟩
  have hmem := List.getLast_mem hne
  simp only [heq] at hmem ⊢
  exact (mem_historyAt seriesOf_closes_increasing hmem).2

/-- The input of an item, from the analyses of its own candles. -/
theorem strategyInput_own (h : Own candles config instant item histories)
    (service : StrategyAnalysisService) (analyses : Timeframe → SMCAnalysis) (ticker : MarketTicker)
    (btc : BtcState) :
    ∃ input, strategyInput service item (serviceTimeframes.map analyses) ticker btc = some input ∧
      input.symbol = item.profile.symbol ∧ analysisOfInput input = analyses ∧
      ∀ last, (histories .m5).getLast? = some last → last.closeTime = instant →
        evidenceOf input = evidenceFrom item.profile.symbol instant histories analyses btc := by
  obtain ⟨last4h, h4, hclosed4⟩ := h.last .h4
  obtain ⟨last1h, h1, hclosed1⟩ := h.last .h1
  obtain ⟨last15m, h15, hclosed15⟩ := h.last .m15
  obtain ⟨last5m, h5, hclosed5⟩ := h.last .m5
  have hanalyses : ∀ input : StrategyInput, input.analysis4h = analyses .h4 →
      input.analysis1h = analyses .h1 → input.analysis15m = analyses .m15 →
      input.analysis5m = analyses .m5 → analysisOfInput input = analyses := by
    intro input e4 e1 e15 e5
    funext timeframe
    cases timeframe with
    | m5 => exact e5
    | m15 => exact e15
    | h1 => exact e1
    | h4 => exact e4
  unfold strategyInput
  rw [h.candles]
  simp only [serviceTimeframes, List.map_cons, List.map_nil, h4, h1, h15, h5, Option.bind_eq_bind,
    Option.bind_some]
  refine ⟨_, rfl, rfl, hanalyses _ rfl rfl rfl rfl, fun last hlast hcloses => ?_⟩
  cases hlast
  have hmax : max (max (max last4h.closeTime last1h.closeTime) last15m.closeTime) last5m.closeTime =
      instant := by
    rw [hcloses]
    exact max_eq_right (max_le (max_le hclosed4 hclosed1) hclosed15)
  unfold evidenceOf evidenceFrom
  rw [hanalyses _ rfl rfl rfl rfl]
  simp only [hmax, inputCutoffs, runnerTimeframes, List.filterMap_cons, List.filterMap_nil, h4, h1,
    h15, h5, Option.map_some]

end Evidence

section Bitcoin
variable {candles : List Candle1m} {instant : Int} {config : ReplayConfig}
variable {settings : StrategyConfig} {prepared : List PreparedSymbol}

/-- The BTC state of the cycle is the one of a replay at the instant. -/
theorem btcState_eq (hown : ∀ item ∈ prepared, ∃ histories, Own candles config instant item histories)
    {data : ReplayData}
    (hfound : ∀ item ∈ prepared, ∀ histories, item.profile.symbol = "BTCUSDT" →
      Own candles config instant item histories →
        historiesAt data config "BTCUSDT" instant = some histories)
    (hnone : (∀ item ∈ prepared, item.profile.symbol ≠ "BTCUSDT") →
      historiesAt data config "BTCUSDT" instant = none) :
    ∃ btc, btcState prepared (groupedAnalyses prepared
        (prepared.flatMap (ownAnalyses settings))) = .ok btc ∧
      btcStateAt data config settings instant = .ok btc := by
  unfold btcState btcStateAt
  cases hfind : prepared.find? fun item => decide (item.profile.symbol = "BTCUSDT") with
  | none =>
    rw [hnone fun item hitem hsymbol =>
      List.find?_eq_none.mp hfind item hitem (decide_eq_true hsymbol)]
    exact ⟨_, rfl, rfl⟩
  | some item =>
    have hitem := List.mem_of_find?_eq_some hfind
    have hsymbol : item.profile.symbol = "BTCUSDT" := by simpa using List.find?_some hfind
    obtain ⟨histories, h⟩ := hown item hitem
    obtain ⟨analyses, hanalyses, heq⟩ := h.analyses settings
    obtain ⟨last, hlast, -⟩ := h.last .m5
    have hgrouped := @groupedAnalyses_eq _ _ _ settings _ _ hown hitem
    rw [hsymbol, heq] at hgrouped
    have hlast5m : (item.candles[3]?).bind List.getLast? = some last := by
      rw [h.candles]
      exact hlast
    have hanalysis5m : (serviceTimeframes.map analyses)[3]? = some (analyses .m5) := rfl
    rw [hfound item hitem histories hsymbol h]
    simp only [hgrouped, hlast5m, hanalysis5m, hlast, hanalyses]
    exact ⟨_, rfl, rfl⟩

end Bitcoin

section Inputs
variable {service : StrategyAnalysisService} {save : SaveAnalysis}
variable {tickers : Symbol → Option MarketTicker}

/-- The input assembled for an item, if it has a ticker and nothing raises. -/
def assembledInput (service : StrategyAnalysisService) (tickers : Symbol → Option MarketTicker)
    (grouped : Symbol → Option (List SMCAnalysis)) (btc : BtcState) (item : PreparedSymbol) :
    Option StrategyInput :=
  (tickers item.profile.symbol).bind fun ticker =>
    strategyInput service item ((grouped item.profile.symbol).getD []) ticker btc

theorem strategyInput_length {item : PreparedSymbol} {analyses : List SMCAnalysis}
    {ticker : MarketTicker} {btc : BtcState} (h : analyses.length ≠ serviceTimeframes.length) :
    strategyInput service item analyses ticker btc = none := by
  unfold strategyInput
  split
  · exact absurd rfl h
  · rfl

theorem analyzeSymbol_assembled (grouped : Symbol → Option (List SMCAnalysis)) (btc : BtcState)
    (cycle : Cycle) (item : PreparedSymbol) :
    (analyzeSymbol service save tickers grouped btc cycle item).assembled =
      cycle.assembled ++ (assembledInput service tickers grouped btc item).toList := by
  unfold analyzeSymbol assembledInput
  cases tickers item.profile.symbol with
  | none => exact (List.append_nil _).symm
  | some ticker =>
    simp only [Option.bind_some]
    by_cases hlength : ((grouped item.profile.symbol).getD []).length ≠ serviceTimeframes.length
    · rw [if_pos hlength, strategyInput_length hlength]
      exact (List.append_nil _).symm
    · rw [if_neg hlength]
      cases strategyInput service item ((grouped item.profile.symbol).getD []) ticker btc with
      | none => exact (List.append_nil _).symm
      | some input =>
        simp only
        cases save input (evaluateCandidates input service.config) with
        | none => rfl
        | some created => cases created <;> rfl

/-- The loop assembles an input for each item that gets one, in order. -/
theorem foldl_assembled (grouped : Symbol → Option (List SMCAnalysis)) (btc : BtcState)
    (prepared : List PreparedSymbol) (cycle : Cycle) :
    (prepared.foldl (analyzeSymbol service save tickers grouped btc) cycle).assembled =
      cycle.assembled ++ prepared.filterMap (assembledInput service tickers grouped btc) := by
  induction prepared generalizing cycle with
  | nil => exact (List.append_nil _).symm
  | cons item prepared ih =>
    rw [List.foldl_cons, ih, analyzeSymbol_assembled, List.append_assoc]
    congr 1
    rw [List.filterMap_cons]
    cases assembledInput service tickers grouped btc item <;> rfl

end Inputs

section Cycle
variable {candles : List Candle1m} {records : List AggregatedCandle} {instant : Int}
variable {config : ReplayConfig} {service : StrategyAnalysisService}

/-- An input that the cycle assembles: the item holds the histories of its own symbol, and its
analyses are theirs. -/
structure AssembledFrom (candles : List Candle1m) (config : ReplayConfig) (instant : Int)
    (service : StrategyAnalysisService) (tickers : Symbol → Option MarketTicker) (btc : BtcState)
    (item : PreparedSymbol) (input : StrategyInput) : Prop where
  own : ∃ histories, Own candles config instant item histories
  assembled : ∃ ticker, tickers item.profile.symbol = some ticker ∧
    strategyInput service item (ownAnalyses service.config item) ticker btc = some input

/-- A cycle over the stored aggregates does not raise. -/
theorem analyzeOnce_stored (hcanonical : Canonical candles) (hstored : StoredAt records candles instant)
    (hlimits : SameLimits service config) (save : SaveAnalysis)
    (tickers : Symbol → Option MarketTicker) (profiles : List StrategySymbolProfile)
    {data : ReplayData}
    (hdata : historiesAt data config "BTCUSDT" instant =
      if "BTCUSDT" ∈ profiles.map StrategySymbolProfile.symbol then
        ownHistories candles config instant "BTCUSDT"
      else none) :
    ∃ cycle after btc, analyzeOnce service save tickers records profiles = .ok (cycle, after) ∧
      btcStateAt data config service.config instant = .ok btc ∧
      ∀ input, input ∈ cycle.assembled ↔
        ∃ item, item.profile ∈ profiles ∧
          AssembledFrom candles config instant service tickers btc item input := by
  let prepared := profiles.filterMap (preparedOf candles config instant)
  have hown : ∀ item ∈ prepared, ∃ histories, Own candles config instant item histories :=
    fun item hitem => (mem_prepared.mp hitem).2
  obtain ⟨btc, hbtc, hreplayed⟩ := @btcState_eq _ _ _ service.config _ hown data
    (fun item hitem histories hsymbol h => by
      rw [hdata, if_pos (List.mem_map.mpr ⟨_, (mem_prepared.mp hitem).1, hsymbol⟩), ← hsymbol,
        h.found])
    (fun hnone => by
      rw [hdata]
      split_ifs with hmem
      · obtain ⟨profile, hprofile, hsymbol⟩ := List.mem_map.mp hmem
        refine Option.eq_none_iff_forall_ne_some.mpr fun histories hfound => ?_
        rw [← hsymbol] at hfound
        exact hnone ⟨profile, serviceTimeframes.map histories⟩
          (mem_prepared.mpr ⟨hprofile, histories, hfound, rfl⟩) hsymbol
      · rfl)
  let grouped := groupedAnalyses prepared (prepared.flatMap (ownAnalyses service.config))
  have hgrouped : ∀ item ∈ prepared,
      grouped item.profile.symbol = some (ownAnalyses service.config item) :=
    fun item hitem => groupedAnalyses_eq hown hitem
  have hrun : ∃ after, analyzeOnce service save tickers records profiles =
      .ok (prepared.foldl (analyzeSymbol service save tickers grouped btc) {}, after) := by
    unfold analyzeOnce
    rw [prepareSymbols_eq hcanonical hstored hlimits profiles]
    simp only [Except.mapError, ok_bind]
    rw [analyzeBatch_eq hown]
    simp only [ok_bind]
    rw [hbtc]
    exact ⟨_, rfl⟩
  obtain ⟨after, hrun⟩ := hrun
  refine ⟨_, after, btc, hrun, hreplayed, fun input => ?_⟩
  rw [foldl_assembled, List.nil_append, List.mem_filterMap]
  constructor
  · rintro ⟨item, hitem, hinput⟩
    obtain ⟨ticker, hticker, hinput⟩ := Option.bind_eq_some_iff.mp hinput
    rw [hgrouped item hitem] at hinput
    exact ⟨item, (mem_prepared.mp hitem).1, hown item hitem, ticker, hticker, hinput⟩
  · rintro ⟨item, hprofile, ⟨histories, h⟩, ticker, hticker, hinput⟩
    have hitem : item ∈ prepared := mem_prepared.mpr ⟨hprofile, histories, h⟩
    refine ⟨item, hitem, Option.bind_eq_some_iff.mpr ⟨ticker, hticker, ?_⟩⟩
    rw [hgrouped item hitem]
    exact hinput

end Cycle

end StructurePulse.Analysis
