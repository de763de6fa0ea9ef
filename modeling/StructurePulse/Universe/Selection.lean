import StructurePulse.Library.FirstUses
import StructurePulse.Universe.Policy
import Mathlib.Data.List.Perm.Basic

/-!
# The selection as a greedy walk

Which contract an asset can bring in does not depend on what was selected before. The selected
contracts are the first ones met on the walk by rank, each once.
-/

namespace StructurePulse.Universe
open Library
set_option autoImplicit false

section Walk
variable (upper lower : String → String) (config : UniversePolicyConfig)
variable (instruments : List Instrument) (tickers : Symbol → Option MarketTicker) (now : Int)

/-- The contract of an asset that passes classification, resolution, history, turnover and
spread. -/
def eligibleContract (asset : MarketAsset) : Option Symbol :=
  if (classify upper lower config asset).isSome then none
  else do
    let instrument ← resolveInstrument upper instruments asset.symbol
    let ticker ← tickers instrument.symbol
    if qualityReason config instrument ticker now = none then some instrument.symbol else none

/-- The contracts met on a walk over the assets, each kept once. -/
def keptContracts (assets : List MarketAsset) : List Symbol :=
  firstUses (eligibleContract upper lower config instruments tickers now) id [] assets

end Walk

section Decisions
variable {upper lower : String → String} {config : UniversePolicyConfig}
variable {instruments : List Instrument} {tickers : Symbol → Option MarketTicker} {now : Int}

/-- An eligible contract is that of an unclassified asset, old enough, traded enough, and with a
spread within the bounds. -/
theorem eligibleContract_eq_some_iff {asset : MarketAsset} {symbol : Symbol} :
    eligibleContract upper lower config instruments tickers now asset = some symbol ↔
      classify upper lower config asset = none ∧
        ∃ instrument ticker spread,
          resolveInstrument upper instruments asset.symbol = some instrument ∧
          tickers instrument.symbol = some ticker ∧ instrument.symbol = symbol ∧
          instrument.launchTime ≤ now - config.minTradingHistoryDays * oneDay ∧
          config.minTurnover24hUsdt ≤ ticker.turnover24h ∧
          ticker.spreadBps = some spread ∧ 0 ≤ spread ∧ spread ≤ config.maxSpreadBps := by
  unfold eligibleContract
  cases hclass : classify upper lower config asset with
  | some reason => simp
  | none =>
    cases hinstrument : resolveInstrument upper instruments asset.symbol with
    | none => simp
    | some instrument =>
      cases hticker : tickers instrument.symbol with
      | none => simp [hticker]
      | some ticker =>
        simp only [Option.isSome_none, Bool.false_eq_true, if_false, Option.bind_eq_bind,
          Option.bind_some, hticker, Option.ite_none_right_eq_some, Option.some.injEq,
          qualityReason_eq_none_iff, true_and]
        constructor
        · rintro ⟨⟨hage, hturnover, spread, hspread⟩, hsymbol⟩
          exact ⟨instrument, ticker, spread, rfl, hticker, hsymbol, hage, hturnover, hspread⟩
        · rintro ⟨_, _, spread, rfl, hfound, hsymbol, hage, hturnover, hspread⟩
          rw [hticker, Option.some.injEq] at hfound
          subst hfound
          exact ⟨⟨hage, hturnover, spread, hspread⟩, hsymbol⟩

/-- An asset brings in its contract unless it is selected already or the universe is full. -/
theorem selectedSymbol_decideAsset (selected : List Symbol) (asset : MarketAsset) :
    selectedSymbol (decideAsset upper lower config instruments tickers now selected asset) =
      (eligibleContract upper lower config instruments tickers now asset).filter fun symbol =>
        decide (symbol ∉ selected ∧ selected.length < config.size) := by
  unfold decideAsset eligibleContract
  cases hclass : classify upper lower config asset with
  | some reason => rfl
  | none =>
    cases hinstrument : resolveInstrument upper instruments asset.symbol with
    | none => rfl
    | some instrument =>
      cases hticker : tickers instrument.symbol with
      | none =>
        by_cases hduplicate : instrument.symbol ∈ selected
        · simp [hticker, hduplicate, excluded, selectedSymbol]
        · simp [hticker, hduplicate, excluded, selectedSymbol]
      | some ticker =>
        cases hquality : qualityReason config instrument ticker now with
        | some reason =>
          by_cases hduplicate : instrument.symbol ∈ selected
          · simp [hticker, hquality, hduplicate, excluded, selectedSymbol]
          · simp [hticker, hquality, hduplicate, excluded, selectedSymbol]
        | none =>
          by_cases hduplicate : instrument.symbol ∈ selected
          · simp [hticker, hquality, hduplicate, excluded, selectedSymbol, Option.filter]
          · by_cases hfull : selected.length ≥ config.size
            · simp [hticker, hquality, hduplicate, hfull, excluded, selectedSymbol, Option.filter]
            · simp [hticker, hquality, hduplicate, hfull, selectedSymbol, Option.filter]

/-- A decision excludes its asset for a reason, or selects it. -/
theorem decideAsset_cases (selected : List Symbol) (asset : MarketAsset) :
    (∃ reason symbol ticker detail, decideAsset upper lower config instruments tickers now selected
      asset = excluded asset reason symbol ticker detail) ∨
    ∃ symbol turnover spread, decideAsset upper lower config instruments tickers now selected asset =
      { asset := asset
        instrumentSymbol := some symbol
        exchangeTurnover24hUsdt := some turnover
        spreadBps := spread
        isSelected := true
        exclusionReason := none } := by
  unfold decideAsset
  cases classify upper lower config asset with
  | some reason => exact Or.inl ⟨_, _, _, _, rfl⟩
  | none =>
    cases resolveInstrument upper instruments asset.symbol with
    | none => exact Or.inl ⟨_, _, _, _, rfl⟩
    | some instrument =>
      simp only
      by_cases hduplicate : instrument.symbol ∈ selected
      · rw [if_pos hduplicate]
        exact Or.inl ⟨_, _, _, _, rfl⟩
      · rw [if_neg hduplicate]
        cases tickers instrument.symbol with
        | none => exact Or.inl ⟨_, _, _, _, rfl⟩
        | some ticker =>
          simp only
          cases qualityReason config instrument ticker now with
          | some reason => exact Or.inl ⟨_, _, _, _, rfl⟩
          | none =>
            simp only
            by_cases hfull : selected.length ≥ config.size
            · rw [if_pos hfull]
              exact Or.inl ⟨_, _, _, _, rfl⟩
            · rw [if_neg hfull]
              exact Or.inr ⟨_, _, _, rfl⟩

theorem decideAsset_reason (selected : List Symbol) (asset : MarketAsset) :
    (decideAsset upper lower config instruments tickers now selected asset).isSelected = true ↔
      (decideAsset upper lower config instruments tickers now selected asset).exclusionReason =
        none := by
  rcases @decideAsset_cases upper lower config instruments tickers now selected asset with
    ⟨reason, symbol, ticker, detail, hdecision⟩ | ⟨symbol, turnover, spread, hdecision⟩
  · rw [hdecision]
    simp [excluded]
  · rw [hdecision]
    simp

theorem decideAsset_asset (selected : List Symbol) (asset : MarketAsset) :
    (decideAsset upper lower config instruments tickers now selected asset).asset = asset := by
  rcases @decideAsset_cases upper lower config instruments tickers now selected asset with
    ⟨reason, symbol, ticker, detail, hdecision⟩ | ⟨symbol, turnover, spread, hdecision⟩
  · rw [hdecision]
    rfl
  · rw [hdecision]

theorem map_asset_evaluateFrom (selected : List Symbol) (assets : List MarketAsset) :
    (evaluateFrom upper lower config instruments tickers now selected assets).map
      UniverseDecision.asset = assets := by
  induction assets generalizing selected with
  | nil => rfl
  | cons asset assets ih => rw [evaluateFrom, List.map_cons, decideAsset_asset, ih]

theorem evaluateFrom_reason (selected : List Symbol) (assets : List MarketAsset) :
    ∀ decision ∈ evaluateFrom upper lower config instruments tickers now selected assets,
      decision.isSelected = true ↔ decision.exclusionReason = none := by
  induction assets generalizing selected with
  | nil => exact fun decision hdecision => absurd hdecision List.not_mem_nil
  | cons asset assets ih =>
    intro decision hdecision
    rw [evaluateFrom] at hdecision
    rcases List.mem_cons.mp hdecision with rfl | hdecision
    · exact decideAsset_reason selected asset
    · exact ih _ decision hdecision

/-- What the loop selects are the first contracts of the walk that still fit. -/
theorem selected_evaluateFrom (assets : List MarketAsset) {selected used : List Symbol}
    (hsize : selected.length ≤ config.size) (hused : ∀ symbol, symbol ∈ used ↔ symbol ∈ selected) :
    (evaluateFrom upper lower config instruments tickers now selected assets).filterMap
        selectedSymbol =
      (firstUses (eligibleContract upper lower config instruments tickers now) id used assets).take
        (config.size - selected.length) := by
  induction assets generalizing selected used with
  | nil => rw [evaluateFrom, firstUses, List.filterMap_nil, List.take_nil]
  | cons asset assets ih =>
    have hdecision : selectedSymbol (decideAsset upper lower config instruments tickers now selected
        asset) = (eligibleContract upper lower config instruments tickers now asset).filter fun
          symbol => decide (symbol ∉ selected ∧ selected.length < config.size) :=
      selectedSymbol_decideAsset selected asset
    rw [evaluateFrom, firstUses]
    cases heligible : eligibleContract upper lower config instruments tickers now asset with
    | none =>
      rw [heligible, Option.filter_none] at hdecision
      rw [List.filterMap_cons_none hdecision, hdecision, Option.toList_none, List.append_nil]
      exact ih hsize hused
    | some symbol =>
      rw [heligible] at hdecision
      simp only [id]
      by_cases hknown : symbol ∈ selected
      · rw [Option.filter_some_neg (by simp [hknown])] at hdecision
        rw [if_pos ((hused symbol).mpr hknown), List.filterMap_cons_none hdecision, hdecision,
          Option.toList_none, List.append_nil]
        exact ih hsize hused
      · rw [if_neg fun h => hknown ((hused symbol).mp h)]
        by_cases hroom : selected.length < config.size
        · rw [Option.filter_some_pos (by simp [hknown, hroom])] at hdecision
          have hleft : config.size - selected.length = config.size - (selected ++ [symbol]).length + 1 := by
            rw [List.length_append, List.length_singleton]
            omega
          rw [List.filterMap_cons_some hdecision, hdecision, Option.toList_some, hleft,
            List.take_succ_cons]
          refine congrArg (symbol :: ·) (ih ?_ fun other => ?_)
          · rw [List.length_append, List.length_singleton]
            omega
          · rw [List.mem_cons, List.mem_append, List.mem_singleton, hused]
            exact or_comm
        · -- the universe is full and stays so
          have hfull : config.size - selected.length = 0 := by omega
          rw [Option.filter_some_neg (by simp [hroom])] at hdecision
          rw [List.filterMap_cons_none hdecision, hdecision, Option.toList_none, List.append_nil,
            ih hsize hused, hfull, List.take_zero, List.take_zero]

theorem evaluateFrom_append (selected : List Symbol) (before after : List MarketAsset) :
    evaluateFrom upper lower config instruments tickers now selected (before ++ after) =
      evaluateFrom upper lower config instruments tickers now selected before ++
        evaluateFrom upper lower config instruments tickers now
          (selected ++ (evaluateFrom upper lower config instruments tickers now selected
            before).filterMap selectedSymbol) after := by
  induction before generalizing selected with
  | nil => rw [evaluateFrom, List.filterMap_nil, List.append_nil, List.nil_append, List.nil_append]
  | cons asset before ih =>
    rw [List.cons_append, evaluateFrom, evaluateFrom, ih, List.cons_append]
    congr 3
    cases hdecision : selectedSymbol (decideAsset upper lower config instruments tickers now selected
        asset) with
    | none => rw [List.filterMap_cons_none hdecision, Option.toList_none, List.append_nil]
    | some symbol =>
      rw [List.filterMap_cons_some hdecision, Option.toList_some, List.append_assoc,
        List.singleton_append]

/-- An asset that is not selected leaves no trace in what is. -/
theorem selected_without {before after : List MarketAsset} {asset : MarketAsset}
    (hexcluded : asset ∉ ((evaluateFrom upper lower config instruments tickers now []
      (before ++ asset :: after)).filter UniverseDecision.isSelected).map UniverseDecision.asset) :
    (evaluateFrom upper lower config instruments tickers now [] (before ++ after)).filter
        UniverseDecision.isSelected =
      (evaluateFrom upper lower config instruments tickers now [] (before ++ asset :: after)).filter
        UniverseDecision.isSelected := by
  rw [evaluateFrom_append, evaluateFrom] at hexcluded
  rw [evaluateFrom_append, evaluateFrom_append, evaluateFrom]
  generalize [] ++ (evaluateFrom upper lower config instruments tickers now [] before).filterMap
    selectedSymbol = selected at hexcluded ⊢
  have hnot : (decideAsset upper lower config instruments tickers now selected asset).isSelected =
      false := by
    refine Bool.eq_false_iff.mpr fun hselected => hexcluded (List.mem_map.mpr
      ⟨decideAsset upper lower config instruments tickers now selected asset, ?_,
        decideAsset_asset selected asset⟩)
    exact List.mem_filter.mpr ⟨List.mem_append_right _ List.mem_cons_self, hselected⟩
  have hnone : selectedSymbol (decideAsset upper lower config instruments tickers now selected
      asset) = none := by
    rw [selectedSymbol, hnot]
    rfl
  rw [hnone, Option.toList_none, List.append_nil, List.filter_append, List.filter_append,
    List.filter_cons_of_neg (by simp [hnot])]

end Decisions

section Orders
variable {upper lower : String → String} {config : UniversePolicyConfig}
variable {instruments instruments' : List Instrument} {tickers : Symbol → Option MarketTicker}
variable {now : Int}

/-- Contracts of different names resolve alike in any order. -/
theorem resolveInstrument_perm (hperm : instruments'.Perm instruments)
    (hsymbols : (instruments.map Instrument.symbol).Nodup) (assetSymbol : String) :
    resolveInstrument upper instruments' assetSymbol =
      resolveInstrument upper instruments assetSymbol := by
  have hcandidates : ∀ base, (instruments'.filter fun instrument =>
      upper instrument.baseCoin = base).Perm
        (instruments.filter fun instrument => upper instrument.baseCoin = base) :=
    fun base => hperm.filter _
  have hdistinct : ∀ base, (instruments.filter fun instrument =>
      upper instrument.baseCoin = base).Pairwise fun x y => x.symbol ≠ y.symbol :=
    fun base => (List.pairwise_map.mp hsymbols).filter _
  have hfind : ∀ base, (instruments'.filter fun instrument => upper instrument.baseCoin = base).find?
      (fun instrument => instrument.symbol = base ++ "USDT") =
        (instruments.filter fun instrument => upper instrument.baseCoin = base).find?
          fun instrument => instrument.symbol = base ++ "USDT" := by
    intro base
    refine find?_eq_of_perm (hcandidates base) fun x hx y hy hpx hpy => ?_
    exact List.inj_on_of_nodup_map (List.pairwise_map.mpr (hdistinct base)) hx hy
      ((of_decide_eq_true hpx).trans (of_decide_eq_true hpy).symm)
  have hsort : ∀ base, sortedBy Instrument.symbol (instruments'.filter fun instrument =>
      upper instrument.baseCoin = base) =
        sortedBy Instrument.symbol (instruments.filter fun instrument =>
          upper instrument.baseCoin = base) :=
    fun base => sortedBy_eq_of_perm (hcandidates base) (hdistinct base)
  unfold resolveInstrument
  simp only [hfind, hsort]

theorem evaluateFrom_perm (hperm : instruments'.Perm instruments)
    (hsymbols : (instruments.map Instrument.symbol).Nodup) (selected : List Symbol)
    (assets : List MarketAsset) :
    evaluateFrom upper lower config instruments' tickers now selected assets =
      evaluateFrom upper lower config instruments tickers now selected assets := by
  induction assets generalizing selected with
  | nil => rfl
  | cons asset assets ih =>
    have hdecision : decideAsset upper lower config instruments' tickers now selected asset =
        decideAsset upper lower config instruments tickers now selected asset := by
      rw [decideAsset, decideAsset, resolveInstrument_perm hperm hsymbols]
    rw [evaluateFrom, evaluateFrom, hdecision, ih]

variable {assets : List MarketAsset}

theorem sortedBy_rank_pairwise (hranks : (assets.map MarketAsset.marketCapRank).Nodup) :
    (sortedBy MarketAsset.marketCapRank assets).Pairwise fun x y =>
      x.marketCapRank < y.marketCapRank :=
  sortedBy_increasing MarketAsset.marketCapRank (List.pairwise_map.mp hranks)

theorem selected_eq_take (assets : List MarketAsset) :
    (evaluate upper lower config assets instruments tickers now).filterMap selectedSymbol =
      (keptContracts upper lower config instruments tickers now
        (sortedBy MarketAsset.marketCapRank assets)).take config.size :=
  selected_evaluateFrom (sortedBy MarketAsset.marketCapRank assets) (Nat.zero_le _) fun _ => Iff.rfl

/-- Removing an asset that is not selected changes nothing about the selection. -/
theorem evaluate_erase (hranks : (assets.map MarketAsset.marketCapRank).Nodup)
    {asset : MarketAsset} (hasset : asset ∈ assets)
    (hexcluded : asset ∉ ((evaluate upper lower config assets instruments tickers now).filter
      UniverseDecision.isSelected).map UniverseDecision.asset) :
    (evaluate upper lower config (assets.erase asset) instruments tickers now).filter
        UniverseDecision.isSelected =
      (evaluate upper lower config assets instruments tickers now).filter
        UniverseDecision.isSelected := by
  have hsorted := sortedBy_rank_pairwise hranks
  obtain ⟨before, after, hsplit⟩ := List.append_of_mem
    (mem_sortedBy.mpr hasset : asset ∈ sortedBy MarketAsset.marketCapRank assets)
  unfold evaluate at hexcluded ⊢
  rw [hsplit] at hexcluded hsorted ⊢
  have hsub : (before ++ after).Sublist (before ++ asset :: after) :=
    (List.sublist_cons_self asset after).append_left before
  have hrest := hsorted.sublist hsub
  have hperm : (assets.erase asset).Perm (before ++ after) := by
    have hwhole : (assets.erase asset).Perm ((before ++ asset :: after).erase asset) :=
      ((sortedBy_perm assets).symm.trans (List.Perm.of_eq hsplit)).erase asset
    refine hwhole.trans (((List.perm_middle).erase asset).trans ?_)
    rw [List.erase_cons_head]
  have hwithout : sortedBy MarketAsset.marketCapRank (assets.erase asset) = before ++ after := by
    rw [sortedBy_eq_of_perm hperm (hrest.imp ne_of_lt)]
    exact sortedBy_of_pairwise (hrest.imp le_of_lt)
  rw [hwithout]
  exact selected_without hexcluded

end Orders

/-- The selection walks the assets by rank and keeps the first contracts that are eligible and
new, up to the size; it depends on the sets it is given and not on what it leaves out. -/
theorem selection_greedy (upper lower : String → String) (config : UniversePolicyConfig)
    (assets : List MarketAsset) (instruments : List Instrument)
    (tickers : Symbol → Option MarketTicker) (now : Int)
    (hranks : (assets.map MarketAsset.marketCapRank).Nodup)
    (hsymbols : (instruments.map Instrument.symbol).Nodup) :
    let decisions := evaluate upper lower config assets instruments tickers now
    (decisions.map UniverseDecision.asset).Perm assets ∧
      (decisions.map fun decision => decision.asset.marketCapRank).Pairwise (· < ·) ∧
      (decisions.filterMap selectedSymbol).Nodup ∧
      (decisions.filterMap selectedSymbol).length ≤ config.size ∧
      decisions.filterMap selectedSymbol = (keptContracts upper lower config instruments tickers now
        (decisions.map UniverseDecision.asset)).take config.size ∧
      (∀ decision ∈ decisions, decision.isSelected = true ↔ decision.exclusionReason = none) ∧
      (∀ assets' instruments', assets'.Perm assets → instruments'.Perm instruments →
        evaluate upper lower config assets' instruments' tickers now = decisions) ∧
      ∀ asset ∈ assets,
        asset ∉ (decisions.filter UniverseDecision.isSelected).map UniverseDecision.asset →
          (evaluate upper lower config (assets.erase asset) instruments tickers now).filter
            UniverseDecision.isSelected = decisions.filter UniverseDecision.isSelected := by
  intro decisions
  have hassets : decisions.map UniverseDecision.asset = sortedBy MarketAsset.marketCapRank assets :=
    map_asset_evaluateFrom [] _
  have hkept : decisions.filterMap selectedSymbol = (keptContracts upper lower config instruments
      tickers now (decisions.map UniverseDecision.asset)).take config.size := by
    rw [hassets]
    exact selected_eq_take assets
  refine ⟨?_, ?_, ?_, ?_, hkept, evaluateFrom_reason [] _, ?_, ?_⟩
  · rw [hassets]
    exact sortedBy_perm assets
  · have hranked := sortedBy_rank_pairwise hranks
    rw [← hassets, List.pairwise_map] at hranked
    exact List.pairwise_map.mpr hranked
  · have hnodup := @nodup_keys_firstUses _ _ _ _ (eligibleContract upper lower config instruments
      tickers now) id [] (decisions.map UniverseDecision.asset)
    rw [List.map_id] at hnodup
    rw [hkept]
    exact hnodup.sublist (List.take_sublist _ _)
  · rw [hkept]
    exact List.length_take_le _ _
  · intro assets' instruments' hassets' hinstruments'
    unfold evaluate
    rw [sortedBy_eq_of_perm hassets' (List.pairwise_map.mp hranks),
      evaluateFrom_perm hinstruments' hsymbols]
    rfl
  · intro asset hasset hexcluded
    exact evaluate_erase hranks hasset hexcluded

/-- Three assets; the second and the third compete for one scaled contract. -/
def rankedAssets : List MarketAsset :=
  [("shiba-inu", "SHIB", 3), ("bitcoin", "BTC", 1), ("shiba-thousand", "1000SHIB", 2)].map
    fun (providerId, symbol, rank) =>
      { providerId := providerId
        symbol := symbol
        name := symbol
        marketCapRank := rank
        marketCapUsd := 1
        totalVolumeUsd := 1 }

def listedContracts : List Instrument :=
  [⟨"1000SHIBUSDT", "1000SHIB", 0, 480⟩, ⟨"BTCUSDT", "BTC", 0, 480⟩]

def quotedTicker (symbol : Symbol) : Option MarketTicker :=
  some { symbol := symbol, bidPrice := 100, askPrice := 100, turnover24h := 1000 }

/-- Further assets whose contracts are too young, hardly traded, or quoted too far apart. -/
def screenedAssets : List MarketAsset :=
  rankedAssets ++ [("solana", "SOL", 4), ("cardano", "ADA", 5), ("ripple", "XRP", 6)].map
    fun (providerId, symbol, rank) =>
      { providerId := providerId
        symbol := symbol
        name := symbol
        marketCapRank := rank
        marketCapUsd := 1
        totalVolumeUsd := 1 }

def screenedContracts : List Instrument :=
  listedContracts ++
    [⟨"SOLUSDT", "SOL", 45 * oneDay, 480⟩, ⟨"ADAUSDT", "ADA", 0, 480⟩, ⟨"XRPUSDT", "XRP", 0, 480⟩]

def screenedTicker (symbol : Symbol) : Option MarketTicker :=
  some {
    symbol := symbol
    bidPrice := 100
    askPrice := if symbol = "XRPUSDT" then 101 else 100
    turnover24h := if symbol = "ADAUSDT" then 10 else 1000 }

theorem selection_greedy_sample :
    let config : UniversePolicyConfig := ⟨5, 100, 10, 30, []⟩
    let decisions := evaluate id id config screenedAssets screenedContracts screenedTicker
      (60 * oneDay)
    (screenedAssets.map MarketAsset.marketCapRank).Nodup ∧
      (screenedContracts.map Instrument.symbol).Nodup ∧
      decisions.filterMap selectedSymbol = (keptContracts id id config screenedContracts
        screenedTicker (60 * oneDay) (decisions.map UniverseDecision.asset)).take config.size ∧
      decisions.filterMap selectedSymbol = ["BTCUSDT", "1000SHIBUSDT"] ∧
      decisions.map UniverseDecision.exclusionReason = [none, none, some .duplicateContract,
        some .insufficientHistory, some .lowTurnover, some .spreadTooWide] := by
  have hranks : (screenedAssets.map MarketAsset.marketCapRank).Nodup := by decide
  have hsymbols : (screenedContracts.map Instrument.symbol).Nodup := by decide
  refine ⟨hranks, hsymbols, ?_, by decide +kernel, by decide +kernel⟩
  exact (selection_greedy id id _ screenedAssets screenedContracts screenedTicker _ hranks
    hsymbols).2.2.2.2.1

end StructurePulse.Universe
