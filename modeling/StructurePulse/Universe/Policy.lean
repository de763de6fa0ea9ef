import StructurePulse.Library.OrderedLists
import StructurePulse.Market
import Mathlib.Data.List.Infix

/-!
# Selecting the trading universe

`evaluate` goes through the assets by market-cap rank and decides about each of them. The
case conversions of the texts are parameters.
-/

namespace StructurePulse.Universe
open Library
set_option autoImplicit false

section Records

inductive ExclusionReason where
  | manualDenylist
  | stablecoin
  | wrappedAsset
  | tokenizedStock
  | leveragedToken
  | noBybitContract
  | duplicateContract
  | missingTicker
  | insufficientHistory
  | lowTurnover
  | invalidSpread
  | spreadTooWide
  | capacityReached
  deriving Repr, DecidableEq

structure UniversePolicyConfig where
  size : Nat
  minTurnover24hUsdt : ℚ
  maxSpreadBps : ℚ
  minTradingHistoryDays : Nat
  manualDenylist : List String := []
  deriving Repr, DecidableEq

structure MarketAsset where
  providerId : String
  symbol : String
  name : String
  marketCapRank : Int
  marketCapUsd : ℚ
  totalVolumeUsd : ℚ
  lastUpdated : Option Int := none
  deriving Repr, DecidableEq

structure Instrument where
  symbol : Symbol
  baseCoin : String
  launchTime : Int
  fundingIntervalMinutes : Int
  deriving Repr, DecidableEq

structure MarketTicker where
  symbol : Symbol
  bidPrice : ℚ
  askPrice : ℚ
  turnover24h : ℚ
  deriving Repr, DecidableEq

def MarketTicker.spreadBps (ticker : MarketTicker) : Option ℚ :=
  if ticker.bidPrice ≤ 0 ∨ ticker.askPrice ≤ 0 then none
  else
    let midpoint := (ticker.bidPrice + ticker.askPrice) / 2
    if midpoint ≤ 0 then none
    else some ((ticker.askPrice - ticker.bidPrice) / midpoint * 10000)

/-- `detail` is the launch time of an instrument that is too young. -/
structure UniverseDecision where
  asset : MarketAsset
  instrumentSymbol : Option Symbol
  exchangeTurnover24hUsdt : Option ℚ
  spreadBps : Option ℚ
  isSelected : Bool
  exclusionReason : Option ExclusionReason
  detail : Option Int := none
  deriving Repr, DecidableEq

end Records

section Classification

def stablecoinIds : List String :=
  ["binance-usd", "dai", "ethena-usde", "first-digital-usd", "frax", "gemini-dollar", "paypal-usd",
    "pax-dollar", "stasis-eurs", "tether", "true-usd", "usdb", "usd-coin", "usdd", "usds"]

def stablecoinSymbols : List String :=
  ["BUSD", "DAI", "EURS", "FDUSD", "FRAX", "GUSD", "PYUSD", "TUSD", "USDC", "USDD", "USDE", "USDP",
    "USDS", "USDT"]

def wrappedSymbols : List String := ["CBBTC", "TBTC", "WBTC", "WETH", "WSTETH"]

/-- `CONTRACT_BASE_ALIASES`. -/
def contractBaseAliases : List (String × String) :=
  [("BONK", "1000BONK"), ("FLOKI", "1000FLOKI"), ("LUNC", "1000LUNC"), ("PEPE", "1000PEPE"),
    ("SATS", "1000SATS"), ("SHIB", "1000SHIB"), ("XEC", "1000XEC")]

def hasText (part text : String) : Bool := part.toList <:+: text.toList

def startsWithText (part text : String) : Bool := part.toList <+: text.toList

def endsWithText (part text : String) : Bool := part.toList <:+ text.toList

variable (upper lower : String → String)

def classify (config : UniversePolicyConfig) (asset : MarketAsset) : Option ExclusionReason :=
  let symbol := upper asset.symbol
  let providerId := lower asset.providerId
  let name := lower asset.name
  if symbol ∈ config.manualDenylist ∨ upper providerId ∈ config.manualDenylist then
    some .manualDenylist
  else if providerId ∈ stablecoinIds ∨ symbol ∈ stablecoinSymbols ∨ hasText "stablecoin" name then
    some .stablecoin
  else if startsWithText "wrapped-" providerId ∨ startsWithText "wrapped " name ∨
      symbol ∈ wrappedSymbols then
    some .wrappedAsset
  else if hasText "tokenized stock" name ∨ hasText "stock token" name then some .tokenizedStock
  else if ["3L", "3S", "5L", "5S", "BULL", "BEAR"].any fun suffix => endsWithText suffix symbol then
    some .leveragedToken
  else none

/-- The instrument of the first base that has any: the plain contract, else the first by name. -/
def resolveInstrument (instruments : List Instrument) (assetSymbol : String) : Option Instrument :=
  let symbol := upper assetSymbol
  let possibleBases := symbol :: (contractBaseAliases.lookup symbol).toList
  possibleBases.findSome? fun base =>
    let candidates := instruments.filter fun instrument => upper instrument.baseCoin = base
    (candidates.find? fun instrument => instrument.symbol = base ++ "USDT").or
      (sortedBy Instrument.symbol candidates).head?

end Classification

section Decisions

def excluded (asset : MarketAsset) (reason : ExclusionReason) (instrumentSymbol : Option Symbol)
    (ticker : Option MarketTicker) (detail : Option Int) : UniverseDecision where
  asset := asset
  instrumentSymbol := instrumentSymbol
  exchangeTurnover24hUsdt := ticker.map MarketTicker.turnover24h
  spreadBps := ticker.bind MarketTicker.spreadBps
  isSelected := false
  exclusionReason := some reason
  detail := detail

def oneDay : Int := 24 * oneHour

/-- The checks of an instrument whose ticker is known; `none` if it passes all of them. -/
def qualityReason (config : UniversePolicyConfig) (instrument : Instrument) (ticker : MarketTicker)
    (now : Int) : Option ExclusionReason :=
  if instrument.launchTime > now - config.minTradingHistoryDays * oneDay then
    some .insufficientHistory
  else if ticker.turnover24h < config.minTurnover24hUsdt then some .lowTurnover
  else
    match ticker.spreadBps with
    | none => some .invalidSpread
    | some spread =>
      if spread < 0 then some .invalidSpread
      else if spread > config.maxSpreadBps then some .spreadTooWide
      else none

/-- A contract passes all checks: it is old enough, traded enough, and its spread is known and
within the bounds. -/
theorem qualityReason_eq_none_iff {config : UniversePolicyConfig} {instrument : Instrument}
    {ticker : MarketTicker} {now : Int} :
    qualityReason config instrument ticker now = none ↔
      instrument.launchTime ≤ now - config.minTradingHistoryDays * oneDay ∧
        config.minTurnover24hUsdt ≤ ticker.turnover24h ∧
        ∃ spread, ticker.spreadBps = some spread ∧ 0 ≤ spread ∧ spread ≤ config.maxSpreadBps := by
  unfold qualityReason
  by_cases hage : instrument.launchTime > now - config.minTradingHistoryDays * oneDay
  · rw [if_pos hage]
    exact iff_of_false (fun h => by cases h) fun h => absurd h.1 (not_le.mpr hage)
  rw [if_neg hage, and_iff_right (not_lt.mp hage)]
  by_cases hturnover : ticker.turnover24h < config.minTurnover24hUsdt
  · rw [if_pos hturnover]
    exact iff_of_false (fun h => by cases h) fun h => absurd h.1 (not_le.mpr hturnover)
  rw [if_neg hturnover, and_iff_right (not_lt.mp hturnover)]
  cases ticker.spreadBps with
  | none => exact iff_of_false (fun h => by cases h) fun ⟨_, h, _⟩ => by cases h
  | some spread =>
    simp only [Option.some.injEq, exists_eq_left']
    by_cases hnegative : spread < 0
    · rw [if_pos hnegative]
      exact iff_of_false (fun h => by cases h) fun h => absurd h.1 (not_le.mpr hnegative)
    · rw [if_neg hnegative, and_iff_right (not_lt.mp hnegative)]
      by_cases hwide : spread > config.maxSpreadBps
      · rw [if_pos hwide]
        exact iff_of_false (fun h => by cases h) (not_le.mpr hwide)
      · rw [if_neg hwide]
        exact iff_of_true rfl (not_lt.mp hwide)

variable (upper lower : String → String)

/-- The pass of the loop for one asset. -/
def decideAsset (config : UniversePolicyConfig) (instruments : List Instrument)
    (tickers : Symbol → Option MarketTicker) (now : Int) (selectedSymbols : List Symbol)
    (asset : MarketAsset) : UniverseDecision :=
  match classify upper lower config asset with
  | some reason => excluded asset reason none none none
  | none =>
    match resolveInstrument upper instruments asset.symbol with
    | none => excluded asset .noBybitContract none none none
    | some instrument =>
      if instrument.symbol ∈ selectedSymbols then
        excluded asset .duplicateContract (some instrument.symbol) none none
      else
        match tickers instrument.symbol with
        | none => excluded asset .missingTicker (some instrument.symbol) none none
        | some ticker =>
          match qualityReason config instrument ticker now with
          | some reason =>
            excluded asset reason (some instrument.symbol) (some ticker)
              (if reason = .insufficientHistory then some instrument.launchTime else none)
          | none =>
            if selectedSymbols.length ≥ config.size then
              excluded asset .capacityReached (some instrument.symbol) (some ticker) none
            else
              { asset := asset
                instrumentSymbol := some instrument.symbol
                exchangeTurnover24hUsdt := some ticker.turnover24h
                spreadBps := ticker.spreadBps
                isSelected := true
                exclusionReason := none }

def selectedSymbol (decision : UniverseDecision) : Option Symbol :=
  if decision.isSelected then decision.instrumentSymbol else none

def evaluateFrom (config : UniversePolicyConfig) (instruments : List Instrument)
    (tickers : Symbol → Option MarketTicker) (now : Int) :
    List Symbol → List MarketAsset → List UniverseDecision
  | _, [] => []
  | selectedSymbols, asset :: assets =>
    let decision := decideAsset upper lower config instruments tickers now selectedSymbols asset
    decision :: evaluateFrom config instruments tickers now
      (selectedSymbols ++ (selectedSymbol decision).toList) assets

/-- `UniversePolicy.evaluate`. -/
def evaluate (config : UniversePolicyConfig) (assets : List MarketAsset)
    (instruments : List Instrument) (tickers : Symbol → Option MarketTicker) (now : Int) :
    List UniverseDecision :=
  evaluateFrom upper lower config instruments tickers now []
    (sortedBy MarketAsset.marketCapRank assets)

variable {upper lower}

theorem mem_resolveInstrument {instruments : List Instrument} {assetSymbol : String}
    {instrument : Instrument} (h : resolveInstrument upper instruments assetSymbol = some instrument) :
    instrument ∈ instruments := by
  obtain ⟨base, -, hbase⟩ := List.exists_of_findSome?_eq_some h
  rcases Option.or_eq_some_iff.mp hbase with hfind | ⟨-, hhead⟩
  · exact List.mem_of_mem_filter (List.mem_of_find?_eq_some hfind)
  · exact List.mem_of_mem_filter (mem_sortedBy.mp (List.mem_of_head? hhead))

/-- A selected contract is an instrument that was not selected before. -/
theorem decideAsset_selected {config : UniversePolicyConfig} {instruments : List Instrument}
    {tickers : Symbol → Option MarketTicker} {now : Int} {selectedSymbols : List Symbol}
    {asset : MarketAsset} {symbol : Symbol}
    (h : selectedSymbol (decideAsset upper lower config instruments tickers now selectedSymbols
      asset) = some symbol) :
    symbol ∉ selectedSymbols ∧ symbol ∈ instruments.map Instrument.symbol := by
  unfold decideAsset at h
  split at h
  · cases h
  · split at h
    · cases h
    · rename_i instrument hinstrument
      by_cases hduplicate : instrument.symbol ∈ selectedSymbols
      · rw [if_pos hduplicate] at h
        cases h
      · rw [if_neg hduplicate] at h
        split at h
        · cases h
        · split at h
          · cases h
          · split at h
            · cases h
            · cases h
              exact ⟨hduplicate, List.mem_map.mpr ⟨instrument, mem_resolveInstrument hinstrument, rfl⟩⟩

/-- The selected contracts are distinct instruments. -/
theorem selectedSymbols_spec {config : UniversePolicyConfig} {instruments : List Instrument}
    {tickers : Symbol → Option MarketTicker} {now : Int} (assets : List MarketAsset)
    {selectedSymbols : List Symbol} (hnodup : selectedSymbols.Nodup) :
    (selectedSymbols ++ (evaluateFrom upper lower config instruments tickers now selectedSymbols
        assets).filterMap selectedSymbol).Nodup ∧
      ∀ symbol ∈ (evaluateFrom upper lower config instruments tickers now selectedSymbols
        assets).filterMap selectedSymbol, symbol ∈ instruments.map Instrument.symbol := by
  induction assets generalizing selectedSymbols with
  | nil =>
    refine ⟨?_, ?_⟩
    · rw [evaluateFrom, List.filterMap_nil, List.append_nil]
      exact hnodup
    · intro symbol hsymbol
      cases hsymbol
  | cons asset assets ih =>
    simp only [evaluateFrom]
    rcases hselected : selectedSymbol (decideAsset upper lower config instruments tickers now
        selectedSymbols asset) with _ | symbol
    · rw [List.filterMap_cons_none hselected, Option.toList_none, List.append_nil]
      exact ih hnodup
    · obtain ⟨hnew, hinstrument⟩ := decideAsset_selected hselected
      have hnext : (selectedSymbols ++ [symbol]).Nodup := by
        refine List.nodup_append.mpr ⟨hnodup, List.nodup_singleton _, ?_⟩
        intro a ha b hb hab
        rw [List.mem_singleton.mp hb] at hab
        exact hnew (hab ▸ ha)
      obtain ⟨ihnodup, ihmem⟩ := ih hnext
      rw [List.filterMap_cons_some hselected, Option.toList_some]
      refine ⟨?_, ?_⟩
      · rw [List.append_assoc, List.singleton_append] at ihnodup
        exact ihnodup
      · intro other hother
        rcases List.mem_cons.mp hother with rfl | hother
        · exact hinstrument
        · exact ihmem other hother

end Decisions

end StructurePulse.Universe
