import StructurePulse.SMC.Analysis
import StructurePulse.Strategy.Risk

/-!
# Evaluating a candidate

`evaluateDirection` scores one side of the market from the four analyses and the market
context. A text that the source formats from values is a constructor with these values.
-/

namespace StructurePulse.Strategy
open Library SMC
set_option autoImplicit false

section Inputs

structure StrategyMarketContext where
  currentPrice : ℚ
  volumeRatio : Option ℚ := none
  openInterestChangeRatio : Option ℚ := none
  fundingRate : Option ℚ := none
  spreadBps : Option ℚ := none
  turnover24hUsdt : Option ℚ := none
  btc5mReturn : Option ℚ := none
  btcTrueRangeAtrRatio : Option ℚ := none
  takerFeeRate : ℚ := 55 / 100000
  instrumentMaxLeverage : ℚ := 100
  instrumentQuantityStep : ℚ := 1 / 100000000
  instrumentMinNotional : ℚ := 0
  deriving Repr, DecidableEq

structure StrategyInput where
  symbol : Symbol
  analyzedAt : Int
  analysis4h : SMCAnalysis
  analysis1h : SMCAnalysis
  analysis15m : SMCAnalysis
  analysis5m : SMCAnalysis
  market : StrategyMarketContext
  inputCutoffs : List (Timeframe × Int) := []
  deriving Repr, DecidableEq

end Inputs

section Reports

inductive ZoneKind where
  | fvg
  | orderBlock
  deriving Repr, DecidableEq

inductive ComponentName where
  | higherTimeframeAlignment
  | liquiditySweep
  | structureConfirmation
  | entryZoneQuality
  | premiumDiscount
  | volumeOpenInterest
  | fundingBtcCondition
  deriving Repr, DecidableEq

/-- The evidence text of a component. -/
inductive ComponentEvidence where
  | directions (h4 h1 : Option Direction)
  | sweep (direction : Direction)
  | noSweep
  | structureBreak (kind : BreakKind) (withDisplacement : Bool)
  | noStructureBreak
  | entryZone (kind : ZoneKind)
  | noOpenEntryZone
  | priceIn (location : PriceLocation)
  | locationNotPreferred
  | confirmed (volume openInterest : Bool)
  | conditions (crowdedFunding btcAbnormal : Bool)
  deriving Repr, DecidableEq

structure ScoreComponent where
  name : ComponentName
  awarded : Int
  maximum : Int
  evidence : ComponentEvidence
  deriving Repr, DecidableEq

inductive Evidence where
  | sweepAt (level : ℚ)
  | zone (kind : ZoneKind) (lower upper : ℚ)
  | confirmation (kind : BreakKind)
  deriving Repr, DecidableEq

inductive SuppressionReason where
  | higherTimeframesOpposed
  | missing15mStructureDisplacement
  | missingEntryZone
  | entryZoneNotRetested
  | turnoverBelowMinimum
  | spreadAboveMaximum
  | volatilityBelowMinimum
  | volatilityAboveMaximum
  | missing5mConfirmation
  | atrUnavailable
  | liquidityTargetUnavailable
  | plan (detail : PlanDetail)
  | rewardToRiskBelowMinimum
  | scoreBelowThreshold
  deriving Repr, DecidableEq

/-- A `SignalCandidate` with the data that only the reports read. -/
structure EvaluatedCandidate extends SignalCandidate where
  components : List ScoreComponent
  evidence : List Evidence
  suppressionReasons : List SuppressionReason
  deriving Repr, DecidableEq

end Reports

section Readings

def smcDirection : TradeDirection → Direction
  | .long => .bullish
  | .short => .bearish

def desiredLocation : TradeDirection → PriceLocation
  | .long => .discount
  | .short => .premium

def latestBreakDirection (analysis : SMCAnalysis) : Option Direction :=
  analysis.structureBreaks.getLast?.map StructureBreak.direction

/-- `_latest_atr`. -/
def latestAtr (analysis : SMCAnalysis) : Option ℚ :=
  (analysis.atr.reverse.find? Option.isSome).join

structure EntryZone where
  createdIndex : Nat
  kind : ZoneKind
  lower : ℚ
  upper : ℚ
  status : ZoneStatus
  deriving Repr, DecidableEq

def entryZones (analysis : SMCAnalysis) (direction : Direction) : List EntryZone :=
  ((analysis.fairValueGaps.filter fun gap =>
      decide (gap.direction = direction ∧ (gap.status = .open ∨ gap.status = .partiallyFilled))).map
    fun gap => ⟨gap.createdIndex, .fvg, gap.lowerPrice, gap.upperPrice, gap.status⟩) ++
  (analysis.orderBlocks.filter fun block =>
      decide (block.direction = direction ∧
        (block.status = .open ∨ block.status = .partiallyFilled))).map
    fun block => ⟨block.createdIndex, .orderBlock, block.lowerPrice, block.upperPrice, block.status⟩

/-- `_latest_entry_zone`: the first of the zones created last. -/
def latestEntryZone (analysis : SMCAnalysis) (direction : Direction) : Option EntryZone :=
  (entryZones analysis direction).foldl (fun best zone =>
    match best with
    | none => some zone
    | some other => if other.createdIndex < zone.createdIndex then some zone else some other) none

/-- `_liquidity_target`. -/
def liquidityTarget (setup context : SMCAnalysis) (direction : TradeDirection) (zone : EntryZone) :
    Option ℚ :=
  let entry := (zone.lower + zone.upper) / 2
  let prices := ((setup.swings ++ context.swings).filter fun swing =>
    match direction with
    | .long => decide (swing.kind = .high ∧ swing.price > entry)
    | .short => decide (swing.kind = .low ∧ swing.price < entry)).map Swing.price
  match direction with
  | .long => prices.min?
  | .short => prices.max?

def fundingIsCrowded (direction : TradeDirection) (fundingRate : Option ℚ) (threshold : ℚ) : Bool :=
  match fundingRate, direction with
  | none, _ => false
  | some rate, .long => decide (rate ≥ threshold)
  | some rate, .short => decide (rate ≤ -threshold)

def btcIsAbnormal (market : StrategyMarketContext) (config : StrategyConfig) : Bool :=
  market.btc5mReturn.any (fun change => decide (|change| ≥ config.btcReturnWarningThreshold)) ||
    market.btcTrueRangeAtrRatio.any fun ratio => decide (ratio ≥ config.btcTrueRangeWarningRatio)

/-- `_append_market_filter_reasons`. -/
def marketFilterReasons (input : StrategyInput) (config : StrategyConfig) :
    List SuppressionReason :=
  let market := input.market
  (if market.turnover24hUsdt.any fun turnover => decide (turnover < config.minimumTurnover24hUsdt)
    then [.turnoverBelowMinimum] else []) ++
  (if market.spreadBps.any fun spread => decide (spread > config.maximumSpreadBps)
    then [.spreadAboveMaximum] else []) ++
  match latestAtr input.analysis15m with
  | none => []
  | some atr =>
    if market.currentPrice > 0 then
      let atrPercent := atr / market.currentPrice
      (if atrPercent < config.minimumAtrPercent then [.volatilityBelowMinimum] else []) ++
      (if atrPercent > config.maximumAtrPercent then [.volatilityAboveMaximum] else [])
    else []

end Readings

section Scoring
variable (input : StrategyInput) (direction : TradeDirection) (config : StrategyConfig)

def higherTimeframeDirections : Option Direction × Option Direction :=
  (latestBreakDirection input.analysis4h, latestBreakDirection input.analysis1h)

/-- How many of the higher timeframes satisfy a test. -/
def countHigher (test : Option Direction → Bool) : Nat :=
  (test (higherTimeframeDirections input).1).toNat + (test (higherTimeframeDirections input).2).toNat

def alignedCount : Nat :=
  countHigher input fun found => decide (found = some (smcDirection direction))

def opposingCount : Nat :=
  countHigher input fun found => decide (found ≠ none ∧ found ≠ some (smcDirection direction))

def latestSweep : Option LiquiditySweep :=
  input.analysis15m.liquiditySweeps.reverse.find? fun sweep =>
    decide (sweep.direction = smcDirection direction)

def latestBreak (analysis : SMCAnalysis) : Option StructureBreak :=
  analysis.structureBreaks.reverse.find? fun event =>
    decide (event.direction = smcDirection direction)

def hasDisplacement : Bool :=
  match latestBreak direction input.analysis15m with
  | none => false
  | some setup => input.analysis15m.displacements.any fun item =>
      decide (item.direction = smcDirection direction ∧ item.index = setup.index)

def locationMatches : Bool :=
  decide (input.analysis4h.priceLocation = some (desiredLocation direction) ∨
    input.analysis1h.priceLocation = some (desiredLocation direction))

def volumeOk : Bool :=
  input.market.volumeRatio.any fun ratio => decide (ratio ≥ config.volumeConfirmationRatio)

def openInterestOk : Bool :=
  input.market.openInterestChangeRatio.any fun ratio =>
    decide (ratio ≥ config.openInterestConfirmationRatio)

def scoreComponents : List ScoreComponent :=
  let weights := config.weights
  let zone := latestEntryZone input.analysis15m (smcDirection direction)
  let crowdedFunding :=
    fundingIsCrowded direction input.market.fundingRate config.crowdedFundingRate
  let btcAbnormal := btcIsAbnormal input.market config
  [{ name := .higherTimeframeAlignment
     awarded :=
      if alignedCount input direction = 2 then weights.higherTimeframeAlignment
      else if alignedCount input direction = 1 ∧ opposingCount input direction = 0 then
        weights.higherTimeframeAlignment / 2
      else 0
     maximum := weights.higherTimeframeAlignment
     evidence :=
      .directions (higherTimeframeDirections input).1 (higherTimeframeDirections input).2 },
   { name := .liquiditySweep
     awarded := if (latestSweep input direction).isSome then weights.liquiditySweep else 0
     maximum := weights.liquiditySweep
     evidence :=
      if (latestSweep input direction).isSome then .sweep (smcDirection direction) else .noSweep },
   { name := .structureConfirmation
     awarded :=
      if hasDisplacement input direction then weights.structureConfirmation
      else if (latestBreak direction input.analysis15m).isSome then
        weights.structureConfirmation / 2
      else 0
     maximum := weights.structureConfirmation
     evidence :=
      match latestBreak direction input.analysis15m with
      | some setup => .structureBreak setup.kind (hasDisplacement input direction)
      | none => .noStructureBreak },
   { name := .entryZoneQuality
     awarded := if zone.isSome then weights.entryZoneQuality else 0
     maximum := weights.entryZoneQuality
     evidence :=
      match zone with
      | some zone => .entryZone zone.kind
      | none => .noOpenEntryZone },
   { name := .premiumDiscount
     awarded := if locationMatches input direction then weights.premiumDiscount else 0
     maximum := weights.premiumDiscount
     evidence :=
      if locationMatches input direction then .priceIn (desiredLocation direction)
      else .locationNotPreferred },
   { name := .volumeOpenInterest
     awarded :=
      weights.volumeOpenInterest *
        ((volumeOk input config).toNat + (openInterestOk input config).toNat) / 2
     maximum := weights.volumeOpenInterest
     evidence := .confirmed (volumeOk input config) (openInterestOk input config) },
   { name := .fundingBtcCondition
     awarded := if crowdedFunding || btcAbnormal then 0 else weights.fundingBtcCondition
     maximum := weights.fundingBtcCondition
     evidence := .conditions crowdedFunding btcAbnormal }]

def candidateEvidence : List Evidence :=
  ((latestSweep input direction).map fun sweep => .sweepAt sweep.level).toList ++
  ((latestEntryZone input.analysis15m (smcDirection direction)).map fun zone =>
    .zone zone.kind zone.lower zone.upper).toList ++
  ((latestBreak direction input.analysis5m).map fun event => .confirmation event.kind).toList

/-- What the planner is asked for an entry zone, or why it is not asked. -/
def planInput (zone : EntryZone) : Except SuppressionReason TradePlanInput :=
  match latestAtr input.analysis15m,
    liquidityTarget input.analysis15m input.analysis1h direction zone with
  | none, _ => .error .atrUnavailable
  | some _, none => .error .liquidityTargetUnavailable
  | some atr, some target =>
    .ok {
      direction := direction
      entryLower := zone.lower
      entryUpper := zone.upper
      atr := atr
      targetPrice := target
      feeRate := input.market.takerFeeRate
      instrumentMaxLeverage := input.market.instrumentMaxLeverage
      quantityStep := input.market.instrumentQuantityStep
      minimumNotional := input.market.instrumentMinNotional
      config := config }

/-- The plan of a zone, with the warnings and the reasons it adds. -/
def planOf (zone : EntryZone) : Option TradePlan × List PlanDetail × List SuppressionReason :=
  match planInput input direction config zone with
  | .error reason => (none, [], [reason])
  | .ok planInput =>
    match buildTradePlan planInput with
    | (none, details) => (none, [], details.map .plan)
    | (some plan, details) =>
      (some plan, details,
        if plan.netRewardToRisk < config.minimumNetRewardToRisk then [.rewardToRiskBelowMinimum]
        else [])

/-- `_evaluate_direction`. -/
def evaluateDirection : EvaluatedCandidate :=
  let components := scoreComponents input direction config
  let zone := latestEntryZone input.analysis15m (smcDirection direction)
  let planned : Option TradePlan × List PlanDetail × List SuppressionReason :=
    match zone with
    | none => (none, [], [])
    | some zone => planOf input direction config zone
  let warnings : List CandidateWarning :=
    (if fundingIsCrowded direction input.market.fundingRate config.crowdedFundingRate
      then [.crowdedFunding] else []) ++
    (if btcIsAbnormal input.market config then [.abnormalBtcMovement] else []) ++
    planned.2.1.map .plan
  let score := (components.map ScoreComponent.awarded).sum
  let suppression : List SuppressionReason :=
    (if opposingCount input direction = 2 then [.higherTimeframesOpposed] else []) ++
    (if hasDisplacement input direction then [] else [.missing15mStructureDisplacement]) ++
    (match zone with
      | none => [.missingEntryZone]
      | some zone =>
        if zone.status ≠ .partiallyFilled ∧
            ¬(zone.lower ≤ input.market.currentPrice ∧ input.market.currentPrice ≤ zone.upper) then
          [.entryZoneNotRetested]
        else []) ++
    marketFilterReasons input config ++
    (if (latestBreak direction input.analysis5m).isNone then [.missing5mConfirmation] else []) ++
    planned.2.2 ++
    (if score < config.minimumScore then [.scoreBelowThreshold] else [])
  { symbol := input.symbol
    direction := direction
    strategyVersion := config.version
    status := if suppression.isEmpty then .accepted else .suppressed
    score := score
    strength := if score ≥ config.strongScore then .strong else .standard
    warnings := dictValues id warnings
    tradePlan := planned.1
    analyzedAt := input.analyzedAt
    expiresAt := input.analyzedAt + minutes config.signalLifetimeMinutes
    components := components
    evidence := candidateEvidence input direction
    suppressionReasons := dictValues id suppression }

def evaluateCandidates : List EvaluatedCandidate :=
  [evaluateDirection input .long config, evaluateDirection input .short config]

/-- A candidate is dated by its input. -/
theorem analyzedAt_evaluateCandidates :
    ∀ candidate ∈ evaluateCandidates input config, candidate.analyzedAt = input.analyzedAt := by
  intro candidate hcandidate
  rcases List.mem_cons.mp hcandidate with rfl | hcandidate
  · rfl
  · rw [List.mem_singleton.mp hcandidate]
    rfl

end Scoring

end StructurePulse.Strategy
