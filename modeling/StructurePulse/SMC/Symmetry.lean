import StructurePulse.SMC.Mirror
import StructurePulse.SMC.Truncation

/-!
# The running scans are mirror symmetric

The structure scan tests the bullish break first. That does not matter, because a latest
high and a latest low are never both broken by one candle: since the later of the two
formed, no candle has closed beyond either.
-/

namespace StructurePulse.SMC
open Library
set_option autoImplicit false

section LatestSwings
variable {swings swings' : List Swing}

def LatestSwings.mirror (latest : LatestSwings) : LatestSwings where
  high := latest.low.map Swing.mirror
  low := latest.high.map Swing.mirror

/-- The latest swing of a kind. -/
def LatestSwings.of (latest : LatestSwings) : SwingKind → Option Swing
  | .high => latest.high
  | .low => latest.low

theorem LatestSwings.ext_of {a b : LatestSwings} (h : ∀ kind, a.of kind = b.of kind) : a = b := by
  cases a
  cases b
  exact LatestSwings.mk.injEq _ _ _ _ ▸ ⟨h .high, h .low⟩

theorem LatestSwings.of_mirror (latest : LatestSwings) (kind : SwingKind) :
    latest.mirror.of kind.mirror = (latest.of kind).map Swing.mirror := by
  cases kind <;> rfl

theorem LatestSwings.of_take (latest : LatestSwings) (swing : Swing) (kind : SwingKind) :
    (latest.take swing).of kind = if swing.kind = kind then some swing else latest.of kind := by
  unfold LatestSwings.take
  cases hswing : swing.kind <;> cases kind <;> rfl

theorem LatestSwings.of_foldl_take (available : List Swing) (latest : LatestSwings)
    (kind : SwingKind) :
    (available.foldl LatestSwings.take latest).of kind =
      (available.filter fun swing => decide (swing.kind = kind)).foldl (fun _ swing => some swing)
        (latest.of kind) := by
  induction available generalizing latest with
  | nil => rfl
  | cons swing available ih =>
    rw [List.foldl_cons, ih, LatestSwings.of_take]
    by_cases hkind : swing.kind = kind
    · rw [if_pos hkind, List.filter_cons_of_pos (by simpa using hkind), List.foldl_cons]
    · rw [if_neg hkind, List.filter_cons_of_neg (by simpa using hkind)]

theorem foldl_some_map {α β : Type*} (f : α → β) (l : List α) (first : Option α) :
    (l.map f).foldl (fun _ y => some y) (first.map f) =
      (l.foldl (fun _ x => some x) first).map f := by
  induction l generalizing first with
  | nil => rfl
  | cons x l ih => exact ih (some x)

theorem advance_mirror (hswings : ∀ kind : SwingKind,
      swings'.filter (fun swing => decide (swing.kind = kind.mirror)) =
        (swings.filter fun swing => decide (swing.kind = kind)).map Swing.mirror)
    (latest : LatestSwings) (index : Nat) :
    latest.mirror.advance swings' index = (latest.advance swings index).mirror := by
  have havailable : ∀ kind : SwingKind,
      (availableAt swings' index).filter (fun swing => decide (swing.kind = kind.mirror)) =
        ((availableAt swings index).filter fun swing => decide (swing.kind = kind)).map
          Swing.mirror := by
    intro kind
    unfold availableAt
    rw [List.filter_comm, hswings, List.filter_map, List.filter_comm]
    rfl
  refine LatestSwings.ext_of fun kind => ?_
  obtain ⟨kind, rfl⟩ : ∃ other : SwingKind, kind = other.mirror := by
    cases kind
    · exact ⟨.low, rfl⟩
    · exact ⟨.high, rfl⟩
  rw [LatestSwings.of_mirror, LatestSwings.advance, LatestSwings.advance,
    LatestSwings.of_foldl_take, LatestSwings.of_foldl_take, havailable, LatestSwings.of_mirror,
    foldl_some_map]

end LatestSwings

section Standing
variable (candles : List Candle)

def Swing.IsBrokenBy (swing : Swing) (candle : Candle) : Prop :=
  match swing.kind with
  | .high => candle.closePrice > swing.price
  | .low => candle.closePrice < swing.price

/-- Since the swing formed, no candle has closed beyond it. -/
structure Swing.Standing (now : Nat) (swing : Swing) : Prop where
  before : swing.index < now
  unbroken : ∀ j candle, swing.index ≤ j → j < now → candles[j]? = some candle →
    ¬ swing.IsBrokenBy candle

structure LatestSwings.Standing (now : Nat) (latest : LatestSwings) : Prop where
  kind : ∀ kind swing, latest.of kind = some swing → swing.kind = kind
  standing : ∀ kind swing, latest.of kind = some swing → Swing.Standing candles now swing

theorem LatestSwings.standing_empty : LatestSwings.Standing candles 0 {} := by
  constructor
  · intro kind swing hof
    cases kind <;> cases hof
  · intro kind swing hof
    cases kind <;> cases hof

variable {candles}

/-- Up to its confirmation, no candle closes beyond a swing. -/
theorem detectSwings_standing {lookback : Nat} :
    ∀ swing ∈ detectSwings candles lookback,
      Swing.Standing candles (swing.confirmationIndex + 1) swing := by
  intro swing hswing
  unfold detectSwings at hswing
  rw [mem_sortedBy] at hswing
  obtain ⟨i, -, hi⟩ := List.mem_flatMap.mp hswing
  obtain ⟨hindex, hconf⟩ := swingsAt_index candles lookback i swing hi
  refine ⟨by omega, fun j candle hfrom hto hj => ?_⟩
  have hlow := candle.low_le_close
  have hhigh := candle.close_le_high
  -- the candle is the swing's own or one of its neighbours
  have hplace : j = i ∨ candle ∈ neighbours candles lookback i := by
    rcases Nat.eq_or_lt_of_le hfrom with h | h
    · exact Or.inl (by omega)
    · right
      refine List.mem_append_right _ (List.mem_of_getElem? (i := j - (i + 1)) ?_)
      rw [List.getElem?_take_of_lt (by omega), List.getElem?_drop, show i + 1 + (j - (i + 1)) = j by omega]
      exact hj
  unfold swingsAt at hi
  split at hi
  · cases hi
  · rename_i own hown
    unfold Swing.IsBrokenBy
    rcases List.mem_append.mp hi with h | h
    · split_ifs at h with hall
      · rw [List.mem_singleton.mp h]
        simp only [gt_iff_lt, not_lt]
        rcases hplace with rfl | hmem
        · rw [hj] at hown
          cases hown
          exact hhigh
        · have hbelow := of_decide_eq_true (List.all_eq_true.mp hall candle hmem)
          linarith
      · cases h
    · split_ifs at h with hall
      · rw [List.mem_singleton.mp h]
        simp only [not_lt]
        rcases hplace with rfl | hmem
        · rw [hj] at hown
          cases hown
          exact hlow
        · have habove := of_decide_eq_true (List.all_eq_true.mp hall candle hmem)
          linarith
      · cases h

theorem LatestSwings.Standing.advance {latest : LatestSwings} {now : Nat} {swings : List Swing}
    (h : latest.Standing candles now)
    (hswings : ∀ swing ∈ swings, Swing.Standing candles (swing.confirmationIndex + 1) swing) :
    (latest.advance swings now).Standing candles now := by
  have hfold : ∀ available : List Swing, (∀ swing ∈ available, Swing.Standing candles now swing) →
      ∀ latest : LatestSwings, latest.Standing candles now →
      (available.foldl LatestSwings.take latest).Standing candles now := by
    intro available
    induction available with
    | nil => exact fun _ _ h => h
    | cons swing available ih =>
      intro hall latest hlatest
      refine ih (fun s hs => hall s (List.mem_cons_of_mem swing hs)) _ ⟨?_, ?_⟩
      · intro kind s hs
        rw [LatestSwings.of_take] at hs
        split_ifs at hs with hkind
        · cases hs
          exact hkind
        · exact hlatest.kind kind s hs
      · intro kind s hs
        rw [LatestSwings.of_take] at hs
        split_ifs at hs with hkind
        · cases hs
          exact hall swing List.mem_cons_self
        · exact hlatest.standing kind s hs
  refine hfold _ (fun swing hswing => ?_) latest h
  obtain ⟨hmem, hconf⟩ := List.mem_filter.mp hswing
  rw [← of_decide_eq_true hconf]
  exact hswings swing hmem

/-- One candle never closes beyond both the latest high and the latest low. -/
theorem LatestSwings.Standing.not_both {latest : LatestSwings} {now : Nat} {candle : Candle}
    (h : latest.Standing candles now) (hnow : candles[now]? = some candle) {high : Swing}
    (hhigh : closedAbove latest candle = some high) : closedBelow latest candle = none := by
  cases hlow : closedBelow latest candle with
  | none => rfl
  | some low =>
    exfalso
    obtain ⟨hhigh, habove⟩ := Option.filter_eq_some_iff.mp hhigh
    obtain ⟨hlow, hbelow⟩ := Option.filter_eq_some_iff.mp hlow
    rw [decide_eq_true_eq] at habove hbelow
    have hkhigh := h.kind .high high hhigh
    have hklow := h.kind .low low hlow
    have hshigh := h.standing .high high hhigh
    have hslow := h.standing .low low hlow
    have hlength : now < candles.length := (List.getElem?_eq_some_iff.mp hnow).1
    -- neither is broken by the candle at which the later of the two formed
    have hlater : max high.index low.index < candles.length :=
      max_lt (hshigh.before.trans hlength) (hslow.before.trans hlength)
    have hget := List.getElem?_eq_getElem hlater
    have hnothigh := hshigh.unbroken _ _ (le_max_left _ _)
      (max_lt hshigh.before hslow.before) hget
    have hnotlow := hslow.unbroken _ _ (le_max_right _ _)
      (max_lt hshigh.before hslow.before) hget
    unfold Swing.IsBrokenBy at hnothigh hnotlow
    rw [hkhigh] at hnothigh
    rw [hklow] at hnotlow
    simp only [gt_iff_lt, not_lt] at hnothigh hnotlow
    linarith

end Standing

section Structure
variable {swings swings' : List Swing} {candles : List Candle}

theorem closedAbove_mirror (latest : LatestSwings) (candle : Candle) :
    closedAbove latest.mirror candle.mirror = (closedBelow latest candle).map Swing.mirror := by
  unfold closedAbove closedBelow LatestSwings.mirror
  rw [Option.filter_map]
  simp only [Function.comp_def, Swing.mirror, Candle.mirror, gt_iff_lt, neg_lt_neg_iff]

theorem closedBelow_mirror (latest : LatestSwings) (candle : Candle) :
    closedBelow latest.mirror candle.mirror = (closedAbove latest candle).map Swing.mirror := by
  unfold closedAbove closedBelow LatestSwings.mirror
  rw [Option.filter_map]
  simp only [Function.comp_def, Swing.mirror, Candle.mirror, gt_iff_lt, neg_lt_neg_iff]

def StructureState.mirror (state : StructureState) : StructureState where
  latest := state.latest.mirror
  trend := state.trend.map Direction.opposite

theorem structureBreak_mirror (trend : Option Direction) (direction : Direction) (target : Swing)
    (candle : Candle) (index : Nat) :
    structureBreak (trend.map Direction.opposite) direction.opposite target.mirror candle.mirror
        index = (structureBreak trend direction target candle index).mirror := by
  unfold structureBreak StructureBreak.mirror
  rcases trend with _ | _ | _ <;> cases direction <;> rfl

variable (hswings : ∀ kind : SwingKind,
  swings'.filter (fun swing => decide (swing.kind = SwingKind.mirror kind)) =
    (swings.filter fun swing => decide (swing.kind = kind)).map Swing.mirror)
variable (hstanding : ∀ swing ∈ swings,
  Swing.Standing candles (swing.confirmationIndex + 1) swing)

include hswings hstanding

theorem structureStep_mirror {state : StructureState} {candle : Candle} {index : Nat}
    (h : state.latest.Standing candles index) (hcandle : candles[index]? = some candle) :
    structureStep swings' state.mirror candle.mirror index =
      ((structureStep swings state candle index).1.mirror,
        (structureStep swings state candle index).2.map StructureBreak.mirror) := by
  have hnow := h.advance hstanding
  unfold structureStep StructureState.mirror
  simp only [advance_mirror hswings, closedAbove_mirror, closedBelow_mirror]
  cases hhigh : closedAbove (state.latest.advance swings index) candle with
  | some high =>
    rw [hnow.not_both hcandle hhigh]
    simp only [Option.map_some, Option.map_none, List.map_cons, List.map_nil]
    rw [← structureBreak_mirror]
    rfl
  | none =>
    cases hlow : closedBelow (state.latest.advance swings index) candle with
    | some low =>
      simp only [Option.map_some, List.map_cons, List.map_nil]
      rw [← structureBreak_mirror]
      rfl
    | none => rfl

omit hswings

/-- Swings that are still latest after a candle were not broken by it. -/
theorem structureStep_standing {state : StructureState} {candle : Candle} {index : Nat}
    (h : state.latest.Standing candles index) (hcandle : candles[index]? = some candle) :
    (structureStep swings state candle index).1.latest.Standing candles (index + 1) := by
  have hnow := h.advance hstanding
  have hlater : ∀ kind swing, (state.latest.advance swings index).of kind = some swing →
      ¬ swing.IsBrokenBy candle → Swing.Standing candles (index + 1) swing := by
    intro kind swing hof hnot
    have hs := hnow.standing kind swing hof
    refine ⟨Nat.lt_succ_of_lt hs.before, fun j other hfrom hto hj => ?_⟩
    rcases Nat.lt_succ_iff_lt_or_eq.mp hto with hlt | rfl
    · exact hs.unbroken j other hfrom hlt hj
    · rw [hcandle] at hj
      cases hj
      exact hnot
  have hhighs : closedAbove (state.latest.advance swings index) candle = none → ∀ swing,
      (state.latest.advance swings index).high = some swing → ¬ swing.IsBrokenBy candle := by
    intro hnone swing hswing hbroken
    unfold Swing.IsBrokenBy at hbroken
    rw [hnow.kind .high swing hswing] at hbroken
    rw [closedAbove, hswing, Option.filter_some, if_pos (decide_eq_true hbroken)] at hnone
    cases hnone
  have hlows : closedBelow (state.latest.advance swings index) candle = none → ∀ swing,
      (state.latest.advance swings index).low = some swing → ¬ swing.IsBrokenBy candle := by
    intro hnone swing hswing hbroken
    unfold Swing.IsBrokenBy at hbroken
    rw [hnow.kind .low swing hswing] at hbroken
    rw [closedBelow, hswing, Option.filter_some, if_pos (decide_eq_true hbroken)] at hnone
    cases hnone
  unfold structureStep
  simp only
  cases hhigh : closedAbove (state.latest.advance swings index) candle with
  | some high =>
    have hlow := hnow.not_both hcandle hhigh
    refine ⟨fun kind swing hof => ?_, fun kind swing hof => ?_⟩
    · cases kind with
      | high => cases hof
      | low => exact hnow.kind .low swing hof
    · cases kind with
      | high => cases hof
      | low => exact hlater .low swing hof (hlows hlow swing hof)
  | none =>
    cases hlow : closedBelow (state.latest.advance swings index) candle with
    | some low =>
      refine ⟨fun kind swing hof => ?_, fun kind swing hof => ?_⟩
      · cases kind with
        | high => exact hnow.kind .high swing hof
        | low => cases hof
      · cases kind with
        | high => exact hlater .high swing hof (hhighs hhigh swing hof)
        | low => cases hof
    | none =>
      refine ⟨hnow.kind, fun kind swing hof => hlater kind swing hof ?_⟩
      cases kind with
      | high => exact hhighs hhigh swing hof
      | low => exact hlows hlow swing hof

include hswings

theorem detectStructureBreaks_mirror :
    detectStructureBreaks swings' (candles.map Candle.mirror) =
      (detectStructureBreaks swings candles).map StructureBreak.mirror := by
  unfold detectStructureBreaks
  refine (emitFrom_lockstep
    (fun index state state' => state.latest.Standing candles index ∧ state' = state.mirror)
    (List.map StructureBreak.mirror) id (fun _ _ => List.map_append) (fun _ _ => rfl) rfl
    Candle.mirror ⟨LatestSwings.standing_empty candles, rfl⟩ ?_).symm
  rintro index candle state _ hcandle ⟨hstate, rfl⟩
  rw [Nat.zero_add] at hstate ⊢
  rw [structureStep_mirror hswings hstanding hstate hcandle]
  exact ⟨rfl, structureStep_standing hstanding hstate hcandle, rfl⟩

end Structure

section Sweeps
variable {swings swings' : List Swing} (hswings : ∀ kind : SwingKind,
  swings'.filter (fun swing => decide (swing.kind = SwingKind.mirror kind)) =
    (swings.filter fun swing => decide (swing.kind = kind)).map Swing.mirror)

theorem sweptHigh_mirror (latest : LatestSwings) (candle : Candle) :
    sweptHigh latest.mirror candle.mirror = (sweptLow latest candle).map Swing.mirror := by
  unfold sweptHigh sweptLow LatestSwings.mirror
  rw [Option.filter_map]
  simp only [Function.comp_def, Swing.mirror, Candle.mirror, gt_iff_lt, neg_lt_neg_iff]

theorem sweptLow_mirror (latest : LatestSwings) (candle : Candle) :
    sweptLow latest.mirror candle.mirror = (sweptHigh latest candle).map Swing.mirror := by
  unfold sweptHigh sweptLow LatestSwings.mirror
  rw [Option.filter_map]
  simp only [Function.comp_def, Swing.mirror, Candle.mirror, gt_iff_lt, neg_lt_neg_iff]

include hswings

theorem sweepStep_mirror (latest : LatestSwings) (candle : Candle) (index : Nat)
    (direction : Direction) :
    ((sweepStep swings latest candle index).2.filter fun sweep =>
        decide (sweep.direction = direction)).map LiquiditySweep.mirror =
      (sweepStep swings' latest.mirror candle.mirror index).2.filter (fun sweep =>
        decide (sweep.direction = direction.opposite)) ∧
    (sweepStep swings' latest.mirror candle.mirror index).1 =
      (sweepStep swings latest candle index).1.mirror := by
  unfold sweepStep
  simp only [advance_mirror hswings, sweptHigh_mirror, sweptLow_mirror]
  constructor
  · cases sweptHigh (latest.advance swings index) candle <;>
      cases sweptLow (latest.advance swings index) candle <;> cases direction <;> rfl
  · cases sweptHigh (latest.advance swings index) candle <;>
      cases sweptLow (latest.advance swings index) candle <;> rfl

theorem detectLiquiditySweeps_mirror (candles : List Candle) (direction : Direction) :
    (detectLiquiditySweeps swings' (candles.map Candle.mirror)).filter
        (fun sweep => decide (sweep.direction = direction.opposite)) =
      ((detectLiquiditySweeps swings candles).filter fun sweep =>
        decide (sweep.direction = direction)).map LiquiditySweep.mirror := by
  unfold detectLiquiditySweeps
  refine (emitFrom_lockstep (fun _ (latest latest' : LatestSwings) => latest' = latest.mirror)
    (fun sweeps => (sweeps.filter fun sweep => decide (sweep.direction = direction)).map
      LiquiditySweep.mirror)
    (fun sweeps => sweeps.filter fun sweep => decide (sweep.direction = direction.opposite))
    (fun l m => ?_) (fun l m => List.filter_append l m) rfl Candle.mirror
    (show ({} : LatestSwings) = LatestSwings.mirror {} from rfl) ?_).symm
  · rw [List.filter_append, List.map_append]
  · rintro index candle latest _ - rfl
    exact sweepStep_mirror hswings latest candle (0 + index) direction

end Sweeps

section Analysis

/-- `there` reports the mirror image of `here`; lists that mix both sides are compared
side by side. -/
structure MirrorImage (here there : SMCAnalysis) : Prop where
  symbol : there.symbol = here.symbol
  timeframe : there.timeframe = here.timeframe
  candleCount : there.candleCount = here.candleCount
  atr : there.atr = here.atr
  swings : ∀ kind : SwingKind,
    there.swings.filter (fun swing => decide (swing.kind = kind.mirror)) =
      (here.swings.filter fun swing => decide (swing.kind = kind)).map Swing.mirror
  structureBreaks : there.structureBreaks = here.structureBreaks.map StructureBreak.mirror
  liquiditySweeps : ∀ direction : Direction,
    there.liquiditySweeps.filter (fun sweep => decide (sweep.direction = direction.opposite)) =
      (here.liquiditySweeps.filter fun sweep => decide (sweep.direction = direction)).map
        LiquiditySweep.mirror
  equalLevels : ∀ kind : SwingKind,
    there.equalLevels.filter (fun level => decide (level.kind = kind.mirror)) =
      (here.equalLevels.filter fun level => decide (level.kind = kind)).map EqualLevel.mirror
  displacements : there.displacements = here.displacements.map Displacement.mirror
  fairValueGaps : there.fairValueGaps = here.fairValueGaps.map FairValueGap.mirror
  orderBlocks : there.orderBlocks = here.orderBlocks.map OrderBlock.mirror
  dealingRange : there.dealingRange = here.dealingRange.map DealingRange.mirror
  priceLocation : there.priceLocation = here.priceLocation.map PriceLocation.mirror

theorem analysisOf_mirror (config : SMCConfig) (candles : List Candle) (first last : Candle) :
    MirrorImage (analysisOf config candles first last)
      (analysisOf config (candles.map Candle.mirror) first.mirror last.mirror) := by
  have hswings := detectSwings_mirror candles (config.swingLookback first.timeframe)
  have hbreaks := detectStructureBreaks_mirror hswings
    (@detectSwings_standing candles (config.swingLookback first.timeframe))
  have hrange := activeDealingRange_mirror hswings
  constructor
  · rfl
  · rfl
  · exact List.length_map _
  · exact averageTrueRange_mirror candles config.atrPeriod
  · exact hswings
  · exact hbreaks
  · exact detectLiquiditySweeps_mirror hswings candles
  · simp only [analysisOf]
    rw [averageTrueRange_mirror]
    exact detectEqualLevels_mirror hswings _ _ _
  · simp only [analysisOf]
    rw [averageTrueRange_mirror]
    exact detectDisplacements_mirror config candles _
  · simp only [analysisOf]
    rw [averageTrueRange_mirror]
    exact detectFairValueGaps_mirror candles _ _
  · simp only [analysisOf]
    rw [averageTrueRange_mirror, detectDisplacements_mirror]
    exact (congrArg (fun breaks => detectOrderBlocks (candles.map Candle.mirror) breaks _ _)
      hbreaks).trans (orderBlocksFrom_mirror candles _ _ [] _)
  · exact hrange
  · simp only [analysisOf]
    refine (congrArg _ hrange).trans ?_
    cases activeDealingRange (detectSwings candles (config.swingLookback first.timeframe)) with
    | none => rfl
    | some dealingRange => exact congrArg some (classifyPrice_mirror last.closePrice dealingRange)

theorem validatePairs_mirror (first : Candle) (candles : List Candle) :
    validatePairs first.mirror (candles.map Candle.mirror) = validatePairs first candles := by
  induction candles with
  | nil => rfl
  | cons previous rest ih =>
    cases rest with
    | nil => rfl
    | cons candle rest =>
      rw [List.map_cons] at ih
      rw [List.map_cons, List.map_cons, validatePairs, validatePairs, ih]
      rfl

/-- The analysis of the mirrored series is the mirror image of the analysis. -/
theorem analyze_mirror (config : SMCConfig) {candles : List Candle}
    (hvalid : validateCandleSeries candles = .ok ()) :
    ∃ here there, analyze config candles = .ok here ∧
      analyze config (candles.map Candle.mirror) = .ok there ∧ MirrorImage here there := by
  cases candles with
  | nil => cases hvalid
  | cons first rest =>
    have hvalid' : validateCandleSeries ((first :: rest).map Candle.mirror) = .ok () :=
      (validatePairs_mirror first (first :: rest)).trans hvalid
    obtain ⟨first', last, hfirst, hlast, hhere⟩ := analyze_eq config hvalid
    obtain ⟨first'', last', hfirst', hlast', hthere⟩ := analyze_eq config hvalid'
    rw [List.head?_map, hfirst] at hfirst'
    rw [List.getLast?_map, hlast] at hlast'
    cases hfirst'
    cases hlast'
    exact ⟨_, _, hhere, hthere, analysisOf_mirror config (first :: rest) first' last⟩

end Analysis

section Sample

/-- A high that the last candle closes above. -/
def swingSeries : List Candle :=
  [.drawn .h1 0 10 11 11 12, .drawn .h1 1 10 12 12 14, .drawn .h1 2 10 11 11 12,
    .drawn .h1 3 10 15 15 16]

theorem analyze_mirror_sample :
    validateCandleSeries swingSeries = .ok () ∧
    (detectStructureBreaks (detectSwings swingSeries 1) swingSeries).length = 1 ∧
    ∃ here there, analyze .standard swingSeries = .ok here ∧
      analyze .standard (swingSeries.map Candle.mirror) = .ok there ∧ MirrorImage here there :=
  ⟨by decide +kernel, by decide +kernel, analyze_mirror .standard (by decide +kernel)⟩

end Sample

end StructurePulse.SMC
