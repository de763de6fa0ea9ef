import StructurePulse.Library.FirstUses
import StructurePulse.SMC.Breaks
import StructurePulse.SMC.Gaps

/-!
# Which order blocks there are, and how they age

A break that a displacement confirms makes a block of the last opposite candle in the search
window, unless an earlier block of the direction has taken that candle. The block is
invalidated at the first close beyond its far bound and touched at the first wick that reaches
its near bound before.
-/

namespace StructurePulse.SMC
open Library
set_option autoImplicit false

section Age
variable (block : OrderBlock) (candles : List Candle)

/-- The candles after the block was created. -/
def OrderBlock.later : List Candle := candles.drop (block.createdIndex + 1)

/-- The rule of the age of a block. -/
structure OrderBlock.Ages : Prop where
  invalidated : block.status = .invalidated ↔
    ∃ candle ∈ block.later candles, block.isInvalidatedBy candle = true
  partiallyFilled : block.status = .partiallyFilled ↔
    ¬ (∃ candle ∈ block.later candles, block.isInvalidatedBy candle = true) ∧
      ∃ candle ∈ block.later candles, block.isTouchedBy candle = true
  opened : block.status = .open ↔
    ¬ (∃ candle ∈ block.later candles, block.isInvalidatedBy candle = true) ∧
      ¬ ∃ candle ∈ block.later candles, block.isTouchedBy candle = true
  ended : ∀ i, block.invalidatedIndex = some i ↔
    FirstAt block.isInvalidatedBy candles (block.createdIndex + 1) i
  touched : ∀ i, block.firstTouchIndex = some i ↔
    FirstAt block.isTouchedBy candles (block.createdIndex + 1) i ∧
      ∀ j, block.invalidatedIndex = some j → i < j

/-- A touch counts before the end only. -/
def touchBefore : Option Nat → Option Nat → Option Nat
  | none, touch => touch
  | some ended, touch => touch.filter fun index => decide (index < ended)

theorem touchBefore_eq_some_iff {ended touch : Option Nat} {i : Nat} :
    touchBefore ended touch = some i ↔ touch = some i ∧ ∀ j, ended = some j → i < j := by
  cases ended with
  | none => exact (and_iff_left (fun j hj => by cases hj)).symm
  | some j =>
    rw [touchBefore, Option.filter_eq_some_iff, decide_eq_true_eq]
    exact and_congr_right fun _ => ⟨fun h k hk => by cases hk; exact h, fun h => h j rfl⟩

theorem touchBefore_of_none {ended touch : Option Nat} (h : ¬ ended ≠ none) :
    touchBefore ended touch = none ↔ touch = none := by
  rw [not_not.mp h]
  rfl

theorem le_of_firstFrom {α : Type*} {hit : α → Bool} {xs : List α} {start i : Nat}
    (h : firstFrom hit start xs = some i) : start ≤ i := by
  induction xs generalizing start with
  | nil => cases h
  | cons x xs ih =>
    rw [firstFrom] at h
    split_ifs at h with hhit
    · exact Nat.le_of_eq (Option.some.inj h)
    · exact Nat.le_of_succ_le (ih h)

variable {block candles}

/-- The scan of a block ends at the first invalidating candle. -/
theorem resolveOrderBlockFrom_eq (hopen : block.invalidatedIndex = none) {status : ZoneStatus}
    {firstTouch : Option Nat} (hwait : Waiting status firstTouch) (index : Nat)
    (candles : List Candle) :
    resolveOrderBlockFrom block index status firstTouch candles =
      { block with
        status := .settled .invalidated (firstFrom block.isInvalidatedBy index candles)
          (firstTouch.or (touchBefore (firstFrom block.isInvalidatedBy index candles)
            (firstFrom block.isTouchedBy index candles)))
        firstTouchIndex := firstTouch.or
          (touchBefore (firstFrom block.isInvalidatedBy index candles)
            (firstFrom block.isTouchedBy index candles))
        invalidatedIndex := firstFrom block.isInvalidatedBy index candles } := by
  induction candles generalizing index status firstTouch with
  | nil =>
    simp only [resolveOrderBlockFrom, firstFrom, touchBefore, Option.or_none]
    rw [← hwait.settled .invalidated, ← hopen]
  | cons candle candles ih =>
    rw [resolveOrderBlockFrom]
    by_cases hinvalid : block.isInvalidatedBy candle = true
    · have hnone : touchBefore (some index) (firstFrom block.isTouchedBy index (candle :: candles)) =
          none := by
        rw [Option.eq_none_iff_forall_ne_some]
        intro i hi
        obtain ⟨hfirst, hbefore⟩ := touchBefore_eq_some_iff.mp hi
        exact absurd (le_of_firstFrom hfirst) (Nat.not_le_of_lt (hbefore index rfl))
      rw [if_pos hinvalid, show firstFrom block.isInvalidatedBy index (candle :: candles) = some index
        from if_pos hinvalid, hnone, Option.or_none]
      rfl
    · have hended : firstFrom block.isInvalidatedBy index (candle :: candles) =
          firstFrom block.isInvalidatedBy (index + 1) candles := if_neg hinvalid
      rw [if_neg hinvalid, hended]
      by_cases htouched : block.isTouchedBy candle = true
      · have htouch : touchBefore (firstFrom block.isInvalidatedBy (index + 1) candles)
            (firstFrom block.isTouchedBy index (candle :: candles)) = some index := by
          refine touchBefore_eq_some_iff.mpr ⟨if_pos htouched, fun j hj => ?_⟩
          exact Nat.lt_of_succ_le (le_of_firstFrom hj)
        rw [htouch, htouched, Bool.true_and]
        cases hfirst : firstTouch with
        | none =>
          rw [if_pos Option.isNone_none, ih (Or.inr ⟨rfl, Option.some_ne_none _⟩), Option.some_or, Option.none_or]
        | some i =>
          rw [hfirst] at hwait
          rw [if_neg (by simp), ih hwait, Option.some_or, Option.some_or]
      · have htouch : firstFrom block.isTouchedBy index (candle :: candles) =
            firstFrom block.isTouchedBy (index + 1) candles := if_neg htouched
        rw [htouch, Bool.eq_false_iff.mpr htouched, Bool.false_and, if_neg Bool.false_ne_true, ih hwait]

/-- A block that was just created ages by the rule. -/
theorem resolveOrderBlock_ages (hstatus : block.status = .open)
    (hopen : block.invalidatedIndex = none) : (resolveOrderBlock candles block).Ages candles := by
  have hresolve : resolveOrderBlock candles block = _ :=
    resolveOrderBlockFrom_eq hopen (Or.inl ⟨hstatus, rfl⟩) (block.createdIndex + 1)
      (candles.drop (block.createdIndex + 1))
  rw [Option.none_or] at hresolve
  have hends := @firstFrom_drop_eq_some_iff _ block.isInvalidatedBy (block.createdIndex + 1)
  have htouches := @firstFrom_drop_eq_some_iff _ block.isTouchedBy (block.createdIndex + 1)
  have hended : firstFrom block.isInvalidatedBy (block.createdIndex + 1) (block.later candles) ≠ none ↔
      ∃ candle ∈ block.later candles, block.isInvalidatedBy candle = true := firstFrom_ne_none_iff
  have htouched : firstFrom block.isTouchedBy (block.createdIndex + 1) (block.later candles) ≠ none ↔
      ∃ candle ∈ block.later candles, block.isTouchedBy candle = true := firstFrom_ne_none_iff
  have hlast : ZoneStatus.invalidated ≠ .open ∧ ZoneStatus.invalidated ≠ .partiallyFilled := by
    decide
  -- before the end, a touch is a touch
  have hkept := @touchBefore_of_none
    (firstFrom block.isInvalidatedBy (block.createdIndex + 1) (block.later candles))
    (firstFrom block.isTouchedBy (block.createdIndex + 1) (block.later candles))
  rw [hresolve]
  refine ⟨?_, ?_, ?_, fun i => hends candles, fun i => ?_⟩
  · exact (settled_eq_last_iff hlast.1 hlast.2).trans hended
  · exact (settled_eq_partiallyFilled_iff hlast.2).trans ((and_congr_right fun hnone =>
      not_congr (hkept hnone)).trans (and_congr (not_congr hended) htouched))
  · exact (settled_eq_open_iff hlast.1).trans ((and_congr_right fun hnone =>
      not_congr (not_congr (hkept hnone))).trans (and_congr (not_congr hended) (not_congr htouched)))
  · exact touchBefore_eq_some_iff.trans (and_congr_left' (htouches candles))

end Age

section Blocks
variable {candles : List Candle} {displacements : List Displacement} {searchLookback : Nat}

/-- The last candle against the break in the search window before it. -/
structure IsSource (candles : List Candle) (searchLookback : Nat) (event : StructureBreak)
    (source : Nat) : Prop where
  window : event.index - searchLookback ≤ source ∧ source < event.index
  opposite : (candles[source]?).bind Candle.direction = some event.direction.opposite
  last : ∀ j, source < j → j < event.index →
    (candles[j]?).bind Candle.direction ≠ some event.direction.opposite

theorem sourceIndex_eq_some_iff {event : StructureBreak} {source : Nat} :
    sourceIndex candles searchLookback event = some source ↔
      IsSource candles searchLookback event source := by
  have hend : event.index - searchLookback + (event.index - (event.index - searchLookback)) =
      event.index := by omega
  unfold sourceIndex
  simp only
  rw [find?_reverse_range'_eq_some_iff, hend]
  simp only [decide_eq_true_eq, decide_eq_false_iff_not]
  constructor
  · rintro ⟨hle, hlt, hopposite, hafter⟩
    exact ⟨⟨hle, hlt⟩, hopposite, hafter⟩
  · intro h
    exact ⟨h.window.1, h.window.2, h.opposite, h.last⟩

/-- The displacement at an index, where there is at most one. -/
theorem displacementBy_eq_some_iff
    (hone : displacements.Pairwise fun a b => a.index < b.index) {index : Nat}
    {displacement : Displacement} :
    displacementBy displacements index = some displacement ↔
      displacement ∈ displacements ∧ displacement.index = index := by
  unfold displacementBy
  constructor
  · intro h
    have hindex := List.find?_some h
    simp only [decide_eq_true_eq] at hindex
    exact ⟨List.mem_reverse.mp (List.mem_of_find?_eq_some h), hindex⟩
  · rintro ⟨hmem, hindex⟩
    cases hfound : displacements.reverse.find? fun event => decide (event.index = index) with
    | none =>
      have hnone := List.find?_eq_none.mp hfound displacement (List.mem_reverse.mpr hmem)
      exact absurd (decide_eq_true hindex) hnone
    | some other =>
      have hother := List.mem_reverse.mp (List.mem_of_find?_eq_some hfound)
      have hsame := List.find?_some hfound
      simp only [decide_eq_true_eq] at hsame
      rcases pairwise_trichotomy hone hother hmem with heq | hlt | hlt
      · rw [heq]
      · omega
      · omega

/-- The block of a break, by its rule. -/
theorem blockAt_eq_some_iff (hone : displacements.Pairwise fun a b => a.index < b.index)
    {event : StructureBreak} {block : OrderBlock} :
    blockAt candles displacements searchLookback event = some block ↔
      (∃ displacement ∈ displacements, displacement.index = event.index ∧
        displacement.direction = event.direction) ∧
      ∃ source candle, IsSource candles searchLookback event source ∧
        candles[source]? = some candle ∧
        block = {
          direction := event.direction
          candleIndex := source
          createdIndex := event.index
          createdAt := event.time
          lowerPrice := candle.lowPrice
          upperPrice := candle.highPrice
          breakEvent := event
          status := .open } := by
  unfold blockAt
  constructor
  · intro h
    split at h
    · cases h
    · rename_i displacement hdisplacement
      obtain ⟨hmem, hindex⟩ := (displacementBy_eq_some_iff hone).mp hdisplacement
      split_ifs at h with hdirection
      split at h
      · cases h
      · rename_i source hsource
        obtain ⟨candle, hcandle, rfl⟩ := Option.map_eq_some_iff.mp h
        exact ⟨⟨displacement, hmem, hindex, not_not.mp hdirection⟩, source, candle,
          sourceIndex_eq_some_iff.mp hsource, hcandle, rfl⟩
  · rintro ⟨⟨displacement, hmem, hindex, hdirection⟩, source, candle, hsource, hcandle, rfl⟩
    rw [(displacementBy_eq_some_iff hone).mpr ⟨hmem, hindex⟩]
    simp only
    rw [if_neg (not_not.mpr hdirection), sourceIndex_eq_some_iff.mpr hsource]
    simp only
    rw [hcandle]
    rfl

/-- A block is known by its direction and its source. -/
def OrderBlock.key (block : OrderBlock) : Direction × Nat := (block.direction, block.candleIndex)

theorem orderBlocksFrom_eq (used : List (Direction × Nat)) (breaks : List StructureBreak) :
    orderBlocksFrom candles displacements searchLookback used breaks =
      (firstUses (blockAt candles displacements searchLookback) OrderBlock.key used breaks).map
        (resolveOrderBlock candles) := by
  induction breaks generalizing used with
  | nil => rfl
  | cons event breaks ih =>
    rw [orderBlocksFrom, firstUses]
    cases blockAt candles displacements searchLookback event with
    | none => exact ih used
    | some block =>
      simp only
      by_cases hused : block.key ∈ used
      · rw [if_pos hused]
        exact (if_pos hused).trans (ih used)
      · rw [if_neg hused, List.map_cons, ← ih]
        exact if_neg hused

theorem resolveOrderBlock_same {block : OrderBlock} (hstatus : block.status = .open)
    (hopen : block.invalidatedIndex = none) :
    resolveOrderBlock candles block = { block with
      status := (resolveOrderBlock candles block).status
      firstTouchIndex := (resolveOrderBlock candles block).firstTouchIndex
      invalidatedIndex := (resolveOrderBlock candles block).invalidatedIndex } :=
  (resolveOrderBlockFrom_advances block hopen (Or.inl ⟨hstatus, rfl⟩) (block.createdIndex + 1)
    (candles.drop (block.createdIndex + 1))).same

theorem resolveOrderBlock_opened {event : StructureBreak} {block : OrderBlock}
    (h : blockAt candles displacements searchLookback event = some block) :
    (resolveOrderBlock candles block).key = block.key ∧
      (resolveOrderBlock candles block).createdIndex = block.createdIndex ∧
      (resolveOrderBlock candles block).breakEvent = block.breakEvent := by
  obtain ⟨-, hstatus, hopen⟩ := blockAt_eq h
  rw [resolveOrderBlock_same hstatus hopen]
  exact ⟨rfl, rfl, rfl⟩

theorem mem_detectOrderBlocks {breaks : List StructureBreak} {block : OrderBlock} :
    block ∈ detectOrderBlocks candles breaks displacements searchLookback ↔
      ∃ created ∈ firstUses (blockAt candles displacements searchLookback) OrderBlock.key [] breaks,
        resolveOrderBlock candles created = block := by
  rw [detectOrderBlocks, orderBlocksFrom_eq]
  exact List.mem_map

/-- What an earlier block uses, it used when it was created. -/
theorem unused_iff {breaks : List StructureBreak} (event : StructureBreak) (source : Nat) :
    (∀ other ∈ firstUses (blockAt candles displacements searchLookback) OrderBlock.key [] breaks,
      other.createdIndex < event.index → other.key ≠ (event.direction, source)) ↔
    ∀ other ∈ detectOrderBlocks candles breaks displacements searchLookback,
      other.createdIndex < event.index → other.direction = event.direction →
        other.candleIndex ≠ source := by
  rw [detectOrderBlocks, orderBlocksFrom_eq, List.forall_mem_map]
  refine forall₂_congr fun other hother => ?_
  obtain ⟨-, first, -, hfound⟩ := of_mem_firstUses hother
  obtain ⟨hkey, hcreated, -⟩ := resolveOrderBlock_opened hfound
  rw [hcreated]
  refine imp_congr_right fun _ => ?_
  rw [← hkey, Ne, Prod.ext_iff]
  exact not_and

theorem nodup_detectOrderBlocks (breaks : List StructureBreak) :
    ((detectOrderBlocks candles breaks displacements searchLookback).map OrderBlock.key).Nodup := by
  have hkeys : (detectOrderBlocks candles breaks displacements searchLookback).map OrderBlock.key =
      (firstUses (blockAt candles displacements searchLookback) OrderBlock.key [] breaks).map
        OrderBlock.key := by
    rw [detectOrderBlocks, orderBlocksFrom_eq, List.map_map]
    refine List.map_congr_left fun created hcreated => ?_
    obtain ⟨-, event, -, hfound⟩ := of_mem_firstUses hcreated
    exact (resolveOrderBlock_opened hfound).1
  rw [hkeys]
  exact nodup_keys_firstUses [] breaks

section Sorted
variable {breaks : List StructureBreak} (hone : displacements.Pairwise fun a b => a.index < b.index)
include hone

/-- Which blocks the breaks get, when no two breaks stand at one candle. -/
theorem opened_iff (hsorted : breaks.Pairwise fun a b => a.index < b.index) {event : StructureBreak}
    (hevent : event ∈ breaks) {source : Nat} :
    (∃ block ∈ detectOrderBlocks candles breaks displacements searchLookback,
        block.breakEvent = event ∧ block.candleIndex = source) ↔
      (∃ displacement ∈ displacements, displacement.index = event.index ∧
        displacement.direction = event.direction) ∧
      IsSource candles searchLookback event source ∧
      ∀ other ∈ detectOrderBlocks candles breaks displacements searchLookback,
        other.createdIndex < event.index → other.direction = event.direction →
          other.candleIndex ≠ source := by
  have hmade : ∀ (event : StructureBreak) block,
      blockAt candles displacements searchLookback event = some block →
      block.createdIndex = event.index := fun event block h => (blockAt_eq h).1
  rw [← unused_iff]
  constructor
  · rintro ⟨block, hblock, hbreak, hindex⟩
    obtain ⟨created, hcreated, rfl⟩ := mem_detectOrderBlocks.mp hblock
    obtain ⟨-, other, hother, hfound⟩ := of_mem_firstUses hcreated
    obtain ⟨hkey, -, hevents⟩ := resolveOrderBlock_opened hfound
    obtain ⟨hdisplaced, found, candle, hsource, -, heq⟩ := (blockAt_eq_some_iff hone).mp hfound
    have hsame : other = event := by
      rw [← hbreak, hevents, heq]
    have hat : found = source := calc
      found = created.candleIndex := by rw [heq]
      _ = source := (congrArg Prod.snd hkey).symm.trans hindex
    have hkept := ((mem_firstUses_iff hmade hsorted hother hfound).mp hcreated).2
    have hcreatedKey : created.key = (event.direction, source) := by
      rw [heq, ← hsame, ← hat]
      rfl
    rw [hcreatedKey] at hkept
    subst hsame hat
    exact ⟨hdisplaced, hsource, hkept⟩
  · rintro ⟨hdisplaced, hsource, hunused⟩
    obtain ⟨candle, hcandle, -⟩ := Option.bind_eq_some_iff.mp hsource.opposite
    have hfound := (blockAt_eq_some_iff hone).mpr ⟨hdisplaced, source, candle, hsource, hcandle, rfl⟩
    have hcreated := (mem_firstUses_iff hmade hsorted hevent hfound).mpr ⟨List.not_mem_nil, hunused⟩
    obtain ⟨hkey, -, hevents⟩ := resolveOrderBlock_opened hfound
    exact ⟨_, mem_detectOrderBlocks.mpr ⟨_, hcreated, rfl⟩, hevents, congrArg Prod.snd hkey⟩

/-- What a block carries and how it ages. -/
theorem detectOrderBlocks_spec {block : OrderBlock}
    (hblock : block ∈ detectOrderBlocks candles breaks displacements searchLookback) :
    block.breakEvent ∈ breaks ∧ block.direction = block.breakEvent.direction ∧
      block.createdIndex = block.breakEvent.index ∧ block.createdAt = block.breakEvent.time ∧
      (∃ candle, candles[block.candleIndex]? = some candle ∧
        block.lowerPrice = candle.lowPrice ∧ block.upperPrice = candle.highPrice) ∧
      block.Ages candles := by
  obtain ⟨created, hcreated, rfl⟩ := mem_detectOrderBlocks.mp hblock
  obtain ⟨-, event, hevent, hfound⟩ := of_mem_firstUses hcreated
  obtain ⟨-, hstatus, hopen⟩ := blockAt_eq hfound
  obtain ⟨-, source, candle, -, hcandle, rfl⟩ := (blockAt_eq_some_iff hone).mp hfound
  have hages := @resolveOrderBlock_ages _ candles hstatus hopen
  have hsame := @resolveOrderBlock_same candles _ hstatus hopen
  refine ⟨?_, ?_, ?_, ?_, ⟨candle, ?_, ?_, ?_⟩, hages⟩
  · rw [hsame]
    exact hevent
  · rw [hsame]
  · rw [hsame]
  · rw [hsame]
  · rw [hsame]
    exact hcandle
  · rw [hsame]
  · rw [hsame]

end Sorted

end Blocks

section Result

theorem detectDisplacements_increasing (config : SMCConfig) (candles : List Candle)
    (atrValues : List (Option ℚ)) :
    (detectDisplacements config candles atrValues).Pairwise fun a b => a.index < b.index := by
  unfold detectDisplacements
  refine pairwise_emitFrom_of_steps (fun _ candle i event hevent => ?_) (fun _ candle i => ?_)
    (fun _ _ h => h) candles 0 ()
  · exact displacementAt_index (Option.mem_toList.mp hevent)
  · simp only
    generalize displacementAt config _ _ candle i = found
    cases found with
    | none => exact List.Pairwise.nil
    | some event => exact List.pairwise_singleton _ _

/-- The blocks of the breaks of any swings and the displacements of any averages, in
particular of those of an analysis. -/
theorem order_blocks_exact (config : SMCConfig) (candles : List Candle) (swings : List Swing)
    (atrValues : List (Option ℚ)) (searchLookback : Nat) :
    let breaks := detectStructureBreaks swings candles
    let displacements := detectDisplacements config candles atrValues
    let blocks := detectOrderBlocks candles breaks displacements searchLookback
    (∀ event ∈ breaks, ∀ source,
      (∃ block ∈ blocks, block.breakEvent = event ∧ block.candleIndex = source) ↔
        (∃ displacement ∈ displacements, displacement.index = event.index ∧
          displacement.direction = event.direction) ∧
        IsSource candles searchLookback event source ∧
        ∀ other ∈ blocks, other.createdIndex < event.index → other.direction = event.direction →
          other.candleIndex ≠ source) ∧
    (∀ block ∈ blocks, block.breakEvent ∈ breaks ∧
      block.direction = block.breakEvent.direction ∧
      block.createdIndex = block.breakEvent.index ∧ block.createdAt = block.breakEvent.time ∧
      (∃ candle, candles[block.candleIndex]? = some candle ∧
        block.lowerPrice = candle.lowPrice ∧ block.upperPrice = candle.highPrice) ∧
      block.Ages candles) ∧
    (blocks.map OrderBlock.key).Nodup := by
  intro breaks displacements blocks
  have hone : displacements.Pairwise fun a b => a.index < b.index :=
    detectDisplacements_increasing config candles atrValues
  have hsorted : breaks.Pairwise fun a b => a.index < b.index := structureBreaks_increasing candles
  refine ⟨fun event hevent source => ?_, fun block hblock => ?_, ?_⟩
  · exact opened_iff hone hsorted hevent
  · exact detectOrderBlocks_spec hone hblock
  · exact nodup_detectOrderBlocks breaks

end Result

end StructurePulse.SMC
