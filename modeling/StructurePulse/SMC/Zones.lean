import StructurePulse.SMC.Analysis
import Mathlib.Data.List.Find

/-!
# Zones on a longer series

Gaps and order blocks are created once, from the candles up to their creation. More
candles only move their status forward.
-/

namespace StructurePulse.SMC
open Library
set_option autoImplicit false

section Zones

/-- How the status of a zone moves when its last status is `last`. -/
inductive ZoneStatus.Forward (last : ZoneStatus) : ZoneStatus → ZoneStatus → Prop where
  | waits : Forward last .open .open
  | touches : Forward last .open .partiallyFilled
  | keeps : Forward last .partiallyFilled .partiallyFilled
  | resolvesAtOnce : Forward last .open last
  | resolves : Forward last .partiallyFilled last
  | stays : Forward last last last

/-- What changes in a zone after it was created. -/
structure ZoneLife where
  status : ZoneStatus
  firstTouchIndex : Option Nat
  endIndex : Option Nat
  deriving DecidableEq

structure ZoneLife.Advances (last : ZoneStatus) (early late : ZoneLife) : Prop where
  forward : ZoneStatus.Forward last early.status late.status
  final : early.status = last → late = early
  firstTouch : ∀ i, early.firstTouchIndex = some i → late.firstTouchIndex = some i
  ended : ∀ i, early.endIndex = some i → late.endIndex = some i

def FairValueGap.life (gap : FairValueGap) : ZoneLife :=
  ⟨gap.status, gap.firstTouchIndex, gap.resolvedIndex⟩

def OrderBlock.life (block : OrderBlock) : ZoneLife :=
  ⟨block.status, block.firstTouchIndex, block.invalidatedIndex⟩

/-- The same gap, seen later. -/
structure FairValueGap.Advances (early late : FairValueGap) : Prop where
  same : late = { early with
    status := late.status
    firstTouchIndex := late.firstTouchIndex
    resolvedIndex := late.resolvedIndex }
  life : ZoneLife.Advances .filled early.life late.life

/-- The same block, seen later. -/
structure OrderBlock.Advances (early late : OrderBlock) : Prop where
  same : late = { early with
    status := late.status
    firstTouchIndex := late.firstTouchIndex
    invalidatedIndex := late.invalidatedIndex }
  life : ZoneLife.Advances .invalidated early.life late.life

theorem ZoneStatus.Forward.trans {last a b c : ZoneStatus} (hopen : last ≠ .open)
    (htouched : last ≠ .partiallyFilled) (h : Forward last a b) (h' : Forward last b c) :
    Forward last a c := by
  cases h with
  | waits => exact h'
  | keeps => exact h'
  | stays => exact h'
  | touches =>
    cases h' with
    | keeps => exact .touches
    | resolves => exact .resolvesAtOnce
    | stays => exact absurd rfl htouched
  | resolvesAtOnce =>
    cases h' with
    | waits => exact absurd rfl hopen
    | touches => exact absurd rfl hopen
    | keeps => exact absurd rfl htouched
    | resolvesAtOnce => exact absurd rfl hopen
    | resolves => exact absurd rfl htouched
    | stays => exact .resolvesAtOnce
  | resolves =>
    cases h' with
    | waits => exact absurd rfl hopen
    | touches => exact absurd rfl hopen
    | keeps => exact absurd rfl htouched
    | resolvesAtOnce => exact absurd rfl hopen
    | resolves => exact absurd rfl htouched
    | stays => exact .resolves

theorem ZoneLife.Advances.trans {last : ZoneStatus} {a b c : ZoneLife} (hopen : last ≠ .open)
    (htouched : last ≠ .partiallyFilled) (h : Advances last a b) (h' : Advances last b c) :
    Advances last a c := by
  refine ⟨h.forward.trans hopen htouched h'.forward, fun ha => ?_, fun i hi => ?_, fun i hi => ?_⟩
  · have hb := h.final ha
    rw [h'.final (by rw [hb]; exact ha), hb]
  · exact h'.firstTouch i (h.firstTouch i hi)
  · exact h'.ended i (h.ended i hi)

/-- A zone on its way: open until the first touch, then partially filled. -/
def Waiting (status : ZoneStatus) (firstTouch : Option Nat) : Prop :=
  (status = .open ∧ firstTouch = none) ∨ (status = .partiallyFilled ∧ firstTouch ≠ none)

theorem Waiting.ne {status : ZoneStatus} {firstTouch : Option Nat} (h : Waiting status firstTouch)
    {last : ZoneStatus} (hopen : last ≠ .open) (htouched : last ≠ .partiallyFilled) :
    status ≠ last := by
  rcases h with ⟨rfl, -⟩ | ⟨rfl, -⟩
  · exact hopen.symm
  · exact htouched.symm

theorem Waiting.forward_end {status : ZoneStatus} {firstTouch : Option Nat}
    (h : Waiting status firstTouch) (last : ZoneStatus) : ZoneStatus.Forward last status last := by
  rcases h with ⟨rfl, -⟩ | ⟨rfl, -⟩
  · exact .resolvesAtOnce
  · exact .resolves

theorem Waiting.forward_touch {status : ZoneStatus} {firstTouch : Option Nat}
    (h : Waiting status firstTouch) (last : ZoneStatus) :
    ZoneStatus.Forward last status .partiallyFilled := by
  rcases h with ⟨rfl, -⟩ | ⟨rfl, -⟩
  · exact .touches
  · exact .keeps

theorem Waiting.forward_refl {status : ZoneStatus} {firstTouch : Option Nat}
    (h : Waiting status firstTouch) (last : ZoneStatus) : ZoneStatus.Forward last status status := by
  rcases h with ⟨rfl, -⟩ | ⟨rfl, -⟩
  · exact .waits
  · exact .keeps

/-- A zone on its way may move to any later status, keeping its first touch. -/
theorem Waiting.advances {last status status' : ZoneStatus} {firstTouch firstTouch' : Option Nat}
    (h : Waiting status firstTouch) (hopen : last ≠ .open) (htouched : last ≠ .partiallyFilled)
    (hforward : ZoneStatus.Forward last status status')
    (hkept : ∀ i, firstTouch = some i → firstTouch' = some i) (endIndex : Option Nat) :
    ZoneLife.Advances last ⟨status, firstTouch, none⟩ ⟨status', firstTouch', endIndex⟩ where
  forward := hforward
  final := fun hlast => absurd hlast (h.ne hopen htouched)
  firstTouch := hkept
  ended := fun _ hi => nomatch hi

theorem ZoneLife.advances_self {last : ZoneStatus} {life : ZoneLife} (h : life.status = last) :
    ZoneLife.Advances last life life where
  forward := by rw [h]; exact .stays
  final := fun _ => rfl
  firstTouch := fun _ hi => hi
  ended := fun _ hi => hi

end Zones

section Gaps
variable (gap : FairValueGap) (hopen : gap.resolvedIndex = none)

theorem FairValueGap.Advances.trans {a b c : FairValueGap} (h : a.Advances b) (h' : b.Advances c) :
    a.Advances c where
  same := by
    have hb := h.same
    have hc := h'.same
    rw [hb] at hc
    exact hc
  life := h.life.trans (by decide) (by decide) h'.life

include hopen

/-- More candles only move a gap forward. -/
theorem resolveGapFrom_advances {status : ZoneStatus} {firstTouch : Option Nat}
    (hwait : Waiting status firstTouch) (index : Nat) (candles : List Candle) :
    FairValueGap.Advances { gap with status := status, firstTouchIndex := firstTouch }
      (resolveGapFrom gap index status firstTouch candles) := by
  have hkept : ∀ k i, firstTouch = some i → some (firstTouch.getD k) = some i := by
    rintro k i rfl
    rfl
  induction candles generalizing index status firstTouch with
  | nil =>
    refine ⟨rfl, ?_⟩
    unfold FairValueGap.life
    rw [resolveGapFrom, hopen]
    exact hwait.advances (by decide) (by decide) (hwait.forward_refl _) (fun _ hi => hi) none
  | cons candle candles ih =>
    rw [resolveGapFrom]
    split_ifs with hfilled htouched
    · refine ⟨rfl, ?_⟩
      unfold FairValueGap.life
      rw [hopen]
      exact hwait.advances (by decide) (by decide) (hwait.forward_end _) (hkept index) (some index)
    · refine FairValueGap.Advances.trans ⟨rfl, ?_⟩
        (ih (Or.inr ⟨rfl, Option.some_ne_none _⟩) (index + 1) fun _ _ hi => hi)
      unfold FairValueGap.life
      rw [hopen]
      exact hwait.advances (by decide) (by decide) (hwait.forward_touch _) (hkept index) none
    · exact ih hwait (index + 1) hkept

theorem resolveGapFrom_append {status : ZoneStatus} {firstTouch : Option Nat}
    (hwait : Waiting status firstTouch) (index : Nat) (known later : List Candle) :
    FairValueGap.Advances (resolveGapFrom gap index status firstTouch known)
      (resolveGapFrom gap index status firstTouch (known ++ later)) := by
  induction known generalizing index status firstTouch with
  | nil => exact resolveGapFrom_advances gap hopen hwait index later
  | cons candle known ih =>
    rw [List.cons_append, resolveGapFrom, resolveGapFrom]
    split_ifs with hfilled htouched
    · exact ⟨rfl, ZoneLife.advances_self rfl⟩
    · exact ih (Or.inr ⟨rfl, Option.some_ne_none _⟩) (index + 1)
    · exact ih hwait (index + 1)

end Gaps

section DetectedGaps
variable {candles : List Candle} {atrValues : List (Option ℚ)} {minAtrRatio : ℚ}

theorem gapAt_eq {index : Nat} {gap : FairValueGap}
    (h : gapAt candles atrValues minAtrRatio index = some gap) :
    gap.createdIndex = index ∧ gap.status = .open ∧ gap.resolvedIndex = none := by
  unfold gapAt at h
  split at h
  · split at h
    · cases h
    · split_ifs at h
      cases h
      exact ⟨rfl, rfl, rfl⟩
  · cases h

theorem gapAt_take {index n : Nat} (hindex : index < n) :
    gapAt (candles.take n) (atrValues.take n) minAtrRatio index =
      gapAt candles atrValues minAtrRatio index := by
  unfold gapAt
  simp only [List.getD_eq_getElem?_getD]
  rw [List.getElem?_take_of_lt (by omega), List.getElem?_take_of_lt (by omega),
    List.getElem?_take_of_lt (by omega)]

theorem resolveGap_take {gap : FairValueGap} (hstatus : gap.status = .open)
    (hopen : gap.resolvedIndex = none) (n : Nat) :
    FairValueGap.Advances (resolveGap (candles.take n) gap) (resolveGap candles gap) := by
  unfold resolveGap
  rw [List.drop_take]
  have happend := resolveGapFrom_append gap hopen (Or.inl ⟨hstatus, rfl⟩) (gap.createdIndex + 1)
    ((candles.drop (gap.createdIndex + 1)).take (n - (gap.createdIndex + 1)))
    ((candles.drop (gap.createdIndex + 1)).drop (n - (gap.createdIndex + 1)))
  rw [List.take_append_drop] at happend
  exact happend

theorem detectFairValueGaps_take (n : Nat) (hn : n ≤ candles.length) :
    List.Forall₂ FairValueGap.Advances
      (detectFairValueGaps (candles.take n) (atrValues.take n) minAtrRatio)
      ((detectFairValueGaps candles atrValues minAtrRatio).filter fun gap =>
        decide (gap.createdIndex < n)) := by
  have hindex : ∀ i, ∀ gap ∈ ((gapAt candles atrValues minAtrRatio i).map
      (resolveGap candles)).toList, FairValueGap.createdIndex gap = i := by
    intro i gap hgap
    obtain ⟨created, hcreated, rfl⟩ := Option.map_eq_some_iff.mp (Option.mem_toList.mp hgap)
    obtain ⟨hat, hstatus, hopen⟩ := gapAt_eq hcreated
    have hsame := (@resolveGap_take candles _ hstatus hopen 0).same
    rw [hsame, ← hat]
    simp [resolveGap, resolveGapFrom]
  unfold detectFairValueGaps
  rw [filter_flatMap_index hindex, filter_range', List.length_take, min_eq_left hn,
    show min (candles.length - 2) (n - 2) = n - 2 by omega]
  refine forall₂_flatMap fun i hi => ?_
  rw [List.mem_range'_1] at hi
  rw [gapAt_take (by omega)]
  cases hgap : gapAt candles atrValues minAtrRatio i with
  | none => exact List.Forall₂.nil
  | some gap =>
    obtain ⟨-, hstatus, hopen⟩ := gapAt_eq hgap
    exact List.Forall₂.cons (resolveGap_take hstatus hopen n) List.Forall₂.nil

end DetectedGaps

section Blocks
variable (block : OrderBlock) (hopen : block.invalidatedIndex = none)

theorem OrderBlock.Advances.trans {a b c : OrderBlock} (h : a.Advances b) (h' : b.Advances c) :
    a.Advances c where
  same := by
    have hb := h.same
    have hc := h'.same
    rw [hb] at hc
    exact hc
  life := h.life.trans (by decide) (by decide) h'.life

include hopen

/-- More candles only move an order block forward. -/
theorem resolveOrderBlockFrom_advances {status : ZoneStatus} {firstTouch : Option Nat}
    (hwait : Waiting status firstTouch) (index : Nat) (candles : List Candle) :
    OrderBlock.Advances { block with status := status, firstTouchIndex := firstTouch }
      (resolveOrderBlockFrom block index status firstTouch candles) := by
  induction candles generalizing index status firstTouch with
  | nil =>
    refine ⟨rfl, ?_⟩
    unfold OrderBlock.life
    rw [resolveOrderBlockFrom, hopen]
    exact hwait.advances (by decide) (by decide) (hwait.forward_refl _) (fun _ hi => hi) none
  | cons candle candles ih =>
    rw [resolveOrderBlockFrom]
    split_ifs with hinvalid htouched
    · refine ⟨rfl, ?_⟩
      unfold OrderBlock.life
      rw [hopen]
      exact hwait.advances (by decide) (by decide) (hwait.forward_end _) (fun _ hi => hi)
        (some index)
    · have hfirst := Option.isNone_iff_eq_none.mp (Bool.and_eq_true_iff.mp htouched).2
      refine OrderBlock.Advances.trans ⟨rfl, ?_⟩
        (ih (Or.inr ⟨rfl, Option.some_ne_none _⟩) (index + 1))
      unfold OrderBlock.life
      rw [hopen]
      refine hwait.advances (by decide) (by decide) (hwait.forward_touch _) (fun i hi => ?_) none
      rw [hfirst] at hi
      cases hi
    · exact ih hwait (index + 1)

theorem resolveOrderBlockFrom_append {status : ZoneStatus} {firstTouch : Option Nat}
    (hwait : Waiting status firstTouch) (index : Nat) (known later : List Candle) :
    OrderBlock.Advances (resolveOrderBlockFrom block index status firstTouch known)
      (resolveOrderBlockFrom block index status firstTouch (known ++ later)) := by
  induction known generalizing index status firstTouch with
  | nil => exact resolveOrderBlockFrom_advances block hopen hwait index later
  | cons candle known ih =>
    rw [List.cons_append, resolveOrderBlockFrom, resolveOrderBlockFrom]
    split_ifs with hinvalid htouched
    · exact ⟨rfl, ZoneLife.advances_self rfl⟩
    · exact ih (Or.inr ⟨rfl, Option.some_ne_none _⟩) (index + 1)
    · exact ih hwait (index + 1)

end Blocks

section DetectedBlocks
variable {candles : List Candle} {displacements : List Displacement} {searchLookback n : Nat}

theorem displacementBy_known {index : Nat} (hindex : index < n) :
    displacementBy (displacements.filter fun event => decide (event.index < n)) index =
      displacementBy displacements index := by
  unfold displacementBy
  rw [← List.filter_reverse, List.find?_filter]
  congr 1
  funext event
  by_cases h : event.index = index
  · simp [h, hindex]
  · simp [h]

theorem sourceIndex_take {event : StructureBreak} (hindex : event.index < n) :
    sourceIndex (candles.take n) searchLookback event = sourceIndex candles searchLookback event := by
  unfold sourceIndex
  simp only
  refine List.find?_congr fun i hi => ?_
  rw [List.mem_reverse, List.mem_range'_1] at hi
  rw [List.getElem?_take_of_lt (by omega)]

theorem sourceIndex_lt {event : StructureBreak} {index : Nat}
    (h : sourceIndex candles searchLookback event = some index) : index < event.index := by
  have hmem := List.mem_of_find?_eq_some h
  rw [List.mem_reverse, List.mem_range'_1] at hmem
  omega

theorem blockAt_take {event : StructureBreak} (hindex : event.index < n) :
    blockAt (candles.take n) (displacements.filter fun event => decide (event.index < n))
        searchLookback event = blockAt candles displacements searchLookback event := by
  unfold blockAt
  rw [displacementBy_known hindex, sourceIndex_take hindex]
  cases displacementBy displacements event.index with
  | none => rfl
  | some displacement =>
    simp only
    congr 1
    cases hsource : sourceIndex candles searchLookback event with
    | none => rfl
    | some index =>
      have hlt := sourceIndex_lt hsource
      simp only
      rw [List.getElem?_take_of_lt (by omega)]

theorem blockAt_eq {event : StructureBreak} {block : OrderBlock}
    (h : blockAt candles displacements searchLookback event = some block) :
    block.createdIndex = event.index ∧ block.status = .open ∧ block.invalidatedIndex = none := by
  unfold blockAt at h
  split at h
  · cases h
  · split_ifs at h
    split at h
    · cases h
    · obtain ⟨source, -, rfl⟩ := Option.map_eq_some_iff.mp h
      exact ⟨rfl, rfl, rfl⟩

theorem resolveOrderBlock_take {block : OrderBlock} (hstatus : block.status = .open)
    (hopen : block.invalidatedIndex = none) (n : Nat) :
    OrderBlock.Advances (resolveOrderBlock (candles.take n) block) (resolveOrderBlock candles block) := by
  unfold resolveOrderBlock
  rw [List.drop_take]
  have happend := resolveOrderBlockFrom_append block hopen (Or.inl ⟨hstatus, rfl⟩)
    (block.createdIndex + 1)
    ((candles.drop (block.createdIndex + 1)).take (n - (block.createdIndex + 1)))
    ((candles.drop (block.createdIndex + 1)).drop (n - (block.createdIndex + 1)))
  rw [List.take_append_drop] at happend
  exact happend

theorem createdIndex_resolveOrderBlock {block : OrderBlock} (hstatus : block.status = .open)
    (hopen : block.invalidatedIndex = none) :
    (resolveOrderBlock candles block).createdIndex = block.createdIndex := by
  rw [(@resolveOrderBlock_take candles _ hstatus hopen 0).same]
  simp [resolveOrderBlock, resolveOrderBlockFrom]

/-- Every block was created at one of the breaks. -/
theorem createdIndex_mem_orderBlocksFrom {used : List (Direction × Nat)}
    {breaks : List StructureBreak} : ∀ block ∈
      orderBlocksFrom candles displacements searchLookback used breaks,
      ∃ event ∈ breaks, block.createdIndex = event.index := by
  induction breaks generalizing used with
  | nil => exact fun block hblock => absurd hblock List.not_mem_nil
  | cons event breaks ih =>
    intro block hblock
    rw [orderBlocksFrom] at hblock
    split at hblock
    · obtain ⟨other, hother, hindex⟩ := ih block hblock
      exact ⟨other, List.mem_cons_of_mem event hother, hindex⟩
    · rename_i created hcreated
      split_ifs at hblock
      · obtain ⟨other, hother, hindex⟩ := ih block hblock
        exact ⟨other, List.mem_cons_of_mem event hother, hindex⟩
      · rcases List.mem_cons.mp hblock with rfl | hlater
        · obtain ⟨hindex, hstatus, hopen⟩ := blockAt_eq hcreated
          exact ⟨event, List.mem_cons_self,
            (createdIndex_resolveOrderBlock hstatus hopen).trans hindex⟩
        · obtain ⟨other, hother, hindex⟩ := ih block hlater
          exact ⟨other, List.mem_cons_of_mem event hother, hindex⟩

theorem orderBlocksFrom_take {breaks : List StructureBreak}
    (hsorted : breaks.Pairwise fun a b => a.index ≤ b.index) (used : List (Direction × Nat)) :
    List.Forall₂ OrderBlock.Advances
      (orderBlocksFrom (candles.take n) (displacements.filter fun event => decide (event.index < n))
        searchLookback used (breaks.filter fun event => decide (event.index < n)))
      ((orderBlocksFrom candles displacements searchLookback used breaks).filter fun block =>
        decide (block.createdIndex < n)) := by
  induction hsorted generalizing used with
  | nil => exact List.Forall₂.nil
  | @cons event breaks hfirst hsorted ih =>
    by_cases hindex : event.index < n
    · rw [List.filter_cons_of_pos (by simpa using hindex), orderBlocksFrom, orderBlocksFrom,
        blockAt_take hindex]
      cases hblock : blockAt candles displacements searchLookback event with
      | none => exact ih used
      | some block =>
        simp only
        by_cases hused : (block.direction, block.candleIndex) ∈ used
        · rw [if_pos hused, if_pos hused]
          exact ih used
        · obtain ⟨hcreated, hstatus, hopen⟩ := blockAt_eq hblock
          have hkept : (resolveOrderBlock candles block).createdIndex < n := by
            rw [createdIndex_resolveOrderBlock hstatus hopen, hcreated]
            exact hindex
          rw [if_neg hused, if_neg hused, List.filter_cons_of_pos (by simpa using hkept)]
          exact List.Forall₂.cons (resolveOrderBlock_take hstatus hopen n) (ih _)
    · -- this break and all after it are beyond the prefix
      have hnone : ((event :: breaks).filter fun event => decide (event.index < n)) = [] := by
        refine List.filter_eq_nil_iff.mpr fun other hother => ?_
        rw [decide_eq_true_eq]
        rcases List.mem_cons.mp hother with rfl | hother
        · exact hindex
        · have hle := hfirst other hother
          omega
      have hbeyond : ((orderBlocksFrom candles displacements searchLookback used
          (event :: breaks)).filter fun block => decide (block.createdIndex < n)) = [] := by
        refine List.filter_eq_nil_iff.mpr fun block hblock => ?_
        obtain ⟨other, hother, hcreated⟩ := createdIndex_mem_orderBlocksFrom block hblock
        rw [hcreated]
        exact List.filter_eq_nil_iff.mp hnone other hother
      rw [hnone, hbeyond, orderBlocksFrom]
      exact List.Forall₂.nil

end DetectedBlocks

end StructurePulse.SMC
