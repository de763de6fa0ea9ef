import StructurePulse.Library.FirstHits
import StructurePulse.SMC.Zones

/-!
# The life of a gap, without the scan

A gap is filled when the extreme of the later candles reaches its far bound, and touched when
that extreme is strictly inside its near bound. The scan that ends at the first filling candle
says the same.
-/

namespace StructurePulse.SMC
open Library
set_option autoImplicit false

section Life
variable (gap : FairValueGap) (candles : List Candle)

/-- The candles after the gap was created. -/
def FairValueGap.later : List Candle := candles.drop (gap.createdIndex + 1)

/-- The extreme of the later candles reaches the far bound. -/
def FairValueGap.FarReached : Prop :=
  match gap.direction with
  | .bullish => ((gap.later candles).map Candle.lowPrice).minimum ≤ (gap.lowerPrice : WithTop ℚ)
  | .bearish => (gap.upperPrice : WithBot ℚ) ≤ ((gap.later candles).map Candle.highPrice).maximum

/-- The extreme of the later candles is strictly inside the near bound. -/
def FairValueGap.NearPassed : Prop :=
  match gap.direction with
  | .bullish => ((gap.later candles).map Candle.lowPrice).minimum < (gap.upperPrice : WithTop ℚ)
  | .bearish => (gap.lowerPrice : WithBot ℚ) < ((gap.later candles).map Candle.highPrice).maximum

/-- The extremal rule of the life of a gap. -/
structure FairValueGap.Lives : Prop where
  filled : gap.status = .filled ↔ gap.FarReached candles
  partiallyFilled : gap.status = .partiallyFilled ↔
    ¬ gap.FarReached candles ∧ gap.NearPassed candles
  opened : gap.status = .open ↔ ¬ gap.FarReached candles ∧ ¬ gap.NearPassed candles
  resolved : ∀ i, gap.resolvedIndex = some i ↔
    FirstAt gap.isFilledBy candles (gap.createdIndex + 1) i
  touched : ∀ i, gap.firstTouchIndex = some i ↔
    FirstAt gap.isTouchedBy candles (gap.createdIndex + 1) i
  touched_iff : gap.firstTouchIndex ≠ none ↔ gap.status ≠ .open
  resolved_iff : gap.resolvedIndex ≠ none ↔ gap.status = .filled
  ordered : ∀ i j, gap.firstTouchIndex = some i → gap.resolvedIndex = some j → i ≤ j

variable {gap candles}

theorem farReached_iff : gap.FarReached candles ↔
    ∃ candle ∈ gap.later candles, gap.isFilledBy candle = true := by
  unfold FairValueGap.FarReached FairValueGap.isFilledBy
  cases gap.direction with
  | bullish =>
    simp only [List.minimum_le_coe_iff, List.mem_map, exists_exists_and_eq_and, decide_eq_true_eq]
  | bearish =>
    simp only [List.coe_le_maximum_iff, List.mem_map, exists_exists_and_eq_and, ge_iff_le,
      decide_eq_true_eq]

theorem nearPassed_iff : gap.NearPassed candles ↔
    ∃ candle ∈ gap.later candles, gap.isTouchedBy candle = true := by
  unfold FairValueGap.NearPassed FairValueGap.isTouchedBy
  cases gap.direction with
  | bullish =>
    simp only [minimum_lt_coe_iff, List.mem_map, exists_exists_and_eq_and, decide_eq_true_eq]
  | bearish =>
    simp only [coe_lt_maximum_iff, List.mem_map, exists_exists_and_eq_and, gt_iff_lt,
      decide_eq_true_eq]

/-- What fills a gap goes through its near bound. -/
theorem touched_of_filled (hbounds : gap.lowerPrice < gap.upperPrice) {candle : Candle}
    (h : gap.isFilledBy candle = true) : gap.isTouchedBy candle = true := by
  unfold FairValueGap.isFilledBy at h
  unfold FairValueGap.isTouchedBy
  cases hd : gap.direction with
  | bullish =>
    rw [hd] at h
    exact decide_eq_true (lt_of_le_of_lt (of_decide_eq_true h) hbounds)
  | bearish =>
    rw [hd] at h
    exact decide_eq_true (lt_of_lt_of_le hbounds (of_decide_eq_true h))

end Life

section Scan

/-- The status of a zone whose last status is `last`, by its end and its first touch. -/
def ZoneStatus.settled (last : ZoneStatus) : Option Nat → Option Nat → ZoneStatus
  | some _, _ => last
  | none, some _ => .partiallyFilled
  | none, none => .open

theorem Waiting.settled {status : ZoneStatus} {firstTouch : Option Nat}
    (h : Waiting status firstTouch) (last : ZoneStatus) :
    status = ZoneStatus.settled last none firstTouch := by
  rcases h with ⟨rfl, rfl⟩ | ⟨rfl, htouched⟩
  · rfl
  · obtain ⟨i, rfl⟩ := Option.ne_none_iff_exists'.mp htouched
    rfl

section Settled
variable {last : ZoneStatus} {ended touched : Option Nat}

theorem settled_eq_last_iff (hopen : last ≠ .open) (htouched : last ≠ .partiallyFilled) :
    ZoneStatus.settled last ended touched = last ↔ ended ≠ none := by
  cases ended with
  | some i => exact iff_of_true rfl (Option.some_ne_none i)
  | none =>
    refine iff_of_false (fun h => ?_) (fun h => h rfl)
    cases touched with
    | some i => exact htouched h.symm
    | none => exact hopen h.symm

theorem settled_eq_partiallyFilled_iff (htouched : last ≠ .partiallyFilled) :
    ZoneStatus.settled last ended touched = .partiallyFilled ↔ ¬ ended ≠ none ∧ touched ≠ none := by
  cases ended with
  | some i => exact iff_of_false htouched (fun h => h.1 (Option.some_ne_none i))
  | none =>
    cases touched with
    | some i => exact iff_of_true rfl ⟨fun h => h rfl, Option.some_ne_none i⟩
    | none => exact iff_of_false (fun h => by cases h) (fun h => h.2 rfl)

theorem settled_eq_open_iff (hopen : last ≠ .open) :
    ZoneStatus.settled last ended touched = .open ↔ ¬ ended ≠ none ∧ ¬ touched ≠ none := by
  cases ended with
  | some i => exact iff_of_false hopen (fun h => h.1 (Option.some_ne_none i))
  | none =>
    cases touched with
    | some i => exact iff_of_false (fun h => by cases h) (fun h => h.2 (Option.some_ne_none i))
    | none => exact iff_of_true rfl ⟨fun h => h rfl, fun h => h rfl⟩

end Settled

theorem or_some_eq {α : Type*} (o : Option α) (x : α) : o.or (some x) = some (o.getD x) := by
  cases o <;> rfl

/-- The scan of a gap ends at the first filling candle and keeps the first touch. -/
theorem resolveGapFrom_eq {gap : FairValueGap} (hbounds : gap.lowerPrice < gap.upperPrice)
    (hopen : gap.resolvedIndex = none) {status : ZoneStatus} {firstTouch : Option Nat}
    (hwait : Waiting status firstTouch) (index : Nat) (candles : List Candle) :
    resolveGapFrom gap index status firstTouch candles =
      { gap with
        status := .settled .filled (firstFrom gap.isFilledBy index candles)
          (firstTouch.or (firstFrom gap.isTouchedBy index candles))
        firstTouchIndex := firstTouch.or (firstFrom gap.isTouchedBy index candles)
        resolvedIndex := firstFrom gap.isFilledBy index candles } := by
  induction candles generalizing index status firstTouch with
  | nil =>
    simp only [resolveGapFrom, firstFrom, Option.or_none]
    rw [← hwait.settled .filled, ← hopen]
  | cons candle candles ih =>
    rw [resolveGapFrom, firstFrom, firstFrom]
    split_ifs with hfilled htouched htouched
    · rw [or_some_eq]
      rfl
    · exact absurd (touched_of_filled hbounds hfilled) htouched
    · rw [ih (Or.inr ⟨rfl, Option.some_ne_none _⟩), or_some_eq, Option.some_or]
    · exact ih hwait (index + 1)

variable {gap : FairValueGap} {candles : List Candle}

/-- A gap that was created between two candles lives by the extremal rule. -/
theorem resolveGap_lives (hbounds : gap.lowerPrice < gap.upperPrice) (hstatus : gap.status = .open)
    (hopen : gap.resolvedIndex = none) : (resolveGap candles gap).Lives candles := by
  have hresolve : resolveGap candles gap = _ :=
    resolveGapFrom_eq hbounds hopen (Or.inl ⟨hstatus, rfl⟩) (gap.createdIndex + 1)
      (candles.drop (gap.createdIndex + 1))
  rw [Option.none_or] at hresolve
  have hfar := @farReached_iff gap candles
  have hnear := @nearPassed_iff gap candles
  have hfills := @firstFrom_drop_eq_some_iff _ gap.isFilledBy (gap.createdIndex + 1)
  have htouches := @firstFrom_drop_eq_some_iff _ gap.isTouchedBy (gap.createdIndex + 1)
  have hended : gap.FarReached candles ↔
      firstFrom gap.isFilledBy (gap.createdIndex + 1) (gap.later candles) ≠ none :=
    hfar.trans firstFrom_ne_none_iff.symm
  have htouched : gap.NearPassed candles ↔
      firstFrom gap.isTouchedBy (gap.createdIndex + 1) (gap.later candles) ≠ none :=
    hnear.trans firstFrom_ne_none_iff.symm
  have himplies : gap.FarReached candles → gap.NearPassed candles := by
    rw [hfar, hnear]
    rintro ⟨candle, hmem, hfilled⟩
    exact ⟨candle, hmem, touched_of_filled hbounds hfilled⟩
  have hlast : ZoneStatus.filled ≠ .open ∧ ZoneStatus.filled ≠ .partiallyFilled := by decide
  rw [hresolve]
  refine ⟨?_, ?_, ?_, fun i => hfills candles, fun i => htouches candles, ?_, ?_, ?_⟩
  · exact (settled_eq_last_iff hlast.1 hlast.2).trans hended.symm
  · exact (settled_eq_partiallyFilled_iff hlast.2).trans
      (and_congr (not_congr hended.symm) htouched.symm)
  · exact (settled_eq_open_iff hlast.1).trans
      (and_congr (not_congr hended.symm) (not_congr htouched.symm))
  · refine htouched.symm.trans ⟨fun h heq => ?_, fun h => ?_⟩
    · exact ((settled_eq_open_iff hlast.1).mp heq).2 (htouched.mp h)
    · by_contra hnear
      exact h ((settled_eq_open_iff hlast.1).mpr
        ⟨fun hfilled => hnear (himplies (hended.mpr hfilled)), fun h => hnear (htouched.mpr h)⟩)
  · exact (settled_eq_last_iff hlast.1 hlast.2).symm
  · intro i j hi hj
    have htouch := (htouches candles).mp hi
    have hfill := (hfills candles).mp hj
    obtain ⟨candle, hcandle, hfilled⟩ := hfill.now
    by_contra hlate
    have hmiss := htouch.before j candle hfill.start_le (not_le.mp hlate) hcandle
    rw [touched_of_filled hbounds hfilled] at hmiss
    cases hmiss

end Scan

section Detected
variable {candles : List Candle} {atrValues : List (Option ℚ)} {minAtrRatio : ℚ}

/-- The bounds of the gap that two candles leave between them. -/
inductive Leaves (first third : Candle) : Direction → ℚ → ℚ → Prop where
  | bullish (above : third.lowPrice > first.highPrice) :
      Leaves first third .bullish first.highPrice third.lowPrice
  | bearish (below : third.highPrice < first.lowPrice) :
      Leaves first third .bearish third.highPrice first.lowPrice

theorem Leaves.lt {first third : Candle} {direction : Direction} {lower upper : ℚ}
    (h : Leaves first third direction lower upper) : lower < upper := by
  cases h with
  | bullish above => exact above
  | bearish below => exact below

theorem gapBetween_eq_some_iff {first third : Candle} {direction : Direction} {lower upper : ℚ} :
    gapBetween first third = some (direction, lower, upper) ↔
      Leaves first third direction lower upper := by
  have hfirst := first.low_le_high
  have hthird := third.low_le_high
  unfold gapBetween
  constructor
  · intro h
    split_ifs at h with habove hbelow
    · cases h
      exact .bullish habove
    · cases h
      exact .bearish hbelow
  · intro h
    cases h with
    | bullish above => exact if_pos above
    | bearish below =>
      rw [if_neg (by linarith), if_pos below]

/-- The candles around the candle before an index leave a gap of at least the ratio. -/
def GapLeft (candles : List Candle) (atrValues : List (Option ℚ)) (minAtrRatio : ℚ) (index : Nat)
    (direction : Direction) (lower upper : ℚ) : Prop :=
  2 ≤ index ∧ ∃ first third atr, candles[index - 2]? = some first ∧ candles[index]? = some third ∧
    atrValues[index]? = some (some atr) ∧ Leaves first third direction lower upper ∧
    atr * minAtrRatio ≤ upper - lower

/-- A gap as it is created at the close of a candle. -/
def createdGap (candle : Candle) (index : Nat) (direction : Direction) (lower upper : ℚ) :
    FairValueGap where
  direction := direction
  startIndex := index - 2
  createdIndex := index
  createdAt := candle.closeTime
  lowerPrice := lower
  upperPrice := upper
  status := .open

theorem gapAt_eq_some_iff {index : Nat} {gap : FairValueGap} :
    gapAt candles atrValues minAtrRatio index = some gap ↔
      ∃ first third atr direction lower upper, candles[index - 2]? = some first ∧
        candles[index]? = some third ∧ atrValues[index]? = some (some atr) ∧
        Leaves first third direction lower upper ∧ atr * minAtrRatio ≤ upper - lower ∧
        gap = createdGap third index direction lower upper := by
  unfold gapAt
  rw [List.getD_eq_getElem?_getD]
  constructor
  · intro h
    split at h
    · rename_i first third atr hfirst hthird hatr
      split at h
      · cases h
      · rename_i direction lower upper hbetween
        split_ifs at h with hsmall
        cases h
        have hmeasured : atrValues[index]? = some (some atr) := by
          cases hvalue : atrValues[index]? with
          | none =>
            rw [hvalue] at hatr
            cases hatr
          | some value =>
            rw [hvalue] at hatr
            exact congrArg some hatr
        exact ⟨first, third, atr, direction, lower, upper, hfirst, hthird, hmeasured,
          gapBetween_eq_some_iff.mp hbetween, not_lt.mp hsmall, rfl⟩
    · cases h
  · rintro ⟨first, third, atr, direction, lower, upper, hfirst, hthird, hatr, hleaves, hratio, rfl⟩
    rw [hfirst, hthird, hatr, Option.getD_some]
    simp only [gapBetween_eq_some_iff.mpr hleaves]
    exact if_neg (not_lt.mpr hratio)

/-- Every detected gap is a created one, resolved. -/
theorem mem_detectFairValueGaps {gap : FairValueGap} :
    gap ∈ detectFairValueGaps candles atrValues minAtrRatio ↔
      ∃ index created, 2 ≤ index ∧ gapAt candles atrValues minAtrRatio index = some created ∧
        gap = resolveGap candles created := by
  unfold detectFairValueGaps
  rw [List.mem_flatMap]
  constructor
  · rintro ⟨index, hindex, hgap⟩
    obtain ⟨created, hcreated, rfl⟩ := Option.map_eq_some_iff.mp (Option.mem_toList.mp hgap)
    exact ⟨index, created, (List.mem_range'_1.mp hindex).1, hcreated, rfl⟩
  · rintro ⟨index, created, hindex, hcreated, rfl⟩
    obtain ⟨-, third, -, -, -, -, -, hthird, -⟩ := gapAt_eq_some_iff.mp hcreated
    have hlength : index < candles.length := (List.getElem?_eq_some_iff.mp hthird).1
    refine ⟨index, List.mem_range'_1.mpr ⟨hindex, by omega⟩, ?_⟩
    rw [hcreated]
    exact Option.mem_toList.mpr rfl

/-- What is resolved is the same gap. -/
theorem resolveGap_same {gap : FairValueGap} (hstatus : gap.status = .open)
    (hopen : gap.resolvedIndex = none) :
    resolveGap candles gap = { gap with
      status := (resolveGap candles gap).status
      firstTouchIndex := (resolveGap candles gap).firstTouchIndex
      resolvedIndex := (resolveGap candles gap).resolvedIndex } :=
  (resolveGapFrom_advances gap hopen (Or.inl ⟨hstatus, rfl⟩) (gap.createdIndex + 1)
    (candles.drop (gap.createdIndex + 1))).same

theorem detectFairValueGaps_increasing :
    (detectFairValueGaps candles atrValues minAtrRatio).Pairwise fun a b =>
      a.createdIndex < b.createdIndex := by
  unfold detectFairValueGaps
  have hcreated : ∀ index, ∀ gap ∈ ((gapAt candles atrValues minAtrRatio index).map
      (resolveGap candles)).toList, gap.createdIndex = index := by
    intro index gap hgap
    obtain ⟨created, hcreated, rfl⟩ := Option.map_eq_some_iff.mp (Option.mem_toList.mp hgap)
    obtain ⟨hindex, hstatus, hopen⟩ := gapAt_eq hcreated
    rw [resolveGap_same hstatus hopen]
    exact hindex
  refine List.pairwise_flatMap.mpr ⟨fun index _ => ?_, ?_⟩
  · cases (gapAt candles atrValues minAtrRatio index).map (resolveGap candles) with
    | none => exact List.Pairwise.nil
    | some gap => exact List.pairwise_singleton _ _
  · refine List.Pairwise.imp ?_ List.pairwise_lt_range'
    intro i j hlt a ha b hb
    rw [hcreated i a ha, hcreated j b hb]
    exact hlt

end Detected

end StructurePulse.SMC
