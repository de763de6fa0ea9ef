import StructurePulse.Library.Slots
import StructurePulse.SMC.Symmetry

/-!
# What the structure scans report, without the scan

The scans keep the latest swing of each kind in a slot and empty it at a break or a sweep.
A swing is broken at a candle if and only if it is the last of its kind confirmed before the
candle, the candle closes beyond it, and no candle since its confirmation did; the same holds
of sweeps. For breaks this rests on the slots never being broken together.
-/

namespace StructurePulse.SMC
open Library
set_option autoImplicit false

section Rule

/-- The wick goes beyond the swing, the close comes back inside. -/
def Swing.IsSweptBy (swing : Swing) (candle : Candle) : Prop :=
  match swing.kind with
  | .high => candle.highPrice > swing.price ∧ swing.price > candle.closePrice
  | .low => candle.lowPrice < swing.price ∧ swing.price < candle.closePrice

instance (swing : Swing) (candle : Candle) : Decidable (swing.IsBrokenBy candle) := by
  unfold Swing.IsBrokenBy
  split <;> infer_instance

instance (swing : Swing) (candle : Candle) : Decidable (swing.IsSweptBy candle) := by
  unfold Swing.IsSweptBy
  split <;> infer_instance

/-- The last swing of its kind that is confirmed before a candle. -/
structure LastConfirmed (swings : List Swing) (index : Nat) (swing : Swing) : Prop where
  mem : swing ∈ swings
  confirmed : swing.confirmationIndex < index
  last : ∀ other ∈ swings, other.kind = swing.kind → other.confirmationIndex < index →
    other.confirmationIndex ≤ swing.confirmationIndex

/-- The candle is the first since the swing became available that acts on it, and the swing
is still the last of its kind. -/
structure FirstActs (candles : List Candle) (swings : List Swing) (acts : Swing → Candle → Prop)
    (swing : Swing) (index : Nat) : Prop where
  last : LastConfirmed swings index swing
  now : ∃ candle, candles[index]? = some candle ∧ acts swing candle
  first : ∀ j candle, swing.confirmationIndex < j → j < index → candles[j]? = some candle →
    ¬ acts swing candle

variable {candles : List Candle} {swings : List Swing} {acts : Swing → Candle → Prop}
variable {swing : Swing}

/-- A swing is acted on at one candle at most. -/
theorem FirstActs.index_unique {i j : Nat} (hi : FirstActs candles swings acts swing i)
    (hj : FirstActs candles swings acts swing j) : i = j := by
  obtain ⟨candle, hcandle, hacts⟩ := hi.now
  obtain ⟨other, hother, hacts'⟩ := hj.now
  rcases Nat.lt_trichotomy i j with hlt | heq | hgt
  · exact absurd hacts (hj.first i candle hi.last.confirmed hlt hcandle)
  · exact heq
  · exact absurd hacts' (hi.first j other hj.last.confirmed hgt hother)

end Rule

section Slots
variable (candles : List Candle) (swings : List Swing)

/-- The swing that takes the slot of a kind at an index. -/
def arrival (kind : SwingKind) (index : Nat) : Option Swing :=
  ((availableAt swings index).filter fun swing => decide (swing.kind = kind)).getLast?

def actsAt (acts : Swing → Candle → Prop) [∀ swing candle, Decidable (acts swing candle)]
    (swing : Swing) (index : Nat) : Bool :=
  (candles[index]?).any fun candle => decide (acts swing candle)

/-- At most one swing of a kind is confirmed at a candle. -/
def OneConfirmed : Prop :=
  ∀ swing ∈ swings, ∀ other ∈ swings, swing.kind = other.kind →
    swing.confirmationIndex = other.confirmationIndex → swing = other

theorem of_advance (latest : LatestSwings) (index : Nat) (kind : SwingKind) :
    (latest.advance swings index).of kind = (arrival swings kind index).or (latest.of kind) := by
  unfold LatestSwings.advance arrival
  rw [LatestSwings.of_foldl_take, foldl_some]

variable {candles swings} {swing : Swing} {kind : SwingKind} {index : Nat}

theorem mem_arriving : swing ∈ (availableAt swings index).filter
      (fun swing => decide (swing.kind = kind)) ↔
    swing ∈ swings ∧ swing.kind = kind ∧ swing.confirmationIndex + 1 = index := by
  unfold availableAt
  rw [List.mem_filter, List.mem_filter, decide_eq_true_eq, decide_eq_true_eq]
  exact ⟨fun h => ⟨h.1.1, h.2, h.1.2⟩, fun h => ⟨⟨h.1, h.2.2⟩, h.2.1⟩⟩

theorem arrival_eq_some_iff (hone : OneConfirmed swings) :
    arrival swings kind index = some swing ↔
      swing ∈ swings ∧ swing.kind = kind ∧ swing.confirmationIndex + 1 = index := by
  unfold arrival
  constructor
  · intro h
    exact mem_arriving.mp (List.mem_of_getLast? h)
  · intro h
    have hmem := mem_arriving.mpr h
    obtain ⟨last, hlast⟩ := Option.isSome_iff_exists.mp
      (List.getLast?_isSome.mpr (List.ne_nil_of_mem hmem))
    obtain ⟨hin, hkind, hconf⟩ := mem_arriving.mp (List.mem_of_getLast? hlast)
    rw [hlast, hone last hin swing h.1 (hkind.trans h.2.1.symm) (by omega)]

theorem arrival_eq_none_iff :
    arrival swings kind index = none ↔
      ∀ swing ∈ swings, swing.kind = kind → swing.confirmationIndex + 1 ≠ index := by
  unfold arrival
  rw [List.getLast?_eq_none_iff, List.eq_nil_iff_forall_not_mem]
  constructor
  · intro h swing hmem hkind hconf
    exact h swing (mem_arriving.mpr ⟨hmem, hkind, hconf⟩)
  · intro h swing hmem
    obtain ⟨hin, hkind, hconf⟩ := mem_arriving.mp hmem
    exact h swing hin hkind hconf

variable {acts : Swing → Candle → Prop} [∀ swing candle, Decidable (acts swing candle)]

theorem actsAt_eq_false_iff : actsAt candles acts swing index = false ↔
    ∀ candle, candles[index]? = some candle → ¬ acts swing candle := by
  unfold actsAt
  cases candles[index]? with
  | none => exact iff_of_true rfl (fun candle h => by cases h)
  | some candle =>
    rw [Option.any_some, decide_eq_false_iff_not]
    exact ⟨fun h other hother => by cases hother; exact h, fun h => h candle rfl⟩

/-- What the slot of a kind holds at a candle. -/
theorem held_arrival_iff (hone : OneConfirmed swings) :
    held (arrival swings kind) (actsAt candles acts) index = some swing ↔
      swing.kind = kind ∧ LastConfirmed swings index swing ∧
        ∀ j candle, swing.confirmationIndex < j → j < index → candles[j]? = some candle →
          ¬ acts swing candle := by
  rw [held_eq_some_iff]
  constructor
  · rintro ⟨since, h⟩
    obtain ⟨hmem, hkind, rfl⟩ := (arrival_eq_some_iff hone).mp h.arrived
    refine ⟨hkind, ⟨hmem, h.since_le, fun other hother hsame hbefore => ?_⟩, ?_⟩
    · by_contra hlater
      have hnone := arrival_eq_none_iff.mp (h.last (other.confirmationIndex + 1) (by omega) hbefore)
      exact hnone other hother (hsame.trans hkind) rfl
    · intro j candle hlate hearly
      exact actsAt_eq_false_iff.mp (h.unhit j hlate hearly) candle
  · rintro ⟨hkind, hlast, hfirst⟩
    refine ⟨swing.confirmationIndex + 1, hlast.confirmed,
      (arrival_eq_some_iff hone).mpr ⟨hlast.mem, hkind, rfl⟩, fun t hlate hearly => ?_,
      fun t hlate hearly => actsAt_eq_false_iff.mpr fun candle => hfirst t candle hlate hearly⟩
    refine arrival_eq_none_iff.mpr fun other hother hsame hconf => ?_
    have hle := hlast.last other hother (hsame.trans hkind.symm) (by omega)
    omega

end Slots

section Scan
variable {candles : List Candle} {swings : List Swing} {σ β : Type*}

/-- A scan that reports the swings in its slots that a candle acts on, and empties their
slots. -/
structure SlotScan (candles : List Candle) (swings : List Swing) (acts : Swing → Candle → Prop)
    [∀ swing candle, Decidable (acts swing candle)] (direction : SwingKind → Direction)
    (step : σ → Candle → Nat → σ × List β) (slots : σ → LatestSwings) (Inv : Nat → σ → Prop)
    (index : β → Nat) (report : β → Swing × Direction) : Prop where
  indexed : Indexed index step
  kept : ∀ i candle state, candles[i]? = some candle → Inv i state →
    Inv (i + 1) (step state candle i).1
  emptied : ∀ i candle state, candles[i]? = some candle → Inv i state → ∀ kind,
    (slots (step state candle i).1).of kind = (((slots state).advance swings i).of kind).filter
      fun swing => !actsAt candles acts swing i
  reported : ∀ i candle state, candles[i]? = some candle → Inv i state → ∀ swing way,
    (∃ event ∈ (step state candle i).2, report event = (swing, way)) ↔
      way = direction swing.kind ∧ (((slots state).advance swings i).of swing.kind).filter
        (fun swing => actsAt candles acts swing i) = some swing

variable {acts : Swing → Candle → Prop} [∀ swing candle, Decidable (acts swing candle)]
variable {direction : SwingKind → Direction} {step : σ → Candle → Nat → σ × List β}
variable {slots : σ → LatestSwings} {Inv : Nat → σ → Prop} {index : β → Nat}
variable {report : β → Swing × Direction}

/-- Such a scan reports a swing at the first candle that acts on it while it is the last. -/
theorem SlotScan.mem_iff
    (h : SlotScan candles swings acts direction step slots Inv index report)
    (hone : OneConfirmed swings) {start : σ} (hstart : Inv 0 start) (hempty : slots start = {})
    (swing : Swing) (way : Direction) (place : Nat) :
    (∃ event ∈ emit step start candles, index event = place ∧ report event = (swing, way)) ↔
      way = direction swing.kind ∧ FirstActs candles swings acts swing place := by
  have hscan := @exists_mem_emitFrom_iff _ _ _ step
    (fun i state => Inv i state ∧
      ∀ kind, (slots state).of kind = left (arrival swings kind) (actsAt candles acts) i)
    (fun event => index event = place ∧ report event = (swing, way))
    (fun i _ => i = place ∧ way = direction swing.kind ∧ FirstActs candles swings acts swing place)
    candles 0 start ?_ ?_ ?_
  · rw [hscan]
    constructor
    · rintro ⟨i, candle, -, -, h⟩
      exact h
    · intro h
      obtain ⟨candle, hcandle, -⟩ := h.2.now
      exact ⟨place, candle, hcandle, Nat.zero_add place, h⟩
  · refine ⟨hstart, fun kind => ?_⟩
    rw [hempty]
    cases kind <;> rfl
  · rintro i candle state hcandle ⟨hinv, hslots⟩
    rw [Nat.zero_add] at hinv hslots ⊢
    refine ⟨h.kept i candle state hcandle hinv, fun kind => ?_⟩
    rw [h.emptied i candle state hcandle hinv kind, of_advance, hslots kind]
    rfl
  · rintro i candle state hcandle ⟨hinv, hslots⟩
    rw [Nat.zero_add] at hinv hslots ⊢
    have hspec := h.reported i candle state hcandle hinv swing way
    have hheld : held (arrival swings swing.kind) (actsAt candles acts) i =
        ((slots state).advance swings i).of swing.kind := by
      rw [of_advance, hslots]
      rfl
    rw [← hheld, Option.filter_eq_some_iff, held_arrival_iff hone] at hspec
    constructor
    · rintro ⟨event, hevent, hindex, hreport⟩
      obtain rfl := (h.indexed state candle i event hevent).symm.trans hindex
      obtain ⟨hway, ⟨-, hlast, hfirst⟩, hacts⟩ := hspec.mp ⟨event, hevent, hreport⟩
      rw [actsAt, hcandle, Option.any_some, decide_eq_true_eq] at hacts
      exact ⟨rfl, hway, hlast, ⟨candle, hcandle, hacts⟩, hfirst⟩
    · rintro ⟨rfl, hway, hacts⟩
      obtain ⟨own, hown, hnow⟩ := hacts.now
      have hactsAt : actsAt candles acts swing i = true := by
        rw [actsAt, hown, Option.any_some]
        exact decide_eq_true hnow
      obtain ⟨event, hevent, hreport⟩ := hspec.mpr ⟨hway, ⟨rfl, hacts.last, hacts.first⟩, hactsAt⟩
      exact ⟨event, hevent, h.indexed state candle i event hevent, hreport⟩

end Scan

section Detected
variable {candles : List Candle} {lookback : Nat}

def Candle.extreme (candle : Candle) : SwingKind → ℚ
  | .high => candle.highPrice
  | .low => candle.lowPrice

/-- A swing is the extreme of its candle, confirmed a lookback later. -/
theorem eq_of_mem_swingsAt {i : Nat} {swing : Swing} (h : swing ∈ swingsAt candles lookback i) :
    ∃ candle, candles[i]? = some candle ∧
      swing = ⟨swing.kind, i, i + lookback, candle.openTime, candle.extreme swing.kind⟩ := by
  unfold swingsAt at h
  split at h
  · cases h
  · rename_i candle hcandle
    refine ⟨candle, hcandle, ?_⟩
    rcases List.mem_append.mp h with h | h
    · split_ifs at h
      · rw [List.mem_singleton.mp h]
        rfl
      · cases h
    · split_ifs at h
      · rw [List.mem_singleton.mp h]
        rfl
      · cases h

theorem swingsAt_unique {i : Nat} {swing other : Swing} (hs : swing ∈ swingsAt candles lookback i)
    (ho : other ∈ swingsAt candles lookback i) (hkind : swing.kind = other.kind) :
    swing = other := by
  obtain ⟨candle, hcandle, hswing⟩ := eq_of_mem_swingsAt hs
  obtain ⟨own, hown, hother⟩ := eq_of_mem_swingsAt ho
  rw [hcandle] at hown
  cases hown
  rw [hswing, hother, hkind]

theorem mem_detectSwings {swing : Swing} (h : swing ∈ detectSwings candles lookback) :
    ∃ i, swing ∈ swingsAt candles lookback i ∧ swing.index = i ∧
      swing.confirmationIndex = i + lookback := by
  unfold detectSwings at h
  rw [mem_sortedBy] at h
  obtain ⟨i, -, hi⟩ := List.mem_flatMap.mp h
  obtain ⟨hindex, hconf⟩ := swingsAt_index candles lookback i swing hi
  exact ⟨i, hi, hindex, hindex ▸ hconf⟩

theorem detectSwings_oneConfirmed (candles : List Candle) (lookback : Nat) :
    OneConfirmed (detectSwings candles lookback) := by
  intro swing hs other ho hkind hconf
  obtain ⟨i, hi, -, hiconf⟩ := mem_detectSwings hs
  obtain ⟨j, hj, -, hjconf⟩ := mem_detectSwings ho
  have hij : i = j := by omega
  exact swingsAt_unique hi (hij ▸ hj) hkind

end Detected

section Breaks
variable {candles : List Candle} {swings : List Swing}

theorem filter_not_of_filter_some {α : Type*} {p : α → Bool} {o : Option α} {x : α}
    (h : o.filter p = some x) : o.filter (fun y => !p y) = none := by
  obtain ⟨rfl, hp⟩ := Option.filter_eq_some_iff.mp h
  rw [Option.filter_some, hp]
  rfl

theorem filter_not_of_filter_none {α : Type*} {p : α → Bool} {o : Option α}
    (h : o.filter p = none) : o.filter (fun y => !p y) = o := by
  cases o with
  | none => rfl
  | some x =>
    rw [Option.filter_some] at h ⊢
    cases hp : p x with
    | true =>
      rw [hp] at h
      cases h
    | false => rfl

theorem closedAbove_eq {latest : LatestSwings} {candle : Candle} {index : Nat}
    (hkind : ∀ swing, latest.high = some swing → swing.kind = .high)
    (hcandle : candles[index]? = some candle) :
    closedAbove latest candle =
      latest.high.filter fun swing => actsAt candles Swing.IsBrokenBy swing index := by
  unfold closedAbove actsAt
  rw [hcandle]
  cases hhigh : latest.high with
  | none => rfl
  | some swing =>
    simp only [Option.filter_some, Option.any_some, Swing.IsBrokenBy, hkind swing hhigh]

theorem closedBelow_eq {latest : LatestSwings} {candle : Candle} {index : Nat}
    (hkind : ∀ swing, latest.low = some swing → swing.kind = .low)
    (hcandle : candles[index]? = some candle) :
    closedBelow latest candle =
      latest.low.filter fun swing => actsAt candles Swing.IsBrokenBy swing index := by
  unfold closedBelow actsAt
  rw [hcandle]
  cases hlow : latest.low with
  | none => rfl
  | some swing =>
    simp only [Option.filter_some, Option.any_some, Swing.IsBrokenBy, hkind swing hlow]

/-- The direction of a break of a swing. -/
def SwingKind.breakDirection : SwingKind → Direction
  | .high => .bullish
  | .low => .bearish

variable (hstanding : ∀ swing ∈ swings,
  Swing.Standing candles (swing.confirmationIndex + 1) swing)
include hstanding

/-- A step of the structure scan breaks the swings in the slots that its candle closes beyond,
and empties their slots. -/
theorem structureStep_spec {state : StructureState} {candle : Candle} {index : Nat}
    (h : state.latest.Standing candles index) (hcandle : candles[index]? = some candle) :
    (∀ kind, (structureStep swings state candle index).1.latest.of kind =
      ((state.latest.advance swings index).of kind).filter fun swing =>
        !actsAt candles Swing.IsBrokenBy swing index) ∧
    (∀ swing direction, (∃ event ∈ (structureStep swings state candle index).2,
        (event.brokenSwing, event.direction) = (swing, direction)) ↔
      direction = swing.kind.breakDirection ∧
      ((state.latest.advance swings index).of swing.kind).filter
        (fun swing => actsAt candles Swing.IsBrokenBy swing index) = some swing) := by
  have hnow := h.advance hstanding
  unfold structureStep
  simp only
  generalize state.latest.advance swings index = latest at hnow ⊢
  have habove : closedAbove latest candle = (latest.of .high).filter _ :=
    closedAbove_eq (hnow.kind .high) hcandle
  have hbelow : closedBelow latest candle = (latest.of .low).filter _ :=
    closedBelow_eq (hnow.kind .low) hcandle
  cases hhigh : closedAbove latest candle with
  | some high =>
    -- the latest low is not broken by the same candle
    rw [hhigh] at habove
    rw [hnow.not_both hcandle hhigh] at hbelow
    have hkind := hnow.kind .high high (Option.filter_eq_some_iff.mp habove.symm).1
    refine ⟨fun kind => ?_, fun swing direction => ?_⟩
    · cases kind with
      | high => exact (filter_not_of_filter_some habove.symm).symm
      | low => exact (filter_not_of_filter_none hbelow.symm).symm
    · constructor
      · rintro ⟨event, hevent, heq⟩
        cases heq
        rw [List.mem_singleton.mp hevent]
        show Direction.bullish = high.kind.breakDirection ∧ (latest.of high.kind).filter _ = some high
        rw [hkind]
        exact ⟨rfl, habove.symm⟩
      · rintro ⟨rfl, hbroken⟩
        cases hk : swing.kind with
        | high =>
          rw [hk, ← habove] at hbroken
          exact ⟨_, List.mem_singleton_self _, Prod.ext (Option.some.inj hbroken) rfl⟩
        | low =>
          rw [hk, ← hbelow] at hbroken
          cases hbroken
  | none =>
    rw [hhigh] at habove
    cases hlow : closedBelow latest candle with
    | some low =>
      rw [hlow] at hbelow
      have hkind := hnow.kind .low low (Option.filter_eq_some_iff.mp hbelow.symm).1
      refine ⟨fun kind => ?_, fun swing direction => ?_⟩
      · cases kind with
        | high => exact (filter_not_of_filter_none habove.symm).symm
        | low => exact (filter_not_of_filter_some hbelow.symm).symm
      · constructor
        · rintro ⟨event, hevent, heq⟩
          cases heq
          rw [List.mem_singleton.mp hevent]
          show Direction.bearish = low.kind.breakDirection ∧ (latest.of low.kind).filter _ = some low
          rw [hkind]
          exact ⟨rfl, hbelow.symm⟩
        · rintro ⟨rfl, hbroken⟩
          cases hk : swing.kind with
          | high =>
            rw [hk, ← habove] at hbroken
            cases hbroken
          | low =>
            rw [hk, ← hbelow] at hbroken
            exact ⟨_, List.mem_singleton_self _, Prod.ext (Option.some.inj hbroken) rfl⟩
    | none =>
      rw [hlow] at hbelow
      refine ⟨fun kind => ?_, fun swing direction => ?_⟩
      · cases kind with
        | high => exact (filter_not_of_filter_none habove.symm).symm
        | low => exact (filter_not_of_filter_none hbelow.symm).symm
      · constructor
        · rintro ⟨event, hevent, -⟩
          cases hevent
        · rintro ⟨-, hbroken⟩
          cases hk : swing.kind with
          | high =>
            rw [hk, ← habove] at hbroken
            cases hbroken
          | low =>
            rw [hk, ← hbelow] at hbroken
            cases hbroken

theorem structureStep_slotScan :
    SlotScan candles swings Swing.IsBrokenBy SwingKind.breakDirection (structureStep swings)
      StructureState.latest (fun index state => state.latest.Standing candles index)
      StructureBreak.index (fun event => (event.brokenSwing, event.direction)) where
  indexed := structureStep_indexed swings
  kept _ _ _ hcandle h := structureStep_standing hstanding h hcandle
  emptied _ _ _ hcandle h := (structureStep_spec hstanding h hcandle).1
  reported _ _ _ hcandle h := (structureStep_spec hstanding h hcandle).2

end Breaks

section Trend
variable {swings : List Swing}

/-- The events name the trend before them: the direction of the event before. -/
def Follows : Option Direction → List StructureBreak → Prop
  | _, [] => True
  | trend, event :: events =>
    event.priorTrend = trend ∧
      (event.kind = .choch ↔ ∃ before, trend = some before ∧ before ≠ event.direction) ∧
      Follows (some event.direction) events

theorem follows_structureBreak (trend : Option Direction) (direction : Direction) (target : Swing)
    (candle : Candle) (index : Nat) {events : List StructureBreak}
    (h : Follows (some direction) events) :
    Follows trend (structureBreak trend direction target candle index :: events) := by
  refine ⟨rfl, ?_, h⟩
  unfold structureBreak
  cases trend with
  | none => exact iff_of_false (by simp) (by simp)
  | some before => by_cases heq : before = direction <;> simp [heq]

theorem follows_emitFrom (candles : List Candle) (k : Nat) (state : StructureState) :
    Follows state.trend (emitFrom (structureStep swings) k state candles) := by
  induction candles generalizing k state with
  | nil => trivial
  | cons candle candles ih =>
    have hrest := ih (k + 1) (structureStep swings state candle k).1
    rw [emitFrom]
    unfold structureStep at hrest ⊢
    simp only at hrest ⊢
    split at hrest
    · exact follows_structureBreak _ _ _ _ _ hrest
    · exact follows_structureBreak _ _ _ _ _ hrest
    · exact hrest

/-- The event before the `n`th. -/
def eventBefore (events : List StructureBreak) (n : Nat) : Option StructureBreak :=
  (events.take n).getLast?

theorem Follows.trend_eq {trend : Option Direction} {events : List StructureBreak}
    (h : Follows trend events) {n : Nat} {event : StructureBreak} (hn : events[n]? = some event) :
    event.priorTrend = ((eventBefore events n).map StructureBreak.direction).or trend ∧
      (event.kind = .choch ↔ ∃ before, event.priorTrend = some before ∧ before ≠ event.direction) := by
  induction events generalizing trend n with
  | nil => cases hn
  | cons first events ih =>
    obtain ⟨htrend, hkind, hrest⟩ := h
    cases n with
    | zero =>
      cases hn
      refine ⟨htrend, ?_⟩
      rw [htrend]
      exact hkind
    | succ n =>
      obtain ⟨hlater, hlaterKind⟩ := ih hrest hn
      refine ⟨?_, hlaterKind⟩
      unfold eventBefore at hlater ⊢
      rw [hlater, List.take_succ_cons, List.getLast?_cons]
      cases (events.take n).getLast? with
      | none => rfl
      | some last => rfl

end Trend

section Sweeps
variable {candles : List Candle} {swings : List Swing}

/-- The direction of a sweep of a swing. -/
def SwingKind.sweepDirection : SwingKind → Direction
  | .high => .bearish
  | .low => .bullish

/-- The slots hold swings of their kinds. -/
def LatestSwings.Kinds (latest : LatestSwings) : Prop :=
  ∀ kind swing, latest.of kind = some swing → swing.kind = kind

theorem LatestSwings.Kinds.advance {latest : LatestSwings} (h : latest.Kinds) (index : Nat) :
    (latest.advance swings index).Kinds := by
  intro kind swing hof
  rw [of_advance, Option.or_eq_some_iff] at hof
  rcases hof with harrival | ⟨-, hof⟩
  · exact (mem_arriving.mp (List.mem_of_getLast? harrival)).2.1
  · exact h kind swing hof

theorem sweptHigh_eq {latest : LatestSwings} {candle : Candle} {index : Nat} (h : latest.Kinds)
    (hcandle : candles[index]? = some candle) :
    sweptHigh latest candle =
      (latest.of .high).filter fun swing => actsAt candles Swing.IsSweptBy swing index := by
  unfold sweptHigh actsAt
  rw [hcandle]
  show latest.high.filter _ = latest.high.filter _
  cases hhigh : latest.high with
  | none => rfl
  | some swing =>
    simp only [Option.filter_some, Option.any_some, Swing.IsSweptBy, h .high swing hhigh]

theorem sweptLow_eq {latest : LatestSwings} {candle : Candle} {index : Nat} (h : latest.Kinds)
    (hcandle : candles[index]? = some candle) :
    sweptLow latest candle =
      (latest.of .low).filter fun swing => actsAt candles Swing.IsSweptBy swing index := by
  unfold sweptLow actsAt
  rw [hcandle]
  show latest.low.filter _ = latest.low.filter _
  cases hlow : latest.low with
  | none => rfl
  | some swing =>
    simp only [Option.filter_some, Option.any_some, Swing.IsSweptBy, h .low swing hlow]

/-- An emptied slot. -/
theorem emptied_eq {α : Type*} (p : α → Bool) (o : Option α) :
    (if (o.filter p).isSome then none else o) = o.filter fun x => !p x := by
  cases hfilter : o.filter p with
  | none => exact (filter_not_of_filter_none hfilter).symm
  | some x => exact (filter_not_of_filter_some hfilter).symm

theorem sweepStep_emptied {latest : LatestSwings} {candle : Candle} {index : Nat}
    (h : latest.Kinds) (hcandle : candles[index]? = some candle) (kind : SwingKind) :
    (sweepStep swings latest candle index).1.of kind =
      ((latest.advance swings index).of kind).filter fun swing =>
        !actsAt candles Swing.IsSweptBy swing index := by
  have hnow : (latest.advance swings index).Kinds := h.advance index
  unfold sweepStep
  simp only
  rw [sweptHigh_eq hnow hcandle, sweptLow_eq hnow hcandle]
  cases kind with
  | high => exact emptied_eq _ _
  | low => exact emptied_eq _ _

theorem sweepStep_kinds {latest : LatestSwings} {candle : Candle} {index : Nat}
    (h : latest.Kinds) (hcandle : candles[index]? = some candle) :
    (sweepStep swings latest candle index).1.Kinds := by
  intro kind swing hof
  rw [sweepStep_emptied h hcandle] at hof
  have hnow : (latest.advance swings index).Kinds := h.advance index
  exact hnow kind swing (Option.filter_eq_some_iff.mp hof).1

theorem sweepStep_reported {latest : LatestSwings} {candle : Candle} {index : Nat}
    (h : latest.Kinds) (hcandle : candles[index]? = some candle) (swing : Swing)
    (way : Direction) :
    (∃ event ∈ (sweepStep swings latest candle index).2,
        (event.sweptSwing, event.direction) = (swing, way)) ↔
      way = swing.kind.sweepDirection ∧ ((latest.advance swings index).of swing.kind).filter
        (fun swing => actsAt candles Swing.IsSweptBy swing index) = some swing := by
  have hnow : (latest.advance swings index).Kinds := h.advance index
  have hhigh := sweptHigh_eq hnow hcandle
  have hlow := sweptLow_eq hnow hcandle
  unfold sweepStep
  simp only
  generalize latest.advance swings index = latest at hnow hhigh hlow ⊢
  constructor
  · rintro ⟨event, hevent, heq⟩
    cases heq
    rcases List.mem_append.mp hevent with hevent | hevent
    · obtain ⟨swing, hswept, rfl⟩ := Option.map_eq_some_iff.mp (Option.mem_toList.mp hevent)
      rw [hhigh] at hswept
      show Direction.bearish = swing.kind.sweepDirection ∧ (latest.of swing.kind).filter _ = some swing
      rw [hnow .high swing (Option.filter_eq_some_iff.mp hswept).1]
      exact ⟨rfl, hswept⟩
    · obtain ⟨swing, hswept, rfl⟩ := Option.map_eq_some_iff.mp (Option.mem_toList.mp hevent)
      rw [hlow] at hswept
      show Direction.bullish = swing.kind.sweepDirection ∧ (latest.of swing.kind).filter _ = some swing
      rw [hnow .low swing (Option.filter_eq_some_iff.mp hswept).1]
      exact ⟨rfl, hswept⟩
  · rintro ⟨rfl, hswept⟩
    cases hk : swing.kind with
    | high =>
      rw [hk, ← hhigh] at hswept
      exact ⟨_, List.mem_append_left _ (Option.mem_toList.mpr
        (Option.map_eq_some_iff.mpr ⟨swing, hswept, rfl⟩)), rfl⟩
    | low =>
      rw [hk, ← hlow] at hswept
      exact ⟨_, List.mem_append_right _ (Option.mem_toList.mpr
        (Option.map_eq_some_iff.mpr ⟨swing, hswept, rfl⟩)), rfl⟩

theorem sweepStep_slotScan :
    SlotScan candles swings Swing.IsSweptBy SwingKind.sweepDirection (sweepStep swings) id
      (fun _ latest => latest.Kinds) LiquiditySweep.index
      (fun event => (event.sweptSwing, event.direction)) where
  indexed := sweepStep_indexed swings
  kept _ _ _ hcandle h := sweepStep_kinds h hcandle
  emptied _ _ _ hcandle h := sweepStep_emptied h hcandle
  reported _ _ _ hcandle h := sweepStep_reported h hcandle

end Sweeps

section Events
variable {swings : List Swing}

theorem structureStep_data (state : StructureState) (candle : Candle) (index : Nat) :
    ∀ event ∈ (structureStep swings state candle index).2, event.index = index ∧
      event.time = candle.closeTime ∧ event.closePrice = candle.closePrice := by
  intro event hevent
  unfold structureStep at hevent
  simp only at hevent
  split at hevent
  · rw [List.mem_singleton.mp hevent]
    exact ⟨rfl, rfl, rfl⟩
  · rw [List.mem_singleton.mp hevent]
    exact ⟨rfl, rfl, rfl⟩
  · cases hevent

/-- There is at most one break at a candle. -/
theorem structureBreaks_increasing (candles : List Candle) :
    (detectStructureBreaks swings candles).Pairwise fun a b => a.index < b.index := by
  refine pairwise_emitFrom_of_steps (structureStep_indexed swings) (fun state candle i => ?_)
    (fun _ _ h => h) candles 0 {}
  unfold structureStep
  simp only
  split
  · exact List.pairwise_singleton _ _
  · exact List.pairwise_singleton _ _
  · exact List.Pairwise.nil

/-- The end of the candle that a sweep in a direction leaves behind. -/
def Direction.sweptExtreme : Direction → Candle → ℚ
  | .bearish, candle => candle.highPrice
  | .bullish, candle => candle.lowPrice

theorem sweepStep_data (latest : LatestSwings) (candle : Candle) (index : Nat) :
    ∀ sweep ∈ (sweepStep swings latest candle index).2, sweep.index = index ∧
      sweep.time = candle.closeTime ∧ sweep.level = sweep.sweptSwing.price ∧
      sweep.extremePrice = sweep.direction.sweptExtreme candle := by
  intro sweep hsweep
  rcases List.mem_append.mp hsweep with h | h
  · obtain ⟨swing, -, rfl⟩ := Option.map_eq_some_iff.mp (Option.mem_toList.mp h)
    exact ⟨rfl, rfl, rfl, rfl⟩
  · obtain ⟨swing, -, rfl⟩ := Option.map_eq_some_iff.mp (Option.mem_toList.mp h)
    exact ⟨rfl, rfl, rfl, rfl⟩

/-- One candle sweeps at most one swing in a direction. -/
theorem liquiditySweeps_increasing (candles : List Candle) :
    (detectLiquiditySweeps swings candles).Pairwise fun a b =>
      a.index < b.index ∨ a.direction ≠ b.direction := by
  refine pairwise_emitFrom_of_steps (sweepStep_indexed swings) (fun latest candle i => ?_)
    (fun _ _ h => Or.inl h) candles 0 {}
  unfold sweepStep
  simp only
  refine List.pairwise_append.mpr ⟨?_, ?_, fun a ha b hb => Or.inr ?_⟩
  · cases sweptHigh (latest.advance swings i) candle with
    | none => exact List.Pairwise.nil
    | some swing => exact List.pairwise_singleton _ _
  · cases sweptLow (latest.advance swings i) candle with
    | none => exact List.Pairwise.nil
    | some swing => exact List.pairwise_singleton _ _
  · obtain ⟨high, -, rfl⟩ := Option.map_eq_some_iff.mp (Option.mem_toList.mp ha)
    obtain ⟨low, -, rfl⟩ := Option.map_eq_some_iff.mp (Option.mem_toList.mp hb)
    exact fun heq => by cases heq

end Events

section Result

/-- What the scan of breaks reports for the detected swings. -/
theorem structureBreaks_iff (candles : List Candle) (lookback : Nat) (swing : Swing)
    (direction : Direction) (index : Nat) :
    (∃ event ∈ detectStructureBreaks (detectSwings candles lookback) candles, event.index = index ∧
        (event.brokenSwing, event.direction) = (swing, direction)) ↔
      direction = swing.kind.breakDirection ∧
        FirstActs candles (detectSwings candles lookback) Swing.IsBrokenBy swing index :=
  (structureStep_slotScan detectSwings_standing).mem_iff (detectSwings_oneConfirmed candles lookback)
    (LatestSwings.standing_empty candles) rfl swing direction index

theorem liquiditySweeps_iff (candles : List Candle) (lookback : Nat) (swing : Swing)
    (direction : Direction) (index : Nat) :
    (∃ sweep ∈ detectLiquiditySweeps (detectSwings candles lookback) candles, sweep.index = index ∧
        (sweep.sweptSwing, sweep.direction) = (swing, direction)) ↔
      direction = swing.kind.sweepDirection ∧
        FirstActs candles (detectSwings candles lookback) Swing.IsSweptBy swing index := by
  refine sweepStep_slotScan.mem_iff (detectSwings_oneConfirmed candles lookback) ?_ rfl swing
    direction index
  intro kind swing hof
  cases kind <;> cases hof

/-- Breaks and sweeps of the detected swings, without the scan: each swing is broken at the
first close beyond it and swept at the first wick beyond it, while it is the last of its kind. -/
theorem structure_order_free (candles : List Candle) (lookback : Nat) :
    let swings := detectSwings candles lookback
    let breaks := detectStructureBreaks swings candles
    let sweeps := detectLiquiditySweeps swings candles
    (∀ swing direction index, (∃ event ∈ breaks, event.index = index ∧
        (event.brokenSwing, event.direction) = (swing, direction)) ↔
      direction = swing.kind.breakDirection ∧
        FirstActs candles swings Swing.IsBrokenBy swing index) ∧
    breaks.Pairwise (fun a b => a.index < b.index) ∧
    (∀ n event, breaks[n]? = some event →
      event.priorTrend = (eventBefore breaks n).map StructureBreak.direction ∧
        (event.kind = .choch ↔
          ∃ before, eventBefore breaks n = some before ∧ before.direction ≠ event.direction)) ∧
    (∀ event ∈ breaks, ∃ candle, candles[event.index]? = some candle ∧
      event.time = candle.closeTime ∧ event.closePrice = candle.closePrice) ∧
    (∀ swing direction index, (∃ sweep ∈ sweeps, sweep.index = index ∧
        (sweep.sweptSwing, sweep.direction) = (swing, direction)) ↔
      direction = swing.kind.sweepDirection ∧
        FirstActs candles swings Swing.IsSweptBy swing index) ∧
    (∀ sweep ∈ sweeps, ∃ candle, candles[sweep.index]? = some candle ∧
      sweep.time = candle.closeTime ∧ sweep.level = sweep.sweptSwing.price ∧
      sweep.extremePrice = sweep.direction.sweptExtreme candle) ∧
    (breaks.map StructureBreak.brokenSwing).Nodup ∧
    (sweeps.map LiquiditySweep.sweptSwing).Nodup := by
  intro swings breaks sweeps
  have hbreaks := structureBreaks_iff candles lookback
  have hsweeps := liquiditySweeps_iff candles lookback
  have hincreasing : breaks.Pairwise fun a b => a.index < b.index :=
    structureBreaks_increasing candles
  refine ⟨hbreaks, hincreasing, fun n event hn => ?_, fun event hevent => ?_, hsweeps,
    fun sweep hsweep => ?_, ?_, ?_⟩
  · have hfollows : Follows none breaks := follows_emitFrom candles 0 {}
    obtain ⟨hprior, hkind⟩ := hfollows.trend_eq hn
    rw [Option.or_none] at hprior
    refine ⟨hprior, hkind.trans ?_⟩
    rw [hprior]
    constructor
    · rintro ⟨direction, hdirection, hne⟩
      obtain ⟨before, hbefore, rfl⟩ := Option.map_eq_some_iff.mp hdirection
      exact ⟨before, hbefore, hne⟩
    · rintro ⟨before, hbefore, hne⟩
      exact ⟨before.direction, Option.map_eq_some_iff.mpr ⟨before, hbefore, rfl⟩, hne⟩
  · obtain ⟨i, candle, hcandle, hindex, hdata⟩ :=
      of_mem_emitFrom (@structureStep_data swings) candles 0 {} event hevent
    rw [Nat.zero_add] at hindex
    exact ⟨candle, hindex ▸ hcandle, hdata⟩
  · obtain ⟨i, candle, hcandle, hindex, hdata⟩ :=
      of_mem_emitFrom (@sweepStep_data swings) candles 0 {} sweep hsweep
    rw [Nat.zero_add] at hindex
    exact ⟨candle, hindex ▸ hcandle, hdata⟩
  · refine List.pairwise_map.mpr (List.Pairwise.imp_of_mem ?_ hincreasing)
    intro a b ha hb hlt heq
    have hfirst := ((hbreaks a.brokenSwing a.direction a.index).mp ⟨a, ha, rfl, rfl⟩).2
    have hagain := ((hbreaks b.brokenSwing b.direction b.index).mp ⟨b, hb, rfl, rfl⟩).2
    rw [← heq] at hagain
    exact Nat.ne_of_lt hlt (hfirst.index_unique hagain)
  · refine List.pairwise_map.mpr (List.Pairwise.imp_of_mem ?_ (liquiditySweeps_increasing candles))
    intro a b ha hb hdiffer heq
    obtain ⟨hadir, hfirst⟩ := (hsweeps a.sweptSwing a.direction a.index).mp ⟨a, ha, rfl, rfl⟩
    obtain ⟨hbdir, hagain⟩ := (hsweeps b.sweptSwing b.direction b.index).mp ⟨b, hb, rfl, rfl⟩
    rw [← heq] at hbdir hagain
    rcases hdiffer with hlt | hne
    · exact Nat.ne_of_lt hlt (hfirst.index_unique hagain)
    · exact hne (hadir.trans hbdir.symm)

end Result

end StructurePulse.SMC
