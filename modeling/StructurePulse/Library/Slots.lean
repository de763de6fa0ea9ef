import Mathlib.Data.List.Basic
import Mathlib.Data.Option.Basic

/-!
# A slot that holds the latest arrival

At every time at most one item arrives and takes the slot; a hit empties it. So at any time
the slot holds the last arrival, unless it was hit since, and an item that arrives once is
hit at most once.
-/

namespace Library
set_option autoImplicit false

variable {ι : Type*} (arrive : Nat → Option ι) (hit : ι → Nat → Bool)

/-- What is left in the slot before a time. -/
def left : Nat → Option ι
  | 0 => none
  | time + 1 => ((arrive time).or (left time)).filter fun item => !hit item time

/-- What the slot holds at a time, before the hit. -/
def held (time : Nat) : Option ι := (arrive time).or (left arrive hit time)

theorem left_succ (time : Nat) :
    left arrive hit (time + 1) = (held arrive hit time).filter fun item => !hit item time := rfl

/-- The item was the last to arrive and has not been hit since. -/
structure Unhit (time : Nat) (item : ι) (since : Nat) : Prop where
  since_le : since ≤ time
  arrived : arrive since = some item
  last : ∀ t, since < t → t ≤ time → arrive t = none
  unhit : ∀ t, since ≤ t → t < time → hit item t = false

variable {arrive hit}

theorem held_eq_some_iff {time : Nat} {item : ι} :
    held arrive hit time = some item ↔ ∃ since, Unhit arrive hit time item since := by
  induction time with
  | zero =>
    show (arrive 0).or none = some item ↔ _
    rw [Option.or_none]
    constructor
    · intro h
      exact ⟨0, Nat.le_refl 0, h, fun t hlate hearly => by omega, fun t _ hearly => by omega⟩
    · rintro ⟨since, h⟩
      rw [← Nat.le_zero.mp h.since_le]
      exact h.arrived
  | succ time ih =>
    unfold held
    rw [left_succ]
    cases harrive : arrive (time + 1) with
    | some newest =>
      rw [Option.some_or, Option.some.injEq]
      constructor
      · rintro rfl
        exact ⟨time + 1, Nat.le_refl _, harrive, fun t hlate hearly => by omega,
          fun t hlate hearly => by omega⟩
      · rintro ⟨since, h⟩
        rcases Nat.lt_or_eq_of_le h.since_le with hlt | rfl
        · have hnone := h.last (time + 1) hlt (Nat.le_refl _)
          rw [harrive] at hnone
          cases hnone
        · exact Option.some.inj (harrive.symm.trans h.arrived)
    | none =>
      rw [Option.none_or, Option.filter_eq_some_iff, ih, Bool.not_eq_true']
      constructor
      · rintro ⟨⟨since, h⟩, hmiss⟩
        refine ⟨since, Nat.le_succ_of_le h.since_le, h.arrived, fun t hlate hearly => ?_,
          fun t hlate hearly => ?_⟩
        · rcases Nat.lt_or_eq_of_le hearly with hlt | rfl
          · exact h.last t hlate (Nat.lt_succ_iff.mp hlt)
          · exact harrive
        · rcases Nat.lt_succ_iff_lt_or_eq.mp hearly with hlt | rfl
          · exact h.unhit t hlate hlt
          · exact hmiss
      · rintro ⟨since, h⟩
        have hle : since ≤ time := by
          rcases Nat.lt_or_eq_of_le h.since_le with hlt | rfl
          · exact Nat.lt_succ_iff.mp hlt
          · have harrived := h.arrived
            rw [harrive] at harrived
            cases harrived
        exact ⟨⟨since, hle, h.arrived, fun t hlate hearly => h.last t hlate (Nat.le_succ_of_le hearly),
          fun t hlate hearly => h.unhit t hlate (Nat.lt_succ_of_lt hearly)⟩,
          h.unhit time hle (Nat.lt_succ_self time)⟩

theorem foldl_some {α : Type*} (l : List α) (first : Option α) :
    l.foldl (fun _ x => some x) first = l.getLast?.or first := by
  induction l generalizing first with
  | nil => rfl
  | cons x l ih =>
    rw [List.foldl_cons, ih, List.getLast?_cons]
    cases l.getLast? with
    | none => rfl
    | some y => rfl

end Library
