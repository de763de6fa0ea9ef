import Mathlib.Data.List.Basic
import Mathlib.Data.List.MinMax

/-!
# The first hit of a scan, and extremes of what it scans

`firstFrom` is the index at which a forward scan stops. It is the first index from the start
whose element is hit, and there is one exactly if the extreme of the elements is hit.
-/

namespace Library
set_option autoImplicit false

variable {α : Type*} (hit : α → Bool)

/-- The index of the first hit, counted from a given index on. -/
def firstFrom : Nat → List α → Option Nat
  | _, [] => none
  | index, x :: xs => if hit x then some index else firstFrom (index + 1) xs

/-- The first element from an index on that is hit. -/
structure FirstAt (xs : List α) (start index : Nat) : Prop where
  start_le : start ≤ index
  now : ∃ x, xs[index]? = some x ∧ hit x = true
  before : ∀ j x, start ≤ j → j < index → xs[j]? = some x → hit x = false

variable {hit} {xs : List α} {start index : Nat}

theorem FirstAt.unique {i j : Nat} (hi : FirstAt hit xs start i) (hj : FirstAt hit xs start j) :
    i = j := by
  obtain ⟨x, hx, hhit⟩ := hi.now
  obtain ⟨y, hy, hhit'⟩ := hj.now
  rcases Nat.lt_trichotomy i j with hlt | heq | hgt
  · rw [hj.before i x hi.start_le hlt hx] at hhit
    cases hhit
  · exact heq
  · rw [hi.before j y hj.start_le hgt hy] at hhit'
    cases hhit'

theorem firstFrom_eq_none_iff : firstFrom hit start xs = none ↔ ∀ x ∈ xs, hit x = false := by
  induction xs generalizing start with
  | nil => exact iff_of_true rfl (fun x hx => absurd hx List.not_mem_nil)
  | cons x xs ih =>
    rw [firstFrom, List.forall_mem_cons]
    cases hx : hit x with
    | true => exact iff_of_false (by simp) (by simp)
    | false => exact ih.trans (and_iff_right rfl).symm

theorem firstAt_of_firstFrom {rest : List α} {start : Nat} (hrest : xs.drop start = rest)
    (h : firstFrom hit start rest = some index) : FirstAt hit xs start index := by
  induction rest generalizing start with
  | nil => cases h
  | cons x rest ih =>
    have hx : xs[start]? = some x := by
      rw [← Nat.add_zero start, ← List.getElem?_drop, hrest]
      rfl
    have hnext : xs.drop (start + 1) = rest := by
      rw [← List.drop_drop, hrest]
      rfl
    rw [firstFrom] at h
    split_ifs at h with hhit
    · cases h
      exact ⟨Nat.le_refl _, ⟨x, hx, hhit⟩, fun j y hle hlt => absurd hle (Nat.not_le_of_lt hlt)⟩
    · have hfirst := ih hnext h
      refine ⟨Nat.le_of_succ_le hfirst.start_le, hfirst.now, fun j y hle hlt hy => ?_⟩
      rcases Nat.eq_or_lt_of_le hle with rfl | hlater
      · rw [hx] at hy
        cases hy
        exact Bool.eq_false_iff.mpr hhit
      · exact hfirst.before j y hlater hlt hy

/-- The scan from an index on stops at the first hit. -/
theorem firstFrom_drop_eq_some_iff (xs : List α) :
    firstFrom hit start (xs.drop start) = some index ↔ FirstAt hit xs start index := by
  constructor
  · exact firstAt_of_firstFrom rfl
  · intro h
    cases hfirst : firstFrom hit start (xs.drop start) with
    | none =>
      obtain ⟨x, hx, hhit⟩ := h.now
      have hmem : x ∈ xs.drop start := by
        refine List.mem_of_getElem? (i := index - start) ?_
        rw [List.getElem?_drop, Nat.add_sub_cancel' h.start_le]
        exact hx
      rw [firstFrom_eq_none_iff.mp hfirst x hmem] at hhit
      cases hhit
    | some other => rw [(firstAt_of_firstFrom rfl hfirst).unique h]

theorem firstFrom_ne_none_iff : firstFrom hit start xs ≠ none ↔ ∃ x ∈ xs, hit x = true := by
  rw [Ne, firstFrom_eq_none_iff]
  constructor
  · intro h
    by_contra hnone
    exact h fun x hx => Bool.eq_false_iff.mpr fun hhit => hnone ⟨x, hx, hhit⟩
  · rintro ⟨x, hx, hhit⟩ h
    rw [h x hx] at hhit
    cases hhit

section Extremes
variable {κ : Type*} [LinearOrder κ]

theorem minimum_lt_coe_iff {values : List κ} {bound : κ} :
    values.minimum < (bound : WithTop κ) ↔ ∃ value ∈ values, value < bound := by
  constructor
  · intro h
    by_contra hnone
    refine absurd h (not_lt_of_ge (List.le_minimum_of_forall_le fun value hvalue => ?_))
    exact WithTop.coe_le_coe.mpr (not_lt.mp fun hlt => hnone ⟨value, hvalue, hlt⟩)
  · rintro ⟨value, hvalue, hlt⟩
    exact lt_of_le_of_lt (List.minimum_le_of_mem' hvalue) (WithTop.coe_lt_coe.mpr hlt)

theorem coe_lt_maximum_iff {values : List κ} {bound : κ} :
    (bound : WithBot κ) < values.maximum ↔ ∃ value ∈ values, bound < value := by
  constructor
  · intro h
    by_contra hnone
    refine absurd h (not_lt_of_ge (List.maximum_le_of_forall_le fun value hvalue => ?_))
    exact WithBot.coe_le_coe.mpr (not_lt.mp fun hlt => hnone ⟨value, hvalue, hlt⟩)
  · rintro ⟨value, hvalue, hlt⟩
    exact lt_of_lt_of_le (WithBot.coe_lt_coe.mpr hlt) (List.le_maximum_of_mem' hvalue)

end Extremes

end Library
