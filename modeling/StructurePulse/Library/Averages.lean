import Mathlib.Algebra.BigOperators.Group.List.Basic
import Mathlib.Algebra.BigOperators.Intervals
import Mathlib.Algebra.Order.BigOperators.Group.List
import Mathlib.Algebra.Order.Field.Basic
import Mathlib.Tactic.Abel
import Mathlib.Tactic.Ring

/-!
# Running averages and their closed forms

The values that a running total still counts are a window of the list. A smoothing forgets
its seed and its earlier values geometrically.
-/

namespace Library
set_option autoImplicit false

section Windows
variable {α : Type*}

/-- The last `period` of the first `stop` values. -/
def lastValues (values : List α) (period stop : Nat) : List α :=
  (values.take stop).drop (stop - period)

theorem length_lastValues {values : List α} {period stop : Nat} (hperiod : period ≤ stop)
    (hstop : stop ≤ values.length) : (lastValues values period stop).length = period := by
  rw [lastValues, List.length_drop, List.length_take]
  omega

variable [AddCommGroup α]

/-- Adding the next value and dropping the one before the window moves the window. -/
theorem sum_lastValues_succ {values : List α} {period : Nat} (hperiod : 1 ≤ period) {index : Nat}
    (hindex : index < values.length) :
    (lastValues values period (index + 1)).sum = (lastValues values period index).sum +
      values.getD index 0 - if index ≥ period then values.getD (index - period) 0 else 0 := by
  have hlength : (values.take index).length = index := List.length_take_of_le hindex.le
  have hnext : values.take (index + 1) = values.take index ++ [values.getD index 0] := by
    rw [List.take_add_one, List.getD_eq_getElem?_getD, List.getElem?_eq_getElem hindex]
    rfl
  unfold lastValues
  by_cases hfull : index ≥ period
  · -- the window has a value to drop
    have hlt : index - period < (values.take index).length := by omega
    have hfirst : (values.take index)[index - period] = values.getD (index - period) 0 := by
      rw [List.getElem_take, List.getD_eq_getElem?_getD, List.getElem?_eq_getElem (by omega),
        Option.getD_some]
    have hdrop : (values.take index).drop (index - period) =
        values.getD (index - period) 0 :: (values.take index).drop (index + 1 - period) := by
      rw [List.drop_eq_getElem_cons hlt, hfirst, Nat.sub_add_comm hfull]
    rw [if_pos hfull, hnext, List.drop_append_of_le_length (by omega), hdrop, List.sum_append,
      List.sum_singleton, List.sum_cons]
    abel
  · have hall : index - period = 0 := by omega
    have hnone : index + 1 - period = 0 := by omega
    rw [if_neg hfull, hall, hnone, List.drop_zero, List.drop_zero, hnext, List.sum_append,
      List.sum_singleton, sub_zero]

end Windows

section Means
variable {α : Type*} [Field α] [LinearOrder α] [IsStrictOrderedRing α]

/-- The arithmetic mean. -/
def mean (values : List α) : α := values.sum / values.length

theorem le_mean {values : List α} {low : α} (hvalues : values ≠ [])
    (h : ∀ x ∈ values, low ≤ x) : low ≤ mean values := by
  have hlength : (0 : α) < values.length := Nat.cast_pos.mpr (List.length_pos_iff.mpr hvalues)
  rw [mean, le_div_iff₀ hlength, mul_comm, ← nsmul_eq_mul]
  exact List.card_nsmul_le_sum values low h

theorem mean_le {values : List α} {high : α} (hvalues : values ≠ [])
    (h : ∀ x ∈ values, x ≤ high) : mean values ≤ high := by
  have hlength : (0 : α) < values.length := Nat.cast_pos.mpr (List.length_pos_iff.mpr hvalues)
  rw [mean, div_le_iff₀ hlength, mul_comm, ← nsmul_eq_mul]
  exact List.sum_le_card_nsmul values high h

end Means

section Smoothing
variable {α : Type*} [Field α]

/-- Each value enters with a weight and what was before it decays. -/
def smooth (decay weight : α) : α → List α → List α
  | _, [] => []
  | current, value :: rest =>
    (decay * current + weight * value) :: smooth decay weight (decay * current + weight * value) rest

variable {decay weight : α}

theorem length_smooth (current : α) (values : List α) :
    (smooth decay weight current values).length = values.length := by
  induction values generalizing current with
  | nil => rfl
  | cons value rest ih => rw [smooth, List.length_cons, List.length_cons, ih]

/-- What is left of the values and of the seed at an index. -/
def weighted (decay weight seed : α) (values : List α) (index : Nat) : α :=
  (∑ k ∈ Finset.range (index + 1), decay ^ k * weight * values.getD (index - k) 0) +
    decay ^ (index + 1) * seed

theorem weighted_cons (seed value : α) (rest : List α) (index : Nat) :
    weighted decay weight seed (value :: rest) (index + 1) =
      weighted decay weight (decay * seed + weight * value) rest index := by
  unfold weighted
  rw [Finset.sum_range_succ]
  have hterm : ∀ k ∈ Finset.range (index + 1),
      decay ^ k * weight * (value :: rest).getD (index + 1 - k) 0 =
        decay ^ k * weight * rest.getD (index - k) 0 := by
    intro k hk
    have hsub : index + 1 - k = (index - k) + 1 := by
      have := Finset.mem_range.mp hk
      omega
    rw [hsub, List.getD_cons_succ]
  rw [Finset.sum_congr rfl hterm, Nat.sub_self, List.getD_cons_zero]
  ring

theorem smooth_getElem? (seed : α) (values : List α) {index : Nat} (hindex : index < values.length) :
    (smooth decay weight seed values)[index]? = some (weighted decay weight seed values index) := by
  induction values generalizing seed index with
  | nil => exact absurd hindex (Nat.not_lt_zero _)
  | cons value rest ih =>
    cases index with
    | zero =>
      rw [smooth, List.getElem?_cons_zero, weighted, Finset.sum_range_one]
      simp [add_comm]
    | succ index =>
      rw [smooth, List.getElem?_cons_succ, ih _ (Nat.lt_of_succ_lt_succ hindex), weighted_cons]

variable [LinearOrder α] [IsStrictOrderedRing α]

/-- A smoothing whose weights sum to one stays between what it has seen. -/
theorem weighted_between (hdecay : 0 ≤ decay) (hweight : 0 ≤ weight) (hone : decay + weight = 1)
    {low high seed : α} (hseed : low ≤ seed ∧ seed ≤ high) {values : List α} {index : Nat}
    (hindex : index < values.length)
    (hvalues : ∀ x ∈ values.take (index + 1), low ≤ x ∧ x ≤ high) :
    low ≤ weighted decay weight seed values index ∧
      weighted decay weight seed values index ≤ high := by
  induction values generalizing seed index with
  | nil => exact absurd hindex (Nat.not_lt_zero _)
  | cons value rest ih =>
    have hvalue := hvalues value List.mem_cons_self
    have hnext : low ≤ decay * seed + weight * value ∧ decay * seed + weight * value ≤ high := by
      have hlow : decay * low + weight * low = low := by rw [← add_mul, hone, one_mul]
      have hhigh : decay * high + weight * high = high := by rw [← add_mul, hone, one_mul]
      constructor
      · rw [← hlow]
        exact add_le_add (mul_le_mul_of_nonneg_left hseed.1 hdecay)
          (mul_le_mul_of_nonneg_left hvalue.1 hweight)
      · rw [← hhigh]
        exact add_le_add (mul_le_mul_of_nonneg_left hseed.2 hdecay)
          (mul_le_mul_of_nonneg_left hvalue.2 hweight)
    cases index with
    | zero =>
      have hzero : weighted decay weight seed (value :: rest) 0 =
          decay * seed + weight * value := by
        rw [weighted, Finset.sum_range_one]
        simp [add_comm]
      rw [hzero]
      exact hnext
    | succ index =>
      rw [weighted_cons]
      refine ih hnext (Nat.lt_of_succ_lt_succ hindex) fun x hx => hvalues x ?_
      rw [List.take_succ_cons]
      exact List.mem_cons_of_mem value hx

end Smoothing

end Library
