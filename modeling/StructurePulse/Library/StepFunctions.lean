import Mathlib.MeasureTheory.Integral.IntervalIntegral.Basic

/-!
# Step functions

A step function has one value up to an instant and another one after it. Its integral is the
sum of two rectangles.
-/

namespace Library
open MeasureTheory
set_option autoImplicit false

noncomputable def stepFunction (early late switch x : ℝ) : ℝ := if x ≤ switch then early else late

variable {early late switch start stop : ℝ}

theorem eqOn_early (h : start ≤ switch) :
    Set.EqOn (stepFunction early late switch) (fun _ => early) (Set.uIoc start switch) := by
  intro x hx
  rw [Set.uIoc_of_le h] at hx
  exact if_pos hx.2

theorem eqOn_late (h : switch ≤ stop) :
    Set.EqOn (stepFunction early late switch) (fun _ => late) (Set.uIoc switch stop) := by
  intro x hx
  rw [Set.uIoc_of_le h] at hx
  exact if_neg (not_le.mpr hx.1)

theorem integral_stepFunction (hstart : start ≤ switch) (hstop : switch ≤ stop) :
    ∫ x in start..stop, stepFunction early late switch x =
      early * (switch - start) + late * (stop - switch) := by
  have hleft : IntervalIntegrable (stepFunction early late switch) volume start switch :=
    intervalIntegrable_const.congr (eqOn_early hstart).symm
  have hright : IntervalIntegrable (stepFunction early late switch) volume switch stop :=
    intervalIntegrable_const.congr (eqOn_late hstop).symm
  have hearly : ∫ x in start..switch, stepFunction early late switch x = ∫ _ in start..switch, early :=
    intervalIntegral.integral_congr_ae (.of_forall fun _ hx => eqOn_early hstart hx)
  have hlate : ∫ x in switch..stop, stepFunction early late switch x = ∫ _ in switch..stop, late :=
    intervalIntegral.integral_congr_ae (.of_forall fun _ hx => eqOn_late hstop hx)
  rw [← intervalIntegral.integral_add_adjacent_intervals hleft hright, hearly, hlate,
    intervalIntegral.integral_const, intervalIntegral.integral_const, smul_eq_mul, smul_eq_mul,
    mul_comm early, mul_comm late]

end Library
