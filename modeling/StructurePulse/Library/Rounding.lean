import Mathlib.Algebra.Order.Round
import Mathlib.Data.Rat.Floor
import Mathlib.Tactic.Linarith
import Mathlib.Tactic.Positivity
import Mathlib.Tactic.FieldSimp

/-!
# Rounding to decimal places

A rounding gives every number a nearest integer; ties go away from zero or to the even
neighbour. `atPlaces` rounds to a number of decimal places.
-/

namespace Library
set_option autoImplicit false

section Nearest
variable {α : Type} [Field α] [LinearOrder α] [IsStrictOrderedRing α] [FloorRing α]

/-- The nearest integer, ties away from zero. -/
def awayFromZero (x : α) : ℤ := if x < 0 then -round (-x) else round x

/-- The nearest integer, ties to the even neighbour. -/
def toEven (x : α) : ℤ := if Int.fract x = 1 / 2 ∧ ⌊x⌋ % 2 = 0 then ⌊x⌋ else round x

theorem abs_awayFromZero_sub_le (x : α) : |(awayFromZero x : α) - x| ≤ 1 / 2 := by
  unfold awayFromZero
  split_ifs with hneg
  · have h := abs_sub_round (-x)
    rw [← neg_add', abs_neg] at h
    rwa [Int.cast_neg, neg_sub_left, abs_neg]
  · rw [abs_sub_comm]
    exact abs_sub_round x

theorem abs_toEven_sub_le (x : α) : |(toEven x : α) - x| ≤ 1 / 2 := by
  unfold toEven
  split_ifs with htie
  · have h := Int.self_sub_floor x
    rw [abs_sub_comm, h, htie.1, abs_of_pos one_half_pos]
  · rw [abs_sub_comm]
    exact abs_sub_round x

@[simp] theorem awayFromZero_intCast (n : ℤ) : awayFromZero (n : α) = n := by
  unfold awayFromZero
  split_ifs with hneg
  · rw [← Int.cast_neg, round_intCast, neg_neg]
  · exact round_intCast n

/-- Below a bound that is not negative, ties belong to the integer above. -/
theorem awayFromZero_lt_iff {x : α} {n : ℤ} (hn : 0 < n) :
    awayFromZero x < n ↔ x < n - 1 / 2 := by
  have hcast : (1 : α) ≤ n := by exact_mod_cast hn
  unfold awayFromZero
  split_ifs with hneg
  · have h := abs_le.mp (abs_sub_round (-x))
    have hround : (0 : α) < round (-x) + 1 := by linarith [h.2]
    have hnonneg : 0 ≤ round (-x) := by
      have : (0 : ℤ) < round (-x) + 1 := by exact_mod_cast hround
      omega
    exact ⟨fun _ => by linarith, fun _ => by omega⟩
  · rw [round_eq, Int.floor_lt]
    exact ⟨fun h => by linarith, fun h => by linarith⟩

theorem awayFromZero_pos_iff {x : α} : 0 < awayFromZero x ↔ 1 / 2 ≤ x := by
  rw [← not_iff_not, not_lt, not_le, ← Int.lt_add_one_iff, zero_add,
    awayFromZero_lt_iff one_pos]
  constructor
  all_goals
    intro h
    push_cast at *
    linarith

end Nearest

section Places
variable {α : Type} [Field α] [LinearOrder α] [IsStrictOrderedRing α] [FloorRing α]

def atPlaces (rounding : α → ℤ) (places : ℕ) (x : α) : α :=
  rounding (x * 10 ^ places) / 10 ^ places

omit [FloorRing α] in
theorem abs_atPlaces_sub_le {rounding : α → ℤ} (hround : ∀ x, |(rounding x : α) - x| ≤ 1 / 2)
    (places : ℕ) (x : α) : |atPlaces rounding places x - x| ≤ 1 / (2 * 10 ^ places) := by
  have hpos : (0 : α) < 10 ^ places := by positivity
  have heq : atPlaces rounding places x - x =
      (rounding (x * 10 ^ places) - x * 10 ^ places) / 10 ^ places := by
    unfold atPlaces
    field_simp
  rw [heq, abs_div, abs_of_pos hpos, ← div_div]
  exact div_le_div_of_nonneg_right (hround _) hpos.le

theorem atPlaces_idem (places : ℕ) (x : α) :
    atPlaces awayFromZero places (atPlaces awayFromZero places x) =
      atPlaces awayFromZero places x := by
  have hne : (10 : α) ^ places ≠ 0 := pow_ne_zero _ (by norm_num)
  unfold atPlaces
  rw [div_mul_cancel₀ _ hne, awayFromZero_intCast]

theorem atPlaces_lt_iff {places : ℕ} {x : α} {bound : ℕ} (hbound : 0 < bound) :
    atPlaces awayFromZero places x < bound ↔ x < bound - 1 / (2 * 10 ^ places) := by
  have hpos : (0 : α) < 10 ^ places := by positivity
  unfold atPlaces
  rw [div_lt_iff₀ hpos]
  have hcast : (bound : α) * 10 ^ places = ((bound * 10 ^ places : ℤ) : α) := by push_cast; rfl
  rw [hcast, Int.cast_lt, awayFromZero_lt_iff (by positivity), ← hcast, ← sub_pos,
    ← sub_pos (a := (bound : α) - 1 / (2 * 10 ^ places))]
  have heq : (bound : α) * 10 ^ places - 1 / 2 - x * 10 ^ places =
      (bound - 1 / (2 * 10 ^ places) - x) * 10 ^ places := by field_simp
  rw [heq]
  exact mul_pos_iff_of_pos_right hpos

theorem atPlaces_le {places : ℕ} {x : α} {bound : ℕ} (hx : x ≤ bound) :
    atPlaces awayFromZero places x ≤ bound := by
  have hpos : (0 : α) < 10 ^ places := by positivity
  have hscaled : x * 10 ^ places < ((bound * 10 ^ places + 1 : ℤ) : α) - 1 / 2 := by
    have h := mul_le_mul_of_nonneg_right hx hpos.le
    push_cast
    linarith
  have hlt := (awayFromZero_lt_iff (by positivity)).mpr hscaled
  unfold atPlaces
  rw [div_le_iff₀ hpos]
  exact_mod_cast Int.lt_add_one_iff.mp hlt

theorem atPlaces_pos_iff {places : ℕ} {x : α} :
    0 < atPlaces awayFromZero places x ↔ 1 / (2 * 10 ^ places) ≤ x := by
  have hpos : (0 : α) < 10 ^ places := by positivity
  unfold atPlaces
  rw [div_pos_iff_of_pos_right hpos, Int.cast_pos, awayFromZero_pos_iff,
    ← div_div, div_le_iff₀ hpos]

end Places

end Library
