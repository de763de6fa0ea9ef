import Mathlib.Algebra.BigOperators.Group.List.Basic
import Mathlib.Algebra.Order.Field.Basic
import Mathlib.Algebra.Order.Group.Unbundled.Abs
import Mathlib.Algebra.Order.Group.MinMax
import Mathlib.Algebra.Order.Ring.Abs
import Mathlib.Tactic.Ring

/-!
# Rescalings

A rescaling of an ordered field multiplies by a positive factor and adds a shift. It keeps
the order of positions, and distances between positions are multiplied by its factor.
-/

namespace Library
set_option autoImplicit false

structure Rescaling (α : Type) [Field α] [LinearOrder α] where
  factor : α
  shift : α
  factor_pos : 0 < factor

namespace Rescaling
variable {α : Type} [Field α] [LinearOrder α] (units : Rescaling α)

def position (x : α) : α := units.factor * x + units.shift

def distance (d : α) : α := units.factor * d

section Algebra

@[simp] theorem position_sub_position (x y : α) :
    units.position x - units.position y = units.distance (x - y) := by
  unfold position distance
  ring

@[simp] theorem distance_zero : units.distance 0 = 0 := mul_zero units.factor

theorem distance_add (d e : α) : units.distance (d + e) = units.distance d + units.distance e :=
  mul_add units.factor d e

theorem distance_sub (d e : α) : units.distance (d - e) = units.distance d - units.distance e :=
  mul_sub units.factor d e

/-- A ratio of distances stays a plain number. -/
theorem distance_mul (d ratio : α) : units.distance d * ratio = units.distance (d * ratio) :=
  mul_assoc units.factor d ratio

theorem distance_div (d ratio : α) : units.distance d / ratio = units.distance (d / ratio) :=
  mul_div_assoc units.factor d ratio

@[simp] theorem distance_div_distance (d e : α) : units.distance d / units.distance e = d / e :=
  mul_div_mul_left d e units.factor_pos.ne'

theorem sum_map_distance (distances : List α) :
    (distances.map units.distance).sum = units.distance distances.sum := by
  induction distances with
  | nil => exact units.distance_zero.symm
  | cons d distances ih => rw [List.map_cons, List.sum_cons, List.sum_cons, ih, distance_add]

end Algebra

section Order
variable [IsStrictOrderedRing α]

theorem position_strictMono : StrictMono units.position := by
  intro x y h
  exact add_lt_add_left (mul_lt_mul_of_pos_left h units.factor_pos) units.shift

@[simp] theorem position_lt {x y : α} : units.position x < units.position y ↔ x < y :=
  units.position_strictMono.lt_iff_lt

@[simp] theorem position_le {x y : α} : units.position x ≤ units.position y ↔ x ≤ y :=
  units.position_strictMono.le_iff_le

theorem position_max (x y : α) :
    units.position (max x y) = max (units.position x) (units.position y) :=
  units.position_strictMono.monotone.map_max

theorem position_min (x y : α) :
    units.position (min x y) = min (units.position x) (units.position y) :=
  units.position_strictMono.monotone.map_min

@[simp] theorem position_midpoint (x y : α) :
    (units.position x + units.position y) / 2 = units.position ((x + y) / 2) := by
  unfold position
  ring

theorem distance_strictMono : StrictMono units.distance := by
  intro x y h
  exact mul_lt_mul_of_pos_left h units.factor_pos

@[simp] theorem distance_lt {d e : α} : units.distance d < units.distance e ↔ d < e :=
  units.distance_strictMono.lt_iff_lt

@[simp] theorem distance_le {d e : α} : units.distance d ≤ units.distance e ↔ d ≤ e :=
  units.distance_strictMono.le_iff_le

theorem distance_max (d e : α) :
    units.distance (max d e) = max (units.distance d) (units.distance e) :=
  units.distance_strictMono.monotone.map_max

@[simp] theorem distance_eq_zero {d : α} : units.distance d = 0 ↔ d = 0 := by
  unfold distance
  rw [mul_eq_zero]
  exact or_iff_right units.factor_pos.ne'

@[simp] theorem abs_distance (d : α) : |units.distance d| = units.distance |d| := by
  unfold distance
  rw [abs_mul, abs_of_pos units.factor_pos]

end Order

end Rescaling

end Library
