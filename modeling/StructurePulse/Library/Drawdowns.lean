import Mathlib.Algebra.BigOperators.Group.List.Basic
import Mathlib.Algebra.Order.Group.Defs
import Mathlib.Order.Bounds.Basic
import Mathlib.Order.MinMax

/-!
# The levels and falls of a curve

A curve starts at a level and moves by a list of gains. A fall of it is a level less a later
one, or itself. One more gain adds one level and the falls to it.
-/

namespace Library
set_option autoImplicit false

section Levels
variable {α : Type*} [AddCommGroup α]

/-- The level after a number of gains. -/
def level (start : α) (gains : List α) (index : ℕ) : α := start + (gains.take index).sum

def levels (start : α) (gains : List α) : Set α :=
  {x | ∃ index ≤ gains.length, x = level start gains index}

def falls (start : α) (gains : List α) : Set α :=
  {x | ∃ later ≤ gains.length, ∃ earlier ≤ later,
    x = level start gains earlier - level start gains later}

variable {start : α} {gains : List α} {gain : α}

theorem level_append {index : ℕ} (h : index ≤ gains.length) :
    level start (gains ++ [gain]) index = level start gains index := by
  rw [level, List.take_append_of_le_length h, level]

theorem level_append_last :
    level start (gains ++ [gain]) (gains.length + 1) = start + gains.sum + gain := by
  rw [level, List.take_of_length_le (by simp), List.sum_append, List.sum_singleton, add_assoc]

end Levels

section Extremes
variable {α : Type*} [AddCommGroup α] [LinearOrder α] {start gain peak deepest : α} {gains : List α}

theorem isGreatest_levels_nil : IsGreatest (levels start []) start := by
  constructor
  · exact ⟨0, le_rfl, by simp [level]⟩
  · rintro x ⟨index, -, rfl⟩
    simp [level]

theorem isGreatest_falls_nil : IsGreatest (falls start []) 0 := by
  constructor
  · exact ⟨0, le_rfl, 0, le_rfl, (sub_self _).symm⟩
  · rintro x ⟨later, -, earlier, -, rfl⟩
    simp [level]

theorem isGreatest_levels_append (h : IsGreatest (levels start gains) peak) :
    IsGreatest (levels start (gains ++ [gain])) (max peak (start + gains.sum + gain)) := by
  have hlength : (gains ++ [gain]).length = gains.length + 1 := by simp
  constructor
  · rcases max_choice peak (start + gains.sum + gain) with heq | heq
    · obtain ⟨index, hindex, hlevel⟩ := h.1
      refine ⟨index, hlength ▸ Nat.le_succ_of_le hindex, ?_⟩
      rw [heq, level_append hindex, hlevel]
    · exact ⟨gains.length + 1, hlength.ge, by rw [heq, level_append_last]⟩
  · rintro x ⟨index, hindex, rfl⟩
    rw [hlength] at hindex
    rcases Nat.le_succ_iff.mp hindex with hold | rfl
    · rw [level_append hold]
      exact le_max_of_le_left (h.2 ⟨index, hold, rfl⟩)
    · rw [level_append_last]
      exact le_max_right _ _

variable [IsOrderedAddMonoid α]

/-- The deepest fall to the new level starts at the highest level. -/
theorem isGreatest_falls_append (h : IsGreatest (falls start gains) deepest)
    (hpeak : IsGreatest (levels start (gains ++ [gain])) peak) :
    IsGreatest (falls start (gains ++ [gain]))
      (max deepest (peak - (start + gains.sum + gain))) := by
  have hlength : (gains ++ [gain]).length = gains.length + 1 := by simp
  constructor
  · rcases max_choice deepest (peak - (start + gains.sum + gain)) with heq | heq
    · obtain ⟨later, hlater, earlier, hearlier, hfall⟩ := h.1
      refine ⟨later, hlength ▸ Nat.le_succ_of_le hlater, earlier, hearlier, ?_⟩
      rw [heq, level_append hlater, level_append (hearlier.trans hlater), hfall]
    · obtain ⟨index, hindex, hlevel⟩ := hpeak.1
      refine ⟨gains.length + 1, hlength.ge, index, hlength ▸ hindex, ?_⟩
      rw [heq, level_append_last, hlevel]
  · rintro x ⟨later, hlater, earlier, hearlier, rfl⟩
    rw [hlength] at hlater
    rcases Nat.le_succ_iff.mp hlater with hold | rfl
    · rw [level_append hold, level_append (hearlier.trans hold)]
      exact le_max_of_le_left (h.2 ⟨later, hold, earlier, hearlier, rfl⟩)
    · rw [level_append_last]
      exact le_max_of_le_right
        (sub_le_sub_right (hpeak.2 ⟨earlier, hlength ▸ hearlier, rfl⟩) _)

end Extremes

end Library
