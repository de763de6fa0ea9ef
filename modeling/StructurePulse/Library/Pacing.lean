import Mathlib.Algebra.Order.Group.Defs
import Mathlib.Algebra.Order.Monoid.Defs
import Mathlib.Data.List.Chain

/-!
# Paced schedules

Instants of which each lies at least a gap after the one before it. A schedule bounds how many
of its instants fit before a bound, and with them whatever each waits for an instant of its own.
-/

namespace Library
set_option autoImplicit false

section Counts
variable {α : Type*} [LinearOrder α]

/-- The number of instants up to a bound. -/
def countUntil (slots : List α) (bound : α) : Nat := slots.countP fun slot => decide (slot ≤ bound)

@[simp] theorem countUntil_nil (bound : α) : countUntil [] bound = 0 := rfl

theorem countUntil_cons (slot : α) (slots : List α) (bound : α) :
    countUntil (slot :: slots) bound = countUntil slots bound + if slot ≤ bound then 1 else 0 := by
  unfold countUntil
  rw [List.countP_cons]
  by_cases h : slot ≤ bound
  · rw [if_pos h, if_pos (decide_eq_true h)]
  · rw [if_neg h, if_neg (by rw [decide_eq_false h]; exact Bool.false_ne_true)]

theorem countUntil_snoc (slots : List α) (slot bound : α) :
    countUntil (slots ++ [slot]) bound = countUntil slots bound + if slot ≤ bound then 1 else 0 := by
  induction slots with
  | nil => exact countUntil_cons slot [] bound
  | cons first slots ih =>
    rw [List.cons_append, countUntil_cons, countUntil_cons, ih]
    omega

theorem countUntil_eq_zero {slots : List α} {bound : α} (h : ∀ slot ∈ slots, ¬slot ≤ bound) :
    countUntil slots bound = 0 := by
  apply List.countP_eq_zero.mpr
  intro slot hslot hle
  exact h slot hslot (of_decide_eq_true hle)

end Counts

section Schedules
variable {α : Type*} [AddCommGroup α] [LinearOrder α] {gap : α} {slots : List α}

def Paced (gap : α) (slots : List α) : Prop :=
  slots.IsChain fun earlier later => earlier + gap ≤ later

theorem Paced.snoc (h : Paced gap slots) {slot : α}
    (hslot : ∀ earlier ∈ slots, earlier + gap ≤ slot) : Paced gap (slots ++ [slot]) := by
  apply List.IsChain.append h (List.isChain_singleton slot)
  intro earlier hearlier later hlater
  cases hlater
  exact hslot earlier (List.mem_of_getLast? hearlier)

end Schedules

section Counting
variable {α : Type*} [AddCommGroup α] [LinearOrder α] [IsOrderedAddMonoid α]
variable {gap first bound : α} {slots : List α}

/-- The first instant is the earliest. -/
theorem Paced.first_le (hgap : 0 ≤ gap) (h : Paced gap (first :: slots)) :
    ∀ slot ∈ slots, first ≤ slot := by
  induction slots generalizing first with
  | nil =>
    intro slot hslot
    cases hslot
  | cons second slots ih =>
    obtain ⟨hsecond, hrest⟩ := List.isChain_cons_cons.mp h
    have hle : first ≤ second := (le_add_of_nonneg_right hgap).trans hsecond
    intro slot hslot
    rcases List.mem_cons.mp hslot with rfl | hslot
    · exact hle
    · exact hle.trans (ih hrest slot hslot)

theorem Paced.none_until (hgap : 0 ≤ gap) (h : Paced gap (first :: slots)) (hfirst : ¬first ≤ bound) :
    countUntil (first :: slots) bound = 0 := by
  apply countUntil_eq_zero
  intro slot hslot hle
  rcases List.mem_cons.mp hslot with rfl | hslot
  · exact hfirst hle
  · exact hfirst ((h.first_le hgap slot hslot).trans hle)

/-- After the first instant there is a gap for each one up to the bound. -/
theorem Paced.countUntil_le (hgap : 0 ≤ gap) (h : Paced gap (first :: slots))
    (hfirst : first ≤ bound) : first + countUntil slots bound • gap ≤ bound := by
  induction slots generalizing first with
  | nil =>
    rw [countUntil_nil, zero_nsmul, add_zero]
    exact hfirst
  | cons second slots ih =>
    obtain ⟨hsecond, hrest⟩ := List.isChain_cons_cons.mp h
    by_cases hbound : second ≤ bound
    · calc first + countUntil (second :: slots) bound • gap
          = first + gap + countUntil slots bound • gap := by
            rw [countUntil_cons, if_pos hbound, succ_nsmul', add_assoc]
        _ ≤ second + countUntil slots bound • gap := add_le_add_left hsecond _
        _ ≤ bound := ih hrest hbound
    · rw [Paced.none_until hgap hrest hbound, zero_nsmul, add_zero]
      exact hfirst

/-- A schedule has at most one instant more than there are gaps between its start and the
bound. -/
theorem Paced.countUntil_le_of_start (hgap : 0 ≤ gap) {start : α} (h : Paced gap slots)
    (hstart : ∀ slot ∈ slots, start ≤ slot) (hbound : start ≤ bound) :
    start + (countUntil slots bound - 1) • gap ≤ bound := by
  cases slots with
  | nil =>
    rw [countUntil_nil, Nat.zero_sub, zero_nsmul, add_zero]
    exact hbound
  | cons first slots =>
    by_cases hfirst : first ≤ bound
    · rw [countUntil_cons, if_pos hfirst, Nat.add_sub_cancel]
      calc start + countUntil slots bound • gap ≤ first + countUntil slots bound • gap :=
            add_le_add_left (hstart first List.mem_cons_self) _
        _ ≤ bound := h.countUntil_le hgap hfirst
    · rw [h.none_until hgap hfirst, Nat.zero_sub, zero_nsmul, add_zero]
      exact hbound

end Counting

end Library
