import Mathlib.Algebra.Order.Group.Basic
import Mathlib.Data.List.Basic

/-!
# Rate limits over every window

A log of times is rate limited when each entry, at the moment it was added, had fewer
than `limit` earlier entries in the `width` before it. The times need not be added in
order. Then no window of that width, wherever it lies, holds more than `limit` entries.
-/

namespace Library
set_option autoImplicit false

variable {τ : Type*} [AddCommGroup τ] [LinearOrder τ]

inductive RateLimited (width : τ) (limit : ℕ) : List τ → Prop where
  | nil : RateLimited width limit []
  | snoc {log : List τ} {t : τ} : RateLimited width limit log →
      log.countP (fun s => decide (t - width < s)) < limit → RateLimited width limit (log ++ [t])

/-- A set of times that lie less than `width` apart holds at most `limit` entries:
its last entry already counted all the others. -/
theorem RateLimited.countP_le {width : τ} {limit : ℕ} {log : List τ}
    (h : RateLimited width limit log) {p : τ → Bool}
    (hp : ∀ s t, p s = true → p t = true → t - width < s) : log.countP p ≤ limit := by
  induction h with
  | nil => simp
  | @snoc log t _ hcount ih =>
    rw [List.countP_append, List.countP_singleton]
    split_ifs with ht
    · have hle : log.countP p ≤ log.countP fun s => decide (t - width < s) :=
        List.countP_mono_left fun s _ hs => decide_eq_true (hp s t hs ht)
      omega
    · exact ih

variable [IsOrderedAddMonoid τ]

theorem RateLimited.countP_Ioc_le {width : τ} {limit : ℕ} {log : List τ}
    (h : RateLimited width limit log) (start : τ) :
    log.countP (fun t => decide (start < t ∧ t ≤ start + width)) ≤ limit := by
  refine h.countP_le fun s t hs ht => ?_
  rw [decide_eq_true_eq] at hs ht
  exact lt_of_le_of_lt (sub_le_iff_le_add.mpr ht.2) hs.1

theorem RateLimited.countP_Ico_le {width : τ} {limit : ℕ} {log : List τ}
    (h : RateLimited width limit log) (start : τ) :
    log.countP (fun t => decide (start ≤ t ∧ t < start + width)) ≤ limit := by
  refine h.countP_le fun s t hs ht => ?_
  rw [decide_eq_true_eq] at hs ht
  exact lt_of_lt_of_le (sub_lt_iff_lt_add.mpr ht.2) hs.1

end Library
