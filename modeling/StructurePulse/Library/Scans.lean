import Mathlib.Data.List.Basic
import Mathlib.Data.List.Forall2
import Mathlib.Data.List.Range

/-!
# Loops over an enumerated list that emit events

`emit` is a loop over `enumerate(xs)` that keeps a state and appends events. When each
event carries the index it was emitted at, running the loop on a prefix of the list
gives the events with an index in the prefix.
-/

namespace Library
set_option autoImplicit false

variable {α β σ : Type*}

/-- The loop from a given index on. -/
def emitFrom (step : σ → α → Nat → σ × List β) : Nat → σ → List α → List β
  | _, _, [] => []
  | index, state, x :: xs =>
    (step state x index).2 ++ emitFrom step (index + 1) (step state x index).1 xs

abbrev emit (step : σ → α → Nat → σ × List β) (state : σ) (xs : List α) : List β :=
  emitFrom step 0 state xs

/-- The events a step emits carry its index. -/
def Indexed (index : β → Nat) (step : σ → α → Nat → σ × List β) : Prop :=
  ∀ state x i, ∀ event ∈ (step state x i).2, index event = i

section Prefix
variable {step : σ → α → Nat → σ × List β} {index : β → Nat}

theorem index_mem_emitFrom (h : Indexed index step) (xs : List α) (k : Nat) (state : σ) :
    ∀ event ∈ emitFrom step k state xs, k ≤ index event ∧ index event < k + xs.length := by
  induction xs generalizing k state with
  | nil => exact fun event hevent => absurd hevent List.not_mem_nil
  | cons x xs ih =>
    intro event hevent
    rw [List.length_cons]
    rcases List.mem_append.mp hevent with hnow | hlater
    · have hindex := h state x k event hnow
      omega
    · have hbounds := ih (k + 1) _ event hlater
      omega

/-- A relation that each step keeps among its own events, and that holds between events of
different indices, holds along all events. -/
theorem pairwise_emitFrom_of_steps (h : Indexed index step) {R : β → β → Prop}
    (hstep : ∀ state x i, (step state x i).2.Pairwise R)
    (hlater : ∀ a b, index a < index b → R a b) (xs : List α) (k : Nat) (state : σ) :
    (emitFrom step k state xs).Pairwise R := by
  induction xs generalizing k state with
  | nil => exact List.Pairwise.nil
  | cons x xs ih =>
    refine List.pairwise_append.mpr ⟨hstep state x k, ih (k + 1) _, fun a ha b hb => hlater a b ?_⟩
    have hindex := h state x k a ha
    have hbounds := index_mem_emitFrom h xs (k + 1) _ b hb
    omega

/-- The events come in the order of their indices. -/
theorem pairwise_emitFrom (h : Indexed index step) (xs : List α) (k : Nat) (state : σ) :
    (emitFrom step k state xs).Pairwise fun a b => index a ≤ index b := by
  refine pairwise_emitFrom_of_steps h (fun state x i => ?_) (fun a b => Nat.le_of_lt) xs k state
  refine List.pairwise_of_forall_mem_list fun a ha b hb => ?_
  rw [h state x i a ha, h state x i b hb]

theorem emitFrom_take (h : Indexed index step) (xs : List α) (n k : Nat) (state : σ) :
    emitFrom step k state (xs.take n) =
      (emitFrom step k state xs).filter fun event => decide (index event < k + n) := by
  induction xs generalizing n k state with
  | nil => rw [List.take_nil]; rfl
  | cons x xs ih =>
    cases n with
    | zero =>
      refine (List.filter_eq_nil_iff.mpr fun event hevent => ?_).symm
      have hbounds := index_mem_emitFrom h (x :: xs) k state event hevent
      rw [decide_eq_true_eq]
      omega
    | succ n =>
      have hnow : (step state x k).2.filter (fun event => decide (index event < k + (n + 1))) =
          (step state x k).2 := by
        refine List.filter_eq_self.mpr fun event hevent => ?_
        have hindex := h state x k event hevent
        rw [decide_eq_true_eq]
        omega
      rw [List.take_succ_cons, emitFrom, emitFrom, List.filter_append, hnow, ih,
        Nat.add_right_comm k 1 n, Nat.add_assoc k n 1]

theorem emit_take (h : Indexed index step) (xs : List α) (n : Nat) (state : σ) :
    emit step state (xs.take n) = (emit step state xs).filter fun event => decide (index event < n) := by
  have htake := emitFrom_take h xs n 0 state
  rw [Nat.zero_add] at htake
  exact htake

/-- Only what the steps do at the indices of the list matters. -/
theorem emitFrom_congr {step' : σ → α → Nat → σ × List β} {xs : List α} {k : Nat} {state : σ}
    (h : ∀ state x i, k ≤ i → i < k + xs.length → step state x i = step' state x i) :
    emitFrom step k state xs = emitFrom step' k state xs := by
  induction xs generalizing k state with
  | nil => rfl
  | cons x xs ih =>
    rw [List.length_cons] at h
    rw [emitFrom, emitFrom, h state x k (le_refl k) (by omega)]
    rw [ih fun state y i hlow hhigh => h state y i (by omega) (by omega)]

end Prefix

section Events
variable {step : σ → α → Nat → σ × List β}

/-- What every event of a step knows about its element and index. -/
theorem of_mem_emitFrom {D : Nat → α → β → Prop}
    (h : ∀ state x i, ∀ event ∈ (step state x i).2, D i x event) (xs : List α) (k : Nat)
    (state : σ) :
    ∀ event ∈ emitFrom step k state xs, ∃ i x, xs[i]? = some x ∧ D (k + i) x event := by
  induction xs generalizing k state with
  | nil => exact fun event hevent => absurd hevent List.not_mem_nil
  | cons x xs ih =>
    intro event hevent
    rcases List.mem_append.mp hevent with hnow | hlater
    · exact ⟨0, x, rfl, h state x k event hnow⟩
    · obtain ⟨i, y, hget, hd⟩ := ih (k + 1) _ event hlater
      rw [Nat.add_right_comm, Nat.add_assoc] at hd
      exact ⟨i + 1, y, hget, hd⟩

/-- A loop emits an event of a kind exactly at the elements at which a step from an invariant
state emits one. -/
theorem exists_mem_emitFrom_iff (Inv : Nat → σ → Prop) {Q : β → Prop} {P : Nat → α → Prop}
    {xs : List α} {k : Nat} {state : σ} (hstart : Inv k state)
    (hnext : ∀ i x state, xs[i]? = some x → Inv (k + i) state → Inv (k + i + 1) (step state x (k + i)).1)
    (hnow : ∀ i x state, xs[i]? = some x → Inv (k + i) state →
      ((∃ event ∈ (step state x (k + i)).2, Q event) ↔ P (k + i) x)) :
    (∃ event ∈ emitFrom step k state xs, Q event) ↔ ∃ i x, xs[i]? = some x ∧ P (k + i) x := by
  induction xs generalizing k state with
  | nil =>
    constructor
    · rintro ⟨event, hevent, -⟩
      exact absurd hevent List.not_mem_nil
    · rintro ⟨i, x, hget, -⟩
      cases hget
  | cons x xs ih =>
    have hrest := ih (hnext 0 x state rfl hstart)
      (fun i y s hget hs => by
        have hstep := hnext (i + 1) y s hget
        rw [← Nat.add_assoc, Nat.add_right_comm k i 1] at hstep
        exact hstep hs)
      (fun i y s hget hs => by
        have hstep := hnow (i + 1) y s hget
        rw [← Nat.add_assoc, Nat.add_right_comm k i 1] at hstep
        exact hstep hs)
    have hfirst := hnow 0 x state rfl hstart
    constructor
    · rintro ⟨event, hevent, hq⟩
      rcases List.mem_append.mp hevent with hmem | hmem
      · exact ⟨0, x, rfl, hfirst.mp ⟨event, hmem, hq⟩⟩
      · obtain ⟨i, y, hget, hp⟩ := hrest.mp ⟨event, hmem, hq⟩
        rw [Nat.add_right_comm, Nat.add_assoc] at hp
        exact ⟨i + 1, y, hget, hp⟩
    · rintro ⟨i, y, hget, hp⟩
      cases i with
      | zero =>
        cases hget
        obtain ⟨event, hmem, hq⟩ := hfirst.mpr hp
        exact ⟨event, List.mem_append_left _ hmem, hq⟩
      | succ i =>
        rw [← Nat.add_assoc, Nat.add_right_comm] at hp
        obtain ⟨event, hmem, hq⟩ := hrest.mpr ⟨i, y, hget, hp⟩
        exact ⟨event, List.mem_append_right _ hmem, hq⟩

end Events

section Lockstep
variable {α' β' γ σ' : Type*} {step : σ → α → Nat → σ × List β}
variable {step' : σ' → α' → Nat → σ' × List β'}

/-- Two loops whose states stay related show the same, through any view that turns
appended events into appended views. -/
theorem emitFrom_lockstep (R : Nat → σ → σ' → Prop) (view : List β → List γ)
    (view' : List β' → List γ) (hview : ∀ l m, view (l ++ m) = view l ++ view m)
    (hview' : ∀ l m, view' (l ++ m) = view' l ++ view' m) (hnil : view [] = view' []) (f : α → α')
    {xs : List α} {k : Nat} {state : σ} {state' : σ'} (hR : R k state state')
    (hstep : ∀ i x state state', xs[i]? = some x → R (k + i) state state' →
      view (step state x (k + i)).2 = view' (step' state' (f x) (k + i)).2 ∧
      R (k + i + 1) (step state x (k + i)).1 (step' state' (f x) (k + i)).1) :
    view (emitFrom step k state xs) = view' (emitFrom step' k state' (xs.map f)) := by
  induction xs generalizing k state state' with
  | nil => exact hnil
  | cons x xs ih =>
    obtain ⟨hsame, hnext⟩ := hstep 0 x state state' rfl hR
    rw [List.map_cons, emitFrom, emitFrom, hview, hview', show k = k + 0 from rfl, hsame]
    congr 1
    refine ih hnext fun i y s s' hget hrel => ?_
    have hlater := hstep (i + 1) y s s' hget
    rw [← Nat.add_assoc, Nat.add_right_comm k i 1] at hlater
    exact hlater hrel

end Lockstep

section Ranges

theorem filter_range' (a m n : Nat) :
    (List.range' a m).filter (fun i => decide (i < n)) = List.range' a (min m (n - a)) := by
  induction m generalizing a with
  | zero => rw [Nat.zero_min]; rfl
  | succ m ih =>
    rw [List.range'_succ]
    by_cases h : a < n
    · have hmin : min (m + 1) (n - a) = min m (n - (a + 1)) + 1 := by omega
      rw [List.filter_cons_of_pos (by simpa using h), ih, hmin, List.range'_succ]
    · have hmin : min (m + 1) (n - a) = 0 := by omega
      have hrest : min m (n - (a + 1)) = 0 := by omega
      rw [List.filter_cons_of_neg (by simpa using h), ih, hmin, hrest]
      rfl

theorem filter_flatMap_index {index : β → Nat} {f : Nat → List β}
    (h : ∀ i, ∀ event ∈ f i, index event = i) (l : List Nat) (n : Nat) :
    (l.flatMap f).filter (fun event => decide (index event < n)) =
      (l.filter fun i => decide (i < n)).flatMap f := by
  induction l with
  | nil => rfl
  | cons i l ih =>
    rw [List.flatMap_cons, List.filter_append, ih]
    by_cases hi : i < n
    · rw [List.filter_cons_of_pos (by simpa using hi), List.flatMap_cons]
      congr 1
      refine List.filter_eq_self.mpr fun event hevent => ?_
      rw [h i event hevent]
      exact decide_eq_true hi
    · rw [List.filter_cons_of_neg (by simpa using hi)]
      have hnone : (f i).filter (fun event => decide (index event < n)) = [] := by
        refine List.filter_eq_nil_iff.mpr fun event hevent => ?_
        rw [h i event hevent]
        simpa using hi
      rw [hnone, List.nil_append]

theorem forall₂_flatMap {γ : Type*} {R : β → γ → Prop} {f : Nat → List β} {g : Nat → List γ}
    {l : List Nat} (h : ∀ i ∈ l, List.Forall₂ R (f i) (g i)) :
    List.Forall₂ R (l.flatMap f) (l.flatMap g) := by
  induction l with
  | nil => exact List.Forall₂.nil
  | cons i l ih =>
    rw [List.flatMap_cons, List.flatMap_cons]
    exact List.rel_append (h i List.mem_cons_self) (ih fun j hj => h j (List.mem_cons_of_mem i hj))

/-- A loop skips what it does nothing on. -/
theorem flatMap_filter_of_nil {f : α → List β} {p : α → Bool} {l : List α}
    (h : ∀ x ∈ l, p x = false → f x = []) : (l.filter p).flatMap f = l.flatMap f := by
  induction l with
  | nil => rfl
  | cons x l ih =>
    have hrest := ih fun y hy => h y (List.mem_cons_of_mem x hy)
    cases hp : p x with
    | true => rw [List.filter_cons_of_pos hp, List.flatMap_cons, List.flatMap_cons, hrest]
    | false =>
      rw [List.filter_cons_of_neg (by simp [hp]), List.flatMap_cons, h x List.mem_cons_self hp,
        List.nil_append, hrest]

end Ranges

end Library
