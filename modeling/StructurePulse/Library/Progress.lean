import Mathlib

/-!
# Loops that run out of work

A loop whose every pass lowers a measure until it is zero is done after at most as many
passes as the measure says. `Good` is what a pass needs of the state and of the inputs of
the passes still to come.
-/

namespace Library
set_option autoImplicit false

section Exhaustion
variable {σ ω : Type*} {pass : σ → ω → σ} {Good : σ → List ω → Prop} {measure : σ → Nat}

theorem measure_foldl_le
    (hpass : ∀ state input rest, Good state (input :: rest) →
      Good (pass state input) rest ∧ measure (pass state input) ≤ measure state - 1)
    {inputs : List ω} {state : σ} (h : Good state inputs) :
    Good (inputs.foldl pass state) [] ∧
      measure (inputs.foldl pass state) ≤ measure state - inputs.length := by
  induction inputs generalizing state with
  | nil => exact ⟨h, Nat.le_refl _⟩
  | cons input inputs ih =>
    obtain ⟨hgood, hlower⟩ := hpass state input inputs h
    obtain ⟨hlast, hle⟩ := ih hgood
    refine ⟨hlast, hle.trans ?_⟩
    rw [List.length_cons]
    omega

/-- Enough passes bring the measure to zero. -/
theorem foldl_exhausts
    (hpass : ∀ state input rest, Good state (input :: rest) →
      Good (pass state input) rest ∧ measure (pass state input) ≤ measure state - 1)
    {inputs : List ω} {state : σ} (h : Good state inputs) (henough : measure state ≤ inputs.length) :
    Good (inputs.foldl pass state) [] ∧ measure (inputs.foldl pass state) = 0 := by
  obtain ⟨hgood, hle⟩ := measure_foldl_le hpass h
  refine ⟨hgood, ?_⟩
  omega

end Exhaustion

section Sums
variable {α : Type*} {f g : α → Nat}

/-- A sum drops by what one of its terms drops. -/
theorem sum_map_add_le {xs : List α} {x : α} {amount : Nat} (hx : x ∈ xs)
    (hle : ∀ y ∈ xs, f y ≤ g y) (hdrop : f x + amount ≤ g x) :
    (xs.map f).sum + amount ≤ (xs.map g).sum := by
  induction xs with
  | nil => cases hx
  | cons y ys ih =>
    simp only [List.map_cons, List.sum_cons]
    have hhead := hle y List.mem_cons_self
    have htail : ∀ z ∈ ys, f z ≤ g z := fun z hz => hle z (List.mem_cons_of_mem y hz)
    rcases List.mem_cons.mp hx with rfl | hmem
    · have hrest : (ys.map f).sum ≤ (ys.map g).sum := List.sum_le_sum htail
      omega
    · have hrest := ih hmem htail
      omega

theorem sum_map_le_length {xs : List α} (h : ∀ x, f x ≤ 1) : (xs.map f).sum ≤ xs.length := by
  induction xs with
  | nil => exact Nat.le_refl 0
  | cons x xs ih =>
    simp only [List.map_cons, List.sum_cons, List.length_cons]
    have hone := h x
    omega

end Sums

end Library
