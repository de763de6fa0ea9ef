import StructurePulse.Library.OrderedLists

/-!
# The first entries by a key

`ORDER BY key LIMIT n`: the sorted list and its front part. The key of the first entry
depends on the set of keys only, and what is left out comes after what is taken.
-/

namespace Library
set_option autoImplicit false

variable {α κ : Type*} [LinearOrder κ] {key : α → κ}

theorem sortedBy_head {values : List α} {first : α} (h : (sortedBy key values).head? = some first) :
    first ∈ values ∧ ∀ x ∈ values, key first ≤ key x := by
  obtain ⟨rest, hrest⟩ := List.head?_eq_some_iff.mp h
  have hsorted := sortedBy_pairwise key values
  rw [hrest] at hsorted
  constructor
  · rw [← @mem_sortedBy _ _ _ key, hrest]
    exact List.mem_cons_self
  · intro x hx
    rw [← @mem_sortedBy _ _ _ key, hrest] at hx
    rcases List.mem_cons.mp hx with rfl | hmem
    · exact le_refl _
    · exact (List.pairwise_cons.mp hsorted).1 x hmem

theorem sortedBy_head_eq_none {values : List α} :
    (sortedBy key values).head? = none ↔ values = [] := by
  rw [List.head?_eq_none_iff]
  constructor
  · intro h
    exact List.eq_nil_of_length_eq_zero ((@sortedBy_perm _ _ _ key values).length_eq ▸ h ▸ rfl)
  · rintro rfl
    rfl

/-- Lists with the same keys have the same first key. -/
theorem sortedBy_head_congr {xs ys : List α} (h : ∀ k, k ∈ xs.map key ↔ k ∈ ys.map key) :
    (sortedBy key xs).head?.map key = (sortedBy key ys).head?.map key := by
  have hmem : ∀ {as bs : List α} {a b : α}, (∀ k, k ∈ as.map key ↔ k ∈ bs.map key) → a ∈ as →
      (∀ x ∈ bs, key b ≤ key x) → key b ≤ key a := by
    intro as bs a b hkeys ha hleast
    obtain ⟨other, hother, hsame⟩ := List.mem_map.mp ((hkeys _).mp (List.mem_map.mpr ⟨a, ha, rfl⟩))
    rw [← hsame]
    exact hleast other hother
  rcases hx : (sortedBy key xs).head? with _ | x
  · rw [sortedBy_head_eq_none] at hx
    rcases hy : (sortedBy key ys).head? with _ | y
    · rfl
    · have hin := (h (key y)).mpr (List.mem_map.mpr ⟨y, (sortedBy_head hy).1, rfl⟩)
      rw [hx] at hin
      cases hin
  · obtain ⟨hxmem, hxleast⟩ := sortedBy_head hx
    rcases hy : (sortedBy key ys).head? with _ | y
    · rw [sortedBy_head_eq_none] at hy
      have hin := (h (key x)).mp (List.mem_map.mpr ⟨x, hxmem, rfl⟩)
      rw [hy] at hin
      cases hin
    · obtain ⟨hymem, hyleast⟩ := sortedBy_head hy
      have hle := hmem h hxmem hyleast
      have hge := hmem (fun k => (h k).symm) hymem hxleast
      exact congrArg some (le_antisymm hge hle)

end Library
