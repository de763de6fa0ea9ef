import Mathlib.Data.List.Basic

/-!
# Lists that fall into parts

The elements whose key is one of several keys are, up to their order, the parts of the single
keys one after the other.
-/

namespace Library
set_option autoImplicit false

theorem filter_mem_perm_flatMap {α κ : Type*} [DecidableEq κ] (key : α → κ) {keys : List κ}
    (hnodup : keys.Nodup) (values : List α) :
    (values.filter fun x => decide (key x ∈ keys)).Perm
      (keys.flatMap fun k => values.filter fun x => decide (key x = k)) := by
  induction keys with
  | nil => simp
  | cons k keys ih =>
    obtain ⟨hnew, hrest⟩ := List.nodup_cons.mp hnodup
    have hsplit := (List.filter_append_perm (fun x => decide (key x = k))
      (values.filter fun x => decide (key x ∈ k :: keys))).symm
    rw [List.filter_filter, List.filter_filter] at hsplit
    have hfirst : (values.filter fun x => decide (key x = k) && decide (key x ∈ k :: keys)) =
        values.filter fun x => decide (key x = k) := by
      refine List.filter_congr fun x _ => ?_
      by_cases hk : key x = k
      · simp [hk]
      · simp [hk]
    have hothers : (values.filter fun x => !decide (key x = k) && decide (key x ∈ k :: keys)) =
        values.filter fun x => decide (key x ∈ keys) := by
      refine List.filter_congr fun x _ => ?_
      by_cases hk : key x = k
      · simp [hk, hnew]
      · simp [hk]
    rw [hfirst, hothers] at hsplit
    rw [List.flatMap_cons]
    exact hsplit.trans ((List.Perm.refl _).append (ih hrest))

/-- Of parts put one after the other, those of one key are the part of that key. -/
theorem filter_flatMap_parts {α κ : Type*} [DecidableEq κ] (key : α → κ) (part : κ → List α)
    (hpart : ∀ k, ∀ x ∈ part k, key x = k) {keys : List κ} (hnodup : keys.Nodup) (k : κ) :
    (keys.flatMap part).filter (fun x => decide (key x = k)) = if k ∈ keys then part k else [] := by
  induction keys with
  | nil => rfl
  | cons first keys ih =>
    obtain ⟨hnew, hrest⟩ := List.nodup_cons.mp hnodup
    rw [List.flatMap_cons, List.filter_append, ih hrest]
    by_cases hk : first = k
    · subst hk
      have hown : (part first).filter (fun x => decide (key x = first)) = part first :=
        List.filter_eq_self.mpr fun x hx => decide_eq_true (hpart first x hx)
      rw [hown, if_neg hnew, if_pos List.mem_cons_self, List.append_nil]
    · have hnone : (part first).filter (fun x => decide (key x = k)) = [] :=
        List.filter_eq_nil_iff.mpr fun x hx hown =>
          hk ((hpart first x hx).symm.trans (of_decide_eq_true hown))
      rw [hnone, List.nil_append]
      simp only [List.mem_cons, Ne.symm hk, false_or]

/-- What each piece yields can be read off the pieces. -/
theorem map_eq_map_of_some {α β γ : Type*} {f : α → Option β} {g : α → γ} {h : β → γ}
    {pieces : List α} {parts : List β} (hparts : pieces.map f = parts.map some)
    (hyield : ∀ piece part, f piece = some part → g piece = h part) :
    pieces.map g = parts.map h := by
  induction pieces generalizing parts with
  | nil =>
    rw [List.map_nil, eq_comm, List.map_eq_nil_iff] at hparts
    rw [hparts]
    rfl
  | cons piece pieces ih =>
    cases parts with
    | nil => cases hparts
    | cons part parts =>
      rw [List.map_cons, List.map_cons, List.cons.injEq] at hparts
      rw [List.map_cons, List.map_cons, hyield piece part hparts.1, ih hparts.2]

end Library
