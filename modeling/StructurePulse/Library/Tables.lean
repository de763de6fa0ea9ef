import Mathlib.Data.List.Nodup

/-!
# Tables with a key column

A table is a list of rows in insertion order; `key` reads the column rows are
looked up by. The lemmas say what an insert and an update change.
-/

namespace Library
set_option autoImplicit false

variable {ρ κ : Type*} [DecidableEq κ] (key : ρ → κ)

def lookup (rows : List ρ) (k : κ) : Option ρ := rows.find? fun row => key row = k

/-- The update of every row with the key of `row`. -/
def replaceRow (rows : List ρ) (row : ρ) : List ρ :=
  rows.map fun r => if key r = key row then row else r

variable {key}

theorem lookup_key {rows : List ρ} {k : κ} {row : ρ} (h : lookup key rows k = some row) :
    key row = k := by
  simpa using List.find?_some h

theorem lookup_mem {rows : List ρ} {k : κ} {row : ρ} (h : lookup key rows k = some row) :
    row ∈ rows := List.mem_of_find?_eq_some h

theorem lookup_eq_none {rows : List ρ} {k : κ} :
    lookup key rows k = none ↔ ∀ row ∈ rows, key row ≠ k := by
  simp [lookup]

/-- A filter that keeps the rows of a key does not change their lookup. -/
theorem lookup_filter_of_ne {p : ρ → Bool} {rows : List ρ} {k : κ}
    (h : ∀ row, key row = k → p row = true) : lookup key (rows.filter p) k = lookup key rows k := by
  unfold lookup
  rw [List.find?_filter]
  congr 1
  funext row
  by_cases hk : key row = k
  · simp [hk, h row hk]
  · simp [hk]

theorem lookup_append (rows : List ρ) (row : ρ) (k : κ) :
    lookup key (rows ++ [row]) k = (lookup key rows k).or (if key row = k then some row else none) := by
  unfold lookup
  rw [List.find?_append]
  by_cases h : key row = k <;> simp [h]

theorem lookup_append_of_some {rows more : List ρ} {row : ρ} {k : κ}
    (h : lookup key rows k = some row) : lookup key (rows ++ more) k = some row := by
  unfold lookup at h ⊢
  rw [List.find?_append, h]
  rfl

theorem lookup_append_of_ne {rows : List ρ} {row : ρ} {k : κ} (h : key row ≠ k) :
    lookup key (rows ++ [row]) k = lookup key rows k := by
  simp [lookup_append, h]

theorem lookup_append_self {rows : List ρ} {row : ρ} (h : ∀ r ∈ rows, key r ≠ key row) :
    lookup key (rows ++ [row]) (key row) = some row := by
  simp [lookup_append, lookup_eq_none.mpr h]

theorem lookup_replaceRow_of_ne {rows : List ρ} {row : ρ} {k : κ} (h : key row ≠ k) :
    lookup key (replaceRow key rows row) k = lookup key rows k := by
  induction rows with
  | nil => rfl
  | cons r rows ih =>
    simp only [lookup, replaceRow, List.map_cons, List.find?_cons] at ih ⊢
    by_cases hr : key r = key row
    · simp [hr, h, ih]
    · rw [if_neg hr]
      by_cases hk : key r = k <;> simp [hk, ih]

theorem lookup_replaceRow_self {rows : List ρ} {old row : ρ}
    (h : lookup key rows (key row) = some old) :
    lookup key (replaceRow key rows row) (key row) = some row := by
  induction rows with
  | nil => simp [lookup] at h
  | cons r rows ih =>
    simp only [lookup, replaceRow, List.map_cons, List.find?_cons] at h ih ⊢
    by_cases hr : key r = key row
    · simp [hr]
    · simp only [hr, decide_false, if_false] at h ⊢
      exact ih h

@[simp] theorem keys_replaceRow (rows : List ρ) (row : ρ) :
    (replaceRow key rows row).map key = rows.map key := by
  unfold replaceRow
  rw [List.map_map]
  refine List.map_congr_left fun r _ => ?_
  by_cases h : key r = key row <;> simp [h]

theorem mem_replaceRow {rows : List ρ} {row r : ρ} (h : r ∈ replaceRow key rows row) :
    r = row ∨ (r ∈ rows ∧ key r ≠ key row) := by
  obtain ⟨r', hr', heq⟩ := List.mem_map.mp h
  by_cases hk : key r' = key row
  · rw [if_pos hk] at heq
    exact Or.inl heq.symm
  · rw [if_neg hk] at heq
    exact Or.inr (heq ▸ ⟨hr', hk⟩)

theorem mem_replaceRow_of_ne {rows : List ρ} {row r : ρ} (hr : r ∈ rows) (hne : key r ≠ key row) :
    r ∈ replaceRow key rows row :=
  List.mem_map.mpr ⟨r, hr, if_neg hne⟩

omit [DecidableEq κ] in
theorem nodup_keys_append {rows : List ρ} {row : ρ} (hnodup : (rows.map key).Nodup)
    (hfree : ∀ r ∈ rows, key r ≠ key row) : ((rows ++ [row]).map key).Nodup := by
  rw [List.map_append, List.nodup_append]
  refine ⟨hnodup, List.nodup_singleton _, ?_⟩
  intro k hk l hl hkl
  obtain ⟨r, hr, rfl⟩ := List.mem_map.mp hk
  rw [List.map_singleton, List.mem_singleton] at hl
  exact hfree r hr (hkl.trans hl)

theorem forall_mem_append_singleton {P : ρ → Prop} {rows : List ρ} {row : ρ}
    (hrows : ∀ r ∈ rows, P r) (hrow : P row) : ∀ r ∈ rows ++ [row], P r := by
  intro r hr
  rcases List.mem_append.mp hr with hr | hr
  · exact hrows r hr
  · rwa [List.mem_singleton.mp hr]

theorem forall_mem_replaceRow {P : ρ → Prop} {rows : List ρ} {row : ρ}
    (hrows : ∀ r ∈ rows, P r) (hrow : P row) : ∀ r ∈ replaceRow key rows row, P r := by
  intro r hr
  rcases mem_replaceRow hr with rfl | ⟨hr, -⟩
  · exact hrow
  · exact hrows r hr

/-- When the key column has no duplicates, a lookup finds the row itself. -/
theorem lookup_of_mem {rows : List ρ} (hnodup : (rows.map key).Nodup) {row : ρ} (h : row ∈ rows) :
    lookup key rows (key row) = some row := by
  rcases hfound : lookup key rows (key row) with _ | found
  · exact absurd rfl (lookup_eq_none.mp hfound row h)
  · rw [List.inj_on_of_nodup_map hnodup (lookup_mem hfound) h (lookup_key hfound)]

section Upserts

/-- An insert that updates the row with the same key if there is one. -/
def upsertRow (key : ρ → κ) (rows : List ρ) (row : ρ) : List ρ :=
  if (lookup key rows (key row)).isSome then replaceRow key rows row else rows ++ [row]

theorem upsertRow_cases (key : ρ → κ) (rows : List ρ) (row : ρ) :
    (key row ∈ rows.map key ∧ upsertRow key rows row = replaceRow key rows row) ∨
      ((∀ r ∈ rows, key r ≠ key row) ∧ upsertRow key rows row = rows ++ [row]) := by
  unfold upsertRow
  rcases hfound : lookup key rows (key row) with _ | old
  · exact Or.inr ⟨lookup_eq_none.mp hfound, if_neg (by simp)⟩
  · refine Or.inl ⟨List.mem_map.mpr ⟨old, lookup_mem hfound, lookup_key hfound⟩, if_pos ?_⟩
    rfl

theorem mem_upsertRow {rows : List ρ} {row r : ρ} (h : r ∈ upsertRow key rows row) :
    r = row ∨ (r ∈ rows ∧ key r ≠ key row) := by
  rcases upsertRow_cases key rows row with ⟨-, heq⟩ | ⟨hfree, heq⟩
  · rw [heq] at h
    exact mem_replaceRow h
  · rw [heq] at h
    rcases List.mem_append.mp h with h | h
    · exact Or.inr ⟨h, hfree r h⟩
    · exact Or.inl (List.mem_singleton.mp h)

theorem nodup_keys_upsertRow {rows : List ρ} {row : ρ} (h : (rows.map key).Nodup) :
    ((upsertRow key rows row).map key).Nodup := by
  rcases upsertRow_cases key rows row with ⟨-, heq⟩ | ⟨hfree, heq⟩
  · rw [heq, keys_replaceRow]
    exact h
  · rw [heq]
    exact nodup_keys_append h hfree

theorem mem_keys_upsertRow {rows : List ρ} {row : ρ} {k : κ} :
    k ∈ (upsertRow key rows row).map key ↔ k ∈ rows.map key ∨ k = key row := by
  rcases upsertRow_cases key rows row with ⟨hmem, heq⟩ | ⟨-, heq⟩
  · rw [heq, keys_replaceRow]
    refine ⟨Or.inl, ?_⟩
    rintro (h | rfl)
    · exact h
    · exact hmem
  · rw [heq, List.map_append, List.mem_append, List.map_singleton, List.mem_singleton]

/-- The keys after a statement that upserts several rows. -/
theorem mem_keys_foldl_upsertRow {rows inserted : List ρ} {k : κ} :
    k ∈ (inserted.foldl (upsertRow key) rows).map key ↔ k ∈ rows.map key ∨ k ∈ inserted.map key := by
  induction inserted generalizing rows with
  | nil => simp
  | cons row inserted ih =>
    rw [List.foldl_cons, ih, mem_keys_upsertRow, List.map_cons, List.mem_cons, or_assoc]

theorem lookup_upsertRow_self (rows : List ρ) (row : ρ) :
    lookup key (upsertRow key rows row) (key row) = some row := by
  unfold upsertRow
  rcases hfound : lookup key rows (key row) with _ | old
  · rw [if_neg (by simp)]
    exact lookup_append_self (lookup_eq_none.mp hfound)
  · rw [if_pos (by simp)]
    exact lookup_replaceRow_self hfound

theorem lookup_upsertRow_of_ne {rows : List ρ} {row : ρ} {k : κ} (h : key row ≠ k) :
    lookup key (upsertRow key rows row) k = lookup key rows k := by
  rcases upsertRow_cases key rows row with ⟨-, heq⟩ | ⟨-, heq⟩
  · rw [heq]
    exact lookup_replaceRow_of_ne h
  · rw [heq]
    exact lookup_append_of_ne h

/-- A filter on the key does not see the change of a row it leaves out. -/
theorem filter_upsertRow_of_not {p : ρ → Bool} {rows : List ρ} {row : ρ}
    (h : ∀ r, key r = key row → p r = false) :
    (upsertRow key rows row).filter p = rows.filter p := by
  rcases upsertRow_cases key rows row with ⟨-, heq⟩ | ⟨-, heq⟩
  · rw [heq]
    unfold replaceRow
    rw [List.filter_map]
    clear heq
    induction rows with
    | nil => rfl
    | cons r rows ih =>
      by_cases hr : key r = key row
      · have hrow : (p ∘ fun r => if key r = key row then row else r) r = false := by
          rw [Function.comp_apply, if_pos hr]
          exact h row rfl
        rw [List.filter_cons_of_neg (by rw [hrow]; exact Bool.false_ne_true),
          List.filter_cons_of_neg (by rw [h r hr]; exact Bool.false_ne_true)]
        exact ih
      · have hsame : (p ∘ fun r => if key r = key row then row else r) r = p r := by
          rw [Function.comp_apply, if_neg hr]
        by_cases hp : p r = true
        · rw [List.filter_cons_of_pos (hsame.trans hp), List.filter_cons_of_pos hp, List.map_cons,
            if_neg hr, ih]
        · rw [List.filter_cons_of_neg (hsame ▸ hp), List.filter_cons_of_neg hp]
          exact ih
  · rw [heq, List.filter_append, List.filter_cons_of_neg (by rw [h row rfl]; exact Bool.false_ne_true),
      List.filter_nil, List.append_nil]

end Upserts

end Library
