import StructurePulse.Library.Progress

/-!
# Queues that are served

A table of rows with increasing keys is worked off by anybody. A step changes rows in place,
lowers their weights and leaves a waiting row as it is unless its weight drops; new rows come
behind, with keys that were not in use. If whatever waits is served again and again, nothing
below a key that is in use waits for ever, however many rows come behind it.
-/

namespace Library
set_option autoImplicit false

/-- The columns of a queue; `label` is what no step changes. -/
structure Queue (ρ ι : Type*) where
  key : ρ → Nat
  label : ρ → ι
  weight : ρ → Nat
  waiting : ρ → Prop

section Steps
variable {ρ ι : Type*} (queue : Queue ρ ι)

/-- What a step may do to a row. -/
structure Eases (row next : ρ) : Prop where
  key : queue.key next = queue.key row
  label : queue.label next = queue.label row
  weight : queue.weight next ≤ queue.weight row
  waiting : queue.waiting row → next = row ∨ queue.weight next < queue.weight row

/-- What a step may do to the table, where keys from `fresh` on are not in use. -/
def Advances (fresh : Nat) (rows after : List ρ) : Prop :=
  ∃ (change : ρ → ρ) (more : List ρ), after = rows.map change ++ more ∧
    (∀ row ∈ rows, Eases queue row (change row)) ∧ ∀ row ∈ more, fresh ≤ queue.key row

def share (bound : Nat) (row : ρ) : Nat :=
  if queue.key row < bound then queue.weight row else 0

/-- What there is still to do on the rows below a key. -/
def load (bound : Nat) (rows : List ρ) : Nat := (rows.map (share queue bound)).sum

variable {queue}

theorem Eases.refl (row : ρ) : Eases queue row row := ⟨rfl, rfl, Nat.le_refl _, fun _ => Or.inl rfl⟩

theorem Eases.trans {row mid last : ρ} (h : Eases queue row mid) (h' : Eases queue mid last) :
    Eases queue row last := by
  refine ⟨h'.key.trans h.key, h'.label.trans h.label, h'.weight.trans h.weight, ?_⟩
  intro hwaiting
  rcases h.waiting hwaiting with heq | hlt
  · rw [heq] at h'
    exact h'.waiting hwaiting
  · exact Or.inr (lt_of_le_of_lt h'.weight hlt)

theorem Eases.share_le {row next : ρ} (h : Eases queue row next) (bound : Nat) :
    share queue bound next ≤ share queue bound row := by
  unfold share
  rw [h.key]
  split
  · exact h.weight
  · exact Nat.le_refl 0

theorem Advances.refl (fresh : Nat) (rows : List ρ) : Advances queue fresh rows rows :=
  ⟨id, [], by rw [List.map_id, List.append_nil], fun row _ => Eases.refl row,
    fun _ hrow => absurd hrow List.not_mem_nil⟩

theorem Advances.of_map {fresh : Nat} {rows : List ρ} {change : ρ → ρ}
    (h : ∀ row ∈ rows, Eases queue row (change row)) :
    Advances queue fresh rows (rows.map change) :=
  ⟨change, [], (List.append_nil _).symm, h, fun _ hrow => absurd hrow List.not_mem_nil⟩

theorem Advances.of_append {fresh : Nat} (rows : List ρ) {more : List ρ}
    (h : ∀ row ∈ more, fresh ≤ queue.key row) : Advances queue fresh rows (rows ++ more) :=
  ⟨id, more, by rw [List.map_id], fun row _ => Eases.refl row, h⟩

theorem Advances.trans {fresh later : Nat} {rows mid last : List ρ}
    (h : Advances queue fresh rows mid) (h' : Advances queue later mid last)
    (hfresh : fresh ≤ later) : Advances queue fresh rows last := by
  obtain ⟨change, more, rfl, hchange, hmore⟩ := h
  obtain ⟨change', more', rfl, hchange', hmore'⟩ := h'
  refine ⟨change' ∘ change, more.map change' ++ more', ?_, ?_, ?_⟩
  · rw [List.map_append, List.map_map, List.append_assoc]
  · intro row hrow
    apply (hchange row hrow).trans
    exact hchange' _ (List.mem_append_left _ (List.mem_map_of_mem hrow))
  · intro row hrow
    rcases List.mem_append.mp hrow with hold | hnew
    · obtain ⟨first, hfirst, rfl⟩ := List.mem_map.mp hold
      rw [(hchange' first (List.mem_append_right _ hfirst)).key]
      exact hmore first hfirst
    · exact hfresh.trans (hmore' row hnew)

/-- A row keeps its key and its label. -/
theorem Advances.image {fresh : Nat} {rows after : List ρ} (h : Advances queue fresh rows after)
    {row : ρ} (hrow : row ∈ rows) :
    ∃ next ∈ after, queue.key next = queue.key row ∧ queue.label next = queue.label row := by
  obtain ⟨change, more, rfl, hchange, -⟩ := h
  refine ⟨change row, List.mem_append_left _ (List.mem_map_of_mem hrow), ?_⟩
  exact ⟨(hchange row hrow).key, (hchange row hrow).label⟩

theorem load_append_fresh {fresh bound : Nat} (hbound : bound ≤ fresh) (rows : List ρ) {more : List ρ}
    (h : ∀ row ∈ more, fresh ≤ queue.key row) :
    load queue bound (rows ++ more) = load queue bound rows := by
  have hzero : (more.map (share queue bound)).sum = 0 := by
    apply List.sum_eq_zero
    intro amount hamount
    obtain ⟨row, hrow, rfl⟩ := List.mem_map.mp hamount
    have hfresh := h row hrow
    exact if_neg (by omega)
  unfold load
  rw [List.map_append, List.sum_append, hzero, Nat.add_zero]

theorem Advances.load_le {fresh bound : Nat} {rows after : List ρ}
    (h : Advances queue fresh rows after) (hbound : bound ≤ fresh) :
    load queue bound after ≤ load queue bound rows := by
  obtain ⟨change, more, rfl, hchange, hmore⟩ := h
  rw [load_append_fresh hbound _ hmore]
  unfold load
  rw [List.map_map]
  exact List.sum_le_sum fun row hrow => (hchange row hrow).share_le bound

/-- A row whose weight drops lowers the load. -/
theorem load_map_lt {bound : Nat} {rows : List ρ} {change : ρ → ρ}
    (h : ∀ row ∈ rows, Eases queue row (change row)) {row : ρ} (hrow : row ∈ rows)
    (hkey : queue.key row < bound) (hdrop : queue.weight (change row) < queue.weight row) :
    load queue bound (rows.map change) < load queue bound rows := by
  unfold load
  rw [List.map_map]
  have hle : ∀ other ∈ rows, (share queue bound ∘ change) other ≤ share queue bound other := by
    intro other hother
    exact (h other hother).share_le bound
  have hlt : (share queue bound ∘ change) row + 1 ≤ share queue bound row := by
    unfold share
    rw [Function.comp_apply, if_pos hkey, (h row hrow).key, if_pos hkey]
    exact hdrop
  have hsum := sum_map_add_le hrow hle hlt
  omega

/-- A waiting row is still there, as it was, if the load has not dropped. -/
theorem Advances.keeps_waiting {fresh bound : Nat} {rows after : List ρ}
    (h : Advances queue fresh rows after) (hbound : bound ≤ fresh) {row : ρ} (hrow : row ∈ rows)
    (hwaiting : queue.waiting row) (hkey : queue.key row < bound) :
    row ∈ after ∨ load queue bound after < load queue bound rows := by
  obtain ⟨change, more, rfl, hchange, hmore⟩ := h
  rcases (hchange row hrow).waiting hwaiting with heq | hlt
  · refine Or.inl (List.mem_append_left _ ?_)
    rw [← heq]
    exact List.mem_map_of_mem hrow
  · right
    rw [load_append_fresh hbound _ hmore]
    exact load_map_lt hchange hrow hkey hlt

end Steps

section Heads
variable {α : Type*} {r : α → α → Prop}

/-- Whatever stands in an ordered list, its first element comes before it. -/
theorem head_of_pairwise {l : List α} (h : l.Pairwise r) (hrefl : ∀ x, r x x) {x : α} (hx : x ∈ l) :
    ∃ first rest, l = first :: rest ∧ r first x := by
  cases l with
  | nil => exact absurd hx List.not_mem_nil
  | cons first rest =>
    refine ⟨first, rest, rfl, ?_⟩
    rcases List.mem_cons.mp hx with rfl | hrest
    · exact hrefl x
    · exact (List.pairwise_cons.mp h).1 x hrest

end Heads

section Runs
variable {ρ ι : Type*} {queue : Queue ρ ι} {tables : Nat → List ρ} {fresh : Nat → Nat}

/-- Many steps are one. -/
theorem advances_between (hsteps : ∀ n, Advances queue (fresh n) (tables n) (tables (n + 1)))
    (hfresh : ∀ n, fresh n ≤ fresh (n + 1)) {start stop : Nat} (hle : start ≤ stop) :
    Advances queue (fresh start) (tables start) (tables stop) := by
  induction stop, hle using Nat.le_induction with
  | base => exact Advances.refl _ _
  | succ stop hle ih => exact ih.trans (hsteps stop) (monotone_nat_of_le_succ hfresh hle)

/-- Where every waiting row is served in the end, the rows below a key stop waiting. -/
theorem eventually_served (hsteps : ∀ n, Advances queue (fresh n) (tables n) (tables (n + 1)))
    (hfresh : ∀ n, fresh n ≤ fresh (n + 1)) {bound : Nat}
    (hserved : ∀ n, bound ≤ fresh n → ∀ row ∈ tables n, queue.waiting row → queue.key row < bound →
      ∃ m ≥ n, row ∈ tables m →
        load queue bound (tables (m + 1)) < load queue bound (tables m))
    {start : Nat} (hbound : bound ≤ fresh start) :
    ∃ n ≥ start, ∀ m ≥ n, ∀ row ∈ tables m, queue.key row < bound → ¬ queue.waiting row := by
  induction hload : load queue bound (tables start) using Nat.strong_induction_on
    generalizing start with
  | _ amount ih =>
    have hinuse : ∀ m ≥ start, bound ≤ fresh m := by
      intro m hm
      exact hbound.trans (monotone_nat_of_le_succ hfresh hm)
    by_cases hdrop : ∃ m ≥ start, load queue bound (tables m) < amount
    · obtain ⟨m, hm, hlt⟩ := hdrop
      obtain ⟨n, hn, hdone⟩ := ih _ hlt (hinuse m hm) rfl
      exact ⟨n, hm.trans hn, hdone⟩
    · -- from here on the load stays, so that whatever waits is there when it is served
      have hstays : ∀ m ≥ start, load queue bound (tables m) = amount := by
        intro m hm
        have hle := (advances_between hsteps hfresh hm).load_le hbound
        have hnot : ¬ load queue bound (tables m) < amount := fun hlt => hdrop ⟨m, hm, hlt⟩
        omega
      refine ⟨start, Nat.le_refl start, ?_⟩
      intro m hm row hrow hkey hwaiting
      obtain ⟨later, hlater, hserves⟩ := hserved m (hinuse m hm) row hrow hwaiting hkey
      rcases (advances_between hsteps hfresh hlater).keeps_waiting (hinuse m hm) hrow hwaiting
        hkey with hthere | hlt
      · have hlt := hserves hthere
        rw [hstays later (hm.trans hlater), hstays (later + 1) (by omega)] at hlt
        exact lt_irrefl _ hlt
      · rw [hstays m hm, hstays later (hm.trans hlater)] at hlt
        exact lt_irrefl _ hlt

end Runs

end Library
