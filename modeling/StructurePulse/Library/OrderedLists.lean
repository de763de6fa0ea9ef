import Mathlib.Data.List.Sort
import Mathlib.Order.Bounds.Basic
import Mathlib.Order.MinMax

/-!
# Strictly ordered lists, their segments, and dictionaries of them

A stream with a strict total order on its elements is a list `l` with
`l.Pairwise r`. A page of the stream is an infix of it. Merging pages through a
dictionary and sorting the values gives back a filter of the stream. Running maxima and
minima of a list are its extremes.
-/

namespace Library
set_option autoImplicit false

variable {α κ : Type*}

section Segments
variable {r : α → α → Prop}

/-- An element of the stream is on a page of it, before the page or after it. -/
theorem infix_trichotomy {l s : List α} (hl : l.Pairwise r) (hs : s <:+: l) {x : α} (hx : x ∈ l) :
    x ∈ s ∨ (∀ y ∈ s, r x y) ∨ (∀ y ∈ s, r y x) := by
  obtain ⟨before, after, rfl⟩ := hs
  rw [List.pairwise_append, List.pairwise_append] at hl
  obtain ⟨⟨_, _, hbefore⟩, _, hafter⟩ := hl
  rcases List.mem_append.mp hx with h | h
  · rcases List.mem_append.mp h with h | h
    · exact Or.inr (Or.inl (hbefore x h))
    · exact Or.inl h
  · exact Or.inr (Or.inr fun y hy => hafter y (List.mem_append_right _ hy) x h)

/-- Of two elements of the stream, the order decides which comes first. -/
theorem pairwise_trichotomy {l : List α} (hl : l.Pairwise r) {x y : α} (hx : x ∈ l) (hy : y ∈ l) :
    x = y ∨ r x y ∨ r y x := by
  induction hl with
  | nil => cases hx
  | cons hhead _ ih =>
    rcases List.mem_cons.mp hx with hx | hx
    · rcases List.mem_cons.mp hy with hy | hy
      · exact Or.inl (hx.trans hy.symm)
      · exact Or.inr (Or.inl (hx ▸ hhead y hy))
    · rcases List.mem_cons.mp hy with hy | hy
      · exact Or.inr (Or.inr (hy ▸ hhead x hx))
      · exact ih hx hy

/-- Where a filter keeps a prefix, it keeps the pairs of neighbours that end in it. -/
theorem zip_tail_filter {l : List α} {p : α → Bool} (h : l.Pairwise fun x y => p y = true → p x = true) :
    (l.filter p).zip (l.filter p).tail = (l.zip l.tail).filter fun pair => p pair.2 := by
  induction l with
  | nil => rfl
  | cons x l ih =>
    obtain ⟨hx, hl⟩ := List.pairwise_cons.mp h
    cases l with
    | nil => cases hp : p x <;> simp [hp]
    | cons y l =>
      have hrest := ih hl
      rw [List.tail_cons] at hrest ⊢
      rw [List.zip_cons_cons]
      cases hy : p y with
      | true =>
        rw [List.filter_cons_of_pos (hx y List.mem_cons_self hy), List.tail_cons,
          List.filter_cons_of_pos hy, List.filter_cons_of_pos (by simpa using hy), ← hrest,
          List.filter_cons_of_pos hy, List.tail_cons, List.zip_cons_cons]
      | false =>
        -- nothing after the first dropped element is kept
        have hnone : (y :: l).filter p = [] := by
          refine List.filter_eq_nil_iff.mpr fun z hz hpz => ?_
          rcases List.mem_cons.mp hz with rfl | hz
          · rw [hy] at hpz
            cases hpz
          · have hback := (List.pairwise_cons.mp hl).1 z hz hpz
            rw [hy] at hback
            cases hback
        rw [hnone] at hrest
        have hright : ((x, y) :: (y :: l).zip l).filter (fun pair => p pair.2) = [] := by
          rw [List.filter_cons, if_neg (by simp [hy])]
          exact hrest.symm
        rw [hright, List.filter_cons, hnone]
        cases p x <;> rfl

/-- A partial map that keeps what the filter reads commutes with it. -/
theorem filterMap_filter_of_eq {β : Type*} {l : List α} {p : α → Bool} {q : β → Bool}
    {f g : α → Option β} (hsame : ∀ x ∈ l, p x = true → f x = g x)
    (hview : ∀ x ∈ l, ∀ y, g x = some y → q y = p x) :
    (l.filter p).filterMap f = (l.filterMap g).filter q := by
  induction l with
  | nil => rfl
  | cons x l ih =>
    have hrest := ih (fun z hz => hsame z (List.mem_cons_of_mem x hz))
      fun z hz => hview z (List.mem_cons_of_mem x hz)
    cases hp : p x with
    | true =>
      rw [List.filter_cons_of_pos hp, List.filterMap_cons, List.filterMap_cons,
        hsame x List.mem_cons_self hp]
      cases hg : g x with
      | none => exact hrest
      | some y =>
        simp only
        rw [List.filter_cons_of_pos ((hview x List.mem_cons_self y hg).trans hp), hrest]
    | false =>
      rw [List.filter_cons_of_neg (by simp [hp]), List.filterMap_cons, hrest]
      cases hg : g x with
      | none => rfl
      | some y =>
        simp only
        rw [List.filter_cons_of_neg (by rw [hview x List.mem_cons_self y hg, hp]; simp)]

/-- Where a filter keeps a prefix, it is the prefix. -/
theorem takeWhile_eq_filter {l : List α} {p : α → Bool}
    (h : l.Pairwise fun x y => p y = true → p x = true) : l.takeWhile p = l.filter p := by
  induction h with
  | nil => rfl
  | @cons x l hx _ ih =>
    cases hp : p x with
    | true => rw [List.takeWhile_cons_of_pos hp, List.filter_cons_of_pos hp, ih]
    | false =>
      rw [List.takeWhile_cons_of_neg (by simp [hp]), List.filter_cons_of_neg (by simp [hp])]
      refine (List.filter_eq_nil_iff.mpr fun y hy hpy => ?_).symm
      rw [hx y hy hpy] at hp
      cases hp

/-- Where a filter keeps a prefix, the rest follows it. -/
theorem filter_append_filter_not {l : List α} {p : α → Bool}
    (h : l.Pairwise fun x y => p y = true → p x = true) :
    l.filter p ++ l.filter (fun x => !p x) = l := by
  have hnot : l.dropWhile p = l.filter fun x => !p x := by
    induction h with
    | nil => rfl
    | @cons x l hx _ ih =>
      cases hp : p x with
      | true => rw [List.dropWhile_cons_of_pos hp, List.filter_cons_of_neg (by simp [hp]), ih]
      | false =>
        rw [List.dropWhile_cons_of_neg (by simp [hp])]
        refine (List.filter_eq_self.mpr fun y hy => ?_).symm
        rcases List.mem_cons.mp hy with rfl | hy
        · rw [hp, Bool.not_false]
        · rw [Bool.not_eq_true', ← Bool.not_eq_true]
          intro hpy
          rw [hx y hy hpy] at hp
          cases hp
  rw [← takeWhile_eq_filter h, ← hnot, List.takeWhile_append_dropWhile]

theorem filter_eq_filter_iff {l : List α} {p q : α → Bool} :
    l.filter p = l.filter q ↔ ∀ x ∈ l, p x = q x := by
  refine ⟨fun h x hx => ?_, List.filter_congr⟩
  have hmem : x ∈ l.filter p ↔ x ∈ l.filter q := by rw [h]
  rw [List.mem_filter, List.mem_filter] at hmem
  exact Bool.eq_iff_iff.mpr ⟨fun hp => (hmem.mp ⟨hx, hp⟩).2, fun hq => (hmem.mpr ⟨hx, hq⟩).2⟩

/-- Where nothing is lost, a partial map and `drop` commute. -/
theorem filterMap_drop {β : Type*} {f : α → Option β} {values : List α}
    (h : ∀ x ∈ values, (f x).isSome = true) (n : Nat) :
    (values.drop n).filterMap f = (values.filterMap f).drop n := by
  induction values generalizing n with
  | nil => simp
  | cons x values ih =>
    cases n with
    | zero => rfl
    | succ n =>
      obtain ⟨y, hy⟩ := Option.isSome_iff_exists.mp (h x List.mem_cons_self)
      rw [List.drop_succ_cons, List.filterMap_cons_some hy, List.drop_succ_cons]
      exact ih (fun z hz => h z (List.mem_cons_of_mem x hz)) n

end Segments

section Sorting
variable [LinearOrder κ] {key : α → κ}

/-- `sorted(values, key=key)`. -/
def sortedBy (key : α → κ) (values : List α) : List α :=
  values.insertionSort fun x y => key x ≤ key y

@[simp] theorem mem_sortedBy {values : List α} {x : α} : x ∈ sortedBy key values ↔ x ∈ values :=
  List.mem_insertionSort _

theorem sortedBy_perm (values : List α) : (sortedBy key values).Perm values :=
  List.perm_insertionSort _ _

theorem sortedBy_pairwise (key : α → κ) (values : List α) :
    (sortedBy key values).Pairwise fun x y => key x ≤ key y := by
  have : Std.Total fun x y : α => key x ≤ key y := ⟨fun x y => le_total _ _⟩
  have : IsTrans α fun x y => key x ≤ key y := ⟨fun _ _ _ => le_trans⟩
  exact List.pairwise_insertionSort _ _

theorem filter_orderedInsert (r : α → α → Prop) [DecidableRel r] [IsTrans α r] {values : List α}
    (hsorted : values.Pairwise r) (p : α → Bool) (a : α) :
    (values.orderedInsert r a).filter p =
      if p a then (values.filter p).orderedInsert r a else values.filter p := by
  induction values with
  | nil => cases hp : p a <;> simp [hp]
  | cons b values ih =>
    obtain ⟨hb, hrest⟩ := List.pairwise_cons.mp hsorted
    by_cases hab : r a b
    · rw [List.orderedInsert_cons_of_le _ _ hab]
      cases hp : p a with
      | false => rw [List.filter_cons_of_neg (by simp [hp])]; rfl
      | true =>
        rw [List.filter_cons_of_pos hp, if_pos rfl]
        -- what is left of the list starts with an element no smaller
        cases hl : (b :: values).filter p with
        | nil => rfl
        | cons c l =>
          have hc : c ∈ b :: values := (List.mem_filter.mp (hl ▸ List.mem_cons_self)).1
          have hac : r a c := by
            rcases List.mem_cons.mp hc with rfl | hc
            · exact hab
            · exact IsTrans.trans _ _ _ hab (hb c hc)
          rw [List.orderedInsert_cons_of_le _ _ hac]
    · rw [List.orderedInsert_of_not_le _ _ hab]
      cases hp : p b with
      | false =>
        rw [List.filter_cons_of_neg (by simp [hp]), List.filter_cons_of_neg (by simp [hp]), ih hrest]
      | true =>
        rw [List.filter_cons_of_pos hp, List.filter_cons_of_pos hp, ih hrest]
        split_ifs
        · rw [List.orderedInsert_of_not_le _ _ hab]
        · rfl

/-- A stable sort commutes with a filter. -/
theorem sortedBy_filter (key : α → κ) (p : α → Bool) (values : List α) :
    sortedBy key (values.filter p) = (sortedBy key values).filter p := by
  have htrans : IsTrans α fun x y => key x ≤ key y := ⟨fun _ _ _ => le_trans⟩
  induction values with
  | nil => rfl
  | cons a values ih =>
    have hinsert := filter_orderedInsert _ (sortedBy_pairwise key values) p a
    have hcons : sortedBy key (a :: values) =
        (sortedBy key values).orderedInsert (fun x y => key x ≤ key y) a := rfl
    rw [hcons, hinsert, ← ih]
    cases hp : p a with
    | false => rw [List.filter_cons_of_neg (by simp [hp])]; rfl
    | true => rw [List.filter_cons_of_pos hp]; rfl

/-- Sorting does not change what is sorted. -/
theorem sortedBy_of_pairwise {values : List α} (h : values.Pairwise fun x y => key x ≤ key y) :
    sortedBy key values = values :=
  h.insertionSort_eq

theorem orderedInsert_split {r : α → α → Prop} [DecidableRel r] [IsTrans α r] {front back : List α}
    {x : α} (h : (front ++ x :: back).Pairwise r) (a : α) : ∃ front' back',
      (front ++ x :: back).orderedInsert r a = front' ++ x :: back' ∧
      (front ++ back).orderedInsert r a = front' ++ back' := by
  induction front with
  | nil =>
    by_cases hle : r a x
    · refine ⟨[a], back, List.orderedInsert_cons_of_le _ _ hle, ?_⟩
      cases back with
      | nil => rfl
      | cons b back =>
        have hxb : r x b := (List.pairwise_cons.mp h).1 b List.mem_cons_self
        exact List.orderedInsert_cons_of_le _ _ (IsTrans.trans _ _ _ hle hxb)
    · exact ⟨[], back.orderedInsert r a, List.orderedInsert_of_not_le _ _ hle, rfl⟩
  | cons b front ih =>
    by_cases hle : r a b
    · exact ⟨a :: b :: front, back, List.orderedInsert_cons_of_le _ _ hle,
        List.orderedInsert_cons_of_le _ _ hle⟩
    · obtain ⟨front', back', hwith, hwithout⟩ := ih (List.pairwise_cons.mp h).2
      refine ⟨b :: front', back', ?_, ?_⟩
      · exact (List.orderedInsert_of_not_le _ _ hle).trans (congrArg (b :: ·) hwith)
      · exact (List.orderedInsert_of_not_le _ _ hle).trans (congrArg (b :: ·) hwithout)

/-- A stable sort puts one element more somewhere between the others. -/
theorem sortedBy_insert (key : α → κ) (before after : List α) (x : α) : ∃ front back,
    sortedBy key (before ++ x :: after) = front ++ x :: back ∧
      sortedBy key (before ++ after) = front ++ back := by
  have htrans : IsTrans α fun x y => key x ≤ key y := ⟨fun _ _ _ => le_trans⟩
  induction before with
  | nil =>
    have hcons : sortedBy key (x :: after) =
        (sortedBy key after).orderedInsert (fun x y => key x ≤ key y) x := rfl
    rw [List.nil_append, List.nil_append, hcons, List.orderedInsert_eq_take_drop]
    exact ⟨_, _, rfl, (List.takeWhile_append_dropWhile).symm⟩
  | cons a before ih =>
    obtain ⟨front, back, hwith, hwithout⟩ := ih
    have hsorted := sortedBy_pairwise key (before ++ x :: after)
    rw [hwith] at hsorted
    obtain ⟨front', back', hfront, hback⟩ := orderedInsert_split hsorted a
    rw [← hwith] at hfront
    rw [← hwithout] at hback
    exact ⟨front', back', hfront, hback⟩

theorem sortedBy_map {β : Type*} (key : β → κ) (f : α → β) (values : List α) :
    sortedBy key (values.map f) = (sortedBy (fun x => key (f x)) values).map f :=
  (List.map_insertionSort _ _ f values fun _ _ _ _ => Iff.rfl).symm

/-- Increasing lists are determined by their elements. -/
theorem eq_of_increasing (key : α → κ) {l l' : List α} (hl : l.Pairwise fun x y => key x < key y)
    (hl' : l'.Pairwise fun x y => key x < key y) (hmem : ∀ x, x ∈ l ↔ x ∈ l') : l = l' := by
  have hirrefl : Std.Irrefl fun x y : α => key x < key y := ⟨fun x => lt_irrefl _⟩
  have hasymm : Std.Asymm fun x y : α => key x < key y := ⟨fun _ _ => lt_asymm⟩
  exact List.Pairwise.eq_of_mem_iff hl hl' fun x => hmem x

/-- Sorting elements with distinct keys gives an increasing list. -/
theorem sortedBy_increasing (key : α → κ) {values : List α} (h : values.Pairwise fun x y => key x ≠ key y) :
    (sortedBy key values).Pairwise fun x y => key x < key y := by
  have hdistinct : (sortedBy key values).Pairwise fun x y => key x ≠ key y :=
    (sortedBy_perm values).symm.pairwise h fun hne => Ne.symm hne
  exact ((sortedBy_pairwise key values).and hdistinct).imp fun h => lt_of_le_of_ne h.1 h.2

/-- Sorting elements with distinct keys forgets the order they came in. -/
theorem sortedBy_eq_of_perm {values values' : List α} (hperm : values'.Perm values)
    (h : values.Pairwise fun x y => key x ≠ key y) : sortedBy key values' = sortedBy key values := by
  refine eq_of_increasing key (sortedBy_increasing key (hperm.symm.pairwise h fun hne => Ne.symm hne))
    (sortedBy_increasing key h) fun x => ?_
  rw [mem_sortedBy, mem_sortedBy]
  exact hperm.mem_iff

/-- When one element at most is looked for, the order of the list does not matter. -/
theorem find?_eq_of_perm {values values' : List α} (hperm : values'.Perm values) {p : α → Bool}
    (hone : ∀ x ∈ values, ∀ y ∈ values, p x = true → p y = true → x = y) :
    values'.find? p = values.find? p := by
  cases hfound : values.find? p with
  | none =>
    rw [List.find?_eq_none] at hfound ⊢
    exact fun x hx => hfound x (hperm.mem_iff.mp hx)
  | some x =>
    have hx := List.mem_of_find?_eq_some hfound
    have hpx := List.find?_some hfound
    cases hother : values'.find? p with
    | none => exact absurd hpx (List.find?_eq_none.mp hother x (hperm.mem_iff.mpr hx))
    | some y =>
      have hy := hperm.mem_iff.mp (List.mem_of_find?_eq_some hother)
      rw [hone x hx y hy hpx (List.find?_some hother)]

/-- Sorting distinct elements of a stream puts them in the order of the stream. -/
theorem sortedBy_eq_filter {l values : List α} (hl : l.Pairwise fun x y => key x < key y)
    (hnodup : values.Nodup) {p : α → Bool} (hmem : ∀ x, x ∈ values ↔ x ∈ l ∧ p x = true) :
    sortedBy key values = l.filter p := by
  have hirrefl : Std.Irrefl fun x y : α => key x < key y := ⟨fun x => lt_irrefl _⟩
  have hasymm : Std.Asymm fun x y : α => key x < key y := ⟨fun _ _ => lt_asymm⟩
  have hdistinct : (sortedBy key values).Pairwise fun x y => x ≠ y :=
    (sortedBy_perm values).nodup_iff.mpr hnodup
  have hsorted : (sortedBy key values).Pairwise fun x y => key x < key y := by
    refine List.Pairwise.imp_of_mem ?_ ((sortedBy_pairwise key values).and hdistinct)
    intro x y hx hy hxy
    have hx' := ((hmem x).mp (mem_sortedBy.mp hx)).1
    have hy' := ((hmem y).mp (mem_sortedBy.mp hy)).1
    rcases pairwise_trichotomy hl hx' hy' with h | h | h
    · exact absurd h hxy.2
    · exact h
    · exact absurd h (not_lt.mpr hxy.1)
  refine List.Pairwise.eq_of_mem_iff hsorted (hl.filter _) fun x => ?_
  rw [mem_sortedBy, hmem, List.mem_filter]

end Sorting

section Dictionary
variable [DecidableEq κ] (key : α → κ)

/-- `values[key(x)] = x` on a dict seen as its list of values: a new key goes last,
a known one keeps its place. -/
def assign (values : List α) (x : α) : List α :=
  if values.any fun y => key y = key x then
    values.map fun y => if key y = key x then x else y
  else values ++ [x]

/-- The values of the dict comprehension over `xs`. -/
def dictValues (xs : List α) : List α := xs.foldl (assign key) []

variable {key}

theorem assign_distinct {values : List α} (x : α)
    (h : values.Pairwise fun y z => key y ≠ key z) :
    ((assign key values x).Pairwise fun y z => key y ≠ key z) ∧
      ∀ y ∈ assign key values x, y ∈ values ∨ y = x := by
  unfold assign
  split
  · have hkey : ∀ y, key (if key y = key x then x else y) = key y := by
      intro y
      split
      · exact Eq.symm ‹_›
      · rfl
    refine ⟨?_, fun y hy => ?_⟩
    · rw [List.pairwise_map]
      exact h.imp fun hne => by rwa [hkey, hkey]
    · obtain ⟨z, hz, rfl⟩ := List.mem_map.mp hy
      split
      · exact Or.inr rfl
      · exact Or.inl hz
  · rename_i hany
    refine ⟨List.pairwise_append.mpr ⟨h, List.pairwise_singleton _ x, fun y hy z hz hyz => ?_⟩, ?_⟩
    · rw [List.mem_singleton.mp hz] at hyz
      exact hany (List.any_eq_true.mpr ⟨y, hy, decide_eq_true hyz⟩)
    · intro y hy
      rcases List.mem_append.mp hy with hy | hy
      · exact Or.inl hy
      · exact Or.inr (List.mem_singleton.mp hy)

theorem assign_spec {values : List α} {x : α} (hinj : ∀ y ∈ values, key y = key x → y = x)
    (hnodup : values.Nodup) :
    (assign key values x).Nodup ∧ ∀ y, y ∈ assign key values x ↔ y ∈ values ∨ y = x := by
  unfold assign
  split
  · rename_i hany
    obtain ⟨z, hz, hzx⟩ := List.any_eq_true.mp hany
    have hxmem : x ∈ values := hinj z hz (of_decide_eq_true hzx) ▸ hz
    have hsame : (values.map fun y => if key y = key x then x else y) = values := by
      refine (List.map_congr_left fun y hy => ?_).trans (List.map_id _)
      split
      · exact (hinj y hy ‹_›).symm
      · rfl
    rw [hsame]
    refine ⟨hnodup, fun y => ⟨Or.inl, ?_⟩⟩
    rintro (h | rfl)
    · exact h
    · exact hxmem
  · rename_i hany
    have hxmem : x ∉ values := fun hx => hany (List.any_eq_true.mpr ⟨x, hx, by simp⟩)
    refine ⟨?_, fun y => by simp⟩
    rw [List.nodup_append]
    refine ⟨hnodup, List.nodup_singleton x, ?_⟩
    intro y hy z hz hyz
    rw [List.mem_singleton] at hz
    subst hz
    exact hxmem (hyz ▸ hy)

/-- A dict holds one of the given values for every key. -/
theorem dictValues_distinct (xs : List α) :
    ((dictValues key xs).Pairwise fun x y => key x ≠ key y) ∧ ∀ x ∈ dictValues key xs, x ∈ xs := by
  suffices hfold : ∀ values : List α, (values.Pairwise fun x y => key x ≠ key y) →
      ((xs.foldl (assign key) values).Pairwise fun x y => key x ≠ key y) ∧
        ∀ x ∈ xs.foldl (assign key) values, x ∈ values ∨ x ∈ xs by
    obtain ⟨hdistinct, hmem⟩ := hfold [] List.Pairwise.nil
    exact ⟨hdistinct, fun x hx => (hmem x hx).resolve_left List.not_mem_nil⟩
  induction xs with
  | nil => exact fun values hdistinct => ⟨hdistinct, fun _ => Or.inl⟩
  | cons x xs ih =>
    intro values hdistinct
    obtain ⟨hassigned, hsub⟩ := assign_distinct x hdistinct
    obtain ⟨hlast, hmem⟩ := ih (assign key values x) hassigned
    refine ⟨hlast, fun y hy => ?_⟩
    rcases hmem y hy with hy | hy
    · rcases hsub y hy with hy | rfl
      · exact Or.inl hy
      · exact Or.inr List.mem_cons_self
    · exact Or.inr (List.mem_cons_of_mem x hy)

/-- When a key names one element, the dict holds every element once. -/
theorem dictValues_spec {xs : List α} (hinj : ∀ x ∈ xs, ∀ y ∈ xs, key x = key y → x = y) :
    (dictValues key xs).Nodup ∧ ∀ y, y ∈ dictValues key xs ↔ y ∈ xs := by
  suffices hfold : ∀ values : List α, values.Nodup →
      (∀ x ∈ values ++ xs, ∀ y ∈ values ++ xs, key x = key y → x = y) →
      (xs.foldl (assign key) values).Nodup ∧
        ∀ y, y ∈ xs.foldl (assign key) values ↔ y ∈ values ∨ y ∈ xs by
    obtain ⟨hnodup, hmem⟩ := hfold [] List.nodup_nil (by simpa using hinj)
    exact ⟨hnodup, fun y => (hmem y).trans (by simp)⟩
  clear hinj
  induction xs with
  | nil => exact fun values hnodup _ => ⟨hnodup, fun y => by simp⟩
  | cons x xs ih =>
    intro values hnodup hinj
    obtain ⟨hnodup', hmem'⟩ := assign_spec
      (fun y hy => hinj y (by simp [hy]) x (by simp)) hnodup
    obtain ⟨hnodup'', hmem''⟩ := ih (assign key values x) hnodup' (by
      intro y hy z hz
      refine hinj y ?_ z ?_
      · rcases List.mem_append.mp hy with h | h
        · rcases (hmem' y).mp h with h | rfl <;> simp [*]
        · simp [h]
      · rcases List.mem_append.mp hz with h | h
        · rcases (hmem' z).mp h with h | rfl <;> simp [*]
        · simp [h])
    refine ⟨hnodup'', fun y => ?_⟩
    rw [List.foldl_cons, hmem'', hmem', List.mem_cons, or_assoc]

end Dictionary

section Extremes
variable [LinearOrder κ]

/-- A running maximum ends at the greatest value. -/
theorem isGreatest_foldl_max (f : α → κ) (first : κ) (rest : List α) :
    IsGreatest {value | value = first ∨ ∃ x ∈ rest, f x = value}
      (rest.foldl (fun high x => max high (f x)) first) := by
  induction rest generalizing first with
  | nil =>
    refine ⟨Or.inl rfl, ?_⟩
    rintro value (rfl | ⟨x, hx, -⟩)
    · exact le_refl _
    · exact absurd hx List.not_mem_nil
  | cons x rest ih =>
    obtain ⟨hmem, hupper⟩ := ih (max first (f x))
    have hmax := hupper (Or.inl rfl)
    refine ⟨?_, ?_⟩
    · rcases hmem with heq | ⟨y, hy, heq⟩
      · rcases max_choice first (f x) with hfirst | hx
        · exact Or.inl (heq.trans hfirst)
        · exact Or.inr ⟨x, List.mem_cons_self, (heq.trans hx).symm⟩
      · exact Or.inr ⟨y, List.mem_cons_of_mem x hy, heq⟩
    · rintro value (rfl | ⟨y, hy, rfl⟩)
      · exact (le_max_left _ _).trans hmax
      · rcases List.mem_cons.mp hy with rfl | hy
        · exact (le_max_right _ _).trans hmax
        · exact hupper (Or.inr ⟨y, hy, rfl⟩)

theorem getElem?_length_getLastD (first : α) (rest : List α) :
    (first :: rest)[rest.length]? = some (rest.getLastD first) := by
  induction rest generalizing first with
  | nil => rfl
  | cons x rest ih =>
    rw [List.length_cons, List.getElem?_cons_succ, List.getLastD_cons]
    exact ih x

theorem isLeast_foldl_min (f : α → κ) (first : κ) (rest : List α) :
    IsLeast {value | value = first ∨ ∃ x ∈ rest, f x = value}
      (rest.foldl (fun low x => min low (f x)) first) :=
  @isGreatest_foldl_max α κᵒᵈ _ f first rest

variable {ι : Type*} [LinearOrder ι] {f : κ → ι}

/-- An antitone map exchanges the least and the greatest value. -/
theorem max?_map_of_antitone (hf : Antitone f) (values : List κ) :
    (values.map f).max? = values.min?.map f := by
  cases values with
  | nil => rfl
  | cons first rest =>
    rw [List.map_cons, List.max?_cons', List.min?_cons',
      List.foldl_map_hom fun x y => (hf.map_min (a := x) (b := y)).symm]
    rfl

theorem min?_map_of_antitone (hf : Antitone f) (values : List κ) :
    (values.map f).min? = values.max?.map f := by
  cases values with
  | nil => rfl
  | cons first rest =>
    rw [List.map_cons, List.max?_cons', List.min?_cons',
      List.foldl_map_hom fun x y => (hf.map_max (a := x) (b := y)).symm]
    rfl

end Extremes

section Chunks

theorem flatten_toChunks_go (n : Nat) (values : List α) (chunk : Array α)
    (chunks : Array (List α)) :
    (List.toChunks.go n values chunk chunks).flatten =
      chunks.toList.flatten ++ (chunk.toList ++ values) := by
  induction values generalizing chunk chunks with
  | nil => simp [List.toChunks.go]
  | cons x values ih =>
    unfold List.toChunks.go
    split
    · rw [ih]
      simp
    · rw [ih]
      simp

/-- Cutting a list into chunks loses nothing. -/
theorem flatten_toChunks (n : Nat) (values : List α) : (values.toChunks n).flatten = values := by
  unfold List.toChunks
  split
  · rfl
  · simp
  · rw [flatten_toChunks_go]
    simp

/-- Of values that map to equally long lists, the slice of one is its list. -/
theorem slice_flatMap {β : Type*} {f : α → List β} {n : Nat} {values : List α}
    (h : ∀ x ∈ values, (f x).length = n) {index : Nat} {x : α} (hx : values[index]? = some x) :
    ((values.flatMap f).take ((index + 1) * n)).drop (index * n) = f x := by
  induction values generalizing index with
  | nil => cases hx
  | cons y values ih =>
    have hy := h y List.mem_cons_self
    rw [List.flatMap_cons]
    cases index with
    | zero =>
      cases hx
      rw [Nat.zero_add, Nat.one_mul, Nat.zero_mul, List.drop_zero, ← hy, List.take_left]
    | succ index =>
      have hstop : (index + 1 + 1) * n = (f y).length + (index + 1) * n := by
        rw [hy, Nat.succ_mul, Nat.add_comm]
      have hstart : (index + 1) * n = (f y).length + index * n := by
        rw [hy, Nat.succ_mul, Nat.add_comm]
      rw [hstop, List.take_length_add_append]
      nth_rewrite 1 [hstart]
      rw [List.drop_length_add_append]
      exact ih (fun z hz => h z (List.mem_cons_of_mem y hz)) hx

end Chunks

end Library
