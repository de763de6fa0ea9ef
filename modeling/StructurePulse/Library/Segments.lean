import Mathlib.Data.List.Basic

/-!
# Segments of a text

A text whose parts are joined by colons determines its first two and its last two
parts when these hold no colon.
-/

namespace Library
set_option autoImplicit false

/-- The part after the last separator is unique. -/
theorem append_sep_inj {α : Type*} {sep : α} {a b c d : List α} (h : a ++ sep :: b = c ++ sep :: d)
    (hb : sep ∉ b) (hd : sep ∉ d) : a = c ∧ b = d := by
  rcases List.append_eq_append_iff.mp h with ⟨middle, hc, hsplit⟩ | ⟨middle, ha, hsplit⟩
  · cases middle with
    | nil =>
      rw [List.nil_append, List.cons.injEq] at hsplit
      exact ⟨by rw [hc, List.append_nil], hsplit.2⟩
    | cons x middle =>
      rw [List.cons_append, List.cons.injEq] at hsplit
      exact absurd (hsplit.2 ▸ List.mem_append_right _ List.mem_cons_self) hb
  · cases middle with
    | nil =>
      rw [List.nil_append, List.cons.injEq] at hsplit
      exact ⟨by rw [ha, List.append_nil], hsplit.2.symm⟩
    | cons x middle =>
      rw [List.cons_append, List.cons.injEq] at hsplit
      exact absurd (hsplit.2 ▸ List.mem_append_right _ List.mem_cons_self) hd

/-- The part before the first separator is unique. -/
theorem append_sep_inj_left {α : Type*} {sep : α} {a b c d : List α}
    (h : a ++ sep :: b = c ++ sep :: d) (ha : sep ∉ a) (hc : sep ∉ c) : a = c ∧ b = d := by
  have hreverse := congrArg List.reverse h
  simp only [List.reverse_append, List.reverse_cons, List.append_assoc, List.cons_append,
    List.nil_append] at hreverse
  obtain ⟨hback, hfront⟩ := append_sep_inj hreverse (by simpa using ha) (by simpa using hc)
  exact ⟨List.reverse_injective hfront, List.reverse_injective hback⟩

/-- No colon in the text. -/
def Plain (text : String) : Prop := ':' ∉ text.toList

instance (text : String) : Decidable (Plain text) := inferInstanceAs (Decidable (¬ _))

theorem plain_repr (n : Nat) : Plain (toString n) := by
  intro h
  have hdigit : (':').isDigit = true :=
    Nat.isDigit_of_mem_toDigits (b := 10) (by decide) (by decide) (by simpa using h)
  exact absurd hdigit (by decide)

theorem plain_int (value : Int) : Plain (toString value) := by
  cases value with
  | ofNat n => exact plain_repr n
  | negSucc n =>
    intro h
    have h : ':' ∈ ("-" ++ toString (n + 1)).toList := h
    rw [String.toList_append, List.mem_append] at h
    rcases h with h | h
    · exact absurd h (by decide)
    · exact plain_repr (n + 1) h

/-- The segments after the last two colons of a text. -/
structure LastSegments (text name after : String) : Prop where
  plainName : Plain name
  plainAfter : Plain after
  split : ∃ before, text = before ++ ":" ++ name ++ ":" ++ after

theorem LastSegments.unique {text name after name' after' : String}
    (h : LastSegments text name after) (h' : LastSegments text name' after') :
    name = name' ∧ after = after' := by
  obtain ⟨before, hsplit⟩ := h.split
  obtain ⟨before', hsplit'⟩ := h'.split
  have hlists : before.toList ++ ':' :: name.toList ++ ':' :: after.toList =
      before'.toList ++ ':' :: name'.toList ++ ':' :: after'.toList := by
    have heq := congrArg String.toList (hsplit.symm.trans hsplit')
    simpa [String.toList_append] using heq
  obtain ⟨hfront, hafter⟩ := append_sep_inj hlists h.plainAfter h'.plainAfter
  obtain ⟨-, hname⟩ := append_sep_inj hfront h.plainName h'.plainName
  exact ⟨String.toList_inj.mp hname, String.toList_inj.mp hafter⟩

/-- The segments before the first two colons of a text. -/
structure FirstSegments (text kind name : String) : Prop where
  plainKind : Plain kind
  plainName : Plain name
  split : ∃ after, text = kind ++ ":" ++ name ++ ":" ++ after

theorem FirstSegments.unique {text kind name kind' name' : String}
    (h : FirstSegments text kind name) (h' : FirstSegments text kind' name') :
    kind = kind' ∧ name = name' := by
  obtain ⟨after, hsplit⟩ := h.split
  obtain ⟨after', hsplit'⟩ := h'.split
  have hlists : kind.toList ++ ':' :: (name.toList ++ ':' :: after.toList) =
      kind'.toList ++ ':' :: (name'.toList ++ ':' :: after'.toList) := by
    have heq := congrArg String.toList (hsplit.symm.trans hsplit')
    simpa [String.toList_append] using heq
  obtain ⟨hkind, hback⟩ := append_sep_inj_left hlists h.plainKind h'.plainKind
  obtain ⟨hname, -⟩ := append_sep_inj_left hback h.plainName h'.plainName
  exact ⟨String.toList_inj.mp hkind, String.toList_inj.mp hname⟩

theorem toString_nat_injective {m n : Nat} (h : toString m = toString n) : m = n := by
  have hdigits : Nat.toDigits 10 m = Nat.toDigits 10 n := by
    simpa using congrArg String.toList h
  have hvalue := congrArg (fun digits => Nat.ofDigitChars 10 digits 0) hdigits
  simpa [Nat.ofDigitChars_toDigits] using hvalue

end Library
