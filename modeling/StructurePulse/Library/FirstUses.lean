import Mathlib.Data.List.Basic
import Mathlib.Data.List.Nodup
import Mathlib.Data.List.Range

/-!
# Loops that use a key once

The loop asks every event for a candidate and keeps it unless its key was used before. So an
event contributes exactly if no earlier kept candidate has its key, and the keys of what is
kept are different.
-/

namespace Library
set_option autoImplicit false

section Uses
variable {ε β κ : Type*} [DecidableEq κ] (candidate : ε → Option β) (key : β → κ)

def firstUses : List κ → List ε → List β
  | _, [] => []
  | used, event :: events =>
    match candidate event with
    | none => firstUses used events
    | some found =>
      if key found ∈ used then firstUses used events
      else found :: firstUses (key found :: used) events

variable {candidate key} {used : List κ} {events : List ε}

theorem of_mem_firstUses {found : β} (h : found ∈ firstUses candidate key used events) :
    key found ∉ used ∧ ∃ event ∈ events, candidate event = some found := by
  induction events generalizing used with
  | nil => cases h
  | cons event events ih =>
    rw [firstUses] at h
    split at h
    · obtain ⟨hkey, other, hother, hfound⟩ := ih h
      exact ⟨hkey, other, List.mem_cons_of_mem event hother, hfound⟩
    · rename_i first hfirst
      split_ifs at h with hused
      · obtain ⟨hkey, other, hother, hfound⟩ := ih h
        exact ⟨hkey, other, List.mem_cons_of_mem event hother, hfound⟩
      · rcases List.mem_cons.mp h with rfl | hlater
        · exact ⟨hused, event, List.mem_cons_self, hfirst⟩
        · obtain ⟨hkey, other, hother, hfound⟩ := ih hlater
          exact ⟨fun hmem => hkey (List.mem_cons_of_mem _ hmem), other,
            List.mem_cons_of_mem event hother, hfound⟩

theorem nodup_keys_firstUses (used : List κ) (events : List ε) :
    ((firstUses candidate key used events).map key).Nodup := by
  induction events generalizing used with
  | nil => exact List.nodup_nil
  | cons event events ih =>
    rw [firstUses]
    split
    · exact ih used
    · split_ifs
      · exact ih used
      · rw [List.map_cons, List.nodup_cons]
        refine ⟨fun hmem => ?_, ih _⟩
        obtain ⟨later, hlater, hkey⟩ := List.mem_map.mp hmem
        exact (of_mem_firstUses hlater).1 (hkey ▸ List.mem_cons_self)

theorem firstUses_eq_nil_iff :
    firstUses candidate key [] events = [] ↔ ∀ event ∈ events, candidate event = none := by
  induction events with
  | nil => simp [firstUses]
  | cons event events ih =>
    rw [firstUses, List.forall_mem_cons]
    cases hevent : candidate event with
    | none => simp [ih]
    | some found => simp

variable {time : ε → Nat} {made : β → Nat} (hmade : ∀ event found, candidate event = some found →
  made found = time event)
include hmade

/-- Along events of increasing times, a candidate is kept exactly if no earlier one that is
kept has its key. -/
theorem mem_firstUses_iff (hsorted : events.Pairwise fun a b => time a < time b) {event : ε}
    (hevent : event ∈ events) {found : β} (hfound : candidate event = some found) :
    found ∈ firstUses candidate key used events ↔
      key found ∉ used ∧ ∀ other ∈ firstUses candidate key used events,
        made other < time event → key other ≠ key found := by
  induction hsorted generalizing used with
  | nil => cases hevent
  | @cons first events hlater hsorted ih =>
    have hstart : ∀ used, ∀ other ∈ firstUses candidate key used events, time first < made other := by
      intro used other hother
      obtain ⟨-, source, hsource, hcandidate⟩ := of_mem_firstUses hother
      rw [hmade source other hcandidate]
      exact hlater source hsource
    rw [firstUses]
    rcases List.mem_cons.mp hevent with rfl | hrest
    · -- nothing kept later was made before the first event
      rw [hfound]
      simp only
      split_ifs with hused
      · refine iff_of_false (fun hmem => ?_) (fun h => h.1 hused)
        have hbefore := hstart used found hmem
        rw [hmade event found hfound] at hbefore
        exact lt_irrefl _ hbefore
      · refine iff_of_true List.mem_cons_self ⟨hused, fun other hother hbefore => ?_⟩
        rcases List.mem_cons.mp hother with rfl | hother
        · rw [hmade event _ hfound] at hbefore
          exact absurd hbefore (lt_irrefl _)
        · exact absurd (hstart _ other hother) (not_lt_of_gt hbefore)
    · cases hfirst : candidate first with
      | none => exact ih hrest
      | some kept =>
        simp only
        have hearlier : made kept < time event := by
          rw [hmade first kept hfirst]
          exact hlater event hrest
        split_ifs with hused
        · exact ih hrest
        · have hne : found ≠ kept := by
            rintro rfl
            rw [hmade event found hfound] at hearlier
            exact lt_irrefl _ hearlier
          rw [List.mem_cons, or_iff_right hne, ih hrest, List.forall_mem_cons, List.mem_cons,
            not_or]
          constructor
          · rintro ⟨⟨hkept, hkey⟩, hall⟩
            exact ⟨hkey, fun _ heq => hkept heq.symm, hall⟩
          · rintro ⟨hkey, hkept, hall⟩
            exact ⟨⟨fun heq => hkept hearlier heq.symm, hkey⟩, hall⟩

end Uses

/-- A backward search over a window finds the last hit. -/
theorem find?_reverse_range'_eq_some_iff {p : Nat → Bool} {start length found : Nat} :
    (List.range' start length).reverse.find? p = some found ↔
      start ≤ found ∧ found < start + length ∧ p found = true ∧
        ∀ j, found < j → j < start + length → p j = false := by
  induction length with
  | zero =>
    refine iff_of_false (fun h => by cases h) (fun h => ?_)
    omega
  | succ length ih =>
    rw [List.range'_concat, List.reverse_append, List.reverse_singleton, List.singleton_append,
      List.find?_cons, Nat.one_mul]
    cases hlast : p (start + length) with
    | true =>
      simp only [Option.some.injEq]
      constructor
      · rintro rfl
        exact ⟨Nat.le_add_right start length, Nat.lt_succ_self _, hlast, fun j hlate hearly => by omega⟩
      · rintro ⟨-, hlt, -, hafter⟩
        by_contra hne
        have hmiss := hafter (start + length) (by omega) (Nat.lt_succ_self _)
        rw [hlast] at hmiss
        cases hmiss
    | false =>
      simp only
      rw [ih]
      constructor
      · rintro ⟨hle, hlt, hhit, hafter⟩
        refine ⟨hle, by omega, hhit, fun j hlate hearly => ?_⟩
        rcases Nat.lt_or_eq_of_le (Nat.lt_succ_iff.mp hearly) with hlt' | rfl
        · exact hafter j hlate hlt'
        · exact hlast
      · rintro ⟨hle, hlt, hhit, hafter⟩
        have hne : found ≠ start + length := by
          rintro rfl
          rw [hlast] at hhit
          cases hhit
        exact ⟨hle, by omega, hhit, fun j hlate hearly => hafter j hlate (by omega)⟩

end Library
