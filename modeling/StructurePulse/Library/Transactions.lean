import Mathlib.Data.List.Basic

/-!
# Runs of transactions and chains of log entries

An operation either commits a new state or raises and leaves the state as it was.
A property every commit preserves holds after every run. `Ends` speaks about both
outcomes of a computation that can be stopped on its way. `Chained` says that a log
leads from one status to another, each entry starting where the last one ended.
-/

namespace Library
set_option autoImplicit false

universe u
variable {σ ω ε : Type*} {α β : Type u}

theorem bind_eq_ok {x : Except ε α} {f : α → Except ε β} {b : β} :
    (x >>= f) = .ok b ↔ ∃ a, x = .ok a ∧ f a = .ok b := by
  cases x with
  | error e => simp [bind, Except.bind]
  | ok a => simp [bind, Except.bind]

theorem bind_eq_error {x : Except ε α} {f : α → Except ε β} {e : ε} :
    (x >>= f) = .error e ↔ x = .error e ∨ ∃ a, x = .ok a ∧ f a = .error e := by
  cases x with
  | error e => simp [bind, Except.bind]
  | ok a => simp [bind, Except.bind]

theorem ok_bind (value : α) (f : α → Except ε β) : (Except.ok value >>= f) = f value := rfl

theorem map_pair_fst (x : Except ε α) (b : β) : (x.map (·, b)).map Prod.fst = x := by
  cases x with
  | error e => rfl
  | ok a => rfl

/-- What every pass of a loop preserves, a loop that does not raise preserves. -/
theorem foldlM_invariant {γ : Type*} {f : α → γ → Except ε α} {P : α → Prop} {xs : List γ}
    (hstep : ∀ a, ∀ x ∈ xs, ∀ b, P a → f a x = .ok b → P b) {a b : α} (hP : P a)
    (h : xs.foldlM f a = .ok b) : P b := by
  induction xs generalizing a with
  | nil =>
    cases h
    exact hP
  | cons x xs ih =>
    obtain ⟨mid, hmid, hrest⟩ := bind_eq_ok.mp h
    exact ih (fun a y hy => hstep a y (List.mem_cons_of_mem x hy))
      (hstep a x List.mem_cons_self mid hP hmid) hrest

/-- A loop whose calls all succeed returns their results. -/
theorem mapM_eq_filterMap {γ : Type*} {f : γ → Except ε α} {xs : List γ}
    (h : ∀ x ∈ xs, ∃ y, f x = .ok y) : xs.mapM f = .ok (xs.filterMap fun x => (f x).toOption) := by
  induction xs with
  | nil => rfl
  | cons x xs ih =>
    obtain ⟨y, hy⟩ := h x List.mem_cons_self
    rw [List.mapM_cons, hy, ih fun z hz => h z (List.mem_cons_of_mem x hz), List.filterMap_cons, hy]
    rfl

theorem mapM_eq_map {γ : Type*} {f : γ → Except ε α} {g : γ → α} {xs : List γ}
    (h : ∀ x ∈ xs, f x = .ok (g x)) : xs.mapM f = .ok (xs.map g) := by
  rw [mapM_eq_filterMap fun x hx => ⟨g x, h x hx⟩, ← List.filterMap_eq_map]
  congr 1
  refine List.filterMap_congr fun x hx => ?_
  rw [h x hx]
  rfl

/-- A loop whose passes all succeed succeeds. -/
theorem foldlM_ok {γ : Type*} {f : α → γ → Except ε α} {xs : List γ}
    (h : ∀ a, ∀ x ∈ xs, ∃ b, f a x = .ok b) (a : α) : ∃ b, xs.foldlM f a = .ok b := by
  induction xs generalizing a with
  | nil => exact ⟨a, rfl⟩
  | cons x xs ih =>
    obtain ⟨next, hnext⟩ := h a x List.mem_cons_self
    obtain ⟨last, hlast⟩ := ih (fun a y hy => h a y (List.mem_cons_of_mem x hy)) next
    refine ⟨last, ?_⟩
    rw [List.foldlM_cons, hnext]
    exact hlast

theorem foldlM_congr {γ : Type*} {f g : α → γ → Except ε α} {xs : List γ}
    (h : ∀ a, ∀ x ∈ xs, f a x = g a x) (a : α) : xs.foldlM f a = xs.foldlM g a := by
  induction xs generalizing a with
  | nil => rfl
  | cons x xs ih =>
    rw [List.foldlM_cons, List.foldlM_cons, h a x List.mem_cons_self]
    congr 1
    funext next
    exact ih (fun a y hy => h a y (List.mem_cons_of_mem x hy)) next

section Outcomes
variable {P : α → Prop} {Q : ε → Prop} {R : β → Prop}

/-- The value satisfies `P`, or what is left behind satisfies `Q`. -/
def Ends (P : α → Prop) (Q : ε → Prop) : Except ε α → Prop
  | .ok value => P value
  | .error left => Q left

theorem Ends.bind {x : Except ε α} {f : α → Except ε β} (hx : Ends P Q x)
    (hf : ∀ a, P a → Ends R Q (f a)) : Ends R Q (x >>= f) := by
  cases x with
  | error left => exact hx
  | ok value => exact hf value hx

theorem Ends.map {x : Except ε α} {f : α → β} (hx : Ends P Q x) (hf : ∀ a, P a → R (f a)) :
    Ends R Q (x.map f) := by
  cases x with
  | error left => exact hx
  | ok value => exact hf value hx

theorem Ends.mono {P' : α → Prop} {x : Except ε α} (hx : Ends P Q x) (h : ∀ a, P a → P' a) :
    Ends P' Q x := by
  cases x with
  | error left => exact hx
  | ok value => exact h value hx

theorem Ends.and {P' : α → Prop} {Q' : ε → Prop} {x : Except ε α} (hx : Ends P Q x)
    (hx' : Ends P' Q' x) : Ends (fun a => P a ∧ P' a) (fun left => Q left ∧ Q' left) x := by
  cases x with
  | error left => exact ⟨hx, hx'⟩
  | ok value => exact ⟨hx, hx'⟩

theorem Ends.of_ok {x : Except ε α} {value : α} (hx : Ends P Q x) (h : x = .ok value) : P value := by
  rw [h] at hx
  exact hx

theorem Ends.of_error {x : Except ε α} {left : ε} (hx : Ends P Q x) (h : x = .error left) :
    Q left := by
  rw [h] at hx
  exact hx

end Outcomes

section Runs
variable (step : σ → ω → Except ε σ)

/-- One transaction: the new state when it commits, the old one when it raises. -/
def transact (state : σ) (op : ω) : σ :=
  match step state op with
  | .ok next => next
  | .error _ => state

def runAll (state : σ) (ops : List ω) : σ := ops.foldl (transact step) state

theorem transact_cases (state : σ) (op : ω) :
    transact step state op = state ∨ step state op = .ok (transact step state op) := by
  unfold transact
  cases step state op with
  | error e => exact Or.inl rfl
  | ok next => exact Or.inr rfl

/-- Every step of the run meets the condition in the state it starts from. -/
def RunMeets (condition : σ → ω → Prop) : σ → List ω → Prop
  | _, [] => True
  | state, op :: ops => condition state op ∧ RunMeets condition (transact step state op) ops

instance decidableRunMeets (condition : σ → ω → Prop) [∀ state op, Decidable (condition state op)] :
    ∀ (state : σ) (ops : List ω), Decidable (RunMeets step condition state ops)
  | _, [] => isTrue trivial
  | state, op :: ops =>
    @instDecidableAnd _ _ inferInstance (decidableRunMeets condition (transact step state op) ops)

variable {step}

theorem transact_invariant {P : σ → Prop} {state : σ} {op : ω} (hP : P state)
    (hstep : ∀ next, step state op = .ok next → P next) : P (transact step state op) := by
  rcases transact_cases step state op with h | h
  · rwa [h]
  · exact hstep _ h

theorem runAll_append (state : σ) (ops more : List ω) :
    runAll step state (ops ++ more) = runAll step (runAll step state ops) more :=
  List.foldl_append

/-- What every commit preserves, every run preserves. -/
theorem runAll_invariant {P : σ → Prop} {state : σ}
    (hstep : ∀ s op next, P s → step s op = .ok next → P next) (hP : P state) (ops : List ω) :
    P (runAll step state ops) := by
  induction ops generalizing state with
  | nil => exact hP
  | cons op ops ih => exact ih (transact_invariant hP (hstep state op · hP))

/-- A condition on the operations alone holds at every step. -/
theorem RunMeets.and_forall {condition : σ → ω → Prop} {Q : ω → Prop} {state : σ} {ops : List ω}
    (hops : ∀ op ∈ ops, Q op) (h : RunMeets step condition state ops) :
    RunMeets step (fun state op => Q op ∧ condition state op) state ops := by
  induction ops generalizing state with
  | nil => exact trivial
  | cons op ops ih =>
    refine ⟨⟨hops op List.mem_cons_self, h.1⟩, ?_⟩
    exact ih (fun other hother => hops other (List.mem_cons_of_mem op hother)) h.2

/-- The condition at every step is the condition after every prefix of the run. -/
theorem runMeets_iff_prefixes {condition : σ → ω → Prop} {state : σ} {ops : List ω} :
    RunMeets step condition state ops ↔
      ∀ before op, before ++ [op] <+: ops → condition (runAll step state before) op := by
  induction ops generalizing state with
  | nil =>
    constructor
    · intro _ before op hbefore
      have hnil := List.prefix_nil.mp hbefore
      exact absurd hnil (List.append_ne_nil_of_right_ne_nil before (List.cons_ne_nil op []))
    · intro _
      exact trivial
  | cons first ops ih =>
    constructor
    · intro h before op hbefore
      cases before with
      | nil =>
        obtain ⟨rfl, -⟩ := List.cons_prefix_cons.mp hbefore
        exact h.1
      | cons other before =>
        obtain ⟨rfl, hrest⟩ := List.cons_prefix_cons.mp hbefore
        exact ih.mp h.2 before op hrest
    · intro h
      refine ⟨h [] first (List.cons_prefix_cons.mpr ⟨rfl, List.nil_prefix⟩), ih.mpr ?_⟩
      intro before op hbefore
      exact h (first :: before) op (List.cons_prefix_cons.mpr ⟨rfl, hbefore⟩)

theorem RunMeets.restrict {condition : σ → ω → Prop} {state : σ} {before ops : List ω}
    (h : RunMeets step condition state ops) (hbefore : before <+: ops) :
    RunMeets step condition state before := by
  refine runMeets_iff_prefixes.mpr fun earlier op hearlier => ?_
  exact runMeets_iff_prefixes.mp h earlier op (hearlier.trans hbefore)

/-- What every commit that meets a condition preserves, every run that meets it preserves. -/
theorem runAll_invariant_of_meets {condition : σ → ω → Prop} {P : σ → Prop} {state : σ}
    (hstep : ∀ s op next, P s → condition s op → step s op = .ok next → P next) (hP : P state)
    {ops : List ω} (hmeets : RunMeets step condition state ops) :
    P (runAll step state ops) := by
  induction ops generalizing state with
  | nil => exact hP
  | cons op ops ih =>
    exact ih (transact_invariant hP fun next => hstep state op next hP hmeets.1) hmeets.2

/-- When a step from a good state leads to a good one exactly if it meets the condition, the
states of a run are good exactly if its steps meet the condition. -/
theorem runMeets_iff_good {condition : σ → ω → Prop} {P : σ → Prop}
    (hstep : ∀ state op, P state → (P (transact step state op) ↔ condition state op))
    {state : σ} (hP : P state) {ops : List ω} :
    RunMeets step condition state ops ↔ ∀ before, before <+: ops → P (runAll step state before) := by
  induction ops generalizing state with
  | nil =>
    refine ⟨fun _ before hbefore => ?_, fun _ => trivial⟩
    rw [List.prefix_nil.mp hbefore]
    exact hP
  | cons op ops ih =>
    constructor
    · intro h before hbefore
      cases before with
      | nil => exact hP
      | cons other before =>
        obtain ⟨rfl, hrest⟩ := List.cons_prefix_cons.mp hbefore
        exact (ih ((hstep state other hP).mpr h.1)).mp h.2 before hrest
    · intro h
      have hnext : P (transact step state op) :=
        h [op] (List.cons_prefix_cons.mpr ⟨rfl, List.nil_prefix⟩)
      refine ⟨(hstep state op hP).mp hnext, (ih hnext).mpr fun before hbefore => ?_⟩
      exact h (op :: before) (List.cons_prefix_cons.mpr ⟨rfl, hbefore⟩)

/-- What every commit relates, every run relates. -/
theorem runAll_relates {R : σ → σ → Prop} (hrefl : ∀ s, R s s)
    (htrans : ∀ s t u, R s t → R t u → R s u) {P : σ → Prop}
    (hP : ∀ s op next, P s → step s op = .ok next → P next)
    (hR : ∀ s op next, P s → step s op = .ok next → R s next) {state : σ} (h : P state)
    (ops : List ω) : R state (runAll step state ops) := by
  induction ops generalizing state with
  | nil => exact hrefl state
  | cons op ops ih =>
    refine htrans _ _ _ (transact_invariant (P := R state) (hrefl state) (hR state op · h)) ?_
    exact ih (transact_invariant h (hP state op · h))

end Runs

section Chains
variable {ι τ : Type*} (source target : ι → τ)

def Chained : τ → List ι → τ → Prop
  | start, [], stop => start = stop
  | start, entry :: log, stop => source entry = start ∧ Chained (target entry) log stop

variable {source target}

theorem chained_append {start stop : τ} {log more : List ι} :
    Chained source target start (log ++ more) stop ↔
      ∃ mid, Chained source target start log mid ∧ Chained source target mid more stop := by
  induction log generalizing start with
  | nil => simp [Chained]
  | cons entry log ih => simp [Chained, ih, and_assoc]

theorem Chained.snoc {start mid : τ} {log : List ι} (h : Chained source target start log mid)
    {entry : ι} (hentry : source entry = mid) :
    Chained source target start (log ++ [entry]) (target entry) :=
  chained_append.mpr ⟨mid, h, hentry, rfl⟩

end Chains

end Library
