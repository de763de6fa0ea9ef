import StructurePulse.Universe.Refresh
import StructurePulse.Universe.Selection

/-!
# Refreshes at work

Any number of services refresh the universe. Each provider answer, each transaction and the
release of the lock is a step; a service can die between any two of its steps, which frees its
lock, and a transaction can fail.
-/

namespace StructurePulse.Universe
open Library MarketData
set_option autoImplicit false

section World

/-- Where a service stands in `refresh`. -/
inductive RefreshPhase where
  | idle
  | locked
  | answered (answers : ProviderAnswers)
  | replaced (answers : ProviderAnswers)
  | saved

structure RefreshWorld where
  tables : UniverseTables := {}
  phase : Nat → RefreshPhase := fun _ => .idle
  lock : Option Nat := none

/-- An answer is missing when a provider raises. -/
inductive RefreshAction where
  | start (service : Nat)
  | answer (service : Nat) (answers : Option ProviderAnswers)
  | replace (service : Nat) (commits : Bool)
  | save (service : Nat) (evaluatedAt savedAt : Int) (commits : Bool)
  | release (service : Nat)
  | crash (service : Nat)

def RefreshWorld.goto (world : RefreshWorld) (service : Nat) (phase : RefreshPhase) : RefreshWorld :=
  { world with phase := Function.update world.phase service phase }

/-- `refresh` ends, normally or not, and the lock is free if the service held it. -/
def RefreshWorld.leave (world : RefreshWorld) (service : Nat) : RefreshWorld :=
  { world.goto service .idle with lock := if world.lock = some service then none else world.lock }

variable (upper lower : String → String) (config : UniversePolicyConfig) (rankingFetchLimit : Nat)

/-- An action that the phase of its service does not allow does nothing. -/
def refreshStep (world : RefreshWorld) : RefreshAction → Except Unit RefreshWorld
  | .start service =>
    match world.phase service with
    | .idle =>
      if world.lock.isSome then .error ()
      else .ok { world.goto service .locked with lock := some service }
    | _ => .error ()
  | .answer service answers =>
    match world.phase service, answers with
    | .locked, some answers => .ok (world.goto service (.answered answers))
    | .locked, none => .ok (world.leave service)
    | _, _ => .error ()
  | .replace service commits =>
    match world.phase service with
    | .answered answers =>
      if commits then
        .ok { world.goto service (.replaced answers) with
          tables := replaceActiveSet world.tables answers.instruments }
      else .ok (world.leave service)
    | _ => .error ()
  | .save service evaluatedAt savedAt commits =>
    match world.phase service with
    | .replaced answers =>
      if commits then
        match saveSnapshot world.tables
            (evaluate upper lower config answers.assets answers.instruments answers.tickers evaluatedAt)
            (config, rankingFetchLimit) (latestSourceUpdate answers.assets) savedAt with
        | .ok tables => .ok { world.goto service .saved with tables := tables }
        | .error _ => .ok (world.leave service)
      else .ok (world.leave service)
    | _ => .error ()
  | .release service =>
    match world.phase service with
    | .saved => .ok (world.leave service)
    | _ => .error ()
  | .crash service => .ok (world.leave service)

/-- The world after a list of actions, from empty tables. -/
def refreshed (actions : List RefreshAction) : RefreshWorld :=
  runAll (refreshStep upper lower config rankingFetchLimit) {} actions

/-- A refresh that nothing interrupts is `refresh`. -/
theorem refreshed_uninterrupted {world : RefreshWorld} {service : Nat} {answers : ProviderAnswers}
    {now : Int} {next : UniverseTables} (hidle : world.phase service = .idle)
    (hfree : world.lock = none)
    (hnext : refresh upper lower config rankingFetchLimit world.tables (some answers) now = .ok next) :
    (runAll (refreshStep upper lower config rankingFetchLimit) world
      [.start service, .answer service (some answers), .replace service true,
        .save service now now true, .release service]).tables = next := by
  unfold refresh at hnext
  simp [runAll, transact, refreshStep, RefreshWorld.goto, RefreshWorld.leave, hidle, hfree, hnext]

end World

section Snapshots
variable {upper lower : String → String} {config : UniversePolicyConfig}
variable {tables next : UniverseTables} {answers : ProviderAnswers}

/-- Some snapshot has selected an instrument. -/
def HasSelection (tables : UniverseTables) : Prop :=
  ∃ snapshot ∈ tables.snapshots, 1 ≤ snapshot.selectedCount

/-- One active snapshot that selects an instrument, and targets for the market data. -/
def ValidUniverse (tables : UniverseTables) : Prop :=
  ∃ active, tables.snapshots.filter UniverseSnapshotRecord.isActive = [active] ∧
    1 ≤ active.selectedCount ∧ listActiveTargets tables ≠ []

/-- The answers hold an asset whose contract is eligible, and there is room for it. -/
def Selectable (upper lower : String → String) (config : UniversePolicyConfig)
    (answers : ProviderAnswers) (now : Int) : Prop :=
  1 ≤ config.size ∧ ∃ asset ∈ answers.assets,
    (eligibleContract upper lower config answers.instruments answers.tickers now asset).isSome

instance (tables : UniverseTables) : Decidable (HasSelection tables) :=
  inferInstanceAs (Decidable (∃ snapshot ∈ tables.snapshots, 1 ≤ snapshot.selectedCount))

instance (upper lower : String → String) (config : UniversePolicyConfig) (answers : ProviderAnswers)
    (now : Int) : Decidable (Selectable upper lower config answers now) :=
  inferInstanceAs (Decidable (_ ∧ _))

theorem selection_ne_nil_iff {now : Int} :
    selection upper lower config answers now ≠ [] ↔ Selectable upper lower config answers now := by
  have hselection : selection upper lower config answers now = _ := selected_eq_take answers.assets
  rw [hselection, ne_eq, List.take_eq_nil_iff, keptContracts, firstUses_eq_nil_iff, not_or,
    Selectable, Nat.one_le_iff_ne_zero]
  refine and_congr_right fun _ => ?_
  push Not
  refine exists_congr fun asset => and_congr mem_sortedBy ?_
  rw [Option.isSome_iff_ne_none]

/-- A decision that selects names its contract. -/
theorem selectedSymbol_isSome {now : Int} (assets : List MarketAsset) (selected : List Symbol) :
    ∀ decision ∈ evaluateFrom upper lower config answers.instruments answers.tickers now selected
      assets, decision.isSelected = (selectedSymbol decision).isSome := by
  induction assets generalizing selected with
  | nil => exact fun decision hdecision => absurd hdecision List.not_mem_nil
  | cons asset assets ih =>
    intro decision hdecision
    rw [evaluateFrom] at hdecision
    rcases List.mem_cons.mp hdecision with rfl | hdecision
    · rcases @decideAsset_cases upper lower config answers.instruments answers.tickers now selected
        asset with ⟨_, _, _, _, hcase⟩ | ⟨_, _, _, hcase⟩
      · rw [hcase]
        rfl
      · rw [hcase]
        rfl
    · exact ih _ decision hdecision

theorem countP_selected (answers : ProviderAnswers) (now : Int) :
    (evaluate upper lower config answers.assets answers.instruments answers.tickers now).countP
        UniverseDecision.isSelected =
      (selection upper lower config answers now).length := by
  unfold selection
  rw [List.length_filterMap_eq_countP]
  exact List.countP_congr fun decision hdecision => by
    rw [selectedSymbol_isSome _ _ decision hdecision]

theorem listActiveTargets_eq_nil_iff (h : Consistent tables) :
    listActiveTargets tables = [] ↔
      (activeMembers tables).filterMap (fun member => member.instrumentSymbol) = [] := by
  have hlength := (listActiveSymbols_perm h).length_eq
  rw [listActiveSymbols, List.length_map] at hlength
  rw [← List.length_eq_zero_iff, ← List.length_eq_zero_iff, hlength]

/-- A saved snapshot is the active one. -/
theorem saveSnapshot_active {decisions : List UniverseDecision}
    {configuration : UniversePolicyConfig × Nat} {sourceUpdatedAt : Option Int} {now : Int}
    (hnext : saveSnapshot tables decisions configuration sourceUpdatedAt now = .ok next) :
    (∃ active, next.snapshots.filter UniverseSnapshotRecord.isActive = [active] ∧
      active.selectedCount = decisions.countP UniverseDecision.isSelected) ∧
    (HasSelection next ↔
      HasSelection tables ∨ 1 ≤ decisions.countP UniverseDecision.isSelected) := by
  unfold saveSnapshot at hnext
  split at hnext
  · cases hnext
    constructor
    · refine ⟨{ id := tables.nextSnapshotId
                status := "active"
                isActive := true
                sourceAssetCount := decisions.length
                selectedCount := decisions.countP UniverseDecision.isSelected
                configuration := configuration
                sourceUpdatedAt := sourceUpdatedAt
                activatedAt := now }, ?_, rfl⟩
      rw [List.filter_append, List.filter_singleton]
      simp only [List.append_eq_singleton_iff]
      refine Or.inl ⟨?_, rfl⟩
      rw [List.filter_eq_nil_iff]
      rintro _ hsnapshot
      obtain ⟨old, -, rfl⟩ := List.mem_map.mp hsnapshot
      split
      · exact Bool.false_ne_true
      · assumption
    · unfold HasSelection
      simp only [List.mem_append, List.mem_singleton, or_and_right, exists_or, exists_eq_left]
      refine or_congr_left ⟨?_, ?_⟩
      · rintro ⟨_, hmem, hcount⟩
        obtain ⟨old, hold, rfl⟩ := List.mem_map.mp hmem
        refine ⟨old, hold, ?_⟩
        split at hcount
        · exact hcount
        · exact hcount
      · rintro ⟨old, hold, hcount⟩
        refine ⟨_, List.mem_map_of_mem hold, ?_⟩
        split
        · exact hcount
        · exact hcount
  · cases hnext

end Snapshots

section Runs
variable {upper lower : String → String} {config : UniversePolicyConfig} {rankingFetchLimit : Nat}
variable {world next : RefreshWorld} {action : RefreshAction}

/-- The tables are consistent, and what a service has replaced is still listed. -/
structure Sound (world : RefreshWorld) : Prop where
  consistent : Consistent world.tables
  listed : ∀ service answers, world.phase service = .replaced answers →
    ∀ symbol ∈ answers.instruments.map Instrument.symbol,
      symbol ∈ world.tables.instruments.map instrumentKey

/-- Once a snapshot has selected an instrument, the universe is valid. -/
def Preserved (tables : UniverseTables) : Prop := HasSelection tables → ValidUniverse tables

theorem phase_goto {service other : Nat} {phase : RefreshPhase} {answers : ProviderAnswers}
    (h : (world.goto service phase).phase other = .replaced answers) :
    phase = .replaced answers ∨ world.phase other = .replaced answers := by
  change Function.update world.phase service phase other = .replaced answers at h
  rw [Function.update_apply] at h
  split at h
  · exact Or.inl h
  · exact Or.inr h

/-- What a step does to the tables, and what it lets a service save. -/
theorem refreshStep_cases
    (h : refreshStep upper lower config rankingFetchLimit world action = .ok next) :
    (next.tables = world.tables ∧ ∀ service answers, next.phase service = .replaced answers →
      world.phase service = .replaced answers) ∨
    (∃ given, next.tables = replaceActiveSet world.tables given.instruments ∧
      ∀ service answers, next.phase service = .replaced answers →
        given = answers ∨ world.phase service = .replaced answers) ∨
    ∃ service evaluatedAt savedAt given, action = .save service evaluatedAt savedAt true ∧
      world.phase service = .replaced given ∧
      saveSnapshot world.tables
        (evaluate upper lower config given.assets given.instruments given.tickers evaluatedAt)
        (config, rankingFetchLimit) (latestSourceUpdate given.assets) savedAt = .ok next.tables ∧
      ∀ service answers, next.phase service = .replaced answers →
        world.phase service = .replaced answers := by
  have hleave : ∀ service other answers, (world.leave service).phase other = .replaced answers →
      world.phase other = .replaced answers :=
    fun service other answers hphase => (phase_goto hphase).resolve_left nofun
  cases action with
  | start service =>
    simp only [refreshStep] at h
    split at h
    · split at h
      · cases h
      · cases h
        exact Or.inl ⟨rfl, fun other answers hphase => (phase_goto hphase).resolve_left nofun⟩
    · cases h
  | answer service given =>
    simp only [refreshStep] at h
    split at h
    · cases h
      exact Or.inl ⟨rfl, fun other answers hphase => (phase_goto hphase).resolve_left nofun⟩
    · cases h
      exact Or.inl ⟨rfl, hleave service⟩
    · cases h
  | replace service commits =>
    simp only [refreshStep] at h
    split at h
    · rename_i given _
      cases commits with
      | false =>
        cases h
        exact Or.inl ⟨rfl, hleave service⟩
      | true =>
        cases h
        refine Or.inr (Or.inl ⟨given, rfl, fun other answers hphase => ?_⟩)
        exact (phase_goto hphase).imp_left RefreshPhase.replaced.inj
    · cases h
  | save service evaluatedAt savedAt commits =>
    simp only [refreshStep] at h
    split at h
    · rename_i given hgiven
      cases commits with
      | false =>
        cases h
        exact Or.inl ⟨rfl, hleave service⟩
      | true =>
        simp only [if_true] at h
        split at h
        · rename_i tables hsaved
          cases h
          exact Or.inr (Or.inr ⟨service, evaluatedAt, savedAt, given, rfl, hgiven, hsaved,
            fun other answers hphase => (phase_goto hphase).resolve_left nofun⟩)
        · cases h
          exact Or.inl ⟨rfl, hleave service⟩
    · cases h
  | release service =>
    simp only [refreshStep] at h
    split at h
    · cases h
      exact Or.inl ⟨rfl, hleave service⟩
    · cases h
  | crash service =>
    cases h
    exact Or.inl ⟨rfl, hleave service⟩

theorem Sound.step (h : Sound world)
    (hnext : refreshStep upper lower config rankingFetchLimit world action = .ok next) :
    Sound next := by
  rcases refreshStep_cases hnext with ⟨htables, hphase⟩ | ⟨given, htables, hphase⟩ |
    ⟨service, evaluatedAt, savedAt, given, -, hgiven, hsaved, hphase⟩
  · refine ⟨htables ▸ h.consistent, fun other answers hreplaced => ?_⟩
    rw [htables]
    exact h.listed other answers (hphase other answers hreplaced)
  · refine ⟨htables ▸ h.consistent.replaceActiveSet given.instruments,
      fun other answers hreplaced symbol hsymbol => ?_⟩
    rw [htables, mem_replaceActiveSet]
    rcases hphase other answers hreplaced with rfl | hold
    · exact Or.inr hsymbol
    · exact Or.inl (h.listed other answers hold symbol hsymbol)
  · refine ⟨(saveSnapshot_spec h.consistent (h.listed service given hgiven) hsaved).1,
      fun other answers hreplaced => ?_⟩
    rw [(saveSnapshot_ok h.consistent hsaved).1]
    exact h.listed other answers (hphase other answers hreplaced)

/-- A snapshot that replaces a valid universe finds an eligible asset. -/
def KeepsUniverse (upper lower : String → String) (config : UniversePolicyConfig)
    (world : RefreshWorld) : RefreshAction → Prop
  | .save service evaluatedAt _ true => ∀ answers, world.phase service = .replaced answers →
    (answers.assets.map MarketAsset.providerId).Nodup → HasSelection world.tables →
      Selectable upper lower config answers evaluatedAt
  | _ => True

instance (upper lower : String → String) (config : UniversePolicyConfig) (world : RefreshWorld) :
    DecidablePred (KeepsUniverse upper lower config world)
  | .save service evaluatedAt _ true =>
    match hphase : world.phase service with
    | .replaced given =>
      decidable_of_iff ((given.assets.map MarketAsset.providerId).Nodup → HasSelection world.tables →
          Selectable upper lower config given evaluatedAt)
        ⟨fun h answers hanswers => RefreshPhase.replaced.inj (hphase.symm.trans hanswers) ▸ h,
          fun h => h given hphase⟩
    | .idle | .locked | .answered _ | .saved => isTrue fun answers hanswers => by
      rw [hphase] at hanswers
      cases hanswers
  | .save _ _ _ false | .start _ | .answer _ _ | .replace _ _ | .release _ | .crash _ => isTrue trivial

/-- A saved snapshot keeps the universe valid exactly if it selects an asset. -/
theorem preserved_save {given : ProviderAnswers} {tables : UniverseTables}
    {evaluatedAt savedAt : Int} (h : Consistent world.tables)
    (hlisted : ∀ symbol ∈ given.instruments.map Instrument.symbol,
      symbol ∈ world.tables.instruments.map instrumentKey)
    (hsaved : saveSnapshot world.tables
      (evaluate upper lower config given.assets given.instruments given.tickers evaluatedAt)
      (config, rankingFetchLimit) (latestSourceUpdate given.assets) savedAt = .ok tables) :
    Preserved tables ↔
      (HasSelection world.tables → Selectable upper lower config given evaluatedAt) := by
  obtain ⟨⟨active, hactive, hcount⟩, hselects⟩ := saveSnapshot_active hsaved
  obtain ⟨hconsistent, hmembers⟩ := saveSnapshot_spec h hlisted hsaved
  rw [countP_selected] at hcount hselects
  have hpositive : 1 ≤ (selection upper lower config given evaluatedAt).length ↔
      Selectable upper lower config given evaluatedAt := by
    rw [Nat.one_le_iff_ne_zero, ne_eq, List.length_eq_zero_iff]
    exact selection_ne_nil_iff
  have hvalid : ValidUniverse tables ↔ Selectable upper lower config given evaluatedAt := by
    constructor
    · rintro ⟨other, hother, hone, -⟩
      rw [hactive, List.singleton_inj] at hother
      rw [← hother, hcount] at hone
      exact hpositive.mp hone
    · intro hselectable
      refine ⟨active, hactive, hcount ▸ hpositive.mpr hselectable, fun hnone => ?_⟩
      rw [listActiveTargets_eq_nil_iff hconsistent, hmembers] at hnone
      exact selection_ne_nil_iff.mpr hselectable hnone
  unfold Preserved
  rw [hselects, hpositive, hvalid]
  exact ⟨fun hall hold => hall (Or.inl hold), fun hall => Or.rec hall id⟩

/-- Replacing the instruments leaves the universe as it is. -/
theorem Preserved.replaceActiveSet {tables : UniverseTables} (h : Preserved tables)
    (hconsistent : Consistent tables) (instruments : List Instrument) :
    Preserved (replaceActiveSet tables instruments) := by
  intro hselection
  obtain ⟨active, hactive, hcount, htargets⟩ := h hselection
  refine ⟨active, hactive, hcount, fun hnone => htargets ?_⟩
  rw [listActiveTargets_eq_nil_iff (hconsistent.replaceActiveSet instruments)] at hnone
  exact (listActiveTargets_eq_nil_iff hconsistent).mpr hnone

/-- The transaction of a snapshot is refused exactly if two assets share a provider id. -/
theorem saveSnapshot_ok_iff {tables : UniverseTables} {given : ProviderAnswers}
    {evaluatedAt savedAt : Int} :
    (∃ next, saveSnapshot tables
      (evaluate upper lower config given.assets given.instruments given.tickers evaluatedAt)
      (config, rankingFetchLimit) (latestSourceUpdate given.assets) savedAt = .ok next) ↔
      (given.assets.map MarketAsset.providerId).Nodup := by
  have hassets : (evaluate upper lower config given.assets given.instruments given.tickers
      evaluatedAt).map UniverseDecision.asset = sortedBy MarketAsset.marketCapRank given.assets :=
    map_asset_evaluateFrom [] _
  have hproviders : ((evaluate upper lower config given.assets given.instruments given.tickers
      evaluatedAt).map fun decision => decision.asset.providerId).Nodup ↔
        (given.assets.map MarketAsset.providerId).Nodup := by
    have hmap := congrArg (List.map MarketAsset.providerId) hassets
    rw [List.map_map] at hmap
    have hsorted : (sortedBy MarketAsset.marketCapRank given.assets).Perm given.assets :=
      sortedBy_perm given.assets
    rw [← (hsorted.map MarketAsset.providerId).nodup_iff, ← hmap]
    rfl
  unfold saveSnapshot
  by_cases hnodup : (given.assets.map MarketAsset.providerId).Nodup
  · rw [if_pos (hproviders.mpr hnodup)]
    exact iff_of_true ⟨_, rfl⟩ hnodup
  · rw [if_neg fun h => hnodup (hproviders.mp h)]
    exact iff_of_false nofun hnodup

/-- A step keeps the universe exactly if it meets the condition. -/
theorem preserved_step (hworld : Sound world) (hpreserved : Preserved world.tables) :
    Preserved (transact (refreshStep upper lower config rankingFetchLimit) world action).tables ↔
      KeepsUniverse upper lower config world action := by
  by_cases hsave : ∃ service evaluatedAt savedAt given,
      action = .save service evaluatedAt savedAt true ∧ world.phase service = .replaced given ∧
        (given.assets.map MarketAsset.providerId).Nodup
  · obtain ⟨service, evaluatedAt, savedAt, given, rfl, hgiven, hnodup⟩ := hsave
    obtain ⟨tables, hsaved⟩ : ∃ tables, saveSnapshot world.tables
        (evaluate upper lower config given.assets given.instruments given.tickers evaluatedAt)
        (config, rankingFetchLimit) (latestSourceUpdate given.assets) savedAt = .ok tables :=
      saveSnapshot_ok_iff.mpr hnodup
    have hnext : (transact (refreshStep upper lower config rankingFetchLimit) world
        (.save service evaluatedAt savedAt true)).tables = tables := by
      simp [transact, refreshStep, hgiven, hsaved]
    rw [hnext, preserved_save hworld.consistent (hworld.listed service given hgiven) hsaved]
    constructor
    · intro hselectable answers hanswers _
      rw [hgiven] at hanswers
      cases hanswers
      exact hselectable
    · exact fun hkeeps => hkeeps given hgiven hnodup
  · refine iff_of_true ?_ ?_
    · rcases transact_cases (refreshStep upper lower config rankingFetchLimit) world action with
        hsame | hnext
      · rw [hsame]
        exact hpreserved
      · rcases refreshStep_cases hnext with ⟨htables, -⟩ | ⟨given, htables, -⟩ |
          ⟨service, evaluatedAt, savedAt, given, haction, hgiven, hsaved, -⟩
        · rw [htables]
          exact hpreserved
        · rw [htables]
          exact hpreserved.replaceActiveSet hworld.consistent given.instruments
        · exact absurd ⟨service, evaluatedAt, savedAt, given, haction, hgiven,
            saveSnapshot_ok_iff.mp ⟨_, hsaved⟩⟩ hsave
    · cases action with
      | save service evaluatedAt savedAt commits =>
        cases commits with
        | false => trivial
        | true =>
          intro given hgiven hnodup
          exact absurd ⟨service, evaluatedAt, savedAt, given, rfl, hgiven, hnodup⟩ hsave
      | _ => trivial

/-- From the first selection on, the universe stays valid through a history of refreshes exactly
if every snapshot that replaces a valid one finds an eligible asset. -/
theorem universe_preserved_iff (upper lower : String → String) (config : UniversePolicyConfig)
    (rankingFetchLimit : Nat) (actions : List RefreshAction) :
    (∀ before, before <+: actions →
      Preserved (refreshed upper lower config rankingFetchLimit before).tables) ↔
      RunMeets (refreshStep upper lower config rankingFetchLimit)
        (KeepsUniverse upper lower config) {} actions := by
  have hsound : ∀ before, Sound (refreshed upper lower config rankingFetchLimit before) := by
    refine runAll_invariant (fun world action next h hnext => h.step hnext) ?_
    exact ⟨consistent_initial, nofun⟩
  have hstart : Sound ({} : RefreshWorld) ∧ Preserved ({} : RefreshWorld).tables := by
    refine ⟨hsound [], ?_⟩
    rintro ⟨snapshot, hsnapshot, -⟩
    cases hsnapshot
  rw [runMeets_iff_good (P := fun world => Sound world ∧ Preserved world.tables)
    (fun world action hworld => ?_) hstart]
  · refine forall_congr' fun before => imp_congr_right fun _ => ?_
    exact (and_iff_right (hsound before)).symm
  · rw [← preserved_step hworld.1 hworld.2]
    refine and_iff_right (transact_invariant hworld.1 fun next hnext => hworld.1.step hnext)

/-- Bitcoin is selected. A second service finds the lock taken, a provider raises in the next
refresh, and the last one selects the contract of the other asset. -/
def rerankedUniverse : List RefreshAction :=
  let answers : List MarketAsset → ProviderAnswers := fun assets =>
    { instruments := listedContracts, tickers := quotedTicker, assets := assets }
  [.start 0, .start 1, .answer 0 (some (answers rankedAssets)), .replace 0 true,
    .save 0 (60 * oneDay) (60 * oneDay) true, .release 0,
    .start 1, .answer 1 none,
    .start 0, .answer 0 (some (answers (rankedAssets.filter fun asset => asset.symbol ≠ "BTC"))),
    .crash 1, .replace 0 true, .save 0 (61 * oneDay) (61 * oneDay) true, .release 0]

example :
    RunMeets (refreshStep id id ⟨2, 0, 10, 30, []⟩ 150) (KeepsUniverse id id ⟨2, 0, 10, 30, []⟩) {}
      rerankedUniverse ∧
    (listActiveTargets (refreshed id id ⟨2, 0, 10, 30, []⟩ 150 rerankedUniverse).tables).map (·.symbol) =
      ["1000SHIBUSDT"] := by
  decide +kernel

/-- Bitcoin is selected; at the next refresh the ranking answers an empty list. -/
def emptyRanking : List RefreshAction :=
  let answers : List MarketAsset → ProviderAnswers := fun assets =>
    { instruments := listedContracts, tickers := quotedTicker, assets := assets }
  [.start 0, .answer 0 (some (answers rankedAssets)), .replace 0 true,
    .save 0 (60 * oneDay) (60 * oneDay) true, .release 0,
    .start 0, .answer 0 (some (answers [])), .replace 0 true,
    .save 0 (61 * oneDay) (61 * oneDay) true, .release 0]

/-- The empty snapshot becomes the active one. -/
theorem empty_ranking_empties_universe :
    ¬ ∀ before, before <+: emptyRanking →
      Preserved (refreshed id id ⟨2, 0, 10, 30, []⟩ 150 before).tables := by
  intro hpreserved
  have hselection : HasSelection (refreshed id id ⟨2, 0, 10, 30, []⟩ 150 emptyRanking).tables := by
    unfold HasSelection
    decide +kernel
  obtain ⟨-, -, -, htargets⟩ := hpreserved emptyRanking List.prefix_rfl hselection
  exact htargets (by decide +kernel)

end Runs

end StructurePulse.Universe
