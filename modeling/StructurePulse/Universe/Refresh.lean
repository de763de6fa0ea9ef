import StructurePulse.Library.Tables
import StructurePulse.Library.Transactions
import StructurePulse.MarketData.Backfill
import StructurePulse.Universe.Policy

/-!
# The universe tables

A refresh replaces the instruments and then the active snapshot. The targets of the
market-data services are the selected members of the active snapshot.
-/

namespace StructurePulse.Universe
open Library MarketData
set_option autoImplicit false

section Records

structure InstrumentRow extends Instrument where
  isActive : Bool
  deriving Repr, DecidableEq

/-- `configuration` holds the policy and the ranking limit. -/
structure UniverseSnapshotRecord where
  id : Nat
  status : String
  isActive : Bool
  sourceAssetCount : Nat
  selectedCount : Nat
  configuration : UniversePolicyConfig × Nat
  sourceUpdatedAt : Option Int
  activatedAt : Int
  deriving Repr, DecidableEq

structure UniverseMemberRecord extends UniverseDecision where
  snapshotId : Nat
  deriving Repr, DecidableEq

structure UniverseTables where
  instruments : List InstrumentRow := []
  snapshots : List UniverseSnapshotRecord := []
  nextSnapshotId : Nat := 1
  members : List UniverseMemberRecord := []
  deriving Repr, DecidableEq

def instrumentKey (row : InstrumentRow) : Symbol := row.symbol

end Records

section Operations

def replaceActiveSet (tables : UniverseTables) (instruments : List Instrument) : UniverseTables :=
  let retired := tables.instruments.map fun row =>
    if row.symbol ∈ instruments.map Instrument.symbol then row else { row with isActive := false }
  { tables with
    instruments := (instruments.map fun instrument => InstrumentRow.mk instrument true).foldl
      (upsertRow instrumentKey) retired }

/-- Two decisions about one provider id break the unique index of the members. -/
def saveSnapshot (tables : UniverseTables) (decisions : List UniverseDecision)
    (configuration : UniversePolicyConfig × Nat) (sourceUpdatedAt : Option Int) (now : Int) :
    Except Unit UniverseTables :=
  if (decisions.map fun decision => decision.asset.providerId).Nodup then
    let superseded := tables.snapshots.map fun snapshot =>
      if snapshot.isActive then { snapshot with isActive := false, status := "superseded" }
      else snapshot
    let snapshot : UniverseSnapshotRecord :=
      { id := tables.nextSnapshotId
        status := "active"
        isActive := true
        sourceAssetCount := decisions.length
        selectedCount := decisions.countP UniverseDecision.isSelected
        configuration := configuration
        sourceUpdatedAt := sourceUpdatedAt
        activatedAt := now }
    .ok { tables with
      snapshots := superseded ++ [snapshot]
      nextSnapshotId := tables.nextSnapshotId + 1
      members := tables.members ++
        decisions.map fun decision => UniverseMemberRecord.mk decision tables.nextSnapshotId }
  else .error ()

/-- What the providers answer to a refresh that holds the lock. -/
structure ProviderAnswers where
  instruments : List Instrument
  tickers : Symbol → Option MarketTicker
  assets : List MarketAsset

def latestSourceUpdate (assets : List MarketAsset) : Option Int :=
  (assets.filterMap MarketAsset.lastUpdated).max?

variable (upper lower : String → String)

/-- `UniverseRefreshService.refresh`; without answers, since the lock is busy or a provider
raises, the previous universe stays. -/
def refresh (config : UniversePolicyConfig) (rankingFetchLimit : Nat) (tables : UniverseTables)
    (answers : Option ProviderAnswers) (now : Int) : Except Unit UniverseTables :=
  match answers with
  | none => .ok tables
  | some answers =>
    saveSnapshot (replaceActiveSet tables answers.instruments)
      (evaluate upper lower config answers.assets answers.instruments answers.tickers now)
      (config, rankingFetchLimit) (latestSourceUpdate answers.assets) now

/-- The instruments a refresh with these answers selects. -/
def selection (config : UniversePolicyConfig) (answers : ProviderAnswers) (now : Int) :
    List Symbol :=
  (evaluate upper lower config answers.assets answers.instruments answers.tickers now).filterMap
    selectedSymbol

end Operations

section Queries

def UniverseTables.isCurrent (tables : UniverseTables) (snapshotId : Nat) : Bool :=
  tables.snapshots.any fun snapshot => snapshot.id = snapshotId ∧ snapshot.isActive

def activeMembers (tables : UniverseTables) : List UniverseMemberRecord :=
  tables.members.filter fun member => tables.isCurrent member.snapshotId && member.isSelected

def memberTarget (tables : UniverseTables) (member : UniverseMemberRecord) :
    Option MarketDataTarget := do
  let symbol ← member.instrumentSymbol
  let row ← lookup instrumentKey tables.instruments symbol
  return { symbol := symbol, marketCapRank := member.asset.marketCapRank, launchTime := row.launchTime }

def listActiveTargets (tables : UniverseTables) : List MarketDataTarget :=
  (sortedBy (fun member : UniverseMemberRecord => member.asset.marketCapRank)
    (activeMembers tables)).filterMap (memberTarget tables)

/-- `list_active_symbols`. -/
def listActiveSymbols (tables : UniverseTables) : List Symbol :=
  (listActiveTargets tables).map MarketDataTarget.symbol

end Queries

section Invariant
variable {upper lower : String → String} {config : UniversePolicyConfig} {tables next : UniverseTables}

/-- Ids are below the sequence; the selected instruments have rows, and the current ones are
distinct. -/
structure Consistent (tables : UniverseTables) : Prop where
  snapshots : ∀ snapshot ∈ tables.snapshots, snapshot.id < tables.nextSnapshotId
  members : ∀ member ∈ tables.members, member.snapshotId < tables.nextSnapshotId
  known : ∀ member ∈ tables.members, member.isSelected = true →
    ∀ symbol ∈ member.instrumentSymbol, symbol ∈ tables.instruments.map instrumentKey
  distinct : ((activeMembers tables).filterMap fun member => member.instrumentSymbol).Nodup

theorem consistent_initial : Consistent {} := by
  refine ⟨?_, ?_, ?_, List.nodup_nil⟩
  · intro snapshot hsnapshot
    cases hsnapshot
  · intro member hmember
    cases hmember
  · intro member hmember
    cases hmember

theorem mem_replaceActiveSet {instruments : List Instrument} {symbol : Symbol} :
    symbol ∈ (replaceActiveSet tables instruments).instruments.map instrumentKey ↔
      symbol ∈ tables.instruments.map instrumentKey ∨
        symbol ∈ instruments.map Instrument.symbol := by
  have hretired : (tables.instruments.map fun row =>
      if row.symbol ∈ instruments.map Instrument.symbol then row
      else { row with isActive := false }).map instrumentKey =
      tables.instruments.map instrumentKey := by
    rw [List.map_map]
    apply List.map_congr_left
    intro row _
    rw [Function.comp_apply]
    split <;> rfl
  have hnew : (instruments.map fun instrument => InstrumentRow.mk instrument true).map
      instrumentKey = instruments.map Instrument.symbol := by
    rw [List.map_map]
    rfl
  unfold replaceActiveSet
  rw [mem_keys_foldl_upsertRow, hretired, hnew]

theorem Consistent.replaceActiveSet (h : Consistent tables) (instruments : List Instrument) :
    Consistent (replaceActiveSet tables instruments) := by
  refine ⟨h.snapshots, h.members, ?_, h.distinct⟩
  intro member hmember hselected symbol hsymbol
  exact mem_replaceActiveSet.mpr (Or.inl (h.known member hmember hselected symbol hsymbol))

/-- A saved snapshot is the only current one. -/
theorem saveSnapshot_ok {decisions : List UniverseDecision}
    {configuration : UniversePolicyConfig × Nat} {sourceUpdatedAt : Option Int} {now : Int}
    (h : Consistent tables)
    (hnext : saveSnapshot tables decisions configuration sourceUpdatedAt now = .ok next) :
    next.instruments = tables.instruments ∧
      next.nextSnapshotId = tables.nextSnapshotId + 1 ∧
      next.members = tables.members ++ decisions.map (UniverseMemberRecord.mk · tables.nextSnapshotId) ∧
      (∀ snapshot ∈ next.snapshots, snapshot.id < next.nextSnapshotId) ∧
      ∀ snapshotId, next.isCurrent snapshotId = true ↔ snapshotId = tables.nextSnapshotId := by
  unfold saveSnapshot at hnext
  split at hnext
  · cases hnext
    refine ⟨rfl, rfl, rfl, ?_, ?_⟩
    · intro snapshot hsnapshot
      rcases List.mem_append.mp hsnapshot with hold | hnew
      · obtain ⟨old, hold, heq⟩ := List.mem_map.mp hold
        have hid : snapshot.id = old.id := by
          rw [← heq]
          split <;> rfl
        rw [hid]
        exact Nat.lt_succ_of_lt (h.snapshots old hold)
      · rw [List.mem_singleton.mp hnew]
        exact Nat.lt_succ_self _
    · intro snapshotId
      unfold UniverseTables.isCurrent
      rw [List.any_append, Bool.or_eq_true]
      constructor
      · rintro (hold | hnew)
        · obtain ⟨snapshot, hsnapshot, hcurrent⟩ := List.any_eq_true.mp hold
          obtain ⟨old, -, heq⟩ := List.mem_map.mp hsnapshot
          have hactive : snapshot.isActive = false := by
            rw [← heq]
            split
            · rfl
            · exact Bool.eq_false_iff.mpr ‹_›
          rw [decide_eq_true_eq, hactive] at hcurrent
          cases hcurrent.2
        · obtain ⟨snapshot, hsnapshot, hcurrent⟩ := List.any_eq_true.mp hnew
          rw [List.mem_singleton.mp hsnapshot, decide_eq_true_eq] at hcurrent
          exact hcurrent.1.symm
      · rintro rfl
        refine Or.inr (List.any_eq_true.mpr ⟨_, List.mem_singleton_self _, ?_⟩)
        rw [decide_eq_true_eq]
        exact ⟨rfl, rfl⟩
  · cases hnext

/-- The members of the current snapshot are the selected decisions. -/
theorem activeMembers_saveSnapshot {decisions : List UniverseDecision}
    {configuration : UniversePolicyConfig × Nat} {sourceUpdatedAt : Option Int} {now : Int}
    (h : Consistent tables)
    (hnext : saveSnapshot tables decisions configuration sourceUpdatedAt now = .ok next) :
    activeMembers next = (decisions.filter UniverseDecision.isSelected).map
      (UniverseMemberRecord.mk · tables.nextSnapshotId) := by
  obtain ⟨-, -, hmembers, -, hcurrent⟩ := saveSnapshot_ok h hnext
  unfold activeMembers
  rw [hmembers, List.filter_append]
  have hold : tables.members.filter (fun member =>
      next.isCurrent member.snapshotId && member.isSelected) = [] := by
    rw [List.filter_eq_nil_iff]
    intro member hmember hkept
    have hid := (hcurrent member.snapshotId).mp (Bool.and_eq_true_iff.mp hkept).1
    exact absurd (h.members member hmember) (hid ▸ lt_irrefl _)
  rw [hold, List.nil_append, List.filter_map]
  congr 1
  apply List.filter_congr
  intro decision _
  rw [Function.comp_apply, (hcurrent tables.nextSnapshotId).mpr rfl, Bool.true_and]

/-- The query answers the instruments of the current members. -/
theorem listActiveSymbols_perm (h : Consistent tables) :
    (listActiveSymbols tables).Perm
      ((activeMembers tables).filterMap fun member => member.instrumentSymbol) := by
  have hsymbols : listActiveSymbols tables = (sortedBy (fun member : UniverseMemberRecord =>
      member.asset.marketCapRank) (activeMembers tables)).filterMap
        fun member => member.instrumentSymbol := by
    unfold listActiveSymbols listActiveTargets
    rw [List.map_filterMap]
    apply List.filterMap_congr
    intro member hmember
    have hmember := List.mem_filter.mp (mem_sortedBy.mp hmember)
    have hselected := (Bool.and_eq_true_iff.mp hmember.2).2
    unfold memberTarget
    rcases hsymbol : member.instrumentSymbol with _ | symbol
    · rfl
    · obtain ⟨row, hrow, hkey⟩ := List.mem_map.mp
        (h.known member hmember.1 hselected symbol hsymbol)
      rcases hlookup : lookup instrumentKey tables.instruments symbol with _ | found
      · exact absurd hkey (lookup_eq_none.mp hlookup row hrow)
      · simp [hlookup]
  rw [hsymbols]
  exact (sortedBy_perm (activeMembers tables)).filterMap _

theorem listActiveSymbols_nodup (h : Consistent tables) : (listActiveSymbols tables).Nodup :=
  (listActiveSymbols_perm h).nodup_iff.mpr h.distinct

theorem filterMap_filter_selected (decisions : List UniverseDecision) :
    (decisions.filter UniverseDecision.isSelected).filterMap UniverseDecision.instrumentSymbol =
      decisions.filterMap selectedSymbol := by
  rw [List.filterMap_filter]
  apply List.filterMap_congr
  intro decision _
  rfl

/-- A snapshot of decisions about listed instruments makes the selected ones active. -/
theorem saveSnapshot_spec {answers : ProviderAnswers} {configuration : UniversePolicyConfig × Nat}
    {sourceUpdatedAt : Option Int} {evaluatedAt savedAt : Int} (h : Consistent tables)
    (hlisted : ∀ symbol ∈ answers.instruments.map Instrument.symbol,
      symbol ∈ tables.instruments.map instrumentKey)
    (hnext : saveSnapshot tables (evaluate upper lower config answers.assets answers.instruments
      answers.tickers evaluatedAt) configuration sourceUpdatedAt savedAt = .ok next) :
    Consistent next ∧
      (activeMembers next).filterMap (fun member => member.instrumentSymbol) =
        selection upper lower config answers evaluatedAt := by
  obtain ⟨hinstruments, hid, hmembers, hsnapshots, -⟩ := saveSnapshot_ok h hnext
  have hactive := activeMembers_saveSnapshot h hnext
  have hselected : (activeMembers next).filterMap (fun member => member.instrumentSymbol) =
      selection upper lower config answers evaluatedAt := by
    rw [hactive, List.filterMap_map]
    exact filterMap_filter_selected _
  obtain ⟨hnodup, hknown⟩ := @selectedSymbols_spec upper lower config answers.instruments
    answers.tickers evaluatedAt (sortedBy MarketAsset.marketCapRank answers.assets) [] List.nodup_nil
  refine ⟨⟨hsnapshots, ?_, ?_, ?_⟩, hselected⟩
  · intro member hmember
    rw [hid]
    rw [hmembers] at hmember
    rcases List.mem_append.mp hmember with hold | hnew
    · exact Nat.lt_succ_of_lt (h.members member hold)
    · obtain ⟨decision, -, rfl⟩ := List.mem_map.mp hnew
      exact Nat.lt_succ_self _
  · intro member hmember hchosen symbol hsymbol
    rw [hinstruments]
    rw [hmembers] at hmember
    rcases List.mem_append.mp hmember with hold | hnew
    · exact h.known member hold hchosen symbol hsymbol
    · obtain ⟨decision, hdecision, rfl⟩ := List.mem_map.mp hnew
      apply hlisted
      apply hknown
      refine List.mem_filterMap.mpr ⟨decision, hdecision, ?_⟩
      unfold selectedSymbol
      rw [if_pos hchosen]
      exact hsymbol
  · rw [hselected]
    exact hnodup

/-- After a refresh that is answered the active symbols are the selected ones. -/
theorem refresh_spec {rankingFetchLimit : Nat} {answers : Option ProviderAnswers} {now : Int}
    (h : Consistent tables)
    (hnext : refresh upper lower config rankingFetchLimit tables answers now = .ok next) :
    Consistent next ∧
      (answers = none ∧ next = tables ∨ ∃ given, answers = some given ∧
        (listActiveSymbols next).Perm (selection upper lower config given now)) := by
  rcases answers with _ | given
  · cases hnext
    exact ⟨h, Or.inl ⟨rfl, rfl⟩⟩
  · have hreplaced := h.replaceActiveSet given.instruments
    obtain ⟨hconsistent, hselected⟩ := saveSnapshot_spec hreplaced
      (fun symbol hsymbol => mem_replaceActiveSet.mpr (Or.inr hsymbol)) hnext
    refine ⟨hconsistent, Or.inr ⟨given, rfl, ?_⟩⟩
    rw [← hselected]
    exact listActiveSymbols_perm hconsistent

end Invariant

end StructurePulse.Universe
