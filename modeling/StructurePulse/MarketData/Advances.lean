import StructurePulse.MarketData.Backfill

/-!
# What transactions confirm

`Merged` is what a transaction does to the stored candles and to the confirmed time of a
symbol. `Advance` is what follows when the minutes up to the new time are stored.
-/

namespace StructurePulse.MarketData
open Library SMC Aggregation Store
set_option autoImplicit false

section Views
variable {tables old mid new : MarketTables} {symbol : Symbol} {start last : Int}

/-- The candle of a minute is stored. -/
def Stored (tables : MarketTables) (symbol : Symbol) (openTime : Int) : Prop :=
  (symbol, openTime) ∈ tables.candles.map candleKey

/-- Every minute from `start` to `last` is stored. -/
structure Covered (tables : MarketTables) (symbol : Symbol) (start last : Int) : Prop where
  le : start ≤ last
  start_dvd : oneMinute ∣ start
  last_dvd : oneMinute ∣ last
  stored : ∀ time, oneMinute ∣ time → start ≤ time → time ≤ last → Stored tables symbol time

/-- What a transaction does to the candles and to the time of one symbol. -/
structure Merged (old new : MarketTables) (symbol : Symbol) (time : Option Int) : Prop where
  stored : ∀ key ∈ old.candles.map candleKey, key ∈ new.candles.map candleKey
  merged : confirmedTime new symbol = mergeConfirmed (confirmedTime old symbol) time
  others : ∀ other, other ≠ symbol → confirmedTime new other = confirmedTime old other

@[simp] theorem mergeConfirmed_none (time : Option Int) : mergeConfirmed time none = time := by
  cases time <;> rfl

theorem confirmedTime_congr (h : new.checkpoints = old.checkpoints) (symbol : Symbol) :
    confirmedTime new symbol = confirmedTime old symbol := by
  unfold confirmedTime MarketTables.checkpoint
  rw [h]

/-- Only the candles change. -/
theorem Merged.of_candles (hcheckpoints : new.checkpoints = old.checkpoints)
    (hcandles : ∀ key ∈ old.candles.map candleKey, key ∈ new.candles.map candleKey)
    (symbol : Symbol) : Merged old new symbol none := by
  refine ⟨hcandles, ?_, ?_⟩
  · rw [mergeConfirmed_none]
    exact confirmedTime_congr hcheckpoints symbol
  · intro other _
    exact confirmedTime_congr hcheckpoints other

theorem Merged.refl (tables : MarketTables) (symbol : Symbol) : Merged tables tables symbol none :=
  Merged.of_candles rfl (fun _ h => h) symbol

/-- A transaction whose first part confirms nothing. -/
theorem Merged.comp {time : Option Int} (h : Merged old mid symbol none)
    (h' : Merged mid new symbol time) : Merged old new symbol time := by
  constructor
  · intro key hkey
    exact h'.stored key (h.stored key hkey)
  · rw [h'.merged, h.merged, mergeConfirmed_none]
  · intro other hne
    rw [h'.others other hne, h.others other hne]

theorem upsertCheckpoint_merged (tables : MarketTables) (symbol : Symbol)
    (state : CheckpointState) (time : Option Int) (error : Option MarketDataError) (preserve : Bool)
    (htime : preserve = true → time = none) :
    Merged tables (upsertCheckpoint tables symbol streamName state time error preserve) symbol
      time := by
  refine ⟨fun _ h => h, ?_, ?_⟩
  · have hrow : (upsertCheckpoint tables symbol streamName state time error preserve).checkpoint
        symbol streamName = some _ := lookup_upsertRow_self tables.checkpoints _
    unfold confirmedTime
    rw [hrow, Option.bind_some]
    rcases tables.checkpoint symbol streamName with _ | row
    · cases time <;> rfl
    · simp only [Option.bind_some]
      split
      · rename_i hpreserve
        rw [htime hpreserve, mergeConfirmed_none]
      · rfl
  · intro other hne
    unfold confirmedTime MarketTables.checkpoint upsertCheckpoint
    rw [lookup_upsertRow_of_ne]
    intro heq
    exact hne (congrArg Prod.fst heq).symm

end Views

section Transactions
variable {old new : MarketTables} {symbol : Symbol} {candles : List Candle1m}

theorem writeCandles_merged {priority : Nat} {completedOnly : Bool} {now : Int}
    (h : writeCandles old candles priority completedOnly now = .ok new) (symbol : Symbol) :
    Merged old new symbol none ∧ ∀ candle ∈ candles, Stored new candle.symbol candle.openTime := by
  obtain ⟨hcheckpoints, hcandles⟩ := writeCandles_frame h
  constructor
  · apply Merged.of_candles hcheckpoints
    intro key hkey
    rw [hcandles]
    exact mem_keys_foldl_upsertRow.mpr (Or.inl hkey)
  · intro candle hcandle
    unfold Stored
    rw [hcandles]
    exact mem_keys_foldl_upsertRow.mpr (Or.inr (List.mem_map.mpr ⟨candle, hcandle, rfl⟩))

theorem saveBatch_merged {now : Int}
    (h : saveBatch old symbol streamName candles now = .ok new) :
    Merged old new symbol (candles.getLast?.map Candle1m.openTime) ∧
      ∀ candle ∈ candles, Stored new candle.symbol candle.openTime := by
  unfold saveBatch at h
  split at h
  · rename_i hnone
    cases h
    rw [List.getLast?_eq_none_iff.mp hnone]
    refine ⟨Merged.refl _ symbol, ?_⟩
    intro candle hcandle
    cases hcandle
  · rename_i last hlast
    obtain ⟨mid, hmid, hnew⟩ := bind_eq_ok.mp h
    cases hnew
    obtain ⟨hquiet, hstored⟩ := writeCandles_merged hmid symbol
    rw [hlast]
    refine ⟨hquiet.comp (upsertCheckpoint_merged mid symbol _ _ _ _ ?_), hstored⟩
    intro hpreserve
    cases hpreserve

theorem startGap_merged (tables : MarketTables) (symbol : Symbol) (start stop : Int) :
    Merged tables (startGap tables symbol streamName start stop) symbol none := by
  refine Merged.comp ?_ (upsertCheckpoint_merged _ symbol _ _ _ _ fun _ => rfl)
  apply Merged.of_candles
  · rfl
  · intro key hkey
    exact hkey

theorem failGap_merged (tables : MarketTables) (gapId : Option Nat) (symbol : Symbol)
    (error : MarketDataError) :
    Merged tables (failGap tables gapId symbol streamName error) symbol none := by
  refine Merged.comp ?_ (upsertCheckpoint_merged _ symbol _ _ _ _ fun _ => rfl)
  apply Merged.of_candles
  · rfl
  · intro key hkey
    exact hkey

theorem completeGap_merged (tables : MarketTables) (gapId : Option Nat) (symbol : Symbol)
    (time now : Int) :
    Merged tables (completeGap tables gapId symbol streamName time now) symbol (some time) := by
  refine Merged.comp ?_ (upsertCheckpoint_merged _ symbol _ _ _ _ fun h => by cases h)
  apply Merged.of_candles
  · rfl
  · intro key hkey
    exact hkey

/-- A live candle confirms only the minute after the last confirmed one. -/
theorem ingestLiveCandle_merged {candle : Candle1m} {now : Int}
    {ingested : LiveIngestResult × MarketTables}
    (h : ingestLiveCandle old streamName candle now = .ok ingested) :
    ∃ time, Merged old ingested.2 candle.symbol time ∧
      ∀ next ∈ time, ∃ last, confirmedTime old candle.symbol = some last ∧
        next = last + oneMinute ∧ Stored ingested.2 candle.symbol next := by
  obtain ⟨mid, hmid, hnew⟩ := bind_eq_ok.mp h
  obtain ⟨hquiet, hstored⟩ := writeCandles_merged hmid candle.symbol
  split at hnew
  · cases hnew
    refine ⟨none, hquiet.comp (upsertCheckpoint_merged mid _ _ _ _ _ fun _ => rfl), ?_⟩
    intro next hnext
    cases hnext
  · rename_i last hlast
    split_ifs at hnew with hduplicate hexpected
    · cases hnew
      refine ⟨none, hquiet, ?_⟩
      intro next hnext
      cases hnext
    · cases hnew
      refine ⟨some candle.openTime, hquiet.comp (upsertCheckpoint_merged mid _ _ _ _ _ ?_), ?_⟩
      · intro hpreserve
        cases hpreserve
      · intro next hnext
        cases hnext
        exact ⟨last, hlast, hexpected, hstored candle (List.mem_singleton_self candle)⟩
    · cases hnew
      refine ⟨none, hquiet.comp (upsertCheckpoint_merged mid _ _ _ _ _ fun _ => rfl), ?_⟩
      intro next hnext
      cases hnext

theorem repairCandles_merged {now : Int} (h : repairCandles old candles now = .ok new)
    (symbol : Symbol) : Merged old new symbol none := by
  unfold repairCandles at h
  split at h
  · cases h
    exact Merged.refl _ symbol
  · exact (writeCandles_merged h symbol).1

theorem markInactiveStreams_merged (tables : MarketTables) (activeSymbols : List Symbol)
    (symbol : Symbol) :
    Merged tables (markInactiveStreams tables activeSymbols streamName) symbol none := by
  have hsame : ∀ other, confirmedTime (markInactiveStreams tables activeSymbols streamName) other =
      confirmedTime tables other := by
    intro other
    unfold confirmedTime MarketTables.checkpoint markInactiveStreams lookup
    rw [List.find?_map]
    have hkey : (fun row : CheckpointRow => decide (checkpointKey row = (other, streamName))) ∘
        (fun row : CheckpointRow => if row.stream = streamName ∧ row.symbol ∉ activeSymbols then
          { row with state := .offline, lastError := none } else row) =
        fun row => decide (checkpointKey row = (other, streamName)) := by
      funext row
      rw [Function.comp_apply]
      split <;> rfl
    rw [hkey]
    rcases tables.checkpoints.find? _ with _ | row
    · rfl
    · rw [Option.map_some, Option.bind_some, Option.bind_some]
      split <;> rfl
  refine ⟨fun _ h => h, ?_, fun other _ => hsame other⟩
  rw [mergeConfirmed_none]
  exact hsame symbol

end Transactions

section Advances
variable {old mid new : MarketTables} {symbol : Symbol} {time : Option Int} {who : Option Symbol}

/-- Confirmed times only grow and join what they grew from; `who` may confirm for the
first time. -/
structure Advance (old new : MarketTables) (who : Option Symbol) : Prop where
  stored : ∀ symbol time, Stored old symbol time → Stored new symbol time
  grows : ∀ symbol start last, confirmedTime old symbol = some last →
    Covered old symbol start last →
      ∃ later, confirmedTime new symbol = some later ∧ last ≤ later ∧
        Covered new symbol start later
  first : ∀ symbol last, confirmedTime old symbol = none → confirmedTime new symbol = some last →
    some symbol = who ∧ ∃ start, Covered new symbol start last

theorem Covered.mono {start last : Int} (h : Covered old symbol start last)
    (hstored : ∀ symbol time, Stored old symbol time → Stored new symbol time) :
    Covered new symbol start last :=
  ⟨h.le, h.start_dvd, h.last_dvd, fun time hdvd hge hle =>
    hstored symbol time (h.stored time hdvd hge hle)⟩

theorem Advance.refl (tables : MarketTables) (who : Option Symbol) : Advance tables tables who := by
  constructor
  · intro symbol time h
    exact h
  · intro symbol start last hlast hcovered
    exact ⟨last, hlast, le_refl last, hcovered⟩
  · intro symbol last hnone hsome
    rw [hnone] at hsome
    cases hsome

theorem Advance.trans (h : Advance old mid who) (h' : Advance mid new who) : Advance old new who := by
  constructor
  · intro symbol time hold
    exact h'.stored symbol time (h.stored symbol time hold)
  · intro symbol start last hlast hcovered
    obtain ⟨later, hlater, hle, hmid⟩ := h.grows symbol start last hlast hcovered
    obtain ⟨latest, hlatest, hle', hnew⟩ := h'.grows symbol start later hlater hmid
    exact ⟨latest, hlatest, hle.trans hle', hnew⟩
  · intro symbol last hnone hsome
    rcases hmid : confirmedTime mid symbol with _ | between
    · exact h'.first symbol last hmid hsome
    · obtain ⟨hwho, start, hcovered⟩ := h.first symbol between hnone hmid
      obtain ⟨later, hlater, -, hnew⟩ := h'.grows symbol start between hmid hcovered
      rw [hsome] at hlater
      cases hlater
      exact ⟨hwho, start, hnew⟩

/-- A time is confirmed when every minute since the last one is stored. -/
theorem Merged.advance (h : Merged old new symbol time)
    (hjoin : ∀ next ∈ time, ∀ last, confirmedTime old symbol = some last →
      oneMinute ∣ next ∧
        ∀ minute, oneMinute ∣ minute → last < minute → minute ≤ next → Stored new symbol minute)
    (hfirst : ∀ next ∈ time, confirmedTime old symbol = none →
      some symbol = who ∧ ∃ start, Covered new symbol start next) : Advance old new who := by
  have hstored : ∀ symbol time, Stored old symbol time → Stored new symbol time := by
    intro symbol time hold
    exact h.stored _ hold
  constructor
  · exact hstored
  · intro other start last hlast hcovered
    by_cases hother : other = symbol
    · subst hother
      rcases htime : time with _ | next
      · refine ⟨last, ?_, le_refl last, hcovered.mono hstored⟩
        rw [h.merged, hlast, htime, mergeConfirmed_none]
      · obtain ⟨hdvd, hfill⟩ := hjoin next htime last hlast
        refine ⟨max last next, ?_, le_max_left _ _, ?_⟩
        · rw [h.merged, hlast, htime]
          rfl
        · refine ⟨hcovered.le.trans (le_max_left _ _), hcovered.start_dvd, ?_, ?_⟩
          · rcases max_choice last next with hmax | hmax
            · rw [hmax]
              exact hcovered.last_dvd
            · rw [hmax]
              exact hdvd
          · intro minute hminute hge hle
            by_cases hold : minute ≤ last
            · exact hstored _ _ (hcovered.stored minute hminute hge hold)
            · apply hfill minute hminute (not_le.mp hold)
              exact (le_max_iff.mp hle).resolve_left hold
    · refine ⟨last, ?_, le_refl last, hcovered.mono hstored⟩
      rw [h.others other hother]
      exact hlast
  · intro other last hnone hsome
    by_cases hother : other = symbol
    · subst hother
      rw [h.merged, hnone] at hsome
      exact hfirst last hsome hnone
    · rw [h.others other hother, hnone] at hsome
      cases hsome

theorem Merged.quiet (h : Merged old new symbol none) (who : Option Symbol) : Advance old new who := by
  apply h.advance
  · intro next hnext
    cases hnext
  · intro next hnext
    cases hnext

theorem markStreamState_advance (tables : MarketTables) (symbols : List Symbol)
    (state : CheckpointState) (error : Option String) (who : Option Symbol) :
    Advance tables (markStreamState tables symbols streamName state error) who := by
  unfold markStreamState
  induction symbols generalizing tables with
  | nil => exact Advance.refl tables who
  | cons symbol symbols ih =>
    have hfirst := upsertCheckpoint_merged tables symbol state none (error.map .reason) true
      fun _ => rfl
    exact (hfirst.quiet who).trans (ih _)

end Advances

end StructurePulse.MarketData
