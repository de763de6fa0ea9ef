import StructurePulse.MarketData.Advances
import Mathlib.Data.List.Induction

/-!
# Contiguous candles up to the checkpoint

A checkpoint is advanced by a saved batch, a completed gap and the next live minute. Each
of them joins what was confirmed before, so that no minute is missing from the first
confirmed one to the last.
-/

namespace StructurePulse.MarketData
open Library SMC Aggregation Store
set_option autoImplicit false

section Batches
variable {candles : List Candle1m} {start stop : Int}

theorem validateContiguous_ok (h : validateContiguous candles start stop = .ok ()) :
    (candles.length : Int) = (stop - start).tdiv oneMinute + 1 ∧
      ∀ (index : Nat) candle, candles[index]? = some candle →
        candle.openTime = start + (index : Int) * oneMinute := by
  unfold validateContiguous at h
  simp only at h
  split at h
  · cases h
  · rename_i hlength
    refine ⟨not_not.mp hlength, ?_⟩
    split at h
    · cases h
    · rename_i hfind
      intro index candle hindex
      have hin : (candle, index) ∈ candles.zipIdx := List.mem_zipIdx_iff_getElem?.mpr hindex
      have hkeep := List.find?_eq_none.mp hfind (candle, index) hin
      simpa using hkeep

/-- A batch that passes the check has the candle of every minute, and its last one at the end. -/
theorem validateContiguous_minutes (hstart : oneMinute ∣ start) (hstop : oneMinute ∣ stop)
    (hle : start ≤ stop + oneMinute) (h : validateContiguous candles start stop = .ok ()) :
    (∀ minute, oneMinute ∣ minute → start ≤ minute → minute ≤ stop →
      ∃ candle ∈ candles, candle.openTime = minute) ∧
    (∀ last ∈ candles.getLast?, last.openTime = stop ∧ start ≤ stop) ∧
    (candles.getLast? = none → stop + oneMinute = start) := by
  obtain ⟨hlength, hminutes⟩ := validateContiguous_ok h
  obtain ⟨a, rfl⟩ := hstart
  obtain ⟨b, rfl⟩ := hstop
  have hcount : (candles.length : Int) = b - a + 1 := by
    rw [hlength, ← Int.mul_sub, Int.mul_tdiv_cancel_left _ (by decide)]
  refine ⟨?_, ?_, ?_⟩
  · rintro minute ⟨c, rfl⟩ hge hle'
    have hlow : a ≤ c := by
      unfold oneMinute at hge
      omega
    have hhigh : c ≤ b := by
      unfold oneMinute at hle'
      omega
    have hindex : (c - a).toNat < candles.length := by omega
    refine ⟨candles[(c - a).toNat], List.getElem_mem hindex, ?_⟩
    rw [hminutes (c - a).toNat _ (List.getElem?_eq_getElem hindex)]
    have hcast : ((c - a).toNat : Int) = c - a := Int.toNat_of_nonneg (by omega)
    rw [hcast]
    unfold oneMinute
    omega
  · intro last hlast
    rw [Option.mem_def, List.getLast?_eq_getElem?] at hlast
    have hpos : 0 < candles.length := by
      have hlt := (List.getElem?_eq_some_iff.mp hlast).1
      omega
    rw [hminutes _ _ hlast]
    have hcast : ((candles.length - 1 : Nat) : Int) = b - a := by omega
    rw [hcast]
    unfold oneMinute
    omega
  · intro hnone
    rw [List.getLast?_eq_none_iff] at hnone
    rw [hnone] at hcount
    simp only [List.length_nil] at hcount
    unfold oneMinute
    omega

theorem symbol_closedKlines {symbol : Symbol} {rows : List Kline} {candle : Candle1m}
    (h : candle ∈ closedKlines symbol start stop rows) : candle.symbol = symbol := by
  obtain ⟨row, -, rfl⟩ := List.mem_map.mp (mem_sortedBy.mp h)
  rfl

theorem batchEnd_spec {batchCandles : Nat} {cursor lastClosed : Int} (hcursor : oneMinute ∣ cursor)
    (hclosed : oneMinute ∣ lastClosed) (hle : cursor ≤ lastClosed) :
    oneMinute ∣ batchEnd batchCandles cursor lastClosed ∧
      cursor ≤ batchEnd batchCandles cursor lastClosed + oneMinute ∧
      batchEnd batchCandles cursor lastClosed ≤ lastClosed := by
  unfold batchEnd
  refine ⟨?_, ?_, min_le_right _ _⟩
  · rcases min_choice (cursor + ((batchCandles : Int) - 1) * oneMinute) lastClosed with h | h
    · rw [h]
      exact Int.dvd_add hcursor (Int.dvd_mul_left _ _)
    · rw [h]
      exact hclosed
  · unfold oneMinute at *
    omega

theorem next_minute_le {last minute : Int} (hlast : oneMinute ∣ last) (hminute : oneMinute ∣ minute)
    (hlt : last < minute) : last + oneMinute ≤ minute := by
  obtain ⟨a, rfl⟩ := hlast
  obtain ⟨b, rfl⟩ := hminute
  unfold oneMinute at *
  omega

end Batches

section Tasks
variable {old new tables : MarketTables} {task : SyncTask} {who : Option Symbol}

/-- A task in the loop has stored the minutes from `floor` up to its cursor. -/
structure Filling (tables : MarketTables) (task : SyncTask) (floor cursor : Int) : Prop where
  floor_dvd : oneMinute ∣ floor
  cursor_dvd : oneMinute ∣ cursor
  floor_le : floor ≤ cursor
  entered : floor ≤ task.lastClosed
  stored : ∀ minute, oneMinute ∣ minute → floor ≤ minute → minute < cursor →
    Stored tables task.target.symbol minute
  joined : ∀ last, confirmedTime tables task.target.symbol = some last → floor ≤ last + oneMinute

structure TaskSound (tables : MarketTables) (task : SyncTask) : Prop where
  closed_dvd : oneMinute ∣ task.lastClosed
  read : ∀ time ∈ task.checkpointTime, oneMinute ∣ time ∧
    ∃ last, confirmedTime tables task.target.symbol = some last ∧ time ≤ last
  unread : task.phase = .waiting → task.checkpointTime = none →
    confirmedTime tables task.target.symbol = none
  filling : ∀ cursor gapId, task.phase = .filling cursor gapId →
    ∃ floor, Filling tables task floor cursor

/-- Every confirmed time is covered. -/
def AllCovered (tables : MarketTables) : Prop :=
  ∀ symbol last, confirmedTime tables symbol = some last → ∃ start, Covered tables symbol start last

theorem AllCovered.advance (h : AllCovered old) (hadvance : Advance old new who) :
    AllCovered new := by
  intro symbol last hlast
  rcases hold : confirmedTime old symbol with _ | before
  · exact (hadvance.first symbol last hold hlast).2
  · obtain ⟨start, hcovered⟩ := h symbol before hold
    obtain ⟨later, hlater, -, hnew⟩ := hadvance.grows symbol start before hold hcovered
    rw [hlast] at hlater
    cases hlater
    exact ⟨start, hnew⟩

/-- Other tasks and writers leave a task sound. -/
theorem TaskSound.advance (h : TaskSound old task) (hcovered : AllCovered old)
    (hadvance : Advance old new who) (hwho : some task.target.symbol ≠ who) : TaskSound new task := by
  have hgrows : ∀ last, confirmedTime old task.target.symbol = some last →
      ∃ later, confirmedTime new task.target.symbol = some later ∧ last ≤ later := by
    intro last hlast
    obtain ⟨start, hstart⟩ := hcovered _ last hlast
    obtain ⟨later, hlater, hle, -⟩ := hadvance.grows _ start last hlast hstart
    exact ⟨later, hlater, hle⟩
  have hnone : confirmedTime old task.target.symbol = none →
      confirmedTime new task.target.symbol = none := by
    intro hold
    rcases hnew : confirmedTime new task.target.symbol with _ | last
    · rfl
    · exact absurd (hadvance.first _ last hold hnew).1 hwho
  constructor
  · exact h.closed_dvd
  · intro time htime
    obtain ⟨hdvd, last, hlast, hle⟩ := h.read time htime
    obtain ⟨later, hlater, hle'⟩ := hgrows last hlast
    exact ⟨hdvd, later, hlater, hle.trans hle'⟩
  · intro hphase htime
    exact hnone (h.unread hphase htime)
  · intro cursor gapId hphase
    obtain ⟨floor, hfloor⟩ := h.filling cursor gapId hphase
    refine ⟨floor, hfloor.floor_dvd, hfloor.cursor_dvd, hfloor.floor_le, hfloor.entered, ?_, ?_⟩
    · intro minute hdvd hge hlt
      exact hadvance.stored _ _ (hfloor.stored minute hdvd hge hlt)
    · intro later hlater
      rcases hold : confirmedTime old task.target.symbol with _ | last
      · rw [hnone hold] at hlater
        cases hlater
      · obtain ⟨latest, hlatest, hle⟩ := hgrows last hold
        rw [hlater] at hlatest
        cases hlatest
        have hjoined := hfloor.joined last hold
        omega

/-- A finished task has nothing left to keep. -/
theorem TaskSound.done (h : TaskSound tables task) (result : SyncResult) :
    TaskSound tables { task with phase := .done result } := by
  refine ⟨h.closed_dvd, h.read, ?_, ?_⟩
  · intro hphase
    cases hphase
  · intro cursor gapId hphase
    cases hphase

end Tasks

section Acting
variable {tables : MarketTables} {task : SyncTask}

/-- The outcome of a step of a task. -/
structure Acted (old : MarketTables) (task : SyncTask) (outcome : MarketTables × TaskPhase) :
    Prop where
  advance : Advance old outcome.1 (some task.target.symbol)
  sound : TaskSound outcome.1 { task with phase := outcome.2 }

/-- A step that confirms nothing for the first time and ends the task. -/
theorem Acted.of_done (h : TaskSound tables task) (hcovered : AllCovered tables)
    {new : MarketTables} (hadvance : Advance tables new none) (result : SyncResult) :
    Acted tables task (new, .done result) := by
  constructor
  · refine ⟨hadvance.stored, hadvance.grows, ?_⟩
    intro symbol last hnone hsome
    exact absurd (hadvance.first symbol last hnone hsome).1 (Option.some_ne_none symbol)
  · exact (h.advance hcovered hadvance (Option.some_ne_none _)).done result

theorem failTask_acted (h : TaskSound tables task) (hcovered : AllCovered tables)
    (gapId : Option Nat) (error : MarketDataError) :
    Acted tables task (failTask tables task gapId error) :=
  Acted.of_done h hcovered ((failGap_merged tables gapId _ error).quiet none) .failed

theorem startTime_spec (h : TaskSound tables task) (initialHistory : Int) :
    oneMinute ∣ startTime initialHistory task.target task.checkpointTime task.lastClosed ∧
      (task.phase = .waiting → ∀ last, confirmedTime tables task.target.symbol = some last →
        startTime initialHistory task.target task.checkpointTime task.lastClosed ≤
          last + oneMinute) := by
  unfold startTime
  rcases htime : task.checkpointTime with _ | time
  · refine ⟨?_, ?_⟩
    · simp only
      rcases max_choice (task.lastClosed - (initialHistory - 1) * oneMinute)
          (minuteFloor task.target.launchTime) with hmax | hmax
      · rw [hmax]
        exact Int.dvd_sub h.closed_dvd (Int.dvd_mul_left _ _)
      · rw [hmax]
        exact dvd_minuteFloor _
    · intro hphase last hlast
      rw [h.unread hphase htime] at hlast
      cases hlast
  · obtain ⟨hdvd, last, hlast, hle⟩ := h.read time htime
    refine ⟨Int.dvd_add hdvd (dvd_refl _), ?_⟩
    intro _ last' hlast'
    rw [hlast] at hlast'
    cases hlast'
    simp only
    omega

theorem beginTask_acted (h : TaskSound tables task) (hcovered : AllCovered tables)
    (hphase : task.phase = .waiting) (initialHistory now : Int) :
    Acted tables task (beginTask initialHistory tables task now) := by
  obtain ⟨hdvd, hjoined⟩ := startTime_spec h initialHistory
  have hjoined := hjoined hphase
  unfold beginTask
  simp only
  split
  · split
    · rename_i time htime
      apply Acted.of_done h hcovered
      obtain ⟨htimeDvd, last, hlast, hle⟩ := h.read time htime
      refine (completeGap_merged tables none _ time now).advance ?_ ?_
      · intro next hnext last' hlast'
        cases hnext
        rw [hlast] at hlast'
        cases hlast'
        refine ⟨htimeDvd, ?_⟩
        intro minute _ hlt hle'
        omega
      · intro next _ hnone
        rw [hlast] at hnone
        cases hnone
    · exact Acted.of_done h hcovered (Advance.refl tables none) .ready
  · rename_i hentered
    have hentered := not_lt.mp hentered
    -- the loop starts at its floor
    have hfilling : ∀ new gapId, Merged tables new task.target.symbol none →
        Acted tables task (new, .filling (startTime initialHistory task.target task.checkpointTime
          task.lastClosed) gapId) := by
      intro new gapId hmerged
      have hquiet := hmerged.quiet (some task.target.symbol)
      have hsame : confirmedTime new task.target.symbol =
          confirmedTime tables task.target.symbol := by
        rw [hmerged.merged, mergeConfirmed_none]
      refine ⟨hquiet, h.closed_dvd, ?_, ?_, ?_⟩
      · intro time htime
        obtain ⟨htimeDvd, last, hlast, hle⟩ := h.read time htime
        exact ⟨htimeDvd, last, hsame.trans hlast, hle⟩
      · intro hwaiting
        cases hwaiting
      · intro cursor gapId' heq
        cases heq
        refine ⟨_, hdvd, hdvd, le_refl _, hentered, ?_, ?_⟩
        · intro minute _ hge hlt
          omega
        · intro last hlast
          exact hjoined last (hsame.symm.trans hlast)
    split
    · exact hfilling _ _ (startGap_merged tables _ _ _)
    · exact hfilling _ _ (Merged.refl tables _)

theorem fetchBatch_acted (h : TaskSound tables task) (hcovered : AllCovered tables) {cursor : Int}
    {gapId : Option Nat} (hphase : task.phase = .filling cursor gapId)
    (hcursor : cursor ≤ task.lastClosed) (batchCandles : Nat) (rows : List Kline) (now : Int) :
    Acted tables task (fetchBatch batchCandles tables task cursor gapId rows now) := by
  obtain ⟨floor, hfloor⟩ := h.filling cursor gapId hphase
  obtain ⟨hstopDvd, hstopGe, hstopLe⟩ :=
    @batchEnd_spec batchCandles cursor task.lastClosed hfloor.cursor_dvd h.closed_dvd hcursor
  unfold fetchBatch
  simp only
  generalize hstop : batchEnd batchCandles cursor task.lastClosed = stop at *
  split
  · exact failTask_acted h hcovered gapId _
  · rename_i hvalid
    obtain ⟨hminutes, hlast, hempty⟩ :=
      validateContiguous_minutes hfloor.cursor_dvd hstopDvd hstopGe hvalid
    split
    · exact failTask_acted h hcovered gapId _
    · rename_i new hsave
      obtain ⟨hmerged, hsaved⟩ := saveBatch_merged hsave
      have hstored : ∀ minute, oneMinute ∣ minute → floor ≤ minute → minute ≤ stop →
          Stored new task.target.symbol minute := by
        intro minute hdvd hge hle
        by_cases hold : minute < cursor
        · exact hmerged.stored _ (hfloor.stored minute hdvd hge hold)
        · obtain ⟨candle, hcandle, rfl⟩ := hminutes minute hdvd (not_lt.mp hold) hle
          have hstoredCandle := hsaved candle hcandle
          rw [symbol_closedKlines hcandle] at hstoredCandle
          exact hstoredCandle
      have htime : ∀ next ∈ ((closedKlines task.target.symbol cursor stop rows).getLast?.map
          Candle1m.openTime), next = stop ∧ cursor ≤ stop := by
        intro next hnext
        obtain ⟨last, hmem, rfl⟩ := Option.map_eq_some_iff.mp hnext
        exact hlast last hmem
      have hadvance : Advance tables new (some task.target.symbol) := by
        apply hmerged.advance
        · intro next hnext last hconfirmed
          obtain ⟨rfl, -⟩ := htime next hnext
          refine ⟨hstopDvd, ?_⟩
          intro minute hdvd hlt hle
          obtain ⟨start, hstart⟩ := hcovered _ last hconfirmed
          have hnext := next_minute_le hstart.last_dvd hdvd hlt
          have hjoined := hfloor.joined last hconfirmed
          exact hstored minute hdvd (by omega) hle
        · intro next hnext _
          obtain ⟨rfl, hle⟩ := htime next hnext
          refine ⟨rfl, floor, hfloor.floor_le.trans hle, hfloor.floor_dvd, hstopDvd, ?_⟩
          intro minute hdvd hge hle'
          exact hstored minute hdvd hge hle'
      have hgrows : ∀ last, confirmedTime tables task.target.symbol = some last →
          ∃ later, confirmedTime new task.target.symbol = some later ∧ last ≤ later := by
        intro last hconfirmed
        obtain ⟨start, hstart⟩ := hcovered _ last hconfirmed
        obtain ⟨later, hlater, hle, -⟩ := hadvance.grows _ start last hconfirmed hstart
        exact ⟨later, hlater, hle⟩
      refine ⟨hadvance, h.closed_dvd, ?_, ?_, ?_⟩
      · intro time hread
        obtain ⟨hdvd, last, hconfirmed, hle⟩ := h.read time hread
        obtain ⟨later, hlater, hle'⟩ := hgrows last hconfirmed
        exact ⟨hdvd, later, hlater, hle.trans hle'⟩
      · intro hwaiting
        cases hwaiting
      · intro cursor' gapId' heq
        cases heq
        refine ⟨floor, hfloor.floor_dvd, Int.dvd_add hstopDvd (dvd_refl _),
          hfloor.floor_le.trans hstopGe, hfloor.entered, ?_, ?_⟩
        · intro minute hdvd hge hlt
          apply hstored minute hdvd hge
          by_contra hgt
          have hnext := next_minute_le hstopDvd hdvd (not_le.mp hgt)
          omega
        · intro later hlater
          rcases hold : confirmedTime tables task.target.symbol with _ | last
          · rw [hmerged.merged, hold] at hlater
            obtain ⟨rfl, hle⟩ := htime later hlater
            have hfloorLe := hfloor.floor_le
            unfold oneMinute
            omega
          · obtain ⟨latest, hlatest, hle⟩ := hgrows last hold
            rw [hlater] at hlatest
            cases hlatest
            have hjoined := hfloor.joined last hold
            omega

theorem completeTask_acted (h : TaskSound tables task) (hcovered : AllCovered tables) {cursor : Int}
    {gapId : Option Nat} (hphase : task.phase = .filling cursor gapId)
    (hcursor : task.lastClosed < cursor) (now : Int) :
    Acted tables task (completeGap tables gapId task.target.symbol streamName task.lastClosed now,
      .done .recovered) := by
  obtain ⟨floor, hfloor⟩ := h.filling cursor gapId hphase
  have hmerged := completeGap_merged tables gapId task.target.symbol task.lastClosed now
  have hstored : ∀ minute, oneMinute ∣ minute → floor ≤ minute → minute ≤ task.lastClosed →
      Stored (completeGap tables gapId task.target.symbol streamName task.lastClosed now)
        task.target.symbol minute := by
    intro minute hdvd hge hle
    exact hmerged.stored _ (hfloor.stored minute hdvd hge (by omega))
  have hadvance : Advance tables
      (completeGap tables gapId task.target.symbol streamName task.lastClosed now)
      (some task.target.symbol) := by
    apply hmerged.advance
    · intro next hnext last hconfirmed
      cases hnext
      refine ⟨h.closed_dvd, ?_⟩
      intro minute hdvd hlt hle
      obtain ⟨start, hstart⟩ := hcovered _ last hconfirmed
      have hnext := next_minute_le hstart.last_dvd hdvd hlt
      have hjoined := hfloor.joined last hconfirmed
      exact hstored minute hdvd (by omega) hle
    · intro next hnext _
      cases hnext
      exact ⟨rfl, floor, hfloor.entered, hfloor.floor_dvd, h.closed_dvd, hstored⟩
  refine ⟨hadvance, h.closed_dvd, ?_, ?_, ?_⟩
  · intro time hread
    obtain ⟨hdvd, last, hconfirmed, hle⟩ := h.read time hread
    obtain ⟨start, hstart⟩ := hcovered _ last hconfirmed
    obtain ⟨later, hlater, hle', -⟩ := hadvance.grows _ start last hconfirmed hstart
    exact ⟨hdvd, later, hlater, hle.trans hle'⟩
  · intro hwaiting
    cases hwaiting
  · intro cursor' gapId' heq
    cases heq

end Acting

section Runs
variable {initialHistory : Int} {batchCandles : Nat} {world next : World} {action : Action}

/-- What every run keeps: confirmed times are covered, and the tasks are sound. -/
structure Contiguous (world : World) : Prop where
  covered : AllCovered world.tables
  tasks : ∀ task ∈ world.tasks, TaskSound world.tables task
  distinct : (world.tasks.map taskSymbol).Nodup

theorem Contiguous.written (h : Contiguous world) {tables : MarketTables}
    (hadvance : Advance world.tables tables none) :
    Contiguous { world with tables := tables } := by
  refine ⟨h.covered.advance hadvance, ?_, h.distinct⟩
  intro task htask
  exact (h.tasks task htask).advance h.covered hadvance (Option.some_ne_none _)

theorem Contiguous.acted (h : Contiguous world) {index : Nat} {task : SyncTask}
    (htask : world.tasks[index]? = some task) {outcome : MarketTables × TaskPhase}
    (hacted : Acted world.tables task outcome) :
    Contiguous (world.advance index task outcome) := by
  refine ⟨h.covered.advance hacted.advance, ?_, ?_⟩
  · intro other hother
    rcases World.mem_advance htask h.distinct hother with rfl | ⟨hmem, hne⟩
    · exact hacted.sound
    · exact (h.tasks other hmem).advance h.covered hacted.advance fun hsame =>
        hne (Option.some.inj hsame)
  · rw [World.advance_symbols htask]
    exact h.distinct

theorem syncTasks_sound (hcovered : AllCovered world.tables) (targets : List MarketDataTarget)
    (serverTime : Int) :
    ∀ task ∈ syncTasks world.tables targets serverTime, TaskSound world.tables task := by
  intro task htask
  obtain ⟨target, -, rfl⟩ := List.mem_map.mp htask
  constructor
  · exact Int.dvd_sub (dvd_minuteFloor serverTime) (dvd_refl _)
  · intro time htime
    obtain ⟨start, hstart⟩ := hcovered _ time htime
    exact ⟨hstart.last_dvd, time, htime, le_refl time⟩
  · intro _ hnone
    exact hnone
  · intro cursor gapId hphase
    cases hphase

theorem Contiguous.step (h : Contiguous world)
    (hstep : step initialHistory batchCandles world action = .ok next) :
    Contiguous next ∧ ∃ who, Advance world.tables next.tables who := by
  cases action with
  | sync targets serverTime =>
    simp only [MarketData.step] at hstep
    split at hstep
    · rename_i hidle
      cases hstep
      refine ⟨⟨h.covered, syncTasks_sound h.covered targets serverTime, ?_⟩, none,
        Advance.refl _ none⟩
      unfold syncTasks
      rw [List.map_map]
      exact ((sortedBy_perm targets).map MarketDataTarget.symbol).nodup_iff.mpr hidle.2
    · cases hstep
  | begin index now =>
    simp only [MarketData.step] at hstep
    split at hstep
    · rename_i task htask
      split at hstep
      · rename_i hphase
        cases hstep
        have hsound := h.tasks task (List.mem_of_getElem? htask)
        have hacted := beginTask_acted hsound h.covered hphase initialHistory now
        exact ⟨h.acted htask hacted, _, hacted.advance⟩
      · cases hstep
    · cases hstep
  | fetch index rows now =>
    simp only [MarketData.step] at hstep
    split at hstep
    · rename_i task htask
      split at hstep
      · rename_i cursor gapId hphase
        split at hstep
        · rename_i hcursor
          cases hstep
          have hsound := h.tasks task (List.mem_of_getElem? htask)
          have hacted := fetchBatch_acted hsound h.covered hphase hcursor batchCandles rows now
          exact ⟨h.acted htask hacted, _, hacted.advance⟩
        · cases hstep
      · cases hstep
    · cases hstep
  | raise index error =>
    simp only [MarketData.step] at hstep
    split at hstep
    · rename_i task htask
      split at hstep
      · rename_i cursor gapId hphase
        cases hstep
        have hsound := h.tasks task (List.mem_of_getElem? htask)
        have hacted := failTask_acted hsound h.covered gapId (.reason error)
        exact ⟨h.acted htask hacted, _, hacted.advance⟩
      · cases hstep
    · cases hstep
  | complete index now =>
    simp only [MarketData.step] at hstep
    split at hstep
    · rename_i task htask
      split at hstep
      · rename_i cursor gapId hphase
        split at hstep
        · rename_i hcursor
          cases hstep
          have hsound := h.tasks task (List.mem_of_getElem? htask)
          have hacted := completeTask_acted hsound h.covered hphase hcursor now
          exact ⟨h.acted htask hacted, _, hacted.advance⟩
        · cases hstep
      · cases hstep
    · cases hstep
  | crash =>
    cases hstep
    refine ⟨⟨h.covered, ?_, List.nodup_nil⟩, none, Advance.refl _ none⟩
    intro task htask
    cases htask
  | ingest candle now =>
    obtain ⟨ingested, hingested, hnext⟩ := bind_eq_ok.mp hstep
    cases hnext
    obtain ⟨time, hmerged, htime⟩ := ingestLiveCandle_merged hingested
    have hadvance : Advance world.tables ingested.2 none := by
      apply hmerged.advance
      · intro minute hminute last hlast
        obtain ⟨last', hlast', rfl, hstored⟩ := htime minute hminute
        rw [hlast] at hlast'
        cases hlast'
        obtain ⟨start, hstart⟩ := h.covered _ last hlast
        have hdvd := Int.dvd_add hstart.last_dvd (dvd_refl oneMinute)
        refine ⟨hdvd, ?_⟩
        intro other hother hlt hle
        have hnext := next_minute_le hstart.last_dvd hother hlt
        rw [le_antisymm hle hnext]
        exact hstored
      · intro minute hminute hnone
        obtain ⟨last, hlast, -, -⟩ := htime minute hminute
        rw [hlast] at hnone
        cases hnone
    exact ⟨h.written hadvance, none, hadvance⟩
  | repair candles now =>
    obtain ⟨tables, htables, hnext⟩ := bind_eq_ok.mp hstep
    cases hnext
    have hadvance := (repairCandles_merged htables "").quiet none
    exact ⟨h.written hadvance, none, hadvance⟩
  | mark symbols state error =>
    cases hstep
    have hadvance := markStreamState_advance world.tables symbols state error none
    exact ⟨h.written hadvance, none, hadvance⟩
  | markInactive activeSymbols =>
    cases hstep
    have hadvance := (markInactiveStreams_merged world.tables activeSymbols "").quiet none
    exact ⟨h.written hadvance, none, hadvance⟩

theorem contiguous_initial : Contiguous {} := by
  refine ⟨?_, ?_, List.nodup_nil⟩
  · intro symbol last hlast
    cases hlast
  · intro task htask
    cases htask

/-- A covered time only grows in the course of a run, with the same first minute. -/
theorem Contiguous.run_grows (h : Contiguous world) (actions : List Action) :
    ∀ symbol start last, confirmedTime world.tables symbol = some last →
      Covered world.tables symbol start last →
        ∃ later, confirmedTime (runAll (MarketData.step initialHistory batchCandles) world
            actions).tables symbol = some later ∧ last ≤ later ∧
          Covered (runAll (MarketData.step initialHistory batchCandles) world actions).tables symbol
            start later := by
  intro symbol start
  refine runAll_relates (R := fun early late : World => ∀ last,
      confirmedTime early.tables symbol = some last → Covered early.tables symbol start last →
        ∃ later, confirmedTime late.tables symbol = some later ∧ last ≤ later ∧
          Covered late.tables symbol start later)
    (P := Contiguous) ?_ ?_ ?_ ?_ h actions
  · intro world last hlast hcovered
    exact ⟨last, hlast, le_refl last, hcovered⟩
  · intro early mid late h h' last hlast hcovered
    obtain ⟨later, hlater, hle, hmid⟩ := h last hlast hcovered
    obtain ⟨latest, hlatest, hle', hlate⟩ := h' later hlater hmid
    exact ⟨latest, hlatest, hle.trans hle', hlate⟩
  · intro world action next hworld hstep
    exact (hworld.step hstep).1
  · intro world action next hworld hstep last hlast hcovered
    obtain ⟨who, hadvance⟩ := (hworld.step hstep).2
    exact hadvance.grows symbol start last hlast hcovered

theorem contiguous_run (actions : List Action) : Contiguous (run initialHistory batchCandles actions) :=
  runAll_invariant (fun _ _ _ h hstep => (Contiguous.step h hstep).1) contiguous_initial actions

end Runs

section Result

/-- A window that is answered is the whole window. -/
theorem mem_loadReconciled1mWindow {data : Store.MarketData} {symbol : Symbol} {start stop : Int}
    (hanswer : loadReconciled1mWindow data symbol start stop ≠ []) (candle : Candle1m) :
    candle ∈ loadReconciled1mWindow data symbol start stop ↔
      candle ∈ data.candles ∧ candle.symbol = symbol ∧ start ≤ candle.openTime ∧
        candle.openTime ≤ stop := by
  have hwindow : loadReconciled1mWindow data symbol start stop = data.window symbol start stop := by
    unfold loadReconciled1mWindow at hanswer ⊢
    split at hanswer
    · exact absurd rfl hanswer
    · rename_i hle
      rw [if_neg hle]
      split at hanswer
      · exact absurd rfl hanswer
      · simp only at hanswer ⊢
        split_ifs at hanswer ⊢ <;> first | rfl | exact absurd rfl hanswer
  rw [hwindow]
  unfold Store.MarketData.window
  rw [mem_sortedBy, List.mem_filter, decide_eq_true_eq]

variable (initialHistory : Int) (batchCandles : Nat)

theorem run_grows {symbol : Symbol} (earlier more : List Action) {start last : Int}
    (hlast : confirmedTime (run initialHistory batchCandles earlier).tables symbol = some last)
    (hcovered : Covered (run initialHistory batchCandles earlier).tables symbol start last) :
    ∃ later, confirmedTime (run initialHistory batchCandles (earlier ++ more)).tables symbol =
        some later ∧ last ≤ later ∧
      Covered (run initialHistory batchCandles (earlier ++ more)).tables symbol start later := by
  unfold run
  rw [runAll_append]
  exact (contiguous_run earlier).run_grows more symbol start last hlast hcovered

/-- One first minute serves the whole run: the one of the first confirmation. -/
theorem first_minute (actions : List Action) (symbol : Symbol) :
    ∃ start, ∀ earlier, earlier <+: actions →
      ∀ last, confirmedTime (run initialHistory batchCandles earlier).tables symbol = some last →
        Covered (run initialHistory batchCandles earlier).tables symbol start last := by
  induction actions using List.reverseRecOn with
  | nil =>
    refine ⟨0, ?_⟩
    intro earlier hprefix last hlast
    rw [List.prefix_nil.mp hprefix] at hlast
    cases hlast
  | append_singleton actions action ih =>
    obtain ⟨start, hstart⟩ := ih
    by_cases hold : ∃ earlier, earlier <+: actions ∧ ∃ last,
        confirmedTime (run initialHistory batchCandles earlier).tables symbol = some last
    · obtain ⟨earlier, hprefix, last, hlast⟩ := hold
      refine ⟨start, ?_⟩
      intro other hother time htime
      rcases List.prefix_concat_iff.mp hother with rfl | hother
      · obtain ⟨more, rfl⟩ := hprefix
        obtain ⟨later, hlater, -, hcovered⟩ := run_grows initialHistory batchCandles earlier
          (more ++ [action]) hlast (hstart earlier ⟨more, rfl⟩ last hlast)
        rw [← List.append_assoc, htime] at hlater
        cases hlater
        rw [← List.append_assoc] at hcovered
        exact hcovered
      · exact hstart other hother time htime
    · -- nothing was confirmed before the last action
      rcases hnew : confirmedTime (run initialHistory batchCandles (actions ++ [action])).tables
          symbol with _ | last
      · refine ⟨0, ?_⟩
        intro other hother time htime
        rcases List.prefix_concat_iff.mp hother with rfl | hother
        · rw [hnew] at htime
          cases htime
        · exact absurd ⟨other, hother, time, htime⟩ hold
      · obtain ⟨first, hfirst⟩ := (contiguous_run (actions ++ [action])).covered symbol last hnew
        refine ⟨first, ?_⟩
        intro other hother time htime
        rcases List.prefix_concat_iff.mp hother with rfl | hother
        · rw [hnew] at htime
          cases htime
          exact hfirst
        · exact absurd ⟨other, hother, time, htime⟩ hold

/-- In every run, from one first minute on, every minute up to the confirmed time is
stored; the confirmed time never decreases; and a window the repository answers is the
list of the stored candles of its minutes. -/
theorem checkpoint_contiguity (actions : List Action) (symbol : Symbol) :
    (∃ start, ∀ earlier, earlier <+: actions →
      ∀ last, confirmedTime (run initialHistory batchCandles earlier).tables symbol = some last →
        Covered (run initialHistory batchCandles earlier).tables symbol start last) ∧
    (∀ earlier later, earlier <+: later → later <+: actions →
      ∀ last, confirmedTime (run initialHistory batchCandles earlier).tables symbol = some last →
        ∃ time, confirmedTime (run initialHistory batchCandles later).tables symbol = some time ∧
          last ≤ time) ∧
    ∀ start stop, loadReconciled1mWindow (run initialHistory batchCandles actions).tables.data symbol
        start stop ≠ [] →
      (loadReconciled1mWindow (run initialHistory batchCandles actions).tables.data symbol start
        stop).map Candle1m.openTime = requestedMinutes start stop ∧
      ∀ candle, candle ∈ loadReconciled1mWindow
          (run initialHistory batchCandles actions).tables.data symbol start stop ↔
        candle ∈ (run initialHistory batchCandles actions).tables.candles ∧ candle.symbol = symbol ∧
          start ≤ candle.openTime ∧ candle.openTime ≤ stop := by
  refine ⟨first_minute initialHistory batchCandles actions symbol, ?_, ?_⟩
  · rintro earlier later ⟨more, rfl⟩ - last hlast
    obtain ⟨start, hcovered⟩ := (contiguous_run earlier).covered symbol last hlast
    obtain ⟨time, htime, hle, -⟩ := run_grows initialHistory batchCandles earlier more hlast hcovered
    exact ⟨time, htime, hle⟩
  · intro start stop hanswer
    refine ⟨?_, mem_loadReconciled1mWindow hanswer⟩
    rcases loadReconciled1mWindow_spec (run initialHistory batchCandles actions).tables.data symbol
        start stop with hnil | hminutes
    · exact absurd hnil hanswer
    · exact hminutes

end Result

end StructurePulse.MarketData
