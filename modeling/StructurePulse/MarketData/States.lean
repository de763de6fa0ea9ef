import StructurePulse.MarketData.Backfill

/-!
# The states of the kline checkpoints

`StateWrite` is what a transaction does to the checkpoint states: it sets the state of one
symbol or leaves all of them.
-/

namespace StructurePulse.MarketData
open Library SMC Aggregation Store
set_option autoImplicit false

def checkpointState (tables : MarketTables) (symbol : Symbol) : Option CheckpointState :=
  (tables.checkpoint symbol streamName).map fun row => row.state

section Writes
variable {old mid new : MarketTables} {symbol : Symbol} {written : Option CheckpointState}

structure StateWrite (old new : MarketTables) (symbol : Symbol) (written : Option CheckpointState) :
    Prop where
  self : checkpointState new symbol = written.or (checkpointState old symbol)
  others : ∀ other, other ≠ symbol → checkpointState new other = checkpointState old other

theorem checkpointState_congr (h : new.checkpoints = old.checkpoints) (symbol : Symbol) :
    checkpointState new symbol = checkpointState old symbol := by
  unfold checkpointState MarketTables.checkpoint
  rw [h]

theorem StateWrite.of_checkpoints (h : new.checkpoints = old.checkpoints) (symbol : Symbol) :
    StateWrite old new symbol none :=
  ⟨checkpointState_congr h symbol, fun other _ => checkpointState_congr h other⟩

/-- A transaction whose first part leaves the states. -/
theorem StateWrite.comp (h : StateWrite old mid symbol none)
    (h' : StateWrite mid new symbol written) : StateWrite old new symbol written := by
  constructor
  · rw [h'.self, h.self, Option.none_or]
  · intro other hne
    rw [h'.others other hne, h.others other hne]

/-- A state that is not the one written was there before. -/
theorem StateWrite.before (h : StateWrite old new symbol written) {state : CheckpointState}
    (hwritten : written ≠ some state) {other : Symbol}
    (hnew : checkpointState new other = some state) : checkpointState old other = some state := by
  by_cases hother : other = symbol
  · subst hother
    rw [h.self] at hnew
    rcases Option.or_eq_some_iff.mp hnew with hsome | ⟨-, hold⟩
    · exact absurd hsome hwritten
    · exact hold
  · rw [← h.others other hother]
    exact hnew

theorem upsertCheckpoint_stateWrite (tables : MarketTables) (symbol : Symbol)
    (state : CheckpointState) (time : Option Int) (error : Option MarketDataError)
    (preserve : Bool) :
    StateWrite tables (upsertCheckpoint tables symbol streamName state time error preserve) symbol
      (some state) := by
  constructor
  · have hrow : (upsertCheckpoint tables symbol streamName state time error preserve).checkpoint
        symbol streamName = some _ := lookup_upsertRow_self tables.checkpoints _
    unfold checkpointState
    rw [hrow]
    rfl
  · intro other hne
    unfold checkpointState MarketTables.checkpoint upsertCheckpoint
    rw [lookup_upsertRow_of_ne]
    intro heq
    exact hne (congrArg Prod.fst heq).symm

end Writes

section Transactions
variable {old new : MarketTables} {symbol : Symbol}

theorem startGap_stateWrite (tables : MarketTables) (symbol : Symbol) (start stop : Int) :
    StateWrite tables (startGap tables symbol streamName start stop) symbol (some .recovering) :=
  (StateWrite.of_checkpoints (by rfl) symbol).comp (upsertCheckpoint_stateWrite _ symbol _ _ _ _)

theorem completeGap_stateWrite (tables : MarketTables) (gapId : Option Nat) (symbol : Symbol)
    (time now : Int) :
    StateWrite tables (completeGap tables gapId symbol streamName time now) symbol (some .ready) :=
  (StateWrite.of_checkpoints (by rfl) symbol).comp (upsertCheckpoint_stateWrite _ symbol _ _ _ _)

theorem failGap_stateWrite (tables : MarketTables) (gapId : Option Nat) (symbol : Symbol)
    (error : MarketDataError) :
    StateWrite tables (failGap tables gapId symbol streamName error) symbol (some .degraded) :=
  (StateWrite.of_checkpoints (by rfl) symbol).comp (upsertCheckpoint_stateWrite _ symbol _ _ _ _)

theorem saveBatch_stateWrite {candles : List Candle1m} {now : Int}
    (h : saveBatch old symbol streamName candles now = .ok new) :
    ∃ written, StateWrite old new symbol written ∧ written ≠ some .offline := by
  unfold saveBatch at h
  split at h
  · cases h
    exact ⟨none, StateWrite.of_checkpoints rfl symbol, by simp⟩
  · obtain ⟨mid, hmid, hnew⟩ := bind_eq_ok.mp h
    cases hnew
    refine ⟨some .recovering, ?_, by decide⟩
    exact (StateWrite.of_checkpoints (writeCandles_frame hmid).1 symbol).comp
      (upsertCheckpoint_stateWrite mid symbol _ _ _ _)

theorem repairCandles_state {candles : List Candle1m} {now : Int}
    (h : repairCandles old candles now = .ok new) (symbol : Symbol) :
    checkpointState new symbol = checkpointState old symbol := by
  unfold repairCandles at h
  split at h
  · cases h
    rfl
  · exact checkpointState_congr (writeCandles_frame h).1 symbol

/-- The candle lies after the last confirmed minute and is not the next one. -/
def leavesGap (tables : MarketTables) (candle : Candle1m) : Bool :=
  match confirmedTime tables candle.symbol with
  | none => true
  | some last => last < candle.openTime ∧ candle.openTime ≠ last + oneMinute

theorem leavesGap_of_none {candle : Candle1m} (h : confirmedTime old candle.symbol = none) :
    leavesGap old candle = true := by
  unfold leavesGap
  rw [h]

theorem leavesGap_of_some {candle : Candle1m} {last : Int}
    (h : confirmedTime old candle.symbol = some last) :
    leavesGap old candle = decide (last < candle.openTime ∧ candle.openTime ≠ last + oneMinute) := by
  unfold leavesGap
  rw [h]

theorem ingestLiveCandle_stateWrite {candle : Candle1m} {now : Int}
    {ingested : LiveIngestResult × MarketTables}
    (h : ingestLiveCandle old streamName candle now = .ok ingested) :
    ∃ written, StateWrite old ingested.2 candle.symbol written ∧
      (leavesGap old candle = true ∧ ingested.1 = .gap ∧ written = some .degraded ∨
        leavesGap old candle = false ∧ ingested.1 ≠ .gap ∧
          (written = none ∨ written = some .ready)) := by
  obtain ⟨mid, hmid, hnew⟩ := bind_eq_ok.mp h
  have hcandles := StateWrite.of_checkpoints (writeCandles_frame hmid).1 candle.symbol
  split at hnew
  · rename_i hnone
    cases hnew
    exact ⟨some .degraded, hcandles.comp (upsertCheckpoint_stateWrite mid _ _ _ _ _),
      Or.inl ⟨leavesGap_of_none hnone, rfl, rfl⟩⟩
  · rename_i last hlast
    rw [leavesGap_of_some hlast]
    simp only [decide_eq_true_eq, decide_eq_false_iff_not]
    split_ifs at hnew with hduplicate hexpected
    · cases hnew
      refine ⟨none, hcandles, Or.inr ⟨?_, LiveIngestResult.noConfusion, Or.inl rfl⟩⟩
      rintro ⟨hlt, -⟩
      exact absurd hduplicate (not_le.mpr hlt)
    · cases hnew
      refine ⟨some .ready, hcandles.comp (upsertCheckpoint_stateWrite mid _ _ _ _ _),
        Or.inr ⟨?_, LiveIngestResult.noConfusion, Or.inr rfl⟩⟩
      rintro ⟨-, hne⟩
      exact hne hexpected
    · cases hnew
      refine ⟨some .degraded, hcandles.comp (upsertCheckpoint_stateWrite mid _ _ _ _ _), Or.inl ?_⟩
      exact ⟨⟨not_le.mp hduplicate, hexpected⟩, rfl, rfl⟩

/-- A mark sets the state of its symbols. -/
theorem markStreamState_state (tables : MarketTables) (symbols : List Symbol)
    (state : CheckpointState) (error : Option String) (symbol : Symbol) :
    checkpointState (markStreamState tables symbols streamName state error) symbol =
      if symbol ∈ symbols then some state else checkpointState tables symbol := by
  unfold markStreamState
  induction symbols generalizing tables with
  | nil => rfl
  | cons first symbols ih =>
    have hfirst := upsertCheckpoint_stateWrite tables first state none (error.map .reason) true
    rw [List.foldl_cons, ih]
    by_cases hmem : symbol ∈ symbols
    · rw [if_pos hmem, if_pos (List.mem_cons_of_mem first hmem)]
    · rw [if_neg hmem]
      by_cases heq : symbol = first
      · subst heq
        rw [if_pos List.mem_cons_self, hfirst.self, Option.some_or]
      · rw [if_neg, hfirst.others symbol heq]
        intro h
        rcases List.mem_cons.mp h with h | h
        · exact heq h
        · exact hmem h

/-- The active symbols keep their state. -/
theorem markInactiveStreams_state (tables : MarketTables) {activeSymbols : List Symbol}
    {symbol : Symbol} (h : symbol ∈ activeSymbols) :
    checkpointState (markInactiveStreams tables activeSymbols streamName) symbol =
      checkpointState tables symbol := by
  unfold checkpointState MarketTables.checkpoint markInactiveStreams lookup
  rw [List.find?_map]
  have hkey : (fun row : CheckpointRow => decide (checkpointKey row = (symbol, streamName))) ∘
      (fun row : CheckpointRow => if row.stream = streamName ∧ row.symbol ∉ activeSymbols then
        { row with state := .offline, lastError := none } else row) =
      fun row => decide (checkpointKey row = (symbol, streamName)) := by
    funext row
    rw [Function.comp_apply]
    split <;> rfl
  rw [hkey]
  rcases hfound : tables.checkpoints.find? _ with _ | row
  · rfl
  · have hkeyed := List.find?_some hfound
    rw [decide_eq_true_eq] at hkeyed
    have hrow : row.symbol = symbol := congrArg Prod.fst hkeyed
    rw [Option.map_some, Option.map_some, Option.map_some, if_neg]
    rintro ⟨-, hinactive⟩
    exact hinactive (hrow ▸ h)

end Transactions

section Tasks
variable {world next : World} {initialHistory : Int} {batchCandles : Nat} {action : Action}

/-- What a step of a task makes of the states: only its own symbol is written, and a task
that ends well with a time confirmed leaves the symbol ready. -/
structure TaskOutcome (tables : MarketTables) (task : SyncTask) (outcome : MarketTables × TaskPhase)
    (written : Option CheckpointState) : Prop where
  states : StateWrite tables outcome.1 task.target.symbol written
  online : written ≠ some .offline
  ready : ∀ result, outcome.2 = .done result → result ≠ .failed →
    (result = .ready → task.checkpointTime.isSome = true) → written = some .ready

theorem beginTask_outcome (tables : MarketTables) (task : SyncTask) (now : Int) :
    ∃ written, TaskOutcome tables task (beginTask initialHistory tables task now) written := by
  unfold beginTask
  simp only
  split
  · split
    · refine ⟨some .ready, completeGap_stateWrite _ _ _ _ _, by decide, ?_⟩
      intro result _ _ _
      rfl
    · rename_i hnone
      refine ⟨none, StateWrite.of_checkpoints rfl _, by decide, ?_⟩
      intro result hresult _ hconfirmed
      cases hresult
      rw [hnone] at hconfirmed
      exact absurd (hconfirmed rfl) Bool.false_ne_true
  · split
    · refine ⟨some .recovering, startGap_stateWrite _ _ _ _, by decide, ?_⟩
      intro result hresult
      cases hresult
    · refine ⟨none, StateWrite.of_checkpoints rfl _, by decide, ?_⟩
      intro result hresult
      cases hresult

theorem failTask_outcome (tables : MarketTables) (task : SyncTask) (gapId : Option Nat)
    (error : MarketDataError) :
    TaskOutcome tables task (failTask tables task gapId error) (some .degraded) := by
  refine ⟨failGap_stateWrite _ _ _ _, by decide, ?_⟩
  intro result hresult hne
  cases hresult
  exact absurd rfl hne

theorem fetchBatch_outcome (tables : MarketTables) (task : SyncTask) (cursor : Int)
    (gapId : Option Nat) (rows : List Kline) (now : Int) :
    ∃ written, TaskOutcome tables task
      (fetchBatch batchCandles tables task cursor gapId rows now) written := by
  unfold fetchBatch
  simp only
  split
  · exact ⟨_, failTask_outcome tables task gapId _⟩
  · split
    · exact ⟨_, failTask_outcome tables task gapId _⟩
    · rename_i saved hsaved
      obtain ⟨written, hwrite, honline⟩ := saveBatch_stateWrite hsaved
      refine ⟨written, hwrite, honline, ?_⟩
      intro result hresult
      cases hresult

theorem completeTask_outcome (tables : MarketTables) (task : SyncTask) (gapId : Option Nat)
    (now : Int) :
    TaskOutcome tables task
      (completeGap tables gapId task.target.symbol streamName task.lastClosed now,
        .done .recovered) (some .ready) := by
  refine ⟨completeGap_stateWrite _ _ _ _ _, by decide, ?_⟩
  intro result _ _ _
  rfl

/-- The steps of a running task. -/
def Action.isTask : Action → Bool
  | .begin _ _ | .fetch _ _ _ | .raise _ _ | .complete _ _ => true
  | _ => false

/-- A step of a task advances one task that is not done. -/
theorem step_task (h : action.isTask = true)
    (hstep : step initialHistory batchCandles world action = .ok next) :
    ∃ index task outcome written, world.tasks[index]? = some task ∧ task.phase.isDone = false ∧
      next = world.advance index task outcome ∧ TaskOutcome world.tables task outcome written := by
  cases action with
  | sync | crash | ingest | repair | mark | markInactive => cases h
  | begin index now =>
    simp only [step] at hstep
    split at hstep
    · rename_i task htask
      split at hstep
      · rename_i hphase
        cases hstep
        obtain ⟨written, houtcome⟩ := @beginTask_outcome initialHistory
          world.tables task now
        exact ⟨index, task, _, written, htask, by rw [hphase]; rfl, rfl, houtcome⟩
      · cases hstep
    · cases hstep
  | fetch index rows now =>
    simp only [step] at hstep
    split at hstep
    · rename_i task htask
      split at hstep
      · rename_i cursor gapId hphase
        split at hstep
        · cases hstep
          obtain ⟨written, houtcome⟩ := @fetchBatch_outcome batchCandles
            world.tables task cursor gapId rows now
          exact ⟨index, task, _, written, htask, by rw [hphase]; rfl, rfl, houtcome⟩
        · cases hstep
      · cases hstep
    · cases hstep
  | raise index error =>
    simp only [step] at hstep
    split at hstep
    · rename_i task htask
      split at hstep
      · rename_i cursor gapId hphase
        cases hstep
        exact ⟨index, task, _, _, htask, by rw [hphase]; rfl, rfl, failTask_outcome _ _ _ _⟩
      · cases hstep
    · cases hstep
  | complete index now =>
    simp only [step] at hstep
    split at hstep
    · rename_i task htask
      split at hstep
      · rename_i cursor gapId hphase
        split at hstep
        · cases hstep
          exact ⟨index, task, _, _, htask, by rw [hphase]; rfl, rfl, completeTask_outcome _ _ _ _⟩
        · cases hstep
      · cases hstep
    · cases hstep

end Tasks

end StructurePulse.MarketData
