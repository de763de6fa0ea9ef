import StructurePulse.MarketData.Live

/-!
# The readiness gate

`_mark_ready` follows every `sync_once` whatever it found, so the gate holds in the runs
whose syncs end well.
-/

namespace StructurePulse.Live
open Library MarketData Universe Store
set_option autoImplicit false

section Statement

/-- The phases in which the flag may be set. -/
def Phase.isOpen : Phase → Bool
  | .selecting atStart => !atStart
  | .waiting | .gapFound => true
  | _ => false

/-- Every active symbol is ready, no shard is disconnected and the worker runs on. -/
structure AllReady (world : LiveWorld) : Prop where
  symbols : ∀ symbol ∈ world.activeSymbols, world.stateOf symbol = some .ready
  shards : ∀ shard ∈ world.stream, shard.isConnected = true
  running : world.quiescing = false

/-- The flag is set only when all is ready, and each cycle found its symbols ready. -/
structure FailsClosed (world : LiveWorld) : Prop where
  flag : world.ready = true → AllReady world
  cycles : ∀ cycle ∈ world.cycles, ∀ entry ∈ cycle, entry.2 = some .ready

/-- The task has not failed, and it had a time to confirm. -/
def endedWell (task : SyncTask) : Bool :=
  match task.phase with
  | .done .failed => false
  | .done .ready => task.checkpointTime.isSome
  | _ => true

variable (settings : Settings)

/-- The steps that keep the gate: a sync ends well for every symbol, with every shard
connected and no shutdown begun; and while the flag is set a refresh selects ready symbols
only, and a candle of an active symbol leaves no gap; a cycle reads its symbols while the flag is
set, or finds them ready all the same. -/
def KeepsGate (world : LiveWorld) : LiveAction → Prop
  | .finish => world.phase = .syncing →
      (∀ task ∈ world.market.tasks, endedWell task = true) ∧
      (∀ shard ∈ world.stream, shard.isConnected = true) ∧ world.quiescing = false
  | .refresh (some answers) now => world.ready = true →
      ∀ symbol ∈ selection settings.upper settings.lower settings.policy answers now,
        world.stateOf symbol = some .ready
  | .candle candle _ => world.ready = true → candle.symbol ∈ world.activeSymbols →
      leavesGap world.market.tables candle = false
  | .cycle => world.woken = true → world.ready = true ∨
      ∀ symbol ∈ world.activeSymbols, world.stateOf symbol = some .ready
  | _ => True

end Statement

section Invariant
variable {settings : Settings} {world next : LiveWorld}

/-- While a sync runs, each active symbol has its task, and a task that ended well has left
its symbol ready. -/
structure Synced (world : LiveWorld) : Prop where
  targets : ∀ symbol ∈ world.activeSymbols,
    ∃ task ∈ world.market.tasks, taskSymbol task = symbol
  distinct : (world.market.tasks.map taskSymbol).Nodup
  done : ∀ task ∈ world.market.tasks, task.phase.isDone = true → endedWell task = true →
    world.stateOf (taskSymbol task) = some .ready

structure Gate (world : LiveWorld) : Prop where
  consistent : Consistent world.universeTables
  flag : world.ready = true → AllReady world ∧ world.phase.isOpen = true
  syncing : world.phase = .syncing → Synced world
  cycles : ∀ cycle ∈ world.cycles, ∀ entry ∈ cycle, entry.2 = some .ready

theorem Gate.notReady (h : Gate world) (hphase : world.phase.isOpen = false) :
    world.ready = false := by
  apply Bool.eq_false_iff.mpr
  intro hready
  rw [(h.flag hready).2] at hphase
  cases hphase

/-- A step after which the flag is clear. -/
theorem Gate.closed (h : Gate world) (htables : next.universeTables = world.universeTables)
    (hcycles : next.cycles = world.cycles) (hready : next.ready = false)
    (hphase : next.phase ≠ .syncing) : Gate next := by
  refine ⟨htables ▸ h.consistent, ?_, fun hsyncing => absurd hsyncing hphase, hcycles ▸ h.cycles⟩
  intro hset
  rw [hready] at hset
  cases hset

/-- A step that changes nothing the gate reads, but may clear the flag. -/
theorem Gate.frame (h : Gate world) (htables : next.universeTables = world.universeTables)
    (hstates : ∀ symbol, next.stateOf symbol = world.stateOf symbol)
    (htasks : next.market.tasks = world.market.tasks) (hphase : next.phase = world.phase)
    (hcycles : ∀ cycle ∈ next.cycles, ∀ entry ∈ cycle, entry.2 = some .ready)
    (hflag : next.ready = true → world.ready = true ∧ next.stream = world.stream ∧
      next.quiescing = world.quiescing) : Gate next := by
  have hactive : next.activeSymbols = world.activeSymbols := by
    unfold LiveWorld.activeSymbols
    rw [htables]
  refine ⟨htables ▸ h.consistent, ?_, ?_, hcycles⟩
  · intro hready
    obtain ⟨hold, hstream, hquiescing⟩ := hflag hready
    obtain ⟨⟨hsymbols, hshards, hrunning⟩, hopen⟩ := h.flag hold
    refine ⟨⟨?_, hstream ▸ hshards, hquiescing.trans hrunning⟩, hphase ▸ hopen⟩
    intro symbol hsymbol
    rw [hstates]
    exact hsymbols symbol (hactive ▸ hsymbol)
  · intro hsyncing
    obtain ⟨htargets, hdistinct, hdone⟩ := h.syncing (hphase ▸ hsyncing)
    refine ⟨?_, htasks ▸ hdistinct, ?_⟩
    · rw [hactive, htasks]
      exact htargets
    · rw [htasks]
      intro task htask htaskDone hended
      rw [hstates]
      exact hdone task htask htaskDone hended

theorem gate_initial (snapshots : List AnalysisSnapshotRecord)
    (candidates : List SignalCandidateRecord) : Gate (initialWorld snapshots candidates) := by
  refine ⟨consistent_initial, ?_, ?_, ?_⟩
  · intro hready
    cases hready
  · intro hphase
    cases hphase
  · intro cycle hcycle
    cases hcycle

theorem Gate.failsClosed (h : Gate world) : FailsClosed world :=
  ⟨fun hready => (h.flag hready).1, h.cycles⟩

end Invariant

section Steps
variable {settings : Settings} {world next : LiveWorld}

theorem marketStep_ok {action : MarketData.Action} {phase : Phase}
    (h : marketStep settings world action phase = .ok next) :
    ∃ market, MarketData.step settings.initialHistoryMinutes settings.batchCandles world.market
        action = .ok market ∧ next = { world with market := market, phase := phase } := by
  obtain ⟨market, hmarket, hnext⟩ := bind_eq_ok.mp h
  cases hnext
  exact ⟨market, hmarket, rfl⟩

/-- A transaction of a phase in which the flag is clear. -/
theorem Gate.marketStep_closed (h : Gate world) {action : MarketData.Action} {phase : Phase}
    (hstep : marketStep settings world action phase = .ok next)
    (hclosed : world.phase.isOpen = false) (hphase : phase ≠ .syncing) : Gate next := by
  obtain ⟨market, -, rfl⟩ := marketStep_ok hstep
  exact h.closed rfl rfl (h.notReady hclosed) hphase

theorem Gate.refreshed (h : Gate world) {answers : Option ProviderAnswers} {now : Int}
    {atStart : Bool} (hstep : refreshUniverse settings world answers now atStart = .ok next)
    (hopen : world.ready = true → atStart = false)
    (hkeeps : KeepsGate settings world (.refresh answers now)) : Gate next := by
  obtain ⟨tables, htables, hnext⟩ := bind_eq_ok.mp hstep
  cases hnext
  obtain ⟨hconsistent, hactive⟩ := refresh_spec h.consistent htables
  refine ⟨hconsistent, ?_, ?_, h.cycles⟩
  · intro hready
    have hopen := hopen hready
    subst hopen
    obtain ⟨⟨hsymbols, hshards, hrunning⟩, -⟩ := h.flag hready
    refine ⟨⟨?_, hshards, hrunning⟩, rfl⟩
    intro symbol hsymbol
    rcases hactive with ⟨-, rfl⟩ | ⟨given, rfl, hperm⟩
    · exact hsymbols symbol hsymbol
    · exact hkeeps hready symbol (hperm.mem_iff.mp hsymbol)
  · intro hphase
    cases hphase

theorem Gate.selected (h : Gate world) {atStart : Bool} (hphase : world.phase = .selecting atStart) :
    Gate (selectSymbols world atStart) := by
  unfold selectSymbols
  simp only
  cases atStart with
  | true =>
    have hready := h.notReady (by rw [hphase]; rfl)
    rw [if_pos rfl]
    split
    · exact h.closed rfl rfl hready Phase.noConfusion
    · exact h.closed rfl rfl hready Phase.noConfusion
  | false =>
    rw [if_neg Bool.false_ne_true]
    split
    · refine ⟨h.consistent, ?_, ?_, h.cycles⟩
      · intro hready
        obtain ⟨⟨hsymbols, hshards, hrunning⟩, -⟩ := h.flag hready
        exact ⟨⟨hsymbols, hshards, hrunning⟩, rfl⟩
      · intro hsyncing
        cases hsyncing
    · exact h.closed rfl rfl rfl Phase.noConfusion

/-- The tasks that start are one for each active symbol. -/
theorem Gate.synced (h : Gate world) {serverTime : Int}
    (hstep : marketStep settings world (.sync (listActiveTargets world.universeTables) serverTime)
      .syncing = .ok next) (hphase : world.phase = .unsynced) : Gate next := by
  obtain ⟨market, hmarket, rfl⟩ := marketStep_ok hstep
  have hready := h.notReady (by rw [hphase]; rfl)
  refine ⟨h.consistent, ?_, ?_, h.cycles⟩
  · intro hset
    rw [hready] at hset
    cases hset
  · intro _
    simp only [MarketData.step] at hmarket
    split at hmarket
    · cases hmarket
      have htargets : (syncTasks world.market.tables (listActiveTargets world.universeTables)
          serverTime).map (fun task => task.target) =
            sortedBy priority (listActiveTargets world.universeTables) := by
        unfold syncTasks
        rw [List.map_map]
        exact List.map_id _
      have hsymbols : ((syncTasks world.market.tables (listActiveTargets world.universeTables)
          serverTime).map taskSymbol).Perm world.activeSymbols := by
        have hmap := congrArg (List.map MarketDataTarget.symbol) htargets
        rw [List.map_map] at hmap
        have hperm := (@sortedBy_perm _ _ _ priority (listActiveTargets world.universeTables)).map
          MarketDataTarget.symbol
        rw [← hmap] at hperm
        exact hperm
      refine ⟨?_, ?_, ?_⟩
      · intro symbol hsymbol
        exact List.mem_map.mp (hsymbols.mem_iff.mpr hsymbol)
      · exact hsymbols.nodup_iff.mpr (listActiveSymbols_nodup h.consistent)
      · intro task htask hdone
        obtain ⟨target, -, rfl⟩ := List.mem_map.mp htask
        cases hdone
    · cases hmarket

/-- A step of a task writes the state of no other task's symbol. -/
theorem Gate.advanced (h : Gate world) {action : MarketData.Action}
    (hstep : marketStep settings world action .syncing = .ok next) (haction : action.isTask = true)
    (hphase : world.phase = .syncing) : Gate next := by
  obtain ⟨market, hmarket, rfl⟩ := marketStep_ok hstep
  have hready := h.notReady (by rw [hphase]; rfl)
  obtain ⟨index, task, outcome, written, htask, hrunning, rfl, houtcome⟩ :=
    step_task haction hmarket
  refine ⟨h.consistent, ?_, ?_, h.cycles⟩
  · intro hset
    rw [hready] at hset
    cases hset
  · intro _
    obtain ⟨htargets, hdistinct, hdone⟩ := h.syncing hphase
    have hsymbols := @World.advance_symbols world.market index task outcome htask
    refine ⟨?_, ?_, ?_⟩
    · intro symbol hsymbol
      have hmem : symbol ∈ world.market.tasks.map taskSymbol :=
        List.mem_map.mpr (htargets symbol hsymbol)
      rw [← hsymbols] at hmem
      exact List.mem_map.mp hmem
    · exact hsymbols ▸ hdistinct
    · intro other hother hotherDone hended
      change checkpointState outcome.1 (taskSymbol other) = some .ready
      rcases World.mem_advance htask hdistinct hother with rfl | ⟨hold, hne⟩
      · have hwritten : written = some .ready := by
          rcases hresult : outcome.2 with _ | ⟨cursor, gapId⟩ | result
          · rw [hresult] at hotherDone
            cases hotherDone
          · rw [hresult] at hotherDone
            cases hotherDone
          · apply houtcome.ready result hresult
            · rintro rfl
              rw [endedWell, hresult] at hended
              cases hended
            · rintro rfl
              rw [endedWell, hresult] at hended
              exact hended
        have hself := houtcome.states.self
        rw [hwritten, Option.some_or] at hself
        exact hself
      · rw [houtcome.states.others (taskSymbol other) hne]
        exact hdone other hold hotherDone hended

/-- The flag is set where every task has ended well. -/
theorem Gate.finished (h : Gate world) (hphase : world.phase = .syncing)
    (hdone : (world.market.tasks.all fun task => task.phase.isDone) = true)
    (hkeeps : KeepsGate settings world .finish) :
    Gate { world with ready := true, phase := .waiting } := by
  obtain ⟨hended, hshards, hrunning⟩ := hkeeps hphase
  obtain ⟨htargets, -, hstates⟩ := h.syncing hphase
  refine ⟨h.consistent, ?_, ?_, h.cycles⟩
  · intro _
    refine ⟨⟨?_, hshards, hrunning⟩, rfl⟩
    intro symbol hsymbol
    obtain ⟨task, htask, rfl⟩ := htargets symbol hsymbol
    exact hstates task htask (List.all_eq_true.mp hdone task htask) (hended task htask)
  · intro hsyncing
    cases hsyncing

/-- A candle of an active symbol confirms the next minute or repeats one. -/
theorem Gate.ingested (h : Gate world) {candle : Candle1m} {now : Int}
    (hstep : ingestCandle world candle now = .ok next)
    (hkeeps : KeepsGate settings world (.candle candle now)) : Gate next := by
  obtain ⟨ingested, hingested, hnext⟩ := bind_eq_ok.mp hstep
  cases hnext
  obtain ⟨written, hwrite, hresult⟩ := ingestLiveCandle_stateWrite hingested
  refine ⟨h.consistent, ?_, ?_, h.cycles⟩
  · intro hready
    obtain ⟨⟨hsymbols, hshards, hrunning⟩, -⟩ := h.flag hready
    refine ⟨⟨?_, hshards, hrunning⟩, ?_⟩
    · intro symbol hsymbol
      change checkpointState ingested.2 symbol = some .ready
      have hold := hsymbols symbol hsymbol
      by_cases hcandle : symbol = candle.symbol
      · subst hcandle
        have hno := hkeeps hready hsymbol
        rcases hresult with ⟨hgap, -, -⟩ | ⟨-, -, rfl | rfl⟩
        · rw [hno] at hgap
          cases hgap
        · rw [hwrite.self, Option.none_or]
          exact hold
        · rw [hwrite.self, Option.some_or]
      · rw [hwrite.others symbol hcandle]
        exact hold
    · simp only
      split <;> rfl
  · simp only
    intro hphase
    split at hphase <;> cases hphase

theorem Gate.step (h : Gate world) {action : LiveAction} (hkeeps : KeepsGate settings world action)
    (hstep : Live.step settings world action = .ok next) : Gate next := by
  cases action with
  | refresh answers now =>
    simp only [Live.step] at hstep
    split at hstep
    · rename_i hphase
      refine h.refreshed hstep ?_ hkeeps
      intro hready
      rw [h.notReady (by rw [hphase]; rfl)] at hready
      cases hready
    · exact h.refreshed hstep (fun _ => rfl) hkeeps
    · cases hstep
  | select =>
    simp only [Live.step] at hstep
    split at hstep
    · rename_i hphase
      cases hstep
      exact h.selected hphase
    · cases hstep
  | markInactive =>
    simp only [Live.step] at hstep
    split at hstep
    · rename_i hphase
      exact h.marketStep_closed hstep (by rw [hphase]; rfl) Phase.noConfusion
    · cases hstep
  | markWarming =>
    simp only [Live.step] at hstep
    split at hstep
    · rename_i hphase
      exact h.marketStep_closed hstep (by rw [hphase]; rfl) Phase.noConfusion
    · cases hstep
  | connect =>
    simp only [Live.step] at hstep
    split at hstep
    · rename_i hphase
      cases hstep
      exact h.closed rfl rfl (h.notReady (by rw [hphase]; rfl)) Phase.noConfusion
    · cases hstep
  | sync serverTime =>
    simp only [Live.step] at hstep
    split at hstep
    · rename_i hphase
      exact h.synced hstep hphase
    · cases hstep
  | task action =>
    simp only [Live.step] at hstep
    split at hstep
    · rename_i hphase
      split at hstep
      · rename_i htask
        exact h.advanced hstep htask hphase
      · cases hstep
    · cases hstep
  | finish =>
    simp only [Live.step] at hstep
    split at hstep
    · rename_i hphase
      split at hstep
      · rename_i hdone
        cases hstep
        exact h.finished hphase hdone hkeeps
      · cases hstep
    · cases hstep
  | reconcile | gap =>
    simp only [Live.step] at hstep
    split at hstep
    · cases hstep
      exact h.closed rfl rfl rfl Phase.noConfusion
    · cases hstep
  | candle candle now =>
    simp only [Live.step] at hstep
    split at hstep
    · exact h.ingested hstep hkeeps
    · cases hstep
  | disconnected index reason =>
    simp only [Live.step] at hstep
    split at hstep
    · split at hstep
      · cases hstep
        exact h.closed rfl rfl rfl Phase.noConfusion
      · cases hstep
    · cases hstep
  | degrade =>
    simp only [Live.step] at hstep
    split at hstep
    · rename_i hphase
      exact h.marketStep_closed hstep (by rw [hphase]; rfl) Phase.noConfusion
    · cases hstep
  | reconnected index =>
    simp only [Live.step] at hstep
    split at hstep
    · rename_i shard hphase hshard
      split at hstep
      · cases hstep
      · rename_i hdown
        cases hstep
        -- a shard that is down keeps the flag clear
        have hready : world.ready = false := by
          apply Bool.eq_false_iff.mpr
          intro hset
          exact hdown ((h.flag hset).1.shards shard (List.mem_of_getElem? hshard))
        exact h.closed rfl rfl hready Phase.noConfusion
    · cases hstep
  | recover =>
    simp only [Live.step] at hstep
    split at hstep
    · rename_i hphase
      exact h.marketStep_closed hstep (by rw [hphase]; rfl) Phase.noConfusion
    · cases hstep
  | repair candles now =>
    obtain ⟨market, hmarket, rfl⟩ := marketStep_ok hstep
    obtain ⟨tables, htables, hmarket⟩ := bind_eq_ok.mp hmarket
    cases hmarket
    exact h.frame rfl (repairCandles_state htables) rfl rfl h.cycles fun hready => ⟨hready, rfl, rfl⟩
  | quiesce =>
    cases hstep
    refine h.frame rfl (fun _ => rfl) rfl rfl h.cycles ?_
    intro hready
    cases hready
  | wake =>
    simp only [Live.step] at hstep
    split at hstep
    · cases hstep
      exact h.frame rfl (fun _ => rfl) rfl rfl h.cycles fun hready => ⟨hready, rfl, rfl⟩
    · cases hstep
  | cycle =>
    simp only [Live.step] at hstep
    split at hstep
    · rename_i hwoken
      cases hstep
      refine h.frame rfl (fun _ => rfl) rfl rfl ?_ fun hready => ⟨hready, rfl, rfl⟩
      intro cycle hcycle entry hentry
      rcases List.mem_append.mp hcycle with hold | hnew
      · exact h.cycles cycle hold entry hentry
      · rw [List.mem_singleton.mp hnew] at hentry
        obtain ⟨symbol, hsymbol, rfl⟩ := List.mem_map.mp hentry
        rcases hkeeps hwoken with hset | hready
        · exact (h.flag hset).1.symbols symbol hsymbol
        · exact hready symbol hsymbol
    · cases hstep
  | store op =>
    simp only [Live.step] at hstep
    split at hstep
    · cases hstep
      exact h.frame rfl (fun _ => rfl) rfl rfl h.cycles fun hready => ⟨hready, rfl, rfl⟩
    · cases hstep

end Steps

section Result

/-- In every run whose steps keep the gate, the flag is set only while every active symbol
is ready, no shard is disconnected and the worker runs on; and no cycle reads a symbol that
is not ready. -/
theorem readiness_fails_closed (settings : Settings) (snapshots : List AnalysisSnapshotRecord)
    (candidates : List SignalCandidateRecord) (actions : List LiveAction)
    (hkeeps : RunMeets (step settings) (KeepsGate settings) (initialWorld snapshots candidates)
      actions) :
    FailsClosed (runAll (step settings) (initialWorld snapshots candidates) actions) := by
  apply Gate.failsClosed
  refine runAll_invariant_of_meets ?_ (gate_initial snapshots candidates) hkeeps
  intro world action next h hmeets hstep
  exact h.step hmeets hstep

section PartialFailure

instance (settings : Settings) (world : LiveWorld) (action : LiveAction) :
    Decidable (KeepsGate settings world action) := by
  unfold KeepsGate
  cases action with
  | refresh answers now => cases answers <;> infer_instance
  | _ => infer_instance

/-- Two assets whose ids and names have no letters. -/
def twoAssets : ProviderAnswers where
  instruments := [⟨"BTCUSDT", "BTC", 0, 480⟩, ⟨"ETHUSDT", "ETH", 0, 480⟩]
  tickers := fun symbol => some ⟨symbol, 100, 100, 1000⟩
  assets := [⟨"1", "BTC", "1", 1, 1000, 1000, none⟩, ⟨"2", "ETH", "2", 2, 500, 500, none⟩]

/-- Upper case is all the texts of the sample have. -/
def smallSettings : Settings where
  upper := id
  lower := id
  policy := ⟨2, 10, 5, 1, []⟩
  rankingFetchLimit := 2
  shardSize := 1
  initialHistoryMinutes := 1
  batchCandles := 1

/-- The start of the service up to the two tasks of the first sync. -/
def startOfService : List LiveAction :=
  [.refresh (some twoAssets) (2 * oneDay), .select, .markInactive, .markWarming, .connect,
    .sync (2 * oneDay), .task (.begin 0 (2 * oneDay)), .task (.begin 1 (2 * oneDay))]

/-- The last closed minute of the sync, in milliseconds. -/
def lastMinuteMs : Int := 2 * 86400000 - 60000

def fillTask (index : Nat) : List LiveAction :=
  [.task (.fetch index [⟨lastMinuteMs, 100, 100, 100, 100, 1, 100⟩] (2 * oneDay)),
    .task (.complete index (2 * oneDay))]

/-- Both symbols are filled; then a shard is lost and comes back. -/
def cleanRun : List LiveAction :=
  startOfService ++ fillTask 0 ++ fillTask 1 ++ [.finish, .wake, .cycle, .disconnected 1 "closed",
    .degrade, .reconnected 1, .recover, .sync (2 * oneDay), .task (.begin 0 (2 * oneDay)),
    .task (.begin 1 (2 * oneDay)), .finish, .wake, .cycle]

/-- The other shard is lost after the flag has let the strategy pass. -/
def lateCycleRun : List LiveAction :=
  cleanRun ++ [.wake, .disconnected 0 "closed", .cycle]

theorem readiness_fails_closed_sample :
    FailsClosed (runAll (step smallSettings) (initialWorld [] []) lateCycleRun) :=
  readiness_fails_closed smallSettings [] [] lateCycleRun (by decide +kernel)

/-- The provider fails for the second symbol; the strategy starts a cycle all the same. -/
def partlyFailedSync : List LiveAction :=
  startOfService ++ fillTask 0 ++ [.task (.raise 1 "ReadTimeout"), .finish, .wake, .cycle]

theorem partly_failed_sync_opens_gate :
    ¬FailsClosed (runAll (step smallSettings) (initialWorld [] []) partlyFailedSync) := by
  intro h
  have hready := (h.flag (by decide +kernel)).symbols "ETHUSDT" (by decide +kernel)
  revert hready
  decide +kernel

end PartialFailure

end Result

end StructurePulse.Live
