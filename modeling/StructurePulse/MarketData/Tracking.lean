import StructurePulse.MarketData.Readiness

/-!
# Market data of the tracked signals

A refresh knows nothing of the signals: the symbols of the open ones are served for as long
as every refresh happens to select them.
-/

namespace StructurePulse.Live
open Library MarketData Universe Store Signals Strategy
set_option autoImplicit false

section Signals

/-- The symbols with a signal in preparing, active, entered or tp1_reached. -/
def trackedSymbols (db : Database) : List Symbol :=
  (db.signals.filter fun signal => signal.status.isActive).map SignalRecord.symbol

/-- The symbols of the signals a publication prepares. -/
def preparedSymbols (config : SignalPolicyConfig) (publicationTime : Int) :
    List SignalObservation → List (SignalCandidateRecord × SignalCandidate) → List Symbol
  | _, [] => []
  | observations, (record, candidate) :: pairs =>
    let decision := evaluatePublication candidate observations publicationTime config
    let status := if decision.allowed then SignalStatus.preparing else .suppressed
    (if decision.allowed then [record.symbol] else []) ++
      preparedSymbols config publicationTime
        (observations ++ [⟨record.symbol, status, publicationTime⟩]) pairs

variable {config : SignalPolicyConfig} {publicationTime : Int}

theorem mem_trackedSymbols {db : Database} {symbol : Symbol} :
    symbol ∈ trackedSymbols db ↔
      ∃ signal ∈ db.signals, signal.status.isActive = true ∧ signal.symbol = symbol := by
  unfold trackedSymbols
  simp only [List.mem_map, List.mem_filter, and_assoc]

theorem tracked_publishOne {state next : Publishing} {record : SignalCandidateRecord}
    {candidate : SignalCandidate}
    (h : publishOne config publicationTime state (record, candidate) = .ok next) {symbol : Symbol}
    (hsymbol : symbol ∈ trackedSymbols next.db) :
    symbol ∈ trackedSymbols state.db ∨ symbol = record.symbol ∧
      (evaluatePublication candidate state.observations publicationTime config).allowed = true := by
  obtain ⟨published, event, trades, hpublished⟩ := publishOne_ok h
  obtain ⟨signal, hsignal, hactive, rfl⟩ := mem_trackedSymbols.mp hsymbol
  rw [hpublished.db] at hsignal
  rcases List.mem_append.mp hsignal with hold | hnew
  · exact Or.inl (mem_trackedSymbols.mpr ⟨signal, hold, hactive, rfl⟩)
  · rw [List.mem_singleton.mp hnew] at hactive ⊢
    refine Or.inr ⟨hpublished.symbol, ?_⟩
    by_contra hsuppressed
    rw [hpublished.status, if_neg hsuppressed] at hactive
    cases hactive

theorem tracked_published {pairs : List (SignalCandidateRecord × SignalCandidate)}
    {state final : Publishing}
    (h : pairs.foldlM (publishOne config publicationTime) state = .ok final) :
    ∀ symbol ∈ trackedSymbols final.db, symbol ∈ trackedSymbols state.db ∨
      symbol ∈ preparedSymbols config publicationTime state.observations pairs := by
  induction pairs generalizing state with
  | nil =>
    cases h
    intro symbol hsymbol
    exact Or.inl hsymbol
  | cons pair pairs ih =>
    obtain ⟨record, candidate⟩ := pair
    obtain ⟨next, hnext, hrest⟩ := bind_eq_ok.mp h
    obtain ⟨published, event, trades, hpublished⟩ := publishOne_ok hnext
    have hobservation : published.observation = ⟨record.symbol,
        if (evaluatePublication candidate state.observations publicationTime config).allowed then
          .preparing else .suppressed, publicationTime⟩ := by
      rw [SignalRecord.observation, hpublished.symbol, hpublished.status, hpublished.createdAt]
    intro symbol hsymbol
    simp only [preparedSymbols, List.mem_append]
    rcases ih hrest symbol hsymbol with hold | hprepared
    · rcases tracked_publishOne hnext hold with hold | ⟨rfl, hallowed⟩
      · exact Or.inl hold
      · rw [if_pos hallowed]
        exact Or.inr (Or.inl (List.mem_singleton_self _))
    · rw [hpublished.observations, hobservation] at hprepared
      exact Or.inr (Or.inr hprepared)

/-- A signal that a call leaves open was open before or was prepared by it. -/
theorem tracked_exec {db next : Database} {op : StoreOp} (h : op.exec db = .ok next)
    {symbol : Symbol} (hsymbol : symbol ∈ trackedSymbols next) :
    symbol ∈ trackedSymbols db ∨ ∃ candidates config publicationTime,
      op = .publishCandidates candidates config publicationTime ∧
        symbol ∈ preparedSymbols config publicationTime
          (observe db.signals (earliest config publicationTime)) (accepted candidates) := by
  cases op with
  | publishCandidates candidates config publicationTime =>
    obtain ⟨result, h⟩ := map_fst_ok h
    unfold Store.publishCandidates at h
    split_ifs at h
    · cases h
      exact Or.inl hsymbol
    · obtain ⟨state, hstate, h⟩ := bind_eq_ok.mp h
      cases h
      rcases tracked_published hstate symbol hsymbol with hold | hprepared
      · exact Or.inl hold
      · exact Or.inr ⟨candidates, config, publicationTime, rfl, hprepared⟩
  | applyTransition request =>
    obtain ⟨result, h⟩ := map_fst_ok h
    left
    rcases applyTransition_ok h with ⟨rfl, -, -⟩ | ⟨-, signal, trade, tradeStatus, outbox, h⟩
    · exact hsymbol
    · obtain ⟨row, hrow, hactive, rfl⟩ := mem_trackedSymbols.mp hsymbol
      rw [h.result] at hrow
      rcases mem_replaceRow hrow with rfl | ⟨hold, -⟩
      · exact mem_trackedSymbols.mpr
          ⟨signal, lookup_mem h.signalRow, isActive_of_transition h.legal, rfl⟩
      · exact mem_trackedSymbols.mpr ⟨row, hold, hactive, rfl⟩
  | checkpointTrade signalId tradeId executedAt sequence =>
    left
    obtain ⟨trade, -, rfl | rfl⟩ := checkpointTrade_ok h
    · exact hsymbol
    · exact hsymbol
  | recordTrackingEvent request =>
    obtain ⟨added, h⟩ := map_fst_ok h
    left
    rcases recordTrackingEvent_ok h with ⟨rfl, -⟩ | ⟨-, -, _, _, -, -, -, -, -, rfl⟩
    · exact hsymbol
    · exact hsymbol

end Signals

section Statement
variable (settings : Settings)

/-- The symbol is a target of the backfill, a topic of the kline stream, and its checkpoint
is not offline. -/
structure Served (world : LiveWorld) (symbol : Symbol) : Prop where
  backfill : symbol ∈ world.activeSymbols
  stream : settings.upper symbol ∈ streamSymbols world.stream
  online : world.stateOf symbol ≠ some .offline

/-- The steps that keep the tracked symbols served: a refresh selects all of them, and a
publication prepares signals of served symbols. -/
def KeepsTracked (world : LiveWorld) : LiveAction → Prop
  | .refresh (some answers) now => ∀ symbol ∈ trackedSymbols world.db,
      symbol ∈ selection settings.upper settings.lower settings.policy answers now
  | .store (.publishCandidates candidates config publicationTime) =>
      ∀ symbol ∈ preparedSymbols config publicationTime
        (observe world.db.signals (earliest config publicationTime)) (accepted candidates),
        Served settings world symbol
  | _ => True

end Statement

section Invariant
variable {settings : Settings} {world next : LiveWorld}

/-- The symbols a replacement of the stream is on its way with. -/
def Phase.pending : Phase → Option (List Symbol)
  | .retiring symbols | .warming symbols | .connecting symbols => some symbols
  | _ => none

structure Flow (settings : Settings) (world : LiveWorld) : Prop where
  consistent : Consistent world.universeTables
  served : ∀ symbol ∈ trackedSymbols world.db, Served settings world symbol
  pending : ∀ symbols ∈ world.phase.pending, ∀ symbol ∈ world.activeSymbols, symbol ∈ symbols

theorem flow_initial (snapshots : List AnalysisSnapshotRecord)
    (candidates : List SignalCandidateRecord) :
    Flow settings (initialWorld snapshots candidates) := by
  refine ⟨consistent_initial, ?_, ?_⟩
  · intro symbol hsymbol
    cases hsymbol
  · intro symbols hsymbols
    cases hsymbols

/-- A step that keeps the universe and the signals and takes no tracked symbol from the
stream or offline. -/
theorem Flow.frame (h : Flow settings world) (htables : next.universeTables = world.universeTables)
    (hdb : next.db = world.db)
    (hstream : ∀ symbol ∈ trackedSymbols world.db, settings.upper symbol ∈ streamSymbols next.stream)
    (hstates : ∀ symbol ∈ trackedSymbols world.db, next.stateOf symbol = some .offline →
      world.stateOf symbol = some .offline)
    (hpending : ∀ symbols ∈ next.phase.pending, ∀ symbol ∈ world.activeSymbols, symbol ∈ symbols) :
    Flow settings next := by
  have hactive : next.activeSymbols = world.activeSymbols := by
    unfold LiveWorld.activeSymbols
    rw [htables]
  refine ⟨htables ▸ h.consistent, ?_, hactive ▸ hpending⟩
  intro symbol hsymbol
  rw [hdb] at hsymbol
  obtain ⟨hbackfill, -, honline⟩ := h.served symbol hsymbol
  refine ⟨hactive ▸ hbackfill, hstream symbol hsymbol, ?_⟩
  intro hoffline
  exact honline (hstates symbol hsymbol hoffline)

/-- A step that leaves the universe, the signals, the stream and the states alone. -/
theorem Flow.idle (h : Flow settings world) (htables : next.universeTables = world.universeTables)
    (hdb : next.db = world.db) (hstream : streamSymbols next.stream = streamSymbols world.stream)
    (hstates : ∀ symbol, next.stateOf symbol = world.stateOf symbol)
    (hpending : ∀ symbols ∈ next.phase.pending, ∀ symbol ∈ world.activeSymbols, symbol ∈ symbols) :
    Flow settings next := by
  refine h.frame htables hdb ?_ ?_ hpending
  · intro symbol hsymbol
    rw [hstream]
    exact (h.served symbol hsymbol).stream
  · intro symbol _ hoffline
    rw [← hstates]
    exact hoffline

/-- A transaction of the market-data repository. -/
theorem Flow.market (h : Flow settings world) {action : MarketData.Action} {phase : Phase}
    (hstep : marketStep settings world action phase = .ok next)
    (hstates : ∀ market, MarketData.step settings.initialHistoryMinutes settings.batchCandles
      world.market action = .ok market → ∀ symbol ∈ trackedSymbols world.db,
        checkpointState market.tables symbol = some .offline →
          world.stateOf symbol = some .offline)
    (hpending : ∀ symbols ∈ phase.pending, ∀ symbol ∈ world.activeSymbols, symbol ∈ symbols) :
    Flow settings next := by
  obtain ⟨market, hmarket, rfl⟩ := marketStep_ok hstep
  refine h.frame rfl rfl ?_ (hstates market hmarket) hpending
  intro symbol hsymbol
  exact (h.served symbol hsymbol).stream

/-- A mark with another state takes no symbol offline. -/
theorem Flow.marked (h : Flow settings world) {symbols : List Symbol} {state : CheckpointState}
    {error : Option String} {phase : Phase} (hstate : state ≠ .offline)
    (hstep : marketStep settings world (.mark symbols state error) phase = .ok next)
    (hpending : ∀ symbols ∈ phase.pending, ∀ symbol ∈ world.activeSymbols, symbol ∈ symbols) :
    Flow settings next := by
  refine h.market hstep ?_ hpending
  intro market hmarket symbol _ hoffline
  cases hmarket
  rw [markStreamState_state] at hoffline
  split at hoffline
  · exact absurd (Option.some.inj hoffline) hstate
  · exact hoffline

end Invariant

section Steps
variable {settings : Settings} {world next : LiveWorld}

theorem mem_streamSymbols_connect {upper : String → String} {symbols : List Symbol} {shardSize : Nat}
    {symbol : Symbol} (h : symbol ∈ symbols) :
    upper symbol ∈ streamSymbols ((shardSymbols upper symbols shardSize).map (Shard.mk · true)) := by
  have hflat : streamSymbols ((shardSymbols upper symbols shardSize).map (Shard.mk · true)) =
      sortedBy id (symbols.map upper).dedup := by
    unfold streamSymbols shardSymbols
    rw [List.flatMap_map]
    exact (List.flatMap_id).trans (flatten_toChunks _ _)
  rw [hflat, mem_sortedBy, List.mem_dedup]
  exact List.mem_map_of_mem h

theorem streamSymbols_setConnected (stream : List Shard) (index : Nat) (isConnected : Bool) :
    streamSymbols (setConnected stream index isConnected) = streamSymbols stream := by
  have hsymbols : (setConnected stream index isConnected).map Shard.symbols =
      stream.map Shard.symbols := by
    apply List.ext_getElem?
    intro position
    unfold setConnected
    rw [List.getElem?_map, List.getElem?_map, List.getElem?_modify]
    rcases stream[position]? with _ | shard
    · rfl
    · rw [Option.map_eq_map, Option.map_some, Option.map_some, Option.map_some]
      split <;> rfl
  unfold streamSymbols
  rw [List.flatMap_def, hsymbols, ← List.flatMap_def]

theorem Flow.refreshed (h : Flow settings world) {answers : Option ProviderAnswers} {now : Int}
    {atStart : Bool} (hstep : refreshUniverse settings world answers now atStart = .ok next)
    (hkeeps : KeepsTracked settings world (.refresh answers now)) : Flow settings next := by
  obtain ⟨tables, htables, hnext⟩ := bind_eq_ok.mp hstep
  cases hnext
  obtain ⟨hconsistent, hactive⟩ := refresh_spec h.consistent htables
  refine ⟨hconsistent, ?_, ?_⟩
  · intro symbol hsymbol
    obtain ⟨hbackfill, hstream, honline⟩ := h.served symbol hsymbol
    refine ⟨?_, hstream, honline⟩
    rcases hactive with ⟨-, rfl⟩ | ⟨given, rfl, hperm⟩
    · exact hbackfill
    · exact hperm.mem_iff.mpr (hkeeps symbol hsymbol)
  · intro symbols hsymbols
    cases hsymbols

theorem Flow.selected (h : Flow settings world) (atStart : Bool) :
    Flow settings (selectSymbols world atStart) := by
  have hsorted : ∀ symbols ∈ (Phase.retiring (sortedBy id world.activeSymbols)).pending,
      ∀ symbol ∈ world.activeSymbols, symbol ∈ symbols := by
    intro symbols hsymbols symbol hsymbol
    cases hsymbols
    exact mem_sortedBy.mpr hsymbol
  have hnone : ∀ phase : Phase, phase.pending = none → ∀ symbols ∈ phase.pending,
      ∀ symbol ∈ world.activeSymbols, symbol ∈ symbols := by
    intro phase hphase symbols hsymbols
    rw [hphase] at hsymbols
    cases hsymbols
  unfold selectSymbols
  simp only
  split
  · split
    · exact h.idle rfl rfl rfl (fun _ => rfl) (hnone .ended rfl)
    · exact h.idle rfl rfl rfl (fun _ => rfl) hsorted
  · split
    · exact h.idle rfl rfl rfl (fun _ => rfl) (hnone .waiting rfl)
    · exact h.idle rfl rfl rfl (fun _ => rfl) hsorted

/-- The tracked symbols are active, so they are not retired. -/
theorem Flow.retired (h : Flow settings world) {symbols : List Symbol}
    (hphase : world.phase = .retiring symbols)
    (hstep : marketStep settings world (.markInactive symbols) (.warming symbols) = .ok next) :
    Flow settings next := by
  have hpending := h.pending symbols (by rw [hphase]; rfl)
  refine h.market hstep ?_ ?_
  · intro market hmarket symbol hsymbol hoffline
    cases hmarket
    rw [markInactiveStreams_state world.market.tables
      (hpending symbol (h.served symbol hsymbol).backfill)] at hoffline
    exact hoffline
  · intro others hothers
    cases hothers
    exact hpending

theorem Flow.stepped (h : Flow settings world) {action : LiveAction}
    (hkeeps : KeepsTracked settings world action)
    (hstep : Live.step settings world action = .ok next) : Flow settings next := by
  have hnone : ∀ phase : Phase, phase.pending = none → ∀ symbols ∈ phase.pending,
      ∀ symbol ∈ world.activeSymbols, symbol ∈ symbols := by
    intro phase hphase symbols hsymbols
    rw [hphase] at hsymbols
    cases hsymbols
  cases action with
  | refresh answers now =>
    simp only [Live.step] at hstep
    split at hstep
    · exact h.refreshed hstep hkeeps
    · exact h.refreshed hstep hkeeps
    · cases hstep
  | select =>
    simp only [Live.step] at hstep
    split at hstep
    · cases hstep
      exact h.selected _
    · cases hstep
  | markInactive =>
    simp only [Live.step] at hstep
    split at hstep
    · rename_i hphase
      exact h.retired hphase hstep
    · cases hstep
  | markWarming =>
    simp only [Live.step] at hstep
    split at hstep
    · rename_i symbols hphase
      refine h.marked (by decide) hstep ?_
      intro others hothers
      cases hothers
      exact h.pending symbols (by rw [hphase]; rfl)
    · cases hstep
  | connect =>
    simp only [Live.step] at hstep
    split at hstep
    · rename_i symbols hphase
      cases hstep
      have hpending := h.pending symbols (by rw [hphase]; rfl)
      refine h.frame rfl rfl ?_ (fun _ _ hoffline => hoffline) (hnone .unsynced rfl)
      intro symbol hsymbol
      exact mem_streamSymbols_connect (hpending symbol (h.served symbol hsymbol).backfill)
    · cases hstep
  | sync serverTime =>
    simp only [Live.step] at hstep
    split at hstep
    · refine h.market hstep ?_ (hnone .syncing rfl)
      intro market hmarket symbol _ hoffline
      simp only [MarketData.step] at hmarket
      split at hmarket
      · cases hmarket
        exact hoffline
      · cases hmarket
    · cases hstep
  | task action =>
    simp only [Live.step] at hstep
    split at hstep
    · split at hstep
      · rename_i htask
        refine h.market hstep ?_ (hnone .syncing rfl)
        intro market hmarket symbol _ hoffline
        obtain ⟨index, task, outcome, written, -, -, rfl, houtcome⟩ := step_task htask hmarket
        exact houtcome.states.before houtcome.online hoffline
      · cases hstep
    · cases hstep
  | finish =>
    simp only [Live.step] at hstep
    split at hstep
    · split at hstep
      · cases hstep
        exact h.idle rfl rfl rfl (fun _ => rfl) (hnone .waiting rfl)
      · cases hstep
    · cases hstep
  | reconcile | gap =>
    simp only [Live.step] at hstep
    split at hstep
    · cases hstep
      exact h.idle rfl rfl rfl (fun _ => rfl) (hnone .unsynced rfl)
    · cases hstep
  | candle candle now =>
    simp only [Live.step] at hstep
    split at hstep
    · obtain ⟨ingested, hingested, hnext⟩ := bind_eq_ok.mp hstep
      cases hnext
      obtain ⟨written, hwrite, hresult⟩ := ingestLiveCandle_stateWrite hingested
      have honline : written ≠ some .offline := by
        rcases hresult with ⟨-, -, rfl⟩ | ⟨-, -, rfl | rfl⟩ <;> decide
      refine h.frame rfl rfl ?_ ?_ ?_
      · intro symbol hsymbol
        exact (h.served symbol hsymbol).stream
      · intro symbol _ hoffline
        exact hwrite.before honline hoffline
      · simp only
        split
        · exact hnone .gapFound rfl
        · exact hnone .waiting rfl
    · cases hstep
  | disconnected index reason =>
    simp only [Live.step] at hstep
    split at hstep
    · split at hstep
      · cases hstep
        exact h.idle rfl rfl (streamSymbols_setConnected _ _ _) (fun _ => rfl)
          (hnone (.degrading _ _) rfl)
      · cases hstep
    · cases hstep
  | degrade =>
    simp only [Live.step] at hstep
    split at hstep
    · exact h.marked (by decide) hstep (hnone .waiting rfl)
    · cases hstep
  | reconnected index =>
    simp only [Live.step] at hstep
    split at hstep
    · split at hstep
      · cases hstep
      · cases hstep
        exact h.idle rfl rfl (streamSymbols_setConnected _ _ _) (fun _ => rfl)
          (hnone (.recovering _) rfl)
    · cases hstep
  | recover =>
    simp only [Live.step] at hstep
    split at hstep
    · exact h.marked (by decide) hstep (hnone .unsynced rfl)
    · cases hstep
  | repair candles now =>
    refine h.market hstep ?_ h.pending
    intro market hmarket symbol _ hoffline
    obtain ⟨tables, htables, hmarket⟩ := bind_eq_ok.mp hmarket
    cases hmarket
    rw [repairCandles_state htables] at hoffline
    exact hoffline
  | quiesce =>
    cases hstep
    exact h.idle rfl rfl rfl (fun _ => rfl) h.pending
  | wake =>
    simp only [Live.step] at hstep
    split at hstep
    · cases hstep
      exact h.idle rfl rfl rfl (fun _ => rfl) h.pending
    · cases hstep
  | cycle =>
    simp only [Live.step] at hstep
    split at hstep
    · cases hstep
      exact h.idle rfl rfl rfl (fun _ => rfl) h.pending
    · cases hstep
  | store op =>
    simp only [Live.step] at hstep
    split at hstep
    · rename_i db hdb
      cases hstep
      refine ⟨h.consistent, ?_, h.pending⟩
      intro symbol hsymbol
      have hserved : Served settings world symbol := by
        rcases tracked_exec hdb hsymbol with hold | ⟨candidates, config, time, rfl, hprepared⟩
        · exact h.served symbol hold
        · exact hkeeps symbol hprepared
      obtain ⟨hbackfill, hstream, honline⟩ := hserved
      exact ⟨hbackfill, hstream, honline⟩
    · cases hstep

end Steps

section Result

/-- In every run whose steps keep the tracked symbols, each of them is served. -/
theorem tracked_symbols_served (settings : Settings) (snapshots : List AnalysisSnapshotRecord)
    (candidates : List SignalCandidateRecord) (actions : List LiveAction)
    (hkeeps : RunMeets (step settings) (KeepsTracked settings) (initialWorld snapshots candidates)
      actions) :
    ∀ symbol ∈ trackedSymbols (runAll (step settings) (initialWorld snapshots candidates) actions).db,
      Served settings (runAll (step settings) (initialWorld snapshots candidates) actions) symbol := by
  apply Flow.served
  refine runAll_invariant_of_meets ?_ (flow_initial snapshots candidates) hkeeps
  intro world action next h hmeets hstep
  exact h.stepped hmeets hstep

section DroppedSymbol

instance (settings : Settings) (world : LiveWorld) (symbol : Symbol) :
    Decidable (Served settings world symbol) :=
  decidable_of_iff (symbol ∈ world.activeSymbols ∧
      settings.upper symbol ∈ streamSymbols world.stream ∧ world.stateOf symbol ≠ some .offline)
    ⟨fun ⟨hbackfill, hstream, honline⟩ => ⟨hbackfill, hstream, honline⟩,
      fun h => ⟨h.backfill, h.stream, h.online⟩⟩

instance (settings : Settings) (world : LiveWorld) (action : LiveAction) :
    Decidable (KeepsTracked settings world action) := by
  unfold KeepsTracked
  split <;> infer_instance

def freshCandidate : SignalCandidate :=
  { sampleCandidate with analyzedAt := 2 * oneDay, expiresAt := 2 * oneDay + oneHour }

/-- A signal of BTCUSDT is prepared while both symbols are served. -/
def publishedRun : List LiveAction :=
  cleanRun ++ [.store (.publishCandidates [(candidateRecord 1 1 freshCandidate, freshCandidate)]
    .standard (2 * oneDay))]

/-- The next refresh selects both symbols again. -/
def keptRun : List LiveAction :=
  publishedRun ++ [.refresh (some twoAssets) (3 * oneDay), .select, .reconcile, .sync (3 * oneDay)]

theorem tracked_symbols_served_sample :
    let world := runAll (step smallSettings)
      (initialWorld [] [candidateRecord 1 1 freshCandidate]) keptRun
    trackedSymbols world.db = ["BTCUSDT"] ∧ Served smallSettings world "BTCUSDT" :=
  ⟨by decide +kernel, tracked_symbols_served smallSettings [] [candidateRecord 1 1 freshCandidate]
    keptRun (by decide +kernel) "BTCUSDT" (by decide +kernel)⟩

/-- The next ranking has the other asset only. -/
def droppingRun : List LiveAction :=
  publishedRun ++ [.refresh (some { twoAssets with assets := twoAssets.assets.drop 1 }) (3 * oneDay),
    .select, .markInactive, .markWarming, .connect]

/-- BTCUSDT has an open signal, but it is neither backfilled nor streamed, and the refresh
has set its checkpoint offline. -/
theorem refresh_drops_tracked_symbol :
    let world := runAll (step smallSettings)
      (initialWorld [] [candidateRecord 1 1 freshCandidate]) droppingRun
    "BTCUSDT" ∈ trackedSymbols world.db ∧ "BTCUSDT" ∉ world.activeSymbols ∧
      "BTCUSDT" ∉ streamSymbols world.stream ∧ world.stateOf "BTCUSDT" = some .offline ∧
      ¬Served smallSettings world "BTCUSDT" := by
  decide +kernel

end DroppedSymbol

end Result

end StructurePulse.Live
