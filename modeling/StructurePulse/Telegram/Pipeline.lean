import StructurePulse.Store.Runs
import StructurePulse.Telegram.FairService

/-!
# From a transition to the users

The signal store adds the outbox row of a transition in the transaction of the transition, and
the outbox services take it from the same table. A pipeline has both parts; `filings` names the
record of each row. Its run is a run of the store beside a run of the services.
-/

namespace StructurePulse.Telegram
open Library
set_option autoImplicit false

section Columns
variable {localTime : String → Int → Option Int} {maxAttempts : Nat} {retryBase : Int}

/-- What no step changes in a record. -/
def OutboxRecord.columns (record : OutboxRecord) : Nat × String × String × Option Int × Int :=
  (record.id, record.eventType, record.payload, record.score, record.availableAt)

theorem expandAll_columns {tables : Tables} {records : List OutboxRecord}
    (users : List UserSettings) (now : Int)
    (h : ∀ record ∈ records, ∀ row ∈ tables.outbox, row.id = record.id →
      row.columns = record.columns) :
    (records.foldl (expand localTime users now) tables).outbox.map OutboxRecord.columns =
      tables.outbox.map OutboxRecord.columns := by
  induction records generalizing tables with
  | nil => rfl
  | cons record records ih =>
    have hone : (expand localTime users now tables record).outbox.map OutboxRecord.columns =
        tables.outbox.map OutboxRecord.columns := by
      rw [expand_outbox]
      unfold replaceRow
      rw [List.map_map]
      apply List.map_congr_left
      intro row hrow
      rw [Function.comp_apply]
      split
      · exact (h record List.mem_cons_self row hrow ‹_›).symm
      · rfl
    rw [List.foldl_cons, ih, hone]
    intro other hother row hrow hid
    have hmem : row.columns ∈ tables.outbox.map OutboxRecord.columns :=
      hone ▸ List.mem_map_of_mem hrow
    obtain ⟨old, hold, heq⟩ := List.mem_map.mp hmem
    have hsame : old.id = row.id := congrArg Prod.fst heq
    rw [← heq]
    exact h other (List.mem_cons_of_mem record hother) old hold (hsame.trans hid)

theorem claimDelivery_outbox (tables : Tables) (now : Int) (locked : Nat → Nat → Bool) :
    (claimDelivery tables maxAttempts now locked).1.outbox = tables.outbox := by
  unfold claimDelivery claimFirst
  split <;> rfl

theorem step_columns {world next : World} {action : Action}
    (hids : (world.tables.outbox.map OutboxRecord.id).Nodup)
    (hstep : step localTime maxAttempts retryBase world action = .ok next) :
    world.tables.outbox.map OutboxRecord.columns <+: next.tables.outbox.map OutboxRecord.columns := by
  cases action with
  | recover service now cutoff locked =>
    simp only [step] at hstep
    split at hstep
    · cases hstep
      exact List.prefix_rfl
    · cases hstep
  | materialize service userIds batchSize now locked =>
    simp only [step] at hstep
    split at hstep
    · cases hstep
      have hsame : (materializePending localTime world.tables userIds batchSize now locked).outbox.map
          OutboxRecord.columns = world.tables.outbox.map OutboxRecord.columns := by
        unfold materializePending
        split
        · rfl
        · apply expandAll_columns
          intro record hrecord row hrow hid
          have hmem := ((pendingOutbox_spec hids batchSize now locked).2 record hrecord).1
          rw [List.inj_on_of_nodup_map hids hrow hmem hid]
      exact hsame ▸ List.prefix_rfl
    · cases hstep
  | claim service now locked =>
    have hsame := @claimDelivery_outbox maxAttempts world.tables now locked
    simp only [step] at hstep
    split at hstep
    · split at hstep
      · rename_i tables heq
        cases hstep
        rw [heq] at hsame
        exact hsame ▸ List.prefix_rfl
      · rename_i tables delivery heq
        cases hstep
        rw [heq] at hsame
        exact hsame ▸ List.prefix_rfl
    · cases hstep
  | send service =>
    simp only [step] at hstep
    split at hstep
    · cases hstep
      exact List.prefix_rfl
    · cases hstep
  | answer service outcome =>
    simp only [step] at hstep
    split at hstep
    · cases hstep
      exact List.prefix_rfl
    · cases hstep
  | mark service now =>
    simp only [step] at hstep
    split at hstep
    · rename_i delivery outcome _
      cases hstep
      cases outcome <;> exact List.prefix_rfl
    · cases hstep
  | crash service =>
    cases hstep
    exact List.prefix_rfl
  | enqueue eventType payload score availableAt =>
    cases hstep
    exact ⟨_, List.map_append.symm⟩
  | configure user =>
    cases hstep
    unfold saveUser
    split <;> exact List.prefix_rfl

theorem run_columns {world : World} (h : Kept maxAttempts world) (actions : List Action) :
    world.tables.outbox.map OutboxRecord.columns <+:
      (runAll (step localTime maxAttempts retryBase) world actions).tables.outbox.map
        OutboxRecord.columns :=
  runAll_relates (R := fun early late : World => early.tables.outbox.map OutboxRecord.columns <+:
      late.tables.outbox.map OutboxRecord.columns) (P := Kept maxAttempts)
    (fun _ => List.prefix_rfl) (fun _ _ _ => List.IsPrefix.trans)
    (fun _ _ _ hs hstep => step_kept hs hstep)
    (fun _ _ _ hs hstep => step_columns hs.expanded.ids hstep) h actions

theorem afterRounds_columns {service : Nat} {userIds : List Int} {batchSize : Nat} {world : World}
    {rounds : Nat → Round service} (h : Kept maxAttempts world) {start stop : Nat}
    (hle : start ≤ stop) :
    (afterRounds localTime maxAttempts retryBase userIds batchSize world rounds
      start).tables.outbox.map OutboxRecord.columns <+:
    (afterRounds localTime maxAttempts retryBase userIds batchSize world rounds
      stop).tables.outbox.map OutboxRecord.columns := by
  have hkept : ∀ n, Kept maxAttempts
      (afterRounds localTime maxAttempts retryBase userIds batchSize world rounds n) := by
    intro n
    induction n with
    | zero => exact h
    | succ n ih => exact ih.runAll _
  induction stop, hle using Nat.le_induction with
  | base => exact List.prefix_rfl
  | succ stop _ ih => exact ih.trans (run_columns (hkept stop) _)

end Columns

section Rows
open Store

/-- The store only adds rows to the outbox. -/
theorem committed_outbox {db next : Database} (hc : Committed db next) : db.outbox <+: next.outbox := by
  cases hc with
  | unchanged hsame => exact hsame ▸ List.prefix_rfl
  | published candidates config publicationTime observations state hdb hloop =>
    rw [hdb]
    apply foldlM_invariant (P := fun pass : Publishing => db.outbox <+: pass.db.outbox) _
      List.prefix_rfl hloop
    intro pass pair _ after hpass hone
    obtain ⟨signal, event, trades, hpublished⟩ := publishOne_ok hone
    rw [hpublished.db]
    exact hpass
  | transitioned request signal trade tradeStatus outbox ht =>
    rw [ht.result]
    exact List.prefix_append _ _
  | checkpointed signalId tradeId executedAt sequence hnext =>
    obtain ⟨trade, -, hsame | hsame⟩ := checkpointTrade_ok hnext
    · exact hsame ▸ List.prefix_rfl
    · exact hsame ▸ List.prefix_rfl
  | tracked request added hnext =>
    rcases recordTrackingEvent_ok hnext with ⟨hsame, -⟩ | ⟨-, -, _, _, -, -, -, -, -, hsame⟩
    · exact hsame ▸ List.prefix_rfl
    · exact hsame ▸ List.prefix_rfl

theorem outboxKeys_nodup {db : Database} (h : Store.Sound db) :
    (db.outbox.map NotificationOutboxRecord.idempotencyKey).Nodup := by
  have hkeys := congrArg (List.map Prod.snd) h.outbox
  rw [List.map_map, List.map_map] at hkeys
  rw [show db.outbox.map NotificationOutboxRecord.idempotencyKey = _ from hkeys]
  have hevents : ((db.events.filter (·.isTransition)).map SignalEventRecord.idempotencyKey).Nodup :=
    h.keys.sublist (List.filter_sublist.map _)
  have hmapped := hevents.map (f := outboxKey) fun _ _ heq => outboxKey_injective heq
  rw [List.map_map] at hmapped
  exact hmapped

/-- Every transition has its row. -/
theorem row_of_transition {db : Database} (h : Store.Sound db) {event : SignalEventRecord}
    (hevent : event ∈ db.events) (htransition : event.isTransition = true) :
    ∃ row ∈ db.outbox, row.idempotencyKey = outboxKey event.idempotencyKey := by
  have hmem : (event.signalId, outboxKey event.idempotencyKey) ∈
      db.outbox.map fun row => (row.signalId, row.idempotencyKey) := by
    rw [h.outbox]
    exact List.mem_map_of_mem (List.mem_filter.mpr ⟨hevent, htransition⟩)
  obtain ⟨row, hrow, heq⟩ := List.mem_map.mp hmem
  exact ⟨row, hrow, congrArg Prod.snd heq⟩

/-- The rows an operation has added. -/
def committedRows (db next : Database) : List NotificationOutboxRecord :=
  next.outbox.drop db.outbox.length

theorem append_committedRows {db next : Database} (h : db.outbox <+: next.outbox) :
    db.outbox ++ committedRows db next = next.outbox := by
  obtain ⟨more, heq⟩ := h
  unfold committedRows
  rw [← heq, List.drop_left]

end Rows

section Pipelines
open Store

/-- A row of the store's outbox and the id of its record. -/
abbrev Filing := NotificationOutboxRecord × Nat

structure Pipeline where
  db : Database
  world : World := {}
  filings : List Filing := []

inductive PipelineAction where
  | store (op : StoreOp)
  | telegram (action : Action)

-- the JSON text of the payload column
variable (encode : NotificationPayload → String)

/-- The insert of a row, as the outbox services see it. -/
def enqueueRow (row : NotificationOutboxRecord) : Action :=
  .enqueue row.eventType.text (encode row.payload) (some row.payload.score) row.availableAt

def filingColumns (filing : Filing) : Nat × String × String × Option Int × Int :=
  (filing.2, filing.1.eventType.text, encode filing.1.payload, some filing.1.payload.score,
    filing.1.availableAt)

variable (localTime : String → Int → Option Int) (maxAttempts : Nat) (retryBase : Int)

/-- The pipeline after an operation of the store that leads to `next`. -/
def Pipeline.committed (pipeline : Pipeline) (next : Database) : Pipeline where
  db := next
  world := runAll (step localTime maxAttempts retryBase) pipeline.world
    ((committedRows pipeline.db next).map (enqueueRow encode))
  filings := pipeline.filings ++ (committedRows pipeline.db next).zip
    (List.range' pipeline.world.tables.nextOutboxId (committedRows pipeline.db next).length)

def pipelineStep (pipeline : Pipeline) : PipelineAction → Except StoreError Pipeline
  | .store op =>
    (op.exec pipeline.db).map (pipeline.committed encode localTime maxAttempts retryBase)
  | .telegram action => .ok { pipeline with
      world := transact (step localTime maxAttempts retryBase) pipeline.world action }

def storeOps (actions : List PipelineAction) : List StoreOp :=
  actions.filterMap fun
    | .store op => some op
    | .telegram _ => none

/-- What the outbox services see of a run that starts with `db`. -/
def telegramActions : Database → List PipelineAction → List Action
  | _, [] => []
  | db, .store op :: actions =>
    (committedRows db (transact StoreOp.exec db op)).map (enqueueRow encode) ++
      telegramActions (transact StoreOp.exec db op) actions
  | db, .telegram action :: actions => action :: telegramActions db actions

variable {encode localTime maxAttempts retryBase}

theorem committed_self (pipeline : Pipeline) :
    pipeline.committed encode localTime maxAttempts retryBase pipeline.db = pipeline := by
  have hnone : committedRows pipeline.db pipeline.db = [] := List.drop_length
  unfold Pipeline.committed
  rw [hnone, List.zip_nil_left, List.append_nil]
  rfl

theorem transact_store (pipeline : Pipeline) (op : StoreOp) :
    transact (pipelineStep encode localTime maxAttempts retryBase) pipeline (.store op) =
      pipeline.committed encode localTime maxAttempts retryBase
        (transact StoreOp.exec pipeline.db op) := by
  cases hexec : op.exec pipeline.db with
  | error e =>
    have hsame : transact StoreOp.exec pipeline.db op = pipeline.db := by
      unfold transact
      rw [hexec]
    rw [hsame, committed_self]
    unfold transact pipelineStep
    simp only [hexec]
    rfl
  | ok next =>
    have hnext : transact StoreOp.exec pipeline.db op = next := by
      unfold transact
      rw [hexec]
    rw [hnext]
    unfold transact pipelineStep
    simp only [hexec]
    rfl

/-- A run of a pipeline is a run of the store beside a run of the services. -/
theorem runAll_pipeline (pipeline : Pipeline) (actions : List PipelineAction) :
    (runAll (pipelineStep encode localTime maxAttempts retryBase) pipeline actions).db =
      pipeline.db.run (storeOps actions) ∧
    (runAll (pipelineStep encode localTime maxAttempts retryBase) pipeline actions).world =
      runAll (step localTime maxAttempts retryBase) pipeline.world
        (telegramActions encode pipeline.db actions) := by
  induction actions generalizing pipeline with
  | nil => exact ⟨rfl, rfl⟩
  | cons action actions ih =>
    cases action with
    | telegram action => exact ih _
    | store op =>
      have hcons : runAll (pipelineStep encode localTime maxAttempts retryBase) pipeline
            (.store op :: actions) =
          runAll (pipelineStep encode localTime maxAttempts retryBase)
            (pipeline.committed encode localTime maxAttempts retryBase
              (transact StoreOp.exec pipeline.db op)) actions := by
        rw [← transact_store]
        rfl
      rw [hcons]
      obtain ⟨hdb, hworld⟩ := ih (pipeline.committed encode localTime maxAttempts retryBase
        (transact StoreOp.exec pipeline.db op))
      exact ⟨hdb, hworld.trans (runAll_append _ _ _).symm⟩

theorem telegramActions_append (db : Database) (actions more : List PipelineAction) :
    telegramActions encode db (actions ++ more) = telegramActions encode db actions ++
      telegramActions encode (db.run (storeOps actions)) more := by
  induction actions generalizing db with
  | nil => rfl
  | cons action actions ih =>
    cases action with
    | telegram action => exact congrArg (List.cons action) (ih db)
    | store op =>
      have hrest := ih (transact StoreOp.exec db op)
      exact (congrArg _ hrest).trans (List.append_assoc _ _ _).symm

end Pipelines

section Links
open Store
variable {encode : NotificationPayload → String} {localTime : String → Int → Option Int}
variable {maxAttempts : Nat} {retryBase : Int} {pipeline next : Pipeline}

theorem enqueueRows_columns (world : World) (rows : List NotificationOutboxRecord) :
    (runAll (step localTime maxAttempts retryBase) world
      (rows.map (enqueueRow encode))).tables.outbox.map OutboxRecord.columns =
    world.tables.outbox.map OutboxRecord.columns ++
      (rows.zip (List.range' world.tables.nextOutboxId rows.length)).map (filingColumns encode) := by
  induction rows generalizing world with
  | nil => exact (List.append_nil _).symm
  | cons row rows ih =>
    have hrest := ih (transact (step localTime maxAttempts retryBase) world (enqueueRow encode row))
    have hfirst : (transact (step localTime maxAttempts retryBase) world
          (enqueueRow encode row)).tables.outbox.map OutboxRecord.columns =
        world.tables.outbox.map OutboxRecord.columns ++
          [filingColumns encode (row, world.tables.nextOutboxId)] := List.map_append
    rw [hfirst, List.append_assoc] at hrest
    exact hrest

/-- Every row of the store has one record, with the same contents. -/
structure Linked (encode : NotificationPayload → String) (maxAttempts : Nat) (pipeline : Pipeline) :
    Prop where
  sound : Store.Sound pipeline.db
  kept : Kept maxAttempts pipeline.world
  rows : pipeline.filings.map Prod.fst = pipeline.db.outbox
  ids : (pipeline.filings.map Prod.snd).Nodup
  known : ∀ filing ∈ pipeline.filings,
    filingColumns encode filing ∈ pipeline.world.tables.outbox.map OutboxRecord.columns

theorem Linked.fresh (h : Linked encode maxAttempts pipeline) {filing : Filing}
    (hfiling : filing ∈ pipeline.filings) : filing.2 < pipeline.world.tables.nextOutboxId := by
  obtain ⟨record, hrecord, hcolumns⟩ := List.mem_map.mp (h.known filing hfiling)
  have hid : record.id = filing.2 := congrArg Prod.fst hcolumns
  rw [← hid]
  exact h.kept.expanded.fresh record hrecord

theorem pipelineStep_linked {action : PipelineAction} (h : Linked encode maxAttempts pipeline)
    (hstep : pipelineStep encode localTime maxAttempts retryBase pipeline action = .ok next) :
    Linked encode maxAttempts next := by
  cases action with
  | telegram action =>
    cases hstep
    refine ⟨h.sound, h.kept.transact action, h.rows, h.ids, ?_⟩
    intro filing hfiling
    exact (run_columns h.kept [action]).subset (h.known filing hfiling)
  | store op =>
    obtain ⟨db, hexec, rfl⟩ : ∃ db, op.exec pipeline.db = .ok db ∧
        pipeline.committed encode localTime maxAttempts retryBase db = next := by
      cases hexec : op.exec pipeline.db with
      | error e =>
        simp only [pipelineStep, hexec] at hstep
        cases hstep
      | ok db =>
        simp only [pipelineStep, hexec] at hstep
        cases hstep
        exact ⟨db, rfl, rfl⟩
    have hcommitted := exec_committed hexec
    have hcolumns := @enqueueRows_columns encode localTime maxAttempts retryBase pipeline.world
      (committedRows pipeline.db db)
    have hlength : (committedRows pipeline.db db).length = (List.range'
        pipeline.world.tables.nextOutboxId (committedRows pipeline.db db).length).length :=
      List.length_range'.symm
    refine ⟨h.sound.committed hcommitted, h.kept.runAll _, ?_, ?_, ?_⟩
    · change List.map Prod.fst (_ ++ _) = db.outbox
      rw [List.map_append, h.rows, List.map_fst_zip hlength.le]
      exact append_committedRows (committed_outbox hcommitted)
    · change (List.map Prod.snd (_ ++ _)).Nodup
      rw [List.map_append, List.map_snd_zip hlength.ge]
      refine List.nodup_append.mpr ⟨h.ids, List.nodup_range', ?_⟩
      intro id hid other hother heq
      obtain ⟨filing, hfiling, rfl⟩ := List.mem_map.mp hid
      have hlt := h.fresh hfiling
      have hge := (List.mem_range'_1.mp hother).1
      omega
    · intro filing hfiling
      have hmem : filingColumns encode filing ∈
          pipeline.world.tables.outbox.map OutboxRecord.columns ++
            ((committedRows pipeline.db db).zip (List.range' pipeline.world.tables.nextOutboxId
              (committedRows pipeline.db db).length)).map (filingColumns encode) := by
        rcases List.mem_append.mp hfiling with hold | hnew
        · exact List.mem_append_left _ (h.known filing hold)
        · exact List.mem_append_right _ (List.mem_map_of_mem hnew)
      rw [← hcolumns] at hmem
      exact hmem

theorem Linked.runAll (h : Linked encode maxAttempts pipeline) (actions : List PipelineAction) :
    Linked encode maxAttempts
      (runAll (pipelineStep encode localTime maxAttempts retryBase) pipeline actions) :=
  runAll_invariant (P := Linked encode maxAttempts) (fun _ _ _ hs hstep => pipelineStep_linked hs hstep)
    h actions

theorem linked_initial (instruments : List InstrumentRecord)
    (snapshots : List AnalysisSnapshotRecord) (candidates : List SignalCandidateRecord) :
    Linked encode maxAttempts { db := Database.initial instruments snapshots candidates } := by
  refine ⟨sound_initial rfl rfl rfl rfl, ?_, rfl, List.nodup_nil, ?_⟩
  · exact @run_kept (fun _ _ => none) maxAttempts 0 []
  · intro filing hfiling
    cases hfiling

end Links

end StructurePulse.Telegram
