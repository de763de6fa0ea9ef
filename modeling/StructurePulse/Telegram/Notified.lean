import StructurePulse.Telegram.Pipeline

/-!
# Every transition reaches every user

A pipeline in which one outbox service keeps going, beside the signal store and any other
services with the same list of users. Each transition has one row, the row one record, and the
record in the end one settled delivery for each user.
-/

namespace StructurePulse.Telegram
open Library
set_option autoImplicit false

section Users
variable {localTime : String → Int → Option Int} {maxAttempts : Nat} {retryBase : Int}
variable {userIds known : List Int} {old : List Nat} {world next : World}

/-- Every service is given the same users. -/
def Action.Lists (userIds : List Int) : Action → Prop
  | .materialize _ listed _ _ _ => listed = userIds
  | _ => True

/-- The users have settings, and every expansion but the old ones is for all of them. -/
structure Covers (known : List Int) (old : List Nat) (world : World) : Prop where
  settings : ∀ userId ∈ known,
    (lookup UserSettings.userId world.tables.users userId).isSome = true
  expansions : ∀ entry ∈ world.expansions, entry.1 ∈ old ∨ known ⊆ entry.2

theorem Covers.of_eq (h : Covers known old world) (husers : next.tables.users = world.tables.users)
    (hexpansions : next.expansions = world.expansions) : Covers known old next := by
  refine ⟨?_, ?_⟩
  · rw [husers]
    exact h.settings
  · rw [hexpansions]
    exact h.expansions

theorem listed_known (h : Covers known old world) (hknown : known ⊆ userIds) :
    known ⊆ configuredIds world.tables userIds := by
  intro userId huser
  obtain ⟨user, hlookup⟩ := Option.isSome_iff_exists.mp (h.settings userId huser)
  refine List.mem_filter.mpr ⟨?_, decide_eq_true (hknown huser)⟩
  rw [← lookup_key hlookup]
  apply List.mem_map_of_mem (lookup_mem hlookup)

theorem materializePending_users (tables : Tables) (batchSize : Nat) (now : Int)
    (locked : Nat → Bool) :
    (materializePending localTime tables userIds batchSize now locked).users = tables.users := by
  unfold materializePending
  split
  · rfl
  · exact foldl_expand_users tables _

theorem step_covers {action : Action} (h : Covers known old world) (hknown : known ⊆ userIds)
    (hlists : action.Lists userIds)
    (hstep : step localTime maxAttempts retryBase world action = .ok next) :
    Covers known old next := by
  cases action with
  | recover service now cutoff locked =>
    simp only [step] at hstep
    split at hstep
    · cases hstep
      exact h.of_eq rfl rfl
    · cases hstep
  | materialize service listed batchSize now locked =>
    simp only [step] at hstep
    split at hstep
    · cases hstep
      rw [show listed = userIds from hlists]
      refine ⟨?_, ?_⟩
      · intro userId huser
        rw [show (materializePending localTime world.tables userIds batchSize now locked).users =
          world.tables.users from materializePending_users _ _ _ _]
        exact h.settings userId huser
      · intro entry hentry
        rcases List.mem_append.mp hentry with hold | hnew
        · exact h.expansions entry hold
        · right
          split at hnew
          · cases hnew
          · obtain ⟨record, -, rfl⟩ := List.mem_map.mp hnew
            exact listed_known h hknown
    · cases hstep
  | claim service now locked =>
    have hsame : (claimDelivery world.tables maxAttempts now locked).1.users = world.tables.users := by
      unfold claimDelivery claimFirst
      split <;> rfl
    simp only [step] at hstep
    split at hstep
    · split at hstep
      · rename_i tables heq
        cases hstep
        rw [heq] at hsame
        exact h.of_eq hsame rfl
      · rename_i tables delivery heq
        cases hstep
        rw [heq] at hsame
        exact h.of_eq hsame rfl
    · cases hstep
  | send service =>
    simp only [step] at hstep
    split at hstep
    · cases hstep
      exact h.of_eq rfl rfl
    · cases hstep
  | answer service outcome =>
    simp only [step] at hstep
    split at hstep
    · cases hstep
      exact h.of_eq rfl rfl
    · cases hstep
  | mark service now =>
    simp only [step] at hstep
    split at hstep
    · rename_i delivery outcome _
      cases hstep
      cases outcome <;> exact h.of_eq rfl rfl
    · cases hstep
  | crash service =>
    cases hstep
    exact h.of_eq rfl rfl
  | enqueue eventType payload score availableAt =>
    cases hstep
    exact h.of_eq rfl rfl
  | configure user =>
    cases hstep
    exact ⟨fun userId huser => saveUser_lookup user (h.settings userId huser), h.expansions⟩

theorem Covers.runAll {actions : List Action} (h : Covers known old world) (hknown : known ⊆ userIds)
    (hlists : ∀ action ∈ actions, action.Lists userIds) :
    Covers known old (runAll (step localTime maxAttempts retryBase) world actions) := by
  induction actions generalizing world with
  | nil => exact h
  | cons action actions ih =>
    apply ih
    · exact transact_invariant h fun _ hstep =>
        step_covers h hknown (hlists action List.mem_cons_self) hstep
    · intro other hother
      exact hlists other (List.mem_cons_of_mem action hother)

end Users

section Rounds
open Store

/-- A call of `run_once`, with what the store and everybody else do before each of its steps. -/
structure PipelineRound (service : Nat) extends Turn where
  others : Nat → List PipelineAction := fun _ => []
  foreign : ∀ stage action, .telegram action ∈ others stage → action.service ≠ some service

variable {service : Nat} (round : PipelineRound service) (userIds : List Int) (batchSize : Nat)

def PipelineRound.actions : List PipelineAction :=
  round.others 0 ++
    .telegram (.materialize service userIds batchSize round.expandAt round.expandLocked) ::
    (round.others 1 ++ .telegram (.claim service round.claimAt round.claimLocked) ::
      (round.others 2 ++ .telegram (.send service) ::
        (round.others 3 ++ .telegram (.answer service round.outcome) ::
          (round.others 4 ++ [.telegram (.mark service round.markAt)]))))

/-- The store before each step of the round. -/
def PipelineRound.before (db : Database) : Nat → Database
  | 0 => db
  | stage + 1 => (PipelineRound.before db stage).run (storeOps (round.others stage))

variable (encode : NotificationPayload → String)

theorem mem_telegramActions {encode : NotificationPayload → String} {db : Database}
    {actions : List PipelineAction} {action : Action}
    (h : action ∈ telegramActions encode db actions) :
    (∃ row, action = enqueueRow encode row) ∨ .telegram action ∈ actions := by
  induction actions generalizing db with
  | nil => cases h
  | cons first actions ih =>
    cases first with
    | telegram other =>
      rcases List.mem_cons.mp h with rfl | hrest
      · exact Or.inr List.mem_cons_self
      · exact (ih hrest).imp id fun hmem => List.mem_cons_of_mem _ hmem
    | store op =>
      rcases List.mem_append.mp h with hrow | hrest
      · obtain ⟨row, -, rfl⟩ := List.mem_map.mp hrow
        exact Or.inl ⟨row, rfl⟩
      · exact (ih hrest).imp id fun hmem => List.mem_cons_of_mem _ hmem

/-- The round as the outbox services see it. -/
def PipelineRound.seen (db : Database) : Round service where
  toTurn := round.toTurn
  others := fun stage => telegramActions encode (round.before db stage) (round.others stage)
  foreign := by
    intro stage action haction
    rcases mem_telegramActions haction with ⟨row, rfl⟩ | hmem
    · intro hsame
      cases hsame
    · exact round.foreign stage action hmem

theorem telegramActions_round (db : Database) :
    telegramActions encode db (round.actions userIds batchSize) =
      (round.seen encode db).actions userIds batchSize := by
  unfold PipelineRound.actions Round.actions
  simp only [telegramActions_append, telegramActions]
  rfl

variable (localTime : String → Int → Option Int) (maxAttempts : Nat) (retryBase : Int)

/-- The pipeline after the first rounds. -/
def afterPipelineRounds (pipeline : Pipeline) (rounds : Nat → PipelineRound service) : Nat → Pipeline
  | 0 => pipeline
  | n + 1 => runAll (pipelineStep encode localTime maxAttempts retryBase)
      (afterPipelineRounds pipeline rounds n) ((rounds n).actions userIds batchSize)

end Rounds

section Result
open Store
variable {encode : NotificationPayload → String} {localTime : String → Int → Option Int}
variable {maxAttempts : Nat} {retryBase : Int} {service : Nat} {userIds : List Int} {batchSize : Nat}
variable {pipeline : Pipeline} {rounds : Nat → PipelineRound service}

theorem afterPipelineRounds_linked (h : Linked encode maxAttempts pipeline) (n : Nat) :
    Linked encode maxAttempts (afterPipelineRounds userIds batchSize encode localTime maxAttempts
      retryBase pipeline rounds n) := by
  induction n with
  | zero => exact h
  | succ n ih => exact ih.runAll _

/-- The services go through rounds of their own. -/
theorem afterPipelineRounds_world (n : Nat) :
    (afterPipelineRounds userIds batchSize encode localTime maxAttempts retryBase pipeline rounds
      n).world =
    afterRounds localTime maxAttempts retryBase userIds batchSize pipeline.world
      (fun k => (rounds k).seen encode (afterPipelineRounds userIds batchSize encode localTime
        maxAttempts retryBase pipeline rounds k).db) n := by
  induction n with
  | zero => rfl
  | succ n ih =>
    have hround := (@runAll_pipeline encode localTime maxAttempts retryBase (afterPipelineRounds
      userIds batchSize encode localTime maxAttempts retryBase pipeline rounds n)
        ((rounds n).actions userIds batchSize)).2
    rw [telegramActions_round, ih] at hround
    exact hround

theorem afterPipelineRounds_covers {known : List Int} {old : List Nat}
    (h : Covers known old pipeline.world) (hknown : known ⊆ userIds)
    (hlists : ∀ n stage action, .telegram action ∈ (rounds n).others stage →
      action.Lists userIds) (n : Nat) :
    Covers known old (afterPipelineRounds userIds batchSize encode localTime maxAttempts retryBase
      pipeline rounds n).world := by
  induction n with
  | zero => exact h
  | succ n ih =>
    unfold afterPipelineRounds
    rw [(runAll_pipeline _ _).2]
    apply ih.runAll hknown
    intro action haction
    rcases mem_telegramActions haction with ⟨row, rfl⟩ | hmem
    · exact trivial
    · simp only [PipelineRound.actions, List.mem_append, List.mem_cons, List.not_mem_nil, or_false]
        at hmem
      rcases hmem with hmem | heq | hmem | heq | hmem | heq | hmem | heq | hmem | heq
      · exact hlists n 0 action hmem
      · cases heq
        exact rfl
      · exact hlists n 1 action hmem
      · cases heq
        exact trivial
      · exact hlists n 2 action hmem
      · cases heq
        exact trivial
      · exact hlists n 3 action hmem
      · cases heq
        exact trivial
      · exact hlists n 4 action hmem
      · cases heq
        exact trivial

/-- A row of the store that is filed at some time: its record is expanded in the end, for all users
with settings unless the expansion is an old one, and none of its deliveries waits any more. -/
theorem eventually_delivered (hlinked : Linked encode maxAttempts pipeline)
    (hidle : pipeline.world.phase service = .idle) (husers : userIds ≠ []) (hbatch : 0 < batchSize)
    (hfair : Fair fun n => (rounds n).toTurn) {known : List Int} {old : List Nat}
    (hcovers : Covers known old pipeline.world) (hknown : known ⊆ userIds)
    (hlists : ∀ n stage action, .telegram action ∈ (rounds n).others stage →
      action.Lists userIds) {start : Nat} {filing : Filing}
    (hfiling : filing ∈ (afterPipelineRounds userIds batchSize encode localTime maxAttempts
      retryBase pipeline rounds start).filings) :
    ∃ n ≥ start, ∀ m ≥ n,
      let tables := (afterPipelineRounds userIds batchSize encode localTime maxAttempts retryBase
        pipeline rounds m).world.tables
      (∃ record ∈ tables.outbox, record.columns = filingColumns encode filing ∧
        record.status = .expanded) ∧
      (∀ row ∈ tables.deliveries, row.outboxId = filing.2 → row.status ≠ .pending) ∧
      (filing.2 ∉ old → ∀ userId ∈ known, (deliveryKeys tables).count (filing.2, userId) = 1) := by
  have hknownColumns := (@afterPipelineRounds_linked encode localTime maxAttempts retryBase service
    userIds batchSize pipeline rounds hlinked start).known filing hfiling
  rw [afterPipelineRounds_world] at hknownColumns
  obtain ⟨first, hfirst, hcolumns⟩ := List.mem_map.mp hknownColumns
  obtain ⟨n, hn, hsettled⟩ := eventually_settled hlinked.kept hidle husers hbatch hfair hfirst
  refine ⟨n, hn, ?_⟩
  intro m hm
  obtain ⟨⟨record, hrecord, hid, hstatus⟩, hrows⟩ := hsettled m hm
  have hkept := (@afterPipelineRounds_linked encode localTime maxAttempts retryBase service
    userIds batchSize pipeline rounds hlinked m).kept
  have hcovers := @afterPipelineRounds_covers encode localTime maxAttempts retryBase service
    userIds batchSize pipeline rounds known old hcovers hknown hlists m
  rw [afterPipelineRounds_world] at hkept hcovers ⊢
  have hfirstId : first.id = filing.2 := congrArg Prod.fst hcolumns
  have hsame : record.columns = filingColumns encode filing := by
    obtain ⟨last, hlast, hlastColumns⟩ := List.mem_map.mp
      ((afterRounds_columns hlinked.kept (hn.trans hm)).subset hknownColumns)
    have hlastId : last.id = filing.2 := congrArg Prod.fst hlastColumns
    rw [List.inj_on_of_nodup_map hkept.expanded.ids hrecord hlast
      (hid.trans (hfirstId.trans hlastId.symm))]
    exact hlastColumns
  refine ⟨⟨record, hrecord, hsame, hstatus⟩, ?_, ?_⟩
  · intro row hrow hof
    exact hrows row hrow (hof.trans hfirstId.symm)
  · intro hnew userId huser
    obtain ⟨entry, hentry, hentryId⟩ := List.mem_map.mp
      ((hkept.expanded.recorded record hrecord).mp hstatus)
    have hfor : entry.1 = filing.2 := hentryId.trans (hid.trans hfirstId)
    apply List.count_eq_one_of_mem hkept.expanded.distinct
    rcases hcovers.expansions entry hentry with hold | hall
    · exact absurd (hfor ▸ hold) hnew
    · exact hfor ▸ hkept.expanded.delivered entry hentry userId (hall huser)

/-- A user, a signal that is published and covered, and a service that has started. -/
def notifiedHistory : List PipelineAction :=
  [.telegram (.configure { userId := 7 }),
    .store (.publishCandidates [(candidateRecord 1 1 sampleCandidate, sampleCandidate)] .standard 0),
    .store (.applyTransition { signalId := 1, target := .active, eventTime := 1,
                               idempotencyKey := "a", eventType := "trade_coverage_ready" }),
    .telegram (.recover 0 0 0 fun _ => false)]

/-- Rounds in which everything is sent; the entry is filled before the first send call. -/
def notifiedRounds (n : Nat) : PipelineRound 0 where
  expandAt := n
  claimAt := n
  outcome := .success n
  markAt := n
  others := fun stage => if stage = 2 ∧ n = 0 then
    [.store (.applyTransition { signalId := 1, target := .entered, eventTime := 2,
                                idempotencyKey := "b", eventType := "entry_filled" })] else []
  foreign := by
    intro stage action haction
    split at haction
    · simp at haction
    · cases haction

def notifiedPipeline : Nat → Pipeline :=
  afterPipelineRounds [7] 20 (fun payload => payload.symbol) (fun _ _ => none) 5 2
    (runAll (pipelineStep (fun payload => payload.symbol) (fun _ _ => none) 5 2)
      { db := Database.initial [⟨"BTCUSDT", 480⟩] [] [candidateRecord 1 1 sampleCandidate] }
      notifiedHistory) notifiedRounds

end Result

end StructurePulse.Telegram
