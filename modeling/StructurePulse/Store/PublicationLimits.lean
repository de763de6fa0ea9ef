import StructurePulse.Library.OrderedLists
import StructurePulse.Library.Windows
import StructurePulse.Store.Runs

/-!
# Publication limits of the whole portfolio

A publisher holds the advisory lock from its query to its commit; in between, and at
any other time, lifecycle transitions commit. `Covers` says that the observations it
loaded still stand for every signal the policy has to count.
-/

namespace StructurePulse.Store
open Signals Strategy Library
set_option autoImplicit false

section Machine

/-- A candidate with the row `StrategyRepository` has just saved for it. -/
structure SavedCandidate where
  id : Nat
  snapshotId : Nat
  candidate : SignalCandidate
  deriving DecidableEq

def SavedCandidate.pair (saved : SavedCandidate) : SignalCandidateRecord × SignalCandidate :=
  (candidateRecord saved.id saved.snapshotId saved.candidate, saved.candidate)

/-- A publisher between its query and the end of its transaction. -/
structure Publication where
  observations : List SignalObservation
  candidates : List SavedCandidate
  publicationTime : Int
  deriving DecidableEq

/-- `publishing` is the holder of the advisory lock. -/
structure Portfolio where
  db : Database
  publishing : Option Publication := none
  deriving DecidableEq

inductive PortfolioOp where
  | query (candidates : List SavedCandidate) (publicationTime : Int)
  | commit
  | rollback
  | applyTransition (request : TransitionRequest)
  | checkpointTrade (signalId : Nat) (tradeId : String) (executedAt sequence : Int)
  | recordTrackingEvent (request : TrackingRequest)
  deriving DecidableEq

/-- The store operation of a step that is not part of a publication. -/
def PortfolioOp.storeOp : PortfolioOp → Option StoreOp
  | .applyTransition request => some (.applyTransition request)
  | .checkpointTrade signalId tradeId executedAt sequence =>
    some (.checkpointTrade signalId tradeId executedAt sequence)
  | .recordTrackingEvent request => some (.recordTrackingEvent request)
  | _ => none

def publishSaved (db : Database) (publication : Publication) (config : SignalPolicyConfig) :
    Except StoreError (Database × SignalPublicationResult) :=
  publishObserved db publication.observations (publication.candidates.map SavedCandidate.pair)
    config publication.publicationTime

/-- A query waits while the lock is held; a commit that raises is a rollback. -/
def Portfolio.step (config : SignalPolicyConfig) (state : Portfolio) (op : PortfolioOp) :
    Portfolio :=
  match op, state.publishing with
  | .query candidates publicationTime, none =>
    { state with publishing := some {
        observations := observe state.db.signals (earliest config publicationTime)
        candidates := candidates
        publicationTime := publicationTime } }
  | .query _ _, some _ => state
  | .commit, some publication =>
    match publishSaved state.db publication config with
    | .ok (db, _) => { db := db }
    | .error _ => { db := state.db }
  | .commit, none => state
  | .rollback, _ => { db := state.db }
  | op, _ =>
    match op.storeOp with
    | some op => { state with db := transact StoreOp.exec state.db op }
    | none => state

def Portfolio.run (config : SignalPolicyConfig) (state : Portfolio) (ops : List PortfolioOp) :
    Portfolio := ops.foldl (Portfolio.step config) state

end Machine

section Marks

/-- Symbol and creation time of every signal that is not suppressed, oldest row first. -/
def marks (signals : List SignalRecord) : List (Symbol × Int) :=
  (signals.filter (·.status.isPublished)).map fun s => (s.symbol, s.createdAt)

/-- What may happen to a row while a publisher holds the lock. -/
structure Evolved (old new : SignalRecord) : Prop where
  symbol : new.symbol = old.symbol
  createdAt : new.createdAt = old.createdAt
  published : new.status.isPublished = old.status.isPublished
  active : new.status.isActive = true → old.status.isActive = true

theorem Evolved.refl (s : SignalRecord) : Evolved s s := ⟨rfl, rfl, rfl, id⟩

theorem Evolved.trans {s t u : SignalRecord} (h : Evolved s t) (k : Evolved t u) : Evolved s u :=
  ⟨k.symbol.trans h.symbol, k.createdAt.trans h.createdAt, k.published.trans h.published,
    fun ha => h.active (k.active ha)⟩

abbrev EvolvedTable := List.Forall₂ Evolved

theorem evolvedTable_refl (signals : List SignalRecord) : EvolvedTable signals signals :=
  List.forall₂_same.mpr fun s _ => Evolved.refl s

theorem EvolvedTable.trans {s t u : List SignalRecord} (h : EvolvedTable s t)
    (k : EvolvedTable t u) : EvolvedTable s u := by
  induction h generalizing u with
  | nil => exact k
  | cons hst _ ih =>
    cases k with
    | cons htu htail => exact .cons (hst.trans htu) (ih htail)

theorem marks_evolved {old new : List SignalRecord} (h : EvolvedTable old new) :
    marks new = marks old := by
  induction h with
  | nil => rfl
  | @cons s t _ _ hst _ ih =>
    unfold marks at ih ⊢
    rw [List.filter_cons, List.filter_cons, hst.published]
    split_ifs
    · rw [List.map_cons, List.map_cons, hst.symbol, hst.createdAt, ih]
    · exact ih

theorem countP_active_evolved {old new : List SignalRecord} (h : EvolvedTable old new) :
    new.countP (·.status.isActive) ≤ old.countP (·.status.isActive) := by
  induction h with
  | nil => exact le_refl _
  | @cons s t _ _ hst _ ih =>
    rw [List.countP_cons, List.countP_cons]
    by_cases ha : t.status.isActive = true
    · rw [if_pos ha, if_pos (hst.active ha)]
      omega
    · rw [if_neg ha]
      omega

/-- An update that evolves one row evolves the table. -/
theorem evolvedTable_replaceRow {signals : List SignalRecord}
    (hids : (signals.map SignalRecord.id).Nodup) {signal row : SignalRecord} (hmem : signal ∈ signals)
    (hid : row.id = signal.id) (hrow : Evolved signal row) :
    EvolvedTable signals (replaceRow SignalRecord.id signals row) := by
  refine List.forall₂_map_right_iff.mpr (List.forall₂_same.mpr fun s hs => ?_)
  split_ifs with heq
  · have hsame : s = signal := List.inj_on_of_nodup_map hids hs hmem (heq.trans hid)
    rw [hsame]
    exact hrow
  · exact Evolved.refl s

theorem Sound.evolved {db next : Database} (h : Sound db) {op : PortfolioOp} {storeOp : StoreOp}
    (hop : op.storeOp = some storeOp) (hnext : storeOp.exec db = .ok next) :
    EvolvedTable db.signals next.signals := by
  cases op with
  | query => cases hop
  | commit => cases hop
  | rollback => cases hop
  | applyTransition request =>
    cases hop
    obtain ⟨result, hresult⟩ := map_fst_ok hnext
    rcases applyTransition_ok hresult with ⟨hsame, -, -⟩ | ⟨-, signal, trade, tradeStatus, outbox, ht⟩
    · rw [hsame]
      exact evolvedTable_refl _
    · rw [ht.result]
      obtain ⟨hcurrent, htarget⟩ := isPublished_of_transition ht.legal
      exact evolvedTable_replaceRow h.ids (lookup_mem ht.signalRow) rfl
        ⟨rfl, rfl, htarget.trans hcurrent.symm, fun _ => isActive_of_transition ht.legal⟩
  | checkpointTrade signalId tradeId executedAt sequence =>
    cases hop
    obtain ⟨trade, -, hsame | hsame⟩ := checkpointTrade_ok hnext
    · rw [hsame]
      exact evolvedTable_refl _
    · rw [hsame]
      exact evolvedTable_refl _
  | recordTrackingEvent request =>
    cases hop
    obtain ⟨added, hadded⟩ := map_fst_ok hnext
    rcases recordTrackingEvent_ok hadded with ⟨hsame, -⟩ | ⟨-, -, _, _, -, -, -, -, -, hsame⟩
    · rw [hsame]
      exact evolvedTable_refl _
    · rw [hsame]
      exact evolvedTable_refl _

end Marks

section Covering

/-- The observations a publisher goes by still count every signal of the table that
the policy has to count. -/
structure Covers (config : SignalPolicyConfig) (publicationTime : Int)
    (observations : List SignalObservation) (signals : List SignalRecord) : Prop where
  active : signals.countP (·.status.isActive) ≤ observations.countP (·.status.isActive)
  recent : ∀ start, earliest config publicationTime ≤ start →
    (marks signals).countP (fun mark => decide (start < mark.2)) ≤
      (observations.filter (·.status.isPublished)).countP fun item => decide (start < item.createdAt)
  spaced : ∀ mark ∈ marks signals, earliest config publicationTime < mark.2 →
    ∃ item ∈ observations, item.status.isPublished = true ∧ item.symbol = mark.1 ∧
      item.createdAt = mark.2

theorem covers_observe (config : SignalPolicyConfig) (publicationTime : Int)
    (signals : List SignalRecord) :
    Covers config publicationTime (observe signals (earliest config publicationTime)) signals := by
  refine ⟨?_, ?_, ?_⟩
  · unfold observe
    rw [List.countP_map, List.countP_filter]
    refine List.countP_mono_left fun s _ ha => ?_
    simp_all [SignalRecord.observation]
  · intro start hstart
    unfold observe marks
    rw [List.filter_map, List.countP_map, List.countP_map, List.filter_filter, List.countP_filter,
      List.countP_filter]
    refine List.countP_mono_left fun s _ hs => ?_
    simp only [Function.comp_apply, SignalRecord.observation, Bool.and_eq_true, Bool.or_eq_true,
      decide_eq_true_eq] at hs ⊢
    exact ⟨decide_eq_true hs.1, hs.2, Or.inr (lt_of_le_of_lt hstart hs.1)⟩
  · intro mark hmark hrecent
    obtain ⟨s, hs, rfl⟩ := List.mem_map.mp hmark
    obtain ⟨hs, hpublished⟩ := List.mem_filter.mp hs
    refine ⟨s.observation, List.mem_map_of_mem (List.mem_filter.mpr ⟨hs, ?_⟩), hpublished, rfl, rfl⟩
    simp [hrecent]

theorem Covers.evolved {config : SignalPolicyConfig} {publicationTime : Int}
    {observations : List SignalObservation} {old new : List SignalRecord}
    (h : Covers config publicationTime observations old) (hevolved : EvolvedTable old new) :
    Covers config publicationTime observations new where
  active := (countP_active_evolved hevolved).trans h.active
  recent := by rw [marks_evolved hevolved]; exact h.recent
  spaced := by rw [marks_evolved hevolved]; exact h.spaced

theorem marks_append (signals : List SignalRecord) (signal : SignalRecord) :
    marks (signals ++ [signal]) = marks signals ++
      if signal.status.isPublished then [(signal.symbol, signal.createdAt)] else [] := by
  unfold marks
  rw [List.filter_append, List.map_append]
  cases hp : signal.status.isPublished <;> simp [hp]

/-- A new row and its own observation keep the cover. -/
theorem Covers.append {config : SignalPolicyConfig} {publicationTime : Int}
    {observations : List SignalObservation} {signals : List SignalRecord}
    (h : Covers config publicationTime observations signals) (signal : SignalRecord) :
    Covers config publicationTime (observations ++ [signal.observation]) (signals ++ [signal]) := by
  refine ⟨?_, ?_, ?_⟩
  · rw [List.countP_append, List.countP_append]
    exact Nat.add_le_add h.active (le_refl _)
  · intro start hstart
    rw [marks_append, List.filter_append, List.countP_append, List.countP_append]
    refine Nat.add_le_add (h.recent start hstart) (le_of_eq ?_)
    cases hp : signal.status.isPublished <;> simp [SignalRecord.observation, hp]
  · intro mark hmark hrecent
    rw [marks_append] at hmark
    rcases List.mem_append.mp hmark with hmark | hmark
    · obtain ⟨item, hitem, hitem'⟩ := h.spaced mark hmark hrecent
      exact ⟨item, List.mem_append_left _ hitem, hitem'⟩
    · split_ifs at hmark with hp
      · rw [List.mem_singleton.mp hmark]
        exact ⟨signal.observation, List.mem_append_right _ (List.mem_singleton_self _), hp, rfl, rfl⟩
      · cases hmark

end Covering

section Limits

/-- The limits, as a property of the rows in the order of their publication. -/
structure Limited (config : SignalPolicyConfig) (signals : List SignalRecord) : Prop where
  active : signals.countP (·.status.isActive) ≤ config.maximumActiveSignals
  hourly : RateLimited oneHour config.maximumSignalsPerHour ((marks signals).map Prod.snd)
  burst : RateLimited (minutes config.burstWindowMinutes) config.burstMaximumSignals
    ((marks signals).map Prod.snd)
  cooldown : (marks signals).Pairwise fun before after =>
    before.1 = after.1 → before.2 ≤ after.2 - minutes config.cooldownMinutes

theorem Limited.evolved {config : SignalPolicyConfig} {old new : List SignalRecord}
    (h : Limited config old) (hevolved : EvolvedTable old new) : Limited config new where
  active := (countP_active_evolved hevolved).trans h.active
  hourly := by rw [marks_evolved hevolved]; exact h.hourly
  burst := by rw [marks_evolved hevolved]; exact h.burst
  cooldown := by rw [marks_evolved hevolved]; exact h.cooldown

theorem earliest_le_hour (config : SignalPolicyConfig) (publicationTime : Int) :
    earliest config publicationTime ≤ publicationTime - oneHour :=
  Int.sub_le_sub_left ((le_max_left _ _).trans (le_max_left _ _)) _

theorem earliest_le_cooldown (config : SignalPolicyConfig) (publicationTime : Int) :
    earliest config publicationTime ≤ publicationTime - minutes config.cooldownMinutes :=
  Int.sub_le_sub_left ((le_max_right _ _).trans (le_max_left _ _)) _

theorem earliest_le_burst (config : SignalPolicyConfig) (publicationTime : Int) :
    earliest config publicationTime ≤ publicationTime - minutes config.burstWindowMinutes :=
  Int.sub_le_sub_left (le_max_right _ _) _

/-- One pass of the publication loop keeps the limits. -/
theorem Limited.published {config : SignalPolicyConfig} {publicationTime : Int}
    {state next : Publishing} {record : SignalCandidateRecord} {candidate : SignalCandidate}
    (hsymbol : record.symbol = candidate.symbol)
    (hcovers : Covers config publicationTime state.observations state.db.signals)
    (h : Limited config state.db.signals)
    (hpass : publishOne config publicationTime state (record, candidate) = .ok next) :
    Covers config publicationTime next.observations next.db.signals ∧
      Limited config next.db.signals := by
  obtain ⟨signal, event, trades, hp⟩ := publishOne_ok hpass
  have hsignals : next.db.signals = state.db.signals ++ [signal] := by rw [hp.db]
  rw [hsignals, hp.observations]
  refine ⟨hcovers.append signal, ?_⟩
  cases hallowed : (evaluatePublication candidate state.observations publicationTime config).allowed
  · -- a suppressed row is not counted anywhere
    have hstatus : signal.status = .suppressed := by rw [hp.status, hallowed]; rfl
    have hmarks : marks (state.db.signals ++ [signal]) = marks state.db.signals := by
      rw [marks_append, hstatus]
      exact List.append_nil _
    refine ⟨?_, hmarks ▸ h.hourly, hmarks ▸ h.burst, hmarks ▸ h.cooldown⟩
    rw [List.countP_append, List.countP_singleton, hstatus]
    exact h.active
  · have hstatus : signal.status = .preparing := by rw [hp.status, hallowed]; rfl
    have hadmissible := admissible_of_allowed hallowed
    have hmarks : marks (state.db.signals ++ [signal]) =
        marks state.db.signals ++ [(candidate.symbol, publicationTime)] := by
      rw [marks_append, hstatus, hp.symbol, hp.createdAt, hsymbol]
      rfl
    refine ⟨?_, ?_, ?_, ?_⟩
    · rw [List.countP_append, List.countP_singleton, hstatus]
      exact Nat.succ_le_of_lt (lt_of_le_of_lt hcovers.active hadmissible.active)
    · rw [hmarks, List.map_append]
      refine h.hourly.snoc ?_
      rw [List.countP_map]
      exact lt_of_le_of_lt (hcovers.recent _ (earliest_le_hour config publicationTime))
        hadmissible.hourly
    · rw [hmarks, List.map_append]
      refine h.burst.snoc ?_
      rw [List.countP_map]
      exact lt_of_le_of_lt (hcovers.recent _ (earliest_le_burst config publicationTime))
        hadmissible.burst
    · rw [hmarks, List.pairwise_append]
      refine ⟨h.cooldown, List.pairwise_singleton _ _, ?_⟩
      intro mark hmark new hnew hsame
      rw [List.mem_singleton.mp hnew] at hsame ⊢
      by_contra hnot
      have hrecent := lt_of_le_of_lt (earliest_le_cooldown config publicationTime) (not_le.mp hnot)
      obtain ⟨item, hitem, hpublished, hitemSymbol, hcreated⟩ := hcovers.spaced mark hmark hrecent
      refine hnot ?_
      rw [← hcreated]
      exact hadmissible.cooldown item hitem hpublished (hitemSymbol.trans hsame)

end Limits

section Portfolio

/-- What every step keeps: the store is sound, the limits hold, and the publisher that
holds the lock decides on observations that still cover the table. -/
structure Healthy (config : SignalPolicyConfig) (state : Portfolio) : Prop where
  sound : Sound state.db
  limited : Limited config state.db.signals
  covers : ∀ publication, state.publishing = some publication →
    Covers config publication.publicationTime publication.observations state.db.signals

theorem Healthy.released {config : SignalPolicyConfig} {state : Portfolio}
    (h : Healthy config state) : Healthy config { db := state.db } :=
  ⟨h.sound, h.limited, fun _ hnone => by cases hnone⟩

theorem Healthy.transact {config : SignalPolicyConfig} {state : Portfolio}
    (h : Healthy config state) {op : PortfolioOp} {storeOp : StoreOp}
    (hop : op.storeOp = some storeOp) :
    Healthy config { state with db := transact StoreOp.exec state.db storeOp } := by
  rcases transact_cases StoreOp.exec state.db storeOp with hsame | hnext
  · rw [hsame]
    exact h
  · have hevolved := h.sound.evolved hop hnext
    exact ⟨h.sound.committed (exec_committed hnext), h.limited.evolved hevolved,
      fun publication hp => (h.covers publication hp).evolved hevolved⟩

theorem Healthy.committed {config : SignalPolicyConfig} {state : Portfolio}
    (h : Healthy config state) {publication : Publication}
    (hp : state.publishing = some publication) {db : Database} {result : SignalPublicationResult}
    (hnext : publishSaved state.db publication config = .ok (db, result)) :
    Healthy config { db := db } := by
  obtain ⟨last, hloop, hlast⟩ := bind_eq_ok.mp hnext
  cases hlast
  have hkept := foldlM_invariant (P := fun s : Publishing => Sound s.db ∧
    Covers config publication.publicationTime s.observations s.db.signals ∧
    Limited config s.db.signals) (fun s pair hpair next hs hpass => by
      obtain ⟨hsound, hcovers, hlimited⟩ := hs
      obtain ⟨saved, -, rfl⟩ := List.mem_map.mp (List.mem_filter.mp hpair).1
      obtain ⟨signal, event, trades, hpublished⟩ := publishOne_ok hpass
      exact ⟨hsound.published hpublished, hlimited.published rfl hcovers hpass⟩)
    ⟨h.sound, h.covers publication hp, h.limited⟩ hloop
  exact ⟨hkept.1, hkept.2.2, fun _ hnone => by cases hnone⟩

theorem Healthy.step {config : SignalPolicyConfig} {state : Portfolio} (h : Healthy config state)
    (op : PortfolioOp) : Healthy config (state.step config op) := by
  unfold Portfolio.step
  split
  · refine ⟨h.sound, h.limited, fun publication hp => ?_⟩
    cases hp
    exact covers_observe config _ state.db.signals
  · exact h
  · rename_i hlock
    split
    · exact h.committed hlock ‹_›
    · exact h.released
  · exact h
  · exact h.released
  · split
    · exact h.transact ‹_›
    · exact h

theorem Healthy.run {config : SignalPolicyConfig} {state : Portfolio} (h : Healthy config state)
    (ops : List PortfolioOp) : Healthy config (state.run config ops) := by
  induction ops generalizing state with
  | nil => exact h
  | cons op ops ih => exact ih (h.step op)

theorem healthy_initial (config : SignalPolicyConfig) (instruments : List InstrumentRecord)
    (snapshots : List AnalysisSnapshotRecord) (candidates : List SignalCandidateRecord) :
    Healthy config { db := Database.initial instruments snapshots candidates } := by
  refine ⟨sound_initial rfl rfl rfl rfl, ⟨Nat.zero_le _, .nil, .nil, .nil⟩, ?_⟩
  intro publication hp
  cases hp

/-- The number of signals, suppressed ones aside, with a creation time in a window. -/
def publishedWithin (signals : List SignalRecord) (window : Int → Prop) [DecidablePred window] :
    Nat :=
  signals.countP fun s => s.status.isPublished && decide (window s.createdAt)

theorem publishedWithin_eq (signals : List SignalRecord) (window : Int → Prop)
    [DecidablePred window] : publishedWithin signals window =
      ((marks signals).map Prod.snd).countP fun t => decide (window t) := by
  unfold publishedWithin marks
  rw [List.countP_map, List.countP_map, List.countP_filter]
  refine List.countP_congr fun s _ => ?_
  simp [and_comm]

theorem Sound.countP_active_le_one {db : Database} (h : Sound db) (symbol : Symbol) :
    (db.signals.countP fun s => s.symbol = symbol && s.status.isActive) ≤ 1 := by
  rw [List.countP_eq_length_filter]
  have hnodup : (db.signals.filter fun s => s.symbol = symbol && s.status.isActive).Nodup :=
    (List.Nodup.of_map _ h.ids).filter _
  have hsame : ∀ s ∈ db.signals.filter fun s => s.symbol = symbol && s.status.isActive,
      ∀ t ∈ db.signals.filter fun s => s.symbol = symbol && s.status.isActive, s = t := by
    intro s hs t ht
    rw [List.mem_filter, Bool.and_eq_true, decide_eq_true_eq] at hs ht
    exact List.inj_on_of_nodup_map h.ids hs.1 ht.1
      (h.oneActive s hs.1 t ht.1 hs.2.2 ht.2.2 (hs.2.1.trans ht.2.1.symm))
  rcases hrows : db.signals.filter (fun s => s.symbol = symbol && s.status.isActive) with
    _ | ⟨s, _ | ⟨t, rest⟩⟩
  · rw [hrows]
    exact Nat.zero_le _
  · rw [hrows]
    exact le_refl _
  · rw [hrows] at hnodup hsame
    have heq := hsame s (by simp) t (by simp)
    subst heq
    simp at hnodup

/-- The limits hold in every portfolio the publishers and the tracker can reach. -/
theorem publication_limits (config : SignalPolicyConfig) (instruments : List InstrumentRecord)
    (snapshots : List AnalysisSnapshotRecord) (candidates : List SignalCandidateRecord)
    (ops : List PortfolioOp) :
    let signals := (Portfolio.run config
      { db := Database.initial instruments snapshots candidates } ops).db.signals
    (∀ symbol, (signals.countP fun s => s.symbol = symbol && s.status.isActive) ≤ 1) ∧
    signals.countP (·.status.isActive) ≤ config.maximumActiveSignals ∧
    (∀ start : Int,
      publishedWithin signals (fun t => start < t ∧ t ≤ start + oneHour)
        ≤ config.maximumSignalsPerHour ∧
      publishedWithin signals (fun t => start ≤ t ∧ t < start + oneHour)
        ≤ config.maximumSignalsPerHour ∧
      publishedWithin signals (fun t => start < t ∧ t ≤ start + minutes config.burstWindowMinutes)
        ≤ config.burstMaximumSignals ∧
      publishedWithin signals (fun t => start ≤ t ∧ t < start + minutes config.burstWindowMinutes)
        ≤ config.burstMaximumSignals) ∧
    ∀ s ∈ signals, ∀ t ∈ signals, s.id ≠ t.id → s.status ≠ .suppressed → t.status ≠ .suppressed →
      s.symbol = t.symbol → minutes config.cooldownMinutes ≤ |s.createdAt - t.createdAt| := by
  intro signals
  have h := (healthy_initial config instruments snapshots candidates).run ops
  refine ⟨h.sound.countP_active_le_one, h.limited.active, fun start => ?_, ?_⟩
  · simp only [publishedWithin_eq]
    exact ⟨h.limited.hourly.countP_Ioc_le start, h.limited.hourly.countP_Ico_le start,
      h.limited.burst.countP_Ioc_le start, h.limited.burst.countP_Ico_le start⟩
  · intro s hs t ht hne hsp htp hsymbol
    have hspaced := h.limited.cooldown
    rw [marks, List.pairwise_map] at hspaced
    have hsmem : s ∈ signals.filter (·.status.isPublished) :=
      List.mem_filter.mpr ⟨hs, (isPublished_iff _).mpr hsp⟩
    have htmem : t ∈ signals.filter (·.status.isPublished) :=
      List.mem_filter.mpr ⟨ht, (isPublished_iff _).mpr htp⟩
    rcases pairwise_trichotomy hspaced hsmem htmem with heq | hst | hts
    · exact absurd (congrArg SignalRecord.id heq) hne
    · have hle := hst hsymbol
      rw [abs_sub_comm]
      exact le_trans (by simp only at hle; omega) (le_abs_self (t.createdAt - s.createdAt))
    · have hle := hts hsymbol.symm
      exact le_trans (by simp only at hle; omega) (le_abs_self (s.createdAt - t.createdAt))

/-- Two publishers of one symbol; the second has taken its time before the first. -/
def samplePublishers : List PortfolioOp :=
  [.query [⟨1, 1, sampleCandidate⟩] oneMinute, .query [⟨2, 1, sampleCandidate⟩] 0, .commit,
    .query [⟨2, 1, sampleCandidate⟩] 0, .commit]

def samplePolicy : SignalPolicyConfig := .standard

def sampleCandidates : List SignalCandidateRecord :=
  [candidateRecord 1 1 sampleCandidate, candidateRecord 2 1 sampleCandidate]

def samplePortfolio : Portfolio :=
  Portfolio.run samplePolicy { db := Database.initial [⟨"BTCUSDT", 480⟩] [] sampleCandidates }
    samplePublishers

theorem publication_limits_sample :
    samplePortfolio.db.signals.map (fun s => (s.createdAt, s.status)) =
      [(oneMinute, .preparing), (0, .suppressed)] ∧
    samplePortfolio.db.signals.countP (·.status.isActive) ≤ samplePolicy.maximumActiveSignals :=
  ⟨by decide +kernel,
    (publication_limits samplePolicy [⟨"BTCUSDT", 480⟩] [] sampleCandidates samplePublishers).2.1⟩

end Portfolio

end StructurePulse.Store
