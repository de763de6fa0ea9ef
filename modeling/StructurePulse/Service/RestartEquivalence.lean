import StructurePulse.Library.Rounding
import StructurePulse.Service.CandleOrder
import StructurePulse.Service.Restart
import StructurePulse.Signals.Decimals

/-!
# A session that is interrupted ends like one that is not

Each operation keeps `Session.Sound`; in the end nothing is ahead, so the rows are at
the ledger both sessions lead to.
-/

namespace StructurePulse.Service
open Signals Store Strategy Library
set_option autoImplicit false

section Steps
variable {exchange : List PublicTrade} {symbol : Symbol} {id : Nat} {created : Int} {final : Ledger}
variable {s : Session}

theorem resume_eq {signal : TrackingSignalView} {anchor : Int}
    (hsignal : s.tracker.signal = some signal) (hid : signal.id = id)
    (hpending : s.tracker.coveragePending = some anchor) (life : Nat) :
    s.resume exchange symbol id life =
      match { s.tracker with life := life }.activate signal anchor
          (tradesFrom exchange anchor).length with
      | .ok t =>
        { s with tracker := t, running := true, todo := tradesFrom exchange anchor, cut := none }
      | .error left =>
        { tracker := restarted symbol left.db left.calls, settled := s.settled, cut := s.cut } := by
  have hfilter : (some signal).filter (fun signal => signal.id = id) = some signal :=
    Option.filter_some_pos (by simpa using hid)
  cases hactivated : { s.tracker with life := life }.activate signal anchor
      (tradesFrom exchange anchor).length with
  | ok t =>
    unfold Session.resume
    rw [hsignal, hpending, hfilter]
    simp only [hactivated]
  | error left =>
    unfold Session.resume
    rw [hsignal, hpending, hfilter]
    simp only [hactivated]

section Waiting
variable {l : Ledger} {signal : TrackingSignalView}
variable (h : s.Sound exchange symbol id created final) (hsettled : s.settled = [])
variable (hcut : s.cut = none) (hrows : At s.tracker.db id l created)
variable (hstatus : l.view.status = .preparing) (hsymbol : l.view.symbol = symbol)
variable (hready : Ready id s.tracker signal) (hanchor : signal.coverageAnchor = created)
variable (houtcome : (tradesFrom exchange created).foldl Ledger.process (l.activated created) = final)
include h hrows hstatus hready

theorem waiting_signal : signal.status = .preparing := by
  rw [← hstatus, (view_of_rows h hrows hready.memory hready.sameId).1]
  rfl

include hsymbol hanchor houtcome

/-- The coverage of a signal that waits for it, by a process that lives to activate it. -/
theorem Session.Sound.resume_activates (life : Nat) :
    ∃ t, s.resume exchange symbol id (life + 1) =
        { s with tracker := t, running := true, todo := tradesFrom exchange created, cut := none } ∧
      (s.resume exchange symbol id (life + 1)).Sound exchange symbol id created final := by
  have hpreparing := waiting_signal h hrows hstatus hready
  have htracked : Tracked AnyCall nothing symbol { s.tracker with life := life + 1 } :=
    h.tracked.withMemory rfl rfl rfl
  obtain ⟨t, hok, hmoved, -, hsome, hat⟩ := htracked.transition_at hready.memory
    (hready.sameId ▸ hrows) (activationRequest signal created (tradesFrom exchange created).length)
    rfl (hpreparing ▸ (show SignalStatus.active ∈ signalTransitions .preparing by decide))
    (wellKeyed_of_first (coverageKey_first _ _) (show 0 < SignalStatus.active.rank by decide))
    (h.tracked.fresh_coverage hready.memory hpreparing created) rfl
  have hresume : s.resume exchange symbol id (life + 1) =
      { s with
        tracker := t.covered
        running := true
        todo := tradesFrom exchange created
        cut := none } := by
    rw [resume_eq hready.memory hready.sameId (hanchor ▸ hready.pending)]
    unfold Tracker.activate
    rw [if_pos hpreparing, hok]
    rfl
  refine ⟨t.covered, hresume, ?_⟩
  rw [hready.sameId] at hat
  rw [hresume]
  refine ⟨hmoved.covered, .running (l.activated created) _ [] [] (tradesFrom exchange created)
    ⟨rfl, ?_, ⟨created, hat, ⟨le_refl created, ?_⟩⟩, rfl, ?_, hsymbol⟩ rfl rfl hsome hready.sameId
    ⟨?_, ?_⟩ rfl ?_ houtcome⟩
  · exact fun trade htrade => absurd htrade List.not_mem_nil
  · exact fun trade htrade => of_decide_eq_true (List.mem_filter.mp htrade).2
  · exact (show 0 < SignalStatus.active.rank by decide)
  · exact le_of_eq hanchor.symm
  · exact fun trade htrade => hanchor.symm ▸ of_decide_eq_true (List.mem_filter.mp htrade).2
  · exact fun trade htrade => absurd htrade List.not_mem_nil

include hsettled hcut

theorem Session.Sound.resume_waiting (life : Nat) :
    (s.resume exchange symbol id life).Sound exchange symbol id created final := by
  cases life with
  | zero =>
    rw [resume_eq hready.memory hready.sameId (hanchor ▸ hready.pending)]
    unfold Tracker.activate
    rw [if_pos (waiting_signal h hrows hstatus hready), hsettled, hcut]
    exact Phase.wait s.tracker.calls h.tracked.journal hrows hstatus hsymbol houtcome
  | succ life =>
    obtain ⟨t, -, hsound⟩ :=
      h.resume_activates hrows hstatus hsymbol hready hanchor houtcome life
    exact hsound

end Waiting

/-- The coverage after an interruption: what is done comes first and reaches nothing. -/
theorem Session.Sound.resume_interrupted (h : s.Sound exchange symbol id created final)
    {l : Ledger} {signal : TrackingSignalView} {done rest : List PublicTrade}
    (hopen : Open exchange symbol id created s l done rest) (hready : Ready id s.tracker signal)
    (hanchor : Reaches created rest signal.coverageAnchor)
    (houtcome : (∀ trade ∈ s.cut, beyondStop l.view.direction l.view.currentStop trade.price =
      false) → rest.foldl Ledger.process l = final)
    (hharmless : HarmlessResume s) (life : Nat) :
    (s.resume exchange symbol id life).Sound exchange symbol id created final := by
  obtain ⟨anchor, hrows, hreaches⟩ := hopen.rows
  have hview := (view_of_rows h hrows hready.memory hready.sameId).1
  have hstate : lifecycleState l.view = lifecycleState signal := by
    rw [hview]
    rfl
  have hbegun : signal.status ≠ .preparing := by
    intro hpreparing
    have hrank := hopen.begun
    rw [hview, show (withoutCheckpoint signal).status = signal.status from rfl, hpreparing] at hrank
    exact absurd hrank (by decide)
  obtain ⟨hagain, hstop⟩ := hharmless signal hready.memory _ hready.pending
  rw [resume_eq hready.memory hready.sameId hready.pending]
  unfold Tracker.activate
  rw [if_neg hbegun]
  have htodo : tradesFrom exchange signal.coverageAnchor =
      done.filter (fun trade => decide (signal.coverageAnchor ≤ trade.executedAt)) ++ rest := by
    rw [tradesFrom_eq_filter hanchor.created, hopen.split, List.filter_append,
      List.filter_eq_self.mpr fun trade htrade => decide_eq_true (hanchor.rest trade htrade)]
  refine ⟨h.tracked.withMemory rfl rfl rfl, .running l signal done _ rest ⟨hopen.split, hopen.settled,
    ⟨anchor, hrows, hreaches⟩, hopen.active, hopen.begun, hopen.symbol⟩ rfl rfl hready.memory
    hready.sameId hanchor htodo ?_ (houtcome ?_)⟩
  · intro trade htrade
    obtain ⟨hdone, hlate⟩ := List.mem_filter.mp htrade
    refine ⟨hdone, ?_⟩
    rw [hstate]
    exact hagain trade (hopen.settled trade hdone) (of_decide_eq_true hlate)
  · rw [hview]
    exact hstop

theorem Session.Sound.resume (h : s.Sound exchange symbol id created final)
    (hrunning : s.running = false) (hharmless : HarmlessResume s) (life : Nat) :
    (s.resume exchange symbol id life).Sound exchange symbol id created final := by
  cases h.phase with
  | waiting l signal running settled cut rows status sameSymbol ready anchor outcome =>
    exact h.resume_waiting settled cut rows status sameSymbol ready anchor outcome life
  | running l signal done replayed rest position running =>
    rw [hrunning] at running
    cases running
  | interrupted l signal done rest position running ready anchor outcome =>
    exact h.resume_interrupted position ready anchor outcome hharmless life
  | closed l anchor rows inactive outcome idle =>
    -- the memory holds no closed signal
    have hnone : s.tracker.signal.filter (fun signal => signal.id = id) = none := by
      refine Option.filter_eq_none_iff.mpr fun signal hsignal hid => ?_
      obtain ⟨hview, hactive⟩ := view_of_rows h rows hsignal (of_decide_eq_true hid)
      rw [hview, show (withoutCheckpoint signal).status = signal.status from rfl, hactive] at inactive
      cases inactive
    unfold Session.resume
    rw [hnone]
    exact ⟨h.tracked, .closed l anchor rows inactive outcome fun _ => Or.inr rfl⟩

end Steps

section Evaluation
variable {exchange : List PublicTrade} {symbol : Symbol} {id : Nat} {created : Int} {final : Ledger}
variable {s : Session}

/-- The trades ahead of a running session: those it evaluates for a second time, which
reach nothing, then the new ones. -/
structure Course (exchange : List PublicTrade) (created : Int) (final : Ledger)
    (settled todo : List PublicTrade) (l : Ledger) (done replayed rest : List PublicTrade) : Prop where
  split : tradesFrom exchange created = done ++ rest
  settled : ∀ trade ∈ done, trade ∈ settled
  todo : todo = replayed ++ rest
  again : ∀ trade ∈ replayed, trade ∈ done ∧ tradeReaches (lifecycleState l.view) trade = false
  outcome : rest.foldl Ledger.process l = final

theorem Course.step {settled todo done replayed rest : List PublicTrade} {trade : PublicTrade}
    {l : Ledger} (h : Course exchange created final settled (trade :: todo) l done replayed rest) :
    ∃ done' replayed' rest', trade ∈ done' ∧
      Course exchange created final (settled ++ [trade]) todo (l.process trade) done' replayed' rest' ∧
      ∀ anchor, Reaches created rest anchor → Reaches created rest' anchor := by
  cases replayed with
  | cons head replayed =>
    have htodo := h.todo
    rw [List.cons_append, List.cons.injEq] at htodo
    obtain ⟨rfl, htodo⟩ := htodo
    obtain ⟨hdone, hreaches⟩ := h.again trade List.mem_cons_self
    rw [Ledger.process_of_not_reaches hreaches]
    refine ⟨done, replayed, rest, hdone, ⟨h.split, ?_, htodo, ?_, h.outcome⟩, fun _ hanchor => hanchor⟩
    · exact fun t ht => List.mem_append_left _ (h.settled t ht)
    · exact fun t ht => h.again t (List.mem_cons_of_mem trade ht)
  | nil =>
    have htodo : trade :: todo = rest := h.todo
    subst htodo
    refine ⟨done ++ [trade], [], todo, List.mem_append_right _ (List.mem_singleton_self trade),
      ⟨?_, ?_, rfl, ?_, h.outcome⟩, fun _ hanchor => hanchor.tail⟩
    · rw [h.split, List.append_assoc, List.singleton_append]
    · intro t ht
      rcases List.mem_append.mp ht with hbefore | hnow
      · exact List.mem_append_left _ (h.settled t hbefore)
      · exact List.mem_append_right _ hnow
    · exact fun t ht => absurd ht List.not_mem_nil

theorem process_symbol (l : Ledger) (trade : PublicTrade) :
    (l.process trade).view.symbol = l.view.symbol :=
  foldl_book_symbol _ l

/-- Only the first booking of a jump through both targets can be cut off from the rest. -/
theorem cut_between_targets {state : LifecycleState} {trade : PublicTrade} {life : Nat}
    (hpos : 0 < life) (hlife : life < (evaluatePublicTrade state trade).length) :
    life = 1 ∧ state.status = .entered ∧ evaluatePublicTrade state trade = tp1AndTp2 state := by
  rcases evaluatePublicTrade_shape state trade with hnone | ⟨action, hone⟩ | ⟨hstatus, htwo⟩
  · rw [hnone] at hlife
    exact absurd hlife (Nat.not_lt_zero life)
  · rw [hone, List.length_singleton] at hlife
    omega
  · have hlength : (tp1AndTp2 state).length = 2 := rfl
    rw [htwo, hlength] at hlife
    exact ⟨by omega, hstatus, htwo⟩

theorem Session.evaluate_ok {trade : PublicTrade} {todo : List PublicTrade} {due : Bool} {life : Nat}
    {t : Tracker} (htodo : s.todo = trade :: todo)
    (h : { s.tracker with life := life }.processTrade trade due = .ok t) :
    s.evaluate symbol due life =
      { s with tracker := t, todo := todo, settled := s.settled ++ [trade] } := by
  unfold Session.evaluate
  rw [htodo]
  simp only [h]

theorem Session.evaluate_error {trade : PublicTrade} {todo : List PublicTrade} {due : Bool}
    {life : Nat} {left : Stopped} {signal : TrackingSignalView} (htodo : s.todo = trade :: todo)
    (hsignal : s.tracker.signal = some signal)
    (h : { s.tracker with life := life }.processTrade trade due = .error left) :
    s.evaluate symbol due life =
      { tracker := restarted symbol left.db left.calls
        settled :=
          if (evaluatePublicTrade (lifecycleState signal) trade).length ≤ life then
            s.settled ++ [trade]
          else s.settled
        cut :=
          if 0 < life ∧ life < (evaluatePublicTrade (lifecycleState signal) trade).length then
            some trade
          else none } := by
  unfold Session.evaluate
  rw [htodo]
  simp only [h, hsignal]

variable {l : Ledger} {signal : TrackingSignalView} {trade : PublicTrade}
variable {todo done replayed rest : List PublicTrade}

/-- A trade that was evaluated to its end. -/
theorem Session.Sound.evaluated (h : s.Sound exchange symbol id created final)
    (hordered : ExchangeOrdered exchange) {t : Tracker} {due : Bool} {life : Nat}
    (htodo : s.todo = trade :: todo) (hsignal : s.tracker.signal = some signal)
    (hid : signal.id = id) (hrunning : s.running = true) (hcut : s.cut = none)
    (hanchor : Reaches created rest signal.coverageAnchor)
    (hopen : Open exchange symbol id created s l done rest)
    (hcourse : Course exchange created final s.settled (trade :: todo) l done replayed rest)
    (hok : { s.tracker with life := life }.processTrade trade due = .ok t) :
    (s.evaluate symbol due life).Sound exchange symbol id created final := by
  obtain ⟨anchor, hrows, hreaches⟩ := hopen.rows
  have hstart : Tracked AnyCall nothing symbol { s.tracker with life := life } :=
    h.tracked.withMemory rfl rfl rfl
  obtain ⟨-, htracked, ⟨anchor', hat, hanchor'⟩, hfollows⟩ :=
    (hstart.processTrade_at (fun _ _ _ => trivial) hsignal hrows hid trade due).of_ok hok
  obtain ⟨done', replayed', rest', hmem, hnext, hkeeps⟩ := hcourse.step
  have hlate : Reaches created rest' trade.executedAt := reaches_of_done hordered hnext.split hmem
  have hdurable : Reaches created rest' anchor' := by
    rcases hanchor' with rfl | rfl
    · exact hkeeps _ hreaches
    · exact hlate
  rw [Session.evaluate_ok htodo hok]
  refine ⟨htracked, ?_⟩
  cases hactive : (l.process trade).view.status.isActive with
  | true =>
    obtain ⟨signal', hsignal'⟩ : ∃ signal', t.signal = some signal' := by
      rw [← Option.isSome_iff_exists, Option.isSome_iff_ne_none]
      intro hnone
      rw [hfollows.closed hnone] at hactive
      cases hactive
    obtain ⟨hid', hcopy⟩ := hfollows.copy signal' hsignal'
    refine .running (l.process trade) signal' done' replayed' rest' ⟨hnext.split, hnext.settled,
      ⟨anchor', hat, hdurable⟩, hactive, ?_, ?_⟩ hrunning hcut hsignal' hid' ?_ hnext.todo hnext.again
      hnext.outcome
    · exact lt_of_lt_of_le hopen.begun (l.rank_le_process trade)
    · exact (process_symbol l trade).trans hopen.symbol
    · rcases hcopy with hsame | hsame
      · exact hsame ▸ hkeeps _ hanchor
      · exact hsame ▸ hlate
  | false =>
    refine .closed _ anchor' hat hactive ?_ fun _ => Or.inl ?_
    · rw [← hnext.outcome, Ledger.foldl_process_of_closed hactive]
    · -- a copy would be one of an open row
      rw [Option.eq_none_iff_forall_ne_some]
      intro signal' hsignal'
      obtain ⟨row, record, hcopy⟩ := htracked.synced signal' hsignal'
      have hview := hat.view (hfollows.copy signal' hsignal').1 hcopy
      rw [hview, show (withoutCheckpoint signal').status = signal'.status from rfl, hcopy.status,
        hcopy.active] at hactive
      cases hactive

/-- A process that dies on a trade. -/
theorem Session.Sound.evaluate_killed (h : s.Sound exchange symbol id created final)
    {left : Stopped} {due : Bool} {life : Nat}
    (htodo : s.todo = trade :: todo) (hsignal : s.tracker.signal = some signal)
    (hid : signal.id = id)
    (hopen : Open exchange symbol id created s l done rest)
    (hcourse : Course exchange created final s.settled (trade :: todo) l done replayed rest)
    (herror : { s.tracker with life := life }.processTrade trade due = .error left) :
    (s.evaluate symbol due life).Sound exchange symbol id created final := by
  obtain ⟨anchor, hrows, hreaches⟩ := hopen.rows
  have hstart : Tracked AnyCall nothing symbol { s.tracker with life := life } :=
    h.tracked.withMemory rfl rfl rfl
  obtain ⟨hleft, hends⟩ :=
    (hstart.processTrade_at (fun _ _ _ => trivial) hsignal hrows hid trade due).of_error herror
  have hview := (view_of_rows h hrows hsignal hid).1
  have hstate : lifecycleState signal = lifecycleState l.view := by
    rw [hview]
    rfl
  rw [Session.evaluate_error htodo hsignal herror]
  rw [hstate] at hends ⊢
  rcases hends with ⟨-, hlength, hat⟩ | ⟨hlife, hat⟩
  · -- the checkpoint was lost, nothing else
    obtain ⟨done', replayed', rest', -, hnext, hkeeps⟩ := hcourse.step
    rw [if_pos hlength, if_neg (fun hboth => absurd hboth.2 (Nat.not_lt.mpr hlength))]
    refine Phase.left hleft.journal hat (hkeeps _ hreaches) hnext.split hnext.settled ?_ ?_
      (fun _ => rfl) fun _ => hnext.outcome
    · exact lt_of_lt_of_le hopen.begun (l.rank_le_process trade)
    · exact (process_symbol l trade).trans hopen.symbol
  · rw [if_neg (Nat.not_le.mpr hlife)]
    by_cases hpos : 0 < life
    · obtain ⟨rfl, hstatus, htwo⟩ := cut_between_targets hpos hlife
      rw [if_pos ⟨hpos, hlife⟩]
      have hnew : trade :: todo = rest := by
        cases replayed with
        | nil => exact hcourse.todo
        | cons head replayed =>
          have hsplit := hcourse.todo
          rw [List.cons_append, List.cons.injEq] at hsplit
          have hinert := (hcourse.again head List.mem_cons_self).2
          rw [← hsplit.1, ← evaluatePublicTrade_eq_nil_iff] at hinert
          rw [hinert] at hlife
          exact absurd hlife (Nat.not_lt_zero 1)
      have hbooked : ((evaluatePublicTrade (lifecycleState l.view) trade).zipIdx.take 1).foldl
          (Ledger.book trade) l = l.book trade (tp1Action (lifecycleState l.view), 0) := by
        rw [htwo]
        rfl
      rw [hbooked] at hat
      have hnow : (l.book trade (tp1Action (lifecycleState l.view), 0)).view.status = .tp1Reached :=
        book_status trade l _
      refine Phase.left hleft.journal hat hreaches hcourse.split hcourse.settled ?_ hopen.symbol ?_ ?_
      · rw [hnow]
        exact (show 0 < SignalStatus.tp1Reached.rank by decide)
      · intro hclosed
        rw [hnow] at hclosed
        cases hclosed
      · intro hstop
        rw [← hcourse.outcome, ← hnew, List.foldl_cons, List.foldl_cons,
          Ledger.process_again hstatus htwo (hstop trade rfl)]
    · rw [if_neg (fun hboth => hpos hboth.1)]
      obtain rfl : life = 0 := by omega
      exact Phase.left hleft.journal hat hreaches hcourse.split hcourse.settled hopen.begun
        hopen.symbol (fun _ => rfl) fun _ => hcourse.outcome

theorem Session.Sound.evaluate (h : s.Sound exchange symbol id created final)
    (hordered : ExchangeOrdered exchange) (hrunning : s.running = true) (due : Bool) (life : Nat) :
    (s.evaluate symbol due life).Sound exchange symbol id created final := by
  cases htodo : s.todo with
  | nil =>
    unfold Session.evaluate
    rw [htodo]
    exact h
  | cons trade todo =>
    cases h.phase with
    | waiting l signal running =>
      rw [hrunning] at running
      cases running
    | interrupted l signal done rest position running =>
      rw [hrunning] at running
      cases running
    | running l signal done replayed rest position running cut signalEq signalId anchor todoEq again
        outcome =>
      have hcourse : Course exchange created final s.settled (trade :: todo) l done replayed rest :=
        ⟨position.split, position.settled, htodo.symm.trans todoEq, again, outcome⟩
      cases hresult : Tracker.processTrade { s.tracker with life := life } trade due with
      | ok t =>
        exact h.evaluated hordered htodo signalEq signalId hrunning cut anchor position hcourse hresult
      | error left => exact h.evaluate_killed htodo signalEq signalId position hcourse hresult
    | closed l anchor rows inactive outcome idle =>
      rcases idle hrunning with hnone | hdone
      · have hok : Tracker.processTrade { s.tracker with life := life } trade due =
            .ok { s.tracker with life := life } := by
          unfold Tracker.processTrade
          rw [hnone]
        rw [Session.evaluate_ok htodo hok]
        exact ⟨h.tracked.withMemory rfl rfl rfl, .closed l anchor rows inactive outcome fun _ =>
          Or.inl hnone⟩
      · rw [htodo] at hdone
        cases hdone

end Evaluation

section Runs
variable {exchange : List PublicTrade} {symbol : Symbol} {id : Nat} {created : Int} {final : Ledger}
variable {s : Session}

theorem Session.Sound.step (h : s.Sound exchange symbol id created final)
    (hordered : ExchangeOrdered exchange) {op : SessionOp} (hharmless : HarmlessOp s op) :
    (s.step exchange symbol id op).Sound exchange symbol id created final := by
  cases op with
  | evaluate due life =>
    unfold Session.step
    simp only
    split_ifs with hrunning
    · exact h.evaluate hordered hrunning due life
    · exact h
  | disconnect => exact h.disconnect
  | kill => exact h.kill
  | resume life =>
    unfold Session.step
    simp only
    split_ifs with hrunning
    · exact h
    · exact h.resume (Bool.eq_false_iff.mpr hrunning) (hharmless (Bool.eq_false_iff.mpr hrunning)) life

theorem Session.Sound.run (h : s.Sound exchange symbol id created final)
    (hordered : ExchangeOrdered exchange) (ops : List SessionOp)
    (hharmless : HarmlessSession exchange symbol id s ops) :
    (s.run exchange symbol id ops).Sound exchange symbol id created final := by
  induction ops generalizing s with
  | nil => exact h
  | cons op ops ih => exact ih (h.step hordered hharmless.1) hharmless.2

/-- A session that has nothing left to evaluate is where all of them lead. -/
theorem Session.Sound.finished (h : s.Sound exchange symbol id created final)
    (hrunning : s.running = true) (hdone : s.todo = []) :
    outcome s.tracker.db id = some final.outcome := by
  cases h.phase with
  | waiting l signal running =>
    rw [hrunning] at running
    cases running
  | interrupted l signal done rest position running =>
    rw [hrunning] at running
    cases running
  | running l signal done replayed rest position running cut signalEq signalId anchor todo again
      outcome =>
    obtain ⟨anchor', hrows, -⟩ := position.rows
    rw [todo, List.append_eq_nil_iff] at hdone
    rw [hdone.2] at outcome
    rw [hrows.outcome_eq, show l = final from outcome]
  | closed l anchor rows inactive outcome idle => rw [rows.outcome_eq, outcome]

/-- No trade takes more than two transactions, apart from the checkpoint. -/
theorem processTrade_lives {t : Tracker} (h : Tracked AnyCall nothing symbol t) (hlife : t.life = 2)
    (trade : PublicTrade) (left : Stopped) : t.processTrade trade false ≠ .error left := by
  intro herror
  cases hsignal : t.signal with
  | none =>
    unfold Tracker.processTrade at herror
    rw [hsignal] at herror
    cases herror
  | some signal =>
    obtain ⟨row, record, hrows⟩ := h.synced signal hsignal
    have hat : At t.db signal.id (ledgerOf t.db row record) (trackingView row record).coverageAnchor :=
      ⟨row, record, hrows.signalRow, hrows.tradeRow, rfl, rfl⟩
    rcases ((h.processTrade_at (fun _ _ _ => trivial) hsignal hat rfl trade false).of_error herror).2
      with ⟨hdue, -⟩ | ⟨hshort, -⟩
    · cases hdue
    · rw [hlife] at hshort
      have hone := (cut_between_targets (Nat.succ_pos 1) hshort).1
      omega

/-- A process that outlives every trade works off what is ahead. -/
theorem Session.Sound.drained (h : s.Sound exchange symbol id created final)
    (hordered : ExchangeOrdered exchange) (hrunning : s.running = true) {n : Nat}
    (hlength : s.todo.length ≤ n) :
    let last := s.run exchange symbol id (List.replicate n (.evaluate false 2))
    last.Sound exchange symbol id created final ∧ last.running = true ∧ last.todo = [] := by
  induction n generalizing s with
  | zero => exact ⟨h, hrunning, List.length_eq_zero_iff.mp (Nat.le_zero.mp hlength)⟩
  | succ n ih =>
    have hnext : s.step exchange symbol id (.evaluate false 2) = s.evaluate symbol false 2 :=
      if_pos hrunning
    have hsound := h.evaluate hordered hrunning false 2
    rw [List.replicate_succ, Session.run, List.foldl_cons, hnext]
    cases htodo : s.todo with
    | nil =>
      have hsame : s.evaluate symbol false 2 = s := by
        unfold Session.evaluate
        rw [htodo]
      rw [hsame]
      exact ih h hrunning (by rw [htodo]; exact Nat.zero_le n)
    | cons trade todo =>
      rw [htodo, List.length_cons] at hlength
      obtain ⟨t, hok⟩ : ∃ t, Tracker.processTrade { s.tracker with life := 2 } trade false = .ok t := by
        cases hresult : Tracker.processTrade { s.tracker with life := 2 } trade false with
        | ok t => exact ⟨t, rfl⟩
        | error left =>
          have hstart : Tracked AnyCall nothing symbol { s.tracker with life := 2 } :=
            h.tracked.withMemory rfl rfl rfl
          exact absurd hresult (processTrade_lives hstart rfl trade left)
      rw [Session.evaluate_ok htodo hok] at hsound ⊢
      exact ih hsound hrunning (Nat.le_of_succ_le_succ hlength)

end Runs

section Bookings

/-- The transitions were made by trades of the exchange, in the exchange's order. -/
def Books (exchange : List PublicTrade) (booked : List Transition) : Prop :=
  ∃ sources : List PublicTrade, sources.Pairwise (fun a b => a.key ≤ b.key) ∧
    (∀ trade ∈ sources, trade ∈ exchange) ∧
    booked.map (fun x => (x.sourceEventId, x.eventTime)) =
      sources.map fun trade => (some trade.tradeId, trade.executedAt)

theorem foldl_book_transitions (trade : PublicTrade) (actions : List (LifecycleAction × Nat))
    (l : Ledger) : ∃ booked, (actions.foldl (Ledger.book trade) l).transitions =
        l.transitions ++ booked ∧
      booked.map (fun x => (x.sourceEventId, x.eventTime)) =
        List.replicate actions.length (some trade.tradeId, trade.executedAt) := by
  induction actions generalizing l with
  | nil => exact ⟨[], (List.append_nil _).symm, rfl⟩
  | cons head actions ih =>
    obtain ⟨booked, hbooked, hsources⟩ := ih (l.book trade head)
    have hfirst : ∃ x : Transition, (l.book trade head).transitions = l.transitions ++ [x] ∧
        (x.sourceEventId, x.eventTime) = (some trade.tradeId, trade.executedAt) := by
      obtain ⟨pnl, funding, r, hrequest⟩ := actionRequest_cases l.view head.1
        (tradeContext trade l.view head.1 head.2)
      unfold Ledger.book Ledger.apply
      rw [hrequest]
      exact ⟨_, rfl, rfl⟩
    obtain ⟨x, hx, hsource⟩ := hfirst
    refine ⟨x :: booked, ?_, ?_⟩
    · rw [List.foldl_cons, hbooked, hx, List.append_assoc, List.singleton_append]
    · rw [List.map_cons, hsource, hsources, List.length_cons, List.replicate_succ]

theorem foldl_process_books {trades : List PublicTrade} (hordered : ExchangeOrdered trades)
    (l : Ledger) : ∃ booked, (trades.foldl Ledger.process l).transitions = l.transitions ++ booked ∧
      Books trades booked := by
  induction trades generalizing l with
  | nil =>
    refine ⟨[], (List.append_nil _).symm, [], List.Pairwise.nil, ?_, rfl⟩
    exact fun trade htrade => absurd htrade List.not_mem_nil
  | cons trade trades ih =>
    obtain ⟨hlater, hordered⟩ := List.pairwise_cons.mp hordered
    obtain ⟨booked, hbooked, sources, hsorted, hmem, hsources⟩ := ih hordered (l.process trade)
    obtain ⟨first, hfirst, hfirstSources⟩ := foldl_book_transitions trade
      (evaluatePublicTrade (lifecycleState l.view) trade).zipIdx l
    refine ⟨first ++ booked, ?_, List.replicate
      (evaluatePublicTrade (lifecycleState l.view) trade).zipIdx.length trade ++ sources, ?_, ?_, ?_⟩
    · rw [List.foldl_cons, hbooked, Ledger.process, hfirst, List.append_assoc]
    · refine List.pairwise_append.mpr ⟨List.pairwise_replicate.mpr (Or.inr (le_refl _)), hsorted, ?_⟩
      intro a ha b hb
      rw [(List.mem_replicate.mp ha).2]
      exact le_of_lt (hlater b (hmem b hb))
    · intro t ht
      rcases List.mem_append.mp ht with hnow | hafter
      · rw [(List.mem_replicate.mp hnow).2]
        exact List.mem_cons_self
      · exact List.mem_cons_of_mem trade (hmem t hafter)
    · rw [List.map_append, List.map_append, hfirstSources, hsources, List.map_replicate]

/-- A signal that waits for its coverage has made no transition yet. -/
theorem Journal.no_transition {db : Database} (h : Journal db) {row : SignalRecord} {id : Nat}
    (hrow : db.findSignal id = some row) (hstatus : row.status = .preparing) :
    (db.eventsOf row.id).filter (·.isTransition) = [] := by
  refine List.filter_eq_nil_iff.mpr fun event hevent htransition => ?_
  obtain ⟨hmem, hid⟩ := List.mem_filter.mp hevent
  have hrank := h.rank_le hrow hmem ((of_decide_eq_true hid).trans (lookup_key hrow))
  simp only [SignalEventRecord.isTransition, Bool.and_eq_true, decide_eq_true_eq] at htransition
  obtain ⟨current, hcurrent⟩ := Option.isSome_iff_exists.mp htransition.1
  rcases h.lawful event hmem current hcurrent with hsame | hlegal
  · exact htransition.2 (hcurrent.trans (congrArg some hsame.symm))
  · have hahead := rank_lt_of_transition hlegal
    rw [hstatus, show SignalStatus.preparing.rank = 0 from rfl] at hrank
    omega

end Bookings

section Equivalence

/-- Whatever the service has been through, its database is a journal. -/
theorem LifecycleService.journal (instruments : List InstrumentRecord)
    (snapshots : List AnalysisSnapshotRecord) (candidates : List SignalCandidateRecord)
    (steps : List ServiceStep) :
    Journal ((LifecycleService.initial instruments snapshots candidates).run steps).db := by
  suffices hrun : ∀ (steps : List ServiceStep) (s : LifecycleService), Intact AnyCall s →
      Intact AnyCall (s.run steps) from
    (hrun steps _ (Intact.initial instruments snapshots candidates)).journal
  intro steps
  induction steps with
  | nil => exact fun _ h => h
  | cons step steps ih =>
    exact fun s h => ih _ (h.step (fun _ _ _ => trivial) (stepKeeps_any s step))

variable {exchange : List PublicTrade} {id : Nat} {db : Database} {row : SignalRecord}

/-- Where every session of a signal that waits for its first coverage leads. -/
def published (db : Database) (row : SignalRecord) (trade : VirtualTradeRecord) : Ledger :=
  (ledgerOf db row trade).activated (trackingView row trade).coverageAnchor

theorem Session.Sound.start (hjournal : Journal db) (hrow : db.findSignal id = some row)
    {trade : VirtualTradeRecord} (htrade : db.findTrade id = some trade)
    (hstatus : row.status = .preparing) :
    (Session.start row.symbol db).Sound exchange row.symbol id (trackingView row trade).coverageAnchor
      ((tradesFrom exchange (trackingView row trade).coverageAnchor).foldl Ledger.process
        (published db row trade)) :=
  Phase.wait [] hjournal ⟨row, trade, hrow, htrade, rfl, rfl⟩ hstatus rfl rfl

/-- The uninterrupted session gets to its end. -/
theorem Session.Sound.uninterrupted (hjournal : Journal db) (hrow : db.findSignal id = some row)
    {trade : VirtualTradeRecord} (htrade : db.findTrade id = some trade)
    (hstatus : row.status = .preparing) (hordered : ExchangeOrdered exchange) :
    outcome (Session.uninterrupted exchange row.symbol id db).tracker.db id =
      some ((tradesFrom exchange (trackingView row trade).coverageAnchor).foldl Ledger.process
        (published db row trade)).outcome := by
  have hstart := @Session.Sound.start exchange id db row hjournal hrow trade htrade hstatus
  have hat : At db id (ledgerOf db row trade) (trackingView row trade).coverageAnchor :=
    ⟨row, trade, hrow, htrade, rfl, rfl⟩
  obtain ⟨signal, hsignal, hid, hsame, hpending⟩ :=
    restarted_signal hjournal hat (by change row.status.isActive = true; rw [hstatus]; rfl) rfl []
  obtain ⟨t, hresume, hsound⟩ := hstart.resume_activates
    (by rw [Session.start, restarted_db]; exact hat) hstatus rfl ⟨hsignal, hid, hpending⟩ hsame rfl 0
  rw [hresume] at hsound
  have hfirst : (Session.start row.symbol db).step exchange row.symbol id (.resume 1) =
      (Session.start row.symbol db).resume exchange row.symbol id 1 := rfl
  obtain ⟨hlast, hrunning, hdone⟩ := hsound.drained hordered rfl (List.length_filter_le _ exchange)
  rw [Session.uninterrupted, Session.run, List.foldl_cons, hfirst, hresume]
  exact hlast.finished hrunning hdone

end Equivalence

section Crash

def publishedDb : Database :=
  (sampleService.run [.publish [(candidateRecord 1 1 sampleCandidate, sampleCandidate)] .standard 0]).db

/-- The first target trades at 1:10, the entry at 1:20. -/
def targetThenEntry : List PublicTrade :=
  [tradeAtSecond "a" 70 104, tradeAtSecond "b" 80 100, tradeAtSecond "c" 90 102]

/-- A kill after the entry, which was checkpointed or not. -/
def crashAfterEntry (due : Bool) : List SessionOp :=
  [.resume 1, .evaluate false 9, .evaluate due 9, .kill, .resume 1] ++
    List.replicate 3 (.evaluate false 9)

/-- Without the checkpoint the replay shows the target of 1:10 to the entered signal. -/
theorem restart_credits_target_before_entry :
    let s := (Session.start "BTCUSDT" publishedDb).run targetThenEntry "BTCUSDT" 1
      (crashAfterEntry false)
    ExchangeOrdered targetThenEntry ∧ s.running = true ∧ s.todo = [] ∧
      (outcome s.tracker.db 1).map Outcome.status = some .stoppedAtBreakeven ∧
      (outcome (Session.uninterrupted targetThenEntry "BTCUSDT" 1 publishedDb).tracker.db 1).map
        Outcome.status = some .entered := by
  decide +kernel

/-- What one trade does to a signal in rounded arithmetic. -/
def Ledger.processRounded (context : ℚ → ℚ) (l : Ledger) (trade : PublicTrade) : Ledger :=
  (Signals.Rounded.evaluateEvent context (lifecycleState l.view) (.trade trade)).zipIdx.foldl
    (Ledger.book trade) l

theorem Ledger.processRounded_id {l : Ledger} (hd : StopDiscipline (lifecycleState l.view))
    (trade : PublicTrade) : l.processRounded id trade = l.process trade := by
  unfold Ledger.processRounded
  rw [Signals.Rounded.evaluateEvent_id hd]
  rfl

/-- A `Numeric(38, 18)` column. -/
def numericColumn : ℚ → ℚ := atPlaces awayFromZero 18

/-- What the columns give back of a ledger that a service holds in its memory. -/
def Ledger.reread (l : Ledger) : Ledger :=
  { l with
    view := { l.view with
      currentStop := numericColumn l.view.currentStop
      remainingQuantity := numericColumn l.view.remainingQuantity }
    realizedPnl := numericColumn l.realizedPnl
    fees := numericColumn l.fees }

def publishedLedger : Option Ledger := do
  let row ← publishedDb.findSignal 1
  let trade ← publishedDb.findTrade 1
  return published publishedDb row trade

/-- The entry, the first target and a trade at the breakeven stop. -/
def entryTargetStop : List PublicTrade :=
  [tradeAtSecond "a" 70 100, tradeAtSecond "b" 80 103, tradeAtSecond "c" 90 99]

def heldInMemory (start : Ledger) : Ledger :=
  entryTargetStop.foldl (Ledger.processRounded defaultContext) start

/-- A kill after the first target, which was checkpointed. -/
def rereadAfterTarget (start : Ledger) : Ledger :=
  (entryTargetStop.drop 1).foldl (Ledger.processRounded defaultContext)
    ((entryTargetStop.take 2).foldl (Ledger.processRounded defaultContext) start).reread

/-- The process that placed the breakeven stop holds all its digits, a new one those of the
column. -/
theorem restart_rounds_breakeven_stop :
    (publishedLedger.map heldInMemory).map (fun l => l.view.status) = some .stoppedAtBreakeven ∧
      (publishedLedger.map rereadAfterTarget).map (fun l => l.view.status) =
        some .stoppedAtBreakeven ∧
      (publishedLedger.map heldInMemory).map (fun l => l.reread.realizedPnl) =
        some (68468336750000000000 / 10 ^ 18) ∧
      (publishedLedger.map rereadAfterTarget).map (fun l => l.reread.realizedPnl) =
        some (68468336749999999995 / 10 ^ 18) := by
  decide +kernel

end Crash

end StructurePulse.Service
