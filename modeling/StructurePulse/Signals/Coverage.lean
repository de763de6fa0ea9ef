import StructurePulse.Library.OrderedLists
import StructurePulse.Signals.TradeStream

/-!
# When a proven trade coverage is complete

`mergeTradeCoverage` accepts a REST page and the WebSocket buffer when the page
reaches the coverage start and shares a trade with the buffer. The merged list is
the exchange's history exactly when nothing executed at the very instant of the
coverage start is cut off before the page, and the buffer has no hole after it.
-/

namespace StructurePulse.Signals
open Library
set_option autoImplicit false

inductive CoverageFailure where
  | restHistoryEmpty
  | websocketBufferEmpty
  | mixedSymbols
  | restHistoryTooShallow
  | restWebsocketOverlapMissing
  | unproven
  deriving Repr, DecidableEq

def CoverageFailure.text : CoverageFailure → String
  | .restHistoryEmpty => "rest_history_empty"
  | .websocketBufferEmpty => "websocket_buffer_empty"
  | .mixedSymbols => "mixed_symbols"
  | .restHistoryTooShallow => "rest_history_too_shallow"
  | .restWebsocketOverlapMissing => "rest_websocket_overlap_missing"
  | .unproven => "unproven"

structure TradeCoverage where
  proven : Bool
  reason : Option CoverageFailure
  trades : List PublicTrade
  deriving Repr, DecidableEq

def TradeCoverage.failed (reason : CoverageFailure) : TradeCoverage := ⟨false, some reason, []⟩

def mergeTradeCoverage (restTrades websocketTrades : List PublicTrade) (coverageStart : Int) :
    TradeCoverage :=
  match restTrades, websocketTrades with
  | [], _ => .failed .restHistoryEmpty
  | _ :: _, [] => .failed .websocketBufferEmpty
  | first :: rest, trade :: websocket =>
    let known := (first :: rest) ++ (trade :: websocket)
    if (known.map (·.symbol)).dedup.length ≠ 1 then .failed .mixedSymbols
    else if first.executedAt > coverageStart then .failed .restHistoryTooShallow
    else if !((first :: rest).any fun r => (trade :: websocket).any fun w => r.tradeId = w.tradeId)
      then .failed .restWebsocketOverlapMissing
    else
      let byId := dictValues PublicTrade.tradeId
        (known.filter fun t => decide (t.executedAt ≥ coverageStart))
      ⟨true, none, sortedBy PublicTrade.key byId⟩

/-- What the three checks establish, and what is returned when they pass. -/
theorem mergeTradeCoverage_proven {rest websocket : List PublicTrade} {start : Int}
    (h : (mergeTradeCoverage rest websocket start).proven = true) :
    (∃ first ∈ rest.head?, first.executedAt ≤ start) ∧
    (∃ r ∈ rest, ∃ w ∈ websocket, r.tradeId = w.tradeId) ∧
    (mergeTradeCoverage rest websocket start).trades = sortedBy PublicTrade.key
      (dictValues PublicTrade.tradeId
        ((rest ++ websocket).filter fun t => decide (t.executedAt ≥ start))) := by
  unfold mergeTradeCoverage at h ⊢
  split at h
  · simp [TradeCoverage.failed] at h
  · simp [TradeCoverage.failed] at h
  · rename_i first rest trade websocket
    simp only at h ⊢
    split_ifs at h with hsymbols hdepth hoverlap
    · simp [TradeCoverage.failed] at h
    · simp [TradeCoverage.failed] at h
    · simp [TradeCoverage.failed] at h
    · rw [if_neg hsymbols, if_neg hdepth, if_neg hoverlap]
      refine ⟨⟨first, rfl, not_lt.mp hdepth⟩, ?_, rfl⟩
      simpa only [Bool.not_eq_true', Bool.not_eq_false, List.any_eq_true,
        decide_eq_true_eq] using hoverlap

theorem mergeTradeCoverage_unproven {rest websocket : List PublicTrade} {start : Int}
    (h : (mergeTradeCoverage rest websocket start).proven = false) :
    (mergeTradeCoverage rest websocket start).trades = [] := by
  unfold mergeTradeCoverage at h ⊢
  split
  · rfl
  · rfl
  · simp only at h ⊢
    split_ifs at h ⊢
    · rfl
    · rfl
    · rfl

/-- The merged trades are in exchange order, and each is one of the known trades. -/
theorem mergeTradeCoverage_ordered (rest websocket : List PublicTrade) (start : Int) :
    ExchangeOrdered (mergeTradeCoverage rest websocket start).trades ∧
      ∀ trade ∈ (mergeTradeCoverage rest websocket start).trades,
        trade ∈ rest ++ websocket ∧ start ≤ trade.executedAt := by
  cases hproven : (mergeTradeCoverage rest websocket start).proven with
  | false =>
    rw [mergeTradeCoverage_unproven hproven]
    exact ⟨List.Pairwise.nil, fun trade htrade => absurd htrade List.not_mem_nil⟩
  | true =>
    obtain ⟨-, -, htrades⟩ := mergeTradeCoverage_proven hproven
    rw [htrades]
    obtain ⟨hdistinct, hmem⟩ := @dictValues_distinct _ _ _ PublicTrade.tradeId
      ((rest ++ websocket).filter fun t => decide (t.executedAt ≥ start))
    have hkeys : (dictValues PublicTrade.tradeId
        ((rest ++ websocket).filter fun t => decide (t.executedAt ≥ start))).Pairwise
          fun s t => s.key ≠ t.key :=
      hdistinct.imp fun {s t} hne (hkey : s.key = t.key) =>
        hne (congrArg (fun key : TradeKey => (ofLex (ofLex key).2).2) hkey)
    refine ⟨sortedBy_increasing PublicTrade.key hkeys, fun trade htrade => ?_⟩
    have hkept := List.mem_filter.mp (hmem trade (mem_sortedBy.mp htrade))
    exact ⟨hkept.1, of_decide_eq_true hkept.2⟩

/-- The trades a complete coverage replays: everything executed at or after the
start, up to the newest trade either source knows. -/
def completeHistory (exchange known : List PublicTrade) (start : Int) : List PublicTrade :=
  exchange.filter fun t => decide (start ≤ t.executedAt) && known.any fun k => decide (t.key ≤ k.key)

/-- No trade of the instant of the start lies before the page unless it is buffered. -/
def StartCovered (exchange rest buffer : List PublicTrade) (start : Int) : Prop :=
  ∀ t ∈ exchange, t.executedAt = start → (∀ r ∈ rest, t.key < r.key) → t ∈ buffer

/-- After the page, the buffer runs without a hole to its newest trade. -/
def TailCovered (exchange rest buffer : List PublicTrade) : Prop :=
  ∀ t ∈ exchange, (∀ r ∈ rest, r.key < t.key) → (∃ b ∈ buffer, t.key ≤ b.key) → t ∈ buffer

instance (exchange rest buffer : List PublicTrade) (start : Int) :
    Decidable (StartCovered exchange rest buffer start) :=
  inferInstanceAs (Decidable (∀ t ∈ exchange, _ → _))

instance (exchange rest buffer : List PublicTrade) :
    Decidable (TailCovered exchange rest buffer) :=
  inferInstanceAs (Decidable (∀ t ∈ exchange, _ → _))

section Complete
variable {exchange rest buffer : List PublicTrade} {size : Nat} {start : Int}
variable (hordered : ExchangeOrdered exchange) (hids : (exchange.map (·.tradeId)).Nodup)
variable (hrest : rest <:+: exchange) (hbuffer : Buffered exchange size buffer)
include hrest hbuffer

theorem known_subset (start : Int) : ∀ t ∈ rest ++ bufferedTrades buffer start, t ∈ exchange := by
  intro t ht
  rcases List.mem_append.mp ht with ht | ht
  · exact hrest.subset ht
  · exact hbuffer.subset t (mem_bufferedTrades.mp ht).1

include hordered hids

/-- The merged trades are the exchange's trades that either source knows. -/
theorem merged_eq_filter
    (hproven : (mergeTradeCoverage rest (bufferedTrades buffer start) start).proven = true) :
    (mergeTradeCoverage rest (bufferedTrades buffer start) start).trades =
      exchange.filter fun t => decide (start ≤ t.executedAt) &&
        decide (t ∈ rest ++ bufferedTrades buffer start) := by
  have hknown := known_subset hrest hbuffer start
  have hinj : ∀ x ∈ exchange, ∀ y ∈ exchange, x.tradeId = y.tradeId → x = y :=
    fun x hx y hy h => List.inj_on_of_nodup_map hids hx hy h
  obtain ⟨-, -, htrades⟩ := mergeTradeCoverage_proven hproven
  rw [htrades]
  obtain ⟨hnodup, hmem⟩ := @dictValues_spec _ _ _ PublicTrade.tradeId
    ((rest ++ bufferedTrades buffer start).filter fun t => decide (t.executedAt ≥ start))
    (fun x hx y hy => hinj x (hknown x (List.mem_filter.mp hx).1) y
      (hknown y (List.mem_filter.mp hy).1))
  refine sortedBy_eq_filter hordered hnodup fun x => ?_
  rw [hmem, List.mem_filter, Bool.and_eq_true, decide_eq_true_eq, decide_eq_true_eq]
  constructor
  · rintro ⟨hx, hstart⟩
    exact ⟨hknown x hx, hstart, hx⟩
  · rintro ⟨-, hstart, hx⟩
    exact ⟨hx, hstart⟩

/-- A coverage that passes the three checks returns the complete history if and only
if the start and the tail of the page are covered by the buffer. -/
theorem coverage_complete_iff
    (hproven : (mergeTradeCoverage rest (bufferedTrades buffer start) start).proven = true) :
    (mergeTradeCoverage rest (bufferedTrades buffer start) start).trades =
        completeHistory exchange (rest ++ bufferedTrades buffer start) start ↔
      StartCovered exchange rest buffer start ∧ TailCovered exchange rest buffer := by
  obtain ⟨⟨first, hfirst, hdepth⟩, ⟨r, hr, w, hw, hrw⟩, -⟩ := mergeTradeCoverage_proven hproven
  have hfirstMem : first ∈ rest := List.mem_of_mem_head? hfirst
  have hknown := known_subset hrest hbuffer start
  have hshared : r = w := List.inj_on_of_nodup_map hids (hrest.subset hr)
    (hknown w (List.mem_append_right _ hw)) hrw
  have hrstart : start ≤ r.executedAt := hshared ▸ (mem_bufferedTrades.mp hw).2
  rw [merged_eq_filter hordered hids hrest hbuffer hproven, completeHistory, filter_eq_filter_iff]
  constructor
  · intro h
    refine ⟨fun t ht hstart hbefore => ?_, fun t ht hafter hb => ?_⟩
    · have hk : (rest ++ bufferedTrades buffer start).any (fun k => decide (t.key ≤ k.key)) = true :=
        List.any_eq_true.mpr ⟨first, List.mem_append_left _ hfirstMem,
          decide_eq_true (le_of_lt (hbefore first hfirstMem))⟩
      have hmem := h t ht
      rw [hk, decide_eq_true (le_of_eq hstart.symm)] at hmem
      rcases List.mem_append.mp (of_decide_eq_true hmem) with hmem | hmem
      · exact absurd (hbefore t hmem) (lt_irrefl _)
      · exact (mem_bufferedTrades.mp hmem).1
    · obtain ⟨b, hb, htb⟩ := hb
      have hstart : start ≤ t.executedAt :=
        hrstart.trans (executedAt_le_of_key_lt (hafter r hr))
      have hk : (rest ++ bufferedTrades buffer start).any (fun k => decide (t.key ≤ k.key)) = true :=
        List.any_eq_true.mpr ⟨b, List.mem_append_right _ (mem_bufferedTrades.mpr
          ⟨hb, hstart.trans (executedAt_le_of_key_le htb)⟩), decide_eq_true htb⟩
      have hmem := h t ht
      rw [hk, decide_eq_true hstart] at hmem
      rcases List.mem_append.mp (of_decide_eq_true hmem) with hmem | hmem
      · exact absurd (hafter t hmem) (lt_irrefl _)
      · exact (mem_bufferedTrades.mp hmem).1
  · rintro ⟨hstartCovered, htailCovered⟩ t ht
    rw [Bool.eq_iff_iff, Bool.and_eq_true, Bool.and_eq_true]
    simp only [decide_eq_true_eq, List.any_eq_true]
    refine and_congr_right fun hstart => ⟨fun h => ⟨t, h, le_refl _⟩, ?_⟩
    rintro ⟨k, hk, htk⟩
    rcases infix_trichotomy hordered hrest ht with hin | hbefore | hafter
    · exact List.mem_append_left _ hin
    · -- before the page only the instant of the start is left
      have htie : t.executedAt = start := le_antisymm
        ((executedAt_le_of_key_lt (hbefore first hfirstMem)).trans hdepth) hstart
      exact List.mem_append_right _
        (mem_bufferedTrades.mpr ⟨hstartCovered t ht htie hbefore, hstart⟩)
    · rcases List.mem_append.mp hk with hk | hk
      · exact absurd (lt_of_lt_of_le (hafter k hk) htk) (lt_irrefl _)
      · exact List.mem_append_right _ (mem_bufferedTrades.mpr
          ⟨htailCovered t ht hafter ⟨k, (mem_bufferedTrades.mp hk).1, htk⟩, hstart⟩)

end Complete

/-- Trades of one millisecond share `executedAt`; the sequence orders them. -/
def streamTrade (tradeId : String) (executedAt sequence : Int) : PublicTrade where
  tradeId := tradeId
  symbol := "BTCUSDT"
  price := 100
  size := 1
  side := .buy
  executedAt := executedAt
  sequence := sequence

def streamTrades : List PublicTrade :=
  [streamTrade "a" 0 1, streamTrade "b" 1000 2, streamTrade "c" 1000 3, streamTrade "d" 2000 4,
    streamTrade "e" 3000 5]

/-- The page starts inside the millisecond of the coverage start: trade `b` is part of
the history, and the coverage is reported as proven without it. -/
theorem coverage_omits_trade_at_start :
    ∃ rest buffer : List PublicTrade, ExchangeOrdered streamTrades ∧
      (streamTrades.map (·.tradeId)).Nodup ∧ rest <:+: streamTrades ∧
      Buffered streamTrades 5000 buffer ∧
      (mergeTradeCoverage rest (bufferedTrades buffer 1000) 1000).proven = true ∧
      (mergeTradeCoverage rest (bufferedTrades buffer 1000) 1000).trades ≠
        completeHistory streamTrades (rest ++ bufferedTrades buffer 1000) 1000 := by
  refine ⟨streamTrades.drop 2, streamTrades.drop 3, by decide, by decide,
    (List.drop_suffix 2 _).isInfix, ?_, by decide, by decide⟩
  exact Buffered.connection Buffered.subscribed (List.drop_suffix 3 _).isInfix

theorem coverage_complete_sample :
    (mergeTradeCoverage (streamTrades.take 3) (bufferedTrades (streamTrades.drop 2) 1000) 1000).trades
        = completeHistory streamTrades
          (streamTrades.take 3 ++ bufferedTrades (streamTrades.drop 2) 1000) 1000 ↔
      StartCovered streamTrades (streamTrades.take 3) (streamTrades.drop 2) 1000 ∧
        TailCovered streamTrades (streamTrades.take 3) (streamTrades.drop 2) := by
  refine @coverage_complete_iff streamTrades _ _ 5000 _ (by decide) (by decide)
    (List.take_prefix 3 _).isInfix ?_ (by decide)
  exact Buffered.connection Buffered.subscribed (List.drop_suffix 2 _).isInfix

end StructurePulse.Signals
