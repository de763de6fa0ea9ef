import StructurePulse.Service.Tracker
import StructurePulse.Store.Runs

/-!
# What a candle recovery observes

A recovery covers the closed minutes from the anchor's to the one before `now` with
candles, and what is newer with trades: the buffered ones and those the connection
still has to hand over. The trades of the connection are the exchange's from some
position on; what lies before that position is seen by nobody unless a candle covers it.
-/

namespace StructurePulse.Service
open Signals Store Library
set_option autoImplicit false

/-- An event shows a trade if it is the trade or the candle of its minute. -/
def Shows : MarketEvent → PublicTrade → Prop
  | .trade other, trade => other = trade
  | .candle candle, trade =>
    candle.openTime ≤ trade.executedAt ∧ trade.executedAt < candle.openTime + oneMinute

instance : ∀ (event : MarketEvent) (trade : PublicTrade), Decidable (Shows event trade)
  | .trade other, trade => inferInstanceAs (Decidable (other = trade))
  | .candle _, _ => inferInstanceAs (Decidable (_ ∧ _))

/-- A trade was shown to an evaluator or is still to be handed over by the queue. -/
def Observed (calls : List EvaluatorCall) (queued : List PublicTrade) (trade : PublicTrade) :
    Prop :=
  (∃ call ∈ calls, Shows call.event trade) ∨ trade ∈ queued

instance (calls : List EvaluatorCall) (queued : List PublicTrade) (trade : PublicTrade) :
    Decidable (Observed calls queued trade) :=
  inferInstanceAs (Decidable (_ ∨ _))

section Recovery
variable {t t' : Tracker} {signal : TrackingSignalView} {anchor now : Int}
variable {coverageReason : CoverageFailure} {candles : List Candle1m} {buffer : List PublicTrade}

/-- A recovery that succeeds with the signal still tracked has evaluated every candle
of the window and every buffered trade that is newer. -/
theorem recoverWithCandles_calls
    (h : t.recoverWithCandles signal anchor coverageReason now candles buffer = .ok (t', true))
    (hopen : t'.signal ≠ none) :
    startOpenTime anchor ≤ endOpenTime now ∧ candles ≠ [] ∧
    ∃ calls, t'.calls = t.calls ++ calls ∧ calls.map EvaluatorCall.event =
      candles.map MarketEvent.candle ++
        (bufferedTrades buffer (endOpenTime now + oneMinute)).map MarketEvent.trade := by
  unfold Tracker.recoverWithCandles at h
  split_ifs at h with hwindow hempty
  · cases h
  · cases h
  obtain ⟨mid, hmid, h⟩ := bind_eq_ok.mp h
  obtain ⟨candleCalls, applied, hcandleCalls, -, hcandleEvents, hall⟩ := applyCandles_calls hmid
  split at h
  · rename_i hnone
    cases h
    exact absurd hnone hopen
  · rename_i current hcurrent
    obtain ⟨⟨next, added⟩, hcommit, h⟩ := bind_eq_ok.mp h
    obtain ⟨db, life, -, -, rfl⟩ := commit_ok hcommit
    obtain ⟨last, hlast, h⟩ := bind_eq_ok.mp h
    cases h
    obtain ⟨tradeCalls, replayed, htradeCalls, -, htradeEvents, hreplayed⟩ :=
      replayAndCheckpoint_calls hlast
    refine ⟨not_lt.mp hwindow, by simpa using hempty, candleCalls ++ tradeCalls, ?_, ?_⟩
    · rw [htradeCalls, covered_calls, hcandleCalls, List.append_assoc]
    · rw [List.map_append, hcandleEvents, htradeEvents, hreplayed hopen,
        hall (by rw [hcurrent]; exact Option.some_ne_none _)]

end Recovery

section Intervals
variable {t t' : Tracker} {signal : TrackingSignalView} {anchor now : Int}
variable {coverageReason : CoverageFailure} {data : MarketData} {exchange : List PublicTrade}
variable {live received popped : Nat}

theorem dvd_startOpenTime (anchor : Int) : oneMinute ∣ startOpenTime anchor :=
  dvd_minuteFloor anchor

theorem dvd_endOpenTime (now : Int) : oneMinute ∣ endOpenTime now :=
  Int.dvd_sub (dvd_minuteFloor now) (Int.dvd_refl _)

/-- After a recovery that leaves the signal open, every exchange trade from the anchor
on is observed if and only if the trades before the connection's first one are older
than the minute of the recovery. `live` is the position of that first trade, `received`
the number of trades in the buffer, `popped` how many of them have left the queue. -/
theorem recovery_observes_iff (hordered : ExchangeOrdered exchange) (hpopped : popped ≤ received)
    (hrun : { t with calls := [] }.recoverWithCandles signal anchor coverageReason now
      (recoveryCandles data signal.symbol anchor now) ((exchange.drop live).take received) =
        .ok (t', true))
    (hopen : t'.signal ≠ none) :
    (∀ trade ∈ exchange, anchor ≤ trade.executedAt →
      Observed t'.calls (exchange.drop (live + popped)) trade) ↔
    ∀ trade ∈ exchange.take live, trade.executedAt < minuteFloor now := by
  obtain ⟨hwindow, hcandles, calls, hcalls, hevents⟩ := recoverWithCandles_calls hrun hopen
  have hempty : t'.calls = calls := hcalls.trans (List.nil_append _)
  subst hempty
  have hopens : (recoveryCandles data signal.symbol anchor now).map Candle1m.openTime =
      requestedMinutes (startOpenTime anchor) (endOpenTime now) :=
    (loadReconciled1mWindow_spec data signal.symbol _ _).resolve_left hcandles
  have hreplayFrom : endOpenTime now + oneMinute = minuteFloor now := Int.sub_add_cancel _ _
  have hanchor : anchor < minuteFloor now := by
    have hlt := lt_minuteFloor_add anchor
    unfold startOpenTime at hwindow
    omega
  have hsplit : exchange = exchange.take live ++ exchange.drop live :=
    (List.take_append_drop live exchange).symm
  constructor
  · intro hobserved trade htrade
    by_contra hnot
    have hlate := not_lt.mp hnot
    have hmem : trade ∈ exchange := List.mem_of_mem_take htrade
    have hbefore : ∀ other ∈ exchange.drop live, other ≠ trade := by
      intro other hother heq
      have hpairs := hordered
      rw [ExchangeOrdered, hsplit, List.pairwise_append] at hpairs
      have hlt := hpairs.2.2 trade htrade other hother
      rw [heq] at hlt
      exact lt_irrefl _ hlt
    rcases hobserved trade hmem (hanchor.le.trans hlate) with ⟨call, hcall, hshows⟩ | hqueued
    · have hin : call.event ∈ t'.calls.map EvaluatorCall.event := List.mem_map_of_mem hcall
      rw [hevents] at hin
      rcases List.mem_append.mp hin with hin | hin
      · obtain ⟨candle, hcandle, hevent⟩ := List.mem_map.mp hin
        rw [← hevent] at hshows
        have hopenTime := List.mem_map_of_mem (f := Candle1m.openTime) hcandle
        rw [hopens] at hopenTime
        have hle := (openTime_of_mem_requested (dvd_startOpenTime anchor) (dvd_endOpenTime now)
          hwindow hopenTime).2
        have hhigh := hshows.2
        omega
      · obtain ⟨other, hother, hevent⟩ := List.mem_map.mp hin
        rw [← hevent] at hshows
        exact hbefore other (List.mem_of_mem_take (mem_bufferedTrades.mp hother).1) hshows
    · rw [← List.drop_drop] at hqueued
      exact hbefore trade (List.mem_of_mem_drop hqueued) rfl
  · intro hcondition trade hmem hlow
    by_cases hearly : trade.executedAt < minuteFloor now
    · -- a closed minute: its candle is one of the window
      have hminute : minuteFloor trade.executedAt ∈
          requestedMinutes (startOpenTime anchor) (endOpenTime now) :=
        minute_mem_requested (dvd_startOpenTime anchor) (dvd_endOpenTime now)
          ((minuteFloor_le anchor).trans hlow) (by omega)
      rw [← hopens] at hminute
      obtain ⟨candle, hcandle, hopenTime⟩ := List.mem_map.mp hminute
      have hin : MarketEvent.candle candle ∈ t'.calls.map EvaluatorCall.event := by
        rw [hevents]
        exact List.mem_append_left _ (List.mem_map_of_mem hcandle)
      obtain ⟨call, hcall, hevent⟩ := List.mem_map.mp hin
      refine Or.inl ⟨call, hcall, ?_⟩
      rw [hevent, Shows, hopenTime]
      exact ⟨minuteFloor_le _, lt_minuteFloor_add _⟩
    · rw [hsplit] at hmem
      rcases List.mem_append.mp hmem with hold | hlive
      · exact absurd (hcondition trade hold) hearly
      · rw [← List.take_append_drop received (exchange.drop live)] at hlive
        rcases List.mem_append.mp hlive with hreceived | hlater
        · have hin : MarketEvent.trade trade ∈ t'.calls.map EvaluatorCall.event := by
            rw [hevents]
            refine List.mem_append_right _ (List.mem_map_of_mem (mem_bufferedTrades.mpr
              ⟨hreceived, ?_⟩))
            rw [hreplayFrom]
            exact not_lt.mp hearly
          obtain ⟨call, hcall, hevent⟩ := List.mem_map.mp hin
          refine Or.inl ⟨call, hcall, ?_⟩
          rw [hevent]
          rfl
        · refine Or.inr ?_
          rw [← List.drop_drop]
          exact (List.drop_sublist_drop_left _ hpopped).subset hlater

end Intervals

section Reconnected

/-- A published and activated signal whose connection was lost and is back. -/
def reconnected : Tracker :=
  let published : StoreOp := .publishCandidates
    [(candidateRecord 1 1 sampleCandidate, sampleCandidate)] .standard 0
  let activated : StoreOp := .applyTransition {
    signalId := 1
    target := .active
    eventTime := 0
    idempotencyKey := coverageKey 1 0
    eventType := "trade_coverage_ready" }
  let db := (Database.initial [⟨"BTCUSDT", 480⟩] [] [candidateRecord 1 1 sampleCandidate]).run
    [published, activated]
  { db := db, life := 100, coveragePending := some 0, streamReady := true
    subscribed := true : Tracker }.refresh "BTCUSDT"

def activeSignal : TrackingSignalView where
  id := 1
  symbol := "BTCUSDT"
  direction := .long
  status := .active
  entryLower := 99
  entryUpper := 101
  plannedEntry := 100
  stopLoss := 98
  takeProfit1 := 103
  takeProfit2 := 120
  quantity := 4741 / 100
  riskAmount := 100
  takerFeeRate := 55 / 100000
  expiresAt := minutes 90
  createdAt := 0
  currentStop := 98
  remainingQuantity := 4741 / 100
  lastTradeId := none
  lastTradeTime := none
  lastTradeSequence := none

/-- Two quiet minutes, both confirmed. -/
def quietMinutes : MarketData where
  checkpoints := [⟨"BTCUSDT", "kline_1m", .ready, some (minutes 1)⟩]
  candles := [0, 1].map fun minute =>
    { symbol := "BTCUSDT"
      openTime := minutes minute
      openPrice := 110
      highPrice := 111
      lowPrice := 109
      closePrice := 110
      volume := 1
      turnover := 1 }

def tradeAtSecond (tradeId : String) (second : Int) (price : ℚ) : PublicTrade where
  tradeId := tradeId
  symbol := "BTCUSDT"
  price := price
  size := 1
  side := .buy
  executedAt := second * 1000000
  sequence := second

/-- What the recovery of `reconnected` leaves, when it does not stop. -/
def recovered (exchange : List PublicTrade) (live received : Nat) (now : Int) : Tracker :=
  match reconnected.recoverWithCandles activeSignal 0 .restHistoryTooShallow now
      (recoveryCandles quietMinutes "BTCUSDT" 0 now) ((exchange.drop live).take received) with
  | .ok (t, _) => t
  | .error _ => reconnected

/-- The connection is live from 2:20 on and the recovery runs at 2:30. The stop that
traded at 2:10 lies after the last closed minute and before the first buffered trade. -/
theorem recovery_misses_stop_before_connection :
    ∃ (exchange : List PublicTrade) (live received popped : Nat) (now : Int) (t' : Tracker),
      ExchangeOrdered exchange ∧ popped ≤ received ∧
      reconnected.recoverWithCandles activeSignal 0 .restHistoryTooShallow now
        (recoveryCandles quietMinutes "BTCUSDT" 0 now) ((exchange.drop live).take received) =
          .ok (t', true) ∧
      t'.signal ≠ none ∧ t'.coveragePending = none ∧
      ¬ ∀ trade ∈ exchange, 0 ≤ trade.executedAt →
        Observed t'.calls (exchange.drop (live + popped)) trade := by
  refine ⟨[tradeAtSecond "a" 130 97, tradeAtSecond "b" 140 110], 1, 1, 0, 150 * 1000000,
    recovered [tradeAtSecond "a" 130 97, tradeAtSecond "b" 140 110] 1 1 (150 * 1000000),
    by decide, le_of_lt Nat.zero_lt_one, ?_, ?_, ?_, ?_⟩
  · decide +kernel
  · decide +kernel
  · decide +kernel
  · decide +kernel

theorem recovery_observes_sample :
    let exchange := [tradeAtSecond "a" 100 110, tradeAtSecond "b" 140 110]
    ∀ trade ∈ exchange, 0 ≤ trade.executedAt →
      Observed (recovered exchange 1 1 (150 * 1000000)).calls (exchange.drop (1 + 0)) trade :=
  (@recovery_observes_iff reconnected _ activeSignal 0 (150 * 1000000) .restHistoryTooShallow
    quietMinutes [tradeAtSecond "a" 100 110, tradeAtSecond "b" 140 110] 1 1 0 (by decide)
    (by decide) (by decide +kernel) (by decide +kernel)).mpr (by decide +kernel)

end Reconnected

end StructurePulse.Service
