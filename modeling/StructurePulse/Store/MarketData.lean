import StructurePulse.Library.OrderedLists
import StructurePulse.Market

/-!
# Canonical 1m candles

The part of the market-data repository the lifecycle service reads.
-/

namespace StructurePulse.Store
open Library
set_option autoImplicit false

inductive CheckpointState where
  | pending
  | warming
  | recovering
  | degraded
  | ready
  | offline
  deriving Repr, DecidableEq

structure DataCheckpointRecord where
  symbol : Symbol
  stream : String
  state : CheckpointState
  lastConfirmedOpenTime : Option Int
  deriving Repr, DecidableEq

structure MarketData where
  checkpoints : List DataCheckpointRecord
  candles : List Candle1m
  deriving Repr, DecidableEq

/-- The open times of the minutes from `start` to `stop`. -/
def requestedMinutes (start stop : Int) : List Int :=
  (List.range (((stop - start) / oneMinute).toNat + 1)).map fun (index : Nat) =>
    start + (index : Int) * oneMinute

/-- The rows of the window in the order of their open time. -/
def MarketData.window (data : MarketData) (symbol : Symbol) (start stop : Int) : List Candle1m :=
  sortedBy Candle1m.openTime (data.candles.filter fun candle =>
    candle.symbol = symbol ∧ candle.openTime ≥ start ∧ candle.openTime ≤ stop)

def confirmed (checkpoint : DataCheckpointRecord) (stop : Int) : Bool :=
  checkpoint.state = .ready && checkpoint.lastConfirmedOpenTime.any fun last => decide (stop ≤ last)

/-- `load_reconciled_1m_window` for the stream `kline_1m`. -/
def loadReconciled1mWindow (data : MarketData) (symbol : Symbol) (start stop : Int) :
    List Candle1m :=
  if stop < start then []
  else match data.checkpoints.find? fun row => row.symbol = symbol ∧ row.stream = "kline_1m" with
    | none => []
    | some checkpoint =>
      if !confirmed checkpoint stop then []
      else
        let records := data.window symbol start stop
        if records.length ≠ ((stop - start) / oneMinute).toNat + 1 then []
        else if records.zipIdx.any fun (record, index) =>
            record.openTime ≠ start + index * oneMinute then []
        else records

/-- The repository returns nothing or exactly the requested minutes. -/
theorem loadReconciled1mWindow_spec (data : MarketData) (symbol : Symbol) (start stop : Int) :
    loadReconciled1mWindow data symbol start stop = [] ∨
      (loadReconciled1mWindow data symbol start stop).map Candle1m.openTime =
        requestedMinutes start stop := by
  unfold loadReconciled1mWindow
  split
  · exact Or.inl rfl
  · split
    · exact Or.inl rfl
    · simp only
      split_ifs with _ hlength hcontinuous
      · exact Or.inl rfl
      · exact Or.inl rfl
      · exact Or.inl rfl
      · right
        rw [not_not] at hlength
        refine List.ext_getElem ?_ fun index hindex _ => ?_
        · simp [requestedMinutes, hlength]
        · have hlt : index < (data.window symbol start stop).length := by simpa using hindex
          by_contra hne
          refine hcontinuous (List.any_eq_true.mpr
            ⟨((data.window symbol start stop)[index], index), ?_, ?_⟩)
          · exact List.mem_zipIdx_iff_getElem?.mpr (by simp [hlt])
          · simpa [requestedMinutes] using hne

theorem requestedMinutes_pairwise (start stop : Int) :
    (requestedMinutes start stop).Pairwise fun a b => a + oneMinute ≤ b := by
  refine List.pairwise_map.mpr (List.pairwise_lt_range.imp fun {i j} hij => ?_)
  unfold oneMinute
  omega

theorem minute_mem_requested {start stop value : Int} (hstart : oneMinute ∣ start)
    (hstop : oneMinute ∣ stop) (hlow : start ≤ value) (hhigh : value < stop + oneMinute) :
    minuteFloor value ∈ requestedMinutes start stop := by
  obtain ⟨first, rfl⟩ := hstart
  obtain ⟨last, rfl⟩ := hstop
  refine List.mem_map.mpr ⟨((minuteFloor value - oneMinute * first) / oneMinute).toNat, ?_, ?_⟩
  · rw [List.mem_range]
    unfold minuteFloor oneMinute at *
    omega
  · unfold minuteFloor oneMinute at *
    omega

theorem openTime_of_mem_requested {start stop value : Int} (hstart : oneMinute ∣ start)
    (hstop : oneMinute ∣ stop) (hle : start ≤ stop) (h : value ∈ requestedMinutes start stop) :
    start ≤ value ∧ value ≤ stop := by
  obtain ⟨first, rfl⟩ := hstart
  obtain ⟨last, rfl⟩ := hstop
  obtain ⟨index, hindex, rfl⟩ := List.mem_map.mp h
  rw [List.mem_range] at hindex
  unfold oneMinute at *
  omega

end StructurePulse.Store
