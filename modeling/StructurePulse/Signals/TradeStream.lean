import StructurePulse.Market

/-!
# The trade buffer of one symbol

`BybitPublicTradeWebSocketManager` appends every received trade to a bounded deque
that outlives the connection, so a buffer is the tail of what several connections
delivered, one contiguous run of the exchange's trades each.
-/

namespace StructurePulse.Signals
set_option autoImplicit false

/-- `append` on a `deque(maxlen=size)`. -/
def bufferAppend (size : Nat) (buffer : List PublicTrade) (trade : PublicTrade) :
    List PublicTrade :=
  (buffer ++ [trade]).drop (buffer.length + 1 - size)

def bufferedTrades (buffer : List PublicTrade) (since : Int) : List PublicTrade :=
  buffer.filter fun trade => decide (trade.executedAt ≥ since)

/-- The buffers a subscription can hold: each connection adds one contiguous run. -/
inductive Buffered (exchange : List PublicTrade) (size : Nat) : List PublicTrade → Prop where
  | subscribed : Buffered exchange size []
  | connection {buffer run : List PublicTrade} : Buffered exchange size buffer →
      run <:+: exchange → Buffered exchange size (run.foldl (bufferAppend size) buffer)

theorem mem_of_mem_bufferAppend {size : Nat} {buffer : List PublicTrade} {trade t : PublicTrade}
    (h : t ∈ bufferAppend size buffer trade) : t ∈ buffer ∨ t = trade := by
  have := List.mem_of_mem_drop h
  simpa using this

theorem mem_of_mem_received {size : Nat} {buffer run : List PublicTrade} {t : PublicTrade}
    (h : t ∈ run.foldl (bufferAppend size) buffer) : t ∈ buffer ∨ t ∈ run := by
  induction run generalizing buffer with
  | nil => exact Or.inl h
  | cons trade run ih =>
    rcases ih h with h | h
    · rcases mem_of_mem_bufferAppend h with h | rfl
      · exact Or.inl h
      · exact Or.inr List.mem_cons_self
    · exact Or.inr (List.mem_cons_of_mem _ h)

theorem Buffered.subset {exchange buffer : List PublicTrade} {size : Nat}
    (h : Buffered exchange size buffer) : ∀ t ∈ buffer, t ∈ exchange := by
  induction h with
  | subscribed => simp
  | connection _ hrun ih =>
    intro t ht
    rcases mem_of_mem_received ht with ht | ht
    · exact ih t ht
    · exact hrun.subset ht

theorem mem_bufferedTrades {buffer : List PublicTrade} {since : Int} {t : PublicTrade} :
    t ∈ bufferedTrades buffer since ↔ t ∈ buffer ∧ since ≤ t.executedAt := by
  simp [bufferedTrades]

end StructurePulse.Signals
