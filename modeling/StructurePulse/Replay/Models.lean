import StructurePulse.Strategy.Models

/-! The rows an offline replay reads and the outcomes it reports. -/

namespace StructurePulse.Replay
open Strategy
set_option autoImplicit false

inductive ReplayOutcomeStatus where
  | expired
  | invalidatedBeforeEntry
  | stopped
  | stoppedAfterTp1
  | tp2
  | ambiguous
  | stillOpen
  deriving Repr, DecidableEq

structure ReplayMarketRow where
  candle : Candle1m
  openInterest : Option ℚ := none
  fundingRate : Option ℚ := none
  spreadBps : Option ℚ := none
  turnover24hUsdt : Option ℚ := none
  instrumentMaxLeverage : Option ℚ := none
  instrumentQuantityStep : Option ℚ := none
  instrumentMinNotional : Option ℚ := none
  deriving Repr, DecidableEq

structure ReplayOutcome where
  candidateSequence : Nat
  symbol : Symbol
  direction : TradeDirection
  status : ReplayOutcomeStatus
  enteredAt : Option Int
  resolvedAt : Option Int
  pnl : ℚ
  rMultiple : ℚ
  fees : ℚ
  ambiguous : Bool
  deriving Repr, DecidableEq

end StructurePulse.Replay
