import StructurePulse.Aggregation.Orphans
import StructurePulse.Aggregation.Overtaking
import StructurePulse.Aggregation.Propagation
import StructurePulse.MarketData.Contiguity
import StructurePulse.MarketData.Tracking
import StructurePulse.Replay.Breakeven
import StructurePulse.Replay.Chronology
import StructurePulse.Replay.Composition
import StructurePulse.Replay.Resolution
import StructurePulse.SMC.LookAhead
import StructurePulse.SMC.OrderBlocks
import StructurePulse.SMC.Scaling
import StructurePulse.SMC.Symmetry
import StructurePulse.Service.CandleOrder
import StructurePulse.Service.RestartEquivalence
import StructurePulse.Signals.Books
import StructurePulse.Signals.Coverage
import StructurePulse.Signals.IntrabarOrder
import StructurePulse.Store.PublicationLimits
import StructurePulse.Strategy.Acceptance
import StructurePulse.Strategy.Sizing
import StructurePulse.Telegram.Expansion
import StructurePulse.Telegram.Filters
import StructurePulse.Service.Streaming
import StructurePulse.Service.Evaluations
import StructurePulse.Library.Averages
import StructurePulse.SMC.Statistics
import StructurePulse.Operations.Warnings
import StructurePulse.Universe.Selection
import StructurePulse.Universe.Preservation
import StructurePulse.Library.Rounding
import StructurePulse.Telegram.Commands
import StructurePulse.Telegram.CommandSafety
import StructurePulse.Library.Drawdowns
import StructurePulse.Replay.Reporting
import StructurePulse.Library.StepFunctions
import StructurePulse.Signals.FundingIntegral
import StructurePulse.Service.Commits
import StructurePulse.Service.FundingBooks
import StructurePulse.Strategy.Reflection
import StructurePulse.Analysis.LiveCycle
import StructurePulse.Analysis.LiveReplay
import StructurePulse.Service.ExchangeOrder
import StructurePulse.Aggregation.Drain
import StructurePulse.Aggregation.Reconciliation
import StructurePulse.MarketData.KlineShards
import StructurePulse.Library.Pacing
import StructurePulse.Providers.RateLimit
import StructurePulse.Replay.Loader
import StructurePulse.Store.Analyses
import StructurePulse.Library.WorkQueues
import StructurePulse.Telegram.Settling
import StructurePulse.Telegram.FairService
import StructurePulse.Telegram.Liveness
import StructurePulse.Telegram.Pipeline
import StructurePulse.Telegram.Notified
import StructurePulse.Library.Rescalings
import StructurePulse.Service.TradeProtocol
import StructurePulse.Service.StreamLink
import StructurePulse.Library.Decimals
import StructurePulse.Signals.Decimals
import StructurePulse.Strategy.Decimals
import StructurePulse.Replay.Decimals
