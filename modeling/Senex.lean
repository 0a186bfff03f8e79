import Senex.Foundation.Digits
import Senex.Foundation.PyJson
import Senex.Foundation.TextLines
import Senex.Settlement.Acceptance
import Senex.Foundation.Transition
import Senex.Paper.Recovery
import Senex.Paper.Writers
import Senex.Paper.Ledger
import Senex.Paper.Reconcile
import Senex.Authority.Tally
import Senex.Receipts.Lifecycle
import Senex.T0Audit.Replication
import Senex.Simulator.Bankroll
import Senex.Simulator.Overlap
import Senex.Portfolio.RiskKernel
import Senex.Portfolio.KillSwitch
import Senex.Portfolio.ClosedJournal
import Senex.Portfolio.Bootstrap
import Senex.Portfolio.ExecutionEngine
import Senex.Portfolio.CashLaw
import Senex.Research.Replay
import Senex.Research.Conservation
import Senex.Portfolio.Proposal
import Senex.Portfolio.Coordinator
import Senex.Portfolio.Exposure
import Senex.Portfolio.JournalAgreement
import Senex.Portfolio.ControlState
import Senex.Portfolio.CrashConsistency
import Senex.Research.Lookahead
import Senex.Antifragility.EventStore
import Senex.Antifragility.TamperEvidence
import Senex.Antifragility.TornAppend
import Senex.Foundation.LineCodec
import Senex.Foundation.Objects
import Senex.Antifragility.Lifecycle
import Senex.Antifragility.SnapshotRestore
import Senex.Polymarket.Levels
import Senex.Polymarket.DepthCurrent
import Senex.MarketData.ClosedBars
import Senex.Antifragility.CircuitBreaker
import Senex.Scoring.Cohort
import Senex.Scoring.Spacing
import Senex.Scoring.Gate
import Senex.Settlement.OneCandle
import Senex.Portfolio.ExecutionFidelity
import Senex.Foundation.Sign
import Senex.Foundation.Exact
import Senex.Foundation.Offers
import Senex.Portfolio.OrderSettled
import Senex.Portfolio.Overfill
import Senex.Antifragility.Checkpoint
import Senex.Antifragility.CheckpointRestore
import Senex.Foundation.Stamp
import Senex.Challengers.Receipt
import Senex.Foundation.RankSum
import Senex.Foundation.Sorting
import Senex.Validation.Auc
import Senex.Edge.Extraction
import Senex.Edge.Join
import Senex.Edge.Split
import Senex.Foundation.Earliest
import Senex.Edge.Prospective
import Senex.Research.Orderly
import Senex.Research.Strategies
import Senex.Research.Dca
import Senex.Research.AddBudget
import Senex.Simulator.BinanceLane
import Senex.Simulator.BinanceAccounts
import Senex.Portfolio.BookWalk
import Senex.Foundation.Combinations
import Senex.Validation.PurgedCv
import Senex.Validation.PurgedExact
import Senex.Validation.PurgedSplits
import Senex.Antifragility.Recovery
import Senex.Validation.MultipleTests
import Senex.Antifragility.SchemaVersions
import Senex.Antifragility.LineageSubgraph
import Senex.Foundation.Falls
import Senex.Portfolio.Analytics
import Senex.Portfolio.Drawdown
import Senex.Foundation.Binade
import Senex.Challengers.WalkForward
import Senex.Challengers.PurgedFolds
import Senex.Challengers.PurgedExactly
import Senex.Authority.Snapshot
import Senex.Authority.Generations
import Senex.Foundation.Sha1
import Senex.Foundation.Framing
import Senex.Artifact.GitTree
import Senex.Artifact.GitTreeExact
import Senex.Foundation.Calendar
import Senex.Foundation.JsDate
import Senex.Gateway.Timestamps
import Senex.Gateway.CursorOrder
import Senex.Artifact.IdentityExact
import Senex.Foundation.Raises
import Senex.T0Audit.Contamination
import Senex.T0Audit.DecisionTime
import Senex.T0Audit.SealedSource
import Senex.T0Audit.Transport
import Senex.Foundation.Base64
import Senex.T0Audit.CursorToken
import Senex.Foundation.Midnight
import Senex.Authority.QuotaBreaker
import Senex.Authority.QuotaReset
