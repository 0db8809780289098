import TreeOptions.Runstate.CrashSafety
import TreeOptions.Runstate.Rollback
import TreeOptions.Runstate.Store
import TreeOptions.Registry.AuditTrail
import TreeOptions.Seal.Durability
import TreeOptions.Seal.OneShot
import TreeOptions.Seal.Reconciliation
import TreeOptions.Books.CostBasis
import TreeOptions.Books.File
import TreeOptions.Trex.RiskGate
import TreeOptions.Execution.Arrival
import TreeOptions.Execution.Replacement
import TreeOptions.Desk.StopRuns
import TreeOptions.Family.SingleUse
import TreeOptions.Research.StoreSoundness
import TreeOptions.Options.Timeline
import TreeOptions.Desk.Restore
import TreeOptions.ChainStore.Gaps
import TreeOptions.PointInTime.LookAhead
import TreeOptions.Outcomes.Selection
import TreeOptions.Acceptance.Omission
import TreeOptions.SealGate.Certificate
import TreeOptions.ExitWatch.Incident
import TreeOptions.Trex.EntryRuns
import TreeOptions.Splitting.Leakage
import TreeOptions.Trex.Reconcile
import TreeOptions.RealOptions.LookAhead
import TreeOptions.Workspace.OneOrder
import TreeOptions.Supervised.AuthorityRuns
import TreeOptions.Backtest.Conversion
import TreeOptions.Options.SessionBudget
import TreeOptions.Research.FundedCash
import TreeOptions.Ledger.Rejections
import TreeOptions.Desk.PortfolioRuns
import TreeOptions.Ingest.Identity
import TreeOptions.BarsManifest.GridRanks
import TreeOptions.Candidates.Filters
import TreeOptions.Execution.Evidence
import TreeOptions.LongRun.Choices
import TreeOptions.Outcomes.BruteForce
import TreeOptions.Gateway.Restarts
import TreeOptions.Seal.History
