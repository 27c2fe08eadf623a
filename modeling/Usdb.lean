import Usdb.Framework.Triple
import Usdb.Framework.Timeline
import Usdb.Framework.Table
import Usdb.Storage.Pass
import Usdb.Storage.Energy
import Usdb.Index.EnergyFormula
import Usdb.Index.PassCommit
import Usdb.Index.State
import Usdb.Index.Energy
import Usdb.Index.Pass
import Usdb.Btc.Tx
import Usdb.Index.Transfer
import Usdb.Index.BlockEvents
import Usdb.Balance.Monitor
import Usdb.Index.World
import Usdb.Index.MintCollection
import Usdb.Storage.PassHistory
import Usdb.Storage.PassProgress
import Usdb.Framework.Commute
import Usdb.Framework.Traverse
import Usdb.Index.BlockRun
import Usdb.Index.EnergyOps
import Usdb.Index.PassInvariant
import Usdb.Index.RollbackRestores
import Usdb.Index.TerminalStates
import Usdb.Energy.Answers
import Usdb.Energy.Inheritance
import Usdb.Framework.Framing
import Usdb.Index.CommitChain
import Usdb.Energy.Immutability
import Usdb.Index.InscriptionSource
import Usdb.Index.FailedAttempts
import Usdb.Index.PassLogRuns
import Usdb.Index.TrackerExact
import Usdb.Balances.CrashResume
import Usdb.Balances.ForkMixture
import Usdb.Balances.UndoWindow
import Usdb.Balances.CacheRuns
import Usdb.Balances.CommitBinding
import Usdb.Balances.ReadinessRuns
import Usdb.Energy.ExactGrowth
import Usdb.Service.Identity
import Usdb.ControlPlane.MintDraft
import Usdb.Service.Leaderboard
import Usdb.Service.StateRef
import Usdb.Index.SyncWrites
import Usdb.Service.StateReplay
import Usdb.Balances.ReorgAncestor
import Usdb.Framework.Layout
import Usdb.Btc.FirstInFirstOut
import Usdb.Index.MintPartition
import Usdb.Framework.Paging
import Usdb.Index.TrackerPages
import Usdb.Service.LeaderboardPages
import Usdb.Framework.JoinSet
import Usdb.Balance.Loaders
import Usdb.Balance.Determinism
import Usdb.Index.UpstreamReorg
import Usdb.Energy.Reconciliation
import Usdb.Index.PlanCausality
import Usdb.Energy.CatchUp
import Usdb.Framework.Unspent
import Usdb.Balances.BatchFill
import Usdb.Storage.EnergyQueries
import Usdb.Storage.EnergyRefinement
import Usdb.Balances.Ledger
import Usdb.Balances.BalanceScan
import Usdb.Balances.Aggregates
import Usdb.Balances.BlkFile
import Usdb.Balances.Verification
import Usdb.Balances.AddressRuns
import Usdb.Balances.LedgerBalance
import Usdb.Balances.ChainLedger
import Usdb.Balances.ChainStore
import Usdb.Balances.ChainRollback
import Usdb.Balances.LedgerRuns
import Usdb.Balances.LedgerAgreement
import Usdb.Balances.ScriptRegistry
import Usdb.Balances.LedgerProgress
import Usdb.Balances.NodeChain
import Usdb.Framework.SqlTable
import Usdb.Balances.SnapshotDb
import Usdb.Balances.StateRef
import Usdb.Balances.SnapshotExport
import Usdb.Balances.SnapshotContents
import Usdb.Balances.SnapshotInstall
import Usdb.Balances.SnapshotAtomic
import Usdb.Balances.SnapshotRestore
import Usdb.Balances.SnapshotTrust
import Usdb.Balances.SnapshotRuns
import Usdb.Balances.SnapshotHistory
import Usdb.Balances.SnapshotQueries
import Usdb.Index.RecoveryReentry
import Usdb.Service.Readiness
