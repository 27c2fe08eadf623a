import Usdb.Service.Identity
import Usdb.Service.Leaderboard

namespace Usdb

open Framework MinerPassStorage

def consensusSourceChainBtc : String := "BTC"

def balanceHistoryApiVersion : String := "1.0.0"

def balanceHistorySemanticsVersion : String := "balance-snapshot-at-or-before:v1"

def usdbIndexFormulaVersion : String := "pass-energy-formula:v1"

def usdbIndexProtocolVersion : String := "1.0.0"

/-- What the identities of a node depend on besides its tables: the network it is configured
for, and the digest. -/
structure IdentityConfig where
  network : String
  sha256 : List UInt8 → List UInt8

structure IndexerSnapshotInfo where
  localSyncedBlockHeight : Nat
  balanceHistoryStableHeight : Nat
  stableBlockHash : String
  latestBlockCommit : String
  consensusIdentity : ConsensusSnapshotIdentity
  commitProtocolVersion : String
  commitHashAlgo : String
  snapshotId : String
deriving DecidableEq, Repr

structure LocalStateCommitInfo where
  localSyncedBlockHeight : Nat
  upstreamSnapshotId : String
  localStateIdentity : LocalStateCommitIdentity
  localStateCommit : String
deriving DecidableEq, Repr

structure SystemStateInfo where
  localSyncedBlockHeight : Nat
  upstreamSnapshotId : String
  localStateCommit : String
  systemStateIdentity : SystemStateIdentity
  systemStateId : String
deriving DecidableEq, Repr

/-- The selectors of a state that a caller may pin. -/
structure ConsensusStateReference where
  snapshotId : Option String
  stableHeight : Option Nat
  stableBlockHash : Option String
  balanceHistoryApiVersion : Option String
  balanceHistorySemanticsVersion : Option String
  usdbIndexProtocolVersion : Option String
  localStateCommit : Option String
  systemStateId : Option String
deriving DecidableEq, Repr

def ConsensusStateReference.isEmpty (r : ConsensusStateReference) : Bool :=
  r.snapshotId.isNone && r.stableHeight.isNone && r.stableBlockHash.isNone &&
    r.balanceHistoryApiVersion.isNone && r.balanceHistorySemanticsVersion.isNone &&
    r.usdbIndexProtocolVersion.isNone && r.localStateCommit.isNone && r.systemStateId.isNone

inductive ConsensusRpcErrorCode
  | SnapshotNotReady
  | HeightNotSynced
  | StateNotRetained
  | HistoryNotAvailable
  | SnapshotIdMismatch
  | BlockHashMismatch
  | VersionMismatch
  | LocalStateCommitMismatch
  | SystemStateIdMismatch
deriving DecidableEq, Repr

inductive RpcError
  | invalidParams (message : String)
  | business (error : LeaderboardError)
  | storage (error : IndexerError)
  | internal (message : String)
  | consensus (code : ConsensusRpcErrorCode) (requestedHeight : Option Nat) (detail : String)
deriving DecidableEq, Repr

namespace MinerPassStorage

/-- The last commit row at or below a height. -/
def getLatestPassBlockCommitAtOrBefore (ps : MinerPassStorage) (blockHeight : Nat) :
    Option PassBlockCommitEntry :=
  maxBy (·.blockHeight) (ps.passBlockCommits.filter (fun c => c.blockHeight ≤ blockHeight))

def getActiveBalanceSnapshot (ps : MinerPassStorage) (blockHeight : Nat) :
    Option ActiveBalanceSnapshot :=
  lookup (·.blockHeight) blockHeight ps.activeBalanceSnapshots

end MinerPassStorage

namespace UsdbIndexerRpcServer

variable (cfg : IndexerConfig) (identity : IdentityConfig)

/-- The snapshot info of an upstream anchor at a local height. -/
def snapshotInfo (localSyncedBlockHeight : Nat) (anchor : BalanceHistorySnapshotAnchor) :
    IndexerSnapshotInfo :=
  let consensusIdentity : ConsensusSnapshotIdentity :=
    { sourceChain := consensusSourceChainBtc
      network := identity.network
      stableHeight := anchor.stableHeight.toUInt32
      stableBlockHash := anchor.stableBlockHash
      stableLag := anchor.stableLag.toUInt32
      balanceHistoryApiVersion := balanceHistoryApiVersion
      balanceHistorySemanticsVersion := balanceHistorySemanticsVersion
      usdbIndexFormulaVersion := usdbIndexFormulaVersion
      usdbIndexProtocolVersion := usdbIndexProtocolVersion }
  { localSyncedBlockHeight
    balanceHistoryStableHeight := anchor.stableHeight
    stableBlockHash := anchor.stableBlockHash
    latestBlockCommit := anchor.latestBlockCommit
    consensusIdentity
    commitProtocolVersion := anchor.commitProtocolVersion
    commitHashAlgo := anchor.commitHashAlgo
    snapshotId := buildConsensusSnapshotId identity.sha256 consensusIdentity }

/-- The adopted anchor, with the local height of the moment. -/
def upstreamSnapshotInfo (ps : MinerPassStorage) : Option IndexerSnapshotInfo :=
  ps.balanceHistorySnapshotAnchor.map fun anchor =>
    snapshotInfo identity (ps.syncedBtcBlockHeight.getD anchor.stableHeight) anchor

def ensureHistoryHeightRetained (requestedHeight : Nat) (component : String) :
    Except RpcError Unit :=
  if cfg.genesisBlockHeight ≤ requestedHeight then .ok ()
  else
    .error (.consensus .StateNotRetained (some requestedHeight)
      (s!"Requested height {requestedHeight} is below {component} retention floor " ++
        s!"{cfg.genesisBlockHeight}"))

def latestPassBlockCommit (ps : MinerPassStorage) (height : Nat) :
    Option LocalStatePassCommitIdentity :=
  (ps.getLatestPassBlockCommitAtOrBefore height).map fun entry =>
    { blockHeight := entry.blockHeight.toUInt32, blockCommit := entry.blockCommit
      commitProtocolVersion := entry.commitProtocolVersion
      commitHashAlgo := entry.commitHashAlgo }

def missingActiveBalanceSnapshot (height : Nat) (requireLatest : Bool) : RpcError :=
  if requireLatest then
    .internal s!"Missing active balance snapshot at height {height} while building local state commit"
  else
    .consensus .HistoryNotAvailable (some height)
      (s!"Missing active balance snapshot at height {height} while building historical " ++
        "local state commit")

/-- What a commit says about the balances settled at a height. -/
def settledBalance (snapshot : ActiveBalanceSnapshot) : LocalStateActiveBalanceSnapshot :=
  { blockHeight := snapshot.blockHeight.toUInt32
    totalBalance := snapshot.totalBalance.toUInt64
    activeAddressCount := snapshot.activeAddressCount.toUInt32 }

def checkBalanceSnapshotHeight (ps : MinerPassStorage) (height : Nat) (requireLatest : Bool) :
    Except RpcError Unit :=
  if requireLatest then
    (ps.assertBalanceSnapshotConsistency height cfg.genesisBlockHeight).mapError .storage
  else ensureHistoryHeightRetained cfg height "historical state"

/-- Below genesis there is no active balance snapshot to commit to. -/
def latestActiveBalanceSnapshot (ps : MinerPassStorage) (height : Nat) (requireLatest : Bool) :
    Except RpcError (Option LocalStateActiveBalanceSnapshot) :=
  if height < cfg.genesisBlockHeight then .ok none
  else do
    checkBalanceSnapshotHeight cfg ps height requireLatest
    match ps.getActiveBalanceSnapshot height with
    | none => throw (missingActiveBalanceSnapshot height requireLatest)
    | some snapshot => return some (settledBalance snapshot)

def buildLocalStateCommitInfoAtHeight (ps : MinerPassStorage) (snapshot : IndexerSnapshotInfo)
    (requireLatest : Bool) : Except RpcError LocalStateCommitInfo := do
  let height := snapshot.localSyncedBlockHeight
  let activeBalanceSnapshot ← latestActiveBalanceSnapshot cfg ps height requireLatest
  let localStateIdentity : LocalStateCommitIdentity :=
    { upstreamSnapshotId := snapshot.snapshotId
      localSyncedBlockHeight := height.toUInt32
      latestPassBlockCommit := latestPassBlockCommit ps height
      latestActiveBalanceSnapshot := activeBalanceSnapshot
      usdbIndexProtocolVersion := usdbIndexProtocolVersion }
  return { localSyncedBlockHeight := height
           upstreamSnapshotId := snapshot.snapshotId
           localStateIdentity
           localStateCommit := buildLocalStateCommit identity.sha256 localStateIdentity }

def buildSystemStateInfo (localState : LocalStateCommitInfo) : SystemStateInfo :=
  let systemStateIdentity : SystemStateIdentity :=
    { upstreamSnapshotId := localState.upstreamSnapshotId
      localStateCommit := localState.localStateCommit }
  { localSyncedBlockHeight := localState.localSyncedBlockHeight
    upstreamSnapshotId := localState.upstreamSnapshotId
    localStateCommit := localState.localStateCommit
    systemStateIdentity
    systemStateId := buildSystemStateId identity.sha256 systemStateIdentity }

end UsdbIndexerRpcServer

inductive IndexerReadinessBlocker
  | RpcNotListening
  | ShutdownRequested
  | SyncedHeightMissing
  | CatchingUp
  | UpstreamConsensusNotReady
  | UpstreamReadinessUnknown
  | UpstreamSnapshotMissing
  | UpstreamSnapshotHeightMismatch
  | ReorgRecoveryPending
  | LocalStateCommitMissing
  | SystemStateMissing
deriving DecidableEq, Repr

def IndexerReadinessBlocker.asStr : IndexerReadinessBlocker → String
  | .RpcNotListening => "RpcNotListening"
  | .ShutdownRequested => "ShutdownRequested"
  | .SyncedHeightMissing => "SyncedHeightMissing"
  | .CatchingUp => "CatchingUp"
  | .UpstreamConsensusNotReady => "UpstreamConsensusNotReady"
  | .UpstreamReadinessUnknown => "UpstreamReadinessUnknown"
  | .UpstreamSnapshotMissing => "UpstreamSnapshotMissing"
  | .UpstreamSnapshotHeightMismatch => "UpstreamSnapshotHeightMismatch"
  | .ReorgRecoveryPending => "ReorgRecoveryPending"
  | .LocalStateCommitMissing => "LocalStateCommitMissing"
  | .SystemStateMissing => "SystemStateMissing"

/-- What the status manager holds in memory: the flags of the process, and the upstream
snapshot and readiness the monitor saw last. -/
structure IndexerStatus where
  rpcAlive : Bool
  shutdownRequested : Bool
  upstreamReorgRecoveryPending : Bool
  balanceHistorySnapshot : Option BalanceHistorySnapshotInfo
  balanceHistoryConsensusReady : Option Bool
deriving DecidableEq, Repr

structure IndexerReadinessInfo where
  rpcAlive : Bool
  queryReady : Bool
  consensusReady : Bool
  syncedBlockHeight : Option Nat
  balanceHistoryStableHeight : Option Nat
  upstreamSnapshotId : Option String
  localStateCommit : Option String
  systemStateId : Option String
  blockers : List IndexerReadinessBlocker
deriving DecidableEq, Repr

namespace UsdbIndexerRpcServer

variable (cfg : IndexerConfig) (identity : IdentityConfig)

/-- The blockers in the order they are looked for. -/
def readinessBlockers (status : IndexerStatus) (syncedHeight : Option Nat)
    (catchingUp reorgRecoveryPending : Bool) (upstreamSnapshot : Option IndexerSnapshotInfo)
    (localState : Option LocalStateCommitInfo) (systemState : Option SystemStateInfo) :
    List IndexerReadinessBlocker :=
  (if !status.rpcAlive then [IndexerReadinessBlocker.RpcNotListening] else []) ++
  (if status.shutdownRequested then [IndexerReadinessBlocker.ShutdownRequested] else []) ++
  (if syncedHeight.isNone then [IndexerReadinessBlocker.SyncedHeightMissing] else []) ++
  (if catchingUp then [IndexerReadinessBlocker.CatchingUp] else []) ++
  (match status.balanceHistoryConsensusReady with
    | some ready => if !ready then [IndexerReadinessBlocker.UpstreamConsensusNotReady] else []
    | none => [IndexerReadinessBlocker.UpstreamReadinessUnknown]) ++
  (match upstreamSnapshot, syncedHeight with
    | none, _ => [IndexerReadinessBlocker.UpstreamSnapshotMissing]
    | some snapshot, some localHeight =>
      if snapshot.balanceHistoryStableHeight ≠ localHeight then [IndexerReadinessBlocker.UpstreamSnapshotHeightMismatch]
      else []
    | some _, none => []) ++
  (if reorgRecoveryPending then [IndexerReadinessBlocker.ReorgRecoveryPending] else []) ++
  (if upstreamSnapshot.isSome && localState.isNone then [IndexerReadinessBlocker.LocalStateCommitMissing] else []) ++
  (if localState.isSome && systemState.isNone then [IndexerReadinessBlocker.SystemStateMissing] else [])

def isCatchingUp (syncedHeight observedUpstreamHeight : Option Nat) : Bool :=
  match syncedHeight, observedUpstreamHeight with
  | some localHeight, some upstreamHeight => localHeight < upstreamHeight
  | _, _ => false

def readinessInfo (ps : MinerPassStorage) (status : IndexerStatus) : IndexerReadinessInfo :=
  let syncedHeight := ps.syncedBtcBlockHeight
  let reorgRecoveryPending :=
    status.upstreamReorgRecoveryPending || ps.upstreamReorgRecoveryPendingHeight.isSome
  let upstreamSnapshot := upstreamSnapshotInfo identity ps
  let localState := upstreamSnapshot.bind fun snapshot =>
    (buildLocalStateCommitInfoAtHeight cfg identity ps snapshot true).toOption
  let systemState := localState.map (buildSystemStateInfo identity)
  let observedUpstreamHeight := (status.balanceHistorySnapshot.map (·.stableHeight)).orElse
    fun _ => upstreamSnapshot.map (·.balanceHistoryStableHeight)
  let catchingUp := isCatchingUp syncedHeight observedUpstreamHeight
  let blockers := readinessBlockers status syncedHeight catchingUp reorgRecoveryPending
    upstreamSnapshot localState systemState
  let queryReady := status.rpcAlive && !status.shutdownRequested && !reorgRecoveryPending &&
    syncedHeight.isSome
  { rpcAlive := status.rpcAlive
    queryReady
    consensusReady := queryReady && status.balanceHistoryConsensusReady.getD false &&
      !catchingUp && upstreamSnapshot.isSome && localState.isSome && systemState.isSome &&
      blockers.isEmpty
    syncedBlockHeight := syncedHeight
    balanceHistoryStableHeight := observedUpstreamHeight
    upstreamSnapshotId := upstreamSnapshot.map (·.snapshotId)
    localStateCommit := localState.map (·.localStateCommit)
    systemStateId := systemState.map (·.systemStateId)
    blockers }

end UsdbIndexerRpcServer

end Usdb
