import Usdb.Index.Indexer

namespace Usdb

open MinerPassStorage PassEnergyManager InscriptionTransferTracker

namespace InscriptionIndexer

/-- The height `sync_once` starts from: at least the block before genesis. -/
def currentHeight (cfg : IndexerConfig) (ps : MinerPassStorage) : Nat :=
  max (ps.syncedBtcBlockHeight.getD 0) (cfg.genesisBlockHeight - 1)

/-- The second half of a reorg recovery, once the pass rollback is durable. -/
def resumePendingUpstreamReorgRecovery (cfg : IndexerConfig) : IndexerM Unit := do
  match ← readPass (·.upstreamReorgRecoveryPendingHeight) with
  | none => pure ()
  | some pendingHeight =>
    let passSyncedHeight := (← readPass (·.syncedBtcBlockHeight)).getD 0
    if passSyncedHeight ≠ pendingHeight then
      throw (.reorgRecoveryHeightMismatch pendingHeight passSyncedHeight)
    rollbackToPassSyncedHeight pendingHeight
    reloadFromStorage
    checkPass (·.assertNoDataAfterBlockHeight pendingHeight)
    checkPass (·.assertBalanceSnapshotConsistency pendingHeight cfg.genesisBlockHeight)
    writePass (fun ps => .ok { ps with upstreamReorgRecoveryPendingHeight := none })

/-- The durable rollback to the common ancestor found upstream, if the upstream
state drifted. -/
def reconcileUpstreamReorg (cfg : IndexerConfig) (currentHeight : Nat)
    (rollbackTarget : Option Nat) : IndexerM Nat := do
  match rollbackTarget with
  | none => return currentHeight
  | some target =>
    writePass (·.rollbackToBlockHeightWithUpstreamReorgRecoveryPending target none)
    resumePendingUpstreamReorgRecovery cfg
    return target

/-- `sync_once` up to the first new block: pending recovery, upstream reorg,
consistency checks and the energy reconciliation. -/
def prepareSync (cfg : IndexerConfig) (rollbackTarget : Option Nat) : IndexerM Unit := do
  let _ ← readPass (currentHeight cfg)
  resumePendingUpstreamReorgRecovery cfg
  let height ← readPass (currentHeight cfg)
  let height ← reconcileUpstreamReorg cfg height rollbackTarget
  checkPass (·.assertNoDataAfterBlockHeight height)
  checkPass (·.assertBalanceSnapshotConsistency height cfg.genesisBlockHeight)
  reconcileWithPassSyncedHeight height

def persistBalanceHistorySnapshotAnchor (syncedHeight : Nat)
    (snapshot : BalanceHistorySnapshotInfo) : IndexerM Unit := do
  if snapshot.stableHeight ≠ syncedHeight then
    throw (.snapshotAnchorHeightMismatch syncedHeight snapshot.stableHeight)
  writePass (·.upsertBalanceHistorySnapshotAnchor snapshot)

/-- The loop of the backfill over consecutive heights. -/
def backfillFrom (stateRefAtHeight : Nat → BalanceHistorySnapshotInfo) (height : Nat) :
    Nat → IndexerM Unit
  | 0 => pure ()
  | count + 1 => do
    match ← readPass (·.getBalanceHistorySnapshotAnchorAtHeight height) with
    | some _ => pure ()
    | none =>
      io
      writePass (·.upsertBalanceHistorySnapshotHistoryEntry (stateRefAtHeight height))
    backfillFrom stateRefAtHeight (height + 1) count

def backfillBalanceHistorySnapshotHistory (stateRefAtHeight : Nat → BalanceHistorySnapshotInfo)
    (startHeight endHeight : Nat) : IndexerM Unit := do
  if startHeight ≤ endHeight then
    match ← readPass
        (·.getFirstMissingBalanceHistorySnapshotHistoryHeight startHeight endHeight) with
    | none => pure ()
    | some first => backfillFrom stateRefAtHeight first (endHeight + 1 - first)

/-- `sync_once` after the last new block: the upstream snapshot is adopted and the
snapshot history completed. -/
def finishSync (cfg : IndexerConfig) (syncedHeight : Nat) (snapshot : BalanceHistorySnapshotInfo)
    (stateRefAtHeight : Nat → BalanceHistorySnapshotInfo) : IndexerM Unit := do
  persistBalanceHistorySnapshotAnchor syncedHeight snapshot
  backfillBalanceHistorySnapshotHistory stateRefAtHeight cfg.genesisBlockHeight syncedHeight

end InscriptionIndexer

end Usdb
