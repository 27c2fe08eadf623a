import Usdb.Storage.Types

namespace Usdb

inductive RecoveryContext
  | energyRollbackAfterSyncedHeightUpdate
  | energyRollbackAfterSavepoint
  | energyRollbackAfterFinalizedBlock
  | energyAbortAfterPendingBlock
  | transferRollbackAfterBlock
deriving DecidableEq, Repr

/-- Why an operation of the indexer failed. Each constructor stands for one error
text of the source and carries the values that identify the failure; `io` is a
failed external call or storage access, and `panic` a failed assertion or a crash. -/
inductive IndexerError
  | io
  | panic
  | merged (original recovery : IndexerError) (context : RecoveryContext)
  | constraintViolation
  | passNotFoundBeforeHistoryAppend (id : InscriptionId) (event : PassHistoryEvent)
  | noPassToTransfer (id : InscriptionId) (newOwner : USDBScriptHash)
  | noPassWithSatpoint (id : InscriptionId) (prevSatpoint newSatpoint : SatPoint)
  | noPassWithState (id : InscriptionId) (prevState newState : MinerPassState)
  | rollbackAnchorHeightMismatch (targetHeight anchorHeight : Nat)
  | rollbackRebuildMismatch (targetHeight surviving rebuilt : Nat)
  | futureSyncedHeight (target synced : Nat)
  | futureMinerPass (target : Nat) (id : InscriptionId) (mintHeight : Nat)
  | futureActiveBalanceSnapshot (target snapshot : Nat)
  | futurePassHistory (target : Nat) (id : InscriptionId) (height : Nat) (event : PassHistoryEvent)
  | futurePassBlockCommit (target commitHeight : Nat)
  | futureSnapshotAnchor (target anchorHeight : Nat)
  | futureSnapshotHistory (target height : Nat)
  | unexpectedBalanceSnapshot (synced genesis snapshot : Nat)
  | missingBalanceSnapshot (synced genesis : Nat)
  | balanceSnapshotHeightMismatch (synced snapshot : Nat)
  | snapshotMissingBlockHash (height : Nat)
  | snapshotMissingBlockCommit (height : Nat)
  | snapshotAnchorHeightMismatch (synced snapshot : Nat)
  | pendingEnergyBlock (pending newHeight : Nat)
  | energyFinalizeMismatch (pending : Option Nat) (height : Nat)
  | energyAbortMismatch (pending : Option Nat) (height : Nat)
  | energyBehindPass (energySynced passSynced : Nat)
  | noPreviousEnergyRecord (id : InscriptionId) (height : Nat)
  | noEnergyRecordForBalanceChange (id : InscriptionId) (height : Nat) (owner : USDBScriptHash)
  | noEnergyRecordForDormant (id : InscriptionId) (height : Nat)
  | energyStateMismatch (id : InscriptionId) (height : Nat) (state : MinerPassState)
  | energyOwnerMismatch (id : InscriptionId) (height : Nat) (expected actual : USDBScriptHash)
  | energyRecordAhead (id : InscriptionId) (recordHeight height : Nat)
  | balanceChangeConflict (id : InscriptionId) (height : Nat)
  | settleDirectionMismatch (id : InscriptionId) (height : Nat)
  | dormantSnapshotMismatch (id : InscriptionId) (height : Nat)
  | passNotFoundForConsuming (id : InscriptionId) (height : Nat)
  | energyNotFoundForConsuming (id : InscriptionId) (height : Nat)
  | passNotFoundForTransfer (id : InscriptionId) (height : Nat)
  | passNotFoundForBurning (id : InscriptionId) (height : Nat)
  | collectorAlreadyActive (height : Nat)
  | collectorNotActive (height : Nat)
  | collectorHeightMismatch (expected actual : Nat)
  | upstreamCommitMissing (height : Nat)
  | upstreamCommitHeightMismatch (localHeight upstreamHeight : Nat)
  | transactionNotFound (txid : Txid)
  | utxoNotFound (outpoint : OutPoint)
  | invalidInscriptionIndex (id : InscriptionId) (envelopes : Nat)
  | invalidEnvelopeInput (id : InscriptionId) (input inputs : Nat)
  | noSatpointFound (id : InscriptionId)
  | noCreatorAddress (id : InscriptionId) (height : Nat)
  | invalidNoCreatorAddress (id : InscriptionId) (height : Nat)
  | stagedStateExists (height count : Nat)
  | stagedStateOverwritten (height : Nat)
  | transferSatpointFailed (id : InscriptionId) (txid : Txid)
  | noStagedStateForCommit (height : Nat)
  | noStagedStateForRollback (height : Nat)
  | mintTxNotInBlock (id : InscriptionId) (height : Nat)
  | transferTxNotInBlock (id : InscriptionId) (txid : Txid) (height : Nat)
  | transferInputNotFound (id : InscriptionId) (txid : Txid) (height : Nat) (prev : OutPoint)
  | missingBlockHint (height : Nat)
  | duplicateActiveOwner (height : Nat) (owner : USDBScriptHash) (existing duplicate : InscriptionId)
  | tooManyActiveAddresses (height count : Nat)
  | duplicateOwnerBalance (height : Nat) (owner : USDBScriptHash)
  | missingOwnerBalance (height : Nat) (owner : USDBScriptHash) (id : InscriptionId)
  | futureOwnerBalance (height balanceHeight : Nat) (owner : USDBScriptHash)
  | extraOwnerBalances (height count : Nat)
  | reorgRecoveryHeightMismatch (pending synced : Nat)
  | ordInscriptionListMismatch (height ids inscriptions : Nat)
deriving DecidableEq, Repr

end Usdb
