import Usdb.Index.BlockEvents
import Usdb.Balance.Monitor

namespace Usdb

open MinerPassStorage PassEnergyManager MinerPassManager InscriptionTransferTracker

structure IndexerConfig where
  genesisBlockHeight : Nat
  genesisBlockHeight_pos : 1 ≤ genesisBlockHeight
  activeAddressPageSize : Nat
  activeAddressPageSize_pos : 1 ≤ activeAddressPageSize
  hash : CommitHash

/-- How the content of an inscription is classified. The ids of a valid mint's
`prev` list are those its content was accepted with. -/
inductive ParsedMintContent
  | NotUsdbMint
  | Valid (content : USDBMint)
  | Invalid (code : MintValidationErrorCode) (reason : String)
deriving DecidableEq, Repr

/-- An inscription the source lists for a block; without text content it is
skipped. -/
structure DiscoveredInscription where
  inscriptionId : InscriptionId
  inscriptionNumber : Int
  timestamp : Nat
  satpoint : Option SatPoint
  content : Option ParsedMintContent
deriving DecidableEq, Repr

structure DiscoveredMint where
  inscriptionId : InscriptionId
  inscriptionNumber : Int
  blockHeight : Nat
  timestamp : Nat
  satpoint : Option SatPoint
  content : USDBMint
deriving DecidableEq, Repr

structure DiscoveredInvalidMint where
  inscriptionId : InscriptionId
  inscriptionNumber : Int
  blockHeight : Nat
  timestamp : Nat
  satpoint : Option SatPoint
  errorCode : MintValidationErrorCode
  errorReason : String
deriving DecidableEq, Repr

structure DiscoveredMintBatch where
  validMints : List DiscoveredMint
  invalidMints : List DiscoveredInvalidMint
deriving DecidableEq, Repr

/-- Every source stamps its inscriptions with the height it was asked for. -/
def classifyUsdbMintsFromInscriptions (blockHeight : Nat)
    (inscriptions : List DiscoveredInscription) : DiscoveredMintBatch where
  validMints := inscriptions.filterMap (fun i =>
    match i.content with
    | some (.Valid content) => some
        { inscriptionId := i.inscriptionId, inscriptionNumber := i.inscriptionNumber, blockHeight
          timestamp := i.timestamp, satpoint := i.satpoint, content }
    | _ => none)
  invalidMints := inscriptions.filterMap (fun i =>
    match i.content with
    | some (.Invalid errorCode errorReason) => some
        { inscriptionId := i.inscriptionId, inscriptionNumber := i.inscriptionNumber, blockHeight
          timestamp := i.timestamp, satpoint := i.satpoint, errorCode, errorReason }
    | _ => none)

/-- What the outside world answers while one block is synced. -/
structure BlockEnv where
  blockHint : Option Block
  inscriptions : List DiscoveredInscription
  btc : BtcClient
  provider : BalanceProvider
  upstreamCommit : Option BalanceHistoryBlockCommitInfo

structure CollectedMintItems where
  validItems : List InscriptionNewItem
  invalidItems : List InvalidPassMintInscriptionInfo
deriving DecidableEq, Repr

/-- A valid mint with its creation point and the address that holds it. -/
structure MintCandidate where
  mint : DiscoveredMint
  createInfo : InscriptionCreateInfo
  address : USDBScriptHash
deriving DecidableEq, Repr

namespace InscriptionIndexer

/-- The loop that gives each mint its creation point and its creator address, which
is required. -/
def loadMints {α β : Type} (btc : BtcClient) (inscriptionId : α → InscriptionId)
    (noAddress : α → IndexerError) (build : α → InscriptionCreateInfo → USDBScriptHash → β) :
    List α → IndexerM (List β)
  | [] => pure []
  | mint :: rest => do
    let createInfo ← calcCreateSatpoint btc (inscriptionId mint)
    match createInfo.address with
    | none => throw (noAddress mint)
    | some address =>
      let built ← loadMints btc inscriptionId noAddress build rest
      return build mint createInfo address :: built

def loadCandidates (btc : BtcClient) (blockHeight : Nat) (mints : List DiscoveredMint) :
    IndexerM (List MintCandidate) :=
  loadMints btc (·.inscriptionId) (fun mint => .noCreatorAddress mint.inscriptionId blockHeight)
    (fun mint createInfo address => { mint, createInfo, address }) mints

def loadInvalidItems (btc : BtcClient) (blockHeight : Nat) (mints : List DiscoveredInvalidMint) :
    IndexerM (List InvalidPassMintInscriptionInfo) :=
  loadMints btc (·.inscriptionId)
    (fun mint => .invalidNoCreatorAddress mint.inscriptionId blockHeight)
    (fun mint createInfo mintOwner =>
      { inscriptionId := mint.inscriptionId, inscriptionNumber := mint.inscriptionNumber
        mintTxid := createInfo.satpoint.outpoint.txid, mintBlockHeight := mint.blockHeight
        mintOwner, satpoint := createInfo.satpoint, errorCode := mint.errorCode
        errorReason := mint.errorReason }) mints

def displayTxid (txid : Txid) : String :=
  let digits := String.ofList (Nat.toDigits 16 txid)
  String.ofList (List.replicate (64 - digits.length) '0') ++ digits

def displayOutPoint (outpoint : OutPoint) : String :=
  displayTxid outpoint.txid ++ ":" ++ toString outpoint.vout

def displayInscriptionId (id : InscriptionId) : String :=
  displayTxid id.txid ++ "i" ++ toString id.index

def debugInscriptionIds (ids : List InscriptionId) : String :=
  "[" ++ String.intercalate ", " (ids.map (fun id =>
    "InscriptionId \x7b txid: " ++ displayTxid id.txid ++ ", index: " ++ toString id.index ++
      " \x7d")) ++ "]"

def ambiguousRevealInputReason (commitOutpoint : OutPoint) (blockHeight : Nat)
    (id : InscriptionId) (conflicted : List InscriptionId) : String :=
  "Multiple usdb mints share the same reveal input outpoint " ++ displayOutPoint commitOutpoint ++
    " in block " ++ toString blockHeight ++ ", inscription_id=" ++ displayInscriptionId id ++
    ", conflicted_inscriptions=" ++ debugInscriptionIds conflicted

/-- The valid mints revealed by one input outpoint. -/
def conflictedInscriptions (candidates : List MintCandidate) (commitOutpoint : OutPoint) :
    List InscriptionId :=
  (candidates.filter (fun c => c.createInfo.commitOutpoint = commitOutpoint)).map
    (·.mint.inscriptionId)

def isAmbiguous (candidates : List MintCandidate) (candidate : MintCandidate) : Bool :=
  1 < (conflictedInscriptions candidates candidate.createInfo.commitOutpoint).length

def newItem (candidate : MintCandidate) : InscriptionNewItem where
  inscriptionId := candidate.mint.inscriptionId
  inscriptionNumber := candidate.mint.inscriptionNumber
  blockHeight := candidate.mint.blockHeight
  timestamp := candidate.mint.timestamp
  address := candidate.address
  satpoint := candidate.createInfo.satpoint
  value := candidate.createInfo.value
  content := candidate.mint.content
  commitTxid := candidate.createInfo.commitTxid

def ambiguousItem (blockHeight : Nat) (candidates : List MintCandidate)
    (candidate : MintCandidate) : InvalidPassMintInscriptionInfo where
  inscriptionId := candidate.mint.inscriptionId
  inscriptionNumber := candidate.mint.inscriptionNumber
  mintTxid := candidate.createInfo.satpoint.outpoint.txid
  mintBlockHeight := candidate.mint.blockHeight
  mintOwner := candidate.address
  satpoint := candidate.createInfo.satpoint
  errorCode := .AmbiguousRevealInput
  errorReason := ambiguousRevealInputReason candidate.createInfo.commitOutpoint blockHeight
    candidate.mint.inscriptionId
    (conflictedInscriptions candidates candidate.createInfo.commitOutpoint)

/-- The mints of a block. Valid mints that share their reveal input are recorded as
invalid, before the invalid mints of the source. -/
def collectBlockInscriptionMints (env : BlockEnv) (blockHeight : Nat) :
    IndexerM CollectedMintItems := do
  io
  let batch := classifyUsdbMintsFromInscriptions blockHeight env.inscriptions
  let candidates ← loadCandidates env.btc blockHeight batch.validMints
  let invalidItems ← loadInvalidItems env.btc blockHeight batch.invalidMints
  return { validItems := (candidates.filter (fun c => !isAmbiguous candidates c)).map newItem
           invalidItems := (candidates.filter (isAmbiguous candidates)).map
             (ambiguousItem blockHeight candidates) ++ invalidItems }

def buildTransferTrackSeeds (mintItems : List InscriptionNewItem) : List TransferTrackSeed :=
  mintItems.map (fun item =>
    { inscriptionId := item.inscriptionId, owner := item.address, satpoint := item.satpoint })

def processInvalidMints : List InvalidPassMintInscriptionInfo → IndexerM Unit
  | [] => pure ()
  | item :: rest => do
    onInvalidMintPass item
    processInvalidMints rest

/-- The loop over the settled rows; rows without a change are skipped. -/
def applyEnergyChanges : List ActivePassBalance → IndexerM Unit
  | [] => pure ()
  | row :: rest => do
    if row.delta ≠ 0 then
      discard (applyActiveBalanceChange row.inscriptionId row.owner row.blockHeight row.balance
        row.delta)
    applyEnergyChanges rest

def mergeBlockFailureWithRecovery (originalError : IndexerError)
    (recoveryError : Option IndexerError) (context : RecoveryContext) : IndexerError :=
  match recoveryError with
  | some recovery => .merged originalError recovery context
  | none => originalError

/-- Undo a failed block: energy through the pending marker before the energy
finalize and down to the pass synced height after it, then the staged transfers. -/
def recoverFailedBlockSync (blockHeight : Nat) (transferStaged energyFinalized : Bool)
    (originalError : IndexerError) : IndexerM IndexerError := do
  let energyRecovery ← if energyFinalized then
      errorOf (do
        let synced ← readPass (·.syncedBtcBlockHeight)
        rollbackToPassSyncedHeight (synced.getD 0))
    else errorOf (abortPendingBlockSync blockHeight)
  let msg := mergeBlockFailureWithRecovery originalError energyRecovery
    (if energyFinalized then .energyRollbackAfterFinalizedBlock else .energyAbortAfterPendingBlock)
  if !transferStaged then return msg
  let transferRollback ← errorOf (rollbackStagedBlock blockHeight)
  return mergeBlockFailureWithRecovery msg transferRollback .transferRollbackAfterBlock

def persistPassBlockCommit (cfg : IndexerConfig) (env : BlockEnv) (blockHeight : Nat)
    (collector : PassBlockMutationCollector) : IndexerM Unit := do
  io
  match env.upstreamCommit with
  | none => throw (.upstreamCommitMissing blockHeight)
  | some upstreamCommit =>
    let prevLocalCommit ← if blockHeight = 0 then pure none
      else readPass (·.getPassBlockCommit (blockHeight - 1))
    let entry ← liftExcept (collector.buildCommitEntry cfg.hash upstreamCommit prevLocalCommit)
    writePass (fun ps => .ok (ps.upsertPassBlockCommit entry))

/-- What a block brings: its mints, and its moves, which are staged in the tracker. -/
def collectBlock (env : BlockEnv) (height : Nat) :
    IndexerM (Block × CollectedMintItems × List InscriptionTransferItem) := do
  io
  match env.blockHint with
  | none => throw (.missingBlockHint height)
  | some block =>
    let mints ← collectBlockInscriptionMints env height
    let items ← processBlockWithHint env.btc height block (buildTransferTrackSeeds mints.validItems)
    return (block, mints, items)

/-- Events, invalid mints, settlement and the energy finalize. A failure in here
finds the energy store with the pending marker. -/
def applyBlock (cfg : IndexerConfig) (env : BlockEnv) (height : Nat) (block : Block)
    (mints : CollectedMintItems) (items : List InscriptionTransferItem) : IndexerM Unit := do
  let events ← liftExcept (BlockEventPlanner.plan height block mints.validItems items)
  BlockEventExecutor.execute env.provider events
  processInvalidMints mints.invalidItems
  let settlement ← BalanceMonitor.settleActiveBalanceWithDetails env.provider
    cfg.activeAddressPageSize height
  applyEnergyChanges settlement.activePassBalances
  finalizeBlockSync height

/-- The block commit and the publication of the staged transfers. A failure in here
finds the energy store finalized. -/
def publishBlock (cfg : IndexerConfig) (env : BlockEnv) (height : Nat) : IndexerM Unit := do
  let collector ← takeBlockMutationCollector height
  persistPassBlockCommit cfg env height collector
  commitStagedBlock height

/-- The guard that clears the collector on every way out. -/
def withMutationCollection (height : Nat) (body : IndexerM Unit) : IndexerM Unit := do
  beginBlockMutationCollection height
  fun s =>
    match body s with
    | .ok a t => .ok a { t with currentBlockCollector := none }
    | .error e t => .error e { t with currentBlockCollector := none }

def syncBlock (cfg : IndexerConfig) (env : BlockEnv) (height : Nat) : IndexerM Unit := do
  beginBlockSync height
  withMutationCollection height do
    let (block, mints, items) ← collectBlock env height
    recoverWith (applyBlock cfg env height block mints items)
      (fun e => do throw (← recoverFailedBlockSync height true false e))
    recoverWith (publishBlock cfg env height)
      (fun e => do throw (← recoverFailedBlockSync height true true e))

/-- The savepoint guard: unless released, it restores the pass database. -/
def withSavepoint (body : IndexerM Unit) : IndexerM Unit := do
  io
  fun s =>
    match body s with
    | .ok a t => .ok a t
    | .error e t => .error e { t with passStorage := s.passStorage }

/-- Roll the energy store back to the durable height after `x` failed. -/
def orRollbackEnergy (durableHeight : Nat) (context : RecoveryContext) (x : IndexerM Unit) :
    IndexerM Unit :=
  recoverWith x (fun e => do
    let recovery ← errorOf (rollbackToPassSyncedHeight durableHeight)
    throw (mergeBlockFailureWithRecovery e recovery context))

/-- One round of `sync_blocks`. The release of the savepoint is the last call of
its body. -/
def syncBlockDurably (cfg : IndexerConfig) (env : BlockEnv) (height : Nat) : IndexerM Unit := do
  let durable := (← readPass (·.syncedBtcBlockHeight)).getD 0
  withSavepoint do
    syncBlock cfg env height
    orRollbackEnergy durable .energyRollbackAfterSyncedHeightUpdate
      (writePass (fun ps => .ok (ps.updateSyncedBtcBlockHeight height)))
    orRollbackEnergy durable .energyRollbackAfterSavepoint io

end InscriptionIndexer

end Usdb
