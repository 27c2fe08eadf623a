import Usdb.Error
import Usdb.Framework.Table
import Mathlib.Data.List.Sort

namespace Usdb

open Framework

/-- The contents of the pass database: its tables and its named state values. -/
structure MinerPassStorage where
  minerPasses : List MinerPassInfo
  passStateHistory : List PassHistoryRow
  nextHistoryId : Nat
  passBlockCommits : List PassBlockCommitEntry
  activeBalanceSnapshots : List ActiveBalanceSnapshot
  balanceHistorySnapshotHistory : List BalanceHistorySnapshotAnchor
  balanceHistorySnapshotAnchor : Option BalanceHistorySnapshotAnchor
  syncedBtcBlockHeight : Option Nat
  upstreamReorgRecoveryPendingHeight : Option Nat
deriving DecidableEq, Repr

namespace MinerPassStorage

def empty : MinerPassStorage where
  minerPasses := []
  passStateHistory := []
  nextHistoryId := 1
  passBlockCommits := []
  activeBalanceSnapshots := []
  balanceHistorySnapshotHistory := []
  balanceHistorySnapshotAnchor := none
  syncedBtcBlockHeight := none
  upstreamReorgRecoveryPendingHeight := none

/-- The partial unique index on the owner of Active rows. -/
def ActiveOwnerUnique (rows : List MinerPassInfo) : Prop :=
  rows.Pairwise (fun a b => ¬(a.state = .Active ∧ b.state = .Active ∧ a.owner = b.owner))

instance (rows : List MinerPassInfo) : Decidable (ActiveOwnerUnique rows) :=
  inferInstanceAs (Decidable (List.Pairwise _ rows))

/-- What SQLite enforces on `miner_passes`: the primary key and the unique index. -/
def ConstraintsHold (rows : List MinerPassInfo) : Prop :=
  (rows.map (·.inscriptionId)).Nodup ∧ ActiveOwnerUnique rows

instance (rows : List MinerPassInfo) : Decidable (ConstraintsHold rows) :=
  inferInstanceAs (Decidable (_ ∧ _))

def getPassByInscriptionId (ps : MinerPassStorage) (id : InscriptionId) : Option MinerPassInfo :=
  lookup (·.inscriptionId) id ps.minerPasses

/-- Active rows of the owner, the most recently minted first. -/
def getLastActiveMintPassByOwner (ps : MinerPassStorage) (owner : USDBScriptHash) :
    Option MinerPassInfo :=
  maxBy (·.mintBlockHeight) (ps.minerPasses.filter (fun p => p.owner = owner ∧ p.state = .Active))

/-- An `INSERT` or `UPDATE` of `miner_passes` takes effect only when the table it
would leave satisfies the constraints. -/
def writeRows (ps : MinerPassStorage) (rows : List MinerPassInfo) :
    Except IndexerError MinerPassStorage :=
  if ConstraintsHold rows then .ok { ps with minerPasses := rows } else .error .constraintViolation

def insertPassRecord (ps : MinerPassStorage) (info : MinerPassInfo) :
    Except IndexerError MinerPassStorage :=
  ps.writeRows (ps.minerPasses ++ [info])

/-- `UPDATE miner_passes SET .. WHERE inscription_id = ..` with a further condition
on the row; no affected row is an error. -/
def updateRow (ps : MinerPassStorage) (id : InscriptionId) (guard : MinerPassInfo → Bool)
    (f : MinerPassInfo → MinerPassInfo) (missing : IndexerError) :
    Except IndexerError MinerPassStorage :=
  match (ps.getPassByInscriptionId id).filter guard with
  | none => .error missing
  | some _ => ps.writeRows (modifyRow (·.inscriptionId) id f ps.minerPasses)

def transferOwner (ps : MinerPassStorage) (id : InscriptionId) (newOwner : USDBScriptHash)
    (newSatpoint : SatPoint) : Except IndexerError MinerPassStorage :=
  ps.updateRow id (fun _ => true) (fun p => { p with owner := newOwner, satpoint := newSatpoint })
    (.noPassToTransfer id newOwner)

def updateSatpoint (ps : MinerPassStorage) (id : InscriptionId)
    (prevSatpoint newSatpoint : SatPoint) : Except IndexerError MinerPassStorage :=
  ps.updateRow id (fun p => p.satpoint = prevSatpoint) (fun p => { p with satpoint := newSatpoint })
    (.noPassWithSatpoint id prevSatpoint newSatpoint)

def updateState (ps : MinerPassStorage) (id : InscriptionId)
    (newState prevState : MinerPassState) : Except IndexerError MinerPassStorage :=
  ps.updateRow id (fun p => p.state = prevState) (fun p => { p with state := newState })
    (.noPassWithState id prevState newState)

def appendPassHistoryEvent (ps : MinerPassStorage) (id : InscriptionId) (blockHeight : Nat)
    (eventType : PassHistoryEvent) (prevState : Option MinerPassState) (newState : MinerPassState)
    (prevOwner : Option USDBScriptHash) (newOwner : USDBScriptHash)
    (prevSatpoint : Option SatPoint) (newSatpoint : SatPoint) : MinerPassStorage :=
  { ps with
    passStateHistory := ps.passStateHistory ++
      [{ id := ps.nextHistoryId, inscriptionId := id, blockHeight, eventType, prevState, newState,
         prevOwner, newOwner, prevSatpoint, newSatpoint }]
    nextHistoryId := ps.nextHistoryId + 1 }

/-- The row with the greatest history id among those of the pass at or below the
height. -/
def latestHistoryAt (ps : MinerPassStorage) (blockHeight : Nat) (id : InscriptionId) :
    Option PassHistoryRow :=
  maxBy (·.id) (ps.passStateHistory.filter
    (fun r => r.inscriptionId = id ∧ r.blockHeight ≤ blockHeight))

/-- Rows of the history view at a height that are in one of the states, the most
recent first. -/
def historyViewByStates (ps : MinerPassStorage) (blockHeight : Nat)
    (states : List MinerPassState) : List ActiveMinerPassInfo :=
  ((ps.passStateHistory.filter (fun r =>
      ps.latestHistoryAt blockHeight r.inscriptionId = some r ∧ r.newState ∈ states)).insertionSort
    (fun a b => b.blockHeight < a.blockHeight ∨ (b.blockHeight = a.blockHeight ∧ b.id ≤ a.id))).map
    (fun r => { inscriptionId := r.inscriptionId, owner := r.newOwner })

def page {α : Type} (rows : List α) (index size : Nat) : List α :=
  (rows.drop (index * size)).take size

def getPassesByPageFromHistoryAtHeightByStates (ps : MinerPassStorage) (index size : Nat)
    (blockHeight : Nat) (states : List MinerPassState) : List ActiveMinerPassInfo :=
  if states = [] then [] else page (ps.historyViewByStates blockHeight states) index size

def getAllActivePassByPageFromHistoryAtHeight (ps : MinerPassStorage) (index size : Nat)
    (blockHeight : Nat) : List ActiveMinerPassInfo :=
  ps.getPassesByPageFromHistoryAtHeightByStates index size blockHeight [.Active]

/-- The rows the transfer tracker may have to follow, the most recently minted
first; ties keep the order of the table. -/
def trackablePasses (ps : MinerPassStorage) : List ValidMinerPassInfo :=
  ((ps.minerPasses.filter (fun p => p.state ∉ [MinerPassState.Consumed, .Invalid])).insertionSort
    (fun a b => b.mintBlockHeight ≤ a.mintBlockHeight)).map
    (fun p => { inscriptionId := p.inscriptionId, owner := p.owner, satpoint := p.satpoint })

def getAllValidPassByPage (ps : MinerPassStorage) (index size : Nat) : List ValidMinerPassInfo :=
  page ps.trackablePasses index size

def updateSyncedBtcBlockHeight (ps : MinerPassStorage) (height : Nat) : MinerPassStorage :=
  { ps with syncedBtcBlockHeight := some height }

def upsertPassBlockCommit (ps : MinerPassStorage) (entry : PassBlockCommitEntry) :
    MinerPassStorage :=
  { ps with passBlockCommits := upsert (·.blockHeight) entry ps.passBlockCommits }

def getPassBlockCommit (ps : MinerPassStorage) (height : Nat) : Option PassBlockCommitEntry :=
  lookup (·.blockHeight) height ps.passBlockCommits

def upsertActiveBalanceSnapshot (ps : MinerPassStorage) (snapshot : ActiveBalanceSnapshot) :
    MinerPassStorage :=
  { ps with
    activeBalanceSnapshots := upsert (·.blockHeight) snapshot ps.activeBalanceSnapshots }

def getLatestActiveBalanceSnapshot (ps : MinerPassStorage) : Option ActiveBalanceSnapshot :=
  maxBy (·.blockHeight) ps.activeBalanceSnapshots

/-- The hash and the commit are required before a snapshot is stored. -/
def snapshotAnchor (snapshot : BalanceHistorySnapshotInfo) :
    Except IndexerError BalanceHistorySnapshotAnchor :=
  match snapshot.stableBlockHash, snapshot.latestBlockCommit with
  | none, _ => .error (.snapshotMissingBlockHash snapshot.stableHeight)
  | some _, none => .error (.snapshotMissingBlockCommit snapshot.stableHeight)
  | some hash, some commit => .ok
      { stableHeight := snapshot.stableHeight, stableBlockHash := hash, latestBlockCommit := commit
        stableLag := snapshot.stableLag, commitProtocolVersion := snapshot.commitProtocolVersion
        commitHashAlgo := snapshot.commitHashAlgo }

def upsertBalanceHistorySnapshotHistoryEntry (ps : MinerPassStorage)
    (snapshot : BalanceHistorySnapshotInfo) : Except IndexerError MinerPassStorage := do
  let anchor ← snapshotAnchor snapshot
  return { ps with
    balanceHistorySnapshotHistory :=
      upsert (·.stableHeight) anchor ps.balanceHistorySnapshotHistory }

/-- Adopting an anchor also moves the synced height to it. -/
def upsertBalanceHistorySnapshotAnchor (ps : MinerPassStorage)
    (snapshot : BalanceHistorySnapshotInfo) : Except IndexerError MinerPassStorage := do
  let anchor ← snapshotAnchor snapshot
  return { ps with
    syncedBtcBlockHeight := some snapshot.stableHeight
    balanceHistorySnapshotAnchor := some anchor
    balanceHistorySnapshotHistory :=
      upsert (·.stableHeight) anchor ps.balanceHistorySnapshotHistory }

def getBalanceHistorySnapshotAnchorAtHeight (ps : MinerPassStorage) (height : Nat) :
    Option BalanceHistorySnapshotAnchor :=
  lookup (·.stableHeight) height ps.balanceHistorySnapshotHistory

/-- The first height of the range, counted upwards over the given number of
heights, with no snapshot-history row. -/
def firstMissingFrom (ps : MinerPassStorage) (height : Nat) : Nat → Option Nat
  | 0 => none
  | count + 1 =>
    match ps.getBalanceHistorySnapshotAnchorAtHeight height with
    | none => some height
    | some _ => firstMissingFrom ps (height + 1) count

def getFirstMissingBalanceHistorySnapshotHistoryHeight (ps : MinerPassStorage)
    (startHeight endHeight : Nat) : Option Nat :=
  ps.firstMissingFrom startHeight (endHeight + 1 - startHeight)

/-- The row a surviving pass gets back: its mint data with owner, state and
satpoint of its latest history row at the target height. -/
def survivingPass (ps : MinerPassStorage) (targetHeight : Nat) (pass : MinerPassInfo) :
    Option MinerPassInfo :=
  if pass.mintBlockHeight ≤ targetHeight then
    (ps.latestHistoryAt targetHeight pass.inscriptionId).map (fun row =>
      { pass with satpoint := row.newSatpoint, owner := row.newOwner, state := row.newState })
  else none

/-- One transaction: nothing is changed when a check fails. -/
def rollbackToBlockHeightInternal (ps : MinerPassStorage) (targetHeight : Nat)
    (targetAnchor : Option BalanceHistorySnapshotInfo) (markUpstreamReorgRecoveryPending : Bool) :
    Except IndexerError MinerPassStorage := do
  if let some anchor := targetAnchor then
    if anchor.stableHeight ≠ targetHeight then
      throw (.rollbackAnchorHeightMismatch targetHeight anchor.stableHeight)
  let surviving := (ps.minerPasses.filter (fun p => p.mintBlockHeight ≤ targetHeight)).length
  let rebuilt := ps.minerPasses.filterMap (ps.survivingPass targetHeight)
  if 0 < surviving ∧ rebuilt.length ≠ surviving then
    throw (.rollbackRebuildMismatch targetHeight surviving rebuilt.length)
  let restored ← writeRows
    { ps with
      passStateHistory := ps.passStateHistory.filter (fun r => r.blockHeight ≤ targetHeight)
      passBlockCommits := ps.passBlockCommits.filter (fun c => c.blockHeight ≤ targetHeight)
      activeBalanceSnapshots :=
        ps.activeBalanceSnapshots.filter (fun a => a.blockHeight ≤ targetHeight)
      balanceHistorySnapshotHistory :=
        ps.balanceHistorySnapshotHistory.filter (fun a => a.stableHeight ≤ targetHeight)
      balanceHistorySnapshotAnchor := none } rebuilt
  let anchored ← match targetAnchor with
    | some anchor => restored.upsertBalanceHistorySnapshotAnchor anchor
    | none => pure (restored.updateSyncedBtcBlockHeight targetHeight)
  return { anchored with
    upstreamReorgRecoveryPendingHeight :=
      if markUpstreamReorgRecoveryPending then some targetHeight else none }

def rollbackToBlockHeightWithUpstreamReorgRecoveryPending (ps : MinerPassStorage)
    (targetHeight : Nat) (targetAnchor : Option BalanceHistorySnapshotInfo) :
    Except IndexerError MinerPassStorage :=
  ps.rollbackToBlockHeightInternal targetHeight targetAnchor true

/-- The seven checks, in the order of the source, each reporting the lowest
offending height. -/
def assertNoDataAfterBlockHeight (ps : MinerPassStorage) (blockHeight : Nat) :
    Except IndexerError Unit := do
  if let some synced := ps.syncedBtcBlockHeight then
    if blockHeight < synced then throw (.futureSyncedHeight blockHeight synced)
  if let some p := minBy (·.mintBlockHeight)
      (ps.minerPasses.filter (fun p => blockHeight < p.mintBlockHeight)) then
    throw (.futureMinerPass blockHeight p.inscriptionId p.mintBlockHeight)
  if let some a := minBy (·.blockHeight)
      (ps.activeBalanceSnapshots.filter (fun a => blockHeight < a.blockHeight)) then
    throw (.futureActiveBalanceSnapshot blockHeight a.blockHeight)
  if let some r := minBy (·.blockHeight)
      (ps.passStateHistory.filter (fun r => blockHeight < r.blockHeight)) then
    throw (.futurePassHistory blockHeight r.inscriptionId r.blockHeight r.eventType)
  if let some c := minBy (·.blockHeight)
      (ps.passBlockCommits.filter (fun c => blockHeight < c.blockHeight)) then
    throw (.futurePassBlockCommit blockHeight c.blockHeight)
  if let some a := ps.balanceHistorySnapshotAnchor then
    if blockHeight < a.stableHeight then throw (.futureSnapshotAnchor blockHeight a.stableHeight)
  if let some a := minBy (·.stableHeight)
      (ps.balanceHistorySnapshotHistory.filter (fun a => blockHeight < a.stableHeight)) then
    throw (.futureSnapshotHistory blockHeight a.stableHeight)

def assertBalanceSnapshotConsistency (ps : MinerPassStorage) (syncedHeight genesis : Nat) :
    Except IndexerError Unit :=
  match ps.getLatestActiveBalanceSnapshot with
  | some snapshot =>
    if syncedHeight < genesis then
      .error (.unexpectedBalanceSnapshot syncedHeight genesis snapshot.blockHeight)
    else if snapshot.blockHeight ≠ syncedHeight then
      .error (.balanceSnapshotHeightMismatch syncedHeight snapshot.blockHeight)
    else .ok ()
  | none =>
    if syncedHeight < genesis then .ok () else .error (.missingBalanceSnapshot syncedHeight genesis)

end MinerPassStorage

end Usdb
