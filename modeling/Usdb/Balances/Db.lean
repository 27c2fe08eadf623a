import Usdb.Framework.Triple
import Usdb.Balances.Types

namespace Usdb.Balances

open Framework

structure BlockCommitValue where
  btcBlockHash : BlockHash
  balanceDeltaRoot : List UInt8
  blockCommit : List UInt8
deriving DecidableEq, Repr

structure BalanceValue where
  delta : Int
  balance : Nat
deriving DecidableEq, Repr

/-- The column families of the store and the entries of its meta family. The four
families of an undo bundle are written and deleted together and are one table here. -/
structure BalanceHistoryDB where
  utxos : Table OutPoint UTXOValue
  balanceHistory : Table BalanceKey BalanceValue
  blockCommits : Table Nat BlockCommitValue
  blockUndo : Table Nat BlockUndoBundle
  scriptRegistry : Table USDBScriptHash ScriptBuf
  btcBlockHeight : Option Nat
  rollbackInProgress : Option Nat
  rollbackTargetHeight : Option Nat
  rollbackNextHeight : Option Nat
  rollbackSupportedFromHeight : Option Nat
  undoRetainedFromHeight : Option Nat
deriving DecidableEq

/-- A store whose directory was missing. -/
def BalanceHistoryDB.empty : BalanceHistoryDB where
  utxos := ∅
  balanceHistory := ∅
  blockCommits := ∅
  blockUndo := ∅
  scriptRegistry := ∅
  btcBlockHeight := none
  rollbackInProgress := none
  rollbackTargetHeight := none
  rollbackNextHeight := none
  rollbackSupportedFromHeight := none
  undoRetainedFromHeight := none

/-- The store, the two caches, and what the next writes will report; when the list of
reports is exhausted every further write succeeds. A cache may hold any entries. -/
structure HistoryState where
  db : BalanceHistoryDB
  utxoCache : OutPoint → Option UTXOValue
  balanceCache : USDBScriptHash → Option BalanceHistoryData
  faults : List IoResult

/-- A process that has just opened a store. -/
def HistoryState.opened (db : BalanceHistoryDB) : HistoryState where
  db
  utxoCache := fun _ => none
  balanceCache := fun _ => none
  faults := []

abbrev HistoryM := EStateM BalanceHistoryError HistoryState

/-- One durable write: a single key or an atomic batch. -/
def write (f : BalanceHistoryDB → BalanceHistoryDB) : HistoryM Unit := fun s =>
  match s.faults with
  | [] => .ok () { s with db := f s.db }
  | .ok :: rest => .ok () { s with db := f s.db, faults := rest }
  | .err :: rest => .error .io { s with faults := rest }
  | .crash :: rest => .error .panic { s with faults := rest }

def liftExcept {α : Type} (x : Except BalanceHistoryError α) : HistoryM α :=
  match x with
  | .ok a => pure a
  | .error e => throw e

def readDb {α : Type} (f : BalanceHistoryDB → α) : HistoryM α := return f (← get).db

/-- Inputs persisted as one atomic batch. -/
structure BlockStateUpdateBatch where
  newUtxos : List (OutPoint × UTXOValue)
  removeUtxos : List OutPoint
  entriesList : List BalanceHistoryEntry
  blockHeight : Nat
  blockCommits : List BlockCommitEntry
  scriptRegistryEntries : List ScriptRegistryEntry
  undoBundles : List BlockUndoBundle

namespace BalanceHistoryDB

section Reads

variable (db : BalanceHistoryDB)

def getBtcBlockHeight : Nat := db.btcBlockHeight.getD 0

def getBlockCommit (blockHeight : Nat) : Option BlockCommitEntry :=
  db.blockCommits[blockHeight]?.map (fun value => {
    blockHeight
    btcBlockHash := value.btcBlockHash
    balanceDeltaRoot := value.balanceDeltaRoot
    blockCommit := value.blockCommit })

def getUtxo (outpoint : OutPoint) : Option UTXOValue := db.utxos[outpoint]?

/-- The row a reverse iterator yields first, when it is of the script hash asked for. -/
def getBalanceAtBlockHeight (scriptHash : USDBScriptHash) (targetHeight : Nat) :
    BalanceHistoryData :=
  match db.balanceHistory.seekForPrev ⟨scriptHash, targetHeight⟩ with
  | some (key, value) =>
    if key.scriptHash = scriptHash then
      { blockHeight := key.blockHeight, delta := value.delta, balance := value.balance }
    else { blockHeight := 0, delta := 0, balance := 0 }
  | none => { blockHeight := 0, delta := 0, balance := 0 }

/-- `get_latest_balance` starts its iterator at the greatest `u32`. -/
def getLatestBalance (scriptHash : USDBScriptHash) : BalanceHistoryData :=
  db.getBalanceAtBlockHeight scriptHash (2 ^ 32 - 1)

def getBlockUndoBundle (blockHeight : Nat) : Option BlockUndoBundle := db.blockUndo[blockHeight]?

def isRollbackInProgress : Bool := db.rollbackInProgress = some 1

end Reads

/-- Set a marker that has no value yet. -/
def recordOnce (marker : Option Nat) (height : Nat) : Option Nat := some (marker.getD height)

/-- `update_block_state_batch_async`: puts of created outputs, then deletes of spent
ones, balance rows, commits, the height, the scripts seen, and the undo bundles. The two
undo boundaries are recorded with the first bundles ever written. -/
def updateBlockState (db : BalanceHistoryDB) (update : BlockStateUpdateBatch) :
    BalanceHistoryDB :=
  let firstUndoHeight := (update.undoBundles.map (·.blockHeight)).min?
  { db with
    utxos := Table.eraseAll (db.utxos.insertMany update.newUtxos) update.removeUtxos
    balanceHistory := db.balanceHistory.insertMany (update.entriesList.map (fun entry =>
      (⟨entry.scriptHash, entry.blockHeight⟩, ⟨entry.delta, entry.balance⟩)))
    blockCommits := db.blockCommits.insertMany (update.blockCommits.map (fun entry =>
      (entry.blockHeight, ⟨entry.btcBlockHash, entry.balanceDeltaRoot, entry.blockCommit⟩)))
    btcBlockHeight := some update.blockHeight
    scriptRegistry := db.scriptRegistry.insertMany (update.scriptRegistryEntries.map (fun entry =>
      (entry.scriptHash, entry.scriptPubkey)))
    blockUndo := db.blockUndo.insertMany (update.undoBundles.map (fun bundle =>
      (bundle.blockHeight, bundle)))
    rollbackSupportedFromHeight := match firstUndoHeight with
      | some height => recordOnce db.rollbackSupportedFromHeight height
      | none => db.rollbackSupportedFromHeight
    undoRetainedFromHeight := match firstUndoHeight with
      | some height => recordOnce db.undoRetainedFromHeight height
      | none => db.undoRetainedFromHeight }

/-- The batch of `rollback_one_block` for the bundle of its height. The scripts a block has
shown stay known. -/
def revertBlock (db : BalanceHistoryDB) (blockHeight : Nat) (bundle : BlockUndoBundle) :
    BalanceHistoryDB :=
  { db with
    utxos := (db.utxos.eraseAll (bundle.createdUtxos.map (·.outpoint))).insertMany
      (bundle.spentUtxos.map (fun spent => (spent.outpoint, ⟨spent.value, spent.scriptHash⟩)))
    balanceHistory := db.balanceHistory.eraseAll
      (bundle.touchedScriptHashes.map (fun scriptHash => ⟨scriptHash, blockHeight⟩))
    blockCommits := db.blockCommits.erase blockHeight
    blockUndo := db.blockUndo.erase blockHeight
    btcBlockHeight := some (blockHeight - 1) }

/-- The first height of a range that has no undo bundle. -/
def firstMissingUndo (db : BalanceHistoryDB) (first last : Nat) : Option Nat :=
  (List.range' first (last + 1 - first)).find? (fun height => (db.getBlockUndoBundle height).isNone)

section UndoChecks

variable (db : BalanceHistoryDB) (targetHeight currentHeight : Nat)

def ensureRollbackSupported : Except BalanceHistoryError Unit :=
  match db.rollbackSupportedFromHeight with
  | some supportedFromHeight =>
    if targetHeight + 1 < supportedFromHeight then
      .error (.rollbackNotSupported currentHeight targetHeight (targetHeight + 1)
        supportedFromHeight)
    else .ok ()
  | none => .ok ()

def ensureUndoRetained : Except BalanceHistoryError Unit :=
  match db.undoRetainedFromHeight with
  | some retainedFromHeight =>
    if targetHeight + 1 < retainedFromHeight then
      .error (.undoNotRetained currentHeight targetHeight (targetHeight + 1) retainedFromHeight)
    else .ok ()
  | none => .error (.noUndoRetentionBoundary currentHeight targetHeight)

def ensureUndoBundles : Except BalanceHistoryError Unit :=
  match db.firstMissingUndo (targetHeight + 1) currentHeight with
  | some height => .error (.requiredUndoBundleMissing currentHeight targetHeight height)
  | none => .ok ()

/-- `ensure_rollback_undo_available`, one check after the other. -/
def ensureRollbackUndoAvailable : Except BalanceHistoryError Unit := do
  if targetHeight < currentHeight then
    db.ensureRollbackSupported targetHeight currentHeight
    db.ensureUndoRetained targetHeight currentHeight
    db.ensureUndoBundles targetHeight currentHeight

end UndoChecks

end BalanceHistoryDB

section Operations

open BalanceHistoryDB

def updateBlockStateBatch (update : BlockStateUpdateBatch) : HistoryM Unit :=
  write (fun db => db.updateBlockState update)

def rollbackOneBlock (blockHeight : Nat) : HistoryM Unit := do
  let currentHeight ← readDb getBtcBlockHeight
  if currentHeight ≠ blockHeight then
    throw (.rollbackNotLatest currentHeight blockHeight)
  match ← readDb (getBlockUndoBundle · blockHeight) with
  | none => throw (.missingUndoBundle blockHeight)
  | some bundle => write (fun db => db.revertBlock blockHeight bundle)

/-- The loop that both `rollback_to_block_height` and `resume_rollback_if_needed` run,
with the number of blocks still above the target. -/
def rollbackBlocks (targetHeight : Nat) : Nat → HistoryM Unit
  | 0 => pure ()
  | blocks + 1 => do
    rollbackOneBlock (targetHeight + blocks + 1)
    write (fun db => { db with rollbackNextHeight := some (targetHeight + blocks) })
    rollbackBlocks targetHeight blocks

def clearRollbackState : HistoryM Unit := do
  write (fun db => { db with rollbackInProgress := none })
  write (fun db => { db with rollbackTargetHeight := none })
  write (fun db => { db with rollbackNextHeight := none })

def rollbackToBlockHeight (targetHeight : Nat) : HistoryM Unit := do
  let currentHeight ← readDb getBtcBlockHeight
  if targetHeight > currentHeight then
    throw (.invalidRollbackTarget targetHeight currentHeight)
  else if targetHeight = currentHeight then
    return ()
  else
    liftExcept ((← readDb id).ensureRollbackUndoAvailable targetHeight currentHeight)
    write (fun db => { db with rollbackInProgress := some 1 })
    write (fun db => { db with rollbackTargetHeight := some targetHeight })
    write (fun db => { db with rollbackNextHeight := some currentHeight })
    rollbackBlocks targetHeight (currentHeight - targetHeight)
    clearRollbackState

def resumeRollbackIfNeeded : HistoryM Bool := do
  let db ← readDb id
  if db.rollbackInProgress ≠ some 1 then
    return false
  match db.rollbackTargetHeight, db.rollbackNextHeight with
  | none, _ => throw .missingRollbackTargetHeight
  | some _, none => throw .missingRollbackNextHeight
  | some targetHeight, some nextHeight =>
    if nextHeight ≠ db.getBtcBlockHeight then
      throw (.rollbackResumeMismatch nextHeight db.getBtcBlockHeight)
    else if targetHeight > nextHeight then
      throw (.invalidRollbackResume targetHeight nextHeight)
    else
      liftExcept (db.ensureRollbackUndoAvailable targetHeight nextHeight)
      rollbackBlocks targetHeight (nextHeight - targetHeight)
      clearRollbackState
      return true

def pruneUndoBeforeHeight (minRetainedHeight : Nat) : HistoryM Nat := do
  let db ← readDb id
  if db.rollbackInProgress = some 1 then
    return 0
  match db.rollbackSupportedFromHeight with
  | none => return 0
  | some rollbackSupportedFromHeight =>
    let effectiveMinRetainedHeight := max minRetainedHeight rollbackSupportedFromHeight
    if db.undoRetainedFromHeight.any (· ≥ effectiveMinRetainedHeight) then
      return 0
    else
      let heightsToPrune := (db.blockUndo.toList.map (·.1)).takeWhile
        (· < effectiveMinRetainedHeight)
      write (fun db => { db with
        blockUndo := db.blockUndo.eraseAll heightsToPrune
        undoRetainedFromHeight := some effectiveMinRetainedHeight })
      return heightsToPrune.length

end Operations

end Usdb.Balances
