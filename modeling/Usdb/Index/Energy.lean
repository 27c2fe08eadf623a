import Usdb.Index.EnergyFormula
import Usdb.Index.State

namespace Usdb

/-- The balance-history service as the energy manager and the balance monitor call
it. Ranges include their start and exclude their end. -/
structure BalanceProvider where
  getBalanceAtHeight : USDBScriptHash → Nat → List AddressBalance
  getBalanceAtRange : USDBScriptHash → Nat → Nat → List AddressBalance
  loadBalances : List USDBScriptHash → Nat → List (USDBScriptHash × AddressBalance)

structure PassEnergyResult where
  energy : Nat
  state : MinerPassState
deriving DecidableEq, Repr

namespace PassEnergyManager

def beginBlockSync (blockHeight : Nat) : IndexerM Unit := do
  match ← readEnergy (·.pendingBlockHeight) with
  | some pending => throw (.pendingEnergyBlock pending blockHeight)
  | none => writeEnergy (fun e => { e with pendingBlockHeight := some blockHeight })

def finalizeBlockSync (blockHeight : Nat) : IndexerM Unit := do
  let pending ← readEnergy (·.pendingBlockHeight)
  if pending ≠ some blockHeight then throw (.energyFinalizeMismatch pending blockHeight)
  writeEnergy (·.finalizeBlockSync blockHeight)

/-- Two writes: a failure between them leaves the cached maximum too high. -/
def clearRecordsFromHeight (fromBlockHeight : Nat) : IndexerM Unit := do
  writeEnergy (·.deleteRecordsFrom fromBlockHeight)
  writeEnergy (·.resetMaxRecordBlockHeight)

def clearPendingBlockHeight : IndexerM Unit :=
  writeEnergy (fun e => { e with pendingBlockHeight := none })

def setSyncedBlockHeight (blockHeight : Nat) : IndexerM Unit :=
  writeEnergy (fun e => { e with syncedBlockHeight := some blockHeight })

/-- The cached maximum, computed by a scan and stored when it is missing. -/
def getMaxRecordBlockHeight : IndexerM (Option Nat) := do
  match ← readEnergy (·.maxRecordBlockHeight) with
  | some height => return some height
  | none =>
    match ← readEnergy (fun e => PassEnergyStorage.scanMaxRecordBlockHeight e.records) with
    | some height =>
      writeEnergy (fun e => { e with maxRecordBlockHeight := some height })
      return some height
    | none => return none

def abortPendingBlockSync (blockHeight : Nat) : IndexerM Unit := do
  let pending ← readEnergy (·.pendingBlockHeight)
  if pending ≠ some blockHeight then throw (.energyAbortMismatch pending blockHeight)
  clearRecordsFromHeight blockHeight
  clearPendingBlockHeight

/-- Step 1 of the reconciliation: undo the block attempt a pending marker names. -/
def recoverPendingBlock : IndexerM Unit := do
  match ← readEnergy (·.pendingBlockHeight) with
  | some pending =>
    clearRecordsFromHeight pending
    clearPendingBlockHeight
  | none => pure ()

/-- Step 2 of the reconciliation: drop records above the pass synced height. -/
def truncateFutureRecords (passSyncedHeight : Nat) : IndexerM Unit := do
  match ← getMaxRecordBlockHeight with
  | some maxHeight =>
    if passSyncedHeight < maxHeight then clearRecordsFromHeight (passSyncedHeight + 1)
  | none => pure ()

/-- Step 3 of the reconciliation: align the synced marker, which must not be behind. -/
def reconcileSyncedMarker (passSyncedHeight : Nat) : IndexerM Unit := do
  match ← readEnergy (·.syncedBlockHeight) with
  | some energySynced =>
    if passSyncedHeight < energySynced then setSyncedBlockHeight passSyncedHeight
    else if energySynced < passSyncedHeight then
      throw (.energyBehindPass energySynced passSyncedHeight)
  | none => setSyncedBlockHeight passSyncedHeight

def reconcileWithPassSyncedHeight (passSyncedHeight : Nat) : IndexerM Unit := do
  recoverPendingBlock
  truncateFutureRecords passSyncedHeight
  reconcileSyncedMarker passSyncedHeight

def rollbackToPassSyncedHeight (passSyncedHeight : Nat) : IndexerM Unit :=
  reconcileWithPassSyncedHeight passSyncedHeight

/-- At most one answer is expected; none counts as an empty balance. -/
def getBalanceAtHeight (provider : BalanceProvider) (address : USDBScriptHash)
    (blockHeight : Nat) : IndexerM AddressBalance := do
  io
  let balances := provider.getBalanceAtHeight address blockHeight
  assertThat (balances.length ≤ 1)
  return balances.getLast?.getD { blockHeight, balance := 0, delta := 0 }

def onNewPass (provider : BalanceProvider) (id : InscriptionId) (ownerAddress : USDBScriptHash)
    (blockHeight inheritedEnergy : Nat) : IndexerM Unit := do
  let balance ← getBalanceAtHeight provider ownerAddress blockHeight
  writeEnergy (·.insertPassEnergyRecord
    { inscriptionId := id, blockHeight, state := .Active, activeBlockHeight := blockHeight
      ownerAddress, ownerBalance := balance.balance, ownerDelta := balance.delta
      energy := inheritedEnergy })
  modify (fun s => { s with log := s.log ++
    [{ inscriptionId := id, blockHeight, ownerAddress, initialBalance := balance.balance
       delta := balance.delta, inheritedEnergy }] })

def projectEnergyRecordNoBalanceChange (record : PassEnergyRecord) (queryBlockHeight : Nat) :
    PassEnergyResult :=
  if queryBlockHeight ≤ record.blockHeight ∨ record.state ≠ .Active then
    { energy := record.energy, state := record.state }
  else
    let growthAtQuery :=
      calcGrowthDelta record.ownerBalance (queryBlockHeight - record.activeBlockHeight)
    let growthAtRecord :=
      calcGrowthDelta record.ownerBalance (record.blockHeight - record.activeBlockHeight)
    { energy := satAdd record.energy (growthAtQuery - growthAtRecord), state := record.state }

/-- What `get_pass_energy` answers from the records of a store. -/
def energyAnswer (e : PassEnergyStorage) (id : InscriptionId) (blockHeight : Nat) :
    Option PassEnergyResult :=
  (e.findLastPassEnergyRecord id blockHeight).map
    (fun r => projectEnergyRecordNoBalanceChange r blockHeight)

def getPassEnergy (id : InscriptionId) (blockHeight : Nat) : IndexerM (Option PassEnergyResult) :=
  readEnergy (fun e => energyAnswer e id blockHeight)

/-- The Active record after a balance row: growth since the last record, then the
penalty of a negative change, which also starts a new growth window. -/
def advanceRecord (id : InscriptionId) (last : PassEnergyRecord) (owner : USDBScriptHash)
    (row : AddressBalance) : PassEnergyRecord :=
  let grown := satAdd last.energy (calcIncrementalGrowth last.ownerBalance last.activeBlockHeight
    last.blockHeight row.blockHeight)
  { inscriptionId := id, blockHeight := row.blockHeight, state := .Active
    activeBlockHeight := if row.delta < 0 then row.blockHeight else last.activeBlockHeight
    ownerAddress := owner, ownerBalance := row.balance, ownerDelta := row.delta
    energy := if row.delta < 0 then grown - calcPenaltyFromDelta row.delta else grown }

/-- The loop of `update_pass_energy` over the balance rows. -/
def applyBalanceRows (id : InscriptionId) (last : PassEnergyRecord) :
    List AddressBalance → IndexerM PassEnergyRecord
  | [] => pure last
  | row :: rows => do
    let next := advanceRecord id last last.ownerAddress row
    writeEnergy (·.insertPassEnergyRecord next)
    applyBalanceRows id next rows

def updatePassEnergy (provider : BalanceProvider) (id : InscriptionId) (blockHeight : Nat) :
    IndexerM PassEnergyResult := do
  match ← readEnergy (·.findLastPassEnergyRecord id blockHeight) with
  | none => throw (.noPreviousEnergyRecord id blockHeight)
  | some last =>
    assertThat (last.blockHeight ≤ blockHeight)
    if last.state ≠ .Active then
      return { energy := last.energy, state := last.state }
    io
    let rows := provider.getBalanceAtRange last.ownerAddress (last.blockHeight + 1)
      (blockHeight + 1)
    let last ← applyBalanceRows id last rows
    if last.blockHeight < blockHeight then
      return { energy := satAdd last.energy (calcIncrementalGrowth last.ownerBalance
                 last.activeBlockHeight last.blockHeight blockHeight)
               state := last.state }
    else
      return { energy := last.energy, state := last.state }

/-- Settlement of one Active owner, with the strict consistency checks that
production builds enable. -/
def applyActiveBalanceChange (id : InscriptionId) (owner : USDBScriptHash)
    (blockHeight ownerBalance : Nat) (ownerDelta : Int) : IndexerM Bool := do
  if ownerDelta = 0 then return false
  match ← readEnergy (·.findLastPassEnergyRecord id blockHeight) with
  | none => throw (.noEnergyRecordForBalanceChange id blockHeight owner)
  | some last =>
    if last.state ≠ .Active then throw (.energyStateMismatch id blockHeight last.state)
    if last.ownerAddress ≠ owner then
      throw (.energyOwnerMismatch id blockHeight last.ownerAddress owner)
    if blockHeight < last.blockHeight then
      throw (.energyRecordAhead id last.blockHeight blockHeight)
    if last.blockHeight = blockHeight then
      if last.ownerBalance ≠ ownerBalance ∨ last.ownerDelta ≠ ownerDelta then
        throw (.balanceChangeConflict id blockHeight)
      return false
    if (0 < ownerDelta ∧ ownerBalance < last.ownerBalance) ∨
        (ownerDelta < 0 ∧ last.ownerBalance < ownerBalance) then
      throw (.settleDirectionMismatch id blockHeight)
    writeEnergy (·.insertPassEnergyRecord
      (advanceRecord id last owner { blockHeight, balance := ownerBalance, delta := ownerDelta }))
    return true

def onPassDormant (provider : BalanceProvider) (id : InscriptionId) (blockHeight : Nat) :
    IndexerM Unit := do
  let finalized ← updatePassEnergy provider id blockHeight
  match ← readEnergy (·.findLastPassEnergyRecord id blockHeight) with
  | none => throw (.noEnergyRecordForDormant id blockHeight)
  | some last =>
    writeEnergy (·.insertPassEnergyRecord
      { inscriptionId := id, blockHeight, state := .Dormant
        activeBlockHeight := last.activeBlockHeight, ownerAddress := last.ownerAddress
        ownerBalance := last.ownerBalance
        ownerDelta := if last.blockHeight = blockHeight then last.ownerDelta else 0
        energy := finalized.energy })
    let stored ← readEnergy (·.getPassEnergyRecord id blockHeight)
    if stored.map (fun r => (r.state, r.energy)) ≠ some (.Dormant, finalized.energy) then
      throw (.dormantSnapshotMismatch id blockHeight)

def onPassConsumed (id : InscriptionId) (ownerAddress : USDBScriptHash) (blockHeight : Nat) :
    IndexerM Unit :=
  writeEnergy (·.insertPassEnergyRecord
    { inscriptionId := id, blockHeight, state := .Consumed, activeBlockHeight := blockHeight
      ownerAddress, ownerBalance := 0, ownerDelta := 0, energy := 0 })

end PassEnergyManager

end Usdb
