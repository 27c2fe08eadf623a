import Usdb.Index.Energy

namespace Usdb

structure PassMintInscriptionInfo where
  inscriptionId : InscriptionId
  inscriptionNumber : Int
  mintTxid : Txid
  mintBlockHeight : Nat
  mintOwner : USDBScriptHash
  satpoint : SatPoint
  ethMain : String
  ethCollab : Option String
  prev : List InscriptionId
deriving DecidableEq, Repr

structure InvalidPassMintInscriptionInfo where
  inscriptionId : InscriptionId
  inscriptionNumber : Int
  mintTxid : Txid
  mintBlockHeight : Nat
  mintOwner : USDBScriptHash
  satpoint : SatPoint
  errorCode : MintValidationErrorCode
  errorReason : String
deriving DecidableEq, Repr

namespace MinerPassStorage

def getPass (id : InscriptionId) : IndexerM (Option MinerPassInfo) :=
  readPass (·.getPassByInscriptionId id)

def appendHistory (id : InscriptionId) (blockHeight : Nat) (eventType : PassHistoryEvent)
    (prevState : Option MinerPassState) (newState : MinerPassState)
    (prevOwner : Option USDBScriptHash) (newOwner : USDBScriptHash)
    (prevSatpoint : Option SatPoint) (newSatpoint : SatPoint) : IndexerM Unit :=
  writePass (fun ps => .ok (ps.appendPassHistoryEvent id blockHeight eventType prevState newState
    prevOwner newOwner prevSatpoint newSatpoint))

def addNewMintPass (info : MinerPassInfo) : IndexerM Unit := do
  assertThat (info.state = .Active)
  assertThat (info.owner = info.mintOwner)
  assertThat (info.invalidCode.isNone ∧ info.invalidReason.isNone)
  writePass (·.insertPassRecord info)

def addNewMintPassAtHeight (info : MinerPassInfo) (blockHeight : Nat) : IndexerM Unit := do
  addNewMintPass info
  appendHistory info.inscriptionId blockHeight .mint none info.state none info.owner none
    info.satpoint

def addInvalidMintPass (info : MinerPassInfo) : IndexerM Unit := do
  assertThat (info.state = .Invalid)
  assertThat (info.owner = info.mintOwner)
  assertThat (info.invalidCode.isSome ∧ info.invalidReason.isSome)
  writePass (·.insertPassRecord info)

def addInvalidMintPassAtHeight (info : MinerPassInfo) (blockHeight : Nat) : IndexerM Unit := do
  addInvalidMintPass info
  appendHistory info.inscriptionId blockHeight .invalidMint none info.state none info.owner none
    info.satpoint

/-- The shape shared by the three updates at a height: read the row, update it,
append the history event with the row's values before the update. -/
def updateAtHeight (id : InscriptionId) (blockHeight : Nat) (eventType : PassHistoryEvent)
    (update : MinerPassStorage → Except IndexerError MinerPassStorage)
    (after : MinerPassInfo → MinerPassState × USDBScriptHash × SatPoint) : IndexerM Unit := do
  match ← getPass id with
  | none => throw (.passNotFoundBeforeHistoryAppend id eventType)
  | some current =>
    writePass update
    appendHistory id blockHeight eventType (some current.state) (after current).1
      (some current.owner) (after current).2.1 (some current.satpoint) (after current).2.2

def transferOwnerAtHeight (id : InscriptionId) (newOwner : USDBScriptHash)
    (newSatpoint : SatPoint) (blockHeight : Nat) : IndexerM Unit :=
  updateAtHeight id blockHeight .ownerTransfer (·.transferOwner id newOwner newSatpoint)
    (fun current => (current.state, newOwner, newSatpoint))

def updateSatpointAtHeight (id : InscriptionId) (prevSatpoint newSatpoint : SatPoint)
    (blockHeight : Nat) : IndexerM Unit :=
  updateAtHeight id blockHeight .satpointUpdate (·.updateSatpoint id prevSatpoint newSatpoint)
    (fun current => (current.state, current.owner, newSatpoint))

def updateStateAtHeight (id : InscriptionId) (newState prevState : MinerPassState)
    (blockHeight : Nat) : IndexerM Unit :=
  updateAtHeight id blockHeight .stateUpdate (·.updateState id newState prevState)
    (fun current => (newState, current.owner, current.satpoint))

end MinerPassStorage

namespace MinerPassManager

open MinerPassStorage PassEnergyManager

def beginBlockMutationCollection (blockHeight : Nat) : IndexerM Unit := do
  match (← get).currentBlockCollector with
  | some _ => throw (.collectorAlreadyActive blockHeight)
  | none =>
    modify (fun s => { s with
      currentBlockCollector := some (PassBlockMutationCollector.new blockHeight) })

def clearBlockMutationCollection : IndexerM Unit :=
  modify (fun s => { s with currentBlockCollector := none })

def takeBlockMutationCollector (blockHeight : Nat) : IndexerM PassBlockMutationCollector := do
  match (← get).currentBlockCollector with
  | none => throw (.collectorNotActive blockHeight)
  | some collector =>
    clearBlockMutationCollection
    if collector.blockHeight ≠ blockHeight then
      throw (.collectorHeightMismatch blockHeight collector.blockHeight)
    return collector

/-- Without an active collector the mutation is only logged. -/
def pushBlockMutation (mutation : PassBlockMutation) : IndexerM Unit :=
  modify (fun s => { s with
    currentBlockCollector := s.currentBlockCollector.map (·.push mutation) })

def dormantLastPass (provider : BalanceProvider) (mintInfo : PassMintInscriptionInfo) :
    IndexerM Unit := do
  match ← readPass (·.getLastActiveMintPassByOwner mintInfo.mintOwner) with
  | none => pure ()
  | some lastPass =>
    assertThat (lastPass.state = .Active)
    assertThat (lastPass.mintBlockHeight ≤ mintInfo.mintBlockHeight)
    updateStateAtHeight lastPass.inscriptionId .Dormant .Active mintInfo.mintBlockHeight
    pushBlockMutation (.StateTransition lastPass.inscriptionId .Active .Dormant lastPass.owner
      lastPass.satpoint)
    onPassDormant provider lastPass.inscriptionId mintInfo.mintBlockHeight

/-- Consumes a Dormant pass and returns the energy it had. -/
def consumePass (id : InscriptionId) (blockHeight : Nat) : IndexerM Nat := do
  match ← getPass id with
  | none => throw (.passNotFoundForConsuming id blockHeight)
  | some pass =>
    assertThat (pass.state = .Dormant)
    updateStateAtHeight id .Consumed pass.state blockHeight
    pushBlockMutation (.StateTransition id pass.state .Consumed pass.owner pass.satpoint)
    match ← getPassEnergy id blockHeight with
    | none => throw (.energyNotFoundForConsuming id blockHeight)
    | some energy =>
      assertThat (energy.state = .Dormant)
      onPassConsumed id pass.owner blockHeight
      return energy.energy

/-- The loop over the `prev` list of a mint, with the energy inherited so far. -/
def inheritPrev (mintInfo : PassMintInscriptionInfo) (inheritedEnergy : Nat) :
    List InscriptionId → IndexerM Nat
  | [] => pure inheritedEnergy
  | prevId :: rest => do
    match ← getPass prevId with
    | none => inheritPrev mintInfo inheritedEnergy rest
    | some prevPass =>
      if prevPass.owner ≠ mintInfo.mintOwner then inheritPrev mintInfo inheritedEnergy rest
      else do
        assertThat (prevPass.state ≠ .Active)
        if prevPass.state ≠ .Dormant then inheritPrev mintInfo inheritedEnergy rest
        else do
          let energy ← consumePass prevId mintInfo.mintBlockHeight
          inheritPrev mintInfo (satAdd inheritedEnergy energy) rest

def newMintPassInfo (mintInfo : PassMintInscriptionInfo) : MinerPassInfo where
  inscriptionId := mintInfo.inscriptionId
  inscriptionNumber := mintInfo.inscriptionNumber
  mintTxid := mintInfo.mintTxid
  mintBlockHeight := mintInfo.mintBlockHeight
  mintOwner := mintInfo.mintOwner
  satpoint := mintInfo.satpoint
  ethMain := mintInfo.ethMain
  ethCollab := mintInfo.ethCollab
  prev := mintInfo.prev
  invalidCode := none
  invalidReason := none
  owner := mintInfo.mintOwner
  state := .Active

def onMintPass (provider : BalanceProvider) (mintInfo : PassMintInscriptionInfo) :
    IndexerM Unit := do
  dormantLastPass provider mintInfo
  addNewMintPassAtHeight (newMintPassInfo mintInfo) mintInfo.mintBlockHeight
  pushBlockMutation (.Mint mintInfo.inscriptionId mintInfo.inscriptionNumber mintInfo.mintOwner
    mintInfo.satpoint mintInfo.ethMain mintInfo.ethCollab mintInfo.prev)
  let inheritedEnergy ← inheritPrev mintInfo 0 mintInfo.prev
  onNewPass provider mintInfo.inscriptionId mintInfo.mintOwner mintInfo.mintBlockHeight
    inheritedEnergy

def invalidMintPassInfo (invalidInfo : InvalidPassMintInscriptionInfo) : MinerPassInfo where
  inscriptionId := invalidInfo.inscriptionId
  inscriptionNumber := invalidInfo.inscriptionNumber
  mintTxid := invalidInfo.mintTxid
  mintBlockHeight := invalidInfo.mintBlockHeight
  mintOwner := invalidInfo.mintOwner
  satpoint := invalidInfo.satpoint
  ethMain := ""
  ethCollab := none
  prev := []
  invalidCode := some invalidInfo.errorCode
  invalidReason := some invalidInfo.errorReason
  owner := invalidInfo.mintOwner
  state := .Invalid

def onInvalidMintPass (invalidInfo : InvalidPassMintInscriptionInfo) : IndexerM Unit := do
  addInvalidMintPassAtHeight (invalidMintPassInfo invalidInfo) invalidInfo.mintBlockHeight
  pushBlockMutation (.InvalidMint invalidInfo.inscriptionId invalidInfo.inscriptionNumber
    invalidInfo.mintOwner invalidInfo.satpoint invalidInfo.errorCode invalidInfo.errorReason)

/-- The branch of a transfer to another owner: an Active pass is frozen first. -/
def moveToNewOwner (provider : BalanceProvider) (id : InscriptionId) (pass : MinerPassInfo)
    (newOwner : USDBScriptHash) (satpoint : SatPoint) (blockHeight : Nat) : IndexerM Unit := do
  if pass.state = .Active then
    onPassDormant provider id blockHeight
    updateStateAtHeight id .Dormant .Active blockHeight
    pushBlockMutation (.StateTransition id .Active .Dormant pass.owner pass.satpoint)
  transferOwnerAtHeight id newOwner satpoint blockHeight
  pushBlockMutation (.OwnerTransfer id (if pass.state = .Active then .Dormant else pass.state)
    pass.owner newOwner pass.satpoint satpoint)

def onPassTransfer (provider : BalanceProvider) (id : InscriptionId) (newOwner : USDBScriptHash)
    (satpoint : SatPoint) (blockHeight : Nat) : IndexerM Unit := do
  match ← getPass id with
  | none => throw (.passNotFoundForTransfer id blockHeight)
  | some pass =>
    if pass.state = .Active then
      discard (updatePassEnergy provider id blockHeight)
    if pass.owner = newOwner then
      updateSatpointAtHeight id pass.satpoint satpoint blockHeight
      pushBlockMutation (.SatpointUpdate id pass.state pass.owner pass.satpoint satpoint)
    else moveToNewOwner provider id pass newOwner satpoint blockHeight

def onPassBurned (provider : BalanceProvider) (id : InscriptionId) (blockHeight : Nat) :
    IndexerM Unit := do
  match ← getPass id with
  | none => throw (.passNotFoundForBurning id blockHeight)
  | some pass =>
    if pass.state = .Active then
      discard (updatePassEnergy provider id blockHeight)
    updateStateAtHeight id .Burned pass.state blockHeight
    pushBlockMutation (.StateTransition id pass.state .Burned pass.owner pass.satpoint)

end MinerPassManager

end Usdb
