import Usdb.Btc.Tx

namespace Usdb

open Framework

structure InscriptionCreateInfo where
  satpoint : SatPoint
  value : Nat
  address : Option USDBScriptHash
  commitTxid : Txid
  commitOutpoint : OutPoint
deriving DecidableEq, Repr

structure TransferTrackSeed where
  inscriptionId : InscriptionId
  owner : USDBScriptHash
  satpoint : SatPoint
deriving DecidableEq, Repr

/-- A tracked inscription that moved in a block. Without a receiver it was burned
as fee. -/
structure InscriptionTransferItem where
  inscriptionId : InscriptionId
  blockHeight : Nat
  prevSatpoint : SatPoint
  satpoint : SatPoint
  fromAddress : USDBScriptHash
  toAddress : Option USDBScriptHash
deriving DecidableEq, Repr

namespace MultiMap

def new : MultiMap := fun _ => []

/-- An entry of the same inscription under the key is replaced. -/
def insert (m : MultiMap) (key : OutPoint) (value : ValidMinerPassInfo) : MultiMap :=
  fun k => if k = key then upsert (·.inscriptionId) value (m k) else m k

def deleteValue (m : MultiMap) (key : OutPoint) (id : InscriptionId) : MultiMap :=
  fun k => if k = key then (m k).filter (fun item => item.inscriptionId ≠ id) else m k

def insertAll (m : MultiMap) (passes : List ValidMinerPassInfo) : MultiMap :=
  passes.foldl (fun m pass => m.insert pass.satpoint.outpoint pass) m

end MultiMap

namespace InscriptionTransferTracker

def trackerPageSize : Nat := 1024

/-- The page loop of `load_all_passes`. Every page but the last is full, so as many
rounds as there are rows are enough. -/
def loadAllPasses (pageIndex : Nat) : Nat → IndexerM Unit
  | 0 => pure ()
  | rounds + 1 => do
    let passes ← readPass (·.getAllValidPassByPage pageIndex trackerPageSize)
    if passes = [] then return
    modify (fun s => { s with inscriptions := s.inscriptions.insertAll passes })
    if passes.length < trackerPageSize then return
    loadAllPasses (pageIndex + 1) rounds

def reloadFromStorage : IndexerM Unit := do
  modify (fun s => { s with inscriptions := MultiMap.new, stagedBlocks := [] })
  loadAllPasses 0 ((← get).passStorage.minerPasses.length + 1)

/-- The inscription is made on the first sat of the reveal input that carries its
envelope. -/
def calcCreateSatpoint (btc : BtcClient) (id : InscriptionId) :
    IndexerM InscriptionCreateInfo := do
  io
  match btc.getTransaction id.txid with
  | none => throw (.transactionNotFound id.txid)
  | some tx =>
    match tx.envelopes[id.index]? with
    | none => throw (.invalidInscriptionIndex id tx.envelopes.length)
    | some envelope =>
      match tx.input[envelope.input]? with
      | none => throw (.invalidEnvelopeInput id envelope.input tx.input.length)
      | some commitOutpoint =>
        match ← TxItem.calcOutputSatpoint btc tx { outpoint := commitOutpoint, offset := 0 } with
        | none => throw (.noSatpointFound id)
        | some ret =>
          return { satpoint := ret.satpoint, value := ret.value, address := ret.address
                   commitTxid := commitOutpoint.txid, commitOutpoint }

/-- The working copy after an entry moved: with a receiver it is tracked at its new
place, spent as fee it is dropped. -/
def trackMove (working : MultiMap) (item : ValidMinerPassInfo) (ret : SatPointResult) : MultiMap :=
  let removed := working.deleteValue item.satpoint.outpoint item.inscriptionId
  match ret.address with
  | some newOwner => removed.insert ret.satpoint.outpoint
      { inscriptionId := item.inscriptionId, owner := newOwner, satpoint := ret.satpoint }
  | none => removed

def transferItem (blockHeight : Nat) (item : ValidMinerPassInfo) (ret : SatPointResult) :
    InscriptionTransferItem where
  inscriptionId := item.inscriptionId
  blockHeight := blockHeight
  prevSatpoint := item.satpoint
  satpoint := ret.satpoint
  fromAddress := item.owner
  toAddress := ret.address

/-- The loop over the entries found under one spent outpoint. -/
def processEntries (btc : BtcClient) (blockHeight : Nat) (tx : Transaction) (working : MultiMap)
    (items : List InscriptionTransferItem) :
    List ValidMinerPassInfo → IndexerM (MultiMap × List InscriptionTransferItem)
  | [] => pure (working, items)
  | entry :: rest => do
    match ← TxItem.calcOutputSatpoint btc tx entry.satpoint with
    | none => throw (.transferSatpointFailed entry.inscriptionId tx.txid)
    | some ret =>
      processEntries btc blockHeight tx (trackMove working entry ret)
        (items ++ [transferItem blockHeight entry ret]) rest

def processInputs (btc : BtcClient) (blockHeight : Nat) (tx : Transaction) (working : MultiMap)
    (items : List InscriptionTransferItem) :
    List OutPoint → IndexerM (MultiMap × List InscriptionTransferItem)
  | [] => pure (working, items)
  | vin :: rest => do
    let (working, items) ← processEntries btc blockHeight tx working items (working vin)
    processInputs btc blockHeight tx working items rest

def processTxs (btc : BtcClient) (blockHeight : Nat) (working : MultiMap)
    (items : List InscriptionTransferItem) :
    List Transaction → IndexerM (MultiMap × List InscriptionTransferItem)
  | [] => pure (working, items)
  | tx :: rest => do
    let (working, items) ← processInputs btc blockHeight tx working items tx.input
    processTxs btc blockHeight working items rest

def seedInscriptions (m : MultiMap) (seeds : List TransferTrackSeed) : MultiMap :=
  m.insertAll (seeds.map (fun seed =>
    { inscriptionId := seed.inscriptionId, owner := seed.owner, satpoint := seed.satpoint }))

/-- The moves of tracked inscriptions in a block. The tracker after the block is
only staged. -/
def processBlockWithHint (btc : BtcClient) (blockHeight : Nat) (block : Block)
    (extraTrackedInscriptions : List TransferTrackSeed) :
    IndexerM (List InscriptionTransferItem) := do
  let s ← get
  if s.stagedBlocks ≠ [] then
    throw (.stagedStateExists blockHeight s.stagedBlocks.length)
  let (working, items) ← processTxs btc blockHeight
    (seedInscriptions s.inscriptions extraTrackedInscriptions) [] block.txdata
  let staged := (← get).stagedBlocks
  modify (fun s => { s with
    stagedBlocks := staged.filter (fun b => b.1 ≠ blockHeight) ++ [(blockHeight, working)] })
  if (staged.find? (fun b => b.1 = blockHeight)).isSome then
    throw (.stagedStateOverwritten blockHeight)
  return items

def removeStaged (blockHeight : Nat) (missing : IndexerError) : IndexerM MultiMap := do
  match (← get).stagedBlocks.find? (fun b => b.1 = blockHeight) with
  | none => throw missing
  | some staged =>
    modify (fun s => { s with
      stagedBlocks := s.stagedBlocks.filter (fun b => b.1 ≠ blockHeight) })
    return staged.2

def commitStagedBlock (blockHeight : Nat) : IndexerM Unit := do
  let staged ← removeStaged blockHeight (.noStagedStateForCommit blockHeight)
  modify (fun s => { s with inscriptions := staged })

def rollbackStagedBlock (blockHeight : Nat) : IndexerM Unit :=
  discard (removeStaged blockHeight (.noStagedStateForRollback blockHeight))

end InscriptionTransferTracker

end Usdb
