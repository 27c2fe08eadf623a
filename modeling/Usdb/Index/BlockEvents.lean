import Usdb.Index.Pass
import Usdb.Index.Transfer
import Mathlib.Data.List.Lex

namespace Usdb

structure USDBMint where
  ethMain : String
  ethCollab : Option String
  prev : List InscriptionId
deriving DecidableEq, Repr

structure InscriptionNewItem where
  inscriptionId : InscriptionId
  inscriptionNumber : Int
  blockHeight : Nat
  timestamp : Nat
  address : USDBScriptHash
  satpoint : SatPoint
  value : Nat
  content : USDBMint
  commitTxid : Txid
deriving DecidableEq, Repr

inductive BlockProcessEvent
  | Mint (item : InscriptionNewItem)
  | Transfer (item : InscriptionTransferItem)
deriving DecidableEq, Repr

/-- The sort key of an event, compared component by component. The last component
stands for the text of the inscription id, which is only compared when the
inscription indices agree. -/
structure OrderedBlockProcessEvent where
  sortKey : List Nat
  event : BlockProcessEvent
deriving DecidableEq, Repr

def usizeMax : Nat := 2 ^ 64 - 1

/-- A later transaction with the same id replaces an earlier one. -/
def buildBlockTxPositionMap (block : Block) : Txid → Option Nat :=
  block.txdata.zipIdx.foldl
    (fun positions tx txid => if txid = tx.1.txid then some tx.2 else positions txid)
    (fun _ => none)

def buildTransferInputIndexMap (block : Block) : Txid → OutPoint → Option Nat :=
  block.txdata.foldl
    (fun inputs tx txid outpoint =>
      if txid = tx.txid then tx.input.findIdx? (fun v => v = outpoint) else inputs txid outpoint)
    (fun _ _ => none)

namespace BlockEventPlanner

def mintEvent (blockHeight : Nat) (block : Block) (item : InscriptionNewItem) :
    Except IndexerError OrderedBlockProcessEvent :=
  match buildBlockTxPositionMap block item.inscriptionId.txid with
  | none => .error (.mintTxNotInBlock item.inscriptionId blockHeight)
  | some txPosition => .ok
      { sortKey := [txPosition, 1, usizeMax, item.inscriptionId.index, item.inscriptionId.txid]
        event := .Mint item }

def transferEvent (blockHeight : Nat) (block : Block) (item : InscriptionTransferItem) :
    Except IndexerError OrderedBlockProcessEvent :=
  match buildBlockTxPositionMap block item.satpoint.outpoint.txid with
  | none =>
    .error (.transferTxNotInBlock item.inscriptionId item.satpoint.outpoint.txid blockHeight)
  | some txPosition =>
    match buildTransferInputIndexMap block item.satpoint.outpoint.txid
        item.prevSatpoint.outpoint with
    | none =>
      .error (.transferInputNotFound item.inscriptionId item.satpoint.outpoint.txid blockHeight
        item.prevSatpoint.outpoint)
    | some inputIndex => .ok
        { sortKey := [txPosition, 0, inputIndex, item.inscriptionId.index, item.inscriptionId.txid]
          event := .Transfer item }

/-- Mints and transfers of a block in execution order: by transaction, moves before
mints, then by input and inscription. -/
def plan (blockHeight : Nat) (block : Block) (mintItems : List InscriptionNewItem)
    (transferItems : List InscriptionTransferItem) : Except IndexerError (List BlockProcessEvent) :=
  do
  let mints ← mintItems.mapM (mintEvent blockHeight block)
  let transfers ← transferItems.mapM (transferEvent blockHeight block)
  return ((mints ++ transfers).insertionSort (fun a b => a.sortKey ≤ b.sortKey)).map (·.event)

end BlockEventPlanner

namespace BlockEventExecutor

def onNewInscription (provider : BalanceProvider) (item : InscriptionNewItem) : IndexerM Unit :=
  MinerPassManager.onMintPass provider
    { inscriptionId := item.inscriptionId, inscriptionNumber := item.inscriptionNumber
      mintTxid := item.satpoint.outpoint.txid, mintBlockHeight := item.blockHeight
      mintOwner := item.address, satpoint := item.satpoint, ethMain := item.content.ethMain
      ethCollab := item.content.ethCollab, prev := item.content.prev }

def executeEvent (provider : BalanceProvider) : BlockProcessEvent → IndexerM Unit
  | .Mint item => onNewInscription provider item
  | .Transfer item =>
    match item.toAddress with
    | some addr =>
      MinerPassManager.onPassTransfer provider item.inscriptionId addr item.satpoint
        item.blockHeight
    | none => MinerPassManager.onPassBurned provider item.inscriptionId item.blockHeight

def execute (provider : BalanceProvider) : List BlockProcessEvent → IndexerM Unit
  | [] => pure ()
  | event :: rest => do
    executeEvent provider event
    execute provider rest

end BlockEventExecutor

end Usdb
