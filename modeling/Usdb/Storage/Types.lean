import Usdb.Btc.Types

namespace Usdb

inductive MintValidationErrorCode
  | InvalidSchema
  | InvalidEthMain
  | InvalidEthCollab
  | InvalidPrevId
  | AmbiguousRevealInput
deriving DecidableEq, Repr

structure MinerPassInfo where
  inscriptionId : InscriptionId
  inscriptionNumber : Int
  mintTxid : Txid
  mintBlockHeight : Nat
  mintOwner : USDBScriptHash
  satpoint : SatPoint
  ethMain : String
  ethCollab : Option String
  prev : List InscriptionId
  invalidCode : Option MintValidationErrorCode
  invalidReason : Option String
  owner : USDBScriptHash
  state : MinerPassState
deriving DecidableEq, Repr

structure ValidMinerPassInfo where
  inscriptionId : InscriptionId
  owner : USDBScriptHash
  satpoint : SatPoint
deriving DecidableEq, Repr

structure ActiveMinerPassInfo where
  inscriptionId : InscriptionId
  owner : USDBScriptHash
deriving DecidableEq, Repr

inductive PassHistoryEvent
  | mint
  | invalidMint
  | stateUpdate
  | ownerTransfer
  | satpointUpdate
deriving DecidableEq, Repr

/-- A row of `miner_pass_state_history`. The id is assigned by the table's
autoincrement counter. -/
structure PassHistoryRow where
  id : Nat
  inscriptionId : InscriptionId
  blockHeight : Nat
  eventType : PassHistoryEvent
  prevState : Option MinerPassState
  newState : MinerPassState
  prevOwner : Option USDBScriptHash
  newOwner : USDBScriptHash
  prevSatpoint : Option SatPoint
  newSatpoint : SatPoint
deriving DecidableEq, Repr

structure ActiveBalanceSnapshot where
  blockHeight : Nat
  totalBalance : Nat
  activeAddressCount : Nat
deriving DecidableEq, Repr

/-- The upstream state served by balance-history at its stable height. The hash
and the commit may be missing from the answer. -/
structure BalanceHistorySnapshotInfo where
  stableHeight : Nat
  stableBlockHash : Option String
  latestBlockCommit : Option String
  stableLag : Nat
  commitProtocolVersion : String
  commitHashAlgo : String
deriving DecidableEq, Repr

structure BalanceHistorySnapshotAnchor where
  stableHeight : Nat
  stableBlockHash : String
  latestBlockCommit : String
  stableLag : Nat
  commitProtocolVersion : String
  commitHashAlgo : String
deriving DecidableEq, Repr

structure BalanceHistoryBlockCommitInfo where
  blockHeight : Nat
  blockCommit : String
deriving DecidableEq, Repr

structure PassBlockCommitEntry where
  blockHeight : Nat
  balanceHistoryBlockHeight : Nat
  balanceHistoryBlockCommit : String
  mutationRoot : String
  blockCommit : String
  commitProtocolVersion : String
  commitHashAlgo : String
deriving DecidableEq, Repr

structure PassEnergyRecord where
  inscriptionId : InscriptionId
  blockHeight : Nat
  state : MinerPassState
  activeBlockHeight : Nat
  ownerAddress : USDBScriptHash
  ownerBalance : Nat
  ownerDelta : Int
  energy : Nat
deriving DecidableEq, Repr

end Usdb
