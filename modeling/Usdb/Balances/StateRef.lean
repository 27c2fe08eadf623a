import Usdb.Balances.Db
import Usdb.Service.StateRef

namespace Usdb.Balances

structure HistoricalSnapshotStateRef where
  blockHeight : Nat
  stableBlockHash : String
  latestBlockCommit : String
  consensusIdentity : ConsensusSnapshotIdentity
  snapshotId : String
  snapshotIdHashAlgo : String
  snapshotIdVersion : String
  commitProtocolVersion : String
  commitHashAlgo : String
deriving DecidableEq, Repr

def balanceHistoryStableLag : UInt32 := 0

def commitProtocolVersion : String := "1.0.0"

def commitHashAlgo : String := "sha256"

def consensusSnapshotIdHashAlgo : String := "sha256"

/-- A block hash is shown with its last byte first. -/
def formatBlockHash (hash : BlockHash) : String := encodeHex (beBytes 32 hash).reverse

def buildConsensusSnapshotIdentity (network : String) (stableHeight : Nat)
    (stableBlockHash : String) : ConsensusSnapshotIdentity where
  sourceChain := consensusSourceChainBtc
  network
  stableHeight := stableHeight.toUInt32
  stableBlockHash
  stableLag := balanceHistoryStableLag
  balanceHistoryApiVersion := balanceHistoryApiVersion
  balanceHistorySemanticsVersion := balanceHistorySemanticsVersion
  usdbIndexFormulaVersion := usdbIndexFormulaVersion
  usdbIndexProtocolVersion := usdbIndexProtocolVersion

/-- The state ref of a height that the store has a commit for. -/
def buildHistoricalStateRefAtHeight (config : IdentityConfig) (db : BalanceHistoryDB)
    (blockHeight : Nat) : Option HistoricalSnapshotStateRef :=
  (db.getBlockCommit blockHeight).map fun commit =>
    let stableBlockHash := formatBlockHash commit.btcBlockHash
    let consensusIdentity :=
      buildConsensusSnapshotIdentity config.network blockHeight stableBlockHash
    { blockHeight
      stableBlockHash
      latestBlockCommit := encodeHex commit.blockCommit
      consensusIdentity
      snapshotId := buildConsensusSnapshotId config.sha256 consensusIdentity
      snapshotIdHashAlgo := consensusSnapshotIdHashAlgo
      snapshotIdVersion := consensusSnapshotIdVersion
      commitProtocolVersion
      commitHashAlgo }

section StateRef

variable {config : IdentityConfig} {db db' : BalanceHistoryDB} {blockHeight : Nat}

theorem buildHistoricalStateRefAtHeight_congr (config : IdentityConfig)
    (h : db.getBlockCommit blockHeight = db'.getBlockCommit blockHeight) :
    buildHistoricalStateRefAtHeight config db blockHeight =
      buildHistoricalStateRefAtHeight config db' blockHeight := by
  unfold buildHistoricalStateRefAtHeight
  rw [h]

theorem buildHistoricalStateRefAtHeight_isSome :
    (buildHistoricalStateRefAtHeight config db blockHeight).isSome ↔
      (db.getBlockCommit blockHeight).isSome := by
  unfold buildHistoricalStateRefAtHeight
  rw [Option.isSome_map]

end StateRef

end Usdb.Balances
