import Usdb.Balances.Types

namespace Usdb.Balances

/-- The SHA-256 digest of a byte string. -/
abbrev Sha256 := List UInt8 → List UInt8

/-- `EMPTY_COMMIT_HASH`: what stands for the commit before the first block. -/
def emptyCommitHash : List UInt8 := List.replicate 32 0

/-- The lowest bytes of a number, the highest of them first. -/
def beBytes : Nat → Nat → List UInt8
  | 0, _ => []
  | width + 1, n => beBytes width (n / 256) ++ [UInt8.ofNat n]

/-- The bytes of a byte-string literal. -/
def literalBytes (text : String) : List UInt8 := text.toUTF8.toList

/-- The canonical result of one block. -/
structure BlockBalanceDelta where
  blockHeight : Nat
  blockHash : BlockHash
  entries : List BalanceHistoryEntry
deriving DecidableEq, Repr

/-- The bytes of one entry: script hash, height, delta in two's complement, balance. -/
def entryBytes (entry : BalanceHistoryEntry) : List UInt8 :=
  beBytes 32 entry.scriptHash ++ beBytes 4 entry.blockHeight ++
    beBytes 8 (entry.delta % 2 ^ 64).toNat ++ beBytes 8 entry.balance

def balanceDeltaBytes (block : BlockBalanceDelta) : List UInt8 :=
  literalBytes "balance-history:block-delta-root:v1" ++ beBytes 4 block.blockHeight ++
    beBytes 32 block.blockHash ++ block.entries.flatMap entryBytes

def computeBalanceDeltaRoot (sha256 : Sha256) (block : BlockBalanceDelta) : List UInt8 :=
  sha256 (balanceDeltaBytes block)

def blockCommitBytes (blockHeight : Nat) (blockHash : BlockHash)
    (balanceDeltaRoot prevBlockCommit : List UInt8) : List UInt8 :=
  literalBytes "balance-history:block-commit:v1" ++ beBytes 4 blockHeight ++
    beBytes 32 blockHash ++ balanceDeltaRoot ++ prevBlockCommit

def computeBlockCommit (sha256 : Sha256) (blockHeight : Nat) (blockHash : BlockHash)
    (balanceDeltaRoot prevBlockCommit : List UInt8) : List UInt8 :=
  sha256 (blockCommitBytes blockHeight blockHash balanceDeltaRoot prevBlockCommit)

/-- The commit entry of one block over the commit before it. -/
def buildBlockCommit (sha256 : Sha256) (block : BlockBalanceDelta)
    (prevBlockCommit : List UInt8) : BlockCommitEntry where
  blockHeight := block.blockHeight
  btcBlockHash := block.blockHash
  balanceDeltaRoot := computeBalanceDeltaRoot sha256 block
  blockCommit := computeBlockCommit sha256 block.blockHeight block.blockHash
    (computeBalanceDeltaRoot sha256 block) prevBlockCommit

def buildBlockCommits (sha256 : Sha256) :
    List BlockBalanceDelta → List UInt8 → List BlockCommitEntry
  | [], _ => []
  | block :: blocks, prevBlockCommit =>
    let commit := buildBlockCommit sha256 block prevBlockCommit
    commit :: buildBlockCommits sha256 blocks commit.blockCommit

def resolvePreviousCommit (previousHeight : Option Nat)
    (previousCommit : Option BlockCommitEntry) : Except BalanceHistoryError (List UInt8) :=
  match previousHeight with
  | none | some 0 => .ok ((previousCommit.map (·.blockCommit)).getD emptyCommitHash)
  | some (height + 1) =>
    match previousCommit with
    | some commit => .ok commit.blockCommit
    | none => .error (.missingPreviousCommit (height + 1))

end Usdb.Balances
