import Usdb.Error

namespace Usdb

inductive PassBlockMutation
  | Mint (inscriptionId : InscriptionId) (inscriptionNumber : Int) (mintOwner : USDBScriptHash)
      (satpoint : SatPoint) (ethMain : String) (ethCollab : Option String)
      (prev : List InscriptionId)
  | InvalidMint (inscriptionId : InscriptionId) (inscriptionNumber : Int)
      (mintOwner : USDBScriptHash) (satpoint : SatPoint) (errorCode : MintValidationErrorCode)
      (errorReason : String)
  | StateTransition (inscriptionId : InscriptionId) (fromState toState : MinerPassState)
      (owner : USDBScriptHash) (satpoint : SatPoint)
  | OwnerTransfer (inscriptionId : InscriptionId) (state : MinerPassState)
      (fromOwner toOwner : USDBScriptHash) (fromSatpoint toSatpoint : SatPoint)
  | SatpointUpdate (inscriptionId : InscriptionId) (state : MinerPassState)
      (owner : USDBScriptHash) (fromSatpoint toSatpoint : SatPoint)
deriving DecidableEq, Repr

/-- The two libraries the commit is computed with: the SHA-256 digest and the JSON
serialization of a mutation. -/
structure CommitHash where
  sha256 : List UInt8 → List UInt8
  toVec : PassBlockMutation → List UInt8

def passCommitProtocolVersion : String := "1.0.0"

def passCommitHashAlgo : String := "sha256"

/-- `u32::to_be_bytes`. -/
def toBeBytes (n : Nat) : List UInt8 :=
  [n / 2 ^ 24, n / 2 ^ 16, n / 2 ^ 8, n].map UInt8.ofNat

def asBytes (s : String) : List UInt8 := s.toUTF8.toList

def hexDigit (n : Nat) : Char := ("0123456789abcdef".toList.getD n '0')

def encodeHex (bytes : List UInt8) : String :=
  String.ofList (bytes.flatMap (fun b => [hexDigit (b.toNat / 16), hexDigit (b.toNat % 16)]))

structure PassBlockMutationCollector where
  blockHeight : Nat
  mutations : List PassBlockMutation
deriving DecidableEq, Repr

namespace PassBlockMutationCollector

def new (blockHeight : Nat) : PassBlockMutationCollector := { blockHeight, mutations := [] }

def push (c : PassBlockMutationCollector) (mutation : PassBlockMutation) :
    PassBlockMutationCollector :=
  { c with mutations := c.mutations ++ [mutation] }

/-- The byte stream hashed by `mutation_root`: version, height and number of
mutations, then each mutation with its length. -/
def mutationRootBytes (hash : CommitHash) (c : PassBlockMutationCollector) : List UInt8 :=
  asBytes passCommitProtocolVersion ++ asBytes "|" ++ toBeBytes c.blockHeight ++ asBytes "|" ++
    toBeBytes c.mutations.length ++
    c.mutations.flatMap (fun m =>
      asBytes "|" ++ toBeBytes (hash.toVec m).length ++ hash.toVec m)

def mutationRoot (hash : CommitHash) (c : PassBlockMutationCollector) : String :=
  encodeHex (hash.sha256 (c.mutationRootBytes hash))

def buildCommitEntry (hash : CommitHash) (c : PassBlockMutationCollector)
    (upstreamCommit : BalanceHistoryBlockCommitInfo)
    (prevLocalCommit : Option PassBlockCommitEntry) : Except IndexerError PassBlockCommitEntry :=
  if upstreamCommit.blockHeight ≠ c.blockHeight then
    .error (.upstreamCommitHeightMismatch c.blockHeight upstreamCommit.blockHeight)
  else
    let mutationRoot := c.mutationRoot hash
    let previousCommit := match prevLocalCommit with
      | some entry => entry.blockCommit
      | none => "genesis"
    .ok {
      blockHeight := c.blockHeight
      balanceHistoryBlockHeight := upstreamCommit.blockHeight
      balanceHistoryBlockCommit := upstreamCommit.blockCommit
      mutationRoot
      blockCommit := encodeHex (hash.sha256
        (asBytes passCommitProtocolVersion ++ asBytes "|" ++ toBeBytes c.blockHeight ++
          asBytes "|" ++ asBytes previousCommit ++ asBytes "|" ++
          toBeBytes upstreamCommit.blockHeight ++ asBytes "|" ++
          asBytes upstreamCommit.blockCommit ++ asBytes "|" ++ asBytes mutationRoot))
      commitProtocolVersion := passCommitProtocolVersion
      commitHashAlgo := passCommitHashAlgo }

theorem buildCommitEntry_blockHeight (hash : CommitHash) (c : PassBlockMutationCollector)
    (upstreamCommit : BalanceHistoryBlockCommitInfo) (prev : Option PassBlockCommitEntry)
    (entry : PassBlockCommitEntry) (h : c.buildCommitEntry hash upstreamCommit prev = .ok entry) :
    entry.blockHeight = c.blockHeight := by
  unfold buildCommitEntry at h
  split at h
  · cases h
  · cases h
    rfl

/-- The bytes hashed into a block commit, after the text of the previous commit. -/
def blockCommitBytes (hash : CommitHash) (c : PassBlockMutationCollector)
    (upstreamCommit : BalanceHistoryBlockCommitInfo) (previousCommit : String) : List UInt8 :=
  asBytes passCommitProtocolVersion ++ asBytes "|" ++ toBeBytes c.blockHeight ++
    asBytes "|" ++ asBytes previousCommit ++ asBytes "|" ++
    toBeBytes upstreamCommit.blockHeight ++ asBytes "|" ++
    asBytes upstreamCommit.blockCommit ++ asBytes "|" ++ asBytes (c.mutationRoot hash)

/-- The text the first block of a chain has in place of a previous commit. -/
def previousText (prev : Option PassBlockCommitEntry) : String :=
  match prev with
  | some entry => entry.blockCommit
  | none => "genesis"

theorem buildCommitEntry_ok {hash : CommitHash} {c : PassBlockMutationCollector}
    {upstreamCommit : BalanceHistoryBlockCommitInfo} {prev : Option PassBlockCommitEntry}
    {entry : PassBlockCommitEntry} (h : c.buildCommitEntry hash upstreamCommit prev = .ok entry) :
    upstreamCommit.blockHeight = c.blockHeight ∧ entry.mutationRoot = c.mutationRoot hash ∧
      entry.blockCommit = encodeHex (hash.sha256
        (c.blockCommitBytes hash upstreamCommit (previousText prev))) := by
  unfold buildCommitEntry at h
  split at h
  · cases h
  · rename_i hheight
    cases h
    exact ⟨not_not.mp hheight, rfl, rfl⟩

end PassBlockMutationCollector

end Usdb
