import Usdb.Balances.BalanceScan
import Usdb.Balances.SnapshotDb
import Usdb.Balances.StateRef

namespace Usdb.Balances

open Framework BalanceHistoryDB

section Buffers

variable {α : Type}

/-- The buffers of a loop that pushes rows and hands them on when there are enough, and
once more at its end. -/
def buffers (batchSize : Nat) : List α → List α → List (List α)
  | [], buffer => if buffer.isEmpty then [] else [buffer]
  | a :: rest, buffer =>
    if batchSize ≤ (buffer ++ [a]).length then (buffer ++ [a]) :: buffers batchSize rest []
    else buffers batchSize rest (buffer ++ [a])

theorem flatten_buffers (batchSize : Nat) (rows buffer : List α) :
    (buffers batchSize rows buffer).flatten = buffer ++ rows := by
  induction rows generalizing buffer with
  | nil => cases buffer <;> simp [buffers]
  | cons a rows ih =>
    unfold buffers
    split
    · rw [List.flatten_cons, ih]
      simp
    · rw [ih]
      simp

end Buffers

def snapshotBatchSize : Nat := 1024 * 64

namespace BalanceHistoryDB

variable (db : BalanceHistoryDB)

/-- The first byte of a key of the UTXO family is that of its transaction id. -/
def utxoShardOf (outpoint : OutPoint) : UInt8 := UInt8.ofNat (outpoint.txid / 2 ^ 248)

def utxoSeekKey (shardIndex : UInt8) : OutPoint :=
  ⟨(shardIndex.toNat + 1) * 2 ^ 248 - 1, 2 ^ 32 - 1⟩

def utxoShardRows (shardIndex : UInt8) : List (OutPoint × UTXOValue) :=
  (db.utxos.descend (utxoSeekKey shardIndex)).takeWhile
    (fun row => utxoShardOf row.1 = shardIndex)

def utxoEntry (row : OutPoint × UTXOValue) : UTXOEntry := ⟨row.1, row.2.scriptHash, row.2.value⟩

/-- What `generate_utxo_snapshot_sharded` hands to its callback. -/
def generateUtxoSnapshotSharded (shardIndex : UInt8) (batchSize : Nat) : List (List UTXOEntry) :=
  buffers batchSize ((db.utxoShardRows shardIndex).map utxoEntry) []

/-- A key of the script registry is a script hash. -/
def scriptSeekKey (shardIndex : UInt8) : USDBScriptHash :=
  Fin.ofNat (2 ^ 256) ((shardIndex.toNat + 1) * 2 ^ 248 - 1)

def scriptShardRows (shardIndex : UInt8) : List (USDBScriptHash × ScriptBuf) :=
  (db.scriptRegistry.descend (scriptSeekKey shardIndex)).takeWhile
    (fun row => shardOf row.1 = shardIndex)

/-- What `generate_script_registry_snapshot_sharded` hands to its callback. -/
def generateScriptRegistrySnapshotSharded (shardIndex : UInt8) (batchSize : Nat) :
    List (List ScriptRegistryEntry) :=
  buffers batchSize ((db.scriptShardRows shardIndex).map ScriptRegistryEntry.ofRow) []

def blockCommitEntry (row : Nat × BlockCommitValue) : BlockCommitEntry :=
  ⟨row.1, row.2.btcBlockHash, row.2.balanceDeltaRoot, row.2.blockCommit⟩

/-- What `generate_block_commit_snapshot` hands to its callback. -/
def generateBlockCommitSnapshot (targetBlockHeight : Nat) : List (List BlockCommitEntry) :=
  buffers snapshotBatchSize ((db.blockCommits.toList.takeWhile
    (fun row => row.1 ≤ targetBlockHeight)).map blockCommitEntry) []

end BalanceHistoryDB

/-- The order in which the batches of the shards, which run in parallel, reach the file. -/
structure ShardOrder where
  balances : List (List BalanceHistoryEntry × Nat) → List (List BalanceHistoryEntry × Nat)
  balances_perm : ∀ batches, (balances batches).Perm batches
  utxos : List (List UTXOEntry) → List (List UTXOEntry)
  utxos_perm : ∀ batches, (utxos batches).Perm batches
  scripts : List (List ScriptRegistryEntry) → List (List ScriptRegistryEntry)
  scripts_perm : ∀ batches, (scripts batches).Perm batches

def ShardOrder.sequential : ShardOrder where
  balances := id
  balances_perm := fun _ => .refl _
  utxos := id
  utxos_perm := fun _ => .refl _
  scripts := id
  scripts_perm := fun _ => .refl _

section Parallel

variable (order : ShardOrder) (db : BalanceHistoryDB)

def generateBalanceHistorySnapshotParallel (targetBlockHeight : Nat) :
    List (List BalanceHistoryEntry × Nat) :=
  order.balances ((List.range 256).flatMap (fun shardIndex =>
    db.shardBatches targetBlockHeight snapshotBatchSize (UInt8.ofNat shardIndex)))

def generateUtxoSnapshotParallel : List (List UTXOEntry) :=
  order.utxos ((List.range 256).flatMap (fun shardIndex =>
    db.generateUtxoSnapshotSharded (UInt8.ofNat shardIndex) snapshotBatchSize))

def generateScriptRegistrySnapshotParallel : List (List ScriptRegistryEntry) :=
  order.scripts ((List.range 256).flatMap (fun shardIndex =>
    db.generateScriptRegistrySnapshotSharded (UInt8.ofNat shardIndex) snapshotBatchSize))

end Parallel

/-- A signature over a manifest. -/
abbrev Signature := List UInt8

structure SnapshotManifest where
  manifestVersion : String
  fileName : String
  fileSha256 : String
  stateRef : HistoricalSnapshotStateRef
  signatureScheme : Option String
  signingKeyId : Option String
  generatedAt : Option Nat
deriving DecidableEq, Repr

def snapshotManifestVersion : String := "balance-history-snapshot-manifest:v1"

def snapshotSignatureSchemeEd25519 : String := "ed25519"

def SnapshotManifest.build (fileName fileSha256 : String) (stateRef : HistoricalSnapshotStateRef)
    (signingKeyId : Option String) (generatedAt : Nat) : SnapshotManifest where
  manifestVersion := snapshotManifestVersion
  fileName
  fileSha256
  stateRef
  signatureScheme := signingKeyId.map (fun _ => snapshotSignatureSchemeEd25519)
  signingKeyId
  generatedAt := some generatedAt

structure SnapshotSigningKey where
  keyId : String
  sign : SnapshotManifest → Signature

/-- A snapshot file: its name, the digest of its bytes and what is in it. -/
structure SnapshotFile where
  name : String
  sha256 : String
  db : SnapshotDB

/-- What an export depends on besides the store. -/
structure ExportEnv where
  config : IdentityConfig
  order : ShardOrder
  generatedAt : Nat
  fileSha256 : SnapshotDB → String
  signingKey : Option SnapshotSigningKey

/-- What an export leaves: the file, the manifest and the signature beside it. -/
structure SnapshotExport where
  file : SnapshotFile
  manifest : SnapshotManifest
  signature : Option Signature

namespace SnapshotGenerator

/-- A callback of an export: put the rows and count them. -/
def putCounted {α : Type} (put : SnapshotDB → List α → Except SnapshotError SnapshotDB)
    (s : SnapshotDB × Nat) (entries : List α) : Except SnapshotError (SnapshotDB × Nat) := do
  return (← put s.1 entries, s.2 + entries.length)

def onBalanceHistoryEntries (s : SnapshotDB × Nat) (entries : List BalanceHistoryEntry) :
    Except SnapshotError (SnapshotDB × Nat) :=
  putCounted SnapshotDB.putBalanceHistoryEntries s entries

def onUtxoEntries (s : SnapshotDB × Nat) (entries : List UTXOEntry) :
    Except SnapshotError (SnapshotDB × Nat) :=
  putCounted SnapshotDB.putUtxoEntries s entries

def onBlockCommitEntries (s : SnapshotDB × Nat) (entries : List BlockCommitEntry) :
    Except SnapshotError (SnapshotDB × Nat) :=
  putCounted SnapshotDB.putBlockCommitEntries s entries

def onScriptRegistryEntries (s : SnapshotDB × Nat) (entries : List ScriptRegistryEntry) :
    Except SnapshotError (SnapshotDB × Nat) :=
  putCounted SnapshotDB.putScriptRegistryEntries s entries

end SnapshotGenerator

namespace SnapshotIndexer

open SnapshotGenerator

def snapshotFileName (targetBlockHeight : Nat) : String := s!"snapshot_{targetBlockHeight}.db"

/-- The outputs of an export, when they are asked for. -/
def writeUtxos (order : ShardOrder) (db : BalanceHistoryDB) (withUtxo : Bool)
    (snapshot : SnapshotDB) : Except SnapshotError (SnapshotDB × Nat) :=
  if withUtxo then (generateUtxoSnapshotParallel order db).foldlM onUtxoEntries (snapshot, 0)
  else .ok (snapshot, 0)

/-- The tables of an export, filled one after the other, and its metadata. The script registry
has no heights and is exported in full. -/
def writeTables (order : ShardOrder) (db : BalanceHistoryDB) (targetBlockHeight : Nat)
    (withUtxo : Bool) (generatedAt : Nat) : Except SnapshotError SnapshotDB := do
  let (snapshot, balanceHistoryCount) ←
    ((generateBalanceHistorySnapshotParallel order db targetBlockHeight).map (·.1)).foldlM
      onBalanceHistoryEntries (.empty, 0)
  let (snapshot, utxoCount) ← writeUtxos order db withUtxo snapshot
  let (snapshot, blockCommitCount) ←
    (db.generateBlockCommitSnapshot targetBlockHeight).foldlM onBlockCommitEntries (snapshot, 0)
  let (snapshot, scriptRegistryCount) ←
    (generateScriptRegistrySnapshotParallel order db).foldlM onScriptRegistryEntries (snapshot, 0)
  return snapshot.updateMeta
    ⟨targetBlockHeight, balanceHistoryCount, utxoCount, blockCommitCount,
      scriptRegistryCount, generatedAt, snapshotDbVersion⟩

/-- `SnapshotIndexer::run`. -/
def run (env : ExportEnv) (db : BalanceHistoryDB) (targetBlockHeight : Nat) (withUtxo : Bool) :
    Except SnapshotError SnapshotExport := do
  let lastSyncedHeight := db.getBtcBlockHeight
  if targetBlockHeight > lastSyncedHeight then
    throw (.targetAboveSynced targetBlockHeight lastSyncedHeight)
  if withUtxo ∧ targetBlockHeight ≠ lastSyncedHeight then
    throw (.historicalUtxoNotSupported targetBlockHeight lastSyncedHeight)
  let snapshot ← writeTables env.order db targetBlockHeight withUtxo env.generatedAt
  let file : SnapshotFile :=
    ⟨snapshotFileName targetBlockHeight, env.fileSha256 snapshot, snapshot⟩
  match buildHistoricalStateRefAtHeight env.config db targetBlockHeight with
  | none => throw (.missingStateRef targetBlockHeight)
  | some stateRef =>
    let manifest := SnapshotManifest.build file.name file.sha256 stateRef
      (env.signingKey.map (·.keyId)) env.generatedAt
    return ⟨file, manifest, env.signingKey.map (·.sign manifest)⟩

end SnapshotIndexer

end Usdb.Balances
