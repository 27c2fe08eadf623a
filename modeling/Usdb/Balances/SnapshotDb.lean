import Usdb.Balances.Aggregates
import Usdb.Balances.Batch
import Usdb.Framework.SqlTable

namespace Usdb.Balances

open Framework

theorem asU64_asI64 {n : Nat} (h : n < 2 ^ 64) : asU64 (asI64 n) = n := by
  have hmod : asI64 n % 2 ^ 64 = n := by
    unfold asI64
    rw [show ((2 : Int) ^ 64) = ((2 ^ 64 : Nat) : Int) from by norm_cast, Int.bmod_emod]
    exact Int.emod_eq_of_lt (by omega) (by exact_mod_cast h)
  unfold asU64
  rw [hmod]
  rfl

/-- Why an export or an installation failed. `io` is a failed call or write, `panic` a
failed assertion or a crash. -/
inductive SnapshotError
  | io
  | panic
  | targetAboveSynced (targetBlockHeight lastSyncedHeight : Nat)
  | historicalUtxoNotSupported (targetBlockHeight lastSyncedHeight : Nat)
  | insertRefused
  | missingStateRef (blockHeight : Nat)
  | missingMeta
  | manifestRequired
  | unsupportedManifestVersion (manifestVersion : String)
  | missingSignatureScheme
  | unsupportedSignatureScheme (signatureScheme : String)
  | missingSigningKeyId
  | missingSignature
  | missingTrustedKeys
  | untrustedSigner (signingKeyId : String)
  | invalidVerifyingKey (signingKeyId : String)
  | signatureMismatch (signingKeyId : String)
  | missingSnapshotFile
  | fileNameMismatch (expected actual : String)
  | fileHashMismatch (expected actual : String)
  | blockHeightMismatch (expected actual : Nat)
  | stateRefMismatch (blockHeight : Nat)
  | liveDbShared
deriving DecidableEq, Repr

structure UTXOEntry where
  outpoint : OutPoint
  scriptHash : USDBScriptHash
  value : Nat
deriving DecidableEq, Repr

structure SnapshotMeta where
  blockHeight : Nat
  balanceHistoryCount : Nat
  utxoCount : Nat
  blockCommitCount : Nat
  scriptRegistryCount : Nat
  generatedAt : Nat
  version : Nat
deriving DecidableEq, Repr

def snapshotDbVersion : Nat := 2

/-- A row of `balance_history`. An amount is kept in a signed column. -/
structure BalanceHistoryRow where
  height : Nat
  balance : Int
  delta : Int
deriving DecidableEq, Repr

/-- A row of `utxos`. -/
structure UTXORow where
  scriptHash : USDBScriptHash
  value : Int
deriving DecidableEq, Repr

/-- The tables of a snapshot file. -/
structure SnapshotDB where
  metas : List SnapshotMeta
  balanceHistory : Table USDBScriptHash BalanceHistoryRow
  utxos : Table OutPoint UTXORow
  blockCommits : Table Nat BlockCommitValue
  scriptRegistry : Table USDBScriptHash ScriptBuf
deriving DecidableEq

section Codec

def BalanceHistoryEntry.toRow (entry : BalanceHistoryEntry) : USDBScriptHash × BalanceHistoryRow :=
  (entry.scriptHash, ⟨entry.blockHeight, asI64 entry.balance, entry.delta⟩)

def BalanceHistoryEntry.ofRow (row : USDBScriptHash × BalanceHistoryRow) : BalanceHistoryEntry :=
  ⟨row.1, row.2.height, row.2.delta, asU64 row.2.balance⟩

def UTXOEntry.toRow (entry : UTXOEntry) : OutPoint × UTXORow :=
  (entry.outpoint, ⟨entry.scriptHash, asI64 entry.value⟩)

def UTXOEntry.ofRow (row : OutPoint × UTXORow) : UTXOEntry :=
  ⟨row.1, row.2.scriptHash, asU64 row.2.value⟩

def BlockCommitEntry.toRow (entry : BlockCommitEntry) : Nat × BlockCommitValue :=
  (entry.blockHeight, ⟨entry.btcBlockHash, entry.balanceDeltaRoot, entry.blockCommit⟩)

def BlockCommitEntry.ofRow (row : Nat × BlockCommitValue) : BlockCommitEntry :=
  ⟨row.1, row.2.btcBlockHash, row.2.balanceDeltaRoot, row.2.blockCommit⟩

def ScriptRegistryEntry.toRow (entry : ScriptRegistryEntry) : USDBScriptHash × ScriptBuf :=
  (entry.scriptHash, entry.scriptPubkey)

def ScriptRegistryEntry.ofRow (row : USDBScriptHash × ScriptBuf) : ScriptRegistryEntry :=
  ⟨row.1, row.2⟩

end Codec

namespace SnapshotDB

/-- A file that was just created. -/
def empty : SnapshotDB := ⟨[], ∅, ∅, ∅, ∅⟩

def updateMeta (db : SnapshotDB) (snapshotMeta : SnapshotMeta) : SnapshotDB :=
  { db with metas := db.metas ++ [snapshotMeta] }

/-- The metadata generated last. -/
def getMeta (db : SnapshotDB) : Except SnapshotError SnapshotMeta :=
  match db.metas.mergeSort (fun a b => b.generatedAt ≤ a.generatedAt) with
  | snapshotMeta :: _ => .ok snapshotMeta
  | [] => .error .missingMeta

def putBalanceHistoryEntries (db : SnapshotDB) (entries : List BalanceHistoryEntry) :
    Except SnapshotError SnapshotDB :=
  match db.balanceHistory.insertRows (entries.map (·.toRow)) with
  | some balanceHistory => .ok { db with balanceHistory }
  | none => .error .insertRefused

def putUtxoEntries (db : SnapshotDB) (entries : List UTXOEntry) :
    Except SnapshotError SnapshotDB :=
  match db.utxos.insertRows (entries.map (·.toRow)) with
  | some utxos => .ok { db with utxos }
  | none => .error .insertRefused

def putBlockCommitEntries (db : SnapshotDB) (entries : List BlockCommitEntry) :
    Except SnapshotError SnapshotDB :=
  match db.blockCommits.insertRows (entries.map (·.toRow)) with
  | some blockCommits => .ok { db with blockCommits }
  | none => .error .insertRefused

/-- `INSERT OR REPLACE`, which no row refuses. -/
def putScriptRegistryEntries (db : SnapshotDB) (entries : List ScriptRegistryEntry) :
    Except SnapshotError SnapshotDB :=
  .ok { db with scriptRegistry := db.scriptRegistry.insertMany (entries.map (·.toRow)) }

def getBalanceHistoryEntries (db : SnapshotDB) (pageSize : Nat)
    (lastScriptHash : Option USDBScriptHash) : List BalanceHistoryEntry :=
  (db.balanceHistory.pageAfter pageSize lastScriptHash).map BalanceHistoryEntry.ofRow

def getUtxoEntries (db : SnapshotDB) (pageSize : Nat) (lastOutpoint : Option OutPoint) :
    List UTXOEntry :=
  (db.utxos.pageAfter pageSize lastOutpoint).map UTXOEntry.ofRow

def getBlockCommitEntries (db : SnapshotDB) (pageSize : Nat) (lastBlockHeight : Option Nat) :
    List BlockCommitEntry :=
  (db.blockCommits.pageAfter pageSize lastBlockHeight).map BlockCommitEntry.ofRow

def getScriptRegistryEntries (db : SnapshotDB) (pageSize : Nat)
    (lastScriptHash : Option USDBScriptHash) : List ScriptRegistryEntry :=
  (db.scriptRegistry.pageAfter pageSize lastScriptHash).map ScriptRegistryEntry.ofRow

end SnapshotDB

end Usdb.Balances
