import Mathlib.Data.List.Basic
import Usdb.Btc.Types
import Usdb.Framework.OrderedTable

namespace Usdb.Balances

open Std Framework

/-- A 32-byte hash, as the number its bytes denote. -/
abbrev Hash256 := Fin (2 ^ 256)

instance instTransOrdHash256 : TransOrd Hash256 := inferInstanceAs (TransOrd (Fin (2 ^ 256)))

instance instLawfulEqOrdHash256 : LawfulEqOrd Hash256 :=
  inferInstanceAs (LawfulEqOrd (Fin (2 ^ 256)))

instance instNeZeroHash256 : NeZero (2 ^ 256) := ⟨by simp⟩

abbrev USDBScriptHash := Hash256

abbrev BlockHash := Hash256

/-- A locking script: the hash it is indexed by, which stands for its bytes, and whether it
starts with `OP_RETURN` and so can never be spent. -/
structure ScriptBuf where
  usdbScriptHash : USDBScriptHash
  isOpReturn : Bool
deriving DecidableEq, Repr

structure TxOut where
  value : Nat
  scriptPubkey : ScriptBuf
deriving DecidableEq, Repr

structure Transaction where
  txid : Txid
  isCoinbase : Bool
  input : List OutPoint
  output : List TxOut
deriving DecidableEq, Repr

structure Block where
  blockHash : BlockHash
  prevBlockhash : BlockHash
  txdata : List Transaction
deriving DecidableEq, Repr

structure UTXOValue where
  value : Nat
  scriptHash : USDBScriptHash
deriving DecidableEq, Repr

structure BalanceHistoryData where
  blockHeight : Nat
  delta : Int
  balance : Nat
deriving DecidableEq, Repr

structure BalanceHistoryEntry where
  scriptHash : USDBScriptHash
  blockHeight : Nat
  delta : Int
  balance : Nat
deriving DecidableEq, Repr

structure BlockCommitEntry where
  blockHeight : Nat
  btcBlockHash : BlockHash
  balanceDeltaRoot : List UInt8
  blockCommit : List UInt8
deriving DecidableEq, Repr

/-- A script the registry has seen. -/
structure ScriptRegistryEntry where
  scriptHash : USDBScriptHash
  scriptPubkey : ScriptBuf
deriving DecidableEq, Repr

structure BlockUndoUtxoEntry where
  outpoint : OutPoint
  scriptHash : USDBScriptHash
  value : Nat
deriving DecidableEq, Repr

structure BlockUndoBundle where
  blockHeight : Nat
  btcBlockHash : BlockHash
  createdUtxos : List BlockUndoUtxoEntry
  spentUtxos : List BlockUndoUtxoEntry
  touchedScriptHashes : List USDBScriptHash
deriving DecidableEq, Repr

/-- The key of a balance row: the script hash, then the height. -/
structure BalanceKey where
  scriptHash : USDBScriptHash
  blockHeight : Nat
deriving DecidableEq, Repr

section KeyOrder

instance : Ord OutPoint := ⟨compareLex (compareOn OutPoint.txid) (compareOn OutPoint.vout)⟩

instance : TransOrd OutPoint :=
  inferInstanceAs (TransCmp (compareLex (compareOn OutPoint.txid) (compareOn OutPoint.vout)))

instance : LawfulEqOrd OutPoint where
  eq_of_compare := by
    rintro ⟨txid, vout⟩ ⟨txid', vout'⟩ h
    have h' := compareLex_eq_eq.mp h
    simp only [compareOn, Std.compare_eq_iff_eq] at h'
    rw [h'.1, h'.2]

instance : Ord BalanceKey :=
  ⟨compareLex (compareOn BalanceKey.scriptHash) (compareOn BalanceKey.blockHeight)⟩

instance : TransOrd BalanceKey :=
  inferInstanceAs
    (TransCmp (compareLex (compareOn BalanceKey.scriptHash) (compareOn BalanceKey.blockHeight)))

instance : LawfulEqOrd BalanceKey where
  eq_of_compare := by
    rintro ⟨scriptHash, blockHeight⟩ ⟨scriptHash', blockHeight'⟩ h
    have h' := compareLex_eq_eq.mp h
    simp only [compareOn, Std.compare_eq_iff_eq] at h'
    rw [h'.1, h'.2]

theorem BalanceKey.compare_isLE (s s' : USDBScriptHash) (height height' : Nat) :
    (compare (BalanceKey.mk s height) ⟨s', height'⟩).isLE ↔
      s < s' ∨ s = s' ∧ height ≤ height' := by
  have h : compare (BalanceKey.mk s height) ⟨s', height'⟩ =
      (compare s s').then (compare height height') := rfl
  have hlt : compare s s' = .lt ↔ s < s' := by
    show compare s.val s'.val = .lt ↔ _
    rw [Nat.compare_eq_lt]
    rfl
  rw [h, Ordering.isLE_then_iff_or, Std.compare_eq_iff_eq, Nat.isLE_compare, hlt]

end KeyOrder

/-- Why an operation of balance-history failed. Each constructor stands for one error
text of the source; `io` is a failed call or write, and `panic` a failed assertion, an
overflow or a crash. -/
inductive BalanceHistoryError
  | io
  | panic
  | rollbackNotLatest (currentHeight rollbackHeight : Nat)
  | missingUndoBundle (height : Nat)
  | invalidRollbackTarget (targetHeight currentHeight : Nat)
  | missingRollbackTargetHeight
  | missingRollbackNextHeight
  | rollbackResumeMismatch (nextHeight currentHeight : Nat)
  | invalidRollbackResume (targetHeight nextHeight : Nat)
  | rollbackNotSupported (currentHeight targetHeight firstRequired supportedFrom : Nat)
  | undoNotRetained (currentHeight targetHeight firstRequired retainedFrom : Nat)
  | noUndoRetentionBoundary (currentHeight targetHeight : Nat)
  | requiredUndoBundleMissing (currentHeight targetHeight height : Nat)
  | missingPreviousCommit (height : Nat)
  | balanceNotFound (scriptHash : USDBScriptHash) (height : Nat)
  | missingLocalCommit (height : Nat)
  | conflictingScriptRegistry (scriptHash : USDBScriptHash)
deriving DecidableEq, Repr

end Usdb.Balances
