import Mathlib.Algebra.Group.Int.Defs
import Mathlib.Algebra.GroupWithZero.Nat
import Mathlib.Data.List.Basic

namespace Usdb

/-- Transaction ids and script hashes are printed as fixed-width hexadecimal
text, so the order of the text is the order of the number it denotes. -/
abbrev Txid := Nat

abbrev USDBScriptHash := Nat

structure OutPoint where
  txid : Txid
  vout : Nat
deriving DecidableEq, Repr

structure SatPoint where
  outpoint : OutPoint
  offset : Nat
deriving DecidableEq, Repr

structure InscriptionId where
  txid : Txid
  index : Nat
deriving DecidableEq, Repr

structure TxOut where
  value : Nat
  scriptHash : USDBScriptHash
deriving DecidableEq, Repr

/-- An inscription envelope found in the witness of a transaction, with the input
that carries it. -/
structure ParsedEnvelope where
  input : Nat
deriving DecidableEq, Repr

structure Transaction where
  txid : Txid
  input : List OutPoint
  output : List TxOut
  envelopes : List ParsedEnvelope
deriving DecidableEq, Repr

structure Block where
  txdata : List Transaction
deriving DecidableEq, Repr

/-- One balance-history row: the balance of an address after a block that touched
it, and the net change of that block. -/
structure AddressBalance where
  blockHeight : Nat
  balance : Nat
  delta : Int
deriving DecidableEq, Repr

inductive MinerPassState
  | Active
  | Dormant
  | Consumed
  | Burned
  | Invalid
deriving DecidableEq, Repr

/-- What an external call or a storage write reports. A crash ends the process at
that point. -/
inductive IoResult
  | ok
  | err
  | crash
deriving DecidableEq, Repr

end Usdb
