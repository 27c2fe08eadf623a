import Usdb.Index.State

namespace Usdb

/-- The node as the transfer tracker calls it: a transaction by id and the value of
an output. -/
structure BtcClient where
  getTransaction : Txid → Option Transaction
  getUtxo : OutPoint → Option Nat

/-- Where a sat goes. Without an address it is spent as fee. -/
structure SatPointResult where
  satpoint : SatPoint
  value : Nat
  address : Option USDBScriptHash
deriving DecidableEq, Repr

namespace TxItem

/-- The position of the first sat of an input, after the values of the inputs
before it. -/
def sumInputValues (btc : BtcClient) (pos : Nat) : List OutPoint → IndexerM Nat
  | [] => pure pos
  | outpoint :: rest => do
    io
    match btc.getUtxo outpoint with
    | none => throw (.utxoNotFound outpoint)
    | some amount => sumInputValues btc (pos + amount) rest

/-- The output that holds a sat position, outputs being laid out one after the
other from `current` on. -/
def findOutput (txid : Txid) (pos current vout : Nat) : List TxOut → Option SatPointResult
  | [] => none
  | out :: rest =>
    if current ≤ pos ∧ pos < current + out.value then
      some { satpoint := { outpoint := { txid, vout }, offset := pos - current }
             value := out.value, address := some out.scriptHash }
    else findOutput txid pos (current + out.value) (vout + 1) rest

/-- Fee-spent sats get the output index one past the last. -/
def outputSatpoint (tx : Transaction) (pos : Nat) : SatPointResult :=
  match findOutput tx.txid pos 0 0 tx.output with
  | some result => result
  | none =>
    { satpoint := { outpoint := { txid := tx.txid, vout := tx.output.length }, offset := 0 }
      value := 0, address := none }

def calcOutputSatpoint (btc : BtcClient) (tx : Transaction) (satpoint : SatPoint) :
    IndexerM (Option SatPointResult) :=
  match tx.input.findIdx? (fun v => v = satpoint.outpoint) with
  | none => pure none
  | some vinIndex => do
    let pos ← sumInputValues btc 0 (tx.input.take vinIndex)
    return some (outputSatpoint tx (pos + satpoint.offset))

/-- A position is found in the outputs exactly when it lies below their total. -/
theorem findOutput_eq_none (txid : Txid) (pos current vout : Nat) (outs : List TxOut)
    (hc : current ≤ pos) :
    findOutput txid pos current vout outs = none ↔ current + (outs.map (·.value)).sum ≤ pos := by
  induction outs generalizing current vout with
  | nil => simp [findOutput, hc]
  | cons out rest ih =>
    unfold findOutput
    by_cases h : current ≤ pos ∧ pos < current + out.value
    · rw [if_pos h]
      simp only [List.map_cons, List.sum_cons]
      constructor
      · intro hn
        cases hn
      · intro hle
        omega
    · rw [if_neg h, ih (current + out.value) (vout + 1) (by omega)]
      simp only [List.map_cons, List.sum_cons]
      omega

theorem findOutput_address (txid : Txid) (pos current vout : Nat) (outs : List TxOut)
    (r : SatPointResult) (h : findOutput txid pos current vout outs = some r) :
    r.address.isSome := by
  induction outs generalizing current vout with
  | nil => cases h
  | cons out rest ih =>
    unfold findOutput at h
    split at h
    · cases h
      rfl
    · exact ih _ _ h

/-- The sat is lost to fees exactly when its position is not below the total output
value. -/
theorem outputSatpoint_address (tx : Transaction) (pos : Nat) :
    (outputSatpoint tx pos).address = none ↔ (tx.output.map (·.value)).sum ≤ pos := by
  have h := findOutput_eq_none tx.txid pos 0 0 tx.output (Nat.zero_le pos)
  unfold outputSatpoint
  cases hf : findOutput tx.txid pos 0 0 tx.output with
  | none =>
    rw [hf] at h
    simpa using h
  | some r =>
    rw [hf] at h
    have ha := findOutput_address _ _ _ _ _ _ hf
    simp only [reduceCtorEq, false_iff, Nat.zero_add] at h
    simp only [h, iff_false]
    intro hn
    simp [hn] at ha

theorem findOutput_txid (txid : Txid) (pos current vout : Nat) (outs : List TxOut)
    (r : SatPointResult) (h : findOutput txid pos current vout outs = some r) :
    r.satpoint.outpoint.txid = txid := by
  induction outs generalizing current vout with
  | nil => cases h
  | cons out rest ih =>
    unfold findOutput at h
    split at h
    · cases h
      rfl
    · exact ih _ _ h

theorem outputSatpoint_txid (tx : Transaction) (pos : Nat) :
    (outputSatpoint tx pos).satpoint.outpoint.txid = tx.txid := by
  unfold outputSatpoint
  cases hf : findOutput tx.txid pos 0 0 tx.output with
  | none => rfl
  | some r => exact findOutput_txid _ _ _ _ _ _ hf

end TxItem

end Usdb
