import Mathlib.Data.List.TakeWhile
import Usdb.Balances.BalanceScan

namespace Usdb.Balances

open Framework

/-- Why a verification failed. Each constructor but the first stands for one error text of
the source; `panic` is a failed assertion, an overflow or an unwrapped `None`. -/
inductive VerifyError
  | panic
  | getHistory (scriptHash : USDBScriptHash)
  | getTransaction (txid : Txid)
  | getVinTransaction (txid : Txid)
  | invalidVout (vout : Nat) (txid : Txid)
  | noAddress (scriptHash : USDBScriptHash)
  | historyMismatch (scriptHash : USDBScriptHash) (blockHeight : Nat)
      (entryDelta : Int) (entryBalance : Nat) (dataDelta : Int) (dataBalance : Nat)
  | balanceMismatch (scriptHash : USDBScriptHash) (blockHeight expected got : Nat)
deriving DecidableEq, Repr

structure GetHistoryRes where
  height : Int
  txHash : Txid
deriving DecidableEq, Repr

/-- What the Electrum server answers; `none` is an error. -/
structure ElectrsClient where
  getHistory : USDBScriptHash → Option (List GetHistoryRes)
  transactionGet : Txid → Option Transaction

structure TxFullItem where
  vin : List TxOut
  vout : List TxOut
deriving DecidableEq, Repr

/-- `u32 as i32`. -/
def asI32 (n : Nat) : Int := Int.bmod n (2 ^ 32)

/-- `i32 as u32`. -/
def asU32 (x : Int) : Nat := (x % 2 ^ 32).toNat

/-- Addition of `i64` values, which panics when it overflows. -/
def verifyAddI64 (x y : Int) : Except VerifyError Int :=
  if -(2 ^ 63) ≤ x + y ∧ x + y < 2 ^ 63 then .ok (x + y) else .error .panic

/-- What the loops of `amount_delta_from_tx` carry. -/
structure AmountDelta where
  delta : Int
  scriptBuf : Option ScriptBuf

/-- The body of both loops; they differ in the sign. -/
def countAmount (scriptHash : USDBScriptHash) (sign : Int) (amount : AmountDelta) (out : TxOut) :
    Except VerifyError AmountDelta :=
  if out.scriptPubkey.usdbScriptHash = scriptHash then do
    let delta ← verifyAddI64 amount.delta (sign * asI64 out.value)
    return ⟨delta, amount.scriptBuf.or (some out.scriptPubkey)⟩
  else .ok amount

def TxFullItem.amountDeltaFromTx (tx : TxFullItem) (scriptHash : USDBScriptHash) :
    Except VerifyError (Int × ScriptBuf) := do
  let spent ← tx.vin.foldlM (countAmount scriptHash (-1)) ⟨0, none⟩
  let amount ← tx.vout.foldlM (countAmount scriptHash 1) spent
  match amount.scriptBuf with
  | some scriptBuf => .ok (amount.delta, scriptBuf)
  | none => .error .panic

/-- What the loops of `calc_balance` and `calc_balance_history` carry; only the second one
has the entries. -/
structure CalcState where
  balance : Int
  scriptBuf : Option ScriptBuf
  result : List BalanceHistoryData

def CalcState.start : CalcState := ⟨0, none, []⟩

namespace ElectrsClient

variable (client : ElectrsClient)

def expandVin (input : OutPoint) : Except VerifyError TxOut :=
  match client.transactionGet input.txid with
  | none => .error (.getVinTransaction input.txid)
  | some vinTx =>
    match vinTx.output[input.vout]? with
    | none => .error (.invalidVout input.vout input.txid)
    | some out => .ok out

def expandTx (txid : Txid) : Except VerifyError TxFullItem :=
  match client.transactionGet txid with
  | none => .error (.getTransaction txid)
  | some tx => do
    let vin ← tx.input.mapM client.expandVin
    return ⟨vin, tx.output⟩

/-- The loop over the history, in its order. -/
def calcLoop (scriptHash : USDBScriptHash) (blockHeight : Nat) :
    List GetHistoryRes → CalcState → Except VerifyError CalcState
  | [], state => .ok state
  | item :: history, state =>
    if asI32 blockHeight < item.height then .ok state
    else do
      let tx ← client.expandTx item.txHash
      let (delta, scriptBuf) ← tx.amountDeltaFromTx scriptHash
      let balance ← verifyAddI64 state.balance delta
      if 0 ≤ balance then
        calcLoop scriptHash blockHeight history {
          balance
          scriptBuf := state.scriptBuf.or (some scriptBuf)
          result := state.result ++ [⟨asU32 item.height, delta, balance.toNat⟩] }
      else .error .panic

/-- What `calc_balance` and `calc_balance_history` share. -/
def calcState (scriptHash : USDBScriptHash) (blockHeight : Nat) :
    Except VerifyError (CalcState × ScriptBuf) :=
  match client.getHistory scriptHash with
  | none => .error (.getHistory scriptHash)
  | some history => do
    let state ← client.calcLoop scriptHash blockHeight history .start
    match state.scriptBuf with
    | some scriptBuf => .ok (state, scriptBuf)
    | none => .error .panic

def calcBalance (scriptHash : USDBScriptHash) (blockHeight : Nat) :
    Except VerifyError (Nat × ScriptBuf) :=
  (client.calcState scriptHash blockHeight).map (fun ret => (ret.1.balance.toNat, ret.2))

def calcBalanceHistory (scriptHash : USDBScriptHash) (blockHeight : Nat) :
    Except VerifyError (List BalanceHistoryData × ScriptBuf) :=
  (client.calcState scriptHash blockHeight).map (fun ret => (ret.1.result, ret.2))

end ElectrsClient

/-- `hasAddress` tells whether a script is the script of an address of the network. -/
structure BalanceHistoryVerifier where
  hasAddress : ScriptBuf → Bool
  electrsClient : ElectrsClient
  db : BalanceHistoryDB

namespace BalanceHistoryVerifier

variable (verifier : BalanceHistoryVerifier)

def checkEntry (scriptHash : USDBScriptHash) (data : BalanceHistoryData) :
    Except VerifyError Unit :=
  let entry := verifier.db.getBalanceAtBlockHeight scriptHash data.blockHeight
  if entry.balance ≠ data.balance ∨ entry.delta ≠ data.delta then
    .error (.historyMismatch scriptHash data.blockHeight entry.delta entry.balance data.delta
      data.balance)
  else .ok ()

def verifyAddressAtHeight (scriptHash : USDBScriptHash) (blockHeight : Nat) :
    Except VerifyError Unit := do
  let (history, scriptBuf) ← verifier.electrsClient.calcBalanceHistory scriptHash blockHeight
  if verifier.hasAddress scriptBuf then
    history.foldlM (fun _ data => verifier.checkEntry scriptHash data) ()
  else .error (.noAddress scriptHash)

def verifyAddressBalanceAtHeight (scriptHash : USDBScriptHash) (blockHeight balance : Nat) :
    Except VerifyError Unit := do
  let (electrsBalance, scriptBuf) ← verifier.electrsClient.calcBalance scriptHash blockHeight
  if verifier.hasAddress scriptBuf then
    if electrsBalance ≠ balance then
      .error (.balanceMismatch scriptHash blockHeight balance electrsBalance)
    else .ok ()
  else .error (.noAddress scriptHash)

def verifyEntries (targetBlockHeight : Nat) (entries : List BalanceHistoryEntry) :
    Except VerifyError Unit :=
  match entries with
  | [entry] =>
    verifier.verifyAddressBalanceAtHeight entry.scriptHash targetBlockHeight entry.balance
  | _ => .error .panic

def verifyAtHeight (targetBlockHeight : Nat) (start : Option USDBScriptHash) :
    Except VerifyError Unit :=
  verifier.db.traverseAtHeight .panic start targetBlockHeight 1
    (fun _ entries => verifier.verifyEntries targetBlockHeight entries) ()

end BalanceHistoryVerifier

section Amounts

/-- What the outputs of a list pay to a script hash. -/
def paidTo (scriptHash : USDBScriptHash) (outs : List TxOut) : Nat :=
  ((outs.filter (fun out => out.scriptPubkey.usdbScriptHash = scriptHash)).map (·.value)).sum

variable {scriptHash : USDBScriptHash} {out : TxOut} {outs : List TxOut} {amount : AmountDelta}

theorem verifyAddI64_of_fits {x y : Int} (hge : -(2 ^ 63) ≤ x + y) (hlt : x + y < 2 ^ 63) :
    verifyAddI64 x y = .ok (x + y) := if_pos ⟨hge, hlt⟩

theorem verifyAddI64_ok {x y z : Int} (h : verifyAddI64 x y = .ok z) : z = x + y := by
  unfold verifyAddI64 at h
  split at h
  · cases h
    rfl
  · cases h

theorem paidTo_cons (out : TxOut) (outs : List TxOut) :
    paidTo scriptHash (out :: outs) =
      (if out.scriptPubkey.usdbScriptHash = scriptHash then out.value else 0) +
        paidTo scriptHash outs := by
  unfold paidTo
  rw [List.filter_cons]
  by_cases h : out.scriptPubkey.usdbScriptHash = scriptHash
  · simp [h]
  · simp [h]

/-- The script found so far belongs to the script hash, and one is found as soon as an
output was counted. -/
def ScriptFound (scriptHash : USDBScriptHash) (outs : List TxOut) (scriptBuf : Option ScriptBuf) :
    Prop :=
  match scriptBuf with
  | some script => script.usdbScriptHash = scriptHash
  | none => ∀ out ∈ outs, out.scriptPubkey.usdbScriptHash ≠ scriptHash

theorem ScriptFound.count {counted : List TxOut}
    (h : ScriptFound scriptHash counted amount.scriptBuf)
    (heq : out.scriptPubkey.usdbScriptHash = scriptHash) :
    ScriptFound scriptHash (counted ++ [out])
      (amount.scriptBuf.or (some out.scriptPubkey)) := by
  cases hscript : amount.scriptBuf with
  | none => exact heq
  | some script =>
    rw [hscript] at h
    exact h

theorem ScriptFound.skip {counted : List TxOut}
    (h : ScriptFound scriptHash counted amount.scriptBuf)
    (hne : out.scriptPubkey.usdbScriptHash ≠ scriptHash) :
    ScriptFound scriptHash (counted ++ [out]) amount.scriptBuf := by
  cases hscript : amount.scriptBuf with
  | none =>
    rw [hscript] at h
    intro out' hmem
    rcases List.mem_append.mp hmem with hold | hnew
    · exact h out' hold
    · rw [List.mem_singleton.mp hnew]
      exact hne
  | some script =>
    rw [hscript] at h
    exact h

/-- A loop over outputs adds or subtracts what they pay, when no sum leaves `i64`. -/
theorem countAmounts (first : AmountDelta) (counted : List TxOut) {sign : Int} (hsign : sign = 1 ∨ sign = -1)
    (hfound : ScriptFound scriptHash counted first.scriptBuf)
    (hpaid : paidTo scriptHash outs < 2 ^ 62) (hge : -(2 ^ 62) ≤ first.delta)
    (hlt : first.delta < 2 ^ 62)
    (hroom : -(2 ^ 62) ≤ first.delta + sign * paidTo scriptHash outs ∧
      first.delta + sign * paidTo scriptHash outs < 2 ^ 62) :
    ∃ scriptBuf, outs.foldlM (countAmount scriptHash sign) first =
        .ok ⟨first.delta + sign * paidTo scriptHash outs, scriptBuf⟩ ∧
      ScriptFound scriptHash (counted ++ outs) scriptBuf := by
  induction outs generalizing first counted with
  | nil =>
    refine ⟨first.scriptBuf, ?_, ?_⟩
    · simp [paidTo]
      rfl
    · rw [List.append_nil]
      exact hfound
  | cons out outs ih =>
    rw [paidTo_cons] at hpaid hroom ⊢
    rw [List.foldlM_cons]
    by_cases heq : out.scriptPubkey.usdbScriptHash = scriptHash
    · rw [if_pos heq] at hpaid hroom ⊢
      push_cast at hroom ⊢
      rw [mul_add, ← add_assoc] at hroom ⊢
      have hvalue : out.value < 2 ^ 62 := by omega
      have hfits : -(2 ^ 62) ≤ first.delta + sign * out.value ∧
          first.delta + sign * out.value < 2 ^ 62 := by
        rcases hsign with rfl | rfl <;> omega
      have hstep : countAmount scriptHash sign first out =
          .ok ⟨first.delta + sign * out.value, first.scriptBuf.or (some out.scriptPubkey)⟩ := by
        unfold countAmount
        rw [if_pos heq, asI64_of_lt (by omega), verifyAddI64_of_fits (by omega) (by omega)]
        rfl
      rw [hstep]
      obtain ⟨scriptBuf, hfold, hscript⟩ := ih
        ⟨first.delta + sign * out.value, first.scriptBuf.or (some out.scriptPubkey)⟩
        (counted ++ [out]) (hfound.count heq) (by omega) hfits.1 hfits.2 hroom
      rw [List.append_assoc] at hscript
      exact ⟨scriptBuf, hfold, hscript⟩
    · rw [if_neg heq, Nat.zero_add] at hpaid hroom ⊢
      have hstep : countAmount scriptHash sign first out = .ok first := if_neg heq
      rw [hstep]
      obtain ⟨scriptBuf, hfold, hscript⟩ := ih first (counted ++ [out]) (hfound.skip heq) hpaid hge hlt hroom
      rw [List.append_assoc] at hscript
      exact ⟨scriptBuf, hfold, hscript⟩

/-- The transaction's net payment to a script hash. -/
def TxFullItem.netTo (tx : TxFullItem) (scriptHash : USDBScriptHash) : Int :=
  paidTo scriptHash tx.vout - paidTo scriptHash tx.vin

def TxFullItem.Touches (tx : TxFullItem) (scriptHash : USDBScriptHash) : Prop :=
  ∃ out ∈ tx.vin ++ tx.vout, out.scriptPubkey.usdbScriptHash = scriptHash

theorem amountDeltaFromTx_ok {tx : TxFullItem} (hvin : paidTo scriptHash tx.vin < 2 ^ 62)
    (hvout : paidTo scriptHash tx.vout < 2 ^ 62) (htouches : tx.Touches scriptHash) :
    ∃ scriptBuf, tx.amountDeltaFromTx scriptHash = .ok (tx.netTo scriptHash, scriptBuf) ∧
      scriptBuf.usdbScriptHash = scriptHash := by
  obtain ⟨spent, hspent, hfirst⟩ := countAmounts ⟨0, none⟩ [] (.inr rfl)
    (fun _ hmem => nomatch hmem) hvin (by norm_num) (by norm_num)
    (by constructor <;> dsimp only <;> omega)
  obtain ⟨found, hfound, hsecond⟩ := countAmounts
    ⟨0 + -1 * (paidTo scriptHash tx.vin : Int), spent⟩ ([] ++ tx.vin) (.inl rfl) hfirst hvout
    (by dsimp only; omega) (by dsimp only; omega) (by constructor <;> dsimp only <;> omega)
  unfold TxFullItem.amountDeltaFromTx
  rw [hspent]
  change ∃ scriptBuf, (tx.vout.foldlM (countAmount scriptHash 1) _ >>= _) = _ ∧ _
  rw [hfound]
  cases found with
  | none =>
    obtain ⟨out, hmem, hscript⟩ := htouches
    exact absurd hscript (hsecond out hmem)
  | some script =>
    refine ⟨script, ?_, hsecond⟩
    have hnet : (0 : Int) + -1 * (paidTo scriptHash tx.vin : Int) +
        1 * (paidTo scriptHash tx.vout : Int) = tx.netTo scriptHash := by
      unfold TxFullItem.netTo
      omega
    dsimp only
    rw [hnet]
    rfl

end Amounts

end Usdb.Balances
