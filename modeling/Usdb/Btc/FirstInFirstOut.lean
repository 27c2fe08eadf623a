import Usdb.Framework.Layout
import Usdb.Index.TrackerMap

namespace Usdb

open Framework Layout

namespace TxItem

section Outputs

variable {txid : Txid} {outs : List TxOut} {out : TxOut} {pos current vout i offset : Nat}

theorem findOutput_layout (hout : outs[i]? = some out) (hlt : offset < out.value) :
    findOutput txid (current + position (outs.map (·.value)) i offset) current vout outs =
      some { satpoint := { outpoint := { txid, vout := vout + i }, offset }
             value := out.value, address := some out.scriptHash } := by
  induction outs generalizing current vout i with
  | nil => cases hout
  | cons first rest ih =>
    unfold findOutput
    cases i with
    | zero =>
      cases hout
      rw [List.map_cons, position_cons_zero, if_pos (by omega), Nat.add_sub_cancel_left]
      rfl
    | succ i =>
      rw [List.map_cons, position_cons_succ, if_neg (by omega), ← Nat.add_assoc, ih hout]
      congr 4
      omega

/-- The result for a sat of an output. -/
def paidTo (tx : Transaction) (vout offset : Nat) (out : TxOut) : SatPointResult :=
  { satpoint := { outpoint := { txid := tx.txid, vout }, offset }
    value := out.value, address := some out.scriptHash }

/-- The result for a sat of the fee. -/
def spentAsFee (tx : Transaction) : SatPointResult :=
  { satpoint := { outpoint := { txid := tx.txid, vout := tx.output.length }, offset := 0 }
    value := 0, address := none }

def outputValues (tx : Transaction) : List Nat := tx.output.map (·.value)

theorem outputSatpoint_paid {tx : Transaction} (hout : tx.output[i]? = some out)
    (hlt : offset < out.value) :
    outputSatpoint tx (position (outputValues tx) i offset) = paidTo tx i offset out := by
  have hfind : findOutput tx.txid (0 + position (outputValues tx) i offset) 0 0 tx.output =
      some { satpoint := { outpoint := { txid := tx.txid, vout := 0 + i }, offset }
             value := out.value, address := some out.scriptHash } :=
    findOutput_layout hout hlt
  rw [Nat.zero_add, Nat.zero_add] at hfind
  unfold outputSatpoint
  rw [hfind]
  rfl

theorem outputSatpoint_fee {tx : Transaction} (hle : (outputValues tx).sum ≤ pos) :
    outputSatpoint tx pos = spentAsFee tx := by
  have hfind := (findOutput_eq_none tx.txid pos 0 0 tx.output (Nat.zero_le pos)).mpr
    (by rw [Nat.zero_add]; exact hle)
  unfold outputSatpoint
  rw [hfind]
  rfl

theorem holds_outputValues {tx : Transaction} (h : Holds (outputValues tx) i offset) :
    ∃ out, tx.output[i]? = some out ∧ offset < out.value := by
  obtain ⟨value, hvalue, hlt⟩ := h
  rw [outputValues, List.getElem?_map] at hvalue
  obtain ⟨out, hout, rfl⟩ := Option.map_eq_some_iff.mp hvalue
  exact ⟨out, hout, hlt⟩

end Outputs

section Inputs

variable {btc : BtcClient} {tx : Transaction} {values : List Nat}

/-- The transaction spends distinct outputs, whose values the lookup returns. -/
structure Spends (btc : BtcClient) (tx : Transaction) (values : List Nat) : Prop where
  distinct : tx.input.Nodup
  looked : tx.input.map btc.getUtxo = values.map some

theorem Spends.known (h : Spends btc tx values) {outpoint : OutPoint}
    (hmem : outpoint ∈ tx.input) : (btc.getUtxo outpoint).isSome := by
  have hm : btc.getUtxo outpoint ∈ values.map some := h.looked ▸ List.mem_map_of_mem hmem
  obtain ⟨value, -, hvalue⟩ := List.mem_map.mp hm
  rw [← hvalue]
  rfl

theorem inputValues_take (h : tx.input.map btc.getUtxo = values.map some) (i : Nat) :
    inputValues btc (tx.input.take i) = (values.take i).sum := by
  have ht := congrArg (fun l => l.map (·.getD 0)) (congrArg (List.take i) h)
  simp only [← List.map_take, List.map_map] at ht
  unfold inputValues
  rw [show (fun o => (btc.getUtxo o).getD 0) = (·.getD 0) ∘ btc.getUtxo from rfl, ht]
  congr 1
  exact List.map_id' _

/-- The position the source computes is that of the input among the inputs. -/
theorem Spends.inputPosition_eq (h : Spends btc tx values) {i : Nat} {outpoint : OutPoint}
    (hin : tx.input[i]? = some outpoint) :
    InscriptionIndexer.inputPosition btc tx outpoint = (values.take i).sum := by
  unfold InscriptionIndexer.inputPosition
  obtain ⟨hi, hget⟩ := List.getElem?_eq_some_iff.mp hin
  have hidx : tx.input.findIdx (fun o => o = outpoint) = i := by
    rw [List.findIdx_eq hi]
    refine ⟨by simp [hget], ?_⟩
    intro j hj
    have hne := (List.nodup_iff_injective_getElem.mp h.distinct).ne
      (show (⟨j, by omega⟩ : Fin _) ≠ ⟨i, hi⟩ by simp; omega)
    simpa [← hget] using hne
  rw [hidx, inputValues_take h.looked]

theorem Spends.destination_eq (h : Spends btc tx values) {i offset : Nat} {outpoint : OutPoint}
    (hin : tx.input[i]? = some outpoint) :
    destination btc tx { outpoint, offset } =
      outputSatpoint tx (position values i offset) := by
  unfold destination position
  rw [h.inputPosition_eq hin]

end Inputs

section MachineSums

/-- The addition of two 64-bit amounts, where an overflow is a panic. -/
def addU64 (a b : Nat) : IndexerM Nat :=
  if a + b < 2 ^ 64 then pure (a + b) else throw .panic

def sumInputValuesU64 (btc : BtcClient) (pos : Nat) : List OutPoint → IndexerM Nat
  | [] => pure pos
  | outpoint :: rest => do
    io
    match btc.getUtxo outpoint with
    | none => throw (.utxoNotFound outpoint)
    | some amount => sumInputValuesU64 btc (← addU64 pos amount) rest

def findOutputU64 (txid : Txid) (pos current vout : Nat) :
    List TxOut → IndexerM (Option SatPointResult)
  | [] => pure none
  | out :: rest => do
    let next ← addU64 current out.value
    if current ≤ pos ∧ pos < next then
      return some { satpoint := { outpoint := { txid, vout }, offset := pos - current }
                    value := out.value, address := some out.scriptHash }
    else findOutputU64 txid pos next (vout + 1) rest

/-- `calc_output_satpoint` with the overflow check of every sum. -/
def calcOutputSatpointU64 (btc : BtcClient) (tx : Transaction) (satpoint : SatPoint) :
    IndexerM (Option SatPointResult) :=
  match tx.input.findIdx? (fun v => v = satpoint.outpoint) with
  | none => pure none
  | some vinIndex => do
    let pos ← addU64 (← sumInputValuesU64 btc 0 (tx.input.take vinIndex)) satpoint.offset
    return some ((← findOutputU64 tx.txid pos 0 0 tx.output).getD (spentAsFee tx))

theorem addU64_eq {a b : Nat} (h : a + b < 2 ^ 64) : addU64 a b = pure (a + b) :=
  if_pos h

theorem sumInputValuesU64_eq {btc : BtcClient} {pos : Nat} {inputs : List OutPoint}
    (h : pos + inputValues btc inputs < 2 ^ 64) :
    sumInputValuesU64 btc pos inputs = sumInputValues btc pos inputs := by
  induction inputs generalizing pos with
  | nil => rfl
  | cons outpoint rest ih =>
    unfold sumInputValuesU64 sumInputValues
    cases hv : btc.getUtxo outpoint with
    | none => rfl
    | some amount =>
      simp only [inputValues, List.map_cons, List.sum_cons, hv, Option.getD_some] at h
      dsimp only
      rw [addU64_eq (by omega), pure_bind, ih (by unfold inputValues; omega)]

theorem findOutputU64_eq {txid : Txid} {pos current vout : Nat} {outs : List TxOut}
    (h : current + (outs.map (·.value)).sum < 2 ^ 64) :
    findOutputU64 txid pos current vout outs = pure (findOutput txid pos current vout outs) := by
  induction outs generalizing current vout with
  | nil => rfl
  | cons out rest ih =>
    rw [List.map_cons, List.sum_cons] at h
    unfold findOutputU64 findOutput
    rw [addU64_eq (by omega), pure_bind]
    split
    · rfl
    · exact ih (by omega)

theorem outputSatpoint_eq_getD (tx : Transaction) (pos : Nat) :
    outputSatpoint tx pos = (findOutput tx.txid pos 0 0 tx.output).getD (spentAsFee tx) := by
  unfold outputSatpoint
  cases findOutput tx.txid pos 0 0 tx.output with
  | none => rfl
  | some result => rfl

theorem calcOutputSatpointU64_eq {btc : BtcClient} {tx : Transaction} {satpoint : SatPoint}
    (hin : InscriptionIndexer.inputPosition btc tx satpoint.outpoint + satpoint.offset < 2 ^ 64)
    (hout : (outputValues tx).sum < 2 ^ 64) :
    calcOutputSatpointU64 btc tx satpoint = calcOutputSatpoint btc tx satpoint := by
  unfold calcOutputSatpointU64 calcOutputSatpoint
  cases hidx : tx.input.findIdx? (fun v => v = satpoint.outpoint) with
  | none => rfl
  | some vinIndex =>
    unfold InscriptionIndexer.inputPosition at hin
    rw [((List.findIdx?_eq_some_iff_findIdx_eq.mp hidx).2)] at hin
    dsimp only
    rw [sumInputValuesU64_eq (by rw [Nat.zero_add]; omega)]
    funext s
    cases hsum : sumInputValues btc 0 (tx.input.take vinIndex) s with
    | error e t => rw [bind_error hsum, bind_error hsum]
    | ok pos t =>
      obtain ⟨-, hpos⟩ := sumInputValues_ok hsum
      rw [bind_ok hsum, bind_ok hsum, addU64_eq (by omega), pure_bind,
        findOutputU64_eq (by rw [Nat.zero_add]; exact hout), pure_bind, outputSatpoint_eq_getD]

end MachineSums

section Flow

variable {btc : BtcClient} {tx : Transaction} {values : List Nat}

/-- Where the sat at a position of the inputs goes when the outputs are filled in order. -/
inductive FlowsTo (tx : Transaction) (pos : Nat) : SatPointResult → Prop
  | paid (vout offset : Nat) (out : TxOut) (listed : tx.output[vout]? = some out)
      (inside : offset < out.value) (same : position (outputValues tx) vout offset = pos) :
      FlowsTo tx pos (paidTo tx vout offset out)
  | fee (beyond : (outputValues tx).sum ≤ pos) : FlowsTo tx pos (spentAsFee tx)

theorem outputSatpoint_flowsTo (tx : Transaction) (pos : Nat) :
    FlowsTo tx pos (outputSatpoint tx pos) := by
  by_cases hlt : pos < (outputValues tx).sum
  · obtain ⟨vout, offset, hholds, rfl⟩ := exists_holds hlt
    obtain ⟨out, hout, hinside⟩ := holds_outputValues hholds
    rw [outputSatpoint_paid hout hinside]
    exact .paid vout offset out hout hinside rfl
  · rw [outputSatpoint_fee (by omega)]
    exact .fee (by omega)

/-- The sat at a position of the inputs, the transaction not paying it as fee, is the only
one that goes where it goes. -/
theorem FlowsTo.position_eq {pos pos' : Nat} {r r' : SatPointResult} (h : FlowsTo tx pos r)
    (h' : FlowsTo tx pos' r') (ha : r.address.isSome) (heq : r.satpoint = r'.satpoint) :
    pos = pos' := by
  cases h with
  | paid vout offset out listed inside same =>
    have hlen := (List.getElem?_eq_some_iff.mp listed).1
    cases h' with
    | paid vout' offset' out' listed' inside' same' =>
      obtain ⟨rfl, rfl⟩ : vout = vout' ∧ offset = offset' := by
        simpa [paidTo] using heq
      exact same.symm.trans same'
    | fee beyond =>
      obtain ⟨hvout, -⟩ : vout = tx.output.length ∧ offset = 0 := by
        simpa [paidTo, spentAsFee] using heq
      omega
  | fee beyond => cases ha

theorem Spends.calcOutputSatpoint_eq (h : Spends btc tx values) {i offset : Nat}
    {outpoint : OutPoint} (hin : tx.input[i]? = some outpoint) {s t : IndexerState}
    {ret : Option SatPointResult} (hrun : calcOutputSatpoint btc tx { outpoint, offset } s =
      .ok ret t) :
    ret = some (outputSatpoint tx (position values i offset)) := by
  cases ret with
  | none =>
    unfold calcOutputSatpoint at hrun
    rw [findIdx?_of_mem (List.mem_of_getElem? hin)] at hrun
    obtain ⟨pos, _, -, hrun⟩ := bind_eq_ok hrun
    cases hrun
  | some r =>
    rw [(calcOutputSatpoint_ok hrun).2, h.destination_eq hin]

/-- The sats of all bitcoins. -/
def maxMoney : Nat := 2100000000000000

/-- A sat of an input goes to the output that holds its position when the outputs follow
each other in the order of the inputs. -/
theorem calcOutputSatpoint_firstInFirstOut (btc : BtcClient) (tx : Transaction)
    (values : List Nat) (h : Spends btc tx values) :
    (∀ i offset outpoint, tx.input[i]? = some outpoint → Holds values i offset →
      (∀ s, s.faults = [] →
        ∃ r, calcOutputSatpoint btc tx { outpoint, offset } s = .ok (some r) s) ∧
      ∀ s ret t, calcOutputSatpoint btc tx { outpoint, offset } s = .ok ret t →
        ∃ r, ret = some r ∧ FlowsTo tx (position values i offset) r ∧
          (r.address = none ↔ (outputValues tx).sum ≤ position values i offset)) ∧
    (∀ i offset outpoint i' offset' outpoint', tx.input[i]? = some outpoint →
      Holds values i offset → tx.input[i']? = some outpoint' → Holds values i' offset' →
      ∀ s r t s' r' t', calcOutputSatpoint btc tx { outpoint, offset } s = .ok (some r) t →
        calcOutputSatpoint btc tx { outpoint := outpoint', offset := offset' } s' =
          .ok (some r') t' →
        r.address.isSome → r.satpoint = r'.satpoint → i = i' ∧ offset = offset') ∧
    (values.sum ≤ maxMoney → (outputValues tx).sum ≤ maxMoney →
      ∀ i offset outpoint, tx.input[i]? = some outpoint → Holds values i offset →
        calcOutputSatpointU64 btc tx { outpoint, offset } =
          calcOutputSatpoint btc tx { outpoint, offset }) := by
  refine ⟨?_, ?_, ?_⟩
  · intro i offset outpoint hin hholds
    refine ⟨?_, ?_⟩
    · intro s hs
      refine ⟨_, calcOutputSatpoint_locatable hs ⟨List.mem_of_getElem? hin, ?_⟩⟩
      intro o ho
      exact h.known (List.mem_of_mem_take ho)
    · intro s ret t hrun
      exact ⟨_, h.calcOutputSatpoint_eq hin hrun, outputSatpoint_flowsTo tx _,
        outputSatpoint_address tx _⟩
  · intro i offset outpoint i' offset' outpoint' hin hholds hin' hholds' s r t s' r' t' hrun
      hrun' ha heq
    obtain rfl := Option.some.inj (h.calcOutputSatpoint_eq hin hrun)
    obtain rfl := Option.some.inj (h.calcOutputSatpoint_eq hin' hrun')
    exact hholds.position_inj hholds' ((outputSatpoint_flowsTo tx _).position_eq
      (outputSatpoint_flowsTo tx _) ha heq)
  · intro hin hout i offset outpoint hinput hholds
    have hlt := hholds.position_lt
    have hmax : maxMoney < 2 ^ 64 := by decide
    refine calcOutputSatpointU64_eq ?_ (by omega)
    rw [h.inputPosition_eq hinput]
    unfold position at hlt
    dsimp only
    omega

/-- Two inputs of 5 and 7 sats, and outputs of 4, 0 and 6 with a fee of 2. -/
def splitTx : Transaction :=
  { txid := 9, input := [⟨1, 0⟩, ⟨2, 0⟩], output := [⟨4, 70⟩, ⟨0, 71⟩, ⟨6, 72⟩], envelopes := [] }

def splitBtc : BtcClient where
  getTransaction _ := none
  getUtxo o := if o = ⟨1, 0⟩ then some 5 else if o = ⟨2, 0⟩ then some 7 else none

theorem calcOutputSatpoint_firstInFirstOut_split :
    calcOutputSatpointU64 splitBtc splitTx { outpoint := ⟨2, 0⟩, offset := 1 } =
      calcOutputSatpoint splitBtc splitTx { outpoint := ⟨2, 0⟩, offset := 1 } :=
  (calcOutputSatpoint_firstInFirstOut splitBtc splitTx [5, 7] ⟨by decide, by decide⟩).2.2
    (by decide) (by decide) 1 1 ⟨2, 0⟩ rfl ⟨7, rfl, by decide⟩

end Flow

end TxItem

end Usdb
