import Usdb.Index.World

namespace Usdb

open Framework InscriptionTransferTracker

namespace TxItem

def inputValues (btc : BtcClient) (inputs : List OutPoint) : Nat :=
  (inputs.map (fun o => (btc.getUtxo o).getD 0)).sum

theorem sumInputValues_known (btc : BtcClient) (pos : Nat) (inputs : List OutPoint)
    (s : IndexerState) (hs : s.faults = []) (hk : ∀ o ∈ inputs, (btc.getUtxo o).isSome) :
    sumInputValues btc pos inputs s = .ok (pos + inputValues btc inputs) s := by
  induction inputs generalizing pos with
  | nil => simp [sumInputValues, inputValues]; rfl
  | cons o rest ih =>
    obtain ⟨v, hv⟩ := Option.isSome_iff_exists.mp (hk o (by simp))
    unfold sumInputValues
    rw [bind_ok (io_of_no_faults s hs)]
    simp only [hv]
    rw [ih (pos + v) (fun o' ho' => hk o' (by simp [ho']))]
    simp only [inputValues, List.map_cons, List.sum_cons, hv, Option.getD_some]
    rw [Nat.add_assoc]

end TxItem

namespace InscriptionIndexer

/-- The reveal transaction of an inscription and the output its envelope's input
spends. -/
def Reveals (btc : BtcClient) (id : InscriptionId) (tx : Transaction) (commit : OutPoint) : Prop :=
  btc.getTransaction id.txid = some tx ∧
    ∃ envelope, tx.envelopes[id.index]? = some envelope ∧ tx.input[envelope.input]? = some commit

/-- The node knows the reveal transaction and the outputs it spends. -/
def RevealKnown (btc : BtcClient) (id : InscriptionId) : Prop :=
  ∃ tx commit, Reveals btc id tx commit ∧ ∀ o ∈ tx.input, (btc.getUtxo o).isSome

/-- The position of the first sat of an input among the inputs. -/
def inputPosition (btc : BtcClient) (tx : Transaction) (commit : OutPoint) : Nat :=
  TxItem.inputValues btc (tx.input.take (tx.input.findIdx (fun o => o = commit)))

/-- The inscribed sat of the reveal lies below the total output value, so that it
goes to an output and not to the fee. -/
def PaidToOutput (btc : BtcClient) (id : InscriptionId) : Prop :=
  ∃ tx commit, Reveals btc id tx commit ∧
    inputPosition btc tx commit < (tx.output.map (·.value)).sum

theorem calcCreateSatpoint_known (btc : BtcClient) (id : InscriptionId) (s : IndexerState)
    (hs : s.faults = []) (hk : RevealKnown btc id) :
    ∃ info, calcCreateSatpoint btc id s = .ok info s ∧
      (info.address.isSome ↔ PaidToOutput btc id) := by
  obtain ⟨tx, commit, hr, hu⟩ := hk
  have hr' := hr
  obtain ⟨htx, envelope, henv, hin⟩ := hr'
  have hidx : tx.input.findIdx? (fun v => v = commit) =
      some (tx.input.findIdx (fun o => o = commit)) := by
    rw [List.findIdx?_eq_some_iff_findIdx_eq]
    exact ⟨List.findIdx_lt_length_of_exists ⟨_, List.mem_of_getElem? hin, by simp⟩, rfl⟩
  have hsum := TxItem.sumInputValues_known btc 0
    (tx.input.take (tx.input.findIdx (fun o => o = commit))) s hs
    (fun o ho => hu o (List.mem_of_mem_take ho))
  have hcalc : TxItem.calcOutputSatpoint btc tx { outpoint := commit, offset := 0 } s =
      .ok (some (TxItem.outputSatpoint tx (inputPosition btc tx commit))) s := by
    unfold TxItem.calcOutputSatpoint
    simp only [hidx]
    rw [bind_ok hsum]
    simp only [Nat.zero_add, Nat.add_zero]
    rfl
  refine ⟨{ satpoint := (TxItem.outputSatpoint tx (inputPosition btc tx commit)).satpoint
            value := (TxItem.outputSatpoint tx (inputPosition btc tx commit)).value
            address := (TxItem.outputSatpoint tx (inputPosition btc tx commit)).address
            commitTxid := commit.txid, commitOutpoint := commit }, ?_, ?_⟩
  · unfold calcCreateSatpoint
    rw [bind_ok (io_of_no_faults s hs)]
    simp only [htx, henv, hin]
    rw [bind_ok hcalc]
    rfl
  · have ha := TxItem.outputSatpoint_address tx (inputPosition btc tx commit)
    rw [Option.isSome_iff_ne_none, ne_eq, ha, Nat.not_le]
    constructor
    · intro h
      exact ⟨tx, commit, hr, h⟩
    · rintro ⟨tx', commit', ⟨htx', envelope', henv', hin'⟩, hlt⟩
      rw [htx] at htx'
      cases htx'
      rw [henv] at henv'
      cases henv'
      rw [hin] at hin'
      cases hin'
      exact hlt

theorem loadMints_ok_iff {α β : Type} (btc : BtcClient) (inscriptionId : α → InscriptionId)
    (noAddress : α → IndexerError) (build : α → InscriptionCreateInfo → USDBScriptHash → β)
    (mints : List α) (s : IndexerState) (hs : s.faults = [])
    (hk : ∀ m ∈ mints, RevealKnown btc (inscriptionId m)) :
    (∃ built, loadMints btc inscriptionId noAddress build mints s = .ok built s) ↔
      ∀ m ∈ mints, PaidToOutput btc (inscriptionId m) := by
  induction mints with
  | nil => exact iff_of_true ⟨[], rfl⟩ (fun m hm => by cases hm)
  | cons mint rest ih =>
    obtain ⟨info, hinfo, haddr⟩ := calcCreateSatpoint_known btc (inscriptionId mint) s hs
      (hk mint (by simp))
    have ih' := ih (fun m hm => hk m (by simp [hm]))
    unfold loadMints
    rw [bind_ok hinfo]
    simp only [List.mem_cons, forall_eq_or_imp, ← haddr, ← ih']
    cases ha : info.address with
    | none =>
      constructor
      · rintro ⟨built, hc⟩
        cases hc
      · intro h
        cases h.1
    | some address =>
      constructor
      · rintro ⟨built, hc⟩
        obtain ⟨others, t, ho, hret⟩ := bind_eq_ok hc
        cases hret
        exact ⟨rfl, others, ho⟩
      · rintro ⟨-, others, ho⟩
        exact ⟨_, bind_ok ho⟩

/-- A loader that succeeds leaves the state as it was when no call fails. -/
theorem loadMints_keeps {α β : Type} (btc : BtcClient) (inscriptionId : α → InscriptionId)
    (noAddress : α → IndexerError) (build : α → InscriptionCreateInfo → USDBScriptHash → β)
    (mints : List α) (s t : IndexerState) (hs : s.faults = [])
    (hk : ∀ m ∈ mints, RevealKnown btc (inscriptionId m)) (built : List β)
    (h : loadMints btc inscriptionId noAddress build mints s = .ok built t) : t = s := by
  induction mints generalizing built with
  | nil =>
    cases h
    rfl
  | cons mint rest ih =>
    obtain ⟨info, hinfo, -⟩ := calcCreateSatpoint_known btc (inscriptionId mint) s hs
      (hk mint (by simp))
    unfold loadMints at h
    rw [bind_ok hinfo] at h
    cases ha : info.address with
    | none =>
      rw [ha] at h
      cases h
    | some address =>
      rw [ha] at h
      obtain ⟨others, u, ho, hret⟩ := bind_eq_ok h
      cases hret
      exact ih (fun m hm => hk m (by simp [hm])) others ho

/-- The ids of the USDB mints a source lists for a block, valid or not. -/
def discoveredMintIds (blockHeight : Nat) (inscriptions : List DiscoveredInscription) :
    List InscriptionId :=
  let batch := classifyUsdbMintsFromInscriptions blockHeight inscriptions
  batch.validMints.map (·.inscriptionId) ++ batch.invalidMints.map (·.inscriptionId)

/-- With the node answering every call, the mints of a block are collected exactly
when no inscribed sat is spent as fee. -/
theorem collectBlockInscriptionMints_ok_iff (env : BlockEnv) (blockHeight : Nat)
    (s : IndexerState) (noFaults : s.faults = [])
    (known : ∀ id ∈ discoveredMintIds blockHeight env.inscriptions, RevealKnown env.btc id) :
    (∃ items t, collectBlockInscriptionMints env blockHeight s = .ok items t) ↔
      ∀ id ∈ discoveredMintIds blockHeight env.inscriptions, PaidToOutput env.btc id := by
  have hvalid : ∀ m ∈ (classifyUsdbMintsFromInscriptions blockHeight env.inscriptions).validMints,
      RevealKnown env.btc m.inscriptionId := fun m hm =>
    known _ (List.mem_append_left _ (List.mem_map_of_mem hm))
  have hinvalid : ∀ m ∈
      (classifyUsdbMintsFromInscriptions blockHeight env.inscriptions).invalidMints,
      RevealKnown env.btc m.inscriptionId := fun m hm =>
    known _ (List.mem_append_right _ (List.mem_map_of_mem hm))
  have hv : (∃ candidates, loadCandidates env.btc blockHeight _ s = .ok candidates s) ↔ _ :=
    loadMints_ok_iff env.btc _ _ _ _ s noFaults hvalid
  have hi : (∃ items, loadInvalidItems env.btc blockHeight _ s = .ok items s) ↔ _ :=
    loadMints_ok_iff env.btc _ _ _ _ s noFaults hinvalid
  simp only [discoveredMintIds, List.forall_mem_append, List.forall_mem_map]
  constructor
  · rintro ⟨items, t, h⟩
    unfold collectBlockInscriptionMints at h
    rw [bind_ok (io_of_no_faults s noFaults)] at h
    obtain ⟨candidates, u, hc, hrest⟩ := bind_eq_ok h
    have hu : u = s := loadMints_keeps _ _ _ _ _ _ _ noFaults hvalid _ hc
    subst hu
    obtain ⟨invalid, v, hinv, -⟩ := bind_eq_ok hrest
    have hw : v = u := loadMints_keeps _ _ _ _ _ _ _ noFaults hinvalid _ hinv
    subst hw
    exact ⟨hv.mp ⟨candidates, hc⟩, hi.mp ⟨invalid, hinv⟩⟩
  · rintro ⟨hpv, hpi⟩
    obtain ⟨candidates, hc⟩ := hv.mpr hpv
    obtain ⟨invalid, hinv⟩ := hi.mpr hpi
    unfold collectBlockInscriptionMints
    rw [bind_ok (io_of_no_faults s noFaults), bind_ok hc, bind_ok hinv]
    exact ⟨_, s, rfl⟩

/-- A node that knows one reveal transaction, whose only output has the given value. -/
def revealClient (outputValue : Nat) : BtcClient where
  getTransaction := fun txid =>
    if txid = 7 then
      some { txid := 7, input := [{ txid := 5, vout := 0 }]
             output := [{ value := outputValue, scriptHash := 9 }], envelopes := [{ input := 0 }] }
    else none
  getUtxo := fun outpoint => if outpoint = { txid := 5, vout := 0 } then some 1000 else none

/-- A block with one mint, revealed by that transaction. -/
def revealEnv (outputValue : Nat) : BlockEnv where
  blockHint := some { txdata := [] }
  inscriptions := [{ inscriptionId := { txid := 7, index := 0 }, inscriptionNumber := 0
                     timestamp := 0, satpoint := none
                     content := some (.Valid
                       { ethMain := "0x1111111111111111111111111111111111111111"
                         ethCollab := none, prev := [] }) }]
  btc := revealClient outputValue
  provider := BalanceHistory.empty.provider
  upstreamCommit := none

theorem revealEnv_known (outputValue : Nat) :
    ∀ id ∈ discoveredMintIds 1 (revealEnv outputValue).inscriptions,
      RevealKnown (revealEnv outputValue).btc id := by
  intro id hid
  obtain rfl : id = { txid := 7, index := 0 } := by
    simpa [discoveredMintIds, classifyUsdbMintsFromInscriptions, revealEnv] using hid
  refine ⟨_, { txid := 5, vout := 0 }, ⟨rfl, { input := 0 }, rfl, rfl⟩, ?_⟩
  intro o ho
  obtain rfl : o = { txid := 5, vout := 0 } := by simpa using ho
  rfl

/-- An inscribed sat paid to an output is collected. -/
theorem collectBlockInscriptionMints_paid :
    ∃ items t, collectBlockInscriptionMints (revealEnv 600) 1 .empty = .ok items t := by
  refine (collectBlockInscriptionMints_ok_iff (revealEnv 600) 1 .empty rfl
    (revealEnv_known 600)).mpr ?_
  intro id hid
  obtain rfl : id = { txid := 7, index := 0 } := by
    simpa [discoveredMintIds, classifyUsdbMintsFromInscriptions, revealEnv] using hid
  exact ⟨_, { txid := 5, vout := 0 }, ⟨rfl, { input := 0 }, rfl, rfl⟩, by decide⟩

/-- A reveal transaction whose only output is a zero-value one gives its whole input
to the fee, and the block that holds it is refused. -/
theorem collectBlockInscriptionMints_fee_spent :
    ¬∀ (env : BlockEnv) (blockHeight : Nat) (s : IndexerState), s.faults = [] →
      (∀ id ∈ discoveredMintIds blockHeight env.inscriptions, RevealKnown env.btc id) →
      ∃ items t, collectBlockInscriptionMints env blockHeight s = .ok items t := by
  intro h
  obtain ⟨items, t, hok⟩ := h (revealEnv 0) 1 .empty rfl (revealEnv_known 0)
  have herr : collectBlockInscriptionMints (revealEnv 0) 1 .empty =
      .error (.noCreatorAddress { txid := 7, index := 0 } 1) .empty := rfl
  rw [herr] at hok
  cases hok

end InscriptionIndexer

end Usdb
