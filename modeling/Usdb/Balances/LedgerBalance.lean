import Mathlib.Algebra.Order.BigOperators.Group.List
import Mathlib.Algebra.Order.Group.Nat
import Mathlib.Algebra.Ring.Int.Defs
import Usdb.Balances.Ledger

namespace Usdb.Balances

open Framework Unspent

/-- What a script hash owns of an output. -/
def owned (scriptHash : USDBScriptHash) (value : UTXOValue) : Nat :=
  if value.scriptHash = scriptHash then value.value else 0

/-- The balance of a script hash: the sum of its outputs that are not spent. -/
def balanceOf (scriptHash : USDBScriptHash) (txs : List (Transfer OutPoint UTXOValue)) : Nat :=
  worth (owned scriptHash) txs

/-- At no time do all unspent outputs together reach `2^63`. -/
def Solvent (txs : List (Transfer OutPoint UTXOValue)) : Prop :=
  ∀ pre, pre <+: txs → worth (·.value) pre < 2 ^ 63

section Worth

variable {txs : List (Transfer OutPoint UTXOValue)} {tx : Transfer OutPoint UTXOValue}
  {scriptHash : USDBScriptHash}

theorem owned_le (scriptHash : USDBScriptHash) (value : UTXOValue) :
    owned scriptHash value ≤ value.value := by
  unfold owned
  split
  · exact Nat.le_refl _
  · exact Nat.zero_le _

theorem balanceOf_le (scriptHash : USDBScriptHash) (txs : List (Transfer OutPoint UTXOValue)) :
    balanceOf scriptHash txs ≤ worth (·.value) txs :=
  worth_le_worth (owned_le scriptHash) txs

theorem Solvent.balanceOf_lt (h : Solvent txs) (scriptHash : USDBScriptHash) :
    balanceOf scriptHash txs < 2 ^ 63 :=
  Nat.lt_of_le_of_lt (balanceOf_le scriptHash txs) (h txs (List.prefix_refl txs))

theorem Solvent.left {txs' : List (Transfer OutPoint UTXOValue)} (h : Solvent (txs ++ txs')) :
    Solvent txs :=
  fun pre hpre => h pre (hpre.trans (List.prefix_append txs txs'))

theorem spentValue_lt (h : WellSpent (txs ++ [tx])) (hs : Solvent txs) {value : UTXOValue}
    (hmem : value ∈ spentValues txs tx) : value.value < 2 ^ 63 := by
  have hle : value.value ≤ ((spentValues txs tx).map (·.value)).sum :=
    List.le_sum_of_mem (List.mem_map_of_mem hmem)
  have hspent := worth_spent_le h (·.value)
  have hbound := hs txs (List.prefix_refl txs)
  omega

theorem createdValue_lt (h : WellSpent (txs ++ [tx])) (hs : Solvent (txs ++ [tx]))
    {row : OutPoint × UTXOValue} (hmem : row ∈ tx.creates) : row.2.value < 2 ^ 63 := by
  have hrow : row ∈ leftOver (txs ++ [tx]) := by
    rw [leftOver_append_one h]
    exact List.mem_append_right _ hmem
  have hle : row.2.value ≤ worth (fun value : UTXOValue => value.value) (txs ++ [tx]) :=
    List.le_sum_of_mem (List.mem_map_of_mem (f := fun row : OutPoint × UTXOValue => row.2.value)
      hrow)
  have hbound := hs _ (List.prefix_refl _)
  omega

end Worth

section Changes

/-- The change of a script hash over a list of changes. -/
def netChange (scriptHash : USDBScriptHash) (changes : List (USDBScriptHash × Int)) : Int :=
  (changes.map (fun change => if change.1 = scriptHash then change.2 else 0)).sum

/-- The change that a history has for a script hash. -/
def changeOf (history : Table USDBScriptHash Int) (scriptHash : USDBScriptHash) : Int :=
  (history[scriptHash]?).getD 0

/-- The range of a signed 64-bit integer. -/
def InI64 (x : Int) : Prop := -(2 ^ 63) ≤ x ∧ x < 2 ^ 63

variable {history : Table USDBScriptHash Int} {changes changes' : List (USDBScriptHash × Int)}
  {scriptHash : USDBScriptHash}

theorem netChange_cons (change : USDBScriptHash × Int) (changes : List (USDBScriptHash × Int)) :
    netChange scriptHash (change :: changes) =
      (if change.1 = scriptHash then change.2 else 0) + netChange scriptHash changes :=
  List.sum_cons

theorem checkI64_of_inI64 {x : Int} (h : InI64 x) : checkI64 x = .ok x := if_pos h

theorem addDelta_inI64 {change : Int} (h : InI64 (changeOf history scriptHash + change)) :
    addDelta history scriptHash change =
      .ok (history.insert scriptHash (changeOf history scriptHash + change)) :=
  bind_eq_ok_iff.mpr ⟨_, checkI64_of_inI64 h, rfl⟩

/-- Changes that stay in range at every point add up. -/
theorem foldlM_addDelta
    (hrange : ∀ pre, pre <+: changes → ∀ scriptHash,
      InI64 (changeOf history scriptHash + netChange scriptHash pre)) :
    ∃ history', changes.foldlM (fun history change => addDelta history change.1 change.2) history =
        .ok history' ∧
      ∀ scriptHash, changeOf history' scriptHash =
        changeOf history scriptHash + netChange scriptHash changes := by
  induction changes generalizing history with
  | nil =>
    refine ⟨history, rfl, ?_⟩
    intro scriptHash
    exact (Int.add_zero _).symm
  | cons change changes ih =>
    have hfirst := hrange [change] (List.prefix_append [change] changes) change.1
    rw [netChange_cons, if_pos rfl, show netChange change.1 [] = 0 from rfl, Int.add_zero] at hfirst
    have hget : ∀ scriptHash, changeOf (history.insert change.1 (changeOf history change.1 +
        change.2)) scriptHash = changeOf history scriptHash +
          if change.1 = scriptHash then change.2 else 0 := by
      intro scriptHash
      unfold changeOf
      rw [Table.getElem?_put]
      by_cases heq : change.1 = scriptHash
      · subst heq
        simp
      · simp [heq]
    obtain ⟨history', hfold, hsum⟩ := @ih (history.insert change.1 (changeOf history change.1 +
      change.2)) (by
        intro pre hpre scriptHash
        have hall := hrange (change :: pre) (List.cons_prefix_cons.mpr ⟨rfl, hpre⟩) scriptHash
        rw [netChange_cons] at hall
        rw [hget, Int.add_assoc]
        exact hall)
    refine ⟨history', ?_, ?_⟩
    · rw [List.foldlM_cons]
      exact bind_eq_ok_iff.mpr ⟨_, addDelta_inI64 hfirst, hfold⟩
    · intro scriptHash
      rw [hsum, hget, netChange_cons, Int.add_assoc]

/-- The change by some values coming in. -/
theorem netChange_values (values : List UTXOValue) :
    netChange scriptHash (values.map (fun value => (value.scriptHash, (value.value : Int)))) =
      ((values.map (owned scriptHash)).sum : Nat) := by
  induction values with
  | nil => rfl
  | cons value values ih =>
    rw [List.map_cons, netChange_cons, ih, List.map_cons, List.sum_cons]
    unfold owned
    split <;> simp

/-- The change by some values going out. -/
theorem netChange_negValues (values : List UTXOValue) :
    netChange scriptHash (values.map (fun value => (value.scriptHash, -(value.value : Int)))) =
      -((values.map (owned scriptHash)).sum : Nat) := by
  induction values with
  | nil => rfl
  | cons value values ih =>
    rw [List.map_cons, netChange_cons, ih, List.map_cons, List.sum_cons]
    unfold owned
    split
    · push_cast
      omega
    · simp

theorem prefix_map {α β : Type} {f : α → β} {l : List α} {pre : List β} (h : pre <+: l.map f) :
    ∃ before, before <+: l ∧ pre = before.map f := by
  obtain ⟨rest, hrest⟩ := h
  obtain ⟨before, later, rfl, rfl, rfl⟩ := List.map_eq_append_iff.mp hrest.symm
  exact ⟨before, List.prefix_append before later, rfl⟩

theorem sum_prefix_le {f : UTXOValue → Nat} {pre values : List UTXOValue} (h : pre <+: values) :
    (pre.map f).sum ≤ (values.map f).sum := by
  obtain ⟨rest, rfl⟩ := h
  rw [List.map_append, List.sum_append]
  exact Nat.le_add_right _ _

end Changes

section Block

variable {before done later : List (Transfer OutPoint UTXOValue)} {tx : Transaction}
  {history : Table USDBScriptHash Int}

theorem foldlM_subtractVin {u u' : Unspent OutPoint UTXOValue} {own : List (OutPoint × UTXOValue)}
    {spends : List OutPoint}
    (hfind : ∀ outpoint ∈ spends, ∃ value, u' outpoint = some value ∧
      (own.lookup outpoint).or (u outpoint) = some value ∧ value.value < 2 ^ 63) :
    (spends.map (fun outpoint => fillVin u own ⟨outpoint, none, true⟩)).foldlM subtractVin history =
      ((spends.filterMap u').map (fun value => (value.scriptHash, -(value.value : Int)))).foldlM
        (fun history change => addDelta history change.1 change.2) history := by
  induction spends generalizing history with
  | nil => rfl
  | cons outpoint spends ih =>
    obtain ⟨value, hget, hlook, hlt⟩ := hfind outpoint (by simp)
    have hfirst : subtractVin history (fillVin u own ⟨outpoint, none, true⟩) =
        addDelta history value.scriptHash (-(value.value : Int)) := by
      unfold subtractVin fillVin
      dsimp only
      rw [hlook]
      dsimp only
      rw [asI64_of_lt hlt]
    rw [List.map_cons, List.foldlM_cons, hfirst, List.filterMap_cons_some hget, List.map_cons,
      List.foldlM_cons]
    congr 1
    funext history'
    exact ih (fun outpoint' hmem => hfind outpoint' (List.mem_cons_of_mem _ hmem))

theorem foldlM_addVout {vouts : List PreloadVOut}
    (hlt : ∀ vout ∈ vouts, vout.cacheTxOut.value < 2 ^ 63) :
    vouts.foldlM addVout history =
      ((vouts.map (·.cacheTxOut)).map (fun value => (value.scriptHash, (value.value : Int)))).foldlM
        (fun history change => addDelta history change.1 change.2) history := by
  induction vouts generalizing history with
  | nil => rfl
  | cons vout vouts ih =>
    have hfirst : addVout history vout =
        addDelta history vout.cacheTxOut.scriptHash (vout.cacheTxOut.value : Int) := by
      unfold addVout
      rw [asI64_of_lt (hlt vout (by simp))]
    rw [List.foldlM_cons, hfirst, List.map_cons, List.map_cons, List.foldlM_cons]
    congr 1
    funext history'
    exact ih (fun vout' hmem => hlt vout' (List.mem_cons_of_mem _ hmem))

/-- The values of a transaction's outputs, as the preloaded block lists them. -/
theorem preloadVouts_values (tx : Transaction) :
    (preloadVouts tx).map (·.cacheTxOut) = tx.transfer.creates.map (·.2) := by
  rw [← preloadVouts_creates, List.map_map]
  rfl

/-- One transaction moves the history of its block from the balances before it to those
after it, with every sum in range. -/
theorem txHistory_ok (h : WellSpent (before ++ (done ++ tx.transfer :: later)))
    (hs : Solvent (before ++ (done ++ tx.transfer :: later)))
    (hinv : ∀ scriptHash, changeOf history scriptHash =
      (balanceOf scriptHash (before ++ done) : Int) - balanceOf scriptHash before) :
    ∃ history', (do
        let history ← (fillTx (empty.afterAll before) (createdBy (done ++ tx.transfer :: later))
          (preprocessTx tx)).vin.foldlM subtractVin history
        (fillTx (empty.afterAll before) (createdBy (done ++ tx.transfer :: later))
          (preprocessTx tx)).vout.foldlM addVout history) = .ok history' ∧
      ∀ scriptHash, changeOf history' scriptHash =
        (balanceOf scriptHash (before ++ (done ++ [tx.transfer])) : Int) -
          balanceOf scriptHash before := by
  have hsplit : before ++ (done ++ tx.transfer :: later) =
      before ++ done ++ [tx.transfer] ++ later := by simp
  have hspent : WellSpent (before ++ done ++ [tx.transfer]) := by
    rw [hsplit] at h
    exact h.left
  have hsolvent : Solvent (before ++ done ++ [tx.transfer]) := by
    rw [hsplit] at hs
    exact hs.left
  have hstart : Solvent before := hsolvent.left.left
  have hmiddle : Solvent (before ++ done) := hsolvent.left
  have hmove := fun scriptHash => worth_append_one hspent (owned scriptHash)
  have hle := fun scriptHash => worth_spent_le hspent (owned scriptHash)
  -- the inputs take at most what the balances of the script hashes hold
  have hvins : (fillTx (empty.afterAll before) (createdBy (done ++ tx.transfer :: later))
      (preprocessTx tx)).vin = tx.transfer.spends.map (fun outpoint =>
        fillVin (empty.afterAll before) (createdBy (done ++ tx.transfer :: later))
          ⟨outpoint, none, true⟩) := by
    unfold fillTx
    rw [preprocessTx_vin, List.map_map]
    rfl
  obtain ⟨spent, hfold, hchange⟩ := @foldlM_addDelta history
    ((spentValues (before ++ done) tx.transfer).map
      (fun value => (value.scriptHash, -(value.value : Int)))) (by
      intro pre hpre scriptHash
      obtain ⟨values, hbefore, rfl⟩ := prefix_map hpre
      have hsum := sum_prefix_le (f := owned scriptHash) hbefore
      have hheld := hle scriptHash
      have hlow := hstart.balanceOf_lt scriptHash
      have hhigh := hmiddle.balanceOf_lt scriptHash
      rw [hinv, netChange_negValues]
      unfold InI64
      unfold balanceOf at *
      omega)
  have hvout : (fillTx (empty.afterAll before) (createdBy (done ++ tx.transfer :: later))
      (preprocessTx tx)).vout = preloadVouts tx := rfl
  obtain ⟨history', hfold', hchange'⟩ := @foldlM_addDelta spent
    ((tx.transfer.creates.map (·.2)).map
      (fun value => (value.scriptHash, (value.value : Int)))) (by
      intro pre hpre scriptHash
      obtain ⟨values, hbefore, rfl⟩ := prefix_map hpre
      have hsum := sum_prefix_le (f := owned scriptHash) hbefore
      rw [List.map_map] at hsum
      have hmoved := hmove scriptHash
      have hheld := hle scriptHash
      have hlow := hstart.balanceOf_lt scriptHash
      have hhigh := hsolvent.balanceOf_lt scriptHash
      have hcreated : ((tx.transfer.creates.map (owned scriptHash ∘ (·.2))).sum) =
        (tx.transfer.creates.map (fun row => owned scriptHash row.2)).sum := rfl
      rw [hchange, hinv, netChange_negValues, netChange_values]
      unfold InI64
      unfold balanceOf at *
      omega)
  refine ⟨history', ?_, ?_⟩
  · rw [hvins, hvout]
    refine bind_eq_ok_iff.mpr ⟨spent, Eq.trans (foldlM_subtractVin ?_) hfold,
      Eq.trans (foldlM_addVout ?_) ?_⟩
    · intro outpoint hmem
      obtain ⟨value, hget, hlook⟩ := h.lookup_spent hmem
      refine ⟨value, hget, hlook, spentValue_lt hspent hmiddle ?_⟩
      exact List.mem_filterMap.mpr ⟨outpoint, hmem, hget⟩
    · intro vout hmem
      have hrow : (vout.outpoint, vout.cacheTxOut) ∈ tx.transfer.creates := by
        rw [← preloadVouts_creates]
        exact List.mem_map_of_mem hmem
      exact createdValue_lt hspent hsolvent hrow
    · rw [preloadVouts_values]
      exact hfold'
  · intro scriptHash
    have hmoved := hmove scriptHash
    rw [hchange', hchange, hinv, netChange_negValues, netChange_values, List.map_map,
      ← List.append_assoc]
    have hcreated : ((tx.transfer.creates.map (owned scriptHash ∘ (·.2))).sum) =
      (tx.transfer.creates.map (fun row => owned scriptHash row.2)).sum := rfl
    unfold balanceOf
    omega

/-- The history of a block has the difference of the balances after and before it. -/
theorem blockHistory_ok {block : Block} (height : Nat)
    (h : WellSpent (before ++ block.transfers)) (hs : Solvent (before ++ block.transfers)) :
    ∃ history, blockHistory (fillBlock (empty.afterAll before) height block) = .ok history ∧
      ∀ scriptHash, changeOf history scriptHash =
        (balanceOf scriptHash (before ++ block.transfers) : Int) -
          balanceOf scriptHash before := by
  have hrun : ∀ (txs : List Transaction) (done : List (Transfer OutPoint UTXOValue))
      (history : Table USDBScriptHash Int),
      done ++ txs.map (·.transfer) = block.transfers →
      (∀ scriptHash, changeOf history scriptHash =
        (balanceOf scriptHash (before ++ done) : Int) - balanceOf scriptHash before) →
      ∃ history', (txs.map (fun tx => fillTx (empty.afterAll before) (createdBy block.transfers)
          (preprocessTx tx))).foldlM (fun history tx => do
            let history ← tx.vin.foldlM subtractVin history
            tx.vout.foldlM addVout history) history = .ok history' ∧
        ∀ scriptHash, changeOf history' scriptHash =
          (balanceOf scriptHash (before ++ block.transfers) : Int) -
            balanceOf scriptHash before := by
    intro txs
    induction txs with
    | nil =>
      intro done history hsplit hinv
      rw [List.map_nil, List.append_nil] at hsplit
      subst hsplit
      exact ⟨history, rfl, hinv⟩
    | cons tx txs ih =>
      intro done history hsplit hinv
      rw [List.map_cons] at hsplit
      obtain ⟨middle, hstep, hmiddle⟩ := txHistory_ok (by rw [hsplit]; exact h)
        (by rw [hsplit]; exact hs) hinv
      rw [hsplit] at hstep
      obtain ⟨history', hfold, hfinal⟩ := ih (done ++ [tx.transfer]) middle
        (by rw [← hsplit, List.append_assoc]; rfl) hmiddle
      refine ⟨history', ?_, hfinal⟩
      rw [List.map_cons, List.foldlM_cons]
      exact bind_eq_ok_iff.mpr ⟨middle, hstep, hfold⟩
  have hblock : (fillBlock (empty.afterAll before) height block).txdata =
      block.txdata.map (fun tx => fillTx (empty.afterAll before) (createdBy block.transfers)
        (preprocessTx tx)) := by
    unfold fillBlock preprocessBlock
    rw [List.map_map]
    rfl
  unfold blockHistory
  rw [hblock]
  apply hrun block.txdata [] ∅
  · rfl
  · intro scriptHash
    rw [List.append_nil, Int.sub_self]
    rfl

/-- The entries of a block after some transactions: where they are, what the balances are
after it and how they change, and that all other balances stay. -/
structure BlockEntries (before own : List (Transfer OutPoint UTXOValue)) (height : Nat)
    (entries : List BalanceHistoryEntry) : Prop where
  height_eq : ∀ entry ∈ entries, entry.blockHeight = height
  balance_eq : ∀ entry ∈ entries, entry.balance = balanceOf entry.scriptHash (before ++ own)
  delta_eq : ∀ entry ∈ entries, entry.delta =
    (balanceOf entry.scriptHash (before ++ own) : Int) - balanceOf entry.scriptHash before
  complete : ∀ scriptHash, scriptHash ∉ entries.map (·.scriptHash) →
    balanceOf scriptHash (before ++ own) = balanceOf scriptHash before

theorem settleChange_ok {balances : BalanceMap} {height after : Nat}
    {change : USDBScriptHash × Int} (hcur : (balances change.1).balance < 2 ^ 63)
    (hafter : after < 2 ^ 63) (hchange : change.2 = (after : Int) - (balances change.1).balance) :
    settleChange height balances change = .ok ⟨change.1, height, change.2, after⟩ := by
  have hsum : asI64 (balances change.1).balance + change.2 = after := by
    rw [asI64_of_lt hcur, hchange]
    omega
  unfold settleChange
  rw [hsum]
  refine bind_eq_ok_iff.mpr ⟨after, checkI64_of_inI64 ⟨by omega, by omega⟩, ?_⟩
  exact if_neg (by omega)

/-- What a block does depends on the balances alone, not on the rows they are from. -/
theorem ledgerBlocks_congr {balances balances' : BalanceMap}
    (h : ∀ scriptHash, (balances scriptHash).balance = (balances' scriptHash).balance)
    (blocks : List PreloadBlock) : ledgerBlocks balances blocks = ledgerBlocks balances' blocks := by
  have hblock : ∀ {balances balances' : BalanceMap} (block : PreloadBlock),
      (∀ scriptHash, (balances scriptHash).balance = (balances' scriptHash).balance) →
        ledgerBlock balances block = ledgerBlock balances' block := by
    intro balances balances' block h
    have hsettle : settleChange block.height balances = settleChange block.height balances' := by
      funext change
      unfold settleChange
      rw [h]
    unfold ledgerBlock
    rw [hsettle]
  induction blocks generalizing balances balances' with
  | nil => rfl
  | cons block blocks ih =>
    rw [ledgerBlocks, ledgerBlocks, hblock block h]
    apply bind_congr
    intro delta
    rw [ih]
    intro scriptHash
    unfold BalanceMap.settle
    cases (balanceRows delta.entries).lookup scriptHash with
    | some data => rfl
    | none => exact h scriptHash

/-- Over the balances of some transactions, a block leaves the balances after its own. -/
theorem ledgerBlock_exact {block : Block} (height : Nat) {balances : BalanceMap}
    (h : WellSpent (before ++ block.transfers)) (hs : Solvent (before ++ block.transfers))
    (hbal : ∀ scriptHash, (balances scriptHash).balance = balanceOf scriptHash before) :
    ∃ delta, ledgerBlock balances (fillBlock (empty.afterAll before) height block) = .ok delta ∧
      BlockEntries before block.transfers height delta.entries := by
  obtain ⟨history, hhistory, hchange⟩ := blockHistory_ok height h hs
  have hget : ∀ change ∈ history.toList, change.2 =
      (balanceOf change.1 (before ++ block.transfers) : Int) - balanceOf change.1 before := by
    intro change hmem
    rw [← hchange]
    unfold changeOf
    rw [Table.mem_toList.mp hmem]
    rfl
  have hsettle : history.toList.mapM (settleChange height balances) =
      .ok (history.toList.map (fun change =>
        ⟨change.1, height, change.2, balanceOf change.1 (before ++ block.transfers)⟩)) := by
    apply mapM_eq_map
    intro change hmem
    apply settleChange_ok
    · rw [hbal]
      exact hs.left.balanceOf_lt change.1
    · exact hs.balanceOf_lt change.1
    · rw [hbal]
      exact hget change hmem
  have hledger : ledgerBlock balances (fillBlock (empty.afterAll before) height block) =
      .ok ⟨height, block.blockHash, history.toList.map (fun change =>
        ⟨change.1, height, change.2, balanceOf change.1 (before ++ block.transfers)⟩)⟩ :=
    bind_eq_ok_iff.mpr ⟨history, hhistory, bind_eq_ok_iff.mpr ⟨_, hsettle, rfl⟩⟩
  refine ⟨_, hledger, ?_, ?_, ?_, ?_⟩
  · intro entry hmem
    obtain ⟨change, -, rfl⟩ := List.mem_map.mp hmem
    rfl
  · intro entry hmem
    obtain ⟨change, -, rfl⟩ := List.mem_map.mp hmem
    rfl
  · intro entry hmem
    obtain ⟨change, hrow, rfl⟩ := List.mem_map.mp hmem
    exact hget change hrow
  · intro scriptHash hnot
    have hnone : history[scriptHash]? = none := by
      cases hrow : history[scriptHash]? with
      | none => rfl
      | some change =>
        refine absurd (List.mem_map.mpr ⟨_, List.mem_map_of_mem (Table.mem_toList.mpr hrow), ?_⟩)
          hnot
        rfl
    have hzero := hchange scriptHash
    unfold changeOf at hzero
    rw [hnone, Option.getD_none] at hzero
    omega

theorem BlockEntries.settle {own : List (Transfer OutPoint UTXOValue)} {height : Nat}
    {entries : List BalanceHistoryEntry} {balances : BalanceMap}
    (h : BlockEntries before own height entries)
    (hbal : ∀ scriptHash, (balances scriptHash).balance = balanceOf scriptHash before)
    (scriptHash : USDBScriptHash) :
    (balances.settle entries scriptHash).balance = balanceOf scriptHash (before ++ own) := by
  unfold BalanceMap.settle
  cases hlook : (balanceRows entries).lookup scriptHash with
  | some data =>
    obtain ⟨entry, hmem, heq⟩ := List.mem_map.mp (Table.mem_of_lookup hlook)
    cases heq
    exact h.balance_eq entry hmem
  | none =>
    rw [Table.lookup_eq_none] at hlook
    unfold balanceRows at hlook
    rw [List.map_map] at hlook
    rw [Option.getD_none, hbal, h.complete scriptHash hlook]

end Block

end Usdb.Balances
