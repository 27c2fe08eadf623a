import Usdb.Balances.BatchFill

namespace Usdb.Balances

open Framework BalanceHistoryDB

/-- The latest balance of every script hash. -/
abbrev BalanceMap := USDBScriptHash → BalanceHistoryData

def BalanceMap.zero : BalanceMap := fun _ => ⟨0, 0, 0⟩

def balanceRows (entries : List BalanceHistoryEntry) :
    List (USDBScriptHash × BalanceHistoryData) :=
  entries.map (fun entry => (entry.scriptHash, ⟨entry.blockHeight, entry.delta, entry.balance⟩))

/-- The balances after the entries of a block. -/
def BalanceMap.settle (balances : BalanceMap) (entries : List BalanceHistoryEntry) : BalanceMap :=
  fun scriptHash => ((balanceRows entries).lookup scriptHash).getD (balances scriptHash)

def BalanceMap.settleAll (balances : BalanceMap) (deltas : List BlockBalanceDelta) : BalanceMap :=
  deltas.foldl (fun balances delta => balances.settle delta.entries) balances

/-- The entry of a script hash, over a balance that is always known. -/
def settleChange (height : Nat) (balances : BalanceMap) (change : USDBScriptHash × Int) :
    Except BalanceHistoryError BalanceHistoryEntry := do
  let balance ← checkI64 (asI64 (balances change.1).balance + change.2)
  if balance < 0 then .error .panic
  else .ok ⟨change.1, height, change.2, balance.toNat⟩

/-- What a block does to the balances. -/
def ledgerBlock (balances : BalanceMap) (block : PreloadBlock) :
    Except BalanceHistoryError BlockBalanceDelta := do
  let history ← blockHistory block
  let entries ← history.toList.mapM (settleChange block.height balances)
  return ⟨block.height, block.blockHash, entries⟩

/-- What blocks do to the balances, one after the other. -/
def ledgerBlocks : BalanceMap → List PreloadBlock →
    Except BalanceHistoryError (List BlockBalanceDelta)
  | _, [] => .ok []
  | balances, block :: blocks => do
    let delta ← ledgerBlock balances block
    let deltas ← ledgerBlocks (balances.settle delta.entries) blocks
    return delta :: deltas

section Ledger

variable {balances : BalanceMap} {block : PreloadBlock} {blocks blocks' : List PreloadBlock}
  {delta : BlockBalanceDelta} {deltas : List BlockBalanceDelta}

theorem ledgerBlocks_cons_ok :
    ledgerBlocks balances (block :: blocks) = .ok deltas ↔
      ∃ delta rest, ledgerBlock balances block = .ok delta ∧
        ledgerBlocks (balances.settle delta.entries) blocks = .ok rest ∧
        deltas = delta :: rest := by
  rw [ledgerBlocks, bind_eq_ok_iff]
  constructor
  · rintro ⟨delta, hdelta, h⟩
    obtain ⟨rest, hrest, h⟩ := bind_eq_ok_iff.mp h
    cases h
    exact ⟨delta, rest, hdelta, hrest, rfl⟩
  · rintro ⟨delta, rest, hdelta, hrest, rfl⟩
    exact ⟨delta, hdelta, bind_eq_ok_iff.mpr ⟨rest, hrest, rfl⟩⟩

theorem ledgerBlocks_append_ok :
    ledgerBlocks balances (blocks ++ blocks') = .ok deltas ↔
      ∃ first rest, ledgerBlocks balances blocks = .ok first ∧
        ledgerBlocks (balances.settleAll first) blocks' = .ok rest ∧ deltas = first ++ rest := by
  induction blocks generalizing balances deltas with
  | nil =>
    constructor
    · intro h
      exact ⟨[], deltas, rfl, h, rfl⟩
    · rintro ⟨first, rest, hfirst, hrest, rfl⟩
      cases hfirst
      exact hrest
  | cons block blocks ih =>
    rw [List.cons_append, ledgerBlocks_cons_ok]
    constructor
    · rintro ⟨delta, rest, hdelta, hrest, rfl⟩
      obtain ⟨first, later, hfirst, hlater, rfl⟩ := ih.mp hrest
      exact ⟨delta :: first, later, ledgerBlocks_cons_ok.mpr ⟨delta, first, hdelta, hfirst, rfl⟩,
        hlater, rfl⟩
    · rintro ⟨first, later, hfirst, hlater, rfl⟩
      obtain ⟨delta, rest, hdelta, hrest, rfl⟩ := ledgerBlocks_cons_ok.mp hfirst
      exact ⟨delta, rest ++ later, hdelta, ih.mpr ⟨rest, later, hrest, hlater, rfl⟩, rfl⟩

theorem ledgerBlock_ok (h : ledgerBlock balances block = .ok delta) :
    ∃ history, blockHistory block = .ok history ∧
      history.toList.mapM (settleChange block.height balances) = .ok delta.entries ∧
      delta.blockHeight = block.height ∧ delta.blockHash = block.blockHash := by
  unfold ledgerBlock at h
  obtain ⟨history, hhistory, h⟩ := bind_eq_ok_iff.mp h
  obtain ⟨entries, hentries, h⟩ := bind_eq_ok_iff.mp h
  cases h
  exact ⟨history, hhistory, hentries, rfl, rfl⟩

theorem ledgerBlocks_ids (h : ledgerBlocks balances blocks = .ok deltas) :
    deltas.map (fun delta => (delta.blockHeight, delta.blockHash)) =
      blocks.map (fun block => (block.height, block.blockHash)) := by
  induction blocks generalizing balances deltas with
  | nil =>
    cases h
    rfl
  | cons block blocks ih =>
    obtain ⟨delta, rest, hdelta, hrest, rfl⟩ := ledgerBlocks_cons_ok.mp h
    obtain ⟨-, -, -, hheight, hhash⟩ := ledgerBlock_ok hdelta
    rw [List.map_cons, List.map_cons, ih hrest, hheight, hhash]

end Ledger

section Simulation

variable {balances : BalanceMap} {block : PreloadBlock} {blocks : List PreloadBlock}
  {t t' : Table USDBScriptHash BalanceHistoryData} {scripts : List USDBScriptHash}
  {deltas : List BlockBalanceDelta}

/-- The table has the balances of these script hashes. -/
def Covers (scripts : List USDBScriptHash) (t : Table USDBScriptHash BalanceHistoryData)
    (balances : BalanceMap) : Prop :=
  ∀ scriptHash ∈ scripts, t[scriptHash]? = some (balances scriptHash)

theorem Covers.settle (h : Covers scripts t balances) {entries : List BalanceHistoryEntry}
    (hn : (entries.map (·.scriptHash)).Nodup) :
    Covers scripts (t.insertMany (balanceRows entries)) (balances.settle entries) := by
  intro scriptHash hmem
  have hn' : ((balanceRows entries).map (·.1)).Nodup := by
    unfold balanceRows
    rw [List.map_map]
    exact hn
  unfold BalanceMap.settle
  rw [Table.getElem?_insertMany_lookup hn', h scriptHash hmem]
  cases (balanceRows entries).lookup scriptHash <;> rfl

theorem addDelta_ok {history history' : Table USDBScriptHash Int} {scriptHash : USDBScriptHash}
    {change : Int} (h : addDelta history scriptHash change = .ok history') :
    checkI64 ((history[scriptHash]?).getD 0 + change) =
        .ok ((history[scriptHash]?).getD 0 + change) ∧
      history' = history.insert scriptHash ((history[scriptHash]?).getD 0 + change) := by
  unfold addDelta at h
  obtain ⟨delta, hcheck, h⟩ := bind_eq_ok_iff.mp h
  cases h
  unfold checkI64 at hcheck ⊢
  split at hcheck
  · rename_i hin
    cases hcheck
    exact ⟨if_pos hin, rfl⟩
  · cases hcheck

/-- Only script hashes of the inputs and outputs of the block have a change. -/
def TouchesOnly (block : PreloadBlock) (history : Table USDBScriptHash Int) : Prop :=
  ∀ scriptHash change, history[scriptHash]? = some change → scriptHash ∈ touchedScripts block

theorem TouchesOnly.addDelta {history history' : Table USDBScriptHash Int}
    {touched : USDBScriptHash} {change : Int} (h : TouchesOnly block history)
    (ht : touched ∈ touchedScripts block)
    (hadd : Balances.addDelta history touched change = .ok history') :
    TouchesOnly block history' := by
  obtain ⟨-, rfl⟩ := addDelta_ok hadd
  intro scriptHash change' hget
  rw [Table.getElem?_put] at hget
  split at hget
  · rename_i heq
    exact heq ▸ ht
  · exact h scriptHash change' hget

theorem blockHistory_touched {history : Table USDBScriptHash Int}
    (h : blockHistory block = .ok history) : TouchesOnly block history := by
  refine foldlM_ok (P := TouchesOnly block) h ?_ ?_
  · intro scriptHash change hget
    cases hget
  · intro history tx htx history' hold hstep
    obtain ⟨middle, hvin, hvout⟩ := bind_eq_ok_iff.mp hstep
    refine foldlM_ok (P := TouchesOnly block) hvout (foldlM_ok hvin hold ?_) ?_
    · intro history vin hmem history' hold hstep
      unfold subtractVin at hstep
      cases hcache : vin.cacheTxOut with
      | none =>
        rw [hcache] at hstep
        cases hstep
      | some vout =>
        rw [hcache] at hstep
        refine hold.addDelta (List.mem_flatMap.mpr ⟨tx, htx, List.mem_append_left _ ?_⟩) hstep
        exact List.mem_filterMap.mpr ⟨vin, hmem, by rw [hcache]; rfl⟩
    · intro history vout hmem history' hold hstep
      exact hold.addDelta (List.mem_flatMap.mpr ⟨tx, htx, List.mem_append_right _
        (List.mem_map_of_mem hmem)⟩) hstep

theorem settleEntry_covered (hc : Covers scripts t balances) {height : Nat}
    {change : USDBScriptHash × Int} (hmem : change.1 ∈ scripts) :
    settleEntry height t change = settleChange height balances change := by
  unfold settleEntry settleChange
  rw [hc change.1 hmem]

theorem processBlock_covered (hc : Covers scripts t balances)
    (ht : ∀ scriptHash ∈ touchedScripts block, scriptHash ∈ scripts) :
    processBlock t block = (ledgerBlock balances block).map (fun delta =>
      (delta, t.insertMany (balanceRows delta.entries))) := by
  unfold processBlock ledgerBlock
  cases hh : blockHistory block with
  | error e => rfl
  | ok history =>
    have hsettle : history.toList.mapM (settleEntry block.height t) =
        history.toList.mapM (settleChange block.height balances) := by
      refine mapM_congr (fun change hmem => settleEntry_covered hc (ht _ ?_))
      exact blockHistory_touched hh change.1 change.2 (Table.mem_toList.mp hmem)
    show (history.toList.mapM (settleEntry block.height t) >>= _) = _
    rw [hsettle]
    show _ = (history.toList.mapM (settleChange block.height balances) >>= _).map _
    cases history.toList.mapM (settleChange block.height balances) <;> rfl

theorem ledgerBlock_nodup {delta : BlockBalanceDelta} (h : ledgerBlock balances block = .ok delta) :
    (delta.entries.map (·.scriptHash)).Nodup := by
  obtain ⟨history, -, hentries, -⟩ := ledgerBlock_ok h
  have hkeys : delta.entries.map (·.scriptHash) = history.toList.map (·.1) := by
    refine map_of_mapM_ok hentries (fun change entry hsettle => ?_)
    unfold settleChange at hsettle
    obtain ⟨balance, -, hsettle⟩ := bind_eq_ok_iff.mp hsettle
    split at hsettle
    · cases hsettle
    · cases hsettle
      rfl
  rw [hkeys]
  exact Table.toList_keys_nodup history

/-- Over a table with the balances of the script hashes they touch, blocks do to it what
they do to the balances of all script hashes. -/
theorem processBlocksOf_covered (hc : Covers scripts t balances)
    (ht : ∀ block ∈ blocks, ∀ scriptHash ∈ touchedScripts block, scriptHash ∈ scripts) :
    (∀ deltas t', processBlocksOf blocks t = .ok (deltas, t') →
        ledgerBlocks balances blocks = .ok deltas ∧ Covers scripts t' (balances.settleAll deltas)) ∧
      (∀ deltas, ledgerBlocks balances blocks = .ok deltas →
        ∃ t', processBlocksOf blocks t = .ok (deltas, t')) := by
  induction blocks generalizing balances t with
  | nil =>
    constructor
    · intro deltas t' h
      cases h
      exact ⟨rfl, hc⟩
    · intro deltas h
      cases h
      exact ⟨t, rfl⟩
  | cons block blocks ih =>
    have hblock := processBlock_covered hc (ht block (by simp))
    have hrest := fun block' hmem => ht block' (List.mem_cons_of_mem block hmem)
    constructor
    · intro deltas t' h
      obtain ⟨delta, middle, rest, hb, hr, rfl⟩ := processBlocksOf_cons_ok h
      rw [hblock] at hb
      cases hl : ledgerBlock balances block with
      | error e =>
        rw [hl] at hb
        cases hb
      | ok delta' =>
        rw [hl] at hb
        cases hb
        obtain ⟨hledger, hcovers⟩ :=
          (ih (hc.settle (ledgerBlock_nodup hl)) hrest).1 rest t' hr
        exact ⟨ledgerBlocks_cons_ok.mpr ⟨delta, rest, hl, hledger, rfl⟩, hcovers⟩
    · intro deltas h
      obtain ⟨delta, rest, hl, hledger, rfl⟩ := ledgerBlocks_cons_ok.mp h
      obtain ⟨t', hr⟩ := (ih (hc.settle (ledgerBlock_nodup hl)) hrest).2 rest hledger
      rw [hl] at hblock
      refine ⟨t', ?_⟩
      unfold processBlocksOf
      rw [hblock]
      exact bind_eq_ok_iff.mpr ⟨_, rfl, bind_eq_ok_iff.mpr ⟨(rest, t'), hr, rfl⟩⟩

end Simulation

end Usdb.Balances
