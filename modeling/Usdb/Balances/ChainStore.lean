import Usdb.Balances.CacheRuns
import Usdb.Balances.ChainLedger
import Usdb.Balances.CommitBinding

namespace Usdb.Balances

open Framework Unspent BalanceHistoryDB

/-- The commits of a chain. -/
def chainCommits (sha256 : Sha256) (deltas : List BlockBalanceDelta) : List BlockCommitEntry :=
  buildBlockCommits sha256 deltas emptyCommitHash

/-- The rows that a store was given up to a height, when it did not compute them from its
blocks. -/
structure Origin where
  base : Nat
  rows : USDBScriptHash → Nat → Option BalanceValue

/-- A store that was given no rows. -/
def Origin.genesis : Origin := ⟨0, fun _ _ => none⟩

/-- The store has the unspent outputs and the commits of a chain. Its balance rows are
given up to a height and have the balances there, and are those of the blocks above it,
as are the undo bundles it has. -/
structure HoldsChain (sha256 : Sha256) (origin : Origin) (blocks : List Block)
    (deltas : List BlockBalanceDelta) (db : BalanceHistoryDB) : Prop where
  accounts : Accounts blocks deltas
  height : db.getBtcBlockHeight = blocks.length
  base_le : origin.base ≤ blocks.length
  given : ∀ scriptHash, (balanceData (findLast (origin.rows scriptHash) origin.base)).balance =
    balanceAt blocks scriptHash origin.base
  utxos : ∀ outpoint, db.getUtxo outpoint =
    Unspent.empty.afterAll (chainTransfers blocks) outpoint
  rows : ∀ scriptHash height, db.row scriptHash height =
    if height ≤ origin.base then origin.rows scriptHash height
    else deltaRow deltas scriptHash height
  commits : ∀ height, db.blockCommits[height]? = if height = 0 then none
    else ((chainCommits sha256 deltas)[height - 1]?).map commitValue
  undo : ∀ height bundle, db.getBlockUndoBundle height = some bundle → origin.base < height ∧
    ∃ pair ∈ (filledChain blocks).zip deltas, pair.1.height = height ∧
      bundle = undoBundle pair.1 pair.2.entries

section Outputs

variable {blocks : List Block} {outpoint : OutPoint}

theorem lookup_collectNewUtxos (data : BatchBlockData) (outpoint : OutPoint) :
    (collectNewUtxos data).lookup outpoint =
      (data.voutUtxos[outpoint]?).bind (fun info =>
        if info.spend then none else some info.item) := by
  have hmem : ∀ value, (outpoint, value) ∈ collectNewUtxos data ↔
      ∃ info, data.voutUtxos[outpoint]? = some info ∧ info.spend = false ∧ info.item = value := by
    intro value
    unfold collectNewUtxos
    rw [List.mem_map]
    constructor
    · rintro ⟨⟨key, info⟩, hrow, heq⟩
      cases heq
      obtain ⟨hrow, hspend⟩ := List.mem_filter.mp hrow
      exact ⟨info, Table.mem_toList.mp hrow, by simpa using hspend, rfl⟩
    · rintro ⟨info, hget, hspend, rfl⟩
      exact ⟨(outpoint, info), List.mem_filter.mpr ⟨Table.mem_toList.mpr hget, by simp [hspend]⟩, rfl⟩
  cases hlook : (collectNewUtxos data).lookup outpoint with
  | some value =>
    obtain ⟨info, hget, hspend, rfl⟩ := (hmem value).mp (Table.mem_of_lookup hlook)
    rw [hget, Option.bind_some, hspend]
    rfl
  | none =>
    cases hget : data.voutUtxos[outpoint]? with
    | none => rfl
    | some info =>
      rw [Option.bind_some]
      split
      · rfl
      · rename_i hspend
        have hrow := (hmem info.item).mpr ⟨info, hget, by simpa using hspend, rfl⟩
        exact absurd (List.mem_map_of_mem hrow) (Table.lookup_eq_none.mp hlook)

/-- The outputs a batch deletes from the store: those a block spends and does not create. -/
theorem mem_spent_fillBlocks (u : Unspent OutPoint UTXOValue) (height : Nat)
    (blocks : List Block) (outpoint : OutPoint) :
    outpoint ∈ (fillBlocks u height blocks).flatMap (fun block =>
        (block.vins.filter (·.needFlush)).map (·.outpoint)) ↔
      ∃ block ∈ blocks, outpoint ∈ spentBy block.transfers ∧
        outpoint ∉ createdKeys block.transfers := by
  induction blocks generalizing u height with
  | nil => simp [fillBlocks]
  | cons block blocks ih =>
    have hfirst : outpoint ∈ ((fillBlock u height block).vins.filter (·.needFlush)).map
        (·.outpoint) ↔ outpoint ∈ spentBy block.transfers ∧
          outpoint ∉ createdKeys block.transfers := by
      rw [fillBlock_vins, List.mem_map]
      constructor
      · rintro ⟨vin, hvin, rfl⟩
        obtain ⟨hmem, hflush⟩ := List.mem_filter.mp hvin
        obtain ⟨spent, hspent, rfl⟩ := List.mem_map.mp hmem
        exact ⟨hspent, of_decide_eq_true hflush⟩
      · rintro ⟨hspent, hnot⟩
        exact ⟨_, List.mem_filter.mpr ⟨List.mem_map_of_mem hspent, decide_eq_true hnot⟩, rfl⟩
    rw [fillBlocks, List.flatMap_cons, List.mem_append, hfirst, ih]
    simp

theorem mem_spentBy_chain :
    outpoint ∈ spentBy (chainTransfers blocks) ↔
      ∃ block ∈ blocks, outpoint ∈ spentBy block.transfers := by
  induction blocks with
  | nil => simp [chainTransfers, spentBy]
  | cons block blocks ih =>
    rw [chainTransfers_cons, spentBy_append, List.mem_append, ih]
    simp

theorem createdKeys_of_block {block : Block} (hb : block ∈ blocks)
    (hk : outpoint ∈ createdKeys block.transfers) : outpoint ∈ createdKeys (chainTransfers blocks) := by
  induction blocks with
  | nil => cases hb
  | cons first blocks ih =>
    rw [chainTransfers_cons, createdKeys_append, List.mem_append]
    rcases List.mem_cons.mp hb with rfl | hb
    · exact .inl hk
    · exact .inr (ih hb)

end Outputs

section Load

variable {sha256 : Sha256} {origin : Origin} {s : HistoryState} {blocks : List Block}
  {deltas : List BlockBalanceDelta} {db : BalanceHistoryDB}

theorem HoldsChain.unspent (h : HoldsChain sha256 origin blocks deltas s.db)
    (hc : CacheAgrees s) :
    HoldsUnspent (Unspent.empty.afterAll (chainTransfers blocks)) s where
  utxos := h.utxos
  cache := by
    intro outpoint value hget
    rw [← h.utxos]
    exact hc.utxo outpoint value hget

/-- From the height its rows are given for, the store answers with the balances of the
chain. -/
theorem HoldsChain.balance_eq (h : HoldsChain sha256 origin blocks deltas db)
    (scriptHash : USDBScriptHash) {height : Nat} (hle : origin.base ≤ height) :
    (db.getBalanceAtBlockHeight scriptHash height).balance =
      balanceAt blocks scriptHash height := by
  rw [getBalanceAtBlockHeight_eq]
  induction height, hle using Nat.le_induction with
  | base =>
    have hrows : findLast (db.row scriptHash) origin.base =
        findLast (origin.rows scriptHash) origin.base := by
      apply findLast_congr
      intro height hheight
      rw [h.rows, if_pos hheight]
    rw [hrows, h.given]
  | succ height hle ih =>
    have hrow := h.rows scriptHash (height + 1)
    rw [if_neg (by omega)] at hrow
    unfold findLast
    rw [hrow]
    cases hdelta : deltaRow deltas scriptHash (height + 1) with
    | some value => exact (h.accounts.row_some _ _ _ hdelta).2.2.1
    | none =>
      rw [h.accounts.row_none scriptHash (height + 1) hdelta, Nat.add_sub_cancel]
      exact ih

/-- What a store answers for its own height. -/
def BalanceHistoryDB.currentBalances (db : BalanceHistoryDB) : BalanceMap :=
  fun scriptHash => db.getBalanceAtBlockHeight scriptHash db.getBtcBlockHeight

theorem HoldsChain.currentBalances_eq (h : HoldsChain sha256 origin blocks deltas db)
    (scriptHash : USDBScriptHash) : (db.currentBalances scriptHash).balance =
      (BalanceMap.zero.settleAll deltas scriptHash).balance := by
  unfold currentBalances
  rw [h.accounts.settled, h.balance_eq scriptHash (by rw [h.height]; exact h.base_le), h.height,
    balanceAt_length (Nat.le_refl _)]

/-- What a batch loads for the script hashes of its blocks. -/
theorem startBalances_ok (hc : CacheAgrees s) (preloaded : List PreloadBlock) :
    ∃ initial, startBalances s (s.db.getBtcBlockHeight + 1) preloaded = .ok initial ∧
      Covers (preloaded.flatMap touchedScripts) initial s.db.currentBalances := by
  have hload : ∀ scriptHash ∈ preloaded.flatMap touchedScripts,
      (do
        let balance ← loadBalance s.db s.balanceCache s.db.getBtcBlockHeight scriptHash
        return (scriptHash, balance)) =
      Except.ok (scriptHash, s.db.currentBalances scriptHash) := by
    intro scriptHash _
    exact bind_eq_ok_iff.mpr ⟨_, loadBalance_eq hc scriptHash, rfl⟩
  have hstart : startBalances s (s.db.getBtcBlockHeight + 1) preloaded =
      .ok ((∅ : Table USDBScriptHash BalanceHistoryData).insertMany
        ((preloaded.flatMap touchedScripts).map (fun scriptHash =>
          (scriptHash, s.db.currentBalances scriptHash)))) := by
    unfold startBalances
    rw [if_pos (Nat.succ_pos _), Nat.add_sub_cancel]
    unfold preloadBalances
    exact bind_eq_ok_iff.mpr ⟨_, mapM_eq_map hload, rfl⟩
  refine ⟨_, hstart, ?_⟩
  intro scriptHash hmem
  rcases Table.getElem?_insertMany_cases (∅ : Table USDBScriptHash BalanceHistoryData)
    ((preloaded.flatMap touchedScripts).map (fun scriptHash =>
      (scriptHash, s.db.currentBalances scriptHash))) scriptHash with
    ⟨value, hrow, hget⟩ | ⟨hnot, -⟩
  · obtain ⟨scriptHash', -, heq⟩ := List.mem_map.mp hrow
    cases heq
    exact hget
  · rw [List.map_map] at hnot
    exact absurd (List.mem_map.mpr ⟨scriptHash, hmem, rfl⟩) hnot

end Load

section Batch

variable {env : BatchEnv} {origin : Origin} {s : HistoryState} {blocks new : List Block}
  {deltas : List BlockBalanceDelta} {latestBtcHeight undoRetentionBlocks : Nat}

/-- The outputs of a batch that none of its inputs spends. -/
theorem marked_ok {start : Nat} {u : Unspent OutPoint UTXOValue}
    (hv : Valid u (chainTransfers new)) (hf : Fresh u (chainTransfers new))
    (schedule : Schedule) :
    ∃ voutUtxos, (schedule.inputOrder ((preprocessBlocks start new).flatMap
        (fun block => block.vins.map (·.outpoint)))).foldlM markSpent
          ((∅ : Table OutPoint VOutUtxoInfo).insertMany
            ((schedule.blockOrder (preprocessBlocks start new)).flatMap voutRows)) =
        .ok voutUtxos ∧
      ∀ outpoint, (voutUtxos[outpoint]?).bind (fun info =>
          if info.spend then none else some info.item) =
        if outpoint ∈ spentBy (chainTransfers new) then none
        else (createdBy (chainTransfers new)).lookup outpoint := by
  have hlook := @createdTable_lookup start new schedule hf.nodup
  have hperm := schedule.inputOrder_perm (spentBy (chainTransfers new))
  rw [preprocessBlocks_inputs]
  have hunspent : ∀ outpoint info,
      ((∅ : Table OutPoint VOutUtxoInfo).insertMany
        ((schedule.blockOrder (preprocessBlocks start new)).flatMap voutRows))[outpoint]? =
          some info →
      info.spend = false ∧ (createdBy (chainTransfers new)).lookup outpoint = some info.item := by
    intro outpoint info hget
    rw [hlook] at hget
    obtain ⟨hitem, -, -, hspend⟩ := mem_voutRows (Table.mem_of_lookup hget)
    exact ⟨hspend, Table.lookup_of_mem hf.nodup hitem⟩
  obtain ⟨voutUtxos, hfold, hget⟩ := foldlM_markSpent
    (hperm.nodup_iff.mpr (spentBy_nodup hv hf))
    (fun outpoint _ info hinfo => (hunspent outpoint info hinfo).1)
  refine ⟨voutUtxos, hfold, ?_⟩
  intro outpoint
  rw [hget]
  cases hcreated : ((∅ : Table OutPoint VOutUtxoInfo).insertMany
      ((schedule.blockOrder (preprocessBlocks start new)).flatMap voutRows))[outpoint]? with
  | none =>
    have hnone : (createdBy (chainTransfers new)).lookup outpoint = none := by
      rw [hlook, Table.lookup_eq_none, voutRows_keys] at hcreated
      exact Table.lookup_eq_none.mpr hcreated
    rw [hnone, ite_self]
    rfl
  | some info =>
    obtain ⟨hspend, hitem⟩ := hunspent outpoint info hcreated
    rw [Option.map_some, Option.bind_some, hitem]
    dsimp only
    rw [hspend, Bool.false_or]
    by_cases hmem : outpoint ∈ spentBy (chainTransfers new)
    · rw [if_pos hmem, if_pos (decide_eq_true (hperm.mem_iff.mpr hmem))]
    · have hnot : outpoint ∉ schedule.inputOrder (spentBy (chainTransfers new)) :=
        fun h => hmem (hperm.mem_iff.mp h)
      rw [if_neg hmem, if_neg (by simpa using hnot)]

theorem HoldsChain.previousCommit_ok {sha256 : Sha256} {db : BalanceHistoryDB}
    (h : HoldsChain sha256 origin blocks deltas db) :
    resolvePreviousCommit (some db.getBtcBlockHeight) (db.getBlockCommit db.getBtcBlockHeight) =
      .ok (((chainCommits sha256 deltas).getLast?.map (·.blockCommit)).getD emptyCommitHash) := by
  have hlen : (chainCommits sha256 deltas).length = blocks.length := by
    have hids := congrArg List.length (buildBlockCommits_ids sha256 deltas emptyCommitHash)
    rw [List.length_map, List.length_map] at hids
    rw [← chainDeltas_length h.accounts.ledger]
    exact hids
  have hget : db.getBlockCommit db.getBtcBlockHeight =
      (chainCommits sha256 deltas).getLast?.map (fun commit =>
        { commit with blockHeight := db.getBtcBlockHeight }) := by
    unfold getBlockCommit
    rw [h.commits, h.height, List.getLast?_eq_getElem?, hlen]
    split
    · rename_i hzero
      rw [hzero]
      rw [hzero, List.length_eq_zero_iff] at hlen
      rw [hlen]
      rfl
    · rw [Option.map_map]
      rfl
  rw [hget]
  cases hlast : (chainCommits sha256 deltas).getLast? with
  | some commit =>
    cases hheight : db.getBtcBlockHeight with
    | zero => rfl
    | succ height => rfl
  | none =>
    rw [List.getLast?_eq_none_iff] at hlast
    rw [h.height, ← hlen, hlast]
    rfl

/-- A batch whose blocks continue the chain goes through, and its blocks, its results and
its outputs are those of the longer chain. -/
theorem HoldsChain.batchRun (latestBtcHeight undoRetentionBlocks : Nat)
    (h : HoldsChain env.sha256 origin blocks deltas s.db) (hc : CacheAgrees s)
    (hv : ValidChain (blocks ++ new)) (hne : new ≠ []) :
    ∃ data update created initial,
      BatchRun env s (s.db.getBtcBlockHeight + 1) new latestBtcHeight undoRetentionBlocks data
        update created initial ∧
      data.blocks = fillBlocks (Unspent.empty.afterAll (chainTransfers blocks))
        (blocks.length + 1) new ∧
      chainDeltas (blocks ++ new) = .ok (deltas ++ data.blockBalanceDeltas) ∧
      ∀ outpoint, (collectNewUtxos data).lookup outpoint =
        if outpoint ∈ spentBy (chainTransfers new) then none
        else (createdBy (chainTransfers new)).lookup outpoint := by
  have hspends := hv.spends
  rw [chainTransfers_append] at hspends
  have hvalid := (valid_append.mp hspends.valid).2
  have hfresh := hspends.fresh.right
  obtain ⟨voutUtxos, hmark, hlook⟩ := @marked_ok new (s.db.getBtcBlockHeight + 1) _ hvalid hfresh
    env.schedule
  have hfill := @preloadBlocks_fill env s _ (s.db.getBtcBlockHeight + 1) [] new _ hvalid hfresh
    (h.unspent hc) (createdTable_lookup env.schedule hfresh.nodup)
  obtain ⟨initial, hstart, hcovers⟩ := startBalances_ok hc
    (fillBlocks (Unspent.empty.afterAll (chainTransfers blocks)) (blocks.length + 1) new)
  obtain ⟨all, haccounts⟩ := hv.accounts
  obtain ⟨first, rest, hfirst, hrest, rfl⟩ := chainDeltas_append_ok.mp haccounts.ledger
  obtain rfl : first = deltas := Except.ok.inj (hfirst.symm.trans h.accounts.ledger)
  rw [← ledgerBlocks_congr h.currentBalances_eq] at hrest
  obtain ⟨balances, hprocess⟩ := (processBlocksOf_covered hcovers (fun block hblock scriptHash hmem =>
    List.mem_flatMap.mpr ⟨block, hblock, hmem⟩)).2 rest hrest
  let data : BatchBlockData :=
    { rangeStart := s.db.getBtcBlockHeight + 1
      rangeEnd := s.db.getBtcBlockHeight + 1 + new.length
      blocks := fillBlocks (Unspent.empty.afterAll (chainTransfers blocks)) (blocks.length + 1) new
      voutUtxos
      balances
      blockBalanceDeltas := rest
      scriptRegistry := env.schedule.scriptOrder (new.flatMap scriptRegistryEntries) }
  obtain ⟨scripts, hscripts⟩ := @collectScriptRegistryUpdates_ok data (fun entry hmem =>
    named_of_mem ((env.schedule.scriptOrder_perm _).mem_iff.mp hmem))
  have hcollect : collectUpdates env s.db data latestBtcHeight undoRetentionBlocks = .ok _ :=
    collectUpdates_eq_ok.mpr ⟨_, scripts, h.previousCommit_ok, hscripts, rfl⟩
  refine ⟨data, _, _, initial, ⟨hne, rfl, rfl, rfl, hmark, ?_, hstart, hprocess, rfl, hcollect⟩, rfl,
    haccounts.ledger, ?_⟩
  · rw [h.height] at hfill ⊢
    exact hfill
  · intro outpoint
    rw [lookup_collectNewUtxos]
    exact hlook outpoint

theorem buildBlockCommits_append (sha256 : Sha256) (deltas rest : List BlockBalanceDelta)
    (prev : List UInt8) :
    buildBlockCommits sha256 (deltas ++ rest) prev = buildBlockCommits sha256 deltas prev ++
      buildBlockCommits sha256 rest (((buildBlockCommits sha256 deltas prev).getLast?.map
        (·.blockCommit)).getD prev) := by
  induction deltas generalizing prev with
  | nil => rfl
  | cons delta deltas ih =>
    rw [List.cons_append, buildBlockCommits, ih, buildBlockCommits, List.cons_append]
    congr 2
    rw [List.getLast?_cons]
    cases (buildBlockCommits sha256 deltas
      (buildBlockCommit sha256 delta prev).blockCommit).getLast? <;> rfl

variable {data : BatchBlockData} {update : BlockStateUpdateBatch}
  {created : Table OutPoint VOutUtxoInfo} {initial : Table USDBScriptHash BalanceHistoryData}

/-- What a batch leaves unspent in the store. -/
theorem HoldsChain.batch_utxos (h : HoldsChain env.sha256 origin blocks deltas s.db)
    (hv : ValidChain (blocks ++ new))
    (hfilled : data.blocks = fillBlocks (Unspent.empty.afterAll (chainTransfers blocks))
      (blocks.length + 1) new)
    (hlook : ∀ outpoint, (collectNewUtxos data).lookup outpoint =
      if outpoint ∈ spentBy (chainTransfers new) then none
      else (createdBy (chainTransfers new)).lookup outpoint)
    (hb : BatchRun env s (s.db.getBtcBlockHeight + 1) new latestBtcHeight undoRetentionBlocks data
      update created initial) (outpoint : OutPoint) :
    (s.db.updateBlockState update).getUtxo outpoint =
      Unspent.empty.afterAll (chainTransfers (blocks ++ new)) outpoint := by
  have hspends := hv.spends
  rw [chainTransfers_append] at hspends ⊢
  have hvalid := (valid_append.mp hspends.valid).2
  have hfresh := hspends.fresh.right
  obtain ⟨previousCommit, scripts, -, -, rfl⟩ := collectUpdates_eq_ok.mp hb.collected
  have hremove : outpoint ∈ collectSpentUtxos data ↔ ∃ block ∈ new,
      outpoint ∈ spentBy block.transfers ∧ outpoint ∉ createdKeys block.transfers := by
    unfold collectSpentUtxos
    rw [List.mem_insertionSort, hfilled]
    exact mem_spent_fillBlocks _ _ _ _
  refine (getUtxo_updateBlockState s.db (collectNewUtxos_nodup data) outpoint).trans ?_
  rw [afterAll_append, afterAll_eq hvalid hfresh, hlook, h.utxos]
  by_cases hspent : outpoint ∈ spentBy (chainTransfers new)
  · rw [if_pos hspent, if_pos hspent]
    split
    · rfl
    · rename_i hkept
      -- the block that spends it creates it, so it was not in the store
      obtain ⟨block, hblock, hown⟩ := mem_spentBy_chain.mp hspent
      have hkey : outpoint ∈ createdKeys block.transfers := by
        by_contra hnot
        exact hkept (hremove.mpr ⟨block, hblock, hown, hnot⟩)
      exact hfresh.unused outpoint (createdKeys_of_block hblock hkey)
  · rw [if_neg hspent, if_neg hspent, if_neg]
    intro hmem
    obtain ⟨block, hblock, hown, -⟩ := hremove.mp hmem
    exact hspent (mem_spentBy_chain.mpr ⟨block, hblock, hown⟩)

/-- A batch whose blocks continue the chain leaves the store of the longer chain. -/
theorem HoldsChain.batch (h : HoldsChain env.sha256 origin blocks deltas s.db) (hc : CacheAgrees s)
    (hv : ValidChain (blocks ++ new))
    (hb : BatchRun env s (s.db.getBtcBlockHeight + 1) new latestBtcHeight undoRetentionBlocks data
      update created initial) :
    HoldsChain env.sha256 origin (blocks ++ new) (deltas ++ data.blockBalanceDeltas)
      (s.db.updateBlockState update) := by
  obtain ⟨data', update', created', initial', hb', hfilled, hledger, hlook⟩ :=
    h.batchRun latestBtcHeight undoRetentionBlocks hc hv hb.nonempty
  obtain ⟨rfl, rfl⟩ : data' = data ∧ update' = update := by
    have hsame := (batchUpdate_eq_ok.mpr ⟨_, _, hb'⟩).symm.trans (batchUpdate_eq_ok.mpr ⟨_, _, hb⟩)
    cases hsame
    exact ⟨rfl, rfl⟩
  have haccounts := hv.accounts_of_ok hledger
  have hlen := chainDeltas_length h.accounts.ledger
  have hbase := h.base_le
  refine ⟨haccounts, ?_, ?_, ?_, h.batch_utxos hv hfilled hlook hb, ?_, ?_, ?_⟩
  · rw [hb.getBtcBlockHeight, h.height, List.length_append]
  · rw [List.length_append]
    omega
  · intro scriptHash
    rw [balanceAt_append hbase]
    exact h.given scriptHash
  · intro scriptHash height
    rw [hb.row, h.rows, deltaRow_append]
    cases hnew : deltaRow data'.blockBalanceDeltas scriptHash height with
    | none => rw [Option.none_or, Option.or_none]
    | some value =>
      have hrange := hb.deltaRow_range hnew
      rw [h.height] at hrange
      have habove : ¬ height ≤ origin.base := by omega
      rw [if_neg habove, if_neg habove]
      cases hold : deltaRow deltas scriptHash height with
      | none => rfl
      | some value' =>
        have hbound := (h.accounts.row_some _ _ _ hold).2.1
        omega
  · intro height
    have hcommits : update'.blockCommits = buildBlockCommits env.sha256 data'.blockBalanceDeltas
        (((chainCommits env.sha256 deltas).getLast?.map (·.blockCommit)).getD emptyCommitHash) := by
      obtain ⟨previousCommit, scripts, hprevious, -, rfl⟩ := collectUpdates_eq_ok.mp hb.collected
      rw [hb.start_eq, if_neg (Nat.succ_ne_zero _), Nat.add_sub_cancel] at hprevious
      rw [Except.ok.inj (hprevious.symm.trans h.previousCommit_ok)]
    have hall : chainCommits env.sha256 (deltas ++ data'.blockBalanceDeltas) =
        chainCommits env.sha256 deltas ++ update'.blockCommits := by
      rw [hcommits]
      exact buildBlockCommits_append _ _ _ _
    have hold : (chainCommits env.sha256 deltas).length = blocks.length :=
      (buildBlockCommits_length _ _ _).trans hlen
    have hnew : update'.blockCommits.length = new.length := by
      have hids := congrArg List.length hb.commit_ids
      simpa using hids
    rw [hb.blockCommit, h.commits, hall, h.height]
    by_cases hrange : blocks.length + 1 ≤ height ∧ height < blocks.length + 1 + new.length
    · rw [if_pos hrange, if_neg (by omega), List.getElem?_append_right (by omega), hold]
      congr 2
      omega
    · rw [if_neg hrange]
      split
      · rfl
      · by_cases hlow : height - 1 < blocks.length
        · rw [List.getElem?_append_left (by omega)]
        · rw [List.getElem?_eq_none (by omega), List.getElem?_eq_none (by
            rw [List.length_append]
            omega)]
  · intro height bundle hget
    have hzip : (filledChain (blocks ++ new)).zip (deltas ++ data'.blockBalanceDeltas) =
        (filledChain blocks).zip deltas ++ data'.blocks.zip data'.blockBalanceDeltas := by
      rw [filledChain_append, hfilled, List.zip_append]
      rw [filledChain_length, hlen]
    rw [hzip]
    rcases Table.getElem?_insertMany_cases s.db.blockUndo (update'.undoBundles.map (fun bundle =>
      (bundle.blockHeight, bundle))) height with ⟨bundle', hmem, hget'⟩ | ⟨-, hget'⟩
    · obtain ⟨bundle'', hmem'', heq⟩ := List.mem_map.mp hmem
      cases heq
      cases hget'.symm.trans hget
      obtain ⟨block, delta, hpair, rfl⟩ := hb.undoBundle_of_mem hmem''
      refine ⟨?_, _, List.mem_append_right _ hpair, rfl, rfl⟩
      have hblock : block.height ∈ data'.blocks.map (·.height) :=
        List.mem_map_of_mem (List.of_mem_zip hpair).1
      rw [hb.block_heights, List.mem_range'_1, h.height] at hblock
      show origin.base < block.height
      omega
    · obtain ⟨habove, pair, hpair, hheight, hbundle⟩ :=
        h.undo height bundle (hget'.symm.trans hget)
      exact ⟨habove, pair, List.mem_append_left _ hpair, hheight, hbundle⟩

end Batch

end Usdb.Balances
