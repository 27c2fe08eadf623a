import Usdb.Balances.BalanceRows

namespace Usdb.Balances

open Framework BalanceHistoryDB

/-- No row and no undo bundle is above the height of the store, and the bundle of a block
names every script hash that has a row at its height. -/
structure RowsTracked (db : BalanceHistoryDB) : Prop where
  rows_le : ∀ scriptHash height value, db.row scriptHash height = some value →
    height ≤ db.getBtcBlockHeight
  undo_le : ∀ height bundle, db.getBlockUndoBundle height = some bundle →
    height ≤ db.getBtcBlockHeight
  touched : ∀ height bundle, db.getBlockUndoBundle height = some bundle →
    ∀ scriptHash value, db.row scriptHash height = some value →
      scriptHash ∈ bundle.touchedScriptHashes

section Bundles

theorem mem_sortedDistinct {scriptHash : USDBScriptHash} {scriptHashes : List USDBScriptHash} :
    scriptHash ∈ sortedDistinct scriptHashes ↔ scriptHash ∈ scriptHashes := by
  unfold sortedDistinct
  rw [List.mem_map]
  constructor
  · rintro ⟨⟨s, u⟩, hmem, rfl⟩
    rcases Table.getElem?_insertMany_cases (∅ : Table USDBScriptHash Unit)
      (scriptHashes.map (fun s => (s, ()))) s with ⟨v, hrow, -⟩ | ⟨-, hget⟩
    · obtain ⟨s', hs', heq⟩ := List.mem_map.mp hrow
      cases heq
      exact hs'
    · rw [Table.mem_toList, hget] at hmem
      cases hmem
  · intro hmem
    rcases Table.getElem?_insertMany_cases (∅ : Table USDBScriptHash Unit)
      (scriptHashes.map (fun s => (s, ()))) scriptHash with ⟨v, -, hget⟩ | ⟨hno, -⟩
    · exact ⟨(scriptHash, v), Table.mem_toList.mpr hget, rfl⟩
    · rw [List.map_map] at hno
      exact absurd (List.mem_map.mpr ⟨scriptHash, hmem, rfl⟩) hno

variable {balances balances' : Table USDBScriptHash BalanceHistoryData}
  {blocks : List PreloadBlock} {deltas : List BlockBalanceDelta}

/-- The entries at the height of a block are those of the block. -/
theorem processBlocksOf_zip_entries (hord : (blocks.map (·.height)).Pairwise (· < ·))
    (h : processBlocksOf blocks balances = .ok (deltas, balances')) :
    ∀ pair ∈ blocks.zip deltas, ∀ entry ∈ deltas.flatMap (·.entries),
      entry.blockHeight = pair.1.height → entry ∈ pair.2.entries := by
  induction blocks generalizing balances deltas with
  | nil =>
    intro pair hpair
    cases hpair
  | cons block blocks ih =>
    obtain ⟨delta, middle, rest, hb, hr, rfl⟩ := processBlocksOf_cons_ok h
    rw [List.map_cons, List.pairwise_cons] at hord
    have hlater : ∀ pair ∈ blocks.zip rest, block.height < pair.1.height := fun pair hpair =>
      hord.1 _ (List.mem_map_of_mem (List.of_mem_zip hpair).1)
    intro pair hpair entry hentry heq
    rw [List.zip_cons_cons, List.mem_cons] at hpair
    rw [List.flatMap_cons, List.mem_append] at hentry
    rcases hpair with rfl | hpair
    · rcases hentry with hentry | hentry
      · exact hentry
      · have hgt := hord.1 _ (processBlocksOf_entry_heights hr entry hentry)
        dsimp only at heq
        omega
    · rcases hentry with hentry | hentry
      · have hheight := (processBlock_entries hb).1 entry hentry
        have hgt := hlater pair hpair
        omega
      · exact ih hord.2 hr pair hpair entry hentry heq

theorem processBlocksOf_zip_heights
    (h : processBlocksOf blocks balances = .ok (deltas, balances')) :
    ∀ pair ∈ blocks.zip deltas, ∀ entry ∈ pair.2.entries, entry.blockHeight = pair.1.height := by
  induction blocks generalizing balances deltas with
  | nil =>
    intro pair hpair
    cases hpair
  | cons block blocks ih =>
    obtain ⟨delta, middle, rest, hb, hr, rfl⟩ := processBlocksOf_cons_ok h
    intro pair hpair
    rw [List.zip_cons_cons, List.mem_cons] at hpair
    rcases hpair with rfl | hpair
    · exact (processBlock_entries hb).1
    · exact ih hr pair hpair

variable {env : BatchEnv} {s : HistoryState} {start latestBtcHeight undoRetentionBlocks : Nat}
  {newBlocks : List Block} {data : BatchBlockData} {update : BlockStateUpdateBatch}
  {created : Table OutPoint VOutUtxoInfo} {initial : Table USDBScriptHash BalanceHistoryData}

/-- The bundle of a block is that of the block and the entries at its height. -/
theorem BatchRun.undoBundle_of_mem
    (h : BatchRun env s start newBlocks latestBtcHeight undoRetentionBlocks data update created
      initial) {bundle : BlockUndoBundle} (hmem : bundle ∈ update.undoBundles) :
    ∃ block delta, (block, delta) ∈ data.blocks.zip data.blockBalanceDeltas ∧
      bundle = undoBundle block delta.entries := by
  obtain ⟨previousCommit, scripts, -, -, rfl⟩ := collectUpdates_eq_ok.mp h.collected
  have hmem' : bundle ∈ collectUndoBundles data latestBtcHeight undoRetentionBlocks := hmem
  unfold collectUndoBundles at hmem'
  split at hmem'
  · obtain ⟨⟨block, delta⟩, hpair, heq⟩ := List.mem_filterMap.mp hmem'
    dsimp only at heq
    split at heq
    · cases heq
      exact ⟨block, delta, hpair, rfl⟩
    · cases heq
  · cases hmem'

theorem BatchRun.touched
    (h : BatchRun env s start newBlocks latestBtcHeight undoRetentionBlocks data update created
      initial) {bundle : BlockUndoBundle} (hmem : bundle ∈ update.undoBundles)
    {scriptHash : USDBScriptHash} {value : BalanceValue}
    (hrow : deltaRow data.blockBalanceDeltas scriptHash bundle.blockHeight = some value) :
    scriptHash ∈ bundle.touchedScriptHashes := by
  obtain ⟨block, delta, hpair, rfl⟩ := h.undoBundle_of_mem hmem
  have hentry := processBlocksOf_zip_entries h.heights_pairwise h.processed _ hpair _
    (mem_of_deltaRow hrow) rfl
  refine mem_sortedDistinct.mpr (List.mem_append_right _ ?_)
  exact List.mem_map.mpr ⟨_, hentry, rfl⟩

end Bundles

namespace RowsTracked

variable {db db' : BalanceHistoryDB}

theorem empty : RowsTracked .empty where
  rows_le := by
    intro scriptHash height value h
    cases h
  undo_le := by
    intro height bundle h
    cases h
  touched := by
    intro height bundle h
    cases h

theorem row_revertBlock (db : BalanceHistoryDB) (blockHeight : Nat) (bundle : BlockUndoBundle)
    (scriptHash : USDBScriptHash) (height : Nat) :
    (db.revertBlock blockHeight bundle).row scriptHash height =
      if height = blockHeight ∧ scriptHash ∈ bundle.touchedScriptHashes then none
      else db.row scriptHash height := by
  refine (Table.getElem?_eraseAll _ _ _).trans ?_
  refine if_congr ?_ rfl rfl
  rw [List.mem_map]
  constructor
  · rintro ⟨scriptHash', hmem, heq⟩
    cases heq
    exact ⟨rfl, hmem⟩
  · rintro ⟨rfl, hmem⟩
    exact ⟨scriptHash, hmem, rfl⟩

theorem rollbackStep (h : RowsTracked db) (hs : RollbackStep db db') : RowsTracked db' := by
  cases hs with
  | markers m => exact ⟨h.rows_le, h.undo_le, h.touched⟩
  | revert bundle found =>
    have hheight : (db.revertBlock db.getBtcBlockHeight bundle).getBtcBlockHeight =
        db.getBtcBlockHeight - 1 := rfl
    constructor
    · intro scriptHash height value hrow
      rw [row_revertBlock] at hrow
      split at hrow
      · cases hrow
      · rename_i hkept
        have hle := h.rows_le scriptHash height value hrow
        have hne : height ≠ db.getBtcBlockHeight := by
          rintro rfl
          exact hkept ⟨rfl, h.touched _ bundle found scriptHash value hrow⟩
        omega
    · intro height bundle' hget
      rw [getBlockUndoBundle_revertBlock] at hget
      split at hget
      · cases hget
      · have hle := h.undo_le height bundle' hget
        omega
    · intro height bundle' hget scriptHash value hrow
      rw [getBlockUndoBundle_revertBlock] at hget
      rw [row_revertBlock] at hrow
      split at hget
      · cases hget
      · split at hrow
        · cases hrow
        · exact h.touched height bundle' hget scriptHash value hrow

theorem rollbackSteps (h : RowsTracked db) (hs : RollbackSteps db db') : RowsTracked db' := by
  induction hs with
  | refl => exact h
  | tail _ step ih => exact ih.rollbackStep step

theorem prune (h : RowsTracked db) {minRetainedHeight : Nat}
    (hs : PruneStep db minRetainedHeight db') : RowsTracked db' := by
  cases hs with
  | skip => exact h
  | prune supportedFrom supported =>
    have hkept : ∀ {height bundle}, (db.pruned (max minRetainedHeight
        supportedFrom)).getBlockUndoBundle height = some bundle →
        db.getBlockUndoBundle height = some bundle := by
      intro height bundle hget
      rw [pruned_getBlockUndoBundle] at hget
      split at hget
      · cases hget
      · exact hget
    exact ⟨h.rows_le, fun height bundle hget => h.undo_le height bundle (hkept hget),
      fun height bundle hget => h.touched height bundle (hkept hget)⟩

section Batch

variable {env : BatchEnv} {s : HistoryState} {latestBtcHeight undoRetentionBlocks : Nat}
  {blocks : List Block} {data : BatchBlockData} {update : BlockStateUpdateBatch}
  {created : Table OutPoint VOutUtxoInfo} {initial : Table USDBScriptHash BalanceHistoryData}

theorem batch (h : RowsTracked s.db)
    (hb : BatchRun env s (s.db.getBtcBlockHeight + 1) blocks latestBtcHeight undoRetentionBlocks
      data update created initial) : RowsTracked (s.db.updateBlockState update) := by
  have hheight := hb.getBtcBlockHeight
  have hbundle : ∀ height bundle,
      (s.db.updateBlockState update).getBlockUndoBundle height = some bundle →
      (bundle ∈ update.undoBundles ∧ bundle.blockHeight = height) ∨
        s.db.getBlockUndoBundle height = some bundle := by
    intro height bundle hget
    rcases Table.getElem?_insertMany_cases s.db.blockUndo (update.undoBundles.map (fun bundle =>
      (bundle.blockHeight, bundle))) height with ⟨bundle', hmem, hget'⟩ | ⟨-, hget'⟩
    · obtain ⟨bundle'', hmem'', heq⟩ := List.mem_map.mp hmem
      cases heq
      cases hget'.symm.trans hget
      exact .inl ⟨hmem'', rfl⟩
    · exact .inr (hget'.symm.trans hget)
  have hnew : ∀ bundle ∈ update.undoBundles, s.db.getBtcBlockHeight < bundle.blockHeight ∧
      bundle.blockHeight ≤ s.db.getBtcBlockHeight + blocks.length := by
    intro bundle hmem
    obtain ⟨block, delta, hpair, rfl⟩ := hb.undoBundle_of_mem hmem
    have hblock : block.height ∈ data.blocks.map (·.height) :=
      List.mem_map_of_mem (List.of_mem_zip hpair).1
    rw [hb.block_heights, List.mem_range'_1] at hblock
    show s.db.getBtcBlockHeight < block.height ∧ block.height ≤ _
    omega
  constructor
  · intro scriptHash height value hrow
    rw [hb.row] at hrow
    rw [hheight]
    cases hdelta : deltaRow data.blockBalanceDeltas scriptHash height with
    | some value' =>
      have hrange := hb.deltaRow_range hdelta
      omega
    | none =>
      rw [hdelta] at hrow
      have hle := h.rows_le scriptHash height value hrow
      omega
  · intro height bundle hget
    rw [hheight]
    rcases hbundle height bundle hget with ⟨hmem, rfl⟩ | hold
    · exact (hnew bundle hmem).2
    · have hle := h.undo_le height bundle hold
      omega
  · intro height bundle hget scriptHash value hrow
    rw [hb.row] at hrow
    rcases hbundle height bundle hget with ⟨hmem, rfl⟩ | hold
    · cases hdelta : deltaRow data.blockBalanceDeltas scriptHash bundle.blockHeight with
      | some value' => exact hb.touched hmem hdelta
      | none =>
        rw [hdelta] at hrow
        have hle := h.rows_le scriptHash _ value hrow
        have hgt := (hnew bundle hmem).1
        omega
    · cases hdelta : deltaRow data.blockBalanceDeltas scriptHash height with
      | some value' =>
        have hrange := hb.deltaRow_range hdelta
        have hle := h.undo_le height bundle hold
        omega
      | none =>
        rw [hdelta] at hrow
        exact h.touched height bundle hold scriptHash value hrow

end Batch

theorem storeStep {config : SyncConfig} {w : Service} {l : Label} {db : BalanceHistoryDB} (h : RowsTracked w.state.db)
    (hs : Service.StoreStep config w l db) : RowsTracked db := by
  cases hs with
  | same => exact h
  | rollback steps => exact h.rollbackSteps steps
  | @batch answers faults latestBtcHeight data update created initial _ syncing le run prune =>
    have hbatch : RowsTracked (w.state.db.updateBlockState update) :=
      RowsTracked.batch (s := { w.state with faults }) h run
    exact hbatch.prune prune

end RowsTracked

/-- Every cached output is in the store with its value, and every cached balance is the
last row of its script hash. -/
structure CacheAgrees (s : HistoryState) : Prop where
  utxo : ∀ outpoint value, s.utxoCache outpoint = some value → s.db.getUtxo outpoint = some value
  balance : ∀ scriptHash data, s.balanceCache scriptHash = some data →
    LastRow (s.db.row scriptHash) data ∧ data.blockHeight ≤ s.db.getBtcBlockHeight

section Caches

variable {env : BatchEnv} {s : HistoryState}

theorem cacheUtxos_eq {newUtxos : List (OutPoint × UTXOValue)}
    (hn : (newUtxos.map (·.1)).Nodup) (spentUtxos : List OutPoint)
    (utxoCache : OutPoint → Option UTXOValue) (outpoint : OutPoint) :
    cacheUtxos newUtxos spentUtxos utxoCache outpoint =
      if outpoint ∈ spentUtxos then none
      else (newUtxos.lookup outpoint).or (utxoCache outpoint) := by
  unfold cacheUtxos
  rw [Table.foldl_update_none, Table.foldl_update_lookup hn some]
  cases newUtxos.lookup outpoint <;> rfl

theorem cacheBalances_eq (balances : Table USDBScriptHash BalanceHistoryData)
    (balanceCache : USDBScriptHash → Option BalanceHistoryData) (scriptHash : USDBScriptHash) :
    cacheBalances balances.toList balanceCache scriptHash =
      match balances[scriptHash]? with
      | some data => if data.balance = 0 then none else some data
      | none => balanceCache scriptHash := by
  unfold cacheBalances
  rw [Table.foldl_update_lookup (Table.toList_keys_nodup balances)
    (fun data => if data.balance = 0 then none else some data), Table.lookup_toList]
  cases balances[scriptHash]? <;> rfl

theorem collectNewUtxos_nodup (data : BatchBlockData) :
    ((collectNewUtxos data).map (·.1)).Nodup := by
  unfold collectNewUtxos
  rw [List.map_map]
  exact (Table.toList_keys_nodup data.voutUtxos).sublist (List.filter_sublist.map _)

/-- The outputs of the store after a batch. -/
theorem getUtxo_updateBlockState (db : BalanceHistoryDB) {update : BlockStateUpdateBatch}
    (hn : (update.newUtxos.map (·.1)).Nodup) (outpoint : OutPoint) :
    (db.updateBlockState update).getUtxo outpoint =
      if outpoint ∈ update.removeUtxos then none
      else (update.newUtxos.lookup outpoint).or (db.getUtxo outpoint) := by
  refine (Table.getElem?_eraseAll _ _ _).trans ?_
  rw [Table.getElem?_insertMany_lookup hn]
  rfl

theorem CacheAgrees.cleared (db : BalanceHistoryDB) (faults : List IoResult) :
    CacheAgrees ⟨db, fun _ => none, fun _ => none, faults⟩ where
  utxo := by
    intro outpoint value h
    cases h
  balance := by
    intro scriptHash data h
    cases h

/-- The caches are compared with the outputs, the rows and the height of the store, and
with nothing else. -/
theorem CacheAgrees.of_same {t : HistoryState} (h : CacheAgrees s)
    (hcaches : (t.utxoCache, t.balanceCache) = (s.utxoCache, s.balanceCache))
    (hutxos : t.db.utxos = s.db.utxos) (hrows : t.db.balanceHistory = s.db.balanceHistory)
    (hheight : t.db.btcBlockHeight = s.db.btcBlockHeight) : CacheAgrees t := by
  obtain ⟨hu, hb⟩ := Prod.mk.inj hcaches
  constructor
  · intro outpoint value hget
    unfold BalanceHistoryDB.getUtxo
    rw [hutxos]
    exact h.utxo outpoint value (hu ▸ hget)
  · intro scriptHash data hget
    unfold BalanceHistoryDB.row BalanceHistoryDB.getBtcBlockHeight
    rw [hrows, hheight]
    exact h.balance scriptHash data (hb ▸ hget)

theorem loadBalance_eq (h : CacheAgrees s) (scriptHash : USDBScriptHash) :
    loadBalance s.db s.balanceCache s.db.getBtcBlockHeight scriptHash =
      .ok (s.db.getBalanceAtBlockHeight scriptHash s.db.getBtcBlockHeight) := by
  unfold loadBalance
  cases hget : s.balanceCache scriptHash with
  | none => rfl
  | some cached =>
    obtain ⟨hlast, hle⟩ := h.balance scriptHash cached hget
    dsimp only
    rw [if_pos hle, getBalanceAtBlockHeight_of_lastRow hlast hle]

theorem fetchUtxo_eq (h : CacheAgrees s) (env : BatchEnv) (outpoint : OutPoint) :
    fetchUtxo env s.db s.utxoCache outpoint = fetchUtxo env s.db (fun _ => none) outpoint := by
  unfold fetchUtxo
  cases hget : s.utxoCache outpoint with
  | none => rfl
  | some value =>
    rw [h.utxo outpoint value hget]
    rfl

/-- With caches that agree, a batch loads what it loads with empty ones. -/
theorem CacheAgrees.preload_eq (h : CacheAgrees s) (env : BatchEnv) (blocks : List Block) :
    preload env s (s.db.getBtcBlockHeight + 1) blocks =
      preload env { s with utxoCache := fun _ => none, balanceCache := fun _ => none }
        (s.db.getBtcBlockHeight + 1) blocks := by
  have hvin : preloadVin env s.db s.utxoCache = preloadVin env s.db (fun _ => none) := by
    funext created height vin
    unfold preloadVin
    rw [fetchUtxo_eq h]
  have hutxos : preloadUtxos env s.db s.utxoCache = preloadUtxos env s.db (fun _ => none) := by
    unfold preloadUtxos
    rw [hvin]
  have hload : loadBalance s.db s.balanceCache s.db.getBtcBlockHeight =
      loadBalance s.db (fun _ => none) s.db.getBtcBlockHeight := by
    funext scriptHash
    rw [loadBalance_eq h]
    rfl
  have hstart : startBalances s (s.db.getBtcBlockHeight + 1) =
      startBalances { s with utxoCache := fun _ => none, balanceCache := fun _ => none }
        (s.db.getBtcBlockHeight + 1) := by
    funext blocks
    unfold startBalances preloadBalances
    rw [Nat.add_sub_cancel, hload]
  unfold preload
  rw [hutxos, hstart]

end Caches

section Batch

variable {env : BatchEnv} {s : HistoryState} {latestBtcHeight undoRetentionBlocks : Nat}
  {blocks : List Block} {data : BatchBlockData} {update : BlockStateUpdateBatch}
  {created : Table OutPoint VOutUtxoInfo} {initial : Table USDBScriptHash BalanceHistoryData}

/-- A balance a batch starts with is the one of the cache or of the store. -/
theorem startBalances_some {preloaded : List PreloadBlock}
    (h : startBalances s (s.db.getBtcBlockHeight + 1) preloaded = .ok initial)
    {scriptHash : USDBScriptHash} {balance : BalanceHistoryData}
    (hget : initial[scriptHash]? = some balance) :
    loadBalance s.db s.balanceCache s.db.getBtcBlockHeight scriptHash = .ok balance := by
  unfold startBalances at h
  rw [if_pos (Nat.succ_pos _), Nat.add_sub_cancel] at h
  unfold preloadBalances at h
  obtain ⟨rows, hrows, h⟩ := bind_eq_ok_iff.mp h
  cases h
  rcases Table.getElem?_insertMany_cases (∅ : Table USDBScriptHash BalanceHistoryData) rows
    scriptHash with ⟨balance', hmem, hget'⟩ | ⟨-, hget'⟩
  · cases hget'.symm.trans hget
    obtain ⟨scriptHash', -, hload⟩ := mem_of_mapM_ok hrows hmem
    obtain ⟨balance', hload, heq⟩ := bind_eq_ok_iff.mp hload
    cases heq
    exact hload
  · rw [hget] at hget'
    cases hget'

theorem CacheAgrees.batch (h : CacheAgrees s) (ht : RowsTracked s.db)
    (hb : BatchRun env s (s.db.getBtcBlockHeight + 1) blocks latestBtcHeight undoRetentionBlocks
      data update created initial) : CacheAgrees (s.afterBatch data update) := by
  have hheight := hb.getBtcBlockHeight
  have hkeep : ∀ scriptHash balance, (∀ height,
      deltaRow data.blockBalanceDeltas scriptHash height = none) →
      LastRow (s.db.row scriptHash) balance →
      LastRow ((s.db.updateBlockState update).row scriptHash) balance := by
    intro scriptHash balance hnone hlast
    have hsame : (s.db.updateBlockState update).row scriptHash = s.db.row scriptHash := by
      funext height
      rw [hb.row, hnone]
      rfl
    rw [hsame]
    exact hlast
  constructor
  · intro outpoint value hget
    have hn : (update.newUtxos.map (·.1)).Nodup := by
      obtain ⟨previousCommit, scripts, -, -, rfl⟩ := collectUpdates_eq_ok.mp hb.collected
      exact collectNewUtxos_nodup data
    have hget' : cacheUtxos update.newUtxos update.removeUtxos s.utxoCache outpoint =
      some value := hget
    rw [cacheUtxos_eq hn] at hget'
    refine (getUtxo_updateBlockState s.db hn outpoint).trans ?_
    split at hget'
    · cases hget'
    · rename_i hkept
      rw [if_neg hkept]
      cases hlook : update.newUtxos.lookup outpoint with
      | some value' =>
        rw [hlook] at hget'
        exact hget'
      | none =>
        rw [hlook] at hget'
        exact h.utxo outpoint value hget'
  · intro scriptHash balance hget
    have hget' : cacheBalances data.balances.toList s.balanceCache scriptHash = some balance :=
      hget
    rw [cacheBalances_eq] at hget'
    show LastRow ((s.db.updateBlockState update).row scriptHash) balance ∧
      balance.blockHeight ≤ (s.db.updateBlockState update).getBtcBlockHeight
    rw [hheight]
    -- the batch left a row for the script hash, or the balance is the one it started with
    rcases processBlocksOf_balance hb.heights_pairwise hb.processed scriptHash with
      ⟨last, hlast, hfinal⟩ | ⟨hnone, hfinal⟩
    · rw [hfinal] at hget'
      dsimp only at hget'
      split at hget'
      · cases hget'
      · cases hget'
        have hrange := hb.deltaRow_range hlast.row
        refine ⟨⟨?_, ?_⟩, by omega⟩
        · rw [hb.row, hlast.row]
          rfl
        · intro height hlt
          rw [hb.row, hlast.above height hlt]
          cases hrow : s.db.row scriptHash height with
          | none => rfl
          | some value =>
            have hle := ht.rows_le scriptHash height value hrow
            omega
    · rw [hfinal] at hget'
      cases hinit : initial[scriptHash]? with
      | none =>
        rw [hinit] at hget'
        obtain ⟨hlast, hle⟩ := h.balance scriptHash balance hget'
        exact ⟨hkeep scriptHash balance hnone hlast, by omega⟩
      | some start =>
        rw [hinit] at hget'
        dsimp only at hget'
        split at hget'
        · cases hget'
        · rename_i hpos
          cases hget'
          have hload := startBalances_some hb.loaded hinit
          rw [loadBalance_eq h] at hload
          cases hload
          obtain ⟨hlast, hle⟩ := lastRow_of_getBalanceAtBlockHeight (by
            intro height hlt
            cases hrow : s.db.row scriptHash height with
            | none => rfl
            | some value =>
              have hle := ht.rows_le scriptHash height value hrow
              omega) hpos
          exact ⟨hkeep scriptHash _ hnone hlast, by omega⟩

end Batch

end Usdb.Balances
