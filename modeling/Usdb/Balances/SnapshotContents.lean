import Usdb.Balances.SnapshotExport

namespace Usdb.Balances

open Framework BalanceHistoryDB

section Shards

variable {α β : Type} {rows : UInt8 → List α} {f : α → β} {all : List α}
  {batches : List (List β)} {batchSize : Nat}

/-- The batches of all shards together, in any order, have all rows. -/
theorem flatten_shards_perm
    (horder : batches.Perm ((List.range 256).flatMap (fun shardIndex =>
      buffers batchSize ((rows (UInt8.ofNat shardIndex)).map f) [])))
    (hrows : ((List.range 256).flatMap (fun shardIndex => rows (UInt8.ofNat shardIndex))).Perm
      all) :
    batches.flatten.Perm (all.map f) := by
  have hall : ((List.range 256).flatMap (fun shardIndex =>
      buffers batchSize ((rows (UInt8.ofNat shardIndex)).map f) [])).flatten =
      ((List.range 256).flatMap (fun shardIndex => rows (UInt8.ofNat shardIndex))).map f := by
    rw [List.map_flatMap, List.flatMap_def, List.flatten_flatten, List.map_map, ← List.flatMap_def]
    congr 1
    funext shardIndex
    exact (flatten_buffers _ _ _).trans (List.nil_append _)
  refine horder.flatten.trans ?_
  rw [hall]
  exact hrows.map _

end Shards

section UtxoShards

variable {db : BalanceHistoryDB} {row row' : OutPoint × UTXOValue}

/-- The keys of the UTXO family have 36 bytes and its amounts eight. -/
def BalanceHistoryDB.UtxosFit (db : BalanceHistoryDB) : Prop :=
  ∀ row ∈ db.utxos.toList, row.1.txid < 2 ^ 256 ∧ row.1.vout < 2 ^ 32 ∧ row.2.value < 2 ^ 64

theorem OutPoint.compare_isLE (outpoint outpoint' : OutPoint) :
    (compare outpoint outpoint').isLE ↔
      outpoint.txid < outpoint'.txid ∨
        outpoint.txid = outpoint'.txid ∧ outpoint.vout ≤ outpoint'.vout := by
  have h : compare outpoint outpoint' =
      (compare outpoint.txid outpoint'.txid).then (compare outpoint.vout outpoint'.vout) := rfl
  rw [h, Ordering.isLE_then_iff_or, Std.compare_eq_iff_eq, Nat.isLE_compare, Nat.compare_eq_lt]

theorem utxoShardOf_eq_iff {outpoint : OutPoint} (hfit : outpoint.txid < 2 ^ 256)
    (shardIndex : UInt8) : utxoShardOf outpoint = shardIndex ↔
      outpoint.txid / 2 ^ 248 = shardIndex.toNat := by
  have hlt : outpoint.txid / 2 ^ 248 < 256 := by
    rw [Nat.div_lt_iff_lt_mul (Nat.two_pow_pos 248)]
    exact hfit
  unfold utxoShardOf
  rw [← UInt8.toNat_inj, UInt8.toNat_ofNat', Nat.mod_eq_of_lt hlt]

theorem mem_utxoShardRows (hfit : db.UtxosFit) (shardIndex : UInt8) :
    row ∈ db.utxoShardRows shardIndex ↔
      row ∈ db.utxos.toList ∧ utxoShardOf row.1 = shardIndex := by
  have hseek : (utxoSeekKey shardIndex).txid + 1 = (shardIndex.toNat + 1) * 2 ^ 248 := by
    have hpos : 0 < (shardIndex.toNat + 1) * 2 ^ 248 :=
      Nat.mul_pos (Nat.succ_pos _) (Nat.two_pow_pos 248)
    unfold utxoSeekKey
    rw [Nat.sub_add_cancel hpos]
  unfold utxoShardRows
  rw [Table.takeWhile_descend, List.mem_reverse, List.mem_filter]
  · refine and_congr_right ?_
    intro hmem
    obtain ⟨htxid, hvout, -⟩ := hfit row hmem
    rw [Bool.and_eq_true, decide_eq_true_iff]
    refine ⟨fun h => h.2, fun h => ⟨?_, h⟩⟩
    rw [utxoShardOf_eq_iff htxid] at h
    have hbelow : row.1.txid < (shardIndex.toNat + 1) * 2 ^ 248 := by
      rw [← Nat.div_lt_iff_lt_mul (Nat.two_pow_pos 248), h]
      exact Nat.lt_succ_self _
    rw [← hseek] at hbelow
    rw [OutPoint.compare_isLE]
    rcases Nat.lt_or_eq_of_le (Nat.le_of_lt_succ hbelow) with hless | heq
    · exact .inl hless
    · exact .inr ⟨heq, Nat.le_sub_one_of_lt hvout⟩
  · intro a ha b hb hlt hshard
    have hafit := (hfit a (Table.mem_descend.mp ha).1).1
    have hbfit := (hfit b (Table.mem_descend.mp hb).1).1
    rw [decide_eq_true_iff, utxoShardOf_eq_iff hbfit] at hshard
    rw [decide_eq_true_iff, utxoShardOf_eq_iff hafit]
    have hle : (compare b.1 a.1).isLE := by
      rw [hlt]
      rfl
    have hbelow : b.1.txid ≤ a.1.txid := by
      rcases (OutPoint.compare_isLE _ _).mp hle with hless | ⟨heq, -⟩
      · exact Nat.le_of_lt hless
      · exact Nat.le_of_eq heq
    have habove : a.1.txid < (shardIndex.toNat + 1) * 2 ^ 248 := by
      rw [← hseek]
      rcases (OutPoint.compare_isLE _ _).mp (Table.mem_descend.mp ha).2 with hless | ⟨heq, -⟩
      · exact Nat.lt_succ_of_lt hless
      · rw [heq]
        exact Nat.lt_succ_self _
    apply Nat.le_antisymm
    · rw [← Nat.lt_succ_iff, Nat.div_lt_iff_lt_mul (Nat.two_pow_pos 248)]
      exact habove
    · rw [← hshard]
      exact Nat.div_le_div_right hbelow

theorem generateUtxoSnapshotParallel_perm (order : ShardOrder) (hfit : db.UtxosFit) :
    (generateUtxoSnapshotParallel order db).flatten.Perm (db.utxos.toList.map utxoEntry) :=
  flatten_shards_perm (order.utxos_perm _)
    (Table.shards_perm (fun shardIndex _ => mem_utxoShardRows hfit shardIndex)
      (fun _ => Table.nodup_takeWhile_descend _ _ _))

end UtxoShards

section ScriptShards

variable {db : BalanceHistoryDB} {row : USDBScriptHash × ScriptBuf}

theorem scriptSeekKey_val (shardIndex : UInt8) :
    (scriptSeekKey shardIndex).val + 1 = (shardIndex.toNat + 1) * 2 ^ 248 :=
  shardSeekKey_val shardIndex

theorem mem_scriptShardRows (db : BalanceHistoryDB) (shardIndex : UInt8) :
    row ∈ db.scriptShardRows shardIndex ↔
      row ∈ db.scriptRegistry.toList ∧ shardOf row.1 = shardIndex := by
  have hseek := scriptSeekKey_val shardIndex
  have hle : ∀ {s s' : USDBScriptHash}, (compare s s').isLE ↔ s.val ≤ s'.val := by
    intro s s'
    exact Nat.isLE_compare
  unfold scriptShardRows
  rw [Table.takeWhile_descend, List.mem_reverse, List.mem_filter]
  · refine and_congr_right (fun _ => ?_)
    rw [Bool.and_eq_true, decide_eq_true_iff]
    refine ⟨fun h => h.2, fun h => ⟨hle.mpr ?_, h⟩⟩
    have hlt := ((shardOf_eq_iff _ _).mp h).2
    omega
  · intro a ha b _ hlt hshard
    rw [decide_eq_true_iff, shardOf_eq_iff] at hshard ⊢
    have hbelow := hle.mp (Table.mem_descend.mp ha).2
    have habove : b.1.val ≤ a.1.val := hle.mp (by rw [hlt]; rfl)
    omega

theorem generateScriptRegistrySnapshotParallel_perm (order : ShardOrder)
    (db : BalanceHistoryDB) :
    (generateScriptRegistrySnapshotParallel order db).flatten.Perm
      (db.scriptRegistry.toList.map ScriptRegistryEntry.ofRow) :=
  flatten_shards_perm (order.scripts_perm _)
    (Table.shards_perm (fun shardIndex _ => mem_scriptShardRows db shardIndex)
      (fun _ => Table.nodup_takeWhile_descend _ _ _))

end ScriptShards

section Tables

open SnapshotGenerator

variable {κ ν α : Type} [Ord κ] [Std.TransOrd κ] [Std.LawfulEqOrd κ] [DecidableEq κ]
  {put : SnapshotDB → List α → Except SnapshotError SnapshotDB}
  {toRow : α → κ × ν} {batches : List (List α)}

/-- Batches of rows with distinct keys fill a table and are counted. -/
theorem foldlM_putCounted (set : Table κ ν → SnapshotDB)
    (hput : ∀ t entries, put (set t) entries =
      match t.insertRows (entries.map toRow) with
      | some t' => .ok (set t')
      | none => .error .insertRefused)
    (hn : (batches.flatten.map (fun a => (toRow a).1)).Nodup) :
    batches.foldlM (putCounted put) (set ∅, 0) =
      .ok (set ((∅ : Table κ ν).insertMany (batches.flatten.map toRow)),
        batches.flatten.length) := by
  have hrun : ∀ (batches : List (List α)) (t t' : Table κ ν) (n : Nat),
      (batches.map (·.map toRow)).foldlM Table.insertRows t = some t' →
      batches.foldlM (putCounted put) (set t, n) = .ok (set t', n + batches.flatten.length) := by
    intro batches
    induction batches with
    | nil =>
      intro t t' n h
      cases h
      rfl
    | cons batch batches ih =>
      intro t t' n h
      rw [List.map_cons, List.foldlM_cons] at h
      obtain ⟨t₁, hfirst, hrest⟩ := Option.bind_eq_some_iff.mp h
      have hone : putCounted put (set t, n) batch = .ok (set t₁, n + batch.length) := by
        unfold putCounted
        rw [hput, hfirst]
        rfl
      rw [List.foldlM_cons, List.flatten_cons, List.length_append, ← Nat.add_assoc]
      exact bind_eq_ok_iff.mpr ⟨_, hone, ih t₁ t' _ hrest⟩
  have hflat : (batches.map (·.map toRow)).flatten = batches.flatten.map toRow :=
    List.map_flatten.symm
  have hnodup : ((batches.map (·.map toRow)).flatten.map (·.1)).Nodup := by
    rw [hflat, List.map_map]
    exact hn
  have hinsert := Table.foldlM_insertRows (t := (∅ : Table κ ν)) hnodup (by simp)
  rw [hflat] at hinsert
  simpa using hrun batches ∅ _ 0 hinsert

end Tables

section Callbacks

open SnapshotGenerator

variable {snapshot : SnapshotDB}

theorem foldlM_onBalanceHistoryEntries {batches : List (List BalanceHistoryEntry)}
    (hempty : snapshot.balanceHistory = ∅)
    (hn : (batches.flatten.map (·.scriptHash)).Nodup) :
    batches.foldlM onBalanceHistoryEntries (snapshot, 0) =
      .ok ({ snapshot with
        balanceHistory := (∅ : Table _ _).insertMany (batches.flatten.map (·.toRow)) },
        batches.flatten.length) := by
  obtain ⟨metas, balanceHistory, utxos, blockCommits, scriptRegistry⟩ := snapshot
  obtain rfl : balanceHistory = ∅ := hempty
  apply foldlM_putCounted (fun balanceHistory =>
    ⟨metas, balanceHistory, utxos, blockCommits, scriptRegistry⟩)
  · intro t entries
    unfold SnapshotDB.putBalanceHistoryEntries
    cases t.insertRows (entries.map (·.toRow)) <;> rfl
  · exact hn

theorem foldlM_onUtxoEntries {batches : List (List UTXOEntry)} (hempty : snapshot.utxos = ∅)
    (hn : (batches.flatten.map (·.outpoint)).Nodup) :
    batches.foldlM onUtxoEntries (snapshot, 0) =
      .ok ({ snapshot with utxos := (∅ : Table _ _).insertMany (batches.flatten.map (·.toRow)) },
        batches.flatten.length) := by
  obtain ⟨metas, balanceHistory, utxos, blockCommits, scriptRegistry⟩ := snapshot
  obtain rfl : utxos = ∅ := hempty
  apply foldlM_putCounted (fun utxos =>
    ⟨metas, balanceHistory, utxos, blockCommits, scriptRegistry⟩)
  · intro t entries
    unfold SnapshotDB.putUtxoEntries
    cases t.insertRows (entries.map (·.toRow)) <;> rfl
  · exact hn

theorem foldlM_onBlockCommitEntries {batches : List (List BlockCommitEntry)}
    (hempty : snapshot.blockCommits = ∅)
    (hn : (batches.flatten.map (·.blockHeight)).Nodup) :
    batches.foldlM onBlockCommitEntries (snapshot, 0) =
      .ok ({ snapshot with
        blockCommits := (∅ : Table _ _).insertMany (batches.flatten.map (·.toRow)) },
        batches.flatten.length) := by
  obtain ⟨metas, balanceHistory, utxos, blockCommits, scriptRegistry⟩ := snapshot
  obtain rfl : blockCommits = ∅ := hempty
  apply foldlM_putCounted (fun blockCommits =>
    ⟨metas, balanceHistory, utxos, blockCommits, scriptRegistry⟩)
  · intro t entries
    unfold SnapshotDB.putBlockCommitEntries
    cases t.insertRows (entries.map (·.toRow)) <;> rfl
  · exact hn

/-- Rows that replace others are all written. -/
theorem foldlM_onScriptRegistryEntries (batches : List (List ScriptRegistryEntry))
    (snapshot : SnapshotDB) (n : Nat) :
    batches.foldlM onScriptRegistryEntries (snapshot, n) =
      .ok ({ snapshot with
        scriptRegistry := snapshot.scriptRegistry.insertMany (batches.flatten.map (·.toRow)) },
        n + batches.flatten.length) := by
  induction batches generalizing snapshot n with
  | nil => rfl
  | cons batch batches ih =>
    rw [List.foldlM_cons]
    refine bind_eq_ok_iff.mpr ⟨_, rfl, (ih _ _).trans ?_⟩
    rw [List.flatten_cons, List.map_append, Table.insertMany_append, List.length_append,
      Nat.add_assoc]

end Callbacks

section Exports

open SnapshotGenerator SnapshotIndexer

/-- The row of a script hash in an export. -/
def balanceRowAt (db : BalanceHistoryDB) (targetBlockHeight : Nat) (scriptHash : USDBScriptHash) :
    Option BalanceHistoryRow :=
  let data := db.getBalanceAtBlockHeight scriptHash targetBlockHeight
  if 0 < data.balance then some ⟨data.blockHeight, asI64 data.balance, data.delta⟩ else none

/-- What a snapshot has of a store: the balances at a height that are not zero, the
outputs when they are asked for, the commits up to the height, and all scripts. -/
structure Exports (db : BalanceHistoryDB) (targetBlockHeight : Nat) (withUtxo : Bool)
    (snapshot : SnapshotDB) : Prop where
  balances : ∀ scriptHash, snapshot.balanceHistory[scriptHash]? =
    balanceRowAt db targetBlockHeight scriptHash
  utxos : ∀ outpoint, snapshot.utxos[outpoint]? =
    if withUtxo then (db.getUtxo outpoint).map (fun utxo => ⟨utxo.scriptHash, asI64 utxo.value⟩)
    else none
  commits : ∀ height, snapshot.blockCommits[height]? =
    if height ≤ targetBlockHeight then db.blockCommits[height]? else none
  scripts : snapshot.scriptRegistry = db.scriptRegistry
  metas : ∃ generatedAt, snapshot.metas =
    [⟨targetBlockHeight, snapshot.balanceHistory.toList.length, snapshot.utxos.toList.length,
      snapshot.blockCommits.toList.length, snapshot.scriptRegistry.toList.length, generatedAt,
      snapshotDbVersion⟩]

variable {db : BalanceHistoryDB} {targetBlockHeight : Nat}

theorem mem_balanceRows {entries : List BalanceHistoryEntry} (h : VisitsAtHeight db
    targetBlockHeight (fun _ => True) entries) (scriptHash : USDBScriptHash)
    (row : BalanceHistoryRow) :
    (scriptHash, row) ∈ entries.map (·.toRow) ↔
      balanceRowAt db targetBlockHeight scriptHash = some row := by
  rw [List.mem_map]
  unfold balanceRowAt
  constructor
  · rintro ⟨entry, hmem, heq⟩
    obtain ⟨-, hpos, hget⟩ := (h.mem entry).mp hmem
    cases heq
    rw [hget]
    exact if_pos hpos
  · intro hrow
    dsimp only at hrow
    split at hrow
    · rename_i hpos
      cases hrow
      exact ⟨⟨scriptHash, _, _, _⟩, (h.mem _).mpr ⟨trivial, hpos, rfl⟩, rfl⟩
    · cases hrow

theorem balanceTable_get {entries : List BalanceHistoryEntry} (h : VisitsAtHeight db
    targetBlockHeight (fun _ => True) entries) (scriptHash : USDBScriptHash) :
    ((∅ : Table _ _).insertMany (entries.map (·.toRow)))[scriptHash]? =
      balanceRowAt db targetBlockHeight scriptHash := by
  have hn : ((entries.map (·.toRow)).map (·.1)).Nodup := by
    rw [List.map_map]
    exact h.once
  rw [Table.getElem?_insertMany_empty hn]
  exact Table.lookup_eq_of_mem hn (mem_balanceRows h) scriptHash

theorem utxoTable_get {entries : List UTXOEntry}
    (h : entries.Perm (db.utxos.toList.map utxoEntry)) (outpoint : OutPoint) :
    ((∅ : Table _ _).insertMany (entries.map (·.toRow)))[outpoint]? =
      (db.getUtxo outpoint).map (fun utxo => ⟨utxo.scriptHash, asI64 utxo.value⟩) := by
  have hrows : (db.utxos.toList.map utxoEntry).map (·.toRow) = db.utxos.toList.map
      (fun row => (row.1, (⟨row.2.scriptHash, asI64 row.2.value⟩ : UTXORow))) := by
    rw [List.map_map]
    rfl
  have hn : ((entries.map (·.toRow)).map (·.1)).Nodup := by
    rw [((h.map _).map _).nodup_iff, hrows, List.map_map]
    exact Table.toList_keys_nodup db.utxos
  rw [Table.insertMany_perm (h.map _) hn, Table.getElem?_insertMany_empty (by
    rw [← ((h.map _).map _).nodup_iff]
    exact hn), hrows]
  refine (Table.lookup_map_value (fun utxo : UTXOValue =>
    (⟨utxo.scriptHash, asI64 utxo.value⟩ : UTXORow)) _ outpoint).trans ?_
  rw [Table.lookup_toList]
  rfl

theorem commitRows_eq (db : BalanceHistoryDB) (targetBlockHeight : Nat) :
    (db.generateBlockCommitSnapshot targetBlockHeight).flatten.map (·.toRow) =
      db.blockCommits.toList.filter (fun row => row.1 ≤ targetBlockHeight) := by
  have hwhile : db.blockCommits.toList.takeWhile (fun row => row.1 ≤ targetBlockHeight) =
      db.blockCommits.toList.filter (fun row => row.1 ≤ targetBlockHeight) := by
    apply takeWhile_eq_filter (Table.toList_pairwise db.blockCommits)
    intro a _ b _ hlt hle
    rw [Nat.compare_eq_lt] at hlt
    simp only [decide_eq_true_eq] at hle ⊢
    omega
  unfold generateBlockCommitSnapshot
  rw [flatten_buffers, List.nil_append, hwhile, List.map_map]
  exact List.map_id _

theorem commitRows_nodup (db : BalanceHistoryDB) (targetBlockHeight : Nat) :
    (((db.generateBlockCommitSnapshot targetBlockHeight).flatten.map (·.toRow)).map
      (·.1)).Nodup := by
  rw [commitRows_eq]
  exact (Table.toList_keys_nodup db.blockCommits).sublist (List.filter_sublist.map _)

theorem commitTable_get (db : BalanceHistoryDB) (targetBlockHeight height : Nat) :
    ((∅ : Table _ _).insertMany ((db.generateBlockCommitSnapshot targetBlockHeight).flatten.map
      (·.toRow)))[height]? = if height ≤ targetBlockHeight then db.blockCommits[height]? else none := by
  have hn := commitRows_nodup db targetBlockHeight
  rw [Table.getElem?_insertMany_empty hn]
  apply Table.lookup_eq_of_mem hn
    (f := fun height => if height ≤ targetBlockHeight then db.blockCommits[height]? else none)
  intro k v
  rw [commitRows_eq, List.mem_filter, Table.mem_toList, decide_eq_true_eq]
  split <;> simp [*]

/-- An empty table has as many rows as were put into it. -/
theorem length_insertMany {κ ν : Type} [Ord κ] [Std.TransOrd κ] [Std.LawfulEqOrd κ] [DecidableEq κ]
    {rows : List (κ × ν)} (hn : (rows.map (·.1)).Nodup) :
    ((∅ : Table κ ν).insertMany rows).toList.length = rows.length :=
  (Table.toList_insertMany_empty hn).length_eq

variable {order : ShardOrder} {snapshot : SnapshotDB}

theorem writeBalances_ok (order : ShardOrder) (hrows : db.HeightsFit) (targetBlockHeight : Nat)
    (hempty : snapshot.balanceHistory = ∅) :
    ∃ balanceHistory, ((generateBalanceHistorySnapshotParallel order db targetBlockHeight).map
        (·.1)).foldlM onBalanceHistoryEntries (snapshot, 0) =
        .ok ({ snapshot with balanceHistory }, balanceHistory.toList.length) ∧
      ∀ scriptHash, balanceHistory[scriptHash]? =
        balanceRowAt db targetBlockHeight scriptHash := by
  have hvisits := shardBatches_merged hrows targetBlockHeight snapshotBatchSize
    (order.balances_perm ((List.range 256).flatMap (fun shardIndex =>
      db.shardBatches targetBlockHeight snapshotBatchSize (UInt8.ofNat shardIndex))))
  rw [List.flatMap_def] at hvisits
  refine ⟨_, ?_, balanceTable_get hvisits⟩
  rw [length_insertMany (by rw [List.map_map]; exact hvisits.once), List.length_map]
  exact foldlM_onBalanceHistoryEntries hempty hvisits.once

theorem writeUtxos_ok (order : ShardOrder) (hutxos : db.UtxosFit) (withUtxo : Bool)
    (hempty : snapshot.utxos = ∅) :
    ∃ utxos, writeUtxos order db withUtxo snapshot =
        .ok ({ snapshot with utxos }, utxos.toList.length) ∧
      ∀ outpoint, utxos[outpoint]? = if withUtxo then
        (db.getUtxo outpoint).map (fun utxo => ⟨utxo.scriptHash, asI64 utxo.value⟩) else none := by
  cases withUtxo with
  | false =>
    refine ⟨∅, ?_, fun _ => by simp⟩
    obtain ⟨metas, balanceHistory, utxos, blockCommits, scriptRegistry⟩ := snapshot
    obtain rfl : utxos = ∅ := hempty
    rfl
  | true =>
  have hperm := generateUtxoSnapshotParallel_perm order hutxos
  have hn : ((generateUtxoSnapshotParallel order db).flatten.map (·.outpoint)).Nodup := by
    rw [(hperm.map _).nodup_iff, List.map_map]
    exact Table.toList_keys_nodup db.utxos
  refine ⟨_, ?_, utxoTable_get hperm⟩
  rw [length_insertMany (by rw [List.map_map]; exact hn), List.length_map]
  exact foldlM_onUtxoEntries hempty hn

theorem writeBlockCommits_ok (db : BalanceHistoryDB) (targetBlockHeight : Nat)
    (hempty : snapshot.blockCommits = ∅) :
    ∃ blockCommits, (db.generateBlockCommitSnapshot targetBlockHeight).foldlM
        onBlockCommitEntries (snapshot, 0) =
        .ok ({ snapshot with blockCommits }, blockCommits.toList.length) ∧
      ∀ height, blockCommits[height]? =
        if height ≤ targetBlockHeight then db.blockCommits[height]? else none := by
  have hn := commitRows_nodup db targetBlockHeight
  refine ⟨_, ?_, commitTable_get db targetBlockHeight⟩
  rw [length_insertMany hn, List.length_map]
  rw [List.map_map] at hn
  exact foldlM_onBlockCommitEntries hempty hn

theorem writeScriptRegistry_ok (order : ShardOrder) (db : BalanceHistoryDB)
    (hempty : snapshot.scriptRegistry = ∅) :
    (generateScriptRegistrySnapshotParallel order db).foldlM onScriptRegistryEntries (snapshot, 0) =
      .ok ({ snapshot with scriptRegistry := db.scriptRegistry },
        db.scriptRegistry.toList.length) := by
  have hperm := (generateScriptRegistrySnapshotParallel_perm order db).map (·.toRow)
  have hrows : (db.scriptRegistry.toList.map ScriptRegistryEntry.ofRow).map (·.toRow) =
      db.scriptRegistry.toList := by
    rw [List.map_map]
    exact List.map_id _
  rw [hrows] at hperm
  have hn := (hperm.map (·.1)).nodup_iff.mpr (Table.toList_keys_nodup db.scriptRegistry)
  rw [foldlM_onScriptRegistryEntries, hempty, Nat.zero_add, ← List.length_map (·.toRow),
    hperm.length_eq, Table.insertMany_perm hperm hn, Table.insertMany_empty_toList]

/-- An export of a store whose values fit their widths goes through. -/
theorem writeTables_ok (order : ShardOrder) (hrows : db.HeightsFit) (hutxos : db.UtxosFit)
    (targetBlockHeight : Nat) (withUtxo : Bool) (generatedAt : Nat) :
    ∃ snapshot, writeTables order db targetBlockHeight withUtxo generatedAt = .ok snapshot ∧
      Exports db targetBlockHeight withUtxo snapshot := by
  obtain ⟨balanceHistory, hbalances, hscripts⟩ :=
    @writeBalances_ok db .empty order hrows targetBlockHeight rfl
  obtain ⟨utxos, hutxos, houtpoints⟩ := @writeUtxos_ok db
    { SnapshotDB.empty with balanceHistory } order hutxos withUtxo rfl
  obtain ⟨blockCommits, hcommits, hheights⟩ := @writeBlockCommits_ok
    { SnapshotDB.empty with balanceHistory, utxos } db targetBlockHeight rfl
  have hregistry := @writeScriptRegistry_ok
    { SnapshotDB.empty with balanceHistory, utxos, blockCommits } order db rfl
  refine ⟨⟨[⟨targetBlockHeight, balanceHistory.toList.length, utxos.toList.length,
    blockCommits.toList.length, db.scriptRegistry.toList.length, generatedAt, snapshotDbVersion⟩],
    balanceHistory, utxos, blockCommits, db.scriptRegistry⟩, ?_, hscripts, houtpoints, hheights,
    rfl, generatedAt, rfl⟩
  unfold writeTables
  exact bind_eq_ok_iff.mpr ⟨_, hbalances, bind_eq_ok_iff.mpr ⟨_, hutxos,
    bind_eq_ok_iff.mpr ⟨_, hcommits, bind_eq_ok_iff.mpr ⟨_, hregistry, rfl⟩⟩⟩⟩

/-- `run` writes the file of a height that the store has reached and has a commit for,
and with outputs only of the height it stands at. -/
theorem run_ok (env : ExportEnv) (hrows : db.HeightsFit) (hutxos : db.UtxosFit)
    {withUtxo : Bool} (htarget : targetBlockHeight ≤ db.getBtcBlockHeight)
    (htip : withUtxo = true → targetBlockHeight = db.getBtcBlockHeight)
    {stateRef : HistoricalSnapshotStateRef}
    (hstate : buildHistoricalStateRefAtHeight env.config db targetBlockHeight = some stateRef) :
    ∃ exported, run env db targetBlockHeight withUtxo = .ok exported ∧
      Exports db targetBlockHeight withUtxo exported.file.db ∧
      exported.manifest = SnapshotManifest.build exported.file.name exported.file.sha256 stateRef
        (env.signingKey.map (·.keyId)) env.generatedAt ∧
      exported.signature = env.signingKey.map (·.sign exported.manifest) := by
  obtain ⟨snapshot, hwrite, hexports⟩ := writeTables_ok env.order hrows hutxos targetBlockHeight
    withUtxo env.generatedAt
  have hold : ¬ targetBlockHeight > db.getBtcBlockHeight := Nat.not_lt_of_le htarget
  have hat : ¬ (withUtxo = true ∧ targetBlockHeight ≠ db.getBtcBlockHeight) :=
    fun h => h.2 (htip h.1)
  let manifest := SnapshotManifest.build (snapshotFileName targetBlockHeight)
    (env.fileSha256 snapshot) stateRef (env.signingKey.map (·.keyId)) env.generatedAt
  refine ⟨⟨⟨snapshotFileName targetBlockHeight, env.fileSha256 snapshot, snapshot⟩, manifest,
    env.signingKey.map (·.sign manifest)⟩, ?_, hexports, rfl, rfl⟩
  unfold run
  rw [if_neg hold, if_neg hat, hstate]
  exact bind_eq_ok_iff.mpr ⟨_, hwrite, rfl⟩

end Exports

end Usdb.Balances
