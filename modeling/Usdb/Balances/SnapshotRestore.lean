import Usdb.Balances.LedgerAgreement
import Usdb.Balances.SnapshotAtomic

namespace Usdb.Balances

open Framework Unspent BalanceHistoryDB SnapshotInstaller

section Restored

variable {snapshot : SnapshotDB} {snapshotMeta : SnapshotMeta}

/-- The metadata counts the rows of every table. -/
structure CountsAll (snapshot : SnapshotDB) (snapshotMeta : SnapshotMeta) : Prop where
  balances : snapshotMeta.balanceHistoryCount = snapshot.balanceHistory.toList.length
  utxos : snapshotMeta.utxoCount = snapshot.utxos.toList.length
  commits : snapshotMeta.blockCommitCount = snapshot.blockCommits.toList.length
  scripts : snapshotMeta.scriptRegistryCount = snapshot.scriptRegistry.toList.length

theorem CountsAll.counted (h : CountsAll snapshot snapshotMeta) :
    Counted snapshot snapshotMeta :=
  ⟨.inr h.balances, .inr h.utxos, .inr h.commits, .inr h.scripts⟩

/-- To skip a table without rows is to write none. -/
theorem ite_put_toList {κ ν : Type} [Ord κ] [Std.TransOrd κ] (t : Table κ ν) (count : Nat)
    (put : List (κ × ν) → BalanceHistoryDB → BalanceHistoryDB) (hput : ∀ db, put [] db = db)
    (hcount : count = t.toList.length) (db : BalanceHistoryDB) :
    (if count = 0 then db else put t.toList db) = put t.toList db := by
  split
  · rename_i hzero
    have hnil : t.toList = [] := List.length_eq_zero_iff.mp (hcount.symm.trans hzero)
    rw [hnil, hput]
  · rfl

/-- The row of the balance family that a row of a file becomes. -/
def restoredBalance (row : USDBScriptHash × BalanceHistoryRow) : BalanceKey × BalanceValue :=
  (⟨row.1, row.2.height⟩, ⟨row.2.delta, asU64 row.2.balance⟩)

def restoredUtxo (row : OutPoint × UTXORow) : OutPoint × UTXOValue :=
  (row.1, ⟨asU64 row.2.value, row.2.scriptHash⟩)

theorem stagedDb_eq (h : CountsAll snapshot snapshotMeta) :
    stagedDb snapshot snapshotMeta =
      { BalanceHistoryDB.empty with
        balanceHistory := (∅ : Table _ _).insertMany
          (snapshot.balanceHistory.toList.map restoredBalance)
        utxos := (∅ : Table _ _).insertMany (snapshot.utxos.toList.map restoredUtxo)
        blockCommits := snapshot.blockCommits
        scriptRegistry := snapshot.scriptRegistry
        btcBlockHeight := some snapshotMeta.blockHeight } := by
  have hbalances := ite_put_toList snapshot.balanceHistory snapshotMeta.balanceHistoryCount
    (fun rows => putAddressHistoryAsync (rows.map BalanceHistoryEntry.ofRow))
    (fun db => by simp [putAddressHistoryAsync]) h.balances
  have hutxos := ite_put_toList snapshot.utxos snapshotMeta.utxoCount
    (fun rows => putUtxos (rows.map UTXOEntry.ofRow)) (fun db => by simp [putUtxos]) h.utxos
  have hcommits := ite_put_toList snapshot.blockCommits snapshotMeta.blockCommitCount
    (fun rows => putBlockCommitsAsync (rows.map BlockCommitEntry.ofRow))
    (fun db => by simp [putBlockCommitsAsync]) h.commits
  have hscripts := ite_put_toList snapshot.scriptRegistry snapshotMeta.scriptRegistryCount
    (fun rows => putScriptRegistryEntries (rows.map ScriptRegistryEntry.ofRow))
    (fun db => by simp [putScriptRegistryEntries]) h.scripts
  have hcommitRows : snapshot.blockCommits.toList.map
      (fun row => (BlockCommitEntry.ofRow row).toRow) = snapshot.blockCommits.toList :=
    List.map_id _
  have hscriptRows : snapshot.scriptRegistry.toList.map
      (fun row => (ScriptRegistryEntry.ofRow row).toRow) = snapshot.scriptRegistry.toList :=
    List.map_id _
  unfold stagedDb
  dsimp only at hbalances hutxos hcommits hscripts ⊢
  rw [hscripts, hcommits, hutxos, hbalances]
  simp only [putAddressHistoryAsync, putUtxos, putBlockCommitsAsync, putScriptRegistryEntries,
    putBtcBlockHeight, List.map_map, Function.comp_def, hcommitRows, hscriptRows,
    BalanceHistoryDB.empty, Table.insertMany_empty_toList]
  rfl

theorem stagedDb_row (h : CountsAll snapshot snapshotMeta) (scriptHash : USDBScriptHash)
    (height : Nat) :
    (stagedDb snapshot snapshotMeta).row scriptHash height =
      (snapshot.balanceHistory[scriptHash]?).bind (fun row =>
        if row.height = height then some ⟨row.delta, asU64 row.balance⟩ else none) := by
  have hn : ((snapshot.balanceHistory.toList.map restoredBalance).map (·.1)).Nodup := by
    apply List.Nodup.of_map (fun key : BalanceKey => key.scriptHash)
    rw [List.map_map, List.map_map]
    exact Table.toList_keys_nodup snapshot.balanceHistory
  unfold row
  rw [stagedDb_eq h, Table.getElem?_insertMany_empty hn]
  apply Table.lookup_eq_of_mem hn (f := fun key : BalanceKey =>
    (snapshot.balanceHistory[key.scriptHash]?).bind (fun row =>
      if row.height = key.blockHeight then some ⟨row.delta, asU64 row.balance⟩ else none))
  rintro ⟨scriptHash, height⟩ value
  rw [List.mem_map, Option.bind_eq_some_iff]
  constructor
  · rintro ⟨⟨script, row⟩, hmem, heq⟩
    cases heq
    exact ⟨row, Table.mem_toList.mp hmem, if_pos rfl⟩
  · rintro ⟨row, hget, hrow⟩
    split at hrow
    · rename_i hheight
      cases hrow
      subst hheight
      exact ⟨(scriptHash, row), Table.mem_toList.mpr hget, rfl⟩
    · cases hrow

theorem stagedDb_getUtxo (h : CountsAll snapshot snapshotMeta) (outpoint : OutPoint) :
    (stagedDb snapshot snapshotMeta).getUtxo outpoint =
      (snapshot.utxos[outpoint]?).map (fun row => ⟨asU64 row.value, row.scriptHash⟩) := by
  have hn : ((snapshot.utxos.toList.map restoredUtxo).map (·.1)).Nodup := by
    rw [List.map_map]
    exact Table.toList_keys_nodup snapshot.utxos
  unfold getUtxo
  rw [stagedDb_eq h, Table.getElem?_insertMany_empty hn]
  refine (Table.lookup_map_value (fun row : UTXORow =>
    (⟨asU64 row.value, row.scriptHash⟩ : UTXOValue)) _ outpoint).trans ?_
  rw [Table.lookup_toList]

theorem stagedDb_blockCommits (h : CountsAll snapshot snapshotMeta) :
    (stagedDb snapshot snapshotMeta).blockCommits = snapshot.blockCommits := by
  rw [stagedDb_eq h]

theorem stagedDb_scriptRegistry (h : CountsAll snapshot snapshotMeta) :
    (stagedDb snapshot snapshotMeta).scriptRegistry = snapshot.scriptRegistry := by
  rw [stagedDb_eq h]

end Restored

section Ledger

variable {sha256 : Sha256} {origin : Origin} {blocks : List Block}
  {deltas : List BlockBalanceDelta} {db : BalanceHistoryDB} {snapshot : SnapshotDB}
  {targetBlockHeight : Nat} {withUtxo : Bool}

theorem Exports.getMeta (h : Exports db targetBlockHeight withUtxo snapshot) :
    ∃ snapshotMeta, snapshot.getMeta = .ok snapshotMeta ∧ CountsAll snapshot snapshotMeta ∧
      snapshotMeta.blockHeight = targetBlockHeight := by
  obtain ⟨generatedAt, hmetas⟩ := h.metas
  refine ⟨⟨targetBlockHeight, snapshot.balanceHistory.toList.length,
    snapshot.utxos.toList.length, snapshot.blockCommits.toList.length,
    snapshot.scriptRegistry.toList.length, generatedAt, snapshotDbVersion⟩, ?_,
    ⟨rfl, rfl, rfl, rfl⟩, rfl⟩
  unfold SnapshotDB.getMeta
  rw [hmetas, List.mergeSort_singleton]

/-- The rows an installation gives a store: one for each balance at the height of the file
that is not zero. -/
def givenRows (db : BalanceHistoryDB) (targetBlockHeight : Nat) (scriptHash : USDBScriptHash)
    (height : Nat) : Option BalanceValue :=
  let data := db.getBalanceAtBlockHeight scriptHash targetBlockHeight
  if 0 < data.balance ∧ data.blockHeight = height then some ⟨data.delta, data.balance⟩ else none

theorem getBalanceAtBlockHeight_le (db : BalanceHistoryDB) (scriptHash : USDBScriptHash)
    (targetHeight : Nat) :
    (db.getBalanceAtBlockHeight scriptHash targetHeight).blockHeight ≤ targetHeight := by
  rw [getBalanceAtBlockHeight_eq]
  cases hfind : findLast (db.row scriptHash) targetHeight with
  | none => exact Nat.zero_le _
  | some found => exact ((findLast_eq_some _ _ _ _).mp hfind).1

variable {snapshotMeta : SnapshotMeta}

theorem Exports.stagedDb_row (h : Exports db targetBlockHeight withUtxo snapshot)
    (hcount : CountsAll snapshot snapshotMeta)
    (hlt : ∀ scriptHash, (db.getBalanceAtBlockHeight scriptHash targetBlockHeight).balance < 2 ^ 64)
    (scriptHash : USDBScriptHash) (height : Nat) :
    (stagedDb snapshot snapshotMeta).row scriptHash height =
      givenRows db targetBlockHeight scriptHash height := by
  rw [Usdb.Balances.stagedDb_row hcount, h.balances]
  unfold balanceRowAt givenRows
  dsimp only
  by_cases hpos : 0 < (db.getBalanceAtBlockHeight scriptHash targetBlockHeight).balance
  · simp [hpos, asU64_asI64 (hlt scriptHash)]
  · simp [hpos]

/-- The rows given for a height have the balances there. -/
theorem findLast_givenRows (db : BalanceHistoryDB) (targetBlockHeight : Nat)
    (scriptHash : USDBScriptHash) :
    (balanceData (findLast (givenRows db targetBlockHeight scriptHash) targetBlockHeight)).balance =
      (db.getBalanceAtBlockHeight scriptHash targetBlockHeight).balance := by
  have hle := getBalanceAtBlockHeight_le db scriptHash targetBlockHeight
  by_cases hpos : 0 < (db.getBalanceAtBlockHeight scriptHash targetBlockHeight).balance
  · have hfind : findLast (givenRows db targetBlockHeight scriptHash) targetBlockHeight =
        some ((db.getBalanceAtBlockHeight scriptHash targetBlockHeight).blockHeight,
          ⟨(db.getBalanceAtBlockHeight scriptHash targetBlockHeight).delta,
            (db.getBalanceAtBlockHeight scriptHash targetBlockHeight).balance⟩) := by
      rw [findLast_eq_some]
      refine ⟨hle, if_pos ⟨hpos, rfl⟩, ?_⟩
      intro height hlt _
      exact if_neg (fun h => Nat.ne_of_lt hlt h.2)
    rw [hfind]
    rfl
  · have hfind : findLast (givenRows db targetBlockHeight scriptHash) targetBlockHeight = none := by
      rw [findLast_eq_none]
      intro height _
      exact if_neg (fun h => hpos h.1)
    rw [hfind, Nat.eq_zero_of_not_pos hpos]
    rfl

/-- A store rebuilt from an export with its outputs is a store of the same chain. -/
theorem HoldsChain.restored (h : HoldsChain sha256 origin blocks deltas db) (hv : ValidChain blocks)
    (hutxos : db.UtxosFit) (hexports : Exports db blocks.length true snapshot)
    (hcount : CountsAll snapshot snapshotMeta) (hheight : snapshotMeta.blockHeight = blocks.length) :
    HoldsChain sha256 ⟨blocks.length, givenRows db blocks.length⟩ blocks deltas
      (stagedDb snapshot snapshotMeta) := by
  have hbalance : ∀ scriptHash, (db.getBalanceAtBlockHeight scriptHash blocks.length).balance =
      balanceAt blocks scriptHash blocks.length :=
    fun scriptHash => h.balance_eq scriptHash h.base_le
  have hlt : ∀ scriptHash, (db.getBalanceAtBlockHeight scriptHash blocks.length).balance < 2 ^ 64 := by
    intro scriptHash
    have hsolvent := (hv.take blocks.length).solvent.balanceOf_lt scriptHash
    rw [hbalance]
    exact hsolvent.trans (by decide)
  refine ⟨h.accounts, ?_, Nat.le_refl _, ?_, ?_, ?_, ?_, ?_⟩
  · rw [stagedDb_eq hcount]
    exact hheight
  · intro scriptHash
    rw [findLast_givenRows, hbalance]
  · intro outpoint
    rw [stagedDb_getUtxo hcount, hexports.utxos, if_pos rfl, ← h.utxos, Option.map_map]
    cases hget : db.getUtxo outpoint with
    | none => rfl
    | some utxo =>
      have hfit := (hutxos (outpoint, utxo) (Table.mem_toList.mpr hget)).2.2
      simp [asU64_asI64 hfit]
  · intro scriptHash height
    rw [hexports.stagedDb_row hcount hlt]
    split
    · rfl
    · rename_i habove
      have hnone : deltaRow deltas scriptHash height = none := by
        cases hrow : deltaRow deltas scriptHash height with
        | none => rfl
        | some value => exact absurd (h.accounts.row_some _ _ _ hrow).2.1 habove
      rw [hnone]
      apply if_neg
      rintro ⟨-, rfl⟩
      exact habove (getBalanceAtBlockHeight_le db scriptHash blocks.length)
  · intro height
    rw [stagedDb_blockCommits hcount, hexports.commits]
    split
    · exact h.commits height
    · rename_i habove
      have hpos : height ≠ 0 := by omega
      have hout : (chainCommits sha256 deltas)[height - 1]? = none := by
        rw [List.getElem?_eq_none_iff]
        have hlen : (chainCommits sha256 deltas).length = blocks.length :=
          (buildBlockCommits_length _ _ _).trans (chainDeltas_length h.accounts.ledger)
        omega
      rw [if_neg hpos, hout]
      rfl
  · intro height bundle hget
    rw [stagedDb_eq hcount] at hget
    cases hget

end Ledger

end Usdb.Balances
