import Usdb.Balances.ChainStore

namespace Usdb.Balances

open Framework Unspent BalanceHistoryDB

section Bundle

variable {u : Unspent OutPoint UTXOValue} {height : Nat} {block : Block}
  {entries : List BalanceHistoryEntry}

/-- The rows a bundle puts back. -/
def restoredRows (bundle : BlockUndoBundle) : List (OutPoint × UTXOValue) :=
  bundle.spentUtxos.map (fun spent => (spent.outpoint, ⟨spent.value, spent.scriptHash⟩))

theorem createdUtxos_keys (u : Unspent OutPoint UTXOValue) (height : Nat) (block : Block)
    (entries : List BalanceHistoryEntry) :
    (undoBundle (fillBlock u height block) entries).createdUtxos.map (·.outpoint) =
      createdKeys block.transfers := by
  unfold undoBundle createdKeys
  rw [fillBlock_vouts, ← preprocessBlock_vouts height, List.map_map, List.map_map]
  rfl

theorem restoredRows_eq (u : Unspent OutPoint UTXOValue) (height : Nat) (block : Block)
    (entries : List BalanceHistoryEntry) :
    restoredRows (undoBundle (fillBlock u height block) entries) =
      (spentBy block.transfers).filterMap (fun outpoint =>
        if outpoint ∈ createdKeys block.transfers then none
        else (u outpoint).map (fun value => (outpoint, value))) := by
  unfold restoredRows undoBundle
  dsimp only
  rw [List.map_filterMap, fillBlock_vins, List.filterMap_map]
  apply List.filterMap_congr
  intro outpoint _
  unfold fillVin createdKeys
  by_cases hkey : outpoint ∈ (createdBy block.transfers).map (·.1)
  · simp [hkey]
  · simp only [Function.comp, hkey, not_false_eq_true, decide_true, if_true, if_false,
      Table.lookup_eq_none.mpr hkey, Option.none_or, Option.map_map]
    cases u outpoint <;> rfl

/-- A bundle puts back the outputs that were unspent before its block and that the block
spends. -/
theorem restoredRows_lookup (u : Unspent OutPoint UTXOValue) (height : Nat) (block : Block)
    (entries : List BalanceHistoryEntry) (outpoint : OutPoint) :
    (restoredRows (undoBundle (fillBlock u height block) entries)).lookup outpoint =
      if outpoint ∈ spentBy block.transfers ∧ outpoint ∉ createdKeys block.transfers then u outpoint
      else none := by
  have hmem : ∀ {value}, (outpoint, value) ∈
      restoredRows (undoBundle (fillBlock u height block) entries) ↔
        (outpoint ∈ spentBy block.transfers ∧ outpoint ∉ createdKeys block.transfers) ∧
          u outpoint = some value := by
    intro value
    rw [restoredRows_eq, List.mem_filterMap]
    constructor
    · rintro ⟨outpoint', hspent, heq⟩
      split at heq
      · cases heq
      · rename_i hkey
        obtain ⟨value', hget, hpair⟩ := Option.map_eq_some_iff.mp heq
        cases hpair
        exact ⟨⟨hspent, hkey⟩, hget⟩
    · rintro ⟨⟨hspent, hkey⟩, hget⟩
      exact ⟨outpoint, hspent, by rw [if_neg hkey, hget]; rfl⟩
  cases hlook : (restoredRows (undoBundle (fillBlock u height block) entries)).lookup outpoint with
  | some value =>
    obtain ⟨hin, hget⟩ := hmem.mp (Table.mem_of_lookup hlook)
    rw [if_pos hin, hget]
  | none =>
    by_cases hin : outpoint ∈ spentBy block.transfers ∧ outpoint ∉ createdKeys block.transfers
    · rw [if_pos hin]
      cases hget : u outpoint with
      | none => rfl
      | some value =>
        have hrow := hmem.mpr ⟨hin, hget⟩
        exact absurd (List.mem_map_of_mem hrow) (Table.lookup_eq_none.mp hlook)
    · rw [if_neg hin]

theorem restoredRows_keys_nodup (hv : Valid u block.transfers) (hf : Fresh u block.transfers) :
    ((restoredRows (undoBundle (fillBlock u height block) entries)).map (·.1)).Nodup := by
  rw [restoredRows_eq, List.map_filterMap]
  apply List.Nodup.filterMap _ (spentBy_nodup hv hf)
  intro outpoint outpoint' key hkey hkey'
  obtain ⟨row, hrow, rfl⟩ := Option.map_eq_some_iff.mp hkey
  obtain ⟨row', hrow', heq⟩ := Option.map_eq_some_iff.mp hkey'
  split at hrow
  · cases hrow
  · split at hrow'
    · cases hrow'
    · obtain ⟨value, -, rfl⟩ := Option.map_eq_some_iff.mp hrow
      obtain ⟨value', -, rfl⟩ := Option.map_eq_some_iff.mp hrow'
      exact heq.symm

/-- Reverting a block gives back the outputs that were unspent before it. -/
theorem getUtxo_revertBlock {db : BalanceHistoryDB} (hv : Valid u block.transfers)
    (hf : Fresh u block.transfers)
    (hu : ∀ outpoint, db.getUtxo outpoint = u.afterAll block.transfers outpoint)
    (outpoint : OutPoint) :
    (db.revertBlock height (undoBundle (fillBlock u height block) entries)).getUtxo outpoint =
      u outpoint := by
  have hget : (db.revertBlock height (undoBundle (fillBlock u height block) entries)).getUtxo
      outpoint = ((restoredRows (undoBundle (fillBlock u height block) entries)).lookup outpoint).or
        (if outpoint ∈ createdKeys block.transfers then none else db.getUtxo outpoint) := by
    refine (Table.getElem?_insertMany_lookup (restoredRows_keys_nodup hv hf)).trans ?_
    rw [Table.getElem?_eraseAll, createdUtxos_keys]
    rfl
  rw [hget, restoredRows_lookup, hu, afterAll_eq hv hf]
  by_cases hkey : outpoint ∈ createdKeys block.transfers
  · rw [if_neg (fun h => h.2 hkey), if_pos hkey, hf.unused outpoint hkey]
    rfl
  · have hnone : (createdBy block.transfers).lookup outpoint = none :=
      Table.lookup_eq_none.mpr hkey
    rw [if_neg hkey, hnone]
    by_cases hspent : outpoint ∈ spentBy block.transfers
    · rw [if_pos ⟨hspent, hkey⟩, if_pos hspent, Option.or_none]
    · rw [if_neg (fun h => hspent h.1), if_neg hspent]
      rfl

end Bundle

section Revert

variable {sha256 : Sha256} {origin : Origin} {blocks : List Block} {block : Block}
  {deltas : List BlockBalanceDelta} {delta : BlockBalanceDelta} {db db' : BalanceHistoryDB}

theorem ledgerBlock_heights {balances : BalanceMap} {filled : PreloadBlock}
    (h : ledgerBlock balances filled = .ok delta) :
    ∀ entry ∈ delta.entries, entry.blockHeight = filled.height := by
  obtain ⟨history, -, hentries, -⟩ := ledgerBlock_ok h
  intro entry hmem
  obtain ⟨change, -, hsettle⟩ := mem_of_mapM_ok hentries hmem
  unfold settleChange at hsettle
  obtain ⟨balance, -, hsettle⟩ := bind_eq_ok_iff.mp hsettle
  split at hsettle
  · cases hsettle
  · cases hsettle
    rfl

/-- The last result of a chain is that of its last block. -/
theorem chainDeltas_append_one (h : chainDeltas (blocks ++ [block]) = .ok deltas) :
    ∃ first delta, chainDeltas blocks = .ok first ∧ deltas = first ++ [delta] ∧
      ∀ entry ∈ delta.entries, entry.blockHeight = blocks.length + 1 := by
  obtain ⟨first, rest, hfirst, hrest, rfl⟩ := chainDeltas_append_ok.mp h
  obtain ⟨delta, later, hdelta, hlater, rfl⟩ := ledgerBlocks_cons_ok.mp hrest
  cases hlater
  exact ⟨first, delta, hfirst, rfl, ledgerBlock_heights hdelta⟩

/-- Reverting the last block of a chain leaves the store of the chain without it. -/
theorem HoldsChain.revert (h : HoldsChain sha256 origin (blocks ++ [block]) deltas db)
    (hv : ValidChain (blocks ++ [block])) {bundle : BlockUndoBundle}
    (hfound : db.getBlockUndoBundle db.getBtcBlockHeight = some bundle) :
    ∃ first, HoldsChain sha256 origin blocks first
      (db.revertBlock db.getBtcBlockHeight bundle) := by
  obtain ⟨first, delta, hfirst, rfl, hheights⟩ := chainDeltas_append_one h.accounts.ledger
  have hlen := chainDeltas_length hfirst
  have haccounts := hv.left.accounts_of_ok hfirst
  have hheight : db.getBtcBlockHeight = blocks.length + 1 := by
    rw [h.height, List.length_append, List.length_singleton]
  have hzip : (filledChain (blocks ++ [block])).zip (first ++ [delta]) =
      (filledChain blocks).zip first ++ [(fillBlock (Unspent.empty.afterAll
        (chainTransfers blocks)) (blocks.length + 1) block, delta)] := by
    rw [filledChain_append, List.zip_append (by rw [filledChain_length, hlen])]
    rfl
  have hlow : ∀ pair ∈ (filledChain blocks).zip first, pair.1.height ≤ blocks.length := by
    intro pair hpair
    have hmem : pair.1.height ∈ (filledChain blocks).map (·.height) :=
      List.mem_map_of_mem (List.of_mem_zip hpair).1
    rw [filledChain_heights, List.mem_range'_1] at hmem
    omega
  have hbase : origin.base ≤ blocks.length := by
    have habove := (h.undo _ bundle hfound).1
    omega
  -- the bundle at the height of the store is that of the last block
  have hbundle : bundle = undoBundle (fillBlock (Unspent.empty.afterAll (chainTransfers blocks))
      (blocks.length + 1) block) delta.entries := by
    obtain ⟨-, pair, hpair, hsame, rfl⟩ := h.undo _ bundle hfound
    rw [hzip, List.mem_append, List.mem_singleton] at hpair
    rcases hpair with hpair | rfl
    · have hle := hlow pair hpair
      omega
    · rfl
  have hspends := hv.spends
  rw [chainTransfers_append_one] at hspends
  refine ⟨first, haccounts, ?_, hbase, ?_, ?_, ?_, ?_, ?_⟩
  · show db.getBtcBlockHeight - 1 = blocks.length
    omega
  · intro scriptHash
    rw [← balanceAt_append hbase]
    exact h.given scriptHash
  · intro outpoint
    rw [hbundle]
    apply getUtxo_revertBlock (valid_append.mp hspends.valid).2 hspends.fresh.right
    intro outpoint
    rw [h.utxos, chainTransfers_append_one, afterAll_append]
  · intro scriptHash height
    rw [RowsTracked.row_revertBlock, h.rows, deltaRow_append, hheight]
    cases hnew : deltaRow [delta] scriptHash height with
    | none =>
      rw [Option.or_none]
      split
      · rename_i hin
        rw [hin.1, if_neg (by omega)]
        symm
        by_contra hne
        obtain ⟨value, hvalue⟩ := Option.ne_none_iff_exists'.mp hne
        have hbound := (haccounts.row_some _ _ _ hvalue).2.1
        omega
      · rfl
    | some value =>
      have hmem := deltaRow_singleton_some hnew
      have hat := hheights _ hmem
      dsimp only at hat
      subst hat
      have htouched : scriptHash ∈ bundle.touchedScriptHashes := by
        rw [hbundle]
        refine mem_sortedDistinct.mpr (List.mem_append_right _ ?_)
        exact List.mem_map.mpr ⟨_, hmem, rfl⟩
      rw [if_pos ⟨rfl, htouched⟩, if_neg (by omega)]
      symm
      by_contra hne
      obtain ⟨value', hvalue⟩ := Option.ne_none_iff_exists'.mp hne
      have hbound := (haccounts.row_some _ _ _ hvalue).2.1
      omega
  · intro height
    have hcommits : chainCommits sha256 (first ++ [delta]) = chainCommits sha256 first ++
        buildBlockCommits sha256 [delta] (((chainCommits sha256 first).getLast?.map
          (·.blockCommit)).getD emptyCommitHash) := buildBlockCommits_append _ _ _ _
    have hold : (chainCommits sha256 first).length = blocks.length :=
      (buildBlockCommits_length _ _ _).trans hlen
    have herase : (db.revertBlock db.getBtcBlockHeight bundle).blockCommits[height]? =
        if db.getBtcBlockHeight = height then none else db.blockCommits[height]? :=
      Table.getElem?_delete _ _ _
    rw [herase, h.commits, hcommits, hheight]
    by_cases htop : blocks.length + 1 = height
    · subst htop
      rw [if_pos rfl, if_neg (Nat.succ_ne_zero _), Nat.add_sub_cancel,
        List.getElem?_eq_none (by omega)]
      rfl
    · rw [if_neg htop]
      split
      · rfl
      · by_cases hin : height - 1 < blocks.length
        · rw [List.getElem?_append_left (by omega)]
        · rw [List.getElem?_eq_none (by
            rw [List.length_append, buildBlockCommits_length, List.length_singleton]
            omega), List.getElem?_eq_none (by omega)]
  · intro height bundle' hget
    rw [getBlockUndoBundle_revertBlock, hheight] at hget
    split at hget
    · cases hget
    · rename_i hne
      obtain ⟨habove, pair, hpair, hsame, heq⟩ := h.undo height bundle' hget
      rw [hzip, List.mem_append, List.mem_singleton] at hpair
      rcases hpair with hpair | rfl
      · exact ⟨habove, pair, hpair, hsame, heq⟩
      · exact absurd hsame hne

end Revert

end Usdb.Balances
