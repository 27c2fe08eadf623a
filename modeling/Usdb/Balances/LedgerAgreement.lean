import Usdb.Balances.LedgerRuns
import Usdb.Balances.ReorgAncestor

namespace Usdb.Balances

open Framework Unspent BalanceHistoryDB

section Balances

variable {sha256 : Sha256} {origin origin' : Origin} {blocks : List Block}
  {deltas deltas' : List BlockBalanceDelta} {db db' : BalanceHistoryDB}

/-- What a script hash owns in a list of outputs. -/
def ownedTotal (scriptHash : USDBScriptHash) (rows : List (OutPoint × UTXOValue)) : Nat :=
  (rows.map (fun row => owned scriptHash row.2)).sum

/-- The outputs of the store are those the chain leaves over. -/
theorem HoldsChain.utxos_perm (h : HoldsChain sha256 origin blocks deltas db) (hv : ValidChain blocks) :
    db.utxos.toList.Perm (leftOver (chainTransfers blocks)) := by
  apply Table.toList_perm (leftOver_keys_nodup hv.spends)
  intro outpoint value
  rw [mem_leftOver hv.spends, ← h.utxos]
  rfl

theorem HoldsChain.ownedTotal_eq (h : HoldsChain sha256 origin blocks deltas db) (hv : ValidChain blocks)
    (scriptHash : USDBScriptHash) :
    ownedTotal scriptHash db.utxos.toList = balanceOf scriptHash (chainTransfers blocks) :=
  ((h.utxos_perm hv).map _).sum_eq

/-- Two stores of one chain have the same outputs, commits and height, and the same rows
above the heights that their rows were given for. -/
theorem HoldsChain.agree (h : HoldsChain sha256 origin blocks deltas db)
    (h' : HoldsChain sha256 origin' blocks deltas' db') :
    db.utxos = db'.utxos ∧ db.blockCommits = db'.blockCommits ∧
      db.getBtcBlockHeight = db'.getBtcBlockHeight ∧
      (∀ scriptHash height, origin.base < height → origin'.base < height →
        db.row scriptHash height = db'.row scriptHash height) ∧
      ∀ scriptHash height, origin.base ≤ height → origin'.base ≤ height →
        (db.getBalanceAtBlockHeight scriptHash height).balance =
          (db'.getBalanceAtBlockHeight scriptHash height).balance := by
  obtain rfl : deltas = deltas' :=
    Except.ok.inj (h.accounts.ledger.symm.trans h'.accounts.ledger)
  refine ⟨?_, ?_, ?_, ?_, ?_⟩
  · apply Std.ExtTreeMap.ext_getElem?
    intro outpoint
    exact (h.utxos outpoint).trans (h'.utxos outpoint).symm
  · apply Std.ExtTreeMap.ext_getElem?
    intro height
    rw [h.commits, h'.commits]
  · rw [h.height, h'.height]
  · intro scriptHash height habove habove'
    rw [h.rows, h'.rows, if_neg (Nat.not_le_of_lt habove), if_neg (Nat.not_le_of_lt habove')]
  · intro scriptHash height hle hle'
    rw [h.balance_eq scriptHash hle, h'.balance_eq scriptHash hle']

/-- A store of a chain has no bundle above its height. -/
theorem HoldsChain.undo_above (h : HoldsChain sha256 origin blocks deltas db) {height : Nat}
    (habove : db.getBtcBlockHeight < height) : db.getBlockUndoBundle height = none := by
  cases hget : db.getBlockUndoBundle height with
  | none => rfl
  | some bundle =>
    obtain ⟨-, pair, hpair, rfl, -⟩ := h.undo _ _ hget
    have hmem : pair.1.height ∈ (filledChain blocks).map (·.height) :=
      List.mem_map_of_mem (List.of_mem_zip hpair).1
    rw [filledChain_heights, List.mem_range'_1] at hmem
    rw [h.height] at habove
    omega

/-- Two stores of one chain that both keep the undo bundle of a block have the same one. -/
theorem HoldsChain.undo_eq (h : HoldsChain sha256 origin blocks deltas db)
    (h' : HoldsChain sha256 origin' blocks deltas' db') {height : Nat}
    {bundle bundle' : BlockUndoBundle} (hget : db.getBlockUndoBundle height = some bundle)
    (hget' : db'.getBlockUndoBundle height = some bundle') : bundle = bundle' := by
  obtain rfl : deltas = deltas' :=
    Except.ok.inj (h.accounts.ledger.symm.trans h'.accounts.ledger)
  obtain ⟨-, pair, hpair, hheight, rfl⟩ := h.undo _ _ hget
  obtain ⟨-, pair', hpair', hheight', rfl⟩ := h'.undo _ _ hget'
  have hkeys : (((filledChain blocks).zip deltas).map (fun pair => pair.1.height)).Nodup := by
    have hmap : ((filledChain blocks).zip deltas).map (fun pair => pair.1.height) =
        (filledChain blocks).map (·.height) := by
      have hlen : (filledChain blocks).length ≤ deltas.length := by
        rw [filledChain_length, chainDeltas_length h.accounts.ledger]
      conv_rhs => rw [← List.map_fst_zip hlen, List.map_map]
      rfl
    rw [hmap, filledChain_heights]
    exact List.nodup_range'
  rw [List.inj_on_of_nodup_map hkeys hpair hpair' (hheight.trans hheight'.symm)]

/-- Two stores of one chain that were given no rows have the same tables. -/
theorem HoldsChain.tables_eq (h : HoldsChain sha256 .genesis blocks deltas db)
    (h' : HoldsChain sha256 .genesis blocks deltas' db') :
    db.utxos = db'.utxos ∧ db.balanceHistory = db'.balanceHistory ∧
      db.blockCommits = db'.blockCommits ∧ db.getBtcBlockHeight = db'.getBtcBlockHeight := by
  obtain ⟨hutxos, hcommits, hheight, -, -⟩ := h.agree h'
  obtain rfl : deltas = deltas' :=
    Except.ok.inj (h.accounts.ledger.symm.trans h'.accounts.ledger)
  refine ⟨hutxos, ?_, hcommits, hheight⟩
  apply Std.ExtTreeMap.ext_getElem?
  rintro ⟨scriptHash, height⟩
  exact (h.rows_genesis scriptHash height).trans (h'.rows_genesis scriptHash height).symm

/-- A rollback whose check fails has written nothing. -/
theorem rollbackToBlockHeight_refused {s : HistoryState} {targetHeight : Nat}
    {e : BalanceHistoryError} (hlt : targetHeight < s.db.getBtcBlockHeight)
    (h : s.db.ensureRollbackUndoAvailable targetHeight s.db.getBtcBlockHeight = .error e) :
    rollbackToBlockHeight targetHeight s = .error e s := by
  unfold rollbackToBlockHeight
  rw [readDb_bind, if_neg (by omega), if_neg (by omega), readDb_bind]
  apply bind_error
  dsimp only [id]
  rw [h]
  rfl

end Balances

namespace Service

variable {config config' : SyncConfig} {sha256 : Sha256} {node : BlockHash → Block}
  {w w' : Service}

/-- The balance that a query finds for a script hash at a height is what it owns after
the blocks up to that height, and what it owns now is in the outputs of the store. -/
theorem Run.balances_add_up (config : SyncConfig) (sha256 : Sha256) (node : BlockHash → Block)
    (w : Service) (h : Run config (ExtendsChain sha256 node) initial w)
    (scriptHash : USDBScriptHash) :
    (∀ height, (w.state.db.getBalanceAtBlockHeight scriptHash height).balance =
        balanceOf scriptHash (chainTransfers ((w.state.db.chain node).take height))) ∧
      (w.state.db.getBalanceAtBlockHeight scriptHash w.state.db.getBtcBlockHeight).balance =
        ownedTotal scriptHash w.state.db.utxos.toList ∧
      (w.state.db.getBtcBlockHeight < 2 ^ 32 →
        (w.state.db.getLatestBalance scriptHash).balance =
          ownedTotal scriptHash w.state.db.utxos.toList) := by
  obtain ⟨⟨-, hvalid, deltas, hholds⟩, -⟩ := h.ledgerKept
  have hbase : ∀ height, Origin.genesis.base ≤ height := Nat.zero_le
  refine ⟨fun height => hholds.balance_eq scriptHash (hbase height), ?_, ?_⟩
  · rw [hholds.balance_eq scriptHash (hbase _), hholds.ownedTotal_eq hvalid, hholds.height]
    exact balanceAt_length (Nat.le_refl _)
  · intro hlt
    unfold getLatestBalance
    rw [hholds.balance_eq scriptHash (hbase _), hholds.ownedTotal_eq hvalid]
    apply balanceAt_length
    rw [← hholds.height]
    omega

/-- Two processes that hold one chain have the same tables, however their batches were
cut and scheduled, what their caches dropped, and what they took back on the way, and the
same undo bundle of each block for which both keep one. -/
theorem Run.tables_of_chain (config config' : SyncConfig) (sha256 : Sha256)
    (node : BlockHash → Block) (w w' : Service)
    (h : Run config (ExtendsChain sha256 node) initial w)
    (h' : Run config' (ExtendsChain sha256 node) initial w')
    (hsame : w.state.db.chain node = w'.state.db.chain node) :
    w.state.db.utxos = w'.state.db.utxos ∧
      w.state.db.balanceHistory = w'.state.db.balanceHistory ∧
      w.state.db.blockCommits = w'.state.db.blockCommits ∧
      w.state.db.getBtcBlockHeight = w'.state.db.getBtcBlockHeight ∧
      ∀ height bundle bundle', w.state.db.getBlockUndoBundle height = some bundle →
        w'.state.db.getBlockUndoBundle height = some bundle' → bundle = bundle' := by
  obtain ⟨⟨-, -, deltas, hholds⟩, -⟩ := h.ledgerKept
  obtain ⟨⟨-, -, deltas', hholds'⟩, -⟩ := h'.ledgerKept
  rw [← hsame] at hholds'
  obtain ⟨hutxos, hrows, hcommits, hheight⟩ := hholds.tables_eq hholds'
  exact ⟨hutxos, hrows, hcommits, hheight,
    fun height bundle bundle' hget hget' => hholds.undo_eq hholds' hget hget'⟩

/-- A rollback that succeeds leaves the tables of a process that never had the blocks
above its target, and no bundle of them. It succeeds, without faults, whenever its check of
the undo journal does, and when the check fails it leaves the store as it is. -/
theorem Run.rollback_inverts (config config' : SyncConfig) (sha256 : Sha256)
    (node : BlockHash → Block) (w w' : Service)
    (h : Run config (ExtendsChain sha256 node) initial w)
    (h' : Run config' (ExtendsChain sha256 node) initial w')
    (hbefore : w'.state.db.chain node <+: w.state.db.chain node)
    (hbelow : w'.state.db.getBtcBlockHeight < w.state.db.getBtcBlockHeight) :
    (∀ faults t, rollbackToBlockHeight w'.state.db.getBtcBlockHeight { w.state with faults } =
        .ok () t →
      t.db.utxos = w'.state.db.utxos ∧ t.db.balanceHistory = w'.state.db.balanceHistory ∧
        t.db.blockCommits = w'.state.db.blockCommits ∧
        t.db.getBtcBlockHeight = w'.state.db.getBtcBlockHeight ∧
        ∀ height, w'.state.db.getBtcBlockHeight < height →
          t.db.getBlockUndoBundle height = none) ∧
    (w.state.db.ensureRollbackUndoAvailable w'.state.db.getBtcBlockHeight
        w.state.db.getBtcBlockHeight = .ok () →
      ∃ t, rollbackToBlockHeight w'.state.db.getBtcBlockHeight { w.state with faults := [] } =
        .ok () t) ∧
    ∀ faults e, w.state.db.ensureRollbackUndoAvailable w'.state.db.getBtcBlockHeight
        w.state.db.getBtcBlockHeight = .error e →
      rollbackToBlockHeight w'.state.db.getBtcBlockHeight { w.state with faults } =
        .error e { w.state with faults } := by
  obtain ⟨hkept, -⟩ := h.ledgerKept
  obtain ⟨⟨-, -, deltas', hholds'⟩, -⟩ := h'.ledgerKept
  refine ⟨?_, ?_, ?_⟩
  · intro faults t hrun
    have hsteps : RollbackSteps w.state.db t.db := by
      have hfollows := rollbackToBlockHeight_follows w'.state.db.getBtcBlockHeight
        { w.state with faults }
      rw [hrun] at hfollows
      exact hfollows
    obtain ⟨hrolled, height, hchain⟩ := hkept.rollbackSteps hsteps
    have htarget := rollbackToBlockHeight_height hrun
    obtain ⟨deltas, hholds⟩ := hrolled.holds
    -- both chains are prefixes of one chain, of the same length
    have hsame : t.db.chain node = w'.state.db.chain node := by
      have hlen : (t.db.chain node).length = (w'.state.db.chain node).length := by
        rw [← hholds.height, ← hholds'.height, htarget]
      have hpre : t.db.chain node <+: w.state.db.chain node := by
        rw [hchain]
        exact List.take_prefix _ _
      exact (List.prefix_of_prefix_length_le hpre hbefore (Nat.le_of_eq hlen)).eq_of_length hlen
    rw [hsame] at hholds
    obtain ⟨hutxos, hrows, hcommits, hheight⟩ := hholds.tables_eq hholds'
    exact ⟨hutxos, hrows, hcommits, hheight,
      fun height habove => hholds.undo_above (by rw [htarget]; exact habove)⟩
  · intro havailable
    have hheight : w.state.db.getBtcBlockHeight = w'.state.db.getBtcBlockHeight +
        (w.state.db.getBtcBlockHeight - w'.state.db.getBtcBlockHeight) := by omega
    have hundo := (ensureRollbackUndoAvailable_ok hbelow).mp havailable
    generalize w.state.db.getBtcBlockHeight - w'.state.db.getBtcBlockHeight = blocks at hheight
    rw [hheight] at hundo
    exact ⟨_, rollback_of_undoAvailable (s := { w.state with faults := [] }) rfl
      (by omega) hheight hundo⟩
  · intro faults e hrefused
    exact rollbackToBlockHeight_refused hbelow hrefused

end Service

section OneBlock

theorem Service.balances_add_up_firstBlock :
    (firstBlockService.state.db.getBalanceAtBlockHeight 7
        firstBlockService.state.db.getBtcBlockHeight).balance =
      ownedTotal 7 firstBlockService.state.db.utxos.toList :=
  (Service.Run.balances_add_up plainConfig (fun _ => []) oneBlockNode firstBlockService
    (firstBlockService_ledgerRun rfl) 7).2.1

/-- The process after its first block, with the output of the block dropped from the cache. -/
def evictedService : Service :=
  firstBlockService.next plainConfig (.evict (fun _ => false) (fun _ => false))

theorem Service.tables_of_chain_evicted :
    firstBlockService.state.utxoCache ⟨11, 0⟩ = some ⟨50, 7⟩ ∧
      evictedService.state.utxoCache ⟨11, 0⟩ = none ∧
      firstBlockService.state.db.utxos = evictedService.state.db.utxos := by
  have hevicted : Service.Run plainConfig (Service.ExtendsChain (fun _ => []) oneBlockNode) .initial
      evictedService :=
    (firstBlockService_ledgerRun rfl).next (.evict (fun _ => false) (fun _ => false)) trivial trivial
  exact ⟨by decide, rfl, (Service.Run.tables_of_chain plainConfig plainConfig (fun _ => [])
    oneBlockNode firstBlockService evictedService (firstBlockService_ledgerRun rfl) hevicted rfl).1⟩

theorem firstBlockService_undoAvailable : UndoAvailable firstBlockService.state.db 0 (0 + 1) where
  supported := by
    intro height hheight
    have hone : firstBlockService.state.db.rollbackSupportedFromHeight = some 1 := by decide
    rw [hone] at hheight
    cases hheight
    exact Nat.le_refl 1
  retained := ⟨1, by decide, Nat.le_refl 1⟩
  bundles := by
    intro height hlow hhigh
    obtain rfl : height = 1 := by omega
    decide

theorem Service.rollback_inverts_firstBlock :
    ∃ t, rollbackToBlockHeight 0 { firstBlockService.state with faults := [] } = .ok () t ∧
      t.db.utxos = BalanceHistoryDB.empty.utxos := by
  have hinverts := Service.Run.rollback_inverts plainConfig plainConfig (fun _ => [])
    oneBlockNode firstBlockService .initial (firstBlockService_ledgerRun rfl) (.refl _)
    (List.nil_prefix) (by decide)
  have havailable := (ensureRollbackUndoAvailable_ok (Nat.succ_pos 0)).mpr
    firstBlockService_undoAvailable
  obtain ⟨t, hrun⟩ := hinverts.2.1 havailable
  exact ⟨t, hrun, (hinverts.1 [] t hrun).1⟩

end OneBlock

end Usdb.Balances
