import Usdb.Balances.ChainRollback

namespace Usdb.Balances

open Framework Unspent BalanceHistoryDB

section Chain

/-- The blocks that the commits of a store name, up to a height. -/
def BalanceHistoryDB.chainTo (node : BlockHash → Block) (db : BalanceHistoryDB) : Nat → List Block
  | 0 => []
  | height + 1 => db.chainTo node height ++ ((db.hashAt (height + 1)).map node).toList

def BalanceHistoryDB.chain (node : BlockHash → Block) (db : BalanceHistoryDB) : List Block :=
  db.chainTo node db.getBtcBlockHeight

variable {sha256 : Sha256} {node : BlockHash → Block} {origin : Origin} {blocks : List Block}
  {deltas : List BlockBalanceDelta} {db db' : BalanceHistoryDB}

/-- The node knows the blocks by their hashes. -/
def Named (node : BlockHash → Block) (blocks : List Block) : Prop :=
  ∀ block ∈ blocks, node block.blockHash = block

theorem HoldsChain.hashAt (h : HoldsChain sha256 origin blocks deltas db) (height : Nat) :
    db.hashAt (height + 1) = (blocks[height]?).map (·.blockHash) := by
  have hids := (buildBlockCommits_ids sha256 deltas emptyCommitHash).trans
    (chainDeltas_ids h.accounts.ledger)
  have hsnd := congrArg (fun ids => ids[height]?) (congrArg (List.map Prod.snd) hids)
  rw [List.map_map, List.map_snd_zip (by simp)] at hsnd
  simp only [List.getElem?_map] at hsnd
  rw [hashAt_eq, h.commits, if_neg (Nat.succ_ne_zero _), Nat.add_sub_cancel, ← hsnd, Option.map_map]
  rfl

theorem HoldsChain.chainTo_eq (h : HoldsChain sha256 origin blocks deltas db) (hn : Named node blocks)
    (height : Nat) : db.chainTo node height = blocks.take height := by
  induction height with
  | zero => rfl
  | succ height ih =>
    rw [chainTo, ih, h.hashAt, List.take_add_one]
    congr 1
    cases hget : blocks[height]? with
    | none => rfl
    | some block =>
      rw [Option.map_some, Option.map_some, hn block (List.mem_of_getElem? hget)]

/-- A store that was given no rows has those of its blocks. -/
theorem HoldsChain.rows_genesis (h : HoldsChain sha256 .genesis blocks deltas db)
    (scriptHash : USDBScriptHash) (height : Nat) :
    db.row scriptHash height = deltaRow deltas scriptHash height := by
  rw [h.rows]
  split
  · rename_i hle
    cases hrow : deltaRow deltas scriptHash height with
    | none => rfl
    | some value =>
      have hpos := (h.accounts.row_some _ _ _ hrow).1
      exact absurd hle (Nat.not_le_of_lt hpos)
  · rfl

theorem HoldsChain.chain_eq (h : HoldsChain sha256 origin blocks deltas db) (hn : Named node blocks) :
    db.chain node = blocks := by
  unfold chain
  rw [h.chainTo_eq hn, h.height, List.take_length]

/-- The store is the ledger of the chain that its commits name, and the chain is valid. -/
structure LedgerKept (sha256 : Sha256) (node : BlockHash → Block) (origin : Origin)
    (db : BalanceHistoryDB) : Prop where
  named : Named node (db.chain node)
  valid : ValidChain (db.chain node)
  holds : ∃ deltas, HoldsChain sha256 origin (db.chain node) deltas db

theorem LedgerKept.of_holds (h : HoldsChain sha256 origin blocks deltas db) (hn : Named node blocks)
    (hv : ValidChain blocks) : LedgerKept sha256 node origin db := by
  have hchain := h.chain_eq hn
  constructor
  · rw [hchain]
    exact hn
  · rw [hchain]
    exact hv
  · rw [hchain]
    exact ⟨deltas, h⟩

theorem LedgerKept.empty : LedgerKept sha256 node .genesis .empty := by
  obtain ⟨deltas, haccounts⟩ := ValidChain.nil.accounts
  have hnil : deltas = [] := List.length_eq_zero_iff.mp (chainDeltas_length haccounts.ledger)
  subst hnil
  refine @LedgerKept.of_holds sha256 node .genesis [] [] .empty
    ⟨haccounts, rfl, Nat.le_refl _, fun _ => rfl, fun _ => rfl, ?_, ?_, ?_⟩ ?_ .nil
  · intro scriptHash height
    split <;> rfl
  · intro height
    split <;> rfl
  · intro height bundle hget
    cases hget
  · intro block hmem
    cases hmem

end Chain

section Steps

variable {sha256 : Sha256} {node : BlockHash → Block} {origin : Origin}
  {db db' : BalanceHistoryDB}

theorem chain_congr (node : BlockHash → Block) (hcommits : db'.blockCommits = db.blockCommits)
    (hheight : db'.btcBlockHeight = db.btcBlockHeight) : db'.chain node = db.chain node := by
  have hto : ∀ height, db'.chainTo node height = db.chainTo node height := by
    intro height
    induction height with
    | zero => rfl
    | succ height ih =>
      rw [chainTo, chainTo, ih, hashAt_eq, hashAt_eq, hcommits]
  unfold chain getBtcBlockHeight
  rw [hheight, hto]

theorem PruneStep.chain_eq {db db' : BalanceHistoryDB} {minRetainedHeight : Nat}
    (h : PruneStep db minRetainedHeight db') (node : BlockHash → Block) :
    db'.chain node = db.chain node := by
  cases h with
  | skip => rfl
  | prune supportedFrom supported => exact chain_congr node rfl rfl

/-- The ledger is compared with the outputs, the rows, the commits and the height, and
its bundles may be fewer. -/
theorem LedgerKept.of_same (h : LedgerKept sha256 node origin db) (hutxos : db'.utxos = db.utxos)
    (hrows : db'.balanceHistory = db.balanceHistory) (hcommits : db'.blockCommits = db.blockCommits)
    (hheight : db'.btcBlockHeight = db.btcBlockHeight)
    (hundo : ∀ height bundle, db'.getBlockUndoBundle height = some bundle →
      db.getBlockUndoBundle height = some bundle) : LedgerKept sha256 node origin db' := by
  obtain ⟨deltas, hholds⟩ := h.holds
  refine @LedgerKept.of_holds sha256 node origin (db.chain node) deltas db'
    ⟨hholds.accounts, ?_, hholds.base_le, hholds.given, ?_, ?_, ?_, ?_⟩ h.named h.valid
  · unfold getBtcBlockHeight
    rw [hheight]
    exact hholds.height
  · intro outpoint
    unfold getUtxo
    rw [hutxos]
    exact hholds.utxos outpoint
  · intro scriptHash height
    unfold row
    rw [hrows]
    exact hholds.rows scriptHash height
  · intro height
    rw [hcommits]
    exact hholds.commits height
  · intro height bundle hget
    exact hholds.undo height bundle (hundo height bundle hget)

theorem LedgerKept.rollbackStep (h : LedgerKept sha256 node origin db) (hs : RollbackStep db db') :
    LedgerKept sha256 node origin db' ∧ ∃ height, db'.chain node = (db.chain node).take height := by
  cases hs with
  | markers m =>
    refine ⟨h.of_same rfl rfl rfl rfl (fun _ _ hget => hget), db.getBtcBlockHeight, ?_⟩
    obtain ⟨deltas, hholds⟩ := h.holds
    rw [hholds.height, List.take_length]
    exact chain_congr node rfl rfl
  | revert bundle found =>
    obtain ⟨deltas, hholds⟩ := h.holds
    have hpos : db.chain node ≠ [] := by
      intro hnil
      obtain ⟨-, pair, hpair, -⟩ := hholds.undo _ bundle found
      rw [hnil] at hpair
      cases hpair
    obtain ⟨blocks, block, hsplit⟩ := List.eq_nil_or_concat' (db.chain node) |>.resolve_left hpos
    have hnamed := h.named
    have hvalid := h.valid
    rw [hsplit] at hholds hnamed hvalid
    obtain ⟨first, hreverted⟩ := hholds.revert hvalid found
    have hnamed' : Named node blocks := fun b hb => hnamed b (List.mem_append_left _ hb)
    refine ⟨.of_holds hreverted hnamed' hvalid.left, blocks.length, ?_⟩
    rw [hreverted.chain_eq hnamed', hsplit, List.take_left']
    rfl

theorem LedgerKept.rollbackSteps (h : LedgerKept sha256 node origin db) (hs : RollbackSteps db db') :
    LedgerKept sha256 node origin db' ∧ ∃ height, db'.chain node = (db.chain node).take height := by
  induction hs with
  | refl =>
    obtain ⟨deltas, hholds⟩ := h.holds
    refine ⟨h, (db.chain node).length, ?_⟩
    rw [List.take_length]
  | tail _ step ih =>
    obtain ⟨hkept, height, hchain⟩ := ih
    obtain ⟨hkept', height', hchain'⟩ := hkept.rollbackStep step
    refine ⟨hkept', min height' height, ?_⟩
    rw [hchain', hchain, List.take_take]

theorem LedgerKept.prune (h : LedgerKept sha256 node origin db) {minRetainedHeight : Nat}
    (hs : PruneStep db minRetainedHeight db') : LedgerKept sha256 node origin db' := by
  cases hs with
  | skip => exact h
  | prune supportedFrom supported =>
    refine h.of_same rfl rfl rfl rfl ?_
    intro height bundle hget
    rw [pruned_getBlockUndoBundle] at hget
    split at hget
    · cases hget
    · exact hget

end Steps

namespace Service

variable {sha256 : Sha256} {node : BlockHash → Block} {origin : Origin} {config : SyncConfig}
  {w₀ w w' : Service} {l : Label}

/-- The condition on a step: a batch is of blocks that continue the chain of the store to
a valid one, and the markers of a finished rollback are deleted without an error. -/
def ExtendsChain (sha256 : Sha256) (node : BlockHash → Block) (w : Service) : Label → Prop
  | .batch answers _ => answers.env.sha256 = sha256 ∧ Named node answers.blocks ∧
      ValidChain (w.state.db.chain node ++ answers.blocks)
  | .prepare answers latestBtcHeight faults =>
    MarkersCleared w (.prepare answers latestBtcHeight faults)
  | _ => True

theorem ExtendsChain.markersCleared (h : ExtendsChain sha256 node w l) : MarkersCleared w l := by
  cases l with
  | prepare answers latestBtcHeight faults => exact h
  | batch answers faults => trivial
  | finish => trivial
  | evict keepUtxo keepBalance => trivial
  | shrink lastUtxos lastBalances => trivial
  | restart => trivial

/-- A batch adds its blocks to the chain. -/
theorem ledgerKept_batch {answers : BatchAnswers} {faults : List IoResult}
    {latestBtcHeight undoRetentionBlocks minRetainedHeight : Nat} {data : BatchBlockData}
    {update : BlockStateUpdateBatch} {created : Table OutPoint VOutUtxoInfo}
    {initial : Table USDBScriptHash BalanceHistoryData} {db : BalanceHistoryDB}
    (h : LedgerKept sha256 node origin w.state.db) (hk : CachesKept w)
    (hc : ExtendsChain sha256 node w (.batch answers faults))
    (syncing : w.phase = .syncing latestBtcHeight)
    (run : BatchRun answers.env { w.state with faults } (w.state.db.getBtcBlockHeight + 1)
      answers.blocks latestBtcHeight undoRetentionBlocks data update created initial)
    (prune : PruneStep (w.state.db.updateBlockState update) minRetainedHeight db) :
    LedgerKept sha256 node origin db ∧ db.chain node = w.state.db.chain node ++ answers.blocks := by
  obtain ⟨rfl, hnamed, hvalid⟩ := hc
  have hidle := hk.syncing latestBtcHeight syncing
  have hagree : CacheAgrees { w.state with faults } :=
    (hk.agrees (by rw [syncing]; exact Phase.noConfusion) hidle).of_same rfl rfl rfl rfl
  obtain ⟨deltas, hholds⟩ := h.holds
  have hbatch := HoldsChain.batch (s := { w.state with faults }) hholds hagree hvalid run
  have hall : Named node (w.state.db.chain node ++ answers.blocks) := by
    intro block hmem
    rcases List.mem_append.mp hmem with hmem | hmem
    · exact h.named block hmem
    · exact hnamed block hmem
  have hkept : LedgerKept answers.env.sha256 node origin (w.state.db.updateBlockState update) :=
    .of_holds hbatch hall hvalid
  exact ⟨hkept.prune prune, (prune.chain_eq node).trans (hbatch.chain_eq hall)⟩

theorem ledgerKept_step (h : LedgerKept sha256 node origin w.state.db) (hk : CachesKept w)
    (hc : ExtendsChain sha256 node w l) (hs : Step config w l w') :
    LedgerKept sha256 node origin w'.state.db := by
  have hstore := hs.storeStep
  generalize w'.state.db = db at hstore
  cases hstore with
  | same => exact h
  | rollback steps => exact (h.rollbackSteps steps).1
  | batch syncing le run prune => exact (ledgerKept_batch h hk hc syncing run prune).1

theorem Run.ledgerKept_of (h : Run config (ExtendsChain sha256 node) w₀ w)
    (hkept : LedgerKept sha256 node origin w₀.state.db) (hcaches : CachesKept w₀) :
    LedgerKept sha256 node origin w.state.db ∧ CachesKept w := by
  apply h.induct ⟨hkept, hcaches⟩
  intro w l w' hw hc hs
  exact ⟨ledgerKept_step hw.1 hw.2 hc hs, hw.2.step hc.markersCleared hs⟩

theorem Run.ledgerKept (h : Run config (ExtendsChain sha256 node) initial w) :
    LedgerKept sha256 node .genesis w.state.db ∧ CachesKept w :=
  h.ledgerKept_of .empty .initial

/-- In every run whose batches continue the chain of the store, the store is the ledger
of that chain: its outputs are those the chain leaves unspent, its rows and its commits
those of the blocks, and every undo bundle that of its block. -/
theorem Run.store_is_ledger (config : SyncConfig) (sha256 : Sha256) (node : BlockHash → Block)
    (w : Service) (h : Run config (ExtendsChain sha256 node) initial w) :
    ValidChain (w.state.db.chain node) ∧
      (w.state.db.chain node).length = w.state.db.getBtcBlockHeight ∧
      ∃ deltas, chainDeltas (w.state.db.chain node) = .ok deltas ∧
        (∀ outpoint, w.state.db.getUtxo outpoint =
          Unspent.empty.afterAll (chainTransfers (w.state.db.chain node)) outpoint) ∧
        (∀ scriptHash height, w.state.db.row scriptHash height =
          deltaRow deltas scriptHash height) ∧
        (∀ height, w.state.db.blockCommits[height]? = if height = 0 then none
          else ((chainCommits sha256 deltas)[height - 1]?).map commitValue) ∧
        ∀ height bundle, w.state.db.getBlockUndoBundle height = some bundle →
          ∃ pair ∈ (filledChain (w.state.db.chain node)).zip deltas, pair.1.height = height ∧
            bundle = undoBundle pair.1 pair.2.entries := by
  obtain ⟨⟨-, hvalid, deltas, hholds⟩, -⟩ := h.ledgerKept
  exact ⟨hvalid, hholds.height.symm, deltas, hholds.accounts.ledger, hholds.utxos,
    hholds.rows_genesis, hholds.commits, fun height bundle hget => (hholds.undo _ _ hget).2⟩

end Service

section OneBlock

theorem validChain_coinbase (hash parent : BlockHash) (txid : Txid) :
    ValidChain [coinbaseBlock hash parent txid] where
  spends := by
    refine ⟨⟨List.nodup_nil, ?_, trivial⟩, ⟨List.nodup_singleton _, fun _ _ => rfl⟩⟩
    intro outpoint hmem
    cases hmem
  solvent := by
    intro pre hpre
    have hpre' : pre <+: [(⟨[], [(⟨txid, 0⟩, ⟨50, 7⟩)]⟩ : Transfer OutPoint UTXOValue)] := hpre
    rw [List.prefix_cons_iff] at hpre'
    rcases hpre' with rfl | ⟨rest, rfl, hrest⟩
    · exact Nat.pow_pos (by decide)
    · rw [List.prefix_nil.mp hrest]
      show 50 < 2 ^ 63
      decide

/-- A node that knows one block. -/
def oneBlockNode (_ : BlockHash) : Block := coinbaseBlock 11 10 11

theorem firstBlockService_ledgerRun {node : BlockHash → Block}
    (hn : node 11 = coinbaseBlock 11 10 11) :
    Service.Run plainConfig (Service.ExtendsChain (fun _ => []) node) .initial
      firstBlockService := by
  apply Service.run_firstBatch (by decide) (by decide)
    (clearsMarkers_of_no_faults rfl)
  refine ⟨rfl, ?_, validChain_coinbase 11 10 11⟩
  intro block hmem
  rw [List.mem_singleton.mp hmem]
  exact hn

theorem Service.store_is_ledger_firstBlock :
    ValidChain (firstBlockService.state.db.chain oneBlockNode) ∧
      (firstBlockService.state.db.chain oneBlockNode).length =
        firstBlockService.state.db.getBtcBlockHeight := by
  have h := Service.Run.store_is_ledger plainConfig (fun _ => []) oneBlockNode firstBlockService
    (firstBlockService_ledgerRun rfl)
  exact ⟨h.1, h.2.1⟩

end OneBlock

end Usdb.Balances
