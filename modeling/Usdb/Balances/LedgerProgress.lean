import Usdb.Balances.LedgerAgreement

namespace Usdb.Balances

open Framework Unspent BalanceHistoryDB

section Batch

variable {s : HistoryState}

theorem pruneUndoBeforeHeight_ok (hf : s.faults = []) (minRetainedHeight : Nat) :
    ∃ pruned t, pruneUndoBeforeHeight minRetainedHeight s = .ok pruned t ∧ t.faults = [] := by
  unfold pruneUndoBeforeHeight
  rw [readDb_bind]
  dsimp only [id]
  split
  · exact ⟨_, _, rfl, hf⟩
  · cases s.db.rollbackSupportedFromHeight with
    | none => exact ⟨_, _, rfl, hf⟩
    | some supportedFrom =>
      dsimp only
      split
      · exact ⟨_, _, rfl, hf⟩
      · exact ⟨_, _, bind_ok (write_of_no_faults _ hf), hf⟩

theorem pruneUndoJournalIfNeeded_ok (config : SyncConfig) (hf : s.faults = [])
    (latestBtcHeight batchStartHeight lastHeight : Nat) :
    ∃ t, pruneUndoJournalIfNeeded config latestBtcHeight batchStartHeight lastHeight s =
      .ok () t ∧ t.faults = [] := by
  unfold pruneUndoJournalIfNeeded
  split
  · exact ⟨_, rfl, hf⟩
  · split
    · exact ⟨_, rfl, hf⟩
    · split
      · exact ⟨_, rfl, hf⟩
      · obtain ⟨pruned, t, hprune, ht⟩ := pruneUndoBeforeHeight_ok hf
          (lastHeight - (config.undoRetentionBlocks - 1))
        exact ⟨t, bind_ok hprune, ht⟩

/-- Without faults, a batch that can be computed is written and the journal pruned. -/
theorem processBlockBatch_ok (config : SyncConfig) {answers : BatchAnswers} {latestBtcHeight : Nat}
    {data : BatchBlockData} {update : BlockStateUpdateBatch} (hf : s.faults = [])
    (hb : batchUpdate answers.env s (s.db.getBtcBlockHeight + 1) answers.blocks latestBtcHeight
      config.undoRetentionBlocks = .ok (data, update)) :
    ∃ t minRetainedHeight, processBlockBatch config answers latestBtcHeight s = .ok () t ∧
      PruneStep (s.db.updateBlockState update) minRetainedHeight t.db := by
  have hf' : (s.afterBatch data update).faults = [] := hf
  obtain ⟨t, hprune, -⟩ := pruneUndoJournalIfNeeded_ok config hf'
    answers.latestAtPrune (s.db.getBtcBlockHeight + 1)
    (s.db.getBtcBlockHeight + 1 + answers.blocks.length - 1)
  have hstep := pruneUndoJournalIfNeeded_final config answers.latestAtPrune
    (s.db.getBtcBlockHeight + 1) (s.db.getBtcBlockHeight + 1 + answers.blocks.length - 1)
    (s.afterBatch data update)
  rw [hprune] at hstep
  refine ⟨t, _, ?_, hstep⟩
  show (processBlocks answers.env (s.db.getBtcBlockHeight + 1) answers.blocks latestBtcHeight
    config.undoRetentionBlocks >>= fun _ => pruneUndoJournalIfNeeded config answers.latestAtPrune
      (s.db.getBtcBlockHeight + 1) (s.db.getBtcBlockHeight + 1 + answers.blocks.length - 1)) s = _
  exact (bind_ok (processBlocks_ok hf hb)).trans hprune

end Batch

namespace Service

variable {config : SyncConfig} {sha256 : Sha256} {node : BlockHash → Block} {origin : Origin}
  {w : Service}
  {latestBtcHeight : Nat} {answers : BatchAnswers}

/-- A batch of a round, without faults: it goes through and adds its blocks to the chain. -/
theorem batch_next (h : LedgerKept sha256 node origin w.state.db) (hk : CachesKept w)
    (hphase : w.phase = .syncing latestBtcHeight)
    (hc : ExtendsChain sha256 node w (.batch answers [])) (hne : answers.blocks ≠ []) :
    (next config w (.batch answers [])).phase = .syncing latestBtcHeight ∧
      (next config w (.batch answers [])).state.db.chain node =
        w.state.db.chain node ++ answers.blocks := by
  obtain ⟨rfl, -, hvalid⟩ := id hc
  have hidle := hk.syncing latestBtcHeight hphase
  have hagree : CacheAgrees { w.state with faults := [] } :=
    (hk.agrees (by rw [hphase]; exact Phase.noConfusion) hidle).of_same rfl rfl rfl rfl
  obtain ⟨deltas, hholds⟩ := h.holds
  obtain ⟨data, update, created, initial, hrun, -⟩ :=
    HoldsChain.batchRun (s := { w.state with faults := [] }) latestBtcHeight
      config.undoRetentionBlocks hholds hagree hvalid hne
  obtain ⟨t, minRetainedHeight, hok, hprune⟩ := processBlockBatch_ok config
    (s := { w.state with faults := [] }) rfl (batchUpdate_eq_ok.mpr ⟨_, _, hrun⟩)
  have hnext : next config w (.batch answers []) =
      ⟨{ t with faults := [] }, .syncing latestBtcHeight⟩ := by
    unfold next
    rw [hphase]
    dsimp only
    rw [hok]
    rfl
  rw [hnext]
  exact ⟨rfl, (ledgerKept_batch h hk hc hphase hrun hprune).2⟩

/-- In a run, a batch whose blocks continue the chain of the store never fails and never
panics, unless a write does, and the store then has the longer chain. -/
theorem Run.batch_never_fails (config : SyncConfig) (sha256 : Sha256) (node : BlockHash → Block)
    (w : Service) (answers : BatchAnswers) (latestBtcHeight : Nat)
    (h : Run config (ExtendsChain sha256 node) initial w)
    (hphase : w.phase = .syncing latestBtcHeight)
    (hc : ExtendsChain sha256 node w (.batch answers [])) (hne : answers.blocks ≠ []) :
    (w.next config (.batch answers [])).phase = .syncing latestBtcHeight ∧
      (w.next config (.batch answers [])).state.db.chain node =
        w.state.db.chain node ++ answers.blocks := by
  obtain ⟨hkept, hcaches⟩ := h.ledgerKept
  exact batch_next hkept hcaches hphase hc hne

end Service

section OneBlock

def emptyRound : Service := Service.next plainConfig .initial (Service.firstPrepare 1)

theorem Service.batch_never_fails_firstBlock :
    (emptyRound.next plainConfig (.batch firstBlockAnswers [])).phase = .syncing 1 := by
  have hprepared : Service.Run plainConfig (Service.ExtendsChain (fun _ => []) oneBlockNode)
      .initial emptyRound :=
    Service.Run.next (.refl _) _ (clearsMarkers_of_no_faults rfl) rfl
  have hc : Service.ExtendsChain (fun _ => []) oneBlockNode emptyRound
      (.batch firstBlockAnswers []) := by
    refine ⟨rfl, ?_, validChain_coinbase 11 10 11⟩
    intro block hmem
    rw [List.mem_singleton.mp hmem]
    rfl
  exact (Service.Run.batch_never_fails plainConfig (fun _ => []) oneBlockNode emptyRound
    firstBlockAnswers 1 hprepared rfl hc (by decide)).1

end OneBlock

end Usdb.Balances
