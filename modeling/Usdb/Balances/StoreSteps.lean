import Mathlib.Logic.Relation
import Usdb.Balances.Rollback
import Usdb.Balances.Service

namespace Usdb.Balances

open Framework BalanceHistoryDB

/-- One write of a rollback: the markers, or the top block. -/
inductive RollbackStep (db : BalanceHistoryDB) : BalanceHistoryDB → Prop
  | markers (m : RollbackMarkers) : RollbackStep db (db.withMarkers m)
  | revert (bundle : BlockUndoBundle)
      (found : db.getBlockUndoBundle db.getBtcBlockHeight = some bundle) :
      RollbackStep db (db.revertBlock db.getBtcBlockHeight bundle)

abbrev RollbackSteps : BalanceHistoryDB → BalanceHistoryDB → Prop :=
  Relation.ReflTransGen RollbackStep

/-- The store with the undo bundles below a height deleted. -/
def BalanceHistoryDB.pruned (db : BalanceHistoryDB) (minRetainedHeight : Nat) : BalanceHistoryDB :=
  { db with
    blockUndo := db.blockUndo.eraseAll
      ((db.blockUndo.toList.map (·.1)).takeWhile (· < minRetainedHeight))
    undoRetainedFromHeight := some minRetainedHeight }

/-- What `prune_undo_before_height` may do. -/
inductive PruneStep (db : BalanceHistoryDB) (minRetainedHeight : Nat) : BalanceHistoryDB → Prop
  | skip : PruneStep db minRetainedHeight db
  | prune (supportedFrom : Nat) (supported : db.rollbackSupportedFromHeight = some supportedFrom) :
      PruneStep db minRetainedHeight (db.pruned (max minRetainedHeight supportedFrom))

section Programs

variable {α β : Type} {s : HistoryState}

theorem write_final (f : BalanceHistoryDB → BalanceHistoryDB) (s : HistoryState) :
    (finalState (write f s)).db = s.db ∨ (finalState (write f s)).db = f s.db := by
  unfold write
  split
  · exact .inr rfl
  · exact .inr rfl
  · exact .inl rfl
  · exact .inl rfl

/-- A program whose every write is a step of the relation, wherever it ends. -/
def Follows (R : BalanceHistoryDB → BalanceHistoryDB → Prop) (x : HistoryM α) : Prop :=
  ∀ s, Relation.ReflTransGen R s.db (finalState (x s)).db

namespace Follows

variable {R : BalanceHistoryDB → BalanceHistoryDB → Prop}

theorem pure (a : α) : Follows R (Pure.pure a : HistoryM α) := fun _ => .refl

theorem throw (e : BalanceHistoryError) : Follows R (MonadExcept.throw e : HistoryM α) :=
  fun _ => .refl

theorem bind {x : HistoryM α} {f : α → HistoryM β} (hx : Follows R x) (hf : ∀ a, Follows R (f a)) :
    Follows R (x >>= f) := by
  intro s
  have hs := hx s
  cases h : x s with
  | ok a t =>
    rw [bind_ok h]
    rw [h] at hs
    exact hs.trans (hf a t)
  | error e t =>
    rw [bind_error h]
    rw [h] at hs
    exact hs

theorem read {f : BalanceHistoryDB → α} : Follows R (readDb f) := fun _ => .refl

theorem check (x : Except BalanceHistoryError α) : Follows R (liftExcept x) := by
  cases x with
  | ok a => exact .pure a
  | error e => exact .throw e

theorem write {f : BalanceHistoryDB → BalanceHistoryDB} (hf : ∀ db, R db (f db)) :
    Follows R (Balances.write f) := by
  intro s
  rcases write_final f s with h | h
  · rw [h]
  · rw [h]
    exact .single (hf s.db)

theorem clearCaches : Follows R Balances.clearCaches := fun _ => .refl

end Follows

end Programs

section Rollback

theorem rollbackOneBlock_follows (height : Nat) : Follows RollbackStep (rollbackOneBlock height) := by
  intro s
  unfold rollbackOneBlock
  rw [readDb_bind]
  by_cases hh : s.db.getBtcBlockHeight = height
  · rw [if_neg (not_not.mpr hh)]
    beta_reduce
    rw [readDb_bind]
    cases hb : s.db.getBlockUndoBundle height with
    | none => exact .refl
    | some bundle =>
      rcases write_final (fun db => db.revertBlock height bundle) s with h | h
      · rw [h]
      · rw [h]
        subst hh
        exact .single (.revert bundle hb)
  · rw [if_pos hh]
    exact .refl

theorem rollbackBlocks_follows (targetHeight blocks : Nat) :
    Follows RollbackStep (rollbackBlocks targetHeight blocks) := by
  induction blocks with
  | zero => exact .pure ()
  | succ blocks ih =>
    refine .bind (rollbackOneBlock_follows _) (fun _ => .bind (.write ?_) (fun _ => ih))
    intro db
    exact .markers ⟨db.rollbackInProgress, db.rollbackTargetHeight, some (targetHeight + blocks)⟩

theorem clearRollbackState_follows : Follows RollbackStep clearRollbackState := by
  refine .bind (.write ?_) (fun _ => .bind (.write ?_) (fun _ => .write ?_))
  · intro db
    exact .markers ⟨none, db.rollbackTargetHeight, db.rollbackNextHeight⟩
  · intro db
    exact .markers ⟨db.rollbackInProgress, none, db.rollbackNextHeight⟩
  · intro db
    exact .markers ⟨db.rollbackInProgress, db.rollbackTargetHeight, none⟩

theorem rollbackToBlockHeight_follows (targetHeight : Nat) :
    Follows RollbackStep (rollbackToBlockHeight targetHeight) := by
  refine .bind .read (fun currentHeight => ?_)
  split
  · exact .throw _
  · split
    · exact .pure ()
    · refine .bind .read (fun db => .bind (.check _) (fun _ => ?_))
      refine .bind (.write ?_) (fun _ => .bind (.write ?_) (fun _ => .bind (.write ?_) (fun _ =>
        .bind (rollbackBlocks_follows _ _) (fun _ => clearRollbackState_follows))))
      · intro db
        exact .markers ⟨some 1, db.rollbackTargetHeight, db.rollbackNextHeight⟩
      · intro db
        exact .markers ⟨db.rollbackInProgress, some targetHeight, db.rollbackNextHeight⟩
      · intro db
        exact .markers ⟨db.rollbackInProgress, db.rollbackTargetHeight, some currentHeight⟩

theorem resumeRollbackIfNeeded_follows : Follows RollbackStep resumeRollbackIfNeeded := by
  refine .bind .read (fun db => ?_)
  split
  · exact .pure false
  · split
    · exact .throw _
    · exact .throw _
    · split
      · exact .throw _
      · split
        · exact .throw _
        · exact .bind (.check _) (fun _ => .bind (rollbackBlocks_follows _ _) (fun _ =>
            .bind clearRollbackState_follows (fun _ => .pure true)))

theorem prepareSync_follows (answers : ReorgAnswers) (latestBtcHeight : Nat) :
    Follows RollbackStep (prepareSync answers latestBtcHeight) := by
  refine .bind ?_ (fun _ => .bind .read (fun currentHeight => .bind ?_ (fun _ => .pure ())))
  · refine .bind resumeRollbackIfNeeded_follows (fun resumed => ?_)
    split
    · exact .bind .clearCaches (fun _ => .pure _)
    · exact .pure _
  · refine .bind .read (fun db => .bind (.check _) (fun ancestor => ?_))
    split
    · exact .pure _
    · exact .bind (rollbackToBlockHeight_follows _) (fun _ => .bind .clearCaches (fun _ => .pure _))

end Rollback

section Prune

variable {db : BalanceHistoryDB}

theorem mem_takeWhile_sorted {bound k : Nat} {keys : List Nat} (hs : keys.Pairwise (· < ·)) :
    k ∈ keys.takeWhile (· < bound) ↔ k ∈ keys ∧ k < bound := by
  induction keys with
  | nil => simp
  | cons key keys ih =>
    rw [List.pairwise_cons] at hs
    by_cases hk : key < bound
    · rw [List.takeWhile_cons_of_pos (by simpa using hk), List.mem_cons, List.mem_cons, ih hs.2]
      constructor
      · rintro (rfl | ⟨hm, hlt⟩)
        · exact ⟨.inl rfl, hk⟩
        · exact ⟨.inr hm, hlt⟩
      · rintro ⟨rfl | hm, hlt⟩
        · exact .inl rfl
        · exact .inr ⟨hm, hlt⟩
    · rw [List.takeWhile_cons_of_neg (by simpa using hk)]
      constructor
      · intro h
        cases h
      · rintro ⟨hm, hlt⟩
        rcases List.mem_cons.mp hm with rfl | hm
        · exact absurd hlt hk
        · exact absurd (Nat.lt_trans (hs.1 k hm) hlt) hk

theorem pruned_getBlockUndoBundle (db : BalanceHistoryDB) (minRetainedHeight k : Nat) :
    (db.pruned minRetainedHeight).getBlockUndoBundle k =
      if k < minRetainedHeight then none else db.getBlockUndoBundle k := by
  have hs : (db.blockUndo.toList.map (·.1)).Pairwise (· < ·) := by
    rw [List.pairwise_map]
    exact Std.ExtTreeMap.ordered_keys_toList.imp (fun h => Nat.compare_eq_lt.mp h)
  refine (Table.getElem?_eraseAll _ _ _).trans ?_
  by_cases hk : k < minRetainedHeight
  · rw [if_pos hk]
    split
    · rfl
    · rename_i hmem
      rw [mem_takeWhile_sorted hs] at hmem
      cases hget : db.blockUndo[k]? with
      | none => rfl
      | some bundle =>
        have hrow := List.mem_map_of_mem (f := (·.1)) (Table.mem_toList.mpr hget)
        exact absurd ⟨hrow, hk⟩ hmem
  · rw [if_neg hk, if_neg (fun hmem => hk ((mem_takeWhile_sorted hs).mp hmem).2)]
    rfl

theorem pruneUndoBeforeHeight_final (minRetainedHeight : Nat) (s : HistoryState) :
    PruneStep s.db minRetainedHeight
      (finalState (pruneUndoBeforeHeight minRetainedHeight s)).db := by
  unfold pruneUndoBeforeHeight
  rw [readDb_bind]
  dsimp only [id]
  split
  · exact .skip
  · cases hsup : s.db.rollbackSupportedFromHeight with
    | none => exact .skip
    | some supportedFrom =>
      dsimp only
      split
      · exact .skip
      · rw [finalState_bind_pure]
        rcases write_final _ s with h | h
        · rw [h]
          exact .skip
        · rw [h]
          exact .prune supportedFrom hsup

end Prune

section Batch

/-- What a batch would write, from the state it starts in. -/
def batchUpdate (env : BatchEnv) (s : HistoryState) (start : Nat) (blocks : List Block)
    (latestBtcHeight undoRetentionBlocks : Nat) :
    Except BalanceHistoryError (BatchBlockData × BlockStateUpdateBatch) := do
  let data ← preload env s start blocks
  let data ← process data
  let update ← collectUpdates env s.db data latestBtcHeight undoRetentionBlocks
  return (data, update)

/-- The state once a batch is durable and the caches are updated. -/
def HistoryState.afterBatch (s : HistoryState) (data : BatchBlockData)
    (update : BlockStateUpdateBatch) : HistoryState :=
  { s with
    db := s.db.updateBlockState update
    utxoCache := cacheUtxos update.newUtxos update.removeUtxos s.utxoCache
    balanceCache := cacheBalances data.balances.toList s.balanceCache }

variable {env : BatchEnv} {s : HistoryState} {start latestBtcHeight undoRetentionBlocks : Nat}
  {blocks : List Block}

theorem processBlocks_eq (env : BatchEnv) (s : HistoryState) (start : Nat) (blocks : List Block)
    (latestBtcHeight undoRetentionBlocks : Nat) :
    processBlocks env start blocks latestBtcHeight undoRetentionBlocks s =
      (liftExcept (batchUpdate env s start blocks latestBtcHeight undoRetentionBlocks) >>=
        fun result => updateBlockStateBatch result.2 >>= fun _ =>
          applyCacheUpdates result.1 result.2) s := by
  show (liftExcept (preload env s start blocks) >>= fun data => liftExcept (process data) >>=
    fun data => flush env data latestBtcHeight undoRetentionBlocks) s = _
  unfold batchUpdate
  cases preload env s start blocks with
  | error e => rfl
  | ok loaded =>
    show (liftExcept (process loaded) >>= fun data =>
      flush env data latestBtcHeight undoRetentionBlocks) s =
        (liftExcept (process loaded >>= fun data => collectUpdates env s.db data latestBtcHeight
          undoRetentionBlocks >>= fun update => pure (data, update)) >>= _) s
    cases process loaded with
    | error e => rfl
    | ok data =>
      show (liftExcept (collectUpdates env s.db data latestBtcHeight undoRetentionBlocks) >>= _) s =
        (liftExcept (collectUpdates env s.db data latestBtcHeight
          undoRetentionBlocks >>= fun update => pure (data, update)) >>= _) s
      cases collectUpdates env s.db data latestBtcHeight undoRetentionBlocks <;> rfl

/-- A batch is all or nothing: it fails and leaves store and caches as they are, or it
succeeds with the update computed from the state it started in. -/
theorem processBlocks_cases (env : BatchEnv) (s : HistoryState) (start : Nat)
    (blocks : List Block) (latestBtcHeight undoRetentionBlocks : Nat) :
    (∃ e fs, processBlocks env start blocks latestBtcHeight undoRetentionBlocks s =
        .error e { s with faults := fs }) ∨
      ∃ data update fs,
        batchUpdate env s start blocks latestBtcHeight undoRetentionBlocks =
            .ok (data, update) ∧
          processBlocks env start blocks latestBtcHeight undoRetentionBlocks s =
            .ok () { s.afterBatch data update with faults := fs } := by
  rw [processBlocks_eq]
  cases batchUpdate env s start blocks latestBtcHeight undoRetentionBlocks with
  | error e => exact .inl ⟨e, s.faults, rfl⟩
  | ok result =>
    rw [liftExcept_ok_bind rfl]
    have hw : (∃ e fs, updateBlockStateBatch result.2 s = .error e { s with faults := fs }) ∨
        ∃ fs, updateBlockStateBatch result.2 s =
          .ok () { s with db := s.db.updateBlockState result.2, faults := fs } := by
      unfold updateBlockStateBatch write
      split
      · exact .inr ⟨s.faults, rfl⟩
      · exact .inr ⟨_, rfl⟩
      · exact .inl ⟨_, _, rfl⟩
      · exact .inl ⟨_, _, rfl⟩
    rcases hw with ⟨e, fs, hw⟩ | ⟨fs, hw⟩
    · exact .inl ⟨e, fs, bind_error hw⟩
    · exact .inr ⟨result.1, result.2, fs, rfl, bind_ok hw⟩

/-- Without faults a batch succeeds when its update can be computed. -/
theorem processBlocks_ok {data : BatchBlockData} {update : BlockStateUpdateBatch}
    (hf : s.faults = [])
    (hb : batchUpdate env s start blocks latestBtcHeight undoRetentionBlocks =
      .ok (data, update)) :
    processBlocks env start blocks latestBtcHeight undoRetentionBlocks s =
      .ok () (s.afterBatch data update) := by
  rw [processBlocks_eq, liftExcept_ok_bind hb]
  exact bind_ok (write_of_no_faults _ hf)

theorem pruneUndoJournalIfNeeded_final (config : SyncConfig)
    (latestBtcHeight batchStartHeight lastHeight : Nat) (s : HistoryState) :
    PruneStep s.db (lastHeight - (config.undoRetentionBlocks - 1))
      (finalState (pruneUndoJournalIfNeeded config latestBtcHeight batchStartHeight lastHeight
        s)).db := by
  unfold pruneUndoJournalIfNeeded
  split
  · exact .skip
  · split
    · exact .skip
    · split
      · exact .skip
      · rw [finalState_bind_pure]
        exact pruneUndoBeforeHeight_final _ _

theorem pruneUndoBeforeHeight_caches (minRetainedHeight : Nat) :
    Preserves (fun s : HistoryState => (s.utxoCache, s.balanceCache))
      (pruneUndoBeforeHeight minRetainedHeight) := by
  refine .bind (fun _ => rfl) (fun db => ?_)
  split
  · exact .pure _
  · split
    · exact .pure _
    · dsimp only
      split
      · exact .pure _
      · refine .bind ?_ (fun _ => .pure _)
        intro s
        unfold write
        split <;> rfl

theorem pruneUndoJournalIfNeeded_caches (config : SyncConfig)
    (latestBtcHeight batchStartHeight lastHeight : Nat) :
    Preserves (fun s : HistoryState => (s.utxoCache, s.balanceCache))
      (pruneUndoJournalIfNeeded config latestBtcHeight batchStartHeight lastHeight) := by
  unfold pruneUndoJournalIfNeeded
  split
  · exact .pure _
  · split
    · exact .pure _
    · split
      · exact .pure _
      · exact .bind (pruneUndoBeforeHeight_caches _) (fun _ => .pure _)

/-- The state a batch leaves: the one it started in, or the one with the batch applied
and the undo journal pruned. -/
theorem processBlockBatch_final (config : SyncConfig) (answers : BatchAnswers)
    (latestBtcHeight : Nat) (s : HistoryState) :
    (∃ fs, finalState (processBlockBatch config answers latestBtcHeight s) =
        { s with faults := fs }) ∨
      ∃ data update db fs,
        batchUpdate answers.env s (s.db.getBtcBlockHeight + 1) answers.blocks latestBtcHeight
            config.undoRetentionBlocks = .ok (data, update) ∧
          PruneStep (s.db.updateBlockState update) (s.db.getBtcBlockHeight + answers.blocks.length -
            (config.undoRetentionBlocks - 1)) db ∧
          finalState (processBlockBatch config answers latestBtcHeight s) =
            { s.afterBatch data update with db, faults := fs } := by
  have hread : processBlockBatch config answers latestBtcHeight s =
      (processBlocks answers.env (s.db.getBtcBlockHeight + 1) answers.blocks latestBtcHeight
          config.undoRetentionBlocks >>= fun _ =>
        pruneUndoJournalIfNeeded config answers.latestAtPrune (s.db.getBtcBlockHeight + 1)
          (s.db.getBtcBlockHeight + 1 + answers.blocks.length - 1)) s := rfl
  rw [hread]
  rcases processBlocks_cases answers.env s (s.db.getBtcBlockHeight + 1) answers.blocks
    latestBtcHeight config.undoRetentionBlocks with ⟨e, fs, h⟩ | ⟨data, update, fs, hb, h⟩
  · refine .inl ⟨fs, ?_⟩
    rw [bind_error h]
    rfl
  · have hprune := pruneUndoJournalIfNeeded_final config answers.latestAtPrune
      (s.db.getBtcBlockHeight + 1) (s.db.getBtcBlockHeight + 1 + answers.blocks.length - 1)
      { s.afterBatch data update with faults := fs }
    have hcache := pruneUndoJournalIfNeeded_caches config answers.latestAtPrune
      (s.db.getBtcBlockHeight + 1) (s.db.getBtcBlockHeight + 1 + answers.blocks.length - 1)
      { s.afterBatch data update with faults := fs }
    rw [bind_ok h]
    generalize finalState (pruneUndoJournalIfNeeded config answers.latestAtPrune
      (s.db.getBtcBlockHeight + 1) (s.db.getBtcBlockHeight + 1 + answers.blocks.length - 1)
      { s.afterBatch data update with faults := fs }) = t at hprune hcache
    rw [show s.db.getBtcBlockHeight + 1 + answers.blocks.length - 1 =
      s.db.getBtcBlockHeight + answers.blocks.length by omega] at hprune
    obtain ⟨hu, hbal⟩ := Prod.mk.inj hcache
    refine .inr ⟨data, update, t.db, t.faults, hb, hprune, ?_⟩
    cases t
    simp only [HistoryState.afterBatch] at hu hbal ⊢
    rw [hu, hbal]

end Batch

end Usdb.Balances
