import Usdb.Index.PassInvariant

namespace Usdb

open Framework MinerPassStorage PassEnergyManager InscriptionTransferTracker InscriptionIndexer

section Kept

variable {cfg : IndexerConfig} {I : MinerPassStorage → Prop}

/-- The program keeps what is claimed of the pass database. -/
def KeepsPass {α : Type} (I : MinerPassStorage → Prop) (x : IndexerM α) : Prop :=
  Keeps (fun s : IndexerState => I s.passStorage) x

theorem keepsPass_of_preserves {α : Type} {x : IndexerM α}
    (h : Preserves IndexerState.passStorage x) : KeepsPass I x :=
  Keeps.of_preserves h I

theorem readPass_keepsPass {α : Type} (f : MinerPassStorage → α) : KeepsPass I (readPass f) :=
  keepsPass_of_preserves (readPass_preserves (fun _ _ => rfl) f)

theorem checkPass_keepsPass (f : MinerPassStorage → Except IndexerError Unit) :
    KeepsPass I (checkPass f) :=
  keepsPass_of_preserves (checkPass_preserves (fun _ _ => rfl) f)

theorem writePass_triple {J : MinerPassStorage → Prop}
    {f : MinerPassStorage → Except IndexerError MinerPassStorage}
    (herr : ∀ ps, J ps → I ps) (h : ∀ ps ps', J ps → f ps = .ok ps' → I ps') :
    Triple (fun s : IndexerState => J s.passStorage) (writePass f)
      (fun _ s => I s.passStorage) (fun _ s => I s.passStorage) := by
  intro s hs
  cases hx : writePass f s with
  | ok u t =>
    obtain ⟨ps, fs, hps, rfl⟩ := writePass_ok hx
    exact h _ _ hs hps
  | error e t =>
    obtain ⟨fs, rfl⟩ := writePass_error hx
    exact herr _ hs

/-- A read is followed by what it says of the pass database. -/
theorem readPass_bind_keepsPass {α β : Type} {f : MinerPassStorage → α} {k : α → IndexerM β}
    (h : ∀ a, Triple (fun s : IndexerState => I s.passStorage ∧ f s.passStorage = a) (k a)
      (fun _ s => I s.passStorage) (fun _ s => I s.passStorage)) :
    KeepsPass I (readPass f >>= k) := by
  refine Triple.bind (Q := fun a s => I s.passStorage ∧ f s.passStorage = a) ?_ h
  intro s hs
  cases hx : readPass f s with
  | ok a t =>
    obtain ⟨rfl, fs, rfl⟩ := readPass_ok hx
    exact ⟨hs, rfl⟩
  | error e t =>
    obtain ⟨fs, rfl⟩ := (ReadOnly.readPass f).error hx
    exact hs

theorem resumePendingUpstreamReorgRecovery_keepsPass (cfg : IndexerConfig)
    (hclear : ∀ ps, I ps → I (cleared ps)) :
    KeepsPass I (resumePendingUpstreamReorgRecovery cfg) := by
  refine Keeps.bind (readPass_keepsPass _) (fun pending => ?_)
  cases pending with
  | none => exact Keeps.pure ()
  | some pending =>
    refine Keeps.bind (readPass_keepsPass _) (fun synced => ?_)
    refine Keeps.ite _ (fun _ => Keeps.throw _) (fun _ => ?_)
    refine Keeps.bind (keepsPass_of_preserves
      (energyBlind_passStorage.reconcileWithPassSyncedHeight _)) (fun _ => ?_)
    refine Keeps.bind (keepsPass_of_preserves reloadFromStorage_passStorage) (fun _ => ?_)
    refine Keeps.bind (checkPass_keepsPass _) (fun _ => ?_)
    refine Keeps.bind (checkPass_keepsPass _) (fun _ => ?_)
    refine writePass_triple (fun _ => id) (fun ps ps' hps h => ?_)
    cases h
    exact hclear ps hps

/-- Preparing a round clears the marker and rolls back at most. -/
theorem prepareSync_keepsPass {rollbackTarget : Option Nat}
    (hclear : ∀ ps, I ps → I (cleared ps))
    (hroll : ∀ ps target, rollbackTarget = some target → I ps → I (ps.rolledBack target true)) :
    KeepsPass I (prepareSync cfg rollbackTarget) := by
  have hresume := resumePendingUpstreamReorgRecovery_keepsPass cfg hclear
  refine Keeps.bind (readPass_keepsPass _) (fun _ => ?_)
  refine Keeps.bind hresume (fun _ => ?_)
  refine Keeps.bind (readPass_keepsPass _) (fun height => ?_)
  refine Keeps.bind ?_ (fun height => ?_)
  · cases rollbackTarget with
    | none => exact Keeps.pure _
    | some target =>
      refine Keeps.bind (writePass_triple (fun _ => id) (fun ps ps' hps h => ?_)) (fun _ => ?_)
      · obtain ⟨rfl, -⟩ := rollbackToBlockHeightInternal_ok h
        exact hroll ps target rfl hps
      · exact Keeps.bind hresume (fun _ => Keeps.pure _)
  · refine Keeps.bind (checkPass_keepsPass _) (fun _ => ?_)
    refine Keeps.bind (checkPass_keepsPass _) (fun _ => ?_)
    exact keepsPass_of_preserves (energyBlind_passStorage.reconcileWithPassSyncedHeight _)

/-- The backfill writes rows only where there is none. -/
theorem backfillFrom_keepsPass {stateRefAtHeight : Nat → BalanceHistorySnapshotInfo}
    (hfill : ∀ ps ps' h, I ps → ps.getBalanceHistorySnapshotAnchorAtHeight h = none →
      ps.upsertBalanceHistorySnapshotHistoryEntry (stateRefAtHeight h) = .ok ps' → I ps')
    (first count : Nat) : KeepsPass I (backfillFrom stateRefAtHeight first count) := by
  induction count generalizing first with
  | zero => exact Keeps.pure _
  | succ count ih =>
    refine readPass_bind_keepsPass (fun row => ?_)
    cases row with
    | some a =>
      exact (ih (first + 1)).conseq (fun _ hs => hs.1) (fun _ _ hs => hs) (fun _ _ hs => hs)
    | none =>
      have hio : KeepsPass (fun ps => I ps ∧
          ps.getBalanceHistorySnapshotAnchorAtHeight first = none) io :=
        keepsPass_of_preserves (io_preserves (fun _ _ => rfl))
      have hwrite : Triple (fun s : IndexerState => I s.passStorage ∧
          s.passStorage.getBalanceHistorySnapshotAnchorAtHeight first = none)
          (writePass (·.upsertBalanceHistorySnapshotHistoryEntry (stateRefAtHeight first)))
          (fun _ s => I s.passStorage) (fun _ s => I s.passStorage) :=
        writePass_triple (J := fun ps => I ps ∧
          ps.getBalanceHistorySnapshotAnchorAtHeight first = none) (fun _ hps => hps.1)
          (fun ps ps' hps h => hfill ps ps' first hps.1 hps.2 h)
      refine Triple.bind (hio.conseq (fun _ hs => hs) (fun _ _ hs => hs) (fun _ _ hs => hs.1))
        (fun _ => ?_)
      exact Triple.bind hwrite (fun _ => ih (first + 1))

/-- The end of a round adopts the snapshot at the synced height and fills in missing rows. -/
theorem finishSync_keepsPass {height : Nat} {snapshot : BalanceHistorySnapshotInfo}
    {stateRefAtHeight : Nat → BalanceHistorySnapshotInfo}
    (hadopt : ∀ ps ps', I ps → snapshot.stableHeight = height →
      ps.upsertBalanceHistorySnapshotAnchor snapshot = .ok ps' → I ps')
    (hfill : ∀ ps ps' h, I ps → ps.getBalanceHistorySnapshotAnchorAtHeight h = none →
      ps.upsertBalanceHistorySnapshotHistoryEntry (stateRefAtHeight h) = .ok ps' → I ps') :
    KeepsPass I (finishSync cfg height snapshot stateRefAtHeight) := by
  refine Keeps.bind (Keeps.ite _ (fun _ => Keeps.throw _) (fun hheight => ?_)) (fun _ => ?_)
  · exact writePass_triple (fun _ => id)
      (fun ps ps' hps h => hadopt ps ps' hps (not_not.mp hheight) h)
  · refine Keeps.ite _ (fun _ => Keeps.bind (readPass_keepsPass _) (fun missing => ?_))
      (fun _ => Keeps.pure _)
    cases missing with
    | none => exact Keeps.pure _
    | some first => exact backfillFrom_keepsPass hfill first _

end Kept

namespace World

variable {cfg : IndexerConfig} {w w' : World} {l : Label}

/-- A claim about the pass database that each kind of write of a step keeps. Blocks touch
neither the adopted anchor nor the snapshot history. -/
theorem Step.keepsPass {I : MinerPassStorage → Prop} (hs : Step cfg w l w')
    (hclear : ∀ ps, I ps → I (cleared ps))
    (hroll : ∀ ps target faults, l = .prepare (some target) faults → I ps →
      I (ps.rolledBack target true))
    (hblock : ∀ ps ps' env balances faults, l = .block env balances faults →
      ps'.balanceHistorySnapshotAnchor = ps.balanceHistorySnapshotAnchor →
      ps'.balanceHistorySnapshotHistory = ps.balanceHistorySnapshotHistory → I ps → I ps')
    (hadopt : ∀ ps ps' snapshot refs faults, l = .finish snapshot refs faults →
      snapshot.stableHeight = w.height cfg → I ps →
      ps.upsertBalanceHistorySnapshotAnchor snapshot = .ok ps' → I ps')
    (hfill : ∀ ps ps' snapshot refs faults h, l = .finish snapshot refs faults → I ps →
      ps.getBalanceHistorySnapshotAnchorAtHeight h = none →
      ps.upsertBalanceHistorySnapshotHistoryEntry (refs h) = .ok ps' → I ps')
    (hI : I w.indexer.passStorage) : I w'.indexer.passStorage := by
  obtain ⟨enabled, rfl⟩ := hs
  cases l with
  | prepare rollbackTarget faults =>
    unfold next
    rw [settle_passStorage]
    have hkeeps : KeepsPass I (prepareSync cfg rollbackTarget) :=
      prepareSync_keepsPass hclear (fun ps target ht hps => hroll ps target faults (by rw [ht]) hps)
    exact hkeeps.run (s := w.indexer.withFaults faults) hI
  | block env balances faults =>
    cases hb : syncBlockDurably cfg env (w.height cfg + 1) (w.indexer.withFaults faults) with
    | ok u t =>
      obtain ⟨run⟩ := syncBlockDurably_ok hb
      obtain ⟨ps, hreach, ht⟩ := run.passStorage_eq
        (BlockEventExecutor.eventsSatisfy_of_forall BlockEventExecutor.burnsOnly_true _ _)
      simp only [next, hb]
      refine hblock w.indexer.passStorage _ env balances faults rfl ?_ ?_ hI
      · show t.passStorage.balanceHistorySnapshotAnchor = _
        rw [ht]
        exact hreach.part_eq balanceHistorySnapshotAnchor (fun _ _ _ _ => rfl)
      · show t.passStorage.balanceHistorySnapshotHistory = _
        rw [ht]
        exact hreach.part_eq balanceHistorySnapshotHistory (fun _ _ _ _ => rfl)
    | error e t =>
      have hpass := syncBlockDurably_error_pass hb
      simp only [next, hb]
      show I (World.settle w (.error e t) .syncing .idle).indexer.passStorage
      rw [settle_passStorage]
      show I t.passStorage
      rw [hpass]
      exact hI
  | finish snapshot refs faults =>
    unfold next
    rw [settle_passStorage]
    have hkeeps : KeepsPass I (finishSync cfg (w.height cfg) snapshot refs) :=
      finishSync_keepsPass
        (fun ps ps' hps hheight h => hadopt ps ps' snapshot refs faults rfl hheight hps h)
        (fun ps ps' h hps hnone hup => hfill ps ps' snapshot refs faults h rfl hps hnone hup)
    exact hkeeps.run (s := w.indexer.withFaults faults) hI
  | restart faults =>
    unfold next
    rw [settle_passStorage]
    exact (Keeps.of_preserves reloadFromStorage_passStorage I).run
      (s := w.indexer.afterRestart.withFaults faults) hI

end World

end Usdb
