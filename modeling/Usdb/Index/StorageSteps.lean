import Usdb.Storage.Rollback
import Usdb.Index.PassReach
import Usdb.Index.BlockRun
import Usdb.Index.World

namespace Usdb

open Framework MinerPassStorage PassEnergyManager InscriptionTransferTracker

/-- What a run does to the pass database besides committing blocks. -/
inductive QuietStep (cfg : IndexerConfig) : MinerPassStorage → MinerPassStorage → Prop
  | cleared (ps : MinerPassStorage) :
      QuietStep cfg ps { ps with upstreamReorgRecoveryPendingHeight := none }
  | rolledBack (ps : MinerPassStorage) (target : Nat)
      (lower : cfg.genesisBlockHeight - 1 ≤ target)
      (upper : target ≤ InscriptionIndexer.currentHeight cfg ps)
      (constraints : ConstraintsHold (ps.minerPasses.filterMap (ps.survivingPass target))) :
      QuietStep cfg ps (ps.rolledBack target true)
  | adopted (ps : MinerPassStorage) (anchor : BalanceHistorySnapshotAnchor)
      (genesis : cfg.genesisBlockHeight ≤ InscriptionIndexer.currentHeight cfg ps) :
      QuietStep cfg ps { ps with
        syncedBtcBlockHeight := some (InscriptionIndexer.currentHeight cfg ps)
        balanceHistorySnapshotAnchor := some anchor
        balanceHistorySnapshotHistory :=
          upsert (·.stableHeight) anchor ps.balanceHistorySnapshotHistory }
  | backfilled (ps : MinerPassStorage) (anchor : BalanceHistorySnapshotAnchor) :
      QuietStep cfg ps { ps with
        balanceHistorySnapshotHistory :=
          upsert (·.stableHeight) anchor ps.balanceHistorySnapshotHistory }

abbrev QuietReach (cfg : IndexerConfig) : MinerPassStorage → MinerPassStorage → Prop :=
  Relation.ReflTransGen (QuietStep cfg)

/-- The state holds a pass database quietly reached from another. -/
def QuietFrom (cfg : IndexerConfig) (ps : MinerPassStorage) (s : IndexerState) : Prop :=
  QuietReach cfg ps s.passStorage

section Recovery

variable {γ : Type} {part : IndexerState → γ}

/-- A part of the state that the energy store has no share in. -/
structure EnergyBlind (part : IndexerState → γ) : Prop where
  faults : IgnoresFaults part
  energy : ∀ s e, part { s with energyStorage := e } = part s

namespace EnergyBlind

theorem write (hp : EnergyBlind part) (f : PassEnergyStorage → PassEnergyStorage) :
    Preserves part (writeEnergy f) :=
  writeEnergy_preserves hp.faults hp.energy f

theorem read {α : Type} (hp : EnergyBlind part) (f : PassEnergyStorage → α) :
    Preserves part (readEnergy f) :=
  readEnergy_preserves hp.faults f

theorem clearRecordsFromHeight (hp : EnergyBlind part) (height : Nat) :
    Preserves part (clearRecordsFromHeight height) :=
  Preserves.bind (hp.write _) (fun _ => hp.write _)

theorem recoverPendingBlock (hp : EnergyBlind part) : Preserves part recoverPendingBlock := by
  refine Preserves.bind (hp.read _) (fun pending => ?_)
  cases pending with
  | none => exact Preserves.pure _
  | some p => exact Preserves.bind (hp.clearRecordsFromHeight p) (fun _ => hp.write _)

theorem abortPendingBlockSync (hp : EnergyBlind part) (height : Nat) :
    Preserves part (abortPendingBlockSync height) :=
  Preserves.bind (hp.read _) (fun _ => Preserves.ite _ (Preserves.throw _)
    (Preserves.bind (hp.clearRecordsFromHeight height) (fun _ => hp.write _)))

theorem getMaxRecordBlockHeight (hp : EnergyBlind part) :
    Preserves part getMaxRecordBlockHeight := by
  refine Preserves.bind (hp.read _) (fun cached => ?_)
  cases cached with
  | some h => exact Preserves.pure _
  | none =>
    refine Preserves.bind (hp.read _) (fun scanned => ?_)
    cases scanned with
    | some h => exact Preserves.bind (hp.write _) (fun _ => Preserves.pure _)
    | none => exact Preserves.pure _

theorem truncateFutureRecords (hp : EnergyBlind part) (height : Nat) :
    Preserves part (truncateFutureRecords height) := by
  refine Preserves.bind hp.getMaxRecordBlockHeight (fun cached => ?_)
  cases cached with
  | some h => exact Preserves.ite _ (hp.clearRecordsFromHeight _) (Preserves.pure _)
  | none => exact Preserves.pure _

theorem reconcileSyncedMarker (hp : EnergyBlind part) (height : Nat) :
    Preserves part (reconcileSyncedMarker height) := by
  refine Preserves.bind (hp.read _) (fun synced => ?_)
  cases synced with
  | some h =>
    exact Preserves.ite _ (hp.write _) (Preserves.ite _ (Preserves.throw _) (Preserves.pure _))
  | none => exact hp.write _

theorem reconcileWithPassSyncedHeight (hp : EnergyBlind part) (height : Nat) :
    Preserves part (reconcileWithPassSyncedHeight height) :=
  Preserves.bind hp.recoverPendingBlock (fun _ =>
    Preserves.bind (hp.truncateFutureRecords height) (fun _ => hp.reconcileSyncedMarker height))

end EnergyBlind

end Recovery

namespace InscriptionTransferTracker

/-- Loading the tracker changes neither database. -/
theorem loadAllPasses_preserves {γ : Type} {part : IndexerState → γ} (hf : IgnoresFaults part)
    (hm : ∀ s m, part { s with inscriptions := m } = part s) (index rounds : Nat) :
    Preserves part (loadAllPasses index rounds) := by
  induction rounds generalizing index with
  | zero => exact Preserves.pure _
  | succ rounds ih =>
    refine Preserves.bind (readPass_preserves hf _) (fun passes => ?_)
    refine Preserves.ite _ (Preserves.pure _) (Preserves.bind (Preserves.modify (fun s => hm s _))
      (fun _ => ?_))
    exact Preserves.ite _ (Preserves.pure _) (ih _)

theorem reloadFromStorage_preserves {γ : Type} {part : IndexerState → γ} (hf : IgnoresFaults part)
    (hm : ∀ s m, part { s with inscriptions := m } = part s)
    (hs : ∀ s staged, part { s with stagedBlocks := staged } = part s) :
    Preserves part reloadFromStorage := by
  refine Preserves.bind (Preserves.modify (fun s => ?_)) (fun _ => Preserves.bind Preserves.get
    (fun _ => loadAllPasses_preserves hf hm _ _))
  exact (hs { s with inscriptions := MultiMap.new } []).trans (hm s _)

theorem reloadFromStorage_passStorage : Preserves IndexerState.passStorage reloadFromStorage :=
  reloadFromStorage_preserves (fun _ _ => rfl) (fun _ _ => rfl) (fun _ _ => rfl)

end InscriptionTransferTracker

theorem energyBlind_passStorage : EnergyBlind IndexerState.passStorage :=
  ⟨fun _ _ => rfl, fun _ _ => rfl⟩

namespace InscriptionIndexer

variable {cfg : IndexerConfig} {s : IndexerState}

/-- The pass database with the recovery marker cleared. -/
def cleared (ps : MinerPassStorage) : MinerPassStorage :=
  { ps with upstreamReorgRecoveryPendingHeight := none }

/-- A recovery that succeeds either had nothing to do or went through all of it. -/
theorem resumePendingUpstreamReorgRecovery_ok {t : IndexerState} {u : Unit}
    (h : resumePendingUpstreamReorgRecovery cfg s = .ok u t) :
    (s.passStorage.upstreamReorgRecoveryPendingHeight = none ∧ ∃ fs, t = s.withFaults fs) ∨
      ∃ pending fs s₁ s₂ fs', s.passStorage.upstreamReorgRecoveryPendingHeight = some pending ∧
        s.passStorage.syncedBtcBlockHeight.getD 0 = pending ∧
        rollbackToPassSyncedHeight pending (s.withFaults fs) = .ok () s₁ ∧
        reloadFromStorage s₁ = .ok () s₂ ∧
        t = { s₂ with passStorage := cleared s.passStorage, faults := fs' } := by
  obtain ⟨marker, _, hread, h⟩ := bind_eq_ok h
  obtain ⟨rfl, fs₁, rfl⟩ := readPass_ok hread
  cases hm : s.passStorage.upstreamReorgRecoveryPendingHeight with
  | none =>
    rw [hm] at h
    cases h
    exact .inl ⟨rfl, fs₁, rfl⟩
  | some pending =>
    rw [hm] at h
    obtain ⟨synced, _, hread', h⟩ := bind_eq_ok h
    obtain ⟨rfl, fs₂, rfl⟩ := readPass_ok hread'
    dsimp only at h
    split at h
    · cases h
    · rename_i heq
      obtain ⟨_, s₁, hroll, h₁⟩ := bind_eq_ok h
      obtain ⟨_, s₂, hreload, h₂⟩ := bind_eq_ok h₁
      obtain ⟨_, _, hcheck, h₃⟩ := bind_eq_ok h₂
      obtain ⟨-, fs₃, rfl⟩ := checkPass_ok hcheck
      obtain ⟨_, _, hcheck', h₄⟩ := bind_eq_ok h₃
      obtain ⟨-, fs₄, rfl⟩ := checkPass_ok hcheck'
      obtain ⟨ps, fs₅, hps, rfl⟩ := writePass_ok h₄
      cases hps
      have hpass : s₂.passStorage = s.passStorage := by
        rw [reloadFromStorage_passStorage.ok hreload,
          (energyBlind_passStorage.reconcileWithPassSyncedHeight pending).ok hroll]
        rfl
      refine .inr ⟨pending, fs₂, s₁, s₂, fs₅, rfl, not_not.mp heq, hroll, hreload, ?_⟩
      simp only [cleared, IndexerState.withFaults, hpass]

theorem resumePendingUpstreamReorgRecovery_ok_pass {t : IndexerState} {u : Unit}
    (h : resumePendingUpstreamReorgRecovery cfg s = .ok u t) :
    t.passStorage = cleared s.passStorage := by
  rcases resumePendingUpstreamReorgRecovery_ok h with ⟨hn, fs, rfl⟩ | ⟨_, _, _, _, _, _, _, _, _, rfl⟩
  · simp only [cleared, IndexerState.withFaults, ← hn]
  · rfl

/-- Until the marker is cleared the recovery leaves the pass database alone. -/
theorem resumePendingUpstreamReorgRecovery_error_pass {t : IndexerState} {e : IndexerError}
    (h : resumePendingUpstreamReorgRecovery cfg s = .error e t) :
    t.passStorage = s.passStorage := by
  have hread : ∀ {α : Type} (f : MinerPassStorage → α),
      Preserves IndexerState.passStorage (readPass f) := readPass_preserves (fun _ _ => rfl)
  have hcheck : ∀ f, Preserves IndexerState.passStorage (checkPass f) :=
    checkPass_preserves (fun _ _ => rfl)
  have htriple : Triple (fun r => r.passStorage = s.passStorage)
      (resumePendingUpstreamReorgRecovery cfg) (fun _ _ => True)
      (fun _ r => r.passStorage = s.passStorage) := by
    refine Triple.bind (Triple.of_preserves (hread _) _) (fun marker => ?_)
    cases marker with
    | none => exact fun _ _ => trivial
    | some pending =>
      refine Triple.bind (Triple.of_preserves (hread _) _) (fun synced => ?_)
      refine Triple.ite _ (fun _ r hr => hr) (fun _ => ?_)
      refine Triple.bind (Triple.of_preserves
        (energyBlind_passStorage.reconcileWithPassSyncedHeight _) _) (fun _ => ?_)
      refine Triple.bind (Triple.of_preserves reloadFromStorage_passStorage _) (fun _ => ?_)
      refine Triple.bind (Triple.of_preserves (hcheck _) _) (fun _ => ?_)
      refine Triple.bind (Triple.of_preserves (hcheck _) _) (fun _ => ?_)
      intro r hr
      cases hw : writePass (fun ps => .ok { ps with upstreamReorgRecoveryPendingHeight := none }) r
        with
      | ok u t => trivial
      | error e t =>
        obtain ⟨fs, rfl⟩ := writePass_error hw
        exact hr
  exact htriple.error rfl h

theorem resumePendingUpstreamReorgRecovery_quiet (s : IndexerState) :
    QuietFrom cfg s.passStorage (finalState (resumePendingUpstreamReorgRecovery cfg s)) := by
  cases h : resumePendingUpstreamReorgRecovery cfg s with
  | ok u t =>
    show QuietReach cfg s.passStorage t.passStorage
    rw [resumePendingUpstreamReorgRecovery_ok_pass h]
    exact .single (.cleared _)
  | error e t =>
    show QuietReach cfg s.passStorage t.passStorage
    rw [resumePendingUpstreamReorgRecovery_error_pass h]

theorem currentHeight_cleared (ps : MinerPassStorage) :
    currentHeight cfg (cleared ps) = currentHeight cfg ps := rfl

theorem reconcileUpstreamReorg_quiet {rollbackTarget : Option Nat} (height : Nat)
    (hr : ∀ target, rollbackTarget = some target →
      cfg.genesisBlockHeight - 1 ≤ target ∧ target ≤ currentHeight cfg s.passStorage) :
    QuietFrom cfg s.passStorage (finalState (reconcileUpstreamReorg cfg height rollbackTarget s)) := by
  cases rollbackTarget with
  | none => exact .refl
  | some target =>
    refine finalState_bind (fun e t hw => ?_) (fun _ t hw => ?_)
    · obtain ⟨fs, rfl⟩ := writePass_error hw
      exact .refl
    · obtain ⟨ps, fs, hps, rfl⟩ := writePass_ok hw
      obtain ⟨rfl, hc⟩ := rollbackToBlockHeightInternal_ok hps
      have hroll : QuietStep cfg s.passStorage (s.passStorage.rolledBack target true) :=
        .rolledBack _ target (hr target rfl).1 (hr target rfl).2 hc
      have hresume : QuietReach cfg (s.passStorage.rolledBack target true) _ :=
        resumePendingUpstreamReorgRecovery_quiet
          { s with passStorage := s.passStorage.rolledBack target true, faults := fs }
      refine finalState_bind (fun e t ht => ?_) (fun _ t ht => ?_)
      · rw [ht] at hresume
        exact .head hroll hresume
      · rw [ht] at hresume
        exact .head hroll hresume

/-- Preparing a round clears the marker and rolls back at most. -/
theorem prepareSync_quiet {rollbackTarget : Option Nat}
    (hr : ∀ target, rollbackTarget = some target →
      cfg.genesisBlockHeight - 1 ≤ target ∧ target ≤ currentHeight cfg s.passStorage) :
    QuietFrom cfg s.passStorage (finalState (prepareSync cfg rollbackTarget s)) := by
  have hcheck : ∀ height, Preserves IndexerState.passStorage (do
      checkPass (·.assertNoDataAfterBlockHeight height)
      checkPass (·.assertBalanceSnapshotConsistency height cfg.genesisBlockHeight)
      reconcileWithPassSyncedHeight height) := fun height =>
    Preserves.bind (checkPass_preserves (fun _ _ => rfl) _) (fun _ =>
      Preserves.bind (checkPass_preserves (fun _ _ => rfl) _) (fun _ =>
        energyBlind_passStorage.reconcileWithPassSyncedHeight height))
  refine finalState_bind (fun e t h => ?_) (fun _ t h => ?_)
  · obtain ⟨fs, rfl⟩ := (ReadOnly.readPass _).error h
    exact .refl
  obtain ⟨-, fs₁, rfl⟩ := readPass_ok h
  refine finalState_bind (fun e t h => ?_) (fun _ t h => ?_)
  · have hpass := resumePendingUpstreamReorgRecovery_error_pass h
    show QuietReach cfg s.passStorage t.passStorage
    rw [hpass]
    exact .refl
  have hclear := resumePendingUpstreamReorgRecovery_ok_pass h
  change t.passStorage = cleared s.passStorage at hclear
  have hhead : ∀ r, QuietFrom cfg (cleared s.passStorage) r → QuietFrom cfg s.passStorage r :=
    fun r hr => .head (.cleared s.passStorage) hr
  apply hhead
  refine finalState_bind (fun e t' h' => ?_) (fun _ t' h' => ?_)
  · obtain ⟨fs, rfl⟩ := (ReadOnly.readPass _).error h'
    rw [IndexerState.withFaults, hclear]
    exact .refl
  obtain ⟨rfl, fs₂, rfl⟩ := readPass_ok h'
  have hrange : ∀ target, rollbackTarget = some target → cfg.genesisBlockHeight - 1 ≤ target ∧
      target ≤ currentHeight cfg (t.withFaults fs₂).passStorage := by
    intro target ht
    show _ ∧ target ≤ currentHeight cfg t.passStorage
    rw [hclear, currentHeight_cleared]
    exact hr target ht
  have hreorg := reconcileUpstreamReorg_quiet (currentHeight cfg t.passStorage) hrange
  refine finalState_bind (fun e t' h' => ?_) (fun height t' h' => ?_)
  · rw [h'] at hreorg
    change QuietReach cfg t.passStorage t'.passStorage at hreorg
    rw [hclear] at hreorg
    exact hreorg
  · rw [h'] at hreorg
    change QuietReach cfg t.passStorage t'.passStorage at hreorg
    rw [hclear, ← hcheck height t'] at hreorg
    exact hreorg

/-- The end of a round preserves what its two kinds of writes preserve. -/
theorem finishSync_preserves {γ : Type} {part : IndexerState → γ} (hp : IgnoresFaults part)
    (hanchor : ∀ snapshot, Preserves part (writePass (·.upsertBalanceHistorySnapshotAnchor snapshot)))
    (hentry : ∀ snapshot,
      Preserves part (writePass (·.upsertBalanceHistorySnapshotHistoryEntry snapshot)))
    (height : Nat) (snapshot : BalanceHistorySnapshotInfo)
    (stateRefAtHeight : Nat → BalanceHistorySnapshotInfo) :
    Preserves part (finishSync cfg height snapshot stateRefAtHeight) := by
  have hfrom : ∀ count first, Preserves part (backfillFrom stateRefAtHeight first count) := by
    intro count
    induction count with
    | zero => exact fun first => Preserves.pure _
    | succ count ih =>
      intro first
      refine Preserves.bind (readPass_preserves hp _) (fun row => ?_)
      cases row with
      | some a => exact ih (first + 1)
      | none =>
        exact Preserves.bind (io_preserves hp) (fun _ =>
          Preserves.bind (hentry _) (fun _ => ih (first + 1)))
  refine Preserves.bind (Preserves.ite _ (Preserves.throw _) (hanchor _)) (fun _ => ?_)
  refine Preserves.ite _ (Preserves.bind (readPass_preserves hp _) (fun missing => ?_))
    (Preserves.pure _)
  cases missing with
  | none => exact Preserves.pure _
  | some first => exact hfrom _ first

theorem backfillFrom_quiet (stateRefAtHeight : Nat → BalanceHistorySnapshotInfo) (height : Nat)
    (count : Nat) (s : IndexerState) :
    QuietFrom cfg s.passStorage (finalState (backfillFrom stateRefAtHeight height count s)) := by
  induction count generalizing height s with
  | zero => exact .refl
  | succ count ih =>
    refine finalState_bind (fun e t h => ?_) (fun row t h => ?_)
    · obtain ⟨fs, rfl⟩ := (ReadOnly.readPass _).error h
      exact .refl
    obtain ⟨-, fs, rfl⟩ := readPass_ok h
    cases row with
    | some a => exact ih (height + 1) (s.withFaults fs)
    | none =>
      refine finalState_bind (fun e t h => ?_) (fun _ t h => ?_)
      · obtain ⟨fs, rfl⟩ := io_error h
        exact .refl
      obtain ⟨fs', rfl⟩ := io_ok h
      refine finalState_bind (fun e t h => ?_) (fun _ t h => ?_)
      · obtain ⟨fs, rfl⟩ := writePass_error h
        exact .refl
      · obtain ⟨ps, fs'', hps, rfl⟩ := writePass_ok h
        unfold upsertBalanceHistorySnapshotHistoryEntry at hps
        cases ha : snapshotAnchor (stateRefAtHeight height) with
        | error e =>
          rw [ha] at hps
          cases hps
        | ok anchor =>
          rw [ha] at hps
          cases hps
          have hrest := ih (height + 1) { s with
            passStorage := { s.passStorage with
              balanceHistorySnapshotHistory :=
                upsert (·.stableHeight) anchor s.passStorage.balanceHistorySnapshotHistory }
            faults := fs'' }
          exact .head (.backfilled _ anchor) hrest

theorem backfillBalanceHistorySnapshotHistory_quiet (cfg : IndexerConfig)
    (stateRefAtHeight : Nat → BalanceHistorySnapshotInfo) (first last : Nat) (s : IndexerState) :
    QuietFrom cfg s.passStorage
      (finalState (backfillBalanceHistorySnapshotHistory stateRefAtHeight first last s)) := by
  unfold backfillBalanceHistorySnapshotHistory
  split
  · refine finalState_bind (fun e t h => ?_) (fun missing t h => ?_)
    · obtain ⟨fs, rfl⟩ := (ReadOnly.readPass _).error h
      exact .refl
    obtain ⟨-, fs, rfl⟩ := readPass_ok h
    cases missing with
    | none => exact .refl
    | some m => exact backfillFrom_quiet stateRefAtHeight m (last + 1 - m) (s.withFaults fs)
  · exact .refl

theorem finishSync_quiet {snapshot : BalanceHistorySnapshotInfo}
    {stateRefAtHeight : Nat → BalanceHistorySnapshotInfo}
    (hg : cfg.genesisBlockHeight ≤ currentHeight cfg s.passStorage) :
    QuietFrom cfg s.passStorage (finalState
      (finishSync cfg (currentHeight cfg s.passStorage) snapshot stateRefAtHeight s)) := by
  refine finalState_bind (fun e t h => ?_) (fun _ t h => ?_)
  · unfold persistBalanceHistorySnapshotAnchor at h
    split at h
    · cases h
      exact .refl
    · obtain ⟨fs, rfl⟩ := writePass_error h
      exact .refl
  unfold persistBalanceHistorySnapshotAnchor at h
  split at h
  · cases h
  rename_i hheight
  obtain ⟨ps, fs, hps, rfl⟩ := writePass_ok h
  unfold upsertBalanceHistorySnapshotAnchor at hps
  cases ha : snapshotAnchor snapshot with
  | error e =>
    rw [ha] at hps
    cases hps
  | ok anchor =>
    rw [ha] at hps
    cases hps
    rw [not_not.mp hheight]
    have hrest := backfillBalanceHistorySnapshotHistory_quiet cfg stateRefAtHeight
      cfg.genesisBlockHeight (currentHeight cfg s.passStorage)
      { s with
        passStorage := { s.passStorage with
          syncedBtcBlockHeight := some (currentHeight cfg s.passStorage)
          balanceHistorySnapshotAnchor := some anchor
          balanceHistorySnapshotHistory :=
            upsert (·.stableHeight) anchor s.passStorage.balanceHistorySnapshotHistory }
        faults := fs }
    exact .head (.adopted s.passStorage anchor hg) hrest

/-- A block that fails leaves the pass database as it was. -/
theorem syncBlockDurably_error_pass {env : BlockEnv} {height : Nat} {t : IndexerState}
    {e : IndexerError} (h : syncBlockDurably cfg env height s = .error e t) :
    t.passStorage = s.passStorage := by
  rcases bind_eq_error h with hread | ⟨_, _, hread, h⟩
  · obtain ⟨fs, rfl⟩ := (ReadOnly.readPass _).error hread
    rfl
  · obtain ⟨-, fs, rfl⟩ := readPass_ok hread
    rcases withSavepoint_error h with ⟨fs', rfl⟩ | ⟨fs', t', -, rfl⟩
    · rfl
    · rfl

end InscriptionIndexer

section Heights

open InscriptionIndexer

theorem currentHeight_quiet {cfg : IndexerConfig} {ps ps' : MinerPassStorage}
    (h : QuietReach cfg ps ps') : currentHeight cfg ps' ≤ currentHeight cfg ps := by
  induction h with
  | refl => exact Nat.le_refl _
  | tail _ hstep ih =>
    refine Nat.le_trans ?_ ih
    cases hstep with
    | cleared => exact Nat.le_refl _
    | rolledBack target lower upper constraints =>
      exact Nat.max_le.mpr ⟨upper, Nat.le_max_right _ _⟩
    | adopted anchor genesis => exact Nat.max_le.mpr ⟨Nat.le_refl _, Nat.le_max_right _ _⟩
    | backfilled anchor => exact Nat.le_refl _

theorem currentHeight_adopted (cfg : IndexerConfig) (ps : MinerPassStorage)
    (anchor : BalanceHistorySnapshotAnchor) :
    currentHeight cfg { ps with
      syncedBtcBlockHeight := some (currentHeight cfg ps)
      balanceHistorySnapshotAnchor := some anchor
      balanceHistorySnapshotHistory :=
        upsert (·.stableHeight) anchor ps.balanceHistorySnapshotHistory } = currentHeight cfg ps :=
  Nat.max_eq_left (Nat.le_max_right _ _)

theorem currentHeight_rolledBack {cfg : IndexerConfig} {target : Nat}
    (lower : cfg.genesisBlockHeight - 1 ≤ target) (ps : MinerPassStorage) (mark : Bool) :
    currentHeight cfg (ps.rolledBack target mark) = target :=
  Nat.max_eq_left lower

end Heights

end Usdb
