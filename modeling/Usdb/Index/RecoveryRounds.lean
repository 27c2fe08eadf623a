import Usdb.Energy.Reconciled
import Usdb.Index.RollbackRestores
import Usdb.Index.TrackerReload
import Usdb.Index.UpstreamReorg

namespace Usdb

open Framework MinerPassStorage PassEnergyStorage PassEnergyManager InscriptionTransferTracker
  InscriptionIndexer

section Detection

variable {client : BalanceHistoryClient} {ps : MinerPassStorage}
  {snapshot : BalanceHistorySnapshotInfo}
  {currentHeight latestHeight genesisBlockHeight target : Nat} {reason : String}

/-- The stored commit of a height is the one the client answers with. -/
def CommitMatches (client : BalanceHistoryClient) (ps : MinerPassStorage) (height : Nat) : Prop :=
  ∃ localCommit upstreamCommit, ps.getPassBlockCommit height = some localCommit ∧
    client.getBlockCommit height = .ok (some upstreamCommit) ∧
    storedPassCommitMatchesUpstream localCommit upstreamCommit = true

theorem searchCommonAncestor_matches {count : Nat}
    (h : searchCommonAncestor client ps genesisBlockHeight count = .ok target)
    (hgenesis : genesisBlockHeight ≤ target) (hpos : 1 ≤ genesisBlockHeight) :
    CommitMatches client ps target := by
  induction count with
  | zero =>
    cases h
    omega
  | succ count ih =>
    rw [searchCommonAncestor] at h
    split at h
    · cases h
      omega
    rename_i localCommit hlocal
    obtain ⟨found, hfound, h⟩ := bind_eq_ok_iff.mp h
    split at h
    · cases h
    rename_i upstreamCommit
    split at h
    · split at h
      · rename_i hmatch
        cases h
        exact ⟨localCommit, upstreamCommit, hlocal, hfound, hmatch⟩
      · exact ih h
    · obtain ⟨stateRef, -, h⟩ := bind_eq_ok_iff.mp h
      split at h
      · rename_i hboth
        cases h
        rw [Bool.and_eq_true] at hboth
        exact ⟨localCommit, upstreamCommit, hlocal, hfound, hboth.1⟩
      · exact ih h

theorem findCommonAncestorHeight_matches
    (h : findCommonAncestorHeight client ps currentHeight latestHeight genesisBlockHeight =
      .ok target) (hgenesis : genesisBlockHeight ≤ target) (hpos : 1 ≤ genesisBlockHeight) :
    CommitMatches client ps target ∧ target ≤ latestHeight := by
  unfold findCommonAncestorHeight at h
  dsimp only at h
  split at h
  · cases h
    omega
  · have hrange := searchCommonAncestor_range h
    exact ⟨searchCommonAncestor_matches h hgenesis hpos, by omega⟩

theorem getPassBlockCommit_rolledBack {height : Nat} {mark : Bool} (hle : height ≤ target) :
    (ps.rolledBack target mark).getPassBlockCommit height = ps.getPassBlockCommit height := by
  apply lookup_filter_of_key
  intro c hc
  rw [decide_eq_true_iff, hc]
  exact hle

/-- After the rollback to a reported target the same upstream has no drift to report. -/
theorem detectUpstreamReorgTarget_rolledBack (hpos : 1 ≤ genesisBlockHeight)
    (hlatest : genesisBlockHeight ≤ latestHeight)
    (h : detectUpstreamReorgTarget client ps currentHeight latestHeight snapshot
      genesisBlockHeight = .ok (some (target, reason))) (mark : Bool) :
    detectUpstreamReorgTarget client (ps.rolledBack target mark) target latestHeight snapshot
      genesisBlockHeight = .ok none := by
  obtain ⟨-, hfound⟩ := detectUpstreamReorgTarget_some hlatest h
  have hle : target ≤ latestHeight := by
    by_cases hgenesis : genesisBlockHeight ≤ target
    · exact (findCommonAncestorHeight_matches hfound hgenesis hpos).2
    · omega
  have hanchor : anchorDrift (ps.rolledBack target mark) target latestHeight snapshot = .ok [] :=
    ite_self _
  have hcommit : commitDrift client (ps.rolledBack target mark) target genesisBlockHeight =
      .ok [] := by
    unfold commitDrift
    split
    · rename_i hgenesis
      obtain ⟨⟨localCommit, upstreamCommit, hlocal, hupstream, hmatch⟩, -⟩ :=
        findCommonAncestorHeight_matches hfound hgenesis hpos
      rw [getPassBlockCommit_rolledBack (Nat.le_refl _), hlocal, hupstream]
      show Except.ok (if _ then _ else _) = _
      rw [if_pos hmatch]
    · rfl
  unfold detectUpstreamReorgTarget
  rw [hanchor, hcommit, if_neg (by omega)]
  rfl

end Detection

/-- The check passes where the last balance snapshot is that of the height. -/
theorem MinerPassStorage.assertBalanceSnapshotConsistency_at {ps : MinerPassStorage}
    {height genesisBlockHeight : Nat} (hgenesis : genesisBlockHeight ≤ height)
    (hat : ∃ s ∈ ps.activeBalanceSnapshots, s.blockHeight = height)
    (hle : ∀ s ∈ ps.activeBalanceSnapshots, s.blockHeight ≤ height) :
    ps.assertBalanceSnapshotConsistency height genesisBlockHeight = .ok () := by
  obtain ⟨s, hs, hheight⟩ := hat
  obtain ⟨m, hm, hmax⟩ := maxBy_le (·.blockHeight) ps.activeBalanceSnapshots s hs
  have hupper := hle m (maxBy_mem _ _ _ hm)
  have hlast : m.blockHeight = height := by omega
  unfold assertBalanceSnapshotConsistency getLatestActiveBalanceSnapshot
  rw [hm]
  dsimp only
  rw [if_neg (Nat.not_lt.mpr hgenesis), if_neg (not_not.mpr hlast)]

/-- Every block from genesis on has left a balance snapshot, and nothing else has. -/
structure SnapshotPerBlock (cfg : IndexerConfig) (ps : MinerPassStorage) : Prop where
  low : ∀ s ∈ ps.activeBalanceSnapshots, cfg.genesisBlockHeight ≤ s.blockHeight
  each : ∀ k, cfg.genesisBlockHeight ≤ k → k ≤ currentHeight cfg ps →
    ∃ s ∈ ps.activeBalanceSnapshots, s.blockHeight = k

namespace SnapshotPerBlock

variable {cfg : IndexerConfig} {ps ps' : MinerPassStorage} {target : Nat}

theorem empty : SnapshotPerBlock cfg .empty := by
  refine ⟨fun s hs => absurd hs List.not_mem_nil, fun k hg hk => ?_⟩
  have hh : currentHeight cfg .empty = cfg.genesisBlockHeight - 1 :=
    Nat.max_eq_right (Nat.zero_le _)
  have hpos := cfg.genesisBlockHeight_pos
  omega

theorem rolledBack (h : SnapshotPerBlock cfg ps) (lower : cfg.genesisBlockHeight - 1 ≤ target)
    (upper : target ≤ currentHeight cfg ps) (mark : Bool) :
    SnapshotPerBlock cfg (ps.rolledBack target mark) := by
  refine ⟨fun s hs => h.low s (List.mem_of_mem_filter hs), fun k hg hk => ?_⟩
  rw [currentHeight_rolledBack lower] at hk
  obtain ⟨s, hs, rfl⟩ := h.each k hg (hk.trans upper)
  exact ⟨s, List.mem_filter.mpr ⟨hs, decide_eq_true hk⟩, rfl⟩

theorem quiet (h : SnapshotPerBlock cfg ps) (hs : QuietReach cfg ps ps') :
    SnapshotPerBlock cfg ps' := by
  induction hs with
  | refl => exact h
  | tail _ hstep ih =>
    cases hstep with
    | cleared => exact ⟨ih.low, ih.each⟩
    | rolledBack target lower upper constraints => exact ih.rolledBack lower upper true
    | adopted anchor genesis =>
      refine ⟨ih.low, fun k hg hk => ih.each k hg ?_⟩
      refine hk.trans (Nat.le_of_eq ?_)
      exact Nat.max_eq_left (Nat.le_max_right _ _)
    | backfilled anchor => exact ⟨ih.low, ih.each⟩

theorem latestSnapshot_rolledBack_none (h : SnapshotPerBlock cfg ps)
    (hlow : target < cfg.genesisBlockHeight) (mark : Bool) :
    (ps.rolledBack target mark).getLatestActiveBalanceSnapshot = none := by
  cases hlatest : (ps.rolledBack target mark).getLatestActiveBalanceSnapshot with
  | none => rfl
  | some s =>
    obtain ⟨hs, hle⟩ := List.mem_filter.mp (maxBy_mem _ _ _ hlatest)
    rw [decide_eq_true_iff] at hle
    have hgenesis := h.low s hs
    omega

theorem assertBalanceSnapshotConsistency_rolledBack (h : SnapshotPerBlock cfg ps)
    (upper : target ≤ currentHeight cfg ps) (mark : Bool) :
    (ps.rolledBack target mark).assertBalanceSnapshotConsistency target cfg.genesisBlockHeight =
      .ok () := by
  by_cases hlow : target < cfg.genesisBlockHeight
  · unfold assertBalanceSnapshotConsistency
    rw [h.latestSnapshot_rolledBack_none hlow mark]
    exact if_pos hlow
  · obtain ⟨s, hs, hheight⟩ := h.each target (Nat.not_lt.mp hlow) upper
    apply assertBalanceSnapshotConsistency_at (Nat.not_lt.mp hlow)
    · exact ⟨s, List.mem_filter.mpr ⟨hs, decide_eq_true (Nat.le_of_eq hheight)⟩, hheight⟩
    · exact fun r hr => of_decide_eq_true (List.mem_filter.mp hr).2

/-- A block adds the snapshot of the next height. -/
theorem block (h : SnapshotPerBlock cfg ps)
    {burnable : MinerPassState → Prop} (hs : PassReach burnable (currentHeight cfg ps + 1) ps ps')
    {snapshot : ActiveBalanceSnapshot} {entry : PassBlockCommitEntry}
    (hsnapshot : snapshot.blockHeight = currentHeight cfg ps + 1) :
    SnapshotPerBlock cfg (((ps'.upsertActiveBalanceSnapshot snapshot).upsertPassBlockCommit
      entry).updateSyncedBtcBlockHeight (currentHeight cfg ps + 1)) := by
  have hrows : ps'.activeBalanceSnapshots = ps.activeBalanceSnapshots := hs.frame.2
  have hlow : cfg.genesisBlockHeight - 1 ≤ currentHeight cfg ps := Nat.le_max_right _ _
  refine ⟨fun s hs => ?_, fun k hg hk => ?_⟩
  · rcases mem_upsert _ _ _ _ hs with rfl | hs
    · omega
    · rw [hrows] at hs
      exact h.low s hs
  · have hk' : k ≤ currentHeight cfg ps + 1 :=
      hk.trans (show max (currentHeight cfg ps + 1) (cfg.genesisBlockHeight - 1) ≤ _ by omega)
    by_cases hlast : k = currentHeight cfg ps + 1
    · exact ⟨snapshot, (mem_upsert_iff _ _ _ _).mpr (.inl rfl), hsnapshot.trans hlast.symm⟩
    · obtain ⟨s, hs, rfl⟩ := h.each k hg (by omega)
      refine ⟨s, (mem_upsert_iff _ _ _ _).mpr (.inr ⟨?_, ?_⟩), rfl⟩
      · rw [hrows]
        exact hs
      · rw [hsnapshot]
        exact hlast

end SnapshotPerBlock

namespace World

variable {cfg : IndexerConfig} {cond : World → Label → Prop} {w w' : World}

theorem Step.snapshotPerBlock {l : Label} (h : SnapshotPerBlock cfg w.indexer.passStorage)
    (hs : Step cfg w l w') : SnapshotPerBlock cfg w'.indexer.passStorage := by
  rcases hs.quiet_or_block with ⟨hq, -⟩ | ⟨env, balances, faults, t, -, -, ⟨run⟩, rfl⟩
  · exact h.quiet hq
  · obtain ⟨ps, hreach, ht⟩ := run.passStorage_eq
      (BlockEventExecutor.eventsSatisfy_of_forall BlockEventExecutor.burnsOnly_true _ _)
    show SnapshotPerBlock cfg t.passStorage
    rw [ht]
    exact h.block hreach run.snapshot_height

theorem Reachable.snapshotPerBlock (h : Reachable cfg cond w) :
    SnapshotPerBlock cfg w.indexer.passStorage :=
  h.induct (P := fun w => SnapshotPerBlock cfg w.indexer.passStorage) .empty
    (fun _ _ _ hi _ hs => hs.snapshotPerBlock hi)

end World

section Contracts

variable {α β : Type} {P : IndexerState → Prop} {E : IndexerError → IndexerState → Prop}

/-- What a read reports of passes that are known. -/
theorem readPass_known {I : IndexerState → Prop} (hI : IgnoresFaults I)
    {f : MinerPassStorage → α} {a : α} (ha : ∀ s, I s → f s.passStorage = a) :
    Triple I (readPass f) (fun b s => I s ∧ b = a) (fun _ => I) := by
  intro s hs
  have hkept := (readPass_preserves hI f) s
  cases hx : readPass f s with
  | ok b t =>
    rw [hx] at hkept
    exact ⟨hkept.mpr hs, (readPass_ok hx).1.trans (ha s hs)⟩
  | error e t =>
    rw [hx] at hkept
    exact hkept.mpr hs

/-- A contract of a program that only fails when a call does. -/
structure Completes (P : IndexerState → Prop) (x : IndexerM α) (Q : α → IndexerState → Prop)
    (E : IndexerError → IndexerState → Prop) : Prop where
  triple : Triple P x Q E
  succeeds : ∀ s, P s → s.faults = [] → ∃ a t, x s = .ok a t ∧ t.faults = []

namespace Completes

theorem of_unfailing {x : IndexerM α} {Q : α → IndexerState → Prop} (h : Triple P x Q E)
    (hx : Unfailing x) : Completes P x Q E :=
  ⟨h, fun s _ hs => hx s hs⟩

theorem pure {Q : α → IndexerState → Prop} (a : α) (h : ∀ s, P s → Q a s) :
    Completes P (Pure.pure a : IndexerM α) Q E :=
  ⟨h, fun s _ hs => ⟨a, s, rfl, hs⟩⟩

theorem conseq {P' : IndexerState → Prop} {x : IndexerM α} {Q Q' : α → IndexerState → Prop}
    {E' : IndexerError → IndexerState → Prop} (h : Completes P x Q E) (hp : ∀ s, P' s → P s)
    (hq : ∀ a s, Q a s → Q' a s) (he : ∀ e s, E e s → E' e s) : Completes P' x Q' E' :=
  ⟨h.triple.conseq hp hq he, fun s hs => h.succeeds s (hp s hs)⟩

theorem bind {x : IndexerM α} {f : α → IndexerM β} {Q : α → IndexerState → Prop}
    {R : β → IndexerState → Prop} (hx : Completes P x Q E) (hf : ∀ a, Completes (Q a) (f a) R E) :
    Completes P (x >>= f) R E := by
  refine ⟨Triple.bind hx.triple (fun a => (hf a).triple), fun s hp hs => ?_⟩
  obtain ⟨a, t, ht, hfaults⟩ := hx.succeeds s hp hs
  obtain ⟨b, u, hu, hclean⟩ := (hf a).succeeds t (hx.triple.ok hp ht) hfaults
  exact ⟨b, u, by rw [bind_ok ht, hu], hclean⟩

theorem readPass_bind {I : IndexerState → Prop} (hI : IgnoresFaults I)
    {f : MinerPassStorage → α} {a : α} (ha : ∀ s, I s → f s.passStorage = a) {k : α → IndexerM β}
    {Q : β → IndexerState → Prop} (hk : Completes I (k a) Q E) (he : ∀ error s, I s → E error s) :
    Completes I (readPass f >>= k) Q E := by
  refine bind ((of_unfailing (readPass_known hI ha) (.readPass f)).conseq (fun _ hs => hs)
    (fun _ _ hs => hs) he) (fun b => ?_)
  by_cases hb : b = a
  · subst hb
    exact hk.conseq (fun _ hs => hs.1) (fun _ _ hq => hq) (fun _ _ he => he)
  · exact ⟨fun s hs => absurd hs.2 hb, fun s hs => absurd hs.2 hb⟩

/-- A check that passes changes nothing. -/
theorem checkPass {I : IndexerState → Prop} (hI : IgnoresFaults I)
    {f : MinerPassStorage → Except IndexerError Unit} (hf : ∀ s, I s → f s.passStorage = .ok ())
    (he : ∀ error s, I s → E error s) : Completes I (Usdb.checkPass f) (fun _ => I) E := by
  refine ⟨?_, fun s hs hfaults => ?_⟩
  · have hkept : Keeps I (Usdb.checkPass f) :=
      Keeps.of_preserves (checkPass_preserves hI f) (fun p => p)
    exact hkept.conseq (fun _ hs => hs) (fun _ _ hs => hs) he
  · refine ⟨(), s, ?_, hfaults⟩
    unfold Usdb.checkPass
    rw [bind_ok (io_of_no_faults s hfaults)]
    show liftExcept (f s.passStorage) s = _
    rw [hf s hs]
    rfl

/-- A write that goes through, or was not begun. -/
theorem writePass {Q : Unit → IndexerState → Prop}
    {f : MinerPassStorage → Except IndexerError MinerPassStorage} {ps ps' : MinerPassStorage}
    (hps : ∀ s, P s → s.passStorage = ps) (hf : f ps = .ok ps')
    (hq : ∀ s fs, P s → Q () { s with passStorage := ps', faults := fs })
    (he : ∀ error s fs, P s → E error (s.withFaults fs)) : Completes P (Usdb.writePass f) Q E := by
  refine ⟨fun s hs => ?_, fun s hs hfaults => ?_⟩
  · cases hw : Usdb.writePass f s with
    | ok u t =>
      obtain ⟨ps₁, fs, h₁, rfl⟩ := writePass_ok hw
      rw [hps s hs, hf] at h₁
      cases h₁
      exact hq s fs hs
    | error e t =>
      obtain ⟨fs, rfl⟩ := writePass_error hw
      exact he e s fs hs
  · refine ⟨(), { s with passStorage := ps' }, ?_, hfaults⟩
    unfold Usdb.writePass
    rw [bind_ok (io_of_no_faults s hfaults)]
    show (liftExcept (f s.passStorage) >>= _) s = _
    rw [hps s hs, hf]
    rfl

end Completes

end Contracts

section Stages

variable {cfg : IndexerConfig} {target : Nat} {ps : MinerPassStorage} {e₀ : PassEnergyStorage}

/-- The passes are what they are, and the energy store is on its way to the target. -/
def HeldAt (target : Nat) (e₀ : PassEnergyStorage) (ps : MinerPassStorage) (s : IndexerState) :
    Prop :=
  s.passStorage = ps ∧ OnTheWay target e₀ s.energyStorage

/-- The recovery of a drift is over but for the energy store. -/
def Recovered (target : Nat) (e₀ : PassEnergyStorage) (ps : MinerPassStorage) (s : IndexerState) :
    Prop :=
  HeldAt target e₀ (ps.rolledBack target false) s ∧ Reloaded s

/-- The energy store is where an uninterrupted reconciliation takes it, too. -/
def Settled (target : Nat) (e₀ : PassEnergyStorage) (ps : MinerPassStorage) (s : IndexerState) :
    Prop :=
  Recovered target e₀ ps s ∧ s.energyStorage = e₀.reconciled target

/-- Passes that can be rolled back to the target of a drift. -/
structure RollsBackTo (cfg : IndexerConfig) (target : Nat) (ps : MinerPassStorage) : Prop where
  lower : cfg.genesisBlockHeight - 1 ≤ target
  upper : target ≤ currentHeight cfg ps
  snapshots : SnapshotPerBlock cfg ps
  unmarked : ps.upstreamReorgRecoveryPendingHeight = none
  restorable : ps.rollbackToBlockHeightInternal target none true = .ok (ps.rolledBack target true)

theorem HeldAt.reconcile :
    Completes (HeldAt target e₀ ps) (reconcileWithPassSyncedHeight target)
      (fun _ => HeldAt target e₀ ps) (fun _ => HeldAt target e₀ ps) := by
  refine ⟨?_, fun s hs hfaults => ?_⟩
  · exact (Keeps.of_preserves (energyBlind_passStorage.reconcileWithPassSyncedHeight target)
      (· = ps)).and (reconcileWithPassSyncedHeight_onTheWay (Nat.le_refl target))
  · obtain ⟨t, ht, hclean⟩ := reconcileWithPassSyncedHeight_total hfaults hs.2.bound hs.2.synced
    exact ⟨(), t, ht, hclean⟩

theorem reloadFromStorage_heldAt : Preserves (HeldAt target e₀ ps) reloadFromStorage :=
  reloadFromStorage_preserves (fun _ _ => rfl) (fun _ _ => rfl) (fun _ _ => rfl)

theorem HeldAt.reload :
    Completes (HeldAt target e₀ ps) reloadFromStorage
      (fun _ s => HeldAt target e₀ ps s ∧ Reloaded s) (fun _ => HeldAt target e₀ ps) := by
  refine ⟨fun s hs => ?_, fun s _ hfaults => ⟨(), _, reloadFromStorage_reloads hfaults, hfaults⟩⟩
  have hkept : HeldAt target e₀ ps (finalState (reloadFromStorage s)) :=
    (reloadFromStorage_heldAt s).mpr hs
  cases hx : reloadFromStorage s with
  | ok u t =>
    rw [hx] at hkept
    refine ⟨hkept, ?_⟩
    obtain ⟨fs, rfl⟩ := reloadFromStorage_ok hx
    exact ⟨rfl, rfl⟩
  | error e t =>
    rw [hx] at hkept
    exact hkept

/-- The reconciliation at the end of a round. -/
theorem HeldAt.settle :
    Triple (HeldAt target e₀ ps) (reconcileWithPassSyncedHeight target)
      (fun _ s => HeldAt target e₀ ps s ∧ s.energyStorage = e₀.reconciled target)
      (fun _ => HeldAt target e₀ ps) := by
  intro s hs
  have hheld := HeldAt.reconcile.triple s hs
  cases hx : reconcileWithPassSyncedHeight target s with
  | ok u t =>
    rw [hx] at hheld
    have hpoints := (reconcileWithPassSyncedHeight_points hs.2.bound).ok rfl hx
    exact ⟨hheld, hpoints.trans hs.2.ends⟩
  | error e t =>
    rw [hx] at hheld
    exact hheld

theorem Recovered.reconcile :
    Completes (Recovered target e₀ ps) (reconcileWithPassSyncedHeight target)
      (fun _ => Settled target e₀ ps) (fun _ => Recovered target e₀ ps) := by
  refine ⟨fun s hs => ?_, fun s hs => HeldAt.reconcile.succeeds s hs.1⟩
  have hheld := HeldAt.settle s hs.1
  have htracker : Keeps Reloaded (reconcileWithPassSyncedHeight target) :=
    Keeps.of_preserves (EnergyBlind.reconcileWithPassSyncedHeight
      ⟨fun _ _ => rfl, fun _ _ => rfl⟩ target) (fun p => p)
  cases hx : reconcileWithPassSyncedHeight target s with
  | ok u t =>
    rw [hx] at hheld
    exact ⟨⟨hheld.1, htracker.ok hs.2 hx⟩, hheld.2⟩
  | error e t =>
    rw [hx] at hheld
    exact ⟨hheld, htracker.error hs.2 hx⟩

theorem resumePendingUpstreamReorgRecovery_unmarked {I : IndexerState → Prop}
    (hI : IgnoresFaults I)
    (hnone : ∀ s, I s → s.passStorage.upstreamReorgRecoveryPendingHeight = none) :
    Completes I (resumePendingUpstreamReorgRecovery cfg) (fun _ => I) (fun _ => I) :=
  .readPass_bind hI hnone (.pure () (fun _ hs => hs)) (fun _ _ hs => hs)

section Rounds

variable (h : RollsBackTo cfg target ps)

include h

/-- Both checks pass once the passes are rolled back. -/
theorem RollsBackTo.checks {α : Type} {I : IndexerState → Prop} (hI : IgnoresFaults I) {mark : Bool}
    (hps : ∀ s, I s → s.passStorage = ps.rolledBack target mark) {x : IndexerM α}
    {Q : α → IndexerState → Prop} {E : IndexerError → IndexerState → Prop}
    (hx : Completes I x Q E) (he : ∀ error s, I s → E error s) :
    Completes I (do
      checkPass (·.assertNoDataAfterBlockHeight target)
      checkPass (·.assertBalanceSnapshotConsistency target cfg.genesisBlockHeight)
      x) Q E := by
  refine .bind (.checkPass hI (fun s hs => ?_) he) (fun _ => ?_)
  · rw [hps s hs]
    exact assertNoDataAfterBlockHeight_rolledBack ps target mark
  · refine .bind (.checkPass hI (fun s hs => ?_) he) (fun _ => hx)
    rw [hps s hs]
    exact h.snapshots.assertBalanceSnapshotConsistency_rolledBack h.upper mark

/-- The second half of a recovery clears the marker or leaves the passes as it found them,
and the energy store stays on its way. -/
theorem resumePendingUpstreamReorgRecovery_marked :
    Completes (HeldAt target e₀ (ps.rolledBack target true))
      (resumePendingUpstreamReorgRecovery cfg) (fun _ => Recovered target e₀ ps)
      (fun _ => HeldAt target e₀ (ps.rolledBack target true)) := by
  have hread : ∀ {α : Type} (f : MinerPassStorage → α) s,
      HeldAt target e₀ (ps.rolledBack target true) s →
        f s.passStorage = f (ps.rolledBack target true) := fun f s hs => congrArg f hs.1
  refine .readPass_bind (fun _ _ => rfl) (hread _) ?_ (fun _ _ hs => hs)
  refine .readPass_bind (fun _ _ => rfl) (hread _) ?_ (fun _ _ hs => hs)
  have hsynced : (ps.rolledBack target true).syncedBtcBlockHeight.getD 0 = target := rfl
  dsimp only
  rw [if_neg (not_not.mpr hsynced)]
  refine .bind HeldAt.reconcile (fun _ => .bind HeldAt.reload (fun _ => ?_))
  refine h.checks (fun _ _ => rfl) (fun s hs => hs.1.1) ?_ (fun _ _ hs => hs.1)
  refine .writePass (fun s hs => hs.1.1) rfl (fun s fs hs => ?_) (fun _ s fs hs => hs.1)
  obtain ⟨⟨hpass, henergy⟩, htracker, hstaged⟩ := hs
  refine ⟨⟨rfl, henergy⟩, ?_, hstaged⟩
  show s.inscriptions = _
  rw [htracker, hpass]
  rfl

theorem RollsBackTo.height (s : IndexerState) (hs : Recovered target e₀ ps s) :
    currentHeight cfg s.passStorage = target := by
  rw [hs.1.1]
  exact currentHeight_rolledBack h.lower _ _

/-- The round after the rollback, from its height on. -/
theorem RollsBackTo.checked :
    Completes (Recovered target e₀ ps) (do
      checkPass (·.assertNoDataAfterBlockHeight target)
      checkPass (·.assertBalanceSnapshotConsistency target cfg.genesisBlockHeight)
      reconcileWithPassSyncedHeight target)
      (fun _ => Settled target e₀ ps) (fun _ => Recovered target e₀ ps) :=
  h.checks (fun _ _ => rfl) (fun _ hs => hs.1.1) Recovered.reconcile (fun _ _ hs => hs)

/-- A round that finds the recovery done. -/
theorem prepareSync_recovered :
    Completes (Recovered target e₀ ps) (prepareSync cfg none) (fun _ => Settled target e₀ ps)
      (fun _ => Recovered target e₀ ps) := by
  refine .readPass_bind (fun _ _ => rfl) h.height ?_ (fun _ _ hs => hs)
  refine .bind (resumePendingUpstreamReorgRecovery_unmarked (fun _ _ => rfl)
    (fun s hs => by rw [hs.1.1]; rfl)) (fun _ => ?_)
  exact .readPass_bind (fun _ _ => rfl) h.height h.checked (fun _ _ hs => hs)

/-- A round that finds the marker takes the recovery up. -/
theorem prepareSync_marked :
    Completes (HeldAt target e₀ (ps.rolledBack target true)) (prepareSync cfg none)
      (fun _ => Settled target e₀ ps)
      (fun _ s => HeldAt target e₀ (ps.rolledBack target true) s ∨ Recovered target e₀ ps s) := by
  refine .readPass_bind (fun _ _ => rfl) (fun s hs => congrArg (currentHeight cfg) hs.1) ?_
    (fun _ _ hs => .inl hs)
  refine .bind ((resumePendingUpstreamReorgRecovery_marked h).conseq (fun _ hs => hs)
    (fun _ _ hs => hs) (fun _ _ hs => .inl hs)) (fun _ => ?_)
  exact .readPass_bind (fun _ _ => rfl) h.height
    (h.checked.conseq (fun _ hs => hs) (fun _ _ hs => hs) (fun _ _ hs => .inr hs))
    (fun _ _ hs => .inr hs)

/-- The rest of a round that finds a drift. What is known before the rollback stays known
until it is done. -/
theorem RollsBackTo.rest {I : IndexerState → Prop} (hI : IgnoresFaults I)
    (hheld : ∀ s, I s → HeldAt target e₀ ps s) :
    Completes I (do
      let height ← readPass (currentHeight cfg)
      let height ← reconcileUpstreamReorg cfg height (some target)
      checkPass (·.assertNoDataAfterBlockHeight height)
      checkPass (·.assertBalanceSnapshotConsistency height cfg.genesisBlockHeight)
      reconcileWithPassSyncedHeight height)
      (fun _ => Settled target e₀ ps)
      (fun _ s => I s ∨ HeldAt target e₀ (ps.rolledBack target true) s ∨
        Recovered target e₀ ps s) := by
  refine .readPass_bind hI (fun s hs => congrArg (currentHeight cfg) (hheld s hs).1) ?_
    (fun _ _ hs => .inl hs)
  refine .bind (Q := fun height s => height = target ∧ Recovered target e₀ ps s) ?_
    (fun height => ?_)
  · refine .bind (.writePass (Q := fun _ => HeldAt target e₀ (ps.rolledBack target true))
      (fun s hs => (hheld s hs).1) h.restorable (fun s fs hs => ⟨rfl, (hheld s hs).2⟩)
      (fun _ s fs hs => .inl ((hI s fs).mpr hs))) (fun _ => ?_)
    refine .bind ((resumePendingUpstreamReorgRecovery_marked h).conseq (fun _ hs => hs)
      (fun _ _ hs => hs) (fun _ _ hs => .inr (.inl hs))) (fun _ => ?_)
    exact .pure target (fun s hs => ⟨rfl, hs⟩)
  · by_cases hsame : height = target
    · subst hsame
      exact h.checked.conseq (fun _ hs => hs.2) (fun _ _ hs => hs) (fun _ _ hs => .inr (.inr hs))
    · exact ⟨fun s hs => absurd hs.1 hsame, fun s hs => absurd hs.1 hsame⟩

/-- A round that finds the drift begins the recovery. -/
theorem prepareSync_drifted {I : IndexerState → Prop} (hI : IgnoresFaults I)
    (hheld : ∀ s, I s → HeldAt target e₀ ps s) :
    Completes I (prepareSync cfg (some target)) (fun _ => Settled target e₀ ps)
      (fun _ s => I s ∨ HeldAt target e₀ (ps.rolledBack target true) s ∨
        Recovered target e₀ ps s) := by
  have hunmarked : ∀ s, I s → s.passStorage.upstreamReorgRecoveryPendingHeight = none := by
    intro s hs
    rw [(hheld s hs).1]
    exact h.unmarked
  refine .readPass_bind hI (fun s hs => congrArg (currentHeight cfg) (hheld s hs).1) ?_
    (fun _ _ hs => .inl hs)
  exact .bind ((resumePendingUpstreamReorgRecovery_unmarked hI hunmarked).conseq
    (fun _ hs => hs) (fun _ _ hs => hs) (fun _ _ hs => .inl hs)) (fun _ => h.rest hI hheld)

end Rounds

end Stages

end Usdb
