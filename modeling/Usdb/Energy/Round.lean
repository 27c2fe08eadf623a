import Usdb.Energy.BlockSettlement

namespace Usdb

open Framework MinerPassStorage PassEnergyStorage PassEnergyManager InscriptionIndexer

/-- The synced height and the recovery marker of the pass database. -/
structure SyncedInv (cfg : IndexerConfig) (ps : MinerPassStorage) : Prop where
  above : ∀ h, ps.syncedBtcBlockHeight = some h → cfg.genesisBlockHeight - 1 ≤ h
  empty : ps.syncedBtcBlockHeight = none → ps.minerPasses = []
  marked : ps.upstreamReorgRecoveryPendingHeight ≠ none → ps.syncedBtcBlockHeight ≠ none

namespace SyncedInv

variable {cfg : IndexerConfig} {ps ps' : MinerPassStorage}

theorem initial : SyncedInv cfg .empty :=
  ⟨fun _ hh => (by cases hh), fun _ => rfl, fun hm => absurd rfl hm⟩

theorem quiet (h : SyncedInv cfg ps) (hs : QuietReach cfg ps ps') : SyncedInv cfg ps' := by
  induction hs with
  | refl => exact h
  | tail _ hstep ih =>
    cases hstep with
    | cleared => exact ⟨ih.above, ih.empty, fun hm => absurd rfl hm⟩
    | rolledBack target lower upper constraints =>
      refine ⟨fun k hk => ?_, fun hn => (by cases hn), fun _ hn => (by cases hn)⟩
      cases hk
      exact lower
    | adopted anchor genesis =>
      refine ⟨fun k hk => ?_, fun hn => (by cases hn), fun _ hn => (by cases hn)⟩
      cases hk
      exact Nat.le_max_right _ _
    | backfilled anchor => exact ⟨ih.above, ih.empty, ih.marked⟩

/-- A recorded synced height is the height of the round. -/
theorem currentHeight_eq (h : SyncedInv cfg ps) {k : Nat} (hk : ps.syncedBtcBlockHeight = some k) :
    currentHeight cfg ps = k := by
  unfold currentHeight
  rw [hk]
  exact Nat.max_eq_left (h.above k hk)

theorem anchored {s : IndexerState} (h : SyncedInv cfg s.passStorage) :
    Attempt.Anchored (currentHeight cfg s.passStorage) s := by
  cases hk : s.passStorage.syncedBtcBlockHeight with
  | some k =>
    refine .inl ?_
    rw [h.currentHeight_eq hk, hk]
    exact Nat.le_refl _
  | none =>
    refine .inr (fun i => ?_)
    unfold getPassByInscriptionId
    rw [h.empty hk]
    rfl

end SyncedInv

/-- A ledger survives what a run does to the passes besides committing blocks. -/
theorem Ledger.quiet {scheme : Scheme} {cfg : IndexerConfig} {ps ps' : MinerPassStorage}
    {log : List NewPassLog} {e : PassEnergyStorage}
    (h : Ledger scheme ps log e (currentHeight cfg ps)) (hp : PassInv (fun _ => True) cfg ps)
    (hs : QuietReach cfg ps ps') : Ledger scheme ps' log e (currentHeight cfg ps') := by
  induction hs with
  | refl => exact h
  | tail hreach hstep ih =>
    have hinv := hp.quiet hreach
    cases hstep with
    | cleared => exact ih.congr_passes rfl rfl
    | rolledBack target lower upper constraints =>
      rw [currentHeight_rolledBack lower]
      exact ih.rolledBack hinv.table upper
    | adopted anchor genesis =>
      rw [currentHeight_adopted]
      exact ih.congr_passes rfl rfl
    | backfilled anchor => exact ih.congr_passes rfl rfl

/-- What the quiet part of a round leaves: the passes are quietly reached, and the energy
store can still be brought back to their height. -/
structure Carried (cfg : IndexerConfig) (lowest : Nat → Nat) (s₀ s : IndexerState) : Prop where
  passes : QuietReach cfg s₀.passStorage s.passStorage
  log : s.log = s₀.log
  energy : Recoverable (lowest (currentHeight cfg s.passStorage)) (currentHeight cfg s.passStorage)
    s₀.energyStorage s.energyStorage

namespace Carried

variable {cfg : IndexerConfig} {lowest : Nat → Nat} {s₀ : IndexerState} {α : Type}

theorem of_stores {x : IndexerM α} (h : Preserves Attempt.stores x) :
    Keeps (Carried cfg lowest s₀) x := by
  refine Keeps.of_run (fun s hs => ?_)
  have hstores := h s
  have hp : (finalState (x s)).passStorage = s.passStorage := congrArg Prod.fst hstores
  have he : (finalState (x s)).energyStorage = s.energyStorage :=
    congrArg (fun c => c.2.1) hstores
  have hl : (finalState (x s)).log = s.log := congrArg (fun c => c.2.2) hstores
  constructor
  · rw [hp]
    exact hs.passes
  · rw [hl]
    exact hs.log
  · rw [hp, he]
    exact hs.energy

theorem checkPass (f : MinerPassStorage → Except IndexerError Unit) :
    Keeps (Carried cfg lowest s₀) (checkPass f) :=
  of_stores (checkPass_preserves (fun _ _ => rfl) f)

theorem readPass (f : MinerPassStorage → α) :
    Triple (Carried cfg lowest s₀) (readPass f)
      (fun a s => Carried cfg lowest s₀ s ∧ a = f s.passStorage)
      (fun _ => Carried cfg lowest s₀) :=
  Triple.bind (of_stores (io_preserves (fun _ _ => rfl))) (fun _ _ hs => ⟨hs, rfl⟩)

/-- A statement that takes the passes one quiet step further. -/
theorem writePass {f : MinerPassStorage → Except IndexerError MinerPassStorage}
    (mono : Monotone lowest)
    (hf : ∀ s ps, Carried cfg lowest s₀ s → f s.passStorage = .ok ps →
      QuietStep cfg s.passStorage ps) :
    Keeps (Carried cfg lowest s₀) (writePass f) := by
  refine Keeps.of_run (fun s hs => ?_)
  cases hw : Usdb.writePass f s with
  | ok u t =>
    obtain ⟨ps, fs, hps, rfl⟩ := writePass_ok hw
    have hstep := hf s ps hs hps
    have hle := currentHeight_quiet (.single hstep)
    exact ⟨hs.passes.tail hstep, hs.log, hs.energy.mono (mono hle) hle⟩
  | error e t =>
    obtain ⟨fs, rfl⟩ := writePass_error hw
    exact ⟨hs.passes, hs.log, hs.energy⟩

section Recovery

variable (bound : ∀ h, lowest h ≤ h)

include bound

/-- The energy reconciliation at the height of the passes. -/
theorem reconcile (target : Nat) :
    Triple (fun s => Carried cfg lowest s₀ s ∧ target = currentHeight cfg s.passStorage)
      (reconcileWithPassSyncedHeight target)
      (fun _ s => Carried cfg lowest s₀ s ∧ target = currentHeight cfg s.passStorage ∧
        s.energyStorage.RecordsBelow target) (fun _ => Carried cfg lowest s₀) := by
  rintro s ⟨hs, rfl⟩
  have hclear : ∀ i k, currentHeight cfg s.passStorage < k → k ≤ currentHeight cfg s.passStorage →
      s₀.energyStorage.getPassEnergyRecord i k = none :=
    fun i k hlt hle => absurd hlt (Nat.not_lt.mpr hle)
  have hkeeps := reconcileWithPassSyncedHeight_keeps (bound (currentHeight cfg s.passStorage))
    hclear s hs.energy
  have hothers := Undoing.blind.reconcileWithPassSyncedHeight (currentHeight cfg s.passStorage)
  cases hx : reconcileWithPassSyncedHeight (currentHeight cfg s.passStorage) s with
  | ok u t =>
    rw [hx] at hkeeps
    have hparts := hothers.ok hx
    have hp : t.passStorage = s.passStorage := congrArg Prod.fst hparts
    have hl : t.log = s.log := congrArg Prod.snd hparts
    have hbelow := (reconcileWithPassSyncedHeight_ok hs.energy.bound hx).1
    refine ⟨⟨by rw [hp]; exact hs.passes, hl.trans hs.log, ?_⟩, by rw [hp], hbelow⟩
    rw [hp]
    exact hkeeps
  | error e t =>
    rw [hx] at hkeeps
    have hparts := hothers.error hx
    have hp : t.passStorage = s.passStorage := congrArg Prod.fst hparts
    have hl : t.log = s.log := congrArg Prod.snd hparts
    refine ⟨by rw [hp]; exact hs.passes, hl.trans hs.log, ?_⟩
    rw [hp]
    exact hkeeps

variable (mono : Monotone lowest) (synced : SyncedInv cfg s₀.passStorage)

include mono synced

theorem resumePendingUpstreamReorgRecovery :
    Keeps (Carried cfg lowest s₀) (resumePendingUpstreamReorgRecovery cfg) := by
  refine Triple.bind (readPass _) (fun marker => ?_)
  cases marker with
  | none => exact fun s hs => hs.1
  | some pending =>
    rintro s ⟨hs, hmarker⟩
    have hinv := synced.quiet hs.passes
    have hmarked : s.passStorage.syncedBtcBlockHeight ≠ none :=
      hinv.marked (by rw [← hmarker]; simp)
    obtain ⟨h, hh⟩ := Option.ne_none_iff_exists'.mp hmarked
    have hheight := hinv.currentHeight_eq hh
    have hread : Triple (fun r => Carried cfg lowest s₀ r ∧ r.passStorage = s.passStorage)
        (Usdb.readPass (·.syncedBtcBlockHeight))
        (fun a r => (Carried cfg lowest s₀ r ∧ r.passStorage = s.passStorage) ∧ a = some h)
        (fun _ => Carried cfg lowest s₀) := by
      rintro r ⟨hr, hps⟩
      cases hx : Usdb.readPass (·.syncedBtcBlockHeight) r with
      | ok a t =>
        obtain ⟨rfl, fs, rfl⟩ := readPass_ok hx
        exact ⟨⟨⟨hr.passes, hr.log, hr.energy⟩, hps⟩, by rw [hps, hh]⟩
      | error e t =>
        obtain ⟨fs, rfl⟩ := (ReadOnly.readPass _).error hx
        exact ⟨hr.passes, hr.log, hr.energy⟩
    refine Triple.bind hread (fun a => ?_) s ⟨hs, rfl⟩
    rintro r ⟨⟨hr, hps⟩, rfl⟩
    have hrest : Triple (fun r => Carried cfg lowest s₀ r ∧ h = currentHeight cfg r.passStorage)
        (do
          if h ≠ pending then throw (.reorgRecoveryHeightMismatch pending h)
          rollbackToPassSyncedHeight pending
          InscriptionTransferTracker.reloadFromStorage
          Usdb.checkPass (·.assertNoDataAfterBlockHeight pending)
          Usdb.checkPass (·.assertBalanceSnapshotConsistency pending cfg.genesisBlockHeight)
          Usdb.writePass (fun ps => .ok { ps with upstreamReorgRecoveryPendingHeight := none }))
        (fun _ => Carried cfg lowest s₀) (fun _ => Carried cfg lowest s₀) := by
      refine Triple.ite _ (fun _ r hr => hr.1) (fun heq => ?_)
      obtain rfl : h = pending := not_not.mp heq
      refine Triple.bind (reconcile bound h) (fun _ => ?_)
      refine Triple.conseq (P := Carried cfg lowest s₀) ?_ (fun _ hr => hr.1) (fun _ _ hq => hq)
        (fun _ _ he => he)
      refine Keeps.bind (of_stores (InscriptionTransferTracker.reloadFromStorage_preserves
        (fun _ _ => rfl) (fun _ _ => rfl) (fun _ _ => rfl))) (fun _ => ?_)
      refine Keeps.bind (checkPass _) (fun _ => Keeps.bind (checkPass _) (fun _ => ?_))
      refine writePass mono (fun s ps _ hps => ?_)
      cases hps
      exact .cleared _
    exact hrest r ⟨hr, by rw [hps]; exact hheight.symm⟩

/-- A recovery does not move the height of the passes. -/
theorem resume_height (target : Nat) :
    Triple (fun s => Carried cfg lowest s₀ s ∧ target = currentHeight cfg s.passStorage)
      (InscriptionIndexer.resumePendingUpstreamReorgRecovery cfg)
      (fun _ s => Carried cfg lowest s₀ s ∧ target = currentHeight cfg s.passStorage)
      (fun _ => Carried cfg lowest s₀) := by
  rintro s ⟨hs, htarget⟩
  have hkeeps := resumePendingUpstreamReorgRecovery bound mono synced s hs
  cases hx : InscriptionIndexer.resumePendingUpstreamReorgRecovery cfg s with
  | ok u t =>
    rw [hx] at hkeeps
    refine ⟨hkeeps, ?_⟩
    rw [resumePendingUpstreamReorgRecovery_ok_pass hx, currentHeight_cleared]
    exact htarget
  | error e t =>
    rw [hx] at hkeeps
    exact hkeeps

theorem reconcileUpstreamReorg {rollbackTarget : Option Nat} {height : Nat}
    (hr : ∀ target, rollbackTarget = some target →
      cfg.genesisBlockHeight - 1 ≤ target ∧ target ≤ height) :
    Triple (fun s => Carried cfg lowest s₀ s ∧ height = currentHeight cfg s.passStorage)
      (reconcileUpstreamReorg cfg height rollbackTarget)
      (fun h s => Carried cfg lowest s₀ s ∧ h = currentHeight cfg s.passStorage)
      (fun _ => Carried cfg lowest s₀) := by
  cases rollbackTarget with
  | none => exact fun s hs => hs
  | some target =>
    obtain ⟨hlower, hupper⟩ := hr target rfl
    refine Triple.bind (Q := fun _ s => Carried cfg lowest s₀ s ∧
      target = currentHeight cfg s.passStorage) ?_ (fun _ => ?_)
    · rintro s ⟨hs, hheight⟩
      cases hw : Usdb.writePass
          (·.rollbackToBlockHeightWithUpstreamReorgRecoveryPending target none) s with
      | ok u t =>
        obtain ⟨ps, fs, hps, rfl⟩ := writePass_ok hw
        obtain ⟨rfl, hc⟩ := rollbackToBlockHeightInternal_ok hps
        have hstep : QuietStep cfg s.passStorage (s.passStorage.rolledBack target true) :=
          .rolledBack _ target hlower (by rw [← hheight]; exact hupper) hc
        have hle := currentHeight_quiet (.single hstep)
        exact ⟨⟨hs.passes.tail hstep, hs.log, hs.energy.mono (mono hle) hle⟩,
          (currentHeight_rolledBack hlower _ _).symm⟩
      | error e t =>
        obtain ⟨fs, rfl⟩ := writePass_error hw
        exact ⟨hs.passes, hs.log, hs.energy⟩
    · exact Triple.bind (resume_height bound mono synced target) (fun _ s hs => hs)

/-- However the preparation of a round ends, the stores are carried along; when it
succeeds no energy record is left above the passes. -/
theorem prepareSync {rollbackTarget : Option Nat}
    (hr : ∀ target, rollbackTarget = some target →
      cfg.genesisBlockHeight - 1 ≤ target ∧ target ≤ currentHeight cfg s₀.passStorage) :
    Triple (fun s => Carried cfg lowest s₀ s ∧
        currentHeight cfg s₀.passStorage = currentHeight cfg s.passStorage)
      (prepareSync cfg rollbackTarget)
      (fun _ s => Carried cfg lowest s₀ s ∧
        s.energyStorage.RecordsBelow (currentHeight cfg s.passStorage))
      (fun _ => Carried cfg lowest s₀) := by
  have hread : ∀ target, Triple
      (fun s => Carried cfg lowest s₀ s ∧ target = currentHeight cfg s.passStorage)
      (Usdb.readPass (currentHeight cfg))
      (fun a s => (Carried cfg lowest s₀ s ∧ target = currentHeight cfg s.passStorage) ∧ a = target)
      (fun _ => Carried cfg lowest s₀) := by
    rintro target s ⟨hs, htarget⟩
    cases hx : Usdb.readPass (currentHeight cfg) s with
    | ok a t =>
      obtain ⟨rfl, fs, rfl⟩ := readPass_ok hx
      exact ⟨⟨⟨hs.passes, hs.log, hs.energy⟩, htarget⟩, htarget.symm⟩
    | error e t =>
      obtain ⟨fs, rfl⟩ := (ReadOnly.readPass _).error hx
      exact ⟨hs.passes, hs.log, hs.energy⟩
  have hcheck : ∀ target f, Triple
      (fun s => Carried cfg lowest s₀ s ∧ target = currentHeight cfg s.passStorage)
      (Usdb.checkPass f)
      (fun _ s => Carried cfg lowest s₀ s ∧ target = currentHeight cfg s.passStorage)
      (fun _ => Carried cfg lowest s₀) := by
    intro target f
    have hkept : Keeps (Carried cfg lowest s₀) (Usdb.checkPass f) := checkPass f
    have hpass : Preserves IndexerState.passStorage (Usdb.checkPass f) :=
      checkPass_preserves (fun _ _ => rfl) f
    have hboth := hkept.and (Keeps.of_preserves hpass (fun ps => target = currentHeight cfg ps))
    exact Triple.conseq hboth (fun _ hs => hs) (fun _ _ hs => hs) (fun _ _ hs => hs.1)
  refine Triple.bind (hread _) (fun _ => ?_)
  refine Triple.conseq (Triple.bind (resume_height bound mono synced
    (currentHeight cfg s₀.passStorage)) (fun _ => ?_)) (fun _ hs => hs.1) (fun _ _ hq => hq)
    (fun _ _ he => he)
  refine Triple.bind (hread _) (fun height => ?_)
  rintro s ⟨hs, rfl⟩
  refine Triple.bind (reconcileUpstreamReorg bound mono synced hr) (fun target => ?_) s hs
  refine Triple.bind (hcheck target _) (fun _ => Triple.bind (hcheck target _) (fun _ => ?_))
  refine Triple.conseq (reconcile bound target) (fun _ hs => hs) (fun _ r hq => ?_)
    (fun _ _ he => he)
  obtain ⟨hr, rfl, hbelow⟩ := hq
  exact ⟨hr, hbelow⟩

end Recovery

end Carried

end Usdb
