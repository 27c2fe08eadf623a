import Usdb.Index.ReorgRecovery

namespace Usdb

open Framework MinerPassStorage PassEnergyStorage PassEnergyManager InscriptionTransferTracker
  InscriptionIndexer

namespace MinerPassStorage

variable {ps : MinerPassStorage} {target last : Nat}

theorem latestHistoryAt_none_of_le (hle : target ≤ last) {i : InscriptionId}
    (hnone : ps.latestHistoryAt last i = none) : ps.latestHistoryAt target i = none := by
  cases hrow : ps.latestHistoryAt target i with
  | none => rfl
  | some r =>
    obtain ⟨hmem, hr⟩ := List.mem_filter.mp (maxBy_mem _ _ _ hrow)
    rw [decide_eq_true_iff] at hr
    obtain ⟨m, hm, -⟩ := maxBy_le (·.id) (ps.passStateHistory.filter
      (fun r => r.inscriptionId = i ∧ r.blockHeight ≤ last)) r
      (List.mem_filter.mpr ⟨hmem, decide_eq_true ⟨hr.1, hr.2.trans hle⟩⟩)
    unfold latestHistoryAt at hnone
    rw [hnone] at hm
    cases hm

/-- A pass that survives two rollbacks is the one that survives the deeper of them. -/
theorem survivingPass_rolledBack (hle : target ≤ last) (mark : Bool) (p : MinerPassInfo) :
    (ps.survivingPass last p).bind ((ps.rolledBack last mark).survivingPass target) =
      ps.survivingPass target p := by
  unfold survivingPass
  by_cases hmint : p.mintBlockHeight ≤ target
  · rw [if_pos (hmint.trans hle), if_pos hmint]
    cases hrow : ps.latestHistoryAt last p.inscriptionId with
    | none =>
      rw [latestHistoryAt_none_of_le hle hrow]
      rfl
    | some r =>
      rw [Option.map_some, Option.bind_some]
      dsimp only
      rw [if_pos hmint, latestHistoryAt_rolledBack, Nat.min_eq_left hle]
  · rw [if_neg hmint]
    by_cases hlast : p.mintBlockHeight ≤ last
    · rw [if_pos hlast]
      cases ps.latestHistoryAt last p.inscriptionId with
      | none => rfl
      | some r => exact if_neg hmint
    · rw [if_neg hlast]
      rfl

/-- A rollback makes one to a greater height before it unnecessary. -/
theorem rolledBack_rolledBack (hle : target ≤ last) (mark mark' : Bool) :
    (ps.rolledBack last mark).rolledBack target mark' = ps.rolledBack target mark' := by
  have hpasses : (ps.minerPasses.filterMap (ps.survivingPass last)).filterMap
      ((ps.rolledBack last mark).survivingPass target) =
        ps.minerPasses.filterMap (ps.survivingPass target) := by
    rw [List.filterMap_filterMap]
    exact List.filterMap_congr (fun p _ => survivingPass_rolledBack hle mark p)
  unfold rolledBack at hpasses ⊢
  simp only [hpasses, filter_le_filter_le _ _ hle]

end MinerPassStorage

section Reentry

variable {cfg : IndexerConfig} {target last : Nat} {ps : MinerPassStorage} {e₀ : PassEnergyStorage}

/-- Passes from which a recovery may begin. -/
structure RecoveryRoot (cfg : IndexerConfig) (ps : MinerPassStorage) : Prop where
  passes : PassInv (fun _ => True) cfg ps
  snapshots : SnapshotPerBlock cfg ps
  unmarked : ps.upstreamReorgRecoveryPendingHeight = none

theorem RecoveryRoot.rollsBackTo (h : RecoveryRoot cfg ps)
    (lower : cfg.genesisBlockHeight - 1 ≤ target) (upper : target ≤ currentHeight cfg ps) :
    RollsBackTo cfg target ps :=
  ⟨lower, upper, h.snapshots, h.unmarked,
    rollbackToBlockHeightInternal_eq h.passes.table h.passes.unique⟩

/-- The passes a recovery leaves are such passes again. -/
theorem RecoveryRoot.rolledBack (h : RecoveryRoot cfg ps)
    (lower : cfg.genesisBlockHeight - 1 ≤ target) (upper : target ≤ currentHeight cfg ps) :
    RecoveryRoot cfg (ps.rolledBack target false) := by
  have hroll : QuietStep cfg ps (ps.rolledBack target true) :=
    .rolledBack ps target lower upper (restored_constraints h.passes.table h.passes.unique)
  have hclear : QuietStep cfg (ps.rolledBack target true) (ps.rolledBack target false) :=
    .cleared _
  exact ⟨h.passes.quiet (.tail (.single hroll) hclear), h.snapshots.rolledBack lower upper false,
    rfl⟩

theorem HeldAt.lower {s : IndexerState} (h : HeldAt last e₀ ps s) (hle : target ≤ last) :
    HeldAt target e₀ ps s :=
  ⟨h.1, h.2.lower hle⟩

theorem Recovered.rerooted {s : IndexerState} (hle : target ≤ last)
    (h : Recovered target e₀ (ps.rolledBack last false) s) : Recovered target e₀ ps s := by
  unfold Recovered at h ⊢
  rw [rolledBack_rolledBack hle] at h
  exact h

/-- What a round leaves that finds a drift below a recovery. -/
def Reentered (target last : Nat) (e₀ : PassEnergyStorage) (ps : MinerPassStorage)
    (s : IndexerState) : Prop :=
  HeldAt last e₀ (ps.rolledBack last true) s ∨ Recovered last e₀ ps s ∨
    HeldAt target e₀ (ps.rolledBack target true) s ∨ Recovered target e₀ ps s

variable (h : RecoveryRoot cfg ps) (lower : cfg.genesisBlockHeight - 1 ≤ target)
  (hle : target ≤ last) (upper : last ≤ currentHeight cfg ps)

include h lower hle upper

/-- The rollback of a recovered state goes on to where it would have gone at once. -/
theorem RecoveryRoot.reentered {x : IndexerM Unit}
    (hx : ∀ {I : IndexerState → Prop}, IgnoresFaults I →
      (∀ s, I s → HeldAt target e₀ (ps.rolledBack last false) s) →
      RollsBackTo cfg target (ps.rolledBack last false) →
      Completes I x (fun _ => Settled target e₀ (ps.rolledBack last false))
        (fun _ s => I s ∨ HeldAt target e₀ ((ps.rolledBack last false).rolledBack target true) s ∨
          Recovered target e₀ (ps.rolledBack last false) s)) :
    Completes (Recovered last e₀ ps) x (fun _ => Settled target e₀ ps)
      (fun _ => Reentered target last e₀ ps) := by
  have hroot := h.rolledBack (lower.trans hle) upper
  have hheight : target ≤ currentHeight cfg (ps.rolledBack last false) := by
    rw [currentHeight_rolledBack (lower.trans hle)]
    exact hle
  refine (hx (I := Recovered last e₀ ps) (fun _ _ => rfl) (fun s hs => hs.1.lower hle)
    (hroot.rollsBackTo lower hheight)).conseq (fun _ hs => hs) ?_ ?_
  · exact fun _ s hs => ⟨hs.1.rerooted hle, hs.2⟩
  · rintro _ s (hs | hs | hs)
    · exact .inr (.inl hs)
    · rw [rolledBack_rolledBack hle] at hs
      exact .inr (.inr (.inl hs))
    · exact .inr (.inr (.inr (hs.rerooted hle)))

theorem prepareSync_recovered_drifted :
    Completes (Recovered last e₀ ps) (prepareSync cfg (some target))
      (fun _ => Settled target e₀ ps) (fun _ => Reentered target last e₀ ps) :=
  h.reentered lower hle upper (fun hI hheld hrolls => prepareSync_drifted hrolls hI hheld)

/-- The marker is taken up first, and the new drift then found. -/
theorem prepareSync_marked_drifted :
    Completes (HeldAt last e₀ (ps.rolledBack last true)) (prepareSync cfg (some target))
      (fun _ => Settled target e₀ ps) (fun _ => Reentered target last e₀ ps) := by
  refine .readPass_bind (fun _ _ => rfl) (fun s hs => congrArg (currentHeight cfg) hs.1) ?_
    (fun _ _ hs => .inl hs)
  refine .bind ((resumePendingUpstreamReorgRecovery_marked
    (h.rollsBackTo (lower.trans hle) upper)).conseq (fun _ hs => hs) (fun _ _ hs => hs)
      (fun _ _ hs => .inl hs)) (fun _ => ?_)
  exact h.reentered lower hle upper (fun hI hheld hrolls => hrolls.rest hI hheld)

end Reentry

/-- A round that finds neither a marker nor a drift. -/
theorem prepareSync_untouched {cfg : IndexerConfig} {ps : MinerPassStorage} {e₀ : PassEnergyStorage}
    (hunmarked : ps.upstreamReorgRecoveryPendingHeight = none) :
    Triple (HeldAt (currentHeight cfg ps) e₀ ps) (prepareSync cfg none)
      (fun _ s => HeldAt (currentHeight cfg ps) e₀ ps s ∧
        s.energyStorage = e₀.reconciled (currentHeight cfg ps))
      (fun _ => HeldAt (currentHeight cfg ps) e₀ ps) := by
  have hcheck : ∀ f, Keeps (HeldAt (currentHeight cfg ps) e₀ ps) (checkPass f) :=
    fun f => Keeps.of_preserves (checkPass_preserves (fun _ _ => rfl) f) (fun p => p)
  have hread := readPass_known (I := HeldAt (currentHeight cfg ps) e₀ ps) (fun _ _ => rfl)
    (fun s hs => congrArg (currentHeight cfg) hs.1)
  refine Triple.bind (hread.post (fun _ _ hs => hs.1)) (fun _ => ?_)
  refine Triple.bind (resumePendingUpstreamReorgRecovery_unmarked (fun _ _ => rfl)
    (fun s hs => by rw [hs.1]; exact hunmarked)).triple (fun _ => ?_)
  refine Triple.bind hread (fun height s hs => ?_)
  obtain ⟨hs, rfl⟩ := hs
  exact Triple.bind (hcheck _) (fun _ => Triple.bind (hcheck _) (fun _ => HeldAt.settle)) s hs

namespace World

section Runs

variable {cfg : IndexerConfig} {ps : MinerPassStorage} {e₀ : PassEnergyStorage} {w w' : World}
  {l : Label}

/-- Where rounds of which none is ready have brought the stores: nowhere, or into the
recovery of a drift. -/
inductive ReentryStage (cfg : IndexerConfig) (e₀ : PassEnergyStorage) (ps : MinerPassStorage)
    (w : World) : Prop
  | untouched (held : HeldAt (currentHeight cfg ps) e₀ ps w.indexer)
  | marked (target : Nat) (lower : cfg.genesisBlockHeight - 1 ≤ target)
      (upper : target ≤ currentHeight cfg ps)
      (held : HeldAt target e₀ (ps.rolledBack target true) w.indexer)
  | recovered (target : Nat) (lower : cfg.genesisBlockHeight - 1 ≤ target)
      (upper : target ≤ currentHeight cfg ps)
      (held : HeldAt target e₀ (ps.rolledBack target false) w.indexer)
      (tracker : w.phase ≠ .crashed → Reloaded w.indexer)

/-- What a round that is ready finds. -/
def ReentryReady (cfg : IndexerConfig) (e₀ : PassEnergyStorage) (ps : MinerPassStorage)
    (s : IndexerState) : Prop :=
  (s.passStorage = ps ∧ s.energyStorage = e₀.reconciled (currentHeight cfg ps)) ∨
    ∃ target, cfg.genesisBlockHeight - 1 ≤ target ∧ target ≤ currentHeight cfg ps ∧
      Settled target e₀ ps s

structure Reentering (cfg : IndexerConfig) (e₀ : PassEnergyStorage) (ps : MinerPassStorage)
    (w : World) : Prop where
  stage : ReentryStage cfg e₀ ps w
  ready : w.phase = .syncing → ReentryReady cfg e₀ ps w.indexer

theorem ReentryStage.reentered {s : IndexerState} {phase : Phase} {target last : Nat}
    (lower : cfg.genesisBlockHeight - 1 ≤ target) (hle : target ≤ last)
    (upper : last ≤ currentHeight cfg ps) (h : Reentered target last e₀ ps s) :
    ReentryStage cfg e₀ ps { w with indexer := s.withFaults [], phase } := by
  rcases h with held | held | held | held
  · exact .marked last (lower.trans hle) upper held
  · exact .recovered last (lower.trans hle) upper held.1 (fun _ => held.2)
  · exact .marked target lower (hle.trans upper) held
  · exact .recovered target lower (hle.trans upper) held.1 (fun _ => held.2)

/-- A round whose program settles at a target or stays within the recovery. -/
theorem Reentering.settle {x : IndexerM Unit} {s : IndexerState} {P E : IndexerState → Prop}
    {target : Nat} (lower : cfg.genesisBlockHeight - 1 ≤ target)
    (upper : target ≤ currentHeight cfg ps)
    (h : Completes P x (fun _ => Settled target e₀ ps) (fun _ => E)) (hs : P s)
    (hE : ∀ t phase, E t → ReentryStage cfg e₀ ps { w with indexer := t.withFaults [], phase }) :
    Reentering cfg e₀ ps (w.settle (x s) .syncing .idle) := by
  refine settle_holds h.triple hs (fun t ht => ⟨?_, fun _ => .inr ⟨target, lower, upper, ht⟩⟩) ?_
  · exact .recovered target lower upper ht.1.1 (fun _ => ht.1.2)
  · exact fun t phase hphase ht => ⟨hE t phase ht, fun hready => absurd hready hphase⟩

theorem Reentering.prepare (hroot : RecoveryRoot cfg ps) (h : Reentering cfg e₀ ps w)
    {rollbackTarget : Option Nat} (faults : List IoResult)
    (enabled : Enabled cfg w (.prepare rollbackTarget faults)) :
    Reentering cfg e₀ ps (next cfg w (.prepare rollbackTarget faults)) := by
  obtain ⟨hidle, hrange⟩ := enabled
  have halive : w.phase ≠ .crashed := by
    rw [hidle]
    exact Phase.noConfusion
  cases h.stage with
  | untouched held =>
    cases rollbackTarget with
    | none =>
      refine settle_holds (prepareSync_untouched hroot.unmarked) held (fun t ht => ?_) ?_
      · exact ⟨.untouched ht.1, fun _ => .inl ⟨ht.1.1, ht.2⟩⟩
      · exact fun t phase hphase ht => ⟨.untouched ht, fun hready => absurd hready hphase⟩
    | some target =>
      obtain ⟨-, lower, upper⟩ := hrange
      have hupper : target ≤ currentHeight cfg ps := by
        rw [← held.1]
        exact upper
      have hround := prepareSync_drifted (hroot.rollsBackTo lower hupper)
        (I := HeldAt (currentHeight cfg ps) e₀ ps) (fun _ _ => rfl) (fun s hs => hs.lower hupper)
      refine .settle lower hupper hround held ?_
      rintro t phase (ht | ht | ht)
      · exact .untouched ht
      · exact .marked target lower hupper ht
      · exact .recovered target lower hupper ht.1 (fun _ => ht.2)
  | marked last lower upper held =>
    cases rollbackTarget with
    | none =>
      refine .settle lower upper (prepareSync_marked (hroot.rollsBackTo lower upper)) held ?_
      rintro t phase (ht | ht)
      · exact .marked last lower upper ht
      · exact .recovered last lower upper ht.1 (fun _ => ht.2)
    | some target =>
      obtain ⟨-, hlower, hle⟩ := hrange
      unfold World.height at hle
      rw [held.1, currentHeight_rolledBack lower] at hle
      exact .settle hlower (hle.trans upper) (prepareSync_marked_drifted hroot hlower hle upper)
        held (fun t phase ht => .reentered hlower hle upper ht)
  | recovered last lower upper held tracker =>
    have hrecovered : Recovered last e₀ ps w.indexer := ⟨held, tracker halive⟩
    cases rollbackTarget with
    | none =>
      exact .settle lower upper (prepareSync_recovered (hroot.rollsBackTo lower upper)) hrecovered
        (fun t phase ht => .recovered last lower upper ht.1 (fun _ => ht.2))
    | some target =>
      obtain ⟨-, hlower, hle⟩ := hrange
      unfold World.height at hle
      rw [held.1, currentHeight_rolledBack lower] at hle
      exact .settle hlower (hle.trans upper) (prepareSync_recovered_drifted hroot hlower hle upper)
        hrecovered (fun t phase ht => .reentered hlower hle upper ht)

theorem Reentering.restart (h : Reentering cfg e₀ ps w) (faults : List IoResult) :
    Reentering cfg e₀ ps (next cfg w (.restart faults)) := by
  obtain ⟨hphase, htracker⟩ := restart_reloaded cfg w faults
  refine ⟨?_, fun hready => absurd hready hphase⟩
  cases h.stage with
  | untouched held => exact .untouched (restart_heldAt cfg faults held)
  | marked last lower upper held => exact .marked last lower upper (restart_heldAt cfg faults held)
  | recovered last lower upper held =>
    exact .recovered last lower upper (restart_heldAt cfg faults held) htracker

theorem Reentering.run (hroot : RecoveryRoot cfg ps) (h : Reentering cfg e₀ ps w)
    (run : Run cfg (fun w _ => w.phase ≠ .syncing) w w') : Reentering cfg e₀ ps w' := by
  induction run with
  | refl => exact h
  | @step _ _ l _ holds step ih =>
    obtain ⟨enabled, rfl⟩ := step
    cases l with
    | prepare rollbackTarget faults => exact ih.prepare hroot faults enabled
    | block env balances faults => exact absurd enabled holds
    | finish snapshot refs faults => exact absurd enabled.1 holds
    | restart faults => exact ih.restart faults

end Runs

end World

/-- A further drift may come before the recovery of the first is complete, and others after
it: whatever the upstream does meanwhile and wherever rounds are cut off, the first round
that is ready finds the stores as they were or what one uninterrupted recovery to the height
it starts from leaves. -/
theorem World.Reachable.recovery_reenters (cfg : IndexerConfig) (w w' : World)
    (h : World.Reachable cfg (World.RecoversBooks cfg) w) (hidle : w.phase = .idle)
    (hunmarked : w.indexer.passStorage.upstreamReorgRecoveryPendingHeight = none)
    (run : World.Run cfg (fun w _ => w.phase ≠ .syncing) w w') (hready : w'.phase = .syncing) :
    (w'.indexer.passStorage = w.indexer.passStorage ∧
      w'.indexer.energyStorage = w.indexer.energyStorage.reconciled (w.height cfg)) ∨
    (w'.height cfg ≤ w.height cfg ∧
      w'.indexer.passStorage = w.indexer.passStorage.rolledBack (w'.height cfg) false ∧
      w'.indexer.energyStorage = w.indexer.energyStorage.reconciled (w'.height cfg) ∧
      w'.indexer.inscriptions = w'.indexer.passStorage.reloadedTracker ∧
      w'.indexer.stagedBlocks = []) := by
  have henergy := h.energyInv monotone_id (fun _ => Nat.le_refl _) (fun _ _ hc => hc)
  have hroot : RecoveryRoot cfg w.indexer.passStorage :=
    ⟨h.passInv, h.snapshotPerBlock, hunmarked⟩
  have hway : OnTheWay (w.height cfg) w.indexer.energyStorage w.indexer.energyStorage :=
    .refl henergy.books.bound henergy.books.synced
  have hstart : World.Reentering cfg w.indexer.energyStorage w.indexer.passStorage w := by
    refine ⟨.untouched ⟨rfl, hway⟩, fun hphase => ?_⟩
    rw [hidle] at hphase
    cases hphase
  rcases (hstart.run hroot run).ready hready with hsame | ⟨target, lower, upper, hsettled⟩
  · exact .inl hsame
  · obtain ⟨⟨⟨hpass, -⟩, htracker, hstaged⟩, hend⟩ := hsettled
    have hheight : w'.height cfg = target := by
      unfold World.height
      rw [hpass]
      exact currentHeight_rolledBack lower _ _
    subst hheight
    exact .inr ⟨upper, hpass, hend, htracker, hstaged⟩

namespace Sample

/-- The upstream loses another block while the recovery to height 1 is cut off. -/
def cutOffDeeper : List Label :=
  [.prepare (some 1) (List.replicate 6 .ok ++ [.crash]), .restart [], .prepare (some 0) []]

end Sample

/-- Nothing is left of either block. -/
theorem World.Reachable.recovery_reenters_deeper :
    ∃ w', World.Run Sample.config (fun w _ => w.phase ≠ .syncing) Sample.restarted w' ∧
      w'.phase = .syncing ∧ w'.height Sample.config = 0 ∧
      w'.indexer.passStorage = Sample.restarted.indexer.passStorage.rolledBack 0 false := by
  have hrun : World.Run Sample.config (fun w _ => w.phase ≠ .syncing) Sample.restarted
      (Sample.cutOffDeeper.foldl (World.next Sample.config) Sample.restarted) :=
    World.Run.of_follows (.refl _) (by decide +kernel)
  have hready : (Sample.cutOffDeeper.foldl (World.next Sample.config) Sample.restarted).phase =
      .syncing := by
    decide +kernel
  have hheight : (Sample.cutOffDeeper.foldl (World.next Sample.config) Sample.restarted).height
      Sample.config = 0 := by
    decide +kernel
  refine ⟨_, hrun, hready, hheight, ?_⟩
  rcases World.Reachable.recovery_reenters Sample.config Sample.restarted _
    Sample.restarted_reachable (by decide +kernel) (by decide +kernel) hrun hready with
    ⟨hsame, -⟩ | ⟨-, hpass, -⟩
  · have hchanged : (Sample.cutOffDeeper.foldl (World.next Sample.config)
        Sample.restarted).indexer.passStorage.minerPasses ≠
          Sample.restarted.indexer.passStorage.minerPasses := by
      decide +kernel
    exact absurd (congrArg MinerPassStorage.minerPasses hsame) hchanged
  · rw [hheight] at hpass
    exact hpass

end Usdb
