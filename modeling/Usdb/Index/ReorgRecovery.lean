import Usdb.Energy.Answers
import Usdb.Index.RecoveryRounds

namespace Usdb

open Framework MinerPassStorage PassEnergyStorage PassEnergyManager InscriptionTransferTracker
  InscriptionIndexer

/-- A step up to the first round that is ready for a block. Every round is prepared against
the same state of the upstream, and rolls back to the target it reports. The round looks for
a drift after it has taken up a marker, which the detection does not read. -/
def World.RecoversAgainst (client : BalanceHistoryClient) (latestHeight : Nat)
    (snapshot : BalanceHistorySnapshotInfo) (cfg : IndexerConfig) (w : World) (l : Label) : Prop :=
  w.phase ≠ .syncing ∧ ∀ rollbackTarget faults, l = .prepare rollbackTarget faults →
    ∃ found, detectUpstreamReorgTarget client w.indexer.passStorage (w.height cfg) latestHeight
      snapshot cfg.genesisBlockHeight = .ok found ∧ rollbackTarget = found.map Prod.fst

namespace World

section Runs

variable {client : BalanceHistoryClient} {latestHeight : Nat}
  {snapshot : BalanceHistorySnapshotInfo} {cfg : IndexerConfig} {target : Nat}
  {ps : MinerPassStorage} {e₀ : PassEnergyStorage} {w w' : World} {l : Label}

/-- How far the recovery of a drift has come. A crash during the reload of the tracker
leaves nothing to rely on in memory. -/
inductive RecoveryStage (target : Nat) (e₀ : PassEnergyStorage) (ps : MinerPassStorage)
    (w : World) : Prop
  | drifted (held : HeldAt target e₀ ps w.indexer)
  | marked (held : HeldAt target e₀ (ps.rolledBack target true) w.indexer)
  | recovered (held : HeldAt target e₀ (ps.rolledBack target false) w.indexer)
      (tracker : w.phase ≠ .crashed → Reloaded w.indexer)

/-- What holds in every world of a recovery. -/
structure Recovering (target : Nat) (e₀ : PassEnergyStorage) (ps : MinerPassStorage)
    (w : World) : Prop where
  stage : RecoveryStage target e₀ ps w
  ready : w.phase = .syncing → Settled target e₀ ps w.indexer

/-- A claim about the world after the program of a round, from what the program leaves. -/
theorem settle_holds {C : World → Prop} {x : IndexerM Unit} {s : IndexerState}
    {P Q E : IndexerState → Prop} (h : Triple P x (fun _ => Q) (fun _ => E)) (hs : P s)
    (hok : ∀ t, Q t → C { w with indexer := t.withFaults [], phase := .syncing })
    (herror : ∀ t phase, phase ≠ .syncing → E t →
      C { w with indexer := t.withFaults [], phase }) :
    C (w.settle (x s) .syncing .idle) := by
  unfold World.settle
  cases hx : x s with
  | ok u t => exact hok t (h.ok hs hx)
  | error e t => cases e <;> exact herror t _ Phase.noConfusion (h.error hs hx)

/-- A restart reads the stores and changes neither. -/
theorem restart_heldAt (cfg : IndexerConfig) (faults : List IoResult) {rows : MinerPassStorage}
    (held : HeldAt target e₀ rows w.indexer) :
    HeldAt target e₀ rows (next cfg w (.restart faults)).indexer := by
  have hheld : HeldAt target e₀ rows
      (finalState (reloadFromStorage (w.indexer.afterRestart.withFaults faults))) :=
    (reloadFromStorage_heldAt _).mpr held
  unfold World.next World.settle
  dsimp only
  cases hx : reloadFromStorage (w.indexer.afterRestart.withFaults faults) with
  | ok u t =>
    rw [hx] at hheld
    exact hheld
  | error e t =>
    rw [hx] at hheld
    cases e <;> exact hheld

/-- It is not followed by a block, and loads the tracker unless it crashes. -/
theorem restart_reloaded (cfg : IndexerConfig) (w : World) (faults : List IoResult) :
    (next cfg w (.restart faults)).phase ≠ .syncing ∧
      ((next cfg w (.restart faults)).phase ≠ .crashed →
        Reloaded (next cfg w (.restart faults)).indexer) := by
  unfold World.next World.settle
  dsimp only
  cases hx : reloadFromStorage (w.indexer.afterRestart.withFaults faults) with
  | ok u t =>
    obtain ⟨fs, rfl⟩ := reloadFromStorage_ok hx
    exact ⟨Phase.noConfusion, fun _ => ⟨rfl, rfl⟩⟩
  | error e t => cases e <;> exact ⟨Phase.noConfusion, fun hne => absurd rfl hne⟩

theorem RecoveryStage.restart (h : RecoveryStage target e₀ ps w) (cfg : IndexerConfig)
    (faults : List IoResult) : RecoveryStage target e₀ ps (next cfg w (.restart faults)) := by
  cases h with
  | drifted held => exact .drifted (restart_heldAt cfg faults held)
  | marked held => exact .marked (restart_heldAt cfg faults held)
  | recovered held =>
    exact .recovered (restart_heldAt cfg faults held) (restart_reloaded cfg w faults).2

theorem RecoveryStage.of_settled {s : IndexerState} {phase : Phase} (h : Settled target e₀ ps s) :
    RecoveryStage target e₀ ps { w with indexer := s.withFaults [], phase } :=
  .recovered h.1.1 (fun _ => h.1.2)

variable {reason : String} (hlatest : cfg.genesisBlockHeight ≤ latestHeight)
  (hrolls : RollsBackTo cfg target ps)
  (hdrift : detectUpstreamReorgTarget client ps (currentHeight cfg ps) latestHeight snapshot
    cfg.genesisBlockHeight = .ok (some (target, reason)))

include hlatest hrolls hdrift

/-- The round that comes next: its target is what the upstream says, and it takes the
recovery further. -/
theorem RecoveryStage.round (h : RecoveryStage target e₀ ps w) (halive : w.phase ≠ .crashed) :
    ∃ found, ∃ P E : IndexerState → Prop,
      detectUpstreamReorgTarget client w.indexer.passStorage (w.height cfg) latestHeight snapshot
        cfg.genesisBlockHeight = .ok found ∧ (∀ faults, P (w.indexer.withFaults faults)) ∧
      Completes P (prepareSync cfg (found.map Prod.fst)) (fun _ => Settled target e₀ ps)
        (fun _ => E) ∧
      ∀ t phase, E t →
        RecoveryStage target e₀ ps { w with indexer := t.withFaults [], phase } := by
  have hquiet : ∀ mark, w.indexer.passStorage = ps.rolledBack target mark →
      detectUpstreamReorgTarget client w.indexer.passStorage (w.height cfg) latestHeight snapshot
        cfg.genesisBlockHeight = .ok none := by
    intro mark hpass
    have hheight : w.height cfg = target := by
      unfold World.height
      rw [hpass]
      exact currentHeight_rolledBack hrolls.lower _ _
    rw [hheight, hpass]
    exact detectUpstreamReorgTarget_rolledBack cfg.genesisBlockHeight_pos hlatest hdrift mark
  cases h with
  | drifted held =>
    refine ⟨some (target, reason), _, _, ?_, fun _ => held,
      prepareSync_drifted hrolls (fun _ _ => rfl) (fun _ hs => hs), ?_⟩
    · unfold World.height
      rw [held.1]
      exact hdrift
    · rintro t phase (hheld | hheld | hheld)
      · exact .drifted hheld
      · exact .marked hheld
      · exact .recovered hheld.1 (fun _ => hheld.2)
  | marked held =>
    refine ⟨none, _, _, hquiet true held.1, fun _ => held, prepareSync_marked hrolls, ?_⟩
    rintro t phase (hheld | hheld)
    · exact .marked hheld
    · exact .recovered hheld.1 (fun _ => hheld.2)
  | recovered held tracker =>
    have hrecovered : Recovered target e₀ ps w.indexer := ⟨held, tracker halive⟩
    refine ⟨none, _, _, hquiet false held.1, fun _ => hrecovered, prepareSync_recovered hrolls, ?_⟩
    exact fun t phase hheld => .recovered hheld.1 (fun _ => hheld.2)

theorem Recovering.step (h : Recovering target e₀ ps w)
    (hc : RecoversAgainst client latestHeight snapshot cfg w l) (hs : Step cfg w l w') :
    Recovering target e₀ ps w' := by
  obtain ⟨enabled, rfl⟩ := hs
  cases l with
  | prepare rollbackTarget faults =>
    have halive : w.phase ≠ .crashed := by
      rw [enabled.1]
      exact Phase.noConfusion
    obtain ⟨found, P, E, hdetect, hP, hround, hE⟩ := h.stage.round hlatest hrolls hdrift halive
    obtain ⟨found', hdetect', rfl⟩ := hc.2 rollbackTarget faults rfl
    rw [hdetect] at hdetect'
    cases hdetect'
    refine settle_holds hround.triple (hP faults) (fun t ht => ⟨.of_settled ht, fun _ => ht⟩) ?_
    exact fun t phase hphase ht => ⟨hE t phase ht, fun hready => absurd hready hphase⟩
  | block env balances faults => exact absurd enabled hc.1
  | finish snapshot refs faults => exact absurd enabled.1 hc.1
  | restart faults =>
    exact ⟨h.stage.restart cfg faults,
      fun hready => absurd hready (restart_reloaded cfg w faults).1⟩

theorem Recovering.run (h : Recovering target e₀ ps w)
    (run : Run cfg (RecoversAgainst client latestHeight snapshot cfg) w w') :
    Recovering target e₀ ps w' := by
  induction run with
  | refl => exact h
  | step _ holds step ih => exact ih.step hlatest hrolls hdrift holds step

/-- Without faults the round that comes next is ready for a block. -/
theorem Recovering.completes (h : Recovering target e₀ ps w) (hidle : w.phase = .idle) :
    ∃ rollbackTarget,
      RecoversAgainst client latestHeight snapshot cfg w (.prepare rollbackTarget []) ∧
      Enabled cfg w (.prepare rollbackTarget []) ∧
      (next cfg w (.prepare rollbackTarget [])).phase = .syncing := by
  have halive : ∀ phase, phase ≠ .idle → w.phase ≠ phase := by
    intro phase hne
    rw [hidle]
    exact hne.symm
  obtain ⟨found, P, E, hdetect, hP, hround, -⟩ :=
    h.stage.round hlatest hrolls hdrift (halive .crashed Phase.noConfusion)
  refine ⟨found.map Prod.fst, ⟨halive .syncing Phase.noConfusion, ?_⟩, ⟨hidle, ?_⟩, ?_⟩
  · intro rollbackTarget faults heq
    cases heq
    exact ⟨found, hdetect, rfl⟩
  · cases found with
    | none => trivial
    | some drift => exact detectUpstreamReorgTarget_targetInRange hlatest hdetect
  · obtain ⟨u, t, ht, -⟩ := hround.succeeds _ (hP []) rfl
    unfold World.next
    dsimp only
    rw [ht]
    rfl

end Runs

/-- Without faults a crashed process comes up again. -/
theorem restart_idle (cfg : IndexerConfig) (w : World) :
    (next cfg w (.restart [])).phase = .idle := by
  unfold World.next
  dsimp only
  rw [reloadFromStorage_reloads rfl]
  rfl

end World

/-- The recovery of a drift can be cut off by a failed call or a crash anywhere and as often
as it may be: the first round that is ready for a block finds what an uninterrupted recovery
leaves, none is ready while the marker is set, and the next one without faults is. -/
theorem World.Reachable.recovery_resumes (cfg : IndexerConfig) (client : BalanceHistoryClient)
    (latestHeight : Nat) (snapshot : BalanceHistorySnapshotInfo) (w w' : World) (target : Nat)
    (reason : String) (h : World.Reachable cfg (World.RecoversBooks cfg) w)
    (hidle : w.phase = .idle)
    (hunmarked : w.indexer.passStorage.upstreamReorgRecoveryPendingHeight = none)
    (hlatest : cfg.genesisBlockHeight ≤ latestHeight)
    (hdrift : detectUpstreamReorgTarget client w.indexer.passStorage (w.height cfg) latestHeight
      snapshot cfg.genesisBlockHeight = .ok (some (target, reason)))
    (run : World.Run cfg (World.RecoversAgainst client latestHeight snapshot cfg) w w') :
    (w'.phase = .syncing →
      w'.indexer.passStorage = w.indexer.passStorage.rolledBack target false ∧
      w'.indexer.energyStorage = w.indexer.energyStorage.reconciled target ∧
      w'.indexer.inscriptions = w'.indexer.passStorage.reloadedTracker ∧
      w'.indexer.stagedBlocks = []) ∧
    (w'.indexer.passStorage.upstreamReorgRecoveryPendingHeight ≠ none → w'.phase ≠ .syncing) ∧
    (w'.phase = .idle → ∃ rollbackTarget,
      World.RecoversAgainst client latestHeight snapshot cfg w' (.prepare rollbackTarget []) ∧
      World.Enabled cfg w' (.prepare rollbackTarget []) ∧
      (World.next cfg w' (.prepare rollbackTarget [])).phase = .syncing) ∧
    (w'.phase = .crashed → (World.next cfg w' (.restart [])).phase = .idle) := by
  have henergy := h.energyInv monotone_id (fun _ => Nat.le_refl _) (fun _ _ hc => hc)
  have hpasses := h.passInv
  obtain ⟨-, lower, upper⟩ := detectUpstreamReorgTarget_targetInRange hlatest hdrift
  have hrolls : RollsBackTo cfg target w.indexer.passStorage :=
    ⟨lower, upper, h.snapshotPerBlock, hunmarked,
      rollbackToBlockHeightInternal_eq hpasses.table hpasses.unique⟩
  have hway : OnTheWay target w.indexer.energyStorage w.indexer.energyStorage :=
    .refl henergy.books.bound (fun k hk => upper.trans (henergy.books.synced k hk))
  have hstart : World.Recovering target w.indexer.energyStorage w.indexer.passStorage w := by
    refine ⟨.drifted ⟨rfl, hway⟩, fun hphase => ?_⟩
    rw [hidle] at hphase
    cases hphase
  have hreached := hstart.run hlatest hrolls hdrift run
  refine ⟨fun hphase => ?_, fun hmarked hphase => hmarked ?_,
    hreached.completes hlatest hrolls hdrift, fun _ => World.restart_idle cfg w'⟩
  · obtain ⟨⟨⟨hpass, -⟩, htracker, hstaged⟩, hend⟩ := hreached.ready hphase
    exact ⟨hpass, hend, htracker, hstaged⟩
  · rw [(hreached.ready hphase).1.1.1]
    rfl

namespace Sample

/-- A restart after the second block. -/
def mintMoveRestart : List Label := mintAndMove ++ [Label.restart []]

def restarted : World := mintMoveRestart.foldl (World.next config) World.initial

/-- An upstream with the same commits. -/
def sameCommits : BalanceHistoryClient where
  getBlockCommit := fun height => .ok (some {
    blockHeight := height
    blockCommit := ""
    commitProtocolVersion := "1.0.0"
    commitHashAlgo := "sha256" })
  getStateRefAtHeight := fun _ => .error .rpc

/-- The first round crashes between the rollback of the passes and the reconciliation of
the energy store. -/
def cutOff : List Label :=
  [.prepare (some 1) (List.replicate 6 .ok ++ [.crash]), .restart [], .prepare none []]

/-- What the round reports when the upstream has one block left. -/
def reported (w : World) : Option (Option (Nat × String)) :=
  (detectUpstreamReorgTarget sameCommits w.indexer.passStorage (w.height config) 1 (snapshotAt 1)
    config.genesisBlockHeight).toOption

theorem reported_eq {w : World} {found : Option (Nat × String)} (h : reported w = some found) :
    detectUpstreamReorgTarget sameCommits w.indexer.passStorage (w.height config) 1 (snapshotAt 1)
      config.genesisBlockHeight = .ok found := by
  unfold reported at h
  generalize detectUpstreamReorgTarget sameCommits w.indexer.passStorage (w.height config) 1
    (snapshotAt 1) config.genesisBlockHeight = result at h
  cases result with
  | ok found' =>
    cases h
    rfl
  | error e => cases h

theorem recoversAgainst_prepare {w : World} {found : Option (Nat × String)}
    {rollbackTarget : Option Nat} {faults : List IoResult} (hphase : w.phase ≠ .syncing)
    (h : reported w = some found) (htarget : rollbackTarget = found.map Prod.fst) :
    World.RecoversAgainst sameCommits 1 (snapshotAt 1) config w
      (.prepare rollbackTarget faults) := by
  refine ⟨hphase, fun rollbackTarget' faults' heq => ?_⟩
  cases heq
  exact ⟨found, reported_eq h, htarget⟩

theorem restarted_reachable : World.Reachable config (World.RecoversBooks config) restarted := by
  have hfollows : World.Follows config (fun _ _ => True) World.initial mintMoveRestart := by
    decide +kernel
  have hserved : ∀ l ∈ mintMoveRestart, World.ServedBy .empty l := by
    intro l hl
    simp only [mintMoveRestart, mintAndMove, List.cons_append, List.nil_append, List.mem_cons,
      List.not_mem_nil, or_false] at hl
    rcases hl with rfl | rfl | rfl | rfl
    · trivial
    · exact ⟨rfl, rfl⟩
    · exact ⟨rfl, rfl⟩
    · trivial
  obtain ⟨e₁, a₁, e₂, a₂, e₃, a₃, e₄, a₄, -⟩ := hfollows.values hserved (.inl rfl)
  have hrun : World.Reachable config (World.RecoversEnergy config) restarted :=
    World.Run.of_follows (.refl _) ⟨e₁, ⟨a₁, trivial⟩, e₂, ⟨a₂, fun _ _ => by decide +kernel⟩,
      e₃, ⟨a₃, fun _ _ => by decide +kernel⟩, e₄, ⟨a₄, trivial⟩, trivial⟩
  exact hrun.mono (fun _ _ h => h.books)

end Sample

/-- The second pass is gone and the first is back where it was, although the first round
crashed. -/
theorem World.Reachable.recovery_resumes_cutOff :
    ∃ w', World.Run Sample.config
        (World.RecoversAgainst Sample.sameCommits 1 (Sample.snapshotAt 1) Sample.config)
        Sample.restarted w' ∧ w'.phase = .syncing ∧
      Sample.restarted.indexer.passStorage.minerPasses.length = 2 ∧
      w'.indexer.passStorage = Sample.restarted.indexer.passStorage.rolledBack 1 false ∧
      w'.indexer.energyStorage = Sample.restarted.indexer.energyStorage.reconciled 1 := by
  have hfound : Sample.reported Sample.restarted = some (some (1,
      "upstream stable height regressed: local_height=2, upstream_height=1")) := by
    decide +kernel
  have hrun : World.Run Sample.config
      (World.RecoversAgainst Sample.sameCommits 1 (Sample.snapshotAt 1) Sample.config)
      Sample.restarted (Sample.cutOff.foldl (World.next Sample.config) Sample.restarted) := by
    refine World.Run.of_follows (.refl _) ⟨by decide +kernel, ?_, by decide +kernel, ?_,
      by decide +kernel, ?_, trivial⟩
    · exact Sample.recoversAgainst_prepare (by decide +kernel) hfound rfl
    · exact ⟨by decide +kernel, fun _ _ heq => by cases heq⟩
    · have hquiet : Sample.reported (World.next Sample.config (World.next Sample.config
          Sample.restarted (.prepare (some 1) (List.replicate 6 .ok ++ [.crash])))
            (Label.restart [])) = some none := by
        decide +kernel
      exact Sample.recoversAgainst_prepare (by decide +kernel) hquiet rfl
  have hphase : (Sample.cutOff.foldl (World.next Sample.config) Sample.restarted).phase =
      .syncing := by
    decide +kernel
  obtain ⟨hready, -⟩ := World.Reachable.recovery_resumes Sample.config Sample.sameCommits 1
    (Sample.snapshotAt 1) Sample.restarted _ 1 _ Sample.restarted_reachable (by decide +kernel)
    (by decide +kernel) (by decide) (Sample.reported_eq hfound) hrun
  obtain ⟨hpass, henergy, -⟩ := hready hphase
  exact ⟨_, hrun, hphase, by decide +kernel, hpass, henergy⟩

end Usdb
