import Usdb.Index.RestartAgreement

namespace Usdb

open Framework MinerPassStorage InscriptionTransferTracker InscriptionIndexer

namespace World

variable {cfg : IndexerConfig} {w : World}

/-- The tracker is the one a reload would build, up to the order under an outpoint. -/
def TrackerStored (s : IndexerState) : Prop :=
  ∀ k, (s.inscriptions k).Perm (s.passStorage.reloadedTracker k)

/-- A tracker is as stored when, and only when, no outpoint is stale. -/
theorem trackerStored_iff (h : Tracking w.indexer)
    (hmarker : w.indexer.passStorage.upstreamReorgRecoveryPendingHeight = none) :
    TrackerStored w.indexer ↔ ∀ k, ¬w.Stale k := by
  obtain ⟨loaded, htracks⟩ := h.tracks hmarker
  constructor
  · rintro hperm k ⟨p, hp, rfl, ⟨hstate, hmem⟩ | ⟨hstate, hmem⟩⟩
    · have hlisted := (entry_mem_reloadedTracker h.unique hp).mp ((hperm _).mem_iff.mp hmem)
      exact hlisted.1 hstate
    · refine hmem ((hperm _).mem_iff.mpr ((entry_mem_reloadedTracker h.unique hp).mpr ?_))
      simp [hstate]
  · intro hfresh k
    have halike := alike_reloaded h.unique htracks
    have hd := List.Nodup.of_map _ (htracks.distinct k)
    have hd' := List.Nodup.of_map _ ((Tracks.reloaded h.unique).distinct k)
    exact (List.perm_ext_iff_of_nodup hd hd').mpr (fun v => halike _ k (hfresh k) v rfl)

/-- A failed block, seen from the world it leaves. -/
theorem TrackerInv.next_failed {env : BlockEnv} {balances : BalanceHistory}
    {faults : List IoResult} (hi : TrackerInv w)
    (enabled : Enabled cfg w (.block env balances faults))
    (hlast : PublishesLast cfg w (.block env balances faults))
    (hfailed : (next cfg w (.block env balances faults)).phase = .idle) :
    (next cfg w (.block env balances faults)).indexer.passStorage = w.indexer.passStorage ∧
      (next cfg w (.block env balances faults)).indexer.tracker = w.indexer.tracker := by
  have hphase : w.phase ≠ .crashed := by
    have hsyncing : w.phase = .syncing := enabled
    rw [hsyncing]
    decide
  cases h : syncBlockDurably cfg env (w.height cfg + 1) (w.indexer.withFaults faults) with
  | ok u t =>
    simp only [next, h] at hfailed
    cases hfailed
  | error e t =>
    have hne : e ≠ .panic := by
      rintro rfl
      simp only [next, h] at hfailed
      cases hfailed
    have hkept := hi.failedBlock hphase hlast h hne
    have hindexer : (next cfg w (.block env balances faults)).indexer = t.withFaults [] := by
      simp only [next, h]
      cases e <;> rfl
    rw [hindexer]
    exact hkept

/-- After a block attempt that failed without a crash, before the tracker of the block was
published, nothing is staged, and the tracker is the one a reload would build exactly when
no outpoint was stale before the attempt. Then every retry finds the same events as after
a reload, and ends with the same commit. -/
theorem Reachable.failed_attempt_tracker (cfg : IndexerConfig) (w : World) (env : BlockEnv)
    (balances : BalanceHistory) (faults : List IoResult)
    (h : KeptSinceLoad cfg w) (enabled : Enabled cfg w (.block env balances faults))
    (hkeeps : KeepsTracker cfg w (.block env balances faults))
    (hfailed : (next cfg w (.block env balances faults)).phase = .idle) :
    let v := next cfg w (.block env balances faults)
    v.indexer.stagedBlocks = [] ∧ (TrackerStored v.indexer ↔ ∀ k, ¬w.Stale k) ∧
      ((∀ k, ¬w.Stale k) → ∀ u u', TwinRun cfg (fun _ => False) (v, v.reload) (u, u') →
        ∀ retry faults' t, u.Syncs cfg retry faults' t → ∃ t' entry events,
          u'.Syncs cfg retry [] t' ∧ u.plannedEvents cfg retry = some events ∧
          u'.plannedEvents cfg retry = some events ∧
          t.passStorage.getPassBlockCommit (u.height cfg + 1) = some entry ∧
          t'.passStorage.getPassBlockCommit (u.height cfg + 1) = some entry) := by
  intro v
  have hstep : Step cfg w (.block env balances faults) v := ⟨enabled, rfl⟩
  have hv : KeptSinceLoad cfg v := h.step hkeeps hstep
  have hi := h.trackerInv
  have hi' := hv.trackerInv
  obtain ⟨hpass, htracker⟩ := hi.next_failed enabled hkeeps.2 hfailed
  have hb : v.AtBoundary := by
    refine ⟨?_, ?_⟩
    · rw [hfailed]
      decide
    · rw [hpass]
      exact hi.ready enabled
  have hstale : ∀ k, v.Stale k ↔ w.Stale k := by
    intro k
    have hlisted : v.indexer.inscriptions = w.indexer.inscriptions := congrArg Prod.fst htracker
    unfold Stale
    rw [hpass, hlisted]
  have htracking := hi'.tracking hb.1
  refine ⟨htracking.noStaged, ?_, ?_⟩
  · rw [trackerStored_iff htracking hb.2]
    exact forall_congr' (fun k => not_congr (hstale k))
  · intro hfresh u u' run retry faults' t hsync
    have hnone : v.Stale = fun _ => False := by
      funext k
      exact propext ⟨fun hk => hfresh k ((hstale k).mp hk), False.elim⟩
    have htwins := hv.twins_reload hb
    rw [hnone] at htwins
    exact (run.twins htwins).agree.2 retry faults' t (fun _ _ _ _ _ _ => id) hsync

end World

namespace Sample

/-- Owner 7 has minted a pass. -/
def mintedOnce : World := (mintAndMove.take 2).foldl (World.next config) World.initial

theorem mintedOnce_kept : World.KeptSinceLoad config mintedOnce :=
  .of_reachable (World.Run.of_follows (.refl _) (by decide +kernel))

/-- The block in which the pass goes to owner 8, when one of its calls reports an error. -/
def movingWith (calls : Nat) : Label :=
  .block (env .empty 2 [payment 2 ⟨1, 0⟩ 8] []) .empty (List.replicate calls .ok ++ [.err])

end Sample

/-- The attempt fails early: the pass is still listed where it was, as after a reload. -/
theorem World.Reachable.failed_attempt_tracker_early :
    World.TrackerStored (World.next Sample.config Sample.mintedOnce (Sample.movingWith 20)).indexer := by
  have hfresh : ∀ k, ¬Sample.mintedOnce.Stale k := by
    have hstates : ∀ p ∈ Sample.mintedOnce.indexer.passStorage.minerPasses, p.state = .Active := by
      decide +kernel
    rintro k ⟨p, hp, -, ⟨hstate, -⟩ | ⟨hstate, -⟩⟩
    · rw [hstates p hp] at hstate
      cases hstate
    · rw [hstates p hp] at hstate
      cases hstate
  have hfailed := World.Reachable.failed_attempt_tracker Sample.config Sample.mintedOnce _ _ _
    Sample.mintedOnce_kept (by decide +kernel)
    (show World.KeepsTracker Sample.config Sample.mintedOnce (Sample.movingWith 20) by decide +kernel)
    (by decide +kernel)
  exact hfailed.2.1.mpr hfresh

/-- The update of the synced height fails: the pass is back with owner 7 in the database,
the tracker has it under its new outpoint, and the retry finds no transfer. -/
theorem World.Reachable.failed_attempt_tracker_late :
    ¬∀ (cfg : IndexerConfig) (w : World) (env : BlockEnv) (balances : BalanceHistory)
      (faults : List IoResult), World.Reachable cfg (fun _ _ => True) w →
      World.Enabled cfg w (.block env balances faults) →
      (World.next cfg w (.block env balances faults)).phase = .idle →
      World.TrackerStored (World.next cfg w (.block env balances faults)).indexer ∧
        (World.next cfg w (.block env balances faults)).plannedEvents cfg env =
          w.plannedEvents cfg env := by
  intro h
  have hrun : World.Reachable Sample.config (fun _ _ => True) Sample.mintedOnce :=
    World.Run.of_follows (.refl _) (by decide +kernel)
  have hequal := (h Sample.config Sample.mintedOnce _ _ _ hrun (by decide +kernel)
    (show (World.next Sample.config Sample.mintedOnce (Sample.movingWith 29)).phase = .idle by
      decide +kernel)).2
  revert hequal
  decide +kernel

end Usdb
