import Usdb.Index.TrackerRuns
import Usdb.Index.TwinRuns
import Usdb.Index.TerminalStates

namespace Usdb

open Framework MinerPassStorage InscriptionTransferTracker InscriptionIndexer

namespace World

variable {cfg : IndexerConfig} {cond : World → Label → Prop} {w : World}

/-- The world with its tracker dropped and loaded again from the pass database. -/
def reload (w : World) : World :=
  { w with indexer := finalState (reloadFromStorage w.indexer) }

/-- No process has died and no recovery is pending, so that the next block may come. -/
def AtBoundary (w : World) : Prop :=
  w.phase ≠ .crashed ∧ w.indexer.passStorage.upstreamReorgRecoveryPendingHeight = none

instance (w : World) : Decidable (AtBoundary w) :=
  inferInstanceAs (Decidable (_ ∧ _))

/-- The outpoint holds a pass that the tracker and its reload do not treat alike: a Consumed
one that is still listed, or a Burned one that no longer is. -/
def Stale (w : World) (k : OutPoint) : Prop :=
  ∃ p ∈ w.indexer.passStorage.minerPasses, p.satpoint.outpoint = k ∧
    ((p.state = .Consumed ∧ p.entry ∈ w.indexer.inscriptions k) ∨
      (p.state = .Burned ∧ p.entry ∉ w.indexer.inscriptions k))

instance (w : World) (k : OutPoint) : Decidable (w.Stale k) :=
  inferInstanceAs (Decidable (∃ p ∈ w.indexer.passStorage.minerPasses, _))

/-- The events of the next block, without the times their sources report. -/
def plannedEvents (cfg : IndexerConfig) (w : World) (env : BlockEnv) :
    Option (List BlockProcessEvent) :=
  match planBlock env (w.height cfg + 1) (w.indexer.withFaults []) with
  | .ok events _ => some (events.map BlockProcessEvent.core)
  | .error _ _ => none

theorem settle_faults (w : World) (result : EStateM.Result IndexerError IndexerState Unit)
    (next failed : Phase) : (w.settle result next failed).indexer.faults = [] := by
  unfold settle
  split <;> rfl

theorem Step.faults {w' : World} {l : Label} (hs : Step cfg w l w') : w'.indexer.faults = [] := by
  obtain ⟨-, rfl⟩ := hs
  cases l with
  | prepare rollbackTarget faults => exact settle_faults _ _ _ _
  | block env balances faults =>
    unfold next
    dsimp only
    unfold recordBlock
    split <;> exact settle_faults _ _ _ _
  | finish snapshot stateRefAtHeight faults => exact settle_faults _ _ _ _
  | restart faults => exact settle_faults _ _ _ _

theorem Reachable.faults (h : Reachable cfg cond w) : w.indexer.faults = [] :=
  h.induct (P := fun w => w.indexer.faults = []) rfl (fun _ _ _ _ _ hs => hs.faults)

/-- The tracker and its reload list the same passes, except at the stale outpoints. -/
theorem alike_reloaded {loaded : InscriptionId → Option MinerPassState}
    (hn : (w.indexer.passStorage.minerPasses.map (·.inscriptionId)).Nodup)
    (h : Tracks loaded w.indexer.passStorage w.indexer.inscriptions) :
    MultiMap.Alike w.Stale w.indexer.inscriptions w.indexer.passStorage.reloadedTracker := by
  intro id k hk v hv
  rw [h.mem_iff hn, mem_reloadedTracker hn]
  constructor
  · rintro ⟨p, hp, rfl, rfl, hlisted⟩
    refine ⟨p, hp, rfl, rfl, fun hconsumed => ?_, fun hinvalid => ?_⟩
    · have hmem := (h.entry_mem_iff hn hp).mpr hlisted
      exact hk ⟨p, hp, rfl, .inl ⟨hconsumed, hmem⟩⟩
    · rw [hinvalid] at hlisted
      exact hlisted
  · rintro ⟨p, hp, rfl, rfl, hconsumed, hinvalid⟩
    refine ⟨p, hp, rfl, rfl, ?_⟩
    cases hstate : p.state with
    | Active => trivial
    | Dormant => trivial
    | Consumed => exact absurd hstate hconsumed
    | Invalid => exact absurd hstate hinvalid
    | Burned =>
      by_contra hskipped
      rw [← hstate, ← h.entry_mem_iff hn hp] at hskipped
      exact hk ⟨p, hp, rfl, .inr ⟨hstate, hskipped⟩⟩

/-- A world at a block boundary and the same world with its tracker loaded again are twins. -/
theorem KeptSinceLoad.twins_reload (h : KeptSinceLoad cfg w) (hb : w.AtBoundary) :
    Twins w.Stale w w.reload := by
  have htracking := h.trackerInv.tracking hb.1
  have hfaults := h.reachable.faults
  obtain ⟨loaded, htracks⟩ := htracking.tracks hb.2
  have hreload : w.reload.indexer = { w.indexer with
      inscriptions := w.indexer.passStorage.reloadedTracker, stagedBlocks := [] } := by
    unfold reload
    rw [reloadFromStorage_reloads hfaults]
    rfl
  refine ⟨rfl, ?_, hfaults, htracking.noStaged, ?_, htracking.distinct, ?_⟩
  · rw [hreload]
    rfl
  · rw [hreload]
    exact alike_reloaded htracking.unique htracks
  · rw [hreload]
    exact (Tracks.reloaded htracking.unique).distinct

/-- Twins have the same commits, and the next block that one of them makes durable has the
same events and the same commit with the other. -/
theorem Twins.agree {except : OutPoint → Prop} {v v' : World} (h : Twins except v v') :
    (∀ k, v'.indexer.passStorage.getPassBlockCommit k =
      v.indexer.passStorage.getPassBlockCommit k) ∧
    ∀ env faults t, Avoids except env → v.Syncs cfg env faults t →
      ∃ t' entry events, v'.Syncs cfg env [] t' ∧ v.plannedEvents cfg env = some events ∧
        v'.plannedEvents cfg env = some events ∧
        t.passStorage.getPassBlockCommit (v.height cfg + 1) = some entry ∧
        t'.passStorage.getPassBlockCommit (v.height cfg + 1) = some entry := by
  refine ⟨?_, ?_⟩
  · intro k
    rw [h.replica.same]
    rfl
  · intro env faults t avoids hsync
    have alike : EnvAlike (v.height cfg + 1) env env := ⟨rfl, rfl, rfl, rfl, .refl _ _ _⟩
    obtain ⟨t', hsync', hreplica, events, events', r, r', hplan, hplan', hcores⟩ :=
      h.syncs alike avoids hsync
    obtain ⟨durable⟩ := syncBlockDurably_ok hsync
    have hentry := durable.getPassBlockCommit_final
    refine ⟨t', durable.entry, events.map BlockProcessEvent.core, hsync', ?_, ?_, hentry, ?_⟩
    · unfold plannedEvents
      rw [hplan]
    · unfold plannedEvents
      rw [h.height, hplan', ← hcores]
    · rw [hreplica.same]
      exact hentry

/-- A run goes on as it would have with the tracker loaded again at a block boundary, as
long as no block spends an outpoint that was stale there: the stored commits are the same,
and the next block has the same events and the same commit. -/
theorem Reachable.restart_agrees (cfg : IndexerConfig) (w v v' : World)
    (h : KeptSinceLoad cfg w) (hb : w.AtBoundary)
    (run : TwinRun cfg w.Stale (w, w.reload) (v, v')) :
    (∀ k, v'.indexer.passStorage.getPassBlockCommit k =
      v.indexer.passStorage.getPassBlockCommit k) ∧
    ∀ env faults t, Avoids w.Stale env → v.Syncs cfg env faults t →
      ∃ t' entry events, v'.Syncs cfg env [] t' ∧ v.plannedEvents cfg env = some events ∧
        v'.plannedEvents cfg env = some events ∧
        t.passStorage.getPassBlockCommit (v.height cfg + 1) = some entry ∧
        t'.passStorage.getPassBlockCommit (v.height cfg + 1) = some entry := by
  have htwins := run.twins (h.twins_reload hb)
  exact htwins.agree

end World

namespace Sample

/-- Owner 7 has consumed its first pass; both inscriptions are still with it. -/
def reminted : World := mintAndRemint.foldl (World.next config) World.initial

theorem reminted_reachable :
    World.Reachable config (World.KeepsTracker config) reminted :=
  World.Run.of_follows (.refl _) (by decide +kernel)

/-- A block in which one outpoint is paid to owner 8. -/
def spending (height : Nat) (outpoint : OutPoint) : BlockEnv :=
  env .empty height [payment height outpoint 8] []

/-- The pass of owner 7 moves in block 2, whose synced height cannot be written; the retry
finds no transfer, and the process is killed. -/
def retriedLate : List Label :=
  mintAndRemint.take 2 ++
    [Label.block (spending 2 ⟨1, 0⟩) .empty (List.replicate 29 .ok ++ [.err]),
     Label.prepare none [],
     Label.block (spending 2 ⟨1, 0⟩) .empty []]

def killedAfterRetry : World := retriedLate.foldl (World.next config) World.initial

theorem killedAfterRetry_reachable : World.Reachable config (fun _ _ => True) killedAfterRetry :=
  World.Run.of_follows (.refl _) (by decide +kernel)

/-- After the restart owner 7 mints again in block 3, which consumes the first pass. -/
def remintedAfterRestart : World :=
  [.prepare none [], .block (env .empty 3 [payment 3 ⟨0, 1⟩ 7] [mint 3 [⟨1, 0⟩]]) .empty []].foldl
    (World.next config) (World.next config killedAfterRetry (.restart []))

theorem remintedAfterRestart_kept : World.KeptSinceLoad config remintedAfterRestart :=
  (World.KeptSinceLoad.restarted killedAfterRetry_reachable (by decide +kernel)).follows
    (by decide +kernel)

end Sample

/-- The second pass is sold after one more restart: nothing shows that there was one. -/
theorem World.Reachable.restart_agrees_sale :
    Sample.remintedAfterRestart.Stale ⟨1, 0⟩ ∧ ∃ t t' entry,
      Sample.remintedAfterRestart.Syncs Sample.config (Sample.spending 4 ⟨3, 0⟩) [] t ∧
      Sample.remintedAfterRestart.reload.Syncs Sample.config (Sample.spending 4 ⟨3, 0⟩) [] t' ∧
      t.passStorage.getPassBlockCommit 4 = some entry ∧
      t'.passStorage.getPassBlockCommit 4 = some entry := by
  refine ⟨by decide +kernel, ?_⟩
  have hb : Sample.remintedAfterRestart.AtBoundary := by decide +kernel
  have hphase : (World.next Sample.config Sample.remintedAfterRestart
      (.block (Sample.spending 4 ⟨3, 0⟩) .empty [])).phase = .syncing := by
    decide +kernel
  obtain ⟨t, ht⟩ := World.Syncs.of_phase hphase
  have havoids : Avoids Sample.remintedAfterRestart.Stale (Sample.spending 4 ⟨3, 0⟩) := by
    have hfresh : ¬Sample.remintedAfterRestart.Stale ⟨3, 0⟩ := by decide +kernel
    intro block hblock tx htx vin hvin
    cases hblock
    obtain rfl := List.mem_singleton.mp htx
    obtain rfl := List.mem_singleton.mp hvin
    exact hfresh
  have hheight : Sample.remintedAfterRestart.height Sample.config + 1 = 4 := by decide +kernel
  obtain ⟨t', entry, -, ht', -, -, hentry, hentry'⟩ := (World.Reachable.restart_agrees _ _ _ _
    Sample.remintedAfterRestart_kept hb .refl).2 _ _ _ havoids ht
  rw [hheight] at hentry hentry'
  exact ⟨t, t', entry, ht, ht', hentry, hentry'⟩

/-- The consumed pass moves after the restart: the tracker that was kept sees a transfer, the
one that was loaded again does not. -/
theorem World.Reachable.restart_agrees_consumed :
    ¬∀ (cfg : IndexerConfig) (w : World) (env : BlockEnv) (t t' : IndexerState),
      World.Reachable cfg (World.KeepsTracker cfg) w → w.AtBoundary → w.Syncs cfg env [] t →
      w.reload.Syncs cfg env [] t' → w.reload.plannedEvents cfg env = w.plannedEvents cfg env := by
  intro h
  have hphase : (World.next Sample.config Sample.reminted
      (.block (Sample.spending 3 ⟨1, 0⟩) .empty [])).phase = .syncing := by
    decide +kernel
  have hphase' : (World.next Sample.config Sample.reminted.reload
      (.block (Sample.spending 3 ⟨1, 0⟩) .empty [])).phase = .syncing := by
    decide +kernel
  obtain ⟨t, ht⟩ := World.Syncs.of_phase hphase
  obtain ⟨t', ht'⟩ := World.Syncs.of_phase hphase'
  have hequal := h _ _ _ t t' Sample.reminted_reachable (by decide +kernel) ht ht'
  revert hequal
  decide +kernel

end Usdb
