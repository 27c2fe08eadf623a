import Usdb.Index.RecoveryRounds
import Usdb.Service.StateReplay

namespace Usdb

open Framework MinerPassStorage InscriptionIndexer UsdbIndexerRpcServer

/-- An anchor is adopted at genesis or above, where a height is synced. -/
def AnchorAtBlock (cfg : IndexerConfig) (ps : MinerPassStorage) : Prop :=
  ∀ anchor, ps.balanceHistorySnapshotAnchor = some anchor →
    cfg.genesisBlockHeight ≤ anchor.stableHeight

/-- What a run keeps of the tables a readiness report is made of. -/
structure ReportsInv (cfg : IndexerConfig) (ps : MinerPassStorage) : Prop where
  anchored : AnchorAtBlock cfg ps
  snapshots : SnapshotPerBlock cfg ps
  bounded : Bounded (currentHeight cfg ps) ps

namespace World

variable {cfg : IndexerConfig} {cond : World → Label → Prop} {w w' : World} {l : Label}

theorem Step.anchorAtBlock (hs : Step cfg w l w') (h : AnchorAtBlock cfg w.indexer.passStorage) :
    AnchorAtBlock cfg w'.indexer.passStorage := by
  refine hs.keepsPass (fun _ hps => hps) ?_ ?_ ?_ ?_ h
  · intro ps target faults _ _ anchor hanchor
    cases hanchor
  · intro ps ps' env balances faults _ hanchor _ hps anchor ha
    rw [hanchor] at ha
    exact hps anchor ha
  · intro ps ps' snapshot refs faults hl hheight _ hup anchor ha
    subst hl
    obtain ⟨adopted, hadopted, hanchor, -⟩ := upsertBalanceHistorySnapshotAnchor_ok hup
    rw [hanchor] at ha
    cases ha
    rw [snapshotAnchor_stableHeight hadopted, hheight]
    exact hs.1.2
  · intro ps ps' snapshot refs faults k _ hps _ hup anchor ha
    obtain ⟨row, hanchor, -⟩ := upsertBalanceHistorySnapshotHistoryEntry_ok hup
    rw [hanchor] at ha
    exact hps anchor ha

theorem Reachable.reportsInv (h : Reachable cfg cond w) : ReportsInv cfg w.indexer.passStorage where
  anchored := h.induct (P := fun w => AnchorAtBlock cfg w.indexer.passStorage)
    (fun _ ha => by cases ha) (fun _ _ _ hi _ hs => hs.anchorAtBlock hi)
  snapshots := h.snapshotPerBlock
  bounded := h.recordInv.bounded

/-- Only the end of a round adopts an anchor. -/
theorem Step.anchor_none (hs : Step cfg w l w')
    (hl : ∀ snapshot refs faults, l ≠ .finish snapshot refs faults)
    (h : w.indexer.passStorage.balanceHistorySnapshotAnchor = none) :
    w'.indexer.passStorage.balanceHistorySnapshotAnchor = none := by
  refine hs.keepsPass (I := fun ps => ps.balanceHistorySnapshotAnchor = none) (fun _ hps => hps)
    (fun _ _ _ _ _ => rfl) ?_ ?_ ?_ h
  · intro ps ps' env balances faults _ hanchor _ hps
    rw [hanchor]
    exact hps
  · exact fun ps ps' snapshot refs faults heq => absurd heq (hl snapshot refs faults)
  · exact fun ps ps' snapshot refs faults k heq => absurd heq (hl snapshot refs faults)

theorem Run.anchor_none
    (run : Run cfg (fun _ l => ∀ snapshot refs faults, l ≠ .finish snapshot refs faults) w w')
    (h : w.indexer.passStorage.balanceHistorySnapshotAnchor = none) :
    w'.indexer.passStorage.balanceHistorySnapshotAnchor = none := by
  induction run with
  | refl => exact h
  | step _ holds step ih => exact step.anchor_none holds ih

end World

namespace UsdbIndexerRpcServer

variable {cfg : IndexerConfig} {identity : IdentityConfig} {ps : MinerPassStorage}
  {status : IndexerStatus} {synced : Nat}

/-- The balances of the synced height are settled, and no later ones. -/
theorem latestActiveBalanceSnapshot_synced (h : ReportsInv cfg ps)
    (hsynced : ps.syncedBtcBlockHeight = some synced) (hgenesis : cfg.genesisBlockHeight ≤ synced) :
    ∃ snapshot, latestActiveBalanceSnapshot cfg ps synced true = .ok (some snapshot) := by
  have hheight : currentHeight cfg ps = synced := by
    unfold currentHeight
    rw [hsynced]
    show max synced (cfg.genesisBlockHeight - 1) = synced
    omega
  obtain ⟨s, hs, hat⟩ := h.snapshots.each synced hgenesis (Nat.le_of_eq hheight.symm)
  have hle := h.bounded.snapshots
  rw [hheight] at hle
  have hcheck : checkBalanceSnapshotHeight cfg ps synced true = .ok () := by
    show (ps.assertBalanceSnapshotConsistency synced cfg.genesisBlockHeight).mapError _ = _
    rw [assertBalanceSnapshotConsistency_at hgenesis ⟨s, hs, hat⟩ hle]
    rfl
  cases hlookup : ps.getActiveBalanceSnapshot synced with
  | none => exact absurd hat ((lookup_eq_none _ _ _).mp hlookup s hs)
  | some found =>
    refine ⟨settledBalance found, ?_⟩
    unfold latestActiveBalanceSnapshot
    rw [if_neg (Nat.not_lt.mpr hgenesis), hcheck, hlookup]
    rfl

/-- The local state can be built once an anchor is adopted at the synced height. -/
theorem localState_isSome (h : ReportsInv cfg ps) (identity : IdentityConfig)
    {anchor : BalanceHistorySnapshotAnchor}
    (hanchor : ps.balanceHistorySnapshotAnchor = some anchor)
    (hsynced : ps.syncedBtcBlockHeight = some anchor.stableHeight) :
    ∃ info, buildLocalStateCommitInfoAtHeight cfg identity ps
      (snapshotInfo identity anchor.stableHeight anchor) true = .ok info := by
  obtain ⟨snapshot, hsnapshot⟩ :=
    latestActiveBalanceSnapshot_synced h hsynced (h.anchored anchor hanchor)
  exact ⟨_, bind_eq_ok_iff.mpr ⟨some snapshot, hsnapshot, rfl⟩⟩

/-- What a node has that is ready for consensus. -/
structure ReadyFor (ps : MinerPassStorage) (status : IndexerStatus) : Prop where
  rpcAlive : status.rpcAlive = true
  running : status.shutdownRequested = false
  noRecovery : status.upstreamReorgRecoveryPending = false
  unmarked : ps.upstreamReorgRecoveryPendingHeight = none
  upstreamReady : status.balanceHistoryConsensusReady = some true
  adopted : ∃ anchor, ps.balanceHistorySnapshotAnchor = some anchor ∧
    ps.syncedBtcBlockHeight = some anchor.stableHeight ∧
    ∀ snapshot, status.balanceHistorySnapshot = some snapshot →
      snapshot.stableHeight ≤ anchor.stableHeight

theorem readinessInfo_unanchored (cfg : IndexerConfig) (identity : IdentityConfig)
    (h : ps.balanceHistorySnapshotAnchor = none) (status : IndexerStatus) :
    (readinessInfo cfg identity ps status).consensusReady = false := by
  have hreport : upstreamSnapshotInfo identity ps = none := by
    unfold upstreamSnapshotInfo
    rw [h]
    rfl
  unfold readinessInfo
  simp [hreport]

theorem readinessInfo_ready_iff (h : ReportsInv cfg ps) (status : IndexerStatus) :
    (readinessInfo cfg identity ps status).consensusReady = true ↔ ReadyFor ps status := by
  cases hanchor : ps.balanceHistorySnapshotAnchor with
  | none =>
    refine ⟨fun hready => ?_, fun hready => ?_⟩
    · rw [readinessInfo_unanchored cfg identity hanchor] at hready
      cases hready
    · obtain ⟨anchor, ha, -⟩ := hready.adopted
      rw [hanchor] at ha
      cases ha
  | some anchor =>
    have hreport : upstreamSnapshotInfo identity ps = some (snapshotInfo identity
        (ps.syncedBtcBlockHeight.getD anchor.stableHeight) anchor) := by
      unfold upstreamSnapshotInfo
      rw [hanchor]
      rfl
    refine ⟨fun hready => ?_, fun hready => ?_⟩
    · unfold readinessInfo at hready
      dsimp only at hready
      rw [hreport] at hready
      simp only [Bool.and_eq_true, Bool.not_eq_true', Bool.or_eq_false_iff, List.isEmpty_iff,
        readinessBlockers, List.append_eq_nil_iff] at hready
      obtain ⟨⟨⟨⟨⟨⟨⟨⟨⟨halive, hrunning⟩, hrecovery, hunmarked⟩, hsome⟩, hupstream⟩, hcatching⟩,
        -⟩, -⟩, -⟩, ⟨⟨⟨-, hheight⟩, -⟩, -⟩, -⟩ := hready
      obtain ⟨synced, hsynced⟩ := Option.isSome_iff_exists.mp hsome
      rw [hsynced] at hheight hcatching
      have hsame : synced = anchor.stableHeight := by
        by_contra hne
        simp [snapshotInfo, Ne.symm hne] at hheight
      subst hsame
      refine ⟨halive, hrunning, hrecovery, by simpa using hunmarked, ?_, anchor, hanchor, hsynced,
        fun snapshot hs => ?_⟩
      · cases hready : status.balanceHistoryConsensusReady with
        | none =>
          rw [hready] at hupstream
          cases hupstream
        | some ready =>
          rw [hready] at hupstream
          exact congrArg some hupstream
      · rw [hs] at hcatching
        simpa [isCatchingUp] using hcatching
    · obtain ⟨halive, hrunning, hrecovery, hunmarked, hupstream, adopted, ha, hsynced, hbehind⟩ :=
        hready
      rw [hanchor] at ha
      cases ha
      obtain ⟨info, hinfo⟩ := localState_isSome h identity hanchor hsynced
      have hobserved : (status.balanceHistorySnapshot.map (·.stableHeight)).getD
          anchor.stableHeight ≤ anchor.stableHeight := by
        cases hs : status.balanceHistorySnapshot with
        | none => exact Nat.le_refl _
        | some snapshot => exact hbehind snapshot hs
      have hlocal : (buildLocalStateCommitInfoAtHeight cfg identity ps
          (snapshotInfo identity anchor.stableHeight anchor) true).toOption = some info := by
        rw [hinfo]
        rfl
      have hheight : (snapshotInfo identity anchor.stableHeight anchor).balanceHistoryStableHeight =
          anchor.stableHeight := rfl
      unfold readinessInfo readinessBlockers
      dsimp only
      rw [hreport, hsynced, halive, hrunning, hrecovery, hunmarked, hupstream]
      simp [hlocal, hheight, hobserved, isCatchingUp]

end UsdbIndexerRpcServer

/-- In every world a run reaches, a node reports itself ready exactly when its flags are
set, the upstream was seen ready, no recovery is marked and an anchor is adopted at the
synced height, which the upstream was not seen above. Once passes are rolled back, nothing
but the end of a round makes it ready again, whatever the status says. -/
theorem World.Reachable.ready_iff (cfg : IndexerConfig) (identity : IdentityConfig)
    (cond : World → Label → Prop) (w : World) (h : World.Reachable cfg cond w) :
    (∀ status, (readinessInfo cfg identity w.indexer.passStorage status).consensusReady = true ↔
      ReadyFor w.indexer.passStorage status) ∧
    ∀ ps target mark w', w.indexer.passStorage = rolledBack ps target mark →
      World.Run cfg (fun _ l => ∀ snapshot refs faults, l ≠ .finish snapshot refs faults) w w' →
      ∀ status, (readinessInfo cfg identity w'.indexer.passStorage status).consensusReady =
        false := by
  refine ⟨readinessInfo_ready_iff h.reportsInv, fun ps target mark w' hrolled run status => ?_⟩
  apply readinessInfo_unanchored
  apply run.anchor_none
  rw [hrolled]
  rfl

namespace Sample

/-- The monitor has seen the upstream at a height, ready. -/
def seenAt (height : Nat) : IndexerStatus where
  rpcAlive := true
  shutdownRequested := false
  upstreamReorgRecoveryPending := false
  balanceHistorySnapshot := some (stableAt height)
  balanceHistoryConsensusReady := some true

/-- The first block is indexed and its snapshot adopted. -/
def adopted : World := adoptFirst.foldl (World.next config) World.initial

/-- The upstream has lost the block again. -/
def rolledBackFirst : World := World.next config adopted (.prepare (some 0) [])

end Sample

/-- The node is ready after the first block, and no longer after its rollback. -/
theorem World.Reachable.ready_iff_adoptFirst :
    (readinessInfo Sample.config Sample.undigested Sample.adopted.indexer.passStorage
      (Sample.seenAt 1)).consensusReady = true ∧
    ∀ status, (readinessInfo Sample.config Sample.undigested
      Sample.rolledBackFirst.indexer.passStorage status).consensusReady = false := by
  have hready : ReadyFor Sample.adopted.indexer.passStorage (Sample.seenAt 1) := by
    refine ⟨rfl, rfl, rfl, by decide +kernel, rfl, Sample.anchorAt 1, by decide +kernel,
      by decide +kernel, fun snapshot hs => ?_⟩
    cases hs
    exact Nat.le_refl 1
  have hrolled : Sample.rolledBackFirst.indexer.passStorage =
      rolledBack Sample.adopted.indexer.passStorage 0 false := by
    decide +kernel
  have hreached : World.Reachable Sample.config (fun _ _ => True) Sample.rolledBackFirst := by
    have hfollows : World.Follows Sample.config (fun _ _ => True) World.initial
        (Sample.adoptFirst ++ [Label.prepare (some 0) []]) := by
      decide +kernel
    exact World.Run.of_follows (.refl _) hfollows
  have hfirst := World.Reachable.ready_iff Sample.config Sample.undigested _ Sample.adopted
    Sample.adoptFirst_reachable
  have hsecond := World.Reachable.ready_iff Sample.config Sample.undigested _ Sample.rolledBackFirst
    hreached
  exact ⟨(hfirst.1 _).mpr hready, hsecond.2 _ 0 false _ hrolled (.refl _)⟩

end Usdb
