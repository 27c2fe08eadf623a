import Usdb.Index.RollbackRestores
import Usdb.Index.SyncWrites
import Usdb.Service.StateRef

namespace Usdb

open Framework MinerPassStorage InscriptionIndexer UsdbIndexerRpcServer

/-- The state refs served while the snapshot history is filled in are those of the heights
asked for. -/
def Label.ServesRefs : Label → Prop
  | .finish _ refs _ => ∀ k, (refs k).stableHeight = k
  | _ => True

/-- A snapshot adopted at a height is the given one. -/
def Label.Adopts (height : Nat) (adopted : Option BalanceHistorySnapshotAnchor) : Label → Prop
  | .finish snapshot _ _ => snapshot.stableHeight = height →
      ∀ anchor, snapshotAnchor snapshot = .ok anchor → adopted = some anchor
  | _ => True

namespace MinerPassStorage

variable {ps ps' : MinerPassStorage} {snapshot : BalanceHistorySnapshotInfo} {height : Nat}
  {anchor : BalanceHistorySnapshotAnchor}

theorem snapshotAnchor_stableHeight (h : snapshotAnchor snapshot = .ok anchor) :
    anchor.stableHeight = snapshot.stableHeight := by
  unfold snapshotAnchor at h
  split at h
  · cases h
  · cases h
  · cases h
    rfl

/-- An adopted snapshot becomes the anchor and the row of its height. -/
theorem upsertBalanceHistorySnapshotAnchor_ok
    (h : ps.upsertBalanceHistorySnapshotAnchor snapshot = .ok ps') :
    ∃ anchor, snapshotAnchor snapshot = .ok anchor ∧
      ps'.balanceHistorySnapshotAnchor = some anchor ∧
      ps'.syncedBtcBlockHeight = some snapshot.stableHeight ∧
      ∀ k, ps'.getBalanceHistorySnapshotAnchorAtHeight k =
        if k = snapshot.stableHeight then some anchor
        else ps.getBalanceHistorySnapshotAnchorAtHeight k := by
  obtain ⟨anchor, ha, h⟩ := bind_eq_ok_iff.mp h
  cases h
  refine ⟨anchor, ha, rfl, rfl, fun k => ?_⟩
  rw [← snapshotAnchor_stableHeight ha]
  exact lookup_upsert _ _ _ _

theorem upsertBalanceHistorySnapshotHistoryEntry_ok
    (h : ps.upsertBalanceHistorySnapshotHistoryEntry snapshot = .ok ps') :
    ∃ anchor, ps'.balanceHistorySnapshotAnchor = ps.balanceHistorySnapshotAnchor ∧
      ∀ k, ps'.getBalanceHistorySnapshotAnchorAtHeight k =
        if k = snapshot.stableHeight then some anchor
        else ps.getBalanceHistorySnapshotAnchorAtHeight k := by
  obtain ⟨anchor, ha, h⟩ := bind_eq_ok_iff.mp h
  cases h
  refine ⟨anchor, rfl, fun k => ?_⟩
  rw [← snapshotAnchor_stableHeight ha]
  exact lookup_upsert _ _ _ _

theorem getBalanceHistorySnapshotAnchorAtHeight_rolledBack {target : Nat} {mark : Bool}
    (h : height ≤ target) :
    (ps.rolledBack target mark).getBalanceHistorySnapshotAnchorAtHeight height =
      ps.getBalanceHistorySnapshotAnchorAtHeight height := by
  refine lookup_filter_of_key _ _ _ _ (fun r hr => ?_)
  simpa [hr] using h

end MinerPassStorage

namespace World

variable {cfg : IndexerConfig} {v w w' : World} {l : Label}

/-- The snapshot row of a height stays as long as the height is not rolled back, if what is
adopted there again is the same. -/
theorem Step.snapshotRow {height : Nat} {anchor : BalanceHistorySnapshotAnchor}
    (hs : Step cfg w l w') (hrefs : l.ServesRefs) (hadopts : l.Adopts height (some anchor))
    (hle : height ≤ w'.height cfg)
    (h : w.indexer.passStorage.getBalanceHistorySnapshotAnchorAtHeight height = some anchor) :
    w'.indexer.passStorage.getBalanceHistorySnapshotAnchorAtHeight height = some anchor := by
  -- A rollback below the height leaves the height it went to, which the step ends with.
  have hkept : w'.indexer.passStorage.getBalanceHistorySnapshotAnchorAtHeight height =
      some anchor ∨ w'.height cfg < height := by
    refine hs.keepsPass (I := fun ps =>
      ps.getBalanceHistorySnapshotAnchorAtHeight height = some anchor ∨
        (currentHeight cfg ps < height ∧ ∃ faults,
          l = .prepare (some (currentHeight cfg ps)) faults)) ?_ ?_ ?_ ?_ ?_ (.inl h) |>.imp id
      (fun hlow => hlow.1)
    · intro ps hps
      exact hps
    · intro ps target faults hl hps
      subst hl
      have hlower : cfg.genesisBlockHeight - 1 ≤ target := hs.1.2.2.1
      rcases Nat.lt_or_ge target height with hlt | hge
      · refine .inr ⟨?_, faults, ?_⟩
        · rw [currentHeight_rolledBack hlower]
          exact hlt
        · rw [currentHeight_rolledBack hlower]
      · refine .inl ?_
        rw [getBalanceHistorySnapshotAnchorAtHeight_rolledBack hge]
        rcases hps with hrow | ⟨hlt, _, heq⟩
        · exact hrow
        · cases heq
          exact absurd hge (Nat.not_le.mpr hlt)
    · intro ps ps' env balances faults hl hanchor hhistory hps
      subst hl
      rcases hps with hrow | ⟨-, _, heq⟩
      · refine .inl ?_
        rw [← hrow]
        unfold getBalanceHistorySnapshotAnchorAtHeight
        rw [hhistory]
      · cases heq
    · intro ps ps' snapshot refs faults hl hheight hps hup
      subst hl
      rcases hps with hrow | ⟨-, _, heq⟩
      · obtain ⟨adopted, hadopted, -, -, hrows⟩ := upsertBalanceHistorySnapshotAnchor_ok hup
        refine .inl ?_
        rw [hrows]
        split
        · rename_i heq
          exact (hadopts heq.symm adopted hadopted).symm
        · exact hrow
      · cases heq
    · intro ps ps' snapshot refs faults k hl hps hnone hup
      subst hl
      rcases hps with hrow | ⟨-, _, heq⟩
      · obtain ⟨row, -, hrows⟩ := upsertBalanceHistorySnapshotHistoryEntry_ok hup
        have hne : height ≠ (refs k).stableHeight := by
          intro heq
          rw [heq, hrefs k, hnone] at hrow
          cases hrow
        refine .inl ?_
        rw [hrows, if_neg hne]
        exact hrow
      · cases heq
  exact hkept.resolve_right (Nat.not_lt.mpr hle)

/-- A block recorded for a height stays recorded while the height is not rolled back. -/
theorem Step.committed_kept {height : Nat} (hs : Step cfg w l w') (hle : height ≤ w.height cfg) :
    w'.committed height = w.committed height := by
  rcases hs.quiet_or_block with ⟨-, -, hc, -⟩ | ⟨env, balances, faults, t, -, -, -, rfl⟩
  · rw [hc]
  · have hne : height ≠ w.height cfg + 1 := by omega
    simp only [committing, if_neg hne]

/-- What the later world of a run has kept of a height. -/
structure Kept (cfg : IndexerConfig) (height : Nat) (anchor : BalanceHistorySnapshotAnchor)
    (v w : World) : Prop where
  height_le : height ≤ w.height cfg
  row : w.indexer.passStorage.getBalanceHistorySnapshotAnchorAtHeight height = some anchor
  committed : w.committed height = v.committed height
  record : RecordInv cfg w
  inv : PassInv (fun _ => True) cfg w.indexer.passStorage

theorem Kept.step {height : Nat} {anchor : BalanceHistorySnapshotAnchor}
    (h : Kept cfg height anchor v w) (hs : Step cfg w l w') (hrefs : l.ServesRefs)
    (hadopts : l.Adopts height (some anchor)) (hle : height ≤ w'.height cfg) :
    Kept cfg height anchor v w' where
  height_le := hle
  row := hs.snapshotRow hrefs hadopts hle h.row
  committed := (hs.committed_kept h.height_le).trans h.committed
  record := h.record.step h.inv hs
  inv := hs.passInv h.inv

end World

namespace UsdbIndexerRpcServer

variable {cfg : IndexerConfig} {identity : IdentityConfig} {ps : MinerPassStorage}

end UsdbIndexerRpcServer

namespace ReportsState

variable {cfg : IndexerConfig} {identity : IdentityConfig} {ps ps' : MinerPassStorage}
  {report : HistoricalStateRefInfo}

end ReportsState

namespace Sample

/-- The first three blocks of the chain. -/
def stableBlockHash (height : Nat) : String :=
  if height = 1 then "00000000839a8e6886ab5951d76f411475428afc90947ee320161bbf18eb6048"
  else if height = 2 then "000000006a625f06636b8bb6ac7b960a8d03705d1ace08b1a19da3fdcc99ddbd"
  else "0000000082b5015589a3fdf2d4baff403e6f0be035a5d9742c1cae6295464449"

def stableAt (height : Nat) : BalanceHistorySnapshotInfo :=
  { snapshotAt height with stableBlockHash := some (stableBlockHash height) }

def anchorAt (height : Nat) : BalanceHistorySnapshotAnchor where
  stableHeight := height
  stableBlockHash := stableBlockHash height
  latestBlockCommit := ""
  stableLag := 0
  commitProtocolVersion := ""
  commitHashAlgo := ""

/-- The first block is indexed and its snapshot adopted. -/
def adoptFirst : List Label :=
  [.prepare none [], .block (env .empty 1 [] []) .empty [], .finish (stableAt 1) stableAt []]

/-- A node without a digest, which is enough to say what is hashed. -/
def undigested : IdentityConfig where
  network := "bitcoin"
  sha256 := fun _ => []

def firstLocalState (upstreamSnapshotId : String) : LocalStateCommitIdentity where
  upstreamSnapshotId := upstreamSnapshotId
  localSyncedBlockHeight := 1
  latestPassBlockCommit := some ⟨1, "", "1.0.0", "sha256"⟩
  latestActiveBalanceSnapshot := some ⟨1, 0, 0⟩
  usdbIndexProtocolVersion := "1.0.0"

def firstSystemState : SystemStateIdentity where
  upstreamSnapshotId := "08d09815f98db494ac8b46159e79e4ed8138c093c90aa39cd7dfd76ffd32c37c"
  localStateCommit := "b9eacda989288db6e091972724b6a1e8eabe4f369833a912b3225b48033586c7"

/-- The digests of the snapshots at the first two heights and of the state at the first. -/
def stateDigests : List (List UInt8 × List UInt8) :=
  [((snapshotInfo undigested 1 (anchorAt 1)).consensusIdentity.preimage,
      [8, 208, 152, 21, 249, 141, 180, 148, 172, 139, 70, 21, 158, 121, 228, 237, 129, 56, 192, 147,
        201, 10, 163, 156, 215, 223, 215, 111, 253, 50, 195, 124]),
    ((snapshotInfo undigested 2 (anchorAt 2)).consensusIdentity.preimage,
      [182, 233, 37, 27, 25, 159, 138, 81, 166, 20, 149, 21, 172, 66, 13, 65, 60, 220, 57, 89, 229,
        135, 217, 210, 149, 99, 194, 123, 29, 209, 99, 91]),
    ((firstLocalState firstSystemState.upstreamSnapshotId).preimage,
      [185, 234, 205, 169, 137, 40, 141, 182, 224, 145, 151, 39, 36, 182, 161, 232, 234, 190, 79, 54,
        152, 51, 169, 18, 179, 34, 91, 72, 3, 53, 134, 199]),
    (firstSystemState.preimage,
      [81, 90, 201, 70, 108, 63, 188, 186, 150, 100, 209, 178, 100, 56, 163, 0, 200, 136, 50, 117,
        121, 71, 188, 234, 121, 97, 162, 49, 40, 103, 131, 72])]

def identity : IdentityConfig where
  network := "bitcoin"
  sha256 := tabulated stateDigests

theorem adoptFirst_reachable : World.Reachable config (fun _ l => l.ServesRefs)
    (adoptFirst.foldl (World.next config) World.initial) :=
  World.Run.of_follows (.refl _)
    ⟨by decide +kernel, trivial, by decide +kernel, trivial, by decide +kernel, fun _ => rfl, trivial⟩

end Sample

end Usdb
