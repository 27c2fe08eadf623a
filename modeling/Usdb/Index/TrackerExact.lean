import Usdb.Index.FailedAttempts

namespace Usdb

open Framework MinerPassStorage InscriptionTransferTracker InscriptionIndexer

/-- The states in which a pass can be used or sold. -/
def MinerPassState.Live (state : MinerPassState) : Prop := state = .Active ∨ state = .Dormant

theorem MinerPassState.Live.listed {state : MinerPassState} (h : state.Live)
    (loaded : Option MinerPassState) : state.Listed loaded := by
  rcases h with rfl | rfl <;> trivial

/-- The tracker lists the live passes with the owner and at the satpoint of their rows, and
lists them nowhere else. -/
theorem Tracks.live {loaded : InscriptionId → Option MinerPassState} {ps : MinerPassStorage}
    {m : MultiMap} (h : Tracks loaded ps m) (hn : (ps.minerPasses.map (·.inscriptionId)).Nodup)
    (k : OutPoint) (v : ValidMinerPassInfo) :
    (v ∈ m k ∧ ∃ p ∈ ps.minerPasses, p.inscriptionId = v.inscriptionId ∧ p.state.Live) ↔
      ∃ p ∈ ps.minerPasses, p.state.Live ∧ p.entry = v ∧ p.satpoint.outpoint = k := by
  rw [h.mem_iff hn]
  constructor
  · rintro ⟨⟨p, hp, hentry, hk, -⟩, q, hq, hid, hlive⟩
    have hpid : p.inscriptionId = v.inscriptionId :=
      congrArg ValidMinerPassInfo.inscriptionId hentry
    have hpq : p = q := List.inj_on_of_nodup_map hn hp hq (hpid.trans hid.symm)
    exact ⟨p, hp, hpq ▸ hlive, hentry, hk⟩
  · rintro ⟨p, hp, hlive, rfl, rfl⟩
    exact ⟨⟨p, hp, rfl, rfl, hlive.listed _⟩, p, hp, rfl, hlive⟩

namespace World

variable {cfg : IndexerConfig} {w w' : World} {l : Label}

/-- An attempt that did not fail, unless by the end of the process. -/
def SucceedsOrEnds (result : EStateM.Result IndexerError IndexerState Unit) : Prop :=
  match result with
  | .ok _ _ => True
  | .error e _ => e = .panic

instance (result : EStateM.Result IndexerError IndexerState Unit) :
    Decidable (SucceedsOrEnds result) :=
  match result with
  | .ok _ _ => .isTrue trivial
  | .error e _ => inferInstanceAs (Decidable (e = .panic))

def NoFailedAttempt (cfg : IndexerConfig) (w : World) : Label → Prop
  | .block env _ faults =>
    SucceedsOrEnds (syncBlockDurably cfg env (w.height cfg + 1) (w.indexer.withFaults faults))
  | _ => True

instance (cfg : IndexerConfig) (w : World) (l : Label) : Decidable (NoFailedAttempt cfg w l) :=
  match l with
  | .block _ _ _ => inferInstanceAs (Decidable (SucceedsOrEnds _))
  | .prepare _ _ => .isTrue trivial
  | .finish _ _ _ => .isTrue trivial
  | .restart _ => .isTrue trivial

theorem NoFailedAttempt.publishesLast (h : NoFailedAttempt cfg w l) : PublishesLast cfg w l := by
  cases l with
  | block env balances faults =>
    unfold NoFailedAttempt at h
    unfold PublishesLast EndsPublished
    dsimp only at h ⊢
    split
    · rename_i heq
      rw [heq] at h
      exact h
    · trivial
  | _ => trivial

/-- After every block that becomes durable, in a run in which no block attempt fails, the
tracker has for the Active and Dormant passes the inscriptions, owners and satpoints of the
pass table, and no others. -/
theorem Reachable.tracker_exact (cfg : IndexerConfig) (w : World) (env : BlockEnv)
    (balances : BalanceHistory) (faults : List IoResult)
    (h : Reachable cfg (fun w l => WellFormedBlock l ∧ NoFailedAttempt cfg w l) w)
    (enabled : Enabled cfg w (.block env balances faults))
    (hwf : WellFormedBlock (.block env balances faults)) (t : IndexerState) (u : Unit)
    (hblock : syncBlockDurably cfg env (w.height cfg + 1) (w.indexer.withFaults faults) = .ok u t)
    (k : OutPoint) (v : ValidMinerPassInfo) :
    (v ∈ t.inscriptions k ∧ ∃ p ∈ t.passStorage.minerPasses,
        p.inscriptionId = v.inscriptionId ∧ p.state.Live) ↔
      ∃ p ∈ t.passStorage.minerPasses, p.state.Live ∧ p.entry = v ∧ p.satpoint.outpoint = k := by
  have hlast : NoFailedAttempt cfg w (.block env balances faults) := by
    unfold NoFailedAttempt
    dsimp only
    rw [hblock]
    trivial
  have hafter : Reachable cfg (fun w l => WellFormedBlock l ∧ NoFailedAttempt cfg w l)
      (next cfg w (.block env balances faults)) := h.step ⟨hwf, hlast⟩ ⟨enabled, rfl⟩
  have hi := hafter.trackerInv (fun _ _ hcond => ⟨hcond.1, hcond.2.publishesLast⟩)
  have hnext : next cfg w (.block env balances faults) =
      (w.settle (.ok u t) .syncing .idle).recordBlock (w.height cfg + 1) env.blockHint balances
        (.ok u t) := by
    simp only [next, hblock]
  rw [hnext] at hi
  have htracking := hi.tracking (show Phase.syncing ≠ .crashed by decide)
  obtain ⟨loaded, htracks⟩ := htracking.tracks (hi.ready rfl)
  exact htracks.live htracking.unique k v

end World

namespace Sample

/-- The pass goes to owner 8 and, in the same block, on to owner 9. -/
def chainedMoves : BlockEnv := env .empty 2 [payment 2 ⟨1, 0⟩ 8, payment 3 ⟨2, 0⟩ 9] []

theorem mintedOnce_noFailedAttempt : World.Reachable config (fun w l =>
    World.WellFormedBlock l ∧ World.NoFailedAttempt config w l) mintedOnce :=
  World.Run.of_follows (.refl _) (by decide +kernel)

end Sample

/-- After both moves the tracker has the pass with owner 9, as the pass table does. -/
theorem World.Reachable.tracker_exact_chained :
    ∃ t, syncBlockDurably Sample.config Sample.chainedMoves (Sample.mintedOnce.height Sample.config + 1)
        (Sample.mintedOnce.indexer.withFaults []) = .ok () t ∧
      t.passStorage.minerPasses.map (fun p => (p.owner, p.satpoint)) = [(9, ⟨⟨3, 0⟩, 0⟩)] ∧
      ⟨⟨1, 0⟩, 9, ⟨⟨3, 0⟩, 0⟩⟩ ∈ t.inscriptions ⟨3, 0⟩ := by
  have hphase : (World.next Sample.config Sample.mintedOnce
      (.block Sample.chainedMoves .empty [])).phase = .syncing := by decide +kernel
  have hrow : ((World.next Sample.config Sample.mintedOnce
      (.block Sample.chainedMoves .empty [])).indexer.passStorage.minerPasses.map
        (fun p => (p.state, p.entry))) = [(.Dormant, ⟨⟨1, 0⟩, 9, ⟨⟨3, 0⟩, 0⟩⟩)] := by decide +kernel
  cases hblock : syncBlockDurably Sample.config Sample.chainedMoves
      (Sample.mintedOnce.height Sample.config + 1) (Sample.mintedOnce.indexer.withFaults []) with
  | error e t =>
    simp only [World.next, hblock] at hphase
    cases e <;> cases hphase
  | ok u t =>
    simp only [World.next, hblock] at hrow
    change t.passStorage.minerPasses.map _ = _ at hrow
    obtain ⟨p, hp, hone⟩ := List.map_eq_singleton_iff.mp hrow
    obtain ⟨hstate, hentry⟩ := Prod.mk.inj hone
    have hexact := World.Reachable.tracker_exact Sample.config Sample.mintedOnce Sample.chainedMoves
      .empty [] Sample.mintedOnce_noFailedAttempt (by decide +kernel) (by decide +kernel) t u hblock
      ⟨3, 0⟩ ⟨⟨1, 0⟩, 9, ⟨⟨3, 0⟩, 0⟩⟩
    have howner : p.owner = 9 := congrArg ValidMinerPassInfo.owner hentry
    have hsat : p.satpoint = ⟨⟨3, 0⟩, 0⟩ := congrArg ValidMinerPassInfo.satpoint hentry
    refine ⟨t, rfl, ?_, (hexact.mpr ⟨p, ?_, .inr hstate, hentry, ?_⟩).1⟩
    · rw [hp, List.map_singleton, howner, hsat]
    · rw [hp]
      exact List.mem_singleton_self p
    · rw [hsat]

end Usdb
