import Usdb.Index.PassInvariant

namespace Usdb

open Framework MinerPassStorage InscriptionIndexer

namespace MinerPassState

/-- The states with no way out. -/
def Terminal (s : MinerPassState) : Prop :=
  s = .Consumed ∨ s = .Burned ∨ s = .Invalid

instance : DecidablePred Terminal := fun _ => inferInstanceAs (Decidable (_ ∨ _))

/-- The states a burn does not take out of a terminal one. -/
def Spared (s : MinerPassState) : Prop :=
  s ≠ .Consumed ∧ s ≠ .Invalid

instance : DecidablePred Spared := fun _ => inferInstanceAs (Decidable (_ ∧ _))

theorem MayBecome.of_terminal {a b : MinerPassState} (h : a.MayBecome Spared b)
    (ht : a.Terminal) : b = a := by
  rcases h with rfl | ⟨rfl, -⟩ | ⟨rfl, -⟩ | ⟨rfl, hne⟩
  · rfl
  · rcases ht with h | h | h <;> cases h
  · rcases ht with h | h | h <;> cases h
  · rcases ht with h | h | h
    · exact absurd h hne.1
    · exact h.symm
    · exact absurd h hne.2

end MinerPassState

namespace World

variable {cfg : IndexerConfig} {w w' : World} {l : Label}

/-- No planned event of the block burns a pass that is Consumed or Invalid when its
turn comes. -/
def SparesTerminal (cfg : IndexerConfig) (w : World) : Label → Prop :=
  PlansOnly (BlockEventExecutor.BurnsOnly MinerPassState.Spared) cfg w

instance (cfg : IndexerConfig) (w : World) (l : Label) : Decidable (SparesTerminal cfg w l) :=
  inferInstanceAs (Decidable (PlansOnly _ cfg w l))

theorem Step.passInv_spared (hi : PassInv MinerPassState.Spared cfg w.indexer.passStorage)
    (hc : SparesTerminal cfg w l) (hs : Step cfg w l w') :
    PassInv MinerPassState.Spared cfg w'.indexer.passStorage := by
  rcases hs.quiet_or_block with ⟨hq, -⟩ | ⟨env, balances, faults, t, rfl, -, ⟨run⟩, rfl⟩
  · exact hi.quiet hq
  · have hblock := PassInv.block hi run (hc.planned run)
    exact hblock

end World

/-- Along every run whose burns spare Consumed and Invalid passes, the history of a
pass never leaves a terminal state again. -/
theorem World.Reachable.terminal_absorbing (cfg : IndexerConfig) (w : World)
    (h : World.Reachable cfg (World.SparesTerminal cfg) w) :
    w.indexer.passStorage.passStateHistory.Pairwise (fun a b =>
      a.inscriptionId = b.inscriptionId → a.newState.Terminal → b.newState = a.newState) := by
  have hi := h.induct (P := fun w => PassInv MinerPassState.Spared cfg w.indexer.passStorage)
    PassInv.empty (fun _ _ _ hi hc hs => hs.passInv_spared hi hc)
  exact hi.history.rows.imp (fun hm hid ht => (hm hid).of_terminal ht)

namespace Sample

/-- A transaction that spends an outpoint and pays everything as fee. -/
def burn (txid : Txid) (input : OutPoint) : Transaction where
  txid := txid
  input := [input]
  output := []
  envelopes := []

/-- Owner 7 mints, and mints again with the first pass as `prev`. -/
def mintAndRemint : List Label :=
  [.prepare none [],
   .block (env .empty 1 [payment 1 ⟨0, 0⟩ 7] [mint 1 []]) .empty [],
   .block (env .empty 2 [payment 2 ⟨0, 1⟩ 7] [mint 2 [⟨1, 0⟩]]) .empty []]

/-- Then the inscription of the consumed pass is spent as fee. -/
def burnConsumed : List Label :=
  mintAndRemint ++ [.block (env .empty 3 [burn 3 ⟨1, 0⟩] []) .empty []]

end Sample

/-- A run in which a pass is consumed and stays so. -/
theorem World.Reachable.terminal_absorbing_remint :
    ∃ w, World.Reachable Sample.config (World.SparesTerminal Sample.config) w ∧
      (w.indexer.passStorage.passStateHistory.map (fun r => (r.inscriptionId.txid, r.newState))) =
        [(1, .Active), (1, .Dormant), (2, .Active), (1, .Consumed)] ∧
      w.indexer.passStorage.passStateHistory.Pairwise (fun a b =>
        a.inscriptionId = b.inscriptionId → a.newState.Terminal → b.newState = a.newState) := by
  have hrun : World.Reachable Sample.config (World.SparesTerminal Sample.config)
      (Sample.mintAndRemint.foldl (World.next Sample.config) World.initial) :=
    World.Run.of_follows (.refl _) (by decide +kernel)
  exact ⟨_, hrun, by decide +kernel, World.Reachable.terminal_absorbing _ _ hrun⟩

/-- The burn of a consumed pass takes it out of its terminal state. -/
theorem World.Reachable.consumed_burned :
    ∃ w, World.Reachable Sample.config (fun _ _ => True) w ∧
      ¬w.indexer.passStorage.passStateHistory.Pairwise (fun a b =>
        a.inscriptionId = b.inscriptionId → a.newState.Terminal → b.newState = a.newState) := by
  have hrun : World.Reachable Sample.config (fun _ _ => True)
      (Sample.burnConsumed.foldl (World.next Sample.config) World.initial) :=
    World.Run.of_follows (.refl _) (by decide +kernel)
  exact ⟨_, hrun, by decide +kernel⟩

end Usdb
