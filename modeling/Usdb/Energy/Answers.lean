import Usdb.Energy.Values
import Usdb.Index.RollbackRestores

namespace Usdb

open Framework MinerPassStorage PassEnergyStorage PassEnergyManager InscriptionIndexer

namespace World

variable {cfg : IndexerConfig} {w w' : World} {l : Label} {lowest : Nat → Nat}

/-- No step changes the answers at heights that stay synced. -/
theorem EnergyStep.answers (h : EnergyInv BooksRule.values lowest cfg w)
    (hp : PassInv (fun _ => True) cfg w.indexer.passStorage)
    (admitted : BooksRule.values.Admits cfg w l) (hs : EnergyStep BooksRule.values lowest cfg w l w')
    (id : InscriptionId) {k : Nat} (hk : k ≤ w.height cfg) (hk' : k ≤ w'.height cfg) :
    energyAnswer w'.indexer.energyStorage id k = energyAnswer w.indexer.energyStorage id k := by
  cases hs with
  | quiet l w' carried committed balances below =>
    exact energyAnswer_congr (fun j hj => carried.energy.low id j (Nat.le_trans hj hk'))
  | failed env balances faults w' low log passes committed kept phase =>
    exact LowKept.answers low (BooksRule.values.renew env balances w.balances _ (w.height cfg) _ _
      admitted h.books.ledger) hp.table hp.views id hk
  | durable env balances faults t syncing low run =>
    exact LowKept.answers low (BooksRule.values.renew env balances w.balances _ (w.height cfg) _ _
      admitted h.books.ledger) hp.table hp.views id hk

/-- Every answer up to a durable block is the one given right after it. -/
structure AnswersInv (cfg : IndexerConfig) (lowest : Nat → Nat) (w : World) : Prop where
  energy : EnergyInv BooksRule.values lowest cfg w
  passes : PassInv (fun _ => True) cfg w.indexer.passStorage
  answers : ∀ height c, w.committed height = some c → height ≤ w.height cfg →
    ∀ id k, k ≤ height →
      energyAnswer w.indexer.energyStorage id k = energyAnswer c.energyStorage id k

theorem AnswersInv.initial : AnswersInv cfg lowest World.initial :=
  ⟨.initial, .empty, fun _ _ hc => by cases hc⟩

theorem AnswersInv.step (mono : Monotone lowest) (bound : ∀ h, lowest h ≤ h)
    (h : AnswersInv cfg lowest w) (admitted : BooksRule.values.Admits cfg w l)
    (safe : FailsSafely lowest cfg w l) (hs : Step cfg w l w') : AnswersInv cfg lowest w' := by
  have hstep := Step.energyStep mono bound h.energy h.passes admitted safe hs
  have hanswers := fun id k => hstep.answers h.energy h.passes admitted id (k := k)
  refine ⟨hstep.inv bound h.energy h.passes admitted, hs.passInv h.passes, ?_⟩
  intro height c hc hle id k hk
  cases hstep with
  | quiet l w' carried committed balances below =>
    have hlower := currentHeight_quiet carried.passes
    have hold : height ≤ w.height cfg := Nat.le_trans hle hlower
    rw [committed] at hc
    rw [hanswers id k (Nat.le_trans hk hold) (Nat.le_trans hk hle)]
    exact h.answers height c hc hold id k hk
  | failed env balances faults w' low log passes committed kept phase =>
    have hheight : w'.height cfg = w.height cfg := congrArg (currentHeight cfg) passes
    rw [committed] at hc
    rw [hheight] at hle
    rw [hanswers id k (Nat.le_trans hk hle) (by rw [hheight]; exact Nat.le_trans hk hle)]
    exact h.answers height c hc hle id k hk
  | durable env balances faults t syncing low run =>
    simp only [committing] at hc
    split at hc
    · cases hc
      rfl
    · rename_i hne
      obtain ⟨run⟩ := run
      have hheight : (w.committing (w.height cfg + 1) env.blockHint balances t).height cfg =
          w.height cfg + 1 := run.currentHeight_eq
      rw [hheight] at hle
      have hold : height ≤ w.height cfg := by omega
      rw [hanswers id k (Nat.le_trans hk hold) (by rw [hheight]; omega)]
      exact h.answers height c hc hold id k hk

end World

/-- The blocks are served from a history that keeps its past, and no block attempt fails
past its energy finalize before a synced height at least as high as the one `sync_once`
starts from is recorded. -/
def World.RecoversEnergy (cfg : IndexerConfig) (w : World) (l : Label) : Prop :=
  BooksRule.values.Admits cfg w l ∧ FailsSafely id cfg w l

/-- Range queries answer from the range asked for, and no block attempt fails past its energy
finalize before a high enough synced height is recorded. -/
def World.RecoversBooks (cfg : IndexerConfig) (w : World) (l : Label) : Prop :=
  BooksRule.states.Admits cfg w l ∧ FailsSafely id cfg w l

/-- A history that serves the blocks answers from the range asked for. -/
theorem World.RecoversEnergy.books {cfg : IndexerConfig} {w : World} {l : Label}
    (h : World.RecoversEnergy cfg w l) : World.RecoversBooks cfg w l := by
  refine ⟨?_, h.2⟩
  cases l with
  | block env balances faults => exact (BooksRule.values.served _ _ _ _ _ h.1).inRange
  | prepare rollbackTarget faults => trivial
  | finish snapshot stateRefAtHeight faults => trivial
  | restart faults => trivial

/-- In every world such a run reaches, after a failed block attempt as well, the energy
reconciliation at the height `sync_once` computes succeeds, leaves no record above the
recorded synced height, and answers as right after the last durable block. -/
theorem World.Reachable.energy_recovers (cfg : IndexerConfig) (w : World)
    (h : World.Reachable cfg (World.RecoversEnergy cfg) w) :
    ∃ t, reconcileWithPassSyncedHeight (w.height cfg) (w.indexer.withFaults []) = .ok () t ∧
      t.energyStorage.RecordsBelow (w.indexer.passStorage.syncedBtcBlockHeight.getD 0) ∧
      ∀ c, w.committed (w.height cfg) = some c → ∀ id k, k ≤ w.height cfg →
        energyAnswer t.energyStorage id k = energyAnswer c.energyStorage id k := by
  have hinv := h.induct (P := World.AnswersInv cfg id) World.AnswersInv.initial
    (fun _ _ _ hi hc hs => hi.step monotone_id (fun _ => Nat.le_refl _) hc.1 hc.2 hs)
  have hbooks := hinv.energy.books
  have hrec : Recoverable (w.height cfg) (w.height cfg) w.indexer.energyStorage
      (w.indexer.withFaults []).energyStorage := .refl hbooks.bound hbooks.pending hbooks.synced
  have hclear : ∀ i k, w.height cfg < k → k ≤ w.height cfg →
      w.indexer.energyStorage.getPassEnergyRecord i k = none :=
    fun i k hlt hle => absurd hlt (Nat.not_lt.mpr hle)
  obtain ⟨t, ht, -⟩ := reconcileWithPassSyncedHeight_total rfl hrec.bound hrec.synced
  have hkept := (reconcileWithPassSyncedHeight_keeps (Nat.le_refl _) hclear).ok hrec ht
  have hbelow := (reconcileWithPassSyncedHeight_ok hrec.bound ht).1
  refine ⟨t, ht, ?_, fun c hc id k hk => ?_⟩
  · cases hs : w.indexer.passStorage.syncedBtcBlockHeight with
    | some k =>
      have hheight : w.height cfg = k := hinv.energy.synced.currentHeight_eq hs
      rw [← hheight]
      exact hbelow
    | none =>
      intro r hr
      have hget := getPassEnergyRecord_of_mem hr
      have hle := hbelow r hr
      rw [hkept.low _ _ hle, hbooks.ledger.absent _ ?_ _ hle] at hget
      · exact absurd rfl hget
      · unfold getPassByInscriptionId
        rw [hinv.energy.synced.empty hs]
        rfl
  · rw [energyAnswer_congr (fun j hj => hkept.low id j (Nat.le_trans hj hk))]
    exact hinv.answers _ c hc (Nat.le_refl _) id k hk

namespace Sample

/-- A block whose upstream commit is not available. -/
def withoutCommit (env : BlockEnv) : BlockEnv := { env with upstreamCommit := none }

/-- Owner 7 mints in block 1, and block 2 fails after its energy finalize. -/
def failSecond : List Label :=
  [.prepare none [],
   .block (env funded 1 [payment 1 ⟨0, 0⟩ 7] [mint 1 []]) funded [],
   .block (withoutCommit (env funded 2 [] [])) funded []]

def lateConfig : IndexerConfig := { config with
  genesisBlockHeight := 2
  genesisBlockHeight_pos := by decide }

/-- The very first block fails after its energy finalize. -/
def failFirst : List Label :=
  [.prepare none [], .block (withoutCommit (env .empty 2 [] [])) .empty []]

end Sample

/-- After a failed second block the reconciliation goes through. -/
theorem World.Reachable.energy_recovers_second :
    ∃ w, World.Reachable Sample.config (World.RecoversEnergy Sample.config) w ∧
      w.phase = .idle ∧ w.height Sample.config = 1 ∧
      ∃ t, reconcileWithPassSyncedHeight 1 (w.indexer.withFaults []) = .ok () t ∧
        t.energyStorage.RecordsBelow 1 := by
  have hfollows : World.Follows Sample.config (fun _ _ => True) World.initial
      Sample.failSecond := by decide +kernel
  have hserved : ∀ l ∈ Sample.failSecond, World.ServedBy Sample.funded l := by
    intro l hl
    simp only [Sample.failSecond, List.mem_cons, List.not_mem_nil, or_false] at hl
    rcases hl with rfl | rfl | rfl
    · trivial
    all_goals exact ⟨rfl, rfl⟩
  obtain ⟨e₁, a₁, e₂, a₂, e₃, a₃, -⟩ := hfollows.values hserved (.inl rfl)
  have hrun : World.Reachable Sample.config (World.RecoversEnergy Sample.config)
      (Sample.failSecond.foldl (World.next Sample.config) World.initial) :=
    World.Run.of_follows (.refl _) ⟨e₁, ⟨a₁, trivial⟩, e₂, ⟨a₂, fun _ _ => by decide +kernel⟩, e₃,
      ⟨a₃, fun _ _ => by decide +kernel⟩, trivial⟩
  obtain ⟨t, ht, hbelow, -⟩ := World.Reachable.energy_recovers Sample.config _ hrun
  refine ⟨_, hrun, by decide +kernel, by decide +kernel, t, ?_, ?_⟩
  · rw [← ht]
    congr 1
  · have hsynced : (Sample.failSecond.foldl (World.next Sample.config)
        World.initial).indexer.passStorage.syncedBtcBlockHeight.getD 0 = 1 := by decide +kernel
    rw [hsynced] at hbelow
    exact hbelow

/-- With genesis 2, a first block that fails after its energy finalize leaves a synced
marker below the height the next round reconciles at, and that reconciliation fails. -/
theorem World.Reachable.energy_first_block_stuck :
    ∃ w, World.Reachable Sample.lateConfig (BooksRule.values.Admits Sample.lateConfig) w ∧
      w.phase = .idle ∧ w.height Sample.lateConfig = 1 ∧
      ∃ t, reconcileWithPassSyncedHeight (w.height Sample.lateConfig) (w.indexer.withFaults []) =
        .error (.energyBehindPass 0 1) t := by
  have hfollows : World.Follows Sample.lateConfig (fun _ _ => True) World.initial
      Sample.failFirst := by decide +kernel
  have hserved : ∀ l ∈ Sample.failFirst, World.ServedBy .empty l := by
    intro l hl
    simp only [Sample.failFirst, List.mem_cons, List.not_mem_nil, or_false] at hl
    rcases hl with rfl | rfl
    · trivial
    · exact ⟨rfl, rfl⟩
  have hrun : World.Reachable Sample.lateConfig (BooksRule.values.Admits Sample.lateConfig)
      (Sample.failFirst.foldl (World.next Sample.lateConfig) World.initial) :=
    World.Run.of_follows (.refl _) (hfollows.values hserved (.inl rfl))
  exact ⟨_, hrun, by decide +kernel, by decide +kernel, _, rfl⟩

end Usdb
