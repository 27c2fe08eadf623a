import Usdb.Storage.PassQueries
import Usdb.Energy.Answers

namespace Usdb

open Framework MinerPassStorage PassEnergyManager InscriptionIndexer

/-- The queries pinned at a height have the same answers in two states. -/
structure PinnedAlike (height : Nat) (s t : IndexerState) : Prop where
  last : ∀ id, t.passStorage.getLastPassHistoryAtOrBeforeHeight id height =
    s.passStorage.getLastPassHistoryAtOrBeforeHeight id height
  pages : ∀ index size states,
    t.passStorage.getPassesByPageFromHistoryAtHeightByStates index size height states =
      s.passStorage.getPassesByPageFromHistoryAtHeightByStates index size height states
  counts : ∀ states, t.passStorage.getPassCountFromHistoryAtHeightByStates height states =
    s.passStorage.getPassCountFromHistoryAtHeightByStates height states
  stats : t.passStorage.getPassStateStatsFromHistoryAtHeight height =
    s.passStorage.getPassStateStatsFromHistoryAtHeight height
  energy : ∀ id, energyAnswer t.energyStorage id height = energyAnswer s.energyStorage id height

namespace PinnedAlike

variable {height : Nat} {s t r : IndexerState}

theorem of_history (hh : t.passStorage.historyUpTo height = s.passStorage.historyUpTo height)
    (he : ∀ id, energyAnswer t.energyStorage id height = energyAnswer s.energyStorage id height) :
    PinnedAlike height s t :=
  ⟨getLastPassHistory_congr hh, getPassesByPage_congr hh, getPassCount_congr hh,
    getPassStateStats_congr hh, he⟩

end PinnedAlike

theorem historyUpTo_quiet {cfg : IndexerConfig} {ps ps' : MinerPassStorage} {k : Nat}
    (h : QuietReach cfg ps ps') (hk : k ≤ currentHeight cfg ps') :
    ps'.historyUpTo k = ps.historyUpTo k := by
  induction h with
  | refl => rfl
  | tail _ hstep ih =>
    have hbefore := Nat.le_trans hk (currentHeight_quiet (.single hstep))
    rw [← ih hbefore]
    cases hstep with
    | cleared => rfl
    | rolledBack target lower upper constraints =>
      rw [currentHeight_rolledBack lower] at hk
      exact historyUpTo_rolledBack _ true hk
    | adopted anchor genesis => rfl
    | backfilled anchor => rfl

namespace World

variable {cfg : IndexerConfig} {w w' : World} {l : Label} {lowest : Nat → Nat} {k : Nat}

/-- No step changes what was recorded up to a height that stays synced. -/
theorem Step.historyUpTo (hs : Step cfg w l w') (hk : k ≤ w.height cfg) (hk' : k ≤ w'.height cfg) :
    w'.indexer.passStorage.historyUpTo k = w.indexer.passStorage.historyUpTo k := by
  rcases hs.quiet_or_block with ⟨hq, -⟩ | ⟨env, balances, faults, t, -, -, ⟨run⟩, rfl⟩
  · exact historyUpTo_quiet hq hk'
  · have hreach : PassReach (fun _ => True) (w.height cfg + 1) w.indexer.passStorage
        run.minted.passStorage := run.minted_reach (BlockEventExecutor.eventsSatisfy_of_forall
          BlockEventExecutor.burnsOnly_true _ _)
    have hkept := hreach.historyUpTo (Nat.lt_succ_of_le hk)
    show t.passStorage.historyUpTo k = _
    rw [run.passStorage_final]
    exact hkept

/-- The blocks are served from a history that keeps its past, and the synced height stays at
or above a height. -/
def StaysAbove (height : Nat) (cfg : IndexerConfig) (w : World) (l : Label) : Prop :=
  BooksRule.values.Admits cfg w l ∧ height ≤ (next cfg w l).height cfg

end World

/-- Whatever a run does after a height is synced, as long as it does not roll back below it,
the queries pinned at the height keep their answers. -/
theorem World.Run.pinned_queries (cfg : IndexerConfig) (height : Nat) (w w' : World)
    (hw : World.Reachable cfg (BooksRule.values.Admits cfg) w) (hh : height ≤ w.height cfg)
    (run : World.Run cfg (World.StaysAbove height cfg) w w') :
    PinnedAlike height w.indexer w'.indexer := by
  have hbound : ∀ k : Nat, (fun _ => 0 : Nat → Nat) k ≤ k := fun k => Nat.zero_le k
  have henergy : EnergyInv BooksRule.values (fun _ => 0) cfg w :=
    hw.energyInv monotone_const hbound (fun w l hc => ⟨hc, World.failsSafely_zero cfg w l⟩)
  have hkept : EnergyInv BooksRule.values (fun _ => 0) cfg w' ∧
      PassInv (fun _ => True) cfg w'.indexer.passStorage ∧ height ≤ w'.height cfg ∧
      w'.indexer.passStorage.historyUpTo height = w.indexer.passStorage.historyUpTo height ∧
      ∀ id, energyAnswer w'.indexer.energyStorage id height =
        energyAnswer w.indexer.energyStorage id height := by
    induction run with
    | refl => exact ⟨henergy, hw.passInv, hh, rfl, fun _ => rfl⟩
    | @step v v' l run holds hs ih =>
      obtain ⟨hinv, hpasses, hbefore, hhistory, hanswers⟩ := ih
      have hafter : height ≤ v'.height cfg := by
        rw [hs.2]
        exact holds.2
      have hstep := World.Step.energyStep monotone_const hbound hinv hpasses holds.1
        (World.failsSafely_zero cfg _ _) hs
      refine ⟨hstep.inv hbound hinv hpasses holds.1, hs.passInv hpasses, hafter, ?_, fun id => ?_⟩
      · rw [hs.historyUpTo hbefore hafter, hhistory]
      · rw [hstep.answers hinv hpasses holds.1 id hbefore hafter, hanswers id]
  exact .of_history hkept.2.2.2.1 hkept.2.2.2.2

namespace Sample

/-- Owner 7 mints. -/
def mintBlock : Label := .block (env funded 1 [payment 1 ⟨0, 0⟩ 7] [mint 1 []]) funded []

/-- The pass is sent to owner 8. -/
def sendBlock : Label := .block (env funded 2 [payment 2 ⟨1, 0⟩ 8] []) funded []

theorem mintAndSend_served :
    ∀ l ∈ [.prepare none [], mintBlock, sendBlock], World.ServedBy funded l := by
  intro l hl
  simp only [List.mem_cons, List.not_mem_nil, or_false] at hl
  rcases hl with rfl | rfl | rfl
  · trivial
  · exact ⟨rfl, rfl⟩
  · exact ⟨rfl, rfl⟩

/-- The world after the mint. -/
def minted : World := World.next config (World.next config World.initial (.prepare none [])) mintBlock

end Sample

/-- The pass is Dormant after block 2, and at block 1 it is still seen as Active. -/
theorem World.Run.pinned_queries_send :
    ∃ w w', World.Run Sample.config (World.StaysAbove 1 Sample.config) w w' ∧
      w'.indexer.passStorage.minerPasses.map (·.state) = [.Dormant] ∧
      (w'.indexer.passStorage.getPassStateStatsFromHistoryAtHeight 1).activeCount = 1 ∧
      PinnedAlike 1 w.indexer w'.indexer := by
  have hfollows : World.Follows Sample.config (fun _ _ => True) World.initial
      [.prepare none [], Sample.mintBlock, Sample.sendBlock] := by decide +kernel
  have hvalues := hfollows.values Sample.mintAndSend_served (.inl rfl)
  obtain ⟨hprepare, hadmits₁, hblock₁, hadmits₂, hblock₂, hadmits₃, -⟩ := hvalues
  have hw : World.Reachable Sample.config (BooksRule.values.Admits Sample.config) Sample.minted :=
    .step (.step (.refl _) hadmits₁ ⟨hprepare, rfl⟩) hadmits₂ ⟨hblock₁, rfl⟩
  have hrun : World.Run Sample.config (World.StaysAbove 1 Sample.config) Sample.minted
      (World.next Sample.config Sample.minted Sample.sendBlock) :=
    .step (.refl _) ⟨hadmits₃, by decide +kernel⟩ ⟨hblock₂, rfl⟩
  have hsent : (World.next Sample.config Sample.minted
      Sample.sendBlock).indexer.passStorage.minerPasses.map (·.state) = [.Dormant] := by
    decide +kernel
  have hactive : ((World.next Sample.config Sample.minted
      Sample.sendBlock).indexer.passStorage.getPassStateStatsFromHistoryAtHeight 1).activeCount =
      1 := by decide +kernel
  have hheight : 1 ≤ Sample.minted.height Sample.config := by decide +kernel
  exact ⟨Sample.minted, _, hrun, hsent, hactive,
    World.Run.pinned_queries Sample.config 1 Sample.minted _ hw hheight hrun⟩

end Usdb
