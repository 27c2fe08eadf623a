import Usdb.Balances.BatchShape
import Usdb.Balances.CrashResume

namespace Usdb.Balances

open Framework BalanceHistoryDB

section Bundles

variable {env : BatchEnv} {s : HistoryState} {start latestBtcHeight undoRetentionBlocks : Nat}
  {blocks : List Block} {data : BatchBlockData} {update : BlockStateUpdateBatch}
  {created : Table OutPoint VOutUtxoInfo} {initial : Table USDBScriptHash BalanceHistoryData}

theorem shouldPersistUndoForBlock_eq (blockHeight latestBtcHeight undoRetentionBlocks : Nat) :
    shouldPersistUndoForBlock blockHeight latestBtcHeight undoRetentionBlocks = true ↔
      undoRetentionBlocks ≠ 0 ∧ blockHeight ≤ latestBtcHeight ∧
        latestBtcHeight + 1 ≤ blockHeight + undoRetentionBlocks := by
  unfold shouldPersistUndoForBlock
  split
  · simp only [Bool.false_eq_true, false_iff]
    omega
  · rw [decide_eq_true_iff]
    omega

/-- The test on the range is true when the test on one of its blocks is. -/
theorem shouldPersistAnyUndoForRange_of_block {stop height : Nat} (hstart : start ≤ height)
    (hstop : height < stop)
    (h : shouldPersistUndoForBlock height latestBtcHeight undoRetentionBlocks = true) :
    shouldPersistAnyUndoForRange start stop latestBtcHeight undoRetentionBlocks = true := by
  rw [shouldPersistUndoForBlock_eq] at h
  unfold shouldPersistAnyUndoForRange
  rw [if_neg (by omega), decide_eq_true_iff]
  omega

theorem mem_collectUndoBundles (hlen : data.blocks.length = data.blockBalanceDeltas.length)
    (hrange : ∀ block ∈ data.blocks, data.rangeStart ≤ block.height ∧ block.height < data.rangeEnd)
    (height : Nat) :
    height ∈ (collectUndoBundles data latestBtcHeight undoRetentionBlocks).map (·.blockHeight) ↔
      height ∈ data.blocks.map (·.height) ∧
        shouldPersistUndoForBlock height latestBtcHeight undoRetentionBlocks = true := by
  have hfst : (data.blocks.zip data.blockBalanceDeltas).map (·.1) = data.blocks :=
    List.map_fst_zip (by omega)
  unfold collectUndoBundles
  constructor
  · intro h
    split at h
    · obtain ⟨bundle, hbundle, rfl⟩ := List.mem_map.mp h
      obtain ⟨⟨block, delta⟩, hmem, hpair⟩ := List.mem_filterMap.mp hbundle
      dsimp only at hpair
      split at hpair
      · rename_i hpersist
        cases hpair
        have hblock : block ∈ data.blocks := hfst ▸ List.mem_map_of_mem hmem
        exact ⟨List.mem_map_of_mem hblock, hpersist⟩
      · cases hpair
    · cases h
  · rintro ⟨hmem, hpersist⟩
    obtain ⟨block, hblock, rfl⟩ := List.mem_map.mp hmem
    obtain ⟨hfirst, hlast⟩ := hrange block hblock
    rw [if_pos (shouldPersistAnyUndoForRange_of_block hfirst hlast hpersist)]
    rw [← hfst] at hblock
    obtain ⟨⟨block', delta⟩, hpair, rfl⟩ := List.mem_map.mp hblock
    refine List.mem_map.mpr ⟨undoBundle block' delta.entries, List.mem_filterMap.mpr
      ⟨(block', delta), hpair, ?_⟩, rfl⟩
    exact if_pos hpersist

namespace BatchRun

/-- The heights a batch writes undo bundles for: those of its range that the retention
covers. -/
theorem mem_undoBundles (h : BatchRun env s start blocks latestBtcHeight undoRetentionBlocks data
      update created initial) (height : Nat) :
    height ∈ update.undoBundles.map (·.blockHeight) ↔
      (start ≤ height ∧ height < start + blocks.length) ∧ undoRetentionBlocks ≠ 0 ∧
        height ≤ latestBtcHeight ∧ latestBtcHeight + 1 ≤ height + undoRetentionBlocks := by
  obtain ⟨previousCommit, scripts, -, -, rfl⟩ := collectUpdates_eq_ok.mp h.collected
  have hlen : data.blocks.length = data.blockBalanceDeltas.length := by
    have := congrArg List.length (processBlocksOf_ids h.processed)
    simpa using this.symm
  have hrange : ∀ block ∈ data.blocks,
      data.rangeStart ≤ block.height ∧ block.height < data.rangeEnd := by
    intro block hblock
    have hmem : block.height ∈ data.blocks.map (·.height) := List.mem_map_of_mem hblock
    rw [h.block_heights, List.mem_range'_1] at hmem
    rw [h.start_eq, h.end_eq]
    exact hmem
  rw [mem_collectUndoBundles hlen hrange, h.block_heights, List.mem_range'_1,
    shouldPersistUndoForBlock_eq]

end BatchRun

theorem getBlockUndoBundle_updateBlockState (db : BalanceHistoryDB)
    (update : BlockStateUpdateBatch) (height : Nat) :
    ((db.updateBlockState update).getBlockUndoBundle height).isSome ↔
      height ∈ update.undoBundles.map (·.blockHeight) ∨ (db.getBlockUndoBundle height).isSome := by
  have hkeys : (update.undoBundles.map (fun bundle => (bundle.blockHeight, bundle))).map (·.1) =
      update.undoBundles.map (·.blockHeight) := by
    rw [List.map_map]
    rfl
  have hget : (db.updateBlockState update).getBlockUndoBundle height =
      (db.blockUndo.insertMany (update.undoBundles.map (fun bundle =>
        (bundle.blockHeight, bundle))))[height]? := rfl
  rw [hget]
  rcases Table.getElem?_insertMany_cases db.blockUndo (update.undoBundles.map (fun bundle =>
    (bundle.blockHeight, bundle))) height with ⟨bundle, hmem, h⟩ | ⟨hmem, h⟩
  · rw [h, ← hkeys]
    simp only [Option.isSome_some, true_iff]
    exact .inl (List.mem_map_of_mem hmem)
  · rw [h, ← hkeys]
    constructor
    · exact .inr
    · rintro (hm | hm)
      · exact absurd hm hmem
      · exact hm

/-- Once recorded, the two undo boundaries stay what they are in a batch. -/
theorem updateBlockState_boundaries_some {db : BalanceHistoryDB} (update : BlockStateUpdateBatch)
    {first retainedFrom : Nat} (hsup : db.rollbackSupportedFromHeight = some first)
    (hret : db.undoRetainedFromHeight = some retainedFrom) :
    (db.updateBlockState update).rollbackSupportedFromHeight = some first ∧
      (db.updateBlockState update).undoRetainedFromHeight = some retainedFrom := by
  unfold updateBlockState
  dsimp only
  rw [hsup, hret]
  cases (update.undoBundles.map (·.blockHeight)).min? <;> exact ⟨rfl, rfl⟩

/-- The first batch with bundles records the lowest of their heights. -/
theorem updateBlockState_boundaries_none {db : BalanceHistoryDB} (update : BlockStateUpdateBatch)
    (hsup : db.rollbackSupportedFromHeight = none) (hret : db.undoRetainedFromHeight = none) :
    (db.updateBlockState update).rollbackSupportedFromHeight =
        (update.undoBundles.map (·.blockHeight)).min? ∧
      (db.updateBlockState update).undoRetainedFromHeight =
        (update.undoBundles.map (·.blockHeight)).min? := by
  unfold updateBlockState
  dsimp only
  rw [hsup, hret]
  cases (update.undoBundles.map (·.blockHeight)).min? <;> exact ⟨rfl, rfl⟩

end Bundles

/-- What is kept of the undo journal, for a target height that only grows: no bundle was
ever written, or the bundles start at the recorded height and those of the window below
the target are all there. -/
inductive UndoWindow (undoRetentionBlocks target : Nat) (db : BalanceHistoryDB) : Prop
  | unused (supported : db.rollbackSupportedFromHeight = none)
      (retained : db.undoRetainedFromHeight = none)
      (bundles : ∀ height, ¬ (db.getBlockUndoBundle height).isSome)
  | used (first retainedFrom : Nat) (supported : db.rollbackSupportedFromHeight = some first)
      (retained : db.undoRetainedFromHeight = some retainedFrom)
      (pos : 1 ≤ first) (le : first ≤ db.getBtcBlockHeight + 1)
      (retained_le : retainedFrom ≤ first ∨ retainedFrom + undoRetentionBlocks ≤ target + 1)
      (above : ∀ height, (db.getBlockUndoBundle height).isSome → first ≤ height)
      (kept : ∀ height, first ≤ height → height ≤ db.getBtcBlockHeight →
        target + 1 ≤ height + undoRetentionBlocks → (db.getBlockUndoBundle height).isSome)

namespace UndoWindow

variable {undoRetentionBlocks target target' : Nat} {db db' : BalanceHistoryDB}

theorem grow (h : UndoWindow undoRetentionBlocks target db) (hle : target ≤ target') :
    UndoWindow undoRetentionBlocks target' db := by
  cases h with
  | unused supported retained bundles => exact .unused supported retained bundles
  | used first retainedFrom supported retained pos le retained_le above kept =>
    refine .used first retainedFrom supported retained pos le (by omega) above ?_
    intro height hfirst hheight hwindow
    exact kept height hfirst hheight (by omega)

theorem rollbackStep (h : UndoWindow undoRetentionBlocks target db) (hs : RollbackStep db db') :
    UndoWindow undoRetentionBlocks target db' := by
  cases hs with
  | markers m =>
    cases h with
    | unused supported retained bundles => exact .unused supported retained bundles
    | used first retainedFrom supported retained pos le retained_le above kept =>
      exact .used first retainedFrom supported retained pos le retained_le above kept
  | revert bundle found =>
    cases h with
    | unused supported retained bundles =>
      exact absurd (by rw [found]; rfl) (bundles db.getBtcBlockHeight)
    | used first retainedFrom supported retained pos le retained_le above kept =>
      have htop := above db.getBtcBlockHeight (by rw [found]; rfl)
      have hheight : (db.revertBlock db.getBtcBlockHeight bundle).getBtcBlockHeight =
          db.getBtcBlockHeight - 1 := rfl
      refine .used first retainedFrom supported retained pos (by omega) retained_le ?_ ?_
      · intro height hsome
        rw [getBlockUndoBundle_revertBlock] at hsome
        split at hsome
        · cases hsome
        · exact above height hsome
      · intro height hfirst hle hwindow
        rw [hheight] at hle
        rw [getBlockUndoBundle_revertBlock, if_neg (by omega)]
        exact kept height hfirst (by omega) hwindow

theorem rollbackSteps (h : UndoWindow undoRetentionBlocks target db) (hs : RollbackSteps db db') :
    UndoWindow undoRetentionBlocks target db' := by
  induction hs with
  | refl => exact h
  | tail _ step ih => exact ih.rollbackStep step

/-- Pruning up to the window of a block below the target keeps the window. -/
theorem prune (h : UndoWindow undoRetentionBlocks target db) {lastHeight : Nat}
    (hlast : lastHeight ≤ target)
    (hs : PruneStep db (lastHeight - (undoRetentionBlocks - 1)) db') (hpos : 1 ≤ undoRetentionBlocks) :
    UndoWindow undoRetentionBlocks target db' := by
  cases hs with
  | skip => exact h
  | prune supportedFrom hsup =>
    cases h with
    | unused supported retained bundles =>
      rw [supported] at hsup
      cases hsup
    | used first retainedFrom supported retained pos le retained_le above kept =>
      rw [supported] at hsup
      obtain rfl := Option.some.inj hsup
      refine .used first _ supported rfl pos le (by omega) ?_ ?_
      · intro height hsome
        rw [pruned_getBlockUndoBundle] at hsome
        split at hsome
        · cases hsome
        · exact above height hsome
      · intro height hfirst hheight hwindow
        rw [pruned_getBlockUndoBundle, if_neg (by omega)]
        exact kept height hfirst hheight hwindow

section Batch

variable {env : BatchEnv} {s : HistoryState} {blocks : List Block} {data : BatchBlockData}
  {update : BlockStateUpdateBatch} {created : Table OutPoint VOutUtxoInfo}
  {initial : Table USDBScriptHash BalanceHistoryData}

theorem batch (h : UndoWindow undoRetentionBlocks target s.db)
    (hb : BatchRun env s (s.db.getBtcBlockHeight + 1) blocks target undoRetentionBlocks data update
      created initial) (hpos : 1 ≤ undoRetentionBlocks)
    (htarget : s.db.getBtcBlockHeight + blocks.length ≤ target) :
    UndoWindow undoRetentionBlocks target (s.db.updateBlockState update) := by
  have hheight := hb.getBtcBlockHeight
  have hbundle := getBlockUndoBundle_updateBlockState s.db update
  have hmem := hb.mem_undoBundles
  cases h with
  | used first retainedFrom supported retained pos le retained_le above kept =>
    obtain ⟨hsup, hret⟩ := updateBlockState_boundaries_some update supported retained
    refine .used first retainedFrom hsup hret pos (by omega) retained_le ?_ ?_
    · intro height hsome
      rcases (hbundle height).mp hsome with hm | hm
      · have := (hmem height).mp hm
        omega
      · exact above height hm
    · intro height hfirst hle hwindow
      rw [hheight] at hle
      rw [hbundle]
      by_cases hold : height ≤ s.db.getBtcBlockHeight
      · exact .inr (kept height hfirst hold hwindow)
      · exact .inl ((hmem height).mpr (by omega))
  | unused supported retained bundles =>
    obtain ⟨hsup, hret⟩ := updateBlockState_boundaries_none update supported retained
    cases hmin : (update.undoBundles.map (·.blockHeight)).min? with
    | none =>
      refine .unused (hsup.trans hmin) (hret.trans hmin) ?_
      intro height
      rw [hbundle, List.min?_eq_none_iff.mp hmin]
      simp only [List.not_mem_nil, false_or]
      exact bundles height
    | some lowest =>
      obtain ⟨hlow, hleast⟩ := List.min?_eq_some_iff.mp hmin
      have hlow' := (hmem lowest).mp hlow
      refine .used lowest lowest (hsup.trans hmin) (hret.trans hmin) (by omega) (by omega)
        (.inl (Nat.le_refl _)) ?_ ?_
      · intro height hsome
        rcases (hbundle height).mp hsome with hm | hm
        · exact hleast height hm
        · exact absurd hm (bundles height)
      · intro height hfirst hle hwindow
        rw [hheight] at hle
        exact (hbundle height).mpr (.inl ((hmem height).mpr (by omega)))

end Batch

end UndoWindow

/-- The stable height a round aims at. -/
def Label.target (target : Nat) : Label → Nat
  | .prepare _ latestBtcHeight _ => latestBtcHeight
  | _ => target

def BalanceHistoryDB.undoHeights (db : BalanceHistoryDB) : List Nat := db.blockUndo.toList.map (·.1)

/-- A run whose target height never decreases, with its last target and the heights that
have ever had an undo bundle. -/
inductive TargetRun (config : SyncConfig) (w₀ : Service) : Service → Nat → List Nat → Prop
  | refl : TargetRun config w₀ w₀ 0 w₀.state.db.undoHeights
  | step {w w' : Service} {target : Nat} {given : List Nat} {l : Label}
      (run : TargetRun config w₀ w target given) (grows : target ≤ l.target target)
      (step : Service.Step config w l w') :
      TargetRun config w₀ w' (l.target target) (given ++ w'.state.db.undoHeights)

/-- A store that never had an undo bundle: an empty one, or one installed from a
snapshot. -/
structure NoUndoYet (db : BalanceHistoryDB) : Prop where
  supported : db.rollbackSupportedFromHeight = none
  retained : db.undoRetainedFromHeight = none
  bundles : ∀ height, db.getBlockUndoBundle height = none

theorem mem_undoHeights {db : BalanceHistoryDB} {height : Nat} :
    height ∈ db.undoHeights ↔ (db.getBlockUndoBundle height).isSome := by
  unfold undoHeights getBlockUndoBundle
  rw [List.mem_map, Option.isSome_iff_exists]
  constructor
  · rintro ⟨⟨k, bundle⟩, hrow, rfl⟩
    exact ⟨bundle, Table.mem_toList.mp hrow⟩
  · rintro ⟨bundle, hget⟩
    exact ⟨(height, bundle), Table.mem_toList.mpr hget, rfl⟩

/-- What a run keeps: the window, the target of the round it is in, and the recorded
height at or below every height that ever had a bundle. -/
structure WindowKept (undoRetentionBlocks target : Nat) (given : List Nat) (w : Service) : Prop
    where
  window : UndoWindow undoRetentionBlocks target w.state.db
  phase : ∀ latestBtcHeight, w.phase = .syncing latestBtcHeight → latestBtcHeight = target
  given : ∀ height ∈ given, ∃ first,
    w.state.db.rollbackSupportedFromHeight = some first ∧ first ≤ height

section Steps

variable {config : SyncConfig} {w w' : Service} {l : Label} {target : Nat} {given : List Nat}

theorem settle_syncing {result : EStateM.Result BalanceHistoryError HistoryState Unit}
    {latest latestBtcHeight : Nat}
    (h : (Service.settle result (.syncing latest)).phase = .syncing latestBtcHeight) :
    latest = latestBtcHeight := by
  cases result with
  | ok u t =>
    cases h
    rfl
  | error e t => cases e <;> cases h

theorem rollbackSteps_supported {db db' : BalanceHistoryDB} (hs : RollbackSteps db db') :
    db'.rollbackSupportedFromHeight = db.rollbackSupportedFromHeight := by
  induction hs with
  | refl => rfl
  | tail _ step ih =>
    rw [← ih]
    cases step <;> rfl

theorem PruneStep.supported {db db' : BalanceHistoryDB} {minRetainedHeight : Nat}
    (hs : PruneStep db minRetainedHeight db') :
    db'.rollbackSupportedFromHeight = db.rollbackSupportedFromHeight := by
  cases hs <;> rfl

/-- The window and the height recorded first are kept by every change of the store. -/
theorem UndoWindow.storeStep (hpos : 1 ≤ config.undoRetentionBlocks)
    (h : UndoWindow config.undoRetentionBlocks target w.state.db)
    (hphase : ∀ latestBtcHeight, w.phase = .syncing latestBtcHeight → latestBtcHeight = target)
    (hgrows : target ≤ l.target target) {db : BalanceHistoryDB}
    (hs : Service.StoreStep config w l db) :
    UndoWindow config.undoRetentionBlocks (l.target target) db ∧
      ∀ first, w.state.db.rollbackSupportedFromHeight = some first →
        db.rollbackSupportedFromHeight = some first := by
  cases hs with
  | same => exact ⟨h.grow hgrows, fun _ hfirst => hfirst⟩
  | rollback steps =>
    refine ⟨(h.rollbackSteps steps).grow hgrows, fun first hfirst => ?_⟩
    rw [rollbackSteps_supported steps]
    exact hfirst
  | @batch answers faults latestBtcHeight data update created initial _ syncing le run prune =>
    obtain rfl := hphase _ syncing
    refine ⟨(UndoWindow.batch (s := { w.state with faults }) h run hpos le).prune le prune hpos,
      fun first hfirst => ?_⟩
    rw [prune.supported]
    cases h with
    | unused supported retained bundles =>
      rw [supported] at hfirst
      cases hfirst
    | used first' retainedFrom supported retained pos le retained_le above kept =>
      rw [supported] at hfirst
      rw [(updateBlockState_boundaries_some update supported retained).1]
      exact hfirst

theorem WindowKept.step (hpos : 1 ≤ config.undoRetentionBlocks)
    (h : WindowKept config.undoRetentionBlocks target given w) (hgrows : target ≤ l.target target)
    (hs : Service.Step config w l w') :
    WindowKept config.undoRetentionBlocks (l.target target)
      (given ++ w'.state.db.undoHeights) w' := by
  obtain ⟨hwindow, hfirst⟩ := h.window.storeStep hpos h.phase hgrows hs.storeStep
  refine ⟨hwindow, ?_, ?_⟩
  · obtain ⟨henabled, rfl⟩ := hs
    intro latestBtcHeight hphase
    cases l with
    | prepare answers latest faults => exact (settle_syncing hphase).symm
    | batch answers faults =>
      obtain ⟨latest, hlatest, -, -⟩ := henabled
      have hnext : (Service.next config w (.batch answers faults)) = Service.settle
          (processBlockBatch config answers latest { w.state with faults }) (.syncing latest) := by
        unfold Service.next
        rw [hlatest]
      rw [hnext] at hphase
      rw [← settle_syncing hphase]
      exact h.phase latest hlatest
    | finish => cases hphase
    | evict keepUtxo keepBalance => exact h.phase latestBtcHeight hphase
    | shrink lastUtxos lastBalances =>
      refine h.phase latestBtcHeight ?_
      simp only [Service.next] at hphase
      rcases shrinkCaches_cases lastUtxos lastBalances w.state with
        ⟨keepUtxo, keepBalance, -, -, hrun⟩ | ⟨utxoCache, -, hrun⟩ <;> rw [hrun] at hphase
      · exact hphase
      · cases hphase
    | restart => cases hphase
  · intro height hmem
    rcases List.mem_append.mp hmem with hold | hnew
    · obtain ⟨first, hsup, hle⟩ := h.given height hold
      exact ⟨first, hfirst first hsup, hle⟩
    · rw [mem_undoHeights] at hnew
      cases hwindow with
      | unused supported retained bundles => exact absurd hnew (bundles height)
      | used first retainedFrom supported retained pos le retained_le above kept =>
        exact ⟨first, supported, above height hnew⟩

theorem TargetRun.windowKept {w₀ : Service} (hpos : 1 ≤ config.undoRetentionBlocks)
    (hidle : w₀.phase = .idle) (hfresh : NoUndoYet w₀.state.db)
    (h : TargetRun config w₀ w target given) :
    WindowKept config.undoRetentionBlocks target given w := by
  induction h with
  | refl =>
    refine ⟨.unused hfresh.supported hfresh.retained ?_, ?_, ?_⟩
    · intro height
      rw [hfresh.bundles height]
      exact Bool.false_ne_true
    · intro latestBtcHeight hphase
      rw [hidle] at hphase
      cases hphase
    · intro height hmem
      rw [mem_undoHeights, hfresh.bundles height] at hmem
      cases hmem
  | step run grows step ih => exact ih.step hpos grows step

end Steps

/-- Whatever the batches, crashes and rollbacks were, once the store is at its target the
heights of the retention window from the first that ever had an undo bundle have theirs,
and a rollback to below any of them succeeds. -/
theorem TargetRun.undo_window (config : SyncConfig) (w₀ w : Service) (target : Nat)
    (given : List Nat) (hpos : 1 ≤ config.undoRetentionBlocks) (hidle : w₀.phase = .idle)
    (hfresh : NoUndoYet w₀.state.db) (h : TargetRun config w₀ w target given)
    (hreached : w.state.db.getBtcBlockHeight = target) (first height : Nat)
    (hfirst : first ∈ given) (hle : first ≤ height)
    (hwindow : target + 1 ≤ height + config.undoRetentionBlocks) (htarget : height ≤ target) :
    (w.state.db.getBlockUndoBundle height).isSome ∧
      ∃ s, rollbackToBlockHeight (height - 1) { w.state with faults := [] } = .ok () s ∧
        s.db = (rolledBack (height - 1) (target - (height - 1)) w.state.db).withMarkers .none ∧
        s.db.getBtcBlockHeight = height - 1 := by
  have hkept := h.windowKept hpos hidle hfresh
  obtain ⟨recorded, hrecorded, hle'⟩ := hkept.given first hfirst
  have hwin := hkept.window
  cases hwin with
  | unused supported retained bundles =>
    rw [supported] at hrecorded
    cases hrecorded
  | used lowest retainedFrom supported retained pos le retained_le above kept =>
    rw [supported] at hrecorded
    obtain rfl := Option.some.inj hrecorded
    have hbundles : ∀ k, height - 1 < k → k ≤ height - 1 + (target - (height - 1)) →
        (w.state.db.getBlockUndoBundle k).isSome := by
      intro k hlow hhigh
      exact kept k (by omega) (by omega) (by omega)
    have havailable : UndoAvailable w.state.db (height - 1)
        (height - 1 + (target - (height - 1))) := by
      refine ⟨?_, ⟨retainedFrom, retained, by omega⟩, hbundles⟩
      intro k hk
      rw [supported] at hk
      obtain rfl := Option.some.inj hk
      omega
    have hheight : w.state.db.getBtcBlockHeight = height - 1 + (target - (height - 1)) := by omega
    have hrun := rollback_of_undoAvailable (s := { w.state with faults := [] }) rfl (by omega)
      hheight havailable
    refine ⟨kept height (by omega) (by omega) hwindow, _, hrun, rfl, ?_⟩
    exact (havailable.covers hheight).rolledBack_height

theorem TargetRun.firstBatch {config : SyncConfig} {answers : BatchAnswers} {latestBtcHeight : Nat}
    (hne : answers.blocks ≠ []) (hle : answers.blocks.length ≤ latestBtcHeight) :
    TargetRun config .initial (.firstBatch config answers latestBtcHeight) latestBtcHeight
      (([] ++ (Service.next config .initial (Service.firstPrepare latestBtcHeight)
        ).state.db.undoHeights) ++
        (Service.firstBatch config answers latestBtcHeight).state.db.undoHeights) := by
  have hprepare : TargetRun config .initial _ latestBtcHeight _ :=
    @TargetRun.step config .initial .initial _ 0 _ (Service.firstPrepare latestBtcHeight) .refl
      (Nat.zero_le _) ⟨rfl, rfl⟩
  refine @TargetRun.step config .initial _ _ latestBtcHeight _ (.batch answers []) hprepare
    (Nat.le_refl _) ⟨⟨latestBtcHeight, rfl, hne, ?_⟩, rfl⟩
  show 0 + answers.blocks.length ≤ latestBtcHeight
  omega

theorem TargetRun.undo_window_firstBlock :
    (firstBlockService.state.db.getBlockUndoBundle 1).isSome ∧
      ∃ s, rollbackToBlockHeight 0 { firstBlockService.state with faults := [] } = .ok () s ∧
        s.db = (rolledBack 0 1 firstBlockService.state.db).withMarkers .none ∧
        s.db.getBtcBlockHeight = 0 := by
  have hbatch : TargetRun plainConfig .initial firstBlockService 1 _ :=
    @TargetRun.firstBatch plainConfig firstBlockAnswers 1 (by decide) (by decide)
  exact TargetRun.undo_window plainConfig .initial firstBlockService 1 _ (by decide) rfl
    ⟨rfl, rfl, fun _ => rfl⟩ hbatch rfl 1 1 (by decide) (by decide) (by decide) (by decide)

end Usdb.Balances
