import Usdb.Index.PassInvariant

namespace Usdb

open Framework MinerPassStorage

/-- Of two cuts by a key the deeper one is left. -/
theorem filter_le_filter_le {α : Type} (key : α → Nat) (rows : List α) {target last : Nat}
    (hle : target ≤ last) :
    (rows.filter (fun r => key r ≤ last)).filter (fun r => key r ≤ target) =
      rows.filter (fun r => key r ≤ target) := by
  rw [List.filter_filter]
  apply List.filter_congr
  intro r _
  rw [← Bool.decide_and, decide_eq_decide]
  omega

/-- The later database contains the earlier one: what it holds up to the height of
the earlier one is what the earlier one held, and the passes minted by then have
kept their mint data. -/
structure Extends (target : Nat) (a b : MinerPassStorage) : Prop where
  table : TableInv a target
  history : b.passStateHistory.filter (fun r => r.blockHeight ≤ target) = a.passStateHistory
  commits : b.passBlockCommits.filter (fun c => c.blockHeight ≤ target) = a.passBlockCommits
  snapshots :
    b.activeBalanceSnapshots.filter (fun s => s.blockHeight ≤ target) = a.activeBalanceSnapshots
  kept : ∀ i p, a.getPassByInscriptionId i = some p →
    ∃ q, b.getPassByInscriptionId i = some q ∧ p.SameMint q
  origin : ∀ i q, b.getPassByInscriptionId i = some q → q.mintBlockHeight ≤ target →
    ∃ p, a.getPassByInscriptionId i = some p ∧ p.SameMint q

/-- No commit and no balance snapshot lies above a height. -/
structure Bounded (height : Nat) (ps : MinerPassStorage) : Prop where
  commits : ∀ c ∈ ps.passBlockCommits, c.blockHeight ≤ height
  snapshots : ∀ s ∈ ps.activeBalanceSnapshots, s.blockHeight ≤ height

namespace Extends

variable {target height : Nat} {a ps ps' : MinerPassStorage} {burnable : MinerPassState → Prop}

theorem refl (ht : TableInv ps height) (hb : Bounded height ps) : Extends height ps ps where
  table := ht
  history := List.filter_eq_self.mpr (fun r hr => by simpa using ht.heightBound r hr)
  commits := List.filter_eq_self.mpr (fun c hc => by simpa using hb.commits c hc)
  snapshots := List.filter_eq_self.mpr (fun s hs => by simpa using hb.snapshots s hs)
  kept := fun i p hp => ⟨p, hp, .refl p⟩
  origin := fun i q hq _ => ⟨q, hq, .refl q⟩

/-- What the relation sees of the later database. -/
theorem congr (h : Extends target a ps) (hrows : ps'.minerPasses = ps.minerPasses)
    (hhist : ps'.passStateHistory = ps.passStateHistory)
    (hcommits : ps'.passBlockCommits.filter (fun c => c.blockHeight ≤ target) =
      ps.passBlockCommits.filter (fun c => c.blockHeight ≤ target))
    (hsnapshots : ps'.activeBalanceSnapshots.filter (fun s => s.blockHeight ≤ target) =
      ps.activeBalanceSnapshots.filter (fun s => s.blockHeight ≤ target)) :
    Extends target a ps' := by
  have hg : ∀ i, ps'.getPassByInscriptionId i = ps.getPassByInscriptionId i := by
    intro i
    simp only [getPassByInscriptionId, hrows]
  refine ⟨h.table, ?_, hcommits.trans h.commits, hsnapshots.trans h.snapshots, ?_, ?_⟩
  · rw [hhist]
    exact h.history
  · intro i p hp
    rw [hg]
    exact h.kept i p hp
  · intro i q hq
    rw [hg] at hq
    exact h.origin i q hq

theorem step (h : Extends target a ps) (hi : TableInv ps height) (hlt : target < height)
    (hs : PassStep burnable height ps ps') : Extends target a ps' := by
  obtain ⟨id, q, r, v⟩ := hs.view hi.idBound
  have hframe := PassReach.frame (.single hs)
  refine ⟨h.table, ?_, ?_, ?_, ?_, ?_⟩
  · have hr : ¬r.blockHeight ≤ target := by
      rw [v.blockHeight]
      omega
    rw [v.history, List.filter_append, List.filter_cons_of_neg (by simpa using hr),
      List.filter_nil, List.append_nil]
    exact h.history
  · rw [hframe.1]
    exact h.commits
  · rw [hframe.2]
    exact h.snapshots
  · intro i p hp
    obtain ⟨q', hq', hsame⟩ := h.kept i p hp
    rw [v.lookup]
    by_cases hid : i = id
    · subst hid
      rw [if_pos rfl]
      rcases v.origin with ⟨hnone, -⟩ | ⟨p', hp', hc, -⟩
      · rw [hnone] at hq'
        cases hq'
      · rw [hp'] at hq'
        cases hq'
        exact ⟨q, rfl, hsame.trans hc.sameMint⟩
    · rw [if_neg hid]
      exact ⟨q', hq', hsame⟩
  · intro i q' hq' hm
    rw [v.lookup] at hq'
    by_cases hid : i = id
    · subst hid
      rw [if_pos rfl] at hq'
      cases hq'
      rcases v.origin with ⟨-, hmint, -⟩ | ⟨p', hp', hc, -⟩
      · omega
      · rw [hc.sameMint.mintBlockHeight] at hm
        obtain ⟨p, hp, hsame⟩ := h.origin i p' hp' hm
        exact ⟨p, hp, hsame.trans hc.sameMint⟩
    · rw [if_neg hid] at hq'
      exact h.origin i q' hq' hm

theorem reach (h : Extends target a ps) (hi : TableInv ps height) (hlt : target < height)
    (hs : PassReach burnable height ps ps') : Extends target a ps' := by
  induction hs with
  | refl => exact h
  | tail hreach hstep ih => exact ih.step (hi.reach hreach) hlt hstep

/-- A block above the target adds only rows above it. -/
theorem block (h : Extends target a ps) (hi : TableInv ps (height + 1)) (hle : target ≤ height)
    {ps₁ : MinerPassStorage} (hs : PassReach burnable (height + 1) ps ps₁)
    {snapshot : ActiveBalanceSnapshot} {entry : PassBlockCommitEntry}
    (hsnap : snapshot.blockHeight = height + 1) (hentry : entry.blockHeight = height + 1) :
    Extends target a (((ps₁.upsertActiveBalanceSnapshot snapshot).upsertPassBlockCommit
      entry).updateSyncedBtcBlockHeight (height + 1)) := by
  refine (h.reach hi (Nat.lt_succ_of_le hle) hs).congr rfl rfl ?_ ?_
  · refine filter_upsert _ _ _ _ (fun c hc => ?_)
    rw [hc, hentry]
    simp only [decide_eq_false_iff_not]
    omega
  · refine filter_upsert _ _ _ _ (fun c hc => ?_)
    rw [hc, hsnap]
    simp only [decide_eq_false_iff_not]
    omega

/-- A rollback to a later height keeps what the earlier database held. -/
theorem rolledBack {target' : Nat} {mark : Bool} (h : Extends target a ps)
    (hi : TableInv ps height) (hle : target ≤ target') :
    Extends target a (ps.rolledBack target' mark) := by
  refine ⟨h.table, ?_, ?_, ?_, ?_, ?_⟩
  · exact (filter_le_filter_le _ _ hle).trans h.history
  · exact (filter_le_filter_le _ _ hle).trans h.commits
  · exact (filter_le_filter_le _ _ hle).trans h.snapshots
  · intro i p hp
    obtain ⟨q, hq, hsame⟩ := h.kept i p hp
    have hm : q.mintBlockHeight ≤ target' := by
      rw [hsame.mintBlockHeight]
      exact Nat.le_trans (h.table.mintedAt i p hp).1 hle
    cases hr : (ps.rolledBack target' mark).getPassByInscriptionId i with
    | none =>
      exact absurd (getPassByInscriptionId_rolledBack_none hi hr) ((hi.mintedAt i q hq).2.2 _ hm)
    | some q' =>
      obtain ⟨p', r, hp', -, -, hsame', -⟩ := getPassByInscriptionId_rolledBack_some hi hr
      rw [hq] at hp'
      cases hp'
      exact ⟨q', rfl, hsame.trans hsame'⟩
  · intro i q' hq' hm
    obtain ⟨q, r, hq, -, -, hsame', -⟩ := getPassByInscriptionId_rolledBack_some hi hq'
    rw [hsame'.mintBlockHeight] at hm
    obtain ⟨p, hp, hsame⟩ := h.origin i q hq hm
    exact ⟨p, hp, hsame.trans hsame'⟩

/-- The view of the later database at the height of the earlier one is the earlier
table. -/
theorem latestHistoryAt_eq (h : Extends target a ps) (i : InscriptionId) :
    ps.latestHistoryAt target i = a.latestHistoryAt target i := by
  unfold latestHistoryAt
  rw [← h.history, List.filter_filter]
  refine congrArg (maxBy PassHistoryRow.id) (List.filter_congr (fun r _ => ?_))
  by_cases hr : r.blockHeight ≤ target
  · simp [hr]
  · simp [hr]

/-- A rollback to the height of the earlier database restores each of its passes. -/
theorem rolledBack_get {mark : Bool} (h : Extends target a ps) (hi : TableInv ps height)
    (i : InscriptionId) :
    (ps.rolledBack target mark).getPassByInscriptionId i = a.getPassByInscriptionId i := by
  cases hr : (ps.rolledBack target mark).getPassByInscriptionId i with
  | none =>
    cases hp : a.getPassByInscriptionId i with
    | none => rfl
    | some p =>
      have hnone := getPassByInscriptionId_rolledBack_none hi hr
      rw [h.latestHistoryAt_eq] at hnone
      exact absurd hnone ((h.table.mintedAt i p hp).2.2 _ (h.table.mintedAt i p hp).1)
  | some q' =>
    obtain ⟨q, r, hq, hm, hrow, hsame', hmatch⟩ := getPassByInscriptionId_rolledBack_some hi hr
    obtain ⟨p, hp, hsame⟩ := h.origin i q hq hm
    obtain ⟨r', hmatch', hrow'⟩ := h.table.current i p hp
    rw [h.latestHistoryAt_eq, hrow' target (Nat.le_refl _)] at hrow
    cases hrow
    have heq : q' = p := by
      rw [hsame.trans hsame', ← hmatch.1, ← hmatch.2.1, ← hmatch.2.2, hmatch'.1, hmatch'.2.1,
        hmatch'.2.2]
    rw [hp, heq]

end Extends

namespace Bounded

variable {height : Nat} {ps ps' : MinerPassStorage}

theorem quietStep {cfg : IndexerConfig}
    (h : Bounded (InscriptionIndexer.currentHeight cfg ps) ps) (hs : QuietStep cfg ps ps') :
    Bounded (InscriptionIndexer.currentHeight cfg ps') ps' := by
  cases hs with
  | cleared => exact ⟨h.commits, h.snapshots⟩
  | rolledBack target lower upper constraints =>
    have hh : InscriptionIndexer.currentHeight cfg (ps.rolledBack target true) = target :=
      Nat.max_eq_left lower
    rw [hh]
    exact ⟨fun c hc => by simpa using (List.mem_filter.mp hc).2,
      fun s hs => by simpa using (List.mem_filter.mp hs).2⟩
  | adopted anchor genesis =>
    exact ⟨fun c hc => Nat.le_trans (h.commits c hc) (Nat.le_max_left _ _),
      fun s hs => Nat.le_trans (h.snapshots s hs) (Nat.le_max_left _ _)⟩
  | backfilled anchor => exact ⟨h.commits, h.snapshots⟩

/-- A snapshot and a commit of the next height. -/
theorem upserts (h : Bounded height ps) {snapshot : ActiveBalanceSnapshot}
    {entry : PassBlockCommitEntry} (hs : snapshot.blockHeight = height + 1)
    (he : entry.blockHeight = height + 1) :
    Bounded (height + 1) (((ps.upsertActiveBalanceSnapshot snapshot).upsertPassBlockCommit
      entry).updateSyncedBtcBlockHeight (height + 1)) := by
  constructor
  · intro c hc
    rcases mem_upsert _ _ _ _ hc with rfl | hc
    · exact Nat.le_of_eq he
    · exact Nat.le_succ_of_le (h.commits c hc)
  · intro s hs'
    rcases mem_upsert _ _ _ _ hs' with rfl | hs'
    · exact Nat.le_of_eq hs
    · exact Nat.le_succ_of_le (h.snapshots s hs')

end Bounded

namespace World

open InscriptionIndexer

variable {cfg : IndexerConfig} {cond : World → Label → Prop} {w w' : World}

/-- The pass database right after the block of a height was committed, or the empty
one when there is no such block. -/
def storedAt (w : World) (target : Nat) : MinerPassStorage :=
  ((w.committed target).map (·.passStorage)).getD .empty

/-- The run has recorded every durable height, and the database still contains what
it held there. -/
structure RecordInv (cfg : IndexerConfig) (w : World) : Prop where
  bounded : Bounded (w.height cfg) w.indexer.passStorage
  below : ∀ target, target < cfg.genesisBlockHeight → w.committed target = none
  recorded : ∀ target, cfg.genesisBlockHeight ≤ target → target ≤ w.height cfg →
    (w.committed target).isSome
  contains : ∀ target, target ≤ w.height cfg →
    Extends target (w.storedAt target) w.indexer.passStorage

theorem RecordInv.initial : RecordInv cfg World.initial where
  bounded := ⟨fun c hc => absurd hc List.not_mem_nil, fun s hs => absurd hs List.not_mem_nil⟩
  below := fun _ _ => rfl
  recorded := fun target hg hle => by
    have hh : World.initial.height cfg = cfg.genesisBlockHeight - 1 := Nat.max_eq_right (Nat.zero_le _)
    have hpos := cfg.genesisBlockHeight_pos
    omega
  contains := fun target _ => .refl (TableInv.empty.mono (Nat.zero_le _))
    ⟨fun c hc => absurd hc List.not_mem_nil, fun s hs => absurd hs List.not_mem_nil⟩

/-- The part of the invariant about the database, for a fixed record. -/
def Recorded (cfg : IndexerConfig) (stored : Nat → MinerPassStorage) (ps : MinerPassStorage) :
    Prop :=
  Bounded (currentHeight cfg ps) ps ∧ PassInv (fun _ => True) cfg ps ∧
    ∀ target, target ≤ currentHeight cfg ps → Extends target (stored target) ps

theorem Recorded.quietStep {stored : Nat → MinerPassStorage} {ps ps' : MinerPassStorage}
    (h : Recorded cfg stored ps) (hs : QuietStep cfg ps ps') :
    Recorded cfg stored ps' ∧ currentHeight cfg ps' ≤ currentHeight cfg ps := by
  obtain ⟨hb, hi, he⟩ := h
  have hb' := hb.quietStep hs
  have hi' := hi.quietStep hs
  cases hs with
  | cleared =>
    exact ⟨⟨hb', hi', fun target ht => (he target ht).congr rfl rfl rfl rfl⟩, Nat.le_refl _⟩
  | rolledBack target lower upper constraints =>
    have hh : currentHeight cfg (ps.rolledBack target true) = target := Nat.max_eq_left lower
    rw [Recorded, hh]
    rw [hh] at hb'
    refine ⟨⟨hb', hi', fun target' ht => ?_⟩, upper⟩
    exact (he target' (Nat.le_trans ht upper)).rolledBack hi.table ht
  | adopted anchor genesis =>
    have hh : max (currentHeight cfg ps) (cfg.genesisBlockHeight - 1) = currentHeight cfg ps := by
      omega
    refine ⟨⟨hb', hi', fun target ht => ?_⟩, Nat.le_of_eq hh⟩
    exact (he target (Nat.le_trans ht (Nat.le_of_eq hh))).congr rfl rfl rfl rfl
  | backfilled anchor =>
    exact ⟨⟨hb', hi', fun target ht => (he target ht).congr rfl rfl rfl rfl⟩, Nat.le_refl _⟩

theorem Recorded.quiet {stored : Nat → MinerPassStorage} {ps ps' : MinerPassStorage}
    (h : Recorded cfg stored ps) (hs : QuietReach cfg ps ps') :
    Recorded cfg stored ps' ∧ currentHeight cfg ps' ≤ currentHeight cfg ps := by
  induction hs with
  | refl => exact ⟨h, Nat.le_refl _⟩
  | tail _ hstep ih =>
    obtain ⟨hr, hle⟩ := ih.1.quietStep hstep
    exact ⟨hr, Nat.le_trans hle ih.2⟩

theorem RecordInv.step {l : Label} (h : RecordInv cfg w)
    (hp : PassInv (fun _ => True) cfg w.indexer.passStorage) (hs : Step cfg w l w') :
    RecordInv cfg w' := by
  rcases hs.quiet_or_block with ⟨hq, -, hc, -⟩ | ⟨env, balances, faults, t, -, -, ⟨run⟩, rfl⟩
  · have hstored : w'.storedAt = w.storedAt := by
      funext target
      simp only [storedAt, hc]
    obtain ⟨⟨hb, -, he⟩, hle⟩ := Recorded.quiet ⟨h.bounded, hp, h.contains⟩ hq
    refine ⟨hb, ?_, ?_, ?_⟩
    · rw [hc]
      exact h.below
    · intro target hg ht
      rw [hc]
      exact h.recorded target hg (Nat.le_trans ht hle)
    · rw [hstored]
      exact he
  · have hburns : BlockEventExecutor.EventsSatisfy (BlockEventExecutor.BurnsOnly (fun _ => True))
        env.provider run.events (begun (w.indexer.withFaults faults) (w.height cfg + 1) run.working
          []) :=
      BlockEventExecutor.eventsSatisfy_of_forall BlockEventExecutor.burnsOnly_true _ _
    have hinv := hp.block run hburns
    obtain ⟨ps, hreach, ht⟩ := run.passStorage_eq hburns
    have htable := hp.table.mono (Nat.le_succ _)
    have hlow : cfg.genesisBlockHeight - 1 ≤ w.height cfg := Nat.le_max_right _ _
    have hheight : currentHeight cfg t.passStorage = w.height cfg + 1 := by
      rw [ht]
      exact Nat.max_eq_left (Nat.le_succ_of_le hlow)
    have hbounded : Bounded (w.height cfg) ps :=
      ⟨hreach.frame.1 ▸ h.bounded.commits, hreach.frame.2 ▸ h.bounded.snapshots⟩
    have hbounded' : Bounded (w.height cfg + 1) t.passStorage := by
      rw [ht]
      exact hbounded.upserts run.snapshot_height run.entry_height
    refine ⟨?_, ?_, ?_, ?_⟩
    · show Bounded (currentHeight cfg t.passStorage) t.passStorage
      rw [hheight]
      exact hbounded'
    · intro target hlt
      have hne : target ≠ w.height cfg + 1 := by omega
      simp only [committing, if_neg hne]
      exact h.below target hlt
    · intro target hg hle
      change target ≤ currentHeight cfg t.passStorage at hle
      by_cases he : target = w.height cfg + 1
      · simp only [committing, if_pos he, Option.isSome_some]
      · simp only [committing, if_neg he]
        exact h.recorded target hg (by omega)
    · intro target hle
      change target ≤ currentHeight cfg t.passStorage at hle
      by_cases he : target = w.height cfg + 1
      · subst he
        have hstored : (w.committing (w.height cfg + 1) env.blockHint balances t).storedAt
            (w.height cfg + 1) = t.passStorage := by
          simp only [storedAt, committing, if_true, Option.map_some, Option.getD_some]
          rfl
        rw [hstored]
        have htable' := hinv.table
        rw [hheight] at htable'
        exact .refl htable' hbounded'
      · have hstored : (w.committing (w.height cfg + 1) env.blockHint balances t).storedAt target =
            w.storedAt target := by
          simp only [storedAt, committing, if_neg he]
        have hle' : target ≤ w.height cfg := by omega
        rw [hstored]
        have hext := (h.contains target hle').block htable hle' hreach run.snapshot_height
          run.entry_height
        show Extends target (w.storedAt target) t.passStorage
        rw [ht]
        exact hext

theorem Reachable.recordInv (h : Reachable cfg cond w) : RecordInv cfg w := by
  have hboth := h.induct
    (P := fun w => RecordInv cfg w ∧ PassInv (fun _ => True) cfg w.indexer.passStorage)
    ⟨.initial, .empty⟩ (fun _ _ _ hi _ hs => ⟨hi.1.step hi.2 hs, hs.passInv hi.2⟩)
  exact hboth.1

end World

/-- After a rollback nothing lies above the target. -/
theorem MinerPassStorage.assertNoDataAfterBlockHeight_rolledBack (ps : MinerPassStorage)
    (target : Nat) (mark : Bool) :
    (ps.rolledBack target mark).assertNoDataAfterBlockHeight target = .ok () := by
  have hfilter : ∀ {α : Type} (key : α → Nat) (rows : List α),
      (rows.filter (fun r => key r ≤ target)).filter (fun r => target < key r) = [] := by
    intro α key rows
    rw [List.filter_filter, List.filter_eq_nil_iff]
    intro r _
    simp
  have hpasses : (ps.minerPasses.filterMap (ps.survivingPass target)).filter
      (fun p => target < p.mintBlockHeight) = [] := by
    rw [List.filter_eq_nil_iff]
    intro q hq
    obtain ⟨p, -, hp⟩ := List.mem_filterMap.mp hq
    unfold survivingPass at hp
    split at hp
    · rename_i hm
      obtain ⟨r, -, rfl⟩ := Option.map_eq_some_iff.mp hp
      simpa using hm
    · cases hp
  unfold assertNoDataAfterBlockHeight rolledBack
  simp only [Nat.lt_irrefl, if_false, hfilter, hpasses]
  rfl

/-- A rollback to any height that is not above the synced one succeeds and restores
passes, history, commits and balance snapshots to what they were right after the
block of that height; of the adopted snapshots it keeps those up to that height. -/
theorem World.Reachable.rollback_restores (cfg : IndexerConfig) (w : World) (target : Nat)
    (mark : Bool) (h : World.Reachable cfg (fun _ _ => True) w) (ht : target ≤ w.height cfg) :
    ((w.committed target).isSome ↔ cfg.genesisBlockHeight ≤ target) ∧
      ∃ restored,
        w.indexer.passStorage.rollbackToBlockHeightInternal target none mark = .ok restored ∧
        (∀ i, restored.getPassByInscriptionId i =
          (w.storedAt target).getPassByInscriptionId i) ∧
        restored.passStateHistory = (w.storedAt target).passStateHistory ∧
        restored.passBlockCommits = (w.storedAt target).passBlockCommits ∧
        restored.activeBalanceSnapshots = (w.storedAt target).activeBalanceSnapshots ∧
        restored.balanceHistorySnapshotHistory =
          w.indexer.passStorage.balanceHistorySnapshotHistory.filter
            (fun a => a.stableHeight ≤ target) ∧
        restored.syncedBtcBlockHeight = some target ∧
        restored.assertNoDataAfterBlockHeight target = .ok () := by
  have hp := h.passInv
  have hr := h.recordInv
  have he := hr.contains target ht
  refine ⟨⟨fun hs => ?_, fun hg => hr.recorded target hg ht⟩,
    w.indexer.passStorage.rolledBack target mark,
    rollbackToBlockHeightInternal_eq hp.table hp.unique, he.rolledBack_get hp.table, he.history,
    he.commits, he.snapshots, rfl, rfl, assertNoDataAfterBlockHeight_rolledBack _ _ _⟩
  by_contra hg
  rw [hr.below target (Nat.lt_of_not_le hg)] at hs
  cases hs

namespace Sample

/-- The upstream snapshot at a height. -/
def snapshotAt (height : Nat) : BalanceHistorySnapshotInfo where
  stableHeight := height
  stableBlockHash := some ""
  latestBlockCommit := some ""
  stableLag := 0
  commitProtocolVersion := ""
  commitHashAlgo := ""

/-- After two blocks the snapshot of height 2 is adopted and that of height 1 is
filled in. -/
def adoptSnapshots : List Label :=
  mintAndMove ++ [.finish (snapshotAt 2) snapshotAt []]

end Sample

/-- The rollback undoes the second block of the run. -/
theorem World.Reachable.rollback_restores_first_block :
    ∃ w restored, World.Reachable Sample.config (fun _ _ => True) w ∧
      w.indexer.passStorage.minerPasses.length = 2 ∧
      w.indexer.passStorage.rollbackToBlockHeightInternal 1 none false = .ok restored ∧
      (w.storedAt 1).minerPasses.length = 1 ∧
      restored.passStateHistory = (w.storedAt 1).passStateHistory := by
  have hrun : World.Reachable Sample.config (fun _ _ => True)
      (Sample.mintAndMove.foldl (World.next Sample.config) World.initial) :=
    World.Run.of_follows (.refl _)
      ⟨by decide +kernel, trivial, by decide +kernel, trivial, by decide +kernel, trivial, trivial⟩
  obtain ⟨-, restored, hroll, -, hhist, -⟩ :=
    World.Reachable.rollback_restores _ _ 1 false hrun (by decide +kernel)
  exact ⟨_, restored, hrun, by decide +kernel, hroll, by decide +kernel, hhist⟩

/-- The adopted-snapshot history is not brought back to what it was right after the
block: the row filled in later for that height stays. -/
theorem World.Reachable.rollback_keeps_adopted_snapshots :
    ∃ w restored, World.Reachable Sample.config (fun _ _ => True) w ∧ 1 ≤ w.height Sample.config ∧
      w.indexer.passStorage.rollbackToBlockHeightInternal 1 none false = .ok restored ∧
      restored.balanceHistorySnapshotHistory ≠ (w.storedAt 1).balanceHistorySnapshotHistory := by
  have hrun : World.Reachable Sample.config (fun _ _ => True)
      (Sample.adoptSnapshots.foldl (World.next Sample.config) World.initial) :=
    World.Run.of_follows (.refl _)
      ⟨by decide +kernel, trivial, by decide +kernel, trivial, by decide +kernel, trivial,
        by decide +kernel, trivial, trivial⟩
  have hinv := hrun.passInv
  refine ⟨_, _, hrun, by decide +kernel,
    rollbackToBlockHeightInternal_eq hinv.table hinv.unique, ?_⟩
  decide +kernel

end Usdb
