import Usdb.Index.TrackerReload
import Usdb.Index.TwinRuns

namespace Usdb

open Framework MinerPassStorage MinerPassManager PassEnergyManager InscriptionTransferTracker

/-- A caught error leaves what it left; only a panic goes on. -/
theorem errorOf_triple {P Q : IndexerState → Prop} {x : IndexerM Unit}
    (hx : Triple P x (fun _ => Q) (fun _ => Q)) :
    Triple P (errorOf x) (fun _ => Q) (fun e _ => e = .panic) :=
  recoverWith_triple (E := fun _ => Q)
    (Triple.bind hx (fun _ _ hs => hs)) (fun _ _ hs => hs) (fun _ _ => rfl)

theorem Plain.keeps_tracker {α : Type} {x : IndexerM α} (h : Plain false x)
    (P : TrackerState → Prop) : Keeps (fun s => P s.tracker) x :=
  Keeps.of_preserves h.preserves P

namespace InscriptionIndexer

variable {m : MultiMap} {height : Nat} {cfg : IndexerConfig} {env : BlockEnv} {s t : IndexerState}

/-- The tracker is in force and nothing is staged. -/
def AtRest (m : MultiMap) (s : IndexerState) : Prop :=
  s.tracker = (m, [])

/-- The tracker is in force and the one after the block is staged. -/
def Staged (m : MultiMap) (height : Nat) (s : IndexerState) : Prop :=
  ∃ working, s.tracker = (m, [(height, working)])

theorem removeStaged_eq (missing : IndexerError) (s : IndexerState) :
    removeStaged height missing s = (match s.stagedBlocks.find? (fun b => b.1 = height) with
      | none => throw missing
      | some staged => do
        modify (fun s => { s with
          stagedBlocks := s.stagedBlocks.filter (fun b => b.1 ≠ height) })
        return staged.2 : IndexerM MultiMap) s := rfl

theorem removeStaged_staged {working : MultiMap} (missing : IndexerError)
    (hs : s.tracker = (m, [(height, working)])) :
    removeStaged height missing s = .ok working { s with stagedBlocks := [] } := by
  have hstaged : s.stagedBlocks = [(height, working)] := congrArg Prod.snd hs
  have hfind : s.stagedBlocks.find? (fun b => b.1 = height) = some (height, working) := by
    rw [hstaged]
    simp
  have hfilter : s.stagedBlocks.filter (fun b => b.1 ≠ height) = [] := by
    rw [hstaged]
    simp
  rw [removeStaged_eq, hfind]
  show EStateM.Result.ok working { s with
    stagedBlocks := s.stagedBlocks.filter (fun b => b.1 ≠ height) } = _
  rw [hfilter]

theorem rollbackStagedBlock_triple :
    Triple (Staged m height) (rollbackStagedBlock height) (fun _ => AtRest m)
      (fun _ => AtRest m) := by
  rintro s ⟨working, hs⟩
  have hm : s.inscriptions = m := congrArg Prod.fst hs
  have hrun : rollbackStagedBlock height s = .ok () { s with stagedBlocks := [] } :=
    bind_ok (removeStaged_staged _ hs)
  rw [hrun]
  show (s.inscriptions, []) = (m, [])
  rw [hm]

/-- The handler of a failed block takes the staged tracker back. -/
theorem recoverFailedBlockSync_triple (finalized : Bool) (e : IndexerError) :
    Triple (Staged m height) (recoverFailedBlockSync height true finalized e)
      (fun _ => AtRest m) (fun e _ => e = .panic) := by
  have hrest : ∀ msg, Triple (Staged m height) (do
      let transferRollback ← errorOf (rollbackStagedBlock height)
      return mergeBlockFailureWithRecovery msg transferRollback .transferRollbackAfterBlock)
      (fun _ => AtRest m) (fun e _ => e = .panic) :=
    fun msg => Triple.bind (errorOf_triple rollbackStagedBlock_triple) (fun _ _ hs => hs)
  cases finalized with
  | false =>
    exact Triple.bind (errorOf_triple ((abortPendingBlockSync_plain height).keeps_tracker
      (fun tr => ∃ working, tr = (m, [(height, working)])))) (fun _ => hrest _)
  | true =>
    have hback : Plain false (do
        let synced ← readPass (·.syncedBtcBlockHeight)
        rollbackToPassSyncedHeight (synced.getD 0)) :=
      .bind (readPass_plain _) (fun _ => rollbackToPassSyncedHeight_plain _)
    exact Triple.bind (errorOf_triple (hback.keeps_tracker
      (fun tr => ∃ working, tr = (m, [(height, working)])))) (fun _ => hrest _)

theorem processBlockWithHint_eq (block : Block) (seeds : List TransferTrackSeed)
    (hnil : s.stagedBlocks = []) :
    processBlockWithHint env.btc height block seeds s =
      (do
        let (working, items) ← processTxs env.btc height
          (seedInscriptions s.inscriptions seeds) [] block.txdata
        let staged := (← get).stagedBlocks
        modify (fun s => { s with
          stagedBlocks := staged.filter (fun b => b.1 ≠ height) ++ [(height, working)] })
        if (staged.find? (fun b => b.1 = height)).isSome then
          throw (.stagedStateOverwritten height)
        return items : IndexerM (List InscriptionTransferItem)) s := by
  show (if s.stagedBlocks ≠ [] then _ else _ : IndexerM _) s = _
  rw [if_neg (by simp [hnil])]

theorem processBlockWithHint_triple (block : Block) (seeds : List TransferTrackSeed) :
    Triple (AtRest m) (processBlockWithHint env.btc height block seeds)
      (fun _ => Staged m height) (fun _ => AtRest m) := by
  intro s hs
  have hnil : s.stagedBlocks = [] := congrArg Prod.snd hs
  have hm : s.inscriptions = m := congrArg Prod.fst hs
  cases h : processBlockWithHint env.btc height block seeds s with
  | ok items t =>
    obtain ⟨working, fs, -, -, rfl⟩ := processBlockWithHint_ok h
    refine ⟨working, ?_⟩
    show (s.inscriptions, [(height, working)]) = _
    rw [hm]
  | error e t =>
    rw [processBlockWithHint_eq block seeds hnil] at h
    rcases bind_eq_error h with htxs | ⟨⟨working, items⟩, s₁, htxs, hrest⟩
    · obtain ⟨fs, rfl⟩ := (processTxs_readOnly _ _ _ _ _).error htxs
      exact hs
    · obtain ⟨fs, rfl⟩ := (processTxs_readOnly _ _ _ _ _).ok htxs
      have hnil' : (s.withFaults fs).stagedBlocks = [] := hnil
      rcases bind_eq_error hrest with hget | ⟨_, _, hget, hrest⟩
      · cases hget
      · cases hget
        rcases bind_eq_error hrest with hmod | ⟨_, _, hmod, hrest⟩
        · cases hmod
        · cases hmod
          rw [hnil'] at hrest
          cases hrest

theorem collectBlock_triple :
    Triple (AtRest m) (collectBlock env height) (fun _ => Staged m height)
      (fun _ => AtRest m) := by
  have hread : ∀ {α : Type} {x : IndexerM α}, ReadOnly x → Keeps (AtRest m) x :=
    fun h => Keeps.of_preserves (h.map (fun s : IndexerState => s.tracker)) (fun tr => tr = (m, []))
  refine Triple.bind (hread ReadOnly.io) (fun _ => ?_)
  cases env.blockHint with
  | none => exact fun _ hs => hs
  | some block =>
    refine Triple.bind (hread (collectBlockInscriptionMints_readOnly env height)) (fun mints => ?_)
    exact Triple.bind (processBlockWithHint_triple block _) (fun _ _ hs => hs)

theorem publishBlock_triple :
    Triple (Staged m height) (publishBlock cfg env height) (fun _ _ => True)
      (fun _ => Staged m height) := by
  have hkeeps : ∀ {α : Type} {x : IndexerM α}, Plain false x → Keeps (Staged m height) x :=
    fun h => h.keeps_tracker (fun tr => ∃ working, tr = (m, [(height, working)]))
  refine Triple.bind (hkeeps (takeBlockMutationCollector_plain height)) (fun collector => ?_)
  refine Triple.bind (hkeeps (persistPassBlockCommit_plain cfg env height collector)) (fun _ => ?_)
  rintro s ⟨working, hs⟩
  have hrun : commitStagedBlock height s =
      .ok () { s with stagedBlocks := [], inscriptions := working } :=
    bind_ok (removeStaged_staged _ hs)
  rw [hrun]
  trivial

/-- The part of `sync_block` under the collector guard. -/
theorem syncBlock_body_triple (m : MultiMap) (cfg : IndexerConfig) (env : BlockEnv) (height : Nat) :
    Triple (AtRest m) (do
      let (block, mints, items) ← collectBlock env height
      recoverWith (applyBlock cfg env height block mints items)
        (fun e => do throw (← recoverFailedBlockSync height true false e))
      recoverWith (publishBlock cfg env height)
        (fun e => do throw (← recoverFailedBlockSync height true true e)))
      (fun _ _ => True) (fun e s => e ≠ .panic → AtRest m s) := by
  have hcollect : Triple (AtRest m) (collectBlock env height) (fun _ => Staged m height)
      (fun e s => e ≠ .panic → AtRest m s) :=
    collectBlock_triple.conseq (fun _ hs => hs) (fun _ _ hs => hs) (fun _ _ hs _ => hs)
  have hhandler : ∀ {Q : Unit → IndexerState → Prop} (finalized : Bool) (e : IndexerError),
      Triple (Staged m height)
        (do throw (← recoverFailedBlockSync height true finalized e) : IndexerM Unit) Q
        (fun e s => e ≠ .panic → AtRest m s) := by
    intro Q finalized e
    refine Triple.bind (Q := fun _ => AtRest m) ?_ (fun _ _ hs _ => hs)
    exact (recoverFailedBlockSync_triple finalized e).conseq (fun _ hs => hs) (fun _ _ hs => hs)
      (fun _ _ he hne => absurd he hne)
  refine Triple.bind hcollect (fun collected => ?_)
  obtain ⟨block, mints, items⟩ := collected
  have happly : Keeps (Staged m height) (applyBlock cfg env height block mints items) :=
    (applyBlock_plain _ _ _ _ _ _).keeps_tracker (fun tr => ∃ working, tr = (m, [(height, working)]))
  refine Triple.bind (Q := fun _ => Staged m height)
    (recoverWith_triple happly (hhandler false) (fun _ _ hne => absurd rfl hne)) (fun _ => ?_)
  exact recoverWith_triple publishBlock_triple (hhandler true) (fun _ _ hne => absurd rfl hne)

/-- An attempt of `sync_block` that fails leaves the tracker in force as it was. -/
theorem syncBlock_error_tracker {e : IndexerError} (hs : AtRest m s)
    (h : syncBlock cfg env height s = .error e t) (hne : e ≠ .panic) : AtRest m t := by
  have hkeeps : ∀ {α : Type} {x : IndexerM α}, Plain false x → Keeps (AtRest m) x :=
    fun h => h.keeps_tracker (fun tr => tr = (m, []))
  rcases bind_eq_error h with hbegin | ⟨_, s₁, hbegin, h⟩
  · exact (hkeeps (beginBlockSync_plain height)).error hs hbegin
  · have hs₁ := (hkeeps (beginBlockSync_plain height)).ok hs hbegin
    rcases bind_eq_error h with hcollector | ⟨_, s₂, hcollector, h⟩
    · exact (hkeeps beginBlockMutationCollection_plain).error hs₁ hcollector
    · have hs₂ := (hkeeps beginBlockMutationCollection_plain).ok hs₁ hcollector
      have hbody := syncBlock_body_triple m cfg env height s₂ hs₂
      split at h
      · cases h
      · rename_i hrun
        rw [hrun] at hbody
        cases h
        exact hbody hne

/-- A round of `sync_blocks` up to the end of `sync_block`. -/
def syncBlockAttempt (cfg : IndexerConfig) (env : BlockEnv) (height : Nat) : IndexerM Unit := do
  let _ ← readPass (·.syncedBtcBlockHeight)
  io
  syncBlock cfg env height

/-- A round that has published the tracker of its block does not fail any more. -/
def EndsPublished (attempt round : EStateM.Result IndexerError IndexerState Unit) : Prop :=
  match attempt, round with
  | .ok _ _, .error e _ => e = .panic
  | _, _ => True

instance (attempt round : EStateM.Result IndexerError IndexerState Unit) :
    Decidable (EndsPublished attempt round) :=
  match attempt, round with
  | .ok _ _, .error e _ => inferInstanceAs (Decidable (e = .panic))
  | .ok _ _, .ok _ _ => .isTrue trivial
  | .error _ _, _ => .isTrue trivial

theorem syncBlockDurably_error_tracker {e : IndexerError} (hs : AtRest m s)
    (hends : EndsPublished (syncBlockAttempt cfg env height s) (syncBlockDurably cfg env height s))
    (h : syncBlockDurably cfg env height s = .error e t) (hne : e ≠ .panic) : AtRest m t := by
  have hkeeps : ∀ {α : Type} {x : IndexerM α}, Plain false x → Keeps (AtRest m) x :=
    fun h => h.keeps_tracker (fun tr => tr = (m, []))
  rcases bind_eq_error h with hread | ⟨durable, s₁, hread, hrest⟩
  · exact (hkeeps (readPass_plain _)).error hs hread
  have hs₁ := (hkeeps (readPass_plain _)).ok hs hread
  rcases bind_eq_error hrest with hio | ⟨_, s₂, hio, hrest⟩
  · exact (hkeeps .io).error hs₁ hio
  have hs₂ := (hkeeps .io).ok hs₁ hio
  have hattempt : syncBlockAttempt cfg env height s = syncBlock cfg env height s₂ :=
    (bind_ok hread).trans (bind_ok hio)
  cases hblock : syncBlock cfg env height s₂ with
  | ok u s₃ =>
    rw [hattempt, hblock, h] at hends
    exact absurd hends hne
  | error e' s₃ =>
    rw [bind_error hblock] at hrest
    cases hrest
    have hrest₃ := syncBlock_error_tracker hs₂ hblock hne
    exact hrest₃

/-- The tracker goes with the pass table, unless a recovery that will reload it is under
way. -/
structure Tracking (s : IndexerState) : Prop where
  unique : (s.passStorage.minerPasses.map (·.inscriptionId)).Nodup
  noStaged : s.stagedBlocks = []
  distinct : s.inscriptions.Distinct
  tracks : s.passStorage.upstreamReorgRecoveryPendingHeight = none →
    ∃ loaded, Tracks loaded s.passStorage s.inscriptions

namespace Tracking

theorem empty : Tracking .empty := by
  refine ⟨List.nodup_nil, rfl, .new, fun _ => ⟨fun _ => none, .new, fun id => ?_⟩⟩
  refine ⟨none, .new id, rfl, ?_, ?_⟩
  · intro hl
    cases hl
  · intro hl
    cases hl

/-- What the tracker and the pass database are compared by. -/
def parts (s : IndexerState) : List MinerPassInfo × Option Nat × TrackerState :=
  (s.passStorage.minerPasses, s.passStorage.upstreamReorgRecoveryPendingHeight, s.tracker)

theorem of_parts (h : Tracking s) (ht : parts t = parts s) : Tracking t := by
  have hrows : t.passStorage.minerPasses = s.passStorage.minerPasses := congrArg Prod.fst ht
  have hmarker : t.passStorage.upstreamReorgRecoveryPendingHeight =
      s.passStorage.upstreamReorgRecoveryPendingHeight := congrArg (fun x => x.2.1) ht
  have hm : t.inscriptions = s.inscriptions := congrArg (fun x => x.2.2.1) ht
  have hstaged : t.stagedBlocks = s.stagedBlocks := congrArg (fun x => x.2.2.2) ht
  refine ⟨?_, hstaged.trans h.noStaged, ?_, ?_⟩
  · rw [hrows]
    exact h.unique
  · rw [hm]
    exact h.distinct
  · intro hnone
    obtain ⟨loaded, htracks⟩ := h.tracks (hmarker.symm.trans hnone)
    rw [hm]
    exact ⟨loaded, htracks.congr hrows⟩

theorem keeps_parts {α : Type} {x : IndexerM α} (hx : Preserves parts x) : Keeps Tracking x :=
  Keeps.of_run (fun s hs => hs.of_parts (hx s))

/-- After a reload the tracker goes with the table, whatever it was before. -/
theorem reload {u : Unit} (hn : (s.passStorage.minerPasses.map (·.inscriptionId)).Nodup)
    (h : reloadFromStorage s = .ok u t) :
    Tracks s.passStorage.loadedStates s.passStorage t.inscriptions ∧ t.stagedBlocks = [] := by
  obtain ⟨fs, rfl⟩ := reloadFromStorage_ok h
  exact ⟨.reloaded hn, rfl⟩

theorem of_reloaded (hn : (s.passStorage.minerPasses.map (·.inscriptionId)).Nodup)
    (h : Reloaded s) : Tracking s := by
  have htracks : Tracks s.passStorage.loadedStates s.passStorage s.inscriptions := by
    rw [h.1]
    exact .reloaded hn
  exact ⟨hn, h.2, htracks.distinct, fun _ => ⟨_, htracks⟩⟩

theorem resume (cfg : IndexerConfig) :
    Keeps Tracking (resumePendingUpstreamReorgRecovery cfg) := by
  refine Keeps.of_run (fun s hs => ?_)
  have hsettled : SettledTracker s.tracker := ⟨hs.distinct, hs.noStaged⟩
  have hretracks : SettledTracker (finalState (resumePendingUpstreamReorgRecovery cfg s)).tracker := by
    rcases resumePendingUpstreamReorgRecovery_retracks cfg s with ⟨hsame, -⟩ | ⟨hnew, -⟩
    · rw [hsame]
      exact hsettled
    · exact hnew
  cases h : resumePendingUpstreamReorgRecovery cfg s with
  | error e t =>
    rw [h] at hretracks
    have hpass := resumePendingUpstreamReorgRecovery_error_pass h
    refine ⟨?_, hretracks.2, hretracks.1, fun hnone => ?_⟩
    · show (t.passStorage.minerPasses.map _).Nodup
      rw [hpass]
      exact hs.unique
    · change t.passStorage.upstreamReorgRecoveryPendingHeight = none at hnone
      rw [hpass] at hnone
      rcases bind_eq_error h with hread | ⟨marker, s₁, hread, hrest⟩
      · obtain ⟨fs, rfl⟩ := (ReadOnly.readPass _).error hread
        exact hs.tracks hnone
      · obtain ⟨rfl, fs, rfl⟩ := readPass_ok hread
        rw [hnone] at hrest
        cases hrest
  | ok u t =>
    rw [h] at hretracks
    rcases resumePendingUpstreamReorgRecovery_ok h with ⟨-, fs, rfl⟩ |
      ⟨pending, fs, s₁, s₂, fs', -, -, hroll, hreload, rfl⟩
    · exact hs.of_parts rfl
    · have hpass : s₁.passStorage = (s.withFaults fs).passStorage :=
        (energyBlind_passStorage.reconcileWithPassSyncedHeight pending).ok hroll
      change s₁.passStorage = s.passStorage at hpass
      have hunique := hs.unique
      rw [← hpass] at hunique
      have htracks := (reload hunique hreload).1
      rw [hpass] at htracks
      have hfinal : Tracks s.passStorage.loadedStates (cleared s.passStorage) s₂.inscriptions :=
        htracks.congr rfl
      exact ⟨hs.unique, hretracks.2, hretracks.1, fun _ => ⟨_, hfinal⟩⟩

theorem reconcileUpstreamReorg (cfg : IndexerConfig) (height : Nat) (rollbackTarget : Option Nat) :
    Keeps Tracking (reconcileUpstreamReorg cfg height rollbackTarget) := by
  cases rollbackTarget with
  | none => exact Keeps.pure _
  | some target =>
    refine Keeps.bind (Keeps.of_run (fun s hs => ?_)) (fun _ =>
      Keeps.bind (resume cfg) (fun _ => Keeps.pure _))
    cases hw : writePass
        (·.rollbackToBlockHeightWithUpstreamReorgRecoveryPending target none) s with
    | error e t =>
      obtain ⟨fs, rfl⟩ := writePass_error hw
      exact hs.of_parts rfl
    | ok u t =>
      obtain ⟨ps, fs, hps, rfl⟩ := writePass_ok hw
      obtain ⟨rfl, hc⟩ := rollbackToBlockHeightInternal_ok hps
      exact ⟨hc.1, hs.noStaged, hs.distinct, fun hnone => by cases hnone⟩

theorem prepareSync (cfg : IndexerConfig) (rollbackTarget : Option Nat) :
    Keeps Tracking (prepareSync cfg rollbackTarget) := by
  have hread : ∀ {α : Type} (f : MinerPassStorage → α), Keeps Tracking (readPass f) :=
    fun f => keeps_parts (readPass_preserves (fun _ _ => rfl) f)
  have hcheck : ∀ f, Keeps Tracking (checkPass f) :=
    fun f => keeps_parts (checkPass_preserves (fun _ _ => rfl) f)
  have hblind : EnergyBlind parts := ⟨fun _ _ => rfl, fun _ _ => rfl⟩
  refine Keeps.bind (hread _) (fun _ => Keeps.bind (resume cfg) (fun _ => ?_))
  refine Keeps.bind (hread _) (fun height => ?_)
  refine Keeps.bind (reconcileUpstreamReorg cfg height rollbackTarget) (fun height => ?_)
  refine Keeps.bind (hcheck _) (fun _ => Keeps.bind (hcheck _) (fun _ => ?_))
  exact keeps_parts (hblind.reconcileWithPassSyncedHeight height)

theorem writePass_parts {f : MinerPassStorage → Except IndexerError MinerPassStorage}
    (hf : ∀ ps ps', f ps = .ok ps' → ps'.minerPasses = ps.minerPasses ∧
      ps'.upstreamReorgRecoveryPendingHeight = ps.upstreamReorgRecoveryPendingHeight) :
    Preserves parts (writePass f) := by
  intro s
  cases hw : writePass f s with
  | error e t =>
    obtain ⟨fs, rfl⟩ := writePass_error hw
    rfl
  | ok u t =>
    obtain ⟨ps, fs, hps, rfl⟩ := writePass_ok hw
    obtain ⟨hrows, hmarker⟩ := hf _ _ hps
    show (ps.minerPasses, ps.upstreamReorgRecoveryPendingHeight, s.tracker) = parts s
    rw [hrows, hmarker]
    rfl

theorem finishSync (cfg : IndexerConfig) (height : Nat) (snapshot : BalanceHistorySnapshotInfo)
    (stateRefAtHeight : Nat → BalanceHistorySnapshotInfo) :
    Keeps Tracking (finishSync cfg height snapshot stateRefAtHeight) := by
  refine keeps_parts (finishSync_preserves (fun _ _ => rfl) (fun snapshot => ?_)
    (fun snapshot => ?_) _ _ _)
  · refine writePass_parts (fun ps ps' hps => ?_)
    unfold upsertBalanceHistorySnapshotAnchor at hps
    cases ha : snapshotAnchor snapshot with
    | error e =>
      rw [ha] at hps
      cases hps
    | ok anchor =>
      rw [ha] at hps
      cases hps
      exact ⟨rfl, rfl⟩
  · refine writePass_parts (fun ps ps' hps => ?_)
    unfold upsertBalanceHistorySnapshotHistoryEntry at hps
    cases ha : snapshotAnchor snapshot with
    | error e =>
      rw [ha] at hps
      cases hps
    | ok anchor =>
      rw [ha] at hps
      cases hps
      exact ⟨rfl, rfl⟩

/-- A block that becomes durable publishes the tracker that goes with it. -/
theorem block (h : Tracking s) (hmarker : s.passStorage.upstreamReorgRecoveryPendingHeight = none)
    (run : BlockRun cfg env height s t) (hwf : run.block.WellFormed)
    (hunique : (t.passStorage.minerPasses.map (·.inscriptionId)).Nodup) : Tracking t := by
  obtain ⟨loaded, htracks⟩ := h.tracks hmarker
  obtain ⟨loaded', hafter⟩ := run.tracks hwf htracks
  have hm : t.inscriptions = run.working := congrArg IndexerState.inscriptions run.final
  have hstaged : t.stagedBlocks = [] := congrArg IndexerState.stagedBlocks run.final
  have hrows : t.passStorage.minerPasses = run.minted.passStorage.minerPasses := by
    rw [run.passStorage_final]
    rfl
  refine ⟨hunique, hstaged, ?_, fun _ => ⟨loaded', ?_⟩⟩
  · rw [hm]
    exact hafter.distinct
  · rw [hm]
    exact hafter.congr hrows

end Tracking

/-- A prepared round has no recovery pending. -/
theorem prepareSync_recoveryPending {rollbackTarget : Option Nat} {u : Unit}
    (h : prepareSync cfg rollbackTarget s = .ok u t) :
    t.passStorage.upstreamReorgRecoveryPendingHeight = none := by
  have hcheck : ∀ height, Preserves IndexerState.passStorage (do
      checkPass (·.assertNoDataAfterBlockHeight height)
      checkPass (·.assertBalanceSnapshotConsistency height cfg.genesisBlockHeight)
      reconcileWithPassSyncedHeight height) := fun height =>
    Preserves.bind (checkPass_preserves (fun _ _ => rfl) _) (fun _ =>
      Preserves.bind (checkPass_preserves (fun _ _ => rfl) _) (fun _ =>
        energyBlind_passStorage.reconcileWithPassSyncedHeight height))
  obtain ⟨_, s₁, -, h⟩ := bind_eq_ok h
  obtain ⟨_, s₂, hresume, h⟩ := bind_eq_ok h
  have hcleared := resumePendingUpstreamReorgRecovery_ok_pass hresume
  obtain ⟨height, s₃, hread, h⟩ := bind_eq_ok h
  obtain ⟨-, fs, rfl⟩ := readPass_ok hread
  obtain ⟨height', s₄, hreorg, h⟩ := bind_eq_ok h
  rw [(hcheck height').ok h]
  cases rollbackTarget with
  | none =>
    cases hreorg
    show s₂.passStorage.upstreamReorgRecoveryPendingHeight = none
    rw [hcleared]
    rfl
  | some target =>
    obtain ⟨_, s₅, -, hreorg⟩ := bind_eq_ok hreorg
    obtain ⟨_, s₆, hresume', hreorg⟩ := bind_eq_ok hreorg
    cases hreorg
    rw [resumePendingUpstreamReorgRecovery_ok_pass hresume']
    rfl

end InscriptionIndexer

namespace World

open InscriptionIndexer

variable {cfg : IndexerConfig} {w w' : World} {l : Label}

/-- The next block is one of the chain: it is well formed and spends no outpoint that a
pass was burned from. -/
def OnChain (w : World) : Label → Prop
  | .block env _ _ => ∀ block ∈ env.blockHint,
      block.WellFormed ∧ SparesBurned w.indexer.passStorage block
  | _ => True

instance (w : World) (l : Label) : Decidable (OnChain w l) :=
  match l with
  | .block env _ _ => inferInstanceAs (Decidable (∀ block ∈ env.blockHint, _))
  | .prepare _ _ => .isTrue trivial
  | .finish _ _ _ => .isTrue trivial
  | .restart _ => .isTrue trivial

/-- The next block is well formed. -/
def WellFormedBlock : Label → Prop
  | .block env _ _ => ∀ block ∈ env.blockHint, block.WellFormed
  | _ => True

instance (l : Label) : Decidable (WellFormedBlock l) :=
  match l with
  | .block env _ _ => inferInstanceAs (Decidable (∀ block ∈ env.blockHint, _))
  | .prepare _ _ => .isTrue trivial
  | .finish _ _ _ => .isTrue trivial
  | .restart _ => .isTrue trivial

theorem OnChain.wellFormedBlock (h : OnChain w l) : WellFormedBlock l := by
  cases l with
  | block env balances faults => exact fun block hblock => (h block hblock).1
  | _ => trivial

/-- Once the tracker of a block has been published, neither the update of the synced height
nor the release of the savepoint fails. -/
def PublishesLast (cfg : IndexerConfig) (w : World) : Label → Prop
  | .block env _ faults => EndsPublished
      (syncBlockAttempt cfg env (w.height cfg + 1) (w.indexer.withFaults faults))
      (syncBlockDurably cfg env (w.height cfg + 1) (w.indexer.withFaults faults))
  | _ => True

instance (cfg : IndexerConfig) (w : World) (l : Label) : Decidable (PublishesLast cfg w l) :=
  match l with
  | .block _ _ _ => inferInstanceAs (Decidable (EndsPublished _ _))
  | .prepare _ _ => .isTrue trivial
  | .finish _ _ _ => .isTrue trivial
  | .restart _ => .isTrue trivial

/-- A round that is ready for the next block has no recovery pending. -/
def Ready (w : World) : Prop :=
  w.phase = .syncing → w.indexer.passStorage.upstreamReorgRecoveryPendingHeight = none

/-- A program that does not end in a round ready for the next block leaves nothing to show. -/
theorem Ready.settle {x : EStateM.Result IndexerError IndexerState Unit} {v : World}
    {ok failed : Phase} (hfailed : failed ≠ .syncing)
    (hok : ok = .syncing → ∀ u t, x = .ok u t →
      t.passStorage.upstreamReorgRecoveryPendingHeight = none) : Ready (v.settle x ok failed) := by
  cases x with
  | ok u t => exact fun hphase => hok hphase u t rfl
  | error e t => cases e <;> exact fun hphase => by first | exact absurd hphase hfailed | cases hphase

theorem Step.ready (hi : Ready w) (hs : Step cfg w l w') : Ready w' := by
  obtain ⟨enabled, rfl⟩ := hs
  cases l with
  | prepare rollbackTarget faults =>
    exact .settle (by decide) (fun _ u t h => prepareSync_recoveryPending h)
  | block env balances faults =>
    have hrecorded : Ready (w.settle (syncBlockDurably cfg env (w.height cfg + 1)
        (w.indexer.withFaults faults)) .syncing .idle) := by
      refine .settle (by decide) (fun _ u t h => ?_)
      obtain ⟨run⟩ := syncBlockDurably_ok h
      have hreach := run.minted_reach (BlockEventExecutor.eventsSatisfy_of_forall
        BlockEventExecutor.burnsOnly_true _ _)
      rw [run.passStorage_final]
      show run.minted.passStorage.upstreamReorgRecoveryPendingHeight = none
      rw [hreach.part_eq upstreamReorgRecoveryPendingHeight (fun _ _ _ _ => rfl)]
      exact hi enabled
    cases h : syncBlockDurably cfg env (w.height cfg + 1) (w.indexer.withFaults faults) with
    | ok u t =>
      rw [h] at hrecorded
      simp only [next, h]
      exact hrecorded
    | error e t =>
      rw [h] at hrecorded
      simp only [next, h]
      exact hrecorded
  | finish snapshot stateRefAtHeight faults => exact .settle (by decide) (fun hok => by cases hok)
  | restart faults => exact .settle (by decide) (fun hok => by cases hok)

/-- The tracker of a running process goes with its pass table. -/
structure TrackerInv (w : World) : Prop where
  tracking : w.phase ≠ .crashed → Tracking w.indexer
  ready : Ready w

theorem TrackerInv.initial : TrackerInv World.initial :=
  ⟨fun _ => .empty, fun h => by cases h⟩

/-- A program that keeps the tracker in step leaves a world with the tracker in step. -/
theorem Tracking.settle {x : IndexerM Unit} {v : World} {s : IndexerState} {ok failed : Phase}
    (hx : Keeps Tracking x) (hs : Tracking s) : Tracking (v.settle (x s) ok failed).indexer := by
  have hrun := hx.run hs
  cases h : x s with
  | ok u t =>
    rw [h] at hrun
    exact hrun.of_parts rfl
  | error e t =>
    rw [h] at hrun
    cases e <;> exact hrun.of_parts rfl

/-- A block that fails without a crash, before its tracker was published, leaves the pass
database and the tracker as they were. -/
theorem TrackerInv.failedBlock {env : BlockEnv} {balances : BalanceHistory}
    {faults : List IoResult} {e : IndexerError} {t : IndexerState} (hi : TrackerInv w)
    (hphase : w.phase ≠ .crashed) (hlast : PublishesLast cfg w (.block env balances faults))
    (h : syncBlockDurably cfg env (w.height cfg + 1) (w.indexer.withFaults faults) = .error e t)
    (hne : e ≠ .panic) :
    t.passStorage = w.indexer.passStorage ∧ t.tracker = w.indexer.tracker := by
  have hends : EndsPublished
      (syncBlockAttempt cfg env (w.height cfg + 1) (w.indexer.withFaults faults))
      (syncBlockDurably cfg env (w.height cfg + 1) (w.indexer.withFaults faults)) := hlast
  have htracker : w.indexer.tracker = (w.indexer.inscriptions, []) := by
    show (w.indexer.inscriptions, w.indexer.stagedBlocks) = _
    rw [(hi.tracking hphase).noStaged]
  have hstart : AtRest w.indexer.inscriptions (w.indexer.withFaults faults) := htracker
  have hrest := syncBlockDurably_error_tracker hstart hends h hne
  have hpass := syncBlockDurably_error_pass h
  exact ⟨hpass, hrest.trans htracker.symm⟩

theorem Step.trackerInv (hi : TrackerInv w) (hp : PassInv (fun _ => True) cfg w.indexer.passStorage)
    (hwf : WellFormedBlock l) (hlast : PublishesLast cfg w l) (hs : Step cfg w l w') :
    TrackerInv w' := by
  have hp' := hs.passInv hp
  refine ⟨?_, hs.ready hi.ready⟩
  obtain ⟨enabled, rfl⟩ := hs
  cases l with
  | prepare rollbackTarget faults =>
    have hphase : w.phase ≠ .crashed := by
      rw [enabled.1]
      decide
    exact fun _ => Tracking.settle (Tracking.prepareSync cfg rollbackTarget)
      ((hi.tracking hphase).of_parts rfl)
  | block env balances faults =>
    have hsyncing : w.phase = .syncing := enabled
    have hphase : w.phase ≠ .crashed := by
      rw [hsyncing]
      decide
    have htracking : Tracking (w.indexer.withFaults faults) := (hi.tracking hphase).of_parts rfl
    cases h : syncBlockDurably cfg env (w.height cfg + 1) (w.indexer.withFaults faults) with
    | ok u t =>
      simp only [next, h] at hp' ⊢
      obtain ⟨run⟩ := syncBlockDurably_ok h
      have hunique : (t.passStorage.minerPasses.map (·.inscriptionId)).Nodup :=
        hp'.table.constraints.1
      have hblock := htracking.block (hi.ready hsyncing) run (hwf run.block run.hint) hunique
      exact fun _ => hblock.of_parts rfl
    | error e t =>
      simp only [next, h] at hp' ⊢
      by_cases hpanic : e = .panic
      · subst hpanic
        exact fun hne => absurd rfl hne
      · obtain ⟨hpass, htracker⟩ := hi.failedBlock hphase hlast h hpanic
        have hsame : Tracking t := by
          refine htracking.of_parts ?_
          unfold Tracking.parts
          rw [hpass, htracker]
          rfl
        cases e <;> exact fun _ => hsame.of_parts rfl
  | finish snapshot stateRefAtHeight faults =>
    have hphase : w.phase ≠ .crashed := by
      rw [enabled.1]
      decide
    exact fun _ => Tracking.settle (Tracking.finishSync cfg _ snapshot stateRefAtHeight)
      ((hi.tracking hphase).of_parts rfl)
  | restart faults =>
    cases h : reloadFromStorage (w.indexer.afterRestart.withFaults faults) with
    | ok u t =>
      simp only [next, h]
      obtain ⟨fs, rfl⟩ := reloadFromStorage_ok h
      exact fun _ => .of_reloaded hp.table.constraints.1 ⟨rfl, rfl⟩
    | error e t =>
      simp only [next, h]
      cases e <;> exact fun hne => absurd rfl hne

/-- The runs in which the tracker stays in step with the pass table. -/
def KeepsTracker (cfg : IndexerConfig) (w : World) (l : Label) : Prop :=
  OnChain w l ∧ PublishesLast cfg w l

instance (cfg : IndexerConfig) (w : World) (l : Label) : Decidable (KeepsTracker cfg w l) :=
  inferInstanceAs (Decidable (_ ∧ _))

theorem KeepsTracker.publishes (h : KeepsTracker cfg w l) :
    WellFormedBlock l ∧ PublishesLast cfg w l :=
  ⟨h.1.wellFormedBlock, h.2⟩

/-- A run that keeps the tracker in step goes on with it in step. -/
theorem Run.trackerInv {cond : World → Label → Prop}
    (hcond : ∀ w l, cond w l → WellFormedBlock l ∧ PublishesLast cfg w l) (h : Run cfg cond w w')
    (hp : PassInv (fun _ => True) cfg w.indexer.passStorage) (hi : TrackerInv w) :
    TrackerInv w' := by
  have hboth := Machine.Run.induct h
    (P := fun w => PassInv (fun _ => True) cfg w.indexer.passStorage ∧ TrackerInv w)
    ⟨hp, hi⟩ (fun w l w' hi hc hs =>
      ⟨hs.passInv hi.1, hs.trackerInv hi.2 hi.1 (hcond w l hc).1 (hcond w l hc).2⟩)
  exact hboth.2

theorem Reachable.trackerInv {cond : World → Label → Prop}
    (hcond : ∀ w l, cond w l → WellFormedBlock l ∧ PublishesLast cfg w l)
    (h : Reachable cfg cond w) : TrackerInv w :=
  Run.trackerInv hcond h PassInv.empty .initial

theorem Reachable.ready {cond : World → Label → Prop} (h : Reachable cfg cond w) : Ready w :=
  h.induct TrackerInv.initial.ready (fun _ _ _ hi _ hs => hs.ready hi)

/-- Whatever the run did before, some reachable world of a running process had its tracker
as a reload builds it, and the tracker has been kept in step since. -/
def KeptSinceLoad (cfg : IndexerConfig) (w : World) : Prop :=
  ∃ v, Reachable cfg (fun _ _ => True) v ∧ Reloaded v.indexer ∧ Run cfg (KeepsTracker cfg) v w

namespace KeptSinceLoad

theorem of_reachable (h : Reachable cfg (KeepsTracker cfg) w) : KeptSinceLoad cfg w :=
  ⟨initial, .refl _, ⟨rfl, rfl⟩, h⟩

theorem reachable (h : KeptSinceLoad cfg w) : Reachable cfg (fun _ _ => True) w := by
  obtain ⟨v, hv, -, run⟩ := h
  have hrest : Run cfg (fun _ _ => True) v w := run.mono (fun _ _ _ => trivial)
  exact Machine.Run.trans hv hrest

theorem step (h : KeptSinceLoad cfg w) (hkeeps : KeepsTracker cfg w l) (hs : Step cfg w l w') :
    KeptSinceLoad cfg w' := by
  obtain ⟨v, hv, hload, run⟩ := h
  exact ⟨v, hv, hload, run.step hkeeps hs⟩

theorem follows (h : KeptSinceLoad cfg w) {labels : List Label}
    (hl : Follows cfg (KeepsTracker cfg) w labels) :
    KeptSinceLoad cfg (labels.foldl (next cfg) w) := by
  obtain ⟨v, hv, hload, run⟩ := h
  exact ⟨v, hv, hload, Run.of_follows run hl⟩

theorem trackerInv (h : KeptSinceLoad cfg w) : TrackerInv w := by
  obtain ⟨v, hv, hload, run⟩ := h
  refine Run.trackerInv (fun _ _ hkeeps => hkeeps.publishes) run hv.passInv ⟨fun _ => ?_, hv.ready⟩
  exact .of_reloaded hv.passInv.table.constraints.1 hload

/-- A restart that comes up has loaded the tracker. -/
theorem restarted {faults : List IoResult} (h : Reachable cfg (fun _ _ => True) w)
    (hup : (next cfg w (.restart faults)).phase = .idle) :
    KeptSinceLoad cfg (next cfg w (.restart faults)) := by
  have enabled : Enabled cfg w (.restart faults) := trivial
  refine ⟨_, h.step trivial ⟨enabled, rfl⟩, ?_, .refl _⟩
  cases hload : reloadFromStorage (w.indexer.afterRestart.withFaults faults) with
  | ok u t =>
    simp only [next, hload]
    obtain ⟨fs, rfl⟩ := reloadFromStorage_ok hload
    exact ⟨rfl, rfl⟩
  | error e t =>
    simp only [next, hload] at hup
    cases e <;> cases hup

end KeptSinceLoad

end World

end Usdb
