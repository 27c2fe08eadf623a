import Usdb.Index.Replicas

namespace Usdb

open Framework MinerPassStorage PassEnergyManager InscriptionTransferTracker

/-- A tracker between two blocks: nothing is staged, and an inscription is listed at most
once under an outpoint. -/
def SettledTracker (tr : TrackerState) : Prop :=
  tr.1.Distinct ∧ tr.2 = []

/-- A program leaves the tracker alone without looking at it, or replaces it by one that
does not depend on what it was. -/
def Retracks {α : Type} (x : IndexerM α) : Prop :=
  ∀ s, ((finalState (x s)).tracker = s.tracker ∧
      ∀ tr, x (s.setTracker tr) = mapState (IndexerState.setTracker tr) (x s)) ∨
    (SettledTracker (finalState (x s)).tracker ∧ ∀ tr, x (s.setTracker tr) = x s)

theorem Plain.retracks {α : Type} {x : IndexerM α} (h : Plain false x) : Retracks x :=
  fun s => .inl ⟨h.preserves s, fun tr => h.trackerFree tr s⟩

namespace Retracks

variable {α β : Type}

theorem bind {x : IndexerM α} {f : α → IndexerM β} (hx : Retracks x) (hf : ∀ a, Retracks (f a)) :
    Retracks (x >>= f) := by
  intro s
  have hxs := hx s
  cases h : x s with
  | error e t =>
    rw [h] at hxs
    rw [bind_error h]
    rcases hxs with ⟨htracker, hcarry⟩ | ⟨hsettled, hsame⟩
    · exact .inl ⟨htracker, fun tr => bind_error (hcarry tr)⟩
    · exact .inr ⟨hsettled, fun tr => bind_error (hsame tr)⟩
  | ok a t =>
    rw [h] at hxs
    rw [bind_ok h]
    rcases hxs with ⟨htracker, hcarry⟩ | ⟨hsettled, hsame⟩
    · have hcont : ∀ tr, (x >>= f) (s.setTracker tr) = f a (t.setTracker tr) :=
        fun tr => bind_ok (hcarry tr)
      rcases hf a t with ⟨htracker', hcarry'⟩ | ⟨hsettled', hsame'⟩
      · exact .inl ⟨htracker'.trans htracker, fun tr => (hcont tr).trans (hcarry' tr)⟩
      · exact .inr ⟨hsettled', fun tr => (hcont tr).trans (hsame' tr)⟩
    · have hcont : ∀ tr, (x >>= f) (s.setTracker tr) = f a t := fun tr => bind_ok (hsame tr)
      rcases hf a t with ⟨htracker', -⟩ | ⟨hsettled', -⟩
      · refine .inr ⟨?_, hcont⟩
        rw [htracker']
        exact hsettled
      · exact .inr ⟨hsettled', hcont⟩

end Retracks

namespace InscriptionTransferTracker

theorem loadAllPasses_settled (index rounds : Nat) :
    Keeps (fun s => SettledTracker s.tracker) (loadAllPasses index rounds) := by
  induction rounds generalizing index with
  | zero => exact .pure _
  | succ rounds ih =>
    refine .bind (.of_preserves (Plain.preserves (readPass_plain _)) _) (fun passes => ?_)
    refine .ite _ (fun _ => .pure _) (fun _ => .bind (.of_run (fun s hs => ?_)) (fun _ => ?_))
    · exact ⟨hs.1.insertAll passes, hs.2⟩
    · exact .ite _ (fun _ => .pure _) (fun _ => ih _)

theorem reloadFromStorage_settled (s : IndexerState) :
    SettledTracker (finalState (reloadFromStorage s)).tracker :=
  (loadAllPasses_settled 0 _).run (s := { s with inscriptions := MultiMap.new, stagedBlocks := [] })
    ⟨.new, rfl⟩

theorem reloadFromStorage_retracks : Retracks reloadFromStorage :=
  fun s => .inr ⟨reloadFromStorage_settled s, fun _ => rfl⟩

end InscriptionTransferTracker

namespace InscriptionIndexer

theorem reconcileWithPassSyncedHeight_plain (height : Nat) {tracking : Bool} :
    Plain tracking (reconcileWithPassSyncedHeight height) :=
  .bind recoverPendingBlock_plain (fun _ => .bind (truncateFutureRecords_plain height) (fun _ =>
    reconcileSyncedMarker_plain height))

theorem resumePendingUpstreamReorgRecovery_retracks (cfg : IndexerConfig) :
    Retracks (resumePendingUpstreamReorgRecovery cfg) := by
  refine .bind (readPass_plain _).retracks (fun pending => ?_)
  cases pending with
  | none => exact (Plain.pure _).retracks
  | some height =>
    have hrest : Retracks (do
        rollbackToPassSyncedHeight height
        reloadFromStorage
        checkPass (·.assertNoDataAfterBlockHeight height)
        checkPass (·.assertBalanceSnapshotConsistency height cfg.genesisBlockHeight)
        writePass (fun ps => .ok { ps with upstreamReorgRecoveryPendingHeight := none })) :=
      .bind (rollbackToPassSyncedHeight_plain height).retracks (fun _ =>
        .bind reloadFromStorage_retracks (fun _ => Plain.retracks (.bind (checkPass_plain _)
          (fun _ => .bind (checkPass_plain _) (fun _ => writePass_plain _)))))
    refine .bind (readPass_plain _).retracks (fun synced => ?_)
    dsimp only
    split
    · exact .bind (Plain.throw _).retracks (fun _ => hrest)
    · exact hrest

theorem reconcileUpstreamReorg_retracks (cfg : IndexerConfig) (height : Nat)
    (rollbackTarget : Option Nat) : Retracks (reconcileUpstreamReorg cfg height rollbackTarget) := by
  cases rollbackTarget with
  | none => exact (Plain.pure _).retracks
  | some target =>
    exact .bind (writePass_plain _).retracks (fun _ =>
      .bind (resumePendingUpstreamReorgRecovery_retracks cfg) (fun _ => (Plain.pure _).retracks))

theorem prepareSync_retracks (cfg : IndexerConfig) (rollbackTarget : Option Nat) :
    Retracks (prepareSync cfg rollbackTarget) := by
  refine .bind (readPass_plain _).retracks (fun _ => ?_)
  refine .bind (resumePendingUpstreamReorgRecovery_retracks cfg) (fun _ => ?_)
  refine .bind (readPass_plain _).retracks (fun height => ?_)
  refine .bind (reconcileUpstreamReorg_retracks cfg height rollbackTarget) (fun height => ?_)
  exact Plain.retracks (.bind (checkPass_plain _) (fun _ => .bind (checkPass_plain _)
    (fun _ => reconcileWithPassSyncedHeight_plain height)))

theorem backfillFrom_plain (stateRef : Nat → BalanceHistorySnapshotInfo) (height count : Nat)
    {tracking : Bool} : Plain tracking (backfillFrom stateRef height count) := by
  induction count generalizing height with
  | zero => exact .pure _
  | succ count ih =>
    refine .bind (readPass_plain _) (fun found => ?_)
    cases found with
    | some _ => exact ih (height + 1)
    | none => exact .bind .io (fun _ => .bind (writePass_plain _) (fun _ => ih (height + 1)))

theorem finishSync_plain (cfg : IndexerConfig) (height : Nat)
    (snapshot : BalanceHistorySnapshotInfo) (stateRef : Nat → BalanceHistorySnapshotInfo)
    {tracking : Bool} : Plain tracking (finishSync cfg height snapshot stateRef) := by
  refine .bind ?_ (fun _ => ?_)
  · exact .ite _ (.bind (.throw _) (fun _ => writePass_plain _)) (writePass_plain _)
  · unfold backfillBalanceHistorySnapshotHistory
    split
    · refine .bind (readPass_plain _) (fun first => ?_)
      cases first with
      | none => exact .pure _
      | some first => exact backfillFrom_plain _ _ _
    · exact .pure _

end InscriptionIndexer

namespace InscriptionIndexer

open MinerPassManager

theorem commitStagedBlock_plain (height : Nat) : Plain true (commitStagedBlock height) := by
  refine .bind ?_ (fun _ => .modify (fun _ _ => rfl) (fun h => absurd h (by decide)))
  refine .get_bind (fun _ _ => rfl) (fun h => absurd h (by decide)) (fun s => ?_)
  cases s.stagedBlocks.find? (fun b => b.1 = height) with
  | none => exact .throw _
  | some staged =>
    exact .bind (.modify (fun _ _ => rfl) (fun h => absurd h (by decide))) (fun _ => .pure _)

theorem syncBlockThrough_plain (cfg : IndexerConfig) (env : BlockEnv) (height : Nat) :
    Plain true (syncBlockThrough cfg env height) := by
  refine .bind ?_ (fun _ => .bind ?_ (fun _ => .bind (writePass_plain _) (fun _ => .io)))
  · refine .bind (readPass_plain _) (fun _ => .bind .io (fun _ => ?_))
    refine .bind (beginBlockSync_plain height) (fun _ => ?_)
    refine .bind beginBlockMutationCollection_plain (fun _ => ?_)
    exact .bind (collectBlock_plain env height) (fun _ => applyBlock_plain _ _ _ _ _ _)
  · refine .bind (takeBlockMutationCollector_plain height) (fun collector => ?_)
    exact .bind (persistPassBlockCommit_plain _ _ _ _) (fun _ => commitStagedBlock_plain height)

end InscriptionIndexer

namespace World

open InscriptionIndexer

variable {cfg : IndexerConfig} {except : OutPoint → Prop}

/-- The next block becomes durable, with what the calls made on the way report. -/
def Syncs (cfg : IndexerConfig) (w : World) (env : BlockEnv) (faults : List IoResult)
    (t : IndexerState) : Prop :=
  syncBlockDurably cfg env (w.height cfg + 1) (w.indexer.withFaults faults) = .ok () t

/-- Two runs side by side. Both take the same steps, except that their sources may list the
inscriptions of a block differently and that other calls may fail before a block becomes
durable; no block spends an outpoint of the set. -/
inductive TwinRun (cfg : IndexerConfig) (except : OutPoint → Prop) (start : World × World) :
    World × World → Prop
  | refl : TwinRun cfg except start start
  | prepare {w w' : World} (run : TwinRun cfg except start (w, w')) (rollbackTarget : Option Nat)
      (faults : List IoResult) (enabled : Enabled cfg w (.prepare rollbackTarget faults)) :
      TwinRun cfg except start (next cfg w (.prepare rollbackTarget faults),
        next cfg w' (.prepare rollbackTarget faults))
  | block {w w' : World} (run : TwinRun cfg except start (w, w')) (env env' : BlockEnv)
      (balances : BalanceHistory) (faults faults' : List IoResult) (t t' : IndexerState)
      (enabled : Enabled cfg w (.block env balances faults))
      (alike : EnvAlike (w.height cfg + 1) env env') (avoids : Avoids except env)
      (syncs : w.Syncs cfg env faults t) (syncs' : w'.Syncs cfg env' faults' t') :
      TwinRun cfg except start (next cfg w (.block env balances faults),
        next cfg w' (.block env' balances faults'))
  | finish {w w' : World} (run : TwinRun cfg except start (w, w'))
      (snapshot : BalanceHistorySnapshotInfo)
      (stateRefAtHeight : Nat → BalanceHistorySnapshotInfo) (faults : List IoResult)
      (enabled : Enabled cfg w (.finish snapshot stateRefAtHeight faults)) :
      TwinRun cfg except start (next cfg w (.finish snapshot stateRefAtHeight faults),
        next cfg w' (.finish snapshot stateRefAtHeight faults))
  | restart {w w' : World} (run : TwinRun cfg except start (w, w')) (faults : List IoResult) :
      TwinRun cfg except start (next cfg w (.restart faults), next cfg w' (.restart faults))

/-- Two worlds that differ at most in trackers that agree outside a set of outpoints. -/
structure Twins (except : OutPoint → Prop) (w w' : World) : Prop where
  phase : w'.phase = w.phase
  replica : Replica except w.indexer w'.indexer

theorem Twins.height {w w' : World} (h : Twins except w w') : w'.height cfg = w.height cfg := by
  unfold World.height
  rw [h.replica.same]
  rfl

/-- A program that retracks takes twins to twins. -/
theorem Twins.settle {w w' v v' : World} {x : IndexerM Unit} (hx : Retracks x)
    (h : Twins except w w') (faults : List IoResult) (ok failed : Phase) :
    Twins except (v.settle (x (w.indexer.withFaults faults)) ok failed)
      (v'.settle (x (w'.indexer.withFaults faults)) ok failed) := by
  have hsame : w'.indexer.withFaults faults =
      (w.indexer.withFaults faults).setTracker (w'.indexer.inscriptions, []) := by
    have hfaults := congrArg (fun s : IndexerState => s.withFaults faults) h.replica.same
    exact hfaults
  rw [hsame]
  rcases hx (w.indexer.withFaults faults) with ⟨htracker, hcarry⟩ | ⟨hsettled, hequal⟩
  · rw [hcarry]
    have hkept : ∀ t : IndexerState, t.tracker = w.indexer.tracker →
        Replica except (t.withFaults [])
          ((t.setTracker (w'.indexer.inscriptions, [])).withFaults []) := by
      intro t ht
      have hinscriptions : t.inscriptions = w.indexer.inscriptions := congrArg Prod.fst ht
      exact {
        same := rfl
        noFaults := rfl
        noStaged := (congrArg Prod.snd ht).trans h.replica.noStaged
        entries := fun id => by
          have he := h.replica.entries id
          rw [← hinscriptions] at he
          exact he
        distinct := by
          have hd := h.replica.distinct
          rw [← hinscriptions] at hd
          exact hd
        distinct' := h.replica.distinct' }
    cases hr : x (w.indexer.withFaults faults) with
    | ok u t =>
      rw [hr] at htracker
      exact ⟨rfl, hkept t htracker⟩
    | error e t =>
      rw [hr] at htracker
      cases e <;> exact ⟨rfl, hkept t htracker⟩
  · rw [hequal]
    have hkept : ∀ t : IndexerState, SettledTracker t.tracker →
        Replica except (t.withFaults []) (t.withFaults []) := by
      intro t ht
      have hnil : t.stagedBlocks = [] := ht.2
      exact {
        same := by
          show t.withFaults [] = { t.withFaults [] with stagedBlocks := [] }
          rw [← hnil]
          rfl
        noFaults := rfl
        noStaged := hnil
        entries := fun _ => .refl _ _
        distinct := ht.1
        distinct' := ht.1 }
    cases hr : x (w.indexer.withFaults faults) with
    | ok u t =>
      rw [hr] at hsettled
      exact ⟨rfl, hkept t hsettled⟩
    | error e t =>
      rw [hr] at hsettled
      cases e <;> exact ⟨rfl, hkept t hsettled⟩

/-- The next block of twins: what one makes durable the other makes durable too, and they
are twins again. -/
theorem Twins.syncs {w w' : World} (h : Twins except w w') {env env' : BlockEnv}
    (alike : EnvAlike (w.height cfg + 1) env env') (avoids : Avoids except env)
    {faults : List IoResult} {t : IndexerState} (hsync : w.Syncs cfg env faults t) :
    ∃ t', w'.Syncs cfg env' [] t' ∧ Replica except (t.withFaults []) t' ∧
      ∃ events events' r r', planBlock env (w.height cfg + 1) (w.indexer.withFaults []) =
          .ok events r ∧
        planBlock env' (w.height cfg + 1) (w'.indexer.withFaults []) = .ok events' r' ∧
        events'.map BlockProcessEvent.core = events.map BlockProcessEvent.core := by
  have hthrough := (syncBlockThrough_plain cfg env (w.height cfg + 1)).unfaulted _ _ _ (syncBlockDurably_eq_ok.mp hsync)
  have hnil : w.indexer.withFaults [] = w.indexer :=
    IndexerState.withFaults_nil h.replica.noFaults
  have hnil' : w'.indexer.withFaults [] = w'.indexer := by
    refine IndexerState.withFaults_nil ?_
    rw [h.replica.same]
    exact h.replica.noFaults
  have hstart : ((w.indexer.withFaults faults).withFaults []) = w.indexer := hnil
  rw [hstart] at hthrough
  obtain ⟨t', ht', hreplica, hplans⟩ := syncBlockThrough_replica h.replica alike avoids hthrough
  rw [← hnil, ← hnil'] at hplans
  refine ⟨t', ?_, hreplica, hplans⟩
  unfold Syncs
  rw [h.height, hnil', syncBlockDurably_eq_ok]
  exact ht'

/-- What succeeded past some failing calls succeeds the same way without them. -/
theorem Syncs.unfaulted {w : World} {env : BlockEnv} {faults : List IoResult} {t : IndexerState}
    (h : w.Syncs cfg env faults t) : w.Syncs cfg env [] (t.withFaults []) := by
  have hthrough := (syncBlockThrough_plain cfg env (w.height cfg + 1)).unfaulted _ _ _
    (syncBlockDurably_eq_ok.mp h)
  exact syncBlockDurably_eq_ok.mpr hthrough

/-- After a block that did not become durable the pass is over. -/
theorem Syncs.of_phase {w : World} {env : BlockEnv} {balances : BalanceHistory}
    {faults : List IoResult} (h : (next cfg w (.block env balances faults)).phase = .syncing) :
    ∃ t, w.Syncs cfg env faults t := by
  unfold Syncs
  cases hr : syncBlockDurably cfg env (w.height cfg + 1) (w.indexer.withFaults faults) with
  | ok u t => exact ⟨t, rfl⟩
  | error e t =>
    simp only [next, hr] at h
    cases e <;> cases h

theorem Twins.block {w w' : World} (h : Twins except w w') {env env' : BlockEnv}
    (alike : EnvAlike (w.height cfg + 1) env env') (avoids : Avoids except env)
    (balances : BalanceHistory) {faults faults' : List IoResult} {t t' : IndexerState}
    (hsync : w.Syncs cfg env faults t) (hsync' : w'.Syncs cfg env' faults' t') :
    Twins except (next cfg w (.block env balances faults))
      (next cfg w' (.block env' balances faults')) := by
  obtain ⟨r, hr, hreplica, -⟩ := h.syncs alike avoids hsync
  have hr' := hsync'.unfaulted
  have hequal : r = t'.withFaults [] := (EStateM.Result.ok.inj (hr.symm.trans hr')).2
  rw [hequal] at hreplica
  unfold Syncs at hsync hsync'
  simp only [next, hsync, hsync']
  exact ⟨rfl, hreplica⟩

/-- Twins stay twins. -/
theorem TwinRun.twins {start : World × World} {ws : World × World}
    (run : TwinRun cfg except start ws) (h : Twins except start.1 start.2) :
    Twins except ws.1 ws.2 := by
  induction run with
  | refl => exact h
  | prepare _ rollbackTarget faults _ ih =>
    exact ih.settle (prepareSync_retracks cfg rollbackTarget) faults .syncing .idle
  | block _ env env' balances faults faults' t t' _ alike avoids syncs syncs' ih =>
    exact ih.block alike avoids balances syncs syncs'
  | finish _ snapshot stateRefAtHeight faults _ ih =>
    unfold next
    rw [ih.height]
    exact ih.settle (finishSync_plain cfg _ snapshot stateRefAtHeight).retracks faults .idle .idle
  | @restart w w' _ faults ih =>
    have hsame : w'.indexer.afterRestart = w.indexer.afterRestart := by
      rw [ih.replica.same]
      rfl
    have hbase : Twins except { w with indexer := w.indexer.afterRestart }
        { w' with indexer := w'.indexer.afterRestart } := by
      rw [hsame]
      exact ⟨ih.phase, ⟨rfl, ih.replica.noFaults, rfl, fun _ => .refl _ _, .new, .new⟩⟩
    exact hbase.settle reloadFromStorage_retracks faults .idle .crashed

theorem Twins.initial : Twins except World.initial World.initial :=
  ⟨rfl, ⟨rfl, rfl, rfl, fun _ => .refl _ _, .new, .new⟩⟩

end World

end Usdb
