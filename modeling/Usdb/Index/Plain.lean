import Usdb.Framework.Commute
import Usdb.Index.Indexer

namespace Usdb

open Framework

/-- The in-memory tracker and its staged blocks. -/
abbrev TrackerState := MultiMap × List (Nat × MultiMap)

namespace IndexerState

def tracker (s : IndexerState) : TrackerState := (s.inscriptions, s.stagedBlocks)

def setTracker (tr : TrackerState) (s : IndexerState) : IndexerState :=
  { s with inscriptions := tr.1, stagedBlocks := tr.2 }

theorem withFaults_nil {s : IndexerState} (h : s.faults = []) : s.withFaults [] = s := by
  cases s
  cases h
  rfl

end IndexerState

/-- The program neither reads nor changes the tracker. -/
def TrackerFree {α : Type} (x : IndexerM α) : Prop :=
  ∀ tr, Commutes (IndexerState.setTracker tr) x

/-- What the program achieves when some calls may fail it achieves when none does. -/
def Unfaulted {α : Type} (x : IndexerM α) : Prop :=
  ∀ s a t, x s = .ok a t → x (s.withFaults []) = .ok a (t.withFaults [])

/-- A program put together from external calls and looks at and updates of the
state, none of which concern the reports still to come. Without `tracking` it does
not concern the tracker either. -/
inductive Plain (tracking : Bool) : {α : Type} → IndexerM α → Prop
  | pure {α : Type} (a : α) : Plain tracking (Pure.pure a : IndexerM α)
  | throw {α : Type} (e : IndexerError) : Plain tracking (MonadExcept.throw e : IndexerM α)
  | bind {α β : Type} {x : IndexerM α} {f : α → IndexerM β} (first : Plain tracking x)
      (rest : ∀ a, Plain tracking (f a)) : Plain tracking (x >>= f)
  | io : Plain tracking io
  | modify {f : IndexerState → IndexerState}
      (faults : ∀ fs s, f (s.withFaults fs) = (f s).withFaults fs)
      (tracker : tracking = false → ∀ tr s, f (s.setTracker tr) = (f s).setTracker tr) :
      Plain tracking (MonadState.modifyGet (fun s => (PUnit.unit, f s)) : IndexerM PUnit)
  | get_bind {α : Type} {f : IndexerState → IndexerM α}
      (faults : ∀ fs s, f (s.withFaults fs) = f s)
      (tracker : tracking = false → ∀ tr s, f (s.setTracker tr) = f s)
      (rest : ∀ s, Plain tracking (f s)) : Plain tracking (MonadState.get >>= f)

theorem io_trackerFree : TrackerFree io := by
  intro tr s
  show io (s.setTracker tr) = mapState (IndexerState.setTracker tr) (io s)
  unfold io
  have hf : (s.setTracker tr).faults = s.faults := rfl
  rw [hf]
  split <;> rfl

namespace Plain

variable {α β : Type} {tracking : Bool}

theorem trackerFree {x : IndexerM α} (h : Plain false x) : TrackerFree x := by
  intro tr
  induction h with
  | pure a => exact Commutes.pure a
  | throw e => exact Commutes.throw e
  | bind _ _ hx hf => exact Commutes.bind hx hf
  | io => exact io_trackerFree tr
  | modify _ tracker => exact Commutes.modify (tracker rfl tr)
  | get_bind _ tracker _ hf => exact Commutes.get_bind (tracker rfl tr) hf

theorem preserves {x : IndexerM α} (h : Plain false x) : Preserves IndexerState.tracker x :=
  Commutes.preserves (fun _ _ => rfl) (fun _ => rfl) h.trackerFree

theorem unfaulted {x : IndexerM α} (h : Plain tracking x) : Unfaulted x := by
  induction h with
  | pure a =>
    intro s b t hx
    cases hx
    rfl
  | throw e =>
    intro s b t hx
    cases hx
  | bind _ _ hx hf =>
    intro s b t h
    obtain ⟨a, s₁, h₁, h₂⟩ := bind_eq_ok h
    exact (bind_ok (hx s a s₁ h₁)).trans (hf a s₁ b t h₂)
  | io =>
    intro s b t hx
    obtain ⟨fs, rfl⟩ := io_ok hx
    exact io_of_no_faults _ rfl
  | @modify f faults _ =>
    intro s b t hx
    cases hx
    exact congrArg (EStateM.Result.ok PUnit.unit) (faults [] s)
  | @get_bind _ f faults _ _ hf =>
    intro s b t hx
    show f (s.withFaults []) (s.withFaults []) = .ok b (t.withFaults [])
    rw [faults]
    exact hf s s b t hx

/-- A program that does not concern the tracker does the same next to another one. -/
theorem beside {x : IndexerM α} (hx : Plain false x) {s t : IndexerState} {a : α}
    (h : x s = .ok a t) (tr : TrackerState) : x (s.setTracker tr) = .ok a (t.setTracker tr) := by
  rw [hx.trackerFree tr s, h]
  rfl

/-- Without faults to report none are left to report. -/
theorem faults_nil {x : IndexerM α} (hx : Plain tracking x) {s t : IndexerState} {a : α}
    (hs : s.faults = []) (h : x s = .ok a t) : t.faults = [] := by
  have hun := hx.unfaulted s a t h
  rw [IndexerState.withFaults_nil hs, h] at hun
  rw [(EStateM.Result.ok.inj hun).2]
  rfl

theorem ite {x y : IndexerM α} (c : Prop) [Decidable c] (hx : Plain tracking x)
    (hy : Plain tracking y) : Plain tracking (if c then x else y) := by
  split
  · exact hx
  · exact hy

theorem discard {x : IndexerM α} (h : Plain tracking x) : Plain tracking (Functor.discard x) :=
  bind h (fun _ => pure _)

end Plain

variable {tracking : Bool}

section Primitives

variable {α : Type}

theorem liftExcept_plain (x : Except IndexerError α) : Plain tracking (liftExcept x) := by
  cases x with
  | ok a => exact .pure a
  | error e => exact .throw e

theorem assertThat_plain (p : Prop) [Decidable p] : Plain tracking (assertThat p) :=
  .ite p (.pure _) (.throw _)

theorem readPass_plain (f : MinerPassStorage → α) : Plain tracking (readPass f) :=
  .bind .io (fun _ => .get_bind (fun _ _ => rfl) (fun _ _ _ => rfl) (fun _ => .pure _))

theorem writePass_plain (f : MinerPassStorage → Except IndexerError MinerPassStorage) :
    Plain tracking (writePass f) :=
  .bind .io (fun _ => .get_bind (fun _ _ => rfl) (fun _ _ _ => rfl) (fun _ =>
    .bind (liftExcept_plain _) (fun _ => .modify (fun _ _ => rfl) (fun _ _ _ => rfl))))

theorem checkPass_plain (f : MinerPassStorage → Except IndexerError Unit) :
    Plain tracking (checkPass f) :=
  .bind .io (fun _ => .get_bind (fun _ _ => rfl) (fun _ _ _ => rfl) (fun _ => liftExcept_plain _))

theorem readEnergy_plain (f : PassEnergyStorage → α) : Plain tracking (readEnergy f) :=
  .bind .io (fun _ => .get_bind (fun _ _ => rfl) (fun _ _ _ => rfl) (fun _ => .pure _))

theorem writeEnergy_plain (f : PassEnergyStorage → PassEnergyStorage) :
    Plain tracking (writeEnergy f) :=
  .bind .io (fun _ => .modify (fun _ _ => rfl) (fun _ _ _ => rfl))

end Primitives

namespace PassEnergyManager

variable (provider : BalanceProvider) (id : InscriptionId) (height : Nat)

theorem beginBlockSync_plain : Plain tracking (beginBlockSync height) := by
  refine .bind (readEnergy_plain _) (fun pending => ?_)
  cases pending with
  | none => exact writeEnergy_plain _
  | some p => exact .throw _

theorem finalizeBlockSync_plain : Plain tracking (finalizeBlockSync height) :=
  .bind (readEnergy_plain _) (fun _ => .ite _ (.throw _) (writeEnergy_plain _))

theorem clearRecordsFromHeight_plain : Plain tracking (clearRecordsFromHeight height) :=
  .bind (writeEnergy_plain _) (fun _ => writeEnergy_plain _)

theorem abortPendingBlockSync_plain : Plain tracking (abortPendingBlockSync height) :=
  .bind (readEnergy_plain _) (fun _ => .ite _ (.throw _)
    (.bind (clearRecordsFromHeight_plain height) (fun _ => writeEnergy_plain _)))

theorem recoverPendingBlock_plain : Plain tracking recoverPendingBlock := by
  refine .bind (readEnergy_plain _) (fun pending => ?_)
  cases pending with
  | none => exact .pure _
  | some p => exact .bind (clearRecordsFromHeight_plain p) (fun _ => writeEnergy_plain _)

theorem getMaxRecordBlockHeight_plain : Plain tracking getMaxRecordBlockHeight := by
  refine .bind (readEnergy_plain _) (fun cached => ?_)
  cases cached with
  | some h => exact .pure _
  | none =>
    refine .bind (readEnergy_plain _) (fun scanned => ?_)
    cases scanned with
    | some h => exact .bind (writeEnergy_plain _) (fun _ => .pure _)
    | none => exact .pure _

theorem truncateFutureRecords_plain : Plain tracking (truncateFutureRecords height) := by
  refine .bind getMaxRecordBlockHeight_plain (fun cached => ?_)
  cases cached with
  | some h => exact .ite _ (clearRecordsFromHeight_plain _) (.pure _)
  | none => exact .pure _

theorem reconcileSyncedMarker_plain : Plain tracking (reconcileSyncedMarker height) := by
  refine .bind (readEnergy_plain _) (fun synced => ?_)
  cases synced with
  | some h => exact .ite _ (writeEnergy_plain _) (.ite _ (.throw _) (.pure _))
  | none => exact writeEnergy_plain _

theorem rollbackToPassSyncedHeight_plain : Plain tracking (rollbackToPassSyncedHeight height) :=
  .bind recoverPendingBlock_plain (fun _ =>
    .bind (truncateFutureRecords_plain height) (fun _ =>
      reconcileSyncedMarker_plain height))

theorem applyBalanceRows_plain (last : PassEnergyRecord) (rows : List AddressBalance) :
    Plain tracking (applyBalanceRows id last rows) := by
  induction rows generalizing last with
  | nil => exact .pure _
  | cons row rows ih => exact .bind (writeEnergy_plain _) (fun _ => ih _)

theorem updatePassEnergy_plain : Plain tracking (updatePassEnergy provider id height) := by
  refine .bind (readEnergy_plain _) (fun found => ?_)
  cases found with
  | none => exact .throw _
  | some last =>
    refine .bind (assertThat_plain _) (fun _ => .ite _ (.pure _) ?_)
    refine .bind .io (fun _ => .bind (applyBalanceRows_plain id _ _) (fun _ => ?_))
    exact .ite _ (.pure _) (.pure _)

theorem onNewPass_plain (owner : USDBScriptHash) (inherited : Nat) :
    Plain tracking (onNewPass provider id owner height inherited) := by
  refine .bind (.bind .io (fun _ => .bind (assertThat_plain _) (fun _ =>
    .pure _))) (fun _ => ?_)
  exact .bind (writeEnergy_plain _) (fun _ => .modify (fun _ _ => rfl) (fun _ _ _ => rfl))

theorem onPassDormant_plain : Plain tracking (onPassDormant provider id height) := by
  refine .bind (updatePassEnergy_plain provider id height) (fun _ => ?_)
  refine .bind (readEnergy_plain _) (fun found => ?_)
  cases found with
  | none => exact .throw _
  | some last =>
    exact .bind (writeEnergy_plain _) (fun _ => .bind (readEnergy_plain _) (fun _ =>
      .ite _ (.throw _) (.pure _)))

theorem applyActiveBalanceChange_plain (owner : USDBScriptHash) (balance : Nat)
    (delta : Int) : Plain tracking (applyActiveBalanceChange id owner height balance delta) := by
  refine .ite _ (.pure _) (.bind (readEnergy_plain _) (fun found => ?_))
  cases found with
  | none => exact .throw _
  | some last =>
    refine .ite _ (.throw _) (.ite _ (.throw _) (.ite _ (.throw _) (.ite _ ?_ ?_)))
    · exact .ite _ (.throw _) (.pure _)
    · exact .ite _ (.throw _) (.bind (writeEnergy_plain _) (fun _ => .pure _))

end PassEnergyManager

namespace MinerPassStorage

theorem updateAtHeight_plain (id : InscriptionId) (height : Nat) (event : PassHistoryEvent)
    (update : MinerPassStorage → Except IndexerError MinerPassStorage)
    (after : MinerPassInfo → MinerPassState × USDBScriptHash × SatPoint) :
    Plain tracking (updateAtHeight id height event update after) := by
  refine .bind (readPass_plain _) (fun row => ?_)
  cases row with
  | none => exact .throw _
  | some p => exact .bind (writePass_plain _) (fun _ => writePass_plain _)

theorem addNewMintPassAtHeight_plain (info : MinerPassInfo) (height : Nat) :
    Plain tracking (addNewMintPassAtHeight info height) :=
  .bind (.bind (assertThat_plain _) (fun _ => .bind (assertThat_plain _) (fun _ =>
    .bind (assertThat_plain _) (fun _ => writePass_plain _)))) (fun _ =>
    writePass_plain _)

theorem addInvalidMintPassAtHeight_plain (info : MinerPassInfo) (height : Nat) :
    Plain tracking (addInvalidMintPassAtHeight info height) :=
  .bind (.bind (assertThat_plain _) (fun _ => .bind (assertThat_plain _) (fun _ =>
    .bind (assertThat_plain _) (fun _ => writePass_plain _)))) (fun _ =>
    writePass_plain _)

end MinerPassStorage

namespace MinerPassManager

open MinerPassStorage PassEnergyManager

variable (provider : BalanceProvider)

theorem pushBlockMutation_plain (mutation : PassBlockMutation) :
    Plain tracking (pushBlockMutation mutation) :=
  .modify (fun _ _ => rfl) (fun _ _ _ => rfl)

theorem takeBlockMutationCollector_plain (height : Nat) :
    Plain tracking (takeBlockMutationCollector height) := by
  refine .get_bind (fun _ _ => rfl) (fun _ _ _ => rfl) (fun s => ?_)
  cases s.currentBlockCollector with
  | none => exact .throw _
  | some c => exact .bind (.modify (fun _ _ => rfl) (fun _ _ _ => rfl)) (fun _ => .ite _ (.throw _) (.pure _))

theorem dormantLastPass_plain (mint : PassMintInscriptionInfo) :
    Plain tracking (dormantLastPass provider mint) := by
  refine .bind (readPass_plain _) (fun last => ?_)
  cases last with
  | none => exact .pure _
  | some last =>
    refine .bind (assertThat_plain _) (fun _ => .bind (assertThat_plain _) (fun _ => ?_))
    refine .bind (updateAtHeight_plain _ _ _ _ _) (fun _ => ?_)
    exact .bind (pushBlockMutation_plain _) (fun _ => onPassDormant_plain _ _ _)

theorem consumePass_plain (id : InscriptionId) (height : Nat) :
    Plain tracking (consumePass id height) := by
  refine .bind (readPass_plain _) (fun row => ?_)
  cases row with
  | none => exact .throw _
  | some p =>
    refine .bind (assertThat_plain _) (fun _ => ?_)
    refine .bind (updateAtHeight_plain _ _ _ _ _) (fun _ => ?_)
    refine .bind (pushBlockMutation_plain _) (fun _ => ?_)
    refine .bind (readEnergy_plain _) (fun answer => ?_)
    cases answer with
    | none => exact .throw _
    | some answer =>
      exact .bind (assertThat_plain _) (fun _ => .bind (writeEnergy_plain _) (fun _ =>
        .pure _))

theorem inheritPrev_plain (mint : PassMintInscriptionInfo) (inherited : Nat)
    (prev : List InscriptionId) : Plain tracking (inheritPrev mint inherited prev) := by
  induction prev generalizing inherited with
  | nil => exact .pure _
  | cons id rest ih =>
    refine .bind (readPass_plain _) (fun row => ?_)
    cases row with
    | none => exact ih _
    | some p =>
      refine .ite _ (ih _) (.bind (assertThat_plain _) (fun _ => .ite _ (ih _) ?_))
      exact .bind (consumePass_plain _ _) (fun _ => ih _)

theorem onMintPass_plain (mint : PassMintInscriptionInfo) :
    Plain tracking (onMintPass provider mint) := by
  refine .bind (dormantLastPass_plain provider mint) (fun _ => ?_)
  refine .bind (addNewMintPassAtHeight_plain _ _) (fun _ => ?_)
  refine .bind (pushBlockMutation_plain _) (fun _ => ?_)
  exact .bind (inheritPrev_plain _ _ _) (fun _ => onNewPass_plain _ _ _ _ _)

theorem onInvalidMintPass_plain (item : InvalidPassMintInscriptionInfo) :
    Plain tracking (onInvalidMintPass item) :=
  .bind (addInvalidMintPassAtHeight_plain _ _) (fun _ => pushBlockMutation_plain _)

theorem moveToNewOwner_plain (id : InscriptionId) (pass : MinerPassInfo)
    (owner : USDBScriptHash) (satpoint : SatPoint) (height : Nat) :
    Plain tracking (moveToNewOwner provider id pass owner satpoint height) := by
  have hmove : Plain tracking (do
      transferOwnerAtHeight id owner satpoint height
      pushBlockMutation (.OwnerTransfer id (if pass.state = .Active then .Dormant else pass.state)
        pass.owner owner pass.satpoint satpoint)) :=
    .bind (updateAtHeight_plain _ _ _ _ _) (fun _ => pushBlockMutation_plain _)
  refine .ite _ (.bind (onPassDormant_plain _ _ _) (fun _ => ?_)) hmove
  exact .bind (updateAtHeight_plain _ _ _ _ _) (fun _ =>
    .bind (pushBlockMutation_plain _) (fun _ => hmove))

theorem onPassTransfer_plain (id : InscriptionId) (owner : USDBScriptHash)
    (satpoint : SatPoint) (height : Nat) :
    Plain tracking (onPassTransfer provider id owner satpoint height) := by
  refine .bind (readPass_plain _) (fun row => ?_)
  cases row with
  | none => exact .throw _
  | some pass =>
    have hrest : Plain tracking (if pass.owner = owner then do
          updateSatpointAtHeight id pass.satpoint satpoint height
          pushBlockMutation (.SatpointUpdate id pass.state pass.owner pass.satpoint satpoint)
        else moveToNewOwner provider id pass owner satpoint height) :=
      .ite _ (.bind (updateAtHeight_plain _ _ _ _ _) (fun _ =>
        pushBlockMutation_plain _)) (moveToNewOwner_plain _ _ _ _ _ _)
    exact .ite _ (.bind (.discard (updatePassEnergy_plain _ _ _)) (fun _ => hrest)) hrest

theorem onPassBurned_plain (id : InscriptionId) (height : Nat) :
    Plain tracking (onPassBurned provider id height) := by
  refine .bind (readPass_plain _) (fun row => ?_)
  cases row with
  | none => exact .throw _
  | some pass =>
    have hrest : Plain tracking (do
        updateStateAtHeight id .Burned pass.state height
        pushBlockMutation (.StateTransition id pass.state .Burned pass.owner pass.satpoint)) :=
      .bind (updateAtHeight_plain _ _ _ _ _) (fun _ => pushBlockMutation_plain _)
    exact .ite _ (.bind (.discard (updatePassEnergy_plain _ _ _)) (fun _ => hrest)) hrest

end MinerPassManager

namespace BlockEventExecutor

theorem executeEvent_plain (provider : BalanceProvider) (event : BlockProcessEvent) :
    Plain tracking (executeEvent provider event) := by
  cases event with
  | Mint item => exact MinerPassManager.onMintPass_plain _ _
  | Transfer item =>
    unfold executeEvent
    dsimp only
    cases item.toAddress with
    | some addr => exact MinerPassManager.onPassTransfer_plain _ _ _ _ _
    | none => exact MinerPassManager.onPassBurned_plain _ _ _

theorem execute_plain (provider : BalanceProvider) (events : List BlockProcessEvent) :
    Plain tracking (execute provider events) := by
  induction events with
  | nil => exact .pure _
  | cons event rest ih => exact .bind (executeEvent_plain _ _) (fun _ => ih)

end BlockEventExecutor

namespace BalanceMonitor

theorem loadActivePages_plain (pageSize height index : Nat)
    (owners : List ActiveMinerPassInfo) (rounds : Nat) :
    Plain tracking (loadActivePages pageSize height index owners rounds) := by
  induction rounds generalizing index owners with
  | zero => exact .pure _
  | succ rounds ih =>
    refine .bind (readPass_plain _) (fun passes => .ite _ (.pure _) ?_)
    exact .bind (liftExcept_plain _) (fun _ => .ite _ (.pure _) (ih _ _))

theorem settleActiveBalanceWithDetails_plain (provider : BalanceProvider)
    (pageSize height : Nat) :
    Plain tracking (settleActiveBalanceWithDetails provider pageSize height) := by
  refine .bind (checkPass_plain _) (fun _ => .bind ?_ (fun active => .ite _ (.throw _) ?_))
  · exact .get_bind (fun _ _ => rfl) (fun _ _ _ => rfl) (fun _ =>
      .bind (loadActivePages_plain _ _ _ _ _) (fun _ => .pure _))
  · refine .bind .io (fun _ => .bind (liftExcept_plain _) (fun _ => ?_))
    refine .bind (liftExcept_plain _) (fun settled => ?_)
    exact .ite _ (.throw _) (.bind (writePass_plain _) (fun _ => .pure _))

end BalanceMonitor

namespace TxItem

theorem sumInputValues_plain (btc : BtcClient) (pos : Nat) (inputs : List OutPoint) :
    Plain tracking (sumInputValues btc pos inputs) := by
  induction inputs generalizing pos with
  | nil => exact .pure _
  | cons outpoint rest ih =>
    refine .bind .io (fun _ => ?_)
    cases btc.getUtxo outpoint with
    | none => exact .throw _
    | some amount => exact ih _

theorem calcOutputSatpoint_plain (btc : BtcClient) (tx : Transaction) (satpoint : SatPoint) :
    Plain tracking (calcOutputSatpoint btc tx satpoint) := by
  unfold calcOutputSatpoint
  cases tx.input.findIdx? (fun v => v = satpoint.outpoint) with
  | none => exact .pure _
  | some i => exact .bind (sumInputValues_plain btc 0 _) (fun _ => .pure _)

end TxItem

namespace InscriptionTransferTracker

theorem calcCreateSatpoint_plain (btc : BtcClient) (id : InscriptionId) :
    Plain tracking (calcCreateSatpoint btc id) := by
  refine .bind .io (fun _ => ?_)
  cases btc.getTransaction id.txid with
  | none => exact .throw _
  | some tx =>
    dsimp only
    cases tx.envelopes[id.index]? with
    | none => exact .throw _
    | some envelope =>
      dsimp only
      cases tx.input[envelope.input]? with
      | none => exact .throw _
      | some commit =>
        refine .bind (TxItem.calcOutputSatpoint_plain btc tx _) (fun ret => ?_)
        cases ret with
        | none => exact .throw _
        | some ret => exact .pure _

theorem processEntries_plain (btc : BtcClient) (height : Nat) (tx : Transaction)
    (working : MultiMap) (items : List InscriptionTransferItem) (entries : List ValidMinerPassInfo) :
    Plain tracking (processEntries btc height tx working items entries) := by
  induction entries generalizing working items with
  | nil => exact .pure _
  | cons entry rest ih =>
    refine .bind (TxItem.calcOutputSatpoint_plain btc tx _) (fun ret => ?_)
    cases ret with
    | none => exact .throw _
    | some ret => exact ih _ _

theorem processInputs_plain (btc : BtcClient) (height : Nat) (tx : Transaction)
    (working : MultiMap) (items : List InscriptionTransferItem) (inputs : List OutPoint) :
    Plain tracking (processInputs btc height tx working items inputs) := by
  induction inputs generalizing working items with
  | nil => exact .pure _
  | cons vin rest ih =>
    exact .bind (processEntries_plain btc height tx working items _) (fun _ => ih _ _)

theorem processTxs_plain (btc : BtcClient) (height : Nat) (working : MultiMap)
    (items : List InscriptionTransferItem) (txs : List Transaction) :
    Plain tracking (processTxs btc height working items txs) := by
  induction txs generalizing working items with
  | nil => exact .pure _
  | cons tx rest ih =>
    exact .bind (processInputs_plain btc height tx working items _) (fun _ => ih _ _)

theorem processBlockWithHint_plain (btc : BtcClient) (height : Nat) (block : Block)
    (seeds : List TransferTrackSeed) : Plain true (processBlockWithHint btc height block seeds) := by
  refine .get_bind (fun _ _ => rfl) (fun h => absurd h (by decide)) (fun s => .ite _ (.throw _) ?_)
  refine .bind (processTxs_plain btc height _ _ _) (fun _ => ?_)
  refine .get_bind (fun _ _ => rfl) (fun h => absurd h (by decide)) (fun s => ?_)
  exact .bind (.modify (fun _ _ => rfl) (fun h => absurd h (by decide))) (fun _ =>
    .ite _ (.throw _) (.pure _))

end InscriptionTransferTracker

namespace InscriptionIndexer

open PassEnergyManager

theorem loadMints_plain {α β : Type} (btc : BtcClient) (inscriptionId : α → InscriptionId)
    (noAddress : α → IndexerError) (build : α → InscriptionCreateInfo → USDBScriptHash → β)
    (mints : List α) : Plain tracking (loadMints btc inscriptionId noAddress build mints) := by
  induction mints with
  | nil => exact .pure _
  | cons mint rest ih =>
    refine .bind (InscriptionTransferTracker.calcCreateSatpoint_plain btc _) (fun info => ?_)
    cases info.address with
    | none => exact .throw _
    | some address => exact .bind ih (fun _ => .pure _)

theorem collectBlockInscriptionMints_plain (env : BlockEnv) (height : Nat) :
    Plain tracking (collectBlockInscriptionMints env height) :=
  .bind .io (fun _ => .bind (loadMints_plain _ _ _ _ _) (fun _ =>
    .bind (loadMints_plain _ _ _ _ _) (fun _ => .pure _)))

theorem collectBlock_plain (env : BlockEnv) (height : Nat) :
    Plain true (collectBlock env height) := by
  refine .bind .io (fun _ => ?_)
  cases env.blockHint with
  | none => exact .throw _
  | some block =>
    exact .bind (collectBlockInscriptionMints_plain env height) (fun _ =>
      .bind (InscriptionTransferTracker.processBlockWithHint_plain _ _ _ _) (fun _ => .pure _))

theorem processInvalidMints_plain (items : List InvalidPassMintInscriptionInfo) :
    Plain tracking (processInvalidMints items) := by
  induction items with
  | nil => exact .pure _
  | cons item rest ih =>
    exact .bind (MinerPassManager.onInvalidMintPass_plain _) (fun _ => ih)

theorem applyEnergyChanges_plain (rows : List ActivePassBalance) :
    Plain tracking (applyEnergyChanges rows) := by
  induction rows with
  | nil => exact .pure _
  | cons row rest ih =>
    exact .ite _ (.bind (.discard (applyActiveBalanceChange_plain _ _ _ _ _)) (fun _ => ih)) ih

theorem persistPassBlockCommit_plain (cfg : IndexerConfig) (env : BlockEnv) (height : Nat)
    (collector : PassBlockMutationCollector) :
    Plain tracking (persistPassBlockCommit cfg env height collector) := by
  refine .bind .io (fun _ => ?_)
  cases env.upstreamCommit with
  | none => exact .throw _
  | some commit =>
    have hrest : ∀ prev, Plain tracking (do
        let entry ← liftExcept (collector.buildCommitEntry cfg.hash commit prev)
        writePass (fun ps => .ok (ps.upsertPassBlockCommit entry))) := fun prev =>
      .bind (liftExcept_plain _) (fun _ => writePass_plain _)
    exact .ite _ (.bind (.pure _) hrest) (.bind (readPass_plain _) hrest)

theorem applyBlock_plain (cfg : IndexerConfig) (env : BlockEnv) (height : Nat)
    (block : Block) (mints : CollectedMintItems) (items : List InscriptionTransferItem) :
    Plain tracking (applyBlock cfg env height block mints items) := by
  refine .bind (liftExcept_plain _) (fun _ => ?_)
  refine .bind (BlockEventExecutor.execute_plain _ _) (fun _ => ?_)
  refine .bind (processInvalidMints_plain _) (fun _ => ?_)
  refine .bind (BalanceMonitor.settleActiveBalanceWithDetails_plain _ _ _) (fun _ => ?_)
  exact .bind (applyEnergyChanges_plain _) (fun _ => finalizeBlockSync_plain _)

end InscriptionIndexer

end Usdb
