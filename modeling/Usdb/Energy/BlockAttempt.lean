import Usdb.Energy.Attempt
import Usdb.Index.PassInvariant

namespace Usdb

open Framework MinerPassStorage PassEnergyStorage PassEnergyManager InscriptionIndexer

/-- What recoveries leave of a state: the energy store stays recoverable and nothing
else that matters here changes. -/
structure Undoing (lowest height : Nat) (s₁ s : IndexerState) : Prop where
  energy : Recoverable lowest height s₁.energyStorage s.energyStorage
  others : (s.passStorage, s.log) = (s₁.passStorage, s₁.log)

namespace Undoing

variable {lowest height : Nat} {s₁ : IndexerState}

theorem blind : EnergyBlind (fun s : IndexerState => (s.passStorage, s.log)) :=
  ⟨fun _ _ => rfl, fun _ _ => rfl⟩

theorem of_parts {α : Type} {x : IndexerM α}
    (he : Keeps (fun s => Recoverable lowest height s₁.energyStorage s.energyStorage) x)
    (ho : Preserves (fun s : IndexerState => (s.passStorage, s.log)) x) :
    Keeps (Undoing lowest height s₁) x :=
  Keeps.of_run (fun s hs => ⟨he.run hs.energy, (ho s).trans hs.others⟩)

theorem rollback {target : Nat} (ht : lowest ≤ target)
    (hf : ∀ i k, target < k → k ≤ height → s₁.energyStorage.getPassEnergyRecord i k = none) :
    Keeps (Undoing lowest height s₁) (rollbackToPassSyncedHeight target) :=
  of_parts (reconcileWithPassSyncedHeight_keeps ht hf) (blind.reconcileWithPassSyncedHeight target)

theorem abort {first : Nat} (hf : height < first) :
    Keeps (Undoing lowest height s₁) (abortPendingBlockSync first) :=
  of_parts (abortPendingBlockSync_keeps hf) (blind.abortPendingBlockSync first)

theorem rollbackStagedBlock (first : Nat) :
    Keeps (Undoing lowest height s₁) (InscriptionTransferTracker.rollbackStagedBlock first) := by
  have hremove : ∀ e, Keeps (Undoing lowest height s₁)
      (InscriptionTransferTracker.removeStaged first e) := by
    intro e
    refine Keeps.bind Keeps.get (fun s => ?_)
    cases s.stagedBlocks.find? (fun b => b.1 = first) with
    | none => exact Keeps.throw _
    | some staged => exact Keeps.bind (fun _ hs => ⟨hs.energy, hs.others⟩) (fun _ => Keeps.pure _)
  exact Keeps.bind (hremove _) (fun _ => Keeps.pure _)

/-- The handler of a failed block. After the energy finalize it goes back to the
recorded synced height, before it only drops the marked attempt. -/
theorem recoverFailedBlockSync {first : Nat} (hf : height < first) (staged finalized : Bool)
    (error : IndexerError)
    (hs : finalized = true → lowest ≤ s₁.passStorage.syncedBtcBlockHeight.getD 0)
    (hclear : ∀ i k, s₁.passStorage.syncedBtcBlockHeight.getD 0 < k → k ≤ height →
      s₁.energyStorage.getPassEnergyRecord i k = none) :
    Keeps (Undoing lowest height s₁) (recoverFailedBlockSync first staged finalized error) := by
  have hstaged : ∀ msg, Keeps (Undoing lowest height s₁) (if (!staged) = true then return msg
      else do
        let transferRollback ← errorOf (InscriptionTransferTracker.rollbackStagedBlock first)
        return mergeBlockFailureWithRecovery msg transferRollback .transferRollbackAfterBlock) :=
    fun msg => Keeps.ite _ (fun _ => Keeps.pure _) (fun _ =>
      Keeps.bind (errorOf_keeps (rollbackStagedBlock first)) (fun _ => Keeps.pure _))
  cases finalized with
  | false => exact Keeps.bind (errorOf_keeps (abort hf)) (fun _ => hstaged _)
  | true =>
    have hback : Keeps (Undoing lowest height s₁) (do
        let synced ← readPass (·.syncedBtcBlockHeight)
        rollbackToPassSyncedHeight (synced.getD 0)) := by
      refine Triple.bind (Q := fun synced s => Undoing lowest height s₁ s ∧
        synced = s₁.passStorage.syncedBtcBlockHeight) (fun s hu => ?_) (fun synced => ?_)
      · have hpass : s.passStorage = s₁.passStorage := congrArg Prod.fst hu.others
        cases hr : readPass (·.syncedBtcBlockHeight) s with
        | ok a t =>
          obtain ⟨rfl, fs, rfl⟩ := readPass_ok hr
          exact ⟨⟨hu.energy, hu.others⟩, by rw [hpass]⟩
        | error e t =>
          obtain ⟨fs, rfl⟩ := (ReadOnly.readPass _).error hr
          exact ⟨hu.energy, hu.others⟩
      · rintro s ⟨hu, rfl⟩
        exact rollback (hs rfl) hclear s hu
    exact Keeps.bind (errorOf_keeps hback) (fun _ => hstaged _)

end Undoing

namespace BalanceMonitor

theorem settlePasses_height {height : Nat} {balances left : List (USDBScriptHash × AddressBalance)}
    {passes : List ActiveMinerPassInfo} {rows : List ActivePassBalance}
    (h : settlePasses height balances passes = .ok (rows, left)) :
    ∀ row ∈ rows, row.blockHeight = height := by
  induction passes generalizing balances rows with
  | nil =>
    cases h
    exact fun _ hrow => absurd hrow List.not_mem_nil
  | cons pass rest ih =>
    unfold settlePasses at h
    cases hrow : settlePass height balances pass with
    | error e =>
      rw [hrow] at h
      cases h
    | ok row =>
      rw [hrow] at h
      cases hrest : settlePasses height (balances.filter (fun b => b.1 ≠ pass.owner)) rest with
      | error e =>
        simp only [bind, Except.bind, hrest] at h
        cases h
      | ok result =>
        simp only [bind, Except.bind, hrest, pure, Except.pure] at h
        cases h
        intro r hr
        rcases List.mem_cons.mp hr with rfl | hr
        · unfold settlePass at hrow
          split at hrow
          · cases hrow
          · split at hrow
            · cases hrow
            · cases hrow
              rfl
        · exact ih hrest r hr

end BalanceMonitor

namespace Attempt

variable {scheme : Scheme} {lowest height : Nat} {s₀ : IndexerState} {cfg : IndexerConfig}
  {env : BlockEnv}

theorem refl (hb : s₀.energyStorage.MaxBound) (hbelow : s₀.energyStorage.RecordsBelow height)
    (hp : ∀ p, s₀.energyStorage.pendingBlockHeight = some p → height < p)
    (hs : ∀ h, s₀.energyStorage.syncedBlockHeight = some h → lowest ≤ h)
    (hentries : ∀ i p, s₀.passStorage.getPassByInscriptionId i = some p → p.state = .Active →
      ∀ k, k ≤ height → ∀ r, s₀.energyStorage.getPassEnergyRecord i k = some r →
        p.mintBlockHeight ≤ k ∧ r.state = .Active ∧ (scheme.of s₀.log p).entry r)
    (fs : List IoResult) : Attempt scheme lowest height s₀ (s₀.withFaults fs) where
  rows := RowsKept.refl _
  log := fun _ _ _ => rfl
  energy := ⟨⟨fun _ _ _ _ => rfl, hentries, fun _ _ _ h => h, hb, hp, hs⟩,
    fun r hr => Nat.le_succ_of_le (hbelow r hr)⟩

theorem processInvalidMints (items : List InvalidPassMintInscriptionInfo) :
    Keeps (Attempt scheme lowest height s₀) (processInvalidMints items) := by
  induction items with
  | nil => exact Keeps.pure _
  | cons item rest ih => exact Keeps.bind (onInvalidMintPass item) (fun _ => ih)

theorem loadActivePages (pageSize index : Nat) (owners : List ActiveMinerPassInfo) (rounds : Nat) :
    Keeps (Attempt scheme lowest height s₀)
      (BalanceMonitor.loadActivePages pageSize (height + 1) index owners rounds) := by
  induction rounds generalizing index owners with
  | zero => exact Keeps.pure _
  | succ rounds ih =>
    refine Keeps.bind (readPass_keeps _) (fun passes => Keeps.ite _ (fun _ => Keeps.pure _)
      (fun _ => Keeps.bind (liftExcept_keeps _) (fun _ => ?_)))
    exact Keeps.ite _ (fun _ => Keeps.pure _) (fun _ => ih _ _)

theorem settle (provider : BalanceProvider) (pageSize : Nat) :
    Triple (Attempt scheme lowest height s₀)
      (BalanceMonitor.settleActiveBalanceWithDetails provider pageSize (height + 1))
      (fun settlement s => Attempt scheme lowest height s₀ s ∧
        ∀ row ∈ settlement.activePassBalances, row.blockHeight = height + 1)
      (fun _ => Attempt scheme lowest height s₀) := by
  have hkeeps : Keeps (Attempt scheme lowest height s₀)
      (BalanceMonitor.settleActiveBalanceWithDetails provider pageSize (height + 1)) := by
    refine Keeps.bind (checkPass _) (fun _ => Keeps.bind ?_ (fun active =>
      Keeps.ite _ (fun _ => Keeps.throw _) (fun _ => Keeps.bind io (fun _ => ?_))))
    · exact Keeps.bind Keeps.get (fun _ => Keeps.bind (loadActivePages _ _ _ _) (fun _ =>
        Keeps.pure _))
    · refine Keeps.bind (liftExcept_keeps _) (fun _ => Keeps.bind (liftExcept_keeps _)
        (fun settled => Keeps.ite _ (fun _ => Keeps.throw _) (fun _ => ?_)))
      exact Keeps.bind (writePass (fun ps ps' h hr => by cases h; exact hr.congr rfl rfl))
        (fun _ => Keeps.pure _)
  intro s hs
  have hr := hkeeps s hs
  cases hx : BalanceMonitor.settleActiveBalanceWithDetails provider pageSize (height + 1) s with
  | ok settlement t =>
    rw [hx] at hr
    obtain ⟨_, _, _, _, _, -, -, hrows, -, -⟩ := BalanceMonitor.settleActiveBalanceWithDetails_ok hx
    exact ⟨hr, BalanceMonitor.settlePasses_height hrows⟩
  | error e t =>
    rw [hx] at hr
    exact hr

theorem applyActiveBalanceChange (id : InscriptionId) (owner : USDBScriptHash) (balance : Nat)
    (delta : Int) : Keeps (Attempt scheme lowest height s₀)
      (applyActiveBalanceChange id owner (height + 1) balance delta) := by
  refine Keeps.ite _ (fun _ => Keeps.pure _) (fun _ => Keeps.bind (readEnergy_keeps _)
    (fun found => ?_))
  cases found with
  | none => exact Keeps.throw _
  | some last =>
    refine Keeps.ite _ (fun _ => Keeps.throw _) (fun _ => Keeps.ite _ (fun _ => Keeps.throw _)
      (fun _ => Keeps.ite _ (fun _ => Keeps.throw _) (fun _ => Keeps.ite _ (fun _ => ?_)
        (fun _ => ?_))))
    · exact Keeps.ite _ (fun _ => Keeps.throw _) (fun _ => Keeps.pure _)
    · exact Keeps.ite _ (fun _ => Keeps.throw _) (fun _ =>
        Keeps.bind (writeEnergy (fun _ h => h.insertHigh rfl)) (fun _ => Keeps.pure _))

theorem applyEnergyChanges {rows : List ActivePassBalance}
    (hh : ∀ row ∈ rows, row.blockHeight = height + 1) :
    Keeps (Attempt scheme lowest height s₀) (applyEnergyChanges rows) := by
  induction rows with
  | nil => exact Keeps.pure _
  | cons row rest ih =>
    have hrest := ih (fun r hr => hh r (by simp [hr]))
    refine Keeps.ite _ (fun _ => ?_) (fun _ => hrest)
    rw [hh row (by simp)]
    exact Keeps.bind (Keeps.bind (applyActiveBalanceChange _ _ _ _) (fun _ => Keeps.pure _))
      (fun _ => hrest)

theorem finalizeBlockSync (hl : lowest ≤ height + 1) :
    Keeps (Attempt scheme lowest height s₀) (PassEnergyManager.finalizeBlockSync (height + 1)) :=
  Keeps.bind (readEnergy_keeps _) (fun _ => Keeps.ite _ (fun _ => Keeps.throw _)
    (fun _ => writeEnergy (fun _ h => h.finalize hl)))

theorem beginBlockSync :
    Keeps (Attempt scheme lowest height s₀) (PassEnergyManager.beginBlockSync (height + 1)) := by
  refine Keeps.bind (readEnergy_keeps _) (fun pending => ?_)
  cases pending with
  | some p => exact Keeps.throw _
  | none =>
    refine writeEnergy (fun _ h => h.setPending (fun p hp => ?_))
    cases hp
    exact Nat.lt_succ_self _

/-- The stores and the log, without the tracker, the collector and the reports. -/
def stores (s : IndexerState) : MinerPassStorage × PassEnergyStorage × List NewPassLog :=
  (s.passStorage, s.energyStorage, s.log)

theorem of_stores {α : Type} {x : IndexerM α} (h : Preserves stores x) :
    Keeps (Attempt scheme lowest height s₀) x := by
  refine Keeps.of_run (fun s hs => ?_)
  have hstores := h s
  have hp : (finalState (x s)).passStorage = s.passStorage := congrArg Prod.fst hstores
  have he : (finalState (x s)).energyStorage = s.energyStorage :=
    congrArg (fun c => c.2.1) hstores
  have hl : (finalState (x s)).log = s.log := congrArg (fun c => c.2.2) hstores
  exact ⟨hp ▸ hs.rows, hl ▸ hs.log, he ▸ hs.energy⟩

theorem readOnly_stores {α : Type} {x : IndexerM α} (h : ReadOnly x) : Preserves stores x := by
  intro s
  have hs : stores ((finalState (x s)).withFaults []) = stores (s.withFaults []) :=
    congrArg stores (h s)
  exact hs

theorem beginBlockMutationCollection (h : Nat) : Preserves stores
    (MinerPassManager.beginBlockMutationCollection h) := by
  refine Preserves.bind Preserves.get (fun s => ?_)
  cases s.currentBlockCollector with
  | some c => exact Preserves.throw _
  | none => exact Preserves.modify (fun _ => rfl)

theorem collectBlock (env : BlockEnv) (h : Nat) : Preserves stores (collectBlock env h) := by
  refine Preserves.bind (readOnly_stores ReadOnly.io) (fun _ => ?_)
  cases env.blockHint with
  | none => exact Preserves.throw _
  | some block =>
    refine Preserves.bind (readOnly_stores (collectBlockInscriptionMints_readOnly env h)) (fun mints => ?_)
    refine Preserves.bind ?_ (fun _ => Preserves.pure _)
    refine Preserves.bind Preserves.get (fun s => Preserves.ite _ (Preserves.throw _) ?_)
    refine Preserves.bind (readOnly_stores (InscriptionTransferTracker.processTxs_readOnly _ _ _ _ _))
      (fun _ => Preserves.bind Preserves.get (fun _ => ?_))
    exact Preserves.bind (Preserves.modify (fun _ => rfl)) (fun _ =>
      Preserves.ite _ (Preserves.throw _) (Preserves.pure _))

theorem commitStagedBlock (h : Nat) : Preserves stores
    (InscriptionTransferTracker.commitStagedBlock h) := by
  refine Preserves.bind (Preserves.bind Preserves.get (fun s => ?_)) (fun _ =>
    Preserves.modify (fun _ => rfl))
  cases s.stagedBlocks.find? (fun b => b.1 = h) with
  | none => exact Preserves.throw _
  | some staged => exact Preserves.bind (Preserves.modify (fun _ => rfl)) (fun _ => Preserves.pure _)

theorem publishBlock (h : Nat) :
    Keeps (Attempt scheme lowest height s₀) (publishBlock cfg env h) := by
  refine Keeps.bind (of_stores ?_) (fun collector => Keeps.bind ?_ (fun _ =>
    of_stores (commitStagedBlock h)))
  · refine Preserves.bind Preserves.get (fun s => ?_)
    cases s.currentBlockCollector with
    | none => exact Preserves.throw _
    | some c =>
      exact Preserves.bind (Preserves.modify (fun _ => rfl)) (fun _ =>
        Preserves.ite _ (Preserves.throw _) (Preserves.pure _))
  · refine Keeps.bind io (fun _ => ?_)
    cases env.upstreamCommit with
    | none => exact Keeps.throw _
    | some commit =>
      have hrest : ∀ prev, Keeps (Attempt scheme lowest height s₀) (do
          let entry ← liftExcept (collector.buildCommitEntry cfg.hash commit prev)
          Usdb.writePass (fun ps => .ok (ps.upsertPassBlockCommit entry))) := fun prev =>
        Keeps.bind (liftExcept_keeps _) (fun _ =>
          writePass (fun ps ps' h hr => by cases h; exact hr.congr rfl rfl))
      exact Keeps.ite _ (fun _ => Keeps.bind (Keeps.pure _) hrest)
        (fun _ => Keeps.bind (readPass_keeps _) hrest)

/-- What is left of an attempt once it has failed. -/
structure Abandoned (scheme : Scheme) (lowest height : Nat) (s₀ s : IndexerState) : Prop where
  energy : LowKept scheme lowest height s₀ s.energyStorage
  log : ∀ i p, s₀.passStorage.getPassByInscriptionId i = some p →
    inheritedEnergy s.log i = inheritedEnergy s₀.log i

theorem abandoned {s : IndexerState} (h : Attempt scheme lowest height s₀ s) :
    Abandoned scheme lowest height s₀ s :=
  ⟨h.energy.low, h.log⟩

theorem Abandoned.undone {s s' : IndexerState} (h : Abandoned scheme lowest height s₀ s)
    (hu : Undoing lowest height s s') : Abandoned scheme lowest height s₀ s' := by
  have hlog : s'.log = s.log := congrArg Prod.snd hu.others
  exact ⟨h.energy.recovered hu.energy, hlog ▸ h.log⟩

theorem Abandoned.undoing {s : IndexerState} (h : Abandoned scheme lowest height s₀ s) :
    Undoing lowest height s s :=
  ⟨h.energy.recoverable, rfl⟩

/-- There are no low records above the recorded synced height that could be lost: it is
the height itself, or there is no pass yet. -/
def Anchored (height : Nat) (s₀ : IndexerState) : Prop :=
  height ≤ s₀.passStorage.syncedBtcBlockHeight.getD 0 ∨
    ∀ i, s₀.passStorage.getPassByInscriptionId i = none

section Failure

variable (absent : ∀ i, s₀.passStorage.getPassByInscriptionId i = none → ∀ k, k ≤ height →
    s₀.energyStorage.getPassEnergyRecord i k = none) (anchored : Anchored height s₀)

include absent anchored

theorem Abandoned.clear {s : IndexerState} (h : Abandoned scheme lowest height s₀ s)
    (i : InscriptionId) (k : Nat) (hlt : s₀.passStorage.syncedBtcBlockHeight.getD 0 < k)
    (hk : k ≤ height) : s.energyStorage.getPassEnergyRecord i k = none := by
  rcases anchored with hanchor | hnone
  · omega
  · rw [h.energy.others i (fun p hp => by rw [hnone i] at hp; cases hp) k hk]
    exact absent i (hnone i) k hk

/-- The handler of `sync_block` leaves an abandoned attempt. -/
theorem recover (staged finalized : Bool) (error : IndexerError)
    (hs : finalized = true → lowest ≤ s₀.passStorage.syncedBtcBlockHeight.getD 0)
    {Q : Unit → IndexerState → Prop} :
    Triple (Attempt scheme lowest height s₀)
      (do throw (← recoverFailedBlockSync (height + 1) staged finalized error)) Q
      (fun _ => Abandoned scheme lowest height s₀) := by
  intro s h
  have hsynced := h.rows.synced
  have hundo : Keeps (Undoing lowest height s)
      (recoverFailedBlockSync (height + 1) staged finalized error) :=
    Undoing.recoverFailedBlockSync (Nat.lt_succ_self height) staged finalized error
      (fun hf => by rw [hsynced]; exact hs hf)
      (fun i k hlt hk => h.abandoned.clear absent anchored i k (by rw [← hsynced]; exact hlt) hk)
  have hthrow : Triple (Undoing lowest height s)
      (do throw (← recoverFailedBlockSync (height + 1) staged finalized error)) Q
      (fun _ => Undoing lowest height s) :=
    Triple.bind hundo (fun _ _ hu => hu)
  exact Triple.conseq hthrow (fun _ hr => hr) (fun _ _ hq => hq)
    (fun _ _ hu => h.abandoned.undone hu) s h.abandoned.undoing

/-- A later write that fails sends the energy store back to the durable height. -/
theorem orRollbackEnergy {context : RecoveryContext} {x : IndexerM Unit} {durable : Nat}
    (hd : durable = s₀.passStorage.syncedBtcBlockHeight.getD 0) (hl : lowest ≤ durable)
    (hx : Keeps (Abandoned scheme lowest height s₀) x) :
    Keeps (Abandoned scheme lowest height s₀) (orRollbackEnergy durable context x) := by
  refine recoverWith_triple (E := fun _ => Abandoned scheme lowest height s₀) hx (fun e => ?_)
    (fun _ hs => hs)
  intro s h
  have hundo : Keeps (Undoing lowest height s) (errorOf (rollbackToPassSyncedHeight durable)) :=
    errorOf_keeps (Undoing.rollback hl (fun i k hlt hk =>
      h.clear absent anchored i k (by rw [← hd]; exact hlt) hk))
  have hthrow : Keeps (Undoing lowest height s) (do
      let recovery ← errorOf (rollbackToPassSyncedHeight durable)
      throw (mergeBlockFailureWithRecovery e recovery context) : IndexerM Unit) :=
    Keeps.bind hundo (fun _ => Keeps.throw _)
  exact Triple.conseq hthrow (fun _ hr => hr) (fun _ _ hu => h.undone hu)
    (fun _ _ hu => h.undone hu) s h.undoing

end Failure

end Attempt

namespace InscriptionIndexer

/-- A block that `sync_block` gets through has been applied. -/
theorem syncBlock_ok_applied {cfg : IndexerConfig} {env : BlockEnv} {height : Nat}
    {s t : IndexerState} {u : Unit} (h : syncBlock cfg env height s = .ok u t) :
    ∃ r, (do
      beginBlockSync height
      MinerPassManager.beginBlockMutationCollection height
      let (block, mints, items) ← collectBlock env height
      applyBlock cfg env height block mints items : IndexerM Unit) s = .ok () r := by
  obtain ⟨_, s₁, hbegin, h⟩ := bind_eq_ok h
  obtain ⟨hcoll, s₂, hbody, -⟩ := withMutationCollection_ok h
  obtain ⟨⟨block, mints, items⟩, s₃, hcollect, hrest⟩ := bind_eq_ok hbody
  obtain ⟨_, s₄, happly, -⟩ := bind_eq_ok hrest
  refine ⟨s₄, ?_⟩
  rw [bind_ok hbegin, bind_ok hcoll, bind_ok hcollect]
  exact recoverWith_ok (fun _ _ _ _ => bind_throw_ne_ok) happly

section Failure

open Attempt

variable {scheme : Scheme} {lowest height : Nat} {s₀ s t : IndexerState} {cfg : IndexerConfig}
  {env : BlockEnv} {e : IndexerError}
  (served : scheme.Served env.provider (height + 1))
  (absent : ∀ i, s₀.passStorage.getPassByInscriptionId i = none → ∀ k, k ≤ height →
    s₀.energyStorage.getPassEnergyRecord i k = none)

include served absent

theorem applyBlock_attempt {block : Block} {mints : CollectedMintItems}
    {items : List InscriptionTransferItem} (hl : lowest ≤ height + 1)
    (hm : ∀ item ∈ mints.validItems, item.blockHeight = height + 1)
    (hi : ∀ item ∈ items, item.blockHeight = height + 1) :
    Keeps (Attempt scheme lowest height s₀)
      (applyBlock cfg env (height + 1) block mints items) := by
  refine Triple.bind (liftExcept_triple _) (fun events => ?_)
  rintro s ⟨hs, hplan⟩
  have hevents : ∀ event ∈ events, event.height = height + 1 := by
    intro event he
    rcases BlockEventPlanner.plan_mem hplan he with ⟨item, hitem, rfl⟩ | ⟨item, hitem, rfl⟩
    · exact hm item hitem
    · exact hi item hitem
  have hrest : Keeps (Attempt scheme lowest height s₀) (do
      BlockEventExecutor.execute env.provider events
      processInvalidMints mints.invalidItems
      let settlement ← BalanceMonitor.settleActiveBalanceWithDetails env.provider
        cfg.activeAddressPageSize (height + 1)
      applyEnergyChanges settlement.activePassBalances
      PassEnergyManager.finalizeBlockSync (height + 1)) := by
    refine Keeps.bind (Attempt.execute served absent hevents) (fun _ =>
      Keeps.bind (Attempt.processInvalidMints _) (fun _ => ?_))
    refine Triple.bind (Attempt.settle _ _) (fun settlement => ?_)
    rintro s ⟨hs, hrows⟩
    exact Keeps.bind (Attempt.applyEnergyChanges hrows) (fun _ =>
      Attempt.finalizeBlockSync hl) s hs
  exact hrest s hs

omit served absent in
/-- The guard that drops the mutation collector touches neither the energy store nor the
log. -/
theorem Abandoned.withoutCollector {body : IndexerM Unit}
    (h : Abandoned scheme lowest height s₀ (finalState (body s))) :
    Abandoned scheme lowest height s₀ (finalState (match body s with
      | .ok a t => .ok a { t with currentBlockCollector := none }
      | .error e t => .error e { t with currentBlockCollector := none } :
        EStateM.Result IndexerError IndexerState Unit)) := by
  cases hx : body s with
  | ok a t =>
    rw [hx] at h
    exact ⟨h.energy, h.log⟩
  | error e t =>
    rw [hx] at h
    exact ⟨h.energy, h.log⟩

omit served absent in
/-- Nor does the savepoint that restores the pass database. -/
theorem Abandoned.restored {body : IndexerM Unit}
    (h : Abandoned scheme lowest height s₀ (finalState (body s))) :
    Abandoned scheme lowest height s₀ (finalState (match body s with
      | .ok a t => .ok a t
      | .error e t => .error e { t with passStorage := s.passStorage } :
        EStateM.Result IndexerError IndexerState Unit)) := by
  cases hx : body s with
  | ok a t =>
    rw [hx] at h
    exact h
  | error e t =>
    rw [hx] at h
    exact ⟨h.energy, h.log⟩

variable (anchored : Anchored height s₀)

include anchored

/-- However `sync_block` ends, it leaves at most an abandoned attempt; when it fails past
the energy finalize, this takes a recorded synced height that is high enough. -/
theorem syncBlock_abandoned (hl : lowest ≤ height + 1) (h : Attempt scheme lowest height s₀ s)
    (hfinal : (∃ r, (do
        beginBlockSync (height + 1)
        MinerPassManager.beginBlockMutationCollection (height + 1)
        let (block, mints, items) ← collectBlock env (height + 1)
        applyBlock cfg env (height + 1) block mints items : IndexerM Unit) s = .ok () r) →
      lowest ≤ s₀.passStorage.syncedBtcBlockHeight.getD 0) :
    Abandoned scheme lowest height s₀ (finalState (syncBlock cfg env (height + 1) s)) := by
  refine finalState_bind (fun e t hbegin => ?_) (fun _ s₁ hbegin => ?_)
  · exact (Attempt.beginBlockSync.error h hbegin).abandoned
  have h₁ := Attempt.beginBlockSync.ok h hbegin
  refine finalState_bind (fun e t hcoll => ?_) (fun _ s₂ hcoll => ?_)
  · exact ((of_stores (Attempt.beginBlockMutationCollection _)).error h₁ hcoll).abandoned
  have h₂ := (of_stores (Attempt.beginBlockMutationCollection _)).ok h₁ hcoll
  refine Abandoned.withoutCollector ?_
  refine finalState_bind (fun e t hcollect => ?_) (fun result s₃ hcollect => ?_)
  · exact ((of_stores (Attempt.collectBlock env _)).error h₂ hcollect).abandoned
  obtain ⟨block, mints, items⟩ := result
  have h₃ := (of_stores (Attempt.collectBlock env _)).ok h₂ hcollect
  obtain ⟨-, -, _, _, _, _, working, fs, hmints, htxs, -⟩ := collectBlock_ok hcollect
  have happly : Keeps (Attempt scheme lowest height s₀)
      (applyBlock cfg env (height + 1) block mints items) :=
    applyBlock_attempt served absent hl (collectBlockInscriptionMints_heights hmints).1
      (InscriptionTransferTracker.processTxs_heights (fun _ hm => absurd hm List.not_mem_nil) htxs)
  have hfailed := recoverWith_triple happly
    (fun e => Attempt.recover absent anchored true false e (fun hf => by cases hf)
      (Q := fun _ => Attempt scheme lowest height s₀)) (fun _ hs => hs.abandoned)
  refine finalState_bind (fun e t hfail => hfailed.error h₃ hfail) (fun _ s₄ happlied => ?_)
  have happlied' := recoverWith_ok (fun _ _ _ _ => bind_throw_ne_ok) happlied
  have h₄ := happly.ok h₃ happlied'
  have hlow := hfinal ⟨s₄, by rw [bind_ok hbegin, bind_ok hcoll, bind_ok hcollect]; exact happlied'⟩
  have hpub : Keeps (Attempt scheme lowest height s₀) (publishBlock cfg env (height + 1)) :=
    Attempt.publishBlock _
  have hpublished := recoverWith_triple hpub
    (fun e => Attempt.recover absent anchored true true e (fun _ => hlow)
      (Q := fun _ => Attempt scheme lowest height s₀)) (fun _ hs => hs.abandoned)
  have hend := hpublished s₄ h₄
  split at hend
  · rename_i hx
    rw [hx]
    exact hend.abandoned
  · rename_i hx
    rw [hx]
    exact hend

/-- However a round of `sync_blocks` ends, it leaves at most an abandoned attempt; when
it fails past the energy finalize, this takes a recorded synced height that is high
enough. -/
theorem syncBlockDurably_abandoned (hl : lowest ≤ height + 1)
    (h : ∀ fs, Attempt scheme lowest height s₀ (s₀.withFaults fs)) {fs : List IoResult}
    (hfinal : (∃ r, syncUntilFinalized cfg env (height + 1) (s₀.withFaults fs) = .ok () r) →
      lowest ≤ s₀.passStorage.syncedBtcBlockHeight.getD 0) :
    Abandoned scheme lowest height s₀
      (finalState (syncBlockDurably cfg env (height + 1) (s₀.withFaults fs))) := by
  refine finalState_bind (fun e t hread => ?_) (fun durable s₁ hread => ?_)
  · obtain ⟨fs', rfl⟩ := (ReadOnly.readPass _).error hread
    exact (h fs').abandoned
  obtain ⟨hdurable, fs₁, rfl⟩ := readPass_ok hread
  refine finalState_bind (fun e t hio => ?_) (fun _ s₂ hio => ?_)
  · obtain ⟨fs', rfl⟩ := io_error hio
    exact (h fs').abandoned
  have hio' := hio
  obtain ⟨fs₂, rfl⟩ := io_ok hio
  refine Abandoned.restored ?_
  have hfinal' : (∃ r, (do
        beginBlockSync (height + 1)
        MinerPassManager.beginBlockMutationCollection (height + 1)
        let (block, mints, items) ← collectBlock env (height + 1)
        applyBlock cfg env (height + 1) block mints items : IndexerM Unit)
          (s₀.withFaults fs₂) = .ok () r) →
      lowest ≤ s₀.passStorage.syncedBtcBlockHeight.getD 0 := by
    rintro ⟨r, hr⟩
    refine hfinal ⟨r, ?_⟩
    unfold syncUntilFinalized
    rw [bind_ok hread, bind_ok hio']
    exact hr
  have hsync := syncBlock_abandoned served absent anchored hl (h fs₂) hfinal'
  refine finalState_bind (fun e t hx => ?_) (fun _ t hx => ?_)
  · have hend : Abandoned scheme lowest height s₀
        (finalState (syncBlock cfg env (height + 1) (s₀.withFaults fs₂))) := hsync
    rw [show syncBlock cfg env (height + 1) (s₀.withFaults fs₂) = .error e t from hx] at hend
    exact hend
  have hend : Abandoned scheme lowest height s₀
      (finalState (syncBlock cfg env (height + 1) (s₀.withFaults fs₂))) := hsync
  rw [show syncBlock cfg env (height + 1) (s₀.withFaults fs₂) = .ok () t from hx] at hend
  have hlow := hfinal' (syncBlock_ok_applied hx)
  have hio : Keeps (Abandoned scheme lowest height s₀) io :=
    Keeps.of_run (fun s hs => by
      cases hx : io s with
      | ok u t =>
        obtain ⟨fs, rfl⟩ := io_ok hx
        exact ⟨hs.energy, hs.log⟩
      | error e t =>
        obtain ⟨fs, rfl⟩ := io_error hx
        exact ⟨hs.energy, hs.log⟩)
  have hwrite : Keeps (Abandoned scheme lowest height s₀)
      (writePass (fun ps => .ok (ps.updateSyncedBtcBlockHeight (height + 1)))) :=
    Keeps.bind hio (fun _ => Keeps.bind Keeps.get (fun _ => Keeps.bind (liftExcept_keeps _)
      (fun _ _ hs => ⟨hs.energy, hs.log⟩)))
  have hd : durable.getD 0 = s₀.passStorage.syncedBtcBlockHeight.getD 0 := by rw [hdurable]; rfl
  rw [← hd] at hlow
  have hrest : Keeps (Abandoned scheme lowest height s₀) (do
      orRollbackEnergy (durable.getD 0) .energyRollbackAfterSyncedHeightUpdate
        (writePass (fun ps => .ok (ps.updateSyncedBtcBlockHeight (height + 1))))
      orRollbackEnergy (durable.getD 0) .energyRollbackAfterSavepoint io) :=
    Keeps.bind (Attempt.orRollbackEnergy absent anchored hd hlow hwrite)
      (fun _ => Attempt.orRollbackEnergy absent anchored hd hlow hio)
  exact hrest.run hend

end Failure

end InscriptionIndexer

end Usdb
