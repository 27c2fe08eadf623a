import Usdb.Energy.Recovery

namespace Usdb

open Framework PassEnergyStorage PassEnergyManager

/-- What is done to the energy store from outside. -/
inductive EnergyOp
  | beginBlock (blockHeight : Nat)
  | insertRecord (record : PassEnergyRecord)
  | finalize (blockHeight : Nat)
  | abort (blockHeight : Nat)
  | clearFrom (blockHeight : Nat)
  | reconcile (passSyncedHeight : Nat)

def EnergyOp.run : EnergyOp → IndexerM Unit
  | .beginBlock blockHeight => beginBlockSync blockHeight
  | .insertRecord record => writeEnergy (·.insertPassEnergyRecord record)
  | .finalize blockHeight => PassEnergyManager.finalizeBlockSync blockHeight
  | .abort blockHeight => abortPendingBlockSync blockHeight
  | .clearFrom blockHeight => clearRecordsFromHeight blockHeight
  | .reconcile passSyncedHeight => reconcileWithPassSyncedHeight passSyncedHeight

/-- The stores that operations leave, in any order. The faults of the state an operation
starts from say where it fails or ends with the process. -/
inductive EnergyStoreLeft : PassEnergyStorage → Prop
  | empty : EnergyStoreLeft .empty
  | op (s : IndexerState) (op : EnergyOp) (left : EnergyStoreLeft s.energyStorage) :
    EnergyStoreLeft (finalState (op.run s)).energyStorage

section MaxBound

/-- A program that keeps the cached maximum sound, wherever it is cut off. -/
abbrev KeepsMaxBound {α : Type} (x : IndexerM α) : Prop :=
  Keeps (fun s => s.energyStorage.MaxBound) x

theorem clearRecordsFromHeight_keepsMaxBound (first : Nat) :
    KeepsMaxBound (clearRecordsFromHeight first) :=
  Keeps.bind (writeEnergy_keeps (fun _ h r hr => h r (List.mem_of_mem_filter hr)))
    (fun _ => writeEnergy_keeps (fun e _ => MaxBound.reset e))

theorem clearPendingBlockHeight_keepsMaxBound : KeepsMaxBound clearPendingBlockHeight :=
  writeEnergy_keeps (fun _ h => h)

theorem readEnergy_bind_keepsMaxBound {α β : Type} {f : PassEnergyStorage → α}
    {x : α → IndexerM β} (hx : ∀ a, KeepsMaxBound (x a)) : KeepsMaxBound (readEnergy f >>= x) :=
  Keeps.bind (Triple.conseq (readEnergy_triple f) (fun _ h => h) (fun _ _ h => h.1)
    (fun _ _ h => h)) hx

theorem recoverPendingBlock_keepsMaxBound : KeepsMaxBound recoverPendingBlock := by
  refine readEnergy_bind_keepsMaxBound (fun pending => ?_)
  cases pending with
  | none => exact Keeps.pure _
  | some p =>
    exact Keeps.bind (clearRecordsFromHeight_keepsMaxBound p)
      (fun _ => clearPendingBlockHeight_keepsMaxBound)

theorem truncateFutureRecords_keepsMaxBound (target : Nat) :
    KeepsMaxBound (truncateFutureRecords target) := by
  refine Keeps.bind (getMaxRecordBlockHeight_keeps (fun _ _ _ hb => hb)) (fun cached => ?_)
  cases cached with
  | none => exact Keeps.pure _
  | some max =>
    exact Keeps.ite _ (fun _ => clearRecordsFromHeight_keepsMaxBound _) (fun _ => Keeps.pure _)

theorem reconcileSyncedMarker_keepsMaxBound (target : Nat) :
    KeepsMaxBound (reconcileSyncedMarker target) := by
  have hset : KeepsMaxBound (setSyncedBlockHeight target) := writeEnergy_keeps (fun _ h => h)
  refine readEnergy_bind_keepsMaxBound (fun synced => ?_)
  cases synced with
  | none => exact hset
  | some k => exact Keeps.ite _ (fun _ => hset) (fun _ => Keeps.ite _ (fun _ => Keeps.throw _)
      (fun _ => Keeps.pure _))

theorem EnergyOp.run_keepsMaxBound (op : EnergyOp) : KeepsMaxBound op.run := by
  cases op with
  | beginBlock blockHeight =>
    refine readEnergy_bind_keepsMaxBound (fun pending => ?_)
    cases pending with
    | none => exact writeEnergy_keeps (fun _ h => h)
    | some p => exact Keeps.throw _
  | insertRecord record =>
    exact writeEnergy_keeps (I := MaxBound) (fun _ h => MaxBound.insert h record)
  | finalize blockHeight =>
    exact readEnergy_bind_keepsMaxBound (fun _ => Keeps.ite _ (fun _ => Keeps.throw _)
      (fun _ => writeEnergy_keeps (fun _ h => h)))
  | abort blockHeight =>
    exact readEnergy_bind_keepsMaxBound (fun _ => Keeps.ite _ (fun _ => Keeps.throw _)
      (fun _ => Keeps.bind (clearRecordsFromHeight_keepsMaxBound _)
        (fun _ => clearPendingBlockHeight_keepsMaxBound)))
  | clearFrom blockHeight => exact clearRecordsFromHeight_keepsMaxBound _
  | reconcile passSyncedHeight =>
    exact Keeps.bind recoverPendingBlock_keepsMaxBound (fun _ =>
      Keeps.bind (truncateFutureRecords_keepsMaxBound _) (fun _ =>
        reconcileSyncedMarker_keepsMaxBound _))

/-- Whatever was done, and wherever it ended, no record is above the cached maximum. -/
theorem EnergyStoreLeft.maxBound {e : PassEnergyStorage} (h : EnergyStoreLeft e) : e.MaxBound := by
  induction h with
  | empty => exact MaxBound.empty
  | op s op _ ih => exact op.run_keepsMaxBound.run ih

end MaxBound

section Reconciled

variable {e : PassEnergyStorage} {target : Nat}

theorem getPassEnergyRecord_recovered (e : PassEnergyStorage) (id : InscriptionId) (k : Nat) :
    e.recovered.getPassEnergyRecord id k =
      if ∀ p, e.pendingBlockHeight = some p → k < p then e.getPassEnergyRecord id k else none := by
  unfold recovered
  cases hp : e.pendingBlockHeight with
  | none => simp
  | some p =>
    have hdelete := getPassEnergyRecord_delete e p id k
    simp only [Option.some.injEq, forall_eq']
    exact hdelete

theorem getPassEnergyRecord_truncated (hb : e.MaxBound) (target : Nat) (id : InscriptionId)
    (k : Nat) :
    (e.truncated target).getPassEnergyRecord id k =
      if k ≤ target then e.getPassEnergyRecord id k else none := by
  by_cases hk : k ≤ target
  · rw [if_pos hk]
    unfold truncated
    split
    · split
      · have hdelete := getPassEnergyRecord_delete e (target + 1) id k
        rw [if_pos (by omega)] at hdelete
        exact hdelete
      · rfl
    · rfl
  · rw [if_neg hk]
    exact (hb.truncated target).2.none (by omega)

/-- The cached maximum is not above the height either, so a second pass has nothing to do. -/
theorem truncated_truncated (e : PassEnergyStorage) (target : Nat) :
    (e.truncated target).truncated target = e.truncated target := by
  have hmax : ∀ m, (e.truncated target).maxRecordBlockHeight = some m → m ≤ target := by
    intro m hm
    unfold truncated at hm
    split at hm
    · rename_i max hold
      split at hm
      · obtain ⟨r, hr, rfl⟩ := Option.map_eq_some_iff.mp hm
        exact RecordsBelow.deleteRecordsFrom e target r (maxBy_mem _ _ _ hr)
      · rw [hold] at hm
        cases hm
        omega
    · rename_i hold
      rw [hold] at hm
      cases hm
  generalize e.truncated target = e' at hmax
  unfold truncated
  cases hm : e'.maxRecordBlockHeight with
  | none => rfl
  | some m =>
    have hle := hmax m hm
    exact if_neg (by omega)

theorem truncated_setSynced (e : PassEnergyStorage) (target : Nat) (synced : Option Nat) :
    PassEnergyStorage.truncated target { e with syncedBlockHeight := synced } =
      { e.truncated target with syncedBlockHeight := synced } := by
  obtain ⟨records, before, pending, max⟩ := e
  unfold truncated
  cases max with
  | none => rfl
  | some m =>
    dsimp only
    split <;> rfl

theorem recovered_of_none (h : e.pendingBlockHeight = none) : e.recovered = e := by
  unfold recovered
  rw [h]

/-- The reconciliation of a store that may have been left anywhere between two writes: it
goes through, the store ends at the height, without a record above it or from the pending
block on and with all the others, and a second one changes nothing. -/
theorem reconcileWithPassSyncedHeight_restores (e : PassEnergyStorage) (hleft : EnergyStoreLeft e)
    (passSyncedHeight : Nat)
    (hfinalized : ∀ h, e.syncedBlockHeight = some h → passSyncedHeight ≤ h) (s : IndexerState)
    (hs : s.energyStorage = e) :
    e.MaxBound ∧
    (s.faults = [] → ∃ t, reconcileWithPassSyncedHeight passSyncedHeight s = .ok () t) ∧
    ∀ t, reconcileWithPassSyncedHeight passSyncedHeight s = .ok () t →
      t.energyStorage.pendingBlockHeight = none ∧
      t.energyStorage.RecordsBelow passSyncedHeight ∧
      t.energyStorage.syncedBlockHeight = some passSyncedHeight ∧
      (∀ id k, t.energyStorage.getPassEnergyRecord id k =
        if k ≤ passSyncedHeight ∧ ∀ p, e.pendingBlockHeight = some p → k < p then
          e.getPassEnergyRecord id k else none) ∧
      t.energyStorage.MaxBound ∧
      ∀ t', reconcileWithPassSyncedHeight passSyncedHeight t = .ok () t' →
        t'.energyStorage = t.energyStorage := by
  subst hs
  have hb := hleft.maxBound
  refine ⟨hb, fun hf => ?_, fun t h => ?_⟩
  · obtain ⟨t, ht, -⟩ := reconcileWithPassSyncedHeight_total hf hb hfinalized
    exact ⟨t, ht⟩
  have ht := reconcileWithPassSyncedHeight_eq hb h
  have hbt : t.energyStorage.MaxBound := by
    rw [ht]
    exact (hb.recovered.truncated passSyncedHeight).1
  obtain ⟨hbelow, hpending⟩ := reconcileWithPassSyncedHeight_ok hb h
  refine ⟨hpending, hbelow, by rw [ht], fun id k => ?_, hbt, fun t' h' => ?_⟩
  · have hget := getPassEnergyRecord_truncated hb.recovered passSyncedHeight id k
    rw [getPassEnergyRecord_recovered] at hget
    rw [ht, ite_and]
    exact hget
  · rw [reconcileWithPassSyncedHeight_eq hbt h', recovered_of_none hpending, ht]
    rw [truncated_setSynced, truncated_truncated]

end Reconciled

section PendingBelow

/-- The record of one pass at a height. -/
def recordAt (blockHeight : Nat) : PassEnergyRecord where
  inscriptionId := ⟨10, 0⟩
  blockHeight
  state := .Active
  activeBlockHeight := blockHeight
  ownerAddress := 100
  ownerBalance := 0
  ownerDelta := 0
  energy := 0

/-- A process that has opened a store. -/
def openedWith (energyStorage : PassEnergyStorage) : IndexerState where
  passStorage := .empty
  energyStorage
  inscriptions := fun _ => []
  stagedBlocks := []
  currentBlockCollector := none
  log := []
  faults := []

/-- Block 3 is finalized with a record, and then block 2 is begun. -/
def begunBelow : PassEnergyStorage where
  records := [recordAt 3]
  syncedBlockHeight := some 3
  pendingBlockHeight := some 2
  maxRecordBlockHeight := some 3

theorem begunBelow_left : EnergyStoreLeft begunBelow :=
  .op (openedWith { begunBelow with pendingBlockHeight := none }) (.beginBlock 2)
    (.op (openedWith { begunBelow with syncedBlockHeight := none, pendingBlockHeight := some 3 })
      (.finalize 3)
      (.op (openedWith { PassEnergyStorage.empty with pendingBlockHeight := some 3 })
        (.insertRecord (recordAt 3))
        (.op (openedWith .empty) (.beginBlock 3) .empty)))

/-- The reconciliation at the finalized height 3 removes the record of this height. -/
theorem reconcile_removes_finalized :
    EnergyStoreLeft begunBelow ∧ begunBelow.syncedBlockHeight = some 3 ∧
      begunBelow.getPassEnergyRecord ⟨10, 0⟩ 3 = some (recordAt 3) ∧
      ∃ t, reconcileWithPassSyncedHeight 3 (openedWith begunBelow) = .ok () t ∧
        t.energyStorage.getPassEnergyRecord ⟨10, 0⟩ 3 = none :=
  ⟨begunBelow_left, rfl, by decide, _, rfl, by decide⟩

/-- At the height below the pending block its records stay. -/
theorem reconcileWithPassSyncedHeight_restores_below :
    ∃ t, reconcileWithPassSyncedHeight 1 (openedWith begunBelow) = .ok () t ∧
      t.energyStorage.pendingBlockHeight = none ∧ t.energyStorage.syncedBlockHeight = some 1 := by
  obtain ⟨-, hok, hrestores⟩ := reconcileWithPassSyncedHeight_restores begunBelow begunBelow_left 1
    (fun h hs => by
      cases hs
      decide) (openedWith begunBelow) rfl
  obtain ⟨t, ht⟩ := hok rfl
  obtain ⟨hpending, -, hsynced, -⟩ := hrestores t ht
  exact ⟨t, ht, hpending, hsynced⟩

end PendingBelow

end Usdb
