import Usdb.Energy.Ledger
import Usdb.Index.Indexer

namespace Usdb

open Framework

namespace PassEnergyStorage

/-- The cached maximum, once there are records, is not below any of them. -/
def MaxBound (e : PassEnergyStorage) : Prop :=
  ∀ r ∈ e.records, ∃ max, e.maxRecordBlockHeight = some max ∧ r.blockHeight ≤ max

/-- No record above a height. -/
def RecordsBelow (e : PassEnergyStorage) (height : Nat) : Prop :=
  ∀ r ∈ e.records, r.blockHeight ≤ height

/-- A store that can still be brought back to a height: it has the records of another
up to there, a sound cached maximum, no attempt marked at or below it, and a synced
marker that is not too low. -/
structure Recoverable (lowest height : Nat) (e₀ e : PassEnergyStorage) : Prop where
  low : ∀ i k, k ≤ height → e.getPassEnergyRecord i k = e₀.getPassEnergyRecord i k
  bound : e.MaxBound
  pending : ∀ p, e.pendingBlockHeight = some p → height < p
  synced : ∀ h, e.syncedBlockHeight = some h → lowest ≤ h

theorem getPassEnergyRecord_of_mem {e : PassEnergyStorage} {r : PassEnergyRecord}
    (h : r ∈ e.records) : e.getPassEnergyRecord r.inscriptionId r.blockHeight ≠ none := by
  unfold getPassEnergyRecord
  rw [ne_eq, lookup_eq_none]
  intro hnone
  exact hnone r h rfl

theorem RecordsBelow.none {e : PassEnergyStorage} {height : Nat} (h : e.RecordsBelow height)
    {i : InscriptionId} {k : Nat} (hk : height < k) : e.getPassEnergyRecord i k = none := by
  cases hr : e.getPassEnergyRecord i k with
  | none => rfl
  | some r =>
    have hle := h r (lookup_some_mem _ _ _ _ hr)
    have hkey := (getPassEnergyRecord_key e i k r hr).2
    omega

theorem MaxBound.empty : MaxBound .empty :=
  fun _ hr => absurd hr List.not_mem_nil

theorem MaxBound.insert {e : PassEnergyStorage} (h : e.MaxBound) (record : PassEnergyRecord) :
    (e.insertPassEnergyRecord record).MaxBound := by
  intro r hr
  unfold insertPassEnergyRecord at hr ⊢
  dsimp only at hr ⊢
  rcases mem_upsert _ _ _ _ hr with rfl | hr
  · cases e.maxRecordBlockHeight with
    | none => exact ⟨_, rfl, Nat.le_refl _⟩
    | some m =>
      dsimp only
      split
      · exact ⟨_, rfl, Nat.le_refl _⟩
      · exact ⟨_, rfl, by omega⟩
  · obtain ⟨m, hm, hle⟩ := h r hr
    rw [hm]
    dsimp only
    split
    · exact ⟨_, rfl, by omega⟩
    · exact ⟨_, rfl, hle⟩

theorem RecordsBelow.insert {e : PassEnergyStorage} {height : Nat} (h : e.RecordsBelow height)
    {record : PassEnergyRecord} (hr : record.blockHeight ≤ height) :
    (e.insertPassEnergyRecord record).RecordsBelow height := by
  intro r hmem
  rcases mem_upsert _ _ _ _ hmem with rfl | hmem
  · exact hr
  · exact h r hmem

theorem MaxBound.scan {e : PassEnergyStorage} {max : Nat}
    (h : scanMaxRecordBlockHeight e.records = some max) :
    MaxBound { e with maxRecordBlockHeight := some max } := by
  intro r hr
  obtain ⟨m, hm, hle⟩ := maxBy_le (·.blockHeight) e.records r hr
  rw [scanMaxRecordBlockHeight, hm, Option.map_some, Option.some.injEq] at h
  exact ⟨max, rfl, by omega⟩

theorem MaxBound.reset (e : PassEnergyStorage) : e.resetMaxRecordBlockHeight.MaxBound := by
  intro r hr
  obtain ⟨m, hm, hle⟩ := maxBy_le (·.blockHeight) e.records r hr
  refine ⟨m.blockHeight, ?_, hle⟩
  simp only [resetMaxRecordBlockHeight, scanMaxRecordBlockHeight, hm, Option.map_some]

/-- What is left of a store once its pending block is undone. -/
def recovered (e : PassEnergyStorage) : PassEnergyStorage :=
  match e.pendingBlockHeight with
  | some pending =>
    { (e.deleteRecordsFrom pending).resetMaxRecordBlockHeight with pendingBlockHeight := none }
  | none => e

/-- What is left of a store without its records above a height. -/
def truncated (target : Nat) (e : PassEnergyStorage) : PassEnergyStorage :=
  match e.maxRecordBlockHeight with
  | some max =>
    if target < max then (e.deleteRecordsFrom (target + 1)).resetMaxRecordBlockHeight else e
  | none => e

theorem recovered_pending (e : PassEnergyStorage) : e.recovered.pendingBlockHeight = none := by
  unfold recovered
  split
  · rfl
  · assumption

theorem recovered_synced (e : PassEnergyStorage) :
    e.recovered.syncedBlockHeight = e.syncedBlockHeight := by
  unfold recovered
  split <;> rfl

theorem truncated_pending (target : Nat) (e : PassEnergyStorage) :
    (e.truncated target).pendingBlockHeight = e.pendingBlockHeight := by
  unfold truncated
  split
  · split <;> rfl
  · rfl

theorem truncated_synced (target : Nat) (e : PassEnergyStorage) :
    (e.truncated target).syncedBlockHeight = e.syncedBlockHeight := by
  unfold truncated
  split
  · split <;> rfl
  · rfl

theorem MaxBound.recovered {e : PassEnergyStorage} (h : e.MaxBound) : e.recovered.MaxBound := by
  unfold PassEnergyStorage.recovered
  split
  · exact MaxBound.reset _
  · exact h

theorem RecordsBelow.deleteRecordsFrom (e : PassEnergyStorage) (target : Nat) :
    (e.deleteRecordsFrom (target + 1)).RecordsBelow target := by
  intro r hr
  have hlt := (List.mem_filter.mp hr).2
  simp only [decide_eq_true_eq] at hlt
  omega

theorem MaxBound.truncated {e : PassEnergyStorage} (h : e.MaxBound) (target : Nat) :
    (e.truncated target).MaxBound ∧ (e.truncated target).RecordsBelow target := by
  unfold PassEnergyStorage.truncated
  split
  · rename_i max hmax
    split
    · exact ⟨MaxBound.reset _, RecordsBelow.deleteRecordsFrom e target⟩
    · refine ⟨h, fun r hr => ?_⟩
      obtain ⟨m, hm, hle⟩ := h r hr
      rw [hmax] at hm
      cases hm
      omega
  · rename_i hmax
    refine ⟨h, fun r hr => ?_⟩
    obtain ⟨m, hm, -⟩ := h r hr
    rw [hmax] at hm
    cases hm

namespace Recoverable

variable {lowest height : Nat} {e₀ e : PassEnergyStorage}

theorem refl (hb : e.MaxBound) (hp : ∀ p, e.pendingBlockHeight = some p → height < p)
    (hs : ∀ h, e.syncedBlockHeight = some h → lowest ≤ h) : Recoverable lowest height e e :=
  ⟨fun _ _ _ => rfl, hb, hp, hs⟩

theorem mono (h : Recoverable lowest height e₀ e) {lowest' height' : Nat} (hl : lowest' ≤ lowest)
    (hh : height' ≤ height) : Recoverable lowest' height' e₀ e where
  low := fun i k hk => h.low i k (Nat.le_trans hk hh)
  bound := h.bound
  pending := fun p hp => Nat.lt_of_le_of_lt hh (h.pending p hp)
  synced := fun s hs => Nat.le_trans hl (h.synced s hs)

theorem delete (h : Recoverable lowest height e₀ e) {first : Nat}
    (hf : ∀ i k, first ≤ k → k ≤ height → e₀.getPassEnergyRecord i k = none) :
    Recoverable lowest height e₀ (e.deleteRecordsFrom first) where
  low := by
    intro i k hk
    rw [getPassEnergyRecord_delete]
    split
    · exact h.low i k hk
    · exact (hf i k (by omega) hk).symm
  bound := fun r hr => h.bound r (List.mem_of_mem_filter hr)
  pending := h.pending
  synced := h.synced

theorem setMax (h : Recoverable lowest height e₀ e) {max : Option Nat}
    (hb : ({ e with maxRecordBlockHeight := max } : PassEnergyStorage).MaxBound) :
    Recoverable lowest height e₀ { e with maxRecordBlockHeight := max } :=
  ⟨h.low, hb, h.pending, h.synced⟩

theorem setPending (h : Recoverable lowest height e₀ e) {pending : Option Nat}
    (hp : ∀ p, pending = some p → height < p) :
    Recoverable lowest height e₀ { e with pendingBlockHeight := pending } :=
  ⟨h.low, h.bound, hp, h.synced⟩

theorem setSynced (h : Recoverable lowest height e₀ e) {k : Nat} (hk : lowest ≤ k) :
    Recoverable lowest height e₀ { e with syncedBlockHeight := some k } :=
  ⟨h.low, h.bound, h.pending, fun s hs => by cases hs; exact hk⟩

theorem finalize (h : Recoverable lowest height e₀ e) {k : Nat} (hk : lowest ≤ k) :
    Recoverable lowest height e₀ (e.finalizeBlockSync k) :=
  ⟨h.low, h.bound, fun p hp => (by cases hp), fun s hs => (by cases hs; exact hk)⟩

theorem insert (h : Recoverable lowest height e₀ e) {record : PassEnergyRecord}
    (hr : height < record.blockHeight) :
    Recoverable lowest height e₀ (e.insertPassEnergyRecord record) where
  low := by
    intro i k hk
    rw [getPassEnergyRecord_insert, if_neg (by omega)]
    exact h.low i k hk
  bound := h.bound.insert record
  pending := h.pending
  synced := h.synced

end Recoverable

end PassEnergyStorage

section Programs

variable {I : PassEnergyStorage → Prop}

theorem io_keeps_energy : Keeps (fun s => I s.energyStorage) io :=
  Keeps.of_preserves (io_preserves (fun _ _ => rfl)) I

theorem writeEnergy_keeps {f : PassEnergyStorage → PassEnergyStorage}
    (hf : ∀ e, I e → I (f e)) : Keeps (fun s => I s.energyStorage) (writeEnergy f) :=
  Keeps.bind io_keeps_energy (fun _ _ hs => hf _ hs)

/-- What a read reports is what the store holds, whatever is known of the store. -/
theorem readEnergy_triple {α : Type} (f : PassEnergyStorage → α) :
    Triple (fun s => I s.energyStorage) (readEnergy f)
      (fun a s => I s.energyStorage ∧ a = f s.energyStorage) (fun _ s => I s.energyStorage) :=
  Triple.bind io_keeps_energy (fun _ _ hs => ⟨hs, rfl⟩)

end Programs

namespace PassEnergyManager

open PassEnergyStorage

variable {lowest height : Nat} {e₀ : PassEnergyStorage}

theorem clearRecordsFromHeight_keeps {first : Nat}
    (hf : ∀ i k, first ≤ k → k ≤ height → e₀.getPassEnergyRecord i k = none) :
    Keeps (fun s => Recoverable lowest height e₀ s.energyStorage) (clearRecordsFromHeight first) :=
  Keeps.bind (writeEnergy_keeps (fun _ h => h.delete hf))
    (fun _ => writeEnergy_keeps (fun e h => h.setMax (MaxBound.reset e)))

theorem clear_above {first : Nat} (h : height < first) :
    ∀ i k, first ≤ k → k ≤ height → e₀.getPassEnergyRecord i k = none := by
  intro i k hf hk
  omega

theorem recoverPendingBlock_keeps :
    Keeps (fun s => Recoverable lowest height e₀ s.energyStorage) recoverPendingBlock := by
  refine Triple.bind (readEnergy_triple _) (fun pending => ?_)
  cases pending with
  | none => exact fun s hs => hs.1
  | some p =>
    rintro s ⟨hs, hp⟩
    have hclear : Keeps (fun s => Recoverable lowest height e₀ s.energyStorage) (do
        clearRecordsFromHeight p
        clearPendingBlockHeight) :=
      Keeps.bind (clearRecordsFromHeight_keeps (clear_above (hs.pending p hp.symm)))
        (fun _ => writeEnergy_keeps (fun e h => h.setPending (fun p hp => by cases hp)))
    exact hclear s hs

/-- A scan only stores a maximum that is sound. -/
theorem getMaxRecordBlockHeight_keeps {I : PassEnergyStorage → Prop}
    (hset : ∀ e max, I e → ({ e with maxRecordBlockHeight := max } : PassEnergyStorage).MaxBound →
      I { e with maxRecordBlockHeight := max }) :
    Keeps (fun s => I s.energyStorage) getMaxRecordBlockHeight := by
  refine Triple.bind (readEnergy_triple _) (fun cached => ?_)
  cases cached with
  | some h => exact fun s hs => hs.1
  | none =>
    refine Triple.conseq (Triple.bind (readEnergy_triple _) (fun scanned => ?_))
      (fun s hs => hs.1) (fun _ _ h => h) (fun _ _ h => h)
    cases scanned with
    | none => exact fun s hs => hs.1
    | some max =>
      have hio : Keeps (fun s => I s.energyStorage ∧
          some max = scanMaxRecordBlockHeight s.energyStorage.records) io :=
        io_keeps_energy (I := fun e => I e ∧ some max = scanMaxRecordBlockHeight e.records)
      refine Triple.bind (Q := fun _ (s : IndexerState) => I s.energyStorage) ?_
        (fun _ => Keeps.pure _)
      refine Triple.conseq (Triple.bind hio (fun _ => ?_)) (fun _ h => h) (fun _ _ h => h)
        (fun _ _ h => h.1)
      exact fun s hs => hset _ _ hs.1 (MaxBound.scan hs.2.symm)

theorem truncateFutureRecords_keeps {target : Nat}
    (hf : ∀ i k, target < k → k ≤ height → e₀.getPassEnergyRecord i k = none) :
    Keeps (fun s => Recoverable lowest height e₀ s.energyStorage)
      (truncateFutureRecords target) := by
  refine Keeps.bind (getMaxRecordBlockHeight_keeps (fun _ _ h hb => h.setMax hb)) (fun cached => ?_)
  cases cached with
  | none => exact Keeps.pure _
  | some max =>
    exact Keeps.ite _ (fun _ => clearRecordsFromHeight_keeps (fun i k hk => hf i k hk))
      (fun _ => Keeps.pure _)

theorem reconcileSyncedMarker_keeps {target : Nat} (ht : lowest ≤ target) :
    Keeps (fun s => Recoverable lowest height e₀ s.energyStorage)
      (reconcileSyncedMarker target) := by
  have hset : Keeps (fun s => Recoverable lowest height e₀ s.energyStorage)
      (setSyncedBlockHeight target) := writeEnergy_keeps (fun _ h => h.setSynced ht)
  refine Triple.bind (readEnergy_triple _) (fun synced => ?_)
  refine Triple.conseq (P := fun s => Recoverable lowest height e₀ s.energyStorage) ?_
    (fun s hs => hs.1) (fun _ _ h => h) (fun _ _ h => h)
  cases synced with
  | none => exact hset
  | some h => exact Keeps.ite _ (fun _ => hset) (fun _ => Keeps.ite _ (fun _ => Keeps.throw _)
      (fun _ => Keeps.pure _))

/-- A reconciliation at a height that no record lies between and the low records. -/
theorem reconcileWithPassSyncedHeight_keeps {target : Nat} (ht : lowest ≤ target)
    (hf : ∀ i k, target < k → k ≤ height → e₀.getPassEnergyRecord i k = none) :
    Keeps (fun s => Recoverable lowest height e₀ s.energyStorage)
      (reconcileWithPassSyncedHeight target) :=
  Keeps.bind recoverPendingBlock_keeps (fun _ => Keeps.bind (truncateFutureRecords_keeps hf)
    (fun _ => reconcileSyncedMarker_keeps ht))

section Success

variable {s t : IndexerState} {u : Unit}

theorem clearRecordsFromHeight_ok {first : Nat} (h : clearRecordsFromHeight first s = .ok u t) :
    ∃ fs, t = { s with
      energyStorage := (s.energyStorage.deleteRecordsFrom first).resetMaxRecordBlockHeight
      faults := fs } := by
  obtain ⟨_, _, hdel, h⟩ := bind_eq_ok h
  obtain ⟨fs, rfl⟩ := writeEnergy_ok hdel
  exact writeEnergy_ok h

theorem recoverPendingBlock_ok (h : recoverPendingBlock s = .ok u t) :
    t.energyStorage = s.energyStorage.recovered := by
  obtain ⟨pending, _, hread, h⟩ := bind_eq_ok h
  obtain ⟨rfl, fs, rfl⟩ := readEnergy_ok hread
  unfold recovered
  cases hp : s.energyStorage.pendingBlockHeight with
  | none =>
    rw [hp] at h
    cases h
    rfl
  | some p =>
    rw [hp] at h
    obtain ⟨_, _, hclear, h⟩ := bind_eq_ok h
    obtain ⟨fs₁, rfl⟩ := clearRecordsFromHeight_ok hclear
    obtain ⟨fs₂, rfl⟩ := writeEnergy_ok h
    rfl

/-- A sound cached maximum is only missing when there is nothing to scan. -/
theorem getMaxRecordBlockHeight_ok {max : Option Nat} (hb : s.energyStorage.MaxBound)
    (h : getMaxRecordBlockHeight s = .ok max t) :
    max = s.energyStorage.maxRecordBlockHeight ∧ t.energyStorage = s.energyStorage := by
  obtain ⟨cached, _, hread, h⟩ := bind_eq_ok h
  obtain ⟨rfl, fs, rfl⟩ := readEnergy_ok hread
  cases hm : s.energyStorage.maxRecordBlockHeight with
  | some m =>
    rw [hm] at h
    cases h
    exact ⟨rfl, rfl⟩
  | none =>
    have hempty : s.energyStorage.records = [] := by
      refine List.eq_nil_iff_forall_not_mem.mpr (fun r hr => ?_)
      obtain ⟨m, hm', -⟩ := hb r hr
      rw [hm] at hm'
      cases hm'
    rw [hm] at h
    obtain ⟨scanned, _, hscan, h⟩ := bind_eq_ok h
    obtain ⟨rfl, fs₁, rfl⟩ := readEnergy_ok hscan
    dsimp only [IndexerState.withFaults] at h
    rw [hempty] at h
    cases h
    exact ⟨rfl, rfl⟩

theorem truncateFutureRecords_ok {target : Nat} (hb : s.energyStorage.MaxBound)
    (h : truncateFutureRecords target s = .ok u t) :
    t.energyStorage = s.energyStorage.truncated target := by
  obtain ⟨max, s₁, hmax, h⟩ := bind_eq_ok h
  obtain ⟨rfl, hsame⟩ := getMaxRecordBlockHeight_ok hb hmax
  unfold truncated
  cases hm : s.energyStorage.maxRecordBlockHeight with
  | none =>
    rw [hm] at h
    cases h
    exact hsame
  | some m =>
    rw [hm] at h
    dsimp only at h ⊢
    split at h
    · rename_i hlt
      obtain ⟨fs, rfl⟩ := clearRecordsFromHeight_ok h
      rw [if_pos hlt, ← hsame]
    · rename_i hle
      cases h
      rw [if_neg hle, hsame]

theorem reconcileSyncedMarker_ok {target : Nat} (h : reconcileSyncedMarker target s = .ok u t) :
    t.energyStorage = { s.energyStorage with syncedBlockHeight := some target } := by
  obtain ⟨synced, _, hread, h⟩ := bind_eq_ok h
  obtain ⟨rfl, fs, rfl⟩ := readEnergy_ok hread
  cases hs : s.energyStorage.syncedBlockHeight with
  | none =>
    rw [hs] at h
    obtain ⟨fs₁, rfl⟩ := writeEnergy_ok h
    rfl
  | some k =>
    rw [hs] at h
    dsimp only at h
    split at h
    · obtain ⟨fs₁, rfl⟩ := writeEnergy_ok h
      rfl
    · split at h
      · cases h
      · have hk : k = target := by omega
        cases h
        rw [← hk, ← hs]
        rfl

/-- What a reconciliation that succeeds leaves. -/
theorem reconcileWithPassSyncedHeight_eq {target : Nat} (hb : s.energyStorage.MaxBound)
    (h : reconcileWithPassSyncedHeight target s = .ok u t) :
    t.energyStorage =
      { s.energyStorage.recovered.truncated target with syncedBlockHeight := some target } := by
  obtain ⟨_, s₁, hrecover, h⟩ := bind_eq_ok h
  have h₁ := recoverPendingBlock_ok hrecover
  obtain ⟨_, s₂, htrunc, h⟩ := bind_eq_ok h
  have h₂ := truncateFutureRecords_ok (by rw [h₁]; exact hb.recovered) htrunc
  rw [reconcileSyncedMarker_ok h, h₂, h₁]

/-- A reconciliation that succeeds leaves no record above its height. -/
theorem reconcileWithPassSyncedHeight_ok {target : Nat} (hb : s.energyStorage.MaxBound)
    (h : reconcileWithPassSyncedHeight target s = .ok u t) :
    t.energyStorage.RecordsBelow target ∧ t.energyStorage.pendingBlockHeight = none := by
  rw [reconcileWithPassSyncedHeight_eq hb h]
  refine ⟨(hb.recovered.truncated target).2, ?_⟩
  dsimp only
  rw [truncated_pending, recovered_pending]

end Success

section Total

theorem clearRecordsFromHeight_unfailing (first : Nat) : Unfailing (clearRecordsFromHeight first) :=
  .bind (.writeEnergy _) (fun _ => .writeEnergy _)

theorem recoverPendingBlock_unfailing : Unfailing recoverPendingBlock := by
  refine .bind (.readEnergy _) (fun pending => ?_)
  cases pending with
  | none => exact .pure _
  | some p => exact .bind (clearRecordsFromHeight_unfailing p) (fun _ => .writeEnergy _)

theorem getMaxRecordBlockHeight_unfailing : Unfailing getMaxRecordBlockHeight := by
  refine .bind (.readEnergy _) (fun cached => ?_)
  cases cached with
  | some m => exact .pure _
  | none =>
    refine .bind (.readEnergy _) (fun scanned => ?_)
    cases scanned with
    | none => exact .pure _
    | some m => exact .bind (.writeEnergy _) (fun _ => .pure _)

theorem truncateFutureRecords_unfailing (target : Nat) :
    Unfailing (truncateFutureRecords target) := by
  refine .bind getMaxRecordBlockHeight_unfailing (fun cached => ?_)
  cases cached with
  | none => exact .pure _
  | some m => exact .ite _ (clearRecordsFromHeight_unfailing _) (.pure _)

theorem reconcileSyncedMarker_total {target : Nat} {s : IndexerState} (hs : s.faults = [])
    (hk : ∀ k, s.energyStorage.syncedBlockHeight = some k → target ≤ k) :
    ∃ t, reconcileSyncedMarker target s = .ok () t ∧ t.faults = [] := by
  obtain ⟨synced, s₁, hread, hs₁⟩ := Unfailing.readEnergy (·.syncedBlockHeight) s hs
  obtain ⟨rfl, fs, rfl⟩ := readEnergy_ok hread
  unfold reconcileSyncedMarker
  rw [bind_ok hread]
  have hset : ∃ t, setSyncedBlockHeight target (s.withFaults fs) = .ok () t ∧ t.faults = [] := by
    obtain ⟨u, t, hw, ht⟩ := Unfailing.writeEnergy
      (fun e => { e with syncedBlockHeight := some target }) (s.withFaults fs) hs₁
    exact ⟨t, hw, ht⟩
  cases hm : s.energyStorage.syncedBlockHeight with
  | none => exact hset
  | some k =>
    have hle : ¬k < target := Nat.not_lt.mpr (hk k hm)
    dsimp only
    simp only [if_neg hle]
    split
    · exact hset
    · exact ⟨_, rfl, hs₁⟩

/-- Without faults a reconciliation only fails on a synced marker that is behind. -/
theorem reconcileWithPassSyncedHeight_total {target : Nat} {s : IndexerState} (hs : s.faults = [])
    (hb : s.energyStorage.MaxBound)
    (hk : ∀ k, s.energyStorage.syncedBlockHeight = some k → target ≤ k) :
    ∃ t, reconcileWithPassSyncedHeight target s = .ok () t ∧ t.faults = [] := by
  obtain ⟨_, s₁, h₁, hs₁⟩ := recoverPendingBlock_unfailing s hs
  have he₁ := recoverPendingBlock_ok h₁
  obtain ⟨_, s₂, h₂, hs₂⟩ := truncateFutureRecords_unfailing target s₁ hs₁
  have he₂ := truncateFutureRecords_ok (by rw [he₁]; exact hb.recovered) h₂
  unfold reconcileWithPassSyncedHeight
  rw [bind_ok h₁, bind_ok h₂]
  refine reconcileSyncedMarker_total hs₂ (fun k hsynced => hk k ?_)
  rw [he₂, he₁, truncated_synced, recovered_synced] at hsynced
  exact hsynced

end Total

theorem abortPendingBlockSync_keeps {first : Nat} (hf : height < first) :
    Keeps (fun s => Recoverable lowest height e₀ s.energyStorage)
      (abortPendingBlockSync first) := by
  refine Triple.bind (readEnergy_triple _) (fun pending => ?_)
  refine Triple.conseq (P := fun s => Recoverable lowest height e₀ s.energyStorage) ?_
    (fun s hs => hs.1) (fun _ _ h => h) (fun _ _ h => h)
  exact Keeps.ite _ (fun _ => Keeps.throw _) (fun _ =>
    Keeps.bind (clearRecordsFromHeight_keeps (clear_above hf))
      (fun _ => writeEnergy_keeps (fun e h => h.setPending (fun p hp => by cases hp))))

end PassEnergyManager

end Usdb
