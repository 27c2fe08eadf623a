import Usdb.Energy.Reconciliation

namespace Usdb

open Framework PassEnergyStorage PassEnergyManager

namespace PassEnergyStorage

/-- What a reconciliation that goes through leaves. -/
def reconciled (target : Nat) (e : PassEnergyStorage) : PassEnergyStorage :=
  { e.recovered.truncated target with syncedBlockHeight := some target }

/-- A store that a reconciliation takes to the same end as another one. -/
structure OnTheWay (target : Nat) (e₀ e : PassEnergyStorage) : Prop where
  bound : e.MaxBound
  ends : e.reconciled target = e₀.reconciled target
  synced : ∀ h, e.syncedBlockHeight = some h → target ≤ h

variable {e e₀ : PassEnergyStorage} {target pending : Nat}

theorem deleteRecordsFrom_twice (first : Nat) :
    (e.deleteRecordsFrom first).deleteRecordsFrom first = e.deleteRecordsFrom first := by
  unfold deleteRecordsFrom
  simp

theorem deleteRecordsFrom_lower {first last : Nat} (h : first ≤ last) :
    (e.deleteRecordsFrom last).deleteRecordsFrom first = e.deleteRecordsFrom first := by
  unfold deleteRecordsFrom
  dsimp only
  rw [List.filter_filter]
  congr 1
  apply List.filter_congr
  intro r _
  simp only [← Bool.decide_and, decide_eq_decide]
  omega

theorem recovered_deleteRecordsFrom (hp : e.pendingBlockHeight = some pending) :
    (e.deleteRecordsFrom pending).recovered = e.recovered := by
  unfold recovered
  rw [show (e.deleteRecordsFrom pending).pendingBlockHeight = some pending from hp, hp]
  dsimp only
  rw [deleteRecordsFrom_twice]

theorem recovered_cleared (hp : e.pendingBlockHeight = some pending) :
    ((e.deleteRecordsFrom pending).resetMaxRecordBlockHeight).recovered = e.recovered := by
  rw [← recovered_deleteRecordsFrom hp]
  unfold recovered
  rw [show (e.deleteRecordsFrom pending).resetMaxRecordBlockHeight.pendingBlockHeight =
      some pending from hp,
    show (e.deleteRecordsFrom pending).pendingBlockHeight = some pending from hp]
  rfl

theorem truncated_of_max {max : Nat} (hmax : e.maxRecordBlockHeight = some max)
    (hlt : target < max) :
    e.truncated target = (e.deleteRecordsFrom (target + 1)).resetMaxRecordBlockHeight := by
  unfold truncated
  rw [hmax]
  exact if_pos hlt

theorem truncated_of_le (h : ∀ max, e.maxRecordBlockHeight = some max → max ≤ target) :
    e.truncated target = e := by
  unfold truncated
  cases hmax : e.maxRecordBlockHeight with
  | none => rfl
  | some max => exact if_neg (Nat.not_lt.mpr (h max hmax))

/-- Where the cached maximum is that of the records, a truncation only deletes. -/
theorem truncated_of_reset (h : e.resetMaxRecordBlockHeight = e) (target : Nat) :
    e.truncated target = (e.deleteRecordsFrom (target + 1)).resetMaxRecordBlockHeight := by
  have hmax : scanMaxRecordBlockHeight e.records = e.maxRecordBlockHeight :=
    congrArg PassEnergyStorage.maxRecordBlockHeight h
  by_cases hle : ∀ max, e.maxRecordBlockHeight = some max → max ≤ target
  · have hdelete : e.deleteRecordsFrom (target + 1) = e := by
      have hall : e.records.filter (fun r => r.blockHeight < target + 1) = e.records := by
        rw [List.filter_eq_self]
        intro r hr
        obtain ⟨m, hm, hrm⟩ := maxBy_le (·.blockHeight) e.records r hr
        have hm' : e.maxRecordBlockHeight = some m.blockHeight := by
          rw [← hmax, scanMaxRecordBlockHeight, hm]
          rfl
        have hmle := hle _ hm'
        rw [decide_eq_true_iff]
        omega
      unfold deleteRecordsFrom
      rw [hall]
    rw [truncated_of_le hle, hdelete, h]
  · push Not at hle
    obtain ⟨max, hmax', hlt⟩ := hle
    exact truncated_of_max hmax' hlt

theorem MaxBound.deleteRecordsFrom (h : e.MaxBound) (first : Nat) :
    (e.deleteRecordsFrom first).MaxBound :=
  fun r hr => h r (List.mem_of_mem_filter hr)

theorem MaxBound.reconciled (h : e.MaxBound) (target : Nat) : (e.reconciled target).MaxBound :=
  (h.recovered.truncated target).1

/-- A truncation makes one at a greater height before it unnecessary. -/
theorem truncated_lower {last : Nat} (h : target ≤ last) :
    (e.truncated last).truncated target = e.truncated target := by
  by_cases hle : ∀ max, e.maxRecordBlockHeight = some max → max ≤ last
  · rw [truncated_of_le hle]
  · push Not at hle
    obtain ⟨max, hmax, hlt⟩ := hle
    have hlower := deleteRecordsFrom_lower (e := e) (show target + 1 ≤ last + 1 by omega)
    rw [truncated_of_max hmax hlt, truncated_of_reset rfl, truncated_of_max hmax (by omega),
      ← hlower]
    rfl

theorem recovered_setSynced (e : PassEnergyStorage) (synced : Option Nat) :
    recovered { e with syncedBlockHeight := synced } =
      { e.recovered with syncedBlockHeight := synced } := by
  obtain ⟨records, before, pending, max⟩ := e
  unfold recovered
  cases pending with
  | none => rfl
  | some p => rfl

theorem reconciled_setSynced (target : Nat) (e : PassEnergyStorage) (synced : Option Nat) :
    reconciled target { e with syncedBlockHeight := synced } = e.reconciled target := by
  unfold reconciled
  rw [recovered_setSynced, truncated_setSynced]

/-- So does a reconciliation. -/
theorem reconciled_lower {last : Nat} (h : target ≤ last) :
    (e.reconciled last).reconciled target = e.reconciled target := by
  have hnone : (e.recovered.truncated last).pendingBlockHeight = none := by
    rw [truncated_pending, recovered_pending]
  show reconciled target { e.recovered.truncated last with syncedBlockHeight := some last } = _
  rw [reconciled_setSynced]
  unfold reconciled
  rw [recovered_of_none hnone, truncated_lower h]

namespace OnTheWay

theorem refl (hb : e.MaxBound) (hs : ∀ h, e.syncedBlockHeight = some h → target ≤ h) :
    OnTheWay target e e :=
  ⟨hb, rfl, hs⟩

theorem lower {last : Nat} (h : OnTheWay last e₀ e) (hle : target ≤ last) :
    OnTheWay target e₀ e := by
  refine ⟨h.bound, ?_, fun k hk => hle.trans (h.synced k hk)⟩
  rw [← reconciled_lower hle, h.ends, reconciled_lower hle]

theorem reconciled {last : Nat} (h : OnTheWay target e₀ e) (hle : target ≤ last) :
    OnTheWay target e₀ (e.reconciled last) := by
  refine ⟨h.bound.reconciled last, (reconciled_lower hle).trans h.ends, ?_⟩
  intro k hk
  cases hk
  exact hle

end OnTheWay

end PassEnergyStorage

section Programs

variable {e e₀ : PassEnergyStorage} {target : Nat}

/-- A write either has happened or has changed nothing. -/
theorem writeEnergy_triple (f : PassEnergyStorage → PassEnergyStorage) :
    Triple (fun s => s.energyStorage = e) (writeEnergy f) (fun _ s => s.energyStorage = f e)
      (fun _ s => s.energyStorage = e) :=
  Triple.bind (Triple.of_preserves (io_preserves (fun _ _ => rfl)) e) (fun _ _ hs => congrArg f hs)

/-- What a read reports of a store that is known. -/
theorem readEnergy_bind_triple {α β : Type} {f : PassEnergyStorage → α} {x : α → IndexerM β}
    {Q : β → IndexerState → Prop} {E : IndexerError → IndexerState → Prop}
    (hx : Triple (fun s => s.energyStorage = e) (x (f e)) Q E)
    (he : ∀ error s, s.energyStorage = e → E error s) :
    Triple (fun s => s.energyStorage = e) (readEnergy f >>= x) Q E := by
  refine Triple.bind (Triple.conseq (readEnergy_triple (I := fun e' => e' = e) f)
    (fun _ hs => hs) (fun _ _ hs => hs) he) (fun a => ?_)
  rintro s ⟨hs, rfl⟩
  rw [hs]
  exact hx s hs

namespace PassEnergyManager

/-- Two deletions of the same records are one, so a reconciliation that was cut off goes on
to the same end. -/
theorem recoverPendingBlock_points (hb : e.MaxBound) :
    Triple (fun s => s.energyStorage = e) recoverPendingBlock
      (fun _ s => s.energyStorage = e.recovered)
      (fun _ s => s.energyStorage.MaxBound ∧ s.energyStorage.recovered = e.recovered ∧
        s.energyStorage.syncedBlockHeight = e.syncedBlockHeight) := by
  have hstart : ∀ (error : IndexerError) (s : IndexerState), s.energyStorage = e →
      s.energyStorage.MaxBound ∧ s.energyStorage.recovered = e.recovered ∧
        s.energyStorage.syncedBlockHeight = e.syncedBlockHeight := by
    rintro error s rfl
    exact ⟨hb, rfl, rfl⟩
  refine readEnergy_bind_triple ?_ hstart
  cases hp : e.pendingBlockHeight with
  | none =>
    intro s hs
    show s.energyStorage = _
    rw [recovered_of_none hp]
    exact hs
  | some pending =>
    have hdelete : Triple (fun s => s.energyStorage = e)
        (writeEnergy (·.deleteRecordsFrom pending)) _ _ :=
      (writeEnergy_triple _).conseq (fun _ hs => hs) (fun _ _ hs => hs) hstart
    have hreset : Triple (fun s => s.energyStorage = e.deleteRecordsFrom pending)
        (writeEnergy (·.resetMaxRecordBlockHeight))
        (fun _ s => s.energyStorage =
          (e.deleteRecordsFrom pending).resetMaxRecordBlockHeight) (fun _ s =>
          s.energyStorage.MaxBound ∧ s.energyStorage.recovered = e.recovered ∧
            s.energyStorage.syncedBlockHeight = e.syncedBlockHeight) := by
      refine (writeEnergy_triple _).conseq (fun _ hs => hs) (fun _ _ hs => hs) ?_
      intro _ s hs
      rw [hs]
      exact ⟨hb.deleteRecordsFrom _, recovered_deleteRecordsFrom hp, rfl⟩
    have hclear : Triple
        (fun s => s.energyStorage = (e.deleteRecordsFrom pending).resetMaxRecordBlockHeight)
        clearPendingBlockHeight (fun _ s => s.energyStorage = e.recovered) (fun _ s =>
          s.energyStorage.MaxBound ∧ s.energyStorage.recovered = e.recovered ∧
            s.energyStorage.syncedBlockHeight = e.syncedBlockHeight) := by
      refine (writeEnergy_triple _).conseq (fun _ hs => hs) (fun _ s hs => ?_) (fun _ s hs => ?_)
      · rw [hs]
        unfold recovered
        rw [hp]
      · rw [hs]
        exact ⟨MaxBound.reset _, recovered_cleared hp, rfl⟩
    exact Triple.bind (Triple.bind hdelete (fun _ => hreset)) (fun _ => hclear)

theorem getMaxRecordBlockHeight_points (hb : e.MaxBound) :
    Triple (fun s => s.energyStorage = e) getMaxRecordBlockHeight
      (fun max s => s.energyStorage = e ∧ max = e.maxRecordBlockHeight)
      (fun _ s => s.energyStorage = e) := by
  refine readEnergy_bind_triple ?_ (fun _ _ hs => hs)
  cases hmax : e.maxRecordBlockHeight with
  | some max => exact fun s hs => ⟨hs, rfl⟩
  | none =>
    have hempty : e.records = [] := by
      apply List.eq_nil_iff_forall_not_mem.mpr
      intro r hr
      obtain ⟨m, hm, -⟩ := hb r hr
      rw [hmax] at hm
      cases hm
    refine readEnergy_bind_triple ?_ (fun _ _ hs => hs)
    rw [hempty]
    exact fun s hs => ⟨hs, rfl⟩

theorem truncateFutureRecords_points (hb : e.MaxBound) :
    Triple (fun s => s.energyStorage = e) (truncateFutureRecords target)
      (fun _ s => s.energyStorage = e.truncated target)
      (fun _ s => s.energyStorage.MaxBound ∧
        s.energyStorage.truncated target = e.truncated target ∧
        s.energyStorage.pendingBlockHeight = e.pendingBlockHeight ∧
        s.energyStorage.syncedBlockHeight = e.syncedBlockHeight) := by
  have hstart : ∀ (error : IndexerError) (s : IndexerState), s.energyStorage = e →
      s.energyStorage.MaxBound ∧ s.energyStorage.truncated target = e.truncated target ∧
        s.energyStorage.pendingBlockHeight = e.pendingBlockHeight ∧
        s.energyStorage.syncedBlockHeight = e.syncedBlockHeight := by
    rintro error s rfl
    exact ⟨hb, rfl, rfl, rfl⟩
  refine Triple.bind ((getMaxRecordBlockHeight_points hb).conseq (fun _ hs => hs)
    (fun _ _ hs => hs) hstart) (fun max => ?_)
  rintro s ⟨hs, rfl⟩
  cases hmax : e.maxRecordBlockHeight with
  | none =>
    show s.energyStorage = _
    rw [hs, truncated_of_le (by simp [hmax])]
  | some max =>
    dsimp only
    by_cases hlt : target < max
    · rw [if_pos hlt]
      have hdelete : Triple (fun s => s.energyStorage = e)
          (writeEnergy (·.deleteRecordsFrom (target + 1))) _ _ :=
        (writeEnergy_triple _).conseq (fun _ hs => hs) (fun _ _ hs => hs) hstart
      refine Triple.bind hdelete (fun _ => ?_) s hs
      refine (writeEnergy_triple _).conseq (fun _ hs => hs) (fun _ r hr => ?_) (fun _ r hr => ?_)
      · rw [hr, truncated_of_max hmax hlt]
      · rw [hr]
        refine ⟨hb.deleteRecordsFrom _, ?_, rfl, rfl⟩
        rw [truncated_of_max hmax hlt, truncated_of_max (e := e.deleteRecordsFrom (target + 1)) hmax
          hlt, deleteRecordsFrom_twice]
    · rw [if_neg hlt]
      show s.energyStorage = _
      rw [hs, truncated_of_le]
      intro m hm
      rw [hmax] at hm
      cases hm
      omega

theorem reconcileSyncedMarker_points :
    Triple (fun s => s.energyStorage = e) (reconcileSyncedMarker target)
      (fun _ s => s.energyStorage = { e with syncedBlockHeight := some target })
      (fun _ s => s.energyStorage = e) := by
  have hset : Triple (fun s => s.energyStorage = e) (setSyncedBlockHeight target)
      (fun _ s => s.energyStorage = { e with syncedBlockHeight := some target })
      (fun _ s => s.energyStorage = e) := writeEnergy_triple _
  refine readEnergy_bind_triple ?_ (fun _ _ hs => hs)
  cases hsynced : e.syncedBlockHeight with
  | none => exact hset
  | some k =>
    refine Triple.ite _ (fun _ => hset) (fun hle => Triple.ite _ (fun _ _ hs => hs) (fun hge => ?_))
    intro s hs
    have hk : k = target := by omega
    show s.energyStorage = _
    rw [hs, ← hk, ← hsynced]

/-- Wherever a reconciliation is cut off, the next one ends where it would have. -/
theorem reconcileWithPassSyncedHeight_points (hb : e.MaxBound) :
    Triple (fun s => s.energyStorage = e) (reconcileWithPassSyncedHeight target)
      (fun _ s => s.energyStorage = e.reconciled target)
      (fun _ s => s.energyStorage.MaxBound ∧
        s.energyStorage.reconciled target = e.reconciled target ∧
        s.energyStorage.syncedBlockHeight = e.syncedBlockHeight) := by
  have hends : ∀ {e' : PassEnergyStorage}, e'.recovered = e.recovered →
      e'.reconciled target = e.reconciled target := by
    intro e' hsame
    unfold reconciled
    rw [hsame]
  refine Triple.bind ((recoverPendingBlock_points hb).conseq (fun _ hs => hs) (fun _ _ hs => hs)
    (fun _ s hs => ⟨hs.1, hends hs.2.1, hs.2.2⟩)) (fun _ => ?_)
  refine Triple.bind (Triple.conseq (truncateFutureRecords_points hb.recovered)
    (fun _ hs => hs) (fun _ _ hs => hs) (fun _ s hs => ?_)) (fun _ => ?_)
  · obtain ⟨hbound, htruncated, hpending, hsynced⟩ := hs
    rw [recovered_pending] at hpending
    rw [recovered_synced] at hsynced
    refine ⟨hbound, ?_, hsynced⟩
    unfold reconciled
    rw [recovered_of_none hpending, htruncated]
  · refine reconcileSyncedMarker_points.conseq (fun _ hs => hs) (fun _ _ hs => hs)
      (fun _ s hs => ?_)
    have hpending : (e.recovered.truncated target).pendingBlockHeight = none := by
      rw [truncated_pending, recovered_pending]
    rw [hs]
    refine ⟨(hb.recovered.truncated target).1, ?_, ?_⟩
    · unfold reconciled
      rw [recovered_of_none hpending, truncated_truncated]
    · rw [truncated_synced, recovered_synced]

/-- A reconciliation goes on to the end of every lower one, however it is cut off. -/
theorem reconcileWithPassSyncedHeight_onTheWay {last : Nat} (hle : target ≤ last) :
    Keeps (fun s => OnTheWay target e₀ s.energyStorage) (reconcileWithPassSyncedHeight last) := by
  refine Triple.of_forall (fun s₀ h => ?_)
  refine Triple.conseq (reconcileWithPassSyncedHeight_points h.bound)
    (fun s hs => congrArg IndexerState.energyStorage hs) (fun _ s hs => ?_) (fun _ s hs => ?_)
  · rw [hs]
    exact h.reconciled hle
  · obtain ⟨hbound, hends, hsynced⟩ := hs
    refine ⟨hbound, ?_, ?_⟩
    · rw [← reconciled_lower hle, hends, reconciled_lower hle]
      exact h.ends
    · rw [hsynced]
      exact h.synced

end PassEnergyManager

end Programs

end Usdb
