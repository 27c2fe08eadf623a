import Usdb.Energy.Recovery
import Usdb.Energy.Recurrence
import Usdb.Index.PassReach

namespace Usdb

open Framework MinerPassStorage PassEnergyStorage PassEnergyManager

/-- The rows of a database are still there, with their mints, and their states have only
moved on. -/
structure RowsKept (ps₀ ps : MinerPassStorage) : Prop where
  synced : ps.syncedBtcBlockHeight = ps₀.syncedBtcBlockHeight
  rows : ∀ i p, ps₀.getPassByInscriptionId i = some p → ∃ q, ps.getPassByInscriptionId i = some q ∧
    p.SameMint q ∧ p.state.MayBecome (fun _ => True) q.state

theorem MinerPassState.MayBecome.active {a : MinerPassState}
    (h : a.MayBecome (fun _ => True) .Active) : a = .Active := by
  rcases h with rfl | ⟨rfl, -⟩ | ⟨-, hb⟩ | ⟨hb, -⟩
  · rfl
  · rfl
  · rcases hb with hb | hb <;> cases hb
  · cases hb

/-- What a block attempt at the next height may have done to the energy store up to
now: below that height it has only added entries of passes that were Active. -/
structure LowKept (scheme : Scheme) (lowest height : Nat) (s₀ : IndexerState)
    (e : PassEnergyStorage) : Prop where
  others : ∀ i, (∀ p, s₀.passStorage.getPassByInscriptionId i = some p → p.state ≠ .Active) →
    ∀ k, k ≤ height → e.getPassEnergyRecord i k = s₀.energyStorage.getPassEnergyRecord i k
  entries : ∀ i p, s₀.passStorage.getPassByInscriptionId i = some p → p.state = .Active →
    ∀ k, k ≤ height → ∀ r, e.getPassEnergyRecord i k = some r →
      p.mintBlockHeight ≤ k ∧ r.state = .Active ∧ (scheme.of s₀.log p).entry r
  still : ∀ i k, k ≤ height → s₀.energyStorage.getPassEnergyRecord i k ≠ none →
    e.getPassEnergyRecord i k ≠ none
  bound : e.MaxBound
  pending : ∀ p, e.pendingBlockHeight = some p → height < p
  synced : ∀ h, e.syncedBlockHeight = some h → lowest ≤ h

/-- Until the attempt is undone, there is nothing above its height either. -/
structure EnergyKept (scheme : Scheme) (lowest height : Nat) (s₀ : IndexerState)
    (e : PassEnergyStorage) : Prop where
  low : LowKept scheme lowest height s₀ e
  below : e.RecordsBelow (height + 1)

/-- The state at any point of a block attempt that started in `s₀`. -/
structure Attempt (scheme : Scheme) (lowest height : Nat) (s₀ s : IndexerState) : Prop where
  rows : RowsKept s₀.passStorage s.passStorage
  log : ∀ i p, s₀.passStorage.getPassByInscriptionId i = some p →
    inheritedEnergy s.log i = inheritedEnergy s₀.log i
  energy : EnergyKept scheme lowest height s₀ s.energyStorage

namespace RowsKept

variable {ps₀ ps ps' : MinerPassStorage}

theorem refl (ps : MinerPassStorage) : RowsKept ps ps :=
  ⟨rfl, fun _ p hp => ⟨p, hp, rfl, .inl rfl⟩⟩

theorem congr (h : RowsKept ps₀ ps) (hs : ps'.syncedBtcBlockHeight = ps.syncedBtcBlockHeight)
    (hr : ps'.minerPasses = ps.minerPasses) : RowsKept ps₀ ps' := by
  refine ⟨hs.trans h.synced, fun i p hp => ?_⟩
  obtain ⟨q, hq, hstate⟩ := h.rows i p hp
  refine ⟨q, ?_, hstate⟩
  rw [getPassByInscriptionId, hr]
  exact hq

theorem updateRow {id : InscriptionId} {guard : MinerPassInfo → Bool}
    {f : MinerPassInfo → MinerPassInfo} {missing : IndexerError}
    (hf : ∀ p : MinerPassInfo, p.SameMint (f p))
    (hstate : ∀ p, guard p = true → p.state.MayBecome (fun _ => True) (f p).state)
    (h : RowsKept ps₀ ps) (hu : ps.updateRow id guard f missing = .ok ps') : RowsKept ps₀ ps' := by
  obtain ⟨p, hp, hguard, -, rfl⟩ := updateRow_ok (fun p => (hf p).inscriptionId) hu
  refine ⟨h.synced, fun i p₀ hp₀ => ?_⟩
  obtain ⟨q, hq, hsame, hnext⟩ := h.rows i p₀ hp₀
  rw [getPassByInscriptionId_setRow hp (hf p).inscriptionId]
  split
  · rename_i hi
    rw [hi, hp] at hq
    cases hq
    exact ⟨f p, rfl, hsame.trans (hf p), hnext.trans (hstate p hguard)⟩
  · exact ⟨q, hq, hsame, hnext⟩

theorem insertPassRecord {info : MinerPassInfo} (h : RowsKept ps₀ ps)
    (hi : ps.insertPassRecord info = .ok ps') :
    RowsKept ps₀ ps' ∧ ps₀.getPassByInscriptionId info.inscriptionId = none := by
  obtain ⟨hc, rfl⟩ := writeRows_ok hi
  have hfresh := getPassByInscriptionId_fresh hc
  constructor
  · refine ⟨h.synced, fun i p hp => ?_⟩
    obtain ⟨q, hq, hstate⟩ := h.rows i p hp
    exact ⟨q, by rw [getPassByInscriptionId_insert, hq]; rfl, hstate⟩
  · cases hp : ps₀.getPassByInscriptionId info.inscriptionId with
    | none => rfl
    | some p =>
      obtain ⟨q, hq, -⟩ := h.rows _ p hp
      rw [hfresh] at hq
      cases hq

end RowsKept

namespace LowKept

variable {scheme : Scheme} {lowest height : Nat} {s₀ : IndexerState} {e e' : PassEnergyStorage}

/-- A recovery that only drops what lies above keeps it all. -/
theorem recovered (h : LowKept scheme lowest height s₀ e)
    (hr : Recoverable lowest height e e') : LowKept scheme lowest height s₀ e' where
  others := fun i hi k hk => (hr.low i k hk).trans (h.others i hi k hk)
  entries := fun i p hp ha k hk => by
    rw [hr.low i k hk]
    exact h.entries i p hp ha k hk
  still := fun i k hk => by
    rw [hr.low i k hk]
    exact h.still i k hk
  bound := hr.bound
  pending := hr.pending
  synced := hr.synced

theorem recoverable (h : LowKept scheme lowest height s₀ e) : Recoverable lowest height e e :=
  .refl h.bound h.pending h.synced

/-- An entry of a pass that was Active may be added anywhere since its mint. -/
theorem insertEntry (h : LowKept scheme lowest height s₀ e) {record : PassEnergyRecord}
    {p : MinerPassInfo}
    (hp : s₀.passStorage.getPassByInscriptionId record.inscriptionId = some p)
    (ha : p.state = .Active) (hm : p.mintBlockHeight ≤ record.blockHeight)
    (hs : record.state = .Active) (hentry : (scheme.of s₀.log p).entry record) :
    LowKept scheme lowest height s₀ (e.insertPassEnergyRecord record) := by
  refine ⟨fun i hi k hk => ?_, fun i q hq haq k hk r hr => ?_, fun i k hk hn => ?_,
    h.bound.insert record, h.pending, h.synced⟩
  · rw [getPassEnergyRecord_insert, if_neg]
    · exact h.others i hi k hk
    · rintro ⟨rfl, -⟩
      exact hi p hp ha
  · rw [getPassEnergyRecord_insert] at hr
    split at hr
    · rename_i hkey
      cases hr
      rw [hkey.1, hp] at hq
      cases hq
      rw [hkey.2]
      exact ⟨hm, hs, hentry⟩
    · exact h.entries i q hq haq k hk r hr
  · rw [getPassEnergyRecord_insert]
    split
    · simp
    · exact h.still i k hk hn

end LowKept

namespace EnergyKept

variable {scheme : Scheme} {lowest height : Nat} {s₀ : IndexerState} {e : PassEnergyStorage}

theorem insertHigh (h : EnergyKept scheme lowest height s₀ e) {record : PassEnergyRecord}
    (hr : record.blockHeight = height + 1) :
    EnergyKept scheme lowest height s₀ (e.insertPassEnergyRecord record) :=
  ⟨h.low.recovered (h.low.recoverable.insert (by omega)), h.below.insert (Nat.le_of_eq hr)⟩

theorem setPending (h : EnergyKept scheme lowest height s₀ e) {pending : Option Nat}
    (hp : ∀ p, pending = some p → height < p) :
    EnergyKept scheme lowest height s₀ { e with pendingBlockHeight := pending } :=
  ⟨h.low.recovered (h.low.recoverable.setPending hp), h.below⟩

theorem finalize (h : EnergyKept scheme lowest height s₀ e) {k : Nat} (hk : lowest ≤ k) :
    EnergyKept scheme lowest height s₀ (e.finalizeBlockSync k) :=
  ⟨h.low.recovered (h.low.recoverable.finalize hk), h.below⟩

end EnergyKept

namespace PassEnergyManager

theorem mem_rowRecords {id : InscriptionId} {last r : PassEnergyRecord}
    {rows : List AddressBalance} (h : r ∈ rowRecords id last rows) :
    r.inscriptionId = id ∧ r.state = .Active ∧ ∃ row ∈ rows, r.blockHeight = row.blockHeight := by
  induction rows generalizing last with
  | nil => cases h
  | cons row rows ih =>
    rcases List.mem_cons.mp h with rfl | h
    · exact ⟨rfl, rfl, row, by simp, rfl⟩
    · obtain ⟨hid, hstate, row', hrow, hh⟩ := ih h
      exact ⟨hid, hstate, row', by simp [hrow], hh⟩

/-- Whatever survives each of its records survives the loop of `update_pass_energy`. -/
theorem applyBalanceRows_keeps {I : IndexerState → Prop} {id : InscriptionId}
    {last : PassEnergyRecord} {rows : List AddressBalance}
    (h : ∀ r ∈ rowRecords id last rows, Keeps I (writeEnergy (·.insertPassEnergyRecord r))) :
    Keeps I (applyBalanceRows id last rows) := by
  induction rows generalizing last with
  | nil => exact Keeps.pure _
  | cons row rows ih =>
    exact Keeps.bind (h _ (by simp [rowRecords]))
      (fun _ => ih (fun r hr => h r (by simp [rowRecords, hr])))

end PassEnergyManager

section Primitives

variable {I : IndexerState → Prop}

theorem assertThat_keeps (p : Prop) [Decidable p] : Keeps I (assertThat p) :=
  Keeps.ite p (fun _ => Keeps.pure _) (fun _ => Keeps.throw _)

theorem assertThat_triple (p : Prop) [Decidable p] :
    Triple I (assertThat p) (fun _ s => I s ∧ p) (fun _ => I) :=
  Triple.ite p (fun hp _ hs => ⟨hs, hp⟩) (fun _ _ hs => hs)

theorem liftExcept_keeps {α : Type} (x : Except IndexerError α) : Keeps I (liftExcept x) := by
  cases x with
  | ok a => exact Keeps.pure _
  | error e => exact Keeps.throw _

end Primitives

namespace Attempt

variable {scheme : Scheme} {lowest height : Nat} {s₀ : IndexerState} {α : Type}

/-- A pass that is Active at some point of the attempt was so at its start, if it was
there. -/
def Grounded (s₀ : IndexerState) (id : InscriptionId) : Prop :=
  ∀ p, s₀.passStorage.getPassByInscriptionId id = some p → p.state = .Active

theorem grounded {s : IndexerState} (h : Attempt scheme lowest height s₀ s) {id : InscriptionId}
    {q : MinerPassInfo} (hq : s.passStorage.getPassByInscriptionId id = some q)
    (ha : q.state = .Active) : Grounded s₀ id := by
  intro p hp
  obtain ⟨q', hq', -, hstate⟩ := h.rows.rows id p hp
  rw [hq] at hq'
  cases hq'
  rw [ha] at hstate
  exact hstate.active

theorem io : Keeps (Attempt scheme lowest height s₀) io :=
  Keeps.of_run (fun s hs => by
    cases h : Usdb.io s with
    | ok u t =>
      obtain ⟨fs, rfl⟩ := io_ok h
      exact ⟨hs.rows, hs.log, hs.energy⟩
    | error e t =>
      obtain ⟨fs, rfl⟩ := io_error h
      exact ⟨hs.rows, hs.log, hs.energy⟩)

theorem readPass (f : MinerPassStorage → α) :
    Triple (Attempt scheme lowest height s₀) (readPass f)
      (fun a s => Attempt scheme lowest height s₀ s ∧ a = f s.passStorage)
      (fun _ => Attempt scheme lowest height s₀) :=
  Triple.bind io (fun _ _ hs => ⟨hs, rfl⟩)

theorem readEnergy (f : PassEnergyStorage → α) :
    Triple (Attempt scheme lowest height s₀) (readEnergy f)
      (fun a s => Attempt scheme lowest height s₀ s ∧ a = f s.energyStorage)
      (fun _ => Attempt scheme lowest height s₀) :=
  Triple.bind io (fun _ _ hs => ⟨hs, rfl⟩)

theorem readPass_keeps (f : MinerPassStorage → α) :
    Keeps (Attempt scheme lowest height s₀) (Usdb.readPass f) :=
  Triple.conseq (readPass f) (fun _ h => h) (fun _ _ h => h.1) (fun _ _ h => h)

theorem readEnergy_keeps (f : PassEnergyStorage → α) :
    Keeps (Attempt scheme lowest height s₀) (Usdb.readEnergy f) :=
  Triple.conseq (readEnergy f) (fun _ h => h) (fun _ _ h => h.1) (fun _ _ h => h)

theorem checkPass (f : MinerPassStorage → Except IndexerError Unit) :
    Keeps (Attempt scheme lowest height s₀) (checkPass f) :=
  Keeps.bind io (fun _ => Keeps.bind Keeps.get (fun _ => liftExcept_keeps _))

theorem writePass {f : MinerPassStorage → Except IndexerError MinerPassStorage}
    (hf : ∀ ps ps', f ps = .ok ps' → RowsKept s₀.passStorage ps → RowsKept s₀.passStorage ps') :
    Keeps (Attempt scheme lowest height s₀) (writePass f) :=
  Keeps.of_run (fun s hs => by
    cases h : Usdb.writePass f s with
    | ok u t =>
      obtain ⟨ps, fs, hps, rfl⟩ := writePass_ok h
      exact ⟨hf _ _ hps hs.rows, hs.log, hs.energy⟩
    | error e t =>
      obtain ⟨fs, rfl⟩ := writePass_error h
      exact ⟨hs.rows, hs.log, hs.energy⟩)

theorem writeEnergy {f : PassEnergyStorage → PassEnergyStorage}
    (hf : ∀ e, EnergyKept scheme lowest height s₀ e → EnergyKept scheme lowest height s₀ (f e)) :
    Keeps (Attempt scheme lowest height s₀) (writeEnergy f) :=
  Keeps.bind io (fun _ _ hs => ⟨hs.rows, hs.log, hf _ hs.energy⟩)

theorem push (mutation : PassBlockMutation) :
    Keeps (Attempt scheme lowest height s₀) (MinerPassManager.pushBlockMutation mutation) :=
  fun _ hs => ⟨hs.rows, hs.log, hs.energy⟩

theorem appendHistory (id : InscriptionId) (h : Nat) (event : PassHistoryEvent)
    (a₀ : Option MinerPassState) (a₁ : MinerPassState) (o₀ : Option USDBScriptHash)
    (o₁ : USDBScriptHash) (p₀ : Option SatPoint) (p₁ : SatPoint) :
    Keeps (Attempt scheme lowest height s₀) (appendHistory id h event a₀ a₁ o₀ o₁ p₀ p₁) :=
  writePass (fun ps ps' he hr => by
    cases he
    exact hr.congr rfl rfl)

theorem updateAtHeight {id : InscriptionId} {h : Nat} {event : PassHistoryEvent}
    {guard : MinerPassInfo → Bool} {f : MinerPassInfo → MinerPassInfo} {missing : IndexerError}
    {after : MinerPassInfo → MinerPassState × USDBScriptHash × SatPoint}
    (hf : ∀ p : MinerPassInfo, p.SameMint (f p))
    (hstate : ∀ p, guard p = true → p.state.MayBecome (fun _ => True) (f p).state) :
    Keeps (Attempt scheme lowest height s₀)
      (updateAtHeight id h event (·.updateRow id guard f missing) after) := by
  refine Keeps.bind (readPass_keeps _) (fun row => ?_)
  cases row with
  | none => exact Keeps.throw _
  | some p =>
    exact Keeps.bind (writePass (fun _ _ hu hr => hr.updateRow hf hstate hu))
      (fun _ => appendHistory _ _ _ _ _ _ _ _ _)

theorem updateStateAtHeight (id : InscriptionId) {new prev : MinerPassState} (h : Nat)
    (hn : prev.MayBecome (fun _ => True) new) :
    Keeps (Attempt scheme lowest height s₀) (updateStateAtHeight id new prev h) := by
  refine updateAtHeight (fun _ => rfl) (fun p hp => ?_)
  rw [of_decide_eq_true hp]
  exact hn

/-- An Active pass that is put to rest was Active at the start, if it was there. -/
theorem updateStateAtHeight_grounded (id : InscriptionId) {new prev : MinerPassState} (h : Nat)
    (hn : prev.MayBecome (fun _ => True) new) :
    Triple (Attempt scheme lowest height s₀) (MinerPassStorage.updateStateAtHeight id new prev h)
      (fun _ s => Attempt scheme lowest height s₀ s ∧ (prev = .Active → Grounded s₀ id))
      (fun _ => Attempt scheme lowest height s₀) := by
  intro s hs
  have hr := updateStateAtHeight id h hn s hs
  cases hx : MinerPassStorage.updateStateAtHeight id new prev h s with
  | ok u t =>
    rw [hx] at hr
    obtain ⟨p, fs, hp, hstate, -⟩ := updateStateAtHeight_ok hx
    exact ⟨hr, fun ha => hs.grounded hp (hstate.trans ha)⟩
  | error e t =>
    rw [hx] at hr
    exact hr

theorem transferOwnerAtHeight (id : InscriptionId) (owner : USDBScriptHash) (satpoint : SatPoint)
    (h : Nat) : Keeps (Attempt scheme lowest height s₀) (transferOwnerAtHeight id owner satpoint h) :=
  updateAtHeight (fun _ => rfl) (fun _ _ => .inl rfl)

theorem updateSatpointAtHeight (id : InscriptionId) (prev satpoint : SatPoint) (h : Nat) :
    Keeps (Attempt scheme lowest height s₀) (updateSatpointAtHeight id prev satpoint h) :=
  updateAtHeight (fun _ => rfl) (fun _ _ => .inl rfl)

/-- The insertion of a mint, which only succeeds for a pass that was not there. -/
theorem insertMint {info : MinerPassInfo} {state : MinerPassState} {codes : Prop}
    [Decidable codes] (h : Nat) (event : PassHistoryEvent) :
    Triple (Attempt scheme lowest height s₀) (do
        (do
          assertThat (info.state = state)
          assertThat (info.owner = info.mintOwner)
          assertThat codes
          Usdb.writePass (·.insertPassRecord info))
        MinerPassStorage.appendHistory info.inscriptionId h event none info.state none info.owner
          none info.satpoint : IndexerM Unit)
      (fun _ s => Attempt scheme lowest height s₀ s ∧
        s₀.passStorage.getPassByInscriptionId info.inscriptionId = none)
      (fun _ => Attempt scheme lowest height s₀) := by
  refine Triple.bind (Q := fun _ s => Attempt scheme lowest height s₀ s ∧
      s₀.passStorage.getPassByInscriptionId info.inscriptionId = none) ?_ (fun _ s hs => ?_)
  · refine Triple.bind (assertThat_keeps _) (fun _ => Triple.bind (assertThat_keeps _) (fun _ =>
      Triple.bind (assertThat_keeps _) (fun _ s hs => ?_)))
    cases hw : Usdb.writePass (·.insertPassRecord info) s with
    | ok u t =>
      obtain ⟨ps, fs, hps, rfl⟩ := writePass_ok hw
      obtain ⟨hrows, hfresh⟩ := hs.rows.insertPassRecord hps
      exact ⟨⟨hrows, hs.log, hs.energy⟩, hfresh⟩
    | error e t =>
      obtain ⟨fs, rfl⟩ := writePass_error hw
      exact ⟨hs.rows, hs.log, hs.energy⟩
  · have happ : Keeps (Attempt scheme lowest height s₀) (MinerPassStorage.appendHistory
        info.inscriptionId h event none info.state none info.owner none info.satpoint) :=
      appendHistory _ _ _ _ _ _ _ _ _
    have hr := happ s hs.1
    cases hx : MinerPassStorage.appendHistory info.inscriptionId h event none info.state none
        info.owner none info.satpoint s with
    | ok u t =>
      rw [hx] at hr
      exact ⟨hr, hs.2⟩
    | error e t =>
      rw [hx] at hr
      exact hr

section Block

variable {provider : BalanceProvider} (served : scheme.Served provider (height + 1))
  (absent : ∀ i, s₀.passStorage.getPassByInscriptionId i = none → ∀ k, k ≤ height →
    s₀.energyStorage.getPassEnergyRecord i k = none)

include served absent

/-- The records of a catch-up, wherever it stops, keep the attempt sound. -/
theorem insertRow {id : InscriptionId} (hg : Grounded s₀ id) {e : PassEnergyStorage}
    (he : EnergyKept scheme lowest height s₀ e) {last r : PassEnergyRecord}
    (hlast : e.getPassEnergyRecord id last.blockHeight = some last)
    (hr : r ∈ rowRecords id last (pendingRows provider last (height + 1)))
    (e' : PassEnergyStorage) (he' : EnergyKept scheme lowest height s₀ e') :
    EnergyKept scheme lowest height s₀ (e'.insertPassEnergyRecord r) := by
  obtain ⟨rfl, hstate, row, hrow, hh⟩ := mem_rowRecords hr
  obtain ⟨hlo, hhi⟩ := served.inRange _ _ _ row hrow
  by_cases hlow : r.blockHeight = height + 1
  · exact he'.insertHigh hlow
  · have hle : last.blockHeight ≤ height := by omega
    cases hp : s₀.passStorage.getPassByInscriptionId r.inscriptionId with
    | none =>
      have hnone := he.low.others r.inscriptionId (fun p hp' => by rw [hp] at hp'; cases hp')
        last.blockHeight hle
      rw [absent _ hp _ hle, hlast] at hnone
      cases hnone
    | some p =>
      have ha := hg p hp
      obtain ⟨hm, -, hentry⟩ := he.low.entries _ p hp ha _ hle last hlast
      have hrows := (served.caughtUp r.inscriptionId _ _ _ last hentry (by omega)).1
      exact ⟨he'.low.insertEntry hp ha (by omega) hstate (hrows r hr), he'.below.insert (by omega)⟩

theorem updatePassEnergy {id : InscriptionId} (hg : Grounded s₀ id) :
    Keeps (Attempt scheme lowest height s₀) (updatePassEnergy provider id (height + 1)) := by
  refine Triple.bind (readEnergy _) (fun found => ?_)
  cases found with
  | none => exact fun s hs => hs.1
  | some last =>
    rintro s ⟨hs, hfound⟩
    have hlast := ((findLastPassEnergyRecord_eq_some _ _ _ _).mp hfound.symm).2.1
    have hrows : Keeps (Attempt scheme lowest height s₀)
        (applyBalanceRows id last (pendingRows provider last (height + 1))) :=
      applyBalanceRows_keeps (fun r hr =>
        writeEnergy (insertRow served absent hg hs.energy hlast hr))
    have hbody : Keeps (Attempt scheme lowest height s₀) (do
        assertThat (last.blockHeight ≤ height + 1)
        if last.state ≠ .Active then
          return { energy := last.energy, state := last.state }
        Usdb.io
        let rows := provider.getBalanceAtRange last.ownerAddress (last.blockHeight + 1)
          (height + 1 + 1)
        let last ← applyBalanceRows id last rows
        if last.blockHeight < height + 1 then
          return { energy := satAdd last.energy (calcIncrementalGrowth last.ownerBalance
                     last.activeBlockHeight last.blockHeight (height + 1))
                   state := last.state }
        else
          return { energy := last.energy, state := last.state } : IndexerM PassEnergyResult) := by
      refine Keeps.bind (assertThat_keeps _) (fun _ => Keeps.ite _ (fun _ => Keeps.pure _)
        (fun _ => Keeps.bind io (fun _ => Keeps.bind hrows (fun _ => ?_))))
      exact Keeps.ite _ (fun _ => Keeps.pure _) (fun _ => Keeps.pure _)
    exact hbody s hs

theorem onPassDormant {id : InscriptionId} (hg : Grounded s₀ id) :
    Keeps (Attempt scheme lowest height s₀) (onPassDormant provider id (height + 1)) := by
  refine Keeps.bind (updatePassEnergy served absent hg) (fun _ => ?_)
  refine Keeps.bind (readEnergy_keeps _) (fun found => ?_)
  cases found with
  | none => exact Keeps.throw _
  | some last =>
    exact Keeps.bind (writeEnergy (fun _ h => h.insertHigh rfl)) (fun _ =>
      Keeps.bind (readEnergy_keeps _) (fun _ => Keeps.ite _ (fun _ => Keeps.throw _)
        (fun _ => Keeps.pure _)))

theorem dormantLastPass {mint : PassMintInscriptionInfo} (hm : mint.mintBlockHeight = height + 1) :
    Keeps (Attempt scheme lowest height s₀) (MinerPassManager.dormantLastPass provider mint) := by
  refine Keeps.bind (readPass_keeps _) (fun found => ?_)
  cases found with
  | none => exact Keeps.pure _
  | some last =>
    refine Keeps.bind (assertThat_keeps _) (fun _ => Keeps.bind (assertThat_keeps _) (fun _ => ?_))
    refine Triple.bind (updateStateAtHeight_grounded _ _ (.inr (.inl ⟨rfl, .inl rfl⟩))) (fun _ => ?_)
    rintro s ⟨hs, hg⟩
    rw [hm]
    exact Keeps.bind (push _) (fun _ => onPassDormant served absent (hg rfl)) s hs

theorem moveToNewOwner {id : InscriptionId} {pass : MinerPassInfo} (owner : USDBScriptHash)
    (satpoint : SatPoint) (hg : pass.state = .Active → Grounded s₀ id) :
    Keeps (Attempt scheme lowest height s₀)
      (MinerPassManager.moveToNewOwner provider id pass owner satpoint (height + 1)) := by
  have hmove : Keeps (Attempt scheme lowest height s₀) (do
      MinerPassStorage.transferOwnerAtHeight id owner satpoint (height + 1)
      MinerPassManager.pushBlockMutation (.OwnerTransfer id
        (if pass.state = .Active then .Dormant else pass.state) pass.owner owner pass.satpoint
        satpoint)) :=
    Keeps.bind (transferOwnerAtHeight _ _ _ _) (fun _ => push _)
  refine Keeps.ite _ (fun ha => ?_) (fun _ => hmove)
  refine Keeps.bind (onPassDormant served absent (hg ha)) (fun _ => ?_)
  exact Keeps.bind (updateStateAtHeight _ _ (.inr (.inl ⟨rfl, .inl rfl⟩))) (fun _ =>
    Keeps.bind (push _) (fun _ => hmove))

/-- The catch-up that opens a transfer or a burn. -/
theorem catchUp {id : InscriptionId} {pass : MinerPassInfo}
    (hg : pass.state = .Active → Grounded s₀ id) {rest : IndexerM Unit}
    (hrest : Keeps (Attempt scheme lowest height s₀) rest) :
    Keeps (Attempt scheme lowest height s₀) (if pass.state = .Active then do
        discard (PassEnergyManager.updatePassEnergy provider id (height + 1))
        rest
      else rest) :=
  Keeps.ite _ (fun ha => Keeps.bind (Keeps.bind (updatePassEnergy served absent (hg ha))
    (fun _ => Keeps.pure _)) (fun _ => hrest)) (fun _ => hrest)

theorem onPassTransfer (id : InscriptionId) (owner : USDBScriptHash) (satpoint : SatPoint) :
    Keeps (Attempt scheme lowest height s₀)
      (MinerPassManager.onPassTransfer provider id owner satpoint (height + 1)) := by
  refine Triple.bind (readPass _) (fun row => ?_)
  cases row with
  | none => exact fun s hs => hs.1
  | some pass =>
    rintro s ⟨hs, hrow⟩
    have hg : pass.state = .Active → Grounded s₀ id := fun ha => hs.grounded hrow.symm ha
    refine catchUp served absent hg (Keeps.ite _ (fun _ => ?_) (fun _ => ?_)) s hs
    · exact Keeps.bind (updateSatpointAtHeight _ _ _ _) (fun _ => push _)
    · exact moveToNewOwner served absent owner satpoint hg

theorem onPassBurned (id : InscriptionId) :
    Keeps (Attempt scheme lowest height s₀)
      (MinerPassManager.onPassBurned provider id (height + 1)) := by
  refine Triple.bind (readPass _) (fun row => ?_)
  cases row with
  | none => exact fun s hs => hs.1
  | some pass =>
    rintro s ⟨hs, hrow⟩
    have hg : pass.state = .Active → Grounded s₀ id := fun ha => hs.grounded hrow.symm ha
    exact catchUp served absent hg (Keeps.bind (updateStateAtHeight _ _
      (.inr (.inr (.inr ⟨rfl, trivial⟩)))) (fun _ => push _)) s hs

omit served absent in
theorem consumePass (id : InscriptionId) :
    Keeps (Attempt scheme lowest height s₀) (MinerPassManager.consumePass id (height + 1)) := by
  refine Keeps.bind (readPass_keeps _) (fun row => ?_)
  cases row with
  | none => exact Keeps.throw _
  | some pass =>
    refine Triple.bind (assertThat_triple _) (fun _ => ?_)
    rintro s ⟨hs, hdormant⟩
    refine Keeps.bind (updateStateAtHeight _ _ (.inr (.inr (.inl ⟨hdormant, .inl rfl⟩))))
      (fun _ => Keeps.bind (push _) (fun _ => Keeps.bind (readEnergy_keeps _) (fun answer => ?_)))
      s hs
    cases answer with
    | none => exact Keeps.throw _
    | some answer =>
      exact Keeps.bind (assertThat_keeps _) (fun _ =>
        Keeps.bind (writeEnergy (fun _ h => h.insertHigh rfl)) (fun _ => Keeps.pure _))

omit served absent in
theorem inheritPrev {mint : PassMintInscriptionInfo} (hm : mint.mintBlockHeight = height + 1)
    (inherited : Nat) (prev : List InscriptionId) :
    Keeps (Attempt scheme lowest height s₀) (MinerPassManager.inheritPrev mint inherited prev) := by
  induction prev generalizing inherited with
  | nil => exact Keeps.pure _
  | cons id rest ih =>
    refine Keeps.bind (readPass_keeps _) (fun row => ?_)
    cases row with
    | none => exact ih _
    | some p =>
      refine Keeps.ite _ (fun _ => ih _) (fun _ => Keeps.bind (assertThat_keeps _) (fun _ =>
        Keeps.ite _ (fun _ => ih _) (fun _ => ?_)))
      rw [hm]
      exact Keeps.bind (consumePass id) (fun _ => ih _)

omit served absent in
theorem onNewPass {id : InscriptionId} (owner : USDBScriptHash) (inherited : Nat)
    (hfresh : s₀.passStorage.getPassByInscriptionId id = none) :
    Keeps (Attempt scheme lowest height s₀)
      (onNewPass provider id owner (height + 1) inherited) := by
  refine Keeps.bind (Keeps.bind io (fun _ => Keeps.bind (assertThat_keeps _) (fun _ =>
    Keeps.pure _))) (fun balance => ?_)
  refine Keeps.bind (writeEnergy (fun _ h => h.insertHigh rfl)) (fun _ s hs => ?_)
  refine ⟨hs.rows, fun i p hp => ?_, hs.energy⟩
  rw [← hs.log i p hp]
  refine inheritedEnergy_append_ne _ _ _ (fun he => ?_)
  dsimp only at he
  rw [← he, hfresh] at hp
  cases hp

theorem onMintPass {mint : PassMintInscriptionInfo} (hm : mint.mintBlockHeight = height + 1) :
    Keeps (Attempt scheme lowest height s₀) (MinerPassManager.onMintPass provider mint) := by
  refine Keeps.bind (dormantLastPass served absent hm) (fun _ => ?_)
  refine Triple.bind (insertMint _ _) (fun _ => ?_)
  rintro s ⟨hs, hfresh⟩
  rw [hm]
  exact Keeps.bind (push _) (fun _ => Keeps.bind (inheritPrev hm _ _) (fun _ =>
    onNewPass _ _ hfresh)) s hs

omit served absent in
theorem onInvalidMintPass (item : InvalidPassMintInscriptionInfo) :
    Keeps (Attempt scheme lowest height s₀) (MinerPassManager.onInvalidMintPass item) :=
  Keeps.bind (Triple.conseq (insertMint _ _) (fun _ h => h) (fun _ _ h => h.1) (fun _ _ h => h))
    (fun _ => push _)

theorem execute {events : List BlockProcessEvent}
    (hh : ∀ event ∈ events, event.height = height + 1) :
    Keeps (Attempt scheme lowest height s₀) (BlockEventExecutor.execute provider events) := by
  induction events with
  | nil => exact Keeps.pure _
  | cons event rest ih =>
    have hevent := hh event (by simp)
    refine Keeps.bind ?_ (fun _ => ih (fun e he => hh e (by simp [he])))
    cases event with
    | Mint item => exact onMintPass served absent hevent
    | Transfer item =>
      unfold BlockEventExecutor.executeEvent
      dsimp only
      change item.blockHeight = height + 1 at hevent
      rw [hevent]
      cases item.toAddress with
      | some addr => exact onPassTransfer served absent _ _ _
      | none => exact onPassBurned served absent _

end Block

end Attempt

end Usdb
