import Usdb.Index.Energy

namespace Usdb

open Framework

namespace PassEnergyManager

variable {s t : IndexerState} {u : Unit} {provider : BalanceProvider} {id : InscriptionId}
  {height : Nat}

/-- The records `update_pass_energy` writes for the balance rows it reads, each
continuing the one before it. -/
def rowRecords (id : InscriptionId) : PassEnergyRecord → List AddressBalance → List PassEnergyRecord
  | _, [] => []
  | last, row :: rows =>
    advanceRecord id last last.ownerAddress row ::
      rowRecords id (advanceRecord id last last.ownerAddress row) rows

/-- The record the loop of `update_pass_energy` ends with. -/
def lastRowRecord (id : InscriptionId) (last : PassEnergyRecord) (rows : List AddressBalance) :
    PassEnergyRecord :=
  rows.foldl (fun last row => advanceRecord id last last.ownerAddress row) last

def insertAll (e : PassEnergyStorage) (records : List PassEnergyRecord) : PassEnergyStorage :=
  records.foldl (fun e r => e.insertPassEnergyRecord r) e

def newPassRecord (id : InscriptionId) (owner : USDBScriptHash) (height energy : Nat)
    (balance : AddressBalance) : PassEnergyRecord where
  inscriptionId := id
  blockHeight := height
  state := .Active
  activeBlockHeight := height
  ownerAddress := owner
  ownerBalance := balance.balance
  ownerDelta := balance.delta
  energy := energy

def dormantRecord (id : InscriptionId) (height energy : Nat) (last : PassEnergyRecord) :
    PassEnergyRecord where
  inscriptionId := id
  blockHeight := height
  state := .Dormant
  activeBlockHeight := last.activeBlockHeight
  ownerAddress := last.ownerAddress
  ownerBalance := last.ownerBalance
  ownerDelta := if last.blockHeight = height then last.ownerDelta else 0
  energy := energy

def consumedRecord (id : InscriptionId) (owner : USDBScriptHash) (height : Nat) :
    PassEnergyRecord where
  inscriptionId := id
  blockHeight := height
  state := .Consumed
  activeBlockHeight := height
  ownerAddress := owner
  ownerBalance := 0
  ownerDelta := 0
  energy := 0

theorem onNewPass_ok {owner : USDBScriptHash} {inherited : Nat}
    (h : onNewPass provider id owner height inherited s = .ok u t) :
    ∃ balance fs, balance = (provider.getBalanceAtHeight owner height).getLast?.getD
        { blockHeight := height, balance := 0, delta := 0 } ∧
      t = { s with
        energyStorage := s.energyStorage.insertPassEnergyRecord
          (newPassRecord id owner height inherited balance)
        log := s.log ++ [{ inscriptionId := id, blockHeight := height, ownerAddress := owner
                           initialBalance := balance.balance, delta := balance.delta
                           inheritedEnergy := inherited }]
        faults := fs } := by
  obtain ⟨balance, s₁, hbal, h⟩ := bind_eq_ok h
  obtain ⟨_, s₂, hio, hbal⟩ := bind_eq_ok hbal
  obtain ⟨fs₁, rfl⟩ := io_ok hio
  obtain ⟨_, s₃, hassert, hbal⟩ := bind_eq_ok hbal
  obtain ⟨-, rfl⟩ := assertThat_ok hassert
  cases hbal
  obtain ⟨_, s₄, hw, h⟩ := bind_eq_ok h
  obtain ⟨fs₂, rfl⟩ := writeEnergy_ok hw
  cases h
  exact ⟨_, fs₂, rfl, rfl⟩

theorem applyBalanceRows_ok {last next : PassEnergyRecord} {rows : List AddressBalance}
    (h : applyBalanceRows id last rows s = .ok next t) :
    next = lastRowRecord id last rows ∧ ∃ fs, t = { s with
      energyStorage := insertAll s.energyStorage (rowRecords id last rows), faults := fs } := by
  induction rows generalizing s last with
  | nil =>
    cases h
    exact ⟨rfl, t.faults, rfl⟩
  | cons row rows ih =>
    obtain ⟨_, s₁, hw, h⟩ := bind_eq_ok h
    obtain ⟨fs₁, rfl⟩ := writeEnergy_ok hw
    obtain ⟨rfl, fs₂, rfl⟩ := ih h
    exact ⟨rfl, fs₂, rfl⟩

/-- The energy of an Active pass at a height, projected from its last record when
that is older. -/
def projectedEnergy (last : PassEnergyRecord) (height : Nat) : Nat :=
  if last.blockHeight < height then
    satAdd last.energy (calcIncrementalGrowth last.ownerBalance last.activeBlockHeight
      last.blockHeight height)
  else last.energy

/-- The balance rows a catch-up from the last record reads. -/
def pendingRows (provider : BalanceProvider) (last : PassEnergyRecord) (height : Nat) :
    List AddressBalance :=
  provider.getBalanceAtRange last.ownerAddress (last.blockHeight + 1) (height + 1)

theorem updatePassEnergy_ok {result : PassEnergyResult}
    (h : updatePassEnergy provider id height s = .ok result t) :
    ∃ last fs, s.energyStorage.findLastPassEnergyRecord id height = some last ∧
      ((last.state ≠ .Active ∧ result = { energy := last.energy, state := last.state } ∧
          t = s.withFaults fs) ∨
        (last.state = .Active ∧
          result.energy = projectedEnergy (lastRowRecord id last (pendingRows provider last height))
            height ∧
          t = { s with
            energyStorage := insertAll s.energyStorage
              (rowRecords id last (pendingRows provider last height))
            faults := fs })) := by
  obtain ⟨found, s₁, hread, h⟩ := bind_eq_ok h
  obtain ⟨rfl, fs₁, rfl⟩ := readEnergy_ok hread
  cases hl : s.energyStorage.findLastPassEnergyRecord id height with
  | none =>
    rw [hl] at h
    cases h
  | some last =>
    rw [hl] at h
    obtain ⟨_, s₂, hassert, h⟩ := bind_eq_ok h
    obtain ⟨-, rfl⟩ := assertThat_ok hassert
    by_cases hstate : last.state = .Active
    · rw [if_neg (not_not_intro hstate)] at h
      obtain ⟨_, s₃, hio, h⟩ := bind_eq_ok h
      obtain ⟨fs₂, rfl⟩ := io_ok hio
      obtain ⟨next, s₄, hrows, h⟩ := bind_eq_ok h
      obtain ⟨rfl, fs₃, rfl⟩ := applyBalanceRows_ok hrows
      refine ⟨last, fs₃, rfl, .inr ⟨hstate, ?_⟩⟩
      unfold projectedEnergy
      split at h <;> rename_i hlt
      · cases h
        exact ⟨by rw [pendingRows, if_pos hlt], rfl⟩
      · cases h
        exact ⟨by rw [pendingRows, if_neg hlt], rfl⟩
    · rw [if_pos hstate] at h
      cases h
      exact ⟨last, fs₁, rfl, .inl ⟨hstate, rfl, rfl⟩⟩

theorem onPassDormant_ok (h : onPassDormant provider id height s = .ok u t) :
    ∃ result s₁ last fs, updatePassEnergy provider id height s = .ok result s₁ ∧
      s₁.energyStorage.findLastPassEnergyRecord id height = some last ∧
      t = { s₁ with
        energyStorage := s₁.energyStorage.insertPassEnergyRecord
          (dormantRecord id height result.energy last)
        faults := fs } := by
  obtain ⟨result, s₁, hupd, h⟩ := bind_eq_ok h
  obtain ⟨found, s₂, hread, h⟩ := bind_eq_ok h
  obtain ⟨rfl, fs₁, rfl⟩ := readEnergy_ok hread
  cases hl : s₁.energyStorage.findLastPassEnergyRecord id height with
  | none =>
    rw [hl] at h
    cases h
  | some last =>
    rw [hl] at h
    obtain ⟨_, s₃, hw, h⟩ := bind_eq_ok h
    obtain ⟨fs₂, rfl⟩ := writeEnergy_ok hw
    obtain ⟨stored, s₄, hread', h⟩ := bind_eq_ok h
    obtain ⟨-, fs₃, rfl⟩ := readEnergy_ok hread'
    split at h
    · cases h
    · cases h
      exact ⟨result, s₁, last, fs₃, hupd, hl, rfl⟩

theorem updatePassEnergy_frame {result : PassEnergyResult}
    (h : updatePassEnergy provider id height s = .ok result t) :
    ∃ e fs, t = { s with energyStorage := e, faults := fs } := by
  obtain ⟨last, fs, -, ⟨-, -, rfl⟩ | ⟨-, -, rfl⟩⟩ := updatePassEnergy_ok h
  · exact ⟨_, fs, rfl⟩
  · exact ⟨_, fs, rfl⟩

theorem onPassDormant_frame (h : onPassDormant provider id height s = .ok u t) :
    ∃ e fs, t = { s with energyStorage := e, faults := fs } := by
  obtain ⟨result, s₁, last, fs, hupd, -, rfl⟩ := onPassDormant_ok h
  obtain ⟨e, fs', rfl⟩ := updatePassEnergy_frame hupd
  exact ⟨_, fs, rfl⟩

theorem onPassConsumed_ok {owner : USDBScriptHash}
    (h : onPassConsumed id owner height s = .ok u t) :
    ∃ fs, t = { s with
      energyStorage := s.energyStorage.insertPassEnergyRecord (consumedRecord id owner height)
      faults := fs } :=
  writeEnergy_ok h

theorem getPassEnergy_ok {result : Option PassEnergyResult}
    (h : getPassEnergy id height s = .ok result t) :
    result = energyAnswer s.energyStorage id height ∧ ∃ fs, t = s.withFaults fs :=
  readEnergy_ok h

/-- A settled change either finds the record of the block already written or adds
the record that continues the last one. -/
theorem applyActiveBalanceChange_ok {owner : USDBScriptHash} {balance : Nat} {delta : Int}
    {changed : Bool} (hdelta : delta ≠ 0)
    (h : applyActiveBalanceChange id owner height balance delta s = .ok changed t) :
    ∃ last fs, s.energyStorage.findLastPassEnergyRecord id height = some last ∧
      last.state = .Active ∧ last.ownerAddress = owner ∧
      ((last.blockHeight = height ∧ last.ownerBalance = balance ∧ last.ownerDelta = delta ∧
          t = s.withFaults fs) ∨
        (last.blockHeight ≠ height ∧
          t = { s with
            energyStorage := s.energyStorage.insertPassEnergyRecord
              (advanceRecord id last owner { blockHeight := height, balance, delta })
            faults := fs })) := by
  unfold applyActiveBalanceChange at h
  rw [if_neg hdelta] at h
  obtain ⟨found, s₁, hread, h⟩ := bind_eq_ok h
  obtain ⟨rfl, fs₁, rfl⟩ := readEnergy_ok hread
  cases hl : s.energyStorage.findLastPassEnergyRecord id height with
  | none =>
    rw [hl] at h
    cases h
  | some last =>
    rw [hl] at h
    dsimp only at h
    split at h
    · cases h
    rename_i hstate
    split at h
    · cases h
    rename_i howner
    split at h
    · cases h
    split at h
    · rename_i heq
      split at h
      · cases h
      · rename_i hsame
        cases h
        rw [not_or, not_not, not_not] at hsame
        exact ⟨last, fs₁, rfl, not_not.mp hstate, not_not.mp howner,
          .inl ⟨heq, hsame.1, hsame.2, rfl⟩⟩
    · rename_i hne
      split at h
      · cases h
      · obtain ⟨_, s₂, hw, h⟩ := bind_eq_ok h
        obtain ⟨fs₂, rfl⟩ := writeEnergy_ok hw
        cases h
        exact ⟨last, fs₂, rfl, not_not.mp hstate, not_not.mp howner, .inr ⟨hne, rfl⟩⟩

end PassEnergyManager

end Usdb
