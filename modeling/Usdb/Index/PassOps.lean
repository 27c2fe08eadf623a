import Usdb.Storage.PassProgress
import Usdb.Index.EnergyOps
import Usdb.Index.BlockEvents

namespace Usdb

open Framework

namespace MinerPassStorage

/-- An accepted update changes the one row it names. -/
theorem updateRow_ok {ps ps' : MinerPassStorage} {id : InscriptionId}
    {guard : MinerPassInfo → Bool} {f : MinerPassInfo → MinerPassInfo} {missing : IndexerError}
    (hf : ∀ p, (f p).inscriptionId = p.inscriptionId)
    (h : ps.updateRow id guard f missing = .ok ps') :
    ∃ p, ps.getPassByInscriptionId id = some p ∧ guard p = true ∧
      ConstraintsHold (ps.setRow id (f p)).minerPasses ∧ ps' = ps.setRow id (f p) := by
  unfold updateRow at h
  split at h
  · cases h
  · rename_i p hp
    obtain ⟨hrow, hguard⟩ := Option.filter_eq_some_iff.mp hp
    obtain ⟨hc, rfl⟩ := writeRows_ok h
    have hn : (ps.minerPasses.map (·.inscriptionId)).Nodup := by
      rw [← modifyRow_keys (·.inscriptionId) id f ps.minerPasses (fun r hr => (hf r).trans hr)]
      exact hc.1
    have he := modifyRow_eq_const MinerPassInfo.inscriptionId id f ps.minerPasses p hn hrow
    refine ⟨p, hrow, hguard, ?_, ?_⟩
    · unfold setRow
      rw [← he]
      exact hc
    · unfold setRow
      rw [← he]

variable {s t : IndexerState} {u : Unit}

theorem getPass_ok {id : InscriptionId} {row : Option MinerPassInfo}
    (h : getPass id s = .ok row t) :
    row = s.passStorage.getPassByInscriptionId id ∧ ∃ fs, t = s.withFaults fs :=
  readPass_ok h

/-- An update at a height writes the changed row and then its history event, with the
values of the row before the change. -/
theorem updateAtHeight_ok {id : InscriptionId} {height : Nat} {event : PassHistoryEvent}
    {guard : MinerPassInfo → Bool} {f : MinerPassInfo → MinerPassInfo} {missing : IndexerError}
    {after : MinerPassInfo → MinerPassState × USDBScriptHash × SatPoint}
    (hf : ∀ p, (f p).inscriptionId = p.inscriptionId)
    (hafter : ∀ p, after p = ((f p).state, (f p).owner, (f p).satpoint))
    (h : updateAtHeight id height event (·.updateRow id guard f missing) after s = .ok u t) :
    ∃ p fs, s.passStorage.getPassByInscriptionId id = some p ∧ guard p = true ∧
      ConstraintsHold (s.passStorage.setRow id (f p)).minerPasses ∧
      t = { s with passStorage := s.passStorage.changeRow id height event p (f p), faults := fs } := by
  obtain ⟨row, s₁, hrow, h⟩ := bind_eq_ok h
  obtain ⟨rfl, fs₁, rfl⟩ := getPass_ok hrow
  cases hp : s.passStorage.getPassByInscriptionId id with
  | none =>
    rw [hp] at h
    cases h
  | some p =>
    rw [hp] at h
    obtain ⟨_, s₂, hw, h⟩ := bind_eq_ok h
    obtain ⟨ps, fs₂, hupd, rfl⟩ := writePass_ok hw
    obtain ⟨p', hp', hguard, hc, rfl⟩ := updateRow_ok hf hupd
    obtain ⟨ps', fs₃, happ, rfl⟩ := writePass_ok h
    cases happ
    rw [IndexerState.withFaults, hp] at hp'
    cases hp'
    rw [hafter]
    exact ⟨p, fs₃, rfl, hguard, hc, rfl⟩

theorem updateStateAtHeight_ok {id : InscriptionId} {new prev : MinerPassState} {height : Nat}
    (h : updateStateAtHeight id new prev height s = .ok u t) :
    ∃ p fs, s.passStorage.getPassByInscriptionId id = some p ∧ p.state = prev ∧
      ConstraintsHold (s.passStorage.setRow id { p with state := new }).minerPasses ∧
      t = { s with
        passStorage := s.passStorage.changeRow id height .stateUpdate p { p with state := new }
        faults := fs } := by
  obtain ⟨p, fs, hp, hguard, hc, ht⟩ := updateAtHeight_ok
    (f := fun p => { p with state := new }) (fun _ => rfl) (fun _ => rfl) h
  exact ⟨p, fs, hp, by simpa using hguard, hc, ht⟩

theorem transferOwnerAtHeight_ok {id : InscriptionId} {owner : USDBScriptHash}
    {satpoint : SatPoint} {height : Nat}
    (h : transferOwnerAtHeight id owner satpoint height s = .ok u t) :
    ∃ p fs, s.passStorage.getPassByInscriptionId id = some p ∧
      ConstraintsHold (s.passStorage.setRow id { p with owner, satpoint }).minerPasses ∧
      t = { s with
        passStorage := s.passStorage.changeRow id height .ownerTransfer p { p with owner, satpoint }
        faults := fs } := by
  obtain ⟨p, fs, hp, -, hc, ht⟩ := updateAtHeight_ok
    (f := fun p => { p with owner, satpoint }) (fun _ => rfl) (fun _ => rfl) h
  exact ⟨p, fs, hp, hc, ht⟩

theorem updateSatpointAtHeight_ok {id : InscriptionId} {prev satpoint : SatPoint} {height : Nat}
    (h : updateSatpointAtHeight id prev satpoint height s = .ok u t) :
    ∃ p fs, s.passStorage.getPassByInscriptionId id = some p ∧ p.satpoint = prev ∧
      ConstraintsHold (s.passStorage.setRow id { p with satpoint }).minerPasses ∧
      t = { s with
        passStorage := s.passStorage.changeRow id height .satpointUpdate p { p with satpoint }
        faults := fs } := by
  obtain ⟨p, fs, hp, hguard, hc, ht⟩ := updateAtHeight_ok
    (f := fun p => { p with satpoint }) (fun _ => rfl) (fun _ => rfl) h
  exact ⟨p, fs, hp, by simpa using hguard, hc, ht⟩

/-- The insertion of a mint, valid or not, behind its three assertions. -/
theorem insertMint_ok {info : MinerPassInfo} {state : MinerPassState} {codes : Prop}
    [Decidable codes]
    (h : (do
      assertThat (info.state = state)
      assertThat (info.owner = info.mintOwner)
      assertThat codes
      writePass (·.insertPassRecord info) : IndexerM Unit) s = .ok u t) :
    info.state = state ∧ info.owner = info.mintOwner ∧
      ConstraintsHold (s.passStorage.minerPasses ++ [info]) ∧ ∃ fs, t = { s with
        passStorage := { s.passStorage with minerPasses := s.passStorage.minerPasses ++ [info] }
        faults := fs } := by
  obtain ⟨_, _, h₁, h⟩ := bind_eq_ok h
  obtain ⟨hstate, rfl⟩ := assertThat_ok h₁
  obtain ⟨_, _, h₂, h⟩ := bind_eq_ok h
  obtain ⟨howner, rfl⟩ := assertThat_ok h₂
  obtain ⟨_, _, h₃, h⟩ := bind_eq_ok h
  obtain ⟨-, rfl⟩ := assertThat_ok h₃
  obtain ⟨ps, fs, hins, rfl⟩ := writePass_ok h
  obtain ⟨hc, rfl⟩ := writeRows_ok hins
  exact ⟨hstate, howner, hc, fs, rfl⟩

theorem addNewMintPassAtHeight_ok {info : MinerPassInfo} {height : Nat}
    (h : addNewMintPassAtHeight info height s = .ok u t) :
    info.state = .Active ∧ info.owner = info.mintOwner ∧
      ConstraintsHold (s.passStorage.minerPasses ++ [info]) ∧
      ∃ fs, t = { s with passStorage := s.passStorage.addRow info height .mint, faults := fs } := by
  obtain ⟨_, _, hadd, h⟩ := bind_eq_ok h
  obtain ⟨hstate, howner, hc, fs₁, rfl⟩ := insertMint_ok hadd
  obtain ⟨ps, fs₂, happ, rfl⟩ := writePass_ok h
  cases happ
  exact ⟨hstate, howner, hc, fs₂, rfl⟩

theorem addInvalidMintPassAtHeight_ok {info : MinerPassInfo} {height : Nat}
    (h : addInvalidMintPassAtHeight info height s = .ok u t) :
    info.state = .Invalid ∧ info.owner = info.mintOwner ∧
      ConstraintsHold (s.passStorage.minerPasses ++ [info]) ∧ ∃ fs, t =
        { s with passStorage := s.passStorage.addRow info height .invalidMint, faults := fs } := by
  obtain ⟨_, _, hadd, h⟩ := bind_eq_ok h
  obtain ⟨hstate, howner, hc, fs₁, rfl⟩ := insertMint_ok hadd
  obtain ⟨ps, fs₂, happ, rfl⟩ := writePass_ok h
  cases happ
  exact ⟨hstate, howner, hc, fs₂, rfl⟩

end MinerPassStorage

/-- The collector after a mutation has been pushed to it. -/
def IndexerState.pushed (s : IndexerState) (mutation : PassBlockMutation) :
    Option PassBlockMutationCollector :=
  s.currentBlockCollector.map (·.push mutation)

namespace MinerPassManager

open MinerPassStorage PassEnergyManager

variable {s t : IndexerState} {u : Unit} {provider : BalanceProvider}

theorem getLastActiveMintPassByOwner_some {ps : MinerPassStorage} {owner : USDBScriptHash}
    {p : MinerPassInfo} (h : ps.getLastActiveMintPassByOwner owner = some p) :
    p ∈ ps.minerPasses ∧ p.owner = owner ∧ p.state = .Active := by
  simpa using maxBy_mem _ _ _ h

/-- The Active pass of a minter, if there is one, becomes Dormant in both stores. -/
theorem dormantLastPass_ok {mint : PassMintInscriptionInfo}
    (h : dormantLastPass provider mint s = .ok u t) :
    (s.passStorage.getLastActiveMintPassByOwner mint.mintOwner = none ∧
        ∃ fs, t = s.withFaults fs) ∨
      ∃ last fs, s.passStorage.getLastActiveMintPassByOwner mint.mintOwner = some last ∧
        s.passStorage.getPassByInscriptionId last.inscriptionId = some last ∧
        last.state = .Active ∧
        ConstraintsHold (s.passStorage.setRow last.inscriptionId
          { last with state := .Dormant }).minerPasses ∧
        onPassDormant provider last.inscriptionId mint.mintBlockHeight
          { s with
            passStorage := s.passStorage.changeRow last.inscriptionId mint.mintBlockHeight
              .stateUpdate last { last with state := .Dormant }
            currentBlockCollector := s.pushed (.StateTransition last.inscriptionId .Active .Dormant
              last.owner last.satpoint)
            faults := fs } = .ok u t := by
  obtain ⟨found, s₁, hread, h⟩ := bind_eq_ok h
  obtain ⟨rfl, fs₁, rfl⟩ := readPass_ok hread
  cases hl : s.passStorage.getLastActiveMintPassByOwner mint.mintOwner with
  | none =>
    rw [hl] at h
    cases h
    exact .inl ⟨rfl, fs₁, rfl⟩
  | some last =>
    rw [hl] at h
    obtain ⟨_, _, h₁, h⟩ := bind_eq_ok h
    obtain ⟨-, rfl⟩ := assertThat_ok h₁
    obtain ⟨_, _, h₂, h⟩ := bind_eq_ok h
    obtain ⟨-, rfl⟩ := assertThat_ok h₂
    obtain ⟨_, _, hupd, h⟩ := bind_eq_ok h
    obtain ⟨p, fs₂, hp, hstate, hc, rfl⟩ := updateStateAtHeight_ok hupd
    have hkey : p.inscriptionId = last.inscriptionId := getPassByInscriptionId_key hp
    have hn : (s.passStorage.minerPasses.map (·.inscriptionId)).Nodup := by
      rw [← modifyRow_keys (·.inscriptionId) last.inscriptionId
        (fun _ => { p with state := .Dormant }) s.passStorage.minerPasses (fun _ _ => hkey)]
      exact hc.1
    have hlast : s.passStorage.getPassByInscriptionId last.inscriptionId = some last :=
      lookup_of_mem _ _ _ hn (getLastActiveMintPassByOwner_some hl).1
    obtain rfl : last = p := Option.some.inj (hlast.symm.trans hp)
    obtain ⟨_, _, hpush, h⟩ := bind_eq_ok h
    cases hpush
    exact .inr ⟨last, fs₂, rfl, hlast, hstate, hc, h⟩

/-- A pass is consumed with the energy it has at that point. -/
theorem consumePass_ok {id : InscriptionId} {height energy : Nat}
    (h : consumePass id height s = .ok energy t) :
    ∃ p fs, s.passStorage.getPassByInscriptionId id = some p ∧ p.state = .Dormant ∧
      ConstraintsHold (s.passStorage.setRow id { p with state := .Consumed }).minerPasses ∧
      energyAnswer s.energyStorage id height = some { energy, state := .Dormant } ∧
      t = { s with
        passStorage := s.passStorage.changeRow id height .stateUpdate p
          { p with state := .Consumed }
        energyStorage := s.energyStorage.insertPassEnergyRecord (consumedRecord id p.owner height)
        currentBlockCollector := s.pushed (.StateTransition id .Dormant .Consumed p.owner p.satpoint)
        faults := fs } := by
  obtain ⟨row, _, hrow, h⟩ := bind_eq_ok h
  obtain ⟨rfl, fs₁, rfl⟩ := getPass_ok hrow
  cases hp : s.passStorage.getPassByInscriptionId id with
  | none =>
    rw [hp] at h
    cases h
  | some p =>
    rw [hp] at h
    obtain ⟨_, _, h₁, h⟩ := bind_eq_ok h
    obtain ⟨hdormant, rfl⟩ := assertThat_ok h₁
    obtain ⟨_, _, hupd, h⟩ := bind_eq_ok h
    obtain ⟨p', fs₂, hp', -, hc, rfl⟩ := updateStateAtHeight_ok hupd
    rw [IndexerState.withFaults, hp] at hp'
    cases hp'
    obtain ⟨_, _, hpush, h⟩ := bind_eq_ok h
    cases hpush
    obtain ⟨answer, _, hget, h⟩ := bind_eq_ok h
    obtain ⟨rfl, fs₃, rfl⟩ := getPassEnergy_ok hget
    dsimp only [IndexerState.withFaults] at h
    cases ha : energyAnswer s.energyStorage id height with
    | none =>
      rw [ha] at h
      cases h
    | some answer =>
      rw [ha] at h
      obtain ⟨_, _, h₂, h⟩ := bind_eq_ok h
      obtain ⟨hanswer, rfl⟩ := assertThat_ok h₂
      obtain ⟨_, _, hcons, h⟩ := bind_eq_ok h
      obtain ⟨fs₄, rfl⟩ := onPassConsumed_ok hcons
      cases h
      refine ⟨p, fs₄, rfl, hdormant, hc, ?_, ?_⟩
      · rw [← hanswer]
      · rw [← hdormant]
        rfl

/-- A pass whose energy a mint of the owner takes over. -/
def Inheritable (ps : MinerPassStorage) (owner : USDBScriptHash) (id : InscriptionId) : Prop :=
  ∃ p, ps.getPassByInscriptionId id = some p ∧ p.owner = owner ∧ p.state = .Dormant

/-- One round of the loop over `prev`: the pass is consumed or skipped. -/
theorem inheritPrev_cons_ok {mint : PassMintInscriptionInfo} {inherited total : Nat}
    {id : InscriptionId} {rest : List InscriptionId}
    (h : inheritPrev mint inherited (id :: rest) s = .ok total t) :
    (¬Inheritable s.passStorage mint.mintOwner id ∧
        ∃ fs, inheritPrev mint inherited rest (s.withFaults fs) = .ok total t) ∨
      (Inheritable s.passStorage mint.mintOwner id ∧ ∃ fs energy s₁,
        consumePass id mint.mintBlockHeight (s.withFaults fs) = .ok energy s₁ ∧
        inheritPrev mint (satAdd inherited energy) rest s₁ = .ok total t) := by
  obtain ⟨row, _, hrow, h⟩ := bind_eq_ok h
  obtain ⟨rfl, fs, rfl⟩ := getPass_ok hrow
  cases hp : s.passStorage.getPassByInscriptionId id with
  | none =>
    rw [hp] at h
    refine .inl ⟨?_, fs, h⟩
    rintro ⟨p, hp', -⟩
    rw [hp] at hp'
    cases hp'
  | some p =>
    rw [hp] at h
    dsimp only at h
    split at h
    · rename_i howner
      refine .inl ⟨?_, fs, h⟩
      rintro ⟨p', hp', ho, -⟩
      rw [hp] at hp'
      cases hp'
      exact howner ho
    · rename_i howner
      obtain ⟨_, _, h₁, h⟩ := bind_eq_ok h
      obtain ⟨-, rfl⟩ := assertThat_ok h₁
      split at h
      · rename_i hstate
        refine .inl ⟨?_, fs, h⟩
        rintro ⟨p', hp', -, hd⟩
        rw [hp] at hp'
        cases hp'
        exact hstate hd
      · rename_i hstate
        obtain ⟨energy, s₁, hcons, h⟩ := bind_eq_ok h
        exact .inr ⟨⟨p, hp, not_not.mp howner, not_not.mp hstate⟩, fs, energy, s₁, hcons, h⟩

/-- The steps of a mint: the minter's Active pass is put to rest, the new row is
inserted, the named passes are consumed and the new pass gets their energy. -/
theorem onMintPass_ok {mint : PassMintInscriptionInfo}
    (h : onMintPass provider mint s = .ok u t) :
    ∃ s₁ fs inherited s₂, dormantLastPass provider mint s = .ok () s₁ ∧
      ConstraintsHold (s₁.passStorage.minerPasses ++ [newMintPassInfo mint]) ∧
      inheritPrev mint 0 mint.prev
        { s₁ with
          passStorage := s₁.passStorage.addRow (newMintPassInfo mint) mint.mintBlockHeight .mint
          currentBlockCollector := s₁.pushed (.Mint mint.inscriptionId mint.inscriptionNumber
            mint.mintOwner mint.satpoint mint.ethMain mint.ethCollab mint.prev)
          faults := fs } = .ok inherited s₂ ∧
      onNewPass provider mint.inscriptionId mint.mintOwner mint.mintBlockHeight inherited s₂ =
        .ok u t := by
  obtain ⟨_, s₁, hdorm, h⟩ := bind_eq_ok h
  obtain ⟨_, _, hadd, h⟩ := bind_eq_ok h
  obtain ⟨-, -, hc, fs₁, rfl⟩ := addNewMintPassAtHeight_ok hadd
  obtain ⟨_, _, hpush, h⟩ := bind_eq_ok h
  cases hpush
  obtain ⟨inherited, s₂, hinh, h⟩ := bind_eq_ok h
  exact ⟨s₁, fs₁, inherited, s₂, hdorm, hc, hinh, h⟩

theorem onInvalidMintPass_ok {item : InvalidPassMintInscriptionInfo}
    (h : onInvalidMintPass item s = .ok u t) :
    ∃ fs, ConstraintsHold (s.passStorage.minerPasses ++ [invalidMintPassInfo item]) ∧
      t = { s with
        passStorage := s.passStorage.addRow (invalidMintPassInfo item) item.mintBlockHeight
          .invalidMint
        currentBlockCollector := s.pushed (.InvalidMint item.inscriptionId item.inscriptionNumber
          item.mintOwner item.satpoint item.errorCode item.errorReason)
        faults := fs } := by
  obtain ⟨_, _, hadd, h⟩ := bind_eq_ok h
  obtain ⟨-, -, hc, fs₁, rfl⟩ := addInvalidMintPassAtHeight_ok hadd
  cases h
  exact ⟨fs₁, hc, rfl⟩

/-- A transfer to another owner freezes an Active pass before it moves. -/
theorem moveToNewOwner_ok {id : InscriptionId} {pass : MinerPassInfo} {owner : USDBScriptHash}
    {satpoint : SatPoint} {height : Nat}
    (h : moveToNewOwner provider id pass owner satpoint height s = .ok u t) :
    (pass.state = .Active ∧ ∃ s₁ p fs, onPassDormant provider id height s = .ok () s₁ ∧
        s₁.passStorage.getPassByInscriptionId id = some p ∧ p.state = .Active ∧
        ConstraintsHold (s₁.passStorage.setRow id { p with state := .Dormant }).minerPasses ∧
        ConstraintsHold ((s₁.passStorage.changeRow id height .stateUpdate p
          { p with state := .Dormant }).setRow id
          { p with state := .Dormant, owner, satpoint }).minerPasses ∧
        t = { s₁ with
          passStorage := (s₁.passStorage.changeRow id height .stateUpdate p
            { p with state := .Dormant }).changeRow id height .ownerTransfer
            { p with state := .Dormant } { p with state := .Dormant, owner, satpoint }
          currentBlockCollector := (s₁.pushed (.StateTransition id .Active .Dormant pass.owner
            pass.satpoint)).map (·.push (.OwnerTransfer id .Dormant pass.owner owner pass.satpoint
              satpoint))
          faults := fs }) ∨
      (pass.state ≠ .Active ∧ ∃ p fs, s.passStorage.getPassByInscriptionId id = some p ∧
        ConstraintsHold (s.passStorage.setRow id { p with owner, satpoint }).minerPasses ∧
        t = { s with
          passStorage := s.passStorage.changeRow id height .ownerTransfer p
            { p with owner, satpoint }
          currentBlockCollector := s.pushed (.OwnerTransfer id pass.state pass.owner owner
            pass.satpoint satpoint)
          faults := fs }) := by
  unfold moveToNewOwner at h
  split at h
  · rename_i hactive
    refine .inl ⟨hactive, ?_⟩
    obtain ⟨_, s₁, hdorm, h⟩ := bind_eq_ok h
    obtain ⟨_, _, hupd, h⟩ := bind_eq_ok h
    obtain ⟨p, fs₁, hp, hstate, hc₁, rfl⟩ := updateStateAtHeight_ok hupd
    obtain ⟨_, _, hpush, h⟩ := bind_eq_ok h
    cases hpush
    obtain ⟨_, _, htrans, h⟩ := bind_eq_ok h
    obtain ⟨q, fs₂, hq, hc₂, rfl⟩ := transferOwnerAtHeight_ok htrans
    cases h
    rw [changeRow, getPassByInscriptionId_append, getPassByInscriptionId_setRow hp (by rfl),
      if_pos rfl] at hq
    cases hq
    exact ⟨s₁, p, fs₂, hdorm, hp, hstate, hc₁, hc₂, rfl⟩
  · rename_i hactive
    obtain ⟨_, _, htrans, h⟩ := bind_eq_ok h
    obtain ⟨p, fs₁, hp, hc, rfl⟩ := transferOwnerAtHeight_ok htrans
    cases h
    exact .inr ⟨hactive, p, fs₁, hp, hc, rfl⟩

/-- Transfers and burns bring the energy of an Active pass up to date first. -/
def CaughtUp (provider : BalanceProvider) (id : InscriptionId) (height : Nat)
    (pass : MinerPassInfo) (s s₁ : IndexerState) : Prop :=
  (pass.state = .Active ∧ ∃ fs result,
      updatePassEnergy provider id height (s.withFaults fs) = .ok result s₁) ∨
    (pass.state ≠ .Active ∧ ∃ fs, s₁ = s.withFaults fs)

theorem caughtUp_ok {id : InscriptionId} {height : Nat} {pass : MinerPassInfo} {fs : List IoResult}
    {rest : Unit → IndexerM Unit}
    (h : (if pass.state = .Active then
        discard (updatePassEnergy provider id height) >>= rest
      else rest ()) (s.withFaults fs) = .ok u t) :
    ∃ s₁, CaughtUp provider id height pass s s₁ ∧ rest () s₁ = .ok u t := by
  split at h
  · rename_i hactive
    obtain ⟨_, s₁, hdisc, h⟩ := bind_eq_ok h
    obtain ⟨result, s₂, hupd, hpure⟩ := bind_eq_ok hdisc
    cases hpure
    exact ⟨s₁, .inl ⟨hactive, fs, result, hupd⟩, h⟩
  · rename_i hactive
    exact ⟨s.withFaults fs, .inr ⟨hactive, fs, rfl⟩, h⟩

theorem onPassTransfer_ok {id : InscriptionId} {owner : USDBScriptHash} {satpoint : SatPoint}
    {height : Nat} (h : onPassTransfer provider id owner satpoint height s = .ok u t) :
    ∃ pass s₁, s.passStorage.getPassByInscriptionId id = some pass ∧
      CaughtUp provider id height pass s s₁ ∧
      ((pass.owner = owner ∧ ∃ p fs, s₁.passStorage.getPassByInscriptionId id = some p ∧
          p.satpoint = pass.satpoint ∧
          ConstraintsHold (s₁.passStorage.setRow id { p with satpoint }).minerPasses ∧
          t = { s₁ with
            passStorage := s₁.passStorage.changeRow id height .satpointUpdate p
              { p with satpoint }
            currentBlockCollector := s₁.pushed (.SatpointUpdate id pass.state pass.owner
              pass.satpoint satpoint)
            faults := fs }) ∨
        (pass.owner ≠ owner ∧
          moveToNewOwner provider id pass owner satpoint height s₁ = .ok u t)) := by
  obtain ⟨row, _, hrow, h⟩ := bind_eq_ok h
  obtain ⟨rfl, fs₁, rfl⟩ := getPass_ok hrow
  cases hp : s.passStorage.getPassByInscriptionId id with
  | none =>
    rw [hp] at h
    cases h
  | some pass =>
    rw [hp] at h
    obtain ⟨s₁, hcaught, h⟩ := caughtUp_ok h
    refine ⟨pass, s₁, rfl, hcaught, ?_⟩
    dsimp only at h
    split at h
    · rename_i howner
      obtain ⟨_, _, hupd, h⟩ := bind_eq_ok h
      obtain ⟨p, fs₂, hp₁, hsat, hc, rfl⟩ := updateSatpointAtHeight_ok hupd
      cases h
      exact .inl ⟨howner, p, fs₂, hp₁, hsat, hc, rfl⟩
    · rename_i howner
      exact .inr ⟨howner, h⟩

theorem onPassBurned_ok {id : InscriptionId} {height : Nat}
    (h : onPassBurned provider id height s = .ok u t) :
    ∃ pass s₁, s.passStorage.getPassByInscriptionId id = some pass ∧
      CaughtUp provider id height pass s s₁ ∧
      ∃ p fs, s₁.passStorage.getPassByInscriptionId id = some p ∧ p.state = pass.state ∧
        ConstraintsHold (s₁.passStorage.setRow id { p with state := .Burned }).minerPasses ∧
        t = { s₁ with
          passStorage := s₁.passStorage.changeRow id height .stateUpdate p
            { p with state := .Burned }
          currentBlockCollector := s₁.pushed (.StateTransition id pass.state .Burned pass.owner
            pass.satpoint)
          faults := fs } := by
  obtain ⟨row, _, hrow, h⟩ := bind_eq_ok h
  obtain ⟨rfl, fs₁, rfl⟩ := getPass_ok hrow
  cases hp : s.passStorage.getPassByInscriptionId id with
  | none =>
    rw [hp] at h
    cases h
  | some pass =>
    rw [hp] at h
    obtain ⟨s₁, hcaught, h⟩ := caughtUp_ok h
    refine ⟨pass, s₁, rfl, hcaught, ?_⟩
    obtain ⟨_, _, hupd, h⟩ := bind_eq_ok h
    obtain ⟨p, fs₂, hp₁, hstate, hc, rfl⟩ := updateStateAtHeight_ok hupd
    cases h
    exact ⟨p, fs₂, hp₁, hstate, hc, rfl⟩

end MinerPassManager

end Usdb
