import Usdb.Storage.Pass
import Mathlib.Logic.Relation

namespace Usdb

open Framework

namespace MinerPassInfo

/-- The same mint: only owner, state and satpoint may differ. -/
def SameMint (p q : MinerPassInfo) : Prop :=
  q = { p with owner := q.owner, state := q.state, satpoint := q.satpoint }

theorem SameMint.refl (p : MinerPassInfo) : p.SameMint p := rfl

theorem SameMint.trans {p q r : MinerPassInfo} (h : p.SameMint q) (h' : q.SameMint r) :
    p.SameMint r := by
  unfold SameMint at *
  rw [h', h]

theorem SameMint.inscriptionId {p q : MinerPassInfo} (h : p.SameMint q) :
    q.inscriptionId = p.inscriptionId := by
  rw [h]

theorem SameMint.mintBlockHeight {p q : MinerPassInfo} (h : p.SameMint q) :
    q.mintBlockHeight = p.mintBlockHeight := by
  rw [h]

theorem SameMint.mintOwner {p q : MinerPassInfo} (h : p.SameMint q) :
    q.mintOwner = p.mintOwner := by
  rw [h]

end MinerPassInfo

/-- How a history event changes the row of a pass. Which states may be burned is a
parameter. -/
inductive RowChange (burnable : MinerPassState → Prop) :
    PassHistoryEvent → MinerPassInfo → MinerPassInfo → Prop
  | dormant (p : MinerPassInfo) (active : p.state = .Active) :
      RowChange burnable .stateUpdate p { p with state := .Dormant }
  | consumed (p : MinerPassInfo) (dormant : p.state = .Dormant) :
      RowChange burnable .stateUpdate p { p with state := .Consumed }
  | burned (p : MinerPassInfo) (allowed : burnable p.state) :
      RowChange burnable .stateUpdate p { p with state := .Burned }
  | transferred (p : MinerPassInfo) (owner : USDBScriptHash) (satpoint : SatPoint)
      (notActive : p.state ≠ .Active) :
      RowChange burnable .ownerTransfer p { p with owner, satpoint }
  | moved (p : MinerPassInfo) (satpoint : SatPoint) :
      RowChange burnable .satpointUpdate p { p with satpoint }

theorem RowChange.sameMint {burnable : MinerPassState → Prop} {event : PassHistoryEvent}
    {p q : MinerPassInfo} (h : RowChange burnable event p q) : p.SameMint q := by
  cases h <;> rfl

namespace MinerPassStorage

/-- The table after a pass row has been replaced. -/
def setRow (ps : MinerPassStorage) (id : InscriptionId) (next : MinerPassInfo) :
    MinerPassStorage :=
  { ps with minerPasses := modifyRow (·.inscriptionId) id (fun _ => next) ps.minerPasses }

theorem writeRows_ok {ps ps' : MinerPassStorage} {rows : List MinerPassInfo}
    (h : ps.writeRows rows = .ok ps') :
    ConstraintsHold rows ∧ ps' = { ps with minerPasses := rows } := by
  unfold writeRows at h
  split at h
  · cases h
    exact ⟨‹_›, rfl⟩
  · cases h

/-- A row inserted with its history event. -/
def addRow (ps : MinerPassStorage) (info : MinerPassInfo) (height : Nat)
    (event : PassHistoryEvent) : MinerPassStorage :=
  { ps with minerPasses := ps.minerPasses ++ [info] }.appendPassHistoryEvent
    info.inscriptionId height event none info.state none info.owner none info.satpoint

/-- A row changed from `p` to `q` with its history event. -/
def changeRow (ps : MinerPassStorage) (id : InscriptionId) (height : Nat)
    (event : PassHistoryEvent) (p q : MinerPassInfo) : MinerPassStorage :=
  (ps.setRow id q).appendPassHistoryEvent id height event (some p.state) q.state
    (some p.owner) q.owner (some p.satpoint) q.satpoint

/-- What one operation at a height does to the pass tables: a mint with its history
row, or a change of one pass with its history row. -/
inductive PassStep (burnable : MinerPassState → Prop) (height : Nat) :
    MinerPassStorage → MinerPassStorage → Prop
  | mint (ps : MinerPassStorage) (info : MinerPassInfo) (event : PassHistoryEvent)
      (kind : (event = .mint ∧ info.state = .Active) ∨
        (event = .invalidMint ∧ info.state = .Invalid))
      (owner : info.owner = info.mintOwner) (minted : info.mintBlockHeight = height)
      (constraints : ConstraintsHold (ps.minerPasses ++ [info])) :
      PassStep burnable height ps (ps.addRow info height event)
  | change (ps : MinerPassStorage) (id : InscriptionId) (p q : MinerPassInfo)
      (event : PassHistoryEvent) (row : ps.getPassByInscriptionId id = some p)
      (change : RowChange burnable event p q)
      (constraints : ConstraintsHold (ps.setRow id q).minerPasses) :
      PassStep burnable height ps (ps.changeRow id height event p q)

/-- Any number of operations at a height. -/
abbrev PassReach (burnable : MinerPassState → Prop) (height : Nat) :
    MinerPassStorage → MinerPassStorage → Prop :=
  Relation.ReflTransGen (PassStep burnable height)

/-- The operations on passes touch no other table. -/
theorem PassReach.part_eq {burnable : MinerPassState → Prop} {height : Nat}
    {ps ps' : MinerPassStorage} (h : PassReach burnable height ps ps') {γ : Type}
    (part : MinerPassStorage → γ)
    (hpart : ∀ ps rows history nextId, part { ps with
      minerPasses := rows, passStateHistory := history, nextHistoryId := nextId } = part ps) :
    part ps' = part ps := by
  induction h with
  | refl => rfl
  | @tail b c _ hstep ih =>
    rw [← ih]
    cases hstep <;> exact hpart b _ _ _

theorem PassReach.frame {burnable : MinerPassState → Prop} {height : Nat}
    {ps ps' : MinerPassStorage} (h : PassReach burnable height ps ps') :
    ps'.passBlockCommits = ps.passBlockCommits ∧
      ps'.activeBalanceSnapshots = ps.activeBalanceSnapshots :=
  ⟨h.part_eq passBlockCommits (fun _ _ _ _ => rfl),
    h.part_eq activeBalanceSnapshots (fun _ _ _ _ => rfl)⟩

section Lookup

variable {ps : MinerPassStorage} {burnable : MinerPassState → Prop} {height : Nat}

@[simp] theorem getPassByInscriptionId_append (id i : InscriptionId) (h : Nat)
    (event : PassHistoryEvent) (s₀ : Option MinerPassState) (s₁ : MinerPassState)
    (o₀ : Option USDBScriptHash) (o₁ : USDBScriptHash) (p₀ : Option SatPoint) (p₁ : SatPoint) :
    (ps.appendPassHistoryEvent id h event s₀ s₁ o₀ o₁ p₀ p₁).getPassByInscriptionId i =
      ps.getPassByInscriptionId i := rfl

theorem getPassByInscriptionId_key {id : InscriptionId} {p : MinerPassInfo}
    (h : ps.getPassByInscriptionId id = some p) : p.inscriptionId = id :=
  lookup_some_key _ _ _ _ h

theorem getPassByInscriptionId_setRow {id : InscriptionId} {p q : MinerPassInfo}
    (hp : ps.getPassByInscriptionId id = some p) (hq : q.inscriptionId = p.inscriptionId)
    (i : InscriptionId) :
    (ps.setRow id q).getPassByInscriptionId i =
      if i = id then some q else ps.getPassByInscriptionId i := by
  unfold getPassByInscriptionId setRow
  dsimp only
  rw [lookup_modifyRow _ _ _ _ _ (fun r _ => by rw [hq]; exact getPassByInscriptionId_key hp)]
  unfold getPassByInscriptionId at hp
  by_cases h : i = id
  · rw [if_pos h, if_pos h, hp]; rfl
  · rw [if_neg h, if_neg h]

theorem getPassByInscriptionId_insert (info : MinerPassInfo) (i : InscriptionId) :
    ({ ps with minerPasses := ps.minerPasses ++ [info] } :
      MinerPassStorage).getPassByInscriptionId i =
      (ps.getPassByInscriptionId i).or (if info.inscriptionId = i then some info else none) := by
  unfold getPassByInscriptionId
  rw [lookup_append, lookup_singleton]

/-- A mint is only accepted under an id the table does not hold. -/
theorem getPassByInscriptionId_fresh {info : MinerPassInfo}
    (h : ConstraintsHold (ps.minerPasses ++ [info])) :
    ps.getPassByInscriptionId info.inscriptionId = none := by
  unfold getPassByInscriptionId
  rw [lookup_eq_none]
  intro r hr he
  have hn := h.1
  rw [List.map_append, List.nodup_append] at hn
  exact hn.2.2 r.inscriptionId (List.mem_map_of_mem hr) info.inscriptionId (by simp) he

theorem getPassByInscriptionId_changeRow {id : InscriptionId} {p q : MinerPassInfo}
    {event : PassHistoryEvent} (hp : ps.getPassByInscriptionId id = some p)
    (hq : q.inscriptionId = p.inscriptionId) (i : InscriptionId) :
    (ps.changeRow id height event p q).getPassByInscriptionId i =
      if i = id then some q else ps.getPassByInscriptionId i := by
  rw [changeRow, getPassByInscriptionId_append, getPassByInscriptionId_setRow hp hq]

theorem getPassByInscriptionId_addRow {info : MinerPassInfo} {event : PassHistoryEvent}
    (h : ConstraintsHold (ps.minerPasses ++ [info])) (i : InscriptionId) :
    (ps.addRow info height event).getPassByInscriptionId i =
      if i = info.inscriptionId then some info else ps.getPassByInscriptionId i := by
  rw [addRow, getPassByInscriptionId_append, getPassByInscriptionId_insert]
  by_cases hi : i = info.inscriptionId
  · rw [hi, getPassByInscriptionId_fresh h]
    simp
  · rw [if_neg hi, if_neg (fun he => hi he.symm)]
    simp

end Lookup

end MinerPassStorage

end Usdb
