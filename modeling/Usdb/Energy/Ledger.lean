import Usdb.Storage.Rollback
import Usdb.Storage.Energy
import Usdb.Index.State

namespace Usdb

open Framework

/-- The states a pass is seen in at each height: none before its mint, and from then
on states that continue each other. -/
structure Life (mint : Nat) (state : Nat → Option MinerPassState) : Prop where
  unborn : ∀ k, k < mint → state k = none
  born : ∀ k, mint ≤ k → state k ≠ none
  progress : ∀ j k a b, j ≤ k → state j = some a → state k = some b →
    a.MayBecome (fun _ => True) b

namespace Life

variable {mint k j : Nat} {state : Nat → Option MinerPassState}

theorem mint_le (h : Life mint state) {a : MinerPassState} (hk : state k = some a) : mint ≤ k := by
  by_contra hlt
  rw [h.unborn k (by omega)] at hk
  cases hk

/-- A pass that is Active has been so since its mint. -/
theorem active_before (h : Life mint state) (hk : state k = some .Active) (hm : mint ≤ j)
    (hj : j ≤ k) : state j = some .Active := by
  cases hs : state j with
  | none => exact absurd hs (h.born j hm)
  | some a =>
    rcases h.progress j k a _ hj hs hk with rfl | ⟨-, hb⟩ | ⟨-, hb⟩ | ⟨hb, -⟩
    · rfl
    · rcases hb with hb | hb | hb <;> cases hb
    · rcases hb with hb | hb <;> cases hb
    · cases hb

/-- A pass becomes Dormant right out of the Active state. -/
theorem active_of_enters_dormant (h : Life mint state) (hk : state (k + 1) = some .Dormant)
    (he : state k ≠ some .Dormant) (hm : mint ≤ k) : state k = some .Active := by
  cases hs : state k with
  | none => exact absurd hs (h.born k hm)
  | some a =>
    rcases h.progress k (k + 1) a _ (Nat.le_succ _) hs hk with rfl | ⟨rfl, -⟩ | ⟨-, hb⟩ | ⟨hb, -⟩
    · exact absurd hs he
    · rfl
    · rcases hb with hb | hb <;> cases hb
    · cases hb

end Life

/-- What the energy records of one pass are held to: its records while it is Active,
the energy it is frozen with at a height, and the heights that need a record. -/
structure Accounting where
  entry : PassEnergyRecord → Prop
  frozen : Nat → Nat → Prop
  due : Nat → Prop

/-- The pass was not yet in the state one block earlier. -/
def Enters (state : Nat → Option MinerPassState) (k : Nat) (a : MinerPassState) : Prop :=
  ∀ j, j + 1 = k → state j ≠ some a

/-- A state is recorded once, when the pass enters it. -/
def RecordedOnEntry (state : Nat → Option MinerPassState) (record : Nat → Option PassEnergyRecord)
    (a : MinerPassState) (value : Nat → Prop) (k : Nat) : Prop :=
  (Enters state k a → ∃ r, record k = some r ∧ r.state = a ∧ value r.energy) ∧
    (¬Enters state k a → record k = none)

/-- What the records of a pass hold at one height, by the state the pass is in there.
Nothing is asked of a burned pass. -/
def LedgerAt (acc : Accounting) (mint : Nat) (state : Nat → Option MinerPassState)
    (record : Nat → Option PassEnergyRecord) (k : Nat) : Prop :=
  match state k with
  | none => record k = none
  | some .Active => (∀ r, record k = some r → r.state = .Active ∧ acc.entry r) ∧
      (k = mint ∨ acc.due k → record k ≠ none)
  | some .Dormant => RecordedOnEntry state record .Dormant (acc.frozen k) k
  | some .Consumed => RecordedOnEntry state record .Consumed (fun energy => energy = 0) k
  | some .Burned => True
  | some .Invalid => True

namespace LedgerAt

variable {acc : Accounting} {mint k : Nat} {state : Nat → Option MinerPassState}
  {record : Nat → Option PassEnergyRecord}

theorem none (h : LedgerAt acc mint state record k) (hs : state k = .none) : record k = .none := by
  rw [LedgerAt, hs] at h
  exact h

theorem active (h : LedgerAt acc mint state record k) (hs : state k = some .Active) :
    (∀ r, record k = some r → r.state = .Active ∧ acc.entry r) ∧
      (k = mint ∨ acc.due k → record k ≠ .none) := by
  rw [LedgerAt, hs] at h
  exact h

theorem dormant (h : LedgerAt acc mint state record k) (hs : state k = some .Dormant) :
    RecordedOnEntry state record .Dormant (acc.frozen k) k := by
  rw [LedgerAt, hs] at h
  exact h

theorem consumed (h : LedgerAt acc mint state record k) (hs : state k = some .Consumed) :
    RecordedOnEntry state record .Consumed (fun energy => energy = 0) k := by
  rw [LedgerAt, hs] at h
  exact h

/-- The ledger at a height looks at the states there and one block earlier, and at the
record there. -/
theorem congr {acc' : Accounting} {state' : Nat → Option MinerPassState}
    {record' : Nat → Option PassEnergyRecord} (h : LedgerAt acc mint state record k)
    (hs : ∀ j, j ≤ k → state' j = state j) (hr : record' k = record k)
    (hentry : ∀ r, record k = some r → acc.entry r → acc'.entry r)
    (hfrozen : ∀ energy, acc.frozen k energy → acc'.frozen k energy)
    (hdue : acc'.due k → acc.due k) : LedgerAt acc' mint state' record' k := by
  have henters : ∀ a, Enters state' k a ↔ Enters state k a := by
    intro a
    unfold Enters
    constructor
    · intro he j hj
      rw [← hs j (by omega)]
      exact he j hj
    · intro he j hj
      rw [hs j (by omega)]
      exact he j hj
  unfold LedgerAt
  rw [hs k (Nat.le_refl _)]
  cases hk : state k with
  | none => exact hr.trans (h.none hk)
  | some a =>
    cases a with
    | Active =>
      obtain ⟨hact, hneed⟩ := h.active hk
      dsimp only
      rw [hr]
      refine ⟨fun r hrec => ⟨(hact r hrec).1, hentry r hrec (hact r hrec).2⟩, fun hd => hneed ?_⟩
      exact hd.imp_right hdue
    | Dormant =>
      obtain ⟨hin, hout⟩ := h.dormant hk
      dsimp only [RecordedOnEntry]
      rw [hr, henters]
      refine ⟨fun he => ?_, hout⟩
      obtain ⟨r, hrec, hst, hval⟩ := hin he
      exact ⟨r, hrec, hst, hfrozen _ hval⟩
    | Consumed =>
      dsimp only [RecordedOnEntry]
      rw [hr, henters]
      exact h.consumed hk
    | Burned => trivial
    | Invalid => trivial

end LedgerAt

section Last

variable {acc : Accounting} {mint k : Nat} {state : Nat → Option MinerPassState}
  {record : Nat → Option PassEnergyRecord}

/-- The last record of an Active pass is one of its entries, and nothing was due since. -/
theorem findLast_active (hl : Life mint state) (h : ∀ j, j ≤ k → LedgerAt acc mint state record j)
    (hk : state k = some .Active) :
    ∃ j r, findLast record k = some (j, r) ∧ mint ≤ j ∧ r.state = .Active ∧ acc.entry r ∧
      ∀ i, j < i → i ≤ k → ¬acc.due i := by
  have hm := hl.mint_le hk
  have hmint := (h mint hm).active (hl.active_before hk (Nat.le_refl _) hm)
  obtain ⟨r₀, hr₀⟩ := Option.ne_none_iff_exists'.mp (hmint.2 (.inl rfl))
  obtain ⟨j, r, hlast, hle⟩ := findLast_isSome record k mint r₀ hm hr₀
  obtain ⟨hjk, hrec, hnone⟩ := (findLast_eq_some record k j r).mp hlast
  obtain ⟨hstate, hentry⟩ := ((h j hjk).active (hl.active_before hk hle hjk)).1 r hrec
  refine ⟨j, r, hlast, hle, hstate, hentry, fun i hji hik hdue => ?_⟩
  have hact := (h i hik).active (hl.active_before hk (by omega) hik)
  exact hact.2 (.inr hdue) (hnone i hji hik)

/-- The last record of a pass in a state it was recorded with on entry. -/
theorem findLast_entered {a : MinerPassState} {value : Nat → Nat → Prop}
    (h : ∀ j, j ≤ k → state j = some a → RecordedOnEntry state record a (value j) j)
    (hk : state k = some a) :
    ∃ j r, findLast record k = some (j, r) ∧ j ≤ k ∧ state j = some a ∧ Enters state j a ∧
      r.state = a ∧ value j r.energy := by
  induction k with
  | zero =>
    have hin : Enters state 0 a := fun j hj => by omega
    obtain ⟨r, hrec, hst, hval⟩ := (h 0 (Nat.le_refl _) hk).1 hin
    exact ⟨0, r, by simp [findLast, hrec], Nat.le_refl _, hk, hin, hst, hval⟩
  | succ k ih =>
    by_cases hin : Enters state (k + 1) a
    · obtain ⟨r, hrec, hst, hval⟩ := (h (k + 1) (Nat.le_refl _) hk).1 hin
      exact ⟨k + 1, r, by simp [findLast, hrec], Nat.le_refl _, hk, hin, hst, hval⟩
    · have hrec := (h (k + 1) (Nat.le_refl _) hk).2 hin
      have hprev : state k = some a := by
        by_contra hne
        refine hin (fun j hj => ?_)
        obtain rfl : j = k := by omega
        exact hne
      obtain ⟨j, r, hlast, hle, hrest⟩ := ih (fun j hj => h j (by omega)) hprev
      exact ⟨j, r, by simp [findLast, hrec, hlast], by omega, hrest⟩

/-- The block a Dormant pass stopped being Active in, and its record there. -/
theorem findLast_dormant (hl : Life mint state) (h : ∀ j, j ≤ k → LedgerAt acc mint state record j)
    (hk : state k = some .Dormant) :
    ∃ j r, findLast record k = some (j, r) ∧ mint ≤ j ∧ j ≤ k ∧ state j = some .Dormant ∧
      (∀ i, mint ≤ i → i < j → state i = some .Active) ∧ r.state = .Dormant ∧
      acc.frozen j r.energy := by
  obtain ⟨j, r, hlast, hle, hj, hin, hst, hval⟩ :=
    findLast_entered (fun j hj hs => (h j hj).dormant hs) hk
  refine ⟨j, r, hlast, hl.mint_le hj, hle, hj, fun i hmi hij => ?_, hst, hval⟩
  obtain ⟨i', rfl⟩ : ∃ i', j = i' + 1 := ⟨j - 1, by omega⟩
  have hprev := hl.active_of_enters_dormant hj (hin i' rfl) (by omega)
  exact hl.active_before hprev hmi (by omega)

theorem findLast_consumed (h : ∀ j, j ≤ k → LedgerAt acc mint state record j)
    (hk : state k = some .Consumed) :
    ∃ j r, findLast record k = some (j, r) ∧ r.state = .Consumed ∧ r.energy = 0 := by
  obtain ⟨j, r, hlast, -, -, -, hst, hval⟩ :=
    findLast_entered (fun j hj hs => (h j hj).consumed hs) hk
  exact ⟨j, r, hlast, hst, hval⟩

end Last

namespace MinerPassStorage

/-- The state a pass is seen in at a height. -/
def stateAt (ps : MinerPassStorage) (id : InscriptionId) (k : Nat) : Option MinerPassState :=
  (ps.latestHistoryAt k id).map (·.newState)

theorem TableInv.life {ps : MinerPassStorage} {height : Nat} (ht : TableInv ps height)
    (hv : ViewsProgress (fun _ => True) ps) {id : InscriptionId} {p : MinerPassInfo}
    (hp : ps.getPassByInscriptionId id = some p) : Life p.mintBlockHeight (ps.stateAt id) := by
  obtain ⟨-, hbefore, hafter⟩ := ht.mintedAt id p hp
  refine ⟨fun k hk => ?_, fun k hk => ?_, fun j k a b hjk ha hb => ?_⟩
  · unfold stateAt
    rw [hbefore k hk]
    rfl
  · unfold stateAt
    intro hn
    exact hafter k hk (Option.map_eq_none_iff.mp hn)
  · obtain ⟨r, hr, rfl⟩ := Option.map_eq_some_iff.mp ha
    obtain ⟨r', hr', rfl⟩ := Option.map_eq_some_iff.mp hb
    exact hv.states id j k r r' hjk hr hr'

/-- From the current height on a pass is seen in the state of its row. -/
theorem TableInv.stateAt_current {ps : MinerPassStorage} {height k : Nat} (ht : TableInv ps height)
    {id : InscriptionId} {p : MinerPassInfo} (hp : ps.getPassByInscriptionId id = some p)
    (hk : height ≤ k) : ps.stateAt id k = some p.state := by
  obtain ⟨r, hm, hl⟩ := ht.current id p hp
  unfold stateAt
  rw [hl k hk, Option.map_some, hm.1]

end MinerPassStorage

/-- How each pass is accounted for, given its mint owner, its mint height and the
energy it inherited. -/
abbrev Scheme := USDBScriptHash → Nat → Nat → Accounting

/-- The energy a pass started with, as logged at its last mint. -/
def inheritedEnergy (log : List NewPassLog) (id : InscriptionId) : Nat :=
  ((log.filter (fun line => line.inscriptionId = id)).getLast?.map (·.inheritedEnergy)).getD 0

theorem inheritedEnergy_append_self (log : List NewPassLog) (line : NewPassLog) :
    inheritedEnergy (log ++ [line]) line.inscriptionId = line.inheritedEnergy := by
  simp [inheritedEnergy]

theorem inheritedEnergy_append_ne (log : List NewPassLog) (line : NewPassLog) (id : InscriptionId)
    (h : line.inscriptionId ≠ id) : inheritedEnergy (log ++ [line]) id = inheritedEnergy log id := by
  simp [inheritedEnergy, h]

/-- The accounting a pass falls under. -/
def Scheme.of (scheme : Scheme) (log : List NewPassLog) (p : MinerPassInfo) : Accounting :=
  scheme p.mintOwner p.mintBlockHeight (inheritedEnergy log p.inscriptionId)

theorem Scheme.of_sameMint (scheme : Scheme) (log : List NewPassLog) {p q : MinerPassInfo}
    (h : p.SameMint q) : scheme.of log q = scheme.of log p := by
  unfold Scheme.of
  rw [h.mintOwner, h.mintBlockHeight, h.inscriptionId]

/-- The energy store accounts for every pass up to a height. -/
structure Ledger (scheme : Scheme) (ps : MinerPassStorage) (log : List NewPassLog)
    (e : PassEnergyStorage) (height : Nat) : Prop where
  absent : ∀ i, ps.getPassByInscriptionId i = none → ∀ k, k ≤ height →
    e.getPassEnergyRecord i k = none
  entries : ∀ i p, ps.getPassByInscriptionId i = some p → ∀ k, k ≤ height →
    LedgerAt (scheme.of log p) p.mintBlockHeight (ps.stateAt i) (e.getPassEnergyRecord i) k

namespace Ledger

open MinerPassStorage

variable {scheme scheme' : Scheme} {ps : MinerPassStorage} {log : List NewPassLog}
  {e e' : PassEnergyStorage} {height : Nat}

theorem empty (scheme : Scheme) (log : List NewPassLog) (height : Nat) :
    Ledger scheme .empty log .empty height :=
  ⟨fun _ _ _ _ => rfl, fun _ _ hp => by cases hp⟩

/-- Nothing above the height matters, and the scheme only where it is looked at. -/
theorem congr (h : Ledger scheme ps log e height)
    (he : ∀ i k, k ≤ height → e'.getPassEnergyRecord i k = e.getPassEnergyRecord i k)
    (hentry : ∀ owner mint start r, r.blockHeight ≤ height →
      (scheme owner mint start).entry r → (scheme' owner mint start).entry r)
    (hfrozen : ∀ owner mint start k energy, k ≤ height →
      (scheme owner mint start).frozen k energy → (scheme' owner mint start).frozen k energy)
    (hdue : ∀ owner mint start k, k ≤ height →
      (scheme' owner mint start).due k → (scheme owner mint start).due k) :
    Ledger scheme' ps log e' height := by
  constructor
  · intro i hi k hk
    rw [he i k hk]
    exact h.absent i hi k hk
  · intro i p hp k hk
    refine (h.entries i p hp k hk).congr (fun _ _ => rfl) (he i k hk) (fun r hr => ?_)
      (fun energy => hfrozen _ _ _ k energy hk) (hdue _ _ _ k hk)
    have hkey := (PassEnergyStorage.getPassEnergyRecord_key e i k r hr).2
    exact hentry _ _ _ r (by omega)

theorem low (h : Ledger scheme ps log e height)
    (he : ∀ i k, k ≤ height → e'.getPassEnergyRecord i k = e.getPassEnergyRecord i k) :
    Ledger scheme ps log e' height :=
  h.congr he (fun _ _ _ _ _ hr => hr) (fun _ _ _ _ _ _ hf => hf) (fun _ _ _ _ _ hd => hd)

/-- A rollback of the passes leaves the energy store accounted for up to its target. -/
theorem rolledBack (h : Ledger scheme ps log e height) (ht : TableInv ps height) {target : Nat}
    {mark : Bool} (hle : target ≤ height) : Ledger scheme (ps.rolledBack target mark) log e target := by
  have hstate : ∀ i k, k ≤ target → (ps.rolledBack target mark).stateAt i k = ps.stateAt i k := by
    intro i k hk
    unfold stateAt
    rw [latestHistoryAt_rolledBack, Nat.min_eq_left hk]
  constructor
  · intro i hi k hk
    cases hp : ps.getPassByInscriptionId i with
    | none => exact h.absent i hp k (Nat.le_trans hk hle)
    | some p =>
      refine (h.entries i p hp k (Nat.le_trans hk hle)).none ?_
      have hlate : ¬p.mintBlockHeight ≤ target := by
        intro hm
        have hsome : (ps.survivingPass target p).isSome = _ :=
          survivingPass_isSome ht (lookup_some_mem _ _ _ _ hp)
        rw [getPassByInscriptionId_rolledBack ht, hp, Option.bind_some] at hi
        rw [hi, decide_eq_true hm] at hsome
        cases hsome
      unfold stateAt
      rw [(ht.mintedAt i p hp).2.1 k (by omega)]
      rfl
  · intro i q hq k hk
    obtain ⟨p, r, hp, -, -, hsame, -⟩ := getPassByInscriptionId_rolledBack_some ht hq
    rw [scheme.of_sameMint log hsame, hsame.mintBlockHeight]
    exact (h.entries i p hp k (Nat.le_trans hk hle)).congr
      (fun j hj => hstate i j (Nat.le_trans hj hk)) rfl (fun _ _ hr => hr) (fun _ hf => hf)
      (fun hd => hd)

/-- Only the rows and their history matter of the pass database. -/
theorem congr_passes (h : Ledger scheme ps log e height) {ps' : MinerPassStorage}
    (hrows : ps'.minerPasses = ps.minerPasses)
    (hhist : ps'.passStateHistory = ps.passStateHistory) : Ledger scheme ps' log e height := by
  have hstate : ∀ i, ps'.stateAt i = ps.stateAt i := by
    intro i
    funext k
    simp only [stateAt, latestHistoryAt, hhist]
  constructor
  · intro i hi
    rw [getPassByInscriptionId, hrows] at hi
    exact h.absent i hi
  · intro i p hp
    rw [getPassByInscriptionId, hrows] at hp
    rw [hstate]
    exact h.entries i p hp

end Ledger

end Usdb
