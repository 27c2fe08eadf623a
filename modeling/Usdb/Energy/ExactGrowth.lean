import Usdb.Energy.Values

namespace Usdb

open Framework PassEnergyStorage PassEnergyManager

section Growth

variable {balance active a b : Nat}

/-- The two saturations of the product come down to one. -/
theorem calcGrowthDelta_eq (hb : energyBalanceThreshold ≤ balance) (r : Nat) :
    calcGrowthDelta balance r = min (balance * 10000 * r) u64Max := by
  have hsat : saturatingU128ToU64 (satMul128 (satMul128 balance energyGrowthMultiplier) r) =
      min (balance * 10000 * r) u64Max := by
    unfold saturatingU128ToU64 satMul128 energyGrowthMultiplier u64Max
    by_cases hbig : balance * 10000 ≤ 2 ^ 128 - 1
    · have hmin : min (balance * 10000) (2 ^ 128 - 1) = balance * 10000 := Nat.min_eq_left hbig
      rw [hmin]
      split <;> omega
    · have hmin : min (balance * 10000) (2 ^ 128 - 1) = 2 ^ 128 - 1 :=
        Nat.min_eq_right (Nat.le_of_not_le hbig)
      rw [hmin]
      cases r with
      | zero => rfl
      | succ r =>
        have h₁ : balance * 10000 ≤ balance * 10000 * (r + 1) :=
          Nat.le_mul_of_pos_right _ (Nat.succ_pos r)
        have h₂ : 2 ^ 128 - 1 ≤ (2 ^ 128 - 1) * (r + 1) :=
          Nat.le_mul_of_pos_right _ (Nat.succ_pos r)
        split <;> omega
  unfold calcGrowthDelta
  rw [if_neg (Nat.not_lt.mpr hb), hsat]

/-- The growth of a window falls short of the product exactly when the window starts
before the growth does, or when the product counted from its start saturates. -/
theorem calcIncrementalGrowth_eq_iff (hb : energyBalanceThreshold ≤ balance) (hab : a ≤ b) :
    calcIncrementalGrowth balance active a b = balance * 10000 * (b - a) ↔
      a = b ∨ (active ≤ a ∧ balance * 10000 * (b - active) ≤ u64Max) := by
  have hpos : 0 < balance * 10000 := by
    unfold energyBalanceThreshold at hb
    omega
  unfold calcIncrementalGrowth
  by_cases hne : b ≤ a
  · obtain rfl : a = b := by omega
    simp
  · rw [if_neg hne, calcGrowthDelta_eq hb, calcGrowthDelta_eq hb]
    by_cases hact : active ≤ a
    · have hsplit : balance * 10000 * (b - active) =
          balance * 10000 * (a - active) + balance * 10000 * (b - a) := by
        rw [← Nat.mul_add]
        congr 1
        omega
      have hwin : balance * 10000 ≤ balance * 10000 * (b - a) :=
        Nat.le_mul_of_pos_right _ (by omega)
      omega
    · have hlt : balance * 10000 * (b - active) < balance * 10000 * (b - a) :=
        Nat.mul_lt_mul_of_pos_left (by omega) hpos
      rw [show a - active = 0 by omega]
      omega

theorem calcIncrementalGrowth_le (hb : energyBalanceThreshold ≤ balance) :
    calcIncrementalGrowth balance active a b ≤ balance * 10000 * (b - a) := by
  unfold calcIncrementalGrowth
  split
  · exact Nat.zero_le _
  · rw [calcGrowthDelta_eq hb, calcGrowthDelta_eq hb]
    have hsplit : balance * 10000 * (b - active) ≤
        balance * 10000 * (a - active) + balance * 10000 * (b - a) := by
      rw [← Nat.mul_add]
      exact Nat.mul_le_mul_left _ (by omega)
    omega

end Growth

/-- From a record to a height the balance of the owner does not change: what other records
there are were written for rows with the same balance. -/
structure StillFrom (e : PassEnergyStorage) (id : InscriptionId) (record : PassEnergyRecord)
    (top : Nat) : Prop where
  stored : e.getPassEnergyRecord id record.blockHeight = some record
  active : record.state = .Active
  written : ∀ height next, record.blockHeight < height → height ≤ top →
    e.getPassEnergyRecord id height = some next →
    ∃ last, e.findLastPassEnergyRecord id (height - 1) = some last ∧
      next = advanceRecord id last last.ownerAddress
        { blockHeight := height, balance := last.ownerBalance, delta := 0 }

section Still

variable {e : PassEnergyStorage} {id : InscriptionId} {record : PassEnergyRecord} {top : Nat}

theorem advanceRecord_still (id : InscriptionId) (last : PassEnergyRecord) (height : Nat) :
    advanceRecord id last last.ownerAddress
        { blockHeight := height, balance := last.ownerBalance, delta := 0 } =
      { inscriptionId := id, blockHeight := height, state := .Active
        activeBlockHeight := last.activeBlockHeight, ownerAddress := last.ownerAddress
        ownerBalance := last.ownerBalance, ownerDelta := 0
        energy := satAdd last.energy (calcIncrementalGrowth last.ownerBalance
          last.activeBlockHeight last.blockHeight height) } := rfl

/-- The last record at each height carries the energy grown since the first. -/
theorem StillFrom.last (h : StillFrom e id record top) (he : record.energy ≤ u64Max) (n : Nat)
    (hn : record.blockHeight + n ≤ top) :
    ∃ last, e.findLastPassEnergyRecord id (record.blockHeight + n) = some last ∧
      last.state = .Active ∧ last.ownerBalance = record.ownerBalance ∧
      last.activeBlockHeight = record.activeBlockHeight ∧
      record.blockHeight ≤ last.blockHeight ∧ last.blockHeight ≤ record.blockHeight + n ∧
      last.energy = satAdd record.energy (calcIncrementalGrowth record.ownerBalance
        record.activeBlockHeight record.blockHeight last.blockHeight) := by
  induction n with
  | zero =>
    refine ⟨record, ?_, h.active, rfl, rfl, Nat.le_refl _, Nat.le_refl _, ?_⟩
    · refine (findLastPassEnergyRecord_eq_some _ _ _ _).mpr ⟨Nat.le_refl _, h.stored, ?_⟩
      intro j hj hle
      omega
    · unfold calcIncrementalGrowth
      rw [if_pos (Nat.le_refl _), satAdd_zero _ he]
  | succ n ih =>
    obtain ⟨last, hfind, hactive, hbal, hact, hlow, hhigh, henergy⟩ := ih (by omega)
    cases hget : e.getPassEnergyRecord id (record.blockHeight + n + 1) with
    | none =>
      refine ⟨last, ?_, hactive, hbal, hact, hlow, by omega, henergy⟩
      obtain ⟨hle, hstored, hnone⟩ := (findLastPassEnergyRecord_eq_some _ _ _ _).mp hfind
      refine (findLastPassEnergyRecord_eq_some _ _ _ _).mpr ⟨by omega, hstored, ?_⟩
      intro j hj hle'
      rcases Nat.lt_or_ge j (record.blockHeight + n + 1) with hlt | hge
      · exact hnone j hj (by omega)
      · obtain rfl : j = record.blockHeight + n + 1 := by omega
        exact hget
    | some next =>
      obtain ⟨last', hfind', hnext⟩ := h.written _ next (by omega) (by omega) hget
      rw [Nat.add_sub_cancel, hfind] at hfind'
      obtain rfl := Option.some.inj hfind'
      rw [advanceRecord_still] at hnext
      have hheight : next.blockHeight = record.blockHeight + n + 1 := by rw [hnext]
      refine ⟨next, (findLastPassEnergyRecord_eq_some _ _ _ _).mpr ⟨by omega, ?_, ?_⟩, ?_, ?_, ?_,
        by omega, by omega, ?_⟩
      · rw [hheight]
        exact hget
      · intro j hj hle
        omega
      · rw [hnext]
      · rw [hnext]
        exact hbal
      · rw [hnext]
        exact hact
      · rw [hheight, hnext]
        dsimp only
        rw [henergy, satAdd_satAdd, hbal, hact,
          calcIncrementalGrowth_add _ _ _ _ _ hlow (by omega)]

/-- The energy answered at a height is that of the record, grown over the whole window,
however many records lie between. -/
theorem StillFrom.answer (h : StillFrom e id record top) (he : record.energy ≤ u64Max)
    {height : Nat} (hlow : record.blockHeight ≤ height) (hhigh : height ≤ top) :
    energyAnswer e id height = some
      { energy := satAdd record.energy (calcIncrementalGrowth record.ownerBalance
          record.activeBlockHeight record.blockHeight height)
        state := .Active } := by
  obtain ⟨n, rfl⟩ := Nat.exists_eq_add_of_le hlow
  obtain ⟨last, hfind, hactive, hbal, hact, hlow', hhigh', henergy⟩ := h.last he n hhigh
  unfold energyAnswer
  rw [hfind, Option.map_some, projectEnergyRecord_active _ hactive]
  unfold projectedEnergy
  split
  · rw [henergy, satAdd_satAdd, hbal, hact, calcIncrementalGrowth_add _ _ _ _ _ hlow' hhigh']
  · rw [henergy, show last.blockHeight = record.blockHeight + n by omega]

end Still

/-- The energy at the later height is the energy at the earlier one plus the product, up to
the greatest `u64`, exactly when the product counted from the start of the growth does not
saturate, or the energy itself does. -/
theorem energy_growth_exact_iff (e : PassEnergyStorage) (id : InscriptionId)
    (record : PassEnergyRecord) (h₁ h₂ : Nat) (hstill : StillFrom e id record h₂)
    (hb : energyBalanceThreshold ≤ record.ownerBalance) (he : record.energy ≤ u64Max)
    (hlow : record.blockHeight ≤ h₁) (hle : h₁ ≤ h₂) :
    ∃ answer₁ answer₂, energyAnswer e id h₁ = some answer₁ ∧ energyAnswer e id h₂ = some answer₂ ∧
      (answer₂.energy = min u64Max (answer₁.energy + record.ownerBalance * 10000 * (h₂ - h₁)) ↔
        h₁ = h₂ ∨
        (record.activeBlockHeight ≤ h₁ ∧
          record.ownerBalance * 10000 * (h₂ - record.activeBlockHeight) ≤ u64Max) ∨
        u64Max ≤ record.energy +
          (min (record.ownerBalance * 10000 * (h₂ - record.activeBlockHeight)) u64Max -
            min (record.ownerBalance * 10000 * (record.blockHeight - record.activeBlockHeight))
              u64Max)) := by
  have hstill₁ : StillFrom e id record h₁ :=
    ⟨hstill.stored, hstill.active,
      fun height next hlt hle' => hstill.written height next hlt (by omega)⟩
  refine ⟨_, _, hstill₁.answer he hlow (Nat.le_refl _),
    hstill.answer he (Nat.le_trans hlow hle) (Nat.le_refl _), ?_⟩
  dsimp only
  have hadd := calcIncrementalGrowth_add record.ownerBalance record.activeBlockHeight _ _ _ hlow hle
  have hexact := @calcIncrementalGrowth_eq_iff record.ownerBalance record.activeBlockHeight h₁ h₂
    hb hle
  have hbound := @calcIncrementalGrowth_le record.ownerBalance record.activeBlockHeight h₁ h₂ hb
  have htotal : min (record.ownerBalance * 10000 * (h₂ - record.activeBlockHeight)) u64Max -
      min (record.ownerBalance * 10000 * (record.blockHeight - record.activeBlockHeight)) u64Max =
      calcIncrementalGrowth record.ownerBalance record.activeBlockHeight record.blockHeight h₂ := by
    unfold calcIncrementalGrowth
    split
    · rw [show h₂ = record.blockHeight by omega]
      omega
    · rw [calcGrowthDelta_eq hb, calcGrowthDelta_eq hb]
  rw [htotal, ← hadd, ← or_assoc, ← hexact]
  unfold satAdd
  omega

section OldPass

/-- A pass minted at height 1 with the threshold balance. -/
def oldPass : PassEnergyRecord where
  inscriptionId := ⟨1, 0⟩
  blockHeight := 1
  state := .Active
  activeBlockHeight := 1
  ownerAddress := 7
  ownerBalance := 100000
  ownerDelta := 100000
  energy := 0

/-- Its owner receives 100 BTC after 200000 blocks. -/
def fundedPass : PassEnergyRecord :=
  advanceRecord ⟨1, 0⟩ oldPass 7
    { blockHeight := 200001, balance := 10000100000, delta := 10000000000 }

def fundedStore : PassEnergyStorage :=
  (PassEnergyStorage.empty.insertPassEnergyRecord oldPass).insertPassEnergyRecord fundedPass

theorem fundedStore_get (height : Nat) :
    fundedStore.getPassEnergyRecord ⟨1, 0⟩ height =
      if height = 200001 then some fundedPass
      else if height = 1 then some oldPass else none := by
  unfold fundedStore
  rw [getPassEnergyRecord_insert, getPassEnergyRecord_insert]
  refine if_congr ⟨And.right, fun h => ⟨rfl, h⟩⟩ rfl ?_
  exact if_congr ⟨And.right, fun h => ⟨rfl, h⟩⟩ rfl rfl

theorem fundedStore_still (top : Nat) : StillFrom fundedStore ⟨1, 0⟩ fundedPass top where
  stored := by
    rw [fundedStore_get]
    exact if_pos rfl
  active := rfl
  written := by
    intro height next hlt _ hget
    have hlt' : 200001 < height := hlt
    rw [fundedStore_get, if_neg (by omega), if_neg (by omega)] at hget
    cases hget

/-- With the new balance the product counted from height 1 is saturated before and after:
the energy does not grow at all. -/
theorem old_pass_stops_growing :
    StillFrom fundedStore ⟨1, 0⟩ fundedPass 200002 ∧
      energyBalanceThreshold ≤ fundedPass.ownerBalance ∧
      energyAnswer fundedStore ⟨1, 0⟩ 200001 = some ⟨200000000000000, .Active⟩ ∧
      energyAnswer fundedStore ⟨1, 0⟩ 200002 = some ⟨200000000000000, .Active⟩ ∧
      200000000000000 ≠
        min u64Max (200000000000000 + fundedPass.ownerBalance * 10000 * (200002 - 200001)) := by
  refine ⟨fundedStore_still _, by decide, ?_, ?_, by decide⟩
  · rw [(fundedStore_still 200001).answer (by decide) (by decide) (Nat.le_refl _)]
    decide
  · rw [(fundedStore_still 200002).answer (by decide) (by decide) (Nat.le_refl _)]
    decide

def youngStore : PassEnergyStorage := PassEnergyStorage.empty.insertPassEnergyRecord oldPass

theorem energy_growth_exact_youngStore :
    ∃ answer₁ answer₂, energyAnswer youngStore ⟨1, 0⟩ 3 = some answer₁ ∧
      energyAnswer youngStore ⟨1, 0⟩ 10 = some answer₂ ∧
      answer₂.energy = min u64Max (answer₁.energy + 100000 * 10000 * (10 - 3)) := by
  have hget : ∀ height, youngStore.getPassEnergyRecord ⟨1, 0⟩ height =
      if height = 1 then some oldPass else none := by
    intro height
    unfold youngStore
    rw [getPassEnergyRecord_insert]
    exact if_congr ⟨And.right, fun h => ⟨rfl, h⟩⟩ rfl rfl
  have hstill : StillFrom youngStore ⟨1, 0⟩ oldPass 10 := by
    refine ⟨?_, rfl, ?_⟩
    · rw [hget]
      exact if_pos rfl
    · intro height next hlt _ hnext
      have hlt' : 1 < height := hlt
      rw [hget, if_neg (by omega)] at hnext
      cases hnext
  obtain ⟨answer₁, answer₂, h₁, h₂, hiff⟩ := energy_growth_exact_iff youngStore ⟨1, 0⟩ oldPass 3 10
    hstill (by decide) (by decide) (by decide) (by decide)
  exact ⟨answer₁, answer₂, h₁, h₂, hiff.mpr (.inr (.inl (by decide)))⟩

end OldPass

end Usdb
