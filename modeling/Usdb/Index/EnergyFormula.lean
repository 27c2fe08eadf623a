import Mathlib.Algebra.Group.Nat.Defs
import Mathlib.Data.Nat.Basic
import Mathlib.Order.Basic

namespace Usdb

/-- `u64::MAX`. -/
def u64Max : Nat := 2 ^ 64 - 1

/-- `u64::saturating_add`. -/
def satAdd (a b : Nat) : Nat := min (a + b) u64Max

/-- 0.001 BTC in satoshi. -/
def energyBalanceThreshold : Nat := 100000

def energyGrowthMultiplier : Nat := 10000

def energyPenaltyMultiplier : Nat := 43200000

/-- `u128::saturating_mul`. -/
def satMul128 (a b : Nat) : Nat := min (a * b) (2 ^ 128 - 1)

def saturatingU128ToU64 (value : Nat) : Nat :=
  if u64Max < value then u64Max else value

def calcGrowthDelta (ownerBalance r : Nat) : Nat :=
  if ownerBalance < energyBalanceThreshold then 0
  else saturatingU128ToU64 (satMul128 (satMul128 ownerBalance energyGrowthMultiplier) r)

def calcPenaltyFromDelta (delta : Int) : Nat :=
  if 0 ≤ delta then 0
  else saturatingU128ToU64 (satMul128 delta.natAbs energyPenaltyMultiplier)

/-- Growth of the window between two heights, as a difference of two growths
counted from the start of the window. -/
def calcIncrementalGrowth (ownerBalance activeBlockHeight fromBlockHeight toBlockHeight : Nat) :
    Nat :=
  if toBlockHeight ≤ fromBlockHeight then 0
  else calcGrowthDelta ownerBalance (toBlockHeight - activeBlockHeight) -
    calcGrowthDelta ownerBalance (fromBlockHeight - activeBlockHeight)

theorem satAdd_le (a b : Nat) : satAdd a b ≤ u64Max := Nat.min_le_right _ _

theorem satAdd_zero (a : Nat) (h : a ≤ u64Max) : satAdd a 0 = a := by
  unfold satAdd
  omega

theorem satAdd_satAdd (a b c : Nat) : satAdd (satAdd a b) c = satAdd a (b + c) := by
  unfold satAdd
  omega

theorem calcGrowthDelta_mono (ownerBalance r s : Nat) (h : r ≤ s) :
    calcGrowthDelta ownerBalance r ≤ calcGrowthDelta ownerBalance s := by
  unfold calcGrowthDelta
  split
  · exact Nat.le_refl 0
  · have hm : satMul128 (satMul128 ownerBalance energyGrowthMultiplier) r ≤
        satMul128 (satMul128 ownerBalance energyGrowthMultiplier) s := by
      unfold satMul128
      have := Nat.mul_le_mul_left
        (min (ownerBalance * energyGrowthMultiplier) (2 ^ 128 - 1)) h
      omega
    unfold saturatingU128ToU64
    split <;> split <;> omega

/-- Growth over adjacent ranges adds up, whatever the saturation. -/
theorem calcIncrementalGrowth_add (ownerBalance active a b c : Nat) (hab : a ≤ b) (hbc : b ≤ c) :
    calcIncrementalGrowth ownerBalance active a b + calcIncrementalGrowth ownerBalance active b c =
      calcIncrementalGrowth ownerBalance active a c := by
  have h₁ := calcGrowthDelta_mono ownerBalance (a - active) (b - active) (by omega)
  have h₂ := calcGrowthDelta_mono ownerBalance (b - active) (c - active) (by omega)
  rcases Nat.lt_or_ge a b with hlt | hge
  · rcases Nat.lt_or_ge b c with hlt' | hge'
    · simp only [calcIncrementalGrowth, if_neg (Nat.not_le.mpr hlt), if_neg (Nat.not_le.mpr hlt'),
        if_neg (Nat.not_le.mpr (Nat.lt_trans hlt hlt'))]
      omega
    · obtain rfl : b = c := by omega
      simp [calcIncrementalGrowth]
  · obtain rfl : a = b := by omega
    simp [calcIncrementalGrowth]

end Usdb
