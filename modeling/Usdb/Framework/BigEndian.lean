import Mathlib.Tactic.NormNum
import Mathlib.Data.Nat.Basic
import Mathlib.Data.List.Induction

namespace Usdb.Framework

/-- `to_be_bytes` at a width: the lowest bytes of a number, the highest of them first. -/
def bigEndian : Nat → Nat → List UInt8
  | 0, _ => []
  | width + 1, n => bigEndian width (n / 256) ++ [UInt8.ofNat n]

/-- `from_be_bytes`. -/
def ofBigEndian (bytes : List UInt8) : Nat := bytes.foldl (fun n byte => n * 256 + byte.toNat) 0

theorem bigEndian_length (width n : Nat) : (bigEndian width n).length = width := by
  induction width generalizing n with
  | zero => rfl
  | succ width ih => rw [bigEndian, List.length_append, ih, List.length_singleton]

theorem ofBigEndian_bigEndian {width n : Nat} (h : n < 256 ^ width) :
    ofBigEndian (bigEndian width n) = n := by
  induction width generalizing n with
  | zero =>
    rw [Nat.pow_zero] at h
    obtain rfl : n = 0 := by omega
    rfl
  | succ width ih =>
    rw [Nat.pow_succ] at h
    have hhigh := ih (n := n / 256) (by omega)
    unfold ofBigEndian at hhigh ⊢
    rw [bigEndian, List.foldl_append, hhigh, List.foldl_cons, List.foldl_nil, UInt8.toNat_ofNat']
    omega

theorem bigEndian_ofBigEndian (bytes : List UInt8) :
    bigEndian bytes.length (ofBigEndian bytes) = bytes := by
  induction bytes using List.reverseRecOn with
  | nil => rfl
  | append_singleton bytes byte ih =>
    have hvalue : ofBigEndian (bytes ++ [byte]) = ofBigEndian bytes * 256 + byte.toNat := by
      unfold ofBigEndian
      rw [List.foldl_append]
      rfl
    have hbyte := byte.toNat_lt
    have hlow : UInt8.ofNat (ofBigEndian bytes * 256 + byte.toNat) = byte := by
      rw [← UInt8.toNat_inj, UInt8.toNat_ofNat']
      omega
    rw [List.length_append, List.length_singleton, hvalue, bigEndian, hlow,
      show (ofBigEndian bytes * 256 + byte.toNat) / 256 = ofBigEndian bytes by omega, ih]

theorem ofBigEndian_lt (bytes : List UInt8) : ofBigEndian bytes < 256 ^ bytes.length := by
  induction bytes using List.reverseRecOn with
  | nil => exact Nat.one_pos
  | append_singleton bytes byte ih =>
    have hbyte := byte.toNat_lt
    unfold ofBigEndian at ih ⊢
    rw [List.foldl_append, List.length_append, List.length_singleton, Nat.pow_succ]
    simp only [List.foldl_cons, List.foldl_nil]
    omega

theorem ofBigEndian_injective {a b : List UInt8} (hlen : a.length = b.length)
    (h : ofBigEndian a = ofBigEndian b) : a = b := by
  rw [← bigEndian_ofBigEndian a, ← bigEndian_ofBigEndian b, hlen, h]

section ByteOrder

variable {a a' b b' : List UInt8}

/-- The order of byte strings that start with strings of one length. -/
theorem compare_append_of_length (h : a.length = a'.length) :
    compare (a ++ b) (a' ++ b') = (compare a a').then (compare b b') := by
  induction a generalizing a' with
  | nil =>
    obtain rfl : a' = [] := List.length_eq_zero_iff.mp h.symm
    rfl
  | cons x a ih =>
    cases a' with
    | nil => cases h
    | cons x' a' =>
      have hlen : a.length = a'.length := Nat.succ.inj h
      rw [List.cons_append, List.cons_append, List.compare_cons_cons, List.compare_cons_cons,
        ih hlen, Ordering.then_assoc]

theorem compare_byte (m n : Nat) :
    compare [UInt8.ofNat m] [UInt8.ofNat n] = compare (m % 256) (n % 256) := by
  rw [List.compare_cons_cons, List.compare_nil_nil, Ordering.then_eq]
  have hnat : ∀ x y : UInt8, compare x y = compare x.toNat y.toNat := by
    intro x y
    show compareOfLessAndEq x y = compareOfLessAndEq x.toNat y.toNat
    unfold compareOfLessAndEq
    simp only [UInt8.lt_iff_toNat_lt, ← UInt8.toNat_inj]
  rw [hnat, UInt8.toNat_ofNat', UInt8.toNat_ofNat']

theorem compare_div_mod (m n : Nat) :
    (compare (m / 256) (n / 256)).then (compare (m % 256) (n % 256)) = compare m n := by
  rcases Nat.lt_trichotomy m n with hlt | rfl | hgt
  · rw [Nat.compare_eq_lt.mpr hlt]
    rcases Nat.lt_or_ge (m / 256) (n / 256) with hhigh | hhigh
    · rw [Nat.compare_eq_lt.mpr hhigh]
      rfl
    · have heq : m / 256 = n / 256 := by omega
      rw [Nat.compare_eq_eq.mpr heq, Nat.compare_eq_lt.mpr (by omega)]
      rfl
  · rw [Nat.compare_eq_eq.mpr rfl, Nat.compare_eq_eq.mpr rfl, Nat.compare_eq_eq.mpr rfl]
    rfl
  · rw [Nat.compare_eq_gt.mpr hgt]
    rcases Nat.lt_or_ge (n / 256) (m / 256) with hhigh | hhigh
    · rw [Nat.compare_eq_gt.mpr hhigh]
      rfl
    · have heq : m / 256 = n / 256 := by omega
      rw [Nat.compare_eq_eq.mpr heq, Nat.compare_eq_gt.mpr (by omega)]
      rfl

/-- At one width, the order of the bytes is the order of the numbers. -/
theorem compare_bigEndian {width m n : Nat} (hm : m < 256 ^ width) (hn : n < 256 ^ width) :
    compare (bigEndian width m) (bigEndian width n) = compare m n := by
  induction width generalizing m n with
  | zero =>
    rw [Nat.pow_zero] at hm hn
    obtain rfl : m = 0 := by omega
    obtain rfl : n = 0 := by omega
    rfl
  | succ width ih =>
    rw [Nat.pow_succ] at hm hn
    rw [bigEndian, bigEndian, compare_append_of_length (by rw [bigEndian_length, bigEndian_length]),
      ih (by omega) (by omega), compare_byte, compare_div_mod]

end ByteOrder

end Usdb.Framework
