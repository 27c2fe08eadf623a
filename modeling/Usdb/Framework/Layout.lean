import Mathlib.Algebra.BigOperators.Group.List.Basic
import Mathlib.Algebra.GroupWithZero.Nat

namespace Usdb.Framework.Layout

variable {values : List Nat} {i j offset offset' pos : Nat}

/-- The unit at an offset of an amount, the amounts being laid out one after the other. -/
def Holds (values : List Nat) (i offset : Nat) : Prop :=
  ∃ value, values[i]? = some value ∧ offset < value

/-- The place of a unit among all of them. -/
def position (values : List Nat) (i offset : Nat) : Nat :=
  (values.take i).sum + offset

theorem position_cons_zero (value : Nat) (values : List Nat) (offset : Nat) :
    position (value :: values) 0 offset = offset := by
  simp [position]

theorem position_cons_succ (value : Nat) (values : List Nat) (i offset : Nat) :
    position (value :: values) (i + 1) offset = value + position values i offset := by
  simp [position, Nat.add_assoc]

theorem holds_cons_zero {value : Nat} : Holds (value :: values) 0 offset ↔ offset < value := by
  simp [Holds]

theorem holds_cons_succ {value : Nat} :
    Holds (value :: values) (i + 1) offset ↔ Holds values i offset := by
  simp [Holds]

theorem Holds.position_lt (h : Holds values i offset) : position values i offset < values.sum := by
  induction values generalizing i with
  | nil =>
    obtain ⟨value, hvalue, -⟩ := h
    simp at hvalue
  | cons value values ih =>
    rw [List.sum_cons]
    cases i with
    | zero =>
      rw [position_cons_zero]
      have hlt := holds_cons_zero.mp h
      omega
    | succ i =>
      rw [position_cons_succ]
      have hlt := ih (holds_cons_succ.mp h)
      omega

/-- Two units at one place are one unit. -/
theorem Holds.position_inj (h : Holds values i offset) (h' : Holds values j offset')
    (heq : position values i offset = position values j offset') : i = j ∧ offset = offset' := by
  induction values generalizing i j with
  | nil =>
    obtain ⟨value, hvalue, -⟩ := h
    simp at hvalue
  | cons value values ih =>
    cases i with
    | zero =>
      have hlt := holds_cons_zero.mp h
      cases j with
      | zero =>
        rw [position_cons_zero, position_cons_zero] at heq
        exact ⟨rfl, heq⟩
      | succ j =>
        rw [position_cons_zero, position_cons_succ] at heq
        omega
    | succ i =>
      cases j with
      | zero =>
        have hlt := holds_cons_zero.mp h'
        rw [position_cons_succ, position_cons_zero] at heq
        omega
      | succ j =>
        rw [position_cons_succ, position_cons_succ] at heq
        obtain ⟨rfl, hoffset⟩ := ih (holds_cons_succ.mp h) (holds_cons_succ.mp h') (by omega)
        exact ⟨rfl, hoffset⟩

/-- Every place below the total is that of a unit. -/
theorem exists_holds (h : pos < values.sum) :
    ∃ i offset, Holds values i offset ∧ position values i offset = pos := by
  induction values generalizing pos with
  | nil => simp at h
  | cons value values ih =>
    rw [List.sum_cons] at h
    by_cases hlt : pos < value
    · exact ⟨0, pos, holds_cons_zero.mpr hlt, position_cons_zero ..⟩
    · have hrest : pos - value < values.sum := by omega
      obtain ⟨i, offset, hholds, hpos⟩ := ih hrest
      refine ⟨i + 1, offset, holds_cons_succ.mpr hholds, ?_⟩
      rw [position_cons_succ, hpos]
      omega

end Usdb.Framework.Layout
