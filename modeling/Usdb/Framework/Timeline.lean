import Mathlib.Order.Basic
import Mathlib.Tactic.ByContra

namespace Usdb.Framework

variable {α : Type}

/-- Reverse iteration over a height-indexed store: the entry with the greatest
height not above the given one. -/
def findLast (f : Nat → Option α) : Nat → Option (Nat × α)
  | 0 => (f 0).map (fun a => (0, a))
  | h + 1 =>
    match f (h + 1) with
    | some a => some (h + 1, a)
    | none => findLast f h

theorem findLast_congr (f g : Nat → Option α) (h : Nat) (he : ∀ j ≤ h, f j = g j) :
    findLast f h = findLast g h := by
  induction h with
  | zero => simp only [findLast, he 0 (Nat.le_refl _)]
  | succ h ih =>
    simp only [findLast, he (h + 1) (Nat.le_refl _)]
    rw [ih (fun j hj => he j (by omega))]

theorem findLast_eq_none (f : Nat → Option α) (h : Nat) :
    findLast f h = none ↔ ∀ j ≤ h, f j = none := by
  induction h with
  | zero => simp [findLast]
  | succ h ih =>
    constructor
    · intro hn j hj
      cases hf : f (h + 1) with
      | some a => simp [findLast, hf] at hn
      | none =>
        simp only [findLast, hf] at hn
        rcases Nat.lt_or_ge j (h + 1) with hlt | hge
        · exact ih.mp hn j (by omega)
        · rw [show j = h + 1 by omega]; exact hf
    · intro hj
      simp only [findLast, hj (h + 1) (Nat.le_refl _)]
      exact ih.mpr (fun j hle => hj j (by omega))

theorem findLast_eq_some (f : Nat → Option α) (h k : Nat) (a : α) :
    findLast f h = some (k, a) ↔
      k ≤ h ∧ f k = some a ∧ ∀ j, k < j → j ≤ h → f j = none := by
  induction h with
  | zero =>
    simp only [findLast, Option.map_eq_some_iff, Prod.mk.injEq]
    constructor
    · rintro ⟨b, hb, rfl, rfl⟩
      exact ⟨(Nat.le_refl _), hb, fun j hj hle => by omega⟩
    · rintro ⟨hk, hf, -⟩
      obtain rfl : k = 0 := by omega
      exact ⟨a, hf, rfl, rfl⟩
  | succ h ih =>
    cases hf : f (h + 1) with
    | some b =>
      simp only [findLast, hf, Option.some.injEq, Prod.mk.injEq]
      constructor
      · rintro ⟨rfl, rfl⟩
        exact ⟨(Nat.le_refl _), hf, fun j hj hle => by omega⟩
      · rintro ⟨hk, hfk, hnone⟩
        rcases Nat.lt_or_ge k (h + 1) with hlt | hge
        · have := hnone (h + 1) hlt (Nat.le_refl _)
          rw [hf] at this
          cases this
        · obtain rfl : k = h + 1 := by omega
          rw [hf] at hfk
          exact ⟨rfl, by simpa using hfk⟩
    | none =>
      simp only [findLast, hf]
      rw [ih]
      constructor
      · rintro ⟨hk, hfk, hnone⟩
        refine ⟨by omega, hfk, fun j hj hle => ?_⟩
        rcases Nat.lt_or_ge j (h + 1) with hlt | hge
        · exact hnone j hj (by omega)
        · rw [show j = h + 1 by omega]; exact hf
      · rintro ⟨hk, hfk, hnone⟩
        have hne : k ≠ h + 1 := by
          intro he
          rw [he, hf] at hfk
          cases hfk
        exact ⟨by omega, hfk, fun j hj hle => hnone j hj (by omega)⟩

/-- A store with an entry at or below the height always answers. -/
theorem findLast_isSome (f : Nat → Option α) (h k : Nat) (a : α) (hk : k ≤ h)
    (hf : f k = some a) : ∃ j b, findLast f h = some (j, b) ∧ k ≤ j := by
  cases hl : findLast f h with
  | none =>
    have := (findLast_eq_none f h).mp hl k hk
    rw [hf] at this
    cases this
  | some p =>
    obtain ⟨j, b⟩ := p
    refine ⟨j, b, rfl, ?_⟩
    by_contra hlt
    have := ((findLast_eq_some f h j b).mp hl).2.2 k (by omega) hk
    rw [hf] at this
    cases this

theorem findLast_map {β : Type} (g : α → β) (f : Nat → Option α) (h : Nat) :
    findLast (fun j => (f j).map g) h = (findLast f h).map (fun p => (p.1, g p.2)) := by
  induction h with
  | zero => simp [findLast, Function.comp_def]
  | succ h ih =>
    cases hf : f (h + 1) with
    | none => simp only [findLast, hf, Option.map_none, ih]
    | some a => simp only [findLast, hf, Option.map_some]

/-- The last entry of those listed up to the height. -/
theorem getLast?_filterMap_range (f : Nat → Option α) (h : Nat) :
    ((List.range (h + 1)).filterMap f).getLast? = (findLast f h).map (·.2) := by
  induction h with
  | zero =>
    cases hf : f 0 with
    | none => simp [findLast, hf]
    | some a => simp [findLast, hf]
  | succ h ih =>
    rw [List.range_succ, List.filterMap_append]
    cases hf : f (h + 1) with
    | none =>
      have hnil : [h + 1].filterMap f = [] := by simp [hf]
      rw [hnil, List.append_nil, ih]
      simp only [findLast, hf]
    | some a =>
      have hone : [h + 1].filterMap f = [a] := by simp [hf]
      rw [hone, List.getLast?_concat]
      simp only [findLast, hf, Option.map_some]

end Usdb.Framework
