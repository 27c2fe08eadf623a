import Mathlib.Data.List.Perm.Basic
import Mathlib.Data.List.Nodup
import Mathlib.Logic.Function.Basic
import Std.Data.ExtTreeMap

namespace Usdb.Framework

open Std

/-- A column family: its rows in the order of their keys. -/
abbrev Table (κ ν : Type) [Ord κ] := ExtTreeMap κ ν

namespace Table

section Rows

variable {κ ν : Type} [DecidableEq κ] {k : κ} {v : ν}

theorem lookup_eq_none {rows : List (κ × ν)} : rows.lookup k = none ↔ k ∉ rows.map (·.1) := by
  rw [List.lookup_eq_none_iff]
  constructor
  · intro h hmem
    obtain ⟨row, hrow, rfl⟩ := List.mem_map.mp hmem
    simpa using h row hrow
  · intro h row hrow
    simp only [bne_iff_ne]
    rintro rfl
    exact h (List.mem_map_of_mem hrow)

theorem mem_of_lookup {rows : List (κ × ν)} (h : rows.lookup k = some v) : (k, v) ∈ rows := by
  obtain ⟨first, rest, rfl, -⟩ := List.lookup_eq_some_iff.mp h
  simp

theorem lookup_of_mem {rows : List (κ × ν)} (hn : (rows.map (·.1)).Nodup) (h : (k, v) ∈ rows) :
    rows.lookup k = some v := by
  obtain ⟨first, rest, rfl⟩ := List.append_of_mem h
  refine List.lookup_eq_some_iff.mpr ⟨first, rest, rfl, ?_⟩
  intro row hrow
  rw [List.map_append, List.nodup_append] at hn
  simp only [bne_iff_ne]
  intro he
  exact hn.2.2 row.1 (List.mem_map_of_mem hrow) k (by simp) he.symm

theorem lookup_map_value {γ : Type} (g : ν → γ) (rows : List (κ × ν)) (k : κ) :
    (rows.map (fun row => (row.1, g row.2))).lookup k = (rows.lookup k).map g := by
  induction rows with
  | nil => rfl
  | cons row rows ih =>
    rw [List.map_cons, List.lookup_cons, List.lookup_cons, ih]
    split <;> rfl

/-- Updating a function with rows of distinct keys, one after the other. -/
theorem foldl_update_lookup {γ : Type} {rows : List (κ × ν)} (hn : (rows.map (·.1)).Nodup)
    (g : ν → γ) (f : κ → γ) (k : κ) :
    rows.foldl (fun f row => Function.update f row.1 (g row.2)) f k =
      ((rows.lookup k).map g).getD (f k) := by
  induction rows generalizing f with
  | nil => rfl
  | cons row rows ih =>
    obtain ⟨k', v⟩ := row
    rw [List.map_cons, List.nodup_cons] at hn
    rw [List.foldl_cons, ih hn.2, List.lookup_cons]
    by_cases hk : k = k'
    · subst hk
      rw [lookup_eq_none.mpr hn.1, Function.update_self, beq_self_eq_true]
      rfl
    · rw [Function.update_of_ne hk, beq_false_of_ne hk]

theorem foldl_update_none {γ : Type} (keys : List κ) (f : κ → Option γ) (k : κ) :
    keys.foldl (fun f key => Function.update f key none) f k =
      if k ∈ keys then none else f k := by
  induction keys generalizing f with
  | nil => simp
  | cons key keys ih =>
    rw [List.foldl_cons, ih]
    by_cases hk : k = key
    · subst hk
      simp
    · simp [hk]

end Rows

variable {κ ν : Type} [Ord κ] [TransOrd κ] [LawfulEqOrd κ]

/-- Delete the rows of a list of keys. -/
def eraseAll (t : Table κ ν) (keys : List κ) : Table κ ν :=
  keys.foldl (fun t k => t.erase k) t

/-- The row a reverse iterator positioned at a key yields first: the row of the key,
or else of the greatest key below it. -/
def seekForPrev (t : Table κ ν) (k : κ) : Option (κ × ν) :=
  (t.toList.filter (fun row => (compare row.1 k).isLE)).getLast?

section Lookup

variable [DecidableEq κ] {t : Table κ ν} {k k' : κ} {v : ν}

theorem getElem?_put (t : Table κ ν) (k k' : κ) (v : ν) :
    (t.insert k v)[k']? = if k = k' then some v else t[k']? := by
  rw [ExtTreeMap.getElem?_insert]
  simp

theorem getElem?_delete (t : Table κ ν) (k k' : κ) :
    (t.erase k)[k']? = if k = k' then none else t[k']? := by
  rw [ExtTreeMap.getElem?_erase]
  simp

theorem getElem?_eraseAll (t : Table κ ν) (keys : List κ) (k : κ) :
    (t.eraseAll keys)[k]? = if k ∈ keys then none else t[k]? := by
  unfold eraseAll
  induction keys generalizing t with
  | nil => simp
  | cons k' keys ih =>
    rw [List.foldl_cons, ih, getElem?_delete]
    by_cases hk : k' = k
    · simp [hk]
    · simp [hk, show k ≠ k' from fun h => hk h.symm]

theorem getElem?_insertMany_of_notMem {rows : List (κ × ν)} (h : k ∉ rows.map (·.1)) :
    (t.insertMany rows)[k]? = t[k]? := by
  induction rows generalizing t with
  | nil => simp
  | cons row rows ih =>
    obtain ⟨k', v⟩ := row
    simp only [List.map_cons, List.mem_cons, not_or] at h
    rw [ExtTreeMap.insertMany_cons, ih h.2, getElem?_put, if_neg (fun he => h.1 he.symm)]

theorem getElem?_insertMany_of_mem {rows : List (κ × ν)} (hn : (rows.map (·.1)).Nodup)
    (h : (k, v) ∈ rows) : (t.insertMany rows)[k]? = some v := by
  induction rows generalizing t with
  | nil => cases h
  | cons row rows ih =>
    obtain ⟨k', v'⟩ := row
    rw [List.map_cons, List.nodup_cons] at hn
    rw [ExtTreeMap.insertMany_cons]
    rcases List.mem_cons.mp h with he | hm
    · obtain ⟨rfl, rfl⟩ := Prod.mk.inj he
      rw [getElem?_insertMany_of_notMem hn.1, getElem?_put, if_pos rfl]
    · exact ih hn.2 hm

omit [LawfulEqOrd κ] [DecidableEq κ] in
theorem insertMany_append (t : Table κ ν) (rows rows' : List (κ × ν)) :
    t.insertMany (rows ++ rows') = (t.insertMany rows).insertMany rows' := by
  induction rows generalizing t with
  | nil => simp
  | cons row rows ih =>
    obtain ⟨k', v'⟩ := row
    rw [List.cons_append, ExtTreeMap.insertMany_cons, ExtTreeMap.insertMany_cons, ih]

/-- The rows of a list win over those of the table. -/
theorem getElem?_insertMany_cases (t : Table κ ν) (rows : List (κ × ν)) (k : κ) :
    (∃ v, (k, v) ∈ rows ∧ (t.insertMany rows)[k]? = some v) ∨
      (k ∉ rows.map (·.1) ∧ (t.insertMany rows)[k]? = t[k]?) := by
  induction rows generalizing t with
  | nil => exact .inr (by simp)
  | cons row rows ih =>
    obtain ⟨k', v'⟩ := row
    rw [ExtTreeMap.insertMany_cons]
    rcases ih (t.insert k' v') with ⟨v, hm, hv⟩ | ⟨hm, hv⟩
    · exact .inl ⟨v, by simp [hm], hv⟩
    · rw [hv, getElem?_put]
      by_cases hk : k' = k
      · exact .inl ⟨v', by simp [hk], if_pos hk⟩
      · refine .inr ⟨?_, if_neg hk⟩
        rw [List.map_cons, List.mem_cons, not_or]
        exact ⟨fun he => hk he.symm, hm⟩

/-- With distinct keys, a batch of rows answers before the table it is written to. -/
theorem getElem?_insertMany_lookup {rows : List (κ × ν)} (hn : (rows.map (·.1)).Nodup) :
    (t.insertMany rows)[k]? = (rows.lookup k).or t[k]? := by
  cases hl : rows.lookup k with
  | none => exact getElem?_insertMany_of_notMem (lookup_eq_none.mp hl)
  | some v => exact getElem?_insertMany_of_mem hn (mem_of_lookup hl)

/-- With distinct keys the order of the writes does not matter. -/
theorem insertMany_perm {rows rows' : List (κ × ν)} (hp : rows.Perm rows')
    (hn : (rows.map (·.1)).Nodup) : t.insertMany rows = t.insertMany rows' := by
  refine ExtTreeMap.ext_getElem? (fun k => ?_)
  have hn' : (rows'.map (·.1)).Nodup := (hp.map _).nodup_iff.mp hn
  by_cases hk : k ∈ rows.map (·.1)
  · obtain ⟨⟨k', v⟩, hm, rfl⟩ := List.mem_map.mp hk
    rw [getElem?_insertMany_of_mem hn hm, getElem?_insertMany_of_mem hn' (hp.mem_iff.mp hm)]
  · rw [getElem?_insertMany_of_notMem hk,
      getElem?_insertMany_of_notMem (fun h => hk ((hp.map _).mem_iff.mpr h))]

end Lookup

section Order

variable {t : Table κ ν}

theorem mem_toList {k : κ} {v : ν} : (k, v) ∈ t.toList ↔ t[k]? = some v :=
  ExtTreeMap.mem_toList_iff_getElem?_eq_some

theorem lookup_toList [DecidableEq κ] (t : Table κ ν) (k : κ) : t.toList.lookup k = t[k]? := by
  cases hl : t.toList.lookup k with
  | some v => exact (mem_toList.mp (mem_of_lookup hl)).symm
  | none =>
    cases hget : t[k]? with
    | none => rfl
    | some v => exact absurd (List.mem_map_of_mem (mem_toList.mpr hget)) (lookup_eq_none.mp hl)

theorem toList_keys_nodup (t : Table κ ν) : (t.toList.map (·.1)).Nodup := by
  have h := ExtTreeMap.distinct_keys_toList (t := t)
  rw [List.Nodup, List.pairwise_map]
  refine h.imp ?_
  intro a b hab he
  exact hab (by simp [he])

theorem toList_nodup (t : Table κ ν) : t.toList.Nodup :=
  .of_map _ (toList_keys_nodup t)

/-- A list of rows with distinct keys that has the rows of a table lists the table. -/
theorem toList_perm [DecidableEq κ] {rows : List (κ × ν)} (hn : (rows.map (·.1)).Nodup)
    (h : ∀ k v, (k, v) ∈ rows ↔ t[k]? = some v) : t.toList.Perm rows := by
  rw [List.perm_ext_iff_of_nodup (toList_nodup t) (.of_map _ hn)]
  rintro ⟨k, v⟩
  rw [mem_toList, h]

/-- What a reverse iterator finds: the last row at or below the key. -/
theorem seekForPrev_eq_some {k : κ} {row : κ × ν} :
    t.seekForPrev k = some row ↔ row ∈ t.toList ∧ (compare row.1 k).isLE ∧
      ∀ row' ∈ t.toList, (compare row'.1 k).isLE → (compare row'.1 row.1).isLE := by
  have hord := ExtTreeMap.ordered_keys_toList (t := t)
  unfold seekForPrev
  constructor
  · intro h
    obtain ⟨init, hinit⟩ := List.getLast?_eq_some_iff.mp h
    have hmem : row ∈ t.toList.filter (fun row => (compare row.1 k).isLE) := by simp [hinit]
    obtain ⟨hrow, hle⟩ := List.mem_filter.mp hmem
    refine ⟨hrow, hle, ?_⟩
    intro row' hrow' hle'
    have hm : row' ∈ init ++ [row] := hinit ▸ List.mem_filter.mpr ⟨hrow', hle'⟩
    rcases List.mem_append.mp hm with hi | hi
    · have hp := hord.filter (fun row => (compare row.1 k).isLE)
      rw [hinit, List.pairwise_append] at hp
      exact Ordering.isLE_iff_ne_gt.mpr (by simp [hp.2.2 row' hi row (by simp)])
    · rw [List.mem_singleton.mp hi]
      simp
  · rintro ⟨hrow, hle, hmax⟩
    have hmem : row ∈ t.toList.filter (fun row => (compare row.1 k).isLE) :=
      List.mem_filter.mpr ⟨hrow, hle⟩
    obtain ⟨init, last, hinit⟩ := List.eq_nil_or_concat' _ |>.resolve_left (List.ne_nil_of_mem hmem)
    rw [hinit, List.getLast?_concat]
    have hp := hord.filter (fun row => (compare row.1 k).isLE)
    rw [hinit, List.pairwise_append] at hp
    rw [hinit] at hmem
    rcases List.mem_append.mp hmem with hi | hi
    · have hlt := hp.2.2 row hi last (by simp)
      have hlast : last ∈ t.toList.filter (fun row => (compare row.1 k).isLE) := by simp [hinit]
      obtain ⟨hl, hlk⟩ := List.mem_filter.mp hlast
      have hge := hmax last hl hlk
      rw [OrientedOrd.eq_swap, hlt] at hge
      cases hge
    · rw [List.mem_singleton.mp hi]

end Order

end Table

end Usdb.Framework
