import Mathlib.Data.List.Induction
import Mathlib.Data.List.Sort

namespace Usdb.Framework

variable {α κ : Type} [DecidableEq κ]

/-- The row of a keyed table. -/
def lookup (key : α → κ) (k : κ) (rows : List α) : Option α :=
  rows.find? (fun r => key r = k)

def modifyRow (key : α → κ) (k : κ) (f : α → α) (rows : List α) : List α :=
  rows.map (fun r => if key r = k then f r else r)

/-- Insert a row, or replace the row that has its key. -/
def upsert (key : α → κ) (a : α) (rows : List α) : List α :=
  match lookup key (key a) rows with
  | none => rows ++ [a]
  | some _ => modifyRow key (key a) (fun _ => a) rows

theorem lookup_some_key (key : α → κ) (k : κ) (rows : List α) (a : α)
    (h : lookup key k rows = some a) : key a = k := by
  simpa using List.find?_some h

theorem lookup_some_mem (key : α → κ) (k : κ) (rows : List α) (a : α)
    (h : lookup key k rows = some a) : a ∈ rows :=
  List.mem_of_find?_eq_some h

theorem lookup_eq_none (key : α → κ) (k : κ) (rows : List α) :
    lookup key k rows = none ↔ ∀ r ∈ rows, key r ≠ k := by
  simp [lookup]

theorem lookup_append (key : α → κ) (k : κ) (rows rows' : List α) :
    lookup key k (rows ++ rows') = (lookup key k rows).or (lookup key k rows') := by
  simp [lookup, List.find?_append]

theorem lookup_singleton (key : α → κ) (k : κ) (a : α) :
    lookup key k [a] = if key a = k then some a else none := by
  by_cases h : key a = k <;> simp [lookup, h]

theorem lookup_modifyRow_self (key : α → κ) (k : κ) (f : α → α) (rows : List α)
    (hf : ∀ r, key r = k → key (f r) = k) :
    lookup key k (modifyRow key k f rows) = (lookup key k rows).map f := by
  induction rows with
  | nil => rfl
  | cons r rows ih =>
    by_cases h : key r = k
    · simp [lookup, modifyRow, h, hf r h]
    · simpa [lookup, modifyRow, h] using ih

theorem lookup_modifyRow_of_ne (key : α → κ) (k k' : κ) (f : α → α) (rows : List α)
    (hf : ∀ r, key r = k → key (f r) = k) (hne : k' ≠ k) :
    lookup key k' (modifyRow key k f rows) = lookup key k' rows := by
  induction rows with
  | nil => rfl
  | cons r rows ih =>
    by_cases h : key r = k
    · simpa [lookup, modifyRow, h, hf r h, hne.symm] using ih
    · by_cases h' : key r = k'
      · simp [lookup, modifyRow, h', hne]
      · simpa [lookup, modifyRow, h, h'] using ih

theorem lookup_modifyRow (key : α → κ) (k k' : κ) (f : α → α) (rows : List α)
    (hf : ∀ r, key r = k → key (f r) = k) :
    lookup key k' (modifyRow key k f rows) =
      if k' = k then (lookup key k rows).map f else lookup key k' rows := by
  by_cases h : k' = k
  · rw [if_pos h, h, lookup_modifyRow_self key k f rows hf]
  · rw [if_neg h, lookup_modifyRow_of_ne key k k' f rows hf h]

theorem lookup_upsert (key : α → κ) (a : α) (k : κ) (rows : List α) :
    lookup key k (upsert key a rows) = if k = key a then some a else lookup key k rows := by
  unfold upsert
  cases h : lookup key (key a) rows with
  | none =>
    dsimp only
    rw [lookup_append, lookup_singleton]
    by_cases hk : k = key a
    · rw [hk, h]; simp
    · rw [if_neg hk, if_neg (fun he => hk he.symm)]; simp
  | some b =>
    dsimp only
    rw [lookup_modifyRow key (key a) k (fun _ => a) rows (fun _ _ => rfl)]
    by_cases hk : k = key a
    · rw [if_pos hk, if_pos hk, h]; rfl
    · rw [if_neg hk, if_neg hk]

theorem lookup_filter_of_key (key : α → κ) (k : κ) (p : α → Bool) (rows : List α)
    (hp : ∀ r, key r = k → p r = true) : lookup key k (rows.filter p) = lookup key k rows := by
  induction rows with
  | nil => rfl
  | cons r rows ih =>
    by_cases h : key r = k
    · simp [lookup, hp r h, h]
    · by_cases hr : p r = true
      · simpa [lookup, hr, h] using ih
      · simpa [lookup, hr, h] using ih

theorem modifyRow_keys (key : α → κ) (k : κ) (f : α → α) (rows : List α)
    (hf : ∀ r, key r = k → key (f r) = k) : (modifyRow key k f rows).map key = rows.map key := by
  simp only [modifyRow, List.map_map]
  refine List.map_congr_left (fun r _ => ?_)
  by_cases h : key r = k
  · simp [h, hf r h]
  · simp [h]

/-- With distinct keys, membership is lookup. -/
theorem lookup_of_mem (key : α → κ) (rows : List α) (a : α) (hn : (rows.map key).Nodup)
    (ha : a ∈ rows) : lookup key (key a) rows = some a := by
  induction rows with
  | nil => cases ha
  | cons r rows ih =>
    rw [List.map_cons, List.nodup_cons] at hn
    rcases List.mem_cons.mp ha with rfl | hmem
    · simp [lookup]
    · have hne : key r ≠ key a := fun h => hn.1 (h ▸ List.mem_map_of_mem hmem)
      simpa [lookup, hne] using ih hn.2 hmem

theorem lookup_perm (key : α → κ) {rows rows' : List α} (hp : rows.Perm rows')
    (hn : (rows.map key).Nodup) (k : κ) : lookup key k rows = lookup key k rows' := by
  have hn' : (rows'.map key).Nodup := (hp.map key).nodup_iff.mp hn
  cases hl : lookup key k rows with
  | none =>
    symm
    rw [lookup_eq_none] at hl ⊢
    exact fun r hr => hl r (hp.mem_iff.mpr hr)
  | some row =>
    have hkey := lookup_some_key _ _ _ _ hl
    have hmem := hp.mem_iff.mp (lookup_some_mem _ _ _ _ hl)
    rw [← hkey]
    exact (lookup_of_mem _ _ _ hn' hmem).symm

/-- With distinct keys a row is looked up through a selection that keeps its key. -/
theorem lookup_filterMap (key : α → κ) (f : α → Option α) (k : κ) (rows : List α)
    (hn : (rows.map key).Nodup) (hf : ∀ r r', f r = some r' → key r' = key r) :
    lookup key k (rows.filterMap f) = (lookup key k rows).bind f := by
  induction rows with
  | nil => rfl
  | cons r rows ih =>
    rw [List.map_cons, List.nodup_cons] at hn
    have hcons : lookup key k (r :: rows) = if key r = k then some r else lookup key k rows := by
      by_cases h : key r = k <;> simp [lookup, h]
    rw [hcons]
    cases hr : f r with
    | none =>
      rw [List.filterMap_cons_none hr, ih hn.2]
      by_cases h : key r = k
      · have hnone : lookup key k rows = none := by
          rw [lookup_eq_none]
          intro r' hr' he
          exact hn.1 (h.trans he.symm ▸ List.mem_map_of_mem hr')
        rw [if_pos h, hnone, Option.bind_some, hr, Option.bind_none]
      · rw [if_neg h]
    | some r' =>
      rw [List.filterMap_cons_some hr]
      by_cases h : key r = k
      · rw [if_pos h, Option.bind_some, hr]
        simp [lookup, hf r r' hr, h]
      · rw [if_neg h, ← ih hn.2]
        simp [lookup, hf r r' hr, h]

theorem mem_upsert (key : α → κ) (a r : α) (rows : List α) (h : r ∈ upsert key a rows) :
    r = a ∨ r ∈ rows := by
  unfold upsert at h
  split at h
  · rw [List.mem_append, List.mem_singleton] at h
    exact h.symm
  · obtain ⟨r', hr', he⟩ := List.mem_map.mp h
    split at he
    · exact .inl he.symm
    · exact .inr (he ▸ hr')

/-- A selection that never takes the new row nor one with its key does not see the
insertion. -/
theorem filter_upsert (key : α → κ) (a : α) (p : α → Bool) (rows : List α)
    (hp : ∀ r, key r = key a → p r = false) :
    (upsert key a rows).filter p = rows.filter p := by
  unfold upsert
  split
  · rw [List.filter_append, List.filter_cons_of_neg (by simp [hp a rfl]), List.filter_nil,
      List.append_nil]
  · rename_i hfound
    clear hfound
    unfold modifyRow
    induction rows with
    | nil => rfl
    | cons r rows ih =>
      rw [List.map_cons]
      by_cases h : key r = key a
      · rw [if_pos h, List.filter_cons_of_neg (by simp [hp a rfl]),
          List.filter_cons_of_neg (by simp [hp r h])]
        exact ih
      · rw [if_neg h, List.filter_cons, List.filter_cons, ih]

/-- With distinct keys a modification only sees the row it changes. -/
theorem modifyRow_eq_const (key : α → κ) (k : κ) (f : α → α) (rows : List α) (a : α)
    (hn : (rows.map key).Nodup) (h : lookup key k rows = some a) :
    modifyRow key k f rows = modifyRow key k (fun _ => f a) rows := by
  unfold modifyRow
  refine List.map_congr_left (fun r hr => ?_)
  by_cases hk : key r = k
  · have hr' := lookup_of_mem key rows r hn hr
    rw [hk, h, Option.some.injEq] at hr'
    rw [if_pos hk, if_pos hk, hr']
  · rw [if_neg hk, if_neg hk]

section Extremum

/-- The element with the greatest key, the earliest such on ties. -/
def maxBy (key : α → Nat) (rows : List α) : Option α :=
  rows.foldl (fun best a =>
    match best with
    | none => some a
    | some b => if key b < key a then some a else some b) none

/-- The element with the least key, the earliest such on ties. -/
def minBy (key : α → Nat) (rows : List α) : Option α :=
  rows.foldl (fun best a =>
    match best with
    | none => some a
    | some b => if key a < key b then some a else some b) none

theorem maxBy_append_singleton (key : α → Nat) (rows : List α) (a : α) :
    maxBy key (rows ++ [a]) =
      match maxBy key rows with
      | none => some a
      | some b => if key b < key a then some a else some b := by
  simp [maxBy, List.foldl_append]

theorem maxBy_mem (key : α → Nat) (rows : List α) (a : α) (h : maxBy key rows = some a) :
    a ∈ rows := by
  induction rows using List.reverseRecOn generalizing a with
  | nil => cases h
  | append_singleton rows b ih =>
    rw [maxBy_append_singleton] at h
    cases hm : maxBy key rows with
    | none =>
      rw [hm] at h
      simp only [Option.some.injEq] at h
      simp [h]
    | some c =>
      rw [hm] at h
      dsimp only at h
      split at h
      · simp only [Option.some.injEq] at h
        simp [h]
      · exact List.mem_append_left _ (ih a (by rw [hm, h]))

/-- The maximum is an upper bound, and there is one unless the table is empty. -/
theorem maxBy_le (key : α → Nat) (rows : List α) (a : α) (h : a ∈ rows) :
    ∃ m, maxBy key rows = some m ∧ key a ≤ key m := by
  induction rows using List.reverseRecOn with
  | nil => cases h
  | append_singleton rows b ih =>
    rw [maxBy_append_singleton]
    rcases List.mem_append.mp h with h | h
    · obtain ⟨m, hm, hle⟩ := ih h
      rw [hm]
      dsimp only
      split
      · exact ⟨b, rfl, by omega⟩
      · exact ⟨m, rfl, hle⟩
    · obtain rfl := List.mem_singleton.mp h
      cases maxBy key rows with
      | none => exact ⟨a, rfl, Nat.le_refl _⟩
      | some c =>
        dsimp only
        split
        · exact ⟨a, rfl, Nat.le_refl _⟩
        · exact ⟨c, rfl, by omega⟩

/-- With ascending keys the maximum is the last element. -/
theorem maxBy_eq_getLast? (key : α → Nat) (rows : List α)
    (hs : rows.Pairwise (fun a b => key a < key b)) : maxBy key rows = rows.getLast? := by
  induction rows using List.reverseRecOn with
  | nil => rfl
  | append_singleton rows b ih =>
    rw [List.pairwise_append] at hs
    rw [maxBy_append_singleton, ih hs.1, List.getLast?_append]
    cases hl : rows.getLast? with
    | none => simp
    | some c =>
      have hlt : key c < key b := hs.2.2 c (List.mem_of_getLast? hl) b (by simp)
      simp [hlt]

/-- A list in which no element comes before a later one is sorted from its last. -/
theorem head?_insertionSort_of_ascending (r : α → α → Prop) [DecidableRel r] {rows : List α}
    (h : rows.Pairwise (fun a b => ¬r a b)) : (rows.insertionSort r).head? = rows.getLast? := by
  induction rows with
  | nil => rfl
  | cons a rows ih =>
    rw [List.pairwise_cons] at h
    have ih := ih h.2
    cases hs : rows.insertionSort r with
    | nil =>
      rw [hs] at ih
      have hnil : rows = [] := List.getLast?_eq_none_iff.mp ih.symm
      subst hnil
      rfl
    | cons b rest =>
      rw [hs] at ih
      have hlast : rows.getLast? = some b := ih.symm
      have hnot : ¬r a b := h.1 b (List.mem_of_getLast? hlast)
      rw [List.insertionSort_cons, hs, List.orderedInsert_cons, if_neg hnot, List.getLast?_cons,
        hlast]
      rfl

end Extremum

end Usdb.Framework
