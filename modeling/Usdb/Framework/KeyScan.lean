import Usdb.Framework.OrderedTable

namespace Usdb.Framework

open Std

section Sorted

variable {α : Type}

/-- Where a property holds of everything before something it holds of, stopping at the
first failure finds all of it. -/
theorem takeWhile_eq_filter {r : α → α → Prop} {p : α → Bool} {l : List α} (hl : l.Pairwise r)
    (hp : ∀ a ∈ l, ∀ b ∈ l, r a b → p b = true → p a = true) : l.takeWhile p = l.filter p := by
  induction l with
  | nil => rfl
  | cons a l ih =>
    rw [List.pairwise_cons] at hl
    have htail := ih hl.2 (fun b hb c hc => hp b (by simp [hb]) c (by simp [hc]))
    cases ha : p a with
    | true =>
      rw [List.takeWhile_cons_of_pos ha, List.filter_cons_of_pos ha, htail]
    | false =>
      rw [List.takeWhile_cons_of_neg (by simp [ha]), List.filter_cons_of_neg (by simp [ha])]
      refine (List.filter_eq_nil_iff.mpr ?_).symm
      intro b hb hpb
      have := hp a (by simp) b (by simp [hb]) (hl.1 b hb) hpb
      rw [ha] at this
      cases this

end Sorted

namespace Table

variable {κ ν : Type} [Ord κ] [TransOrd κ]

/-- What an iterator positioned at a key yields in ascending order. -/
def ascend (t : Table κ ν) (k : κ) : List (κ × ν) :=
  t.toList.filter (fun row => (compare k row.1).isLE)

/-- What an iterator positioned at a key yields in descending order. -/
def descend (t : Table κ ν) (k : κ) : List (κ × ν) :=
  (t.toList.filter (fun row => (compare row.1 k).isLE)).reverse

/-- What an iterator positioned at the end yields. -/
def descendAll (t : Table κ ν) : List (κ × ν) := t.toList.reverse

section Scan

variable {t : Table κ ν} {k : κ} {row : κ × ν} {p : κ × ν → Bool}

theorem mem_ascend : row ∈ t.ascend k ↔ row ∈ t.toList ∧ (compare k row.1).isLE := by
  unfold ascend
  rw [List.mem_filter]

theorem mem_descend : row ∈ t.descend k ↔ row ∈ t.toList ∧ (compare row.1 k).isLE := by
  unfold descend
  rw [List.mem_reverse, List.mem_filter]

theorem toList_pairwise (t : Table κ ν) :
    t.toList.Pairwise (fun a b => compare a.1 b.1 = .lt) :=
  ExtTreeMap.ordered_keys_toList

theorem ascend_pairwise (t : Table κ ν) (k : κ) :
    (t.ascend k).Pairwise (fun a b => compare a.1 b.1 = .lt) :=
  (toList_pairwise t).filter _

theorem descend_pairwise (t : Table κ ν) (k : κ) :
    (t.descend k).Pairwise (fun a b => compare b.1 a.1 = .lt) := by
  unfold descend
  rw [List.pairwise_reverse]
  exact (toList_pairwise t).filter _

/-- An ascending loop that stops at the first row outside finds all rows inside, when
these are an initial piece of what the iterator yields. -/
theorem takeWhile_ascend (hp : ∀ a ∈ t.ascend k, ∀ b ∈ t.ascend k, compare a.1 b.1 = .lt →
      p b = true → p a = true) :
    (t.ascend k).takeWhile p = t.toList.filter (fun row => (compare k row.1).isLE && p row) := by
  rw [takeWhile_eq_filter (ascend_pairwise t k) hp]
  unfold ascend
  rw [List.filter_filter]
  congr 1
  funext row
  rw [Bool.and_comm]

theorem takeWhile_descend (hp : ∀ a ∈ t.descend k, ∀ b ∈ t.descend k, compare b.1 a.1 = .lt →
      p b = true → p a = true) :
    (t.descend k).takeWhile p =
      (t.toList.filter (fun row => (compare row.1 k).isLE && p row)).reverse := by
  rw [takeWhile_eq_filter (descend_pairwise t k) hp]
  unfold descend
  rw [List.filter_reverse, List.filter_filter]
  congr 2
  funext row
  rw [Bool.and_comm]

theorem nodup_takeWhile_descend (t : Table κ ν) (k : κ) (p : κ × ν → Bool) :
    ((t.descend k).takeWhile p).Nodup := by
  apply ((descend_pairwise t k).sublist (List.takeWhile_sublist p)).imp
  intro a b hlt heq
  rw [heq, Std.compare_self] at hlt
  cases hlt

end Scan

section Shards

variable [LawfulEqOrd κ] {t : Table κ ν}

/-- The shards of a table together have every row once. -/
theorem shards_perm {shardOf : κ → UInt8} {rows : UInt8 → List (κ × ν)}
    (hmem : ∀ i row, row ∈ rows i ↔ row ∈ t.toList ∧ shardOf row.1 = i)
    (hn : ∀ i, (rows i).Nodup) :
    ((List.range 256).flatMap (fun i => rows (UInt8.ofNat i))).Perm t.toList := by
  apply (List.perm_ext_iff_of_nodup ?_ (toList_nodup t)).mpr
  · intro row
    rw [List.mem_flatMap]
    constructor
    · rintro ⟨i, -, hrow⟩
      exact ((hmem _ row).mp hrow).1
    · intro hrow
      refine ⟨(shardOf row.1).toNat, List.mem_range.mpr (UInt8.toNat_lt _), ?_⟩
      rw [hmem, UInt8.ofNat_toNat]
      exact ⟨hrow, rfl⟩
  · rw [List.nodup_flatMap]
    refine ⟨fun i _ => hn _, ?_⟩
    apply List.nodup_range.pairwise_of_forall_ne
    intro i hi j hj hne row hrow hrow'
    have hshard := ((hmem _ row).mp hrow).2
    rw [((hmem _ row).mp hrow').2, ← UInt8.toNat_inj, UInt8.toNat_ofNat', UInt8.toNat_ofNat',
      Nat.mod_eq_of_lt (List.mem_range.mp hi), Nat.mod_eq_of_lt (List.mem_range.mp hj)] at hshard
    exact hne hshard.symm

end Shards

section Band

variable [LawfulEqOrd κ] {t : Table κ ν} {key : Nat → κ} {first count : Nat}

/-- The rows at the keys of consecutive numbers, in their order. -/
def band (t : Table κ ν) (key : Nat → κ) (first count : Nat) : List (κ × ν) :=
  (List.range' first count).filterMap (fun n => t[key n]?.map (fun value => (key n, value)))

theorem mem_band {row : κ × ν} :
    row ∈ t.band key first count ↔
      row ∈ t.toList ∧ ∃ n, first ≤ n ∧ n < first + count ∧ row.1 = key n := by
  unfold band
  rw [List.mem_filterMap]
  constructor
  · rintro ⟨n, hn, hrow⟩
    obtain ⟨value, hget, rfl⟩ := Option.map_eq_some_iff.mp hrow
    rw [List.mem_range'_1] at hn
    exact ⟨mem_toList.mpr hget, n, hn.1, hn.2, rfl⟩
  · rintro ⟨hmem, n, hfirst, hlast, hkey⟩
    obtain ⟨k, value⟩ := row
    obtain rfl : k = key n := hkey
    refine ⟨n, by rw [List.mem_range'_1]; exact ⟨hfirst, hlast⟩, ?_⟩
    rw [mem_toList.mp hmem]
    rfl

/-- When the keys are ordered as their numbers, the rows of a band are the table's rows
with these keys. -/
theorem filter_eq_band {p : κ × ν → Bool}
    (hkey : ∀ m n, first ≤ m → m < n → n < first + count → compare (key m) (key n) = .lt)
    (hp : ∀ row ∈ t.toList, p row = true ↔
      ∃ n, first ≤ n ∧ n < first + count ∧ row.1 = key n) :
    t.toList.filter p = t.band key first count := by
  have hsorted : (t.band key first count).Pairwise (fun a b => compare a.1 b.1 = .lt) := by
    unfold band
    rw [List.pairwise_filterMap]
    refine List.Pairwise.imp_of_mem ?_ List.pairwise_lt_range'
    intro m n hm hn hlt a ha b hb
    rw [List.mem_range'_1] at hm hn
    obtain ⟨_, -, rfl⟩ := Option.map_eq_some_iff.mp ha
    obtain ⟨_, -, rfl⟩ := Option.map_eq_some_iff.mp hb
    exact hkey m n hm.1 hlt hn.2
  have hirrefl : ∀ {l : List (κ × ν)}, l.Pairwise (fun a b => compare a.1 b.1 = .lt) → l.Nodup := by
    intro l hl
    refine hl.imp ?_
    intro a b hlt heq
    rw [heq, compare_self] at hlt
    cases hlt
  have hfiltered := (toList_pairwise t).filter p
  have hperm : (t.toList.filter p).Perm (t.band key first count) := by
    refine (List.perm_ext_iff_of_nodup (hirrefl hfiltered) (hirrefl hsorted)).mpr ?_
    intro row
    rw [List.mem_filter, mem_band]
    constructor
    · rintro ⟨hmem, hrow⟩
      exact ⟨hmem, (hp row hmem).mp hrow⟩
    · rintro ⟨hmem, hrow⟩
      exact ⟨hmem, (hp row hmem).mpr hrow⟩
  refine hperm.eq_of_pairwise ?_ hfiltered hsorted
  intro a b _ _ hab hba
  rw [OrientedOrd.eq_swap, hba] at hab
  cases hab

end Band

end Table

end Usdb.Framework
