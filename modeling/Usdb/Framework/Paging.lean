import Mathlib.Data.List.Sort

namespace Usdb.Framework.Paging

variable {α : Type}

/-- The rows of a page: those behind an offset, up to a limit. -/
def slice (rows : List α) (size index : Nat) : List α :=
  (rows.drop (index * size)).take size

theorem slice_eq_nil {rows : List α} {size index : Nat} (h : rows.length ≤ index * size) :
    slice rows size index = [] := by
  unfold slice
  rw [List.drop_of_length_le h, List.take_nil]

theorem slice_length (rows : List α) (size index : Nat) :
    (slice rows size index).length = min size (rows.length - index * size) := by
  unfold slice
  rw [List.length_take, List.length_drop]

theorem getElem?_slice (rows : List α) {size index i : Nat} (hi : i < size) :
    (slice rows size index)[i]? = rows[index * size + i]? := by
  unfold slice
  rw [List.getElem?_take_of_lt hi, List.getElem?_drop]

theorem take_succ_slice (rows : List α) (size index : Nat) :
    rows.take ((index + 1) * size) = rows.take (index * size) ++ slice rows size index := by
  unfold slice
  rw [Nat.succ_mul, List.take_add]

/-- The first pages together are the first rows. -/
theorem flatMap_slice (rows : List α) (size pages : Nat) :
    (List.range pages).flatMap (slice rows size) = rows.take (pages * size) := by
  induction pages with
  | zero => simp
  | succ pages ih =>
    rw [List.range_succ, List.flatMap_append, ih, List.flatMap_singleton, take_succ_slice]

/-- The rows cut into pieces of one size, the last of which may be shorter. -/
def chunks (size : Nat) (rows : List α) : List (List α) :=
  (List.range ((rows.length + size - 1) / size)).map (slice rows size)

theorem flatten_chunks {size : Nat} (hsize : 0 < size) (rows : List α) :
    (chunks size rows).flatten = rows := by
  have hcover : rows.length ≤ (rows.length + size - 1) / size * size := by
    have hdiv := Nat.div_add_mod (rows.length + size - 1) size
    have hmod := Nat.mod_lt (rows.length + size - 1) hsize
    rw [Nat.mul_comm] at hdiv
    omega
  unfold chunks
  rw [← List.flatMap_def, flatMap_slice, List.take_of_length_le hcover]

section Ties

variable {key : α → Nat} {rows rows' : List α} {size index : Nat}

/-- The rows in descending order of a key, tied rows in any order. -/
def Descending (key : α → Nat) (rows : List α) : Prop :=
  rows.Pairwise (fun a b => key b ≤ key a)

/-- The rows above a key come first. -/
theorem Descending.take_countP (h : Descending key rows) (t : Nat) :
    rows.take (rows.countP (fun a => t < key a)) = rows.filter (fun a => t < key a) := by
  induction rows with
  | nil => rfl
  | cons a rest ih =>
    obtain ⟨hfirst, hrest⟩ := List.pairwise_cons.mp h
    by_cases ha : t < key a
    · rw [List.countP_cons_of_pos (by simpa using ha), List.filter_cons_of_pos (by simpa using ha),
        List.take_succ_cons, ih hrest]
    · have hnone : ∀ b ∈ a :: rest, ¬ (decide (t < key b) = true) := by
        intro b hb
        rcases List.mem_cons.mp hb with rfl | hb
        · simpa using ha
        · have hle := hfirst b hb
          simp only [decide_eq_true_eq]
          omega
      rw [List.countP_eq_zero.mpr hnone, List.filter_eq_nil_iff.mpr hnone, List.take_zero]

/-- No two tied rows lie on both sides of a position. -/
def CleanCut (key : α → Nat) (rows : List α) (cut : Nat) : Prop :=
  ∀ t, rows.countP (fun a => t < key a) < cut → rows.countP (fun a => t ≤ key a) ≤ cut

theorem CleanCut.perm (hp : rows.Perm rows') {cut : Nat} (h : CleanCut key rows cut) :
    CleanCut key rows' cut := by
  intro t
  rw [← hp.countP_eq, ← hp.countP_eq]
  exact h t

theorem Descending.countP_gt_le (h : Descending key rows) {cut : Nat} {a : α}
    (ha : rows[cut]? = some a) : rows.countP (fun b => key a < key b) ≤ cut := by
  by_contra hmany
  obtain ⟨hcut, rfl⟩ := List.getElem?_eq_some_iff.mp ha
  have htake := h.take_countP (key rows[cut])
  have hmem : rows[cut] ∈ rows.take (rows.countP (fun b => key rows[cut] < key b)) :=
    List.mem_take_iff_getElem.mpr ⟨cut, by omega, rfl⟩
  rw [htake, List.mem_filter] at hmem
  simp at hmem

theorem Descending.lt_countP_ge (h : Descending key rows) {cut : Nat} {a : α}
    (ha : rows[cut]? = some a) : cut < rows.countP (fun b => key a ≤ key b) := by
  obtain ⟨hcut, rfl⟩ := List.getElem?_eq_some_iff.mp ha
  have hall : ∀ b ∈ rows.take (cut + 1), decide (key rows[cut] ≤ key b) = true := by
    intro b hb
    obtain ⟨i, hi, rfl⟩ := List.mem_take_iff_getElem.mp hb
    rcases Nat.lt_or_ge i cut with hlt | hge
    · simpa using List.pairwise_iff_getElem.mp h i cut (by omega) hcut hlt
    · obtain rfl : i = cut := by omega
      simp
  calc cut < (rows.take (cut + 1)).length := by rw [List.length_take]; omega
    _ = (rows.take (cut + 1)).countP (fun b => key rows[cut] ≤ key b) :=
      (List.countP_eq_length.mpr hall).symm
    _ ≤ rows.countP (fun b => key rows[cut] ≤ key b) := (List.take_sublist _ _).countP_le

/-- Up to a cut that splits no tie, two orders have the same rows. -/
theorem CleanCut.take_perm (hp : rows.Perm rows') (h : Descending key rows)
    (h' : Descending key rows') {cut : Nat} (hc : CleanCut key rows cut) :
    (rows.take cut).Perm (rows'.take cut) := by
  cases hrow : rows[cut]? with
  | none =>
    have hlen := List.getElem?_eq_none_iff.mp hrow
    rw [List.take_of_length_le hlen, List.take_of_length_le (hp.length_eq ▸ hlen)]
    exact hp
  | some a =>
    have hle := h.countP_gt_le hrow
    have hlt := h.lt_countP_ge hrow
    have hcut : rows.countP (fun b => key a < key b) = cut := by
      by_contra hne
      have := hc (key a) (by omega)
      omega
    have hcut' : rows'.countP (fun b => key a < key b) = cut := by rw [← hp.countP_eq, hcut]
    have htake := h.take_countP (key a)
    have htake' := h'.take_countP (key a)
    rw [hcut] at htake
    rw [hcut'] at htake'
    rw [htake, htake']
    exact hp.filter _

/-- A page between two such cuts has the same rows in both orders. -/
theorem slice_perm (hp : rows.Perm rows') (h : Descending key rows) (h' : Descending key rows')
    (hc : CleanCut key rows (index * size)) (hc' : CleanCut key rows ((index + 1) * size)) :
    (slice rows size index).Perm (slice rows' size index) := by
  have hlow := hc.take_perm hp h h'
  have hhigh := hc'.take_perm hp h h'
  rw [take_succ_slice, take_succ_slice] at hhigh
  exact (List.perm_append_left_iff _).mp (hhigh.trans (hlow.symm.append_right _))

/-- A split tie has a row on each side of the cut. -/
theorem Descending.split (h : Descending key rows) {cut : Nat} (hc : ¬ CleanCut key rows cut) :
    ∃ before a b after, rows = before ++ a :: b :: after ∧ before.length + 1 = cut ∧
      key a = key b := by
  unfold CleanCut at hc
  push Not at hc
  obtain ⟨t, hlow, hhigh⟩ := hc
  have hlen : cut < rows.length := Nat.lt_of_lt_of_le hhigh List.countP_le_length
  have hkey : ∀ i (hi : i < rows.length), i = cut - 1 ∨ i = cut → key rows[i] = t := by
    intro i hi hside
    have hgt := h.countP_gt_le (List.getElem?_eq_getElem hi)
    have hge := h.lt_countP_ge (List.getElem?_eq_getElem hi)
    rcases Nat.lt_trichotomy (key rows[i]) t with hlt | heq | hgt'
    · -- every row from here on is below `t`
      have hmono : rows.countP (fun b => t ≤ key b) ≤ rows.countP (fun b => key rows[i] < key b) :=
        List.countP_mono_left (fun b _ hb => by
          simp only [decide_eq_true_eq] at hb ⊢
          omega)
      omega
    · exact heq
    · have hmono : rows.countP (fun b => key rows[i] ≤ key b) ≤ rows.countP (fun b => t < key b) :=
        List.countP_mono_left (fun b _ hb => by
          simp only [decide_eq_true_eq] at hb ⊢
          omega)
      omega
  have hpos : 0 < cut := by omega
  refine ⟨rows.take (cut - 1), rows[cut - 1], rows[cut], rows.drop (cut + 1), ?_, ?_, ?_⟩
  · conv_lhs => rw [← List.take_append_drop (cut - 1) rows]
    rw [List.drop_eq_getElem_cons (show cut - 1 < rows.length by omega)]
    have hsucc : cut - 1 + 1 = cut := by omega
    rw [hsucc, List.drop_eq_getElem_cons hlen]
  · rw [List.length_take]
    omega
  · rw [hkey (cut - 1) (by omega) (.inl rfl), hkey cut hlen (.inr rfl)]

/-- Tied neighbours can change places. -/
theorem Descending.swap {before after : List α} {a b : α}
    (h : Descending key (before ++ a :: b :: after)) (hab : key a = key b) :
    Descending key (before ++ b :: a :: after) := by
  unfold Descending at h ⊢
  simp only [List.pairwise_append, List.pairwise_cons, List.mem_cons, forall_eq_or_imp] at h ⊢
  obtain ⟨hbefore, ⟨⟨-, ha⟩, hb, hafter⟩, hcross⟩ := h
  exact ⟨hbefore, ⟨⟨hab.le, hb⟩, ha, hafter⟩, fun c hc =>
    ⟨(hcross c hc).2.1, (hcross c hc).1, (hcross c hc).2.2⟩⟩

end Ties

end Usdb.Framework.Paging
