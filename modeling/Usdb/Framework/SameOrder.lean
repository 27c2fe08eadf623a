import Mathlib.Data.List.Sort

namespace Usdb.Framework

variable {α β κ ι M : Type} [DecidableEq κ] [DecidableEq ι]

/-- Two lists that hold the same elements in the same order as far as elements of one
key are concerned. -/
def SameBy (key : α → κ) (l l' : List α) : Prop :=
  ∀ k, l.filter (fun a => key a = k) = l'.filter (fun a => key a = k)

namespace SameBy

variable {key : α → κ} {l l' r r' : List α}

theorem refl (key : α → κ) (l : List α) : SameBy key l l :=
  fun _ => rfl

theorem append (h : SameBy key l l') (h' : SameBy key r r') : SameBy key (l ++ r) (l' ++ r') := by
  intro k
  rw [List.filter_append, List.filter_append, h k, h' k]

/-- With distinct keys any reordering will do. -/
theorem of_perm (h : l.Perm l') (hn : (l.map key).Nodup) : SameBy key l l' := by
  intro k
  have hp := h.filter (fun a => key a = k)
  have hlen : (l.filter (fun a => key a = k)).length ≤ 1 := by
    rw [← List.countP_eq_length_filter]
    have hcount := List.nodup_iff_count_le_one.mp hn k
    rw [List.count, List.countP_map] at hcount
    exact hcount
  match hl : l.filter (fun a => key a = k) with
  | [] =>
    rw [hl] at hp
    exact hp.nil_eq
  | [a] =>
    rw [hl] at hp
    exact hp.singleton_eq
  | a :: b :: rest =>
    rw [hl] at hlen
    simp at hlen

theorem perm (h : SameBy key l l') : l.Perm l' := by
  classical
  rw [List.perm_iff_count]
  intro a
  have hk := congrArg (List.count a) (h (key a))
  rwa [List.count_filter (by simp), List.count_filter (by simp)] at hk

/-- A selection whose keys tell the keys of what was selected. -/
theorem filterMap {f : α → Option β} {key' : β → ι} {c : ι → κ} (h : SameBy key l l')
    (hc : ∀ a b, f a = some b → key a = c (key' b)) :
    SameBy key' (l.filterMap f) (l'.filterMap f) := by
  have hsel : ∀ (k : ι) (l : List α), (l.filterMap f).filter (fun b => key' b = k) =
      ((l.filter (fun a => key a = c k)).filterMap f).filter (fun b => key' b = k) := by
    intro k l
    rw [List.filter_filterMap, List.filter_filterMap, List.filterMap_filter]
    refine List.filterMap_congr (fun a _ => ?_)
    cases hf : f a with
    | none => simp
    | some b =>
      by_cases hk : key' b = k
      · simp [hc a b hf, hk]
      · simp [hk]
  intro k
  rw [hsel k l, hsel k l', h]

theorem map {f : α → β} {key' : β → ι} {c : ι → κ} (h : SameBy key l l')
    (hc : ∀ a, key a = c (key' (f a))) : SameBy key' (l.map f) (l'.map f) := by
  have hkeys : ∀ a b, some (f a) = some b → key a = c (key' b) := by
    intro a b hb
    cases hb
    exact hc a
  have hf := h.filterMap hkeys
  simpa only [List.filterMap_eq_map'] using hf

end SameBy

/-- Steps that each change one component of a state, selected by a key: elements of
different keys may be taken in any order. -/
theorem SameBy.foldl {key : α → κ} {l l' : List α} {op : M → α → M} {R : κ → M → M → Prop}
    (h : SameBy key l l') (htrans : ∀ k m₁ m₂ m₃, R k m₁ m₂ → R k m₂ m₃ → R k m₁ m₃)
    (hsymm : ∀ k m₁ m₂, R k m₁ m₂ → R k m₂ m₁)
    (hkeep : ∀ k a m m', R k m m' → R k (op m a) (op m' a))
    (hother : ∀ k a m, key a ≠ k → R k (op m a) m) {k : κ} {m m' : M} (hm : R k m m') :
    R k (l.foldl op m) (l'.foldl op m') := by
  have hfilter : ∀ (l : List α) (m m' : M), R k m m' →
      R k (l.foldl op m) ((l.filter (fun a => key a = k)).foldl op m') := by
    intro l
    induction l with
    | nil => exact fun m m' hm => hm
    | cons a l ih =>
      intro m m' hm
      rw [List.foldl_cons]
      by_cases ha : key a = k
      · rw [List.filter_cons_of_pos (by simp [ha]), List.foldl_cons]
        exact ih _ _ (hkeep k a m m' hm)
      · rw [List.filter_cons_of_neg (by simp [ha])]
        exact ih _ _ (htrans k _ _ _ (hother k a m ha) hm)
  have hl := hfilter l m m' hm
  have hl' := hfilter l' m' m' (htrans k _ _ _ (hsymm k _ _ hm) hm)
  rw [h k] at hl
  exact htrans k _ _ _ hl (hsymm k _ _ hl')

section Sorting

variable [LinearOrder κ] (key : α → κ) [DecidableRel (fun a b : α => key a ≤ key b)]

theorem filter_orderedInsert (k : κ) (a : α) (l : List α)
    (hs : l.Pairwise (fun a b => key a ≤ key b)) :
    (l.orderedInsert (fun a b => key a ≤ key b) a).filter (fun b => key b = k) =
      (a :: l).filter (fun b => key b = k) := by
  induction l with
  | nil => rfl
  | cons b l ih =>
    rw [List.orderedInsert_cons]
    split
    · rfl
    · rename_i hab
      have ihl := ih hs.of_cons
      by_cases ha : key a = k
      · have hb : key b ≠ k := fun hb => hab (by rw [ha, hb])
        rw [List.filter_cons_of_neg (by simp [hb]), ihl, List.filter_cons_of_pos (by simp [ha]),
          List.filter_cons_of_pos (by simp [ha]), List.filter_cons_of_neg (by simp [hb])]
      · rw [List.filter_cons_of_neg (p := fun b => key b = k) (a := a) (by simp [ha])] at ihl ⊢
        rw [List.filter_cons, List.filter_cons, ihl]

omit [DecidableEq κ] in
theorem insertionSort_sorted (l : List α) :
    (l.insertionSort (fun a b => key a ≤ key b)).Pairwise (fun a b => key a ≤ key b) := by
  have : Std.Total (fun a b : α => key a ≤ key b) := ⟨fun a b => le_total _ _⟩
  have : IsTrans α (fun a b => key a ≤ key b) := ⟨fun _ _ _ => le_trans⟩
  exact List.pairwise_insertionSort _ l

/-- Sorting by a key keeps the order of elements of one key. -/
theorem insertionSort_sameBy (l : List α) :
    SameBy key (l.insertionSort (fun a b => key a ≤ key b)) l := by
  intro k
  induction l with
  | nil => rfl
  | cons a l ih =>
    rw [List.insertionSort_cons, filter_orderedInsert key k a _ (insertionSort_sorted key l),
      List.filter_cons, List.filter_cons, ih]

omit [DecidableRel (fun a b : α => key a ≤ key b)] in
/-- A list sorted by a key is known from its elements of each key. -/
theorem SameBy.eq_of_sorted {l l' : List α} (h : SameBy key l l')
    (hs : l.Pairwise (fun a b => key a ≤ key b)) (hs' : l'.Pairwise (fun a b => key a ≤ key b)) :
    l = l' := by
  induction l generalizing l' with
  | nil => exact h.perm.nil_eq
  | cons a l ih =>
    cases l' with
    | nil => exact h.perm.eq_nil
    | cons b l' =>
      have hle : ∀ {x y : α} {m m' : List α}, (x :: m).Perm (y :: m') →
          (y :: m').Pairwise (fun a b => key a ≤ key b) → key y ≤ key x := by
        intro x y m m' hp hy
        rcases List.mem_cons.mp (hp.subset (List.mem_cons_self ..)) with rfl | hx
        · exact le_refl _
        · exact List.rel_of_pairwise_cons hy hx
      have hkey : key a = key b := le_antisymm (hle h.perm.symm hs) (hle h.perm hs')
      have hhead := h (key a)
      rw [List.filter_cons_of_pos (by simp), List.filter_cons_of_pos (by simp [hkey])] at hhead
      obtain ⟨rfl, -⟩ := List.cons.inj hhead
      have htail : SameBy key l l' := by
        intro k
        have hk := h k
        by_cases ha : key a = k
        · rw [List.filter_cons_of_pos (by simp [ha]), List.filter_cons_of_pos (by simp [ha])] at hk
          exact (List.cons.inj hk).2
        · rwa [List.filter_cons_of_neg (by simp [ha]), List.filter_cons_of_neg (by simp [ha])]
            at hk
      rw [ih htail hs.of_cons hs'.of_cons]

/-- A stable sort does not see a reordering of elements of different keys. -/
theorem SameBy.insertionSort_eq {l l' : List α} (h : SameBy key l l') :
    l.insertionSort (fun a b => key a ≤ key b) = l'.insertionSort (fun a b => key a ≤ key b) := by
  refine SameBy.eq_of_sorted key (fun k => ?_) (insertionSort_sorted key l)
    (insertionSort_sorted key l')
  rw [insertionSort_sameBy key l k, insertionSort_sameBy key l' k, h k]

omit [DecidableEq κ] [DecidableRel (fun a b : α => key a ≤ key b)] in
/-- In a list in strict order an element of a smaller key comes first. -/
theorem pair_sublist_of_lt {l : List α} (hs : l.Pairwise (fun a b => key a < key b)) {a b : α}
    (ha : a ∈ l) (hb : b ∈ l) (h : key a < key b) : [a, b].Sublist l := by
  have : Std.Antisymm (fun a b => key a < key b) :=
    ⟨fun a b hab hba => absurd (hab.trans hba) (lt_irrefl _)⟩
  have hne : a ≠ b := fun he => absurd h (he ▸ lt_irrefl _)
  have hsub : [a, b].Subperm l := by
    refine List.subperm_of_subset (by simp [hne]) ?_
    simp [ha, hb]
  exact List.sublist_of_subperm_of_pairwise (r := fun a b => key a < key b) hsub (by simp [h]) hs

end Sorting

/-- Sorting leaves alone what is read off a part of the list that is sorted already. -/
theorem filterMap_insertionSort (r : α → α → Prop) [DecidableRel r] (f : α → Option β) (l : List α)
    (hs : l.Pairwise (fun a b => (f a).isSome → (f b).isSome → r a b)) :
    (l.insertionSort r).filterMap f = l.filterMap f := by
  have hread : ∀ l : List α, (l.filter (fun a => (f a).isSome)).filterMap f = l.filterMap f := by
    intro l
    rw [List.filterMap_filter]
    refine List.filterMap_congr (fun a _ => ?_)
    cases f a <;> rfl
  have hsub := (List.sublist_insertionSort (List.pairwise_filter.mpr hs)
    List.filter_sublist).filter (fun a => (f a).isSome)
  rw [List.filter_filter, List.filter_congr (fun a _ => Bool.and_self _)] at hsub
  have hlength := ((List.perm_insertionSort r l).filter (fun a => (f a).isSome)).length_eq
  rw [← hread l, hsub.eq_of_length hlength.symm, hread]

end Usdb.Framework
