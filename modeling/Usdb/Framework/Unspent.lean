import Mathlib.Algebra.BigOperators.Group.List.Basic
import Mathlib.Algebra.GroupWithZero.Nat
import Usdb.Framework.OrderedTable

namespace Usdb.Framework

/-- What a transaction does to the unspent outputs. -/
structure Transfer (κ ν : Type) where
  spends : List κ
  creates : List (κ × ν)

/-- The unspent outputs by their keys. -/
abbrev Unspent (κ ν : Type) := κ → Option ν

section Keys

variable {κ ν : Type}

def spentBy (txs : List (Transfer κ ν)) : List κ := txs.flatMap (·.spends)

def createdBy (txs : List (Transfer κ ν)) : List (κ × ν) := txs.flatMap (·.creates)

def createdKeys (txs : List (Transfer κ ν)) : List κ := (createdBy txs).map (·.1)

theorem spentBy_cons (tx : Transfer κ ν) (txs : List (Transfer κ ν)) :
    spentBy (tx :: txs) = tx.spends ++ spentBy txs := rfl

theorem createdBy_cons (tx : Transfer κ ν) (txs : List (Transfer κ ν)) :
    createdBy (tx :: txs) = tx.creates ++ createdBy txs := rfl

theorem createdKeys_cons (tx : Transfer κ ν) (txs : List (Transfer κ ν)) :
    createdKeys (tx :: txs) = tx.creates.map (·.1) ++ createdKeys txs := by
  unfold createdKeys
  rw [createdBy_cons, List.map_append]

theorem spentBy_append (txs txs' : List (Transfer κ ν)) :
    spentBy (txs ++ txs') = spentBy txs ++ spentBy txs' := List.flatMap_append

theorem createdBy_append (txs txs' : List (Transfer κ ν)) :
    createdBy (txs ++ txs') = createdBy txs ++ createdBy txs' := List.flatMap_append

theorem createdKeys_append (txs txs' : List (Transfer κ ν)) :
    createdKeys (txs ++ txs') = createdKeys txs ++ createdKeys txs' := by
  unfold createdKeys
  rw [createdBy_append, List.map_append]

end Keys

namespace Unspent

variable {κ ν : Type}

/-- The transactions create outputs with keys of their own. -/
structure Fresh (u : Unspent κ ν) (txs : List (Transfer κ ν)) : Prop where
  nodup : (createdKeys txs).Nodup
  unused : ∀ k ∈ createdKeys txs, u k = none

section Freshness

variable {u : Unspent κ ν} {txs txs' : List (Transfer κ ν)} {k : κ}

theorem Fresh.left (h : Fresh u (txs ++ txs')) : Fresh u txs where
  nodup := (List.nodup_append.mp (createdKeys_append txs txs' ▸ h.nodup)).1
  unused := fun k hk => h.unused k (by rw [createdKeys_append]; exact List.mem_append_left _ hk)

theorem Fresh.unused_of_isSome (h : Fresh u txs) (hk : (u k).isSome) : k ∉ createdKeys txs := by
  intro hmem
  rw [h.unused k hmem] at hk
  cases hk

end Freshness

variable [DecidableEq κ]

/-- The unspent outputs after a transaction. -/
def after (u : Unspent κ ν) (tx : Transfer κ ν) : Unspent κ ν := fun k =>
  (tx.creates.lookup k).or (if k ∈ tx.spends then none else u k)

def afterAll (u : Unspent κ ν) (txs : List (Transfer κ ν)) : Unspent κ ν := txs.foldl after u

/-- Each transaction spends outputs that are unspent before it, none of them twice. -/
def Valid : Unspent κ ν → List (Transfer κ ν) → Prop
  | _, [] => True
  | u, tx :: txs => tx.spends.Nodup ∧ (∀ k ∈ tx.spends, (u k).isSome) ∧ Valid (u.after tx) txs

variable {u : Unspent κ ν} {tx : Transfer κ ν} {txs txs' : List (Transfer κ ν)} {k : κ} {v : ν}

theorem afterAll_append (u : Unspent κ ν) (txs txs' : List (Transfer κ ν)) :
    u.afterAll (txs ++ txs') = (u.afterAll txs).afterAll txs' := List.foldl_append

theorem valid_append : Valid u (txs ++ txs') ↔ Valid u txs ∧ Valid (u.afterAll txs) txs' := by
  induction txs generalizing u with
  | nil => exact ⟨fun h => ⟨trivial, h⟩, fun h => h.2⟩
  | cons tx txs ih =>
    rw [List.cons_append, Valid, ih, Valid, and_assoc, and_assoc]
    rfl

theorem after_of_notMem (hc : k ∉ tx.creates.map (·.1)) :
    u.after tx k = if k ∈ tx.spends then none else u k := by
  unfold after
  rw [Table.lookup_eq_none.mpr hc]
  rfl

/-- An output nobody creates is not there. -/
theorem afterAll_none (hu : u k = none) (hc : k ∉ createdKeys txs) : u.afterAll txs k = none := by
  induction txs generalizing u with
  | nil => exact hu
  | cons tx txs ih =>
    rw [createdKeys_cons, List.mem_append, not_or] at hc
    refine ih (u := u.after tx) ?_ hc.2
    rw [after_of_notMem hc.1, hu, ite_self]

theorem Fresh.right (h : Fresh u (txs ++ txs')) : Fresh (u.afterAll txs) txs' := by
  have hn := h.nodup
  rw [createdKeys_append, List.nodup_append] at hn
  refine ⟨hn.2.1, ?_⟩
  intro k hk
  refine afterAll_none (h.unused k ?_) (fun hk' => hn.2.2 k hk' k hk rfl)
  rw [createdKeys_append]
  exact List.mem_append_right _ hk

theorem Fresh.tail (h : Fresh u (tx :: txs)) : Fresh (u.after tx) txs :=
  show Fresh (u.afterAll [tx]) txs from Fresh.right h

/-- What is spent was there before the transactions, or they created it. -/
theorem Valid.source (h : Valid u txs) (hk : k ∈ spentBy txs) :
    (u k).isSome ∨ k ∈ createdKeys txs := by
  induction txs generalizing u with
  | nil => cases hk
  | cons tx txs ih =>
    obtain ⟨-, hspends, htail⟩ := h
    rw [createdKeys_cons, List.mem_append]
    rw [spentBy_cons, List.mem_append] at hk
    rcases hk with hk | hk
    · exact .inl (hspends k hk)
    · by_cases hc : k ∈ tx.creates.map (·.1)
      · exact .inr (.inl hc)
      · rcases ih htail hk with hsome | hrest
        · rw [after_of_notMem hc] at hsome
          split at hsome
          · cases hsome
          · exact .inl hsome
        · exact .inr (.inr hrest)

/-- What the first transaction spends, no later one spends. -/
theorem spent_once (hv : Valid u (tx :: txs)) (hf : Fresh u (tx :: txs)) (hk : k ∈ tx.spends) :
    k ∉ spentBy txs ∧ u.after tx k = none := by
  have hnot := hf.unused_of_isSome (hv.2.1 k hk)
  rw [createdKeys_cons, List.mem_append, not_or] at hnot
  have hnone : u.after tx k = none := by rw [after_of_notMem hnot.1, if_pos hk]
  refine ⟨fun hrest => ?_, hnone⟩
  rcases hv.2.2.source hrest with hsome | hmem
  · rw [hnone] at hsome
    cases hsome
  · exact hnot.2 hmem

theorem spentBy_nodup (hv : Valid u txs) (hf : Fresh u txs) : (spentBy txs).Nodup := by
  induction txs generalizing u with
  | nil => exact List.nodup_nil
  | cons tx txs ih =>
    rw [spentBy_cons, List.nodup_append]
    refine ⟨hv.1, ih hv.2.2 hf.tail, ?_⟩
    intro a ha b hb heq
    subst heq
    exact (spent_once hv hf ha).1 hb

/-- What transactions leave: what was there or was created, and is not spent. -/
theorem afterAll_eq (hv : Valid u txs) (hf : Fresh u txs) (k : κ) :
    u.afterAll txs k =
      if k ∈ spentBy txs then none else ((createdBy txs).lookup k).or (u k) := by
  induction txs generalizing u with
  | nil => rfl
  | cons tx txs ih =>
    have hstep : u.afterAll (tx :: txs) k = (u.after tx).afterAll txs k := rfl
    rw [hstep, ih hv.2.2 hf.tail, spentBy_cons, createdBy_cons, List.lookup_append]
    by_cases hrest : k ∈ spentBy txs
    · rw [if_pos hrest, if_pos (List.mem_append_right _ hrest)]
    · by_cases hfirst : k ∈ tx.spends
      · have hnot := hf.unused_of_isSome (hv.2.1 k hfirst)
        rw [createdKeys_cons, List.mem_append, not_or] at hnot
        rw [if_neg hrest, if_pos (List.mem_append_left _ hfirst), (spent_once hv hf hfirst).2,
          Table.lookup_eq_none.mpr hnot.2]
        rfl
      · rw [if_neg hrest, if_neg (by simp [hrest, hfirst])]
        unfold after
        rw [if_neg hfirst]
        cases hget : tx.creates.lookup k with
        | none => rfl
        | some v =>
          have hn := hf.nodup
          rw [createdKeys_cons, List.nodup_append] at hn
          have hkey : k ∈ tx.creates.map (·.1) := List.mem_map_of_mem (Table.mem_of_lookup hget)
          have hnot : k ∉ (createdBy txs).map (·.1) := fun hmem => hn.2.2 k hkey k hmem rfl
          rw [Table.lookup_eq_none.mpr hnot]
          rfl

/-- Of the transactions of a block between those before and after it: what the block
spends was unspent before it or is its own, and is not created later. -/
theorem spent_found {before own later : List (Transfer κ ν)}
    (hv : Valid u (before ++ (own ++ later))) (hf : Fresh u (before ++ (own ++ later)))
    (hk : k ∈ spentBy own) :
    k ∉ createdKeys later ∧
      ((k ∈ createdKeys own ∧ u.afterAll before k = none) ∨
        (k ∉ createdKeys own ∧ ∃ v, u.afterAll before k = some v)) := by
  have hv' := (valid_append.mp (valid_append.mp hv).2).1
  have hf' := hf.right
  have hn := hf'.nodup
  rw [createdKeys_append, List.nodup_append] at hn
  have hall : ∀ {k}, k ∈ createdKeys own ∨ k ∈ createdKeys later → k ∈ createdKeys (own ++ later) := by
    intro k hk
    rw [createdKeys_append]
    exact List.mem_append.mpr hk
  rcases hv'.source hk with hsome | hown
  · have hnot := hf'.unused_of_isSome hsome
    exact ⟨fun h => hnot (hall (.inr h)), .inr ⟨fun h => hnot (hall (.inl h)),
      Option.isSome_iff_exists.mp hsome⟩⟩
  · exact ⟨fun h => hn.2.2 k hown k h rfl, .inl ⟨hown, hf'.unused k (hall (.inl hown))⟩⟩

/-- Nothing is unspent. -/
def empty : Unspent κ ν := fun _ => none

end Unspent

open Unspent

section Worth

variable {κ ν : Type} [DecidableEq κ] {txs txs' : List (Transfer κ ν)} {tx : Transfer κ ν}

/-- The transactions spend what they may and create keys of their own, from the start on. -/
structure WellSpent (txs : List (Transfer κ ν)) : Prop where
  valid : Valid empty txs
  fresh : Fresh empty txs

theorem WellSpent.left (h : WellSpent (txs ++ txs')) : WellSpent txs :=
  ⟨(valid_append.mp h.valid).1, h.fresh.left⟩

/-- The outputs that the transactions create and none of them spends. -/
def leftOver (txs : List (Transfer κ ν)) : List (κ × ν) :=
  (createdBy txs).filter (fun row => row.1 ∉ spentBy txs)

/-- The total weight of the outputs that are left over. -/
def worth (weight : ν → Nat) (txs : List (Transfer κ ν)) : Nat :=
  ((leftOver txs).map (fun row => weight row.2)).sum

/-- The values of the outputs that a transaction after the others spends. -/
def spentValues (txs : List (Transfer κ ν)) (tx : Transfer κ ν) : List ν :=
  tx.spends.filterMap (empty.afterAll txs)

theorem mem_leftOver (h : WellSpent txs) {k : κ} {v : ν} :
    (k, v) ∈ leftOver txs ↔ empty.afterAll txs k = some v := by
  have hn : ((createdBy txs).map (·.1)).Nodup := h.fresh.nodup
  unfold leftOver
  rw [List.mem_filter, afterAll_eq h.valid h.fresh]
  by_cases hk : k ∈ spentBy txs
  · simp [hk]
  · have hlook : (k, v) ∈ createdBy txs ↔ (createdBy txs).lookup k = some v :=
      ⟨Table.lookup_of_mem hn, Table.mem_of_lookup⟩
    simp [hk, hlook, empty]

theorem leftOver_keys_nodup (h : WellSpent txs) : ((leftOver txs).map (·.1)).Nodup := by
  have hn : ((createdBy txs).map (·.1)).Nodup := h.fresh.nodup
  exact hn.sublist (List.filter_sublist.map _)

theorem leftOver_nodup (h : WellSpent txs) : (leftOver txs).Nodup :=
  .of_map _ (leftOver_keys_nodup h)

/-- What a transaction of a group spends, one before it in the group created, or it was
unspent before the group. -/
theorem WellSpent.lookup_spent {before done later : List (Transfer κ ν)}
    (h : WellSpent (before ++ (done ++ tx :: later))) {k : κ} (hk : k ∈ tx.spends) :
    ∃ v, empty.afterAll (before ++ done) k = some v ∧
      ((createdBy (done ++ tx :: later)).lookup k).or (empty.afterAll before k) = some v := by
  have hv := (valid_append.mp h.valid).2
  have hf := h.fresh.right
  have hspends := (valid_append.mp hv).2
  obtain ⟨v, hget⟩ := Option.isSome_iff_exists.mp (hspends.2.1 k hk)
  have hlater : (createdBy (tx :: later)).lookup k = none := by
    rw [Table.lookup_eq_none]
    exact hf.right.unused_of_isSome (hspends.2.1 k hk)
  refine ⟨v, by rw [afterAll_append]; exact hget, ?_⟩
  rw [createdBy_append, List.lookup_append, hlater, Option.or_none]
  rw [afterAll_eq (valid_append.mp hv).1 hf.left] at hget
  split at hget
  · cases hget
  · exact hget

/-- A later transaction takes what it spends and adds all it creates. -/
theorem leftOver_append_one (h : WellSpent (txs ++ [tx])) :
    leftOver (txs ++ [tx]) = (leftOver txs).filter (fun row => row.1 ∉ tx.spends) ++ tx.creates := by
  have hspent : spentBy (txs ++ [tx]) = spentBy txs ++ tx.spends := by
    rw [spentBy_append, spentBy_cons]
    exact congrArg _ (List.append_nil _)
  have hcreated : createdBy (txs ++ [tx]) = createdBy txs ++ tx.creates := by
    rw [createdBy_append, createdBy_cons]
    exact congrArg _ (List.append_nil _)
  have hnew : ∀ row ∈ tx.creates, row.1 ∉ spentBy txs ++ tx.spends := by
    intro row hrow
    have hkey : row.1 ∈ createdKeys [tx] := by
      rw [createdKeys_cons]
      exact List.mem_append_left _ (List.mem_map_of_mem hrow)
    have hn := h.fresh.nodup
    rw [createdKeys_append, List.nodup_append] at hn
    rw [List.mem_append, not_or]
    constructor
    · intro hk
      rcases h.left.valid.source hk with hsome | hmem
      · cases hsome
      · exact hn.2.2 _ hmem _ hkey rfl
    · intro hk
      have hsome := (valid_append.mp h.valid).2.2.1 row.1 hk
      exact h.fresh.right.unused_of_isSome hsome hkey
  have hkeep : tx.creates.filter (fun row => row.1 ∉ spentBy txs ++ tx.spends) = tx.creates := by
    rw [List.filter_eq_self]
    intro row hrow
    exact decide_eq_true (hnew row hrow)
  unfold leftOver
  rw [hspent, hcreated, List.filter_append, hkeep, List.filter_filter]
  congr 1
  apply List.filter_congr
  intro row _
  simp [and_comm]

/-- What a transaction spends, with its values, is left over before it. -/
theorem leftOver_spent_perm (h : WellSpent (txs ++ [tx])) :
    (((leftOver txs).filter (fun row => row.1 ∈ tx.spends)).map (·.2)).Perm
      (spentValues txs tx) := by
  have hspends := (valid_append.mp h.valid).2
  have hrows : ((leftOver txs).filter (fun row => row.1 ∈ tx.spends)).Perm
      (tx.spends.filterMap (fun k => (empty.afterAll txs k).map (fun v => (k, v)))) := by
    rw [List.perm_ext_iff_of_nodup ((leftOver_nodup h.left).filter _)]
    · rintro ⟨k, v⟩
      rw [List.mem_filter, mem_leftOver h.left, List.mem_filterMap]
      constructor
      · rintro ⟨hget, hmem⟩
        exact ⟨k, of_decide_eq_true hmem, by rw [hget]; rfl⟩
      · rintro ⟨k', hmem, heq⟩
        obtain ⟨v', hget, hpair⟩ := Option.map_eq_some_iff.mp heq
        cases hpair
        exact ⟨hget, decide_eq_true hmem⟩
    · refine List.Nodup.filterMap ?_ hspends.1
      intro k k' row hrow hrow'
      obtain ⟨v, -, rfl⟩ := Option.map_eq_some_iff.mp hrow
      obtain ⟨v', -, heq⟩ := Option.map_eq_some_iff.mp hrow'
      exact (congrArg Prod.fst heq).symm
  have hvalues := hrows.map Prod.snd
  rw [List.map_filterMap] at hvalues
  have hfun : (fun k => ((empty.afterAll txs k).map (fun v => (k, v))).map Prod.snd) =
      empty.afterAll txs := by
    funext k
    rw [Option.map_map]
    exact Option.map_id'
  rw [hfun] at hvalues
  exact hvalues

theorem sum_filter_add {α : Type} (p : α → Bool) (f : α → Nat) (l : List α) :
    ((l.filter p).map f).sum + ((l.filter (fun a => !p a)).map f).sum = (l.map f).sum := by
  have hperm := ((List.filter_append_perm p l).map f).sum_eq
  rw [List.map_append, List.sum_append] at hperm
  exact hperm

/-- Nothing is lost: what is left over after a transaction and what it spends weigh what
was left over before it and what it creates. -/
theorem worth_append_one (h : WellSpent (txs ++ [tx])) (weight : ν → Nat) :
    worth weight (txs ++ [tx]) + ((spentValues txs tx).map weight).sum =
      worth weight txs + (tx.creates.map (fun row => weight row.2)).sum := by
  have hspent := ((leftOver_spent_perm h).map weight).sum_eq
  rw [List.map_map] at hspent
  have hsplit := sum_filter_add (fun row : κ × ν => decide (row.1 ∈ tx.spends))
    (fun row => weight row.2) (leftOver txs)
  have hkept : (leftOver txs).filter (fun row => !decide (row.1 ∈ tx.spends)) =
      (leftOver txs).filter (fun row => row.1 ∉ tx.spends) := by
    apply List.filter_congr
    intro row _
    simp
  unfold worth
  rw [leftOver_append_one h, List.map_append, List.sum_append]
  rw [hkept] at hsplit
  have hspent' : (((leftOver txs).filter (fun row => decide (row.1 ∈ tx.spends))).map
      (fun row => weight row.2)).sum = ((spentValues txs tx).map weight).sum := hspent
  omega

theorem worth_spent_le (h : WellSpent (txs ++ [tx])) (weight : ν → Nat) :
    ((spentValues txs tx).map weight).sum ≤ worth weight txs := by
  have hspent := ((leftOver_spent_perm h).map weight).sum_eq
  rw [List.map_map] at hspent
  have hsplit := sum_filter_add (fun row : κ × ν => decide (row.1 ∈ tx.spends))
    (fun row => weight row.2) (leftOver txs)
  have hspent' : (((leftOver txs).filter (fun row => decide (row.1 ∈ tx.spends))).map
      (fun row => weight row.2)).sum = ((spentValues txs tx).map weight).sum := hspent
  unfold worth
  omega

theorem worth_le_worth {weight weight' : ν → Nat} (hle : ∀ v, weight v ≤ weight' v)
    (txs : List (Transfer κ ν)) : worth weight txs ≤ worth weight' txs := by
  unfold worth
  induction leftOver txs with
  | nil => exact Nat.le_refl 0
  | cons row rows ih =>
    rw [List.map_cons, List.map_cons, List.sum_cons, List.sum_cons]
    exact Nat.add_le_add (hle row.2) ih

end Worth

end Usdb.Framework
