import Usdb.Framework.KeyScan

namespace Usdb.Framework.Table

open Std

variable {κ ν : Type} [Ord κ] [TransOrd κ]

section Insert

/-- `INSERT` of a row, refused when its key is taken. -/
def insertRow (t : Table κ ν) (row : κ × ν) : Option (Table κ ν) :=
  if t[row.1]?.isSome then none else some (t.insert row.1 row.2)

/-- A transaction of inserts: one that is refused takes back all of them. -/
def insertRows (t : Table κ ν) (rows : List (κ × ν)) : Option (Table κ ν) :=
  rows.foldlM insertRow t

variable {t : Table κ ν} {rows rows' : List (κ × ν)}

theorem insertRows_cons (t : Table κ ν) (row : κ × ν) (rows : List (κ × ν)) :
    t.insertRows (row :: rows) =
      if t[row.1]?.isSome then none else insertRows (t.insert row.1 row.2) rows := by
  unfold insertRows insertRow
  rw [List.foldlM_cons]
  split <;> rfl

theorem insertRows_append (t : Table κ ν) (rows rows' : List (κ × ν)) :
    t.insertRows (rows ++ rows') = (t.insertRows rows).bind (fun t => insertRows t rows') :=
  List.foldlM_append

variable [LawfulEqOrd κ] [DecidableEq κ]

/-- Rows whose keys are distinct and free are all inserted. -/
theorem insertRows_ok (hn : (rows.map (·.1)).Nodup)
    (hfree : ∀ k ∈ rows.map (·.1), t[k]? = none) :
    t.insertRows rows = some (t.insertMany rows) := by
  induction rows generalizing t with
  | nil => simp [insertRows]
  | cons row rows ih =>
    obtain ⟨key, value⟩ := row
    rw [List.map_cons, List.nodup_cons] at hn
    have hkey : t[key]? = none := hfree key (by simp)
    rw [insertRows_cons, hkey, ExtTreeMap.insertMany_cons]
    apply ih hn.2
    intro k hk
    have hne : key ≠ k := by
      rintro rfl
      exact hn.1 hk
    rw [getElem?_put, if_neg hne]
    exact hfree k (List.mem_cons_of_mem _ hk)

/-- Transactions one after the other insert all their rows, when the keys are distinct. -/
theorem foldlM_insertRows {batches : List (List (κ × ν))}
    (hn : (batches.flatten.map (·.1)).Nodup)
    (hfree : ∀ k ∈ batches.flatten.map (·.1), t[k]? = none) :
    batches.foldlM insertRows t = some (t.insertMany batches.flatten) := by
  have hflat : batches.foldlM insertRows t = t.insertRows batches.flatten := by
    clear hn hfree
    induction batches generalizing t with
    | nil => rfl
    | cons batch batches ih =>
      rw [List.foldlM_cons, List.flatten_cons, insertRows_append]
      cases t.insertRows batch with
      | none => rfl
      | some t' => exact ih
  rw [hflat]
  exact insertRows_ok hn hfree

omit [Ord κ] [TransOrd κ] [LawfulEqOrd κ] in
/-- Rows that are the graph of a function look it up. -/
theorem lookup_eq_of_mem {f : κ → Option ν} (hn : (rows.map (·.1)).Nodup)
    (h : ∀ k v, (k, v) ∈ rows ↔ f k = some v) (k : κ) : rows.lookup k = f k := by
  cases hf : f k with
  | some v => exact lookup_of_mem hn ((h k v).mpr hf)
  | none =>
    rw [lookup_eq_none]
    intro hmem
    obtain ⟨⟨k', v⟩, hrow, rfl⟩ := List.mem_map.mp hmem
    rw [(h k' v).mp hrow] at hf
    cases hf

/-- An empty table takes rows of distinct keys as they are. -/
theorem getElem?_insertMany_empty (hn : (rows.map (·.1)).Nodup) (k : κ) :
    ((∅ : Table κ ν).insertMany rows)[k]? = rows.lookup k := by
  rw [getElem?_insertMany_lookup hn]
  simp

theorem toList_insertMany_empty (hn : (rows.map (·.1)).Nodup) :
    ((∅ : Table κ ν).insertMany rows).toList.Perm rows := by
  apply toList_perm hn
  intro k v
  rw [getElem?_insertMany_empty hn]
  exact ⟨lookup_of_mem hn, mem_of_lookup⟩

theorem insertMany_empty_toList (t : Table κ ν) : (∅ : Table κ ν).insertMany t.toList = t := by
  apply ExtTreeMap.ext_getElem?
  intro k
  rw [getElem?_insertMany_empty (toList_keys_nodup t), lookup_toList]

end Insert

section Pages

/-- `WHERE key > last ORDER BY key ASC LIMIT size`. -/
def pageAfter (t : Table κ ν) (size : Nat) (last : Option κ) : List (κ × ν) :=
  match last with
  | some key => (t.toList.filter (fun row => compare key row.1 = .lt)).take size
  | none => t.toList.take size

variable {t : Table κ ν}

/-- The rows above a key of the table are those after it. -/
theorem filter_above {before after : List (κ × ν)} {row : κ × ν}
    (h : t.toList = before ++ row :: after) :
    t.toList.filter (fun row' => compare row.1 row'.1 = .lt) = after := by
  have hsorted := toList_pairwise t
  rw [h] at hsorted ⊢
  obtain ⟨-, hrest, hcross⟩ := List.pairwise_append.mp hsorted
  have hbefore : before.filter (fun row' => compare row.1 row'.1 = .lt) = [] := by
    apply List.filter_eq_nil_iff.mpr
    intro row' hmem
    have hlt := hcross row' hmem row (by simp)
    rw [OrientedOrd.eq_swap, hlt]
    simp
  have hafter : after.filter (fun row' => compare row.1 row'.1 = .lt) = after := by
    apply List.filter_eq_self.mpr
    intro row' hmem
    simpa using (List.pairwise_cons.mp hrest).1 row' hmem
  rw [List.filter_append, hbefore, List.filter_cons_of_neg (by simp), hafter, List.nil_append]

/-- Where a reader of pages stands: it has read some rows, and goes on after the last. -/
def ReadUpTo (t : Table κ ν) (before after : List (κ × ν)) (last : Option κ) : Prop :=
  t.toList = before ++ after ∧ last = before.getLast?.map (·.1)

theorem ReadUpTo.pageAfter_eq {before after : List (κ × ν)} {last : Option κ}
    (h : ReadUpTo t before after last) (size : Nat) : t.pageAfter size last = after.take size := by
  obtain ⟨hsplit, rfl⟩ := h
  unfold pageAfter
  rcases List.eq_nil_or_concat' before with rfl | ⟨init, row, rfl⟩
  · rw [hsplit]
    rfl
  · rw [List.getLast?_concat]
    dsimp only [Option.map_some]
    have hrow : t.toList = init ++ row :: after := by
      rw [hsplit]
      simp
    rw [filter_above hrow]

theorem ReadUpTo.next {before after : List (κ × ν)} {last : Option κ}
    (h : ReadUpTo t before after last) (size : Nat) :
    ReadUpTo t (before ++ after.take size) (after.drop size)
      (((after.take size).getLast?.map (·.1)).or last) := by
  obtain ⟨hsplit, rfl⟩ := h
  constructor
  · rw [List.append_assoc, List.take_append_drop, hsplit]
  · rw [List.getLast?_append]
    cases (after.take size).getLast? <;> rfl

end Pages

end Usdb.Framework.Table
