import Mathlib.Tactic.NormNum
import Usdb.Balances.BalanceQueries

namespace Usdb.Balances

open Framework

section Batches

variable (keep : BalanceValue → Bool) (targetBlockHeight batchSize : Nat)

/-- The batches that a loop hands to its callback, with the counts of processed rows. -/
def batches : List (BalanceKey × BalanceValue) → Scan → List (List BalanceHistoryEntry × Nat)
  | [], scan => if scan.snapshot.isEmpty then [] else [(scan.snapshot, scan.entriesProcessed)]
  | (key, value) :: rest, scan =>
    let scan := scan.moveTo key.scriptHash
    if scan.currentFounded = false ∧ key.blockHeight ≤ targetBlockHeight then
      let scan := { scan with currentFounded := true }
      if keep value then
        let scan := scan.push key value
        if batchSize ≤ scan.snapshot.length then
          (scan.snapshot, scan.entriesProcessed) :: batches rest scan.flushed
        else batches rest scan
      else batches rest scan
    else batches rest scan

/-- The entries of these batches: the first kept row of each script hash that is at or
below the target. -/
def picked : List (BalanceKey × BalanceValue) → Option USDBScriptHash → Bool →
    List BalanceHistoryEntry
  | [], _, _ => []
  | (key, value) :: rest, current, founded =>
    if Scan.stillFounded current founded key.scriptHash = false ∧
        key.blockHeight ≤ targetBlockHeight then
      if keep value then
        ⟨key.scriptHash, key.blockHeight, value.delta, value.balance⟩ ::
          picked rest (some key.scriptHash) true
      else picked rest (some key.scriptHash) true
    else picked rest (some key.scriptHash) (Scan.stillFounded current founded key.scriptHash)

variable {keep targetBlockHeight batchSize}

theorem scanLoop_eq_foldlM {ε σ : Type}
    (callback : σ → List BalanceHistoryEntry → Nat → Except ε σ)
    (rows : List (BalanceKey × BalanceValue)) (scan : Scan) (s : σ) :
    scanLoop callback keep targetBlockHeight batchSize rows scan s =
      (batches keep targetBlockHeight batchSize rows scan).foldlM
        (fun s batch => callback s batch.1 batch.2) s := by
  induction rows generalizing scan s with
  | nil =>
    unfold scanLoop batches
    split
    · rfl
    · exact (bind_pure _).symm
  | cons row rows ih =>
    obtain ⟨key, value⟩ := row
    simp only [scanLoop, batches]
    split
    · split
      · split
        · rw [List.foldlM_cons]
          refine bind_congr (fun s' => ?_)
          exact ih _ _
        · exact ih _ _
      · exact ih _ _
    · exact ih _ _

theorem batches_flatMap (rows : List (BalanceKey × BalanceValue)) (scan : Scan) :
    (batches keep targetBlockHeight batchSize rows scan).flatMap (·.1) =
      scan.snapshot ++
        picked keep targetBlockHeight rows scan.currentScriptHash scan.currentFounded := by
  induction rows generalizing scan with
  | nil =>
    obtain ⟨current, founded, snapshot, processed⟩ := scan
    cases snapshot with
    | nil => rfl
    | cons entry snapshot => simp [batches, picked]
  | cons row rows ih =>
    obtain ⟨key, value⟩ := row
    simp only [batches, picked]
    have hmove : (scan.moveTo key.scriptHash).currentFounded =
        Scan.stillFounded scan.currentScriptHash scan.currentFounded key.scriptHash := rfl
    rw [hmove]
    by_cases hpick : Scan.stillFounded scan.currentScriptHash scan.currentFounded
        key.scriptHash = false ∧ key.blockHeight ≤ targetBlockHeight
    · rw [if_pos hpick, if_pos hpick]
      by_cases hkeep : keep value = true
      · rw [if_pos hkeep, if_pos hkeep]
        split
        · rw [List.flatMap_cons, ih]
          simp [Scan.push, Scan.flushed, Scan.moveTo]
        · rw [ih]
          simp [Scan.push, Scan.moveTo]
      · rw [if_neg hkeep, if_neg hkeep, ih]
        rfl
    · rw [if_neg hpick, if_neg hpick, ih]
      rfl

/-- No batch is empty, and none is larger than asked for. -/
theorem batches_length (rows : List (BalanceKey × BalanceValue)) (scan : Scan)
    (hscan : scan.snapshot.length < batchSize) :
    ∀ batch ∈ batches keep targetBlockHeight batchSize rows scan,
      batch.1 ≠ [] ∧ batch.1.length ≤ batchSize := by
  induction rows generalizing scan with
  | nil =>
    intro batch hbatch
    unfold batches at hbatch
    split at hbatch
    · cases hbatch
    · next hne =>
      rw [List.mem_singleton] at hbatch
      subst hbatch
      exact ⟨fun hnil => hne (List.isEmpty_iff.mpr hnil), hscan.le⟩
  | cons row rows ih =>
    obtain ⟨key, value⟩ := row
    intro batch hbatch
    simp only [batches] at hbatch
    split at hbatch
    · split at hbatch
      · split at hbatch
        · rcases List.mem_cons.mp hbatch with rfl | hbatch
          · constructor
            · simp [Scan.push]
            · simp only [Scan.push, Scan.moveTo, List.length_append, List.length_singleton]
              omega
          · exact ih (Scan.flushed _) (Nat.lt_of_le_of_lt (Nat.zero_le _) hscan) batch hbatch
        · next hroom => exact ih _ (Nat.lt_of_not_le hroom) batch hbatch
      · exact ih { scan.moveTo key.scriptHash with currentFounded := true } hscan batch hbatch
    · exact ih (scan.moveTo key.scriptHash) hscan batch hbatch

end Batches

section Rows

variable {db : BalanceHistoryDB} {targetBlockHeight : Nat} {keep : BalanceValue → Bool}
  {row row' : BalanceKey × BalanceValue} {rows pre rest : List (BalanceKey × BalanceValue)}

/-- The row answers for its script hash at a height. -/
def IsAnswer (db : BalanceHistoryDB) (targetBlockHeight : Nat) (row : BalanceKey × BalanceValue) :
    Prop :=
  findLast (db.row row.1.scriptHash) targetBlockHeight = some (row.1.blockHeight, row.2)

instance : Decidable (IsAnswer db targetBlockHeight row) :=
  inferInstanceAs (Decidable (_ = _))

/-- Rows of a table in descending order, every script hash with all its rows. -/
structure ScriptRows (db : BalanceHistoryDB) (rows : List (BalanceKey × BalanceValue)) : Prop where
  sorted : rows.Pairwise (fun a b => compare b.1 a.1 = .lt)
  sub : ∀ row ∈ rows, row ∈ db.balanceHistory.toList
  closed : ∀ row ∈ rows, ∀ row' ∈ db.balanceHistory.toList,
    row'.1.scriptHash = row.1.scriptHash → row' ∈ rows

theorem isAnswer_iff (hrow : row ∈ db.balanceHistory.toList) :
    IsAnswer db targetBlockHeight row ↔ row.1.blockHeight ≤ targetBlockHeight ∧
      ∀ row' ∈ db.balanceHistory.toList, row'.1.scriptHash = row.1.scriptHash →
        row'.1.blockHeight ≤ targetBlockHeight → row'.1.blockHeight ≤ row.1.blockHeight := by
  obtain ⟨⟨scriptHash, height⟩, value⟩ := row
  unfold IsAnswer
  rw [findLast_eq_some]
  constructor
  · rintro ⟨hle, -, hnone⟩
    refine ⟨hle, ?_⟩
    rintro ⟨⟨s, h⟩, value'⟩ hrow' rfl hle'
    by_contra hlt
    have hget : db.row s h = some value' := Table.mem_toList.mp hrow'
    rw [hnone h (Nat.lt_of_not_le hlt) hle'] at hget
    cases hget
  · rintro ⟨hle, hmax⟩
    refine ⟨hle, Table.mem_toList.mp hrow, fun h hlt hle' => ?_⟩
    cases hget : db.row scriptHash h with
    | none => rfl
    | some value' =>
      have := hmax (⟨scriptHash, h⟩, value') (Table.mem_toList.mpr hget) rfl hle'
      exact absurd hlt (Nat.not_lt_of_le this)

theorem lt_of_compare_lt (h : compare row.1 row'.1 = .lt) :
    row.1.scriptHash ≤ row'.1.scriptHash ∧
      (row.1.scriptHash = row'.1.scriptHash → row.1.blockHeight < row'.1.blockHeight) := by
  have hle : (compare row.1 row'.1).isLE := by
    rw [h]
    rfl
  rcases BalanceKey.isLE_iff.mp hle with hlt | ⟨heq, hheight⟩
  · exact ⟨hlt.le, fun heq => absurd hlt (heq ▸ lt_irrefl _)⟩
  · refine ⟨heq.le, fun _ => Nat.lt_of_le_of_ne hheight (fun hsame => ?_)⟩
    have hkey : row.1 = row'.1 := by
      obtain ⟨⟨s, k⟩, value⟩ := row
      obtain ⟨⟨s', k'⟩, value'⟩ := row'
      exact BalanceKey.mk.injEq _ _ _ _ ▸ ⟨heq, hsame⟩
    rw [hkey, Std.compare_self] at h
    cases h

/-- What the loop knows of the rows it has passed. -/
def Scanned (targetBlockHeight : Nat) (pre : List (BalanceKey × BalanceValue)) (founded : Bool) :
    Option USDBScriptHash → Prop
  | none => pre = []
  | some scriptHash => (∃ row ∈ pre, row.1.scriptHash = scriptHash) ∧
      (∀ row ∈ pre, scriptHash ≤ row.1.scriptHash) ∧
      (founded = true ↔ ∃ row ∈ pre, row.1.scriptHash = scriptHash ∧
        row.1.blockHeight ≤ targetBlockHeight)

variable {current : Option USDBScriptHash} {founded : Bool}

theorem Scanned.stillFounded (h : Scanned targetBlockHeight pre founded current)
    (hsorted : (pre ++ row :: rest).Pairwise (fun a b => compare b.1 a.1 = .lt)) :
    Scan.stillFounded current founded row.1.scriptHash = true ↔
      ∃ row' ∈ pre, row'.1.scriptHash = row.1.scriptHash ∧
        row'.1.blockHeight ≤ targetBlockHeight := by
  unfold Scan.stillFounded
  cases current with
  | none =>
    obtain rfl : pre = [] := h
    simp
  | some scriptHash =>
    obtain ⟨⟨last, hlast, hscript⟩, hmin, hfounded⟩ := h
    by_cases hsame : scriptHash = row.1.scriptHash
    · subst hsame
      rw [if_pos rfl]
      exact hfounded
    · rw [if_neg (fun heq => hsame (Option.some.inj heq))]
      refine iff_of_false Bool.false_ne_true ?_
      rintro ⟨row', hrow', hscript', -⟩
      have hbelow := (lt_of_compare_lt ((List.pairwise_append.mp hsorted).2.2 last hlast row
        (by simp))).1
      have habove := hmin row' hrow'
      rw [hscript'] at habove
      rw [hscript] at hbelow
      exact hsame (le_antisymm habove hbelow)

theorem Scanned.next (hsorted : (pre ++ row :: rest).Pairwise (fun a b => compare b.1 a.1 = .lt))
    (hfounded : founded = true ↔ ∃ row' ∈ pre ++ [row], row'.1.scriptHash = row.1.scriptHash ∧
      row'.1.blockHeight ≤ targetBlockHeight) :
    Scanned targetBlockHeight (pre ++ [row]) founded (some row.1.scriptHash) := by
  refine ⟨⟨row, by simp, rfl⟩, ?_, hfounded⟩
  intro row' hrow'
  rcases List.mem_append.mp hrow' with hpre | hone
  · exact (lt_of_compare_lt ((List.pairwise_append.mp hsorted).2.2 row' hpre row (by simp))).1
  · rw [List.mem_singleton.mp hone]

/-- A row is the answer when it is the first of its script hash at or below the target. -/
theorem isAnswer_iff_first (targetBlockHeight : Nat) (hrows : ScriptRows db (pre ++ row :: rest)) :
    IsAnswer db targetBlockHeight row ↔ row.1.blockHeight ≤ targetBlockHeight ∧
      ¬ ∃ row' ∈ pre, row'.1.scriptHash = row.1.scriptHash ∧
        row'.1.blockHeight ≤ targetBlockHeight := by
  have hmem : row ∈ pre ++ row :: rest := by simp
  obtain ⟨-, hrest, hcross⟩ := List.pairwise_append.mp hrows.sorted
  rw [isAnswer_iff (hrows.sub row hmem)]
  constructor
  · rintro ⟨hle, hmax⟩
    refine ⟨hle, ?_⟩
    rintro ⟨row', hrow', hscript, hle'⟩
    have hlt := (lt_of_compare_lt (hcross row' hrow' row (by simp))).2 hscript.symm
    have := hmax row' (hrows.sub row' (by simp [hrow'])) hscript hle'
    omega
  · rintro ⟨hle, hfirst⟩
    refine ⟨hle, fun row' hrow' hscript hle' => ?_⟩
    rcases List.mem_append.mp (hrows.closed row hmem row' hrow' hscript) with hpre | hlater
    · exact absurd ⟨row', hpre, hscript, hle'⟩ hfirst
    · rcases List.mem_cons.mp hlater with rfl | hafter
      · exact Nat.le_refl _
      · exact ((lt_of_compare_lt ((List.pairwise_cons.mp hrest).1 row' hafter)).2 hscript).le

/-- What a loop picks from its rows are the answers, with the values to keep. -/
theorem picked_eq (hrows : ScriptRows db (pre ++ rest))
    (h : Scanned targetBlockHeight pre founded current) :
    picked keep targetBlockHeight rest current founded =
      (rest.filter (fun row => IsAnswer db targetBlockHeight row && keep row.2)).map
        (fun row => ⟨row.1.scriptHash, row.1.blockHeight, row.2.delta, row.2.balance⟩) := by
  induction rest generalizing pre current founded with
  | nil => rfl
  | cons row rest ih =>
    have hstill := h.stillFounded hrows.sorted
    have hanswer := isAnswer_iff_first targetBlockHeight hrows
    have hrows' : ScriptRows db ((pre ++ [row]) ++ rest) := by
      rw [List.append_assoc]
      exact hrows
    obtain ⟨key, value⟩ := row
    simp only [picked]
    by_cases hpick : Scan.stillFounded current founded key.scriptHash = false ∧
        key.blockHeight ≤ targetBlockHeight
    · have hnext : Scanned targetBlockHeight (pre ++ [(key, value)]) true
          (some key.scriptHash) :=
        Scanned.next hrows.sorted (iff_of_true rfl ⟨(key, value), by simp, rfl, hpick.2⟩)
      have hin : IsAnswer db targetBlockHeight (key, value) := by
        refine hanswer.mpr ⟨hpick.2, fun hex => ?_⟩
        rw [hstill.mpr hex] at hpick
        cases hpick.1
      rw [if_pos hpick, List.filter_cons, ih hrows' hnext]
      cases keep value with
      | true => simp [hin]
      | false => simp
    · have hout : ¬ IsAnswer db targetBlockHeight (key, value) := by
        intro hin
        obtain ⟨hle, hfirst⟩ := hanswer.mp hin
        refine hpick ⟨?_, hle⟩
        rw [← hstill] at hfirst
        simpa using hfirst
      have hnext : Scanned targetBlockHeight (pre ++ [(key, value)])
          (Scan.stillFounded current founded key.scriptHash) (some key.scriptHash) := by
        refine Scanned.next hrows.sorted (hstill.trans ?_)
        constructor
        · rintro ⟨row', hrow', hrest⟩
          exact ⟨row', by simp [hrow'], hrest⟩
        · rintro ⟨row', hrow', hscript, hle⟩
          rcases List.mem_append.mp hrow' with hpre | hone
          · exact ⟨row', hpre, hscript, hle⟩
          · rw [List.mem_singleton] at hone
            subst hone
            by_contra hex
            exact hout (hanswer.mpr ⟨hle, hex⟩)
      rw [if_neg hpick, List.filter_cons_of_neg (by simp [hout]), ih hrows' hnext]

end Rows

/-- The entries name every script hash of a class that has an answer to keep, each of
them once and with that answer. -/
structure Visits (db : BalanceHistoryDB) (keep : BalanceValue → Bool) (targetBlockHeight : Nat)
    (among : USDBScriptHash → Prop) (entries : List BalanceHistoryEntry) : Prop where
  once : (entries.map (·.scriptHash)).Nodup
  mem : ∀ entry, entry ∈ entries ↔ among entry.scriptHash ∧
    keep ⟨entry.delta, entry.balance⟩ = true ∧
    findLast (db.row entry.scriptHash) targetBlockHeight =
      some (entry.blockHeight, ⟨entry.delta, entry.balance⟩)

section Visits

variable {db : BalanceHistoryDB} {keep : BalanceValue → Bool} {targetBlockHeight batchSize : Nat}
  {among : USDBScriptHash → Prop} {rows : List (BalanceKey × BalanceValue)}

theorem picked_visits (keep : BalanceValue → Bool) (targetBlockHeight : Nat)
    (among : USDBScriptHash → Prop) (hrows : ScriptRows db rows)
    (hamong : ∀ row ∈ db.balanceHistory.toList, row ∈ rows ↔ among row.1.scriptHash) :
    Visits db keep targetBlockHeight among (picked keep targetBlockHeight rows none false) := by
  have hstart : Scanned targetBlockHeight [] false none := rfl
  rw [picked_eq (show ScriptRows db ([] ++ rows) from hrows) hstart]
  constructor
  · rw [List.map_map, List.Nodup, List.pairwise_map]
    refine ((hrows.sorted.filter _).imp_of_mem ?_)
    intro a b ha hb hlt heq
    obtain ⟨-, ha⟩ := List.mem_filter.mp ha
    obtain ⟨-, hb⟩ := List.mem_filter.mp hb
    rw [Bool.and_eq_true, decide_eq_true_iff] at ha hb
    have hscript : b.1.scriptHash = a.1.scriptHash := heq.symm
    have hlater : findLast (db.row a.1.scriptHash) targetBlockHeight =
        some (b.1.blockHeight, b.2) := hscript ▸ (show findLast _ _ = _ from hb.1)
    have hsame := ha.1.symm.trans hlater
    have hheight := congrArg Prod.fst (Option.some.inj hsame)
    have := (lt_of_compare_lt hlt).2 hscript
    exact absurd hheight.symm this.ne
  · intro entry
    rw [List.mem_map]
    constructor
    · rintro ⟨⟨⟨scriptHash, height⟩, value⟩, hrow, rfl⟩
      obtain ⟨hmem, hrow⟩ := List.mem_filter.mp hrow
      rw [Bool.and_eq_true, decide_eq_true_iff] at hrow
      exact ⟨(hamong _ (hrows.sub _ hmem)).mp hmem, hrow.2, hrow.1⟩
    · rintro ⟨hclass, hkeep, hfind⟩
      obtain ⟨scriptHash, height, delta, balance⟩ := entry
      have hmem : (BalanceKey.mk scriptHash height, BalanceValue.mk delta balance) ∈
          db.balanceHistory.toList :=
        Table.mem_toList.mpr ((findLast_eq_some _ _ _ _).mp hfind).2.1
      refine ⟨_, List.mem_filter.mpr ⟨(hamong _ hmem).mpr hclass, ?_⟩, rfl⟩
      rw [Bool.and_eq_true, decide_eq_true_iff]
      exact ⟨hfind, hkeep⟩

/-- Kept answers with a balance are what the point query answers. -/
theorem Visits.mem_iff_getBalance {entries : List BalanceHistoryEntry}
    (h : Visits db (fun value => 0 < value.balance) targetBlockHeight among entries)
    (entry : BalanceHistoryEntry) :
    entry ∈ entries ↔ among entry.scriptHash ∧ 0 < entry.balance ∧
      db.getBalanceAtBlockHeight entry.scriptHash targetBlockHeight =
        ⟨entry.blockHeight, entry.delta, entry.balance⟩ := by
  rw [h.mem, decide_eq_true_iff, BalanceHistoryDB.getBalanceAtBlockHeight_eq]
  refine and_congr_right (fun _ => and_congr_right (fun hpos => ?_))
  dsimp only at hpos
  cases hfind : findLast (db.row entry.scriptHash) targetBlockHeight with
  | none =>
    refine iff_of_false (fun hnone => nomatch hnone) (fun hzero => ?_)
    have hbalance : 0 = entry.balance := congrArg BalanceHistoryData.balance hzero
    omega
  | some found =>
    obtain ⟨height, value⟩ := found
    constructor
    · intro heq
      obtain ⟨rfl, rfl⟩ := Prod.mk.inj (Option.some.inj heq)
      rfl
    · intro heq
      obtain ⟨rfl, hdelta, hbalance⟩ := BalanceHistoryData.mk.inj heq
      obtain ⟨delta, balance⟩ := value
      obtain rfl : delta = entry.delta := hdelta
      obtain rfl : balance = entry.balance := hbalance
      rfl

end Visits

namespace BalanceHistoryDB

section Iterators

variable {db : BalanceHistoryDB}

theorem toList_reverse_sorted (db : BalanceHistoryDB) :
    db.balanceHistory.descendAll.Pairwise (fun a b => compare b.1 a.1 = .lt) := by
  unfold Table.descendAll
  rw [List.pairwise_reverse]
  exact Table.toList_pairwise _

theorem mem_traverseRows (hfit : db.HeightsFit) (startScriptHash : Option USDBScriptHash)
    (row : BalanceKey × BalanceValue) :
    row ∈ db.traverseRows startScriptHash ↔ row ∈ db.balanceHistory.toList ∧
      ∀ scriptHash ∈ startScriptHash, row.1.scriptHash ≤ scriptHash := by
  cases startScriptHash with
  | none =>
    unfold traverseRows Table.descendAll
    simp
  | some scriptHash =>
    unfold traverseRows
    rw [Table.mem_descend]
    refine and_congr_right (fun hmem => ?_)
    have hheight := hfit row hmem
    have hbelow : row.1.blockHeight ≤ 2 ^ 32 - 1 := by omega
    rw [BalanceKey.isLE_iff]
    simp only [Option.mem_def, Option.some.injEq, forall_eq', hbelow, and_true]
    exact le_iff_lt_or_eq.symm

theorem traverseRows_scriptRows (hfit : db.HeightsFit)
    (startScriptHash : Option USDBScriptHash) :
    ScriptRows db (db.traverseRows startScriptHash) where
  sorted := by
    cases startScriptHash with
    | none => exact db.toList_reverse_sorted
    | some scriptHash => exact Table.descend_pairwise _ _
  sub row hrow := ((mem_traverseRows hfit _ row).mp hrow).1
  closed row hrow row' hrow' hscript := by
    rw [mem_traverseRows hfit] at hrow ⊢
    refine ⟨hrow', fun scriptHash hstart => ?_⟩
    rw [hscript]
    exact hrow.2 scriptHash hstart

theorem shardOf_eq_iff (scriptHash : USDBScriptHash) (shardIndex : UInt8) :
    shardOf scriptHash = shardIndex ↔
      shardIndex.toNat * 2 ^ 248 ≤ scriptHash.val ∧
        scriptHash.val < (shardIndex.toNat + 1) * 2 ^ 248 := by
  have hbyte : scriptHash.val / 2 ^ 248 < 2 ^ 8 := by
    rw [Nat.div_lt_iff_lt_mul (by norm_num), ← Nat.pow_add]
    exact scriptHash.isLt
  have hpos : 0 < 2 ^ 248 := by positivity
  unfold shardOf
  rw [← UInt8.toNat_inj, UInt8.toNat_ofNat', Nat.mod_eq_of_lt hbyte,
    ← Nat.le_div_iff_mul_le hpos, ← Nat.div_lt_iff_lt_mul hpos]
  constructor
  · intro heq
    exact ⟨heq.ge, Nat.lt_succ_of_le heq.le⟩
  · rintro ⟨hge, hlt⟩
    exact Nat.le_antisymm (Nat.le_of_lt_succ hlt) hge

theorem shardSeekKey_val (shardIndex : UInt8) :
    (shardSeekKey shardIndex).scriptHash.val + 1 = (shardIndex.toNat + 1) * 2 ^ 248 := by
  have hbyte := shardIndex.toNat_lt
  have hle : (shardIndex.toNat + 1) * 2 ^ 248 ≤ 2 ^ 256 := by
    calc (shardIndex.toNat + 1) * 2 ^ 248 ≤ 2 ^ 8 * 2 ^ 248 := Nat.mul_le_mul_right _ hbyte
      _ = 2 ^ 256 := by norm_num
  have hpos : 0 < (shardIndex.toNat + 1) * 2 ^ 248 := by positivity
  show ((shardIndex.toNat + 1) * 2 ^ 248 - 1) % 2 ^ 256 + 1 = _
  rw [Nat.mod_eq_of_lt (Nat.lt_of_lt_of_le (Nat.sub_lt hpos Nat.one_pos) hle),
    Nat.sub_add_cancel hpos]

theorem shardRows_eq (hfit : db.HeightsFit) (shardIndex : UInt8)
    (row : BalanceKey × BalanceValue) :
    row ∈ (db.balanceHistory.descend (shardSeekKey shardIndex)).takeWhile
        (fun row => shardOf row.1.scriptHash = shardIndex) ↔
      row ∈ db.balanceHistory.toList ∧ shardOf row.1.scriptHash = shardIndex := by
  have hseek := shardSeekKey_val shardIndex
  rw [Table.takeWhile_descend, List.mem_reverse, List.mem_filter]
  · refine and_congr_right (fun hmem => ?_)
    have hheight := hfit row hmem
    rw [Bool.and_eq_true, decide_eq_true_iff]
    refine ⟨fun h => h.2, fun h => ⟨?_, h⟩⟩
    have hlt := ((shardOf_eq_iff _ _).mp h).2
    rw [← hseek] at hlt
    have hbelow : row.1.blockHeight ≤ (shardSeekKey shardIndex).blockHeight := by
      show row.1.blockHeight ≤ 2 ^ 32 - 1
      omega
    rcases lt_or_eq_of_le (Fin.le_def.mpr (Nat.le_of_lt_succ hlt)) with hless | heq
    · exact BalanceKey.isLE_iff.mpr (.inl hless)
    · exact BalanceKey.isLE_iff.mpr (.inr ⟨heq, hbelow⟩)
  · intro a ha b _ hlt hshard
    rw [decide_eq_true_iff, shardOf_eq_iff] at hshard ⊢
    have hbelow := (lt_of_compare_lt hlt).1
    refine ⟨le_trans hshard.1 (Fin.le_def.mp hbelow), ?_⟩
    rw [← hseek]
    refine Nat.lt_succ_of_le (Fin.le_def.mp ?_)
    rcases BalanceKey.isLE_iff.mp (Table.mem_descend.mp ha).2 with hless | ⟨heq, -⟩
    · exact hless.le
    · exact heq.le

theorem shardRows_scriptRows (hfit : db.HeightsFit) (shardIndex : UInt8) :
    ScriptRows db ((db.balanceHistory.descend (shardSeekKey shardIndex)).takeWhile
      (fun row => shardOf row.1.scriptHash = shardIndex)) where
  sorted := (Table.descend_pairwise _ _).sublist (List.takeWhile_sublist _)
  sub row hrow := ((shardRows_eq hfit shardIndex row).mp hrow).1
  closed row hrow row' hrow' hscript := by
    rw [shardRows_eq hfit] at hrow ⊢
    exact ⟨hrow', by rw [hscript]; exact hrow.2⟩

end Iterators

section Exports

variable {db : BalanceHistoryDB} {targetBlockHeight batchSize : Nat}

/-- The entries name every script hash of a class that has a balance at a height, each of
them once and with the row that answers there. -/
structure VisitsAtHeight (db : BalanceHistoryDB) (targetBlockHeight : Nat)
    (among : USDBScriptHash → Prop) (entries : List BalanceHistoryEntry) : Prop where
  once : (entries.map (·.scriptHash)).Nodup
  mem : ∀ entry, entry ∈ entries ↔ among entry.scriptHash ∧ 0 < entry.balance ∧
    db.getBalanceAtBlockHeight entry.scriptHash targetBlockHeight =
      ⟨entry.blockHeight, entry.delta, entry.balance⟩

theorem traverse_foldlM {ε σ : Type}
    (callback : σ → List BalanceHistoryEntry → Except ε σ)
    (keep : BalanceValue → Bool) (rows : List (BalanceKey × BalanceValue)) (s : σ) :
    scanLoop (fun s entries _ => callback s entries) keep targetBlockHeight batchSize rows .start s =
      ((batches keep targetBlockHeight batchSize rows .start).map (·.1)).foldlM callback s := by
  rw [scanLoop_eq_foldlM, List.foldlM_map]

theorem traverseAtHeight_visits (hfit : db.HeightsFit) (startScriptHash : Option USDBScriptHash)
    (targetBlockHeight : Nat) (hsize : 0 < batchSize) :
    ∃ batches : List (List BalanceHistoryEntry),
      (∀ {ε σ : Type} (panicked : ε) (callback : σ → List BalanceHistoryEntry → Except ε σ) (s : σ),
        db.traverseAtHeight panicked startScriptHash targetBlockHeight batchSize callback s =
          batches.foldlM callback s) ∧
      (∀ batch ∈ batches, batch ≠ [] ∧ batch.length ≤ batchSize) ∧
      VisitsAtHeight db targetBlockHeight
        (fun scriptHash => ∀ start ∈ startScriptHash, scriptHash ≤ start) batches.flatten := by
  have hrows := traverseRows_scriptRows hfit startScriptHash
  have hvisits := picked_visits (fun value => 0 < value.balance) targetBlockHeight
    (fun scriptHash => ∀ start ∈ startScriptHash, scriptHash ≤ start) hrows
    (fun row hmem => (mem_traverseRows hfit startScriptHash row).trans (and_iff_right hmem))
  refine ⟨(batches (fun value => 0 < value.balance) targetBlockHeight batchSize
    (db.traverseRows startScriptHash) .start).map (·.1), ?_, ?_, ?_⟩
  · intro ε σ panicked callback s
    unfold traverseAtHeight
    rw [if_pos hsize, traverse_foldlM]
  · intro batch hbatch
    obtain ⟨counted, hcounted, rfl⟩ := List.mem_map.mp hbatch
    exact batches_length _ _ hsize counted hcounted
  · rw [← List.flatMap_def, batches_flatMap]
    exact ⟨hvisits.once, hvisits.mem_iff_getBalance⟩

/-- The batches of one shard. -/
def shardBatches (db : BalanceHistoryDB) (targetBlockHeight batchSize : Nat) (shardIndex : UInt8) :
    List (List BalanceHistoryEntry × Nat) :=
  batches (fun value => 0 < value.balance) targetBlockHeight batchSize
    ((db.balanceHistory.descend (shardSeekKey shardIndex)).takeWhile
      (fun row => shardOf row.1.scriptHash = shardIndex)) .start

theorem shardBatches_visits (hfit : db.HeightsFit) (targetBlockHeight batchSize : Nat)
    (shardIndex : UInt8) :
    VisitsAtHeight db targetBlockHeight (fun scriptHash => shardOf scriptHash = shardIndex)
      ((db.shardBatches targetBlockHeight batchSize shardIndex).flatMap (·.1)) := by
  have hvisits := picked_visits (fun value => 0 < value.balance) targetBlockHeight
    (fun scriptHash => shardOf scriptHash = shardIndex) (shardRows_scriptRows hfit shardIndex)
    (fun row hmem => (shardRows_eq hfit shardIndex row).trans (and_iff_right hmem))
  unfold shardBatches
  rw [batches_flatMap]
  exact ⟨hvisits.once, hvisits.mem_iff_getBalance⟩

/-- All shards, with their batches handed out in any order. -/
theorem shardBatches_merged (hfit : db.HeightsFit) (targetBlockHeight batchSize : Nat)
    {merged : List (List BalanceHistoryEntry × Nat)}
    (hmerged : merged.Perm ((List.range 256).flatMap (fun i =>
      db.shardBatches targetBlockHeight batchSize (UInt8.ofNat i)))) :
    VisitsAtHeight db targetBlockHeight (fun _ => True) (merged.flatMap (·.1)) := by
  have hshard := shardBatches_visits hfit targetBlockHeight batchSize
  have hperm := hmerged.flatMap_right (·.1)
  rw [List.flatMap_assoc] at hperm
  constructor
  · rw [(hperm.map _).nodup_iff, List.map_flatMap, List.nodup_flatMap]
    refine ⟨fun i _ => (hshard (UInt8.ofNat i)).once, ?_⟩
    refine List.nodup_range.pairwise_of_forall_ne (fun i hi j hj hne => ?_)
    intro scriptHash hmem hmem'
    obtain ⟨entry, hentry, rfl⟩ := List.mem_map.mp hmem
    obtain ⟨entry', hentry', heq⟩ := List.mem_map.mp hmem'
    have hi' := (((hshard _).mem entry).mp hentry).1
    have hj' := (((hshard _).mem entry').mp hentry').1
    rw [heq, hi', ← UInt8.toNat_inj, UInt8.toNat_ofNat', UInt8.toNat_ofNat',
      Nat.mod_eq_of_lt (List.mem_range.mp hi), Nat.mod_eq_of_lt (List.mem_range.mp hj)] at hj'
    exact hne hj'
  · intro entry
    rw [hperm.mem_iff, List.mem_flatMap]
    constructor
    · rintro ⟨i, -, hentry⟩
      exact ⟨trivial, (((hshard _).mem entry).mp hentry).2⟩
    · rintro ⟨-, hentry⟩
      refine ⟨(shardOf entry.scriptHash).toNat, List.mem_range.mpr (UInt8.toNat_lt _), ?_⟩
      rw [UInt8.ofNat_toNat]
      exact ((hshard _).mem entry).mpr ⟨rfl, hentry⟩

/-- `traverse_latest` visits every script hash that has a row, with its latest row. -/
theorem traverseLatest_visits (hfit : db.HeightsFit) (startScriptHash : Option USDBScriptHash)
    (hsize : 0 < batchSize) :
    ∃ batches : List (List BalanceHistoryEntry),
      (∀ {ε σ : Type} (panicked : ε) (callback : σ → List BalanceHistoryEntry → Except ε σ) (s : σ),
        db.traverseLatest panicked startScriptHash batchSize callback s = batches.foldlM callback s) ∧
      Visits db (fun _ => true) (2 ^ 32 - 1)
        (fun scriptHash => ∀ start ∈ startScriptHash, scriptHash ≤ start) batches.flatten := by
  have hvisits := picked_visits (fun _ => true) (2 ^ 32 - 1)
    (fun scriptHash => ∀ start ∈ startScriptHash, scriptHash ≤ start)
    (traverseRows_scriptRows hfit startScriptHash)
    (fun row hmem => (mem_traverseRows hfit startScriptHash row).trans (and_iff_right hmem))
  refine ⟨(batches (fun _ => true) (2 ^ 32 - 1) batchSize
    (db.traverseRows startScriptHash) .start).map (·.1), ?_, ?_⟩
  · intro ε σ panicked callback s
    unfold traverseLatest
    rw [if_pos hsize, traverse_foldlM]
  · rw [← List.flatMap_def, batches_flatMap]
    exact hvisits

end Exports

/-- An empty range and an empty batch are failed assertions. -/
theorem balanceQueries_panic :
    (¬ ∃ rows, BalanceHistoryDB.empty.getBalanceInRange 0 5 5 = .ok rows) ∧
      ¬ ∃ s : Unit, BalanceHistoryDB.empty.traverseAtHeight BalanceHistoryError.panic none 5 0
        (fun s _ => .ok s) () = .ok s := by
  constructor
  · rintro ⟨rows, h⟩
    cases h
  · rintro ⟨s, h⟩
    cases h

/-- The access paths to the balance rows agree: each answers from the rows of its script
hash alone, the bulk exports with the rows of the point query. -/
theorem balanceQueries_agree (db : BalanceHistoryDB) (hfit : db.HeightsFit) :
    (∀ scriptHash height, db.getBalanceAtBlockHeight scriptHash height =
        balanceData (findLast (db.row scriptHash) height)) ∧
      (∀ scriptHash height, (∀ k, (db.row scriptHash k).isSome → k ≤ height) →
        db.getLatestBalance scriptHash = db.getBalanceAtBlockHeight scriptHash height) ∧
      (∀ scriptHash low high, low < high → ∃ rows,
        db.getBalanceInRange scriptHash low high = .ok rows ∧
          rows.Pairwise (fun a b => a.blockHeight < b.blockHeight) ∧
          ∀ data, data ∈ rows ↔ low ≤ data.blockHeight ∧ data.blockHeight < high ∧
            db.row scriptHash data.blockHeight = some ⟨data.delta, data.balance⟩) ∧
      (∀ scriptHash height data, db.getBalanceDeltaAtBlockHeight scriptHash height = some data ↔
        data.blockHeight = height ∧ db.row scriptHash height = some ⟨data.delta, data.balance⟩) ∧
      (∀ startScriptHash height batchSize, 0 < batchSize →
        ∃ batches : List (List BalanceHistoryEntry),
          (∀ (ε σ : Type) (panicked : ε) (callback : σ → List BalanceHistoryEntry → Except ε σ)
            (s : σ), db.traverseAtHeight panicked startScriptHash height batchSize callback s =
              batches.foldlM callback s) ∧
          (∀ batch ∈ batches, batch ≠ [] ∧ batch.length ≤ batchSize) ∧
          VisitsAtHeight db height (fun scriptHash => ∀ start ∈ startScriptHash, scriptHash ≤ start)
            batches.flatten) ∧
      (∀ height batchSize, ∃ shards : UInt8 → List (List BalanceHistoryEntry × Nat),
        (∀ (ε σ : Type) (shardIndex : UInt8)
          (callback : σ → List BalanceHistoryEntry → Nat → Except ε σ) (s : σ),
          db.generateBalanceHistorySnapshotSharded height shardIndex batchSize callback s =
            (shards shardIndex).foldlM (fun s batch => callback s batch.1 batch.2) s) ∧
        ∀ merged : List (List BalanceHistoryEntry × Nat),
          merged.Perm ((List.range 256).flatMap (fun i => shards (UInt8.ofNat i))) →
            VisitsAtHeight db height (fun _ => True) (merged.flatMap (·.1))) := by
  refine ⟨fun scriptHash height => db.getBalanceAtBlockHeight_eq scriptHash height,
    fun scriptHash height hrows => db.getLatestBalance_eq scriptHash hfit hrows,
    fun scriptHash low high hrange => ⟨db.rowsInRange scriptHash low high,
      db.getBalanceInRange_eq scriptHash low high hrange,
      db.rowsInRange_pairwise scriptHash low high,
      fun data => db.mem_rowsInRange scriptHash low high⟩, ?_, ?_, ?_⟩
  · intro scriptHash height data
    unfold getBalanceDeltaAtBlockHeight row
    rw [Option.map_eq_some_iff]
    constructor
    · rintro ⟨value, hrow, rfl⟩
      exact ⟨rfl, hrow⟩
    · rintro ⟨rfl, hrow⟩
      exact ⟨_, hrow, rfl⟩
  · intro startScriptHash height batchSize hsize
    obtain ⟨batches, hbatches, hrest⟩ :=
      traverseAtHeight_visits hfit startScriptHash height hsize
    exact ⟨batches, fun _ _ panicked callback s => hbatches panicked callback s, hrest⟩
  · intro height batchSize
    exact ⟨db.shardBatches height batchSize, fun _ _ shardIndex callback s =>
      scanLoop_eq_foldlM callback _ _ s, fun merged => shardBatches_merged hfit height batchSize⟩

section Sample

/-- Rows of two neighbouring script hashes, at height 0 and at the greatest height. -/
def sampleRows : BalanceHistoryDB :=
  { BalanceHistoryDB.empty with
    balanceHistory := ((∅ : Table BalanceKey BalanceValue).insert ⟨1, 2 ^ 32 - 1⟩ ⟨4, 4⟩).insert
      ⟨2, 0⟩ ⟨7, 7⟩ }

theorem sampleRows_heightsFit : sampleRows.HeightsFit := by
  rintro ⟨key, value⟩ hrow
  rw [Table.mem_toList] at hrow
  unfold sampleRows at hrow
  simp only [Table.getElem?_put] at hrow
  split at hrow
  · next heq =>
    rw [← heq]
    norm_num
  · split at hrow
    · next heq =>
      rw [← heq]
      norm_num
    · simp at hrow

theorem balanceQueries_agree_sample :
    ∃ rows, sampleRows.getBalanceInRange 2 0 (2 ^ 32 - 1) = .ok rows ∧
      rows.Pairwise (fun a b => a.blockHeight < b.blockHeight) ∧
      ∀ data, data ∈ rows ↔ 0 ≤ data.blockHeight ∧ data.blockHeight < 2 ^ 32 - 1 ∧
        sampleRows.row 2 data.blockHeight = some ⟨data.delta, data.balance⟩ :=
  (balanceQueries_agree sampleRows sampleRows_heightsFit).2.2.1 2 0 (2 ^ 32 - 1) (by norm_num)

end Sample

end BalanceHistoryDB

end Usdb.Balances
