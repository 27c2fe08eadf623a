import Usdb.Framework.KeyScan
import Usdb.Balances.BalanceRows

namespace Usdb.Balances

open Framework

/-- The shard of a script hash: the first byte of its keys. -/
def shardOf (scriptHash : USDBScriptHash) : UInt8 := UInt8.ofNat (scriptHash.val / 2 ^ 248)

/-- The loop of `get_balance_in_range` over the rows its iterator yields. -/
def rangeLoop (scriptHash : USDBScriptHash) (rangeEnd : Nat) :
    List (BalanceKey × BalanceValue) → List BalanceHistoryData → List BalanceHistoryData
  | [], results => results
  | (key, value) :: rest, results =>
    if key.scriptHash ≠ scriptHash then results
    else if rangeEnd ≤ key.blockHeight then results
    else rangeLoop scriptHash rangeEnd rest
      (results ++ [⟨key.blockHeight, value.delta, value.balance⟩])

/-- What the loops below carry along the rows. -/
structure Scan where
  currentScriptHash : Option USDBScriptHash
  currentFounded : Bool
  snapshot : List BalanceHistoryEntry
  entriesProcessed : Nat

namespace Scan

def start : Scan where
  currentScriptHash := none
  currentFounded := false
  snapshot := []
  entriesProcessed := 0

/-- A new script hash has not been founded. -/
def stillFounded (current : Option USDBScriptHash) (founded : Bool)
    (scriptHash : USDBScriptHash) : Bool :=
  if current = some scriptHash then founded else false

/-- Count a row, and note when it begins a new script hash. -/
def moveTo (scan : Scan) (scriptHash : USDBScriptHash) : Scan :=
  { scan with
    entriesProcessed := scan.entriesProcessed + 1
    currentScriptHash := some scriptHash
    currentFounded := stillFounded scan.currentScriptHash scan.currentFounded scriptHash }

def push (scan : Scan) (key : BalanceKey) (value : BalanceValue) : Scan :=
  { scan with
    snapshot := scan.snapshot ++ [⟨key.scriptHash, key.blockHeight, value.delta, value.balance⟩] }

def flushed (scan : Scan) : Scan := { scan with snapshot := [], entriesProcessed := 0 }

end Scan

section ScanLoop

variable {ε σ : Type} (callback : σ → List BalanceHistoryEntry → Nat → Except ε σ)
  (keep : BalanceValue → Bool) (targetBlockHeight batchSize : Nat)

/-- The loop of the traversals and of the sharded export. They differ in the rows their
iterators yield and in the values they keep; only the export reports the count of
processed rows. -/
def scanLoop : List (BalanceKey × BalanceValue) → Scan → σ → Except ε σ
  | [], scan, s =>
    if scan.snapshot.isEmpty then .ok s else callback s scan.snapshot scan.entriesProcessed
  | (key, value) :: rest, scan, s => do
    let scan := scan.moveTo key.scriptHash
    if scan.currentFounded = false ∧ key.blockHeight ≤ targetBlockHeight then
      let scan := { scan with currentFounded := true }
      if keep value then
        let scan := scan.push key value
        if batchSize ≤ scan.snapshot.length then
          let s ← callback s scan.snapshot scan.entriesProcessed
          scanLoop rest scan.flushed s
        else scanLoop rest scan s
      else scanLoop rest scan s
    else scanLoop rest scan s

end ScanLoop

namespace BalanceHistoryDB

variable (db : BalanceHistoryDB) {ε σ : Type}

/-- The keys of rows have their height in four bytes. -/
def HeightsFit : Prop := ∀ row ∈ db.balanceHistory.toList, row.1.blockHeight < 2 ^ 32

def getBalanceInRange (scriptHash : USDBScriptHash) (rangeBegin rangeEnd : Nat) :
    Except BalanceHistoryError (List BalanceHistoryData) :=
  if rangeBegin < rangeEnd then
    .ok (rangeLoop scriptHash rangeEnd (db.balanceHistory.ascend ⟨scriptHash, rangeBegin⟩) [])
  else .error .panic

def getBalanceDeltaAtBlockHeight (scriptHash : USDBScriptHash) (targetHeight : Nat) :
    Option BalanceHistoryData :=
  db.balanceHistory[BalanceKey.mk scriptHash targetHeight]?.map (fun value =>
    ⟨targetHeight, value.delta, value.balance⟩)

/-- The iterator of a traversal: from the last key of a script hash, or from the end. -/
def traverseRows : Option USDBScriptHash → List (BalanceKey × BalanceValue)
  | some scriptHash => db.balanceHistory.descend ⟨scriptHash, 2 ^ 32 - 1⟩
  | none => db.balanceHistory.descendAll

/-- `panicked` is what a failed assertion is reported as. -/
def traverseAtHeight (panicked : ε) (startScriptHash : Option USDBScriptHash)
    (targetBlockHeight batchSize : Nat)
    (callback : σ → List BalanceHistoryEntry → Except ε σ) (s : σ) : Except ε σ :=
  if 0 < batchSize then
    scanLoop (fun s entries _ => callback s entries) (fun value => 0 < value.balance)
      targetBlockHeight batchSize (db.traverseRows startScriptHash) .start s
  else .error panicked

/-- Every script hash with its latest row, also when that row has no balance. -/
def traverseLatest (panicked : ε) (startScriptHash : Option USDBScriptHash) (batchSize : Nat)
    (callback : σ → List BalanceHistoryEntry → Except ε σ) (s : σ) : Except ε σ :=
  if 0 < batchSize then
    scanLoop (fun s entries _ => callback s entries) (fun _ => true) (2 ^ 32 - 1) batchSize
      (db.traverseRows startScriptHash) .start s
  else .error panicked

/-- The seek key has the shard's byte and then only 0xFF bytes. -/
def shardSeekKey (shardIndex : UInt8) : BalanceKey where
  scriptHash := Fin.ofNat (2 ^ 256) ((shardIndex.toNat + 1) * 2 ^ 248 - 1)
  blockHeight := 2 ^ 32 - 1

def generateBalanceHistorySnapshotSharded (targetBlockHeight : Nat) (shardIndex : UInt8)
    (batchSize : Nat) (callback : σ → List BalanceHistoryEntry → Nat → Except ε σ) (s : σ) :
    Except ε σ :=
  scanLoop callback (fun value => 0 < value.balance) targetBlockHeight batchSize
    ((db.balanceHistory.descend (shardSeekKey shardIndex)).takeWhile
      (fun row => shardOf row.1.scriptHash = shardIndex)) .start s

end BalanceHistoryDB

section Keys

variable {key key' : BalanceKey} {scriptHash : USDBScriptHash} {low high : Nat}

theorem BalanceKey.isLE_iff : (compare key key').isLE ↔
    key.scriptHash < key'.scriptHash ∨
      key.scriptHash = key'.scriptHash ∧ key.blockHeight ≤ key'.blockHeight :=
  BalanceKey.compare_isLE _ _ _ _

/-- Between two keys of one script hash there are only keys of this script hash. -/
theorem BalanceKey.between (hlow : (compare (BalanceKey.mk scriptHash low) key).isLE)
    (hhigh : (compare key ⟨scriptHash, high⟩).isLE) :
    key.scriptHash = scriptHash ∧ low ≤ key.blockHeight ∧ key.blockHeight ≤ high := by
  rcases BalanceKey.isLE_iff.mp hlow with hlt | ⟨heq, hle⟩
  · rcases BalanceKey.isLE_iff.mp hhigh with hlt' | ⟨heq', -⟩
    · exact absurd hlt (not_lt_of_gt hlt')
    · exact absurd hlt (heq' ▸ lt_irrefl _)
  · rcases BalanceKey.isLE_iff.mp hhigh with hlt' | ⟨-, hle'⟩
    · exact absurd hlt' (heq ▸ lt_irrefl _)
    · exact ⟨heq.symm, hle, hle'⟩

end Keys

namespace BalanceHistoryDB

variable (db : BalanceHistoryDB) (scriptHash : USDBScriptHash) (low high : Nat)

/-- The rows of a script hash with heights from a lower bound up to, not including, an
upper bound, in ascending order. -/
def rowsInRange : List BalanceHistoryData :=
  (List.range' low (high - low)).filterMap (fun height =>
    (db.row scriptHash height).map (fun value => ⟨height, value.delta, value.balance⟩))

def beforeRangeEnd (row : BalanceKey × BalanceValue) : Bool :=
  row.1.scriptHash = scriptHash && row.1.blockHeight < high

theorem rangeLoop_eq (rows : List (BalanceKey × BalanceValue)) (results : List BalanceHistoryData) :
    rangeLoop scriptHash high rows results =
      results ++ (rows.takeWhile (beforeRangeEnd scriptHash high)).map
        (fun row => ⟨row.1.blockHeight, row.2.delta, row.2.balance⟩) := by
  induction rows generalizing results with
  | nil => simp [rangeLoop]
  | cons row rows ih =>
    obtain ⟨key, value⟩ := row
    unfold rangeLoop
    by_cases hscript : key.scriptHash = scriptHash
    · rw [if_neg (not_not_intro hscript)]
      by_cases hheight : high ≤ key.blockHeight
      · have hout : ¬ beforeRangeEnd scriptHash high (key, value) = true := by
          simp [beforeRangeEnd, hheight]
        rw [if_pos hheight, List.takeWhile_cons_of_neg hout, List.map_nil, List.append_nil]
      · have hin : beforeRangeEnd scriptHash high (key, value) = true := by
          simp only [beforeRangeEnd, hscript, decide_true, Bool.true_and, decide_eq_true_eq]
          omega
        rw [if_neg hheight, ih, List.takeWhile_cons_of_pos hin, List.map_cons, List.append_assoc]
        rfl
    · have hout : ¬ beforeRangeEnd scriptHash high (key, value) = true := by
        simp [beforeRangeEnd, hscript]
      rw [if_pos hscript, List.takeWhile_cons_of_neg hout, List.map_nil, List.append_nil]

theorem takeWhile_ascend_range (hrange : low < high) :
    (db.balanceHistory.ascend ⟨scriptHash, low⟩).takeWhile (beforeRangeEnd scriptHash high) =
      db.balanceHistory.band (BalanceKey.mk scriptHash) low (high - low) := by
  rw [Table.takeWhile_ascend]
  · refine Table.filter_eq_band ?_ ?_
    · intro m n _ hlt _
      show (compare scriptHash scriptHash).then (compare m n) = .lt
      rw [Std.compare_self, Ordering.eq_then, Nat.compare_eq_lt]
      exact hlt
    · rintro ⟨⟨s, height⟩, value⟩ -
      simp only [beforeRangeEnd, Bool.and_eq_true, decide_eq_true_eq, BalanceKey.mk.injEq,
        BalanceKey.compare_isLE]
      constructor
      · rintro ⟨hle, rfl, hlt⟩
        refine ⟨height, ?_, by omega, rfl, rfl⟩
        rcases hle with hlt' | ⟨-, hle⟩
        · exact absurd hlt' (lt_irrefl _)
        · exact hle
      · rintro ⟨n, hlow, hhigh, rfl, rfl⟩
        exact ⟨.inr ⟨rfl, hlow⟩, rfl, by omega⟩
  · rintro ⟨key, value⟩ ha ⟨⟨s, height⟩, value'⟩ - hlt hin
    simp only [beforeRangeEnd, Bool.and_eq_true, decide_eq_true_eq] at hin ⊢
    obtain ⟨rfl, hheight⟩ := hin
    have hle : (compare key ⟨s, height⟩).isLE := by
      rw [hlt]
      rfl
    obtain ⟨hscript, -, hbelow⟩ := BalanceKey.between (Table.mem_ascend.mp ha).2 hle
    exact ⟨hscript, Nat.lt_of_le_of_lt hbelow hheight⟩

theorem getBalanceInRange_eq (hrange : low < high) :
    db.getBalanceInRange scriptHash low high = .ok (db.rowsInRange scriptHash low high) := by
  unfold getBalanceInRange rowsInRange
  rw [if_pos hrange, rangeLoop_eq, takeWhile_ascend_range db scriptHash low high hrange,
    List.nil_append]
  unfold Table.band
  rw [List.map_filterMap]
  congr 1
  refine List.filterMap_congr (fun height _ => ?_)
  rw [Option.map_map]
  rfl

theorem mem_rowsInRange {data : BalanceHistoryData} :
    data ∈ db.rowsInRange scriptHash low high ↔
      low ≤ data.blockHeight ∧ data.blockHeight < high ∧
        db.row scriptHash data.blockHeight = some ⟨data.delta, data.balance⟩ := by
  unfold rowsInRange
  rw [List.mem_filterMap]
  constructor
  · rintro ⟨height, hheight, hrow⟩
    obtain ⟨value, hget, rfl⟩ := Option.map_eq_some_iff.mp hrow
    obtain ⟨hlow, hhigh⟩ := List.mem_range'_1.mp hheight
    have hlt : height < high := by omega
    exact ⟨hlow, hlt, hget⟩
  · rintro ⟨hlow, hhigh, hrow⟩
    refine ⟨data.blockHeight, ?_, ?_⟩
    · rw [List.mem_range'_1]
      omega
    · rw [hrow]
      rfl

theorem rowsInRange_pairwise :
    (db.rowsInRange scriptHash low high).Pairwise (fun a b => a.blockHeight < b.blockHeight) := by
  unfold rowsInRange
  rw [List.pairwise_filterMap]
  refine List.Pairwise.imp ?_ List.pairwise_lt_range'
  intro m n hlt a ha b hb
  obtain ⟨_, -, rfl⟩ := Option.map_eq_some_iff.mp ha
  obtain ⟨_, -, rfl⟩ := Option.map_eq_some_iff.mp hb
  exact hlt

/-- The latest balance is the one at any height that no row is above. -/
theorem getLatestBalance_eq {height : Nat} (hfit : db.HeightsFit)
    (hrows : ∀ k, (db.row scriptHash k).isSome → k ≤ height) :
    db.getLatestBalance scriptHash = db.getBalanceAtBlockHeight scriptHash height := by
  have hnone : ∀ k, 2 ^ 32 ≤ k → db.row scriptHash k = none := by
    intro k hk
    cases hget : db.row scriptHash k with
    | none => rfl
    | some value =>
      have := hfit (⟨scriptHash, k⟩, value) (Table.mem_toList.mpr hget)
      dsimp only at this
      omega
  have hfind : ∀ bound, (∀ k, (db.row scriptHash k).isSome → k ≤ bound) →
      ∀ k value, findLast (db.row scriptHash) bound = some (k, value) ↔
        db.row scriptHash k = some value ∧ ∀ j, k < j → db.row scriptHash j = none := by
    intro bound hbound k value
    rw [findLast_eq_some]
    constructor
    · rintro ⟨hk, hrow, habove⟩
      refine ⟨hrow, fun j hj => ?_⟩
      cases hget : db.row scriptHash j with
      | none => rfl
      | some value' =>
        have hle := hbound j (by rw [hget]; rfl)
        rw [habove j hj hle] at hget
        cases hget
    · rintro ⟨hrow, habove⟩
      exact ⟨hbound k (by rw [hrow]; rfl), hrow, fun j hj _ => habove j hj⟩
  have hmax : ∀ k, (db.row scriptHash k).isSome → k ≤ 2 ^ 32 - 1 := by
    intro k hk
    by_contra hlt
    rw [hnone k (by omega)] at hk
    cases hk
  have heq : findLast (db.row scriptHash) (2 ^ 32 - 1) = findLast (db.row scriptHash) height := by
    apply Option.ext
    rintro ⟨k, value⟩
    rw [hfind _ hmax, hfind _ hrows]
  unfold getLatestBalance
  rw [getBalanceAtBlockHeight_eq, getBalanceAtBlockHeight_eq, heq]

end BalanceHistoryDB

end Usdb.Balances
