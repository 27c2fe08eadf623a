import Mathlib.Algebra.BigOperators.Group.List.Basic
import Mathlib.Algebra.Order.BigOperators.Group.List
import Mathlib.Tactic.NormNum
import Mathlib.Tactic.Positivity
import Usdb.Balances.BalanceQueries

namespace Usdb.Balances

open Framework

inductive AggregateError
  | emptyRange (rangeStart rangeEnd : Nat)
  | snapshotNotReady
  | heightNotSynced (requestedHeight stableHeight : Nat)
  | bucketSizeZero
  | tooManyBuckets (bucketCount : Nat)
  | internal (error : BalanceHistoryError)
deriving DecidableEq, Repr

structure AddressBalanceSummary where
  rangeStart : Nat
  rangeEnd : Nat
  startBalance : Nat
  endBalance : Nat
  changeCount : Nat
  totalInflow : Nat
  totalOutflow : Nat
  netDelta : Int
  firstMovementHeight : Option Nat
  latestMovementHeight : Option Nat
  peakBalance : Nat
  peakHeight : Nat
  lowBalance : Nat
  lowHeight : Nat
deriving DecidableEq, Repr

structure AddressBalanceTimeseriesPoint where
  bucketStart : Nat
  bucketEnd : Nat
  balance : Nat
  netDelta : Int
  changeCount : Nat
  latestMovementHeight : Option Nat
deriving DecidableEq, Repr

structure AddressFlowBucket where
  bucketStart : Nat
  bucketEnd : Nat
  inflow : Nat
  outflow : Nat
  netDelta : Int
  changeCount : Nat
deriving DecidableEq, Repr

def maxAddressAggregateBuckets : Nat := 2000

section Accumulators

/-- `+=` on `u64`, which wraps in a release build. -/
def addU64 (a b : Nat) : Nat := (a + b) % 2 ^ 64

/-- `+=` on `i64`, which wraps in a release build. -/
def addI64 (a b : Int) : Int := (a + b).bmod (2 ^ 64)

/-- `as u64`. -/
def asU64 (a : Int) : Nat := (a % 2 ^ 64).toNat

def saturatingAddU32 (a b : Nat) : Nat := min (a + b) (2 ^ 32 - 1)

def addInflow (total : Nat) (row : BalanceHistoryData) : Nat :=
  if 0 ≤ row.delta then addU64 total (asU64 row.delta) else total

def addOutflow (total : Nat) (row : BalanceHistoryData) : Nat :=
  if 0 ≤ row.delta then total else addU64 total (asU64 (-row.delta))

end Accumulators

namespace AddressBalanceSummary

/-- The body of the loop of `build_address_balance_summary`. -/
def addRow (summary : AddressBalanceSummary) (row : BalanceHistoryData) : AddressBalanceSummary :=
  { summary with
    changeCount := addU64 summary.changeCount 1
    netDelta := addI64 summary.netDelta row.delta
    totalInflow := addInflow summary.totalInflow row
    totalOutflow := addOutflow summary.totalOutflow row
    firstMovementHeight := some (summary.firstMovementHeight.getD row.blockHeight)
    latestMovementHeight := some row.blockHeight
    peakBalance := if summary.peakBalance < row.balance then row.balance else summary.peakBalance
    peakHeight := if summary.peakBalance < row.balance then row.blockHeight else summary.peakHeight
    lowBalance := if row.balance < summary.lowBalance then row.balance else summary.lowBalance
    lowHeight := if row.balance < summary.lowBalance then row.blockHeight else summary.lowHeight }

end AddressBalanceSummary

def AddressBalanceTimeseriesPoint.addRow (point : AddressBalanceTimeseriesPoint)
    (row : BalanceHistoryData) : AddressBalanceTimeseriesPoint :=
  { point with
    balance := row.balance
    netDelta := addI64 point.netDelta row.delta
    changeCount := addU64 point.changeCount 1
    latestMovementHeight := some row.blockHeight }

def AddressFlowBucket.addRow (bucket : AddressFlowBucket) (row : BalanceHistoryData) :
    AddressFlowBucket :=
  { bucket with
    inflow := addInflow bucket.inflow row
    outflow := addOutflow bucket.outflow row
    netDelta := addI64 bucket.netDelta row.delta
    changeCount := addU64 bucket.changeCount 1 }

/-- The loop of both bucket queries: each bucket takes the rows before its end from what
is left of the rows, and hands a value on to the next. The fuel bounds the buckets. -/
def bucketLoop {α σ : Type} (bucket : Nat → Nat → σ → List BalanceHistoryData → α)
    (next : α → σ) (bucketSize rangeEnd : Nat) :
    Nat → List BalanceHistoryData → Nat → σ → List α
  | 0, _, _, _ => []
  | fuel + 1, rows, bucketStart, current =>
    if bucketStart < rangeEnd then
      let bucketEnd := min (saturatingAddU32 bucketStart bucketSize) rangeEnd
      let result := bucket bucketStart bucketEnd current
        (rows.takeWhile (fun row => row.blockHeight < bucketEnd))
      result :: bucketLoop bucket next bucketSize rangeEnd fuel
        (rows.dropWhile (fun row => row.blockHeight < bucketEnd)) bucketEnd (next result)
    else []

namespace BalanceHistoryDB

variable (db : BalanceHistoryDB) (scriptHash : USDBScriptHash) (rangeStart rangeEnd bucketSize : Nat)

def validateRequestedRange : Except AggregateError Unit :=
  match db.blockCommits[db.getBtcBlockHeight]? with
  | none => .error .snapshotNotReady
  | some _ =>
    if rangeStart < rangeEnd ∧ db.getBtcBlockHeight < rangeEnd - 1 then
      .error (.heightNotSynced (rangeEnd - 1) db.getBtcBlockHeight)
    else .ok ()

def validateAggregateRange : Except AggregateError Unit :=
  if rangeEnd ≤ rangeStart then .error (.emptyRange rangeStart rangeEnd)
  else db.validateRequestedRange rangeStart rangeEnd

def validateBucketParams (rangeStart rangeEnd bucketSize : Nat) : Except AggregateError Nat :=
  if bucketSize = 0 then .error .bucketSizeZero
  else
    let bucketCount := (rangeEnd - rangeStart + bucketSize - 1) / bucketSize
    if maxAddressAggregateBuckets < bucketCount then .error (.tooManyBuckets bucketCount)
    else .ok bucketCount

def getBalanceBeforeRange : BalanceHistoryData :=
  if rangeStart = 0 then ⟨0, 0, 0⟩
  else db.getBalanceAtBlockHeight scriptHash (rangeStart - 1)

def getBalanceAtRangeEnd : BalanceHistoryData :=
  db.getBalanceAtBlockHeight scriptHash (rangeEnd - 1)

def getRangeBalanceRows : Except AggregateError (List BalanceHistoryData) :=
  (db.getBalanceInRange scriptHash rangeStart rangeEnd).mapError .internal

def initialSummary : AddressBalanceSummary :=
  let start := db.getBalanceBeforeRange scriptHash rangeStart
  let last := db.getBalanceAtRangeEnd scriptHash rangeEnd
  { rangeStart := rangeStart
    rangeEnd := rangeEnd
    startBalance := start.balance
    endBalance := last.balance
    changeCount := 0
    totalInflow := 0
    totalOutflow := 0
    netDelta := 0
    firstMovementHeight := none
    latestMovementHeight := none
    peakBalance := start.balance
    peakHeight := rangeStart
    lowBalance := start.balance
    lowHeight := rangeStart }

def buildAddressBalanceSummary (rows : List BalanceHistoryData) : AddressBalanceSummary :=
  rows.foldl AddressBalanceSummary.addRow (db.initialSummary scriptHash rangeStart rangeEnd)

def getAddressBalanceSummary : Except AggregateError AddressBalanceSummary := do
  db.validateAggregateRange rangeStart rangeEnd
  let rows ← db.getRangeBalanceRows scriptHash rangeStart rangeEnd
  return db.buildAddressBalanceSummary scriptHash rangeStart rangeEnd rows

def getAddressBalanceTimeseries : Except AggregateError (List AddressBalanceTimeseriesPoint) := do
  db.validateAggregateRange rangeStart rangeEnd
  let _ ← validateBucketParams rangeStart rangeEnd bucketSize
  let rows ← db.getRangeBalanceRows scriptHash rangeStart rangeEnd
  return bucketLoop
    (fun bucketStart bucketEnd current bucketRows =>
      bucketRows.foldl AddressBalanceTimeseriesPoint.addRow
        ⟨bucketStart, bucketEnd, current, 0, 0, none⟩)
    (·.balance) bucketSize rangeEnd (rangeEnd - rangeStart) rows rangeStart
    (db.getBalanceBeforeRange scriptHash rangeStart).balance

def getAddressFlowBuckets : Except AggregateError (List AddressFlowBucket) := do
  db.validateAggregateRange rangeStart rangeEnd
  let _ ← validateBucketParams rangeStart rangeEnd bucketSize
  let rows ← db.getRangeBalanceRows scriptHash rangeStart rangeEnd
  return bucketLoop
    (fun bucketStart bucketEnd (_ : Unit) bucketRows =>
      bucketRows.foldl AddressFlowBucket.addRow ⟨bucketStart, bucketEnd, 0, 0, 0, 0⟩)
    (fun _ => ()) bucketSize rangeEnd (rangeEnd - rangeStart) rows rangeStart ()

end BalanceHistoryDB

section Sums

/-- The rows' changes, their positive part and their negative part. -/
def netOf (rows : List BalanceHistoryData) : Int := (rows.map (·.delta)).sum

def inflowOf (rows : List BalanceHistoryData) : Nat := (rows.map (·.delta.toNat)).sum

def outflowOf (rows : List BalanceHistoryData) : Nat := (rows.map (fun row => (-row.delta).toNat)).sum

/-- A wrapping accumulator holds the wrapped sum. -/
theorem foldl_wrapU64 {step : Nat → BalanceHistoryData → Nat} {amount : BalanceHistoryData → Nat}
    (hstep : ∀ total row, total < 2 ^ 64 → step total row = (total + amount row) % 2 ^ 64)
    (rows : List BalanceHistoryData) {total : Nat} (htotal : total < 2 ^ 64) :
    rows.foldl step total = (total + (rows.map amount).sum) % 2 ^ 64 := by
  induction rows generalizing total with
  | nil => exact (Nat.mod_eq_of_lt htotal).symm
  | cons row rows ih =>
    rw [List.foldl_cons, hstep total row htotal, ih (Nat.mod_lt _ (by positivity)),
      Nat.mod_add_mod, List.map_cons, List.sum_cons, Nat.add_assoc]

theorem foldl_addI64 (rows : List BalanceHistoryData) (total : Int) :
    rows.foldl (fun total row => addI64 total row.delta) (total.bmod (2 ^ 64)) =
      (total + netOf rows).bmod (2 ^ 64) := by
  induction rows generalizing total with
  | nil => simp [netOf]
  | cons row rows ih =>
    have hstep : addI64 (total.bmod (2 ^ 64)) row.delta = (total + row.delta).bmod (2 ^ 64) :=
      Int.bmod_add_bmod
    rw [List.foldl_cons, hstep, ih]
    unfold netOf
    rw [List.map_cons, List.sum_cons, Int.add_assoc]

theorem addInflow_eq (total : Nat) (row : BalanceHistoryData) (htotal : total < 2 ^ 64) :
    addInflow total row = (total + row.delta.toNat) % 2 ^ 64 := by
  unfold addInflow addU64 asU64
  split
  · next hpos =>
    have hmod : (row.delta % 2 ^ 64).toNat = row.delta.toNat % 2 ^ 64 := by
      rw [Int.toNat_emod hpos (by norm_num)]
      rfl
    rw [hmod, Nat.add_mod_mod]
  · next hneg =>
    rw [Int.toNat_of_nonpos (by omega), Nat.add_zero, Nat.mod_eq_of_lt htotal]

theorem addOutflow_eq (total : Nat) (row : BalanceHistoryData) (htotal : total < 2 ^ 64) :
    addOutflow total row = (total + (-row.delta).toNat) % 2 ^ 64 := by
  unfold addOutflow addU64 asU64
  split
  · next hpos => rw [Int.toNat_of_nonpos (by omega), Nat.add_zero, Nat.mod_eq_of_lt htotal]
  · next hneg =>
    have hmod : (-row.delta % 2 ^ 64).toNat = (-row.delta).toNat % 2 ^ 64 := by
      rw [Int.toNat_emod (by omega) (by norm_num)]
      rfl
    rw [hmod, Nat.add_mod_mod]

end Sums

section Rows

/-- The balance that the rows below a height leave. -/
def balanceBefore (row : Nat → Option BalanceValue) : Nat → Nat
  | 0 => 0
  | height + 1 =>
    match row height with
    | some value => value.balance
    | none => balanceBefore row height

/-- The rows were written by a sync from genesis: each balance is the one before it plus
the row's change, and settlement keeps balances in `i64`. -/
def RowsSynced (row : Nat → Option BalanceValue) : Prop :=
  ∀ height value, row height = some value →
    (value.balance : Int) = balanceBefore row height + value.delta ∧ value.balance < 2 ^ 63

variable {row : Nat → Option BalanceValue}

theorem balanceBefore_none {height : Nat} (h : row height = none) :
    balanceBefore row (height + 1) = balanceBefore row height := by
  rw [balanceBefore, h]

theorem balanceBefore_some {height : Nat} {value : BalanceValue} (h : row height = some value) :
    balanceBefore row (height + 1) = value.balance := by
  rw [balanceBefore, h]

theorem balanceBefore_succ (row : Nat → Option BalanceValue) (height : Nat) :
    balanceBefore row (height + 1) = (balanceData (findLast row height)).balance := by
  induction height with
  | zero =>
    unfold balanceBefore findLast
    cases row 0 <;> rfl
  | succ height ih =>
    unfold balanceBefore findLast
    cases row (height + 1) with
    | some value => rfl
    | none => exact ih

theorem RowsSynced.balanceBefore_lt (h : RowsSynced row) (height : Nat) :
    balanceBefore row height < 2 ^ 63 := by
  induction height with
  | zero => norm_num [balanceBefore]
  | succ height ih =>
    unfold balanceBefore
    cases hrow : row height with
    | some value => exact (h height value hrow).2
    | none => exact ih

end Rows

namespace BalanceHistoryDB

section RangeRows

variable (db : BalanceHistoryDB) (scriptHash : USDBScriptHash) {low mid high : Nat}

theorem rowsInRange_append (hlow : low ≤ mid) (hhigh : mid ≤ high) :
    db.rowsInRange scriptHash low high =
      db.rowsInRange scriptHash low mid ++ db.rowsInRange scriptHash mid high := by
  unfold rowsInRange
  rw [← List.filterMap_append]
  have hrange := List.range'_append_1 (s := low) (m := mid - low) (n := high - mid)
  rw [show low + (mid - low) = mid by omega, show mid - low + (high - mid) = high - low by omega]
    at hrange
  rw [hrange]

theorem rowsInRange_succ (height : Nat) :
    db.rowsInRange scriptHash height (height + 1) =
      ((db.row scriptHash height).map (fun value =>
        (⟨height, value.delta, value.balance⟩ : BalanceHistoryData))).toList := by
  unfold rowsInRange
  rw [Nat.add_sub_cancel_left, List.range'_one]
  cases hrow : db.row scriptHash height with
  | none => simp [hrow]
  | some value => simp [hrow]

theorem rowsInRange_length_le (low high : Nat) : (db.rowsInRange scriptHash low high).length ≤ high - low := by
  unfold rowsInRange
  exact (List.length_filterMap_le _ _).trans_eq (List.length_range' ..)

theorem takeWhile_rowsInRange (hlow : low ≤ mid) (hhigh : mid ≤ high) :
    (db.rowsInRange scriptHash low high).takeWhile (fun row => row.blockHeight < mid) =
        db.rowsInRange scriptHash low mid ∧
      (db.rowsInRange scriptHash low high).dropWhile (fun row => row.blockHeight < mid) =
        db.rowsInRange scriptHash mid high := by
  have hbelow : ∀ row ∈ db.rowsInRange scriptHash low mid,
      decide (row.blockHeight < mid) = true := by
    intro row hrow
    exact decide_eq_true ((db.mem_rowsInRange scriptHash low mid).mp hrow).2.1
  have habove : ∀ row ∈ db.rowsInRange scriptHash mid high, ¬ row.blockHeight < mid := by
    intro row hrow
    exact Nat.not_lt_of_le ((db.mem_rowsInRange scriptHash mid high).mp hrow).1
  rw [db.rowsInRange_append scriptHash hlow hhigh, List.takeWhile_append_of_pos hbelow,
    List.dropWhile_append_of_pos hbelow]
  cases hrest : db.rowsInRange scriptHash mid high with
  | nil => simp
  | cons row rest =>
    have hrow := habove row (by rw [hrest]; exact List.mem_cons_self)
    simp [hrow]

/-- The rows of a range lead from the balance before it to the balance at its end. -/
theorem netOf_rowsInRange (hsynced : RowsSynced (db.row scriptHash)) (hle : low ≤ high) :
    (balanceBefore (db.row scriptHash) high : Int) =
      balanceBefore (db.row scriptHash) low + netOf (db.rowsInRange scriptHash low high) := by
  induction high, hle using Nat.le_induction with
  | base =>
    unfold rowsInRange netOf
    simp
  | succ high hle ih =>
    rw [db.rowsInRange_append scriptHash hle (Nat.le_succ high), rowsInRange_succ]
    unfold netOf at ih ⊢
    rw [List.map_append, List.sum_append]
    cases hrow : db.row scriptHash high with
    | none =>
      rw [balanceBefore_none hrow]
      simpa using ih
    | some value =>
      have hvalue := (hsynced high value hrow).1
      rw [balanceBefore_some hrow]
      simp only [Option.map_some, Option.toList_some, List.map_cons, List.map_nil, List.sum_cons,
        List.sum_nil]
      omega

theorem lastBalance_rowsInRange (hle : low ≤ high) :
    (db.rowsInRange scriptHash low high).foldl (fun _ row => row.balance)
        (balanceBefore (db.row scriptHash) low) = balanceBefore (db.row scriptHash) high := by
  induction high, hle using Nat.le_induction with
  | base =>
    unfold rowsInRange
    simp
  | succ high hle ih =>
    rw [db.rowsInRange_append scriptHash hle (Nat.le_succ high), rowsInRange_succ,
      List.foldl_append, ih]
    rw [balanceBefore]
    cases db.row scriptHash high <;> rfl

theorem netOf_rowsInRange_bounds (hsynced : RowsSynced (db.row scriptHash)) (hle : low ≤ high) :
    (netOf (db.rowsInRange scriptHash low high)).bmod (2 ^ 64) =
      netOf (db.rowsInRange scriptHash low high) := by
  have hnet := db.netOf_rowsInRange scriptHash hsynced hle
  have hlow := hsynced.balanceBefore_lt low
  have hhigh := hsynced.balanceBefore_lt high
  refine Int.bmod_eq_of_le_mul_two ?_ ?_
  · norm_num
    omega
  · norm_num
    omega

/-- The balance at a height of a range is the one before the range or a row's. -/
theorem balanceBefore_of_range {height : Nat} (hlow : low ≤ height) (hhigh : height < high) :
    balanceBefore (db.row scriptHash) (height + 1) = balanceBefore (db.row scriptHash) low ∨
      ∃ row ∈ db.rowsInRange scriptHash low high,
        row.balance = balanceBefore (db.row scriptHash) (height + 1) := by
  induction height, hlow using Nat.le_induction with
  | base =>
    rw [balanceBefore]
    cases hrow : db.row scriptHash low with
    | none => exact .inl rfl
    | some value =>
      exact .inr ⟨⟨low, value.delta, value.balance⟩,
        (db.mem_rowsInRange scriptHash low high).mpr ⟨Nat.le_refl _, hhigh, hrow⟩, rfl⟩
  | succ height hlow ih =>
    rw [balanceBefore]
    cases hrow : db.row scriptHash (height + 1) with
    | none => exact ih (Nat.lt_of_succ_lt hhigh)
    | some value =>
      exact .inr ⟨⟨height + 1, value.delta, value.balance⟩,
        (db.mem_rowsInRange scriptHash low high).mpr ⟨Nat.le_succ_of_le hlow, hhigh, hrow⟩, rfl⟩

end RangeRows

end BalanceHistoryDB

section Buckets

/-- Ranges that follow each other without gap or overlap from one height to another. -/
def Tiles : Nat → Nat → List (Nat × Nat) → Prop
  | first, last, [] => first = last
  | first, last, (start, stop) :: rest => start = first ∧ start < stop ∧ Tiles stop last rest

def bucketBounds (bucketSize rangeEnd : Nat) : Nat → Nat → List (Nat × Nat)
  | 0, _ => []
  | fuel + 1, bucketStart =>
    if bucketStart < rangeEnd then
      let bucketEnd := min (saturatingAddU32 bucketStart bucketSize) rangeEnd
      (bucketStart, bucketEnd) :: bucketBounds bucketSize rangeEnd fuel bucketEnd
    else []

theorem Tiles.le {low high : Nat} {bounds : List (Nat × Nat)} (h : Tiles low high bounds) :
    low ≤ high := by
  induction bounds generalizing low with
  | nil => exact Nat.le_of_eq h
  | cons bound bounds ih =>
    obtain ⟨rfl, hlt, hrest⟩ := h
    exact hlt.le.trans (ih hrest)

theorem Tiles.mem {low high : Nat} {bounds : List (Nat × Nat)} (h : Tiles low high bounds) :
    ∀ bound ∈ bounds, low ≤ bound.1 ∧ bound.1 < bound.2 ∧ bound.2 ≤ high := by
  induction bounds generalizing low with
  | nil => simp
  | cons bound bounds ih =>
    obtain ⟨rfl, hlt, hrest⟩ := h
    intro bound' hbound'
    rcases List.mem_cons.mp hbound' with rfl | hmem
    · exact ⟨Nat.le_refl _, hlt, hrest.le⟩
    · obtain ⟨hlow, hrest'⟩ := ih hrest bound' hmem
      exact ⟨hlt.le.trans hlow, hrest'⟩

theorem bucketEnd_bounds {bucketSize rangeEnd bucketStart : Nat} (hsize : 0 < bucketSize)
    (hend : rangeEnd < 2 ^ 32) (hlt : bucketStart < rangeEnd) :
    bucketStart < min (saturatingAddU32 bucketStart bucketSize) rangeEnd ∧
      min (saturatingAddU32 bucketStart bucketSize) rangeEnd ≤ rangeEnd := by
  unfold saturatingAddU32
  omega

theorem bucketBounds_tiles {bucketSize rangeEnd fuel bucketStart : Nat} (hsize : 0 < bucketSize)
    (hend : rangeEnd < 2 ^ 32) (hle : bucketStart ≤ rangeEnd) (hfuel : rangeEnd - bucketStart ≤ fuel) :
    Tiles bucketStart rangeEnd (bucketBounds bucketSize rangeEnd fuel bucketStart) := by
  induction fuel generalizing bucketStart with
  | zero =>
    show bucketStart = rangeEnd
    omega
  | succ fuel ih =>
    unfold bucketBounds
    split
    · next hlt =>
      obtain ⟨hgt, hbound⟩ := bucketEnd_bounds hsize hend hlt
      exact ⟨rfl, hgt, ih hbound (by omega)⟩
    · show bucketStart = rangeEnd
      omega

variable {db : BalanceHistoryDB} {scriptHash : USDBScriptHash}

/-- Each bucket of the loop gets the rows of its own range. What it hands on is a value of
the height where the next one starts. -/
theorem bucketLoop_eq {α σ : Type} {bucket : Nat → Nat → σ → List BalanceHistoryData → α}
    {next : α → σ} (carry : Nat → σ) {bucketSize rangeEnd fuel bucketStart : Nat}
    (hcarry : ∀ low high, low ≤ high →
      next (bucket low high (carry low) (db.rowsInRange scriptHash low high)) = carry high)
    (hsize : 0 < bucketSize) (hend : rangeEnd < 2 ^ 32) (hle : bucketStart ≤ rangeEnd) :
    bucketLoop bucket next bucketSize rangeEnd fuel (db.rowsInRange scriptHash bucketStart rangeEnd)
        bucketStart (carry bucketStart) =
      (bucketBounds bucketSize rangeEnd fuel bucketStart).map (fun bound =>
        bucket bound.1 bound.2 (carry bound.1) (db.rowsInRange scriptHash bound.1 bound.2)) := by
  induction fuel generalizing bucketStart with
  | zero => rfl
  | succ fuel ih =>
    unfold bucketLoop bucketBounds
    split
    · next hlt =>
      obtain ⟨hgt, hbound⟩ := bucketEnd_bounds hsize hend hlt
      obtain ⟨htake, hdrop⟩ := db.takeWhile_rowsInRange scriptHash hgt.le hbound
      dsimp only
      rw [htake, hdrop, hcarry _ _ hgt.le, ih hbound]
      rfl
    · rfl

theorem Tiles.getLast {low high : Nat} {bounds : List (Nat × Nat)} (h : Tiles low high bounds)
    (hlt : low < high) : ∃ start, bounds.getLast? = some (start, high) := by
  induction bounds generalizing low with
  | nil => exact absurd h hlt.ne
  | cons bound bounds ih =>
    obtain ⟨rfl, -, hrest⟩ := h
    rcases hrest.le.lt_or_eq with hless | heq
    · obtain ⟨start, hlast⟩ := ih hrest hless
      refine ⟨start, ?_⟩
      rw [List.getLast?_cons, hlast]
      rfl
    · cases bounds with
      | nil => exact ⟨bound.1, by rw [← heq]; rfl⟩
      | cons next bounds =>
        obtain ⟨hstart, hless, hrest'⟩ := hrest
        have := hrest'.le
        omega

theorem Tiles.flatMap_rows {low high : Nat} {bounds : List (Nat × Nat)}
    (h : Tiles low high bounds) :
    bounds.flatMap (fun bound => db.rowsInRange scriptHash bound.1 bound.2) =
      db.rowsInRange scriptHash low high := by
  induction bounds generalizing low with
  | nil =>
    obtain rfl : low = high := h
    unfold BalanceHistoryDB.rowsInRange
    simp
  | cons bound bounds ih =>
    obtain ⟨rfl, hlt, hrest⟩ := h
    rw [List.flatMap_cons, ih hrest, db.rowsInRange_append scriptHash hlt.le hrest.le]

/-- What is added up over the rows is added up over the ranges. -/
theorem Tiles.sum_rows {M : Type} [AddCommMonoid M] {low high : Nat} {bounds : List (Nat × Nat)}
    (h : Tiles low high bounds) (amount : BalanceHistoryData → M) :
    (bounds.map (fun bound =>
        ((db.rowsInRange scriptHash bound.1 bound.2).map amount).sum)).sum =
      ((db.rowsInRange scriptHash low high).map amount).sum := by
  rw [← h.flatMap_rows, List.map_flatMap, List.flatMap_def, List.sum_flatten, List.map_map]
  rfl

end Buckets

section Results

variable (rows : List BalanceHistoryData)

theorem point_foldl (point : AddressBalanceTimeseriesPoint) :
    (rows.foldl AddressBalanceTimeseriesPoint.addRow point).bucketStart = point.bucketStart ∧
      (rows.foldl AddressBalanceTimeseriesPoint.addRow point).bucketEnd = point.bucketEnd ∧
      (rows.foldl AddressBalanceTimeseriesPoint.addRow point).balance =
        rows.foldl (fun _ row => row.balance) point.balance ∧
      (rows.foldl AddressBalanceTimeseriesPoint.addRow point).netDelta =
        rows.foldl (fun total row => addI64 total row.delta) point.netDelta := by
  induction rows generalizing point with
  | nil => exact ⟨rfl, rfl, rfl, rfl⟩
  | cons row rows ih => exact ih (point.addRow row)

theorem bucket_foldl (bucket : AddressFlowBucket) :
    (rows.foldl AddressFlowBucket.addRow bucket).bucketStart = bucket.bucketStart ∧
      (rows.foldl AddressFlowBucket.addRow bucket).bucketEnd = bucket.bucketEnd ∧
      (rows.foldl AddressFlowBucket.addRow bucket).inflow = rows.foldl addInflow bucket.inflow ∧
      (rows.foldl AddressFlowBucket.addRow bucket).outflow = rows.foldl addOutflow bucket.outflow ∧
      (rows.foldl AddressFlowBucket.addRow bucket).netDelta =
        rows.foldl (fun total row => addI64 total row.delta) bucket.netDelta ∧
      (rows.foldl AddressFlowBucket.addRow bucket).changeCount =
        rows.foldl (fun total _ => addU64 total 1) bucket.changeCount := by
  induction rows generalizing bucket with
  | nil => exact ⟨rfl, rfl, rfl, rfl, rfl, rfl⟩
  | cons row rows ih => exact ih (bucket.addRow row)

theorem summary_foldl (summary : AddressBalanceSummary) :
    (rows.foldl AddressBalanceSummary.addRow summary).startBalance = summary.startBalance ∧
      (rows.foldl AddressBalanceSummary.addRow summary).endBalance = summary.endBalance ∧
      (rows.foldl AddressBalanceSummary.addRow summary).totalInflow =
        rows.foldl addInflow summary.totalInflow ∧
      (rows.foldl AddressBalanceSummary.addRow summary).totalOutflow =
        rows.foldl addOutflow summary.totalOutflow ∧
      (rows.foldl AddressBalanceSummary.addRow summary).netDelta =
        rows.foldl (fun total row => addI64 total row.delta) summary.netDelta ∧
      (rows.foldl AddressBalanceSummary.addRow summary).changeCount =
        rows.foldl (fun total _ => addU64 total 1) summary.changeCount := by
  induction rows generalizing summary with
  | nil => exact ⟨rfl, rfl, rfl, rfl, rfl, rfl⟩
  | cons row rows ih => exact ih (summary.addRow row)

/-- Peak and low start at a balance and take in every row. -/
theorem summary_extremes (summary : AddressBalanceSummary) :
    (rows.foldl AddressBalanceSummary.addRow summary).lowBalance ≤ summary.lowBalance ∧
      summary.peakBalance ≤ (rows.foldl AddressBalanceSummary.addRow summary).peakBalance ∧
      ∀ row ∈ rows, (rows.foldl AddressBalanceSummary.addRow summary).lowBalance ≤ row.balance ∧
        row.balance ≤ (rows.foldl AddressBalanceSummary.addRow summary).peakBalance := by
  induction rows generalizing summary with
  | nil => exact ⟨Nat.le_refl _, Nat.le_refl _, by simp⟩
  | cons row rows ih =>
    obtain ⟨hlow, hpeak, hrows⟩ := ih (summary.addRow row)
    have hstep : (summary.addRow row).lowBalance ≤ summary.lowBalance ∧
        (summary.addRow row).lowBalance ≤ row.balance ∧
        summary.peakBalance ≤ (summary.addRow row).peakBalance ∧
        row.balance ≤ (summary.addRow row).peakBalance := by
      simp only [AddressBalanceSummary.addRow]
      split_ifs <;> omega
    rw [List.foldl_cons]
    refine ⟨by omega, by omega, fun row' hrow' => ?_⟩
    rcases List.mem_cons.mp hrow' with rfl | hmem
    · omega
    · exact hrows row' hmem

theorem foldl_changeCount :
    rows.foldl (fun total _ => addU64 total 1) 0 = rows.length % 2 ^ 64 := by
  have h : rows.foldl (fun total _ => addU64 total 1) 0 =
      (0 + (rows.map (fun _ => 1)).sum) % 2 ^ 64 :=
    foldl_wrapU64 (fun _ _ _ => rfl) rows (by norm_num)
  rw [h]
  simp

theorem foldl_inflow : rows.foldl addInflow 0 = inflowOf rows % 2 ^ 64 := by
  rw [foldl_wrapU64 addInflow_eq rows (by norm_num), Nat.zero_add]
  rfl

theorem foldl_outflow : rows.foldl addOutflow 0 = outflowOf rows % 2 ^ 64 := by
  rw [foldl_wrapU64 addOutflow_eq rows (by norm_num), Nat.zero_add]
  rfl

theorem foldl_netDelta :
    rows.foldl (fun total row => addI64 total row.delta) 0 = (netOf rows).bmod (2 ^ 64) := by
  have h := foldl_addI64 rows 0
  rw [Int.zero_add] at h
  exact h

end Results

namespace BalanceHistoryDB

section Coherence

variable {db : BalanceHistoryDB} {scriptHash : USDBScriptHash}
  {rangeStart rangeEnd bucketSize bucketCount : Nat}

theorem getBalanceBeforeRange_balance (height : Nat) :
    (db.getBalanceBeforeRange scriptHash height).balance =
      balanceBefore (db.row scriptHash) height := by
  unfold getBalanceBeforeRange
  cases height with
  | zero => rfl
  | succ height =>
    rw [if_neg (Nat.succ_ne_zero height), getBalanceAtBlockHeight_eq, balanceBefore_succ]
    rfl

theorem getBalanceAtBlockHeight_balance (height : Nat) :
    (db.getBalanceAtBlockHeight scriptHash height).balance =
      balanceBefore (db.row scriptHash) (height + 1) := by
  rw [getBalanceAtBlockHeight_eq, balanceBefore_succ]

theorem validateAggregateRange_ok (h : db.validateAggregateRange rangeStart rangeEnd = .ok ()) :
    rangeStart < rangeEnd := by
  unfold validateAggregateRange at h
  split at h
  · cases h
  · omega

theorem validateBucketParams_ok
    (h : validateBucketParams rangeStart rangeEnd bucketSize = .ok bucketCount) :
    0 < bucketSize := by
  unfold validateBucketParams at h
  split at h
  · cases h
  · omega

theorem getRangeBalanceRows_eq (h : rangeStart < rangeEnd) :
    db.getRangeBalanceRows scriptHash rangeStart rangeEnd =
      .ok (db.rowsInRange scriptHash rangeStart rangeEnd) := by
  unfold getRangeBalanceRows
  rw [db.getBalanceInRange_eq scriptHash rangeStart rangeEnd h]
  rfl

def timeseriesPoint (db : BalanceHistoryDB) (scriptHash : USDBScriptHash) (bound : Nat × Nat) :
    AddressBalanceTimeseriesPoint :=
  (db.rowsInRange scriptHash bound.1 bound.2).foldl AddressBalanceTimeseriesPoint.addRow
    ⟨bound.1, bound.2, balanceBefore (db.row scriptHash) bound.1, 0, 0, none⟩

def flowBucket (db : BalanceHistoryDB) (scriptHash : USDBScriptHash) (bound : Nat × Nat) :
    AddressFlowBucket :=
  (db.rowsInRange scriptHash bound.1 bound.2).foldl AddressFlowBucket.addRow
    ⟨bound.1, bound.2, 0, 0, 0, 0⟩

theorem getAddressBalanceSummary_eq
    (hrange : db.validateAggregateRange rangeStart rangeEnd = .ok ()) :
    db.getAddressBalanceSummary scriptHash rangeStart rangeEnd =
      .ok (db.buildAddressBalanceSummary scriptHash rangeStart rangeEnd
        (db.rowsInRange scriptHash rangeStart rangeEnd)) := by
  unfold getAddressBalanceSummary
  rw [hrange, getRangeBalanceRows_eq (validateAggregateRange_ok hrange)]
  rfl

theorem getAddressBalanceTimeseries_eq
    (hrange : db.validateAggregateRange rangeStart rangeEnd = .ok ())
    (hbucket : validateBucketParams rangeStart rangeEnd bucketSize = .ok bucketCount)
    (hend : rangeEnd < 2 ^ 32) :
    db.getAddressBalanceTimeseries scriptHash rangeStart rangeEnd bucketSize =
      .ok ((bucketBounds bucketSize rangeEnd (rangeEnd - rangeStart) rangeStart).map
        (db.timeseriesPoint scriptHash)) := by
  have hlt := validateAggregateRange_ok hrange
  unfold getAddressBalanceTimeseries
  rw [hrange, hbucket, getRangeBalanceRows_eq hlt, getBalanceBeforeRange_balance]
  refine congrArg Except.ok
    (bucketLoop_eq (balanceBefore (db.row scriptHash)) ?_ (validateBucketParams_ok hbucket) hend
      hlt.le)
  intro low high hle
  rw [(point_foldl _ _).2.2.1]
  exact db.lastBalance_rowsInRange scriptHash hle

theorem getAddressFlowBuckets_eq
    (hrange : db.validateAggregateRange rangeStart rangeEnd = .ok ())
    (hbucket : validateBucketParams rangeStart rangeEnd bucketSize = .ok bucketCount)
    (hend : rangeEnd < 2 ^ 32) :
    db.getAddressFlowBuckets scriptHash rangeStart rangeEnd bucketSize =
      .ok ((bucketBounds bucketSize rangeEnd (rangeEnd - rangeStart) rangeStart).map
        (db.flowBucket scriptHash)) := by
  have hlt := validateAggregateRange_ok hrange
  unfold getAddressFlowBuckets
  rw [hrange, hbucket, getRangeBalanceRows_eq hlt]
  exact congrArg Except.ok (bucketLoop_eq (fun _ => ()) (fun _ _ _ => rfl)
    (validateBucketParams_ok hbucket) hend hlt.le)

theorem timeseriesPoint_netDelta (hsynced : RowsSynced (db.row scriptHash)) {bound : Nat × Nat}
    (hle : bound.1 ≤ bound.2) :
    (db.timeseriesPoint scriptHash bound).netDelta =
      netOf (db.rowsInRange scriptHash bound.1 bound.2) := by
  unfold timeseriesPoint
  rw [(point_foldl _ _).2.2.2, foldl_netDelta, db.netOf_rowsInRange_bounds scriptHash hsynced hle]

theorem flowBucket_netDelta (hsynced : RowsSynced (db.row scriptHash)) {bound : Nat × Nat}
    (hle : bound.1 ≤ bound.2) :
    (db.flowBucket scriptHash bound).netDelta =
      netOf (db.rowsInRange scriptHash bound.1 bound.2) := by
  unfold flowBucket
  rw [(bucket_foldl _ _).2.2.2.2.1, foldl_netDelta,
    db.netOf_rowsInRange_bounds scriptHash hsynced hle]

theorem timeseriesPoint_balance {bound : Nat × Nat} (hle : bound.1 ≤ bound.2) :
    (db.timeseriesPoint scriptHash bound).balance = balanceBefore (db.row scriptHash) bound.2 := by
  unfold timeseriesPoint
  rw [(point_foldl _ _).2.2.1]
  exact db.lastBalance_rowsInRange scriptHash hle

variable {bounds : List (Nat × Nat)}

theorem timeseries_netDelta (hsynced : RowsSynced (db.row scriptHash))
    (htiles : Tiles rangeStart rangeEnd bounds) :
    ((bounds.map (db.timeseriesPoint scriptHash)).map (·.netDelta)).sum =
      netOf (db.rowsInRange scriptHash rangeStart rangeEnd) := by
  unfold netOf
  rw [← htiles.sum_rows, List.map_map]
  refine congrArg List.sum (List.map_congr_left (fun bound hbound => ?_))
  exact timeseriesPoint_netDelta hsynced (htiles.mem bound hbound).2.1.le

theorem flow_netDelta (hsynced : RowsSynced (db.row scriptHash))
    (htiles : Tiles rangeStart rangeEnd bounds) :
    ((bounds.map (db.flowBucket scriptHash)).map (·.netDelta)).sum =
      netOf (db.rowsInRange scriptHash rangeStart rangeEnd) := by
  unfold netOf
  rw [← htiles.sum_rows, List.map_map]
  refine congrArg List.sum (List.map_congr_left (fun bound hbound => ?_))
  exact flowBucket_netDelta hsynced (htiles.mem bound hbound).2.1.le

/-- Sums that wrap in each bucket and in the whole range agree, and so do the exact sums
when the whole one fits. -/
theorem sum_wrapped {field : AddressFlowBucket → Nat} (amount : BalanceHistoryData → Nat)
    (hfield : ∀ bound, field (db.flowBucket scriptHash bound) =
      ((db.rowsInRange scriptHash bound.1 bound.2).map amount).sum % 2 ^ 64)
    (htiles : Tiles rangeStart rangeEnd bounds) :
    ((bounds.map (db.flowBucket scriptHash)).map field).sum % 2 ^ 64 =
        ((db.rowsInRange scriptHash rangeStart rangeEnd).map amount).sum % 2 ^ 64 ∧
      (((db.rowsInRange scriptHash rangeStart rangeEnd).map amount).sum < 2 ^ 64 →
        ((bounds.map (db.flowBucket scriptHash)).map field).sum =
          ((db.rowsInRange scriptHash rangeStart rangeEnd).map amount).sum) := by
  have hsum : ((bounds.map (db.flowBucket scriptHash)).map field) =
      (bounds.map (fun bound =>
        ((db.rowsInRange scriptHash bound.1 bound.2).map amount).sum)).map (· % 2 ^ 64) := by
    rw [List.map_map, List.map_map]
    exact List.map_congr_left (fun bound _ => hfield bound)
  rw [← htiles.sum_rows, hsum, ← List.sum_nat_mod]
  refine ⟨rfl, fun hfits => congrArg List.sum ?_⟩
  refine (List.map_congr_left (fun total htotal => ?_)).trans (List.map_id _)
  have hle := List.single_le_sum (fun total _ => Nat.zero_le total) total htotal
  exact Nat.mod_eq_of_lt (Nat.lt_of_le_of_lt hle hfits)

theorem sum_changeCount (hend : rangeEnd < 2 ^ 32) (htiles : Tiles rangeStart rangeEnd bounds) :
    ((bounds.map (db.flowBucket scriptHash)).map (·.changeCount)).sum =
      (db.rowsInRange scriptHash rangeStart rangeEnd).length % 2 ^ 64 := by
  have hlen : ∀ rows : List BalanceHistoryData, (rows.map (fun _ => 1)).sum = rows.length := by
    simp
  have hfield : ∀ bound, (db.flowBucket scriptHash bound).changeCount =
      ((db.rowsInRange scriptHash bound.1 bound.2).map (fun _ => 1)).sum % 2 ^ 64 := by
    intro bound
    unfold flowBucket
    rw [(bucket_foldl _ _).2.2.2.2.2, foldl_changeCount, hlen]
  have hfits := db.rowsInRange_length_le scriptHash rangeStart rangeEnd
  rw [(sum_wrapped (fun _ => 1) hfield htiles).2 (by rw [hlen]; omega), hlen,
    Nat.mod_eq_of_lt (by omega)]

theorem map_bounds {α : Type} {point : Nat × Nat → α} {ends : α → Nat × Nat}
    (h : ∀ bound, ends (point bound) = bound) (bounds : List (Nat × Nat)) :
    (bounds.map point).map ends = bounds := by
  rw [List.map_map]
  exact (List.map_congr_left (fun bound _ => h bound)).trans (List.map_id _)

theorem sum_inflow (db : BalanceHistoryDB) (scriptHash : USDBScriptHash)
    (htiles : Tiles rangeStart rangeEnd bounds) :
    ((bounds.map (db.flowBucket scriptHash)).map (·.inflow)).sum % 2 ^ 64 =
        inflowOf (db.rowsInRange scriptHash rangeStart rangeEnd) % 2 ^ 64 ∧
      (inflowOf (db.rowsInRange scriptHash rangeStart rangeEnd) < 2 ^ 64 →
        ((bounds.map (db.flowBucket scriptHash)).map (·.inflow)).sum =
          inflowOf (db.rowsInRange scriptHash rangeStart rangeEnd)) := by
  refine sum_wrapped (·.delta.toNat) (fun bound => ?_) htiles
  unfold flowBucket
  rw [(bucket_foldl _ _).2.2.1]
  exact foldl_inflow _

theorem sum_outflow (db : BalanceHistoryDB) (scriptHash : USDBScriptHash)
    (htiles : Tiles rangeStart rangeEnd bounds) :
    ((bounds.map (db.flowBucket scriptHash)).map (·.outflow)).sum % 2 ^ 64 =
        outflowOf (db.rowsInRange scriptHash rangeStart rangeEnd) % 2 ^ 64 ∧
      (outflowOf (db.rowsInRange scriptHash rangeStart rangeEnd) < 2 ^ 64 →
        ((bounds.map (db.flowBucket scriptHash)).map (·.outflow)).sum =
          outflowOf (db.rowsInRange scriptHash rangeStart rangeEnd)) := by
  refine sum_wrapped (fun row => (-row.delta).toNat) (fun bound => ?_) htiles
  unfold flowBucket
  rw [(bucket_foldl _ _).2.2.2.1]
  exact foldl_outflow _

theorem last_timeseriesPoint (hlt : rangeStart < rangeEnd)
    (htiles : Tiles rangeStart rangeEnd bounds) :
    (bounds.map (db.timeseriesPoint scriptHash)).getLast?.map (·.balance) =
      some (balanceBefore (db.row scriptHash) rangeEnd) := by
  obtain ⟨start, hlast⟩ := htiles.getLast hlt
  have hle := (htiles.mem _ (List.mem_of_getLast? hlast)).2.1.le
  rw [List.getLast?_map, hlast]
  exact congrArg some (timeseriesPoint_balance hle)

/-- What the summary says of its range. -/
structure SummaryOf (db : BalanceHistoryDB) (scriptHash : USDBScriptHash)
    (rangeStart rangeEnd : Nat) (summary : AddressBalanceSummary) : Prop where
  startBalance : summary.startBalance = balanceBefore (db.row scriptHash) rangeStart
  endBalance : summary.endBalance = balanceBefore (db.row scriptHash) rangeEnd
  totalInflow : summary.totalInflow =
    inflowOf (db.rowsInRange scriptHash rangeStart rangeEnd) % 2 ^ 64
  totalOutflow : summary.totalOutflow =
    outflowOf (db.rowsInRange scriptHash rangeStart rangeEnd) % 2 ^ 64
  netDelta : summary.netDelta = netOf (db.rowsInRange scriptHash rangeStart rangeEnd)
  changeCount : summary.changeCount =
    (db.rowsInRange scriptHash rangeStart rangeEnd).length % 2 ^ 64
  extremes : ∀ height, rangeStart ≤ height → height < rangeEnd →
    summary.lowBalance ≤ balanceBefore (db.row scriptHash) (height + 1) ∧
      balanceBefore (db.row scriptHash) (height + 1) ≤ summary.peakBalance

theorem buildAddressBalanceSummary_summaryOf (hsynced : RowsSynced (db.row scriptHash))
    (hlt : rangeStart < rangeEnd) :
    SummaryOf db scriptHash rangeStart rangeEnd
      (db.buildAddressBalanceSummary scriptHash rangeStart rangeEnd
        (db.rowsInRange scriptHash rangeStart rangeEnd)) := by
  obtain ⟨hstart, hlast, hin, hout, hdelta, hcount⟩ := summary_foldl
    (db.rowsInRange scriptHash rangeStart rangeEnd)
    (db.initialSummary scriptHash rangeStart rangeEnd)
  obtain ⟨hlow, hpeak, hrows⟩ := summary_extremes
    (db.rowsInRange scriptHash rangeStart rangeEnd)
    (db.initialSummary scriptHash rangeStart rangeEnd)
  constructor
  · exact hstart.trans (getBalanceBeforeRange_balance rangeStart)
  · refine hlast.trans ?_
    show (db.getBalanceAtBlockHeight scriptHash (rangeEnd - 1)).balance = _
    rw [getBalanceAtBlockHeight_balance, Nat.sub_add_cancel (Nat.zero_lt_of_lt hlt)]
  · exact hin.trans (foldl_inflow _)
  · exact hout.trans (foldl_outflow _)
  · exact (hdelta.trans (foldl_netDelta _)).trans
      (db.netOf_rowsInRange_bounds scriptHash hsynced hlt.le)
  · exact hcount.trans (foldl_changeCount _)
  · intro height hge hbelow
    have hinit : (db.initialSummary scriptHash rangeStart rangeEnd).lowBalance =
        balanceBefore (db.row scriptHash) rangeStart ∧
        (db.initialSummary scriptHash rangeStart rangeEnd).peakBalance =
        balanceBefore (db.row scriptHash) rangeStart :=
      ⟨getBalanceBeforeRange_balance rangeStart, getBalanceBeforeRange_balance rangeStart⟩
    rcases db.balanceBefore_of_range scriptHash hge hbelow with heq | ⟨row, hrow, heq⟩
    · rw [heq]
      exact ⟨hlow.trans_eq hinit.1, hinit.2.symm.trans_le hpeak⟩
    · rw [← heq]
      exact hrows row hrow

end Coherence

/-- The summary, the timeseries and the flow buckets of one range agree. Sums of inflows
and outflows are sums in `u64`, exact ones when the total of the range fits. -/
theorem aggregates_coherent (db : BalanceHistoryDB) (scriptHash : USDBScriptHash)
    (rangeStart rangeEnd bucketSize bucketCount : Nat)
    (hsynced : RowsSynced (db.row scriptHash)) (hend : rangeEnd < 2 ^ 32)
    (hrange : db.validateAggregateRange rangeStart rangeEnd = .ok ())
    (hbucket : validateBucketParams rangeStart rangeEnd bucketSize = .ok bucketCount) :
    ∃ summary points buckets,
      db.getAddressBalanceSummary scriptHash rangeStart rangeEnd = .ok summary ∧
      db.getAddressBalanceTimeseries scriptHash rangeStart rangeEnd bucketSize = .ok points ∧
      db.getAddressFlowBuckets scriptHash rangeStart rangeEnd bucketSize = .ok buckets ∧
      Tiles rangeStart rangeEnd (points.map (fun point => (point.bucketStart, point.bucketEnd))) ∧
      Tiles rangeStart rangeEnd (buckets.map (fun bucket => (bucket.bucketStart, bucket.bucketEnd))) ∧
      (points.map (·.netDelta)).sum = summary.netDelta ∧
      (buckets.map (·.netDelta)).sum = summary.netDelta ∧
      summary.netDelta = (summary.endBalance : Int) - summary.startBalance ∧
      (buckets.map (·.inflow)).sum % 2 ^ 64 = summary.totalInflow ∧
      (buckets.map (·.outflow)).sum % 2 ^ 64 = summary.totalOutflow ∧
      (inflowOf (db.rowsInRange scriptHash rangeStart rangeEnd) < 2 ^ 64 →
        (buckets.map (·.inflow)).sum = summary.totalInflow) ∧
      (outflowOf (db.rowsInRange scriptHash rangeStart rangeEnd) < 2 ^ 64 →
        (buckets.map (·.outflow)).sum = summary.totalOutflow) ∧
      (buckets.map (·.changeCount)).sum = summary.changeCount ∧
      points.getLast?.map (·.balance) = some summary.endBalance ∧
      ∀ height, rangeStart ≤ height → height < rangeEnd →
        summary.lowBalance ≤ (db.getBalanceAtBlockHeight scriptHash height).balance ∧
          (db.getBalanceAtBlockHeight scriptHash height).balance ≤ summary.peakBalance := by
  have hlt := validateAggregateRange_ok hrange
  have htiles := bucketBounds_tiles (validateBucketParams_ok hbucket) hend hlt.le (Nat.le_refl _)
  have hsummary := buildAddressBalanceSummary_summaryOf hsynced hlt
  have hnet := db.netOf_rowsInRange scriptHash hsynced hlt.le
  have hpoint : ∀ bound, ((db.timeseriesPoint scriptHash bound).bucketStart,
      (db.timeseriesPoint scriptHash bound).bucketEnd) = bound := by
    intro bound
    unfold timeseriesPoint
    rw [(point_foldl _ _).1, (point_foldl _ _).2.1]
  have hflow : ∀ bound, ((db.flowBucket scriptHash bound).bucketStart,
      (db.flowBucket scriptHash bound).bucketEnd) = bound := by
    intro bound
    unfold flowBucket
    rw [(bucket_foldl _ _).1, (bucket_foldl _ _).2.1]
  obtain ⟨hinflow, hinflowExact⟩ := sum_inflow db scriptHash htiles
  obtain ⟨houtflow, houtflowExact⟩ := sum_outflow db scriptHash htiles
  refine ⟨_, _, _, getAddressBalanceSummary_eq hrange,
    getAddressBalanceTimeseries_eq hrange hbucket hend,
    getAddressFlowBuckets_eq hrange hbucket hend, ?_, ?_, ?_, ?_, ?_, ?_, ?_, ?_, ?_, ?_, ?_, ?_⟩
  · rw [map_bounds hpoint]
    exact htiles
  · rw [map_bounds hflow]
    exact htiles
  · rw [hsummary.netDelta]
    exact timeseries_netDelta hsynced htiles
  · rw [hsummary.netDelta]
    exact flow_netDelta hsynced htiles
  · rw [hsummary.netDelta, hsummary.endBalance, hsummary.startBalance]
    omega
  · rw [hsummary.totalInflow]
    exact hinflow
  · rw [hsummary.totalOutflow]
    exact houtflow
  · intro hfits
    rw [hsummary.totalInflow, Nat.mod_eq_of_lt hfits]
    exact hinflowExact hfits
  · intro hfits
    rw [hsummary.totalOutflow, Nat.mod_eq_of_lt hfits]
    exact houtflowExact hfits
  · rw [hsummary.changeCount]
    exact sum_changeCount hend htiles
  · rw [hsummary.endBalance]
    exact last_timeseriesPoint hlt htiles
  · intro height hge hbelow
    rw [getBalanceAtBlockHeight_balance]
    exact hsummary.extremes height hge hbelow

section Sample

/-- A store synced to height 9 that has rows of one script hash. -/
def syncedSample (rows : List (Nat × BalanceValue)) : BalanceHistoryDB :=
  { BalanceHistoryDB.empty with
    balanceHistory := (∅ : Table BalanceKey BalanceValue).insertMany
      (rows.map (fun row => (⟨2, row.1⟩, row.2)))
    blockCommits := (∅ : Table Nat BlockCommitValue).insert 9 ⟨1, [], []⟩
    btcBlockHeight := some 9 }

theorem syncedSample_rowsSynced {rows : List (Nat × BalanceValue)}
    (h : ∀ row ∈ rows, (row.2.balance : Int) =
      balanceBefore ((syncedSample rows).row 2) row.1 + row.2.delta ∧ row.2.balance < 2 ^ 63) :
    RowsSynced ((syncedSample rows).row 2) := by
  intro height value hrow
  rcases Table.getElem?_insertMany_cases (∅ : Table BalanceKey BalanceValue)
    (rows.map (fun row => (⟨2, row.1⟩, row.2))) ⟨2, height⟩ with ⟨value', hmem, hget⟩ | ⟨-, hget⟩
  · cases hget.symm.trans hrow
    obtain ⟨row, hrows, heq⟩ := List.mem_map.mp hmem
    obtain ⟨hkey, rfl⟩ := Prod.mk.inj heq
    obtain ⟨-, rfl⟩ := BalanceKey.mk.inj hkey
    exact h row hrows
  · cases hget.symm.trans hrow

/-- The script hash is paid, pays, is paid again, and pays all it has in the last bucket. -/
def movements : List (Nat × BalanceValue) :=
  [(1, ⟨50, 50⟩), (3, ⟨-20, 30⟩), (6, ⟨5, 35⟩), (9, ⟨-35, 0⟩)]

/-- Everything there can be in `i64` comes, goes, and comes again. -/
def churn : List (Nat × BalanceValue) :=
  [(1, ⟨2 ^ 63 - 1, 2 ^ 63 - 1⟩), (2, ⟨-(2 ^ 63 - 1), 0⟩), (4, ⟨2 ^ 63 - 1, 2 ^ 63 - 1⟩),
    (5, ⟨-(2 ^ 63 - 1), 0⟩), (9, ⟨2 ^ 63 - 1, 2 ^ 63 - 1⟩)]

end Sample

theorem aggregates_coherent_sample :
    ∃ summary points buckets,
      (syncedSample movements).getAddressBalanceSummary 2 0 10 = .ok summary ∧
      (syncedSample movements).getAddressBalanceTimeseries 2 0 10 4 = .ok points ∧
      (syncedSample movements).getAddressFlowBuckets 2 0 10 4 = .ok buckets ∧
      (summary.totalInflow, summary.totalOutflow, summary.changeCount) = (55, 55, 4) ∧
      (buckets.map (·.inflow)).sum = summary.totalInflow ∧
      (buckets.map (·.outflow)).sum = summary.totalOutflow ∧
      (buckets.map (·.changeCount)).sum = summary.changeCount ∧
      points.getLast?.map (·.balance) = some summary.endBalance := by
  have hvalues : ((syncedSample movements).getAddressBalanceSummary 2 0 10).map (fun summary =>
      (summary.totalInflow, summary.totalOutflow, summary.changeCount)) = .ok (55, 55, 4) := by
    decide +kernel
  obtain ⟨summary, points, buckets, hsummary, hpoints, hbuckets, -, -, -, -, -, -, -, hinflow,
    houtflow, hcount, hlast, -⟩ := aggregates_coherent (syncedSample movements) 2 0 10 4 3
      (syncedSample_rowsSynced (by decide +kernel)) (by norm_num) (by decide +kernel) rfl
  rw [hsummary] at hvalues
  refine ⟨summary, points, buckets, hsummary, hpoints, hbuckets, Except.ok.inj hvalues,
    hinflow (by decide +kernel), houtflow (by decide +kernel), hcount, hlast⟩

/-- The total of the summary wraps where those of the buckets do not. -/
theorem aggregates_coherent_wraps :
    ¬∀ (db : BalanceHistoryDB) (scriptHash : USDBScriptHash)
      (rangeStart rangeEnd bucketSize bucketCount : Nat) (summary : AddressBalanceSummary)
      (buckets : List AddressFlowBucket), RowsSynced (db.row scriptHash) → rangeEnd < 2 ^ 32 →
      db.validateAggregateRange rangeStart rangeEnd = .ok () →
      validateBucketParams rangeStart rangeEnd bucketSize = .ok bucketCount →
      db.getAddressBalanceSummary scriptHash rangeStart rangeEnd = .ok summary →
      db.getAddressFlowBuckets scriptHash rangeStart rangeEnd bucketSize = .ok buckets →
      (buckets.map (·.inflow)).sum = summary.totalInflow := by
  intro h
  have hsynced : RowsSynced ((syncedSample churn).row 2) :=
    syncedSample_rowsSynced (by decide +kernel)
  have hrange : (syncedSample churn).validateAggregateRange 0 10 = .ok () := by decide +kernel
  have hequal := h (syncedSample churn) 2 0 10 4 3 _ _ hsynced (by norm_num) hrange rfl
    (getAddressBalanceSummary_eq hrange) (getAddressFlowBuckets_eq hrange rfl (by norm_num))
  revert hequal
  decide +kernel

end BalanceHistoryDB

end Usdb.Balances
