import Usdb.Framework.Paging
import Usdb.Framework.Traverse
import Usdb.Storage.Energy
import Usdb.Storage.EnergyRecords

namespace Usdb.EnergyDb

open Framework

namespace PassEnergyColumn

section Rows

variable {c : PassEnergyColumn} {id : InscriptionId} {low high : UInt32}
  {row : List UInt8 × PassEnergyValue}

theorem allKeys_ascend (c : PassEnergyColumn) (key : List UInt8) : AllKeys (c.rows.ascend key) := by
  intro row hrow
  obtain ⟨id, height, hkey⟩ := c.keyed row (Table.mem_ascend.mp hrow).1
  rw [hkey, parseEnergyKey_makeEnergyKey, readKey_makeEnergyKey]

theorem allKeys_descend (c : PassEnergyColumn) (key : List UInt8) :
    AllKeys (c.rows.descend key) := by
  intro row hrow
  obtain ⟨id, height, hkey⟩ := c.keyed row (Table.mem_descend.mp hrow).1
  rw [hkey, parseEnergyKey_makeEnergyKey, readKey_makeEnergyKey]

/-- The row belongs to a pass and a height of a range. -/
def InRange (id : InscriptionId) (low high : UInt32) (row : List UInt8 × PassEnergyValue) : Prop :=
  ∃ height, row.1 = makeEnergyKey id height ∧ low ≤ height ∧ height ≤ high

theorem inRange_iff {id' : InscriptionId} {height : UInt32}
    (hkey : row.1 = makeEnergyKey id' height) :
    InRange id low high row ↔ id' = id ∧ low ≤ height ∧ height ≤ high := by
  constructor
  · rintro ⟨height', hkey', hrange⟩
    have hread := congrArg readKey (hkey.symm.trans hkey')
    rw [readKey_makeEnergyKey, readKey_makeEnergyKey] at hread
    obtain ⟨rfl, rfl⟩ := PassEnergyKey.mk.inj hread
    exact ⟨rfl, hrange⟩
  · rintro ⟨rfl, hrange⟩
    exact ⟨height, hkey, hrange⟩

theorem inside_ascend (hrow : row ∈ c.rows.ascend (makeEnergyKey id low)) :
    inside id (high < ·) row = true ↔ InRange id low high row := by
  obtain ⟨hmem, hlow⟩ := Table.mem_ascend.mp hrow
  obtain ⟨id', height, hkey⟩ := c.keyed row hmem
  rw [inside_iff, inRange_iff hkey, hkey, readKey_makeEnergyKey, decide_eq_false_iff_not,
    UInt32.not_lt]
  rw [hkey] at hlow
  constructor
  · rintro ⟨rfl, hhigh⟩
    exact ⟨rfl, makeEnergyKey_isLE.mp hlow, hhigh⟩
  · rintro ⟨rfl, -, hhigh⟩
    exact ⟨rfl, hhigh⟩

theorem inside_descend (hrow : row ∈ c.rows.descend (makeEnergyKey id high)) :
    inside id (· < low) row = true ↔ InRange id low high row := by
  obtain ⟨hmem, hhigh⟩ := Table.mem_descend.mp hrow
  obtain ⟨id', height, hkey⟩ := c.keyed row hmem
  rw [inside_iff, inRange_iff hkey, hkey, readKey_makeEnergyKey, decide_eq_false_iff_not,
    UInt32.not_lt]
  rw [hkey] at hhigh
  constructor
  · rintro ⟨rfl, hlow⟩
    exact ⟨rfl, hlow, makeEnergyKey_isLE.mp hhigh⟩
  · rintro ⟨rfl, hlow, -⟩
    exact ⟨rfl, hlow⟩

/-- Of the rows at or below the last key of a range, `find_last` accepts those a
descending page accepts in the range from height 0. -/
theorem inside_findLast (hrow : row ∈ c.rows.descend (makeEnergyKey id high)) :
    inside id (high < ·) row = inside id (· < 0) row := by
  rw [Bool.eq_iff_iff, inside_descend hrow]
  obtain ⟨hmem, hhigh⟩ := Table.mem_descend.mp hrow
  obtain ⟨id', height, hkey⟩ := c.keyed row hmem
  rw [inside_iff, inRange_iff hkey, hkey, readKey_makeEnergyKey, decide_eq_false_iff_not,
    UInt32.not_lt]
  constructor
  · rintro ⟨rfl, hle⟩
    exact ⟨rfl, UInt32.zero_le, hle⟩
  · rintro ⟨rfl, -, hle⟩
    exact ⟨rfl, hle⟩

/-- A row between two keys of a pass is a row of this pass. -/
theorem inRange_between (hmem : row ∈ c.rows.toList)
    (hlow : (compare (makeEnergyKey id low) row.1).isLE)
    (hhigh : (compare row.1 (makeEnergyKey id high)).isLE) : InRange id low high row := by
  obtain ⟨id', height, hkey⟩ := c.keyed row hmem
  rw [hkey] at hlow hhigh
  obtain rfl := makeEnergyKey_between hlow hhigh
  exact ⟨height, hkey, makeEnergyKey_isLE.mp hlow, makeEnergyKey_isLE.mp hhigh⟩

end Rows

section Ranges

variable (c : PassEnergyColumn) (id : InscriptionId) (low high : UInt32)

def recordAt (height : Nat) : Option PassEnergyRecord :=
  (c.getPassEnergyRecord id (UInt32.ofNat height)).map (fun value =>
    { inscriptionId := id, blockHeight := UInt32.ofNat height, toPassEnergyValue := value })

/-- The records of a pass in a range of heights, in ascending order. -/
def recordsInRange : List PassEnergyRecord :=
  (List.range' low.toNat (high.toNat + 1 - low.toNat)).filterMap (c.recordAt id)

def rangeRows : List (List UInt8 × PassEnergyValue) :=
  c.rows.band (fun height => makeEnergyKey id (UInt32.ofNat height)) low.toNat
    (high.toNat + 1 - low.toNat)

theorem readRow_makeEnergyKey (height : UInt32) (value : PassEnergyValue) :
    readRow (makeEnergyKey id height, value) =
      { inscriptionId := id, blockHeight := height, toPassEnergyValue := value } := by
  unfold readRow
  rw [readKey_makeEnergyKey]

theorem map_rangeRows : (c.rangeRows id low high).map readRow = c.recordsInRange id low high := by
  unfold rangeRows recordsInRange Table.band
  rw [List.map_filterMap]
  refine List.filterMap_congr (fun height _ => ?_)
  unfold recordAt getPassEnergyRecord
  simp only [Option.map_map, Function.comp_def, readRow_makeEnergyKey]

theorem filter_eq_rangeRows {p : List UInt8 × PassEnergyValue → Bool}
    (hp : ∀ row ∈ c.rows.toList, p row = true ↔ InRange id low high row) :
    c.rows.toList.filter p = c.rangeRows id low high := by
  have hbound := high.toNat_lt
  refine Table.filter_eq_band ?_ ?_
  · intro m n hm hlt hn
    rw [compare_makeEnergyKey, Std.compare_self, Ordering.eq_then, compare_height,
      UInt32.toNat_ofNat', UInt32.toNat_ofNat', Nat.compare_eq_lt,
      Nat.mod_eq_of_lt (by omega), Nat.mod_eq_of_lt (by omega)]
    exact hlt
  · intro row hrow
    rw [hp row hrow]
    constructor
    · rintro ⟨height, hkey, hlow, hhigh⟩
      rw [UInt32.le_iff_toNat_le] at hlow hhigh
      exact ⟨height.toNat, hlow, by omega, by rw [UInt32.ofNat_toNat]; exact hkey⟩
    · rintro ⟨n, hlow, hhigh, hkey⟩
      refine ⟨UInt32.ofNat n, hkey, ?_, ?_⟩
      · rw [UInt32.le_iff_toNat_le, UInt32.toNat_ofNat', Nat.mod_eq_of_lt (by omega)]
        exact hlow
      · rw [UInt32.le_iff_toNat_le, UInt32.toNat_ofNat', Nat.mod_eq_of_lt (by omega)]
        omega

theorem inside_ascend_of_lt {a b : List UInt8 × PassEnergyValue}
    (ha : a ∈ c.rows.ascend (makeEnergyKey id low)) (hb : b ∈ c.rows.ascend (makeEnergyKey id low))
    (hlt : compare a.1 b.1 = .lt) (hin : inside id (high < ·) b = true) :
    inside id (high < ·) a = true := by
  obtain ⟨height, hkey, -, hhigh⟩ := (inside_ascend hb).mp hin
  obtain ⟨hmem, hstart⟩ := Table.mem_ascend.mp ha
  have hbelow : (compare a.1 (makeEnergyKey id height)).isLE := by
    rw [← hkey, hlt]
    rfl
  obtain ⟨height', hkey', hlow', hle⟩ := inRange_between hmem hstart hbelow
  exact (inside_ascend ha).mpr ⟨height', hkey', hlow', UInt32.le_trans hle hhigh⟩

theorem inside_descend_of_lt {a b : List UInt8 × PassEnergyValue}
    (ha : a ∈ c.rows.descend (makeEnergyKey id high))
    (hb : b ∈ c.rows.descend (makeEnergyKey id high))
    (hlt : compare b.1 a.1 = .lt) (hin : inside id (· < low) b = true) :
    inside id (· < low) a = true := by
  obtain ⟨height, hkey, hlow, -⟩ := (inside_descend hb).mp hin
  obtain ⟨hmem, hstart⟩ := Table.mem_descend.mp ha
  have habove : (compare (makeEnergyKey id height) a.1).isLE := by
    rw [← hkey, hlt]
    rfl
  obtain ⟨height', hkey', hle, hhigh'⟩ := inRange_between hmem habove hstart
  exact (inside_descend ha).mpr ⟨height', hkey', UInt32.le_trans hlow hle, hhigh'⟩

theorem takeWhile_ascend :
    (c.rows.ascend (makeEnergyKey id low)).takeWhile (inside id (high < ·)) =
      c.rangeRows id low high := by
  rw [Table.takeWhile_ascend (fun a ha b hb => inside_ascend_of_lt c id low high ha hb)]
  refine filter_eq_rangeRows c id low high (fun row hrow => ?_)
  rw [Bool.and_eq_true]
  constructor
  · rintro ⟨hlow, hin⟩
    exact (inside_ascend (Table.mem_ascend.mpr ⟨hrow, hlow⟩)).mp hin
  · intro hin
    obtain ⟨height, hkey, hlow, hhigh⟩ := hin
    have hle : (compare (makeEnergyKey id low) row.1).isLE := by
      rw [hkey]
      exact makeEnergyKey_isLE.mpr hlow
    exact ⟨hle, (inside_ascend (Table.mem_ascend.mpr ⟨hrow, hle⟩)).mpr
      ⟨height, hkey, hlow, hhigh⟩⟩

theorem takeWhile_descend :
    (c.rows.descend (makeEnergyKey id high)).takeWhile (inside id (· < low)) =
      (c.rangeRows id low high).reverse := by
  rw [Table.takeWhile_descend (fun a ha b hb => inside_descend_of_lt c id low high ha hb)]
  congr 1
  refine filter_eq_rangeRows c id low high (fun row hrow => ?_)
  rw [Bool.and_eq_true]
  constructor
  · rintro ⟨hhigh, hin⟩
    exact (inside_descend (Table.mem_descend.mpr ⟨hrow, hhigh⟩)).mp hin
  · intro hin
    obtain ⟨height, hkey, hlow, hhigh⟩ := hin
    have hle : (compare row.1 (makeEnergyKey id high)).isLE := by
      rw [hkey]
      exact makeEnergyKey_isLE.mpr hhigh
    exact ⟨hle, (inside_descend (Table.mem_descend.mpr ⟨hrow, hle⟩)).mpr
      ⟨height, hkey, hlow, hhigh⟩⟩

theorem recordsInRange_length : (c.recordsInRange id low high).length ≤ high.toNat + 1 := by
  have hle := List.length_filterMap_le (c.recordAt id)
    (List.range' low.toNat (high.toNat + 1 - low.toNat))
  rw [List.length_range'] at hle
  unfold recordsInRange
  omega

theorem mem_recordsInRange {record : PassEnergyRecord} :
    record ∈ c.recordsInRange id low high ↔
      record.inscriptionId = id ∧ low ≤ record.blockHeight ∧ record.blockHeight ≤ high ∧
        c.getPassEnergyRecord id record.blockHeight = some record.toPassEnergyValue := by
  have hbound := high.toNat_lt
  unfold recordsInRange recordAt
  rw [List.mem_filterMap]
  constructor
  · rintro ⟨n, hn, hrecord⟩
    obtain ⟨value, hget, rfl⟩ := Option.map_eq_some_iff.mp hrecord
    rw [List.mem_range'_1] at hn
    have hnat : (UInt32.ofNat n).toNat = n := by
      rw [UInt32.toNat_ofNat', Nat.mod_eq_of_lt (by omega)]
    refine ⟨rfl, ?_, ?_, hget⟩
    · rw [UInt32.le_iff_toNat_le, hnat]
      exact hn.1
    · rw [UInt32.le_iff_toNat_le, hnat]
      omega
  · rintro ⟨rfl, hlow, hhigh, hget⟩
    rw [UInt32.le_iff_toNat_le] at hlow hhigh
    refine ⟨record.blockHeight.toNat, ?_, ?_⟩
    · rw [List.mem_range'_1]
      omega
    · rw [UInt32.ofNat_toNat, hget]
      rfl

end Ranges

section Queries

variable (c : PassEnergyColumn) (id : InscriptionId) (low high : UInt32) (page pageSize : Nat)

theorem pageOffset_ok (hle : low ≤ high) (hfit : page * pageSize < 2 ^ 64) :
    pageOffset low high page pageSize = .ok (page * pageSize) := by
  unfold pageOffset
  rw [if_neg (UInt32.not_lt.mpr hle), if_pos hfit]

theorem findLastPassEnergyRecord_eq :
    c.findLastPassEnergyRecord id high =
      .ok ((findLast (c.recordAt id) high.toNat).map (·.2)) := by
  -- from the start key downwards the rows of the pass come first, so filtering them is
  -- stopping behind them
  have hfilter : (c.rows.descend (makeEnergyKey id high)).filter (inside id (high < ·)) =
      (c.rangeRows id 0 high).reverse := by
    rw [← takeWhile_descend, takeWhile_eq_filter (Table.descend_pairwise _ _)
      (fun a ha b hb => inside_descend_of_lt c id 0 high ha hb)]
    exact List.filter_congr (fun row hrow => inside_findLast hrow)
  unfold findLastPassEnergyRecord
  rw [findLastLoop_ok (allKeys_descend c _), ← List.head?_filter, hfilter, List.head?_reverse,
    ← List.getLast?_map, map_rangeRows, ← getLast?_filterMap_range, List.range_eq_range']
  rfl

theorem getPassEnergyRecordsByPage_eq (hle : low ≤ high) (hsize : 0 < pageSize)
    (hfit : page * pageSize < 2 ^ 64) :
    c.getPassEnergyRecordsByPageInHeightRange id low high page pageSize =
      .ok (Paging.slice (c.recordsInRange id low high) pageSize page) := by
  unfold getPassEnergyRecordsByPageInHeightRange
  rw [pageOffset_ok low high page pageSize hle hfit]
  show pageLoop id _ _ _ _ _ _ = _
  rw [pageLoop_ok (allKeys_ascend c _) hsize, takeWhile_ascend, map_rangeRows]
  rfl

theorem getPassEnergyRecordsByPageDesc_eq (hle : low ≤ high) (hsize : 0 < pageSize)
    (hfit : page * pageSize < 2 ^ 64) :
    c.getPassEnergyRecordsByPageInHeightRangeDesc id low high page pageSize =
      .ok (Paging.slice (c.recordsInRange id low high).reverse pageSize page) := by
  unfold getPassEnergyRecordsByPageInHeightRangeDesc
  rw [pageOffset_ok low high page pageSize hle hfit]
  show pageLoop id _ _ _ _ _ _ = _
  rw [pageLoop_ok (allKeys_descend c _) hsize, takeWhile_descend, List.map_reverse, map_rangeRows]
  rfl

theorem countPassEnergyRecords_eq (hle : low ≤ high) :
    c.countPassEnergyRecordsInHeightRange id low high =
      .ok (c.recordsInRange id low high).length := by
  have hlen : (c.rangeRows id low high).length = (c.recordsInRange id low high).length := by
    rw [← map_rangeRows, List.length_map]
  have hbound := high.toNat_lt
  have hmax := c.recordsInRange_length id low high
  unfold countPassEnergyRecordsInHeightRange
  rw [if_neg (UInt32.not_lt.mpr hle), countLoop_ok (allKeys_ascend c _), takeWhile_ascend, hlen,
    Nat.zero_add]
  rw [takeWhile_ascend, hlen]
  omega

/-- Reading the pages one after the other, up to the last that has a record. -/
theorem mapM_pages (rows : List PassEnergyRecord) {pageSize : Nat}
    {query : Nat → Except EnergyDbError (List PassEnergyRecord)} (hsize : 0 < pageSize)
    (hrows : rows.length < 2 ^ 64)
    (hquery : ∀ page, page * pageSize < 2 ^ 64 →
      query page = .ok (Paging.slice rows pageSize page)) :
    (List.range ((rows.length + pageSize - 1) / pageSize)).mapM query =
      .ok (Paging.chunks pageSize rows) := by
  refine mapM_eq_map (fun page hpage => hquery page ?_)
  rw [List.mem_range, Nat.lt_div_iff_mul_lt hsize] at hpage
  omega

theorem findLastPassEnergyRecord_some {record : PassEnergyRecord} :
    c.findLastPassEnergyRecord id high = .ok (some record) ↔
      record.inscriptionId = id ∧ record.blockHeight ≤ high ∧
        c.getPassEnergyRecord id record.blockHeight = some record.toPassEnergyValue ∧
        ∀ height, record.blockHeight < height → height ≤ high →
          c.getPassEnergyRecord id height = none := by
  have hbound := high.toNat_lt
  rw [findLastPassEnergyRecord_eq, Except.ok.injEq, Option.map_eq_some_iff]
  constructor
  · rintro ⟨⟨n, record'⟩, hfind, rfl⟩
    obtain ⟨hn, hrecord, hnone⟩ := (findLast_eq_some _ _ _ _).mp hfind
    obtain ⟨value, hget, rfl⟩ := Option.map_eq_some_iff.mp hrecord
    have hnat : (UInt32.ofNat n).toNat = n := by
      rw [UInt32.toNat_ofNat', Nat.mod_eq_of_lt (by omega)]
    refine ⟨rfl, ?_, hget, fun height hlow hhigh => ?_⟩
    · rw [UInt32.le_iff_toNat_le, hnat]
      exact hn
    · rw [UInt32.lt_iff_toNat_lt, hnat] at hlow
      have habove := hnone height.toNat hlow (UInt32.le_iff_toNat_le.mp hhigh)
      unfold recordAt at habove
      rw [UInt32.ofNat_toNat, Option.map_eq_none_iff] at habove
      exact habove
  · rintro ⟨rfl, hhigh, hget, hnone⟩
    refine ⟨(record.blockHeight.toNat, record), ?_, rfl⟩
    refine (findLast_eq_some _ _ _ _).mpr ⟨UInt32.le_iff_toNat_le.mp hhigh, ?_, fun n hlow hn => ?_⟩
    · unfold recordAt
      rw [UInt32.ofNat_toNat, hget]
      rfl
    · have hnat : (UInt32.ofNat n).toNat = n := by
        rw [UInt32.toNat_ofNat', Nat.mod_eq_of_lt (by omega)]
      unfold recordAt
      rw [hnone (UInt32.ofNat n) (by rw [UInt32.lt_iff_toNat_lt, hnat]; exact hlow)
        (by rw [UInt32.le_iff_toNat_le, hnat]; exact hn)]
      rfl

theorem findLastPassEnergyRecord_none :
    c.findLastPassEnergyRecord id high = .ok none ↔
      ∀ height ≤ high, c.getPassEnergyRecord id height = none := by
  have hbound := high.toNat_lt
  rw [findLastPassEnergyRecord_eq, Except.ok.injEq, Option.map_eq_none_iff, findLast_eq_none]
  constructor
  · intro hnone height hle
    have hheight := hnone height.toNat (UInt32.le_iff_toNat_le.mp hle)
    unfold recordAt at hheight
    rw [UInt32.ofNat_toNat, Option.map_eq_none_iff] at hheight
    exact hheight
  · intro hnone n hn
    unfold recordAt
    rw [hnone (UInt32.ofNat n) (by
      rw [UInt32.le_iff_toNat_le, UInt32.toNat_ofNat', Nat.mod_eq_of_lt (by omega)]
      exact hn)]
    rfl

theorem getPassEnergyRecord_insert (record : PassEnergyRecord) (height : UInt32) :
    (c.insertPassEnergyRecord record).getPassEnergyRecord id height =
      if record.inscriptionId = id ∧ record.blockHeight = height then
        some record.toPassEnergyValue
      else c.getPassEnergyRecord id height := by
  have hkey : makeEnergyKey record.inscriptionId record.blockHeight = makeEnergyKey id height ↔
      record.inscriptionId = id ∧ record.blockHeight = height := by
    constructor
    · intro heq
      have hread := congrArg readKey heq
      rw [readKey_makeEnergyKey, readKey_makeEnergyKey] at hread
      exact PassEnergyKey.mk.inj hread
    · rintro ⟨rfl, rfl⟩
      rfl
  unfold getPassEnergyRecord insertPassEnergyRecord
  rw [Table.getElem?_put]
  simp only [hkey]

end Queries

/-- The energy record store against the map from passes and heights it holds: the key
codec, the last record, and the pages and the count of a range of heights. -/
theorem energyRecordQueries_exact (c : PassEnergyColumn) (id : InscriptionId)
    (low high : UInt32) (pageSize : Nat) (hrange : low ≤ high) (hsize : 1 ≤ pageSize) :
    (∀ height, parseEnergyKey (makeEnergyKey id height) = .ok ⟨id, height⟩) ∧
      (∀ id' height height', compare (makeEnergyKey id height) (makeEnergyKey id' height') =
        (compare id.bytes id'.bytes).then (compare height height')) ∧
      (∀ height record, c.findLastPassEnergyRecord id height = .ok (some record) ↔
        record.inscriptionId = id ∧ record.blockHeight ≤ height ∧
          c.getPassEnergyRecord id record.blockHeight = some record.toPassEnergyValue ∧
          ∀ above, record.blockHeight < above → above ≤ height →
            c.getPassEnergyRecord id above = none) ∧
      (∀ height, c.findLastPassEnergyRecord id height = .ok none ↔
        ∀ below ≤ height, c.getPassEnergyRecord id below = none) ∧
      (∀ page, page * pageSize < 2 ^ 64 →
        c.getPassEnergyRecordsByPageInHeightRange id low high page pageSize =
            .ok (Paging.slice (c.recordsInRange id low high) pageSize page) ∧
          c.getPassEnergyRecordsByPageInHeightRangeDesc id low high page pageSize =
            .ok (Paging.slice (c.recordsInRange id low high).reverse pageSize page)) ∧
      (∃ count pages descPages,
        c.countPassEnergyRecordsInHeightRange id low high = .ok count ∧
          (List.range ((count + pageSize - 1) / pageSize)).mapM (fun page =>
            c.getPassEnergyRecordsByPageInHeightRange id low high page pageSize) = .ok pages ∧
          (List.range ((count + pageSize - 1) / pageSize)).mapM (fun page =>
            c.getPassEnergyRecordsByPageInHeightRangeDesc id low high page pageSize) =
              .ok descPages ∧
          count = (c.recordsInRange id low high).length ∧
          pages.flatten = c.recordsInRange id low high ∧
          descPages.flatten = (c.recordsInRange id low high).reverse) := by
  have hmax := c.recordsInRange_length id low high
  have hbound := high.toNat_lt
  refine ⟨parseEnergyKey_makeEnergyKey id, fun id' height height' => compare_makeEnergyKey,
    fun height record => c.findLastPassEnergyRecord_some id height,
    fun height => c.findLastPassEnergyRecord_none id height, fun page hfit => ⟨?_, ?_⟩, ?_⟩
  · exact c.getPassEnergyRecordsByPage_eq id low high page pageSize hrange hsize hfit
  · exact c.getPassEnergyRecordsByPageDesc_eq id low high page pageSize hrange hsize hfit
  · have hasc := mapM_pages (c.recordsInRange id low high) hsize (by omega)
      (fun page => c.getPassEnergyRecordsByPage_eq id low high page pageSize hrange hsize)
    have hdesc := mapM_pages (c.recordsInRange id low high).reverse hsize
      (by rw [List.length_reverse]; omega)
      (fun page => c.getPassEnergyRecordsByPageDesc_eq id low high page pageSize hrange hsize)
    rw [List.length_reverse] at hdesc
    exact ⟨_, _, _, c.countPassEnergyRecords_eq id low high hrange, hasc, hdesc, rfl,
      Paging.flatten_chunks hsize _, Paging.flatten_chunks hsize _⟩

section Sample

def sampleId (index : UInt32) : InscriptionId where
  txid := Vector.replicate 32 7
  index := index

def sampleRecord (index blockHeight : UInt32) : PassEnergyRecord where
  inscriptionId := sampleId index
  blockHeight := blockHeight
  state := .Active
  activeBlockHeight := blockHeight
  ownerAddress := 1
  ownerBalance := 5
  ownerDelta := 5
  energy := 0

/-- Two records of one pass between records of its neighbours. -/
def sampleColumn : PassEnergyColumn :=
  [sampleRecord 0 9, sampleRecord 1 3, sampleRecord 1 8, sampleRecord 2 0].foldl
    insertPassEnergyRecord empty

theorem energyRecordQueries_exact_sample :
    (∃ count pages descPages,
      sampleColumn.countPassEnergyRecordsInHeightRange (sampleId 1) 3 8 = .ok count ∧
        (List.range ((count + 1 - 1) / 1)).mapM (fun page =>
          sampleColumn.getPassEnergyRecordsByPageInHeightRange (sampleId 1) 3 8 page 1) =
            .ok pages ∧
        (List.range ((count + 1 - 1) / 1)).mapM (fun page =>
          sampleColumn.getPassEnergyRecordsByPageInHeightRangeDesc (sampleId 1) 3 8 page 1) =
            .ok descPages ∧
        count = (sampleColumn.recordsInRange (sampleId 1) 3 8).length ∧
        pages.flatten = sampleColumn.recordsInRange (sampleId 1) 3 8 ∧
        descPages.flatten = (sampleColumn.recordsInRange (sampleId 1) 3 8).reverse) :=
  (energyRecordQueries_exact sampleColumn (sampleId 1) 3 8 1 (by decide) (by decide)).2.2.2.2.2

end Sample

end PassEnergyColumn

end Usdb.EnergyDb
