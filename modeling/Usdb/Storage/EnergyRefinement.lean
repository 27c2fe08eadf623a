import Usdb.Storage.EnergyQueries

namespace Usdb.EnergyDb

open Framework

/-- The loop of `scan_max_record_block_height` over all rows. -/
def scanMaxLoop : List (List UInt8 × PassEnergyValue) → Option UInt32 →
    Except EnergyDbError (Option UInt32)
  | [], maxHeight => .ok maxHeight
  | (keyBytes, _) :: rest, maxHeight => do
    let key ← parseEnergyKey keyBytes
    scanMaxLoop rest (some (match maxHeight with
      | some current => max current key.blockHeight
      | none => key.blockHeight))

/-- The loop of `clear_records_from_height` over all rows: the keys to delete, and the
greatest height that is kept. -/
def clearLoop (fromBlockHeight : UInt32) : List (List UInt8 × PassEnergyValue) →
    List (List UInt8) → Option UInt32 → Except EnergyDbError (List (List UInt8) × Option UInt32)
  | [], keysToDelete, maxKeptHeight => .ok (keysToDelete, maxKeptHeight)
  | (keyBytes, _) :: rest, keysToDelete, maxKeptHeight => do
    let key ← parseEnergyKey keyBytes
    if fromBlockHeight ≤ key.blockHeight then
      clearLoop fromBlockHeight rest (keysToDelete ++ [keyBytes]) maxKeptHeight
    else
      clearLoop fromBlockHeight rest keysToDelete (some (match maxKeptHeight with
        | some current => max current key.blockHeight
        | none => key.blockHeight))

def PassEnergyColumn.deleteKeys (c : PassEnergyColumn) (keys : List (List UInt8)) :
    PassEnergyColumn where
  rows := c.rows.eraseAll keys
  keyed := by
    rintro ⟨key, value⟩ hmem
    rw [Table.mem_toList, Table.getElem?_eraseAll] at hmem
    split at hmem
    · cases hmem
    · exact c.keyed (key, value) (Table.mem_toList.mpr hmem)

/-- The column, and the maximum cached beside it. -/
structure PassEnergyDb where
  column : PassEnergyColumn
  maxRecordBlockHeight : Option UInt32

namespace PassEnergyDb

def empty : PassEnergyDb := ⟨.empty, none⟩

def insertPassEnergyRecord (db : PassEnergyDb) (record : PassEnergyRecord) : PassEnergyDb where
  column := db.column.insertPassEnergyRecord record
  maxRecordBlockHeight :=
    match db.maxRecordBlockHeight with
    | some h => if h < record.blockHeight then some record.blockHeight else some h
    | none => some record.blockHeight

/-- The first write of `clear_records_from_height`. -/
def deleteRecordsFrom (db : PassEnergyDb) (fromBlockHeight : UInt32) :
    Except EnergyDbError PassEnergyDb := do
  let (keysToDelete, _) ← clearLoop fromBlockHeight db.column.rows.toList [] none
  return { db with column := db.column.deleteKeys keysToDelete }

def clearRecordsFromHeight (db : PassEnergyDb) (fromBlockHeight : UInt32) :
    Except EnergyDbError PassEnergyDb := do
  let (keysToDelete, maxKeptHeight) ← clearLoop fromBlockHeight db.column.rows.toList [] none
  return ⟨db.column.deleteKeys keysToDelete, maxKeptHeight⟩

/-- The answer of `get_max_record_block_height`; a scanned maximum is also written back. -/
def getMaxRecordBlockHeight (db : PassEnergyDb) : Except EnergyDbError (Option UInt32) :=
  match db.maxRecordBlockHeight with
  | some height => .ok (some height)
  | none => scanMaxLoop db.column.rows.toList none

end PassEnergyDb

section Loops

variable {rows : List (List UInt8 × PassEnergyValue)} {fromBlockHeight : UInt32}
  {keys : List (List UInt8)} {top : Option UInt32}

/-- The running maximum of both loops. -/
def raise (top : Option UInt32) (row : List UInt8 × PassEnergyValue) : Option UInt32 :=
  some (match top with
    | some current => max current (readRow row).blockHeight
    | none => (readRow row).blockHeight)

theorem scanMaxLoop_ok (h : AllKeys rows) :
    scanMaxLoop rows top = .ok (rows.foldl raise top) := by
  induction rows generalizing top with
  | nil => rfl
  | cons row rows ih =>
    obtain ⟨keyBytes, value⟩ := row
    have hkey := h _ List.mem_cons_self
    unfold scanMaxLoop
    rw [hkey]
    exact ih h.tail

theorem clearLoop_ok (h : AllKeys rows) :
    clearLoop fromBlockHeight rows keys top =
      .ok (keys ++ (rows.filter (fun row => fromBlockHeight ≤ (readRow row).blockHeight)).map (·.1),
        (rows.filter (fun row => ¬ fromBlockHeight ≤ (readRow row).blockHeight)).foldl raise top) := by
  induction rows generalizing keys top with
  | nil => simp [clearLoop]
  | cons row rows ih =>
    obtain ⟨keyBytes, value⟩ := row
    have hkey := h _ List.mem_cons_self
    have hheight : (readKey keyBytes).blockHeight = (readRow (keyBytes, value)).blockHeight := rfl
    unfold clearLoop
    rw [hkey]
    by_cases hle : fromBlockHeight ≤ (readRow (keyBytes, value)).blockHeight
    · rw [List.filter_cons_of_pos (by simpa using hle), List.filter_cons_of_neg (by simpa using hle)]
      show (if fromBlockHeight ≤ (readKey keyBytes).blockHeight then _ else _) = _
      rw [if_pos (hheight ▸ hle), ih h.tail, List.append_assoc]
      rfl
    · rw [List.filter_cons_of_neg (by simpa using hle), List.filter_cons_of_pos (by simpa using hle)]
      show (if fromBlockHeight ≤ (readKey keyBytes).blockHeight then _ else _) = _
      rw [if_neg (hheight ▸ hle), ih h.tail]
      rfl

theorem toNat_max (a b : UInt32) : (max a b).toNat = max a.toNat b.toNat := by
  show (if a ≤ b then b else a).toNat = if a.toNat ≤ b.toNat then b.toNat else a.toNat
  simp only [UInt32.le_iff_toNat_le]
  split <;> rfl

/-- The running maximum is the greatest of the heights so far and those of the rows. -/
theorem foldl_raise : (rows.foldl raise top).map UInt32.toNat =
    (top.toList.map UInt32.toNat ++ rows.map (fun row => (readRow row).blockHeight.toNat)).max? := by
  induction rows generalizing top with
  | nil => cases top <;> rfl
  | cons row rows ih =>
    rw [List.foldl_cons, ih]
    cases top with
    | none => rfl
    | some current =>
      show List.max? ((max current (readRow row).blockHeight).toNat :: _) = _
      rw [toNat_max]
      rfl

end Loops

theorem max?_congr {heights heights' : List Nat} (h : ∀ n, n ∈ heights ↔ n ∈ heights') :
    heights.max? = heights'.max? := by
  refine Option.ext (fun n => ?_)
  simp only [List.max?_eq_some_iff, h]

theorem scanMaxRecordBlockHeight_eq (records : List Usdb.PassEnergyRecord) :
    PassEnergyStorage.scanMaxRecordBlockHeight records = (records.map (·.blockHeight)).max? := by
  unfold PassEnergyStorage.scanMaxRecordBlockHeight
  cases hmax : maxBy (·.blockHeight) records with
  | none =>
    cases records with
    | nil => rfl
    | cons record records =>
      obtain ⟨top, htop, -⟩ := maxBy_le (·.blockHeight) (record :: records) record (by simp)
      rw [hmax] at htop
      cases htop
  | some record =>
    refine (List.max?_eq_some_iff.mpr ⟨List.mem_map_of_mem (maxBy_mem _ _ _ hmax), ?_⟩).symm
    intro height hheight
    obtain ⟨other, hother, rfl⟩ := List.mem_map.mp hheight
    obtain ⟨top, htop, hle⟩ := maxBy_le (·.blockHeight) records other hother
    rw [hmax] at htop
    cases htop
    exact hle

section Column

variable {c : PassEnergyColumn} {fromBlockHeight : UInt32} {row : List UInt8 × PassEnergyValue}

theorem PassEnergyColumn.allKeys (c : PassEnergyColumn) : AllKeys c.rows.toList := by
  intro row hrow
  obtain ⟨id, height, hkey⟩ := c.keyed row hrow
  rw [hkey, parseEnergyKey_makeEnergyKey, readKey_makeEnergyKey]

def PassEnergyColumn.keysFrom (c : PassEnergyColumn) (fromBlockHeight : UInt32) :
    List (List UInt8) :=
  (c.rows.toList.filter (fun row => fromBlockHeight ≤ (readRow row).blockHeight)).map (·.1)

theorem PassEnergyColumn.mem_deleteKeys :
    row ∈ (c.deleteKeys (c.keysFrom fromBlockHeight)).rows.toList ↔
      row ∈ c.rows.toList.filter (fun row => ¬ fromBlockHeight ≤ (readRow row).blockHeight) := by
  obtain ⟨key, value⟩ := row
  unfold deleteKeys
  rw [Table.mem_toList, Table.getElem?_eraseAll, List.mem_filter, Table.mem_toList]
  have hkeys : key ∈ c.keysFrom fromBlockHeight ↔
      c.rows[key]?.isSome ∧ fromBlockHeight ≤ (readRow (key, value)).blockHeight := by
    unfold keysFrom
    rw [List.mem_map]
    constructor
    · rintro ⟨⟨_, value'⟩, hmem, rfl⟩
      obtain ⟨hrow, hle⟩ := List.mem_filter.mp hmem
      exact ⟨by rw [Table.mem_toList.mp hrow]; rfl, of_decide_eq_true hle⟩
    · rintro ⟨hsome, hle⟩
      obtain ⟨value', hget⟩ := Option.isSome_iff_exists.mp hsome
      exact ⟨(key, value'), List.mem_filter.mpr ⟨Table.mem_toList.mpr hget, decide_eq_true hle⟩,
        rfl⟩
  split
  · next hmem =>
    have hle := (hkeys.mp hmem).2
    simp [hle]
  · next hmem =>
    constructor
    · intro hget
      refine ⟨hget, decide_eq_true (fun hle => hmem (hkeys.mpr ⟨by rw [hget]; rfl, hle⟩))⟩
    · exact fun h => h.1

theorem PassEnergyColumn.getPassEnergyRecord_deleteKeys (id : InscriptionId) (height : UInt32) :
    (c.deleteKeys (c.keysFrom fromBlockHeight)).getPassEnergyRecord id height =
      if height < fromBlockHeight then c.getPassEnergyRecord id height else none := by
  refine Option.ext (fun value => ?_)
  unfold getPassEnergyRecord
  rw [← Table.mem_toList, mem_deleteKeys, List.mem_filter, Table.mem_toList, readRow_makeEnergyKey]
  by_cases hlt : height < fromBlockHeight
  · simp [hlt, UInt32.not_le.mpr hlt]
  · simp [hlt, UInt32.not_lt.mp hlt]

end Column

/-- The id as the indexer's model has it: a transaction id there is the number its
printed text denotes, and the text has the bytes in reverse. -/
def InscriptionId.toIndexer (id : InscriptionId) : Usdb.InscriptionId where
  txid := ofBigEndian id.txid.toList.reverse
  index := id.index.toNat

def PassEnergyRecord.toIndexer (record : PassEnergyRecord) : Usdb.PassEnergyRecord where
  inscriptionId := record.inscriptionId.toIndexer
  blockHeight := record.blockHeight.toNat
  state := record.state
  activeBlockHeight := record.activeBlockHeight.toNat
  ownerAddress := record.ownerAddress
  ownerBalance := record.ownerBalance.toNat
  ownerDelta := record.ownerDelta.toInt
  energy := record.energy.toNat

theorem toIndexer_injective {id id' : InscriptionId} (h : id.toIndexer = id'.toIndexer) :
    id = id' := by
  obtain ⟨txid, index⟩ := id
  obtain ⟨txid', index'⟩ := id'
  obtain ⟨htxid, hindex⟩ := Usdb.InscriptionId.mk.inj h
  have hbytes := ofBigEndian_injective (by simp) htxid
  rw [List.reverse_inj, Vector.toList_inj] at hbytes
  exact InscriptionId.mk.injEq _ _ _ _ ▸ ⟨hbytes, UInt32.toNat_inj.mp hindex⟩

/-- The store holds the records of the energy database of the indexer's model, and the same
cached maximum. -/
structure Represents (db : PassEnergyDb) (e : PassEnergyStorage) : Prop where
  record : ∀ id (height : UInt32), e.getPassEnergyRecord id.toIndexer height.toNat =
    (db.column.recordAt id height.toNat).map PassEnergyRecord.toIndexer
  known : ∀ r ∈ e.records, ∃ record : PassEnergyRecord, record.toIndexer = r
  maximum : e.maxRecordBlockHeight = db.maxRecordBlockHeight.map UInt32.toNat

namespace Represents

variable {db : PassEnergyDb} {e : PassEnergyStorage}

theorem empty : Represents .empty .empty where
  record id height := by
    unfold PassEnergyColumn.recordAt PassEnergyColumn.getPassEnergyRecord PassEnergyDb.empty
      PassEnergyColumn.empty
    simp [PassEnergyStorage.getPassEnergyRecord, PassEnergyStorage.empty, lookup]
  known := by simp [PassEnergyStorage.empty]
  maximum := rfl

theorem heights (h : Represents db e) (height : Nat) :
    height ∈ e.records.map (·.blockHeight) ↔
      height ∈ db.column.rows.toList.map (fun row => (readRow row).blockHeight.toNat) := by
  rw [List.mem_map, List.mem_map]
  constructor
  · rintro ⟨r, hr, rfl⟩
    obtain ⟨record, rfl⟩ := h.known r hr
    have hstored : e.getPassEnergyRecord record.inscriptionId.toIndexer record.blockHeight.toNat ≠
        none := fun hnone => (lookup_eq_none _ _ _).mp hnone _ hr rfl
    rw [h.record, ne_eq, Option.map_eq_none_iff] at hstored
    unfold PassEnergyColumn.recordAt at hstored
    rw [UInt32.ofNat_toNat, Option.map_eq_none_iff] at hstored
    obtain ⟨value, hget⟩ := Option.ne_none_iff_exists'.mp hstored
    refine ⟨_, Table.mem_toList.mpr hget, ?_⟩
    rw [PassEnergyColumn.readRow_makeEnergyKey]
    rfl
  · rintro ⟨⟨key, value⟩, hrow, rfl⟩
    obtain ⟨id, height, rfl⟩ := db.column.keyed _ hrow
    have hget := h.record id height
    unfold PassEnergyColumn.recordAt PassEnergyColumn.getPassEnergyRecord at hget
    rw [UInt32.ofNat_toNat, Table.mem_toList.mp hrow] at hget
    refine ⟨_, lookup_some_mem _ _ _ _ hget, ?_⟩
    rw [PassEnergyColumn.readRow_makeEnergyKey]
    rfl

theorem insertPassEnergyRecord (h : Represents db e) (record : PassEnergyRecord) :
    Represents (db.insertPassEnergyRecord record)
      (e.insertPassEnergyRecord record.toIndexer) where
  record id height := by
    have hkey : (id.toIndexer = record.toIndexer.inscriptionId ∧
        height.toNat = record.toIndexer.blockHeight) ↔
        record.inscriptionId = id ∧ record.blockHeight = height := by
      constructor
      · rintro ⟨hid, hheight⟩
        exact ⟨(toIndexer_injective hid).symm, (UInt32.toNat_inj.mp hheight).symm⟩
      · rintro ⟨rfl, rfl⟩
        exact ⟨rfl, rfl⟩
    have hold := h.record id height
    unfold PassEnergyColumn.recordAt at hold ⊢
    unfold PassEnergyDb.insertPassEnergyRecord
    rw [UInt32.ofNat_toNat] at hold ⊢
    rw [PassEnergyStorage.getPassEnergyRecord_insert, PassEnergyColumn.getPassEnergyRecord_insert]
    simp only [hkey]
    split
    · next hsame =>
      obtain ⟨rfl, rfl⟩ := hsame
      rfl
    · exact hold
  known r hr := by
    rcases mem_upsert _ _ _ _ hr with rfl | hr
    · exact ⟨record, rfl⟩
    · exact h.known r hr
  maximum := by
    unfold PassEnergyStorage.insertPassEnergyRecord PassEnergyDb.insertPassEnergyRecord
    rw [h.maximum]
    cases db.maxRecordBlockHeight with
    | none => rfl
    | some height =>
      show (if height.toNat < record.blockHeight.toNat then _ else _) = _
      simp only [← UInt32.lt_iff_toNat_lt]
      split <;> rfl

section Deletion

variable {fromBlockHeight : UInt32}

theorem deleteRecordsFrom_record (h : Represents db e) (id : InscriptionId) (height : UInt32) :
    (e.deleteRecordsFrom fromBlockHeight.toNat).getPassEnergyRecord id.toIndexer height.toNat =
      ((db.column.deleteKeys (db.column.keysFrom fromBlockHeight)).recordAt id height.toNat).map
        PassEnergyRecord.toIndexer := by
  have hold := h.record id height
  unfold PassEnergyColumn.recordAt at hold ⊢
  rw [UInt32.ofNat_toNat] at hold ⊢
  rw [PassEnergyStorage.getPassEnergyRecord_delete, hold,
    PassEnergyColumn.getPassEnergyRecord_deleteKeys]
  simp only [← UInt32.lt_iff_toNat_lt]
  split <;> rfl

theorem deleteRecordsFrom (h : Represents db e) (fromBlockHeight : UInt32) :
    ∃ db', db.deleteRecordsFrom fromBlockHeight = .ok db' ∧
    Represents db' (e.deleteRecordsFrom fromBlockHeight.toNat) := by
  refine ⟨{ db with column := db.column.deleteKeys (db.column.keysFrom fromBlockHeight) }, ?_, ?_⟩
  · unfold PassEnergyDb.deleteRecordsFrom
    rw [clearLoop_ok db.column.allKeys]
    rfl
  · exact ⟨h.deleteRecordsFrom_record,
      fun r hr => h.known r (List.mem_of_mem_filter hr), h.maximum⟩

theorem clearRecordsFromHeight (h : Represents db e) (fromBlockHeight : UInt32) :
    ∃ db', db.clearRecordsFromHeight fromBlockHeight = .ok db' ∧
    Represents db' (e.deleteRecordsFrom fromBlockHeight.toNat).resetMaxRecordBlockHeight := by
  obtain ⟨deleted, hok, hdeleted⟩ := h.deleteRecordsFrom fromBlockHeight
  let kept := db.column.rows.toList.filter
    (fun row => ¬ fromBlockHeight ≤ (readRow row).blockHeight)
  refine ⟨⟨db.column.deleteKeys (db.column.keysFrom fromBlockHeight), kept.foldl raise none⟩,
    ?_, ?_⟩
  · unfold PassEnergyDb.clearRecordsFromHeight
    rw [clearLoop_ok db.column.allKeys]
    rfl
  · refine ⟨h.deleteRecordsFrom_record,
      fun r hr => h.known r (List.mem_of_mem_filter hr), ?_⟩
    unfold PassEnergyDb.deleteRecordsFrom at hok
    rw [clearLoop_ok db.column.allKeys] at hok
    cases hok
    show PassEnergyStorage.scanMaxRecordBlockHeight _ = (kept.foldl raise none).map UInt32.toNat
    rw [scanMaxRecordBlockHeight_eq, foldl_raise]
    refine max?_congr (fun height => (hdeleted.heights height).trans ?_)
    simp only [Option.toList_none, List.map_nil, List.nil_append, List.mem_map]
    exact exists_congr (fun row => and_congr_left (fun _ => PassEnergyColumn.mem_deleteKeys))

end Deletion

/-- The reverse iterator answers what the indexer's model of the database answers. -/
theorem findLastPassEnergyRecord (h : Represents db e) (id : InscriptionId) (height : UInt32) :
    (db.column.findLastPassEnergyRecord id height).map (·.map PassEnergyRecord.toIndexer) =
      .ok (e.findLastPassEnergyRecord id.toIndexer height.toNat) := by
  have hbound := height.toNat_lt
  have hrecords : ∀ n ≤ height.toNat, e.getPassEnergyRecord id.toIndexer n =
      (db.column.recordAt id n).map PassEnergyRecord.toIndexer := by
    intro n hn
    have hsame := h.record id (UInt32.ofNat n)
    rw [UInt32.toNat_ofNat', Nat.mod_eq_of_lt (by omega)] at hsame
    exact hsame
  unfold PassEnergyStorage.findLastPassEnergyRecord
  rw [db.column.findLastPassEnergyRecord_eq, findLast_congr _ _ _ hrecords, findLast_map,
    Option.map_map]
  exact congrArg Except.ok (Option.map_map _ _ _)

theorem getMaxRecordBlockHeight (h : Represents db e) :
    db.getMaxRecordBlockHeight.map (·.map UInt32.toNat) =
      .ok (e.maxRecordBlockHeight.or (PassEnergyStorage.scanMaxRecordBlockHeight e.records)) := by
  unfold PassEnergyDb.getMaxRecordBlockHeight
  rw [h.maximum]
  cases db.maxRecordBlockHeight with
  | some height => rfl
  | none =>
    dsimp only
    rw [scanMaxLoop_ok db.column.allKeys, scanMaxRecordBlockHeight_eq, max?_congr h.heights]
    exact congrArg Except.ok foldl_raise

theorem mem_recordsInRange (h : Represents db e) (id : InscriptionId) (low high : UInt32)
    (r : Usdb.PassEnergyRecord) :
    r ∈ (db.column.recordsInRange id low high).map PassEnergyRecord.toIndexer ↔
      low.toNat ≤ r.blockHeight ∧ r.blockHeight ≤ high.toNat ∧
        e.getPassEnergyRecord id.toIndexer r.blockHeight = some r := by
  have hbound := high.toNat_lt
  rw [List.mem_map]
  constructor
  · rintro ⟨record, hrecord, rfl⟩
    obtain ⟨rfl, hlow, hhigh, hget⟩ := (db.column.mem_recordsInRange _ _ _).mp hrecord
    refine ⟨UInt32.le_iff_toNat_le.mp hlow, UInt32.le_iff_toNat_le.mp hhigh, ?_⟩
    refine (h.record _ record.blockHeight).trans ?_
    unfold PassEnergyColumn.recordAt
    rw [UInt32.ofNat_toNat, hget]
    rfl
  · rintro ⟨hlow, hhigh, hget⟩
    have hheight : (UInt32.ofNat r.blockHeight).toNat = r.blockHeight := by
      rw [UInt32.toNat_ofNat', Nat.mod_eq_of_lt (by omega)]
    have hsame := h.record id (UInt32.ofNat r.blockHeight)
    rw [hheight, hget] at hsame
    obtain ⟨record, hrecord, heq⟩ := Option.map_eq_some_iff.mp hsame.symm
    obtain ⟨value, hvalue, rfl⟩ := Option.map_eq_some_iff.mp hrecord
    refine ⟨_, ?_, heq⟩
    rw [PassEnergyColumn.mem_recordsInRange, UInt32.le_iff_toNat_le, UInt32.le_iff_toNat_le]
    dsimp only
    rw [hheight]
    exact ⟨rfl, hlow, hhigh, hvalue⟩

end Represents

/-- What is written to the records. The deletion alone is a clearing that is cut off behind
its first write. -/
inductive EnergyWrite
  | insertPassEnergyRecord (record : PassEnergyRecord)
  | deleteRecordsFrom (fromBlockHeight : UInt32)
  | clearRecordsFromHeight (fromBlockHeight : UInt32)

namespace EnergyWrite

def run (db : PassEnergyDb) : EnergyWrite → Except EnergyDbError PassEnergyDb
  | .insertPassEnergyRecord record => .ok (db.insertPassEnergyRecord record)
  | .deleteRecordsFrom fromBlockHeight => db.deleteRecordsFrom fromBlockHeight
  | .clearRecordsFromHeight fromBlockHeight => db.clearRecordsFromHeight fromBlockHeight

/-- The same write in the indexer's model. -/
def runIndexer (e : PassEnergyStorage) : EnergyWrite → PassEnergyStorage
  | .insertPassEnergyRecord record => e.insertPassEnergyRecord record.toIndexer
  | .deleteRecordsFrom fromBlockHeight => e.deleteRecordsFrom fromBlockHeight.toNat
  | .clearRecordsFromHeight fromBlockHeight =>
    (e.deleteRecordsFrom fromBlockHeight.toNat).resetMaxRecordBlockHeight

end EnergyWrite

variable {db : PassEnergyDb} {e : PassEnergyStorage}

theorem Represents.run (h : Represents db e) (write : EnergyWrite) :
    ∃ db', write.run db = .ok db' ∧ Represents db' (write.runIndexer e) := by
  cases write with
  | insertPassEnergyRecord record => exact ⟨_, rfl, h.insertPassEnergyRecord record⟩
  | deleteRecordsFrom fromBlockHeight => exact h.deleteRecordsFrom fromBlockHeight
  | clearRecordsFromHeight fromBlockHeight => exact h.clearRecordsFromHeight fromBlockHeight

theorem Represents.runs (h : Represents db e) (writes : List EnergyWrite) :
    ∃ db', writes.foldlM EnergyWrite.run db = .ok db' ∧
      Represents db' (writes.foldl EnergyWrite.runIndexer e) := by
  induction writes generalizing db e with
  | nil => exact ⟨db, rfl, h⟩
  | cons write writes ih =>
    obtain ⟨next, hrun, hnext⟩ := h.run write
    obtain ⟨db', hruns, hdb'⟩ := ih hnext
    refine ⟨db', ?_, hdb'⟩
    rw [List.foldlM_cons, hrun]
    exact hruns

/-- The energy database over bytes refines the one of the indexer's model: after any writes
to an empty database, a deletion that is cut off included, no key is malformed and the
queries of both answer alike. -/
theorem passEnergyDb_refines (writes : List EnergyWrite) :
    ∃ db, writes.foldlM EnergyWrite.run .empty = .ok db ∧
      (∀ id (height : UInt32),
        (db.column.recordAt id height.toNat).map PassEnergyRecord.toIndexer =
          (writes.foldl EnergyWrite.runIndexer .empty).getPassEnergyRecord id.toIndexer
            height.toNat) ∧
      (∀ id (height : UInt32),
        (db.column.findLastPassEnergyRecord id height).map (·.map PassEnergyRecord.toIndexer) =
          .ok ((writes.foldl EnergyWrite.runIndexer .empty).findLastPassEnergyRecord id.toIndexer
            height.toNat)) ∧
      (∀ id (low high : UInt32) r,
        r ∈ (db.column.recordsInRange id low high).map PassEnergyRecord.toIndexer ↔
          low.toNat ≤ r.blockHeight ∧ r.blockHeight ≤ high.toNat ∧
            (writes.foldl EnergyWrite.runIndexer .empty).getPassEnergyRecord id.toIndexer
              r.blockHeight = some r) ∧
      db.getMaxRecordBlockHeight.map (·.map UInt32.toNat) =
        .ok ((writes.foldl EnergyWrite.runIndexer .empty).maxRecordBlockHeight.or
          (PassEnergyStorage.scanMaxRecordBlockHeight
            (writes.foldl EnergyWrite.runIndexer .empty).records)) := by
  obtain ⟨db, hrun, h⟩ := Represents.empty.runs writes
  exact ⟨db, hrun, fun id height => (h.record id height).symm, h.findLastPassEnergyRecord,
    h.mem_recordsInRange, h.getMaxRecordBlockHeight⟩

end Usdb.EnergyDb
