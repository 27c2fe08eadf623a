import Mathlib.Data.List.GetD
import Usdb.Btc.Types
import Usdb.Framework.BigEndian
import Usdb.Framework.KeyScan

namespace Usdb.EnergyDb

open Framework

structure InscriptionId where
  txid : Vector UInt8 32
  index : UInt32
deriving DecidableEq

structure PassEnergyKey where
  inscriptionId : InscriptionId
  blockHeight : UInt32
deriving DecidableEq

structure PassEnergyValue where
  state : MinerPassState
  activeBlockHeight : UInt32
  ownerAddress : USDBScriptHash
  ownerBalance : UInt64
  ownerDelta : Int64
  energy : UInt64
deriving DecidableEq

structure PassEnergyRecord extends PassEnergyKey, PassEnergyValue
deriving DecidableEq

inductive EnergyDbError
  | invalidKeyLength (length : Nat)
  | invalidHeightRange (fromBlockHeight toBlockHeight : UInt32)
  | paginationOverflow (page pageSize : Nat)
  | countOverflow
deriving DecidableEq

def InscriptionId.bytes (id : InscriptionId) : List UInt8 :=
  id.txid.toList ++ bigEndian 4 id.index.toNat

def makeEnergyKey (inscriptionId : InscriptionId) (blockHeight : UInt32) : List UInt8 :=
  inscriptionId.bytes ++ bigEndian 4 blockHeight.toNat

/-- The fields at their places in the bytes of a key. -/
def readKey (keyBytes : List UInt8) : PassEnergyKey where
  inscriptionId :=
    { txid := Vector.ofFn (fun i => keyBytes.getD i 0)
      index := UInt32.ofNat (ofBigEndian ((keyBytes.drop 32).take 4)) }
  blockHeight := UInt32.ofNat (ofBigEndian ((keyBytes.drop 36).take 4))

def parseEnergyKey (keyBytes : List UInt8) : Except EnergyDbError PassEnergyKey :=
  if keyBytes.length ≠ 32 + 4 + 4 then .error (.invalidKeyLength keyBytes.length)
  else .ok (readKey keyBytes)

section Codec

variable (id : InscriptionId) (height : UInt32)

theorem bytes_length : id.bytes.length = 36 := by
  unfold InscriptionId.bytes
  rw [List.length_append, bigEndian_length, Vector.length_toList]

theorem makeEnergyKey_length : (makeEnergyKey id height).length = 40 := by
  unfold makeEnergyKey
  rw [List.length_append, bytes_length, bigEndian_length]

theorem ofBigEndian_uint32 (n : UInt32) : UInt32.ofNat (ofBigEndian (bigEndian 4 n.toNat)) = n := by
  rw [ofBigEndian_bigEndian (by simpa using n.toNat_lt), UInt32.ofNat_toNat]

theorem readKey_makeEnergyKey : readKey (makeEnergyKey id height) = ⟨id, height⟩ := by
  have hheight : (makeEnergyKey id height).drop 36 = bigEndian 4 height.toNat := by
    unfold makeEnergyKey
    rw [List.drop_left' (bytes_length id)]
  have hindex : ((makeEnergyKey id height).drop 32).take 4 = bigEndian 4 id.index.toNat := by
    unfold makeEnergyKey InscriptionId.bytes
    rw [List.append_assoc, List.drop_left' (Vector.length_toList),
      List.take_left' (bigEndian_length 4 _)]
  have htxid : Vector.ofFn (fun i : Fin 32 => (makeEnergyKey id height).getD i 0) = id.txid := by
    refine Vector.ext (fun i hi => ?_)
    have hlen : i < id.txid.toList.length := by rw [Vector.length_toList]; exact hi
    rw [Vector.getElem_ofFn]
    unfold makeEnergyKey InscriptionId.bytes
    rw [List.append_assoc, List.getD_append _ _ _ _ hlen, List.getD_eq_getElem _ _ hlen,
      Vector.getElem_toList]
  unfold readKey
  rw [hheight, hindex, htxid, List.take_of_length_le (by rw [bigEndian_length]),
    ofBigEndian_uint32, ofBigEndian_uint32]

theorem parseEnergyKey_makeEnergyKey : parseEnergyKey (makeEnergyKey id height) = .ok ⟨id, height⟩ := by
  unfold parseEnergyKey
  rw [makeEnergyKey_length, if_neg (by decide), readKey_makeEnergyKey]

end Codec

section KeyOrder

variable {id id' : InscriptionId} {height height' low high : UInt32}

theorem compare_height : compare height height' = compare height.toNat height'.toNat := by
  show compareOfLessAndEq height height' = compareOfLessAndEq height.toNat height'.toNat
  unfold compareOfLessAndEq
  simp only [UInt32.lt_iff_toNat_lt, ← UInt32.toNat_inj]

/-- Keys are in the order of the ids' bytes, then of the heights. -/
theorem compare_makeEnergyKey :
    compare (makeEnergyKey id height) (makeEnergyKey id' height') =
      (compare id.bytes id'.bytes).then (compare height height') := by
  have hlt : ∀ n : UInt32, n.toNat < 256 ^ 4 := by
    intro n
    simpa using n.toNat_lt
  unfold makeEnergyKey
  rw [compare_append_of_length (by rw [bytes_length, bytes_length]),
    compare_bigEndian (hlt height) (hlt height'), compare_height]

theorem bytes_injective (h : id.bytes = id'.bytes) : id = id' := by
  have hkey : makeEnergyKey id 0 = makeEnergyKey id' 0 := by
    unfold makeEnergyKey
    rw [h]
  have hread := congrArg readKey hkey
  rw [readKey_makeEnergyKey, readKey_makeEnergyKey] at hread
  exact congrArg PassEnergyKey.inscriptionId hread

theorem makeEnergyKey_isLE :
    (compare (makeEnergyKey id height) (makeEnergyKey id height')).isLE ↔ height ≤ height' := by
  rw [compare_makeEnergyKey, Std.compare_self, Ordering.eq_then, compare_height,
    Nat.isLE_compare, UInt32.le_iff_toNat_le]

/-- Between two keys of one id there are only keys of this id. -/
theorem makeEnergyKey_between
    (hlow : (compare (makeEnergyKey id low) (makeEnergyKey id' height)).isLE)
    (hhigh : (compare (makeEnergyKey id' height) (makeEnergyKey id high)).isLE) : id' = id := by
  rw [compare_makeEnergyKey] at hlow hhigh
  apply bytes_injective
  cases hcmp : compare id.bytes id'.bytes with
  | eq => exact (Std.LawfulEqOrd.eq_of_compare hcmp).symm
  | lt =>
    rw [Std.OrientedOrd.eq_swap, hcmp] at hhigh
    cases hhigh
  | gt =>
    rw [hcmp] at hlow
    cases hlow

end KeyOrder

/-- The `pass_energy` column. Every key in it was made from a pass and a height. -/
structure PassEnergyColumn where
  rows : Table (List UInt8) PassEnergyValue
  keyed : ∀ row ∈ rows.toList, ∃ id height, row.1 = makeEnergyKey id height

/-- A row as the loops below push it. -/
def readRow (row : List UInt8 × PassEnergyValue) : PassEnergyRecord :=
  { readKey row.1 with toPassEnergyValue := row.2 }

def findLastLoop (id : InscriptionId) (fromBlockHeight : UInt32) :
    List (List UInt8 × PassEnergyValue) → Except EnergyDbError (Option PassEnergyRecord)
  | [] => .ok none
  | (keyBytes, value) :: rest => do
    let key ← parseEnergyKey keyBytes
    if key.inscriptionId = id ∧ key.blockHeight ≤ fromBlockHeight then
      return some { key with toPassEnergyValue := value }
    else findLastLoop id fromBlockHeight rest

/-- The loop of both page queries. They differ in where the iterator runs and in the
heights at which they stop. -/
def pageLoop (id : InscriptionId) (outside : UInt32 → Bool) (offset pageSize : Nat) :
    List (List UInt8 × PassEnergyValue) → Nat → List PassEnergyRecord →
      Except EnergyDbError (List PassEnergyRecord)
  | [], _, records => .ok records
  | (keyBytes, value) :: rest, skipped, records => do
    let key ← parseEnergyKey keyBytes
    if key.inscriptionId ≠ id then return records
    if outside key.blockHeight then return records
    if skipped < offset then pageLoop id outside offset pageSize rest (skipped + 1) records
    else
      let records := records ++ [{ key with toPassEnergyValue := value }]
      if pageSize ≤ records.length then return records
      pageLoop id outside offset pageSize rest skipped records

def countLoop (id : InscriptionId) (toBlockHeight : UInt32) :
    List (List UInt8 × PassEnergyValue) → Nat → Except EnergyDbError Nat
  | [], count => .ok count
  | (keyBytes, _) :: rest, count => do
    let key ← parseEnergyKey keyBytes
    if key.inscriptionId ≠ id then return count
    if toBlockHeight < key.blockHeight then return count
    if count + 1 < 2 ^ 64 then countLoop id toBlockHeight rest (count + 1)
    else .error .countOverflow

namespace PassEnergyColumn

def empty : PassEnergyColumn where
  rows := ∅
  keyed := by simp

/-- What `insert_pass_energy_record` writes to the column. -/
def insertPassEnergyRecord (c : PassEnergyColumn) (record : PassEnergyRecord) :
    PassEnergyColumn where
  rows := c.rows.insert (makeEnergyKey record.inscriptionId record.blockHeight)
    record.toPassEnergyValue
  keyed := by
    rintro ⟨key, value⟩ hmem
    rw [Table.mem_toList, Table.getElem?_put] at hmem
    split at hmem
    · next h => exact ⟨_, _, h.symm⟩
    · exact c.keyed (key, value) (Table.mem_toList.mpr hmem)

def getPassEnergyRecord (c : PassEnergyColumn) (id : InscriptionId) (blockHeight : UInt32) :
    Option PassEnergyValue :=
  c.rows[makeEnergyKey id blockHeight]?

def findLastPassEnergyRecord (c : PassEnergyColumn) (id : InscriptionId)
    (fromBlockHeight : UInt32) : Except EnergyDbError (Option PassEnergyRecord) :=
  findLastLoop id fromBlockHeight (c.rows.descend (makeEnergyKey id fromBlockHeight))

/-- The checks of both page queries, with `usize` of 64 bits. -/
def pageOffset (fromBlockHeight toBlockHeight : UInt32) (page pageSize : Nat) :
    Except EnergyDbError Nat :=
  if toBlockHeight < fromBlockHeight then .error (.invalidHeightRange fromBlockHeight toBlockHeight)
  else if page * pageSize < 2 ^ 64 then .ok (page * pageSize)
  else .error (.paginationOverflow page pageSize)

def getPassEnergyRecordsByPageInHeightRange (c : PassEnergyColumn) (id : InscriptionId)
    (fromBlockHeight toBlockHeight : UInt32) (page pageSize : Nat) :
    Except EnergyDbError (List PassEnergyRecord) := do
  let offset ← pageOffset fromBlockHeight toBlockHeight page pageSize
  pageLoop id (fun height => toBlockHeight < height) offset pageSize
    (c.rows.ascend (makeEnergyKey id fromBlockHeight)) 0 []

def getPassEnergyRecordsByPageInHeightRangeDesc (c : PassEnergyColumn) (id : InscriptionId)
    (fromBlockHeight toBlockHeight : UInt32) (page pageSize : Nat) :
    Except EnergyDbError (List PassEnergyRecord) := do
  let offset ← pageOffset fromBlockHeight toBlockHeight page pageSize
  pageLoop id (fun height => height < fromBlockHeight) offset pageSize
    (c.rows.descend (makeEnergyKey id toBlockHeight)) 0 []

def countPassEnergyRecordsInHeightRange (c : PassEnergyColumn) (id : InscriptionId)
    (fromBlockHeight toBlockHeight : UInt32) : Except EnergyDbError Nat :=
  if toBlockHeight < fromBlockHeight then .error (.invalidHeightRange fromBlockHeight toBlockHeight)
  else countLoop id toBlockHeight (c.rows.ascend (makeEnergyKey id fromBlockHeight)) 0

end PassEnergyColumn

section Loops

variable {id : InscriptionId} {rows : List (List UInt8 × PassEnergyValue)}

/-- Every key among the rows has the length of a key. -/
def AllKeys (rows : List (List UInt8 × PassEnergyValue)) : Prop :=
  ∀ row ∈ rows, parseEnergyKey row.1 = .ok (readKey row.1)

theorem AllKeys.tail {row : List UInt8 × PassEnergyValue} (h : AllKeys (row :: rows)) :
    AllKeys rows :=
  fun row' hrow' => h row' (List.mem_cons_of_mem _ hrow')

/-- The rows a loop does not stop at. -/
def inside (id : InscriptionId) (outside : UInt32 → Bool) (row : List UInt8 × PassEnergyValue) :
    Bool :=
  (readRow row).inscriptionId = id && !outside (readRow row).blockHeight

theorem inside_iff {outside : UInt32 → Bool} {row : List UInt8 × PassEnergyValue} :
    inside id outside row = true ↔
      (readKey row.1).inscriptionId = id ∧ outside (readKey row.1).blockHeight = false := by
  unfold inside
  rw [Bool.and_eq_true, decide_eq_true_iff, Bool.not_eq_true']
  rfl

theorem findLastLoop_ok {fromBlockHeight : UInt32} (h : AllKeys rows) :
    findLastLoop id fromBlockHeight rows =
      .ok ((rows.find? (inside id (fromBlockHeight < ·))).map readRow) := by
  induction rows with
  | nil => rfl
  | cons row rows ih =>
    have hif : inside id (fromBlockHeight < ·) row = true ↔
        (readKey row.1).inscriptionId = id ∧ (readKey row.1).blockHeight ≤ fromBlockHeight := by
      rw [inside_iff, decide_eq_false_iff_not, UInt32.not_lt]
    unfold findLastLoop
    rw [h row (by simp)]
    simp only [bind, Except.bind]
    by_cases hrow : inside id (fromBlockHeight < ·) row = true
    · rw [List.find?_cons_of_pos hrow, if_pos (hif.mp hrow)]
      rfl
    · rw [List.find?_cons_of_neg hrow, if_neg (fun hin => hrow (hif.mpr hin)), ih h.tail]

/-- A loop returns at the first row that is not inside. -/
theorem stop_of_outside {α : Type} {outside : UInt32 → Bool} {row : List UInt8 × PassEnergyValue}
    (h : ¬ inside id outside row = true) (stop next : α) :
    (if (readKey row.1).inscriptionId ≠ id then stop
      else if outside (readKey row.1).blockHeight = true then stop else next) = stop := by
  rw [inside_iff, not_and_or, Bool.not_eq_false] at h
  by_cases hid : (readKey row.1).inscriptionId = id
  · rw [if_neg (not_not_intro hid), if_pos (h.resolve_left (not_not_intro hid))]
  · rw [if_pos hid]

theorem next_of_inside {α : Type} {outside : UInt32 → Bool} {row : List UInt8 × PassEnergyValue}
    (h : inside id outside row = true) (stop next : α) :
    (if (readKey row.1).inscriptionId ≠ id then stop
      else if outside (readKey row.1).blockHeight = true then stop else next) = next := by
  rw [inside_iff] at h
  rw [if_neg (not_not_intro h.1), if_neg (by rw [h.2]; decide)]

/-- What is behind the skipped rows is pushed until the page is full. -/
theorem pageLoop_ok {outside : UInt32 → Bool} {offset pageSize skipped : Nat}
    {records : List PassEnergyRecord} (h : AllKeys rows) (hroom : records.length < pageSize) :
    pageLoop id outside offset pageSize rows skipped records =
      .ok (records ++ ((((rows.takeWhile (inside id outside)).map readRow).drop
        (offset - skipped)).take (pageSize - records.length))) := by
  induction rows generalizing skipped records with
  | nil => simp [pageLoop]
  | cons row rows ih =>
    unfold pageLoop
    rw [h row (by simp)]
    simp only [bind, Except.bind, pure, Except.pure]
    by_cases hrow : inside id outside row = true
    · rw [next_of_inside hrow, List.takeWhile_cons_of_pos hrow, List.map_cons]
      by_cases hskip : skipped < offset
      · rw [if_pos hskip, ih h.tail hroom,
          show offset - skipped = offset - (skipped + 1) + 1 by omega, List.drop_succ_cons]
      · rw [if_neg hskip, show offset - skipped = 0 by omega, List.drop_zero,
          show pageSize - records.length = pageSize - (records.length + 1) + 1 by omega,
          List.take_succ_cons, List.length_append, List.length_singleton]
        by_cases hfull : pageSize ≤ records.length + 1
        · rw [if_pos hfull, show pageSize - (records.length + 1) = 0 by omega, List.take_zero]
          rfl
        · rw [if_neg hfull, ih h.tail (by rw [List.length_append, List.length_singleton]; omega),
            show offset - skipped = 0 by omega, List.drop_zero, List.append_assoc,
            List.length_append, List.length_singleton]
          rfl
    · rw [stop_of_outside hrow, List.takeWhile_cons_of_neg hrow, List.map_nil, List.drop_nil,
        List.take_nil, List.append_nil]

theorem countLoop_ok {toBlockHeight : UInt32} {count : Nat} (h : AllKeys rows)
    (hcount : count + (rows.takeWhile (inside id (toBlockHeight < ·))).length < 2 ^ 64) :
    countLoop id toBlockHeight rows count =
      .ok (count + (rows.takeWhile (inside id (toBlockHeight < ·))).length) := by
  induction rows generalizing count with
  | nil => rfl
  | cons row rows ih =>
    have hif : ∀ stop next : Except EnergyDbError Nat,
        (if toBlockHeight < (readKey row.1).blockHeight then stop else next) =
          if decide (toBlockHeight < (readKey row.1).blockHeight) = true then stop else next := by
      intro stop next
      simp only [decide_eq_true_iff]
    unfold countLoop
    rw [h row (by simp)]
    simp only [bind, Except.bind, pure, Except.pure]
    rw [hif]
    by_cases hrow : inside id (toBlockHeight < ·) row = true
    · rw [List.takeWhile_cons_of_pos hrow, List.length_cons] at hcount ⊢
      rw [next_of_inside hrow, if_pos (by omega), ih h.tail (by omega), Nat.add_assoc,
        Nat.add_comm 1]
    · rw [stop_of_outside hrow, List.takeWhile_cons_of_neg hrow]
      rfl

end Loops

end Usdb.EnergyDb
