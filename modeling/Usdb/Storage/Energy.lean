import Usdb.Storage.Types
import Usdb.Framework.Table
import Usdb.Framework.Timeline

namespace Usdb

open Framework

/-- The contents of the energy database: the records, keyed by pass and height, and
the three metadata markers. -/
structure PassEnergyStorage where
  records : List PassEnergyRecord
  syncedBlockHeight : Option Nat
  pendingBlockHeight : Option Nat
  maxRecordBlockHeight : Option Nat
deriving DecidableEq, Repr

namespace PassEnergyStorage

def empty : PassEnergyStorage where
  records := []
  syncedBlockHeight := none
  pendingBlockHeight := none
  maxRecordBlockHeight := none

def recordKey (record : PassEnergyRecord) : InscriptionId × Nat :=
  (record.inscriptionId, record.blockHeight)

def getPassEnergyRecord (e : PassEnergyStorage) (id : InscriptionId) (blockHeight : Nat) :
    Option PassEnergyRecord :=
  lookup recordKey (id, blockHeight) e.records

/-- The record of the pass with the greatest height at or below the given one. -/
def findLastPassEnergyRecord (e : PassEnergyStorage) (id : InscriptionId) (fromBlockHeight : Nat) :
    Option PassEnergyRecord :=
  (findLast (e.getPassEnergyRecord id) fromBlockHeight).map (·.2)

/-- Record and cached maximum are written in one batch. -/
def insertPassEnergyRecord (e : PassEnergyStorage) (record : PassEnergyRecord) :
    PassEnergyStorage :=
  { e with
    records := upsert recordKey record e.records
    maxRecordBlockHeight :=
      match e.maxRecordBlockHeight with
      | some h => if h < record.blockHeight then some record.blockHeight else some h
      | none => some record.blockHeight }

def scanMaxRecordBlockHeight (records : List PassEnergyRecord) : Option Nat :=
  (maxBy (·.blockHeight) records).map (·.blockHeight)

/-- First write of `clear_records_from_height`: the batch of deletions. -/
def deleteRecordsFrom (e : PassEnergyStorage) (fromBlockHeight : Nat) : PassEnergyStorage :=
  { e with records := e.records.filter (fun r => r.blockHeight < fromBlockHeight) }

/-- Second write of `clear_records_from_height`: the maximum over the kept records. -/
def resetMaxRecordBlockHeight (e : PassEnergyStorage) : PassEnergyStorage :=
  { e with maxRecordBlockHeight := scanMaxRecordBlockHeight e.records }

def finalizeBlockSync (e : PassEnergyStorage) (blockHeight : Nat) : PassEnergyStorage :=
  { e with syncedBlockHeight := some blockHeight, pendingBlockHeight := none }

@[simp] theorem getPassEnergyRecord_insert (e : PassEnergyStorage) (record : PassEnergyRecord)
    (id : InscriptionId) (k : Nat) :
    (e.insertPassEnergyRecord record).getPassEnergyRecord id k =
      if id = record.inscriptionId ∧ k = record.blockHeight then some record
      else e.getPassEnergyRecord id k := by
  simp only [getPassEnergyRecord, insertPassEnergyRecord, lookup_upsert, recordKey, Prod.mk.injEq]

theorem getPassEnergyRecord_key (e : PassEnergyStorage) (id : InscriptionId) (k : Nat)
    (r : PassEnergyRecord) (h : e.getPassEnergyRecord id k = some r) :
    r.inscriptionId = id ∧ r.blockHeight = k := by
  have hk := lookup_some_key _ _ _ _ h
  simp only [recordKey, Prod.mk.injEq] at hk
  exact hk

theorem getPassEnergyRecord_delete (e : PassEnergyStorage) (fromBlockHeight : Nat)
    (id : InscriptionId) (k : Nat) :
    (e.deleteRecordsFrom fromBlockHeight).getPassEnergyRecord id k =
      if k < fromBlockHeight then e.getPassEnergyRecord id k else none := by
  simp only [getPassEnergyRecord, deleteRecordsFrom]
  by_cases hk : k < fromBlockHeight
  · rw [if_pos hk]
    exact lookup_filter_of_key _ _ _ _ (fun r hr => by
      simp only [recordKey, Prod.mk.injEq] at hr
      simp [hr.2, hk])
  · rw [if_neg hk, lookup_eq_none]
    intro r hr he
    simp only [recordKey, Prod.mk.injEq] at he
    have := (List.mem_filter.mp hr).2
    simp only [decide_eq_true_eq, he.2] at this
    exact hk this

theorem findLastPassEnergyRecord_eq_some (e : PassEnergyStorage) (id : InscriptionId) (h : Nat)
    (r : PassEnergyRecord) :
    e.findLastPassEnergyRecord id h = some r ↔
      r.blockHeight ≤ h ∧ e.getPassEnergyRecord id r.blockHeight = some r ∧
        ∀ j, r.blockHeight < j → j ≤ h → e.getPassEnergyRecord id j = none := by
  simp only [findLastPassEnergyRecord, Option.map_eq_some_iff]
  constructor
  · rintro ⟨⟨k, r'⟩, hl, rfl⟩
    obtain ⟨hk, hr, hnone⟩ := (findLast_eq_some _ _ _ _).mp hl
    have hkey := (getPassEnergyRecord_key e id k r' hr).2
    subst hkey
    exact ⟨hk, hr, hnone⟩
  · rintro ⟨hk, hr, hnone⟩
    exact ⟨(r.blockHeight, r), (findLast_eq_some _ _ _ _).mpr ⟨hk, hr, hnone⟩, rfl⟩

theorem findLastPassEnergyRecord_eq_none (e : PassEnergyStorage) (id : InscriptionId) (h : Nat) :
    e.findLastPassEnergyRecord id h = none ↔ ∀ j ≤ h, e.getPassEnergyRecord id j = none := by
  simp only [findLastPassEnergyRecord, Option.map_eq_none_iff, findLast_eq_none]

/-- A lookup at a height depends only on the records up to it. -/
theorem findLastPassEnergyRecord_congr (e e' : PassEnergyStorage) (id : InscriptionId) (h : Nat)
    (he : ∀ j ≤ h, e.getPassEnergyRecord id j = e'.getPassEnergyRecord id j) :
    e.findLastPassEnergyRecord id h = e'.findLastPassEnergyRecord id h := by
  simp only [findLastPassEnergyRecord, findLast_congr _ _ h he]

end PassEnergyStorage

end Usdb
