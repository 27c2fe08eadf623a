import Usdb.Balances.Writes

namespace Usdb.Balances

open Framework

structure RollbackMarkers where
  inProgress : Option Nat
  target : Option Nat
  next : Option Nat
deriving DecidableEq

def RollbackMarkers.none : RollbackMarkers := ⟨.none, .none, .none⟩

namespace BalanceHistoryDB

def withMarkers (db : BalanceHistoryDB) (m : RollbackMarkers) : BalanceHistoryDB :=
  { db with
    rollbackInProgress := m.inProgress
    rollbackTargetHeight := m.target
    rollbackNextHeight := m.next }

def markers (db : BalanceHistoryDB) : RollbackMarkers :=
  ⟨db.rollbackInProgress, db.rollbackTargetHeight, db.rollbackNextHeight⟩

/-- The store with the blocks above a target reverted, from the highest down. -/
def rolledBack (targetHeight : Nat) : Nat → BalanceHistoryDB → BalanceHistoryDB
  | 0, db => db
  | blocks + 1, db =>
    match db.getBlockUndoBundle (targetHeight + blocks + 1) with
    | none => db
    | some bundle => rolledBack targetHeight blocks (db.revertBlock (targetHeight + blocks + 1) bundle)

/-- The blocks above a target, up to the height of the store, have their undo bundles. -/
structure UndoCovers (db : BalanceHistoryDB) (targetHeight blocks : Nat) : Prop where
  height : db.getBtcBlockHeight = targetHeight + blocks
  bundles : ∀ height, targetHeight < height → height ≤ targetHeight + blocks →
    (db.getBlockUndoBundle height).isSome

/-- What `ensure_rollback_undo_available` checks. -/
structure UndoAvailable (db : BalanceHistoryDB) (targetHeight currentHeight : Nat) : Prop where
  supported : ∀ height, db.rollbackSupportedFromHeight = some height → height ≤ targetHeight + 1
  retained : ∃ height, db.undoRetainedFromHeight = some height ∧ height ≤ targetHeight + 1
  bundles : ∀ height, targetHeight < height → height ≤ currentHeight →
    (db.getBlockUndoBundle height).isSome

theorem firstMissingUndo_eq_none {db : BalanceHistoryDB} {first last : Nat} :
    db.firstMissingUndo first last = none ↔
      ∀ height, first ≤ height → height ≤ last → (db.getBlockUndoBundle height).isSome := by
  unfold firstMissingUndo
  rw [List.find?_eq_none]
  constructor
  · intro h height hfirst hlast
    have := h height (by rw [List.mem_range'_1]; omega)
    simpa [Option.isSome_iff_ne_none] using this
  · intro h height hmem
    rw [List.mem_range'_1] at hmem
    have := h height (by omega) (by omega)
    simpa [Option.isSome_iff_ne_none] using this

theorem seq_eq_ok {x y : Except BalanceHistoryError Unit} :
    (x >>= fun _ => y) = .ok () ↔ x = .ok () ∧ y = .ok () := by
  cases x with
  | ok u => simp [bind, Except.bind]
  | error e => simp [bind, Except.bind]

theorem ensureRollbackSupported_ok {db : BalanceHistoryDB} {targetHeight currentHeight : Nat} :
    db.ensureRollbackSupported targetHeight currentHeight = .ok () ↔
      ∀ height, db.rollbackSupportedFromHeight = some height → height ≤ targetHeight + 1 := by
  unfold ensureRollbackSupported
  cases db.rollbackSupportedFromHeight with
  | none => simp
  | some height => simp

theorem ensureUndoRetained_ok {db : BalanceHistoryDB} {targetHeight currentHeight : Nat} :
    db.ensureUndoRetained targetHeight currentHeight = .ok () ↔
      ∃ height, db.undoRetainedFromHeight = some height ∧ height ≤ targetHeight + 1 := by
  unfold ensureUndoRetained
  cases db.undoRetainedFromHeight with
  | none => simp
  | some height => simp

theorem ensureUndoBundles_ok {db : BalanceHistoryDB} {targetHeight currentHeight : Nat} :
    db.ensureUndoBundles targetHeight currentHeight = .ok () ↔
      ∀ height, targetHeight < height → height ≤ currentHeight →
        (db.getBlockUndoBundle height).isSome := by
  unfold ensureUndoBundles
  rw [show (∀ height, targetHeight < height → height ≤ currentHeight →
    (db.getBlockUndoBundle height).isSome) ↔ _ from firstMissingUndo_eq_none.symm]
  cases db.firstMissingUndo (targetHeight + 1) currentHeight with
  | none => simp
  | some height => simp

theorem ensureRollbackUndoAvailable_ok {db : BalanceHistoryDB} {targetHeight currentHeight : Nat}
    (hlt : targetHeight < currentHeight) :
    db.ensureRollbackUndoAvailable targetHeight currentHeight = .ok () ↔
      UndoAvailable db targetHeight currentHeight := by
  unfold ensureRollbackUndoAvailable
  rw [if_pos hlt, seq_eq_ok, seq_eq_ok, ensureRollbackSupported_ok, ensureUndoRetained_ok,
    ensureUndoBundles_ok]
  constructor
  · rintro ⟨hs, hr, hb⟩
    exact ⟨hs, hr, hb⟩
  · rintro ⟨hs, hr, hb⟩
    exact ⟨hs, hr, hb⟩

theorem ensureRollbackUndoAvailable_of_le {db : BalanceHistoryDB}
    {targetHeight currentHeight : Nat} (hle : currentHeight ≤ targetHeight) :
    db.ensureRollbackUndoAvailable targetHeight currentHeight = .ok () := by
  unfold ensureRollbackUndoAvailable
  rw [if_neg (by omega)]
  rfl

section Revert

variable {db : BalanceHistoryDB} {targetHeight blocks : Nat}

theorem getBlockUndoBundle_revertBlock (db : BalanceHistoryDB) (height k : Nat)
    (bundle : BlockUndoBundle) :
    (db.revertBlock height bundle).getBlockUndoBundle k =
      if height = k then none else db.getBlockUndoBundle k :=
  Table.getElem?_delete _ _ _

theorem getBlockCommit_revertBlock (db : BalanceHistoryDB) (height k : Nat)
    (bundle : BlockUndoBundle) (hne : height ≠ k) :
    (db.revertBlock height bundle).getBlockCommit k = db.getBlockCommit k := by
  unfold getBlockCommit
  have h : (db.revertBlock height bundle).blockCommits[k]? = db.blockCommits[k]? :=
    (Table.getElem?_delete _ _ _).trans (if_neg hne)
  rw [h]

theorem UndoCovers.bundle (h : UndoCovers db targetHeight (blocks + 1)) :
    ∃ bundle, db.getBlockUndoBundle (targetHeight + blocks + 1) = some bundle :=
  Option.isSome_iff_exists.mp (h.bundles _ (by omega) (by omega))

theorem UndoCovers.revertBlock (h : UndoCovers db targetHeight (blocks + 1))
    (bundle : BlockUndoBundle) :
    UndoCovers (db.revertBlock (targetHeight + blocks + 1) bundle) targetHeight blocks where
  height := by
    show targetHeight + blocks + 1 - 1 = _
    omega
  bundles := by
    intro height hlt hle
    rw [getBlockUndoBundle_revertBlock, if_neg (by omega)]
    exact h.bundles height hlt (by omega)

theorem rolledBack_succ {bundle : BlockUndoBundle}
    (hb : db.getBlockUndoBundle (targetHeight + blocks + 1) = some bundle) :
    rolledBack targetHeight (blocks + 1) db =
      rolledBack targetHeight blocks (db.revertBlock (targetHeight + blocks + 1) bundle) := by
  rw [rolledBack, hb]

theorem rolledBack_withMarkers (db : BalanceHistoryDB) (targetHeight blocks : Nat)
    (m : RollbackMarkers) :
    rolledBack targetHeight blocks (db.withMarkers m) =
      (rolledBack targetHeight blocks db).withMarkers m := by
  induction blocks generalizing db with
  | zero => rfl
  | succ blocks ih =>
    cases hb : db.getBlockUndoBundle (targetHeight + blocks + 1) with
    | none =>
      have hb' : (db.withMarkers m).getBlockUndoBundle (targetHeight + blocks + 1) = none := hb
      rw [rolledBack, rolledBack, hb, hb']
    | some bundle =>
      have hb' : (db.withMarkers m).getBlockUndoBundle (targetHeight + blocks + 1) = some bundle :=
        hb
      rw [rolledBack_succ hb, rolledBack_succ hb']
      exact ih (db.revertBlock (targetHeight + blocks + 1) bundle)

theorem rolledBack_markers (db : BalanceHistoryDB) (targetHeight blocks : Nat) :
    (rolledBack targetHeight blocks db).markers = db.markers := by
  have h := rolledBack_withMarkers db targetHeight blocks db.markers
  have he : db.withMarkers db.markers = db := rfl
  rw [he] at h
  rw [h]
  rfl

/-- Reverting some of the blocks and then the rest. -/
theorem UndoCovers.rolledBack_add {first rest : Nat}
    (h : UndoCovers db targetHeight (rest + first)) :
    rolledBack targetHeight rest (rolledBack (targetHeight + rest) first db) =
        rolledBack targetHeight (rest + first) db ∧
      UndoCovers (rolledBack (targetHeight + rest) first db) targetHeight rest := by
  induction first generalizing db with
  | zero => exact ⟨rfl, h⟩
  | succ first ih =>
    have h' : UndoCovers db targetHeight (rest + first + 1) := h
    obtain ⟨bundle, hb⟩ := h'.bundle
    have hb' : db.getBlockUndoBundle (targetHeight + rest + first + 1) = some bundle := by
      rw [← hb]
      congr 1
      omega
    have hsum : targetHeight + rest + first + 1 = targetHeight + (rest + first) + 1 := by omega
    rw [rolledBack_succ hb', ← Nat.add_assoc rest first 1, rolledBack_succ hb, hsum]
    exact ih (h'.revertBlock bundle)

theorem UndoCovers.rolledBack_height (h : UndoCovers db targetHeight blocks) :
    (rolledBack targetHeight blocks db).getBtcBlockHeight = targetHeight := by
  have h' : UndoCovers db targetHeight (0 + blocks) := by
    rw [Nat.zero_add]
    exact h
  exact h'.rolledBack_add.2.height

theorem rolledBack_getBlockCommit (db : BalanceHistoryDB) (targetHeight blocks k : Nat)
    (hk : k ≤ targetHeight) :
    (rolledBack targetHeight blocks db).getBlockCommit k = db.getBlockCommit k := by
  induction blocks generalizing db with
  | zero => rfl
  | succ blocks ih =>
    cases hb : db.getBlockUndoBundle (targetHeight + blocks + 1) with
    | none => rw [rolledBack, hb]
    | some bundle =>
      rw [rolledBack_succ hb, ih, getBlockCommit_revertBlock _ _ _ _ (by omega)]

/-- Reverting blocks leaves the two undo boundaries as they are. -/
theorem rolledBack_boundaries (db : BalanceHistoryDB) (targetHeight blocks : Nat) :
    (rolledBack targetHeight blocks db).rollbackSupportedFromHeight =
        db.rollbackSupportedFromHeight ∧
      (rolledBack targetHeight blocks db).undoRetainedFromHeight = db.undoRetainedFromHeight := by
  induction blocks generalizing db with
  | zero => exact ⟨rfl, rfl⟩
  | succ blocks ih =>
    cases hb : db.getBlockUndoBundle (targetHeight + blocks + 1) with
    | none =>
      rw [rolledBack, hb]
      exact ⟨rfl, rfl⟩
    | some bundle =>
      rw [rolledBack_succ hb]
      exact ih (db.revertBlock (targetHeight + blocks + 1) bundle)

end Revert

end BalanceHistoryDB

end Usdb.Balances
