import Usdb.Balances.Rollback

namespace Usdb.Balances

open Framework BalanceHistoryDB

section RollbackWrites

variable {db : BalanceHistoryDB} {targetHeight blocks : Nat}

/-- The stores after each write of the rollback loop. -/
def rollbackStores (targetHeight : Nat) : Nat → BalanceHistoryDB → List BalanceHistoryDB
  | 0, _ => []
  | blocks + 1, db =>
    match db.getBlockUndoBundle (targetHeight + blocks + 1) with
    | none => []
    | some bundle =>
      let reverted := db.revertBlock (targetHeight + blocks + 1) bundle
      let noted := { reverted with rollbackNextHeight := some (targetHeight + blocks) }
      reverted :: noted :: rollbackStores targetHeight blocks noted

theorem rollbackOneBlock_writes {height : Nat} {bundle : BlockUndoBundle}
    (hh : db.getBtcBlockHeight = height) (hb : db.getBlockUndoBundle height = some bundle) :
    Writes (rollbackOneBlock height) db [db.revertBlock height bundle] := by
  unfold rollbackOneBlock
  refine .read ?_
  rw [if_neg (not_not.mpr hh)]
  refine .read ?_
  rw [hb]
  exact .write _

theorem BalanceHistoryDB.UndoCovers.withNext (h : UndoCovers db targetHeight blocks) (next : Option Nat) :
    UndoCovers { db with rollbackNextHeight := next } targetHeight blocks :=
  ⟨h.height, h.bundles⟩

theorem rollbackBlocks_writes (h : UndoCovers db targetHeight blocks) :
    Writes (rollbackBlocks targetHeight blocks) db (rollbackStores targetHeight blocks db) := by
  induction blocks generalizing db with
  | zero => exact .pure
  | succ blocks ih =>
    obtain ⟨bundle, hb⟩ := h.bundle
    unfold rollbackBlocks rollbackStores
    rw [hb]
    have hone := rollbackOneBlock_writes h.height hb
    have hrest := ih ((h.revertBlock bundle).withNext (some (targetHeight + blocks)))
    exact hone.bind (.bind (.write _) hrest)

theorem rolledBack_withNext (db : BalanceHistoryDB) (targetHeight blocks : Nat)
    (next : Option Nat) :
    rolledBack targetHeight blocks { db with rollbackNextHeight := next } =
      { rolledBack targetHeight blocks db with rollbackNextHeight := next } := by
  have hm := rolledBack_markers db targetHeight blocks
  have hp : (rolledBack targetHeight blocks db).rollbackInProgress = db.rollbackInProgress :=
    congrArg RollbackMarkers.inProgress hm
  have ht : (rolledBack targetHeight blocks db).rollbackTargetHeight = db.rollbackTargetHeight :=
    congrArg RollbackMarkers.target hm
  refine (rolledBack_withMarkers db targetHeight blocks
    ⟨db.rollbackInProgress, db.rollbackTargetHeight, next⟩).trans ?_
  rw [← hp, ← ht]
  rfl

/-- The loop makes two writes for each block: after an even number of them, the next
height is the height of the store. -/
theorem rollbackStores_even (h : UndoCovers db targetHeight blocks)
    (hnext : db.rollbackNextHeight = some (targetHeight + blocks)) {done left : Nat}
    (hsum : blocks = left + done) :
    (db :: rollbackStores targetHeight blocks db)[2 * done]? =
      some { rolledBack (targetHeight + left) done db with
        rollbackNextHeight := some (targetHeight + left) } := by
  induction done generalizing db blocks with
  | zero =>
    obtain rfl : blocks = left := hsum
    rw [← hnext]
    rfl
  | succ done ih =>
    obtain rfl : blocks = left + done + 1 := hsum
    obtain ⟨bundle, hb⟩ := h.bundle
    have hb' : db.getBlockUndoBundle (targetHeight + left + done + 1) = some bundle := by
      rw [Nat.add_assoc targetHeight left done]
      exact hb
    have hstep := ih ((h.revertBlock bundle).withNext (some (targetHeight + (left + done)))) rfl rfl
    rw [rollbackStores, hb]
    refine hstep.trans ?_
    rw [rolledBack_withNext, rolledBack_succ hb', Nat.add_assoc targetHeight left done]

/-- After an odd number of writes a block is reverted that the markers still name. -/
theorem rollbackStores_odd (h : UndoCovers db targetHeight blocks)
    (hnext : db.rollbackNextHeight = some (targetHeight + blocks)) {done left : Nat}
    (hsum : blocks = left + 1 + done) :
    (db :: rollbackStores targetHeight blocks db)[2 * done + 1]? =
      some { rolledBack (targetHeight + left) (done + 1) db with
        rollbackNextHeight := some (targetHeight + left + 1) } := by
  induction done generalizing db blocks with
  | zero =>
    obtain rfl : blocks = left + 1 := hsum
    obtain ⟨bundle, hb⟩ := h.bundle
    have hone : rolledBack (targetHeight + left) (0 + 1) db =
        db.revertBlock (targetHeight + left + 1) bundle :=
      @rolledBack_succ db (targetHeight + left) 0 bundle hb
    have hnext' : db.rollbackNextHeight = some (targetHeight + left + 1) := hnext
    rw [rollbackStores, hb, hone, ← hnext']
    rfl
  | succ done ih =>
    obtain rfl : blocks = left + 1 + done + 1 := hsum
    obtain ⟨bundle, hb⟩ := h.bundle
    have hb' : db.getBlockUndoBundle (targetHeight + left + (done + 1) + 1) = some bundle := by
      rw [← hb]
      congr 1
      omega
    have hstep :=
      ih ((h.revertBlock bundle).withNext (some (targetHeight + (left + 1 + done)))) rfl rfl
    rw [rollbackStores, hb]
    refine hstep.trans ?_
    rw [rolledBack_withNext, rolledBack_succ hb',
      show targetHeight + left + (done + 1) + 1 = targetHeight + (left + 1 + done) + 1 by omega]

theorem rollbackStores_length (h : UndoCovers db targetHeight blocks) :
    (rollbackStores targetHeight blocks db).length = 2 * blocks := by
  induction blocks generalizing db with
  | zero => rfl
  | succ blocks ih =>
    obtain ⟨bundle, hb⟩ := h.bundle
    have hrest := ih ((h.revertBlock bundle).withNext (some (targetHeight + blocks)))
    rw [rollbackStores, hb, List.length_cons, List.length_cons, hrest]
    omega

end RollbackWrites

section Interrupted

variable {db : BalanceHistoryDB} {targetHeight blocks : Nat}

theorem clearRollbackState_writes {db' : BalanceHistoryDB} {m : RollbackMarkers}
    (h : db' = db.withMarkers m) :
    Writes clearRollbackState db'
      [db.withMarkers ⟨none, m.target, m.next⟩, db.withMarkers ⟨none, none, m.next⟩,
        db.withMarkers .none] := by
  subst h
  exact (Writes.write _).bind ((Writes.write _).bind (.write _))

theorem Writes.check {x : Except BalanceHistoryError Unit} {y : HistoryM Unit}
    {dbs : List BalanceHistoryDB} (hx : x = .ok ()) (h : Writes y db dbs) :
    Writes (liftExcept x >>= fun _ => y) db dbs := by
  subst hx
  exact h

/-- The store when the loop of a rollback starts. -/
def begun (db : BalanceHistoryDB) (targetHeight currentHeight : Nat) : BalanceHistoryDB :=
  db.withMarkers ⟨some 1, some targetHeight, some currentHeight⟩

theorem BalanceHistoryDB.UndoCovers.withMarkers (h : UndoCovers db targetHeight blocks)
    (m : RollbackMarkers) : UndoCovers (db.withMarkers m) targetHeight blocks :=
  ⟨h.height, h.bundles⟩

theorem BalanceHistoryDB.UndoAvailable.covers (h : UndoAvailable db targetHeight (targetHeight + blocks))
    (hh : db.getBtcBlockHeight = targetHeight + blocks) : UndoCovers db targetHeight blocks :=
  ⟨hh, h.bundles⟩

/-- The store when the loop of a rollback is over. -/
theorem rollbackStores_last (h : UndoCovers db targetHeight blocks)
    (hnext : db.rollbackNextHeight = some (targetHeight + blocks)) :
    (rollbackStores targetHeight blocks db).getLastD db =
      { rolledBack targetHeight blocks db with rollbackNextHeight := some targetHeight } := by
  have hlast := rollbackStores_even h hnext (Nat.zero_add blocks).symm
  rw [← rollbackStores_length h, getElem?_length_cons] at hlast
  exact Option.some.inj hlast

theorem rollbackToBlockHeight_writes (hpos : 0 < blocks)
    (hh : db.getBtcBlockHeight = targetHeight + blocks)
    (ha : UndoAvailable db targetHeight (targetHeight + blocks)) :
    Writes (rollbackToBlockHeight targetHeight) db
      ([db.withMarkers ⟨some 1, db.rollbackTargetHeight, db.rollbackNextHeight⟩,
          db.withMarkers ⟨some 1, some targetHeight, db.rollbackNextHeight⟩] ++
        ((begun db targetHeight (targetHeight + blocks) ::
            rollbackStores targetHeight blocks (begun db targetHeight (targetHeight + blocks))) ++
          [(rolledBack targetHeight blocks db).withMarkers
              ⟨none, some targetHeight, some targetHeight⟩,
            (rolledBack targetHeight blocks db).withMarkers ⟨none, none, some targetHeight⟩,
            (rolledBack targetHeight blocks db).withMarkers .none])) := by
  have hc := (ha.covers hh).withMarkers ⟨some 1, some targetHeight, some (targetHeight + blocks)⟩
  have hens := (ensureRollbackUndoAvailable_ok (by omega)).mpr ha
  unfold rollbackToBlockHeight
  refine .read ?_
  rw [hh, if_neg (by omega), if_neg (by omega)]
  refine .read (.check hens ?_)
  rw [Nat.add_sub_cancel_left]
  have hlast : (rollbackStores targetHeight blocks (begun db targetHeight
      (targetHeight + blocks))).getLastD (begun db targetHeight (targetHeight + blocks)) =
      (rolledBack targetHeight blocks db).withMarkers
        ⟨some 1, some targetHeight, some targetHeight⟩ := by
    refine (rollbackStores_last hc rfl).trans ?_
    rw [rolledBack_withMarkers]
    rfl
  have hloop := (rollbackBlocks_writes hc).bind (clearRollbackState_writes hlast)
  exact (Writes.write _).bind ((Writes.write _).bind ((Writes.write _).bind hloop))

/-- With its undo bundles there, a rollback reverts the blocks above its target. -/
theorem rollback_of_undoAvailable {s : HistoryState} (hf : s.faults = []) (hpos : 0 < blocks)
    (hh : s.db.getBtcBlockHeight = targetHeight + blocks)
    (ha : UndoAvailable s.db targetHeight (targetHeight + blocks)) :
    rollbackToBlockHeight targetHeight s =
      .ok () { s with db := (rolledBack targetHeight blocks s.db).withMarkers .none } := by
  refine ((rollbackToBlockHeight_writes hpos hh ha).completes s rfl hf).trans ?_
  rw [getLastD_append, getLastD_append]
  rfl

/-- The store a rollback leaves when the process is killed after some of its writes. -/
def crashedRollback (db : BalanceHistoryDB) (targetHeight k : Nat) : BalanceHistoryDB :=
  (finalState (rollbackToBlockHeight targetHeight
    { HistoryState.opened db with faults := crashAfter k })).db

theorem getElem?_after_begin {α : Type} (d a b : α) (rest : List α) (i : Nat) :
    (d :: ([a, b] ++ rest))[i + 3]? = rest[i]? := rfl

section CrashPoints

variable (hpos : 0 < blocks) (hh : db.getBtcBlockHeight = targetHeight + blocks)
  (ha : UndoAvailable db targetHeight (targetHeight + blocks))
include hpos hh ha

theorem crashedRollback_one : crashedRollback db targetHeight 1 =
    db.withMarkers ⟨some 1, db.rollbackTargetHeight, db.rollbackNextHeight⟩ :=
  (rollbackToBlockHeight_writes hpos hh ha).finalState rfl rfl rfl

theorem crashedRollback_two : crashedRollback db targetHeight 2 =
    db.withMarkers ⟨some 1, some targetHeight, db.rollbackNextHeight⟩ :=
  (rollbackToBlockHeight_writes hpos hh ha).finalState rfl rfl rfl

theorem crashedRollback_even {done left : Nat} (hsum : blocks = left + done) :
    crashedRollback db targetHeight (2 * done + 3) =
      (rolledBack (targetHeight + left) done db).withMarkers
        ⟨some 1, some targetHeight, some (targetHeight + left)⟩ := by
  have hc := (ha.covers hh).withMarkers ⟨some 1, some targetHeight, some (targetHeight + blocks)⟩
  refine (rollbackToBlockHeight_writes hpos hh ha).finalState rfl rfl ?_
  rw [getElem?_after_begin]
  rw [List.getElem?_append_left
    (by rw [List.length_cons, begun, rollbackStores_length hc]; omega)]
  refine (rollbackStores_even hc rfl hsum).trans ?_
  rw [rolledBack_withMarkers]
  rfl

theorem crashedRollback_odd {done left : Nat} (hsum : blocks = left + 1 + done) :
    crashedRollback db targetHeight (2 * done + 1 + 3) =
      (rolledBack (targetHeight + left) (done + 1) db).withMarkers
        ⟨some 1, some targetHeight, some (targetHeight + left + 1)⟩ := by
  have hc := (ha.covers hh).withMarkers ⟨some 1, some targetHeight, some (targetHeight + blocks)⟩
  refine (rollbackToBlockHeight_writes hpos hh ha).finalState rfl rfl ?_
  rw [getElem?_after_begin]
  rw [List.getElem?_append_left
    (by rw [List.length_cons, begun, rollbackStores_length hc]; omega)]
  refine (rollbackStores_odd hc rfl hsum).trans ?_
  rw [rolledBack_withMarkers]
  rfl

/-- Once the loop is over only markers are left to delete. -/
theorem crashedRollback_clearing {m : RollbackMarkers} {j : Nat}
    (hj : [RollbackMarkers.mk none (some targetHeight) (some targetHeight),
      ⟨none, none, some targetHeight⟩, .none][j]? = some m) :
    crashedRollback db targetHeight (2 * blocks + 1 + j + 3) =
      (rolledBack targetHeight blocks db).withMarkers m := by
  have hc := (ha.covers hh).withMarkers ⟨some 1, some targetHeight, some (targetHeight + blocks)⟩
  refine (rollbackToBlockHeight_writes hpos hh ha).finalState rfl rfl ?_
  rw [getElem?_after_begin]
  have hlen : (begun db targetHeight (targetHeight + blocks) :: rollbackStores targetHeight blocks
      (begun db targetHeight (targetHeight + blocks))).length = 2 * blocks + 1 := by
    rw [List.length_cons, begun, rollbackStores_length hc]
  rw [List.getElem?_append_right (by omega), hlen, Nat.add_sub_cancel_left]
  match j, hj with
  | 0, hj => rw [← Option.some.inj hj]; rfl
  | 1, hj => rw [← Option.some.inj hj]; rfl
  | 2, hj => rw [← Option.some.inj hj]; rfl

end CrashPoints

end Interrupted

section Recovery

variable {db : BalanceHistoryDB} {targetHeight blocks : Nat} {s t : HistoryState}

/-- What a restarted process does first: it resumes a pending rollback and, when none is
pending, compares its tip with the node. -/
def recoverOnRestart (answers : ReorgAnswers) (latestBtcHeight : Nat) : HistoryM Unit := do
  let resumed ← resumePendingRollbackIfNeeded
  if resumed then
    return ()
  else
    let currentHeight ← readDb getBtcBlockHeight
    let _ ← reconcileReorgIfNeeded answers currentHeight latestBtcHeight

theorem resumeRollbackIfNeeded_idle (h : s.db.rollbackInProgress ≠ some 1) :
    resumeRollbackIfNeeded s = .ok false s := by
  unfold resumeRollbackIfNeeded
  rw [readDb_bind]
  show (if s.db.rollbackInProgress ≠ some 1 then _ else _ : HistoryM Bool) s = _
  rw [if_pos h]
  rfl

/-- The writes of a resumed rollback. -/
theorem resumed_writes (h : UndoCovers db targetHeight blocks)
    (hnext : db.rollbackNextHeight = some (targetHeight + blocks)) :
    Writes (rollbackBlocks targetHeight blocks >>= fun _ => clearRollbackState) db
      (rollbackStores targetHeight blocks db ++
        [(rolledBack targetHeight blocks db).withMarkers
            ⟨none, db.rollbackTargetHeight, some targetHeight⟩,
          (rolledBack targetHeight blocks db).withMarkers ⟨none, none, some targetHeight⟩,
          (rolledBack targetHeight blocks db).withMarkers .none]) := by
  have hm := congrArg RollbackMarkers.target (rolledBack_markers db targetHeight blocks)
  have hlast : (rollbackStores targetHeight blocks db).getLastD db =
      (rolledBack targetHeight blocks db).withMarkers
        ⟨(rolledBack targetHeight blocks db).rollbackInProgress, db.rollbackTargetHeight,
          some targetHeight⟩ := by
    refine (rollbackStores_last h hnext).trans ?_
    rw [← show (rolledBack targetHeight blocks db).rollbackTargetHeight =
      db.rollbackTargetHeight from hm]
    rfl
  exact (rollbackBlocks_writes h).bind (clearRollbackState_writes hlast)

/-- What the checks of a resume let through. -/
structure Resumable (db : BalanceHistoryDB) (targetHeight blocks : Nat) : Prop where
  pending : db.markers = ⟨some 1, some targetHeight, some (targetHeight + blocks)⟩
  covers : UndoCovers db targetHeight blocks
  available : db.ensureRollbackUndoAvailable targetHeight (targetHeight + blocks) = .ok ()

theorem Resumable.resume_eq (h : Resumable s.db targetHeight blocks) :
    resumeRollbackIfNeeded s = (do
      rollbackBlocks targetHeight blocks
      clearRollbackState
      return true : HistoryM Bool) s := by
  have hp : s.db.rollbackInProgress = some 1 := congrArg RollbackMarkers.inProgress h.pending
  have ht : s.db.rollbackTargetHeight = some targetHeight :=
    congrArg RollbackMarkers.target h.pending
  have hn : s.db.rollbackNextHeight = some (targetHeight + blocks) :=
    congrArg RollbackMarkers.next h.pending
  unfold resumeRollbackIfNeeded
  rw [readDb_bind]
  dsimp only [id]
  rw [if_neg (not_not.mpr hp), ht, hn]
  dsimp only
  rw [if_neg (not_not.mpr h.covers.height.symm), if_neg (by omega),
    liftExcept_ok_bind h.available, Nat.add_sub_cancel_left]

theorem Resumable.resume (h : Resumable s.db targetHeight blocks) (hf : s.faults = []) :
    resumeRollbackIfNeeded s =
      .ok true { s with db := (rolledBack targetHeight blocks s.db).withMarkers .none } := by
  have hn : s.db.rollbackNextHeight = some (targetHeight + blocks) :=
    congrArg RollbackMarkers.next h.pending
  have hw := (resumed_writes h.covers hn).completes s rfl hf
  rw [getLastD_append] at hw
  rw [h.resume_eq, ← bind_assoc]
  exact bind_ok hw

/-- A pending rollback fails a check of the resume, or goes on from where it stands. -/
theorem resumeRollbackIfNeeded_pending (hp : s.db.rollbackInProgress = some 1) :
    (∃ e, resumeRollbackIfNeeded s = .error e s) ∨
      ∃ targetHeight blocks, Resumable s.db targetHeight blocks := by
  unfold resumeRollbackIfNeeded
  rw [readDb_bind]
  dsimp only [id]
  rw [if_neg (not_not.mpr hp)]
  cases ht : s.db.rollbackTargetHeight with
  | none => exact .inl ⟨_, rfl⟩
  | some targetHeight =>
    cases hn : s.db.rollbackNextHeight with
    | none => exact .inl ⟨_, rfl⟩
    | some nextHeight =>
      dsimp only
      split
      · exact .inl ⟨_, rfl⟩
      rename_i hsame
      obtain rfl : nextHeight = s.db.getBtcBlockHeight := not_not.mp hsame
      split
      · exact .inl ⟨_, rfl⟩
      rename_i hle
      cases ha : s.db.ensureRollbackUndoAvailable targetHeight s.db.getBtcBlockHeight with
      | error e => exact .inl ⟨e, rfl⟩
      | ok u =>
        obtain ⟨blocks, hblocks⟩ := Nat.exists_eq_add_of_le (Nat.le_of_not_gt hle)
        rw [hblocks] at hn ha
        refine .inr ⟨targetHeight, blocks, ?_, ⟨hblocks, ?_⟩, ha⟩
        · show RollbackMarkers.mk _ _ _ = _
          rw [hp, ht, hn]
        · intro height hlt hle
          exact ((ensureRollbackUndoAvailable_ok (by omega)).mp ha).bundles height hlt hle

/-- A resume of a pending rollback that succeeds passed the checks. -/
theorem resumable_of_resume {resumed : Bool} (hp : s.db.rollbackInProgress = some 1)
    (h : resumeRollbackIfNeeded s = .ok resumed t) :
    ∃ targetHeight blocks, Resumable s.db targetHeight blocks := by
  rcases resumeRollbackIfNeeded_pending hp with ⟨e, he⟩ | hr
  · rw [he] at h
    cases h
  · exact hr

/-- The restarted process ends with a store. -/
def Recovers (answers : ReorgAnswers) (latestBtcHeight : Nat) (db goal : BalanceHistoryDB) : Prop :=
  ∃ t, recoverOnRestart answers latestBtcHeight (.opened db) = .ok () t ∧ t.db = goal

/-- The node still has the block that the store has at a height. -/
def NodeAgreesAt (answers : ReorgAnswers) (latestBtcHeight : Nat) (db : BalanceHistoryDB)
    (height : Nat) : Prop :=
  height ≤ latestBtcHeight ∧ (height = 0 ∨
    ∃ commit, db.getBlockCommit height = some commit ∧ answers.tipHash = some commit.btcBlockHash)

variable {answers : ReorgAnswers} {latestBtcHeight : Nat} {goal : BalanceHistoryDB}

theorem findReorgCommonAncestorHeight_none
    (hn : NodeAgreesAt answers latestBtcHeight db db.getBtcBlockHeight) :
    findReorgCommonAncestorHeight db answers db.getBtcBlockHeight latestBtcHeight = .ok none := by
  unfold findReorgCommonAncestorHeight
  by_cases hz : db.getBtcBlockHeight = 0
  · rw [if_pos hz]
    rfl
  · obtain ⟨commit, hc, ht⟩ := hn.2.resolve_left hz
    rw [if_neg hz, if_pos hn.1, requireCommit, hc, ht]
    show (if commit.btcBlockHash = commit.btcBlockHash then _ else _) = _
    rw [if_pos rfl]
    rfl

/-- A resumed rollback ends where the markers say. -/
theorem Resumable.recovers (h : Resumable db targetHeight blocks) :
    Recovers answers latestBtcHeight db
      ((rolledBack targetHeight blocks db).withMarkers .none) := by
  have hr := Resumable.resume (s := .opened db) h rfl
  unfold Recovers recoverOnRestart resumePendingRollbackIfNeeded
  rw [bind_assoc, bind_ok hr]
  exact ⟨_, rfl, rfl⟩

/-- A pending rollback recovers only through the checks of the resume. -/
theorem Recovers.resumable (h : Recovers answers latestBtcHeight db goal)
    (hp : db.rollbackInProgress = some 1) :
    ∃ targetHeight blocks, Resumable db targetHeight blocks ∧
      goal = (rolledBack targetHeight blocks db).withMarkers .none := by
  obtain ⟨t, ht, rfl⟩ := h
  have ht' := ht
  unfold recoverOnRestart resumePendingRollbackIfNeeded at ht'
  rw [bind_assoc] at ht'
  obtain ⟨resumed, u, hr, -⟩ := bind_eq_ok ht'
  obtain ⟨targetHeight, blocks, hres⟩ := resumable_of_resume hp hr
  have hrec : Recovers answers latestBtcHeight db _ :=
    Resumable.recovers (show Resumable db targetHeight blocks from hres)
  obtain ⟨t', ht'', hdb⟩ := hrec
  rw [ht''] at ht
  cases ht
  exact ⟨targetHeight, blocks, hres, hdb⟩

/-- With nothing pending and the node agreeing at the tip, the store stays as it is. -/
theorem recovers_idle_iff (hp : db.rollbackInProgress ≠ some 1)
    (hn : NodeAgreesAt answers latestBtcHeight db db.getBtcBlockHeight) :
    Recovers answers latestBtcHeight db goal ↔ db = goal := by
  have hr : resumeRollbackIfNeeded (.opened db) = .ok false (.opened db) :=
    resumeRollbackIfNeeded_idle hp
  have hfind := findReorgCommonAncestorHeight_none hn
  have hrun : recoverOnRestart answers latestBtcHeight (.opened db) = .ok () (.opened db) := by
    unfold recoverOnRestart resumePendingRollbackIfNeeded
    rw [bind_assoc, bind_ok hr]
    show (reconcileReorgIfNeeded answers db.getBtcBlockHeight latestBtcHeight >>=
      fun _ => (pure () : HistoryM Unit)) (.opened db) = _
    unfold reconcileReorgIfNeeded
    rw [bind_assoc, readDb_bind, bind_assoc]
    exact liftExcept_ok_bind hfind _ _
  unfold Recovers
  rw [hrun]
  constructor
  · rintro ⟨t, ht, rfl⟩
    cases ht
    rfl
  · rintro rfl
    exact ⟨_, rfl, rfl⟩

end Recovery

section CrashPointsOfRollback

variable {db goal : BalanceHistoryDB} {targetHeight blocks : Nat} {s t : HistoryState}
  {answers : ReorgAnswers} {latestBtcHeight : Nat}

/-- A rollback that succeeds had its undo bundles, and reverts the blocks above its
target. -/
theorem rollbackToBlockHeight_ok (hf : s.faults = []) (hpos : 0 < blocks)
    (hh : s.db.getBtcBlockHeight = targetHeight + blocks)
    (h : rollbackToBlockHeight targetHeight s = .ok () t) :
    UndoAvailable s.db targetHeight (targetHeight + blocks) ∧
      t.db = (rolledBack targetHeight blocks s.db).withMarkers .none := by
  have ha : s.db.ensureRollbackUndoAvailable targetHeight (targetHeight + blocks) = .ok () := by
    have h' := h
    unfold rollbackToBlockHeight at h'
    rw [readDb_bind, hh, if_neg (by omega), if_neg (by omega), readDb_bind] at h'
    cases hens : s.db.ensureRollbackUndoAvailable targetHeight (targetHeight + blocks) with
    | ok u => rfl
    | error e =>
      rw [id_eq, liftExcept_error_bind hens] at h'
      cases h'
  have hav := (ensureRollbackUndoAvailable_ok (by omega)).mp ha
  refine ⟨hav, ?_⟩
  have hrun := rollback_of_undoAvailable hf hpos hh hav
  rw [h] at hrun
  cases hrun
  rfl

/-- After this many writes of a rollback to a target, a crash can be recovered from: the
markers on disk name the target and the height of the store, or are all gone. The first
two writes complete markers an earlier rollback may have left. -/
inductive RecoverablePoint (m : RollbackMarkers) (targetHeight blocks : Nat) : Nat → Prop
  | inProgressOnly (target : m.target = some targetHeight)
      (next : m.next = some (targetHeight + blocks)) : RecoverablePoint m targetHeight blocks 1
  | targetWritten (next : m.next = some (targetHeight + blocks)) :
      RecoverablePoint m targetHeight blocks 2
  | nextWritten (done : Nat) (le : done ≤ blocks) :
      RecoverablePoint m targetHeight blocks (2 * done + 3)
  | cleared : RecoverablePoint m targetHeight blocks (2 * blocks + 6)

/-- A store from which a restarted process reaches the goal: the markers name a target
and the height of the store, or the rollback is over. -/
inductive Consistent (targetHeight : Nat) (goal db : BalanceHistoryDB) : Prop
  | pending (left : Nat) (resumable : Resumable db targetHeight left)
      (goal : (rolledBack targetHeight left db).withMarkers .none = goal)
  | finished (eq : db = goal)

/-- The store with some of the blocks reverted and markers that say so. -/
theorem resumable_rolledBack {done left : Nat} (hsum : blocks = left + done)
    (hc : UndoCovers db targetHeight blocks)
    (ha : db.ensureRollbackUndoAvailable targetHeight (targetHeight + blocks) = .ok ()) :
    Resumable ((rolledBack (targetHeight + left) done db).withMarkers
      ⟨some 1, some targetHeight, some (targetHeight + left)⟩) targetHeight left := by
  subst hsum
  have hc' := hc.rolledBack_add.2
  refine ⟨rfl, hc'.withMarkers _, ?_⟩
  obtain rfl | hpos := Nat.eq_zero_or_pos left
  · exact ensureRollbackUndoAvailable_of_le (Nat.le_refl _)
  · have hav := (ensureRollbackUndoAvailable_ok (by omega)).mp ha
    obtain ⟨hsup, hret⟩ := rolledBack_boundaries db (targetHeight + left) done
    refine (ensureRollbackUndoAvailable_ok (by omega)).mpr ⟨?_, ?_, hc'.bundles⟩
    · intro height hs
      exact hav.supported height (hsup ▸ hs)
    · obtain ⟨height, hr, hle⟩ := hav.retained
      exact ⟨height, hret.trans hr, hle⟩

theorem rolledBack_goal {done left : Nat} (hsum : blocks = left + done)
    (hc : UndoCovers db targetHeight blocks) (m : RollbackMarkers) :
    (rolledBack targetHeight left ((rolledBack (targetHeight + left) done db).withMarkers m)
      ).withMarkers .none = (rolledBack targetHeight blocks db).withMarkers .none := by
  subst hsum
  rw [rolledBack_withMarkers, hc.rolledBack_add.1]
  rfl

/-- A rollback that has reverted some of its blocks and says so still leads to its goal. -/
theorem consistent_rolledBack {done left : Nat} (hsum : blocks = left + done)
    (hc : UndoCovers db targetHeight blocks)
    (ha : db.ensureRollbackUndoAvailable targetHeight (targetHeight + blocks) = .ok ()) :
    Consistent targetHeight ((rolledBack targetHeight blocks db).withMarkers .none)
      ((rolledBack (targetHeight + left) done db).withMarkers
        ⟨some 1, some targetHeight, some (targetHeight + left)⟩) :=
  .pending left (resumable_rolledBack hsum hc ha) (rolledBack_goal hsum hc _)

section SingleCrash

variable (hpos : 0 < blocks) (hh : db.getBtcBlockHeight = targetHeight + blocks)
  (ha : UndoAvailable db targetHeight (targetHeight + blocks))

include hh ha in
theorem rolledBack_nodeAgrees (hn : NodeAgreesAt answers latestBtcHeight db targetHeight)
    (m : RollbackMarkers) :
    NodeAgreesAt answers latestBtcHeight ((rolledBack targetHeight blocks db).withMarkers m)
      ((rolledBack targetHeight blocks db).withMarkers m).getBtcBlockHeight := by
  have hheight : ((rolledBack targetHeight blocks db).withMarkers m).getBtcBlockHeight =
      targetHeight := (ha.covers hh).rolledBack_height
  rw [hheight]
  refine ⟨hn.1, ?_⟩
  rcases hn.2 with hz | ⟨commit, hc, ht⟩
  · exact .inl hz
  · exact .inr ⟨commit, (rolledBack_getBlockCommit db targetHeight blocks targetHeight
      (Nat.le_refl _)).trans hc, ht⟩

include hh ha in
/-- Markers with nothing to add to them recover only when they name the target and the
height of the store. -/
theorem recovers_markers {target next : Option Nat}
    (h : Recovers answers latestBtcHeight (db.withMarkers ⟨some 1, target, next⟩)
      ((rolledBack targetHeight blocks db).withMarkers .none)) :
    target = some targetHeight ∧ next = some (targetHeight + blocks) := by
  obtain ⟨target', blocks', hres, hgoal⟩ := h.resumable rfl
  have hheight := congrArg getBtcBlockHeight hgoal
  have hleft : ((rolledBack targetHeight blocks db).withMarkers .none).getBtcBlockHeight =
      targetHeight := (ha.covers hh).rolledBack_height
  have hright : ((rolledBack target' blocks' (db.withMarkers ⟨some 1, target, next⟩)).withMarkers
      .none).getBtcBlockHeight = target' := hres.covers.rolledBack_height
  obtain rfl : targetHeight = target' := hleft.symm.trans (hheight.trans hright)
  have hsum : db.getBtcBlockHeight = targetHeight + blocks' := hres.covers.height
  obtain rfl : blocks = blocks' := by omega
  have ht : target = some targetHeight := congrArg RollbackMarkers.target hres.pending
  have hnext : next = some (targetHeight + blocks) := congrArg RollbackMarkers.next hres.pending
  exact ⟨ht, hnext⟩

include hpos hh ha in
theorem recoverablePoint_consistent {k : Nat}
    (h : RecoverablePoint db.markers targetHeight blocks k) :
    Consistent targetHeight ((rolledBack targetHeight blocks db).withMarkers .none)
      (crashedRollback db targetHeight k) := by
  have hens := (ensureRollbackUndoAvailable_ok (by omega)).mpr ha
  have hbegun : Consistent targetHeight ((rolledBack targetHeight blocks db).withMarkers .none)
      (db.withMarkers ⟨some 1, some targetHeight, some (targetHeight + blocks)⟩) :=
    consistent_rolledBack (Nat.add_zero blocks).symm (ha.covers hh) hens
  cases h with
  | inProgressOnly target next =>
    have ht : db.rollbackTargetHeight = some targetHeight := target
    have hnext : db.rollbackNextHeight = some (targetHeight + blocks) := next
    rw [crashedRollback_one hpos hh ha, ht, hnext]
    exact hbegun
  | targetWritten next =>
    have hnext : db.rollbackNextHeight = some (targetHeight + blocks) := next
    rw [crashedRollback_two hpos hh ha, hnext]
    exact hbegun
  | nextWritten done le =>
    have hsum : blocks = blocks - done + done := by omega
    rw [crashedRollback_even hpos hh ha hsum]
    exact consistent_rolledBack hsum (ha.covers hh) hens
  | cleared => exact .finished (@crashedRollback_clearing _ _ _ hpos hh ha .none 2 rfl)

include hh ha in
theorem Consistent.recovers {db' : BalanceHistoryDB}
    (h : Consistent targetHeight ((rolledBack targetHeight blocks db).withMarkers .none) db')
    (hn : NodeAgreesAt answers latestBtcHeight db targetHeight) :
    Recovers answers latestBtcHeight db' ((rolledBack targetHeight blocks db).withMarkers .none) := by
  cases h with
  | pending left resumable goal =>
    rw [← goal]
    exact resumable.recovers
  | finished eq =>
    rw [eq]
    refine (recovers_idle_iff ?_ (rolledBack_nodeAgrees hh ha hn _)).mpr rfl
    simp [withMarkers, RollbackMarkers.none]

include hpos hh ha in
theorem recovers_iff_recoverablePoint (hn : NodeAgreesAt answers latestBtcHeight db targetHeight)
    {k : Nat} (hk : 1 ≤ k) (hk' : k ≤ 2 * blocks + 6) :
    Recovers answers latestBtcHeight (crashedRollback db targetHeight k)
      ((rolledBack targetHeight blocks db).withMarkers .none) ↔
      RecoverablePoint db.markers targetHeight blocks k := by
  refine ⟨?_, fun h => (recoverablePoint_consistent hpos hh ha h).recovers hh ha hn⟩
  intro h
  have hleft : ∀ j m, [RollbackMarkers.mk none (some targetHeight) (some targetHeight),
      ⟨none, none, some targetHeight⟩, .none][j]? = some m → m ≠ .none →
      k = 2 * blocks + 1 + j + 3 → RecoverablePoint db.markers targetHeight blocks k := by
    intro j m hj hm hkj
    rw [hkj, crashedRollback_clearing hpos hh ha hj, recovers_idle_iff] at h
    · exact absurd (congrArg markers h) hm
    · match j, hj with
      | 0, hj => rw [← Option.some.inj hj]; simp [withMarkers]
      | 1, hj => rw [← Option.some.inj hj]; simp [withMarkers]
      | 2, hj => exact absurd (Option.some.inj hj).symm hm
    · exact rolledBack_nodeAgrees hh ha hn m
  rcases Nat.lt_or_ge k 3 with hlt | hge
  · obtain rfl | rfl : k = 1 ∨ k = 2 := by omega
    · rw [crashedRollback_one hpos hh ha] at h
      obtain ⟨ht, hnext⟩ := recovers_markers hh ha h
      exact .inProgressOnly ht hnext
    · rw [crashedRollback_two hpos hh ha] at h
      exact .targetWritten (recovers_markers hh ha h).2
  · rcases Nat.lt_or_ge k (2 * blocks + 4) with hloop | hclear
    · obtain ⟨done, hdone | hdone⟩ : ∃ done, k = 2 * done + 3 ∨ k = 2 * done + 1 + 3 :=
        ⟨(k - 3) / 2, by omega⟩
      · rw [hdone]
        exact .nextWritten done (by omega)
      · have hsum : blocks = blocks - done - 1 + 1 + done := by omega
        rw [hdone, crashedRollback_odd hpos hh ha hsum] at h
        obtain ⟨target', blocks', hres, -⟩ := h.resumable rfl
        have hnext : targetHeight + (blocks - done - 1) + 1 = target' + blocks' :=
          Option.some.inj (congrArg RollbackMarkers.next hres.pending)
        have hcov := ha.covers hh
        rw [show blocks = blocks - done - 1 + (done + 1) by omega] at hcov
        have hheight : targetHeight + (blocks - done - 1) = target' + blocks' :=
          hcov.rolledBack_add.2.height.symm.trans hres.covers.height
        omega
    · obtain hc | hc | rfl : k = 2 * blocks + 1 + 0 + 3 ∨ k = 2 * blocks + 1 + 1 + 3 ∨
          k = 2 * blocks + 6 := by omega
      · exact hleft 0 _ rfl (by simp [RollbackMarkers.none]) hc
      · exact hleft 1 _ rfl (by simp [RollbackMarkers.none]) hc
      · exact .cleared

end SingleCrash

/-- The store a resume leaves when the process is killed after some of its writes. -/
def crashedResume (db : BalanceHistoryDB) (k : Nat) : BalanceHistoryDB :=
  (finalState (resumeRollbackIfNeeded { HistoryState.opened db with faults := crashAfter k })).db

/-- The stores left by a rollback, and by the resumes after it, that are killed again
and again at recoverable points. -/
inductive InterruptedRollback (db : BalanceHistoryDB) (targetHeight blocks : Nat) :
    BalanceHistoryDB → Prop
  | rollback {k : Nat} (point : RecoverablePoint db.markers targetHeight blocks k) :
      InterruptedRollback db targetHeight blocks (crashedRollback db targetHeight k)
  | resume {db' : BalanceHistoryDB} {left k : Nat}
      (before : InterruptedRollback db targetHeight blocks db')
      (pending : Resumable db' targetHeight left)
      (point : (∃ done ≤ left, k = 2 * done) ∨ k = 2 * left + 3) :
      InterruptedRollback db targetHeight blocks (crashedResume db' k)

theorem Resumable.crashedResume_eq (h : Resumable db targetHeight blocks) {k : Nat}
    {db' : BalanceHistoryDB}
    (hget : (db :: (rollbackStores targetHeight blocks db ++
      [(rolledBack targetHeight blocks db).withMarkers
          ⟨none, db.rollbackTargetHeight, some targetHeight⟩,
        (rolledBack targetHeight blocks db).withMarkers ⟨none, none, some targetHeight⟩,
        (rolledBack targetHeight blocks db).withMarkers .none]))[k]? = some db') :
    crashedResume db k = db' := by
  have hn : db.rollbackNextHeight = some (targetHeight + blocks) :=
    congrArg RollbackMarkers.next h.pending
  have hw := (resumed_writes h.covers hn).finalState
    (s := { HistoryState.opened db with faults := crashAfter k }) rfl rfl hget
  unfold crashedResume
  rw [Resumable.resume_eq (s := { HistoryState.opened db with faults := crashAfter k }) h,
    ← bind_assoc, finalState_bind_pure]
  exact hw

/-- A resume killed at a recoverable point leaves a store that still leads to the goal. -/
theorem Resumable.crashedResume_consistent (h : Resumable db targetHeight blocks) {k : Nat}
    (hk : (∃ done ≤ blocks, k = 2 * done) ∨ k = 2 * blocks + 3) :
    Consistent targetHeight ((rolledBack targetHeight blocks db).withMarkers .none)
      (crashedResume db k) := by
  have hn : db.rollbackNextHeight = some (targetHeight + blocks) :=
    congrArg RollbackMarkers.next h.pending
  have hlen := rollbackStores_length h.covers
  rcases hk with ⟨done, hle, rfl⟩ | rfl
  · have hsum : blocks = blocks - done + done := by omega
    have hget := rollbackStores_even h.covers hn hsum
    rw [← List.getElem?_append_left (by rw [List.length_cons, hlen]; omega)] at hget
    have hm := (rolledBack_markers db (targetHeight + (blocks - done)) done).trans h.pending
    have hp : (rolledBack (targetHeight + (blocks - done)) done db).rollbackInProgress = some 1 :=
      congrArg RollbackMarkers.inProgress hm
    have ht : (rolledBack (targetHeight + (blocks - done)) done db).rollbackTargetHeight =
        some targetHeight := congrArg RollbackMarkers.target hm
    have heq : crashedResume db (2 * done) =
        (rolledBack (targetHeight + (blocks - done)) done db).withMarkers
          ⟨some 1, some targetHeight, some (targetHeight + (blocks - done))⟩ := by
      rw [h.crashedResume_eq hget, ← hp, ← ht]
      rfl
    rw [heq]
    exact consistent_rolledBack hsum h.covers h.available
  · refine .finished (h.crashedResume_eq ?_)
    rw [List.getElem?_cons_succ, List.getElem?_append_right (by omega), hlen,
      Nat.add_sub_cancel_left]
    rfl

theorem InterruptedRollback.consistent (hpos : 0 < blocks)
    (hh : db.getBtcBlockHeight = targetHeight + blocks)
    (ha : UndoAvailable db targetHeight (targetHeight + blocks)) {db' : BalanceHistoryDB}
    (h : InterruptedRollback db targetHeight blocks db') :
    Consistent targetHeight ((rolledBack targetHeight blocks db).withMarkers .none) db' := by
  induction h with
  | rollback point => exact recoverablePoint_consistent hpos hh ha point
  | @resume db' left k before pending point ih =>
    have hgoal : (rolledBack targetHeight left db').withMarkers .none =
        (rolledBack targetHeight blocks db).withMarkers .none := by
      cases ih with
      | pending left' resumable goal =>
        have hleft : left = left' := by
          have h₁ := pending.covers.height
          have h₂ := resumable.covers.height
          omega
        rw [hleft, goal]
      | finished eq =>
        have hp := congrArg RollbackMarkers.inProgress pending.pending
        rw [eq] at hp
        cases hp
    rw [← hgoal]
    exact pending.crashedResume_consistent point

end CrashPointsOfRollback

/-- A rollback killed after one of its writes recovers, with the store of the rollback
that was not interrupted and without markers, exactly when the markers it had written
name the target and the height of the store or are gone again; and however often the
rollback and its resumes are killed at such points, the restarted process recovers. -/
theorem rollback_crash_recovers_iff (s done : HistoryState)
    (targetHeight latestBtcHeight k : Nat) (answers : ReorgAnswers) (hf : s.faults = [])
    (hlt : targetHeight < s.db.getBtcBlockHeight)
    (hok : rollbackToBlockHeight targetHeight s = .ok () done)
    (hn : NodeAgreesAt answers latestBtcHeight s.db targetHeight) (hk : 1 ≤ k)
    (hk' : k ≤ 2 * (s.db.getBtcBlockHeight - targetHeight) + 6) :
    done.db.markers = .none ∧
      (Recovers answers latestBtcHeight (crashedRollback s.db targetHeight k) done.db ↔
        RecoverablePoint s.db.markers targetHeight (s.db.getBtcBlockHeight - targetHeight) k) ∧
      ∀ db', InterruptedRollback s.db targetHeight (s.db.getBtcBlockHeight - targetHeight) db' →
        Recovers answers latestBtcHeight db' done.db := by
  have hpos : 0 < s.db.getBtcBlockHeight - targetHeight := by omega
  have hh : s.db.getBtcBlockHeight =
      targetHeight + (s.db.getBtcBlockHeight - targetHeight) := by omega
  obtain ⟨ha, hgoal⟩ := rollbackToBlockHeight_ok hf hpos hh hok
  rw [hgoal]
  refine ⟨rfl, recovers_iff_recoverablePoint hpos hh ha hn hk hk', ?_⟩
  intro db' hdb'
  exact (hdb'.consistent hpos hh ha).recovers hh ha hn

section OneBlock

/-- A store with one block, whose coinbase pays a script. -/
def oneBlock : BalanceHistoryDB :=
  BalanceHistoryDB.empty.updateBlockState {
    newUtxos := [(⟨1, 0⟩, ⟨50, 7⟩)]
    removeUtxos := []
    entriesList := [⟨7, 1, 50, 50⟩]
    blockHeight := 1
    blockCommits := [⟨1, 1, [], []⟩]
    scriptRegistryEntries := [⟨7, ⟨7, false⟩⟩]
    undoBundles := [⟨1, 1, [⟨⟨1, 0⟩, 7, 50⟩], [], [7]⟩] }

theorem oneBlock_undoAvailable : UndoAvailable oneBlock 0 (0 + 1) :=
  (ensureRollbackUndoAvailable_ok (by decide)).mp (by decide)

theorem oneBlock_rollback : rollbackToBlockHeight 0 (.opened oneBlock) =
    .ok () (.opened ((rolledBack 0 1 oneBlock).withMarkers .none)) :=
  @rollback_of_undoAvailable 0 1 (.opened oneBlock) rfl (by decide) rfl oneBlock_undoAvailable

/-- Killed right after the batch that reverts the block, the rollback cannot be resumed:
the next height is still the old one. -/
theorem rollback_crash_not_recovered : ∃ done,
    rollbackToBlockHeight 0 (.opened oneBlock) = .ok () done ∧
      ¬ Recovers ⟨none, fun _ => none⟩ 0 (crashedRollback oneBlock 0 4) done.db := by
  refine ⟨_, oneBlock_rollback, ?_⟩
  intro h
  have hpoint := (recovers_iff_recoverablePoint (by decide) rfl oneBlock_undoAvailable
    ⟨Nat.le_refl 0, .inl rfl⟩ (by decide) (by decide)).mp h
  generalize hk : 4 = k at hpoint
  cases hpoint <;> omega

theorem rollback_crash_recovers_oneBlock : ∃ done,
    rollbackToBlockHeight 0 (.opened oneBlock) = .ok () done ∧
      Recovers ⟨none, fun _ => none⟩ 0 (crashedRollback oneBlock 0 3) done.db := by
  have h := rollback_crash_recovers_iff (.opened oneBlock) _ 0 0 3 ⟨none, fun _ => none⟩ rfl
    (by decide) oneBlock_rollback ⟨Nat.le_refl 0, .inl rfl⟩ (by decide) (by decide)
  exact ⟨_, oneBlock_rollback, h.2.1.mpr (.nextWritten 0 (by decide))⟩

end OneBlock

end Usdb.Balances
