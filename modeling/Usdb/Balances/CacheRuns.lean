import Usdb.Balances.CacheAgreement
import Usdb.Balances.CrashResume

namespace Usdb.Balances

open Framework BalanceHistoryDB

section Writes

variable {s t : HistoryState} {e : BalanceHistoryError}

theorem write_ok {f : BalanceHistoryDB → BalanceHistoryDB} (h : write f s = .ok () t) :
    t = { s with db := f s.db, faults := s.faults.drop 1 } :=
  ((Writes.write f).finishes s t rfl h).1

/-- A write that reports an error leaves store and caches as they are. -/
theorem write_error {f : BalanceHistoryDB → BalanceHistoryDB} (h : write f s = .error e t) :
    t = { s with faults := t.faults } ∧ (e ≠ .panic → s.faults = .err :: t.faults) := by
  unfold write at h
  split at h
  · cases h
  · cases h
  · rename_i hf
    cases h
    exact ⟨rfl, fun _ => hf⟩
  · cases h
    exact ⟨rfl, fun hne => absurd rfl hne⟩

theorem write_height {f : BalanceHistoryDB → BalanceHistoryDB} (h : write f s = .ok () t)
    (hf : ∀ db, (f db).getBtcBlockHeight = db.getBtcBlockHeight) :
    t.db.getBtcBlockHeight = s.db.getBtcBlockHeight := by
  rw [write_ok h]
  exact hf s.db

theorem rollbackOneBlock_height {height : Nat} (h : rollbackOneBlock height s = .ok () t) :
    t.db.getBtcBlockHeight = height - 1 := by
  unfold rollbackOneBlock at h
  rw [readDb_bind] at h
  split at h
  · cases h
  · beta_reduce at h
    rw [readDb_bind] at h
    generalize s.db.getBlockUndoBundle height = found at h
    cases found with
    | none => cases h
    | some bundle =>
      rw [write_ok h]
      rfl

/-- The loop of a rollback ends at its target. -/
theorem rollbackBlocks_height {targetHeight blocks : Nat}
    (hs : s.db.getBtcBlockHeight = targetHeight + blocks)
    (h : rollbackBlocks targetHeight blocks s = .ok () t) :
    t.db.getBtcBlockHeight = targetHeight := by
  induction blocks generalizing s with
  | zero =>
    cases h
    exact hs
  | succ blocks ih =>
    obtain ⟨_, s₁, hrevert, h⟩ := bind_eq_ok h
    obtain ⟨_, s₂, hnext, h⟩ := bind_eq_ok h
    have h₁ := rollbackOneBlock_height hrevert
    have h₂ := write_height hnext (fun _ => rfl)
    exact ih (by omega) h

end Writes

section Preserved

variable {γ : Type} {part : HistoryState → γ}

theorem write_preserves {f : BalanceHistoryDB → BalanceHistoryDB}
    (hdb : ∀ s : HistoryState, part { s with db := f s.db } = part s)
    (hf : ∀ (s : HistoryState) faults, part { s with faults } = part s) :
    Preserves part (write f) := by
  intro s
  unfold write
  split
  · exact hdb s
  · exact (hf { s with db := f s.db } _).trans (hdb s)
  · exact hf s _
  · exact hf s _

theorem rollbackOneBlock_preserves {height : Nat}
    (hdb : ∀ (s : HistoryState) bundle, part { s with db := s.db.revertBlock height bundle } =
      part s)
    (hf : ∀ (s : HistoryState) faults, part { s with faults } = part s) :
    Preserves part (rollbackOneBlock height) := by
  refine .bind (fun _ => rfl) (fun currentHeight => ?_)
  split
  · exact .bind (.throw _) (fun _ => .bind (fun _ => rfl) (fun found => by
      cases found with
      | none => exact .throw _
      | some bundle => exact write_preserves (fun s => hdb s bundle) hf))
  · refine .bind (fun _ => rfl) (fun found => ?_)
    cases found with
    | none => exact .throw _
    | some bundle => exact write_preserves (fun s => hdb s bundle) hf

theorem rollbackBlocks_preserves {targetHeight : Nat}
    (hrevert : ∀ (s : HistoryState) height bundle,
      part { s with db := s.db.revertBlock height bundle } = part s)
    (hnext : ∀ (s : HistoryState) next,
      part { s with db := { s.db with rollbackNextHeight := next } } = part s)
    (hf : ∀ (s : HistoryState) faults, part { s with faults } = part s) (blocks : Nat) :
    Preserves part (rollbackBlocks targetHeight blocks) := by
  induction blocks with
  | zero => exact .pure ()
  | succ blocks ih =>
    exact .bind (rollbackOneBlock_preserves (fun s bundle => hrevert s _ bundle) hf) (fun _ =>
      .bind (write_preserves (fun s => hnext s _) hf) (fun _ => ih))

end Preserved

/-- A rollback of some blocks, begun after a number of writes, reports an error once its
first marker is deleted. -/
def ClearFails (faults : List IoResult) (writes blocks : Nat) : Prop :=
  ∃ k, writes + 2 * blocks < k ∧ k < writes + 2 * blocks + 3 ∧ FailsAt faults k

/-- A rollback of some blocks, begun after a number of writes, reports an error once a block
is reverted. -/
def RevertFails (faults : List IoResult) (writes blocks : Nat) : Prop :=
  ∃ k, writes < k ∧ k < writes + 2 * blocks + 3 ∧ FailsAt faults k

theorem ClearFails.revertFails {faults : List IoResult} {writes blocks : Nat}
    (h : ClearFails faults writes blocks) : RevertFails faults writes blocks := by
  obtain ⟨k, hlt, hle, hk⟩ := h
  exact ⟨k, by omega, hle, hk⟩

/-- A rollback of some blocks, begun after a number of writes, has stopped at one of its
writes. -/
structure StoppedRollback (writes blocks : Nat) (s t : HistoryState) (k : Nat) : Prop where
  report : FailsAt s.faults k
  lt : k < writes + 2 * blocks + 3
  caches : (t.utxoCache, t.balanceCache) = (s.utxoCache, s.balanceCache)
  marked : k ≤ writes + 2 * blocks → t.db.rollbackInProgress = some 1 ∨ t.db = s.db
  unreverted : k ≤ writes → ∃ m, t.db = s.db.withMarkers m

section Failures

variable {db db' : BalanceHistoryDB} {s t : HistoryState} {e : BalanceHistoryError}
  {targetHeight blocks : Nat}

theorem rollbackStores_inProgress (h : db' ∈ db :: rollbackStores targetHeight blocks db) :
    db'.rollbackInProgress = db.rollbackInProgress := by
  induction blocks generalizing db with
  | zero =>
    obtain rfl := List.mem_singleton.mp h
    rfl
  | succ blocks ih =>
    rcases List.mem_cons.mp h with rfl | h
    · rfl
    · rw [rollbackStores] at h
      cases hb : db.getBlockUndoBundle (targetHeight + blocks + 1) with
      | none =>
        rw [hb] at h
        cases h
      | some bundle =>
        rw [hb] at h
        rcases List.mem_cons.mp h with rfl | h
        · rfl
        · have hrest := ih h
          exact hrest

/-- The loop of a resumed rollback and the deletion of its markers. -/
theorem revertAndClear_stopped (hc : UndoCovers s.db targetHeight blocks)
    (hp : s.db.rollbackInProgress = some 1)
    (h : (rollbackBlocks targetHeight blocks >>= fun _ => clearRollbackState) s = .error e t)
    (hne : e ≠ .panic) : ∃ k, StoppedRollback 0 blocks s t k := by
  have hlen := rollbackStores_length hc
  have hwrites := (rollbackBlocks_writes hc).bind
    (clearRollbackState_writes (m := markers _) rfl)
  obtain ⟨k, db', hlt, hget, rfl, hk⟩ := hwrites.fails s t e rfl h
  rw [List.length_append, hlen] at hlt
  refine ⟨k, hk hne, ?_, rfl, fun hle => .inl ?_, fun hle => ?_⟩
  · rw [Nat.zero_add]
    exact hlt
  · rw [← List.cons_append, List.getElem?_append_left (by rw [List.length_cons, hlen]; omega)]
      at hget
    exact (rollbackStores_inProgress (List.mem_of_getElem? hget)).trans hp
  · obtain rfl : k = 0 := by omega
    cases hget
    exact ⟨markers _, rfl⟩

/-- A rollback that fails made no write, or has stopped at one. -/
theorem rollbackToBlockHeight_error (h : rollbackToBlockHeight targetHeight s = .error e t)
    (hne : e ≠ .panic) : t = s ∨ targetHeight < s.db.getBtcBlockHeight ∧
      ∃ k, StoppedRollback 3 (s.db.getBtcBlockHeight - targetHeight) s t k := by
  by_cases hlt : targetHeight < s.db.getBtcBlockHeight
  · obtain ⟨blocks, hblocks⟩ := Nat.exists_eq_add_of_lt hlt
    rw [Nat.add_assoc] at hblocks
    cases ha : s.db.ensureRollbackUndoAvailable targetHeight s.db.getBtcBlockHeight with
    | error e' =>
      unfold rollbackToBlockHeight at h
      rw [readDb_bind, if_neg (by omega), if_neg (by omega), readDb_bind, id_eq,
        liftExcept_error_bind ha] at h
      cases h
      exact .inl rfl
    | ok u =>
      refine .inr ⟨hlt, ?_⟩
      rw [hblocks] at ha
      have hundo := (ensureRollbackUndoAvailable_ok (by omega)).mp ha
      have hlen := rollbackStores_length ((hundo.covers hblocks).withMarkers
        ⟨some 1, some targetHeight, some (targetHeight + (blocks + 1))⟩)
      obtain ⟨k, db', hltk, hget, rfl, hk⟩ :=
        (rollbackToBlockHeight_writes (Nat.succ_pos blocks) hblocks hundo).fails s t e rfl h
      rw [hblocks, Nat.add_sub_cancel_left]
      refine ⟨k, hk hne, ?_, rfl, fun hle => ?_, fun hle => ?_⟩
      · simp only [List.length_append, List.length_cons, List.length_nil, begun, hlen] at hltk
        omega
      · rcases k with _ | _ | _ | i
        · cases hget
          exact .inr rfl
        · cases hget
          exact .inl rfl
        · cases hget
          exact .inl rfl
        · rw [getElem?_after_begin, List.getElem?_append_left
            (by rw [List.length_cons, begun, hlen]; omega)] at hget
          exact .inl (rollbackStores_inProgress (List.mem_of_getElem? hget))
      · rcases k with _ | _ | _ | _ | i
        · cases hget
          exact ⟨s.db.markers, rfl⟩
        · cases hget
          exact ⟨_, rfl⟩
        · cases hget
          exact ⟨_, rfl⟩
        · cases hget
          exact ⟨_, rfl⟩
        · omega
  · unfold rollbackToBlockHeight at h
    rw [readDb_bind] at h
    split at h
    · cases h
      exact .inl rfl
    · rw [if_pos (by omega)] at h
      cases h

theorem clearRollbackState_ok (h : clearRollbackState s = .ok () t) :
    t.db.rollbackInProgress = none := by
  obtain ⟨_, s₁, h₁, h⟩ := bind_eq_ok h
  obtain ⟨_, s₂, h₂, h⟩ := bind_eq_ok h
  rw [write_ok h, write_ok h₂, write_ok h₁]

theorem rollbackToBlockHeight_marker (h : rollbackToBlockHeight targetHeight s = .ok () t) :
    t.db.rollbackInProgress = none ∨ t = s := by
  unfold rollbackToBlockHeight at h
  rw [readDb_bind] at h
  split at h
  · cases h
  · split at h
    · cases h
      exact .inr rfl
    · refine .inl ?_
      rw [readDb_bind] at h
      obtain ⟨_, s₀, _, h⟩ := bind_eq_ok h
      obtain ⟨_, s₁, _, h⟩ := bind_eq_ok h
      obtain ⟨_, s₂, _, h⟩ := bind_eq_ok h
      obtain ⟨_, s₃, _, h⟩ := bind_eq_ok h
      obtain ⟨_, s₄, _, h⟩ := bind_eq_ok h
      exact clearRollbackState_ok h

theorem resumeRollbackIfNeeded_ok {resumed : Bool} (h : resumeRollbackIfNeeded s = .ok resumed t) :
    (s.db.rollbackInProgress ≠ some 1 ∧ resumed = false ∧ t = s) ∨
      (s.db.rollbackInProgress = some 1 ∧ resumed = true ∧ t.db.rollbackInProgress = none) := by
  by_cases hp : s.db.rollbackInProgress = some 1
  · obtain ⟨targetHeight, blocks, hr⟩ := resumable_of_resume hp h
    rw [hr.resume_eq] at h
    obtain ⟨_, s₁, _, h⟩ := bind_eq_ok h
    obtain ⟨_, s₂, hclear, h⟩ := bind_eq_ok h
    cases h
    exact .inr ⟨hp, rfl, clearRollbackState_ok hclear⟩
  · rw [resumeRollbackIfNeeded_idle hp] at h
    cases h
    exact .inl ⟨hp, rfl, rfl⟩

/-- A resume that fails made no write, or the rollback it resumed has stopped at one. -/
theorem resumeRollbackIfNeeded_error (h : resumeRollbackIfNeeded s = .error e t)
    (hne : e ≠ .panic) : s.db.rollbackInProgress = some 1 ∧ (t = s ∨
      ∃ targetHeight blocks k, s.db.rollbackTargetHeight = some targetHeight ∧
        s.db.rollbackNextHeight = some (targetHeight + blocks) ∧
        StoppedRollback 0 blocks s t k) := by
  by_cases hp : s.db.rollbackInProgress = some 1
  · refine ⟨hp, ?_⟩
    rcases resumeRollbackIfNeeded_pending hp with ⟨e', he⟩ | ⟨targetHeight, blocks, hr⟩
    · rw [he] at h
      cases h
      exact .inl rfl
    · rw [hr.resume_eq, ← bind_assoc] at h
      rcases bind_eq_error h with h | ⟨_, s₁, _, h⟩
      · obtain ⟨k, hk⟩ := revertAndClear_stopped hr.covers hp h hne
        exact .inr ⟨targetHeight, blocks, k, congrArg RollbackMarkers.target hr.pending,
          congrArg RollbackMarkers.next hr.pending, hk⟩
      · cases h
  · rw [resumeRollbackIfNeeded_idle hp] at h
    cases h

end Failures

/-- Nothing is cached. -/
def Emptied (s : HistoryState) : Prop :=
  (∀ outpoint, s.utxoCache outpoint = none) ∧ ∀ scriptHash, s.balanceCache scriptHash = none

/-- No rollback of a round fails in a given way while something is cached: not the one that
is resumed, and not the one to a common ancestor. -/
def RollbacksAvoid (fails : List IoResult → Nat → Nat → Prop) (answers : ReorgAnswers)
    (latestBtcHeight : Nat) (s : HistoryState) : Prop :=
  Emptied s ∨
    (∀ targetHeight nextHeight, s.db.rollbackInProgress = some 1 →
      s.db.rollbackTargetHeight = some targetHeight → s.db.rollbackNextHeight = some nextHeight →
      ¬ fails s.faults 0 (nextHeight - targetHeight)) ∧
    (s.db.rollbackInProgress ≠ some 1 → ∀ ancestorHeight,
      findReorgCommonAncestorHeight s.db answers s.db.getBtcBlockHeight latestBtcHeight =
        .ok (some ancestorHeight) → ancestorHeight < s.db.getBtcBlockHeight →
      ¬ fails s.faults 3 (s.db.getBtcBlockHeight - ancestorHeight))

theorem RollbacksAvoid.mono {fails fails' : List IoResult → Nat → Nat → Prop}
    (hfails : ∀ faults writes blocks, fails' faults writes blocks → fails faults writes blocks)
    {answers : ReorgAnswers} {latestBtcHeight : Nat} {s : HistoryState}
    (h : RollbacksAvoid fails answers latestBtcHeight s) :
    RollbacksAvoid fails' answers latestBtcHeight s :=
  h.imp_right (fun ⟨hresumed, hnew⟩ =>
    ⟨fun target next hp ht hn hf => hresumed target next hp ht hn (hfails _ _ _ hf),
      fun hp ancestor hfind hlt hf => hnew hp ancestor hfind hlt (hfails _ _ _ hf)⟩)

theorem RollbacksAvoid.of_no_faults {fails : List IoResult → Nat → Nat → Prop}
    (hfails : ∀ writes blocks, ¬ fails [] writes blocks) {answers : ReorgAnswers}
    {latestBtcHeight : Nat} {s : HistoryState} (hf : s.faults = []) :
    RollbacksAvoid fails answers latestBtcHeight s := by
  refine .inr ⟨fun _ _ _ _ _ => ?_, fun _ _ _ _ => ?_⟩ <;> rw [hf] <;> exact hfails _ _

section Prepare

variable {s t : HistoryState} {e : BalanceHistoryError} {answers : ReorgAnswers}
  {latestBtcHeight writes blocks k : Nat}

theorem CacheAgrees.of_emptied (h : Emptied s) : CacheAgrees s where
  utxo := by
    intro outpoint value hget
    rw [h.1 outpoint] at hget
    cases hget
  balance := by
    intro scriptHash data hget
    rw [h.2 scriptHash] at hget
    cases hget

theorem CacheAgrees.evicted (h : CacheAgrees s) (keepUtxo : OutPoint → Bool)
    (keepBalance : USDBScriptHash → Bool) :
    CacheAgrees { s with
      utxoCache := fun o => if keepUtxo o then s.utxoCache o else none
      balanceCache := fun h => if keepBalance h then s.balanceCache h else none } where
  utxo := by
    intro outpoint value hget
    dsimp only at hget
    split at hget
    · exact h.utxo outpoint value hget
    · cases hget
  balance := by
    intro scriptHash data hget
    dsimp only at hget
    split at hget
    · exact h.balance scriptHash data hget
    · cases hget

theorem Emptied.of_caches (h : Emptied s)
    (hcaches : (t.utxoCache, t.balanceCache) = (s.utxoCache, s.balanceCache)) : Emptied t := by
  obtain ⟨hu, hb⟩ := Prod.mk.inj hcaches
  unfold Emptied
  rw [hu, hb]
  exact h

/-- Caches that agreed before a rollback that stopped agree after it, if it reverted no
block or they are empty. -/
theorem StoppedRollback.agrees (h : StoppedRollback writes blocks s t k) (hagree : CacheAgrees s)
    (hok : Emptied s ∨ ¬ RevertFails s.faults writes blocks) : CacheAgrees t := by
  rcases hok with hempty | hfails
  · exact .of_emptied (hempty.of_caches h.caches)
  · have hle : k ≤ writes := by
      by_contra hlt
      exact hfails ⟨k, by omega, h.lt, h.report⟩
    obtain ⟨m, hm⟩ := h.unreverted hle
    refine hagree.of_same h.caches ?_ ?_ ?_ <;> rw [hm] <;> rfl

/-- A rollback that stopped before its first marker was deleted is pending. -/
theorem StoppedRollback.pending (h : StoppedRollback writes blocks s t k)
    (hagree : s.db.rollbackInProgress ≠ some 1 → CacheAgrees s)
    (hok : Emptied s ∨ ¬ ClearFails s.faults writes blocks) :
    t.db.rollbackInProgress = some 1 ∨ CacheAgrees t := by
  rcases hok with hempty | hfails
  · exact .inr (.of_emptied (hempty.of_caches h.caches))
  · have hle : k ≤ writes + 2 * blocks := by
      by_contra hlt
      exact hfails ⟨k, by omega, h.lt, h.report⟩
    rcases h.marked hle with hp | hsame
    · exact .inl hp
    · by_cases hp : s.db.rollbackInProgress = some 1
      · rw [hsame]
        exact .inl hp
      · refine .inr ((hagree hp).of_same h.caches ?_ ?_ ?_) <;> rw [hsame]

theorem resumePendingRollbackIfNeeded_ok {resumed : Bool}
    (h : resumePendingRollbackIfNeeded s = .ok resumed t) :
    (s.db.rollbackInProgress ≠ some 1 ∧ t = s) ∨
      (s.db.rollbackInProgress = some 1 ∧ t.db.rollbackInProgress ≠ some 1 ∧ Emptied t) := by
  obtain ⟨resumed', s₁, hres, hrest⟩ := bind_eq_ok h
  rcases resumeRollbackIfNeeded_ok hres with ⟨hidle, rfl, rfl⟩ | ⟨hp, rfl, hnone⟩
  · cases hrest
    exact .inl ⟨hidle, rfl⟩
  · cases hrest
    refine .inr ⟨hp, ?_, fun _ => rfl, fun _ => rfl⟩
    show s₁.db.rollbackInProgress ≠ some 1
    rw [hnone]
    exact Option.some_ne_none 1 |>.symm

/-- A round that begins without an error has caches that agree. -/
theorem prepareSync_ok (hagree : s.db.rollbackInProgress ≠ some 1 → CacheAgrees s)
    (h : prepareSync answers latestBtcHeight s = .ok () t) :
    t.db.rollbackInProgress ≠ some 1 ∧ CacheAgrees t := by
  obtain ⟨resumed, s₁, hres, h⟩ := bind_eq_ok h
  have hkept : s₁.db.rollbackInProgress ≠ some 1 ∧ CacheAgrees s₁ := by
    rcases resumePendingRollbackIfNeeded_ok hres with ⟨hidle, rfl⟩ | ⟨-, hidle, hempty⟩
    · exact ⟨hidle, hagree hidle⟩
    · exact ⟨hidle, .of_emptied hempty⟩
  rw [readDb_bind] at h
  obtain ⟨height, s₂, hrec, h⟩ := bind_eq_ok h
  cases h
  unfold reconcileReorgIfNeeded at hrec
  rw [readDb_bind, id_eq] at hrec
  cases hfind : findReorgCommonAncestorHeight s₁.db answers s₁.db.getBtcBlockHeight
      latestBtcHeight with
  | error e' =>
    rw [liftExcept_error_bind hfind] at hrec
    cases hrec
  | ok found =>
    rw [liftExcept_ok_bind hfind] at hrec
    cases found with
    | none =>
      cases hrec
      exact hkept
    | some ancestorHeight =>
      obtain ⟨_, s₃, hback, hrec⟩ := bind_eq_ok hrec
      cases hrec
      refine ⟨?_, .cleared _ _⟩
      show s₃.db.rollbackInProgress ≠ some 1
      rcases rollbackToBlockHeight_marker hback with hnone | rfl
      · rw [hnone]
        exact Option.some_ne_none 1 |>.symm
      · exact hkept.1

/-- A round that fails to begin left everything as it was, or nothing cached, or one of its
rollbacks has stopped. -/
theorem prepareSync_error {fails : List IoResult → Nat → Nat → Prop}
    (hok : RollbacksAvoid fails answers latestBtcHeight s)
    (h : prepareSync answers latestBtcHeight s = .error e t) (hne : e ≠ .panic) :
    t = s ∨ Emptied t ∨ ∃ writes blocks k, StoppedRollback writes blocks s t k ∧
      (Emptied s ∨ ¬ fails s.faults writes blocks) := by
  rcases bind_eq_error h with h | ⟨resumed, s₁, hres, h⟩
  · rcases bind_eq_error h with h | ⟨resumed, s₁, _, h⟩
    · obtain ⟨hp, rfl | ⟨target, blocks, k, ht, hn, hstopped⟩⟩ := resumeRollbackIfNeeded_error h hne
      · exact .inl rfl
      · refine .inr (.inr ⟨0, blocks, k, hstopped, hok.imp_right (fun hfails => ?_)⟩)
        have hresumed := hfails.1 target _ hp ht hn
        rw [Nat.add_sub_cancel_left] at hresumed
        exact hresumed
    · cases resumed <;> cases h
  · rw [readDb_bind] at h
    rcases bind_eq_error h with h | ⟨height, s₂, _, h⟩
    · unfold reconcileReorgIfNeeded at h
      rw [readDb_bind, id_eq] at h
      have hrollback : t = s₁ ∨ ∃ ancestorHeight, findReorgCommonAncestorHeight s₁.db answers
          s₁.db.getBtcBlockHeight latestBtcHeight = .ok (some ancestorHeight) ∧
          rollbackToBlockHeight ancestorHeight s₁ = .error e t := by
        cases hfind : findReorgCommonAncestorHeight s₁.db answers s₁.db.getBtcBlockHeight
            latestBtcHeight with
        | error e' =>
          rw [liftExcept_error_bind hfind] at h
          cases h
          exact .inl rfl
        | ok found =>
          rw [liftExcept_ok_bind hfind] at h
          cases found with
          | none => cases h
          | some ancestorHeight =>
            rcases bind_eq_error h with h | ⟨_, s₃, _, h⟩
            · exact .inr ⟨ancestorHeight, rfl, h⟩
            · cases h
      rcases resumePendingRollbackIfNeeded_ok hres with ⟨hidle, rfl⟩ | ⟨-, -, hempty⟩
      · rcases hrollback with rfl | ⟨ancestorHeight, hfind, hback⟩
        · exact .inl rfl
        rcases rollbackToBlockHeight_error hback hne with rfl | ⟨hlt, k, hstopped⟩
        · exact .inl rfl
        · exact .inr (.inr ⟨3, _, k, hstopped,
            hok.imp_right (fun hfails => hfails.2 hidle ancestorHeight hfind hlt)⟩)
      · refine .inr (.inl ?_)
        rcases hrollback with rfl | ⟨ancestorHeight, hfind, hback⟩
        · exact hempty
        rcases rollbackToBlockHeight_error hback hne with rfl | ⟨hlt, k, hstopped⟩
        · exact hempty
        · exact hempty.of_caches hstopped.caches
    · cases h

end Prepare

namespace Service

variable {config : SyncConfig} {w w' : Service} {l : Label}

/-- The condition on a step: when a round begins with something cached, the markers of a
finished rollback are deleted without an error. -/
def MarkersCleared (w : Service) : Label → Prop
  | .prepare answers latestBtcHeight faults =>
    RollbacksAvoid ClearFails answers latestBtcHeight { w.state with faults }
  | _ => True

/-- The condition on a step: when a round begins with something cached, no rollback of it
reports an error once a block is reverted, and a shrink finds two entries in each cache. -/
def CachesCleared (w : Service) : Label → Prop
  | .prepare answers latestBtcHeight faults =>
    RollbacksAvoid RevertFails answers latestBtcHeight { w.state with faults }
  | .shrink lastUtxos lastBalances => 1 < lastUtxos.length ∧ 1 < lastBalances.length
  | _ => True

theorem CachesCleared.markersCleared (h : CachesCleared w l) : MarkersCleared w l := by
  cases l with
  | prepare answers latestBtcHeight faults =>
    have hprepare : RollbacksAvoid RevertFails answers latestBtcHeight { w.state with faults } := h
    exact hprepare.mono (fun _ _ _ hf => hf.revertFails)
  | _ => trivial

/-- The caches of a running process agree with the store unless a rollback is pending,
and no round is under way while one is. -/
structure CachesKept (w : Service) : Prop where
  tracked : RowsTracked w.state.db
  agrees : w.phase ≠ .crashed → w.state.db.rollbackInProgress ≠ some 1 → CacheAgrees w.state
  syncing : ∀ latestBtcHeight, w.phase = .syncing latestBtcHeight →
    w.state.db.rollbackInProgress ≠ some 1

theorem CachesKept.initial : CachesKept initial where
  tracked := .empty
  agrees := fun _ _ => .cleared _ _
  syncing := by
    intro latestBtcHeight h
    cases h

/-- A program of the process ends well, reports an error, or ends the process. -/
theorem settle_cases (result : EStateM.Result BalanceHistoryError HistoryState Unit)
    (next : Phase) :
    (∃ t, result = .ok () t ∧ settle result next = ⟨{ t with faults := [] }, next⟩) ∨
      (∃ e t, result = .error e t ∧ e ≠ .panic ∧
        settle result next = ⟨{ t with faults := [] }, .idle⟩) ∨
      ∃ t, result = .error .panic t ∧ settle result next = ⟨{ t with faults := [] }, .crashed⟩ := by
  cases result with
  | ok u t => exact .inl ⟨t, rfl, rfl⟩
  | error e t =>
    by_cases hne : e = .panic
    · subst hne
      exact .inr (.inr ⟨t, rfl, rfl⟩)
    · refine .inr (.inl ⟨e, t, rfl, hne, ?_⟩)
      cases e <;> first | rfl | exact absurd rfl hne

theorem CachesKept.settle {result : EStateM.Result BalanceHistoryError HistoryState Unit}
    {latestBtcHeight : Nat} (htracked : RowsTracked (finalState result).db)
    (hok : ∀ t, result = .ok () t → t.db.rollbackInProgress ≠ some 1 ∧ CacheAgrees t)
    (herror : ∀ e t, result = .error e t → e ≠ .panic →
      t.db.rollbackInProgress = some 1 ∨ CacheAgrees t) :
    CachesKept (settle result (.syncing latestBtcHeight)) := by
  rcases settle_cases result (.syncing latestBtcHeight) with
    ⟨t, rfl, h⟩ | ⟨e, t, rfl, hne, h⟩ | ⟨t, rfl, h⟩ <;> rw [h]
  · obtain ⟨hidle, hagree⟩ := hok t rfl
    exact ⟨htracked, fun _ _ => hagree.of_same rfl rfl rfl rfl, fun _ _ => hidle⟩
  · refine ⟨htracked, fun _ hidle => ?_, fun _ hphase => by cases hphase⟩
    rcases herror e t rfl hne with hp | hagree
    · exact absurd hp hidle
    · exact hagree.of_same rfl rfl rfl rfl
  · exact ⟨htracked, fun hlive => absurd rfl hlive, fun _ hphase => by cases hphase⟩

/-- What a batch leaves, whether it reports an error or not. -/
theorem processBlockBatch_agrees {s : HistoryState} {answers : BatchAnswers} {latestBtcHeight : Nat}
    (htracked : RowsTracked s.db) (hidle : s.db.rollbackInProgress ≠ some 1)
    (hagree : CacheAgrees s) :
    (finalState (processBlockBatch config answers latestBtcHeight s)).db.rollbackInProgress ≠
        some 1 ∧
      CacheAgrees (finalState (processBlockBatch config answers latestBtcHeight s)) := by
  rcases processBlockBatch_final config answers latestBtcHeight s with
    ⟨fs, hf⟩ | ⟨data, update, db, fs, hb, hprune, hf⟩
  · rw [hf]
    exact ⟨hidle, hagree.of_same rfl rfl rfl rfl⟩
  · obtain ⟨created, initial, hrun⟩ := batchUpdate_eq_ok.mp hb
    have hafter := hagree.batch htracked hrun
    rw [hf]
    cases hprune with
    | skip => exact ⟨hidle, hafter.of_same rfl rfl rfl rfl⟩
    | prune supportedFrom supported => exact ⟨hidle, hafter.of_same rfl rfl rfl rfl⟩

theorem CachesKept.step (h : CachesKept w) (hc : MarkersCleared w l) (hs : Step config w l w') :
    CachesKept w' := by
  have htracked := h.tracked.storeStep hs.storeStep
  obtain ⟨henabled, rfl⟩ := hs
  cases l with
  | prepare answers latestBtcHeight faults =>
    have hidle : w.phase = .idle := henabled
    have hagree : w.state.db.rollbackInProgress ≠ some 1 → CacheAgrees { w.state with faults } :=
      fun hne => (h.agrees (by rw [hidle]; exact Phase.noConfusion) hne).of_same rfl rfl rfl rfl
    have htracked' := htracked
    unfold next at htracked'
    rw [settle_db] at htracked'
    refine .settle htracked' (fun t ht => prepareSync_ok hagree ht) (fun e t ht hne => ?_)
    rcases prepareSync_error hc ht hne with rfl | hempty | ⟨writes, blocks, k, hstopped, hok⟩
    · by_cases hp : w.state.db.rollbackInProgress = some 1
      · exact .inl hp
      · exact .inr (hagree hp)
    · exact .inr (.of_emptied hempty)
    · exact hstopped.pending hagree hok
  | batch answers faults =>
    obtain ⟨latestBtcHeight, hphase, -, -⟩ := henabled
    have hidle := h.syncing latestBtcHeight hphase
    have hagree : CacheAgrees { w.state with faults } :=
      (h.agrees (by rw [hphase]; exact Phase.noConfusion) hidle).of_same rfl rfl rfl rfl
    have hkept := @processBlockBatch_agrees config { w.state with faults } answers latestBtcHeight
      h.tracked hidle hagree
    have hnext : next config w (.batch answers faults) = Service.settle
        (processBlockBatch config answers latestBtcHeight { w.state with faults })
        (.syncing latestBtcHeight) := by
      unfold next
      rw [hphase]
    rw [hnext] at htracked ⊢
    rw [settle_db] at htracked
    refine .settle htracked ?_ ?_
    · intro t ht
      rw [ht] at hkept
      exact hkept
    · intro e t ht _
      rw [ht] at hkept
      exact .inr hkept.2
  | finish =>
    refine ⟨htracked, ?_, ?_⟩
    · intro _ hidle
      obtain ⟨latestBtcHeight, hphase⟩ := henabled
      exact h.agrees (by rw [hphase]; exact Phase.noConfusion) hidle
    · intro latestBtcHeight hphase
      cases hphase
  | evict keepUtxo keepBalance =>
    exact ⟨htracked, fun hlive hidle => (h.agrees hlive hidle).evicted _ _, h.syncing⟩
  | shrink lastUtxos lastBalances =>
    simp only [next] at htracked ⊢
    rcases shrinkCaches_cases lastUtxos lastBalances w.state with
      ⟨keepUtxo, keepBalance, -, -, hrun⟩ | ⟨utxoCache, -, hrun⟩
    · rw [hrun]
      refine ⟨h.tracked, fun hlive hidle => ?_, h.syncing⟩
      exact ((h.agrees hlive hidle).evicted keepUtxo keepBalance).of_same rfl rfl rfl rfl
    · rw [hrun]
      exact ⟨h.tracked, fun hlive => absurd rfl hlive, fun _ hphase => by cases hphase⟩
  | restart =>
    refine ⟨htracked, fun _ _ => .cleared _ _, ?_⟩
    intro latestBtcHeight hphase
    cases hphase

theorem Run.cachesKept (h : Run config MarkersCleared initial w) : CachesKept w :=
  h.induct .initial (fun _ _ _ hw hc hs => hw.step hc hs)

/-- Where caches that agree are asked, a batch loads what it would load with empty ones. -/
theorem Run.caches_transparent_syncing (h : Run config MarkersCleared initial w)
    {latestBtcHeight : Nat} (hphase : w.phase = .syncing latestBtcHeight) : CacheAgrees w.state :=
  h.cachesKept.agrees (by rw [hphase]; exact Phase.noConfusion)
    (h.cachesKept.syncing latestBtcHeight hphase)

theorem Step.cachesLive (hk : CachesKept w) (hlive : w.phase ≠ .crashed → CacheAgrees w.state)
    (hc : CachesCleared w l) (hs : Step config w l w') :
    w'.phase ≠ .crashed → CacheAgrees w'.state := by
  have hk' := hk.step hc.markersCleared hs
  obtain ⟨henabled, rfl⟩ := hs
  cases l with
  | prepare answers latestBtcHeight faults =>
    have hidle : w.phase = .idle := henabled
    have hagree : CacheAgrees { w.state with faults } :=
      (hlive (by rw [hidle]; exact Phase.noConfusion)).of_same rfl rfl rfl rfl
    simp only [next]
    rcases settle_cases (prepareSync answers latestBtcHeight { w.state with faults })
      (.syncing latestBtcHeight) with ⟨t, hrun, h⟩ | ⟨e, t, hrun, hne, h⟩ | ⟨t, hrun, h⟩ <;> rw [h]
    · exact fun _ => (prepareSync_ok (fun _ => hagree) hrun).2.of_same rfl rfl rfl rfl
    · intro _
      rcases prepareSync_error hc hrun hne with rfl | hempty | ⟨writes, blocks, k, hstopped, hok⟩
      · exact hagree.of_same rfl rfl rfl rfl
      · exact (CacheAgrees.of_emptied hempty).of_same rfl rfl rfl rfl
      · exact (hstopped.agrees hagree hok).of_same rfl rfl rfl rfl
    · exact fun hphase => absurd rfl hphase
  | batch answers faults =>
    obtain ⟨latestBtcHeight, hphase, -, -⟩ := henabled
    have hidle := hk.syncing latestBtcHeight hphase
    have hagree : CacheAgrees { w.state with faults } :=
      (hk.agrees (by rw [hphase]; exact Phase.noConfusion) hidle).of_same rfl rfl rfl rfl
    have hkept := @processBlockBatch_agrees config { w.state with faults } answers latestBtcHeight
      hk.tracked hidle hagree
    refine fun hlive' => hk'.agrees hlive' ?_
    simp only [next, hphase]
    rw [settle_db]
    exact hkept.1
  | finish =>
    obtain ⟨latestBtcHeight, hphase⟩ := henabled
    exact fun _ => hlive (by rw [hphase]; exact Phase.noConfusion)
  | evict keepUtxo keepBalance => exact fun hphase => (hlive hphase).evicted _ _
  | shrink lastUtxos lastBalances =>
    simp only [next]
    rcases shrinkCaches_cases lastUtxos lastBalances w.state with
      ⟨keepUtxo, keepBalance, -, -, hrun⟩ | ⟨utxoCache, -, hrun⟩ <;> rw [hrun]
    · exact fun hphase => ((hlive hphase).evicted keepUtxo keepBalance).of_same rfl rfl rfl rfl
    · exact fun hphase => absurd rfl hphase
  | restart => exact fun _ => .cleared _ _

/-- In a run where no rollback fails once it has reverted a block, unless nothing is cached,
and no cache is shrunk to nothing, the caches of a running process agree with the store: a
batch loads what it would load with empty caches, and no assertion on the height of a
cached balance fires; nor does a shrink end the process. -/
theorem Run.caches_transparent (config : SyncConfig) (w : Service)
    (h : Run config CachesCleared initial w) (hlive : w.phase ≠ .crashed) :
    CacheAgrees w.state ∧
      (∀ env blocks, preload env w.state (w.state.db.getBtcBlockHeight + 1) blocks =
        preload env { w.state with utxoCache := fun _ => none, balanceCache := fun _ => none }
          (w.state.db.getBtcBlockHeight + 1) blocks) ∧
      (∀ scriptHash, loadBalance w.state.db w.state.balanceCache w.state.db.getBtcBlockHeight
          scriptHash =
        .ok (w.state.db.getBalanceAtBlockHeight scriptHash w.state.db.getBtcBlockHeight)) ∧
      ∀ lastUtxos lastBalances, CachesCleared w (.shrink lastUtxos lastBalances) →
        (w.next config (.shrink lastUtxos lastBalances)).phase = w.phase := by
  have hboth := h.induct
    (P := fun w => CachesKept w ∧ (w.phase ≠ .crashed → CacheAgrees w.state))
    ⟨.initial, fun _ => .cleared _ _⟩ (fun _ _ _ hw hc hs =>
      ⟨hw.1.step hc.markersCleared hs, hs.cachesLive hw.1 hw.2 hc⟩)
  have hagree := hboth.2 hlive
  refine ⟨hagree, hagree.preload_eq, loadBalance_eq hagree, ?_⟩
  rintro lastUtxos lastBalances ⟨hu, hb⟩
  simp only [Service.next]
  rcases shrinkCaches_cases lastUtxos lastBalances w.state with
    ⟨keepUtxo, keepBalance, -, -, hrun⟩ | ⟨utxoCache, hsmall, hrun⟩
  · rw [hrun]
    rfl
  · omega

end Service

section StaleCaches

/-- The block at height 1 is replaced; the rollback of the old one reports an error after a
number of its writes. -/
def failedRollback (writes : Nat) : Label :=
  .prepare ⟨some 21, fun _ => some 21⟩ 1 (List.replicate writes .ok ++ [.err])

/-- The process after a rollback that failed to delete its target height, and the start of
the next round. -/
def staleService : Service :=
  ((firstBlockService.next plainConfig .finish).next plainConfig (failedRollback 6)).next
    plainConfig (Service.firstPrepare 1)

/-- The process after a rollback that failed once it had reverted the block. -/
def pendingService : Service :=
  (firstBlockService.next plainConfig .finish).next plainConfig (failedRollback 4)

theorem failedRollback_run (writes : Nat) :
    Service.Run plainConfig (fun _ _ => True) .initial
      ((firstBlockService.next plainConfig .finish).next plainConfig (failedRollback writes)) := by
  have hfirst : Service.Run plainConfig (fun _ _ => True) .initial firstBlockService :=
    Service.run_firstBatch (by decide) (by decide) trivial trivial
  exact (hfirst.next .finish trivial ⟨1, rfl⟩).next (failedRollback writes) trivial rfl

theorem not_cacheAgrees {s : HistoryState} (outpoint : OutPoint) (value : UTXOValue)
    (hcached : s.utxoCache outpoint = some value) (hnone : s.db.getUtxo outpoint = none) :
    ¬ CacheAgrees s := by
  intro h
  have hget := h.utxo outpoint value hcached
  rw [hnone] at hget
  cases hget

/-- A round is under way with a cached output that is not in the store, and the
assertion on the height of a cached balance fires. -/
theorem stale_caches_read :
    Service.Run plainConfig (fun _ _ => True) .initial staleService ∧
      staleService.phase = .syncing 1 ∧
      staleService.state.utxoCache ⟨11, 0⟩ = some ⟨50, 7⟩ ∧
      staleService.state.db.getUtxo ⟨11, 0⟩ = none ∧
      ¬ CacheAgrees staleService.state ∧
      loadBalance staleService.state.db staleService.state.balanceCache
        staleService.state.db.getBtcBlockHeight 7 = .error .panic :=
  ⟨(failedRollback_run 6).next (Service.firstPrepare 1) trivial rfl, by decide, by decide,
    by decide, not_cacheAgrees ⟨11, 0⟩ ⟨50, 7⟩ (by decide) (by decide), by decide⟩

/-- While a rollback is pending, an output is cached that is not in the store. -/
theorem stale_caches_pending :
    Service.Run plainConfig (fun _ _ => True) .initial pendingService ∧
      pendingService.phase = .idle ∧ pendingService.state.db.rollbackInProgress = some 1 ∧
      ¬ CacheAgrees pendingService.state :=
  ⟨failedRollback_run 4, by decide, by decide,
    not_cacheAgrees ⟨11, 0⟩ ⟨50, 7⟩ (by decide) (by decide)⟩

/-- A process that has cached nothing yet is ended by the first shrink. -/
theorem empty_caches_shrunk :
    Service.Step plainConfig .initial (.shrink [] [])
        (Service.initial.next plainConfig (.shrink [] [])) ∧
      (Service.initial.next plainConfig (.shrink [] [])).phase = .crashed := by
  have hempty : ∀ {α β : Type}, Lists (fun _ : α => (none : Option β)) [] :=
    ⟨List.nodup_nil, fun key => by simp⟩
  exact ⟨⟨⟨by decide, hempty, hempty⟩, rfl⟩, by decide⟩

theorem not_failsAt_nil (k : Nat) : ¬ FailsAt [] k := fun h => by cases h.2

theorem clearsMarkers_of_no_faults {answers : ReorgAnswers} {latestBtcHeight : Nat}
    {s : HistoryState} (hf : s.faults = []) :
    RollbacksAvoid ClearFails answers latestBtcHeight s :=
  .of_no_faults (fun _ _ ⟨k, _, _, hk⟩ => not_failsAt_nil k hk) hf

theorem Service.caches_transparent_firstBlock :
    firstBlockService.phase = .syncing 1 ∧
      firstBlockService.state.balanceCache 7 = some ⟨1, 50, 50⟩ ∧
      CacheAgrees firstBlockService.state := by
  have hrun : Service.Run plainConfig Service.CachesCleared .initial firstBlockService :=
    Service.run_firstBatch (by decide) (by decide)
      (.of_no_faults (fun _ _ ⟨k, _, _, hk⟩ => not_failsAt_nil k hk) rfl) trivial
  exact ⟨by decide, by decide +kernel,
    (Service.Run.caches_transparent plainConfig firstBlockService hrun (by decide)).1⟩

end StaleCaches

end Usdb.Balances
