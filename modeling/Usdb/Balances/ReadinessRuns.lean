import Usdb.Balances.CacheRuns
import Usdb.Balances.Readiness

namespace Usdb.Balances

open Framework BalanceHistoryDB

/-- A pending rollback of the store goes at least as far down as an ancestor, and without
one the store has no block above it. -/
structure Covered (ancestor : Nat) (db : BalanceHistoryDB) : Prop where
  resolved : db.rollbackInProgress ≠ some 1 → db.getBtcBlockHeight ≤ ancestor
  pending : ancestor < db.getBtcBlockHeight → ∀ target, db.rollbackTargetHeight = some target →
    db.rollbackNextHeight = some db.getBtcBlockHeight → target ≤ ancestor

section Store

variable {s t : HistoryState} {e : BalanceHistoryError} {ancestor target : Nat}

theorem Covered.of_height {db : BalanceHistoryDB} (h : db.getBtcBlockHeight ≤ ancestor) :
    Covered ancestor db :=
  ⟨fun _ => h, fun hlt => absurd hlt (Nat.not_lt.mpr h)⟩

theorem Covered.of_target {db : BalanceHistoryDB} (hp : db.rollbackInProgress = some 1)
    (ht : db.rollbackTargetHeight = some target) (hle : target ≤ ancestor) :
    Covered ancestor db := by
  refine ⟨fun hne => absurd hp hne, fun _ target' ht' _ => ?_⟩
  rw [ht] at ht'
  cases ht'
  exact hle

theorem RollbackStep.height_le {db db' : BalanceHistoryDB} (h : RollbackStep db db') :
    db'.getBtcBlockHeight ≤ db.getBtcBlockHeight := by
  cases h with
  | markers m => exact Nat.le_refl _
  | revert bundle found => exact Nat.sub_le _ 1

theorem RollbackSteps.height_le {db db' : BalanceHistoryDB} (h : RollbackSteps db db') :
    db'.getBtcBlockHeight ≤ db.getBtcBlockHeight := by
  induction h with
  | refl => exact Nat.le_refl _
  | tail _ hstep ih => exact Nat.le_trans hstep.height_le ih

/-- A rollback never raises the height. -/
theorem Follows.height_le {α : Type} {x : HistoryM α} (h : Follows RollbackStep x)
    (s : HistoryState) : (finalState (x s)).db.getBtcBlockHeight ≤ s.db.getBtcBlockHeight :=
  RollbackSteps.height_le (h s)

theorem rollbackBlocks_target (target' blocks : Nat) :
    Preserves (fun s : HistoryState => (s.db.rollbackInProgress, s.db.rollbackTargetHeight))
      (rollbackBlocks target' blocks) :=
  rollbackBlocks_preserves (fun _ _ _ => rfl) (fun _ _ => rfl) (fun _ _ => rfl) blocks

/-- The blocks above the target and then the markers leave every ancestor covered that is
not below the target. -/
theorem revertAndClear_covered {blocks : Nat} (hs : s.db.getBtcBlockHeight = target + blocks)
    (hp : s.db.rollbackInProgress = some 1) (ht : s.db.rollbackTargetHeight = some target)
    (hle : target ≤ ancestor) :
    Covered ancestor
      (finalState ((rollbackBlocks target blocks >>= fun _ => clearRollbackState) s)).db := by
  refine finalState_bind (P := fun t : HistoryState => Covered ancestor t.db) (fun e t h => ?_) (fun u t h => ?_)
  · have hkept := (rollbackBlocks_target target blocks).error h
    exact .of_target ((congrArg Prod.fst hkept).trans hp) ((congrArg Prod.snd hkept).trans ht) hle
  · have hend := rollbackBlocks_height hs h
    refine .of_height ((clearRollbackState_follows.height_le t).trans ?_)
    rw [hend]
    exact hle

/-- Whatever becomes of a resumed rollback, a covered ancestor stays covered. -/
theorem resumeRollbackIfNeeded_covered (h : Covered ancestor s.db) :
    Covered ancestor (finalState (resumeRollbackIfNeeded s)).db := by
  by_cases hp : s.db.rollbackInProgress = some 1
  · by_cases hlow : s.db.getBtcBlockHeight ≤ ancestor
    · exact .of_height ((resumeRollbackIfNeeded_follows.height_le s).trans hlow)
    · rcases resumeRollbackIfNeeded_pending hp with ⟨e, he⟩ | ⟨target, blocks, hr⟩
      · rw [he]
        exact h
      · have ht : s.db.rollbackTargetHeight = some target :=
          congrArg RollbackMarkers.target hr.pending
        have hn : s.db.rollbackNextHeight = some (target + blocks) :=
          congrArg RollbackMarkers.next hr.pending
        rw [← hr.covers.height] at hn
        rw [hr.resume_eq, ← bind_assoc, finalState_bind_pure]
        exact revertAndClear_covered hr.covers.height hp ht
          (h.pending (Nat.lt_of_not_le hlow) target ht hn)
  · rw [resumeRollbackIfNeeded_idle hp]
    exact h

/-- A rollback that returns an error has its ancestor covered, if the undo is available and
the marker is written, with its target in place of a stale one. -/
theorem rollbackToBlockHeight_covered (h : rollbackToBlockHeight ancestor s = .error e t)
    (hne : e ≠ .panic)
    (hundo : ancestor < s.db.getBtcBlockHeight →
      s.db.ensureRollbackUndoAvailable ancestor s.db.getBtcBlockHeight = .ok ())
    (hmark : ancestor < s.db.getBtcBlockHeight → s.faults[0]? ≠ some .err)
    (hstale : ancestor < s.db.getBtcBlockHeight → s.faults[1]? = some .err →
      ∀ target, s.db.rollbackTargetHeight = some target →
        s.db.rollbackNextHeight = some s.db.getBtcBlockHeight → target ≤ ancestor) :
    Covered ancestor t.db := by
  unfold rollbackToBlockHeight at h
  rw [readDb_bind] at h
  split at h
  · rename_i habove
    cases h
    exact .of_height (Nat.le_of_lt habove)
  · split at h
    · cases h
    · have hlt : ancestor < s.db.getBtcBlockHeight := by omega
      rw [readDb_bind] at h
      dsimp only [id] at h
      rw [liftExcept_ok_bind (hundo hlt)] at h
      rcases bind_eq_error h with h | ⟨_, s₁, h₁, h⟩
      · have hreport := (write_error h).2 hne
        exact absurd (by rw [hreport]; rfl) (hmark hlt)
      rcases bind_eq_error h with h | ⟨_, s₂, h₂, h⟩
      · have hreport := (write_error h).2 hne
        have hsecond : s.faults[1]? = some .err := by
          have hleft := congrArg HistoryState.faults (write_ok h₁)
          rw [hreport] at hleft
          have hget := congrArg (fun l : List IoResult => l[0]?) hleft
          simpa using hget.symm
        have hdb : t.db = { s.db with rollbackInProgress := some 1 } := by
          rw [(write_error h).1, write_ok h₁]
        rw [hdb]
        refine ⟨fun hp => absurd rfl hp, fun _ target ht hn => ?_⟩
        exact hstale hlt hsecond target ht hn
      have hdb₂ : s₂.db = { s.db with
          rollbackInProgress := some 1, rollbackTargetHeight := some ancestor } := by
        rw [write_ok h₂, write_ok h₁]
      rcases bind_eq_error h with h | ⟨_, s₃, h₃, h⟩
      · have hp : t.db.rollbackInProgress = some 1 := by rw [(write_error h).1, hdb₂]
        have ht : t.db.rollbackTargetHeight = some ancestor := by rw [(write_error h).1, hdb₂]
        exact .of_target hp ht (Nat.le_refl _)
      have hdb₃ : s₃.db = { s.db with
          rollbackInProgress := some 1, rollbackTargetHeight := some ancestor
          rollbackNextHeight := some s.db.getBtcBlockHeight } := by
        rw [write_ok h₃]
        dsimp only
        rw [hdb₂]
      have hheight : s₃.db.getBtcBlockHeight =
          ancestor + (s.db.getBtcBlockHeight - ancestor) := by
        rw [hdb₃]
        exact (Nat.add_sub_cancel' (Nat.le_of_lt hlt)).symm
      have hcovered := revertAndClear_covered hheight (by rw [hdb₃]) (by rw [hdb₃])
        (Nat.le_refl ancestor)
      rw [h] at hcovered
      exact hcovered

end Store

namespace Node

/-- The phases in which queries are answered. -/
def Serving (s : Node) : Prop := s.status.phase = .Indexing ∨ s.status.phase = .Synced

/-- While queries are answered the flag is set whenever the marker is, and the ancestor of
the last completed check is covered. -/
structure Guarded (s : Node) : Prop where
  flagged : s.Serving → s.runtime.rollbackInProgress = false → s.db.rollbackInProgress ≠ some 1
  covered : ∀ ancestor, s.lastCheck = some ancestor → Covered ancestor s.db

/-- No rollback is pending and the last completed check left nothing to do. -/
structure Clean (s : Node) : Prop where
  unmarked : s.db.rollbackInProgress ≠ some 1
  checked : s.lastCheck = none

variable {s t : Node} {α : Type}

theorem Clean.guarded (h : s.Clean) : s.Guarded where
  flagged _ _ := h.unmarked
  covered := by
    intro ancestor hl
    rw [h.checked] at hl
    cases hl

/-- A guarded process that reports itself ready has no marker and no divergence. -/
theorem Guarded.failsClosed (h : s.Guarded) (hready : s.readinessInfo.consensusReady = true) :
    s.db.rollbackInProgress ≠ some 1 ∧ ¬s.Unresolved := by
  have hflag : s.runtime.rollbackInProgress = false := by
    simp only [readinessInfo, Bool.and_eq_true, Bool.not_eq_true'] at hready
    exact hready.1.1.1.1.1.1.2
  have hserving : s.Serving := by
    simp only [readinessInfo, Bool.and_eq_true, Bool.not_eq_true', Bool.or_eq_false_iff,
      beq_eq_false_iff_ne] at hready
    obtain ⟨hinit, hload⟩ := hready.1.1.1.1.2
    unfold Serving
    cases hp : s.status.phase with
    | Initializing => exact absurd hp hinit
    | Loading => exact absurd hp hload
    | Indexing => exact .inl rfl
    | Synced => exact .inr rfl
  have hunmarked := h.flagged hserving hflag
  refine ⟨hunmarked, ?_⟩
  rintro ⟨ancestor, hl, hlt⟩
  exact absurd ((h.covered ancestor hl).resolved hunmarked) (Nat.not_le.mpr hlt)

theorem report_keeps {P : Node → Prop} {f : Node → Node} (hf : ∀ s, P s → P (f s))
    (hfaults : ∀ s faults, P s → P (s.withFaults faults)) : Keeps P (report f) := by
  refine Keeps.of_run (fun s hs => ?_)
  unfold report
  split
  · exact hf s hs
  · exact hfaults s _ hs
  · exact hf _ (hfaults s _ hs)

theorem report_ok {f : Node → Node} {u : Unit} (h : report f s = .ok u t) :
    t = f (s.withFaults s.history.faults.tail) := by
  unfold report at h
  split at h
  · rename_i hnil
    cases h
    rw [hnil, List.tail_nil, ← hnil]
    rfl
  · cases h
  · rename_i hcons
    cases h
    rw [hcons]
    rfl

theorem report_error {f : Node → Node} {e : BalanceHistoryError} (h : report f s = .error e t) :
    e = .panic ∧ ∃ faults, t = s.withFaults faults := by
  unfold report at h
  split at h
  · cases h
  · cases h
    exact ⟨rfl, _, rfl⟩
  · cases h

theorem onHistory_ok {x : HistoryM α} {a : α} (h : onHistory x s = .ok a t) :
    ∃ history, x s.history = .ok a history ∧ t = { s with history } := by
  unfold onHistory at h
  split at h
  · rename_i heq
    cases h
    exact ⟨_, heq, rfl⟩
  · cases h

theorem onHistory_error {x : HistoryM α} {e : BalanceHistoryError}
    (h : onHistory x s = .error e t) :
    ∃ history, x s.history = .error e history ∧ t = { s with history } := by
  unfold onHistory at h
  split at h
  · cases h
  · rename_i heq
    cases h
    exact ⟨_, heq, rfl⟩

theorem Clean.congr (h : s.Clean) (hdb : t.db = s.db) (hcheck : t.lastCheck = s.lastCheck) :
    t.Clean :=
  ⟨by rw [hdb]; exact h.unmarked, by rw [hcheck]; exact h.checked⟩

theorem Guarded.withFaults (h : s.Guarded) (faults : List IoResult) :
    (s.withFaults faults).Guarded :=
  ⟨h.flagged, h.covered⟩

/-- A change that leaves the flag and the store, and does not start to answer queries. -/
theorem Guarded.congr (h : s.Guarded) (hserving : t.Serving → s.Serving)
    (hflag : t.runtime.rollbackInProgress = s.runtime.rollbackInProgress) (hdb : t.db = s.db)
    (hcheck : t.lastCheck = s.lastCheck) : t.Guarded := by
  refine ⟨fun hs hopen => ?_, fun ancestor hl => ?_⟩
  · rw [hdb]
    rw [hflag] at hopen
    exact h.flagged (hserving hs) hopen
  · rw [hdb]
    rw [hcheck] at hl
    exact h.covered ancestor hl

/-- An update of the status leaves a clean process clean. -/
theorem report_clean {f : Node → Node} (hdb : ∀ s, (f s).db = s.db)
    (hcheck : ∀ s, (f s).lastCheck = s.lastCheck) : Keeps Clean (report f) :=
  report_keeps (fun s hs => hs.congr (hdb s) (hcheck s)) (fun _ _ hs => hs.congr rfl rfl)

/-- No rollback is pending. -/
structure Resting (s : Node) : Prop where
  unmarked : s.db.rollbackInProgress ≠ some 1
  covered : ∀ ancestor, s.lastCheck = some ancestor → Covered ancestor s.db

theorem Resting.guarded (h : s.Resting) : s.Guarded := ⟨fun _ _ => h.unmarked, h.covered⟩

theorem Resting.congr (h : s.Resting) (hdb : t.db = s.db) (hcheck : t.lastCheck = s.lastCheck) :
    t.Resting := by
  refine ⟨by rw [hdb]; exact h.unmarked, fun ancestor hl => ?_⟩
  rw [hdb]
  rw [hcheck] at hl
  exact h.covered ancestor hl

theorem setRollbackInProgress_resting (inProgress : Bool) :
    Keeps Resting (setRollbackInProgress inProgress) :=
  report_keeps (fun _ hs => hs.congr rfl rfl) (fun _ _ hs => hs.congr rfl rfl)

theorem clearCaches_resting : Keeps Resting (onHistory clearCaches) :=
  fun _ hs => hs.congr rfl rfl

/-- The resume of a pending rollback, once the flag is set if there is one. -/
def finishResume : NodeM Bool := do
  let resumed ← onHistory resumeRollbackIfNeeded
  setRollbackInProgress false
  if resumed then
    onHistory clearCaches
  return resumed

theorem resumePendingRollbackIfNeeded_eq : resumePendingRollbackIfNeeded =
    onHistory (readDb isRollbackInProgress) >>= fun pending =>
      if pending then setRollbackInProgress true >>= fun _ => finishResume else finishResume :=
  rfl

theorem finishResume_guarded (hflag : s.db.rollbackInProgress = some 1 →
      s.runtime.rollbackInProgress = true)
    (hcovered : ∀ ancestor, s.lastCheck = some ancestor → Covered ancestor s.db) :
    (finalState (finishResume s)).Guarded ∧
      ∀ resumed t, finishResume s = .ok resumed t → t.Resting := by
  have hstore : ∀ ancestor, s.lastCheck = some ancestor →
      Covered ancestor (finalState (resumeRollbackIfNeeded s.history)).db :=
    fun ancestor hl => resumeRollbackIfNeeded_covered (hcovered ancestor hl)
  unfold finishResume
  cases hres : onHistory resumeRollbackIfNeeded s with
  | error e t =>
    rw [bind_error hres]
    refine ⟨?_, fun _ _ h => by cases h⟩
    obtain ⟨history, hx, rfl⟩ := onHistory_error hres
    rw [hx] at hstore
    refine ⟨fun _ hopen => ?_, hstore⟩
    have hidle : s.history.db.rollbackInProgress ≠ some 1 := by
      intro hp
      change s.runtime.rollbackInProgress = false at hopen
      rw [hflag hp] at hopen
      cases hopen
    rw [resumeRollbackIfNeeded_idle hidle] at hx
    cases hx
  | ok resumed t =>
    rw [bind_ok hres]
    obtain ⟨history, hx, rfl⟩ := onHistory_ok hres
    have hresting : Resting { s with history } := by
      refine ⟨?_, ?_⟩
      · rcases resumeRollbackIfNeeded_ok hx with ⟨hidle, -, rfl⟩ | ⟨-, -, hnone⟩
        · exact hidle
        · show history.db.rollbackInProgress ≠ some 1
          rw [hnone]
          exact (Option.some_ne_none 1).symm
      · rw [hx] at hstore
        exact hstore
    have hkeeps : Keeps Resting (do
        setRollbackInProgress false
        if resumed then
          onHistory clearCaches
        return resumed) := by
      refine Keeps.bind (setRollbackInProgress_resting false) (fun _ => ?_)
      refine Keeps.ite _ (fun _ => ?_) (fun _ => Keeps.pure _)
      exact Keeps.bind clearCaches_resting (fun _ => Keeps.pure _)
    exact ⟨(hkeeps.run hresting).guarded, fun _ _ h => Triple.ok hkeeps hresting h⟩

/-- What the resume of a pending rollback leaves, and that nothing is pending once it has
succeeded. -/
theorem resumePendingRollbackIfNeeded_guarded (h : s.Guarded) :
    (finalState (resumePendingRollbackIfNeeded s)).Guarded ∧
      ∀ resumed t, resumePendingRollbackIfNeeded s = .ok resumed t → t.Resting := by
  have hread : onHistory (readDb isRollbackInProgress) s =
      .ok s.db.isRollbackInProgress s := rfl
  rw [resumePendingRollbackIfNeeded_eq, bind_ok hread]
  split
  · cases hset : setRollbackInProgress true s with
    | error e t =>
      rw [bind_error hset]
      obtain ⟨-, faults, rfl⟩ := report_error hset
      exact ⟨h.withFaults faults, fun _ _ hok => by cases hok⟩
    | ok u t =>
      rw [bind_ok hset]
      obtain rfl := report_ok hset
      exact finishResume_guarded (fun _ => rfl) h.covered
  · rename_i hidle
    refine finishResume_guarded (fun hp => ?_) h.covered
    exact absurd (decide_eq_true hp) hidle

/-- A rollback of a store gets as far as its marker: the undo is available, the marker is
written, and so is the target unless a stale one lies no higher. -/
def MarksRollback (db : BalanceHistoryDB) (ancestor : Nat) (faults : List IoResult) : Prop :=
  ancestor < db.getBtcBlockHeight →
    db.ensureRollbackUndoAvailable ancestor db.getBtcBlockHeight = .ok () ∧
      faults[0]? ≠ some .err ∧ (faults[1]? = some .err →
        ∀ target ∈ db.rollbackTargetHeight,
          db.rollbackNextHeight = some db.getBtcBlockHeight → target ≤ ancestor)

instance (db : BalanceHistoryDB) (ancestor : Nat) (faults : List IoResult) :
    Decidable (MarksRollback db ancestor faults) :=
  inferInstanceAs (Decidable (_ → _))

/-- A rollback cannot raise the height above an ancestor that it covers. -/
theorem Resting.lowered (h : s.Resting) (ancestor : Nat) (hl : s.lastCheck = some ancestor)
    {x : HistoryM α} (hx : Follows RollbackStep x) :
    Covered ancestor (finalState (x s.history)).db :=
  .of_height ((hx.height_le s.history).trans ((h.covered ancestor hl).resolved h.unmarked))

/-- The rollback that a check asks for, with the flag set. -/
theorem rollback_guarded {ancestor : Nat} (h : s.Resting)
    (hflag : s.runtime.rollbackInProgress = true)
    (hmark : MarksRollback s.db ancestor s.history.faults) :
    (finalState (onError (onHistory (rollbackToBlockHeight ancestor))
        (noteCheck (some ancestor)) s)).Guarded ∧
      ∀ u t, onError (onHistory (rollbackToBlockHeight ancestor))
        (noteCheck (some ancestor)) s = .ok u t → t.Resting := by
  have hlowered : ∀ ancestor', s.lastCheck = some ancestor' →
      Covered ancestor' (finalState (rollbackToBlockHeight ancestor s.history)).db :=
    fun ancestor' hl => h.lowered ancestor' hl (rollbackToBlockHeight_follows ancestor)
  unfold onError onHistory
  cases hx : rollbackToBlockHeight ancestor s.history with
  | ok u history =>
    rw [hx] at hlowered
    have hresting : Resting { s with history } := by
      refine ⟨?_, hlowered⟩
      rcases rollbackToBlockHeight_marker hx with hnone | rfl
      · show history.db.rollbackInProgress ≠ some 1
        rw [hnone]
        exact (Option.some_ne_none 1).symm
      · exact h.unmarked
    refine ⟨hresting.guarded, fun u t hok => ?_⟩
    cases hok
    exact hresting
  | error e history =>
    have hopen : ∀ t : Node, t.runtime = s.runtime → ¬t.runtime.rollbackInProgress = false := by
      intro t hruntime
      rw [hruntime, hflag]
      exact Bool.noConfusion
    by_cases hpanic : e = .panic
    · subst hpanic
      rw [hx] at hlowered
      exact ⟨⟨fun _ hf => absurd hf (hopen _ rfl), hlowered⟩, fun _ _ hok => by cases hok⟩
    · have hcovered : Covered ancestor history.db :=
        rollbackToBlockHeight_covered hx hpanic (fun hlt => (hmark hlt).1)
          (fun hlt => (hmark hlt).2.1) (fun hlt => (hmark hlt).2.2)
      have hnoted : Guarded (noteCheck (some ancestor) { s with history }) := by
        refine ⟨fun _ hf => absurd hf (hopen _ rfl), fun ancestor' hl => ?_⟩
        cases hl
        exact hcovered
      cases e <;> first
        | exact absurd rfl hpanic
        | exact ⟨hnoted, fun _ _ hok => by cases hok⟩

/-- The end of a reorg check whose rollback has succeeded. -/
def finishRollback (ancestorHeight : Nat) : NodeM Nat := do
  setRollbackInProgress false
  onHistory clearCaches
  modify (noteCheck none)
  return ancestorHeight

theorem finishRollback_resting (ancestorHeight : Nat) :
    Triple Resting (finishRollback ancestorHeight) (fun _ => Clean) (fun _ => Resting) := by
  refine Triple.bind (setRollbackInProgress_resting false) (fun _ => ?_)
  refine Triple.bind clearCaches_resting (fun _ s hs => ?_)
  exact ⟨hs.unmarked, rfl⟩

/-- The rollback to an ancestor, from the moment the flag is set. -/
def rollbackTo (ancestorHeight : Nat) : NodeM Nat := do
  setRollbackInProgress true
  onError (onHistory (rollbackToBlockHeight ancestorHeight)) (noteCheck (some ancestorHeight))
  finishRollback ancestorHeight

theorem rollbackTo_guarded {ancestorHeight : Nat} (h : s.Resting)
    (hmark : MarksRollback s.db ancestorHeight s.history.faults.tail) :
    (finalState (rollbackTo ancestorHeight s)).Guarded ∧
      ∀ height t, rollbackTo ancestorHeight s = .ok height t → t.Clean := by
  unfold rollbackTo
  cases hset : setRollbackInProgress true s with
  | error e t =>
    rw [bind_error hset]
    obtain ⟨-, faults, rfl⟩ := report_error hset
    exact ⟨h.guarded.withFaults faults, fun _ _ hok => by cases hok⟩
  | ok u s₁ =>
    rw [bind_ok hset]
    have hs₁ := report_ok hset
    have hresting : s₁.Resting := h.congr (by rw [hs₁]; rfl) (by rw [hs₁]; rfl)
    have hflag : s₁.runtime.rollbackInProgress = true := by rw [hs₁]
    have hmark₁ : MarksRollback s₁.db ancestorHeight s₁.history.faults := by
      rw [hs₁]
      exact hmark
    obtain ⟨hguarded, hrested⟩ := rollback_guarded hresting hflag hmark₁
    refine ⟨finalState_bind (fun e t hroll => ?_) (fun u t hroll => ?_), fun height t hok => ?_⟩
    · rw [hroll] at hguarded
      exact hguarded
    · have hend := finishRollback_resting ancestorHeight t (hrested u t hroll)
      cases hfinish : finishRollback ancestorHeight t with
      | ok height t' =>
        rw [hfinish] at hend
        exact hend.guarded
      | error e t' =>
        rw [hfinish] at hend
        exact hend.guarded
    · obtain ⟨u, s₂, hroll, hok⟩ := bind_eq_ok hok
      exact (finishRollback_resting ancestorHeight).ok (hrested u s₂ hroll) hok

theorem find_eq (answers : ReorgAnswers) (currentHeight latestBtcHeight : Nat) (s : Node) :
    onHistory (do liftExcept (findReorgCommonAncestorHeight (← readDb id) answers
      currentHeight latestBtcHeight)) s =
      match findReorgCommonAncestorHeight s.db answers currentHeight latestBtcHeight with
      | .ok found => .ok found s
      | .error e => .error e s := by
  show onHistory (readDb id >>= fun db => liftExcept (findReorgCommonAncestorHeight db answers
    currentHeight latestBtcHeight)) s = _
  unfold onHistory
  rw [readDb_bind]
  dsimp only [id]
  unfold Node.db
  cases findReorgCommonAncestorHeight s.history.db answers currentHeight latestBtcHeight <;> rfl

/-- A reorg check leaves the process guarded, and clean if it succeeds. -/
theorem reconcileReorgIfNeeded_guarded {answers : ReorgAnswers}
    {currentHeight latestBtcHeight : Nat} (h : s.Resting)
    (hmark : ∀ ancestor, findReorgCommonAncestorHeight s.db answers currentHeight latestBtcHeight =
      .ok (some ancestor) → MarksRollback s.db ancestor s.history.faults.tail) :
    (finalState (reconcileReorgIfNeeded answers currentHeight latestBtcHeight s)).Guarded ∧
      ∀ height t, reconcileReorgIfNeeded answers currentHeight latestBtcHeight s = .ok height t →
        t.Clean := by
  have hfind := find_eq answers currentHeight latestBtcHeight s
  unfold reconcileReorgIfNeeded
  cases hf : findReorgCommonAncestorHeight s.db answers currentHeight latestBtcHeight with
  | error e =>
    rw [hf] at hfind
    rw [bind_error hfind]
    exact ⟨h.guarded, fun _ _ hok => by cases hok⟩
  | ok found =>
    rw [hf] at hfind
    rw [bind_ok hfind]
    cases found with
    | none =>
      have hclean : (noteCheck none s).Clean := ⟨h.unmarked, rfl⟩
      refine ⟨hclean.guarded, fun height t hok => ?_⟩
      cases hok
      exact hclean
    | some ancestor => exact rollbackTo_guarded h (hmark ancestor hf)

theorem updateTotal_clean (total : Nat) : Keeps Clean (updateTotal total) :=
  report_clean (fun _ => rfl) (fun _ => rfl)

theorem updateCurrent_clean (current : Nat) : Keeps Clean (updateCurrent current) :=
  report_clean (fun _ => rfl) (fun _ => rfl)

theorem startIndex_clean (total current : Nat) : Keeps Clean (startIndex total current) := by
  refine Keeps.bind (fun s hs => ?_) (fun _ => ?_)
  · exact ⟨hs.unmarked, hs.checked⟩
  · exact Keeps.bind (report_clean (fun _ => rfl) (fun _ => rfl)) (fun _ =>
      Keeps.bind (updateTotal_clean total) (fun _ => updateCurrent_clean current))

/-- The rollback that a reorg check would ask for gets as far as its marker. -/
def CheckMarks (db : BalanceHistoryDB) (latestBtcHeight : Option Nat) (answers : ReorgAnswers)
    (faults : List IoResult) : Prop :=
  match latestBtcHeight with
  | none => True
  | some latest =>
    match findReorgCommonAncestorHeight db answers db.getBtcBlockHeight latest with
    | .ok (some ancestor) => MarksRollback db ancestor faults.tail
    | _ => True

instance (db : BalanceHistoryDB) (latestBtcHeight : Option Nat) (answers : ReorgAnswers)
    (faults : List IoResult) : Decidable (CheckMarks db latestBtcHeight answers faults) :=
  match latestBtcHeight with
  | none => .isTrue trivial
  | some latest => by
    unfold CheckMarks
    dsimp only
    split <;> infer_instance

theorem checkReorg_guarded {latestBtcHeight : Option Nat} {answers : ReorgAnswers} (h : s.Resting)
    (hmark : CheckMarks s.db latestBtcHeight answers s.history.faults) :
    (finalState (checkReorg latestBtcHeight answers s)).Guarded ∧
      ∀ u t, checkReorg latestBtcHeight answers s = .ok u t → t.Clean := by
  unfold checkReorg
  cases latestBtcHeight with
  | none => exact ⟨h.guarded, fun _ _ hok => by cases hok⟩
  | some latest =>
    have hread : onHistory (readDb getBtcBlockHeight) s = .ok s.db.getBtcBlockHeight s := rfl
    dsimp only
    rw [bind_ok hread]
    have hmarks : ∀ ancestor, findReorgCommonAncestorHeight s.db answers s.db.getBtcBlockHeight
        latest = .ok (some ancestor) → MarksRollback s.db ancestor s.history.faults.tail := by
      intro ancestor hf
      unfold CheckMarks at hmark
      dsimp only at hmark
      rw [hf] at hmark
      exact hmark
    obtain ⟨hguarded, hclean⟩ := reconcileReorgIfNeeded_guarded h hmarks
    have hrest : ∀ height, Keeps Clean (do
        if (← get).indexStarted then
          updateTotal latest
          updateCurrent height
        else
          startIndex latest height : NodeM Unit) := by
      intro height
      refine Keeps.bind Keeps.get (fun started => ?_)
      split
      · exact Keeps.bind (updateTotal_clean latest) (fun _ => updateCurrent_clean height)
      · exact startIndex_clean latest height
    refine ⟨finalState_bind (fun e t hrec => ?_) (fun height t hrec => ?_), fun u t hok => ?_⟩
    · rw [hrec] at hguarded
      exact hguarded
    · exact ((hrest height).run (hclean height t hrec)).guarded
    · obtain ⟨height, s₁, hrec, hok⟩ := bind_eq_ok hok
      exact Triple.ok (hrest height) (hclean height s₁ hrec) hok

/-- A batch writes no rollback marker. -/
theorem processBlockBatch_clean (config : SyncConfig) (answers : BatchAnswers)
    (latestBtcHeight : Nat) : Keeps Clean (processBlockBatch config answers latestBtcHeight) := by
  have hstore : Keeps Clean (onHistory (Balances.processBlockBatch config answers
      latestBtcHeight)) := by
    refine Keeps.of_run (fun s hs => ?_)
    have hmarker : (finalState (Balances.processBlockBatch config answers latestBtcHeight
        s.history)).db.rollbackInProgress ≠ some 1 := by
      rcases processBlockBatch_final config answers latestBtcHeight s.history with
        ⟨fs, hf⟩ | ⟨data, update, db, fs, -, hprune, hf⟩
      · rw [hf]
        exact hs.unmarked
      · rw [hf]
        cases hprune with
        | skip => exact hs.unmarked
        | prune supportedFrom supported => exact hs.unmarked
    unfold onHistory
    cases hx : Balances.processBlockBatch config answers latestBtcHeight s.history with
    | ok u history =>
      rw [hx] at hmarker
      exact ⟨hmarker, hs.checked⟩
    | error e history =>
      rw [hx] at hmarker
      exact ⟨hmarker, hs.checked⟩
  refine Keeps.bind hstore (fun _ => Keeps.bind (fun s hs => ?_) (fun height =>
    updateCurrent_clean height))
  exact hs

theorem finishRound_clean : Keeps Clean finishRound :=
  Keeps.bind (fun _ hs => hs) (fun height => updateCurrent_clean height)

end Node

namespace NodeRun

open Node

variable {config : SyncConfig} {w w' : NodeRun} {l : NodeLabel}

/-- Every rollback that a reorg check asks for gets as far as its marker. -/
def MarksRollbacks (w : NodeRun) : NodeLabel → Prop
  | .check latestBtcHeight answers faults => CheckMarks w.node.db latestBtcHeight answers faults
  | _ => True

instance (w : NodeRun) : (l : NodeLabel) → Decidable (MarksRollbacks w l)
  | .check latestBtcHeight answers faults =>
    inferInstanceAs (Decidable (CheckMarks w.node.db latestBtcHeight answers faults))
  | .resume _ | .batch _ _ | .finish _ | .load _ _ | .loaded _ _ | .evict _ _ | .shrink _ _ |
    .rpcAlive _ | .requestShutdown | .restart => inferInstanceAs (Decidable True)

/-- The process is guarded, wherever its thread stands. -/
structure GuardedRun (w : NodeRun) : Prop where
  guarded : w.node.Guarded
  resting : w.phase = .resumed → w.node.Resting
  clean : ∀ latestBtcHeight, w.phase = .syncing latestBtcHeight → w.node.Clean

theorem GuardedRun.opened (db : BalanceHistoryDB) (snapshotInstall : SnapshotInstall)
    {lastCheck : Option Nat} (h : ∀ ancestor, lastCheck = some ancestor → Covered ancestor db) :
    GuardedRun ⟨.opened db snapshotInstall lastCheck, .idle⟩ := by
  refine ⟨⟨fun hserving => ?_, h⟩, fun hphase => (nomatch hphase), fun _ hphase => (nomatch hphase)⟩
  rcases hserving with hs | hs <;> cases hs

/-- A step of the thread that leaves a guarded process. -/
theorem GuardedRun.settle {result : EStateM.Result BalanceHistoryError Node Unit}
    {next failed : ThreadPhase} (hg : (finalState result).Guarded)
    (hresting : ∀ u t, result = .ok u t → next = .resumed → t.Resting)
    (hclean : ∀ u t latestBtcHeight, result = .ok u t → next = .syncing latestBtcHeight → t.Clean)
    (hfailed : failed = .idle ∨ ∀ e t, result = .error e t → e = .panic) :
    GuardedRun (settle result next failed) := by
  cases result with
  | ok u t =>
    exact ⟨hg.withFaults [], fun hphase => (hresting u t rfl hphase).congr rfl rfl,
      fun latest hphase => (hclean u t latest rfl hphase).congr rfl rfl⟩
  | error e t =>
    by_cases hpanic : e = .panic
    · subst hpanic
      exact ⟨hg.withFaults [], fun hphase => (nomatch hphase), fun _ hphase => (nomatch hphase)⟩
    · rcases hfailed with rfl | hfailed
      · cases e <;> exact ⟨hg.withFaults [], fun hphase => (nomatch hphase),
          fun _ hphase => (nomatch hphase)⟩
      · exact absurd (hfailed e t rfl) hpanic

/-- A change of the status alone, at any point of a round. -/
theorem GuardedRun.status {x : NodeM Unit} (h : GuardedRun w) (hg : Keeps Guarded x)
    (hr : Keeps Resting x) (hc : Keeps Clean x) (hx : ∀ s e t, x s = .error e t → e = .panic)
    (faults : List IoResult) :
    GuardedRun (NodeRun.settle (x (w.node.withFaults faults)) w.phase w.phase) := by
  refine .settle (hg.run (h.guarded.withFaults faults)) (fun u t hok hphase => ?_)
    (fun u t latest hok hphase => ?_) (.inr (fun e t he => hx _ e t he))
  · have hrest : (w.node.withFaults faults).Resting := (h.resting hphase).congr rfl rfl
    exact Triple.ok hr hrest hok
  · have hclean : (w.node.withFaults faults).Clean := (h.clean latest hphase).congr rfl rfl
    exact Triple.ok hc hclean hok

theorem updatePhase_loading_guarded : Keeps Guarded (updatePhase .Loading) := by
  refine report_keeps (fun s hs => ?_) (fun _ _ hs => hs.withFaults _)
  refine hs.congr (fun hserving => ?_) rfl rfl rfl
  rcases hserving with hp | hp <;> cases hp

theorem startLoad_status (total : Nat) :
    Keeps Guarded (startLoad total) ∧ Keeps Resting (startLoad total) ∧
      Keeps Clean (startLoad total) ∧ ∀ s e t, startLoad total s = .error e t → e = .panic := by
  refine ⟨Keeps.bind updatePhase_loading_guarded (fun _ => ?_), Keeps.bind ?_ (fun _ => ?_),
    Keeps.bind (report_clean (fun _ => rfl) (fun _ => rfl)) (fun _ => updateTotal_clean total), ?_⟩
  · exact report_keeps (fun s hs => hs.congr id rfl rfl rfl) (fun _ _ hs => hs.withFaults _)
  · exact report_keeps (fun s hs => hs.congr rfl rfl) (fun _ _ hs => hs.congr rfl rfl)
  · exact report_keeps (fun s hs => hs.congr rfl rfl) (fun _ _ hs => hs.congr rfl rfl)
  · intro s e t h
    rcases bind_eq_error h with h | ⟨_, s₁, _, h⟩
    · exact (report_error h).1
    · exact (report_error h).1

/-- A shrink leaves the store and the status alone. -/
theorem shrinkCaches_status (lastUtxos : List OutPoint) (lastBalances : List USDBScriptHash) :
    let x := onHistory (shrinkCaches lastUtxos lastBalances)
    Keeps Guarded x ∧ Keeps Resting x ∧ Keeps Clean x ∧
      ∀ s e t, x s = .error e t → e = .panic := by
  intro x
  have hfinal : ∀ s, ∃ history : HistoryState, history.db = s.db ∧
      finalState (x s) = { s with history } := by
    intro s
    refine ⟨finalState (shrinkCaches lastUtxos lastBalances s.history), shrinkCaches_db _ _ _, ?_⟩
    show finalState (onHistory _ s) = _
    unfold onHistory
    cases shrinkCaches lastUtxos lastBalances s.history <;> rfl
  refine ⟨Keeps.of_run (fun s hs => ?_), Keeps.of_run (fun s hs => ?_),
    Keeps.of_run (fun s hs => ?_), fun s e t h => ?_⟩
  · obtain ⟨history, hdb, hx⟩ := hfinal s
    rw [hx]
    exact hs.congr id rfl hdb rfl
  · obtain ⟨history, hdb, hx⟩ := hfinal s
    rw [hx]
    exact hs.congr hdb rfl
  · obtain ⟨history, hdb, hx⟩ := hfinal s
    rw [hx]
    exact hs.congr hdb rfl
  · obtain ⟨history, hrun, -⟩ := onHistory_error h
    rcases shrinkCaches_cases lastUtxos lastBalances s.history with ⟨_, _, -, -, hok⟩ | ⟨_, -, herr⟩
    · rw [hok] at hrun
      cases hrun
    · rw [herr] at hrun
      cases hrun
      rfl

theorem Enabled.batch {answers : BatchAnswers} {faults : List IoResult}
    (h : Enabled w (.batch answers faults)) :
    ∃ latestBtcHeight, w.phase = .syncing latestBtcHeight := by
  unfold Enabled at h
  dsimp only at h
  split at h
  · exact ⟨_, ‹_›⟩
  · cases h

theorem Enabled.finish {faults : List IoResult} (h : Enabled w (.finish faults)) :
    ∃ latestBtcHeight, w.phase = .syncing latestBtcHeight := by
  unfold Enabled at h
  dsimp only at h
  split at h
  · exact ⟨_, ‹_›⟩
  · cases h

/-- One step of the thread, of another task, or a restart. -/
theorem Step.guardedRun (h : GuardedRun w) (hmark : MarksRollbacks w l)
    (hs : Step config w l w') : GuardedRun w' := by
  obtain ⟨henabled, rfl⟩ := hs
  cases l with
  | resume faults =>
    obtain ⟨hg, hr⟩ := resumePendingRollbackIfNeeded_guarded (h.guarded.withFaults faults)
    refine .settle ?_ (fun u t hok _ => ?_) (fun u t latest _ hphase => nomatch hphase) (.inl rfl)
    · refine finalState_bind (fun e t he => ?_) (fun resumed t hok => ?_)
      · rw [he] at hg
        exact hg
      · exact (hr resumed t hok).guarded
    · obtain ⟨resumed, s₁, hres, hok⟩ := bind_eq_ok hok
      cases hok
      exact hr resumed _ hres
  | check latestBtcHeight answers faults =>
    have hrest : (w.node.withFaults faults).Resting := (h.resting henabled).congr rfl rfl
    obtain ⟨hg, hc⟩ := checkReorg_guarded hrest hmark
    exact .settle hg (fun u t _ hphase => nomatch hphase)
      (fun u t latest hok _ => hc u t hok) (.inl rfl)
  | batch answers faults =>
    obtain ⟨latestBtcHeight, hphase⟩ := Enabled.batch henabled
    have hclean : (w.node.withFaults faults).Clean := (h.clean _ hphase).congr rfl rfl
    have hkeeps := processBlockBatch_clean config answers latestBtcHeight
    simp only [next, hphase]
    exact .settle (hkeeps.run hclean).guarded (fun u t _ hphase => nomatch hphase)
      (fun u t latest hok _ => Triple.ok hkeeps hclean hok) (.inl rfl)
  | finish faults =>
    obtain ⟨latestBtcHeight, hphase⟩ := Enabled.finish henabled
    have hclean : (w.node.withFaults faults).Clean := (h.clean _ hphase).congr rfl rfl
    exact .settle (finishRound_clean.run hclean).guarded (fun u t _ hphase => nomatch hphase)
      (fun u t latest _ hphase => nomatch hphase) (.inl rfl)
  | load total faults =>
    obtain ⟨hg, hr, hc, hx⟩ := startLoad_status total
    exact h.status hg hr hc hx faults
  | loaded current faults =>
    have hg : Keeps Guarded (updateCurrent current) :=
      report_keeps (fun s hs => hs.congr id rfl rfl rfl) (fun _ _ hs => hs.withFaults _)
    have hr : Keeps Resting (updateCurrent current) :=
      report_keeps (fun s hs => hs.congr rfl rfl) (fun _ _ hs => hs.congr rfl rfl)
    exact h.status hg hr (updateCurrent_clean current) (fun s e t he => (report_error he).1) faults
  | evict keepUtxo keepBalance =>
    exact ⟨h.guarded.congr id rfl rfl rfl, fun hphase => (h.resting hphase).congr rfl rfl,
      fun latest hphase => (h.clean latest hphase).congr rfl rfl⟩
  | shrink lastUtxos lastBalances =>
    obtain ⟨hg, hr, hc, hx⟩ := shrinkCaches_status lastUtxos lastBalances
    exact h.status hg hr hc hx []
  | rpcAlive alive =>
    exact ⟨h.guarded.congr id rfl rfl rfl, fun hphase => (h.resting hphase).congr rfl rfl,
      fun latest hphase => (h.clean latest hphase).congr rfl rfl⟩
  | requestShutdown =>
    exact ⟨h.guarded.congr id rfl rfl rfl, fun hphase => (h.resting hphase).congr rfl rfl,
      fun latest hphase => (h.clean latest hphase).congr rfl rfl⟩
  | restart => exact .opened _ _ h.guarded.covered

/-- In every run in which each rollback that a reorg check asks for gets as far as its
marker, whatever fails or is killed later, a process that reports itself ready has no
durable rollback marker and no divergence left from its last completed check. -/
theorem Run.fails_closed (config : SyncConfig) (db : BalanceHistoryDB)
    (snapshotInstall : SnapshotInstall) (w : NodeRun)
    (h : Run config MarksRollbacks (opened db snapshotInstall) w)
    (hready : w.node.readinessInfo.consensusReady = true) :
    w.node.db.rollbackInProgress ≠ some 1 ∧ ¬w.node.Unresolved := by
  have hinit : GuardedRun (opened db snapshotInstall) :=
    .opened db snapshotInstall (fun ancestor hl => nomatch hl)
  have hrun := h.induct hinit (fun w l w' hw hc hs => hs.guardedRun hw hc)
  exact hrun.guarded.failsClosed hready

section Sample

/-- A process that serves its first block. -/
def servingFirst : List NodeLabel :=
  [.rpcAlive true, .resume [], .check (some 1) ⟨none, fun _ => none⟩ [],
    .batch firstBlockAnswers [], .finish []]

/-- The node has another block at height 1. -/
def forkedAnswers : ReorgAnswers := ⟨some 99, fun _ => some 99⟩

/-- The flag is set and the markers are written, and the write that reverts the block fails. -/
def brokenOff : List IoResult := [.ok, .ok, .ok, .ok, .err]

def otherBlockAnswers : BatchAnswers := ⟨plainEnv, [coinbaseBlock 99 10 12], 1⟩

/-- The rollback breaks off, is resumed, and the other block is taken over. -/
def takingOver : List NodeLabel :=
  [.resume [], .check (some 1) forkedAnswers brokenOff, .resume [],
    .check (some 1) forkedAnswers [], .batch otherBlockAnswers [], .finish []]

/-- The first write of the rollback fails, and the next round begins. -/
def unmarked : List NodeLabel :=
  [.resume [], .check (some 1) forkedAnswers [.ok, .err], .resume []]

def reached (labels : List NodeLabel) : NodeRun :=
  labels.foldl (next plainConfig) (opened .empty ⟨false, none⟩)

end Sample

/-- A rollback that breaks off behind its marker is resumed before the process reports
itself ready again. -/
theorem Run.fails_closed_takingOver :
    (reached servingFirst).node.readinessInfo.consensusReady = true ∧
      (reached (servingFirst ++ takingOver)).node.readinessInfo.consensusReady = true ∧
      (reached (servingFirst ++ takingOver)).node.db.rollbackInProgress ≠ some 1 ∧
      ¬(reached (servingFirst ++ takingOver)).node.Unresolved := by
  have hfollows : Follows plainConfig MarksRollbacks (opened .empty ⟨false, none⟩)
      (servingFirst ++ takingOver) := by decide +kernel
  have hready : (reached (servingFirst ++ takingOver)).node.readinessInfo.consensusReady = true := by
    decide +kernel
  refine ⟨by decide +kernel, hready, ?_⟩
  exact Run.fails_closed plainConfig .empty ⟨false, none⟩ _ (Run.of_follows (.refl _) hfollows) hready

/-- The marker of a rollback cannot be written, and the next round clears the flag: the
process reports itself ready on a block that its last reorg check found to be forked off. -/
theorem Run.ready_on_fork :
    ¬∀ (config : SyncConfig) (db : BalanceHistoryDB) (snapshotInstall : SnapshotInstall)
      (w : NodeRun), Run config (fun _ _ => True) (opened db snapshotInstall) w →
      w.node.readinessInfo.consensusReady = true →
      w.node.db.rollbackInProgress ≠ some 1 ∧ ¬w.node.Unresolved := by
  intro hclaim
  have hfollows : Follows plainConfig (fun _ _ => True) (opened .empty ⟨false, none⟩)
      (servingFirst ++ unmarked) := by decide +kernel
  have hended := hclaim plainConfig .empty ⟨false, none⟩ _ (Run.of_follows (.refl _) hfollows)
    (by decide +kernel)
  exact hended.2 ⟨0, by decide +kernel, by decide +kernel⟩

end NodeRun

end Usdb.Balances
