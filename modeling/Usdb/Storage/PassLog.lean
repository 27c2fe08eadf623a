import Usdb.Storage.PassQueries
import Usdb.Storage.Rollback

namespace Usdb

open Framework

namespace MinerPassStorage

/-- The row with the greatest history id of a pass. -/
def lastHistoryRow (ps : MinerPassStorage) (id : InscriptionId) : Option PassHistoryRow :=
  maxBy (·.id) (ps.passStateHistory.filter (fun r => r.inscriptionId = id))

/-- The table shows every pass as its last history row does, and the two orders in
which the queries look for the last row at a height find the same one. -/
structure LogAgrees (ps : MinerPassStorage) : Prop where
  current : ∀ p ∈ ps.minerPasses, ∃ r, ps.lastHistoryRow p.inscriptionId = some r ∧ RowMatches p r
  orders : ∀ id h, ps.getLastPassHistoryAtOrBeforeHeight id h =
    (ps.latestHistoryAt h id).map rowToPassHistoryItem

/-- The history is in the order of its ids and of its heights, up to a height, and
the table shows its last rows. -/
structure PassLog (ps : MinerPassStorage) (height : Nat) : Prop where
  unique : (ps.minerPasses.map (·.inscriptionId)).Nodup
  ordered : ps.passStateHistory.Pairwise (fun a b => a.id < b.id ∧ a.blockHeight ≤ b.blockHeight)
  bounded : ∀ r ∈ ps.passStateHistory, r.id < ps.nextHistoryId ∧ r.blockHeight ≤ height
  current : ∀ p ∈ ps.minerPasses,
    ∃ r, ps.latestHistoryAt height p.inscriptionId = some r ∧ RowMatches p r

section Order

variable {ps : MinerPassStorage} {height : Nat}

/-- Above all rows the view no longer changes. -/
theorem latestHistoryAt_of_bound (hb : ∀ r ∈ ps.passStateHistory, r.blockHeight ≤ height)
    {h : Nat} (hle : height ≤ h) (id : InscriptionId) :
    ps.latestHistoryAt h id = ps.lastHistoryRow id := by
  refine congrArg (maxBy PassHistoryRow.id) (List.filter_congr (fun r hr => ?_))
  have hrow : r.blockHeight ≤ h := Nat.le_trans (hb r hr) hle
  simp [hrow]

/-- In a history with ascending ids and heights both orders end in the last row. -/
theorem getLastPassHistory_eq_latest
    (ho : ps.passStateHistory.Pairwise (fun a b => a.id < b.id ∧ a.blockHeight ≤ b.blockHeight))
    (id : InscriptionId) (h : Nat) :
    ps.getLastPassHistoryAtOrBeforeHeight id h =
      (ps.latestHistoryAt h id).map rowToPassHistoryItem := by
  have hrows := ho.filter (fun r => decide (r.inscriptionId = id ∧ r.blockHeight ≤ h))
  unfold getLastPassHistoryAtOrBeforeHeight latestHistoryAt
  rw [maxBy_eq_getLast? _ _ (hrows.imp And.left)]
  refine congrArg (Option.map rowToPassHistoryItem) (head?_insertionSort_of_ascending _ ?_)
  exact hrows.imp (fun hab => by omega)

theorem PassLog.mono (hl : PassLog ps height) {height' : Nat} (hle : height ≤ height') :
    PassLog ps height' where
  unique := hl.unique
  ordered := hl.ordered
  bounded := fun r hr => ⟨(hl.bounded r hr).1, Nat.le_trans (hl.bounded r hr).2 hle⟩
  current := fun p hp => by
    have hb : ∀ r ∈ ps.passStateHistory, r.blockHeight ≤ height := fun r hr => (hl.bounded r hr).2
    rw [latestHistoryAt_of_bound hb hle, ← latestHistoryAt_of_bound hb (Nat.le_refl _)]
    exact hl.current p hp

theorem PassLog.agrees (hl : PassLog ps height) : LogAgrees ps where
  current := fun p hp => by
    rw [← latestHistoryAt_of_bound (fun r hr => (hl.bounded r hr).2) (Nat.le_refl _)]
    exact hl.current p hp
  orders := getLastPassHistory_eq_latest hl.ordered

theorem PassLog.empty : PassLog .empty 0 where
  unique := List.nodup_nil
  ordered := List.Pairwise.nil
  bounded := fun r hr => by cases hr
  current := fun p hp => by cases hp

theorem PassLog.congr {ps' : MinerPassStorage} (hl : PassLog ps height)
    (hrows : ps'.minerPasses = ps.minerPasses)
    (hhist : ps'.passStateHistory = ps.passStateHistory)
    (hnext : ps'.nextHistoryId = ps.nextHistoryId) : PassLog ps' height where
  unique := hrows ▸ hl.unique
  ordered := hhist ▸ hl.ordered
  bounded := by
    rw [hhist, hnext]
    exact hl.bounded
  current := by
    unfold latestHistoryAt
    rw [hrows, hhist]
    exact hl.current

end Order

section Writes

variable {ps : MinerPassStorage} {height : Nat}

/-- A row appended at the height of the log: every pass but its own keeps its last row. -/
theorem PassLog.append (hl : PassLog ps height) (rows : List MinerPassInfo)
    (hn : (rows.map (·.inscriptionId)).Nodup) (id : InscriptionId) (event : PassHistoryEvent)
    (s₀ : Option MinerPassState) (s₁ : MinerPassState) (o₀ : Option USDBScriptHash)
    (o₁ : USDBScriptHash) (p₀ : Option SatPoint) (p₁ : SatPoint)
    (hown : ∀ p ∈ rows, p.inscriptionId = id → s₁ = p.state ∧ o₁ = p.owner ∧ p₁ = p.satpoint)
    (hothers : ∀ p ∈ rows, p.inscriptionId ≠ id → p ∈ ps.minerPasses) :
    PassLog ({ ps with minerPasses := rows }.appendPassHistoryEvent id height event s₀ s₁ o₀ o₁
      p₀ p₁) height where
  unique := hn
  ordered := by
    unfold appendPassHistoryEvent
    rw [List.pairwise_append]
    refine ⟨hl.ordered, List.pairwise_singleton _ _, ?_⟩
    intro a ha b hb
    rw [List.mem_singleton] at hb
    subst hb
    exact hl.bounded a ha
  bounded := by
    intro r hr
    rcases List.mem_append.mp hr with hr | hr
    · exact ⟨Nat.lt_succ_of_lt (hl.bounded r hr).1, (hl.bounded r hr).2⟩
    · rw [List.mem_singleton] at hr
      subst hr
      exact ⟨Nat.lt_succ_self _, Nat.le_refl _⟩
  current := by
    intro p hp
    have hb : ∀ r ∈ ps.passStateHistory, r.id < ps.nextHistoryId := fun r hr => (hl.bounded r hr).1
    have hlatest := @latestHistoryAt_append { ps with minerPasses := rows } id p.inscriptionId
      height height event s₀ s₁ o₀ o₁ p₀ p₁ hb
    by_cases he : id = p.inscriptionId
    · rw [if_pos ⟨he, Nat.le_refl _⟩] at hlatest
      exact ⟨_, hlatest, hown p hp he.symm⟩
    · rw [if_neg (fun hc => he hc.1)] at hlatest
      obtain ⟨r, hr, hm⟩ := hl.current p (hothers p hp (fun h => he h.symm))
      exact ⟨r, hlatest.trans hr, hm⟩

theorem PassLog.addRow (hl : PassLog ps height) {info : MinerPassInfo} {event : PassHistoryEvent}
    (hc : ConstraintsHold (ps.minerPasses ++ [info])) :
    PassLog (ps.addRow info height event) height := by
  have hfresh := (lookup_eq_none _ _ _).mp (getPassByInscriptionId_fresh hc)
  refine hl.append _ hc.1 _ _ _ _ _ _ _ _ ?_ ?_
  · intro p hp he
    rcases List.mem_append.mp hp with hp | hp
    · exact absurd he (hfresh p hp)
    · rw [List.mem_singleton] at hp
      rw [hp]
      exact ⟨rfl, rfl, rfl⟩
  · intro p hp hne
    rcases List.mem_append.mp hp with hp | hp
    · exact hp
    · rw [List.mem_singleton] at hp
      rw [hp] at hne
      exact absurd rfl hne

theorem PassLog.changeRow (hl : PassLog ps height) {id : InscriptionId} {event : PassHistoryEvent}
    {p q : MinerPassInfo} (hq : q.inscriptionId = id)
    (hc : ConstraintsHold (ps.setRow id q).minerPasses) : PassLog (ps.changeRow id height event p q) height := by
  refine hl.append _ hc.1 _ _ _ _ _ _ _ _ ?_ ?_
  · intro p' hp he
    obtain ⟨r, hr, rfl⟩ := List.mem_map.mp hp
    by_cases hk : r.inscriptionId = id
    · rw [if_pos hk]
      exact ⟨rfl, rfl, rfl⟩
    · rw [if_neg hk] at he
      exact absurd he hk
  · intro p' hp hne
    obtain ⟨r, hr, rfl⟩ := List.mem_map.mp hp
    by_cases hk : r.inscriptionId = id
    · rw [if_pos hk] at hne
      exact absurd hq hne
    · rw [if_neg hk]
      exact hr

theorem PassLog.step {burnable : MinerPassState → Prop} {ps' : MinerPassStorage}
    (hl : PassLog ps height) (h : PassStep burnable height ps ps') : PassLog ps' height := by
  cases h with
  | mint info event kind owner minted constraints => exact hl.addRow constraints
  | change id p q event row change constraints =>
    have hq : q.inscriptionId = id :=
      change.sameMint.inscriptionId.trans (getPassByInscriptionId_key row)
    exact hl.changeRow hq constraints

theorem PassLog.reach {burnable : MinerPassState → Prop} {ps' : MinerPassStorage}
    (hl : PassLog ps height) (h : PassReach burnable height ps ps') : PassLog ps' height := by
  induction h with
  | refl => exact hl
  | tail _ hstep ih => exact ih.step hstep

/-- A rollback cuts the log at its target, with or without an anchor to adopt. -/
theorem rollbackToBlockHeightInternal_tables {ps' : MinerPassStorage} {target : Nat}
    {anchor : Option BalanceHistorySnapshotInfo} {mark : Bool}
    (h : ps.rollbackToBlockHeightInternal target anchor mark = .ok ps') :
    ps'.minerPasses = ps.minerPasses.filterMap (ps.survivingPass target) ∧
      ps'.passStateHistory = ps.passStateHistory.filter (fun r => r.blockHeight ≤ target) ∧
      ps'.nextHistoryId = ps.nextHistoryId := by
  cases anchor with
  | none =>
    obtain ⟨rfl, -⟩ := rollbackToBlockHeightInternal_ok h
    exact ⟨rfl, rfl, rfl⟩
  | some anchor =>
    unfold rollbackToBlockHeightInternal at h
    simp only [bind, Except.bind, pure, Except.pure, throw, throwThe, MonadExceptOf.throw] at h
    split at h
    · cases h
    · split at h
      · cases h
      · split at h
        · cases h
        · rename_i restored hw
          obtain ⟨-, rfl⟩ := writeRows_ok hw
          split at h
          · cases h
          · rename_i anchored hanchor
            cases h
            unfold upsertBalanceHistorySnapshotAnchor at hanchor
            cases hsnap : snapshotAnchor anchor with
            | error e =>
              rw [hsnap] at hanchor
              cases hanchor
            | ok row =>
              rw [hsnap] at hanchor
              cases hanchor
              exact ⟨rfl, rfl, rfl⟩

theorem PassLog.cut (hl : PassLog ps height) (target : Nat) (mark : Bool) :
    PassLog (ps.rolledBack target mark) (min height target) where
  unique := restored_nodup hl.unique
  ordered := hl.ordered.filter _
  bounded := by
    intro r hr
    have hmem := List.mem_filter.mp hr
    have hb := hl.bounded r hmem.1
    exact ⟨hb.1, Nat.le_min.mpr ⟨hb.2, of_decide_eq_true hmem.2⟩⟩
  current := by
    intro q hq
    have hb : ∀ r ∈ ps.passStateHistory, r.blockHeight ≤ height := fun r hr => (hl.bounded r hr).2
    obtain ⟨p, hp, hs⟩ := List.mem_filterMap.mp hq
    rw [latestHistoryAt_rolledBack]
    unfold survivingPass at hs
    split at hs
    · obtain ⟨row, hrow, rfl⟩ := Option.map_eq_some_iff.mp hs
      refine ⟨row, ?_, rfl, rfl, rfl⟩
      rw [← hrow]
      rcases Nat.le_total target height with hle | hle
      · rw [Nat.min_eq_right hle, Nat.min_self]
      · rw [Nat.min_eq_left hle, Nat.min_eq_left hle, latestHistoryAt_of_bound hb (Nat.le_refl _),
          latestHistoryAt_of_bound hb hle]
    · cases hs

theorem PassLog.rollback (hl : PassLog ps height) {ps' : MinerPassStorage} {target : Nat}
    {anchor : Option BalanceHistorySnapshotInfo} {mark : Bool}
    (h : ps.rollbackToBlockHeightInternal target anchor mark = .ok ps') :
    PassLog ps' (min height target) := by
  obtain ⟨hrows, hhist, hnext⟩ := rollbackToBlockHeightInternal_tables h
  exact (hl.cut target mark).congr hrows hhist hnext

end Writes

end MinerPassStorage

end Usdb
