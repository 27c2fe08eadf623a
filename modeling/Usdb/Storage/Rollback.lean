import Usdb.Storage.PassProgress
import Mathlib.Tactic.Tauto

namespace Usdb

open Framework

namespace MinerPassStorage

section Restored

variable {ps : MinerPassStorage} {target height : Nat}

theorem survivingPass_key {p q : MinerPassInfo} (h : ps.survivingPass target p = some q) :
    q.inscriptionId = p.inscriptionId := by
  unfold survivingPass at h
  split at h
  · obtain ⟨row, -, rfl⟩ := Option.map_eq_some_iff.mp h
    rfl
  · cases h

/-- A pass minted by the target height has a history row to be restored from. -/
theorem survivingPass_isSome (hi : TableInv ps height) {p : MinerPassInfo}
    (hp : p ∈ ps.minerPasses) :
    (ps.survivingPass target p).isSome = decide (p.mintBlockHeight ≤ target) := by
  unfold survivingPass
  by_cases hm : p.mintBlockHeight ≤ target
  · have hrow : ps.getPassByInscriptionId p.inscriptionId = some p :=
      lookup_of_mem _ _ p hi.constraints.1 hp
    have hsome := (hi.mintedAt _ p hrow).2.2 target hm
    rw [if_pos hm, Option.isSome_map, decide_eq_true hm]
    exact Option.isSome_iff_ne_none.mpr hsome
  · rw [if_neg hm]
    simp [hm]

theorem restored_length (hi : TableInv ps height) :
    (ps.minerPasses.filterMap (ps.survivingPass target)).length =
      (ps.minerPasses.filter (fun p => p.mintBlockHeight ≤ target)).length := by
  rw [List.length_filterMap_eq_countP, List.countP_eq_length_filter]
  refine congrArg List.length (List.filter_congr (fun p hp => ?_))
  exact survivingPass_isSome hi hp

theorem restored_nodup (hn : (ps.minerPasses.map (·.inscriptionId)).Nodup) :
    ((ps.minerPasses.filterMap (ps.survivingPass target)).map (·.inscriptionId)).Nodup := by
  rw [List.map_filterMap]
  refine List.Nodup.sublist ?_ hn
  have he : ps.minerPasses.filterMap (fun p =>
        (ps.survivingPass target p).map (·.inscriptionId)) =
      (ps.minerPasses.filter (fun p => (ps.survivingPass target p).isSome)).map
        (·.inscriptionId) := by
    rw [← List.filterMap_eq_map, List.filterMap_filter]
    refine List.filterMap_congr (fun p _ => ?_)
    cases hs : ps.survivingPass target p with
    | none => simp
    | some q => simp [survivingPass_key hs]
  rw [he]
  exact List.filter_sublist.map _

theorem restored_constraints (hi : TableInv ps height) (hu : ViewsUnique ps) :
    ConstraintsHold (ps.minerPasses.filterMap (ps.survivingPass target)) := by
  have hn := hi.constraints.1
  constructor
  · exact restored_nodup hn
  · unfold ActiveOwnerUnique
    rw [List.pairwise_filterMap]
    rw [List.Nodup, List.pairwise_map] at hn
    refine hn.imp_of_mem ?_
    rintro p q - - hne p' hp' q' hq' ⟨ha, ha', ho⟩
    unfold survivingPass at hp' hq'
    split at hp'
    · split at hq'
      · obtain ⟨r, hr, rfl⟩ := Option.map_eq_some_iff.mp hp'
        obtain ⟨r', hr', rfl⟩ := Option.map_eq_some_iff.mp hq'
        exact hne (hu target _ _ r r' hr hr' ha ha' ho)
      · cases hq'
    · cases hp'

end Restored

/-- The pass database after a rollback that adopts no anchor. -/
def rolledBack (ps : MinerPassStorage) (target : Nat) (mark : Bool) : MinerPassStorage where
  minerPasses := ps.minerPasses.filterMap (ps.survivingPass target)
  passStateHistory := ps.passStateHistory.filter (fun r => r.blockHeight ≤ target)
  nextHistoryId := ps.nextHistoryId
  passBlockCommits := ps.passBlockCommits.filter (fun c => c.blockHeight ≤ target)
  activeBalanceSnapshots := ps.activeBalanceSnapshots.filter (fun a => a.blockHeight ≤ target)
  balanceHistorySnapshotHistory :=
    ps.balanceHistorySnapshotHistory.filter (fun a => a.stableHeight ≤ target)
  balanceHistorySnapshotAnchor := none
  syncedBtcBlockHeight := some target
  upstreamReorgRecoveryPendingHeight := if mark then some target else none

section RolledBack

variable {ps : MinerPassStorage} {target height : Nat} {mark : Bool}

theorem rollbackToBlockHeightInternal_ok {ps' : MinerPassStorage}
    (h : ps.rollbackToBlockHeightInternal target none mark = .ok ps') :
    ps' = ps.rolledBack target mark ∧
      ConstraintsHold (ps.minerPasses.filterMap (ps.survivingPass target)) := by
  unfold rollbackToBlockHeightInternal at h
  simp only [bind, Except.bind, pure, Except.pure] at h
  split at h
  · cases h
  · split at h
    · cases h
    · rename_i hw
      obtain ⟨hc, rfl⟩ := writeRows_ok hw
      cases h
      exact ⟨rfl, hc⟩

/-- From a consistent table the rollback goes through. -/
theorem rollbackToBlockHeightInternal_eq (hi : TableInv ps height) (hu : ViewsUnique ps) :
    ps.rollbackToBlockHeightInternal target none mark = .ok (ps.rolledBack target mark) := by
  unfold rollbackToBlockHeightInternal
  simp only [bind, Except.bind, pure, Except.pure, restored_length hi, ne_eq, not_true_eq_false,
    and_false, if_false, writeRows, if_pos (restored_constraints hi hu)]
  rfl

/-- The views of the restored history are the old ones, cut off at the target. -/
theorem latestHistoryAt_rolledBack (h : Nat) (i : InscriptionId) :
    (ps.rolledBack target mark).latestHistoryAt h i = ps.latestHistoryAt (min h target) i := by
  unfold latestHistoryAt rolledBack
  dsimp only
  rw [List.filter_filter]
  refine congrArg (maxBy PassHistoryRow.id) (List.filter_congr (fun r _ => ?_))
  simp only [Nat.le_min, ← Bool.decide_and]
  exact decide_eq_decide.mpr (by tauto)

theorem getPassByInscriptionId_rolledBack (hi : TableInv ps height) (i : InscriptionId) :
    (ps.rolledBack target mark).getPassByInscriptionId i =
      (ps.getPassByInscriptionId i).bind (ps.survivingPass target) :=
  lookup_filterMap _ _ _ _ hi.constraints.1 (fun _ _ h => survivingPass_key h)

/-- A restored pass has the mint data it had and the values of its history row. -/
theorem getPassByInscriptionId_rolledBack_some (hi : TableInv ps height) {i : InscriptionId}
    {q : MinerPassInfo} (hq : (ps.rolledBack target mark).getPassByInscriptionId i = some q) :
    ∃ p r, ps.getPassByInscriptionId i = some p ∧ p.mintBlockHeight ≤ target ∧
      ps.latestHistoryAt target i = some r ∧ p.SameMint q ∧ RowMatches q r := by
  rw [getPassByInscriptionId_rolledBack hi] at hq
  obtain ⟨p, hp, hs⟩ := Option.bind_eq_some_iff.mp hq
  unfold survivingPass at hs
  split at hs
  · rename_i hm
    obtain ⟨r, hr, rfl⟩ := Option.map_eq_some_iff.mp hs
    rw [getPassByInscriptionId_key hp] at hr
    exact ⟨p, r, hp, hm, hr, rfl, rfl, rfl, rfl⟩
  · cases hs

theorem getPassByInscriptionId_rolledBack_none (hi : TableInv ps height) {i : InscriptionId}
    (hn : (ps.rolledBack target mark).getPassByInscriptionId i = none) :
    ps.latestHistoryAt target i = none := by
  rw [getPassByInscriptionId_rolledBack hi] at hn
  cases hp : ps.getPassByInscriptionId i with
  | none => exact hi.known i hp target
  | some p =>
    rw [hp, Option.bind_some] at hn
    have hsome : (ps.survivingPass target p).isSome = _ :=
      survivingPass_isSome hi (lookup_some_mem _ _ _ _ hp)
    rw [hn] at hsome
    have hm : ¬p.mintBlockHeight ≤ target := by simpa using hsome
    exact (hi.mintedAt i p hp).2.1 target (Nat.lt_of_not_le hm)

theorem TableInv.rolledBack (hi : TableInv ps height)
    (hc : ConstraintsHold (ps.minerPasses.filterMap (ps.survivingPass target))) :
    TableInv (ps.rolledBack target mark) target where
  constraints := hc
  idBound := fun r hr => hi.idBound r (List.mem_of_mem_filter hr)
  heightBound := fun r hr => by simpa using (List.mem_filter.mp hr).2
  known := fun i hn h => by
    have hnone := getPassByInscriptionId_rolledBack_none hi hn
    rw [latestHistoryAt_rolledBack]
    cases hl : ps.latestHistoryAt (min h target) i with
    | none => rfl
    | some r =>
      obtain ⟨p, hp⟩ : ∃ p, ps.getPassByInscriptionId i = some p := by
        cases hp : ps.getPassByInscriptionId i with
        | none =>
          rw [hi.known i hp] at hl
          cases hl
        | some p => exact ⟨p, rfl⟩
      have hm : ¬p.mintBlockHeight ≤ target := fun hm => (hi.mintedAt i p hp).2.2 target hm hnone
      rw [(hi.mintedAt i p hp).2.1 (min h target) (by omega)] at hl
      cases hl
  current := fun i q hq => by
    obtain ⟨p, r, -, -, hr, -, hm⟩ := getPassByInscriptionId_rolledBack_some hi hq
    refine ⟨r, hm, fun h hh => ?_⟩
    rw [latestHistoryAt_rolledBack, Nat.min_eq_right hh]
    exact hr
  mintedAt := fun i q hq => by
    obtain ⟨p, r, hp, hm, -, hs, -⟩ := getPassByInscriptionId_rolledBack_some hi hq
    obtain ⟨-, hbefore, hafter⟩ := hi.mintedAt i p hp
    rw [hs.mintBlockHeight]
    refine ⟨hm, fun h hh => ?_, fun h hh => ?_⟩
    · rw [latestHistoryAt_rolledBack]
      exact hbefore _ (by omega)
    · rw [latestHistoryAt_rolledBack]
      exact hafter _ (by omega)

theorem ViewsUnique.rolledBack (hu : ViewsUnique ps) :
    ViewsUnique (ps.rolledBack target mark) := by
  intro h i j r r' hr hr'
  rw [latestHistoryAt_rolledBack] at hr hr'
  exact hu _ i j r r' hr hr'

theorem HistoryProgress.rolledBack {burnable : MinerPassState → Prop}
    (hp : HistoryProgress burnable ps) : HistoryProgress burnable (ps.rolledBack target mark) :=
  ⟨hp.sorted.filter _, hp.rows.filter _⟩

theorem ViewsProgress.rolledBack {burnable : MinerPassState → Prop} (hi : TableInv ps height)
    (hp : ViewsProgress burnable ps) : ViewsProgress burnable (ps.rolledBack target mark) := by
  constructor
  · intro i h h' r r' hle hr hr'
    rw [latestHistoryAt_rolledBack] at hr hr'
    exact hp.states i _ _ r r' (by omega) hr hr'
  · intro i h r hr ha
    rw [latestHistoryAt_rolledBack] at hr
    obtain ⟨p, hrow, ho⟩ := hp.owner i _ r hr ha
    have hm : p.mintBlockHeight ≤ target := by
      by_contra hm
      rw [(hi.mintedAt i p hrow).2.1 _ (by omega)] at hr
      cases hr
    cases hq : (ps.rolledBack target mark).getPassByInscriptionId i with
    | none =>
      exact absurd (getPassByInscriptionId_rolledBack_none hi hq) ((hi.mintedAt i p hrow).2.2 _ hm)
    | some q =>
      obtain ⟨p', r', hp', -, -, hs, -⟩ := getPassByInscriptionId_rolledBack_some hi hq
      rw [hrow] at hp'
      cases hp'
      exact ⟨q, rfl, by rw [ho, hs.mintOwner]⟩

end RolledBack

end MinerPassStorage

end Usdb
