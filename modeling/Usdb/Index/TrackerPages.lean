import Mathlib.Data.List.Perm.Basic
import Usdb.Index.TrackerReload

namespace Usdb

open Framework Paging MinerPassStorage

namespace MinerPassStorage

/-- What `ORDER BY mint_block_height DESC` asks for. -/
structure QueryOrder (ps : MinerPassStorage) (rows : List MinerPassInfo) : Prop where
  perm : rows.Perm ps.trackableRows
  descending : Descending (·.mintBlockHeight) rows

/-- No page ends between two trackable passes of one mint height. -/
def PagesSplitNoBlock (ps : MinerPassStorage) : Prop :=
  ∀ k, CleanCut (·.mintBlockHeight) ps.trackableRows
    (k * InscriptionTransferTracker.trackerPageSize)

end MinerPassStorage

namespace InscriptionTransferTracker

variable {engine : SqlEngine} {ps : MinerPassStorage}

section Rows

/-- When no page ends inside a block, the pages contain every row once. -/
theorem reloadRows_perm (hb : ps.PagesSplitNoBlock)
    (ho : ∀ i, ps.QueryOrder (engine i ps)) : (reloadRows engine ps).Perm ps.trackableRows := by
  have hclean : ∀ k, CleanCut (·.mintBlockHeight) (engine 0 ps) (k * trackerPageSize) :=
    fun k => (hb k).perm (ho 0).perm.symm
  have hlen : ∀ i, (engine i ps).length = ps.trackableRows.length := fun i => (ho i).perm.length_eq
  rw [reloadRows_eq hlen]
  have hpages : ((List.range (ps.minerPasses.length + 1)).flatMap
      (fun i => slice (engine i ps) trackerPageSize i)).Perm
      ((List.range (ps.minerPasses.length + 1)).flatMap
        (slice (engine 0 ps) trackerPageSize)) := by
    refine List.Perm.flatMap_left _ (fun i _ => (slice_perm ?_ (ho 0).descending
      (ho i).descending (hclean i) (hclean (i + 1))).symm)
    exact (ho 0).perm.trans (ho i).perm.symm
  refine hpages.trans ?_
  rw [flatMap_slice, List.take_of_length_le ((hlen 0).trans_le (trackableRows_length_le ps))]
  exact (ho 0).perm

/-- When a page ends inside a block, the engine can return a row twice. -/
theorem exists_reloadRows_not_perm (hn : (ps.minerPasses.map (·.inscriptionId)).Nodup)
    (hb : ¬ ps.PagesSplitNoBlock) :
    ∃ engine : SqlEngine, (∀ i, ps.QueryOrder (engine i ps)) ∧
      ¬ (reloadRows engine ps).Perm ps.trackableRows := by
  unfold PagesSplitNoBlock at hb
  push Not at hb
  obtain ⟨k, hk⟩ := hb
  have hperm : (stableEngine 0 ps).Perm ps.trackableRows := List.perm_insertionSort ..
  have hsorted : Descending (·.mintBlockHeight) (stableEngine 0 ps) :=
    List.pairwise_insertionSort _ _
  obtain ⟨before, a, b, after, hrows, hlength, hab⟩ :=
    hsorted.split (fun hc => hk (hc.perm hperm))
  obtain ⟨k, rfl⟩ : ∃ before, k = before + 1 := by
    cases k with
    | zero => simp at hlength
    | succ k => exact ⟨k, rfl⟩
  -- page `k + 1` is read with the two rows around its start exchanged
  refine ⟨fun i _ => if i = k + 1 then before ++ b :: a :: after else before ++ a :: b :: after, ?_, ?_⟩
  · intro i
    rw [hrows] at hperm hsorted
    dsimp only
    split
    · exact ⟨((List.Perm.swap a b after).append_left before).trans hperm, hsorted.swap hab⟩
    · exact ⟨hperm, hsorted⟩
  · intro hcontra
    have hnodup : ps.trackableRows.Nodup := (List.Nodup.of_map _ hn).filter _
    have hlength' : (before ++ a :: b :: after).length ≤ ps.minerPasses.length := by
      rw [← hrows, hperm.length_eq]
      exact List.length_filter_le ..
    have hlen : ∀ i, (if i = k + 1 then before ++ b :: a :: after
        else before ++ a :: b :: after).length = (before ++ a :: b :: after).length := by
      intro i
      split <;> simp
    rw [reloadRows_eq hlen] at hcontra
    have hpages := (List.nodup_flatMap.mp (hcontra.nodup_iff.mpr hnodup)).2
    simp only [List.length_append, List.length_cons] at hlength'
    have hsize : 0 < trackerPageSize := by decide
    have hstart : (k + 1) * trackerPageSize = k * trackerPageSize + trackerPageSize :=
      Nat.succ_mul ..
    have hle := Nat.le_mul_of_pos_right k hsize
    have hdisjoint := List.pairwise_iff_getElem.mp hpages k (k + 1)
      (by rw [List.length_range]; omega) (by rw [List.length_range]; omega) (by omega)
    simp only [List.getElem_range] at hdisjoint
    refine hdisjoint (a := a) ?_ ?_
    · refine List.mem_iff_getElem?.mpr ⟨trackerPageSize - 1, ?_⟩
      rw [getElem?_slice _ (by omega), show k * trackerPageSize + (trackerPageSize - 1) =
        before.length by omega]
      simp
    · refine List.mem_iff_getElem?.mpr ⟨0, ?_⟩
      rw [getElem?_slice _ hsize, ← hlength]
      simp

end Rows

/-- Entries of distinct inscriptions are all listed, each under its outpoint. -/
theorem insertAll_entries {entries : List ValidMinerPassInfo}
    (hn : (entries.map (·.inscriptionId)).Nodup) (k : OutPoint) :
    (MultiMap.new.insertAll entries) k =
      entries.filter (fun v => v.satpoint.outpoint = k) := by
  induction entries using List.reverseRecOn with
  | nil => rfl
  | append_singleton entries v ih =>
    rw [List.map_append, List.nodup_append] at hn
    obtain ⟨hn, -, hdisjoint⟩ := hn
    rw [insertAll_append, List.filter_append, ← ih hn]
    show (if k = v.satpoint.outpoint then _ else _) = _
    by_cases hk : k = v.satpoint.outpoint
    · have hnew : lookup (·.inscriptionId) v.inscriptionId (MultiMap.new.insertAll entries k) =
          none := by
        rw [lookup_eq_none, ih hn]
        intro w hw
        exact hdisjoint _ (List.mem_map_of_mem (List.mem_filter.mp hw).1) _ (by simp)
      rw [if_pos hk, upsert, hnew, List.filter_cons_of_pos (by simp [hk])]
      rfl
    · rw [if_neg hk, List.filter_cons_of_neg (by simpa using fun h => hk h.symm), List.filter_nil,
        List.append_nil]

/-- A reload of a table reads every trackable row once, whatever the engine does with ties,
and its tracker has one entry for each. -/
def LosslessReload (ps : MinerPassStorage) : Prop :=
  ∀ engine : SqlEngine, (∀ i, ps.QueryOrder (engine i ps)) →
    (reloadRows engine ps).Perm ps.trackableRows ∧
      ∀ s u t, s.passStorage = ps → reloadFromStorageIn engine s = .ok u t →
        ∀ k, (t.inscriptions k).Perm
          ((ps.trackableRows.filter (fun p => p.satpoint.outpoint = k)).map (·.entry))

/-- A reload is lossless exactly when no page ends inside a block. -/
theorem losslessReload_iff (ps : MinerPassStorage)
    (distinct : (ps.minerPasses.map (·.inscriptionId)).Nodup) :
    LosslessReload ps ↔ ps.PagesSplitNoBlock := by
  constructor
  · intro hlossless
    by_contra hb
    obtain ⟨engine, horder, hlost⟩ := exists_reloadRows_not_perm distinct hb
    exact hlost (hlossless engine horder).1
  · intro hb engine horder
    have hperm := reloadRows_perm hb horder
    refine ⟨hperm, ?_⟩
    rintro s u t rfl hrun k
    have hids : ((reloadRows engine s.passStorage).map (·.entry)).map (·.inscriptionId) =
        (reloadRows engine s.passStorage).map (·.inscriptionId) := List.map_map ..
    have hn : (((reloadRows engine s.passStorage).map (·.entry)).map (·.inscriptionId)).Nodup := by
      rw [hids, (hperm.map _).nodup_iff]
      exact (List.filter_sublist.map _).nodup distinct
    obtain ⟨fs, rfl⟩ := reloadFromStorageIn_ok hrun
    dsimp only
    rw [insertAll_entries hn, List.filter_map]
    exact (hperm.filter _).map _

section CrowdedBlock

def mintedPass (i : Nat) : MinerPassInfo where
  inscriptionId := ⟨i, 0⟩
  inscriptionNumber := i
  mintTxid := i
  mintBlockHeight := 1
  mintOwner := i
  satpoint := ⟨⟨i, 0⟩, 0⟩
  ethMain := "0x1111111111111111111111111111111111111111"
  ethCollab := none
  prev := []
  invalidCode := none
  invalidReason := none
  owner := i
  state := .Active

/-- A table after one block with this many mints. -/
def mintedTogether (count : Nat) : MinerPassStorage :=
  { MinerPassStorage.empty with minerPasses := (List.range count).map mintedPass }

theorem mintedTogether_distinct (count : Nat) :
    ((mintedTogether count).minerPasses.map (·.inscriptionId)).Nodup := by
  unfold mintedTogether
  rw [List.map_map]
  refine List.nodup_range.map (fun i j h => ?_)
  exact congrArg InscriptionId.txid h

theorem mintedTogether_countP (count : Nat) (p : MinerPassInfo → Bool) (value : Bool)
    (hp : ∀ i, p (mintedPass i) = value) :
    (mintedTogether count).trackableRows.countP p = if value then count else 0 := by
  have hrows : (mintedTogether count).trackableRows = (List.range count).map mintedPass := by
    unfold trackableRows mintedTogether
    rw [List.filter_eq_self]
    intro q hq
    obtain ⟨i, -, rfl⟩ := List.mem_map.mp hq
    rfl
  rw [hrows, List.countP_map]
  have hconst : p ∘ mintedPass = fun _ => value := funext hp
  rw [hconst]
  cases value <;> simp

theorem mintedTogether_constraintsHold (count : Nat) :
    ConstraintsHold (mintedTogether count).minerPasses := by
  refine ⟨mintedTogether_distinct count, List.pairwise_map.mpr ?_⟩
  exact List.nodup_range.imp (fun hne hclash => hne hclash.2.2)

/-- With 1025 mints in one block, the first of the second page may be a row of the first. -/
theorem reload_reads_pass_twice :
    ConstraintsHold (mintedTogether 1025).minerPasses ∧
      ∃ engine : SqlEngine, (∀ i, (mintedTogether 1025).QueryOrder (engine i (mintedTogether 1025))) ∧
        ¬ (reloadRows engine (mintedTogether 1025)).Perm (mintedTogether 1025).trackableRows := by
  refine ⟨mintedTogether_constraintsHold 1025,
    exists_reloadRows_not_perm (mintedTogether_distinct 1025) (fun hb => ?_)⟩
  have hcut := hb 1 1
  rw [mintedTogether_countP 1025 _ false (fun i => rfl),
    mintedTogether_countP 1025 _ true (fun i => rfl)] at hcut
  exact absurd (hcut (by decide)) (by decide)

/-- One page holds the two mints of a block. -/
theorem losslessReload_onePage : LosslessReload (mintedTogether 2) := by
  refine (losslessReload_iff (mintedTogether 2) (mintedTogether_distinct 2)).mpr ?_
  intro k t hlow
  have hle : (mintedTogether 2).trackableRows.countP (fun p => t ≤ p.mintBlockHeight) ≤ 2 :=
    List.countP_le_length
  cases k with
  | zero => simp at hlow
  | succ k =>
    have hsize : trackerPageSize = 1024 := rfl
    have hmul : (k + 1) * trackerPageSize = k * trackerPageSize + trackerPageSize := Nat.succ_mul ..
    exact hle.trans (by omega)

end CrowdedBlock

end InscriptionTransferTracker

end Usdb
