import Usdb.Balances.CacheAgreement
import Usdb.Balances.CommitBytes

namespace Usdb.Balances

open Framework BalanceHistoryDB

section Amounts

theorem checkI64_ok {x y : Int} (h : checkI64 x = .ok y) : y = x ∧ -(2 ^ 63) ≤ x ∧ x < 2 ^ 63 := by
  unfold checkI64 at h
  split at h
  · cases h
    exact ⟨rfl, by assumption⟩
  · cases h

/-- The deltas of a block are 64-bit integers. -/
def DeltasInRange (history : Table USDBScriptHash Int) : Prop :=
  ∀ (scriptHash : USDBScriptHash) (delta : Int), history[scriptHash]? = some delta →
    -(2 ^ 63) ≤ delta ∧ delta < 2 ^ 63

theorem DeltasInRange.addDelta {history history' : Table USDBScriptHash Int}
    {scriptHash : USDBScriptHash} {change : Int} (h : DeltasInRange history)
    (hadd : addDelta history scriptHash change = .ok history') : DeltasInRange history' := by
  unfold Balances.addDelta at hadd
  obtain ⟨delta, hcheck, hadd⟩ := bind_eq_ok_iff.mp hadd
  cases hadd
  obtain ⟨rfl, hrange⟩ := checkI64_ok hcheck
  intro scriptHash' delta' hget
  rw [Table.getElem?_put] at hget
  split at hget
  · cases hget
    exact hrange
  · exact h scriptHash' delta' hget

theorem blockHistory_inRange {block : PreloadBlock} {history : Table USDBScriptHash Int}
    (h : blockHistory block = .ok history) : DeltasInRange history := by
  refine foldlM_ok h ?_ ?_
  · intro scriptHash delta hget
    cases hget
  · intro history₁ tx _ history₂ hrange hstep
    obtain ⟨history₃, hvin, hvout⟩ := bind_eq_ok_iff.mp hstep
    refine foldlM_ok hvout (foldlM_ok hvin hrange ?_) ?_
    · intro history₄ vin _ history₅ hrange₄ hsub
      unfold subtractVin at hsub
      cases hcache : vin.cacheTxOut with
      | none =>
        rw [hcache] at hsub
        cases hsub
      | some vout =>
        rw [hcache] at hsub
        exact hrange₄.addDelta hsub
    · intro history₄ vout _ history₅ hrange₄ hadd
      exact hrange₄.addDelta hadd

variable {balances balances' : Table USDBScriptHash BalanceHistoryData} {block : PreloadBlock}
  {delta : BlockBalanceDelta} {blocks : List PreloadBlock} {deltas : List BlockBalanceDelta}

theorem processBlock_inRange (h : processBlock balances block = .ok (delta, balances')) :
    ∀ entry ∈ delta.entries, AmountsInRange entry.delta entry.balance := by
  obtain ⟨history, hhistory, hentries, -, -, -⟩ := processBlock_ok h
  intro entry hmem
  obtain ⟨change, hchange, hsettle⟩ := mem_of_mapM_ok hentries hmem
  obtain ⟨current, balance, -, hcheck, hnonneg, rfl⟩ := settleEntry_ok hsettle
  obtain ⟨hge, hlt⟩ := blockHistory_inRange hhistory change.1 change.2 (Table.mem_toList.mp hchange)
  obtain ⟨heq, -, hbalance⟩ := checkI64_ok hcheck
  rw [← heq] at hbalance
  exact ⟨hge, hlt, by show balance.toNat < 2 ^ 64; omega⟩

theorem processBlocksOf_inRange (h : processBlocksOf blocks balances = .ok (deltas, balances')) :
    ∀ entry ∈ deltas.flatMap (·.entries), AmountsInRange entry.delta entry.balance := by
  induction blocks generalizing balances deltas with
  | nil =>
    cases h
    intro entry hmem
    cases hmem
  | cons block blocks ih =>
    obtain ⟨delta, middle, rest, hb, hr, rfl⟩ := processBlocksOf_cons_ok h
    intro entry hmem
    rw [List.flatMap_cons, List.mem_append] at hmem
    rcases hmem with hfirst | hrest
    · exact processBlock_inRange hb entry hfirst
    · exact ih hr entry hrest

/-- The entries of a block stand in the order of their script hashes. -/
theorem processBlock_sorted (h : processBlock balances block = .ok (delta, balances')) :
    delta.entries.Pairwise (fun a b => a.scriptHash < b.scriptHash) := by
  obtain ⟨history, -, hentries, -, -, -⟩ := processBlock_ok h
  have hkeys : delta.entries.map (·.scriptHash) = history.toList.map (·.1) := by
    refine map_of_mapM_ok hentries ?_
    intro change entry hsettle
    obtain ⟨current, balance, -, -, -, rfl⟩ := settleEntry_ok hsettle
    rfl
  have hsorted : (history.toList.map (·.1)).Pairwise (· < ·) := by
    rw [List.pairwise_map]
    refine Std.ExtTreeMap.ordered_keys_toList.imp ?_
    intro a b hlt
    have hval : compare a.1.val b.1.val = .lt := hlt
    exact Nat.compare_eq_lt.mp hval
  rw [← hkeys, List.pairwise_map] at hsorted
  exact hsorted

theorem processBlocksOf_sorted (h : processBlocksOf blocks balances = .ok (deltas, balances')) :
    ∀ delta ∈ deltas, delta.entries.Pairwise (fun a b => a.scriptHash < b.scriptHash) := by
  induction blocks generalizing balances deltas with
  | nil =>
    cases h
    intro delta hmem
    cases hmem
  | cons block blocks ih =>
    obtain ⟨delta, middle, rest, hb, hr, rfl⟩ := processBlocksOf_cons_ok h
    intro delta' hmem
    rcases List.mem_cons.mp hmem with rfl | hmem
    · exact processBlock_sorted hb
    · exact ih hr delta' hmem

end Amounts

section Commits

theorem buildBlockCommits_length (sha256 : Sha256) (deltas : List BlockBalanceDelta)
    (prev : List UInt8) : (buildBlockCommits sha256 deltas prev).length = deltas.length := by
  induction deltas generalizing prev with
  | nil => rfl
  | cons delta deltas ih => rw [buildBlockCommits, List.length_cons, List.length_cons, ih]

/-- Each commit of a batch is built on the one before it. -/
theorem buildBlockCommits_getElem? (sha256 : Sha256) (deltas : List BlockBalanceDelta)
    (prev : List UInt8) (i : Nat) :
    (buildBlockCommits sha256 deltas prev)[i]? = (do
      let delta ← deltas[i]?
      let before ← (prev :: (buildBlockCommits sha256 deltas prev).map (·.blockCommit))[i]?
      return buildBlockCommit sha256 delta before) := by
  induction deltas generalizing prev i with
  | nil =>
    rw [buildBlockCommits, List.getElem?_nil, List.getElem?_nil]
    rfl
  | cons delta deltas ih =>
    rw [buildBlockCommits]
    cases i with
    | zero => rfl
    | succ i =>
      rw [List.getElem?_cons_succ, List.getElem?_cons_succ, ih, List.getElem?_cons_succ,
        List.map_cons]

/-- The commit below a height, or what stands for it below the first block. -/
def BalanceHistoryDB.commitBelow (db : BalanceHistoryDB) (height : Nat) : List UInt8 :=
  (db.blockCommits[height]?.map (·.blockCommit)).getD emptyCommitHash

end Commits

/-- Every block up to the height of the store is committed over its rows and over the
commit below it. -/
structure CommitChained (sha256 : Sha256) (db : BalanceHistoryDB) : Prop where
  genesis : db.blockCommits[0]? = none
  above : ∀ height, db.getBtcBlockHeight < height → db.blockCommits[height]? = none
  linked : ∀ height, height < db.getBtcBlockHeight → ∃ hash, db.blockCommits[height + 1]? =
    some (commitValue (buildBlockCommit sha256 ⟨height + 1, hash, db.entriesAt (height + 1)⟩
      (db.commitBelow height)))
  inRange : ∀ scriptHash height value, db.row scriptHash height = some value →
    AmountsInRange value.delta value.balance

namespace CommitChained

variable {sha256 : Sha256} {db db' : BalanceHistoryDB}

theorem empty : CommitChained sha256 .empty where
  genesis := rfl
  above := fun _ _ => rfl
  linked := by
    intro height hlt
    have hz : height < 0 := hlt
    omega
  inRange := by
    intro scriptHash height value h
    cases h

theorem rollbackStep (h : CommitChained sha256 db) (hs : RollbackStep db db') :
    CommitChained sha256 db' := by
  cases hs with
  | markers m => exact ⟨h.genesis, h.above, h.linked, h.inRange⟩
  | revert bundle found =>
    have hheight : (db.revertBlock db.getBtcBlockHeight bundle).getBtcBlockHeight =
        db.getBtcBlockHeight - 1 := rfl
    have hcommit : ∀ height, (db.revertBlock db.getBtcBlockHeight bundle).blockCommits[height]? =
        if db.getBtcBlockHeight = height then none else db.blockCommits[height]? :=
      fun height => Table.getElem?_delete _ _ _
    constructor
    · rw [hcommit]
      split
      · rfl
      · exact h.genesis
    · intro height hlt
      rw [hcommit]
      split
      · rfl
      · exact h.above height (by omega)
    · intro height hlt
      obtain ⟨hash, hget⟩ := h.linked height (by omega)
      refine ⟨hash, ?_⟩
      have hentries : (db.revertBlock db.getBtcBlockHeight bundle).entriesAt (height + 1) =
          db.entriesAt (height + 1) := by
        refine entriesAt_congr (fun scriptHash => ?_)
        rw [RowsTracked.row_revertBlock, if_neg (by omega)]
      unfold BalanceHistoryDB.commitBelow
      rw [hcommit, hcommit, if_neg (by omega), if_neg (by omega), hget, hentries]
      rfl
    · intro scriptHash height value hrow
      rw [RowsTracked.row_revertBlock] at hrow
      split at hrow
      · cases hrow
      · exact h.inRange scriptHash height value hrow

theorem rollbackSteps (h : CommitChained sha256 db) (hs : RollbackSteps db db') :
    CommitChained sha256 db' := by
  induction hs with
  | refl => exact h
  | tail _ step ih => exact ih.rollbackStep step

theorem prune (h : CommitChained sha256 db) {minRetainedHeight : Nat}
    (hs : PruneStep db minRetainedHeight db') : CommitChained sha256 db' := by
  cases hs with
  | skip => exact h
  | prune supportedFrom supported => exact ⟨h.genesis, h.above, h.linked, h.inRange⟩

section Batch

variable {env : BatchEnv} {s : HistoryState} {latestBtcHeight undoRetentionBlocks : Nat}
  {blocks : List Block} {data : BatchBlockData} {update : BlockStateUpdateBatch}
  {created : Table OutPoint VOutUtxoInfo} {initial : Table USDBScriptHash BalanceHistoryData}

/-- A batch is committed over the commit of the height of the store. -/
theorem resolvePreviousCommit_eq {height : Nat} {db : BalanceHistoryDB} {previous : List UInt8}
    (h : resolvePreviousCommit (some height) (db.getBlockCommit height) = .ok previous) :
    previous = db.commitBelow height := by
  unfold BalanceHistoryDB.commitBelow
  cases height with
  | zero =>
    cases h
    unfold getBlockCommit
    rw [Option.map_map]
    rfl
  | succ height =>
    unfold getBlockCommit at h
    cases hget : db.blockCommits[height + 1]? with
    | none =>
      rw [hget] at h
      cases h
    | some value =>
      rw [hget] at h
      cases h
      rfl

theorem batch_commits
    (hb : BatchRun env s (s.db.getBtcBlockHeight + 1) blocks latestBtcHeight undoRetentionBlocks
      data update created initial) :
    update.blockCommits = buildBlockCommits env.sha256 data.blockBalanceDeltas
      (s.db.commitBelow s.db.getBtcBlockHeight) := by
  obtain ⟨previousCommit, scripts, hprev, -, rfl⟩ := collectUpdates_eq_ok.mp hb.collected
  rw [hb.start_eq, if_neg (Nat.succ_ne_zero _), Nat.add_sub_cancel] at hprev
  rw [resolvePreviousCommit_eq hprev]

/-- The rows at a height of the batch are the entries of its block. -/
theorem batch_entriesAt (ht : RowsTracked s.db)
    (hb : BatchRun env s (s.db.getBtcBlockHeight + 1) blocks latestBtcHeight undoRetentionBlocks
      data update created initial) {i : Nat} {delta : BlockBalanceDelta}
    (hdelta : data.blockBalanceDeltas[i]? = some delta)
    (hheight : delta.blockHeight = s.db.getBtcBlockHeight + 1 + i) :
    (s.db.updateBlockState update).entriesAt delta.blockHeight = delta.entries := by
  have hmem : delta ∈ data.blockBalanceDeltas := List.mem_of_getElem? hdelta
  have hids := processBlocksOf_ids hb.processed
  obtain ⟨block, hblock, hid⟩ : ∃ block, data.blocks[i]? = some block ∧
      block.height = delta.blockHeight := by
    have hget := congrArg (fun ids => ids[i]?) hids
    simp only [List.getElem?_map, hdelta, Option.map_some] at hget
    obtain ⟨block, hblock, heq⟩ := Option.map_eq_some_iff.mp hget.symm
    exact ⟨block, hblock, (Prod.mk.inj heq).1⟩
  have hpair : (block, delta) ∈ data.blocks.zip data.blockBalanceDeltas :=
    List.mem_of_getElem? (List.getElem?_zip_eq_some.mpr ⟨hblock, hdelta⟩)
  have hown := processBlocksOf_zip_entries hb.heights_pairwise hb.processed _ hpair
  refine sorted_entries_ext (entriesAt_sorted _ _) (processBlocksOf_sorted hb.processed delta hmem)
    ?_
  intro entry
  have hrow : ∀ scriptHash, (s.db.updateBlockState update).row scriptHash delta.blockHeight =
      deltaRow data.blockBalanceDeltas scriptHash delta.blockHeight := by
    intro scriptHash
    rw [hb.row]
    cases hold : s.db.row scriptHash delta.blockHeight with
    | none => exact Option.or_none
    | some value =>
      have hle := ht.rows_le _ _ _ hold
      omega
  rw [mem_entriesAt, hrow]
  constructor
  · rintro ⟨hh, hget⟩
    have hentry := mem_of_deltaRow hget
    rw [← hh] at hentry
    exact hown entry hentry (hh.trans hid.symm)
  · intro hentry
    have hflat : entry ∈ data.blockBalanceDeltas.flatMap (·.entries) :=
      List.mem_flatMap.mpr ⟨delta, hmem, hentry⟩
    have hh : entry.blockHeight = delta.blockHeight :=
      (processBlocksOf_zip_heights hb.processed _ hpair entry hentry).trans hid
    refine ⟨hh, Table.lookup_of_mem (processBlocksOf_keys_nodup hb.heights_pairwise hb.processed)
      (mem_entryRows.mpr ?_)⟩
    rw [← hh]
    exact hflat

theorem batch (h : CommitChained env.sha256 s.db) (ht : RowsTracked s.db)
    (hb : BatchRun env s (s.db.getBtcBlockHeight + 1) blocks latestBtcHeight undoRetentionBlocks
      data update created initial) :
    CommitChained env.sha256 (s.db.updateBlockState update) := by
  have hheight := hb.getBtcBlockHeight
  have hcommit := hb.blockCommit
  have hlen : data.blockBalanceDeltas.length = blocks.length := by
    have := congrArg List.length hb.delta_ids
    simpa using this
  constructor
  · rw [hcommit, if_neg (by omega)]
    exact h.genesis
  · intro height hlt
    rw [hheight] at hlt
    rw [hcommit, if_neg (by omega)]
    exact h.above height (by omega)
  · intro height hlt
    rw [hheight] at hlt
    by_cases hold : height < s.db.getBtcBlockHeight
    · obtain ⟨hash, hget⟩ := h.linked height hold
      have hentries : (s.db.updateBlockState update).entriesAt (height + 1) =
          s.db.entriesAt (height + 1) := by
        refine entriesAt_congr (fun scriptHash => ?_)
        rw [hb.row]
        cases hdelta : deltaRow data.blockBalanceDeltas scriptHash (height + 1) with
        | none => rfl
        | some value =>
          have hrange := hb.deltaRow_range hdelta
          omega
      refine ⟨hash, ?_⟩
      unfold BalanceHistoryDB.commitBelow
      rw [hcommit, hcommit, if_neg (by omega), if_neg (by omega), hget, hentries]
      rfl
    · -- the block is one of the batch, and the commit before it is the last of the store
      -- or the one before it in the batch
      obtain ⟨i, rfl⟩ : ∃ i, height = s.db.getBtcBlockHeight + i :=
        ⟨height - s.db.getBtcBlockHeight, by omega⟩
      have hi : i < data.blockBalanceDeltas.length := by omega
      have hid := congrArg (fun ids => ids[i]?) hb.delta_ids
      simp only [List.getElem?_map, List.getElem?_eq_getElem hi, Option.map_some] at hid
      obtain ⟨hfst, -⟩ := List.getElem?_zip_eq_some.mp hid.symm
      rw [List.getElem?_range' (by omega)] at hfst
      have hdelta := Option.some.inj hfst
      have hget : update.blockCommits[i]? = some (buildBlockCommit env.sha256
          data.blockBalanceDeltas[i]
          ((s.db.updateBlockState update).commitBelow (s.db.getBtcBlockHeight + i))) := by
        rw [batch_commits hb, buildBlockCommits_getElem?, List.getElem?_eq_getElem hi,
          ← batch_commits hb]
        have hbefore : (s.db.commitBelow s.db.getBtcBlockHeight ::
            update.blockCommits.map (·.blockCommit))[i]? =
            some ((s.db.updateBlockState update).commitBelow (s.db.getBtcBlockHeight + i)) := by
          unfold BalanceHistoryDB.commitBelow
          rw [hcommit]
          cases i with
          | zero =>
            rw [if_neg (by omega)]
            rfl
          | succ j =>
            have hj : j < update.blockCommits.length := by
              rw [batch_commits hb, buildBlockCommits_length]
              omega
            rw [if_pos (by omega), List.getElem?_cons_succ, List.getElem?_map,
              show s.db.getBtcBlockHeight + (j + 1) - (s.db.getBtcBlockHeight + 1) = j by omega,
              List.getElem?_eq_getElem hj]
            rfl
        rw [hbefore]
        rfl
      have hentries := batch_entriesAt ht hb (List.getElem?_eq_getElem hi) (by omega)
      have hkey : data.blockBalanceDeltas[i].blockHeight = s.db.getBtcBlockHeight + i + 1 := by
        omega
      rw [hkey] at hentries
      refine ⟨data.blockBalanceDeltas[i].blockHash, ?_⟩
      rw [hcommit, if_pos (by omega),
        show s.db.getBtcBlockHeight + i + 1 - (s.db.getBtcBlockHeight + 1) = i by omega, hget,
        hentries, ← hkey]
      rfl
  · intro scriptHash height value hrow
    rw [hb.row] at hrow
    cases hdelta : deltaRow data.blockBalanceDeltas scriptHash height with
    | some value' =>
      rw [hdelta] at hrow
      cases hrow
      exact processBlocksOf_inRange hb.processed _ (mem_of_deltaRow hdelta)
    | none =>
      rw [hdelta] at hrow
      exact h.inRange scriptHash height value hrow

end Batch

section Binding

variable {sha256 : Sha256} {db db' : BalanceHistoryDB}

theorem getBlockCommit_of_commitValue {height : Nat} {entry : BlockCommitEntry}
    (hheight : entry.blockHeight = height)
    (h : db.blockCommits[height]? = some (commitValue entry)) :
    db.getBlockCommit height = some entry := by
  unfold getBlockCommit
  rw [h]
  subst hheight
  rfl

theorem commitBelow_succ (h : CommitChained sha256 db) {height : Nat}
    (hlt : height < db.getBtcBlockHeight) :
    ∃ hash, db.getBlockCommit (height + 1) = some (buildBlockCommit sha256
        ⟨height + 1, hash, db.entriesAt (height + 1)⟩ (db.commitBelow height)) ∧
      db.commitBelow (height + 1) = computeBlockCommit sha256 (height + 1) hash
        (computeBalanceDeltaRoot sha256 ⟨height + 1, hash, db.entriesAt (height + 1)⟩)
        (db.commitBelow height) := by
  obtain ⟨hash, hget⟩ := h.linked height hlt
  refine ⟨hash, getBlockCommit_of_commitValue rfl hget, ?_⟩
  rw [show db.commitBelow (height + 1) =
    (db.blockCommits[height + 1]?.map (·.blockCommit)).getD emptyCommitHash from rfl, hget]
  rfl

theorem entriesAt_inRange (h : CommitChained sha256 db) (height : Nat) :
    ∀ entry ∈ db.entriesAt height, entry.blockHeight = height ∧
      AmountsInRange entry.delta entry.balance := by
  intro entry hmem
  obtain ⟨hheight, hrow⟩ := mem_entriesAt.mp hmem
  exact ⟨hheight, h.inRange _ _ _ hrow⟩

/-- A commit the store has is of a height it has reached. -/
theorem getBlockCommit_some (h : CommitChained sha256 db) {height : Nat} {entry : BlockCommitEntry}
    (hget : db.getBlockCommit height = some entry) :
    height ≤ db.getBtcBlockHeight ∧ db.commitBelow height = entry.blockCommit := by
  unfold getBlockCommit at hget
  obtain ⟨value, hvalue, rfl⟩ := Option.map_eq_some_iff.mp hget
  refine ⟨?_, ?_⟩
  · by_contra hgt
    rw [h.above height (by omega)] at hvalue
    cases hvalue
  · unfold BalanceHistoryDB.commitBelow
    rw [hvalue]
    rfl

/-- Equal commits are of the same block, over the same entries and an equal commit. -/
theorem chain_agree (hsha : SelfDelimiting sha256) (h : CommitChained sha256 db)
    (h' : CommitChained sha256 db') {height : Nat} (hle : height ≤ db.getBtcBlockHeight)
    (hle' : height ≤ db'.getBtcBlockHeight) (heq : db.commitBelow height = db'.commitBelow height) :
    ∀ k, 1 ≤ k → k ≤ height → ∃ block prev, block.blockHeight = k ∧
      db.getBlockCommit k = some (buildBlockCommit sha256 block prev) ∧
      db'.getBlockCommit k = some (buildBlockCommit sha256 block prev) ∧
      db.entriesAt k = block.entries ∧ db'.entriesAt k = block.entries := by
  induction height with
  | zero =>
    intro k hpos hk
    omega
  | succ height ih =>
    have hlt : height < db.getBtcBlockHeight := by omega
    have hlt' : height < db'.getBtcBlockHeight := by omega
    obtain ⟨hash, hget, hcommit⟩ := h.commitBelow_succ hlt
    obtain ⟨hash', hget', hcommit'⟩ := h'.commitBelow_succ hlt'
    rw [hcommit, hcommit'] at heq
    obtain ⟨rfl, hdelta, hprev⟩ := blockCommitBytes_inj hsha (hsha.injective heq)
    obtain ⟨-, hentries⟩ := balanceDeltaBytes_inj (h.entriesAt_inRange _) (h'.entriesAt_inRange _)
      hdelta
    intro k hpos hk
    rcases Nat.lt_or_ge k (height + 1) with hlt | hge
    · exact ih (by omega) (by omega) hprev k hpos (by omega)
    · obtain rfl : k = height + 1 := by omega
      refine ⟨⟨height + 1, hash, db.entriesAt (height + 1)⟩, db.commitBelow height, rfl, hget, ?_,
        rfl, hentries.symm⟩
      rw [hget', hprev, hentries]

/-- Below one common commit the stores have the same commits. -/
theorem getBlockCommit_agree (hsha : SelfDelimiting sha256) (h : CommitChained sha256 db)
    (h' : CommitChained sha256 db') {height : Nat} {entry entry' : BlockCommitEntry}
    (hget : db.getBlockCommit height = some entry)
    (hget' : db'.getBlockCommit height = some entry')
    (heq : entry.blockCommit = entry'.blockCommit) {k : Nat} (hpos : 1 ≤ k) (hk : k ≤ height) :
    db.getBlockCommit k = db'.getBlockCommit k := by
  obtain ⟨hle, hcommit⟩ := h.getBlockCommit_some hget
  obtain ⟨hle', hcommit'⟩ := h'.getBlockCommit_some hget'
  obtain ⟨block, prev, -, hblock, hblock', -⟩ :=
    h.chain_agree hsha h' hle hle' (by rw [hcommit, hcommit', heq]) k hpos hk
  rw [hblock, hblock']

/-- Every height from the first one up to the height of the store has its commit. -/
theorem getBlockCommit_isSome (h : CommitChained sha256 db) {height : Nat} (hpos : 1 ≤ height)
    (hle : height ≤ db.getBtcBlockHeight) : (db.getBlockCommit height).isSome := by
  obtain ⟨below, rfl⟩ := Nat.exists_eq_add_of_le' hpos
  obtain ⟨hash, hget, -⟩ := h.commitBelow_succ hle
  rw [hget]
  rfl

end Binding

end CommitChained

namespace Service

variable {config : SyncConfig} {sha256 : Sha256} {w w' : Service} {l : Label}

/-- The batches of a run are hashed with one digest. -/
def UsesDigest (sha256 : Sha256) : Label → Prop
  | .batch answers _ => answers.env.sha256 = sha256
  | _ => True

theorem Step.commitChained (ht : RowsTracked w.state.db) (h : CommitChained sha256 w.state.db)
    (hd : UsesDigest sha256 l) (hs : Step config w l w') :
    RowsTracked w'.state.db ∧ CommitChained sha256 w'.state.db := by
  refine ⟨ht.storeStep hs.storeStep, ?_⟩
  generalize w'.state.db = db, hs.storeStep = hstep
  cases hstep with
  | same => exact h
  | rollback steps => exact h.rollbackSteps steps
  | @batch answers faults latestBtcHeight data update created initial _ syncing le run prune =>
    have hdigest : answers.env.sha256 = sha256 := hd
    rw [← hdigest] at h ⊢
    have hbatch : CommitChained answers.env.sha256 (w.state.db.updateBlockState update) :=
      CommitChained.batch (s := { w.state with faults }) h ht run
    exact hbatch.prune prune

theorem Run.commitChained (h : Run config (fun _ l => UsesDigest sha256 l) initial w) :
    RowsTracked w.state.db ∧ CommitChained sha256 w.state.db :=
  h.induct ⟨.empty, .empty⟩ (fun _ _ _ hw hd hs => hs.commitChained hw.1 hw.2 hd)

/-- When no digest starts another one, equal commits at a height of two runs are over the
same block hashes and the same balance entries at every height up to it. -/
theorem Run.chain_commits_bind (config config' : SyncConfig) (sha256 : Sha256)
    (hsha : SelfDelimiting sha256) (w w' : Service)
    (h : Run config (fun _ l => UsesDigest sha256 l) initial w)
    (h' : Run config' (fun _ l => UsesDigest sha256 l) initial w') (height : Nat)
    (commit commit' : BlockCommitEntry) (hc : w.state.db.getBlockCommit height = some commit)
    (hc' : w'.state.db.getBlockCommit height = some commit')
    (heq : commit.blockCommit = commit'.blockCommit) :
    ∀ k, 1 ≤ k → k ≤ height → ∃ block prev, block.blockHeight = k ∧
      w.state.db.getBlockCommit k = some (buildBlockCommit sha256 block prev) ∧
      w'.state.db.getBlockCommit k = some (buildBlockCommit sha256 block prev) ∧
      w.state.db.entriesAt k = block.entries ∧ w'.state.db.entriesAt k = block.entries := by
  have hchain := h.commitChained.2
  have hchain' := h'.commitChained.2
  obtain ⟨hle, hcommit⟩ := hchain.getBlockCommit_some hc
  obtain ⟨hle', hcommit'⟩ := hchain'.getBlockCommit_some hc'
  exact hchain.chain_agree hsha hchain' hle hle' (by rw [hcommit, hcommit', heq])

end Service

section FirstCommit

def firstRootPreimage : List UInt8 := balanceDeltaBytes ⟨1, 11, [⟨7, 1, 50, 50⟩]⟩

def firstRootDigest : List UInt8 :=
  [233, 178, 245, 201, 70, 140, 158, 148, 27, 141, 232, 127, 167, 68, 114, 148, 142, 146, 154, 135,
    237, 69, 190, 244, 240, 255, 165, 85, 255, 25, 196, 196]

def firstCommitPreimage : List UInt8 := blockCommitBytes 1 11 firstRootDigest emptyCommitHash

def firstCommitDigest : List UInt8 :=
  [255, 50, 203, 112, 140, 253, 143, 154, 170, 87, 70, 242, 23, 81, 243, 179, 62, 211, 21, 206, 166,
    228, 192, 78, 249, 7, 215, 80, 81, 252, 92, 11]

/-- Any other input is kept, with a mark before each of its bytes and an end mark. -/
def keptBytes (bytes : List UInt8) : List UInt8 := bytes.flatMap (fun b => [1, b]) ++ [0]

/-- The digests of the two inputs that the first block hashes. -/
def firstSha256 (bytes : List UInt8) : List UInt8 :=
  if bytes = firstRootPreimage then firstRootDigest
  else if bytes = firstCommitPreimage then firstCommitDigest
  else keptBytes bytes

theorem keptBytes_selfDelimiting : SelfDelimiting keptBytes := by
  intro bytes bytes' h
  induction bytes generalizing bytes' with
  | nil =>
    cases bytes' with
    | nil => rfl
    | cons b bytes' =>
      obtain ⟨rest, hrest⟩ := h
      cases hrest
  | cons b bytes ih =>
    cases bytes' with
    | nil =>
      obtain ⟨rest, hrest⟩ := h
      cases hrest
    | cons b' bytes' =>
      obtain ⟨rest, hrest⟩ := h
      have hcons : 1 :: b :: (keptBytes bytes ++ rest) = 1 :: b' :: keptBytes bytes' := hrest
      obtain ⟨-, hcons'⟩ := List.cons.inj hcons
      obtain ⟨rfl, htail⟩ := List.cons.inj hcons'
      rw [ih bytes' ⟨rest, htail⟩]

theorem keptBytes_head (bytes : List UInt8) :
    (keptBytes bytes).head? = some 0 ∨ (keptBytes bytes).head? = some 1 := by
  cases bytes with
  | nil => exact .inl rfl
  | cons b bytes => exact .inr rfl

theorem firstSha256_selfDelimiting : SelfDelimiting firstSha256 := by
  have hroot : ∀ bytes rest, firstRootDigest ++ rest ≠ keptBytes bytes ∧
      keptBytes bytes ++ rest ≠ firstRootDigest := by
    intro bytes rest
    constructor
    · intro h
      have hhead := congrArg List.head? h
      rcases keptBytes_head bytes with hk | hk <;> rw [hk] at hhead <;> cases hhead
    · intro h
      have hhead := congrArg List.head? h
      rcases keptBytes_head bytes with hk | hk <;> rw [List.head?_append, hk] at hhead <;>
        cases hhead
  have hcommit : ∀ bytes rest, firstCommitDigest ++ rest ≠ keptBytes bytes ∧
      keptBytes bytes ++ rest ≠ firstCommitDigest := by
    intro bytes rest
    constructor
    · intro h
      have hhead := congrArg List.head? h
      rcases keptBytes_head bytes with hk | hk <;> rw [hk] at hhead <;> cases hhead
    · intro h
      have hhead := congrArg List.head? h
      rcases keptBytes_head bytes with hk | hk <;> rw [List.head?_append, hk] at hhead <;>
        cases hhead
  rintro bytes bytes' ⟨rest, h⟩
  unfold firstSha256 at h
  split_ifs at h with ha hb hb' ha' hb hb' hb hb'
  · exact ha.trans hb.symm
  · cases h
  · exact absurd h (hroot _ _).1
  · cases h
  · exact ha'.trans hb'.symm
  · exact absurd h (hcommit _ _).1
  · exact absurd h (hroot _ _).2
  · exact absurd h (hcommit _ _).2
  · exact keptBytes_selfDelimiting bytes bytes' ⟨rest, h⟩

/-- A process after its first block. -/
def committedService : Service :=
  .firstBatch plainConfig ⟨⟨firstSha256, fun _ => none, .sequential⟩, [coinbaseBlock 11 10 11], 1⟩ 1

theorem Service.chain_commits_bind_restart :
    (committedService.state.db.getBlockCommit 1).map (·.blockCommit) = some firstCommitDigest ∧
      committedService.state.db.entriesAt 1 = [⟨7, 1, 50, 50⟩] ∧
      ∀ k, 1 ≤ k → k ≤ 1 → ∃ block prev, block.blockHeight = k ∧
        committedService.state.db.getBlockCommit k =
          some (buildBlockCommit firstSha256 block prev) ∧
        (committedService.next plainConfig .restart).state.db.getBlockCommit k =
          some (buildBlockCommit firstSha256 block prev) ∧
        committedService.state.db.entriesAt k = block.entries ∧
        (committedService.next plainConfig .restart).state.db.entriesAt k = block.entries := by
  have hrun : Service.Run plainConfig (fun _ l => Service.UsesDigest firstSha256 l) .initial
      committedService := Service.run_firstBatch (by simp) (by decide) trivial rfl
  have hrestart := hrun.next .restart trivial trivial
  obtain ⟨commit, hcommit⟩ := Option.isSome_iff_exists.mp
    (show (committedService.state.db.getBlockCommit 1).isSome by decide +kernel)
  refine ⟨by decide +kernel, by decide +kernel, ?_⟩
  exact Service.Run.chain_commits_bind plainConfig plainConfig firstSha256 firstSha256_selfDelimiting _ _
    hrun hrestart 1 commit commit hcommit hcommit rfl

end FirstCommit

end Usdb.Balances
