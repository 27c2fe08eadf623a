import Usdb.Framework.Traverse
import Usdb.Balances.StoreSteps

namespace Usdb.Balances

open Framework BalanceHistoryDB

section Preprocess

theorem preprocessBlocks_append (start : Nat) (blocks blocks' : List Block) :
    preprocessBlocks start (blocks ++ blocks') =
      preprocessBlocks start blocks ++ preprocessBlocks (start + blocks.length) blocks' := by
  induction blocks generalizing start with
  | nil => rfl
  | cons block blocks ih =>
    rw [List.cons_append, preprocessBlocks, ih, preprocessBlocks, List.cons_append,
      List.length_cons, Nat.add_assoc start 1, Nat.add_comm 1]

theorem preprocessBlocks_ids (start : Nat) (blocks : List Block) :
    (preprocessBlocks start blocks).map (fun block => (block.height, block.blockHash)) =
      (List.range' start blocks.length).zip (blocks.map (·.blockHash)) := by
  induction blocks generalizing start with
  | nil => rfl
  | cons block blocks ih =>
    rw [preprocessBlocks, List.map_cons, ih]
    rfl

end Preprocess

section Ids

variable {env : BatchEnv} {db : BalanceHistoryDB} {utxoCache : OutPoint → Option UTXOValue}

theorem preloadUtxos_id {voutUtxos : Table OutPoint VOutUtxoInfo} {block block' : PreloadBlock}
    (h : preloadUtxos env db utxoCache voutUtxos block = .ok block') :
    (block'.height, block'.blockHash) = (block.height, block.blockHash) := by
  unfold preloadUtxos at h
  cases htx : block.txdata.mapM (fun tx => do
      let vin ← tx.vin.mapM (preloadVin env db utxoCache voutUtxos block.height)
      return { tx with vin }) with
  | error e =>
    rw [htx] at h
    cases h
  | ok txdata =>
    rw [htx] at h
    cases h
    rfl

theorem processBlock_ok {balances balances' : Table USDBScriptHash BalanceHistoryData}
    {block : PreloadBlock} {delta : BlockBalanceDelta}
    (h : processBlock balances block = .ok (delta, balances')) :
    ∃ history, blockHistory block = .ok history ∧
      history.toList.mapM (settleEntry block.height balances) = .ok delta.entries ∧
      delta.blockHeight = block.height ∧ delta.blockHash = block.blockHash ∧
      balances' = balances.insertMany (delta.entries.map (fun entry =>
        (entry.scriptHash, ⟨entry.blockHeight, entry.delta, entry.balance⟩))) := by
  unfold processBlock at h
  cases hh : blockHistory block with
  | error e =>
    rw [hh] at h
    cases h
  | ok history =>
    rw [hh] at h
    cases he : history.toList.mapM (settleEntry block.height balances) with
    | error e =>
      have h' : (history.toList.mapM (settleEntry block.height balances) >>= _) = _ := h
      rw [he] at h'
      cases h'
    | ok entries =>
      have h' : (history.toList.mapM (settleEntry block.height balances) >>= _) = _ := h
      rw [he] at h'
      cases h'
      exact ⟨history, rfl, he, rfl, rfl, rfl⟩

theorem processBlocksOf_cons_ok {balances balances' : Table USDBScriptHash BalanceHistoryData}
    {block : PreloadBlock} {blocks : List PreloadBlock} {deltas : List BlockBalanceDelta}
    (h : processBlocksOf (block :: blocks) balances = .ok (deltas, balances')) :
    ∃ delta middle rest, processBlock balances block = .ok (delta, middle) ∧
      processBlocksOf blocks middle = .ok (rest, balances') ∧ deltas = delta :: rest := by
  unfold processBlocksOf at h
  cases hb : processBlock balances block with
  | error e =>
    rw [hb] at h
    cases h
  | ok result =>
    rw [hb] at h
    have h' : (processBlocksOf blocks result.2 >>= fun x => pure (result.1 :: x.1, x.2)) =
      Except.ok (deltas, balances') := h
    cases hr : processBlocksOf blocks result.2 with
    | error e =>
      rw [hr] at h'
      cases h'
    | ok rest =>
      rw [hr] at h'
      cases h'
      exact ⟨result.1, result.2, rest.1, rfl, hr, rfl⟩

theorem processBlocksOf_ids {balances balances' : Table USDBScriptHash BalanceHistoryData}
    {blocks : List PreloadBlock} {deltas : List BlockBalanceDelta}
    (h : processBlocksOf blocks balances = .ok (deltas, balances')) :
    deltas.map (fun delta => (delta.blockHeight, delta.blockHash)) =
      blocks.map (fun block => (block.height, block.blockHash)) := by
  induction blocks generalizing balances deltas with
  | nil =>
    cases h
    rfl
  | cons block blocks ih =>
    obtain ⟨delta, middle, rest, hb, hr, rfl⟩ := processBlocksOf_cons_ok h
    obtain ⟨-, -, -, hheight, hhash, -⟩ := processBlock_ok hb
    rw [List.map_cons, List.map_cons, hheight, hhash, ih hr]

theorem buildBlockCommits_ids (sha256 : Sha256) (deltas : List BlockBalanceDelta)
    (prev : List UInt8) :
    (buildBlockCommits sha256 deltas prev).map
        (fun commit => (commit.blockHeight, commit.btcBlockHash)) =
      deltas.map (fun delta => (delta.blockHeight, delta.blockHash)) := by
  induction deltas generalizing prev with
  | nil => rfl
  | cons delta deltas ih =>
    rw [buildBlockCommits, List.map_cons, List.map_cons, ih]
    rfl

end Ids

/-- A commit as a row of its table. -/
def commitValue (entry : BlockCommitEntry) : BlockCommitValue :=
  ⟨entry.btcBlockHash, entry.balanceDeltaRoot, entry.blockCommit⟩

/-- What went through a batch that succeeded. -/
structure BatchRun (env : BatchEnv) (s : HistoryState) (start : Nat) (blocks : List Block)
    (latestBtcHeight undoRetentionBlocks : Nat) (data : BatchBlockData)
    (update : BlockStateUpdateBatch) (created : Table OutPoint VOutUtxoInfo)
    (initial : Table USDBScriptHash BalanceHistoryData) : Prop where
  nonempty : blocks ≠ []
  start_eq : data.rangeStart = start
  end_eq : data.rangeEnd = start + blocks.length
  created_eq : created = (∅ : Table OutPoint VOutUtxoInfo).insertMany
    ((env.schedule.blockOrder (preprocessBlocks start blocks)).flatMap voutRows)
  marked : (env.schedule.inputOrder ((preprocessBlocks start blocks).flatMap
    (fun block => block.vins.map (·.outpoint)))).foldlM markSpent created = .ok data.voutUtxos
  filled : (preprocessBlocks start blocks).mapM (preloadUtxos env s.db s.utxoCache created) =
    .ok data.blocks
  loaded : startBalances s start data.blocks = .ok initial
  processed : processBlocksOf data.blocks initial = .ok (data.blockBalanceDeltas, data.balances)
  registered : data.scriptRegistry =
    env.schedule.scriptOrder (blocks.flatMap scriptRegistryEntries)
  collected : collectUpdates env s.db data latestBtcHeight undoRetentionBlocks = .ok update

section Unfold

variable {env : BatchEnv} {s : HistoryState} {start latestBtcHeight undoRetentionBlocks : Nat}
  {blocks : List Block} {data : BatchBlockData} {update : BlockStateUpdateBatch}

theorem preload_eq_ok (hne : blocks ≠ []) :
    preload env s start blocks = .ok data ↔
      ∃ voutUtxos filled balances,
        (env.schedule.inputOrder ((preprocessBlocks start blocks).flatMap
            (fun block => block.vins.map (·.outpoint)))).foldlM markSpent
          ((∅ : Table OutPoint VOutUtxoInfo).insertMany
            ((env.schedule.blockOrder (preprocessBlocks start blocks)).flatMap voutRows)) =
          .ok voutUtxos ∧
        (preprocessBlocks start blocks).mapM (preloadUtxos env s.db s.utxoCache
          ((∅ : Table OutPoint VOutUtxoInfo).insertMany
            ((env.schedule.blockOrder (preprocessBlocks start blocks)).flatMap voutRows))) =
          .ok filled ∧
        startBalances s start filled = .ok balances ∧
        data = { rangeStart := start, rangeEnd := start + blocks.length, blocks := filled,
                 voutUtxos, balances, blockBalanceDeltas := [],
                 scriptRegistry :=
                   env.schedule.scriptOrder (blocks.flatMap scriptRegistryEntries) } := by
  unfold preload
  rw [if_neg hne]
  constructor
  · intro h
    obtain ⟨voutUtxos, hmark, h⟩ := bind_eq_ok_iff.mp h
    obtain ⟨filled, hfill, h⟩ := bind_eq_ok_iff.mp h
    obtain ⟨balances, hbal, h⟩ := bind_eq_ok_iff.mp h
    cases h
    exact ⟨voutUtxos, filled, balances, hmark, hfill, hbal, rfl⟩
  · rintro ⟨voutUtxos, filled, balances, hmark, hfill, hbal, rfl⟩
    exact bind_eq_ok_iff.mpr ⟨voutUtxos, hmark, bind_eq_ok_iff.mpr ⟨filled, hfill,
      bind_eq_ok_iff.mpr ⟨balances, hbal, rfl⟩⟩⟩

theorem preload_nil : preload env s start [] ≠ .ok data := by
  intro h
  cases h

theorem process_eq_ok {data' : BatchBlockData} :
    process data = .ok data' ↔ ∃ deltas balances,
      processBlocksOf data.blocks data.balances = .ok (deltas, balances) ∧
      data' = { data with balances, blockBalanceDeltas := deltas } := by
  unfold process
  rw [bind_eq_ok_iff]
  constructor
  · rintro ⟨⟨deltas, balances⟩, h, heq⟩
    cases heq
    exact ⟨deltas, balances, h, rfl⟩
  · rintro ⟨deltas, balances, h, rfl⟩
    exact ⟨(deltas, balances), h, rfl⟩

theorem batchUpdate_eq_ok :
    batchUpdate env s start blocks latestBtcHeight undoRetentionBlocks = .ok (data, update) ↔
      ∃ created initial, BatchRun env s start blocks latestBtcHeight undoRetentionBlocks data
        update created initial := by
  unfold batchUpdate
  constructor
  · intro h
    obtain ⟨loaded, hload, h⟩ := bind_eq_ok_iff.mp h
    obtain ⟨processed, hproc, h⟩ := bind_eq_ok_iff.mp h
    obtain ⟨update', hcol, h⟩ := bind_eq_ok_iff.mp h
    cases h
    have hne : blocks ≠ [] := by
      rintro rfl
      exact preload_nil hload
    obtain ⟨voutUtxos, filled, balances, hmark, hfill, hbal, rfl⟩ := (preload_eq_ok hne).mp hload
    obtain ⟨deltas, balances', hrun, rfl⟩ := process_eq_ok.mp hproc
    exact ⟨_, balances, hne, rfl, rfl, rfl, hmark, hfill, hbal, hrun, rfl, hcol⟩
  · rintro ⟨created, initial, h⟩
    obtain ⟨hne, hstart, hend, rfl, hmark, hfill, hbal, hrun, hscripts, hcol⟩ := h
    have hload := (preload_eq_ok hne).mpr ⟨_, _, _, hmark, hfill, hbal, rfl⟩
    refine bind_eq_ok_iff.mpr ⟨_, hload, bind_eq_ok_iff.mpr ⟨data, ?_,
      bind_eq_ok_iff.mpr ⟨update, hcol, rfl⟩⟩⟩
    refine process_eq_ok.mpr ⟨_, _, hrun, ?_⟩
    rw [← hend, ← hstart, ← hscripts]

theorem collectUpdates_eq_ok :
    collectUpdates env s.db data latestBtcHeight undoRetentionBlocks = .ok update ↔
      ∃ previousCommit scriptRegistryEntries,
        resolvePreviousCommit (if data.rangeStart = 0 then none else some (data.rangeStart - 1))
            ((if data.rangeStart = 0 then none else some (data.rangeStart - 1)).bind
              s.db.getBlockCommit) = .ok previousCommit ∧
        collectScriptRegistryUpdates data = .ok scriptRegistryEntries ∧
        update = {
          newUtxos := collectNewUtxos data
          removeUtxos := collectSpentUtxos data
          entriesList := (data.blockBalanceDeltas.flatMap (·.entries)).insertionSort entryLE
          blockHeight := data.rangeEnd - 1
          blockCommits := buildBlockCommits env.sha256 data.blockBalanceDeltas previousCommit
          scriptRegistryEntries
          undoBundles := collectUndoBundles data latestBtcHeight undoRetentionBlocks } := by
  unfold collectUpdates
  constructor
  · intro h
    obtain ⟨previousCommit, hprevious, h⟩ := bind_eq_ok_iff.mp h
    obtain ⟨scriptRegistryEntries, hscripts, h⟩ := bind_eq_ok_iff.mp h
    cases h
    exact ⟨previousCommit, scriptRegistryEntries, hprevious, hscripts, rfl⟩
  · rintro ⟨previousCommit, scriptRegistryEntries, hprevious, hscripts, rfl⟩
    exact bind_eq_ok_iff.mpr ⟨previousCommit, hprevious,
      bind_eq_ok_iff.mpr ⟨scriptRegistryEntries, hscripts, rfl⟩⟩

end Unfold

section Scripts

variable {entries deduped out : List ScriptRegistryEntry} {data : BatchBlockData}

/-- The hash of a script stands for it. -/
def ScriptRegistryEntry.Named (entry : ScriptRegistryEntry) : Prop :=
  entry.scriptPubkey = ⟨entry.scriptHash, false⟩

theorem named_of_mem {blocks : List Block} {entry : ScriptRegistryEntry}
    (h : entry ∈ blocks.flatMap scriptRegistryEntries) : entry.Named := by
  obtain ⟨block, -, hblock⟩ := List.mem_flatMap.mp h
  obtain ⟨tx, -, htx⟩ := List.mem_flatMap.mp hblock
  obtain ⟨⟨value, usdbScriptHash, isOpReturn⟩, -, hout⟩ := List.mem_filterMap.mp htx
  cases isOpReturn with
  | true => cases hout
  | false =>
    cases hout
    rfl

/-- A script is pushed or was the last one pushed. -/
theorem mem_of_pushScriptEntry {entry e : ScriptRegistryEntry}
    (h : pushScriptEntry deduped entry = .ok out) : e ∈ out ↔ e ∈ deduped ∨ e = entry := by
  unfold pushScriptEntry at h
  split at h
  · rename_i hlast
    rw [List.getLast?_eq_none_iff] at hlast
    cases h
    simp [hlast]
  · rename_i last hlast
    have hmem : last ∈ deduped := List.mem_of_getLast? hlast
    by_cases hsame : last.scriptHash = entry.scriptHash
    · rw [if_pos hsame] at h
      split at h
      · cases h
      · rename_i hscript
        cases h
        have hentry : entry = last := by
          cases entry
          cases last
          simp_all
        constructor
        · exact .inl
        · rintro (he | rfl)
          · exact he
          · rw [hentry]
            exact hmem
    · rw [if_neg hsame] at h
      cases h
      simp

theorem foldlM_pushScriptEntry_ok (hall : ∀ entry ∈ deduped ++ entries, entry.Named) :
    ∃ out, entries.foldlM pushScriptEntry deduped = .ok out := by
  induction entries generalizing deduped with
  | nil => exact ⟨deduped, rfl⟩
  | cons entry entries ih =>
    have hpush : ∃ next, pushScriptEntry deduped entry = .ok next := by
      unfold pushScriptEntry
      split
      · exact ⟨_, rfl⟩
      · rename_i last hlast
        have hmem : last ∈ deduped := List.mem_of_getLast? hlast
        by_cases hsame : last.scriptHash = entry.scriptHash
        · have hscript : last.scriptPubkey = entry.scriptPubkey := by
            rw [hall last (List.mem_append_left _ hmem), hall entry (by simp), hsame]
          rw [if_pos hsame, if_neg (not_not_intro hscript)]
          exact ⟨_, rfl⟩
        · rw [if_neg hsame]
          exact ⟨_, rfl⟩
    obtain ⟨next, hok⟩ := hpush
    rw [List.foldlM_cons, hok]
    apply ih
    intro e he
    rcases List.mem_append.mp he with he | he
    · rcases (mem_of_pushScriptEntry hok).mp he with hmem | rfl
      · exact hall e (List.mem_append_left _ hmem)
      · exact hall e (by simp)
    · exact hall e (List.mem_append_right _ (List.mem_cons_of_mem _ he))

theorem mem_of_foldlM_pushScriptEntry {e : ScriptRegistryEntry}
    (h : entries.foldlM pushScriptEntry deduped = .ok out) :
    e ∈ out ↔ e ∈ deduped ∨ e ∈ entries := by
  induction entries generalizing deduped with
  | nil =>
    cases h
    simp
  | cons entry entries ih =>
    rw [List.foldlM_cons] at h
    obtain ⟨next, hpush, hrest⟩ := bind_eq_ok_iff.mp h
    rw [ih hrest, mem_of_pushScriptEntry hpush, List.mem_cons, or_assoc]

/-- The scripts of a batch do not conflict. -/
theorem collectScriptRegistryUpdates_ok (hall : ∀ entry ∈ data.scriptRegistry, entry.Named) :
    ∃ out, collectScriptRegistryUpdates data = .ok out := by
  apply foldlM_pushScriptEntry_ok
  intro entry hmem
  exact hall entry ((List.mem_insertionSort _).mp hmem)

/-- The scripts that a batch writes are those it has seen. -/
theorem mem_collectScriptRegistryUpdates {e : ScriptRegistryEntry}
    (h : collectScriptRegistryUpdates data = .ok out) : e ∈ out ↔ e ∈ data.scriptRegistry := by
  rw [mem_of_foldlM_pushScriptEntry h, List.mem_insertionSort]
  simp

end Scripts

namespace BatchRun

variable {env : BatchEnv} {s : HistoryState} {start latestBtcHeight undoRetentionBlocks : Nat}
  {blocks : List Block} {data : BatchBlockData} {update : BlockStateUpdateBatch}
  {created : Table OutPoint VOutUtxoInfo} {initial : Table USDBScriptHash BalanceHistoryData}

theorem block_ids (h : BatchRun env s start blocks latestBtcHeight undoRetentionBlocks data update
      created initial) :
    data.blocks.map (fun block => (block.height, block.blockHash)) =
      (List.range' start blocks.length).zip (blocks.map (·.blockHash)) := by
  rw [← preprocessBlocks_ids]
  exact map_of_mapM_ok h.filled (fun _ _ hb => preloadUtxos_id hb)

/-- A batch registers the scripts of its blocks. -/
theorem mem_scriptRegistryEntries (h : BatchRun env s start blocks latestBtcHeight
      undoRetentionBlocks data update created initial) {entry : ScriptRegistryEntry} :
    entry ∈ update.scriptRegistryEntries ↔ ∃ block ∈ blocks, entry ∈ scriptRegistryEntries block := by
  obtain ⟨previousCommit, scripts, -, hscripts, rfl⟩ := collectUpdates_eq_ok.mp h.collected
  rw [mem_collectScriptRegistryUpdates hscripts, h.registered,
    (env.schedule.scriptOrder_perm _).mem_iff, List.mem_flatMap]

theorem block_heights (h : BatchRun env s start blocks latestBtcHeight undoRetentionBlocks data
      update created initial) :
    data.blocks.map (·.height) = List.range' start blocks.length := by
  have h₁ := congrArg (List.map Prod.fst) h.block_ids
  rw [List.map_map, List.map_fst_zip (by simp)] at h₁
  exact h₁

theorem delta_ids (h : BatchRun env s start blocks latestBtcHeight undoRetentionBlocks data update
      created initial) :
    data.blockBalanceDeltas.map (fun delta => (delta.blockHeight, delta.blockHash)) =
      (List.range' start blocks.length).zip (blocks.map (·.blockHash)) :=
  (processBlocksOf_ids h.processed).trans h.block_ids

/-- The update commits each block of the batch at its height. -/
theorem commit_ids (h : BatchRun env s start blocks latestBtcHeight undoRetentionBlocks data update
      created initial) :
    update.blockCommits.map (fun commit => (commit.blockHeight, commit.btcBlockHash)) =
      (List.range' start blocks.length).zip (blocks.map (·.blockHash)) := by
  obtain ⟨previousCommit, scripts, -, -, rfl⟩ := collectUpdates_eq_ok.mp h.collected
  exact (buildBlockCommits_ids _ _ _).trans h.delta_ids

/-- After a batch, the heights of its range have its commits and the other heights what
they had. -/
theorem blockCommit (h : BatchRun env s start blocks latestBtcHeight undoRetentionBlocks data
      update created initial) (height : Nat) :
    (s.db.updateBlockState update).blockCommits[height]? =
      if start ≤ height ∧ height < start + blocks.length then
        (update.blockCommits[height - start]?).map commitValue
      else s.db.blockCommits[height]? := by
  have hids := congrArg (List.map Prod.fst) h.commit_ids
  rw [List.map_map, List.map_fst_zip (by simp)] at hids
  have hlen : update.blockCommits.length = blocks.length := by
    have := congrArg List.length hids
    simpa using this
  have hkeys : (update.blockCommits.map (fun entry => (entry.blockHeight, commitValue entry))).map
      (·.1) = List.range' start blocks.length := by
    rw [List.map_map]
    exact hids
  have hdb : (s.db.updateBlockState update).blockCommits = s.db.blockCommits.insertMany
      (update.blockCommits.map (fun entry => (entry.blockHeight, commitValue entry))) := rfl
  rw [hdb]
  by_cases hin : start ≤ height ∧ height < start + blocks.length
  · rw [if_pos hin]
    have hlt : height - start < update.blockCommits.length := by omega
    have hheight : (update.blockCommits[height - start]).blockHeight = height := by
      have hget := congrArg (fun l => l[height - start]?) hids
      simp only [List.getElem?_map, List.getElem?_eq_getElem hlt, List.getElem?_range'
        (show height - start < blocks.length by omega), Option.map_some, Option.some.injEq,
        Function.comp] at hget
      rw [hget]
      omega
    rw [List.getElem?_eq_getElem hlt]
    refine Table.getElem?_insertMany_of_mem (by rw [hkeys]; exact List.nodup_range') ?_
    exact List.mem_map.mpr ⟨_, List.getElem_mem hlt, by rw [hheight]⟩
  · rw [if_neg hin, Table.getElem?_insertMany_of_notMem]
    rw [hkeys, List.mem_range'_1]
    exact hin

theorem blockHeight (h : BatchRun env s start blocks latestBtcHeight undoRetentionBlocks data update
      created initial) : update.blockHeight = start + blocks.length - 1 := by
  obtain ⟨previousCommit, scripts, -, -, rfl⟩ := collectUpdates_eq_ok.mp h.collected
  exact congrArg (· - 1) h.end_eq

theorem getBtcBlockHeight (h : BatchRun env s (s.db.getBtcBlockHeight + 1) blocks latestBtcHeight
      undoRetentionBlocks data update created initial) :
    (s.db.updateBlockState update).getBtcBlockHeight = s.db.getBtcBlockHeight + blocks.length := by
  show update.blockHeight = _
  rw [h.blockHeight]
  omega

end BatchRun

/-- A shrink leaves the store alone, and either drops entries of the caches or finds one of
them with at most one entry. -/
theorem shrinkCaches_cases (lastUtxos : List OutPoint) (lastBalances : List USDBScriptHash)
    (s : HistoryState) :
    (∃ keepUtxo : OutPoint → Bool, ∃ keepBalance : USDBScriptHash → Bool,
      1 < lastUtxos.length ∧ 1 < lastBalances.length ∧
      shrinkCaches lastUtxos lastBalances s = .ok () { s with
        utxoCache := fun o => if keepUtxo o then s.utxoCache o else none
        balanceCache := fun h => if keepBalance h then s.balanceCache h else none }) ∨
    ∃ utxoCache, (lastUtxos.length ≤ 1 ∨ lastBalances.length ≤ 1) ∧
      shrinkCaches lastUtxos lastBalances s = .error .panic { s with utxoCache } := by
  by_cases hu : lastUtxos.length * 99 / 100 = 0
  · refine .inr ⟨s.utxoCache, .inl (by omega), ?_⟩
    exact liftExcept_error_bind (if_pos hu) _ s
  by_cases hb : lastBalances.length * 99 / 100 = 0
  · refine .inr ⟨fun o => if o ∈ lastUtxos.take (lastUtxos.length * 99 / 100) then s.utxoCache o
      else none, .inr (by omega), ?_⟩
    refine (liftExcept_ok_bind (if_neg hu) _ s).trans ?_
    exact liftExcept_error_bind (if_pos hb) _ _
  · refine .inl ⟨(· ∈ lastUtxos.take (lastUtxos.length * 99 / 100)),
      (· ∈ lastBalances.take (lastBalances.length * 99 / 100)), by omega, by omega, ?_⟩
    refine (liftExcept_ok_bind (if_neg hu) _ s).trans ((liftExcept_ok_bind (if_neg hb) _ _).trans ?_)
    simp only [decide_eq_true_eq]
    rfl

theorem shrinkCaches_db (lastUtxos : List OutPoint) (lastBalances : List USDBScriptHash)
    (s : HistoryState) : (finalState (shrinkCaches lastUtxos lastBalances s)).db = s.db := by
  rcases shrinkCaches_cases lastUtxos lastBalances s with ⟨_, _, -, -, h⟩ | ⟨_, -, h⟩ <;> rw [h] <;> rfl

namespace Service

variable {config : SyncConfig} {w w' : Service} {l : Label}

/-- What a step of the service does to the store. -/
inductive StoreStep (config : SyncConfig) (w : Service) : Label → BalanceHistoryDB → Prop
  | same (l : Label) : StoreStep config w l w.state.db
  | rollback {answers : ReorgAnswers} {latestBtcHeight : Nat} {faults : List IoResult}
      {db : BalanceHistoryDB} (steps : RollbackSteps w.state.db db) :
      StoreStep config w (.prepare answers latestBtcHeight faults) db
  | batch {answers : BatchAnswers} {faults : List IoResult} {latestBtcHeight : Nat}
      {data : BatchBlockData} {update : BlockStateUpdateBatch}
      {created : Table OutPoint VOutUtxoInfo} {initial : Table USDBScriptHash BalanceHistoryData}
      {db : BalanceHistoryDB} (syncing : w.phase = .syncing latestBtcHeight)
      (le : w.state.db.getBtcBlockHeight + answers.blocks.length ≤ latestBtcHeight)
      (run : BatchRun answers.env { w.state with faults } (w.state.db.getBtcBlockHeight + 1)
        answers.blocks latestBtcHeight config.undoRetentionBlocks data update created initial)
      (prune : PruneStep (w.state.db.updateBlockState update) (w.state.db.getBtcBlockHeight +
        answers.blocks.length - (config.undoRetentionBlocks - 1)) db) :
      StoreStep config w (.batch answers faults) db

theorem settle_db (result : EStateM.Result BalanceHistoryError HistoryState Unit) (next : Phase) :
    (settle result next).state.db = (finalState result).db := by
  cases result with
  | ok u t => rfl
  | error e t => cases e <;> rfl

theorem Step.storeStep (hs : Step config w l w') : StoreStep config w l w'.state.db := by
  obtain ⟨henabled, rfl⟩ := hs
  cases l with
  | prepare answers latestBtcHeight faults =>
    have hsteps := prepareSync_follows answers latestBtcHeight { w.state with faults }
    show StoreStep config w _ (settle _ _).state.db
    rw [settle_db]
    exact .rollback hsteps
  | batch answers faults =>
    obtain ⟨latestBtcHeight, hphase, -, hle⟩ := henabled
    simp only [next, hphase]
    rw [settle_db]
    rcases processBlockBatch_final config answers latestBtcHeight { w.state with faults } with
      ⟨fs, hf⟩ | ⟨data, update, db, fs, hb, hprune, hf⟩
    · rw [hf]
      exact .same _
    · obtain ⟨created, initial, hrun⟩ := batchUpdate_eq_ok.mp hb
      rw [hf]
      exact .batch hphase hle hrun hprune
  | finish => exact .same _
  | evict keepUtxo keepBalance => exact .same _
  | shrink lastUtxos lastBalances =>
    show StoreStep config w _ (settle _ _).state.db
    rw [settle_db, shrinkCaches_db]
    exact .same _
  | restart => exact .same _

end Service

end Usdb.Balances
