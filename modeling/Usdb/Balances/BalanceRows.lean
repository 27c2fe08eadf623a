import Usdb.Framework.Timeline
import Usdb.Balances.BatchShape

namespace Usdb.Balances

open Framework

/-- What a lookup answers for the row it found. -/
def balanceData : Option (Nat × BalanceValue) → BalanceHistoryData
  | some (height, value) => ⟨height, value.delta, value.balance⟩
  | none => ⟨0, 0, 0⟩

/-- The rows of a script hash end with this one. -/
structure LastRow (rows : Nat → Option BalanceValue) (data : BalanceHistoryData) : Prop where
  row : rows data.blockHeight = some ⟨data.delta, data.balance⟩
  above : ∀ height, data.blockHeight < height → rows height = none

namespace BalanceHistoryDB

variable (db : BalanceHistoryDB) (scriptHash : USDBScriptHash)

/-- The balance row of a script hash at a height. -/
def row (height : Nat) : Option BalanceValue := db.balanceHistory[BalanceKey.mk scriptHash height]?

theorem seekForPrev_row {targetHeight height : Nat} {value : BalanceValue} :
    db.balanceHistory.seekForPrev ⟨scriptHash, targetHeight⟩ =
        some (⟨scriptHash, height⟩, value) ↔
      findLast (db.row scriptHash) targetHeight = some (height, value) := by
  rw [Table.seekForPrev_eq_some, findLast_eq_some, Table.mem_toList, BalanceKey.compare_isLE]
  constructor
  · rintro ⟨hrow, hle, hmax⟩
    have hle' : height ≤ targetHeight := by
      rcases hle with hlt | ⟨-, hle⟩
      · exact absurd hlt (lt_irrefl _)
      · exact hle
    refine ⟨hle', hrow, ?_⟩
    intro k hlt hk
    cases hget : db.row scriptHash k with
    | none => rfl
    | some value' =>
      have hbound := hmax (⟨scriptHash, k⟩, value') (Table.mem_toList.mpr hget)
        ((BalanceKey.compare_isLE _ _ _ _).mpr (.inr ⟨rfl, hk⟩))
      rcases (BalanceKey.compare_isLE _ _ _ _).mp hbound with hs | ⟨-, hle⟩
      · exact absurd hs (lt_irrefl _)
      · omega
  · rintro ⟨hle, hrow, hnone⟩
    refine ⟨hrow, .inr ⟨rfl, hle⟩, ?_⟩
    rintro ⟨⟨scriptHash', k⟩, value'⟩ hmem hcmp
    refine (BalanceKey.compare_isLE _ _ _ _).mpr ?_
    rcases (BalanceKey.compare_isLE _ _ _ _).mp hcmp with hs | ⟨rfl, hk⟩
    · exact .inl hs
    · refine .inr ⟨rfl, ?_⟩
      by_contra hlt
      have hget : db.row scriptHash' k = some value' := Table.mem_toList.mp hmem
      rw [hnone k (by omega) hk] at hget
      cases hget

/-- The reverse iterator answers with the last row of the script hash at or below the
height, and with zeros when there is none. -/
theorem getBalanceAtBlockHeight_eq (targetHeight : Nat) :
    db.getBalanceAtBlockHeight scriptHash targetHeight =
      balanceData (findLast (db.row scriptHash) targetHeight) := by
  unfold getBalanceAtBlockHeight
  cases hfind : findLast (db.row scriptHash) targetHeight with
  | some found =>
    obtain ⟨height, value⟩ := found
    rw [(seekForPrev_row db scriptHash).mpr hfind]
    exact if_pos rfl
  | none =>
    cases hseek : db.balanceHistory.seekForPrev ⟨scriptHash, targetHeight⟩ with
    | none => rfl
    | some found =>
      obtain ⟨⟨scriptHash', height⟩, value⟩ := found
      refine if_neg ?_
      rintro rfl
      rw [seekForPrev_row, hfind] at hseek
      cases hseek

variable {db scriptHash}

theorem getBalanceAtBlockHeight_of_lastRow {data : BalanceHistoryData} {targetHeight : Nat}
    (h : LastRow (db.row scriptHash) data) (hle : data.blockHeight ≤ targetHeight) :
    db.getBalanceAtBlockHeight scriptHash targetHeight = data := by
  have hfind : findLast (db.row scriptHash) targetHeight =
      some (data.blockHeight, ⟨data.delta, data.balance⟩) :=
    (findLast_eq_some _ _ _ _).mpr ⟨hle, h.row, fun k hk _ => h.above k hk⟩
  rw [getBalanceAtBlockHeight_eq, hfind]
  rfl

/-- When no row is above the height asked for, an answer with a balance is the last row. -/
theorem lastRow_of_getBalanceAtBlockHeight {targetHeight : Nat}
    (hrows : ∀ height, targetHeight < height → db.row scriptHash height = none)
    (hne : (db.getBalanceAtBlockHeight scriptHash targetHeight).balance ≠ 0) :
    LastRow (db.row scriptHash) (db.getBalanceAtBlockHeight scriptHash targetHeight) ∧
      (db.getBalanceAtBlockHeight scriptHash targetHeight).blockHeight ≤ targetHeight := by
  rw [getBalanceAtBlockHeight_eq] at hne ⊢
  cases hfind : findLast (db.row scriptHash) targetHeight with
  | none =>
    rw [hfind] at hne
    exact absurd rfl hne
  | some found =>
    obtain ⟨height, value⟩ := found
    obtain ⟨hle, hrow, hnone⟩ := (findLast_eq_some _ _ _ _).mp hfind
    refine ⟨⟨hrow, ?_⟩, hle⟩
    intro k hk
    by_cases hkt : k ≤ targetHeight
    · exact hnone k hk hkt
    · exact hrows k (by omega)

end BalanceHistoryDB

section Entries

/-- Entries as rows of the balance history. -/
def entryRows (entries : List BalanceHistoryEntry) : List (BalanceKey × BalanceValue) :=
  entries.map (fun entry => (⟨entry.scriptHash, entry.blockHeight⟩, ⟨entry.delta, entry.balance⟩))

/-- The row that the results of some blocks give to a script hash at a height. -/
def deltaRow (deltas : List BlockBalanceDelta) (scriptHash : USDBScriptHash) (height : Nat) :
    Option BalanceValue :=
  (entryRows (deltas.flatMap (·.entries))).lookup ⟨scriptHash, height⟩

variable {balances balances' : Table USDBScriptHash BalanceHistoryData} {block : PreloadBlock}
  {delta : BlockBalanceDelta} {scriptHash : USDBScriptHash}

theorem settleEntry_ok {height : Nat} {change : USDBScriptHash × Int} {entry : BalanceHistoryEntry}
    (h : settleEntry height balances change = .ok entry) :
    ∃ current balance, balances[change.1]? = some current ∧
      checkI64 (asI64 current.balance + change.2) = .ok balance ∧ 0 ≤ balance ∧
      entry = ⟨change.1, height, change.2, balance.toNat⟩ := by
  unfold settleEntry at h
  cases hget : balances[change.1]? with
  | none =>
    rw [hget] at h
    cases h
  | some current =>
    rw [hget] at h
    obtain ⟨balance, hcheck, h⟩ := bind_eq_ok_iff.mp h
    split at h
    · cases h
    · cases h
      exact ⟨current, balance, rfl, hcheck, by omega, rfl⟩

/-- The entries of a block are at its height, one for each script hash. -/
theorem processBlock_entries (h : processBlock balances block = .ok (delta, balances')) :
    (∀ entry ∈ delta.entries, entry.blockHeight = block.height) ∧
      (delta.entries.map (·.scriptHash)).Nodup := by
  obtain ⟨history, -, hentries, -, -, -⟩ := processBlock_ok h
  constructor
  · intro entry hmem
    obtain ⟨change, -, hsettle⟩ := mem_of_mapM_ok hentries hmem
    obtain ⟨current, balance, -, -, -, rfl⟩ := settleEntry_ok hsettle
    rfl
  · have hkeys : delta.entries.map (·.scriptHash) = history.toList.map (·.1) := by
      refine map_of_mapM_ok hentries ?_
      intro change entry hsettle
      obtain ⟨current, balance, -, -, -, rfl⟩ := settleEntry_ok hsettle
      rfl
    rw [hkeys]
    exact Table.toList_keys_nodup history

theorem entryRows_append (entries entries' : List BalanceHistoryEntry) :
    entryRows (entries ++ entries') = entryRows entries ++ entryRows entries' :=
  List.map_append

theorem deltaRow_cons (delta : BlockBalanceDelta) (deltas : List BlockBalanceDelta)
    (scriptHash : USDBScriptHash) (height : Nat) :
    deltaRow (delta :: deltas) scriptHash height =
      ((entryRows delta.entries).lookup ⟨scriptHash, height⟩).or
        (deltaRow deltas scriptHash height) := by
  unfold deltaRow
  rw [List.flatMap_cons, entryRows_append, List.lookup_append]

theorem mem_entryRows {entries : List BalanceHistoryEntry} {key : BalanceKey}
    {value : BalanceValue} :
    (key, value) ∈ entryRows entries ↔
      ⟨key.scriptHash, key.blockHeight, value.delta, value.balance⟩ ∈ entries := by
  unfold entryRows
  rw [List.mem_map]
  constructor
  · rintro ⟨⟨scriptHash, height, change, balance⟩, hmem, heq⟩
    cases heq
    exact hmem
  · intro hmem
    exact ⟨_, hmem, rfl⟩

theorem deltaRow_eq_none_of_height {deltas : List BlockBalanceDelta} {height : Nat}
    (h : ∀ entry ∈ deltas.flatMap (·.entries), entry.blockHeight ≠ height) :
    deltaRow deltas scriptHash height = none := by
  refine Table.lookup_eq_none.mpr ?_
  intro hmem
  obtain ⟨⟨key, value⟩, hrow, heq⟩ := List.mem_map.mp hmem
  subst heq
  exact h _ (mem_entryRows.mp hrow) rfl

theorem mem_of_deltaRow {deltas : List BlockBalanceDelta} {height : Nat} {value : BalanceValue}
    (h : deltaRow deltas scriptHash height = some value) :
    ⟨scriptHash, height, value.delta, value.balance⟩ ∈ deltas.flatMap (·.entries) :=
  mem_entryRows.mp (Table.mem_of_lookup h)

section Blocks

variable {blocks : List PreloadBlock} {deltas : List BlockBalanceDelta}

theorem processBlocksOf_entry_heights
    (h : processBlocksOf blocks balances = .ok (deltas, balances')) :
    ∀ entry ∈ deltas.flatMap (·.entries), entry.blockHeight ∈ blocks.map (·.height) := by
  induction blocks generalizing balances deltas with
  | nil =>
    cases h
    intro entry hmem
    cases hmem
  | cons block blocks ih =>
    obtain ⟨delta, middle, rest, hb, hr, rfl⟩ := processBlocksOf_cons_ok h
    intro entry hmem
    rw [List.flatMap_cons, List.mem_append] at hmem
    rw [List.map_cons, List.mem_cons]
    rcases hmem with hfirst | hrest
    · exact .inl ((processBlock_entries hb).1 entry hfirst)
    · exact .inr (ih hr entry hrest)

theorem processBlock_keys_nodup (h : processBlock balances block = .ok (delta, balances')) :
    ((entryRows delta.entries).map (·.1)).Nodup := by
  have hnodup := (processBlock_entries h).2
  unfold entryRows
  rw [List.map_map]
  refine .of_map (fun key : BalanceKey => key.scriptHash) ?_
  rw [List.map_map]
  exact hnodup

theorem processBlocksOf_keys_nodup (hord : (blocks.map (·.height)).Pairwise (· < ·))
    (h : processBlocksOf blocks balances = .ok (deltas, balances')) :
    ((entryRows (deltas.flatMap (·.entries))).map (·.1)).Nodup := by
  induction blocks generalizing balances deltas with
  | nil =>
    cases h
    exact List.nodup_nil
  | cons block blocks ih =>
    obtain ⟨delta, middle, rest, hb, hr, rfl⟩ := processBlocksOf_cons_ok h
    rw [List.map_cons, List.pairwise_cons] at hord
    rw [List.flatMap_cons, entryRows_append, List.map_append]
    refine List.nodup_append.mpr ⟨processBlock_keys_nodup hb, ih hord.2 hr, ?_⟩
    intro key hkey key' hkey' heq
    obtain ⟨⟨key₁, value₁⟩, hrow₁, rfl⟩ := List.mem_map.mp hkey
    obtain ⟨⟨key₂, value₂⟩, hrow₂, rfl⟩ := List.mem_map.mp hkey'
    have h₁ := (processBlock_entries hb).1 _ (mem_entryRows.mp hrow₁)
    have h₂ := hord.1 _ (processBlocksOf_entry_heights hr _ (mem_entryRows.mp hrow₂))
    dsimp only at h₁ h₂ heq
    rw [heq] at h₁
    omega

/-- After a block the balance of a script hash is that of its entry, or what it was. -/
theorem processBlock_balance (h : processBlock balances block = .ok (delta, balances'))
    (scriptHash : USDBScriptHash) :
    (∃ value, (entryRows delta.entries).lookup ⟨scriptHash, block.height⟩ = some value ∧
        balances'[scriptHash]? = some ⟨block.height, value.delta, value.balance⟩) ∨
      (∀ height, (entryRows delta.entries).lookup ⟨scriptHash, height⟩ = none) ∧
        balances'[scriptHash]? = balances[scriptHash]? := by
  obtain ⟨hheights, -⟩ := processBlock_entries h
  obtain ⟨-, -, -, -, -, rfl⟩ := processBlock_ok h
  rcases Table.getElem?_insertMany_cases balances (delta.entries.map (fun entry =>
      (entry.scriptHash, BalanceHistoryData.mk entry.blockHeight entry.delta entry.balance)))
    scriptHash with ⟨data, hmem, hget⟩ | ⟨hmem, hget⟩
  · obtain ⟨entry, hentry, heq⟩ := List.mem_map.mp hmem
    cases heq
    have hheight := hheights entry hentry
    refine .inl ⟨⟨entry.delta, entry.balance⟩, ?_, ?_⟩
    · refine Table.lookup_of_mem (processBlock_keys_nodup h) (mem_entryRows.mpr ?_)
      rw [← hheight]
      exact hentry
    · rw [hget, hheight]
  · refine .inr ⟨?_, hget⟩
    intro height
    refine Table.lookup_eq_none.mpr (fun hkey => hmem ?_)
    obtain ⟨⟨key, value⟩, hrow, heq⟩ := List.mem_map.mp hkey
    subst heq
    exact List.mem_map.mpr ⟨_, List.mem_map_of_mem (mem_entryRows.mp hrow), rfl⟩

/-- After some blocks the balance of a script hash is its last row of them, or what it
was. -/
theorem processBlocksOf_balance (hord : (blocks.map (·.height)).Pairwise (· < ·))
    (h : processBlocksOf blocks balances = .ok (deltas, balances'))
    (scriptHash : USDBScriptHash) :
    (∃ data, LastRow (deltaRow deltas scriptHash) data ∧ balances'[scriptHash]? = some data) ∨
      (∀ height, deltaRow deltas scriptHash height = none) ∧
        balances'[scriptHash]? = balances[scriptHash]? := by
  induction blocks generalizing balances deltas with
  | nil =>
    cases h
    exact .inr ⟨fun _ => rfl, rfl⟩
  | cons block blocks ih =>
    obtain ⟨delta, middle, rest, hb, hr, rfl⟩ := processBlocksOf_cons_ok h
    rw [List.map_cons, List.pairwise_cons] at hord
    have hfirst : ∀ height, height ≠ block.height →
        (entryRows delta.entries).lookup ⟨scriptHash, height⟩ = none := by
      intro height hne
      refine Table.lookup_eq_none.mpr (fun hkey => hne ?_)
      obtain ⟨⟨key, value⟩, hrow, heq⟩ := List.mem_map.mp hkey
      subst heq
      exact (processBlock_entries hb).1 _ (mem_entryRows.mp hrow)
    have hlater : deltaRow rest scriptHash block.height = none := by
      refine deltaRow_eq_none_of_height (fun entry hentry heq => ?_)
      have := hord.1 _ (processBlocksOf_entry_heights hr entry hentry)
      omega
    rcases ih hord.2 hr with ⟨data, hlast, hget⟩ | ⟨hnone, hget⟩
    · refine .inl ⟨data, ⟨?_, ?_⟩, hget⟩
      · have hne : data.blockHeight ≠ block.height := by
          rintro heq
          have hrow := hlast.row
          rw [heq, hlater] at hrow
          cases hrow
        rw [deltaRow_cons, hfirst _ hne]
        exact hlast.row
      · intro height hlt
        have hmem := processBlocksOf_entry_heights hr _ (mem_of_deltaRow hlast.row)
        have hgt := hord.1 _ hmem
        dsimp only at hgt
        rw [deltaRow_cons, hfirst _ (by omega)]
        exact hlast.above height hlt
    · rcases processBlock_balance hb scriptHash with ⟨value, hrow, hmiddle⟩ | ⟨hno, hmiddle⟩
      · refine .inl ⟨⟨block.height, value.delta, value.balance⟩, ⟨?_, ?_⟩, hget.trans hmiddle⟩
        · rw [deltaRow_cons, hrow]
          rfl
        · intro height hlt
          have hlt' : block.height < height := hlt
          rw [deltaRow_cons, hfirst _ (by omega)]
          exact hnone height
      · refine .inr ⟨?_, hget.trans hmiddle⟩
        intro height
        rw [deltaRow_cons, hno]
        exact hnone height

end Blocks

end Entries

namespace BatchRun

variable {env : BatchEnv} {s : HistoryState} {start latestBtcHeight undoRetentionBlocks : Nat}
  {blocks : List Block} {data : BatchBlockData} {update : BlockStateUpdateBatch}
  {created : Table OutPoint VOutUtxoInfo} {initial : Table USDBScriptHash BalanceHistoryData}

theorem heights_pairwise (h : BatchRun env s start blocks latestBtcHeight undoRetentionBlocks data
      update created initial) : (data.blocks.map (·.height)).Pairwise (· < ·) := by
  rw [h.block_heights]
  exact List.pairwise_lt_range'

/-- The rows of a batch win over the rows of the store. -/
theorem row (h : BatchRun env s start blocks latestBtcHeight undoRetentionBlocks data
      update created initial) (scriptHash : USDBScriptHash) (height : Nat) :
    (s.db.updateBlockState update).row scriptHash height =
      (deltaRow data.blockBalanceDeltas scriptHash height).or (s.db.row scriptHash height) := by
  obtain ⟨previousCommit, scripts, -, -, rfl⟩ := collectUpdates_eq_ok.mp h.collected
  have hn := processBlocksOf_keys_nodup h.heights_pairwise h.processed
  have hperm : (entryRows ((data.blockBalanceDeltas.flatMap (·.entries)).insertionSort
      entryLE)).Perm (entryRows (data.blockBalanceDeltas.flatMap (·.entries))) :=
    (List.perm_insertionSort _ _).map _
  refine Eq.trans ?_ (Table.getElem?_insertMany_lookup hn)
  rw [← Table.insertMany_perm hperm ((hperm.map _).nodup_iff.mpr hn)]
  rfl

/-- The rows of a batch are at the heights of its range. -/
theorem deltaRow_range (h : BatchRun env s start blocks latestBtcHeight undoRetentionBlocks data
      update created initial) {scriptHash : USDBScriptHash} {height : Nat} {value : BalanceValue}
    (hrow : deltaRow data.blockBalanceDeltas scriptHash height = some value) :
    start ≤ height ∧ height < start + blocks.length := by
  have hmem := processBlocksOf_entry_heights h.processed _ (mem_of_deltaRow hrow)
  rw [h.block_heights, List.mem_range'_1] at hmem
  exact hmem

end BatchRun

section EntriesAt

/-- The rows at a height as the entries of its block, in the order of the table. -/
def BalanceHistoryDB.entriesAt (db : BalanceHistoryDB) (height : Nat) : List BalanceHistoryEntry :=
  (db.balanceHistory.toList.filter (fun row => row.1.blockHeight = height)).map (fun row =>
    ⟨row.1.scriptHash, row.1.blockHeight, row.2.delta, row.2.balance⟩)

variable {db db' : BalanceHistoryDB} {height : Nat}

theorem mem_entriesAt {entry : BalanceHistoryEntry} :
    entry ∈ db.entriesAt height ↔ entry.blockHeight = height ∧
      db.row entry.scriptHash height = some ⟨entry.delta, entry.balance⟩ := by
  unfold BalanceHistoryDB.entriesAt
  rw [List.mem_map]
  constructor
  · rintro ⟨⟨key, value⟩, hmem, rfl⟩
    obtain ⟨hrow, hheight⟩ := List.mem_filter.mp hmem
    have hheight' : key.blockHeight = height := by simpa using hheight
    subst hheight'
    exact ⟨rfl, Table.mem_toList.mp hrow⟩
  · rintro ⟨rfl, hrow⟩
    refine ⟨(⟨entry.scriptHash, entry.blockHeight⟩, ⟨entry.delta, entry.balance⟩), ?_, rfl⟩
    exact List.mem_filter.mpr ⟨Table.mem_toList.mpr hrow, by simp⟩

theorem entriesAt_sorted (db : BalanceHistoryDB) (height : Nat) :
    (db.entriesAt height).Pairwise (fun a b => a.scriptHash < b.scriptHash) := by
  unfold BalanceHistoryDB.entriesAt
  rw [List.pairwise_map]
  refine List.Pairwise.imp_of_mem ?_ (Std.ExtTreeMap.ordered_keys_toList.filter _)
  intro a b ha hb hlt
  have ha' : a.1.blockHeight = height := by simpa using (List.mem_filter.mp ha).2
  have hb' : b.1.blockHeight = height := by simpa using (List.mem_filter.mp hb).2
  have hle : (compare (BalanceKey.mk a.1.scriptHash a.1.blockHeight)
      ⟨b.1.scriptHash, b.1.blockHeight⟩).isLE := by
    rw [show BalanceKey.mk a.1.scriptHash a.1.blockHeight = a.1 from rfl,
      show BalanceKey.mk b.1.scriptHash b.1.blockHeight = b.1 from rfl, hlt]
    rfl
  rcases (BalanceKey.compare_isLE _ _ _ _).mp hle with h | ⟨h, -⟩
  · exact h
  · have heq : a.1 = b.1 := by
      rw [show a.1 = ⟨a.1.scriptHash, a.1.blockHeight⟩ from rfl, h, ha', ← hb']
    rw [heq] at hlt
    rw [Std.compare_self] at hlt
    cases hlt

/-- Entries sorted by script hash are given by their members. -/
theorem sorted_entries_ext {entries entries' : List BalanceHistoryEntry}
    (hs : entries.Pairwise (fun a b => a.scriptHash < b.scriptHash))
    (hs' : entries'.Pairwise (fun a b => a.scriptHash < b.scriptHash))
    (h : ∀ entry, entry ∈ entries ↔ entry ∈ entries') : entries = entries' := by
  have hn : ∀ {l : List BalanceHistoryEntry},
      l.Pairwise (fun a b => a.scriptHash < b.scriptHash) → l.Nodup :=
    fun hl => hl.imp (fun hlt heq => absurd hlt (by rw [heq]; exact lt_irrefl _))
  have hperm : entries.Perm entries' := (List.perm_ext_iff_of_nodup (hn hs) (hn hs')).mpr h
  refine hperm.eq_of_pairwise ?_ hs hs'
  intro a b _ _ hab hba
  exact absurd (lt_trans hab hba) (lt_irrefl _)

theorem entriesAt_congr (h : ∀ scriptHash, db.row scriptHash height = db'.row scriptHash height) :
    db.entriesAt height = db'.entriesAt height := by
  refine sorted_entries_ext (entriesAt_sorted db height) (entriesAt_sorted db' height) ?_
  intro entry
  rw [mem_entriesAt, mem_entriesAt, h]

end EntriesAt

end Usdb.Balances
