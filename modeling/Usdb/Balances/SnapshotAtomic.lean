import Usdb.Balances.SnapshotContents
import Usdb.Balances.SnapshotInstall

namespace Usdb.Balances

open Framework BalanceHistoryDB SnapshotInstaller

section Assertions

/-- The directories are these. In a run that is to meet no fault, there is none to come. -/
def At (clean : Prop) (disk : Disk) (s : InstallState) : Prop :=
  s.disk = disk ∧ (clean → s.faults = [])

/-- A run that may meet faults stopped, and the live store and its backup are these. -/
def Stopped (clean : Prop) (live backup : Option StoreDir) (_ : SnapshotError) (s : InstallState) :
    Prop :=
  ¬ clean ∧ s.disk.live = live ∧ s.disk.backup = backup

variable {clean : Prop} {live backup staging : Option StoreDir} {dir : StoreDir}

theorem act_spec (f : Disk → Disk) (disk : Disk) :
    Triple (At clean disk) (act f) (fun _ => At clean (f disk))
      (Stopped clean disk.live disk.backup) := by
  rintro ⟨_, faults⟩ ⟨rfl, hclean⟩
  unfold act
  cases faults with
  | nil => exact ⟨rfl, fun _ => rfl⟩
  | cons result rest =>
    have hnot : ¬ clean := fun h => List.cons_ne_nil _ _ (hclean h)
    cases result with
    | ok => exact ⟨rfl, fun h => absurd h hnot⟩
    | err => exact ⟨hnot, rfl, rfl⟩
    | crash => exact ⟨hnot, rfl, rfl⟩

theorem stage_spec (f : StoreDir → StoreDir) :
    Triple (At clean ⟨live, backup, some dir⟩) (stage f)
      (fun _ => At clean ⟨live, backup, some (f dir)⟩) (Stopped clean live backup) :=
  act_spec _ _

theorem stageDb_spec (f : BalanceHistoryDB → BalanceHistoryDB) :
    Triple (At clean ⟨live, backup, some dir⟩) (stageDb f)
      (fun _ => At clean ⟨live, backup, some { dir with db := f dir.db }⟩)
      (Stopped clean live backup) :=
  stage_spec _

theorem flushAll_spec :
    Triple (At clean ⟨live, backup, staging⟩) flushAll
      (fun _ => At clean ⟨live, backup, staging⟩) (Stopped clean live backup) :=
  act_spec _ _

/-- A check that a clean run passes. -/
theorem check_spec {α : Type} {x : Except SnapshotError α} (hx : clean → ∃ a, x = .ok a) :
    Triple (At clean ⟨live, backup, staging⟩) (check x)
      (fun a s => x = .ok a ∧ At clean ⟨live, backup, staging⟩ s) (Stopped clean live backup) := by
  rintro s ⟨hdisk, hclean⟩
  cases x with
  | ok a => exact ⟨rfl, hdisk, hclean⟩
  | error e =>
    refine ⟨fun h => ?_, ?_, ?_⟩
    · obtain ⟨a, ha⟩ := hx h
      cases ha
    · rw [hdisk]
    · rw [hdisk]

end Assertions

section Tables

variable {κ ν α : Type} [Ord κ] [Std.TransOrd κ] {t : Table κ ν}
  {getEntries : Nat → Option κ → List α} {keyOf : α → κ} {ofRow : κ × ν → α}
  {put : List α → BalanceHistoryDB → BalanceHistoryDB} {clean : Prop}
  {live backup : Option StoreDir} {dir : StoreDir}

/-- A reader of pages of a table, and a writer that may write in several turns. -/
structure Reads (t : Table κ ν) (ofRow : κ × ν → α) (getEntries : Nat → Option κ → List α)
    (keyOf : α → κ) (put : List α → BalanceHistoryDB → BalanceHistoryDB) : Prop where
  page : ∀ size last, getEntries size last = (t.pageAfter size last).map ofRow
  key : ∀ row, keyOf (ofRow row) = row.1
  inTurn : ∀ entries entries' db, put (entries ++ entries') db = put entries' (put entries db)

theorem installPages_spec (hreads : Reads t ofRow getEntries keyOf put) {fuel : Nat}
    {last : Option κ} {before after : List (κ × ν)} (h : t.ReadUpTo before after last)
    (hfuel : after.length < fuel) (installedTotal : Nat) :
    Triple (At clean ⟨live, backup, some dir⟩)
      (installPages getEntries keyOf put fuel last installedTotal)
      (fun total s => total = installedTotal + after.length ∧
        At clean ⟨live, backup, some { dir with db := put (after.map ofRow) dir.db }⟩ s)
      (Stopped clean live backup) := by
  have hsize : 0 < snapshotPageSize := by decide
  induction fuel generalizing before after last dir installedTotal with
  | zero => omega
  | succ fuel ih =>
    unfold installPages
    dsimp only
    rw [hreads.page, h.pageAfter_eq, List.length_map]
    apply Triple.bind (stageDb_spec _)
    intro _
    apply Triple.ite
    · intro hshort
      have hall : after.take snapshotPageSize = after := by
        rw [List.length_take] at hshort
        exact List.take_of_length_le (by omega)
      rw [hall]
      rintro s hs
      exact ⟨rfl, hs⟩
    · intro hfull
      rw [List.length_take] at hfull
      have hkeys : (((after.take snapshotPageSize).map ofRow).getLast?.map keyOf).or last =
          ((after.take snapshotPageSize).getLast?.map (·.1)).or last := by
        rw [List.getLast?_map, Option.map_map]
        congr 2
        funext row
        exact hreads.key row
      rw [hkeys]
      apply (ih (h.next snapshotPageSize) (by rw [List.length_drop]; omega)
        (installedTotal + (after.take snapshotPageSize).length)).conseq
      · exact fun _ hs => hs
      · rintro total s ⟨rfl, hs⟩
        constructor
        · rw [List.length_take, List.length_drop]
          omega
        · rw [← hreads.inTurn, ← List.map_append, List.take_append_drop] at hs
          exact hs
      · exact fun _ _ he => he

theorem installTable_spec (hreads : Reads t ofRow getEntries keyOf put) (total : Nat)
    (hcount : clean → total = 0 ∨ total = t.toList.length) :
    Triple (At clean ⟨live, backup, some dir⟩)
      (installTable total t.toList.length getEntries keyOf put)
      (fun _ s => (total = 0 ∨ total = t.toList.length) ∧ At clean ⟨live, backup,
        some { dir with db := if total = 0 then dir.db else put (t.toList.map ofRow) dir.db }⟩ s)
      (Stopped clean live backup) := by
  unfold installTable
  apply Triple.ite
  · intro hzero s hs
    rw [if_pos hzero]
    exact ⟨.inl hzero, hs⟩
  · intro hpos
    have hstart : t.ReadUpTo [] t.toList none := ⟨rfl, rfl⟩
    apply Triple.bind (installPages_spec hreads hstart (Nat.lt_succ_self _) 0)
    intro installedTotal
    apply Triple.ite
    · rintro hother s ⟨rfl, hdisk, -⟩
      refine ⟨fun h => ?_, ?_, ?_⟩
      · have := hcount h
        omega
      · rw [hdisk]
      · rw [hdisk]
    · intro hsame
      apply Triple.assume
      intro htotal
      apply flushAll_spec.post
      intro _ s h
      rw [if_neg hpos]
      exact ⟨.inr (by omega), h⟩

end Tables

section Staging

variable {clean : Prop} {live backup staging : Option StoreDir} {snapshot : SnapshotDB}
  {snapshotMeta : SnapshotMeta}

/-- The metadata counts the rows of the file, or none of a table. -/
structure Counted (snapshot : SnapshotDB) (snapshotMeta : SnapshotMeta) : Prop where
  balances : snapshotMeta.balanceHistoryCount = 0 ∨
    snapshotMeta.balanceHistoryCount = snapshot.balanceHistory.toList.length
  utxos : snapshotMeta.utxoCount = 0 ∨ snapshotMeta.utxoCount = snapshot.utxos.toList.length
  commits : snapshotMeta.blockCommitCount = 0 ∨
    snapshotMeta.blockCommitCount = snapshot.blockCommits.toList.length
  scripts : snapshotMeta.scriptRegistryCount = 0 ∨
    snapshotMeta.scriptRegistryCount = snapshot.scriptRegistry.toList.length

/-- The store that a file is rebuilt to. -/
def stagedDb (snapshot : SnapshotDB) (snapshotMeta : SnapshotMeta) : BalanceHistoryDB :=
  let db := BalanceHistoryDB.empty
  let db := if snapshotMeta.balanceHistoryCount = 0 then db else
    putAddressHistoryAsync (snapshot.balanceHistory.toList.map BalanceHistoryEntry.ofRow) db
  let db := if snapshotMeta.utxoCount = 0 then db else
    putUtxos (snapshot.utxos.toList.map UTXOEntry.ofRow) db
  let db := if snapshotMeta.blockCommitCount = 0 then db else
    putBlockCommitsAsync (snapshot.blockCommits.toList.map BlockCommitEntry.ofRow) db
  let db := if snapshotMeta.scriptRegistryCount = 0 then db else
    putScriptRegistryEntries (snapshot.scriptRegistry.toList.map ScriptRegistryEntry.ofRow) db
  putBtcBlockHeight snapshotMeta.blockHeight db

theorem reads_balanceHistory (snapshot : SnapshotDB) :
    Reads snapshot.balanceHistory BalanceHistoryEntry.ofRow snapshot.getBalanceHistoryEntries
      (·.scriptHash) putAddressHistoryAsync where
  page := fun _ _ => rfl
  key := fun _ => rfl
  inTurn := by
    intro entries entries' db
    simp only [putAddressHistoryAsync, List.map_append, Table.insertMany_append]

theorem reads_utxos (snapshot : SnapshotDB) :
    Reads snapshot.utxos UTXOEntry.ofRow snapshot.getUtxoEntries (·.outpoint) putUtxos where
  page := fun _ _ => rfl
  key := fun _ => rfl
  inTurn := by
    intro entries entries' db
    simp only [putUtxos, List.map_append, Table.insertMany_append]

theorem reads_blockCommits (snapshot : SnapshotDB) :
    Reads snapshot.blockCommits BlockCommitEntry.ofRow snapshot.getBlockCommitEntries
      (·.blockHeight) putBlockCommitsAsync where
  page := fun _ _ => rfl
  key := fun _ => rfl
  inTurn := by
    intro entries entries' db
    simp only [putBlockCommitsAsync, List.map_append, Table.insertMany_append]

theorem reads_scriptRegistry (snapshot : SnapshotDB) :
    Reads snapshot.scriptRegistry ScriptRegistryEntry.ofRow snapshot.getScriptRegistryEntries
      (·.scriptHash) putScriptRegistryEntries where
  page := fun _ _ => rfl
  key := fun _ => rfl
  inTurn := by
    intro entries entries' db
    simp only [putScriptRegistryEntries, List.map_append, Table.insertMany_append]

theorem stageSnapshot_spec (hcount : clean → Counted snapshot snapshotMeta) :
    Triple (At clean ⟨live, backup, staging⟩) (stageSnapshot snapshot snapshotMeta)
      (fun _ s => Counted snapshot snapshotMeta ∧ At clean ⟨live, backup,
        some { StoreDir.empty with db := stagedDb snapshot snapshotMeta }⟩ s)
      (Stopped clean live backup) := by
  unfold stageSnapshot
  apply Triple.bind (act_spec _ _)
  intro _
  apply Triple.bind (act_spec _ _)
  intro _
  apply Triple.bind (installTable_spec (reads_balanceHistory _) _ (fun h => (hcount h).balances))
  intro _
  apply Triple.assume
  intro hbalances
  apply Triple.bind (installTable_spec (reads_utxos _) _ (fun h => (hcount h).utxos))
  intro _
  apply Triple.assume
  intro hutxos
  apply Triple.bind (installTable_spec (reads_blockCommits _) _ (fun h => (hcount h).commits))
  intro _
  apply Triple.assume
  intro hcommits
  apply Triple.bind (installTable_spec (reads_scriptRegistry _) _ (fun h => (hcount h).scripts))
  intro _
  apply Triple.assume
  intro hscripts
  apply Triple.bind (stageDb_spec _)
  intro _
  apply flushAll_spec.post
  intro _ s h
  exact ⟨⟨hbalances, hutxos, hcommits, hscripts⟩, h⟩

end Staging

section Swap

variable {clean : Prop} {live backup staging : Option StoreDir} {dir : StoreDir}

theorem readDisk_spec {disk : Disk} {E : SnapshotError → InstallState → Prop} :
    Triple (At clean disk) readDisk (fun found s => found = disk ∧ At clean disk s) E :=
  fun _ h => ⟨h.1, h⟩

theorem refuse_spec {α : Type} {e : SnapshotError} {Q : α → InstallState → Prop}
    (h : ¬ clean) :
    Triple (At clean ⟨live, backup, staging⟩) (throw e : InstallM α) Q
      (Stopped clean live backup) := by
  intro s hs
  refine ⟨h, ?_, ?_⟩
  · rw [hs.1]
  · rw [hs.1]

theorem validateStagedManifest_spec (config : IdentityConfig) (snapshotMeta : SnapshotMeta)
    (manifest : SnapshotManifest)
    (hmatch : clean → buildHistoricalStateRefAtHeight config dir.db snapshotMeta.blockHeight =
      some manifest.stateRef) :
    Triple (At clean ⟨live, backup, some dir⟩)
      (validateStagedManifest config snapshotMeta manifest)
      (fun _ s => buildHistoricalStateRefAtHeight config dir.db snapshotMeta.blockHeight =
        some manifest.stateRef ∧ At clean ⟨live, backup, some dir⟩ s)
      (Stopped clean live backup) := by
  unfold validateStagedManifest
  apply Triple.bind readDisk_spec
  intro disk
  apply Triple.assume
  rintro rfl
  dsimp only
  cases hactual : buildHistoricalStateRefAtHeight config dir.db snapshotMeta.blockHeight with
  | none =>
    apply refuse_spec
    intro h
    have := hmatch h
    rw [hactual] at this
    cases this
  | some actual =>
    apply Triple.ite
    · intro hne
      apply refuse_spec
      intro h
      have := hmatch h
      rw [hactual] at this
      cases this
      exact hne rfl
    · intro heq s hs
      have hsame : actual = manifest.stateRef := Classical.not_not.mp heq
      rw [hsame]
      exact ⟨rfl, hs⟩

theorem putSnapshotInstallProvenance_spec (provenance : SnapshotInstallProvenance) :
    Triple (At clean ⟨live, backup, some dir⟩) (putSnapshotInstallProvenance provenance)
      (fun _ => At clean ⟨live, backup, some { dir with
        provenance := some provenance
        snapshotInstallUsed := some 1
        snapshotInstallManifestVerified := some (if provenance.manifestVerified then 1 else 0) }⟩)
      (Stopped clean live backup) := by
  unfold putSnapshotInstallProvenance
  apply Triple.bind (stage_spec _)
  intro _
  apply Triple.bind (stage_spec _)
  intro _
  exact stage_spec _

theorem backUpLive_spec (hroom : clean → live = none ∨ backup = none) :
    Triple (At clean ⟨live, backup, staging⟩) backUpLive
      (fun _ s => (live = none ∨ backup = none) ∧ At clean ⟨none, live.or backup, staging⟩ s)
      (Stopped clean live backup) := by
  unfold backUpLive
  apply Triple.bind readDisk_spec
  intro disk
  apply Triple.assume
  rintro rfl
  cases live with
  | none =>
    intro s hs
    exact ⟨.inl rfl, hs⟩
  | some old =>
    cases backup with
    | none =>
      apply (act_spec (fun disk => { disk with live := none, backup := disk.live })
        ⟨some old, none, staging⟩).post
      intro _ s hs
      exact ⟨.inr rfl, hs⟩
    | some other =>
      apply refuse_spec (e := SnapshotError.io)
      intro h
      simpa using hroom h

/-- The two directories are as they were, or have changed places. -/
def Kept (live backup : Option StoreDir) (disk : Disk) : Prop :=
  (disk.live = live ∧ disk.backup = backup) ∨ (disk.live = backup ∧ disk.backup = live)

/-- A new store is live, and the store it replaced is the backup. -/
def Replaced (live backup : Option StoreDir) (dir : StoreDir) (disk : Disk) : Prop :=
  (live = none ∨ backup = none) ∧ disk.live = some dir ∧ disk.backup = live.or backup

theorem promoteStaging_spec :
    Triple (At clean ⟨none, backup, some dir⟩) promoteStaging
      (fun _ => At clean ⟨some dir, backup, none⟩)
      (fun _ s => ¬ clean ∧ Kept none backup s.disk) := by
  rintro ⟨_, faults⟩ ⟨rfl, hclean⟩
  cases faults with
  | nil => exact ⟨rfl, fun _ => rfl⟩
  | cons result rest =>
    have hnot : ¬ clean := fun h => List.cons_ne_nil _ _ (hclean h)
    cases result with
    | ok => exact ⟨rfl, fun h => absurd h hnot⟩
    | crash => exact ⟨hnot, .inl ⟨rfl, rfl⟩⟩
    | err =>
      -- the backup is renamed back, when there is one and this goes through
      cases backup with
      | none => exact ⟨hnot, .inl ⟨rfl, rfl⟩⟩
      | some old =>
        cases rest with
        | nil => exact ⟨hnot, .inr ⟨rfl, rfl⟩⟩
        | cons result rest =>
          cases result with
          | ok => exact ⟨hnot, .inr ⟨rfl, rfl⟩⟩
          | err => exact ⟨hnot, .inl ⟨rfl, rfl⟩⟩
          | crash => exact ⟨hnot, .inl ⟨rfl, rfl⟩⟩

/-- Where the swap may stop: with the directories kept, or behind the promotion. -/
def SwapStopped (clean : Prop) (live backup : Option StoreDir) (dir : StoreDir)
    (_ : SnapshotError) (s : InstallState) : Prop :=
  ¬ clean ∧ (Kept live backup s.disk ∨ Replaced live backup dir s.disk)

theorem Stopped.kept {e : SnapshotError} {s : InstallState} (h : Stopped clean live backup e s) :
    ¬ clean ∧ Kept live backup s.disk :=
  ⟨h.1, .inl h.2⟩

/-- A store that has become the backup may be live again, and otherwise nothing moved. -/
theorem Kept.of_backedUp {disk : Disk} (hroom : live = none ∨ backup = none)
    (h : Kept none (live.or backup) disk) : Kept live backup disk := by
  rcases hroom with rfl | rfl
  · exact h
  · rw [Option.or_none] at h
    rcases h with ⟨hlive, hbackup⟩ | ⟨hlive, hbackup⟩
    · exact .inr ⟨hlive, hbackup⟩
    · exact .inl ⟨hlive, hbackup⟩

theorem swapStagingDbIntoPlace_spec (exclusive : Bool)
    (hroom : clean → exclusive = true ∧ (live = none ∨ backup = none)) :
    Triple (At clean ⟨live, backup, some dir⟩) (swapStagingDbIntoPlace exclusive)
      (fun _ s => exclusive = true ∧ Replaced live backup dir s.disk)
      (SwapStopped clean live backup dir) := by
  unfold swapStagingDbIntoPlace
  apply Triple.bind readDisk_spec
  intro disk
  apply Triple.assume
  rintro rfl
  apply Triple.ite
  · intro hnone
    cases hnone
  · intro _
    apply Triple.ite
    · intro hshared
      apply (refuse_spec _).conseq (fun _ hs => hs) (fun _ _ hs => hs)
        (fun _ _ hs => ⟨hs.1, .inl hs.kept.2⟩)
      intro h
      rw [(hroom h).1] at hshared
      cases hshared
    · intro hexclusive
      apply Triple.bind ((backUpLive_spec (fun h => (hroom h).2)).conseq (fun _ hs => hs)
        (fun _ _ hs => hs) (fun _ _ hs => ⟨hs.1, .inl hs.kept.2⟩))
      intro _
      apply Triple.assume
      intro hroom
      apply Triple.bind (promoteStaging_spec.conseq (fun _ hs => hs) (fun _ _ hs => hs)
        (fun _ _ hs => ⟨hs.1, .inl (hs.2.of_backedUp hroom)⟩))
      intro _
      apply flushAll_spec.conseq (fun _ hs => hs)
      · intro _ s hs
        refine ⟨by simpa using hexclusive, hroom, ?_, ?_⟩
        · rw [hs.1]
        · rw [hs.1]
      · intro _ s hs
        exact ⟨hs.1, .inr ⟨hroom, hs.2⟩⟩

end Swap

/-- An installation whose checks have passed, with what they found. -/
structure Installation (env : InstallEnv) (data : SnapshotData) where
  manifest : Option SnapshotManifest
  signatureVerified : Bool
  file : SnapshotFile
  snapshotMeta : SnapshotMeta
  loaded : loadManifest env data = .ok manifest
  signed : checkSignature env data manifest = .ok signatureVerified
  opened : checkFile data manifest = .ok file
  described : checkMeta manifest file = .ok snapshotMeta
  counted : Counted file.db snapshotMeta
  matched : ∀ m ∈ manifest, buildHistoricalStateRefAtHeight env.config
    (stagedDb file.db snapshotMeta) snapshotMeta.blockHeight = some m.stateRef

namespace Installation

variable {env : InstallEnv} {data : SnapshotData}

def provenance (i : Installation env data) : SnapshotInstallProvenance :=
  provenanceOf env data i.manifest i.signatureVerified i.snapshotMeta

/-- The directory that the installation prepares. -/
def dir (i : Installation env data) : StoreDir where
  db := stagedDb i.file.db i.snapshotMeta
  provenance := some i.provenance
  snapshotInstallUsed := some 1
  snapshotInstallManifestVerified := some (if i.provenance.manifestVerified then 1 else 0)

variable {manifest : Option SnapshotManifest} {file : SnapshotFile}
  {snapshotMeta : SnapshotMeta}

theorem manifest_eq (i : Installation env data) (h : loadManifest env data = .ok manifest) :
    i.manifest = manifest := by
  simpa using i.loaded.symm.trans h

theorem file_eq (i : Installation env data) (h : checkFile data i.manifest = .ok file) :
    i.file = file := by
  simpa using i.opened.symm.trans h

theorem snapshotMeta_eq (i : Installation env data)
    (h : checkMeta i.manifest i.file = .ok snapshotMeta) : i.snapshotMeta = snapshotMeta := by
  simpa using i.described.symm.trans h

end Installation

section Install

variable {clean : Prop} {live backup staging : Option StoreDir} {env : InstallEnv}
  {data : SnapshotData}

/-- Where an installation may stop. -/
def InstallStopped (clean : Prop) (live backup : Option StoreDir) (env : InstallEnv)
    (data : SnapshotData) (_ : SnapshotError) (s : InstallState) : Prop :=
  ¬ clean ∧ (Kept live backup s.disk ∨
    ∃ i : Installation env data, Replaced live backup i.dir s.disk)

theorem Stopped.install {e : SnapshotError} {s : InstallState}
    (h : Stopped clean live backup e s) : InstallStopped clean live backup env data e s :=
  ⟨h.1, .inl h.kept.2⟩

/-- What a part of an installation does, with its failures seen from the whole. -/
theorem Triple.installing {α : Type} {P : InstallState → Prop} {x : InstallM α}
    {Q : α → InstallState → Prop} (h : Triple P x Q (Stopped clean live backup)) :
    Triple P x Q (InstallStopped clean live backup env data) :=
  h.conseq (fun _ hs => hs) (fun _ _ hs => hs) (fun _ _ hs => hs.install)

/-- The end of an installation, once its checks have passed. -/
theorem finish_spec (i : Installation env data)
    (hroom : clean → env.exclusive = true ∧ (live = none ∨ backup = none)) :
    Triple (At clean ⟨live, backup,
        some { StoreDir.empty with db := stagedDb i.file.db i.snapshotMeta }⟩)
      (do
        putSnapshotInstallProvenance i.provenance
        flushAll
        swapStagingDbIntoPlace env.exclusive)
      (fun _ s => env.exclusive = true ∧
        ∃ i : Installation env data, Replaced live backup i.dir s.disk)
      (InstallStopped clean live backup env data) := by
  apply Triple.bind (Triple.installing (putSnapshotInstallProvenance_spec _))
  intro _
  apply Triple.bind (Triple.installing flushAll_spec)
  intro _
  apply (swapStagingDbIntoPlace_spec env.exclusive hroom).conseq (fun _ hs => hs)
  · intro _ s hs
    exact ⟨hs.1, i, hs.2⟩
  · rintro _ s ⟨hnot, hkept | hreplaced⟩
    · exact ⟨hnot, .inl hkept⟩
    · exact ⟨hnot, .inr ⟨i, hreplaced⟩⟩

/-- The parts of an installation in turn. A run without faults is one whose checks pass. -/
theorem install_spec (hvalid : clean → Nonempty (Installation env data) ∧ env.exclusive = true ∧
      (live = none ∨ backup = none)) :
    Triple (At clean ⟨live, backup, staging⟩) (install env data)
      (fun _ s => env.exclusive = true ∧
        ∃ i : Installation env data, Replaced live backup i.dir s.disk)
      (InstallStopped clean live backup env data) := by
  have hsome : clean → Nonempty (Installation env data) := fun h => (hvalid h).1
  unfold install
  apply Triple.bind (Triple.installing (check_spec
    (fun h => (hsome h).elim (fun i => ⟨_, i.loaded⟩))))
  intro manifest
  apply Triple.assume
  intro hloaded
  apply Triple.bind (Triple.installing (check_spec (fun h => (hsome h).elim (fun i => by
    rw [← i.manifest_eq hloaded]
    exact ⟨_, i.signed⟩))))
  intro signatureVerified
  apply Triple.assume
  intro hsigned
  apply Triple.bind (Triple.installing (check_spec (fun h => (hsome h).elim (fun i => by
    rw [← i.manifest_eq hloaded]
    exact ⟨_, i.opened⟩))))
  intro file
  apply Triple.assume
  intro hopened
  apply Triple.bind (Triple.installing (check_spec (fun h => (hsome h).elim (fun i => by
    obtain rfl := i.manifest_eq hloaded
    rw [← i.file_eq hopened]
    exact ⟨_, i.described⟩))))
  intro snapshotMeta
  apply Triple.assume
  intro hdescribed
  have hfound : ∀ i : Installation env data,
      i.manifest = manifest ∧ i.file = file ∧ i.snapshotMeta = snapshotMeta := by
    intro i
    obtain rfl := i.manifest_eq hloaded
    obtain rfl := i.file_eq hopened
    exact ⟨rfl, rfl, i.snapshotMeta_eq hdescribed⟩
  apply Triple.bind (Triple.installing (stageSnapshot_spec (fun h => (hsome h).elim (fun i => by
    obtain ⟨-, rfl, rfl⟩ := hfound i
    exact i.counted))))
  intro _
  apply Triple.assume
  intro hcounted
  cases hgiven : manifest with
  | none =>
    subst hgiven
    exact finish_spec ⟨none, signatureVerified, file, snapshotMeta, hloaded, hsigned, hopened,
      hdescribed, hcounted, fun m hm => nomatch hm⟩ (fun h => (hvalid h).2)
  | some given =>
    subst hgiven
    apply Triple.bind (Triple.installing (validateStagedManifest_spec env.config snapshotMeta given
      (fun h => (hsome h).elim (fun i => by
        obtain ⟨hm, rfl, rfl⟩ := hfound i
        exact i.matched given hm))))
    intro _
    apply Triple.assume
    intro hmatched
    refine finish_spec ⟨some given, signatureVerified, file, snapshotMeta, hloaded, hsigned,
      hopened, hdescribed, hcounted, ?_⟩ (fun h => (hvalid h).2)
    intro m hm
    cases hm
    exact hmatched

/-- Whatever fails and wherever the process is killed, an installation leaves the live store
and its backup as they were or with their places changed, or it has replaced the live store
with the complete one of a file that passed every check. The replaced store is kept. -/
theorem SnapshotInstaller.install_atomic (env : InstallEnv) (data : SnapshotData)
    (s : InstallState) :
    let result := install env data s
    (Kept s.disk.live s.disk.backup (finalState result).disk ∨
      ∃ i : Installation env data,
        Replaced s.disk.live s.disk.backup i.dir (finalState result).disk) ∧
    (∀ t, result = .ok () t → env.exclusive = true ∧
      ∃ i : Installation env data, Replaced s.disk.live s.disk.backup i.dir t.disk) := by
  have hspec := @install_spec False s.disk.live s.disk.backup s.disk.staging env data
    (fun h => h.elim) s ⟨rfl, fun h => h.elim⟩
  dsimp only
  cases hresult : install env data s with
  | ok a t =>
    rw [hresult] at hspec
    refine ⟨.inr hspec.2, fun u hu => ?_⟩
    cases hu
    exact hspec
  | error e t =>
    rw [hresult] at hspec
    exact ⟨hspec.2, fun u hu => nomatch hu⟩

/-- Without faults, an installation goes through exactly when the checks of its files pass,
nothing else holds the live store, and its backup has a place to go. -/
theorem SnapshotInstaller.install_ok_iff (env : InstallEnv) (data : SnapshotData) (disk : Disk) :
    (∃ t, install env data ⟨disk, []⟩ = .ok () t) ↔
      Nonempty (Installation env data) ∧ env.exclusive = true ∧
        (disk.live = none ∨ disk.backup = none) := by
  constructor
  · rintro ⟨t, ht⟩
    have hspec := @install_spec False disk.live disk.backup disk.staging env data
      (fun h => h.elim) ⟨disk, []⟩ ⟨rfl, fun h => h.elim⟩
    rw [ht] at hspec
    obtain ⟨hexclusive, i, hroom, -⟩ := hspec
    exact ⟨⟨i⟩, hexclusive, hroom⟩
  · intro hvalid
    have hspec := @install_spec True disk.live disk.backup disk.staging env data
      (fun _ => hvalid) ⟨disk, []⟩ ⟨rfl, fun _ => rfl⟩
    cases hresult : install env data ⟨disk, []⟩ with
    | ok a t => exact ⟨t, rfl⟩
    | error e t =>
      rw [hresult] at hspec
      exact absurd trivial hspec.1

end Install

end Usdb.Balances
