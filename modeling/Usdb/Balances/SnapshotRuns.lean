import Usdb.Balances.SnapshotRestore
import Usdb.Balances.SnapshotTrust

namespace Usdb.Balances

open Framework Unspent BalanceHistoryDB SnapshotInstaller SnapshotIndexer

section Exported

variable {env : ExportEnv} {installEnv : InstallEnv} {exported : SnapshotExport}
  {db : BalanceHistoryDB} {targetBlockHeight : Nat} {withUtxo : Bool}
  {stateRef : HistoricalSnapshotStateRef}

/-- The files of an export, as an installation is given them. -/
def SnapshotExport.data (exported : SnapshotExport) : SnapshotData :=
  ⟨some exported.file, some (some exported.manifest), exported.signature.map some⟩

/-- An installation that asks for a signature trusts the key of the export, and the
signatures of the key verify. -/
def Trusts (installEnv : InstallEnv) (env : ExportEnv) : Prop :=
  installEnv.trustMode = .Signed → ∃ key keys verifyingKey, env.signingKey = some key ∧
    installEnv.trustedKeys = some (some keys) ∧
    findVerifyingKey installEnv keys key.keyId = .ok verifyingKey ∧
    ∀ manifest, installEnv.verify verifyingKey manifest (key.sign manifest) = true

/-- An export as `run` leaves it. -/
structure ExportedAt (env : ExportEnv) (db : BalanceHistoryDB) (targetBlockHeight : Nat)
    (withUtxo : Bool) (exported : SnapshotExport) : Prop where
  exports : Exports db targetBlockHeight withUtxo exported.file.db
  stateRef : buildHistoricalStateRefAtHeight env.config db targetBlockHeight =
    some exported.manifest.stateRef
  manifest : exported.manifest = SnapshotManifest.build exported.file.name exported.file.sha256
    exported.manifest.stateRef (env.signingKey.map (·.keyId)) env.generatedAt
  signature : exported.signature = env.signingKey.map (·.sign exported.manifest)

theorem ExportedAt.checkSignature_ok (h : ExportedAt env db targetBlockHeight withUtxo exported)
    (htrust : Trusts installEnv env) :
    ∃ signatureVerified,
      checkSignature installEnv exported.data (some exported.manifest) = .ok signatureVerified := by
  cases hmode : installEnv.trustMode with
  | Dev => exact ⟨false, by unfold checkSignature; rw [hmode]; rfl⟩
  | Manifest => exact ⟨false, by unfold checkSignature; rw [hmode]; rfl⟩
  | Signed =>
    obtain ⟨key, keys, verifyingKey, hkey, hkeys, hfind, hverify⟩ := htrust hmode
    have hscheme : exported.manifest.signatureScheme = some snapshotSignatureSchemeEd25519 := by
      rw [h.manifest, hkey]
      rfl
    have hkeyId : exported.manifest.signingKeyId = some key.keyId := by
      rw [h.manifest, hkey]
      rfl
    have hsignature : exported.data.signatureFile = some (some (key.sign exported.manifest)) := by
      unfold SnapshotExport.data
      rw [h.signature, hkey]
      rfl
    have hsigned : verifySignature installEnv exported.data exported.manifest = .ok () := by
      unfold verifySignature
      rw [hscheme, hkeyId, hsignature, hkeys]
      dsimp only
      rw [if_neg (by simp)]
      refine bind_eq_ok_iff.mpr ⟨verifyingKey, hfind, ?_⟩
      rw [hverify]
      rfl
    refine ⟨true, ?_⟩
    unfold checkSignature
    rw [hmode]
    exact bind_eq_ok_iff.mpr ⟨(), hsigned, rfl⟩

theorem ExportedAt.loadManifest_ok (h : ExportedAt env db targetBlockHeight withUtxo exported) :
    loadManifest installEnv exported.data = .ok (some exported.manifest) := by
  unfold loadManifest SnapshotExport.data
  apply if_neg
  rw [h.manifest]
  simp [SnapshotManifest.build]

theorem ExportedAt.checkFile_ok (h : ExportedAt env db targetBlockHeight withUtxo exported) :
    checkFile exported.data (some exported.manifest) = .ok exported.file := by
  unfold checkFile SnapshotExport.data
  rw [h.manifest]
  simp [SnapshotManifest.build]

theorem ExportedAt.checkMeta_ok (h : ExportedAt env db targetBlockHeight withUtxo exported) :
    ∃ snapshotMeta, checkMeta (some exported.manifest) exported.file = .ok snapshotMeta ∧
      CountsAll exported.file.db snapshotMeta ∧ snapshotMeta.blockHeight = targetBlockHeight := by
  obtain ⟨snapshotMeta, hmeta, hcount, hheight⟩ := h.exports.getMeta
  obtain ⟨commit, -, hstate⟩ := Option.map_eq_some_iff.mp h.stateRef
  refine ⟨snapshotMeta, ?_, hcount, hheight⟩
  unfold checkMeta
  refine bind_eq_ok_iff.mpr ⟨snapshotMeta, hmeta, ?_⟩
  apply if_neg
  rw [← hstate, hheight]
  simp

/-- The files of an export pass the checks of an installation that trusts it. -/
theorem ExportedAt.installation (h : ExportedAt env db targetBlockHeight withUtxo exported)
    (htrust : Trusts installEnv env) (hconfig : installEnv.config = env.config) :
    Nonempty (Installation installEnv exported.data) := by
  obtain ⟨snapshotMeta, hdescribed, hcount, hheight⟩ := h.checkMeta_ok
  obtain ⟨signatureVerified, hsigned⟩ := h.checkSignature_ok htrust
  have hmatched : buildHistoricalStateRefAtHeight installEnv.config
      (stagedDb exported.file.db snapshotMeta) snapshotMeta.blockHeight =
      some exported.manifest.stateRef := by
    rw [hconfig, hheight, ← h.stateRef]
    apply buildHistoricalStateRefAtHeight_congr
    unfold getBlockCommit
    rw [stagedDb_blockCommits hcount, h.exports.commits, if_pos (Nat.le_refl _)]
  refine ⟨some exported.manifest, signatureVerified, exported.file, snapshotMeta, h.loadManifest_ok,
    hsigned, h.checkFile_ok, hdescribed, hcount.counted, ?_⟩
  intro manifest hmem
  cases hmem
  exact hmatched

/-- Every installation of an export rebuilds its file. -/
theorem ExportedAt.dir_db (h : ExportedAt env db targetBlockHeight withUtxo exported)
    (i : Installation installEnv exported.data) :
    ∃ snapshotMeta, i.dir.db = stagedDb exported.file.db snapshotMeta ∧
      CountsAll exported.file.db snapshotMeta ∧ snapshotMeta.blockHeight = targetBlockHeight := by
  obtain ⟨snapshotMeta, hdescribed, hcount, hheight⟩ := h.checkMeta_ok
  have hmanifest := i.manifest_eq h.loadManifest_ok
  have hfile : i.file = exported.file := by
    apply i.file_eq
    rw [hmanifest]
    exact h.checkFile_ok
  have hsame : i.snapshotMeta = snapshotMeta := by
    apply i.snapshotMeta_eq
    rw [hmanifest, hfile]
    exact hdescribed
  refine ⟨snapshotMeta, ?_, hcount, hheight⟩
  rw [← hfile, ← hsame]
  rfl

end Exported

section Ledger

variable {sha256 : Sha256} {node : BlockHash → Block} {origin : Origin} {blocks : List Block}
  {deltas : List BlockBalanceDelta} {db : BalanceHistoryDB} {targetBlockHeight : Nat}

theorem HoldsChain.getBlockCommit_isSome (h : HoldsChain sha256 origin blocks deltas db)
    {height : Nat} (hpos : 0 < height) (hle : height ≤ blocks.length) :
    (db.getBlockCommit height).isSome := by
  have hlen : (chainCommits sha256 deltas).length = blocks.length :=
    (buildBlockCommits_length _ _ _).trans (chainDeltas_length h.accounts.ledger)
  unfold getBlockCommit
  rw [h.commits, if_neg (Nat.ne_of_gt hpos), List.getElem?_eq_getElem (by omega)]
  rfl

/-- A store of a chain can be exported at every height above the first block. -/
theorem HoldsChain.exported (h : HoldsChain sha256 origin blocks deltas db) (htracked : RowsTracked db)
    (hlt : db.getBtcBlockHeight < 2 ^ 32) (hutxos : db.UtxosFit) (env : ExportEnv)
    (withUtxo : Bool) (hpos : 0 < targetBlockHeight) (htarget : targetBlockHeight ≤ db.getBtcBlockHeight)
    (htip : withUtxo = true → targetBlockHeight = db.getBtcBlockHeight) :
    ∃ exported, run env db targetBlockHeight withUtxo = .ok exported ∧
      ExportedAt env db targetBlockHeight withUtxo exported := by
  have hrows : db.HeightsFit := by
    rintro ⟨⟨scriptHash, height⟩, value⟩ hmem
    exact Nat.lt_of_le_of_lt (htracked.rows_le scriptHash height value (Table.mem_toList.mp hmem)) hlt
  obtain ⟨stateRef, hstate⟩ := Option.isSome_iff_exists.mp
    (buildHistoricalStateRefAtHeight_isSome.mpr (h.getBlockCommit_isSome hpos (h.height ▸ htarget)))
  obtain ⟨exported, hrun, hexports, hmanifest, hsignature⟩ := run_ok env hrows hutxos htarget htip
    hstate
  have hsame : exported.manifest.stateRef = stateRef := by
    rw [hmanifest]
    rfl
  refine ⟨exported, hrun, hexports, ?_, ?_, hsignature⟩
  · rw [hsame]
    exact hstate
  · rw [hsame]
    exact hmanifest

/-- The rows of a store of a chain are below its height, and without bundles nothing else
is tracked. -/
theorem HoldsChain.rowsTracked (h : HoldsChain sha256 origin blocks deltas db)
    (hnone : ∀ height, db.getBlockUndoBundle height = none) : RowsTracked db where
  rows_le := by
    intro scriptHash height value hrow
    have hrows := h.rows scriptHash height
    rw [h.height]
    by_contra habove
    rw [if_neg (fun hle => habove (hle.trans h.base_le))] at hrows
    exact habove (h.accounts.row_some _ _ _ (hrows.symm.trans hrow)).2.1
  undo_le := by
    intro height bundle hget
    rw [hnone] at hget
    cases hget
  touched := by
    intro height bundle hget
    rw [hnone] at hget
    cases hget

theorem Service.CachesKept.opened (h : RowsTracked db) : CachesKept (.opened db) where
  tracked := h
  agrees := fun _ _ => .cleared _ _
  syncing := by
    intro latestBtcHeight hphase
    cases hphase

/-- A process that opens a store rebuilt from an export keeps the ledger of its chain. -/
theorem LedgerKept.restored {snapshot : SnapshotDB} {snapshotMeta : SnapshotMeta}
    (h : LedgerKept sha256 node origin db) (hutxos : db.UtxosFit)
    (hexports : Exports db db.getBtcBlockHeight true snapshot)
    (hcount : CountsAll snapshot snapshotMeta)
    (hheight : snapshotMeta.blockHeight = db.getBtcBlockHeight) :
    LedgerKept sha256 node ⟨db.getBtcBlockHeight, givenRows db db.getBtcBlockHeight⟩
        (stagedDb snapshot snapshotMeta) ∧
      (stagedDb snapshot snapshotMeta).chain node = db.chain node ∧
      Service.CachesKept (.opened (stagedDb snapshot snapshotMeta)) := by
  obtain ⟨deltas, hholds⟩ := h.holds
  have hlength := hholds.height
  rw [hlength] at hexports hheight ⊢
  have hrestored := hholds.restored h.valid hutxos hexports hcount hheight
  exact ⟨.of_holds hrestored h.named h.valid, hrestored.chain_eq h.named,
    .opened (hrestored.rowsTracked (fun height => by rw [stagedDb_eq hcount]; rfl))⟩

end Ledger

namespace Service

variable {config : SyncConfig} {sha256 : Sha256} {node : BlockHash → Block} {w : Service}
  {env : ExportEnv} {installEnv : InstallEnv} {exported : SnapshotExport}

theorem Run.exportedAt (h : Run config (ExtendsChain sha256 node) initial w)
    (hlt : w.state.db.getBtcBlockHeight < 2 ^ 32) (hutxos : w.state.db.UtxosFit)
    (env : ExportEnv) {targetBlockHeight : Nat} (withUtxo : Bool) (hpos : 0 < targetBlockHeight)
    (htarget : targetBlockHeight ≤ w.state.db.getBtcBlockHeight)
    (htip : withUtxo = true → targetBlockHeight = w.state.db.getBtcBlockHeight) :
    ∃ exported, run env w.state.db targetBlockHeight withUtxo = .ok exported ∧
      ExportedAt env w.state.db targetBlockHeight withUtxo exported := by
  obtain ⟨⟨-, -, deltas, hholds⟩, hcaches⟩ := h.ledgerKept
  exact hholds.exported hcaches.tracked hlt hutxos env withUtxo hpos htarget htip

/-- What an installation of an export at the tip leaves is a store of the same chain. -/
theorem Run.installed_ledger (h : Run config (ExtendsChain sha256 node) initial w)
    (hutxos : w.state.db.UtxosFit)
    (hexported : ExportedAt env w.state.db w.state.db.getBtcBlockHeight true exported)
    (i : Installation installEnv exported.data) :
    LedgerKept sha256 node ⟨w.state.db.getBtcBlockHeight,
        givenRows w.state.db w.state.db.getBtcBlockHeight⟩ i.dir.db ∧
      i.dir.db.chain node = w.state.db.chain node ∧ CachesKept (.opened i.dir.db) := by
  obtain ⟨snapshotMeta, hdb, hcount, hheight⟩ := hexported.dir_db i
  rw [hdb]
  exact h.ledgerKept.1.restored hutxos hexported.exports hcount hheight

/-- The files of an export at the tip of a node can be installed on another node, and the
store that becomes live there has the outputs, the commits, the known scripts and the height
of the first, and its balances at every height from then on. The store it replaced is
kept. -/
theorem Run.snapshot_restores (config : SyncConfig) (sha256 : Sha256) (node : BlockHash → Block)
    (w : Service) (h : Run config (ExtendsChain sha256 node) initial w)
    (hpos : 0 < w.state.db.getBtcBlockHeight) (hlt : w.state.db.getBtcBlockHeight < 2 ^ 32)
    (hutxos : w.state.db.UtxosFit) (env : ExportEnv) (installEnv : InstallEnv)
    (hconfig : installEnv.config = env.config) (htrust : Trusts installEnv env)
    (hexclusive : installEnv.exclusive = true) (disk : Disk)
    (hroom : disk.live = none ∨ disk.backup = none) :
    ∃ exported t dir, run env w.state.db w.state.db.getBtcBlockHeight true = .ok exported ∧
      install installEnv exported.data ⟨disk, []⟩ = .ok () t ∧
      t.disk.live = some dir ∧ t.disk.backup = disk.live.or disk.backup ∧
      dir.db.utxos = w.state.db.utxos ∧ dir.db.blockCommits = w.state.db.blockCommits ∧
      dir.db.scriptRegistry = w.state.db.scriptRegistry ∧
      dir.db.getBtcBlockHeight = w.state.db.getBtcBlockHeight ∧
      ∀ scriptHash height, w.state.db.getBtcBlockHeight ≤ height →
        (dir.db.getBalanceAtBlockHeight scriptHash height).balance =
          (w.state.db.getBalanceAtBlockHeight scriptHash height).balance := by
  obtain ⟨exported, hrun, hexported⟩ := h.exportedAt hlt hutxos env true hpos (Nat.le_refl _)
    (fun _ => rfl)
  have hinstalls := hexported.installation htrust hconfig
  obtain ⟨t, ht⟩ := (install_ok_iff installEnv exported.data disk).mpr ⟨hinstalls, hexclusive, hroom⟩
  obtain ⟨-, i, -, hlive, hbackup⟩ := (install_atomic installEnv exported.data ⟨disk, []⟩).2 t ht
  obtain ⟨⟨-, -, deltas', hholds'⟩, hchain, -⟩ := h.installed_ledger hutxos hexported i
  obtain ⟨⟨-, -, deltas, hholds⟩, -⟩ := h.ledgerKept
  rw [hchain] at hholds'
  obtain ⟨houtputs, hcommits, hheight, -, hbalances⟩ := hholds'.agree hholds
  have hscripts : i.dir.db.scriptRegistry = w.state.db.scriptRegistry := by
    obtain ⟨snapshotMeta, hdb, hcount, -⟩ := hexported.dir_db i
    rw [hdb, stagedDb_scriptRegistry hcount, hexported.exports.scripts]
  exact ⟨exported, t, i.dir, hrun, ht, hlive, hbackup, houtputs, hcommits, hscripts, hheight,
    fun scriptHash height hle => hbalances scriptHash height hle (Nat.zero_le _)⟩

/-- A node that goes on from an installed export and a node that has every block from the
first on agree, when they hold one chain: in their outputs, their commits, their height,
their rows above the height of the export and their balances from it on. -/
theorem Run.installed_agrees (config config' config'' : SyncConfig) (sha256 : Sha256)
    (node : BlockHash → Block) (w w' w'' : Service) (env : ExportEnv) (installEnv : InstallEnv)
    (exported : SnapshotExport) (i : Installation installEnv exported.data)
    (h : Run config (ExtendsChain sha256 node) initial w)
    (hpos : 0 < w.state.db.getBtcBlockHeight) (hlt : w.state.db.getBtcBlockHeight < 2 ^ 32)
    (hutxos : w.state.db.UtxosFit)
    (hrun : run env w.state.db w.state.db.getBtcBlockHeight true = .ok exported)
    (h' : Run config' (ExtendsChain sha256 node) (opened i.dir.db) w')
    (h'' : Run config'' (ExtendsChain sha256 node) initial w'')
    (hsame : w'.state.db.chain node = w''.state.db.chain node) :
    w'.state.db.utxos = w''.state.db.utxos ∧
      w'.state.db.blockCommits = w''.state.db.blockCommits ∧
      w'.state.db.getBtcBlockHeight = w''.state.db.getBtcBlockHeight ∧
      (∀ scriptHash height, w.state.db.getBtcBlockHeight < height →
        w'.state.db.row scriptHash height = w''.state.db.row scriptHash height) ∧
      ∀ scriptHash height, w.state.db.getBtcBlockHeight ≤ height →
        (w'.state.db.getBalanceAtBlockHeight scriptHash height).balance =
          (w''.state.db.getBalanceAtBlockHeight scriptHash height).balance := by
  obtain ⟨exported', hrun', hexported⟩ := h.exportedAt hlt hutxos env true hpos (Nat.le_refl _)
    (fun _ => rfl)
  obtain rfl : exported' = exported := Except.ok.inj (hrun'.symm.trans hrun)
  obtain ⟨hkept, -, hcaches⟩ := h.installed_ledger hutxos hexported i
  obtain ⟨⟨-, -, deltas', hholds'⟩, -⟩ := h'.ledgerKept_of hkept hcaches
  obtain ⟨⟨-, -, deltas'', hholds''⟩, -⟩ := h''.ledgerKept
  rw [hsame] at hholds'
  obtain ⟨houtputs, hcommits, hheight, hrows, hbalances⟩ := hholds'.agree hholds''
  exact ⟨houtputs, hcommits, hheight,
    fun scriptHash height hlt => hrows scriptHash height hlt (Nat.zero_lt_of_lt hlt),
    fun scriptHash height hle => hbalances scriptHash height hle (Nat.zero_le _)⟩

end Service

section Sample

/-- An export that is signed. -/
def signedExport : ExportEnv where
  config := ⟨"regtest", fun _ => []⟩
  order := .sequential
  generatedAt := 7
  fileSha256 := fun _ => "ab"
  signingKey := some ⟨"k", fun _ => [1]⟩

theorem trustingInstall_trusts : Trusts trustingInstall signedExport := by
  intro _
  refine ⟨⟨"k", fun _ => [1]⟩, [⟨"k", "AQ=="⟩], [2], rfl, rfl, by decide, ?_⟩
  intro manifest
  simp [trustingInstall]

theorem firstBlockService_utxosFit : firstBlockService.state.db.UtxosFit := by
  unfold UtxosFit
  decide +kernel

theorem Service.snapshot_restores_firstBlock :
    ∃ exported t dir, run signedExport firstBlockService.state.db 1 true = .ok exported ∧
      install trustingInstall exported.data ⟨⟨none, none, none⟩, []⟩ = .ok () t ∧
      t.disk.live = some dir ∧ dir.db.utxos = firstBlockService.state.db.utxos ∧
      dir.db.scriptRegistry[(7 : USDBScriptHash)]? = some ⟨7, false⟩ := by
  have hknown : firstBlockService.state.db.scriptRegistry[(7 : USDBScriptHash)]? =
      some ⟨7, false⟩ := by decide +kernel
  obtain ⟨exported, t, dir, hrun, hinstall, hlive, -, hutxos, -, hscripts, -⟩ :=
    Service.Run.snapshot_restores plainConfig (fun _ => []) oneBlockNode firstBlockService
      (firstBlockService_ledgerRun rfl) (by decide) (by decide) firstBlockService_utxosFit
      signedExport trustingInstall rfl trustingInstall_trusts rfl ⟨none, none, none⟩ (.inl rfl)
  rw [← hscripts] at hknown
  exact ⟨exported, t, dir, hrun, hinstall, hlive, hutxos, hknown⟩

theorem Service.installed_agrees_firstBlock :
    ∃ (exported : SnapshotExport) (i : Installation trustingInstall exported.data),
      run signedExport firstBlockService.state.db 1 true = .ok exported ∧
      i.dir.db.blockCommits = firstBlockService.state.db.blockCommits := by
  have hrun : Service.Run plainConfig (Service.ExtendsChain (fun _ => []) oneBlockNode) .initial
      firstBlockService := firstBlockService_ledgerRun rfl
  obtain ⟨exported, hexport, hexported⟩ := hrun.exportedAt (by decide) firstBlockService_utxosFit
    signedExport true (by decide) (Nat.le_refl _) (fun _ => rfl)
  obtain ⟨i⟩ := hexported.installation trustingInstall_trusts rfl
  have hchain := (hrun.installed_ledger firstBlockService_utxosFit hexported i).2.1
  have hagrees := Service.Run.installed_agrees plainConfig plainConfig plainConfig (fun _ => [])
    oneBlockNode firstBlockService (.opened i.dir.db) firstBlockService signedExport
    trustingInstall exported i hrun (by decide) (by decide) firstBlockService_utxosFit hexport
    (.refl _) hrun hchain
  exact ⟨exported, i, hexport, hagrees.2.1⟩

end Sample

end Usdb.Balances
