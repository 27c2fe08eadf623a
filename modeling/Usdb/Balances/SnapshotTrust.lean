import Usdb.Balances.ReadinessRuns
import Usdb.Balances.SnapshotAtomic

namespace Usdb.Balances

open Framework BalanceHistoryDB SnapshotInstaller

namespace Node

section Kept

variable {α : Type} {f : Node → Node}

theorem report_snapshotInstall (hf : ∀ s, (f s).snapshotInstall = s.snapshotInstall) :
    Preserves (fun s => s.snapshotInstall) (report f) := by
  intro s
  unfold report
  cases s.history.faults with
  | nil => exact hf s
  | cons result rest =>
    cases result with
    | ok => exact hf _
    | err => exact hf _
    | crash => rfl

theorem onHistory_snapshotInstall (x : HistoryM α) :
    Preserves (fun s => s.snapshotInstall) (onHistory x) := by
  intro s
  unfold onHistory
  cases x s.history <;> rfl

theorem onError_snapshotInstall {x : NodeM α} (hx : Preserves (fun s => s.snapshotInstall) x)
    (hf : ∀ s, (f s).snapshotInstall = s.snapshotInstall) :
    Preserves (fun s => s.snapshotInstall) (onError x f) := by
  intro s
  unfold onError
  cases h : x s with
  | ok a t => exact hx.ok h
  | error e t =>
    have ht := hx.error h
    split
    · rename_i heq
      cases heq
    · rename_i heq
      cases heq
      exact ht
    · rename_i heq
      cases heq
      exact (hf _).trans ht

theorem setRollbackInProgress_snapshotInstall (inProgress : Bool) :
    Preserves (fun s => s.snapshotInstall) (setRollbackInProgress inProgress) :=
  report_snapshotInstall (fun _ => rfl)

theorem updatePhase_snapshotInstall (phase : SyncPhase) :
    Preserves (fun s => s.snapshotInstall) (updatePhase phase) :=
  report_snapshotInstall (fun _ => rfl)

theorem updateTotal_snapshotInstall (total : Nat) :
    Preserves (fun s => s.snapshotInstall) (updateTotal total) :=
  report_snapshotInstall (fun _ => rfl)

theorem updateCurrent_snapshotInstall (current : Nat) :
    Preserves (fun s => s.snapshotInstall) (updateCurrent current) :=
  report_snapshotInstall (fun _ => rfl)

theorem noteCheck_snapshotInstall (found : Option Nat) :
    Preserves (fun s => s.snapshotInstall) (modify (noteCheck found) : NodeM PUnit) :=
  .modify (fun _ => rfl)

theorem startLoad_snapshotInstall (total : Nat) :
    Preserves (fun s => s.snapshotInstall) (startLoad total) :=
  (updatePhase_snapshotInstall _).bind (fun _ => updateTotal_snapshotInstall _)

theorem startIndex_snapshotInstall (total current : Nat) :
    Preserves (fun s => s.snapshotInstall) (startIndex total current) := by
  have hstarted : Preserves (fun s => s.snapshotInstall)
      (modify (fun s => { s with indexStarted := true }) : NodeM PUnit) := .modify (fun _ => rfl)
  apply hstarted.bind
  intro _
  apply (updatePhase_snapshotInstall _).bind
  intro _
  exact (updateTotal_snapshotInstall _).bind (fun _ => updateCurrent_snapshotInstall _)

theorem finishResume_snapshotInstall : Preserves (fun s => s.snapshotInstall) finishResume := by
  unfold finishResume
  apply Preserves.bind (onHistory_snapshotInstall _)
  intro resumed
  apply Preserves.bind (setRollbackInProgress_snapshotInstall _)
  intro _
  cases resumed with
  | true => exact (onHistory_snapshotInstall _).bind (fun _ => .pure _)
  | false => exact .pure _

theorem resumePendingRollbackIfNeeded_snapshotInstall :
    Preserves (fun s => s.snapshotInstall) resumePendingRollbackIfNeeded := by
  rw [resumePendingRollbackIfNeeded_eq]
  apply Preserves.bind (onHistory_snapshotInstall _)
  intro pending
  apply Preserves.ite
  · exact (setRollbackInProgress_snapshotInstall _).bind (fun _ => finishResume_snapshotInstall)
  · exact finishResume_snapshotInstall

theorem reconcileReorgIfNeeded_snapshotInstall (answers : ReorgAnswers)
    (currentHeight latestBtcHeight : Nat) : Preserves (fun s => s.snapshotInstall)
      (reconcileReorgIfNeeded answers currentHeight latestBtcHeight) := by
  unfold reconcileReorgIfNeeded
  apply Preserves.bind (onHistory_snapshotInstall _)
  intro found
  cases found with
  | none => exact (noteCheck_snapshotInstall _).bind (fun _ => .pure _)
  | some ancestorHeight =>
    apply Preserves.bind (setRollbackInProgress_snapshotInstall _)
    intro _
    have hnoted : ∀ s, (noteCheck (some ancestorHeight) s).snapshotInstall = s.snapshotInstall :=
      fun _ => rfl
    apply Preserves.bind (onError_snapshotInstall (onHistory_snapshotInstall _) hnoted)
    intro _
    apply Preserves.bind (setRollbackInProgress_snapshotInstall _)
    intro _
    apply Preserves.bind (onHistory_snapshotInstall _)
    intro _
    exact (noteCheck_snapshotInstall _).bind (fun _ => .pure _)

theorem checkReorg_snapshotInstall (latestBtcHeight : Option Nat) (answers : ReorgAnswers) :
    Preserves (fun s => s.snapshotInstall) (checkReorg latestBtcHeight answers) := by
  unfold checkReorg
  cases latestBtcHeight with
  | none => exact .throw _
  | some latestBtcHeight =>
    apply Preserves.bind (onHistory_snapshotInstall _)
    intro lastSyncedHeight
    apply Preserves.bind (reconcileReorgIfNeeded_snapshotInstall _ _ _)
    intro lastSyncedHeight
    apply Preserves.bind .get
    intro s
    apply Preserves.ite
    · exact (updateTotal_snapshotInstall _).bind (fun _ => updateCurrent_snapshotInstall _)
    · exact startIndex_snapshotInstall _ _

theorem finishRound_snapshotInstall : Preserves (fun s => s.snapshotInstall) finishRound :=
  (onHistory_snapshotInstall _).bind (fun _ => updateCurrent_snapshotInstall _)

theorem processBlockBatch_snapshotInstall (config : SyncConfig) (answers : BatchAnswers)
    (latestBtcHeight : Nat) :
    Preserves (fun s => s.snapshotInstall) (processBlockBatch config answers latestBtcHeight) :=
  (onHistory_snapshotInstall _).bind (fun _ => finishRound_snapshotInstall)

end Kept

end Node

namespace NodeRun

variable {config : SyncConfig} {cond : NodeRun → NodeLabel → Prop} {w₀ w w' : NodeRun}
  {l : NodeLabel}

theorem settle_snapshotInstall {x : NodeM Unit} (hx : Preserves (fun s => s.snapshotInstall) x)
    (s : Node) (next failed : ThreadPhase) :
    (settle (x s) next failed).node.snapshotInstall = s.snapshotInstall := by
  cases h : x s with
  | ok a t =>
    have ht := hx.ok h
    exact ht
  | error e t =>
    have ht := hx.error h
    unfold settle
    split
    · rename_i heq
      cases heq
    · rename_i heq
      cases heq
      exact ht
    · rename_i heq
      cases heq
      exact ht

/-- Nothing that a process does changes what its store says about its installation. -/
theorem Step.snapshotInstall_eq (hs : Step config w l w') :
    w'.node.snapshotInstall = w.node.snapshotInstall := by
  obtain ⟨-, rfl⟩ := hs
  cases l with
  | resume faults =>
    exact settle_snapshotInstall
      (Node.resumePendingRollbackIfNeeded_snapshotInstall.bind (fun _ => .pure _)) _ _ _
  | check latestBtcHeight answers faults =>
    exact settle_snapshotInstall (Node.checkReorg_snapshotInstall _ _) _ _ _
  | batch answers faults =>
    unfold next
    dsimp only
    split
    · exact settle_snapshotInstall (Node.processBlockBatch_snapshotInstall _ _ _) _ _ _
    · rfl
  | finish faults => exact settle_snapshotInstall Node.finishRound_snapshotInstall _ _ _
  | load total faults =>
    exact settle_snapshotInstall (Node.startLoad_snapshotInstall _) _ _ _
  | loaded current faults =>
    exact settle_snapshotInstall (Node.updateCurrent_snapshotInstall _) _ _ _
  | evict keepUtxo keepBalance => rfl
  | shrink lastUtxos lastBalances =>
    exact settle_snapshotInstall (Node.onHistory_snapshotInstall _) _ _ _
  | rpcAlive alive => rfl
  | requestShutdown => rfl
  | restart => rfl

theorem Run.snapshotInstall_eq (h : Run config cond w₀ w) :
    w.node.snapshotInstall = w₀.node.snapshotInstall :=
  h.induct (P := fun w => w.node.snapshotInstall = w₀.node.snapshotInstall) rfl
    (fun _ _ _ hw _ hs => hs.snapshotInstall_eq.trans hw)

end NodeRun

section Trust

variable {env : InstallEnv} {data : SnapshotData} {manifest : SnapshotManifest}

/-- A trusted key has signed the manifest. -/
def SignedByTrusted (env : InstallEnv) (data : SnapshotData) (manifest : SnapshotManifest) : Prop :=
  ∃ keys key verifyingKey signature, env.trustedKeys = some (some keys) ∧ key ∈ keys ∧
    manifest.signatureScheme = some snapshotSignatureSchemeEd25519 ∧
    manifest.signingKeyId = some key.keyId ∧
    env.toVerifyingKey key.publicKeyBase64 = some verifyingKey ∧
    data.signatureFile = some (some signature) ∧
    env.verify verifyingKey manifest signature = true

/-- The installed store is what the manifest says: the file has the name and the digest of
the manifest, and the store, at the height of the manifest, its state. -/
structure Vouched (env : InstallEnv) (data : SnapshotData) (manifest : SnapshotManifest)
    (db : BalanceHistoryDB) : Prop where
  given : data.manifestFile = some (some manifest)
  file : ∃ file, data.file = some file ∧ file.name = manifest.fileName ∧
    file.sha256.toLower = manifest.fileSha256.toLower
  height : db.getBtcBlockHeight = manifest.stateRef.blockHeight
  state : buildHistoricalStateRefAtHeight env.config db manifest.stateRef.blockHeight =
    some manifest.stateRef

theorem findVerifyingKey_ok {keys : List SnapshotTrustedPublicKey} {keyId : String}
    {verifyingKey : VerifyingKey} (h : findVerifyingKey env keys keyId = .ok verifyingKey) :
    ∃ key ∈ keys, key.keyId = keyId ∧
      env.toVerifyingKey key.publicKeyBase64 = some verifyingKey := by
  unfold findVerifyingKey at h
  cases hfind : keys.find? (fun key => key.keyId = keyId) with
  | none =>
    rw [hfind] at h
    cases h
  | some key =>
    rw [hfind] at h
    dsimp only at h
    cases hkey : env.toVerifyingKey key.publicKeyBase64 with
    | none =>
      rw [hkey] at h
      cases h
    | some found =>
      rw [hkey] at h
      cases h
      exact ⟨key, List.mem_of_find?_eq_some hfind, by simpa using List.find?_some hfind, hkey⟩

theorem verifySignature_ok (h : verifySignature env data manifest = .ok ()) :
    SignedByTrusted env data manifest := by
  unfold verifySignature at h
  dsimp only at h
  cases hscheme : manifest.signatureScheme with
  | none =>
    rw [hscheme] at h
    cases h
  | some signatureScheme =>
  rw [hscheme] at h
  dsimp only at h
  split at h
  · cases h
  rename_i hed25519
  cases hkeyId : manifest.signingKeyId with
  | none =>
    rw [hkeyId] at h
    cases h
  | some signingKeyId =>
  cases hfile : data.signatureFile with
  | none =>
    rw [hkeyId, hfile] at h
    cases h
  | some signatureFile =>
  cases htrusted : env.trustedKeys with
  | none =>
    rw [hkeyId, hfile, htrusted] at h
    cases h
  | some found =>
  rw [hkeyId, hfile, htrusted] at h
  cases found with
  | none => cases h
  | some keys =>
  obtain ⟨verifyingKey, hfind, h⟩ := bind_eq_ok_iff.mp h
  obtain ⟨key, hkey, hsame, hverifying⟩ := findVerifyingKey_ok hfind
  cases signatureFile with
  | none => cases h
  | some signature =>
  dsimp only at h
  split at h
  · rename_i hverify
    refine ⟨keys, key, verifyingKey, signature, htrusted, hkey, ?_, ?_, hverifying, hfile, hverify⟩
    · rw [hscheme, Classical.not_not.mp hed25519]
    · rw [hkeyId, hsame]
  · cases h

theorem loadManifest_some (h : loadManifest env data = .ok (some manifest)) :
    data.manifestFile = some (some manifest) := by
  unfold loadManifest at h
  cases hfile : data.manifestFile with
  | none =>
    rw [hfile] at h
    cases hmode : env.trustMode <;> rw [hmode] at h <;> cases h
  | some found =>
  rw [hfile] at h
  cases found with
  | none => cases h
  | some found =>
  dsimp only at h
  split at h
  · cases h
  · cases h
    rfl

theorem checkFile_some {file : SnapshotFile} (h : checkFile data (some manifest) = .ok file) :
    data.file = some file ∧ file.name = manifest.fileName ∧
      file.sha256.toLower = manifest.fileSha256.toLower := by
  unfold checkFile at h
  cases hfile : data.file with
  | none =>
    rw [hfile] at h
    cases h
  | some found =>
  rw [hfile] at h
  dsimp only at h
  split at h
  · cases h
  rename_i hname
  split at h
  · cases h
  rename_i hhash
  cases h
  exact ⟨rfl, (Classical.not_not.mp hname).symm, Classical.not_not.mp hhash⟩

theorem checkMeta_some {file : SnapshotFile} {snapshotMeta : SnapshotMeta}
    (h : checkMeta (some manifest) file = .ok snapshotMeta) :
    manifest.stateRef.blockHeight = snapshotMeta.blockHeight := by
  obtain ⟨found, -, h⟩ := bind_eq_ok_iff.mp h
  dsimp only at h
  split at h
  · cases h
  · rename_i heq
    cases h
    exact Classical.not_not.mp heq

namespace Installation

theorem signed_of_mode (i : Installation env data) (hmode : env.trustMode = .Signed) :
    i.signatureVerified = true ∧
      ∃ manifest, i.manifest = some manifest ∧ SignedByTrusted env data manifest := by
  have hsigned := i.signed
  unfold checkSignature at hsigned
  rw [hmode] at hsigned
  cases hmanifest : i.manifest with
  | none =>
    rw [hmanifest] at hsigned
    cases hsigned
  | some manifest =>
    rw [hmanifest] at hsigned
    obtain ⟨_, hverify, hpure⟩ := bind_eq_ok_iff.mp hsigned
    exact ⟨(Except.ok.inj hpure).symm, manifest, rfl, verifySignature_ok hverify⟩

theorem vouched (i : Installation env data) (hmanifest : i.manifest = some manifest) :
    Vouched env data manifest i.dir.db := by
  have hloaded := i.loaded
  have hopened := i.opened
  have hdescribed := i.described
  rw [hmanifest] at hloaded hopened hdescribed
  have hheight := checkMeta_some hdescribed
  refine ⟨loadManifest_some hloaded, ⟨i.file, checkFile_some hopened⟩, hheight.symm, ?_⟩
  rw [hheight]
  exact i.matched manifest hmanifest

theorem snapshotInstall_eq (i : Installation env data) :
    i.dir.snapshotInstall = .ok ⟨true, some i.manifest.isSome⟩ := rfl

theorem isConsensusVerified_iff (i : Installation env data) :
    i.provenance.isConsensusVerified = true ↔ i.manifest.isSome = true := by
  have hwith : i.signatureVerified = true → i.manifest.isSome = true := by
    intro hverified
    cases hmode : env.trustMode with
    | Signed =>
      obtain ⟨-, manifest, hmanifest, -⟩ := i.signed_of_mode hmode
      rw [hmanifest]
      rfl
    | Dev =>
      have hsigned := i.signed
      unfold checkSignature at hsigned
      rw [hmode, hverified] at hsigned
      cases hsigned
    | Manifest =>
      have hsigned := i.signed
      unfold checkSignature at hsigned
      rw [hmode, hverified] at hsigned
      cases hsigned
  unfold provenance provenanceOf SnapshotInstallProvenance.isConsensusVerified
  dsimp only
  cases hverified : i.signatureVerified with
  | true => simp [hwith hverified]
  | false => cases i.manifest.isSome <;> simp

end Installation

end Trust

namespace NodeRun

/-- A process that serves a store which was installed from a snapshot never reports itself
ready for consensus unless the installation had a manifest, and the store that became live
is the one the manifest describes. Where the installation asked for a signature, a trusted
key has signed the manifest. -/
theorem Run.ready_is_vouched (env : InstallEnv) (data : SnapshotData) (i : Installation env data)
    (snapshotInstall : SnapshotInstall) (hread : i.dir.snapshotInstall = .ok snapshotInstall)
    (config : SyncConfig) (cond : NodeRun → NodeLabel → Prop) (w : NodeRun)
    (h : Run config cond (opened i.dir.db snapshotInstall) w)
    (hready : w.node.readinessInfo.consensusReady = true) :
    ∃ manifest, Vouched env data manifest i.dir.db ∧ i.provenance.isConsensusVerified = true ∧
      (env.trustMode = .Signed → SignedByTrusted env data manifest) := by
  have hkept := h.snapshotInstall_eq
  have hinstall : snapshotInstall = ⟨true, some i.manifest.isSome⟩ :=
    (Except.ok.inj (i.snapshotInstall_eq.symm.trans hread)).symm
  have hunverified : (w.node.snapshotInstall.used &&
      w.node.snapshotInstall.manifestVerified == some false) = false := by
    unfold Node.readinessInfo at hready
    simp only [Bool.and_eq_true, Bool.not_eq_true'] at hready
    exact hready.2
  rw [hkept] at hunverified
  change (snapshotInstall.used && snapshotInstall.manifestVerified == some false) = false
    at hunverified
  rw [hinstall] at hunverified
  cases hmanifest : i.manifest with
  | none =>
    rw [hmanifest] at hunverified
    cases hunverified
  | some manifest =>
    refine ⟨manifest, i.vouched hmanifest, ?_, ?_⟩
    · rw [i.isConsensusVerified_iff, hmanifest]
      rfl
    · intro hmode
      obtain ⟨-, manifest', hmanifest', hsigned⟩ := i.signed_of_mode hmode
      rw [hmanifest] at hmanifest'
      cases hmanifest'
      exact hsigned

end NodeRun

section Sample

/-- A file of one balance, its output and its block. -/
def oneRowSnapshot : SnapshotDB where
  metas := [⟨1, 1, 1, 1, 1, 7, 2⟩]
  balanceHistory := (∅ : Table _ _).insert 7 ⟨1, 50, 50⟩
  utxos := (∅ : Table _ _).insert ⟨11, 0⟩ ⟨7, 50⟩
  blockCommits := (∅ : Table _ _).insert 1 ⟨11, [3], [4]⟩
  scriptRegistry := (∅ : Table _ _).insert 7 ⟨7, false⟩

def oneRowStateRef : HistoricalSnapshotStateRef where
  blockHeight := 1
  stableBlockHash := formatBlockHash 11
  latestBlockCommit := encodeHex [4]
  consensusIdentity := buildConsensusSnapshotIdentity "regtest" 1 (formatBlockHash 11)
  snapshotId := buildConsensusSnapshotId (fun _ => [])
    (buildConsensusSnapshotIdentity "regtest" 1 (formatBlockHash 11))
  snapshotIdHashAlgo := consensusSnapshotIdHashAlgo
  snapshotIdVersion := consensusSnapshotIdVersion
  commitProtocolVersion
  commitHashAlgo

def oneRowManifest : SnapshotManifest := .build "s.db" "ab" oneRowStateRef (some "k") 7

def oneRowData : SnapshotData :=
  ⟨some ⟨"s.db", "ab", oneRowSnapshot⟩, some (some oneRowManifest), some (some [1])⟩

/-- An installation that asks for a signature and trusts one key. -/
def trustingInstall : InstallEnv where
  config := ⟨"regtest", fun _ => []⟩
  trustMode := .Signed
  trustedKeys := some (some [⟨"k", "AQ=="⟩])
  toVerifyingKey := fun _ => some [2]
  verify := fun verifyingKey _ signature => verifyingKey = [2] ∧ signature = [1]
  exclusive := true

def oneRowInstallation : Installation trustingInstall oneRowData where
  manifest := some oneRowManifest
  signatureVerified := true
  file := ⟨"s.db", "ab", oneRowSnapshot⟩
  snapshotMeta := ⟨1, 1, 1, 1, 1, 7, 2⟩
  loaded := rfl
  signed := by decide +kernel
  opened := by simp [checkFile, oneRowData, oneRowManifest, SnapshotManifest.build]
  described := by
    have hmeta : oneRowSnapshot.getMeta = .ok ⟨1, 1, 1, 1, 1, 7, 2⟩ := by
      unfold SnapshotDB.getMeta oneRowSnapshot
      rw [List.mergeSort_singleton]
    exact bind_eq_ok_iff.mpr ⟨_, hmeta, rfl⟩
  counted := ⟨.inr rfl, .inr rfl, .inr rfl, .inr rfl⟩
  matched := by
    intro manifest hmem
    cases hmem
    rfl

/-- The node serves the store and finds nothing new. -/
def servingInstalled : List NodeLabel :=
  [.rpcAlive true, .resume [], .check (some 1) ⟨some 11, fun _ => some 11⟩ [], .finish []]

/-- A process that serves the installed store. -/
def servedInstalled : NodeRun :=
  servingInstalled.foldl (NodeRun.next plainConfig)
    (.opened oneRowInstallation.dir.db ⟨true, some true⟩)

theorem NodeRun.Run.ready_is_vouched_oneRow :
    servedInstalled.node.readinessInfo.consensusReady = true ∧
      ∃ manifest, Vouched trustingInstall oneRowData manifest oneRowInstallation.dir.db ∧
        SignedByTrusted trustingInstall oneRowData manifest := by
  have hfollows : NodeRun.Follows plainConfig (fun _ _ => True)
      (.opened oneRowInstallation.dir.db ⟨true, some true⟩) servingInstalled := by decide +kernel
  have hready : servedInstalled.node.readinessInfo.consensusReady = true := by decide +kernel
  obtain ⟨manifest, hvouched, -, hsigned⟩ := NodeRun.Run.ready_is_vouched trustingInstall oneRowData
    oneRowInstallation ⟨true, some true⟩ rfl plainConfig (fun _ _ => True) servedInstalled
    (NodeRun.Run.of_follows (.refl _) hfollows) hready
  exact ⟨hready, manifest, hvouched, hsigned rfl⟩

end Sample

end Usdb.Balances
