import Usdb.Balances.Readiness
import Usdb.Balances.SnapshotExport

namespace Usdb.Balances

open Framework BalanceHistoryDB

inductive SnapshotTrustMode
  | Dev
  | Manifest
  | Signed
deriving DecidableEq, Repr

inductive SnapshotInstallOrigin
  | SnapshotInstall
deriving DecidableEq, Repr

inductive SnapshotVerificationState
  | ManifestMissing
  | ManifestVerified
  | SignatureVerified
deriving DecidableEq, Repr

structure SnapshotInstallProvenance where
  origin : SnapshotInstallOrigin
  trustMode : SnapshotTrustMode
  verificationState : SnapshotVerificationState
  manifestPresent : Bool
  manifestVerified : Bool
  signaturePresent : Bool
  signatureVerified : Bool
  manifestVersion : Option String
  signatureScheme : Option String
  signingKeyId : Option String
  snapshotFileSha256 : Option String
  snapshotId : Option String
  installedBlockHeight : Nat
deriving DecidableEq, Repr

namespace SnapshotInstallProvenance

def isConsensusVerified (provenance : SnapshotInstallProvenance) : Bool :=
  match provenance.verificationState with
  | .ManifestMissing => false
  | .ManifestVerified => true
  | .SignatureVerified => true

def legacyManifestVerified (provenance : SnapshotInstallProvenance) : Bool :=
  provenance.manifestVerified

end SnapshotInstallProvenance

structure SnapshotTrustedPublicKey where
  keyId : String
  publicKeyBase64 : String
deriving DecidableEq, Repr

abbrev VerifyingKey := List UInt8

/-- The directory of a store, with the entries of its meta family about the snapshot it was
installed from. -/
structure StoreDir where
  db : BalanceHistoryDB
  provenance : Option SnapshotInstallProvenance
  snapshotInstallUsed : Option Nat
  snapshotInstallManifestVerified : Option Nat
deriving DecidableEq

/-- A store that was just created. -/
def StoreDir.empty : StoreDir := ⟨.empty, none, none, none⟩

namespace StoreDir

def getSnapshotInstallUsed (dir : StoreDir) : Bool :=
  dir.provenance.isSome || dir.snapshotInstallUsed = some 1

def getSnapshotInstallManifestVerified (dir : StoreDir) : Except SnapshotError (Option Bool) :=
  match dir.provenance with
  | some provenance => .ok (some provenance.legacyManifestVerified)
  | none =>
    match dir.snapshotInstallManifestVerified with
    | some 0 => .ok (some false)
    | some 1 => .ok (some true)
    | some _ => .error .io
    | none => .ok none

/-- What a process that opens the store reads about its installation. -/
def snapshotInstall (dir : StoreDir) : Except SnapshotError SnapshotInstall := do
  return ⟨dir.getSnapshotInstallUsed, ← dir.getSnapshotInstallManifestVerified⟩

end StoreDir

/-- The directories an installation moves: the live store, the backup of the store it
replaces, and the store it prepares. -/
structure Disk where
  live : Option StoreDir
  backup : Option StoreDir
  staging : Option StoreDir
deriving DecidableEq

/-- The directories, and what the next calls will report. -/
structure InstallState where
  disk : Disk
  faults : List IoResult

abbrev InstallM := EStateM SnapshotError InstallState

/-- One durable call: a write batch, a flush or a rename. -/
def act (f : Disk → Disk) : InstallM Unit := fun s =>
  match s.faults with
  | [] => .ok () { s with disk := f s.disk }
  | .ok :: rest => .ok () { disk := f s.disk, faults := rest }
  | .err :: rest => .error .io { s with faults := rest }
  | .crash :: rest => .error .panic { s with faults := rest }

def readDisk : InstallM Disk := return (← get).disk

def check {α : Type} (x : Except SnapshotError α) : InstallM α :=
  match x with
  | .ok a => pure a
  | .error e => throw e

/-- A write to the store that is being prepared. -/
def stage (f : StoreDir → StoreDir) : InstallM Unit :=
  act (fun disk => { disk with staging := disk.staging.map f })

def stageDb (f : BalanceHistoryDB → BalanceHistoryDB) : InstallM Unit :=
  stage (fun dir => { dir with db := f dir.db })

def flushAll : InstallM Unit := act id

namespace BalanceHistoryDB

def putAddressHistoryAsync (entriesList : List BalanceHistoryEntry) (db : BalanceHistoryDB) :
    BalanceHistoryDB :=
  { db with balanceHistory := db.balanceHistory.insertMany (entriesList.map (fun entry =>
    (⟨entry.scriptHash, entry.blockHeight⟩, ⟨entry.delta, entry.balance⟩))) }

def putUtxos (utxos : List UTXOEntry) (db : BalanceHistoryDB) : BalanceHistoryDB :=
  { db with utxos := db.utxos.insertMany (utxos.map (fun utxo =>
    (utxo.outpoint, ⟨utxo.value, utxo.scriptHash⟩))) }

def putBlockCommitsAsync (blockCommits : List BlockCommitEntry) (db : BalanceHistoryDB) :
    BalanceHistoryDB :=
  { db with blockCommits := db.blockCommits.insertMany (blockCommits.map (·.toRow)) }

def putScriptRegistryEntries (entries : List ScriptRegistryEntry) (db : BalanceHistoryDB) :
    BalanceHistoryDB :=
  { db with scriptRegistry := db.scriptRegistry.insertMany (entries.map (·.toRow)) }

def putBtcBlockHeight (height : Nat) (db : BalanceHistoryDB) : BalanceHistoryDB :=
  { db with btcBlockHeight := some height }

end BalanceHistoryDB

/-- What an installation depends on besides the files. `trustedKeys` is what the configured
file of trusted keys has, and `exclusive` says that nothing else holds the live store. -/
structure InstallEnv where
  config : IdentityConfig
  trustMode : SnapshotTrustMode
  trustedKeys : Option (Option (List SnapshotTrustedPublicKey))
  toVerifyingKey : String → Option VerifyingKey
  verify : VerifyingKey → SnapshotManifest → Signature → Bool
  exclusive : Bool

/-- What is found at the paths an installation is given: the file, the manifest when a path
to one is given, and the signature beside the manifest. -/
structure SnapshotData where
  file : Option SnapshotFile
  manifestFile : Option (Option SnapshotManifest)
  signatureFile : Option (Option Signature)

namespace SnapshotInstaller

section Checks

variable (env : InstallEnv) (data : SnapshotData)

/-- `SnapshotManifest::load`, when a path is given, and the trust mode that asks for one. -/
def loadManifest : Except SnapshotError (Option SnapshotManifest) :=
  match data.manifestFile with
  | some none => .error .io
  | some (some manifest) =>
    if manifest.manifestVersion ≠ snapshotManifestVersion then
      .error (.unsupportedManifestVersion manifest.manifestVersion)
    else .ok (some manifest)
  | none =>
    match env.trustMode with
    | .Dev => .ok none
    | .Manifest => .error .manifestRequired
    | .Signed => .error .manifestRequired

/-- `find_verifying_key`: the first key with the identifier. -/
def findVerifyingKey (keys : List SnapshotTrustedPublicKey) (keyId : String) :
    Except SnapshotError VerifyingKey :=
  match keys.find? (fun key => key.keyId = keyId) with
  | none => .error (.untrustedSigner keyId)
  | some key =>
    match env.toVerifyingKey key.publicKeyBase64 with
    | none => .error (.invalidVerifyingKey keyId)
    | some verifyingKey => .ok verifyingKey

/-- The checks of a signed installation, one after the other. -/
def verifySignature (manifest : SnapshotManifest) : Except SnapshotError Unit := do
  match manifest.signatureScheme with
  | none => throw .missingSignatureScheme
  | some signatureScheme =>
    if signatureScheme ≠ snapshotSignatureSchemeEd25519 then
      throw (.unsupportedSignatureScheme signatureScheme)
  match manifest.signingKeyId, data.signatureFile, env.trustedKeys with
  | none, _, _ => throw .missingSigningKeyId
  | some _, none, _ => throw .missingSignature
  | some _, some _, none => throw .missingTrustedKeys
  | some _, some _, some none => throw .io
  | some signingKeyId, some signatureFile, some (some keys) =>
    let verifyingKey ← findVerifyingKey env keys signingKeyId
    match signatureFile with
    | none => throw .io
    | some signature =>
      if env.verify verifyingKey manifest signature then return ()
      else throw (.signatureMismatch signingKeyId)

/-- Whether a trusted signature was verified, which only the signed mode asks for. -/
def checkSignature (manifest : Option SnapshotManifest) : Except SnapshotError Bool := do
  match env.trustMode, manifest with
  | .Signed, none => throw .manifestRequired
  | .Signed, some manifest =>
    verifySignature env data manifest
    return true
  | _, _ => return false

/-- The file, checked against the manifest. -/
def checkFile (manifest : Option SnapshotManifest) : Except SnapshotError SnapshotFile :=
  match data.file, manifest with
  | none, _ => .error .missingSnapshotFile
  | some file, none => .ok file
  | some file, some manifest =>
    if manifest.fileName ≠ file.name then
      .error (.fileNameMismatch manifest.fileName file.name)
    else if file.sha256.toLower ≠ manifest.fileSha256.toLower then
      .error (.fileHashMismatch manifest.fileSha256 file.sha256)
    else .ok file

/-- The metadata of the file, checked against the manifest. -/
def checkMeta (manifest : Option SnapshotManifest) (file : SnapshotFile) :
    Except SnapshotError SnapshotMeta := do
  let snapshotMeta ← file.db.getMeta
  match manifest with
  | none => return snapshotMeta
  | some manifest =>
    if manifest.stateRef.blockHeight ≠ snapshotMeta.blockHeight then
      throw (.blockHeightMismatch manifest.stateRef.blockHeight snapshotMeta.blockHeight)
    else return snapshotMeta

end Checks

def snapshotPageSize : Nat := 1024 * 256

section Tables

variable {κ α : Type}

/-- The loop of an installation: read a page, write it and count it, until one is not full.
The first number bounds the number of pages. -/
def installPages (getEntries : Nat → Option κ → List α) (keyOf : α → κ)
    (put : List α → BalanceHistoryDB → BalanceHistoryDB) : Nat → Option κ → Nat → InstallM Nat
  | 0, _, installedTotal => return installedTotal
  | fuel + 1, last, installedTotal => do
    let entries := getEntries snapshotPageSize last
    stageDb (put entries)
    let installedTotal := installedTotal + entries.length
    if entries.length < snapshotPageSize then return installedTotal
    else
      installPages getEntries keyOf put fuel ((entries.getLast?.map keyOf).or last) installedTotal

/-- What the installation of a table of so many rows does: nothing when the metadata counts
none, and a failed assertion when it counts others than were read. -/
def installTable (total rows : Nat) (getEntries : Nat → Option κ → List α) (keyOf : α → κ)
    (put : List α → BalanceHistoryDB → BalanceHistoryDB) : InstallM Unit := do
  if total = 0 then return ()
  else
    let installedTotal ← installPages getEntries keyOf put (rows + 1) none 0
    if installedTotal ≠ total then throw .panic
    else flushAll

end Tables

def installBalanceHistorySnapshot (snapshot : SnapshotDB) (snapshotMeta : SnapshotMeta) :
    InstallM Unit :=
  installTable snapshotMeta.balanceHistoryCount snapshot.balanceHistory.toList.length
    snapshot.getBalanceHistoryEntries (·.scriptHash) putAddressHistoryAsync

def installUtxoSnapshot (snapshot : SnapshotDB) (snapshotMeta : SnapshotMeta) : InstallM Unit :=
  installTable snapshotMeta.utxoCount snapshot.utxos.toList.length
    snapshot.getUtxoEntries (·.outpoint) putUtxos

def installBlockCommitSnapshot (snapshot : SnapshotDB) (snapshotMeta : SnapshotMeta) :
    InstallM Unit :=
  installTable snapshotMeta.blockCommitCount snapshot.blockCommits.toList.length
    snapshot.getBlockCommitEntries (·.blockHeight) putBlockCommitsAsync

def installScriptRegistrySnapshot (snapshot : SnapshotDB) (snapshotMeta : SnapshotMeta) :
    InstallM Unit :=
  installTable snapshotMeta.scriptRegistryCount snapshot.scriptRegistry.toList.length
    snapshot.getScriptRegistryEntries (·.scriptHash) putScriptRegistryEntries

/-- The store is rebuilt from the file in an empty directory. -/
def stageSnapshot (snapshot : SnapshotDB) (snapshotMeta : SnapshotMeta) : InstallM Unit := do
  act (fun disk => { disk with staging := none })
  act (fun disk => { disk with staging := some .empty })
  installBalanceHistorySnapshot snapshot snapshotMeta
  installUtxoSnapshot snapshot snapshotMeta
  installBlockCommitSnapshot snapshot snapshotMeta
  installScriptRegistrySnapshot snapshot snapshotMeta
  stageDb (putBtcBlockHeight snapshotMeta.blockHeight)
  flushAll

def validateStagedManifest (config : IdentityConfig) (snapshotMeta : SnapshotMeta)
    (manifest : SnapshotManifest) : InstallM Unit := do
  match (← readDisk).staging with
  | none => throw .io
  | some dir =>
    match buildHistoricalStateRefAtHeight config dir.db snapshotMeta.blockHeight with
    | none => throw (.missingStateRef snapshotMeta.blockHeight)
    | some actual =>
      if actual ≠ manifest.stateRef then throw (.stateRefMismatch snapshotMeta.blockHeight)
      else return ()

def provenanceOf (env : InstallEnv) (data : SnapshotData) (manifest : Option SnapshotManifest)
    (signatureVerified : Bool) (snapshotMeta : SnapshotMeta) : SnapshotInstallProvenance where
  origin := .SnapshotInstall
  trustMode := env.trustMode
  verificationState :=
    if signatureVerified then .SignatureVerified
    else if manifest.isSome then .ManifestVerified else .ManifestMissing
  manifestPresent := manifest.isSome
  manifestVerified := manifest.isSome
  signaturePresent := data.manifestFile.isSome && data.signatureFile.isSome
  signatureVerified
  manifestVersion := manifest.map (·.manifestVersion)
  signatureScheme := manifest.bind (·.signatureScheme)
  signingKeyId := manifest.bind (·.signingKeyId)
  snapshotFileSha256 := manifest.map (·.fileSha256)
  snapshotId := manifest.map (·.stateRef.snapshotId)
  installedBlockHeight := snapshotMeta.blockHeight

/-- Three entries, written one after the other. -/
def putSnapshotInstallProvenance (provenance : SnapshotInstallProvenance) : InstallM Unit := do
  stage (fun dir => { dir with provenance := some provenance })
  stage (fun dir => { dir with snapshotInstallUsed := some 1 })
  stage (fun dir => { dir with
    snapshotInstallManifestVerified := some (if provenance.manifestVerified then 1 else 0) })

/-- Rename a directory onto the live one; when that fails and there is a backup, the backup
is renamed back, and a failure of this is not looked at. -/
def promoteStaging : InstallM Unit := fun s =>
  match act (fun disk => { disk with live := disk.staging, staging := none }) s with
  | .ok _ t => .ok () t
  | .error .io t =>
    if t.disk.backup.isSome then
      match act (fun disk => { disk with live := disk.backup, backup := none }) t with
      | .error .panic u => .error .panic u
      | result => .error .io (finalState result)
    else .error .io t
  | .error e t => .error e t

/-- A directory cannot be renamed onto one that has files. -/
def backUpLive : InstallM Unit := do
  let disk ← readDisk
  if disk.live.isNone then return ()
  else if disk.backup.isSome then throw .io
  else act (fun disk => { disk with live := none, backup := disk.live })

def swapStagingDbIntoPlace (exclusive : Bool) : InstallM Unit := do
  if (← readDisk).staging.isNone then throw .io
  else if exclusive = false then throw .liveDbShared
  else
    backUpLive
    promoteStaging
    flushAll

/-- `SnapshotInstaller::install`. -/
def install (env : InstallEnv) (data : SnapshotData) : InstallM Unit := do
  let manifest ← check (loadManifest env data)
  let signatureVerified ← check (checkSignature env data manifest)
  let file ← check (checkFile data manifest)
  let snapshotMeta ← check (checkMeta manifest file)
  stageSnapshot file.db snapshotMeta
  match manifest with
  | some manifest => validateStagedManifest env.config snapshotMeta manifest
  | none => pure ()
  putSnapshotInstallProvenance (provenanceOf env data manifest signatureVerified snapshotMeta)
  flushAll
  swapStagingDbIntoPlace env.exclusive

end SnapshotInstaller

end Usdb.Balances
