import Mathlib.Order.Bounds.Basic
import Usdb.Balances.CommitBinding
import Usdb.Index.CommitChain

namespace Usdb

open Framework MinerPassStorage

/-- What `get_block_commit` of balance-history answers for a height it has. -/
structure BlockCommitInfo where
  blockHeight : Nat
  blockCommit : String
  commitProtocolVersion : String
  commitHashAlgo : String
deriving DecidableEq, Repr

/-- The upstream state at one height; the lag is a field of its consensus identity. -/
structure HistoricalSnapshotStateRef where
  blockHeight : Nat
  stableBlockHash : String
  latestBlockCommit : String
  stableLag : Nat
  commitProtocolVersion : String
  commitHashAlgo : String
deriving DecidableEq, Repr

/-- Why the search for an upstream reorg failed. -/
inductive UpstreamReorgError
  | rpc
  | snapshotMissingBlockHash (height : Nat)
  | snapshotMissingBlockCommit (height : Nat)
  | blockCommitMissing (height : Nat)
  | stateRefMissing (height : Nat)
deriving DecidableEq, Repr

/-- The answers of the client of balance-history. -/
structure BalanceHistoryClient where
  getBlockCommit : Nat → Except UpstreamReorgError (Option BlockCommitInfo)
  getStateRefAtHeight : Nat → Except UpstreamReorgError HistoricalSnapshotStateRef

inductive DriftReason
  | heightRegressed (localHeight upstreamHeight : Nat)
  | anchorDrifted (height : Nat)
  | commitDrifted (height : Nat)
  | commitMissing (height : Nat)
deriving DecidableEq, Repr

def DriftReason.text : DriftReason → String
  | .heightRegressed localHeight upstreamHeight =>
    "upstream stable height regressed: local_height=" ++ toString localHeight ++
      ", upstream_height=" ++ toString upstreamHeight
  | .anchorDrifted height =>
    "upstream snapshot anchor drifted at stable height " ++ toString height
  | .commitDrifted height => "upstream block commit drifted at height " ++ toString height
  | .commitMissing height => "upstream block commit missing at height " ++ toString height

namespace InscriptionIndexer

def storedPassCommitMatchesUpstream (localCommit : PassBlockCommitEntry)
    (upstreamCommit : BlockCommitInfo) : Bool :=
  localCommit.balanceHistoryBlockHeight = upstreamCommit.blockHeight ∧
    localCommit.balanceHistoryBlockCommit = upstreamCommit.blockCommit ∧
    localCommit.commitProtocolVersion = upstreamCommit.commitProtocolVersion ∧
    localCommit.commitHashAlgo = upstreamCommit.commitHashAlgo

/-- The lag is not compared here, and is in the comparison with a historical state. -/
def snapshotAnchorMatchesUpstream (localAnchor : BalanceHistorySnapshotAnchor)
    (upstreamSnapshot : BalanceHistorySnapshotInfo) : Except UpstreamReorgError Bool :=
  match upstreamSnapshot.stableBlockHash, upstreamSnapshot.latestBlockCommit with
  | none, _ => .error (.snapshotMissingBlockHash upstreamSnapshot.stableHeight)
  | some _, none => .error (.snapshotMissingBlockCommit upstreamSnapshot.stableHeight)
  | some upstreamBlockHash, some upstreamBlockCommit =>
    .ok (localAnchor.stableHeight = upstreamSnapshot.stableHeight ∧
      localAnchor.stableBlockHash = upstreamBlockHash ∧
      localAnchor.latestBlockCommit = upstreamBlockCommit ∧
      localAnchor.commitProtocolVersion = upstreamSnapshot.commitProtocolVersion ∧
      localAnchor.commitHashAlgo = upstreamSnapshot.commitHashAlgo)

def storedSnapshotAnchorMatchesHistoricalStateRef (localAnchor : BalanceHistorySnapshotAnchor)
    (upstreamStateRef : HistoricalSnapshotStateRef) : Bool :=
  localAnchor.stableHeight = upstreamStateRef.blockHeight ∧
    localAnchor.stableBlockHash = upstreamStateRef.stableBlockHash ∧
    localAnchor.latestBlockCommit = upstreamStateRef.latestBlockCommit ∧
    localAnchor.stableLag = upstreamStateRef.stableLag ∧
    localAnchor.commitProtocolVersion = upstreamStateRef.commitProtocolVersion ∧
    localAnchor.commitHashAlgo = upstreamStateRef.commitHashAlgo

/-- The downward search over the heights from genesis on, with the number of heights left. -/
def searchCommonAncestor (client : BalanceHistoryClient) (ps : MinerPassStorage)
    (genesisBlockHeight : Nat) : Nat → Except UpstreamReorgError Nat
  | 0 => .ok (genesisBlockHeight - 1)
  | count + 1 =>
    let height := genesisBlockHeight + count
    match ps.getPassBlockCommit height with
    | none => .ok (genesisBlockHeight - 1)
    | some localCommit => do
      match ← client.getBlockCommit height with
      | none => .error (.blockCommitMissing height)
      | some upstreamCommit =>
        match ps.getBalanceHistorySnapshotAnchorAtHeight height with
        | none =>
          if storedPassCommitMatchesUpstream localCommit upstreamCommit then .ok height
          else searchCommonAncestor client ps genesisBlockHeight count
        | some localSnapshotAnchor => do
          let upstreamStateRef ← (client.getStateRefAtHeight height).mapError
            (fun _ => .stateRefMissing height)
          if storedPassCommitMatchesUpstream localCommit upstreamCommit &&
              storedSnapshotAnchorMatchesHistoricalStateRef localSnapshotAnchor upstreamStateRef then
            .ok height
          else searchCommonAncestor client ps genesisBlockHeight count

def findCommonAncestorHeight (client : BalanceHistoryClient) (ps : MinerPassStorage)
    (currentHeight latestHeight genesisBlockHeight : Nat) : Except UpstreamReorgError Nat :=
  let searchTip := min currentHeight latestHeight
  if searchTip < genesisBlockHeight then .ok (genesisBlockHeight - 1)
  else searchCommonAncestor client ps genesisBlockHeight (searchTip + 1 - genesisBlockHeight)

def anchorDrift (ps : MinerPassStorage) (currentHeight latestHeight : Nat)
    (snapshot : BalanceHistorySnapshotInfo) : Except UpstreamReorgError (List DriftReason) :=
  if currentHeight = latestHeight then
    match ps.balanceHistorySnapshotAnchor with
    | none => .ok []
    | some localAnchor => do
      let same ← snapshotAnchorMatchesUpstream localAnchor snapshot
      return if same then [] else [.anchorDrifted currentHeight]
  else .ok []

def commitDrift (client : BalanceHistoryClient) (ps : MinerPassStorage)
    (currentHeight genesisBlockHeight : Nat) : Except UpstreamReorgError (List DriftReason) :=
  if genesisBlockHeight ≤ currentHeight then
    match ps.getPassBlockCommit currentHeight with
    | none => .ok []
    | some localCommit => do
      match ← client.getBlockCommit currentHeight with
      | none => return [.commitMissing currentHeight]
      | some upstreamCommit =>
        return if storedPassCommitMatchesUpstream localCommit upstreamCommit then []
          else [.commitDrifted currentHeight]
  else .ok []

/-- The rollback target of a drift and why it is one. -/
def detectUpstreamReorgTarget (client : BalanceHistoryClient) (ps : MinerPassStorage)
    (currentHeight latestHeight : Nat) (snapshot : BalanceHistorySnapshotInfo)
    (genesisBlockHeight : Nat) : Except UpstreamReorgError (Option (Nat × String)) := do
  let regressed := if latestHeight < currentHeight then
    [DriftReason.heightRegressed currentHeight latestHeight] else []
  let anchor ← anchorDrift ps currentHeight latestHeight snapshot
  let commit ← commitDrift client ps currentHeight genesisBlockHeight
  let driftReasons := regressed ++ anchor ++ commit
  if driftReasons = [] then return none
  else do
    let rollbackTarget ← findCommonAncestorHeight client ps currentHeight latestHeight
      genesisBlockHeight
    return some (rollbackTarget, "; ".intercalate (driftReasons.map (·.text)))

end InscriptionIndexer

namespace Balances.BalanceHistoryDB

/-- `BALANCE_HISTORY_STABLE_LAG`. -/
def stableLag : Nat := 0

/-- `COMMIT_PROTOCOL_VERSION`. -/
def commitProtocolVersion : String := "1.0.0"

/-- `COMMIT_HASH_ALGO`. -/
def commitHashAlgo : String := "sha256"

/-- A block hash is displayed with its last byte first. -/
def displayBlockHash (hash : BlockHash) : String := encodeHex (beBytes 32 hash).reverse

variable (db : BalanceHistoryDB)

def buildSnapshotInfo : BalanceHistorySnapshotInfo :=
  let latestCommit := db.getBlockCommit db.getBtcBlockHeight
  { stableHeight := db.getBtcBlockHeight
    stableBlockHash := latestCommit.map (fun entry => displayBlockHash entry.btcBlockHash)
    latestBlockCommit := latestCommit.map (fun entry => encodeHex entry.blockCommit)
    stableLag
    commitProtocolVersion
    commitHashAlgo }

def blockCommitInfo (entry : BlockCommitEntry) : BlockCommitInfo where
  blockHeight := entry.blockHeight
  blockCommit := encodeHex entry.blockCommit
  commitProtocolVersion
  commitHashAlgo

def historicalStateRef (blockHeight : Nat) (commit : BlockCommitEntry) :
    HistoricalSnapshotStateRef where
  blockHeight
  stableBlockHash := displayBlockHash commit.btcBlockHash
  latestBlockCommit := encodeHex commit.blockCommit
  stableLag
  commitProtocolVersion
  commitHashAlgo

/-- The anchor that is adopted from the store at a height. -/
def anchorAt (blockHeight : Nat) : Option BalanceHistorySnapshotAnchor :=
  (db.getBlockCommit blockHeight).map (fun commit => {
    stableHeight := blockHeight
    stableBlockHash := displayBlockHash commit.btcBlockHash
    latestBlockCommit := encodeHex commit.blockCommit
    stableLag
    commitProtocolVersion
    commitHashAlgo })

/-- The height asked for has to be stable, and the stable height has to have a commit. -/
def stateRefAtHeight (blockHeight : Nat) : Option HistoricalSnapshotStateRef :=
  if (db.getBlockCommit db.getBtcBlockHeight).isNone ∨ db.getBtcBlockHeight < blockHeight then none
  else (db.getBlockCommit blockHeight).map (historicalStateRef blockHeight)

/-- A client that is served from a store. -/
def client : BalanceHistoryClient where
  getBlockCommit := fun height => .ok ((db.getBlockCommit height).map blockCommitInfo)
  getStateRefAtHeight := fun height =>
    match db.stateRefAtHeight height with
    | some stateRef => .ok stateRef
    | none => .error .rpc

end Balances.BalanceHistoryDB

namespace InscriptionIndexer

open Balances Balances.BalanceHistoryDB

section Reorg

variable {ps : MinerPassStorage} {earlier upstream : BalanceHistoryDB} {sha256 : Sha256}
  {localHeight genesisBlockHeight height : Nat}

/-- The commits were stored while the upstream was as it was earlier, and an adopted
anchor has the lag that every upstream has. -/
structure StoredFrom (earlier : BalanceHistoryDB) (ps : MinerPassStorage) : Prop where
  commits : ∀ height entry, ps.getPassBlockCommit height = some entry →
    ∃ commit, earlier.getBlockCommit height = some commit ∧
      storedPassCommitMatchesUpstream entry (blockCommitInfo commit) = true
  lag : ∀ anchor, ps.balanceHistorySnapshotAnchor = some anchor → anchor.stableLag = stableLag

/-- The stored commit of a height is the one upstream has. -/
def CommitAgreesAt (ps : MinerPassStorage) (upstream : BalanceHistoryDB) (height : Nat) : Prop :=
  ∃ entry commit, ps.getPassBlockCommit height = some entry ∧
    upstream.getBlockCommit height = some commit ∧
    storedPassCommitMatchesUpstream entry (blockCommitInfo commit) = true

/-- So is the stored anchor, if there is one. -/
def AgreesAt (ps : MinerPassStorage) (upstream : BalanceHistoryDB) (height : Nat) : Prop :=
  CommitAgreesAt ps upstream height ∧
    ∀ anchor, ps.getBalanceHistorySnapshotAnchorAtHeight height = some anchor →
      upstream.anchorAt height = some anchor

/-- The upstream went back, or has another anchor at the height of both, or another
commit, or none, at the local height. -/
def Drifted (ps : MinerPassStorage) (upstream : BalanceHistoryDB)
    (localHeight genesisBlockHeight : Nat) : Prop :=
  upstream.getBtcBlockHeight < localHeight ∨
    (localHeight = upstream.getBtcBlockHeight ∧ ∃ anchor,
      ps.balanceHistorySnapshotAnchor = some anchor ∧
        upstream.anchorAt upstream.getBtcBlockHeight ≠ some anchor) ∨
    (genesisBlockHeight ≤ localHeight ∧ (ps.getPassBlockCommit localHeight).isSome ∧
      ¬ CommitAgreesAt ps upstream localHeight)

/-- The greatest height at which everything stored agrees, with the commits below it, or
the height before genesis when no height agrees down to the first missing commit. -/
def IsCommonAncestor (ps : MinerPassStorage) (upstream : BalanceHistoryDB)
    (genesisBlockHeight tip target : Nat) : Prop :=
  (IsGreatest {h | genesisBlockHeight ≤ h ∧ h ≤ tip ∧ AgreesAt ps upstream h} target ∧
      (∀ k, target < k → k ≤ tip → (ps.getPassBlockCommit k).isSome) ∧
      ∀ k, genesisBlockHeight ≤ k → k ≤ target → (ps.getPassBlockCommit k).isSome →
        CommitAgreesAt ps upstream k) ∨
    (target = genesisBlockHeight - 1 ∧
      ((∀ h, genesisBlockHeight ≤ h → h ≤ tip → ¬ AgreesAt ps upstream h) ∨
        ∃ missing, genesisBlockHeight ≤ missing ∧ missing ≤ tip ∧
          ps.getPassBlockCommit missing = none ∧
          ∀ h, missing < h → h ≤ tip → ¬ AgreesAt ps upstream h))

/-- Where the upstream has a stored commit, it has all the commits stored below it. -/
theorem CommitAgreesAt.below (hsha : SelfDelimiting sha256) (hearlier : CommitChained sha256 earlier)
    (hupstream : CommitChained sha256 upstream) (hstored : StoredFrom earlier ps)
    (h : CommitAgreesAt ps upstream height) {k : Nat} (hpos : 1 ≤ k) (hk : k ≤ height)
    (hsome : (ps.getPassBlockCommit k).isSome) : CommitAgreesAt ps upstream k := by
  obtain ⟨entry, commit', hentry, hcommit', hmatch'⟩ := h
  obtain ⟨commit, hcommit, hmatch⟩ := hstored.commits height entry hentry
  have heq : commit.blockCommit = commit'.blockCommit := by
    simp only [storedPassCommitMatchesUpstream, decide_eq_true_eq] at hmatch hmatch'
    exact encodeHex_injective (hmatch.2.1.symm.trans hmatch'.2.1)
  obtain ⟨below, hbelow⟩ := Option.isSome_iff_exists.mp hsome
  obtain ⟨stored, hget, hsame⟩ := hstored.commits k below hbelow
  refine ⟨below, stored, hbelow, ?_, hsame⟩
  rw [← hearlier.getBlockCommit_agree hsha hupstream hcommit hcommit' heq hpos hk]
  exact hget

theorem anchor_matches_iff {anchor : BalanceHistorySnapshotAnchor} {commit : BlockCommitEntry}
    (hcommit : upstream.getBlockCommit height = some commit) :
    storedSnapshotAnchorMatchesHistoricalStateRef anchor (historicalStateRef height commit) = true ↔
      upstream.anchorAt height = some anchor := by
  obtain ⟨stableHeight, hash, latest, lag, version, algo⟩ := anchor
  unfold storedSnapshotAnchorMatchesHistoricalStateRef
  rw [decide_eq_true_iff]
  simp only [historicalStateRef, anchorAt, hcommit, Option.map_some, Option.some.injEq,
    BalanceHistorySnapshotAnchor.mk.injEq]
  constructor
  · rintro ⟨rfl, rfl, rfl, rfl, rfl, rfl⟩
    exact ⟨rfl, rfl, rfl, rfl, rfl, rfl⟩
  · rintro ⟨rfl, rfl, rfl, rfl, rfl, rfl⟩
    exact ⟨rfl, rfl, rfl, rfl, rfl, rfl⟩

theorem stateRefAtHeight_eq (hupstream : CommitChained sha256 upstream) (hpos : 1 ≤ height)
    (hle : height ≤ upstream.getBtcBlockHeight) :
    upstream.client.getStateRefAtHeight height =
      match upstream.getBlockCommit height with
      | some commit => .ok (historicalStateRef height commit)
      | none => .error .rpc := by
  have htip := hupstream.getBlockCommit_isSome (show 1 ≤ upstream.getBtcBlockHeight by omega) le_rfl
  have hanswered : ¬ ((upstream.getBlockCommit upstream.getBtcBlockHeight).isNone ∨
      upstream.getBtcBlockHeight < height) := by
    rintro (hnone | hlt)
    · rw [Option.isNone_iff_eq_none] at hnone
      rw [hnone] at htip
      cases htip
    · omega
  unfold client stateRefAtHeight
  dsimp only
  rw [if_neg hanswered]
  cases upstream.getBlockCommit height <;> rfl

/-- The search stops at a height that agrees, and goes on below one that does not. -/
theorem searchCommonAncestor_some (hupstream : CommitChained sha256 upstream) {count : Nat}
    (hgenesis : 1 ≤ genesisBlockHeight)
    (hle : genesisBlockHeight + count ≤ upstream.getBtcBlockHeight)
    (hsome : (ps.getPassBlockCommit (genesisBlockHeight + count)).isSome) :
    (AgreesAt ps upstream (genesisBlockHeight + count) →
      searchCommonAncestor upstream.client ps genesisBlockHeight (count + 1) =
        .ok (genesisBlockHeight + count)) ∧
    (¬ AgreesAt ps upstream (genesisBlockHeight + count) →
      searchCommonAncestor upstream.client ps genesisBlockHeight (count + 1) =
        searchCommonAncestor upstream.client ps genesisBlockHeight count) := by
  obtain ⟨entry, hentry⟩ := Option.isSome_iff_exists.mp hsome
  obtain ⟨commit, hcommit⟩ := Option.isSome_iff_exists.mp
    (hupstream.getBlockCommit_isSome (by omega) hle)
  have hclient : upstream.client.getBlockCommit (genesisBlockHeight + count) =
      .ok (some (blockCommitInfo commit)) := by
    show Except.ok (Option.map blockCommitInfo (upstream.getBlockCommit _)) = _
    rw [hcommit]
    rfl
  have hagrees : AgreesAt ps upstream (genesisBlockHeight + count) ↔
      storedPassCommitMatchesUpstream entry (blockCommitInfo commit) = true ∧
        ∀ anchor, ps.getBalanceHistorySnapshotAnchorAtHeight (genesisBlockHeight + count) =
            some anchor →
          upstream.anchorAt (genesisBlockHeight + count) = some anchor := by
    unfold AgreesAt CommitAgreesAt
    rw [hentry, hcommit]
    simp
  rw [hagrees, searchCommonAncestor, hentry, hclient]
  cases hanchor : ps.getBalanceHistorySnapshotAnchorAtHeight (genesisBlockHeight + count) with
  | none =>
    constructor
    · intro h
      exact if_pos h.1
    · intro h
      exact if_neg (fun hmatch => h ⟨hmatch, fun anchor ha => (nomatch ha)⟩)
  | some anchor =>
    have hstateRef := stateRefAtHeight_eq hupstream (by omega) hle
    rw [hcommit] at hstateRef
    have hboth : (storedPassCommitMatchesUpstream entry (blockCommitInfo commit) &&
        storedSnapshotAnchorMatchesHistoricalStateRef anchor
          (historicalStateRef (genesisBlockHeight + count) commit)) = true ↔
        storedPassCommitMatchesUpstream entry (blockCommitInfo commit) = true ∧
          upstream.anchorAt (genesisBlockHeight + count) = some anchor := by
      rw [Bool.and_eq_true, anchor_matches_iff hcommit]
    rw [hstateRef]
    constructor
    · intro h
      exact if_pos (hboth.mpr ⟨h.1, h.2 anchor rfl⟩)
    · intro h
      refine if_neg (fun hmatch => h ⟨(hboth.mp hmatch).1, fun found hfound => ?_⟩)
      cases hfound
      exact (hboth.mp hmatch).2

/-- One more height that does not agree leaves the search where it was. -/
theorem IsCommonAncestor.extend {tip target : Nat}
    (h : IsCommonAncestor ps upstream genesisBlockHeight tip target)
    (hsome : (ps.getPassBlockCommit (tip + 1)).isSome) (hoff : ¬ AgreesAt ps upstream (tip + 1)) :
    IsCommonAncestor ps upstream genesisBlockHeight (tip + 1) target := by
  have hcut : ∀ h, h ≤ tip + 1 → AgreesAt ps upstream h → h ≤ tip := by
    intro h hle hagrees
    rcases Nat.lt_or_ge tip h with hlt | hge
    · obtain rfl : h = tip + 1 := by omega
      exact absurd hagrees hoff
    · exact hge
  rcases h with ⟨⟨⟨hlow, hhigh, hagrees⟩, hmax⟩, hpresent, hbelow⟩ | ⟨rfl, hnone⟩
  · refine .inl ⟨⟨⟨hlow, by omega, hagrees⟩, ?_⟩, ?_, hbelow⟩
    · rintro h ⟨hl, hh, ha⟩
      exact hmax ⟨hl, hcut h hh ha, ha⟩
    · intro k hlt hle
      rcases Nat.lt_or_ge tip k with hgt | hge
      · obtain rfl : k = tip + 1 := by omega
        exact hsome
      · exact hpresent k hlt hge
  · refine .inr ⟨rfl, ?_⟩
    rcases hnone with hnone | ⟨missing, hl, hh, hmissing, hnone⟩
    · exact .inl (fun h hl hh ha => hnone h hl (hcut h hh ha) ha)
    · exact .inr ⟨missing, hl, by omega, hmissing, fun h hlt hh ha => hnone h hlt (hcut h hh ha) ha⟩

theorem searchCommonAncestor_ok (hsha : SelfDelimiting sha256)
    (hearlier : CommitChained sha256 earlier) (hupstream : CommitChained sha256 upstream)
    (hstored : StoredFrom earlier ps) (hgenesis : 1 ≤ genesisBlockHeight) {count : Nat}
    (hle : genesisBlockHeight + count ≤ upstream.getBtcBlockHeight + 1) :
    ∃ target, searchCommonAncestor upstream.client ps genesisBlockHeight count = .ok target ∧
      IsCommonAncestor ps upstream genesisBlockHeight (genesisBlockHeight + count - 1) target := by
  induction count with
  | zero => exact ⟨_, rfl, .inr ⟨rfl, .inl (fun h hl hh => by omega)⟩⟩
  | succ count ih =>
    obtain ⟨target, hsearch, hancestor⟩ := ih (by omega)
    rw [show genesisBlockHeight + (count + 1) - 1 = genesisBlockHeight + count by omega]
    cases hentry : ps.getPassBlockCommit (genesisBlockHeight + count) with
    | none =>
      refine ⟨genesisBlockHeight - 1, ?_, .inr ⟨rfl, .inr
        ⟨genesisBlockHeight + count, by omega, le_rfl, hentry, fun h hl hh => by omega⟩⟩⟩
      rw [searchCommonAncestor, hentry]
    | some entry =>
      have hsome : (ps.getPassBlockCommit (genesisBlockHeight + count)).isSome := by
        rw [hentry]
        rfl
      obtain ⟨hstop, hnext⟩ := searchCommonAncestor_some hupstream hgenesis (by omega) hsome
      by_cases hagrees : AgreesAt ps upstream (genesisBlockHeight + count)
      · refine ⟨_, hstop hagrees, .inl ⟨⟨⟨by omega, le_rfl, hagrees⟩, fun h hh => hh.2.1⟩,
          fun k hlt hk => by omega, fun k hl hk hs => ?_⟩⟩
        exact hagrees.1.below hsha hearlier hupstream hstored (by omega) hk hs
      · refine ⟨target, (hnext hagrees).trans hsearch, ?_⟩
        have htip : genesisBlockHeight + count = genesisBlockHeight + count - 1 + 1 := by omega
        rw [htip] at hsome hagrees ⊢
        exact hancestor.extend hsome hagrees

theorem findCommonAncestorHeight_ok (hsha : SelfDelimiting sha256)
    (hearlier : CommitChained sha256 earlier) (hupstream : CommitChained sha256 upstream)
    (hstored : StoredFrom earlier ps) (hgenesis : 1 ≤ genesisBlockHeight) (localHeight : Nat) :
    ∃ target, findCommonAncestorHeight upstream.client ps localHeight upstream.getBtcBlockHeight
        genesisBlockHeight = .ok target ∧
      IsCommonAncestor ps upstream genesisBlockHeight
        (min localHeight upstream.getBtcBlockHeight) target := by
  unfold findCommonAncestorHeight
  dsimp only
  split
  · exact ⟨_, rfl, .inr ⟨rfl, .inl (fun h hl hh => by omega)⟩⟩
  · have hcount : genesisBlockHeight +
        (min localHeight upstream.getBtcBlockHeight + 1 - genesisBlockHeight) ≤
          upstream.getBtcBlockHeight + 1 := by omega
    obtain ⟨target, hsearch, hancestor⟩ :=
      searchCommonAncestor_ok hsha hearlier hupstream hstored hgenesis hcount
    refine ⟨target, hsearch, ?_⟩
    rw [show genesisBlockHeight + (min localHeight upstream.getBtcBlockHeight + 1 -
      genesisBlockHeight) - 1 = min localHeight upstream.getBtcBlockHeight by omega] at hancestor
    exact hancestor

theorem anchorDrift_ok (localHeight : Nat) (hupstream : CommitChained sha256 upstream)
    (hlag : ∀ anchor, ps.balanceHistorySnapshotAnchor = some anchor → anchor.stableLag = stableLag)
    (hpos : 1 ≤ upstream.getBtcBlockHeight) :
    ∃ reasons, anchorDrift ps localHeight upstream.getBtcBlockHeight upstream.buildSnapshotInfo =
        .ok reasons ∧
      (reasons = [] ↔ ¬ (localHeight = upstream.getBtcBlockHeight ∧ ∃ anchor,
        ps.balanceHistorySnapshotAnchor = some anchor ∧
          upstream.anchorAt upstream.getBtcBlockHeight ≠ some anchor)) := by
  obtain ⟨commit, hcommit⟩ := Option.isSome_iff_exists.mp
    (hupstream.getBlockCommit_isSome hpos le_rfl)
  unfold anchorDrift
  split
  · rename_i hsame
    cases hanchor : ps.balanceHistorySnapshotAnchor with
    | none => exact ⟨[], rfl, by simp⟩
    | some anchor =>
      have hmatch : ∃ same, snapshotAnchorMatchesUpstream anchor upstream.buildSnapshotInfo =
          .ok same ∧
            (same = true ↔ upstream.anchorAt upstream.getBtcBlockHeight = some anchor) := by
        unfold snapshotAnchorMatchesUpstream buildSnapshotInfo anchorAt
        rw [hcommit]
        refine ⟨_, rfl, ?_⟩
        have hlag := hlag anchor hanchor
        obtain ⟨stableHeight, hash, latest, lag, version, algo⟩ := anchor
        obtain rfl : lag = stableLag := hlag
        rw [decide_eq_true_iff, Option.map_some, Option.some.injEq,
          BalanceHistorySnapshotAnchor.mk.injEq]
        constructor
        · rintro ⟨rfl, rfl, rfl, rfl, rfl⟩
          exact ⟨rfl, rfl, rfl, rfl, rfl, rfl⟩
        · rintro ⟨rfl, rfl, rfl, -, rfl, rfl⟩
          exact ⟨rfl, rfl, rfl, rfl, rfl⟩
      obtain ⟨same, hcompare, hiff⟩ := hmatch
      refine ⟨if same then [] else [.anchorDrifted localHeight], ?_, ?_⟩
      · dsimp only
        rw [hcompare]
        rfl
      · cases same with
        | true => simp [hiff.mp rfl]
        | false => simp [hsame, ← hiff]
  · rename_i hother
    exact ⟨[], rfl, by simp [hother]⟩

theorem commitDrift_ok (ps : MinerPassStorage) (upstream : BalanceHistoryDB)
    (localHeight genesisBlockHeight : Nat) :
    ∃ reasons, commitDrift upstream.client ps localHeight genesisBlockHeight = .ok reasons ∧
      (reasons = [] ↔ ¬ (genesisBlockHeight ≤ localHeight ∧
        (ps.getPassBlockCommit localHeight).isSome ∧ ¬ CommitAgreesAt ps upstream localHeight)) := by
  have hclient : upstream.client.getBlockCommit localHeight =
      .ok ((upstream.getBlockCommit localHeight).map blockCommitInfo) := rfl
  unfold commitDrift CommitAgreesAt
  split
  · rename_i hle
    cases hentry : ps.getPassBlockCommit localHeight with
    | none => exact ⟨[], rfl, by simp⟩
    | some entry =>
      dsimp only
      rw [hclient]
      cases hcommit : upstream.getBlockCommit localHeight with
      | none => exact ⟨[.commitMissing localHeight], rfl, by simp [hle]⟩
      | some commit =>
        refine ⟨if storedPassCommitMatchesUpstream entry (blockCommitInfo commit) then []
          else [.commitDrifted localHeight], rfl, ?_⟩
        cases hmatch : storedPassCommitMatchesUpstream entry (blockCommitInfo commit) <;>
          simp [hle, hmatch]
  · rename_i hlt
    exact ⟨[], rfl, by simp [hlt]⟩

/-- A reorg is reported exactly when the upstream drifted, and then with the last height
at which the stored commits and anchors are still those of the upstream. -/
theorem detectUpstreamReorgTarget_commonAncestor (sha256 : Sha256) (hsha : SelfDelimiting sha256)
    (earlier upstream : BalanceHistoryDB) (hearlier : CommitChained sha256 earlier)
    (hupstream : CommitChained sha256 upstream) (ps : MinerPassStorage)
    (hstored : StoredFrom earlier ps) (genesisBlockHeight : Nat) (hgenesis : 1 ≤ genesisBlockHeight)
    (hstable : 1 ≤ upstream.getBtcBlockHeight) (localHeight : Nat) :
    (¬ Drifted ps upstream localHeight genesisBlockHeight →
      detectUpstreamReorgTarget upstream.client ps localHeight upstream.getBtcBlockHeight
        upstream.buildSnapshotInfo genesisBlockHeight = .ok none) ∧
    (Drifted ps upstream localHeight genesisBlockHeight →
      ∃ target reason,
        detectUpstreamReorgTarget upstream.client ps localHeight upstream.getBtcBlockHeight
          upstream.buildSnapshotInfo genesisBlockHeight = .ok (some (target, reason)) ∧
        findCommonAncestorHeight upstream.client ps localHeight upstream.getBtcBlockHeight
          genesisBlockHeight = .ok target ∧
        IsCommonAncestor ps upstream genesisBlockHeight
          (min localHeight upstream.getBtcBlockHeight) target) := by
  obtain ⟨anchor, hanchor, hanchorNil⟩ := anchorDrift_ok localHeight hupstream hstored.lag hstable
  obtain ⟨commit, hcommit, hcommitNil⟩ :=
    commitDrift_ok ps upstream localHeight genesisBlockHeight
  obtain ⟨target, htarget, hancestor⟩ :=
    findCommonAncestorHeight_ok hsha hearlier hupstream hstored hgenesis localHeight
  have hregressed : (if upstream.getBtcBlockHeight < localHeight then
      [DriftReason.heightRegressed localHeight upstream.getBtcBlockHeight] else []) = [] ↔
        ¬ upstream.getBtcBlockHeight < localHeight := by
    split <;> simp_all
  generalize hreg : (if upstream.getBtcBlockHeight < localHeight then
      [DriftReason.heightRegressed localHeight upstream.getBtcBlockHeight] else []) = regressed
    at hregressed
  have hrun : detectUpstreamReorgTarget upstream.client ps localHeight
      upstream.getBtcBlockHeight upstream.buildSnapshotInfo genesisBlockHeight =
        if regressed ++ anchor ++ commit = [] then .ok none
        else .ok (some (target,
          "; ".intercalate ((regressed ++ anchor ++ commit).map (·.text)))) := by
    unfold detectUpstreamReorgTarget
    rw [hreg, hanchor, hcommit, htarget]
    rfl
  have hnil : regressed ++ anchor ++ commit = [] ↔
      ¬ Drifted ps upstream localHeight genesisBlockHeight := by
    unfold Drifted
    rw [List.append_eq_nil_iff, List.append_eq_nil_iff, hregressed, hanchorNil, hcommitNil, not_or,
      not_or, and_assoc]
  rw [hrun]
  constructor
  · intro hquiet
    exact if_pos (hnil.mpr hquiet)
  · intro hdrift
    exact ⟨target, _, if_neg (fun h => hnil.mp h hdrift), htarget, hancestor⟩

end Reorg

section Target

variable {client : BalanceHistoryClient} {ps : MinerPassStorage} {snapshot : BalanceHistorySnapshotInfo}
  {currentHeight latestHeight genesisBlockHeight target : Nat} {reason : String}

theorem searchCommonAncestor_range {count : Nat}
    (h : searchCommonAncestor client ps genesisBlockHeight count = .ok target) :
    target = genesisBlockHeight - 1 ∨
      genesisBlockHeight ≤ target ∧ target < genesisBlockHeight + count := by
  induction count with
  | zero =>
    cases h
    exact .inl rfl
  | succ count ih =>
    have hnext : searchCommonAncestor client ps genesisBlockHeight count = .ok target →
        target = genesisBlockHeight - 1 ∨
          genesisBlockHeight ≤ target ∧ target < genesisBlockHeight + (count + 1) := by
      intro hrec
      rcases ih hrec with hfloor | hrange
      · exact .inl hfloor
      · exact .inr ⟨hrange.1, by omega⟩
    rw [searchCommonAncestor] at h
    split at h
    · cases h
      exact .inl rfl
    obtain ⟨found, -, h⟩ := bind_eq_ok_iff.mp h
    split at h
    · cases h
    split at h
    · split at h
      · cases h
        exact .inr ⟨by omega, by omega⟩
      · exact hnext h
    obtain ⟨stateRef, -, h⟩ := bind_eq_ok_iff.mp h
    split at h
    · cases h
      exact .inr ⟨by omega, by omega⟩
    · exact hnext h

theorem findCommonAncestorHeight_range
    (h : findCommonAncestorHeight client ps currentHeight latestHeight genesisBlockHeight =
      .ok target) :
    target = genesisBlockHeight - 1 ∨ genesisBlockHeight ≤ target ∧ target ≤ currentHeight := by
  unfold findCommonAncestorHeight at h
  dsimp only at h
  split at h
  · cases h
    exact .inl rfl
  · rcases searchCommonAncestor_range h with hfloor | hrange
    · exact .inl hfloor
    · exact .inr ⟨hrange.1, by omega⟩

/-- A reorg is reported at genesis or above, once the upstream has reached it. -/
theorem detectUpstreamReorgTarget_some (hlatest : genesisBlockHeight ≤ latestHeight)
    (h : detectUpstreamReorgTarget client ps currentHeight latestHeight snapshot
      genesisBlockHeight = .ok (some (target, reason))) :
    genesisBlockHeight ≤ currentHeight ∧
      findCommonAncestorHeight client ps currentHeight latestHeight genesisBlockHeight =
        .ok target := by
  obtain ⟨anchor, hanchor, h⟩ := bind_eq_ok_iff.mp h
  obtain ⟨commit, hcommit, h⟩ := bind_eq_ok_iff.mp h
  dsimp only at h
  generalize hreg : (if latestHeight < currentHeight then
    [DriftReason.heightRegressed currentHeight latestHeight] else []) = regressed at h
  split at h
  · cases h
  rename_i hreasons
  obtain ⟨found, hfound, h⟩ := bind_eq_ok_iff.mp h
  cases h
  refine ⟨?_, hfound⟩
  by_contra hlow
  refine hreasons ?_
  unfold anchorDrift at hanchor
  unfold commitDrift at hcommit
  rw [if_neg (by omega)] at hanchor
  rw [if_neg hlow] at hcommit
  rw [if_neg (by omega)] at hreg
  cases hanchor
  cases hcommit
  rw [← hreg]
  rfl

/-- The rollback to a reported target can be taken in the world it was found in. -/
theorem detectUpstreamReorgTarget_targetInRange {cfg : IndexerConfig} {w : World}
    (hlatest : cfg.genesisBlockHeight ≤ latestHeight)
    (h : detectUpstreamReorgTarget client w.indexer.passStorage (w.height cfg) latestHeight snapshot
      cfg.genesisBlockHeight = .ok (some (target, reason))) :
    World.TargetInRange cfg w (some target) := by
  obtain ⟨hreached, hfound⟩ := detectUpstreamReorgTarget_some hlatest h
  have hrange := findCommonAncestorHeight_range hfound
  exact ⟨hreached, by omega, by omega⟩

end Target

section OneBlockLeft

/-- The commit of the first block, as it is stored with the passes. -/
def firstEntry : PassBlockCommitEntry where
  blockHeight := 1
  balanceHistoryBlockHeight := 1
  balanceHistoryBlockCommit := encodeHex firstCommitDigest
  mutationRoot := ""
  blockCommit := ""
  commitProtocolVersion := "1.0.0"
  commitHashAlgo := "sha256"

def firstEntryStored : MinerPassStorage :=
  { MinerPassStorage.empty with passBlockCommits := [firstEntry] }

/-- The local height is 2, and the upstream has the first block only. -/
theorem detectUpstreamReorgTarget_commonAncestor_oneBlock :
    ∃ reason, detectUpstreamReorgTarget committedService.state.db.client firstEntryStored 2 1
      committedService.state.db.buildSnapshotInfo 1 = .ok (some (1, reason)) := by
  have hheight : committedService.state.db.getBtcBlockHeight = 1 := by decide +kernel
  have hrun : Service.Run plainConfig (fun _ l => Service.UsesDigest firstSha256 l) .initial
      committedService := Service.run_firstBatch (by simp) (by decide) trivial rfl
  have hchained := hrun.commitChained.2
  obtain ⟨commit, hcommit, hdigest⟩ := Option.map_eq_some_iff.mp
    (show (committedService.state.db.getBlockCommit 1).map (·.blockCommit) =
      some firstCommitDigest by decide +kernel)
  have hmatch : storedPassCommitMatchesUpstream firstEntry (blockCommitInfo commit) = true := by
    have hblock : commit.blockHeight = 1 := by
      obtain ⟨value, -, rfl⟩ := Option.map_eq_some_iff.mp hcommit
      rfl
    unfold storedPassCommitMatchesUpstream blockCommitInfo
    rw [hblock, hdigest]
    rfl
  have hagrees : AgreesAt firstEntryStored committedService.state.db 1 :=
    ⟨⟨firstEntry, commit, rfl, hcommit, hmatch⟩, fun anchor ha => (nomatch ha)⟩
  have hstored : StoredFrom committedService.state.db firstEntryStored := by
    refine ⟨fun height entry hentry => ?_, fun anchor ha => (nomatch ha)⟩
    have hmem : entry ∈ [firstEntry] := lookup_some_mem _ _ _ _ hentry
    obtain rfl : height = entry.blockHeight := (lookup_some_key _ _ _ _ hentry).symm
    obtain rfl := List.mem_singleton.mp hmem
    exact ⟨commit, hcommit, hmatch⟩
  obtain ⟨target, reason, hdetect, -, hancestor⟩ := (detectUpstreamReorgTarget_commonAncestor
    firstSha256 firstSha256_selfDelimiting _ _ hchained hchained firstEntryStored hstored 1 le_rfl
    (by rw [hheight]) 2).2 (.inl (by rw [hheight]; decide))
  rw [hheight] at hdetect hancestor
  obtain rfl : target = 1 := by
    rcases hancestor with ⟨⟨⟨hlow, hhigh, -⟩, -⟩, -⟩ | ⟨-, hnone | ⟨missing, hl, hh, hm, -⟩⟩
    · exact le_antisymm hhigh hlow
    · exact absurd hagrees (hnone 1 le_rfl le_rfl)
    · obtain rfl : missing = 1 := by omega
      cases hm
  exact ⟨reason, hdetect⟩

end OneBlockLeft

end InscriptionIndexer

end Usdb
