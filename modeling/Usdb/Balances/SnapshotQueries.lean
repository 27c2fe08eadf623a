import Usdb.Balances.LedgerProgress
import Usdb.Balances.SnapshotRuns

namespace Usdb.Balances

open Framework Unspent BalanceHistoryDB SnapshotInstaller SnapshotIndexer

structure GetBalanceParams where
  scriptHash : USDBScriptHash
  blockHeight : Option Nat
  blockRange : Option (Nat × Nat)

namespace BalanceHistoryDB

variable (db : BalanceHistoryDB)

/-- The height a query may ask up to, once the store has a commit there. -/
def resolveQueryableSnapshot : Except AggregateError Nat :=
  match db.getBlockCommit db.getBtcBlockHeight with
  | none => .error .snapshotNotReady
  | some _ => .ok db.getBtcBlockHeight

def validateRequestedHeight (requestedHeight : Nat) : Except AggregateError Nat := do
  let stableHeight ← db.resolveQueryableSnapshot
  if requestedHeight > stableHeight then
    throw (.heightNotSynced requestedHeight stableHeight)
  else return stableHeight

def getAddressBalance (params : GetBalanceParams) :
    Except AggregateError (List BalanceHistoryData) := do
  match params.blockHeight, params.blockRange with
  | some height, _ =>
    let _ ← db.validateRequestedHeight height
    return [db.getBalanceAtBlockHeight params.scriptHash height]
  | none, some (rangeStart, rangeEnd) =>
    if rangeEnd ≤ rangeStart then return []
    else
      db.validateRequestedRange rangeStart rangeEnd
      (db.getBalanceInRange params.scriptHash rangeStart rangeEnd).mapError .internal
  | none, none =>
    let _ ← db.resolveQueryableSnapshot
    return [db.getLatestBalance params.scriptHash]

theorem resolveQueryableSnapshot_eq_ok {height : Nat} :
    db.resolveQueryableSnapshot = .ok height ↔
      (db.getBlockCommit db.getBtcBlockHeight).isSome ∧ height = db.getBtcBlockHeight := by
  unfold resolveQueryableSnapshot
  cases db.getBlockCommit db.getBtcBlockHeight with
  | none => simp
  | some commit => simp [eq_comm]

theorem validateRequestedHeight_eq_ok {requestedHeight stableHeight : Nat} :
    db.validateRequestedHeight requestedHeight = .ok stableHeight ↔
      (db.getBlockCommit db.getBtcBlockHeight).isSome ∧ requestedHeight ≤ stableHeight ∧
        stableHeight = db.getBtcBlockHeight := by
  unfold validateRequestedHeight
  rw [bind_eq_ok_iff]
  constructor
  · rintro ⟨resolved, hresolve, hvalid⟩
    obtain ⟨hcommit, rfl⟩ := (db.resolveQueryableSnapshot_eq_ok).mp hresolve
    split at hvalid
    · cases hvalid
    · cases hvalid
      exact ⟨hcommit, by omega, rfl⟩
  · rintro ⟨hcommit, hle, rfl⟩
    refine ⟨_, (db.resolveQueryableSnapshot_eq_ok).mpr ⟨hcommit, rfl⟩, ?_⟩
    rw [if_neg (by omega)]
    rfl

theorem getAddressBalance_height {scriptHash : USDBScriptHash} {height : Nat}
    {blockRange : Option (Nat × Nat)} {answers : List BalanceHistoryData} :
    db.getAddressBalance ⟨scriptHash, some height, blockRange⟩ = .ok answers ↔
      (db.getBlockCommit db.getBtcBlockHeight).isSome ∧ height ≤ db.getBtcBlockHeight ∧
        answers = [db.getBalanceAtBlockHeight scriptHash height] := by
  unfold getAddressBalance
  rw [bind_eq_ok_iff]
  constructor
  · rintro ⟨stableHeight, hvalid, hanswers⟩
    obtain ⟨hcommit, hle, rfl⟩ := (db.validateRequestedHeight_eq_ok).mp hvalid
    cases hanswers
    exact ⟨hcommit, hle, rfl⟩
  · rintro ⟨hcommit, hle, rfl⟩
    exact ⟨_, (db.validateRequestedHeight_eq_ok).mpr ⟨hcommit, hle, rfl⟩, rfl⟩

end BalanceHistoryDB

section Below

variable {rows : Nat → Option BalanceValue}

/-- The last row up to a height is the last one up to a later height, when there is none
between them. -/
theorem findLast_eq_of_none_between {height targetHeight : Nat} (hle : height ≤ targetHeight)
    (hnone : ∀ k, height < k → k ≤ targetHeight → rows k = none) :
    findLast rows targetHeight = findLast rows height := by
  apply Option.ext
  rintro ⟨k, value⟩
  rw [findLast_eq_some, findLast_eq_some]
  constructor
  · rintro ⟨hk, hrow, habove⟩
    refine ⟨?_, hrow, fun j hj hjle => habove j hj (hjle.trans hle)⟩
    by_contra hlt
    rw [hnone k (by omega) hk] at hrow
    cases hrow
  · rintro ⟨hk, hrow, habove⟩
    refine ⟨hk.trans hle, hrow, ?_⟩
    intro j hj hjle
    by_cases hjlow : j ≤ height
    · exact habove j hj hjlow
    · exact hnone j (by omega) hjle

variable {db : BalanceHistoryDB} {scriptHash : USDBScriptHash} {height targetBlockHeight : Nat}

/-- Below the height they were given for, the rows keep the balance of a script hash that
has no row since. -/
theorem findLast_givenRows_kept (hle : height ≤ targetBlockHeight)
    (hnone : ∀ k, height < k → k ≤ targetBlockHeight → db.row scriptHash k = none) :
    (balanceData (findLast (givenRows db targetBlockHeight scriptHash) height)).balance =
      (db.getBalanceAtBlockHeight scriptHash height).balance := by
  have hsame : db.getBalanceAtBlockHeight scriptHash targetBlockHeight =
      db.getBalanceAtBlockHeight scriptHash height := by
    rw [getBalanceAtBlockHeight_eq, getBalanceAtBlockHeight_eq,
      findLast_eq_of_none_between hle hnone]
  rw [← hsame, ← findLast_givenRows, findLast_eq_of_none_between hle]
  intro k hk _
  apply if_neg
  intro hgiven
  have hlow := getBalanceAtBlockHeight_le db scriptHash height
  rw [← hsame, hgiven.2] at hlow
  omega

/-- A script hash with a later row has none of the rows below it. -/
theorem findLast_givenRows_lost {k : Nat} (hlt : height < k) (hle : k ≤ targetBlockHeight)
    (hrow : (db.row scriptHash k).isSome) :
    findLast (givenRows db targetBlockHeight scriptHash) height = none := by
  obtain ⟨value, hvalue⟩ := Option.isSome_iff_exists.mp hrow
  obtain ⟨j, last, hlast, hkj⟩ := findLast_isSome _ _ _ _ hle hvalue
  rw [findLast_eq_none]
  intro i hi
  apply if_neg
  rw [getBalanceAtBlockHeight_eq, hlast]
  intro hgiven
  have hji : j = i := hgiven.2
  omega

end Below

namespace Service

variable {sha256 : Sha256} {node : BlockHash → Block} {origin : Origin} {config : SyncConfig}
  {w₀ w w' : Service} {l : Label}

/-- No step changes the blocks up to the height that the rows of the store were given for:
they cannot be rolled back. -/
theorem chain_take_step (h : LedgerKept sha256 node origin w.state.db) (hk : CachesKept w)
    (hc : ExtendsChain sha256 node w l) (hs : Step config w l w') :
    (w'.state.db.chain node).take origin.base = (w.state.db.chain node).take origin.base := by
  have hafter := ledgerKept_step h hk hc hs
  have hstore := hs.storeStep
  generalize w'.state.db = db at hstore hafter
  cases hstore with
  | same => rfl
  | rollback steps =>
    obtain ⟨-, height, hchain⟩ := h.rollbackSteps steps
    obtain ⟨deltas, hholds⟩ := hafter.holds
    have hbase := hholds.base_le
    rw [hchain, List.length_take] at hbase
    rw [hchain, List.take_take, Nat.min_eq_left (by omega)]
  | batch syncing le run prune =>
    obtain ⟨deltas, hholds⟩ := h.holds
    rw [(ledgerKept_batch h hk hc syncing run prune).2, List.take_append_of_le_length hholds.base_le]

theorem Run.chain_take (h : Run config (ExtendsChain sha256 node) w₀ w)
    (hkept : LedgerKept sha256 node origin w₀.state.db) (hcaches : CachesKept w₀) :
    LedgerKept sha256 node origin w.state.db ∧
      (w.state.db.chain node).take origin.base = (w₀.state.db.chain node).take origin.base := by
  have hall : (LedgerKept sha256 node origin w.state.db ∧ CachesKept w) ∧
      (w.state.db.chain node).take origin.base = (w₀.state.db.chain node).take origin.base := by
    apply h.induct (P := fun w => (LedgerKept sha256 node origin w.state.db ∧ CachesKept w) ∧
      (w.state.db.chain node).take origin.base = (w₀.state.db.chain node).take origin.base)
      ⟨⟨hkept, hcaches⟩, rfl⟩
    intro w l w' hw hc hs
    obtain ⟨⟨hledger, hk⟩, hchain⟩ := hw
    exact ⟨⟨ledgerKept_step hledger hk hc hs, hk.step hc.markersCleared hs⟩,
      (chain_take_step hledger hk hc hs).trans hchain⟩
  exact ⟨hall.1.1, hall.2⟩

/-- A process that goes on from an installed export answers a query for a height with the
balance there, from the height of the export on, and below it for a script hash that did not
move between the two. For the others it answers zero. -/
theorem Run.installed_balance (config config' : SyncConfig) (sha256 : Sha256)
    (node : BlockHash → Block) (w w' : Service) (env : ExportEnv) (installEnv : InstallEnv)
    (exported : SnapshotExport) (i : Installation installEnv exported.data)
    (h : Run config (ExtendsChain sha256 node) initial w)
    (hpos : 0 < w.state.db.getBtcBlockHeight) (hlt : w.state.db.getBtcBlockHeight < 2 ^ 32)
    (hutxos : w.state.db.UtxosFit)
    (hrun : run env w.state.db w.state.db.getBtcBlockHeight true = .ok exported)
    (h' : Run config' (ExtendsChain sha256 node) (opened i.dir.db) w')
    (scriptHash : USDBScriptHash) (height : Nat) (blockRange : Option (Nat × Nat))
    (answers : List BalanceHistoryData)
    (hquery : w'.state.db.getAddressBalance ⟨scriptHash, some height, blockRange⟩ = .ok answers) :
    ∃ answer, answers = [answer] ∧
      ((w.state.db.getBtcBlockHeight ≤ height ∨
          ∀ k, height < k → k ≤ w.state.db.getBtcBlockHeight →
            w.state.db.row scriptHash k = none) →
        answer.balance = balanceAt (w'.state.db.chain node) scriptHash height) ∧
      ∀ k, height < k → k ≤ w.state.db.getBtcBlockHeight →
        (w.state.db.row scriptHash k).isSome → answer.balance = 0 := by
  obtain ⟨exported', hrun', hexported⟩ := h.exportedAt hlt hutxos env true hpos (Nat.le_refl _)
    (fun _ => rfl)
  obtain rfl : exported' = exported := Except.ok.inj (hrun'.symm.trans hrun)
  obtain ⟨⟨-, -, deltas, hholds⟩, -⟩ := h.ledgerKept
  obtain ⟨hkept, hchain, hcaches⟩ := h.installed_ledger hutxos hexported i
  obtain ⟨⟨-, -, deltas', hholds'⟩, hblocks⟩ := h'.chain_take hkept hcaches
  replace hblocks := hblocks.trans (congrArg _ hchain)
  obtain ⟨-, -, rfl⟩ := (getAddressBalance_height _).mp hquery
  -- below the height of the export the store has the rows it was given
  have hgiven : ∀ k, k ≤ w.state.db.getBtcBlockHeight → w'.state.db.row scriptHash k =
      givenRows w.state.db w.state.db.getBtcBlockHeight scriptHash k := by
    intro k hk
    rw [hholds'.rows, if_pos hk]
  have hbelow : height ≤ w.state.db.getBtcBlockHeight →
      w'.state.db.getBalanceAtBlockHeight scriptHash height =
        balanceData (findLast (givenRows w.state.db w.state.db.getBtcBlockHeight scriptHash)
          height) := by
    intro hle
    rw [getBalanceAtBlockHeight_eq]
    congr 1
    exact findLast_congr _ _ _ (fun k hk => hgiven k (hk.trans hle))
  refine ⟨_, rfl, ?_, ?_⟩
  · rintro (hle | hnone)
    · exact hholds'.balance_eq scriptHash hle
    · by_cases hle : w.state.db.getBtcBlockHeight ≤ height
      · exact hholds'.balance_eq scriptHash hle
      · have hlow : height ≤ w.state.db.getBtcBlockHeight := Nat.le_of_not_le hle
        have hsame : (w'.state.db.chain node).take height = (w.state.db.chain node).take height := by
          have htake := congrArg (List.take height) hblocks
          rw [List.take_take, List.take_take, Nat.min_eq_left hlow] at htake
          exact htake
        rw [hbelow hlow, findLast_givenRows_kept hlow hnone,
          hholds.balance_eq scriptHash (Nat.zero_le _)]
        unfold balanceAt
        rw [hsame]
  · intro k hk hkle hrow
    rw [hbelow (by omega), findLast_givenRows_lost hk hkle hrow]
    rfl

end Service

section Sample

/-- A query on the store that an installation of the first block leaves. -/
theorem Service.installed_balance_firstBlock :
    ∃ (exported : SnapshotExport) (i : Installation trustingInstall exported.data)
      (answer : BalanceHistoryData),
      i.dir.db.getAddressBalance ⟨7, some 1, none⟩ = .ok [answer] ∧
        answer.balance = balanceAt (i.dir.db.chain oneBlockNode) 7 1 := by
  have hrun : Service.Run plainConfig (Service.ExtendsChain (fun _ => []) oneBlockNode) .initial
      firstBlockService := firstBlockService_ledgerRun rfl
  obtain ⟨exported, hexport, hexported⟩ := hrun.exportedAt (by decide) firstBlockService_utxosFit
    signedExport true (by decide) (Nat.le_refl _) (fun _ => rfl)
  obtain ⟨i⟩ := hexported.installation trustingInstall_trusts rfl
  obtain ⟨⟨-, -, deltas, hholds⟩, hchain, -⟩ :=
    hrun.installed_ledger firstBlockService_utxosFit hexported i
  obtain ⟨⟨-, -, deltas', hholds'⟩, -⟩ := hrun.ledgerKept
  have htip : i.dir.db.getBtcBlockHeight = 1 := by
    rw [hholds.height, hchain, ← hholds'.height]
    decide
  have hquery : i.dir.db.getAddressBalance ⟨7, some 1, none⟩ =
      .ok [i.dir.db.getBalanceAtBlockHeight 7 1] := by
    rw [getAddressBalance_height]
    refine ⟨?_, htip.ge, rfl⟩
    apply hholds.getBlockCommit_isSome
    · rw [htip]
      decide
    · rw [hholds.height]
  obtain ⟨answer, hanswer, hbalance, -⟩ := Service.Run.installed_balance plainConfig plainConfig
    (fun _ => []) oneBlockNode firstBlockService (.opened i.dir.db) signedExport trustingInstall
    exported i hrun (by decide) (by decide) firstBlockService_utxosFit hexport (.refl _) 7 1 none
    _ hquery
  exact ⟨exported, i, answer, hquery.trans (congrArg _ hanswer), hbalance (.inl (by decide))⟩

end Sample

end Usdb.Balances
