import Usdb.Balances.SnapshotRuns

namespace Usdb.Balances

open Framework Unspent BalanceHistoryDB SnapshotIndexer

section Prefix

variable {sha256 : Sha256} {blocks blocks' : List Block}
  {deltas deltas' first : List BlockBalanceDelta} {db db' : BalanceHistoryDB}
  {targetBlockHeight : Nat}

/-- The blocks that follow a chain do not change what its blocks did. -/
theorem chainDeltas_append_prefix (sha256 : Sha256)
    (h : chainDeltas (blocks ++ blocks') = .ok deltas) :
    ∃ first, chainDeltas blocks = .ok first ∧
      (∀ scriptHash height, height ≤ blocks.length →
        deltaRow deltas scriptHash height = deltaRow first scriptHash height) ∧
      ∀ height, height < blocks.length →
        (chainCommits sha256 deltas)[height]? = (chainCommits sha256 first)[height]? := by
  induction blocks' using List.reverseRecOn generalizing deltas with
  | nil =>
    rw [List.append_nil] at h
    exact ⟨deltas, h, fun _ _ _ => rfl, fun _ _ => rfl⟩
  | append_singleton later block ih =>
    rw [← List.append_assoc] at h
    obtain ⟨before, delta, hbefore, rfl, hheights⟩ := chainDeltas_append_one h
    obtain ⟨first, hfirst, hrows, hcommits⟩ := ih hbefore
    refine ⟨first, hfirst, ?_, ?_⟩
    · intro scriptHash height hle
      have hnone : deltaRow [delta] scriptHash height = none := by
        cases hrow : deltaRow [delta] scriptHash height with
        | none => rfl
        | some value =>
          have hat := hheights _ (deltaRow_singleton_some hrow)
          rw [List.length_append] at hat
          dsimp only at hat
          omega
      rw [deltaRow_append, hnone, Option.or_none]
      exact hrows scriptHash height hle
    · intro height hlt
      have hlen : (chainCommits sha256 before).length = (blocks ++ later).length :=
        (buildBlockCommits_length _ _ _).trans (chainDeltas_length hbefore)
      rw [List.length_append] at hlen
      rw [← hcommits height hlt]
      unfold chainCommits at hlen ⊢
      rw [buildBlockCommits_append, List.getElem?_append_left (by omega)]

/-- Two stores of chains with the same first blocks have the same rows and the same
commits up to the last of these. -/
theorem HoldsChain.agree_prefix (h : HoldsChain sha256 .genesis blocks deltas db)
    (h' : HoldsChain sha256 .genesis blocks' deltas' db')
    (hle : targetBlockHeight ≤ blocks.length)
    (hsame : blocks.take targetBlockHeight = blocks'.take targetBlockHeight) :
    (∀ scriptHash height, height ≤ targetBlockHeight →
      db.row scriptHash height = db'.row scriptHash height) ∧
    ∀ height, height ≤ targetBlockHeight → db.blockCommits[height]? = db'.blockCommits[height]? := by
  have hledger := h.accounts.ledger
  have hledger' := h'.accounts.ledger
  rw [← List.take_append_drop targetBlockHeight blocks] at hledger
  rw [← List.take_append_drop targetBlockHeight blocks', ← hsame] at hledger'
  obtain ⟨first, hfirst, hrows, hcommits⟩ := chainDeltas_append_prefix sha256 hledger
  obtain ⟨first', hfirst', hrows', hcommits'⟩ := chainDeltas_append_prefix sha256 hledger'
  obtain rfl : first = first' := Except.ok.inj (hfirst.symm.trans hfirst')
  rw [List.length_take, Nat.min_eq_left hle] at hrows hcommits hrows' hcommits'
  constructor
  · intro scriptHash height hlow
    rw [h.rows_genesis, h'.rows_genesis, hrows _ _ hlow, hrows' _ _ hlow]
  · intro height hlow
    rw [h.commits, h'.commits]
    split
    · rfl
    · rw [hcommits _ (by omega), hcommits' _ (by omega)]

/-- A table of an export depends on the rows up to its height only. -/
theorem balanceRowAt_congr (scriptHash : USDBScriptHash)
    (hrows : ∀ height, height ≤ targetBlockHeight →
      db.row scriptHash height = db'.row scriptHash height) :
    balanceRowAt db targetBlockHeight scriptHash = balanceRowAt db' targetBlockHeight scriptHash := by
  unfold balanceRowAt
  rw [getBalanceAtBlockHeight_eq, getBalanceAtBlockHeight_eq, findLast_congr _ _ _ hrows]

end Prefix

namespace Service

/-- A snapshot of a height is the same whenever it is taken: two nodes whose chains have
the same blocks up to the height write the same tables, whatever they hold above it, and
vouch for the same state. -/
theorem Run.snapshot_of_height (config config' : SyncConfig) (sha256 : Sha256)
    (node : BlockHash → Block) (w w' : Service)
    (h : Run config (ExtendsChain sha256 node) initial w)
    (h' : Run config' (ExtendsChain sha256 node) initial w')
    (hlt : w.state.db.getBtcBlockHeight < 2 ^ 32) (hlt' : w'.state.db.getBtcBlockHeight < 2 ^ 32)
    (hutxos : w.state.db.UtxosFit) (hutxos' : w'.state.db.UtxosFit)
    (targetBlockHeight : Nat) (hpos : 0 < targetBlockHeight)
    (hle : targetBlockHeight ≤ w.state.db.getBtcBlockHeight)
    (hle' : targetBlockHeight ≤ w'.state.db.getBtcBlockHeight)
    (hsame : (w.state.db.chain node).take targetBlockHeight =
      (w'.state.db.chain node).take targetBlockHeight)
    (env env' : ExportEnv) (withUtxo withUtxo' : Bool)
    (htip : withUtxo = true → targetBlockHeight = w.state.db.getBtcBlockHeight)
    (htip' : withUtxo' = true → targetBlockHeight = w'.state.db.getBtcBlockHeight) :
    ∃ exported exported', run env w.state.db targetBlockHeight withUtxo = .ok exported ∧
      run env' w'.state.db targetBlockHeight withUtxo' = .ok exported' ∧
      exported.file.db.balanceHistory = exported'.file.db.balanceHistory ∧
      exported.file.db.blockCommits = exported'.file.db.blockCommits ∧
      (withUtxo = withUtxo' → exported.file.db.utxos = exported'.file.db.utxos) ∧
      (env.config = env'.config → exported.manifest.stateRef = exported'.manifest.stateRef) := by
  obtain ⟨exported, hrun, hexported⟩ := h.exportedAt hlt hutxos env withUtxo hpos hle htip
  obtain ⟨exported', hrun', hexported'⟩ := h'.exportedAt hlt' hutxos' env' withUtxo' hpos hle' htip'
  obtain ⟨⟨-, -, deltas, hholds⟩, -⟩ := h.ledgerKept
  obtain ⟨⟨-, -, deltas', hholds'⟩, -⟩ := h'.ledgerKept
  have hlen := hholds.height
  have hlen' := hholds'.height
  obtain ⟨hrows, hcommits⟩ := hholds.agree_prefix hholds' (hlen ▸ hle) hsame
  refine ⟨exported, exported', hrun, hrun', ?_, ?_, ?_, ?_⟩
  · apply Std.ExtTreeMap.ext_getElem?
    intro scriptHash
    rw [hexported.exports.balances, hexported'.exports.balances]
    exact balanceRowAt_congr scriptHash (hrows scriptHash)
  · apply Std.ExtTreeMap.ext_getElem?
    intro height
    rw [hexported.exports.commits, hexported'.exports.commits]
    split
    · rename_i hlow
      exact hcommits height hlow
    · rfl
  · rintro rfl
    apply Std.ExtTreeMap.ext_getElem?
    intro outpoint
    rw [hexported.exports.utxos, hexported'.exports.utxos]
    split
    · rename_i hwith
      -- both chains end at the height, so they are the same
      have hchain : w.state.db.chain node = w'.state.db.chain node := by
        rw [htip hwith, hlen, List.take_length, ← hlen, ← htip hwith, htip' hwith, hlen',
          List.take_length] at hsame
        exact hsame
      rw [hholds.utxos, hholds'.utxos, hchain]
    · rfl
  · intro hconfig
    apply Option.some.inj
    rw [← hexported.stateRef, ← hexported'.stateRef, hconfig]
    apply buildHistoricalStateRefAtHeight_congr
    unfold getBlockCommit
    rw [hcommits _ (Nat.le_refl _)]

end Service

section Sample

/-- A node that knows two blocks. -/
def twoBlockNode (hash : BlockHash) : Block :=
  if hash = 11 then coinbaseBlock 11 10 11 else coinbaseBlock 12 11 12

def twoBlocks : List Block := [coinbaseBlock 11 10 11, coinbaseBlock 12 11 12]

/-- A process after two blocks in one batch. -/
def twoBlockService : Service := .firstBatch plainConfig ⟨plainEnv, twoBlocks, 1⟩ 2

theorem validChain_twoBlocks : ValidChain twoBlocks where
  spends := by
    refine ⟨⟨List.nodup_nil, ?_, ⟨List.nodup_nil, ?_, trivial⟩⟩, ⟨by decide, ?_⟩⟩
    · intro outpoint hmem
      cases hmem
    · intro outpoint hmem
      cases hmem
    · intro outpoint hmem
      rfl
  solvent := by
    intro pre hpre
    have hlen : pre.length = 0 ∨ pre.length = 1 ∨ pre.length = 2 := by
      have hle : pre.length ≤ 2 := hpre.length_le
      omega
    have hpre := List.prefix_iff_eq_take.mp hpre
    rcases hlen with hlen | hlen | hlen <;> rw [hpre, hlen] <;> decide +kernel

theorem twoBlockService_ledgerRun :
    Service.Run plainConfig (Service.ExtendsChain (fun _ => []) twoBlockNode) .initial
      twoBlockService := by
  apply Service.run_firstBatch (by decide) (by decide)
    (clearsMarkers_of_no_faults rfl)
  refine ⟨rfl, ?_, validChain_twoBlocks⟩
  intro block hmem
  rcases List.mem_cons.mp hmem with rfl | hmem
  · rfl
  · rw [List.mem_singleton.mp hmem]
    rfl

/-- The state of the first block, vouched for at its time and a block later. -/
theorem Service.snapshot_of_height_twoBlocks :
    twoBlockService.state.db.getBtcBlockHeight = 2 ∧
      ∃ exported exported', run signedExport firstBlockService.state.db 1 true = .ok exported ∧
        run signedExport twoBlockService.state.db 1 false = .ok exported' ∧
        exported.manifest.stateRef = exported'.manifest.stateRef := by
  have htwo : twoBlockService.state.db.getBtcBlockHeight = 2 := by decide
  have hutxos : twoBlockService.state.db.UtxosFit := by
    unfold UtxosFit
    decide +kernel
  obtain ⟨exported, exported', hrun, hrun', -, -, -, hstate⟩ :=
    Service.Run.snapshot_of_height plainConfig plainConfig (fun _ => []) twoBlockNode
      firstBlockService twoBlockService (firstBlockService_ledgerRun rfl) twoBlockService_ledgerRun
      (by decide) (by decide) firstBlockService_utxosFit hutxos 1 (by decide) (by decide)
      (by decide) (by decide) signedExport signedExport true false (fun _ => rfl)
      (fun h => by cases h)
  exact ⟨htwo, exported, exported', hrun, hrun', hstate rfl⟩

end Sample

end Usdb.Balances
