import Usdb.Balances.BatchShape

namespace Usdb.Balances

open Framework BalanceHistoryDB

/-- The hash of the block committed at a height. -/
def BalanceHistoryDB.hashAt (db : BalanceHistoryDB) (height : Nat) : Option BlockHash :=
  (db.getBlockCommit height).map (·.btcBlockHash)

/-- Every height up to the height of the store has a commit, and each of the committed
blocks is the parent of the next. -/
structure LinkedStore (parentOf : BlockHash → BlockHash) (db : BalanceHistoryDB) : Prop where
  present : ∀ height, 1 ≤ height → height ≤ db.getBtcBlockHeight → (db.hashAt height).isSome
  linked : ∀ height parent child, 1 ≤ height → height < db.getBtcBlockHeight →
    db.hashAt height = some parent → db.hashAt (height + 1) = some child →
    parentOf child = parent

section Hashes

variable {env : BatchEnv} {s : HistoryState} {start latestBtcHeight undoRetentionBlocks : Nat}
  {blocks : List Block} {data : BatchBlockData} {update : BlockStateUpdateBatch}
  {created : Table OutPoint VOutUtxoInfo} {initial : Table USDBScriptHash BalanceHistoryData}

theorem hashAt_eq (db : BalanceHistoryDB) (height : Nat) :
    db.hashAt height = db.blockCommits[height]?.map (·.btcBlockHash) := by
  unfold hashAt getBlockCommit
  rw [Option.map_map]
  rfl

/-- After a batch, the heights of its range have its block hashes and the other heights
what they had. -/
theorem BatchRun.hashAt (h : BatchRun env s start blocks latestBtcHeight undoRetentionBlocks data
      update created initial) (height : Nat) :
    (s.db.updateBlockState update).hashAt height =
      if start ≤ height ∧ height < start + blocks.length then
        (blocks[height - start]?).map (·.blockHash)
      else s.db.hashAt height := by
  rw [hashAt_eq, h.blockCommit]
  split
  · have hids := congrArg (fun ids => ids[height - start]?) (congrArg (List.map Prod.snd)
      h.commit_ids)
    rw [List.map_map, List.map_snd_zip (by simp)] at hids
    simp only [List.getElem?_map] at hids
    rw [← hids, Option.map_map]
    rfl
  · rw [hashAt_eq]

end Hashes

section Steps

variable {parentOf : BlockHash → BlockHash} {db db' : BalanceHistoryDB}

theorem LinkedStore.empty : LinkedStore parentOf .empty where
  present := by
    intro height hpos hle
    have hz : height ≤ 0 := hle
    omega
  linked := by
    intro height parent child hpos hlt
    have hz : height < 0 := hlt
    omega

theorem hashAt_revertBlock (db : BalanceHistoryDB) (height k : Nat) (bundle : BlockUndoBundle)
    (hne : height ≠ k) : (db.revertBlock height bundle).hashAt k = db.hashAt k := by
  unfold BalanceHistoryDB.hashAt
  rw [getBlockCommit_revertBlock db height k bundle hne]

theorem LinkedStore.rollbackStep (h : LinkedStore parentOf db) (hs : RollbackStep db db') :
    LinkedStore parentOf db' := by
  cases hs with
  | markers m => exact ⟨h.present, h.linked⟩
  | revert bundle found =>
    have hheight : (db.revertBlock db.getBtcBlockHeight bundle).getBtcBlockHeight =
        db.getBtcBlockHeight - 1 := rfl
    constructor
    · intro height hpos hle
      rw [hheight] at hle
      rw [hashAt_revertBlock _ _ _ _ (by omega)]
      exact h.present height hpos (by omega)
    · intro height parent child hpos hlt hp hc
      rw [hheight] at hlt
      rw [hashAt_revertBlock _ _ _ _ (by omega)] at hp hc
      exact h.linked height parent child hpos (by omega) hp hc

theorem LinkedStore.rollbackSteps (h : LinkedStore parentOf db) (hs : RollbackSteps db db') :
    LinkedStore parentOf db' := by
  induction hs with
  | refl => exact h
  | tail _ step ih => exact ih.rollbackStep step

theorem LinkedStore.prune (h : LinkedStore parentOf db) {minRetainedHeight : Nat}
    (hs : PruneStep db minRetainedHeight db') : LinkedStore parentOf db' := by
  cases hs with
  | skip => exact h
  | prune supportedFrom supported => exact ⟨h.present, h.linked⟩

/-- The blocks of a batch follow each other, and the first of them the store. -/
structure LinkedBlocks (db : BalanceHistoryDB) (blocks : List Block) : Prop where
  first : ∀ block hash, blocks[0]? = some block → db.hashAt db.getBtcBlockHeight = some hash →
    block.prevBlockhash = hash
  next : ∀ i block block', blocks[i]? = some block → blocks[i + 1]? = some block' →
    block'.prevBlockhash = block.blockHash

/-- The hash of a block is computed from its header, and so determines its parent. -/
def HeaderHashes (parentOf : BlockHash → BlockHash) (blocks : List Block) : Prop :=
  ∀ block ∈ blocks, block.prevBlockhash = parentOf block.blockHash

theorem LinkedStore.batch {env : BatchEnv} {s : HistoryState}
    {latestBtcHeight undoRetentionBlocks : Nat} {blocks : List Block} {data : BatchBlockData}
    {update : BlockStateUpdateBatch} {created : Table OutPoint VOutUtxoInfo}
    {initial : Table USDBScriptHash BalanceHistoryData} (h : LinkedStore parentOf s.db)
    (hb : BatchRun env s (s.db.getBtcBlockHeight + 1) blocks latestBtcHeight undoRetentionBlocks
      data update created initial)
    (hl : LinkedBlocks s.db blocks) (hh : HeaderHashes parentOf blocks) :
    LinkedStore parentOf (s.db.updateBlockState update) := by
  have hheight := hb.getBtcBlockHeight
  constructor
  · intro height hpos hle
    rw [hheight] at hle
    rw [hb.hashAt]
    split
    · rw [List.getElem?_eq_getElem (by omega)]
      rfl
    · exact h.present height hpos (by omega)
  · intro height parent child hpos hlt hp hc
    rw [hheight] at hlt
    rw [hb.hashAt] at hp hc
    rcases Nat.lt_trichotomy height s.db.getBtcBlockHeight with hold | rfl | hnew
    · rw [if_neg (by omega)] at hp hc
      exact h.linked height parent child hpos hold hp hc
    · rw [if_pos (by omega), Nat.sub_self] at hc
      rw [if_neg (by omega)] at hp
      obtain ⟨block, hblock, rfl⟩ := Option.map_eq_some_iff.mp hc
      rw [← hh block (List.mem_of_getElem? hblock)]
      exact hl.first block parent hblock hp
    · rw [if_pos (by omega)] at hp hc
      obtain ⟨block, hblock, rfl⟩ := Option.map_eq_some_iff.mp hp
      obtain ⟨block', hblock', rfl⟩ := Option.map_eq_some_iff.mp hc
      rw [← hh block' (List.mem_of_getElem? hblock')]
      refine hl.next (height - (s.db.getBtcBlockHeight + 1)) block block' hblock ?_
      rw [← hblock']
      congr 1
      omega

end Steps

section Agreement

variable {parentOf : BlockHash → BlockHash} {db : BalanceHistoryDB}

/-- When the comparison finds no reorganisation, the node's hash at the local tip is the
local one. -/
theorem hashAt_of_no_reorg {answers : ReorgAnswers} {tipHash : BlockHash}
    {currentHeight latestBtcHeight : Nat} (hpos : currentHeight ≠ 0)
    (htip : answers.tipHash = some tipHash)
    (h : findReorgCommonAncestorHeight db answers currentHeight latestBtcHeight = .ok none) :
    db.hashAt currentHeight = some tipHash := by
  unfold findReorgCommonAncestorHeight at h
  rw [if_neg hpos] at h
  split at h
  · obtain ⟨commit, hcommit, h⟩ := bind_eq_ok_iff.mp h
    obtain ⟨canonical, hcanonical, h⟩ := bind_eq_ok_iff.mp h
    rw [htip] at hcanonical
    cases hcanonical
    split at h
    · rename_i heq
      unfold BalanceHistoryDB.hashAt
      unfold requireCommit at hcommit
      cases hget : db.getBlockCommit currentHeight with
      | none =>
        rw [hget] at hcommit
        cases hcommit
      | some commit' =>
        rw [hget] at hcommit
        cases hcommit
        exact congrArg some heq
    · obtain ⟨ancestor, -, h⟩ := bind_eq_ok_iff.mp h
      cases h
  · obtain ⟨ancestor, -, h⟩ := bind_eq_ok_iff.mp h
    cases h

/-- Two linked chains that agree at a height agree below it. -/
theorem LinkedStore.agree (h : LinkedStore parentOf db) {canonical : Nat → Block}
    (hchain : ∀ height, 1 ≤ height → height < db.getBtcBlockHeight →
      (canonical (height + 1)).prevBlockhash = (canonical height).blockHash)
    (hheader : ∀ height, (canonical height).prevBlockhash =
      parentOf (canonical height).blockHash)
    (htip : db.hashAt db.getBtcBlockHeight = some (canonical db.getBtcBlockHeight).blockHash)
    {below : Nat} (hle : below < db.getBtcBlockHeight) :
    db.hashAt (db.getBtcBlockHeight - below) =
      some (canonical (db.getBtcBlockHeight - below)).blockHash := by
  induction below with
  | zero => exact htip
  | succ below ih =>
    have hchild := ih (by omega)
    obtain ⟨parent, hparent⟩ := Option.isSome_iff_exists.mp
      (h.present (db.getBtcBlockHeight - (below + 1)) (by omega) (by omega))
    have hsucc : db.getBtcBlockHeight - (below + 1) + 1 = db.getBtcBlockHeight - below := by omega
    have hlink := h.linked _ parent _ (by omega) (by omega) hparent (by rw [hsucc]; exact hchild)
    have hcanon := hchain (db.getBtcBlockHeight - (below + 1)) (by omega) (by omega)
    rw [hsucc] at hcanon
    rw [hparent, ← hcanon, hheader, hlink]

end Agreement

namespace Service

variable {config : SyncConfig} {parentOf : BlockHash → BlockHash} {w w' : Service} {l : Label}

/-- Every block the node answers with has a header that hashes to its hash. -/
def FromNode (parentOf : BlockHash → BlockHash) : Label → Prop
  | .batch answers _ => HeaderHashes parentOf answers.blocks
  | _ => True

/-- The blocks fetched for a batch follow each other and the block stored below them. -/
def LinkedBatch (w : Service) : Label → Prop
  | .batch answers _ => LinkedBlocks w.state.db answers.blocks
  | _ => True

theorem Step.linkedStore (h : LinkedStore parentOf w.state.db) (hn : FromNode parentOf l)
    (hl : LinkedBatch w l) (hs : Step config w l w') : LinkedStore parentOf w'.state.db := by
  generalize w'.state.db = db, hs.storeStep = hstep
  cases hstep with
  | same => exact h
  | rollback steps => exact h.rollbackSteps steps
  | @batch answers faults latestBtcHeight data update created initial _ syncing le run prune =>
    have hbatch : LinkedStore parentOf (w.state.db.updateBlockState update) :=
      LinkedStore.batch (s := { w.state with faults }) h run hl hn
    exact hbatch.prune prune

theorem Run.linkedStore
    (h : Run config (fun w l => FromNode parentOf l ∧ LinkedBatch w l) initial w) :
    LinkedStore parentOf w.state.db :=
  h.induct LinkedStore.empty (fun _ _ _ hw hc hs => Step.linkedStore hw hc.1 hc.2 hs)

/-- When every batch links to itself and to the store, a comparison that finds no
reorganisation means that the store has the node's chain at every height. -/
theorem Run.canonical_of_no_reorg (config : SyncConfig) (parentOf : BlockHash → BlockHash)
    (w : Service) (h : Run config (fun w l => FromNode parentOf l ∧ LinkedBatch w l) initial w)
    (db : BalanceHistoryDB) (hdb : RollbackSteps w.state.db db) (canonical : Nat → Block)
    (hchain : ∀ height, 1 ≤ height → height < db.getBtcBlockHeight →
      (canonical (height + 1)).prevBlockhash = (canonical height).blockHash)
    (hheader : ∀ height, (canonical height).prevBlockhash =
      parentOf (canonical height).blockHash)
    (answers : ReorgAnswers)
    (htip : answers.tipHash = some (canonical db.getBtcBlockHeight).blockHash)
    (latestBtcHeight : Nat)
    (hnone : findReorgCommonAncestorHeight db answers db.getBtcBlockHeight latestBtcHeight =
      .ok none) (height : Nat) (hpos : 1 ≤ height) (hle : height ≤ db.getBtcBlockHeight) :
    db.hashAt height = some (canonical height).blockHash := by
  have hlinked := h.linkedStore.rollbackSteps hdb
  have htip' := hashAt_of_no_reorg (by omega) htip hnone
  have hbelow : db.getBtcBlockHeight - height < db.getBtcBlockHeight := by omega
  have hagree := hlinked.agree hchain hheader htip' hbelow
  rw [show db.getBtcBlockHeight - (db.getBtcBlockHeight - height) = height by omega] at hagree
  exact hagree

end Service

section TwoForks

/-- The canonical chain after a reorganisation of height 1. -/
def forkB : Nat → Block
  | 0 => coinbaseBlock 20 19 20
  | 1 => coinbaseBlock 21 20 21
  | _ => coinbaseBlock 22 21 22

/-- The block that was at height 1 before. -/
def staleBlock : Block := coinbaseBlock 11 20 11

/-- Height 1 is fetched before the node changes its chain and height 2 after it. -/
def mixedBatch : BatchAnswers := ⟨plainEnv, [staleBlock, forkB 2], 2⟩

def mixedParent (hash : BlockHash) : BlockHash := if hash = 11 then 20 else hash - 1

def mixedService : Service := .firstBatch plainConfig mixedBatch 2

theorem mixedService_run :
    Service.Run plainConfig (fun _ l => Service.FromNode mixedParent l) .initial mixedService := by
  refine Service.run_firstBatch (by simp [mixedBatch]) (by decide) trivial ?_
  show HeaderHashes mixedParent mixedBatch.blocks
  unfold HeaderHashes
  decide

/-- A store with one block of each fork is accepted as in sync. -/
theorem mixed_forks_accepted :
    Service.Run plainConfig (fun _ l => Service.FromNode mixedParent l) .initial mixedService ∧
      findReorgCommonAncestorHeight mixedService.state.db ⟨some (forkB 2).blockHash, fun _ => none⟩
        mixedService.state.db.getBtcBlockHeight 2 = .ok none ∧
      mixedService.state.db.getBtcBlockHeight = 2 ∧
      mixedService.state.db.hashAt 1 ≠ some (forkB 1).blockHash :=
  ⟨mixedService_run, by decide, by decide, by decide⟩

/-- The same two heights fetched from one chain. -/
def linkedBatch : BatchAnswers := ⟨plainEnv, [forkB 1, forkB 2], 2⟩

def linkedService : Service := .firstBatch plainConfig linkedBatch 2

theorem Service.canonical_of_no_reorg_linkedBatch :
    linkedService.state.db.getBtcBlockHeight = 2 ∧
      linkedService.state.db.hashAt 1 = some (forkB 1).blockHash := by
  refine ⟨by decide, ?_⟩
  have hrun : Service.Run plainConfig (fun w l => Service.FromNode mixedParent l ∧
      Service.LinkedBatch w l) .initial linkedService := by
    refine Service.run_firstBatch (by simp [linkedBatch]) (by decide) ⟨trivial, trivial⟩ ⟨?_, ?_, ?_⟩
    · show HeaderHashes mixedParent linkedBatch.blocks
      unfold HeaderHashes
      decide
    · intro block hash hblock hhash
      cases hhash
    · intro i block block' hblock hblock'
      cases i with
      | zero =>
        cases hblock
        cases hblock'
        rfl
      | succ i => cases hblock'
  exact Service.Run.canonical_of_no_reorg plainConfig mixedParent linkedService hrun
    linkedService.state.db .refl forkB
    (by
      intro height hpos hlt
      have h2 : linkedService.state.db.getBtcBlockHeight = 2 := by decide
      obtain rfl : height = 1 := by omega
      rfl)
    (by
      intro height
      rcases height with _ | _ | height
      · decide
      · decide
      · show (21 : BlockHash) = mixedParent 22
        decide)
    ⟨some (forkB 2).blockHash, fun _ => none⟩ (by decide) 2 (by decide) 1 (by decide) (by decide)

end TwoForks

end Usdb.Balances
