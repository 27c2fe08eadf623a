import Mathlib.Data.List.Chain
import Usdb.Balances.LedgerProgress

namespace Usdb.Balances

open Framework Unspent BalanceHistoryDB

/-- A block is the parent of another. -/
def Links (parent child : Block) : Prop := child.prevBlockhash = parent.blockHash

/-- The hash of the block of a chain at a height. -/
def chainHash (blocks : List Block) (height : Nat) : BlockHash :=
  ((blocks[height - 1]?).map (·.blockHash)).getD 0

def parentIn (node : BlockHash → Block) (hash : BlockHash) : BlockHash := (node hash).prevBlockhash

section Chains

variable {sha256 : Sha256} {node : BlockHash → Block} {origin : Origin}
  {blocks canonical : List Block}
  {deltas : List BlockBalanceDelta} {db : BalanceHistoryDB}

theorem chainHash_succ {height : Nat} (h : height < blocks.length) :
    chainHash blocks (height + 1) = blocks[height].blockHash := by
  unfold chainHash
  rw [Nat.add_sub_cancel, List.getElem?_eq_getElem h]
  rfl

theorem links_chainHash (hl : blocks.IsChain Links) (hn : Named node blocks) {height : Nat}
    (hpos : 1 ≤ height) (hlt : height < blocks.length) :
    parentIn node (chainHash blocks (height + 1)) = chainHash blocks height := by
  obtain ⟨height, rfl⟩ : ∃ k, height = k + 1 := ⟨height - 1, by omega⟩
  rw [chainHash_succ hlt, chainHash_succ (by omega)]
  unfold parentIn
  rw [hn _ (List.getElem_mem hlt)]
  exact List.isChain_iff_getElem.mp hl height hlt

theorem HoldsChain.hashAt_eq (h : HoldsChain sha256 origin blocks deltas db) {height : Nat}
    (hpos : 1 ≤ height) (hle : height ≤ blocks.length) :
    db.hashAt height = some (chainHash blocks height) := by
  obtain ⟨height, rfl⟩ : ∃ k, height = k + 1 := ⟨height - 1, by omega⟩
  rw [h.hashAt, chainHash_succ hle, List.getElem?_eq_getElem hle]
  rfl

theorem HoldsChain.linkedStore (h : HoldsChain sha256 origin blocks deltas db)
    (hl : blocks.IsChain Links) (hn : Named node blocks) : LinkedStore (parentIn node) db where
  present := by
    intro height hpos hle
    rw [h.height] at hle
    rw [h.hashAt_eq hpos hle]
    rfl
  linked := by
    intro height parent child hpos hlt hparent hchild
    rw [h.height] at hlt
    rw [h.hashAt_eq hpos (by omega)] at hparent
    rw [h.hashAt_eq (by omega) hlt] at hchild
    cases hparent
    cases hchild
    exact links_chainHash hl hn hpos hlt

/-- A store whose hashes up to a height are those of a chain has its blocks. -/
theorem chainTo_of_hashes (hn : Named node canonical) {top : Nat} (hle : top ≤ canonical.length)
    (h : ∀ k, 1 ≤ k → k ≤ top → db.hashAt k = some (chainHash canonical k)) :
    db.chainTo node top = canonical.take top := by
  induction top with
  | zero => rfl
  | succ top ih =>
    rw [chainTo, ih (by omega) (fun k hpos hk => h k hpos (by omega)),
      h (top + 1) (by omega) (Nat.le_refl _), chainHash_succ hle, List.take_add_one,
      List.getElem?_eq_getElem hle, Option.map_some, hn _ (List.getElem_mem hle)]

end Chains

section Round

variable {sha256 : Sha256} {node : BlockHash → Block} {origin : Origin} {canonical : List Block}
  {s : HistoryState} {answers : ReorgAnswers}

/-- The journal covers the blocks of the store above the last common block. -/
def UndoCoversFork (db : BalanceHistoryDB) (canonical : List Block) : Prop :=
  ¬ OnChain db (chainHash canonical) canonical.length →
    UndoAvailable db (commonAncestor db (chainHash canonical)
      (min db.getBtcBlockHeight canonical.length)) db.getBtcBlockHeight

theorem commonAncestor_lt {db : BalanceHistoryDB}
    (hoff : ¬ OnChain db (chainHash canonical) canonical.length) :
    commonAncestor db (chainHash canonical) (min db.getBtcBlockHeight canonical.length) <
      db.getBtcBlockHeight := by
  have hle := Nat.findGreatest_le (P := fun k => db.hashAt k = some (chainHash canonical k))
    (min db.getBtcBlockHeight canonical.length)
  change commonAncestor db (chainHash canonical) _ ≤ _ at hle
  by_contra hge
  apply hoff
  refine ⟨by omega, ?_⟩
  by_cases hzero : db.getBtcBlockHeight = 0
  · exact .inl hzero
  · have heq : commonAncestor db (chainHash canonical)
        (min db.getBtcBlockHeight canonical.length) = db.getBtcBlockHeight := by omega
    have hagree := @commonAncestor_agrees (chainHash canonical) db
      (min db.getBtcBlockHeight canonical.length) (by omega)
    rw [heq] at hagree
    exact .inr hagree

/-- The start of a round, without faults: the store goes back to a chain that the node's
chain continues. -/
theorem prepareSync_reaches (hkept : LedgerKept sha256 node origin s.db)
    (hlinks : (s.db.chain node).IsChain Links) (hf : s.faults = [])
    (hidle : s.db.rollbackInProgress ≠ some 1) (hn : Named node canonical)
    (hcanonical : canonical.IsChain Links)
    (ha : answers.Follow (chainHash canonical) s.db.getBtcBlockHeight canonical.length)
    (hundo : UndoCoversFork s.db canonical) :
    ∃ t, prepareSync answers canonical.length s = .ok () t ∧
      t.db.getBtcBlockHeight ≤ canonical.length ∧
      t.db.chain node = canonical.take t.db.getBtcBlockHeight := by
  obtain ⟨deltas, hholds⟩ := hkept.holds
  have hl := hholds.linkedStore hlinks hkept.named
  have hfind := findReorgCommonAncestorHeight_eq hl ha
  have hchain : ∀ (db : BalanceHistoryDB) (top : Nat), top ≤ s.db.getBtcBlockHeight →
      top ≤ canonical.length →
      (top ≠ 0 → s.db.hashAt top = some (chainHash canonical top)) →
      db.getBtcBlockHeight = top → db.chain node = (s.db.chain node).take top →
      db.chain node = canonical.take top := by
    intro db top hheight hlen htop hdb hbefore
    rw [hbefore]
    have hto := hholds.chainTo_eq hkept.named top
    rw [← hto]
    apply chainTo_of_hashes hn hlen
    intro k hpos hk
    exact hl.agree_below (fun k hpos hlt => links_chainHash hcanonical hn hpos (by omega)) hheight
      (htop (by omega)) hpos hk
  have hresume : resumePendingRollbackIfNeeded s = .ok false s :=
    bind_ok (resumeRollbackIfNeeded_idle hidle)
  by_cases hon : OnChain s.db (chainHash canonical) canonical.length
  · rw [if_pos hon] at hfind
    have hreconcile : reconcileReorgIfNeeded answers s.db.getBtcBlockHeight canonical.length s =
        .ok s.db.getBtcBlockHeight s := by
      unfold reconcileReorgIfNeeded
      rw [readDb_bind, id_eq, liftExcept_ok_bind hfind]
      rfl
    have hrun : prepareSync answers canonical.length s = .ok () s := by
      unfold prepareSync
      rw [bind_ok hresume, readDb_bind, bind_ok hreconcile]
      rfl
    refine ⟨s, hrun, hon.1, ?_⟩
    apply hchain s.db _ (Nat.le_refl _) hon.1 _ rfl
    · rw [hholds.height, List.take_length]
    · intro hne
      exact hon.2.resolve_left hne
  · rw [if_neg hon] at hfind
    have hlt := commonAncestor_lt hon
    have hle : commonAncestor s.db (chainHash canonical)
        (min s.db.getBtcBlockHeight canonical.length) ≤ canonical.length := by
      have hbound := Nat.findGreatest_le (P := fun k => s.db.hashAt k =
        some (chainHash canonical k)) (min s.db.getBtcBlockHeight canonical.length)
      change commonAncestor s.db (chainHash canonical) _ ≤ _ at hbound
      omega
    generalize htarget : commonAncestor s.db (chainHash canonical)
      (min s.db.getBtcBlockHeight canonical.length) = target at hlt hle hfind
    have havailable := hundo hon
    rw [htarget] at havailable
    have hheight : s.db.getBtcBlockHeight = target + (s.db.getBtcBlockHeight - target) := by omega
    rw [hheight] at havailable
    obtain ⟨t, hroll⟩ : ∃ t, rollbackToBlockHeight target s = .ok () t :=
      ⟨_, rollback_of_undoAvailable hf (by omega) hheight havailable⟩
    have hreconcile : reconcileReorgIfNeeded answers s.db.getBtcBlockHeight canonical.length s =
        .ok target { t with utxoCache := fun _ => none, balanceCache := fun _ => none } := by
      unfold reconcileReorgIfNeeded
      rw [readDb_bind, id_eq, liftExcept_ok_bind hfind]
      exact (bind_ok hroll).trans rfl
    have hrun : prepareSync answers canonical.length s =
        .ok () { t with utxoCache := fun _ => none, balanceCache := fun _ => none } := by
      unfold prepareSync
      rw [bind_ok hresume, readDb_bind, bind_ok hreconcile]
      rfl
    have hsteps : RollbackSteps s.db t.db := by
      have hfollows := rollbackToBlockHeight_follows target s
      rw [hroll] at hfollows
      exact hfollows
    obtain ⟨hkept', height, hbefore⟩ := hkept.rollbackSteps hsteps
    have htop := rollbackToBlockHeight_height hroll
    obtain ⟨deltas', hholds'⟩ := hkept'.holds
    have hshort : t.db.chain node = (s.db.chain node).take target := by
      have hpre : t.db.chain node <+: s.db.chain node := by
        rw [hbefore]
        exact List.take_prefix _ _
      rw [← htop, hholds'.height]
      exact List.prefix_iff_eq_take.mp hpre
    refine ⟨_, hrun, ?_, ?_⟩
    · show t.db.getBtcBlockHeight ≤ canonical.length
      omega
    · show t.db.chain node = canonical.take t.db.getBtcBlockHeight
      rw [htop]
      apply hchain t.db target (by omega) hle _ htop hshort
      intro hne
      rw [← htarget] at hne ⊢
      exact commonAncestor_agrees hne

end Round

namespace Service

variable {config : SyncConfig} {sha256 : Sha256} {node : BlockHash → Block}
  {canonical : List Block} {w : Service}

/-- Batches of a round, one after the other, without faults. -/
def runBatches (config : SyncConfig) (w : Service) (batches : List BatchAnswers) : Service :=
  batches.foldl (fun w answers => next config w (.batch answers [])) w

/-- The batches of a round bring the rest of the node's chain. -/
theorem runBatches_reaches {batches : List BatchAnswers} (hv : ValidChain canonical)
    (hn : Named node canonical) (h : Run config (ExtendsChain sha256 node) initial w)
    (hphase : w.phase = .syncing canonical.length)
    (hsha : ∀ answers ∈ batches, answers.env.sha256 = sha256 ∧ answers.blocks ≠ [])
    (hrest : w.state.db.chain node ++ batches.flatMap (·.blocks) = canonical) :
    (runBatches config w batches).phase = .syncing canonical.length ∧
      (runBatches config w batches).state.db.chain node = canonical ∧
      Run config (ExtendsChain sha256 node) initial (runBatches config w batches) := by
  induction batches generalizing w with
  | nil =>
    rw [List.flatMap_nil, List.append_nil] at hrest
    exact ⟨hphase, hrest, h⟩
  | cons answers batches ih =>
    obtain ⟨hfirst, hne⟩ := hsha answers (by simp)
    obtain ⟨hkept, hcaches⟩ := h.ledgerKept
    rw [List.flatMap_cons, ← List.append_assoc] at hrest
    have hc : ExtendsChain sha256 node w (.batch answers []) := by
      refine ⟨hfirst, ?_, ?_⟩
      · intro block hmem
        apply hn
        rw [← hrest]
        exact List.mem_append_left _ (List.mem_append_right _ hmem)
      · rw [← hrest] at hv
        exact hv.left
    obtain ⟨hphase', hchain⟩ := batch_next hkept hcaches hphase hc hne
    have henabled : Enabled w (.batch answers []) := by
      obtain ⟨deltas, hholds⟩ := hkept.holds
      refine ⟨canonical.length, hphase, hne, ?_⟩
      rw [hholds.height, ← hrest, List.length_append, List.length_append]
      exact Nat.le_add_right _ _
    apply ih (h.next (.batch answers []) hc henabled) hphase'
    · intro answers' hmem
      exact hsha answers' (List.mem_cons_of_mem _ hmem)
    · rw [hchain]
      exact hrest

/-- A round without faults follows the node through any reorganisation that the undo
journal covers: its start takes the store back to a chain that the node's chain continues,
and once its batches have brought the rest, the store is the ledger of the node's chain. -/
theorem Run.reaches_node_chain (config : SyncConfig) (sha256 : Sha256) (node : BlockHash → Block)
    (w : Service) (canonical : List Block) (answers : ReorgAnswers)
    (h : Run config (ExtendsChain sha256 node) initial w) (hphase : w.phase = .idle)
    (hidle : w.state.db.rollbackInProgress ≠ some 1)
    (hlinks : (w.state.db.chain node).IsChain Links) (hv : ValidChain canonical)
    (hn : Named node canonical) (hcanonical : canonical.IsChain Links)
    (ha : answers.Follow (chainHash canonical) w.state.db.getBtcBlockHeight canonical.length)
    (hundo : UndoCoversFork w.state.db canonical) :
    (w.next config (.prepare answers canonical.length [])).phase = .syncing canonical.length ∧
      ∀ batches, (∀ answers ∈ batches, answers.env.sha256 = sha256 ∧ answers.blocks ≠ []) →
        batches.flatMap (·.blocks) = canonical.drop
          (w.next config (.prepare answers canonical.length [])).state.db.getBtcBlockHeight →
        (runBatches config (w.next config (.prepare answers canonical.length [])) batches).phase =
            .syncing canonical.length ∧
          LedgerKept sha256 node .genesis (runBatches config
            (w.next config (.prepare answers canonical.length [])) batches).state.db ∧
          (runBatches config (w.next config (.prepare answers canonical.length []))
            batches).state.db.chain node = canonical := by
  obtain ⟨hkept, -⟩ := h.ledgerKept
  obtain ⟨t, hrun, -, hchain⟩ := prepareSync_reaches (s := { w.state with faults := [] })
    hkept hlinks rfl hidle hn hcanonical ha hundo
  have hnext : w.next config (.prepare answers canonical.length []) =
      ⟨{ t with faults := [] }, .syncing canonical.length⟩ := by
    show settle (prepareSync answers canonical.length { w.state with faults := [] })
      (.syncing canonical.length) = _
    rw [hrun]
    rfl
  have hprepared : Run config (ExtendsChain sha256 node) initial
      (w.next config (.prepare answers canonical.length [])) :=
    h.next _ (clearsMarkers_of_no_faults rfl) hphase
  rw [hnext] at hprepared ⊢
  refine ⟨rfl, ?_⟩
  intro batches hsha hrest
  obtain ⟨hphase', hchain', hrun'⟩ := runBatches_reaches hv hn hprepared rfl hsha (by
    rw [hrest]
    show t.db.chain node ++ canonical.drop t.db.getBtcBlockHeight = canonical
    rw [hchain, List.take_append_drop])
  exact ⟨hphase', hrun'.ledgerKept.1, hchain'⟩

end Service

section Reorg

/-- The node has two blocks at height 1. -/
def reorgNode (hash : BlockHash) : Block :=
  if hash = 11 then coinbaseBlock 11 10 11 else coinbaseBlock 21 10 21

/-- The process after its first block, between two rounds. -/
def idleService : Service := firstBlockService.next plainConfig .finish

def reorgAnswers : ReorgAnswers := ⟨some 21, fun _ => some 21⟩

theorem Service.reaches_node_chain_reorg :
    (runBatches plainConfig (idleService.next plainConfig (.prepare reorgAnswers 1 []))
      [⟨plainEnv, [coinbaseBlock 21 10 21], 1⟩]).state.db.chain reorgNode =
        [coinbaseBlock 21 10 21] := by
  have hrun : Service.Run plainConfig (Service.ExtendsChain (fun _ => []) reorgNode) .initial
      idleService :=
    (firstBlockService_ledgerRun rfl).next .finish trivial ⟨1, rfl⟩
  have hnamed : Named reorgNode [coinbaseBlock 21 10 21] := by
    intro block hmem
    rw [List.mem_singleton.mp hmem]
    rfl
  have hfollow : reorgAnswers.Follow (chainHash [coinbaseBlock 21 10 21])
      idleService.state.db.getBtcBlockHeight 1 := by
    constructor
    · intro _
      have hone : idleService.state.db.getBtcBlockHeight = 1 := by decide
      rw [hone]
      rfl
    · intro k hpos hle
      obtain rfl : k = 1 := by omega
      rfl
  have hundo : UndoCoversFork idleService.state.db [coinbaseBlock 21 10 21] := by
    intro _
    exact firstBlockService_undoAvailable
  have hlinks : (idleService.state.db.chain reorgNode).IsChain Links := by
    have hchain : idleService.state.db.chain reorgNode = [coinbaseBlock 11 10 11] := by decide
    rw [hchain]
    exact List.isChain_singleton _
  have hreached := Service.Run.reaches_node_chain plainConfig (fun _ => []) reorgNode idleService
    [coinbaseBlock 21 10 21] reorgAnswers hrun rfl (by decide) hlinks (validChain_coinbase 21 10 21)
    hnamed (List.isChain_singleton _) hfollow hundo
  refine (hreached.2 [⟨plainEnv, [coinbaseBlock 21 10 21], 1⟩] ?_ ?_).2.2
  · intro answers hmem
    rw [List.mem_singleton.mp hmem]
    exact ⟨rfl, by decide⟩
  · decide

end Reorg

end Usdb.Balances
