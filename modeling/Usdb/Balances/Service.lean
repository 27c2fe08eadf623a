import Usdb.Balances.Batch
import Usdb.Balances.Reorg
import Usdb.Framework.Machine

namespace Usdb.Balances

open Framework BalanceHistoryDB

structure SyncConfig where
  undoRetentionBlocks : Nat
  undoCleanupIntervalBlocks : Nat

/-- `prune_undo_journal_if_needed`; the node is asked for its height again. -/
def pruneUndoJournalIfNeeded (config : SyncConfig) (latestBtcHeight batchStartHeight lastHeight : Nat) :
    HistoryM Unit := do
  if config.undoRetentionBlocks = 0 ∨ config.undoCleanupIntervalBlocks = 0 then
    return ()
  else if lastHeight / config.undoCleanupIntervalBlocks =
      (batchStartHeight - 1) / config.undoCleanupIntervalBlocks then
    return ()
  else if lastHeight < latestBtcHeight - (config.undoRetentionBlocks - 1) then
    return ()
  else
    let _ ← pruneUndoBeforeHeight (lastHeight - (config.undoRetentionBlocks - 1))

/-- What the node answers during a batch, and the height it reports before pruning. -/
structure BatchAnswers where
  env : BatchEnv
  blocks : List Block
  latestAtPrune : Nat

/-- `process_block_batch` for the blocks after the height of the store. -/
def processBlockBatch (config : SyncConfig) (answers : BatchAnswers) (latestBtcHeight : Nat) :
    HistoryM Unit := do
  let start := (← readDb getBtcBlockHeight) + 1
  processBlocks answers.env start answers.blocks latestBtcHeight config.undoRetentionBlocks
  pruneUndoJournalIfNeeded config answers.latestAtPrune start (start + answers.blocks.length - 1)

/-- The first part of `sync_once`: a pending rollback is resumed, then the local chain is
compared with the node's. -/
def prepareSync (answers : ReorgAnswers) (latestBtcHeight : Nat) : HistoryM Unit := do
  let _ ← resumePendingRollbackIfNeeded
  let lastSyncedHeight ← readDb getBtcBlockHeight
  let _ ← reconcileReorgIfNeeded answers lastSyncedHeight latestBtcHeight

/-- `shrink` of a cache: the entries that were used last are kept. No cache has room for no
entry; the panic leaves the lock of the cache poisoned. -/
def shrink {α β : Type} [DecidableEq α] (cache : α → Option β) (lastUsed : List α)
    (targetCount : Nat) : Except BalanceHistoryError (α → Option β) :=
  if targetCount = 0 then
    .error .panic
  else
    .ok (fun key => if key ∈ lastUsed.take targetCount then cache key else none)

/-- `shrink_caches` of the memory monitor: one entry of a hundred has to go. -/
def shrinkCaches (lastUtxos : List OutPoint) (lastBalances : List USDBScriptHash) :
    HistoryM Unit := do
  let utxoCache ← liftExcept (shrink (← get).utxoCache lastUtxos (lastUtxos.length * 99 / 100))
  modify (fun s => { s with utxoCache })
  let balanceCache ← liftExcept
    (shrink (← get).balanceCache lastBalances (lastBalances.length * 99 / 100))
  modify (fun s => { s with balanceCache })

/-- The keys of a cache, the one used last first. -/
def Lists {α β : Type} (cache : α → Option β) (lastUsed : List α) : Prop :=
  lastUsed.Nodup ∧ ∀ key, key ∈ lastUsed ↔ (cache key).isSome

/-- Where the service stands: between two rounds of `sync_once`, in a round with a target
height, or ended by a panic or a crash. -/
inductive Phase
  | idle
  | syncing (latestBtcHeight : Nat)
  | crashed
deriving DecidableEq, Repr

structure Service where
  state : HistoryState
  phase : Phase

/-- One thing that can happen in a run, with what the calls and writes on the way
report. The process dies with the first use of a poisoned lock, which is its next step. -/
inductive Label
  | prepare (answers : ReorgAnswers) (latestBtcHeight : Nat) (faults : List IoResult)
  | batch (answers : BatchAnswers) (faults : List IoResult)
  | finish
  | evict (keepUtxo : OutPoint → Bool) (keepBalance : USDBScriptHash → Bool)
  | shrink (lastUtxos : List OutPoint) (lastBalances : List USDBScriptHash)
  | restart

namespace Service

def opened (db : BalanceHistoryDB) : Service := ⟨.opened db, .idle⟩

def initial : Service := opened .empty

def settle (result : EStateM.Result BalanceHistoryError HistoryState Unit) (next : Phase) :
    Service :=
  match result with
  | .ok _ s => ⟨{ s with faults := [] }, next⟩
  | .error .panic s => ⟨{ s with faults := [] }, .crashed⟩
  | .error _ s => ⟨{ s with faults := [] }, .idle⟩

/-- The things that can happen next. A batch fetches blocks up to the target height. -/
def Enabled (w : Service) : Label → Prop
  | .prepare _ _ _ => w.phase = .idle
  | .batch answers _ => ∃ latestBtcHeight, w.phase = .syncing latestBtcHeight ∧
      answers.blocks ≠ [] ∧
      w.state.db.getBtcBlockHeight + answers.blocks.length ≤ latestBtcHeight
  | .finish => ∃ latestBtcHeight, w.phase = .syncing latestBtcHeight
  | .evict _ _ => True
  | .shrink lastUtxos lastBalances => w.phase ≠ .crashed ∧
      Lists w.state.utxoCache lastUtxos ∧ Lists w.state.balanceCache lastBalances
  | .restart => True

/-- What the program does next. -/
def next (config : SyncConfig) (w : Service) : Label → Service
  | .prepare answers latestBtcHeight faults =>
    settle (prepareSync answers latestBtcHeight { w.state with faults }) (.syncing latestBtcHeight)
  | .batch answers faults =>
    match w.phase with
    | .syncing latestBtcHeight =>
      settle (processBlockBatch config answers latestBtcHeight { w.state with faults })
        (.syncing latestBtcHeight)
    | _ => w
  | .finish => { w with phase := .idle }
  | .evict keepUtxo keepBalance => { w with state := { w.state with
      utxoCache := fun o => if keepUtxo o then w.state.utxoCache o else none
      balanceCache := fun s => if keepBalance s then w.state.balanceCache s else none } }
  | .shrink lastUtxos lastBalances => settle (shrinkCaches lastUtxos lastBalances w.state) w.phase
  | .restart => opened w.state.db

def Step (config : SyncConfig) (w : Service) (l : Label) (w' : Service) : Prop :=
  Enabled w l ∧ w' = next config w l

/-- A run whose every step meets a condition on the state before it and the label. -/
abbrev Run (config : SyncConfig) (cond : Service → Label → Prop) : Service → Service → Prop :=
  Machine.Run (Step config) cond

theorem Run.next {config : SyncConfig} {cond : Service → Label → Prop} {w₀ w : Service}
    (h : Run config cond w₀ w) (l : Label) (hc : cond w l) (he : Enabled w l) :
    Run config cond w₀ (w.next config l) :=
  .step h hc ⟨he, rfl⟩

/-- The start of a round on an empty store, with no reorganisation to look for. -/
def firstPrepare (latestBtcHeight : Nat) : Label :=
  .prepare ⟨none, fun _ => none⟩ latestBtcHeight []

/-- An empty store after one batch. -/
def firstBatch (config : SyncConfig) (answers : BatchAnswers) (latestBtcHeight : Nat) : Service :=
  next config (next config initial (firstPrepare latestBtcHeight)) (.batch answers [])

theorem run_firstBatch {config : SyncConfig} {cond : Service → Label → Prop}
    {answers : BatchAnswers} {latestBtcHeight : Nat} (hne : answers.blocks ≠ [])
    (hle : answers.blocks.length ≤ latestBtcHeight)
    (hp : cond initial (firstPrepare latestBtcHeight))
    (hb : cond (next config initial (firstPrepare latestBtcHeight)) (.batch answers [])) :
    Run config cond initial (firstBatch config answers latestBtcHeight) := by
  refine .step (.step (.refl _) hp ⟨rfl, rfl⟩) hb ⟨⟨latestBtcHeight, rfl, hne, ?_⟩, rfl⟩
  show 0 + answers.blocks.length ≤ latestBtcHeight
  omega

end Service

section Sample

/-- A block with one coinbase. -/
def coinbaseBlock (hash parent : BlockHash) (txid : Txid) : Block :=
  ⟨hash, parent, [⟨txid, true, [], [⟨50, ⟨7, false⟩⟩]⟩]⟩

def plainEnv : BatchEnv := ⟨fun _ => [], fun _ => none, .sequential⟩

def plainConfig : SyncConfig := ⟨10, 10⟩

def firstBlockAnswers : BatchAnswers := ⟨plainEnv, [coinbaseBlock 11 10 11], 1⟩

/-- A process after its first block. -/
def firstBlockService : Service := .firstBatch plainConfig firstBlockAnswers 1

end Sample

end Usdb.Balances
