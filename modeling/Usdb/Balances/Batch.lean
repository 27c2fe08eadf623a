import Mathlib.Data.List.Sort
import Usdb.Balances.Commit
import Usdb.Balances.Db

namespace Usdb.Balances

open Framework BalanceHistoryDB

structure VOutUtxoInfo where
  item : UTXOValue
  blockHeight : Nat
  spend : Bool
deriving DecidableEq, Repr

structure PreloadVIn where
  outpoint : OutPoint
  cacheTxOut : Option UTXOValue
  needFlush : Bool
deriving DecidableEq, Repr

structure PreloadVOut where
  outpoint : OutPoint
  cacheTxOut : UTXOValue
deriving DecidableEq, Repr

structure PreloadTx where
  txid : Txid
  vin : List PreloadVIn
  vout : List PreloadVOut
deriving DecidableEq, Repr

structure PreloadBlock where
  height : Nat
  blockHash : BlockHash
  txdata : List PreloadTx
deriving DecidableEq, Repr

def PreloadBlock.vins (block : PreloadBlock) : List PreloadVIn := block.txdata.flatMap (·.vin)

def PreloadBlock.vouts (block : PreloadBlock) : List PreloadVOut := block.txdata.flatMap (·.vout)

structure BatchBlockData where
  rangeStart : Nat
  rangeEnd : Nat
  blocks : List PreloadBlock
  voutUtxos : Table OutPoint VOutUtxoInfo
  balances : Table USDBScriptHash BalanceHistoryData
  blockBalanceDeltas : List BlockBalanceDelta
  scriptRegistry : List ScriptRegistryEntry

/-- The orders in which the parallel preload visits the blocks of a batch, their inputs and
their scripts. -/
structure Schedule where
  blockOrder : List PreloadBlock → List PreloadBlock
  inputOrder : List OutPoint → List OutPoint
  scriptOrder : List ScriptRegistryEntry → List ScriptRegistryEntry
  blockOrder_perm : ∀ blocks, (blockOrder blocks).Perm blocks
  inputOrder_perm : ∀ inputs, (inputOrder inputs).Perm inputs
  scriptOrder_perm : ∀ entries, (scriptOrder entries).Perm entries

def Schedule.sequential : Schedule where
  blockOrder := id
  inputOrder := id
  scriptOrder := id
  blockOrder_perm := .refl
  inputOrder_perm := .refl
  scriptOrder_perm := .refl

/-- What a batch is processed with: the digest, the node's answer to `get_utxo`, and the
order of the parallel visits. -/
structure BatchEnv where
  sha256 : Sha256
  getUtxo : OutPoint → Option UTXOValue
  schedule : Schedule

section Preload

def preloadVouts (tx : Transaction) : List PreloadVOut :=
  tx.output.zipIdx.filterMap (fun (vout, n) =>
    if vout.scriptPubkey.isOpReturn then none
    else some ⟨⟨tx.txid, n⟩, ⟨vout.value, vout.scriptPubkey.usdbScriptHash⟩⟩)

def preprocessTx (tx : Transaction) : PreloadTx where
  txid := tx.txid
  vin := if tx.isCoinbase then [] else tx.input.map (fun outpoint => ⟨outpoint, none, true⟩)
  vout := preloadVouts tx

def preprocessBlock (blockHeight : Nat) (block : Block) : PreloadBlock where
  height := blockHeight
  blockHash := block.blockHash
  txdata := block.txdata.map preprocessTx

/-- The scripts of the outputs of a block that can be spent. -/
def scriptRegistryEntries (block : Block) : List ScriptRegistryEntry :=
  block.txdata.flatMap (fun tx => tx.output.filterMap (fun vout =>
    if vout.scriptPubkey.isOpReturn then none
    else some ⟨vout.scriptPubkey.usdbScriptHash, vout.scriptPubkey⟩))

/-- The blocks of a range of heights that starts at the given one. -/
def preprocessBlocks : Nat → List Block → List PreloadBlock
  | _, [] => []
  | height, block :: blocks => preprocessBlock height block :: preprocessBlocks (height + 1) blocks

/-- What a block writes to the outputs created in the batch. -/
def voutRows (block : PreloadBlock) : List (OutPoint × VOutUtxoInfo) :=
  block.vouts.map (fun vout => (vout.outpoint, ⟨vout.cacheTxOut, block.height, false⟩))

/-- Note that an output created in the batch is spent in it. -/
def markSpent (voutUtxos : Table OutPoint VOutUtxoInfo) (outpoint : OutPoint) :
    Except BalanceHistoryError (Table OutPoint VOutUtxoInfo) :=
  match voutUtxos[outpoint]? with
  | none => .ok voutUtxos
  | some info =>
    if info.spend then .error .panic
    else .ok (voutUtxos.insert outpoint { info with spend := true })

section Fill

variable (env : BatchEnv) (db : BalanceHistoryDB) (utxoCache : OutPoint → Option UTXOValue)

/-- An output that no block of the batch created: the cache, then the store, then the
node. -/
def fetchUtxo (outpoint : OutPoint) : Except BalanceHistoryError UTXOValue :=
  match (utxoCache outpoint).or ((db.getUtxo outpoint).or (env.getUtxo outpoint)) with
  | some value => .ok value
  | none => .error .io

def preloadVin (voutUtxos : Table OutPoint VOutUtxoInfo) (blockHeight : Nat) (vin : PreloadVIn) :
    Except BalanceHistoryError PreloadVIn :=
  match voutUtxos[vin.outpoint]? with
  | some info => .ok { vin with
      cacheTxOut := some info.item
      needFlush := info.blockHeight < blockHeight }
  | none => do
    let value ← fetchUtxo env db utxoCache vin.outpoint
    return { vin with cacheTxOut := some value }

def preloadUtxos (voutUtxos : Table OutPoint VOutUtxoInfo) (block : PreloadBlock) :
    Except BalanceHistoryError PreloadBlock := do
  let txdata ← block.txdata.mapM (fun tx => do
    let vin ← tx.vin.mapM (preloadVin env db utxoCache voutUtxos block.height)
    return { tx with vin })
  return { block with txdata }

end Fill

/-- `AddressBalanceCache::get`, then the store. -/
def loadBalance (db : BalanceHistoryDB) (balanceCache : USDBScriptHash → Option BalanceHistoryData)
    (targetHeight : Nat) (scriptHash : USDBScriptHash) :
    Except BalanceHistoryError BalanceHistoryData :=
  match balanceCache scriptHash with
  | some cached => if cached.blockHeight ≤ targetHeight then .ok cached else .error .panic
  | none => .ok (db.getBalanceAtBlockHeight scriptHash targetHeight)

/-- The script hashes of the inputs and outputs of a block. -/
def touchedScripts (block : PreloadBlock) : List USDBScriptHash :=
  block.txdata.flatMap (fun tx =>
    tx.vin.filterMap (fun vin => vin.cacheTxOut.map (·.scriptHash)) ++
      tx.vout.map (·.cacheTxOut.scriptHash))

def preloadBalances (db : BalanceHistoryDB)
    (balanceCache : USDBScriptHash → Option BalanceHistoryData) (targetHeight : Nat)
    (blocks : List PreloadBlock) :
    Except BalanceHistoryError (Table USDBScriptHash BalanceHistoryData) := do
  let rows ← (blocks.flatMap touchedScripts).mapM (fun scriptHash => do
    let balance ← loadBalance db balanceCache targetHeight scriptHash
    return (scriptHash, balance))
  return (∅ : Table USDBScriptHash BalanceHistoryData).insertMany rows

/-- Balances are loaded at the height before the range. -/
def startBalances (s : HistoryState) (start : Nat) (blocks : List PreloadBlock) :
    Except BalanceHistoryError (Table USDBScriptHash BalanceHistoryData) :=
  if start > 0 then preloadBalances s.db s.balanceCache (start - 1) blocks else .ok ∅

def preload (env : BatchEnv) (s : HistoryState) (start : Nat) (blocks : List Block) :
    Except BalanceHistoryError BatchBlockData := do
  if blocks = [] then
    throw .panic
  let preprocessed := preprocessBlocks start blocks
  let created := (∅ : Table OutPoint VOutUtxoInfo).insertMany
    ((env.schedule.blockOrder preprocessed).flatMap voutRows)
  let voutUtxos ← (env.schedule.inputOrder
    (preprocessed.flatMap (fun block => block.vins.map (·.outpoint)))).foldlM markSpent created
  let filled ← preprocessed.mapM (preloadUtxos env s.db s.utxoCache created)
  let balances ← startBalances s start filled
  return {
    rangeStart := start
    rangeEnd := start + blocks.length
    blocks := filled
    voutUtxos
    balances
    blockBalanceDeltas := []
    scriptRegistry := env.schedule.scriptOrder (blocks.flatMap scriptRegistryEntries) }

end Preload

section Process

/-- `u64 as i64`. -/
def asI64 (n : Nat) : Int := Int.bmod n (2 ^ 64)

theorem asI64_of_lt {n : Nat} (h : n < 2 ^ 63) : asI64 n = n := by
  unfold asI64
  exact Int.bmod_eq_of_le_mul_two (by omega) (by omega)

/-- Signed 64-bit arithmetic that panics when it overflows. -/
def checkI64 (x : Int) : Except BalanceHistoryError Int :=
  if -(2 ^ 63) ≤ x ∧ x < 2 ^ 63 then .ok x else .error .panic

/-- Add to the delta of a script hash in a block. -/
def addDelta (history : Table USDBScriptHash Int) (scriptHash : USDBScriptHash) (change : Int) :
    Except BalanceHistoryError (Table USDBScriptHash Int) := do
  let delta ← checkI64 ((history[scriptHash]?).getD 0 + change)
  return history.insert scriptHash delta

def subtractVin (history : Table USDBScriptHash Int) (vin : PreloadVIn) :
    Except BalanceHistoryError (Table USDBScriptHash Int) :=
  match vin.cacheTxOut with
  | none => .error .panic
  | some vout => addDelta history vout.scriptHash (-asI64 vout.value)

def addVout (history : Table USDBScriptHash Int) (vout : PreloadVOut) :
    Except BalanceHistoryError (Table USDBScriptHash Int) :=
  addDelta history vout.cacheTxOut.scriptHash (asI64 vout.cacheTxOut.value)

/-- The net change of each script hash in a block. -/
def blockHistory (block : PreloadBlock) : Except BalanceHistoryError (Table USDBScriptHash Int) :=
  block.txdata.foldlM (fun history tx => do
    let history ← tx.vin.foldlM subtractVin history
    tx.vout.foldlM addVout history) ∅

/-- The entry of a script hash, when its balance does not become negative. -/
def settleEntry (height : Nat) (balances : Table USDBScriptHash BalanceHistoryData)
    (change : USDBScriptHash × Int) : Except BalanceHistoryError BalanceHistoryEntry :=
  match balances[change.1]? with
  | none => .error (.balanceNotFound change.1 height)
  | some current => do
    let balance ← checkI64 (asI64 current.balance + change.2)
    if balance < 0 then .error .panic
    else .ok ⟨change.1, height, change.2, balance.toNat⟩

/-- One block: the entries of its script hashes in order, and the balances after it. -/
def processBlock (balances : Table USDBScriptHash BalanceHistoryData) (block : PreloadBlock) :
    Except BalanceHistoryError (BlockBalanceDelta × Table USDBScriptHash BalanceHistoryData) := do
  let history ← blockHistory block
  let entries ← history.toList.mapM (settleEntry block.height balances)
  return (⟨block.height, block.blockHash, entries⟩, balances.insertMany (entries.map (fun entry =>
    (entry.scriptHash, ⟨entry.blockHeight, entry.delta, entry.balance⟩))))

def processBlocksOf : List PreloadBlock → Table USDBScriptHash BalanceHistoryData →
    Except BalanceHistoryError
      (List BlockBalanceDelta × Table USDBScriptHash BalanceHistoryData)
  | [], balances => .ok ([], balances)
  | block :: blocks, balances => do
    let (delta, balances) ← processBlock balances block
    let (deltas, balances) ← processBlocksOf blocks balances
    return (delta :: deltas, balances)

/-- `BatchBlockBalanceProcessor::process`. -/
def process (data : BatchBlockData) : Except BalanceHistoryError BatchBlockData := do
  let (blockBalanceDeltas, balances) ← processBlocksOf data.blocks data.balances
  return { data with balances, blockBalanceDeltas }

end Process

section Flush

def shouldPersistUndoForBlock (blockHeight latestBtcHeight undoRetentionBlocks : Nat) : Bool :=
  if undoRetentionBlocks = 0 ∨ blockHeight > latestBtcHeight then false
  else blockHeight ≥ latestBtcHeight - (undoRetentionBlocks - 1)

def shouldPersistAnyUndoForRange (start stop latestBtcHeight undoRetentionBlocks : Nat) : Bool :=
  if stop ≤ start ∨ undoRetentionBlocks = 0 then false
  else start ≤ latestBtcHeight ∧ stop - 1 ≥ latestBtcHeight - (undoRetentionBlocks - 1)

/-- The distinct members of a list in order. -/
def sortedDistinct (scriptHashes : List USDBScriptHash) : List USDBScriptHash :=
  ((∅ : Table USDBScriptHash Unit).insertMany (scriptHashes.map (fun s => (s, ())))).toList.map
    (·.1)

def undoUtxoEntry (outpoint : OutPoint) (utxo : UTXOValue) : BlockUndoUtxoEntry :=
  ⟨outpoint, utxo.scriptHash, utxo.value⟩

/-- The bundle that undoes a block: all outputs it created, the spent outputs that
existed before it, and the script hashes of both and of its balance entries. -/
def undoBundle (block : PreloadBlock) (entries : List BalanceHistoryEntry) : BlockUndoBundle where
  blockHeight := block.height
  btcBlockHash := block.blockHash
  createdUtxos := block.vouts.map (fun vout => undoUtxoEntry vout.outpoint vout.cacheTxOut)
  spentUtxos := block.vins.filterMap (fun vin =>
    if vin.needFlush then vin.cacheTxOut.map (undoUtxoEntry vin.outpoint) else none)
  touchedScriptHashes := sortedDistinct (block.vouts.map (·.cacheTxOut.scriptHash) ++
    block.vins.filterMap (fun vin =>
      if vin.needFlush then vin.cacheTxOut.map (·.scriptHash) else none) ++
    entries.map (·.scriptHash))

def collectUndoBundles (data : BatchBlockData) (latestBtcHeight undoRetentionBlocks : Nat) :
    List BlockUndoBundle :=
  if shouldPersistAnyUndoForRange data.rangeStart data.rangeEnd latestBtcHeight
      undoRetentionBlocks then
    (data.blocks.zip data.blockBalanceDeltas).filterMap (fun (block, delta) =>
      if shouldPersistUndoForBlock block.height latestBtcHeight undoRetentionBlocks then
        some (undoBundle block delta.entries)
      else none)
  else []

def collectNewUtxos (data : BatchBlockData) : List (OutPoint × UTXOValue) :=
  (data.voutUtxos.toList.filter (fun row => !row.2.spend)).map (fun row => (row.1, row.2.item))

def collectSpentUtxos (data : BatchBlockData) : List OutPoint :=
  (data.blocks.flatMap (fun block =>
    (block.vins.filter (·.needFlush)).map (·.outpoint))).insertionSort
      (fun a b => (compare a b).isLE)

/-- The order of the rows in the batch: by script hash, then by height. -/
def entryLE (a b : BalanceHistoryEntry) : Prop :=
  (compare (BalanceKey.mk a.scriptHash a.blockHeight) ⟨b.scriptHash, b.blockHeight⟩).isLE

instance (a b : BalanceHistoryEntry) : Decidable (entryLE a b) :=
  inferInstanceAs (Decidable (_ = true))

/-- A step of the loop over the sorted scripts: a script that was just pushed is skipped, and
another one under its hash is an error. -/
def pushScriptEntry (deduped : List ScriptRegistryEntry) (entry : ScriptRegistryEntry) :
    Except BalanceHistoryError (List ScriptRegistryEntry) :=
  match deduped.getLast? with
  | none => .ok [entry]
  | some last =>
    if last.scriptHash = entry.scriptHash then
      if last.scriptPubkey ≠ entry.scriptPubkey then
        .error (.conflictingScriptRegistry entry.scriptHash)
      else .ok deduped
    else .ok (deduped ++ [entry])

def collectScriptRegistryUpdates (data : BatchBlockData) :
    Except BalanceHistoryError (List ScriptRegistryEntry) :=
  (data.scriptRegistry.insertionSort (fun a b => a.scriptHash ≤ b.scriptHash)).foldlM
    pushScriptEntry []

/-- What `flush` writes. -/
def collectUpdates (env : BatchEnv) (db : BalanceHistoryDB) (data : BatchBlockData)
    (latestBtcHeight undoRetentionBlocks : Nat) :
    Except BalanceHistoryError BlockStateUpdateBatch := do
  let previousHeight := if data.rangeStart = 0 then none else some (data.rangeStart - 1)
  let previousCommit ← resolvePreviousCommit previousHeight
    (previousHeight.bind db.getBlockCommit)
  let scriptRegistryEntries ← collectScriptRegistryUpdates data
  return {
    newUtxos := collectNewUtxos data
    removeUtxos := collectSpentUtxos data
    entriesList := (data.blockBalanceDeltas.flatMap (·.entries)).insertionSort entryLE
    blockHeight := data.rangeEnd - 1
    blockCommits := buildBlockCommits env.sha256 data.blockBalanceDeltas previousCommit
    scriptRegistryEntries
    undoBundles := collectUndoBundles data latestBtcHeight undoRetentionBlocks }

def cacheUtxos (newUtxos : List (OutPoint × UTXOValue)) (spentUtxos : List OutPoint)
    (utxoCache : OutPoint → Option UTXOValue) : OutPoint → Option UTXOValue :=
  spentUtxos.foldl (fun cache outpoint => Function.update cache outpoint none)
    (newUtxos.foldl (fun cache row => Function.update cache row.1 (some row.2)) utxoCache)

/-- `AddressBalanceCache::put` keeps no entry for a zero balance. -/
def cacheBalances (balances : List (USDBScriptHash × BalanceHistoryData))
    (balanceCache : USDBScriptHash → Option BalanceHistoryData) :
    USDBScriptHash → Option BalanceHistoryData :=
  balances.foldl (fun cache row =>
    Function.update cache row.1 (if row.2.balance = 0 then none else some row.2)) balanceCache

def applyCacheUpdates (data : BatchBlockData) (update : BlockStateUpdateBatch) : HistoryM Unit :=
  modify (fun s => { s with
    utxoCache := cacheUtxos update.newUtxos update.removeUtxos s.utxoCache
    balanceCache := cacheBalances data.balances.toList s.balanceCache })

def flush (env : BatchEnv) (data : BatchBlockData) (latestBtcHeight undoRetentionBlocks : Nat) :
    HistoryM Unit := do
  let update ← liftExcept (collectUpdates env (← readDb id) data latestBtcHeight
    undoRetentionBlocks)
  updateBlockStateBatch update
  applyCacheUpdates data update

end Flush

/-- `BatchBlockProcessor::process_blocks` for the blocks of a range. -/
def processBlocks (env : BatchEnv) (start : Nat) (blocks : List Block)
    (latestBtcHeight undoRetentionBlocks : Nat) : HistoryM Unit := do
  let data ← liftExcept (preload env (← get) start blocks)
  let data ← liftExcept (process data)
  flush env data latestBtcHeight undoRetentionBlocks

end Usdb.Balances
