import Usdb.Balances.Types

namespace Usdb.Balances

open Framework

/-- The column families of the address database. -/
structure AddressDB where
  addresses : Table USDBScriptHash ScriptBuf
  files : Table Nat Unit
  allFileIndexed : Bool
  indexedBlockHeight : Option Nat

namespace AddressDB

def empty : AddressDB where
  addresses := ∅
  files := ∅
  allFileIndexed := false
  indexedBlockHeight := none

def putAddresses (db : AddressDB) (list : List (USDBScriptHash × ScriptBuf)) : AddressDB :=
  { db with addresses := db.addresses.insertMany list }

def getAddress (db : AddressDB) (scriptHash : USDBScriptHash) : Option ScriptBuf :=
  db.addresses[scriptHash]?

def setFileIndexed (db : AddressDB) (fileIndex : Nat) : AddressDB :=
  { db with files := db.files.insert fileIndex () }

def isFileIndexed (db : AddressDB) (fileIndex : Nat) : Bool := db.files[fileIndex]?.isSome

end AddressDB

/-- The hashes of the blocks read from blk files, and those that follow each hash. -/
structure BlockRecordCache where
  blockHashes : List BlockHash
  followers : Table BlockHash (List BlockHash)

namespace BlockRecordCache

def empty : BlockRecordCache := ⟨[], ∅⟩

def followersOf (cache : BlockRecordCache) (prevHash : BlockHash) : List BlockHash :=
  cache.followers[prevHash]?.getD []

/-- The entry is added also when the block was read before, which is an error. -/
def addNewBlockEntry (cache : BlockRecordCache) (block : Block) : BlockRecordCache where
  blockHashes := block.blockHash :: cache.blockHashes
  followers := cache.followers.insert block.prevBlockhash
    (cache.followersOf block.prevBlockhash ++ [block.blockHash])

/-- The block of the main chain among those that follow a hash; only a choice is asked of
the node. -/
def mainFollower (chain : Nat → Block) (height : Nat) : List BlockHash → Option BlockHash
  | [] => none
  | [blockHash] => some blockHash
  | blockHashes =>
    if (chain height).blockHash ∈ blockHashes then some (chain height).blockHash else none

/-- The loop of `generate_sort_blocks`. There is no result when it fails, or when it visits
more blocks than were read and so never ends. -/
def sortLoop (cache : BlockRecordCache) (chain : Nat → Block) :
    Nat → BlockHash → Nat → Option (List (Nat × BlockHash))
  | 0, _, _ => none
  | fuel + 1, prevHash, height =>
    match cache.followers[prevHash]? with
    | none => some []
    | some blockHashes => do
      let blockHash ← mainFollower chain height blockHashes
      if blockHash ∈ cache.blockHashes then
        let blocks ← cache.sortLoop chain fuel blockHash (height + 1)
        return (height, blockHash) :: blocks
      else none

def generateSortBlocks (cache : BlockRecordCache) (chain : Nat → Block) :
    Option (List (Nat × BlockHash)) :=
  cache.sortLoop chain (cache.blockHashes.length + 1) 0 0

def latestBlockHeight (sortedBlocks : List (Nat × BlockHash)) : Nat :=
  (sortedBlocks.getLast?.map (·.1)).getD 0

end BlockRecordCache

/-- What the indexer runs on: the blk files, the main chain of the node, the answers of a
Bloom filter after some insertions, and whether arithmetic is checked. -/
structure AddressEnv where
  blkFile : Nat → List Block
  chain : Nat → Block
  mayContain : List USDBScriptHash → USDBScriptHash → Bool
  overflowChecks : Bool
  genesis_prev : (chain 0).prevBlockhash = 0
  chain_prev : ∀ height, (chain (height + 1)).prevBlockhash = (chain height).blockHash
  hash_injective : ∀ fileIndex, ∀ block ∈ blkFile fileIndex, ∀ height,
    block.blockHash = (chain height).blockHash → block = chain height

/-- The output scripts of a block, in their order. -/
def outputScripts (block : Block) : List ScriptBuf :=
  block.txdata.flatMap (fun tx => tx.output.map (·.scriptPubkey))

abbrev AddressRecords := List (USDBScriptHash × ScriptBuf)

/-- The body of the loops over the outputs: the check and the insertion are one step. -/
def scanOutput (mayContain : List USDBScriptHash → USDBScriptHash → Bool) (script : ScriptBuf)
    (filter : List USDBScriptHash) (records : AddressRecords) :
    List USDBScriptHash × AddressRecords :=
  if script.isOpReturn then (filter, records)
  else if mayContain filter script.usdbScriptHash then (filter, records)
  else (script.usdbScriptHash :: filter, records ++ [(script.usdbScriptHash, script)])

/-- What the workers of an indexer share. -/
structure IndexShared where
  db : AddressDB
  filter : List USDBScriptHash
  cache : BlockRecordCache

def IndexShared.putRecords (shared : IndexShared) (records : AddressRecords) : IndexShared :=
  if records.isEmpty then shared else { shared with db := shared.db.putAddresses records }

/-- Where the work on one blk file stands. While a file is scanned there are the records
(`none` for a file that was indexed before), the outputs of the current block and the blocks
still to read. -/
inductive FileWorker
  | waiting
  | scanning (records : Option AddressRecords) (outputs : List ScriptBuf) (blocks : List Block)
  | written
  | done
  | failed

inductive FileEvent
  | begin
  | readBlock
  | scanOutput
  | putRecords
  | mark
  | fail

def fileStep (env : AddressEnv) (fileIndex : Nat) (shared : IndexShared) :
    FileEvent → FileWorker → Option (IndexShared × FileWorker)
  | .begin, .waiting =>
    some (shared, .scanning (if shared.db.isFileIndexed fileIndex then none else some []) []
      (env.blkFile fileIndex))
  | .readBlock, .scanning records [] (block :: blocks) =>
    let shared' := { shared with cache := shared.cache.addNewBlockEntry block }
    if block.blockHash ∈ shared.cache.blockHashes then some (shared', .failed)
    else some (shared',
      .scanning records (if records.isSome then outputScripts block else []) blocks)
  | .scanOutput, .scanning (some records) (script :: outputs) blocks =>
    let (filter, records) := Balances.scanOutput env.mayContain script shared.filter records
    some ({ shared with filter }, .scanning (some records) outputs blocks)
  | .putRecords, .scanning (some records) [] [] => some (shared.putRecords records, .written)
  | .putRecords, .scanning none [] [] => some (shared, .written)
  | .mark, .written =>
    some ({ shared with db := shared.db.setFileIndexed fileIndex }, .done)
  | .fail, .done => none
  | .fail, _ => some (shared, .failed)
  | _, _ => none

/-- Where `build_index` stands. -/
inductive IndexPhase
  | idle
  | files (total : Nat) (workers : Nat → FileWorker)
  | sorted
  | rpc
  | rpcBlock (height latest : Nat) (outputs : List ScriptBuf) (records : AddressRecords)
  | rpcWritten (height latest : Nat)
  | ok
  | panicked

structure IndexState where
  latestBlkFile : Nat
  shared : IndexShared
  phase : IndexPhase

/-- What can happen. A call that fails ends the process as a crash does: the next one is a
new process, and only the database is left. -/
inductive IndexEvent
  | newBlkFile
  | restart
  | begin
  | file (fileIndex : Nat) (event : FileEvent)
  | sort
  | markAll
  | rpcBegin (latest : Nat)
  | rpcOutput
  | rpcPut
  | rpcHeight

def FileWorker.isDone : FileWorker → Bool
  | .done => true
  | _ => false

/-- The next block to read from the node, or the end. -/
def rpcNext (env : AddressEnv) (current latest : Nat) : IndexPhase :=
  if latest ≤ current then .ok
  else .rpcBlock (current + 1) latest (outputScripts (env.chain (current + 1))) []

namespace IndexState

/-- A process that has just started. -/
def opened (latestBlkFile : Nat) (db : AddressDB) : IndexState where
  latestBlkFile
  shared := ⟨db, [], .empty⟩
  phase := .idle

def step (env : AddressEnv) (s : IndexState) : IndexEvent → Option IndexState
  | .newBlkFile => some { s with latestBlkFile := s.latestBlkFile + 1 }
  | .restart => some (opened s.latestBlkFile s.shared.db)
  | .begin =>
    match s.phase with
    | .idle =>
      if s.shared.db.allFileIndexed then some { s with phase := .rpc }
      -- the message of `on_index_begin` subtracts one from the number of complete files
      else if s.latestBlkFile = 0 ∧ env.overflowChecks then some { s with phase := .panicked }
      else some { s with
        shared := { s.shared with filter := [], cache := .empty }
        phase := .files s.latestBlkFile (fun _ => .waiting) }
    | _ => none
  | .file fileIndex event =>
    match s.phase with
    | .files total workers =>
      if fileIndex < total then do
        let (shared, worker) ← fileStep env fileIndex s.shared event (workers fileIndex)
        return { s with
          shared
          phase := .files total (Function.update workers fileIndex worker) }
      else none
    | _ => none
  | .sort =>
    match s.phase with
    | .files total workers =>
      if (List.range total).all (fun i => (workers i).isDone) then do
        let sortedBlocks ← s.shared.cache.generateSortBlocks env.chain
        return { s with
          shared := { s.shared with db := { s.shared.db with
            indexedBlockHeight := some (BlockRecordCache.latestBlockHeight sortedBlocks) } }
          phase := .sorted }
      else none
    | _ => none
  | .markAll =>
    match s.phase with
    | .sorted => some { s with
        shared := { s.shared with db := { s.shared.db with allFileIndexed := true } }
        phase := .rpc }
    | _ => none
  | .rpcBegin latest =>
    match s.phase, s.shared.db.indexedBlockHeight with
    | .rpc, some current => some { s with phase := rpcNext env current latest }
    | _, _ => none
  | .rpcOutput =>
    match s.phase with
    | .rpcBlock height latest (script :: outputs) records =>
      let (filter, records) := scanOutput env.mayContain script s.shared.filter records
      some { s with
        shared := { s.shared with filter }
        phase := .rpcBlock height latest outputs records }
    | _ => none
  | .rpcPut =>
    match s.phase with
    | .rpcBlock height latest [] records =>
      some { s with shared := s.shared.putRecords records, phase := .rpcWritten height latest }
    | _ => none
  | .rpcHeight =>
    match s.phase with
    | .rpcWritten height latest => some { s with
        shared := { s.shared with db := { s.shared.db with indexedBlockHeight := some height } }
        phase := rpcNext env height latest }
    | _ => none

def run (env : AddressEnv) : IndexState → List IndexEvent → Option IndexState
  | s, [] => some s
  | s, event :: events => (s.step env event).bind (fun s' => s'.run env events)

end IndexState

end Usdb.Balances
