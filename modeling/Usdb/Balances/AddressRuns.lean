import Mathlib.Algebra.Group.Fin.Basic
import Usdb.Framework.Traverse
import Usdb.Balances.AddressIndex

namespace Usdb.Balances

open Framework

variable {env : AddressEnv} {shared shared' : IndexShared} {db : AddressDB}
  {script script' : ScriptBuf} {records : AddressRecords} {filter : List USDBScriptHash}

section Addresses

/-- The database answers with a script for its hash. -/
def AddressDB.Has (db : AddressDB) (script : ScriptBuf) : Prop :=
  db.getAddress script.usdbScriptHash = some script

/-- Records are of their scripts' hashes, and of no `OP_RETURN`. -/
def WellFormed (records : AddressRecords) : Prop :=
  ∀ record ∈ records, record.1 = record.2.usdbScriptHash ∧ record.2.isOpReturn = false

theorem script_eq (h : script.isOpReturn = false) (h' : script'.isOpReturn = false)
    (hhash : script.usdbScriptHash = script'.usdbScriptHash) : script = script' := by
  obtain ⟨hash, opReturn⟩ := script
  obtain ⟨hash', opReturn'⟩ := script'
  dsimp only at h h' hhash
  rw [h, h', hhash]

theorem AddressDB.has_putAddresses (hrecords : WellFormed records)
    (hscript : script.isOpReturn = false)
    (h : db.Has script ∨ (script.usdbScriptHash, script) ∈ records) :
    (db.putAddresses records).Has script := by
  unfold AddressDB.Has AddressDB.getAddress AddressDB.putAddresses
  rcases Table.getElem?_insertMany_cases db.addresses records script.usdbScriptHash with
    ⟨found, hmem, hget⟩ | ⟨hnot, hget⟩
  · obtain ⟨hhash, hfound⟩ := hrecords _ hmem
    dsimp only at hhash hfound
    rw [hget, script_eq hfound hscript hhash.symm]
  · rcases h with h | h
    · exact hget.trans h
    · exact absurd (List.mem_map_of_mem (f := (·.1)) h) hnot

theorem IndexShared.has_putRecords (hrecords : WellFormed records)
    (hscript : script.isOpReturn = false)
    (h : shared.db.Has script ∨ (script.usdbScriptHash, script) ∈ records) :
    (shared.putRecords records).db.Has script := by
  unfold IndexShared.putRecords
  cases records with
  | nil =>
    rcases h with h | h
    · exact h
    · cases h
  | cons record records => exact AddressDB.has_putAddresses hrecords hscript h

theorem AddressDB.isFileIndexed_set (db : AddressDB) (fileIndex i : Nat) :
    (db.setFileIndexed fileIndex).isFileIndexed i = (fileIndex = i || db.isFileIndexed i) := by
  unfold AddressDB.isFileIndexed AddressDB.setFileIndexed
  dsimp only
  rw [Table.getElem?_put]
  by_cases h : fileIndex = i
  · simp [h]
  · simp [h]

end Addresses

section Walk

variable {cache : BlockRecordCache} {total : Nat} {block : Block}

def InFiles (env : AddressEnv) (total : Nat) (block : Block) : Prop :=
  ∃ i < total, block ∈ env.blkFile i

/-- A blk file has a first block. A block of the files that alone follows the last block of
the main chain in them is of the main chain. -/
structure FilesFollowChain (env : AddressEnv) (total : Nat) : Prop where
  start : ∃ block, InFiles env total block ∧ block.prevBlockhash = 0
  lone : ∀ height block, (∀ j < height, InFiles env total (env.chain j)) →
    InFiles env total block → block.prevBlockhash = (env.chain height).prevBlockhash →
    (∀ block', InFiles env total block' →
      block'.prevBlockhash = (env.chain height).prevBlockhash →
      block'.blockHash = block.blockHash) → block = env.chain height

theorem BlockRecordCache.mem_followersOf_add {prevHash blockHash : BlockHash} :
    blockHash ∈ (cache.addNewBlockEntry block).followersOf prevHash ↔
      blockHash ∈ cache.followersOf prevHash ∨
        (prevHash = block.prevBlockhash ∧ blockHash = block.blockHash) := by
  unfold addNewBlockEntry
  by_cases h : block.prevBlockhash = prevHash
  · subst h
    simp [followersOf]
  · have h' : prevHash ≠ block.prevBlockhash := fun heq => h heq.symm
    simp [followersOf, Table.getElem?_put, h, h']

def CacheSound (env : AddressEnv) (total : Nat) (cache : BlockRecordCache) : Prop :=
  ∀ prevHash, ∀ blockHash ∈ cache.followersOf prevHash, ∃ block, InFiles env total block ∧
    block.blockHash = blockHash ∧ block.prevBlockhash = prevHash

def Cached (cache : BlockRecordCache) (blocks : List Block) : Prop :=
  ∀ block ∈ blocks, block.blockHash ∈ cache.followersOf block.prevBlockhash

/-- The block that is chosen is of the main chain. -/
theorem mainFollower_chain (hfollow : FilesFollowChain env total)
    (hsound : CacheSound env total cache)
    (hcached : ∀ block, InFiles env total block →
      block.blockHash ∈ cache.followersOf block.prevBlockhash) {height : Nat}
    (hbelow : ∀ j < height, InFiles env total (env.chain j)) {blockHashes : List BlockHash}
    (hfollowers : cache.followersOf (env.chain height).prevBlockhash = blockHashes)
    {blockHash : BlockHash}
    (h : BlockRecordCache.mainFollower env.chain height blockHashes = some blockHash) :
    InFiles env total (env.chain height) ∧ blockHash = (env.chain height).blockHash := by
  rcases blockHashes with - | ⟨first, - | ⟨second, rest⟩⟩
  · cases h
  · cases h
    obtain ⟨block, hblock, rfl, hprev⟩ := hsound _ _ (hfollowers ▸ List.mem_singleton_self _)
    have hchain := hfollow.lone height block hbelow hblock hprev (fun block' hblock' hprev' => by
      have hmem := hcached block' hblock'
      rw [hprev', hfollowers] at hmem
      exact List.mem_singleton.mp hmem)
    exact ⟨hchain ▸ hblock, congrArg Block.blockHash hchain⟩
  · change (if (env.chain height).blockHash ∈ first :: second :: rest then
      some (env.chain height).blockHash else none) = some blockHash at h
    split at h
    · next hmem =>
      cases h
      obtain ⟨block, ⟨i, hi, hblock⟩, hhash, -⟩ := hsound _ _ (hfollowers ▸ hmem)
      obtain rfl := env.hash_injective i block hblock height hhash
      exact ⟨⟨i, hi, hblock⟩, rfl⟩
    · cases h

/-- The blocks that the walk lists are those of the main chain, from the height where it
starts, and all of them are in the files. -/
theorem sortLoop_chain (hfollow : FilesFollowChain env total)
    (hsound : CacheSound env total cache)
    (hcached : ∀ block, InFiles env total block →
      block.blockHash ∈ cache.followersOf block.prevBlockhash) {fuel height : Nat}
    (hbelow : ∀ j < height, InFiles env total (env.chain j))
    {sortedBlocks : List (Nat × BlockHash)}
    (h : cache.sortLoop env.chain fuel (env.chain height).prevBlockhash height =
      some sortedBlocks) :
    (∀ j < height + sortedBlocks.length, InFiles env total (env.chain j)) ∧
      sortedBlocks.map (·.1) = List.range' height sortedBlocks.length := by
  induction fuel generalizing height sortedBlocks with
  | zero => cases h
  | succ fuel ih =>
    rw [BlockRecordCache.sortLoop] at h
    cases hget : cache.followers[(env.chain height).prevBlockhash]? with
    | none =>
      rw [hget] at h
      cases h
      exact ⟨hbelow, rfl⟩
    | some blockHashes =>
      rw [hget] at h
      dsimp only at h
      obtain ⟨blockHash, hmain, h⟩ := Option.bind_eq_some_iff.mp h
      split at h
      · obtain ⟨blocks, hblocks, h⟩ := Option.bind_eq_some_iff.mp h
        cases h
        obtain ⟨hin, rfl⟩ := mainFollower_chain hfollow hsound hcached hbelow
          (by unfold BlockRecordCache.followersOf; rw [hget]; rfl) hmain
        rw [← env.chain_prev] at hblocks
        have hbelow' : ∀ j < height + 1, InFiles env total (env.chain j) := by
          intro j hj
          rcases Nat.lt_succ_iff_lt_or_eq.mp hj with hlt | rfl
          · exact hbelow j hlt
          · exact hin
        obtain ⟨hall, hheights⟩ := ih hbelow' hblocks
        constructor
        · intro j hj
          rw [List.length_cons] at hj
          exact hall j (by omega)
        · rw [List.map_cons, hheights, List.length_cons, List.range'_succ]
      · cases h

/-- Every block of the main chain up to the height that is found is in the files. -/
theorem generateSortBlocks_covered (hfollow : FilesFollowChain env total)
    (hsound : CacheSound env total cache)
    (hcached : ∀ block, InFiles env total block →
      block.blockHash ∈ cache.followersOf block.prevBlockhash)
    {sortedBlocks : List (Nat × BlockHash)}
    (h : cache.generateSortBlocks env.chain = some sortedBlocks) :
    ∀ height ≤ BlockRecordCache.latestBlockHeight sortedBlocks,
      InFiles env total (env.chain height) := by
  unfold BlockRecordCache.generateSortBlocks at h
  rw [← env.genesis_prev] at h
  obtain ⟨hall, hheights⟩ := sortLoop_chain hfollow hsound hcached
    (fun j hj => absurd hj (Nat.not_lt_zero j)) h
  have hne : sortedBlocks ≠ [] := by
    rintro rfl
    obtain ⟨block, hblock, hprev⟩ := hfollow.start
    have hmem := hcached block hblock
    rw [hprev, ← env.genesis_prev] at hmem
    rw [BlockRecordCache.sortLoop] at h
    cases hget : cache.followers[(env.chain 0).prevBlockhash]? with
    | none =>
      unfold BlockRecordCache.followersOf at hmem
      rw [hget] at hmem
      cases hmem
    | some blockHashes =>
      rw [hget] at h
      obtain ⟨blockHash, -, h⟩ := Option.bind_eq_some_iff.mp h
      split at h
      · obtain ⟨blocks, -, h⟩ := Option.bind_eq_some_iff.mp h
        cases h
      · cases h
  have hlast : BlockRecordCache.latestBlockHeight sortedBlocks < sortedBlocks.length := by
    unfold BlockRecordCache.latestBlockHeight
    rw [List.getLast?_eq_some_getLast hne]
    have hmem := List.mem_map_of_mem (f := (·.1)) (List.getLast_mem hne)
    rw [hheights, List.mem_range'_1] at hmem
    show (sortedBlocks.getLast hne).1 < _
    omega
  intro height hle
  exact hall height (by omega)

end Walk

section Workers

variable {total fileIndex : Nat} {worker : FileWorker} {workers : Nat → FileWorker}

def fileScripts (env : AddressEnv) (fileIndex : Nat) : List ScriptBuf :=
  (env.blkFile fileIndex).flatMap outputScripts

def Filtered (filter : List USDBScriptHash) (scripts : List ScriptBuf) : Prop :=
  ∀ script ∈ scripts, script.isOpReturn = false → script.usdbScriptHash ∈ filter

/-- What is known of the blocks and outputs that a worker has passed. -/
def WorkerInv (env : AddressEnv) (shared : IndexShared) (fileIndex : Nat) : FileWorker → Prop
  | .waiting => True
  | .scanning none outputs blocks =>
    shared.db.isFileIndexed fileIndex = true ∧ outputs = [] ∧
      ∃ read, env.blkFile fileIndex = read ++ blocks ∧ Cached shared.cache read
  | .scanning (some records) outputs blocks =>
    shared.db.isFileIndexed fileIndex = false ∧ WellFormed records ∧
      (∀ record ∈ records, record.2 ∈ fileScripts env fileIndex) ∧
      ∃ read scanned, env.blkFile fileIndex = read ++ blocks ∧ Cached shared.cache read ∧
        read.flatMap outputScripts = scanned ++ outputs ∧ Filtered shared.filter scanned
  | .written => Cached shared.cache (env.blkFile fileIndex) ∧
      (shared.db.isFileIndexed fileIndex = true ∨
        Filtered shared.filter (fileScripts env fileIndex))
  | .done => Cached shared.cache (env.blkFile fileIndex) ∧
      shared.db.isFileIndexed fileIndex = true
  | .failed => True

/-- A script in the filter that is not stored yet: a worker has it among its records, or had
and failed, and then its file is still to be indexed. -/
def Holds (env : AddressEnv) (shared : IndexShared) (fileIndex : Nat) (script : ScriptBuf) :
    FileWorker → Prop
  | .scanning (some records) _ _ => (script.usdbScriptHash, script) ∈ records
  | .failed => shared.db.isFileIndexed fileIndex = false ∧ script ∈ fileScripts env fileIndex
  | _ => False

/-- A script of an indexed file is stored, or it is in a file that is still to be indexed. -/
def Marked (env : AddressEnv) (db : AddressDB) (total : Nat) : Prop :=
  ∀ i, db.isFileIndexed i = true → ∀ script ∈ fileScripts env i, script.isOpReturn = false →
    db.Has script ∨ ∃ j < total, db.isFileIndexed j = false ∧ script ∈ fileScripts env j

structure FilesInv (env : AddressEnv) (shared : IndexShared) (total : Nat)
    (workers : Nat → FileWorker) : Prop where
  worker : ∀ i < total, WorkerInv env shared i (workers i)
  filter : ∀ hash ∈ shared.filter, ∃ script : ScriptBuf, script.usdbScriptHash = hash ∧
    script.isOpReturn = false ∧
      (shared.db.Has script ∨ ∃ i < total, Holds env shared i script (workers i))
  marked : Marked env shared.db total
  cache : CacheSound env total shared.cache

/-- What a step of the worker of one file leaves of what the others know. -/
structure Extends (fileIndex : Nat) (shared shared' : IndexShared) : Prop where
  has : ∀ script : ScriptBuf, script.isOpReturn = false → shared.db.Has script →
    shared'.db.Has script
  filter : ∀ hash ∈ shared.filter, hash ∈ shared'.filter
  cache : ∀ prevHash, ∀ blockHash ∈ shared.cache.followersOf prevHash,
    blockHash ∈ shared'.cache.followersOf prevHash
  marks : ∀ i, i ≠ fileIndex → shared'.db.isFileIndexed i = shared.db.isFileIndexed i

theorem Extends.refl (fileIndex : Nat) (shared : IndexShared) :
    Extends fileIndex shared shared where
  has _ _ h := h
  filter _ h := h
  cache _ _ h := h
  marks _ _ := rfl

theorem Extends.cached (h : Extends fileIndex shared shared') {blocks : List Block}
    (hcached : Cached shared.cache blocks) : Cached shared'.cache blocks :=
  fun block hmem => h.cache _ _ (hcached block hmem)

theorem Extends.filtered (h : Extends fileIndex shared shared') {scripts : List ScriptBuf}
    (hfiltered : Filtered shared.filter scripts) : Filtered shared'.filter scripts :=
  fun script hmem hscript => h.filter _ (hfiltered script hmem hscript)

theorem Extends.workerInv (h : Extends fileIndex shared shared') {i : Nat} (hi : i ≠ fileIndex)
    (hworker : WorkerInv env shared i worker) : WorkerInv env shared' i worker := by
  cases worker with
  | waiting => trivial
  | scanning records outputs blocks =>
    cases records with
    | none =>
      obtain ⟨hmark, hnil, read, hfile, hread⟩ := hworker
      exact ⟨(h.marks i hi).trans hmark, hnil, read, hfile, h.cached hread⟩
    | some records =>
      obtain ⟨hmark, hform, hrecords, read, scanned, hfile, hread, hscan, hfiltered⟩ := hworker
      exact ⟨(h.marks i hi).trans hmark, hform, hrecords, read, scanned, hfile,
        h.cached hread, hscan, h.filtered hfiltered⟩
  | written =>
    obtain ⟨hread, hmark | hfiltered⟩ := hworker
    · exact ⟨h.cached hread, .inl ((h.marks i hi).trans hmark)⟩
    · exact ⟨h.cached hread, .inr (h.filtered hfiltered)⟩
  | done => exact ⟨h.cached hworker.1, (h.marks i hi).trans hworker.2⟩
  | failed => trivial

theorem Extends.holds (h : Extends fileIndex shared shared') {i : Nat} (hi : i ≠ fileIndex)
    (hholds : Holds env shared i script worker) : Holds env shared' i script worker := by
  cases worker with
  | scanning records outputs blocks =>
    cases records with
    | none => exact hholds
    | some records => exact hholds
  | failed => exact ⟨(h.marks i hi).trans hholds.1, hholds.2⟩
  | waiting => exact hholds
  | written => exact hholds
  | done => exact hholds

/-- The file of a script that is held is still to be indexed. -/
theorem WorkerInv.of_holds (h : WorkerInv env shared fileIndex worker)
    (hholds : Holds env shared fileIndex script worker) :
    shared.db.isFileIndexed fileIndex = false ∧ script ∈ fileScripts env fileIndex := by
  cases worker with
  | scanning records outputs blocks =>
    cases records with
    | none => cases hholds
    | some records => exact ⟨h.1, h.2.2.1 _ hholds⟩
  | failed => exact hholds
  | waiting => cases hholds
  | written => cases hholds
  | done => cases hholds

/-- What the step of one worker has to show. -/
theorem FilesInv.next {worker' : FileWorker} (h : FilesInv env shared total workers)
    (hi : fileIndex < total) (hext : Extends fileIndex shared shared')
    (hworker : WorkerInv env shared' fileIndex worker')
    (hholds : ∀ script, script.isOpReturn = false →
      Holds env shared fileIndex script (workers fileIndex) →
        shared'.db.Has script ∨ Holds env shared' fileIndex script worker')
    (hfilter : ∀ hash ∈ shared'.filter, hash ∈ shared.filter ∨
      ∃ script : ScriptBuf, script.usdbScriptHash = hash ∧ script.isOpReturn = false ∧
        Holds env shared' fileIndex script worker')
    (hmarked : Marked env shared'.db total) (hcache : CacheSound env total shared'.cache) :
    FilesInv env shared' total (Function.update workers fileIndex worker') where
  worker i hlt := by
    by_cases heq : i = fileIndex
    · subst heq
      rw [Function.update_self]
      exact hworker
    · rw [Function.update_of_ne heq]
      exact hext.workerInv heq (h.worker i hlt)
  filter hash hmem := by
    rcases hfilter hash hmem with hold | ⟨script, hhash, hscript, hnew⟩
    · obtain ⟨script, hhash, hscript, hhas | ⟨i, hlt, hheld⟩⟩ := h.filter hash hold
      · exact ⟨script, hhash, hscript, .inl (hext.has script hscript hhas)⟩
      · refine ⟨script, hhash, hscript, ?_⟩
        by_cases heq : i = fileIndex
        · subst heq
          rcases hholds script hscript hheld with hhas | hheld'
          · exact .inl hhas
          · exact .inr ⟨i, hlt, by rw [Function.update_self]; exact hheld'⟩
        · exact .inr ⟨i, hlt, by rw [Function.update_of_ne heq]; exact hext.holds heq hheld⟩
    · exact ⟨script, hhash, hscript, .inr ⟨fileIndex, hi, by rw [Function.update_self]; exact hnew⟩⟩
  marked := hmarked
  cache := hcache

theorem Marked.mono {db' : AddressDB} (h : Marked env db total)
    (hhas : ∀ script : ScriptBuf, script.isOpReturn = false → db.Has script → db'.Has script)
    (hmarks : ∀ i, db'.isFileIndexed i = db.isFileIndexed i) : Marked env db' total := by
  intro i hi script hmem hscript
  rw [hmarks] at hi
  rcases h i hi script hmem hscript with hold | ⟨j, hj, hmark, hin⟩
  · exact .inl (hhas script hscript hold)
  · exact .inr ⟨j, hj, (hmarks j).trans hmark, hin⟩

end Workers

section FileSteps

variable {total fileIndex : Nat} {workers : Nat → FileWorker}

theorem FilesInv.begin (h : FilesInv env shared total workers) (hi : fileIndex < total)
    (hworker : workers fileIndex = .waiting) :
    FilesInv env shared total (Function.update workers fileIndex
      (.scanning (if shared.db.isFileIndexed fileIndex then none else some []) []
        (env.blkFile fileIndex))) := by
  refine h.next hi (.refl _ _) ?_ ?_ (fun _ hmem => .inl hmem) h.marked h.cache
  · by_cases hmark : shared.db.isFileIndexed fileIndex = true
    · rw [if_pos hmark]
      exact ⟨hmark, rfl, [], rfl, fun _ hmem => (nomatch hmem)⟩
    · rw [if_neg hmark]
      exact ⟨Bool.eq_false_iff.mpr hmark, fun _ hmem => (nomatch hmem),
        fun _ hmem => (nomatch hmem), [], [], rfl, fun _ hmem => (nomatch hmem), rfl,
        fun _ hmem => (nomatch hmem)⟩
  · intro script _ hholds
    rw [hworker] at hholds
    cases hholds

theorem FilesInv.fail (h : FilesInv env shared total workers) (hi : fileIndex < total) :
    FilesInv env shared total (Function.update workers fileIndex .failed) :=
  h.next hi (.refl _ _) trivial
    (fun _ _ hholds => .inr ((h.worker fileIndex hi).of_holds hholds))
    (fun _ hmem => .inl hmem) h.marked h.cache

/-- Reading a block keeps what is known, whether it was read before or not. -/
theorem extends_addNewBlockEntry (block : Block) : Extends fileIndex shared
    { shared with cache := shared.cache.addNewBlockEntry block } where
  has _ _ h := h
  filter _ h := h
  cache _ _ h := BlockRecordCache.mem_followersOf_add.mpr (.inl h)
  marks _ _ := rfl

theorem cacheSound_addNewBlockEntry {cache : BlockRecordCache} {block : Block}
    (h : CacheSound env total cache) (hblock : InFiles env total block) :
    CacheSound env total (cache.addNewBlockEntry block) := by
  intro prevHash blockHash hmem
  rcases BlockRecordCache.mem_followersOf_add.mp hmem with hold | ⟨rfl, rfl⟩
  · exact h prevHash blockHash hold
  · exact ⟨block, hblock, rfl, rfl⟩

theorem cached_addNewBlockEntry {cache : BlockRecordCache} {block : Block} {read : List Block}
    (h : Cached cache read) : Cached (cache.addNewBlockEntry block) (read ++ [block]) := by
  intro block' hmem
  rw [BlockRecordCache.mem_followersOf_add]
  rcases List.mem_append.mp hmem with hold | hnew
  · exact .inl (h block' hold)
  · obtain rfl := List.mem_singleton.mp hnew
    exact .inr ⟨rfl, rfl⟩

theorem FilesInv.readBlock (h : FilesInv env shared total workers) (hi : fileIndex < total)
    {records : Option AddressRecords} {block : Block} {blocks : List Block}
    (hworker : workers fileIndex = .scanning records [] (block :: blocks)) :
    FilesInv env { shared with cache := shared.cache.addNewBlockEntry block } total
        (Function.update workers fileIndex .failed) ∧
      FilesInv env { shared with cache := shared.cache.addNewBlockEntry block } total
        (Function.update workers fileIndex
          (.scanning records (if records.isSome then outputScripts block else []) blocks)) := by
  have hinv := h.worker fileIndex hi
  rw [hworker] at hinv
  have hblock : InFiles env total block := by
    refine ⟨fileIndex, hi, ?_⟩
    cases records with
    | none =>
      obtain ⟨-, -, read, hfile, -⟩ := hinv
      rw [hfile]
      simp
    | some records =>
      obtain ⟨-, -, -, read, scanned, hfile, -⟩ := hinv
      rw [hfile]
      simp
  have hsound := cacheSound_addNewBlockEntry h.cache hblock
  constructor
  · refine h.next hi (extends_addNewBlockEntry block) trivial ?_ (fun _ hmem => .inl hmem)
      h.marked hsound
    exact fun _ _ hholds => .inr ((h.worker fileIndex hi).of_holds hholds)
  · refine h.next hi (extends_addNewBlockEntry block) ?_ ?_ (fun _ hmem => .inl hmem)
      h.marked hsound
    · cases records with
      | none =>
        obtain ⟨hmark, -, read, hfile, hread⟩ := hinv
        exact ⟨hmark, rfl, read ++ [block], by rw [hfile]; simp, cached_addNewBlockEntry hread⟩
      | some records =>
        obtain ⟨hmark, hform, hrecords, read, scanned, hfile, hread, hscan, hfiltered⟩ := hinv
        refine ⟨hmark, hform, hrecords, read ++ [block], scanned, by rw [hfile]; simp,
          cached_addNewBlockEntry hread, ?_, hfiltered⟩
        rw [List.flatMap_append, hscan]
        simp
    · intro script _ hholds
      rw [hworker] at hholds
      refine .inr ?_
      cases records with
      | none => cases hholds
      | some records => exact hholds

/-- The filter answers only for hashes that it has, when it answers for this script. -/
def ExactFor (mayContain : List USDBScriptHash → USDBScriptHash → Bool)
    (filter : List USDBScriptHash) (script : ScriptBuf) : Prop :=
  script.isOpReturn = false → mayContain filter script.usdbScriptHash = true →
    script.usdbScriptHash ∈ filter

/-- What the body of the loops over outputs does when the filter is exact. -/
structure OutputScanned (script : ScriptBuf) (filter filter' : List USDBScriptHash)
    (records records' : AddressRecords) : Prop where
  kept : ∀ hash ∈ filter, hash ∈ filter'
  added : script.isOpReturn = false → script.usdbScriptHash ∈ filter'
  known : ∀ hash ∈ filter', hash ∈ filter ∨ (hash = script.usdbScriptHash ∧
    script.isOpReturn = false ∧ (script.usdbScriptHash, script) ∈ records')
  recordsKept : ∀ record ∈ records, record ∈ records'
  recordsKnown : ∀ record ∈ records', record ∈ records ∨ record.2 = script
  wellFormed : WellFormed records → WellFormed records'

variable (records) in
theorem scanOutput_scanned {mayContain : List USDBScriptHash → USDBScriptHash → Bool}
    (hexact : ExactFor mayContain filter script) :
    OutputScanned script filter (scanOutput mayContain script filter records).1 records
      (scanOutput mayContain script filter records).2 := by
  unfold scanOutput
  by_cases hop : script.isOpReturn = true
  · rw [if_pos hop]
    exact ⟨fun _ h => h, fun h => absurd (hop.symm.trans h) (by decide), fun _ h => .inl h,
      fun _ h => h, fun _ h => .inl h, fun h => h⟩
  · rw [if_neg hop]
    have hop' : script.isOpReturn = false := Bool.eq_false_iff.mpr hop
    by_cases hcheck : mayContain filter script.usdbScriptHash = true
    · rw [if_pos hcheck]
      exact ⟨fun _ h => h, fun h => hexact h hcheck, fun _ h => .inl h,
        fun _ h => h, fun _ h => .inl h, fun h => h⟩
    · rw [if_neg hcheck]
      refine ⟨fun _ h => List.mem_cons_of_mem _ h, fun _ => List.mem_cons_self, ?_,
        fun _ h => List.mem_append_left _ h, ?_, ?_⟩
      · intro hash hmem
        rcases List.mem_cons.mp hmem with rfl | hold
        · exact .inr ⟨rfl, hop', by simp⟩
        · exact .inl hold
      · intro record hmem
        rcases List.mem_append.mp hmem with hold | hnew
        · exact .inl hold
        · rw [List.mem_singleton.mp hnew]
          exact .inr rfl
      · intro hform record hmem
        rcases List.mem_append.mp hmem with hold | hnew
        · exact hform record hold
        · rw [List.mem_singleton.mp hnew]
          exact ⟨rfl, hop'⟩

theorem OutputScanned.filtered {filter' : List USDBScriptHash} {records' : AddressRecords}
    {scanned : List ScriptBuf} (h : OutputScanned script filter filter' records records')
    (hfiltered : Filtered filter scanned) : Filtered filter' (scanned ++ [script]) := by
  intro script' hmem hscript
  rcases List.mem_append.mp hmem with hold | hnew
  · exact h.kept _ (hfiltered script' hold hscript)
  · rw [List.mem_singleton] at hnew
    subst hnew
    exact h.added hscript

theorem FilesInv.scanOutput (h : FilesInv env shared total workers) (hi : fileIndex < total)
    {outputs : List ScriptBuf} {blocks : List Block} {filter' : List USDBScriptHash}
    {records' : AddressRecords}
    (hworker : workers fileIndex = .scanning (some records) (script :: outputs) blocks)
    (hscan : OutputScanned script shared.filter filter' records records') :
    FilesInv env { shared with filter := filter' } total
      (Function.update workers fileIndex (.scanning (some records') outputs blocks)) := by
  have hinv := h.worker fileIndex hi
  rw [hworker] at hinv
  obtain ⟨hmark, hform, hrecords, read, scanned, hfile, hread, hsplit, hfiltered⟩ := hinv
  have hscript : script ∈ fileScripts env fileIndex := by
    unfold fileScripts
    rw [hfile, List.flatMap_append, hsplit]
    simp
  refine h.next hi ⟨fun _ _ hold => hold, hscan.kept, fun _ _ hold => hold, fun _ _ => rfl⟩
    ?_ ?_ ?_ h.marked h.cache
  · refine ⟨hmark, hscan.wellFormed hform, ?_, read, scanned ++ [script], hfile, hread, ?_,
      hscan.filtered hfiltered⟩
    · intro record hmem
      rcases hscan.recordsKnown record hmem with hold | heq
      · exact hrecords record hold
      · rw [heq]
        exact hscript
    · rw [hsplit, List.append_assoc]
      rfl
  · intro script' _ hholds
    rw [hworker] at hholds
    exact .inr (hscan.recordsKept _ hholds)
  · intro hash hmem
    rcases hscan.known hash hmem with hold | ⟨rfl, hop, hnew⟩
    · exact .inl hold
    · exact .inr ⟨script, rfl, hop, hnew⟩

variable (fileIndex shared) in
theorem extends_putRecords (hrecords : WellFormed records) :
    Extends fileIndex shared (shared.putRecords records) := by
  refine ⟨fun script hscript h => shared.has_putRecords hrecords hscript (.inl h), ?_, ?_, ?_⟩
  all_goals
    unfold IndexShared.putRecords
    split
  · exact fun _ h => h
  · exact fun _ h => h
  · exact fun _ _ h => h
  · exact fun _ _ h => h
  · exact fun _ _ => rfl
  · exact fun _ _ => rfl

theorem putRecords_files (shared : IndexShared) (records : AddressRecords) (i : Nat) :
    (shared.putRecords records).db.isFileIndexed i = shared.db.isFileIndexed i := by
  unfold IndexShared.putRecords
  split <;> rfl

theorem putRecords_filter (shared : IndexShared) (records : AddressRecords) :
    (shared.putRecords records).filter = shared.filter := by
  unfold IndexShared.putRecords
  split <;> rfl

theorem putRecords_cache (shared : IndexShared) (records : AddressRecords) :
    (shared.putRecords records).cache = shared.cache := by
  unfold IndexShared.putRecords
  split <;> rfl

theorem FilesInv.putRecords (h : FilesInv env shared total workers) (hi : fileIndex < total)
    (hworker : workers fileIndex = .scanning (some records) [] []) :
    FilesInv env (shared.putRecords records) total
      (Function.update workers fileIndex .written) := by
  have hinv := h.worker fileIndex hi
  rw [hworker] at hinv
  obtain ⟨hmark, hform, -, read, scanned, hfile, hread, hsplit, hfiltered⟩ := hinv
  rw [List.append_nil] at hfile hsplit
  have hext := extends_putRecords shared fileIndex hform
  refine h.next hi hext ?_ ?_ ?_ ?_ ?_
  · refine ⟨hext.cached (hfile ▸ hread), .inr (hext.filtered ?_)⟩
    unfold fileScripts
    rw [hfile, hsplit]
    exact hfiltered
  · intro script hscript hholds
    rw [hworker] at hholds
    exact .inl (shared.has_putRecords hform hscript (.inr hholds))
  · intro hash hmem
    rw [putRecords_filter] at hmem
    exact .inl hmem
  · exact h.marked.mono hext.has (putRecords_files shared records)
  · rw [putRecords_cache]
    exact h.cache

theorem FilesInv.skipRecords (h : FilesInv env shared total workers) (hi : fileIndex < total)
    (hworker : workers fileIndex = .scanning none [] []) :
    FilesInv env shared total (Function.update workers fileIndex .written) := by
  have hinv := h.worker fileIndex hi
  rw [hworker] at hinv
  obtain ⟨hmark, -, read, hfile, hread⟩ := hinv
  rw [List.append_nil] at hfile
  refine h.next hi (.refl _ _) ⟨hfile ▸ hread, .inl hmark⟩ ?_ (fun _ hmem => .inl hmem)
    h.marked h.cache
  intro script _ hholds
  rw [hworker] at hholds
  cases hholds

/-- A script of a written file is stored, or it is in another file still to be indexed. -/
theorem FilesInv.written (h : FilesInv env shared total workers) (hi : fileIndex < total)
    (hworker : workers fileIndex = .written) (hmem : script ∈ fileScripts env fileIndex)
    (hscript : script.isOpReturn = false) :
    shared.db.Has script ∨ ∃ j < total, j ≠ fileIndex ∧ shared.db.isFileIndexed j = false ∧
      script ∈ fileScripts env j := by
  have hinv := h.worker fileIndex hi
  rw [hworker] at hinv
  obtain ⟨-, hmark | hfiltered⟩ := hinv
  · rcases h.marked fileIndex hmark script hmem hscript with hhas | ⟨j, hj, hopen, hin⟩
    · exact .inl hhas
    · refine .inr ⟨j, hj, ?_, hopen, hin⟩
      rintro rfl
      rw [hmark] at hopen
      cases hopen
  · obtain ⟨found, hhash, hfound, hheld⟩ := h.filter _ (hfiltered script hmem hscript)
    obtain rfl := script_eq hfound hscript hhash
    rcases hheld with hhas | ⟨j, hj, hholds⟩
    · exact .inl hhas
    · obtain ⟨hopen, hin⟩ := (h.worker j hj).of_holds hholds
      refine .inr ⟨j, hj, ?_, hopen, hin⟩
      rintro rfl
      rw [hworker] at hholds
      cases hholds

theorem FilesInv.mark (h : FilesInv env shared total workers) (hi : fileIndex < total)
    (hworker : workers fileIndex = .written) :
    FilesInv env { shared with db := shared.db.setFileIndexed fileIndex } total
      (Function.update workers fileIndex .done) := by
  have hset := shared.db.isFileIndexed_set fileIndex
  have hinv := h.worker fileIndex hi
  rw [hworker] at hinv
  refine h.next hi ⟨fun _ _ hold => hold, fun _ hold => hold, fun _ _ hold => hold, ?_⟩
    ⟨hinv.1, ?_⟩ ?_ (fun _ hmem => .inl hmem) ?_ h.cache
  · intro i hne
    dsimp only
    rw [hset, decide_eq_false (fun heq => hne heq.symm), Bool.false_or]
  · dsimp only
    rw [hset, decide_eq_true rfl, Bool.true_or]
  · intro script _ hholds
    rw [hworker] at hholds
    cases hholds
  · -- what waits for this file is stored, or in another one
    have hopen : ∀ j, j ≠ fileIndex → shared.db.isFileIndexed j = false →
        (shared.db.setFileIndexed fileIndex).isFileIndexed j = false := by
      intro j hne hfalse
      rw [hset, hfalse, decide_eq_false (fun heq => hne heq.symm)]
      rfl
    have hwritten : ∀ script ∈ fileScripts env fileIndex, script.isOpReturn = false →
        shared.db.Has script ∨ ∃ j < total,
          (shared.db.setFileIndexed fileIndex).isFileIndexed j = false ∧
            script ∈ fileScripts env j := by
      intro script hmem hscript
      rcases h.written hi hworker hmem hscript with hhas | ⟨j, hj, hne, hfalse, hin⟩
      · exact .inl hhas
      · exact .inr ⟨j, hj, hopen j hne hfalse, hin⟩
    intro i hmark script hmem hscript
    dsimp only at hmark
    by_cases heq : i = fileIndex
    · subst heq
      exact hwritten script hmem hscript
    · rw [hset, decide_eq_false (fun heq' => heq heq'.symm), Bool.false_or] at hmark
      rcases h.marked i hmark script hmem hscript with hhas | ⟨j, hj, hfalse, hin⟩
      · exact .inl hhas
      · by_cases hj' : j = fileIndex
        · subst hj'
          exact hwritten script hin hscript
        · exact .inr ⟨j, hj, hopen j hj' hfalse, hin⟩

/-- The check that a step of a worker makes of the filter is exact. -/
def ExactFile (env : AddressEnv) (shared : IndexShared) : FileEvent → FileWorker → Prop
  | .scanOutput, .scanning (some _) (script :: _) _ => ExactFor env.mayContain shared.filter script
  | _, _ => True

/-- A step of a worker keeps the height and the marker of the whole. -/
theorem fileStep_meta {event : FileEvent} {worker worker' : FileWorker}
    (hstep : fileStep env fileIndex shared event worker = some (shared', worker')) :
    shared'.db.allFileIndexed = shared.db.allFileIndexed ∧
      shared'.db.indexedBlockHeight = shared.db.indexedBlockHeight := by
  have hput : ∀ records, (shared.putRecords records).db.allFileIndexed =
        shared.db.allFileIndexed ∧
      (shared.putRecords records).db.indexedBlockHeight = shared.db.indexedBlockHeight := by
    intro records
    unfold IndexShared.putRecords
    split <;> exact ⟨rfl, rfl⟩
  unfold fileStep at hstep
  split at hstep
  · cases hstep
    exact ⟨rfl, rfl⟩
  · dsimp only at hstep
    split at hstep
    · cases hstep
      exact ⟨rfl, rfl⟩
    · cases hstep
      exact ⟨rfl, rfl⟩
  · cases hstep
    exact ⟨rfl, rfl⟩
  · cases hstep
    exact hput _
  · cases hstep
    exact ⟨rfl, rfl⟩
  · cases hstep
    exact ⟨rfl, rfl⟩
  · cases hstep
  · cases hstep
    exact ⟨rfl, rfl⟩
  · cases hstep

theorem FilesInv.step (h : FilesInv env shared total workers) (hi : fileIndex < total)
    {event : FileEvent} {worker' : FileWorker}
    (hexact : ExactFile env shared event (workers fileIndex))
    (hstep : fileStep env fileIndex shared event (workers fileIndex) = some (shared', worker')) :
    FilesInv env shared' total (Function.update workers fileIndex worker') := by
  generalize hworker : workers fileIndex = worker at hexact hstep
  unfold fileStep at hstep
  split at hstep
  · cases hstep
    exact h.begin hi hworker
  · dsimp only at hstep
    split at hstep
    · cases hstep
      exact (h.readBlock hi hworker).1
    · cases hstep
      exact (h.readBlock hi hworker).2
  · cases hstep
    exact h.scanOutput hi hworker (scanOutput_scanned _ hexact)
  · cases hstep
    exact h.putRecords hi hworker
  · cases hstep
    exact h.skipRecords hi hworker
  · cases hstep
    exact h.mark hi hworker
  · cases hstep
  · cases hstep
    exact h.fail hi
  · cases hstep

end FileSteps

section States

variable {total height : Nat} {workers : Nat → FileWorker} {s s' : IndexState}

/-- Every script of the main chain up to a height is stored. -/
def CoveredUpTo (env : AddressEnv) (db : AddressDB) (height : Nat) : Prop :=
  ∀ j ≤ height, ∀ script ∈ outputScripts (env.chain j), script.isOpReturn = false → db.Has script

def AddressesCovered (env : AddressEnv) (db : AddressDB) : Prop :=
  ∃ height, db.indexedBlockHeight = some height ∧ CoveredUpTo env db height

/-- Every script in the filter is stored, or among the given records. -/
def Stored (db : AddressDB) (filter : List USDBScriptHash) (records : AddressRecords) : Prop :=
  ∀ hash ∈ filter, ∃ script : ScriptBuf, script.usdbScriptHash = hash ∧
    script.isOpReturn = false ∧ (db.Has script ∨ (script.usdbScriptHash, script) ∈ records)

/-- What is known in each phase. -/
def PhaseInv (env : AddressEnv) (latestBlkFile : Nat) (shared : IndexShared) :
    IndexPhase → Prop
  | .idle => shared.filter = []
  | .files total workers => total ≤ latestBlkFile ∧ shared.db.allFileIndexed = false ∧
      FilesFollowChain env total ∧ FilesInv env shared total workers
  | .sorted => Stored shared.db shared.filter [] ∧ AddressesCovered env shared.db
  | .rpc => Stored shared.db shared.filter [] ∧ AddressesCovered env shared.db
  | .rpcBlock height _ outputs records =>
      Stored shared.db shared.filter records ∧ WellFormed records ∧
      (∃ current, height = current + 1 ∧ shared.db.indexedBlockHeight = some current ∧
        CoveredUpTo env shared.db current) ∧
      ∃ scanned, outputScripts (env.chain height) = scanned ++ outputs ∧
        Filtered shared.filter scanned
  | .rpcWritten height _ => Stored shared.db shared.filter [] ∧
      AddressesCovered env shared.db ∧ CoveredUpTo env shared.db height
  | .ok => AddressesCovered env shared.db
  | .panicked => True

structure IndexInv (env : AddressEnv) (s : IndexState) : Prop where
  marked : Marked env s.shared.db s.latestBlkFile
  covered : s.shared.db.allFileIndexed = true → AddressesCovered env s.shared.db
  phase : PhaseInv env s.latestBlkFile s.shared s.phase

theorem Marked.le {latestBlkFile : Nat} (h : Marked env db total) (hle : total ≤ latestBlkFile) :
    Marked env db latestBlkFile := by
  intro i hi script hmem hscript
  rcases h i hi script hmem hscript with hhas | ⟨j, hj, hrest⟩
  · exact .inl hhas
  · exact .inr ⟨j, Nat.lt_of_lt_of_le hj hle, hrest⟩

/-- When all files are done their scripts are stored. -/
theorem FilesInv.done (h : FilesInv env shared total workers)
    (hdone : ∀ i < total, workers i = .done) :
    (∀ i < total, ∀ script ∈ fileScripts env i, script.isOpReturn = false →
        shared.db.Has script) ∧
      Stored shared.db shared.filter [] ∧
      ∀ block, InFiles env total block →
        block.blockHash ∈ shared.cache.followersOf block.prevBlockhash := by
  have hinv : ∀ i < total, Cached shared.cache (env.blkFile i) ∧
      shared.db.isFileIndexed i = true := by
    intro i hi
    have := h.worker i hi
    rw [hdone i hi] at this
    exact this
  refine ⟨?_, ?_, ?_⟩
  · intro i hi script hmem hscript
    rcases h.marked i (hinv i hi).2 script hmem hscript with hhas | ⟨j, hj, hopen, -⟩
    · exact hhas
    · rw [(hinv j hj).2] at hopen
      cases hopen
  · intro hash hmem
    obtain ⟨script, hhash, hscript, hhas | ⟨i, hi, hholds⟩⟩ := h.filter hash hmem
    · exact ⟨script, hhash, hscript, .inl hhas⟩
    · rw [hdone i hi] at hholds
      cases hholds
  · rintro block ⟨i, hi, hmem⟩
    exact (hinv i hi).1 block hmem

theorem phaseInv_rpcNext {latestBlkFile current latest : Nat}
    (hstored : Stored shared.db shared.filter [])
    (hheight : shared.db.indexedBlockHeight = some current)
    (hcovered : CoveredUpTo env shared.db current) :
    PhaseInv env latestBlkFile shared (rpcNext env current latest) := by
  unfold rpcNext
  split
  · exact ⟨current, hheight, hcovered⟩
  · exact ⟨hstored, fun _ hmem => (nomatch hmem), ⟨current, rfl, hheight, hcovered⟩,
      [], rfl, fun _ hmem => (nomatch hmem)⟩

theorem IndexInv.restart (h : IndexInv env s) :
    IndexInv env (.opened s.latestBlkFile s.shared.db) where
  marked := h.marked
  covered := h.covered
  phase := rfl

theorem IndexInv.newBlkFile (h : IndexInv env s) :
    IndexInv env { s with latestBlkFile := s.latestBlkFile + 1 } where
  marked := h.marked.le (Nat.le_succ _)
  covered := h.covered
  phase := by
    have hphase := h.phase
    cases hp : s.phase with
    | files total workers =>
      rw [hp] at hphase
      exact ⟨Nat.le_trans hphase.1 (Nat.le_succ _), hphase.2⟩
    | _ =>
      rw [hp] at hphase
      exact hphase

/-- The condition on a step: a check of the filter answers only for hashes that it has, and
the blk files that a process starts with follow the main chain. -/
def ExactStep (env : AddressEnv) (s : IndexState) : IndexEvent → Prop
  | .begin => s.shared.db.allFileIndexed = false → FilesFollowChain env s.latestBlkFile
  | .file fileIndex event =>
    match s.phase with
    | .files _ workers => ExactFile env s.shared event (workers fileIndex)
    | _ => True
  | .rpcOutput =>
    match s.phase with
    | .rpcBlock _ _ (script :: _) _ => ExactFor env.mayContain s.shared.filter script
    | _ => True
  | _ => True

theorem IndexInv.begin (h : IndexInv env s) (hexact : ExactStep env s .begin)
    (hstep : s.step env .begin = some s') : IndexInv env s' := by
  have hphase := h.phase
  dsimp only [IndexState.step] at hstep
  split at hstep
  · next hidle =>
    rw [hidle] at hphase
    split at hstep
    · next hall =>
      cases hstep
      refine ⟨h.marked, h.covered, ?_, h.covered hall⟩
      rw [show s.shared.filter = [] from hphase]
      exact fun _ hmem => (nomatch hmem)
    · next hall =>
      split at hstep
      · cases hstep
        exact ⟨h.marked, h.covered, trivial⟩
      · cases hstep
        have hall' := Bool.eq_false_iff.mpr hall
        refine ⟨h.marked, h.covered, Nat.le_refl _, hall', hexact hall', ?_⟩
        refine ⟨fun _ _ => trivial, fun _ hmem => (nomatch hmem), h.marked, ?_⟩
        intro prevHash blockHash hmem
        simp [BlockRecordCache.followersOf, BlockRecordCache.empty] at hmem
  · cases hstep

theorem IndexInv.file (h : IndexInv env s) {fileIndex : Nat} {event : FileEvent}
    (hexact : ExactStep env s (.file fileIndex event))
    (hstep : s.step env (.file fileIndex event) = some s') : IndexInv env s' := by
  have hphase := h.phase
  dsimp only [IndexState.step] at hstep
  dsimp only [ExactStep] at hexact
  split at hstep
  · next total workers hfiles =>
    rw [hfiles] at hphase hexact
    obtain ⟨hle, hall, hfollow, hinv⟩ := hphase
    split at hstep
    · next hi =>
      obtain ⟨⟨shared, worker⟩, hfile, hstep⟩ := Option.bind_eq_some_iff.mp hstep
      cases hstep
      have hnext := hinv.step hi hexact hfile
      have hmeta := (fileStep_meta hfile).1.trans hall
      refine ⟨hnext.marked.le hle, fun hall' => ?_, hle, hmeta, hfollow, hnext⟩
      dsimp only at hall'
      rw [hmeta] at hall'
      cases hall'
    · cases hstep
  · cases hstep

theorem IndexInv.sort (h : IndexInv env s) (hstep : s.step env .sort = some s') :
    IndexInv env s' := by
  have hphase := h.phase
  dsimp only [IndexState.step] at hstep
  split at hstep
  · next total workers hfiles =>
    rw [hfiles] at hphase
    obtain ⟨hle, hall, hfollow, hinv⟩ := hphase
    split at hstep
    · next hdone =>
      obtain ⟨sortedBlocks, hsorted, hstep⟩ := Option.bind_eq_some_iff.mp hstep
      cases hstep
      have hdone' : ∀ i < total, workers i = .done := by
        intro i hi
        have hworker := List.all_eq_true.mp hdone i (List.mem_range.mpr hi)
        cases hw : workers i with
        | done => rfl
        | _ =>
          rw [hw] at hworker
          cases hworker
      obtain ⟨hscripts, hstored, hcached⟩ := hinv.done hdone'
      have hheights := generateSortBlocks_covered hfollow hinv.cache hcached hsorted
      refine ⟨h.marked, fun hall' => ?_, hstored, _, rfl, ?_⟩
      · dsimp only at hall'
        rw [hall] at hall'
        cases hall'
      · intro height hle' script hmem hscript
        obtain ⟨i, hi, hblock⟩ := hheights height hle'
        exact hscripts i hi script (List.mem_flatMap.mpr ⟨_, hblock, hmem⟩) hscript
    · cases hstep
  · cases hstep

theorem IndexInv.markAll (h : IndexInv env s) (hstep : s.step env .markAll = some s') :
    IndexInv env s' := by
  have hphase := h.phase
  dsimp only [IndexState.step] at hstep
  split at hstep
  · next hsorted =>
    rw [hsorted] at hphase
    cases hstep
    exact ⟨h.marked, fun _ => hphase.2, hphase⟩
  · cases hstep

theorem IndexInv.rpcBegin (h : IndexInv env s) {latest : Nat}
    (hstep : s.step env (.rpcBegin latest) = some s') : IndexInv env s' := by
  have hphase := h.phase
  dsimp only [IndexState.step] at hstep
  split at hstep
  · next current hrpc hheight =>
    rw [hrpc] at hphase
    obtain ⟨hstored, height, hheight', hcovered⟩ := hphase
    cases hstep
    rw [hheight] at hheight'
    cases hheight'
    exact ⟨h.marked, h.covered, phaseInv_rpcNext hstored hheight hcovered⟩
  · cases hstep

theorem IndexInv.rpcOutput (h : IndexInv env s) (hexact : ExactStep env s .rpcOutput)
    (hstep : s.step env .rpcOutput = some s') : IndexInv env s' := by
  have hphase := h.phase
  dsimp only [IndexState.step] at hstep
  dsimp only [ExactStep] at hexact
  split at hstep
  · next height latest script outputs records hrpc =>
    rw [hrpc] at hphase hexact
    obtain ⟨hstored, hform, hcurrent, scanned, hsplit, hfiltered⟩ := hphase
    cases hstep
    have hscan := scanOutput_scanned records hexact
    refine ⟨h.marked, h.covered, ?_, hscan.wellFormed hform, hcurrent, scanned ++ [script], ?_,
      hscan.filtered hfiltered⟩
    · intro hash hmem
      rcases hscan.known hash hmem with hold | ⟨rfl, hop, hnew⟩
      · obtain ⟨found, hhash, hfound, hhas | hin⟩ := hstored hash hold
        · exact ⟨found, hhash, hfound, .inl hhas⟩
        · exact ⟨found, hhash, hfound, .inr (hscan.recordsKept _ hin)⟩
      · exact ⟨script, rfl, hop, .inr hnew⟩
    · rw [hsplit, List.append_assoc]
      rfl
  · cases hstep

theorem IndexInv.rpcPut (h : IndexInv env s) (hstep : s.step env .rpcPut = some s') :
    IndexInv env s' := by
  have hphase := h.phase
  dsimp only [IndexState.step] at hstep
  split at hstep
  · next height latest records hrpc =>
    rw [hrpc] at hphase
    obtain ⟨hstored, hform, ⟨current, rfl, hheight, hcovered⟩, scanned, hsplit, hfiltered⟩ :=
      hphase
    cases hstep
    have hkept : ∀ script : ScriptBuf, script.isOpReturn = false → s.shared.db.Has script →
        (s.shared.putRecords records).db.Has script :=
      fun script hscript hhas => s.shared.has_putRecords hform hscript (.inl hhas)
    have hstored' : Stored (s.shared.putRecords records).db s.shared.filter [] := by
      intro hash hmem
      obtain ⟨script, hhash, hscript, hheld⟩ := hstored hash hmem
      exact ⟨script, hhash, hscript, .inl (s.shared.has_putRecords hform hscript hheld)⟩
    have hheight' : (s.shared.putRecords records).db.indexedBlockHeight = some current := by
      rw [← hheight]
      unfold IndexShared.putRecords
      split <;> rfl
    have hcovered' : CoveredUpTo env (s.shared.putRecords records).db current :=
      fun j hj script hmem hscript => hkept script hscript (hcovered j hj script hmem hscript)
    refine ⟨h.marked.mono hkept (putRecords_files s.shared records),
      fun _ => ⟨current, hheight', hcovered'⟩, ?_, ⟨current, hheight', hcovered'⟩, ?_⟩
    · dsimp only
      rw [putRecords_filter]
      exact hstored'
    · intro j hj script hmem hscript
      rcases Nat.le_succ_iff.mp hj with hold | rfl
      · exact hcovered' j hold script hmem hscript
      · rw [List.append_nil] at hsplit
        rw [hsplit] at hmem
        obtain ⟨found, hhash, hfound, hhas | hin⟩ := hstored' _ (hfiltered script hmem hscript)
        · exact script_eq hfound hscript hhash ▸ hhas
        · cases hin
  · cases hstep

theorem IndexInv.rpcHeight (h : IndexInv env s) (hstep : s.step env .rpcHeight = some s') :
    IndexInv env s' := by
  have hphase := h.phase
  dsimp only [IndexState.step] at hstep
  split at hstep
  · next height latest hrpc =>
    rw [hrpc] at hphase
    obtain ⟨hstored, -, hcovered⟩ := hphase
    cases hstep
    exact ⟨h.marked, fun _ => ⟨height, rfl, hcovered⟩,
      phaseInv_rpcNext hstored rfl hcovered⟩
  · cases hstep

theorem IndexInv.step (h : IndexInv env s) {event : IndexEvent}
    (hexact : ExactStep env s event) (hstep : s.step env event = some s') : IndexInv env s' := by
  cases event with
  | newBlkFile =>
    cases hstep
    exact h.newBlkFile
  | restart =>
    cases hstep
    exact h.restart
  | begin => exact h.begin hexact hstep
  | file fileIndex event => exact h.file hexact hstep
  | sort => exact h.sort hstep
  | markAll => exact h.markAll hstep
  | rpcBegin latest => exact h.rpcBegin hstep
  | rpcOutput => exact h.rpcOutput hexact hstep
  | rpcPut => exact h.rpcPut hstep
  | rpcHeight => exact h.rpcHeight hstep

/-- All steps of a run meet the condition. -/
def ExactRun (env : AddressEnv) : IndexState → List IndexEvent → Prop
  | _, [] => True
  | s, event :: events => ExactStep env s event ∧
      ∀ s', s.step env event = some s' → ExactRun env s' events

theorem IndexInv.run (h : IndexInv env s) {events : List IndexEvent}
    (hexact : ExactRun env s events) (hrun : s.run env events = some s') : IndexInv env s' := by
  induction events generalizing s with
  | nil =>
    cases hrun
    exact h
  | cons event events ih =>
    obtain ⟨next, hstep, hrun⟩ := Option.bind_eq_some_iff.mp hrun
    exact ih (h.step hexact.1 hstep) (hexact.2 next hstep) hrun

theorem IndexInv.opened (env : AddressEnv) (latestBlkFile : Nat) :
    IndexInv env (.opened latestBlkFile .empty) where
  marked i hi := by
    simp [IndexState.opened, AddressDB.isFileIndexed, AddressDB.empty] at hi
  covered hall := by cases hall
  phase := rfl

/-- After `build_index` has returned `Ok`, in whatever order the files were processed and
however often the process was started again, every script up to the indexed height is found
by its hash, when all steps met the condition. -/
theorem buildIndex_complete (env : AddressEnv) {latestBlkFile : Nat} {events : List IndexEvent}
    {s : IndexState} (hexact : ExactRun env (.opened latestBlkFile .empty) events)
    (hrun : (IndexState.opened latestBlkFile .empty).run env events = some s)
    (hok : s.phase = .ok) :
    ∃ indexed, s.shared.db.indexedBlockHeight = some indexed ∧ ∀ height ≤ indexed,
      ∀ script ∈ outputScripts (env.chain height), script.isOpReturn = false →
        s.shared.db.getAddress script.usdbScriptHash = some script := by
  have hphase := ((IndexInv.opened env latestBlkFile).run hexact hrun).phase
  rw [hok] at hphase
  exact hphase

end States

section Sample

def sampleCoinbase : Transaction where
  txid := 1
  isCoinbase := true
  input := [⟨0, 0⟩]
  output := [⟨30, ⟨5, false⟩⟩, ⟨20, ⟨6, false⟩⟩]

def payTo (hash : USDBScriptHash) : Transaction where
  txid := hash
  isCoinbase := true
  input := [⟨0, 0⟩]
  output := [⟨50, ⟨hash, false⟩⟩]

/-- The block after the one with this hash; the genesis block follows the hash 0. -/
def sampleBlock (prevBlockhash : BlockHash) : Block where
  blockHash := prevBlockhash + 1
  prevBlockhash
  txdata := if prevBlockhash = 0 then [sampleCoinbase] else [payTo (prevBlockhash + 6)]

def sampleChain (height : Nat) : Block := sampleBlock (Fin.ofNat (2 ^ 256) height)

theorem sampleBlock_injective {prev prev' : BlockHash}
    (h : (sampleBlock prev).blockHash = (sampleBlock prev').blockHash) : prev = prev' :=
  add_right_cancel (show prev + 1 = prev' + 1 from h)

/-- Blk files with these blocks of the chain in them. -/
def sampleEnv (files : Nat → List BlockHash)
    (mayContain : List USDBScriptHash → USDBScriptHash → Bool) : AddressEnv where
  blkFile i := (files i).map sampleBlock
  chain := sampleChain
  mayContain
  overflowChecks := true
  genesis_prev := rfl
  chain_prev height := by
    show Fin.ofNat (2 ^ 256) (height + 1) = Fin.ofNat (2 ^ 256) height + 1
    exact Fin.ext (by simp [Fin.val_add])
  hash_injective i block hmem height hhash := by
    obtain ⟨prev, -, rfl⟩ := List.mem_map.mp hmem
    exact congrArg sampleBlock (sampleBlock_injective hhash)

theorem sampleEnv_follows {files : Nat → List BlockHash}
    (mayContain : List USDBScriptHash → USDBScriptHash → Bool) {total : Nat}
    (hgenesis : 0 ∈ files 0) (h : 0 < total) :
    FilesFollowChain (sampleEnv files mayContain) total where
  start := ⟨sampleBlock 0, ⟨0, h, List.mem_map_of_mem hgenesis⟩, rfl⟩
  lone height block _ hblock hprev _ := by
    obtain ⟨i, -, hmem⟩ := hblock
    obtain ⟨prev, -, rfl⟩ := List.mem_map.mp hmem
    exact congrArg sampleBlock hprev

/-- One complete blk file with one block. -/
def oneFile (i : Nat) : List BlockHash := if i = 0 then [0] else []

/-- The filter answers for script hash 6 as soon as it has script hash 5. -/
def collision (inserted : List USDBScriptHash) (hash : USDBScriptHash) : Bool :=
  hash ∈ inserted || (hash = 6 && 5 ∈ inserted)

/-- The first file is indexed, and the node has no block above it. -/
def sampleEvents : List IndexEvent :=
  [.begin, .file 0 .begin, .file 0 .readBlock, .file 0 .scanOutput, .file 0 .scanOutput,
    .file 0 .putRecords, .file 0 .mark, .sort, .markAll, .rpcBegin 0]

def IndexPhase.isOk : IndexPhase → Bool
  | .ok => true
  | _ => false

theorem IndexPhase.eq_ok {phase : IndexPhase} (h : phase.isOk = true) : phase = .ok := by
  cases phase with
  | ok => rfl
  | _ => cases h

/-- A script that the filter wrongly answers for is lost: `build_index` returns `Ok` with its
block indexed, and it is not found. -/
theorem buildIndex_loses_falsePositive :
    (∀ inserted hash, hash ∈ inserted → collision inserted hash = true) ∧
      FilesFollowChain (sampleEnv oneFile collision) 1 ∧
      ∃ s, (IndexState.opened 1 .empty).run (sampleEnv oneFile collision) sampleEvents = some s ∧
        s.phase = .ok ∧ s.shared.db.indexedBlockHeight = some 0 ∧
        ⟨6, false⟩ ∈ outputScripts ((sampleEnv oneFile collision).chain 0) ∧
        s.shared.db.getAddress 6 = none := by
  have hrun : ((IndexState.opened 1 .empty).run (sampleEnv oneFile collision) sampleEvents).map
      (fun s => (s.phase.isOk, s.shared.db.indexedBlockHeight, s.shared.db.getAddress 6)) =
        some (true, some 0, none) := by decide +kernel
  obtain ⟨s, hs, hdata⟩ := Option.map_eq_some_iff.mp hrun
  simp only [Prod.mk.injEq] at hdata
  obtain ⟨hok, hheight, haddress⟩ := hdata
  refine ⟨fun inserted hash hmem => ?_, sampleEnv_follows collision (by decide) Nat.one_pos, s, hs,
    IndexPhase.eq_ok hok, hheight, by decide, haddress⟩
  simp [collision, hmem]

def exactFilter (inserted : List USDBScriptHash) (hash : USDBScriptHash) : Bool := hash ∈ inserted

theorem latestBlkFile_step {s s' : IndexState} {event : IndexEvent}
    (hstep : s.step env event = some s') : s.latestBlkFile ≤ s'.latestBlkFile := by
  cases event <;> dsimp only [IndexState.step] at hstep
  case newBlkFile =>
    cases hstep
    exact Nat.le_succ _
  case file fileIndex event =>
    split at hstep
    · split at hstep
      · obtain ⟨_, -, hstep⟩ := Option.bind_eq_some_iff.mp hstep
        cases hstep
        exact Nat.le_refl _
      · cases hstep
    · cases hstep
  case sort =>
    split at hstep
    · split at hstep
      · obtain ⟨_, -, hstep⟩ := Option.bind_eq_some_iff.mp hstep
        cases hstep
        exact Nat.le_refl _
      · cases hstep
    · cases hstep
  all_goals grind [IndexState.opened]

section Exact

variable {files : Nat → List BlockHash}

theorem sampleEnv_exact {s : IndexState} {event : IndexEvent} (hgenesis : 0 ∈ files 0)
    (h : 0 < s.latestBlkFile) : ExactStep (sampleEnv files exactFilter) s event := by
  have hexact : ∀ filter script, ExactFor (sampleEnv files exactFilter).mayContain filter script :=
    fun _ _ _ hcheck => of_decide_eq_true hcheck
  cases event with
  | begin => exact fun _ => sampleEnv_follows exactFilter hgenesis h
  | file fileIndex event =>
    dsimp only [ExactStep]
    split
    · unfold ExactFile
      split
      · exact hexact _ _
      · trivial
    · trivial
  | rpcOutput =>
    dsimp only [ExactStep]
    split
    · exact hexact _ _
    · trivial
  | _ => trivial

theorem sampleEnv_exactRun {s : IndexState} (events : List IndexEvent) (hgenesis : 0 ∈ files 0)
    (h : 0 < s.latestBlkFile) : ExactRun (sampleEnv files exactFilter) s events := by
  induction events generalizing s with
  | nil => trivial
  | cons event events ih =>
    exact ⟨sampleEnv_exact hgenesis h,
      fun _ hstep => ih (Nat.lt_of_lt_of_le h (latestBlkFile_step hstep))⟩

end Exact

/-- The blocks of the first two files are out of order. -/
def twoFiles : Nat → List BlockHash
  | 0 => [0, 2]
  | 1 => [1]
  | _ => []

/-- Both files are scanned, and the process ends when the first of them is indexed. The next
one reads them again and goes on with a block of the node. -/
def restartEvents : List IndexEvent :=
  [.begin, .file 1 .begin, .file 0 .begin, .file 0 .readBlock, .file 1 .readBlock,
    .file 0 .scanOutput, .file 1 .scanOutput, .file 0 .scanOutput, .file 0 .readBlock,
    .file 0 .scanOutput, .file 0 .putRecords, .file 0 .mark, .restart,
    .begin, .file 0 .begin, .file 0 .readBlock, .file 1 .begin, .file 1 .readBlock,
    .file 0 .readBlock, .file 0 .putRecords, .file 1 .scanOutput, .file 1 .putRecords,
    .file 1 .mark, .file 0 .mark, .sort, .markAll, .rpcBegin 3, .rpcOutput, .rpcPut, .rpcHeight]

theorem buildIndex_complete_sample :
    ∃ s, (IndexState.opened 2 .empty).run (sampleEnv twoFiles exactFilter) restartEvents = some s ∧
      s.shared.db.indexedBlockHeight = some 3 ∧
      ∃ indexed, s.shared.db.indexedBlockHeight = some indexed ∧ ∀ height ≤ indexed,
        ∀ script ∈ outputScripts (sampleChain height), script.isOpReturn = false →
          s.shared.db.getAddress script.usdbScriptHash = some script := by
  have hrun : ((IndexState.opened 2 .empty).run (sampleEnv twoFiles exactFilter)
      restartEvents).map (fun s => (s.phase.isOk, s.shared.db.indexedBlockHeight)) =
        some (true, some 3) := by decide +kernel
  obtain ⟨s, hs, hdata⟩ := Option.map_eq_some_iff.mp hrun
  obtain ⟨hok, hheight⟩ := Prod.mk.inj hdata
  exact ⟨s, hs, hheight, buildIndex_complete (sampleEnv twoFiles exactFilter)
    (sampleEnv_exactRun restartEvents (by decide) (by decide)) hs (IndexPhase.eq_ok hok)⟩

end Sample

end Usdb.Balances
