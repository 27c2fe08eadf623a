import Usdb.Balances.LedgerAgreement

namespace Usdb.Balances

open Framework Unspent BalanceHistoryDB

section Queries

def maxScriptResolutionItems : Nat := 1000

structure ResolveScriptHashesParams where
  scriptHashes : List USDBScriptHash
  includeScriptPubkey : Option Bool

/-- What the Bitcoin library reads off the bytes of a script, for the network of the
service. -/
structure ScriptLibrary where
  network : String
  addressFromScript : ScriptBuf → Option String
  encodeHex : ScriptBuf → String
  isP2tr : ScriptBuf → Bool
  isP2wpkh : ScriptBuf → Bool
  isP2wsh : ScriptBuf → Bool
  isP2sh : ScriptBuf → Bool
  isP2pkh : ScriptBuf → Bool

structure ScriptHashResolution where
  scriptHash : USDBScriptHash
  found : Bool
  scriptPubkey : Option String
  address : Option String
  addressType : Option String
  standard : Bool
deriving DecidableEq, Repr

structure ScriptHashResolutionResponse where
  network : String
  items : List ScriptHashResolution
deriving DecidableEq, Repr

inductive ScriptResolutionError
  | invalidParams (message : String)
deriving DecidableEq, Repr

namespace BalanceHistoryDB

def getScriptRegistryEntry (db : BalanceHistoryDB) (scriptHash : USDBScriptHash) :
    Option ScriptBuf :=
  db.scriptRegistry[scriptHash]?

def getScriptRegistryEntries (db : BalanceHistoryDB) (scriptHashes : List USDBScriptHash) :
    List (Option ScriptBuf) :=
  scriptHashes.map db.getScriptRegistryEntry

end BalanceHistoryDB

def validateScriptResolutionParams (params : ResolveScriptHashesParams) :
    Except ScriptResolutionError Unit :=
  if params.scriptHashes.length > maxScriptResolutionItems then
    .error (.invalidParams (s!"script_hashes length {params.scriptHashes.length} " ++
      s!"exceeds maximum {maxScriptResolutionItems}"))
  else .ok ()

def classifyScript (library : ScriptLibrary) (script : ScriptBuf) : String :=
  if library.isP2tr script then "p2tr"
  else if library.isP2wpkh script then "p2wpkh"
  else if library.isP2wsh script then "p2wsh"
  else if library.isP2sh script then "p2sh"
  else if library.isP2pkh script then "p2pkh"
  else if script.isOpReturn then "op_return"
  else "non_standard"

/-- The answer for one script hash. -/
def resolution (library : ScriptLibrary) (includeScriptPubkey : Bool)
    (scriptHash : USDBScriptHash) : Option ScriptBuf → ScriptHashResolution
  | none => ⟨scriptHash, false, none, none, none, false⟩
  | some scriptPubkey => {
      scriptHash
      found := true
      scriptPubkey := if includeScriptPubkey then some (library.encodeHex scriptPubkey) else none
      address := library.addressFromScript scriptPubkey
      addressType := some (classifyScript library scriptPubkey)
      standard := (library.addressFromScript scriptPubkey).isSome }

def resolveScriptHashes (library : ScriptLibrary) (db : BalanceHistoryDB)
    (params : ResolveScriptHashesParams) :
    Except ScriptResolutionError ScriptHashResolutionResponse := do
  validateScriptResolutionParams params
  let includeScriptPubkey := params.includeScriptPubkey.getD false
  let entries := db.getScriptRegistryEntries params.scriptHashes
  return {
    network := library.network
    items := (params.scriptHashes.zip entries).map (fun (scriptHash, scriptPubkey) =>
      resolution library includeScriptPubkey scriptHash scriptPubkey) }

/-- A request of at most 1000 script hashes is answered in its order. -/
theorem resolveScriptHashes_ok (library : ScriptLibrary) (db : BalanceHistoryDB)
    {params : ResolveScriptHashesParams}
    (hlen : params.scriptHashes.length ≤ maxScriptResolutionItems) :
    resolveScriptHashes library db params = .ok {
      network := library.network
      items := params.scriptHashes.map (fun scriptHash =>
        resolution library (params.includeScriptPubkey.getD false) scriptHash
          (db.getScriptRegistryEntry scriptHash)) } := by
  have hvalid : validateScriptResolutionParams params = .ok () := if_neg (Nat.not_lt.mpr hlen)
  have hzip : params.scriptHashes.zip (db.getScriptRegistryEntries params.scriptHashes) =
      params.scriptHashes.map (fun scriptHash =>
        (scriptHash, db.getScriptRegistryEntry scriptHash)) :=
    List.map_prod_left_eq_zip.symm
  unfold resolveScriptHashes
  rw [hvalid]
  dsimp only
  rw [hzip, List.map_map]
  rfl

end Queries

section Registry

variable {db db' : BalanceHistoryDB} {scriptHash : USDBScriptHash} {scriptPubkey : ScriptBuf}

/-- The registry has a script under its own hash only. -/
def NamesScripts (db : BalanceHistoryDB) : Prop :=
  ∀ scriptHash scriptPubkey, db.getScriptRegistryEntry scriptHash = some scriptPubkey →
    scriptPubkey = ⟨scriptHash, false⟩

/-- The registry has the scripts of some blocks. -/
def RegistersScripts (db : BalanceHistoryDB) (blocks : List Block) : Prop :=
  ∀ block ∈ blocks, ∀ entry ∈ scriptRegistryEntries block,
    db.getScriptRegistryEntry entry.scriptHash = some entry.scriptPubkey

/-- The second registry has what the first one has. -/
def KeepsScripts (db db' : BalanceHistoryDB) : Prop :=
  ∀ scriptHash scriptPubkey, db.getScriptRegistryEntry scriptHash = some scriptPubkey →
    db'.getScriptRegistryEntry scriptHash = some scriptPubkey

theorem NamesScripts.empty : NamesScripts .empty := by
  intro scriptHash scriptPubkey h
  cases h

theorem RollbackSteps.scriptRegistry_eq (hs : RollbackSteps db db') :
    db'.scriptRegistry = db.scriptRegistry := by
  induction hs with
  | refl => rfl
  | tail _ step ih =>
    rw [← ih]
    cases step with
    | markers m => rfl
    | revert bundle found => rfl

theorem PruneStep.scriptRegistry_eq {minRetainedHeight : Nat}
    (hs : PruneStep db minRetainedHeight db') : db'.scriptRegistry = db.scriptRegistry := by
  cases hs with
  | skip => rfl
  | prune supportedFrom supported => rfl

theorem KeepsScripts.of_eq (h : db'.scriptRegistry = db.scriptRegistry) : KeepsScripts db db' := by
  intro scriptHash scriptPubkey hget
  unfold getScriptRegistryEntry at hget ⊢
  rw [h]
  exact hget

theorem NamesScripts.of_eq (hn : NamesScripts db) (h : db'.scriptRegistry = db.scriptRegistry) :
    NamesScripts db' := by
  intro scriptHash scriptPubkey hget
  apply hn
  unfold getScriptRegistryEntry at hget ⊢
  rw [← h]
  exact hget

/-- A batch writes its scripts under their hashes, so what it writes over is the same. -/
theorem NamesScripts.update {update : BlockStateUpdateBatch} (hn : NamesScripts db)
    (hall : ∀ entry ∈ update.scriptRegistryEntries, entry.Named) :
    NamesScripts (db.updateBlockState update) ∧ KeepsScripts db (db.updateBlockState update) ∧
      ∀ entry ∈ update.scriptRegistryEntries,
        (db.updateBlockState update).getScriptRegistryEntry entry.scriptHash =
          some entry.scriptPubkey := by
  have hcases : ∀ scriptHash,
      (∃ entry ∈ update.scriptRegistryEntries, entry.scriptHash = scriptHash ∧
        (db.updateBlockState update).getScriptRegistryEntry scriptHash =
          some entry.scriptPubkey) ∨
      ((∀ entry ∈ update.scriptRegistryEntries, entry.scriptHash ≠ scriptHash) ∧
        (db.updateBlockState update).getScriptRegistryEntry scriptHash =
          db.getScriptRegistryEntry scriptHash) := by
    intro scriptHash
    rcases Table.getElem?_insertMany_cases db.scriptRegistry (update.scriptRegistryEntries.map
      (fun entry => (entry.scriptHash, entry.scriptPubkey))) scriptHash with
      ⟨scriptPubkey, hrow, hget⟩ | ⟨hnot, hget⟩
    · obtain ⟨entry, hentry, heq⟩ := List.mem_map.mp hrow
      cases heq
      exact .inl ⟨entry, hentry, rfl, hget⟩
    · refine .inr ⟨fun entry hentry heq => hnot ?_, hget⟩
      rw [List.map_map, List.mem_map]
      exact ⟨entry, hentry, heq⟩
  refine ⟨?_, ?_, ?_⟩
  · intro scriptHash scriptPubkey hget
    rcases hcases scriptHash with ⟨entry, hentry, rfl, hnew⟩ | ⟨-, hold⟩
    · rw [hnew] at hget
      cases hget
      exact hall entry hentry
    · rw [hold] at hget
      exact hn scriptHash scriptPubkey hget
  · intro scriptHash scriptPubkey hget
    rcases hcases scriptHash with ⟨entry, hentry, rfl, hnew⟩ | ⟨-, hold⟩
    · rw [hnew, hall entry hentry, hn _ _ hget]
    · rw [hold]
      exact hget
  · intro entry hentry
    rcases hcases entry.scriptHash with ⟨written, hwritten, hhash, hnew⟩ | ⟨hnot, -⟩
    · rw [hnew, hall written hwritten, hall entry hentry, hhash]
    · exact absurd rfl (hnot entry hentry)

end Registry

section Shown

variable {blocks : List Block} {outpoint : OutPoint} {value : UTXOValue}

/-- Some output of the blocks that can be spent is locked by a script. -/
def LockedBy (blocks : List Block) (scriptHash : USDBScriptHash) : Prop :=
  ∃ block ∈ blocks, ∃ entry ∈ scriptRegistryEntries block, entry.scriptHash = scriptHash

theorem lockedBy_of_created (h : (outpoint, value) ∈ createdBy (chainTransfers blocks)) :
    LockedBy blocks value.scriptHash := by
  obtain ⟨transfer, htransfer, hcreated⟩ := List.mem_flatMap.mp h
  obtain ⟨block, hblock, hmem⟩ := List.mem_flatMap.mp htransfer
  obtain ⟨tx, htx, rfl⟩ := List.mem_map.mp hmem
  obtain ⟨⟨vout, n⟩, hvout, hrow⟩ := List.mem_filterMap.mp hcreated
  refine ⟨block, hblock, ⟨vout.scriptPubkey.usdbScriptHash, vout.scriptPubkey⟩, ?_, ?_⟩
  · refine List.mem_flatMap.mpr ⟨tx, htx, List.mem_filterMap.mpr ⟨vout, ?_, ?_⟩⟩
    · exact (List.mem_zipIdx' hvout).2 ▸ List.getElem_mem _
    · dsimp only at hrow
      split at hrow
      · cases hrow
      · rename_i hspendable
        exact if_neg hspendable
  · dsimp only at hrow
    split at hrow
    · cases hrow
    · cases hrow
      rfl

theorem lockedBy_of_balance {scriptHash : USDBScriptHash} {height : Nat}
    (h : 0 < balanceAt blocks scriptHash height) : LockedBy blocks scriptHash := by
  obtain ⟨weight, hweight, hpos⟩ := List.sum_pos_iff_exists_pos_nat.mp h
  obtain ⟨⟨outpoint, value⟩, hrow, rfl⟩ := List.mem_map.mp hweight
  have hcreated := (List.mem_filter.mp hrow).1
  have hscript : value.scriptHash = scriptHash := by
    by_contra hne
    unfold owned at hpos
    rw [if_neg hne] at hpos
    exact absurd hpos (Nat.lt_irrefl 0)
  obtain ⟨block, hblock, hlocked⟩ := lockedBy_of_created hcreated
  rw [hscript] at hlocked
  exact ⟨block, List.mem_of_mem_take hblock, hlocked⟩

/-- What a store shows of a script hash: an output of its chain, one of its table, or a
positive balance at some height. -/
inductive ShowsScript (node : BlockHash → Block) (db : BalanceHistoryDB)
    (scriptHash : USDBScriptHash) : Prop
  | output (locked : LockedBy (db.chain node) scriptHash)
  | utxo (outpoint : OutPoint) (value : UTXOValue) (held : db.getUtxo outpoint = some value)
      (owner : value.scriptHash = scriptHash)
  | balance (height : Nat) (positive : 0 < (db.getBalanceAtBlockHeight scriptHash height).balance)

/-- All that a ledger shows of a script hash comes from an output of the chain. -/
theorem LedgerKept.lockedBy {sha256 : Sha256} {node : BlockHash → Block} {db : BalanceHistoryDB}
    {scriptHash : USDBScriptHash} (h : LedgerKept sha256 node .genesis db)
    (hs : ShowsScript node db scriptHash) : LockedBy (db.chain node) scriptHash := by
  obtain ⟨deltas, hholds⟩ := h.holds
  cases hs with
  | output locked => exact locked
  | utxo outpoint value held owner =>
    subst owner
    rw [hholds.utxos, ← mem_leftOver h.valid.spends] at held
    exact lockedBy_of_created (List.mem_filter.mp held).1
  | balance height positive =>
    rw [hholds.balance_eq scriptHash (Nat.zero_le height)] at positive
    exact lockedBy_of_balance positive

end Shown

namespace Service

variable {config : SyncConfig} {sha256 : Sha256} {node : BlockHash → Block}
  {cond : Service → Label → Prop} {w₀ w w' : Service} {l : Label}

/-- No step loses or changes a script of the registry: a rollback leaves it alone. -/
theorem namesScripts_step (hn : NamesScripts w.state.db) (hs : Step config w l w') :
    NamesScripts w'.state.db ∧ KeepsScripts w.state.db w'.state.db := by
  have hstore := hs.storeStep
  generalize w'.state.db = db at hstore
  cases hstore with
  | same => exact ⟨hn, .of_eq rfl⟩
  | rollback steps => exact ⟨hn.of_eq steps.scriptRegistry_eq, .of_eq steps.scriptRegistry_eq⟩
  | batch syncing le run prune =>
    obtain ⟨hnames, hkeeps, -⟩ := hn.update (fun entry hentry =>
      named_of_mem (List.mem_flatMap.mpr (run.mem_scriptRegistryEntries.mp hentry)))
    refine ⟨hnames.of_eq prune.scriptRegistry_eq, ?_⟩
    intro scriptHash scriptPubkey hget
    exact KeepsScripts.of_eq prune.scriptRegistry_eq _ _ (hkeeps _ _ hget)

theorem Run.namesScripts (h : Run config cond w₀ w) (hn : NamesScripts w₀.state.db) :
    NamesScripts w.state.db ∧ KeepsScripts w₀.state.db w.state.db := by
  apply h.induct (P := fun w => NamesScripts w.state.db ∧ KeepsScripts w₀.state.db w.state.db)
    ⟨hn, fun _ _ hget => hget⟩
  rintro w l w' ⟨hnames, hkeeps⟩ - hs
  obtain ⟨hnames', hkeeps'⟩ := namesScripts_step hnames hs
  exact ⟨hnames', fun scriptHash scriptPubkey hget => hkeeps' _ _ (hkeeps _ _ hget)⟩

/-- A step brings at most the blocks of a batch to the chain, and registers their scripts. -/
theorem registersScripts_step (h : LedgerKept sha256 node .genesis w.state.db)
    (hk : CachesKept w) (hn : NamesScripts w.state.db)
    (hr : RegistersScripts w.state.db (w.state.db.chain node)) (hc : ExtendsChain sha256 node w l)
    (hs : Step config w l w') :
    RegistersScripts w'.state.db (w'.state.db.chain node) := by
  have hkeeps := (namesScripts_step hn hs).2
  have hstore := hs.storeStep
  generalize w'.state.db = db at hstore hkeeps
  cases hstore with
  | same => exact hr
  | rollback steps =>
    obtain ⟨-, height, hchain⟩ := h.rollbackSteps steps
    rw [hchain]
    intro block hblock entry hentry
    exact hkeeps _ _ (hr block (List.mem_of_mem_take hblock) entry hentry)
  | batch syncing le run prune =>
    rw [(ledgerKept_batch h hk hc syncing run prune).2]
    obtain ⟨-, -, hnew⟩ := hn.update (fun entry hentry =>
      named_of_mem (List.mem_flatMap.mpr (run.mem_scriptRegistryEntries.mp hentry)))
    intro block hblock entry hentry
    rcases List.mem_append.mp hblock with hold | hblock
    · exact hkeeps _ _ (hr block hold entry hentry)
    · exact KeepsScripts.of_eq prune.scriptRegistry_eq _ _
        (hnew entry (run.mem_scriptRegistryEntries.mpr ⟨block, hblock, hentry⟩))

theorem Run.registersScripts (h : Run config (ExtendsChain sha256 node) initial w) :
    LedgerKept sha256 node .genesis w.state.db ∧ NamesScripts w.state.db ∧
      RegistersScripts w.state.db (w.state.db.chain node) := by
  have hall : (LedgerKept sha256 node .genesis w.state.db ∧ CachesKept w) ∧
      NamesScripts w.state.db ∧ RegistersScripts w.state.db (w.state.db.chain node) := by
    apply h.induct (P := fun w => (LedgerKept sha256 node .genesis w.state.db ∧ CachesKept w) ∧
      NamesScripts w.state.db ∧ RegistersScripts w.state.db (w.state.db.chain node))
    · refine ⟨⟨.empty, .initial⟩, .empty, ?_⟩
      intro block hblock
      cases hblock
    · rintro w l w' ⟨⟨hledger, hk⟩, hn, hr⟩ hc hs
      exact ⟨⟨ledgerKept_step hledger hk hc hs, hk.step hc.markersCleared hs⟩,
        (namesScripts_step hn hs).1, registersScripts_step hledger hk hn hr hc hs⟩
  exact ⟨hall.1.1, hall.2⟩

/-- Whatever a process has once shown of a script hash, the hash resolves to its script
from then on, through any further steps, and a hash that resolves does so to its own
script. -/
theorem Run.scripts_resolve (config : SyncConfig) (sha256 : Sha256) (node : BlockHash → Block)
    (cond : Service → Label → Prop) (w w' : Service) (library : ScriptLibrary)
    (params : ResolveScriptHashesParams) (h : Run config (ExtendsChain sha256 node) initial w)
    (h' : Run config cond w w')
    (hlen : params.scriptHashes.length ≤ maxScriptResolutionItems) :
    ∃ response, resolveScriptHashes library w'.state.db params = .ok response ∧
      response.items.map (·.scriptHash) = params.scriptHashes ∧
      ∀ item ∈ response.items, (ShowsScript node w.state.db item.scriptHash → item.found = true) ∧
        (item.found = true → item = resolution library (params.includeScriptPubkey.getD false)
          item.scriptHash (some ⟨item.scriptHash, false⟩)) := by
  obtain ⟨hledger, hn, hr⟩ := h.registersScripts
  obtain ⟨hn', hkeeps⟩ := h'.namesScripts hn
  refine ⟨_, resolveScriptHashes_ok library w'.state.db hlen, ?_, ?_⟩
  · have hhash : ∀ (scriptHash : USDBScriptHash) (scriptPubkey : Option ScriptBuf),
        (resolution library (params.includeScriptPubkey.getD false) scriptHash
          scriptPubkey).scriptHash = scriptHash := by
      intro scriptHash scriptPubkey
      cases scriptPubkey <;> rfl
    rw [List.map_map]
    exact (List.map_congr_left (fun scriptHash _ => hhash scriptHash _)).trans (List.map_id _)
  · intro item hitem
    obtain ⟨scriptHash, -, rfl⟩ := List.mem_map.mp hitem
    cases hget : w'.state.db.getScriptRegistryEntry scriptHash with
    | some scriptPubkey =>
      have hscript : scriptPubkey = ⟨scriptHash, false⟩ := hn' _ _ hget
      rw [hscript]
      exact ⟨fun _ => rfl, fun _ => rfl⟩
    | none =>
      refine ⟨fun hshown => ?_, fun hfound => by cases hfound⟩
      obtain ⟨block, hblock, entry, hentry, hhash⟩ := hledger.lockedBy hshown
      have hfound := hkeeps _ _ (hr block hblock entry hentry)
      rw [hhash] at hfound
      exact absurd (hfound.symm.trans hget) (Option.some_ne_none _)

end Service

section OneBlock

/-- A library that knows no kind of script. -/
def plainLibrary : ScriptLibrary where
  network := "regtest"
  addressFromScript := fun _ => none
  encodeHex := fun script => toString script.usdbScriptHash
  isP2tr := fun _ => false
  isP2wpkh := fun _ => false
  isP2wsh := fun _ => false
  isP2sh := fun _ => false
  isP2pkh := fun _ => false

/-- The script of a block resolves after the block is rolled back, though the rollback
failed on its way. -/
theorem Service.scripts_resolve_pending :
    pendingService.state.db.getUtxo ⟨11, 0⟩ = none ∧
      ∃ response, resolveScriptHashes plainLibrary pendingService.state.db ⟨[7, 8], some true⟩ =
          .ok response ∧
        response.items.map (·.scriptHash) = [7, 8] ∧
        ∀ item ∈ response.items, item.scriptHash = 7 → item.found = true := by
  have hrun : Service.Run plainConfig (fun _ _ => True) firstBlockService pendingService :=
    (Service.Run.next (.refl _) .finish trivial ⟨1, rfl⟩).next (failedRollback 4) trivial rfl
  obtain ⟨response, hok, hhashes, hitems⟩ := Service.Run.scripts_resolve plainConfig
    (fun _ => []) oneBlockNode (fun _ _ => True) firstBlockService pendingService plainLibrary
    ⟨[7, 8], some true⟩ (firstBlockService_ledgerRun rfl) hrun (by decide)
  refine ⟨by decide, response, hok, hhashes, ?_⟩
  intro item hitem hhash
  exact (hitems item hitem).1 (.utxo ⟨11, 0⟩ ⟨50, 7⟩ (by decide) hhash.symm)

end OneBlock

end Usdb.Balances
