import Usdb.Balance.Settlement
import Usdb.Framework.JoinSet
import Usdb.Framework.Paging

namespace Usdb

open Framework Paging JoinSet

/-- Why the balances were not loaded. -/
inductive BalanceRpcError
  | batchSizeMismatch (blockHeight batchIndex requested got : Nat)
  | notExactlyOneItem (blockHeight batchIndex : Nat) (scriptHash : USDBScriptHash) (got : Nat)
  | rpcFailed
  | rpcFailedAfterRetries (blockHeight batchIndex attempts : Nat)
  | rpcTimeoutAfterRetries (blockHeight batchIndex attempts timeoutMs : Nat)
  | unreachable
deriving DecidableEq, Repr

/-- How a query can go without an answer. -/
inductive RpcFault
  | failed
  | timedOut
deriving DecidableEq, Repr

/-- The upstream answers a batch of addresses at a height. -/
structure BalanceRpcBackend where
  getAddressesBalances : List USDBScriptHash → Nat → List (List AddressBalance)

abbrev BalanceRpcLoader :=
  List USDBScriptHash → Nat → Except BalanceRpcError (List (USDBScriptHash × AddressBalance))

/-- The answers belong to the addresses by their position. -/
def collectItems (blockHeight batchIndex : Nat) :
    List (USDBScriptHash × List AddressBalance) →
      Except BalanceRpcError (List (USDBScriptHash × AddressBalance))
  | [] => .ok []
  | (scriptHash, [item]) :: rest => do
    let entries ← collectItems blockHeight batchIndex rest
    return (scriptHash, item) :: entries
  | (scriptHash, items) :: _ =>
    .error (.notExactlyOneItem blockHeight batchIndex scriptHash items.length)

def collectBatchBalances (blockHeight batchIndex : Nat) (addresses : List USDBScriptHash)
    (balances : List (List AddressBalance)) :
    Except BalanceRpcError (List (USDBScriptHash × AddressBalance)) :=
  if balances.length ≠ addresses.length then
    .error (.batchSizeMismatch blockHeight batchIndex addresses.length balances.length)
  else collectItems blockHeight batchIndex (addresses.zip balances)

structure SerialBalanceLoader where
  backend : BalanceRpcBackend
  batchSize : Nat
  batchSize_pos : 0 < batchSize

structure ConcurrentBalanceLoader where
  backend : BalanceRpcBackend
  batchSize : Nat
  concurrency : Nat
  timeoutMs : Nat
  maxRetries : Nat
  batchSize_pos : 0 < batchSize
  concurrency_pos : 0 < concurrency
  timeoutMs_pos : 0 < timeoutMs

namespace SerialBalanceLoader

variable (loader : SerialBalanceLoader)

/-- Each batch is queried once, and `failed` says which query has no answer. -/
def loadBatch (failed : Nat → Bool) (blockHeight : Nat) (batch : List USDBScriptHash × Nat) :
    Except BalanceRpcError (List (USDBScriptHash × AddressBalance)) :=
  if failed batch.2 then .error .rpcFailed
  else collectBatchBalances blockHeight batch.2 batch.1
    (loader.backend.getAddressesBalances batch.1 blockHeight)

def loadBalances (failed : Nat → Bool) : BalanceRpcLoader := fun activeAddresses blockHeight =>
  runInOrder (loader.loadBatch failed blockHeight)
    (chunks loader.batchSize activeAddresses).zipIdx []

end SerialBalanceLoader

namespace ConcurrentBalanceLoader

variable (loader : ConcurrentBalanceLoader)

/-- `max_retries.saturating_add(1)` in 32 bits. -/
def maxAttempts : Nat := min (loader.maxRetries + 1) (2 ^ 32 - 1)

/-- The attempts at one batch. `calls` says which attempts have no answer, and why. -/
def queryBatchWithRetry (calls : Nat → Option RpcFault) (blockHeight batchIndex : Nat)
    (addresses : List USDBScriptHash) (attempt : Nat) :
    Nat → Except BalanceRpcError (List (List AddressBalance))
  | 0 => .error .unreachable
  | rounds + 1 =>
    match calls attempt with
    | none => .ok (loader.backend.getAddressesBalances addresses blockHeight)
    | some fault =>
      if loader.maxAttempts ≤ attempt then
        match fault with
        | .failed => .error (.rpcFailedAfterRetries blockHeight batchIndex attempt)
        | .timedOut =>
          .error (.rpcTimeoutAfterRetries blockHeight batchIndex attempt loader.timeoutMs)
      else queryBatchWithRetry calls blockHeight batchIndex addresses (attempt + 1) rounds

def loadBatch (calls : Nat → Nat → Option RpcFault) (blockHeight : Nat)
    (batch : List USDBScriptHash × Nat) :
    Except BalanceRpcError (List (USDBScriptHash × AddressBalance)) := do
  let balances ← loader.queryBatchWithRetry (calls batch.2) blockHeight batch.2 batch.1 1
    loader.maxAttempts
  collectBatchBalances blockHeight batch.2 batch.1 balances

/-- `pick` is the order in which the batches in flight complete. -/
def loadBalances (calls : Nat → Nat → Option RpcFault) (pick : Nat → Nat) : BalanceRpcLoader :=
  fun activeAddresses blockHeight =>
    let batches := (chunks loader.batchSize activeAddresses).zipIdx
    if batches = [] then .ok []
    else runAll (loader.loadBatch calls blockHeight) pick
      (max (min loader.concurrency batches.length) 1) batches

/-- Every batch is answered by some attempt. -/
def Answered (calls : Nat → Nat → Option RpcFault) : Prop :=
  ∀ batchIndex, ∃ attempt, 1 ≤ attempt ∧ attempt ≤ loader.maxAttempts ∧
    calls batchIndex attempt = none

end ConcurrentBalanceLoader

section Batches

variable {blockHeight batchIndex : Nat} {addresses : List USDBScriptHash}

/-- The entries of a batch, when each of its addresses has one item. -/
theorem collectItems_ok {items : List (USDBScriptHash × List AddressBalance)}
    {entries : List (USDBScriptHash × AddressBalance)}
    (h : collectItems blockHeight batchIndex items = .ok entries) :
    items = entries.map (fun e => (e.1, [e.2])) := by
  induction items generalizing entries with
  | nil =>
    cases h
    rfl
  | cons first rest ih =>
    obtain ⟨scriptHash, answers⟩ := first
    match answers with
    | [] => cases h
    | [item] =>
      obtain ⟨tail, hrest, h⟩ := bind_eq_ok_iff.mp h
      cases h
      rw [ih hrest]
      rfl
    | _ :: _ :: _ => cases h

theorem collectBatchBalances_ok {balances : List (List AddressBalance)}
    {entries : List (USDBScriptHash × AddressBalance)}
    (h : collectBatchBalances blockHeight batchIndex addresses balances = .ok entries) :
    addresses = entries.map (·.1) ∧ balances = entries.map (fun e => [e.2]) := by
  unfold collectBatchBalances at h
  split at h
  · cases h
  · rename_i hlen
    have hlen := not_not.mp hlen
    have hzip := collectItems_ok h
    have hfst := congrArg (List.map Prod.fst) hzip
    have hsnd := congrArg (List.map Prod.snd) hzip
    rw [List.map_fst_zip (Nat.le_of_eq hlen.symm), List.map_map] at hfst
    rw [List.map_snd_zip (Nat.le_of_eq hlen), List.map_map] at hsnd
    exact ⟨hfst, hsnd⟩

theorem ConcurrentBalanceLoader.queryBatchWithRetry_ok {loader : ConcurrentBalanceLoader}
    {calls : Nat → Option RpcFault} {attempt rounds : Nat} {balances : List (List AddressBalance)}
    (h : loader.queryBatchWithRetry calls blockHeight batchIndex addresses attempt rounds =
      .ok balances) :
    balances = loader.backend.getAddressesBalances addresses blockHeight := by
  induction rounds generalizing attempt with
  | zero => cases h
  | succ rounds ih =>
    unfold queryBatchWithRetry at h
    split at h
    · cases h
      rfl
    · split at h
      · split at h <;> cases h
      · exact ih h

/-- The attempts go on until one is answered. -/
theorem ConcurrentBalanceLoader.queryBatchWithRetry_answered {loader : ConcurrentBalanceLoader}
    {calls : Nat → Option RpcFault} {attempt rounds answered : Nat} (hfrom : attempt ≤ answered)
    (hto : answered ≤ loader.maxAttempts) (hrounds : answered < attempt + rounds)
    (hcall : calls answered = none) :
    loader.queryBatchWithRetry calls blockHeight batchIndex addresses attempt rounds =
      .ok (loader.backend.getAddressesBalances addresses blockHeight) := by
  induction rounds generalizing attempt with
  | zero => omega
  | succ rounds ih =>
    unfold queryBatchWithRetry
    cases hnow : calls attempt with
    | none => rfl
    | some fault =>
      have hne : attempt ≠ answered := by
        rintro rfl
        rw [hcall] at hnow
        cases hnow
      dsimp only
      rw [if_neg (by omega)]
      exact ih (by omega) (by omega)

end Batches

/-- The upstream answer for an address: the item at the address's own position in the
batch that asks for it. -/
def OwnAnswer (backend : BalanceRpcBackend) (batchSize blockHeight : Nat)
    (addresses : List USDBScriptHash) (address : USDBScriptHash) (answer : AddressBalance) : Prop :=
  ∃ batch ∈ chunks batchSize addresses, ∃ i : Nat, batch[i]? = some address ∧
    (backend.getAddressesBalances batch blockHeight)[i]? = some [answer]

/-- What a loader may give: for each address its own answer, in any order. -/
structure Loaded (backend : BalanceRpcBackend) (batchSize blockHeight : Nat)
    (addresses : List USDBScriptHash) (entries : List (USDBScriptHash × AddressBalance)) : Prop where
  answered : ∀ e ∈ entries, OwnAnswer backend batchSize blockHeight addresses e.1 e.2
  addresses : (entries.map (·.1)).Perm addresses

section Loaders

variable {backend : BalanceRpcBackend} {batchSize blockHeight : Nat}
  {activeAddresses : List USDBScriptHash} {entries : List (USDBScriptHash × AddressBalance)}
  {task : List USDBScriptHash × Nat →
    Except BalanceRpcError (List (USDBScriptHash × AddressBalance))}

/-- A task of either loader that succeeds has collected the answers to its batch. -/
def Collects (backend : BalanceRpcBackend) (blockHeight : Nat)
    (task : List USDBScriptHash × Nat →
      Except BalanceRpcError (List (USDBScriptHash × AddressBalance))) : Prop :=
  ∀ batch entries, task batch = .ok entries → collectBatchBalances blockHeight batch.2 batch.1
    (backend.getAddressesBalances batch.1 blockHeight) = .ok entries

/-- The entries of the batches in order. -/
def entriesInOrder (backend : BalanceRpcBackend) (batchSize blockHeight : Nat)
    (activeAddresses : List USDBScriptHash) : List (USDBScriptHash × AddressBalance) :=
  (chunks batchSize activeAddresses).zipIdx.flatMap (resultOf (fun batch =>
    collectBatchBalances blockHeight batch.2 batch.1
      (backend.getAddressesBalances batch.1 blockHeight)))

theorem SerialBalanceLoader.loadBatch_collects (loader : SerialBalanceLoader) (failed : Nat → Bool)
    (blockHeight : Nat) :
    Collects loader.backend blockHeight (loader.loadBatch failed blockHeight) := by
  intro batch entries h
  unfold loadBatch at h
  split at h
  · cases h
  · exact h

theorem ConcurrentBalanceLoader.loadBatch_collects (loader : ConcurrentBalanceLoader)
    (calls : Nat → Nat → Option RpcFault) (blockHeight : Nat) :
    Collects loader.backend blockHeight (loader.loadBatch calls blockHeight) := by
  intro batch entries h
  obtain ⟨balances, hquery, h⟩ := bind_eq_ok_iff.mp h
  rw [queryBatchWithRetry_ok hquery] at h
  exact h

theorem Collects.flatMap_eq (hc : Collects backend blockHeight task)
    (hall : ∀ batch ∈ (chunks batchSize activeAddresses).zipIdx,
      task batch = .ok (resultOf task batch)) :
    (chunks batchSize activeAddresses).zipIdx.flatMap (resultOf task) =
      entriesInOrder backend batchSize blockHeight activeAddresses := by
  unfold entriesInOrder
  rw [List.flatMap_def, List.flatMap_def]
  congr 1
  refine List.map_congr_left (fun batch hbatch => ?_)
  exact (resultOf_ok (hc batch _ (hall batch hbatch))).symm

/-- Where every batch is collected, the entries are the own answers of all addresses. -/
theorem Collects.loaded (hc : Collects backend blockHeight task) (hsize : 0 < batchSize)
    (hall : ∀ batch ∈ (chunks batchSize activeAddresses).zipIdx,
      task batch = .ok (resultOf task batch)) :
    Loaded backend batchSize blockHeight activeAddresses
      (entriesInOrder backend batchSize blockHeight activeAddresses) := by
  have hcollected := fun batch hbatch => collectBatchBalances_ok (hc batch _ (hall batch hbatch))
  rw [← hc.flatMap_eq hall]
  constructor
  · intro e he
    obtain ⟨batch, hbatch, he⟩ := List.mem_flatMap.mp he
    obtain ⟨haddresses, hbalances⟩ := hcollected batch hbatch
    obtain ⟨i, hi⟩ := List.mem_iff_getElem?.mp he
    have hmem : batch.1 ∈ chunks batchSize activeAddresses := by
      rw [← List.zipIdx_map_fst 0 (chunks batchSize activeAddresses)]
      exact List.mem_map_of_mem hbatch
    refine ⟨batch.1, hmem, i, ?_, ?_⟩
    · rw [haddresses, List.getElem?_map, hi]
      rfl
    · rw [hbalances, List.getElem?_map, hi]
      rfl
  · have hbatches : (chunks batchSize activeAddresses).zipIdx.flatMap
        (fun batch => (resultOf task batch).map (·.1)) =
        (chunks batchSize activeAddresses).zipIdx.flatMap (·.1) := by
      rw [List.flatMap_def, List.flatMap_def]
      congr 1
      exact List.map_congr_left (fun batch hbatch => (hcollected batch hbatch).1.symm)
    rw [List.map_flatMap, hbatches, List.flatMap_def, List.zipIdx_map_fst, flatten_chunks hsize]

theorem SerialBalanceLoader.loadBalances_ok {loader : SerialBalanceLoader} {failed : Nat → Bool}
    (h : loader.loadBalances failed activeAddresses blockHeight = .ok entries) :
    entries = entriesInOrder loader.backend loader.batchSize blockHeight activeAddresses ∧
      Loaded loader.backend loader.batchSize blockHeight activeAddresses entries := by
  obtain ⟨hall, hentries⟩ := runInOrder_ok h
  have hc := loader.loadBatch_collects failed blockHeight
  rw [List.nil_append, hc.flatMap_eq hall] at hentries
  rw [hentries]
  exact ⟨rfl, hc.loaded loader.batchSize_pos hall⟩

theorem ConcurrentBalanceLoader.loadBalances_eq (loader : ConcurrentBalanceLoader)
    (calls : Nat → Nat → Option RpcFault) (pick : Nat → Nat)
    (activeAddresses : List USDBScriptHash) (blockHeight : Nat) :
    loader.loadBalances calls pick activeAddresses blockHeight =
      runAll (loader.loadBatch calls blockHeight) pick
        (max (min loader.concurrency (chunks loader.batchSize activeAddresses).zipIdx.length) 1)
        (chunks loader.batchSize activeAddresses).zipIdx := by
  unfold loadBalances
  dsimp only
  split
  · rename_i hnil
    rw [hnil]
    rfl
  · rfl

theorem ConcurrentBalanceLoader.loadBalances_ok {loader : ConcurrentBalanceLoader}
    {calls : Nat → Nat → Option RpcFault} {pick : Nat → Nat}
    (h : loader.loadBalances calls pick activeAddresses blockHeight = .ok entries) :
    entries.Perm (entriesInOrder loader.backend loader.batchSize blockHeight activeAddresses) ∧
      Loaded loader.backend loader.batchSize blockHeight activeAddresses entries := by
  have hc := loader.loadBatch_collects calls blockHeight
  rw [loader.loadBalances_eq] at h
  obtain ⟨hall, hperm⟩ := runAll_ok (by omega) h
  rw [hc.flatMap_eq hall] at hperm
  have hloaded := hc.loaded loader.batchSize_pos hall
  exact ⟨hperm, fun e he => hloaded.answered e (hperm.mem_iff.mp he),
    (hperm.map _).trans hloaded.addresses⟩

theorem ConcurrentBalanceLoader.loadBatch_answered {loader : ConcurrentBalanceLoader}
    {calls : Nat → Nat → Option RpcFault} (h : loader.Answered calls) (blockHeight : Nat)
    (batch : List USDBScriptHash × Nat) :
    loader.loadBatch calls blockHeight batch = collectBatchBalances blockHeight batch.2 batch.1
      (loader.backend.getAddressesBalances batch.1 blockHeight) := by
  obtain ⟨attempt, hfrom, hto, hcall⟩ := h batch.2
  unfold loadBatch
  rw [queryBatchWithRetry_answered hfrom hto (by omega) hcall]
  rfl

/-- When the upstream answers both, one loader succeeds exactly if the other does. -/
theorem loadBalances_ok_iff {serial : SerialBalanceLoader} {concurrent : ConcurrentBalanceLoader}
    (hbackend : concurrent.backend = serial.backend)
    (hbatch : concurrent.batchSize = serial.batchSize) {failed : Nat → Bool}
    (hfailed : ∀ batchIndex, failed batchIndex = false) {calls : Nat → Nat → Option RpcFault}
    (hcalls : concurrent.Answered calls) (pick : Nat → Nat) :
    (∃ entries, serial.loadBalances failed activeAddresses blockHeight = .ok entries) ↔
      ∃ entries, concurrent.loadBalances calls pick activeAddresses blockHeight = .ok entries := by
  have htask : concurrent.loadBatch calls blockHeight = serial.loadBatch failed blockHeight := by
    funext batch
    rw [ConcurrentBalanceLoader.loadBatch_answered hcalls]
    unfold SerialBalanceLoader.loadBatch
    rw [hfailed, hbackend]
    rfl
  constructor
  · rintro ⟨entries, h⟩
    rw [concurrent.loadBalances_eq, htask, hbatch]
    exact runAll_of_ok (fun i hi => ⟨_, (runInOrder_ok h).1 i hi⟩)
  · rintro ⟨entries, h⟩
    rw [concurrent.loadBalances_eq, htask, hbatch] at h
    exact runInOrder_of_ok (fun i hi => ⟨_, (runAll_ok (by omega) h).1 i hi⟩)

end Loaders

end Usdb
