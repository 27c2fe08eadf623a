import Usdb.Balances.Service

namespace Usdb.Balances

open Framework BalanceHistoryDB

inductive SyncPhase
  | Initializing
  | Loading
  | Indexing
  | Synced
deriving DecidableEq, Repr

structure SyncStatus where
  phase : SyncPhase
  current : Nat
  total : Nat
deriving DecidableEq, Repr

structure RuntimeReadinessStatus where
  rpcAlive : Bool
  rollbackInProgress : Bool
  shutdownRequested : Bool
deriving DecidableEq, Repr

/-- What the store says about a snapshot it was installed from. -/
structure SnapshotInstall where
  used : Bool
  manifestVerified : Option Bool
deriving DecidableEq, Repr

/-- A running process: the store and the caches, the shared status, and whether the index
bar has been started. `lastCheck` is the common ancestor that the last completed reorg check
found and could not roll back to. -/
structure Node where
  history : HistoryState
  status : SyncStatus
  runtime : RuntimeReadinessStatus
  indexStarted : Bool
  snapshotInstall : SnapshotInstall
  lastCheck : Option Nat

inductive ReadinessBlocker
  | RpcNotListening
  | Initializing
  | Loading
  | RollbackInProgress
  | ShutdownRequested
  | CatchingUp
  | StableBlockHashMissing
  | LatestBlockCommitMissing
  | SnapshotInstallUnverified
deriving DecidableEq, Repr

structure ReadinessInfo where
  rpcAlive : Bool
  queryReady : Bool
  consensusReady : Bool
  phase : SyncPhase
  current : Nat
  total : Nat
  stableHeight : Nat
  stableBlockHash : Option BlockHash
  latestBlockCommit : Option (List UInt8)
  blockers : List ReadinessBlocker

namespace Node

/-- A process that has just opened a store. -/
def opened (db : BalanceHistoryDB) (snapshotInstall : SnapshotInstall) (lastCheck : Option Nat) :
    Node where
  history := .opened db
  status := ⟨.Initializing, 0, 0⟩
  runtime := ⟨false, false, false⟩
  indexStarted := false
  snapshotInstall
  lastCheck

def db (s : Node) : BalanceHistoryDB := s.history.db

def withFaults (s : Node) (faults : List IoResult) : Node :=
  { s with history := { s.history with faults } }

def readinessInfo (s : Node) : ReadinessInfo :=
  let stableHeight := s.db.getBtcBlockHeight
  let latestCommit := s.db.getBlockCommit stableHeight
  let stableBlockHash := latestCommit.map (·.btcBlockHash)
  let latestBlockCommit := latestCommit.map (·.blockCommit)
  let unverified := s.snapshotInstall.used && s.snapshotInstall.manifestVerified == some false
  let starting := s.status.phase == .Initializing || s.status.phase == .Loading
  let blockers :=
    (if s.runtime.rpcAlive then [] else [ReadinessBlocker.RpcNotListening]) ++
    (match s.status.phase with
      | .Initializing => [ReadinessBlocker.Initializing]
      | .Loading => [ReadinessBlocker.Loading]
      | .Indexing => []
      | .Synced => []) ++
    (if s.runtime.rollbackInProgress then [ReadinessBlocker.RollbackInProgress] else []) ++
    (if s.runtime.shutdownRequested then [ReadinessBlocker.ShutdownRequested] else []) ++
    (if s.status.phase = .Indexing ∧ 0 < s.status.total ∧ s.status.current < s.status.total then
      [ReadinessBlocker.CatchingUp] else []) ++
    (if stableBlockHash.isNone then [ReadinessBlocker.StableBlockHashMissing] else []) ++
    (if latestBlockCommit.isNone then [ReadinessBlocker.LatestBlockCommitMissing] else []) ++
    (if unverified then [ReadinessBlocker.SnapshotInstallUnverified] else [])
  let queryReady := s.runtime.rpcAlive && !s.runtime.rollbackInProgress &&
    !s.runtime.shutdownRequested && !starting
  { rpcAlive := s.runtime.rpcAlive
    queryReady
    consensusReady := queryReady && decide (s.status.total ≤ s.status.current) &&
      stableBlockHash.isSome && latestBlockCommit.isSome && !unverified
    phase := s.status.phase
    current := s.status.current
    total := s.status.total
    stableHeight
    stableBlockHash
    latestBlockCommit
    blockers }

/-- The store still has blocks above the common ancestor of the last completed check. -/
def Unresolved (s : Node) : Prop :=
  ∃ ancestor, s.lastCheck = some ancestor ∧ ancestor < s.db.getBtcBlockHeight

end Node

abbrev NodeM := EStateM BalanceHistoryError Node

/-- An update of the shared status. It does not fail, but the process may be killed
before it. -/
def report (f : Node → Node) : NodeM Unit := fun s =>
  match s.history.faults with
  | [] => .ok () (f s)
  | .crash :: rest => .error .panic (s.withFaults rest)
  | _ :: rest => .ok () (f (s.withFaults rest))

def onHistory {α : Type} (x : HistoryM α) : NodeM α := fun s =>
  match x s.history with
  | .ok a history => .ok a { s with history }
  | .error e history => .error e { s with history }

/-- A note made when a call returns an error, which it does not do when the process is
killed in it. -/
def onError {α : Type} (x : NodeM α) (f : Node → Node) : NodeM α := fun s =>
  match x s with
  | .ok a t => .ok a t
  | .error .panic t => .error .panic t
  | .error e t => .error e (f t)

namespace Node

def setRollbackInProgress (inProgress : Bool) : NodeM Unit :=
  report (fun s => { s with runtime := { s.runtime with rollbackInProgress := inProgress } })

def updatePhase (phase : SyncPhase) : NodeM Unit :=
  report (fun s => { s with status := { s.status with phase } })

def updateTotal (total : Nat) : NodeM Unit :=
  report (fun s => { s with status := { s.status with total } })

def updateCurrent (current : Nat) : NodeM Unit :=
  report (fun s => { s with status := { s.status with current } })

def startLoad (total : Nat) : NodeM Unit := do
  updatePhase .Loading
  updateTotal total

def startIndex (total current : Nat) : NodeM Unit := do
  modify (fun s => { s with indexStarted := true })
  updatePhase .Indexing
  updateTotal total
  updateCurrent current

def resumePendingRollbackIfNeeded : NodeM Bool := do
  if ← onHistory (readDb isRollbackInProgress) then
    setRollbackInProgress true
  let resumed ← onHistory resumeRollbackIfNeeded
  setRollbackInProgress false
  if resumed then
    onHistory clearCaches
  return resumed

def noteCheck (found : Option Nat) (s : Node) : Node := { s with lastCheck := found }

def reconcileReorgIfNeeded (answers : ReorgAnswers) (currentHeight latestBtcHeight : Nat) :
    NodeM Nat := do
  match ← onHistory (do liftExcept (findReorgCommonAncestorHeight (← readDb id) answers
      currentHeight latestBtcHeight)) with
  | none =>
    modify (noteCheck none)
    return currentHeight
  | some ancestorHeight =>
    setRollbackInProgress true
    onError (onHistory (rollbackToBlockHeight ancestorHeight)) (noteCheck (some ancestorHeight))
    setRollbackInProgress false
    onHistory clearCaches
    modify (noteCheck none)
    return ancestorHeight

/-- `sync_once` from the call for the height of the node to the first batch. -/
def checkReorg (latestBtcHeight : Option Nat) (answers : ReorgAnswers) : NodeM Unit := do
  match latestBtcHeight with
  | none => throw .io
  | some latestBtcHeight =>
    let lastSyncedHeight ← onHistory (readDb getBtcBlockHeight)
    let lastSyncedHeight ← reconcileReorgIfNeeded answers lastSyncedHeight latestBtcHeight
    if (← get).indexStarted then
      updateTotal latestBtcHeight
      updateCurrent lastSyncedHeight
    else
      startIndex latestBtcHeight lastSyncedHeight

def processBlockBatch (config : SyncConfig) (answers : BatchAnswers) (latestBtcHeight : Nat) :
    NodeM Unit := do
  onHistory (Balances.processBlockBatch config answers latestBtcHeight)
  updateCurrent (← onHistory (readDb getBtcBlockHeight))

/-- The end of a round of the run loop. -/
def finishRound : NodeM Unit := do
  updateCurrent (← onHistory (readDb getBtcBlockHeight))

end Node

/-- Where the sync thread stands: before a round, in a round after its pending rollback or
after its reorg check, or killed. What a query sees in the middle of a step is what the
process would leave if it were killed there. -/
inductive ThreadPhase
  | idle
  | resumed
  | syncing (latestBtcHeight : Nat)
  | killed
deriving DecidableEq, Repr

structure NodeRun where
  node : Node
  phase : ThreadPhase

inductive NodeLabel
  | resume (faults : List IoResult)
  | check (latestBtcHeight : Option Nat) (answers : ReorgAnswers) (faults : List IoResult)
  | batch (answers : BatchAnswers) (faults : List IoResult)
  | finish (faults : List IoResult)
  | load (total : Nat) (faults : List IoResult)
  | loaded (current : Nat) (faults : List IoResult)
  | evict (keepUtxo : OutPoint → Bool) (keepBalance : USDBScriptHash → Bool)
  | shrink (lastUtxos : List OutPoint) (lastBalances : List USDBScriptHash)
  | rpcAlive (alive : Bool)
  | requestShutdown
  | restart

namespace NodeRun

def opened (db : BalanceHistoryDB) (snapshotInstall : SnapshotInstall) : NodeRun :=
  ⟨.opened db snapshotInstall none, .idle⟩

def settle (result : EStateM.Result BalanceHistoryError Node Unit) (next failed : ThreadPhase) :
    NodeRun :=
  match result with
  | .ok _ s => ⟨s.withFaults [], next⟩
  | .error .panic s => ⟨s.withFaults [], .killed⟩
  | .error _ s => ⟨s.withFaults [], failed⟩

def Enabled (w : NodeRun) : NodeLabel → Prop
  | .resume _ => w.phase = .idle
  | .check _ _ _ => w.phase = .resumed
  | .batch answers _ =>
    match w.phase with
    | .syncing latestBtcHeight => answers.blocks ≠ [] ∧
        w.node.db.getBtcBlockHeight + answers.blocks.length ≤ latestBtcHeight
    | _ => False
  | .finish _ =>
    match w.phase with
    | .syncing _ => True
    | _ => False
  | .restart => True
  | _ => w.phase ≠ .killed

instance (w : NodeRun) (l : NodeLabel) : Decidable (Enabled w l) := by
  unfold Enabled
  split <;> try infer_instance
  all_goals split <;> infer_instance

def next (config : SyncConfig) (w : NodeRun) : NodeLabel → NodeRun
  | .resume faults =>
    settle ((do let _ ← Node.resumePendingRollbackIfNeeded) (w.node.withFaults faults))
      .resumed .idle
  | .check latestBtcHeight answers faults =>
    settle (Node.checkReorg latestBtcHeight answers (w.node.withFaults faults))
      (.syncing (latestBtcHeight.getD 0)) .idle
  | .batch answers faults =>
    match w.phase with
    | .syncing latestBtcHeight =>
      settle (Node.processBlockBatch config answers latestBtcHeight (w.node.withFaults faults))
        w.phase .idle
    | _ => w
  | .finish faults => settle (Node.finishRound (w.node.withFaults faults)) .idle .idle
  | .load total faults => settle (Node.startLoad total (w.node.withFaults faults)) w.phase w.phase
  | .loaded current faults =>
    settle (Node.updateCurrent current (w.node.withFaults faults)) w.phase w.phase
  | .evict keepUtxo keepBalance => { w with node := { w.node with history := { w.node.history with
      utxoCache := fun o => if keepUtxo o then w.node.history.utxoCache o else none
      balanceCache := fun s => if keepBalance s then w.node.history.balanceCache s else none } } }
  | .shrink lastUtxos lastBalances =>
    settle (onHistory (shrinkCaches lastUtxos lastBalances) (w.node.withFaults [])) w.phase w.phase
  | .rpcAlive alive => { w with node :=
      { w.node with runtime := { w.node.runtime with rpcAlive := alive } } }
  | .requestShutdown => { w with node :=
      { w.node with runtime := { w.node.runtime with shutdownRequested := true } } }
  | .restart => ⟨.opened w.node.db w.node.snapshotInstall w.node.lastCheck, .idle⟩

def Step (config : SyncConfig) (w : NodeRun) (l : NodeLabel) (w' : NodeRun) : Prop :=
  Enabled w l ∧ w' = next config w l

/-- A run of a process and the ones started after it, whose every step meets a condition on
the state before it and the label. -/
abbrev Run (config : SyncConfig) (cond : NodeRun → NodeLabel → Prop) : NodeRun → NodeRun → Prop :=
  Machine.Run (Step config) cond

/-- Each label of a list can happen and meets the condition when its turn comes. -/
abbrev Follows (config : SyncConfig) (cond : NodeRun → NodeLabel → Prop) :
    NodeRun → List NodeLabel → Prop :=
  Machine.Follows Enabled (next config) cond

theorem Run.of_follows {config : SyncConfig} {cond : NodeRun → NodeLabel → Prop}
    {w₀ w : NodeRun} (run : Run config cond w₀ w) {labels : List NodeLabel}
    (h : Follows config cond w labels) :
    Run config cond w₀ (labels.foldl (NodeRun.next config) w) :=
  Machine.Run.of_follows (fun _ _ enabled => ⟨enabled, rfl⟩) run h

end NodeRun

end Usdb.Balances
