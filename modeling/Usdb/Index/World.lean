import Usdb.Index.SyncOnce
import Usdb.Balance.History
import Usdb.Framework.Machine

namespace Usdb

open Framework InscriptionIndexer InscriptionTransferTracker

/-- Where the process stands: between two rounds of `sync_once`, inside a round
that is ready for the next block, or ended by a panic or a crash. -/
inductive Phase
  | idle
  | syncing
  | crashed
deriving DecidableEq, Repr

/-- The indexer together with what a run has seen: the durable blocks by height,
the state right after each became durable, and the balance history the last durable
block was settled against. -/
structure World where
  indexer : IndexerState
  phase : Phase
  chain : Nat → Option Block
  committed : Nat → Option IndexerState
  balances : BalanceHistory

/-- One thing that can happen in a run, with what the external calls made on the way
report. A block comes with the balance history upstream has at that time. -/
inductive Label
  | prepare (rollbackTarget : Option Nat) (faults : List IoResult)
  | block (env : BlockEnv) (balances : BalanceHistory) (faults : List IoResult)
  | finish (snapshot : BalanceHistorySnapshotInfo)
      (stateRefAtHeight : Nat → BalanceHistorySnapshotInfo) (faults : List IoResult)
  | restart (faults : List IoResult)

namespace IndexerState

def empty : IndexerState where
  passStorage := .empty
  energyStorage := .empty
  inscriptions := MultiMap.new
  stagedBlocks := []
  currentBlockCollector := none
  log := []
  faults := []

/-- What a restarted process starts from: the databases, and nothing in memory. -/
def afterRestart (s : IndexerState) : IndexerState :=
  { s with inscriptions := MultiMap.new, stagedBlocks := [], currentBlockCollector := none }

end IndexerState

namespace World

def initial : World where
  indexer := .empty
  phase := .idle
  chain := fun _ => none
  committed := fun _ => none
  balances := .empty

def height (cfg : IndexerConfig) (w : World) : Nat := currentHeight cfg w.indexer.passStorage

/-- The state and the phase after a program has run. -/
def settle (w : World) (result : EStateM.Result IndexerError IndexerState Unit)
    (next failed : Phase) : World :=
  match result with
  | .ok _ s => { w with indexer := s.withFaults [], phase := next }
  | .error .panic s => { w with indexer := s.withFaults [], phase := .crashed }
  | .error _ s => { w with indexer := s.withFaults [], phase := failed }

/-- A block that became durable is recorded with the state it left. -/
def recordBlock (w : World) (height : Nat) (block : Option Block) (balances : BalanceHistory)
    (result : EStateM.Result IndexerError IndexerState Unit) : World :=
  match result with
  | .ok _ s => { w with
      chain := fun h => if h = height then block else w.chain h
      committed := fun h => if h = height then some (s.withFaults []) else w.committed h
      balances }
  | .error _ _ => w

/-- The rollback target of a drift lies between the block before genesis and the
current height, and there is only one once a block is durable. -/
def TargetInRange (cfg : IndexerConfig) (w : World) : Option Nat → Prop
  | none => True
  | some target => cfg.genesisBlockHeight ≤ w.height cfg ∧ cfg.genesisBlockHeight - 1 ≤ target ∧
      target ≤ w.height cfg

instance (cfg : IndexerConfig) (w : World) (rollbackTarget : Option Nat) :
    Decidable (TargetInRange cfg w rollbackTarget) :=
  match rollbackTarget with
  | none => .isTrue trivial
  | some _ => inferInstanceAs (Decidable (_ ∧ _))

/-- The things that can happen next. -/
def Enabled (cfg : IndexerConfig) (w : World) : Label → Prop
  | .prepare rollbackTarget _ => w.phase = .idle ∧ TargetInRange cfg w rollbackTarget
  | .block _ _ _ => w.phase = .syncing
  | .finish _ _ _ => w.phase = .syncing ∧ cfg.genesisBlockHeight ≤ w.height cfg
  | .restart _ => True

instance (cfg : IndexerConfig) (w : World) (l : Label) : Decidable (Enabled cfg w l) :=
  match l with
  | .prepare _ _ => inferInstanceAs (Decidable (_ ∧ _))
  | .block _ _ _ => inferInstanceAs (Decidable (_ = _))
  | .finish _ _ _ => inferInstanceAs (Decidable (_ ∧ _))
  | .restart _ => .isTrue trivial

/-- What the program does next. -/
def next (cfg : IndexerConfig) (w : World) : Label → World
  | .prepare rollbackTarget faults =>
    w.settle (prepareSync cfg rollbackTarget (w.indexer.withFaults faults)) .syncing .idle
  | .block env balances faults =>
    let result := syncBlockDurably cfg env (w.height cfg + 1) (w.indexer.withFaults faults)
    (w.settle result .syncing .idle).recordBlock (w.height cfg + 1) env.blockHint balances result
  | .finish snapshot stateRefAtHeight faults =>
    w.settle (finishSync cfg (w.height cfg) snapshot stateRefAtHeight
      (w.indexer.withFaults faults)) .idle .idle
  | .restart faults =>
    { w with indexer := w.indexer.afterRestart }.settle
      (reloadFromStorage (w.indexer.afterRestart.withFaults faults)) .idle .crashed

/-- One step of a run. -/
def Step (cfg : IndexerConfig) (w : World) (l : Label) (w' : World) : Prop :=
  Enabled cfg w l ∧ w' = next cfg w l

/-- A run whose every step meets a condition on the state before it and the label. -/
abbrev Run (cfg : IndexerConfig) (cond : World → Label → Prop) : World → World → Prop :=
  Machine.Run (Step cfg) cond

/-- The worlds a run from an empty data directory reaches. -/
def Reachable (cfg : IndexerConfig) (cond : World → Label → Prop) (w : World) : Prop :=
  Run cfg cond initial w

/-- What holds at the start and is kept by every step holds in every world reached. -/
theorem Reachable.induct {cfg : IndexerConfig} {cond : World → Label → Prop} {P : World → Prop}
    (hinit : P initial)
    (hstep : ∀ w l w', P w → cond w l → Step cfg w l w' → P w') {w : World}
    (h : Reachable cfg cond w) : P w :=
  Machine.Run.induct h hinit hstep

/-- Each label of a list can happen and meets the condition when its turn comes. -/
abbrev Follows (cfg : IndexerConfig) (cond : World → Label → Prop) : World → List Label → Prop :=
  Machine.Follows (Enabled cfg) (next cfg) cond

theorem Run.of_follows {cfg : IndexerConfig} {cond : World → Label → Prop} {w w' : World}
    (run : Run cfg cond w w') {labels : List Label} (h : Follows cfg cond w' labels) :
    Run cfg cond w (labels.foldl (next cfg) w') :=
  Machine.Run.of_follows (fun _ _ enabled => ⟨enabled, rfl⟩) run h

end World

end Usdb
