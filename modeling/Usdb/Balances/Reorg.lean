import Usdb.Balances.Db

namespace Usdb.Balances

open Framework BalanceHistoryDB

/-- What the Bitcoin node answers while the chains are compared: the call for the hash
at the local tip, and the later calls of the search. The chain of the node may change
between two calls. -/
structure ReorgAnswers where
  tipHash : Option BlockHash
  hashAt : Nat → Option BlockHash

/-- A failed call of the node. -/
def callNode {α : Type} (answer : Option α) : Except BalanceHistoryError α :=
  match answer with
  | some a => .ok a
  | none => .error .io

def requireCommit (db : BalanceHistoryDB) (height : Nat) :
    Except BalanceHistoryError BlockCommitEntry :=
  match db.getBlockCommit height with
  | some commit => .ok commit
  | none => .error (.missingLocalCommit height)

/-- The search of `find_reorg_common_ancestor_height`, downwards from a height. -/
def searchCommonAncestor (db : BalanceHistoryDB) (hashAt : Nat → Option BlockHash) :
    Nat → Except BalanceHistoryError Nat
  | 0 => .ok 0
  | height + 1 => do
    let localCommit ← requireCommit db (height + 1)
    let canonicalHash ← callNode (hashAt (height + 1))
    if localCommit.btcBlockHash = canonicalHash then
      return height + 1
    else
      searchCommonAncestor db hashAt height

def findReorgCommonAncestorHeight (db : BalanceHistoryDB) (answers : ReorgAnswers)
    (currentHeight latestBtcHeight : Nat) : Except BalanceHistoryError (Option Nat) := do
  if currentHeight = 0 then
    return none
  if latestBtcHeight ≥ currentHeight then
    let localTipCommit ← requireCommit db currentHeight
    let canonicalTipHash ← callNode answers.tipHash
    if localTipCommit.btcBlockHash = canonicalTipHash then
      return none
  return some (← searchCommonAncestor db answers.hashAt (min currentHeight latestBtcHeight))

def clearCaches : HistoryM Unit :=
  modify (fun s => { s with utxoCache := fun _ => none, balanceCache := fun _ => none })

def resumePendingRollbackIfNeeded : HistoryM Bool := do
  let resumed ← resumeRollbackIfNeeded
  if resumed then
    clearCaches
  return resumed

def reconcileReorgIfNeeded (answers : ReorgAnswers) (currentHeight latestBtcHeight : Nat) :
    HistoryM Nat := do
  match ← liftExcept (findReorgCommonAncestorHeight (← readDb id) answers currentHeight
      latestBtcHeight) with
  | none => return currentHeight
  | some ancestorHeight =>
    rollbackToBlockHeight ancestorHeight
    clearCaches
    return ancestorHeight

end Usdb.Balances
