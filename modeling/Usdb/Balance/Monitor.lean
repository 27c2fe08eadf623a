import Usdb.Index.Energy

namespace Usdb

open Framework

structure ActivePassBalance where
  inscriptionId : InscriptionId
  owner : USDBScriptHash
  blockHeight : Nat
  balance : Nat
  delta : Int
deriving DecidableEq, Repr

structure ActiveBalanceSettlement where
  snapshot : ActiveBalanceSnapshot
  activePassBalances : List ActivePassBalance
deriving DecidableEq, Repr

namespace BalanceMonitor

/-- Adds a page of Active passes to the owner map, which must not hold the owner. -/
def addActiveOwners (blockHeight : Nat) (owners : List ActiveMinerPassInfo) :
    List ActiveMinerPassInfo → Except IndexerError (List ActiveMinerPassInfo)
  | [] => .ok owners
  | pass :: rest =>
    match lookup (·.owner) pass.owner owners with
    | some existing =>
      .error (.duplicateActiveOwner blockHeight pass.owner existing.inscriptionId
        pass.inscriptionId)
    | none => addActiveOwners blockHeight (owners ++ [pass]) rest

/-- The page loop of `load_active_passes`. Every page but the last is full, so as
many rounds as there are history rows are enough. -/
def loadActivePages (pageSize blockHeight pageIndex : Nat) (owners : List ActiveMinerPassInfo) :
    Nat → IndexerM (List ActiveMinerPassInfo)
  | 0 => pure owners
  | rounds + 1 => do
    let passes ← readPass
      (·.getAllActivePassByPageFromHistoryAtHeight pageIndex pageSize blockHeight)
    if passes = [] then return owners
    let owners ← liftExcept (addActiveOwners blockHeight owners passes)
    if passes.length < pageSize then return owners
    loadActivePages pageSize blockHeight (pageIndex + 1) owners rounds

def loadActivePasses (pageSize blockHeight : Nat) : IndexerM (List ActiveMinerPassInfo) := do
  let owners ← loadActivePages pageSize blockHeight 0 []
    ((← get).passStorage.passStateHistory.length + 1)
  return owners.insertionSort (fun a b => a.owner ≤ b.owner)

def collectBalances (blockHeight : Nat) (balances : List (USDBScriptHash × AddressBalance)) :
    List (USDBScriptHash × AddressBalance) →
      Except IndexerError (List (USDBScriptHash × AddressBalance))
  | [] => .ok balances
  | entry :: rest =>
    match lookup (·.1) entry.1 balances with
    | some _ => .error (.duplicateOwnerBalance blockHeight entry.1)
    | none => collectBalances blockHeight (balances ++ [entry]) rest

/-- The settlement row of a pass. An answer from below the height carries its
balance forward and changes nothing at the height. -/
def settlePass (blockHeight : Nat) (balances : List (USDBScriptHash × AddressBalance))
    (pass : ActiveMinerPassInfo) : Except IndexerError ActivePassBalance :=
  match lookup (·.1) pass.owner balances with
  | none => .error (.missingOwnerBalance blockHeight pass.owner pass.inscriptionId)
  | some (_, ownerBalance) =>
    if blockHeight < ownerBalance.blockHeight then
      .error (.futureOwnerBalance blockHeight ownerBalance.blockHeight pass.owner)
    else .ok
      { inscriptionId := pass.inscriptionId, owner := pass.owner, blockHeight
        balance := ownerBalance.balance
        delta := if ownerBalance.blockHeight < blockHeight then 0 else ownerBalance.delta }

/-- The balance of each pass is taken out of the map as it is used. -/
def settlePasses (blockHeight : Nat) (balances : List (USDBScriptHash × AddressBalance)) :
    List ActiveMinerPassInfo →
      Except IndexerError (List ActivePassBalance × List (USDBScriptHash × AddressBalance))
  | [] => .ok ([], balances)
  | pass :: rest => do
    let row ← settlePass blockHeight balances pass
    let (rows, left) ← settlePasses blockHeight (balances.filter (fun b => b.1 ≠ pass.owner)) rest
    return (row :: rows, left)

def settleActiveBalanceWithDetails (provider : BalanceProvider) (pageSize blockHeight : Nat) :
    IndexerM ActiveBalanceSettlement := do
  checkPass (·.assertNoDataAfterBlockHeight blockHeight)
  let activePasses ← loadActivePasses pageSize blockHeight
  if 2 ^ 32 ≤ activePasses.length then
    throw (.tooManyActiveAddresses blockHeight activePasses.length)
  io
  let balances ← liftExcept (collectBalances blockHeight []
    (provider.loadBalances (activePasses.map (·.owner)) blockHeight))
  let (activePassBalances, left) ← liftExcept (settlePasses blockHeight balances activePasses)
  if left ≠ [] then throw (.extraOwnerBalances blockHeight left.length)
  let snapshot : ActiveBalanceSnapshot :=
    { blockHeight
      totalBalance := activePassBalances.foldl (fun total row => satAdd total row.balance) 0
      activeAddressCount := activePasses.length }
  writePass (fun ps => .ok (ps.upsertActiveBalanceSnapshot snapshot))
  return { snapshot, activePassBalances }

end BalanceMonitor

end Usdb
