import Usdb.Index.BlockRun
import Usdb.Storage.PassHistory
import Usdb.Framework.Traverse

namespace Usdb

open Framework MinerPassStorage

namespace MinerPassStorage

variable {ps : MinerPassStorage}

theorem mem_historyViewByStates {height : Nat} {states : List MinerPassState}
    {pass : ActiveMinerPassInfo} :
    pass ∈ ps.historyViewByStates height states ↔ ∃ r,
      ps.latestHistoryAt height pass.inscriptionId = some r ∧ r.newState ∈ states ∧
        r.newOwner = pass.owner := by
  unfold historyViewByStates
  simp only [List.mem_map, List.mem_insertionSort, List.mem_filter, decide_eq_true_eq]
  constructor
  · rintro ⟨r, ⟨-, hlatest, hstate⟩, rfl⟩
    exact ⟨r, hlatest, hstate, rfl⟩
  · rintro ⟨r, hlatest, hstate, howner⟩
    obtain ⟨hmem, hid, -⟩ := latestHistoryAt_some hlatest
    refine ⟨r, ⟨hmem, ?_, hstate⟩, ?_⟩
    · rw [hid]
      exact hlatest
    · rw [hid, howner]

theorem length_historyViewByStates_le (ps : MinerPassStorage) (height : Nat)
    (states : List MinerPassState) :
    (ps.historyViewByStates height states).length ≤ ps.passStateHistory.length := by
  unfold historyViewByStates
  rw [List.length_map, List.length_insertionSort]
  exact List.length_filter_le _ _

end MinerPassStorage

namespace BalanceMonitor

theorem addActiveOwners_ok {height : Nat} {owners page result : List ActiveMinerPassInfo}
    (h : addActiveOwners height owners page = .ok result) : result = owners ++ page := by
  induction page generalizing owners with
  | nil =>
    cases h
    simp
  | cons pass rest ih =>
    unfold addActiveOwners at h
    split at h
    · cases h
    · rw [ih h]
      simp

/-- The page loop reads the whole view, page by page, as far as its rounds go. -/
theorem loadActivePages_ok {pageSize height index rounds : Nat} (hsize : 0 < pageSize)
    {owners result : List ActiveMinerPassInfo} {s t : IndexerState}
    (h : loadActivePages pageSize height index owners rounds s = .ok result t) :
    result = owners ++ ((s.passStorage.historyViewByStates height [.Active]).drop
      (index * pageSize)).take (rounds * pageSize) := by
  induction rounds generalizing index owners s with
  | zero =>
    cases h
    simp
  | succ rounds ih =>
    obtain ⟨passes, s₁, hread, h⟩ := bind_eq_ok h
    obtain ⟨hpasses, fs, rfl⟩ := readPass_ok hread
    have hpage : passes = ((s.passStorage.historyViewByStates height [.Active]).drop
        (index * pageSize)).take pageSize := hpasses
    generalize hrest : (s.passStorage.historyViewByStates height [.Active]).drop
      (index * pageSize) = rest at hpage ⊢
    have hrounds : (rounds + 1) * pageSize = pageSize + rounds * pageSize := by
      rw [Nat.succ_mul, Nat.add_comm]
    split at h
    · rename_i hnil
      cases h
      rw [hnil] at hpage
      rcases List.take_eq_nil_iff.mp hpage.symm with hz | hz
      · omega
      · simp [hz]
    obtain ⟨next, s₂, hadd, h⟩ := bind_eq_ok h
    obtain ⟨hpages, rfl⟩ := liftExcept_ok hadd
    have hnext := addActiveOwners_ok hpages
    split at h
    · rename_i hshort
      cases h
      rw [hpage, List.length_take] at hshort
      rw [hnext, hpage, List.take_of_length_le (by omega), List.take_of_length_le (by omega)]
    · rw [ih h, hnext, hpage, hrounds, List.take_add, List.append_assoc]
      congr 2
      rw [← hrest, List.drop_drop]
      rw [Nat.succ_mul]
      rfl

/-- The loaded passes are those that the view shows Active, in the order of their owners. -/
theorem loadActivePasses_ok {pageSize height : Nat} (hsize : 0 < pageSize)
    {active : List ActiveMinerPassInfo} {s t : IndexerState}
    (h : loadActivePasses pageSize height s = .ok active t) :
    active = (s.passStorage.historyViewByStates height [.Active]).insertionSort
      (fun a b => a.owner ≤ b.owner) := by
  obtain ⟨g, _, hget, h⟩ := bind_eq_ok h
  cases hget
  obtain ⟨owners, s₁, hpages, h⟩ := bind_eq_ok h
  cases h
  have hlen := length_historyViewByStates_le s.passStorage height [.Active]
  have hall := loadActivePages_ok hsize hpages
  rw [Nat.zero_mul, List.drop_zero, List.nil_append, List.take_of_length_le] at hall
  · rw [hall]
  · calc (s.passStorage.historyViewByStates height [.Active]).length
        ≤ s.passStorage.passStateHistory.length + 1 := by omega
      _ ≤ (s.passStorage.passStateHistory.length + 1) * pageSize := Nat.le_mul_of_pos_right _ hsize

/-- Every pass that the view shows Active is among the loaded ones. -/
theorem loadActivePasses_mem {pageSize height : Nat} (hsize : 0 < pageSize)
    {active : List ActiveMinerPassInfo} {s t : IndexerState}
    (h : loadActivePasses pageSize height s = .ok active t) (pass : ActiveMinerPassInfo) :
    pass ∈ active ↔ pass ∈ s.passStorage.historyViewByStates height [.Active] := by
  rw [loadActivePasses_ok hsize h, List.mem_insertionSort]

theorem collectBalances_ok {height : Nat} {found entries result : List (USDBScriptHash × AddressBalance)}
    (h : collectBalances height found entries = .ok result) : result = found ++ entries := by
  induction entries generalizing found with
  | nil =>
    cases h
    simp
  | cons entry rest ih =>
    unfold collectBalances at h
    split at h
    · cases h
    · rw [ih h]
      simp

/-- The settlement row of a pass and the answer it is made of. -/
structure SettledAs (height : Nat) (balances : List (USDBScriptHash × AddressBalance))
    (pass : ActiveMinerPassInfo) (row : ActivePassBalance) (answer : AddressBalance) : Prop where
  answered : (pass.owner, answer) ∈ balances
  inTime : answer.blockHeight ≤ height
  inscriptionId : row.inscriptionId = pass.inscriptionId
  owner : row.owner = pass.owner
  blockHeight : row.blockHeight = height
  balance : row.balance = answer.balance
  delta : row.delta = if answer.blockHeight < height then 0 else answer.delta

theorem settlePass_ok {height : Nat} {balances : List (USDBScriptHash × AddressBalance)}
    {pass : ActiveMinerPassInfo} {row : ActivePassBalance}
    (h : settlePass height balances pass = .ok row) :
    ∃ answer, SettledAs height balances pass row answer := by
  unfold settlePass at h
  split at h
  · cases h
  · rename_i owner answer hfound
    split at h
    · cases h
    · rename_i hle
      cases h
      have hkey : owner = pass.owner := lookup_some_key _ _ _ _ hfound
      refine ⟨answer, ?_, Nat.le_of_not_lt hle, rfl, rfl, rfl, rfl, rfl⟩
      rw [← hkey]
      exact lookup_some_mem _ _ _ _ hfound

theorem SettledAs.mono {height : Nat} {balances balances' : List (USDBScriptHash × AddressBalance)}
    {pass : ActiveMinerPassInfo} {row : ActivePassBalance} {answer : AddressBalance}
    (h : SettledAs height balances pass row answer) (hsub : ∀ b ∈ balances, b ∈ balances') :
    SettledAs height balances' pass row answer :=
  { h with answered := hsub _ h.answered }

theorem settlePasses_cons_ok {height : Nat} {balances left : List (USDBScriptHash × AddressBalance)}
    {pass : ActiveMinerPassInfo} {rest : List ActiveMinerPassInfo} {rows : List ActivePassBalance}
    (h : settlePasses height balances (pass :: rest) = .ok (rows, left)) :
    ∃ row rows', rows = row :: rows' ∧ settlePass height balances pass = .ok row ∧
      settlePasses height (balances.filter (fun b => b.1 ≠ pass.owner)) rest =
        .ok (rows', left) := by
  unfold settlePasses at h
  obtain ⟨row, hrow, h⟩ := bind_eq_ok_iff.mp h
  obtain ⟨⟨rows', left'⟩, hrest, h⟩ := bind_eq_ok_iff.mp h
  cases h
  exact ⟨row, rows', rfl, hrow, hrest⟩

/-- Each pass has one row, and the rows come in the order of the passes. -/
theorem settlePasses_forall₂ {height : Nat}
    {balances left : List (USDBScriptHash × AddressBalance)}
    {passes : List ActiveMinerPassInfo} {rows : List ActivePassBalance}
    (h : settlePasses height balances passes = .ok (rows, left)) :
    List.Forall₂ (fun pass row => ∃ answer, SettledAs height balances pass row answer)
      passes rows := by
  induction passes generalizing balances rows with
  | nil =>
    cases h
    exact .nil
  | cons pass rest ih =>
    obtain ⟨row, rows', rfl, hrow, hrest⟩ := settlePasses_cons_ok h
    refine .cons (settlePass_ok hrow) ((ih hrest).imp ?_)
    rintro p r ⟨answer, hs⟩
    exact ⟨answer, hs.mono (fun b hb => List.mem_of_mem_filter hb)⟩

/-- The passes and their settlement rows belong together. -/
theorem settlePasses_ok {height : Nat} {balances left : List (USDBScriptHash × AddressBalance)}
    {passes : List ActiveMinerPassInfo} {rows : List ActivePassBalance}
    (h : settlePasses height balances passes = .ok (rows, left)) :
    (∀ pass ∈ passes, ∃ row ∈ rows, ∃ answer, SettledAs height balances pass row answer) ∧
      ∀ row ∈ rows, ∃ pass ∈ passes, ∃ answer, SettledAs height balances pass row answer := by
  have hall := settlePasses_forall₂ h
  exact ⟨fun _ hp => exists_of_mem_forall₂ hall hp,
    fun _ hr => exists_of_mem_forall₂ hall.flip hr⟩

end BalanceMonitor

end Usdb
