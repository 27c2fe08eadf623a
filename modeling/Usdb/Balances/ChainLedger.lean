import Mathlib.Data.List.Induction
import Usdb.Balances.ForkMixture
import Usdb.Balances.LedgerBalance
import Usdb.Balances.UndoWindow

namespace Usdb.Balances

open Framework Unspent BalanceHistoryDB

/-- Each transaction of the chain spends outputs that are unspent before it and creates
outpoints of its own, and all outputs together stay below `2^63`. -/
structure ValidChain (blocks : List Block) : Prop where
  spends : WellSpent (chainTransfers blocks)
  solvent : Solvent (chainTransfers blocks)

/-- The balance of a script hash after the first blocks of a chain. -/
def balanceAt (blocks : List Block) (scriptHash : USDBScriptHash) (height : Nat) : Nat :=
  balanceOf scriptHash (chainTransfers (blocks.take height))

/-- The blocks of a chain with the outputs they spend. The first block is at height 1. -/
def filledChain (blocks : List Block) : List PreloadBlock := fillBlocks Unspent.empty 1 blocks

/-- What each block of a chain does to the balances. -/
def chainDeltas (blocks : List Block) : Except BalanceHistoryError (List BlockBalanceDelta) :=
  ledgerBlocks .zero (filledChain blocks)

/-- The rows of a chain are its balances. -/
structure Accounts (blocks : List Block) (deltas : List BlockBalanceDelta) : Prop where
  ledger : chainDeltas blocks = .ok deltas
  settled : ∀ scriptHash, (BalanceMap.zero.settleAll deltas scriptHash).balance =
    balanceOf scriptHash (chainTransfers blocks)
  row_some : ∀ scriptHash height value, deltaRow deltas scriptHash height = some value →
    1 ≤ height ∧ height ≤ blocks.length ∧ value.balance = balanceAt blocks scriptHash height ∧
      value.delta = (balanceAt blocks scriptHash height : Int) -
        balanceAt blocks scriptHash (height - 1)
  row_none : ∀ scriptHash height, deltaRow deltas scriptHash height = none →
    balanceAt blocks scriptHash height = balanceAt blocks scriptHash (height - 1)

section Chain

variable {blocks blocks' : List Block} {block : Block} {deltas : List BlockBalanceDelta}
  {scriptHash : USDBScriptHash}

theorem ValidChain.left (h : ValidChain (blocks ++ blocks')) : ValidChain blocks := by
  obtain ⟨hspends, hsolvent⟩ := h
  rw [chainTransfers_append] at hspends hsolvent
  exact ⟨hspends.left, hsolvent.left⟩

theorem ValidChain.take (h : ValidChain blocks) (height : Nat) : ValidChain (blocks.take height) := by
  apply @ValidChain.left _ (blocks.drop height)
  rw [List.take_append_drop]
  exact h

theorem ValidChain.nil : ValidChain [] where
  spends := ⟨trivial, List.nodup_nil, by simp [createdKeys, createdBy, chainTransfers]⟩
  solvent := by
    intro pre hpre
    rw [List.prefix_nil.mp hpre]
    exact Nat.pow_pos (by decide)

theorem filledChain_append (blocks blocks' : List Block) :
    filledChain (blocks ++ blocks') = filledChain blocks ++
      fillBlocks (Unspent.empty.afterAll (chainTransfers blocks)) (blocks.length + 1) blocks' := by
  unfold filledChain
  rw [fillBlocks_append, Nat.add_comm 1]

theorem filledChain_heights (blocks : List Block) :
    (filledChain blocks).map (·.height) = List.range' 1 blocks.length := by
  have h := congrArg (List.map Prod.fst) (fillBlocks_ids Unspent.empty 1 blocks)
  rw [List.map_map, List.map_fst_zip (by simp)] at h
  exact h

theorem filledChain_length (blocks : List Block) : (filledChain blocks).length = blocks.length := by
  have h := congrArg List.length (filledChain_heights blocks)
  simpa using h

theorem chainDeltas_ids (h : chainDeltas blocks = .ok deltas) :
    deltas.map (fun delta => (delta.blockHeight, delta.blockHash)) =
      (List.range' 1 blocks.length).zip (blocks.map (·.blockHash)) :=
  (ledgerBlocks_ids h).trans (fillBlocks_ids _ _ _)

theorem chainDeltas_length (h : chainDeltas blocks = .ok deltas) :
    deltas.length = blocks.length := by
  have hlen := congrArg List.length (chainDeltas_ids h)
  simpa using hlen

/-- The results of a longer chain begin with those of the shorter one. -/
theorem chainDeltas_append_ok :
    chainDeltas (blocks ++ blocks') = .ok deltas ↔
      ∃ first rest, chainDeltas blocks = .ok first ∧
        ledgerBlocks (BalanceMap.zero.settleAll first) (fillBlocks (Unspent.empty.afterAll
          (chainTransfers blocks)) (blocks.length + 1) blocks') = .ok rest ∧
        deltas = first ++ rest := by
  unfold chainDeltas
  rw [filledChain_append]
  exact ledgerBlocks_append_ok

theorem settleAll_append (balances : BalanceMap) (deltas deltas' : List BlockBalanceDelta) :
    balances.settleAll (deltas ++ deltas') = (balances.settleAll deltas).settleAll deltas' :=
  List.foldl_append

theorem deltaRow_append (deltas deltas' : List BlockBalanceDelta) (scriptHash : USDBScriptHash)
    (height : Nat) : deltaRow (deltas ++ deltas') scriptHash height =
      (deltaRow deltas scriptHash height).or (deltaRow deltas' scriptHash height) := by
  unfold deltaRow
  rw [List.flatMap_append, entryRows_append, List.lookup_append]

theorem balanceAt_length {height : Nat} (h : blocks.length ≤ height) :
    balanceAt blocks scriptHash height = balanceOf scriptHash (chainTransfers blocks) := by
  unfold balanceAt
  rw [List.take_of_length_le h]

theorem balanceAt_append {height : Nat} (h : height ≤ blocks.length) :
    balanceAt (blocks ++ blocks') scriptHash height = balanceAt blocks scriptHash height := by
  unfold balanceAt
  rw [List.take_append_of_le_length h]

theorem chainTransfers_append_one (blocks : List Block) (block : Block) :
    chainTransfers (blocks ++ [block]) = chainTransfers blocks ++ block.transfers := by
  rw [chainTransfers_append, chainTransfers_cons]
  exact congrArg _ (List.append_nil _)

theorem deltaRow_singleton_some {delta : BlockBalanceDelta} {height : Nat} {value : BalanceValue}
    (h : deltaRow [delta] scriptHash height = some value) :
    ⟨scriptHash, height, value.delta, value.balance⟩ ∈ delta.entries := by
  have hmem := mem_of_deltaRow h
  rw [List.flatMap_cons, List.flatMap_nil, List.append_nil] at hmem
  exact hmem

theorem deltaRow_singleton_none {delta : BlockBalanceDelta} {height : Nat}
    (hheight : ∀ entry ∈ delta.entries, entry.blockHeight = height)
    (h : deltaRow [delta] scriptHash height = none) :
    scriptHash ∉ delta.entries.map (·.scriptHash) := by
  intro hmem
  obtain ⟨entry, hentry, rfl⟩ := List.mem_map.mp hmem
  have hnone := Table.lookup_eq_none.mp h
  rw [List.flatMap_cons, List.flatMap_nil, List.append_nil] at hnone
  apply hnone
  have hrow : (⟨entry.scriptHash, height⟩, ⟨entry.delta, entry.balance⟩) ∈ entryRows delta.entries := by
    rw [mem_entryRows]
    dsimp only
    rw [← hheight entry hentry]
    exact hentry
  exact List.mem_map_of_mem hrow

/-- A block at the end of a chain adds its rows. -/
theorem Accounts.append_one (h : Accounts blocks deltas) (hv : ValidChain (blocks ++ [block])) :
    ∃ delta, Accounts (blocks ++ [block]) (deltas ++ [delta]) := by
  obtain ⟨hspends, hsolvent⟩ := hv
  rw [chainTransfers_append_one] at hspends hsolvent
  obtain ⟨delta, hledger, hentries⟩ := ledgerBlock_exact (blocks.length + 1) hspends
    hsolvent h.settled
  have hlen : (blocks ++ [block]).length = blocks.length + 1 := by simp
  have htop : ∀ scriptHash, balanceAt (blocks ++ [block]) scriptHash (blocks.length + 1) =
      balanceOf scriptHash (chainTransfers blocks ++ block.transfers) := by
    intro scriptHash
    rw [balanceAt_length (by omega), chainTransfers_append_one]
  have hprev : ∀ scriptHash, balanceAt (blocks ++ [block]) scriptHash blocks.length =
      balanceOf scriptHash (chainTransfers blocks) := by
    intro scriptHash
    rw [balanceAt_append (Nat.le_refl _), balanceAt_length (Nat.le_refl _)]
  refine ⟨delta, ?_, ?_, ?_, ?_⟩
  · rw [chainDeltas_append_ok]
    refine ⟨deltas, [delta], h.ledger, ?_, rfl⟩
    exact ledgerBlocks_cons_ok.mpr ⟨delta, [], hledger, rfl, rfl⟩
  · intro scriptHash
    rw [settleAll_append, chainTransfers_append_one]
    exact hentries.settle h.settled scriptHash
  · intro scriptHash height value hrow
    rw [deltaRow_append] at hrow
    cases hold : deltaRow deltas scriptHash height with
    | some value' =>
      rw [hold] at hrow
      cases hrow
      obtain ⟨hpos, hle, hbalance, hdelta⟩ := h.row_some scriptHash height value hold
      rw [balanceAt_append hle, balanceAt_append (by omega)]
      exact ⟨hpos, by omega, hbalance, hdelta⟩
    | none =>
      rw [hold, Option.none_or] at hrow
      have hmem := deltaRow_singleton_some hrow
      have hheight := hentries.height_eq _ hmem
      have hbalance := hentries.balance_eq _ hmem
      have hdelta := hentries.delta_eq _ hmem
      dsimp only at hheight hbalance hdelta
      subst hheight
      rw [htop, Nat.add_sub_cancel, hprev]
      exact ⟨by omega, by omega, hbalance, hdelta⟩
  · intro scriptHash height hrow
    rw [deltaRow_append, Option.or_eq_none_iff] at hrow
    obtain ⟨hold, hnew⟩ := hrow
    rcases Nat.lt_trichotomy height (blocks.length + 1) with hlt | rfl | hgt
    · rw [balanceAt_append (by omega), balanceAt_append (by omega)]
      exact h.row_none scriptHash height hold
    · rw [htop, Nat.add_sub_cancel, hprev]
      exact hentries.complete scriptHash (deltaRow_singleton_none hentries.height_eq hnew)
    · rw [balanceAt_length (by omega), balanceAt_length (by omega)]

/-- Every valid chain has rows, and they are its balances. -/
theorem ValidChain.accounts (h : ValidChain blocks) : ∃ deltas, Accounts blocks deltas := by
  induction blocks using List.reverseRecOn with
  | nil =>
    refine ⟨[], rfl, fun _ => rfl, ?_, ?_⟩
    · intro scriptHash height value hrow
      cases hrow
    · intro scriptHash height _
      rw [balanceAt_length (Nat.zero_le _), balanceAt_length (Nat.zero_le _)]
  | append_singleton blocks block ih =>
    obtain ⟨deltas, haccounts⟩ := ih h.left
    obtain ⟨delta, hlonger⟩ := haccounts.append_one h
    exact ⟨_, hlonger⟩

theorem ValidChain.accounts_of_ok (h : ValidChain blocks) (hd : chainDeltas blocks = .ok deltas) :
    Accounts blocks deltas := by
  obtain ⟨deltas', haccounts⟩ := h.accounts
  rw [Except.ok.inj (hd.symm.trans haccounts.ledger)]
  exact haccounts

end Chain

end Usdb.Balances
