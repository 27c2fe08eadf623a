import Mathlib.Data.List.Induction
import Mathlib.Algebra.BigOperators.Group.List.Basic
import Mathlib.Tactic.Ring
import Usdb.Balances.Verify

namespace Usdb.Balances

open Framework

namespace ElectrsClient

variable (client : ElectrsClient)

def prevout? (input : OutPoint) : Option TxOut :=
  (client.transactionGet input.txid).bind (fun tx => tx.output[input.vout]?)

/-- The outputs that a transaction spends and creates; a coinbase spends none. -/
def fullItem (txid : Txid) : TxFullItem :=
  match client.transactionGet txid with
  | some tx => ⟨tx.input.filterMap client.prevout?, tx.output⟩
  | none => ⟨[], []⟩

def isCoinbase (txid : Txid) : Bool := (client.transactionGet txid).any (·.isCoinbase)

/-- The server has a transaction. The input of a coinbase names the null transaction; every
other input names an output that the server has too. -/
def Serves (txid : Txid) : Prop :=
  ∃ tx, client.transactionGet txid = some tx ∧
    if tx.isCoinbase then ∃ vout, tx.input = [⟨0, vout⟩]
    else ∀ input ∈ tx.input, (client.prevout? input).isSome

end ElectrsClient

def maxMoney : Nat := 21000000 * 100000000

/-- What an Electrum server knows: the confirmed transactions of each script hash in the
order of the chain, then those of the mempool, with height -1 when they spend outputs that
are not confirmed. Amounts obey the rules of the chain. -/
structure ElectrumView where
  client : ElectrsClient
  confirmed : USDBScriptHash → List GetHistoryRes
  mempool : USDBScriptHash → List GetHistoryRes
  getHistory_eq : ∀ s, client.getHistory s = some (confirmed s ++ mempool s)
  confirmed_height : ∀ s, ∀ item ∈ confirmed s, 0 ≤ item.height ∧ item.height < 2 ^ 31
  confirmed_sorted : ∀ s, (confirmed s).Pairwise (fun a b => a.height ≤ b.height)
  mempool_height : ∀ s, ∀ item ∈ mempool s, item.height = 0 ∨ item.height = -1
  served : ∀ s, ∀ item ∈ confirmed s ++ mempool s, client.Serves item.txHash
  touches : ∀ s, ∀ item ∈ confirmed s ++ mempool s, (client.fullItem item.txHash).Touches s
  nullTxid : client.transactionGet 0 = none
  genesis : ∀ s, ∀ item ∈ confirmed s, item.height = 0 → client.isCoinbase item.txHash
  amounts : ∀ txid s, paidTo s (client.fullItem txid).vin ≤ maxMoney ∧
    paidTo s (client.fullItem txid).vout ≤ maxMoney
  funded : ∀ s pre rest, confirmed s = pre ++ rest →
    0 ≤ (pre.map (fun item => (client.fullItem item.txHash).netTo s)).sum ∧
      (pre.map (fun item => (client.fullItem item.txHash).netTo s)).sum ≤ maxMoney

def upToHeight (blockHeight : Nat) (item : GetHistoryRes) : Bool := item.height ≤ asI32 blockHeight

namespace ElectrumView

variable (view : ElectrumView) (s : USDBScriptHash)

def delta (item : GetHistoryRes) : Int := (view.client.fullItem item.txHash).netTo s

def total (items : List GetHistoryRes) : Int := (items.map (view.delta s)).sum

section Ledger

/-- What a block adds to the balance of a script hash. -/
def blockDelta (height : Nat) : Int :=
  view.total s ((view.confirmed s).filter (fun item => item.height = height))

def confirmedUpTo (height : Nat) : List GetHistoryRes :=
  (view.confirmed s).filter (fun item => item.height ≤ height)

def confirmedBalance (height : Nat) : Nat := (view.total s (view.confirmedUpTo s height)).toNat

/-- The row of the true ledger: every block with a transaction of the script hash has one. -/
def trueRow (height : Nat) : Option BalanceValue :=
  if (view.confirmed s).any (fun item => item.height = height) then
    some ⟨view.blockDelta s height, view.confirmedBalance s height⟩
  else none

def TrueUpTo (db : BalanceHistoryDB) (blockHeight : Nat) : Prop :=
  ∀ height ≤ blockHeight, db.row s height = view.trueRow s height

end Ledger

section History

variable (blockHeight : Nat)

def history : List GetHistoryRes := view.confirmed s ++ view.mempool s

/-- The items that the loops process: those before the first one above the height. -/
def processed : List GetHistoryRes := (view.history s).takeWhile (upToHeight blockHeight)

/-- The items of the mempool among them. -/
def pending : List GetHistoryRes := (view.processed s blockHeight).drop (view.confirmed s).length

/-- When the verification of a script hash at a height is exact. There is something to
process and no coinbase in it, no two transactions of a block unless all leave the balance
as it was, and no item of the mempool unless it passes for a row that is not there. -/
structure Checkable : Prop where
  nonempty : view.processed s blockHeight ≠ []
  noCoinbase : ∀ item ∈ view.processed s blockHeight, ¬ view.client.isCoinbase item.txHash
  onePerBlock : (view.confirmed s).Pairwise (fun a b =>
    a.height = b.height → a.height ≤ (blockHeight : Int) → view.delta s a = 0 ∧ view.delta s b = 0)
  pendingZero : ∀ item ∈ view.pending s blockHeight,
    asU32 item.height ≤ blockHeight ∧ view.delta s item = 0 ∧ view.total s (view.confirmed s) = 0

end History

section Sums

variable {view s} {items items' : List GetHistoryRes} {item : GetHistoryRes}

theorem total_cons : view.total s (item :: items) = view.delta s item + view.total s items := by
  unfold total
  rw [List.map_cons, List.sum_cons]

theorem total_append : view.total s (items ++ items') = view.total s items + view.total s items' := by
  unfold total
  rw [List.map_append, List.sum_append]

theorem total_eq_zero (h : ∀ item ∈ items, view.delta s item = 0) : view.total s items = 0 := by
  unfold total
  refine List.sum_eq_zero (fun x hx => ?_)
  obtain ⟨item, hmem, rfl⟩ := List.mem_map.mp hx
  exact h item hmem

end Sums

section Split

variable {view s} {pre post : List GetHistoryRes} {item : GetHistoryRes} {blockHeight : Nat}

/-- At a transaction that is alone in its block, or has company that changes nothing, the
block's delta is its own and the block's balance is the running one. -/
theorem split_ledger (hsplit : view.confirmed s = pre ++ item :: post)
    (hpre : ∀ a ∈ pre, a.height = item.height → view.delta s a = 0)
    (hpost : ∀ a ∈ post, a.height = item.height → view.delta s a = 0) :
    view.blockDelta s item.height.toNat = view.delta s item ∧
      view.confirmedBalance s item.height.toNat =
        (view.total s pre + view.delta s item).toNat := by
  have hsorted := view.confirmed_sorted s
  have hheight : ((item.height.toNat : Nat) : Int) = item.height :=
    Int.toNat_of_nonneg (view.confirmed_height s item (by rw [hsplit]; simp)).1
  rw [hsplit, List.pairwise_append, List.pairwise_cons] at hsorted
  obtain ⟨-, ⟨hafter, -⟩, hcross⟩ := hsorted
  have hbelow : ∀ a ∈ pre, a.height ≤ item.height := fun a ha => hcross a ha item (by simp)
  have hpreZero : view.total s (pre.filter (fun a => a.height = item.height)) = 0 := by
    refine total_eq_zero (fun a ha => ?_)
    obtain ⟨hmem, heq⟩ := List.mem_filter.mp ha
    exact hpre a hmem (of_decide_eq_true heq)
  have hpostEq : view.total s (post.filter (fun a => a.height = item.height)) = 0 := by
    refine total_eq_zero (fun a ha => ?_)
    obtain ⟨hmem, heq⟩ := List.mem_filter.mp ha
    exact hpost a hmem (of_decide_eq_true heq)
  have hpostLe : view.total s (post.filter (fun a => a.height ≤ item.height)) = 0 := by
    refine total_eq_zero (fun a ha => ?_)
    obtain ⟨hmem, hle⟩ := List.mem_filter.mp ha
    exact hpost a hmem (le_antisymm (of_decide_eq_true hle) (hafter a hmem))
  have hpreAll : pre.filter (fun a => a.height ≤ item.height) = pre :=
    List.filter_eq_self.mpr (fun a ha => decide_eq_true (hbelow a ha))
  unfold blockDelta confirmedBalance confirmedUpTo
  simp only [hheight, hsplit, List.filter_append]
  constructor
  · rw [List.filter_cons_of_pos (by simp), total_append, total_cons, hpreZero, hpostEq]
    omega
  · rw [List.filter_cons_of_pos (by simp), total_append, total_cons, hpreAll, hpostLe, add_zero]

/-- When every transaction carries its block's delta and balance, two of one block change
nothing. -/
theorem onePerBlock_of_ledger
    (h : ∀ pre item post, view.confirmed s = pre ++ item :: post → item.height ≤ (blockHeight : Int) →
      view.delta s item = view.blockDelta s item.height.toNat ∧
        (view.total s pre + view.delta s item).toNat =
          view.confirmedBalance s item.height.toNat) :
    (view.confirmed s).Pairwise (fun a b =>
      a.height = b.height → a.height ≤ (blockHeight : Int) → view.delta s a = 0 ∧ view.delta s b = 0) := by
  suffices hall : ∀ rest pre, view.confirmed s = pre ++ rest → rest.Pairwise (fun a b =>
      a.height = b.height → a.height ≤ (blockHeight : Int) →
        view.delta s a = 0 ∧ view.delta s b = 0) from hall _ [] rfl
  intro rest
  induction rest with
  | nil => exact fun _ _ => List.Pairwise.nil
  | cons a rest ih =>
    intro pre hsplit
    refine List.pairwise_cons.mpr ⟨?_, ih (pre ++ [a]) (by rw [hsplit]; simp)⟩
    intro b hb heq hle
    obtain ⟨mid, post, rfl⟩ := List.append_of_mem hb
    have hsplit' : view.confirmed s = (pre ++ a :: mid) ++ b :: post := by rw [hsplit]; simp
    obtain ⟨hdelta, hbalance⟩ := h pre a _ hsplit hle
    obtain ⟨hdelta', hbalance'⟩ := h _ b post hsplit' (heq ▸ hle)
    rw [← heq] at hdelta' hbalance'
    -- everything between the two is of the same block, and so has its delta
    have hmid : ∀ mid' m rest, mid = mid' ++ m :: rest →
        view.delta s m = view.blockDelta s a.height.toNat := by
      intro mid' m rest hmid
      have hsorted := view.confirmed_sorted s
      subst hmid
      rw [hsplit, List.pairwise_append] at hsorted
      have hafter := List.pairwise_cons.mp hsorted.2.1
      have hge := hafter.1 m (by simp)
      have hrest := (List.pairwise_append.mp hafter.2).2.2 m (by simp) b (by simp)
      have hsame : m.height = a.height := le_antisymm (heq ▸ hrest) hge
      have hm := (h (pre ++ a :: mid') m (rest ++ b :: post) (by rw [hsplit]; simp)
        (hsame ▸ hle)).1
      rw [hsame] at hm
      exact hm
    have hsum : ∀ mid' rest, mid = mid' ++ rest →
        view.total s mid' = mid'.length * view.blockDelta s a.height.toNat := by
      intro mid'
      induction mid' using List.reverseRecOn with
      | nil => exact fun _ _ => by simp [total]
      | append_singleton mid' m ihm =>
        intro rest hmid'
        rw [List.append_assoc] at hmid'
        rw [total_append, ihm _ hmid', total_cons, hmid mid' m rest hmid']
        simp only [total, List.map_nil, List.sum_nil, List.length_append, List.length_singleton]
        push_cast
        ring
    have hnonneg := (view.funded s (pre ++ [a]) (mid ++ b :: post) (by rw [hsplit]; simp)).1
    have hnonneg' := (view.funded s (pre ++ a :: (mid ++ [b])) post (by rw [hsplit]; simp)).1
    change 0 ≤ view.total s _ at hnonneg hnonneg'
    have htotal := hsum mid [] (by simp)
    simp only [total_append, total_cons] at hbalance hbalance' hnonneg hnonneg'
    have hnil : view.total s [] = 0 := rfl
    rw [hnil] at hnonneg hnonneg'
    have hzero : (mid.length + 1 : Int) * view.blockDelta s a.height.toNat = 0 := by
      rw [add_mul, one_mul, ← htotal]
      omega
    have hblock : view.blockDelta s a.height.toNat = 0 := by
      rcases mul_eq_zero.mp hzero with hlen | hblock
      · omega
      · exact hblock
    rw [hdelta, hdelta', hblock]
    exact ⟨rfl, rfl⟩

end Split

end ElectrumView

end Usdb.Balances
