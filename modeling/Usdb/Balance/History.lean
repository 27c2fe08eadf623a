import Usdb.Index.Energy

namespace Usdb

open Framework

/-- The rows of balance-history: for each address and height, the balance after the
block and its net change, when the block touched the address. -/
structure BalanceHistory where
  rowAt : USDBScriptHash → Nat → Option (Nat × Int)
  /-- Each row continues the one before it. -/
  consistent : ∀ address height row, rowAt address (height + 1) = some row →
    ((row.1 : Int) = (((findLast (rowAt address) height).map (·.2.1)).getD 0 : Nat) + row.2)

namespace BalanceHistory

def empty : BalanceHistory where
  rowAt := fun _ _ => none
  consistent := by
    intro address height row h
    cases h

def balanceAt (bh : BalanceHistory) (address : USDBScriptHash) (height : Nat) : Nat :=
  ((findLast (bh.rowAt address) height).map (·.2.1)).getD 0

def deltaAt (bh : BalanceHistory) (address : USDBScriptHash) (height : Nat) : Int :=
  ((bh.rowAt address height).map (·.2)).getD 0

/-- The answer to a query at a height: the last row at or below it. -/
def atOrBefore (bh : BalanceHistory) (address : USDBScriptHash) (height : Nat) : AddressBalance :=
  match findLast (bh.rowAt address) height with
  | some (h, row) => { blockHeight := h, balance := row.1, delta := row.2 }
  | none => { blockHeight := 0, balance := 0, delta := 0 }

/-- The service a consistent history gives. -/
def provider (bh : BalanceHistory) : BalanceProvider where
  getBalanceAtHeight := fun address height => [bh.atOrBefore address height]
  getBalanceAtRange := fun address first last =>
    (List.range' first (last - first)).filterMap (fun height =>
      (bh.rowAt address height).map (fun row =>
        { blockHeight := height, balance := row.1, delta := row.2 }))
  loadBalances := fun addresses height =>
    addresses.map (fun address => (address, bh.atOrBefore address height))

/-- Two histories with the same rows up to a height. -/
def AgreesUpTo (bh bh' : BalanceHistory) (height : Nat) : Prop :=
  ∀ address h, h ≤ height → bh.rowAt address h = bh'.rowAt address h

theorem balanceAt_succ (bh : BalanceHistory) (address : USDBScriptHash) (height : Nat) :
    (bh.balanceAt address (height + 1) : Int) =
      bh.balanceAt address height + bh.deltaAt address (height + 1) := by
  unfold balanceAt deltaAt
  cases hr : bh.rowAt address (height + 1) with
  | none => simp [findLast, hr]
  | some row => simpa [findLast, hr] using bh.consistent address height row hr

theorem atOrBefore_balance (bh : BalanceHistory) (address : USDBScriptHash) (height : Nat) :
    (bh.atOrBefore address height).balance = bh.balanceAt address height := by
  unfold atOrBefore balanceAt
  cases findLast (bh.rowAt address) height <;> rfl

theorem balanceAt_congr (bh bh' : BalanceHistory) (address : USDBScriptHash) (height bound : Nat)
    (h : bh.AgreesUpTo bh' bound) (hle : height ≤ bound) :
    bh.balanceAt address height = bh'.balanceAt address height := by
  unfold balanceAt
  rw [findLast_congr _ _ height (fun j hj => h address j (by omega))]

theorem deltaAt_congr (bh bh' : BalanceHistory) (address : USDBScriptHash) (height bound : Nat)
    (h : bh.AgreesUpTo bh' bound) (hle : height ≤ bound) :
    bh.deltaAt address height = bh'.deltaAt address height := by
  unfold deltaAt
  rw [h address height hle]

end BalanceHistory

end Usdb
