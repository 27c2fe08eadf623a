import Usdb.Energy.Ledger
import Usdb.Balance.History
import Usdb.Index.EnergyOps

namespace Usdb

open Framework PassEnergyManager

/-- One block of energy: growth on the balance before the block, then the penalty of a
loss, which starts a new growth window. -/
def accrue (bh : BalanceHistory) (owner : USDBScriptHash) (k : Nat) (acc : Nat × Nat) : Nat × Nat :=
  let grown := satAdd acc.1 (calcIncrementalGrowth (bh.balanceAt owner k) acc.2 k (k + 1))
  if bh.deltaAt owner (k + 1) < 0 then
    (grown - calcPenaltyFromDelta (bh.deltaAt owner (k + 1)), k + 1)
  else (grown, acc.2)

/-- Energy and start of the growth window some blocks after the mint. -/
def accrued (bh : BalanceHistory) (owner : USDBScriptHash) (mint start : Nat) : Nat → Nat × Nat
  | 0 => (start, mint)
  | n + 1 => accrue bh owner (mint + n) (accrued bh owner mint start n)

def accruedAt (bh : BalanceHistory) (owner : USDBScriptHash) (mint start k : Nat) : Nat × Nat :=
  accrued bh owner mint start (k - mint)

section Accrual

variable (bh : BalanceHistory) (owner : USDBScriptHash) (mint start : Nat)

theorem accruedAt_mint : accruedAt bh owner mint start mint = (start, mint) := by
  simp [accruedAt, accrued]

theorem accruedAt_succ {k : Nat} (hk : mint ≤ k) :
    accruedAt bh owner mint start (k + 1) = accrue bh owner k (accruedAt bh owner mint start k) := by
  unfold accruedAt
  rw [Nat.succ_sub hk, accrued, Nat.add_sub_cancel' hk]

theorem balanceAt_still {j : Nat} (n : Nat)
    (hd : ∀ i, j < i → i ≤ j + n → bh.deltaAt owner i = 0) :
    bh.balanceAt owner (j + n) = bh.balanceAt owner j := by
  induction n with
  | zero => rfl
  | succ n ih =>
    have hprev := ih (fun i hi hle => hd i hi (by omega))
    have hstep := bh.balanceAt_succ owner (j + n)
    rw [show j + n + 1 = j + (n + 1) by omega] at hstep
    rw [hd (j + (n + 1)) (by omega) (Nat.le_refl _)] at hstep
    omega

end Accrual

/-- Pairs of energy and window start that follow a history block by block from a height on. -/
def Accrues (bh : BalanceHistory) (owner : USDBScriptHash) (first : Nat) (acc : Nat → Nat × Nat) :
    Prop :=
  ∀ k, first ≤ k → acc (k + 1) = accrue bh owner k (acc k)

theorem accruedAt_accrues (bh : BalanceHistory) (owner : USDBScriptHash) (mint start : Nat) :
    Accrues bh owner mint (accruedAt bh owner mint start) :=
  fun _ hk => accruedAt_succ bh owner mint start hk

/-- A record of the owner that has the balance and the energy of its height. -/
def OnCurve (bh : BalanceHistory) (owner : USDBScriptHash) (first : Nat) (acc : Nat → Nat × Nat)
    (r : PassEnergyRecord) : Prop :=
  first ≤ r.blockHeight ∧ r.ownerAddress = owner ∧
    r.ownerBalance = bh.balanceAt owner r.blockHeight ∧
    (r.energy, r.activeBlockHeight) = acc r.blockHeight

section Curve

variable {bh : BalanceHistory} {owner : USDBScriptHash} {first : Nat} {acc : Nat → Nat × Nat}

/-- Blocks without a change only add growth, which one projection gives as well. -/
theorem Accrues.still (hacc : Accrues bh owner first acc) {j : Nat} (hj : first ≤ j) (n : Nat)
    (hd : ∀ i, j < i → i ≤ j + n → bh.deltaAt owner i = 0) :
    acc (j + n + 1) = accrue bh owner (j + n) (acc (j + n)) ∧
    satAdd (acc (j + n)).1
        (calcIncrementalGrowth (bh.balanceAt owner (j + n)) (acc (j + n)).2 (j + n) (j + n + 1)) =
      satAdd (acc j).1
        (calcIncrementalGrowth (bh.balanceAt owner j) (acc j).2 j (j + n + 1)) ∧
    (acc (j + n)).2 = (acc j).2 := by
  refine ⟨hacc _ (by omega), ?_⟩
  induction n with
  | zero => exact ⟨rfl, rfl⟩
  | succ n ih =>
    obtain ⟨hgrown, hwindow⟩ := ih (fun i hi hle => hd i hi (by omega))
    have hzero : ¬bh.deltaAt owner (j + n + 1) < 0 := by
      rw [hd (j + n + 1) (by omega) (by omega)]
      exact Int.lt_irrefl 0
    have hstep := hacc (j + n) (by omega)
    rw [accrue, if_neg hzero] at hstep
    have hb := balanceAt_still bh owner n (fun i hi hle => hd i hi (by omega))
    have hb' := balanceAt_still bh owner (n + 1) hd
    rw [show j + (n + 1) = j + n + 1 by omega] at hb' ⊢
    rw [hstep]
    dsimp only
    refine ⟨?_, hwindow⟩
    rw [hgrown, hwindow, hb', satAdd_satAdd,
      calcIncrementalGrowth_add _ _ _ _ _ (by omega) (by omega)]

/-- The projection of a record to a later height that no change lies before. -/
theorem Accrues.project (hacc : Accrues bh owner first acc) {j k : Nat} (hj : first ≤ j)
    (hjk : j < k) (hd : ∀ i, j < i → i ≤ k → bh.deltaAt owner i = 0) :
    acc k = (satAdd (acc j).1 (calcIncrementalGrowth (bh.balanceAt owner j) (acc j).2 j k),
      (acc j).2) := by
  obtain ⟨n, rfl⟩ : ∃ n, k = j + n + 1 := ⟨k - j - 1, by omega⟩
  obtain ⟨hstep, hgrown, hwindow⟩ := hacc.still hj n (fun i hi hle => hd i hi (by omega))
  have hzero : ¬bh.deltaAt owner (j + n + 1) < 0 := by
    rw [hd (j + n + 1) (by omega) (Nat.le_refl _)]
    exact Int.lt_irrefl 0
  rw [hstep, accrue, if_neg hzero, hgrown, hwindow]

/-- A row that continues a record over unchanged blocks gives one. -/
theorem OnCurve.advance (hacc : Accrues bh owner first acc) {last : PassEnergyRecord}
    (id : InscriptionId) (h : OnCurve bh owner first acc last) {row : AddressBalance}
    (hlt : last.blockHeight < row.blockHeight)
    (hd : ∀ k, last.blockHeight < k → k < row.blockHeight → bh.deltaAt owner k = 0)
    (hb : row.balance = bh.balanceAt owner row.blockHeight)
    (hdelta : row.delta = bh.deltaAt owner row.blockHeight) :
    OnCurve bh owner first acc (advanceRecord id last owner row) := by
  obtain ⟨hm, -, hbal, hpair⟩ := h
  have henergy : last.energy = _ := congrArg Prod.fst hpair
  have hactive : last.activeBlockHeight = _ := congrArg Prod.snd hpair
  obtain ⟨n, hn⟩ : ∃ n, row.blockHeight = last.blockHeight + n + 1 :=
    ⟨row.blockHeight - last.blockHeight - 1, by omega⟩
  obtain ⟨hstep, hgrown, hwindow⟩ := hacc.still hm n (fun i hi hle => hd i hi (by omega))
  refine ⟨Nat.le_trans hm (Nat.le_of_lt hlt), rfl, hb, ?_⟩
  show (_, _) = acc row.blockHeight
  rw [hn, hstep, accrue, hgrown, hwindow, ← hn, ← hdelta, ← henergy, ← hactive, ← hbal]
  unfold advanceRecord
  dsimp only
  split <;> rfl

theorem OnCurve.projected (hacc : Accrues bh owner first acc) {height : Nat}
    {last : PassEnergyRecord} (h : OnCurve bh owner first acc last) (hle : last.blockHeight ≤ height)
    (hd : ∀ k, last.blockHeight < k → k ≤ height → bh.deltaAt owner k = 0) :
    projectedEnergy last height = (acc height).1 := by
  obtain ⟨hm, -, hbal, hpair⟩ := h
  have henergy : last.energy = _ := congrArg Prod.fst hpair
  have hactive : last.activeBlockHeight = _ := congrArg Prod.snd hpair
  unfold projectedEnergy
  split
  · rename_i hlt
    rw [hacc.project hm hlt hd, henergy, hactive, hbal]
  · obtain rfl : last.blockHeight = height := by omega
    exact henergy

end Curve

section Congruence

variable (bh : BalanceHistory) (owner : USDBScriptHash) (mint start : Nat)

theorem accruedAt_congr (bh' : BalanceHistory) {k bound : Nat} (hk : k ≤ bound)
    (h : bh.AgreesUpTo bh' bound) :
    accruedAt bh owner mint start k = accruedAt bh' owner mint start k := by
  rcases Nat.lt_or_ge k mint with hlt | hge
  · unfold accruedAt
    rw [Nat.sub_eq_zero_of_le (Nat.le_of_lt hlt)]
    rfl
  · obtain ⟨n, rfl⟩ := Nat.exists_eq_add_of_le hge
    induction n with
    | zero => rw [Nat.add_zero, accruedAt_mint, accruedAt_mint]
    | succ n ih =>
      rw [← Nat.add_assoc, accruedAt_succ _ _ _ _ (by omega), accruedAt_succ _ _ _ _ (by omega),
        ih (by omega) (by omega)]
      unfold accrue
      rw [bh.balanceAt_congr bh' owner (mint + n) bound h (by omega),
        bh.deltaAt_congr bh' owner (mint + n + 1) bound h (by omega)]

end Congruence

/-- The accounting that follows a balance history block by block. -/
def BalanceHistory.scheme (bh : BalanceHistory) : Scheme := fun owner mint start =>
  { entry := fun r => mint ≤ r.blockHeight ∧ r.ownerAddress = owner ∧
      r.ownerBalance = bh.balanceAt owner r.blockHeight ∧
      (r.energy, r.activeBlockHeight) = accruedAt bh owner mint start r.blockHeight
    frozen := fun k energy => energy = (accruedAt bh owner mint start k).1
    due := fun k => bh.deltaAt owner k ≠ 0 }

/-- The accounting that only asks for the right states. -/
def statesOnly : Scheme := fun _ _ _ =>
  { entry := fun _ => True
    frozen := fun _ _ => True
    due := fun _ => False }

/-- The balance service gives what a block needs to continue an accounting. -/
structure Scheme.Served (scheme : Scheme) (provider : BalanceProvider) (height : Nat) : Prop where
  inRange : ∀ address first last row, row ∈ provider.getBalanceAtRange address first last →
    first ≤ row.blockHeight ∧ row.blockHeight < last
  minted : ∀ id owner start, (scheme owner height start).entry (newPassRecord id owner height start
    ((provider.getBalanceAtHeight owner height).getLast?.getD
      { blockHeight := height, balance := 0, delta := 0 }))
  caughtUp : ∀ id owner mint start last, (scheme owner mint start).entry last →
    last.blockHeight ≤ height →
    (∀ r ∈ rowRecords id last (pendingRows provider last height),
      (scheme owner mint start).entry r) ∧
    (scheme owner mint start).frozen height
      (projectedEnergy (lastRowRecord id last (pendingRows provider last height)) height)
  settled : ∀ id mint start last owners (row : USDBScriptHash × AddressBalance),
    row ∈ provider.loadBalances owners height → (scheme row.1 mint start).entry last →
    last.blockHeight < height →
    (∀ k, last.blockHeight < k → k < height → ¬(scheme row.1 mint start).due k) →
    row.2.blockHeight = height → row.2.delta ≠ 0 →
    (scheme row.1 mint start).entry (advanceRecord id last row.1
      { blockHeight := height, balance := row.2.balance, delta := row.2.delta })
  still : ∀ mint start owners (row : USDBScriptHash × AddressBalance),
    row ∈ provider.loadBalances owners height →
    row.2.blockHeight < height ∨ row.2.delta = 0 → ¬(scheme row.1 mint start).due height

namespace BalanceHistory

variable (bh : BalanceHistory)

theorem provider_inRange (address : USDBScriptHash) (first last : Nat) (row : AddressBalance)
    (h : row ∈ bh.provider.getBalanceAtRange address first last) :
    first ≤ row.blockHeight ∧ row.blockHeight < last := by
  simp only [provider, List.mem_filterMap, List.mem_range'_1, Option.map_eq_some_iff] at h
  obtain ⟨k, hk, r, -, rfl⟩ := h
  dsimp only
  omega

theorem rows_of_provider (address : USDBScriptHash) (first count : Nat) :
    bh.provider.getBalanceAtRange address first (first + (count + 1)) =
      (match bh.rowAt address first with
        | some row => [{ blockHeight := first, balance := row.1, delta := row.2 }]
        | none => []) ++ bh.provider.getBalanceAtRange address (first + 1) (first + (count + 1)) := by
  simp only [provider]
  rw [show first + (count + 1) - first = count + 1 by omega,
    show first + (count + 1) - (first + 1) = count by omega, List.range'_succ,
    List.filterMap_cons]
  cases bh.rowAt address first <;> rfl

/-- The catch-up over a range stays on the curve, and no change comes after its last record. -/
theorem rows_onCurve {owner : USDBScriptHash} {first : Nat} {acc : Nat → Nat × Nat}
    (hacc : Accrues bh owner first acc) (id : InscriptionId) (count : Nat)
    {last : PassEnergyRecord} {next : Nat} (h : OnCurve bh owner first acc last)
    (hlt : last.blockHeight < next)
    (hd : ∀ k, last.blockHeight < k → k < next → bh.deltaAt owner k = 0) :
    (∀ r ∈ rowRecords id last (bh.provider.getBalanceAtRange owner next (next + count)),
      OnCurve bh owner first acc r ∧ r.ownerDelta = bh.deltaAt owner r.blockHeight) ∧
    ∃ j, OnCurve bh owner first acc
        (lastRowRecord id last (bh.provider.getBalanceAtRange owner next (next + count))) ∧
      (lastRowRecord id last
        (bh.provider.getBalanceAtRange owner next (next + count))).blockHeight = j ∧
      j < next + count ∧ ∀ k, j < k → k < next + count → bh.deltaAt owner k = 0 := by
  induction count generalizing last next with
  | zero =>
    have hnil : bh.provider.getBalanceAtRange owner next (next + 0) = [] := by
      simp [provider]
    rw [hnil]
    exact ⟨fun r hr => absurd hr List.not_mem_nil, last.blockHeight, h, rfl, hlt, hd⟩
  | succ count ih =>
    rw [rows_of_provider]
    have hassoc : next + (count + 1) = next + 1 + count := by omega
    cases hrow : bh.rowAt owner next with
    | none =>
      rw [hassoc]
      refine ih h (by omega) (fun k hk hle => ?_)
      rcases Nat.lt_or_ge k next with hkf | hkf
      · exact hd k hk hkf
      · obtain rfl : k = next := by omega
        simp [deltaAt, hrow]
    | some row =>
      have hbal : row.1 = bh.balanceAt owner next := by
        unfold balanceAt
        cases next with
        | zero => simp [findLast, hrow]
        | succ f => simp [findLast, hrow]
      have hdelta : row.2 = bh.deltaAt owner next := by simp [deltaAt, hrow]
      have hnext : OnCurve bh owner first acc (advanceRecord id last owner
          { blockHeight := next, balance := row.1, delta := row.2 }) :=
        h.advance hacc id hlt hd hbal hdelta
      have howner : last.ownerAddress = owner := h.2.1
      rw [hassoc]
      dsimp only [List.singleton_append, List.cons_append, List.nil_append, rowRecords,
        lastRowRecord, List.foldl_cons]
      rw [howner]
      obtain ⟨hrest, hlast⟩ := ih hnext (Nat.lt_succ_self next) (fun k hk hle => by
        have hk' : next < k := hk
        omega)
      refine ⟨fun r hr => ?_, hlast⟩
      rcases List.mem_cons.mp hr with rfl | hr
      · exact ⟨hnext, hdelta⟩
      · exact hrest r hr

theorem atOrBefore_of_height {address : USDBScriptHash} {height : Nat}
    (h : (bh.atOrBefore address height).blockHeight = height)
    (hd : (bh.atOrBefore address height).delta ≠ 0) :
    bh.rowAt address height =
      some ((bh.atOrBefore address height).balance, (bh.atOrBefore address height).delta) := by
  unfold atOrBefore at h hd ⊢
  cases hl : findLast (bh.rowAt address) height with
  | none =>
    rw [hl] at hd
    exact absurd rfl hd
  | some found =>
    obtain ⟨k, row⟩ := found
    rw [hl] at h
    dsimp only at h ⊢
    rw [← h]
    exact ((findLast_eq_some _ _ _ _).mp hl).2.1

theorem deltaAt_of_still {address : USDBScriptHash} {height : Nat}
    (h : (bh.atOrBefore address height).blockHeight < height ∨
      (bh.atOrBefore address height).delta = 0) : bh.deltaAt address height = 0 := by
  unfold deltaAt
  cases hr : bh.rowAt address height with
  | none => rfl
  | some row =>
    have hl : findLast (bh.rowAt address) height = some (height, row) := by
      cases height with
      | zero => simp [findLast, hr]
      | succ k => simp [findLast, hr]
    unfold atOrBefore at h
    rw [hl] at h
    rcases h with h | h
    · exact absurd h (Nat.lt_irrefl _)
    · exact h

theorem scheme_served (height : Nat) : bh.scheme.Served bh.provider height where
  inRange := bh.provider_inRange
  minted := fun id owner start =>
    ⟨Nat.le_refl _, rfl, bh.atOrBefore_balance owner height,
      (accruedAt_mint bh owner height start).symm⟩
  caughtUp := by
    intro id owner mint start last h hle
    obtain ⟨hrows, j, hentry, hj, hlt, hd⟩ := bh.rows_onCurve (accruedAt_accrues bh owner mint start)
      id (height - last.blockHeight) h (Nat.lt_succ_self _) (fun k hk hle => by omega)
    have hrange : last.blockHeight + 1 + (height - last.blockHeight) = height + 1 := by omega
    have howner : last.ownerAddress = owner := h.2.1
    rw [Nat.succ_eq_add_one, hrange] at hrows hentry hj hlt hd
    unfold pendingRows
    rw [howner]
    refine ⟨fun r hr => (hrows r hr).1, ?_⟩
    exact hentry.projected (accruedAt_accrues bh owner mint start) (by omega)
      (fun k hk hle => hd k (by omega) (by omega))
  settled := by
    intro id mint start last owners row hrow hentry hlt hd hheight hdelta
    obtain ⟨address, -, rfl⟩ := List.mem_map.mp hrow
    have hat := bh.atOrBefore_of_height hheight hdelta
    refine OnCurve.advance (accruedAt_accrues bh address mint start) id hentry hlt
      (fun k hk hkh => ?_) ?_ ?_
    · exact not_not.mp (hd k hk hkh)
    · exact bh.atOrBefore_balance address height
    · simp [deltaAt, hat]
  still := by
    intro mint start owners row hrow hstill
    obtain ⟨address, -, rfl⟩ := List.mem_map.mp hrow
    exact not_not_intro (bh.deltaAt_of_still hstill)

end BalanceHistory

end Usdb
