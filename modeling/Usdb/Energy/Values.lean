import Usdb.Energy.States

namespace Usdb

open Framework MinerPassStorage PassEnergyStorage PassEnergyManager InscriptionIndexer

namespace PassEnergyManager

theorem projectEnergyRecord_active {r : PassEnergyRecord} (k : Nat) (ha : r.state = .Active) :
    projectEnergyRecordNoBalanceChange r k =
      { energy := projectedEnergy r k, state := .Active } := by
  unfold projectEnergyRecordNoBalanceChange projectedEnergy
  by_cases hlt : r.blockHeight < k
  · have hc : ¬(k ≤ r.blockHeight ∨ r.state ≠ .Active) := by
      rw [not_or]
      exact ⟨Nat.not_le.mpr hlt, not_not_intro ha⟩
    rw [if_neg hc, if_pos hlt, calcIncrementalGrowth, if_neg (Nat.not_le.mpr hlt), ha]
  · rw [if_pos (.inl (Nat.le_of_not_lt hlt)), if_neg hlt, ha]

theorem projectEnergyRecord_still {r : PassEnergyRecord} (k : Nat) (hs : r.state ≠ .Active) :
    projectEnergyRecordNoBalanceChange r k = { energy := r.energy, state := r.state } := by
  unfold projectEnergyRecordNoBalanceChange
  rw [if_pos (.inr hs)]

theorem energyAnswer_congr {e e' : PassEnergyStorage} {id : InscriptionId} {k : Nat}
    (h : ∀ j, j ≤ k → e.getPassEnergyRecord id j = e'.getPassEnergyRecord id j) :
    energyAnswer e id k = energyAnswer e' id k := by
  unfold energyAnswer
  rw [findLastPassEnergyRecord_congr e e' id k h]

end PassEnergyManager

namespace Ledger

variable {bh : BalanceHistory} {ps : MinerPassStorage} {log : List NewPassLog}
  {e : PassEnergyStorage} {height k : Nat} {id : InscriptionId} {p : MinerPassInfo}

section Answers

variable (hl : Ledger bh.scheme ps log e height) (ht : TableInv ps height)
  (hv : ViewsProgress (fun _ => True) ps) (hp : ps.getPassByInscriptionId id = some p)
  (hk : k ≤ height)

include hl ht hv hp hk

/-- The answer for a pass while it is Active. -/
theorem answer_active (hs : ps.stateAt id k = some .Active) :
    energyAnswer e id k = some
      { energy := (accruedAt bh p.mintOwner p.mintBlockHeight (inheritedEnergy log p.inscriptionId)
          k).1
        state := .Active } := by
  obtain ⟨j, r, hlast, hm, hstate, hentry, hdue⟩ := findLast_active (ht.life hv hp)
    (fun j hj => hl.entries id p hp j (Nat.le_trans hj hk)) hs
  obtain ⟨hjk, hget, -⟩ := (findLast_eq_some _ _ _ _).mp hlast
  have hkey := (getPassEnergyRecord_key e id j r hget).2
  have hle : r.blockHeight ≤ k := by omega
  have hvalue := OnCurve.projected (accruedAt_accrues bh _ _ _) hentry hle
    (fun i hi hik => not_not.mp (hdue i (by omega) hik))
  unfold energyAnswer
  rw [findLastPassEnergyRecord_of_findLast hlast, Option.map_some,
    projectEnergyRecord_active k hstate, hvalue]

/-- The answer for a pass that has been put to rest is the one of the block in which it
stopped being Active. -/
theorem answer_dormant (hs : ps.stateAt id k = some .Dormant) :
    ∃ stop, p.mintBlockHeight ≤ stop ∧ stop ≤ k ∧ ps.stateAt id stop = some .Dormant ∧
      (∀ i, p.mintBlockHeight ≤ i → i < stop → ps.stateAt id i = some .Active) ∧
      energyAnswer e id k = some
        { energy := (accruedAt bh p.mintOwner p.mintBlockHeight
            (inheritedEnergy log p.inscriptionId) stop).1
          state := .Dormant } := by
  obtain ⟨stop, r, hlast, hm, hle, hstop, hbefore, hstate, hfrozen⟩ := findLast_dormant
    (ht.life hv hp) (fun j hj => hl.entries id p hp j (Nat.le_trans hj hk)) hs
  refine ⟨stop, hm, hle, hstop, hbefore, ?_⟩
  have hvalue : r.energy = _ := hfrozen
  unfold energyAnswer
  rw [findLastPassEnergyRecord_of_findLast hlast, Option.map_some,
    projectEnergyRecord_still k (by rw [hstate]; decide), hstate, hvalue]

omit ht hv in
theorem answer_consumed (hs : ps.stateAt id k = some .Consumed) :
    energyAnswer e id k = some { energy := 0, state := .Consumed } := by
  obtain ⟨j, r, hlast, hstate, hzero⟩ :=
    findLast_consumed (fun j hj => hl.entries id p hp j (Nat.le_trans hj hk)) hs
  unfold energyAnswer
  rw [findLastPassEnergyRecord_of_findLast hlast, Option.map_some,
    projectEnergyRecord_still k (by rw [hstate]; decide), hstate, hzero]

/-- A pass has no answer before its mint. -/
theorem answer_unborn (hs : k < p.mintBlockHeight) : energyAnswer e id k = none := by
  unfold energyAnswer
  rw [Option.map_eq_none_iff, findLastPassEnergyRecord_eq_none]
  intro j hj
  exact (hl.entries id p hp j (Nat.le_trans hj hk)).none ((ht.life hv hp).unborn j (by omega))

end Answers

end Ledger

/-- A block attempt changes no answer below its height. -/
theorem LowKept.answers {bh : BalanceHistory} {lowest height : Nat} {s₀ : IndexerState}
    {e : PassEnergyStorage} (h : LowKept bh.scheme lowest height s₀ e)
    (hl : Ledger bh.scheme s₀.passStorage s₀.log s₀.energyStorage height)
    (ht : TableInv s₀.passStorage height) (hv : ViewsProgress (fun _ => True) s₀.passStorage)
    (id : InscriptionId) {k : Nat} (hk : k ≤ height) :
    energyAnswer e id k = energyAnswer s₀.energyStorage id k := by
  have hl' := LowKept.ledger hl ht hv h (fun _ _ _ => rfl)
  by_cases hactive : ∃ p, s₀.passStorage.getPassByInscriptionId id = some p ∧ p.state = .Active
  · obtain ⟨p, hp, ha⟩ := hactive
    have hnow : s₀.passStorage.stateAt id height = some .Active := by
      rw [ht.stateAt_current hp (Nat.le_refl _), ha]
    by_cases hm : p.mintBlockHeight ≤ k
    · have hs := (ht.life hv hp).active_before hnow hm hk
      rw [hl'.answer_active ht hv hp hk hs, hl.answer_active ht hv hp hk hs]
    · rw [hl'.answer_unborn ht hv hp hk (by omega), hl.answer_unborn ht hv hp hk (by omega)]
  · refine energyAnswer_congr (fun j hj => h.others id (fun p hp ha => ?_) j (by omega))
    exact hactive ⟨p, hp, ha⟩

section Reference

variable (bh : BalanceHistory) (owner : USDBScriptHash) (mint start : Nat)

/-- The reference recurrence, some blocks after the mint: growth on the balance before the
block, then the penalty of a loss. How energies add up is a parameter. -/
def referenceEnergy (add : Nat → Nat → Nat) : Nat → Nat
  | 0 => start
  | n + 1 =>
    let balance := bh.balanceAt owner (mint + n)
    let delta := bh.deltaAt owner (mint + n + 1)
    let grown := add (referenceEnergy add n) (if 100000 ≤ balance then balance * 10000 else 0)
    if delta < 0 then grown - 43200000 * delta.natAbs else grown

/-- The block the growth window starts in, some blocks after the mint: the last loss, or
the mint. -/
def growthStart : Nat → Nat
  | 0 => mint
  | n + 1 => if bh.deltaAt owner (mint + n + 1) < 0 then mint + n + 1 else growthStart n

theorem growthStart_le (n : Nat) : growthStart bh owner mint n ≤ mint + n := by
  induction n with
  | zero => exact Nat.le_refl _
  | succ n ih =>
    unfold growthStart
    split <;> omega

theorem accrued_window (n : Nat) : (accrued bh owner mint start n).2 = growthStart bh owner mint n := by
  induction n with
  | zero => rfl
  | succ n ih =>
    unfold accrued accrue growthStart
    dsimp only
    split
    · rfl
    · exact ih

/-- Below the saturation of the products one block grows by the plain product. -/
theorem calcIncrementalGrowth_plain {balance active k : Nat} (hk : active ≤ k)
    (h : balance * 10000 * (k + 1 - active) < 2 ^ 64) :
    calcIncrementalGrowth balance active k (k + 1) =
      if 100000 ≤ balance then balance * 10000 else 0 := by
  have hplain : ∀ r, r ≤ k + 1 - active → ¬balance < energyBalanceThreshold →
      calcGrowthDelta balance r = balance * 10000 * r := by
    intro r hr hb
    have hle := Nat.mul_le_mul_left (balance * 10000) hr
    have hone : balance * 10000 ≤ balance * 10000 * (k + 1 - active) :=
      Nat.le_mul_of_pos_right _ (by omega)
    unfold calcGrowthDelta
    rw [if_neg hb]
    unfold satMul128 energyGrowthMultiplier saturatingU128ToU64 u64Max
    rw [Nat.min_eq_left (show balance * 10000 ≤ 2 ^ 128 - 1 by omega),
      Nat.min_eq_left (by omega), if_neg (by omega)]
  unfold calcIncrementalGrowth
  rw [if_neg (by omega)]
  by_cases hb : balance < energyBalanceThreshold
  · unfold energyBalanceThreshold at hb
    rw [if_neg (by omega)]
    simp [calcGrowthDelta, energyBalanceThreshold, hb]
  · rw [hplain _ (Nat.le_refl _) hb, hplain (k - active) (by omega) hb]
    unfold energyBalanceThreshold at hb
    rw [if_pos (by omega), show k + 1 - active = k - active + 1 by omega, Nat.mul_succ]
    omega

/-- A saturated penalty takes all there is, as the exact one does. -/
theorem sub_calcPenaltyFromDelta {energy : Nat} {delta : Int} (he : energy ≤ u64Max)
    (hd : delta < 0) : energy - calcPenaltyFromDelta delta = energy - 43200000 * delta.natAbs := by
  unfold calcPenaltyFromDelta saturatingU128ToU64 satMul128 energyPenaltyMultiplier
  unfold u64Max at he ⊢
  rw [if_neg (by omega)]
  split <;> omega

/-- The accrual is the reference recurrence with saturating additions, as long as no
growth product saturates. -/
theorem accrued_eq_reference (n : Nat)
    (h : ∀ i, i < n → bh.balanceAt owner (mint + i) * 10000 *
      (mint + i + 1 - growthStart bh owner mint i) < 2 ^ 64) :
    (accrued bh owner mint start n).1 = referenceEnergy bh owner mint start satAdd n := by
  induction n with
  | zero => rfl
  | succ n ih =>
    have hprev := ih (fun i hi => h i (by omega))
    have hgrowth := calcIncrementalGrowth_plain (growthStart_le bh owner mint n) (h n (by omega))
    unfold accrued accrue referenceEnergy
    dsimp only
    rw [accrued_window, hgrowth, hprev]
    split
    · exact sub_calcPenaltyFromDelta (satAdd_le _ _) ‹_›
    · rfl

end Reference

/-- In every run whose blocks are served from a balance history that keeps its past, the
energy of a pass at every synced height follows the reference recurrence with saturating
additions while no growth product reaches 2^64: up to the height while it is Active, up to
the block it stopped in while it is Dormant, and it is 0 once it is Consumed. -/
theorem World.Reachable.energy_recurrence (cfg : IndexerConfig) (w : World)
    (h : World.Reachable cfg (BooksRule.values.Admits cfg) w) (height : Nat)
    (hheight : height ≤ w.height cfg) (id : InscriptionId) (p : MinerPassInfo)
    (hp : w.indexer.passStorage.getPassByInscriptionId id = some p)
    (hproducts : ∀ i, p.mintBlockHeight + i < height →
      w.balances.balanceAt p.mintOwner (p.mintBlockHeight + i) * 10000 *
        (p.mintBlockHeight + i + 1 - growthStart w.balances p.mintOwner p.mintBlockHeight i) <
          2 ^ 64) :
    (w.indexer.passStorage.stateAt id height = some .Active →
      energyAnswer w.indexer.energyStorage id height = some
        { energy := referenceEnergy w.balances p.mintOwner p.mintBlockHeight
            (inheritedEnergy w.indexer.log id) satAdd (height - p.mintBlockHeight)
          state := .Active }) ∧
    (w.indexer.passStorage.stateAt id height = some .Dormant →
      ∃ stop, p.mintBlockHeight ≤ stop ∧ stop ≤ height ∧
        w.indexer.passStorage.stateAt id stop = some .Dormant ∧
        (∀ k, p.mintBlockHeight ≤ k → k < stop →
          w.indexer.passStorage.stateAt id k = some .Active) ∧
        energyAnswer w.indexer.energyStorage id height = some
          { energy := referenceEnergy w.balances p.mintOwner p.mintBlockHeight
              (inheritedEnergy w.indexer.log id) satAdd (stop - p.mintBlockHeight)
            state := .Dormant }) ∧
    (w.indexer.passStorage.stateAt id height = some .Consumed →
      energyAnswer w.indexer.energyStorage id height = some { energy := 0, state := .Consumed }) := by
  have hi := h.energyInv monotone_const (fun k => Nat.zero_le k)
    (fun w l hc => ⟨hc, World.failsSafely_zero cfg w l⟩)
  have hpasses := h.passInv
  have hledger := hi.books.ledger
  have hkey := getPassByInscriptionId_key hp
  have hvalue : ∀ k, p.mintBlockHeight ≤ k → k ≤ height →
      (accruedAt w.balances p.mintOwner p.mintBlockHeight
        (inheritedEnergy w.indexer.log p.inscriptionId) k).1 =
      referenceEnergy w.balances p.mintOwner p.mintBlockHeight (inheritedEnergy w.indexer.log id)
        satAdd (k - p.mintBlockHeight) := by
    intro k hm hk
    rw [hkey]
    exact accrued_eq_reference _ _ _ _ _ (fun i hi => hproducts i (by omega))
  refine ⟨fun hs => ?_, fun hs => ?_, fun hs => hledger.answer_consumed hp hheight hs⟩
  · have hm := (hpasses.table.life hpasses.views hp).mint_le hs
    have hanswer := hledger.answer_active hpasses.table hpasses.views hp hheight hs
    rw [hvalue height hm (Nat.le_refl _)] at hanswer
    exact hanswer
  · obtain ⟨stop, hm, hle, hstop, hbefore, hanswer⟩ :=
      hledger.answer_dormant hpasses.table hpasses.views hp hheight hs
    rw [hvalue stop hm hle] at hanswer
    exact ⟨stop, hm, hle, hstop, hbefore, hanswer⟩

namespace World

variable {cfg : IndexerConfig} {w w' : World} {l : Label}

/-- The block is served from one history. -/
def ServedBy (bh : BalanceHistory) : Label → Prop
  | .block env balances _ => env.provider = bh.provider ∧ balances = bh
  | _ => True

theorem minerPasses_quiet {ps ps' : MinerPassStorage} (hn : ps.minerPasses = [])
    (h : QuietReach cfg ps ps') : ps'.minerPasses = [] := by
  induction h with
  | refl => exact hn
  | tail _ hstep ih =>
    cases hstep with
    | cleared => exact ih
    | rolledBack target lower upper constraints =>
      show List.filterMap _ _ = []
      rw [ih]
      rfl
    | adopted anchor genesis => exact ih
    | backfilled anchor => exact ih

/-- A run over one history is one over a history that keeps its past. -/
theorem Follows.values {bh : BalanceHistory} {labels : List Label}
    (h : Follows cfg (fun _ _ => True) w labels) (hl : ∀ l ∈ labels, ServedBy bh l)
    (hw : w.indexer.passStorage.minerPasses = [] ∨ w.balances = bh) :
    Follows cfg (BooksRule.values.Admits cfg) w labels := by
  induction labels generalizing w with
  | nil => trivial
  | cons l rest ih =>
    have hserved := hl l (by simp)
    refine ⟨h.1, ?_, ih h.2.2 (fun l hl' => hl l (by simp [hl'])) ?_⟩
    · cases l with
      | block env balances faults =>
        obtain ⟨hprovider, rfl⟩ := hserved
        refine ⟨hprovider, hw.imp_right (fun hb => ?_)⟩
        rw [hb]
        exact fun _ _ _ => rfl
      | prepare _ _ => trivial
      | finish _ _ _ => trivial
      | restart _ => trivial
    · have hstep : Step cfg w l (next cfg w l) := ⟨h.1, rfl⟩
      rcases hstep.quiet_or_block with ⟨hq, -, -, hb⟩ | ⟨env, balances, faults, t, rfl, -, -, hnext⟩
      · rw [hb]
        exact hw.imp_left (fun hn => minerPasses_quiet hn hq)
      · rw [hnext]
        exact .inr hserved.2

end World

namespace Sample

/-- Owner 7 receives ten million BTC in block 1 and pays one sat in block 2. -/
def wealthyRows (address : USDBScriptHash) (height : Nat) : Option (Nat × Int) :=
  if address = 7 ∧ height = 1 then some (10 ^ 15, 10 ^ 15)
  else if address = 7 ∧ height = 2 then some (10 ^ 15 - 1, -1) else none

theorem wealthyRows_consistent : ∀ address height row, wealthyRows address (height + 1) = some row →
    ((row.1 : Int) = (((findLast (wealthyRows address) height).map (·.2.1)).getD 0 : Nat) +
      row.2) := by
  intro address height row h
  unfold wealthyRows at h
  split at h
  · rename_i hc
    cases h
    obtain ⟨-, hh⟩ := hc
    obtain rfl : height = 0 := by omega
    simp [findLast, wealthyRows]
  · split at h
    · rename_i hc
      cases h
      obtain ⟨rfl, hh⟩ := hc
      obtain rfl : height = 1 := by omega
      simp [findLast, wealthyRows]
    · cases h

def wealthy : BalanceHistory := ⟨wealthyRows, wealthyRows_consistent⟩

/-- Owner 7 mints in block 1, and two blocks without events follow. -/
def mintAndWait (balances : BalanceHistory) : List Label :=
  [.prepare none [],
   .block (env balances 1 [payment 1 ⟨0, 0⟩ 7] [mint 1 []]) balances [],
   .block (env balances 2 [] []) balances [],
   .block (env balances 3 [] []) balances []]

theorem mintAndWait_served (balances : BalanceHistory) :
    ∀ l ∈ mintAndWait balances, World.ServedBy balances l := by
  intro l hl
  simp only [mintAndWait, List.mem_cons, List.not_mem_nil, or_false] at hl
  rcases hl with rfl | rfl | rfl | rfl
  · trivial
  all_goals exact ⟨rfl, rfl⟩

end Sample

/-- A pass of an owner with 100000 sats grows by 10^9 in every block. -/
theorem World.Reachable.energy_recurrence_funded :
    ∃ w, World.Reachable Sample.config (BooksRule.values.Admits Sample.config) w ∧
      w.height Sample.config = 3 ∧
      energyAnswer w.indexer.energyStorage ⟨1, 0⟩ 3 =
        some { energy := 2000000000, state := .Active } := by
  have hfollows : World.Follows Sample.config (fun _ _ => True) World.initial
      (Sample.mintAndWait Sample.funded) := by decide +kernel
  have hrun : World.Reachable Sample.config (BooksRule.values.Admits Sample.config)
      ((Sample.mintAndWait Sample.funded).foldl (World.next Sample.config) World.initial) :=
    World.Run.of_follows (.refl _) (hfollows.values (Sample.mintAndWait_served _) (.inl rfl))
  refine ⟨_, hrun, by decide +kernel, ?_⟩
  generalize hw : (Sample.mintAndWait Sample.funded).foldl (World.next Sample.config)
    World.initial = w at hrun ⊢
  have hrow : (w.indexer.passStorage.getPassByInscriptionId ⟨1, 0⟩).map
      (fun p => (p.mintBlockHeight, p.mintOwner)) = some (1, 7) := by
    rw [← hw]
    decide +kernel
  obtain ⟨p, hp, hmint⟩ := Option.map_eq_some_iff.mp hrow
  obtain ⟨hm, ho⟩ := Prod.mk.inj hmint
  have hproducts : ∀ i, p.mintBlockHeight + i < 3 →
      w.balances.balanceAt p.mintOwner (p.mintBlockHeight + i) * 10000 *
        (p.mintBlockHeight + i + 1 - growthStart w.balances p.mintOwner p.mintBlockHeight i) <
          2 ^ 64 := by
    rw [hm, ho, ← hw]
    intro i hi
    obtain rfl | rfl : i = 0 ∨ i = 1 := by omega
    · decide +kernel
    · decide +kernel
  have hvalue := (World.Reachable.energy_recurrence Sample.config w hrun 3
    (by rw [← hw]; decide +kernel) ⟨1, 0⟩ p hp hproducts).1 (by rw [← hw]; decide +kernel)
  rw [hvalue, hm, ho, ← hw]
  decide +kernel

/-- Energies add up with saturation: the pass of a wealthy owner stops at `u64::MAX` after
a loss has started a second growth window, although no growth product reaches 2^64. -/
theorem World.Reachable.energy_saturates :
    ∃ w, World.Reachable Sample.config (BooksRule.values.Admits Sample.config) w ∧
      w.height Sample.config = 3 ∧ w.indexer.passStorage.stateAt ⟨1, 0⟩ 3 = some .Active ∧
      (∀ i, 1 + i < 3 → w.balances.balanceAt 7 (1 + i) * 10000 *
        (1 + i + 1 - growthStart w.balances 7 1 i) < 2 ^ 64) ∧
      energyAnswer w.indexer.energyStorage ⟨1, 0⟩ 3 =
        some { energy := 2 ^ 64 - 1, state := .Active } ∧
      referenceEnergy w.balances 7 1 (inheritedEnergy w.indexer.log ⟨1, 0⟩) (· + ·) (3 - 1) ≠
        2 ^ 64 - 1 := by
  have hfollows : World.Follows Sample.config (fun _ _ => True) World.initial
      (Sample.mintAndWait Sample.wealthy) := by decide +kernel
  have hrun : World.Reachable Sample.config (BooksRule.values.Admits Sample.config)
      ((Sample.mintAndWait Sample.wealthy).foldl (World.next Sample.config) World.initial) :=
    World.Run.of_follows (.refl _) (hfollows.values (Sample.mintAndWait_served _) (.inl rfl))
  refine ⟨_, hrun, by decide +kernel, by decide +kernel, fun i hi => ?_, by decide +kernel,
    by decide +kernel⟩
  obtain rfl | rfl : i = 0 ∨ i = 1 := by omega
  · decide +kernel
  · decide +kernel

end Usdb
