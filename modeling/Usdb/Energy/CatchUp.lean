import Usdb.Energy.BlockLedger
import Usdb.Energy.Values

namespace Usdb

open Framework PassEnergyStorage PassEnergyManager

/-- Energy and start of the growth window some blocks after a height. -/
def accruedFrom (bh : BalanceHistory) (owner : USDBScriptHash) (first : Nat) (pair : Nat × Nat) :
    Nat → Nat × Nat
  | 0 => pair
  | n + 1 => accrue bh owner (first + n) (accruedFrom bh owner first pair n)

/-- The energy of an Active pass at the heights after one of its records. -/
def curveFrom (bh : BalanceHistory) (record : PassEnergyRecord) (k : Nat) : Nat × Nat :=
  accruedFrom bh record.ownerAddress record.blockHeight (record.energy, record.activeBlockHeight)
    (k - record.blockHeight)

theorem curveFrom_accrues (bh : BalanceHistory) (record : PassEnergyRecord) :
    Accrues bh record.ownerAddress record.blockHeight (curveFrom bh record) := by
  intro k hk
  unfold curveFrom
  rw [Nat.succ_sub hk, accruedFrom, Nat.add_sub_cancel' hk]

/-- A call that brings the energy of a pass up to a height, from the rows of the balance
service or with the change that a block settled. -/
inductive EnergyCall
  | update (height : Nat)
  | apply (height : Nat)
deriving DecidableEq, Repr

namespace EnergyCall

def height : EnergyCall → Nat
  | .update height => height
  | .apply height => height

def run (bh : BalanceHistory) (id : InscriptionId) (owner : USDBScriptHash) :
    EnergyCall → IndexerM (Option PassEnergyResult)
  | .update height => do
    let result ← updatePassEnergy bh.provider id height
    return some result
  | .apply height => do
    discard (applyActiveBalanceChange id owner height (bh.balanceAt owner height)
      (bh.deltaAt owner height))
    return none

/-- The calls one after the other, with the heights and results of the updates. -/
def runAll (bh : BalanceHistory) (id : InscriptionId) (owner : USDBScriptHash) :
    List EnergyCall → IndexerM (List (Nat × PassEnergyResult))
  | [] => pure []
  | call :: rest => do
    let result ← call.run bh id owner
    let results ← runAll bh id owner rest
    return (result.map (fun r => (call.height, r))).toList ++ results

/-- The changes of the blocks after a height, settled in height order. -/
def blockByBlock (first count : Nat) : List EnergyCall :=
  (List.range' (first + 1) count).map .apply

/-- The calls reach a height. An update may be of any height; a change is settled when the
blocks below it are done. -/
def Reaches : Nat → List EnergyCall → Nat → Prop
  | reached, [], last => reached = last
  | reached, .update height :: rest, last => Reaches (max reached height) rest last
  | reached, .apply height :: rest, last =>
    height ≤ reached + 1 ∧ Reaches (max reached height) rest last

theorem Reaches.cons {reached last : Nat} {call : EnergyCall} {rest : List EnergyCall}
    (h : Reaches reached (call :: rest) last) : Reaches (max reached call.height) rest last := by
  cases call with
  | update height => exact h
  | apply height => exact h.2

theorem Reaches.le {reached last : Nat} {calls : List EnergyCall}
    (h : Reaches reached calls last) : reached ≤ last := by
  induction calls generalizing reached with
  | nil => exact Nat.le_of_eq h
  | cons call rest ih => exact (Nat.le_max_left _ _).trans (ih h.cons)

theorem blockByBlock_reaches (first count : Nat) :
    Reaches first (blockByBlock first count) (first + count) := by
  induction count generalizing first with
  | zero => rfl
  | succ count ih =>
    unfold blockByBlock
    rw [List.range'_succ, List.map_cons]
    refine ⟨Nat.le_refl _, ?_⟩
    rw [Nat.max_eq_right (Nat.le_succ first), show first + (count + 1) = first + 1 + count by omega]
    exact ih (first + 1)

end EnergyCall

/-- The pass is Active, and its last record at a height has every change up to there. -/
structure CaughtUp (bh : BalanceHistory) (id : InscriptionId) (first : Nat)
    (record : PassEnergyRecord) (e : PassEnergyStorage) : Prop where
  last : e.findLastPassEnergyRecord id first = some record
  active : record.state = .Active
  balance : record.ownerBalance = bh.balanceAt record.ownerAddress record.blockHeight
  still : ∀ k, record.blockHeight < k → k ≤ first → bh.deltaAt record.ownerAddress k = 0
  fresh : ∀ k, first < k → e.getPassEnergyRecord id k = none

/-- The records of a pass after one of its Active records: they lie on its curve, and up to
a height there is one for every change. -/
structure Recorded (bh : BalanceHistory) (id : InscriptionId) (record : PassEnergyRecord)
    (reached : Nat) (e : PassEnergyStorage) : Prop where
  start : record.blockHeight ≤ reached
  base : e.getPassEnergyRecord id record.blockHeight = some record
  active : record.state = .Active
  balance : record.ownerBalance = bh.balanceAt record.ownerAddress record.blockHeight
  curve : ∀ k r, record.blockHeight < k → e.getPassEnergyRecord id k = some r →
    r.state = .Active ∧
      OnCurve bh record.ownerAddress record.blockHeight (curveFrom bh record) r ∧
      r.ownerDelta = bh.deltaAt record.ownerAddress k
  due : ∀ k, record.blockHeight < k → k ≤ reached → bh.deltaAt record.ownerAddress k ≠ 0 →
    e.getPassEnergyRecord id k ≠ none
  above : ∀ k, reached < k → e.getPassEnergyRecord id k = none

namespace Recorded

variable {bh : BalanceHistory} {id : InscriptionId} {record : PassEnergyRecord}
  {reached height : Nat} {e : PassEnergyStorage}

theorem of_caughtUp {first : Nat} (h : CaughtUp bh id first record e) :
    Recorded bh id record first e := by
  obtain ⟨hle, hget, hnone⟩ := (findLastPassEnergyRecord_eq_some _ _ _ _).mp h.last
  refine ⟨hle, hget, h.active, h.balance, ?_, fun k hk hkf hd => absurd (h.still k hk hkf) hd, h.fresh⟩
  intro k r hk hr
  rcases Nat.lt_or_ge first k with hlt | hge
  · rw [h.fresh k hlt] at hr
    cases hr
  · rw [hnone k hk hge] at hr
    cases hr

/-- The last record at a height lies on the curve, and no change that was reached comes
after it. -/
theorem found (h : Recorded bh id record reached e) (hle : record.blockHeight ≤ height) :
    ∃ last, e.findLastPassEnergyRecord id height = some last ∧ last.state = .Active ∧
      OnCurve bh record.ownerAddress record.blockHeight (curveFrom bh record) last ∧
      last.blockHeight ≤ height ∧ last.blockHeight ≤ reached ∧
      (∀ k, last.blockHeight < k → k ≤ height → k ≤ reached →
        bh.deltaAt record.ownerAddress k = 0) ∧
      (record.blockHeight < last.blockHeight →
        last.ownerDelta = bh.deltaAt record.ownerAddress last.blockHeight) := by
  cases hl : e.findLastPassEnergyRecord id height with
  | none =>
    have hnone := (findLastPassEnergyRecord_eq_none _ _ _).mp hl record.blockHeight hle
    rw [h.base] at hnone
    cases hnone
  | some last =>
    obtain ⟨hlast, hget, hnone⟩ := (findLastPassEnergyRecord_eq_some _ _ _ _).mp hl
    have hreached : last.blockHeight ≤ reached := by
      by_contra hlt
      rw [h.above _ (Nat.lt_of_not_le hlt)] at hget
      cases hget
    have hbase : record.blockHeight ≤ last.blockHeight := by
      by_contra hlt
      have hnone := hnone record.blockHeight (Nat.lt_of_not_le hlt) hle
      rw [h.base] at hnone
      cases hnone
    have hstill : ∀ k, last.blockHeight < k → k ≤ height → k ≤ reached →
        bh.deltaAt record.ownerAddress k = 0 := by
      intro k hk hkh hkr
      by_contra hd
      exact h.due k (Nat.lt_of_le_of_lt hbase hk) hkr hd (hnone k hk hkh)
    rcases Nat.lt_or_eq_of_le hbase with hlt | heq
    · obtain ⟨hactive, hcurve, hdelta⟩ := h.curve _ _ hlt hget
      exact ⟨last, rfl, hactive, hcurve, hlast, hreached, hstill, fun _ => hdelta⟩
    · rw [← heq, h.base] at hget
      cases hget
      refine ⟨record, rfl, h.active, ⟨Nat.le_refl _, rfl, h.balance, ?_⟩, hlast, hreached, hstill,
        fun hlt => absurd hlt (Nat.lt_irrefl _)⟩
      unfold curveFrom
      rw [Nat.sub_self]
      rfl

/-- What a pass answers at the heights that were reached. -/
theorem answer (h : Recorded bh id record reached e) (hle : record.blockHeight ≤ height)
    (hreached : height ≤ reached) :
    energyAnswer e id height =
      some { energy := (curveFrom bh record height).1, state := .Active } := by
  obtain ⟨last, hl, hactive, hcurve, hlast, -, hstill, -⟩ := h.found hle
  have hvalue := hcurve.projected (curveFrom_accrues bh record) hlast
    (fun k hk hkh => hstill k hk hkh (Nat.le_trans hkh hreached))
  unfold energyAnswer
  rw [hl, Option.map_some, projectEnergyRecord_active height hactive, hvalue]

/-- Records on the curve, with one for every change up to a further height. -/
theorem insertAll (h : Recorded bh id record reached e) (records : List PassEnergyRecord)
    (hrecords : ∀ r ∈ records, r.state = .Active ∧
      OnCurve bh record.ownerAddress record.blockHeight (curveFrom bh record) r ∧
      r.ownerDelta = bh.deltaAt record.ownerAddress r.blockHeight ∧
      record.blockHeight < r.blockHeight ∧ r.blockHeight ≤ height)
    (hdue : ∀ k, reached < k → k ≤ height → bh.deltaAt record.ownerAddress k ≠ 0 →
      ∃ r ∈ records, r.inscriptionId = id ∧ r.blockHeight = k) :
    Recorded bh id record (max reached height) (PassEnergyManager.insertAll e records) := by
  have hnew : ∀ k r, (PassEnergyManager.insertAll e records).getPassEnergyRecord id k = some r →
      (r ∈ records ∧ r.blockHeight = k) ∨ e.getPassEnergyRecord id k = some r := by
    intro k r hr
    rcases getPassEnergyRecord_insertAll hr with ⟨hmem, -⟩ | hold
    · exact .inl ⟨hmem, (getPassEnergyRecord_key _ _ _ _ hr).2⟩
    · exact .inr hold
  refine ⟨Nat.le_trans h.start (Nat.le_max_left _ _), ?_, h.active, h.balance, ?_, ?_, ?_⟩
  · cases hb : (PassEnergyManager.insertAll e records).getPassEnergyRecord id record.blockHeight with
    | none =>
      refine absurd hb (getPassEnergyRecord_insertAll_isSome ?_)
      rw [h.base]
      simp
    | some r =>
      rcases hnew _ _ hb with ⟨hmem, hk⟩ | hold
      · have hlt := (hrecords r hmem).2.2.2.1
        omega
      · rw [h.base] at hold
        exact hold.symm
  · intro k r hk hr
    rcases hnew k r hr with ⟨hmem, rfl⟩ | hold
    · obtain ⟨hactive, hcurve, hdelta, -⟩ := hrecords r hmem
      exact ⟨hactive, hcurve, hdelta⟩
    · exact h.curve k r hk hold
  · intro k hk hle hd
    rcases Nat.lt_or_ge reached k with hlt | hge
    · obtain ⟨r, hmem, hid, hheight⟩ := hdue k hlt (by omega) hd
      rw [← hid, ← hheight]
      exact getPassEnergyRecord_insertAll_mem hmem
    · exact getPassEnergyRecord_insertAll_isSome (h.due k hk hge hd)
  · intro k hk
    cases hb : (PassEnergyManager.insertAll e records).getPassEnergyRecord id k with
    | none => rfl
    | some r =>
      rcases hnew k r hb with ⟨hmem, rfl⟩ | hold
      · have hle := (hrecords r hmem).2.2.2.2
        omega
      · rw [h.above k (by omega)] at hold
        cases hold

end Recorded

namespace PassEnergyManager

variable {bh : BalanceHistory} {id : InscriptionId} {record last : PassEnergyRecord}
  {reached height : Nat} {s t : IndexerState}

theorem exists_rowRecord {rows : List AddressBalance} {row : AddressBalance} (h : row ∈ rows) :
    ∃ r ∈ rowRecords id last rows, r.inscriptionId = id ∧ r.blockHeight = row.blockHeight := by
  induction rows generalizing last with
  | nil => cases h
  | cons first rest ih =>
    rcases List.mem_cons.mp h with rfl | h
    · exact ⟨_, List.mem_cons_self, rfl, rfl⟩
    · obtain ⟨r, hr, hid, hheight⟩ := ih h
      exact ⟨r, List.mem_cons_of_mem _ hr, hid, hheight⟩

theorem lastRowRecord_state {rows : List AddressBalance} (h : last.state = .Active) :
    (lastRowRecord id last rows).state = .Active := by
  induction rows generalizing last with
  | nil => exact h
  | cons row rest ih =>
    have hnext : (advanceRecord id last last.ownerAddress row).state = .Active := rfl
    exact ih hnext

/-- The balance service has a row for every change. -/
theorem exists_row {owner : USDBScriptHash} {first stop k : Nat} (hf : first ≤ k) (hs : k < stop)
    (hd : bh.deltaAt owner k ≠ 0) :
    ∃ row ∈ bh.provider.getBalanceAtRange owner first stop, row.blockHeight = k := by
  cases hrow : bh.rowAt owner k with
  | none =>
    unfold BalanceHistory.deltaAt at hd
    rw [hrow] at hd
    exact absurd rfl hd
  | some row =>
    refine ⟨{ blockHeight := k, balance := row.1, delta := row.2 }, ?_, rfl⟩
    refine List.mem_filterMap.mpr ⟨k, ?_, ?_⟩
    · rw [List.mem_range'_1]
      omega
    · rw [hrow]
      rfl

theorem updatePassEnergy_state {provider : BalanceProvider} {result : PassEnergyResult}
    (hl : s.energyStorage.findLastPassEnergyRecord id height = some last) (ha : last.state = .Active)
    (h : updatePassEnergy provider id height s = .ok result t) : result.state = .Active := by
  obtain ⟨found, s₁, hread, h⟩ := bind_eq_ok h
  obtain ⟨rfl, fs₁, rfl⟩ := readEnergy_ok hread
  rw [hl] at h
  obtain ⟨_, s₂, hassert, h⟩ := bind_eq_ok h
  rw [if_neg (not_not_intro ha)] at h
  obtain ⟨_, s₃, hio, h⟩ := bind_eq_ok h
  obtain ⟨next, s₄, hrows, h⟩ := bind_eq_ok h
  obtain ⟨rfl, -⟩ := applyBalanceRows_ok hrows
  split at h
  · cases h
    exact lastRowRecord_state ha
  · cases h
    exact lastRowRecord_state ha

/-- An update brings the records up to its height and answers what is on the curve. -/
theorem updatePassEnergy_recorded (h : Recorded bh id record reached s.energyStorage)
    (hle : record.blockHeight ≤ height) {result : PassEnergyResult}
    (hrun : updatePassEnergy bh.provider id height s = .ok result t) :
    Recorded bh id record (max reached height) t.energyStorage ∧
      result = { energy := (curveFrom bh record height).1, state := .Active } := by
  obtain ⟨last, hl, hactive, hcurve, hlast, hreached, -, -⟩ := h.found hle
  have hstate := updatePassEnergy_state hl hactive hrun
  obtain ⟨last', fs, hl', hcase⟩ := updatePassEnergy_ok hrun
  rw [hl] at hl'
  cases hl'
  rcases hcase with ⟨hne, -⟩ | ⟨-, henergy, rfl⟩
  · exact absurd hactive hne
  have howner : last.ownerAddress = record.ownerAddress := hcurve.2.1
  obtain ⟨hrows, j, hend, rfl, hlt, hd⟩ := bh.rows_onCurve (curveFrom_accrues bh record) id
    (height - last.blockHeight) hcurve (Nat.lt_succ_self _) (fun k hk hkl => by omega)
  have hrange : last.blockHeight + 1 + (height - last.blockHeight) = height + 1 := by omega
  rw [Nat.succ_eq_add_one, hrange, ← howner] at hrows hend hlt hd
  refine ⟨h.insertAll _ (fun r hr => ?_) (fun k hk hkh hdelta => ?_), ?_⟩
  · obtain ⟨honCurve, hdelta⟩ := hrows r hr
    obtain ⟨-, hactive', row, hrow, hheight⟩ := mem_rowRecords hr
    have hin := bh.provider_inRange _ _ _ row hrow
    have hbase := hcurve.1
    rw [howner] at honCurve hdelta
    exact ⟨hactive', honCurve, hdelta, by omega, by omega⟩
  · rw [← howner] at hdelta
    have hexists : ∃ row ∈ pendingRows bh.provider last height, row.blockHeight = k :=
      exists_row (by omega) (by omega) hdelta
    obtain ⟨row, hrow, hheight⟩ := hexists
    obtain ⟨r, hr, hid, hrheight⟩ := exists_rowRecord hrow
    exact ⟨r, hr, hid, hrheight.trans hheight⟩
  · have hvalue := hend.projected (by rw [howner]; exact curveFrom_accrues bh record)
      (Nat.lt_succ_iff.mp hlt) (fun k hk hkh => hd k hk (Nat.lt_succ_of_le hkh))
    cases result
    dsimp only at henergy hstate
    rw [henergy, hstate]
    unfold pendingRows
    rw [hvalue]

/-- A settled change adds the record of its height, when the blocks below it are done. -/
theorem applyActiveBalanceChange_recorded (h : Recorded bh id record reached s.energyStorage)
    (hle : record.blockHeight < height) (hreached : height ≤ reached + 1) {changed : Bool}
    (hrun : applyActiveBalanceChange id record.ownerAddress height
      (bh.balanceAt record.ownerAddress height) (bh.deltaAt record.ownerAddress height) s =
        .ok changed t) :
    Recorded bh id record (max reached height) t.energyStorage := by
  have hnext : ∀ k, reached < k → k ≤ height → k = height := fun k hk hkh => by omega
  by_cases hdelta : bh.deltaAt record.ownerAddress height = 0
  · unfold applyActiveBalanceChange at hrun
    rw [if_pos hdelta] at hrun
    cases hrun
    refine h.insertAll [] (fun r hr => absurd hr List.not_mem_nil) ?_
    intro k hk hkh hd
    rw [hnext k hk hkh] at hd
    exact absurd hdelta hd
  · obtain ⟨last, hl, hactive, hcurve, hlast, -, hstill, -⟩ := h.found (Nat.le_of_lt hle)
    obtain ⟨last', fs, hl', -, -, hcase⟩ := applyActiveBalanceChange_ok hdelta hrun
    rw [hl] at hl'
    cases hl'
    rcases hcase with ⟨heq, -, -, rfl⟩ | ⟨hne, rfl⟩
    · refine h.insertAll [] (fun r hr => absurd hr List.not_mem_nil) ?_
      intro k hk hkh hd
      have hget := ((findLastPassEnergyRecord_eq_some _ _ _ _).mp hl).2.1
      rw [heq, ← hnext k hk hkh, h.above k hk] at hget
      cases hget
    · refine h.insertAll [_] ?_ ?_
      · intro r hr
        rw [List.mem_singleton.mp hr]
        have hlt := Nat.lt_of_le_of_ne hlast hne
        refine ⟨rfl, ?_, rfl, hle, Nat.le_refl _⟩
        exact hcurve.advance (curveFrom_accrues bh record) id hlt
          (fun k hk hkh => hstill k hk (Nat.le_of_lt hkh)
            (Nat.le_of_lt_succ (Nat.lt_of_lt_of_le hkh hreached))) rfl rfl
      · intro k hk hkh _
        exact ⟨_, List.mem_singleton_self _, rfl, (hnext k hk hkh).symm⟩

theorem applyBalanceRows_unfailing (rows : List AddressBalance) :
    Unfailing (applyBalanceRows id last rows) := by
  induction rows generalizing last with
  | nil => exact .pure _
  | cons row rest ih => exact .bind (.writeEnergy _) (fun _ => ih)

/-- Without faults an update goes through. -/
theorem updatePassEnergy_total (h : Recorded bh id record reached s.energyStorage)
    (hle : record.blockHeight ≤ height) (hs : s.faults = []) (provider : BalanceProvider) :
    ∃ result t, updatePassEnergy provider id height s = .ok result t ∧ t.faults = [] := by
  obtain ⟨last, hl, hactive, -, hlast, -⟩ := h.found hle
  obtain ⟨found, s₁, hread, hs₁⟩ :=
    Unfailing.readEnergy (·.findLastPassEnergyRecord id height) s hs
  obtain ⟨rfl, fs, rfl⟩ := readEnergy_ok hread
  have hassert : assertThat (last.blockHeight ≤ height) (s.withFaults fs) =
      .ok () (s.withFaults fs) := by
    unfold assertThat
    rw [if_pos hlast]
    rfl
  unfold updatePassEnergy
  rw [bind_ok hread, hl]
  dsimp only
  rw [bind_ok hassert, if_neg (not_not_intro hactive)]
  refine Unfailing.bind .io (fun _ => .bind (applyBalanceRows_unfailing _) (fun next => ?_)) _ hs₁
  split
  · exact .pure _
  · exact .pure _

/-- Without faults a settled change passes every check. -/
theorem applyActiveBalanceChange_total (h : Recorded bh id record reached s.energyStorage)
    (hle : record.blockHeight < height) (hreached : height ≤ reached + 1) (hs : s.faults = []) :
    ∃ changed t, applyActiveBalanceChange id record.ownerAddress height
      (bh.balanceAt record.ownerAddress height) (bh.deltaAt record.ownerAddress height) s =
        .ok changed t ∧ t.faults = [] := by
  unfold applyActiveBalanceChange
  by_cases hdelta : bh.deltaAt record.ownerAddress height = 0
  · rw [if_pos hdelta]
    exact ⟨_, s, rfl, hs⟩
  rw [if_neg hdelta]
  obtain ⟨last, hl, hactive, hcurve, hlast, -, hstill, hlastDelta⟩ := h.found (Nat.le_of_lt hle)
  obtain ⟨found, s₁, hread, hs₁⟩ :=
    Unfailing.readEnergy (·.findLastPassEnergyRecord id height) s hs
  obtain ⟨rfl, fs, rfl⟩ := readEnergy_ok hread
  rw [bind_ok hread, hl]
  dsimp only
  rw [if_neg (not_not_intro hactive), if_neg (not_not_intro hcurve.2.1),
    if_neg (Nat.not_lt.mpr hlast)]
  by_cases heq : last.blockHeight = height
  · have hsame : ¬(last.ownerBalance ≠ bh.balanceAt record.ownerAddress height ∨
        last.ownerDelta ≠ bh.deltaAt record.ownerAddress height) := by
      rw [not_or, not_not, not_not, hcurve.2.2.1, hlastDelta (by omega), heq]
      exact ⟨rfl, rfl⟩
    rw [if_pos heq, if_neg hsame]
    exact ⟨_, _, rfl, hs₁⟩
  · obtain ⟨j, hj⟩ : ∃ j, height = j + 1 := ⟨height - 1, by omega⟩
    have hbalance : last.ownerBalance = bh.balanceAt record.ownerAddress j := by
      obtain ⟨n, hn⟩ : ∃ n, j = last.blockHeight + n := ⟨j - last.blockHeight, by omega⟩
      rw [hcurve.2.2.1, hn]
      exact (balanceAt_still bh record.ownerAddress n
        (fun k hk hkn => hstill k hk (by omega) (by omega))).symm
    have hstep := bh.balanceAt_succ record.ownerAddress j
    have hdirection : ¬((0 < bh.deltaAt record.ownerAddress height ∧
          bh.balanceAt record.ownerAddress height < last.ownerBalance) ∨
        (bh.deltaAt record.ownerAddress height < 0 ∧
          last.ownerBalance < bh.balanceAt record.ownerAddress height)) := by
      rw [hbalance, hj]
      omega
    rw [if_neg heq, if_neg hdirection]
    exact Unfailing.bind (.writeEnergy _) (fun _ => .pure _) _ hs₁

end PassEnergyManager

namespace EnergyCall

variable {bh : BalanceHistory} {id : InscriptionId} {record : PassEnergyRecord}
  {reached last : Nat} {calls : List EnergyCall} {s t : IndexerState}

/-- One call keeps the records on the curve. -/
theorem run_recorded {call : EnergyCall} {result : Option PassEnergyResult}
    (h : Recorded bh id record reached s.energyStorage) (hle : record.blockHeight < call.height)
    (hreaches : Reaches reached (call :: calls) last)
    (hrun : call.run bh id record.ownerAddress s = .ok result t) :
    Recorded bh id record (max reached call.height) t.energyStorage ∧
      ∀ r, result = some r →
        r = { energy := (curveFrom bh record call.height).1, state := .Active } := by
  cases call with
  | update height =>
    obtain ⟨found, s₁, hupdate, hreturn⟩ := bind_eq_ok hrun
    cases hreturn
    obtain ⟨hrecorded, hfound⟩ := updatePassEnergy_recorded h (Nat.le_of_lt hle) hupdate
    refine ⟨hrecorded, fun r hr => ?_⟩
    cases hr
    exact hfound
  | apply height =>
    obtain ⟨_, s₁, hdiscard, hreturn⟩ := bind_eq_ok hrun
    cases hreturn
    obtain ⟨changed, s₂, happly, hunit⟩ := bind_eq_ok hdiscard
    cases hunit
    exact ⟨applyActiveBalanceChange_recorded h hle hreaches.1 happly, fun r hr => nomatch hr⟩

/-- A run of calls keeps the records on the curve, and its updates answer what is on it. -/
theorem runAll_recorded {results : List (Nat × PassEnergyResult)}
    (h : Recorded bh id record reached s.energyStorage)
    (hrange : ∀ call ∈ calls, record.blockHeight < call.height) (hreaches : Reaches reached calls last)
    (hrun : runAll bh id record.ownerAddress calls s = .ok results t) :
    Recorded bh id record last t.energyStorage ∧
      ∀ p ∈ results, record.blockHeight ≤ p.1 ∧ p.1 ≤ last ∧
        p.2 = { energy := (curveFrom bh record p.1).1, state := .Active } := by
  induction calls generalizing reached s results with
  | nil =>
    cases hrun
    cases hreaches
    exact ⟨h, fun p hp => absurd hp List.not_mem_nil⟩
  | cons call rest ih =>
    obtain ⟨result, s₁, hcall, hrun⟩ := bind_eq_ok hrun
    obtain ⟨others, s₂, hrest, hrun⟩ := bind_eq_ok hrun
    cases hrun
    have hle := hrange call List.mem_cons_self
    obtain ⟨hrecorded, hresult⟩ := run_recorded h hle hreaches hcall
    obtain ⟨hfinal, hothers⟩ :=
      ih hrecorded (fun c hc => hrange c (List.mem_cons_of_mem _ hc)) hreaches.cons hrest
    refine ⟨hfinal, fun p hp => ?_⟩
    rcases List.mem_append.mp hp with hp | hp
    · obtain ⟨r, hr, rfl⟩ := Option.map_eq_some_iff.mp (Option.mem_toList.mp hp)
      exact ⟨Nat.le_of_lt hle, (Nat.le_max_right _ _).trans hreaches.cons.le, hresult r hr⟩
    · exact hothers p hp

/-- Without faults a run of calls goes through. -/
theorem runAll_total (h : Recorded bh id record reached s.energyStorage)
    (hrange : ∀ call ∈ calls, record.blockHeight < call.height) (hreaches : Reaches reached calls last)
    (hs : s.faults = []) : ∃ results t, runAll bh id record.ownerAddress calls s = .ok results t := by
  induction calls generalizing reached s with
  | nil => exact ⟨[], s, rfl⟩
  | cons call rest ih =>
    have hle := hrange call List.mem_cons_self
    have hcall : ∃ result s₁, call.run bh id record.ownerAddress s = .ok result s₁ ∧
        s₁.faults = [] := by
      cases call with
      | update height =>
        obtain ⟨result, s₁, hupdate, hs₁⟩ :=
          updatePassEnergy_total h (Nat.le_of_lt hle) hs bh.provider
        exact ⟨some result, s₁, bind_ok hupdate, hs₁⟩
      | apply height =>
        obtain ⟨changed, s₁, happly, hs₁⟩ := applyActiveBalanceChange_total h hle hreaches.1 hs
        exact ⟨none, s₁, bind_ok (bind_ok happly), hs₁⟩
    obtain ⟨result, s₁, hcall, hs₁⟩ := hcall
    obtain ⟨hrecorded, -⟩ := run_recorded h hle hreaches hcall
    obtain ⟨results, t, hrest⟩ :=
      ih hrecorded (fun c hc => hrange c (List.mem_cons_of_mem _ hc)) hreaches.cons hs₁
    exact ⟨_, t, (bind_ok hcall).trans (bind_ok hrest)⟩

/-- Updates of any heights, also mixed with settled changes, give at every height up to the
last one the energy that settling the changes block by block gives. -/
theorem catchUp_eq_blockByBlock (bh : BalanceHistory) (id : InscriptionId) (first count : Nat)
    (record : PassEnergyRecord) (s : IndexerState)
    (h : CaughtUp bh id first record s.energyStorage) (calls : List EnergyCall)
    (hrange : ∀ call ∈ calls, first < call.height) (hreaches : Reaches first calls (first + count)) :
    (∀ faults faults' results results' t t',
      runAll bh id record.ownerAddress calls (s.withFaults faults) = .ok results t →
      runAll bh id record.ownerAddress (blockByBlock first count) (s.withFaults faults') =
        .ok results' t' →
      (∀ k, first < k → k ≤ first + count → ∃ energy,
        energyAnswer t.energyStorage id k = some { energy, state := .Active } ∧
        energyAnswer t'.energyStorage id k = some { energy, state := .Active }) ∧
      ∀ p ∈ results, energyAnswer t'.energyStorage id p.1 = some p.2) ∧
    (∃ results t, runAll bh id record.ownerAddress calls (s.withFaults []) = .ok results t) ∧
    ∃ results t,
      runAll bh id record.ownerAddress (blockByBlock first count) (s.withFaults []) =
        .ok results t := by
  have hrecorded : ∀ faults, Recorded bh id record first (s.withFaults faults).energyStorage :=
    fun _ => .of_caughtUp h
  have hstart := (hrecorded []).start
  have hrange : ∀ call ∈ calls, record.blockHeight < call.height :=
    fun call hcall => Nat.lt_of_le_of_lt hstart (hrange call hcall)
  have hblocks : ∀ call ∈ blockByBlock first count, record.blockHeight < call.height := by
    intro call hcall
    obtain ⟨k, hk, rfl⟩ := List.mem_map.mp hcall
    exact Nat.lt_of_le_of_lt hstart (List.mem_range'_1.mp hk).1
  refine ⟨?_, runAll_total (hrecorded []) hrange hreaches rfl,
    runAll_total (hrecorded []) hblocks (blockByBlock_reaches first count) rfl⟩
  intro faults faults' results results' t t' hrun hrun'
  obtain ⟨hfinal, hresults⟩ := runAll_recorded (hrecorded faults) hrange hreaches hrun
  obtain ⟨hfinal', -⟩ :=
    runAll_recorded (hrecorded faults') hblocks (blockByBlock_reaches first count) hrun'
  constructor
  · intro k hk hle
    have hbase := Nat.le_trans hstart (Nat.le_of_lt hk)
    exact ⟨_, hfinal.answer hbase hle, hfinal'.answer hbase hle⟩
  · intro p hp
    obtain ⟨hbase, hle, hvalue⟩ := hresults p hp
    rw [hvalue]
    exact hfinal'.answer hbase hle

section TwoUpdates

/-- Owner 7 receives 200000 sats, is touched without a change and pays 50000 sats. -/
def touchedRows (address : USDBScriptHash) (height : Nat) : Option (Nat × Int) :=
  if address = 7 ∧ height = 1 then some (200000, 200000)
  else if address = 7 ∧ height = 3 then some (200000, 0)
  else if address = 7 ∧ height = 5 then some (150000, -50000) else none

theorem touchedRows_consistent : ∀ address height row, touchedRows address (height + 1) = some row →
    ((row.1 : Int) = (((findLast (touchedRows address) height).map (·.2.1)).getD 0 : Nat) +
      row.2) := by
  intro address height row h
  unfold touchedRows at h
  split at h
  · rename_i hc
    cases h
    obtain ⟨-, hh⟩ := hc
    obtain rfl : height = 0 := by omega
    simp [findLast, touchedRows]
  · split at h
    · rename_i hc
      cases h
      obtain ⟨rfl, hh⟩ := hc
      obtain rfl : height = 2 := by omega
      simp [findLast, touchedRows]
    · split at h
      · rename_i hc
        cases h
        obtain ⟨rfl, hh⟩ := hc
        obtain rfl : height = 4 := by omega
        simp [findLast, touchedRows]
      · cases h

def touched : BalanceHistory := ⟨touchedRows, touchedRows_consistent⟩

def minted : PassEnergyRecord :=
  newPassRecord ⟨1, 0⟩ 7 1 0 { blockHeight := 1, balance := 200000, delta := 200000 }

def mintedState : IndexerState :=
  { IndexerState.empty with energyStorage := PassEnergyStorage.empty.insertPassEnergyRecord minted }

theorem minted_caughtUp : CaughtUp touched ⟨1, 0⟩ 1 minted mintedState.energyStorage where
  last := by decide
  active := rfl
  balance := by decide
  still := by
    intro k hk hle
    exact absurd hle (Nat.not_le.mpr hk)
  fresh := by
    intro k hk
    unfold mintedState
    rw [getPassEnergyRecord_insert, if_neg (fun hc => Nat.ne_of_gt hk hc.2)]
    rfl

/-- Two updates, the second one over the row without a change and the payment. -/
theorem catchUp_eq_blockByBlock_touched :
    ∃ results t results' t',
      runAll touched ⟨1, 0⟩ 7 [.update 2, .update 6] mintedState = .ok results t ∧
      runAll touched ⟨1, 0⟩ 7 (blockByBlock 1 5) mintedState = .ok results' t' ∧
      ∀ k, 1 < k → k ≤ 6 → energyAnswer t.energyStorage ⟨1, 0⟩ k =
        energyAnswer t'.energyStorage ⟨1, 0⟩ k := by
  obtain ⟨hagree, ⟨results, t, hrun⟩, results', t', hrun'⟩ := catchUp_eq_blockByBlock touched ⟨1, 0⟩
    1 5 minted mintedState minted_caughtUp [.update 2, .update 6] (by decide) rfl
  refine ⟨results, t, results', t', hrun, hrun', fun k hk hle => ?_⟩
  obtain ⟨energy, hlazy, heager⟩ := (hagree [] [] results results' t t' hrun hrun').1 k hk hle
  rw [hlazy, heager]

end TwoUpdates

end EnergyCall

end Usdb
