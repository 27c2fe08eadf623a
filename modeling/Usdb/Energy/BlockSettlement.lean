import Usdb.Balance.Settlement
import Usdb.Energy.BlockLedger

namespace Usdb

open Framework MinerPassStorage PassEnergyStorage PassEnergyManager InscriptionIndexer

/-- The changes that were due before a block are recorded. -/
def DuesRecorded (scheme : Scheme) (height : Nat) (s₀ : IndexerState) : Prop :=
  ∀ i p, s₀.passStorage.getPassByInscriptionId i = some p → p.state = .Active →
    ∀ k, p.mintBlockHeight ≤ k → k ≤ height → (scheme.of s₀.log p).due k →
      s₀.energyStorage.getPassEnergyRecord i k ≠ none

namespace Midway

variable {scheme : Scheme} {lowest height : Nat} {s₀ s t : IndexerState}
  {provider : BalanceProvider} {id : InscriptionId} {p : MinerPassInfo}

/-- Nothing was due between the last record of an Active pass and the block. -/
theorem not_due (h : Midway scheme lowest height s₀ s (fun _ => False))
    (absent : ∀ i, s₀.passStorage.getPassByInscriptionId i = none → ∀ k, k ≤ height →
      s₀.energyStorage.getPassEnergyRecord i k = none)
    (dues : DuesRecorded scheme height s₀)
    (hp : s.passStorage.getPassByInscriptionId id = some p) (ha : p.state = .Active)
    {last : PassEnergyRecord}
    (hl : s.energyStorage.findLastPassEnergyRecord id (height + 1) = some last) (k : Nat)
    (hlt : last.blockHeight < k) (hk : k < height + 1) : ¬(scheme.of s.log p).due k := by
  intro hdue
  obtain ⟨-, hget, hnone⟩ := (findLastPassEnergyRecord_eq_some _ _ _ _).mp hl
  have hlow : last.blockHeight ≤ height := by omega
  cases hp₀ : s₀.passStorage.getPassByInscriptionId id with
  | none =>
    have hold := h.attempt.energy.low.others id (fun q hq => by rw [hp₀] at hq; cases hq)
      last.blockHeight hlow
    rw [absent id hp₀ _ hlow, hget] at hold
    cases hold
  | some p₀ =>
    have ha₀ := h.attempt.grounded hp ha p₀ hp₀
    obtain ⟨hm, -⟩ := h.attempt.energy.low.entries id p₀ hp₀ ha₀ _ hlow last hget
    rw [h.attempt.scheme_eq hp₀ hp] at hdue
    have hrec := dues id p₀ hp₀ ha₀ k (by omega) (by omega) hdue
    exact h.attempt.energy.low.still id k (by omega) hrec (hnone k hlt (by omega))

section Settling

variable (absent : ∀ i, s₀.passStorage.getPassByInscriptionId i = none → ∀ k, k ≤ height →
    s₀.energyStorage.getPassEnergyRecord i k = none)
  (served : scheme.Served provider (height + 1))
  (dues : DuesRecorded scheme height s₀)

include absent served dues

/-- A settled change leaves the record of the block. -/
theorem applyActiveBalanceChange (h : Midway scheme lowest height s₀ s (fun _ => False))
    (hp : s.passStorage.getPassByInscriptionId id = some p) (ha : p.state = .Active)
    {owners : List USDBScriptHash} {answer : AddressBalance} {changed : Bool}
    (hanswer : (p.mintOwner, answer) ∈ provider.loadBalances owners (height + 1))
    (hat : answer.blockHeight = height + 1) (hdelta : answer.delta ≠ 0)
    (hx : applyActiveBalanceChange id p.mintOwner (height + 1) answer.balance answer.delta s =
      .ok changed t) :
    Midway scheme lowest height s₀ t (fun _ => False) ∧ t.passStorage = s.passStorage ∧
      t.log = s.log ∧ (∀ i, s.energyStorage.getPassEnergyRecord i (height + 1) ≠ none →
        t.energyStorage.getPassEnergyRecord i (height + 1) ≠ none) ∧
      t.energyStorage.getPassEnergyRecord id (height + 1) ≠ none := by
  have hattempt := (Attempt.applyActiveBalanceChange id p.mintOwner answer.balance
    answer.delta).ok h.attempt hx
  obtain ⟨last, fs, hl, -, -, hcase⟩ := applyActiveBalanceChange_ok hdelta hx
  obtain ⟨hle, -, hentry⟩ := h.last_entry absent not_false hp ha hl
  obtain ⟨-, hget, -⟩ := (findLastPassEnergyRecord_eq_some _ _ _ _).mp hl
  rcases hcase with ⟨heq, -, -, rfl⟩ | ⟨hne, rfl⟩
  · refine ⟨h.reframe s.currentBlockCollector fs, rfl, rfl, fun _ hi => hi, ?_⟩
    rw [heq] at hget
    show s.energyStorage.getPassEnergyRecord id (height + 1) ≠ none
    rw [hget]
    simp
  · have hadvanced : (scheme.of s.log p).entry (advanceRecord id last p.mintOwner
        { blockHeight := height + 1, balance := answer.balance, delta := answer.delta }) :=
      served.settled id _ _ last owners (p.mintOwner, answer) hanswer hentry (by omega)
        (h.not_due absent dues hp ha hl) hat hdelta
    refine ⟨h.step hattempt (fun i => ?_) (fun i hi => ?_) (fun _ _ => rfl)
      (fun hn => h.minted id p hp hn) (fun _ => ?_), rfl, rfl, fun i hi => ?_, ?_⟩
    · split
      · rename_i he
        rw [he]
        exact hp
      · rfl
    · exact (getPassEnergyRecord_insert _ _ _ _).trans (if_neg (fun hkey => hi hkey.1))
    · rw [ha]
      refine ⟨fun r hr => ?_, fun _ => ?_⟩
      · rw [getPassEnergyRecord_insert, if_pos ⟨rfl, rfl⟩] at hr
        cases hr
        exact ⟨rfl, hadvanced⟩
      · rw [getPassEnergyRecord_insert, if_pos ⟨rfl, rfl⟩]
        simp
    · rw [getPassEnergyRecord_insert]
      split
      · simp
      · exact hi
    · rw [getPassEnergyRecord_insert, if_pos ⟨rfl, rfl⟩]
      simp

/-- The loop over the settled rows records every change. -/
theorem applyEnergyChanges {owners : List USDBScriptHash} {rows : List ActivePassBalance} {u : Unit}
    (h : Midway scheme lowest height s₀ s (fun _ => False))
    (hrows : ∀ row ∈ rows, ∃ p answer, s.passStorage.getPassByInscriptionId row.inscriptionId = some p ∧
      p.state = .Active ∧ p.mintOwner = row.owner ∧
      BalanceMonitor.SettledAs (height + 1) (provider.loadBalances owners (height + 1))
        { inscriptionId := row.inscriptionId, owner := row.owner } row answer)
    (hx : applyEnergyChanges rows s = .ok u t) :
    Midway scheme lowest height s₀ t (fun _ => False) ∧ t.passStorage = s.passStorage ∧
      t.log = s.log ∧ (∀ i, s.energyStorage.getPassEnergyRecord i (height + 1) ≠ none →
        t.energyStorage.getPassEnergyRecord i (height + 1) ≠ none) ∧
      ∀ row ∈ rows, row.delta ≠ 0 →
        t.energyStorage.getPassEnergyRecord row.inscriptionId (height + 1) ≠ none := by
  induction rows generalizing s with
  | nil =>
    cases hx
    exact ⟨h, rfl, rfl, fun _ hi => hi, fun _ hr => absurd hr List.not_mem_nil⟩
  | cons row rest ih =>
    have hrest : ∀ r ∈ rest, ∃ p answer,
        s.passStorage.getPassByInscriptionId r.inscriptionId = some p ∧ p.state = .Active ∧
        p.mintOwner = r.owner ∧ BalanceMonitor.SettledAs (height + 1)
          (provider.loadBalances owners (height + 1))
          { inscriptionId := r.inscriptionId, owner := r.owner } r answer :=
      fun r hr => hrows r (by simp [hr])
    unfold InscriptionIndexer.applyEnergyChanges at hx
    by_cases hzero : row.delta = 0
    · rw [if_neg (not_not_intro hzero)] at hx
      obtain ⟨h₁, hps, hlog, hkept, hdone⟩ := ih h hrest hx
      refine ⟨h₁, hps, hlog, hkept, fun r hr hd => ?_⟩
      rcases List.mem_cons.mp hr with rfl | hr
      · exact absurd hzero hd
      · exact hdone r hr hd
    · rw [if_pos hzero] at hx
      obtain ⟨_, s₁, hdiscard, hx⟩ := bind_eq_ok hx
      obtain ⟨changed, s₂, hchange, hpure⟩ := bind_eq_ok hdiscard
      cases hpure
      obtain ⟨p, answer, hp, ha, howner, hsettled⟩ := hrows row (by simp)
      have hat : answer.blockHeight = height + 1 := by
        by_contra hne
        have hlate := hsettled.inTime
        refine hzero ?_
        rw [hsettled.delta, if_pos (by omega)]
      have hdelta : row.delta = answer.delta := by
        rw [hsettled.delta, if_neg (by omega)]
      rw [hsettled.blockHeight, hsettled.balance, hdelta, ← howner] at hchange
      have hanswer := hsettled.answered
      rw [← howner] at hanswer
      obtain ⟨h₁, hps, hlog, hkept, hrec⟩ := h.applyActiveBalanceChange absent served dues
        hp ha hanswer hat (by rw [← hdelta]; exact hzero) hchange
      obtain ⟨h₂, hps₂, hlog₂, hkept₂, hdone⟩ := ih h₁ (by rw [hps]; exact hrest) hx
      refine ⟨h₂, hps₂.trans hps, hlog₂.trans hlog, fun i hi => hkept₂ i (hkept i hi),
        fun r hr hd => ?_⟩
      rcases List.mem_cons.mp hr with rfl | hr
      · exact hkept₂ _ hrec
      · exact hdone r hr hd

end Settling

end Midway

/-- The energy store accounts for every pass up to a height, and its markers let a
reconciliation at that height go through. -/
structure Books (scheme : Scheme) (lowest height : Nat) (s : IndexerState) : Prop where
  ledger : Ledger scheme s.passStorage s.log s.energyStorage height
  bound : s.energyStorage.MaxBound
  pending : ∀ p, s.energyStorage.pendingBlockHeight = some p → height < p
  synced : ∀ h, s.energyStorage.syncedBlockHeight = some h → lowest ≤ h

section Low

variable {scheme : Scheme} {lowest height : Nat} {s₀ : IndexerState} {i : InscriptionId}
  {p : MinerPassInfo} (hl : Ledger scheme s₀.passStorage s₀.log s₀.energyStorage height)
  (ht : TableInv s₀.passStorage height)
  (hv : ViewsProgress (fun _ => True) s₀.passStorage)

include hl ht hv

/-- The records of an Active pass are its entries since its mint. -/
theorem Ledger.active_entries (hp : s₀.passStorage.getPassByInscriptionId i = some p)
    (ha : p.state = .Active) (k : Nat) (hk : k ≤ height) (r : PassEnergyRecord)
    (hr : s₀.energyStorage.getPassEnergyRecord i k = some r) :
    p.mintBlockHeight ≤ k ∧ r.state = .Active ∧ (scheme.of s₀.log p).entry r := by
  have life := ht.life hv hp
  have hnow : s₀.passStorage.stateAt i height = some .Active := by
    rw [ht.stateAt_current hp (Nat.le_refl _), ha]
  by_cases hm : p.mintBlockHeight ≤ k
  · have hact := (hl.entries i p hp k hk).active (life.active_before hnow hm hk)
    exact ⟨hm, hact.1 r hr⟩
  · have hnone := (hl.entries i p hp k hk).none (life.unborn k (by omega))
    rw [hr] at hnone
    cases hnone

theorem Ledger.duesRecorded : DuesRecorded scheme height s₀ := by
  intro i p hp ha k hm hk hdue
  have life := ht.life hv hp
  have hnow : s₀.passStorage.stateAt i height = some .Active := by
    rw [ht.stateAt_current hp (Nat.le_refl _), ha]
  exact ((hl.entries i p hp k hk).active (life.active_before hnow hm hk)).2 (.inr hdue)

/-- What an attempt leaves below its height is still accounted for. -/
theorem LowKept.ledger {e : PassEnergyStorage} {log : List NewPassLog}
    (h : LowKept scheme lowest height s₀ e)
    (hlog : ∀ i p, s₀.passStorage.getPassByInscriptionId i = some p →
      inheritedEnergy log i = inheritedEnergy s₀.log i) :
    Ledger scheme s₀.passStorage log e height := by
  constructor
  · intro i hi k hk
    rw [h.others i (fun p hp => by rw [hi] at hp; cases hp) k hk]
    exact hl.absent i hi k hk
  · intro i p hp k hk
    have hscheme : scheme.of log p = scheme.of s₀.log p := by
      have hi := hlog i p hp
      rw [← getPassByInscriptionId_key hp] at hi
      simp only [Scheme.of, hi]
    rw [hscheme]
    by_cases ha : p.state = .Active
    · have life := ht.life hv hp
      have hnow : s₀.passStorage.stateAt i height = some .Active := by
        rw [ht.stateAt_current hp (Nat.le_refl _), ha]
      unfold LedgerAt
      by_cases hm : p.mintBlockHeight ≤ k
      · have hstate := life.active_before hnow hm hk
        rw [hstate]
        refine ⟨fun r hr => (h.entries i p hp ha k hk r hr).2, fun hd => ?_⟩
        exact h.still i k hk (((hl.entries i p hp k hk).active hstate).2 hd)
      · rw [life.unborn k (by omega)]
        cases hr : e.getPassEnergyRecord i k with
        | none => rfl
        | some r => exact absurd (h.entries i p hp ha k hk r hr).1 hm
    · refine (hl.entries i p hp k hk).congr (fun _ _ => rfl) ?_ (fun _ _ hr => hr)
        (fun _ hf => hf) (fun hd => hd)
      exact h.others i (fun q hq => by rw [hp] at hq; cases hq; exact ha) k hk

end Low

/-- A state entered in the block is one entered at its height. -/
theorem EnteredNow.recorded {before : Option MinerPassState} {record : Nat → Option PassEnergyRecord}
    {a : MinerPassState} {value : Nat → Prop} {state : Nat → Option MinerPassState} {height : Nat}
    (h : EnteredNow before (record (height + 1)) a value) (hs : state height = before) :
    RecordedOnEntry state record a value (height + 1) := by
  have henters : Enters state (height + 1) a ↔ before ≠ some a := by
    rw [← hs]
    constructor
    · intro he
      exact he height rfl
    · intro hne j hj
      obtain rfl : j = height := by omega
      exact hne
  refine ⟨fun he => h.1 (henters.mp he), fun hne => h.2 ?_⟩
  by_contra hb
  exact hne (henters.mpr hb)

/-- Once its changes are settled, the block is accounted for as well. -/
theorem Midway.ledger {scheme : Scheme} {lowest height : Nat} {s₀ t : IndexerState}
    (h : Midway scheme lowest height s₀ t (fun _ => False))
    (hl : Ledger scheme s₀.passStorage s₀.log s₀.energyStorage height)
    (ht₀ : TableInv s₀.passStorage height) (hv₀ : ViewsProgress (fun _ => True) s₀.passStorage)
    (ht : TableInv t.passStorage (height + 1))
    (hviews : ∀ i k, k ≤ height →
      t.passStorage.latestHistoryAt k i = s₀.passStorage.latestHistoryAt k i)
    (hsettled : ∀ i p, t.passStorage.getPassByInscriptionId i = some p → p.state = .Active →
      (scheme.of t.log p).due (height + 1) →
        t.energyStorage.getPassEnergyRecord i (height + 1) ≠ none) :
    Ledger scheme t.passStorage t.log t.energyStorage (height + 1) := by
  have hlow := LowKept.ledger hl ht₀ hv₀ h.attempt.energy.low h.attempt.log
  have hstates : ∀ i k, k ≤ height → t.passStorage.stateAt i k = s₀.passStorage.stateAt i k := by
    intro i k hk
    unfold stateAt
    rw [hviews i k hk]
  constructor
  · intro i hi k hk
    have hi₀ : s₀.passStorage.getPassByInscriptionId i = none := by
      cases hp : s₀.passStorage.getPassByInscriptionId i with
      | none => rfl
      | some p =>
        obtain ⟨q, hq, -⟩ := h.attempt.rows.rows i p hp
        rw [hi] at hq
        cases hq
    rcases Nat.lt_or_ge height k with hlt | hle
    · obtain rfl : k = height + 1 := by omega
      exact h.absent i hi
    · exact hlow.absent i hi₀ k hle
  · intro i p hp k hk
    rcases Nat.lt_or_ge height k with hlt | hle
    · obtain rfl : k = height + 1 := by omega
      have hbefore : t.passStorage.stateAt i height =
          (s₀.passStorage.getPassByInscriptionId i).map (·.state) := by
        rw [hstates i height (Nat.le_refl _)]
        cases hp₀ : s₀.passStorage.getPassByInscriptionId i with
        | none =>
          unfold stateAt
          rw [ht₀.known i hp₀]
          rfl
        | some p₀ => exact ht₀.stateAt_current hp₀ (Nat.le_refl _)
      have hnow := h.now i p not_false hp
      unfold LedgerAt
      rw [ht.stateAt_current hp (Nat.le_refl _)]
      cases ha : p.state with
      | Active =>
        rw [ha] at hnow
        refine ⟨hnow.1, fun hd => ?_⟩
        rcases hd with hmint | hdue
        · exact hnow.2 hmint.symm
        · exact hsettled i p hp ha hdue
      | Dormant =>
        rw [ha] at hnow
        exact hnow.recorded hbefore
      | Consumed =>
        rw [ha] at hnow
        have hentered : EnteredNow ((s₀.passStorage.getPassByInscriptionId i).map (·.state))
            (t.energyStorage.getPassEnergyRecord i (height + 1)) .Consumed
            (fun energy => energy = 0) := hnow
        exact hentered.recorded hbefore
      | Burned => trivial
      | Invalid => trivial
    · cases hp₀ : s₀.passStorage.getPassByInscriptionId i with
      | none =>
        unfold LedgerAt
        rw [hstates i k hle]
        unfold stateAt
        rw [ht₀.known i hp₀ k]
        exact hlow.absent i hp₀ k hle
      | some p₀ =>
        obtain ⟨q, hq, hsame, -⟩ := h.attempt.rows.rows i p₀ hp₀
        rw [hp] at hq
        cases hq
        rw [scheme.of_sameMint t.log hsame, hsame.mintBlockHeight]
        exact (hlow.entries i p₀ hp₀ k hle).congr (fun j hj => hstates i j (Nat.le_trans hj hle))
          rfl (fun _ _ hr => hr) (fun _ hf => hf) (fun hd => hd)

section Block

variable {scheme : Scheme} {lowest height : Nat} {s₀ t : IndexerState} {cfg : IndexerConfig}
  {env : BlockEnv} {fs : List IoResult}

/-- The state the events of a block start in. -/
theorem Midway.begun (hb : Books scheme lowest height s₀)
    (hbelow : s₀.energyStorage.RecordsBelow height) (ht : TableInv s₀.passStorage height)
    (hv : ViewsProgress (fun _ => True) s₀.passStorage) (working : MultiMap) (fs' : List IoResult) :
    Midway scheme lowest height s₀ (begun (s₀.withFaults fs) (height + 1) working fs')
      (fun _ => False) := by
  have hattempt : Attempt scheme lowest height s₀ (s₀.withFaults fs) :=
    .refl hb.bound hbelow hb.pending hb.synced
      (fun i p hp ha => Ledger.active_entries hb.ledger ht hv hp ha) fs
  have hnone : ∀ i, s₀.energyStorage.getPassEnergyRecord i (height + 1) = none :=
    fun i => hbelow.none (Nat.lt_succ_self height)
  refine ⟨⟨hattempt.rows, hattempt.log, hattempt.energy.setPending (fun p hp => ?_)⟩,
    fun i p hp hn => ?_, fun i _ => hnone i, fun i p _ hp => ?_⟩
  · cases hp
    exact Nat.lt_succ_self height
  · have hp' : s₀.passStorage.getPassByInscriptionId i = some p := hp
    rw [hn] at hp'
    cases hp'
  · have hp' : s₀.passStorage.getPassByInscriptionId i = some p := hp
    have hrec : (InscriptionIndexer.begun (s₀.withFaults fs) (height + 1) working
        fs').energyStorage.getPassEnergyRecord i (height + 1) = none := hnone i
    rw [hrec, hp']
    have hmint := (ht.mintedAt i p hp').1
    cases ha : p.state with
    | Active => exact ⟨fun r hr => (by cases hr), fun hm => by omega⟩
    | Dormant => exact ⟨fun hne => absurd (by simp [ha]) hne, fun _ => rfl⟩
    | Consumed => exact ⟨fun hne => absurd (by simp [ha]) hne, fun _ => rfl⟩
    | Burned => trivial
    | Invalid => trivial

/-- A durable block keeps the books, and leaves what is below it as an attempt does. -/
theorem InscriptionIndexer.BlockRun.books
    (run : BlockRun cfg env (height + 1) (s₀.withFaults fs) t)
    (hb : Books scheme lowest height s₀) (hbelow : s₀.energyStorage.RecordsBelow height)
    (ht : TableInv s₀.passStorage height) (hv : ViewsProgress (fun _ => True) s₀.passStorage)
    (served : scheme.Served env.provider (height + 1)) (hl : lowest ≤ height + 1) :
    Books scheme (height + 1) (height + 1) t ∧ t.energyStorage.RecordsBelow (height + 1) ∧
      LowKept scheme lowest height s₀ t.energyStorage := by
  have absent := hb.ledger.absent
  have dues := Ledger.duesRecorded hb.ledger ht hv
  have hbegun : Midway scheme lowest height s₀
      (begun (s₀.withFaults fs) (height + 1) run.working run.begunFaults) (fun _ => False) :=
    Midway.begun hb hbelow ht hv run.working run.begunFaults
  have hexec := hbegun.execute absent served run.event_height run.execution
  have hmint := hexec.processInvalidMints (collectBlockInscriptionMints_heights run.collected).2
    run.invalidated
  have hreach : PassReach (fun _ => True) (height + 1) s₀.passStorage run.minted.passStorage :=
    run.minted_reach (BlockEventExecutor.eventsSatisfy_of_forall
      BlockEventExecutor.burnsOnly_true _ _)
  have htmono : TableInv s₀.passStorage (height + 1) := ht.mono (Nat.le_succ _)
  have htable := htmono.reach hreach
  have hviews := hv.reach htmono hreach
  obtain ⟨active, balances, fs₁, fs₂, fs₃, hload, hcollect, hsettle, -, hsettled⟩ :=
    BalanceMonitor.settleActiveBalanceWithDetails_ok run.settling
  have hbalances := BalanceMonitor.collectBalances_ok hcollect
  rw [List.nil_append] at hbalances
  rw [hbalances] at hsettle
  obtain ⟨hpasses, hrows⟩ := BalanceMonitor.settlePasses_ok hsettle
  have hview := BalanceMonitor.loadActivePasses_mem cfg.activeAddressPageSize_pos hload
  have hmid : Midway scheme lowest height s₀ run.settled (fun _ => False) := by
    rw [hsettled]
    exact ⟨⟨hmint.attempt.rows.congr rfl rfl, hmint.attempt.log, hmint.attempt.energy⟩,
      hmint.minted, hmint.absent, hmint.now⟩
  have hget : ∀ i, run.settled.passStorage.getPassByInscriptionId i =
      run.minted.passStorage.getPassByInscriptionId i := by
    intro i
    rw [hsettled]
    rfl
  obtain ⟨happlied, hps, hlog, -, hdone⟩ := hmid.applyEnergyChanges absent served dues
    (fun row hrow => by
      obtain ⟨pass, hpass, answer, hs⟩ := hrows row hrow
      obtain ⟨r, hr, hstate, howner⟩ := mem_historyViewByStates.mp ((hview pass).mp hpass)
      have hact : r.newState = .Active := List.mem_singleton.mp hstate
      obtain ⟨p, hp, hpo⟩ := hviews.owner _ _ r hr hact
      obtain ⟨r', hmatch, hcur⟩ := htable.current _ p hp
      have hr' : run.minted.passStorage.latestHistoryAt (height + 1) pass.inscriptionId = some r :=
        hr
      rw [hcur (height + 1) (Nat.le_refl _)] at hr'
      cases hr'
      refine ⟨p, answer, ?_, ?_, ?_, ?_, hs.inTime, rfl, rfl, hs.blockHeight, hs.balance, hs.delta⟩
      · rw [hget, hs.inscriptionId]
        exact hp
      · rw [← hmatch.1]
        exact hact
      · rw [hs.owner, ← howner, hpo]
      · rw [hs.owner]
        exact hs.answered) run.applying
  have hrecords : ∀ i p, run.applied.passStorage.getPassByInscriptionId i = some p →
      p.state = .Active → (scheme.of run.applied.log p).due (height + 1) →
        run.applied.energyStorage.getPassEnergyRecord i (height + 1) ≠ none := by
    intro i p hp ha hdue
    rw [hps, hget] at hp
    obtain ⟨r, hmatch, hcur⟩ := htable.current i p hp
    have hr := hcur (height + 1) (Nat.le_refl _)
    have hact : r.newState = .Active := hmatch.1.trans ha
    obtain ⟨q, hq, hqo⟩ := hviews.owner i _ r hr hact
    rw [hp] at hq
    cases hq
    have hin : ({ inscriptionId := i, owner := r.newOwner } : ActiveMinerPassInfo) ∈ active :=
      (hview _).mpr (mem_historyViewByStates.mpr ⟨r, hr, by simp [hact], rfl⟩)
    obtain ⟨row, hrow, answer, hs⟩ := hpasses _ hin
    rw [← show row.inscriptionId = i from hs.inscriptionId]
    refine hdone row hrow (fun hzero => ?_)
    refine served.still p.mintBlockHeight (inheritedEnergy run.applied.log p.inscriptionId) _
      (r.newOwner, answer) hs.answered ?_ (by rw [hqo]; exact hdue)
    have hdelta := hs.delta
    rw [hzero] at hdelta
    split at hdelta
    · exact .inl ‹_›
    · exact .inr hdelta.symm
  have htapplied : TableInv run.applied.passStorage (height + 1) := by
    rw [hps, hsettled]
    exact ⟨htable.constraints, htable.idBound, htable.heightBound, htable.known, htable.current,
      htable.mintedAt⟩
  have hbefore : ∀ i k, k ≤ height → run.applied.passStorage.latestHistoryAt k i =
      s₀.passStorage.latestHistoryAt k i := by
    intro i k hk
    rw [hps, hsettled]
    exact PassReach.latestHistoryAt_below htmono hreach (by omega) i
  have hledger := happlied.ledger hb.ledger ht hv htapplied hbefore hrecords
  rw [run.final]
  refine ⟨⟨?_, happlied.attempt.energy.low.bound, fun p hp => (by cases hp), fun h hh => ?_⟩,
    happlied.attempt.energy.below, (happlied.attempt.energy.finalize hl).low⟩
  · have hfinal : Ledger scheme run.applied.passStorage run.applied.log
        (run.applied.energyStorage.finalizeBlockSync (height + 1)) (height + 1) :=
      hledger.low (fun _ _ _ => rfl)
    exact hfinal.congr_passes rfl rfl
  · cases hh
    exact Nat.le_refl _

end Block

end Usdb
