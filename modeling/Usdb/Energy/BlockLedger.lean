import Usdb.Energy.BlockAttempt

namespace Usdb

open Framework MinerPassStorage PassEnergyStorage PassEnergyManager

namespace PassEnergyManager

/-- After a batch of records, a lookup finds one of them or what was there before. -/
theorem getPassEnergyRecord_insertAll {e : PassEnergyStorage} {records : List PassEnergyRecord}
    {i : InscriptionId} {k : Nat} {r : PassEnergyRecord}
    (h : (insertAll e records).getPassEnergyRecord i k = some r) :
    (r ∈ records ∧ r.inscriptionId = i) ∨ e.getPassEnergyRecord i k = some r := by
  induction records generalizing e with
  | nil => exact .inr h
  | cons record rest ih =>
    rcases ih h with hrest | hold
    · exact .inl ⟨by simp [hrest.1], hrest.2⟩
    · rw [getPassEnergyRecord_insert] at hold
      split at hold
      · rename_i hkey
        cases hold
        exact .inl ⟨by simp, hkey.1.symm⟩
      · exact .inr hold

theorem getPassEnergyRecord_insertAll_ne {e : PassEnergyStorage} {records : List PassEnergyRecord}
    {i : InscriptionId} (h : ∀ r ∈ records, r.inscriptionId ≠ i) (k : Nat) :
    (insertAll e records).getPassEnergyRecord i k = e.getPassEnergyRecord i k := by
  induction records generalizing e with
  | nil => rfl
  | cons record rest ih =>
    refine (ih (fun r hr => h r (by simp [hr]))).trans ?_
    rw [getPassEnergyRecord_insert, if_neg (fun hkey => h record (by simp) hkey.1.symm)]

theorem getPassEnergyRecord_insertAll_isSome {e : PassEnergyStorage}
    {records : List PassEnergyRecord} {i : InscriptionId} {k : Nat}
    (h : e.getPassEnergyRecord i k ≠ none) :
    (insertAll e records).getPassEnergyRecord i k ≠ none := by
  induction records generalizing e with
  | nil => exact h
  | cons record rest ih =>
    refine ih ?_
    rw [getPassEnergyRecord_insert]
    split
    · simp
    · exact h

theorem getPassEnergyRecord_insertAll_mem {e : PassEnergyStorage} {records : List PassEnergyRecord}
    {r : PassEnergyRecord} (h : r ∈ records) :
    (insertAll e records).getPassEnergyRecord r.inscriptionId r.blockHeight ≠ none := by
  induction records generalizing e with
  | nil => cases h
  | cons record rest ih =>
    rcases List.mem_cons.mp h with rfl | h
    · have hinserted : (e.insertPassEnergyRecord r).getPassEnergyRecord r.inscriptionId
          r.blockHeight ≠ none := by
        rw [getPassEnergyRecord_insert, if_pos ⟨rfl, rfl⟩]
        simp
      show (insertAll (e.insertPassEnergyRecord r) rest).getPassEnergyRecord _ _ ≠ none
      exact getPassEnergyRecord_insertAll_isSome hinserted
    · exact ih h

end PassEnergyManager

/-- A state entered in the block is recorded, one that the pass brought along is not. -/
def EnteredNow (before : Option MinerPassState) (record : Option PassEnergyRecord)
    (a : MinerPassState) (value : Nat → Prop) : Prop :=
  (before ≠ some a → ∃ r, record = some r ∧ r.state = a ∧ value r.energy) ∧
    (before = some a → record = none)

/-- What the record of the block's height holds in the middle of the block, given the
state the pass had before the block. Balance changes are not settled yet. -/
def NowAt (acc : Accounting) (before : Option MinerPassState) (mint height : Nat)
    (state : MinerPassState) (record : Option PassEnergyRecord) : Prop :=
  match state with
  | .Active => (∀ r, record = some r → r.state = .Active ∧ acc.entry r) ∧
      (mint = height → record ≠ none)
  | .Dormant => EnteredNow before record .Dormant (acc.frozen height)
  | .Consumed => EnteredNow before record .Consumed (fun energy => energy = 0)
  | .Burned => True
  | .Invalid => True

/-- The state between two events of a block, except for a pass whose mint is not
completed. -/
structure Midway (scheme : Scheme) (lowest height : Nat) (s₀ s : IndexerState)
    (exempt : InscriptionId → Prop) : Prop where
  attempt : Attempt scheme lowest height s₀ s
  minted : ∀ i p, s.passStorage.getPassByInscriptionId i = some p →
    s₀.passStorage.getPassByInscriptionId i = none → p.mintBlockHeight = height + 1
  absent : ∀ i, s.passStorage.getPassByInscriptionId i = none →
    s.energyStorage.getPassEnergyRecord i (height + 1) = none
  now : ∀ i p, ¬exempt i → s.passStorage.getPassByInscriptionId i = some p →
    NowAt (scheme.of s.log p) ((s₀.passStorage.getPassByInscriptionId i).map (·.state))
      p.mintBlockHeight (height + 1) p.state (s.energyStorage.getPassEnergyRecord i (height + 1))

theorem Attempt.scheme_eq {scheme : Scheme} {lowest height : Nat} {s₀ s : IndexerState}
    (h : Attempt scheme lowest height s₀ s) {i : InscriptionId} {p₀ p : MinerPassInfo}
    (hp₀ : s₀.passStorage.getPassByInscriptionId i = some p₀)
    (hp : s.passStorage.getPassByInscriptionId i = some p) :
    scheme.of s.log p = scheme.of s₀.log p₀ := by
  obtain ⟨q, hq, hsame, -⟩ := h.rows.rows i p₀ hp₀
  rw [hp] at hq
  cases hq
  rw [scheme.of_sameMint s.log hsame]
  have hlog := h.log i p₀ hp₀
  rw [← getPassByInscriptionId_key hp₀] at hlog
  simp only [Scheme.of, hlog]

namespace Midway

variable {scheme : Scheme} {lowest height : Nat} {s₀ s t : IndexerState}
  {exempt : InscriptionId → Prop} {provider : BalanceProvider} {id : InscriptionId}
  {p q : MinerPassInfo}

/-- An operation on one pass keeps the rest as it is. -/
theorem step (h : Midway scheme lowest height s₀ s exempt)
    (hattempt : Attempt scheme lowest height s₀ t)
    (hrow : ∀ i, t.passStorage.getPassByInscriptionId i =
      if i = id then some q else s.passStorage.getPassByInscriptionId i)
    (hrec : ∀ i, i ≠ id → t.energyStorage.getPassEnergyRecord i (height + 1) =
      s.energyStorage.getPassEnergyRecord i (height + 1))
    (hlog : ∀ i, i ≠ id → inheritedEnergy t.log i = inheritedEnergy s.log i)
    (hmint : s₀.passStorage.getPassByInscriptionId id = none → q.mintBlockHeight = height + 1)
    (hnow : ¬exempt id → NowAt (scheme.of t.log q)
      ((s₀.passStorage.getPassByInscriptionId id).map (·.state)) q.mintBlockHeight (height + 1)
      q.state (t.energyStorage.getPassEnergyRecord id (height + 1))) :
    Midway scheme lowest height s₀ t exempt := by
  refine ⟨hattempt, fun i p hp hn => ?_, fun i hi => ?_, fun i p hx hp => ?_⟩
  · rw [hrow] at hp
    split at hp
    · rename_i he
      cases hp
      exact hmint (he ▸ hn)
    · exact h.minted i p hp hn
  · rw [hrow] at hi
    split at hi
    · cases hi
    · rename_i hne
      rw [hrec i hne]
      exact h.absent i hi
  · rw [hrow] at hp
    split at hp
    · rename_i he
      cases hp
      rw [he] at hx ⊢
      exact hnow hx
    · rename_i hne
      rw [hrec i hne]
      have hscheme : scheme.of t.log p = scheme.of s.log p := by
        have hl := hlog i hne
        rw [← getPassByInscriptionId_key hp] at hl
        simp only [Scheme.of, hl]
      rw [hscheme]
      exact h.now i p hx hp

section Records

variable (absent : ∀ i, s₀.passStorage.getPassByInscriptionId i = none → ∀ k, k ≤ height →
    s₀.energyStorage.getPassEnergyRecord i k = none)
  (served : scheme.Served provider (height + 1))

include absent

/-- The last record of an Active pass is one of its entries. -/
theorem last_entry (h : Midway scheme lowest height s₀ s exempt) (hx : ¬exempt id)
    (hp : s.passStorage.getPassByInscriptionId id = some p) (ha : p.state = .Active)
    {last : PassEnergyRecord}
    (hl : s.energyStorage.findLastPassEnergyRecord id (height + 1) = some last) :
    last.blockHeight ≤ height + 1 ∧ last.state = .Active ∧ (scheme.of s.log p).entry last := by
  obtain ⟨hle, hget, -⟩ := (findLastPassEnergyRecord_eq_some _ _ _ _).mp hl
  refine ⟨hle, ?_⟩
  by_cases hnow : last.blockHeight = height + 1
  · have hat := h.now id p hx hp
    rw [hnow] at hget
    rw [ha] at hat
    exact hat.1 last hget
  · have hlow : last.blockHeight ≤ height := by omega
    cases hp₀ : s₀.passStorage.getPassByInscriptionId id with
    | none =>
      have hnone := h.attempt.energy.low.others id (fun p hp' => by rw [hp₀] at hp'; cases hp')
        last.blockHeight hlow
      rw [absent id hp₀ _ hlow, hget] at hnone
      cases hnone
    | some p₀ =>
      have ha₀ := h.attempt.grounded hp ha p₀ hp₀
      obtain ⟨-, hstate, hentry⟩ := h.attempt.energy.low.entries id p₀ hp₀ ha₀ _ hlow last hget
      rw [h.attempt.scheme_eq hp₀ hp]
      exact ⟨hstate, hentry⟩

omit absent

include served

/-- A catch-up of an Active pass: its record at the height is still an entry, and the
energy it reports is the one to freeze. -/
theorem updatePassEnergy_records {e : PassEnergyStorage} {log : List NewPassLog}
    (he : s.energyStorage = e)
    (hlast : ∀ last, e.findLastPassEnergyRecord id (height + 1) = some last →
      last.blockHeight ≤ height + 1 ∧ last.state = .Active ∧
        (scheme.of log p).entry last)
    {result : PassEnergyResult}
    (hu : updatePassEnergy provider id (height + 1) s = .ok result t) :
    (∃ e' fs, t = { s with energyStorage := e', faults := fs }) ∧
      (∀ i, i ≠ id → ∀ k, t.energyStorage.getPassEnergyRecord i k = e.getPassEnergyRecord i k) ∧
      (∀ r, t.energyStorage.getPassEnergyRecord id (height + 1) = some r →
        (r.state = .Active ∧ (scheme.of log p).entry r) ∨
          e.getPassEnergyRecord id (height + 1) = some r) ∧
      (e.getPassEnergyRecord id (height + 1) ≠ none →
        t.energyStorage.getPassEnergyRecord id (height + 1) ≠ none) ∧
      (scheme.of log p).frozen (height + 1) result.energy := by
  subst he
  obtain ⟨last, fs, hfound, hcase⟩ := updatePassEnergy_ok hu
  obtain ⟨hle, hstate, hentry⟩ := hlast last hfound
  rcases hcase with ⟨hne, -⟩ | ⟨-, henergy, rfl⟩
  · exact absurd hstate hne
  obtain ⟨hrows, hfrozen⟩ := served.caughtUp id _ _ _ last hentry hle
  refine ⟨⟨_, _, rfl⟩, fun i hi k => ?_, fun r hr => ?_, ?_, ?_⟩
  · exact getPassEnergyRecord_insertAll_ne (fun r hr =>
      fun he => hi (he.symm.trans (mem_rowRecords hr).1)) k
  · rcases getPassEnergyRecord_insertAll hr with ⟨hmem, -⟩ | hold
    · exact .inl ⟨(mem_rowRecords hmem).2.1, hrows r hmem⟩
    · exact .inr hold
  · exact getPassEnergyRecord_insertAll_isSome
  · rw [henergy]
    exact hfrozen

/-- Freezing an Active pass leaves its Dormant record at the height. -/
theorem onPassDormant_records {e : PassEnergyStorage} {log : List NewPassLog}
    (he : s.energyStorage = e)
    (hlast : ∀ last, e.findLastPassEnergyRecord id (height + 1) = some last →
      last.blockHeight ≤ height + 1 ∧ last.state = .Active ∧
        (scheme.of log p).entry last)
    {u : Unit} (hd : onPassDormant provider id (height + 1) s = .ok u t) :
    (∃ e' fs, t = { s with energyStorage := e', faults := fs }) ∧
      (∀ i, i ≠ id → ∀ k, t.energyStorage.getPassEnergyRecord i k = e.getPassEnergyRecord i k) ∧
      ∃ r, t.energyStorage.getPassEnergyRecord id (height + 1) = some r ∧ r.state = .Dormant ∧
        (scheme.of log p).frozen (height + 1) r.energy := by
  obtain ⟨result, s₁, last, fs, hu, -, rfl⟩ := onPassDormant_ok hd
  obtain ⟨⟨e', fs', rfl⟩, hothers, -, -, hfrozen⟩ :=
    updatePassEnergy_records served he hlast hu
  refine ⟨⟨_, _, rfl⟩, fun i hi k => ?_, dormantRecord id (height + 1) result.energy last, ?_, rfl,
    hfrozen⟩
  · rw [← hothers i hi k, getPassEnergyRecord_insert, if_neg (fun hkey => hi hkey.1)]
  · rw [getPassEnergyRecord_insert, if_pos ⟨rfl, rfl⟩]

end Records

/-- Nothing here depends on the collector or on the reports. -/
theorem reframe (h : Midway scheme lowest height s₀ s exempt) (c : Option PassBlockMutationCollector)
    (fs : List IoResult) :
    Midway scheme lowest height s₀ { s with currentBlockCollector := c, faults := fs } exempt :=
  ⟨⟨h.attempt.rows, h.attempt.log, h.attempt.energy⟩, h.minted, h.absent, h.now⟩

/-- A row may change what its energy does not depend on. -/
theorem moveRow (h : Midway scheme lowest height s₀ s exempt)
    (hattempt : Attempt scheme lowest height s₀ t)
    (hp : s.passStorage.getPassByInscriptionId id = some p)
    (hrow : ∀ i, t.passStorage.getPassByInscriptionId i =
      if i = id then some q else s.passStorage.getPassByInscriptionId i)
    (hsame : p.SameMint q) (hstate : q.state = p.state ∨ q.state = .Burned)
    (he : t.energyStorage = s.energyStorage) (hl : t.log = s.log) :
    Midway scheme lowest height s₀ t exempt := by
  refine h.step hattempt hrow (fun i _ => by rw [he]) (fun i _ => by rw [hl]) (fun hn => ?_)
    (fun hx => ?_)
  · rw [hsame.mintBlockHeight]
    exact h.minted id p hp hn
  · rcases hstate with hstate | hstate
    · rw [hl, he, scheme.of_sameMint s.log hsame, hsame.mintBlockHeight, hstate]
      exact h.now id p hx hp
    · rw [hstate]
      trivial

/-- The state an Active pass had before the block, if it was there, is Active. -/
theorem before_ne (h : Midway scheme lowest height s₀ s exempt)
    (hp : s.passStorage.getPassByInscriptionId id = some p) (ha : p.state = .Active)
    {a : MinerPassState} (hne : a ≠ .Active) :
    (s₀.passStorage.getPassByInscriptionId id).map (·.state) ≠ some a := by
  intro hbefore
  obtain ⟨p₀, hp₀, hstate⟩ := Option.map_eq_some_iff.mp hbefore
  exact hne (hstate.symm.trans (h.attempt.grounded hp ha p₀ hp₀))

/-- An Active pass that is put to rest. -/
theorem freeze (h : Midway scheme lowest height s₀ s exempt)
    (hattempt : Attempt scheme lowest height s₀ t)
    (hp : s.passStorage.getPassByInscriptionId id = some p) (ha : p.state = .Active)
    (hrow : ∀ i, t.passStorage.getPassByInscriptionId i =
      if i = id then some q else s.passStorage.getPassByInscriptionId i)
    (hsame : p.SameMint q) (hstate : q.state = .Dormant) (hl : t.log = s.log)
    (hothers : ∀ i, i ≠ id → ∀ k, t.energyStorage.getPassEnergyRecord i k =
      s.energyStorage.getPassEnergyRecord i k)
    (hrec : ∃ r, t.energyStorage.getPassEnergyRecord id (height + 1) = some r ∧
      r.state = .Dormant ∧ (scheme.of s.log p).frozen (height + 1) r.energy) :
    Midway scheme lowest height s₀ t exempt := by
  refine h.step hattempt hrow (fun i hi => hothers i hi _) (fun i _ => by rw [hl]) (fun hn => ?_)
    (fun _ => ?_)
  · rw [hsame.mintBlockHeight]
    exact h.minted id p hp hn
  · rw [hl, scheme.of_sameMint s.log hsame, hstate]
    exact ⟨fun _ => hrec, fun hbefore => absurd hbefore (h.before_ne hp ha (by decide))⟩

theorem changeRow_rows {ps : MinerPassStorage} {k : Nat} {event : PassHistoryEvent}
    (hp : ps.getPassByInscriptionId id = some p) (hsame : p.SameMint q) (i : InscriptionId) :
    (ps.changeRow id k event p q).getPassByInscriptionId i =
      if i = id then some q else ps.getPassByInscriptionId i := by
  rw [changeRow, getPassByInscriptionId_append, getPassByInscriptionId_setRow hp hsame.inscriptionId]

section Events

variable (absent : ∀ i, s₀.passStorage.getPassByInscriptionId i = none → ∀ k, k ≤ height →
    s₀.energyStorage.getPassEnergyRecord i k = none)
  (served : scheme.Served provider (height + 1))

include absent served

theorem caughtUp {s₁ : IndexerState} (h : Midway scheme lowest height s₀ s exempt)
    (hx : ¬exempt id) (hp : s.passStorage.getPassByInscriptionId id = some p)
    (hc : MinerPassManager.CaughtUp provider id (height + 1) p s s₁) :
    Midway scheme lowest height s₀ s₁ exempt ∧ s₁.passStorage = s.passStorage ∧
      s₁.log = s.log := by
  rcases hc with ⟨ha, fs, result, hu⟩ | ⟨-, fs, rfl⟩
  · have h' := h.reframe s.currentBlockCollector fs
    obtain ⟨⟨e', fs', rfl⟩, hothers, hnow, hsome, -⟩ := updatePassEnergy_records served rfl
      (fun last hl => h'.last_entry absent hx hp ha hl) hu
    have hattempt := (Attempt.updatePassEnergy served absent (h.attempt.grounded hp ha)).ok
      h'.attempt hu
    refine ⟨h.step hattempt (fun i => ?_) (fun i hi => hothers i hi _) (fun _ _ => rfl)
      (fun hn => h.minted id p hp hn) (fun _ => ?_), rfl, rfl⟩
    · split
      · rename_i he
        rw [he]
        exact hp
      · rfl
    · have hold := h.now id p hx hp
      rw [ha] at hold ⊢
      refine ⟨fun r hr => ?_, fun hm => hsome (hold.2 hm)⟩
      rcases hnow r hr with hentry | hr
      · exact hentry
      · exact hold.1 r hr
  · exact ⟨h.reframe s.currentBlockCollector fs, rfl, rfl⟩

theorem onPassTransfer {owner : USDBScriptHash} {satpoint : SatPoint} {u : Unit}
    (h : Midway scheme lowest height s₀ s exempt) (hx : ¬exempt id)
    (ht : MinerPassManager.onPassTransfer provider id owner satpoint (height + 1) s = .ok u t) :
    Midway scheme lowest height s₀ t exempt := by
  have hattempt := (Attempt.onPassTransfer served absent id owner satpoint).ok h.attempt ht
  obtain ⟨pass, s₁, hpass, hcaught, ht⟩ := MinerPassManager.onPassTransfer_ok ht
  obtain ⟨h₁, hps, hlog⟩ := h.caughtUp absent served hx hpass hcaught
  have hpass₁ : s₁.passStorage.getPassByInscriptionId id = some pass := by rw [hps]; exact hpass
  rcases ht with ⟨-, p, fs, hp, -, -, rfl⟩ | ⟨-, hmove⟩
  · exact h₁.moveRow hattempt hp (changeRow_rows hp rfl) rfl (.inl rfl) rfl rfl
  · rcases MinerPassManager.moveToNewOwner_ok hmove with
      ⟨ha, s₂, p, fs, hdorm, hp, hstate, -, -, rfl⟩ | ⟨-, p, fs, hp, -, rfl⟩
    · obtain ⟨⟨e', fs', rfl⟩, hothers, hrec⟩ := onPassDormant_records served rfl
        (fun last hl => h₁.last_entry absent hx hpass₁ ha hl) hdorm
      have hp' : s₁.passStorage.getPassByInscriptionId id = some p := hp
      rw [hpass₁] at hp'
      cases hp'
      refine h₁.freeze (q := { pass with state := .Dormant, owner, satpoint }) hattempt hpass₁ ha
        (fun i => ?_) rfl rfl rfl hothers hrec
      have hsame : pass.SameMint { pass with state := .Dormant } := rfl
      have hdormant : (s₁.passStorage.changeRow id (height + 1) .stateUpdate pass
          { pass with state := .Dormant }).getPassByInscriptionId id =
          some { pass with state := .Dormant } := by
        rw [changeRow_rows hpass₁ hsame, if_pos rfl]
      refine (changeRow_rows (q := { pass with state := .Dormant, owner, satpoint }) hdormant rfl
        i).trans ?_
      split
      · rfl
      · rename_i hi
        rw [changeRow_rows hpass₁ hsame, if_neg hi]
    · exact h₁.moveRow hattempt hp (changeRow_rows hp rfl) rfl (.inl rfl) rfl rfl

theorem onPassBurned {u : Unit} (h : Midway scheme lowest height s₀ s exempt) (hx : ¬exempt id)
    (hb : MinerPassManager.onPassBurned provider id (height + 1) s = .ok u t) :
    Midway scheme lowest height s₀ t exempt := by
  have hattempt := (Attempt.onPassBurned served absent id).ok h.attempt hb
  obtain ⟨pass, s₁, hpass, hcaught, p, fs, hp, -, -, rfl⟩ := MinerPassManager.onPassBurned_ok hb
  obtain ⟨h₁, -, -⟩ := h.caughtUp absent served hx hpass hcaught
  exact h₁.moveRow hattempt hp (changeRow_rows hp rfl) rfl (.inr rfl) rfl rfl

theorem dormantLastPass {mint : PassMintInscriptionInfo} {u : Unit}
    (hm : mint.mintBlockHeight = height + 1)
    (h : Midway scheme lowest height s₀ s (fun _ => False))
    (hd : MinerPassManager.dormantLastPass provider mint s = .ok u t) :
    Midway scheme lowest height s₀ t (fun _ => False) := by
  have hattempt := (Attempt.dormantLastPass served absent hm).ok h.attempt hd
  rcases MinerPassManager.dormantLastPass_ok hd with ⟨-, fs, rfl⟩ |
    ⟨p, fs, -, hp, ha, -, hdorm⟩
  · exact h.reframe s.currentBlockCollector fs
  · rw [hm] at hdorm
    have hlast : ∀ r, s.energyStorage.findLastPassEnergyRecord p.inscriptionId (height + 1) = some r →
        r.blockHeight ≤ height + 1 ∧ r.state = .Active ∧ (scheme.of s.log p).entry r :=
      fun r hl => h.last_entry absent not_false hp ha hl
    obtain ⟨⟨e', fs', rfl⟩, hothers, hrec⟩ := onPassDormant_records served (by rfl) hlast hdorm
    exact h.freeze hattempt hp ha (changeRow_rows hp rfl) rfl rfl rfl hothers hrec

omit absent served in
/-- A Dormant pass that is consumed. -/
theorem consumePass {energy : Nat} (h : Midway scheme lowest height s₀ s exempt)
    (hc : MinerPassManager.consumePass id (height + 1) s = .ok energy t) :
    Midway scheme lowest height s₀ t exempt ∧ t.log = s.log ∧
      ∃ p, s.passStorage.getPassByInscriptionId id = some p ∧ p.state = .Dormant ∧
        ∀ i, t.passStorage.getPassByInscriptionId i =
          if i = id then some { p with state := .Consumed }
          else s.passStorage.getPassByInscriptionId i := by
  have hattempt := (Attempt.consumePass id).ok h.attempt hc
  obtain ⟨p, fs, hp, hdormant, -, -, rfl⟩ := MinerPassManager.consumePass_ok hc
  refine ⟨?_, rfl, p, hp, hdormant, changeRow_rows hp rfl⟩
  refine h.step hattempt (changeRow_rows hp rfl) (fun i hi => ?_) (fun _ _ => rfl)
    (fun hn => h.minted id p hp hn) (fun _ => ⟨fun _ => ?_, fun hbefore => ?_⟩)
  · rw [getPassEnergyRecord_insert, if_neg (fun hkey => hi hkey.1)]
  · exact ⟨consumedRecord id p.owner (height + 1), by
      rw [getPassEnergyRecord_insert, if_pos ⟨rfl, rfl⟩], rfl, rfl⟩
  · obtain ⟨p₀, hp₀, hstate⟩ := Option.map_eq_some_iff.mp hbefore
    obtain ⟨q, hq, -, hnext⟩ := h.attempt.rows.rows id p₀ hp₀
    rw [hp] at hq
    cases hq
    rw [hstate, hdormant] at hnext
    rcases hnext with hn | ⟨hn, -⟩ | ⟨hn, -⟩ | ⟨hn, -⟩ <;> cases hn

omit absent served in
theorem inheritPrev {mint : PassMintInscriptionInfo} {inherited total : Nat}
    {prev : List InscriptionId} {info : MinerPassInfo} (hm : mint.mintBlockHeight = height + 1)
    (h : Midway scheme lowest height s₀ s exempt)
    (hinfo : s.passStorage.getPassByInscriptionId id = some info) (ha : info.state = .Active)
    (hi : MinerPassManager.inheritPrev mint inherited prev s = .ok total t) :
    Midway scheme lowest height s₀ t exempt ∧ t.log = s.log ∧
      t.passStorage.getPassByInscriptionId id = some info := by
  induction prev generalizing s inherited with
  | nil =>
    cases hi
    exact ⟨h, rfl, hinfo⟩
  | cons prevId rest ih =>
    rcases MinerPassManager.inheritPrev_cons_ok hi with ⟨-, fs, hi⟩ | ⟨-, fs, energy, s₁, hc, hi⟩
    · have hframed : Midway scheme lowest height s₀ (s.withFaults fs) exempt :=
        h.reframe s.currentBlockCollector fs
      obtain ⟨h₁, hlog, hinfo₁⟩ := ih hframed hinfo hi
      exact ⟨h₁, hlog, hinfo₁⟩
    · rw [hm] at hc
      obtain ⟨h₁, hlog, p, hp, hdormant, hrows⟩ :=
        (h.reframe s.currentBlockCollector fs).consumePass hc
      have hinfo₁ : s₁.passStorage.getPassByInscriptionId id = some info := by
        rw [hrows, if_neg]
        · exact hinfo
        · rintro rfl
          have hp' : s.passStorage.getPassByInscriptionId id = some p := hp
          rw [hinfo] at hp'
          cases hp'
          rw [ha] at hdormant
          cases hdormant
      obtain ⟨h₂, hlog₂, hinfo₂⟩ := ih h₁ hinfo₁ hi
      exact ⟨h₂, hlog₂.trans hlog, hinfo₂⟩

omit absent served in
/-- The row of a mint, whose energy record is still to come. -/
theorem addRow {info : MinerPassInfo} {event : PassHistoryEvent}
    (h : Midway scheme lowest height s₀ s exempt) (hm : info.mintBlockHeight = height + 1)
    (hc : ConstraintsHold (s.passStorage.minerPasses ++ [info]))
    (hx : ¬exempt info.inscriptionId → info.state = .Invalid)
    (c : Option PassBlockMutationCollector) (fs : List IoResult) :
    Midway scheme lowest height s₀ { s with
      passStorage := s.passStorage.addRow info (height + 1) event
      currentBlockCollector := c
      faults := fs } exempt := by
  have hfresh := getPassByInscriptionId_fresh hc
  have hins : s.passStorage.insertPassRecord info =
      .ok { s.passStorage with minerPasses := s.passStorage.minerPasses ++ [info] } :=
    if_pos hc
  obtain ⟨hrows, -⟩ := h.attempt.rows.insertPassRecord hins
  have hrow : ∀ i, (s.passStorage.addRow info (height + 1) event).getPassByInscriptionId i =
      if i = info.inscriptionId then some info else s.passStorage.getPassByInscriptionId i := by
    intro i
    rw [MinerPassStorage.addRow, getPassByInscriptionId_append, getPassByInscriptionId_insert]
    by_cases hi : i = info.inscriptionId
    · rw [hi, hfresh]
      simp
    · rw [if_neg hi, if_neg (fun he => hi he.symm)]
      simp
  refine h.step ⟨hrows.congr rfl rfl, h.attempt.log, h.attempt.energy⟩ hrow (fun _ _ => rfl)
    (fun _ _ => rfl) (fun _ => hm) (fun hne => ?_)
  rw [hx hne]
  trivial

theorem onMintPass {mint : PassMintInscriptionInfo} {u : Unit}
    (hm : mint.mintBlockHeight = height + 1)
    (h : Midway scheme lowest height s₀ s (fun _ => False))
    (ho : MinerPassManager.onMintPass provider mint s = .ok u t) :
    Midway scheme lowest height s₀ t (fun _ => False) := by
  have hattempt := (Attempt.onMintPass served absent hm).ok h.attempt ho
  obtain ⟨s₁, fs, inherited, s₂, hdorm, hc, hinh, hnew⟩ := MinerPassManager.onMintPass_ok ho
  have h₁ := h.dormantLastPass absent served hm hdorm
  rw [hm] at hinh hnew
  have hexempt : Midway scheme lowest height s₀ s₁ (fun i => i = mint.inscriptionId) :=
    ⟨h₁.attempt, h₁.minted, h₁.absent, fun i p _ hp => h₁.now i p not_false hp⟩
  have hrow : Midway scheme lowest height s₀ { s₁ with
      passStorage := s₁.passStorage.addRow (MinerPassManager.newMintPassInfo mint) (height + 1) .mint
      currentBlockCollector := s₁.pushed (.Mint mint.inscriptionId mint.inscriptionNumber
        mint.mintOwner mint.satpoint mint.ethMain mint.ethCollab mint.prev)
      faults := fs } (fun i => i = mint.inscriptionId) :=
    hexempt.addRow hm hc (fun hne => absurd rfl hne) _ fs
  have hinfo : (s₁.passStorage.addRow (MinerPassManager.newMintPassInfo mint) (height + 1)
      .mint).getPassByInscriptionId mint.inscriptionId =
        some (MinerPassManager.newMintPassInfo mint) := by
    rw [MinerPassStorage.addRow, getPassByInscriptionId_append, getPassByInscriptionId_insert,
      show s₁.passStorage.getPassByInscriptionId mint.inscriptionId = none from
        getPassByInscriptionId_fresh hc]
    exact if_pos rfl
  obtain ⟨h₂, hlog, hinfo₂⟩ := hrow.inheritPrev hm hinfo rfl hinh
  obtain ⟨balance, fs', hbalance, rfl⟩ := onNewPass_ok hnew
  have hentry := served.minted mint.inscriptionId mint.mintOwner inherited
  rw [← hbalance] at hentry
  refine ⟨hattempt, h₂.minted, fun i hi => ?_, fun i p _ hp => ?_⟩
  · rw [getPassEnergyRecord_insert, if_neg]
    · exact h₂.absent i hi
    · rintro ⟨rfl, -⟩
      have hsome : s₂.passStorage.getPassByInscriptionId mint.inscriptionId = none := hi
      rw [hinfo₂] at hsome
      cases hsome
  · have hp' : s₂.passStorage.getPassByInscriptionId i = some p := hp
    by_cases hi : i = mint.inscriptionId
    · rw [hi, hinfo₂] at hp'
      cases hp'
      have hstart : ∀ line : NewPassLog, line.inscriptionId = mint.inscriptionId →
          inheritedEnergy (s₂.log ++ [line]) mint.inscriptionId = line.inheritedEnergy := by
        intro line hline
        rw [← hline]
        exact inheritedEnergy_append_self _ _
      rw [hi]
      refine ⟨fun r hr => ?_, fun _ => ?_⟩
      · rw [getPassEnergyRecord_insert, if_pos ⟨rfl, rfl⟩] at hr
        cases hr
        refine ⟨rfl, ?_⟩
        unfold Scheme.of
        rw [show (MinerPassManager.newMintPassInfo mint).inscriptionId = mint.inscriptionId from rfl,
          hstart _ rfl, show (MinerPassManager.newMintPassInfo mint).mintBlockHeight = height + 1
            from hm]
        exact hentry
      · rw [getPassEnergyRecord_insert, if_pos ⟨rfl, rfl⟩]
        simp
    · rw [getPassEnergyRecord_insert, if_neg (fun hkey => hi hkey.1)]
      have hscheme : scheme.of (s₂.log ++ [{ inscriptionId := mint.inscriptionId
                                             blockHeight := height + 1
                                             ownerAddress := mint.mintOwner
                                             initialBalance := balance.balance
                                             delta := balance.delta
                                             inheritedEnergy := inherited }]) p =
          scheme.of s₂.log p := by
        unfold Scheme.of
        rw [getPassByInscriptionId_key hp', inheritedEnergy_append_ne _ _ _ (fun he => hi he.symm)]
      show NowAt (scheme.of (s₂.log ++ [_]) p) _ _ _ _ _
      rw [hscheme]
      exact h₂.now i p hi hp'

omit absent served in
theorem onInvalidMintPass {item : InvalidPassMintInscriptionInfo} {u : Unit}
    (hm : item.mintBlockHeight = height + 1) (h : Midway scheme lowest height s₀ s exempt)
    (ho : MinerPassManager.onInvalidMintPass item s = .ok u t) :
    Midway scheme lowest height s₀ t exempt := by
  obtain ⟨fs, hc, rfl⟩ := MinerPassManager.onInvalidMintPass_ok ho
  rw [hm]
  exact h.addRow hm hc (fun _ => rfl) _ fs

theorem execute {events : List BlockProcessEvent} {u : Unit}
    (hh : ∀ event ∈ events, event.height = height + 1)
    (h : Midway scheme lowest height s₀ s (fun _ => False))
    (he : BlockEventExecutor.execute provider events s = .ok u t) :
    Midway scheme lowest height s₀ t (fun _ => False) := by
  induction events generalizing s with
  | nil =>
    cases he
    exact h
  | cons event rest ih =>
    have hevent := hh event (by simp)
    obtain ⟨_, s₁, hex, he⟩ := bind_eq_ok he
    refine ih (fun e hmem => hh e (by simp [hmem])) ?_ he
    cases event with
    | Mint item => exact h.onMintPass absent served hevent hex
    | Transfer item =>
      change item.blockHeight = height + 1 at hevent
      simp only [BlockEventExecutor.executeEvent, hevent] at hex
      cases ha : item.toAddress with
      | some addr =>
        rw [ha] at hex
        exact h.onPassTransfer absent served not_false hex
      | none =>
        rw [ha] at hex
        exact h.onPassBurned absent served not_false hex

omit absent served in
theorem processInvalidMints {items : List InvalidPassMintInscriptionInfo} {u : Unit}
    (hh : ∀ item ∈ items, item.mintBlockHeight = height + 1)
    (h : Midway scheme lowest height s₀ s exempt)
    (hp : InscriptionIndexer.processInvalidMints items s = .ok u t) :
    Midway scheme lowest height s₀ t exempt := by
  induction items generalizing s with
  | nil =>
    cases hp
    exact h
  | cons item rest ih =>
    obtain ⟨_, s₁, hmint, hp⟩ := bind_eq_ok hp
    exact ih (fun i hi => hh i (by simp [hi])) (h.onInvalidMintPass (hh item (by simp)) hmint) hp

end Events

end Midway

end Usdb
