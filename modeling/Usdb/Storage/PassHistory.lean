import Usdb.Storage.PassStep
import Mathlib.Data.List.Pairwise

namespace Usdb

open Framework

namespace MinerPassStorage

section Latest

variable {ps : MinerPassStorage}

theorem latestHistoryAt_some {h : Nat} {i : InscriptionId} {r : PassHistoryRow}
    (hr : ps.latestHistoryAt h i = some r) :
    r ∈ ps.passStateHistory ∧ r.inscriptionId = i ∧ r.blockHeight ≤ h := by
  have hm := maxBy_mem _ _ _ hr
  simpa using hm

/-- A row appended under a new id is the latest of its pass from its height on. -/
theorem latestHistoryAt_append (id i : InscriptionId) (height h : Nat) (event : PassHistoryEvent)
    (s₀ : Option MinerPassState) (s₁ : MinerPassState) (o₀ : Option USDBScriptHash)
    (o₁ : USDBScriptHash) (p₀ : Option SatPoint) (p₁ : SatPoint)
    (hb : ∀ r ∈ ps.passStateHistory, r.id < ps.nextHistoryId) :
    (ps.appendPassHistoryEvent id height event s₀ s₁ o₀ o₁ p₀ p₁).latestHistoryAt h i =
      if id = i ∧ height ≤ h then
        some { id := ps.nextHistoryId, inscriptionId := id, blockHeight := height
               eventType := event, prevState := s₀, newState := s₁, prevOwner := o₀
               newOwner := o₁, prevSatpoint := p₀, newSatpoint := p₁ }
      else ps.latestHistoryAt h i := by
  unfold latestHistoryAt appendPassHistoryEvent
  dsimp only
  rw [List.filter_append]
  by_cases hc : id = i ∧ height ≤ h
  · rw [if_pos hc, List.filter_cons_of_pos (by simpa using hc), List.filter_nil,
      maxBy_append_singleton]
    cases hm : maxBy (·.id) (ps.passStateHistory.filter
        (fun r => r.inscriptionId = i ∧ r.blockHeight ≤ h)) with
    | none => rfl
    | some b =>
      have hlt : b.id < ps.nextHistoryId := hb b (List.mem_of_mem_filter (maxBy_mem _ _ _ hm))
      simp [hlt]
  · rw [if_neg hc, List.filter_cons_of_neg (by simpa using hc), List.filter_nil, List.append_nil]

end Latest

/-- Owner, state and satpoint of a pass are those of its history row. -/
def RowMatches (p : MinerPassInfo) (r : PassHistoryRow) : Prop :=
  r.newState = p.state ∧ r.newOwner = p.owner ∧ r.newSatpoint = p.satpoint

/-- The invariant of the pass tables, with no history row above a height: history
ids are below the counter, each pass has a history from its mint on, and its row is
that of its last history row. -/
structure TableInv (ps : MinerPassStorage) (height : Nat) : Prop where
  constraints : ConstraintsHold ps.minerPasses
  idBound : ∀ r ∈ ps.passStateHistory, r.id < ps.nextHistoryId
  heightBound : ∀ r ∈ ps.passStateHistory, r.blockHeight ≤ height
  known : ∀ i, ps.getPassByInscriptionId i = none → ∀ h, ps.latestHistoryAt h i = none
  current : ∀ i p, ps.getPassByInscriptionId i = some p → ∃ r, RowMatches p r ∧
    ∀ h, height ≤ h → ps.latestHistoryAt h i = some r
  mintedAt : ∀ i p, ps.getPassByInscriptionId i = some p → p.mintBlockHeight ≤ height ∧
    (∀ h, h < p.mintBlockHeight → ps.latestHistoryAt h i = none) ∧
    ∀ h, p.mintBlockHeight ≤ h → ps.latestHistoryAt h i ≠ none

/-- In the view at every height an owner has at most one Active pass. -/
def ViewsUnique (ps : MinerPassStorage) : Prop :=
  ∀ h i j r r', ps.latestHistoryAt h i = some r → ps.latestHistoryAt h j = some r' →
    r.newState = .Active → r'.newState = .Active → r.newOwner = r'.newOwner → i = j

theorem TableInv.mono {ps : MinerPassStorage} {height height' : Nat} (h : TableInv ps height)
    (hle : height ≤ height') : TableInv ps height' where
  constraints := h.constraints
  idBound := h.idBound
  heightBound := fun r hr => Nat.le_trans (h.heightBound r hr) hle
  known := h.known
  current := fun i p hp => by
    obtain ⟨r, hm, hl⟩ := h.current i p hp
    exact ⟨r, hm, fun k hk => hl k (Nat.le_trans hle hk)⟩
  mintedAt := fun i p hp =>
    ⟨Nat.le_trans (h.mintedAt i p hp).1 hle, (h.mintedAt i p hp).2⟩

theorem TableInv.empty : TableInv .empty 0 where
  constraints := by decide
  idBound := fun r hr => by cases hr
  heightBound := fun r hr => by cases hr
  known := fun _ _ _ => rfl
  current := fun _ _ hp => by cases hp
  mintedAt := fun _ _ hp => by cases hp

theorem ViewsUnique.empty : ViewsUnique .empty := by
  intro h i j r r' hr
  cases hr

/-- Two Active rows of the table with one owner are the same row. -/
theorem ConstraintsHold.activeUnique {ps : MinerPassStorage}
    (h : ConstraintsHold ps.minerPasses) {i j : InscriptionId} {p q : MinerPassInfo}
    (hp : ps.getPassByInscriptionId i = some p) (hq : ps.getPassByInscriptionId j = some q)
    (hpa : p.state = .Active) (hqa : q.state = .Active) (ho : p.owner = q.owner) : i = j := by
  by_contra hne
  have hpq : p ≠ q := by
    intro he
    rw [← getPassByInscriptionId_key hp, ← getPassByInscriptionId_key hq, he] at hne
    exact hne rfl
  have hsymm : Std.Symm (fun a b : MinerPassInfo =>
      ¬(a.state = .Active ∧ b.state = .Active ∧ a.owner = b.owner)) :=
    ⟨fun a b hab hba => hab ⟨hba.2.1, hba.1, hba.2.2.symm⟩⟩
  exact h.2.forall (lookup_some_mem _ _ _ _ hp) (lookup_some_mem _ _ _ _ hq) hpq ⟨hpa, hqa, ho⟩

/-- The row a step appends, as seen by the proofs: the pass it is about, the row the
pass has afterwards, and whether the pass is new. -/
structure StepView (burnable : MinerPassState → Prop) (height : Nat) (ps ps' : MinerPassStorage)
    (id : InscriptionId) (q : MinerPassInfo) (r : PassHistoryRow) : Prop where
  rowMatches : RowMatches q r
  inscriptionId : r.inscriptionId = id
  blockHeight : r.blockHeight = height
  rowId : r.id = ps.nextHistoryId
  history : ps'.passStateHistory = ps.passStateHistory ++ [r]
  nextId : ps'.nextHistoryId = ps.nextHistoryId + 1
  constraints : ConstraintsHold ps'.minerPasses
  lookup : ∀ i, ps'.getPassByInscriptionId i =
    if i = id then some q else ps.getPassByInscriptionId i
  latest : ∀ h i, ps'.latestHistoryAt h i =
    if id = i ∧ height ≤ h then some r else ps.latestHistoryAt h i
  origin : (ps.getPassByInscriptionId id = none ∧ q.mintBlockHeight = height ∧
      q.owner = q.mintOwner ∧ r.prevState = none ∧
      ((r.eventType = .mint ∧ q.state = .Active) ∨
        (r.eventType = .invalidMint ∧ q.state = .Invalid))) ∨
    ∃ p, ps.getPassByInscriptionId id = some p ∧ RowChange burnable r.eventType p q ∧
      r.prevState = some p.state

theorem PassStep.view {burnable : MinerPassState → Prop} {height : Nat}
    {ps ps' : MinerPassStorage} (h : PassStep burnable height ps ps')
    (hb : ∀ r ∈ ps.passStateHistory, r.id < ps.nextHistoryId) :
    ∃ id q r, StepView burnable height ps ps' id q r := by
  cases h with
  | mint info event kind owner minted constraints =>
    have hfresh := getPassByInscriptionId_fresh constraints
    refine ⟨info.inscriptionId, info, _, ⟨⟨rfl, rfl, rfl⟩, rfl, rfl, rfl, rfl, rfl, constraints,
      getPassByInscriptionId_addRow constraints, ?_, .inl ⟨hfresh, minted, owner, rfl, kind⟩⟩⟩
    · intro k i
      exact latestHistoryAt_append _ _ _ _ _ _ _ _ _ _ _ hb
  | change id p q event row change constraints =>
    refine ⟨id, q, _, ⟨⟨rfl, rfl, rfl⟩, rfl, rfl, rfl, rfl, rfl, constraints,
      getPassByInscriptionId_changeRow row change.sameMint.inscriptionId, ?_,
      .inr ⟨p, row, change, rfl⟩⟩⟩
    · intro k i
      exact latestHistoryAt_append _ _ _ _ _ _ _ _ _ _ _ hb

section Step

variable {burnable : MinerPassState → Prop} {height : Nat} {ps ps' : MinerPassStorage}

theorem TableInv.step (hi : TableInv ps height) (h : PassStep burnable height ps ps') :
    TableInv ps' height := by
  obtain ⟨id, q, r, v⟩ := h.view hi.idBound
  refine ⟨v.constraints, ?_, ?_, ?_, ?_, ?_⟩
  · intro r' hr'
    rw [v.history, List.mem_append, List.mem_singleton] at hr'
    rw [v.nextId]
    rcases hr' with hr' | rfl
    · exact Nat.lt_succ_of_lt (hi.idBound r' hr')
    · rw [v.rowId]; exact Nat.lt_succ_self _
  · intro r' hr'
    rw [v.history, List.mem_append, List.mem_singleton] at hr'
    rcases hr' with hr' | rfl
    · exact hi.heightBound r' hr'
    · exact Nat.le_of_eq v.blockHeight
  · intro i hn k
    rw [v.lookup] at hn
    split at hn
    · cases hn
    · rename_i hne
      rw [v.latest, if_neg (fun hc => hne hc.1.symm)]
      exact hi.known i hn k
  · intro i p hp
    rw [v.lookup] at hp
    split at hp
    · rename_i he
      cases hp
      refine ⟨r, v.rowMatches, fun k hk => ?_⟩
      rw [v.latest, if_pos ⟨he.symm, hk⟩]
    · rename_i hne
      obtain ⟨r', hm, hl⟩ := hi.current i p hp
      refine ⟨r', hm, fun k hk => ?_⟩
      rw [v.latest, if_neg (fun hc => hne hc.1.symm)]
      exact hl k hk
  · intro i p hp
    rw [v.lookup] at hp
    split at hp
    · rename_i he
      cases hp
      subst he
      rcases v.origin with ⟨hnone, hmint, -⟩ | ⟨p, hp, hc, -⟩
      · refine ⟨Nat.le_of_eq hmint, fun k hk => ?_, fun k hk => ?_⟩
        · rw [v.latest, if_neg (by omega)]
          exact hi.known i hnone k
        · rw [v.latest, if_pos ⟨rfl, by omega⟩]
          simp
      · obtain ⟨hle, hbefore, hafter⟩ := hi.mintedAt i p hp
        rw [hc.sameMint.mintBlockHeight]
        refine ⟨hle, fun k hk => ?_, fun k hk => ?_⟩
        · rw [v.latest, if_neg (by omega)]
          exact hbefore k hk
        · rw [v.latest]
          split
          · simp
          · exact hafter k hk
    · rename_i hne
      obtain ⟨hle, hbefore, hafter⟩ := hi.mintedAt i p hp
      refine ⟨hle, fun k hk => ?_, fun k hk => ?_⟩
      · rw [v.latest, if_neg (fun hc => hne hc.1.symm)]
        exact hbefore k hk
      · rw [v.latest, if_neg (fun hc => hne hc.1.symm)]
        exact hafter k hk

/-- The view from the current height on is the table. -/
theorem TableInv.row_of_latest (hi : TableInv ps height) {h : Nat} (hh : height ≤ h)
    {i : InscriptionId} {r : PassHistoryRow} (hr : ps.latestHistoryAt h i = some r) :
    ∃ p, ps.getPassByInscriptionId i = some p ∧ RowMatches p r := by
  cases hp : ps.getPassByInscriptionId i with
  | none =>
    rw [hi.known i hp h] at hr
    cases hr
  | some p =>
    obtain ⟨r', hm, hl⟩ := hi.current i p hp
    rw [hl h hh] at hr
    cases hr
    exact ⟨p, rfl, hm⟩

theorem ViewsUnique.step (hi : TableInv ps height) (hu : ViewsUnique ps)
    (h : PassStep burnable height ps ps') : ViewsUnique ps' := by
  have hi' := hi.step h
  obtain ⟨id, q, r₀, v⟩ := h.view hi.idBound
  intro k i j r r' hr hr' ha ha' ho
  rcases Nat.lt_or_ge k height with hlt | hge
  · rw [v.latest, if_neg (by omega)] at hr hr'
    exact hu k i j r r' hr hr' ha ha' ho
  · obtain ⟨p, hp, hmp⟩ := hi'.row_of_latest hge hr
    obtain ⟨p', hp', hmp'⟩ := hi'.row_of_latest hge hr'
    refine hi'.constraints.activeUnique hp hp' (hmp.1 ▸ ha) (hmp'.1 ▸ ha') ?_
    rw [← hmp.2.1, ← hmp'.2.1, ho]

theorem TableInv.reach (hi : TableInv ps height) (h : PassReach burnable height ps ps') :
    TableInv ps' height := by
  induction h with
  | refl => exact hi
  | tail _ hstep ih => exact ih.step hstep

/-- Operations at a height do not show in the views below it. -/
theorem PassReach.latestHistoryAt_below (hi : TableInv ps height)
    (h : PassReach burnable height ps ps') {k : Nat} (hk : k < height) (i : InscriptionId) :
    ps'.latestHistoryAt k i = ps.latestHistoryAt k i := by
  induction h with
  | refl => rfl
  | tail hreach hstep ih =>
    obtain ⟨id, q, r, v⟩ := hstep.view (hi.reach hreach).idBound
    rw [v.latest, if_neg (by omega), ih]

theorem ViewsUnique.reach (hi : TableInv ps height) (hu : ViewsUnique ps)
    (h : PassReach burnable height ps ps') : ViewsUnique ps' := by
  induction h with
  | refl => exact hu
  | tail hreach hstep ih => exact ih.step (hi.reach hreach) hstep

end Step

end MinerPassStorage

end Usdb
