import Usdb.Storage.PassHistory

namespace Usdb

open Framework

/-- The states a pass may be found in later, given which states may be burned. -/
def MinerPassState.MayBecome (burnable : MinerPassState → Prop) (a b : MinerPassState) : Prop :=
  a = b ∨ (a = .Active ∧ (b = .Dormant ∨ b = .Consumed ∨ b = .Burned)) ∨
    (a = .Dormant ∧ (b = .Consumed ∨ b = .Burned)) ∨ (b = .Burned ∧ burnable a)

theorem MinerPassState.MayBecome.trans {burnable : MinerPassState → Prop} {a b c : MinerPassState}
    (hab : a.MayBecome burnable b) (hbc : b.MayBecome burnable c) : a.MayBecome burnable c := by
  unfold MayBecome at *
  rcases hab with rfl | ⟨rfl, hb⟩ | ⟨rfl, hb⟩ | ⟨rfl, hb⟩
  · exact hbc
  · rcases hb with rfl | rfl | rfl
    · rcases hbc with rfl | ⟨h, -⟩ | ⟨-, h⟩ | ⟨rfl, -⟩
      · exact .inr (.inl ⟨rfl, .inl rfl⟩)
      · cases h
      · exact .inr (.inl ⟨rfl, .inr h⟩)
      · exact .inr (.inl ⟨rfl, .inr (.inr rfl)⟩)
    · rcases hbc with rfl | ⟨h, -⟩ | ⟨h, -⟩ | ⟨rfl, -⟩
      · exact .inr (.inl ⟨rfl, .inr (.inl rfl)⟩)
      · cases h
      · cases h
      · exact .inr (.inl ⟨rfl, .inr (.inr rfl)⟩)
    · rcases hbc with rfl | ⟨h, -⟩ | ⟨h, -⟩ | ⟨rfl, -⟩
      · exact .inr (.inl ⟨rfl, .inr (.inr rfl)⟩)
      · cases h
      · cases h
      · exact .inr (.inl ⟨rfl, .inr (.inr rfl)⟩)
  · rcases hb with rfl | rfl
    · rcases hbc with rfl | ⟨h, -⟩ | ⟨h, -⟩ | ⟨rfl, -⟩
      · exact .inr (.inr (.inl ⟨rfl, .inl rfl⟩))
      · cases h
      · cases h
      · exact .inr (.inr (.inl ⟨rfl, .inr rfl⟩))
    · rcases hbc with rfl | ⟨h, -⟩ | ⟨h, -⟩ | ⟨rfl, -⟩
      · exact .inr (.inr (.inl ⟨rfl, .inr rfl⟩))
      · cases h
      · cases h
      · exact .inr (.inr (.inl ⟨rfl, .inr rfl⟩))
  · rcases hbc with rfl | ⟨h, -⟩ | ⟨h, -⟩ | ⟨rfl, -⟩
    · exact .inr (.inr (.inr ⟨rfl, hb⟩))
    · cases h
    · cases h
    · exact .inr (.inr (.inr ⟨rfl, hb⟩))

theorem RowChange.mayBecome {burnable : MinerPassState → Prop} {event : PassHistoryEvent}
    {p q : MinerPassInfo} (h : RowChange burnable event p q) :
    p.state.MayBecome burnable q.state := by
  unfold MinerPassState.MayBecome
  cases h <;> simp_all

/-- A pass that is Active has not been given to another owner. -/
theorem RowChange.owner_of_active {burnable : MinerPassState → Prop} {event : PassHistoryEvent}
    {p q : MinerPassInfo} (h : RowChange burnable event p q) (ha : q.state = .Active) :
    p.state = .Active ∧ q.owner = p.owner := by
  cases h <;> simp_all

namespace MinerPassStorage

/-- The history rows are kept in the order of their ids, and later rows of a pass
continue the states of the earlier ones. -/
structure HistoryProgress (burnable : MinerPassState → Prop) (ps : MinerPassStorage) : Prop where
  sorted : ps.passStateHistory.Pairwise (fun a b => a.id < b.id)
  rows : ps.passStateHistory.Pairwise
    (fun a b => a.inscriptionId = b.inscriptionId → a.newState.MayBecome burnable b.newState)

/-- The views at growing heights continue each other, and an Active pass is still
with the owner that minted it. -/
structure ViewsProgress (burnable : MinerPassState → Prop) (ps : MinerPassStorage) : Prop where
  states : ∀ i h h' r r', h ≤ h' → ps.latestHistoryAt h i = some r →
    ps.latestHistoryAt h' i = some r' → r.newState.MayBecome burnable r'.newState
  owner : ∀ i h r, ps.latestHistoryAt h i = some r → r.newState = .Active →
    ∃ p, ps.getPassByInscriptionId i = some p ∧ r.newOwner = p.mintOwner

theorem HistoryProgress.empty (burnable : MinerPassState → Prop) :
    HistoryProgress burnable .empty :=
  ⟨List.Pairwise.nil, List.Pairwise.nil⟩

theorem ViewsProgress.empty (burnable : MinerPassState → Prop) :
    ViewsProgress burnable .empty :=
  ⟨fun _ _ _ _ _ _ hr => (by cases hr), fun _ _ _ hr => (by cases hr)⟩

/-- Every history row leads to the view of its pass. -/
theorem HistoryProgress.latest {burnable : MinerPassState → Prop} {ps : MinerPassStorage}
    (hp : HistoryProgress burnable ps) {a : PassHistoryRow} (ha : a ∈ ps.passStateHistory)
    {h : Nat} (hh : a.blockHeight ≤ h) :
    ∃ r, ps.latestHistoryAt h a.inscriptionId = some r ∧
      a.newState.MayBecome burnable r.newState := by
  unfold latestHistoryAt
  have hmem : a ∈ ps.passStateHistory.filter
      (fun r => r.inscriptionId = a.inscriptionId ∧ r.blockHeight ≤ h) := by
    simp [ha, hh]
  rw [maxBy_eq_getLast? _ _ (hp.sorted.filter _)]
  obtain ⟨front, r, hl⟩ := (List.eq_nil_or_concat _).resolve_left (List.ne_nil_of_mem hmem)
  rw [List.concat_eq_append] at hl
  have hr : r.inscriptionId = a.inscriptionId := by
    have hr : r ∈ ps.passStateHistory.filter
        (fun r => r.inscriptionId = a.inscriptionId ∧ r.blockHeight ≤ h) := by
      rw [hl]
      simp
    simpa using (of_decide_eq_true (List.mem_filter.mp hr).2).1
  have hrows := hp.rows.filter
    (fun r => r.inscriptionId = a.inscriptionId ∧ r.blockHeight ≤ h)
  rw [hl] at hrows hmem ⊢
  refine ⟨r, by simp, ?_⟩
  rw [List.mem_append, List.mem_singleton] at hmem
  rcases hmem with hmem | rfl
  · exact (List.pairwise_append.mp hrows).2.2 a hmem r (by simp) hr.symm
  · exact .inl rfl

section Step

variable {burnable : MinerPassState → Prop} {height : Nat} {ps ps' : MinerPassStorage}

theorem HistoryProgress.step (hi : TableInv ps height) (hp : HistoryProgress burnable ps)
    (h : PassStep burnable height ps ps') : HistoryProgress burnable ps' := by
  obtain ⟨id, q, r, v⟩ := h.view hi.idBound
  constructor
  · rw [v.history, List.pairwise_append]
    refine ⟨hp.sorted, List.pairwise_singleton _ _, ?_⟩
    intro a ha b hb
    rw [List.mem_singleton] at hb
    rw [hb, v.rowId]
    exact hi.idBound a ha
  · rw [v.history, List.pairwise_append]
    refine ⟨hp.rows, List.pairwise_singleton _ _, ?_⟩
    intro a ha b hb he
    rw [List.mem_singleton] at hb
    subst hb
    obtain ⟨r, hr, hm⟩ := hp.latest ha (hi.heightBound a ha)
    rw [he.trans v.inscriptionId] at hr
    obtain ⟨p, hrow, hmatch⟩ := hi.row_of_latest (Nat.le_refl _) hr
    rw [v.rowMatches.1]
    rcases v.origin with ⟨hnone, -⟩ | ⟨p', hrow', hc, -⟩
    · rw [hnone] at hrow
      cases hrow
    · rw [hrow'] at hrow
      cases hrow
      exact hm.trans (hmatch.1 ▸ hc.mayBecome)

theorem ViewsProgress.step (hi : TableInv ps height) (hp : ViewsProgress burnable ps)
    (h : PassStep burnable height ps ps') : ViewsProgress burnable ps' := by
  obtain ⟨id, q, r₀, v⟩ := h.view hi.idBound
  constructor
  · intro i k k' r r' hle hr hr'
    rw [v.latest] at hr hr'
    by_cases hc' : id = i ∧ height ≤ k'
    · rw [if_pos hc'] at hr'
      cases hr'
      by_cases hc : id = i ∧ height ≤ k
      · rw [if_pos hc] at hr
        cases hr
        exact .inl rfl
      · rw [if_neg hc] at hr
        obtain ⟨rfl, hk'⟩ := hc'
        rcases v.origin with ⟨hnone, -⟩ | ⟨p, hrow, hchange, -⟩
        · rw [hi.known id hnone] at hr
          cases hr
        · obtain ⟨r₁, hm, hl⟩ := hi.current id p hrow
          have hk : k < height := Nat.lt_of_not_ge (fun hk => hc ⟨rfl, hk⟩)
          have hstep := hp.states id k height r r₁ (Nat.le_of_lt hk) hr (hl height (Nat.le_refl _))
          rw [v.rowMatches.1]
          exact hstep.trans (hm.1 ▸ hchange.mayBecome)
    · rw [if_neg hc'] at hr'
      rw [if_neg (fun hc => hc' ⟨hc.1, Nat.le_trans hc.2 hle⟩)] at hr
      exact hp.states i k k' r r' hle hr hr'
  · intro i k r hr ha
    rw [v.latest] at hr
    rw [v.lookup]
    by_cases hc : id = i ∧ height ≤ k
    · rw [if_pos hc] at hr
      cases hr
      refine ⟨q, by rw [if_pos hc.1.symm], ?_⟩
      rw [v.rowMatches.2.1]
      rcases v.origin with ⟨-, -, howner, -⟩ | ⟨p, hrow, hchange, -⟩
      · exact howner
      · obtain ⟨hpa, hpo⟩ := hchange.owner_of_active (v.rowMatches.1 ▸ ha)
        obtain ⟨r₁, hm, hl⟩ := hi.current id p hrow
        obtain ⟨p', hp', ho⟩ := hp.owner id height r₁ (hl height (Nat.le_refl _)) (hm.1.trans hpa)
        rw [hrow] at hp'
        cases hp'
        rw [hpo, hchange.sameMint.mintOwner, ← ho, hm.2.1]
    · rw [if_neg hc] at hr
      obtain ⟨p, hrow, ho⟩ := hp.owner i k r hr ha
      by_cases he : i = id
      · rcases v.origin with ⟨hnone, -⟩ | ⟨p', hrow', hchange, -⟩
        · rw [he, hnone] at hrow
          cases hrow
        · rw [he, hrow'] at hrow
          cases hrow
          exact ⟨q, by rw [if_pos he], by rw [ho, hchange.sameMint.mintOwner]⟩
      · exact ⟨p, by rw [if_neg he]; exact hrow, ho⟩

theorem HistoryProgress.reach (hi : TableInv ps height) (hp : HistoryProgress burnable ps)
    (h : PassReach burnable height ps ps') : HistoryProgress burnable ps' := by
  induction h with
  | refl => exact hp
  | tail hreach hstep ih => exact ih.step (hi.reach hreach) hstep

theorem ViewsProgress.reach (hi : TableInv ps height) (hp : ViewsProgress burnable ps)
    (h : PassReach burnable height ps ps') : ViewsProgress burnable ps' := by
  induction h with
  | refl => exact hp
  | tail hreach hstep ih => exact ih.step (hi.reach hreach) hstep

end Step

end MinerPassStorage

end Usdb
