import Mathlib.Data.Nat.Find
import Usdb.Balances.CacheRuns
import Usdb.Balances.ForkMixture

namespace Usdb.Balances

open Framework BalanceHistoryDB

section Search

variable {db : BalanceHistoryDB} {hashAt : Nat → Option BlockHash} {canonical : Nat → BlockHash}

theorem requireCommit_of_hashAt {height : Nat} {hash : BlockHash}
    (h : db.hashAt height = some hash) :
    ∃ commit, requireCommit db height = .ok commit ∧ commit.btcBlockHash = hash := by
  unfold BalanceHistoryDB.hashAt at h
  obtain ⟨commit, hcommit, hhash⟩ := Option.map_eq_some_iff.mp h
  refine ⟨commit, ?_, hhash⟩
  unfold requireCommit
  rw [hcommit]

/-- The highest height of both chains at which they have one block, or 0. -/
def commonAncestor (db : BalanceHistoryDB) (canonical : Nat → BlockHash) (height : Nat) : Nat :=
  Nat.findGreatest (fun k => db.hashAt k = some (canonical k)) height

theorem searchCommonAncestor_eq {height : Nat}
    (hpresent : ∀ k, 1 ≤ k → k ≤ height → (db.hashAt k).isSome)
    (hnode : ∀ k, 1 ≤ k → k ≤ height → hashAt k = some (canonical k)) :
    searchCommonAncestor db hashAt height = .ok (commonAncestor db canonical height) := by
  induction height with
  | zero => rfl
  | succ height ih =>
    obtain ⟨hash, hhash⟩ := Option.isSome_iff_exists.mp (hpresent (height + 1) (by omega) le_rfl)
    obtain ⟨commit, hcommit, rfl⟩ := requireCommit_of_hashAt hhash
    have hbelow := ih (fun k hpos hle => hpresent k hpos (by omega))
      (fun k hpos hle => hnode k hpos (by omega))
    unfold searchCommonAncestor commonAncestor
    rw [hcommit, hnode (height + 1) (by omega) le_rfl]
    by_cases heq : commit.btcBlockHash = canonical (height + 1)
    · rw [Nat.findGreatest_eq (by rw [hhash, heq])]
      exact if_pos heq
    · rw [Nat.findGreatest_of_not (by rw [hhash, Option.some.injEq]; exact heq)]
      exact (if_neg heq).trans hbelow

/-- The node answers from one chain, at the local tip and at every height of the search. -/
structure ReorgAnswers.Follow (answers : ReorgAnswers) (canonical : Nat → BlockHash)
    (currentHeight latestBtcHeight : Nat) : Prop where
  tip : currentHeight ≤ latestBtcHeight → answers.tipHash = some (canonical currentHeight)
  search : ∀ k, 1 ≤ k → k ≤ latestBtcHeight → answers.hashAt k = some (canonical k)

/-- The store is on the node's chain: the chain reaches the height of the store and has its
block there. -/
def OnChain (db : BalanceHistoryDB) (canonical : Nat → BlockHash) (latestBtcHeight : Nat) : Prop :=
  db.getBtcBlockHeight ≤ latestBtcHeight ∧
    (db.getBtcBlockHeight = 0 ∨
      db.hashAt db.getBtcBlockHeight = some (canonical db.getBtcBlockHeight))

instance (db : BalanceHistoryDB) (canonical : Nat → BlockHash) (latestBtcHeight : Nat) :
    Decidable (OnChain db canonical latestBtcHeight) :=
  inferInstanceAs (Decidable (_ ∧ _))

theorem findReorgCommonAncestorHeight_eq {parentOf : BlockHash → BlockHash}
    {answers : ReorgAnswers} {latestBtcHeight : Nat} (hl : LinkedStore parentOf db)
    (ha : answers.Follow canonical db.getBtcBlockHeight latestBtcHeight) :
    findReorgCommonAncestorHeight db answers db.getBtcBlockHeight latestBtcHeight =
      .ok (if OnChain db canonical latestBtcHeight then none
        else some (commonAncestor db canonical (min db.getBtcBlockHeight latestBtcHeight))) := by
  have hsearch : searchCommonAncestor db answers.hashAt (min db.getBtcBlockHeight latestBtcHeight) =
      .ok (commonAncestor db canonical (min db.getBtcBlockHeight latestBtcHeight)) :=
    searchCommonAncestor_eq (fun k hpos hle => hl.present k hpos (by omega))
      (fun k hpos hle => ha.search k hpos (by omega))
  unfold findReorgCommonAncestorHeight
  by_cases hzero : db.getBtcBlockHeight = 0
  · rw [if_pos hzero, if_pos ⟨by omega, .inl hzero⟩]
    rfl
  · rw [if_neg hzero, hsearch]
    by_cases hle : db.getBtcBlockHeight ≤ latestBtcHeight
    · obtain ⟨hash, hhash⟩ := Option.isSome_iff_exists.mp
        (hl.present db.getBtcBlockHeight (by omega) le_rfl)
      obtain ⟨commit, hcommit, rfl⟩ := requireCommit_of_hashAt hhash
      rw [if_pos hle, hcommit, ha.tip hle]
      by_cases heq : commit.btcBlockHash = canonical db.getBtcBlockHeight
      · rw [if_pos ⟨hle, .inr (by rw [hhash, heq])⟩]
        exact if_pos heq
      · rw [if_neg (fun hon => heq ?_)]
        · exact if_neg heq
        · rcases hon.2 with hz | hsame
          · exact absurd hz hzero
          · rw [hhash] at hsame
            exact Option.some.inj hsame
    · rw [if_neg hle, if_neg (fun hon => hle hon.1)]
      rfl

end Search

section AfterRollback

variable {db db' : BalanceHistoryDB} {s t : HistoryState}

/-- Going back removes blocks from the top and leaves the others as they are. -/
theorem RollbackSteps.hashAt (h : RollbackSteps db db') :
    db'.getBtcBlockHeight ≤ db.getBtcBlockHeight ∧
      ∀ k, 1 ≤ k → k ≤ db'.getBtcBlockHeight → db'.hashAt k = db.hashAt k := by
  induction h with
  | refl => exact ⟨le_rfl, fun _ _ _ => rfl⟩
  | @tail mid last _ step ih =>
    cases step with
    | markers m => exact ih
    | revert bundle found =>
      have hheight : (mid.revertBlock mid.getBtcBlockHeight bundle).getBtcBlockHeight =
          mid.getBtcBlockHeight - 1 := rfl
      constructor
      · omega
      · intro k hpos hle
        rw [hheight] at hle
        rw [hashAt_revertBlock _ _ _ _ (by omega)]
        exact ih.2 k hpos (by omega)

theorem liftExcept_ok {α : Type} {x : Except BalanceHistoryError α} {a : α}
    (h : liftExcept x s = .ok a t) : x = .ok a ∧ t = s := by
  cases x with
  | ok b =>
    cases h
    exact ⟨rfl, rfl⟩
  | error e => cases h

theorem clearRollbackState_height (h : clearRollbackState s = .ok () t) :
    t.db.getBtcBlockHeight = s.db.getBtcBlockHeight := by
  obtain ⟨_, s₁, h₁, h⟩ := bind_eq_ok h
  obtain ⟨_, s₂, h₂, h⟩ := bind_eq_ok h
  have hfirst := write_height h₁ (fun _ => rfl)
  have hsecond := write_height h₂ (fun _ => rfl)
  have hthird := write_height h (fun _ => rfl)
  rw [hthird, hsecond, hfirst]

/-- A rollback that succeeds leaves the store at its target. -/
theorem rollbackToBlockHeight_height {targetHeight : Nat}
    (h : rollbackToBlockHeight targetHeight s = .ok () t) :
    t.db.getBtcBlockHeight = targetHeight := by
  unfold rollbackToBlockHeight at h
  rw [readDb_bind] at h
  split at h
  · cases h
  · split at h
    · rename_i heq
      cases h
      exact heq.symm
    · rw [readDb_bind] at h
      obtain ⟨_, s₀, h₀, h⟩ := bind_eq_ok h
      obtain ⟨_, s₁, h₁, h⟩ := bind_eq_ok h
      obtain ⟨_, s₂, h₂, h⟩ := bind_eq_ok h
      obtain ⟨_, s₃, h₃, h⟩ := bind_eq_ok h
      obtain ⟨_, s₄, h₄, hclear⟩ := bind_eq_ok h
      obtain ⟨-, rfl⟩ := liftExcept_ok h₀
      have hfirst := write_height h₁ (fun _ => rfl)
      have hsecond := write_height h₂ (fun _ => rfl)
      have hthird := write_height h₃ (fun _ => rfl)
      rw [clearRollbackState_height hclear]
      exact rollbackBlocks_height (by omega) h₄

end AfterRollback

section Reconcile

variable {parentOf : BlockHash → BlockHash} {s t : HistoryState} {canonical : Nat → BlockHash}
  {answers : ReorgAnswers} {latestBtcHeight : Nat}

/-- Two linked chains with one block at a height have the same blocks below it. -/
theorem LinkedStore.agree_below {db : BalanceHistoryDB} {top : Nat} (hl : LinkedStore parentOf db)
    (hc : ∀ k, 1 ≤ k → k < top → parentOf (canonical (k + 1)) = canonical k)
    (hle : top ≤ db.getBtcBlockHeight) (htop : db.hashAt top = some (canonical top)) {k : Nat}
    (hpos : 1 ≤ k) (hk : k ≤ top) : db.hashAt k = some (canonical k) := by
  induction top, hk using Nat.le_induction with
  | base => exact htop
  | succ top hk ih =>
    obtain ⟨parent, hparent⟩ := Option.isSome_iff_exists.mp (hl.present top (by omega) (by omega))
    have hlink := hl.linked top parent _ (by omega) (by omega) hparent htop
    have hcanon := hc top (by omega) (by omega)
    refine ih (fun k hpos hlt => hc k hpos (by omega)) (by omega) ?_
    rw [hparent, ← hlink, hcanon]

theorem commonAncestor_agrees {db : BalanceHistoryDB} {height : Nat}
    (hne : commonAncestor db canonical height ≠ 0) :
    db.hashAt (commonAncestor db canonical height) =
      some (canonical (commonAncestor db canonical height)) :=
  Nat.findGreatest_of_ne_zero rfl hne

theorem reconcileReorgIfNeeded_ok {currentHeight height : Nat}
    (h : reconcileReorgIfNeeded answers currentHeight latestBtcHeight s = .ok height t) :
    (findReorgCommonAncestorHeight s.db answers currentHeight latestBtcHeight = .ok none ∧
        height = currentHeight ∧ t = s) ∨
      ∃ rolled, findReorgCommonAncestorHeight s.db answers currentHeight latestBtcHeight =
          .ok (some height) ∧ rollbackToBlockHeight height s = .ok () rolled ∧
        t.db = rolled.db := by
  unfold reconcileReorgIfNeeded at h
  rw [readDb_bind] at h
  obtain ⟨found, s₀, hfind, h⟩ := bind_eq_ok h
  obtain ⟨hfind, rfl⟩ := liftExcept_ok hfind
  cases found with
  | none =>
    cases h
    exact .inl ⟨hfind, rfl, rfl⟩
  | some ancestorHeight =>
    obtain ⟨_, rolled, hrolled, h⟩ := bind_eq_ok h
    obtain ⟨_, cleared, hcleared, h⟩ := bind_eq_ok h
    cases h
    cases hcleared
    exact .inr ⟨rolled, hfind, hrolled, rfl⟩

/-- The search finds nothing exactly when the store is on the node's chain, and otherwise
the last common block; what a reconciliation leaves is on the node's chain. -/
theorem findReorgCommonAncestorHeight_canonical (parentOf : BlockHash → BlockHash)
    (s : HistoryState) (canonical : Nat → BlockHash) (answers : ReorgAnswers)
    (latestBtcHeight : Nat) (hl : LinkedStore parentOf s.db)
    (hc : ∀ k, 1 ≤ k → k < latestBtcHeight → parentOf (canonical (k + 1)) = canonical k)
    (ha : answers.Follow canonical s.db.getBtcBlockHeight latestBtcHeight) :
    (findReorgCommonAncestorHeight s.db answers s.db.getBtcBlockHeight latestBtcHeight =
        .ok none ↔ OnChain s.db canonical latestBtcHeight) ∧
      (¬ OnChain s.db canonical latestBtcHeight →
        findReorgCommonAncestorHeight s.db answers s.db.getBtcBlockHeight latestBtcHeight =
          .ok (some (commonAncestor s.db canonical
            (min s.db.getBtcBlockHeight latestBtcHeight)))) ∧
      ∀ height t, reconcileReorgIfNeeded answers s.db.getBtcBlockHeight latestBtcHeight s =
          .ok height t →
        t.db.getBtcBlockHeight = height ∧
          ∀ k, 1 ≤ k → k ≤ height → t.db.hashAt k = some (canonical k) := by
  have hfind := findReorgCommonAncestorHeight_eq hl ha
  refine ⟨?_, ?_, ?_⟩
  · rw [hfind]
    split <;> simp_all
  · intro hoff
    rw [hfind, if_neg hoff]
  · intro height t hrun
    rcases reconcileReorgIfNeeded_ok hrun with ⟨hnone, rfl, rfl⟩ | ⟨rolled, hsome, hrolled, ht⟩
    · have hon : OnChain t.db canonical latestBtcHeight := by
        by_contra hoff
        rw [hfind, if_neg hoff] at hnone
        cases hnone
      refine ⟨rfl, fun k hpos hk => ?_⟩
      have htip := hon.1
      rcases hon.2 with hzero | hsame
      · omega
      · exact hl.agree_below (fun k hpos hlt => hc k hpos (by omega)) le_rfl hsame hpos hk
    · have hheight := rollbackToBlockHeight_height hrolled
      have hkept := RollbackSteps.hashAt (rollbackToBlockHeight_follows height s)
      rw [hrolled] at hkept
      rw [ht]
      refine ⟨hheight, fun k hpos hk => ?_⟩
      have hsame := hkept.2 k hpos (by rw [← hheight] at hk; exact hk)
      rw [show rolled.db.hashAt k = s.db.hashAt k from hsame]
      -- the height searched is the last common one, so the chains agree up to it
      rw [hfind] at hsome
      split at hsome
      · cases hsome
      · obtain rfl : commonAncestor s.db canonical (min s.db.getBtcBlockHeight latestBtcHeight) =
          height := by
          injection hsome with hsome
          injection hsome
        have hle := Nat.findGreatest_le (P := fun k => s.db.hashAt k = some (canonical k))
          (min s.db.getBtcBlockHeight latestBtcHeight)
        have htop := commonAncestor_agrees (show commonAncestor s.db canonical
          (min s.db.getBtcBlockHeight latestBtcHeight) ≠ 0 by omega)
        change commonAncestor s.db canonical _ ≤ _ at hle
        exact hl.agree_below (fun k hpos hlt => hc k hpos (by omega)) (by omega) htop hpos hk

end Reconcile

section ShorterChain

/-- The node has lost the last of the two blocks of the store. -/
theorem findReorgCommonAncestorHeight_canonical_shorter :
    findReorgCommonAncestorHeight linkedService.state.db ⟨none, fun k => some (forkB k).blockHash⟩
      linkedService.state.db.getBtcBlockHeight 1 = .ok (some 1) := by
  have hheight : linkedService.state.db.getBtcBlockHeight = 2 := by decide
  have hl : LinkedStore mixedParent linkedService.state.db := by
    constructor
    · intro height hpos hle
      obtain rfl | rfl : height = 1 ∨ height = 2 := by omega
      · decide
      · decide
    · intro height parent child hpos hlt hp hc
      obtain rfl : height = 1 := by omega
      cases hp
      cases hc
      rfl
  have hfind := (findReorgCommonAncestorHeight_canonical mixedParent linkedService.state
    (fun k => (forkB k).blockHash) ⟨none, fun k => some (forkB k).blockHash⟩ 1 hl
    (fun k hpos hlt => absurd hpos (by omega))
    ⟨fun hle => absurd hle (by omega), fun k hpos hle => rfl⟩).2.1 (fun hon => by
      have hle := hon.1
      omega)
  rw [hfind, hheight]
  decide

end ShorterChain

end Usdb.Balances
