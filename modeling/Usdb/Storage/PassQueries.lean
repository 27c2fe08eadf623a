import Usdb.Storage.Rollback

namespace Usdb

open Framework

/-- A history row as the queries report it. -/
structure MinerPassHistoryInfo where
  eventId : Nat
  inscriptionId : InscriptionId
  blockHeight : Nat
  eventType : PassHistoryEvent
  state : MinerPassState
  owner : USDBScriptHash
  satpoint : SatPoint
deriving DecidableEq, Repr

structure MinerPassStateStats where
  totalCount : Nat
  activeCount : Nat
  dormantCount : Nat
  consumedCount : Nat
  burnedCount : Nat
  invalidCount : Nat
deriving DecidableEq, Repr

namespace MinerPassStorage

def rowToPassHistoryItem (r : PassHistoryRow) : MinerPassHistoryInfo where
  eventId := r.id
  inscriptionId := r.inscriptionId
  blockHeight := r.blockHeight
  eventType := r.eventType
  state := r.newState
  owner := r.newOwner
  satpoint := r.newSatpoint

/-- The first row of the pass in descending order of height and id. -/
def getLastPassHistoryAtOrBeforeHeight (ps : MinerPassStorage) (id : InscriptionId)
    (blockHeight : Nat) : Option MinerPassHistoryInfo :=
  (((ps.passStateHistory.filter
    (fun r => r.inscriptionId = id ∧ r.blockHeight ≤ blockHeight)).insertionSort
    (fun a b => b.blockHeight < a.blockHeight ∨
      (b.blockHeight = a.blockHeight ∧ b.id ≤ a.id))).head?).map rowToPassHistoryItem

/-- The rows of the history view at a height in one state. -/
def stateCount (ps : MinerPassStorage) (blockHeight : Nat) (state : MinerPassState) : Nat :=
  (ps.passStateHistory.filter (fun r =>
    ps.latestHistoryAt blockHeight r.inscriptionId = some r ∧ r.newState = state)).length

/-- The total is added up over the states. -/
def getPassStateStatsFromHistoryAtHeight (ps : MinerPassStorage) (blockHeight : Nat) :
    MinerPassStateStats where
  totalCount := ps.stateCount blockHeight .Active + ps.stateCount blockHeight .Dormant +
    ps.stateCount blockHeight .Consumed + ps.stateCount blockHeight .Burned +
    ps.stateCount blockHeight .Invalid
  activeCount := ps.stateCount blockHeight .Active
  dormantCount := ps.stateCount blockHeight .Dormant
  consumedCount := ps.stateCount blockHeight .Consumed
  burnedCount := ps.stateCount blockHeight .Burned
  invalidCount := ps.stateCount blockHeight .Invalid

def getPassCountFromHistoryAtHeightByStates (ps : MinerPassStorage) (blockHeight : Nat)
    (states : List MinerPassState) : Nat :=
  if states = [] then 0
  else (ps.passStateHistory.filter (fun r =>
    ps.latestHistoryAt blockHeight r.inscriptionId = some r ∧ r.newState ∈ states)).length

/-- The part of the history that a query at a height can see. -/
def historyUpTo (ps : MinerPassStorage) (blockHeight : Nat) : List PassHistoryRow :=
  ps.passStateHistory.filter (fun r => r.blockHeight ≤ blockHeight)

section Pinned

variable {ps ps' : MinerPassStorage} {height k : Nat}

theorem latestHistoryAt_eq_upTo (ps : MinerPassStorage) (k : Nat) (id : InscriptionId) :
    ps.latestHistoryAt k id =
      maxBy (·.id) ((ps.historyUpTo k).filter (fun r => r.inscriptionId = id)) := by
  unfold latestHistoryAt historyUpTo
  rw [List.filter_filter]
  simp only [Bool.decide_and]

/-- A selection of latest rows only looks at the rows up to its height. -/
theorem filter_latest_eq_upTo (ps : MinerPassStorage) (k : Nat) (p : PassHistoryRow → Prop)
    [DecidablePred p] :
    ps.passStateHistory.filter (fun r =>
        ps.latestHistoryAt k r.inscriptionId = some r ∧ p r) =
      (ps.historyUpTo k).filter (fun r => ps.latestHistoryAt k r.inscriptionId = some r ∧ p r) := by
  unfold historyUpTo
  rw [List.filter_filter]
  refine List.filter_congr (fun r _ => ?_)
  by_cases hlatest : ps.latestHistoryAt k r.inscriptionId = some r
  · have hle : r.blockHeight ≤ k := by
      have hmem := maxBy_mem _ _ _ hlatest
      exact (of_decide_eq_true (List.mem_filter.mp hmem).2).2
    simp [hlatest, hle]
  · simp [hlatest]

theorem filter_latest_congr (h : ps'.historyUpTo k = ps.historyUpTo k)
    (p : PassHistoryRow → Prop) [DecidablePred p] :
    ps'.passStateHistory.filter (fun r =>
        ps'.latestHistoryAt k r.inscriptionId = some r ∧ p r) =
      ps.passStateHistory.filter (fun r =>
        ps.latestHistoryAt k r.inscriptionId = some r ∧ p r) := by
  rw [filter_latest_eq_upTo, filter_latest_eq_upTo, h]
  simp only [latestHistoryAt_eq_upTo, h]

theorem getLastPassHistory_congr (h : ps'.historyUpTo k = ps.historyUpTo k) (id : InscriptionId) :
    ps'.getLastPassHistoryAtOrBeforeHeight id k = ps.getLastPassHistoryAtOrBeforeHeight id k := by
  have hrows : ∀ ps : MinerPassStorage, ps.passStateHistory.filter
      (fun r => r.inscriptionId = id ∧ r.blockHeight ≤ k) =
      (ps.historyUpTo k).filter (fun r => r.inscriptionId = id) := by
    intro ps
    unfold historyUpTo
    rw [List.filter_filter]
    simp only [Bool.decide_and]
  unfold getLastPassHistoryAtOrBeforeHeight
  rw [hrows ps', hrows ps, h]

theorem getPassesByPage_congr (h : ps'.historyUpTo k = ps.historyUpTo k) (index size : Nat)
    (states : List MinerPassState) :
    ps'.getPassesByPageFromHistoryAtHeightByStates index size k states =
      ps.getPassesByPageFromHistoryAtHeightByStates index size k states := by
  unfold getPassesByPageFromHistoryAtHeightByStates historyViewByStates
  rw [filter_latest_congr h (fun r => r.newState ∈ states)]

theorem getPassStateStats_congr (h : ps'.historyUpTo k = ps.historyUpTo k) :
    ps'.getPassStateStatsFromHistoryAtHeight k = ps.getPassStateStatsFromHistoryAtHeight k := by
  have hcount : ∀ state, ps'.stateCount k state = ps.stateCount k state := by
    intro state
    unfold stateCount
    rw [filter_latest_congr h (fun r => r.newState = state)]
  unfold getPassStateStatsFromHistoryAtHeight
  simp only [hcount]

theorem getPassCount_congr (h : ps'.historyUpTo k = ps.historyUpTo k)
    (states : List MinerPassState) :
    ps'.getPassCountFromHistoryAtHeightByStates k states =
      ps.getPassCountFromHistoryAtHeightByStates k states := by
  unfold getPassCountFromHistoryAtHeightByStates
  rw [filter_latest_congr h (fun r => r.newState ∈ states)]

/-- Operations at a height add no row below it. -/
theorem PassReach.historyUpTo {burnable : MinerPassState → Prop}
    (h : PassReach burnable height ps ps') (hk : k < height) :
    ps'.historyUpTo k = ps.historyUpTo k := by
  induction h with
  | refl => rfl
  | tail _ hstep ih =>
    rw [← ih]
    have happend : ∀ (rows : List PassHistoryRow) (r : PassHistoryRow), r.blockHeight = height →
        (rows ++ [r]).filter (fun r => r.blockHeight ≤ k) =
          rows.filter (fun r => r.blockHeight ≤ k) := by
      intro rows r hr
      rw [List.filter_append, List.filter_cons_of_neg (by simpa [hr] using hk), List.filter_nil,
        List.append_nil]
    cases hstep with
    | mint info event kind owner minted constraints => exact happend _ _ rfl
    | change id p q event row change constraints => exact happend _ _ rfl

theorem historyUpTo_rolledBack (ps : MinerPassStorage) {target : Nat} (mark : Bool)
    (hk : k ≤ target) : (ps.rolledBack target mark).historyUpTo k = ps.historyUpTo k := by
  show (ps.passStateHistory.filter (fun r => r.blockHeight ≤ target)).filter
    (fun r => r.blockHeight ≤ k) = _
  rw [List.filter_filter]
  refine List.filter_congr (fun r _ => ?_)
  have himp : r.blockHeight ≤ k → r.blockHeight ≤ target := fun hr => Nat.le_trans hr hk
  by_cases hr : r.blockHeight ≤ k
  · simp [hr, himp hr]
  · simp [hr]

end Pinned

end MinerPassStorage

end Usdb
