import Usdb.Index.Content
import Usdb.Energy.Immutability
import Usdb.Index.RollbackRestores

namespace Usdb

open Framework MinerPassStorage PassEnergyManager

inductive PassEnergyLeaderboardScope
  | Active
  | ActiveDormant
  | All
deriving DecidableEq, Repr

namespace PassEnergyLeaderboardScope

def asStr : PassEnergyLeaderboardScope → String
  | Active => "active"
  | ActiveDormant => "active_dormant"
  | All => "all"

def states : PassEnergyLeaderboardScope → List MinerPassState
  | Active => [.Active]
  | ActiveDormant => [.Active, .Dormant]
  | All => [.Active, .Dormant, .Consumed, .Burned, .Invalid]

theorem asStr_inj {a b : PassEnergyLeaderboardScope} : a.asStr = b.asStr ↔ a = b := by
  cases a <;> cases b <;> decide

end PassEnergyLeaderboardScope

structure PassEnergyLeaderboardItem where
  inscriptionId : InscriptionId
  owner : USDBScriptHash
  recordBlockHeight : Nat
  state : MinerPassState
  energy : Nat
deriving DecidableEq, Repr

structure PassEnergyLeaderboardPage where
  resolvedHeight : Nat
  total : Nat
  items : List PassEnergyLeaderboardItem
deriving DecidableEq, Repr

structure PassEnergyLeaderboardCacheEntry where
  resolvedHeight : Nat
  scope : String
  topK : Nat
  total : Nat
  items : List PassEnergyLeaderboardItem
deriving DecidableEq, Repr

structure GetPassEnergyLeaderboardParams where
  atHeight : Option Nat
  scope : Option String
  page : Nat
  pageSize : Nat
deriving DecidableEq, Repr

inductive LeaderboardError
  | invalidPagination (page pageSize : Nat) (maxPageSize : Option Nat)
  | heightNotSynced (requestedHeight syncedHeight : Option Nat)
  | invalidParams (message : String)
deriving DecidableEq, Repr

/-- The settings of the leaderboard cache. -/
structure LeaderboardConfig where
  passEnergyLeaderboardCacheEnabled : Bool
  passEnergyLeaderboardCacheTopK : Nat

namespace UsdbIndexerRpcServer

def maxRpcPageSize : Nat := 1000

/-- The order of the printed ids: the transaction ids have one width, the indexes do not. -/
def inscriptionIdTextLe (a b : InscriptionId) : Bool :=
  a.txid < b.txid || (a.txid == b.txid && decide (toString a.index ≤ toString b.index))

/-- Higher energy first, then the later record, then the smaller id. -/
def ranksBefore (a b : PassEnergyLeaderboardItem) : Bool :=
  b.energy < a.energy || (b.energy == a.energy &&
    (b.recordBlockHeight < a.recordBlockHeight || (b.recordBlockHeight == a.recordBlockHeight &&
      inscriptionIdTextLe a.inscriptionId b.inscriptionId)))

/-- The pages of the pass listing from one page on, up to the first empty one. -/
def loadPassPages (ps : MinerPassStorage) (size height : Nat) (states : List MinerPassState)
    (page : Nat) : Nat → List ActiveMinerPassInfo
  | 0 => []
  | remaining + 1 =>
    match ps.getPassesByPageFromHistoryAtHeightByStates page size height states with
    | [] => []
    | rows => rows ++ loadPassPages ps size height states (page + 1) remaining

/-- A pass without an energy record is left out of the ranking. -/
def rankedItem (energy : PassEnergyStorage) (resolvedHeight : Nat) (row : ActiveMinerPassInfo) :
    Option PassEnergyLeaderboardItem :=
  (energy.findLastPassEnergyRecord row.inscriptionId resolvedHeight).map fun record =>
    let projected := projectEnergyRecordNoBalanceChange record resolvedHeight
    { inscriptionId := row.inscriptionId, owner := row.owner
      recordBlockHeight := record.blockHeight, state := projected.state
      energy := projected.energy }

def buildPassEnergyLeaderboardDataset (cfg : IndexerConfig) (s : IndexerState)
    (resolvedHeight : Nat) (scope : PassEnergyLeaderboardScope) :
    Nat × List PassEnergyLeaderboardItem :=
  let totalPasses :=
    s.passStorage.getPassCountFromHistoryAtHeightByStates resolvedHeight scope.states
  if totalPasses = 0 then (0, [])
  else
    let loadPageSize := max cfg.activeAddressPageSize 1
    let totalPages := (totalPasses + loadPageSize - 1) / loadPageSize
    let rows := loadPassPages s.passStorage loadPageSize resolvedHeight scope.states 0 totalPages
    let ranked := (rows.filterMap (rankedItem s.energyStorage resolvedHeight)).insertionSort
      (fun a b => ranksBefore a b)
    (ranked.length, ranked)

def validatePagination (page pageSize : Nat) : Except LeaderboardError Unit :=
  if pageSize = 0 ∨ maxRpcPageSize < pageSize ∨ 2 ^ 64 ≤ page * pageSize then
    .error (.invalidPagination page pageSize (some maxRpcPageSize))
  else .ok ()

def resolveHeight (s : IndexerState) (requested : Option Nat) : Except LeaderboardError Nat :=
  match s.passStorage.syncedBtcBlockHeight with
  | none => .error (.heightNotSynced requested none)
  | some syncedHeight =>
    let resolved := requested.getD syncedHeight
    if syncedHeight < resolved then
      .error (.heightNotSynced (some resolved) (some syncedHeight))
    else .ok resolved

def parseLeaderboardScope (value : Option String) :
    Except LeaderboardError PassEnergyLeaderboardScope :=
  match (Content.trim (value.getD "active")).toLower with
  | "active" => .ok .Active
  | "active_dormant" => .ok .ActiveDormant
  | "all" => .ok .All
  | normalized => .error (.invalidParams
      s!"Invalid leaderboard scope {normalized}, expected active, active_dormant, or all")

def paginationOffset (page pageSize : Nat) : Except LeaderboardError Nat :=
  if page * pageSize < 2 ^ 64 then .ok (page * pageSize)
  else .error (.invalidPagination page pageSize none)

def paginateLeaderboardItems (items : List PassEnergyLeaderboardItem)
    (total page pageSize : Nat) : Except LeaderboardError (List PassEnergyLeaderboardItem) := do
  let offset ← paginationOffset page pageSize
  if total ≤ offset then return []
  if items.length ≤ offset then return []
  return (items.drop offset).take (min (offset + pageSize) items.length - offset)

/-- What a cached entry answers, when it is the entry of the query. -/
def tryGetCachedLeaderboardPage (cache : Option PassEnergyLeaderboardCacheEntry)
    (resolvedHeight : Nat) (scope : PassEnergyLeaderboardScope) (topK page pageSize : Nat) :
    Except LeaderboardError (Option PassEnergyLeaderboardPage) := do
  let offset ← paginationOffset page pageSize
  let some entry := cache | return none
  if entry.resolvedHeight ≠ resolvedHeight ∨ entry.scope ≠ scope.asStr ∨ entry.topK ≠ topK then
    return none
  if topK ≤ offset then return some { resolvedHeight, total := entry.total, items := [] }
  if entry.total ≤ offset then return some { resolvedHeight, total := entry.total, items := [] }
  if entry.items.length ≤ offset then
    return some { resolvedHeight, total := entry.total, items := [] }
  let items ← paginateLeaderboardItems entry.items entry.total page pageSize
  return some { resolvedHeight, total := entry.total, items }

def updateLeaderboardCache (resolvedHeight : Nat) (scope : PassEnergyLeaderboardScope)
    (topK total : Nat) (ranked : List PassEnergyLeaderboardItem) :
    PassEnergyLeaderboardCacheEntry where
  resolvedHeight
  scope := scope.asStr
  topK
  total
  items := ranked.take topK

/-- The ranking cut to the size of the leaderboard. -/
def cappedDataset (cfg : IndexerConfig) (s : IndexerState) (resolvedHeight : Nat)
    (scope : PassEnergyLeaderboardScope) (topK : Nat) : Nat × List PassEnergyLeaderboardItem :=
  let (rawTotal, ranked) := buildPassEnergyLeaderboardDataset cfg s resolvedHeight scope
  let cappedTotal := min rawTotal topK
  (cappedTotal, if cappedTotal < ranked.length then ranked.take cappedTotal else ranked)

/-- The height and the scope a query stands for. -/
def resolveQuery (s : IndexerState) (params : GetPassEnergyLeaderboardParams) :
    Except LeaderboardError (Nat × PassEnergyLeaderboardScope) := do
  validatePagination params.page params.pageSize
  let resolvedHeight ← resolveHeight s params.atHeight
  let scope ← parseLeaderboardScope params.scope
  return (resolvedHeight, scope)

/-- Only queries for the latest height use the cache. -/
def shouldUseCache (settings : LeaderboardConfig) (params : GetPassEnergyLeaderboardParams) :
    Bool :=
  settings.passEnergyLeaderboardCacheEnabled && params.atHeight.isNone

/-- The rest of the query. It returns the page together with the cache it leaves. -/
def answerResolved (cfg : IndexerConfig) (settings : LeaderboardConfig) (s : IndexerState)
    (cache : Option PassEnergyLeaderboardCacheEntry) (params : GetPassEnergyLeaderboardParams)
    (resolvedHeight : Nat) (scope : PassEnergyLeaderboardScope) :
    Except LeaderboardError
      (PassEnergyLeaderboardPage × Option PassEnergyLeaderboardCacheEntry) := do
  let cacheTopK := max settings.passEnergyLeaderboardCacheTopK 1
  let offset ← paginationOffset params.page params.pageSize
  let cachedPage ←
    tryGetCachedLeaderboardPage (if shouldUseCache settings params then cache else none)
      resolvedHeight scope cacheTopK params.page params.pageSize
  if cacheTopK ≤ offset then
    return (cachedPage.getD { resolvedHeight, total := cacheTopK, items := [] }, cache)
  match cachedPage with
  | some cachedPage => return (cachedPage, cache)
  | none =>
    let (cappedTotal, cappedRanked) := cappedDataset cfg s resolvedHeight scope cacheTopK
    let items ← paginateLeaderboardItems cappedRanked cappedTotal params.page params.pageSize
    return ({ resolvedHeight, total := cappedTotal, items },
      if shouldUseCache settings params then
        some (updateLeaderboardCache resolvedHeight scope cacheTopK cappedTotal cappedRanked)
      else cache)

def getPassEnergyLeaderboard (cfg : IndexerConfig) (settings : LeaderboardConfig)
    (s : IndexerState) (cache : Option PassEnergyLeaderboardCacheEntry)
    (params : GetPassEnergyLeaderboardParams) :
    Except LeaderboardError
      (PassEnergyLeaderboardPage × Option PassEnergyLeaderboardCacheEntry) := do
  let (resolvedHeight, scope) ← resolveQuery s params
  answerResolved cfg settings s cache params resolvedHeight scope

variable {cfg : IndexerConfig} {settings : LeaderboardConfig} {s s' : IndexerState}
  {cache : Option PassEnergyLeaderboardCacheEntry} {params : GetPassEnergyLeaderboardParams}
  {height topK page pageSize : Nat} {scope : PassEnergyLeaderboardScope}

theorem cappedDataset_length (cfg : IndexerConfig) (s : IndexerState) (height : Nat)
    (scope : PassEnergyLeaderboardScope) (topK : Nat) :
    (cappedDataset cfg s height scope topK).2.length ≤ topK := by
  rw [cappedDataset]
  dsimp only
  split_ifs with h
  · rw [List.length_take]
    omega
  · omega

/-- What an enabled cache holds after a query for the latest height. -/
def freshEntry (cfg : IndexerConfig) (s : IndexerState) (height : Nat)
    (scope : PassEnergyLeaderboardScope) (topK : Nat) : PassEnergyLeaderboardCacheEntry :=
  updateLeaderboardCache height scope topK (cappedDataset cfg s height scope topK).1
    (cappedDataset cfg s height scope topK).2

theorem freshEntry_items (cfg : IndexerConfig) (s : IndexerState) (height : Nat)
    (scope : PassEnergyLeaderboardScope) (topK : Nat) :
    (freshEntry cfg s height scope topK).items = (cappedDataset cfg s height scope topK).2 :=
  List.take_of_length_le (cappedDataset_length cfg s height scope topK)

theorem paginateLeaderboardItems_nil {items : List PassEnergyLeaderboardItem} {total : Nat}
    (hbound : page * pageSize < 2 ^ 64)
    (h : total ≤ page * pageSize ∨ items.length ≤ page * pageSize) :
    paginateLeaderboardItems items total page pageSize = .ok [] := by
  rw [paginateLeaderboardItems, paginationOffset, if_pos hbound]
  by_cases htotal : total ≤ page * pageSize
  · simp [bind, Except.bind, pure, Except.pure, htotal]
  · simp [bind, Except.bind, pure, Except.pure, h.resolve_left htotal]

/-- Below the size of the leaderboard an entry answers with a page of its own items. -/
theorem tryGetCachedLeaderboardPage_hit {entry : PassEnergyLeaderboardCacheEntry}
    (hheight : entry.resolvedHeight = height) (hscope : entry.scope = scope.asStr)
    (htopK : entry.topK = topK) (hoffset : page * pageSize < topK)
    (hbound : page * pageSize < 2 ^ 64) :
    tryGetCachedLeaderboardPage (some entry) height scope topK page pageSize =
      (paginateLeaderboardItems entry.items entry.total page pageSize).map fun items =>
        some { resolvedHeight := height, total := entry.total, items } := by
  rw [tryGetCachedLeaderboardPage, paginationOffset, if_pos hbound]
  simp only [bind, Except.bind, pure, Except.pure, hheight, hscope, htopK, ne_eq, not_true,
    or_self, if_false, if_neg (Nat.not_le_of_lt hoffset)]
  split_ifs with htotal hlength
  · rw [paginateLeaderboardItems_nil hbound (.inl htotal)]
    rfl
  · rw [paginateLeaderboardItems_nil hbound (.inr hlength)]
    rfl
  · cases paginateLeaderboardItems entry.items entry.total page pageSize <;> rfl

theorem tryGetCachedLeaderboardPage_overflow {entry : PassEnergyLeaderboardCacheEntry}
    (hheight : entry.resolvedHeight = height) (hscope : entry.scope = scope.asStr)
    (htopK : entry.topK = topK) (hoffset : topK ≤ page * pageSize)
    (hbound : page * pageSize < 2 ^ 64) :
    tryGetCachedLeaderboardPage (some entry) height scope topK page pageSize =
      .ok (some { resolvedHeight := height, total := entry.total, items := [] }) := by
  rw [tryGetCachedLeaderboardPage, paginationOffset, if_pos hbound]
  simp only [bind, Except.bind, pure, Except.pure, hheight, hscope, htopK, ne_eq, not_true,
    or_self, if_false, if_pos hoffset]

theorem tryGetCachedLeaderboardPage_miss (hbound : page * pageSize < 2 ^ 64)
    (hmiss : ∀ e ∈ cache, e.resolvedHeight ≠ height ∨ e.scope ≠ scope.asStr ∨ e.topK ≠ topK) :
    tryGetCachedLeaderboardPage cache height scope topK page pageSize = .ok none := by
  rw [tryGetCachedLeaderboardPage, paginationOffset, if_pos hbound]
  cases cache with
  | none => rfl
  | some entry =>
    simp only [bind, Except.bind, pure, Except.pure, if_pos (hmiss entry rfl)]

theorem resolveQuery_ok (h : resolveQuery s params = .ok (height, scope)) :
    params.page * params.pageSize < 2 ^ 64 ∧ resolveHeight s params.atHeight = .ok height := by
  obtain ⟨u, hpages, h⟩ := bind_eq_ok_iff.mp h
  obtain ⟨resolved, hheight, h⟩ := bind_eq_ok_iff.mp h
  obtain ⟨parsed, -, h⟩ := bind_eq_ok_iff.mp h
  cases h
  refine ⟨?_, hheight⟩
  rw [validatePagination] at hpages
  split_ifs at hpages with hbad
  omega

/-- The page of a query that looks into no cache. -/
def pageFromStorage (cfg : IndexerConfig) (s : IndexerState)
    (params : GetPassEnergyLeaderboardParams) (height : Nat) (scope : PassEnergyLeaderboardScope)
    (topK : Nat) : Except LeaderboardError PassEnergyLeaderboardPage :=
  if topK ≤ params.page * params.pageSize then
    .ok { resolvedHeight := height, total := topK, items := [] }
  else
    (paginateLeaderboardItems (cappedDataset cfg s height scope topK).2
      (cappedDataset cfg s height scope topK).1 params.page params.pageSize).map fun items =>
        { resolvedHeight := height, total := (cappedDataset cfg s height scope topK).1, items }

/-- A cache whose entry for the height of a query is fresh gives the page of the storage,
unless the query asks for a page behind a leaderboard that is not full. -/
theorem answerResolved_page (hbound : params.page * params.pageSize < 2 ^ 64)
    (hfresh : shouldUseCache settings params → ∀ e ∈ cache, e.resolvedHeight = height →
      e.scope = scope.asStr → e = freshEntry cfg s height scope e.topK)
    (hfull : shouldUseCache settings params →
      max settings.passEnergyLeaderboardCacheTopK 1 ≤ params.page * params.pageSize →
      ∀ e ∈ cache, e.resolvedHeight = height → e.scope = scope.asStr →
        e.topK = max settings.passEnergyLeaderboardCacheTopK 1 → e.total = e.topK) :
    (answerResolved cfg settings s cache params height scope).map (·.1) =
      pageFromStorage cfg s params height scope
        (max settings.passEnergyLeaderboardCacheTopK 1) := by
  generalize htopK : max settings.passEnergyLeaderboardCacheTopK 1 = topK at *
  have hoffset : paginationOffset params.page params.pageSize =
      .ok (params.page * params.pageSize) := if_pos hbound
  by_cases hhit : shouldUseCache settings params ∧ ∃ e ∈ cache, e.resolvedHeight = height ∧
      e.scope = scope.asStr ∧ e.topK = topK
  · obtain ⟨huse, e, rfl, hheight, hscope, hkey⟩ := hhit
    rw [answerResolved, hoffset, pageFromStorage, htopK, huse]
    simp only [bind, Except.bind, if_true]
    by_cases hover : topK ≤ params.page * params.pageSize
    · rw [tryGetCachedLeaderboardPage_overflow hheight hscope hkey hover hbound, if_pos hover,
        hfull huse hover e rfl hheight hscope hkey, hkey]
      simp only [if_pos hover]
      rfl
    · rw [tryGetCachedLeaderboardPage_hit hheight hscope hkey (Nat.lt_of_not_le hover) hbound,
        hfresh huse e rfl hheight hscope, hkey, freshEntry_items, if_neg hover]
      have htotal : (freshEntry cfg s height scope topK).total =
          (cappedDataset cfg s height scope topK).1 := rfl
      rw [htotal]
      simp only [if_neg hover]
      cases paginateLeaderboardItems _ _ params.page params.pageSize <;> rfl
  · have hmiss : tryGetCachedLeaderboardPage (if shouldUseCache settings params then cache else none)
        height scope topK params.page params.pageSize = .ok none := by
      refine tryGetCachedLeaderboardPage_miss hbound (fun e he => ?_)
      by_contra hkey
      rw [not_or, not_or, not_not, not_not, not_not] at hkey
      split at he
      · next huse => exact hhit ⟨huse, e, he, hkey⟩
      · cases he
    rw [answerResolved, hoffset, pageFromStorage, htopK]
    simp only [bind, Except.bind, hmiss]
    by_cases hover : topK ≤ params.page * params.pageSize
    · simp only [if_pos hover]
      rfl
    · simp only [if_neg hover]
      cases paginateLeaderboardItems _ _ params.page params.pageSize <;> rfl

theorem answerResolved_cache {page : PassEnergyLeaderboardPage}
    {cache' : Option PassEnergyLeaderboardCacheEntry}
    (h : answerResolved cfg settings s cache params height scope = .ok (page, cache')) :
    cache' = cache ∨ shouldUseCache settings params ∧
      cache' = some (freshEntry cfg s height scope
        (max settings.passEnergyLeaderboardCacheTopK 1)) := by
  obtain ⟨offset, -, h⟩ := bind_eq_ok_iff.mp h
  obtain ⟨cachedPage, -, h⟩ := bind_eq_ok_iff.mp h
  split at h
  · cases h
    exact .inl rfl
  · cases cachedPage with
    | some cachedPage =>
      cases h
      exact .inl rfl
    | none =>
      obtain ⟨items, -, h⟩ := bind_eq_ok_iff.mp h
      cases h
      split
      · next huse => exact .inr ⟨huse, rfl⟩
      · exact .inl rfl

/-- The rows a ranking at a height reads are the same in two states. -/
structure RankingKept (height : Nat) (s s' : IndexerState) : Prop where
  history : s'.passStorage.historyUpTo height = s.passStorage.historyUpTo height
  records : ∀ id, ∀ j ≤ height,
    s'.energyStorage.getPassEnergyRecord id j = s.energyStorage.getPassEnergyRecord id j

theorem RankingKept.loadPassPages (h : RankingKept height s s') (size : Nat)
    (states : List MinerPassState) (page remaining : Nat) :
    loadPassPages s'.passStorage size height states page remaining =
      loadPassPages s.passStorage size height states page remaining := by
  induction remaining generalizing page with
  | zero => rfl
  | succ remaining ih =>
    rw [UsdbIndexerRpcServer.loadPassPages, UsdbIndexerRpcServer.loadPassPages,
      getPassesByPage_congr h.history]
    split
    · rfl
    · rw [ih]

theorem RankingKept.dataset (h : RankingKept height s s') (cfg : IndexerConfig)
    (scope : PassEnergyLeaderboardScope) :
    buildPassEnergyLeaderboardDataset cfg s' height scope =
      buildPassEnergyLeaderboardDataset cfg s height scope := by
  have hitem : rankedItem s'.energyStorage height = rankedItem s.energyStorage height := by
    funext row
    rw [rankedItem, rankedItem,
      PassEnergyStorage.findLastPassEnergyRecord_congr _ _ _ _ (h.records row.inscriptionId)]
  rw [buildPassEnergyLeaderboardDataset, buildPassEnergyLeaderboardDataset,
    getPassCount_congr h.history]
  simp only [h.loadPassPages, hitem]

theorem RankingKept.freshEntry (h : RankingKept height s s') (cfg : IndexerConfig)
    (scope : PassEnergyLeaderboardScope) (topK : Nat) :
    freshEntry cfg s' height scope topK = freshEntry cfg s height scope topK := by
  rw [UsdbIndexerRpcServer.freshEntry, UsdbIndexerRpcServer.freshEntry, cappedDataset,
    cappedDataset, h.dataset]

end UsdbIndexerRpcServer

open UsdbIndexerRpcServer

/-- The running indexer with the leaderboard cache of its query server. -/
structure LeaderboardNode where
  world : World
  cache : Option PassEnergyLeaderboardCacheEntry

inductive LeaderboardLabel
  | sync (l : Label)
  | query (params : GetPassEnergyLeaderboardParams)

namespace LeaderboardNode

def initial : LeaderboardNode where
  world := .initial
  cache := none

/-- What the server answers. -/
def response (cfg : IndexerConfig) (settings : LeaderboardConfig) (n : LeaderboardNode)
    (params : GetPassEnergyLeaderboardParams) :
    Except LeaderboardError PassEnergyLeaderboardPage :=
  (getPassEnergyLeaderboard cfg settings n.world.indexer n.cache params).map (·.1)

/-- What a server answers that has the cache switched off. -/
def uncachedResponse (cfg : IndexerConfig) (settings : LeaderboardConfig) (w : World)
    (params : GetPassEnergyLeaderboardParams) :
    Except LeaderboardError PassEnergyLeaderboardPage :=
  (getPassEnergyLeaderboard cfg { settings with passEnergyLeaderboardCacheEnabled := false }
    w.indexer none params).map (·.1)

def Enabled (cfg : IndexerConfig) (n : LeaderboardNode) : LeaderboardLabel → Prop
  | .sync l => World.Enabled cfg n.world l
  | .query _ => n.world.phase ≠ .crashed

/-- A restart loses the cache. Block syncs and rollbacks do not touch it. -/
def next (cfg : IndexerConfig) (settings : LeaderboardConfig) (n : LeaderboardNode) :
    LeaderboardLabel → LeaderboardNode
  | .sync (.restart faults) =>
    { world := World.next cfg n.world (.restart faults), cache := none }
  | .sync l => { n with world := World.next cfg n.world l }
  | .query params =>
    match getPassEnergyLeaderboard cfg settings n.world.indexer n.cache params with
    | .ok (_, cache) => { n with cache }
    | .error _ => n

def Step (cfg : IndexerConfig) (settings : LeaderboardConfig) (n : LeaderboardNode)
    (l : LeaderboardLabel) (n' : LeaderboardNode) : Prop :=
  Enabled cfg n l ∧ n' = next cfg settings n l

/-- The nodes a run reaches whose every step meets a condition. -/
abbrev Reachable (cfg : IndexerConfig) (settings : LeaderboardConfig)
    (cond : LeaderboardNode → LeaderboardLabel → Prop) (n : LeaderboardNode) : Prop :=
  Machine.Run (Step cfg settings) cond initial n

/-- A step that the cached entry outlives ends above its height, or stays at the synced height
and keeps the rows the entry was made from; and no query asks for a page behind the leaderboard
while the cached entry that it finds is not full. -/
def CacheSafe (cfg : IndexerConfig) (settings : LeaderboardConfig) (n : LeaderboardNode) :
    LeaderboardLabel → Prop
  | .sync (.restart _) => True
  | .sync l => ∀ e ∈ n.cache,
      (∃ v, (World.next cfg n.world l).indexer.passStorage.syncedBtcBlockHeight = some v ∧
        e.resolvedHeight < v) ∨
      ((World.next cfg n.world l).indexer.passStorage.syncedBtcBlockHeight =
          n.world.indexer.passStorage.syncedBtcBlockHeight ∧
        RankingKept e.resolvedHeight n.world.indexer (World.next cfg n.world l).indexer)
  | .query params => shouldUseCache settings params →
      max settings.passEnergyLeaderboardCacheTopK 1 ≤ params.page * params.pageSize →
      ∀ height scope, resolveQuery n.world.indexer params = .ok (height, scope) →
        ∀ e ∈ n.cache, e.resolvedHeight = height → e.scope = scope.asStr →
          e.topK = max settings.passEnergyLeaderboardCacheTopK 1 → e.total = e.topK

/-- The cached entry is below the synced height, or it is what a query would put there now. -/
def CacheInv (cfg : IndexerConfig) (n : LeaderboardNode) : Prop :=
  ∀ e ∈ n.cache, ∃ v, n.world.indexer.passStorage.syncedBtcBlockHeight = some v ∧
    (e.resolvedHeight < v ∨ e.resolvedHeight = v ∧ ∀ scope, e.scope = scope.asStr →
      e = freshEntry cfg n.world.indexer v scope e.topK)

variable {cfg : IndexerConfig} {settings : LeaderboardConfig} {n : LeaderboardNode}

theorem CacheInv.sync {l : Label} (h : CacheInv cfg n)
    (safe : ∀ e ∈ n.cache,
      (∃ v, (World.next cfg n.world l).indexer.passStorage.syncedBtcBlockHeight = some v ∧
        e.resolvedHeight < v) ∨
      ((World.next cfg n.world l).indexer.passStorage.syncedBtcBlockHeight =
          n.world.indexer.passStorage.syncedBtcBlockHeight ∧
        RankingKept e.resolvedHeight n.world.indexer (World.next cfg n.world l).indexer)) :
    CacheInv cfg { n with world := World.next cfg n.world l } := by
  intro e he
  obtain ⟨v, hv, hlt⟩ | ⟨hsynced, hkept⟩ := safe e he
  · exact ⟨v, hv, .inl hlt⟩
  · obtain ⟨v, hv, hentry⟩ := h e he
    refine ⟨v, hsynced.trans hv, hentry.imp_right ?_⟩
    rintro ⟨rfl, hfresh⟩
    refine ⟨rfl, fun scope hscope => ?_⟩
    rw [hkept.freshEntry]
    exact hfresh scope hscope

/-- The query server resolves the latest height to the synced one. -/
theorem resolveHeight_latest {s : IndexerState} {height : Nat}
    (h : resolveHeight s none = .ok height) : s.passStorage.syncedBtcBlockHeight = some height := by
  rw [resolveHeight] at h
  cases hs : s.passStorage.syncedBtcBlockHeight with
  | none =>
    rw [hs] at h
    cases h
  | some v =>
    simp only [hs, Option.getD_none, Nat.lt_irrefl, if_false] at h
    cases h
    rfl

theorem CacheInv.query {params : GetPassEnergyLeaderboardParams} (h : CacheInv cfg n) :
    CacheInv cfg (next cfg settings n (.query params)) := by
  rw [next]
  split
  · next page cache hok =>
    obtain ⟨⟨height, scope⟩, hresolved, hanswer⟩ := bind_eq_ok_iff.mp hok
    obtain rfl | ⟨huse, rfl⟩ := answerResolved_cache hanswer
    · exact h
    · intro e he
      cases he
      rw [shouldUseCache, Bool.and_eq_true, Option.isNone_iff_eq_none] at huse
      have hheight := (resolveQuery_ok hresolved).2
      rw [huse.2] at hheight
      refine ⟨height, resolveHeight_latest hheight, .inr ⟨rfl, fun scope' hscope => ?_⟩⟩
      rw [← PassEnergyLeaderboardScope.asStr_inj.mp hscope]
      rfl
  · exact h

theorem Reachable.cacheInv (h : Reachable cfg settings (CacheSafe cfg settings) n) :
    CacheInv cfg n := by
  refine h.induct (P := CacheInv cfg) (fun e he => (nomatch he)) ?_
  rintro n l n' ih holds ⟨-, rfl⟩
  cases l with
  | query params => exact ih.query
  | sync l =>
    cases l with
    | restart faults => exact fun e he => (nomatch he)
    | prepare rollbackTarget faults => exact ih.sync holds
    | block env balances faults => exact ih.sync holds
    | finish snapshot stateRefAtHeight faults => exact ih.sync holds

/-- Along every run whose steps are safe for the cache, a safe query is answered as it would
be without the cache. -/
theorem Reachable.leaderboard_transparent (cfg : IndexerConfig) (settings : LeaderboardConfig)
    (n : LeaderboardNode) (h : Reachable cfg settings (CacheSafe cfg settings) n)
    (params : GetPassEnergyLeaderboardParams) (safe : CacheSafe cfg settings n (.query params)) :
    n.response cfg settings params = uncachedResponse cfg settings n.world params := by
  rw [response, uncachedResponse, getPassEnergyLeaderboard, getPassEnergyLeaderboard]
  cases hresolved : resolveQuery n.world.indexer params with
  | error e => rfl
  | ok resolved =>
    obtain ⟨height, scope⟩ := resolved
    obtain ⟨hbound, hheight⟩ := resolveQuery_ok hresolved
    have hcached : (answerResolved cfg settings n.world.indexer n.cache params height scope).map
        (·.1) = pageFromStorage cfg n.world.indexer params height scope
          (max settings.passEnergyLeaderboardCacheTopK 1) := by
      refine answerResolved_page hbound (fun huse e he hkey hscope => ?_)
        (fun huse hover => safe huse hover height scope hresolved)
      rw [shouldUseCache, Bool.and_eq_true, Option.isNone_iff_eq_none] at huse
      rw [huse.2] at hheight
      obtain ⟨v, hv, hlt | ⟨-, hfresh⟩⟩ := h.cacheInv e he
      · rw [resolveHeight_latest hheight] at hv
        cases hv
        omega
      · rw [resolveHeight_latest hheight] at hv
        cases hv
        exact hfresh scope hscope
    have huncached := @answerResolved_page cfg
      { settings with passEnergyLeaderboardCacheEnabled := false } n.world.indexer none params
      height scope hbound (fun huse => (nomatch huse)) (fun huse => (nomatch huse))
    exact hcached.trans huncached.symm

end LeaderboardNode

namespace Sample

def leaderboardSettings : LeaderboardConfig where
  passEnergyLeaderboardCacheEnabled := true
  passEnergyLeaderboardCacheTopK := 1000

/-- The first page of the default leaderboard at the latest height. -/
def firstPage : GetPassEnergyLeaderboardParams where
  atHeight := none
  scope := none
  page := 0
  pageSize := 10

/-- The first block again, on a fork without the mint. -/
def emptyBlock : Label := .block (env funded 1 [payment 1 ⟨0, 0⟩ 7] []) funded []

def ranked : LeaderboardNode :=
  [.sync (.prepare none []), .sync mintBlock, .query firstPage].foldl
    (LeaderboardNode.next config leaderboardSettings) LeaderboardNode.initial

def reranked : LeaderboardNode :=
  [.sync (.finish (snapshotAt 1) snapshotAt []), .sync (.prepare (some 0) []),
    .sync emptyBlock].foldl (LeaderboardNode.next config leaderboardSettings) ranked

theorem ranked_reachable : LeaderboardNode.Reachable config leaderboardSettings
    (LeaderboardNode.CacheSafe config leaderboardSettings) ranked := by
  refine Machine.Run.of_follows (fun _ _ enabled => ⟨enabled, rfl⟩) (.refl _)
    ⟨⟨rfl, trivial⟩, fun e he => (nomatch he), ?_, fun e he => (nomatch he), ?_, ?_, trivial⟩
  · show _ = Phase.syncing
    decide +kernel
  · show _ ≠ Phase.crashed
    decide +kernel
  · exact fun _ hover => absurd hover (by decide)

end Sample

/-- The second query for the first page is answered from the cache. -/
theorem LeaderboardNode.Reachable.leaderboard_transparent_ranked :
    Sample.ranked.cache.isSome ∧
      Sample.ranked.response Sample.config Sample.leaderboardSettings Sample.firstPage =
        LeaderboardNode.uncachedResponse Sample.config Sample.leaderboardSettings
          Sample.ranked.world Sample.firstPage :=
  ⟨by decide +kernel, LeaderboardNode.Reachable.leaderboard_transparent Sample.config
    Sample.leaderboardSettings Sample.ranked Sample.ranked_reachable Sample.firstPage
    (fun _ hover => absurd hover (by decide))⟩

/-- After the reorg the mint is gone, and the server still lists it. -/
theorem LeaderboardNode.leaderboard_stale_after_reorg :
    LeaderboardNode.Reachable Sample.config Sample.leaderboardSettings (fun _ _ => True)
        Sample.reranked ∧
      Sample.reranked.response Sample.config Sample.leaderboardSettings Sample.firstPage ≠
        LeaderboardNode.uncachedResponse Sample.config Sample.leaderboardSettings
          Sample.reranked.world Sample.firstPage := by
  have hrun : LeaderboardNode.Reachable Sample.config Sample.leaderboardSettings
      (fun _ _ => True) Sample.ranked := Sample.ranked_reachable.mono fun _ _ _ => trivial
  refine ⟨Machine.Run.of_follows (fun _ _ enabled => ⟨enabled, rfl⟩) hrun
    ⟨?_, trivial, ?_, trivial, ?_, trivial, trivial⟩, by decide +kernel⟩
  · show _ = Phase.syncing ∧ _ ≤ _
    decide +kernel
  · show _ = Phase.idle ∧ _ ≤ _ ∧ _ ≤ _ ∧ _ ≤ _
    decide +kernel
  · show _ = Phase.syncing
    decide +kernel

end Usdb
