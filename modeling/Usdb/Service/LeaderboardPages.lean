import Usdb.Framework.Paging
import Usdb.Service.Leaderboard

namespace Usdb

open Framework Paging MinerPassStorage PassEnergyManager

namespace UsdbIndexerRpcServer

section Order

variable {a b c : PassEnergyLeaderboardItem}

theorem inscriptionIdTextLe_total (a b : InscriptionId) :
    inscriptionIdTextLe a b = true ∨ inscriptionIdTextLe b a = true := by
  unfold inscriptionIdTextLe
  simp only [Bool.or_eq_true, Bool.and_eq_true, decide_eq_true_eq, beq_iff_eq]
  rcases Nat.lt_trichotomy a.txid b.txid with hlt | heq | hgt
  · exact .inl (.inl hlt)
  · rcases String.le_total (toString a.index) (toString b.index) with hle | hle
    · exact .inl (.inr ⟨heq, hle⟩)
    · exact .inr (.inr ⟨heq.symm, hle⟩)
  · exact .inr (.inl hgt)

theorem inscriptionIdTextLe_trans {a b c : InscriptionId} (hab : inscriptionIdTextLe a b = true)
    (hbc : inscriptionIdTextLe b c = true) : inscriptionIdTextLe a c = true := by
  unfold inscriptionIdTextLe at hab hbc ⊢
  simp only [Bool.or_eq_true, Bool.and_eq_true, decide_eq_true_eq, beq_iff_eq] at hab hbc ⊢
  rcases hab with hab | ⟨hab, hab'⟩
  · rcases hbc with hbc | ⟨hbc, -⟩
    · exact .inl (Nat.lt_trans hab hbc)
    · exact .inl (hbc ▸ hab)
  · rcases hbc with hbc | ⟨hbc, hbc'⟩
    · exact .inl (hab ▸ hbc)
    · exact .inr ⟨hab.trans hbc, String.le_trans hab' hbc'⟩

theorem ranksBefore_iff : ranksBefore a b = true ↔ b.energy < a.energy ∨
    (b.energy = a.energy ∧ (b.recordBlockHeight < a.recordBlockHeight ∨
      (b.recordBlockHeight = a.recordBlockHeight ∧
        inscriptionIdTextLe a.inscriptionId b.inscriptionId = true))) := by
  simp [ranksBefore]

theorem ranksBefore_total (a b : PassEnergyLeaderboardItem) :
    ranksBefore a b = true ∨ ranksBefore b a = true := by
  rw [ranksBefore_iff, ranksBefore_iff]
  rcases Nat.lt_trichotomy a.energy b.energy with hlt | heq | hgt
  · exact .inr (.inl hlt)
  · rcases Nat.lt_trichotomy a.recordBlockHeight b.recordBlockHeight with hlt | hsame | hgt
    · exact .inr (.inr ⟨heq, .inl hlt⟩)
    · exact (inscriptionIdTextLe_total a.inscriptionId b.inscriptionId).imp
        (fun hid => .inr ⟨heq.symm, .inr ⟨hsame.symm, hid⟩⟩)
        (fun hid => .inr ⟨heq, .inr ⟨hsame, hid⟩⟩)
    · exact .inl (.inr ⟨heq.symm, .inl hgt⟩)
  · exact .inl (.inl hgt)

theorem ranksBefore_trans (hab : ranksBefore a b = true) (hbc : ranksBefore b c = true) :
    ranksBefore a c = true := by
  rw [ranksBefore_iff] at hab hbc ⊢
  rcases hab with hab | ⟨hab, hab' | ⟨hab', hid⟩⟩ <;>
    rcases hbc with hbc | ⟨hbc, hbc' | ⟨hbc', hid'⟩⟩
  · exact .inl (by omega)
  · exact .inl (by omega)
  · exact .inl (by omega)
  · exact .inl (by omega)
  · exact .inr ⟨by omega, .inl (by omega)⟩
  · exact .inr ⟨by omega, .inl (by omega)⟩
  · exact .inl (by omega)
  · exact .inr ⟨by omega, .inl (by omega)⟩
  · exact .inr ⟨by omega, .inr ⟨by omega, inscriptionIdTextLe_trans hid hid'⟩⟩

end Order

/-- The passes of a scope at a height that have an energy record, in the order of the
leaderboard. -/
def ranking (s : IndexerState) (height : Nat) (scope : PassEnergyLeaderboardScope) :
    List PassEnergyLeaderboardItem :=
  ((s.passStorage.historyViewByStates height scope.states).filterMap
    (rankedItem s.energyStorage height)).insertionSort (fun a b => ranksBefore a b)

variable {cfg : IndexerConfig} {settings : LeaderboardConfig} {s : IndexerState}
  {cache : Option PassEnergyLeaderboardCacheEntry} {params : GetPassEnergyLeaderboardParams}
  {height topK page pageSize : Nat} {scope : PassEnergyLeaderboardScope}

theorem ranking_sorted (s : IndexerState) (height : Nat) (scope : PassEnergyLeaderboardScope) :
    (ranking s height scope).Pairwise (fun a b => ranksBefore a b = true) := by
  have : Std.Total (fun a b : PassEnergyLeaderboardItem => ranksBefore a b = true) :=
    ⟨ranksBefore_total⟩
  have : IsTrans PassEnergyLeaderboardItem (fun a b => ranksBefore a b = true) :=
    ⟨fun _ _ _ => ranksBefore_trans⟩
  exact List.pairwise_insertionSort _ _

theorem ranking_perm (s : IndexerState) (height : Nat) (scope : PassEnergyLeaderboardScope) :
    (ranking s height scope).Perm
      ((s.passStorage.historyViewByStates height scope.states).filterMap
        (rankedItem s.energyStorage height)) :=
  List.perm_insertionSort ..

theorem scope_states_ne_nil (scope : PassEnergyLeaderboardScope) : scope.states ≠ [] := by
  cases scope <;> exact fun h => (nomatch h)

/-- The page loop reads the view row by row, as far as its pages go. -/
theorem loadPassPages_eq (ps : MinerPassStorage) {size : Nat} (hsize : 0 < size) (height : Nat)
    {states : List MinerPassState} (hstates : states ≠ []) (page remaining : Nat) :
    loadPassPages ps size height states page remaining =
      ((ps.historyViewByStates height states).drop (page * size)).take (remaining * size) := by
  induction remaining generalizing page with
  | zero =>
    rw [Nat.zero_mul, List.take_zero]
    rfl
  | succ remaining ih =>
    have hpage : ps.getPassesByPageFromHistoryAtHeightByStates page size height states =
        ((ps.historyViewByStates height states).drop (page * size)).take size := if_neg hstates
    have hmul : (remaining + 1) * size = size + remaining * size := by
      rw [Nat.succ_mul, Nat.add_comm]
    rw [loadPassPages, hpage, hmul, List.take_add, List.drop_drop, ← Nat.succ_mul, ← ih]
    split
    · rename_i hnil
      rw [hnil, List.nil_append, ih]
      rcases List.take_eq_nil_iff.mp hnil with hz | hz
      · omega
      · have hlen := List.drop_eq_nil_iff.mp hz
        rw [List.drop_of_length_le (by rw [Nat.succ_mul]; omega), List.take_nil]
    · rfl

theorem getPassCount_eq (ps : MinerPassStorage) (height : Nat) {states : List MinerPassState}
    (hstates : states ≠ []) :
    ps.getPassCountFromHistoryAtHeightByStates height states =
      (ps.historyViewByStates height states).length := by
  unfold getPassCountFromHistoryAtHeightByStates historyViewByStates
  rw [if_neg hstates, List.length_map, List.length_insertionSort]

/-- The pages of the pass listing make up the whole ranking. -/
theorem buildPassEnergyLeaderboardDataset_eq (cfg : IndexerConfig) (s : IndexerState)
    (height : Nat) (scope : PassEnergyLeaderboardScope) :
    buildPassEnergyLeaderboardDataset cfg s height scope =
      ((ranking s height scope).length, ranking s height scope) := by
  have hcount := getPassCount_eq s.passStorage height (scope_states_ne_nil scope)
  unfold buildPassEnergyLeaderboardDataset
  by_cases hzero : s.passStorage.getPassCountFromHistoryAtHeightByStates height scope.states = 0
  · have hview : s.passStorage.historyViewByStates height scope.states = [] :=
      List.eq_nil_of_length_eq_zero (hcount.symm.trans hzero)
    unfold ranking
    rw [if_pos hzero, hview]
    rfl
  · have hsize : 0 < max cfg.activeAddressPageSize 1 := by omega
    rw [if_neg hzero]
    dsimp only
    rw [loadPassPages_eq _ hsize _ (scope_states_ne_nil scope), Nat.zero_mul, List.drop_zero,
      List.take_of_length_le]
    · rfl
    · rw [← hcount]
      generalize s.passStorage.getPassCountFromHistoryAtHeightByStates height scope.states = count
      have hdiv := Nat.lt_div_mul_add (a := count + max cfg.activeAddressPageSize 1 - 1) hsize
      omega

theorem cappedDataset_eq (cfg : IndexerConfig) (s : IndexerState) (height : Nat)
    (scope : PassEnergyLeaderboardScope) (topK : Nat) :
    cappedDataset cfg s height scope topK =
      (((ranking s height scope).take topK).length, (ranking s height scope).take topK) := by
  unfold cappedDataset
  rw [buildPassEnergyLeaderboardDataset_eq]
  dsimp only
  rw [List.length_take, Nat.min_comm topK]
  split
  · rw [Nat.min_eq_right (show topK ≤ (ranking s height scope).length by omega)]
  · rw [List.take_of_length_le (show (ranking s height scope).length ≤ topK by omega)]

theorem paginateLeaderboardItems_eq (items : List PassEnergyLeaderboardItem)
    (hbound : page * pageSize < 2 ^ 64) :
    paginateLeaderboardItems items items.length page pageSize =
      .ok (slice items pageSize page) := by
  by_cases hle : items.length ≤ page * pageSize
  · rw [paginateLeaderboardItems_nil hbound (.inl hle), slice_eq_nil hle]
  · rw [paginateLeaderboardItems, paginationOffset, if_pos hbound]
    simp only [bind, Except.bind, pure, Except.pure, if_neg hle]
    unfold slice
    congr 1
    rw [List.take_eq_take_iff, List.length_drop]
    omega

/-- The cached entry a query is answered from, if it is. -/
def usedEntry (settings : LeaderboardConfig) (params : GetPassEnergyLeaderboardParams)
    (cache : Option PassEnergyLeaderboardCacheEntry) (height : Nat)
    (scope : PassEnergyLeaderboardScope) : Option PassEnergyLeaderboardCacheEntry :=
  (if shouldUseCache settings params then cache else none).filter (fun e =>
    e.resolvedHeight = height ∧ e.scope = scope.asStr ∧
      e.topK = max settings.passEnergyLeaderboardCacheTopK 1)

theorem usedEntry_hit {e : PassEnergyLeaderboardCacheEntry}
    (h : usedEntry settings params cache height scope = some e) :
    (if shouldUseCache settings params then cache else none) = some e ∧
      e.resolvedHeight = height ∧ e.scope = scope.asStr ∧
        e.topK = max settings.passEnergyLeaderboardCacheTopK 1 := by
  obtain ⟨hentry, hkey⟩ := Option.filter_eq_some_iff.mp h
  exact ⟨hentry, by simpa using hkey⟩

theorem usedEntry_miss (h : usedEntry settings params cache height scope = none)
    (hbound : params.page * params.pageSize < 2 ^ 64) :
    tryGetCachedLeaderboardPage (if shouldUseCache settings params then cache else none) height
      scope (max settings.passEnergyLeaderboardCacheTopK 1) params.page params.pageSize =
      .ok none := by
  refine tryGetCachedLeaderboardPage_miss hbound (fun e he => ?_)
  have hkey := Option.filter_eq_none_iff.mp h e he
  simp only [decide_eq_true_eq] at hkey
  tauto

/-- The rows the leaderboard shows. -/
def leaderboard (settings : LeaderboardConfig) (s : IndexerState) (height : Nat)
    (scope : PassEnergyLeaderboardScope) : List PassEnergyLeaderboardItem :=
  (ranking s height scope).take (max settings.passEnergyLeaderboardCacheTopK 1)

/-- The entry a query finds, if any, was made from this storage. -/
def UsesFreshCache (cfg : IndexerConfig) (settings : LeaderboardConfig) (s : IndexerState)
    (cache : Option PassEnergyLeaderboardCacheEntry) (params : GetPassEnergyLeaderboardParams)
    (height : Nat) (scope : PassEnergyLeaderboardScope) : Prop :=
  ∀ e ∈ usedEntry settings params cache height scope, e = freshEntry cfg s height scope e.topK

theorem freshEntry_eq (cfg : IndexerConfig) (s : IndexerState) (height : Nat)
    (scope : PassEnergyLeaderboardScope) (topK : Nat) :
    (freshEntry cfg s height scope topK).total = ((ranking s height scope).take topK).length ∧
      (freshEntry cfg s height scope topK).items = (ranking s height scope).take topK := by
  rw [freshEntry_items, cappedDataset_eq]
  refine ⟨?_, rfl⟩
  show (cappedDataset cfg s height scope topK).1 = _
  rw [cappedDataset_eq]

/-- A page is a slice of the leaderboard. Its total is that of the leaderboard, unless it
starts behind the leaderboard and no entry is cached. -/
theorem answerResolved_slice (hbound : params.page * params.pageSize < 2 ^ 64)
    (hfresh : UsesFreshCache cfg settings s cache params height scope) :
    ∃ cache', answerResolved cfg settings s cache params height scope =
      .ok ({ resolvedHeight := height
             total := if max settings.passEnergyLeaderboardCacheTopK 1 ≤
                 params.page * params.pageSize ∧
                 usedEntry settings params cache height scope = none then
               max settings.passEnergyLeaderboardCacheTopK 1
               else (leaderboard settings s height scope).length
             items := slice (leaderboard settings s height scope) params.pageSize params.page },
        cache') := by
  unfold UsesFreshCache at hfresh
  unfold leaderboard
  have hoffset : paginationOffset params.page params.pageSize =
      .ok (params.page * params.pageSize) := if_pos hbound
  have hempty : max settings.passEnergyLeaderboardCacheTopK 1 ≤ params.page * params.pageSize →
      slice ((ranking s height scope).take (max settings.passEnergyLeaderboardCacheTopK 1))
        params.pageSize params.page = [] := fun hover =>
    slice_eq_nil ((List.length_take_le _ _).trans hover)
  unfold answerResolved
  rw [hoffset]
  simp only [bind, Except.bind]
  cases hused : usedEntry settings params cache height scope with
  | none =>
    rw [usedEntry_miss hused hbound]
    generalize max settings.passEnergyLeaderboardCacheTopK 1 = topK at *
    by_cases hover : topK ≤ params.page * params.pageSize
    · refine ⟨cache, ?_⟩
      rw [if_pos (show topK ≤ params.page * params.pageSize ∧
        (none : Option PassEnergyLeaderboardCacheEntry) = none from ⟨hover, rfl⟩), hempty hover]
      simp only [if_pos hover]
      rfl
    · refine ⟨if shouldUseCache settings params then some (updateLeaderboardCache height scope topK
        ((ranking s height scope).take topK).length ((ranking s height scope).take topK))
        else cache, ?_⟩
      rw [if_neg (show ¬ (topK ≤ params.page * params.pageSize ∧
        (none : Option PassEnergyLeaderboardCacheEntry) = none) from fun h => hover h.1)]
      simp only [if_neg hover, cappedDataset_eq, paginateLeaderboardItems_eq _ hbound]
      rfl
  | some e =>
    obtain ⟨hentry, hheight, hscope, hkey⟩ := usedEntry_hit hused
    obtain ⟨htotal, hitems⟩ := freshEntry_eq cfg s height scope e.topK
    rw [← hfresh e hused, hkey] at htotal hitems
    rw [hentry]
    generalize max settings.passEnergyLeaderboardCacheTopK 1 = topK at *
    refine ⟨cache, ?_⟩
    rw [if_neg (show ¬ (topK ≤ params.page * params.pageSize ∧ some e = none) from
      fun h => (nomatch h.2))]
    by_cases hover : topK ≤ params.page * params.pageSize
    · rw [tryGetCachedLeaderboardPage_overflow hheight hscope hkey hover hbound]
      simp only [if_pos hover, hempty hover, Option.getD_some, htotal]
      rfl
    · rw [tryGetCachedLeaderboardPage_hit hheight hscope hkey (Nat.lt_of_not_le hover) hbound,
        hitems, htotal, paginateLeaderboardItems_eq _ hbound]
      simp only [Except.map, if_neg hover]
      rfl

theorem historyView_ids_nodup {ps : MinerPassStorage}
    (hn : (ps.passStateHistory.map (·.id)).Nodup) (height : Nat) (states : List MinerPassState) :
    ((ps.historyViewByStates height states).map (·.inscriptionId)).Nodup := by
  unfold historyViewByStates
  rw [List.map_map]
  have hperm := (List.perm_insertionSort (fun a b : PassHistoryRow => b.blockHeight < a.blockHeight ∨
    (b.blockHeight = a.blockHeight ∧ b.id ≤ a.id)) (ps.passStateHistory.filter (fun r =>
      ps.latestHistoryAt height r.inscriptionId = some r ∧ r.newState ∈ states))).map
        (·.inscriptionId)
  refine hperm.nodup_iff.mpr (List.Nodup.map_on ?_ ((List.Nodup.of_map _ hn).filter _))
  intro r hr r' hr' hid
  have hlatest := (of_decide_eq_true (List.mem_filter.mp hr).2).1
  have hlatest' := (of_decide_eq_true (List.mem_filter.mp hr').2).1
  rw [hid, hlatest'] at hlatest
  exact (Option.some.inj hlatest).symm

theorem rankedItem_id {energy : PassEnergyStorage} {row : ActiveMinerPassInfo}
    {item : PassEnergyLeaderboardItem} (h : rankedItem energy height row = some item) :
    item.inscriptionId = row.inscriptionId := by
  unfold rankedItem at h
  obtain ⟨record, -, rfl⟩ := Option.map_eq_some_iff.mp h
  rfl

/-- No pass is listed twice. -/
theorem ranking_ids_nodup (hn : (s.passStorage.passStateHistory.map (·.id)).Nodup) (height : Nat)
    (scope : PassEnergyLeaderboardScope) :
    ((ranking s height scope).map (·.inscriptionId)).Nodup := by
  have hview := historyView_ids_nodup hn height scope.states
  refine ((ranking_perm s height scope).map _).nodup_iff.mpr ?_
  generalize s.passStorage.historyViewByStates height scope.states = rows at hview
  refine List.Sublist.nodup ?_ hview
  induction rows with
  | nil => exact .slnil
  | cons row rest ih =>
    have hrest := ih (List.nodup_cons.mp hview).2
    cases hitem : rankedItem s.energyStorage height row with
    | none =>
      rw [List.filterMap_cons_none hitem, List.map_cons]
      exact hrest.cons _
    | some item =>
      rw [List.filterMap_cons_some hitem, List.map_cons, List.map_cons, rankedItem_id hitem]
      exact hrest.cons_cons _

/-- Over every storage, the pages of the leaderboard are its rows in order, and those that
start inside it report its size; one that starts behind it reports the size when an entry is
cached and the configured length when none is. -/
theorem getPassEnergyLeaderboard_pages (cfg : IndexerConfig) (settings : LeaderboardConfig)
    (s : IndexerState) (rowIds : (s.passStorage.passStateHistory.map (·.id)).Nodup)
    (height : Nat) (scope : PassEnergyLeaderboardScope) :
    ((ranking s height scope).Pairwise (fun a b => ranksBefore a b = true) ∧
      ((ranking s height scope).map (·.inscriptionId)).Nodup ∧
      ∀ item, item ∈ ranking s height scope ↔
        ∃ row ∈ s.passStorage.historyViewByStates height scope.states,
          rankedItem s.energyStorage height row = some item) ∧
    ∀ (params : GetPassEnergyLeaderboardParams) (pages : Nat)
      (caches : Nat → Option PassEnergyLeaderboardCacheEntry),
      (∀ p < pages, resolveQuery s { params with page := p } = .ok (height, scope) ∧
        UsesFreshCache cfg settings s (caches p) { params with page := p } height scope) →
      ∃ answers : Nat → PassEnergyLeaderboardPage,
        (∀ p < pages,
          (∃ cache', getPassEnergyLeaderboard cfg settings s (caches p) { params with page := p } =
            .ok (answers p, cache')) ∧
          (p * params.pageSize < max settings.passEnergyLeaderboardCacheTopK 1 →
            (answers p).total = min (ranking s height scope).length
              (max settings.passEnergyLeaderboardCacheTopK 1)) ∧
          (max settings.passEnergyLeaderboardCacheTopK 1 ≤ p * params.pageSize →
            (answers p).items = [] ∧
            (answers p).total =
              if (usedEntry settings { params with page := p } (caches p) height scope).isSome then
                min (ranking s height scope).length
                  (max settings.passEnergyLeaderboardCacheTopK 1)
              else max settings.passEnergyLeaderboardCacheTopK 1)) ∧
        (min (ranking s height scope).length (max settings.passEnergyLeaderboardCacheTopK 1) ≤
            pages * params.pageSize →
          (List.range pages).flatMap (fun p => (answers p).items) =
            (ranking s height scope).take (min (ranking s height scope).length
              (max settings.passEnergyLeaderboardCacheTopK 1))) := by
  refine ⟨⟨ranking_sorted s height scope, ranking_ids_nodup rowIds height scope, ?_⟩, ?_⟩
  · intro item
    rw [(ranking_perm s height scope).mem_iff, List.mem_filterMap]
  · intro params pages caches hqueries
    have hlength : (leaderboard settings s height scope).length =
        min (ranking s height scope).length (max settings.passEnergyLeaderboardCacheTopK 1) := by
      unfold leaderboard
      rw [List.length_take, Nat.min_comm]
    refine ⟨fun p =>
      { resolvedHeight := height
        total := if max settings.passEnergyLeaderboardCacheTopK 1 ≤ p * params.pageSize ∧
            usedEntry settings { params with page := p } (caches p) height scope = none then
          max settings.passEnergyLeaderboardCacheTopK 1
          else (leaderboard settings s height scope).length
        items := slice (leaderboard settings s height scope) params.pageSize p }, ?_, ?_⟩
    · intro p hp
      obtain ⟨hresolved, hfresh⟩ := hqueries p hp
      refine ⟨?_, ?_, ?_⟩
      · obtain ⟨cache', hanswer⟩ := answerResolved_slice (resolveQuery_ok hresolved).1 hfresh
        refine ⟨cache', ?_⟩
        unfold getPassEnergyLeaderboard
        rw [hresolved]
        exact hanswer
      · intro hinside
        rw [← hlength]
        exact if_neg (fun h => by omega)
      · intro hover
        have hslice : slice (leaderboard settings s height scope) params.pageSize p = [] :=
          slice_eq_nil (by rw [hlength]; omega)
        refine ⟨hslice, ?_⟩
        rw [← hlength]
        cases hused : usedEntry settings { params with page := p } (caches p) height scope with
        | none => exact if_pos ⟨hover, hused⟩
        | some e =>
          refine if_neg (fun h => ?_)
          rw [hused] at h
          cases h.2
    · intro henough
      show (List.range pages).flatMap (slice (leaderboard settings s height scope) params.pageSize) =
        _
      rw [flatMap_slice, List.take_of_length_le (by rw [hlength]; exact henough)]
      unfold leaderboard
      rw [List.take_eq_take_iff]
      omega

section OnePass

/-- One pass, minted at height 100 and with an energy record at the synced height 120. -/
def onePass : IndexerState :=
  { IndexerState.empty with
    passStorage := { MinerPassStorage.empty with
      passStateHistory :=
        [{ id := 1, inscriptionId := ⟨10, 0⟩, blockHeight := 100, eventType := .mint
           prevState := none, newState := .Active, prevOwner := none, newOwner := 100
           prevSatpoint := none, newSatpoint := ⟨⟨10, 0⟩, 0⟩ }]
      nextHistoryId := 2
      syncedBtcBlockHeight := some 120 }
    energyStorage := PassEnergyStorage.empty.insertPassEnergyRecord
      { inscriptionId := ⟨10, 0⟩, blockHeight := 120, state := .Active, activeBlockHeight := 120
        ownerAddress := 100, ownerBalance := 0, ownerDelta := 0, energy := 999 } }

def latestPage (page : Nat) : GetPassEnergyLeaderboardParams where
  atHeight := none
  scope := none
  page
  pageSize := 20

theorem onePass_resolved (page : Nat) (hpage : page ≤ 100) :
    resolveQuery onePass (latestPage page) = .ok (120, .Active) := by
  have hvalid : validatePagination page 20 = .ok () := if_neg (by unfold maxRpcPageSize; omega)
  have hscope : parseLeaderboardScope none = .ok .Active := by decide +kernel
  unfold resolveQuery latestPage
  rw [hvalid, hscope]
  rfl

theorem onePass_answer (page : Nat) (hpage : page ≤ 100) :
    ∃ answer cache, getPassEnergyLeaderboard Sample.config Sample.leaderboardSettings onePass none
      (latestPage page) = .ok (answer, cache) ∧
        answer.total = if 1000 ≤ page * 20 then 1000 else 1 := by
  have hbound : (latestPage page).page * (latestPage page).pageSize < 2 ^ 64 := by
    show page * 20 < 2 ^ 64
    omega
  have hfresh : UsesFreshCache Sample.config Sample.leaderboardSettings onePass none
      (latestPage page) 120 .Active := fun e he => (nomatch he)
  obtain ⟨cache, hanswer⟩ := answerResolved_slice hbound hfresh
  have hget : getPassEnergyLeaderboard Sample.config Sample.leaderboardSettings onePass none
      (latestPage page) = answerResolved Sample.config Sample.leaderboardSettings onePass none
        (latestPage page) 120 .Active := by
    unfold getPassEnergyLeaderboard
    rw [onePass_resolved page hpage]
    rfl
  refine ⟨_, cache, hget.trans hanswer, ?_⟩
  have hlength : (leaderboard Sample.leaderboardSettings onePass 120 .Active).length = 1 := by
    decide
  dsimp only
  rw [hlength]
  by_cases hover : 1000 ≤ page * 20
  · rw [if_pos hover]
    exact if_pos ⟨hover, rfl⟩
  · rw [if_neg hover]
    exact if_neg (fun h => hover h.1)

/-- The first page reports one pass and the page behind the leaderboard a thousand. -/
theorem leaderboard_totals_differ :
    (∃ page cache, getPassEnergyLeaderboard Sample.config Sample.leaderboardSettings onePass none
        (latestPage 0) = .ok (page, cache) ∧ page.total = 1) ∧
      ∃ page cache, getPassEnergyLeaderboard Sample.config Sample.leaderboardSettings onePass none
        (latestPage 100) = .ok (page, cache) ∧ page.total = 1000 :=
  ⟨onePass_answer 0 (by omega), onePass_answer 100 le_rfl⟩

theorem getPassEnergyLeaderboard_pages_onePass :
    ∃ page cache, getPassEnergyLeaderboard Sample.config Sample.leaderboardSettings onePass none
      (latestPage 0) = .ok (page, cache) ∧
        page.items = (ranking onePass 120 .Active).take 1 := by
  obtain ⟨answers, heach, hall⟩ := (getPassEnergyLeaderboard_pages Sample.config
    Sample.leaderboardSettings onePass (by decide) 120 .Active).2 (latestPage 0) 1 (fun _ => none)
    (fun p hp => by
      obtain rfl : p = 0 := by omega
      exact ⟨onePass_resolved 0 (by omega), fun e he => (nomatch he)⟩)
  obtain ⟨⟨cache, hanswer⟩, -⟩ := heach 0 (by omega)
  refine ⟨answers 0, cache, hanswer, ?_⟩
  have hitems := hall (by decide)
  rw [show (List.range 1).flatMap (fun p => (answers p).items) = (answers 0).items from
    List.append_nil _] at hitems
  rw [hitems]
  decide

end OnePass

end UsdbIndexerRpcServer

end Usdb
