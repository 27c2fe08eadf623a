import Usdb.Framework.Paging
import Usdb.Index.Tracks

namespace Usdb

open Framework Paging MinerPassStorage

/-- The tracker that `reload_from_storage` builds. -/
def MinerPassStorage.reloadedTracker (ps : MinerPassStorage) : MultiMap :=
  MultiMap.new.insertAll ps.trackablePasses

/-- The rows of the passes a tracker follows. -/
def MinerPassStorage.trackableRows (ps : MinerPassStorage) : List MinerPassInfo :=
  ps.minerPasses.filter (fun p => p.state ∉ [MinerPassState.Consumed, .Invalid])

/-- The states of the passes as a reload finds them. -/
def MinerPassStorage.loadedStates (ps : MinerPassStorage) (id : InscriptionId) :
    Option MinerPassState :=
  (ps.getPassByInscriptionId id).map (·.state)

/-- The rows a query picks from the pass table, page by page. The order of tied rows is
open, and may be another one in the next query. -/
abbrev SqlEngine := Nat → MinerPassStorage → List MinerPassInfo

/-- The tracker is what a reload of the passes makes it. -/
def Reloaded (s : IndexerState) : Prop :=
  s.inscriptions = s.passStorage.reloadedTracker ∧ s.stagedBlocks = []

namespace InscriptionTransferTracker

/-- `load_all_passes` with the order each of its queries meets. -/
def loadAllPassesIn (engine : SqlEngine) (pageIndex : Nat) : Nat → IndexerM Unit
  | 0 => pure ()
  | rounds + 1 => do
    let passes ← readPass (fun ps =>
      page ((engine pageIndex ps).map (·.entry)) pageIndex trackerPageSize)
    if passes = [] then return
    modify (fun s => { s with inscriptions := s.inscriptions.insertAll passes })
    if passes.length < trackerPageSize then return
    loadAllPassesIn engine (pageIndex + 1) rounds

def reloadFromStorageIn (engine : SqlEngine) : IndexerM Unit := do
  modify (fun s => { s with inscriptions := MultiMap.new, stagedBlocks := [] })
  loadAllPassesIn engine 0 ((← get).passStorage.minerPasses.length + 1)

/-- The rows of the pages from one on, up to the first that is not full. -/
def readPages (engine : SqlEngine) (ps : MinerPassStorage) (pageIndex : Nat) :
    Nat → List MinerPassInfo
  | 0 => []
  | rounds + 1 =>
    let passes := slice (engine pageIndex ps) trackerPageSize pageIndex
    if passes.length < trackerPageSize then passes
    else passes ++ readPages engine ps (pageIndex + 1) rounds

/-- The rows a reload reads. -/
def reloadRows (engine : SqlEngine) (ps : MinerPassStorage) : List MinerPassInfo :=
  readPages engine ps 0 (ps.minerPasses.length + 1)

/-- An engine that keeps the order of the table in every query. -/
def stableEngine : SqlEngine := fun _ ps =>
  ps.trackableRows.insertionSort (fun a b => b.mintBlockHeight ≤ a.mintBlockHeight)

theorem loadAllPassesIn_stable (pageIndex rounds : Nat) :
    loadAllPassesIn stableEngine pageIndex rounds = loadAllPasses pageIndex rounds := by
  induction rounds generalizing pageIndex with
  | zero => rfl
  | succ rounds ih =>
    unfold loadAllPassesIn loadAllPasses
    rw [ih]
    rfl

theorem insertAll_append (m : MultiMap) (passes passes' : List ValidMinerPassInfo) :
    m.insertAll (passes ++ passes') = (m.insertAll passes).insertAll passes' :=
  List.foldl_append ..

variable {engine : SqlEngine} {ps : MinerPassStorage}

theorem readPages_succ (engine : SqlEngine) (ps : MinerPassStorage) (index rounds : Nat) :
    readPages engine ps index (rounds + 1) =
      if (slice (engine index ps) trackerPageSize index).length < trackerPageSize then
        slice (engine index ps) trackerPageSize index
      else slice (engine index ps) trackerPageSize index ++
        readPages engine ps (index + 1) rounds := rfl

theorem page_entries (rows : List MinerPassInfo) (index size : Nat) :
    page (rows.map (·.entry)) index size = (slice rows size index).map (·.entry) := by
  unfold page slice
  rw [← List.map_drop, ← List.map_take]

theorem loadAllPassesIn_ok {index rounds : Nat} {s t : IndexerState} {u : Unit}
    (h : loadAllPassesIn engine index rounds s = .ok u t) :
    ∃ fs, t = { s with
      inscriptions := s.inscriptions.insertAll
        ((readPages engine s.passStorage index rounds).map (·.entry))
      faults := fs } := by
  induction rounds generalizing index s with
  | zero =>
    cases h
    exact ⟨t.faults, rfl⟩
  | succ rounds ih =>
    obtain ⟨passes, s₁, hread, h⟩ := bind_eq_ok h
    obtain ⟨hpasses, fs, rfl⟩ := readPass_ok hread
    rw [page_entries] at hpasses
    subst hpasses
    rw [readPages_succ]
    split at h
    · rename_i hnil
      cases h
      rw [List.map_eq_nil_iff] at hnil
      rw [hnil, if_pos (by decide)]
      exact ⟨fs, rfl⟩
    · obtain ⟨_, s₂, hmod, h⟩ := bind_eq_ok h
      cases hmod
      rw [List.length_map] at h
      split at h
      · rename_i hshort
        cases h
        rw [if_pos hshort]
        exact ⟨fs, rfl⟩
      · rename_i hfull
        obtain ⟨fs', rfl⟩ := ih h
        rw [if_neg hfull, List.map_append, insertAll_append]
        exact ⟨fs', rfl⟩

theorem reloadFromStorageIn_ok {s t : IndexerState} {u : Unit}
    (h : reloadFromStorageIn engine s = .ok u t) :
    ∃ fs, t = { s with
      inscriptions := MultiMap.new.insertAll ((reloadRows engine s.passStorage).map (·.entry))
      stagedBlocks := [], faults := fs } := by
  obtain ⟨_, _, hmod, h⟩ := bind_eq_ok h
  cases hmod
  obtain ⟨_, _, hget, h⟩ := bind_eq_ok h
  cases hget
  exact loadAllPassesIn_ok h

/-- The loop stops early only where the pages end. -/
theorem readPages_eq {rowCount index rounds : Nat}
    (hlen : ∀ i, (engine i ps).length = rowCount) :
    readPages engine ps index rounds =
      (List.range' index rounds).flatMap (fun i => slice (engine i ps) trackerPageSize i) := by
  induction rounds generalizing index with
  | zero => rfl
  | succ rounds ih =>
    rw [List.range'_succ, List.flatMap_cons, ← ih, readPages_succ]
    split
    · rename_i hshort
      have hempty : readPages engine ps (index + 1) rounds = [] := by
        rw [ih, List.flatMap_eq_nil_iff]
        intro i hi
        rw [List.mem_range'_1] at hi
        rw [slice_length, hlen] at hshort
        refine slice_eq_nil ?_
        rw [hlen]
        have hsize : 0 < trackerPageSize := by decide
        calc rowCount ≤ (index + 1) * trackerPageSize := by rw [Nat.succ_mul]; omega
          _ ≤ i * trackerPageSize := Nat.mul_le_mul_right _ hi.1
      rw [hempty, List.append_nil]
    · rfl

theorem reloadRows_eq {rowCount : Nat} (hlen : ∀ i, (engine i ps).length = rowCount) :
    reloadRows engine ps =
      (List.range (ps.minerPasses.length + 1)).flatMap
        (fun i => slice (engine i ps) trackerPageSize i) := by
  rw [List.range_eq_range']
  exact readPages_eq hlen

theorem trackableRows_length_le (ps : MinerPassStorage) :
    ps.trackableRows.length ≤ (ps.minerPasses.length + 1) * trackerPageSize :=
  calc ps.trackableRows.length
      ≤ ps.minerPasses.length := List.length_filter_le ..
    _ ≤ ps.minerPasses.length + 1 := Nat.le_succ _
    _ ≤ (ps.minerPasses.length + 1) * trackerPageSize := Nat.le_mul_of_pos_right _ (by decide)

theorem reloadFromStorageIn_stable : reloadFromStorageIn stableEngine = reloadFromStorage := by
  unfold reloadFromStorageIn reloadFromStorage
  simp only [loadAllPassesIn_stable]

/-- The pages of an engine that keeps the order of the table are the trackable passes. -/
theorem reloadRows_stable (ps : MinerPassStorage) :
    (reloadRows stableEngine ps).map (·.entry) = ps.trackablePasses := by
  have hlen : ∀ i, (stableEngine i ps).length = ps.trackableRows.length :=
    fun _ => List.length_insertionSort ..
  have hrows : reloadRows stableEngine ps = stableEngine 0 ps := by
    rw [reloadRows_eq hlen]
    exact (flatMap_slice _ _ _).trans
      (List.take_of_length_le ((hlen 0).trans_le (trackableRows_length_le ps)))
  rw [hrows]
  rfl

theorem reloadFromStorage_ok {s t : IndexerState} {u : Unit}
    (h : reloadFromStorage s = .ok u t) :
    ∃ fs, t = { s with
      inscriptions := s.passStorage.reloadedTracker, stagedBlocks := [], faults := fs } := by
  rw [← reloadFromStorageIn_stable] at h
  obtain ⟨fs, rfl⟩ := reloadFromStorageIn_ok h
  refine ⟨fs, ?_⟩
  rw [reloadRows_stable]
  rfl

theorem loadAllPasses_unfailing (index rounds : Nat) : Unfailing (loadAllPasses index rounds) := by
  induction rounds generalizing index with
  | zero => exact .pure _
  | succ rounds ih =>
    refine .bind (.readPass _) (fun passes => .ite _ (.pure _) (.bind ?_ (fun _ => ?_)))
    · exact fun s hs => ⟨(), _, rfl, hs⟩
    · exact .ite _ (.pure _) (ih _)

/-- When no call fails, the tracker is reloaded. -/
theorem reloadFromStorage_reloads {s : IndexerState} (hs : s.faults = []) :
    reloadFromStorage s =
      .ok () { s with inscriptions := s.passStorage.reloadedTracker, stagedBlocks := [] } := by
  have hun : Unfailing reloadFromStorage :=
    .bind (fun s hs => ⟨(), _, rfl, hs⟩) (fun _ => .bind (fun s hs => ⟨s, s, rfl, hs⟩)
      (fun _ => loadAllPasses_unfailing _ _))
  obtain ⟨u, t, h, ht⟩ := hun s hs
  obtain ⟨fs, rfl⟩ := reloadFromStorage_ok h
  dsimp only at ht
  subst ht
  rw [h, ← hs]

end InscriptionTransferTracker

/-- A reload lists Active, Dormant and Burned passes. -/
theorem MinerPassState.listed_self (state : MinerPassState) :
    state.Listed (some state) ↔ state ≠ .Consumed ∧ state ≠ .Invalid := by
  cases state <;> simp [MinerPassState.Listed]

theorem MinerPassStorage.mem_trackablePasses (ps : MinerPassStorage) (v : ValidMinerPassInfo) :
    v ∈ ps.trackablePasses ↔
      ∃ p ∈ ps.minerPasses, p.state ≠ .Consumed ∧ p.state ≠ .Invalid ∧ p.entry = v := by
  unfold trackablePasses
  simp only [List.mem_map, List.mem_insertionSort, List.mem_filter, decide_eq_true_eq,
    List.mem_cons, List.not_mem_nil, or_false, not_or]
  constructor
  · rintro ⟨p, ⟨hp, hc, hi⟩, rfl⟩
    exact ⟨p, hp, hc, hi, rfl⟩
  · rintro ⟨p, hp, hc, hi, rfl⟩
    exact ⟨p, ⟨hp, hc, hi⟩, rfl⟩

namespace Tracks

variable {loaded : InscriptionId → Option MinerPassState} {ps : MinerPassStorage} {m : MultiMap}

/-- The reloaded tracker goes with the table it was loaded from. -/
theorem reloaded (hn : (ps.minerPasses.map (·.inscriptionId)).Nodup) :
    Tracks ps.loadedStates ps ps.reloadedTracker := by
  refine ⟨MultiMap.Distinct.new.insertAll _, fun id => ?_⟩
  have hnodup : (ps.trackablePasses.map (·.inscriptionId)).Nodup := by
    unfold trackablePasses
    rw [List.map_map]
    have hperm := (List.perm_insertionSort (fun a b : MinerPassInfo =>
      b.mintBlockHeight ≤ a.mintBlockHeight) (ps.minerPasses.filter
        (fun p => p.state ∉ [MinerPassState.Consumed, .Invalid]))).map (·.inscriptionId)
    refine hperm.nodup_iff.mpr ?_
    exact (List.filter_sublist.map _).nodup hn
  refine ⟨listing (ps.loadedStates id) (ps.getPassByInscriptionId id), ?_, rfl, ?_, ?_⟩
  · cases hrow : ps.getPassByInscriptionId id with
    | none =>
      refine (MultiMap.Holds.new id).insertAll_other (fun v hv => ?_)
      obtain ⟨p, hp, -, -, rfl⟩ := (ps.mem_trackablePasses v).mp hv
      exact (lookup_eq_none _ _ _).mp hrow p hp
    | some p =>
      have hkey := getPassByInscriptionId_key hrow
      have hloaded : ps.loadedStates id = some p.state := by
        unfold loadedStates
        rw [hrow]
        rfl
      rw [hloaded]
      by_cases hlisted : p.state.Listed (some p.state)
      · rw [listing_some hlisted]
        have hstate := p.state.listed_self.mp hlisted
        refine (MultiMap.Holds.new id).insertAll hnodup ((ps.mem_trackablePasses _).mpr ?_) hkey
        exact ⟨p, lookup_some_mem _ _ _ _ hrow, hstate.1, hstate.2, rfl⟩
      · rw [listing_skipped hlisted]
        refine (MultiMap.Holds.new id).insertAll_other (fun v hv hid => ?_)
        obtain ⟨q, hq, hc, hi, rfl⟩ := (ps.mem_trackablePasses v).mp hv
        have hsame : ps.getPassByInscriptionId id = some q := by
          rw [← hid]
          exact lookup_of_mem _ _ _ hn hq
        rw [hrow] at hsame
        cases hsame
        exact hlisted (p.state.listed_self.mpr ⟨hc, hi⟩)
  · unfold loadedStates
    intro hl
    obtain ⟨p, hp, hstate⟩ := Option.map_eq_some_iff.mp hl
    exact ⟨p, hp, .inl hstate⟩
  · unfold loadedStates
    intro hl
    obtain ⟨p, hp, hstate⟩ := Option.map_eq_some_iff.mp hl
    exact ⟨p, hp, hstate⟩

/-- What is listed under an outpoint. -/
theorem mem_iff (h : Tracks loaded ps m) (hn : (ps.minerPasses.map (·.inscriptionId)).Nodup)
    (k : OutPoint) (v : ValidMinerPassInfo) :
    v ∈ m k ↔ ∃ p ∈ ps.minerPasses, p.entry = v ∧ p.satpoint.outpoint = k ∧
      p.state.Listed (loaded p.inscriptionId) := by
  obtain ⟨place, hholds, hrow⟩ := h.rows v.inscriptionId
  rw [hholds k v rfl, hrow.place_eq]
  constructor
  · rintro ⟨hlist, rfl⟩
    obtain ⟨p, hp, hlist⟩ := Option.bind_eq_some_iff.mp hlist
    split at hlist
    · rename_i hlisted
      cases hlist
      exact ⟨p, lookup_some_mem _ _ _ _ hp, rfl, rfl, hlisted⟩
    · cases hlist
  · rintro ⟨p, hp, rfl, rfl, hlisted⟩
    have hlookup : ps.getPassByInscriptionId p.entry.inscriptionId = some p :=
      lookup_of_mem _ _ _ hn hp
    rw [hlookup]
    exact ⟨listing_some hlisted, rfl⟩

/-- Whether a pass is listed where it is. -/
theorem entry_mem_iff (h : Tracks loaded ps m)
    (hn : (ps.minerPasses.map (·.inscriptionId)).Nodup) {p : MinerPassInfo}
    (hp : p ∈ ps.minerPasses) :
    p.entry ∈ m p.satpoint.outpoint ↔ p.state.Listed (loaded p.inscriptionId) := by
  rw [h.mem_iff hn]
  constructor
  · rintro ⟨q, hq, hentry, -, hlisted⟩
    have hid : q.inscriptionId = p.inscriptionId := congrArg ValidMinerPassInfo.inscriptionId hentry
    have hsame : q = p := by
      have hrow := lookup_of_mem _ _ _ hn hq
      rw [hid] at hrow
      exact Option.some.inj (hrow.symm.trans (lookup_of_mem _ _ _ hn hp))
    rwa [hsame] at hlisted
  · intro hlisted
    exact ⟨p, hp, rfl, rfl, hlisted⟩

end Tracks

theorem MinerPassStorage.loadedStates_of_mem {ps : MinerPassStorage}
    (hn : (ps.minerPasses.map (·.inscriptionId)).Nodup) {p : MinerPassInfo}
    (hp : p ∈ ps.minerPasses) : ps.loadedStates p.inscriptionId = some p.state :=
  congrArg (Option.map MinerPassInfo.state) (lookup_of_mem _ _ _ hn hp)

/-- A reload lists what is neither Consumed nor Invalid. -/
theorem MinerPassStorage.mem_reloadedTracker {ps : MinerPassStorage}
    (hn : (ps.minerPasses.map (·.inscriptionId)).Nodup) (k : OutPoint) (v : ValidMinerPassInfo) :
    v ∈ ps.reloadedTracker k ↔ ∃ p ∈ ps.minerPasses, p.entry = v ∧ p.satpoint.outpoint = k ∧
      p.state ≠ .Consumed ∧ p.state ≠ .Invalid := by
  rw [(Tracks.reloaded hn).mem_iff hn]
  refine exists_congr (fun p => and_congr_right (fun hp => and_congr_right (fun _ =>
    and_congr_right (fun _ => ?_))))
  rw [loadedStates_of_mem hn hp]
  exact p.state.listed_self

theorem MinerPassStorage.entry_mem_reloadedTracker {ps : MinerPassStorage}
    (hn : (ps.minerPasses.map (·.inscriptionId)).Nodup) {p : MinerPassInfo}
    (hp : p ∈ ps.minerPasses) :
    p.entry ∈ ps.reloadedTracker p.satpoint.outpoint ↔
      p.state ≠ .Consumed ∧ p.state ≠ .Invalid := by
  rw [(Tracks.reloaded hn).entry_mem_iff hn hp, loadedStates_of_mem hn hp]
  exact p.state.listed_self

end Usdb
