import Usdb.Index.MintListing
import Usdb.Index.PassInvariant

namespace Usdb

open Framework

/-- An event without the time its source reports. -/
def BlockProcessEvent.core : BlockProcessEvent → BlockProcessEvent
  | .Mint item => .Mint item.core
  | .Transfer item => .Transfer item

def OrderedBlockProcessEvent.core (ordered : OrderedBlockProcessEvent) :
    OrderedBlockProcessEvent :=
  { ordered with event := ordered.event.core }

namespace BlockEventPlanner

variable {height : Nat} {block : Block} {mints mints' : List InscriptionNewItem}
  {items items' : List InscriptionTransferItem} {events : List BlockProcessEvent}

/-- The inscription a sort key belongs to. -/
def keyInscription (sortKey : List Nat) : InscriptionId where
  txid := sortKey.getD 4 0
  index := sortKey.getD 3 0

theorem mintEvent_core (item : InscriptionNewItem) :
    (mintEvent height block item.core).toOption =
      (mintEvent height block item).toOption.map OrderedBlockProcessEvent.core := by
  simp only [mintEvent, InscriptionNewItem.core]
  cases buildBlockTxPositionMap block item.inscriptionId.txid <;> rfl

theorem mintEvent_key {item : InscriptionNewItem} {ordered : OrderedBlockProcessEvent}
    (h : (mintEvent height block item).toOption = some ordered) :
    item.inscriptionId = keyInscription ordered.sortKey := by
  rw [toOption_eq_some] at h
  unfold mintEvent at h
  split at h
  · cases h
  · cases h
    rfl

theorem transferEvent_key {item : InscriptionTransferItem} {ordered : OrderedBlockProcessEvent}
    (h : (transferEvent height block item).toOption = some ordered) :
    item.inscriptionId = keyInscription ordered.sortKey := by
  rw [toOption_eq_some] at h
  unfold transferEvent at h
  split at h
  · cases h
  · split at h
    · cases h
    · cases h
      rfl

theorem transferEvents_core (items : List InscriptionTransferItem) :
    (items.filterMap (fun item => (transferEvent height block item).toOption)).map
        OrderedBlockProcessEvent.core =
      items.filterMap (fun item => (transferEvent height block item).toOption) := by
  rw [List.map_filterMap]
  refine List.filterMap_congr (fun item _ => ?_)
  cases h : transferEvent height block item with
  | error e => rfl
  | ok ordered =>
    have hevent := transferEvent_ok h
    show some ordered.core = some ordered
    unfold OrderedBlockProcessEvent.core
    rw [hevent]
    show some { ordered with event := .Transfer item } = some ordered
    rw [← hevent]

/-- A plan, as the sorted list of what can be planned. -/
theorem plan_eq_ok :
    plan height block mints items = .ok events ↔
      (∀ item ∈ mints, ∃ ordered, mintEvent height block item = .ok ordered) ∧
      (∀ item ∈ items, ∃ ordered, transferEvent height block item = .ok ordered) ∧
      events = ((mints.filterMap (fun item => (mintEvent height block item).toOption) ++
        items.filterMap (fun item => (transferEvent height block item).toOption)).insertionSort
          (fun a b => a.sortKey ≤ b.sortKey)).map (·.event) := by
  unfold plan
  constructor
  · intro h
    cases hm : mints.mapM (mintEvent height block) with
    | error e =>
      rw [hm] at h
      cases h
    | ok ms =>
      cases ht : items.mapM (transferEvent height block) with
      | error e =>
        rw [hm, ht] at h
        cases h
      | ok ts =>
        rw [hm, ht] at h
        cases h
        obtain ⟨hall, rfl⟩ := mapM_eq_ok.mp hm
        obtain ⟨hall', rfl⟩ := mapM_eq_ok.mp ht
        exact ⟨hall, hall', rfl⟩
  · rintro ⟨hall, hall', rfl⟩
    have hm := (mapM_eq_ok (f := mintEvent height block)).mpr ⟨hall, rfl⟩
    have ht := (mapM_eq_ok (f := transferEvent height block)).mpr ⟨hall', rfl⟩
    rw [hm, ht]
    rfl

/-- A plan does not depend on the order in which mints and moves of different inscriptions
are found. -/
theorem plan_alike
    (hm : SameBy (·.inscriptionId) (mints.map InscriptionNewItem.core)
      (mints'.map InscriptionNewItem.core))
    (hi : SameBy (·.inscriptionId) items items')
    (h : plan height block mints items = .ok events) :
    ∃ events', plan height block mints' items' = .ok events' ∧
      events'.map BlockProcessEvent.core = events.map BlockProcessEvent.core := by
  obtain ⟨hall, hall', rfl⟩ := plan_eq_ok.mp h
  have hcore : ∀ (ms : List InscriptionNewItem) (ts : List InscriptionTransferItem),
      (((ms.filterMap (fun item => (mintEvent height block item).toOption) ++
        ts.filterMap (fun item => (transferEvent height block item).toOption)).insertionSort
          (fun a b => a.sortKey ≤ b.sortKey)).map (·.event)).map BlockProcessEvent.core =
      ((((ms.map InscriptionNewItem.core).filterMap
          (fun item => (mintEvent height block item).toOption) ++
        ts.filterMap (fun item => (transferEvent height block item).toOption)).insertionSort
          (fun a b => a.sortKey ≤ b.sortKey)).map (·.event)) := by
    intro ms ts
    have hms : (ms.map InscriptionNewItem.core).filterMap
        (fun item => (mintEvent height block item).toOption) =
        (ms.filterMap (fun item => (mintEvent height block item).toOption)).map
          OrderedBlockProcessEvent.core := by
      rw [List.filterMap_map, List.map_filterMap]
      exact List.filterMap_congr (fun item _ => mintEvent_core item)
    have hsort := List.map_insertionSort
      (fun a b : OrderedBlockProcessEvent => a.sortKey ≤ b.sortKey)
      (fun a b : OrderedBlockProcessEvent => a.sortKey ≤ b.sortKey) OrderedBlockProcessEvent.core
      (ms.filterMap (fun item => (mintEvent height block item).toOption) ++
        ts.filterMap (fun item => (transferEvent height block item).toOption))
      (fun a _ b _ => Iff.rfl)
    rw [List.map_append, transferEvents_core ts, ← hms] at hsort
    rw [← hsort, List.map_map, List.map_map]
    rfl
  refine ⟨_, plan_eq_ok.mpr ⟨?_, ?_, rfl⟩, ?_⟩
  · intro item hitem
    have hmem : item.core ∈ mints.map InscriptionNewItem.core :=
      hm.perm.mem_iff.mpr (List.mem_map_of_mem hitem)
    obtain ⟨item', hitem', he⟩ := List.mem_map.mp hmem
    obtain ⟨ordered, ho⟩ := hall item' hitem'
    have hsome : (mintEvent height block item.core).toOption.isSome := by
      rw [← he, mintEvent_core, ho]
      rfl
    rw [mintEvent_core, Option.isSome_map] at hsome
    obtain ⟨ordered', ho'⟩ := Option.isSome_iff_exists.mp hsome
    exact ⟨ordered', toOption_eq_some.mp ho'⟩
  · exact fun item hitem => hall' item (hi.perm.mem_iff.mpr hitem)
  · rw [hcore, hcore]
    have hms : SameBy (·.sortKey)
        ((mints.map InscriptionNewItem.core).filterMap
          (fun item => (mintEvent height block item).toOption))
        ((mints'.map InscriptionNewItem.core).filterMap
          (fun item => (mintEvent height block item).toOption)) :=
      hm.filterMap (c := keyInscription) (fun _ _ => mintEvent_key)
    have hts : SameBy (·.sortKey)
        (items.filterMap (fun item => (transferEvent height block item).toOption))
        (items'.filterMap (fun item => (transferEvent height block item).toOption)) :=
      hi.filterMap (c := keyInscription) (fun _ _ => transferEvent_key)
    have hsort := SameBy.insertionSort_eq OrderedBlockProcessEvent.sortKey (hms.append hts)
    rw [hsort]

end BlockEventPlanner

namespace BlockEventExecutor

theorem executeEvent_core (provider : BalanceProvider) (event : BlockProcessEvent) :
    executeEvent provider event.core = executeEvent provider event := by
  cases event <;> rfl

theorem execute_core (provider : BalanceProvider) (events : List BlockProcessEvent) :
    execute provider (events.map BlockProcessEvent.core) = execute provider events := by
  induction events with
  | nil => rfl
  | cons event rest ih =>
    rw [List.map_cons]
    unfold execute
    rw [executeEvent_core, ih]

end BlockEventExecutor

namespace InscriptionIndexer

open PassEnergyManager MinerPassManager InscriptionTransferTracker MultiMap

variable {cfg : IndexerConfig} {env env' : BlockEnv} {height : Nat} {s s' t : IndexerState}
  {u : Unit}

/-- The calls of a round of `sync_blocks` in which nothing fails. -/
def syncBlockThrough (cfg : IndexerConfig) (env : BlockEnv) (height : Nat) : IndexerM Unit := do
  syncUntilFinalized cfg env height
  publishBlock cfg env height
  writePass (fun ps => .ok (ps.updateSyncedBtcBlockHeight height))
  io

theorem recoverWith_of_ok {α : Type} {x : IndexerM α} {handler : IndexerError → IndexerM α} {a : α}
    (h : x s = .ok a t) : recoverWith x handler s = .ok a t := by
  unfold recoverWith
  rw [h]

theorem withMutationCollection_of_ok {body : IndexerM Unit} {s₁ : IndexerState}
    (hcoll : beginBlockMutationCollection height s = .ok () s₁) (hbody : body s₁ = .ok u t) :
    withMutationCollection height body s = .ok u { t with currentBlockCollector := none } := by
  refine (bind_ok hcoll).trans ?_
  rw [hbody]

theorem withSavepoint_of_ok {body : IndexerM Unit} {s₁ : IndexerState}
    (hio : io s = .ok () s₁) (hbody : body s₁ = .ok u t) :
    withSavepoint body s = .ok u t := by
  refine (bind_ok hio).trans ?_
  rw [hbody]

theorem publishBlock_collector (h : publishBlock cfg env height s = .ok u t) :
    { t with currentBlockCollector := none } = t := by
  obtain ⟨collector, _, htake, h⟩ := bind_eq_ok h
  obtain ⟨-, -, rfl⟩ := takeBlockMutationCollector_ok htake
  obtain ⟨_, _, hpersist, h⟩ := bind_eq_ok h
  obtain ⟨_, _, _, -, -, rfl⟩ := persistPassBlockCommit_ok hpersist
  obtain ⟨staged, -, rfl⟩ := commitStagedBlock_ok h
  rfl

theorem syncBlockDurably_eq_ok :
    syncBlockDurably cfg env height s = .ok u t ↔ syncBlockThrough cfg env height s = .ok u t := by
  constructor
  · intro h
    obtain ⟨durable, _, hread, h⟩ := bind_eq_ok h
    have hread' := hread
    obtain ⟨rfl, fs₁, rfl⟩ := readPass_ok hread
    obtain ⟨fs₂, hsavepoint, h⟩ := withSavepoint_ok h
    obtain ⟨_, s₁, hsync, hrelease⟩ := bind_eq_ok h
    obtain ⟨_, _, hbegin, hguarded⟩ := bind_eq_ok hsync
    obtain ⟨hcoll, s₂, hbody, rfl⟩ := withMutationCollection_ok hguarded
    obtain ⟨result, _, hcollect, hrest⟩ := bind_eq_ok hbody
    obtain ⟨_, s₃, happly, hpublish⟩ := bind_eq_ok hrest
    have happly' := recoverWith_ok (fun _ _ _ _ => bind_throw_ne_ok) happly
    have hpublish' := recoverWith_ok (fun _ _ _ _ => bind_throw_ne_ok) hpublish
    obtain ⟨_, s₄, hsynced, hreleased⟩ := bind_eq_ok hrelease
    have hsynced' := recoverWith_ok (fun _ _ _ _ => bind_throw_ne_ok) hsynced
    have hreleased' := recoverWith_ok (fun _ _ _ _ => bind_throw_ne_ok) hreleased
    rw [publishBlock_collector hpublish'] at hsynced'
    have hfinal : syncUntilFinalized cfg env height s = .ok () s₃ := by
      unfold syncUntilFinalized
      rw [bind_ok hread', bind_ok hsavepoint, bind_ok hbegin, bind_ok hcoll, bind_ok hcollect]
      exact happly'
    unfold syncBlockThrough
    rw [bind_ok hfinal, bind_ok hpublish', bind_ok hsynced']
    exact hreleased'
  · intro h
    obtain ⟨_, s₁, hfinal, h⟩ := bind_eq_ok h
    obtain ⟨_, s₂, hpublish, h⟩ := bind_eq_ok h
    obtain ⟨_, s₃, hsynced, hreleased⟩ := bind_eq_ok h
    obtain ⟨durable, _, hread, h₁⟩ := bind_eq_ok hfinal
    obtain ⟨_, s₄, hsavepoint, h₂⟩ := bind_eq_ok h₁
    obtain ⟨_, s₅, hbegin, h₃⟩ := bind_eq_ok h₂
    obtain ⟨_, s₆, hcoll, h₄⟩ := bind_eq_ok h₃
    obtain ⟨⟨block, mints, items⟩, s₇, hcollect, happly⟩ := bind_eq_ok h₄
    have hsync : syncBlock cfg env height s₄ = .ok () s₂ := by
      unfold syncBlock
      rw [bind_ok hbegin, withMutationCollection_of_ok hcoll
        ((bind_ok hcollect).trans ((bind_ok (recoverWith_of_ok happly)).trans
          (recoverWith_of_ok hpublish))), publishBlock_collector hpublish]
    unfold syncBlockDurably
    rw [bind_ok hread]
    refine withSavepoint_of_ok hsavepoint ?_
    rw [bind_ok hsync]
    exact (bind_ok (recoverWith_of_ok hsynced)).trans (recoverWith_of_ok hreleased)

/-- Two indexers with the same databases, whose trackers agree except under the outpoints
of a set. -/
structure Replica (except : OutPoint → Prop) (s s' : IndexerState) : Prop where
  same : s' = s.setTracker (s'.inscriptions, [])
  noFaults : s.faults = []
  noStaged : s.stagedBlocks = []
  entries : Alike except s.inscriptions s'.inscriptions
  distinct : s.inscriptions.Distinct
  distinct' : s'.inscriptions.Distinct

/-- What two indexers are told about one block: the same, up to how their sources list its
inscriptions. -/
structure EnvAlike (height : Nat) (env env' : BlockEnv) : Prop where
  blockHint : env'.blockHint = env.blockHint
  btc : env'.btc = env.btc
  provider : env'.provider = env.provider
  upstreamCommit : env'.upstreamCommit = env.upstreamCommit
  listed : ListedAlike env.btc height env.inscriptions env'.inscriptions

/-- No transaction of the block spends an outpoint of the set. -/
def Avoids (except : OutPoint → Prop) (env : BlockEnv) : Prop :=
  ∀ block ∈ env.blockHint, ∀ tx ∈ block.txdata, ∀ vin ∈ tx.input, ¬except vin

theorem applyBlock_planned {block : Block} {mints : CollectedMintItems}
    {items : List InscriptionTransferItem} {events : List BlockProcessEvent}
    (h : BlockEventPlanner.plan height block mints.validItems items = .ok events) :
    applyBlock cfg env height block mints items = (do
      BlockEventExecutor.execute env.provider (events.map BlockProcessEvent.core)
      processInvalidMints mints.invalidItems
      let settlement ← BalanceMonitor.settleActiveBalanceWithDetails env.provider
        cfg.activeAddressPageSize height
      applyEnergyChanges settlement.activePassBalances
      finalizeBlockSync height) := by
  unfold applyBlock
  rw [h, BlockEventExecutor.execute_core]
  rfl

theorem processBlockWithHint_of_txs {block : Block} {seeds : List TransferTrackSeed}
    {working : MultiMap} {items : List InscriptionTransferItem} (hs : s.stagedBlocks = [])
    (h : processTxs env.btc height (seedInscriptions s.inscriptions seeds) [] block.txdata s =
      .ok (working, items) s) :
    processBlockWithHint env.btc height block seeds s =
      .ok items { s with stagedBlocks := [(height, working)] } := by
  have hget : (get : IndexerM IndexerState) s = .ok s s := rfl
  unfold processBlockWithHint
  refine (bind_ok hget).trans ?_
  rw [if_neg (not_not.mpr hs)]
  refine (bind_ok h).trans ?_
  cases s
  cases hs
  rfl

theorem seeds_alike {items items' : List InscriptionNewItem}
    (h : SameBy (·.inscriptionId) (items.map InscriptionNewItem.core)
      (items'.map InscriptionNewItem.core)) :
    SameBy (·.inscriptionId)
      ((buildTransferTrackSeeds items).map (fun seed : TransferTrackSeed =>
        ({ inscriptionId := seed.inscriptionId, owner := seed.owner
           satpoint := seed.satpoint } : ValidMinerPassInfo)))
      ((buildTransferTrackSeeds items').map (fun seed : TransferTrackSeed =>
        ({ inscriptionId := seed.inscriptionId, owner := seed.owner
           satpoint := seed.satpoint } : ValidMinerPassInfo))) := by
  have hmap : SameBy ValidMinerPassInfo.inscriptionId _ _ := h.map (f := fun item : InscriptionNewItem =>
    ({ inscriptionId := item.inscriptionId, owner := item.address
       satpoint := item.satpoint } : ValidMinerPassInfo)) (c := id) (fun _ => rfl)
  unfold buildTransferTrackSeeds
  rw [List.map_map, List.map_map] at hmap ⊢
  exact hmap

/-- What a block brings is found alike by both indexers, and leads to the same work. -/
theorem collectBlock_alike {except : OutPoint → Prop}
    {result : Block × CollectedMintItems × List InscriptionTransferItem}
    (h : Replica except s s') (henv : EnvAlike height env env') (hinputs : Avoids except env)
    (hrun : collectBlock env height s = .ok result t) {events : List BlockProcessEvent}
    (hplan : BlockEventPlanner.plan height result.1 result.2.1.validItems result.2.2 =
      .ok events) :
    ∃ result' working working', t = { s with stagedBlocks := [(height, working)] } ∧
      collectBlock env' height s' =
        .ok result' (t.setTracker (s'.inscriptions, [(height, working')])) ∧
      Alike except working working' ∧ working.Distinct ∧ working'.Distinct ∧
      result'.1 = result.1 ∧ result'.2.1.invalidItems = result.2.1.invalidItems ∧
      ∃ events', BlockEventPlanner.plan height result'.1 result'.2.1.validItems result'.2.2 =
        .ok events' ∧ events'.map BlockProcessEvent.core = events.map BlockProcessEvent.core := by
  obtain ⟨block, mints, items⟩ := result
  obtain ⟨m', hm', hs'⟩ : ∃ m', s'.inscriptions = m' ∧ s' = s.setTracker (m', []) :=
    ⟨_, rfl, h.same⟩
  have hentries := h.entries
  have hdistinct' := h.distinct'
  rw [hm'] at hentries hdistinct' ⊢
  subst hs'
  obtain ⟨_, _, hio, hrest⟩ := bind_eq_ok hrun
  rw [io_of_no_faults s h.noFaults] at hio
  cases hio
  cases hb : env.blockHint with
  | none =>
    rw [hb] at hrest
    cases hrest
  | some found =>
    rw [hb] at hrest
    obtain ⟨mints', _, hmints, hrest⟩ := bind_eq_ok hrest
    obtain ⟨hload, rfl⟩ := collectBlockInscriptionMints_collected hmints
    rw [collectBlockInscriptionMints_loadable h.noFaults hload] at hmints
    cases hmints
    obtain ⟨items', _, hitems, hret⟩ := bind_eq_ok hrest
    obtain ⟨working, fs, -, htxs, rfl⟩ := processBlockWithHint_ok hitems
    have hplain : ∀ working, Plain true (processTxs env.btc height working [] found.txdata) :=
      fun _ => processTxs_plain _ _ _ _ _
    have hfs : fs = [] := (hplain _).faults_nil h.noFaults htxs
    subst hfs
    cases hret
    obtain ⟨hload', hinvalid, hvalid⟩ := henv.listed.collected hload
    rw [← henv.btc] at hload'
    have hseeds : TrackedAlike except
        (seedInscriptions s.inscriptions (buildTransferTrackSeeds (collected env.btc height
          (classifyUsdbMintsFromInscriptions height env.inscriptions)).validItems), [])
        (seedInscriptions m' (buildTransferTrackSeeds (collected env'.btc height
          (classifyUsdbMintsFromInscriptions height env'.inscriptions)).validItems), []) := by
      rw [henv.btc]
      exact ⟨hentries.insertAll (seeds_alike hvalid), h.distinct.insertAll _,
        hdistinct'.insertAll _, .refl _ _⟩
    have hfaults : (s.setTracker (m', [])).faults = [] := h.noFaults
    have hstaged : ({ s with stagedBlocks := [(height, working)], faults := [] } : IndexerState) =
        { s with stagedBlocks := [(height, working)] } := by
      rw [← h.noFaults]
    obtain ⟨⟨working', items''⟩, htxs', halike⟩ :=
      processTxs_alike hseeds (fun tx htx => hinputs _ hb tx htx) htxs hfaults
    rw [← henv.btc] at htxs'
    obtain ⟨events', hplan', hcore⟩ := BlockEventPlanner.plan_alike hvalid halike.items hplan
    refine ⟨(block, collected env'.btc height
      (classifyUsdbMintsFromInscriptions height env'.inscriptions), items''), working, working',
      ?_, ?_, halike.entries, halike.distinct, halike.distinct', rfl, ?_, events', ?_, hcore⟩
    · exact hstaged
    · rw [hstaged]
      unfold collectBlock
      refine (bind_ok (io_of_no_faults _ hfaults)).trans ?_
      rw [henv.blockHint, hb]
      refine (bind_ok (collectBlockInscriptionMints_loadable hfaults hload')).trans ?_
      exact bind_ok (processBlockWithHint_of_txs rfl htxs')
    · rw [henv.btc]
      exact hinvalid
    · rw [henv.btc]
      exact hplan'

theorem beginBlockMutationCollection_plain {tracking : Bool} :
    Plain tracking (beginBlockMutationCollection height) := by
  refine .get_bind (fun _ _ => rfl) (fun _ _ _ => rfl) (fun s => ?_)
  cases s.currentBlockCollector with
  | some c => exact .throw _
  | none => exact .modify (fun _ _ => rfl) (fun _ _ _ => rfl)

theorem commitStagedBlock_of_staged {working : MultiMap}
    (h : s.stagedBlocks = [(height, working)]) :
    commitStagedBlock height s = .ok () { s with inscriptions := working, stagedBlocks := [] } := by
  have hremove : removeStaged height (.noStagedStateForCommit height) s =
      .ok working { s with stagedBlocks := [] } := by
    have hget : (get : IndexerM IndexerState) s = .ok s s := rfl
    unfold removeStaged
    refine (bind_ok hget).trans ?_
    rw [h, List.find?_cons_of_pos (by simp)]
    have hfilter : s.stagedBlocks.filter (fun b => b.1 ≠ height) = [] := by
      rw [h]
      simp
    rw [← hfilter]
    rfl
  unfold commitStagedBlock
  refine (bind_ok hremove).trans ?_
  rfl

/-- The program of a block up to its commit, given what the block brings. -/
def settleBlock (cfg : IndexerConfig) (env : BlockEnv) (height : Nat) (block : Block)
    (mints : CollectedMintItems) (items : List InscriptionTransferItem) : IndexerM Unit := do
  applyBlock cfg env height block mints items
  let collector ← takeBlockMutationCollector height
  persistPassBlockCommit cfg env height collector

theorem settleBlock_plain (cfg : IndexerConfig) (env : BlockEnv) (height : Nat) (block : Block)
    (mints : CollectedMintItems) (items : List InscriptionTransferItem) {tracking : Bool} :
    Plain tracking (settleBlock cfg env height block mints items) :=
  .bind (applyBlock_plain _ _ _ _ _ _) (fun _ => .bind (takeBlockMutationCollector_plain _)
    (fun _ => persistPassBlockCommit_plain _ _ _ _))

/-- A round of `sync_blocks` in its three parts: what does not concern the tracker, the
tracking, and the publication of what was tracked. -/
theorem syncBlockThrough_eq_ok (hs : s.faults = []) :
    syncBlockThrough cfg env height s = .ok u t ↔
      ∃ begun result tracked settled working,
        (do beginBlockSync height; beginBlockMutationCollection height : IndexerM Unit) s =
          .ok () begun ∧
        collectBlock env height begun = .ok result tracked ∧
        tracked.stagedBlocks = [(height, working)] ∧
        settleBlock cfg env height result.1 result.2.1 result.2.2 tracked = .ok () settled ∧
        (do writePass (fun ps => .ok (ps.updateSyncedBtcBlockHeight height)); io : IndexerM Unit)
          { settled with inscriptions := working, stagedBlocks := [] } = .ok u t := by
  have hread : readPass (·.syncedBtcBlockHeight) s = .ok s.passStorage.syncedBtcBlockHeight s := by
    unfold readPass
    refine (bind_ok (io_of_no_faults s hs)).trans ?_
    rfl
  constructor
  · intro h
    obtain ⟨_, s₁, hfinal, h⟩ := bind_eq_ok h
    obtain ⟨_, s₂, hpublish, htail⟩ := bind_eq_ok h
    unfold syncUntilFinalized at hfinal
    rw [bind_ok hread, bind_ok (io_of_no_faults s hs)] at hfinal
    obtain ⟨_, s₅, hbegin, h₃⟩ := bind_eq_ok hfinal
    obtain ⟨_, s₆, hcoll, h₄⟩ := bind_eq_ok h₃
    obtain ⟨result, s₇, hcollect, happly⟩ := bind_eq_ok h₄
    obtain ⟨collector, s₈, htake, h₅⟩ := bind_eq_ok hpublish
    obtain ⟨_, s₉, hpersist, hcommit⟩ := bind_eq_ok h₅
    obtain ⟨-, -, _, _, _, _, working, fs, -, -, hstaged⟩ := collectBlock_ok hcollect
    have hsettle : settleBlock cfg env height result.1 result.2.1 result.2.2 s₇ = .ok () s₉ := by
      unfold settleBlock
      rw [bind_ok happly, bind_ok htake]
      exact hpersist
    have htracked : s₇.stagedBlocks = [(height, working)] := by
      rw [hstaged]
    have hkept : s₉.stagedBlocks = [(height, working)] := by
      have htracker := (settleBlock_plain cfg env height result.1 result.2.1 result.2.2).preserves.ok
        hsettle
      rw [← htracked]
      exact congrArg Prod.snd htracker
    rw [commitStagedBlock_of_staged hkept] at hcommit
    cases hcommit
    exact ⟨s₆, result, s₇, s₉, working, (bind_ok hbegin).trans hcoll, hcollect, htracked, hsettle,
      htail⟩
  · rintro ⟨s₆, result, s₇, s₉, working, hbegun, hcollect, htracked, hsettle, htail⟩
    obtain ⟨_, s₅, hbegin, hcoll⟩ := bind_eq_ok hbegun
    have htracker := (settleBlock_plain cfg env height result.1 result.2.1 result.2.2).preserves.ok
      hsettle
    have hkept : s₉.stagedBlocks = [(height, working)] := by
      rw [← htracked]
      exact congrArg Prod.snd htracker
    obtain ⟨_, s₁, happly, h₅⟩ := bind_eq_ok hsettle
    obtain ⟨collector, s₈, htake, hpersist⟩ := bind_eq_ok h₅
    have hfinal : syncUntilFinalized cfg env height s = .ok () s₁ := by
      unfold syncUntilFinalized
      rw [bind_ok hread, bind_ok (io_of_no_faults s hs), bind_ok hbegin, bind_ok hcoll,
        bind_ok hcollect]
      exact happly
    have hpublish : publishBlock cfg env height s₁ =
        .ok () { s₉ with inscriptions := working, stagedBlocks := [] } := by
      unfold publishBlock
      rw [bind_ok htake, bind_ok hpersist]
      exact commitStagedBlock_of_staged hkept
    unfold syncBlockThrough
    rw [bind_ok hfinal, bind_ok hpublish]
    exact htail

theorem settleBlock_alike {block : Block} {mints mints' : CollectedMintItems}
    {items items' : List InscriptionTransferItem} {events events' : List BlockProcessEvent}
    (henv : EnvAlike height env env')
    (hplan : BlockEventPlanner.plan height block mints.validItems items = .ok events)
    (hplan' : BlockEventPlanner.plan height block mints'.validItems items' = .ok events')
    (hcore : events'.map BlockProcessEvent.core = events.map BlockProcessEvent.core)
    (hinvalid : mints'.invalidItems = mints.invalidItems) :
    settleBlock cfg env' height block mints' items' =
      settleBlock cfg env height block mints items := by
  have hpersist : ∀ collector, persistPassBlockCommit cfg env' height collector =
      persistPassBlockCommit cfg env height collector := by
    intro collector
    unfold persistPassBlockCommit
    rw [henv.upstreamCommit]
  unfold settleBlock
  rw [applyBlock_planned hplan, applyBlock_planned hplan', hcore, hinvalid, henv.provider,
    funext hpersist]

theorem planBlock_of_collected {begun tracked : IndexerState}
    {result : Block × CollectedMintItems × List InscriptionTransferItem}
    {events : List BlockProcessEvent}
    (hbegun : (do beginBlockSync height; beginBlockMutationCollection height : IndexerM Unit) s =
      .ok () begun)
    (hcollect : collectBlock env height begun = .ok result tracked)
    (hplan : BlockEventPlanner.plan height result.1 result.2.1.validItems result.2.2 =
      .ok events) : planBlock env height s = .ok events tracked := by
  obtain ⟨_, _, hbegin, hcoll⟩ := bind_eq_ok hbegun
  unfold planBlock
  rw [bind_ok hbegin, bind_ok hcoll]
  refine (bind_ok hcollect).trans ?_
  show liftExcept (BlockEventPlanner.plan height result.1 result.2.1.validItems result.2.2) tracked
    = _
  rw [hplan]
  rfl

/-- Two indexers that agree where a block looks make the same of it, and agree again. -/
theorem syncBlockThrough_replica {except : OutPoint → Prop} (h : Replica except s s')
    (henv : EnvAlike height env env') (hinputs : Avoids except env)
    (hrun : syncBlockThrough cfg env height s = .ok u t) :
    ∃ t', syncBlockThrough cfg env' height s' = .ok u t' ∧ Replica except t t' ∧
      ∃ events events' r r', planBlock env height s = .ok events r ∧
        planBlock env' height s' = .ok events' r' ∧
        events'.map BlockProcessEvent.core = events.map BlockProcessEvent.core := by
  have hfaults : s'.faults = [] := by
    rw [h.same]
    exact h.noFaults
  obtain ⟨begun, result, tracked, settled, working, hbegun, hcollect, htracked, hsettle, htail⟩ :=
    (syncBlockThrough_eq_ok h.noFaults).mp hrun
  have hplain : Plain false (do beginBlockSync height; beginBlockMutationCollection height) :=
    .bind (beginBlockSync_plain height) (fun _ => beginBlockMutationCollection_plain)
  have hbegun' := hplain.beside hbegun (s'.inscriptions, [])
  rw [← h.same] at hbegun'
  have htracker := hplain.preserves.ok hbegun
  have hreplica : Replica except begun (begun.setTracker (s'.inscriptions, [])) :=
    { same := rfl
      noFaults := hplain.faults_nil h.noFaults hbegun
      noStaged := (congrArg Prod.snd htracker).trans h.noStaged
      entries := by
        have hkept : begun.inscriptions = s.inscriptions := congrArg Prod.fst htracker
        rw [hkept]
        exact h.entries
      distinct := by
        have hkept : begun.inscriptions = s.inscriptions := congrArg Prod.fst htracker
        rw [hkept]
        exact h.distinct
      distinct' := h.distinct' }
  obtain ⟨events, hplan⟩ : ∃ events, BlockEventPlanner.plan height result.1 result.2.1.validItems
      result.2.2 = .ok events := by
    obtain ⟨_, _, happly, -⟩ := bind_eq_ok hsettle
    obtain ⟨events, _, hlift, -⟩ := bind_eq_ok happly
    exact ⟨events, (liftExcept_ok hlift).1⟩
  obtain ⟨result', working₁, working', hstaged, hcollect', halike, hdistinct, hdistinct', hblock,
    hinvalid, events', hplan', hcore⟩ := collectBlock_alike hreplica henv hinputs hcollect hplan
  obtain rfl : working₁ = working := by
    rw [hstaged] at htracked
    simpa using htracked
  have hsettle' : settleBlock cfg env' height result'.1 result'.2.1 result'.2.2
      (tracked.setTracker (s'.inscriptions, [(height, working')])) =
      .ok () (settled.setTracker (s'.inscriptions, [(height, working')])) := by
    rw [hblock] at hplan' ⊢
    rw [settleBlock_alike henv hplan hplan' hcore hinvalid]
    exact (settleBlock_plain _ _ _ _ _ _).beside hsettle _
  have htailPlain : Plain false
      (do writePass (fun ps => .ok (ps.updateSyncedBtcBlockHeight height)); io) :=
    .bind (writePass_plain _) (fun _ => .io)
  have htail' := htailPlain.beside htail (working', [])
  have hsettledFaults : ({ settled with inscriptions := working₁, stagedBlocks := [] } :
      IndexerState).faults = [] := by
    have hcollectPlain := collectBlock_plain env height
    have hsettlePlain : Plain true _ :=
      settleBlock_plain cfg env height result.1 result.2.1 result.2.2
    have hsettled := hsettlePlain.faults_nil
      (hcollectPlain.faults_nil hreplica.noFaults hcollect) hsettle
    exact hsettled
  refine ⟨t.setTracker (working', []), ?_, ?_, ?_⟩
  · rw [syncBlockThrough_eq_ok hfaults]
    exact ⟨_, result', _, _, working', hbegun', hcollect', rfl, hsettle', htail'⟩
  · have hpublished := htailPlain.preserves.ok htail
    have hinscriptions : t.inscriptions = working₁ := congrArg Prod.fst hpublished
    exact {
      same := rfl
      noFaults := htailPlain.faults_nil hsettledFaults htail
      noStaged := congrArg Prod.snd hpublished
      entries := by rw [hinscriptions]; exact halike
      distinct := by rw [hinscriptions]; exact hdistinct
      distinct' := hdistinct' }
  · exact ⟨events, events', _, _, planBlock_of_collected hbegun hcollect hplan,
      planBlock_of_collected hbegun' hcollect' hplan', hcore⟩

end InscriptionIndexer

end Usdb
