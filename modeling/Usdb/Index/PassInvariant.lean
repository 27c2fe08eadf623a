import Usdb.Framework.Traverse
import Usdb.Index.StorageSteps

namespace Usdb

open Framework MinerPassStorage PassEnergyManager

namespace BlockEventPlanner

theorem mintEvent_ok {height : Nat} {block : Block} {item : InscriptionNewItem}
    {ordered : OrderedBlockProcessEvent} (h : mintEvent height block item = .ok ordered) :
    ordered.event = .Mint item := by
  unfold mintEvent at h
  split at h
  · cases h
  · cases h
    rfl

theorem transferEvent_ok {height : Nat} {block : Block} {item : InscriptionTransferItem}
    {ordered : OrderedBlockProcessEvent} (h : transferEvent height block item = .ok ordered) :
    ordered.event = .Transfer item := by
  unfold transferEvent at h
  split at h
  · cases h
  · split at h
    · cases h
    · cases h
      rfl

/-- The planned events are the mints and the moves of the block. -/
theorem plan_mem {height : Nat} {block : Block} {mints : List InscriptionNewItem}
    {items : List InscriptionTransferItem} {events : List BlockProcessEvent}
    (h : plan height block mints items = .ok events) {event : BlockProcessEvent}
    (he : event ∈ events) :
    (∃ item ∈ mints, event = .Mint item) ∨ ∃ item ∈ items, event = .Transfer item := by
  unfold plan at h
  cases hm : mints.mapM (mintEvent height block) with
  | error e =>
    rw [hm] at h
    cases h
  | ok ms =>
    cases ht : items.mapM (transferEvent height block) with
    | error e =>
      rw [hm, ht] at h
      cases h
    | ok ts =>
      rw [hm, ht] at h
      cases h
      obtain ⟨ordered, ho, rfl⟩ := List.mem_map.mp he
      rw [List.mem_insertionSort, List.mem_append] at ho
      rcases ho with ho | ho
      · obtain ⟨item, hi, hf⟩ := mem_of_mapM_ok hm ho
        exact .inl ⟨item, hi, mintEvent_ok hf⟩
      · obtain ⟨item, hi, hf⟩ := mem_of_mapM_ok ht ho
        exact .inr ⟨item, hi, transferEvent_ok hf⟩

end BlockEventPlanner

namespace InscriptionIndexer

variable {cfg : IndexerConfig} {env : BlockEnv} {height : Nat} {s t : IndexerState} {u : Unit}

theorem applyEnergyChanges_frame {rows : List ActivePassBalance}
    (h : applyEnergyChanges rows s = .ok u t) :
    ∃ e fs, t = { s with energyStorage := e, faults := fs } := by
  induction rows generalizing s with
  | nil =>
    cases h
    exact ⟨t.energyStorage, t.faults, rfl⟩
  | cons row rest ih =>
    unfold applyEnergyChanges at h
    split at h
    · rename_i hdelta
      obtain ⟨_, _, hdisc, h⟩ := bind_eq_ok h
      obtain ⟨changed, _, hchange, hpure⟩ := bind_eq_ok hdisc
      cases hpure
      obtain ⟨last, fs, -, -, -, ⟨-, -, -, rfl⟩ | ⟨-, rfl⟩⟩ := applyActiveBalanceChange_ok hdelta hchange
      · obtain ⟨e, fs', rfl⟩ := ih h
        exact ⟨e, fs', rfl⟩
      · obtain ⟨e, fs', rfl⟩ := ih h
        exact ⟨e, fs', rfl⟩
    · exact ih h

namespace AppliedBlock

theorem event_height (run : AppliedBlock cfg env height s) :
    ∀ event ∈ run.events, event.height = height := by
  intro event he
  rcases BlockEventPlanner.plan_mem run.planned he with ⟨item, hi, rfl⟩ | ⟨item, hi, rfl⟩
  · exact (collectBlockInscriptionMints_heights run.collected).1 item hi
  · exact InscriptionTransferTracker.processTxs_heights (fun _ h => absurd h List.not_mem_nil)
      run.tracked item hi

/-- The events run the same way when no call reports a fault. -/
theorem execution_unfaulted (run : AppliedBlock cfg env height s) :
    BlockEventExecutor.execute env.provider run.events (begun s height run.working []) =
      .ok () (run.executed.withFaults []) := by
  have hplain : Plain true (BlockEventExecutor.execute env.provider run.events) :=
    BlockEventExecutor.execute_plain _ _
  exact hplain.unfaulted _ _ _ run.execution

/-- The operations a block does on passes. -/
theorem minted_reach (run : AppliedBlock cfg env height s) {burnable : MinerPassState → Prop}
    (hb : BlockEventExecutor.EventsSatisfy (BlockEventExecutor.BurnsOnly burnable) env.provider
      run.events (begun s height run.working [])) :
    PassReach burnable height s.passStorage run.minted.passStorage := by
  have hexec := BlockEventExecutor.execute_reach run.event_height hb run.execution_unfaulted
  have hexec' : PassReach burnable height s.passStorage run.executed.passStorage := hexec
  exact hexec'.trans (processInvalidMints_reach
    (collectBlockInscriptionMints_heights run.collected).2 run.invalidated)

end AppliedBlock

namespace BlockRun

theorem passStorage_final (run : BlockRun cfg env height s t) :
    t.passStorage = ((run.minted.passStorage.upsertActiveBalanceSnapshot
      run.settlement.snapshot).upsertPassBlockCommit run.entry).updateSyncedBtcBlockHeight
        height := by
  obtain ⟨_, _, _, _, fs, -, -, -, -, hsettled⟩ :=
    BalanceMonitor.settleActiveBalanceWithDetails_ok run.settling
  obtain ⟨e, fs', happlied⟩ := applyEnergyChanges_frame run.applying
  have hset := congrArg IndexerState.passStorage hsettled
  have happ := (congrArg IndexerState.passStorage happlied).trans hset
  have hfinal := congrArg IndexerState.passStorage run.final
  dsimp only at hfinal happ
  rw [happ] at hfinal
  exact hfinal

/-- The height after a durable block is its own. -/
theorem currentHeight_eq {ps : MinerPassStorage}
    (run : BlockRun cfg env (currentHeight cfg ps + 1) s t) :
    currentHeight cfg t.passStorage = currentHeight cfg ps + 1 := by
  have hgenesis : cfg.genesisBlockHeight - 1 ≤ currentHeight cfg ps := Nat.le_max_right _ _
  rw [run.passStorage_final]
  exact Nat.max_eq_left (Nat.le_succ_of_le hgenesis)

/-- Everything a durable block does to the pass database. -/
theorem passStorage_eq (run : BlockRun cfg env height s t) {burnable : MinerPassState → Prop}
    (hb : BlockEventExecutor.EventsSatisfy (BlockEventExecutor.BurnsOnly burnable) env.provider
      run.events (begun s height run.working [])) :
    ∃ ps, PassReach burnable height s.passStorage ps ∧
      t.passStorage = ((ps.upsertActiveBalanceSnapshot
        run.settlement.snapshot).upsertPassBlockCommit run.entry).updateSyncedBtcBlockHeight
          height :=
  ⟨run.minted.passStorage, run.minted_reach hb, run.passStorage_final⟩

theorem snapshot_height (run : BlockRun cfg env height s t) :
    run.settlement.snapshot.blockHeight = height := by
  obtain ⟨_, _, _, _, _, -, -, -, hheight, -⟩ :=
    BalanceMonitor.settleActiveBalanceWithDetails_ok run.settling
  exact hheight

theorem entry_height (run : BlockRun cfg env height s t) : run.entry.blockHeight = height := by
  rw [PassBlockMutationCollector.buildCommitEntry_blockHeight _ _ _ _ _ run.commit]
  exact run.collectorHeight

theorem getPassBlockCommit_final (run : BlockRun cfg env height s t) :
    t.passStorage.getPassBlockCommit height = some run.entry := by
  have hfinal := run.passStorage_final
  unfold getPassBlockCommit
  rw [hfinal]
  show lookup (·.blockHeight) height (upsert (·.blockHeight) run.entry _) = _
  rw [lookup_upsert, if_pos run.entry_height.symm]

end BlockRun

end InscriptionIndexer

namespace World

open InscriptionIndexer

variable {cfg : IndexerConfig} {w w' : World} {l : Label}

/-- The world after a block became durable. -/
def committing (w : World) (height : Nat) (block : Option Block) (balances : BalanceHistory)
    (t : IndexerState) : World where
  indexer := t.withFaults []
  phase := .syncing
  chain := fun h => if h = height then block else w.chain h
  committed := fun h => if h = height then some (t.withFaults []) else w.committed h
  balances := balances

theorem settle_passStorage (w : World) (result : EStateM.Result IndexerError IndexerState Unit)
    (next failed : Phase) :
    (w.settle result next failed).indexer.passStorage = (finalState result).passStorage := by
  unfold settle
  split <;> rfl

theorem settle_frame (w : World) (result : EStateM.Result IndexerError IndexerState Unit)
    (next failed : Phase) :
    (w.settle result next failed).chain = w.chain ∧
      (w.settle result next failed).committed = w.committed ∧
      (w.settle result next failed).balances = w.balances := by
  unfold settle
  split <;> exact ⟨rfl, rfl, rfl⟩

/-- A step commits a block, or changes the pass database quietly and leaves the
record of the run alone. -/
theorem Step.quiet_or_block (h : Step cfg w l w') :
    (QuietReach cfg w.indexer.passStorage w'.indexer.passStorage ∧ w'.chain = w.chain ∧
        w'.committed = w.committed ∧ w'.balances = w.balances) ∨
      ∃ env balances faults t, l = .block env balances faults ∧ w.phase = .syncing ∧
        Nonempty (BlockRun cfg env (w.height cfg + 1) (w.indexer.withFaults faults) t) ∧
        w' = w.committing (w.height cfg + 1) env.blockHint balances t := by
  obtain ⟨enabled, rfl⟩ := h
  cases l with
  | prepare rollbackTarget faults =>
    refine .inl ⟨?_, settle_frame _ _ _ _⟩
    unfold next
    rw [settle_passStorage]
    refine prepareSync_quiet (s := w.indexer.withFaults faults) (fun target ht => ?_)
    subst ht
    exact enabled.2.2
  | block env balances faults =>
    cases hb : syncBlockDurably cfg env (w.height cfg + 1) (w.indexer.withFaults faults) with
    | ok u t =>
      refine .inr ⟨env, balances, faults, t, rfl, enabled, syncBlockDurably_ok hb, ?_⟩
      simp only [next, hb]
      rfl
    | error e t =>
      simp only [next, hb]
      refine .inl ⟨?_, settle_frame _ _ _ _⟩
      have hpass := syncBlockDurably_error_pass hb
      show QuietReach cfg w.indexer.passStorage (w.settle _ _ _).indexer.passStorage
      rw [settle_passStorage]
      show QuietReach cfg w.indexer.passStorage t.passStorage
      rw [hpass]
      exact .refl
  | finish snapshot stateRefAtHeight faults =>
    refine .inl ⟨?_, settle_frame _ _ _ _⟩
    unfold next
    rw [settle_passStorage]
    exact finishSync_quiet (s := w.indexer.withFaults faults) enabled.2
  | restart faults =>
    refine .inl ⟨?_, settle_frame _ _ _ _⟩
    unfold next
    rw [settle_passStorage, InscriptionTransferTracker.reloadFromStorage_passStorage
      (w.indexer.afterRestart.withFaults faults)]
    exact .refl

/-- The events of a plan, if there is one, meet a condition when their turn comes. -/
def PlanSatisfies (cond : BlockProcessEvent → IndexerState → Prop) (provider : BalanceProvider) :
    EStateM.Result IndexerError IndexerState (List BlockProcessEvent) → Prop
  | .ok events started => BlockEventExecutor.EventsSatisfy cond provider events started
  | .error _ _ => True

instance (cond : BlockProcessEvent → IndexerState → Prop) [∀ event s, Decidable (cond event s)]
    (provider : BalanceProvider)
    (plan : EStateM.Result IndexerError IndexerState (List BlockProcessEvent)) :
    Decidable (PlanSatisfies cond provider plan) :=
  match plan with
  | .ok events started => BlockEventExecutor.decidableEventsSatisfy cond provider events started
  | .error _ _ => .isTrue trivial

/-- The events planned for a next block meet a condition. -/
def PlansOnly (cond : BlockProcessEvent → IndexerState → Prop) (cfg : IndexerConfig) (w : World) :
    Label → Prop
  | .block env _ _ => PlanSatisfies cond env.provider
      (planBlock env (w.height cfg + 1) (w.indexer.withFaults []))
  | _ => True

instance (cond : BlockProcessEvent → IndexerState → Prop) [∀ event s, Decidable (cond event s)]
    (cfg : IndexerConfig) (w : World) (l : Label) : Decidable (PlansOnly cond cfg w l) :=
  match l with
  | .block _ _ _ => inferInstanceAs (Decidable (PlanSatisfies _ _ _))
  | .prepare _ _ => .isTrue trivial
  | .finish _ _ _ => .isTrue trivial
  | .restart _ => .isTrue trivial

theorem PlansOnly.planned {cond : BlockProcessEvent → IndexerState → Prop} {env : BlockEnv}
    {balances : BalanceHistory} {faults fs : List IoResult} {t : IndexerState}
    (h : PlansOnly cond cfg w (.block env balances faults))
    (run : BlockRun cfg env (w.height cfg + 1) (w.indexer.withFaults fs) t) :
    BlockEventExecutor.EventsSatisfy cond env.provider run.events
      (begun (w.indexer.withFaults fs) (w.height cfg + 1) run.working []) := by
  have hplanning : planBlock env (w.height cfg + 1) (w.indexer.withFaults []) = .ok run.events _ :=
    run.planning
  have hplan : PlanSatisfies cond env.provider
      (planBlock env (w.height cfg + 1) (w.indexer.withFaults [])) := h
  rw [hplanning] at hplan
  exact hplan

end World

/-- What a run keeps of the pass tables, at the height it has synced to. -/
structure PassInv (burnable : MinerPassState → Prop) (cfg : IndexerConfig)
    (ps : MinerPassStorage) : Prop where
  table : TableInv ps (InscriptionIndexer.currentHeight cfg ps)
  unique : ViewsUnique ps
  history : HistoryProgress burnable ps
  views : ViewsProgress burnable ps

namespace PassInv

open InscriptionIndexer

variable {burnable : MinerPassState → Prop} {cfg : IndexerConfig} {ps ps' : MinerPassStorage}

theorem congr (ps : MinerPassStorage) {height : Nat} (hrows : ps'.minerPasses = ps.minerPasses)
    (hhist : ps'.passStateHistory = ps.passStateHistory)
    (hnext : ps'.nextHistoryId = ps.nextHistoryId) (hh : currentHeight cfg ps' = height)
    (ht : TableInv ps height) (hu : ViewsUnique ps) (hp : HistoryProgress burnable ps)
    (hv : ViewsProgress burnable ps) : PassInv burnable cfg ps' := by
  have hl : ∀ h i, ps'.latestHistoryAt h i = ps.latestHistoryAt h i := by
    intro h i
    simp only [latestHistoryAt, hhist]
  have hg : ∀ i, ps'.getPassByInscriptionId i = ps.getPassByInscriptionId i := by
    intro i
    simp only [getPassByInscriptionId, hrows]
  constructor
  · rw [hh]
    refine ⟨hrows ▸ ht.constraints, ?_, ?_, ?_, ?_, ?_⟩
    · rw [hhist, hnext]
      exact ht.idBound
    · rw [hhist]
      exact ht.heightBound
    · simpa only [hl, hg] using ht.known
    · simpa only [hl, hg] using ht.current
    · simpa only [hl, hg] using ht.mintedAt
  · simpa only [ViewsUnique, hl] using hu
  · exact ⟨hhist ▸ hp.sorted, hhist ▸ hp.rows⟩
  · constructor
    · simpa only [hl] using hv.states
    · simpa only [hl, hg] using hv.owner

theorem empty : PassInv burnable cfg .empty :=
  ⟨TableInv.empty.mono (Nat.zero_le _), .empty, .empty _, .empty _⟩

theorem quietStep (h : PassInv burnable cfg ps) (hs : QuietStep cfg ps ps') :
    PassInv burnable cfg ps' := by
  cases hs with
  | cleared => exact congr ps rfl rfl rfl rfl h.table h.unique h.history h.views
  | rolledBack target lower upper constraints =>
    have hh : currentHeight cfg (ps.rolledBack target true) = target :=
      Nat.max_eq_left lower
    refine ⟨?_, h.unique.rolledBack, h.history.rolledBack, h.views.rolledBack h.table⟩
    rw [hh]
    exact h.table.rolledBack constraints
  | adopted anchor genesis =>
    refine congr ps rfl rfl rfl ?_ h.table h.unique h.history h.views
    exact Nat.max_eq_left (Nat.le_trans (Nat.sub_le _ _) genesis)
  | backfilled anchor => exact congr ps rfl rfl rfl rfl h.table h.unique h.history h.views

theorem quiet (h : PassInv burnable cfg ps) (hs : QuietReach cfg ps ps') :
    PassInv burnable cfg ps' := by
  induction hs with
  | refl => exact h
  | tail _ hstep ih => exact ih.quietStep hstep

theorem block {env : BlockEnv} {faults : List IoResult} {s t : IndexerState}
    (h : PassInv burnable cfg s.passStorage)
    (run : BlockRun cfg env (currentHeight cfg s.passStorage + 1) (s.withFaults faults) t)
    (hb : BlockEventExecutor.EventsSatisfy (BlockEventExecutor.BurnsOnly burnable) env.provider
      run.events (begun (s.withFaults faults) (currentHeight cfg s.passStorage + 1) run.working
        [])) :
    PassInv burnable cfg t.passStorage := by
  obtain ⟨ps, hreach, ht⟩ := run.passStorage_eq hb
  have htable := h.table.mono (Nat.le_succ _)
  rw [ht]
  refine congr ps rfl rfl rfl ?_ (htable.reach hreach) (h.unique.reach htable hreach)
    (h.history.reach htable hreach) (h.views.reach htable hreach)
  have hle : cfg.genesisBlockHeight - 1 ≤ currentHeight cfg s.passStorage := Nat.le_max_right _ _
  exact Nat.max_eq_left (Nat.le_succ_of_le hle)

end PassInv

namespace World

open InscriptionIndexer

variable {cfg : IndexerConfig} {cond : World → Label → Prop} {w w' : World}

theorem Step.passInv {l : Label} (hi : PassInv (fun _ => True) cfg w.indexer.passStorage)
    (hs : Step cfg w l w') : PassInv (fun _ => True) cfg w'.indexer.passStorage := by
  rcases hs.quiet_or_block with ⟨hq, -⟩ | ⟨env, balances, faults, t, -, -, ⟨run⟩, rfl⟩
  · exact hi.quiet hq
  · have hblock := PassInv.block hi run
      (BlockEventExecutor.eventsSatisfy_of_forall BlockEventExecutor.burnsOnly_true _ _)
    exact hblock

theorem Reachable.passInv (h : Reachable cfg cond w) :
    PassInv (fun _ => True) cfg w.indexer.passStorage :=
  h.induct (P := fun w => PassInv (fun _ => True) cfg w.indexer.passStorage) PassInv.empty
    (fun _ _ _ hi _ hs => hs.passInv hi)

end World

namespace MinerPassStorage

/-- At most one Active pass per owner, in the table and in the view at every height. -/
def OneActivePerOwner (ps : MinerPassStorage) : Prop :=
  (∀ i j p q, ps.getPassByInscriptionId i = some p → ps.getPassByInscriptionId j = some q →
      p.state = .Active → q.state = .Active → p.owner = q.owner → i = j) ∧
    ∀ h i j r r', ps.latestHistoryAt h i = some r → ps.latestHistoryAt h j = some r' →
      r.newState = .Active → r'.newState = .Active → r.newOwner = r'.newOwner → i = j

theorem OneActivePerOwner.of_inv {ps : MinerPassStorage} {height : Nat} (ht : TableInv ps height)
    (hu : ViewsUnique ps) : OneActivePerOwner ps :=
  ⟨fun _ _ _ _ hp hq hpa hqa ho => ht.constraints.activeUnique hp hq hpa hqa ho, hu⟩

end MinerPassStorage

/-- In every world a run reaches no owner has two Active passes, now or in the view
at any height, and the events of a next block, in any number and order, keep it so. -/
theorem World.Reachable.oneActivePerOwner (cfg : IndexerConfig) (w : World)
    (h : World.Reachable cfg (fun _ _ => True) w) :
    OneActivePerOwner w.indexer.passStorage ∧
      ∀ provider events invalidItems faults s t,
        (∀ event ∈ events, event.height = w.height cfg + 1) →
        (∀ item ∈ invalidItems, item.mintBlockHeight = w.height cfg + 1) →
        BlockEventExecutor.execute provider events (w.indexer.withFaults faults) = .ok () s →
        InscriptionIndexer.processInvalidMints invalidItems s = .ok () t →
        OneActivePerOwner s.passStorage ∧ OneActivePerOwner t.passStorage := by
  have hi := h.passInv
  refine ⟨.of_inv hi.table hi.unique, ?_⟩
  intro provider events invalidItems faults s t hev hit hexec hinv
  have htable := hi.table.mono (Nat.le_succ _)
  have hburns : BlockEventExecutor.EventsSatisfy (BlockEventExecutor.BurnsOnly (fun _ => True))
      provider events (w.indexer.withFaults faults) :=
    BlockEventExecutor.eventsSatisfy_of_forall BlockEventExecutor.burnsOnly_true _ _
  have hreach := BlockEventExecutor.execute_reach hev hburns hexec
  have hreach' : PassReach (fun _ => True) (w.height cfg + 1) s.passStorage t.passStorage :=
    InscriptionIndexer.processInvalidMints_reach hit hinv
  have hs := htable.reach hreach
  have hus := hi.unique.reach htable hreach
  exact ⟨.of_inv hs hus, .of_inv (hs.reach hreach') (hus.reach hs hreach')⟩

namespace Sample

def config : IndexerConfig where
  genesisBlockHeight := 1
  genesisBlockHeight_pos := by decide
  activeAddressPageSize := 1
  activeAddressPageSize_pos := by decide
  hash := { sha256 := fun _ => [], toVec := fun _ => [] }

/-- A transaction that moves 1000 sats from one outpoint to one receiver. -/
def payment (txid : Txid) (input : OutPoint) (receiver : USDBScriptHash) : Transaction where
  txid := txid
  input := [input]
  output := [{ value := 1000, scriptHash := receiver }]
  envelopes := [{ input := 0 }]

/-- A valid mint revealed by a transaction. -/
def mint (txid : Txid) (prev : List InscriptionId) : DiscoveredInscription where
  inscriptionId := { txid, index := 0 }
  inscriptionNumber := 0
  timestamp := 0
  satpoint := none
  content := some (.Valid { ethMain := "", ethCollab := none, prev })

/-- A block with its transactions and mints, served by a node that knows them. -/
def env (balances : BalanceHistory) (height : Nat) (txs : List Transaction)
    (inscriptions : List DiscoveredInscription) : BlockEnv where
  blockHint := some { txdata := txs }
  inscriptions := inscriptions
  btc := { getTransaction := fun txid => txs.find? (fun tx => tx.txid = txid)
           getUtxo := fun _ => some 1000 }
  provider := balances.provider
  upstreamCommit := some { blockHeight := height, blockCommit := "" }

/-- Owner 7 mints in block 1, sends the pass to owner 8 in block 2 and mints again. -/
def mintAndMove : List Label :=
  [.prepare none [],
   .block (env .empty 1 [payment 1 ⟨0, 0⟩ 7] [mint 1 []]) .empty [],
   .block (env .empty 2 [payment 2 ⟨1, 0⟩ 8, payment 3 ⟨0, 1⟩ 7] [mint 3 []]) .empty []]

end Sample

/-- Owner 7 has put its first pass out of its hands before it mints the second. -/
theorem World.Reachable.oneActivePerOwner_mintAndMove :
    ∃ w, World.Reachable Sample.config (fun _ _ => True) w ∧
      w.indexer.passStorage.minerPasses.map (fun p => (p.state, p.owner)) =
        [(.Dormant, 8), (.Active, 7)] ∧
      OneActivePerOwner w.indexer.passStorage := by
  have hrun : World.Reachable Sample.config (fun _ _ => True)
      (Sample.mintAndMove.foldl (World.next Sample.config) World.initial) :=
    World.Run.of_follows (.refl _)
      ⟨by decide +kernel, trivial, by decide +kernel, trivial, by decide +kernel, trivial, trivial⟩
  exact ⟨_, hrun, by decide +kernel, (World.Reachable.oneActivePerOwner _ _ hrun).1⟩

end Usdb
