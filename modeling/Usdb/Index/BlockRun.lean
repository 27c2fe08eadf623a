import Usdb.Index.Plain

namespace Usdb

open Framework

namespace TxItem

theorem sumInputValues_readOnly (btc : BtcClient) (pos : Nat) (inputs : List OutPoint) :
    ReadOnly (sumInputValues btc pos inputs) := by
  induction inputs generalizing pos with
  | nil => exact Preserves.pure _
  | cons outpoint rest ih =>
    refine Preserves.bind ReadOnly.io (fun _ => ?_)
    cases btc.getUtxo outpoint with
    | none => exact Preserves.throw _
    | some amount => exact ih _

theorem calcOutputSatpoint_readOnly (btc : BtcClient) (tx : Transaction) (satpoint : SatPoint) :
    ReadOnly (calcOutputSatpoint btc tx satpoint) := by
  unfold calcOutputSatpoint
  cases tx.input.findIdx? (fun v => v = satpoint.outpoint) with
  | none => exact Preserves.pure _
  | some i => exact Preserves.bind (sumInputValues_readOnly btc 0 _) (fun _ => Preserves.pure _)

end TxItem

namespace InscriptionTransferTracker

theorem calcCreateSatpoint_readOnly (btc : BtcClient) (id : InscriptionId) :
    ReadOnly (calcCreateSatpoint btc id) := by
  refine Preserves.bind ReadOnly.io (fun _ => ?_)
  cases btc.getTransaction id.txid with
  | none => exact Preserves.throw _
  | some tx =>
    dsimp only
    cases tx.envelopes[id.index]? with
    | none => exact Preserves.throw _
    | some envelope =>
      dsimp only
      cases tx.input[envelope.input]? with
      | none => exact Preserves.throw _
      | some commit =>
        refine Preserves.bind (TxItem.calcOutputSatpoint_readOnly btc tx _) (fun ret => ?_)
        cases ret with
        | none => exact Preserves.throw _
        | some ret => exact Preserves.pure _

theorem processEntries_readOnly (btc : BtcClient) (height : Nat) (tx : Transaction)
    (working : MultiMap) (items : List InscriptionTransferItem) (entries : List ValidMinerPassInfo) :
    ReadOnly (processEntries btc height tx working items entries) := by
  induction entries generalizing working items with
  | nil => exact Preserves.pure _
  | cons entry rest ih =>
    refine Preserves.bind (TxItem.calcOutputSatpoint_readOnly btc tx _) (fun ret => ?_)
    cases ret with
    | none => exact Preserves.throw _
    | some ret => exact ih _ _

theorem processInputs_readOnly (btc : BtcClient) (height : Nat) (tx : Transaction)
    (working : MultiMap) (items : List InscriptionTransferItem) (inputs : List OutPoint) :
    ReadOnly (processInputs btc height tx working items inputs) := by
  induction inputs generalizing working items with
  | nil => exact Preserves.pure _
  | cons vin rest ih =>
    exact Preserves.bind (processEntries_readOnly btc height tx working items _) (fun _ => ih _ _)

theorem processTxs_readOnly (btc : BtcClient) (height : Nat) (working : MultiMap)
    (items : List InscriptionTransferItem) (txs : List Transaction) :
    ReadOnly (processTxs btc height working items txs) := by
  induction txs generalizing working items with
  | nil => exact Preserves.pure _
  | cons tx rest ih =>
    exact Preserves.bind (processInputs_readOnly btc height tx working items _) (fun _ => ih _ _)

section Heights

variable {btc : BtcClient} {height : Nat} {tx : Transaction} {working working' : MultiMap}
  {items items' : List InscriptionTransferItem} {s t : IndexerState}

theorem processEntries_heights {entries : List ValidMinerPassInfo}
    (hi : ∀ item ∈ items, item.blockHeight = height)
    (h : processEntries btc height tx working items entries s = .ok (working', items') t) :
    ∀ item ∈ items', item.blockHeight = height := by
  induction entries generalizing working items s with
  | nil =>
    cases h
    exact hi
  | cons entry rest ih =>
    obtain ⟨ret, _, -, h⟩ := bind_eq_ok h
    cases ret with
    | none => cases h
    | some ret =>
      refine ih (fun item hitem => ?_) h
      rcases List.mem_append.mp hitem with hitem | hitem
      · exact hi item hitem
      · rw [List.mem_singleton.mp hitem]
        rfl

theorem processInputs_heights {inputs : List OutPoint}
    (hi : ∀ item ∈ items, item.blockHeight = height)
    (h : processInputs btc height tx working items inputs s = .ok (working', items') t) :
    ∀ item ∈ items', item.blockHeight = height := by
  induction inputs generalizing working items s with
  | nil =>
    cases h
    exact hi
  | cons vin rest ih =>
    obtain ⟨⟨w₁, i₁⟩, _, hentries, h⟩ := bind_eq_ok h
    exact ih (processEntries_heights hi hentries) h

theorem processTxs_heights {txs : List Transaction}
    (hi : ∀ item ∈ items, item.blockHeight = height)
    (h : processTxs btc height working items txs s = .ok (working', items') t) :
    ∀ item ∈ items', item.blockHeight = height := by
  induction txs generalizing working items s with
  | nil =>
    cases h
    exact hi
  | cons tx rest ih =>
    obtain ⟨⟨w₁, i₁⟩, _, hinputs, h⟩ := bind_eq_ok h
    exact ih (processInputs_heights hi hinputs) h

end Heights

/-- The tracker after a block is staged next to the one in force. -/
theorem processBlockWithHint_ok {btc : BtcClient} {height : Nat} {block : Block}
    {seeds : List TransferTrackSeed} {s t : IndexerState} {items : List InscriptionTransferItem}
    (h : processBlockWithHint btc height block seeds s = .ok items t) :
    ∃ working fs, s.stagedBlocks = [] ∧
      processTxs btc height (seedInscriptions s.inscriptions seeds) [] block.txdata s =
        .ok (working, items) (s.withFaults fs) ∧
      t = { s with stagedBlocks := [(height, working)], faults := fs } := by
  obtain ⟨g, _, hget, h⟩ := bind_eq_ok h
  cases hget
  split at h
  · cases h
  · rename_i hstaged
    obtain ⟨⟨working, items'⟩, s₁, htxs, h⟩ := bind_eq_ok h
    obtain ⟨fs, rfl⟩ := (processTxs_readOnly _ _ _ _ _).ok htxs
    have hnil : s.stagedBlocks = [] := not_not.mp hstaged
    have hnil' : (s.withFaults fs).stagedBlocks = [] := hnil
    obtain ⟨g, _, hget, h⟩ := bind_eq_ok h
    cases hget
    obtain ⟨_, _, hmod, h⟩ := bind_eq_ok h
    cases hmod
    rw [hnil'] at h
    cases h
    exact ⟨working, fs, hnil, htxs, rfl⟩

end InscriptionTransferTracker

section Guards

variable {s t : IndexerState} {u : Unit}

/-- A recovery that ends in an error cannot turn a failure into a success. -/
theorem recoverWith_ok {α : Type} {x : IndexerM α} {handler : IndexerError → IndexerM α} {a : α}
    (hh : ∀ e s b r, handler e s ≠ .ok b r) (h : recoverWith x handler s = .ok a t) :
    x s = .ok a t := by
  unfold recoverWith at h
  split at h
  · rename_i hx
    rw [hx, h]
  · cases h
  · exact absurd h (hh _ _ _ _)

theorem bind_throw_ne_ok {α β : Type} {x : IndexerM α} {f : α → IndexerError} {s t : IndexerState}
    {b : β} : (x >>= fun a => throw (f a) : IndexerM β) s ≠ .ok b t := by
  intro h
  obtain ⟨a, s₁, -, h⟩ := bind_eq_ok h
  cases h

end Guards

namespace BalanceMonitor

theorem loadActivePages_readOnly (pageSize height index : Nat)
    (owners : List ActiveMinerPassInfo) (rounds : Nat) :
    ReadOnly (loadActivePages pageSize height index owners rounds) := by
  induction rounds generalizing index owners with
  | zero => exact Preserves.pure _
  | succ rounds ih =>
    refine Preserves.bind (ReadOnly.readPass _) (fun passes =>
      Preserves.ite _ (Preserves.pure _) ?_)
    exact Preserves.bind (liftExcept_preserves _) (fun _ =>
      Preserves.ite _ (Preserves.pure _) (ih _ _))

/-- The parts of a settlement; only its snapshot is written. -/
theorem settleActiveBalanceWithDetails_ok {provider : BalanceProvider} {pageSize height : Nat}
    {settlement : ActiveBalanceSettlement} {s t : IndexerState}
    (h : settleActiveBalanceWithDetails provider pageSize height s = .ok settlement t) :
    ∃ active balances fs₁ fs₂ fs₃, loadActivePasses pageSize height (s.withFaults fs₁) =
        .ok active (s.withFaults fs₂) ∧
      collectBalances height [] (provider.loadBalances (active.map (·.owner)) height) =
        .ok balances ∧
      settlePasses height balances active = .ok (settlement.activePassBalances, []) ∧
      settlement.snapshot.blockHeight = height ∧
      t = { s with
        passStorage := s.passStorage.upsertActiveBalanceSnapshot settlement.snapshot
        faults := fs₃ } := by
  obtain ⟨_, _, hcheck, h₁⟩ := bind_eq_ok h
  obtain ⟨-, fs₁, rfl⟩ := checkPass_ok hcheck
  obtain ⟨active, _, hload, h₂⟩ := bind_eq_ok h₁
  have hro : ReadOnly (loadActivePasses pageSize height) :=
    Preserves.bind Preserves.get (fun _ =>
      Preserves.bind (loadActivePages_readOnly _ _ _ _ _) (fun _ => Preserves.pure _))
  obtain ⟨fs₂, rfl⟩ := hro.ok hload
  split at h₂
  · cases h₂
  obtain ⟨_, _, hio, h₃⟩ := bind_eq_ok h₂
  obtain ⟨fs₃, rfl⟩ := io_ok hio
  obtain ⟨balances, _, hbal, h₄⟩ := bind_eq_ok h₃
  obtain ⟨hcollect, rfl⟩ := liftExcept_ok hbal
  obtain ⟨⟨rows, left⟩, _, hset, h₅⟩ := bind_eq_ok h₄
  obtain ⟨hsettle, rfl⟩ := liftExcept_ok hset
  dsimp only at h₅
  split at h₅
  · cases h₅
  rename_i hleft
  obtain ⟨_, _, hw, h₆⟩ := bind_eq_ok h₅
  obtain ⟨ps, fs₄, hps, rfl⟩ := writePass_ok hw
  cases hps
  cases h₆
  rw [not_not.mp hleft] at hsettle
  exact ⟨active, balances, fs₁, fs₂, fs₄, hload, hcollect, hsettle, rfl, rfl⟩

end BalanceMonitor

namespace InscriptionIndexer

open PassEnergyManager MinerPassManager InscriptionTransferTracker

variable {s t : IndexerState} {u : Unit}

theorem loadMints_readOnly {α β : Type} (btc : BtcClient) (id : α → InscriptionId)
    (noAddress : α → IndexerError) (build : α → InscriptionCreateInfo → USDBScriptHash → β)
    (mints : List α) : ReadOnly (loadMints btc id noAddress build mints) := by
  induction mints with
  | nil => exact Preserves.pure _
  | cons mint rest ih =>
    refine Preserves.bind (calcCreateSatpoint_readOnly btc _) (fun info => ?_)
    cases info.address with
    | none => exact Preserves.throw _
    | some address => exact Preserves.bind ih (fun _ => Preserves.pure _)

theorem collectBlockInscriptionMints_readOnly (env : BlockEnv) (height : Nat) :
    ReadOnly (collectBlockInscriptionMints env height) :=
  Preserves.bind ReadOnly.io (fun _ => Preserves.bind (loadMints_readOnly _ _ _ _ _) (fun _ =>
    Preserves.bind (loadMints_readOnly _ _ _ _ _) (fun _ => Preserves.pure _)))

/-- What every mint contributes is built from the mint itself. -/
theorem loadMints_mem {α β : Type} {btc : BtcClient} {id : α → InscriptionId}
    {noAddress : α → IndexerError} {build : α → InscriptionCreateInfo → USDBScriptHash → β}
    {mints : List α} {built : List β} (h : loadMints btc id noAddress build mints s = .ok built t) :
    ∀ b ∈ built, ∃ a ∈ mints, ∃ info address, b = build a info address := by
  induction mints generalizing s built with
  | nil =>
    cases h
    intro b hb
    cases hb
  | cons mint rest ih =>
    obtain ⟨info, _, -, h⟩ := bind_eq_ok h
    cases ha : info.address with
    | none =>
      rw [ha] at h
      cases h
    | some address =>
      rw [ha] at h
      obtain ⟨tail, _, htail, h⟩ := bind_eq_ok h
      cases h
      intro b hb
      rcases List.mem_cons.mp hb with rfl | hb
      · exact ⟨mint, by simp, info, address, rfl⟩
      · obtain ⟨a, ha, hbuild⟩ := ih htail b hb
        exact ⟨a, by simp [ha], hbuild⟩

/-- Everything a block mints is stamped with its height. -/
theorem collectBlockInscriptionMints_heights {env : BlockEnv} {height : Nat}
    {mints : CollectedMintItems} (h : collectBlockInscriptionMints env height s = .ok mints t) :
    (∀ item ∈ mints.validItems, item.blockHeight = height) ∧
      ∀ item ∈ mints.invalidItems, item.mintBlockHeight = height := by
  obtain ⟨_, _, -, h⟩ := bind_eq_ok h
  obtain ⟨candidates, _, hcand, h⟩ := bind_eq_ok h
  obtain ⟨invalid, _, hinv, h⟩ := bind_eq_ok h
  cases h
  have hvalid : ∀ c ∈ candidates, c.mint.blockHeight = height := by
    intro c hc
    obtain ⟨mint, hm, info, address, rfl⟩ := loadMints_mem hcand c hc
    simp only [classifyUsdbMintsFromInscriptions, List.mem_filterMap] at hm
    obtain ⟨i, -, hi⟩ := hm
    split at hi
    · cases hi
      rfl
    · cases hi
  constructor
  · intro item hitem
    simp only [List.mem_map, List.mem_filter] at hitem
    obtain ⟨c, ⟨hc, -⟩, rfl⟩ := hitem
    exact hvalid c hc
  · intro item hitem
    simp only [List.mem_append, List.mem_map, List.mem_filter] at hitem
    rcases hitem with ⟨c, ⟨hc, -⟩, rfl⟩ | hitem
    · exact hvalid c hc
    · obtain ⟨mint, hm, info, address, rfl⟩ := loadMints_mem hinv item hitem
      simp only [classifyUsdbMintsFromInscriptions, List.mem_filterMap] at hm
      obtain ⟨i, -, hi⟩ := hm
      split at hi
      · cases hi
        rfl
      · cases hi

/-- The part of `sync_block` before the events are executed. -/
def planBlock (env : BlockEnv) (height : Nat) : IndexerM (List BlockProcessEvent) := do
  beginBlockSync height
  beginBlockMutationCollection height
  let (block, mints, items) ← collectBlock env height
  liftExcept (BlockEventPlanner.plan height block mints.validItems items)

theorem planBlock_plain (env : BlockEnv) (height : Nat) : Plain true (planBlock env height) := by
  refine .bind (beginBlockSync_plain height) (fun _ => .bind ?_ (fun _ =>
    .bind (collectBlock_plain env height) (fun _ => liftExcept_plain _)))
  refine .get_bind (fun _ _ => rfl) (fun _ _ _ => rfl) (fun s => ?_)
  cases s.currentBlockCollector with
  | some c => exact .throw _
  | none => exact .modify (fun _ _ => rfl) (fun _ _ _ => rfl)

/-- A round of `sync_blocks` up to the energy finalize of its block. -/
def syncUntilFinalized (cfg : IndexerConfig) (env : BlockEnv) (height : Nat) : IndexerM Unit := do
  let _ ← readPass (·.syncedBtcBlockHeight)
  io
  beginBlockSync height
  beginBlockMutationCollection height
  let (block, mints, items) ← collectBlock env height
  applyBlock cfg env height block mints items

/-- The state the events of a block are executed in. -/
def begun (s : IndexerState) (height : Nat) (working : MultiMap) (faults : List IoResult) :
    IndexerState :=
  { s with
    energyStorage := { s.energyStorage with pendingBlockHeight := some height }
    stagedBlocks := [(height, working)]
    currentBlockCollector := some (PassBlockMutationCollector.new height)
    faults }

/-- The parts of a block that has been applied up to its energy finalize, in the order
they happened. -/
structure AppliedBlock (cfg : IndexerConfig) (env : BlockEnv) (height : Nat) (s : IndexerState)
    where
  block : Block
  hint : env.blockHint = some block
  noStaged : s.stagedBlocks = []
  noPending : s.energyStorage.pendingBlockHeight = none
  mints : CollectedMintItems
  collectFrom : IndexerState
  collectTo : IndexerState
  collected : collectBlockInscriptionMints env height collectFrom = .ok mints collectTo
  working : MultiMap
  items : List InscriptionTransferItem
  trackFrom : IndexerState
  trackTo : IndexerState
  tracked : processTxs env.btc height
    (seedInscriptions s.inscriptions (buildTransferTrackSeeds mints.validItems)) [] block.txdata
    trackFrom = .ok (working, items) trackTo
  events : List BlockProcessEvent
  planned : BlockEventPlanner.plan height block mints.validItems items = .ok events
  planning : planBlock env height (s.withFaults []) = .ok events (begun s height working [])
  begunFaults : List IoResult
  executed : IndexerState
  execution : BlockEventExecutor.execute env.provider events
    (begun s height working begunFaults) = .ok () executed
  minted : IndexerState
  invalidated : processInvalidMints mints.invalidItems executed = .ok () minted
  settlement : ActiveBalanceSettlement
  settled : IndexerState
  settling : BalanceMonitor.settleActiveBalanceWithDetails env.provider cfg.activeAddressPageSize
    height minted = .ok settlement settled
  applied : IndexerState
  applying : applyEnergyChanges settlement.activePassBalances settled = .ok () applied

/-- The parts of a block that became durable. -/
structure BlockRun (cfg : IndexerConfig) (env : BlockEnv) (height : Nat) (s t : IndexerState)
    extends AppliedBlock cfg env height s where
  finalizing : ∃ fs, syncUntilFinalized cfg env height s = .ok () { applied with
    energyStorage := applied.energyStorage.finalizeBlockSync height, faults := fs }
  collector : PassBlockMutationCollector
  collecting : applied.currentBlockCollector = some collector
  collectorHeight : collector.blockHeight = height
  upstream : BalanceHistoryBlockCommitInfo
  upstreamCommit : env.upstreamCommit = some upstream
  entry : PassBlockCommitEntry
  commit : collector.buildCommitEntry cfg.hash upstream
    (if height = 0 then none else applied.passStorage.getPassBlockCommit (height - 1)) = .ok entry
  finalFaults : List IoResult
  final : t = { applied with
    passStorage := (applied.passStorage.upsertPassBlockCommit entry).updateSyncedBtcBlockHeight
      height
    energyStorage := applied.energyStorage.finalizeBlockSync height
    inscriptions := working
    stagedBlocks := []
    currentBlockCollector := none
    faults := finalFaults }

theorem finalizeBlockSync_ok {height : Nat}
    (h : PassEnergyManager.finalizeBlockSync height s = .ok u t) :
    ∃ fs, t = { s with
      energyStorage := s.energyStorage.finalizeBlockSync height, faults := fs } := by
  obtain ⟨pending, _, hread, h⟩ := bind_eq_ok h
  obtain ⟨rfl, fs, rfl⟩ := readEnergy_ok hread
  split at h
  · cases h
  · exact writeEnergy_ok h

theorem beginBlockSync_ok {height : Nat} (h : beginBlockSync height s = .ok u t) :
    s.energyStorage.pendingBlockHeight = none ∧ ∃ fs, t = { s with
      energyStorage := { s.energyStorage with pendingBlockHeight := some height }
      faults := fs } := by
  obtain ⟨pending, _, hread, h⟩ := bind_eq_ok h
  obtain ⟨rfl, fs, rfl⟩ := readEnergy_ok hread
  cases hp : s.energyStorage.pendingBlockHeight with
  | none =>
    rw [hp] at h
    exact ⟨rfl, writeEnergy_ok h⟩
  | some p =>
    rw [hp] at h
    cases h

theorem takeBlockMutationCollector_ok {height : Nat} {collector : PassBlockMutationCollector}
    (h : takeBlockMutationCollector height s = .ok collector t) :
    s.currentBlockCollector = some collector ∧ collector.blockHeight = height ∧
      t = { s with currentBlockCollector := none } := by
  obtain ⟨g, _, hget, h⟩ := bind_eq_ok h
  cases hget
  cases hc : s.currentBlockCollector with
  | none =>
    rw [hc] at h
    cases h
  | some c =>
    rw [hc] at h
    obtain ⟨_, _, hclear, h⟩ := bind_eq_ok h
    cases hclear
    split at h
    · cases h
    · rename_i hh
      cases h
      exact ⟨rfl, not_not.mp hh, rfl⟩

theorem persistPassBlockCommit_ok {cfg : IndexerConfig} {env : BlockEnv} {height : Nat}
    {collector : PassBlockMutationCollector}
    (h : persistPassBlockCommit cfg env height collector s = .ok u t) :
    ∃ upstream entry fs, env.upstreamCommit = some upstream ∧
      collector.buildCommitEntry cfg.hash upstream
        (if height = 0 then none else s.passStorage.getPassBlockCommit (height - 1)) = .ok entry ∧
      t = { s with passStorage := s.passStorage.upsertPassBlockCommit entry, faults := fs } := by
  obtain ⟨_, _, hio, h⟩ := bind_eq_ok h
  obtain ⟨fs, rfl⟩ := io_ok hio
  cases hu : env.upstreamCommit with
  | none =>
    rw [hu] at h
    cases h
  | some upstream =>
    rw [hu] at h
    dsimp only at h
    split at h
    · rename_i hz
      obtain ⟨prev, _, hpure, h⟩ := bind_eq_ok h
      cases hpure
      obtain ⟨entry, _, hbuild, h⟩ := bind_eq_ok h
      obtain ⟨hentry, rfl⟩ := liftExcept_ok hbuild
      obtain ⟨ps, fs', hw, rfl⟩ := writePass_ok h
      cases hw
      exact ⟨upstream, entry, fs', rfl, by rw [if_pos hz]; exact hentry, rfl⟩
    · rename_i hz
      obtain ⟨prev, _, hread, h⟩ := bind_eq_ok h
      obtain ⟨rfl, fs₁, rfl⟩ := readPass_ok hread
      obtain ⟨entry, _, hbuild, h⟩ := bind_eq_ok h
      obtain ⟨hentry, rfl⟩ := liftExcept_ok hbuild
      obtain ⟨ps, fs', hw, rfl⟩ := writePass_ok h
      cases hw
      exact ⟨upstream, entry, fs', rfl, by rw [if_neg hz]; exact hentry, rfl⟩

theorem commitStagedBlock_ok {height : Nat} (h : commitStagedBlock height s = .ok u t) :
    ∃ staged, s.stagedBlocks.find? (fun b => b.1 = height) = some staged ∧
      t = { s with
        inscriptions := staged.2
        stagedBlocks := s.stagedBlocks.filter (fun b => b.1 ≠ height) } := by
  obtain ⟨m, _, hrem, h⟩ := bind_eq_ok h
  obtain ⟨g, _, hget, hrem⟩ := bind_eq_ok hrem
  cases hget
  cases hs : s.stagedBlocks.find? (fun b => b.1 = height) with
  | none =>
    rw [hs] at hrem
    cases hrem
  | some staged =>
    rw [hs] at hrem
    cases hrem
    cases h
    exact ⟨staged, rfl, rfl⟩

theorem withMutationCollection_ok {height : Nat} {body : IndexerM Unit}
    (h : withMutationCollection height body s = .ok u t) :
    beginBlockMutationCollection height s = .ok () { s with
        currentBlockCollector := some (PassBlockMutationCollector.new height) } ∧
      ∃ t', body { s with
          currentBlockCollector := some (PassBlockMutationCollector.new height) } = .ok u t' ∧
        t = { t' with currentBlockCollector := none } := by
  obtain ⟨_, s₁, hbegin, h⟩ := bind_eq_ok h
  obtain ⟨g, _, hget, hset⟩ := bind_eq_ok hbegin
  cases hget
  cases hc : s.currentBlockCollector with
  | some c =>
    rw [hc] at hset
    cases hset
  | none =>
    rw [hc] at hset
    cases hset
    refine ⟨hbegin, ?_⟩
    dsimp only at h
    split at h
    · rename_i hbody
      cases h
      exact ⟨_, hbody, rfl⟩
    · cases h

theorem withSavepoint_ok {body : IndexerM Unit} (h : withSavepoint body s = .ok u t) :
    ∃ fs, io s = .ok () (s.withFaults fs) ∧ body (s.withFaults fs) = .ok u t := by
  obtain ⟨_, s₁, hio, h⟩ := bind_eq_ok h
  have hio' := hio
  obtain ⟨fs, rfl⟩ := io_ok hio
  split at h
  · rename_i hbody
    cases h
    exact ⟨fs, hio', hbody⟩
  · cases h

/-- A failed body is undone in the pass database. -/
theorem withSavepoint_error {body : IndexerM Unit} {e : IndexerError}
    (h : withSavepoint body s = .error e t) :
    (∃ fs, t = s.withFaults fs) ∨ ∃ fs t', body (s.withFaults fs) = .error e t' ∧
      t = { t' with passStorage := s.passStorage } := by
  rcases bind_eq_error h with hio | ⟨_, _, hio, h⟩
  · exact .inl (io_error hio)
  · obtain ⟨fs, rfl⟩ := io_ok hio
    split at h
    · cases h
    · rename_i hbody
      cases h
      exact .inr ⟨fs, _, hbody, rfl⟩

theorem collectBlock_ok {env : BlockEnv} {height : Nat}
    {result : Block × CollectedMintItems × List InscriptionTransferItem}
    (h : collectBlock env height s = .ok result t) :
    env.blockHint = some result.1 ∧ s.stagedBlocks = [] ∧ ∃ s₁ s₂ s₃ s₄ working fs,
      collectBlockInscriptionMints env height s₁ = .ok result.2.1 s₂ ∧
      processTxs env.btc height
        (seedInscriptions s.inscriptions (buildTransferTrackSeeds result.2.1.validItems)) []
        result.1.txdata s₃ = .ok (working, result.2.2) s₄ ∧
      t = { s with stagedBlocks := [(height, working)], faults := fs } := by
  obtain ⟨_, _, hio, h⟩ := bind_eq_ok h
  obtain ⟨fs₁, rfl⟩ := io_ok hio
  cases hb : env.blockHint with
  | none =>
    rw [hb] at h
    cases h
  | some block =>
    rw [hb] at h
    obtain ⟨mints, _, hmints, h⟩ := bind_eq_ok h
    obtain ⟨fs₂, rfl⟩ := (collectBlockInscriptionMints_readOnly env height).ok hmints
    obtain ⟨items, _, hitems, h⟩ := bind_eq_ok h
    obtain ⟨working, fs₃, hnil, htxs, rfl⟩ := processBlockWithHint_ok hitems
    cases h
    exact ⟨rfl, hnil, _, _, _, _, working, fs₃, hmints, htxs, rfl⟩

theorem beginBlockMutationCollection_ok {height : Nat}
    (h : beginBlockMutationCollection height s = .ok u t) :
    t = { s with currentBlockCollector := some (PassBlockMutationCollector.new height) } := by
  obtain ⟨g, _, hget, hset⟩ := bind_eq_ok h
  cases hget
  cases hc : s.currentBlockCollector with
  | some c =>
    rw [hc] at hset
    cases hset
  | none =>
    rw [hc] at hset
    cases hset
    rfl

theorem syncUntilFinalized_ok {cfg : IndexerConfig} {env : BlockEnv} {height : Nat}
    (h : syncUntilFinalized cfg env height s = .ok u t) :
    ∃ run : AppliedBlock cfg env height s, ∃ fs, t = { run.applied with
      energyStorage := run.applied.energyStorage.finalizeBlockSync height, faults := fs } := by
  obtain ⟨_, _, hread, h⟩ := bind_eq_ok h
  obtain ⟨-, fs₁, rfl⟩ := readPass_ok hread
  obtain ⟨_, _, hio, h⟩ := bind_eq_ok h
  obtain ⟨fs₂, rfl⟩ := io_ok hio
  obtain ⟨_, _, hbegin, h⟩ := bind_eq_ok h
  obtain ⟨hpending, fs₃, rfl⟩ := beginBlockSync_ok hbegin
  obtain ⟨_, _, hcoll, h⟩ := bind_eq_ok h
  obtain rfl := beginBlockMutationCollection_ok hcoll
  obtain ⟨⟨block, mints, items⟩, _, hcollect, happly⟩ := bind_eq_ok h
  obtain ⟨hhint, hnil, c₁, c₂, c₃, c₄, working, fs₄, hmints, htxs, rfl⟩ := collectBlock_ok hcollect
  have hplanning : planBlock env height (((s.withFaults fs₁).withFaults fs₂)) =
      liftExcept (BlockEventPlanner.plan height block mints.validItems items)
        (begun s height working fs₄) := by
    unfold planBlock
    rw [bind_ok hbegin, bind_ok hcoll, bind_ok hcollect]
    rfl
  obtain ⟨events, _, hliftPlan, h₁⟩ := bind_eq_ok happly
  obtain ⟨hplan, rfl⟩ := liftExcept_ok hliftPlan
  rw [hplan] at hplanning
  obtain ⟨_, executed, hexec, h₂⟩ := bind_eq_ok h₁
  obtain ⟨_, minted, hinv, h₃⟩ := bind_eq_ok h₂
  obtain ⟨settlement, settled, hsettle, h₄⟩ := bind_eq_ok h₃
  obtain ⟨_, applied, henergy, hfinal⟩ := bind_eq_ok h₄
  obtain ⟨fs₅, rfl⟩ := finalizeBlockSync_ok hfinal
  exact ⟨{
    block, hint := hhint, noStaged := hnil, noPending := hpending, mints, collectFrom := c₁
    collectTo := c₂, collected := hmints, working, items, trackFrom := c₃, trackTo := c₄
    tracked := htxs, events, planned := hplan, begunFaults := fs₄
    planning := (planBlock_plain env height).unfaulted _ _ _ hplanning, executed, execution := hexec
    minted, invalidated := hinv, settlement, settled, settling := hsettle, applied
    applying := henergy }, fs₅, rfl⟩

/-- The transfers staged by a block stay staged while it is applied. -/
theorem AppliedBlock.stagedBlocks {cfg : IndexerConfig} {env : BlockEnv} {height : Nat}
    (run : AppliedBlock cfg env height s) : run.applied.stagedBlocks = [(height, run.working)] := by
  have htracker : run.applied.tracker = (s.inscriptions, [(height, run.working)]) := by
    rw [(applyEnergyChanges_plain _).preserves.ok run.applying,
      (BalanceMonitor.settleActiveBalanceWithDetails_plain _ _ _).preserves.ok run.settling,
      (processInvalidMints_plain _).preserves.ok run.invalidated,
      (BlockEventExecutor.execute_plain _ _).preserves.ok run.execution]
    rfl
  exact congrArg Prod.snd htracker

theorem syncBlockDurably_ok {cfg : IndexerConfig} {env : BlockEnv} {height : Nat}
    (h : syncBlockDurably cfg env height s = .ok u t) : Nonempty (BlockRun cfg env height s t) := by
  obtain ⟨durable, _, hread, h⟩ := bind_eq_ok h
  have hread' := hread
  obtain ⟨rfl, fs₁, rfl⟩ := readPass_ok hread
  obtain ⟨fs₂, hsavepoint, h⟩ := withSavepoint_ok h
  obtain ⟨_, s₁, hsync, hrelease⟩ := bind_eq_ok h
  obtain ⟨_, _, hbegin, hguarded⟩ := bind_eq_ok hsync
  obtain ⟨hcoll, s₂, hbody, rfl⟩ := withMutationCollection_ok hguarded
  obtain ⟨⟨block, mints, items⟩, _, hcollect, hrest⟩ := bind_eq_ok hbody
  obtain ⟨_, s₃, happly, hpublish⟩ := bind_eq_ok hrest
  have hfinalizing : syncUntilFinalized cfg env height s = .ok () s₃ := by
    unfold syncUntilFinalized
    rw [bind_ok hread', bind_ok hsavepoint, bind_ok hbegin, bind_ok hcoll, bind_ok hcollect]
    exact recoverWith_ok (fun _ _ _ _ => bind_throw_ne_ok) happly
  obtain ⟨run, fs₅, rfl⟩ := syncUntilFinalized_ok hfinalizing
  have hpublish' := recoverWith_ok (fun _ _ _ _ => bind_throw_ne_ok) hpublish
  obtain ⟨collector, _, htake, h₅⟩ := bind_eq_ok hpublish'
  obtain ⟨hcollector, hheight, rfl⟩ := takeBlockMutationCollector_ok htake
  obtain ⟨_, _, hpersist, h₆⟩ := bind_eq_ok h₅
  obtain ⟨upstream, entry, fs₆, hup, hentry, rfl⟩ := persistPassBlockCommit_ok hpersist
  obtain ⟨staged, hstaged, rfl⟩ := commitStagedBlock_ok h₆
  have hblocks := run.stagedBlocks
  dsimp only at hstaged
  rw [hblocks] at hstaged
  simp only [List.find?_cons, decide_true, Option.some.injEq] at hstaged
  subst hstaged
  obtain ⟨_, _, hsynced, hreleased⟩ := bind_eq_ok hrelease
  obtain ⟨ps, fs₇, hps, rfl⟩ :=
    writePass_ok (recoverWith_ok (fun _ _ _ _ => bind_throw_ne_ok) hsynced)
  cases hps
  have hio := recoverWith_ok (fun _ _ _ _ => bind_throw_ne_ok) hreleased
  obtain ⟨fs₈, rfl⟩ := io_ok hio
  exact ⟨{ run with
    finalizing := ⟨fs₅, hfinalizing⟩, collector, collecting := hcollector
    collectorHeight := hheight, upstream, upstreamCommit := hup, entry, commit := hentry
    finalFaults := fs₈
    final := by
      dsimp only [IndexerState.withFaults]
      rw [hblocks]
      simp }⟩

end InscriptionIndexer

end Usdb
