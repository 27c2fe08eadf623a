import Usdb.Balance.Loaders

namespace Usdb

open Framework Paging MinerPassStorage

namespace BalanceMonitor

/-- `settle_active_balance_with_details` with the loader of the monitor. -/
def settleWithLoader (rpcLoader : BalanceRpcLoader) (pageSize blockHeight : Nat) :
    IndexerM ActiveBalanceSettlement := do
  checkPass (·.assertNoDataAfterBlockHeight blockHeight)
  let activePasses ← loadActivePasses pageSize blockHeight
  if 2 ^ 32 ≤ activePasses.length then
    throw (.tooManyActiveAddresses blockHeight activePasses.length)
  io
  let entries ← liftExcept
    ((rpcLoader (activePasses.map (·.owner)) blockHeight).mapError (fun _ => .io))
  let balances ← liftExcept (collectBalances blockHeight [] entries)
  let (activePassBalances, left) ← liftExcept (settlePasses blockHeight balances activePasses)
  if left ≠ [] then throw (.extraOwnerBalances blockHeight left.length)
  let snapshot : ActiveBalanceSnapshot :=
    { blockHeight
      totalBalance := activePassBalances.foldl (fun total row => satAdd total row.balance) 0
      activeAddressCount := activePasses.length }
  writePass (fun ps => .ok (ps.upsertActiveBalanceSnapshot snapshot))
  return { snapshot, activePassBalances }

/-- The settlement of the indexer is the one whose loader answers as the provider does. -/
theorem settleWithLoader_provider (provider : BalanceProvider) (pageSize blockHeight : Nat) :
    settleWithLoader (fun owners height => .ok (provider.loadBalances owners height)) pageSize
      blockHeight = settleActiveBalanceWithDetails provider pageSize blockHeight :=
  rfl

/-- The Active passes of a height, in the order in which they are settled. -/
def activePassesAt (ps : MinerPassStorage) (blockHeight : Nat) : List ActiveMinerPassInfo :=
  (ps.historyViewByStates blockHeight [.Active]).insertionSort (fun a b => a.owner ≤ b.owner)

/-- What happens before the balances are loaded. -/
def prepareSettlement (pageSize blockHeight : Nat) : IndexerM (List ActiveMinerPassInfo) := do
  checkPass (·.assertNoDataAfterBlockHeight blockHeight)
  let activePasses ← loadActivePasses pageSize blockHeight
  if 2 ^ 32 ≤ activePasses.length then
    throw (.tooManyActiveAddresses blockHeight activePasses.length)
  io
  return activePasses

/-- What the loaded entries come to. -/
def settleEntries (activePasses : List ActiveMinerPassInfo) (blockHeight : Nat)
    (entries : List (USDBScriptHash × AddressBalance)) :
    Except IndexerError ActiveBalanceSettlement := do
  let balances ← collectBalances blockHeight [] entries
  let (activePassBalances, left) ← settlePasses blockHeight balances activePasses
  if left ≠ [] then throw (.extraOwnerBalances blockHeight left.length)
  return {
    snapshot := {
      blockHeight
      totalBalance := activePassBalances.foldl (fun total row => satAdd total row.balance) 0
      activeAddressCount := activePasses.length }
    activePassBalances }

section Runs

variable {rpcLoader : BalanceRpcLoader} {pageSize blockHeight : Nat}
  {settlement : ActiveBalanceSettlement} {activePasses : List ActiveMinerPassInfo}
  {entries : List (USDBScriptHash × AddressBalance)} {s t : IndexerState}

theorem prepareSettlement_ok (hsize : 0 < pageSize)
    (h : prepareSettlement pageSize blockHeight s = .ok activePasses t) :
    activePasses = activePassesAt s.passStorage blockHeight ∧ ∃ fs, t = s.withFaults fs := by
  obtain ⟨_, _, hcheck, h₁⟩ := bind_eq_ok h
  obtain ⟨-, fs₁, rfl⟩ := checkPass_ok hcheck
  obtain ⟨active, _, hload, h₂⟩ := bind_eq_ok h₁
  have hactive := loadActivePasses_ok hsize hload
  have hro : ReadOnly (loadActivePasses pageSize blockHeight) :=
    Preserves.bind Preserves.get (fun _ =>
      Preserves.bind (loadActivePages_readOnly _ _ _ _ _) (fun _ => Preserves.pure _))
  obtain ⟨fs₂, rfl⟩ := hro.ok hload
  split at h₂
  · cases h₂
  obtain ⟨_, _, hio, h₃⟩ := bind_eq_ok h₂
  obtain ⟨fs₃, rfl⟩ := io_ok hio
  cases h₃
  exact ⟨hactive, fs₃, rfl⟩

theorem settleEntries_ok (h : settleEntries activePasses blockHeight entries = .ok settlement) :
    collectBalances blockHeight [] entries = .ok entries ∧
      settlePasses blockHeight entries activePasses = .ok (settlement.activePassBalances, []) ∧
      settlement.snapshot =
        { blockHeight
          totalBalance :=
            settlement.activePassBalances.foldl (fun total row => satAdd total row.balance) 0
          activeAddressCount := activePasses.length } := by
  obtain ⟨balances, hcollect, h⟩ := bind_eq_ok_iff.mp h
  obtain ⟨⟨rows, left⟩, hsettle, h⟩ := bind_eq_ok_iff.mp h
  have hbalances := collectBalances_ok hcollect
  rw [List.nil_append] at hbalances
  dsimp only at h
  split at h
  · cases h
  · rename_i hleft
    cases h
    rw [hbalances] at hcollect hsettle
    rw [not_not.mp hleft] at hsettle
    exact ⟨hcollect, hsettle, rfl⟩

/-- A settlement that succeeds loads the balances, settles them and writes the snapshot. -/
theorem settleWithLoader_ok_iff :
    settleWithLoader rpcLoader pageSize blockHeight s = .ok settlement t ↔
      ∃ activePasses s₁ entries,
        prepareSettlement pageSize blockHeight s = .ok activePasses s₁ ∧
        rpcLoader (activePasses.map (·.owner)) blockHeight = .ok entries ∧
        settleEntries activePasses blockHeight entries = .ok settlement ∧
        writePass (fun ps => .ok (ps.upsertActiveBalanceSnapshot settlement.snapshot)) s₁ =
          .ok () t := by
  constructor
  · intro h
    obtain ⟨_, _, hcheck, h₁⟩ := bind_eq_ok h
    obtain ⟨active, _, hload, h₂⟩ := bind_eq_ok h₁
    split at h₂
    · cases h₂
    rename_i hcount
    obtain ⟨_, s₃, hio, h₃⟩ := bind_eq_ok h₂
    obtain ⟨entries, _, hentries, h₄⟩ := bind_eq_ok h₃
    obtain ⟨hloaded, rfl⟩ := liftExcept_ok hentries
    obtain ⟨balances, _, hbal, h₅⟩ := bind_eq_ok h₄
    obtain ⟨hcollect, rfl⟩ := liftExcept_ok hbal
    obtain ⟨⟨rows, left⟩, _, hset, h₆⟩ := bind_eq_ok h₅
    obtain ⟨hsettle, rfl⟩ := liftExcept_ok hset
    dsimp only at h₆
    split at h₆
    · cases h₆
    rename_i hleft
    obtain ⟨_, _, hw, h₇⟩ := bind_eq_ok h₆
    cases h₇
    refine ⟨active, s₃, entries, ?_, ?_, ?_, hw⟩
    · refine (bind_ok hcheck).trans ((bind_ok hload).trans ?_)
      dsimp only
      rw [if_neg hcount]
      exact bind_ok hio
    · cases hl : rpcLoader (active.map (·.owner)) blockHeight with
      | error e =>
        rw [hl] at hloaded
        cases hloaded
      | ok found =>
        rw [hl] at hloaded
        cases hloaded
        rfl
    · unfold settleEntries
      rw [hcollect]
      simp only [bind, Except.bind, hsettle, if_neg hleft, pure, Except.pure]
  · rintro ⟨active, s₁, entries, hprepare, hloaded, hentries, hw⟩
    obtain ⟨_, _, hcheck, h₁⟩ := bind_eq_ok hprepare
    obtain ⟨passes, _, hload, h₂⟩ := bind_eq_ok h₁
    split at h₂
    · cases h₂
    rename_i hcount
    obtain ⟨_, _, hio, h₃⟩ := bind_eq_ok h₂
    cases h₃
    obtain ⟨hcollect, hsettle, hsnapshot⟩ := settleEntries_ok hentries
    refine (bind_ok hcheck).trans ((bind_ok hload).trans ?_)
    dsimp only
    rw [if_neg hcount]
    refine (bind_ok hio).trans ?_
    rw [hloaded]
    refine (bind_ok (rfl : liftExcept (Except.ok entries) s₁ = .ok entries s₁)).trans ?_
    rw [hcollect]
    refine (bind_ok (rfl : liftExcept (Except.ok entries) s₁ = .ok entries s₁)).trans ?_
    rw [hsettle]
    refine (bind_ok (rfl : liftExcept (Except.ok (settlement.activePassBalances, [])) s₁ =
      .ok _ s₁)).trans ?_
    dsimp only
    rw [if_neg (not_not.mpr rfl), ← hsnapshot]
    exact bind_ok hw

end Runs

section Entries

variable {blockHeight : Nat} {entries entries' found result : List (USDBScriptHash × AddressBalance)}
  {activePasses : List ActiveMinerPassInfo} {rows : List ActivePassBalance}
  {left : List (USDBScriptHash × AddressBalance)} {settlement : ActiveBalanceSettlement}

/-- The entries go through exactly if their owners are distinct. -/
theorem collectBalances_ok_iff (hfound : (found.map (·.1)).Nodup) :
    (∃ result, collectBalances blockHeight found entries = .ok result) ↔
      ((found ++ entries).map (·.1)).Nodup := by
  induction entries generalizing found with
  | nil => simpa [collectBalances] using hfound
  | cons entry rest ih =>
    unfold collectBalances
    cases hl : lookup (·.1) entry.1 found with
    | some existing =>
      constructor
      · rintro ⟨result, h⟩
        cases h
      · intro h
        rw [List.map_append, List.nodup_append] at h
        have hkey := lookup_some_key _ _ _ _ hl
        exact absurd hkey (h.2.2 _ (List.mem_map_of_mem (lookup_some_mem _ _ _ _ hl)) _ (by simp))
    | none =>
      have hnew : ((found ++ [entry]).map (·.1)).Nodup := by
        rw [List.map_append, List.nodup_append]
        refine ⟨hfound, by simp, ?_⟩
        rintro a ha b hb rfl
        obtain ⟨r, hr, rfl⟩ := List.mem_map.mp ha
        simp only [List.map_cons, List.map_nil, List.mem_singleton] at hb
        exact (lookup_eq_none _ _ _).mp hl r hr hb
      have hrest := ih hnew
      rw [List.append_assoc, List.singleton_append] at hrest
      exact hrest

theorem settlePass_perm (hp : entries.Perm entries') (hn : (entries.map (·.1)).Nodup)
    (pass : ActiveMinerPassInfo) :
    settlePass blockHeight entries pass = settlePass blockHeight entries' pass := by
  unfold settlePass
  rw [lookup_perm (·.1) hp hn]

/-- The rows do not depend on the order of the entries. -/
theorem settlePasses_perm (hp : entries.Perm entries') (hn : (entries.map (·.1)).Nodup)
    (h : settlePasses blockHeight entries activePasses = .ok (rows, left)) :
    ∃ left', settlePasses blockHeight entries' activePasses = .ok (rows, left') ∧
      left.Perm left' := by
  induction activePasses generalizing entries entries' rows with
  | nil =>
    cases h
    exact ⟨entries', rfl, hp⟩
  | cons pass rest ih =>
    obtain ⟨row, rows', rfl, hrow, hrest⟩ := settlePasses_cons_ok h
    obtain ⟨left', hrest', hleft⟩ := ih (hp.filter _)
      ((List.filter_sublist.map _).nodup hn) hrest
    refine ⟨left', ?_, hleft⟩
    unfold settlePasses
    rw [← settlePass_perm hp hn, hrow]
    simp only [bind, Except.bind, hrest', pure, Except.pure]

/-- Neither does the settlement. -/
theorem settleEntries_perm (hp : entries.Perm entries')
    (h : settleEntries activePasses blockHeight entries = .ok settlement) :
    settleEntries activePasses blockHeight entries' = .ok settlement := by
  obtain ⟨hcollect, hsettle, hsnapshot⟩ := settleEntries_ok h
  have hn : (entries.map (·.1)).Nodup := (collectBalances_ok_iff (by simp)).mp ⟨_, hcollect⟩
  have hn' : (entries'.map (·.1)).Nodup := (hp.map (·.1)).nodup_iff.mp hn
  have hnone : (([] : List (USDBScriptHash × AddressBalance)).map (·.1)).Nodup := List.nodup_nil
  obtain ⟨balances, hcollect'⟩ := (collectBalances_ok_iff hnone).mpr hn'
  have hbalances := collectBalances_ok hcollect'
  rw [List.nil_append] at hbalances
  obtain ⟨left', hsettle', hleft⟩ := settlePasses_perm hp hn hsettle
  have hnil : left' = [] := hleft.symm.eq_nil
  rw [hbalances] at hcollect'
  rw [hnil] at hsettle'
  unfold settleEntries
  rw [hcollect']
  simp only [bind, Except.bind, hsettle', ne_eq, not_true_eq_false, if_false, pure, Except.pure,
    ← hsnapshot]

theorem satAdd_total (total : Nat) (rows : List ActivePassBalance) (h : total ≤ u64Max) :
    rows.foldl (fun total row => satAdd total row.balance) total =
      min (total + (rows.map (·.balance)).sum) u64Max := by
  induction rows generalizing total with
  | nil => simp [Nat.min_eq_left h]
  | cons row rest ih =>
    have hle : satAdd total row.balance ≤ u64Max := Nat.min_le_right _ _
    rw [List.foldl_cons, ih _ hle, List.map_cons, List.sum_cons]
    unfold satAdd
    omega

end Entries

/-- What a settlement says: one row for each Active pass, made of the own answer of its
owner, and the totals of these rows. -/
structure SettledExactly (backend : BalanceRpcBackend) (batchSize blockHeight : Nat)
    (ps : MinerPassStorage) (settlement : ActiveBalanceSettlement) : Prop where
  passes : (settlement.activePassBalances.map (fun row => (row.inscriptionId, row.owner))).Perm
    ((ps.historyViewByStates blockHeight [.Active]).map (fun pass => (pass.inscriptionId, pass.owner)))
  owners : (settlement.activePassBalances.map (·.owner)).Nodup
  rows : ∀ row ∈ settlement.activePassBalances, ∃ answer,
    OwnAnswer backend batchSize blockHeight (settlement.activePassBalances.map (·.owner))
      row.owner answer ∧
    row.blockHeight = blockHeight ∧ row.balance = answer.balance ∧
    row.delta = if answer.blockHeight = blockHeight then answer.delta else 0
  snapshotHeight : settlement.snapshot.blockHeight = blockHeight
  total : settlement.snapshot.totalBalance =
    min (settlement.activePassBalances.map (·.balance)).sum u64Max
  count : settlement.snapshot.activeAddressCount = settlement.activePassBalances.length

section Exact

variable {backend : BalanceRpcBackend} {batchSize blockHeight : Nat} {ps : MinerPassStorage}
  {entries : List (USDBScriptHash × AddressBalance)} {settlement : ActiveBalanceSettlement}

theorem settleEntries_exact (h : settleEntries (activePassesAt ps blockHeight) blockHeight entries =
      .ok settlement)
    (hl : Loaded backend batchSize blockHeight
      ((activePassesAt ps blockHeight).map (·.owner)) entries) :
    SettledExactly backend batchSize blockHeight ps settlement := by
  obtain ⟨hcollect, hsettle, hsnapshot⟩ := settleEntries_ok h
  have hn : (entries.map (·.1)).Nodup := (collectBalances_ok_iff (by simp)).mp ⟨_, hcollect⟩
  have hall := settlePasses_forall₂ hsettle
  have hpasses : (activePassesAt ps blockHeight).map (fun pass => (pass.inscriptionId, pass.owner)) =
      settlement.activePassBalances.map (fun row => (row.inscriptionId, row.owner)) := by
    refine map_eq_of_forall₂ hall ?_
    rintro pass row ⟨answer, hs⟩
    rw [hs.inscriptionId, hs.owner]
  have howners := congrArg (List.map Prod.snd) hpasses
  rw [List.map_map, List.map_map] at howners
  have howners : (activePassesAt ps blockHeight).map (·.owner) =
      settlement.activePassBalances.map (·.owner) := howners
  rw [howners] at hl
  refine ⟨?_, ?_, ?_, ?_, ?_, ?_⟩
  · rw [← hpasses]
    exact (List.perm_insertionSort _ _).map _
  · exact hl.addresses.nodup_iff.mp hn
  · intro row hrow
    obtain ⟨pass, -, answer, hs⟩ := exists_of_mem_forall₂ hall.flip hrow
    refine ⟨answer, ?_, hs.blockHeight, hs.balance, ?_⟩
    · rw [hs.owner]
      exact hl.answered _ hs.answered
    · have hle := hs.inTime
      rw [hs.delta]
      by_cases hat : answer.blockHeight = blockHeight
      · rw [if_pos hat, if_neg (by omega)]
      · rw [if_neg hat, if_pos (by omega)]
  · rw [hsnapshot]
  · rw [hsnapshot, satAdd_total 0 _ (Nat.zero_le _), Nat.zero_add]
  · rw [hsnapshot]
    exact hall.length_eq

end Exact

/-- What a loader that succeeds gives: the own answers, in any order. -/
def Loads (backend : BalanceRpcBackend) (batchSize : Nat) (rpcLoader : BalanceRpcLoader) : Prop :=
  ∀ owners blockHeight entries, rpcLoader owners blockHeight = .ok entries →
    entries.Perm (entriesInOrder backend batchSize blockHeight owners) ∧
      Loaded backend batchSize blockHeight owners entries

theorem serialLoads (loader : SerialBalanceLoader) (failed : Nat → Bool) :
    Loads loader.backend loader.batchSize (loader.loadBalances failed) := by
  intro owners blockHeight entries h
  obtain ⟨rfl, hl⟩ := SerialBalanceLoader.loadBalances_ok h
  exact ⟨.rfl, hl⟩

theorem concurrentLoads (loader : ConcurrentBalanceLoader) (calls : Nat → Nat → Option RpcFault)
    (pick : Nat → Nat) :
    Loads loader.backend loader.batchSize (loader.loadBalances calls pick) :=
  fun _ _ _ h => ConcurrentBalanceLoader.loadBalances_ok h

section Loads

variable {backend : BalanceRpcBackend} {batchSize pageSize blockHeight : Nat}
  {rpcLoader rpcLoader' : BalanceRpcLoader} {settlement settlement' : ActiveBalanceSettlement}
  {s t t' : IndexerState}

theorem Loads.exact (hl : Loads backend batchSize rpcLoader) (hsize : 0 < pageSize)
    (h : settleWithLoader rpcLoader pageSize blockHeight s = .ok settlement t) :
    SettledExactly backend batchSize blockHeight s.passStorage settlement := by
  obtain ⟨passes, s₁, entries, hprepare, hloaded, hentries, -⟩ := settleWithLoader_ok_iff.mp h
  obtain ⟨rfl, -⟩ := prepareSettlement_ok hsize hprepare
  exact settleEntries_exact hentries (hl _ _ _ hloaded).2

/-- Two loaders of the same answers settle the same, when both succeed. -/
theorem Loads.agree (hl : Loads backend batchSize rpcLoader)
    (hl' : Loads backend batchSize rpcLoader')
    (h : settleWithLoader rpcLoader pageSize blockHeight s = .ok settlement t)
    (h' : settleWithLoader rpcLoader' pageSize blockHeight s = .ok settlement' t') :
    settlement = settlement' ∧ t = t' := by
  obtain ⟨passes, s₁, entries, hprepare, hloaded, hentries, hw⟩ := settleWithLoader_ok_iff.mp h
  obtain ⟨passes', s₁', entries', hprepare', hloaded', hentries', hw'⟩ :=
    settleWithLoader_ok_iff.mp h'
  rw [hprepare] at hprepare'
  obtain ⟨rfl, rfl⟩ := EStateM.Result.ok.inj hprepare'
  have hperm := (hl _ _ _ hloaded).1.trans (hl' _ _ _ hloaded').1.symm
  rw [settleEntries_perm hperm hentries] at hentries'
  obtain rfl := Except.ok.inj hentries'
  rw [hw] at hw'
  exact ⟨rfl, (EStateM.Result.ok.inj hw').2⟩

/-- A loader that succeeds where another one does settles as the other one. -/
theorem Loads.transfer (hl : Loads backend batchSize rpcLoader)
    (hl' : Loads backend batchSize rpcLoader')
    (hok : ∀ owners, (∃ entries, rpcLoader owners blockHeight = .ok entries) →
      ∃ entries, rpcLoader' owners blockHeight = .ok entries)
    (h : settleWithLoader rpcLoader pageSize blockHeight s = .ok settlement t) :
    settleWithLoader rpcLoader' pageSize blockHeight s = .ok settlement t := by
  obtain ⟨passes, s₁, entries, hprepare, hloaded, hentries, hw⟩ := settleWithLoader_ok_iff.mp h
  obtain ⟨entries', hloaded'⟩ := hok _ ⟨entries, hloaded⟩
  have hperm := (hl _ _ _ hloaded).1.trans (hl' _ _ _ hloaded').1.symm
  exact settleWithLoader_ok_iff.mpr
    ⟨passes, s₁, entries', hprepare, hloaded', settleEntries_perm hperm hentries, hw⟩

end Loads

/-- Whatever order the batches complete in and whatever calls have to be repeated, a
settlement that succeeds is the exact one; the loaders agree whenever both succeed, and
they succeed together when the upstream answers both. -/
theorem settleWithLoader_deterministic (serial : SerialBalanceLoader)
    (concurrent : ConcurrentBalanceLoader) (hbackend : concurrent.backend = serial.backend)
    (hbatch : concurrent.batchSize = serial.batchSize) {pageSize : Nat} (hsize : 0 < pageSize)
    (blockHeight : Nat) (s : IndexerState) (failed : Nat → Bool)
    (calls : Nat → Nat → Option RpcFault) (pick : Nat → Nat) :
    (∀ settlement t,
      settleWithLoader (serial.loadBalances failed) pageSize blockHeight s = .ok settlement t →
        SettledExactly serial.backend serial.batchSize blockHeight s.passStorage settlement) ∧
    (∀ settlement t,
      settleWithLoader (concurrent.loadBalances calls pick) pageSize blockHeight s =
          .ok settlement t →
        SettledExactly serial.backend serial.batchSize blockHeight s.passStorage settlement) ∧
    (∀ settlement settlement' t t',
      settleWithLoader (serial.loadBalances failed) pageSize blockHeight s = .ok settlement t →
      settleWithLoader (concurrent.loadBalances calls pick) pageSize blockHeight s =
          .ok settlement' t' →
        settlement = settlement' ∧ t = t') ∧
    (∀ calls' pick' settlement settlement' t t',
      settleWithLoader (concurrent.loadBalances calls pick) pageSize blockHeight s =
          .ok settlement t →
      settleWithLoader (concurrent.loadBalances calls' pick') pageSize blockHeight s =
          .ok settlement' t' →
        settlement = settlement' ∧ t = t') ∧
    ((∀ batchIndex, failed batchIndex = false) → concurrent.Answered calls →
      ∀ settlement t,
        settleWithLoader (serial.loadBalances failed) pageSize blockHeight s = .ok settlement t ↔
          settleWithLoader (concurrent.loadBalances calls pick) pageSize blockHeight s =
            .ok settlement t) := by
  have hserial := serialLoads serial failed
  have hconcurrent : ∀ calls pick,
      Loads serial.backend serial.batchSize (concurrent.loadBalances calls pick) := by
    intro calls pick
    rw [← hbackend, ← hbatch]
    exact concurrentLoads concurrent calls pick
  refine ⟨fun _ _ h => hserial.exact hsize h, fun _ _ h => (hconcurrent _ _).exact hsize h,
    fun _ _ _ _ h h' => hserial.agree (hconcurrent _ _) h h',
    fun _ _ _ _ _ _ h h' => (hconcurrent _ _).agree (hconcurrent _ _) h h', ?_⟩
  intro hfailed hcalls settlement t
  exact ⟨hserial.transfer (hconcurrent _ _)
      (fun owners => (loadBalances_ok_iff hbackend hbatch hfailed hcalls pick).mp),
    (hconcurrent _ _).transfer hserial
      (fun owners => (loadBalances_ok_iff hbackend hbatch hfailed hcalls pick).mpr)⟩

section TwoBatches

/-- Two Active passes, the older one of the owner with the larger script hash. -/
def twoPasses : IndexerState where
  passStorage := { MinerPassStorage.empty with
    passStateHistory :=
      [{ id := 1, inscriptionId := ⟨10, 0⟩, blockHeight := 100, eventType := .mint
         prevState := none, newState := .Active, prevOwner := none, newOwner := 200
         prevSatpoint := none, newSatpoint := ⟨⟨10, 0⟩, 0⟩ },
       { id := 2, inscriptionId := ⟨11, 0⟩, blockHeight := 110, eventType := .mint
         prevState := none, newState := .Active, prevOwner := none, newOwner := 100
         prevSatpoint := none, newSatpoint := ⟨⟨11, 0⟩, 0⟩ }]
    nextHistoryId := 3 }
  energyStorage := PassEnergyStorage.empty
  inscriptions := fun _ => []
  stagedBlocks := []
  currentBlockCollector := none
  log := []
  faults := []

/-- The owner 100 changed at the height 120, and the owner 200 before it. -/
def twoAnswers : BalanceRpcBackend where
  getAddressesBalances := fun batch _ => batch.map (fun owner =>
    if owner = 100 then [⟨120, 5000, 300⟩] else [⟨90, 7000, 40⟩])

def oneByOne : SerialBalanceLoader := ⟨twoAnswers, 1, by decide⟩

def twoAtOnce : ConcurrentBalanceLoader := ⟨twoAnswers, 1, 2, 1000, 1, by decide, by decide, by decide⟩

def twoRows : ActiveBalanceSettlement where
  snapshot := { blockHeight := 120, totalBalance := 12000, activeAddressCount := 2 }
  activePassBalances := [⟨⟨11, 0⟩, 100, 120, 5000, 300⟩, ⟨⟨10, 0⟩, 200, 120, 7000, 0⟩]

/-- The second batch is done first, and the first one times out once. -/
theorem settleWithLoader_deterministic_twoBatches :
    SettledExactly twoAnswers 1 120 twoPasses.passStorage twoRows :=
  (settleWithLoader_deterministic oneByOne twoAtOnce rfl rfl (Nat.le_refl 1) 120
    twoPasses (fun _ => false)
    (fun batchIndex attempt => if batchIndex = 0 ∧ attempt = 1 then some .timedOut else none)
    (fun _ => 1)).2.1 twoRows _ rfl

end TwoBatches

end BalanceMonitor

end Usdb
