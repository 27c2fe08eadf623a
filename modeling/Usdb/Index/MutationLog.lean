import Usdb.Index.PassInvariant

namespace Usdb

open Framework MinerPassStorage MinerPassManager InscriptionIndexer

namespace PassBlockMutation

/-- The row a mutation makes of the pass it names, which it finds with the state, owner
and satpoint it has on record. -/
def change (p : MinerPassInfo) : PassBlockMutation → Option MinerPassInfo
  | .Mint .. => none
  | .InvalidMint .. => none
  | .StateTransition _ fromState toState owner satpoint =>
    if p.state = fromState ∧ p.owner = owner ∧ p.satpoint = satpoint then
      some { p with state := toState } else none
  | .OwnerTransfer _ state fromOwner toOwner fromSatpoint toSatpoint =>
    if p.state = state ∧ p.owner = fromOwner ∧ p.satpoint = fromSatpoint then
      some { p with owner := toOwner, satpoint := toSatpoint } else none
  | .SatpointUpdate _ state owner fromSatpoint toSatpoint =>
    if p.state = state ∧ p.owner = owner ∧ p.satpoint = fromSatpoint then
      some { p with satpoint := toSatpoint } else none

/-- The row a mint adds at a height. -/
def minted (height : Nat) : PassBlockMutation → Option MinerPassInfo
  | .Mint inscriptionId inscriptionNumber mintOwner satpoint ethMain ethCollab prev => some
    { inscriptionId, inscriptionNumber, mintTxid := satpoint.outpoint.txid
      mintBlockHeight := height, mintOwner, satpoint, ethMain, ethCollab, prev, invalidCode := none
      invalidReason := none, owner := mintOwner, state := .Active }
  | .InvalidMint inscriptionId inscriptionNumber mintOwner satpoint errorCode errorReason => some
    { inscriptionId, inscriptionNumber, mintTxid := satpoint.outpoint.txid
      mintBlockHeight := height, mintOwner, satpoint, ethMain := "", ethCollab := none, prev := []
      invalidCode := some errorCode, invalidReason := some errorReason, owner := mintOwner
      state := .Invalid }
  | _ => none

def inscriptionId : PassBlockMutation → InscriptionId
  | .Mint id .. => id
  | .InvalidMint id .. => id
  | .StateTransition id .. => id
  | .OwnerTransfer id .. => id
  | .SatpointUpdate id .. => id

/-- What a mutation alone says about the table of passes after it. A mint needs a fresh id,
any other mutation a row that matches it. -/
def replay (height : Nat) (rows : List MinerPassInfo) (m : PassBlockMutation) :
    Option (List MinerPassInfo) :=
  match m.minted height, lookup (·.inscriptionId) m.inscriptionId rows with
  | some info, none => some (rows ++ [info])
  | some _, some _ => none
  | none, none => none
  | none, some p =>
    (m.change p).map (fun q => modifyRow (·.inscriptionId) m.inscriptionId (fun _ => q) rows)

/-- The history row that belongs to a mutation. -/
def historyRow (height : Nat) (id : Nat) : PassBlockMutation → PassHistoryRow
  | .Mint inscriptionId _ mintOwner satpoint _ _ _ =>
    { id, inscriptionId, blockHeight := height, eventType := .mint, prevState := none
      newState := .Active, prevOwner := none, newOwner := mintOwner, prevSatpoint := none
      newSatpoint := satpoint }
  | .InvalidMint inscriptionId _ mintOwner satpoint _ _ =>
    { id, inscriptionId, blockHeight := height, eventType := .invalidMint, prevState := none
      newState := .Invalid, prevOwner := none, newOwner := mintOwner, prevSatpoint := none
      newSatpoint := satpoint }
  | .StateTransition inscriptionId fromState toState owner satpoint =>
    { id, inscriptionId, blockHeight := height, eventType := .stateUpdate
      prevState := some fromState, newState := toState, prevOwner := some owner, newOwner := owner
      prevSatpoint := some satpoint, newSatpoint := satpoint }
  | .OwnerTransfer inscriptionId state fromOwner toOwner fromSatpoint toSatpoint =>
    { id, inscriptionId, blockHeight := height, eventType := .ownerTransfer
      prevState := some state, newState := state, prevOwner := some fromOwner, newOwner := toOwner
      prevSatpoint := some fromSatpoint, newSatpoint := toSatpoint }
  | .SatpointUpdate inscriptionId state owner fromSatpoint toSatpoint =>
    { id, inscriptionId, blockHeight := height, eventType := .satpointUpdate
      prevState := some state, newState := state, prevOwner := some owner, newOwner := owner
      prevSatpoint := some fromSatpoint, newSatpoint := toSatpoint }

end PassBlockMutation

/-- A mutation stream accounts for everything that was done to the passes between two
contents of the database: replayed over the old table it gives the new one, and each
mutation has its own history row. -/
structure Replayed (height : Nat) (stream : List PassBlockMutation) (ps ps' : MinerPassStorage) :
    Prop where
  rows : stream.foldlM (PassBlockMutation.replay height) ps.minerPasses = some ps'.minerPasses
  history : ps'.passStateHistory = ps.passStateHistory ++
    stream.mapIdx (fun i m => m.historyRow height (ps.nextHistoryId + i))
  nextId : ps'.nextHistoryId = ps.nextHistoryId + stream.length

namespace Replayed

variable {height : Nat} {ps ps' ps'' : MinerPassStorage} {ms ms' : List PassBlockMutation}
  {id : InscriptionId} {p : MinerPassInfo}

theorem refl (ps : MinerPassStorage) : Replayed height [] ps ps :=
  ⟨rfl, by simp, rfl⟩

theorem trans (h : Replayed height ms ps ps') (h' : Replayed height ms' ps' ps'') :
    Replayed height (ms ++ ms') ps ps'' := by
  refine ⟨?_, ?_, ?_⟩
  · rw [List.foldlM_append, h.rows]
    exact h'.rows
  · rw [h'.history, h.history, h.nextId, List.mapIdx_append, List.append_assoc]
    simp only [Nat.add_assoc, Nat.add_comm ms.length]
  · rw [h'.nextId, h.nextId, List.length_append, Nat.add_assoc]

/-- A mint is replayed from its own mutation. -/
theorem mint {m : PassBlockMutation} {info : MinerPassInfo} {event : PassHistoryEvent}
    (hc : ConstraintsHold (ps.minerPasses ++ [info])) (hm : m.minted height = some info)
    (hid : m.inscriptionId = info.inscriptionId)
    (hrow : m.historyRow height ps.nextHistoryId =
      { id := ps.nextHistoryId, inscriptionId := info.inscriptionId, blockHeight := height
        eventType := event, prevState := none, newState := info.state, prevOwner := none
        newOwner := info.owner, prevSatpoint := none, newSatpoint := info.satpoint }) :
    Replayed height [m] ps (ps.addRow info height event) := by
  have hfresh : lookup (·.inscriptionId) m.inscriptionId ps.minerPasses = none := by
    rw [hid]
    exact getPassByInscriptionId_fresh hc
  refine ⟨?_, ?_, rfl⟩
  · rw [List.foldlM_cons, PassBlockMutation.replay, hm, hfresh]
    rfl
  · rw [List.mapIdx_cons, Nat.add_zero, hrow]
    rfl

/-- A change of one pass is replayed from its own mutation. -/
theorem change {m : PassBlockMutation} {q : MinerPassInfo} {event : PassHistoryEvent}
    (hp : ps.getPassByInscriptionId id = some p) (hm : m.minted height = none)
    (hid : m.inscriptionId = id) (hchange : m.change p = some q)
    (hrow : m.historyRow height ps.nextHistoryId =
      { id := ps.nextHistoryId, inscriptionId := id, blockHeight := height, eventType := event
        prevState := some p.state, newState := q.state, prevOwner := some p.owner
        newOwner := q.owner, prevSatpoint := some p.satpoint, newSatpoint := q.satpoint }) :
    Replayed height [m] ps (ps.changeRow id height event p q) := by
  have hfound : lookup (·.inscriptionId) m.inscriptionId ps.minerPasses = some p := by
    rw [hid]
    exact hp
  refine ⟨?_, ?_, rfl⟩
  · rw [List.foldlM_cons, PassBlockMutation.replay, hm, hfound]
    dsimp only
    rw [hchange, hid]
    rfl
  · rw [List.mapIdx_cons, Nat.add_zero, hrow]
    rfl

theorem state {before next : MinerPassState} (hp : ps.getPassByInscriptionId id = some p)
    (hs : p.state = before) :
    Replayed height [.StateTransition id before next p.owner p.satpoint] ps
      (ps.changeRow id height .stateUpdate p { p with state := next }) := by
  subst hs
  exact change hp rfl rfl (if_pos ⟨rfl, rfl, rfl⟩) rfl

theorem transfer (hp : ps.getPassByInscriptionId id = some p) (owner : USDBScriptHash)
    (satpoint : SatPoint) :
    Replayed height [.OwnerTransfer id p.state p.owner owner p.satpoint satpoint] ps
      (ps.changeRow id height .ownerTransfer p { p with owner, satpoint }) :=
  change hp rfl rfl (if_pos ⟨rfl, rfl, rfl⟩) rfl

theorem satpoint (hp : ps.getPassByInscriptionId id = some p) (satpoint : SatPoint) :
    Replayed height [.SatpointUpdate id p.state p.owner p.satpoint satpoint] ps
      (ps.changeRow id height .satpointUpdate p { p with satpoint }) :=
  change hp rfl rfl (if_pos ⟨rfl, rfl, rfl⟩) rfl

end Replayed

/-- What was done to the passes between two states was pushed to the collector. -/
def Logged (height : Nat) (s t : IndexerState) : Prop :=
  ∃ ms, t.currentBlockCollector = s.currentBlockCollector.map (fun c =>
      { c with mutations := c.mutations ++ ms }) ∧
    Replayed height ms s.passStorage t.passStorage

namespace Logged

variable {height : Nat} {s t r : IndexerState} {m : PassBlockMutation}

theorem of_frame (hc : t.currentBlockCollector = s.currentBlockCollector)
    (hps : t.passStorage = s.passStorage) : Logged height s t := by
  refine ⟨[], ?_, ?_⟩
  · rw [hc]
    simp
  · rw [hps]
    exact .refl _

theorem trans (h : Logged height s t) (h' : Logged height t r) : Logged height s r := by
  obtain ⟨ms, hc, hr⟩ := h
  obtain ⟨ms', hc', hr'⟩ := h'
  refine ⟨ms ++ ms', ?_, hr.trans hr'⟩
  rw [hc', hc, Option.map_map]
  simp only [Function.comp_def, List.append_assoc]

theorem push (hc : t.currentBlockCollector = s.pushed m)
    (hr : Replayed height [m] s.passStorage t.passStorage) : Logged height s t :=
  ⟨[m], hc, hr⟩

end Logged

namespace MinerPassManager

open PassEnergyManager

variable {s t : IndexerState} {u : Unit} {provider : BalanceProvider} {height : Nat}
  {id : InscriptionId}

theorem dormantLastPass_logged {mint : PassMintInscriptionInfo}
    (h : dormantLastPass provider mint s = .ok u t) : Logged mint.mintBlockHeight s t := by
  rcases dormantLastPass_ok h with ⟨-, fs, rfl⟩ | ⟨last, fs, -, hlast, hactive, -, hdorm⟩
  · exact .of_frame rfl rfl
  · obtain ⟨e, fs', rfl⟩ := onPassDormant_frame hdorm
    exact .push rfl (.state hlast hactive)

theorem consumePass_logged {energy : Nat} (h : consumePass id height s = .ok energy t) :
    Logged height s t := by
  obtain ⟨p, fs, hp, hdormant, -, -, rfl⟩ := consumePass_ok h
  exact .push rfl (.state hp hdormant)

theorem inheritPrev_logged {mint : PassMintInscriptionInfo} {inherited total : Nat}
    {prev : List InscriptionId} (h : inheritPrev mint inherited prev s = .ok total t) :
    Logged mint.mintBlockHeight s t := by
  induction prev generalizing s inherited with
  | nil =>
    cases h
    exact .of_frame rfl rfl
  | cons id rest ih =>
    rcases inheritPrev_cons_ok h with ⟨-, fs, h⟩ | ⟨-, fs, energy, s₁, hcons, h⟩
    · have hskip : Logged mint.mintBlockHeight s (s.withFaults fs) := .of_frame rfl rfl
      exact hskip.trans (ih h)
    · have hread : Logged mint.mintBlockHeight s (s.withFaults fs) := .of_frame rfl rfl
      exact (hread.trans (consumePass_logged hcons)).trans (ih h)

theorem onMintPass_logged {mint : PassMintInscriptionInfo}
    (htxid : mint.mintTxid = mint.satpoint.outpoint.txid)
    (h : onMintPass provider mint s = .ok u t) : Logged mint.mintBlockHeight s t := by
  obtain ⟨s₁, fs, inherited, s₂, hdorm, hc, hinh, hnew⟩ := onMintPass_ok h
  obtain ⟨balance, fs', -, rfl⟩ := onNewPass_ok hnew
  have hminted : (PassBlockMutation.Mint mint.inscriptionId mint.inscriptionNumber mint.mintOwner
      mint.satpoint mint.ethMain mint.ethCollab mint.prev).minted mint.mintBlockHeight =
      some (newMintPassInfo mint) := by
    unfold newMintPassInfo
    rw [htxid]
    rfl
  have hadd : Logged mint.mintBlockHeight s₁ { s₁ with
      passStorage := s₁.passStorage.addRow (newMintPassInfo mint) mint.mintBlockHeight .mint
      currentBlockCollector := s₁.pushed (.Mint mint.inscriptionId mint.inscriptionNumber
        mint.mintOwner mint.satpoint mint.ethMain mint.ethCollab mint.prev)
      faults := fs } :=
    .push rfl (.mint hc hminted rfl rfl)
  have hrest : Logged mint.mintBlockHeight s₂ _ := .of_frame rfl rfl
  exact (((dormantLastPass_logged hdorm).trans hadd).trans (inheritPrev_logged hinh)).trans hrest

theorem onInvalidMintPass_logged {item : InvalidPassMintInscriptionInfo}
    (htxid : item.mintTxid = item.satpoint.outpoint.txid)
    (h : onInvalidMintPass item s = .ok u t) : Logged item.mintBlockHeight s t := by
  obtain ⟨fs, hc, rfl⟩ := onInvalidMintPass_ok h
  refine .push rfl (.mint hc ?_ rfl rfl)
  unfold invalidMintPassInfo
  rw [htxid]
  rfl

theorem onPassTransfer_logged {owner : USDBScriptHash} {satpoint : SatPoint}
    (h : onPassTransfer provider id owner satpoint height s = .ok u t) : Logged height s t := by
  obtain ⟨pass, s₁, hpass, hcaught, h⟩ := onPassTransfer_ok h
  obtain ⟨e, fs₁, rfl⟩ := hcaught.frame
  rcases h with ⟨-, p, fs, hp, -, -, rfl⟩ | ⟨-, hmove⟩
  · obtain rfl : pass = p := Option.some.inj (hpass.symm.trans hp)
    exact .push rfl (.satpoint hpass satpoint)
  · rcases moveToNewOwner_ok hmove with
      ⟨hactive, s₂, p, fs, hdorm, hp, -, -, -, rfl⟩ | ⟨-, p, fs, hp, -, rfl⟩
    · obtain ⟨e', fs₂, rfl⟩ := onPassDormant_frame hdorm
      obtain rfl : pass = p := Option.some.inj (hpass.symm.trans hp)
      have hfreeze : Replayed height [.StateTransition id .Active .Dormant pass.owner pass.satpoint]
          s.passStorage (s.passStorage.changeRow id height .stateUpdate pass
            { pass with state := .Dormant }) := .state hpass hactive
      have hfrozen : (s.passStorage.changeRow id height .stateUpdate pass
          { pass with state := .Dormant }).getPassByInscriptionId id =
          some { pass with state := .Dormant } := by
        rw [changeRow, getPassByInscriptionId_append, getPassByInscriptionId_setRow hpass (by rfl),
          if_pos rfl]
      refine ⟨_, ?_, hfreeze.trans (.transfer hfrozen owner satpoint)⟩
      simp only [IndexerState.pushed, Option.map_map, Function.comp_def,
        PassBlockMutationCollector.push, List.append_assoc]
    · obtain rfl : pass = p := Option.some.inj (hpass.symm.trans hp)
      exact .push rfl (.transfer hpass owner satpoint)

theorem onPassBurned_logged (h : onPassBurned provider id height s = .ok u t) :
    Logged height s t := by
  obtain ⟨pass, s₁, hpass, hcaught, p, fs, hp, -, -, rfl⟩ := onPassBurned_ok h
  obtain ⟨e, fs₁, rfl⟩ := hcaught.frame
  obtain rfl : pass = p := Option.some.inj (hpass.symm.trans hp)
  exact .push rfl (.state hpass rfl)

end MinerPassManager

namespace BlockEventExecutor

variable {s t : IndexerState} {u : Unit} {provider : BalanceProvider}

theorem executeEvent_logged {event : BlockProcessEvent}
    (h : executeEvent provider event s = .ok u t) : Logged event.height s t := by
  cases event with
  | Mint item => exact onMintPass_logged (by rfl) h
  | Transfer item =>
    simp only [executeEvent] at h
    cases ha : item.toAddress with
    | some addr =>
      rw [ha] at h
      exact onPassTransfer_logged h
    | none =>
      rw [ha] at h
      exact onPassBurned_logged h

theorem execute_logged {events : List BlockProcessEvent} {height : Nat}
    (hh : ∀ event ∈ events, event.height = height)
    (h : execute provider events s = .ok u t) : Logged height s t := by
  induction events generalizing s with
  | nil =>
    cases h
    exact .of_frame rfl rfl
  | cons event rest ih =>
    obtain ⟨_, s₁, hev, h⟩ := bind_eq_ok h
    have hstep := executeEvent_logged hev
    rw [hh event (by simp)] at hstep
    exact hstep.trans (ih (fun e he => hh e (by simp [he])) h)

end BlockEventExecutor

namespace InscriptionIndexer

variable {s t : IndexerState} {u : Unit} {cfg : IndexerConfig} {env : BlockEnv} {height : Nat}

theorem processInvalidMints_logged {items : List InvalidPassMintInscriptionInfo}
    (hh : ∀ item ∈ items, item.mintBlockHeight = height ∧
      item.mintTxid = item.satpoint.outpoint.txid)
    (h : processInvalidMints items s = .ok u t) : Logged height s t := by
  induction items generalizing s with
  | nil =>
    cases h
    exact .of_frame rfl rfl
  | cons item rest ih =>
    obtain ⟨_, s₁, hmint, h⟩ := bind_eq_ok h
    obtain ⟨hheight, htxid⟩ := hh item (by simp)
    have hstep := onInvalidMintPass_logged htxid hmint
    rw [hheight] at hstep
    exact hstep.trans (ih (fun i hi => hh i (by simp [hi])) h)

/-- An invalid mint is made by the transaction that holds it. -/
theorem collectBlockInscriptionMints_txid {mints : CollectedMintItems}
    (h : collectBlockInscriptionMints env height s = .ok mints t) :
    ∀ item ∈ mints.invalidItems, item.mintTxid = item.satpoint.outpoint.txid := by
  obtain ⟨_, _, -, h⟩ := bind_eq_ok h
  obtain ⟨candidates, _, -, h⟩ := bind_eq_ok h
  obtain ⟨invalid, _, hinv, h⟩ := bind_eq_ok h
  cases h
  intro item hitem
  simp only [List.mem_append, List.mem_map, List.mem_filter] at hitem
  rcases hitem with ⟨c, -, rfl⟩ | hitem
  · rfl
  · obtain ⟨mint, -, info, address, rfl⟩ := loadMints_mem hinv item hitem
    rfl

/-- What a block has done to the passes when it is finalized is in its collector. -/
theorem AppliedBlock.logged (run : AppliedBlock cfg env height s) :
    Logged height (begun s height run.working run.begunFaults) run.applied := by
  have hexec := BlockEventExecutor.execute_logged run.event_height run.execution
  have hinvalid := processInvalidMints_logged (fun item hi =>
    ⟨(collectBlockInscriptionMints_heights run.collected).2 item hi,
      collectBlockInscriptionMints_txid run.collected item hi⟩) run.invalidated
  obtain ⟨_, _, _, _, fs, -, -, -, -, hsettled⟩ :=
    BalanceMonitor.settleActiveBalanceWithDetails_ok run.settling
  obtain ⟨e, fs', happlied⟩ := applyEnergyChanges_frame run.applying
  obtain ⟨ms, hc, hr⟩ := hexec.trans hinvalid
  rw [happlied, hsettled]
  exact ⟨ms, hc, ⟨hr.rows, hr.history, hr.nextId⟩⟩

/-- Every block that is applied leaves a mutation stream that accounts for all it did to
the passes; and when it becomes durable, its commit is over that stream. -/
theorem syncUntilFinalized_mutations (cfg : IndexerConfig) (env : BlockEnv) (height : Nat)
    (s r : IndexerState) (h : syncUntilFinalized cfg env height s = .ok () r) :
    ∃ collector, r.currentBlockCollector = some collector ∧ collector.blockHeight = height ∧
      Replayed height collector.mutations s.passStorage r.passStorage ∧
      ∀ t, syncBlockDurably cfg env height s = .ok () t →
        Replayed height collector.mutations s.passStorage t.passStorage ∧
          ∃ entry, t.passStorage.getPassBlockCommit height = some entry ∧
            entry.mutationRoot = collector.mutationRoot cfg.hash := by
  obtain ⟨run, fs, rfl⟩ := syncUntilFinalized_ok h
  obtain ⟨ms, hc, hr⟩ := run.logged
  have hr' : Replayed height ms s.passStorage run.applied.passStorage := hr
  refine ⟨_, hc, rfl, hr', fun t ht => ?_⟩
  obtain ⟨durable⟩ := syncBlockDurably_ok ht
  obtain ⟨fs', hdurable⟩ := durable.finalizing
  have happlied := (EStateM.Result.ok.inj (h.symm.trans hdurable)).2
  have hcollector := congrArg IndexerState.currentBlockCollector happlied
  have hps := congrArg IndexerState.passStorage happlied
  dsimp only at hcollector hps
  have hstream := hc.symm.trans (hcollector.trans durable.collecting)
  have hentry := (PassBlockMutationCollector.buildCommitEntry_ok durable.commit).2.1
  rw [← Option.some.inj hstream] at hentry
  rw [durable.final, ← hps]
  refine ⟨⟨hr'.rows, hr'.history, hr'.nextId⟩, durable.entry, ?_, hentry⟩
  show lookup (·.blockHeight) height (upsert (·.blockHeight) durable.entry _) = _
  rw [lookup_upsert, if_pos durable.entry_height.symm]

end InscriptionIndexer

namespace Sample

/-- The indexer after owner 7 has minted. -/
def afterMint : IndexerState :=
  ((mintAndMove.take 2).foldl (World.next config) World.initial).indexer

/-- Owner 7 sends the pass to owner 8 and mints again. -/
def moveAndMint : BlockEnv :=
  env .empty 2 [payment 2 ⟨1, 0⟩ 8, payment 3 ⟨0, 1⟩ 7] [mint 3 []]

end Sample

/-- The pass that leaves its owner is frozen, moved, and followed by the new mint. -/
theorem InscriptionIndexer.syncUntilFinalized_mutations_moveAndMint :
    ∃ r collector, syncUntilFinalized Sample.config Sample.moveAndMint 2 Sample.afterMint =
        .ok () r ∧ r.currentBlockCollector = some collector ∧
      collector.mutations = [.StateTransition ⟨1, 0⟩ .Active .Dormant 7 ⟨⟨1, 0⟩, 0⟩,
        .OwnerTransfer ⟨1, 0⟩ .Dormant 7 8 ⟨⟨1, 0⟩, 0⟩ ⟨⟨2, 0⟩, 0⟩,
        .Mint ⟨3, 0⟩ 0 7 ⟨⟨3, 0⟩, 0⟩ "" none []] ∧
      Replayed 2 collector.mutations Sample.afterMint.passStorage r.passStorage := by
  have hstream : (okState (syncUntilFinalized Sample.config Sample.moveAndMint 2
      Sample.afterMint)).bind (fun r => r.currentBlockCollector.map (·.mutations)) =
      some [.StateTransition ⟨1, 0⟩ .Active .Dormant 7 ⟨⟨1, 0⟩, 0⟩,
        .OwnerTransfer ⟨1, 0⟩ .Dormant 7 8 ⟨⟨1, 0⟩, 0⟩ ⟨⟨2, 0⟩, 0⟩,
        .Mint ⟨3, 0⟩ 0 7 ⟨⟨3, 0⟩, 0⟩ "" none []] := by decide +kernel
  obtain ⟨r, hok, hmutations⟩ := Option.bind_eq_some_iff.mp hstream
  obtain ⟨_, hr⟩ := okState_eq_some hok
  obtain ⟨collector, hc, -, hreplayed, -⟩ := syncUntilFinalized_mutations _ _ _ _ r hr
  rw [hc] at hmutations
  exact ⟨r, collector, hr, hc, Option.some.inj hmutations, hreplayed⟩

end Usdb
