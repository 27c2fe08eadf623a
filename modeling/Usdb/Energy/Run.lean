import Usdb.Energy.Round

namespace Usdb

open Framework MinerPassStorage PassEnergyStorage PassEnergyManager InscriptionIndexer

/-- The range query of the balance service answers from within the range. -/
def BalanceProvider.AnswersInRange (provider : BalanceProvider) : Prop :=
  ∀ address first last row, row ∈ provider.getBalanceAtRange address first last →
    first ≤ row.blockHeight ∧ row.blockHeight < last

theorem statesOnly_served {provider : BalanceProvider} (h : provider.AnswersInRange)
    (height : Nat) : statesOnly.Served provider height where
  inRange := h
  minted := fun _ _ _ => trivial
  caughtUp := fun _ _ _ _ _ _ _ => ⟨fun _ _ => trivial, trivial⟩
  settled := fun _ _ _ _ _ _ _ _ _ _ _ _ => trivial
  still := fun _ _ _ _ _ _ hd => hd

/-- A way to keep the books: the accounting a balance history asks for, and what has to
hold of a block, of the histories before and after it, and of the passes it finds. -/
structure BooksRule where
  scheme : BalanceHistory → Scheme
  admits : BlockEnv → BalanceHistory → BalanceHistory → MinerPassStorage → Nat → Prop
  served : ∀ env bh old ps height, admits env bh old ps height →
    (scheme bh).Served env.provider (height + 1)
  renew : ∀ env bh old ps height log e, admits env bh old ps height →
    Ledger (scheme old) ps log e height → Ledger (scheme bh) ps log e height
  revert : ∀ env bh old ps height log e, admits env bh old ps height →
    Ledger (scheme bh) ps log e height → Ledger (scheme old) ps log e height

theorem BalanceHistory.ledger_congr {bh bh' : BalanceHistory} {height : Nat}
    {ps : MinerPassStorage} {log : List NewPassLog} {e : PassEnergyStorage}
    (h : bh.AgreesUpTo bh' height) (hl : Ledger bh.scheme ps log e height) :
    Ledger bh'.scheme ps log e height := by
  refine hl.congr (fun _ _ _ => rfl) (fun owner mint start r hr hentry => ?_)
    (fun owner mint start k energy hk hf => ?_) (fun owner mint start k hk hd => ?_)
  · obtain ⟨hm, howner, hbal, hacc⟩ := hentry
    refine ⟨hm, howner, ?_, ?_⟩
    · rw [hbal]
      exact bh.balanceAt_congr bh' owner r.blockHeight height h hr
    · rw [hacc]
      exact accruedAt_congr bh owner mint start bh' hr h
  · have hval : energy = (accruedAt bh owner mint start k).1 := hf
    show energy = (accruedAt bh' owner mint start k).1
    rw [hval, accruedAt_congr bh owner mint start bh' hk h]
  · have hdue : bh'.deltaAt owner k ≠ 0 := hd
    show bh.deltaAt owner k ≠ 0
    rw [bh.deltaAt_congr bh' owner k height h hk]
    exact hdue

theorem BalanceHistory.AgreesUpTo.symm {bh bh' : BalanceHistory} {height : Nat}
    (h : bh.AgreesUpTo bh' height) : bh'.AgreesUpTo bh height :=
  fun address k hk => (h address k hk).symm

/-- Without passes there is nothing an accounting could disagree about. -/
theorem Ledger.of_no_passes {scheme scheme' : Scheme} {ps : MinerPassStorage}
    {log : List NewPassLog} {e : PassEnergyStorage} {height : Nat} (hn : ps.minerPasses = [])
    (h : Ledger scheme ps log e height) : Ledger scheme' ps log e height := by
  refine ⟨h.absent, fun i p hp => ?_⟩
  unfold getPassByInscriptionId at hp
  rw [hn] at hp
  cases hp

namespace BooksRule

/-- Only the states are accounted for. -/
def states : BooksRule where
  scheme := fun _ => statesOnly
  admits := fun env _ _ _ _ => env.provider.AnswersInRange
  served := fun _ _ _ _ height h => statesOnly_served h (height + 1)
  renew := fun _ _ _ _ _ _ _ _ h => h
  revert := fun _ _ _ _ _ _ _ _ h => h

/-- Energies follow the balance history, which grows without changing the past that the
passes have seen. -/
def values : BooksRule where
  scheme := BalanceHistory.scheme
  admits := fun env bh old ps height => env.provider = bh.provider ∧
    (ps.minerPasses = [] ∨ bh.AgreesUpTo old height)
  served := fun env bh old ps height h => by
    rw [h.1]
    exact bh.scheme_served (height + 1)
  renew := fun _ _ _ _ _ _ _ h hl => by
    rcases h.2 with hn | hagrees
    · exact hl.of_no_passes hn
    · exact BalanceHistory.ledger_congr hagrees.symm hl
  revert := fun _ _ _ _ _ _ _ h hl => by
    rcases h.2 with hn | hagrees
    · exact hl.of_no_passes hn
    · exact BalanceHistory.ledger_congr hagrees hl

/-- The blocks of a run are what the rule asks for. -/
def Admits (rule : BooksRule) (cfg : IndexerConfig) (w : World) : Label → Prop
  | .block env balances _ =>
    rule.admits env balances w.balances w.indexer.passStorage (w.height cfg)
  | _ => True

end BooksRule

/-- A block attempt that fails past its energy finalize finds a recorded synced height that
is high enough. -/
def FailsSafely (lowest : Nat → Nat) (cfg : IndexerConfig) (w : World) : Label → Prop
  | .block env _ faults =>
    (∃ r, syncUntilFinalized cfg env (w.height cfg + 1) (w.indexer.withFaults faults) = .ok () r) →
    (∀ t, syncBlockDurably cfg env (w.height cfg + 1) (w.indexer.withFaults faults) ≠ .ok () t) →
      lowest (w.height cfg) ≤ w.indexer.passStorage.syncedBtcBlockHeight.getD 0
  | _ => True

/-- What a run keeps of the energy store. -/
structure EnergyInv (rule : BooksRule) (lowest : Nat → Nat) (cfg : IndexerConfig) (w : World) :
    Prop where
  books : Books (rule.scheme w.balances) (lowest (w.height cfg)) (w.height cfg) w.indexer
  below : w.phase = .syncing → w.indexer.energyStorage.RecordsBelow (w.height cfg)
  synced : SyncedInv cfg w.indexer.passStorage

theorem EnergyInv.initial {rule : BooksRule} {lowest : Nat → Nat} {cfg : IndexerConfig} :
    EnergyInv rule lowest cfg World.initial :=
  ⟨⟨Ledger.empty _ _ _, MaxBound.empty, fun _ hp => (by cases hp), fun _ hs => (by cases hs)⟩,
    fun hphase => (by cases hphase), SyncedInv.initial⟩

/-- The end of a round writes the pass database only. -/
theorem finishSync_energy (cfg : IndexerConfig) (height : Nat)
    (snapshot : BalanceHistorySnapshotInfo)
    (stateRefAtHeight : Nat → BalanceHistorySnapshotInfo) :
    Preserves (fun s : IndexerState => (s.energyStorage, s.log))
      (finishSync cfg height snapshot stateRefAtHeight) := by
  have hwrite : ∀ f, Preserves (fun s : IndexerState => (s.energyStorage, s.log)) (writePass f) :=
    writePass_preserves (fun _ _ => rfl) (fun _ _ => rfl)
  exact finishSync_preserves (fun _ _ => rfl) (fun _ => hwrite _) (fun _ => hwrite _) _ _ _

namespace World

variable {cfg : IndexerConfig} {w w' : World} {l : Label} {rule : BooksRule} {lowest : Nat → Nat}

theorem settle_indexer (w : World) (result : EStateM.Result IndexerError IndexerState Unit)
    (next failed : Phase) :
    (w.settle result next failed).indexer = (finalState result).withFaults [] := by
  unfold settle
  split <;> rfl

theorem settle_phase (w : World) {result : EStateM.Result IndexerError IndexerState Unit}
    {next failed : Phase} (hn : failed ≠ .syncing)
    (h : (w.settle result next failed).phase = .syncing) :
    next = .syncing ∧ ∃ u t, result = .ok u t := by
  cases result with
  | ok u t => exact ⟨h, u, t, rfl⟩
  | error e t =>
    cases e with
    | panic => cases h
    | _ => exact absurd h hn

/-- The two kinds of steps as the energy store sees them: a quiet one carries it along, a
block attempt leaves what is below it, whether the block becomes durable or not. -/
inductive EnergyStep (rule : BooksRule) (lowest : Nat → Nat) (cfg : IndexerConfig) (w : World) :
    Label → World → Prop
  | quiet (l : Label) (w' : World) (carried : Carried cfg lowest w.indexer w'.indexer)
      (committed : w'.committed = w.committed) (balances : w'.balances = w.balances)
      (below : w'.phase = .syncing →
        w'.indexer.energyStorage.RecordsBelow (w'.height cfg)) : EnergyStep rule lowest cfg w l w'
  | failed (env : BlockEnv) (balances : BalanceHistory) (faults : List IoResult) (w' : World)
      (low : LowKept (rule.scheme balances) (lowest (w.height cfg)) (w.height cfg) w.indexer
        w'.indexer.energyStorage)
      (log : ∀ i p, w.indexer.passStorage.getPassByInscriptionId i = some p →
        inheritedEnergy w'.indexer.log i = inheritedEnergy w.indexer.log i)
      (passes : w'.indexer.passStorage = w.indexer.passStorage)
      (committed : w'.committed = w.committed) (kept : w'.balances = w.balances)
      (phase : w'.phase ≠ .syncing) :
      EnergyStep rule lowest cfg w (.block env balances faults) w'
  | durable (env : BlockEnv) (balances : BalanceHistory) (faults : List IoResult)
      (t : IndexerState) (syncing : w.phase = .syncing)
      (low : LowKept (rule.scheme balances) (lowest (w.height cfg)) (w.height cfg) w.indexer
        t.energyStorage)
      (run : Nonempty (BlockRun cfg env (w.height cfg + 1) (w.indexer.withFaults faults) t)) :
      EnergyStep rule lowest cfg w (.block env balances faults)
        (w.committing (w.height cfg + 1) env.blockHint balances t)

section Step

variable (mono : Monotone lowest) (bound : ∀ h, lowest h ≤ h)

include bound

/-- A block attempt and what it leaves below its height. -/
theorem Step.block_abandoned {env : BlockEnv} {balances : BalanceHistory} {faults : List IoResult}
    (h : EnergyInv rule lowest cfg w) (hp : PassInv (fun _ => True) cfg w.indexer.passStorage)
    (admitted : rule.Admits cfg w (.block env balances faults)) (syncing : w.phase = .syncing)
    (safe : FailsSafely lowest cfg w (.block env balances faults))
    (hfailed : ∀ t,
      syncBlockDurably cfg env (w.height cfg + 1) (w.indexer.withFaults faults) ≠ .ok () t) :
    Attempt.Abandoned (rule.scheme balances) (lowest (w.height cfg)) (w.height cfg) w.indexer
      (finalState (syncBlockDurably cfg env (w.height cfg + 1) (w.indexer.withFaults faults))) := by
  have hledger := rule.renew env balances w.balances _ (w.height cfg) _ _ admitted h.books.ledger
  refine syncBlockDurably_abandoned (rule.served env balances w.balances _ _ admitted)
    hledger.absent h.synced.anchored ?_ (fun fs => ?_) (fun hr => safe hr hfailed)
  · exact Nat.le_trans (bound _) (Nat.le_succ _)
  · exact Attempt.refl h.books.bound (h.below syncing) h.books.pending h.books.synced
      (fun i p hi ha => Ledger.active_entries hledger hp.table hp.views hi ha) fs

omit bound in
/-- A quiet program, whatever it was started from in memory. -/
theorem EnergyStep.of_settle {w₀ : World} {result : EStateM.Result IndexerError IndexerState Unit}
    {next failed : Phase} (hc : w₀.committed = w.committed) (hb : w₀.balances = w.balances)
    (carried : Carried cfg lowest w.indexer (finalState result)) (hn : failed ≠ .syncing)
    (below : next = .syncing → ∀ u t, result = .ok u t →
      t.energyStorage.RecordsBelow (currentHeight cfg t.passStorage)) :
    EnergyStep rule lowest cfg w l (w₀.settle result next failed) := by
  obtain ⟨-, hcommitted, hbalances⟩ := settle_frame w₀ result next failed
  refine .quiet _ _ ?_ (hcommitted.trans hc) (hbalances.trans hb) (fun hphase => ?_)
  · rw [settle_indexer]
    exact ⟨carried.passes, carried.log, carried.energy⟩
  · obtain ⟨hnext, u, t, hok⟩ := settle_phase w₀ hn hphase
    subst hok
    exact below hnext u t rfl

include mono

theorem Step.prepare_energyStep {rollbackTarget : Option Nat} {faults : List IoResult}
    (h : EnergyInv rule lowest cfg w)
    (enabled : Enabled cfg w (.prepare rollbackTarget faults)) :
    EnergyStep rule lowest cfg w (.prepare rollbackTarget faults)
      (next cfg w (.prepare rollbackTarget faults)) := by
  have hstart : Carried cfg lowest w.indexer (w.indexer.withFaults faults) :=
    ⟨.refl, rfl, .refl h.books.bound h.books.pending h.books.synced⟩
  have hrange : ∀ target, rollbackTarget = some target →
      cfg.genesisBlockHeight - 1 ≤ target ∧ target ≤ currentHeight cfg w.indexer.passStorage := by
    intro target ht
    subst ht
    exact enabled.2.2
  have hprepare := Carried.prepareSync bound mono h.synced hrange
  refine EnergyStep.of_settle rfl rfl ?_ (by decide) (fun _ u t hok => ?_)
  · cases hx : prepareSync cfg rollbackTarget (w.indexer.withFaults faults) with
    | ok u t => exact (hprepare.ok ⟨hstart, rfl⟩ hx).1
    | error e t => exact hprepare.error ⟨hstart, rfl⟩ hx
  · exact (hprepare.ok ⟨hstart, rfl⟩ hok).2

omit bound in
theorem Step.finish_energyStep {snapshot : BalanceHistorySnapshotInfo}
    {stateRefAtHeight : Nat → BalanceHistorySnapshotInfo} {faults : List IoResult}
    (h : EnergyInv rule lowest cfg w)
    (enabled : Enabled cfg w (.finish snapshot stateRefAtHeight faults)) :
    EnergyStep rule lowest cfg w (.finish snapshot stateRefAtHeight faults)
      (next cfg w (.finish snapshot stateRefAtHeight faults)) := by
  have hquiet : QuietFrom cfg (w.indexer.withFaults faults).passStorage (finalState
      (finishSync cfg (w.height cfg) snapshot stateRefAtHeight (w.indexer.withFaults faults))) :=
    finishSync_quiet enabled.2
  have hparts := finishSync_energy cfg (w.height cfg) snapshot stateRefAtHeight
    (w.indexer.withFaults faults)
  have hle := currentHeight_quiet hquiet
  have hstart : Recoverable (lowest (w.height cfg)) (w.height cfg) w.indexer.energyStorage
      w.indexer.energyStorage := .refl h.books.bound h.books.pending h.books.synced
  refine EnergyStep.of_settle rfl rfl ⟨hquiet, congrArg Prod.snd hparts, ?_⟩ (by decide)
    (fun hnext => by cases hnext)
  rw [show (finalState (finishSync cfg (w.height cfg) snapshot stateRefAtHeight
    (w.indexer.withFaults faults))).energyStorage = w.indexer.energyStorage from
      congrArg Prod.fst hparts]
  exact hstart.mono (mono hle) hle

omit mono bound in
theorem Step.restart_energyStep {faults : List IoResult} (h : EnergyInv rule lowest cfg w) :
    EnergyStep rule lowest cfg w (.restart faults) (next cfg w (.restart faults)) := by
  have hreload : Preserves Attempt.stores InscriptionTransferTracker.reloadFromStorage :=
    InscriptionTransferTracker.reloadFromStorage_preserves (fun _ _ => rfl) (fun _ _ => rfl)
      (fun _ _ => rfl)
  have hstart : Carried cfg lowest w.indexer (w.indexer.afterRestart.withFaults faults) :=
    ⟨.refl, rfl, .refl h.books.bound h.books.pending h.books.synced⟩
  exact EnergyStep.of_settle rfl rfl ((Carried.of_stores hreload).run hstart) (by decide)
    (fun hnext => by cases hnext)

theorem Step.energyStep (h : EnergyInv rule lowest cfg w)
    (hp : PassInv (fun _ => True) cfg w.indexer.passStorage) (admitted : rule.Admits cfg w l)
    (safe : FailsSafely lowest cfg w l) (hs : Step cfg w l w') :
    EnergyStep rule lowest cfg w l w' := by
  obtain ⟨enabled, rfl⟩ := hs
  cases l with
  | prepare rollbackTarget faults => exact Step.prepare_energyStep mono bound h enabled
  | block env balances faults =>
    cases hb : syncBlockDurably cfg env (w.height cfg + 1) (w.indexer.withFaults faults) with
    | ok u t =>
      obtain ⟨run⟩ := syncBlockDurably_ok hb
      have hbooks : Books (rule.scheme balances) (lowest (w.height cfg)) (w.height cfg) w.indexer :=
        ⟨rule.renew env balances w.balances _ _ _ _ admitted h.books.ledger, h.books.bound,
          h.books.pending, h.books.synced⟩
      have hlow := (run.books hbooks (h.below enabled) hp.table hp.views
        (rule.served env balances w.balances _ _ admitted)
        (Nat.le_trans (bound _) (Nat.le_succ _))).2.2
      have hnext : next cfg w (.block env balances faults) =
          w.committing (w.height cfg + 1) env.blockHint balances t := by
        simp only [next, hb]
        rfl
      rw [hnext]
      exact .durable env balances faults t enabled hlow ⟨run⟩
    | error e t =>
      have habandoned := Step.block_abandoned bound h hp admitted enabled safe
        (fun t ht => by rw [hb] at ht; cases ht)
      rw [hb] at habandoned
      have hpass := syncBlockDurably_error_pass hb
      have hnext : next cfg w (.block env balances faults) = w.settle (.error e t) .syncing .idle := by
        simp only [next, hb]
        rfl
      have hframe := settle_frame w (.error e t) .syncing .idle
      rw [hnext]
      refine .failed env balances faults _ ?_ ?_ ?_ hframe.2.1 hframe.2.2 (fun hphase => ?_)
      · rw [settle_indexer]
        exact habandoned.energy
      · rw [settle_indexer]
        exact habandoned.log
      · rw [settle_indexer]
        exact hpass
      · obtain ⟨-, u, t', hok⟩ := settle_phase w (by decide) hphase
        cases hok
  | finish snapshot stateRefAtHeight faults => exact Step.finish_energyStep mono h enabled
  | restart faults => exact Step.restart_energyStep h

end Step

theorem EnergyStep.inv (bound : ∀ h, lowest h ≤ h) (h : EnergyInv rule lowest cfg w)
    (hp : PassInv (fun _ => True) cfg w.indexer.passStorage) (admitted : rule.Admits cfg w l)
    (hs : EnergyStep rule lowest cfg w l w') : EnergyInv rule lowest cfg w' := by
  cases hs with
  | quiet l w' carried committed balances below =>
    have hledger := h.books.ledger.quiet hp carried.passes
    refine ⟨⟨?_, carried.energy.bound, carried.energy.pending, carried.energy.synced⟩, below,
      h.synced.quiet carried.passes⟩
    rw [balances, carried.log]
    exact hledger.low carried.energy.low
  | failed env balances faults w' low log passes committed kept phase =>
    have hledger := rule.renew env balances w.balances _ (w.height cfg) _ _ admitted h.books.ledger
    have hheight : w'.height cfg = w.height cfg := congrArg (currentHeight cfg) passes
    refine ⟨?_, fun hphase => absurd hphase phase, by rw [passes]; exact h.synced⟩
    rw [hheight, kept]
    refine ⟨?_, low.bound, low.pending, low.synced⟩
    rw [passes]
    exact rule.revert env balances w.balances _ (w.height cfg) _ _ admitted
      (LowKept.ledger hledger hp.table hp.views low log)
  | durable env balances faults t syncing low run =>
    obtain ⟨run⟩ := run
    have hbooks : Books (rule.scheme balances) (lowest (w.height cfg)) (w.height cfg) w.indexer :=
      ⟨rule.renew env balances w.balances _ _ _ _ admitted h.books.ledger, h.books.bound,
        h.books.pending, h.books.synced⟩
    obtain ⟨hnew, hbelow, -⟩ := run.books hbooks (h.below syncing) hp.table hp.views
      (rule.served env balances w.balances _ _ admitted) (Nat.le_trans (bound _) (Nat.le_succ _))
    have hsynced : t.passStorage.syncedBtcBlockHeight = some (w.height cfg + 1) := by
      rw [run.passStorage_final]
      rfl
    have hgenesis : cfg.genesisBlockHeight - 1 ≤ w.height cfg := Nat.le_max_right _ _
    have hheight : (w.committing (w.height cfg + 1) env.blockHint balances t).height cfg =
        w.height cfg + 1 := run.currentHeight_eq
    refine ⟨?_, fun _ => by rw [hheight]; exact hbelow, fun k hk => ?_, fun hn => ?_, fun _ hn => ?_⟩
    · rw [hheight]
      exact ⟨hnew.ledger, hnew.bound, hnew.pending,
        fun k hk => Nat.le_trans (bound _) (hnew.synced k hk)⟩
    · have hk' : t.passStorage.syncedBtcBlockHeight = some k := hk
      rw [hsynced] at hk'
      cases hk'
      exact Nat.le_succ_of_le hgenesis
    · have hn' : t.passStorage.syncedBtcBlockHeight = none := hn
      rw [hsynced] at hn'
      cases hn'
    · have hn' : t.passStorage.syncedBtcBlockHeight = none := hn
      rw [hsynced] at hn'
      cases hn'

/-- In a run whose blocks a rule admits and whose failures are safe the books are kept. -/
theorem Reachable.energyInv {cond : World → Label → Prop} (mono : Monotone lowest)
    (bound : ∀ h, lowest h ≤ h)
    (hcond : ∀ w l, cond w l → rule.Admits cfg w l ∧ FailsSafely lowest cfg w l)
    (h : Reachable cfg cond w) : EnergyInv rule lowest cfg w := by
  have hboth := h.induct (P := fun w => EnergyInv rule lowest cfg w ∧
      PassInv (fun _ => True) cfg w.indexer.passStorage) ⟨.initial, .empty⟩
    (fun w l w' hi hc hs => by
      obtain ⟨hadmits, hsafe⟩ := hcond w l hc
      have hstep := Step.energyStep mono bound hi.1 hi.2 hadmits hsafe hs
      exact ⟨hstep.inv bound hi.1 hi.2 hadmits, hs.passInv hi.2⟩)
  exact hboth.1

end World

end Usdb
