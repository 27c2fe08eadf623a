import Usdb.Index.PassInvariant
import Usdb.Storage.PassLog

namespace Usdb

open Framework MinerPassStorage

namespace MinerPassStorage

/-- A call that writes a pass row together with its history event. -/
inductive PassCall where
  | addNewMintPass (info : MinerPassInfo)
  | addInvalidMintPass (info : MinerPassInfo)
  | updateState (id : InscriptionId) (newState prevState : MinerPassState)
  | transferOwner (id : InscriptionId) (newOwner : USDBScriptHash) (newSatpoint : SatPoint)
  | updateSatpoint (id : InscriptionId) (prevSatpoint newSatpoint : SatPoint)

def PassCall.atHeight (height : Nat) : PassCall → IndexerM Unit
  | .addNewMintPass info => addNewMintPassAtHeight info height
  | .addInvalidMintPass info => addInvalidMintPassAtHeight info height
  | .updateState id newState prevState => updateStateAtHeight id newState prevState height
  | .transferOwner id newOwner newSatpoint => transferOwnerAtHeight id newOwner newSatpoint height
  | .updateSatpoint id prevSatpoint newSatpoint =>
    updateSatpointAtHeight id prevSatpoint newSatpoint height

/-- What a caller that works its way up the chain does to the pass tables: a write at
the height it has come to or a later one, or a rollback, from which it goes on. -/
inductive CallStep : Nat × IndexerState → Nat × IndexerState → Prop
  | write (call : PassCall) {reached height : Nat} {s t : IndexerState} (faults : List IoResult)
      (later : reached ≤ height) (ok : call.atHeight height (s.withFaults faults) = .ok () t) :
      CallStep (reached, s) (height, t)
  | rollback {reached : Nat} {s : IndexerState} (target : Nat)
      (anchor : Option BalanceHistorySnapshotInfo) (mark : Bool) {ps : MinerPassStorage}
      (ok : s.passStorage.rollbackToBlockHeightInternal target anchor mark = .ok ps) :
      CallStep (reached, s) (min reached target, { s with passStorage := ps })

theorem PassCall.passLog {call : PassCall} {height : Nat} {s t : IndexerState} {u : Unit}
    (hl : PassLog s.passStorage height) (h : call.atHeight height s = .ok u t) :
    PassLog t.passStorage height := by
  cases call with
  | addNewMintPass info =>
    obtain ⟨-, -, hc, fs, rfl⟩ := addNewMintPassAtHeight_ok h
    exact hl.addRow hc
  | addInvalidMintPass info =>
    obtain ⟨-, -, hc, fs, rfl⟩ := addInvalidMintPassAtHeight_ok h
    exact hl.addRow hc
  | updateState id newState prevState =>
    obtain ⟨p, fs, hp, -, hc, rfl⟩ := updateStateAtHeight_ok h
    have hkey := getPassByInscriptionId_key hp
    exact hl.changeRow hkey hc
  | transferOwner id newOwner newSatpoint =>
    obtain ⟨p, fs, hp, hc, rfl⟩ := transferOwnerAtHeight_ok h
    have hkey := getPassByInscriptionId_key hp
    exact hl.changeRow hkey hc
  | updateSatpoint id prevSatpoint newSatpoint =>
    obtain ⟨p, fs, hp, -, hc, rfl⟩ := updateSatpointAtHeight_ok h
    have hkey := getPassByInscriptionId_key hp
    exact hl.changeRow hkey hc

theorem CallStep.passLog {c c' : Nat × IndexerState} (hl : PassLog c.2.passStorage c.1)
    (h : CallStep c c') : PassLog c'.2.passStorage c'.1 := by
  cases h with
  | write call faults later ok =>
    have hl : PassLog _ _ := hl.mono later
    exact PassCall.passLog (s := IndexerState.withFaults _ faults) hl ok
  | rollback target anchor mark ok => exact hl.rollback ok

theorem CallStep.run_passLog {c c' : Nat × IndexerState} (hl : PassLog c.2.passStorage c.1)
    (h : Relation.ReflTransGen CallStep c c') : PassLog c'.2.passStorage c'.1 := by
  induction h with
  | refl => exact hl
  | tail _ hstep ih => exact hstep.passLog ih

end MinerPassStorage

namespace World

open InscriptionIndexer

variable {cfg : IndexerConfig} {cond : World → Label → Prop} {w w' : World}

theorem QuietStep.passLog {ps ps' : MinerPassStorage} (hl : PassLog ps (currentHeight cfg ps))
    (h : QuietStep cfg ps ps') : PassLog ps' (currentHeight cfg ps') := by
  cases h with
  | cleared => exact hl.congr rfl rfl rfl
  | rolledBack target lower upper constraints =>
    have hh : currentHeight cfg (ps.rolledBack target true) = target := Nat.max_eq_left lower
    have hcut := hl.cut target true
    rw [Nat.min_eq_right upper] at hcut
    rw [hh]
    exact hcut
  | adopted anchor genesis =>
    have hl' := hl.mono (Nat.le_max_left _ (cfg.genesisBlockHeight - 1))
    exact hl'.congr rfl rfl rfl
  | backfilled anchor => exact hl.congr rfl rfl rfl

theorem QuietReach.passLog {ps ps' : MinerPassStorage} (hl : PassLog ps (currentHeight cfg ps))
    (h : QuietReach cfg ps ps') : PassLog ps' (currentHeight cfg ps') := by
  induction h with
  | refl => exact hl
  | tail _ hstep ih => exact QuietStep.passLog ih hstep

theorem Step.passLog {l : Label} (hl : PassLog w.indexer.passStorage (w.height cfg))
    (hs : Step cfg w l w') : PassLog w'.indexer.passStorage (w'.height cfg) := by
  rcases hs.quiet_or_block with ⟨hq, -⟩ | ⟨env, balances, faults, t, -, -, ⟨run⟩, rfl⟩
  · exact QuietReach.passLog hl hq
  · obtain ⟨ps, hreach, ht⟩ := run.passStorage_eq
      (BlockEventExecutor.eventsSatisfy_of_forall BlockEventExecutor.burnsOnly_true _ _)
    have hblock := (hl.mono (Nat.le_succ _)).reach hreach
    have hheight : (w.committing (w.height cfg + 1) env.blockHint balances t).height cfg =
        max (w.height cfg + 1) (cfg.genesisBlockHeight - 1) := by
      show currentHeight cfg t.passStorage = _
      rw [ht]
      rfl
    rw [hheight]
    have hmono := hblock.mono (Nat.le_max_left _ (cfg.genesisBlockHeight - 1))
    show PassLog t.passStorage _
    rw [ht]
    exact hmono.congr rfl rfl rfl

theorem Reachable.passLog (h : Reachable cfg cond w) :
    PassLog w.indexer.passStorage (w.height cfg) :=
  h.induct (P := fun w => PassLog w.indexer.passStorage (w.height cfg))
    (PassLog.empty.mono (Nat.zero_le _)) (fun _ _ _ hl _ hs => hs.passLog hl)

/-- In every world a run reaches, and after any further writes and rollbacks of the pass
tables from there, each pass row shows its last history row and both orders of the
queries select the same row at every height. -/
theorem Reachable.logAgrees (h : Reachable cfg (fun _ _ => True) w)
    {height : Nat} {s : IndexerState}
    (hcalls : Relation.ReflTransGen CallStep (w.height cfg, w.indexer) (height, s)) :
    LogAgrees s.passStorage := by
  have hlog := CallStep.run_passLog (c := (w.height cfg, w.indexer)) h.passLog hcalls
  exact hlog.agrees

/-- The first pass of owner 7 is back in its hands after a rollback of the block that
moved it. -/
theorem Reachable.logAgrees_mintAndMove :
    ∃ w ps, Reachable Sample.config (fun _ _ => True) w ∧
      w.indexer.passStorage.rollbackToBlockHeightInternal 1 none false = .ok ps ∧
      w.indexer.passStorage.minerPasses.map (fun p => (p.state, p.owner)) =
        [(.Dormant, 8), (.Active, 7)] ∧
      ps.minerPasses.map (fun p => (p.state, p.owner)) = [(.Active, 7)] ∧ LogAgrees ps := by
  have hrun : Reachable Sample.config (fun _ _ => True)
      (Sample.mintAndMove.foldl (next Sample.config) initial) :=
    Run.of_follows (.refl _)
      ⟨by decide +kernel, trivial, by decide +kernel, trivial, by decide +kernel, trivial, trivial⟩
  have hagrees : ∀ w ps, Reachable Sample.config (fun _ _ => True) w →
      w.indexer.passStorage.rollbackToBlockHeightInternal 1 none false = .ok ps → LogAgrees ps :=
    fun w ps hw hback => Reachable.logAgrees (s := { w.indexer with passStorage := ps }) hw
      (.single (.rollback 1 none false hback))
  have hback : ∀ w, Reachable Sample.config (fun _ _ => True) w →
      w.indexer.passStorage.rollbackToBlockHeightInternal 1 none false =
        .ok (w.indexer.passStorage.rolledBack 1 false) :=
    fun w hw => rollbackToBlockHeightInternal_eq hw.passInv.table hw.passInv.unique
  refine ⟨_, _, hrun, hback _ hrun, ?_, ?_, hagrees _ _ hrun (hback _ hrun)⟩
  · decide +kernel
  · decide +kernel

end World

end Usdb
