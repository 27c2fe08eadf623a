import Mathlib.Logic.Equiv.List
import Mathlib.Tactic.DeriveEncodable
import Usdb.Framework.Framing
import Usdb.Index.MutationLog

namespace Usdb

open Framework MinerPassStorage InscriptionIndexer

section Bytes

theorem toList_loop_eq (bs : ByteArray) (i : Nat) (r : List UInt8) :
    ByteArray.toList.loop bs i r = r.reverse ++ bs.data.toList.drop i := by
  fun_induction ByteArray.toList.loop bs i r with
  | case1 i r h ih =>
    have hi : i < bs.data.toList.length := by simpa using h
    have hget : bs.get! i = bs.data.toList[i] := by
      have h' : i < bs.data.size := h
      show bs.data[i]! = _
      rw [getElem!_pos bs.data i h']
      rfl
    rw [ih, List.reverse_cons, List.append_assoc, List.singleton_append,
      List.drop_eq_getElem_cons hi, hget]
  | case2 i r h =>
    have hi : bs.data.toList.length ≤ i := by simpa using h
    rw [List.drop_eq_nil_of_le hi, List.append_nil]

theorem asBytes_eq (s : String) : asBytes s = s.toByteArray.data.toList :=
  toList_loop_eq s.toByteArray 0 []

theorem asBytes_injective : Function.Injective asBytes := by
  intro s t h
  rw [asBytes_eq, asBytes_eq] at h
  exact String.toByteArray_inj.mp (ByteArray.ext (Array.toList_inj.mp h))

theorem asBytes_ofList (l : List Char) :
    asBytes (String.ofList l) = l.flatMap String.utf8EncodeChar := by
  rw [asBytes_eq, String.toByteArray_ofList, List.utf8Encode, List.toList_data_toByteArray]

/-- The byte that stands between the fields of a preimage. -/
def separator : UInt8 := 124

theorem asBytes_separator : asBytes "|" = [separator] := by
  rw [asBytes_eq]
  decide

theorem separator_genesis : separator ∉ asBytes "genesis" := by
  rw [asBytes_eq]
  decide

theorem hexDigit_injective : ∀ m < 16, ∀ n < 16, hexDigit m = hexDigit n → m = n := by
  decide

theorem separator_hexDigit : ∀ n < 16, separator ∉ String.utf8EncodeChar (hexDigit n) := by
  decide

theorem hexDigit_ne_g : ∀ n < 16, hexDigit n ≠ 'g' := by
  decide

/-- The two digits of a byte. -/
def hexByte (b : UInt8) : List Char := [hexDigit (b.toNat / 16), hexDigit (b.toNat % 16)]

theorem hexByte_digits (b : UInt8) : b.toNat / 16 < 16 ∧ b.toNat % 16 < 16 := by
  have hb := b.toNat_lt
  omega

theorem hexByte_selfDelimiting : SelfDelimiting hexByte := by
  intro a b h
  have he : hexByte a = hexByte b := h.eq_of_length rfl
  obtain ⟨ha, ha'⟩ := hexByte_digits a
  obtain ⟨hb, hb'⟩ := hexByte_digits b
  obtain ⟨hhigh, htail⟩ := List.cons.inj he
  have hdiv := hexDigit_injective _ ha _ hb hhigh
  have hmod := hexDigit_injective _ ha' _ hb' (List.cons.inj htail).1
  exact UInt8.toNat_inj.mp (by omega)

theorem encodeHex_injective : Function.Injective encodeHex := by
  intro xs ys h
  exact hexByte_selfDelimiting.flatMap_injective (fun _ => List.cons_ne_nil _ _)
    (String.ofList_injective h)

theorem separator_encodeHex (bytes : List UInt8) : separator ∉ asBytes (encodeHex bytes) := by
  unfold encodeHex
  rw [asBytes_ofList, List.flatMap_assoc]
  intro hm
  obtain ⟨b, -, hb⟩ := List.mem_flatMap.mp hm
  obtain ⟨hhigh, hlow⟩ := hexByte_digits b
  simp only [List.flatMap_cons, List.flatMap_nil, List.append_nil, List.mem_append] at hb
  rcases hb with hb | hb
  · exact separator_hexDigit _ hhigh hb
  · exact separator_hexDigit _ hlow hb

theorem encodeHex_ne_genesis (bytes : List UInt8) : encodeHex bytes ≠ "genesis" := by
  intro h
  have hl : bytes.flatMap hexByte = ['g', 'e', 'n', 'e', 's', 'i', 's'] := String.ofList_injective h
  cases bytes with
  | nil => cases hl
  | cons b bytes => exact hexDigit_ne_g _ (hexByte_digits b).1 (List.cons.inj hl).1

end Bytes

/-- What the proofs about commits use of the two libraries: different inputs have different
digests, and the JSON text of a mutation, an object, determines the mutation and shows where
it ends. -/
structure CommitHash.Binding (hash : CommitHash) : Prop where
  sha256 : Function.Injective hash.sha256
  toVec : SelfDelimiting hash.toVec

namespace PassBlockMutationCollector

variable {hash : CommitHash} {c c' : PassBlockMutationCollector}

/-- A mutation with its separator and length. -/
def frame (hash : CommitHash) (m : PassBlockMutation) : List UInt8 :=
  asBytes "|" ++ toBeBytes (hash.toVec m).length ++ hash.toVec m

/-- At one height the mutation root determines the mutation stream. -/
theorem mutationRoot_inj (hb : hash.Binding) (hh : c.blockHeight = c'.blockHeight)
    (h : c.mutationRoot hash = c'.mutationRoot hash) : c.mutations = c'.mutations := by
  have hbytes := hb.sha256 (encodeHex_injective h)
  unfold mutationRootBytes at hbytes
  rw [hh] at hbytes
  obtain ⟨-, hstream⟩ := List.append_inj hbytes (by simp [toBeBytes])
  have hframe : SelfDelimiting (frame hash) := hb.toVec.header (n := 5) (fun m => by
    rw [asBytes_separator]
    rfl)
  refine hframe.flatMap_injective (fun m hn => ?_) hstream
  unfold frame at hn
  rw [asBytes_separator] at hn
  cases hn

/-- At one height the block commit determines its three inputs. -/
theorem blockCommitBytes_inj {up up' : BalanceHistoryBlockCommitInfo} {prev prev' : String}
    (hh : c.blockHeight = c'.blockHeight) (hup : up.blockHeight = up'.blockHeight)
    (hprev : separator ∉ asBytes prev) (hprev' : separator ∉ asBytes prev')
    (h : c.blockCommitBytes hash up prev = c'.blockCommitBytes hash up' prev') :
    prev = prev' ∧ up.blockCommit = up'.blockCommit ∧
      c.mutationRoot hash = c'.mutationRoot hash := by
  unfold blockCommitBytes at h
  rw [hh, hup, asBytes_separator] at h
  simp only [List.append_assoc, List.append_cancel_left_eq, List.singleton_append] at h
  have hfirst : asBytes prev ++ separator :: (toBeBytes up'.blockHeight ++ separator ::
      (asBytes up.blockCommit ++ separator :: asBytes (c.mutationRoot hash))) =
      asBytes prev' ++ separator :: (toBeBytes up'.blockHeight ++ separator ::
      (asBytes up'.blockCommit ++ separator :: asBytes (c'.mutationRoot hash))) := (List.cons.inj h).2
  obtain ⟨hprevious, hrest⟩ := append_separator_left hprev hprev' hfirst
  have hlast := (List.cons.inj (List.append_cancel_left hrest)).2
  obtain ⟨hcommit, hroot⟩ := append_separator_right (separator_encodeHex _)
    (separator_encodeHex _) hlast
  exact ⟨asBytes_injective hprevious, asBytes_injective hcommit, asBytes_injective hroot⟩

end PassBlockMutationCollector

/-- What a durable block put into its commit. -/
structure BlockLog where
  mutations : List PassBlockMutation
  upstreamCommit : Option BalanceHistoryBlockCommitInfo
deriving DecidableEq, Repr

/-- The mutation stream of a block, which its collector holds when it is finalized. -/
def blockMutations (cfg : IndexerConfig) (env : BlockEnv) (height : Nat) (s : IndexerState) :
    List PassBlockMutation :=
  match syncUntilFinalized cfg env height s with
  | .ok _ r => (r.currentBlockCollector.map (·.mutations)).getD []
  | .error _ _ => []

namespace World

variable {cfg : IndexerConfig} {w w' : World} {l : Label} {log : Nat → Option BlockLog}

/-- The streams and upstream commits of the durable blocks of a run, by height. -/
def logStep (cfg : IndexerConfig) (w : World) (log : Nat → Option BlockLog) :
    Label → Nat → Option BlockLog
  | .block env _ faults =>
    match syncBlockDurably cfg env (w.height cfg + 1) (w.indexer.withFaults faults) with
    | .ok _ _ => fun k =>
      if k = w.height cfg + 1 then some
        { mutations := blockMutations cfg env (w.height cfg + 1) (w.indexer.withFaults faults)
          upstreamCommit := env.upstreamCommit }
      else log k
    | .error _ _ => log
  | _ => log

/-- A run from an empty data directory, with what its blocks committed to. -/
inductive LoggedRun (cfg : IndexerConfig) : World → (Nat → Option BlockLog) → Prop
  | initial : LoggedRun cfg World.initial (fun _ => none)
  | step {w w' : World} {l : Label} {log : Nat → Option BlockLog} (run : LoggedRun cfg w log)
      (step : Step cfg w l w') : LoggedRun cfg w' (logStep cfg w log l)

/-- Every run has its log, and what has one is a run. -/
theorem reachable_iff_logged :
    Reachable cfg (fun _ _ => True) w ↔ ∃ log, LoggedRun cfg w log := by
  constructor
  · intro h
    exact h.induct (P := fun w => ∃ log, LoggedRun cfg w log) ⟨_, .initial⟩
      (fun _ _ _ ⟨_, hlog⟩ _ hs => ⟨_, hlog.step hs⟩)
  · rintro ⟨log, h⟩
    induction h with
    | initial => exact .refl _
    | step _ hs ih => exact .step ih trivial hs

end World

/-- The stored commits form a chain over the log, from the first block to the current
height. -/
structure CommitChain (cfg : IndexerConfig) (ps : MinerPassStorage) (log : Nat → Option BlockLog) :
    Prop where
  unbroken : ∀ k, (ps.getPassBlockCommit k).isSome ↔
    cfg.genesisBlockHeight ≤ k ∧ k ≤ currentHeight cfg ps
  linked : ∀ k entry, ps.getPassBlockCommit k = some entry →
    ∃ (c : PassBlockMutationCollector) (up : BalanceHistoryBlockCommitInfo),
      log k = some { mutations := c.mutations, upstreamCommit := some up } ∧ c.blockHeight = k ∧
      up.blockHeight = k ∧ entry.blockCommit = encodeHex (cfg.hash.sha256
        (c.blockCommitBytes cfg.hash up (PassBlockMutationCollector.previousText
          (ps.getPassBlockCommit (k - 1)))))

namespace CommitChain

variable {cfg : IndexerConfig} {ps ps' : MinerPassStorage} {log log' : Nat → Option BlockLog}

theorem empty : CommitChain cfg .empty (fun _ => none) := by
  refine ⟨fun k => ?_, fun k entry h => by cases h⟩
  have hpos := cfg.genesisBlockHeight_pos
  constructor
  · intro h
    cases h
  · rintro ⟨hl, hu⟩
    simp only [currentHeight, MinerPassStorage.empty, Option.getD_none] at hu
    omega

theorem congr (h : CommitChain cfg ps log) (hc : ps'.passBlockCommits = ps.passBlockCommits)
    (hh : currentHeight cfg ps' = currentHeight cfg ps) : CommitChain cfg ps' log := by
  have hget : ∀ k, ps'.getPassBlockCommit k = ps.getPassBlockCommit k := by
    intro k
    unfold getPassBlockCommit
    rw [hc]
  refine ⟨fun k => ?_, fun k entry hk => ?_⟩
  · rw [hget, hh]
    exact h.unbroken k
  · rw [hget] at hk ⊢
    exact h.linked k entry hk

theorem getPassBlockCommit_rolledBack (target : Nat) (mark : Bool) (k : Nat) :
    (ps.rolledBack target mark).getPassBlockCommit k =
      if k ≤ target then ps.getPassBlockCommit k else none := by
  show lookup _ k (ps.passBlockCommits.filter _) = _
  split
  · rename_i hk
    exact lookup_filter_of_key _ _ _ _ (fun r hr => decide_eq_true (hr ▸ hk))
  · rename_i hk
    refine (lookup_eq_none _ _ _).mpr (fun r hr he => hk ?_)
    rw [← he]
    exact of_decide_eq_true (List.mem_filter.mp hr).2

theorem rolledBack (h : CommitChain cfg ps log) {target : Nat}
    (lower : cfg.genesisBlockHeight - 1 ≤ target) (upper : target ≤ currentHeight cfg ps)
    (mark : Bool) : CommitChain cfg (ps.rolledBack target mark) log := by
  refine ⟨fun k => ?_, fun k entry hk => ?_⟩
  · rw [getPassBlockCommit_rolledBack, currentHeight_rolledBack lower]
    split
    · rw [h.unbroken k]
      omega
    · simp only [Option.isSome_none, Bool.false_eq_true, false_iff]
      omega
  · rw [getPassBlockCommit_rolledBack] at hk ⊢
    split at hk
    · rename_i hle
      rw [if_pos (by omega)]
      exact h.linked k entry hk
    · cases hk

theorem quiet (h : CommitChain cfg ps log) (hs : QuietReach cfg ps ps') :
    CommitChain cfg ps' log := by
  induction hs with
  | refl => exact h
  | tail _ hstep ih =>
    cases hstep with
    | cleared => exact ih.congr rfl rfl
    | rolledBack target lower upper constraints => exact ih.rolledBack lower upper true
    | adopted anchor genesis => exact ih.congr rfl (currentHeight_adopted _ _ _)
    | backfilled anchor => exact ih.congr rfl rfl

theorem block {env : BlockEnv} {s t : IndexerState} (h : CommitChain cfg s.passStorage log)
    (run : BlockRun cfg env (currentHeight cfg s.passStorage + 1) s t) :
    CommitChain cfg t.passStorage (fun k =>
      if k = currentHeight cfg s.passStorage + 1 then some
        { mutations := blockMutations cfg env (currentHeight cfg s.passStorage + 1) s
          upstreamCommit := env.upstreamCommit }
      else log k) := by
  have hreach : PassReach (fun _ => True) (currentHeight cfg s.passStorage + 1) s.passStorage
      run.minted.passStorage := run.minted_reach (BlockEventExecutor.eventsSatisfy_of_forall
        BlockEventExecutor.burnsOnly_true _ _)
  have hget : ∀ k, t.passStorage.getPassBlockCommit k =
      if k = currentHeight cfg s.passStorage + 1 then some run.entry
      else s.passStorage.getPassBlockCommit k := by
    intro k
    rw [run.passStorage_final]
    show lookup _ k (upsert _ run.entry run.minted.passStorage.passBlockCommits) = _
    rw [lookup_upsert, run.entry_height, hreach.frame.1]
    rfl
  have happlied : run.applied.passStorage.passBlockCommits = s.passStorage.passBlockCommits := by
    obtain ⟨_, _, _, _, fs, -, -, -, -, hsettled⟩ :=
      BalanceMonitor.settleActiveBalanceWithDetails_ok run.settling
    obtain ⟨e, fs', heq⟩ := applyEnergyChanges_frame run.applying
    rw [heq, hsettled]
    exact hreach.frame.1
  have hstream : blockMutations cfg env (currentHeight cfg s.passStorage + 1) s =
      run.collector.mutations := by
    obtain ⟨fs, hfinal⟩ := run.finalizing
    unfold blockMutations
    rw [hfinal]
    dsimp only
    rw [run.collecting]
    rfl
  refine ⟨fun k => ?_, fun k entry hk => ?_⟩
  · rw [hget, run.currentHeight_eq]
    have hgenesis : cfg.genesisBlockHeight - 1 ≤ currentHeight cfg s.passStorage :=
      Nat.le_max_right _ _
    have hold := h.unbroken k
    split
    · simp only [Option.isSome_some, true_iff]
      omega
    · rw [hold]
      omega
  · rw [hget] at hk
    by_cases hnew : k = currentHeight cfg s.passStorage + 1
    · rw [if_pos hnew] at hk ⊢
      cases hk
      obtain ⟨hup, -, hcommit⟩ := PassBlockMutationCollector.buildCommitEntry_ok run.commit
      refine ⟨run.collector, run.upstream, ?_, run.collectorHeight.trans hnew.symm, ?_, ?_⟩
      · rw [hstream, run.upstreamCommit]
      · rw [hup, run.collectorHeight, hnew]
      · rw [hcommit, if_neg (Nat.succ_ne_zero _), hnew, hget (_ + 1 - 1), if_neg (by omega)]
        unfold getPassBlockCommit
        rw [happlied]
    · rw [if_neg hnew] at hk ⊢
      have hle := ((h.unbroken k).mp (by rw [hk]; rfl)).2
      rw [hget (k - 1), if_neg (by omega)]
      exact h.linked k entry hk

end CommitChain

namespace World

variable {cfg : IndexerConfig} {w w' : World} {l : Label} {log : Nat → Option BlockLog}

theorem Step.commitChain (h : CommitChain cfg w.indexer.passStorage log) (hs : Step cfg w l w') :
    CommitChain cfg w'.indexer.passStorage (logStep cfg w log l) := by
  have hquiet := hs.quiet_or_block
  obtain ⟨enabled, rfl⟩ := hs
  cases l with
  | block env balances faults =>
    cases hb : syncBlockDurably cfg env (w.height cfg + 1) (w.indexer.withFaults faults) with
    | ok u t =>
      obtain ⟨run⟩ := syncBlockDurably_ok hb
      simp only [logStep, next, hb]
      have hchain : CommitChain cfg (w.indexer.withFaults faults).passStorage log := h
      have hblock := hchain.block run
      exact hblock
    | error e t =>
      have hps := syncBlockDurably_error_pass hb
      simp only [logStep, next, hb]
      refine h.congr ?_ ?_
      · show (w.settle _ _ _).indexer.passStorage.passBlockCommits = _
        rw [settle_passStorage]
        exact congrArg MinerPassStorage.passBlockCommits hps
      · show currentHeight cfg (w.settle _ _ _).indexer.passStorage = _
        rw [settle_passStorage]
        exact congrArg (currentHeight cfg) hps
  | prepare rollbackTarget faults =>
    rcases hquiet with ⟨hq, -⟩ | ⟨_, _, _, _, heq, -⟩
    · exact h.quiet hq
    · cases heq
  | finish snapshot stateRefAtHeight faults =>
    rcases hquiet with ⟨hq, -⟩ | ⟨_, _, _, _, heq, -⟩
    · exact h.quiet hq
    · cases heq
  | restart faults =>
    rcases hquiet with ⟨hq, -⟩ | ⟨_, _, _, _, heq, -⟩
    · exact h.quiet hq
    · cases heq

/-- A restart finds the pass database as it was. -/
theorem restart_passStorage (w : World) (faults : List IoResult) :
    (next cfg w (.restart faults)).indexer.passStorage = w.indexer.passStorage := by
  unfold next
  rw [settle_passStorage, InscriptionTransferTracker.reloadFromStorage_passStorage
    (w.indexer.afterRestart.withFaults faults)]
  rfl

theorem LoggedRun.commitChain (h : LoggedRun cfg w log) :
    CommitChain cfg w.indexer.passStorage log := by
  induction h with
  | initial => exact .empty
  | step _ hs ih => exact hs.commitChain ih

end World

namespace CommitChain

variable {cfg cfg' : IndexerConfig} {ps ps' : MinerPassStorage} {log log' : Nat → Option BlockLog}

/-- Every stored commit is the text of a digest. -/
theorem commit_hex (h : CommitChain cfg ps log) {k : Nat} {entry : PassBlockCommitEntry}
    (hk : ps.getPassBlockCommit k = some entry) : ∃ bytes, entry.blockCommit = encodeHex bytes := by
  obtain ⟨c, up, -, -, -, hcommit⟩ := h.linked k entry hk
  exact ⟨_, hcommit⟩

theorem separator_previousText (h : CommitChain cfg ps log) (k : Nat) :
    separator ∉ asBytes (PassBlockMutationCollector.previousText (ps.getPassBlockCommit k)) := by
  cases hk : ps.getPassBlockCommit k with
  | none => exact separator_genesis
  | some entry =>
    obtain ⟨bytes, hcommit⟩ := h.commit_hex hk
    show separator ∉ asBytes entry.blockCommit
    rw [hcommit]
    exact separator_encodeHex bytes

/-- Equal texts of the previous commits mean that both chains go on, with equal commits, or
that both start here. -/
theorem previous_cases (h : CommitChain cfg ps log) (h' : CommitChain cfg' ps' log') {k : Nat}
    (htext : PassBlockMutationCollector.previousText (ps.getPassBlockCommit k) =
      PassBlockMutationCollector.previousText (ps'.getPassBlockCommit k)) :
    (ps.getPassBlockCommit k = none ∧ ps'.getPassBlockCommit k = none) ∨
      ∃ entry entry', ps.getPassBlockCommit k = some entry ∧
        ps'.getPassBlockCommit k = some entry' ∧ entry.blockCommit = entry'.blockCommit := by
  cases hk : ps.getPassBlockCommit k with
  | none =>
    cases hk' : ps'.getPassBlockCommit k with
    | none => exact .inl ⟨rfl, rfl⟩
    | some entry' =>
      rw [hk, hk'] at htext
      obtain ⟨bytes, hcommit⟩ := h'.commit_hex hk'
      exact absurd (hcommit.symm.trans htext.symm) (encodeHex_ne_genesis bytes)
  | some entry =>
    cases hk' : ps'.getPassBlockCommit k with
    | none =>
      rw [hk, hk'] at htext
      obtain ⟨bytes, hcommit⟩ := h.commit_hex hk
      exact absurd (hcommit.symm.trans htext) (encodeHex_ne_genesis bytes)
    | some entry' =>
      rw [hk, hk'] at htext
      exact .inr ⟨entry, entry', rfl, rfl, htext⟩

/-- A chain starts where the previous commit is missing. -/
theorem genesis_of_missing (h : CommitChain cfg ps log) {k : Nat}
    (hk : (ps.getPassBlockCommit (k + 1)).isSome) (hprev : ps.getPassBlockCommit k = none) :
    cfg.genesisBlockHeight = k + 1 := by
  obtain ⟨hlower, hupper⟩ := (h.unbroken (k + 1)).mp hk
  by_contra hne
  have hsome := (h.unbroken k).mpr ⟨by omega, by omega⟩
  rw [hprev] at hsome
  cases hsome

/-- Equal commits at a height have equal inputs. -/
theorem inputs_eq (h : CommitChain cfg ps log) (h' : CommitChain cfg' ps' log')
    (hash : cfg'.hash = cfg.hash) (binding : cfg.hash.Binding) {k : Nat}
    {entry entry' : PassBlockCommitEntry} (hk : ps.getPassBlockCommit k = some entry)
    (hk' : ps'.getPassBlockCommit k = some entry')
    (heq : entry.blockCommit = entry'.blockCommit) :
    log k = log' k ∧ (log k).isSome ∧
      PassBlockMutationCollector.previousText (ps.getPassBlockCommit (k - 1)) =
        PassBlockMutationCollector.previousText (ps'.getPassBlockCommit (k - 1)) := by
  obtain ⟨c, up, hlog, hc, hup, hcommit⟩ := h.linked k entry hk
  obtain ⟨c', up', hlog', hc', hup', hcommit'⟩ := h'.linked k entry' hk'
  rw [hcommit, hcommit', hash] at heq
  obtain ⟨hprev, hupstream, hroot⟩ := PassBlockMutationCollector.blockCommitBytes_inj
    (hc.trans hc'.symm) (hup.trans hup'.symm) (h.separator_previousText _)
    (h'.separator_previousText _) (binding.sha256 (encodeHex_injective heq))
  have hstream := PassBlockMutationCollector.mutationRoot_inj binding (hc.trans hc'.symm) hroot
  have hups : up = up' := by
    cases up
    cases up'
    simp only at hup hup' hupstream
    rw [hup, hup', hupstream]
  refine ⟨?_, by rw [hlog]; rfl, hprev⟩
  rw [hlog, hlog', hstream, hups]

end CommitChain

/-- Two runs of indexers with the same hash whose commits agree at a height: their chains
start at the same block, and up to that height every block has the same mutation stream and
the same upstream commit. -/
theorem World.LoggedRun.commits_bind (cfg cfg' : IndexerConfig) (w w' : World)
    (log log' : Nat → Option BlockLog) (run : World.LoggedRun cfg w log)
    (run' : World.LoggedRun cfg' w' log') (hash : cfg'.hash = cfg.hash)
    (binding : cfg.hash.Binding) (h : Nat) (entry entry' : PassBlockCommitEntry)
    (hentry : w.indexer.passStorage.getPassBlockCommit h = some entry)
    (hentry' : w'.indexer.passStorage.getPassBlockCommit h = some entry')
    (heq : entry.blockCommit = entry'.blockCommit) :
    cfg.genesisBlockHeight = cfg'.genesisBlockHeight ∧
      ∀ k, cfg.genesisBlockHeight ≤ k → k ≤ h → log k = log' k ∧ (log k).isSome := by
  have hchain := run.commitChain
  have hchain' := run'.commitChain
  induction h generalizing entry entry' with
  | zero =>
    have hpos := cfg.genesisBlockHeight_pos
    have hlower := ((hchain.unbroken 0).mp (by rw [hentry]; rfl)).1
    omega
  | succ h ih =>
    obtain ⟨hlog, hsome, htext⟩ := hchain.inputs_eq hchain' hash binding hentry hentry' heq
    rw [Nat.add_sub_cancel] at htext
    rcases hchain.previous_cases hchain' htext with ⟨hnone, hnone'⟩ | ⟨prev, prev', hp, hp', he⟩
    · have hstart := hchain.genesis_of_missing (by rw [hentry]; rfl) hnone
      have hstart' := hchain'.genesis_of_missing (by rw [hentry']; rfl) hnone'
      refine ⟨hstart.trans hstart'.symm, fun k hlower hupper => ?_⟩
      obtain rfl : k = h + 1 := by omega
      exact ⟨hlog, hsome⟩
    · obtain ⟨hgenesis, hbelow⟩ := ih prev prev' hp hp' he
      refine ⟨hgenesis, fun k hlower hupper => ?_⟩
      rcases Nat.lt_or_eq_of_le hupper with hlt | rfl
      · exact hbelow k hlower (Nat.lt_succ_iff.mp hlt)
      · exact ⟨hlog, hsome⟩

instance instEncodableChar : Encodable Char :=
  Encodable.ofLeftInjection Char.toNat (fun n => some (Char.ofNat n)) (fun c => by simp)

instance instEncodableString : Encodable String :=
  Encodable.ofLeftInjection String.toList (fun l => some (String.ofList l)) (fun s => by simp)

deriving instance Encodable for OutPoint, SatPoint, InscriptionId, MinerPassState,
  MintValidationErrorCode, PassBlockMutation

namespace Sample

/-- The mutation of the first block of the sample runs. -/
def firstMint : PassBlockMutation := .Mint ⟨1, 0⟩ 0 7 ⟨⟨1, 0⟩, 0⟩ "" none []

/-- Its JSON text. -/
def firstJson : List UInt8 :=
  asBytes ("\x7b\"type\":\"mint\",\"inscription_id\":\"" ++ displayInscriptionId ⟨1, 0⟩ ++
    "\",\"inscription_number\":0,\"mint_owner\":\"" ++ displayTxid 7 ++ "\",\"satpoint\":\"" ++
    displayOutPoint ⟨1, 0⟩ ++ ":0\",\"eth_main\":\"\",\"eth_collab\":null,\"prev\":[]\x7d")

/-- Mutations that the sample does not commit are numbered. -/
def toVec (m : PassBlockMutation) : List UInt8 :=
  if m = firstMint then firstJson else List.replicate (Encodable.encode m) 0 ++ [1]

def rootPreimage : List UInt8 :=
  ({ blockHeight := 1, mutations := [firstMint] } : PassBlockMutationCollector).mutationRootBytes
    { sha256 := id, toVec }

def rootDigest : List UInt8 :=
  [78, 212, 150, 68, 201, 185, 29, 68, 50, 143, 157, 191, 79, 8, 187, 59, 185, 85, 99, 87, 22, 103,
    56, 22, 218, 133, 17, 179, 179, 33, 156, 22]

def commitPreimage : List UInt8 :=
  ({ blockHeight := 1, mutations := [firstMint] } : PassBlockMutationCollector).blockCommitBytes
    { sha256 := fun _ => rootDigest, toVec } { blockHeight := 1, blockCommit := "" } "genesis"

def commitDigest : List UInt8 :=
  [194, 218, 8, 61, 14, 233, 76, 135, 239, 150, 252, 153, 94, 244, 166, 227, 198, 143, 4, 147, 14,
    72, 5, 229, 198, 25, 213, 203, 146, 94, 105, 214]

/-- The digests of the two inputs the sample hashes; any other input is kept behind zeros. -/
def sha256 (bytes : List UInt8) : List UInt8 :=
  if bytes = rootPreimage then rootDigest
  else if bytes = commitPreimage then commitDigest
  else List.replicate 33 0 ++ bytes

def hashedConfig : IndexerConfig := { config with hash := { sha256, toVec } }

/-- The block in which owner 7 mints. -/
def firstBlock : Label := .block (env .empty 1 [payment 1 ⟨0, 0⟩ 7] [mint 1 []]) .empty []

theorem firstJson_head : firstJson.head? = some 123 := by
  unfold firstJson
  rw [asBytes_eq]
  decide +kernel

theorem numbered_head (n : Nat) (r : List UInt8) :
    (List.replicate n 0 ++ [1] ++ r).head? ≠ some 123 := by
  cases n <;> simp [List.replicate_succ]

theorem toVec_selfDelimiting : SelfDelimiting toVec := by
  rintro m m' ⟨r, he⟩
  unfold toVec at he
  split at he <;> split at he
  · rename_i hm hm'
    exact hm.trans hm'.symm
  · have hhead : (firstJson ++ r).head? = some 123 := by
      rw [List.head?_append, firstJson_head]
      rfl
    rw [he, ← List.append_nil (_ ++ _)] at hhead
    exact absurd hhead (numbered_head _ _)
  · have hhead := numbered_head (Encodable.encode m) r
    rw [he] at hhead
    exact absurd firstJson_head hhead
  · rw [List.append_assoc] at he
    obtain ⟨hn, -⟩ := append_separator_left (by simp [List.mem_replicate])
      (by simp [List.mem_replicate]) he
    have hlen := congrArg List.length hn
    rw [List.length_replicate, List.length_replicate] at hlen
    exact Encodable.encode_injective hlen

theorem sha256_injective : Function.Injective sha256 := by
  have hroot : ∀ bytes, rootDigest ≠ List.replicate 33 0 ++ bytes := by
    intro bytes he
    have hlen := congrArg List.length he
    simp only [rootDigest, List.length_cons, List.length_nil, List.length_append,
      List.length_replicate] at hlen
    omega
  have hcommit : ∀ bytes, commitDigest ≠ List.replicate 33 0 ++ bytes := by
    intro bytes he
    have hlen := congrArg List.length he
    simp only [commitDigest, List.length_cons, List.length_nil, List.length_append,
      List.length_replicate] at hlen
    omega
  have hdiffer : rootDigest ≠ commitDigest := by decide
  intro a b h
  unfold sha256 at h
  split_ifs at h with ha hb hb' ha' hb hb' hb hb'
  · exact ha.trans hb.symm
  · exact absurd h hdiffer
  · exact absurd h (hroot _)
  · exact absurd h.symm hdiffer
  · exact ha'.trans hb'.symm
  · exact absurd h (hcommit _)
  · exact absurd h.symm (hroot _)
  · exact absurd h.symm (hcommit _)
  · exact List.append_cancel_left h

end Sample

/-- A node that restarts after the first block has the same commit, and has committed to the
same mint. -/
theorem World.LoggedRun.commits_bind_restart :
    ∃ w w' log log', World.LoggedRun Sample.hashedConfig w log ∧
      World.LoggedRun Sample.hashedConfig w' log' ∧ w.phase = .syncing ∧ w'.phase = .idle ∧
      log 1 = some { mutations := [Sample.firstMint]
                     upstreamCommit := some { blockHeight := 1, blockCommit := "" } } ∧
      ∀ k, 1 ≤ k → k ≤ 1 → log k = log' k ∧ (log k).isSome := by
  have hprepare : World.LoggedRun Sample.hashedConfig (World.next Sample.hashedConfig World.initial
      (.prepare none [])) _ := World.LoggedRun.initial.step ⟨by decide +kernel, rfl⟩
  have hblock : World.LoggedRun Sample.hashedConfig (World.next Sample.hashedConfig
      (World.next Sample.hashedConfig World.initial (.prepare none [])) Sample.firstBlock) _ :=
    hprepare.step ⟨by decide +kernel, rfl⟩
  have hrestart : World.LoggedRun Sample.hashedConfig (World.next Sample.hashedConfig
      (World.next Sample.hashedConfig (World.next Sample.hashedConfig World.initial
        (.prepare none [])) Sample.firstBlock) (.restart [])) _ :=
    hblock.step (l := .restart []) ⟨trivial, rfl⟩
  obtain ⟨entry, hentry⟩ := Option.isSome_iff_exists.mp (show ((World.next Sample.hashedConfig
    (World.next Sample.hashedConfig World.initial (.prepare none []))
      Sample.firstBlock).indexer.passStorage.getPassBlockCommit 1).isSome = true by decide +kernel)
  have hkept : (World.next Sample.hashedConfig (World.next Sample.hashedConfig
      (World.next Sample.hashedConfig World.initial (.prepare none [])) Sample.firstBlock)
      (.restart [])).indexer.passStorage.getPassBlockCommit 1 = some entry := by
    rw [World.restart_passStorage]
    exact hentry
  refine ⟨_, _, _, _, hblock, hrestart, by decide +kernel, by decide +kernel, by decide +kernel, ?_⟩
  exact (World.LoggedRun.commits_bind _ _ _ _ _ _ hblock hrestart rfl
    ⟨Sample.sha256_injective, Sample.toVec_selfDelimiting⟩ 1 entry entry hentry hkept rfl).2

end Usdb
