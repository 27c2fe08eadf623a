import Usdb.Energy.Run
import Usdb.Index.TerminalStates

namespace Usdb

open Framework MinerPassStorage PassEnergyStorage PassEnergyManager InscriptionIndexer

namespace PassEnergyManager

theorem findLastPassEnergyRecord_of_findLast {e : PassEnergyStorage} {id : InscriptionId}
    {k j : Nat} {r : PassEnergyRecord} (h : findLast (e.getPassEnergyRecord id) k = some (j, r)) :
    e.findLastPassEnergyRecord id k = some r := by
  unfold PassEnergyStorage.findLastPassEnergyRecord
  rw [h]
  rfl

end PassEnergyManager

theorem RowChange.not_burned {event : PassHistoryEvent} {p q : MinerPassInfo}
    (h : RowChange (fun _ => False) event p q) (hp : p.state ≠ .Burned) : q.state ≠ .Burned := by
  cases h with
  | dormant => exact fun hb => MinerPassState.noConfusion hb
  | consumed => exact fun hb => MinerPassState.noConfusion hb
  | burned => contradiction
  | transferred => exact hp
  | moved => exact hp

namespace MinerPassStorage

/-- No pass has ever been burned. -/
def NoneBurned (ps : MinerPassStorage) : Prop :=
  ∀ r ∈ ps.passStateHistory, r.newState ≠ .Burned

theorem NoneBurned.reach {ps ps' : MinerPassStorage} {height : Nat} (h : ps.NoneBurned)
    (ht : TableInv ps height) (hs : PassReach (fun _ => False) height ps ps') : ps'.NoneBurned := by
  induction hs with
  | refl => exact h
  | tail hreach hstep ih =>
    obtain ⟨id, q, r, v⟩ := hstep.view (ht.reach hreach).idBound
    intro r' hr'
    rw [v.history] at hr'
    rcases List.mem_append.mp hr' with hr' | hr'
    · exact ih r' hr'
    · rw [List.mem_singleton.mp hr', v.rowMatches.1]
      rcases v.origin with ⟨-, -, -, -, ⟨-, hq⟩ | ⟨-, hq⟩⟩ | ⟨p, hp, hchange, -⟩
      · rw [hq]
        decide
      · rw [hq]
        decide
      · have hprev : p.state ≠ .Burned := by
          obtain ⟨r₀, hmatch, hcur⟩ := (ht.reach hreach).current id p hp
          rw [← hmatch.1]
          exact ih r₀ (latestHistoryAt_some (hcur height (Nat.le_refl _))).1
        exact hchange.not_burned hprev

theorem NoneBurned.quiet {cfg : IndexerConfig} {ps ps' : MinerPassStorage} (h : ps.NoneBurned)
    (hs : QuietReach cfg ps ps') : ps'.NoneBurned := by
  induction hs with
  | refl => exact h
  | tail _ hstep ih =>
    cases hstep with
    | cleared => exact ih
    | rolledBack target lower upper constraints =>
      exact fun r hr => ih r (List.mem_of_mem_filter hr)
    | adopted anchor genesis => exact ih
    | backfilled anchor => exact ih

end MinerPassStorage

/-- The energy store mirrors the passes after a block: the last record of every valid pass
has its state, what is Consumed or Burned has no energy, and only Active passes gain any
at later heights. -/
def EnergyMirrorsState (s : IndexerState) (height : Nat) : Prop :=
  ∀ id p, s.passStorage.getPassByInscriptionId id = some p → p.state ≠ .Invalid →
    ∃ r, (∀ k, height ≤ k → s.energyStorage.findLastPassEnergyRecord id k = some r) ∧
      r.state = p.state ∧ (p.state = .Consumed ∨ p.state = .Burned → r.energy = 0) ∧
      (p.state ≠ .Active → ∀ k, height ≤ k →
        energyAnswer s.energyStorage id k = some { energy := r.energy, state := p.state })

/-- A last record at a height is the last one for good when nothing lies above. -/
theorem PassEnergyStorage.RecordsBelow.last {e : PassEnergyStorage} {height k : Nat}
    (hb : e.RecordsBelow height) {id : InscriptionId} {r : PassEnergyRecord}
    (h : e.findLastPassEnergyRecord id height = some r) (hk : height ≤ k) :
    e.findLastPassEnergyRecord id k = some r := by
  rw [findLastPassEnergyRecord_eq_some] at h ⊢
  obtain ⟨hle, hget, hnone⟩ := h
  refine ⟨Nat.le_trans hle hk, hget, fun j hj hjk => ?_⟩
  rcases Nat.lt_or_ge height j with hlt | hge
  · exact hb.none hlt
  · exact hnone j hj hge

theorem EnergyMirrorsState.of_books {scheme : Scheme} {lowest height : Nat} {s : IndexerState}
    (hbooks : Books scheme lowest height s) (hbelow : s.energyStorage.RecordsBelow height)
    (ht : TableInv s.passStorage height) (hv : ViewsProgress (fun _ => True) s.passStorage)
    (hn : s.passStorage.NoneBurned) : EnergyMirrorsState s height := by
  intro id p hp hvalid
  have life := ht.life hv hp
  have hnow := ht.stateAt_current hp (Nat.le_refl height)
  have hentries := hbooks.ledger.entries id p hp
  have hfound : ∃ j r, findLast (s.energyStorage.getPassEnergyRecord id) height = some (j, r) ∧
      r.state = p.state ∧ (p.state = .Consumed ∨ p.state = .Burned → r.energy = 0) := by
    cases hs : p.state with
    | Active =>
      rw [hs] at hnow
      obtain ⟨j, r, hlast, -, hstate, -⟩ := findLast_active life hentries hnow
      exact ⟨j, r, hlast, hstate, fun hd => by rcases hd with hd | hd <;> cases hd⟩
    | Dormant =>
      rw [hs] at hnow
      obtain ⟨j, r, hlast, -, -, -, -, hstate, -⟩ := findLast_dormant life hentries hnow
      exact ⟨j, r, hlast, hstate, fun hd => by rcases hd with hd | hd <;> cases hd⟩
    | Consumed =>
      rw [hs] at hnow
      obtain ⟨j, r, hlast, hstate, henergy⟩ := findLast_consumed hentries hnow
      exact ⟨j, r, hlast, hstate, fun _ => henergy⟩
    | Burned =>
      obtain ⟨r, hmatch, hcur⟩ := ht.current id p hp
      have hrow := hn r (latestHistoryAt_some (hcur height (Nat.le_refl _))).1
      exact absurd (hmatch.1.trans hs) hrow
    | Invalid => exact absurd hs hvalid
  obtain ⟨j, r, hlast, hstate, henergy⟩ := hfound
  have hall : ∀ k, height ≤ k → s.energyStorage.findLastPassEnergyRecord id k = some r :=
    fun k hk => hbelow.last (findLastPassEnergyRecord_of_findLast hlast) hk
  refine ⟨r, hall, hstate, henergy, fun hne k hk => ?_⟩
  unfold energyAnswer
  rw [hall k hk, Option.map_some, projectEnergyRecordNoBalanceChange,
    if_pos (.inr (by rw [hstate]; exact hne)), hstate]

namespace World

variable {cfg : IndexerConfig} {w w' : World} {l : Label}

/-- The block is served in range and burns no pass. -/
def BurnsNone (cfg : IndexerConfig) (w : World) (l : Label) : Prop :=
  BooksRule.states.Admits cfg w l ∧
    PlansOnly (BlockEventExecutor.BurnsOnly (fun _ => False)) cfg w l

theorem failsSafely_zero (cfg : IndexerConfig) (w : World) (l : Label) :
    FailsSafely (fun _ => 0) cfg w l := by
  cases l with
  | block env balances faults => exact fun _ _ => Nat.zero_le _
  | prepare _ _ => trivial
  | finish _ _ _ => trivial
  | restart _ => trivial

/-- What holds along a run that burns no pass. -/
structure UnburnedInv (cfg : IndexerConfig) (w : World) : Prop where
  energy : EnergyInv BooksRule.states (fun _ => 0) cfg w
  passes : PassInv (fun _ => True) cfg w.indexer.passStorage
  unburned : w.indexer.passStorage.NoneBurned
  mirrored : ∀ height s, w.committed height = some s → EnergyMirrorsState s height

theorem UnburnedInv.step (h : UnburnedInv cfg w) (hc : BurnsNone cfg w l)
    (hs : Step cfg w l w') : UnburnedInv cfg w' := by
  have hbound : ∀ k : Nat, (fun _ => 0 : Nat → Nat) k ≤ k := fun k => Nat.zero_le k
  have hstep := Step.energyStep monotone_const hbound h.energy h.passes hc.1
    (failsSafely_zero cfg w l) hs
  have henergy := hstep.inv hbound h.energy h.passes hc.1
  have hpasses := hs.passInv h.passes
  cases hstep with
  | quiet l w' carried committed balances below =>
    refine ⟨henergy, hpasses, h.unburned.quiet carried.passes, ?_⟩
    rw [committed]
    exact h.mirrored
  | failed env balances faults w' low log passes committed kept phase =>
    refine ⟨henergy, hpasses, by rw [passes]; exact h.unburned, ?_⟩
    rw [committed]
    exact h.mirrored
  | durable env balances faults t syncing low run =>
    obtain ⟨run⟩ := run
    have hreach : PassReach (fun _ => False) (w.height cfg + 1) w.indexer.passStorage
        run.minted.passStorage := run.minted_reach (hc.2.planned run)
    have hminted := h.unburned.reach (h.passes.table.mono (Nat.le_succ _)) hreach
    have hunburned : t.passStorage.NoneBurned := by
      rw [run.passStorage_final]
      exact hminted
    have hheight : currentHeight cfg t.passStorage = w.height cfg + 1 := run.currentHeight_eq
    refine ⟨henergy, hpasses, hunburned, fun height s hcommitted => ?_⟩
    simp only [committing] at hcommitted
    split at hcommitted
    · rename_i hh
      cases hcommitted
      have hbooks := henergy.books
      have hbelow := henergy.below rfl
      have htable := hpasses.table
      change Books _ _ (currentHeight cfg t.passStorage) (t.withFaults []) at hbooks
      change RecordsBelow t.energyStorage (currentHeight cfg t.passStorage) at hbelow
      change TableInv t.passStorage (currentHeight cfg t.passStorage) at htable
      rw [hheight] at hbooks hbelow htable
      rw [hh]
      exact .of_books hbooks hbelow htable hpasses.views hunburned
    · exact h.mirrored height s hcommitted

end World

/-- In every run that burns no pass, the energy store mirrors the passes after every
durable block. -/
theorem World.Reachable.energy_mirrors_state (cfg : IndexerConfig) (w : World)
    (h : World.Reachable cfg (World.BurnsNone cfg) w) (height : Nat) (s : IndexerState)
    (hs : w.committed height = some s) : EnergyMirrorsState s height := by
  have hinv := h.induct (P := World.UnburnedInv cfg)
    ⟨.initial, .empty, fun _ hr => absurd hr List.not_mem_nil, fun _ _ hn => by cases hn⟩
    (fun _ _ _ hi hc hs => hi.step hc hs)
  exact hinv.mirrored height s hs

namespace Sample

/-- Owner 7 holds 100000 sats from block 1 on. -/
def funded : BalanceHistory where
  rowAt := fun address height =>
    if address = 7 ∧ height = 1 then some (100000, 100000) else none
  consistent := by
    intro address height row h
    split at h
    · rename_i hc
      cases h
      obtain ⟨-, hh⟩ := hc
      obtain rfl : height = 0 := by omega
      simp [findLast]
    · cases h

/-- Owner 7 mints, and the inscription of the pass is spent as fee. -/
def burnActive : List Label :=
  [.prepare none [],
   .block (env funded 1 [payment 1 ⟨0, 0⟩ 7] [mint 1 []]) funded [],
   .block (env funded 2 [burn 2 ⟨1, 0⟩] []) funded []]

end Sample

/-- A run in which a pass is consumed, mirrored by its last energy record. -/
theorem World.Reachable.energy_mirrors_state_remint :
    ∃ w s, World.Reachable Sample.config (World.BurnsNone Sample.config) w ∧
      w.committed 2 = some s ∧ s.passStorage.minerPasses.map (·.state) = [.Consumed, .Active] ∧
      EnergyMirrorsState s 2 := by
  have hfollows : World.Follows Sample.config
      (World.PlansOnly (BlockEventExecutor.BurnsOnly (fun _ => False)) Sample.config)
      World.initial Sample.mintAndRemint := by decide +kernel
  have hrun : World.Reachable Sample.config (World.BurnsNone Sample.config)
      (Sample.mintAndRemint.foldl (World.next Sample.config) World.initial) := by
    refine World.Run.of_follows (.refl _) (hfollows.and (fun l hl w => ?_))
    simp only [Sample.mintAndRemint, List.mem_cons, List.not_mem_nil, or_false] at hl
    rcases hl with rfl | rfl | rfl
    · trivial
    · exact BalanceHistory.provider_inRange _
    · exact BalanceHistory.provider_inRange _
  obtain ⟨s, hs⟩ := Option.isSome_iff_exists.mp (show ((Sample.mintAndRemint.foldl
    (World.next Sample.config) World.initial).committed 2).isSome = true by decide +kernel)
  refine ⟨_, s, hrun, hs, ?_, World.Reachable.energy_mirrors_state _ _ hrun 2 s hs⟩
  have hstates : ((Sample.mintAndRemint.foldl (World.next Sample.config)
      World.initial).committed 2).map (fun s => s.passStorage.minerPasses.map (·.state)) =
      some [.Consumed, .Active] := by decide +kernel
  rw [hs] at hstates
  exact Option.some.inj hstates

/-- The burn of an Active pass leaves its energy record Active, and the energy of the
burned pass keeps growing. -/
theorem World.Reachable.burned_energy_grows :
    ∃ w s, World.Reachable Sample.config (fun _ _ => True) w ∧ w.committed 2 = some s ∧
      (s.passStorage.getPassByInscriptionId ⟨1, 0⟩).map (·.state) = some .Burned ∧
      energyAnswer s.energyStorage ⟨1, 0⟩ 2 = some { energy := 1000000000, state := .Active } ∧
      energyAnswer s.energyStorage ⟨1, 0⟩ 3 = some { energy := 2000000000, state := .Active } ∧
      ¬EnergyMirrorsState s 2 := by
  have hrun : World.Reachable Sample.config (fun _ _ => True)
      (Sample.burnActive.foldl (World.next Sample.config) World.initial) :=
    World.Run.of_follows (.refl _) (by decide +kernel)
  obtain ⟨s, hs⟩ := Option.isSome_iff_exists.mp (show ((Sample.burnActive.foldl
    (World.next Sample.config) World.initial).committed 2).isSome = true by decide +kernel)
  have hfacts : ((Sample.burnActive.foldl (World.next Sample.config)
      World.initial).committed 2).map (fun s =>
        ((s.passStorage.getPassByInscriptionId ⟨1, 0⟩).map (·.state),
          energyAnswer s.energyStorage ⟨1, 0⟩ 2, energyAnswer s.energyStorage ⟨1, 0⟩ 3)) =
      some (some .Burned, some { energy := 1000000000, state := .Active },
        some { energy := 2000000000, state := .Active }) := by decide +kernel
  rw [hs] at hfacts
  simp only [Option.map_some, Option.some.injEq, Prod.mk.injEq] at hfacts
  obtain ⟨hstate, hnow, hlater⟩ := hfacts
  refine ⟨_, s, hrun, hs, hstate, hnow, hlater, fun hmirrors => ?_⟩
  obtain ⟨p, hp, hburned⟩ := Option.map_eq_some_iff.mp hstate
  obtain ⟨r, -, -, hzero, hanswer⟩ := hmirrors ⟨1, 0⟩ p hp (by rw [hburned]; decide)
  have h2 := hanswer (by rw [hburned]; decide) 2 (Nat.le_refl _)
  rw [hnow, hburned, Option.some.injEq] at h2
  exact MinerPassState.noConfusion (congrArg PassEnergyResult.state h2)

end Usdb
