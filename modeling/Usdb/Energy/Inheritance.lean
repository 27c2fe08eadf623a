import Usdb.Energy.States

namespace Usdb

open Framework MinerPassStorage PassEnergyStorage PassEnergyManager InscriptionIndexer

namespace MinerPassStorage

/-- The history rows in which a Dormant pass is consumed. -/
def inheritances (ps : MinerPassStorage) : List InscriptionId :=
  (ps.passStateHistory.filter (fun r => r.prevState = some .Dormant ∧ r.newState = .Consumed)).map
    (·.inscriptionId)

/-- A history row starts from a state that the earlier rows of its pass lead to. -/
def HistoryLinked (ps : MinerPassStorage) : Prop :=
  ps.passStateHistory.Pairwise (fun a b => a.inscriptionId = b.inscriptionId →
    ∀ prev, b.prevState = some prev → a.newState.MayBecome (fun _ => True) prev)

theorem HistoryLinked.empty : HistoryLinked .empty := List.Pairwise.nil

theorem HistoryLinked.step {height : Nat} {ps ps' : MinerPassStorage} (h : ps.HistoryLinked)
    (ht : TableInv ps height) (hp : HistoryProgress (fun _ => True) ps)
    (hs : PassStep (fun _ => True) height ps ps') : ps'.HistoryLinked := by
  obtain ⟨id, q, r, v⟩ := hs.view ht.idBound
  unfold HistoryLinked
  rw [v.history, List.pairwise_append]
  refine ⟨h, List.pairwise_singleton _ _, fun a ha b hb he prev hprev => ?_⟩
  rw [List.mem_singleton] at hb
  subst hb
  obtain ⟨latest, hlatest, hm⟩ := hp.latest ha (ht.heightBound a ha)
  rw [he.trans v.inscriptionId] at hlatest
  obtain ⟨p, hrow, hmatch⟩ := ht.row_of_latest (Nat.le_refl _) hlatest
  rcases v.origin with ⟨hnone, -⟩ | ⟨p', hrow', -, hstate⟩
  · rw [hnone] at hrow
    cases hrow
  · rw [hrow'] at hrow
    cases hrow
    rw [hprev] at hstate
    cases hstate
    rw [← hmatch.1]
    exact hm

theorem HistoryLinked.reach {height : Nat} {ps ps' : MinerPassStorage} (h : ps.HistoryLinked)
    (ht : TableInv ps height) (hp : HistoryProgress (fun _ => True) ps)
    (hs : PassReach (fun _ => True) height ps ps') : ps'.HistoryLinked := by
  induction hs with
  | refl => exact h
  | tail hreach hstep ih => exact ih.step (ht.reach hreach) (hp.reach ht hreach) hstep

theorem HistoryLinked.quiet {cfg : IndexerConfig} {ps ps' : MinerPassStorage}
    (h : ps.HistoryLinked) (hs : QuietReach cfg ps ps') : ps'.HistoryLinked := by
  induction hs with
  | refl => exact h
  | tail _ hstep ih =>
    cases hstep with
    | cleared => exact ih
    | rolledBack target lower upper constraints => exact ih.filter _
    | adopted anchor genesis => exact ih
    | backfilled anchor => exact ih

/-- No pass is consumed twice. -/
theorem HistoryLinked.inheritances_nodup {ps : MinerPassStorage} (h : ps.HistoryLinked) :
    ps.inheritances.Nodup := by
  unfold inheritances
  rw [List.Nodup, List.pairwise_map, List.pairwise_filter]
  refine h.imp (fun {a b} hab ha hb he => ?_)
  obtain ⟨-, hconsumed⟩ := of_decide_eq_true ha
  obtain ⟨hdormant, -⟩ := of_decide_eq_true hb
  have hback := hab he .Dormant hdormant
  rw [hconsumed] at hback
  rcases hback with hn | ⟨hn, -⟩ | ⟨hn, -⟩ | ⟨hn, -⟩ <;> cases hn

theorem inheritances_changeRow (ps : MinerPassStorage) (id : InscriptionId) (height : Nat)
    (event : PassHistoryEvent) (p q : MinerPassInfo) :
    (ps.changeRow id height event p q).inheritances = ps.inheritances ++
      if p.state = .Dormant ∧ q.state = .Consumed then [id] else [] := by
  unfold inheritances changeRow appendPassHistoryEvent setRow
  dsimp only
  rw [List.filter_append, List.map_append]
  congr 1
  by_cases hc : p.state = .Dormant ∧ q.state = .Consumed
  · rw [if_pos hc, List.filter_cons_of_pos (by simpa using hc)]
    rfl
  · rw [if_neg hc, List.filter_cons_of_neg (by simpa using hc)]
    rfl

theorem inheritances_addRow (ps : MinerPassStorage) (info : MinerPassInfo) (height : Nat)
    (event : PassHistoryEvent) : (ps.addRow info height event).inheritances = ps.inheritances := by
  unfold inheritances addRow appendPassHistoryEvent
  dsimp only
  rw [List.filter_append, List.filter_cons_of_neg (by simp), List.filter_nil, List.append_nil]

end MinerPassStorage

namespace MinerPassManager

variable {s t : IndexerState} {provider : BalanceProvider} {mint : PassMintInscriptionInfo}

/-- The energy of a pass at a height. -/
def energyAt (e : PassEnergyStorage) (height : Nat) (id : InscriptionId) : Nat :=
  ((energyAnswer e id height).map (·.energy)).getD 0

/-- What a loop over `prev` has done to the passes it took energy from. -/
structure Inherited (mint : PassMintInscriptionInfo) (prev : List InscriptionId)
    (parents : List InscriptionId) (s t : IndexerState) : Prop where
  nodup : parents.Nodup
  mem : ∀ i, i ∈ parents ↔ i ∈ prev ∧ Inheritable s.passStorage mint.mintOwner i
  log : t.log = s.log
  history : t.passStorage.inheritances = s.passStorage.inheritances ++ parents
  others : ∀ i, i ∉ parents → ∀ k,
    t.energyStorage.getPassEnergyRecord i k = s.energyStorage.getPassEnergyRecord i k
  consumed : ∀ i ∈ parents, ∃ r, t.energyStorage.getPassEnergyRecord i mint.mintBlockHeight =
    some r ∧ r.state = .Consumed ∧ r.energy = 0

theorem inheritPrev_ok {prev : List InscriptionId} {inherited total : Nat}
    (hle : inherited ≤ u64Max) (h : inheritPrev mint inherited prev s = .ok total t) :
    ∃ parents, Inherited mint prev parents s t ∧
      total = min (inherited + (parents.map (energyAt s.energyStorage mint.mintBlockHeight)).sum)
        u64Max := by
  induction prev generalizing s inherited with
  | nil =>
    cases h
    refine ⟨[], ⟨List.nodup_nil, fun i => by simp, rfl, by simp, fun _ _ _ => rfl,
      fun i hi => absurd hi List.not_mem_nil⟩, ?_⟩
    simp only [List.map_nil, List.sum_nil, Nat.add_zero]
    exact (Nat.min_eq_left hle).symm
  | cons id rest ih =>
    rcases inheritPrev_cons_ok h with ⟨hnot, fs, h⟩ | ⟨hinh, fs, energy, s₁, hconsume, h⟩
    · obtain ⟨parents, hp, htotal⟩ := ih hle h
      refine ⟨parents, ⟨hp.nodup, fun i => ?_, hp.log, hp.history, hp.others, hp.consumed⟩, htotal⟩
      rw [hp.mem i, List.mem_cons]
      constructor
      · exact fun hi => ⟨.inr hi.1, hi.2⟩
      · rintro ⟨rfl | hi, hinh⟩
        · exact absurd hinh hnot
        · exact ⟨hi, hinh⟩
    · obtain ⟨p, fs', hrow, hdormant, -, hanswer, rfl⟩ := consumePass_ok hconsume
      obtain ⟨parents, hp, htotal⟩ := ih (satAdd_le _ _) h
      have hrow' : s.passStorage.getPassByInscriptionId id = some p := hrow
      have hinherit : ∀ i, Inheritable (s.passStorage.changeRow id mint.mintBlockHeight .stateUpdate p
          { p with state := .Consumed }) mint.mintOwner i ↔
          i ≠ id ∧ Inheritable s.passStorage mint.mintOwner i := by
        intro i
        have hsame : p.SameMint { p with state := .Consumed } := rfl
        unfold Inheritable
        rw [Midway.changeRow_rows hrow' hsame]
        by_cases hi : i = id
        · simp [hi]
        · simp [hi]
      have hfresh : id ∉ parents := by
        intro hid
        exact ((hinherit id).mp ((hp.mem id).mp hid).2).1 rfl
      have henergy : ∀ i ∈ parents, energyAt (s.energyStorage.insertPassEnergyRecord
          (consumedRecord id p.owner mint.mintBlockHeight)) mint.mintBlockHeight i =
          energyAt s.energyStorage mint.mintBlockHeight i := by
        intro i hi
        unfold energyAt energyAnswer
        rw [findLastPassEnergyRecord_congr _ s.energyStorage i mint.mintBlockHeight]
        intro j hj
        rw [getPassEnergyRecord_insert, if_neg]
        rintro ⟨rfl, -⟩
        exact hfresh hi
      have hown : energyAt s.energyStorage mint.mintBlockHeight id = energy := by
        have hanswer' : energyAnswer s.energyStorage id mint.mintBlockHeight = _ := hanswer
        unfold energyAt
        rw [hanswer']
        rfl
      refine ⟨id :: parents, ⟨?_, fun i => ?_, hp.log, ?_, fun i hi k => ?_, fun i hi => ?_⟩, ?_⟩
      · exact List.nodup_cons.mpr ⟨hfresh, hp.nodup⟩
      · rw [List.mem_cons, List.mem_cons, hp.mem i]
        have hi := hinherit i
        constructor
        · rintro (rfl | ⟨hmem, hin⟩)
          · exact ⟨.inl rfl, hinh⟩
          · exact ⟨.inr hmem, (hi.mp hin).2⟩
        · rintro ⟨rfl | hmem, hin⟩
          · exact .inl rfl
          · by_cases he : i = id
            · exact .inl he
            · exact .inr ⟨hmem, hi.mpr ⟨he, hin⟩⟩
      · rw [hp.history]
        show (s.passStorage.changeRow id mint.mintBlockHeight .stateUpdate p
          { p with state := .Consumed }).inheritances ++ parents = _
        rw [inheritances_changeRow, if_pos ⟨hdormant, rfl⟩]
        simp
      · rw [List.mem_cons, not_or] at hi
        rw [hp.others i hi.2 k]
        show (s.energyStorage.insertPassEnergyRecord _).getPassEnergyRecord i k = _
        rw [getPassEnergyRecord_insert, if_neg (fun hkey => hi.1 hkey.1)]
      · rcases List.mem_cons.mp hi with rfl | hi
        · refine ⟨consumedRecord i p.owner mint.mintBlockHeight, ?_, rfl, rfl⟩
          rw [hp.others i hfresh]
          show (s.energyStorage.insertPassEnergyRecord _).getPassEnergyRecord i _ = _
          rw [getPassEnergyRecord_insert, if_pos ⟨rfl, rfl⟩]
        · exact hp.consumed i hi
      · have hsum : (parents.map (energyAt (s.energyStorage.insertPassEnergyRecord
            (consumedRecord id p.owner mint.mintBlockHeight)) mint.mintBlockHeight)).sum =
            (parents.map (energyAt s.energyStorage mint.mintBlockHeight)).sum := by
          rw [List.map_congr_left henergy]
        have htotal' : total = min (satAdd inherited energy + (parents.map (energyAt
            (s.energyStorage.insertPassEnergyRecord (consumedRecord id p.owner
              mint.mintBlockHeight)) mint.mintBlockHeight)).sum) u64Max := htotal
        rw [htotal', hsum, List.map_cons, List.sum_cons, hown]
        unfold satAdd
        omega

/-- What a mint inherits, from the state in which the last pass of its owner is at rest:
each distinct Dormant pass of the minter named in `prev` is consumed once, their energies
add up, and their last energy record is an empty Consumed one. -/
structure MintConserves (mint : PassMintInscriptionInfo) (parents : List InscriptionId)
    (s t : IndexerState) : Prop where
  nodup : parents.Nodup
  mem : ∀ i, i ∈ parents ↔ i ∈ mint.prev ∧ Inheritable s.passStorage mint.mintOwner i
  history : t.passStorage.inheritances = s.passStorage.inheritances ++ parents
  logged : ∃ line, t.log = s.log ++ [line] ∧ line.inscriptionId = mint.inscriptionId ∧
    line.inheritedEnergy =
      min (parents.map (energyAt s.energyStorage mint.mintBlockHeight)).sum u64Max
  recorded : energyAt t.energyStorage mint.mintBlockHeight mint.inscriptionId =
    min (parents.map (energyAt s.energyStorage mint.mintBlockHeight)).sum u64Max
  last : ∀ i ∈ parents, ∃ r, (∀ k, mint.mintBlockHeight ≤ k →
    t.energyStorage.findLastPassEnergyRecord i k = some r) ∧ r.state = .Consumed ∧ r.energy = 0

theorem dormantLastPass_inheritances (h : dormantLastPass provider mint s = .ok () t) :
    t.passStorage.inheritances = s.passStorage.inheritances ∧ t.log = s.log := by
  rcases dormantLastPass_ok h with ⟨-, fs, rfl⟩ | ⟨last, fs, -, -, ha, -, hdorm⟩
  · exact ⟨rfl, rfl⟩
  · obtain ⟨e, fs', rfl⟩ := onPassDormant_frame hdorm
    refine ⟨?_, rfl⟩
    show (s.passStorage.changeRow last.inscriptionId mint.mintBlockHeight .stateUpdate last
      { last with state := .Dormant }).inheritances = _
    rw [inheritances_changeRow, if_neg, List.append_nil]
    rintro ⟨-, hn⟩
    cases hn

theorem onMintPass_conserves (hbelow : t.energyStorage.RecordsBelow mint.mintBlockHeight)
    (h : onMintPass provider mint s = .ok () t) :
    ∃ s₁ parents, dormantLastPass provider mint s = .ok () s₁ ∧
      MintConserves mint parents s₁ t := by
  obtain ⟨s₁, fs, inherited, s₂, hdorm, hc, hinh, hnew⟩ := onMintPass_ok h
  obtain ⟨parents, hp, htotal⟩ := inheritPrev_ok (Nat.zero_le _) hinh
  obtain ⟨balance, fs', -, rfl⟩ := onNewPass_ok hnew
  have hfresh : s₁.passStorage.getPassByInscriptionId mint.inscriptionId = none :=
    getPassByInscriptionId_fresh hc
  have hinherit : ∀ i, Inheritable (s₁.passStorage.addRow (newMintPassInfo mint)
      mint.mintBlockHeight .mint) mint.mintOwner i ↔
      Inheritable s₁.passStorage mint.mintOwner i := by
    intro i
    unfold Inheritable
    rw [MinerPassStorage.addRow, getPassByInscriptionId_append, getPassByInscriptionId_insert]
    by_cases hi : i = mint.inscriptionId
    · subst hi
      rw [hfresh]
      simp [newMintPassInfo]
    · have hne : (newMintPassInfo mint).inscriptionId ≠ i := fun he => hi he.symm
      simp [hne]
  have hmem : ∀ i, i ∈ parents ↔ i ∈ mint.prev ∧ Inheritable s₁.passStorage mint.mintOwner i := by
    intro i
    rw [hp.mem i]
    exact and_congr_right (fun _ => hinherit i)
  have hother : ∀ i ∈ parents, i ≠ mint.inscriptionId := by
    rintro i hi rfl
    obtain ⟨p, hrow, -⟩ := ((hmem _).mp hi).2
    rw [hfresh] at hrow
    cases hrow
  have hvalue : inherited =
      min (parents.map (energyAt s₁.energyStorage mint.mintBlockHeight)).sum u64Max := by
    rw [Nat.zero_add] at htotal
    exact htotal
  refine ⟨s₁, parents, hdorm, ⟨hp.nodup, hmem, ?_, ?_, ?_, fun i hi => ?_⟩⟩
  · rw [show s₁.passStorage.inheritances = (s₁.passStorage.addRow (newMintPassInfo mint)
      mint.mintBlockHeight .mint).inheritances from (inheritances_addRow _ _ _ _).symm]
    exact hp.history
  · refine ⟨{ inscriptionId := mint.inscriptionId, blockHeight := mint.mintBlockHeight
              ownerAddress := mint.mintOwner, initialBalance := balance.balance
              delta := balance.delta, inheritedEnergy := inherited }, ?_, rfl, hvalue⟩
    show s₂.log ++ _ = _
    rw [hp.log]
  · rw [← hvalue]
    have hlast : (s₂.energyStorage.insertPassEnergyRecord (newPassRecord mint.inscriptionId
        mint.mintOwner mint.mintBlockHeight inherited balance)).findLastPassEnergyRecord
          mint.inscriptionId mint.mintBlockHeight = some (newPassRecord mint.inscriptionId
            mint.mintOwner mint.mintBlockHeight inherited balance) := by
      refine (findLastPassEnergyRecord_eq_some _ _ _ _).mpr ⟨Nat.le_refl _, ?_, fun j hj hle => ?_⟩
      · exact (getPassEnergyRecord_insert _ _ _ _).trans (if_pos ⟨rfl, rfl⟩)
      · exact absurd hj (Nat.not_lt.mpr hle)
    unfold energyAt energyAnswer
    rw [hlast]
    simp [projectEnergyRecordNoBalanceChange, newPassRecord]
  · obtain ⟨r, hr, hstate, hzero⟩ := hp.consumed i hi
    have hkey := (getPassEnergyRecord_key _ _ _ _ hr).2
    refine ⟨r, fun k hk => ?_, hstate, hzero⟩
    refine hbelow.last ((findLastPassEnergyRecord_eq_some _ _ _ _).mpr
      ⟨Nat.le_of_eq hkey, ?_, fun j hj hle => ?_⟩) hk
    · rw [getPassEnergyRecord_insert, if_neg (fun hk => hother i hi hk.1), hkey]
      exact hr
    · omega

end MinerPassManager

namespace World

variable {cfg : IndexerConfig} {w w' : World} {l : Label}

theorem Step.historyLinked (hi : PassInv (fun _ => True) cfg w.indexer.passStorage)
    (hl : w.indexer.passStorage.HistoryLinked) (hs : Step cfg w l w') :
    w'.indexer.passStorage.HistoryLinked := by
  rcases hs.quiet_or_block with ⟨hq, -⟩ | ⟨env, balances, faults, t, -, -, ⟨run⟩, rfl⟩
  · exact hl.quiet hq
  · have hreach : PassReach (fun _ => True) (w.height cfg + 1) w.indexer.passStorage
        run.minted.passStorage := run.minted_reach (BlockEventExecutor.eventsSatisfy_of_forall
          BlockEventExecutor.burnsOnly_true _ _)
    have hlinked := hl.reach (hi.table.mono (Nat.le_succ _)) hi.history hreach
    show t.passStorage.HistoryLinked
    rw [run.passStorage_final]
    exact hlinked

theorem Reachable.historyLinked {cond : World → Label → Prop} (h : Reachable cfg cond w) :
    w.indexer.passStorage.HistoryLinked := by
  have hboth := h.induct (P := fun w => w.indexer.passStorage.HistoryLinked ∧
      PassInv (fun _ => True) cfg w.indexer.passStorage) ⟨.empty, .empty⟩
    (fun _ _ _ hi _ hs => ⟨hs.historyLinked hi.2 hi.1, hs.passInv hi.2⟩)
  exact hboth.1

end World

/-- In every run no pass is consumed twice, and a consumed pass is left with nothing; and
whatever events of a next block have been executed before it, a mint consumes each distinct
Dormant pass of the minter in its `prev` list once, starts with the sum of their energies,
and leaves them with nothing. -/
theorem World.Reachable.inheritance_conserved (cfg : IndexerConfig) (w : World)
    (h : World.Reachable cfg (BooksRule.states.Admits cfg) w) :
    w.indexer.passStorage.inheritances.Nodup ∧
      (∀ id p, w.indexer.passStorage.getPassByInscriptionId id = some p → p.state = .Consumed →
        ∃ r, w.indexer.energyStorage.findLastPassEnergyRecord id (w.height cfg) = some r ∧
          r.state = .Consumed ∧ r.energy = 0) ∧
      ∀ provider events mint working faults fs s t, w.phase = .syncing →
        provider.AnswersInRange →
        (∀ event ∈ events, event.height = w.height cfg + 1) →
        mint.mintBlockHeight = w.height cfg + 1 →
        BlockEventExecutor.execute provider events
          (begun (w.indexer.withFaults fs) (w.height cfg + 1) working faults) = .ok () s →
        MinerPassManager.onMintPass provider mint s = .ok () t →
        t.passStorage.inheritances.Nodup ∧
          ∃ s₁ parents, MinerPassManager.dormantLastPass provider mint s = .ok () s₁ ∧
            s₁.passStorage.inheritances = s.passStorage.inheritances ∧ s₁.log = s.log ∧
            MinerPassManager.MintConserves mint parents s₁ t := by
  have hlinked := h.historyLinked
  have hpasses := h.passInv
  have henergy := h.energyInv monotone_const (fun k => Nat.zero_le k)
    (fun w l hc => ⟨hc, World.failsSafely_zero cfg w l⟩)
  refine ⟨hlinked.inheritances_nodup, fun id p hp hconsumed => ?_, ?_⟩
  · have hnow := hpasses.table.stateAt_current hp (Nat.le_refl (w.height cfg))
    rw [hconsumed] at hnow
    obtain ⟨j, r, hlast, hstate, hzero⟩ :=
      findLast_consumed (henergy.books.ledger.entries id p hp) hnow
    exact ⟨r, findLastPassEnergyRecord_of_findLast hlast, hstate, hzero⟩
  intro provider events mint working faults fs s t hphase hrange hev hm hexec hmint
  have hserved := statesOnly_served hrange (w.height cfg + 1)
  have hbegun : Midway statesOnly 0 (w.height cfg) w.indexer
      (begun (w.indexer.withFaults fs) (w.height cfg + 1) working faults) (fun _ => False) :=
    Midway.begun henergy.books (henergy.below hphase) hpasses.table hpasses.views working faults
  have hattempt := (Attempt.execute hserved henergy.books.ledger.absent hev).ok hbegun.attempt hexec
  have hattempt' := (Attempt.onMintPass hserved henergy.books.ledger.absent hm).ok hattempt hmint
  have hbelow : t.energyStorage.RecordsBelow mint.mintBlockHeight := by
    rw [hm]
    exact hattempt'.energy.below
  have htable := hpasses.table.mono (Nat.le_succ _)
  have hburns : BlockEventExecutor.EventsSatisfy (BlockEventExecutor.BurnsOnly (fun _ => True))
      provider events (begun (w.indexer.withFaults fs) (w.height cfg + 1) working faults) :=
    BlockEventExecutor.eventsSatisfy_of_forall BlockEventExecutor.burnsOnly_true _ _
  have hreach : PassReach (fun _ => True) (w.height cfg + 1) w.indexer.passStorage s.passStorage :=
    BlockEventExecutor.execute_reach (s := begun (w.indexer.withFaults fs) (w.height cfg + 1)
      working faults) hev hburns hexec
  have hreach' : PassReach (fun _ => True) (w.height cfg + 1) s.passStorage t.passStorage := by
    rw [← hm]
    exact MinerPassManager.onMintPass_reach hmint
  obtain ⟨s₁, parents, hdorm, hconserves⟩ := MinerPassManager.onMintPass_conserves hbelow hmint
  obtain ⟨hsame, hlog⟩ := MinerPassManager.dormantLastPass_inheritances hdorm
  exact ⟨(hlinked.reach htable hpasses.history (hreach.trans hreach')).inheritances_nodup, s₁,
    parents, hdorm, hsame, hlog, hconserves⟩

namespace Sample

/-- The second mint of owner 7, which names the first pass twice. -/
def remint : PassMintInscriptionInfo where
  inscriptionId := ⟨2, 0⟩
  inscriptionNumber := 0
  mintTxid := 2
  mintBlockHeight := 2
  mintOwner := 7
  satpoint := ⟨⟨2, 0⟩, 0⟩
  ethMain := ""
  ethCollab := none
  prev := [⟨1, 0⟩, ⟨1, 0⟩]

/-- Owner 7 mints with a balance of 100000 sats. -/
def mintFunded : List Label :=
  [.prepare none [], .block (env funded 1 [payment 1 ⟨0, 0⟩ 7] [mint 1 []]) funded []]

end Sample

/-- A pass named twice in a `prev` list is consumed once. -/
theorem World.Reachable.inheritance_conserved_remint :
    ∃ w s t, World.Reachable Sample.config (BooksRule.states.Admits Sample.config) w ∧
      MinerPassManager.onMintPass Sample.funded.provider Sample.remint s = .ok () t ∧
      t.passStorage.inheritances = [⟨1, 0⟩] ∧ t.passStorage.inheritances.Nodup ∧
      ∃ s₁ parents, MinerPassManager.dormantLastPass Sample.funded.provider Sample.remint s =
          .ok () s₁ ∧
        s₁.passStorage.inheritances = s.passStorage.inheritances ∧ s₁.log = s.log ∧
        MinerPassManager.MintConserves Sample.remint parents s₁ t := by
  have hrun : World.Reachable Sample.config (BooksRule.states.Admits Sample.config)
      (Sample.mintFunded.foldl (World.next Sample.config) World.initial) :=
    World.Run.of_follows (.refl _) ⟨by decide +kernel, trivial, by decide +kernel,
      BalanceHistory.provider_inRange _, trivial⟩
  have hphase : (Sample.mintFunded.foldl (World.next Sample.config) World.initial).phase =
      .syncing := by decide +kernel
  have hheight : Sample.remint.mintBlockHeight =
      (Sample.mintFunded.foldl (World.next Sample.config) World.initial).height Sample.config + 1 :=
    by decide +kernel
  have hlogged : (okState (MinerPassManager.onMintPass Sample.funded.provider Sample.remint
      (begun ((Sample.mintFunded.foldl (World.next Sample.config) World.initial).indexer.withFaults
        []) ((Sample.mintFunded.foldl (World.next Sample.config) World.initial).height Sample.config
          + 1) MultiMap.new []))).map (·.passStorage.inheritances) = some [⟨1, 0⟩] := by
    decide +kernel
  generalize Sample.mintFunded.foldl (World.next Sample.config) World.initial = w at *
  obtain ⟨t, hok, hinherited⟩ := Option.map_eq_some_iff.mp hlogged
  obtain ⟨_, ht⟩ := okState_eq_some hok
  obtain ⟨hnodup, hrest⟩ := (World.Reachable.inheritance_conserved _ w hrun).2.2
    Sample.funded.provider [] Sample.remint MultiMap.new [] [] _ t hphase
    (BalanceHistory.provider_inRange _) (fun _ he => absurd he List.not_mem_nil) hheight rfl ht
  exact ⟨w, _, t, hrun, ht, hinherited, hnodup, hrest⟩

end Usdb
