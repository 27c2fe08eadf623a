import Usdb.Index.EventRows
import Usdb.Index.PlanOrder

namespace Usdb

open Framework MinerPassStorage InscriptionTransferTracker BlockEventPlanner

/-- Whether the tracker lists a pass in a state, given the state the pass had when the
tracker was last loaded. The load leaves Consumed passes out and lists Burned ones; a block
keeps a pass that is consumed and drops one that is burned. -/
def MinerPassState.Listed (loaded : Option MinerPassState) : MinerPassState → Prop
  | .Active => True
  | .Dormant => True
  | .Consumed => loaded ≠ some .Consumed
  | .Burned => loaded = some .Burned
  | .Invalid => False

instance (loaded : Option MinerPassState) (state : MinerPassState) :
    Decidable (state.Listed loaded) :=
  match state with
  | .Active => .isTrue trivial
  | .Dormant => .isTrue trivial
  | .Consumed => inferInstanceAs (Decidable (_ ≠ _))
  | .Burned => inferInstanceAs (Decidable (_ = _))
  | .Invalid => .isFalse id

/-- What the tracker lists for a row. -/
def listing (loaded : Option MinerPassState) (row : Option MinerPassInfo) :
    Option ValidMinerPassInfo :=
  row.bind (fun p => if p.state.Listed loaded then some p.entry else none)

/-- The place of an inscription in the tracker is that of its row, and the row has not
left a terminal state it was loaded in. -/
structure RowTracks (loaded : Option MinerPassState) (row : Option MinerPassInfo)
    (place : Option ValidMinerPassInfo) : Prop where
  place_eq : place = listing loaded row
  consumed : loaded = some .Consumed →
    ∃ p, row = some p ∧ (p.state = .Consumed ∨ p.state = .Burned)
  burned : loaded = some .Burned → ∃ p, row = some p ∧ p.state = .Burned

theorem MinerPassState.Fades.burned {a b : MinerPassState} (h : a.Fades b) :
    b = .Burned ↔ a = .Burned := by
  rcases h with rfl | ⟨ha, hb⟩
  · exact Iff.rfl
  · rcases ha with rfl | rfl <;> rcases hb with rfl | rfl <;> simp

theorem MinerPassState.Fades.consumed {a b : MinerPassState} (h : a.Fades b)
    (ha : a = .Consumed) : b = .Consumed := by
  rcases h with rfl | ⟨hstate, -⟩
  · exact ha
  · rcases hstate with rfl | rfl <;> cases ha

theorem listing_some {loaded : Option MinerPassState} {p : MinerPassInfo}
    (h : p.state.Listed loaded) : listing loaded (some p) = some p.entry :=
  if_pos h

theorem listing_skipped {loaded : Option MinerPassState} {p : MinerPassInfo}
    (h : ¬p.state.Listed loaded) : listing loaded (some p) = none :=
  if_neg h

namespace RowTracks

variable {loaded : Option MinerPassState} {row row' : Option MinerPassInfo}
  {place : Option ValidMinerPassInfo} {p q : MinerPassInfo} {v : ValidMinerPassInfo}

/-- A fading state is listed as it was before. -/
theorem listed_fades (h : RowTracks loaded (some p) place) (hf : p.state.Fades q.state) :
    q.state.Listed loaded ↔ p.state.Listed loaded := by
  rcases hf with he | ⟨hp, hq⟩
  · rw [he]
  · have hfresh : loaded ≠ some .Consumed := by
      intro hl
      obtain ⟨p', hp', hstate⟩ := h.consumed hl
      cases hp'
      rcases hp with hp | hp <;> rw [hp] at hstate <;> simp at hstate
    rcases hp with hp | hp <;> rcases hq with hq | hq <;> rw [hp, hq] <;>
      simp [MinerPassState.Listed, hfresh]

/-- The row changes its state and its place, and stays listed. -/
theorem moved (h : RowTracks loaded (some p) (some v)) (hf : p.state.Fades q.state) :
    RowTracks loaded (some q) (some q.entry) := by
  have hlisted : p.state.Listed loaded := by
    by_contra hskipped
    have hplace := h.place_eq
    rw [listing_skipped hskipped] at hplace
    cases hplace
  refine ⟨(listing_some ((h.listed_fades hf).mpr hlisted)).symm, ?_, ?_⟩
  · intro hl
    obtain ⟨p', hp', hstate⟩ := h.consumed hl
    cases hp'
    exact ⟨q, rfl, hstate.imp hf.consumed hf.burned.mpr⟩
  · intro hl
    obtain ⟨p', hp', hstate⟩ := h.burned hl
    cases hp'
    exact ⟨q, rfl, hf.burned.mpr hstate⟩

theorem rests (h : RowTracks loaded row place) (hr : RowRests row row') :
    RowTracks loaded row' place := by
  cases hr with
  | none => exact h
  | @some p q hrest =>
    refine ⟨?_, ?_, ?_⟩
    · rw [h.place_eq]
      by_cases hlisted : p.state.Listed loaded
      · rw [listing_some hlisted, listing_some ((h.listed_fades hrest.2).mpr hlisted), hrest.1]
      · rw [listing_skipped hlisted,
          listing_skipped (fun hq => hlisted ((h.listed_fades hrest.2).mp hq))]
    · intro hl
      obtain ⟨p', hp', hstate⟩ := h.consumed hl
      cases hp'
      exact ⟨q, rfl, hstate.imp hrest.2.consumed hrest.2.burned.mpr⟩
    · intro hl
      obtain ⟨p', hp', hstate⟩ := h.burned hl
      cases hp'
      exact ⟨q, rfl, hrest.2.burned.mpr hstate⟩

/-- A pass that is burned in a block is dropped, as one that was never loaded. -/
theorem burn (hq : q.state = .Burned) : RowTracks none (some q) none := by
  refine ⟨?_, fun hl => (nomatch hl), fun hl => (nomatch hl)⟩
  refine (listing_skipped ?_).symm
  rw [hq]
  exact fun hl => nomatch hl

theorem mint (h : RowTracks loaded none place) (hf : MinerPassState.Fades .Active p.state) :
    RowTracks loaded (some p) (some p.entry) := by
  have hc : loaded ≠ some .Consumed := fun hl => nomatch (h.consumed hl)
  have hb : loaded ≠ some .Burned := fun hl => nomatch (h.burned hl)
  refine ⟨(listing_some ?_).symm, fun hl => absurd hl hc, fun hl => absurd hl hb⟩
  rcases hf with he | ⟨-, hstate⟩
  · rw [he]
    trivial
  · rcases hstate with he | he <;> rw [he]
    · trivial
    · exact hc

theorem invalid (h : RowTracks loaded none place) (hp : p.state = .Invalid) :
    RowTracks loaded (some p) place := by
  have hc : loaded ≠ some .Consumed := fun hl => nomatch (h.consumed hl)
  have hb : loaded ≠ some .Burned := fun hl => nomatch (h.burned hl)
  refine ⟨?_, fun hl => absurd hl hc, fun hl => absurd hl hb⟩
  rw [h.place_eq]
  refine (listing_skipped ?_).symm
  rw [hp]
  exact id

end RowTracks

namespace BlockEventExecutor

variable {s t : IndexerState} {u : Unit} {provider : BalanceProvider} {id : InscriptionId}
  {events : List BlockProcessEvent} {loaded : Option MinerPassState}
  {place place' : Option ValidMinerPassInfo}

/-- The mints that have been carried out are new, each under an id of its own. -/
theorem execute_mints (h : execute provider events s = .ok u t) :
    ((mintsOf events).map (·.inscriptionId)).Nodup ∧
      ∀ item ∈ mintsOf events,
        s.passStorage.getPassByInscriptionId item.inscriptionId = none := by
  induction events generalizing s with
  | nil => exact ⟨List.nodup_nil, fun _ h => absurd h List.not_mem_nil⟩
  | cons event rest ih =>
    obtain ⟨_, s₁, hevent, hrest⟩ := bind_eq_ok h
    obtain ⟨hnodup, hfresh⟩ := ih hrest
    have hearlier : ∀ item ∈ mintsOf rest,
        s.passStorage.getPassByInscriptionId item.inscriptionId = none := by
      intro item hitem
      have hrows := executeEvent_rows hevent item.inscriptionId
      rw [hfresh item hitem] at hrows
      exact hrows.eq_none
    cases event with
    | Mint item =>
      obtain ⟨hnone, p, hp, -⟩ := (executeEvent_rows hevent item.inscriptionId).mint_same rfl
      have hmints : mintsOf (.Mint item :: rest) = item :: mintsOf rest := rfl
      rw [hmints]
      refine ⟨List.nodup_cons.mpr ⟨?_, hnodup⟩, ?_⟩
      · intro hmem
        obtain ⟨other, hother, hid⟩ := List.mem_map.mp hmem
        have hlater := hfresh other hother
        dsimp only at hid
        rw [hid, hp] at hlater
        cases hlater
      · intro other hother
        rcases List.mem_cons.mp hother with rfl | hother
        · exact hnone
        · exact hearlier other hother
    | Transfer item => exact ⟨hnodup, hearlier⟩

/-- The events of a block take the row of a pass where its moves take its tracker entry. -/
theorem execute_rowTracks
    (htracks : RowTracks loaded (s.passStorage.getPassByInscriptionId id) place)
    (hmoves : Moves place (transfersOf id events) place')
    (hmint : ∀ item ∈ mintsOf events, item.inscriptionId ≠ id)
    (h : execute provider events s = .ok u t) :
    ∃ loaded', RowTracks loaded' (t.passStorage.getPassByInscriptionId id) place' := by
  induction events generalizing s place loaded with
  | nil =>
    cases h
    cases hmoves
    exact ⟨loaded, htracks⟩
  | cons event rest ih =>
    obtain ⟨_, s₁, hevent, hrest⟩ := bind_eq_ok h
    have hrows := executeEvent_rows hevent id
    cases event with
    | Mint item =>
      have hrests := hrows.mint_other (hmint item (List.mem_cons_self ..))
      exact ih (htracks.rests hrests) hmoves
        (fun other hother => hmint other (List.mem_cons_of_mem _ hother)) hrest
    | Transfer item =>
      by_cases hid : item.inscriptionId = id
      · rw [transfersOf_same hid] at hmoves
        obtain ⟨p, q, hp, hq, hitem⟩ := hrows.transfer_same hid
        rw [hp] at htracks
        cases hmoves with
        | cons same source sender tail =>
          have hentry : ∃ loaded', RowTracks loaded' (some q) item.entry := by
            unfold InscriptionTransferItem.entry
            cases ha : item.toAddress with
            | some owner =>
              rw [ha] at hitem
              have hmoved := htracks.moved hitem.1
              rw [hitem.2] at hmoved
              rw [hid]
              exact ⟨loaded, hmoved⟩
            | none =>
              rw [ha] at hitem
              exact ⟨none, .burn hitem.1⟩
          obtain ⟨loaded', hentry⟩ := hentry
          rw [← hq] at hentry
          exact ih hentry tail hmint hrest
      · rw [transfersOf_other hid] at hmoves
        rw [← hrows.transfer_other hid] at htracks
        exact ih htracks hmoves hmint hrest

/-- A pass minted in the block is tracked from the place it was minted at. -/
theorem execute_rowTracks_minted {item : InscriptionNewItem} (hitem : item ∈ mintsOf events)
    (hid : item.inscriptionId = id)
    (htracks : RowTracks loaded (s.passStorage.getPassByInscriptionId id) none)
    (hmoves : Moves (some { inscriptionId := id, owner := item.address, satpoint := item.satpoint })
      (transfersOf id events) place')
    (h : execute provider events s = .ok u t) :
    ∃ loaded', RowTracks loaded' (t.passStorage.getPassByInscriptionId id) place' := by
  have hfresh := (execute_mints h).2 item hitem
  rw [hid] at hfresh
  induction events generalizing s with
  | nil => cases hitem
  | cons event rest ih =>
    have hnodup := (execute_mints h).1
    obtain ⟨_, s₁, hevent, hrest⟩ := bind_eq_ok h
    have hrows := executeEvent_rows hevent id
    cases event with
    | Mint other =>
      have hmints : mintsOf (.Mint other :: rest) = other :: mintsOf rest := rfl
      have htransfers : transfersOf id (.Mint other :: rest) = transfersOf id rest := rfl
      rw [hmints] at hnodup hitem
      rw [htransfers] at hmoves
      rw [hfresh] at hrows htracks
      obtain ⟨hhead, -⟩ := List.nodup_cons.mp hnodup
      by_cases hother : other.inscriptionId = id
      · have hsame : item = other := by
          rcases List.mem_cons.mp hitem with rfl | hlater
          · rfl
          · exact absurd (List.mem_map.mpr ⟨item, hlater, hid.trans hother.symm⟩) hhead
        subst hsame
        obtain ⟨-, p, hp, hstate, hentry⟩ := hrows.mint_same hid
        have hminted := htracks.mint hstate
        rw [hentry, ← hp] at hminted
        refine execute_rowTracks hminted hmoves (fun later hlater he => ?_) hrest
        exact hhead (List.mem_map.mpr ⟨later, hlater, he.trans hid.symm⟩)
      · have hlater : item ∈ mintsOf rest := by
          rcases List.mem_cons.mp hitem with rfl | hlater
          · exact absurd hid hother
          · exact hlater
        have hnone := (hrows.mint_other hother).of_none
        rw [← hnone] at htracks
        exact ih hlater htracks hmoves hrest hnone
    | Transfer other =>
      rw [hfresh] at hrows
      by_cases hother : other.inscriptionId = id
      · obtain ⟨p, q, hp, -⟩ := hrows.transfer_same hother
        cases hp
      · have hnone := hrows.transfer_other hother
        rw [transfersOf_other hother] at hmoves
        rw [hfresh, ← hnone] at htracks
        exact ih hitem htracks hmoves hrest hnone

end BlockEventExecutor

/-- The tracker lists each pass where the pass table has it, and no other inscription. -/
structure Tracks (loaded : InscriptionId → Option MinerPassState) (ps : MinerPassStorage)
    (m : MultiMap) : Prop where
  distinct : m.Distinct
  rows : ∀ id, ∃ place, m.Holds id place ∧
    RowTracks (loaded id) (ps.getPassByInscriptionId id) place

/-- A minted pass as the transfer tracker lists it. -/
def InscriptionNewItem.entry (item : InscriptionNewItem) : ValidMinerPassInfo where
  inscriptionId := item.inscriptionId
  owner := item.address
  satpoint := item.satpoint

/-- The block spends no outpoint that a pass was burned from. -/
def SparesBurned (ps : MinerPassStorage) (block : Block) : Prop :=
  ∀ p ∈ ps.minerPasses, p.state = .Burned → ∀ tx ∈ block.txdata, p.satpoint.outpoint ∉ tx.input

instance (ps : MinerPassStorage) (block : Block) : Decidable (SparesBurned ps block) :=
  inferInstanceAs (Decidable (∀ p ∈ ps.minerPasses, _))

namespace Tracks

variable {loaded : InscriptionId → Option MinerPassState} {ps ps' : MinerPassStorage}
  {m : MultiMap}

theorem placed (h : Tracks loaded ps m) : m.Placed := by
  intro k v hv
  obtain ⟨place, hholds, -⟩ := h.rows v.inscriptionId
  exact (hholds.place_id hv rfl).2.symm

theorem congr (h : Tracks loaded ps m) (hrows : ps'.minerPasses = ps.minerPasses) :
    Tracks loaded ps' m := by
  refine ⟨h.distinct, fun id => ?_⟩
  unfold getPassByInscriptionId
  rw [hrows]
  exact h.rows id

end Tracks

namespace InscriptionIndexer

theorem processInvalidMints_rows {s t : IndexerState} {u : Unit}
    {items : List InvalidPassMintInscriptionInfo} (h : processInvalidMints items s = .ok u t)
    (id : InscriptionId) :
    t.passStorage.getPassByInscriptionId id = s.passStorage.getPassByInscriptionId id ∨
      (s.passStorage.getPassByInscriptionId id = none ∧
        ∃ p, t.passStorage.getPassByInscriptionId id = some p ∧ p.state = .Invalid) := by
  induction items generalizing s with
  | nil =>
    cases h
    exact .inl rfl
  | cons item rest ih =>
    obtain ⟨_, s₁, hmint, h⟩ := bind_eq_ok h
    obtain ⟨fs, hc, rfl⟩ := MinerPassManager.onInvalidMintPass_ok hmint
    have hrow : (s.passStorage.addRow (MinerPassManager.invalidMintPassInfo item) item.mintBlockHeight
        .invalidMint).getPassByInscriptionId id =
          if id = item.inscriptionId then some (MinerPassManager.invalidMintPassInfo item)
          else s.passStorage.getPassByInscriptionId id :=
      getPassByInscriptionId_addRow hc id
    have hrest := ih h
    dsimp only at hrest
    rw [hrow] at hrest
    by_cases hid : id = item.inscriptionId
    · rw [if_pos hid] at hrest
      have hfresh : s.passStorage.getPassByInscriptionId id = none := by
        rw [hid]
        exact getPassByInscriptionId_fresh hc
      rcases hrest with hrest | ⟨hnone, -⟩
      · exact .inr ⟨hfresh, _, hrest, rfl⟩
      · cases hnone
    · rw [if_neg hid] at hrest
      exact hrest

variable {cfg : IndexerConfig} {env : BlockEnv} {height : Nat} {s t : IndexerState}
  {loaded : InscriptionId → Option MinerPassState}

theorem seedInscriptions_eq (m : MultiMap) (items : List InscriptionNewItem) :
    seedInscriptions m (buildTransferTrackSeeds items) = m.insertAll (items.map (·.entry)) := by
  unfold seedInscriptions buildTransferTrackSeeds
  rw [List.map_map]
  rfl

namespace AppliedBlock

/-- Where the tracker looks for the inscriptions of a block: the passes it tracks already,
and the new ones where they were minted. -/
def seeded (run : AppliedBlock cfg env height s) : MultiMap :=
  s.inscriptions.insertAll (run.mints.validItems.map (·.entry))

theorem tracked_seeded (run : AppliedBlock cfg env height s) :
    processTxs env.btc height run.seeded [] run.block.txdata run.trackFrom =
      .ok (run.working, run.items) run.trackTo := by
  unfold seeded
  rw [← seedInscriptions_eq]
  exact run.tracked

/-- The moves of a block are found in the order of its transactions. -/
theorem items_ordered (run : AppliedBlock cfg env height s) (hwf : run.block.WellFormed)
    (hdistinct : s.inscriptions.Distinct) (hplaced : s.inscriptions.Placed) :
    (∀ item ∈ run.items, ∃ tx ∈ run.block.txdata, item.prevSatpoint.outpoint ∈ tx.input) ∧
      run.items.Pairwise (NotAfter run.block.position run.block.inputIndex) := by
  obtain ⟨new, hnew, -, hspent, hordered⟩ := processTxs_ordered (hdistinct.insertAll _)
    (hplaced.insertAll _) hwf.positions
    (fun tx htx => (hwf.inputIndices htx).imp le_of_lt) run.tracked_seeded
  rw [List.nil_append] at hnew
  rw [hnew]
  refine ⟨fun item hitem => ?_, hordered⟩
  obtain ⟨tx, htx, vin, hvin, -, hprev⟩ := hspent item hitem
  exact ⟨tx, htx, hprev ▸ hvin⟩

theorem working_holds (run : AppliedBlock cfg env height s) {id : InscriptionId}
    {place : Option ValidMinerPassInfo} (hd : s.inscriptions.Distinct)
    (h : run.seeded.Holds id place) :
    ∃ place', Moves place (movesOf id run.items) place' ∧ run.working.Holds id place' := by
  obtain ⟨new, place', hnew, hmoves, hholds⟩ :=
    processTxs_holds (hd.insertAll _) h run.tracked_seeded
  rw [List.nil_append] at hnew
  rw [hnew]
  exact ⟨place', hmoves, hholds⟩

/-- The events of a block leave each row where the staged tracker lists it. -/
theorem executed_rows (run : AppliedBlock cfg env height s) (hwf : run.block.WellFormed)
    (h : Tracks loaded s.passStorage s.inscriptions) (id : InscriptionId) :
    ∃ place, run.working.Holds id place ∧
      ∃ loaded', RowTracks loaded' (run.executed.passStorage.getPassByInscriptionId id) place := by
  obtain ⟨place, hholds, hrow⟩ := h.rows id
  obtain ⟨hspent, hordered⟩ := run.items_ordered hwf h.distinct h.placed
  have hplan := plan_transfersOf hordered run.planned id
  have hmints := plan_mintsOf run.planned
  obtain ⟨hnodup, hfresh⟩ := BlockEventExecutor.execute_mints run.execution
  by_cases hnew : ∃ item ∈ run.mints.validItems, item.inscriptionId = id
  · obtain ⟨item, hitem, hid⟩ := hnew
    have hitem' : item ∈ mintsOf run.events := hmints.mem_iff.mpr hitem
    have hnone : s.passStorage.getPassByInscriptionId id = none := by
      rw [← hid]
      exact hfresh item hitem'
    rw [hnone] at hrow
    have hplace : place = none := hrow.place_eq
    subst hplace
    have hseeded : run.seeded.Holds id (some item.entry) := by
      refine hholds.insertAll ?_ (List.mem_map_of_mem hitem) hid
      rw [List.map_map]
      exact ((hmints.map (·.inscriptionId)).nodup_iff).mp hnodup
    obtain ⟨place', hmoves, hholds'⟩ := run.working_holds h.distinct hseeded
    rw [← hplan] at hmoves
    have hrow' : RowTracks (loaded id) ((begun s height run.working
        run.begunFaults).passStorage.getPassByInscriptionId id) none := by
      rw [← hnone] at hrow
      exact hrow
    have hentry : item.entry =
        { inscriptionId := id, owner := item.address, satpoint := item.satpoint } := by
      rw [← hid]
      rfl
    rw [hentry] at hmoves
    exact ⟨place', hholds',
      BlockEventExecutor.execute_rowTracks_minted hitem' hid hrow' hmoves run.execution⟩
  · have hother : ∀ item ∈ run.mints.validItems, item.inscriptionId ≠ id :=
      fun item hitem hid => hnew ⟨item, hitem, hid⟩
    have hseeded : run.seeded.Holds id place := by
      refine hholds.insertAll_other (fun pass hpass => ?_)
      obtain ⟨item, hitem, rfl⟩ := List.mem_map.mp hpass
      exact hother item hitem
    obtain ⟨place', hmoves, hholds'⟩ := run.working_holds h.distinct hseeded
    refine ⟨place', hholds', ?_⟩
    rw [← hplan] at hmoves
    have hrow' : RowTracks (loaded id) ((begun s height run.working
        run.begunFaults).passStorage.getPassByInscriptionId id) place := hrow
    exact BlockEventExecutor.execute_rowTracks hrow' hmoves
      (fun item hitem => hother item (hmints.mem_iff.mp hitem)) run.execution

/-- The tracker that a block stages goes with the pass table the block leaves. -/
theorem tracks (run : AppliedBlock cfg env height s) (hwf : run.block.WellFormed)
    (h : Tracks loaded s.passStorage s.inscriptions) :
    ∃ loaded', Tracks loaded' run.minted.passStorage run.working := by
  have hrows : ∀ id, ∃ loaded', ∃ place, run.working.Holds id place ∧
      RowTracks loaded' (run.minted.passStorage.getPassByInscriptionId id) place := by
    intro id
    obtain ⟨place, hholds, loaded', hrow⟩ := run.executed_rows hwf h id
    refine ⟨loaded', place, hholds, ?_⟩
    rcases processInvalidMints_rows run.invalidated id with hsame | ⟨hnone, p, hp, hinvalid⟩
    · rw [hsame]
      exact hrow
    · rw [hnone] at hrow
      rw [hp]
      exact hrow.invalid hinvalid
  choose loaded' hloaded using hrows
  exact ⟨loaded', processTxs_distinct (h.distinct.insertAll _) run.tracked_seeded, hloaded⟩

end AppliedBlock

end InscriptionIndexer

end Usdb
