import Usdb.Index.PassReach

namespace Usdb

open Framework MinerPassStorage

/-- What can become of the state of a pass that is not burned. -/
def MinerPassState.Fades (a b : MinerPassState) : Prop :=
  b = a ∨ ((a = .Active ∨ a = .Dormant) ∧ (b = .Dormant ∨ b = .Consumed))

theorem MinerPassState.Fades.trans {a b c : MinerPassState} (h : a.Fades b) (h' : b.Fades c) :
    a.Fades c := by
  rcases h with rfl | ⟨ha, hb⟩
  · exact h'
  · rcases h' with rfl | ⟨-, hc⟩
    · exact .inr ⟨ha, hb⟩
    · exact .inr ⟨ha, hc⟩

/-- A pass as the transfer tracker lists it. -/
def MinerPassInfo.entry (p : MinerPassInfo) : ValidMinerPassInfo where
  inscriptionId := p.inscriptionId
  owner := p.owner
  satpoint := p.satpoint

/-- The pass stays where it is. -/
def MinerPassInfo.Rests (p q : MinerPassInfo) : Prop :=
  q.entry = p.entry ∧ p.state.Fades q.state

theorem MinerPassInfo.Rests.refl (p : MinerPassInfo) : p.Rests p :=
  ⟨rfl, .inl rfl⟩

theorem MinerPassInfo.Rests.trans {p q r : MinerPassInfo} (h : p.Rests q) (h' : q.Rests r) :
    p.Rests r :=
  ⟨h'.1.trans h.1, h.2.trans h'.2⟩

/-- A row that may be missing, before and after. -/
abbrev RowRests (row row' : Option MinerPassInfo) : Prop :=
  Option.Rel MinerPassInfo.Rests row row'

theorem RowRests.refl (row : Option MinerPassInfo) : RowRests row row := by
  cases row with
  | none => exact .none
  | some p => exact .some (.refl p)

theorem RowRests.trans {row row' row'' : Option MinerPassInfo} (h : RowRests row row')
    (h' : RowRests row' row'') : RowRests row row'' := by
  cases h with
  | none => exact h'
  | some hrest =>
    cases h' with
    | some hrest' => exact .some (hrest.trans hrest')

theorem RowRests.of_none {row : Option MinerPassInfo} (h : RowRests none row) : row = none := by
  cases h
  rfl

theorem RowRests.eq_none {row : Option MinerPassInfo} (h : RowRests row none) : row = none := by
  cases h
  rfl

/-- No pass appears, disappears or moves. -/
def MinerPassStorage.AllRest (ps ps' : MinerPassStorage) : Prop :=
  ∀ id, RowRests (ps.getPassByInscriptionId id) (ps'.getPassByInscriptionId id)

namespace MinerPassStorage.AllRest

variable {ps ps' ps'' : MinerPassStorage}

theorem refl (ps : MinerPassStorage) : ps.AllRest ps :=
  fun _ => .refl _

theorem trans (h : ps.AllRest ps') (h' : ps'.AllRest ps'') : ps.AllRest ps'' :=
  fun id => (h id).trans (h' id)

theorem changeRow {id : InscriptionId} {height : Nat} {event : PassHistoryEvent}
    {p q : MinerPassInfo} (hp : ps.getPassByInscriptionId id = some p) (hq : p.Rests q) :
    ps.AllRest (ps.changeRow id height event p q) := by
  intro i
  have hkey : q.inscriptionId = p.inscriptionId := congrArg (·.inscriptionId) hq.1
  rw [getPassByInscriptionId_changeRow hp hkey]
  by_cases hi : i = id
  · rw [if_pos hi, hi, hp]
    exact .some hq
  · rw [if_neg hi]
    exact .refl _

end MinerPassStorage.AllRest

/-- What an event does to the row of a pass. -/
def BlockProcessEvent.Rows (id : InscriptionId) :
    BlockProcessEvent → Option MinerPassInfo → Option MinerPassInfo → Prop
  | .Mint item, row, row' =>
    if item.inscriptionId = id then
      row = none ∧ ∃ p, row' = some p ∧ MinerPassState.Fades .Active p.state ∧
        p.entry = { inscriptionId := id, owner := item.address, satpoint := item.satpoint }
    else RowRests row row'
  | .Transfer item, row, row' =>
    if item.inscriptionId = id then
      ∃ p q, row = some p ∧ row' = some q ∧
        match item.toAddress with
        | some owner => p.state.Fades q.state ∧
            q.entry = { inscriptionId := id, owner, satpoint := item.satpoint }
        | none => q.state = .Burned ∧ q.entry = p.entry
    else row' = row

namespace BlockProcessEvent

variable {id : InscriptionId} {row row' : Option MinerPassInfo}

theorem Rows.mint_same {item : InscriptionNewItem} (h : (Mint item).Rows id row row')
    (hid : item.inscriptionId = id) :
    row = none ∧ ∃ p, row' = some p ∧ MinerPassState.Fades .Active p.state ∧
      p.entry = { inscriptionId := id, owner := item.address, satpoint := item.satpoint } := by
  simpa only [Rows, if_pos hid] using h

theorem Rows.mint_other {item : InscriptionNewItem} (h : (Mint item).Rows id row row')
    (hid : item.inscriptionId ≠ id) : RowRests row row' := by
  simpa only [Rows, if_neg hid] using h

theorem Rows.transfer_same {item : InscriptionTransferItem} (h : (Transfer item).Rows id row row')
    (hid : item.inscriptionId = id) :
    ∃ p q, row = some p ∧ row' = some q ∧
      match item.toAddress with
      | some owner => p.state.Fades q.state ∧
          q.entry = { inscriptionId := id, owner, satpoint := item.satpoint }
      | none => q.state = .Burned ∧ q.entry = p.entry := by
  simpa only [Rows, if_pos hid] using h

theorem Rows.transfer_other {item : InscriptionTransferItem}
    (h : (Transfer item).Rows id row row') (hid : item.inscriptionId ≠ id) : row' = row := by
  simpa only [Rows, if_neg hid] using h

/-- No event removes a row. -/
theorem Rows.eq_none {event : BlockProcessEvent} (h : event.Rows id row none) : row = none := by
  cases event with
  | Mint item =>
    by_cases hid : item.inscriptionId = id
    · exact (h.mint_same hid).1
    · exact (h.mint_other hid).eq_none
  | Transfer item =>
    by_cases hid : item.inscriptionId = id
    · obtain ⟨p, q, -, hq, -⟩ := h.transfer_same hid
      cases hq
    · exact (h.transfer_other hid).symm

end BlockProcessEvent

namespace MinerPassManager

open PassEnergyManager

variable {s t : IndexerState} {u : Unit} {provider : BalanceProvider}

theorem dormantLastPass_rest {mint : PassMintInscriptionInfo}
    (h : dormantLastPass provider mint s = .ok u t) : s.passStorage.AllRest t.passStorage := by
  rcases dormantLastPass_ok h with ⟨-, fs, rfl⟩ | ⟨last, fs, -, hp, hstate, -, hdorm⟩
  · exact .refl _
  · obtain ⟨e, fs', rfl⟩ := onPassDormant_frame hdorm
    exact .changeRow hp ⟨rfl, .inr ⟨.inl hstate, .inl rfl⟩⟩

theorem inheritPrev_rest {mint : PassMintInscriptionInfo} {inherited total : Nat}
    {prev : List InscriptionId} (h : inheritPrev mint inherited prev s = .ok total t) :
    s.passStorage.AllRest t.passStorage := by
  induction prev generalizing s inherited with
  | nil =>
    cases h
    exact .refl _
  | cons id rest ih =>
    rcases inheritPrev_cons_ok h with ⟨-, fs, h⟩ | ⟨-, fs, energy, s₁, hcons, h⟩
    · have hrest := ih h
      exact hrest
    · obtain ⟨p, fs', hp, hdormant, -, -, rfl⟩ := consumePass_ok hcons
      have hfirst : s.passStorage.AllRest (s.passStorage.changeRow id mint.mintBlockHeight
          .stateUpdate p { p with state := .Consumed }) :=
        .changeRow hp ⟨rfl, .inr ⟨.inr hdormant, .inr rfl⟩⟩
      exact hfirst.trans (ih h)

/-- The minted pass is new; the others stay where they are. -/
theorem onMintPass_row {mint : PassMintInscriptionInfo}
    (h : onMintPass provider mint s = .ok u t) (id : InscriptionId) :
    (mint.inscriptionId = id → s.passStorage.getPassByInscriptionId id = none ∧
      ∃ p, t.passStorage.getPassByInscriptionId id = some p ∧
        MinerPassState.Fades .Active p.state ∧
        p.entry = { inscriptionId := id, owner := mint.mintOwner, satpoint := mint.satpoint }) ∧
    (mint.inscriptionId ≠ id → RowRests (s.passStorage.getPassByInscriptionId id)
      (t.passStorage.getPassByInscriptionId id)) := by
  obtain ⟨s₁, fs, inherited, s₂, hdorm, hc, hinh, hnew⟩ := onMintPass_ok h
  obtain ⟨balance, fs', -, rfl⟩ := onNewPass_ok hnew
  have hbefore := dormantLastPass_rest hdorm id
  have hafter : RowRests (if id = mint.inscriptionId then some (newMintPassInfo mint)
      else s₁.passStorage.getPassByInscriptionId id) (s₂.passStorage.getPassByInscriptionId id) := by
    have hrest := inheritPrev_rest hinh id
    rw [getPassByInscriptionId_addRow hc] at hrest
    exact hrest
  refine ⟨?_, ?_⟩
  · rintro rfl
    have hfresh : s₁.passStorage.getPassByInscriptionId mint.inscriptionId = none :=
      getPassByInscriptionId_fresh hc
    rw [if_pos rfl] at hafter
    rw [hfresh] at hbefore
    refine ⟨hbefore.eq_none, ?_⟩
    show ∃ p, s₂.passStorage.getPassByInscriptionId mint.inscriptionId = some p ∧ _
    generalize s₂.passStorage.getPassByInscriptionId mint.inscriptionId = row at hafter
    cases hafter with
    | some hrest => exact ⟨_, rfl, hrest.2, hrest.1⟩
  · intro hne
    rw [if_neg (fun he => hne he.symm)] at hafter
    exact hbefore.trans hafter

/-- A transferred pass is where the transfer has taken it; the others are unchanged. -/
theorem onPassTransfer_row {id : InscriptionId} {owner : USDBScriptHash} {satpoint : SatPoint}
    {height : Nat} (h : onPassTransfer provider id owner satpoint height s = .ok u t) :
    ∃ p q, s.passStorage.getPassByInscriptionId id = some p ∧
      (∀ i, t.passStorage.getPassByInscriptionId i =
        if i = id then some q else s.passStorage.getPassByInscriptionId i) ∧
      p.state.Fades q.state ∧ q.entry = { inscriptionId := id, owner, satpoint } := by
  obtain ⟨pass, s₁, hpass, hcaught, h⟩ := onPassTransfer_ok h
  obtain ⟨e, fs₁, rfl⟩ := hcaught.frame
  have hkey := getPassByInscriptionId_key hpass
  rcases h with ⟨howner, p, fs, hp, -, -, rfl⟩ | ⟨-, hmove⟩
  · obtain rfl : pass = p := Option.some.inj (hpass.symm.trans hp)
    refine ⟨pass, _, hpass, getPassByInscriptionId_changeRow hp rfl, .inl rfl, ?_⟩
    unfold MinerPassInfo.entry
    rw [hkey, howner]
  · rcases moveToNewOwner_ok hmove with
      ⟨-, s₂, p, fs, hdorm, hp, hstate, -, -, rfl⟩ | ⟨-, p, fs, hp, -, rfl⟩
    · obtain ⟨e', fs₂, rfl⟩ := onPassDormant_frame hdorm
      obtain rfl : pass = p := Option.some.inj (hpass.symm.trans hp)
      refine ⟨pass, { pass with state := .Dormant, owner, satpoint }, hpass, ?_,
        .inr ⟨.inl hstate, .inl rfl⟩, ?_⟩
      · intro i
        have hfrozen : ∀ i, (s.passStorage.changeRow id height .stateUpdate pass
            { pass with state := .Dormant }).getPassByInscriptionId i =
              if i = id then some { pass with state := .Dormant }
              else s.passStorage.getPassByInscriptionId i :=
          getPassByInscriptionId_changeRow hpass rfl
        refine (getPassByInscriptionId_changeRow ((hfrozen id).trans (if_pos rfl)) (by rfl) i).trans ?_
        by_cases hi : i = id
        · rw [if_pos hi, if_pos hi]
        · rw [if_neg hi, if_neg hi, hfrozen i, if_neg hi]
      · unfold MinerPassInfo.entry
        rw [hkey]
    · obtain rfl : pass = p := Option.some.inj (hpass.symm.trans hp)
      refine ⟨pass, _, hpass, getPassByInscriptionId_changeRow hp rfl, .inl rfl, ?_⟩
      unfold MinerPassInfo.entry
      rw [hkey]

/-- A burned pass keeps the place it had; the others are unchanged. -/
theorem onPassBurned_row {id : InscriptionId} {height : Nat}
    (h : onPassBurned provider id height s = .ok u t) :
    ∃ p q, s.passStorage.getPassByInscriptionId id = some p ∧
      (∀ i, t.passStorage.getPassByInscriptionId i =
        if i = id then some q else s.passStorage.getPassByInscriptionId i) ∧
      q.state = .Burned ∧ q.entry = p.entry := by
  obtain ⟨pass, s₁, hpass, hcaught, p, fs, hp, -, -, rfl⟩ := onPassBurned_ok h
  obtain ⟨e, fs₁, rfl⟩ := hcaught.frame
  exact ⟨p, _, hp, getPassByInscriptionId_changeRow hp rfl, rfl, rfl⟩

end MinerPassManager

namespace BlockEventExecutor

variable {s t : IndexerState} {u : Unit} {provider : BalanceProvider}

theorem executeEvent_rows {event : BlockProcessEvent}
    (h : executeEvent provider event s = .ok u t) (id : InscriptionId) :
    event.Rows id (s.passStorage.getPassByInscriptionId id)
      (t.passStorage.getPassByInscriptionId id) := by
  cases event with
  | Mint item =>
    have hrow := MinerPassManager.onMintPass_row h id
    by_cases hid : item.inscriptionId = id
    · simp only [BlockProcessEvent.Rows, if_pos hid]
      exact hrow.1 hid
    · simp only [BlockProcessEvent.Rows, if_neg hid]
      exact hrow.2 hid
  | Transfer item =>
    simp only [executeEvent] at h
    cases ha : item.toAddress with
    | some owner =>
      rw [ha] at h
      obtain ⟨p, q, hp, hrows, hfades, hentry⟩ := MinerPassManager.onPassTransfer_row h
      by_cases hid : item.inscriptionId = id
      · subst hid
        simp only [BlockProcessEvent.Rows, if_pos, ha]
        exact ⟨p, q, hp, (hrows _).trans (if_pos rfl), hfades, hentry⟩
      · simp only [BlockProcessEvent.Rows, if_neg hid]
        rw [hrows, if_neg (fun he => hid he.symm)]
    | none =>
      rw [ha] at h
      obtain ⟨p, q, hp, hrows, hburned, hentry⟩ := MinerPassManager.onPassBurned_row h
      by_cases hid : item.inscriptionId = id
      · subst hid
        simp only [BlockProcessEvent.Rows, if_pos, ha]
        exact ⟨p, q, hp, (hrows _).trans (if_pos rfl), hburned, hentry⟩
      · simp only [BlockProcessEvent.Rows, if_neg hid]
        rw [hrows, if_neg (fun he => hid he.symm)]

end BlockEventExecutor

end Usdb
