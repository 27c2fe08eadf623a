import Usdb.Index.PassOps
import Usdb.Index.Indexer

namespace Usdb

open Framework MinerPassStorage PassEnergyManager

namespace MinerPassManager

variable {s t : IndexerState} {u : Unit} {provider : BalanceProvider}
  {burnable : MinerPassState → Prop}

theorem dormantLastPass_reach {mint : PassMintInscriptionInfo}
    (h : dormantLastPass provider mint s = .ok u t) :
    PassReach burnable mint.mintBlockHeight s.passStorage t.passStorage := by
  rcases dormantLastPass_ok h with ⟨-, fs, rfl⟩ | ⟨last, fs, -, hp, hstate, hc, hdorm⟩
  · exact .refl
  · obtain ⟨e, fs', rfl⟩ := onPassDormant_frame hdorm
    exact .single (.change _ _ last _ _ hp (.dormant last hstate) hc)

theorem inheritPrev_reach {mint : PassMintInscriptionInfo} {inherited total : Nat}
    {prev : List InscriptionId} (h : inheritPrev mint inherited prev s = .ok total t) :
    PassReach burnable mint.mintBlockHeight s.passStorage t.passStorage := by
  induction prev generalizing s inherited with
  | nil =>
    cases h
    exact .refl
  | cons id rest ih =>
    rcases inheritPrev_cons_ok h with ⟨-, fs, h⟩ | ⟨-, fs, energy, s₁, hcons, h⟩
    · have hrest := ih h
      exact hrest
    · obtain ⟨p, fs', hp, hdormant, hc, -, rfl⟩ := consumePass_ok hcons
      have hrest := ih h
      exact .head (.change _ id p _ _ hp (.consumed p hdormant) hc) hrest

theorem onMintPass_reach {mint : PassMintInscriptionInfo}
    (h : onMintPass provider mint s = .ok u t) :
    PassReach burnable mint.mintBlockHeight s.passStorage t.passStorage := by
  obtain ⟨s₁, fs, inherited, s₂, hdorm, hc, hinh, hnew⟩ := onMintPass_ok h
  obtain ⟨balance, fs', -, rfl⟩ := onNewPass_ok hnew
  have hrest : PassReach burnable mint.mintBlockHeight _ s₂.passStorage := inheritPrev_reach hinh
  exact (dormantLastPass_reach hdorm).trans
    (.head (.mint _ _ _ (.inl ⟨rfl, rfl⟩) rfl rfl hc) hrest)

theorem onInvalidMintPass_reach {item : InvalidPassMintInscriptionInfo}
    (h : onInvalidMintPass item s = .ok u t) :
    PassReach burnable item.mintBlockHeight s.passStorage t.passStorage := by
  obtain ⟨fs, hc, rfl⟩ := onInvalidMintPass_ok h
  exact .single (.mint _ _ _ (.inr ⟨rfl, rfl⟩) rfl rfl hc)

theorem CaughtUp.frame {id : InscriptionId} {height : Nat} {pass : MinerPassInfo}
    {s s₁ : IndexerState} (h : CaughtUp provider id height pass s s₁) :
    ∃ e fs, s₁ = { s with energyStorage := e, faults := fs } := by
  rcases h with ⟨-, fs, result, hupd⟩ | ⟨-, fs, rfl⟩
  · obtain ⟨e, fs', rfl⟩ := updatePassEnergy_frame hupd
    exact ⟨e, fs', rfl⟩
  · exact ⟨_, fs, rfl⟩

theorem onPassTransfer_reach {id : InscriptionId} {owner : USDBScriptHash} {satpoint : SatPoint}
    {height : Nat} (h : onPassTransfer provider id owner satpoint height s = .ok u t) :
    PassReach burnable height s.passStorage t.passStorage := by
  obtain ⟨pass, s₁, hpass, hcaught, h⟩ := onPassTransfer_ok h
  obtain ⟨e, fs₁, rfl⟩ := hcaught.frame
  rcases h with ⟨-, p, fs, hp, -, hc, rfl⟩ | ⟨-, hmove⟩
  · exact .single (.change _ id p _ _ hp (.moved p satpoint) hc)
  · rcases moveToNewOwner_ok hmove with
      ⟨-, s₂, p, fs, hdorm, hp, hstate, hc₁, hc₂, rfl⟩ | ⟨hactive, p, fs, hp, hc, rfl⟩
    · obtain ⟨e', fs₂, rfl⟩ := onPassDormant_frame hdorm
      refine .head (.change _ id p _ _ hp (.dormant p hstate) hc₁) (.single ?_)
      refine .change _ id { p with state := .Dormant } _ _ ?_
        (.transferred { p with state := .Dormant } owner satpoint (by simp)) hc₂
      rw [changeRow, getPassByInscriptionId_append, getPassByInscriptionId_setRow hp (by rfl),
        if_pos rfl]
    · rw [hpass] at hp
      cases hp
      exact .single (.change _ id pass _ _ hpass (.transferred pass owner satpoint hactive) hc)

theorem onPassBurned_reach {id : InscriptionId} {height : Nat}
    (hb : ∀ p, s.passStorage.getPassByInscriptionId id = some p → burnable p.state)
    (h : onPassBurned provider id height s = .ok u t) :
    PassReach burnable height s.passStorage t.passStorage := by
  obtain ⟨pass, s₁, hpass, hcaught, p, fs, hp, hstate, hc, rfl⟩ := onPassBurned_ok h
  obtain ⟨e, fs₁, rfl⟩ := hcaught.frame
  exact .single (.change _ id p _ _ hp (.burned p (hb p hp)) hc)

end MinerPassManager

/-- The height an event was found at. -/
def BlockProcessEvent.height : BlockProcessEvent → Nat
  | .Mint item => item.blockHeight
  | .Transfer item => item.blockHeight

namespace BlockEventExecutor

variable {s t : IndexerState} {u : Unit} {provider : BalanceProvider}
  {burnable : MinerPassState → Prop}

/-- Each event meets a condition in the state it is executed in. -/
def EventsSatisfy (cond : BlockProcessEvent → IndexerState → Prop) (provider : BalanceProvider) :
    List BlockProcessEvent → IndexerState → Prop
  | [], _ => True
  | event :: rest, s => cond event s ∧
    match executeEvent provider event s with
    | .ok _ t => EventsSatisfy cond provider rest t
    | .error _ _ => True

instance decidableEventsSatisfy (cond : BlockProcessEvent → IndexerState → Prop)
    [∀ event s, Decidable (cond event s)] (provider : BalanceProvider) :
    ∀ events s, Decidable (EventsSatisfy cond provider events s)
  | [], _ => .isTrue trivial
  | event :: rest, s =>
    have : Decidable (match executeEvent provider event s with
        | .ok _ t => EventsSatisfy cond provider rest t
        | .error _ _ => True) :=
      match executeEvent provider event s with
      | .ok _ t => decidableEventsSatisfy cond provider rest t
      | .error _ _ => .isTrue trivial
    inferInstanceAs (Decidable (_ ∧ _))

theorem EventsSatisfy.tail {cond : BlockProcessEvent → IndexerState → Prop}
    {event : BlockProcessEvent} {rest : List BlockProcessEvent}
    (hb : EventsSatisfy cond provider (event :: rest) s)
    (h : executeEvent provider event s = .ok u t) : EventsSatisfy cond provider rest t := by
  have htail := hb.2
  rw [h] at htail
  exact htail

/-- A pass that is spent as fee is in a state that may be burned. -/
def BurnsOnly (burnable : MinerPassState → Prop) (event : BlockProcessEvent) (s : IndexerState) :
    Prop :=
  match event with
  | .Mint _ => True
  | .Transfer item => item.toAddress = none →
    ∀ p ∈ s.passStorage.getPassByInscriptionId item.inscriptionId, burnable p.state

instance (burnable : MinerPassState → Prop) [DecidablePred burnable] (event : BlockProcessEvent)
    (s : IndexerState) : Decidable (BurnsOnly burnable event s) :=
  match event with
  | .Mint _ => .isTrue trivial
  | .Transfer _ => inferInstanceAs (Decidable (_ → _))

theorem eventsSatisfy_of_forall {cond : BlockProcessEvent → IndexerState → Prop}
    (hc : ∀ event s, cond event s) (events : List BlockProcessEvent) (s : IndexerState) :
    EventsSatisfy cond provider events s := by
  induction events generalizing s with
  | nil => trivial
  | cons event rest ih =>
    refine ⟨hc event s, ?_⟩
    split
    · exact ih _
    · trivial

theorem burnsOnly_true (event : BlockProcessEvent) (s : IndexerState) :
    BurnsOnly (fun _ => True) event s := by
  cases event with
  | Mint item => trivial
  | Transfer item => exact fun _ _ _ => trivial

theorem executeEvent_reach {event : BlockProcessEvent} (hb : BurnsOnly burnable event s)
    (h : executeEvent provider event s = .ok u t) :
    PassReach burnable event.height s.passStorage t.passStorage := by
  cases event with
  | Mint item => exact MinerPassManager.onMintPass_reach h
  | Transfer item =>
    simp only [executeEvent] at h
    cases ha : item.toAddress with
    | some addr =>
      rw [ha] at h
      exact MinerPassManager.onPassTransfer_reach h
    | none =>
      rw [ha] at h
      exact MinerPassManager.onPassBurned_reach (fun p hp => hb ha p hp) h

theorem execute_reach {events : List BlockProcessEvent} {height : Nat}
    (hh : ∀ event ∈ events, event.height = height)
    (hb : EventsSatisfy (BurnsOnly burnable) provider events s)
    (h : execute provider events s = .ok u t) :
    PassReach burnable height s.passStorage t.passStorage := by
  induction events generalizing s with
  | nil =>
    cases h
    exact .refl
  | cons event rest ih =>
    obtain ⟨_, s₁, hev, h⟩ := bind_eq_ok h
    have hstep : PassReach burnable event.height s.passStorage s₁.passStorage :=
      executeEvent_reach hb.1 hev
    rw [hh event (by simp)] at hstep
    exact hstep.trans (ih (fun e he => hh e (by simp [he])) (hb.tail hev) h)

end BlockEventExecutor

theorem InscriptionIndexer.processInvalidMints_reach {burnable : MinerPassState → Prop}
    {s t : IndexerState} {u : Unit} {items : List InvalidPassMintInscriptionInfo} {height : Nat}
    (hh : ∀ item ∈ items, item.mintBlockHeight = height)
    (h : processInvalidMints items s = .ok u t) :
    PassReach burnable height s.passStorage t.passStorage := by
  induction items generalizing s with
  | nil =>
    cases h
    exact .refl
  | cons item rest ih =>
    obtain ⟨_, s₁, hmint, h⟩ := bind_eq_ok h
    have hstep : PassReach burnable item.mintBlockHeight s.passStorage s₁.passStorage :=
      MinerPassManager.onInvalidMintPass_reach hmint
    rw [hh item (by simp)] at hstep
    exact hstep.trans (ih (fun i hi => hh i (by simp [hi])) h)

end Usdb
