import Usdb.Framework.Triple
import Usdb.Storage.Pass
import Usdb.Storage.Energy
import Usdb.Index.PassCommit

namespace Usdb

open Framework

/-- Passes by the outpoint that holds them. -/
abbrev MultiMap := OutPoint → List ValidMinerPassInfo

/-- The line `on_new_pass` writes to the log. -/
structure NewPassLog where
  inscriptionId : InscriptionId
  blockHeight : Nat
  ownerAddress : USDBScriptHash
  initialBalance : Nat
  delta : Int
  inheritedEnergy : Nat
deriving DecidableEq, Repr

/-- The stores the indexer owns, together with what its next external calls will
report; an exhausted list of reports means that every further call succeeds. -/
structure IndexerState where
  passStorage : MinerPassStorage
  energyStorage : PassEnergyStorage
  inscriptions : MultiMap
  stagedBlocks : List (Nat × MultiMap)
  currentBlockCollector : Option PassBlockMutationCollector
  log : List NewPassLog
  faults : List IoResult

/-- The same state with other reports to come. -/
def IndexerState.withFaults (s : IndexerState) (faults : List IoResult) : IndexerState :=
  { s with faults }

abbrev IndexerM := EStateM IndexerError IndexerState

/-- An external call or a storage access, which may fail or be the last thing the
process does. -/
def io : IndexerM Unit := fun s =>
  match s.faults with
  | [] => .ok () s
  | .ok :: rest => .ok () { s with faults := rest }
  | .err :: rest => .error .io { s with faults := rest }
  | .crash :: rest => .error .panic { s with faults := rest }

theorem io_of_no_faults (s : IndexerState) (h : s.faults = []) : io s = .ok () s := by
  unfold io
  rw [h]

def liftExcept {α : Type} (x : Except IndexerError α) : IndexerM α :=
  match x with
  | .ok a => pure a
  | .error e => throw e

/-- `assert!`. -/
def assertThat (p : Prop) [Decidable p] : IndexerM Unit :=
  if p then pure () else throw .panic

def readPass {α : Type} (f : MinerPassStorage → α) : IndexerM α := do
  io
  return f (← get).passStorage

/-- A statement against the pass database, which leaves it unchanged when it fails. -/
def writePass (f : MinerPassStorage → Except IndexerError MinerPassStorage) : IndexerM Unit := do
  io
  let ps ← liftExcept (f (← get).passStorage)
  modify (fun s => { s with passStorage := ps })

def checkPass (f : MinerPassStorage → Except IndexerError Unit) : IndexerM Unit := do
  io
  liftExcept (f (← get).passStorage)

def readEnergy {α : Type} (f : PassEnergyStorage → α) : IndexerM α := do
  io
  return f (← get).energyStorage

def writeEnergy (f : PassEnergyStorage → PassEnergyStorage) : IndexerM Unit := do
  io
  modify (fun s => { s with energyStorage := f s.energyStorage })

section Inversion

variable {s t : IndexerState}

theorem io_ok {u : Unit} (h : io s = .ok u t) : ∃ fs, t = s.withFaults fs := by
  unfold io at h
  split at h <;> cases h
  · exact ⟨s.faults, rfl⟩
  · exact ⟨_, rfl⟩

theorem io_error {e : IndexerError} (h : io s = .error e t) : ∃ fs, t = s.withFaults fs := by
  unfold io at h
  split at h <;> cases h <;> exact ⟨_, rfl⟩

theorem liftExcept_ok {α : Type} {x : Except IndexerError α} {a : α}
    (h : liftExcept x s = .ok a t) : x = .ok a ∧ s = t := by
  cases x with
  | ok b =>
    cases h
    exact ⟨rfl, rfl⟩
  | error e => cases h

theorem assertThat_ok {p : Prop} [Decidable p] {u : Unit} (h : assertThat p s = .ok u t) :
    p ∧ s = t := by
  unfold assertThat at h
  split at h
  · cases h
    exact ⟨‹p›, rfl⟩
  · cases h

theorem readPass_ok {α : Type} {f : MinerPassStorage → α} {a : α} (h : readPass f s = .ok a t) :
    a = f s.passStorage ∧ ∃ fs, t = s.withFaults fs := by
  obtain ⟨u, s', hio, h⟩ := bind_eq_ok h
  obtain ⟨fs, rfl⟩ := io_ok hio
  cases h
  exact ⟨rfl, fs, rfl⟩

theorem writePass_ok {f : MinerPassStorage → Except IndexerError MinerPassStorage} {u : Unit}
    (h : writePass f s = .ok u t) :
    ∃ ps fs, f s.passStorage = .ok ps ∧ t = { s with passStorage := ps, faults := fs } := by
  obtain ⟨v, s', hio, h⟩ := bind_eq_ok h
  obtain ⟨fs, rfl⟩ := io_ok hio
  obtain ⟨g, s'', hg, h⟩ := bind_eq_ok h
  cases hg
  obtain ⟨ps, s'', hl, h⟩ := bind_eq_ok h
  obtain ⟨hf, rfl⟩ := liftExcept_ok hl
  cases h
  exact ⟨ps, fs, hf, rfl⟩

/-- A statement that fails has changed nothing. -/
theorem writePass_error {f : MinerPassStorage → Except IndexerError MinerPassStorage}
    {e : IndexerError} (h : writePass f s = .error e t) : ∃ fs, t = s.withFaults fs := by
  cases hio : io s with
  | error e' t' =>
    have hw : writePass f s = .error e' t' := bind_error hio
    rw [h] at hw
    cases hw
    exact io_error hio
  | ok u s' =>
    obtain ⟨fs, rfl⟩ := io_ok hio
    have hw : writePass f s = (do
        let ps ← liftExcept (f s.passStorage)
        modify (fun s => { s with passStorage := ps }) : IndexerM Unit) (s.withFaults fs) :=
      bind_ok hio
    rw [h] at hw
    cases hf : f s.passStorage with
    | ok ps =>
      rw [hf] at hw
      cases hw
    | error e' =>
      rw [hf] at hw
      cases hw
      exact ⟨fs, rfl⟩

theorem checkPass_ok {f : MinerPassStorage → Except IndexerError Unit} {u : Unit}
    (h : checkPass f s = .ok u t) : f s.passStorage = .ok () ∧ ∃ fs, t = s.withFaults fs := by
  obtain ⟨v, s', hio, h⟩ := bind_eq_ok h
  obtain ⟨fs, rfl⟩ := io_ok hio
  obtain ⟨g, s'', hg, h⟩ := bind_eq_ok h
  cases hg
  obtain ⟨hf, rfl⟩ := liftExcept_ok h
  exact ⟨hf, fs, rfl⟩

theorem readEnergy_ok {α : Type} {f : PassEnergyStorage → α} {a : α}
    (h : readEnergy f s = .ok a t) : a = f s.energyStorage ∧ ∃ fs, t = s.withFaults fs := by
  obtain ⟨u, s', hio, h⟩ := bind_eq_ok h
  obtain ⟨fs, rfl⟩ := io_ok hio
  cases h
  exact ⟨rfl, fs, rfl⟩

theorem writeEnergy_ok {f : PassEnergyStorage → PassEnergyStorage} {u : Unit}
    (h : writeEnergy f s = .ok u t) :
    ∃ fs, t = { s with energyStorage := f s.energyStorage, faults := fs } := by
  obtain ⟨v, s', hio, h⟩ := bind_eq_ok h
  obtain ⟨fs, rfl⟩ := io_ok hio
  cases h
  exact ⟨fs, rfl⟩

end Inversion

section Frame

variable {γ : Type} {part : IndexerState → γ}

/-- No part of the state that a proof speaks about contains the reports. -/
def IgnoresFaults (part : IndexerState → γ) : Prop :=
  ∀ s fs, part (s.withFaults fs) = part s

theorem io_preserves (hp : IgnoresFaults part) : Preserves part io := by
  intro s
  cases h : io s with
  | ok u t =>
    obtain ⟨fs, rfl⟩ := io_ok h
    exact hp s fs
  | error e t =>
    obtain ⟨fs, rfl⟩ := io_error h
    exact hp s fs

theorem liftExcept_preserves {α : Type} (x : Except IndexerError α) :
    Preserves part (liftExcept x) := by
  cases x with
  | ok a => exact Preserves.pure a
  | error e => exact Preserves.throw e

theorem readPass_preserves {α : Type} (hp : IgnoresFaults part) (f : MinerPassStorage → α) :
    Preserves part (readPass f) :=
  Preserves.bind (io_preserves hp) (fun _ => Preserves.bind Preserves.get (fun _ =>
    Preserves.pure _))

theorem checkPass_preserves (hp : IgnoresFaults part)
    (f : MinerPassStorage → Except IndexerError Unit) : Preserves part (checkPass f) :=
  Preserves.bind (io_preserves hp) (fun _ => Preserves.bind Preserves.get (fun _ =>
    liftExcept_preserves _))

theorem writePass_preserves (hp : IgnoresFaults part)
    (hw : ∀ s ps, part { s with passStorage := ps } = part s)
    (f : MinerPassStorage → Except IndexerError MinerPassStorage) :
    Preserves part (writePass f) :=
  Preserves.bind (io_preserves hp) (fun _ => Preserves.bind Preserves.get (fun _ =>
    Preserves.bind (liftExcept_preserves _) (fun ps => Preserves.modify (fun s => hw s ps))))

theorem readEnergy_preserves {α : Type} (hp : IgnoresFaults part) (f : PassEnergyStorage → α) :
    Preserves part (readEnergy f) :=
  Preserves.bind (io_preserves hp) (fun _ => Preserves.bind Preserves.get (fun _ =>
    Preserves.pure _))

theorem writeEnergy_preserves (hp : IgnoresFaults part)
    (hw : ∀ s e, part { s with energyStorage := e } = part s)
    (f : PassEnergyStorage → PassEnergyStorage) : Preserves part (writeEnergy f) :=
  Preserves.bind (io_preserves hp) (fun _ => Preserves.modify (fun s => hw s _))

/-- The program changes nothing but the reports still to come. -/
def ReadOnly {α : Type} (x : IndexerM α) : Prop :=
  Preserves (fun s => s.withFaults []) x

namespace ReadOnly

variable {α : Type} {x : IndexerM α} {s t : IndexerState}

theorem ok {a : α} (h : ReadOnly x) (hx : x s = .ok a t) : ∃ fs, t = s.withFaults fs := by
  have ht := congrArg (fun r => r.withFaults t.faults) (Preserves.ok h hx)
  exact ⟨t.faults, ht⟩

theorem error {e : IndexerError} (h : ReadOnly x) (hx : x s = .error e t) :
    ∃ fs, t = s.withFaults fs := by
  have ht := congrArg (fun r => r.withFaults t.faults) (Preserves.error h hx)
  exact ⟨t.faults, ht⟩

theorem io : ReadOnly io := io_preserves (fun _ _ => rfl)

theorem readPass (f : MinerPassStorage → α) : ReadOnly (readPass f) :=
  readPass_preserves (fun _ _ => rfl) f

end ReadOnly

end Frame

/-- The program succeeds whenever no call fails. -/
def Unfailing {α : Type} (x : IndexerM α) : Prop :=
  ∀ s : IndexerState, s.faults = [] → ∃ a t, x s = .ok a t ∧ t.faults = []

namespace Unfailing

variable {α β : Type}

theorem pure (a : α) : Unfailing (Pure.pure a : IndexerM α) :=
  fun s hs => ⟨a, s, rfl, hs⟩

theorem bind {x : IndexerM α} {f : α → IndexerM β} (hx : Unfailing x) (hf : ∀ a, Unfailing (f a)) :
    Unfailing (x >>= f) := by
  intro s hs
  obtain ⟨a, t, hxs, ht⟩ := hx s hs
  obtain ⟨b, r, hfs, hr⟩ := hf a t ht
  exact ⟨b, r, (bind_ok hxs).trans hfs, hr⟩

theorem ite {x y : IndexerM α} (c : Prop) [Decidable c] (hx : Unfailing x) (hy : Unfailing y) :
    Unfailing (if c then x else y) := by
  split
  · exact hx
  · exact hy

theorem io : Unfailing io :=
  fun s hs => ⟨(), s, io_of_no_faults s hs, hs⟩

theorem readPass (f : MinerPassStorage → α) : Unfailing (readPass f) :=
  bind io (fun _ s hs => ⟨_, s, rfl, hs⟩)

theorem readEnergy (f : PassEnergyStorage → α) : Unfailing (readEnergy f) :=
  bind io (fun _ s hs => ⟨_, s, rfl, hs⟩)

theorem writeEnergy (f : PassEnergyStorage → PassEnergyStorage) : Unfailing (writeEnergy f) :=
  bind io (fun _ _ hs => ⟨_, _, rfl, hs⟩)

end Unfailing

/-- A Rust `Result` that the caller inspects: errors are caught, a panic is not. -/
def recoverWith {α : Type} (x : IndexerM α) (handler : IndexerError → IndexerM α) : IndexerM α :=
  fun s =>
    match x s with
    | .ok a t => .ok a t
    | .error .panic t => .error .panic t
    | .error e t => handler e t

/-- The error of a `Result`, if any. -/
def errorOf (x : IndexerM Unit) : IndexerM (Option IndexerError) :=
  recoverWith (do x; return none) (fun e => return some e)

section Handlers

variable {α : Type} {I P : IndexerState → Prop}

theorem liftExcept_triple (x : Except IndexerError α) :
    Triple I (liftExcept x) (fun a s => I s ∧ x = .ok a) (fun _ => I) := by
  cases x with
  | ok a => exact fun _ hs => ⟨hs, rfl⟩
  | error e => exact fun _ hs => hs

theorem recoverWith_triple {x : IndexerM α} {handler : IndexerError → IndexerM α}
    {Q : α → IndexerState → Prop} {E F : IndexerError → IndexerState → Prop}
    (hx : Triple P x Q E) (hh : ∀ e, Triple (E e) (handler e) Q F)
    (hpanic : ∀ s, E .panic s → F .panic s) : Triple P (recoverWith x handler) Q F := by
  intro s hs
  have hr := hx s hs
  unfold recoverWith
  split at hr
  · rename_i hxs
    rw [hxs]
    exact hr
  · rename_i e t hxs
    rw [hxs]
    cases e with
    | panic => exact hpanic t hr
    | _ => exact hh _ t hr

theorem errorOf_keeps {x : IndexerM Unit} (hx : Keeps I x) : Keeps I (errorOf x) :=
  recoverWith_triple (E := fun _ => I) (Keeps.bind hx (fun _ => Keeps.pure _))
    (fun _ => Keeps.pure _) (fun _ hs => hs)

end Handlers

end Usdb
