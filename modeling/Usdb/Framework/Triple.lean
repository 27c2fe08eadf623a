import Mathlib.Logic.Basic

namespace Usdb.Framework

variable {ε σ α β γ : Type}

section Execution

variable {x : EStateM ε σ α} {f : α → EStateM ε σ β} {s t u : σ} {a : α} {b : β} {e : ε}

theorem bind_ok (h : x s = .ok a t) : (x >>= f) s = f a t := by
  show EStateM.bind x f s = f a t
  unfold EStateM.bind
  rw [h]

theorem bind_error (h : x s = .error e t) : (x >>= f) s = .error e t := by
  show EStateM.bind x f s = .error e t
  unfold EStateM.bind
  rw [h]

/-- A sequence that succeeds went through a state between its parts. -/
theorem bind_eq_ok (h : (x >>= f) s = .ok b u) : ∃ a t, x s = .ok a t ∧ f a t = .ok b u := by
  cases hx : x s with
  | ok a t => exact ⟨a, t, rfl, (bind_ok hx).symm.trans h⟩
  | error e t =>
    rw [bind_error hx] at h
    cases h

/-- A sequence that fails did so in its first or in its second part. -/
theorem bind_eq_error (h : (x >>= f) s = .error e u) :
    x s = .error e u ∨ ∃ a t, x s = .ok a t ∧ f a t = .error e u := by
  cases hx : x s with
  | ok a t => exact .inr ⟨a, t, rfl, (bind_ok hx).symm.trans h⟩
  | error e' t =>
    rw [bind_error hx] at h
    cases h
    exact .inl rfl

end Execution

/-- The state a program leaves when it succeeds. -/
def okState : EStateM.Result ε σ α → Option σ
  | .ok _ s => some s
  | .error _ _ => none

theorem okState_eq_some {r : EStateM.Result ε σ α} {s : σ} (h : okState r = some s) :
    ∃ a, r = .ok a s := by
  cases r with
  | ok a t =>
    cases h
    exact ⟨a, rfl⟩
  | error e t => cases h

/-- The state a program leaves, whichever way it ends. -/
def finalState : EStateM.Result ε σ α → σ
  | .ok _ t => t
  | .error _ t => t

/-- What holds wherever a sequence may end: in its first part or in its second. -/
theorem finalState_bind {x : EStateM ε σ α} {f : α → EStateM ε σ β} {s : σ} {P : σ → Prop}
    (hx : ∀ e t, x s = .error e t → P t) (hf : ∀ a t, x s = .ok a t → P (finalState (f a t))) :
    P (finalState ((x >>= f) s)) := by
  cases h : x s with
  | ok a t =>
    rw [bind_ok h]
    exact hf a t h
  | error e t =>
    rw [bind_error h]
    exact hx e t h

/-- The program leaves a part of the state as it finds it. -/
def Preserves (part : σ → γ) (x : EStateM ε σ α) : Prop :=
  ∀ s, part (finalState (x s)) = part s

namespace Preserves

variable {part : σ → γ}

theorem ok {x : EStateM ε σ α} (h : Preserves part x) {s t : σ} {a : α} (hx : x s = .ok a t) :
    part t = part s := by
  have hs := h s
  rw [hx] at hs
  exact hs

theorem error {x : EStateM ε σ α} (h : Preserves part x) {s t : σ} {e : ε}
    (hx : x s = .error e t) : part t = part s := by
  have hs := h s
  rw [hx] at hs
  exact hs

theorem pure (a : α) : Preserves part (Pure.pure a : EStateM ε σ α) :=
  fun _ => rfl

theorem throw (e : ε) : Preserves part (MonadExcept.throw e : EStateM ε σ α) :=
  fun _ => rfl

theorem get : Preserves part (MonadState.get : EStateM ε σ σ) :=
  fun _ => rfl

theorem modify {f : σ → σ} (h : ∀ s, part (f s) = part s) :
    Preserves part (MonadState.modifyGet (fun s => (PUnit.unit, f s)) : EStateM ε σ PUnit) :=
  fun s => h s

theorem bind {x : EStateM ε σ α} {f : α → EStateM ε σ β} (hx : Preserves part x)
    (hf : ∀ a, Preserves part (f a)) : Preserves part (x >>= f) := by
  intro s
  cases h : x s with
  | ok a t => rw [bind_ok h, hf a t, hx.ok h]
  | error e t => rw [bind_error h]; exact hx.error h

theorem ite {x y : EStateM ε σ α} (c : Prop) [Decidable c] (hx : Preserves part x)
    (hy : Preserves part y) : Preserves part (if c then x else y) := by
  split
  · exact hx
  · exact hy

/-- A part of a preserved part is preserved. -/
theorem map {δ : Type} {x : EStateM ε σ α} (g : γ → δ) (h : Preserves part x) :
    Preserves (fun s => g (part s)) x :=
  fun s => congrArg g (h s)

end Preserves

/-- A program over a mutable state that may fail keeps the state it has reached
when it fails, so a contract has one postcondition for each way of ending. -/
def Triple (P : σ → Prop) (x : EStateM ε σ α) (Q : α → σ → Prop) (E : ε → σ → Prop) : Prop :=
  ∀ s, P s → match x s with
    | .ok a t => Q a t
    | .error e t => E e t

/-- An assertion that holds throughout, whichever way the program ends. -/
def Keeps (I : σ → Prop) (x : EStateM ε σ α) : Prop :=
  Triple I x (fun _ => I) (fun _ => I)

namespace Triple

theorem ok {P : σ → Prop} {x : EStateM ε σ α} {Q : α → σ → Prop} {E : ε → σ → Prop}
    (h : Triple P x Q E) {s t : σ} {a : α} (hp : P s) (hx : x s = .ok a t) : Q a t := by
  have hs := h s hp
  rw [hx] at hs
  exact hs

theorem error {P : σ → Prop} {x : EStateM ε σ α} {Q : α → σ → Prop} {E : ε → σ → Prop}
    (h : Triple P x Q E) {s t : σ} {e : ε} (hp : P s) (hx : x s = .error e t) : E e t := by
  have hs := h s hp
  rw [hx] at hs
  exact hs

theorem conseq {P P' : σ → Prop} {x : EStateM ε σ α} {Q Q' : α → σ → Prop}
    {E E' : ε → σ → Prop} (h : Triple P x Q E) (hp : ∀ s, P' s → P s)
    (hq : ∀ a s, Q a s → Q' a s) (he : ∀ e s, E e s → E' e s) : Triple P' x Q' E' := by
  intro s hs
  have hr := h s (hp s hs)
  cases hx : x s with
  | ok a t => rw [hx] at hr; exact hq a t hr
  | error e t => rw [hx] at hr; exact he e t hr

theorem bind {P : σ → Prop} {x : EStateM ε σ α} {f : α → EStateM ε σ β} {Q : α → σ → Prop}
    {R : β → σ → Prop} {E : ε → σ → Prop} (hx : Triple P x Q E)
    (hf : ∀ a, Triple (Q a) (f a) R E) : Triple P (x >>= f) R E := by
  intro s hs
  have hr := hx s hs
  show match EStateM.bind x f s with | .ok a t => R a t | .error e t => E e t
  unfold EStateM.bind
  cases h : x s with
  | ok a t => rw [h] at hr; exact hf a t hr
  | error e t => rw [h] at hr; exact hr

/-- The precondition may be opened state by state. -/
theorem of_forall {P : σ → Prop} {x : EStateM ε σ α} {Q : α → σ → Prop} {E : ε → σ → Prop}
    (h : ∀ s₀, P s₀ → Triple (fun s => s = s₀) x Q E) : Triple P x Q E :=
  fun s hs => h s hs s rfl

theorem ite {P : σ → Prop} {x y : EStateM ε σ α} {Q : α → σ → Prop} {E : ε → σ → Prop}
    (c : Prop) [Decidable c] (hx : c → Triple P x Q E) (hy : ¬c → Triple P y Q E) :
    Triple P (if c then x else y) Q E := by
  by_cases h : c
  · rw [if_pos h]; exact hx h
  · rw [if_neg h]; exact hy h

/-- A fact that does not depend on the state may be assumed. -/
theorem assume {p : Prop} {P : σ → Prop} {x : EStateM ε σ α} {Q : α → σ → Prop}
    {E : ε → σ → Prop} (h : p → Triple P x Q E) : Triple (fun s => p ∧ P s) x Q E :=
  fun s hs => h hs.1 s hs.2

theorem post {P : σ → Prop} {x : EStateM ε σ α} {Q Q' : α → σ → Prop} {E : ε → σ → Prop}
    (h : Triple P x Q E) (hq : ∀ a s, Q a s → Q' a s) : Triple P x Q' E :=
  h.conseq (fun _ hs => hs) hq (fun _ _ he => he)

/-- A preserved part stays what it is. -/
theorem of_preserves {part : σ → γ} {x : EStateM ε σ α} (h : Preserves part x) (c : γ) :
    Triple (fun s => part s = c) x (fun _ s => part s = c) (fun _ s => part s = c) := by
  intro s hs
  cases hx : x s with
  | ok a t => exact (h.ok hx).trans hs
  | error e t => exact (h.error hx).trans hs

end Triple

namespace Keeps

theorem run {I : σ → Prop} {x : EStateM ε σ α} (h : Keeps I x) {s : σ} (hs : I s) :
    I (finalState (x s)) := by
  have hr := h s hs
  cases hx : x s with
  | ok a t => rw [hx] at hr; exact hr
  | error e t => rw [hx] at hr; exact hr

theorem of_run {I : σ → Prop} {x : EStateM ε σ α} (h : ∀ s, I s → I (finalState (x s))) :
    Keeps I x := by
  intro s hs
  have hr := h s hs
  cases hx : x s with
  | ok a t => rw [hx] at hr; exact hr
  | error e t => rw [hx] at hr; exact hr

/-- An assertion about a part of the state that the program does not touch. -/
theorem of_preserves {part : σ → γ} {x : EStateM ε σ α} (h : Preserves part x) (P : γ → Prop) :
    Keeps (fun s => P (part s)) x :=
  of_run (fun s hs => by rw [h s]; exact hs)

theorem and {I J : σ → Prop} {x : EStateM ε σ α} (hi : Keeps I x) (hj : Keeps J x) :
    Keeps (fun s => I s ∧ J s) x :=
  of_run (fun _ hs => ⟨hi.run hs.1, hj.run hs.2⟩)

theorem pure {I : σ → Prop} (a : α) : Keeps I (Pure.pure a : EStateM ε σ α) :=
  fun _ h => h

theorem throw {I : σ → Prop} (e : ε) : Keeps I (MonadExcept.throw e : EStateM ε σ α) :=
  fun _ h => h

theorem bind {I : σ → Prop} {x : EStateM ε σ α} {f : α → EStateM ε σ β} (hx : Keeps I x)
    (hf : ∀ a, Keeps I (f a)) : Keeps I (x >>= f) :=
  Triple.bind hx hf

theorem ite {I : σ → Prop} {x y : EStateM ε σ α} (c : Prop) [Decidable c]
    (hx : c → Keeps I x) (hy : ¬c → Keeps I y) : Keeps I (if c then x else y) :=
  Triple.ite c hx hy

/-- A read-only program keeps every assertion. -/
theorem get {I : σ → Prop} : Keeps I (MonadState.get : EStateM ε σ σ) :=
  fun _ h => h

end Keeps

end Usdb.Framework
