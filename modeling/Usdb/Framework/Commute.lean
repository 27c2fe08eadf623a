import Usdb.Framework.Triple

namespace Usdb.Framework

variable {ε σ α β γ : Type}

/-- The same outcome with the state changed. -/
def mapState (g : σ → σ) : EStateM.Result ε σ α → EStateM.Result ε σ α
  | .ok a s => .ok a (g s)
  | .error e s => .error e (g s)

@[simp] theorem finalState_mapState (g : σ → σ) (r : EStateM.Result ε σ α) :
    finalState (mapState g r) = g (finalState r) := by
  cases r <;> rfl

/-- The program does not depend on what a change of the state affects: it ends the
same way and carries the change along. -/
def Commutes (g : σ → σ) (x : EStateM ε σ α) : Prop :=
  ∀ s, x (g s) = mapState g (x s)

namespace Commutes

variable {g : σ → σ}

theorem pure (a : α) : Commutes g (Pure.pure a : EStateM ε σ α) :=
  fun _ => rfl

theorem throw (e : ε) : Commutes g (MonadExcept.throw e : EStateM ε σ α) :=
  fun _ => rfl

theorem bind {x : EStateM ε σ α} {f : α → EStateM ε σ β} (hx : Commutes g x)
    (hf : ∀ a, Commutes g (f a)) : Commutes g (x >>= f) := by
  intro s
  have hxs := hx s
  cases h : x s with
  | ok a t =>
    rw [h] at hxs
    rw [bind_ok h, bind_ok hxs, hf a t]
  | error e t =>
    rw [h] at hxs
    rw [bind_error h, bind_error hxs]
    rfl

theorem modify {f : σ → σ} (h : ∀ s, f (g s) = g (f s)) :
    Commutes g (MonadState.modifyGet (fun s => (PUnit.unit, f s)) : EStateM ε σ PUnit) :=
  fun s => congrArg (EStateM.Result.ok PUnit.unit) (h s)

/-- A program may look at the state as long as it looks at what is not changed. -/
theorem get_bind {f : σ → EStateM ε σ α} (h : ∀ s, f (g s) = f s) (hf : ∀ s, Commutes g (f s)) :
    Commutes g (MonadState.get >>= f) := by
  intro s
  show f (g s) (g s) = mapState g (f s s)
  rw [h s, hf s s]

/-- A program that carries every change of a part along leaves that part alone. -/
theorem preserves {part : σ → γ} {set : γ → σ → σ} {x : EStateM ε σ α}
    (hget : ∀ c s, part (set c s) = c) (hset : ∀ s, set (part s) s = s)
    (h : ∀ c, Commutes (set c) x) : Preserves part x := by
  intro s
  have hs := h (part s) s
  rw [hset] at hs
  rw [hs, finalState_mapState, hget]

end Commutes

end Usdb.Framework
