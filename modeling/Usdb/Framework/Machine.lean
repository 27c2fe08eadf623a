namespace Usdb.Framework.Machine

variable {σ ε : Type}

/-- A run whose every step meets a condition on the state before it and the label. -/
inductive Run (step : σ → ε → σ → Prop) (cond : σ → ε → Prop) : σ → σ → Prop
  | refl (w : σ) : Run step cond w w
  | step {w w' w'' : σ} {l : ε} (run : Run step cond w w') (holds : cond w' l)
      (taken : step w' l w'') : Run step cond w w''

/-- Each label of a list can happen and meets the condition when its turn comes. -/
def Follows (enabled : σ → ε → Prop) (next : σ → ε → σ) (cond : σ → ε → Prop) :
    σ → List ε → Prop
  | _, [] => True
  | w, l :: rest => enabled w l ∧ cond w l ∧ Follows enabled next cond (next w l) rest

instance decidableFollows (enabled : σ → ε → Prop) (next : σ → ε → σ) (cond : σ → ε → Prop)
    [∀ w l, Decidable (enabled w l)] [∀ w l, Decidable (cond w l)] :
    ∀ w labels, Decidable (Follows enabled next cond w labels)
  | _, [] => .isTrue trivial
  | w, l :: rest =>
    have := decidableFollows enabled next cond (next w l) rest
    inferInstanceAs (Decidable (_ ∧ _))

section Runs

variable {step : σ → ε → σ → Prop} {cond cond' : σ → ε → Prop} {w₀ w w' : σ}

/-- What holds at the start and is kept by every step holds in every state reached. -/
theorem Run.induct {P : σ → Prop} (h : Run step cond w₀ w) (hinit : P w₀)
    (hstep : ∀ w l w', P w → cond w l → step w l w' → P w') : P w := by
  induction h with
  | refl => exact hinit
  | step _ holds taken ih => exact hstep _ _ _ ih holds taken

theorem Run.mono (hc : ∀ w l, cond w l → cond' w l) (h : Run step cond w₀ w) :
    Run step cond' w₀ w := by
  induction h with
  | refl => exact .refl _
  | step _ holds taken ih => exact .step ih (hc _ _ holds) taken

theorem Run.trans (h : Run step cond w₀ w) (h' : Run step cond w w') : Run step cond w₀ w' := by
  induction h' with
  | refl => exact h
  | step _ holds taken ih => exact .step ih holds taken

end Runs

section Labels

variable {enabled : σ → ε → Prop} {next : σ → ε → σ} {cond cond' : σ → ε → Prop} {w₀ w : σ}

/-- A condition on the labels alone may be checked for each of them. -/
theorem Follows.and {labels : List ε} (h : Follows enabled next cond' w labels)
    (hcond : ∀ l ∈ labels, ∀ w, cond w l) :
    Follows enabled next (fun w l => cond w l ∧ cond' w l) w labels := by
  induction labels generalizing w with
  | nil => trivial
  | cons l rest ih =>
    exact ⟨h.1, ⟨hcond l (by simp) w, h.2.1⟩, ih h.2.2 (fun l hl => hcond l (by simp [hl]))⟩

/-- Labels that can follow one another make a run. -/
theorem Run.of_follows {step : σ → ε → σ → Prop} (hstep : ∀ w l, enabled w l → step w l (next w l))
    (run : Run step cond w₀ w) {labels : List ε} (h : Follows enabled next cond w labels) :
    Run step cond w₀ (labels.foldl next w) := by
  induction labels generalizing w with
  | nil => exact run
  | cons l rest ih => exact ih (.step run h.2.1 (hstep w l h.1)) h.2.2

end Labels

end Usdb.Framework.Machine
