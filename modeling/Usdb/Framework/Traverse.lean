import Mathlib.Data.List.Forall2

namespace Usdb.Framework

variable {ε α β : Type}

theorem toOption_eq_some {x : Except ε α} {a : α} : x.toOption = some a ↔ x = .ok a := by
  cases x <;> simp [Except.toOption]

theorem isOk_iff_exists {x : Except ε α} : x.isOk = true ↔ ∃ a, x = .ok a := by
  cases x <;> simp [Except.isOk, Except.toBool]

theorem exists_of_mem_forall₂ {R : α → β → Prop} {l : List α} {l' : List β}
    (h : List.Forall₂ R l l') {a : α} (ha : a ∈ l) : ∃ b ∈ l', R a b := by
  induction h with
  | nil => exact absurd ha List.not_mem_nil
  | cons hab _ ih =>
    rcases List.mem_cons.mp ha with rfl | ha
    · exact ⟨_, by simp, hab⟩
    · obtain ⟨b, hb, hr⟩ := ih ha
      exact ⟨b, List.mem_cons_of_mem _ hb, hr⟩

theorem map_eq_of_forall₂ {γ : Type} {R : α → β → Prop} {f : α → γ} {g : β → γ} {l : List α}
    {l' : List β} (h : List.Forall₂ R l l') (hfg : ∀ a b, R a b → f a = g b) :
    l.map f = l'.map g := by
  induction h with
  | nil => rfl
  | cons hab _ ih => rw [List.map_cons, List.map_cons, hfg _ _ hab, ih]

theorem bind_eq_ok_iff {x : Except ε α} {f : α → Except ε β} {b : β} :
    (x >>= f) = .ok b ↔ ∃ a, x = .ok a ∧ f a = .ok b := by
  cases x with
  | ok a => simp [bind, Except.bind]
  | error e => simp [bind, Except.bind]

/-- A traversal that may fail succeeds when each element does, and then collects
what the elements give. -/
theorem mapM_eq_ok {f : α → Except ε β} {l : List α} {l' : List β} :
    l.mapM f = .ok l' ↔
      (∀ a ∈ l, ∃ b, f a = .ok b) ∧ l' = l.filterMap (fun a => (f a).toOption) := by
  induction l generalizing l' with
  | nil =>
    rw [List.mapM_nil, List.filterMap_nil]
    constructor
    · intro h
      cases h
      exact ⟨fun a ha => absurd ha List.not_mem_nil, rfl⟩
    · rintro ⟨-, rfl⟩
      rfl
  | cons a l ih =>
    rw [List.mapM_cons]
    cases hf : f a with
    | error e =>
      constructor
      · intro h
        cases h
      · rintro ⟨h, -⟩
        obtain ⟨b, hb⟩ := h a (by simp)
        rw [hf] at hb
        cases hb
    | ok b =>
      rw [List.filterMap_cons_some (f := fun a => (f a).toOption) (toOption_eq_some.mpr hf)]
      cases hl : l.mapM f with
      | error e =>
        constructor
        · intro h
          cases h
        · rintro ⟨h, -⟩
          have htail : l.mapM f = .ok (l.filterMap (fun a => (f a).toOption)) :=
            ih.mpr ⟨fun c hc => h c (by simp [hc]), rfl⟩
          rw [hl] at htail
          cases htail
      | ok bs =>
        obtain ⟨hall, rfl⟩ := ih.mp hl
        constructor
        · intro h
          cases h
          refine ⟨fun c hc => ?_, rfl⟩
          rcases List.mem_cons.mp hc with rfl | hc
          · exact ⟨b, hf⟩
          · exact hall c hc
        · rintro ⟨-, rfl⟩
          rfl

theorem mem_of_mapM_ok {f : α → Except ε β} {l : List α} {l' : List β} (h : l.mapM f = .ok l')
    {b : β} (hb : b ∈ l') : ∃ a ∈ l, f a = .ok b := by
  obtain ⟨-, rfl⟩ := mapM_eq_ok.mp h
  obtain ⟨a, ha, hab⟩ := List.mem_filterMap.mp hb
  exact ⟨a, ha, toOption_eq_some.mp hab⟩

theorem filterMap_toOption {f : α → Except ε β} {g : α → β} {l : List α}
    (h : ∀ a ∈ l, ∃ b, f a = .ok b) (hg : ∀ a b, f a = .ok b → b = g a) :
    l.filterMap (fun a => (f a).toOption) = l.map g := by
  rw [← List.filterMap_eq_map]
  refine List.filterMap_congr (fun a ha => ?_)
  obtain ⟨b, hb⟩ := h a ha
  rw [hb, hg a b hb]
  rfl

theorem mapM_cons_eq_ok {f : α → Except ε β} {a : α} {l : List α} {l' : List β} :
    (a :: l).mapM f = .ok l' ↔ ∃ b bs, f a = .ok b ∧ l.mapM f = .ok bs ∧ l' = b :: bs := by
  rw [List.mapM_cons]
  cases f a with
  | error e => simp [bind, Except.bind]
  | ok b =>
    cases l.mapM f with
    | error e => simp [bind, Except.bind]
    | ok bs => simp [bind, Except.bind, pure, Except.pure, eq_comm]

theorem mapM_eq_map {f : α → Except ε β} {g : α → β} {l : List α}
    (h : ∀ a ∈ l, f a = .ok (g a)) : l.mapM f = .ok (l.map g) := by
  induction l with
  | nil => rfl
  | cons a l ih =>
    exact mapM_cons_eq_ok.mpr ⟨g a, l.map g, h a (by simp), ih (fun b hb => h b (by simp [hb])), rfl⟩

theorem mapM_congr {f g : α → Except ε β} {l : List α} (h : ∀ a ∈ l, f a = g a) :
    l.mapM f = l.mapM g := by
  induction l with
  | nil => rfl
  | cons a l ih => rw [List.mapM_cons, List.mapM_cons, h a (by simp), ih (fun b hb => h b (by simp [hb]))]

/-- What the elements have in common with what they give. -/
theorem map_of_mapM_ok {γ : Type} {f : α → Except ε β} {before : α → γ} {after : β → γ}
    {l : List α} {l' : List β} (h : l.mapM f = .ok l')
    (hf : ∀ a b, f a = .ok b → after b = before a) : l'.map after = l.map before := by
  induction l generalizing l' with
  | nil =>
    cases h
    rfl
  | cons a l ih =>
    obtain ⟨b, bs, hb, hbs, rfl⟩ := mapM_cons_eq_ok.mp h
    rw [List.map_cons, List.map_cons, hf a b hb, ih hbs]

/-- What each step of a loop that may fail keeps, the loop keeps. -/
theorem foldlM_ok {f : β → α → Except ε β} {P : β → Prop} {l : List α} {b b' : β}
    (h : l.foldlM f b = .ok b') (hinit : P b)
    (hstep : ∀ b, ∀ a ∈ l, ∀ b', P b → f b a = .ok b' → P b') : P b' := by
  induction l generalizing b with
  | nil =>
    cases h
    exact hinit
  | cons a l ih =>
    rw [List.foldlM_cons] at h
    obtain ⟨c, hc, h⟩ := bind_eq_ok_iff.mp h
    exact ih h (hstep b a (by simp) c hinit hc)
      (fun b₁ a' ha' b₂ => hstep b₁ a' (by simp [ha']) b₂)

section Checks

variable {f : α → Except ε Unit} {l : List α}

theorem foldlM_check_ok : l.foldlM (fun _ a => f a) () = .ok () ↔ ∀ a ∈ l, f a = .ok () := by
  induction l with
  | nil => exact ⟨fun _ _ hmem => (nomatch hmem), fun _ => rfl⟩
  | cons a l ih =>
    rw [List.foldlM_cons, bind_eq_ok_iff, List.forall_mem_cons, ← ih]
    constructor
    · rintro ⟨⟨⟩, ha, hl⟩
      exact ⟨ha, hl⟩
    · rintro ⟨ha, hl⟩
      exact ⟨(), ha, hl⟩

/-- One failed check makes the whole fail, with an error of the kind that the checks fail
with. -/
theorem foldlM_check_error {P : ε → Prop}
    (hall : ∀ a ∈ l, f a = .ok () ∨ ∃ e, f a = .error e ∧ P e) (hex : ∃ a ∈ l, f a ≠ .ok ()) :
    ∃ e, l.foldlM (fun _ a => f a) () = .error e ∧ P e := by
  induction l with
  | nil =>
    obtain ⟨a, hmem, -⟩ := hex
    cases hmem
  | cons a l ih =>
    rw [List.foldlM_cons]
    rcases hall a (by simp) with hok | ⟨e, herror, he⟩
    · rw [hok]
      obtain ⟨b, hb, hfail⟩ := hex
      refine ih (fun c hc => hall c (by simp [hc])) ⟨b, ?_, hfail⟩
      rcases List.mem_cons.mp hb with rfl | hb
      · exact absurd hok hfail
      · exact hb
    · rw [herror]
      exact ⟨e, rfl, he⟩

end Checks

end Usdb.Framework
