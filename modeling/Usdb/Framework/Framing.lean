import Mathlib.Data.List.Basic

namespace Usdb.Framework

variable {α β : Type}

/-- The part before the first separator and the part after it can be read back. -/
theorem append_separator_left {sep : β} {a a' b b' : List β} (ha : sep ∉ a) (ha' : sep ∉ a')
    (h : a ++ sep :: b = a' ++ sep :: b') : a = a' ∧ b = b' := by
  induction a generalizing a' with
  | nil =>
    cases a' with
    | nil => exact ⟨rfl, (List.cons.inj h).2⟩
    | cons x a' =>
      have hx : sep = x := (List.cons.inj h).1
      exact absurd (by simp [hx]) ha'
  | cons x a ih =>
    cases a' with
    | nil =>
      have hx : x = sep := (List.cons.inj h).1
      exact absurd (by simp [hx]) ha
    | cons x' a' =>
      obtain ⟨rfl, htail⟩ := List.cons.inj h
      obtain ⟨rfl, hb⟩ := ih (fun hm => ha (by simp [hm])) (fun hm => ha' (by simp [hm])) htail
      exact ⟨rfl, hb⟩

/-- The part before the last separator and the part after it can be read back. -/
theorem append_separator_right {sep : β} {a a' b b' : List β} (hb : sep ∉ b) (hb' : sep ∉ b')
    (h : a ++ sep :: b = a' ++ sep :: b') : a = a' ∧ b = b' := by
  have hr := congrArg List.reverse h
  simp only [List.reverse_append, List.reverse_cons, List.append_assoc,
    List.singleton_append] at hr
  obtain ⟨hb'', ha''⟩ := append_separator_left (by simpa using hb) (by simpa using hb') hr
  exact ⟨List.reverse_injective ha'', List.reverse_injective hb''⟩

/-- Where an encoding ends shows from the encoding itself. -/
def SelfDelimiting (encode : α → List β) : Prop :=
  ∀ a a', encode a <+: encode a' → a = a'

namespace SelfDelimiting

variable {encode : α → List β}

theorem injective (h : SelfDelimiting encode) : Function.Injective encode :=
  fun a a' he => h a a' (he ▸ List.prefix_rfl)

/-- Two encodings that start the same bytes are of the same value. -/
theorem eq_of_append (h : SelfDelimiting encode) {a a' : α} {r r' : List β}
    (he : encode a ++ r = encode a' ++ r') : a = a' := by
  rcases Nat.le_total (encode a).length (encode a').length with hle | hle
  · refine h a a' (List.prefix_of_prefix_length_le (List.prefix_append _ r) ?_ hle)
    rw [he]
    exact List.prefix_append _ r'
  · refine (h a' a (List.prefix_of_prefix_length_le (List.prefix_append _ r') ?_ hle)).symm
    rw [← he]
    exact List.prefix_append _ r

/-- A header of fixed length keeps an encoding self-delimiting. -/
theorem header (h : SelfDelimiting encode) {head : α → List β} {n : Nat}
    (hn : ∀ a, (head a).length = n) : SelfDelimiting (fun a => head a ++ encode a) := by
  rintro a a' ⟨r, he⟩
  rw [List.append_assoc] at he
  obtain ⟨-, htail⟩ := List.append_inj he (by rw [hn, hn])
  exact h a a' ⟨r, htail⟩

/-- The elements of a list can be read back from their encodings one after another. -/
theorem flatMap_injective (h : SelfDelimiting encode) (hne : ∀ a, encode a ≠ [])
    {xs ys : List α} (he : xs.flatMap encode = ys.flatMap encode) : xs = ys := by
  induction xs generalizing ys with
  | nil =>
    cases ys with
    | nil => rfl
    | cons y ys =>
      rw [List.flatMap_nil, List.flatMap_cons] at he
      exact absurd (List.append_eq_nil_iff.mp he.symm).1 (hne y)
  | cons x xs ih =>
    cases ys with
    | nil =>
      rw [List.flatMap_nil, List.flatMap_cons] at he
      exact absurd (List.append_eq_nil_iff.mp he).1 (hne x)
    | cons y ys =>
      rw [List.flatMap_cons, List.flatMap_cons] at he
      obtain rfl := h.eq_of_append he
      rw [ih (List.append_cancel_left he)]

end SelfDelimiting

/-- Frames of one length can be cut apart again. -/
theorem flatMap_eq_of_length {encode encode' : α → List β} {n : Nat} (hpos : 0 < n)
    {xs ys : List α} (hx : ∀ a ∈ xs, (encode a).length = n) (hy : ∀ a ∈ ys, (encode' a).length = n)
    (h : xs.flatMap encode = ys.flatMap encode') : xs.map encode = ys.map encode' := by
  induction xs generalizing ys with
  | nil =>
    cases ys with
    | nil => rfl
    | cons y ys =>
      have hlen := congrArg List.length h
      rw [List.flatMap_nil, List.flatMap_cons, List.length_append, hy y (by simp),
        List.length_nil] at hlen
      omega
  | cons x xs ih =>
    cases ys with
    | nil =>
      have hlen := congrArg List.length h
      rw [List.flatMap_nil, List.flatMap_cons, List.length_append, hx x (by simp),
        List.length_nil] at hlen
      omega
    | cons y ys =>
      rw [List.flatMap_cons, List.flatMap_cons] at h
      obtain ⟨hhead, htail⟩ := List.append_inj h (by rw [hx x (by simp), hy y (by simp)])
      rw [List.map_cons, List.map_cons, hhead,
        ih (fun a ha => hx a (by simp [ha])) (fun a ha => hy a (by simp [ha])) htail]

/-- On a set of values an encoding is read back from the front of any stream. -/
def ReadableOn (s : α → Prop) (encode : α → List β) : Prop :=
  ∀ a a' r r', s a → s a' → encode a ++ r = encode a' ++ r' → a = a' ∧ r = r'

namespace ReadableOn

variable {s : α → Prop} {encode : α → List β}

theorem inj (h : ReadableOn s encode) {a a' : α} (ha : s a) (ha' : s a')
    (he : encode a = encode a') : a = a' :=
  (h a a' [] [] ha ha' (by rw [he])).1

/-- An encoding of fixed length is readable where it is injective. -/
theorem of_length {n : Nat} (hn : ∀ a, (encode a).length = n)
    (hinj : ∀ a a', s a → s a' → encode a = encode a' → a = a') : ReadableOn s encode := by
  intro a a' r r' ha ha' he
  obtain ⟨hhead, htail⟩ := List.append_inj he (by rw [hn, hn])
  exact ⟨hinj a a' ha ha' hhead, htail⟩

/-- A body is readable behind a readable header that fixes its length. -/
theorem lengthPrefixed {γ : Type} {len : γ → List β} {t : γ → Prop} (hlen : ReadableOn t len)
    {size : α → γ} {body : α → List β} (hsize : ∀ a, s a → t (size a))
    (hbody : ∀ a a', s a → s a' → size a = size a' → (body a).length = (body a').length)
    (hinj : Function.Injective body) : ReadableOn s (fun a => len (size a) ++ body a) := by
  intro a a' r r' ha ha' he
  rw [List.append_assoc, List.append_assoc] at he
  obtain ⟨hs, he⟩ := hlen _ _ _ _ (hsize a ha) (hsize a' ha') he
  obtain ⟨hb, htail⟩ := List.append_inj he (hbody a a' ha ha' hs)
  exact ⟨hinj hb, htail⟩

/-- A marker in front tells a present value from a missing one. -/
theorem option (h : ReadableOn s encode) {present missing : β} (hne : present ≠ missing) :
    ReadableOn (fun o => ∀ a, o = some a → s a) (fun o : Option α =>
      match o with
      | some a => present :: encode a
      | none => [missing]) := by
  intro o o' r r' ho ho' he
  cases o with
  | none =>
    cases o' with
    | none => exact ⟨rfl, (List.cons.inj he).2⟩
    | some a' => exact absurd (List.cons.inj he).1.symm hne
  | some a =>
    cases o' with
    | none => exact absurd (List.cons.inj he).1 hne
    | some a' =>
      obtain ⟨rfl, hr⟩ := h a a' r r' (ho a rfl) (ho' a' rfl) (List.cons.inj he).2
      exact ⟨rfl, hr⟩

end ReadableOn

end Usdb.Framework
