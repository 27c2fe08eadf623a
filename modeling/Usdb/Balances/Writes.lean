import Usdb.Balances.Reorg

namespace Usdb.Balances

open Framework BalanceHistoryDB

/-- The process is killed once a number of writes are durable. -/
def crashAfter (k : Nat) : List IoResult := List.replicate k .ok ++ [.crash]

theorem crashAfter_succ (k : Nat) : crashAfter (k + 1) = .ok :: crashAfter k := by
  simp [crashAfter, List.replicate_succ]

section Reads

variable {α β : Type} {s t : HistoryState} {e : BalanceHistoryError}

theorem readDb_bind (f : BalanceHistoryDB → α) (g : α → HistoryM β) (s : HistoryState) :
    (readDb f >>= g) s = g (f s.db) s := rfl

theorem liftExcept_ok_bind {x : Except BalanceHistoryError α} {a : α} (h : x = .ok a)
    (g : α → HistoryM β) (s : HistoryState) : (liftExcept x >>= g) s = g a s := by
  subst h
  rfl

theorem liftExcept_error_bind {x : Except BalanceHistoryError α} (h : x = .error e)
    (g : α → HistoryM β) (s : HistoryState) : (liftExcept x >>= g) s = .error e s := by
  subst h
  rfl

theorem write_of_no_faults (f : BalanceHistoryDB → BalanceHistoryDB) (h : s.faults = []) :
    write f s = .ok () { s with db := f s.db } := by
  unfold write
  rw [h]

/-- A result computed at the end does not change the state. -/
theorem finalState_bind_pure (x : HistoryM α) (f : α → β) (s : HistoryState) :
    finalState ((x >>= fun a => pure (f a)) s) = finalState (x s) := by
  cases h : x s with
  | ok a t =>
    rw [bind_ok h]
    rfl
  | error e t =>
    rw [bind_error h]
    rfl

end Reads

theorem getElem?_length_cons {α : Type} (a : α) (as : List α) :
    (a :: as)[as.length]? = some (as.getLastD a) := by
  cases as with
  | nil => rfl
  | cons b bs =>
    rw [List.length_cons, List.getElem?_cons_succ, List.getLastD_eq_getLast?,
      List.getLast?_eq_getElem?, List.length_cons, Nat.add_sub_cancel,
      List.getElem?_eq_getElem (by simp)]
    rfl

theorem getLastD_append {α : Type} (as bs : List α) (a : α) :
    (as ++ bs).getLastD a = bs.getLastD (as.getLastD a) := by
  simp only [List.getLastD_eq_getLast?, List.getLast?_append]
  cases bs.getLast? <;> rfl

/-- A number of writes succeed, and the one after them reports an error. -/
def FailsAt (faults : List IoResult) (k : Nat) : Prop :=
  (∀ report ∈ faults.take k, report = .ok) ∧ faults[k]? = some .err

/-- From a store, the program makes its writes one after another and succeeds: the list
has the store after each of them. When a write fails or the process is killed on the way,
the store is the one after the last durable write. -/
structure Writes (x : HistoryM Unit) (db : BalanceHistoryDB) (dbs : List BalanceHistoryDB) :
    Prop where
  completes : ∀ s : HistoryState, s.db = db → s.faults = [] →
    x s = .ok () { s with db := dbs.getLastD db }
  survives : ∀ s : HistoryState, s.db = db → ∀ k, s.faults = crashAfter k → dbs.length ≤ k →
    x s = .ok () { s with db := dbs.getLastD db, faults := crashAfter (k - dbs.length) }
  interrupted : ∀ s : HistoryState, s.db = db → ∀ k, s.faults = crashAfter k →
    ∀ db', k < dbs.length → (db :: dbs)[k]? = some db' →
    x s = .error .panic { s with db := db', faults := [] }
  finishes : ∀ s t : HistoryState, s.db = db → x s = .ok () t →
    t = { s with db := dbs.getLastD db, faults := s.faults.drop dbs.length } ∧
      ∀ report ∈ s.faults.take dbs.length, report = .ok
  fails : ∀ (s t : HistoryState) (e : BalanceHistoryError), s.db = db → x s = .error e t →
    ∃ k db', k < dbs.length ∧ (db :: dbs)[k]? = some db' ∧
      t = { s with db := db', faults := s.faults.drop (k + 1) } ∧
      (e ≠ .panic → FailsAt s.faults k)

namespace Writes

variable {db : BalanceHistoryDB} {dbs dbs' : List BalanceHistoryDB} {x y : HistoryM Unit}

/-- Past the stores of a first program come those of the second. -/
theorem getElem?_past (db : BalanceHistoryDB) (dbs dbs' : List BalanceHistoryDB) (j : Nat) :
    (db :: (dbs ++ dbs'))[dbs.length + j]? = (dbs.getLastD db :: dbs')[j]? := by
  cases j with
  | zero =>
    rw [Nat.add_zero, ← List.cons_append, List.getElem?_append_left (by simp), getElem?_length_cons]
    rfl
  | succ j =>
    rw [← Nat.add_assoc, List.getElem?_cons_succ, List.getElem?_append_right (by omega),
      Nat.add_sub_cancel_left, List.getElem?_cons_succ]

theorem pure : Writes (Pure.pure ()) db [] where
  completes := by
    rintro s rfl -
    rfl
  survives := by
    rintro s rfl k hk -
    rw [List.length_nil, Nat.sub_zero, ← hk]
    rfl
  interrupted := by
    intro s hs k hk db' hlt
    cases hlt
  finishes := by
    rintro s t rfl h
    cases h
    exact ⟨rfl, by simp⟩
  fails := by
    intro s t e hs h
    cases h

theorem write (f : BalanceHistoryDB → BalanceHistoryDB) : Writes (Balances.write f) db [f db] where
  completes := by
    rintro s rfl hf
    exact write_of_no_faults f hf
  survives := by
    rintro s rfl k hk hle
    obtain ⟨j, rfl⟩ : ∃ j, k = j + 1 := ⟨k - 1, by simp at hle; omega⟩
    rw [crashAfter_succ] at hk
    unfold Balances.write
    rw [hk]
    rfl
  interrupted := by
    rintro s rfl k hk db' hlt hget
    obtain rfl : k = 0 := by simpa using hlt
    cases hget
    unfold Balances.write
    rw [hk]
    rfl
  finishes := by
    rintro s t rfl h
    unfold Balances.write at h
    split at h <;> rename_i hf <;> cases h
    · exact ⟨by simp [hf], by simp [hf]⟩
    · exact ⟨by simp [hf], by simp [hf]⟩
  fails := by
    rintro s t e rfl h
    unfold Balances.write at h
    split at h <;> rename_i hf <;> cases h
    · refine ⟨0, s.db, Nat.zero_lt_one, rfl, by simp [hf], fun _ => ⟨by simp, ?_⟩⟩
      rw [hf]
      rfl
    · exact ⟨0, s.db, Nat.zero_lt_one, rfl, by simp [hf], fun hne => absurd rfl hne⟩

theorem bind (hx : Writes x db dbs) (hy : Writes y (dbs.getLastD db) dbs') :
    Writes (x >>= fun _ => y) db (dbs ++ dbs') := by
  have hlast := getLastD_append dbs dbs' db
  constructor
  · intro s hs hf
    refine (bind_ok (hx.completes s hs hf)).trans ?_
    rw [hlast]
    exact hy.completes { s with db := dbs.getLastD db } rfl hf
  · intro s hs k hk hle
    rw [List.length_append] at hle
    refine (bind_ok (hx.survives s hs k hk (by omega))).trans ?_
    rw [hlast, List.length_append, ← Nat.sub_sub]
    exact hy.survives { s with db := dbs.getLastD db, faults := crashAfter (k - dbs.length) } rfl
      (k - dbs.length) rfl (by omega)
  · intro s hs k hk db' hlt hget
    rw [List.length_append] at hlt
    by_cases hklt : k < dbs.length
    · refine bind_error (hx.interrupted s hs k hk db' hklt ?_)
      rw [← List.cons_append, List.getElem?_append_left (by simp; omega)] at hget
      exact hget
    · refine (bind_ok (hx.survives s hs k hk (by omega))).trans ?_
      refine hy.interrupted { s with db := dbs.getLastD db, faults := crashAfter (k - dbs.length) }
        rfl (k - dbs.length) rfl db' (by omega) ?_
      rw [← getElem?_past db dbs dbs' (k - dbs.length), Nat.add_sub_cancel' (by omega)]
      exact hget
  · intro s t hs h
    obtain ⟨_, s₁, h₁, h₂⟩ := bind_eq_ok h
    obtain ⟨hs₁, hok₁⟩ := hx.finishes s s₁ hs h₁
    have hdb₁ : s₁.db = dbs.getLastD db := by rw [hs₁]
    have hfaults₁ : s₁.faults = s.faults.drop dbs.length := by rw [hs₁]
    obtain ⟨ht, hok₂⟩ := hy.finishes s₁ t hdb₁ h₂
    rw [hfaults₁] at ht hok₂
    refine ⟨?_, fun report hmem => ?_⟩
    · rw [ht, hs₁, hlast, List.length_append, List.drop_drop]
    · rw [List.length_append, List.take_add, List.mem_append] at hmem
      exact hmem.elim (hok₁ report) (hok₂ report)
  · intro s t e hs h
    rcases bind_eq_error h with h₁ | ⟨_, s₁, h₁, h₂⟩
    · obtain ⟨k, db', hlt, hget, ht, hk⟩ := hx.fails s t e hs h₁
      refine ⟨k, db', by rw [List.length_append]; omega, ?_, ht, hk⟩
      rw [← List.cons_append, List.getElem?_append_left (by simp; omega)]
      exact hget
    · obtain ⟨hs₁, hok₁⟩ := hx.finishes s s₁ hs h₁
      have hdb₁ : s₁.db = dbs.getLastD db := by rw [hs₁]
      have hfaults₁ : s₁.faults = s.faults.drop dbs.length := by rw [hs₁]
      obtain ⟨k, db', hlt, hget, ht, hk⟩ := hy.fails s₁ t e hdb₁ h₂
      rw [hfaults₁] at ht hk
      refine ⟨dbs.length + k, db', by rw [List.length_append]; omega, ?_, ?_, fun hne => ⟨?_, ?_⟩⟩
      · rw [getElem?_past]
        exact hget
      · rw [ht, hs₁, List.drop_drop, Nat.add_assoc]
      · intro report hmem
        rw [List.take_add, List.mem_append] at hmem
        exact hmem.elim (hok₁ report) ((hk hne).1 report)
      · rw [← List.getElem?_drop]
        exact (hk hne).2

/-- A read before the writes. -/
theorem read {α : Type} {f : BalanceHistoryDB → α} {g : α → HistoryM Unit}
    (h : Writes (g (f db)) db dbs) : Writes (readDb f >>= g) db dbs where
  completes := by
    rintro s rfl hf
    exact h.completes s rfl hf
  survives := by
    rintro s rfl k hk hle
    exact h.survives s rfl k hk hle
  interrupted := by
    rintro s rfl k hk db' hlt hget
    exact h.interrupted s rfl k hk db' hlt hget
  finishes := by
    rintro s t rfl hrun
    exact h.finishes s t rfl hrun
  fails := by
    rintro s t e rfl hrun
    exact h.fails s t e rfl hrun

/-- Where the process is killed, the store is the one after the last durable write. -/
theorem finalState (h : Writes x db dbs) {s : HistoryState} (hs : s.db = db) {k : Nat}
    (hk : s.faults = crashAfter k) {db' : BalanceHistoryDB} (hget : (db :: dbs)[k]? = some db') :
    (Framework.finalState (x s)).db = db' := by
  have hlen : k < dbs.length + 1 := by
    have := (List.getElem?_eq_some_iff.mp hget).1
    simpa using this
  by_cases hlt : k < dbs.length
  · rw [h.interrupted s hs k hk db' hlt hget]
    rfl
  · obtain rfl : k = dbs.length := by omega
    rw [h.survives s hs _ hk (Nat.le_refl _)]
    rw [getElem?_length_cons] at hget
    exact Option.some.inj hget

end Writes

end Usdb.Balances
