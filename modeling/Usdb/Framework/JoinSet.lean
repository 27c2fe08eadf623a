import Mathlib.Data.List.Perm.Basic
import Usdb.Framework.Traverse

namespace Usdb.Framework.JoinSet

variable {ι ε β : Type}

/-- One task of the set is done: the schedule says which. -/
def joinNext (choice : Nat) (inFlight : List ι) : Option (ι × List ι) :=
  inFlight[choice % inFlight.length]?.map
    (fun done => (done, inFlight.eraseIdx (choice % inFlight.length)))

/-- The tasks that wait are spawned one by one, each when another is done. The first
failure is the outcome, and the results are collected as they come. -/
def drain (task : ι → Except ε (List β)) (pick : Nat → Nat) :
    Nat → List ι → List ι → List β → Except ε (List β)
  | 0, _, _, entries => .ok entries
  | rounds + 1, inFlight, waiting, entries =>
    match joinNext (pick rounds) inFlight with
    | none => .ok entries
    | some (done, rest) => do
      let results ← task done
      drain task pick rounds (rest ++ waiting.take 1) (waiting.drop 1) (entries ++ results)

/-- A bounded number of tasks at a time, until all are done. -/
def runAll (task : ι → Except ε (List β)) (pick : Nat → Nat) (bound : Nat) (tasks : List ι) :
    Except ε (List β) :=
  drain task pick tasks.length (tasks.take bound) (tasks.drop bound) []

/-- One task after the other. -/
def runInOrder (task : ι → Except ε (List β)) : List ι → List β → Except ε (List β)
  | [], entries => .ok entries
  | next :: rest, entries => do
    let results ← task next
    runInOrder task rest (entries ++ results)

/-- What a task that succeeds gives. -/
def resultOf (task : ι → Except ε (List β)) (i : ι) : List β :=
  (task i).toOption.getD []

variable {task : ι → Except ε (List β)} {pick : Nat → Nat} {tasks inFlight waiting rest : List ι}
  {entries out : List β}

theorem resultOf_ok {i : ι} {results : List β} (h : task i = .ok results) :
    resultOf task i = results := by
  unfold resultOf
  rw [h]
  rfl

theorem joinNext_perm {choice : Nat} {done : ι} (h : joinNext choice inFlight = some (done, rest)) :
    inFlight.Perm (done :: rest) := by
  obtain ⟨d, hget, hd⟩ := Option.map_eq_some_iff.mp h
  obtain ⟨hlt, rfl⟩ := List.getElem?_eq_some_iff.mp hget
  obtain ⟨rfl, rfl⟩ := Prod.mk.inj hd
  exact (List.getElem_cons_eraseIdx_perm hlt).symm

theorem joinNext_none {choice : Nat} (h : joinNext choice inFlight = none) : inFlight = [] := by
  cases inFlight with
  | nil => rfl
  | cons first others =>
    have hlt : choice % (first :: others).length < (first :: others).length :=
      Nat.mod_lt _ (by simp)
    have hget := List.getElem?_eq_none_iff.mp (Option.map_eq_none_iff.mp h)
    exact absurd hlt (Nat.not_lt.mpr hget)

/-- The tasks after one is done and the next is spawned. -/
theorem joinNext_remaining (waiting : List ι) {choice : Nat} {done : ι}
    (h : joinNext choice inFlight = some (done, rest)) :
    (inFlight ++ waiting).Perm (done :: ((rest ++ waiting.take 1) ++ waiting.drop 1)) := by
  rw [List.append_assoc, List.take_append_drop, ← List.cons_append]
  exact (joinNext_perm h).append_right _

theorem drain_ok (hspawned : inFlight = [] → waiting = []) {rounds : Nat}
    (hrounds : (inFlight ++ waiting).length ≤ rounds)
    (h : drain task pick rounds inFlight waiting entries = .ok out) :
    (∀ i ∈ inFlight ++ waiting, task i = .ok (resultOf task i)) ∧
      out.Perm (entries ++ (inFlight ++ waiting).flatMap (resultOf task)) := by
  induction rounds generalizing inFlight waiting entries with
  | zero =>
    cases h
    obtain hnil : inFlight ++ waiting = [] := List.length_eq_zero_iff.mp (Nat.le_zero.mp hrounds)
    rw [hnil]
    exact ⟨fun i hi => absurd hi List.not_mem_nil, by simp⟩
  | succ rounds ih =>
    unfold drain at h
    split at h
    · rename_i hnone
      cases h
      have hempty := joinNext_none hnone
      rw [hempty, hspawned hempty]
      exact ⟨fun i hi => absurd hi List.not_mem_nil, by simp⟩
    · rename_i done rest hnext
      obtain ⟨results, htask, h⟩ := bind_eq_ok_iff.mp h
      have hperm := joinNext_remaining waiting hnext
      have hlen := hperm.length_eq
      obtain ⟨hall, hout⟩ := ih
        (fun hnil => by
          have htake := (List.append_eq_nil_iff.mp hnil).2
          cases waiting with
          | nil => rfl
          | cons w ws => cases htake)
        (by rw [List.length_cons] at hlen; omega) h
      have hdone := resultOf_ok htask
      constructor
      · intro i hi
        rcases List.mem_cons.mp (hperm.mem_iff.mp hi) with rfl | hi
        · rw [hdone, htask]
        · exact hall i hi
      · calc out.Perm _ := hout
          _ = entries ++ (done :: ((rest ++ waiting.take 1) ++ waiting.drop 1)).flatMap
              (resultOf task) := by rw [List.flatMap_cons, hdone, List.append_assoc]
          List.Perm _ _ := (hperm.flatMap_right _).symm.append_left _

/-- If no task fails, neither does the run, however the tasks are scheduled. -/
theorem drain_of_ok {rounds : Nat} (h : ∀ i ∈ inFlight ++ waiting, ∃ results, task i = .ok results) :
    ∃ out, drain task pick rounds inFlight waiting entries = .ok out := by
  induction rounds generalizing inFlight waiting entries with
  | zero => exact ⟨entries, rfl⟩
  | succ rounds ih =>
    unfold drain
    split
    · exact ⟨entries, rfl⟩
    · rename_i done rest hnext
      have hperm := joinNext_remaining waiting hnext
      obtain ⟨results, htask⟩ := h done (hperm.mem_iff.mpr (by simp))
      rw [htask]
      exact ih (fun i hi => h i (hperm.mem_iff.mpr (List.mem_cons_of_mem _ hi)))

theorem runAll_ok {bound : Nat} (hbound : 0 < bound)
    (h : runAll task pick bound tasks = .ok out) :
    (∀ i ∈ tasks, task i = .ok (resultOf task i)) ∧ out.Perm (tasks.flatMap (resultOf task)) := by
  have hspawned : tasks.take bound = [] → tasks.drop bound = [] := by
    intro hnil
    rcases List.take_eq_nil_iff.mp hnil with hz | hz
    · omega
    · rw [hz, List.drop_nil]
  have hdrain := drain_ok hspawned (by simp) h
  rw [List.take_append_drop, List.nil_append] at hdrain
  exact hdrain

theorem runAll_of_ok {bound : Nat} (h : ∀ i ∈ tasks, ∃ results, task i = .ok results) :
    ∃ out, runAll task pick bound tasks = .ok out :=
  drain_of_ok (by rw [List.take_append_drop]; exact h)

theorem runInOrder_ok (h : runInOrder task tasks entries = .ok out) :
    (∀ i ∈ tasks, task i = .ok (resultOf task i)) ∧
      out = entries ++ tasks.flatMap (resultOf task) := by
  induction tasks generalizing entries with
  | nil =>
    cases h
    exact ⟨fun i hi => absurd hi List.not_mem_nil, by simp⟩
  | cons next rest ih =>
    unfold runInOrder at h
    obtain ⟨results, htask, h⟩ := bind_eq_ok_iff.mp h
    obtain ⟨hall, hout⟩ := ih h
    have hnext := resultOf_ok htask
    constructor
    · intro i hi
      rcases List.mem_cons.mp hi with rfl | hi
      · rw [hnext, htask]
      · exact hall i hi
    · rw [hout, List.flatMap_cons, hnext, List.append_assoc]

theorem runInOrder_of_ok (h : ∀ i ∈ tasks, ∃ results, task i = .ok results) :
    ∃ out, runInOrder task tasks entries = .ok out := by
  induction tasks generalizing entries with
  | nil => exact ⟨entries, rfl⟩
  | cons next rest ih =>
    obtain ⟨results, htask⟩ := h next (by simp)
    unfold runInOrder
    rw [htask]
    exact ih (fun i hi => h i (List.mem_cons_of_mem _ hi))

end Usdb.Framework.JoinSet
