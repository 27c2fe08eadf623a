import Usdb.Framework.SameOrder
import Usdb.Index.BlockRun
import Usdb.Index.MintCollection

namespace Usdb

open Framework

namespace Framework

variable {α κ : Type} [DecidableEq κ]

theorem mem_upsert_iff (key : α → κ) (a r : α) (rows : List α) :
    r ∈ upsert key a rows ↔ r = a ∨ (r ∈ rows ∧ key r ≠ key a) := by
  unfold upsert
  cases h : lookup key (key a) rows with
  | none =>
    have hfresh := (lookup_eq_none key (key a) rows).mp h
    dsimp only
    rw [List.mem_append, List.mem_singleton]
    constructor
    · rintro (hr | hr)
      · exact .inr ⟨hr, hfresh r hr⟩
      · exact .inl hr
    · rintro (hr | hr)
      · exact .inr hr
      · exact .inl hr.1
  | some b =>
    have hb := lookup_some_mem key (key a) rows b h
    have hkey := lookup_some_key key (key a) rows b h
    simp only [modifyRow, List.mem_map]
    constructor
    · rintro ⟨r', hr', he⟩
      split at he
      · exact .inl he.symm
      · subst he
        exact .inr ⟨hr', ‹_›⟩
    · rintro (rfl | ⟨hr, hne⟩)
      · exact ⟨b, hb, if_pos hkey⟩
      · exact ⟨r, hr, if_neg hne⟩

theorem upsert_nodup (key : α → κ) (a : α) (rows : List α) (hn : (rows.map key).Nodup) :
    ((upsert key a rows).map key).Nodup := by
  unfold upsert
  cases h : lookup key (key a) rows with
  | none =>
    have hfresh := (lookup_eq_none key (key a) rows).mp h
    dsimp only
    rw [List.map_append, List.nodup_append]
    refine ⟨hn, by simp, ?_⟩
    intro k hk k' hk' he
    obtain ⟨r, hr, rfl⟩ := List.mem_map.mp hk
    simp only [List.map_cons, List.map_nil, List.mem_singleton] at hk'
    exact hfresh r hr (he.trans hk')
  | some b =>
    dsimp only
    rw [modifyRow_keys key (key a) (fun _ => a) rows (fun _ _ => rfl)]
    exact hn

end Framework

namespace MultiMap

/-- Each inscription is listed at most once under an outpoint. -/
def Distinct (m : MultiMap) : Prop :=
  ∀ k, ((m k).map (·.inscriptionId)).Nodup

/-- Two maps have the same entries for an inscription, except under the outpoints of a
set. -/
def AlikeFor (except : OutPoint → Prop) (id : InscriptionId) (m m' : MultiMap) : Prop :=
  ∀ k, ¬except k → ∀ v, v.inscriptionId = id → (v ∈ m k ↔ v ∈ m' k)

/-- Two maps have the same entries, except under the outpoints of a set. -/
def Alike (except : OutPoint → Prop) (m m' : MultiMap) : Prop :=
  ∀ id, AlikeFor except id m m'

variable {except : OutPoint → Prop} {m m' : MultiMap}

theorem mem_insert (m : MultiMap) (key : OutPoint) (value v : ValidMinerPassInfo) (k : OutPoint) :
    v ∈ m.insert key value k ↔
      (k = key ∧ v = value) ∨
        (v ∈ m k ∧ (k = key → v.inscriptionId ≠ value.inscriptionId)) := by
  unfold insert
  by_cases h : k = key
  · rw [if_pos h, mem_upsert_iff]
    simp [h]
  · rw [if_neg h]
    simp [h]

theorem mem_deleteValue (m : MultiMap) (key : OutPoint) (id : InscriptionId)
    (v : ValidMinerPassInfo) (k : OutPoint) :
    v ∈ m.deleteValue key id k ↔ v ∈ m k ∧ (k = key → v.inscriptionId ≠ id) := by
  unfold deleteValue
  by_cases h : k = key
  · rw [if_pos h, List.mem_filter]
    simp [h]
  · rw [if_neg h]
    simp [h]

theorem Distinct.new : Distinct MultiMap.new :=
  fun _ => List.nodup_nil

theorem Distinct.insert (h : m.Distinct) (key : OutPoint) (value : ValidMinerPassInfo) :
    (m.insert key value).Distinct := by
  intro k
  unfold MultiMap.insert
  split
  · exact upsert_nodup _ _ _ (h k)
  · exact h k

theorem Distinct.deleteValue (h : m.Distinct) (key : OutPoint) (id : InscriptionId) :
    (m.deleteValue key id).Distinct := by
  intro k
  unfold MultiMap.deleteValue
  split
  · exact (List.filter_sublist.map _).nodup (h k)
  · exact h k

theorem Distinct.insertAll (h : m.Distinct) (passes : List ValidMinerPassInfo) :
    (m.insertAll passes).Distinct := by
  induction passes generalizing m with
  | nil => exact h
  | cons pass rest ih => exact ih (h.insert _ _)

theorem AlikeFor.refl (id : InscriptionId) (m : MultiMap) : AlikeFor except id m m :=
  fun _ _ _ _ => Iff.rfl

theorem AlikeFor.symm {id : InscriptionId} (h : AlikeFor except id m m') :
    AlikeFor except id m' m :=
  fun k hk v hv => (h k hk v hv).symm

theorem AlikeFor.trans {id : InscriptionId} {m'' : MultiMap} (h : AlikeFor except id m m')
    (h' : AlikeFor except id m' m'') : AlikeFor except id m m'' :=
  fun k hk v hv => (h k hk v hv).trans (h' k hk v hv)

/-- Where nothing is excepted the lists differ in their order only. -/
theorem Alike.perm (h : Alike except m m') (hd : m.Distinct) (hd' : m'.Distinct) {k : OutPoint}
    (hk : ¬except k) : (m k).Perm (m' k) := by
  rw [List.perm_ext_iff_of_nodup (hd k).of_map (hd' k).of_map]
  exact fun v => h v.inscriptionId k hk v rfl

theorem AlikeFor.insert {id : InscriptionId} (h : AlikeFor except id m m') (key : OutPoint)
    (value : ValidMinerPassInfo) :
    AlikeFor except id (m.insert key value) (m'.insert key value) := by
  intro k hk v hv
  rw [mem_insert, mem_insert, h k hk v hv]

theorem AlikeFor.deleteValue {id : InscriptionId} (h : AlikeFor except id m m') (key : OutPoint)
    (removed : InscriptionId) :
    AlikeFor except id (m.deleteValue key removed) (m'.deleteValue key removed) := by
  intro k hk v hv
  rw [mem_deleteValue, mem_deleteValue, h k hk v hv]

/-- An insertion concerns its own inscription only. -/
theorem AlikeFor.insert_other {id : InscriptionId} (key : OutPoint) {value : ValidMinerPassInfo}
    (hne : value.inscriptionId ≠ id) : AlikeFor except id (m.insert key value) m := by
  intro k _ v hv
  have hv' : v ≠ value := fun he => hne (he ▸ hv)
  have hid : v.inscriptionId ≠ value.inscriptionId := fun he => hne (he ▸ hv)
  rw [mem_insert]
  simp [hv', hid]

theorem AlikeFor.deleteValue_other {id removed : InscriptionId} (key : OutPoint)
    (hne : removed ≠ id) : AlikeFor except id (m.deleteValue key removed) m := by
  intro k _ v hv
  have hid : v.inscriptionId ≠ removed := fun he => hne (he ▸ hv)
  rw [mem_deleteValue]
  simp [hid]

theorem Alike.insertAll {passes passes' : List ValidMinerPassInfo} (h : Alike except m m')
    (hp : SameBy (·.inscriptionId) passes passes') :
    Alike except (m.insertAll passes) (m'.insertAll passes') := by
  intro id
  exact hp.foldl (R := AlikeFor except) (fun _ _ _ _ => AlikeFor.trans) (fun _ _ _ => AlikeFor.symm)
    (fun _ pass _ _ ha => ha.insert pass.satpoint.outpoint pass)
    (fun _ pass _ hne => .insert_other pass.satpoint.outpoint hne) (h id)

end MultiMap

namespace TxItem

open InscriptionIndexer

/-- The output is spent by the transaction, and the node knows the outputs spent before
it. -/
def Locatable (btc : BtcClient) (tx : Transaction) (outpoint : OutPoint) : Prop :=
  outpoint ∈ tx.input ∧
    ∀ o ∈ tx.input.take (tx.input.findIdx (fun v => v = outpoint)), (btc.getUtxo o).isSome

/-- Where a sat of a spent output goes. -/
def destination (btc : BtcClient) (tx : Transaction) (satpoint : SatPoint) : SatPointResult :=
  outputSatpoint tx (inputPosition btc tx satpoint.outpoint + satpoint.offset)

theorem sumInputValues_ok {btc : BtcClient} {pos total : Nat} {inputs : List OutPoint}
    {s t : IndexerState} (h : sumInputValues btc pos inputs s = .ok total t) :
    (∀ o ∈ inputs, (btc.getUtxo o).isSome) ∧ total = pos + inputValues btc inputs := by
  induction inputs generalizing pos s with
  | nil =>
    cases h
    simp [inputValues]
  | cons o rest ih =>
    obtain ⟨_, _, -, h⟩ := bind_eq_ok h
    cases hv : btc.getUtxo o with
    | none =>
      rw [hv] at h
      cases h
    | some amount =>
      rw [hv] at h
      obtain ⟨hall, rfl⟩ := ih h
      refine ⟨?_, ?_⟩
      · intro o' ho'
        rcases List.mem_cons.mp ho' with rfl | ho'
        · rw [hv]
          rfl
        · exact hall o' ho'
      · simp only [inputValues, List.map_cons, List.sum_cons, hv, Option.getD_some]
        rw [Nat.add_assoc]

theorem findIdx?_of_mem {inputs : List OutPoint} {outpoint : OutPoint} (h : outpoint ∈ inputs) :
    inputs.findIdx? (fun v => v = outpoint) =
      some (inputs.findIdx (fun v => v = outpoint)) := by
  rw [List.findIdx?_eq_some_iff_findIdx_eq]
  exact ⟨List.findIdx_lt_length_of_exists ⟨outpoint, h, by simp⟩, rfl⟩

theorem calcOutputSatpoint_ok {btc : BtcClient} {tx : Transaction} {satpoint : SatPoint}
    {ret : SatPointResult} {s t : IndexerState}
    (h : calcOutputSatpoint btc tx satpoint s = .ok (some ret) t) :
    Locatable btc tx satpoint.outpoint ∧ ret = destination btc tx satpoint := by
  unfold calcOutputSatpoint at h
  by_cases hmem : satpoint.outpoint ∈ tx.input
  · rw [findIdx?_of_mem hmem] at h
    obtain ⟨pos, _, hsum, h⟩ := bind_eq_ok h
    obtain ⟨hknown, rfl⟩ := sumInputValues_ok hsum
    cases h
    refine ⟨⟨hmem, hknown⟩, ?_⟩
    unfold destination inputPosition
    rw [Nat.zero_add]
  · have hnone : tx.input.findIdx? (fun v => v = satpoint.outpoint) = none := by
      rw [List.findIdx?_eq_none_iff]
      intro o ho
      simp only [decide_eq_false_iff_not]
      exact fun he => hmem (he ▸ ho)
    rw [hnone] at h
    cases h

theorem calcOutputSatpoint_locatable {btc : BtcClient} {tx : Transaction} {satpoint : SatPoint}
    {s : IndexerState} (hs : s.faults = []) (h : Locatable btc tx satpoint.outpoint) :
    calcOutputSatpoint btc tx satpoint s = .ok (some (destination btc tx satpoint)) s := by
  unfold calcOutputSatpoint
  rw [findIdx?_of_mem h.1]
  dsimp only
  rw [bind_ok (sumInputValues_known btc 0 _ s hs h.2), Nat.zero_add]
  rfl

end TxItem

namespace InscriptionTransferTracker

open MultiMap TxItem

variable {btc : BtcClient} {height : Nat} {tx : Transaction} {except : OutPoint → Prop}
  {working working' result : MultiMap} {items items' found : List InscriptionTransferItem}
  {s t : IndexerState}

/-- The map after an entry has gone where the transaction sends it. -/
def moveEntry (btc : BtcClient) (tx : Transaction) (working : MultiMap)
    (entry : ValidMinerPassInfo) : MultiMap :=
  trackMove working entry (destination btc tx entry.satpoint)

def entryItem (btc : BtcClient) (height : Nat) (tx : Transaction) (entry : ValidMinerPassInfo) :
    InscriptionTransferItem :=
  transferItem height entry (destination btc tx entry.satpoint)

theorem trackMove_distinct (h : working.Distinct) (entry : ValidMinerPassInfo)
    (ret : SatPointResult) : (trackMove working entry ret).Distinct := by
  unfold trackMove
  cases ret.address with
  | none => exact h.deleteValue _ _
  | some owner => exact (h.deleteValue _ _).insert _ _

theorem foldl_moveEntry_distinct (h : working.Distinct) (entries : List ValidMinerPassInfo) :
    (entries.foldl (moveEntry btc tx) working).Distinct := by
  induction entries generalizing working with
  | nil => exact h
  | cons entry rest ih => exact ih (trackMove_distinct h _ _)

theorem trackMove_alikeFor {id : InscriptionId} (h : AlikeFor except id working working')
    (entry : ValidMinerPassInfo) (ret : SatPointResult) :
    AlikeFor except id (trackMove working entry ret) (trackMove working' entry ret) := by
  unfold trackMove
  cases ret.address with
  | none => exact h.deleteValue _ _
  | some owner => exact (h.deleteValue _ _).insert _ _

/-- A move concerns its own inscription only. -/
theorem trackMove_other {id : InscriptionId} {entry : ValidMinerPassInfo} (ret : SatPointResult)
    (hne : entry.inscriptionId ≠ id) : AlikeFor except id (trackMove working entry ret) working := by
  unfold trackMove
  cases ret.address with
  | none => exact .deleteValue_other _ hne
  | some owner =>
    have hinsert : AlikeFor except id
        ((working.deleteValue entry.satpoint.outpoint entry.inscriptionId).insert
          ret.satpoint.outpoint
          { inscriptionId := entry.inscriptionId, owner, satpoint := ret.satpoint })
        (working.deleteValue entry.satpoint.outpoint entry.inscriptionId) :=
      .insert_other _ hne
    exact hinsert.trans (.deleteValue_other _ hne)

theorem processEntries_ok {entries : List ValidMinerPassInfo}
    (h : processEntries btc height tx working items entries s = .ok (result, found) t) :
    (∀ entry ∈ entries, Locatable btc tx entry.satpoint.outpoint) ∧
      result = entries.foldl (moveEntry btc tx) working ∧
      found = items ++ entries.map (entryItem btc height tx) := by
  induction entries generalizing working items s with
  | nil =>
    cases h
    simp
  | cons entry rest ih =>
    obtain ⟨ret, _, hcalc, h⟩ := bind_eq_ok h
    cases ret with
    | none => cases h
    | some ret =>
      obtain ⟨hloc, rfl⟩ := calcOutputSatpoint_ok hcalc
      obtain ⟨hall, rfl, rfl⟩ := ih h
      refine ⟨?_, rfl, ?_⟩
      · intro e he
        rcases List.mem_cons.mp he with rfl | he
        · exact hloc
        · exact hall e he
      · rw [List.map_cons, List.append_assoc]
        rfl

theorem processEntries_locatable {entries : List ValidMinerPassInfo} (hs : s.faults = [])
    (h : ∀ entry ∈ entries, Locatable btc tx entry.satpoint.outpoint) :
    processEntries btc height tx working items entries s =
      .ok (entries.foldl (moveEntry btc tx) working,
        items ++ entries.map (entryItem btc height tx)) s := by
  induction entries generalizing working items with
  | nil =>
    rw [List.map_nil, List.append_nil]
    rfl
  | cons entry rest ih =>
    unfold processEntries
    rw [bind_ok (calcOutputSatpoint_locatable hs (h entry (by simp)))]
    dsimp only
    rw [ih (fun e he => h e (by simp [he])), List.map_cons, List.append_assoc]
    rfl

/-- Two trackers as seen from a block: where its inputs look they have the same entries,
and they have found the same moves of each inscription. -/
structure TrackedAlike (except : OutPoint → Prop) (r r' : MultiMap × List InscriptionTransferItem) :
    Prop where
  entries : Alike except r.1 r'.1
  distinct : r.1.Distinct
  distinct' : r'.1.Distinct
  items : SameBy (·.inscriptionId) r.2 r'.2

theorem processEntries_alike {vin : OutPoint} {r : MultiMap × List InscriptionTransferItem}
    (h : TrackedAlike except (working, items) (working', items')) (hvin : ¬except vin)
    (hrun : processEntries btc height tx working items (working vin) s = .ok r t)
    {s' : IndexerState} (hs' : s'.faults = []) :
    ∃ r', processEntries btc height tx working' items' (working' vin) s' = .ok r' s' ∧
      TrackedAlike except r r' := by
  obtain ⟨result, found⟩ := r
  obtain ⟨hloc, rfl, rfl⟩ := processEntries_ok hrun
  have hperm := h.entries.perm h.distinct h.distinct' hvin
  have hsame : SameBy (·.inscriptionId) (working vin) (working' vin) :=
    .of_perm hperm (h.distinct vin)
  refine ⟨_, processEntries_locatable hs' (fun e he => hloc e (hperm.mem_iff.mpr he)), ?_, ?_, ?_, ?_⟩
  · intro id
    exact hsame.foldl (R := AlikeFor except) (fun _ _ _ _ => AlikeFor.trans) (fun _ _ _ => AlikeFor.symm)
      (fun _ entry _ _ ha => trackMove_alikeFor ha entry (destination btc tx entry.satpoint))
      (fun _ entry _ hne => trackMove_other (destination btc tx entry.satpoint) hne) (h.entries id)
  · exact foldl_moveEntry_distinct h.distinct _
  · exact foldl_moveEntry_distinct h.distinct' _
  · exact h.items.append (hsame.map (c := id) (fun _ => rfl))

theorem processInputs_alike {inputs : List OutPoint} {r : MultiMap × List InscriptionTransferItem}
    (h : TrackedAlike except (working, items) (working', items'))
    (hinputs : ∀ vin ∈ inputs, ¬except vin)
    (hrun : processInputs btc height tx working items inputs s = .ok r t)
    {s' : IndexerState} (hs' : s'.faults = []) :
    ∃ r', processInputs btc height tx working' items' inputs s' = .ok r' s' ∧
      TrackedAlike except r r' := by
  induction inputs generalizing working items working' items' s with
  | nil =>
    cases hrun
    exact ⟨_, rfl, h⟩
  | cons vin rest ih =>
    obtain ⟨⟨w, i⟩, _, hentries, hrest⟩ := bind_eq_ok hrun
    obtain ⟨⟨w', i'⟩, hentries', halike⟩ :=
      processEntries_alike h (hinputs vin (by simp)) hentries hs'
    obtain ⟨r', hrest', hfinal⟩ := ih halike (fun v hv => hinputs v (by simp [hv])) hrest
    exact ⟨r', (bind_ok hentries').trans hrest', hfinal⟩

theorem processTxs_alike {txs : List Transaction} {r : MultiMap × List InscriptionTransferItem}
    (h : TrackedAlike except (working, items) (working', items'))
    (hinputs : ∀ tx ∈ txs, ∀ vin ∈ tx.input, ¬except vin)
    (hrun : processTxs btc height working items txs s = .ok r t)
    {s' : IndexerState} (hs' : s'.faults = []) :
    ∃ r', processTxs btc height working' items' txs s' = .ok r' s' ∧
      TrackedAlike except r r' := by
  induction txs generalizing working items working' items' s with
  | nil =>
    cases hrun
    exact ⟨_, rfl, h⟩
  | cons tx rest ih =>
    obtain ⟨⟨w, i⟩, _, htx, hrest⟩ := bind_eq_ok hrun
    obtain ⟨⟨w', i'⟩, htx', halike⟩ := processInputs_alike h (hinputs tx (by simp)) htx hs'
    obtain ⟨r', hrest', hfinal⟩ := ih halike (fun tx htx => hinputs tx (by simp [htx])) hrest
    exact ⟨r', (bind_ok htx').trans hrest', hfinal⟩

end InscriptionTransferTracker

end Usdb
