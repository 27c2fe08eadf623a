import Usdb.Index.TrackerMap

namespace Usdb

open Framework TxItem

/-- The one place the map lists an inscription at, if it lists it. -/
def MultiMap.Holds (m : MultiMap) (id : InscriptionId) (place : Option ValidMinerPassInfo) : Prop :=
  ∀ k v, v.inscriptionId = id → (v ∈ m k ↔ place = some v ∧ k = v.satpoint.outpoint)

/-- The tracker entry of a moved inscription; a burned one has none. -/
def InscriptionTransferItem.entry (item : InscriptionTransferItem) : Option ValidMinerPassInfo :=
  item.toAddress.map (fun owner =>
    { inscriptionId := item.inscriptionId, owner, satpoint := item.satpoint })

/-- A list of moves that takes one inscription from place to place. -/
inductive Moves : Option ValidMinerPassInfo → List InscriptionTransferItem →
    Option ValidMinerPassInfo → Prop
  | nil (place : Option ValidMinerPassInfo) : Moves place [] place
  | cons {v : ValidMinerPassInfo} {item : InscriptionTransferItem}
      {rest : List InscriptionTransferItem} {place : Option ValidMinerPassInfo}
      (same : item.inscriptionId = v.inscriptionId) (source : item.prevSatpoint = v.satpoint)
      (sender : item.fromAddress = v.owner) (tail : Moves item.entry rest place) :
      Moves (some v) (item :: rest) place

namespace Moves

variable {a b c : Option ValidMinerPassInfo} {items items' : List InscriptionTransferItem}

theorem append (h : Moves a items b) (h' : Moves b items' c) : Moves a (items ++ items') c := by
  induction h with
  | nil place => exact h'
  | cons same source sender _ ih => exact .cons same source sender (ih h')

theorem none_left (h : Moves none items b) : items = [] ∧ b = none := by
  cases h
  exact ⟨rfl, rfl⟩

end Moves

namespace MultiMap

variable {m : MultiMap} {id : InscriptionId} {place : Option ValidMinerPassInfo}

theorem Holds.place_id (h : m.Holds id place) {v : ValidMinerPassInfo} {k : OutPoint}
    (hv : v ∈ m k) (hid : v.inscriptionId = id) : place = some v ∧ k = v.satpoint.outpoint :=
  (h k v hid).mp hv

theorem Holds.new (id : InscriptionId) : MultiMap.new.Holds id none := by
  intro k v _
  constructor
  · intro hv
    cases hv
  · intro hv
    cases hv.1

theorem Holds.congr {m' : MultiMap} (h : m.Holds id place)
    (hm : AlikeFor (fun _ => False) id m' m) : m'.Holds id place :=
  fun k v hv => (hm k (fun hf => hf) v hv).trans (h k v hv)

theorem Holds.insert (h : m.Holds id none) {value : ValidMinerPassInfo}
    (hv : value.inscriptionId = id) :
    (m.insert value.satpoint.outpoint value).Holds id (some value) := by
  intro k v hid
  have hnot : v ∉ m k := fun hm => nomatch (h.place_id hm hid).1
  rw [mem_insert]
  constructor
  · rintro (⟨rfl, rfl⟩ | ⟨hm, -⟩)
    · exact ⟨rfl, rfl⟩
    · exact absurd hm hnot
  · rintro ⟨he, rfl⟩
    cases he
    exact .inl ⟨rfl, rfl⟩

theorem Holds.deleteValue {value : ValidMinerPassInfo} (h : m.Holds id (some value)) :
    (m.deleteValue value.satpoint.outpoint id).Holds id none := by
  intro k v hid
  rw [mem_deleteValue]
  constructor
  · rintro ⟨hm, hk⟩
    obtain ⟨he, rfl⟩ := h.place_id hm hid
    cases he
    exact absurd hid (hk rfl)
  · rintro ⟨he, -⟩
    cases he

theorem Holds.insertAll_other {passes : List ValidMinerPassInfo} (h : m.Holds id place)
    (hne : ∀ pass ∈ passes, pass.inscriptionId ≠ id) : (m.insertAll passes).Holds id place := by
  induction passes generalizing m with
  | nil => exact h
  | cons pass rest ih =>
    have hfirst : (m.insert pass.satpoint.outpoint pass).Holds id place :=
      h.congr (.insert_other _ (hne pass (by simp)))
    exact ih hfirst (fun pass hpass => hne pass (by simp [hpass]))

/-- A list of fresh entries, one of which is of the inscription. -/
theorem Holds.insertAll {passes : List ValidMinerPassInfo} (h : m.Holds id none)
    (hn : (passes.map (·.inscriptionId)).Nodup) {value : ValidMinerPassInfo}
    (hvalue : value ∈ passes) (hid : value.inscriptionId = id) :
    (m.insertAll passes).Holds id (some value) := by
  induction passes generalizing m with
  | nil => cases hvalue
  | cons pass rest ih =>
    obtain ⟨hfresh, hrest⟩ := List.nodup_cons.mp hn
    rcases List.mem_cons.mp hvalue with rfl | hvalue
    · refine (h.insert hid).insertAll_other (fun v hv he => ?_)
      exact hfresh (List.mem_map.mpr ⟨v, hv, he.trans hid.symm⟩)
    · have hne : pass.inscriptionId ≠ id := by
        intro he
        exact hfresh (List.mem_map.mpr ⟨value, hvalue, hid.trans he.symm⟩)
      exact ih (h.congr (.insert_other _ hne)) hrest hvalue

end MultiMap

namespace InscriptionTransferTracker

open MultiMap

variable {btc : BtcClient} {height : Nat} {tx : Transaction} {working result : MultiMap}
  {items found : List InscriptionTransferItem} {s t : IndexerState} {id : InscriptionId}
  {place : Option ValidMinerPassInfo}

/-- The moves of one inscription. -/
def movesOf (id : InscriptionId) (items : List InscriptionTransferItem) :
    List InscriptionTransferItem :=
  items.filter (fun item => item.inscriptionId = id)

theorem movesOf_append (id : InscriptionId) (items items' : List InscriptionTransferItem) :
    movesOf id (items ++ items') = movesOf id items ++ movesOf id items' :=
  List.filter_append ..

theorem movesOf_cons_same {item : InscriptionTransferItem} (h : item.inscriptionId = id) :
    movesOf id (item :: items) = item :: movesOf id items :=
  List.filter_cons_of_pos (decide_eq_true h)

theorem movesOf_cons_other {item : InscriptionTransferItem} (h : item.inscriptionId ≠ id) :
    movesOf id (item :: items) = movesOf id items :=
  List.filter_cons_of_neg (fun hc => h (of_decide_eq_true hc))

theorem trackMove_holds {entry : ValidMinerPassInfo} (h : working.Holds id (some entry))
    (hid : entry.inscriptionId = id) (ret : SatPointResult) :
    (trackMove working entry ret).Holds id (transferItem height entry ret).entry := by
  have hremoved := h.deleteValue
  unfold trackMove InscriptionTransferItem.entry transferItem
  cases ret.address with
  | none =>
    rw [hid]
    exact hremoved
  | some owner =>
    rw [hid]
    have hvalue : (⟨id, owner, ret.satpoint⟩ : ValidMinerPassInfo).inscriptionId = id := rfl
    exact hremoved.insert hvalue

/-- The entries found under a spent outpoint: an inscription that is among them moves once,
the others stay. -/
theorem processEntries_holds (btc : BtcClient) (height : Nat) (tx : Transaction)
    {entries : List ValidMinerPassInfo}
    (hn : (entries.map (·.inscriptionId)).Nodup) (h : working.Holds id place)
    (hentries : ∀ entry ∈ entries, entry.inscriptionId = id → place = some entry) :
    ∃ place', (entries.foldl (moveEntry btc tx) working).Holds id place' ∧
      Moves place (movesOf id (entries.map (entryItem btc height tx))) place' := by
  induction entries generalizing working place with
  | nil => exact ⟨place, h, .nil place⟩
  | cons entry rest ih =>
    obtain ⟨hfresh, hrest⟩ := List.nodup_cons.mp hn
    rw [List.foldl_cons, List.map_cons]
    by_cases hid : entry.inscriptionId = id
    · have hplace := hentries entry (by simp) hid
      subst hplace
      have hmoved : (moveEntry btc tx working entry).Holds id
          (entryItem btc height tx entry).entry := trackMove_holds h hid _
      obtain ⟨place', hplace', hmoves⟩ := ih hrest hmoved (fun e he heid =>
        absurd (List.mem_map.mpr ⟨e, he, heid.trans hid.symm⟩) hfresh)
      refine ⟨place', hplace', ?_⟩
      rw [movesOf_cons_same hid]
      exact .cons rfl rfl rfl hmoves
    · have hkept : (moveEntry btc tx working entry).Holds id place :=
        h.congr (trackMove_other _ hid)
      obtain ⟨place', hplace', hmoves⟩ := ih hrest hkept (fun e he => hentries e (by simp [he]))
      refine ⟨place', hplace', ?_⟩
      rw [movesOf_cons_other hid]
      exact hmoves

theorem processInputs_distinct {inputs : List OutPoint} (hd : working.Distinct)
    (hrun : processInputs btc height tx working items inputs s = .ok (result, found) t) :
    result.Distinct := by
  induction inputs generalizing working items s with
  | nil =>
    cases hrun
    exact hd
  | cons vin rest ih =>
    obtain ⟨⟨w, i⟩, _, hentries, hrest⟩ := bind_eq_ok hrun
    obtain ⟨-, rfl, rfl⟩ := processEntries_ok hentries
    exact ih (foldl_moveEntry_distinct hd _) hrest

theorem processTxs_distinct {txs : List Transaction} (hd : working.Distinct)
    (hrun : processTxs btc height working items txs s = .ok (result, found) t) :
    result.Distinct := by
  induction txs generalizing working items s with
  | nil =>
    cases hrun
    exact hd
  | cons tx rest ih =>
    obtain ⟨⟨w, i⟩, _, htx, hrest⟩ := bind_eq_ok hrun
    exact ih (processInputs_distinct hd htx) hrest

/-- What the inputs of a transaction do to the place of an inscription. -/
theorem processInputs_holds {inputs : List OutPoint} (hd : working.Distinct)
    (h : working.Holds id place)
    (hrun : processInputs btc height tx working items inputs s = .ok (result, found) t) :
    ∃ new place', found = items ++ new ∧ Moves place (movesOf id new) place' ∧
      result.Holds id place' := by
  induction inputs generalizing working items place s with
  | nil =>
    cases hrun
    exact ⟨[], place, (List.append_nil _).symm, .nil place, h⟩
  | cons vin rest ih =>
    obtain ⟨⟨w, i⟩, _, hentries, hrest⟩ := bind_eq_ok hrun
    obtain ⟨-, rfl, rfl⟩ := processEntries_ok hentries
    obtain ⟨place₁, hplace₁, hmoves₁⟩ := processEntries_holds btc height tx (hd vin) h
      (fun entry he hid => (h.place_id he hid).1)
    obtain ⟨new, place', rfl, hmoves, hplace'⟩ :=
      ih (foldl_moveEntry_distinct hd _) hplace₁ hrest
    refine ⟨(working vin).map (entryItem btc height tx) ++ new, place', ?_, ?_, hplace'⟩
    · rw [List.append_assoc]
    · rw [movesOf_append]
      exact hmoves₁.append hmoves

/-- What a list of transactions does to the place of an inscription. -/
theorem processTxs_holds {txs : List Transaction} (hd : working.Distinct)
    (h : working.Holds id place)
    (hrun : processTxs btc height working items txs s = .ok (result, found) t) :
    ∃ new place', found = items ++ new ∧ Moves place (movesOf id new) place' ∧
      result.Holds id place' := by
  induction txs generalizing working items place s with
  | nil =>
    cases hrun
    exact ⟨[], place, (List.append_nil _).symm, .nil place, h⟩
  | cons tx rest ih =>
    obtain ⟨⟨w, i⟩, _, htx, hrest⟩ := bind_eq_ok hrun
    obtain ⟨new₁, place₁, rfl, hmoves₁, hplace₁⟩ := processInputs_holds hd h htx
    obtain ⟨new, place', rfl, hmoves, hplace'⟩ :=
      ih (processInputs_distinct hd htx) hplace₁ hrest
    refine ⟨new₁ ++ new, place', ?_, ?_, hplace'⟩
    · rw [List.append_assoc]
    · rw [movesOf_append]
      exact hmoves₁.append hmoves

end InscriptionTransferTracker

/-- Every entry is listed under the outpoint that holds it. -/
def MultiMap.Placed (m : MultiMap) : Prop :=
  ∀ k, ∀ v ∈ m k, v.satpoint.outpoint = k

theorem MultiMap.Placed.insertAll {m : MultiMap} (h : m.Placed)
    (passes : List ValidMinerPassInfo) : (m.insertAll passes).Placed := by
  induction passes generalizing m with
  | nil => exact h
  | cons pass rest ih =>
    refine ih ?_
    intro k v hv
    rw [mem_insert] at hv
    rcases hv with ⟨rfl, rfl⟩ | ⟨hv, -⟩
    · rfl
    · exact h k v hv

namespace InscriptionTransferTracker

open MultiMap

variable {btc : BtcClient} {height : Nat} {tx : Transaction} {working result : MultiMap}
  {items found : List InscriptionTransferItem} {s t : IndexerState}
  {position : Txid → Nat} {inputIndex : Txid → OutPoint → Nat}

/-- The order of two moves given by the place of the moving transaction and the place of
the spent input in it. -/
def NotAfter (position : Txid → Nat) (inputIndex : Txid → OutPoint → Nat)
    (a b : InscriptionTransferItem) : Prop :=
  position a.satpoint.outpoint.txid < position b.satpoint.outpoint.txid ∨
    (position a.satpoint.outpoint.txid = position b.satpoint.outpoint.txid ∧
      inputIndex a.satpoint.outpoint.txid a.prevSatpoint.outpoint ≤
        inputIndex b.satpoint.outpoint.txid b.prevSatpoint.outpoint)

theorem trackMove_placed (h : working.Placed) (entry : ValidMinerPassInfo) (ret : SatPointResult) :
    (trackMove working entry ret).Placed := by
  have hremoved : (working.deleteValue entry.satpoint.outpoint entry.inscriptionId).Placed := by
    intro k v hv
    rw [mem_deleteValue] at hv
    exact h k v hv.1
  unfold trackMove
  cases ret.address with
  | none => exact hremoved
  | some owner =>
    intro k v hv
    rw [mem_insert] at hv
    rcases hv with ⟨rfl, rfl⟩ | ⟨hv, -⟩
    · rfl
    · exact hremoved k v hv

theorem foldl_moveEntry_placed (h : working.Placed) (entries : List ValidMinerPassInfo) :
    (entries.foldl (moveEntry btc tx) working).Placed := by
  induction entries generalizing working with
  | nil => exact h
  | cons entry rest ih => exact ih (trackMove_placed h _ _)

/-- The move was found when a transaction spent an outpoint. -/
def FoundAt (tx : Transaction) (vin : OutPoint) (item : InscriptionTransferItem) : Prop :=
  item.satpoint.outpoint.txid = tx.txid ∧ item.prevSatpoint.outpoint = vin

variable {R : InscriptionTransferItem → InscriptionTransferItem → Prop}

/-- The moves of one transaction are related one after the other, if those of one input
are and those of an earlier input are to those of a later one. -/
theorem processInputs_pairwise {inputs : List OutPoint} (hd : working.Distinct)
    (hp : working.Placed)
    (hsame : ∀ vin ∈ inputs, ∀ a b, FoundAt tx vin a → FoundAt tx vin b →
      a.inscriptionId ≠ b.inscriptionId → R a b)
    (hinputs : inputs.Pairwise (fun v w => ∀ a b, FoundAt tx v a → FoundAt tx w b → R a b))
    (hrun : processInputs btc height tx working items inputs s = .ok (result, found) t) :
    ∃ new, found = items ++ new ∧ result.Placed ∧
      (∀ item ∈ new, ∃ vin ∈ inputs, FoundAt tx vin item) ∧ new.Pairwise R := by
  induction inputs generalizing working items s with
  | nil =>
    cases hrun
    exact ⟨[], (List.append_nil _).symm, hp, fun _ h => absurd h List.not_mem_nil, .nil⟩
  | cons vin rest ih =>
    obtain ⟨⟨w, i⟩, _, hentries, hrest⟩ := bind_eq_ok hrun
    obtain ⟨-, rfl, rfl⟩ := processEntries_ok hentries
    obtain ⟨hfirst, hinputs⟩ := List.pairwise_cons.mp hinputs
    obtain ⟨new, rfl, hplaced, hnew, hordered⟩ := ih (foldl_moveEntry_distinct hd _)
      (foldl_moveEntry_placed hp _) (fun v hv => hsame v (List.mem_cons_of_mem _ hv)) hinputs hrest
    have hmoved : ∀ item ∈ (working vin).map (entryItem btc height tx), FoundAt tx vin item := by
      intro item hitem
      obtain ⟨entry, hentry, rfl⟩ := List.mem_map.mp hitem
      exact ⟨TxItem.outputSatpoint_txid tx _, hp vin entry hentry⟩
    refine ⟨(working vin).map (entryItem btc height tx) ++ new, ?_, hplaced, ?_, ?_⟩
    · rw [List.append_assoc]
    · intro item hitem
      rcases List.mem_append.mp hitem with hitem | hitem
      · exact ⟨vin, by simp, hmoved item hitem⟩
      · obtain ⟨v, hv, hfound⟩ := hnew item hitem
        exact ⟨v, List.mem_cons_of_mem _ hv, hfound⟩
    · refine List.pairwise_append.mpr ⟨?_, hordered, ?_⟩
      · have hids : ((working vin).map (entryItem btc height tx)).Pairwise
            (fun a b => a.inscriptionId ≠ b.inscriptionId) := by
          rw [List.pairwise_map]
          exact List.pairwise_map.mp (hd vin)
        exact hids.imp_of_mem (fun {a b} ha hb hab =>
          hsame vin (by simp) a b (hmoved a ha) (hmoved b hb) hab)
      · intro a ha b hb
        obtain ⟨v, hv, hfound⟩ := hnew b hb
        exact hfirst v hv a b (hmoved a ha) hfound

/-- The same for the moves of a block. -/
theorem processTxs_pairwise {txs : List Transaction} (hd : working.Distinct) (hp : working.Placed)
    (hsame : ∀ tx ∈ txs, ∀ vin ∈ tx.input, ∀ a b, FoundAt tx vin a → FoundAt tx vin b →
      a.inscriptionId ≠ b.inscriptionId → R a b)
    (hinputs : ∀ tx ∈ txs,
      tx.input.Pairwise (fun v w => ∀ a b, FoundAt tx v a → FoundAt tx w b → R a b))
    (htxs : txs.Pairwise (fun x y => ∀ v w a b, FoundAt x v a → FoundAt y w b → R a b))
    (hrun : processTxs btc height working items txs s = .ok (result, found) t) :
    ∃ new, found = items ++ new ∧ result.Placed ∧
      (∀ item ∈ new, ∃ tx ∈ txs, ∃ vin ∈ tx.input, FoundAt tx vin item) ∧ new.Pairwise R := by
  induction txs generalizing working items s with
  | nil =>
    cases hrun
    exact ⟨[], (List.append_nil _).symm, hp, fun _ h => absurd h List.not_mem_nil, .nil⟩
  | cons tx rest ih =>
    obtain ⟨⟨w, i⟩, _, htx, hrest⟩ := bind_eq_ok hrun
    obtain ⟨hfirst, htxs⟩ := List.pairwise_cons.mp htxs
    obtain ⟨moved, rfl, hplaced, hmoved, hordered⟩ :=
      processInputs_pairwise hd hp (hsame tx (by simp)) (hinputs tx (by simp)) htx
    obtain ⟨new, rfl, hplaced', hnew, hordered'⟩ := ih (processInputs_distinct hd htx) hplaced
      (fun tx htx => hsame tx (by simp [htx])) (fun tx htx => hinputs tx (by simp [htx])) htxs hrest
    refine ⟨moved ++ new, ?_, hplaced', ?_, ?_⟩
    · rw [List.append_assoc]
    · intro item hitem
      rcases List.mem_append.mp hitem with hitem | hitem
      · exact ⟨tx, by simp, hmoved item hitem⟩
      · obtain ⟨tx', htx', hitem'⟩ := hnew item hitem
        exact ⟨tx', by simp [htx'], hitem'⟩
    · refine List.pairwise_append.mpr ⟨hordered, hordered', ?_⟩
      intro a ha b hb
      obtain ⟨v, -, ha⟩ := hmoved a ha
      obtain ⟨tx', htx', w, -, hb⟩ := hnew b hb
      exact hfirst tx' htx' v w a b ha hb

/-- The moves of a block come in the order of its transactions and their inputs. -/
theorem processTxs_ordered {txs : List Transaction} (hd : working.Distinct) (hp : working.Placed)
    (htxs : txs.Pairwise (fun a b => position a.txid < position b.txid))
    (hinputs : ∀ tx ∈ txs,
      tx.input.Pairwise (fun a b => inputIndex tx.txid a ≤ inputIndex tx.txid b))
    (hrun : processTxs btc height working items txs s = .ok (result, found) t) :
    ∃ new, found = items ++ new ∧ result.Placed ∧
      (∀ item ∈ new, ∃ tx ∈ txs, ∃ vin ∈ tx.input, FoundAt tx vin item) ∧
      new.Pairwise (NotAfter position inputIndex) := by
  refine processTxs_pairwise hd hp ?_ ?_ ?_ hrun
  · rintro tx - vin - a b ⟨ha, ha'⟩ ⟨hb, hb'⟩ -
    refine .inr ?_
    rw [ha, hb, ha', hb']
    exact ⟨rfl, le_refl _⟩
  · intro tx htx
    refine (hinputs tx htx).imp (fun {v w} hle a b ha hb => .inr ?_)
    rw [ha.1, hb.1, ha.2, hb.2]
    exact ⟨rfl, hle⟩
  · refine htxs.imp (fun {x y} hlt v w a b ha hb => .inl ?_)
    rw [ha.1, hb.1]
    exact hlt

end InscriptionTransferTracker

end Usdb
