import Usdb.Index.Replicas
import Usdb.Index.TrackerMoves

namespace Usdb

open Framework

/-- What holds of every block on the chain: its transactions have different ids, and none
of them spends an outpoint twice. -/
structure Block.WellFormed (block : Block) : Prop where
  txids : (block.txdata.map (·.txid)).Nodup
  inputs : ∀ tx ∈ block.txdata, tx.input.Nodup

instance (block : Block) : Decidable block.WellFormed :=
  decidable_of_iff ((block.txdata.map (·.txid)).Nodup ∧ ∀ tx ∈ block.txdata, tx.input.Nodup)
    ⟨fun h => ⟨h.1, h.2⟩, fun h => ⟨h.1, h.2⟩⟩

/-- The place of a transaction in the block. -/
def Block.position (block : Block) (txid : Txid) : Nat :=
  (buildBlockTxPositionMap block txid).getD 0

def Block.inputIndex (block : Block) (txid : Txid) (outpoint : OutPoint) : Nat :=
  (buildTransferInputIndexMap block txid outpoint).getD 0

section Positions

/-- The position map after the transactions from a place on. -/
def positionsFrom (positions : Txid → Option Nat) (first : Nat) (txs : List Transaction) :
    Txid → Option Nat :=
  (txs.zipIdx first).foldl
    (fun positions tx txid => if txid = tx.1.txid then some tx.2 else positions txid) positions

theorem positionsFrom_other (positions : Txid → Option Nat) (first : Nat) (txs : List Transaction)
    {txid : Txid} (h : txid ∉ txs.map (·.txid)) :
    positionsFrom positions first txs txid = positions txid := by
  induction txs generalizing positions first with
  | nil => rfl
  | cons tx rest ih =>
    simp only [List.map_cons, List.mem_cons, not_or] at h
    have hrest := ih (fun txid => if txid = tx.txid then some first else positions txid)
      (first + 1) h.2
    rw [if_neg h.1] at hrest
    exact hrest

theorem positionsFrom_increasing (positions : Txid → Option Nat) (first : Nat)
    (txs : List Transaction) (hn : (txs.map (·.txid)).Nodup) :
    (∀ tx ∈ txs, ∃ i, first ≤ i ∧ positionsFrom positions first txs tx.txid = some i) ∧
      txs.Pairwise (fun a b => (positionsFrom positions first txs a.txid).getD 0 <
        (positionsFrom positions first txs b.txid).getD 0) := by
  induction txs generalizing positions first with
  | nil => exact ⟨fun _ h => absurd h List.not_mem_nil, .nil⟩
  | cons tx rest ih =>
    obtain ⟨hfresh, hrest⟩ := List.nodup_cons.mp hn
    obtain ⟨hlater, hincreasing⟩ := ih
      (fun txid => if txid = tx.txid then some first else positions txid) (first + 1) hrest
    have hhead : positionsFrom positions first (tx :: rest) tx.txid = some first := by
      have hother := positionsFrom_other
        (fun txid => if txid = tx.txid then some first else positions txid) (first + 1) rest hfresh
      rw [if_pos rfl] at hother
      exact hother
    refine ⟨?_, List.pairwise_cons.mpr ⟨?_, hincreasing⟩⟩
    · intro tx' htx'
      rcases List.mem_cons.mp htx' with rfl | htx'
      · exact ⟨first, le_refl _, hhead⟩
      · obtain ⟨i, hi, hpos⟩ := hlater tx' htx'
        exact ⟨i, by omega, hpos⟩
    · intro tx' htx'
      obtain ⟨i, hi, hpos⟩ := hlater tx' htx'
      have hpos' : positionsFrom positions first (tx :: rest) tx'.txid = some i := hpos
      rw [hhead, hpos']
      exact hi

/-- The input map after some transactions. -/
def inputsFrom (inputs : Txid → OutPoint → Option Nat) (txs : List Transaction) :
    Txid → OutPoint → Option Nat :=
  txs.foldl
    (fun inputs tx txid outpoint =>
      if txid = tx.txid then tx.input.findIdx? (fun v => v = outpoint) else inputs txid outpoint)
    inputs

theorem inputsFrom_other (inputs : Txid → OutPoint → Option Nat) (txs : List Transaction)
    {txid : Txid} (h : txid ∉ txs.map (·.txid)) (outpoint : OutPoint) :
    inputsFrom inputs txs txid outpoint = inputs txid outpoint := by
  induction txs generalizing inputs with
  | nil => rfl
  | cons tx rest ih =>
    simp only [List.map_cons, List.mem_cons, not_or] at h
    have hrest := ih (fun txid outpoint =>
      if txid = tx.txid then tx.input.findIdx? (fun v => v = outpoint)
      else inputs txid outpoint) h.2
    rw [if_neg h.1] at hrest
    exact hrest

theorem inputsFrom_mem (inputs : Txid → OutPoint → Option Nat) (txs : List Transaction)
    (hn : (txs.map (·.txid)).Nodup) {tx : Transaction} (htx : tx ∈ txs) (outpoint : OutPoint) :
    inputsFrom inputs txs tx.txid outpoint = tx.input.findIdx? (fun v => v = outpoint) := by
  induction txs generalizing inputs with
  | nil => cases htx
  | cons head rest ih =>
    obtain ⟨hfresh, hrest⟩ := List.nodup_cons.mp hn
    rcases List.mem_cons.mp htx with rfl | htx
    · have hother := inputsFrom_other (fun txid outpoint =>
        if txid = tx.txid then tx.input.findIdx? (fun v => v = outpoint)
        else inputs txid outpoint) rest hfresh outpoint
      rw [if_pos rfl] at hother
      exact hother
    · exact ih _ hrest htx

theorem pairwise_findIdx_of_nodup {l : List OutPoint} (hn : l.Nodup) :
    l.Pairwise (fun a b => l.findIdx (fun v => v = a) < l.findIdx (fun v => v = b)) := by
  rw [List.pairwise_iff_getElem]
  intro i j hi hj hij
  have hfind : ∀ k (hk : k < l.length), l.findIdx (fun v => v = l[k]) = k := by
    intro k hk
    rw [List.findIdx_eq hk]
    refine ⟨by simp, ?_⟩
    intro n hn'
    simp only [decide_eq_false_iff_not]
    intro he
    exact absurd ((List.Nodup.getElem_inj_iff hn).mp he) (by omega)
  rw [hfind i hi, hfind j hj]
  exact hij

end Positions

namespace Block.WellFormed

variable {block : Block}

theorem positions (h : block.WellFormed) :
    block.txdata.Pairwise (fun a b => block.position a.txid < block.position b.txid) :=
  (positionsFrom_increasing (fun _ => none) 0 block.txdata h.txids).2

theorem inputIndices (h : block.WellFormed) {tx : Transaction} (htx : tx ∈ block.txdata) :
    tx.input.Pairwise (fun a b => block.inputIndex tx.txid a < block.inputIndex tx.txid b) := by
  have hindex : ∀ o ∈ tx.input,
      block.inputIndex tx.txid o = tx.input.findIdx (fun v => v = o) := by
    intro o ho
    have hmem : buildTransferInputIndexMap block tx.txid o = _ :=
      inputsFrom_mem (fun _ _ => none) block.txdata h.txids htx o
    unfold Block.inputIndex
    rw [hmem, TxItem.findIdx?_of_mem ho]
    rfl
  refine (pairwise_findIdx_of_nodup (h.inputs tx htx)).imp_of_mem ?_
  intro a b ha hb hab
  rw [hindex a ha, hindex b hb]
  exact hab

end Block.WellFormed

namespace BlockEventPlanner

open InscriptionTransferTracker

/-- The move of an inscription that an event carries out. -/
def transferOf (id : InscriptionId) : BlockProcessEvent → Option InscriptionTransferItem
  | .Mint _ => none
  | .Transfer item => if item.inscriptionId = id then some item else none

/-- The moves of one inscription among some events. -/
def transfersOf (id : InscriptionId) (events : List BlockProcessEvent) :
    List InscriptionTransferItem :=
  events.filterMap (transferOf id)

theorem transfersOf_same {id : InscriptionId} {item : InscriptionTransferItem}
    {events : List BlockProcessEvent} (hid : item.inscriptionId = id) :
    transfersOf id (.Transfer item :: events) = item :: transfersOf id events :=
  List.filterMap_cons_some (if_pos hid)

theorem transfersOf_other {id : InscriptionId} {item : InscriptionTransferItem}
    {events : List BlockProcessEvent} (hid : item.inscriptionId ≠ id) :
    transfersOf id (.Transfer item :: events) = transfersOf id events :=
  List.filterMap_cons_none (if_neg hid)

def mintOf : BlockProcessEvent → Option InscriptionNewItem
  | .Mint item => some item
  | .Transfer _ => none

/-- The mints among some events. -/
def mintsOf (events : List BlockProcessEvent) : List InscriptionNewItem :=
  events.filterMap mintOf

variable {height : Nat} {block : Block} {mints : List InscriptionNewItem}
  {items : List InscriptionTransferItem} {events : List BlockProcessEvent}

theorem transferEvent_sortKey {item : InscriptionTransferItem} {ordered : OrderedBlockProcessEvent}
    (h : transferEvent height block item = .ok ordered) :
    ordered.sortKey = [block.position item.satpoint.outpoint.txid, 0,
      block.inputIndex item.satpoint.outpoint.txid item.prevSatpoint.outpoint,
      item.inscriptionId.index, item.inscriptionId.txid] := by
  unfold transferEvent at h
  split at h
  · cases h
  · rename_i txPosition hpos
    split at h
    · cases h
    · rename_i inputIndex hindex
      cases h
      unfold Block.position Block.inputIndex
      rw [hpos, hindex]
      rfl

/-- Two moves of one inscription are planned in the order in which they were found. -/
theorem sortKey_le_of_notAfter {a b : InscriptionTransferItem}
    {x y : OrderedBlockProcessEvent} (hx : transferEvent height block a = .ok x)
    (hy : transferEvent height block b = .ok y) (hid : a.inscriptionId = b.inscriptionId)
    (h : NotAfter block.position block.inputIndex a b) : x.sortKey ≤ y.sortKey := by
  rw [transferEvent_sortKey hx, transferEvent_sortKey hy, hid]
  rcases h with hlt | ⟨heq, hle⟩
  · exact le_of_lt (List.Lex.rel hlt)
  · rw [heq]
    rcases hle.lt_or_eq with hlt | hle
    · exact le_of_lt (List.Lex.cons (List.Lex.cons (List.Lex.rel hlt)))
    · rw [hle]

theorem movesOf_eq_filterMap (id : InscriptionId) (items : List InscriptionTransferItem) :
    movesOf id items = items.filterMap (fun item => transferOf id (.Transfer item)) := by
  induction items with
  | nil => rfl
  | cons item rest ih =>
    by_cases hid : item.inscriptionId = id
    · have hsome : transferOf id (.Transfer item) = some item := if_pos hid
      rw [movesOf_cons_same hid, List.filterMap_cons, hsome, ih]
    · have hnone : transferOf id (.Transfer item) = none := if_neg hid
      rw [movesOf_cons_other hid, List.filterMap_cons, hnone, ih]

/-- The planned moves of an inscription are the moves that were found, in their order. -/
theorem plan_transfersOf (hordered : items.Pairwise (NotAfter block.position block.inputIndex))
    (h : plan height block mints items = .ok events) (id : InscriptionId) :
    transfersOf id events = movesOf id items := by
  obtain ⟨-, hplanned, rfl⟩ := plan_eq_ok.mp h
  have hmint : ∀ ordered ∈ mints.filterMap (fun item => (mintEvent height block item).toOption),
      transferOf id ordered.event = none := by
    intro ordered ho
    obtain ⟨item, -, hevent⟩ := List.mem_filterMap.mp ho
    rw [mintEvent_ok (toOption_eq_some.mp hevent)]
    rfl
  have hsorted : (mints.filterMap (fun item => (mintEvent height block item).toOption) ++
      items.filterMap (fun item => (transferEvent height block item).toOption)).Pairwise
        (fun a b => (transferOf id a.event).isSome → (transferOf id b.event).isSome →
          a.sortKey ≤ b.sortKey) := by
    refine List.pairwise_append.mpr ⟨?_, ?_, ?_⟩
    · refine List.pairwise_of_forall_mem_list (fun a ha b _ hsome => ?_)
      rw [hmint a ha] at hsome
      cases hsome
    · rw [List.pairwise_filterMap]
      refine hordered.imp (fun {a b} hab x hx y hy hxs hys => ?_)
      rw [toOption_eq_some] at hx hy
      rw [transferEvent_ok hx] at hxs
      rw [transferEvent_ok hy] at hys
      have hids : ∀ item : InscriptionTransferItem,
          (transferOf id (.Transfer item)).isSome → item.inscriptionId = id := by
        intro item hs
        by_contra hne
        rw [show transferOf id (.Transfer item) = none from if_neg hne] at hs
        cases hs
      exact sortKey_le_of_notAfter hx hy ((hids a hxs).trans (hids b hys).symm) hab
    · intro a ha b _ hsome
      rw [hmint a ha] at hsome
      cases hsome
  unfold transfersOf
  rw [List.filterMap_map]
  unfold Function.comp
  rw [filterMap_insertionSort _ _ _ hsorted, List.filterMap_append, movesOf_eq_filterMap,
    List.filterMap_eq_nil_iff.mpr hmint, List.nil_append, List.filterMap_filterMap]
  refine List.filterMap_congr (fun item hitem => ?_)
  obtain ⟨ordered, hevent⟩ := hplanned item hitem
  rw [toOption_eq_some.mpr hevent, Option.bind_some, transferEvent_ok hevent]

/-- A plan carries out every mint once. -/
theorem plan_mintsOf (h : plan height block mints items = .ok events) :
    (mintsOf events).Perm mints := by
  obtain ⟨hplanned, hplanned', rfl⟩ := plan_eq_ok.mp h
  unfold mintsOf
  rw [List.filterMap_map]
  refine ((List.perm_insertionSort _ _).filterMap _).trans ?_
  rw [List.filterMap_append]
  have hmoves : (items.filterMap (fun item => (transferEvent height block item).toOption)).filterMap
      (mintOf ∘ (·.event)) = [] := by
    rw [List.filterMap_eq_nil_iff]
    intro ordered ho
    obtain ⟨item, -, hevent⟩ := List.mem_filterMap.mp ho
    rw [Function.comp, transferEvent_ok (toOption_eq_some.mp hevent)]
    rfl
  have hmints : (mints.filterMap (fun item => (mintEvent height block item).toOption)).filterMap
      (mintOf ∘ (·.event)) = mints := by
    rw [List.filterMap_filterMap]
    have hall : ∀ item ∈ mints, ((mintEvent height block item).toOption).bind
        (mintOf ∘ (·.event)) = some item := by
      intro item hitem
      obtain ⟨ordered, hevent⟩ := hplanned item hitem
      rw [toOption_eq_some.mpr hevent, Option.bind_some, Function.comp, mintEvent_ok hevent]
      rfl
    rw [List.filterMap_congr hall, List.filterMap_some]
  rw [hmoves, hmints, List.append_nil]

end BlockEventPlanner

end Usdb
