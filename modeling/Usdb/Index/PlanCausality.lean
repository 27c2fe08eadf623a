import Usdb.Index.MintPartition
import Usdb.Index.PlanOrder
import Usdb.Index.Tracks

namespace Usdb

open Framework InscriptionTransferTracker InscriptionIndexer

/-- An input that spends an output of the block spends one of an earlier transaction. -/
def Block.SpendsEarlier (block : Block) : Prop :=
  ∀ tx ∈ block.txdata, ∀ vin ∈ tx.input, ∀ earlier ∈ block.txdata,
    vin.txid = earlier.txid → block.position earlier.txid < block.position tx.txid

instance (block : Block) : Decidable block.SpendsEarlier :=
  inferInstanceAs (Decidable (∀ tx ∈ block.txdata, _))

/-- What the planned events are sorted by: the transaction, moves before mints, the input,
the index of the inscription and its id. -/
def Block.sortKey (block : Block) : BlockProcessEvent → List Nat
  | .Mint item => [block.position item.inscriptionId.txid, 1, usizeMax, item.inscriptionId.index,
      item.inscriptionId.txid]
  | .Transfer item => [block.position item.satpoint.outpoint.txid, 0,
      block.inputIndex item.satpoint.outpoint.txid item.prevSatpoint.outpoint,
      item.inscriptionId.index, item.inscriptionId.txid]

/-- The one event comes somewhere before the other. -/
def Precedes (events : List BlockProcessEvent) (a b : BlockProcessEvent) : Prop :=
  [a, b].Sublist events

/-- A chain of moves that starts at an output of the block is made by later transactions. -/
theorem Moves.after {block : Block} (hspends : block.SpendsEarlier)
    {items : List InscriptionTransferItem} {v : ValidMinerPassInfo} {place : Option ValidMinerPassInfo}
    (h : Moves (some v) items place)
    (hfound : ∀ item ∈ items, ∃ tx ∈ block.txdata, ∃ vin ∈ tx.input, FoundAt tx vin item)
    {first : Transaction} (hfirst : first ∈ block.txdata)
    (hv : v.satpoint.outpoint.txid = first.txid) :
    ∀ item ∈ items, block.position first.txid < block.position item.satpoint.outpoint.txid := by
  induction items generalizing v first with
  | nil => exact fun _ h => absurd h List.not_mem_nil
  | cons item rest ih =>
    cases h with
    | cons same source sender tail =>
      obtain ⟨tx, htx, vin, hvin, htxid, hprev⟩ := hfound item (by simp)
      have hspent : vin.txid = first.txid := by rw [← hprev, source, hv]
      have hlt := hspends tx htx vin hvin first hfirst hspent
      intro other hother
      rcases List.mem_cons.mp hother with rfl | hother
      · rw [htxid]
        exact hlt
      · cases hentry : item.entry with
        | none =>
          rw [hentry] at tail
          rw [tail.none_left.1] at hother
          cases hother
        | some v' =>
          rw [hentry] at tail
          have hv' : v'.satpoint.outpoint.txid = tx.txid := by
            obtain ⟨owner, -, rfl⟩ := Option.map_eq_some_iff.mp hentry
            exact htxid
          exact hlt.trans (ih tail (fun item hitem => hfound item (by simp [hitem])) htx hv' other
            hother)

namespace BlockEventPlanner

variable {height : Nat} {block : Block} {mints mints' : List InscriptionNewItem}
  {items items' : List InscriptionTransferItem} {events : List BlockProcessEvent}

/-- The events of a block before they are put in order. -/
def eventsOf (mints : List InscriptionNewItem) (items : List InscriptionTransferItem) :
    List BlockProcessEvent :=
  mints.map .Mint ++ items.map .Transfer

theorem mintEvent_sortKey {item : InscriptionNewItem} {ordered : OrderedBlockProcessEvent}
    (h : mintEvent height block item = .ok ordered) :
    ordered.sortKey = block.sortKey (.Mint item) := by
  unfold mintEvent at h
  split at h
  · cases h
  · rename_i txPosition hpos
    cases h
    have hposition : block.position item.inscriptionId.txid = txPosition := by
      unfold Block.position
      rw [hpos]
      rfl
    unfold Block.sortKey
    dsimp only
    rw [hposition]

theorem transferEvent_ordered {item : InscriptionTransferItem} {ordered : OrderedBlockProcessEvent}
    (h : transferEvent height block item = .ok ordered) :
    ordered = { sortKey := block.sortKey (.Transfer item), event := .Transfer item } := by
  have hkey : ordered.sortKey = block.sortKey (.Transfer item) := transferEvent_sortKey h
  have hevent := transferEvent_ok h
  rw [← hkey, ← hevent]

theorem mintEvent_ordered {item : InscriptionNewItem} {ordered : OrderedBlockProcessEvent}
    (h : mintEvent height block item = .ok ordered) :
    ordered = { sortKey := block.sortKey (.Mint item), event := .Mint item } := by
  rw [← mintEvent_sortKey h, ← mintEvent_ok h]

/-- A plan has the events of the block, each once, in the order of their keys. -/
theorem plan_sorted (h : plan height block mints items = .ok events) :
    events.Perm (eventsOf mints items) ∧
      events.Pairwise (fun a b => block.sortKey a ≤ block.sortKey b) := by
  obtain ⟨hmints, hitems, rfl⟩ := plan_eq_ok.mp h
  rw [filterMap_toOption hmints (fun _ _ => mintEvent_ordered),
    filterMap_toOption hitems (fun _ _ => transferEvent_ordered)]
  have hkeys : ∀ ordered ∈ mints.map (fun item => OrderedBlockProcessEvent.mk
        (block.sortKey (.Mint item)) (.Mint item)) ++
      items.map (fun item => OrderedBlockProcessEvent.mk
        (block.sortKey (.Transfer item)) (.Transfer item)),
      ordered.sortKey = block.sortKey ordered.event := by
    intro ordered ho
    rcases List.mem_append.mp ho with ho | ho
    · obtain ⟨item, -, rfl⟩ := List.mem_map.mp ho
      rfl
    · obtain ⟨item, -, rfl⟩ := List.mem_map.mp ho
      rfl
  constructor
  · refine ((List.perm_insertionSort _ _).map _).trans ?_
    rw [List.map_append, List.map_map, List.map_map]
    exact List.Perm.refl _
  · rw [List.pairwise_map]
    refine (insertionSort_sorted OrderedBlockProcessEvent.sortKey _).imp_of_mem ?_
    intro a b ha hb hab
    rw [← hkeys a ((List.mem_insertionSort _).mp ha), ← hkeys b ((List.mem_insertionSort _).mp hb)]
    exact hab

/-- Every event of a block can be planned when its transaction is in the block and, for a
move, spends the outpoint that it left. -/
theorem plan_total (hwf : block.WellFormed)
    (hmints : ∀ item ∈ mints, ∃ tx ∈ block.txdata, item.inscriptionId.txid = tx.txid)
    (hitems : ∀ item ∈ items, ∃ tx ∈ block.txdata, ∃ vin ∈ tx.input, FoundAt tx vin item) :
    ∃ events, plan height block mints items = .ok events := by
  have hposition : ∀ tx ∈ block.txdata, ∃ i, buildBlockTxPositionMap block tx.txid = some i := by
    intro tx htx
    obtain ⟨i, -, hi⟩ := (positionsFrom_increasing (fun _ => none) 0 block.txdata hwf.txids).1 tx htx
    exact ⟨i, hi⟩
  refine ⟨_, plan_eq_ok.mpr ⟨fun item hitem => ?_, fun item hitem => ?_, rfl⟩⟩
  · obtain ⟨tx, htx, htxid⟩ := hmints item hitem
    obtain ⟨i, hi⟩ := hposition tx htx
    unfold mintEvent
    rw [htxid, hi]
    exact ⟨_, rfl⟩
  · obtain ⟨tx, htx, vin, hvin, htxid, hprev⟩ := hitems item hitem
    obtain ⟨i, hi⟩ := hposition tx htx
    have hindex : buildTransferInputIndexMap block tx.txid vin =
        tx.input.findIdx? (fun v => v = vin) :=
      inputsFrom_mem (fun _ _ => none) block.txdata hwf.txids htx vin
    unfold transferEvent
    rw [htxid, hi, hprev, hindex, TxItem.findIdx?_of_mem hvin]
    exact ⟨_, rfl⟩

/-- With distinct keys the plan does not depend on the order of what is planned. -/
theorem plan_perm (hn : ((eventsOf mints items).map block.sortKey).Nodup)
    (h : plan height block mints items = .ok events) (hm : mints'.Perm mints)
    (hi : items'.Perm items) : plan height block mints' items' = .ok events := by
  obtain ⟨hmints, hitems, -⟩ := plan_eq_ok.mp h
  have hplanned : ∃ events', plan height block mints' items' = .ok events' :=
    ⟨_, plan_eq_ok.mpr ⟨fun item hitem => hmints item (hm.mem_iff.mp hitem),
      fun item hitem => hitems item (hi.mem_iff.mp hitem), rfl⟩⟩
  obtain ⟨events', h'⟩ := hplanned
  obtain ⟨hperm, hsorted⟩ := plan_sorted h
  obtain ⟨hperm', hsorted'⟩ := plan_sorted h'
  have hsame := (hperm'.trans ((hm.map _).append (hi.map _))).trans hperm.symm
  rw [h', hsame.eq_of_pairwise ?_ hsorted' hsorted]
  intro a b ha hb hab hba
  exact List.inj_on_of_nodup_map hn (hperm.mem_iff.mp (hsame.mem_iff.mp ha)) (hperm.mem_iff.mp hb)
    (le_antisymm hab hba)

end BlockEventPlanner

namespace InscriptionTransferTracker

/-- An inscription is made on an output of the transaction that reveals it. -/
theorem calcCreateSatpoint_txid {btc : BtcClient} {id : InscriptionId} {info : InscriptionCreateInfo}
    {s t : IndexerState}
    (hclient : ∀ txid tx, btc.getTransaction txid = some tx → tx.txid = txid)
    (h : calcCreateSatpoint btc id s = .ok info t) : info.satpoint.outpoint.txid = id.txid := by
  obtain ⟨_, _, -, h⟩ := bind_eq_ok h
  cases htx : btc.getTransaction id.txid with
  | none =>
    rw [htx] at h
    cases h
  | some tx =>
    rw [htx] at h
    dsimp only at h
    cases henv : tx.envelopes[id.index]? with
    | none =>
      rw [henv] at h
      cases h
    | some envelope =>
      rw [henv] at h
      dsimp only at h
      cases hin : tx.input[envelope.input]? with
      | none =>
        rw [hin] at h
        cases h
      | some commit =>
        rw [hin] at h
        obtain ⟨ret, _, hcalc, h⟩ := bind_eq_ok h
        cases ret with
        | none => cases h
        | some ret =>
          obtain ⟨-, rfl⟩ := TxItem.calcOutputSatpoint_ok hcalc
          cases h
          exact (TxItem.outputSatpoint_txid tx _).trans (hclient _ _ htx)

theorem creation_txid {btc : BtcClient} {id : InscriptionId} {info : InscriptionCreateInfo}
    (hclient : ∀ txid tx, btc.getTransaction txid = some tx → tx.txid = txid)
    (h : creation btc id = some info) : info.satpoint.outpoint.txid = id.txid := by
  unfold creation at h
  split at h
  · rename_i hcalc
    cases h
    exact calcCreateSatpoint_txid hclient hcalc
  · cases h

end InscriptionTransferTracker

namespace InscriptionIndexer

/-- A valid mint was listed by the source, and it is collected where it was made. -/
theorem collected_validItems_made {btc : BtcClient} {height : Nat}
    {inscriptions : List DiscoveredInscription} {item : InscriptionNewItem}
    (h : item ∈ (collected btc height
      (classifyUsdbMintsFromInscriptions height inscriptions)).validItems) :
    (∃ i ∈ inscriptions, i.inscriptionId = item.inscriptionId) ∧
      ∃ info, creation btc item.inscriptionId = some info ∧ item.satpoint = info.satpoint := by
  obtain ⟨candidate, hcandidate, rfl⟩ := List.mem_map.mp h
  obtain ⟨mint, hmint, hload⟩ := List.mem_filterMap.mp (List.mem_filter.mp hcandidate).1
  refine ⟨?_, _, loadedCandidate_creation hload, rfl⟩
  have hsame : candidate.mint = mint := by
    unfold loadedCandidate loaded at hload
    obtain ⟨info, -, haddress⟩ := Option.bind_eq_some_iff.mp hload
    obtain ⟨address, -, rfl⟩ := Option.map_eq_some_iff.mp haddress
    rfl
  obtain ⟨i, hi, hvalid⟩ := List.mem_filterMap.mp hmint
  refine ⟨i, hi, ?_⟩
  show i.inscriptionId = candidate.mint.inscriptionId
  rw [hsame]
  split at hvalid
  · cases hvalid
    rfl
  · cases hvalid

end InscriptionIndexer

theorem InscriptionId.eq_of_parts {a b : InscriptionId} (htxid : a.txid = b.txid)
    (hindex : a.index = b.index) : a = b := by
  cases a
  cases b
  cases htxid
  cases hindex
  rfl

/-- What the node and the source of inscriptions answer about a block of the chain. -/
structure BlockEnv.Faithful (env : BlockEnv) (block : Block) : Prop where
  wellFormed : block.WellFormed
  spendsEarlier : block.SpendsEarlier
  transactions : ∀ txid tx, env.btc.getTransaction txid = some tx → tx.txid = txid
  listed : ∀ i ∈ env.inscriptions, ∃ tx ∈ block.txdata, i.inscriptionId.txid = tx.txid

namespace BlockEventPlanner

section Detected

variable {env : BlockEnv} {height : Nat} {s t : IndexerState} {block : Block}
  {mints : CollectedMintItems} {items : List InscriptionTransferItem}

/-- The moves of a block are found where its transactions spend tracked inscriptions, and
no two of them have one key. -/
theorem items_detected (hwf : block.WellFormed) (hdistinct : s.inscriptions.Distinct)
    (hplaced : s.inscriptions.Placed)
    (h : collectBlock env height s = .ok (block, mints, items) t) :
    (∀ item ∈ items, ∃ tx ∈ block.txdata, ∃ vin ∈ tx.input, FoundAt tx vin item) ∧
      items.Pairwise (fun a b => block.sortKey (.Transfer a) ≠ block.sortKey (.Transfer b)) := by
  have hsame : ∀ tx ∈ block.txdata, ∀ vin ∈ tx.input, ∀ a b, FoundAt tx vin a → FoundAt tx vin b →
      a.inscriptionId ≠ b.inscriptionId →
        block.sortKey (.Transfer a) ≠ block.sortKey (.Transfer b) := by
    intro tx _ vin _ a b _ _ hid he
    simp only [Block.sortKey, List.cons.injEq] at he
    exact hid (InscriptionId.eq_of_parts he.2.2.2.2.1 he.2.2.2.1)
  have hinputs : ∀ tx ∈ block.txdata, tx.input.Pairwise (fun v w => ∀ a b, FoundAt tx v a →
      FoundAt tx w b → block.sortKey (.Transfer a) ≠ block.sortKey (.Transfer b)) := by
    intro tx htx
    refine (hwf.inputIndices htx).imp (fun {v w} hlt a b ha hb he => ?_)
    simp only [Block.sortKey, List.cons.injEq, ha.1, ha.2, hb.1, hb.2] at he
    omega
  have htxs : block.txdata.Pairwise (fun x y => ∀ v w a b, FoundAt x v a → FoundAt y w b →
      block.sortKey (.Transfer a) ≠ block.sortKey (.Transfer b)) := by
    refine hwf.positions.imp (fun {x y} hlt v w a b ha hb he => ?_)
    simp only [Block.sortKey, List.cons.injEq, ha.1, hb.1] at he
    omega
  obtain ⟨-, -, _, _, _, _, working, fs, -, htracked, -⟩ := collectBlock_ok h
  rw [seedInscriptions_eq] at htracked
  obtain ⟨new, hnew, -, hfound, hkeys⟩ := processTxs_pairwise (hdistinct.insertAll _)
    (hplaced.insertAll _) hsame hinputs htxs htracked
  have hitems : items = new := hnew
  rw [hitems]
  exact ⟨hfound, hkeys⟩

/-- The mints of a block are made by its transactions, and their ids are distinct. -/
theorem validItems_detected (hfaithful : env.Faithful block)
    (h : collectBlock env height s = .ok (block, mints, items) t) :
    (mints.validItems.map (·.inscriptionId)).Nodup ∧
      ∀ item ∈ mints.validItems, item.satpoint.outpoint.txid = item.inscriptionId.txid ∧
        ∃ tx ∈ block.txdata, item.inscriptionId.txid = tx.txid := by
  obtain ⟨-, -, _, _, _, _, _, _, hmints, -, -⟩ := collectBlock_ok h
  obtain ⟨-, hcollected⟩ := collectBlockInscriptionMints_collected hmints
  have hcollected : mints = collected env.btc height
    (classifyUsdbMintsFromInscriptions height env.inscriptions) := hcollected
  rw [hcollected]
  constructor
  · refine List.Nodup.of_map (fun id => (creation env.btc id).map (·.commitOutpoint)) ?_
    rw [List.map_map]
    exact collected_validItems_outpoints _
  · intro item hitem
    obtain ⟨⟨i, hi, hid⟩, info, hinfo, hsatpoint⟩ := collected_validItems_made hitem
    rw [hsatpoint, creation_txid hfaithful.transactions hinfo, ← hid]
    exact ⟨rfl, hfaithful.listed i hi⟩

theorem events_keys (hfaithful : env.Faithful block) (hdistinct : s.inscriptions.Distinct)
    (hplaced : s.inscriptions.Placed)
    (h : collectBlock env height s = .ok (block, mints, items) t) :
    ((eventsOf mints.validItems items).map block.sortKey).Nodup := by
  obtain ⟨-, hkeys⟩ := items_detected hfaithful.wellFormed hdistinct hplaced h
  obtain ⟨hids, -⟩ := validItems_detected hfaithful h
  unfold eventsOf
  rw [List.map_append, List.map_map, List.map_map, List.nodup_append]
  refine ⟨?_, List.pairwise_map.mpr hkeys, ?_⟩
  · refine List.pairwise_map.mpr ((List.pairwise_map.mp hids).imp (fun {a b} hid he => hid ?_))
    simp only [Function.comp, Block.sortKey, List.cons.injEq] at he
    exact InscriptionId.eq_of_parts he.2.2.2.2.1 he.2.2.2.1
  · intro x hx y hy he
    obtain ⟨a, -, rfl⟩ := List.mem_map.mp hx
    obtain ⟨b, -, rfl⟩ := List.mem_map.mp hy
    simp [Function.comp, Block.sortKey] at he

/-- The moves of an inscription start where the tracker lists it, or where it was minted. -/
theorem movesOf_detected (hdistinct : s.inscriptions.Distinct)
    (h : collectBlock env height s = .ok (block, mints, items) t) {id : InscriptionId}
    {place : Option ValidMinerPassInfo}
    (hholds : (s.inscriptions.insertAll (mints.validItems.map (·.entry))).Holds id place) :
    ∃ last, Moves place (movesOf id items) last := by
  obtain ⟨-, -, _, _, _, _, working, _, -, htracked, -⟩ := collectBlock_ok h
  rw [seedInscriptions_eq] at htracked
  obtain ⟨new, last, hnew, hmoves, -⟩ :=
    processTxs_holds (hdistinct.insertAll _) hholds htracked
  have hitems : items = new := hnew
  rw [hitems]
  exact ⟨last, hmoves⟩

theorem items_notAfter (hwf : block.WellFormed) (hdistinct : s.inscriptions.Distinct)
    (hplaced : s.inscriptions.Placed)
    (h : collectBlock env height s = .ok (block, mints, items) t) :
    items.Pairwise (NotAfter block.position block.inputIndex) := by
  obtain ⟨-, -, _, _, _, _, working, _, -, htracked, -⟩ := collectBlock_ok h
  rw [seedInscriptions_eq] at htracked
  obtain ⟨new, hnew, -, -, hordered⟩ := processTxs_ordered (hdistinct.insertAll _)
    (hplaced.insertAll _) hwf.positions (fun tx htx => (hwf.inputIndices htx).imp le_of_lt) htracked
  have hitems : items = new := hnew
  rw [hitems]
  exact hordered

/-- What is detected in a block is planned: each event once, in the order of the keys,
whatever the order it is given in. A move that spends what another one paid to comes after
it, the moves of a pass form a chain, and its mint comes before them. -/
theorem plan_detected (env : BlockEnv) (height : Nat) (s t : IndexerState) (block : Block)
    (mints : CollectedMintItems) (items : List InscriptionTransferItem)
    (hfaithful : env.Faithful block) (hdistinct : s.inscriptions.Distinct)
    (hplaced : s.inscriptions.Placed)
    (h : collectBlock env height s = .ok (block, mints, items) t) :
    ∃ events,
      (∀ mintItems transferItems, mintItems.Perm mints.validItems → transferItems.Perm items →
        plan height block mintItems transferItems = .ok events) ∧
      events.Perm (eventsOf mints.validItems items) ∧
      events.Pairwise (fun a b => block.sortKey a < block.sortKey b) ∧
      (∀ a ∈ items, ∀ b ∈ items, a.satpoint = b.prevSatpoint →
        Precedes events (.Transfer a) (.Transfer b)) ∧
      (∀ id place, s.inscriptions.Holds id place →
        (∀ mint ∈ mints.validItems, mint.inscriptionId ≠ id) →
        ∃ last, Moves place (transfersOf id events) last) ∧
      ∀ mint ∈ mints.validItems, s.inscriptions.Holds mint.inscriptionId none →
        (∃ last, Moves (some mint.entry) (transfersOf mint.inscriptionId events) last) ∧
        ∀ item ∈ items, item.inscriptionId = mint.inscriptionId →
          Precedes events (.Mint mint) (.Transfer item) := by
  have hspends := hfaithful.spendsEarlier
  obtain ⟨hids, hmade⟩ := validItems_detected hfaithful h
  obtain ⟨hfound, -⟩ := items_detected hfaithful.wellFormed hdistinct hplaced h
  have hkeys := events_keys hfaithful hdistinct hplaced h
  have hplanned : ∃ events, plan height block mints.validItems items = .ok events :=
    plan_total hfaithful.wellFormed (fun item hitem => (hmade item hitem).2) hfound
  obtain ⟨events, hplan⟩ := hplanned
  obtain ⟨hperm, hsorted⟩ := plan_sorted hplan
  have hstrict : events.Pairwise (fun a b => block.sortKey a < block.sortKey b) := by
    have hnodup : (events.map block.sortKey).Nodup := (hperm.map _).nodup_iff.mpr hkeys
    exact (hsorted.and (List.pairwise_map.mp hnodup)).imp (fun hab => lt_of_le_of_ne hab.1 hab.2)
  have hmoves := plan_transfersOf
    (items_notAfter hfaithful.wellFormed hdistinct hplaced h) hplan
  have hmint : ∀ mint ∈ mints.validItems, .Mint mint ∈ events := fun mint hmint =>
    hperm.mem_iff.mpr (List.mem_append_left _ (List.mem_map_of_mem hmint))
  have htransfer : ∀ item ∈ items, .Transfer item ∈ events := fun item hitem =>
    hperm.mem_iff.mpr (List.mem_append_right _ (List.mem_map_of_mem hitem))
  refine ⟨events, fun _ _ hm hi => plan_perm hkeys hplan hm hi, hperm, hstrict, ?_, ?_, ?_⟩
  · intro a ha b hb hchain
    obtain ⟨tx, htx, vin, hvin, htxid, hprev⟩ := hfound b hb
    obtain ⟨earlier, hearlier, -, -, htxid', -⟩ := hfound a ha
    have hspent : vin.txid = earlier.txid := by rw [← hprev, ← hchain, htxid']
    have hlt := hspends tx htx vin hvin earlier hearlier hspent
    rw [← htxid, ← htxid'] at hlt
    exact pair_sublist_of_lt block.sortKey hstrict (htransfer a ha) (htransfer b hb) (List.Lex.rel hlt)
  · intro id place hholds hother
    rw [hmoves]
    refine movesOf_detected hdistinct h (hholds.insertAll_other (fun pass hpass => ?_))
    obtain ⟨item, hitem, rfl⟩ := List.mem_map.mp hpass
    exact hother item hitem
  · intro mint hmintItem hfresh
    have hseeded : (s.inscriptions.insertAll (mints.validItems.map (·.entry))).Holds
        mint.inscriptionId (some mint.entry) := by
      refine hfresh.insertAll ?_ (List.mem_map_of_mem hmintItem) rfl
      rw [List.map_map]
      exact hids
    obtain ⟨last, hchain⟩ := movesOf_detected hdistinct h hseeded
    obtain ⟨hsatpoint, first, hfirst, htxid⟩ := hmade mint hmintItem
    refine ⟨⟨last, by rw [hmoves]; exact hchain⟩, fun item hitem hid => ?_⟩
    have hlt := hchain.after hspends
      (fun item hitem => hfound item (List.mem_filter.mp hitem).1) hfirst
      (hsatpoint.trans htxid) item (List.mem_filter.mpr ⟨hitem, decide_eq_true hid⟩)
    rw [← htxid] at hlt
    exact pair_sublist_of_lt block.sortKey hstrict (hmint mint hmintItem) (htransfer item hitem)
      (List.Lex.rel hlt)

end Detected

section MintedAndMoved

/-- The first transaction reveals a pass, the second one sends it to owner 8, and the third
one sends it on to owner 9. -/
def mintAndMoves : Block where
  txdata := [Sample.payment 1 ⟨0, 0⟩ 7, Sample.payment 2 ⟨1, 0⟩ 8, Sample.payment 3 ⟨2, 0⟩ 9]

def mintAndMovesEnv : BlockEnv := Sample.env .empty 1 mintAndMoves.txdata [Sample.mint 1 []]

def mintedPass : InscriptionNewItem where
  inscriptionId := ⟨1, 0⟩
  inscriptionNumber := 0
  blockHeight := 1
  timestamp := 0
  address := 7
  satpoint := ⟨⟨1, 0⟩, 0⟩
  value := 1000
  content := { ethMain := "", ethCollab := none, prev := [] }
  commitTxid := 0

def sentTo (receiver : USDBScriptHash) (source target : SatPoint) (sender : USDBScriptHash) :
    InscriptionTransferItem where
  inscriptionId := ⟨1, 0⟩
  blockHeight := 1
  prevSatpoint := source
  satpoint := target
  fromAddress := sender
  toAddress := some receiver

def sentToEight : InscriptionTransferItem := sentTo 8 ⟨⟨1, 0⟩, 0⟩ ⟨⟨2, 0⟩, 0⟩ 7

def sentToNine : InscriptionTransferItem := sentTo 9 ⟨⟨2, 0⟩, 0⟩ ⟨⟨3, 0⟩, 0⟩ 8

theorem mintAndMoves_faithful : mintAndMovesEnv.Faithful mintAndMoves where
  wellFormed := by decide
  spendsEarlier := by decide
  transactions := by
    intro txid tx h
    have hfind : [Sample.payment 1 ⟨0, 0⟩ 7, Sample.payment 2 ⟨1, 0⟩ 8,
        Sample.payment 3 ⟨2, 0⟩ 9].find? (fun tx => tx.txid = txid) = some tx := h
    have htxid := List.find?_some hfind
    exact of_decide_eq_true htxid
  listed := by decide

/-- Given the other way round, the two moves are planned after the mint and in their order. -/
theorem plan_detected_mintAndMoves :
    ∃ events, plan 1 mintAndMoves [mintedPass] [sentToNine, sentToEight] = .ok events ∧
      Precedes events (.Mint mintedPass) (.Transfer sentToEight) ∧
      Precedes events (.Transfer sentToEight) (.Transfer sentToNine) := by
  obtain ⟨events, hplan, -, -, hchain, -, hmint⟩ := plan_detected mintAndMovesEnv 1 .empty
    { IndexerState.empty with stagedBlocks := [(1, _)] } mintAndMoves ⟨[mintedPass], []⟩
    [sentToEight, sentToNine] mintAndMoves_faithful .new (fun _ v hv => nomatch hv) rfl
  refine ⟨events, hplan _ _ (List.Perm.refl _) (List.Perm.swap ..), ?_, ?_⟩
  · exact (hmint mintedPass (by simp) (.new _)).2 sentToEight (by simp) rfl
  · exact hchain sentToEight (by simp) sentToNine (by simp) rfl

end MintedAndMoved

end BlockEventPlanner

end Usdb
