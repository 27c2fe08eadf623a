import Usdb.Framework.Unspent
import Usdb.Balances.CacheAgreement

namespace Usdb.Balances

open Framework BalanceHistoryDB

/-- The outputs a transaction spends, and those it creates that can be spent. -/
def Transaction.transfer (tx : Transaction) : Transfer OutPoint UTXOValue where
  spends := if tx.isCoinbase then [] else tx.input
  creates := tx.output.zipIdx.filterMap (fun (vout, n) =>
    if vout.scriptPubkey.isOpReturn then none
    else some (⟨tx.txid, n⟩, ⟨vout.value, vout.scriptPubkey.usdbScriptHash⟩))

def Block.transfers (block : Block) : List (Transfer OutPoint UTXOValue) :=
  block.txdata.map (·.transfer)

def chainTransfers (blocks : List Block) : List (Transfer OutPoint UTXOValue) :=
  blocks.flatMap (·.transfers)

/-- An input with the output it spends, which is one of its own block or was unspent
before it. -/
def fillVin (u : Unspent OutPoint UTXOValue) (own : List (OutPoint × UTXOValue))
    (vin : PreloadVIn) : PreloadVIn :=
  { vin with
    cacheTxOut := (own.lookup vin.outpoint).or (u vin.outpoint)
    needFlush := vin.outpoint ∉ own.map (·.1) }

def fillTx (u : Unspent OutPoint UTXOValue) (own : List (OutPoint × UTXOValue))
    (tx : PreloadTx) : PreloadTx :=
  { tx with vin := tx.vin.map (fillVin u own) }

def fillBlock (u : Unspent OutPoint UTXOValue) (height : Nat) (block : Block) : PreloadBlock :=
  { preprocessBlock height block with
    txdata := (preprocessBlock height block).txdata.map
      (fillTx u (createdBy block.transfers)) }

/-- Blocks with the outputs their inputs spend, each filled from what the blocks before
it leave unspent. -/
def fillBlocks : Unspent OutPoint UTXOValue → Nat → List Block → List PreloadBlock
  | _, _, [] => []
  | u, height, block :: blocks =>
    fillBlock u height block :: fillBlocks (u.afterAll block.transfers) (height + 1) blocks

section Shape

variable {u : Unspent OutPoint UTXOValue} {block : Block} {blocks blocks' : List Block}
  {height : Nat}

theorem chainTransfers_cons (block : Block) (blocks : List Block) :
    chainTransfers (block :: blocks) = block.transfers ++ chainTransfers blocks := rfl

theorem chainTransfers_append (blocks blocks' : List Block) :
    chainTransfers (blocks ++ blocks') = chainTransfers blocks ++ chainTransfers blocks' :=
  List.flatMap_append

theorem fillBlocks_append (u : Unspent OutPoint UTXOValue) (height : Nat)
    (blocks blocks' : List Block) :
    fillBlocks u height (blocks ++ blocks') = fillBlocks u height blocks ++
      fillBlocks (u.afterAll (chainTransfers blocks)) (height + blocks.length) blocks' := by
  induction blocks generalizing u height with
  | nil => rfl
  | cons block blocks ih =>
    rw [List.cons_append, fillBlocks, ih, fillBlocks, List.cons_append, List.length_cons,
      chainTransfers_cons, Unspent.afterAll_append, Nat.add_assoc height 1, Nat.add_comm 1]

theorem fillBlocks_ids (u : Unspent OutPoint UTXOValue) (height : Nat) (blocks : List Block) :
    (fillBlocks u height blocks).map (fun block => (block.height, block.blockHash)) =
      (List.range' height blocks.length).zip (blocks.map (·.blockHash)) := by
  induction blocks generalizing u height with
  | nil => rfl
  | cons block blocks ih =>
    rw [fillBlocks, List.map_cons, ih]
    rfl

theorem preloadVouts_creates (tx : Transaction) :
    (preloadVouts tx).map (fun vout => (vout.outpoint, vout.cacheTxOut)) =
      tx.transfer.creates := by
  unfold preloadVouts Transaction.transfer
  rw [List.map_filterMap]
  refine List.filterMap_congr ?_
  rintro ⟨vout, n⟩ -
  dsimp only
  split <;> rfl

theorem preprocessBlock_vouts (height : Nat) (block : Block) :
    (preprocessBlock height block).vouts.map (fun vout => (vout.outpoint, vout.cacheTxOut)) =
      createdBy block.transfers := by
  unfold PreloadBlock.vouts preprocessBlock createdBy Block.transfers
  rw [List.map_flatMap, List.flatMap_map, List.flatMap_map]
  exact List.flatMap_congr (fun tx _ => preloadVouts_creates tx)

theorem fillBlock_vouts (u : Unspent OutPoint UTXOValue) (height : Nat) (block : Block) :
    (fillBlock u height block).vouts = (preprocessBlock height block).vouts := by
  unfold PreloadBlock.vouts fillBlock
  rw [List.flatMap_map]
  rfl

theorem preprocessTx_vin (tx : Transaction) :
    (preprocessTx tx).vin = tx.transfer.spends.map (fun outpoint => ⟨outpoint, none, true⟩) := by
  unfold preprocessTx Transaction.transfer
  dsimp only
  split <;> rfl

theorem preprocessBlock_vins (height : Nat) (block : Block) :
    (preprocessBlock height block).vins =
      (spentBy block.transfers).map (fun outpoint => ⟨outpoint, none, true⟩) := by
  unfold PreloadBlock.vins preprocessBlock spentBy Block.transfers
  rw [List.map_flatMap, List.flatMap_map, List.flatMap_map]
  exact List.flatMap_congr (fun tx _ => preprocessTx_vin tx)

theorem fillBlock_vins (u : Unspent OutPoint UTXOValue) (height : Nat) (block : Block) :
    (fillBlock u height block).vins = (spentBy block.transfers).map (fun outpoint =>
      fillVin u (createdBy block.transfers) ⟨outpoint, none, true⟩) := by
  have h : (fillBlock u height block).vins = (preprocessBlock height block).vins.map
      (fillVin u (createdBy block.transfers)) := by
    unfold PreloadBlock.vins fillBlock
    rw [List.flatMap_map, List.map_flatMap]
    rfl
  rw [h, preprocessBlock_vins, List.map_map]
  rfl

theorem voutRows_eq (height : Nat) (block : Block) :
    voutRows (preprocessBlock height block) =
      (createdBy block.transfers).map (fun row => (row.1, ⟨row.2, height, false⟩)) := by
  unfold voutRows
  rw [← preprocessBlock_vouts height, List.map_map]
  rfl

theorem voutRows_keys (height : Nat) (blocks : List Block) :
    ((preprocessBlocks height blocks).flatMap voutRows).map (·.1) =
      createdKeys (chainTransfers blocks) := by
  induction blocks generalizing height with
  | nil => rfl
  | cons block blocks ih =>
    rw [preprocessBlocks, List.flatMap_cons, List.map_append, ih, voutRows_eq, List.map_map,
      chainTransfers_cons, createdKeys_append]
    rfl

theorem mem_voutRows {outpoint : OutPoint} {info : VOutUtxoInfo}
    (h : (outpoint, info) ∈ (preprocessBlocks height blocks).flatMap voutRows) :
    (outpoint, info.item) ∈ createdBy (chainTransfers blocks) ∧
      height ≤ info.blockHeight ∧ info.blockHeight < height + blocks.length ∧
        info.spend = false := by
  induction blocks generalizing height with
  | nil => cases h
  | cons block blocks ih =>
    rw [preprocessBlocks, List.flatMap_cons, List.mem_append, voutRows_eq] at h
    rw [chainTransfers_cons, createdBy_append, List.mem_append, List.length_cons]
    rcases h with h | h
    · obtain ⟨⟨key, value⟩, hmem, heq⟩ := List.mem_map.mp h
      cases heq
      exact ⟨.inl hmem, Nat.le_refl _, by dsimp only; omega, rfl⟩
    · obtain ⟨hmem, hle, hlt, hspend⟩ := ih h
      exact ⟨.inr hmem, by omega, by omega, hspend⟩

end Shape

/-- The inputs of some blocks, in order. -/
theorem preprocessBlocks_inputs (height : Nat) (blocks : List Block) :
    (preprocessBlocks height blocks).flatMap (fun block => block.vins.map (·.outpoint)) =
      spentBy (chainTransfers blocks) := by
  induction blocks generalizing height with
  | nil => rfl
  | cons block blocks ih =>
    rw [preprocessBlocks, List.flatMap_cons, ih, preprocessBlock_vins, chainTransfers_cons,
      spentBy_append, List.map_map]
    congr 1
    exact List.map_id _

/-- The store has the unspent outputs, and the cache nothing else. -/
structure HoldsUnspent (u : Unspent OutPoint UTXOValue) (s : HistoryState) : Prop where
  utxos : ∀ outpoint, s.db.getUtxo outpoint = u outpoint
  cache : ∀ outpoint value, s.utxoCache outpoint = some value → u outpoint = some value

section Fill

variable {env : BatchEnv} {s : HistoryState} {u : Unspent OutPoint UTXOValue} {start : Nat}
  {before blocks later : List Block} {block : Block} {created : Table OutPoint VOutUtxoInfo}

theorem HoldsUnspent.fetchUtxo_ok (h : HoldsUnspent u s) (env : BatchEnv) {outpoint : OutPoint}
    {value : UTXOValue} (hu : u outpoint = some value) :
    fetchUtxo env s.db s.utxoCache outpoint = .ok value := by
  unfold fetchUtxo
  cases hc : s.utxoCache outpoint with
  | none =>
    rw [h.utxos, hu]
    rfl
  | some cached =>
    rw [h.cache outpoint cached hc] at hu
    cases hu
    rfl

/-- The outputs created in a batch do not depend on the order of the blocks. -/
theorem createdTable_lookup (schedule : Schedule)
    (hn : (createdKeys (chainTransfers blocks)).Nodup) (outpoint : OutPoint) :
    ((∅ : Table OutPoint VOutUtxoInfo).insertMany
        ((schedule.blockOrder (preprocessBlocks start blocks)).flatMap voutRows))[outpoint]? =
      ((preprocessBlocks start blocks).flatMap voutRows).lookup outpoint := by
  have hperm : ((schedule.blockOrder (preprocessBlocks start blocks)).flatMap voutRows).Perm
      ((preprocessBlocks start blocks).flatMap voutRows) :=
    (schedule.blockOrder_perm _).flatMap_right _
  rw [← voutRows_keys start blocks] at hn
  rw [Table.insertMany_perm hperm ((hperm.map _).nodup_iff.mpr hn),
    Table.getElem?_insertMany_lookup hn]
  exact Option.or_none

/-- An input of a block of the batch gets the output it spends. -/
theorem preloadVin_fill
    (hv : Unspent.Valid u (chainTransfers (before ++ block :: later)))
    (hf : Unspent.Fresh u (chainTransfers (before ++ block :: later)))
    (hu : HoldsUnspent u s)
    (hcreated : ∀ outpoint, created[outpoint]? =
      ((preprocessBlocks start (before ++ block :: later)).flatMap voutRows).lookup outpoint)
    {outpoint : OutPoint} (hmem : outpoint ∈ spentBy block.transfers) :
    preloadVin env s.db s.utxoCache created (start + before.length) ⟨outpoint, none, true⟩ =
      .ok (fillVin (u.afterAll (chainTransfers before)) (createdBy block.transfers)
        ⟨outpoint, none, true⟩) := by
  rw [chainTransfers_append, chainTransfers_cons] at hv hf
  obtain ⟨hlater, hfound⟩ := Unspent.spent_found hv hf hmem
  have hbefore := (Unspent.valid_append.mp hv).1
  have hrows : created[outpoint]? =
      (((preprocessBlocks start before).flatMap voutRows).lookup outpoint).or
        ((voutRows (preprocessBlock (start + before.length) block)).lookup outpoint) := by
    have hnone : ((preprocessBlocks (start + before.length + 1) later).flatMap voutRows).lookup
        outpoint = none := by
      refine Table.lookup_eq_none.mpr ?_
      rw [voutRows_keys]
      exact hlater
    rw [hcreated, preprocessBlocks_append, preprocessBlocks, List.flatMap_append,
      List.flatMap_cons, List.lookup_append, List.lookup_append, hnone, Option.or_none]
  have hown : (voutRows (preprocessBlock (start + before.length) block)).lookup outpoint =
      ((createdBy block.transfers).lookup outpoint).map (fun value =>
        ⟨value, start + before.length, false⟩) := by
    rw [voutRows_eq]
    exact Table.lookup_map_value (fun value => VOutUtxoInfo.mk value _ false) _ _
  rw [hown] at hrows
  unfold preloadVin fillVin
  dsimp only
  rcases hfound with ⟨hin, hnone⟩ | ⟨hout, value, hsome⟩
  · obtain ⟨value, hvalue⟩ : ∃ value, (createdBy block.transfers).lookup outpoint = some value :=
      Option.ne_none_iff_exists'.mp (fun h => Table.lookup_eq_none.mp h hin)
    have hn := hf.nodup
    rw [createdKeys_append, createdKeys_append, List.nodup_append] at hn
    have hearlier : ((preprocessBlocks start before).flatMap voutRows).lookup outpoint = none := by
      refine Table.lookup_eq_none.mpr ?_
      rw [voutRows_keys]
      exact fun h => hn.2.2 outpoint h outpoint (List.mem_append_left _ hin) rfl
    have hkeys : outpoint ∈ (createdBy block.transfers).map (·.1) := hin
    rw [hrows, hearlier, hvalue]
    simp [hkeys]
  · have hkeys : outpoint ∉ (createdBy block.transfers).map (·.1) := hout
    rw [Table.lookup_eq_none.mpr hkeys, Option.map_none, Option.or_none] at hrows
    have hn : (createdKeys (chainTransfers before)).Nodup := hf.left.nodup
    rw [hrows, Table.lookup_eq_none.mpr hkeys, hsome]
    rw [Unspent.afterAll_eq hbefore hf.left] at hsome
    split at hsome
    · cases hsome
    · cases hearlier : ((preprocessBlocks start before).flatMap voutRows).lookup outpoint with
      | some info =>
        obtain ⟨hitem, -, hlt, -⟩ := mem_voutRows (Table.mem_of_lookup hearlier)
        rw [Table.lookup_of_mem hn hitem] at hsome
        cases hsome
        simp [hkeys, hlt]
      | none =>
        have hnot := Table.lookup_eq_none.mp hearlier
        rw [voutRows_keys] at hnot
        have hvalue : u outpoint = some value := by
          rw [show (createdBy (chainTransfers before)).lookup outpoint = none from
            Table.lookup_eq_none.mpr hnot] at hsome
          exact hsome
        dsimp only
        rw [hu.fetchUtxo_ok env hvalue]
        simp [hkeys, bind, Except.bind, pure, Except.pure]

theorem preloadUtxos_fill
    (hv : Unspent.Valid u (chainTransfers (before ++ block :: later)))
    (hf : Unspent.Fresh u (chainTransfers (before ++ block :: later)))
    (hu : HoldsUnspent u s)
    (hcreated : ∀ outpoint, created[outpoint]? =
      ((preprocessBlocks start (before ++ block :: later)).flatMap voutRows).lookup outpoint) :
    preloadUtxos env s.db s.utxoCache created
        (preprocessBlock (start + before.length) block) =
      .ok (fillBlock (u.afterAll (chainTransfers before)) (start + before.length) block) := by
  have htx : ∀ tx ∈ (preprocessBlock (start + before.length) block).txdata,
      (do let vin ← tx.vin.mapM (preloadVin env s.db s.utxoCache created (start + before.length))
          return { tx with vin }) =
        Except.ok (fillTx (u.afterAll (chainTransfers before)) (createdBy block.transfers) tx) := by
    intro tx htx
    obtain ⟨tx, hmem, rfl⟩ := List.mem_map.mp htx
    refine bind_eq_ok_iff.mpr ⟨_, mapM_eq_map (fun vin hvin => ?_), rfl⟩
    rw [preprocessTx_vin] at hvin
    obtain ⟨outpoint, hspent, rfl⟩ := List.mem_map.mp hvin
    exact preloadVin_fill hv hf hu hcreated
      (List.mem_flatMap.mpr ⟨_, List.mem_map_of_mem hmem, hspent⟩)
  unfold preloadUtxos
  exact bind_eq_ok_iff.mpr ⟨_, mapM_eq_map htx, rfl⟩

theorem preloadBlocks_fill
    (hv : Unspent.Valid u (chainTransfers (before ++ blocks)))
    (hf : Unspent.Fresh u (chainTransfers (before ++ blocks)))
    (hu : HoldsUnspent u s)
    (hcreated : ∀ outpoint, created[outpoint]? =
      ((preprocessBlocks start (before ++ blocks)).flatMap voutRows).lookup outpoint) :
    (preprocessBlocks (start + before.length) blocks).mapM
        (preloadUtxos env s.db s.utxoCache created) =
      .ok (fillBlocks (u.afterAll (chainTransfers before)) (start + before.length) blocks) := by
  induction blocks generalizing before with
  | nil => rfl
  | cons block blocks ih =>
    have hsplit : before ++ block :: blocks = (before ++ [block]) ++ blocks := by simp
    have htail := @ih (before ++ [block]) (by rw [← hsplit]; exact hv)
      (by rw [← hsplit]; exact hf) (by rw [← hsplit]; exact hcreated)
    have hafter : u.afterAll (chainTransfers (before ++ [block])) =
        (u.afterAll (chainTransfers before)).afterAll block.transfers := by
      rw [chainTransfers_append, Unspent.afterAll_append, chainTransfers_cons]
      exact congrArg _ (List.append_nil _)
    rw [hafter, List.length_append, List.length_singleton, ← Nat.add_assoc] at htail
    exact mapM_cons_eq_ok.mpr ⟨_, _, preloadUtxos_fill hv hf hu hcreated, htail, rfl⟩

end Fill

section Mark

variable {t : Table OutPoint VOutUtxoInfo} {inputs : List OutPoint}

/-- Marking the inputs of a batch does not fail when each is spent once, and their order
does not matter. -/
theorem foldlM_markSpent (hn : inputs.Nodup)
    (hfree : ∀ outpoint ∈ inputs, ∀ info, t[outpoint]? = some info → info.spend = false) :
    ∃ t', inputs.foldlM markSpent t = .ok t' ∧ ∀ outpoint, t'[outpoint]? =
      (t[outpoint]?).map (fun info : VOutUtxoInfo =>
        { info with spend := info.spend || outpoint ∈ inputs }) := by
  induction inputs generalizing t with
  | nil =>
    refine ⟨t, rfl, fun outpoint => ?_⟩
    cases t[outpoint]? <;> simp
  | cons first inputs ih =>
    rw [List.nodup_cons] at hn
    have hstep : ∃ t₁, markSpent t first = .ok t₁ ∧ ∀ outpoint, t₁[outpoint]? =
        (t[outpoint]?).map (fun info : VOutUtxoInfo =>
          { info with spend := info.spend || outpoint = first }) := by
      unfold markSpent
      cases hget : t[first]? with
      | none =>
        refine ⟨t, rfl, fun outpoint => ?_⟩
        by_cases heq : outpoint = first
        · subst heq
          rw [hget]
          rfl
        · cases t[outpoint]? <;> simp [heq]
      | some info =>
        dsimp only
        rw [hfree first (by simp) info hget]
        refine ⟨_, rfl, fun outpoint => ?_⟩
        rw [Table.getElem?_put]
        by_cases heq : first = outpoint
        · subst heq
          rw [if_pos rfl, hget]
          simp
        · rw [if_neg heq]
          cases t[outpoint]? <;> simp [Ne.symm heq]
    obtain ⟨t₁, hmark, hget₁⟩ := hstep
    have hfree₁ : ∀ outpoint ∈ inputs, ∀ info, t₁[outpoint]? = some info → info.spend = false := by
      intro outpoint hmem info hget
      rw [hget₁] at hget
      obtain ⟨info', hget', rfl⟩ := Option.map_eq_some_iff.mp hget
      have hne : outpoint ≠ first := fun heq => hn.1 (heq ▸ hmem)
      simp [hne, hfree outpoint (by simp [hmem]) info' hget']
    obtain ⟨t', hfold, hget'⟩ := ih hn.2 hfree₁
    refine ⟨t', ?_, fun outpoint => ?_⟩
    · rw [List.foldlM_cons]
      exact bind_eq_ok_iff.mpr ⟨t₁, hmark, hfold⟩
    · rw [hget', hget₁, Option.map_map]
      congr 1
      funext info
      simp [List.mem_cons, Bool.or_assoc]

end Mark

end Usdb.Balances
