import Usdb.Balances.ElectrumView

namespace Usdb.Balances

open Framework

namespace ElectrsClient

variable {client : ElectrsClient}

theorem expandVin_ok {input : OutPoint} {out : TxOut} :
    client.expandVin input = .ok out ↔ client.prevout? input = some out := by
  unfold expandVin prevout?
  cases client.transactionGet input.txid with
  | none => simp
  | some vinTx =>
    cases hout : vinTx.output[input.vout]? with
    | none => simp [hout]
    | some found => simp [hout]

/-- A transaction is expanded when it is no coinbase. -/
theorem expandTx_ok {txid : Txid} {tx : TxFullItem} (hserves : client.Serves txid)
    (hnull : client.transactionGet 0 = none) :
    client.expandTx txid = .ok tx ↔ ¬ client.isCoinbase txid ∧ tx = client.fullItem txid := by
  obtain ⟨found, hget, hinputs⟩ := hserves
  unfold expandTx isCoinbase fullItem
  simp only [hget, Option.any_some]
  cases hcoinbase : found.isCoinbase with
  | true =>
    rw [hcoinbase, if_pos rfl] at hinputs
    obtain ⟨vout, hinput⟩ := hinputs
    have hvin : client.expandVin ⟨0, vout⟩ = .error (.getVinTransaction 0) := by
      unfold expandVin
      rw [hnull]
    rw [hinput, List.mapM_cons, hvin]
    constructor
    · intro h
      cases h
    · rintro ⟨h, -⟩
      exact absurd rfl h
  | false =>
    rw [hcoinbase, if_neg Bool.false_ne_true] at hinputs
    have hvin : found.input.mapM client.expandVin =
        .ok (found.input.filterMap client.prevout?) := by
      refine mapM_eq_ok.mpr ⟨fun input hmem => ?_, List.filterMap_congr (fun input hmem => ?_)⟩
      · obtain ⟨out, hout⟩ := Option.isSome_iff_exists.mp (hinputs input hmem)
        exact ⟨out, expandVin_ok.mpr hout⟩
      · obtain ⟨out, hout⟩ := Option.isSome_iff_exists.mp (hinputs input hmem)
        rw [hout, expandVin_ok.mpr hout]
        rfl
    rw [hvin]
    constructor
    · intro h
      cases h
      exact ⟨Bool.false_ne_true, rfl⟩
    · rintro ⟨-, rfl⟩
      rfl

end ElectrsClient

namespace ElectrumView

variable {view : ElectrumView} {s : USDBScriptHash} {blockHeight : Nat}

section CalcLoop

variable (view s) in
/-- The entry that the loop makes of an item, after items with the given sum. -/
def entryAt (balance : Int) (item : GetHistoryRes) : BalanceHistoryData :=
  ⟨asU32 item.height, view.delta s item, (balance + view.delta s item).toNat⟩

variable (view s) in
def entriesFrom : Int → List GetHistoryRes → List BalanceHistoryData
  | _, [] => []
  | balance, item :: items =>
    view.entryAt s balance item :: entriesFrom (balance + view.delta s item) items

theorem mem_entriesFrom {balance : Int} {items : List GetHistoryRes} {data : BalanceHistoryData} :
    data ∈ view.entriesFrom s balance items ↔ ∃ pre item post, items = pre ++ item :: post ∧
      data = view.entryAt s (balance + view.total s pre) item := by
  induction items generalizing balance with
  | nil =>
    constructor
    · exact fun h => nomatch h
    · rintro ⟨pre, item, post, h, -⟩
      simp at h
  | cons item items ih =>
    rw [entriesFrom, List.mem_cons, ih]
    constructor
    · rintro (rfl | ⟨pre, found, post, rfl, rfl⟩)
      · exact ⟨[], item, items, rfl, by simp [total]⟩
      · exact ⟨item :: pre, found, post, rfl, by rw [total_cons, add_assoc]⟩
    · rintro ⟨pre, found, post, hsplit, rfl⟩
      cases pre with
      | nil =>
        cases hsplit
        exact .inl (by simp [total])
      | cons first pre =>
        cases hsplit
        exact .inr ⟨pre, found, post, rfl, by rw [total_cons, add_assoc]⟩

/-- A script is found as soon as an item was processed, and it is of the script hash. -/
def FoundScript (s : USDBScriptHash) (processed : Prop) (scriptBuf : Option ScriptBuf) : Prop :=
  (scriptBuf.isSome ↔ processed) ∧ ∀ script ∈ scriptBuf, script.usdbScriptHash = s

theorem FoundScript.next {processed : Prop} {scriptBuf : Option ScriptBuf} {script : ScriptBuf}
    (h : FoundScript s processed scriptBuf) (hscript : script.usdbScriptHash = s) :
    FoundScript s True (scriptBuf.or (some script)) := by
  cases scriptBuf with
  | none => exact ⟨by simp, fun script' hmem => by cases hmem; exact hscript⟩
  | some found => exact ⟨by simp, h.2⟩

/-- What a listed transaction gives, when it is no coinbase. -/
theorem item_ok {item : GetHistoryRes} (hmem : item ∈ view.history s)
    (hcoinbase : ¬ view.client.isCoinbase item.txHash) :
    ∃ scriptBuf, (view.client.expandTx item.txHash >>= fun tx => tx.amountDeltaFromTx s) =
      .ok (view.delta s item, scriptBuf) ∧ scriptBuf.usdbScriptHash = s := by
  have hmoney : maxMoney < 2 ^ 62 := by
    unfold maxMoney
    norm_num
  obtain ⟨hvin, hvout⟩ := view.amounts item.txHash s
  obtain ⟨scriptBuf, hamount, hscript⟩ := amountDeltaFromTx_ok
    (Nat.lt_of_le_of_lt hvin hmoney) (Nat.lt_of_le_of_lt hvout hmoney) (view.touches s item hmem)
  refine ⟨scriptBuf, ?_, hscript⟩
  rw [(ElectrsClient.expandTx_ok (view.served s item hmem) view.nullTxid).mpr ⟨hcoinbase, rfl⟩]
  exact hamount

variable {items : List GetHistoryRes} {state state' : CalcState}

theorem calcLoop_stop {item : GetHistoryRes} (h : ¬ upToHeight blockHeight item) :
    view.client.calcLoop s blockHeight (item :: items) state = .ok state := by
  rw [ElectrsClient.calcLoop, if_pos (not_le.mp (fun hle => h (decide_eq_true hle)))]

theorem calcLoop_next {item : GetHistoryRes} (h : upToHeight blockHeight item) :
    view.client.calcLoop s blockHeight (item :: items) state =
      ((view.client.expandTx item.txHash >>= fun tx => tx.amountDeltaFromTx s) >>= fun amount =>
        verifyAddI64 state.balance amount.1 >>= fun balance =>
          if 0 ≤ balance then
            view.client.calcLoop s blockHeight items {
              balance
              scriptBuf := state.scriptBuf.or (some amount.2)
              result := state.result ++ [⟨asU32 item.height, amount.1, balance.toNat⟩] }
          else .error .panic) := by
  rw [ElectrsClient.calcLoop, if_neg (not_lt.mpr (of_decide_eq_true h)), bind_assoc]

/-- What a loop that returns has done. -/
theorem calcLoop_ok (hlisted : ∀ item ∈ items, item ∈ view.history s)
    (h : view.client.calcLoop s blockHeight items state = .ok state') :
    let processed := items.takeWhile (upToHeight blockHeight)
    (∀ item ∈ processed, ¬ view.client.isCoinbase item.txHash) ∧
      state'.result = state.result ++ view.entriesFrom s state.balance processed ∧
      (processed = [] → state' = state) := by
  induction items generalizing state with
  | nil =>
    cases h
    exact ⟨fun _ hmem => (nomatch hmem), (List.append_nil _).symm, fun _ => rfl⟩
  | cons item items ih =>
    by_cases hle : upToHeight blockHeight item
    · rw [calcLoop_next hle] at h
      obtain ⟨amount, hamount, h⟩ := bind_eq_ok_iff.mp h
      obtain ⟨balance, hbalance, h⟩ := bind_eq_ok_iff.mp h
      have hcoinbase : ¬ view.client.isCoinbase item.txHash := by
        obtain ⟨tx, htx, -⟩ := bind_eq_ok_iff.mp hamount
        exact ((ElectrsClient.expandTx_ok (view.served s item (hlisted item (by simp)))
          view.nullTxid).mp htx).1
      obtain ⟨scriptBuf, hitem, -⟩ := item_ok (hlisted item (by simp)) hcoinbase
      rw [hitem] at hamount
      cases hamount
      obtain rfl := verifyAddI64_ok hbalance
      split at h
      · obtain ⟨hrest, hresult, -⟩ := ih (fun item' hmem => hlisted item' (by simp [hmem])) h
        dsimp only
        rw [List.takeWhile_cons_of_pos hle]
        refine ⟨?_, ?_, fun hnil => nomatch hnil⟩
        · intro item' hmem
          rcases List.mem_cons.mp hmem with rfl | hmem
          · exact hcoinbase
          · exact hrest item' hmem
        · rw [hresult, List.append_assoc]
          rfl
      · cases h
    · rw [calcLoop_stop hle] at h
      cases h
      dsimp only
      rw [List.takeWhile_cons_of_neg hle]
      exact ⟨fun _ hmem => (nomatch hmem), (List.append_nil _).symm, fun _ => rfl⟩

/-- The loop returns when it meets no coinbase and no running balance is out of bounds. -/
theorem calcLoop_run {found : Prop} (hlisted : ∀ item ∈ items, item ∈ view.history s)
    (hfound : FoundScript s found state.scriptBuf)
    (hcoinbase : ∀ item ∈ items.takeWhile (upToHeight blockHeight),
      ¬ view.client.isCoinbase item.txHash)
    (hbalance : ∀ pre post,
      items.takeWhile (upToHeight blockHeight) = pre ++ post →
        0 ≤ state.balance + view.total s pre ∧ state.balance + view.total s pre ≤ maxMoney) :
    let processed := items.takeWhile (upToHeight blockHeight)
    ∃ scriptBuf, view.client.calcLoop s blockHeight items state =
        .ok ⟨state.balance + view.total s processed, scriptBuf,
          state.result ++ view.entriesFrom s state.balance processed⟩ ∧
      FoundScript s (found ∨ processed ≠ []) scriptBuf := by
  induction items generalizing state found with
  | nil =>
    refine ⟨state.scriptBuf, ?_, by simpa using hfound⟩
    show Except.ok state = _
    simp [total, entriesFrom]
  | cons item items ih =>
    by_cases hle : upToHeight blockHeight item
    · dsimp only
      rw [List.takeWhile_cons_of_pos hle] at hcoinbase hbalance ⊢
      obtain ⟨scriptBuf, hitem, hscript⟩ :=
        item_ok (hlisted item (by simp)) (hcoinbase item (by simp))
      have hfirst := hbalance [item] _ rfl
      rw [total_cons, show view.total s [] = 0 from rfl, add_zero] at hfirst
      have hmoney : (maxMoney : Int) < 2 ^ 63 := by
        unfold maxMoney
        norm_num
      rw [calcLoop_next hle, hitem]
      show ∃ scriptBuf', (verifyAddI64 state.balance (view.delta s item) >>= _) = _ ∧ _
      rw [verifyAddI64_of_fits (by omega) (by omega)]
      show ∃ scriptBuf', (if 0 ≤ state.balance + view.delta s item then _ else _) = _ ∧ _
      rw [if_pos hfirst.1]
      let next : CalcState := ⟨state.balance + view.delta s item,
        state.scriptBuf.or (some scriptBuf), state.result ++ [view.entryAt s state.balance item]⟩
      have hnext : FoundScript s True next.scriptBuf := hfound.next hscript
      obtain ⟨scriptBuf', hrun, hfound'⟩ := ih
        (fun item' hmem => hlisted item' (by simp [hmem])) hnext
        (fun item' hmem => hcoinbase item' (by simp [hmem]))
        (fun pre post hsplit => by
          have := hbalance (item :: pre) post (by rw [hsplit]; rfl)
          rw [total_cons, ← add_assoc] at this
          exact this)
      refine ⟨scriptBuf', ?_, by simpa using hfound'⟩
      change view.client.calcLoop s blockHeight items next =
        .ok ⟨state.balance + view.delta s item + view.total s _, scriptBuf',
          state.result ++ [view.entryAt s state.balance item] ++
            view.entriesFrom s (state.balance + view.delta s item) _⟩ at hrun
      rw [List.append_assoc, add_assoc, ← total_cons] at hrun
      exact hrun
    · dsimp only
      rw [List.takeWhile_cons_of_neg hle]
      refine ⟨state.scriptBuf, ?_, by simpa using hfound⟩
      rw [calcLoop_stop hle]
      simp [total, entriesFrom]

end CalcLoop

section Processed

theorem asI32_of_lt {n : Nat} (h : n < 2 ^ 31) : asI32 n = n := by
  unfold asI32
  exact Int.bmod_eq_of_le_mul_two (by omega) (by omega)

theorem asI32_of_ge {n : Nat} (hge : 2 ^ 31 ≤ n) (hlt : n < 2 ^ 32) :
    asI32 n = n - 2 ^ 32 := by
  unfold asI32
  rw [← Int.sub_bmod_right]
  exact Int.bmod_eq_of_le_mul_two (by omega) (by omega)

theorem asU32_of_nonneg {x : Int} (hge : 0 ≤ x) (hlt : x < 2 ^ 31) : asU32 x = x.toNat := by
  unfold asU32
  rw [Int.emod_eq_of_lt hge (by omega)]

theorem drop_takeWhile_append {α : Type} (p : α → Bool) (l l' : List α) :
    ((l ++ l').takeWhile p).drop l.length = if l.all p then l'.takeWhile p else [] := by
  induction l with
  | nil => rfl
  | cons a l ih =>
    cases ha : p a with
    | true => simpa [ha] using ih
    | false => simp [ha]

theorem mem_pending {item : GetHistoryRes} (h : item ∈ view.pending s blockHeight) :
    item ∈ view.mempool s ∧ upToHeight blockHeight item ∧
      ∀ item' ∈ view.confirmed s, upToHeight blockHeight item' := by
  unfold pending processed history at h
  rw [drop_takeWhile_append] at h
  split at h
  · next hall =>
    exact ⟨(List.takeWhile_sublist _).mem h, List.mem_takeWhile_imp h, List.all_eq_true.mp hall⟩
  · cases h

theorem confirmed_upTo (hlt : blockHeight < 2 ^ 31) :
    (view.confirmed s).takeWhile (upToHeight blockHeight) =
      view.confirmedUpTo s blockHeight := by
  rw [takeWhile_eq_filter (view.confirmed_sorted s)]
  · unfold upToHeight confirmedUpTo
    rw [asI32_of_lt hlt]
  · intro a _ b _ hle hb
    exact decide_eq_true (le_trans hle (of_decide_eq_true hb))

theorem upToHeight_confirmed (hlt : blockHeight < 2 ^ 32) {item : GetHistoryRes}
    (hmem : item ∈ view.confirmed s) (h : upToHeight blockHeight item) : blockHeight < 2 ^ 31 := by
  by_contra hge
  have hle := of_decide_eq_true h
  have hnonneg := (view.confirmed_height s item hmem).1
  rw [asI32_of_ge (not_lt.mp hge) hlt] at hle
  omega

/-- The loops process the confirmed items up to the height, then the items of the mempool. -/
theorem processed_eq (hlt : blockHeight < 2 ^ 32) (hne : view.processed s blockHeight ≠ []) :
    view.processed s blockHeight =
      view.confirmedUpTo s blockHeight ++
        view.pending s blockHeight := by
  cases hconfirmed : view.confirmed s with
  | nil =>
    unfold pending confirmedUpTo
    rw [hconfirmed]
    rfl
  | cons first rest =>
    have hfirst : upToHeight blockHeight first := by
      by_contra hnot
      refine hne ?_
      unfold processed history
      rw [hconfirmed, List.cons_append, List.takeWhile_cons_of_neg hnot]
    have hlt' := upToHeight_confirmed hlt (by rw [hconfirmed]; simp) hfirst
    rw [← confirmed_upTo hlt']
    unfold pending processed history
    rw [drop_takeWhile_append]
    by_cases hall : (view.confirmed s).all (upToHeight blockHeight)
    · rw [if_pos hall, List.takeWhile_append_of_pos (List.all_eq_true.mp hall),
        List.takeWhile_eq_self_iff.mpr (List.all_eq_true.mp hall)]
    · rw [if_neg hall, List.append_nil, List.takeWhile_append, if_neg]
      intro hlen
      refine hall (List.all_eq_true.mpr ?_)
      rw [← List.takeWhile_eq_self_iff]
      exact (List.takeWhile_prefix _).eq_of_length hlen

variable (view s blockHeight) in
theorem confirmed_split :
    ∃ rest, view.confirmed s =
      view.confirmedUpTo s blockHeight ++ rest := by
  by_cases hhigh : blockHeight < 2 ^ 31
  · rw [← confirmed_upTo hhigh]
    exact ⟨_, (List.takeWhile_append_dropWhile).symm⟩
  · refine ⟨[], ?_⟩
    unfold confirmedUpTo
    rw [List.append_nil, eq_comm, List.filter_eq_self]
    intro item hmem
    have := (view.confirmed_height s item hmem).2
    exact decide_eq_true (by omega)

theorem confirmedUpTo_eq (hpending : view.pending s blockHeight ≠ []) (hlt : blockHeight < 2 ^ 32) :
    view.confirmedUpTo s blockHeight = view.confirmed s := by
  obtain ⟨item, hitem⟩ := List.exists_mem_of_ne_nil _ hpending
  obtain ⟨-, -, hall⟩ := mem_pending hitem
  unfold confirmedUpTo
  rw [List.filter_eq_self]
  intro item' hmem
  have hle := of_decide_eq_true (hall item' hmem)
  rw [asI32_of_lt (upToHeight_confirmed hlt hmem (hall item' hmem))] at hle
  exact decide_eq_true hle

/-- At the height of an item of the mempool no block has a transaction. -/
theorem trueRow_pending (hlt : blockHeight < 2 ^ 32)
    (hcoinbase : ∀ item ∈ view.processed s blockHeight, ¬ view.client.isCoinbase item.txHash)
    {item : GetHistoryRes} (hitem : item ∈ view.pending s blockHeight)
    (hle : asU32 item.height ≤ blockHeight) :
    ∀ height ≤ asU32 item.height, view.trueRow s height = none := by
  obtain ⟨hmempool, hreached, hall⟩ := mem_pending hitem
  have hnone : ∀ item' ∈ view.confirmed s, ∀ height ≤ asU32 item.height,
      item'.height ≠ height := by
    intro item' hmem height hheight heq
    have hlow := upToHeight_confirmed hlt hmem (hall item' hmem)
    rcases view.mempool_height s item hmempool with hzero | hneg
    · rw [hzero, asU32_of_nonneg (le_refl _) (by norm_num)] at hheight
      have hgenesis := view.genesis s item' hmem (by omega)
      refine hcoinbase item' ?_ hgenesis
      have hne : view.processed s blockHeight ≠ [] :=
        fun hnil => List.not_mem_nil (hnil ▸ List.mem_of_mem_drop hitem)
      rw [processed_eq hlt hne, confirmedUpTo_eq (List.ne_nil_of_mem hitem) hlt]
      exact List.mem_append_left _ hmem
    · have hmax : asU32 item.height = 2 ^ 32 - 1 := by
        rw [hneg]
        rfl
      omega
  intro height hheight
  unfold trueRow
  rw [if_neg]
  rw [List.any_eq_true]
  rintro ⟨item', hmem, heq⟩
  exact hnone item' hmem height hheight (of_decide_eq_true heq)

end Processed

section Answers

variable {db : BalanceHistoryDB}

theorem trueRow_of_mem {item : GetHistoryRes} (hmem : item ∈ view.confirmed s) :
    view.trueRow s item.height.toNat = some ⟨view.blockDelta s item.height.toNat,
      view.confirmedBalance s item.height.toNat⟩ := by
  refine if_pos (List.any_eq_true.mpr ⟨item, hmem, decide_eq_true ?_⟩)
  exact (Int.toNat_of_nonneg (view.confirmed_height s item hmem).1).symm

/-- What the true ledger answers at a height with a transaction. -/
theorem answer_confirmed (htrue : view.TrueUpTo s db blockHeight) {item : GetHistoryRes}
    (hmem : item ∈ view.confirmed s) (hle : item.height ≤ blockHeight) :
    db.getBalanceAtBlockHeight s item.height.toNat =
      ⟨item.height.toNat, view.blockDelta s item.height.toNat,
        view.confirmedBalance s item.height.toNat⟩ := by
  have hrow := htrue item.height.toNat (by omega)
  rw [trueRow_of_mem hmem] at hrow
  have hfind : findLast (db.row s) item.height.toNat = some (item.height.toNat,
      ⟨view.blockDelta s item.height.toNat, view.confirmedBalance s item.height.toNat⟩) :=
    (findLast_eq_some _ _ _ _).mpr ⟨le_refl _, hrow, fun j hj hle' => absurd hle' (by omega)⟩
  rw [db.getBalanceAtBlockHeight_eq, hfind]
  rfl

theorem answer_pending (htrue : view.TrueUpTo s db blockHeight) (hlt : blockHeight < 2 ^ 32)
    (hcoinbase : ∀ item ∈ view.processed s blockHeight, ¬ view.client.isCoinbase item.txHash)
    {item : GetHistoryRes} (hitem : item ∈ view.pending s blockHeight)
    (hle : asU32 item.height ≤ blockHeight) :
    db.getBalanceAtBlockHeight s (asU32 item.height) = ⟨0, 0, 0⟩ := by
  have hfind : findLast (db.row s) (asU32 item.height) = none := by
    refine (findLast_eq_none _ _).mpr (fun height hheight => ?_)
    rw [htrue height (hheight.trans hle)]
    exact trueRow_pending hlt hcoinbase hitem hle height hheight
  rw [db.getBalanceAtBlockHeight_eq, hfind]
  rfl

/-- The true ledger answers with the confirmed balance at every height. -/
theorem answer_balance (htrue : view.TrueUpTo s db blockHeight) :
    (db.getBalanceAtBlockHeight s blockHeight).balance = view.confirmedBalance s blockHeight := by
  rw [db.getBalanceAtBlockHeight_eq]
  cases hfind : findLast (db.row s) blockHeight with
  | none =>
    rw [findLast_eq_none] at hfind
    have hnil : view.confirmedUpTo s blockHeight = [] := by
      refine List.filter_eq_nil_iff.mpr (fun item hmem hle => ?_)
      have hheight := of_decide_eq_true hle
      have hrow := hfind item.height.toNat (by omega)
      rw [htrue _ (by omega), trueRow_of_mem hmem] at hrow
      cases hrow
    unfold confirmedBalance
    rw [hnil]
    rfl
  | some found =>
    obtain ⟨height, value⟩ := found
    obtain ⟨hle, hrow, hnone⟩ := (findLast_eq_some _ _ _ _).mp hfind
    have hsame : view.confirmedUpTo s blockHeight = view.confirmedUpTo s height := by
      refine List.filter_congr (fun item hmem => decide_eq_decide.mpr ?_)
      constructor
      · intro hbelow
        by_contra habove
        have hrow' := hnone item.height.toNat (by omega) (by omega)
        rw [htrue _ (by omega), trueRow_of_mem hmem] at hrow'
        cases hrow'
      · intro hbelow
        omega
    rw [htrue height hle] at hrow
    unfold trueRow at hrow
    split at hrow
    · cases hrow
      unfold confirmedBalance
      rw [hsame]
      rfl
    · cases hrow

end Answers

section Checked

theorem entriesFrom_append {balance : Int} {items items' : List GetHistoryRes} :
    view.entriesFrom s balance (items ++ items') = view.entriesFrom s balance items ++
      view.entriesFrom s (balance + view.total s items) items' := by
  induction items generalizing balance with
  | nil => simp [entriesFrom, total]
  | cons item items ih =>
    rw [List.cons_append, entriesFrom, entriesFrom, ih, total_cons, add_assoc]
    rfl

theorem Checkable.entry_confirmed (h : view.Checkable s blockHeight)
    {pre post : List GetHistoryRes} {item : GetHistoryRes}
    (hsplit : view.confirmed s = pre ++ item :: post) (hle : item.height ≤ blockHeight) :
    view.entryAt s (0 + view.total s pre) item =
      ⟨item.height.toNat, view.blockDelta s item.height.toNat,
        view.confirmedBalance s item.height.toNat⟩ := by
  have hone := h.onePerBlock
  rw [hsplit, List.pairwise_append, List.pairwise_cons] at hone
  obtain ⟨-, ⟨hafter, -⟩, hcross⟩ := hone
  obtain ⟨hdelta, hbalance⟩ := split_ledger hsplit
    (fun a ha heq => (hcross a ha item (by simp) heq (heq ▸ hle)).1)
    (fun a ha heq => (hafter a ha heq.symm hle).2)
  obtain ⟨hge, hlt⟩ := view.confirmed_height s item (by rw [hsplit]; simp)
  unfold entryAt
  rw [hdelta, hbalance, asU32_of_nonneg hge hlt, zero_add]

theorem Checkable.total_pending (h : view.Checkable s blockHeight)
    {pre post : List GetHistoryRes} (hsplit : view.pending s blockHeight = pre ++ post) :
    view.total s pre = 0 :=
  total_eq_zero (fun item hmem => (h.pendingZero item (by rw [hsplit]; simp [hmem])).2.1)

/-- In a history that can be checked, the entries are the rows of the true ledger, and rows
of no balance at the heights of the mempool. -/
theorem Checkable.mem_entries (h : view.Checkable s blockHeight) (hlt : blockHeight < 2 ^ 32)
    {data : BalanceHistoryData} :
    data ∈ view.entriesFrom s 0 (view.processed s blockHeight) ↔
      (∃ item ∈ view.confirmed s, item.height ≤ blockHeight ∧
        data = ⟨item.height.toNat, view.blockDelta s item.height.toNat,
          view.confirmedBalance s item.height.toNat⟩) ∨
      ∃ item ∈ view.pending s blockHeight, data = ⟨asU32 item.height, 0, 0⟩ := by
  rw [processed_eq hlt h.nonempty, entriesFrom_append, List.mem_append]
  refine or_congr ?_ ?_
  · obtain ⟨rest, hrest⟩ := view.confirmed_split s blockHeight
    rw [mem_entriesFrom]
    constructor
    · rintro ⟨pre, item, post, hsplit, rfl⟩
      have hmem : item ∈ view.confirmedUpTo s blockHeight := by
        rw [hsplit]
        simp
      obtain ⟨hconfirmed, hle⟩ := List.mem_filter.mp hmem
      rw [hsplit, List.append_assoc] at hrest
      exact ⟨item, hconfirmed, of_decide_eq_true hle,
        h.entry_confirmed hrest (of_decide_eq_true hle)⟩
    · rintro ⟨item, hconfirmed, hle, rfl⟩
      have hmem : item ∈ view.confirmedUpTo s blockHeight :=
        List.mem_filter.mpr ⟨hconfirmed, decide_eq_true hle⟩
      obtain ⟨pre, post, hsplit⟩ := List.append_of_mem hmem
      rw [hsplit, List.append_assoc] at hrest
      exact ⟨pre, item, post, hsplit, (h.entry_confirmed hrest hle).symm⟩
  · have hentry : ∀ pre item post, view.pending s blockHeight = pre ++ item :: post →
        view.entryAt s (0 + view.total s (view.confirmedUpTo s blockHeight) + view.total s pre)
          item = ⟨asU32 item.height, 0, 0⟩ := by
      intro pre item post hsplit
      obtain ⟨-, hdelta, htotal⟩ := h.pendingZero item (by rw [hsplit]; simp)
      rw [← confirmedUpTo_eq (by rw [hsplit]; simp) hlt] at htotal
      unfold entryAt
      rw [hdelta, htotal, h.total_pending hsplit]
      rfl
    rw [mem_entriesFrom]
    constructor
    · rintro ⟨pre, item, post, hsplit, rfl⟩
      exact ⟨item, by rw [hsplit]; simp, hentry pre item post hsplit⟩
    · rintro ⟨item, hmem, rfl⟩
      obtain ⟨pre, post, hsplit⟩ := List.append_of_mem hmem
      exact ⟨pre, item, post, hsplit, (hentry pre item post hsplit).symm⟩

/-- No running balance of a history that can be checked is out of bounds. -/
theorem Checkable.running (h : view.Checkable s blockHeight) (hlt : blockHeight < 2 ^ 32)
    {pre post : List GetHistoryRes} (hsplit : view.processed s blockHeight = pre ++ post) :
    0 ≤ view.total s pre ∧ view.total s pre ≤ maxMoney := by
  obtain ⟨rest, hrest⟩ := view.confirmed_split s blockHeight
  rw [processed_eq hlt h.nonempty, List.append_eq_append_iff] at hsplit
  rcases hsplit with ⟨tail, rfl, hpending⟩ | ⟨tail, hconfirmed, -⟩
  · rw [total_append, h.total_pending hpending, add_zero]
    exact view.funded s _ rest hrest
  · rw [hconfirmed, List.append_assoc] at hrest
    exact view.funded s pre _ hrest

theorem Checkable.calcState_ok (h : view.Checkable s blockHeight) (hlt : blockHeight < 2 ^ 32) :
    ∃ scriptBuf, scriptBuf.usdbScriptHash = s ∧ view.client.calcState s blockHeight =
      .ok (⟨view.total s (view.processed s blockHeight), some scriptBuf,
        view.entriesFrom s 0 (view.processed s blockHeight)⟩, scriptBuf) := by
  have hstart : FoundScript s False CalcState.start.scriptBuf :=
    ⟨iff_of_false Bool.false_ne_true not_false, fun _ hmem => (nomatch hmem)⟩
  obtain ⟨scriptBuf, hrun, hsome, hscript⟩ := calcLoop_run (fun item hmem => hmem) hstart h.noCoinbase (fun pre post hsplit => by
      rw [show CalcState.start.balance = 0 from rfl, zero_add]
      exact h.running hlt hsplit)
  obtain ⟨script, rfl⟩ := Option.isSome_iff_exists.mp (hsome.mpr (.inr h.nonempty))
  refine ⟨script, hscript script rfl, ?_⟩
  unfold ElectrsClient.calcState
  rw [view.getHistory_eq]
  show (view.client.calcLoop s blockHeight (view.history s) .start >>= _) = _
  rw [hrun]
  show Except.ok _ = _
  rw [show CalcState.start.balance = 0 from rfl, zero_add]
  rfl

theorem Checkable.total_processed (h : view.Checkable s blockHeight)
    (hlt : blockHeight < 2 ^ 32) :
    (view.total s (view.processed s blockHeight)).toNat = view.confirmedBalance s blockHeight := by
  rw [processed_eq hlt h.nonempty, total_append, h.total_pending (List.append_nil _).symm, add_zero]
  rfl

end Checked

end ElectrumView

end Usdb.Balances
