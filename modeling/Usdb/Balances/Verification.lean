import Mathlib.Algebra.Order.BigOperators.Group.List
import Mathlib.Data.List.Infix
import Usdb.Balances.VerifyRuns

namespace Usdb.Balances

open Framework BalanceHistoryDB

/-- An `Err` that is no panic. -/
def Rejects (result : Except VerifyError Unit) : Prop := ∃ e, result = .error e ∧ e ≠ .panic

/-- What a verifier promises about a store, for the script hashes of a class. -/
structure SoundComplete (view : ElectrumView) (among : USDBScriptHash → Prop) (blockHeight : Nat)
    (verifier : BalanceHistoryVerifier) : Prop where
  completeAddress : ∀ s, among s → view.TrueUpTo s verifier.db blockHeight →
    verifier.verifyAddressAtHeight s blockHeight = .ok ()
  soundAddress : ∀ s, among s → ∀ item ∈ view.confirmed s, item.height ≤ blockHeight →
    (verifier.db.getBalanceAtBlockHeight s item.height.toNat).balance ≠
        view.confirmedBalance s item.height.toNat ∨
      (verifier.db.getBalanceAtBlockHeight s item.height.toNat).delta ≠
        view.blockDelta s item.height.toNat →
    Rejects (verifier.verifyAddressAtHeight s blockHeight)
  completeAll : (∀ s, among s → view.TrueUpTo s verifier.db blockHeight) →
    ∀ start, verifier.verifyAtHeight blockHeight start = .ok ()
  soundAll : ∀ (start : Option USDBScriptHash) s, (∀ first ∈ start, s ≤ first) →
    0 < (verifier.db.getBalanceAtBlockHeight s blockHeight).balance →
    (verifier.db.getBalanceAtBlockHeight s blockHeight).balance ≠
      view.confirmedBalance s blockHeight →
    Rejects (verifier.verifyAtHeight blockHeight start)

/-- A store with rows of the script hashes of a class only. -/
def RowsAmong (among : USDBScriptHash → Prop) (db : BalanceHistoryDB) : Prop :=
  ∀ row ∈ db.balanceHistory.toList, among row.1.scriptHash

namespace BalanceHistoryVerifier

variable {view : ElectrumView} {among : USDBScriptHash → Prop} {blockHeight : Nat}
  {verifier : BalanceHistoryVerifier} {s : USDBScriptHash}

theorem checkEntry_ok {data : BalanceHistoryData} :
    verifier.checkEntry s data = .ok () ↔
      (verifier.db.getBalanceAtBlockHeight s data.blockHeight).balance = data.balance ∧
        (verifier.db.getBalanceAtBlockHeight s data.blockHeight).delta = data.delta := by
  unfold checkEntry
  by_cases h : (verifier.db.getBalanceAtBlockHeight s data.blockHeight).balance ≠ data.balance ∨
      (verifier.db.getBalanceAtBlockHeight s data.blockHeight).delta ≠ data.delta
  · rw [if_pos h]
    refine iff_of_false (fun hok => (nomatch hok)) ?_
    rintro ⟨hbalance, hdelta⟩
    rcases h with h | h
    · exact h hbalance
    · exact h hdelta
  · rw [if_neg h]
    rw [not_or, not_not, not_not] at h
    exact iff_of_true rfl h

theorem checkEntry_cases (data : BalanceHistoryData) :
    verifier.checkEntry s data = .ok () ∨
      ∃ e, verifier.checkEntry s data = .error e ∧ e ≠ .panic := by
  unfold checkEntry
  dsimp only
  split
  · exact .inr ⟨_, rfl, fun h => (nomatch h)⟩
  · exact .inl rfl

theorem verifyAddressAtHeight_checks (hclient : verifier.electrsClient = view.client)
    (haddress : ∀ script, script.usdbScriptHash = s → verifier.hasAddress script)
    (h : view.Checkable s blockHeight) (hlt : blockHeight < 2 ^ 32) :
    verifier.verifyAddressAtHeight s blockHeight =
      (view.entriesFrom s 0 (view.processed s blockHeight)).foldlM
        (fun _ data => verifier.checkEntry s data) () := by
  obtain ⟨scriptBuf, hscript, hcalc⟩ := h.calcState_ok hlt
  unfold verifyAddressAtHeight ElectrsClient.calcBalanceHistory
  rw [hclient, hcalc]
  exact if_pos (haddress scriptBuf hscript)

theorem verifyAddressBalanceAtHeight_eq (hclient : verifier.electrsClient = view.client)
    (haddress : ∀ script, script.usdbScriptHash = s → verifier.hasAddress script)
    (h : view.Checkable s blockHeight) (hlt : blockHeight < 2 ^ 32) (balance : Nat) :
    verifier.verifyAddressBalanceAtHeight s blockHeight balance =
      if view.confirmedBalance s blockHeight ≠ balance then
        .error (.balanceMismatch s blockHeight balance (view.confirmedBalance s blockHeight))
      else .ok () := by
  obtain ⟨scriptBuf, hscript, hcalc⟩ := h.calcState_ok hlt
  unfold verifyAddressBalanceAtHeight ElectrsClient.calcBalance
  rw [hclient, hcalc]
  show (if verifier.hasAddress scriptBuf then
    (if (view.total s (view.processed s blockHeight)).toNat ≠ balance then _ else _) else _) = _
  rw [if_pos (haddress scriptBuf hscript), h.total_processed hlt]

/-- What a verification of one address that returns `Ok` has seen. -/
theorem verifyAddressAtHeight_ok (hclient : verifier.electrsClient = view.client)
    (hok : verifier.verifyAddressAtHeight s blockHeight = .ok ()) :
    view.processed s blockHeight ≠ [] ∧
      (∀ item ∈ view.processed s blockHeight, ¬ view.client.isCoinbase item.txHash) ∧
      ∀ data ∈ view.entriesFrom s 0 (view.processed s blockHeight),
        (verifier.db.getBalanceAtBlockHeight s data.blockHeight).balance = data.balance ∧
          (verifier.db.getBalanceAtBlockHeight s data.blockHeight).delta = data.delta := by
  unfold verifyAddressAtHeight ElectrsClient.calcBalanceHistory ElectrsClient.calcState at hok
  rw [hclient, view.getHistory_eq] at hok
  obtain ⟨⟨result, scriptBuf⟩, hcalc, hok⟩ := bind_eq_ok_iff.mp hok
  cases hloop : view.client.calcLoop s blockHeight (view.history s) .start with
  | error e =>
    change Except.map _ (view.client.calcLoop s blockHeight (view.history s) .start >>= _) = _
      at hcalc
    rw [hloop] at hcalc
    cases hcalc
  | ok state =>
    change Except.map _ (view.client.calcLoop s blockHeight (view.history s) .start >>= _) = _
      at hcalc
    rw [hloop] at hcalc
    obtain ⟨hcoinbase, hresult, hnil⟩ := ElectrumView.calcLoop_ok (fun _ hmem => hmem) hloop
    refine ⟨?_, hcoinbase, ?_⟩
    · intro hempty
      rw [hnil hempty] at hcalc
      cases hcalc
    · have hentries : result = view.entriesFrom s 0 (view.processed s blockHeight) := by
        rw [show view.entriesFrom s 0 (view.processed s blockHeight) = state.result from
          hresult.symm]
        cases hscript : state.scriptBuf with
        | none =>
          simp only [bind, Except.bind, hscript] at hcalc
          cases hcalc
        | some script =>
          simp only [bind, Except.bind, hscript] at hcalc
          cases hcalc
          rfl
      rw [← hentries]
      dsimp only at hok
      split at hok
      · intro data hmem
        exact checkEntry_ok.mp (foldlM_check_ok.mp hok data hmem)
      · cases hok

section Checkable

variable (hclient : verifier.electrsClient = view.client)
  (haddress : ∀ script : ScriptBuf, among script.usdbScriptHash → verifier.hasAddress script)
  (hcheckable : ∀ s, among s → view.Checkable s blockHeight) (hlt : blockHeight < 2 ^ 32)

include hclient haddress hcheckable hlt

theorem verifyAddressAtHeight_complete (hs : among s)
    (htrue : view.TrueUpTo s verifier.db blockHeight) :
    verifier.verifyAddressAtHeight s blockHeight = .ok () := by
  have h := hcheckable s hs
  rw [verifyAddressAtHeight_checks hclient (fun script heq => haddress script (heq ▸ hs)) h hlt,
    foldlM_check_ok]
  intro data hmem
  rw [checkEntry_ok]
  rcases (h.mem_entries hlt).mp hmem with ⟨item, hconfirmed, hle, rfl⟩ | ⟨item, hpending, rfl⟩
  · rw [ElectrumView.answer_confirmed htrue hconfirmed hle]
    exact ⟨rfl, rfl⟩
  · rw [ElectrumView.answer_pending htrue hlt h.noCoinbase hpending
      (h.pendingZero item hpending).1]
    exact ⟨rfl, rfl⟩

theorem verifyAddressAtHeight_sound (hs : among s) {item : GetHistoryRes}
    (hconfirmed : item ∈ view.confirmed s) (hle : item.height ≤ blockHeight)
    (hwrong : (verifier.db.getBalanceAtBlockHeight s item.height.toNat).balance ≠
        view.confirmedBalance s item.height.toNat ∨
      (verifier.db.getBalanceAtBlockHeight s item.height.toNat).delta ≠
        view.blockDelta s item.height.toNat) :
    Rejects (verifier.verifyAddressAtHeight s blockHeight) := by
  have h := hcheckable s hs
  rw [verifyAddressAtHeight_checks hclient (fun script heq => haddress script (heq ▸ hs)) h hlt]
  refine foldlM_check_error (fun data _ => checkEntry_cases data)
    ⟨_, (h.mem_entries hlt).mpr (.inl ⟨item, hconfirmed, hle, rfl⟩), ?_⟩
  rw [Ne, checkEntry_ok]
  rintro ⟨hbalance, hdelta⟩
  rcases hwrong with hwrong | hwrong
  · exact hwrong hbalance
  · exact hwrong hdelta

omit haddress hcheckable hlt hclient in
/-- A script hash with a balance has a row. -/
theorem among_of_answer (hrows : RowsAmong among verifier.db) {data : BalanceHistoryData}
    (hpos : 0 < data.balance)
    (hanswer : verifier.db.getBalanceAtBlockHeight s blockHeight = data) : among s := by
  subst hanswer
  rw [verifier.db.getBalanceAtBlockHeight_eq] at hpos
  cases hfind : findLast (verifier.db.row s) blockHeight with
  | none =>
    rw [hfind] at hpos
    cases hpos
  | some found =>
    obtain ⟨-, hrow, -⟩ := (findLast_eq_some _ _ found.1 found.2).mp hfind
    exact hrows (⟨s, found.1⟩, found.2) (Table.mem_toList.mpr hrow)

/-- The verification at a height checks the balance of each script hash that has one. -/
theorem verifyAtHeight_checks (hrows : RowsAmong among verifier.db)
    (hfit : verifier.db.HeightsFit) (start : Option USDBScriptHash) :
    ∃ entries : List BalanceHistoryEntry,
      verifier.verifyAtHeight blockHeight start = entries.foldlM (fun _ entry =>
        verifier.verifyAddressBalanceAtHeight entry.scriptHash blockHeight entry.balance) () ∧
      (∀ entry ∈ entries, verifier.verifyAddressBalanceAtHeight entry.scriptHash blockHeight
          entry.balance = if view.confirmedBalance entry.scriptHash blockHeight ≠ entry.balance then
            .error (.balanceMismatch entry.scriptHash blockHeight entry.balance
              (view.confirmedBalance entry.scriptHash blockHeight))
          else .ok ()) ∧
      VisitsAtHeight verifier.db blockHeight
        (fun scriptHash => ∀ first ∈ start, scriptHash ≤ first) entries := by
  obtain ⟨batches, htraverse, hbatch, hvisits⟩ :=
    BalanceHistoryDB.traverseAtHeight_visits hfit start blockHeight Nat.one_pos
  have hsingle : ∀ batch ∈ batches, ∃ entry, batch = [entry] := by
    intro batch hmem
    obtain ⟨hne, hlen⟩ := hbatch batch hmem
    rcases batch with - | ⟨entry, - | ⟨second, rest⟩⟩
    · exact absurd rfl hne
    · exact ⟨entry, rfl⟩
    · simp only [List.length_cons] at hlen
      omega
  refine ⟨batches.flatten, ?_, ?_, hvisits⟩
  · unfold verifyAtHeight
    rw [htraverse]
    clear htraverse hbatch hvisits
    induction batches with
    | nil => rfl
    | cons batch batches ih =>
      obtain ⟨entry, rfl⟩ := hsingle batch (by simp)
      rw [List.foldlM_cons, List.flatten_cons, List.singleton_append, List.foldlM_cons]
      exact bind_congr (fun _ => ih (fun batch hmem => hsingle batch (by simp [hmem])))
  · intro entry hmem
    obtain ⟨-, hpos, hanswer⟩ := (hvisits.mem entry).mp hmem
    have hs : among entry.scriptHash := among_of_answer hrows hpos hanswer
    exact verifyAddressBalanceAtHeight_eq hclient
      (fun script heq => haddress script (heq ▸ hs)) (hcheckable _ hs) hlt entry.balance

theorem verifyAtHeight_complete (hrows : RowsAmong among verifier.db)
    (hfit : verifier.db.HeightsFit)
    (htrue : ∀ s, among s → view.TrueUpTo s verifier.db blockHeight)
    (start : Option USDBScriptHash) : verifier.verifyAtHeight blockHeight start = .ok () := by
  obtain ⟨entries, heq, hcheck, hvisits⟩ :=
    verifyAtHeight_checks hclient haddress hcheckable hlt hrows hfit start
  rw [heq, foldlM_check_ok]
  intro entry hmem
  obtain ⟨-, hpos, hanswer⟩ := (hvisits.mem entry).mp hmem
  have hs : among entry.scriptHash := among_of_answer hrows hpos hanswer
  have hbalance := ElectrumView.answer_balance (htrue _ hs)
  rw [hanswer] at hbalance
  rw [hcheck entry hmem, if_neg (not_not_intro hbalance.symm)]

theorem verifyAtHeight_sound (hrows : RowsAmong among verifier.db)
    (hfit : verifier.db.HeightsFit) {start : Option USDBScriptHash}
    (hstart : ∀ first ∈ start, s ≤ first)
    (hpos : 0 < (verifier.db.getBalanceAtBlockHeight s blockHeight).balance)
    (hwrong : (verifier.db.getBalanceAtBlockHeight s blockHeight).balance ≠
      view.confirmedBalance s blockHeight) :
    Rejects (verifier.verifyAtHeight blockHeight start) := by
  obtain ⟨entries, heq, hcheck, hvisits⟩ :=
    verifyAtHeight_checks hclient haddress hcheckable hlt hrows hfit start
  let answer := verifier.db.getBalanceAtBlockHeight s blockHeight
  have hmem : (⟨s, answer.blockHeight, answer.delta, answer.balance⟩ : BalanceHistoryEntry) ∈
      entries := (hvisits.mem _).mpr ⟨hstart, hpos, rfl⟩
  rw [heq]
  refine foldlM_check_error (fun entry hentry => ?_) ⟨_, hmem, ?_⟩
  · rw [hcheck entry hentry]
    split
    · exact .inr ⟨_, rfl, fun h => (nomatch h)⟩
    · exact .inl rfl
  · rw [hcheck _ hmem, if_pos hwrong.symm]
    exact fun h => (nomatch h)

/-- A view that can be checked is checked soundly and completely. -/
theorem soundComplete_of_checkable (hrows : RowsAmong among verifier.db)
    (hfit : verifier.db.HeightsFit) : SoundComplete view among blockHeight verifier where
  completeAddress _ hs htrue :=
    verifyAddressAtHeight_complete hclient haddress hcheckable hlt hs htrue
  soundAddress _ hs _ hconfirmed hle hwrong :=
    verifyAddressAtHeight_sound hclient haddress hcheckable hlt hs hconfirmed hle hwrong
  completeAll htrue start :=
    verifyAtHeight_complete hclient haddress hcheckable hlt hrows hfit htrue start
  soundAll _ _ hstart hpos hwrong :=
    verifyAtHeight_sound hclient haddress hcheckable hlt hrows hfit hstart hpos hwrong

end Checkable

end BalanceHistoryVerifier

namespace ElectrumView

variable (view : ElectrumView) (s : USDBScriptHash) (blockHeight : Nat) (delta : Int)

section LedgerStore

/-- The rows of the true ledger up to a height, and one row above it. -/
def ledgerRows : List (BalanceKey × BalanceValue) :=
  (view.confirmedUpTo s blockHeight).map (fun item => (⟨s, item.height.toNat⟩,
    ⟨view.blockDelta s item.height.toNat, view.confirmedBalance s item.height.toNat⟩)) ++
  if blockHeight + 1 < 2 ^ 32 then [(⟨s, blockHeight + 1⟩, ⟨delta, 0⟩)] else []

def ledgerStore : BalanceHistoryDB :=
  { BalanceHistoryDB.empty with
    balanceHistory := (∅ : Table BalanceKey BalanceValue).insertMany
      (view.ledgerRows s blockHeight delta) }

variable {view s blockHeight delta}

theorem mem_ledgerRows {row : BalanceKey × BalanceValue}
    (h : row ∈ view.ledgerRows s blockHeight delta) :
    row.1.scriptHash = s ∧
      ((row.1.blockHeight ≤ blockHeight ∧ view.trueRow s row.1.blockHeight = some row.2) ∨
        (row.1.blockHeight = blockHeight + 1 ∧ blockHeight + 1 < 2 ^ 32 ∧ row.2 = ⟨delta, 0⟩)) := by
  unfold ledgerRows at h
  rcases List.mem_append.mp h with h | h
  · obtain ⟨item, hmem, rfl⟩ := List.mem_map.mp h
    obtain ⟨hconfirmed, hle⟩ := List.mem_filter.mp hmem
    have hheight := of_decide_eq_true hle
    exact ⟨rfl, .inl ⟨by dsimp only; omega, trueRow_of_mem hconfirmed⟩⟩
  · split at h
    · next hroom =>
      rw [List.mem_singleton] at h
      subst h
      exact ⟨rfl, .inr ⟨rfl, hroom, rfl⟩⟩
    · cases h

variable (view s blockHeight delta) in
theorem ledgerStore_cases (height : Nat) :
    (∃ value, (BalanceKey.mk s height, value) ∈ view.ledgerRows s blockHeight delta ∧
        (view.ledgerStore s blockHeight delta).row s height = some value) ∨
      (BalanceKey.mk s height ∉ (view.ledgerRows s blockHeight delta).map (·.1) ∧
        (view.ledgerStore s blockHeight delta).row s height = none) := by
  rcases Table.getElem?_insertMany_cases (∅ : Table BalanceKey BalanceValue)
    (view.ledgerRows s blockHeight delta) ⟨s, height⟩ with h | ⟨hnot, hget⟩
  · exact .inl h
  · exact .inr ⟨hnot, hget.trans (by simp)⟩

variable (view s blockHeight delta) in
theorem ledgerStore_true : view.TrueUpTo s (view.ledgerStore s blockHeight delta) blockHeight := by
  intro height hle
  rcases ledgerStore_cases view s blockHeight delta height with ⟨value, hmem, hget⟩ | ⟨hnot, hget⟩
  · rcases (mem_ledgerRows hmem).2 with ⟨-, hrow⟩ | ⟨habove, -⟩
    · rw [hget, hrow]
    · dsimp only at habove
      omega
  · rw [hget]
    symm
    refine if_neg (fun hany => hnot ?_)
    obtain ⟨item, hconfirmed, heq⟩ := List.any_eq_true.mp hany
    have hheight := of_decide_eq_true heq
    refine List.mem_map.mpr ⟨_, List.mem_append_left _ (List.mem_map.mpr ⟨item,
      List.mem_filter.mpr ⟨hconfirmed, decide_eq_true (by omega)⟩, rfl⟩), ?_⟩
    rw [hheight]
    rfl

theorem ledgerStore_mem {row : BalanceKey × BalanceValue}
    (h : row ∈ (view.ledgerStore s blockHeight delta).balanceHistory.toList) :
    row ∈ view.ledgerRows s blockHeight delta := by
  obtain ⟨key, value⟩ := row
  have hget := Table.mem_toList.mp h
  rcases Table.getElem?_insertMany_cases (∅ : Table BalanceKey BalanceValue)
    (view.ledgerRows s blockHeight delta) key with ⟨value', hmem, hget'⟩ | ⟨-, hget'⟩
  · rw [show (view.ledgerStore s blockHeight delta).balanceHistory[key]? = some value' from hget']
      at hget
    cases hget
    exact hmem
  · rw [show (view.ledgerStore s blockHeight delta).balanceHistory[key]? = _ from hget'] at hget
    simp at hget

theorem ledgerStore_heightsFit (hlt : blockHeight < 2 ^ 32) :
    (view.ledgerStore s blockHeight delta).HeightsFit := by
  intro row hmem
  rcases (mem_ledgerRows (ledgerStore_mem hmem)).2 with ⟨hle, -⟩ | ⟨heq, hroom, -⟩
  · omega
  · rw [heq]
    exact hroom

theorem ledgerStore_rowsAmong {among : USDBScriptHash → Prop} (hs : among s) :
    RowsAmong among (view.ledgerStore s blockHeight delta) := by
  intro row hmem
  rw [(mem_ledgerRows (ledgerStore_mem hmem)).1]
  exact hs

/-- Above the height the store answers with the row that nothing is known of. -/
theorem ledgerStore_above {height : Nat} (hlt : blockHeight < height) (hfit : height < 2 ^ 32) :
    ((view.ledgerStore s blockHeight delta).getBalanceAtBlockHeight s height).delta = delta := by
  have hroom : blockHeight + 1 < 2 ^ 32 := by omega
  have hrow : (view.ledgerStore s blockHeight delta).row s (blockHeight + 1) =
      some ⟨delta, 0⟩ := by
    rcases ledgerStore_cases view s blockHeight delta (blockHeight + 1) with ⟨value, hmem, hget⟩ | ⟨hnot, -⟩
    · rcases (mem_ledgerRows hmem).2 with ⟨hle, -⟩ | ⟨-, -, rfl⟩
      · dsimp only at hle
        omega
      · exact hget
    · refine absurd ?_ hnot
      unfold ledgerRows
      rw [if_pos hroom]
      simp
  have hfind : findLast ((view.ledgerStore s blockHeight delta).row s) height =
      some (blockHeight + 1, ⟨delta, 0⟩) := by
    refine (findLast_eq_some _ _ _ _).mpr ⟨hlt, hrow, fun k hk _ => ?_⟩
    rcases ledgerStore_cases view s blockHeight delta k with ⟨value, hmem, -⟩ | ⟨-, hget⟩
    · rcases (mem_ledgerRows hmem).2 with ⟨hle, -⟩ | ⟨heq, -⟩
      · dsimp only at hle
        omega
      · dsimp only at heq
        omega
    · exact hget
  rw [BalanceHistoryDB.getBalanceAtBlockHeight_eq, hfind]
  rfl

end LedgerStore

section Converse

variable {view s blockHeight}

theorem mem_entries_split {pre post : List GetHistoryRes} {item : GetHistoryRes}
    (hsplit : view.processed s blockHeight = pre ++ item :: post) :
    view.entryAt s (view.total s pre) item ∈ view.entriesFrom s 0 (view.processed s blockHeight) :=
  mem_entriesFrom.mpr ⟨pre, item, post, hsplit, by rw [zero_add]⟩

/-- A script hash whose true ledger is accepted, whatever is above it, can be checked. -/
theorem checkable_of_complete (hasAddress : ScriptBuf → Bool) (hlt : blockHeight < 2 ^ 32)
    (h : ∀ delta, (BalanceHistoryVerifier.mk hasAddress view.client
      (view.ledgerStore s blockHeight delta)).verifyAddressAtHeight s blockHeight = .ok ()) :
    view.Checkable s blockHeight := by
  obtain ⟨hne, hcoinbase, -⟩ := BalanceHistoryVerifier.verifyAddressAtHeight_ok rfl (h 0)
  have hmatch : ∀ delta, ∀ data ∈ view.entriesFrom s 0 (view.processed s blockHeight),
      ((view.ledgerStore s blockHeight delta).getBalanceAtBlockHeight s
          data.blockHeight).balance = data.balance ∧
        ((view.ledgerStore s blockHeight delta).getBalanceAtBlockHeight s
          data.blockHeight).delta = data.delta :=
    fun delta => (BalanceHistoryVerifier.verifyAddressAtHeight_ok rfl (h delta)).2.2
  have htrue := ledgerStore_true view s blockHeight
  have hprocessed := processed_eq hlt hne
  refine ⟨hne, hcoinbase, onePerBlock_of_ledger ?_, ?_⟩
  · intro pre item post hsplit hle
    have hmem : item ∈ view.confirmed s := by
      rw [hsplit]
      simp
    obtain ⟨hge, hbound⟩ := view.confirmed_height s item hmem
    have hsorted := view.confirmed_sorted s
    rw [hsplit, List.pairwise_append] at hsorted
    have hpre : ∀ item' ∈ pre, item'.height ≤ (blockHeight : Int) := fun item' hmem' =>
      (hsorted.2.2 item' hmem' item (by simp)).trans hle
    have hupTo : view.confirmedUpTo s blockHeight =
        pre ++ item :: post.filter (fun item => item.height ≤ blockHeight) := by
      unfold confirmedUpTo
      rw [hsplit, List.filter_append, List.filter_cons_of_pos (by simpa using hle),
        List.filter_eq_self.mpr (fun item' hmem' => decide_eq_true (hpre item' hmem'))]
    rw [hupTo, List.append_assoc] at hprocessed
    obtain ⟨hbalance, hdelta⟩ := hmatch 0 _ (mem_entries_split hprocessed)
    have hanswer := answer_confirmed (htrue 0) hmem hle
    unfold entryAt at hbalance hdelta
    rw [asU32_of_nonneg hge hbound, hanswer] at hbalance hdelta
    exact ⟨hdelta.symm, hbalance.symm⟩
  · have hentry : ∀ pre item post, view.pending s blockHeight = pre ++ item :: post →
        asU32 item.height ≤ blockHeight ∧ view.delta s item = 0 ∧
          (view.total s (view.confirmed s) + view.total s pre + view.delta s item).toNat = 0 := by
      intro pre item post hsplit
      have hmem : item ∈ view.pending s blockHeight := by
        rw [hsplit]
        simp
      rw [confirmedUpTo_eq (List.ne_nil_of_mem hmem) hlt, hsplit, ← List.append_assoc]
        at hprocessed
      have hle : asU32 item.height ≤ blockHeight := by
        by_contra hgt
        have hfit : asU32 item.height < 2 ^ 32 := by
          unfold asU32
          omega
        have hdelta := fun delta => (hmatch delta _ (mem_entries_split hprocessed)).2
        have hzero := hdelta 0
        have hone := hdelta 1
        unfold entryAt at hzero hone
        rw [ledgerStore_above (not_le.mp hgt) hfit] at hzero hone
        rw [← hone] at hzero
        cases hzero
      obtain ⟨hbalance, hdelta⟩ := hmatch 0 _ (mem_entries_split hprocessed)
      have hanswer := answer_pending (htrue 0) hlt hcoinbase hmem hle
      unfold entryAt at hbalance hdelta
      rw [hanswer] at hbalance hdelta
      rw [total_append] at hbalance
      exact ⟨hle, hdelta.symm, hbalance.symm⟩
    intro item hmem
    obtain ⟨pre, post, hsplit⟩ := List.append_of_mem hmem
    obtain ⟨hle, hdelta, hsum⟩ := hentry pre item post hsplit
    have hpre : view.total s pre = 0 := by
      refine total_eq_zero (fun item' hmem' => ?_)
      obtain ⟨pre', post', rfl⟩ := List.append_of_mem hmem'
      rw [List.append_assoc] at hsplit
      exact (hentry pre' item' _ hsplit).2.1
    have hnonneg := (view.funded s (view.confirmed s) [] (List.append_nil _).symm).1
    change 0 ≤ view.total s (view.confirmed s) at hnonneg
    refine ⟨hle, hdelta, ?_⟩
    omega

end Converse

end ElectrumView

/-- The verifier is sound and complete on every store of script hashes with addresses if
and only if each of these script hashes can be checked at the height. -/
theorem verifier_soundComplete_iff (view : ElectrumView) (hasAddress : ScriptBuf → Bool)
    (among : USDBScriptHash → Prop)
    (haddress : ∀ script : ScriptBuf, among script.usdbScriptHash → hasAddress script)
    {blockHeight : Nat} (hlt : blockHeight < 2 ^ 32) :
    (∀ db : BalanceHistoryDB, db.HeightsFit → RowsAmong among db →
      SoundComplete view among blockHeight ⟨hasAddress, view.client, db⟩) ↔
      ∀ s, among s → view.Checkable s blockHeight := by
  constructor
  · intro h s hs
    refine ElectrumView.checkable_of_complete hasAddress hlt (fun delta => ?_)
    exact (h (view.ledgerStore s blockHeight delta) (ElectrumView.ledgerStore_heightsFit hlt)
      (ElectrumView.ledgerStore_rowsAmong hs)).completeAddress s hs
      (view.ledgerStore_true s blockHeight delta)
  · intro h db hfit hrows
    exact BalanceHistoryVerifier.soundComplete_of_checkable rfl haddress h hlt hrows hfit

section Sample

def samplePay (scriptHash : USDBScriptHash) (value : Nat) : TxOut := ⟨value, ⟨scriptHash, false⟩⟩

/-- A coinbase pays script hash 7, which pays script hash 3 twice and 8 once in one block. -/
def sampleTransactions : List Transaction := [
  { txid := 9, isCoinbase := true, input := [⟨0, 0⟩], output := [samplePay 7 14, samplePay 7 20] },
  { txid := 1, isCoinbase := false, input := [⟨9, 0⟩], output := [samplePay 3 10, samplePay 8 4] },
  { txid := 2, isCoinbase := false, input := [⟨9, 1⟩], output := [samplePay 3 20] }]

def sampleClient (histories : USDBScriptHash → List GetHistoryRes) : ElectrsClient where
  getHistory s := some (histories s)
  transactionGet txid := sampleTransactions.find? (fun tx => tx.txid = txid)

def sampleConfirmed (s : USDBScriptHash) : List GetHistoryRes :=
  if s = 3 then [⟨5, 1⟩, ⟨5, 2⟩]
  else if s = 7 then [⟨1, 9⟩, ⟨5, 1⟩, ⟨5, 2⟩]
  else if s = 8 then [⟨5, 1⟩]
  else []

theorem paidTo_le (s : USDBScriptHash) (outs : List TxOut) :
    paidTo s outs ≤ (outs.map (·.value)).sum := by
  unfold paidTo
  exact List.Sublist.sum_le_sum (List.filter_sublist.map _) (fun _ _ => Nat.zero_le _)

/-- A property of every script hash, when it holds of the three and of an empty history. -/
theorem sampleConfirmed_cases {P : USDBScriptHash → List GetHistoryRes → Prop}
    (h3 : P 3 [⟨5, 1⟩, ⟨5, 2⟩]) (h7 : P 7 [⟨1, 9⟩, ⟨5, 1⟩, ⟨5, 2⟩]) (h8 : P 8 [⟨5, 1⟩])
    (hnil : ∀ s, P s []) (s : USDBScriptHash) : P s (sampleConfirmed s) := by
  unfold sampleConfirmed
  split
  · next heq => exact heq ▸ h3
  · split
    · next heq => exact heq ▸ h7
    · split
      · next heq => exact heq ▸ h8
      · exact hnil s

theorem sampleAmounts (txid : Txid) (s : USDBScriptHash) :
    paidTo s ((sampleClient sampleConfirmed).fullItem txid).vin ≤ maxMoney ∧
      paidTo s ((sampleClient sampleConfirmed).fullItem txid).vout ≤ maxMoney := by
  suffices h : (((sampleClient sampleConfirmed).fullItem txid).vin.map (·.value)).sum ≤ maxMoney ∧
      (((sampleClient sampleConfirmed).fullItem txid).vout.map (·.value)).sum ≤ maxMoney from
    ⟨(paidTo_le s _).trans h.1, (paidTo_le s _).trans h.2⟩
  cases hget : sampleTransactions.find? (fun tx => tx.txid = txid) with
  | none =>
    unfold ElectrsClient.fullItem sampleClient
    simp [hget]
  | some tx =>
    unfold ElectrsClient.fullItem
    rw [show (sampleClient sampleConfirmed).transactionGet txid = some tx from hget]
    have hmem := List.mem_of_find?_eq_some hget
    have hall : ∀ tx ∈ sampleTransactions,
        ((tx.input.filterMap (sampleClient sampleConfirmed).prevout?).map (·.value)).sum ≤
            maxMoney ∧
          (tx.output.map (·.value)).sum ≤ maxMoney := by decide
    exact hall tx hmem

theorem sampleServes (txid : Txid) (h : txid ∈ [9, 1, 2]) :
    (sampleClient sampleConfirmed).Serves txid := by
  simp only [List.mem_cons, List.not_mem_nil, or_false] at h
  rcases h with rfl | rfl | rfl
  · exact ⟨_, rfl, (if_pos rfl).mpr ⟨0, rfl⟩⟩
  · exact ⟨_, rfl, (if_neg Bool.false_ne_true).mpr (by decide)⟩
  · exact ⟨_, rfl, (if_neg Bool.false_ne_true).mpr (by decide)⟩

theorem sampleListed : ∀ s, ∀ item ∈ sampleConfirmed s, item.txHash ∈ [9, 1, 2] :=
  sampleConfirmed_cases (P := fun _ items => ∀ item ∈ items, item.txHash ∈ [9, 1, 2])
    (by decide) (by decide) (by decide) (fun _ _ hmem => (nomatch hmem))

instance (tx : TxFullItem) (s : USDBScriptHash) : Decidable (tx.Touches s) :=
  inferInstanceAs (Decidable (∃ out ∈ tx.vin ++ tx.vout, out.scriptPubkey.usdbScriptHash = s))

theorem sampleTouches : ∀ s, ∀ item ∈ sampleConfirmed s,
    ((sampleClient sampleConfirmed).fullItem item.txHash).Touches s :=
  sampleConfirmed_cases
    (P := fun s items => ∀ item ∈ items,
      ((sampleClient sampleConfirmed).fullItem item.txHash).Touches s)
    (by decide) (by decide) (by decide) (fun _ _ hmem => (nomatch hmem))

theorem sampleFunded : ∀ s, ∀ pre ∈ (sampleConfirmed s).inits,
    0 ≤ (pre.map (fun item => ((sampleClient sampleConfirmed).fullItem item.txHash).netTo s)).sum ∧
      (pre.map (fun item =>
        ((sampleClient sampleConfirmed).fullItem item.txHash).netTo s)).sum ≤ maxMoney :=
  sampleConfirmed_cases
    (P := fun s items => ∀ pre ∈ items.inits,
      0 ≤ (pre.map (fun item =>
          ((sampleClient sampleConfirmed).fullItem item.txHash).netTo s)).sum ∧
        (pre.map (fun item =>
          ((sampleClient sampleConfirmed).fullItem item.txHash).netTo s)).sum ≤ maxMoney)
    (by decide) (by decide) (by decide) (fun _ pre hmem => by
      obtain rfl := List.mem_singleton.mp hmem
      exact ⟨le_refl _, Int.natCast_nonneg _⟩)

def sampleView : ElectrumView where
  client := sampleClient sampleConfirmed
  confirmed := sampleConfirmed
  mempool := fun _ => []
  getHistory_eq s := by
    rw [List.append_nil]
    rfl
  confirmed_height := sampleConfirmed_cases
    (P := fun _ items => ∀ item ∈ items, 0 ≤ item.height ∧ item.height < 2 ^ 31)
    (by decide) (by decide) (by decide) (fun _ _ hmem => (nomatch hmem))
  confirmed_sorted := sampleConfirmed_cases
    (P := fun _ items => items.Pairwise (fun a b => a.height ≤ b.height))
    (by decide) (by decide) (by decide) (fun _ => List.Pairwise.nil)
  mempool_height s item hmem := (nomatch hmem)
  served s item hmem := by
    rw [List.append_nil] at hmem
    exact sampleServes _ (sampleListed s item hmem)
  touches s item hmem := by
    rw [List.append_nil] at hmem
    exact sampleTouches s item hmem
  nullTxid := rfl
  genesis := sampleConfirmed_cases
    (P := fun _ items => ∀ item ∈ items, item.height = 0 →
      (sampleClient sampleConfirmed).isCoinbase item.txHash)
    (by decide) (by decide) (by decide) (fun _ _ hmem => (nomatch hmem))
  amounts := sampleAmounts
  funded s pre rest hsplit := sampleFunded s pre ((List.mem_inits _ _).mpr ⟨rest, hsplit.symm⟩)

/-- The script hash that is paid twice in a block, with its true row. -/
def samplePaidTwice : BalanceHistoryDB :=
  { BalanceHistoryDB.empty with
    balanceHistory := (∅ : Table BalanceKey BalanceValue).insert ⟨3, 5⟩ ⟨30, 30⟩ }

/-- The verifier rejects the true ledger of a script hash that is paid twice in a block. -/
theorem verifier_rejects_trueLedger :
    sampleView.TrueUpTo 3 samplePaidTwice 5 ∧
      (BalanceHistoryVerifier.mk (fun _ => true) sampleView.client
          samplePaidTwice).verifyAddressAtHeight 3 5 =
        .error (.historyMismatch 3 5 30 30 10 10) := by
  constructor
  · unfold ElectrumView.TrueUpTo
    decide +kernel
  · decide +kernel

theorem sampleCheckable : sampleView.Checkable 8 5 where
  nonempty := by decide
  noCoinbase := by decide
  onePerBlock := by decide
  pendingZero := by decide

/-- Script hash 8 has one transaction and is verified. -/
theorem verifier_soundComplete_iff_sample :
    SoundComplete sampleView (fun s => s = 8) 5
      ⟨fun _ => true, sampleView.client, sampleView.ledgerStore 8 5 0⟩ :=
  (verifier_soundComplete_iff sampleView (fun _ => true) (fun s => s = 8) (fun _ _ => rfl)
    (by norm_num)).mpr (fun s hs => hs ▸ sampleCheckable) (sampleView.ledgerStore 8 5 0)
    (ElectrumView.ledgerStore_heightsFit (by norm_num)) (ElectrumView.ledgerStore_rowsAmong rfl)

end Sample

end Usdb.Balances
