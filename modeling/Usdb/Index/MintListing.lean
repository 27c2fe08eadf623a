import Usdb.Index.TrackerMap

namespace Usdb

open Framework

namespace InscriptionTransferTracker

open TxItem

variable {btc : BtcClient} {id : InscriptionId} {info : InscriptionCreateInfo}
  {s t : IndexerState}

/-- Where an inscription is made, if the node can tell. -/
def creation (btc : BtcClient) (id : InscriptionId) : Option InscriptionCreateInfo :=
  match calcCreateSatpoint btc id .empty with
  | .ok info _ => some info
  | .error _ _ => none

/-- The node's answers alone decide where an inscription is made. -/
theorem calcCreateSatpoint_again (h : calcCreateSatpoint btc id s = .ok info t)
    {s' : IndexerState} (hs' : s'.faults = []) :
    calcCreateSatpoint btc id s' = .ok info s' := by
  obtain ⟨_, _, -, h⟩ := bind_eq_ok h
  unfold calcCreateSatpoint
  rw [bind_ok (io_of_no_faults s' hs')]
  cases htx : btc.getTransaction id.txid with
  | none =>
    rw [htx] at h
    cases h
  | some tx =>
    rw [htx] at h
    dsimp only at h ⊢
    cases henv : tx.envelopes[id.index]? with
    | none =>
      rw [henv] at h
      cases h
    | some envelope =>
      rw [henv] at h
      dsimp only at h ⊢
      cases hin : tx.input[envelope.input]? with
      | none =>
        rw [hin] at h
        cases h
      | some commit =>
        rw [hin] at h
        dsimp only at h ⊢
        obtain ⟨ret, _, hcalc, h⟩ := bind_eq_ok h
        cases ret with
        | none => cases h
        | some ret =>
          obtain ⟨hloc, rfl⟩ := calcOutputSatpoint_ok hcalc
          rw [bind_ok (calcOutputSatpoint_locatable hs' hloc)]
          cases h
          rfl

theorem creation_of_ok (h : calcCreateSatpoint btc id s = .ok info t) :
    creation btc id = some info := by
  have hagain : calcCreateSatpoint btc id .empty = .ok info .empty := calcCreateSatpoint_again h rfl
  unfold creation
  rw [hagain]

theorem calcCreateSatpoint_of_creation (h : creation btc id = some info) (hs : s.faults = []) :
    calcCreateSatpoint btc id s = .ok info s := by
  unfold creation at h
  split at h
  · rename_i hcalc
    cases h
    exact calcCreateSatpoint_again hcalc hs
  · cases h

end InscriptionTransferTracker

namespace InscriptionIndexer

open InscriptionTransferTracker

section Loading

variable {α β : Type} {btc : BtcClient} {inscriptionId : α → InscriptionId}
  {noAddress : α → IndexerError} {build : α → InscriptionCreateInfo → USDBScriptHash → β}
  {mints : List α} {s t : IndexerState}

/-- What a mint is loaded as, if the node can tell where it was made and who holds it. -/
def loaded (btc : BtcClient) (inscriptionId : α → InscriptionId)
    (build : α → InscriptionCreateInfo → USDBScriptHash → β) (mint : α) : Option β :=
  (creation btc (inscriptionId mint)).bind (fun info => info.address.map (build mint info))

theorem loaded_isSome (build : α → InscriptionCreateInfo → USDBScriptHash → β) (mint : α) :
    (loaded btc inscriptionId build mint).isSome =
      ((creation btc (inscriptionId mint)).bind (·.address)).isSome := by
  unfold loaded
  cases creation btc (inscriptionId mint) with
  | none => rfl
  | some info => exact Option.isSome_map

theorem loadMints_ok {built : List β}
    (h : loadMints btc inscriptionId noAddress build mints s = .ok built t) :
    (∀ m ∈ mints, (loaded btc inscriptionId build m).isSome) ∧
      built = mints.filterMap (loaded btc inscriptionId build) := by
  induction mints generalizing s built with
  | nil =>
    cases h
    exact ⟨fun m hm => absurd hm List.not_mem_nil, rfl⟩
  | cons mint rest ih =>
    obtain ⟨info, _, hinfo, h⟩ := bind_eq_ok h
    cases ha : info.address with
    | none =>
      rw [ha] at h
      cases h
    | some address =>
      rw [ha] at h
      obtain ⟨others, _, hrest, h⟩ := bind_eq_ok h
      cases h
      obtain ⟨hall, rfl⟩ := ih hrest
      have hload : loaded btc inscriptionId build mint = some (build mint info address) := by
        unfold loaded
        rw [creation_of_ok hinfo, Option.bind_some, ha]
        rfl
      refine ⟨?_, by rw [List.filterMap_cons_some hload]⟩
      intro m hm
      rcases List.mem_cons.mp hm with rfl | hm
      · rw [hload]
        rfl
      · exact hall m hm

theorem loadMints_loaded (hs : s.faults = [])
    (h : ∀ m ∈ mints, (loaded btc inscriptionId build m).isSome) :
    loadMints btc inscriptionId noAddress build mints s =
      .ok (mints.filterMap (loaded btc inscriptionId build)) s := by
  induction mints with
  | nil => rfl
  | cons mint rest ih =>
    obtain ⟨b, hb⟩ := Option.isSome_iff_exists.mp (h mint (by simp))
    have hload := hb
    unfold loaded at hload
    obtain ⟨info, hinfo, haddress⟩ := Option.bind_eq_some_iff.mp hload
    obtain ⟨address, ha, rfl⟩ := Option.map_eq_some_iff.mp haddress
    unfold loadMints
    rw [bind_ok (calcCreateSatpoint_of_creation hinfo hs), ha]
    dsimp only
    rw [bind_ok (ih (fun m hm => h m (by simp [hm]))), List.filterMap_cons_some hb]
    rfl

end Loading

variable {btc : BtcClient} {height : Nat} {batch batch' : DiscoveredMintBatch}
  {s t : IndexerState}

def loadedCandidate (btc : BtcClient) : DiscoveredMint → Option MintCandidate :=
  loaded btc (·.inscriptionId) (fun mint createInfo address => { mint, createInfo, address })

def loadedInvalidItem (btc : BtcClient) :
    DiscoveredInvalidMint → Option InvalidPassMintInscriptionInfo :=
  loaded btc (·.inscriptionId) (fun mint createInfo mintOwner =>
    { inscriptionId := mint.inscriptionId, inscriptionNumber := mint.inscriptionNumber
      mintTxid := createInfo.satpoint.outpoint.txid, mintBlockHeight := mint.blockHeight
      mintOwner, satpoint := createInfo.satpoint, errorCode := mint.errorCode
      errorReason := mint.errorReason })

/-- The node can load every mint of a batch. -/
def Loadable (btc : BtcClient) (batch : DiscoveredMintBatch) : Prop :=
  (∀ m ∈ batch.validMints, (loadedCandidate btc m).isSome) ∧
    ∀ m ∈ batch.invalidMints, (loadedInvalidItem btc m).isSome

def validItems (candidates : List MintCandidate) : List InscriptionNewItem :=
  (candidates.filter (fun c => !isAmbiguous candidates c)).map newItem

def ambiguousItems (height : Nat) (candidates : List MintCandidate) :
    List InvalidPassMintInscriptionInfo :=
  (candidates.filter (isAmbiguous candidates)).map (ambiguousItem height candidates)

/-- The mints of a batch as they are collected. -/
def collected (btc : BtcClient) (height : Nat) (batch : DiscoveredMintBatch) :
    CollectedMintItems where
  validItems := validItems (batch.validMints.filterMap (loadedCandidate btc))
  invalidItems := ambiguousItems height (batch.validMints.filterMap (loadedCandidate btc)) ++
    batch.invalidMints.filterMap (loadedInvalidItem btc)

theorem collectBlockInscriptionMints_collected {env : BlockEnv} {mints : CollectedMintItems}
    (h : collectBlockInscriptionMints env height s = .ok mints t) :
    Loadable env.btc (classifyUsdbMintsFromInscriptions height env.inscriptions) ∧
      mints = collected env.btc height
        (classifyUsdbMintsFromInscriptions height env.inscriptions) := by
  obtain ⟨_, _, -, h⟩ := bind_eq_ok h
  obtain ⟨candidates, _, hcand, h⟩ := bind_eq_ok h
  obtain ⟨invalid, _, hinv, h⟩ := bind_eq_ok h
  cases h
  obtain ⟨hvalid, rfl⟩ := loadMints_ok hcand
  obtain ⟨hinvalid, rfl⟩ := loadMints_ok hinv
  exact ⟨⟨hvalid, hinvalid⟩, rfl⟩

theorem collectBlockInscriptionMints_loadable {env : BlockEnv} (hs : s.faults = [])
    (h : Loadable env.btc (classifyUsdbMintsFromInscriptions height env.inscriptions)) :
    collectBlockInscriptionMints env height s = .ok (collected env.btc height
      (classifyUsdbMintsFromInscriptions height env.inscriptions)) s := by
  unfold collectBlockInscriptionMints
  rw [bind_ok (io_of_no_faults s hs)]
  have hvalid : loadCandidates env.btc height _ s = _ := loadMints_loaded hs h.1
  have hinvalid : loadInvalidItems env.btc height _ s = _ := loadMints_loaded hs h.2
  rw [bind_ok hvalid, bind_ok hinvalid]
  rfl

end InscriptionIndexer

/-- A listed mint without the time and the place its source reports, which the indexer
does not use. -/
def DiscoveredMint.core (mint : DiscoveredMint) : DiscoveredMint :=
  { mint with timestamp := 0, satpoint := none }

def DiscoveredInvalidMint.core (mint : DiscoveredInvalidMint) : DiscoveredInvalidMint :=
  { mint with timestamp := 0, satpoint := none }

def MintCandidate.core (candidate : MintCandidate) : MintCandidate :=
  { candidate with mint := candidate.mint.core }

def InscriptionNewItem.core (item : InscriptionNewItem) : InscriptionNewItem :=
  { item with timestamp := 0 }

namespace InscriptionIndexer

variable {btc : BtcClient} {height : Nat}

theorem conflictedInscriptions_core (candidates : List MintCandidate) (outpoint : OutPoint) :
    conflictedInscriptions (candidates.map MintCandidate.core) outpoint =
      conflictedInscriptions candidates outpoint := by
  unfold conflictedInscriptions
  rw [List.filter_map, List.map_map]
  rfl

theorem isAmbiguous_core (candidates : List MintCandidate) (candidate : MintCandidate) :
    isAmbiguous (candidates.map MintCandidate.core) candidate.core =
      isAmbiguous candidates candidate := by
  unfold isAmbiguous
  rw [conflictedInscriptions_core]
  rfl

theorem validItems_core (candidates : List MintCandidate) :
    (validItems candidates).map InscriptionNewItem.core =
      validItems (candidates.map MintCandidate.core) := by
  unfold validItems
  rw [List.filter_map, List.map_map, List.map_map]
  have hcore : ((fun c => !isAmbiguous (candidates.map MintCandidate.core) c) ∘
      MintCandidate.core) = fun c => !isAmbiguous candidates c := by
    funext c
    simp only [Function.comp, isAmbiguous_core]
  rw [hcore]
  rfl

theorem ambiguousItems_core (candidates : List MintCandidate) :
    ambiguousItems height (candidates.map MintCandidate.core) =
      ambiguousItems height candidates := by
  unfold ambiguousItems
  rw [List.filter_map, List.map_map]
  have hcore : (isAmbiguous (candidates.map MintCandidate.core) ∘ MintCandidate.core) =
      isAmbiguous candidates := by
    funext c
    simp only [Function.comp, isAmbiguous_core]
  rw [hcore]
  refine List.map_congr_left (fun c _ => ?_)
  simp only [Function.comp, ambiguousItem, MintCandidate.core, conflictedInscriptions_core]
  rfl

theorem conflictedInscriptions_length {candidates candidates' : List MintCandidate}
    (h : candidates.Perm candidates') (outpoint : OutPoint) :
    (conflictedInscriptions candidates outpoint).length =
      (conflictedInscriptions candidates' outpoint).length :=
  ((h.filter _).map _).length_eq

theorem isAmbiguous_perm {candidates candidates' : List MintCandidate}
    (h : candidates.Perm candidates') : isAmbiguous candidates = isAmbiguous candidates' := by
  funext c
  unfold isAmbiguous
  rw [conflictedInscriptions_length h]

/-- The mints that share a reveal input with an ambiguous one are ambiguous. -/
theorem conflictedInscriptions_ambiguous {candidates : List MintCandidate}
    {candidate : MintCandidate} (h : isAmbiguous candidates candidate = true) :
    conflictedInscriptions candidates candidate.createInfo.commitOutpoint =
      conflictedInscriptions (candidates.filter (isAmbiguous candidates))
        candidate.createInfo.commitOutpoint := by
  have hfilter : candidates.filter
      (fun c => c.createInfo.commitOutpoint = candidate.createInfo.commitOutpoint) =
      (candidates.filter (isAmbiguous candidates)).filter
        (fun c => c.createInfo.commitOutpoint = candidate.createInfo.commitOutpoint) := by
    rw [List.filter_filter]
    refine List.filter_congr (fun c _ => ?_)
    by_cases hc : c.createInfo.commitOutpoint = candidate.createInfo.commitOutpoint
    · have hamb : isAmbiguous candidates c = true := by
        unfold isAmbiguous at h ⊢
        rw [hc]
        exact h
      simp [hc, hamb]
    · simp [hc]
  exact congrArg (List.map (·.mint.inscriptionId)) hfilter

theorem validItems_sameBy {candidates candidates' : List MintCandidate}
    (h : SameBy (·.mint.inscriptionId) candidates candidates') :
    SameBy (·.inscriptionId) (validItems candidates) (validItems candidates') := by
  have hselect : ∀ l : List MintCandidate, validItems l =
      l.filterMap (fun c => if isAmbiguous l c = true then none else some (newItem c)) := by
    intro l
    unfold validItems
    rw [← List.filterMap_eq_map, List.filterMap_filter]
    refine List.filterMap_congr (fun c _ => ?_)
    cases isAmbiguous l c <;> rfl
  rw [hselect, hselect, ← isAmbiguous_perm h.perm]
  refine h.filterMap (c := id) (fun c item hitem => ?_)
  split at hitem
  · cases hitem
  · cases hitem
    rfl

theorem ambiguousItems_eq {candidates candidates' : List MintCandidate}
    (h : candidates.filter (isAmbiguous candidates) =
      candidates'.filter (isAmbiguous candidates')) :
    ambiguousItems height candidates = ambiguousItems height candidates' := by
  have hitem : ∀ (l : List MintCandidate) (c : MintCandidate),
      c ∈ l.filter (isAmbiguous l) → ambiguousItem height l c =
        ambiguousItem height (l.filter (isAmbiguous l)) c := by
    intro l c hc
    unfold ambiguousItem
    rw [conflictedInscriptions_ambiguous (List.mem_filter.mp hc).2]
  unfold ambiguousItems
  rw [List.map_congr_left (hitem candidates), List.map_congr_left (hitem candidates'), h]

/-- Two listings of a block's inscriptions that the indexer takes for the same: the valid
mints agree in all but the order, the mints that share a reveal input also in their order,
and the invalid mints are listed alike. -/
structure ListedAlike (btc : BtcClient) (height : Nat)
    (inscriptions inscriptions' : List DiscoveredInscription) : Prop where
  valid : SameBy (·.inscriptionId)
    ((classifyUsdbMintsFromInscriptions height inscriptions).validMints.map DiscoveredMint.core)
    ((classifyUsdbMintsFromInscriptions height inscriptions').validMints.map DiscoveredMint.core)
  ambiguous :
    let candidates := ((classifyUsdbMintsFromInscriptions height inscriptions).validMints.map
      DiscoveredMint.core).filterMap (loadedCandidate btc)
    let candidates' := ((classifyUsdbMintsFromInscriptions height inscriptions').validMints.map
      DiscoveredMint.core).filterMap (loadedCandidate btc)
    candidates.filter (isAmbiguous candidates) = candidates'.filter (isAmbiguous candidates')
  invalid :
    (classifyUsdbMintsFromInscriptions height inscriptions).invalidMints.map
      DiscoveredInvalidMint.core =
    (classifyUsdbMintsFromInscriptions height inscriptions').invalidMints.map
      DiscoveredInvalidMint.core

theorem ListedAlike.refl (btc : BtcClient) (height : Nat)
    (inscriptions : List DiscoveredInscription) :
    ListedAlike btc height inscriptions inscriptions :=
  ⟨.refl _ _, rfl, rfl⟩

theorem loadedCandidate_core (mint : DiscoveredMint) :
    loadedCandidate btc mint.core = (loadedCandidate btc mint).map MintCandidate.core := by
  unfold loadedCandidate loaded
  show (InscriptionTransferTracker.creation btc mint.inscriptionId).bind _ = _
  cases InscriptionTransferTracker.creation btc mint.inscriptionId with
  | none => rfl
  | some info =>
    simp only [Option.bind_some, Option.map_map]
    rfl

theorem loadedInvalidItem_core (mint : DiscoveredInvalidMint) :
    loadedInvalidItem btc mint.core = loadedInvalidItem btc mint := rfl

theorem candidates_core (mints : List DiscoveredMint) :
    (mints.map DiscoveredMint.core).filterMap (loadedCandidate btc) =
      (mints.filterMap (loadedCandidate btc)).map MintCandidate.core := by
  rw [List.filterMap_map, List.map_filterMap]
  exact List.filterMap_congr (fun m _ => loadedCandidate_core m)

theorem invalidItems_core (mints : List DiscoveredInvalidMint) :
    (mints.map DiscoveredInvalidMint.core).filterMap (loadedInvalidItem btc) =
      mints.filterMap (loadedInvalidItem btc) := by
  rw [List.filterMap_map]
  exact List.filterMap_congr (fun m _ => loadedInvalidItem_core m)

theorem loadable_core (batch : DiscoveredMintBatch) :
    Loadable btc batch ↔
      (∀ m ∈ batch.validMints.map DiscoveredMint.core, (loadedCandidate btc m).isSome) ∧
        ∀ m ∈ batch.invalidMints.map DiscoveredInvalidMint.core,
          (loadedInvalidItem btc m).isSome := by
  unfold Loadable
  simp only [List.forall_mem_map, loadedCandidate_core, Option.isSome_map, loadedInvalidItem_core]

/-- Listings that are taken for the same are collected alike. -/
theorem ListedAlike.collected {inscriptions inscriptions' : List DiscoveredInscription}
    (h : ListedAlike btc height inscriptions inscriptions')
    (hload : Loadable btc (classifyUsdbMintsFromInscriptions height inscriptions)) :
    let mints := collected btc height (classifyUsdbMintsFromInscriptions height inscriptions)
    let mints' := collected btc height (classifyUsdbMintsFromInscriptions height inscriptions')
    Loadable btc (classifyUsdbMintsFromInscriptions height inscriptions') ∧
      mints'.invalidItems = mints.invalidItems ∧
      SameBy (·.inscriptionId) (mints.validItems.map InscriptionNewItem.core)
        (mints'.validItems.map InscriptionNewItem.core) := by
  refine ⟨?_, ?_, ?_⟩
  · rw [loadable_core] at hload ⊢
    rw [← h.invalid]
    exact ⟨fun m hm => hload.1 m (h.valid.perm.mem_iff.mpr hm), hload.2⟩
  · have hamb : ambiguousItems height _ = ambiguousItems height _ := ambiguousItems_eq h.ambiguous
    rw [candidates_core, candidates_core, ambiguousItems_core, ambiguousItems_core] at hamb
    have hinvalid := congrArg (List.filterMap (loadedInvalidItem btc)) h.invalid
    rw [invalidItems_core, invalidItems_core] at hinvalid
    simp only [InscriptionIndexer.collected]
    rw [hamb, hinvalid]
  · simp only [InscriptionIndexer.collected, validItems_core, ← candidates_core]
    refine validItems_sameBy (h.valid.filterMap (c := id) (fun m c hc => ?_))
    unfold loadedCandidate loaded at hc
    obtain ⟨info, -, haddress⟩ := Option.bind_eq_some_iff.mp hc
    obtain ⟨address, -, rfl⟩ := Option.map_eq_some_iff.mp haddress
    rfl

end InscriptionIndexer

end Usdb
