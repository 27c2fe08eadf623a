import Usdb.ControlPlane.MintDraft
import Usdb.Index.MintListing

namespace Usdb

open Framework Content InscriptionContentLoader InscriptionIndexer InscriptionTransferTracker

/-- An inscription as its source lists it. Content that is no text, or no JSON text, is
absent. -/
structure ListedInscription where
  inscriptionId : InscriptionId
  inscriptionNumber : Int
  timestamp : Nat
  satpoint : Option SatPoint
  content : Option Value

/-- The payload names the protocol and the operation of a mint. -/
def isUsdbMint : Value → Bool
  | .object content =>
    (content.lookup "p").bind Value.asStr == some "usdb" &&
      (content.lookup "op").bind Value.asStr == some "mint"
  | _ => false

section Classification

variable {format : InscriptionIdFormat} {id : InscriptionId}

theorem checkMint_ne_notUsdbMint (mint : Content.USDBMint) :
    checkMint format id mint ≠ .NotUsdbMint := by
  unfold checkMint
  split
  · exact fun h => (nomatch h)
  · split
    · exact fun h => (nomatch h)
    · split
      · exact fun h => (nomatch h)
      · exact fun h => (nomatch h)

theorem getD_ne {field : Option String} {name : String} (hname : name ≠ "")
    (h : field ≠ some name) : field.getD "" ≠ name := by
  cases field with
  | none => exact hname.symm
  | some text => exact fun htext => h (congrArg some htext)

theorem classifyMintContent_eq_notUsdbMint (value : Value) :
    classifyMintContent format id value = .NotUsdbMint ↔ isUsdbMint value = false := by
  cases value with
  | object content =>
    unfold classifyMintContent isUsdbMint
    dsimp only
    generalize (content.lookup "p").bind Value.asStr = protocol
    generalize (content.lookup "op").bind Value.asStr = operation
    by_cases hp : protocol = some "usdb"
    · subst hp
      by_cases hop : operation = some "mint"
      · subst hop
        refine iff_of_false ?_ (by decide)
        rw [if_neg (show ¬ (some "usdb").getD "" ≠ "usdb" from not_not.mpr rfl),
          if_neg (show ¬ (some "mint").getD "" ≠ "mint" from not_not.mpr rfl)]
        split
        · exact fun h => (nomatch h)
        · exact checkMint_ne_notUsdbMint _
      · rw [if_neg (show ¬ (some "usdb").getD "" ≠ "usdb" from not_not.mpr rfl),
          if_pos (getD_ne (by decide) hop)]
        simp [hop]
    · rw [if_pos (getD_ne (by decide) hp)]
      simp [hp]
  | null => exact iff_of_true rfl rfl
  | bool value => exact iff_of_true rfl rfl
  | integer value => exact iff_of_true rfl rfl
  | float text => exact iff_of_true rfl rfl
  | string value => exact iff_of_true rfl rfl
  | array items => exact iff_of_true rfl rfl

end Classification

/-- The classification with the `prev` list read. -/
def ParsedMintContent.ofContent (format : InscriptionIdFormat) :
    Content.ParsedMintContent → ParsedMintContent
  | .NotUsdbMint => .NotUsdbMint
  | .Valid mint => .Valid
      { ethMain := mint.ethMain, ethCollab := mint.ethCollab
        prev := (mint.prevInscriptionIds format).toOption.getD [] }
  | .Invalid code reason => .Invalid code reason

namespace ListedInscription

/-- The inscription as the indexer takes it over, with its content classified. -/
def discovered (format : InscriptionIdFormat) (listed : ListedInscription) :
    DiscoveredInscription where
  inscriptionId := listed.inscriptionId
  inscriptionNumber := listed.inscriptionNumber
  timestamp := listed.timestamp
  satpoint := listed.satpoint
  content := listed.content.map (fun value =>
    .ofContent format (classifyMintContent format listed.inscriptionId value))

def isMint (listed : ListedInscription) : Bool := listed.content.any isUsdbMint

/-- Each USDB mint of a listing is discovered once, and nothing else is. -/
theorem discoveredMintIds_perm (format : InscriptionIdFormat) (height : Nat)
    (listed : List ListedInscription) :
    (discoveredMintIds height (listed.map (discovered format))).Perm
      ((listed.filter isMint).map (·.inscriptionId)) := by
  induction listed with
  | nil => rfl
  | cons first rest ih =>
    unfold discoveredMintIds classifyUsdbMintsFromInscriptions at ih ⊢
    simp only [List.map_cons, List.filterMap_cons, List.filter_cons]
    unfold isMint
    cases hcontent : first.content with
    | none =>
      simp only [discovered, hcontent, Option.map_none, Option.any_none]
      exact ih
    | some value =>
      have hclass : classifyMintContent format first.inscriptionId value = .NotUsdbMint ↔
          isUsdbMint value = false := classifyMintContent_eq_notUsdbMint value
      simp only [discovered, hcontent, Option.map_some, Option.any_some]
      cases hparsed : classifyMintContent format first.inscriptionId value with
      | NotUsdbMint =>
        simp only [hclass.mp hparsed, Bool.false_eq_true, if_false]
        exact ih
      | Valid mint =>
        rw [hparsed] at hclass
        have hmint : isUsdbMint value = true :=
          Bool.of_not_eq_false (fun h => nomatch hclass.mpr h)
        simp only [hmint, if_true]
        exact ih.cons first.inscriptionId
      | Invalid code reason =>
        rw [hparsed] at hclass
        have hmint : isUsdbMint value = true :=
          Bool.of_not_eq_false (fun h => nomatch hclass.mpr h)
        simp only [hmint, if_true]
        exact List.perm_middle.trans (ih.cons first.inscriptionId)

end ListedInscription

namespace InscriptionIndexer

section Loaded

variable {btc : BtcClient} {height : Nat}

theorem loaded_ids {α β : Type} {inscriptionId : α → InscriptionId}
    {build : α → InscriptionCreateInfo → USDBScriptHash → β} {mints : List α}
    {idOf : β → InscriptionId} (hid : ∀ m info address, idOf (build m info address) = inscriptionId m)
    (h : ∀ m ∈ mints, (loaded btc inscriptionId build m).isSome) :
    (mints.filterMap (loaded btc inscriptionId build)).map idOf = mints.map inscriptionId := by
  induction mints with
  | nil => rfl
  | cons mint rest ih =>
    obtain ⟨b, hb⟩ := Option.isSome_iff_exists.mp (h mint (by simp))
    rw [List.filterMap_cons_some hb, List.map_cons, List.map_cons,
      ih (fun m hm => h m (by simp [hm]))]
    unfold loaded at hb
    obtain ⟨info, -, haddress⟩ := Option.bind_eq_some_iff.mp hb
    obtain ⟨address, -, rfl⟩ := Option.map_eq_some_iff.mp haddress
    rw [hid]

/-- A candidate was made where the node says it was. -/
theorem loadedCandidate_creation {mint : DiscoveredMint} {candidate : MintCandidate}
    (h : loadedCandidate btc mint = some candidate) :
    creation btc candidate.mint.inscriptionId = some candidate.createInfo := by
  unfold loadedCandidate loaded at h
  obtain ⟨info, hinfo, haddress⟩ := Option.bind_eq_some_iff.mp h
  obtain ⟨address, -, rfl⟩ := Option.map_eq_some_iff.mp haddress
  exact hinfo

/-- The candidates without a rival have pairwise distinct reveal inputs. -/
theorem notAmbiguous_nodup (candidates : List MintCandidate) :
    ((candidates.filter (fun c => !isAmbiguous candidates c)).map
      (·.createInfo.commitOutpoint)).Nodup := by
  rw [List.nodup_iff_count_le_one]
  intro outpoint
  by_contra hmany
  have hpos := Nat.zero_lt_one.trans (Nat.lt_of_not_le hmany)
  obtain ⟨c, hc, rfl⟩ := List.mem_map.mp (List.count_pos_iff.mp hpos)
  have hsingle : ¬ 1 < (conflictedInscriptions candidates c.createInfo.commitOutpoint).length := by
    have hfilter := (List.mem_filter.mp hc).2
    unfold isAmbiguous at hfilter
    simpa using hfilter
  have hle : List.count c.createInfo.commitOutpoint
      ((candidates.filter (fun c => !isAmbiguous candidates c)).map
        (·.createInfo.commitOutpoint)) ≤
      (conflictedInscriptions candidates c.createInfo.commitOutpoint).length := by
    unfold conflictedInscriptions
    rw [List.length_map, ← List.countP_eq_length_filter, List.count_eq_countP, List.countP_map]
    refine List.filter_sublist.countP_le.trans (Nat.le_of_eq ?_)
    refine List.countP_congr (fun d _ => ?_)
    simp
  omega

theorem collected_perm {batch : DiscoveredMintBatch} (h : Loadable btc batch) :
    ((collected btc height batch).validItems.map (·.inscriptionId) ++
        (collected btc height batch).invalidItems.map (·.inscriptionId)).Perm
      (batch.validMints.map (·.inscriptionId) ++ batch.invalidMints.map (·.inscriptionId)) := by
  have hvalid : (batch.validMints.filterMap (loadedCandidate btc)).map (·.mint.inscriptionId) =
      batch.validMints.map (·.inscriptionId) := loaded_ids (fun _ _ _ => rfl) h.1
  have hinvalid : (batch.invalidMints.filterMap (loadedInvalidItem btc)).map (·.inscriptionId) =
      batch.invalidMints.map (·.inscriptionId) := loaded_ids (fun _ _ _ => rfl) h.2
  unfold collected validItems ambiguousItems
  rw [List.map_append, ← hvalid, hinvalid, ← List.append_assoc]
  refine List.Perm.append_right _ ?_
  rw [List.map_map, List.map_map]
  have hsplit := (List.perm_append_comm.trans (List.filter_append_perm
    (isAmbiguous (batch.validMints.filterMap (loadedCandidate btc)))
    (batch.validMints.filterMap (loadedCandidate btc)))).map (·.mint.inscriptionId)
  rw [List.map_append] at hsplit
  exact hsplit

theorem collected_validItems_outpoints (batch : DiscoveredMintBatch) :
    ((collected btc height batch).validItems.map
      (fun item => (creation btc item.inscriptionId).map (·.commitOutpoint))).Nodup := by
  have hmade : (collected btc height batch).validItems.map
      (fun item => (creation btc item.inscriptionId).map (·.commitOutpoint)) =
      (((batch.validMints.filterMap (loadedCandidate btc)).filter (fun c =>
        !isAmbiguous (batch.validMints.filterMap (loadedCandidate btc)) c)).map
        (·.createInfo.commitOutpoint)).map some := by
    unfold collected validItems
    rw [List.map_map, List.map_map]
    refine List.map_congr_left (fun c hc => ?_)
    obtain ⟨mint, -, hmint⟩ := List.mem_filterMap.mp (List.mem_filter.mp hc).1
    show (creation btc c.mint.inscriptionId).map _ = _
    rw [loadedCandidate_creation hmint]
    rfl
  rw [hmade]
  exact (notAmbiguous_nodup _).map (Option.some_injective _)

end Loaded

/-- Collecting a block puts every listed USDB mint, and no other, once among the valid or
the invalid mints, and the valid ones spend distinct outputs when they are revealed. -/
theorem collectBlockInscriptionMints_partition (format : InscriptionIdFormat) (env : BlockEnv)
    (height : Nat) (listed : List ListedInscription)
    (hlisted : env.inscriptions = listed.map (·.discovered format)) (s t : IndexerState)
    (mints : CollectedMintItems) (h : collectBlockInscriptionMints env height s = .ok mints t) :
    (mints.validItems.map (·.inscriptionId) ++ mints.invalidItems.map (·.inscriptionId)).Perm
        ((listed.filter (·.isMint)).map (·.inscriptionId)) ∧
      (mints.validItems.map
        (fun item => (creation env.btc item.inscriptionId).map (·.commitOutpoint))).Nodup := by
  obtain ⟨hload, rfl⟩ := collectBlockInscriptionMints_collected h
  refine ⟨(collected_perm hload).trans ?_, collected_validItems_outpoints _⟩
  rw [hlisted]
  exact ListedInscription.discoveredMintIds_perm format height listed

/-- Its reveal transactions each spend one output and carry two envelopes on it. -/
def mixedClient : BtcClient where
  getTransaction txid := some
    { txid, input := [⟨txid + 100, 0⟩], output := [⟨600, 9⟩], envelopes := [⟨0⟩, ⟨0⟩] }
  getUtxo outpoint := if outpoint.vout = 0 then some 1000 else none

def validMintContent : Value :=
  .object [("p", .string "usdb"), ("op", .string "mint"),
    ("eth_main", .string "0x1111111111111111111111111111111111111111"), ("prev", .array [])]

def listedWith (inscriptionId : InscriptionId) (content : Option Value) : ListedInscription where
  inscriptionId
  inscriptionNumber := inscriptionId.txid
  timestamp := 0
  satpoint := none
  content

/-- A mint without an account, a mint beside a picture on one output, an inscription of
another operation, and two mints on one output. -/
def mixedListing : List ListedInscription :=
  [listedWith ⟨7, 0⟩ (some (.object [("p", .string "usdb"), ("op", .string "mint")])),
   listedWith ⟨8, 0⟩ (some validMintContent),
   listedWith ⟨8, 1⟩ none,
   listedWith ⟨6, 0⟩ (some (.object [("p", .string "usdb"), ("op", .string "burn")])),
   listedWith ⟨9, 0⟩ (some validMintContent),
   listedWith ⟨9, 1⟩ (some validMintContent)]

theorem mixedListing_mints :
    (mixedListing.filter (·.isMint)).map (·.inscriptionId) =
      [⟨7, 0⟩, ⟨8, 0⟩, ⟨9, 0⟩, ⟨9, 1⟩] := by
  decide +kernel

def mixedEnv : BlockEnv :=
  { revealEnv 600 with
    inscriptions := mixedListing.map (·.discovered ControlPlane.inscriptionIdFormat)
    btc := mixedClient }

theorem mixedEnv_loadable :
    Loadable mixedEnv.btc (classifyUsdbMintsFromInscriptions 1 mixedEnv.inscriptions) := by
  have hids := ListedInscription.discoveredMintIds_perm ControlPlane.inscriptionIdFormat 1
    mixedListing
  rw [mixedListing_mints] at hids
  have hknown : ∀ id ∈ [InscriptionId.mk 7 0, ⟨8, 0⟩, ⟨9, 0⟩, ⟨9, 1⟩],
      ((creation mixedEnv.btc id).bind (·.address)).isSome := by decide
  have hload : ∀ id ∈ discoveredMintIds 1 mixedEnv.inscriptions,
      ((creation mixedEnv.btc id).bind (·.address)).isSome :=
    fun id hid => hknown id (hids.mem_iff.mp hid)
  constructor
  · intro m hm
    exact (loaded_isSome _ m).trans
      (hload m.inscriptionId (List.mem_append_left _ (List.mem_map_of_mem hm)))
  · intro m hm
    exact (loaded_isSome _ m).trans
      (hload m.inscriptionId (List.mem_append_right _ (List.mem_map_of_mem hm)))

theorem collectBlockInscriptionMints_partition_mixed :
    ∃ mints, collectBlockInscriptionMints mixedEnv 1 .empty = .ok mints .empty ∧
      mints.validItems.map (·.inscriptionId) = [⟨8, 0⟩] ∧
      (mints.validItems.map (·.inscriptionId) ++ mints.invalidItems.map (·.inscriptionId)).Perm
        [⟨7, 0⟩, ⟨8, 0⟩, ⟨9, 0⟩, ⟨9, 1⟩] := by
  have hrun := collectBlockInscriptionMints_loadable (s := .empty) rfl mixedEnv_loadable
  refine ⟨_, hrun, by decide +kernel, ?_⟩
  have hperm := (collectBlockInscriptionMints_partition ControlPlane.inscriptionIdFormat mixedEnv 1
    mixedListing rfl .empty .empty _ hrun).1
  rw [mixedListing_mints] at hperm
  exact hperm

end InscriptionIndexer

end Usdb
