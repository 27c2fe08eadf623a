import Usdb.Index.Content

namespace Usdb.ControlPlane

open Framework Content InscriptionContentLoader

inductive StatusCode
  | BadRequest
  | BadGateway
  | InternalServerError
deriving DecidableEq, Repr

structure ApiError where
  status : StatusCode
  error : String
deriving DecidableEq, Repr

inductive Network
  | Bitcoin
  | Testnet
  | Testnet4
  | Regtest
  | Signet
deriving DecidableEq, Repr

structure ServiceProbe (α : Type) where
  reachable : Bool
  data : Option α

structure BtcNodeServiceSummary where
  chain : Option String

structure BalanceHistoryServiceSummary where
  network : Option String
  queryReady : Option Bool

structure UsdbIndexerServiceSummary where
  queryReady : Option Bool

structure OrdServiceSummary where
  backendReady : Option Bool
  queryReady : Option Bool
  syncedBlockHeight : Option Nat
  btcTipHeight : Option Nat
  syncGap : Option Nat

structure ServicesSummary where
  btcNode : ServiceProbe BtcNodeServiceSummary
  balanceHistory : ServiceProbe BalanceHistoryServiceSummary
  usdbIndexer : ServiceProbe UsdbIndexerServiceSummary
  ord : ServiceProbe OrdServiceSummary

structure CapabilitiesSummary where
  ordAvailable : Bool
  btcConsoleMode : String
  btcRuntimeProfile : String

structure BtcMintPrepareRequest where
  ownerAddress : String
  ethMain : String
  ethCollab : Option String
  prev : List String

structure BtcMintPrepareRuntimeSummary where
  btcNetwork : String
  btcRuntimeProfile : String
  btcConsoleMode : String
  ordAvailable : Bool
  ordQueryReady : Bool
  balanceHistoryReady : Bool
  usdbIndexerReady : Bool
  ordSyncedBlockHeight : Option Nat
  btcTipHeight : Option Nat
  ordSyncGap : Option Nat

structure BtcMintPrepareActivePassSummary where
  inscriptionId : String
  state : String
  owner : String
  ethMain : String
  ethCollab : Option String
  prev : List String

structure BtcMintPrepareResponse where
  eligible : Bool
  prepareMode : String
  blockers : List String
  warnings : List String
  runtime : BtcMintPrepareRuntimeSummary
  ownerAddress : String
  ownerScriptHash : String
  ethMain : String
  ethCollab : Option String
  prev : List String
  suggestedPrev : List String
  activePass : Option BtcMintPrepareActivePassSummary
  inscriptionPayload : Value
  inscriptionPayloadJson : String
  prepareRequest : Value

/-- What the handlers reach outside the process: the state the probes report, the address
decoder, the active pass the indexer answers with, and the JSON printer. -/
structure AppState where
  services : ServicesSummary
  addressStringToScriptHash : String → Network → Except String String
  fetchOwnerActivePassSummary : String → Except String (Option BtcMintPrepareActivePassSummary)
  toStringPretty : Value → Except String String

def splitOnce (separator : Char) (value : List Char) : Option (List Char × List Char) :=
  match value.dropWhile (· != separator) with
  | [] => none
  | _ :: rest => some (value.takeWhile (· != separator), rest)

def parseBalanceHistoryNetwork (network : String) : Except String Network :=
  match network.toLower with
  | "bitcoin" | "main" | "mainnet" => .ok .Bitcoin
  | "test" | "testnet" | "testnet3" => .ok .Testnet
  | "testnet4" => .ok .Testnet4
  | "regtest" => .ok .Regtest
  | "signet" => .ok .Signet
  | other => .error s!"unknown network {other}"

def resolveRuntimeBtcNetworkName (services : ServicesSummary) : Option String :=
  ((services.btcNode.data.bind (·.chain)).orElse
    fun _ => services.balanceHistory.data.bind (·.network)).map trim |>.filter (· != "")

def classifyBtcRuntimeProfile (network : Option String) : String :=
  match network.map fun value => (trim value).toLower with
  | some "regtest" => "development"
  | some "bitcoin" | some "main" | some "mainnet" | some "test" | some "testnet"
  | some "testnet3" | some "testnet4" | some "signet" => "public"
  | _ => "unknown"

def buildCapabilitiesSummary (services : ServicesSummary) : CapabilitiesSummary :=
  let ordAvailable :=
    services.ord.reachable && (services.ord.data.bind (·.backendReady)).getD false
  { ordAvailable
    btcRuntimeProfile := classifyBtcRuntimeProfile (resolveRuntimeBtcNetworkName services)
    btcConsoleMode := if ordAvailable then "inscription_enabled" else "read_only" }

def isValidEvmAddress (value : String) : Bool :=
  (asBytes value).length == 42 && "0x".toList.isPrefixOf value.toList &&
    (value.toList.drop 2).all isAsciiHexdigit

def isValidInscriptionId (value : String) : Bool :=
  match splitOnce 'i' value.toList with
  | none => false
  | some (txid, index) =>
    (asBytes (String.ofList txid)).length == 64 && txid.all isAsciiHexdigit &&
      !index.isEmpty && index.all Char.isDigit

def normalizeRequiredText (field value : String) : Except String String :=
  let normalized := trim value
  if normalized = "" then .error s!"{field} is required" else .ok normalized

def normalizeEvmAddress (field value : String) : Except String String := do
  let normalized ← normalizeRequiredText field value
  if !isValidEvmAddress normalized then
    throw
      s!"{field} must be a valid EVM address with 0x prefix and 40 hexadecimal characters"
  return normalized

def normalizeOptionalEvmAddress (field : String) (value : Option String) :
    Except String (Option String) :=
  match value with
  | some item => if trim item ≠ "" then some <$> normalizeEvmAddress field item else .ok none
  | none => .ok none

/-- One entry of the list: blank entries and repetitions are skipped. -/
def pushPrev (normalized : List String) (item : String) : Except String (List String) :=
  let candidate := trim item
  if candidate = "" then .ok normalized
  else if !isValidInscriptionId candidate then
    .error
      s!"prev entry {candidate} must follow the inscription id format <txid>i<index>"
  else if normalized.any (· == candidate) then .ok normalized
  else .ok (normalized ++ [candidate])

def normalizePrevList (values : List String) : Except String (List String) :=
  values.foldlM pushPrev []

def mintBlockers (capabilities : CapabilitiesSummary)
    (ordQueryReady balanceHistoryReady usdbIndexerReady : Bool) : List String :=
  (if capabilities.btcConsoleMode ≠ "inscription_enabled" then
    ["The current BTC runtime is still in read-only mode. Start an inscription-enabled runtime " ++
      "before preparing mint flow."]
    else []) ++
  (if !capabilities.ordAvailable then ["ORD backend is not available in the current stack."]
    else if !ordQueryReady then
      ["ORD backend is online but not fully synced to the BTC tip yet."]
    else []) ++
  (if !balanceHistoryReady then
    ["balance-history is not query-ready yet. Wait until address balance queries are ready."]
    else []) ++
  (if !usdbIndexerReady then
    ["usdb-indexer is not query-ready yet. Wait until miner-pass state queries are ready."]
    else [])

def mintWarnings (ownerAddress : String) (prev : List String) :
    Option BtcMintPrepareActivePassSummary → List String
  | none => []
  | some activePass =>
    if prev.isEmpty then
      [s!"Owner {ownerAddress} already has an active pass {activePass.inscriptionId}. " ++
        "A remint usually references the current active pass via prev."]
    else if !prev.contains activePass.inscriptionId then
      [s!"Owner {ownerAddress} already has an active pass {activePass.inscriptionId}. " ++
        "Current prev does not reference it."]
    else []

/-- The payload has no `eth_collab` member without a collaborator and no `prev` member for
an empty list. -/
def inscriptionMap (ethMain : String) (ethCollab : Option String) (prev : List String) :
    List (String × Value) :=
  [("p", .string "usdb"), ("op", .string "mint"), ("eth_main", .string ethMain)] ++
    (match ethCollab with
      | some value => [("eth_collab", .string value)]
      | none => []) ++
    (if prev.isEmpty then [] else [("prev", .array (prev.map .string))])

def badRequest {α : Type} (result : Except String α) : Except ApiError α :=
  result.mapError fun error => { status := .BadRequest, error }

/-- The owner's active pass, which is looked up only while the indexer is ready. -/
def resolveActivePass (state : AppState) (usdbIndexerReady : Bool)
    (ownerAddress ownerScriptHash : String) :
    Except ApiError (Option BtcMintPrepareActivePassSummary) :=
  if usdbIndexerReady then
    (state.fetchOwnerActivePassSummary ownerScriptHash).mapError fun error =>
      { status := .BadGateway
        error := s!"Failed to resolve the current active pass for {ownerAddress}: {error}" }
  else .ok none

def prepareBtcMintContext (state : AppState) (request : BtcMintPrepareRequest) :
    Except ApiError BtcMintPrepareResponse := do
  let services := state.services
  let capabilities := buildCapabilitiesSummary services
  let some btcNetworkName := resolveRuntimeBtcNetworkName services
    | throw { status := .BadGateway
              error := "Failed to resolve the active BTC runtime network from btc-node or " ++
                "balance-history" }
  let btcNetwork ← (parseBalanceHistoryNetwork btcNetworkName).mapError fun error =>
    { status := .BadGateway
      error := s!"Unsupported BTC runtime network {btcNetworkName}: {error}" }
  let ownerAddress ← badRequest (normalizeRequiredText "owner_address" request.ownerAddress)
  let ownerScriptHash ← badRequest (state.addressStringToScriptHash ownerAddress btcNetwork)
  let ethMain ← badRequest (normalizeEvmAddress "eth_main" request.ethMain)
  let ethCollab ← badRequest (normalizeOptionalEvmAddress "eth_collab" request.ethCollab)
  let prev ← badRequest (normalizePrevList request.prev)
  let ordQueryReady := (services.ord.data.bind (·.queryReady)).getD false
  let balanceHistoryReady := (services.balanceHistory.data.bind (·.queryReady)).getD false
  let usdbIndexerReady := (services.usdbIndexer.data.bind (·.queryReady)).getD false
  let activePass ← resolveActivePass state usdbIndexerReady ownerAddress ownerScriptHash
  let blockers :=
    mintBlockers capabilities ordQueryReady balanceHistoryReady usdbIndexerReady
  let inscriptionPayload := Value.object (inscriptionMap ethMain ethCollab prev)
  let inscriptionPayloadJson ← (state.toStringPretty inscriptionPayload).mapError fun error =>
    { status := .InternalServerError
      error := s!"Failed to render inscription payload: {error}" }
  return {
    eligible := blockers.isEmpty
    prepareMode := "draft_only"
    blockers
    warnings := mintWarnings ownerAddress prev activePass
    runtime := {
      btcNetwork := btcNetworkName
      btcRuntimeProfile := capabilities.btcRuntimeProfile
      btcConsoleMode := capabilities.btcConsoleMode
      ordAvailable := capabilities.ordAvailable
      ordQueryReady
      balanceHistoryReady
      usdbIndexerReady
      ordSyncedBlockHeight := services.ord.data.bind (·.syncedBlockHeight)
      btcTipHeight := services.ord.data.bind (·.btcTipHeight)
      ordSyncGap := services.ord.data.bind (·.syncGap) }
    ownerAddress
    ownerScriptHash
    ethMain
    ethCollab
    prev
    suggestedPrev := (activePass.map (·.inscriptionId)).toList
    activePass
    inscriptionPayload
    inscriptionPayloadJson
    prepareRequest := .object [
      ("prepare_mode", .string "draft_only"),
      ("protocol", .string "usdb-btc-mint-draft-v1"),
      ("wallet_signing", .string "psbt"),
      ("runtime_btc_network", .string btcNetworkName),
      ("owner_address", .string ownerAddress),
      ("owner_script_hash", .string ownerScriptHash),
      ("inscription", .object [
        ("content_type", .string "application/json"),
        ("payload", inscriptionPayload)]),
      ("psbt", .null)] }

/-- An address the request handler lets through is an address to the indexer. -/
theorem isValidEthAddress_of_isValidEvmAddress {value : String} (h : isValidEvmAddress value) :
    isValidEthAddress value := by
  simp only [isValidEvmAddress, Bool.and_eq_true] at h
  obtain ⟨⟨hlength, hprefix⟩, hdigits⟩ := h
  obtain ⟨rest, hrest⟩ := List.isPrefixOf_iff_prefix.mp hprefix
  have hdrop : (asBytes value).drop 2 = (value.toList.drop 2).flatMap String.utf8EncodeChar := by
    rw [asBytes_eq_flatMap, ← hrest, List.flatMap_append]
    rfl
  rw [isValidEthAddress, hlength, hprefix, hdrop]
  exact (flatMap_utf8EncodeChar_hexdigits hdigits).2

theorem normalizeEvmAddress_ok {field value address : String}
    (h : normalizeEvmAddress field value = .ok address) :
    address = trim value ∧ isValidEthAddress address := by
  obtain ⟨normalized, hnormalized, h⟩ := bind_eq_ok_iff.mp h
  rw [normalizeRequiredText] at hnormalized
  split_ifs at hnormalized
  cases hnormalized
  cases hvalid : isValidEvmAddress (trim value) with
  | false =>
    rw [hvalid] at h
    cases h
  | true =>
    rw [hvalid] at h
    cases h
    exact ⟨rfl, isValidEthAddress_of_isValidEvmAddress hvalid⟩

theorem normalizeOptionalEvmAddress_ok {field : String} {value address : Option String}
    (h : normalizeOptionalEvmAddress field value = .ok address) :
    address = (value.map trim).filter (· != "") ∧ ∀ a ∈ address, isValidEthAddress a := by
  cases value with
  | none =>
    cases h
    exact ⟨rfl, fun a ha => (nomatch ha)⟩
  | some item =>
    by_cases hblank : trim item = ""
    · rw [normalizeOptionalEvmAddress, if_neg (not_not.mpr hblank)] at h
      cases h
      exact ⟨by simp [hblank, Option.filter], fun a ha => (nomatch ha)⟩
    · rw [normalizeOptionalEvmAddress, if_pos hblank] at h
      cases hn : normalizeEvmAddress field item with
      | error e =>
        rw [hn] at h
        cases h
      | ok normalized =>
        rw [hn] at h
        cases h
        obtain ⟨heq, hvalid⟩ := normalizeEvmAddress_ok hn
        refine ⟨by simp [heq, hblank, Option.filter], fun a ha => ?_⟩
        cases ha
        exact hvalid

/-- The normalized list holds the text of every entry that is not blank once, in the order
of first mention, and each such text is an inscription id. -/
theorem normalizePrevList_ok {values normalized : List String}
    (h : normalizePrevList values = .ok normalized) :
    normalized = ((values.map trim).filter (· != "")).eraseDups ∧
      ∀ item ∈ values, trim item ≠ "" → isValidInscriptionId (trim item) := by
  suffices hloop : ∀ start, values.foldlM pushPrev start = .ok normalized →
      normalized =
        List.eraseDupsBy.loop (· == ·) ((values.map trim).filter (· != "")) start.reverse ∧
      ∀ item ∈ values, trim item ≠ "" → isValidInscriptionId (trim item) from
    hloop [] h
  clear h
  induction values with
  | nil =>
    intro start h
    cases h
    exact ⟨(List.reverse_reverse _).symm, fun item hitem => (nomatch hitem)⟩
  | cons item values ih =>
    intro start h
    rw [List.foldlM_cons] at h
    obtain ⟨next, hnext, h⟩ := bind_eq_ok_iff.mp h
    obtain ⟨heq, hvalids⟩ := ih next h
    rw [heq, List.map_cons, List.forall_mem_cons]
    rw [pushPrev] at hnext
    split_ifs at hnext with hblank hvalid hknown
    · cases hnext
      rw [List.filter_cons_of_neg (by simp [hblank])]
      exact ⟨rfl, fun hne => absurd hblank hne, hvalids⟩
    · cases hnext
      have hany : start.reverse.any (trim item == ·) = true := by
        rw [List.any_reverse, ← hknown]
        exact congrArg start.any (funext fun text => Bool.beq_comm)
      rw [List.filter_cons_of_pos (by simp [hblank]), List.eraseDupsBy.loop, hany]
      exact ⟨rfl, fun _ => by simpa using hvalid, hvalids⟩
    · cases hnext
      have hany : start.reverse.any (trim item == ·) = false := by
        rw [List.any_reverse, ← Bool.eq_false_iff.mpr hknown]
        exact congrArg start.any (funext fun text => Bool.beq_comm)
      rw [List.filter_cons_of_pos (by simp [hblank]), List.eraseDupsBy.loop, hany,
        List.reverse_append]
      exact ⟨rfl, fun _ => by simpa using hvalid, hvalids⟩

/-- The payload says what the request said, unless the list of references is empty. -/
theorem fromValue_inscriptionMap (ethMain : String) (ethCollab : Option String)
    (prev : List String) :
    USDBMint.fromValue (inscriptionMap ethMain ethCollab prev) =
      if prev = [] then .error "missing field `prev`" else .ok { ethMain, ethCollab, prev } := by
  cases prev with
  | nil => cases ethCollab <;> rfl
  | cons text prev =>
    rw [USDBMint.fromValue, inscriptionMap.eq_def, List.isEmpty_cons, List.foldlM_append,
      if_neg Bool.false_ne_true, if_neg (List.cons_ne_nil _ _)]
    simp only [List.foldlM_cons, List.foldlM_nil, MintMembers.visit_prev]
    cases ethCollab <;> rfl

/-- The index of an inscription id, as the digits after its first `i`. -/
def indexDigits (text : String) : List Char :=
  ((splitOnce 'i' text.toList).map (·.2)).getD []

theorem splitOnce_eq_some {separator : Char} {value left right : List Char} :
    splitOnce separator value = some (left, right) ↔
      value = left ++ separator :: right ∧ separator ∉ left := by
  rw [splitOnce]
  cases hdrop : value.dropWhile (· != separator) with
  | nil =>
    refine iff_of_false (fun h => (nomatch h)) ?_
    rintro ⟨rfl, -⟩
    have hall := List.dropWhile_eq_nil_iff.mp hdrop separator (by simp)
    simp at hall
  | cons c rest =>
    have hc : c = separator := by
      have hhead := List.head?_dropWhile_not (· != separator) value
      rw [hdrop] at hhead
      simpa using hhead
    have htake := @List.takeWhile_append_dropWhile _ (· != separator) value
    rw [hdrop, hc] at htake
    constructor
    · intro h
      cases h
      exact ⟨htake.symm, fun hmem => by simpa using List.mem_takeWhile_imp hmem⟩
    · rintro ⟨rfl, hnot⟩
      have hleft : ∀ d ∈ left, (d != separator) = true := by
        intro d hd
        simpa using fun heq : d = separator => hnot (heq ▸ hd)
      rw [List.dropWhile_append_of_pos hleft] at hdrop
      rw [List.takeWhile_append_of_pos hleft]
      simp at hdrop
      simp [hdrop]

/-- The indexer reads an id the request handler let through when its index is a `u32`. -/
theorem fromStr_isOk_iff (format : InscriptionIdFormat) {text : String}
    (h : isValidInscriptionId text) :
    (format.fromStr text).isOk ↔ decimalValue (indexDigits text) < 2 ^ 32 := by
  rw [isValidInscriptionId] at h
  split at h
  · cases h
  · next txid index hsplit =>
    simp only [Bool.and_eq_true, Bool.not_eq_true', List.isEmpty_eq_false_iff] at h
    obtain ⟨⟨⟨hlength, hhex⟩, hne⟩, hdigits⟩ := h
    have hindex : indexDigits text = index := by rw [indexDigits, hsplit]; rfl
    rw [format.fromStr_ok_iff, hindex, ← parseU32_digits hne hdigits]
    obtain ⟨htext, hnot⟩ := splitOnce_eq_some.mp hsplit
    have htxid : txid.length = 64 := by
      rw [← (flatMap_utf8EncodeChar_hexdigits hhex).1, ← asBytes_ofList]
      simpa using hlength
    constructor
    · rintro ⟨txid', index', htext', -, hhex', hindex'⟩
      have hnot' : 'i' ∉ txid' := by
        intro hmem
        exact absurd (List.all_eq_true.mp hhex' 'i' hmem) (by decide)
      rw [splitOnce_eq_some.mpr ⟨htext', hnot'⟩] at hsplit
      cases hsplit
      exact hindex'
    · exact fun h => ⟨txid, index, htext, htxid, hhex, h⟩

/-- What a request asks to mint: its texts without surrounding blanks, no collaborator for a
blank one, and every reference that is not blank once, in the order of first mention. -/
def requestedMint (request : BtcMintPrepareRequest) : Content.USDBMint where
  ethMain := trim request.ethMain
  ethCollab := (request.ethCollab.map trim).filter (· != "")
  prev := ((request.prev.map trim).filter (· != "")).eraseDups

/-- What an accepted request is rendered from. -/
theorem prepareBtcMintContext_ok {state : AppState} {request : BtcMintPrepareRequest}
    {prepared : BtcMintPrepareResponse}
    (h : prepareBtcMintContext state request = .ok prepared) :
    ∃ ethMain ethCollab prev,
      normalizeEvmAddress "eth_main" request.ethMain = .ok ethMain ∧
      normalizeOptionalEvmAddress "eth_collab" request.ethCollab = .ok ethCollab ∧
      normalizePrevList request.prev = .ok prev ∧
      prepared.inscriptionPayload = .object (inscriptionMap ethMain ethCollab prev) := by
  have hbad : ∀ {α : Type} {result : Except String α} {a : α},
      badRequest result = .ok a → result = .ok a := by
    intro α result a hok
    cases result with
    | error e => cases hok
    | ok b => simpa [badRequest, Except.mapError] using hok
  rw [prepareBtcMintContext] at h
  split at h
  · next btcNetworkName hname =>
    obtain ⟨network, -, h⟩ := bind_eq_ok_iff.mp h
    obtain ⟨ownerAddress, -, h⟩ := bind_eq_ok_iff.mp h
    obtain ⟨ownerScriptHash, -, h⟩ := bind_eq_ok_iff.mp h
    obtain ⟨ethMain, hmain, h⟩ := bind_eq_ok_iff.mp h
    obtain ⟨ethCollab, hcollab, h⟩ := bind_eq_ok_iff.mp h
    obtain ⟨prev, hprev, h⟩ := bind_eq_ok_iff.mp h
    refine ⟨ethMain, ethCollab, prev, hbad hmain, hbad hcollab, hbad hprev, ?_⟩
    obtain ⟨activePass, -, h⟩ := bind_eq_ok_iff.mp h
    obtain ⟨json, -, h⟩ := bind_eq_ok_iff.mp h
    cases h
    rfl
  · cases h

theorem classifyMintContent_inscriptionMap (format : InscriptionIdFormat)
    (inscriptionId : InscriptionId) (ethMain : String) (ethCollab : Option String)
    {prev : List String} (hprev : prev ≠ []) :
    classifyMintContent format inscriptionId
        (.object (inscriptionMap ethMain ethCollab prev)) =
      checkMint format inscriptionId { ethMain, ethCollab, prev } := by
  have hp : (inscriptionMap ethMain ethCollab prev).lookup "p" = some (.string "usdb") := rfl
  have hop : (inscriptionMap ethMain ethCollab prev).lookup "op" = some (.string "mint") := rfl
  rw [classifyMintContent, hp, hop, fromValue_inscriptionMap, if_neg hprev]
  rfl

/-- A payload without references lacks the `prev` member the indexer requires. -/
theorem classifyMintContent_inscriptionMap_nil (format : InscriptionIdFormat)
    (inscriptionId : InscriptionId) (ethMain : String) (ethCollab : Option String) :
    ∃ reason, classifyMintContent format inscriptionId
        (.object (inscriptionMap ethMain ethCollab [])) = .Invalid .InvalidSchema reason := by
  have hp : (inscriptionMap ethMain ethCollab []).lookup "p" = some (.string "usdb") := rfl
  have hop : (inscriptionMap ethMain ethCollab []).lookup "op" = some (.string "mint") := rfl
  rw [classifyMintContent, hp, hop, fromValue_inscriptionMap]
  exact ⟨_, rfl⟩

/-- A prepared payload is accepted with what its request asked for exactly when the request
has a reference and every reference has an index below `2 ^ 32`. -/
theorem prepareBtcMintContext_classified (format : InscriptionIdFormat)
    (inscriptionId : InscriptionId) {state : AppState} {request : BtcMintPrepareRequest}
    {prepared : BtcMintPrepareResponse}
    (h : prepareBtcMintContext state request = .ok prepared) :
    classifyMintContent format inscriptionId prepared.inscriptionPayload =
        .Valid (requestedMint request) ↔
      (∃ item ∈ request.prev, trim item ≠ "") ∧
        ∀ item ∈ request.prev, decimalValue (indexDigits (trim item)) < 2 ^ 32 := by
  obtain ⟨ethMain, ethCollab, prev, hmain, hcollab, hprev, hpayload⟩ := prepareBtcMintContext_ok h
  obtain ⟨hmainEq, hmain⟩ := normalizeEvmAddress_ok hmain
  obtain ⟨hcollabEq, hcollab⟩ := normalizeOptionalEvmAddress_ok hcollab
  obtain ⟨hprev, hvalid⟩ := normalizePrevList_ok hprev
  have hmint : requestedMint request = ⟨ethMain, ethCollab, prev⟩ := by
    rw [hmainEq, hcollabEq, hprev, requestedMint]
  have hmem : ∀ text, text ∈ prev ↔ ∃ item ∈ request.prev, trim item = text ∧ trim item ≠ "" := by
    intro text
    rw [hprev, List.mem_eraseDups, List.mem_filter, List.mem_map, bne_iff_ne]
    constructor
    · rintro ⟨⟨item, hitem, rfl⟩, hne⟩
      exact ⟨item, hitem, rfl, hne⟩
    · rintro ⟨item, hitem, rfl, hne⟩
      exact ⟨⟨item, hitem, rfl⟩, hne⟩
  rw [hpayload]
  by_cases hnil : prev = []
  · obtain ⟨reason, hreason⟩ := classifyMintContent_inscriptionMap_nil format inscriptionId
      ethMain ethCollab
    rw [hnil, hreason]
    refine iff_of_false (fun heq => (nomatch heq)) ?_
    rintro ⟨⟨item, hitem, hne⟩, -⟩
    have hin := (hmem (trim item)).mpr ⟨item, hitem, rfl, hne⟩
    rw [hnil] at hin
    exact (nomatch hin)
  · rw [classifyMintContent_inscriptionMap _ _ _ _ hnil, hmint,
      checkMint_eq_valid_iff format inscriptionId ⟨ethMain, ethCollab, prev⟩ hmain hcollab]
    obtain ⟨text, htext⟩ := List.exists_mem_of_ne_nil prev hnil
    obtain ⟨first, hfirst, -, hfirstNe⟩ := (hmem text).mp htext
    constructor
    · intro hok
      refine ⟨⟨first, hfirst, hfirstNe⟩, fun item hitem => ?_⟩
      by_cases hblank : trim item = ""
      · rw [hblank]
        decide
      · exact (fromStr_isOk_iff format (hvalid item hitem hblank)).mp
          (hok _ ((hmem _).mpr ⟨item, hitem, rfl, hblank⟩))
    · rintro ⟨-, hall⟩ text htext
      obtain ⟨item, hitem, rfl, hne⟩ := (hmem text).mp htext
      exact (fromStr_isOk_iff format (hvalid item hitem hne)).mpr (hall item hitem)

/-- The value of a run of hexadecimal digits. -/
def hexValue (digits : List Char) : Nat :=
  digits.foldl (fun value digit => 16 * value +
    if digit.isDigit then digit.toNat - '0'.toNat else digit.toLower.toNat - 'a'.toNat + 10) 0

def parseInscriptionId (text : String) : Except String InscriptionId :=
  match splitOnce 'i' text.toList with
  | none => .error "invalid separator"
  | some (txid, index) =>
    if txid.length = 64 ∧ txid.all isAsciiHexdigit then
      match parseU32 index with
      | some index => .ok ⟨hexValue txid, index⟩
      | none => .error "invalid index"
    else .error "invalid txid"

theorem parseInscriptionId_isOk_iff (text : String) :
    (parseInscriptionId text).isOk ↔ IsInscriptionIdText text := by
  constructor
  · intro h
    rw [parseInscriptionId] at h
    split at h
    · cases h
    · next txid index hsplit =>
      split at h
      · next hhex =>
        refine ⟨txid, index, (splitOnce_eq_some.mp hsplit).1, hhex.1, hhex.2, ?_⟩
        cases hindex : parseU32 index with
        | none =>
          rw [hindex] at h
          cases h
        | some value => rfl
      · cases h
  · rintro ⟨txid, index, htext, hlength, hhex, hindex⟩
    have hnot : 'i' ∉ txid := by
      intro hmem
      exact absurd (List.all_eq_true.mp hhex 'i' hmem) (by decide)
    obtain ⟨value, hvalue⟩ := Option.isSome_iff_exists.mp hindex
    rw [parseInscriptionId, splitOnce_eq_some.mpr ⟨htext, hnot⟩]
    simp [hlength, hhex, hvalue, Except.isOk, Except.toBool]

def inscriptionIdFormat : InscriptionIdFormat where
  display id :=
    String.ofList ((Nat.toDigits 16 id.txid).leftpad 64 '0') ++ "i" ++ toString id.index
  fromStr := parseInscriptionId
  fromStr_ok_iff := parseInscriptionId_isOk_iff

/-- A regtest stack with every service ready and an owner without a pass. -/
def regtestState (json : String) : AppState where
  services :=
    { btcNode := ⟨true, some ⟨some "regtest"⟩⟩
      balanceHistory := ⟨true, some ⟨some "regtest", some true⟩⟩
      usdbIndexer := ⟨true, some ⟨some true⟩⟩
      ord := ⟨true, some ⟨some true, some true, some 200, some 200, some 0⟩⟩ }
  addressStringToScriptHash _ _ :=
    .ok "9623df75239b5daa7f5f03042d325b51498c4bb7059c7748b17049bf96f73888"
  fetchOwnerActivePassSummary _ := .ok none
  toStringPretty _ := .ok json

def mintRequest (prev : List String) : BtcMintPrepareRequest where
  ownerAddress := "bcrt1qw508d6qejxtdg4y5r3zarvary0c5xw7kygt080"
  ethMain := "0x1111111111111111111111111111111111111111"
  ethCollab := none
  prev

def previousPass : String :=
  "0123456789abcdef0123456789abcdef0123456789abcdef0123456789abcdefi0"

def firstMintJson : String :=
  "\x7b\n  \"p\": \"usdb\",\n  \"op\": \"mint\",\n  \"eth_main\": " ++
    "\"0x1111111111111111111111111111111111111111\"\n\x7d"

def remintJson : String :=
  "\x7b\n  \"p\": \"usdb\",\n  \"op\": \"mint\",\n  \"eth_main\": " ++
    "\"0x1111111111111111111111111111111111111111\",\n  \"prev\": [\n    " ++
    "\"0123456789abcdef0123456789abcdef0123456789abcdef0123456789abcdefi0\"\n  ]\n\x7d"

/-- A request that names one earlier pass goes through. -/
theorem prepareBtcMintContext_classified_remint :
    ∃ prepared,
      prepareBtcMintContext (regtestState remintJson) (mintRequest [previousPass]) =
        .ok prepared ∧
      classifyMintContent inscriptionIdFormat ⟨1, 0⟩ prepared.inscriptionPayload =
        .Valid (requestedMint (mintRequest [previousPass])) := by
  have hok : (prepareBtcMintContext (regtestState remintJson)
      (mintRequest [previousPass])).isOk = true := by decide +kernel
  obtain ⟨prepared, h⟩ := isOk_iff_exists.mp hok
  exact ⟨prepared, h,
    (prepareBtcMintContext_classified inscriptionIdFormat ⟨1, 0⟩ h).mpr (by decide +kernel)⟩

/-- A first mint, which has no earlier pass to name, is accepted by the handler and invalid
to the indexer. -/
theorem prepareBtcMintContext_firstMint :
    ∃ prepared,
      prepareBtcMintContext (regtestState firstMintJson) (mintRequest []) = .ok prepared ∧
      ∀ mint, classifyMintContent inscriptionIdFormat ⟨1, 0⟩ prepared.inscriptionPayload ≠
        .Valid mint := by
  have hok : (prepareBtcMintContext (regtestState firstMintJson) (mintRequest [])).isOk = true := by
    decide +kernel
  obtain ⟨prepared, h⟩ := isOk_iff_exists.mp hok
  obtain ⟨ethMain, ethCollab, prev, -, -, hprev, hpayload⟩ := prepareBtcMintContext_ok h
  cases hprev
  obtain ⟨reason, hreason⟩ := classifyMintContent_inscriptionMap_nil inscriptionIdFormat ⟨1, 0⟩
    ethMain ethCollab
  refine ⟨prepared, h, fun mint => ?_⟩
  rw [hpayload, hreason]
  exact fun heq => (nomatch heq)

end Usdb.ControlPlane
