import Mathlib.Data.List.DropRight
import Usdb.Index.Indexer
import Usdb.Index.CommitChain
import Usdb.Framework.Traverse

namespace Usdb

/-- A JSON value. An object lists its members in the order they were inserted. -/
inductive Value
  | null
  | bool (value : Bool)
  | integer (value : Int)
  | float (text : String)
  | string (value : String)
  | array (items : List Value)
  | object (members : List (String × Value))

namespace Value

def asStr : Value → Option String
  | string value => some value
  | _ => none

/-- The words a deserialization error uses for the value it found. -/
def unexpected : Value → String
  | null => "null"
  | bool value => s!"boolean `{value}`"
  | integer value => s!"integer `{value}`"
  | float text => s!"floating point `{text}`"
  | string value => s!"string {value.quote}"
  | array _ => "sequence"
  | object _ => "map"

def invalidType (value : Value) (expected : String) : String :=
  s!"invalid type: {value.unexpected}, expected {expected}"

def deserializeString : Value → Except String String
  | string value => .ok value
  | value => .error (value.invalidType "a string")

def deserializeOptionString : Value → Except String (Option String)
  | null => .ok none
  | value => some <$> value.deserializeString

def deserializeVecString : Value → Except String (List String)
  | array items => items.mapM deserializeString
  | value => .error (value.invalidType "a sequence")

/-- A list of strings reads back as it was written. -/
theorem mapM_deserializeString (l : List String) :
    (l.map string).mapM deserializeString = Except.ok l := by
  induction l with
  | nil => rfl
  | cons text l ih =>
    rw [List.map_cons, List.mapM_cons, ih]
    rfl

end Value

namespace Content

open Framework

/-- The characters with the Unicode `White_Space` property. -/
def isWhitespace (c : Char) : Bool :=
  let n := c.toNat
  (0x9 ≤ n && n ≤ 0xD) || n == 0x20 || n == 0x85 || n == 0xA0 || n == 0x1680 ||
    (0x2000 ≤ n && n ≤ 0x200A) || n == 0x2028 || n == 0x2029 || n == 0x202F || n == 0x205F ||
    n == 0x3000

def trim (value : String) : String :=
  String.ofList ((value.toList.dropWhile isWhitespace).rdropWhile isWhitespace)

def isAsciiHexdigit (c : Char) : Bool :=
  c.isDigit || ('a' ≤ c && c ≤ 'f') || ('A' ≤ c && c ≤ 'F')

theorem isAsciiHexdigit_le {c : Char} (h : isAsciiHexdigit c) : c.val ≤ 0x7F := by
  simp only [isAsciiHexdigit, Char.isDigit, Bool.or_eq_true, Bool.and_eq_true, decide_eq_true_eq,
    UInt32.le_iff_toNat_le, ge_iff_le, Char.le_def] at h ⊢
  have h9 : '9'.val.toNat = 57 := rfl
  have hf : 'f'.val.toNat = 102 := rfl
  have hF : 'F'.val.toNat = 70 := rfl
  have h7F : UInt32.toNat 0x7F = 127 := rfl
  omega

theorem utf8EncodeChar_hexdigit {c : Char} (h : isAsciiHexdigit c) :
    ∃ b : UInt8, String.utf8EncodeChar c = [b] ∧ Char.ofNat b.toNat = c := by
  have hc := isAsciiHexdigit_le h
  refine ⟨c.val.toUInt8, String.utf8EncodeChar_eq_singleton (Char.utf8Size_eq_one_iff.mpr hc), ?_⟩
  have hval : c.val.toUInt8.toNat = c.toNat := by
    rw [UInt32.toNat_toUInt8]
    have := UInt32.le_iff_toNat_le.mp hc
    have h7F : UInt32.toNat 0x7F = 127 := rfl
    exact Nat.mod_eq_of_lt (by omega)
  rw [hval, Char.ofNat_toNat]

theorem asBytes_eq_flatMap (s : String) :
    asBytes s = s.toList.flatMap String.utf8EncodeChar := by
  rw [← asBytes_ofList, String.ofList_toList]

/-- Hexadecimal text has one byte for each of its digits. -/
theorem flatMap_utf8EncodeChar_hexdigits {l : List Char} (h : l.all isAsciiHexdigit) :
    (l.flatMap String.utf8EncodeChar).length = l.length ∧
      (l.flatMap String.utf8EncodeChar).all fun b => isAsciiHexdigit (Char.ofNat b.toNat) := by
  induction l with
  | nil => exact ⟨rfl, rfl⟩
  | cons c l ih =>
    rw [List.all_cons, Bool.and_eq_true] at h
    obtain ⟨b, hb, hofNat⟩ := utf8EncodeChar_hexdigit h.1
    obtain ⟨hlength, hall⟩ := ih h.2
    rw [List.flatMap_cons, hb]
    refine ⟨by simp [hlength], ?_⟩
    rw [List.singleton_append, List.all_cons, hofNat, h.1, Bool.true_and]
    exact hall

/-- The value of a run of decimal digits. -/
def decimalValue (digits : List Char) : Nat :=
  digits.foldl (fun value digit => 10 * value + (digit.toNat - '0'.toNat)) 0

/-- The text of a `u32`: digits, with an optional plus sign before them, whose value fits. -/
def parseU32 (text : List Char) : Option Nat :=
  let digits := if text.head? = some '+' then text.tail else text
  if digits ≠ [] ∧ digits.all Char.isDigit ∧ decimalValue digits < 2 ^ 32 then
    some (decimalValue digits)
  else none

theorem parseU32_digits {index : List Char} (hne : index ≠ []) (hdigits : index.all Char.isDigit) :
    (parseU32 index).isSome ↔ decimalValue index < 2 ^ 32 := by
  have hplus : index.head? ≠ some '+' := by
    intro h
    have hdigit := List.all_eq_true.mp hdigits '+' (List.mem_of_head? h)
    exact absurd hdigit (by decide)
  rw [parseU32, if_neg hplus]
  by_cases h : decimalValue index < 2 ^ 32
  · rw [if_pos ⟨hne, hdigits, h⟩]
    exact iff_of_true rfl h
  · rw [if_neg (fun hall => h hall.2.2)]
    exact iff_of_false Bool.false_ne_true h

def IsInscriptionIdText (text : String) : Prop :=
  ∃ txid index, text.toList = txid ++ 'i' :: index ∧ txid.length = 64 ∧
    txid.all isAsciiHexdigit ∧ (parseU32 index).isSome

/-- How inscription ids are printed and read. Reading accepts sixty-four hexadecimal
digits, the letter `i` and an index. -/
structure InscriptionIdFormat where
  display : InscriptionId → String
  fromStr : String → Except String InscriptionId
  fromStr_ok_iff : ∀ text, (fromStr text).isOk ↔ IsInscriptionIdText text

/-- A mint payload as it is written, before its `prev` list is read. -/
structure USDBMint where
  ethMain : String
  ethCollab : Option String
  prev : List String
deriving DecidableEq, Repr

def USDBMint.prevInscriptionIds (format : InscriptionIdFormat) (mint : USDBMint) :
    Except String (List InscriptionId) :=
  mint.prev.mapM fun prev =>
    (format.fromStr prev).mapError fun e =>
      s!"Failed to parse prev inscription id {prev} in USDBMint: {e}"

inductive ParsedMintContent
  | NotUsdbMint
  | Valid (inscription : USDBMint)
  | Invalid (code : MintValidationErrorCode) (reason : String)
deriving DecidableEq, Repr

/-- The members of a mint payload found so far. -/
structure MintMembers where
  ethMain : Option String := none
  ethCollab : Option (Option String) := none
  prev : Option (List String) := none

def MintMembers.visit (found : MintMembers) (member : String × Value) :
    Except String MintMembers :=
  match member with
  | ("eth_main", value) => do
    let ethMain ← value.deserializeString
    return { found with ethMain := some ethMain }
  | ("eth_collab", value) => do
    let ethCollab ← value.deserializeOptionString
    return { found with ethCollab := some ethCollab }
  | ("prev", value) => do
    let prev ← value.deserializeVecString
    return { found with prev := some prev }
  | _ => return found

theorem MintMembers.visit_prev (found : MintMembers) (l : List String) :
    found.visit ("prev", .array (l.map .string)) = .ok { found with prev := some l } := by
  change ((l.map Value.string).mapM Value.deserializeString >>= fun prev =>
    (pure { found with prev := some prev } : Except String MintMembers)) = _
  rw [Value.mapM_deserializeString]
  rfl

/-- A member that is absent is an error, unless it is optional. -/
def MintMembers.finish (found : MintMembers) : Except String USDBMint :=
  match found.ethMain, found.prev with
  | none, _ => .error "missing field `eth_main`"
  | some _, none => .error "missing field `prev`"
  | some ethMain, some prev => .ok { ethMain, ethCollab := found.ethCollab.join, prev }

def USDBMint.fromValue (members : List (String × Value)) : Except String USDBMint := do
  (← members.foldlM MintMembers.visit {}).finish

namespace InscriptionContentLoader

def isValidEthAddress (value : String) : Bool :=
  (asBytes value).length == 42 && "0x".toList.isPrefixOf value.toList &&
    ((asBytes value).drop 2).all fun b => isAsciiHexdigit (Char.ofNat b.toNat)

/-- How a parsed mint is judged, one field after the other. -/
def checkMint (format : InscriptionIdFormat) (inscriptionId : InscriptionId) (mint : USDBMint) :
    ParsedMintContent :=
  if !isValidEthAddress mint.ethMain then
    .Invalid .InvalidEthMain
      s!"Invalid eth_main format for inscription {format.display inscriptionId}: {mint.ethMain}"
  else
    match mint.ethCollab.filter (!isValidEthAddress ·) with
    | some collab =>
      .Invalid .InvalidEthCollab
        s!"Invalid eth_collab format for inscription {format.display inscriptionId}: {collab}"
    | none =>
      match mint.prevInscriptionIds format with
      | .error e => .Invalid .InvalidPrevId e
      | .ok _ => .Valid mint

/-- A mint with well-formed addresses is valid when each of its references can be read. -/
theorem checkMint_eq_valid_iff (format : InscriptionIdFormat) (inscriptionId : InscriptionId)
    (mint : USDBMint) (hmain : isValidEthAddress mint.ethMain)
    (hcollab : ∀ a ∈ mint.ethCollab, isValidEthAddress a) :
    checkMint format inscriptionId mint = .Valid mint ↔
      ∀ text ∈ mint.prev, (format.fromStr text).isOk := by
  have hnone : mint.ethCollab.filter (!isValidEthAddress ·) = none := by
    rw [Option.filter_eq_none_iff]
    intro a ha
    simp [hcollab a ha]
  rw [checkMint, hmain, hnone]
  have hread : (∃ ids, mint.prevInscriptionIds format = .ok ids) ↔
      ∀ text ∈ mint.prev, (format.fromStr text).isOk := by
    rw [USDBMint.prevInscriptionIds]
    simp only [mapM_eq_ok, exists_and_left, exists_eq, and_true]
    refine forall₂_congr fun text _ => ?_
    cases format.fromStr text <;> simp [Except.mapError, Except.isOk, Except.toBool]
  rw [← hread]
  cases mint.prevInscriptionIds format <;> simp

def classifyMintContent (format : InscriptionIdFormat) (inscriptionId : InscriptionId) :
    Value → ParsedMintContent
  | .object content =>
    if ((content.lookup "p").bind Value.asStr).getD "" ≠ "usdb" then .NotUsdbMint
    else if ((content.lookup "op").bind Value.asStr).getD "" ≠ "mint" then .NotUsdbMint
    else
      match USDBMint.fromValue content with
      | .error e =>
        .Invalid .InvalidSchema
          s!"Failed to parse USDB mint payload for inscription {format.display inscriptionId}: {e}"
      | .ok mint => checkMint format inscriptionId mint
  | _ => .NotUsdbMint

end InscriptionContentLoader

end Content

end Usdb
