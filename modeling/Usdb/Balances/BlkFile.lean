import Mathlib.Data.List.Basic
import Usdb.Framework.BigEndian
import Usdb.Framework.Traverse

namespace Usdb.Balances

open Framework

inductive BlkFileError
  | unexpectedEof
  | invalidMagic (expected actual : Nat)
  | sizeBeyondFile
  | dataBeyondFile
  | deserialize
deriving DecidableEq, Repr

/-- The two decoders of a block. `consensusDecode` reads a block from the front of a
payload, `deserialize` also fails when bytes are left behind it. -/
structure BlockCodec (β : Type) where
  consensusDecode : List UInt8 → Option β
  deserialize : List UInt8 → Option β
  same : ∀ payload block block', deserialize payload = some block →
    consensusDecode payload = some block' → block = block'

/-- `u32::from_le_bytes` and `to_le_bytes`. -/
def fromLeBytes (bytes : List UInt8) : Nat := ofBigEndian bytes.reverse

def toLeBytes (n : Nat) : List UInt8 := (bigEndian 4 n).reverse

/-- `read_exact` on what is left of a stream. -/
def readExact (n : Nat) (bytes : List UInt8) : Option (List UInt8 × List UInt8) :=
  if n ≤ bytes.length then some (bytes.take n, bytes.drop n) else none

/-- The reader of blk files: the key of `xor.dat`, when there is one, and the magic. -/
structure BlockFileReader where
  xorKey : Option (Vector UInt8 8)
  blockMagic : UInt32

/-- What an `XorReader` yields of the bytes of its inner reader. -/
def xorReader (key : Vector UInt8 8) : Fin 8 → List UInt8 → List UInt8
  | _, [] => []
  | pos, byte :: rest => (byte ^^^ key.get pos) :: xorReader key (pos + 1) rest

/-- The loop of `read_blk_records`. Each turn consumes bytes, so the fuel bounds its turns. -/
def readRecordsLoop (blockMagic : Nat) : Nat → List UInt8 →
    Except BlkFileError (List (List UInt8))
  | 0, _ => .error .unexpectedEof
  | fuel + 1, bytes =>
    match readExact 4 bytes with
    | none => .ok []
    | some (magic, bytes) =>
      if fromLeBytes magic ≠ blockMagic then
        .error (.invalidMagic blockMagic (fromLeBytes magic))
      else
        match readExact 4 bytes with
        | none => .error .unexpectedEof
        | some (size, bytes) =>
          match readExact (fromLeBytes size) bytes with
          | none => .error .unexpectedEof
          | some (data, bytes) => (readRecordsLoop blockMagic fuel bytes).map (data :: ·)

/-- `data[pos..pos + n]`. -/
def slice (data : List UInt8) (pos n : Nat) : List UInt8 := (data.drop pos).take n

/-- The loop of `read_blk_records2`. -/
def readRecords2Loop {β : Type} (codec : BlockCodec β) (blockMagic : Nat) (data : List UInt8) :
    Nat → Nat → Except BlkFileError (List β)
  | 0, _ => .error .unexpectedEof
  | fuel + 1, pos =>
    if pos + 8 ≤ data.length then
      let magic := fromLeBytes (slice data pos 4)
      if magic ≠ blockMagic then .error (.invalidMagic blockMagic magic)
      else if data.length < pos + 4 + 4 then .error .sizeBeyondFile
      else
        let size := fromLeBytes (slice data (pos + 4) 4)
        if data.length < pos + 4 + 4 + size then .error .dataBeyondFile
        else
          match codec.deserialize (slice data (pos + 4 + 4) size) with
          | none => .error .deserialize
          | some block =>
            (readRecords2Loop codec blockMagic data fuel (pos + 4 + 4 + size)).map (block :: ·)
    else .ok []

/-- The records handed to the callback of `build_index_by_file`, with their offsets. -/
def indexLoop {β : Type} (codec : BlockCodec β) :
    Nat → List (List UInt8) → Except BlkFileError (List (Nat × List UInt8))
  | _, [] => .ok []
  | offset, record :: records =>
    match codec.consensusDecode record with
    | none => .error .deserialize
    | some _ =>
      (indexLoop codec (offset + (8 + 4 + record.length)) records).map ((offset, record) :: ·)

def decodeRecord {β : Type} (codec : BlockCodec β) (record : List UInt8) : Except BlkFileError β :=
  match codec.consensusDecode record with
  | none => .error .deserialize
  | some block => .ok block

/-- `read_blk_record` reads the file as it is. -/
def readBlkRecord (file : List UInt8) (offset : Nat) : Except BlkFileError (List UInt8) :=
  match readExact 4 (file.drop offset) with
  | none => .error .unexpectedEof
  | some (_, bytes) =>
    match readExact 4 bytes with
    | none => .error .unexpectedEof
    | some (size, bytes) =>
      match readExact (fromLeBytes size) bytes with
      | none => .error .unexpectedEof
      | some (data, _) => .ok data

namespace BlockFileReader

variable (reader : BlockFileReader) {β : Type} (codec : BlockCodec β) (file : List UInt8)

/-- The stream `read_blk_records` reads. -/
def stream : List UInt8 :=
  match reader.xorKey with
  | none => file
  | some key => xorReader key 0 file

/-- The data `read_blk_records2` has decrypted in place. -/
def decrypted : List UInt8 :=
  match reader.xorKey with
  | none => file
  | some key => file.mapIdx (fun i byte => byte ^^^ key.get (Fin.ofNat 8 i))

/-- The key's byte at a position of the file. Without a key nothing changes. -/
def keyByte (i : Nat) : UInt8 :=
  match reader.xorKey with
  | none => 0
  | some key => key.get (Fin.ofNat 8 i)

def readBlkRecords : Except BlkFileError (List (List UInt8)) :=
  readRecordsLoop reader.blockMagic.toNat (file.length + 1) (reader.stream file)

def loadBlkBlocks : Except BlkFileError (List β) := do
  let records ← reader.readBlkRecords file
  records.mapM (decodeRecord codec)

def readBlkRecords2 : Except BlkFileError (List β) :=
  readRecords2Loop codec reader.blockMagic.toNat (reader.decrypted file) (file.length + 1) 0

def buildIndexByFile : Except BlkFileError (List (Nat × List UInt8)) := do
  let records ← reader.readBlkRecords file
  indexLoop codec 0 records

/-- Both readers fail, or both return the same blocks. -/
def ReadersAgree : Prop :=
  (reader.loadBlkBlocks codec file).toOption = (reader.readBlkRecords2 codec file).toOption

/-- Every record is read back at the offset reported for it. -/
def RandomAccess : Prop :=
  ∀ reported, reader.buildIndexByFile codec file = .ok reported →
    ∀ entry ∈ reported, readBlkRecord file entry.1 = .ok entry.2

end BlockFileReader

section Streams

theorem xorReader_eq (key : Vector UInt8 8) (pos : Nat) (bytes : List UInt8) :
    xorReader key (Fin.ofNat 8 pos) bytes =
      bytes.mapIdx (fun i byte => byte ^^^ key.get (Fin.ofNat 8 (pos + i))) := by
  induction bytes generalizing pos with
  | nil => rfl
  | cons byte bytes ih =>
    have hnext : Fin.ofNat 8 pos + 1 = Fin.ofNat 8 (pos + 1) := by
      apply Fin.ext
      simp [Fin.val_add]
    rw [List.mapIdx_cons, xorReader, hnext, ih]
    simp only [Nat.add_zero, Nat.add_assoc, Nat.add_comm 1]

theorem BlockFileReader.stream_eq (reader : BlockFileReader) (file : List UInt8) :
    reader.stream file = reader.decrypted file := by
  unfold stream decrypted
  cases reader.xorKey with
  | none => rfl
  | some key =>
    have h := xorReader_eq key 0 file
    simp only [Nat.zero_add] at h
    exact h

theorem BlockFileReader.decrypted_length (reader : BlockFileReader) (file : List UInt8) :
    (reader.decrypted file).length = file.length := by
  unfold decrypted
  cases reader.xorKey with
  | none => rfl
  | some key => exact List.length_mapIdx

theorem toLeBytes_length (n : Nat) : (toLeBytes n).length = 4 := by
  unfold toLeBytes
  rw [List.length_reverse, bigEndian_length]

theorem fromLeBytes_toLeBytes {n : Nat} (h : n < 2 ^ 32) : fromLeBytes (toLeBytes n) = n := by
  unfold fromLeBytes toLeBytes
  rw [List.reverse_reverse, ofBigEndian_bigEndian h]

theorem toLeBytes_fromLeBytes {bytes : List UInt8} (h : bytes.length = 4) :
    toLeBytes (fromLeBytes bytes) = bytes := by
  unfold fromLeBytes toLeBytes
  have hbytes := bigEndian_ofBigEndian bytes.reverse
  rw [List.length_reverse, h] at hbytes
  rw [hbytes, List.reverse_reverse]

theorem readExact_append {a b : List UInt8} {n : Nat} (h : a.length = n) :
    readExact n (a ++ b) = some (a, b) := by
  unfold readExact
  rw [if_pos (by rw [List.length_append]; omega), List.take_left' h, List.drop_left' h]

theorem readExact_short {bytes : List UInt8} {n : Nat} (h : bytes.length < n) :
    readExact n bytes = none := by
  unfold readExact
  rw [if_neg (by omega)]

theorem slice_append (pre bytes : List UInt8) (m n : Nat) :
    slice (pre ++ bytes) (pre.length + m) n = (bytes.drop m).take n := by
  unfold slice
  rw [← List.drop_drop, List.drop_left' rfl]

end Streams

section Frames

variable {blockMagic : Nat} {payload rest tail : List UInt8} {payloads : List (List UInt8)}

/-- A record in a blk file: the magic, the length of the payload, and the payload. -/
def frame (blockMagic : Nat) (payload : List UInt8) : List UInt8 :=
  toLeBytes blockMagic ++ (toLeBytes payload.length ++ payload)

def frames (blockMagic : Nat) (payloads : List (List UInt8)) : List UInt8 :=
  payloads.flatMap (frame blockMagic)

/-- The bytes do not start with a complete record. -/
def NoFrame (blockMagic : Nat) (bytes : List UInt8) : Prop :=
  ¬ (8 ≤ bytes.length ∧ fromLeBytes (bytes.take 4) = blockMagic ∧
    8 + fromLeBytes ((bytes.drop 4).take 4) ≤ bytes.length)

/-- The decrypted content of a file: its complete records, and the bytes behind them. -/
structure Splits (blockMagic : Nat) (content : List UInt8) (payloads : List (List UInt8))
    (tail : List UInt8) : Prop where
  content_eq : content = frames blockMagic payloads ++ tail
  noFrame : NoFrame blockMagic tail
  lengths : ∀ payload ∈ payloads, payload.length < 2 ^ 32

theorem frame_length : (frame blockMagic payload).length = 8 + payload.length := by
  unfold frame
  rw [List.length_append, List.length_append, toLeBytes_length, toLeBytes_length]
  omega

theorem exists_splits (blockMagic : Nat) (content : List UInt8) :
    ∃ payloads tail, Splits blockMagic content payloads tail := by
  induction hlen : content.length using Nat.strong_induction_on generalizing content with
  | _ length ih =>
    by_cases hframe : NoFrame blockMagic content
    · exact ⟨[], content, rfl, hframe, by simp⟩
    · unfold NoFrame at hframe
      rw [not_not] at hframe
      obtain ⟨hheader, hmagic, hdata⟩ := hframe
      have hsizeLen : ((content.drop 4).take 4).length = 4 := by
        rw [List.length_take, List.length_drop]
        omega
      have hmagicLen : (content.take 4).length = 4 := by
        rw [List.length_take]
        omega
      have hpayload : ((content.drop 8).take (fromLeBytes ((content.drop 4).take 4))).length =
          fromLeBytes ((content.drop 4).take 4) := by
        rw [List.length_take, List.length_drop]
        omega
      have hsize : fromLeBytes ((content.drop 4).take 4) < 2 ^ 32 := by
        have hlt := ofBigEndian_lt ((content.drop 4).take 4).reverse
        rw [List.length_reverse, hsizeLen] at hlt
        exact hlt
      obtain ⟨payloads, tail, hsplits⟩ := ih _ (by rw [← hlen, List.length_drop]; omega)
        (content.drop (8 + fromLeBytes ((content.drop 4).take 4))) rfl
      refine ⟨(content.drop 8).take (fromLeBytes ((content.drop 4).take 4)) :: payloads, tail,
        ?_, hsplits.noFrame, ?_⟩
      · unfold frames frame
        rw [List.flatMap_cons, hpayload, toLeBytes_fromLeBytes hsizeLen, ← hmagic,
          toLeBytes_fromLeBytes hmagicLen, List.append_assoc, List.append_assoc, List.append_assoc]
        have hrest := hsplits.content_eq
        unfold frames frame at hrest
        rw [← hmagic, toLeBytes_fromLeBytes hmagicLen] at hrest
        rw [← hrest, ← List.drop_drop, List.take_append_drop, ← List.drop_drop (i := 4) (j := 4),
          List.take_append_drop, List.take_append_drop]
      · intro payload hmem
        rcases List.mem_cons.mp hmem with rfl | hmem
        · rw [hpayload]
          exact hsize
        · exact hsplits.lengths payload hmem

theorem readRecordsLoop_frame (fuel : Nat) (hmagic : blockMagic < 2 ^ 32)
    (hpayload : payload.length < 2 ^ 32) :
    readRecordsLoop blockMagic (fuel + 1) (frame blockMagic payload ++ rest) =
      (readRecordsLoop blockMagic fuel rest).map (payload :: ·) := by
  rw [readRecordsLoop, frame, List.append_assoc, List.append_assoc,
    readExact_append (toLeBytes_length _)]
  simp only
  rw [fromLeBytes_toLeBytes hmagic, if_neg (not_not_intro rfl),
    readExact_append (toLeBytes_length _)]
  simp only
  rw [fromLeBytes_toLeBytes hpayload, readExact_append rfl]

theorem readRecordsLoop_tail (fuel : Nat) (h : NoFrame blockMagic tail) :
    (readRecordsLoop blockMagic (fuel + 1) tail).toOption =
      if tail.length < 4 then some [] else none := by
  unfold readRecordsLoop
  by_cases hshort : tail.length < 4
  · rw [readExact_short hshort, if_pos hshort]
    rfl
  · have hmagic : readExact 4 tail = some (tail.take 4, tail.drop 4) := by
      unfold readExact
      rw [if_pos (by omega)]
    rw [hmagic, if_neg hshort]
    simp only
    split
    · rfl
    · next heq =>
      rw [not_not] at heq
      by_cases hheader : tail.length < 8
      · rw [readExact_short (by rw [List.length_drop]; omega)]
        rfl
      · have hsize : readExact 4 (tail.drop 4) =
            some ((tail.drop 4).take 4, (tail.drop 4).drop 4) := by
          unfold readExact
          rw [if_pos (by rw [List.length_drop]; omega)]
        have hdata : tail.length < 8 + fromLeBytes ((tail.drop 4).take 4) := by
          by_contra hle
          exact h ⟨by omega, heq, by omega⟩
        rw [hsize]
        simp only
        rw [readExact_short (by rw [List.length_drop, List.length_drop]; omega)]
        rfl

theorem readRecordsLoop_frames (fuel : Nat) (hmagic : blockMagic < 2 ^ 32)
    (hlengths : ∀ payload ∈ payloads, payload.length < 2 ^ 32) (htail : NoFrame blockMagic tail)
    (hfuel : payloads.length < fuel) :
    (readRecordsLoop blockMagic fuel (frames blockMagic payloads ++ tail)).toOption =
      if tail.length < 4 then some payloads else none := by
  induction payloads generalizing fuel with
  | nil =>
    obtain ⟨fuel, rfl⟩ := Nat.exists_eq_succ_of_ne_zero (Nat.ne_of_gt hfuel)
    exact readRecordsLoop_tail fuel htail
  | cons payload payloads ih =>
    rw [List.length_cons] at hfuel
    obtain ⟨fuel, rfl⟩ := Nat.exists_eq_succ_of_ne_zero (show fuel ≠ 0 by omega)
    have hrest := ih fuel (fun p hp => hlengths p (List.mem_cons_of_mem _ hp)) (by omega)
    have hframes : frames blockMagic (payload :: payloads) =
        frame blockMagic payload ++ frames blockMagic payloads := List.flatMap_cons
    rw [hframes, List.append_assoc,
      readRecordsLoop_frame fuel hmagic (hlengths payload List.mem_cons_self)]
    cases hloop : readRecordsLoop blockMagic fuel (frames blockMagic payloads ++ tail) with
    | ok records =>
      rw [hloop] at hrest
      split at hrest
      · next hshort =>
        obtain rfl : records = payloads := Option.some.inj hrest
        rw [if_pos hshort]
        rfl
      · cases hrest
    | error e =>
      rw [hloop] at hrest
      split at hrest
      · cases hrest
      · next hlong =>
        rw [if_neg hlong]
        rfl

variable {β : Type} (codec : BlockCodec β) {data pre : List UInt8}

theorem readRecords2Loop_frame (fuel : Nat) (hmagic : blockMagic < 2 ^ 32)
    (hpayload : payload.length < 2 ^ 32)
    (hdata : data = pre ++ (frame blockMagic payload ++ rest)) :
    readRecords2Loop codec blockMagic data (fuel + 1) pre.length =
      match codec.deserialize payload with
      | none => .error .deserialize
      | some block => (readRecords2Loop codec blockMagic data fuel
          (pre ++ frame blockMagic payload).length).map (block :: ·) := by
  have hlength : data.length = pre.length + (8 + payload.length + rest.length) := by
    rw [hdata, List.length_append, List.length_append, frame_length]
  have hslice : ∀ m n, slice data (pre.length + m) n =
      ((frame blockMagic payload ++ rest).drop m).take n := by
    intro m n
    rw [hdata, slice_append]
  have hmagicSlice : slice data pre.length 4 = toLeBytes blockMagic := by
    have h := hslice 0 4
    rw [Nat.add_zero, List.drop_zero, frame, List.append_assoc,
      List.take_left' (toLeBytes_length _)] at h
    exact h
  have hsizeSlice : slice data (pre.length + 4) 4 = toLeBytes payload.length := by
    rw [hslice, frame, List.append_assoc, List.drop_left' (toLeBytes_length _), List.append_assoc,
      List.take_left' (toLeBytes_length _)]
  have hpayloadSlice : slice data (pre.length + 4 + 4) payload.length = payload := by
    rw [Nat.add_assoc, hslice, ← List.drop_drop (i := 4) (j := 4), frame, List.append_assoc,
      List.drop_left' (toLeBytes_length _), List.append_assoc,
      List.drop_left' (toLeBytes_length _), List.take_left' rfl]
  rw [readRecords2Loop, if_pos (by omega), hmagicSlice, fromLeBytes_toLeBytes hmagic]
  simp only
  rw [if_neg (not_not_intro rfl), if_neg (by omega), hsizeSlice, fromLeBytes_toLeBytes hpayload,
    if_neg (by omega), hpayloadSlice, List.length_append, frame_length]
  rw [show pre.length + 4 + 4 + payload.length = pre.length + (8 + payload.length) by omega]

theorem readRecords2Loop_tail (fuel : Nat) (h : NoFrame blockMagic tail) (hdata : data = pre ++ tail) :
    (readRecords2Loop codec blockMagic data (fuel + 1) pre.length).toOption =
      if tail.length < 8 then some [] else none := by
  have hlength : data.length = pre.length + tail.length := by rw [hdata, List.length_append]
  have hslice : ∀ m n, slice data (pre.length + m) n = (tail.drop m).take n := by
    intro m n
    rw [hdata, slice_append]
  rw [readRecords2Loop]
  by_cases hshort : tail.length < 8
  · rw [if_neg (by omega), if_pos hshort]
    rfl
  · have hmagicSlice : slice data pre.length 4 = tail.take 4 := hslice 0 4
    rw [if_pos (by omega), if_neg hshort, hmagicSlice, hslice]
    simp only
    split
    · rfl
    · next heq =>
      rw [not_not] at heq
      have hbeyond : tail.length < 8 + fromLeBytes ((tail.drop 4).take 4) := by
        by_contra hle
        exact h ⟨by omega, heq, by omega⟩
      rw [if_neg (by omega), if_pos (by omega)]
      rfl

theorem readRecords2Loop_frames (pre : List UInt8) (fuel : Nat) (hmagic : blockMagic < 2 ^ 32)
    (hlengths : ∀ payload ∈ payloads, payload.length < 2 ^ 32) (htail : NoFrame blockMagic tail)
    (hfuel : payloads.length < fuel) (hdata : data = pre ++ (frames blockMagic payloads ++ tail)) :
    (readRecords2Loop codec blockMagic data fuel pre.length).toOption =
      if tail.length < 8 then payloads.mapM codec.deserialize else none := by
  induction payloads generalizing pre fuel with
  | nil =>
    obtain ⟨fuel, rfl⟩ := Nat.exists_eq_succ_of_ne_zero (Nat.ne_of_gt hfuel)
    exact readRecords2Loop_tail codec fuel htail hdata
  | cons payload payloads ih =>
    rw [List.length_cons] at hfuel
    obtain ⟨fuel, rfl⟩ := Nat.exists_eq_succ_of_ne_zero (show fuel ≠ 0 by omega)
    have hframes : frames blockMagic (payload :: payloads) =
        frame blockMagic payload ++ frames blockMagic payloads := List.flatMap_cons
    rw [hframes, List.append_assoc] at hdata
    have hrest := ih (pre ++ frame blockMagic payload) fuel
      (fun p hp => hlengths p (List.mem_cons_of_mem _ hp)) (by omega)
      (by rw [List.append_assoc]; exact hdata)
    rw [readRecords2Loop_frame codec fuel hmagic (hlengths payload List.mem_cons_self) hdata,
      List.mapM_cons]
    cases codec.deserialize payload with
    | none =>
      by_cases hshort : tail.length < 8
      · rw [if_pos hshort]
        rfl
      · rw [if_neg hshort]
        rfl
    | some block =>
      simp only [Option.bind_eq_bind, Option.bind_some]
      cases hloop : readRecords2Loop codec blockMagic data fuel
          (pre ++ frame blockMagic payload).length with
      | ok blocks =>
        rw [hloop] at hrest
        split at hrest
        · next hshort =>
          rw [if_pos hshort, ← hrest]
          rfl
        · cases hrest
      | error e =>
        rw [hloop] at hrest
        split at hrest
        · next hshort =>
          rw [if_pos hshort, ← hrest]
          rfl
        · next hlong =>
          rw [if_neg hlong]
          rfl

end Frames

section Options

variable {α β : Type}

theorem mapM_isSome {f : α → Option β} {l : List α} :
    (l.mapM f).isSome ↔ ∀ a ∈ l, (f a).isSome := by
  induction l with
  | nil => simp
  | cons a l ih =>
    rw [List.mapM_cons, List.forall_mem_cons, ← ih]
    cases f a with
    | none => simp
    | some b => cases l.mapM f <;> simp

theorem mapM_unique {f g : α → Option β} (hsame : ∀ a b b', f a = some b → g a = some b' → b = b')
    {l : List α} {bs bs' : List β} (hf : l.mapM f = some bs) (hg : l.mapM g = some bs') :
    bs = bs' := by
  induction l generalizing bs bs' with
  | nil =>
    rw [List.mapM_nil] at hf hg
    cases hf
    cases hg
    rfl
  | cons a l ih =>
    rw [List.mapM_cons] at hf hg
    obtain ⟨b, hb, hf⟩ := Option.bind_eq_some_iff.mp hf
    obtain ⟨rest, hrest, hf⟩ := Option.bind_eq_some_iff.mp hf
    obtain ⟨b', hb', hg⟩ := Option.bind_eq_some_iff.mp hg
    obtain ⟨rest', hrest', hg⟩ := Option.bind_eq_some_iff.mp hg
    cases hf
    cases hg
    rw [hsame a b b' hb hb', ih hrest hrest']

/-- Answers that agree when there are two are equal when both or neither are there. -/
theorem eq_iff_isSome {x y : Option α} (hsame : ∀ a b, x = some a → y = some b → a = b) :
    x = y ↔ (x.isSome ↔ y.isSome) := by
  cases x with
  | none => cases y <;> simp
  | some a =>
    cases y with
    | none => simp
    | some b => simpa using hsame a b rfl rfl

end Options

section Readers

variable {reader : BlockFileReader} {β : Type} {codec : BlockCodec β} {file tail : List UInt8}
  {payloads : List (List UInt8)}

theorem payloads_length_le (blockMagic : Nat) (payloads : List (List UInt8)) :
    payloads.length ≤ (frames blockMagic payloads).length := by
  induction payloads with
  | nil => exact Nat.le_refl _
  | cons payload payloads ih =>
    have hframes : frames blockMagic (payload :: payloads) =
        frame blockMagic payload ++ frames blockMagic payloads := List.flatMap_cons
    rw [hframes, List.length_append, frame_length, List.length_cons]
    omega

theorem Splits.file_length
    (h : Splits reader.blockMagic.toNat (reader.decrypted file) payloads tail) :
    file.length = (frames reader.blockMagic.toNat payloads).length + tail.length := by
  rw [← reader.decrypted_length file, h.content_eq, List.length_append]

theorem readBlkRecords_toOption
    (h : Splits reader.blockMagic.toNat (reader.decrypted file) payloads tail) :
    (reader.readBlkRecords file).toOption = if tail.length < 4 then some payloads else none := by
  have hlength := h.file_length
  have hpayloads := payloads_length_le reader.blockMagic.toNat payloads
  unfold BlockFileReader.readBlkRecords
  rw [reader.stream_eq, h.content_eq]
  exact readRecordsLoop_frames _ reader.blockMagic.toNat_lt h.lengths h.noFrame (by omega)

theorem readBlkRecords2_toOption
    (h : Splits reader.blockMagic.toNat (reader.decrypted file) payloads tail) :
    (reader.readBlkRecords2 codec file).toOption =
      if tail.length < 8 then payloads.mapM codec.deserialize else none := by
  have hlength := h.file_length
  have hpayloads := payloads_length_le reader.blockMagic.toNat payloads
  exact readRecords2Loop_frames codec [] _ reader.blockMagic.toNat_lt h.lengths h.noFrame
    (by omega) h.content_eq

theorem mapM_decodeRecord (records : List (List UInt8)) :
    (records.mapM (decodeRecord codec)).toOption = records.mapM codec.consensusDecode := by
  induction records with
  | nil => rfl
  | cons record records ih =>
    rw [List.mapM_cons, List.mapM_cons, ← ih]
    unfold decodeRecord
    cases codec.consensusDecode record with
    | none => rfl
    | some block =>
      simp only [Option.bind_some, bind, Except.bind]
      cases records.mapM (fun record => match codec.consensusDecode record with
        | none => Except.error BlkFileError.deserialize
        | some block => Except.ok block) <;> rfl

theorem loadBlkBlocks_toOption
    (h : Splits reader.blockMagic.toNat (reader.decrypted file) payloads tail) :
    (reader.loadBlkBlocks codec file).toOption =
      if tail.length < 4 then payloads.mapM codec.consensusDecode else none := by
  have hrecords := readBlkRecords_toOption h
  unfold BlockFileReader.loadBlkBlocks
  cases hread : reader.readBlkRecords file with
  | ok records =>
    rw [hread] at hrecords
    split at hrecords
    · next hshort =>
      obtain rfl : records = payloads := Option.some.inj hrecords
      rw [if_pos hshort, ← mapM_decodeRecord]
      rfl
    · cases hrecords
  | error e =>
    rw [hread] at hrecords
    split at hrecords
    · cases hrecords
    · next hlong =>
      rw [if_neg hlong]
      rfl

/-- The two sequential readers accept different tails, and their decoders different
payloads. -/
theorem readersAgree_iff
    (h : Splits reader.blockMagic.toNat (reader.decrypted file) payloads tail) :
    reader.ReadersAgree codec file ↔
      ((tail.length < 4 ∧ ∀ payload ∈ payloads, (codec.consensusDecode payload).isSome) ↔
        (tail.length < 8 ∧ ∀ payload ∈ payloads, (codec.deserialize payload).isSome)) := by
  have hload : ((reader.loadBlkBlocks codec file).toOption).isSome ↔
      tail.length < 4 ∧ ∀ payload ∈ payloads, (codec.consensusDecode payload).isSome := by
    rw [loadBlkBlocks_toOption h, ← mapM_isSome]
    split <;> simp [*]
  have hread : ((reader.readBlkRecords2 codec file).toOption).isSome ↔
      tail.length < 8 ∧ ∀ payload ∈ payloads, (codec.deserialize payload).isSome := by
    rw [readBlkRecords2_toOption h, ← mapM_isSome]
    split <;> simp [*]
  unfold BlockFileReader.ReadersAgree
  rw [eq_iff_isSome, hload, hread]
  intro blocks blocks' hblocks hblocks'
  rw [loadBlkBlocks_toOption h] at hblocks
  rw [readBlkRecords2_toOption h] at hblocks'
  split at hblocks
  · split at hblocks'
    · exact (mapM_unique codec.same hblocks' hblocks).symm
    · cases hblocks'
  · cases hblocks

end Readers

section RandomAccess

variable {reader : BlockFileReader} {β : Type} {codec : BlockCodec β} {file tail : List UInt8}
  {payloads : List (List UInt8)}

/-- What `build_index_by_file` reports: it adds 12 bytes for the header of a record, which
has 8. -/
def reportedFrom : Nat → List (List UInt8) → List (Nat × List UInt8)
  | _, [] => []
  | offset, payload :: payloads =>
    (offset, payload) :: reportedFrom (offset + (8 + 4 + payload.length)) payloads

theorem indexLoop_ok {offset : Nat} {records : List (List UInt8)}
    {reported : List (Nat × List UInt8)} :
    indexLoop codec offset records = .ok reported ↔
      (∀ record ∈ records, (codec.consensusDecode record).isSome) ∧
        reported = reportedFrom offset records := by
  induction records generalizing offset reported with
  | nil =>
    constructor
    · intro hok
      cases hok
      exact ⟨by simp, rfl⟩
    · rintro ⟨-, rfl⟩
      rfl
  | cons record records ih =>
    rw [indexLoop, reportedFrom, List.forall_mem_cons]
    cases hdecode : codec.consensusDecode record with
    | none => exact iff_of_false (fun hok => nomatch hok) (fun hall => nomatch hall.1.1)
    | some block =>
      cases hloop : indexLoop codec (offset + (8 + 4 + record.length)) records with
      | ok rest =>
        obtain ⟨hall, hrest⟩ := ih.mp hloop
        constructor
        · intro hok
          exact ⟨⟨rfl, hall⟩, by rw [← hrest]; exact (Except.ok.inj hok).symm⟩
        · rintro ⟨-, hreported⟩
          rw [hreported, ← hrest]
          rfl
      | error e =>
        refine iff_of_false (fun hok => nomatch hok) (fun hall => ?_)
        rw [ih.mpr ⟨hall.1.2, rfl⟩] at hloop
        cases hloop

theorem buildIndexByFile_ok
    (h : Splits reader.blockMagic.toNat (reader.decrypted file) payloads tail)
    {reported : List (Nat × List UInt8)} :
    reader.buildIndexByFile codec file = .ok reported ↔
      tail.length < 4 ∧ (∀ payload ∈ payloads, (codec.consensusDecode payload).isSome) ∧
        reported = reportedFrom 0 payloads := by
  have hrecords := readBlkRecords_toOption h
  unfold BlockFileReader.buildIndexByFile
  cases hread : reader.readBlkRecords file with
  | ok records =>
    rw [hread] at hrecords
    split at hrecords
    · next hshort =>
      obtain rfl : records = payloads := Option.some.inj hrecords
      rw [← indexLoop_ok]
      exact (and_iff_right hshort).symm
    · cases hrecords
  | error e =>
    rw [hread] at hrecords
    split at hrecords
    · cases hrecords
    · next hlong =>
      refine iff_of_false (fun hok => nomatch hok) (fun hall => hlong hall.1)

theorem readExact_eq_some {n : Nat} {bytes a b : List UInt8} :
    readExact n bytes = some (a, b) ↔ a.length = n ∧ bytes = a ++ b := by
  constructor
  · intro h
    unfold readExact at h
    split at h
    · obtain ⟨rfl, rfl⟩ := Prod.mk.inj (Option.some.inj h)
      exact ⟨by rw [List.length_take]; omega, (List.take_append_drop n bytes).symm⟩
    · cases h
  · rintro ⟨hlen, rfl⟩
    exact readExact_append hlen

/-- The raw bytes at the offset have any four bytes, the length and the record. -/
theorem readBlkRecord_eq_ok {offset : Nat} {payload : List UInt8}
    (hpayload : payload.length < 2 ^ 32) :
    readBlkRecord file offset = .ok payload ↔
      ∃ magic rest, magic.length = 4 ∧
        file.drop offset = magic ++ (toLeBytes payload.length ++ (payload ++ rest)) := by
  unfold readBlkRecord
  constructor
  · intro hok
    split at hok
    · cases hok
    · next magic bytes hmagic =>
      split at hok
      · cases hok
      · next size bytes' hsize =>
        split at hok
        · cases hok
        · next data rest hdata =>
          obtain rfl := Except.ok.inj hok
          obtain ⟨hmagicLen, hfile⟩ := readExact_eq_some.mp hmagic
          obtain ⟨hsizeLen, rfl⟩ := readExact_eq_some.mp hsize
          obtain ⟨hdataLen, rfl⟩ := readExact_eq_some.mp hdata
          refine ⟨magic, rest, hmagicLen, ?_⟩
          rw [hfile, hdataLen, toLeBytes_fromLeBytes hsizeLen]
  · rintro ⟨magic, rest, hmagicLen, hfile⟩
    rw [hfile, readExact_append hmagicLen]
    simp only
    rw [readExact_append (toLeBytes_length _)]
    simp only
    rw [fromLeBytes_toLeBytes hpayload, readExact_append rfl]

theorem decrypted_getElem? (reader : BlockFileReader) (file : List UInt8) (i : Nat) :
    (reader.decrypted file)[i]? = file[i]?.map (· ^^^ reader.keyByte i) := by
  unfold BlockFileReader.decrypted BlockFileReader.keyByte
  cases reader.xorKey with
  | none => simp
  | some key => exact List.getElem?_mapIdx

/-- The first record is read back when the key leaves its length and its payload as they
are. -/
theorem readBlkRecord_first {payload rest : List UInt8} {blockMagic : Nat}
    (hpayload : payload.length < 2 ^ 32)
    (hcontent : reader.decrypted file = frame blockMagic payload ++ rest) :
    readBlkRecord file 0 = .ok payload ↔
      ∀ i, 4 ≤ i → i < 8 + payload.length → reader.keyByte i = 0 := by
  have hlength : file.length = 8 + payload.length + rest.length := by
    rw [← reader.decrypted_length file, hcontent, List.length_append, frame_length]
  have hsplit : ∀ (magic rest' : List UInt8), magic.length = 4 → ∀ i, 4 ≤ i →
      i < 8 + payload.length →
      (magic ++ (toLeBytes payload.length ++ (payload ++ rest')))[i]? =
        (toLeBytes payload.length ++ payload)[i - 4]? := by
    intro magic rest' hmagic i hlow hhigh
    rw [List.getElem?_append_right (by omega), hmagic, ← List.append_assoc,
      List.getElem?_append_left]
    rw [List.length_append, toLeBytes_length]
    omega
  have hdecrypted : ∀ i, 4 ≤ i → i < 8 + payload.length →
      (reader.decrypted file)[i]? = (toLeBytes payload.length ++ payload)[i - 4]? := by
    intro i hlow hhigh
    rw [hcontent, frame, List.append_assoc, List.append_assoc]
    exact hsplit _ rest (toLeBytes_length _) i hlow hhigh
  rw [readBlkRecord_eq_ok hpayload, List.drop_zero]
  constructor
  · rintro ⟨magic, rest', hmagic, hfile⟩ i hlow hhigh
    have hbyte := hdecrypted i hlow hhigh
    rw [decrypted_getElem?, ← hsplit magic rest' hmagic i hlow hhigh, ← hfile,
      List.getElem?_eq_getElem (by omega), Option.map_some, Option.some.injEq] at hbyte
    have hzero : file[i] ^^^ reader.keyByte i = file[i] ^^^ 0 := by
      rw [hbyte, UInt8.xor_zero]
    exact (UInt8.xor_right_inj _).mp hzero
  · intro hkey
    refine ⟨file.take 4, file.drop (8 + payload.length), by rw [List.length_take]; omega, ?_⟩
    apply List.ext_getElem?
    intro i
    by_cases hlow : i < 4
    · rw [List.getElem?_append_left (by rw [List.length_take]; omega),
        List.getElem?_take_of_lt hlow]
    · by_cases hhigh : i < 8 + payload.length
      · rw [hsplit _ _ (by rw [List.length_take]; omega) i (by omega) hhigh,
          ← hdecrypted i (by omega) hhigh, decrypted_getElem?, hkey i (by omega) hhigh]
        simp
      · rw [← List.append_assoc, ← List.append_assoc, List.getElem?_append_right, List.getElem?_drop]
        · congr 1
          rw [List.length_append, List.length_append, List.length_take, toLeBytes_length]
          omega
        · rw [List.length_append, List.length_append, List.length_take, toLeBytes_length]
          omega

theorem reportedFrom_last (offset : Nat) (payloads : List (List UInt8)) (last : List UInt8) :
    (offset + (payloads.map (fun payload => 8 + 4 + payload.length)).sum, last) ∈
      reportedFrom offset (payloads ++ [last]) := by
  induction payloads generalizing offset with
  | nil => simp [reportedFrom]
  | cons payload payloads ih =>
    have hrest := ih (offset + (8 + 4 + payload.length))
    rw [Nat.add_assoc offset] at hrest
    exact List.mem_cons_of_mem _ hrest

theorem frames_offset (blockMagic : Nat) (payloads : List (List UInt8)) :
    (payloads.map (fun payload => 8 + 4 + payload.length)).sum =
      (frames blockMagic payloads).length + 4 * payloads.length := by
  induction payloads with
  | nil => rfl
  | cons payload payloads ih =>
    have hframes : frames blockMagic (payload :: payloads) =
        frame blockMagic payload ++ frames blockMagic payloads := List.flatMap_cons
    rw [List.map_cons, List.sum_cons, ih, hframes, List.length_append, frame_length,
      List.length_cons]
    omega

/-- The offset of a last record that is not the first lies too far behind it: too few bytes
follow to read a record of its length there. -/
theorem readBlkRecord_last {init : List (List UInt8)} {last : List UInt8}
    (h : Splits reader.blockMagic.toNat (reader.decrypted file) (init ++ [last]) tail)
    (hinit : init ≠ []) (htail : tail.length < 4) :
    readBlkRecord file (init.map (fun payload => 8 + 4 + payload.length)).sum ≠ .ok last := by
  intro hok
  obtain ⟨magic, rest, hmagic, hfile⟩ :=
    (readBlkRecord_eq_ok (h.lengths last (by simp))).mp hok
  have hlength := congrArg List.length hfile
  have hcontent := h.file_length
  have hpos := List.length_pos_of_ne_nil hinit
  have hframes : frames reader.blockMagic.toNat (init ++ [last]) =
      frames reader.blockMagic.toNat init ++ frame reader.blockMagic.toNat last := by
    unfold frames
    rw [List.flatMap_append, List.flatMap_singleton]
  rw [hframes, List.length_append, frame_length] at hcontent
  rw [frames_offset reader.blockMagic.toNat] at hlength
  simp only [List.length_drop, List.length_append, toLeBytes_length, hmagic] at hlength
  omega

theorem randomAccess_iff
    (h : Splits reader.blockMagic.toNat (reader.decrypted file) payloads tail) :
    reader.RandomAccess codec file ↔
      (tail.length < 4 → (∀ payload ∈ payloads, (codec.consensusDecode payload).isSome) →
        payloads = [] ∨ ∃ payload, payloads = [payload] ∧
          ∀ i, 4 ≤ i → i < 8 + payload.length → reader.keyByte i = 0) := by
  unfold BlockFileReader.RandomAccess
  constructor
  · intro haccess htail hdecode
    have hreported := haccess _ ((buildIndexByFile_ok h).mpr ⟨htail, hdecode, rfl⟩)
    rcases List.eq_nil_or_concat' payloads with rfl | ⟨init, last, rfl⟩
    · exact .inl rfl
    · have hlast := reportedFrom_last 0 init last
      rw [Nat.zero_add] at hlast
      cases init with
      | nil =>
        refine .inr ⟨last, rfl, ?_⟩
        have hcontent : reader.decrypted file = frame reader.blockMagic.toNat last ++ tail := by
          rw [h.content_eq]
          unfold frames
          rw [List.nil_append, List.flatMap_singleton]
        exact (readBlkRecord_first (h.lengths last (by simp)) hcontent).mp (hreported _ hlast)
      | cons payload init =>
        exact absurd (hreported _ hlast) (readBlkRecord_last h (List.cons_ne_nil _ _) htail)
  · intro hcond reported hok entry hentry
    obtain ⟨htail, hdecode, rfl⟩ := (buildIndexByFile_ok h).mp hok
    rcases hcond htail hdecode with rfl | ⟨payload, rfl, hkey⟩
    · cases hentry
    · have hcontent : reader.decrypted file = frame reader.blockMagic.toNat payload ++ tail := by
        rw [h.content_eq]
        unfold frames
        rw [List.flatMap_singleton]
      obtain rfl : entry = (0, payload) := List.mem_singleton.mp hentry
      exact (readBlkRecord_first (h.lengths payload (by simp)) hcontent).mpr hkey

end RandomAccess

/-- For which files the readers agree: complete records are `payloads`, and `tail` is what
is left of the decrypted file behind them. -/
def ReadersAgreeWhen {β : Type} (reader : BlockFileReader) (codec : BlockCodec β)
    (payloads : List (List UInt8)) (tail : List UInt8) : Prop :=
  ((tail.length < 4 ∧ ∀ payload ∈ payloads, (codec.consensusDecode payload).isSome) ↔
      (tail.length < 8 ∧ ∀ payload ∈ payloads, (codec.deserialize payload).isSome)) ∧
    (tail.length < 4 → (∀ payload ∈ payloads, (codec.consensusDecode payload).isSome) →
      payloads = [] ∨ ∃ payload, payloads = [payload] ∧
        ∀ i, 4 ≤ i → i < 8 + payload.length → reader.keyByte i = 0)

/-- Every file is complete records and a tail, and this decides whether the readers agree
on it. -/
theorem blkFileReaders_agree_iff {β : Type} (reader : BlockFileReader) (codec : BlockCodec β)
    (file : List UInt8) :
    (∃ payloads tail, Splits reader.blockMagic.toNat (reader.decrypted file) payloads tail) ∧
      ∀ payloads tail, Splits reader.blockMagic.toNat (reader.decrypted file) payloads tail →
        (reader.ReadersAgree codec file ∧ reader.RandomAccess codec file ↔
          ReadersAgreeWhen reader codec payloads tail) :=
  ⟨exists_splits _ _, fun _ _ h => and_congr (readersAgree_iff h) (randomAccess_iff h)⟩

section Sample

/-- The decoders on payloads that are a header and a count of no transactions. -/
def emptyBlockCodec : BlockCodec (List UInt8) where
  consensusDecode payload := if payload[80]? = some 0 then some (payload.take 81) else none
  deserialize payload :=
    if payload[80]? = some 0 ∧ payload.length = 81 then some (payload.take 81) else none
  same payload block block' hblock hblock' := by
    split at hblock
    · next h =>
      rw [if_pos h.1] at hblock'
      rw [← Option.some.inj hblock, ← Option.some.inj hblock']
    · cases hblock

def mainnetReader : BlockFileReader where
  xorKey := none
  blockMagic := 0xD9B4BEF9

def emptyBlock (nonce : UInt8) : List UInt8 := List.replicate 79 1 ++ [nonce, 0]

/-- Four bytes behind a record end one reader and fail the other, and the second of two
records is not at the offset reported for it. -/
theorem blkFileReaders_disagree :
    ¬ mainnetReader.ReadersAgree emptyBlockCodec
        (frame 0xD9B4BEF9 (emptyBlock 1) ++ [0, 0, 0, 0]) ∧
      ¬ mainnetReader.RandomAccess emptyBlockCodec
        (frame 0xD9B4BEF9 (emptyBlock 1) ++ frame 0xD9B4BEF9 (emptyBlock 2)) := by
  constructor
  · unfold BlockFileReader.ReadersAgree
    decide +kernel
  · intro haccess
    have hreported : mainnetReader.buildIndexByFile emptyBlockCodec
        (frame 0xD9B4BEF9 (emptyBlock 1) ++ frame 0xD9B4BEF9 (emptyBlock 2)) =
        .ok [(0, emptyBlock 1), (93, emptyBlock 2)] := by decide +kernel
    have hread := haccess _ hreported (93, emptyBlock 2) (by simp)
    revert hread
    decide +kernel

end Sample

end Usdb.Balances
