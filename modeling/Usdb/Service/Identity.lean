import Mathlib.Data.Set.Function
import Usdb.Balances.CommitBytes
import Usdb.Index.CommitChain

namespace Usdb

open Framework

structure ConsensusSnapshotIdentity where
  sourceChain : String
  network : String
  stableHeight : UInt32
  stableBlockHash : String
  stableLag : UInt32
  balanceHistoryApiVersion : String
  balanceHistorySemanticsVersion : String
  usdbIndexFormulaVersion : String
  usdbIndexProtocolVersion : String
deriving DecidableEq, Repr

structure LocalStatePassCommitIdentity where
  blockHeight : UInt32
  blockCommit : String
  commitProtocolVersion : String
  commitHashAlgo : String
deriving DecidableEq, Repr

structure LocalStateActiveBalanceSnapshot where
  blockHeight : UInt32
  totalBalance : UInt64
  activeAddressCount : UInt32
deriving DecidableEq, Repr

structure LocalStateCommitIdentity where
  upstreamSnapshotId : String
  localSyncedBlockHeight : UInt32
  latestPassBlockCommit : Option LocalStatePassCommitIdentity
  latestActiveBalanceSnapshot : Option LocalStateActiveBalanceSnapshot
  usdbIndexProtocolVersion : String
deriving DecidableEq, Repr

structure SystemStateIdentity where
  upstreamSnapshotId : String
  localStateCommit : String
deriving DecidableEq, Repr

def consensusSnapshotIdVersion : String := "btc-consensus-snapshot:v1"

def localStateCommitVersion : String := "usdb-local-state:v1"

def systemStateIdVersion : String := "btc-system-state:v1"

/-- The bytes a string adds to the hasher: its length as a `u32` and then its text. -/
def stringComponent (value : String) : List UInt8 :=
  toBeBytes (asBytes value).length ++ asBytes value

def u32Bytes (n : UInt32) : List UInt8 := toBeBytes n.toNat

def u64Bytes (n : UInt64) : List UInt8 := Balances.beBytes 8 n.toNat

/-- A marker byte, then the fields of the value if it is there. -/
def optionalComponent {α : Type} (component : α → List UInt8) (o : Option α) : List UInt8 :=
  match o with
  | some a => 1 :: component a
  | none => [0]

def ConsensusSnapshotIdentity.preimage (identity : ConsensusSnapshotIdentity) : List UInt8 :=
  stringComponent consensusSnapshotIdVersion ++ stringComponent identity.sourceChain ++
    stringComponent identity.network ++ u32Bytes identity.stableHeight ++
    stringComponent identity.stableBlockHash ++ u32Bytes identity.stableLag ++
    stringComponent identity.balanceHistoryApiVersion ++
    stringComponent identity.balanceHistorySemanticsVersion ++
    stringComponent identity.usdbIndexFormulaVersion ++
    stringComponent identity.usdbIndexProtocolVersion

def buildConsensusSnapshotId (sha256 : List UInt8 → List UInt8)
    (identity : ConsensusSnapshotIdentity) : String :=
  encodeHex (sha256 identity.preimage)

def LocalStatePassCommitIdentity.component (passCommit : LocalStatePassCommitIdentity) :
    List UInt8 :=
  u32Bytes passCommit.blockHeight ++ stringComponent passCommit.blockCommit ++
    stringComponent passCommit.commitProtocolVersion ++ stringComponent passCommit.commitHashAlgo

def LocalStateActiveBalanceSnapshot.component (snapshot : LocalStateActiveBalanceSnapshot) :
    List UInt8 :=
  u32Bytes snapshot.blockHeight ++ u64Bytes snapshot.totalBalance ++
    u32Bytes snapshot.activeAddressCount

def LocalStateCommitIdentity.preimage (identity : LocalStateCommitIdentity) : List UInt8 :=
  stringComponent localStateCommitVersion ++ stringComponent identity.upstreamSnapshotId ++
    u32Bytes identity.localSyncedBlockHeight ++
    optionalComponent LocalStatePassCommitIdentity.component identity.latestPassBlockCommit ++
    optionalComponent LocalStateActiveBalanceSnapshot.component
      identity.latestActiveBalanceSnapshot ++
    stringComponent identity.usdbIndexProtocolVersion

def buildLocalStateCommit (sha256 : List UInt8 → List UInt8)
    (identity : LocalStateCommitIdentity) : String :=
  encodeHex (sha256 identity.preimage)

def SystemStateIdentity.preimage (identity : SystemStateIdentity) : List UInt8 :=
  stringComponent systemStateIdVersion ++ stringComponent identity.upstreamSnapshotId ++
    stringComponent identity.localStateCommit

def buildSystemStateId (sha256 : List UInt8 → List UInt8) (identity : SystemStateIdentity) :
    String :=
  encodeHex (sha256 identity.preimage)

/-- The length prefix of the string is not truncated. -/
def ShortString (value : String) : Prop := (asBytes value).length < 2 ^ 32

structure ConsensusSnapshotIdentity.Short (identity : ConsensusSnapshotIdentity) : Prop where
  sourceChain : ShortString identity.sourceChain
  network : ShortString identity.network
  stableBlockHash : ShortString identity.stableBlockHash
  balanceHistoryApiVersion : ShortString identity.balanceHistoryApiVersion
  balanceHistorySemanticsVersion : ShortString identity.balanceHistorySemanticsVersion
  usdbIndexFormulaVersion : ShortString identity.usdbIndexFormulaVersion
  usdbIndexProtocolVersion : ShortString identity.usdbIndexProtocolVersion

structure LocalStatePassCommitIdentity.Short (passCommit : LocalStatePassCommitIdentity) :
    Prop where
  blockCommit : ShortString passCommit.blockCommit
  commitProtocolVersion : ShortString passCommit.commitProtocolVersion
  commitHashAlgo : ShortString passCommit.commitHashAlgo

structure LocalStateCommitIdentity.Short (identity : LocalStateCommitIdentity) : Prop where
  upstreamSnapshotId : ShortString identity.upstreamSnapshotId
  latestPassBlockCommit : ∀ passCommit, identity.latestPassBlockCommit = some passCommit →
    passCommit.Short
  usdbIndexProtocolVersion : ShortString identity.usdbIndexProtocolVersion

structure SystemStateIdentity.Short (identity : SystemStateIdentity) : Prop where
  upstreamSnapshotId : ShortString identity.upstreamSnapshotId
  localStateCommit : ShortString identity.localStateCommit

section Components

theorem toBeBytes_readable : ReadableOn (fun n => n < 2 ^ 32) toBeBytes := by
  refine ReadableOn.of_length (n := 4) (fun n => rfl) (fun m n hm hn h => ?_)
  unfold toBeBytes at h
  simp only [List.map_cons, List.map_nil, List.cons.injEq, and_true] at h
  have hbyte : ∀ a b : Nat, UInt8.ofNat a = UInt8.ofNat b → a % 256 = b % 256 := by
    intro a b hab
    have := congrArg UInt8.toNat hab
    rwa [UInt8.toNat_ofNat', UInt8.toNat_ofNat'] at this
  obtain ⟨h₁, h₂, h₃, h₄⟩ := h
  have h₁ := hbyte _ _ h₁
  have h₂ := hbyte _ _ h₂
  have h₃ := hbyte _ _ h₃
  have h₄ := hbyte _ _ h₄
  omega

theorem stringComponent_readable : ReadableOn ShortString stringComponent :=
  toBeBytes_readable.lengthPrefixed (fun _ h => h) (fun _ _ _ _ h => h) asBytes_injective

theorem u32Bytes_readable : ReadableOn (fun _ => True) u32Bytes := by
  refine ReadableOn.of_length (n := 4) (fun n => rfl) (fun m n _ _ h => ?_)
  exact UInt32.toNat_inj.mp (toBeBytes_readable.inj m.toNat_lt n.toNat_lt h)

theorem u64Bytes_readable : ReadableOn (fun _ => True) u64Bytes := by
  refine ReadableOn.of_length (fun n => Balances.beBytes_length 8 n.toNat) (fun m n _ _ h => ?_)
  have hlt : ∀ k : UInt64, k.toNat < 256 ^ 8 := by
    intro k
    rw [show 256 ^ 8 = 2 ^ 64 by norm_num]
    exact k.toNat_lt
  exact UInt64.toNat_inj.mp (Balances.beBytes_inj (hlt m) (hlt n) h)

theorem optionalComponent_readable {α : Type} {s : α → Prop} {component : α → List UInt8}
    (h : ReadableOn s component) :
    ReadableOn (fun o => ∀ a, o = some a → s a) (optionalComponent component) :=
  h.option (by decide)

theorem passCommit_readable :
    ReadableOn LocalStatePassCommitIdentity.Short LocalStatePassCommitIdentity.component := by
  intro a a' r r' ha ha' h
  simp only [LocalStatePassCommitIdentity.component, List.append_assoc] at h
  obtain ⟨h₁, h⟩ := u32Bytes_readable _ _ _ _ trivial trivial h
  obtain ⟨h₂, h⟩ := stringComponent_readable _ _ _ _ ha.blockCommit ha'.blockCommit h
  obtain ⟨h₃, h⟩ := stringComponent_readable _ _ _ _ ha.commitProtocolVersion
    ha'.commitProtocolVersion h
  obtain ⟨h₄, h⟩ := stringComponent_readable _ _ _ _ ha.commitHashAlgo ha'.commitHashAlgo h
  cases a
  cases a'
  simp_all

theorem activeBalanceSnapshot_readable :
    ReadableOn (fun _ => True) LocalStateActiveBalanceSnapshot.component := by
  intro a a' r r' _ _ h
  simp only [LocalStateActiveBalanceSnapshot.component, List.append_assoc] at h
  obtain ⟨h₁, h⟩ := u32Bytes_readable _ _ _ _ trivial trivial h
  obtain ⟨h₂, h⟩ := u64Bytes_readable _ _ _ _ trivial trivial h
  obtain ⟨h₃, h⟩ := u32Bytes_readable _ _ _ _ trivial trivial h
  cases a
  cases a'
  simp_all

end Components

section Preimages

theorem ConsensusSnapshotIdentity.preimage_readable :
    ReadableOn ConsensusSnapshotIdentity.Short ConsensusSnapshotIdentity.preimage := by
  intro a a' r r' ha ha' h
  simp only [ConsensusSnapshotIdentity.preimage, List.append_assoc] at h
  have h := List.append_cancel_left h
  obtain ⟨h₁, h⟩ := stringComponent_readable _ _ _ _ ha.sourceChain ha'.sourceChain h
  obtain ⟨h₂, h⟩ := stringComponent_readable _ _ _ _ ha.network ha'.network h
  obtain ⟨h₃, h⟩ := u32Bytes_readable _ _ _ _ trivial trivial h
  obtain ⟨h₄, h⟩ := stringComponent_readable _ _ _ _ ha.stableBlockHash ha'.stableBlockHash h
  obtain ⟨h₅, h⟩ := u32Bytes_readable _ _ _ _ trivial trivial h
  obtain ⟨h₆, h⟩ := stringComponent_readable _ _ _ _ ha.balanceHistoryApiVersion
    ha'.balanceHistoryApiVersion h
  obtain ⟨h₇, h⟩ := stringComponent_readable _ _ _ _ ha.balanceHistorySemanticsVersion
    ha'.balanceHistorySemanticsVersion h
  obtain ⟨h₈, h⟩ := stringComponent_readable _ _ _ _ ha.usdbIndexFormulaVersion
    ha'.usdbIndexFormulaVersion h
  obtain ⟨h₉, h⟩ := stringComponent_readable _ _ _ _ ha.usdbIndexProtocolVersion
    ha'.usdbIndexProtocolVersion h
  cases a
  cases a'
  simp_all

theorem LocalStateCommitIdentity.preimage_readable :
    ReadableOn LocalStateCommitIdentity.Short LocalStateCommitIdentity.preimage := by
  intro a a' r r' ha ha' h
  simp only [LocalStateCommitIdentity.preimage, List.append_assoc] at h
  have h := List.append_cancel_left h
  obtain ⟨h₁, h⟩ := stringComponent_readable _ _ _ _ ha.upstreamSnapshotId ha'.upstreamSnapshotId h
  obtain ⟨h₂, h⟩ := u32Bytes_readable _ _ _ _ trivial trivial h
  obtain ⟨h₃, h⟩ := optionalComponent_readable passCommit_readable _ _ _ _
    ha.latestPassBlockCommit ha'.latestPassBlockCommit h
  obtain ⟨h₄, h⟩ := optionalComponent_readable activeBalanceSnapshot_readable _ _ _ _
    (fun _ _ => trivial) (fun _ _ => trivial) h
  obtain ⟨h₅, h⟩ := stringComponent_readable _ _ _ _ ha.usdbIndexProtocolVersion
    ha'.usdbIndexProtocolVersion h
  cases a
  cases a'
  simp_all

theorem SystemStateIdentity.preimage_readable :
    ReadableOn SystemStateIdentity.Short SystemStateIdentity.preimage := by
  intro a a' r r' ha ha' h
  simp only [SystemStateIdentity.preimage, List.append_assoc] at h
  have h := List.append_cancel_left h
  obtain ⟨h₁, h⟩ := stringComponent_readable _ _ _ _ ha.upstreamSnapshotId ha'.upstreamSnapshotId h
  obtain ⟨h₂, h⟩ := stringComponent_readable _ _ _ _ ha.localStateCommit ha'.localStateCommit h
  cases a
  cases a'
  simp_all

end Preimages

section Binding

variable {sha256 : List UInt8 → List UInt8} (hsha : Function.Injective sha256)

include hsha

theorem buildConsensusSnapshotId_inj {a b : ConsensusSnapshotIdentity} (ha : a.Short)
    (hb : b.Short) (h : buildConsensusSnapshotId sha256 a = buildConsensusSnapshotId sha256 b) :
    a = b :=
  ConsensusSnapshotIdentity.preimage_readable.inj ha hb (hsha (encodeHex_injective h))

theorem buildLocalStateCommit_inj {a b : LocalStateCommitIdentity} (ha : a.Short)
    (hb : b.Short) (h : buildLocalStateCommit sha256 a = buildLocalStateCommit sha256 b) :
    a = b :=
  LocalStateCommitIdentity.preimage_readable.inj ha hb (hsha (encodeHex_injective h))

theorem buildSystemStateId_inj {a b : SystemStateIdentity} (ha : a.Short) (hb : b.Short)
    (h : buildSystemStateId sha256 a = buildSystemStateId sha256 b) : a = b :=
  SystemStateIdentity.preimage_readable.inj ha hb (hsha (encodeHex_injective h))

end Binding

/-- The system state of a snapshot identity and a local state. -/
def systemState (sha256 : List UInt8 → List UInt8) (snapshot : ConsensusSnapshotIdentity)
    (localState : LocalStateCommitIdentity) : SystemStateIdentity :=
  { upstreamSnapshotId := buildConsensusSnapshotId sha256 snapshot
    localStateCommit := buildLocalStateCommit sha256 localState }

/-- Every id determines the whole record it is built from, and the system state id determines
both the snapshot identity and the local state under it. -/
theorem identities_bind (sha256 : List UInt8 → List UInt8) (hsha : Function.Injective sha256) :
    Set.InjOn (buildConsensusSnapshotId sha256) {a : ConsensusSnapshotIdentity | a.Short} ∧
      Set.InjOn (buildLocalStateCommit sha256) {a : LocalStateCommitIdentity | a.Short} ∧
      Set.InjOn (buildSystemStateId sha256) {a : SystemStateIdentity | a.Short} ∧
      ∀ a a' b b', a.Short → a'.Short → b.Short → b'.Short → (systemState sha256 a b).Short →
        (systemState sha256 a' b').Short →
        (buildSystemStateId sha256 (systemState sha256 a b) =
          buildSystemStateId sha256 (systemState sha256 a' b') ↔ a = a' ∧ b = b') := by
  refine ⟨fun a ha b hb h => buildConsensusSnapshotId_inj hsha ha hb h,
    fun a ha b hb h => buildLocalStateCommit_inj hsha ha hb h,
    fun a ha b hb h => buildSystemStateId_inj hsha ha hb h, ?_⟩
  intro a a' b b' ha ha' hb hb' hs hs'
  constructor
  · intro h
    obtain ⟨hsnapshot, hlocal⟩ := SystemStateIdentity.mk.inj (buildSystemStateId_inj hsha hs hs' h)
    exact ⟨buildConsensusSnapshotId_inj hsha ha ha' hsnapshot,
      buildLocalStateCommit_inj hsha hb hb' hlocal⟩
  · rintro ⟨rfl, rfl⟩
    rfl

/-- A digest given by a table; any input that is not in it is kept behind zeros. -/
def tabulated (table : List (List UInt8 × List UInt8)) (bytes : List UInt8) : List UInt8 :=
  (table.lookup bytes).getD (List.replicate 33 0 ++ bytes)

theorem mem_of_lookup_eq {α β : Type} [BEq α] [LawfulBEq α] {table : List (α × β)} {a : α} {b : β}
    (h : table.lookup a = some b) : (a, b) ∈ table := by
  obtain ⟨l, r, rfl, -⟩ := List.lookup_eq_some_iff.mp h
  simp

theorem tabulated_injective {table : List (List UInt8 × List UInt8)}
    (hdigests : (table.map Prod.snd).Nodup) (hlen : ∀ entry ∈ table, entry.2.length ≤ 32) :
    Function.Injective (tabulated table) := by
  have hkept : ∀ {bytes bytes' digest : List UInt8}, table.lookup bytes = some digest →
      digest ≠ List.replicate 33 0 ++ bytes' := by
    rintro bytes bytes' digest hd rfl
    have hle := hlen _ (mem_of_lookup_eq hd)
    simp only [List.length_append, List.length_replicate] at hle
    omega
  intro a b h
  unfold tabulated at h
  cases ha : table.lookup a with
  | none =>
    cases hb : table.lookup b with
    | none =>
      rw [ha, hb] at h
      exact List.append_cancel_left h
    | some digest =>
      rw [ha, hb] at h
      exact absurd h.symm (hkept hb)
  | some digest =>
    cases hb : table.lookup b with
    | none =>
      rw [ha, hb] at h
      exact absurd h (hkept ha)
    | some digest' =>
      rw [ha, hb] at h
      obtain rfl : digest = digest' := h
      have hentry := List.inj_on_of_nodup_map hdigests (mem_of_lookup_eq ha)
        (mem_of_lookup_eq hb) rfl
      exact (Prod.mk.inj hentry).1

namespace Sample

/-- The snapshot of a chain of a hundred blocks. -/
def snapshotIdentity : ConsensusSnapshotIdentity :=
  { sourceChain := "BTC", network := "mainnet", stableHeight := 100, stableBlockHash := "00ff"
    stableLag := 0, balanceHistoryApiVersion := "1.0.0"
    balanceHistorySemanticsVersion := "balance-snapshot-at-or-before:v1"
    usdbIndexFormulaVersion := "pass-energy-formula:v1", usdbIndexProtocolVersion := "1.0.0" }

/-- A local state without passes, with or without its balance snapshot. -/
def localIdentity (snapshot : Option LocalStateActiveBalanceSnapshot) : LocalStateCommitIdentity :=
  { upstreamSnapshotId := "a56dbe18bd9a0d95880aa8cb842e979d6d5832deea55da1c9abb1b0119760bea"
    localSyncedBlockHeight := 100, latestPassBlockCommit := none
    latestActiveBalanceSnapshot := snapshot, usdbIndexProtocolVersion := "1.0.0" }

def bareState : SystemStateIdentity :=
  { upstreamSnapshotId := "a56dbe18bd9a0d95880aa8cb842e979d6d5832deea55da1c9abb1b0119760bea"
    localStateCommit := "b044c33b3f4c1c37712e6ab6e9240b2295c0a0a3ac68946980897484ad247687" }

def settledState : SystemStateIdentity :=
  { upstreamSnapshotId := "a56dbe18bd9a0d95880aa8cb842e979d6d5832deea55da1c9abb1b0119760bea"
    localStateCommit := "1b8ea7b16185050e477e201173c79121587ec467dbf1211bcf2a3acf2c10bc77" }

/-- The digests of the five preimages of the two states. -/
def identityDigests : List (List UInt8 × List UInt8) :=
  [(snapshotIdentity.preimage,
      [165, 109, 190, 24, 189, 154, 13, 149, 136, 10, 168, 203, 132, 46, 151, 157, 109, 88, 50, 222,
        234, 85, 218, 28, 154, 187, 27, 1, 25, 118, 11, 234]),
    ((localIdentity none).preimage,
      [176, 68, 195, 59, 63, 76, 28, 55, 113, 46, 106, 182, 233, 36, 11, 34, 149, 192, 160, 163, 172,
        104, 148, 105, 128, 137, 116, 132, 173, 36, 118, 135]),
    ((localIdentity (some ⟨100, 0, 0⟩)).preimage,
      [27, 142, 167, 177, 97, 133, 5, 14, 71, 126, 32, 17, 115, 199, 145, 33, 88, 126, 196, 103, 219,
        241, 33, 27, 207, 42, 58, 207, 44, 16, 188, 119]),
    (bareState.preimage,
      [87, 31, 225, 189, 230, 29, 68, 235, 169, 252, 106, 150, 11, 58, 207, 228, 48, 10, 217, 197,
        176, 32, 153, 90, 61, 161, 192, 7, 88, 252, 83, 170]),
    (settledState.preimage,
      [31, 213, 196, 62, 110, 124, 199, 254, 121, 41, 75, 167, 179, 229, 53, 197, 37, 65, 77, 203,
        183, 77, 155, 53, 230, 64, 77, 24, 139, 211, 58, 21])]

theorem identityDigests_injective : Function.Injective (tabulated identityDigests) :=
  tabulated_injective (by decide +kernel) (by decide +kernel)

theorem snapshotIdentity_short : snapshotIdentity.Short := by
  refine ⟨?_, ?_, ?_, ?_, ?_, ?_, ?_⟩ <;> rw [ShortString, asBytes_eq] <;> decide

theorem localIdentity_short (snapshot : Option LocalStateActiveBalanceSnapshot) :
    (localIdentity snapshot).Short := by
  refine ⟨?_, fun passCommit h => (by cases h), ?_⟩ <;>
    dsimp only [ShortString, localIdentity] <;> rw [asBytes_eq] <;> decide

theorem systemState_bare :
    systemState (tabulated identityDigests) snapshotIdentity (localIdentity none) = bareState := by
  decide +kernel

theorem systemState_settled :
    systemState (tabulated identityDigests) snapshotIdentity (localIdentity (some ⟨100, 0, 0⟩)) =
      settledState := by
  decide +kernel

theorem bareState_short : bareState.Short := by
  refine ⟨?_, ?_⟩ <;> rw [ShortString, asBytes_eq] <;> decide

theorem settledState_short : settledState.Short := by
  refine ⟨?_, ?_⟩ <;> rw [ShortString, asBytes_eq] <;> decide

end Sample

/-- A state with an empty balance snapshot and one without a snapshot have different ids. -/
theorem identities_bind_optional :
    buildSystemStateId (tabulated Sample.identityDigests) Sample.bareState =
        "571fe1bde61d44eba9fc6a960b3acfe4300ad9c5b020995a3da1c00758fc53aa" ∧
      buildSystemStateId (tabulated Sample.identityDigests) Sample.bareState ≠
        buildSystemStateId (tabulated Sample.identityDigests) Sample.settledState := by
  refine ⟨by decide +kernel, ?_⟩
  have hiff := (identities_bind _ Sample.identityDigests_injective).2.2.2 _ _ _ _
    Sample.snapshotIdentity_short Sample.snapshotIdentity_short (Sample.localIdentity_short none)
    (Sample.localIdentity_short (some ⟨100, 0, 0⟩))
    (by rw [Sample.systemState_bare]; exact Sample.bareState_short)
    (by rw [Sample.systemState_settled]; exact Sample.settledState_short)
  rw [Sample.systemState_bare, Sample.systemState_settled] at hiff
  intro h
  exact absurd (hiff.mp h).2 (by decide)

end Usdb
