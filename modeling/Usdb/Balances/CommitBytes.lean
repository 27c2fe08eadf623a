import Mathlib.Tactic.NormNum
import Usdb.Framework.Framing
import Usdb.Balances.Commit

namespace Usdb.Balances

open Framework

section Bytes

theorem beBytes_length (width n : Nat) : (beBytes width n).length = width := by
  induction width generalizing n with
  | zero => rfl
  | succ width ih => rw [beBytes, List.length_append, ih, List.length_singleton]

theorem beBytes_inj {width m n : Nat} (hm : m < 256 ^ width) (hn : n < 256 ^ width)
    (h : beBytes width m = beBytes width n) : m = n := by
  induction width generalizing m n with
  | zero =>
    rw [Nat.pow_zero] at hm hn
    omega
  | succ width ih =>
    rw [beBytes, beBytes] at h
    obtain ⟨hhigh, hlow⟩ := List.append_inj' h rfl
    rw [Nat.pow_succ] at hm hn
    have hdiv := ih (m := m / 256) (n := n / 256) (by omega) (by omega) hhigh
    have hbyte := congrArg UInt8.toNat (List.cons.inj hlow).1
    rw [UInt8.toNat_ofNat', UInt8.toNat_ofNat'] at hbyte
    omega

theorem beBytes_hash_inj {a b : Hash256} (h : beBytes 32 a = beBytes 32 b) : a = b := by
  have hlt : ∀ hash : Hash256, hash.val < 256 ^ 32 := by
    intro hash
    rw [show 256 ^ 32 = 2 ^ 256 by norm_num]
    exact hash.isLt
  exact Fin.ext (beBytes_inj (hlt a) (hlt b) h)

end Bytes

/-- The amounts of an entry fit the integers the source has them in. -/
structure AmountsInRange (delta : Int) (balance : Nat) : Prop where
  delta_ge : -(2 ^ 63) ≤ delta
  delta_lt : delta < 2 ^ 63
  balance_lt : balance < 2 ^ 64

section Entries

theorem entryBytes_length (entry : BalanceHistoryEntry) : (entryBytes entry).length = 52 := by
  unfold entryBytes
  simp only [List.length_append, beBytes_length]

/-- Entries at one height are read back from their bytes. -/
theorem entryBytes_inj {entry entry' : BalanceHistoryEntry}
    (hheight : entry.blockHeight = entry'.blockHeight)
    (hr : AmountsInRange entry.delta entry.balance)
    (hr' : AmountsInRange entry'.delta entry'.balance)
    (h : entryBytes entry = entryBytes entry') : entry = entry' := by
  obtain ⟨scriptHash, height, delta, balance⟩ := entry
  obtain ⟨scriptHash', height', delta', balance'⟩ := entry'
  unfold entryBytes at h
  obtain ⟨h, hbalance⟩ := List.append_inj h (by simp only [List.length_append, beBytes_length])
  obtain ⟨h, hdelta⟩ := List.append_inj h (by simp only [List.length_append, beBytes_length])
  obtain ⟨hscript, -⟩ := List.append_inj h (by simp only [beBytes_length])
  have hpow : 256 ^ 8 = 2 ^ 64 := by norm_num
  have hscript' : scriptHash = scriptHash' := beBytes_hash_inj hscript
  have hbalance' : balance = balance' :=
    beBytes_inj (hpow ▸ hr.balance_lt) (hpow ▸ hr'.balance_lt) hbalance
  have hdelta' : (delta % 2 ^ 64).toNat = (delta' % 2 ^ 64).toNat := by
    refine beBytes_inj ?_ ?_ hdelta
    · rw [hpow]
      omega
    · rw [hpow]
      omega
  have h₁ := hr.delta_ge
  have h₂ := hr.delta_lt
  have h₃ := hr'.delta_ge
  have h₄ := hr'.delta_lt
  dsimp only at h₁ h₂ h₃ h₄
  have hdelta'' : delta = delta' := by omega
  obtain rfl : height = height' := hheight
  rw [hscript', hbalance', hdelta'']

variable {height : Nat} {hash hash' : BlockHash} {entries entries' : List BalanceHistoryEntry}

theorem entryBytes_map_inj
    (he : ∀ entry ∈ entries, entry.blockHeight = height ∧
      AmountsInRange entry.delta entry.balance)
    (he' : ∀ entry ∈ entries', entry.blockHeight = height ∧
      AmountsInRange entry.delta entry.balance)
    (h : entries.map entryBytes = entries'.map entryBytes) : entries = entries' := by
  induction entries generalizing entries' with
  | nil =>
    cases entries' with
    | nil => rfl
    | cons entry' entries' => cases h
  | cons entry entries ih =>
    cases entries' with
    | nil => cases h
    | cons entry' entries' =>
      obtain ⟨hhead, htail⟩ := List.cons.inj h
      obtain ⟨hh, hr⟩ := he entry (by simp)
      obtain ⟨hh', hr'⟩ := he' entry' (by simp)
      rw [entryBytes_inj (hh.trans hh'.symm) hr hr' hhead,
        ih (fun e hm => he e (by simp [hm])) (fun e hm => he' e (by simp [hm])) htail]

/-- The hashed bytes of a block give its hash and its entries. -/
theorem balanceDeltaBytes_inj
    (he : ∀ entry ∈ entries, entry.blockHeight = height ∧
      AmountsInRange entry.delta entry.balance)
    (he' : ∀ entry ∈ entries', entry.blockHeight = height ∧
      AmountsInRange entry.delta entry.balance)
    (h : balanceDeltaBytes ⟨height, hash, entries⟩ = balanceDeltaBytes ⟨height, hash', entries'⟩) :
    hash = hash' ∧ entries = entries' := by
  unfold balanceDeltaBytes at h
  obtain ⟨h, hentries⟩ := List.append_inj h (by simp only [List.length_append, beBytes_length])
  obtain ⟨-, hhash⟩ := List.append_inj h (by simp only [List.length_append, beBytes_length])
  have hmap := flatMap_eq_of_length (by decide : 0 < 52) (fun e _ => entryBytes_length e)
    (fun e _ => entryBytes_length e) hentries
  exact ⟨beBytes_hash_inj hhash, entryBytes_map_inj he he' hmap⟩

/-- The hashed bytes of a commit give the block, the delta root and the commit before. -/
theorem blockCommitBytes_inj {sha256 : Sha256} (hsha : SelfDelimiting sha256)
    {delta delta' prev prev' : List UInt8}
    (h : blockCommitBytes height hash (sha256 delta) prev =
      blockCommitBytes height hash' (sha256 delta') prev') :
    hash = hash' ∧ delta = delta' ∧ prev = prev' := by
  unfold blockCommitBytes at h
  rw [List.append_assoc _ (sha256 delta), List.append_assoc _ (sha256 delta')] at h
  obtain ⟨h, hrest⟩ := List.append_inj h (by simp only [List.length_append, beBytes_length])
  obtain ⟨-, hhash⟩ := List.append_inj h (by simp only [List.length_append, beBytes_length])
  have hdelta := hsha.eq_of_append hrest
  subst hdelta
  exact ⟨beBytes_hash_inj hhash, rfl, List.append_cancel_left hrest⟩

end Entries

end Usdb.Balances
