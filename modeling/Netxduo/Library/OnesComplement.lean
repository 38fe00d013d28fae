import Mathlib.Algebra.BigOperators.Group.List.Basic
import Mathlib.Algebra.Order.Ring.Int

/-! Sums of 16-bit words in ones' complement, as the checksums of the internet have them. -/

namespace OnesComplement

/-- The carry goes around. --/
def endAround (n : Nat) : Nat := if 65535 < n then n - 65535 else n

def sum (words : List UInt16) : Nat := words.foldr (fun w s => endAround (w.toNat + s)) 0

/-- The sum without its carries going around. --/
def total (words : List UInt16) : Nat := (words.map UInt16.toNat).sum

/-- The checksum of words that hold none yet. --/
def checksum (words : List UInt16) : UInt16 := UInt16.ofNat (65535 - sum words)

/-- What a receiver looks for: the sum is all ones. --/
def Verifies (words : List UInt16) : Prop := sum words = 65535

instance (words : List UInt16) : Decidable (Verifies words) := inferInstanceAs (Decidable (_ = _))

@[simp] theorem total_nil : total [] = 0 := rfl

@[simp] theorem total_cons (w : UInt16) (words : List UInt16) : total (w :: words) = w.toNat + total words := List.sum_cons

@[simp] theorem total_append (words more : List UInt16) : total (words ++ more) = total words + total more := by
  unfold total
  rw [List.map_append, List.sum_append]

/-- A sum is what is left of the total by 65535, and zero only where there is nothing but zeros. --/
theorem sum_spec (words : List UInt16) :
    sum words ≤ 65535 ∧ sum words % 65535 = total words % 65535 ∧ (sum words = 0 ↔ total words = 0) := by
  induction words with
  | nil => exact ⟨Nat.zero_le _, rfl, Iff.rfl⟩
  | cons w words ih =>
    have hlt := w.toNat_lt
    obtain ⟨hle, hmod, hzero⟩ := ih
    have hsum : sum (w :: words) = endAround (w.toNat + sum words) := rfl
    rw [hsum, total_cons]
    unfold endAround
    split
    · omega
    · omega

theorem verifies_iff (words : List UInt16) : Verifies words ↔ total words ≠ 0 ∧ total words % 65535 = 0 := by
  obtain ⟨hle, hmod, hzero⟩ := sum_spec words
  unfold Verifies
  omega

/-- Words that have the same sum verify together. --/
theorem verifies_congr {words more : List UInt16} (hmod : total words % 65535 = total more % 65535)
    (hwords : total words ≠ 0) (hmore : total more ≠ 0) : Verifies words ↔ Verifies more := by
  rw [verifies_iff, verifies_iff]
  omega

theorem toNat_checksum (words : List UInt16) : (checksum words).toNat = 65535 - sum words := by
  unfold checksum
  rw [UInt16.toNat_ofNat']
  exact Nat.mod_eq_of_lt (by omega)

end OnesComplement
