import Mathlib

/-! Arithmetic over `BitVec w` that says whether its result is the one over the naturals. -/

namespace Checked

variable {w : Nat} {x y : BitVec w}

/-! ### Operations -/

def add (x y : BitVec w) : Option (BitVec w) := if x.toNat + y.toNat < 2 ^ w then some (x + y) else none

def sub (x y : BitVec w) : Option (BitVec w) := if y.toNat ≤ x.toNat then some (x - y) else none

def mul (x y : BitVec w) : Option (BitVec w) := if x.toNat * y.toNat < 2 ^ w then some (x * y) else none

def double (x : BitVec w) : Option (BitVec w) := if 2 * x.toNat < 2 ^ w then some (x <<< 1) else none

/-- The sum of two signed numbers. --/
def addSigned (x y : BitVec w) : Option (BitVec w) := if x.saddOverflow y then none else some (x + y)

/-- The difference of two signed numbers. --/
def subSigned (x y : BitVec w) : Option (BitVec w) := if x.ssubOverflow y then none else some (x - y)

/-! ### Results -/

theorem add_eq (h : x.toNat + y.toNat < 2 ^ w) : add x y = some (x + y) := if_pos h

theorem sub_eq (h : y.toNat ≤ x.toNat) : sub x y = some (x - y) := if_pos h

theorem mul_eq (h : x.toNat * y.toNat < 2 ^ w) : mul x y = some (x * y) := if_pos h

theorem double_eq (h : 2 * x.toNat < 2 ^ w) : double x = some (x <<< 1) := if_pos h

theorem toNat_add (h : x.toNat + y.toNat < 2 ^ w) : (x + y).toNat = x.toNat + y.toNat := by
  rw [BitVec.toNat_add, Nat.mod_eq_of_lt h]

theorem toNat_sub (h : y.toNat ≤ x.toNat) : (x - y).toNat = x.toNat - y.toNat := BitVec.toNat_sub_of_le h

theorem toNat_mul (h : x.toNat * y.toNat < 2 ^ w) : (x * y).toNat = x.toNat * y.toNat := by
  rw [BitVec.toNat_mul, Nat.mod_eq_of_lt h]

theorem toNat_double (h : 2 * x.toNat < 2 ^ w) : (x <<< 1).toNat = 2 * x.toNat := by
  rw [BitVec.toNat_shiftLeft, Nat.shiftLeft_eq, Nat.pow_one, Nat.mul_comm, Nat.mod_eq_of_lt h]

theorem addSigned_eq (h : x.saddOverflow y = false) :
    addSigned x y = some (x + y) ∧ (x + y).toInt = x.toInt + y.toInt := by
  have hnot : ¬x.saddOverflow y = true := by rw [h]; exact Bool.false_ne_true
  exact ⟨if_neg hnot, BitVec.toInt_add_of_not_saddOverflow hnot⟩

theorem subSigned_eq (h : x.ssubOverflow y = false) :
    subSigned x y = some (x - y) ∧ (x - y).toInt = x.toInt - y.toInt := by
  have hnot : ¬x.ssubOverflow y = true := by rw [h]; exact Bool.false_ne_true
  exact ⟨if_neg hnot, BitVec.toInt_sub_of_not_ssubOverflow hnot⟩

end Checked
