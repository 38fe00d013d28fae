import Mathlib.Data.Int.Order.Basic
import Mathlib.Algebra.Order.Ring.Int

/-! Serial-number arithmetic over `BitVec w`: numbers that wrap, compared through the sign of their
    difference. A number is located by its signed distance from a reference number; as long as two
    distances differ by less than half the space, comparing the numbers is comparing the distances. -/

namespace Serial

variable {w : Nat}

/-! ### Residues -/

/-- A residue of small size is the integer itself. --/
theorem bmod_eq {d : Int} (h₁ : -(2 ^ w / 2) ≤ d) (h₂ : d < 2 ^ w / 2) : d.bmod (2 ^ w) = d := by
  apply Int.bmod_eq_of_le
  · push_cast
    exact h₁
  · push_cast
    omega

theorem toInt_sub_sub (x y r : BitVec w) :
    (x - y).toInt = ((x - r).toInt - (y - r).toInt).bmod (2 ^ w) := by
  have h : x - y = (x - r) - (y - r) := by grind
  rw [h, BitVec.toInt_sub]

/-! ### Distances -/

/-- Where `x` lies, seen from `r`: the signed distance from `r` to `x`. --/
def rel (r x : BitVec w) : Int := (x - r).toInt

@[simp] theorem rel_self (r : BitVec w) : rel r r = 0 := by simp [rel]

theorem two_mul_rel_lt (r x : BitVec w) : 2 * rel r x < 2 ^ w := BitVec.two_mul_toInt_lt

theorem le_two_mul_rel (r x : BitVec w) : -2 ^ w ≤ 2 * rel r x := BitVec.le_two_mul_toInt

/-- The difference of two numbers whose distances are less than half the space apart. --/
theorem toInt_sub_eq {r x y : BitVec w} (h₁ : -(2 ^ w / 2) ≤ rel r x - rel r y)
    (h₂ : rel r x - rel r y < 2 ^ w / 2) : (x - y).toInt = rel r x - rel r y := by
  rw [toInt_sub_sub x y r]
  exact bmod_eq h₁ h₂

/-- Distances from a second reference number. --/
theorem rel_rebase {r r' x : BitVec w} (h₁ : -(2 ^ w / 2) ≤ rel r x - rel r r')
    (h₂ : rel r x - rel r r' < 2 ^ w / 2) : rel r' x = rel r x - rel r r' :=
  toInt_sub_eq h₁ h₂

/-- Advancing a number advances its distance. --/
theorem rel_add {r x v : BitVec w} (h₁ : -(2 ^ w / 2) ≤ rel r x + v.toInt)
    (h₂ : rel r x + v.toInt < 2 ^ w / 2) : rel r (x + v) = rel r x + v.toInt := by
  have h : x + v - r = (x - r) + v := by grind
  rw [rel, h, BitVec.toInt_add]
  exact bmod_eq h₁ h₂

theorem rel_add_ofNat {r x : BitVec w} {n : Nat} (h₁ : -(2 ^ w / 2) ≤ rel r x + n)
    (h₂ : rel r x + n < 2 ^ w / 2) : rel r (x + BitVec.ofNat w n) = rel r x + n := by
  have h : x + BitVec.ofNat w n - r = (x - r) + BitVec.ofNat w n := by grind
  rw [rel, h, BitVec.toInt_add, BitVec.toInt_ofNat', Int.add_bmod_bmod]
  exact bmod_eq h₁ h₂

theorem rel_injective (r : BitVec w) : Function.Injective (rel r) := by
  intro x y h
  have hxy : x - r = y - r := BitVec.eq_of_toInt_eq h
  grind

/-! ### Windows -/

theorem pow_even (h : w ≠ 0) : (2 ^ w : Int) = 2 * (2 ^ w / 2) := by
  obtain ⟨v, rfl⟩ := Nat.exists_eq_succ_of_ne_zero h
  rw [Int.pow_succ]
  omega

/-- A number that compares below the end of a window lies below it, and not too far. --/
theorem rel_lt_of_toInt_neg {r x v : BitVec w} (hv : 0 ≤ v.toInt) (h : (x - (r + v)).toInt < 0) :
    v.toInt - 2 ^ w / 2 ≤ rel r x ∧ rel r x < v.toInt := by
  have heq : x - (r + v) = (x - r) - v := by grind
  have hw : w ≠ 0 := by
    rintro rfl
    simp [BitVec.toInt_zero_length] at h
  have heven := pow_even hw
  have h₁ := le_two_mul_rel r x
  have h₂ := two_mul_rel_lt r x
  have h₃ : 2 * v.toInt < 2 ^ w := BitVec.two_mul_toInt_lt
  rw [heq, BitVec.toInt_sub] at h
  change (rel r x - v.toInt).bmod (2 ^ w) < 0 at h
  by_cases hfar : rel r x - v.toInt < -(2 ^ w / 2)
  · rw [← Int.add_bmod_right] at h
    push_cast at h
    rw [bmod_eq (by omega) (by omega)] at h
    omega
  · rw [bmod_eq (by omega) (by omega)] at h
    omega

/-- A number that compares above the start of a window lies above it, and not too far. --/
theorem rel_add_of_toInt_pos {r x v : BitVec w} (hv : 0 ≤ v.toInt) (h : 0 < (x + v - r).toInt) :
    0 < rel r x + v.toInt ∧ rel r x + v.toInt < 2 ^ w / 2 := by
  have heq : x + v - r = (x - r) + v := by grind
  have hw : w ≠ 0 := by
    rintro rfl
    simp [BitVec.toInt_zero_length] at h
  have heven := pow_even hw
  have h₁ := le_two_mul_rel r x
  have h₂ := two_mul_rel_lt r x
  have h₃ : 2 * v.toInt < 2 ^ w := BitVec.two_mul_toInt_lt
  rw [heq, BitVec.toInt_add] at h
  change 0 < (rel r x + v.toInt).bmod (2 ^ w) at h
  by_cases hfar : 2 ^ w / 2 ≤ rel r x + v.toInt
  · rw [← Int.sub_bmod_right] at h
    push_cast at h
    rw [bmod_eq (by omega) (by omega)] at h
    omega
  · rw [bmod_eq (by omega) (by omega)] at h
    omega

/-! ### Near numbers -/

/-- `x` lies less than a quarter of the space away from `r`: any two such numbers compare as integers. --/
def Near (r x : BitVec w) : Prop := -2 ^ w < 4 * rel r x ∧ 4 * rel r x < 2 ^ w

theorem near_self (r : BitVec w) : Near r r := by
  rw [Near, rel_self]
  have : (0 : Int) < 2 ^ w := Int.pow_pos (by decide)
  omega

/-- The signed difference of two near numbers. --/
theorem Near.toInt_sub {r x y : BitVec w} (hx : Near r x) (hy : Near r y) :
    (x - y).toInt = rel r x - rel r y := by
  obtain ⟨hx₁, hx₂⟩ := hx
  obtain ⟨hy₁, hy₂⟩ := hy
  cases w with
  | zero =>
    have h₁ := two_mul_rel_lt y x
    have h₂ := le_two_mul_rel y x
    rw [rel] at h₁ h₂
    simp only [Int.pow_zero] at h₁ h₂ hx₁ hx₂ hy₁ hy₂
    omega
  | succ w =>
    rw [Int.pow_succ] at hx₁ hx₂ hy₁ hy₂
    apply toInt_sub_eq
    · rw [Int.pow_succ]
      omega
    · rw [Int.pow_succ]
      omega

/-! ### Translation -/

end Serial
