import Mathlib
import Netxduo.Crypto.SignedNumber

/-! Huge numbers as they are stored, with zeros at the front where nothing has adjusted the size: the sums with and
    without a sign. -/

namespace Netxduo.Crypto
open Nat

/-- What the digits of a number stand for, without its sign. --/
def SignedNumber.magnitude (width : Nat) (x : SignedNumber) : Nat := ofDigits (digitRadix width) x.data

/-- A number whose size may count zeros at the front. --/
structure Stored (width : Nat) (x : SignedNumber) : Prop where
  digits : ∀ d ∈ x.data, d < digitRadix width
  ne_nil : x.data ≠ []
  sign : x.isNegative = true → 0 < x.magnitude width
  whole : width ∣ x.bufferSize
  fits : x.data.length * width ≤ x.bufferSize

section
variable {b width : Nat} {left right x : SignedNumber}

theorem Normal.stored (h : Normal width x) : Stored width x :=
  ⟨h.proper.digits, proper_ne_nil h.proper, h.sign, h.whole, h.fits⟩

theorem toInt_magnitude (x : SignedNumber) :
    x.toInt width = if x.isNegative then -(x.magnitude width : Int) else (x.magnitude width : Int) := rfl

theorem natAbs_magnitude (x : SignedNumber) : (x.toInt width).natAbs = x.magnitude width := natAbs_toInt x

theorem compare_magnitude (hw : 0 < width) (hl : Stored width left) (hr : Stored width right) :
    compareUnsigned left.data right.data = compare (left.magnitude width) (right.magnitude width) :=
  compareUnsigned_spec (two_le_digitRadix hw) hl.digits hr.digits

/-! ### The magnitudes -/

/-- The sum of the magnitudes, where the left buffer holds it. --/
theorem Stored.addUnsigned (hw : 0 < width) (hl : Stored width left) (hr : Stored width right)
    (hfits : right.data.length * width ≤ left.bufferSize)
    (hroom : left.magnitude width + right.magnitude width < digitRadix width ^ (left.bufferSize / width)) :
    Stored width (addUnsigned width left right) ∧
      (addUnsigned width left right).magnitude width = left.magnitude width + right.magnitude width ∧
      (addUnsigned width left right).bufferSize = left.bufferSize ∧
      (addUnsigned width left right).isNegative = left.isNegative := by
  have hb := two_le_digitRadix hw
  obtain ⟨longer, shorter, hlonger, hshorter, hlen, hsum, hdigits₁, hdigits₂, hpos, hfit⟩ : ∃ longer shorter,
      longer = (if left.data.length < right.data.length then right.data else left.data) ∧
      shorter = (if left.data.length < right.data.length then left.data else right.data) ∧
      shorter.length ≤ longer.length ∧
      ofDigits (digitRadix width) longer + ofDigits (digitRadix width) shorter =
        left.magnitude width + right.magnitude width ∧
      (∀ d ∈ longer, d < digitRadix width) ∧ (∀ d ∈ shorter, d < digitRadix width) ∧ longer ≠ [] ∧
      longer.length * width ≤ left.bufferSize := by
    by_cases hlt : left.data.length < right.data.length
    · refine ⟨_, _, rfl, rfl, ?_⟩
      rw [if_pos hlt, if_pos hlt]
      exact ⟨by omega, Nat.add_comm _ _, hr.digits, hl.digits, hr.ne_nil, hfits⟩
    · refine ⟨_, _, rfl, rfl, ?_⟩
      rw [if_neg hlt, if_neg hlt]
      exact ⟨by omega, rfl, hl.digits, hr.digits, hl.ne_nil, hl.fits⟩
  have hvalue := value_addProducts (digitRadix width) 0 longer shorter hlen
  have hcarry := getLastD_addProducts hb hdigits₁ hdigits₂
  have hcount := length_addProducts (digitRadix width) 0 longer shorter
  rw [Nat.zero_div, Nat.zero_add, hsum] at hvalue
  have hdigits : ∀ d ∈ (addProducts (digitRadix width) 0 longer shorter).map (· % digitRadix width),
      d < digitRadix width := by
    intro d hd
    obtain ⟨p, -, rfl⟩ := List.mem_map.mp hd
    exact Nat.mod_lt _ (by omega)
  have hlength : ((addProducts (digitRadix width) 0 longer shorter).map (· % digitRadix width)).length =
      longer.length := by
    rw [List.length_map, hcount]
  have hsign : left.isNegative = true → 0 < left.magnitude width + right.magnitude width := fun h =>
    Nat.lt_of_lt_of_le (hl.sign h) (Nat.le_add_right _ _)
  unfold Crypto.addUnsigned
  simp only [← hlonger, ← hshorter]
  rw [hlength]
  by_cases hzero : (addProducts (digitRadix width) 0 longer shorter).getLastD 0 / digitRadix width = 0
  · rw [hzero, Nat.mul_zero, Nat.add_zero] at hvalue
    rw [if_neg (fun h => h.1 hzero)]
    refine ⟨⟨hdigits, ?_, fun h => ?_, hl.whole, by dsimp only; rw [hlength]; exact hfit⟩, hvalue, rfl, rfl⟩
    · exact List.ne_nil_of_length_pos (by rw [hlength]; exact List.length_pos_of_ne_nil hpos)
    · unfold SignedNumber.magnitude
      rw [hvalue]
      exact hsign h
  · have hone : (addProducts (digitRadix width) 0 longer shorter).getLastD 0 / digitRadix width = 1 :=
      Nat.le_antisymm hcarry (Nat.pos_of_ne_zero hzero)
    rw [hone, Nat.mul_one] at hvalue
    have hlt : longer.length < left.bufferSize / width := by
      by_contra hc
      have hpow : digitRadix width ^ (left.bufferSize / width) ≤ digitRadix width ^ longer.length :=
        Nat.pow_le_pow_right (by omega) (Nat.le_of_not_lt hc)
      omega
    have hmore : (longer.length + 1) * width ≤ left.bufferSize :=
      (Nat.mul_le_mul_right _ hlt).trans (Nat.div_mul_le_self _ _)
    rw [Nat.add_mul] at hmore
    have hnew : ofDigits (digitRadix width) ((addProducts (digitRadix width) 0 longer shorter).map
        (· % digitRadix width) ++ [1]) = left.magnitude width + right.magnitude width := by
      rw [ofDigits_append, ofDigits_singleton, hlength, Nat.mul_one]
      exact hvalue
    rw [if_pos ⟨hzero, by omega⟩]
    refine ⟨⟨fun d hd => ?_, by simp, fun h => ?_, hl.whole, ?_⟩, hnew, rfl, rfl⟩
    · rcases List.mem_append.mp hd with hd | hd
      · exact hdigits d hd
      · obtain rfl := List.mem_singleton.mp hd
        omega
    · unfold SignedNumber.magnitude
      rw [hnew]
      exact hsign h
    · dsimp only
      rw [List.length_append, List.length_singleton, hlength, Nat.add_mul]
      omega

/-- Digits beyond those of the left number count for nothing. --/
theorem subtractFrom_take (b : Nat) : ∀ (product : Nat) (ls rs : List Nat),
    subtractFrom b product ls rs = subtractFrom b product ls (rs.take ls.length)
  | _, [], _ => by simp [subtractFrom]
  | _, _ :: _, [] => by rw [List.take_nil]
  | _, _ :: ls, _ :: rs => by
    rw [List.length_cons, List.take_succ_cons, subtractFrom, subtractFrom, subtractFrom_take b _ ls rs]

theorem value_take_of_lt {xs : List Nat} {n : Nat} (h : ofDigits b xs < b ^ n) :
    ofDigits b (xs.take n) = ofDigits b xs := by
  have hsplit : ofDigits b xs = ofDigits b (xs.take n) + b ^ (xs.take n).length * ofDigits b (xs.drop n) := by
    rw [← ofDigits_append, List.take_append_drop]
  rcases Nat.lt_or_ge n xs.length with hlt | hge
  · rw [List.length_take, Nat.min_eq_left hlt.le] at hsplit
    have hzero : ofDigits b (xs.drop n) = 0 := by
      by_contra hne
      have hmul := Nat.mul_le_mul_left (b ^ n) (Nat.pos_of_ne_zero hne)
      rw [Nat.succ_eq_add_one, Nat.zero_add, Nat.mul_one] at hmul
      omega
    rw [hsplit, hzero]
    simp
  · rw [List.take_of_length_le hge]

/-- The difference of the magnitudes, where the left one is not the smaller one. --/
theorem Stored.subtractUnsigned (hw : 0 < width) {result : SignedNumber} (hl : Stored width left)
    (hr : Stored width right) (hwhole : width ∣ result.bufferSize)
    (hfits : left.data.length * width ≤ result.bufferSize)
    (hle : right.magnitude width ≤ left.magnitude width) :
    Normal width (subtractUnsigned width left right result) ∧
      (subtractUnsigned width left right result).magnitude width + right.magnitude width = left.magnitude width ∧
      (subtractUnsigned width left right result).bufferSize = result.bufferSize ∧
      (right.magnitude width < left.magnitude width →
        (subtractUnsigned width left right result).isNegative = result.isNegative) := by
  have hb := two_le_digitRadix hw
  have hone : digitRadix width / digitRadix width = 1 := Nat.div_self (by omega)
  have hshort : ofDigits (digitRadix width) (right.data.take left.data.length) = right.magnitude width :=
    value_take_of_lt (hle.trans_lt (value_lt hb hl.digits))
  have hvalue := value_subtractFrom hb (digitRadix width) left.data (right.data.take left.data.length) (by omega)
    (by rw [List.length_take]; omega) hl.digits (fun d hd => hr.digits d (List.mem_of_mem_take hd))
    (by rw [hone, hshort, Nat.sub_self]; exact hle)
  rw [hone, Nat.sub_self, Nat.add_zero, hshort, ← subtractFrom_take] at hvalue
  have hlength := length_subtractFrom (digitRadix width) (digitRadix width) left.data right.data
  unfold Crypto.subtractUnsigned
  simp only [map_subtractProducts]
  refine ⟨normal_adjust hw (subtractFrom_digits hb _ _ _) ?_ hwhole (by simpa only [hlength] using hfits), ?_, rfl, ?_⟩
  · intro hnil
    rw [show subtractFrom (digitRadix width) (digitRadix width) left.data right.data = [] from hnil] at hlength
    exact hl.ne_nil (List.eq_nil_of_length_eq_zero hlength.symm)
  · unfold SignedNumber.magnitude
    rw [data_adjust, value_adjustSize]
    exact hvalue
  · intro hlt
    rw [isNegative_adjust hw, if_neg]
    have h : ofDigits (digitRadix width) (subtractFrom (digitRadix width) (digitRadix width) left.data right.data) ≠
      0 := by
      unfold SignedNumber.magnitude at hvalue hlt
      omega
    exact h

/-! ### The sums with a sign -/

/-- What the sums need of the left buffer: the right number's digits fit, and so does what comes out. --/
structure Holds (width : Nat) (left right : SignedNumber) : Prop where
  fits : right.data.length * width ≤ left.bufferSize
  value : left.magnitude width + right.magnitude width < digitRadix width ^ (left.bufferSize / width)

/-- Two numbers whose magnitudes are subtracted, the sign of the larger one being kept. --/
theorem Stored.difference (hw : 0 < width) {neg : Bool} (hl : Stored width left) (hr : Stored width right)
    (hfits : right.data.length * width ≤ left.bufferSize) {y : SignedNumber}
    (hy : y = (if compareUnsigned left.data right.data = .eq then left.setDigit 0
      else if compareUnsigned left.data right.data = .lt then
        { Crypto.subtractUnsigned width right left left with isNegative := neg }
      else Crypto.subtractUnsigned width left right left))
    (hneg : neg = !left.isNegative) :
    Stored width y ∧ y.bufferSize = left.bufferSize ∧ y.toInt width = left.toInt width +
      (if left.isNegative then (right.magnitude width : Int) else -(right.magnitude width : Int)) := by
  rw [compare_magnitude hw hl hr] at hy
  rcases Nat.lt_trichotomy (left.magnitude width) (right.magnitude width) with h | h | h
  · rw [Nat.compare_eq_lt.mpr h, if_neg (by decide), if_pos rfl] at hy
    obtain ⟨hnormal, hvalue, hsize, -⟩ := hr.subtractUnsigned hw hl hl.whole hfits h.le
    subst hy
    refine ⟨(hnormal.with_sign ?_).stored, hsize, ?_⟩
    · have h' : (Crypto.subtractUnsigned width right left left).magnitude width ≠ 0 := by omega
      exact Nat.pos_of_ne_zero h'
    · rw [toInt_magnitude, toInt_magnitude, hneg]
      dsimp only [SignedNumber.magnitude] at hvalue ⊢
      cases left.isNegative
      · simp only [Bool.not_false, if_true, Bool.false_eq_true, if_false]
        omega
      · simp only [Bool.not_true, if_true, Bool.false_eq_true, if_false]
        omega
  · rw [Nat.compare_eq_eq.mpr h, if_pos rfl] at hy
    subst hy
    refine ⟨⟨?_, by simp [SignedNumber.setDigit], (fun hn => by cases hn), hl.whole, ?_⟩, rfl, ?_⟩
    · intro d hd
      obtain rfl : d = 0 := by simpa [SignedNumber.setDigit] using hd
      have := two_le_digitRadix hw
      omega
    · exact (Nat.mul_le_mul_right _ (List.length_pos_of_ne_nil hl.ne_nil)).trans hl.fits
    · rw [toInt_setDigit_zero, toInt_magnitude, h]
      split <;> ring
  · rw [Nat.compare_eq_gt.mpr h, if_neg (by decide), if_neg (by decide)] at hy
    obtain ⟨hnormal, hvalue, hsize, hsign⟩ := hl.subtractUnsigned hw hr hl.whole hl.fits h.le
    subst hy
    refine ⟨hnormal.stored, hsize, ?_⟩
    rw [toInt_magnitude, toInt_magnitude, hsign h]
    split <;> omega

theorem Stored.add (hw : 0 < width) (hl : Stored width left) (hr : Stored width right) (hholds :
    Holds width left right) :
    Stored width (add width left right) ∧ (add width left right).bufferSize = left.bufferSize ∧
      (add width left right).toInt width = left.toInt width + right.toInt width := by
  unfold Crypto.add
  dsimp only
  by_cases hsame : left.isNegative = right.isNegative
  · rw [if_pos hsame]
    obtain ⟨hstored, hvalue, hsize, hsign⟩ := hl.addUnsigned hw hr hholds.fits hholds.value
    refine ⟨hstored, hsize, ?_⟩
    rw [toInt_magnitude, toInt_magnitude, toInt_magnitude, hsign, hvalue, ← hsame]
    split <;> push_cast <;> ring
  · rw [if_neg hsame]
    have hneg : right.isNegative = !left.isNegative := by
      revert hsame
      cases left.isNegative <;> cases right.isNegative <;> simp
    have hright : right.toInt width =
        if left.isNegative then (right.magnitude width : Int) else -(right.magnitude width : Int) := by
      rw [toInt_magnitude, hneg]
      cases left.isNegative <;> simp
    rw [hright]
    exact hl.difference hw hr hholds.fits rfl hneg

theorem Stored.subtract (hw : 0 < width) (hl : Stored width left) (hr : Stored width right)
    (hholds : Holds width left right) :
    Stored width (subtractSigned width left right) ∧
      (subtractSigned width left right).bufferSize = left.bufferSize ∧
      (subtractSigned width left right).toInt width = left.toInt width - right.toInt width := by
  unfold Crypto.subtractSigned
  dsimp only
  by_cases hsame : left.isNegative = right.isNegative
  · rw [if_neg (by simpa using hsame), Int.sub_eq_add_neg]
    have hright : -right.toInt width =
        if left.isNegative then (right.magnitude width : Int) else -(right.magnitude width : Int) := by
      rw [toInt_magnitude, ← hsame]
      split <;> simp
    rw [hright]
    exact hl.difference hw hr hholds.fits rfl (by rw [hsame])
  · rw [if_pos hsame]
    obtain ⟨hstored, hvalue, hsize, hsign⟩ := hl.addUnsigned hw hr hholds.fits hholds.value
    refine ⟨hstored, hsize, ?_⟩
    rw [toInt_magnitude, toInt_magnitude, toInt_magnitude, hsign, hvalue]
    revert hsame
    cases left.isNegative <;> cases right.isNegative <;> simp
    omega

end

end Netxduo.Crypto
