import Mathlib
import Netxduo.Crypto.StoredNumber

/-! The helpers of a prime field that add and subtract numbers below the prime. -/

namespace Netxduo.Crypto.Field
open Nat

/-! ### The source -/

/-- The loop over the borrow, which ends where a digit lends. --/
def subtractDigitLoop (b : Nat) : Nat → List Nat → List Nat
  | product, d :: ds =>
    if product / b = 0 then
      let product := b + d - 1
      product % b :: subtractDigitLoop b product ds
    else d :: ds
  | _, [] => []

/-- `_nx_crypto_huge_number_subtract_digit_unsigned` --/
def subtractDigitUnsigned (width : Nat) (value : SignedNumber) (digit : Nat) : SignedNumber :=
  let b := digitRadix width
  let product := b + value.data.headD 0 - digit
  { value with data := product % b :: subtractDigitLoop b product value.data.tail }.adjust

/-- `_nx_crypto_ec_subtract_digit_reduce` --/
def subtractDigitReduce (width : Nat) (fp value : SignedNumber) (digit : Nat) : SignedNumber :=
  subtractDigitUnsigned width
    (if value.data.length = 1 ∨ value.data.headD 0 < digit then addUnsigned width value fp else value) digit

/-- `_nx_crypto_ec_add_reduce` --/
def addReduce (width : Nat) (fp left right : SignedNumber) : SignedNumber :=
  let left := addUnsigned width left right
  if compareUnsigned left.data fp.data ≠ .lt then subtractUnsigned width left fp left else left

/-- `_nx_crypto_ec_subtract_reduce` --/
def subtractReduce (width : Nat) (fp left right : SignedNumber) : SignedNumber :=
  let left := if compareUnsigned left.data right.data = .lt then addUnsigned width left fp else left
  subtractUnsigned width left right left

/-! ### What comes out -/

/-- A number of the field as an operand: stored without a sign, below the prime. --/
structure Operand (width : Nat) (fp x : SignedNumber) : Prop where
  stored : Stored width x
  sign : x.isNegative = false
  below : x.magnitude width < fp.magnitude width

/-- The representative of an integer modulo the prime. --/
structure Representative (width : Nat) (fp : SignedNumber) (n : Int) (x : SignedNumber) : Prop where
  operand : Operand width fp x
  value : (x.magnitude width : Int) = n % (fp.magnitude width : Int)
  product : ∀ y, Operand width fp y → x.magnitude width * y.magnitude width ≤ (fp.magnitude width - 1) ^ 2

section
variable {b width digit : Nat} {fp left right value x : SignedNumber} {n : Int}

/-- Two numbers below the prime have a product that a reduction takes. --/
theorem Operand.product {y : SignedNumber} (hx : Operand width fp x) (hy : Operand width fp y) :
    x.magnitude width * y.magnitude width ≤ (fp.magnitude width - 1) ^ 2 := by
  have hbelow := hx.below
  have hbelow' := hy.below
  rw [Nat.pow_two]
  exact Nat.mul_le_mul (by omega) (by omega)

/-- What is below the prime and congruent is the representative. --/
theorem Operand.representative (hx : Operand width fp x) (k : Int)
    (hvalue : (x.magnitude width : Int) = n + k * (fp.magnitude width : Int)) : Representative width fp n x := by
  refine ⟨hx, ?_, fun y hy => hx.product hy⟩
  have hbelow := hx.below
  rw [← Int.emod_eq_of_lt (Int.natCast_nonneg _) (Int.ofNat_lt.mpr hbelow), hvalue, Int.add_mul_emod_self_right]

/-! ### Adding and subtracting -/

theorem addReduce_representative (hw : 0 < width) (hfp : Stored width fp) (hl : Operand width fp left)
    (hr : Operand width fp right) (hfits : right.data.length * width ≤ left.bufferSize)
    (hroom : 2 * fp.magnitude width ≤ digitRadix width ^ (left.bufferSize / width)) :
    Representative width fp ((left.magnitude width : Int) + right.magnitude width) (addReduce width fp left right) := by
  have hleft := hl.below
  have hright := hr.below
  obtain ⟨hstored, hvalue, -, hsign⟩ := hl.stored.addUnsigned hw hr.stored hfits (by omega)
  unfold addReduce
  dsimp only
  rw [compare_magnitude hw hstored hfp, hvalue]
  by_cases hlt : left.magnitude width + right.magnitude width < fp.magnitude width
  · rw [if_neg (not_not.mpr (Nat.compare_eq_lt.mpr hlt))]
    exact Operand.representative ⟨hstored, hsign.trans hl.sign, by rw [hvalue]; exact hlt⟩ 0
      (by rw [hvalue]; push_cast; ring)
  · rw [if_pos (fun h => hlt (Nat.compare_eq_lt.mp h))]
    obtain ⟨hnormal, hvalue', -, hsign'⟩ := hstored.subtractUnsigned hw hfp
      hstored.whole hstored.fits (by omega)
    refine Operand.representative ⟨hnormal.stored, ?_, by omega⟩ (-1) ?_
    · by_contra hneg
      have hpos := hnormal.sign (by simpa using hneg)
      have hpos' : 0 < (subtractUnsigned width (addUnsigned width left right) fp
        (addUnsigned width left right)).magnitude
        width := hpos
      rw [hsign' (by omega), hsign, hl.sign] at hneg
      exact hneg rfl
    · omega

theorem subtractReduce_representative (hw : 0 < width) (hfp : Stored width fp) (hl : Operand width fp left)
    (hr : Operand width fp right) (hfits : fp.data.length * width ≤ left.bufferSize)
    (hroom : 2 * fp.magnitude width ≤ digitRadix width ^ (left.bufferSize / width)) :
    Representative width fp ((left.magnitude width : Int) - right.magnitude width)
      (subtractReduce width fp left right) := by
  have hleft := hl.below
  have hright := hr.below
  unfold subtractReduce
  dsimp only
  rw [compare_magnitude hw hl.stored hr.stored]
  -- the number the right one is taken from, and how often the prime has been added to it
  obtain ⟨y, k, hy, hstored, hsign, hvalue, hle, hbelow⟩ : ∃ (y : SignedNumber) (k : Nat),
      y = (if compare (left.magnitude width) (right.magnitude width) = .lt then addUnsigned width left fp else left) ∧
      Stored width y ∧ y.isNegative = false ∧ y.magnitude width = left.magnitude width + k * fp.magnitude width ∧
      right.magnitude width ≤ y.magnitude width ∧ y.magnitude width - right.magnitude width < fp.magnitude width := by
    by_cases hlt : left.magnitude width < right.magnitude width
    · obtain ⟨hstored, hvalue, -, hsign⟩ := hl.stored.addUnsigned hw hfp hfits (by omega)
      refine ⟨_, 1, rfl, ?_⟩
      rw [if_pos (Nat.compare_eq_lt.mpr hlt)]
      exact ⟨hstored, hsign.trans hl.sign, by rw [hvalue, Nat.one_mul], by omega, by omega⟩
    · refine ⟨_, 0, rfl, ?_⟩
      rw [if_neg (fun h => hlt (Nat.compare_eq_lt.mp h))]
      exact ⟨hl.stored, hl.sign, by rw [Nat.zero_mul, Nat.add_zero], by omega, by omega⟩
  rw [← hy]
  obtain ⟨hnormal, hvalue', -, hsign'⟩ := hstored.subtractUnsigned hw hr.stored hstored.whole
    hstored.fits hle
  refine Operand.representative ⟨hnormal.stored, ?_, by omega⟩ k ?_
  · by_contra hneg
    have hpos : 0 < (subtractUnsigned width y right y).magnitude width := hnormal.sign (by simpa using hneg)
    rw [hsign' (by omega), hsign] at hneg
    exact hneg rfl
  · have hcast := congrArg (Nat.cast (R := Int)) hvalue
    push_cast at hcast
    omega

/-! ### Subtracting a digit -/

/-- The loop takes the borrow off what is above the lowest digit. --/
theorem subtractDigitLoop_spec (hb : 2 ≤ b) : ∀ {product : Nat} {ds : List Nat}, (∀ d ∈ ds, d < b) → product / b ≤ 1 →
    1 - product / b ≤ ofDigits b ds →
    (∀ d ∈ subtractDigitLoop b product ds, d < b) ∧ (subtractDigitLoop b product ds).length = ds.length ∧
      ofDigits b (subtractDigitLoop b product ds) + (1 - product / b) = ofDigits b ds
  | product, [], _, _, hle => by
    rw [ofDigits_nil] at hle
    simpa [subtractDigitLoop] using hle
  | product, d :: ds, hdigits, hone, hle => by
    have hd := hdigits d List.mem_cons_self
    rw [subtractDigitLoop]
    by_cases hborrow : product / b = 0
    · rw [if_pos hborrow, hborrow]
      dsimp only
      rw [hborrow, ofDigits_cons] at hle
      by_cases hzero : d = 0
      · subst hzero
        have hquot : (b + 0 - 1) / b = 0 := Nat.div_eq_of_lt (by omega)
        have hmod : (b + 0 - 1) % b = b - 1 := Nat.mod_eq_of_lt (by omega)
        have hmore : 1 ≤ ofDigits b ds := by
          by_contra hc
          obtain hnil : ofDigits b ds = 0 := by omega
          rw [hnil] at hle
          omega
        obtain ⟨hlt, hlength, hvalue⟩ := @subtractDigitLoop_spec hb (b + 0 - 1) _
          (fun e he => hdigits e (List.mem_cons_of_mem _ he)) (by omega) (by rw [hquot]; exact hmore)
        rw [hquot] at hvalue
        refine ⟨fun e he => ?_, by rw [List.length_cons, List.length_cons, hlength], ?_⟩
        · rcases List.mem_cons.mp he with rfl | he
          · exact Nat.mod_lt _ (by omega)
          · exact hlt e he
        · rw [ofDigits_cons, ofDigits_cons, hmod, ← hvalue, Nat.mul_add]
          omega
      · have hquot : (b + d - 1) / b = 1 := by
          rw [show b + d - 1 = d - 1 + b by omega, Nat.add_div_right _ (by omega), Nat.div_eq_of_lt (by omega)]
        have hmod : (b + d - 1) % b = d - 1 := by
          rw [show b + d - 1 = d - 1 + b by omega, Nat.add_mod_right, Nat.mod_eq_of_lt (by omega)]
        obtain ⟨hlt, hlength, hvalue⟩ := @subtractDigitLoop_spec hb (b + d - 1) _
          (fun e he => hdigits e (List.mem_cons_of_mem _ he)) hquot.le (by rw [hquot]; exact Nat.zero_le _)
        rw [hquot] at hvalue
        refine ⟨fun e he => ?_, by rw [List.length_cons, List.length_cons, hlength], ?_⟩
        · rcases List.mem_cons.mp he with rfl | he
          · exact Nat.mod_lt _ (by omega)
          · exact hlt e he
        · rw [Nat.sub_self, Nat.add_zero] at hvalue
          rw [ofDigits_cons, ofDigits_cons, hmod, hvalue]
          omega
    · have hquot : product / b = 1 := Nat.le_antisymm hone (Nat.pos_of_ne_zero hborrow)
      rw [if_neg hborrow, hquot]
      exact ⟨hdigits, rfl, rfl⟩

theorem subtractDigitUnsigned_spec (hw : 0 < width) (hx : Stored width x) (hdigit : digit < digitRadix width)
    (hle : digit ≤ x.magnitude width) (hsign : x.isNegative = false) :
    Normal width (subtractDigitUnsigned width x digit) ∧ (subtractDigitUnsigned width x digit).isNegative = false ∧
      (subtractDigitUnsigned width x digit).magnitude width + digit = x.magnitude width := by
  have hb := two_le_digitRadix hw
  unfold SignedNumber.magnitude at hle ⊢
  cases hdata : x.data with
  | nil => exact absurd hdata hx.ne_nil
  | cons d ds =>
    have hdigits := hx.digits
    rw [hdata] at hdigits hle
    have hd := hdigits d List.mem_cons_self
    rw [ofDigits_cons] at hle ⊢
    have hsum := Nat.div_add_mod (digitRadix width + d - digit) (digitRadix width)
    have hquot : (digitRadix width + d - digit) / digitRadix width < 2 := Nat.div_lt_of_lt_mul (by omega)
    have hmod := Nat.mod_lt (digitRadix width + d - digit) (show 0 < digitRadix width by omega)
    obtain ⟨hlt, hlength, hvalue⟩ := @subtractDigitLoop_spec _ hb (digitRadix width + d - digit) _
      (fun e he => hdigits e (List.mem_cons_of_mem _ he)) (Nat.le_of_lt_succ hquot) (by
        generalize (digitRadix width + d - digit) / digitRadix width = q at *
        generalize (digitRadix width + d - digit) % digitRadix width = m at *
        by_contra hc
        obtain ⟨rfl, hnil⟩ : q = 0 ∧ ofDigits (digitRadix width) ds = 0 := by omega
        rw [hnil] at hle
        omega)
    have hfits := hx.fits
    rw [hdata, List.length_cons] at hfits
    unfold subtractDigitUnsigned
    dsimp only
    rw [hdata, List.headD_cons, List.tail_cons]
    have hnormal := normal_adjust hw (x := ⟨(digitRadix width + d - digit) % digitRadix width ::
      subtractDigitLoop (digitRadix width) (digitRadix width + d - digit) ds, x.bufferSize, x.isNegative⟩) (fun e he =>
        by
        rcases List.mem_cons.mp he with rfl | he
        · exact hmod
        · exact hlt e he) (List.cons_ne_nil _ _) hx.whole (by dsimp only; rw [List.length_cons, hlength]; exact hfits)
    refine ⟨hnormal, ?_, ?_⟩
    · rw [isNegative_adjust hw]
      split
      · rfl
      · exact hsign
    · rw [data_adjust, value_adjustSize, ofDigits_cons, ← hvalue, Nat.mul_add]
      generalize (digitRadix width + d - digit) / digitRadix width = q at *
      generalize (digitRadix width + d - digit) % digitRadix width = m at *
      obtain rfl | rfl : q = 0 ∨ q = 1 := by omega
      · omega
      · omega

/-- The digit is taken from the number itself where that is longer than a digit and its lowest digit is not the smaller
    one, and else from its sum with the prime. --/
theorem subtractDigitReduce_iff (hw : 0 < width) (hfp : Stored width fp) (hv : Operand width fp value)
    (hdigit : digit < digitRadix width) (hbelow : digit < fp.magnitude width)
    (hfits : fp.data.length * width ≤ value.bufferSize)
    (hroom : 2 * fp.magnitude width ≤ digitRadix width ^ (value.bufferSize / width)) :
    Representative width fp ((value.magnitude width : Int) - digit) (subtractDigitReduce width fp value digit) ↔
      value.magnitude width < digit ∨ (value.data.length ≠ 1 ∧ digit ≤ value.data.headD 0) := by
  have hvalue := hv.below
  unfold subtractDigitReduce
  by_cases hadd : value.data.length = 1 ∨ value.data.headD 0 < digit
  · obtain ⟨hstored, hsum, -, hsign⟩ := hv.stored.addUnsigned hw hfp hfits (by omega)
    obtain ⟨hnormal, hneg, hdiff⟩ := subtractDigitUnsigned_spec hw hstored hdigit (by omega) (hsign.trans hv.sign)
    rw [if_pos hadd]
    constructor
    · intro h
      have hlt := h.operand.below
      exact .inl (by omega)
    · rintro (h | ⟨hlength, hle⟩)
      · exact Operand.representative ⟨hnormal.stored, hneg, by omega⟩ 1 (by omega)
      · rcases hadd with hone | hlt
        · exact absurd hone hlength
        · exact absurd hlt (Nat.not_lt.mpr hle)
  · obtain ⟨hlength, hle⟩ := not_or.mp hadd
    have hle' := Nat.not_lt.mp hle
    have hhead : value.data.headD 0 ≤ value.magnitude width := by
      unfold SignedNumber.magnitude
      cases value.data with
      | nil => exact Nat.zero_le _
      | cons d ds => rw [ofDigits_cons]; exact Nat.le_add_right _ _
    obtain ⟨hnormal, hneg, hdiff⟩ := subtractDigitUnsigned_spec hw hv.stored hdigit (by omega) hv.sign
    rw [if_neg hadd]
    exact iff_of_true (Operand.representative ⟨hnormal.stored, hneg, by omega⟩ 0 (by omega)) (.inr ⟨hlength, hle'⟩)

/-! ### The three helpers -/

/-- Each helper leaves the representative below the prime, for every field and all operands in it, just where the digit
    is not taken from a number that is lifted above the prime without need. --/
theorem field_helpers_iff (hw : 0 < width) (hfp : Stored width fp) (hl : Operand width fp left)
    (hr : Operand width fp right) (hv : Operand width fp value) (hdigit : digit < digitRadix width)
    (hbelow : digit < fp.magnitude width) (hfits : ∀ x ∈ [left, value], fp.data.length * width ≤ x.bufferSize)
    (hright : right.data.length * width ≤ left.bufferSize)
    (hroom : ∀ x ∈ [left, value], 2 * fp.magnitude width ≤ digitRadix width ^ (x.bufferSize / width)) :
    (Representative width fp ((left.magnitude width : Int) + right.magnitude width) (addReduce width fp left right) ∧
      Representative width fp ((left.magnitude width : Int) - right.magnitude width)
        (subtractReduce width fp left right) ∧
      Representative width fp ((value.magnitude width : Int) - digit) (subtractDigitReduce width fp value digit)) ↔
    value.magnitude width < digit ∨ (value.data.length ≠ 1 ∧ digit ≤ value.data.headD 0) := by
  have hadd := addReduce_representative hw hfp hl hr hright (hroom left List.mem_cons_self)
  have hsubtract := subtractReduce_representative hw hfp hl hr (hfits left List.mem_cons_self)
    (hroom left List.mem_cons_self)
  rw [← subtractDigitReduce_iff hw hfp hv hdigit hbelow (hfits value (by simp)) (hroom value (by simp))]
  exact ⟨fun h => h.2.2, fun h => ⟨hadd, hsubtract, h⟩⟩

end

/-! ### A small number -/

/-- A prime of one digit, in a buffer of one. --/
def primeThirteen : SignedNumber := ⟨[13], 4, false⟩

/-- A number of one digit in a buffer of two. --/
def small (d : Nat) : SignedNumber := ⟨[d], 8, false⟩

theorem field_helpers_iff_small :
    (Representative 4 primeThirteen (((small 5).magnitude 4 : Int) + (small 7).magnitude 4)
        (addReduce 4 primeThirteen (small 5) (small 7)) ∧
      Representative 4 primeThirteen (((small 5).magnitude 4 : Int) - (small 7).magnitude 4)
        (subtractReduce 4 primeThirteen (small 5) (small 7)) ∧
      Representative 4 primeThirteen (((small 2).magnitude 4 : Int) - (3 : Nat))
        (subtractDigitReduce 4 primeThirteen (small 2) 3)) ↔
    (small 2).magnitude 4 < 3 ∨ ((small 2).data.length ≠ 1 ∧ 3 ≤ (small 2).data.headD 0) := by
  have hstored : ∀ d < digitRadix 4, ∀ n, 1 ≤ n → Stored 4 ⟨[d], n * 4, false⟩ := fun d hd n hn =>
    ⟨fun e he => by rw [List.mem_singleton.mp he]; exact hd, List.cons_ne_nil _ _, (fun h => by cases h),
      ⟨n, Nat.mul_comm _ _⟩, by dsimp only; rw [List.length_singleton]; omega⟩
  have hoperand : ∀ d < 13, Operand 4 primeThirteen (small d) := fun d hd =>
    ⟨hstored d (hd.trans (by decide)) 2 (by decide), rfl, by simpa [SignedNumber.magnitude, small,
      primeThirteen] using hd⟩
  exact field_helpers_iff (by decide) (hstored 13 (by decide) 1 (by decide)) (hoperand 5 (by decide))
    (hoperand 7 (by decide)) (hoperand 2 (by decide)) (by decide) (by decide)
    (by simp [small, primeThirteen]) (by decide) (by decide)

/-- Three taken from seven is four, but the prime is added first: what comes out is seventeen. --/
theorem small_not_reduced :
    ((subtractDigitReduce 4 primeThirteen (small 7) 3).magnitude 4 = 17 ∧ primeThirteen.magnitude 4 = 13) ∧
      ¬Representative 4 primeThirteen (((small 7).magnitude 4 : Int) - (3 : Nat))
        (subtractDigitReduce 4 primeThirteen (small 7) 3) := by
  have hvalue : (subtractDigitReduce 4 primeThirteen (small 7) 3).magnitude 4 = 17 := by decide
  refine ⟨⟨hvalue, by decide⟩, fun h => ?_⟩
  have hbelow := h.operand.below
  rw [hvalue] at hbelow
  exact absurd hbelow (by decide)

end Netxduo.Crypto.Field
