import Mathlib
import Netxduo.Crypto.SignedNumber

/-! The remainder of a huge number: a long division whose quotient digits are estimated from half digits. -/

namespace Netxduo.Crypto
open Nat

/-! ### The source -/

/-- The scale of one subtraction, and how many digits it is moved up. --/
structure Scale where
  scale : Nat
  shift : Nat
deriving DecidableEq, Repr

/-- The estimate. `half` is half a digit's bits, `next` the digit below the top one of the dividend. --/
def estimateScale (half top next divisorTop shift : Nat) : Scale :=
  let divisorMsb := divisorTop >>> half + 1
  let dividendMsb := top >>> half
  if shift ≠ 0 ∧ dividendMsb < divisorMsb then
    if top < divisorMsb then ⟨((top <<< half) % 2 ^ (2 * half) ||| next >>> half) / divisorMsb, shift - 1⟩
    else ⟨(top / divisorMsb) <<< half, shift - 1⟩
  else if shift ≠ 0 then ⟨dividendMsb / divisorMsb, shift⟩
  else ⟨if top / (divisorTop + 1) = 0 then 1 else top / (divisorTop + 1), shift⟩

/-- A borrow as a signed digit, in a double digit. --/
def signExtend (b borrow : Nat) : Nat := if borrow < b / 2 then borrow else b ^ 2 - b + borrow

/-- The loop that subtracts the scaled divisor, with its last digit. --/
def subtractScaled (b scale : Nat) : Nat → Nat → List Nat → List Nat → List Nat
  | carry, borrow, r :: rs, ds =>
    let product := ds.headD 0 * scale + carry
    let value := (r + signExtend b borrow + (b ^ 2 - product % b)) % b ^ 2
    value % b :: subtractScaled b scale (product / b) (value / b) rs ds.tail
  | _, _, [], _ => []

/-- The estimate for a remainder. --/
def scaleOf (width : Nat) (divisor result : List Nat) : Scale :=
  estimateScale (4 * width) (result.getLastD 0) (result.dropLast.getLastD 0) (divisor.getLastD 0)
    (result.length - divisor.length)

/-- One turn of the loop: the scaled divisor is subtracted, and the zeros in front are left out. --/
def reduceOnce (width : Nat) (divisor result : List Nat) : List Nat :=
  let s := scaleOf width divisor result
  adjustSize (result.take s.shift ++ subtractScaled (digitRadix width) s.scale 0 0 (result.drop s.shift) divisor)

/-- Whether the loop ends: the two numbers are compared once they are of one length. --/
def reduced (divisor result : List Nat) : Prop :=
  result.length ≤ divisor.length ∧ compareUnsigned result divisor = .lt

instance (divisor result : List Nat) : Decidable (reduced divisor result) :=
  inferInstanceAs (Decidable (result.length ≤ divisor.length ∧ compareUnsigned result divisor = .lt))

/-- The loop, for as many turns as there is fuel. --/
def reduceLoop (width : Nat) (divisor : List Nat) : Nat → List Nat → Option (List Nat)
  | 0, _ => none
  | fuel + 1, result =>
    let result := reduceOnce width divisor result
    if reduced divisor result then some result else reduceLoop width divisor fuel result

/-- The remainders that the turns of the loop start from. --/
def reduceStarts (width : Nat) (divisor : List Nat) : Nat → List Nat → List (List Nat)
  | 0, _ => []
  | fuel + 1, result =>
    let next := reduceOnce width divisor result
    result :: if reduced divisor next then [] else reduceStarts width divisor fuel next

/-- `_nx_crypto_huge_number_modulus`, for a divisor without zeros in front. --/
def modulus (width fuel : Nat) (dividend divisor : SignedNumber) : Option SignedNumber :=
  if compareUnsigned dividend.data divisor.data = .lt then
    some (if dividend.isNegative then add width dividend divisor else dividend)
  else do
    let result ← reduceLoop width divisor.data fuel dividend.data
    let result := { dividend with data := result }
    return if result.isNegative then add width result divisor else result

/-! ### One subtraction -/

section
variable {b width : Nat}

/-- One digit less a product's low digit and a borrow. --/
theorem subtract_digit (hb : 2 ≤ b) {r c m : Nat} (hr : r < b) (hc : c ≤ 1) (hm : m < b) :
    ∃ c', c' ≤ 1 ∧ (r + signExtend b (c * (b - 1)) + (b ^ 2 - m)) % b ^ 2 / b = c' * (b - 1) ∧
      (r + signExtend b (c * (b - 1)) + (b ^ 2 - m)) % b ^ 2 % b + m + c = r + b * c' := by
  have hsq : b ^ 2 = b * b := Nat.pow_two b
  have hbig : 2 * b ≤ b * b := Nat.mul_le_mul_right _ hb
  have hminus : b * (b - 1) = b * b - b := by rw [Nat.mul_sub, Nat.mul_one]
  have hext : signExtend b (c * (b - 1)) = c * (b ^ 2 - 1) := by
    unfold signExtend
    rcases Nat.le_one_iff_eq_zero_or_eq_one.mp hc with rfl | rfl
    · rw [Nat.zero_mul, Nat.zero_mul, if_pos (by omega)]
    · rw [Nat.one_mul, Nat.one_mul, if_neg (by omega)]
      omega
  -- The double digit is the difference, or the difference and `b ^ 2`.
  have hvalue : ∃ c', c' ≤ 1 ∧ ∃ d, d < b ∧ (r + c * (b ^ 2 - 1) + (b ^ 2 - m)) % b ^ 2 = d + b * (c' * (b - 1)) ∧
      d + m + c = r + b * c' := by
    by_cases hle : m + c ≤ r
    · refine ⟨0, by omega, r - m - c, by omega, ?_, by omega⟩
      have hsum : r + c * (b ^ 2 - 1) + (b ^ 2 - m) = (r - m - c) + b ^ 2 * (1 + c) := by
        rcases Nat.le_one_iff_eq_zero_or_eq_one.mp hc with rfl | rfl
        · omega
        · omega
      rw [hsum, Nat.add_mul_mod_self_left, Nat.mod_eq_of_lt (by omega)]
      omega
    · refine ⟨1, le_refl _, r + b - m - c, by omega, ?_, by omega⟩
      have hsum : r + c * (b ^ 2 - 1) + (b ^ 2 - m) = (r + b * b - m - c) + b ^ 2 * c := by
        rcases Nat.le_one_iff_eq_zero_or_eq_one.mp hc with rfl | rfl
        · omega
        · omega
      rw [hsum, Nat.add_mul_mod_self_left, Nat.mod_eq_of_lt (by omega), Nat.one_mul, hminus]
      omega
  obtain ⟨c', hc', d, hd, hmod, hsum⟩ := hvalue
  refine ⟨c', hc', ?_, ?_⟩
  · rw [hext, hmod, Nat.add_mul_div_left _ _ (by omega), Nat.div_eq_of_lt hd, Nat.zero_add]
  · rw [hext, hmod, Nat.add_mul_mod_self_left, Nat.mod_eq_of_lt hd]
    exact hsum

theorem length_subtractScaled (b scale : Nat) : ∀ (carry borrow : Nat) (rs ds : List Nat),
    (subtractScaled b scale carry borrow rs ds).length = rs.length
  | _, _, [], _ => rfl
  | _, _, _ :: rs, ds => by rw [subtractScaled, List.length_cons, length_subtractScaled b scale _ _ rs ds.tail,
      List.length_cons]

theorem subtractScaled_digits (hb : 2 ≤ b) {scale : Nat} : ∀ {carry borrow : Nat} {rs ds : List Nat},
    ∀ d ∈ subtractScaled b scale carry borrow rs ds, d < b
  | _, _, [], _ => by simp [subtractScaled]
  | _, _, _ :: rs, ds => by
    intro d hd
    rw [subtractScaled, List.mem_cons] at hd
    rcases hd with rfl | hd
    · exact Nat.mod_lt _ (by omega)
    · exact subtractScaled_digits hb d hd

theorem value_headD_tail (b : Nat) (ds : List Nat) : ds.headD 0 + b * ofDigits b ds.tail = ofDigits b ds := by
  cases ds with
  | nil => simp
  | cons d ds => rw [ofDigits_cons]; rfl

/-- The digits with what is borrowed and carried past the end are the difference. --/
theorem value_subtractScaled (hb : 2 ≤ b) {s : Nat} : ∀ {k c : Nat} {R D : List Nat}, c ≤ 1 → (∀ d ∈ R, d < b) →
    D.length ≤ R.length → ∃ past, ofDigits b (subtractScaled b s k (c * (b - 1)) R D) +
      (s * ofDigits b D + k + c) = ofDigits b R + b ^ R.length * past
  | carry, c, [], ds, _, _, hlen => by
    obtain rfl : ds = [] := List.eq_nil_of_length_eq_zero (by simpa using hlen)
    exact ⟨carry + c, by simp [subtractScaled]⟩
  | carry, c, r :: rs, ds, hc, hr, hlen => by
    have hdm := Nat.mod_add_div (ds.headD 0 * s + carry) b
    obtain ⟨c', hc', hborrow, hdigit⟩ := subtract_digit hb (hr r List.mem_cons_self) hc
      (Nat.mod_lt (ds.headD 0 * s + carry) (show 0 < b by omega))
    obtain ⟨past, hpast⟩ := value_subtractScaled hb (s := s) (k := (ds.headD 0 * s + carry) / b) (c := c')
      (R := rs) (D := ds.tail) hc' (fun d hd => hr d (List.mem_cons_of_mem _ hd))
      (by rw [List.length_tail]; rw [List.length_cons] at hlen; omega)
    refine ⟨past, ?_⟩
    have hpow : b ^ (rs.length + 1) = b ^ rs.length * b := by ring
    rw [subtractScaled, hborrow, ofDigits_cons, ofDigits_cons, List.length_cons, hpow, ← value_headD_tail b ds]
    generalize subtractScaled b s ((ds.headD 0 * s + carry) / b) (c' * (b - 1)) rs ds.tail = out at *
    generalize (r + signExtend b (c * (b - 1)) + (b ^ 2 - (ds.headD 0 * s + carry) % b)) % b ^ 2 % b = digit at *
    generalize (ds.headD 0 * s + carry) % b = low at *
    generalize (ds.headD 0 * s + carry) / b = high at *
    calc digit + b * ofDigits b out + (s * (ds.headD 0 + b * ofDigits b ds.tail) + carry + c)
        = digit + c + (ds.headD 0 * s + carry) + b * (ofDigits b out + s * ofDigits b ds.tail) := by ring
      _ = (digit + low + c) + b * (ofDigits b out + (s * ofDigits b ds.tail + high)) := by rw [← hdm]; ring
      _ = r + b * (ofDigits b out + (s * ofDigits b ds.tail + high + c')) := by rw [hdigit]; ring
      _ = r + b * ofDigits b rs + b ^ rs.length * b * past := by rw [hpast]; ring

/-- Where the scaled divisor is not the larger one, nothing is borrowed past the end. --/
theorem subtractScaled_spec (hb : 2 ≤ b) {scale : Nat} {rs ds : List Nat} (hr : ∀ d ∈ rs, d < b) (hlen : ds.length ≤
    rs.length)
    (hle : scale * ofDigits b ds ≤ ofDigits b rs) :
    ofDigits b (subtractScaled b scale 0 0 rs ds) + scale * ofDigits b ds = ofDigits b rs := by
  obtain ⟨past, hpast⟩ := value_subtractScaled hb (s := scale) (k := 0) (c := 0) (Nat.zero_le _) hr hlen
  rw [Nat.zero_mul] at hpast
  have hlt := value_lt (x := subtractScaled b scale 0 0 rs ds) hb (subtractScaled_digits hb)
  rw [length_subtractScaled] at hlt
  rcases Nat.eq_zero_or_pos past with rfl | hpos
  · rw [Nat.mul_zero] at hpast
    exact hpast
  · have hmul : b ^ rs.length * 1 ≤ b ^ rs.length * past := Nat.mul_le_mul_left _ hpos
    omega

/-! ### The estimate -/

/-- No estimate is zero, and none takes more than there is. --/
theorem estimateScale_spec {half top next dt shift k D V : Nat} (hb : b = 2 ^ (2 * half)) (htop : 0 < top)
    (hnext : next < b) (hdt : dt < b) (hD : D < (dt + 1) * b ^ k) (hle : D ≤ V) (hV : top * b ^ (k + shift) ≤ V)
    (hV' : 0 < shift → (top * b + next) * b ^ (k + shift - 1) ≤ V) :
    0 < (estimateScale half top next dt shift).scale ∧ (estimateScale half top next dt shift).shift ≤ shift ∧
      (estimateScale half top next dt shift).scale * D * b ^ (estimateScale half top next dt shift).shift ≤ V := by
  obtain ⟨h, hh⟩ : ∃ h, h = 2 ^ half := ⟨_, rfl⟩
  have hpos : 0 < h := by rw [hh]; exact Nat.pow_pos (by decide)
  have hsq : b = h * h := by rw [hb, hh, ← Nat.pow_add, Nat.two_mul]
  have hmsb : dt / h < h := Nat.div_lt_of_lt_mul (by rw [← hsq]; exact hdt)
  have hcover : dt + 1 ≤ (dt / h + 1) * h := by
    have := Nat.lt_div_mul_add (a := dt) hpos
    rw [Nat.add_mul]
    omega
  have hDmsb : D ≤ (dt / h + 1) * h * b ^ k := hD.le.trans (Nat.mul_le_mul_right _ hcover)
  -- What the bound on the scale says of the product, moved up by the digits of the divisor.
  have hproduct : ∀ {scale s t : Nat}, scale * ((dt / h + 1) * h) * b ^ s ≤ t → t * b ^ k ≤ V →
    scale * D * b ^ s ≤ V := by
    intro scale s t ht htV
    calc scale * D * b ^ s ≤ scale * ((dt / h + 1) * h * b ^ k) * b ^ s :=
          Nat.mul_le_mul_right _ (Nat.mul_le_mul_left _ hDmsb)
      _ = scale * ((dt / h + 1) * h) * b ^ s * b ^ k := by ring
      _ ≤ t * b ^ k := Nat.mul_le_mul_right _ ht
      _ ≤ V := htV
  unfold estimateScale
  simp only [Nat.shiftRight_eq_div_pow, Nat.shiftLeft_eq, ← hh, ← hb]
  generalize dt / h = m at *
  split
  · rename_i hlow
    obtain ⟨hshift, hlow⟩ := hlow
    obtain ⟨n, rfl⟩ : ∃ n, shift = n + 1 := ⟨shift - 1, by omega⟩
    have hV' := hV' (Nat.succ_pos n)
    rw [show k + (n + 1) - 1 = n + k by omega, Nat.pow_add] at hV'
    split
    · rename_i hless
      have hfit : top * h < b := by
        rw [hsq]
        exact Nat.mul_lt_mul_of_pos_right (by omega) hpos
      have hor : (top * h) % b ||| next / h = top * h + next / h := by
        rw [Nat.mod_eq_of_lt hfit, Nat.mul_comm top, hh]
        refine (Nat.two_pow_add_eq_or_of_lt ?_ top).symm
        rw [← hh]
        exact Nat.div_lt_of_lt_mul (by rw [← hsq]; exact hnext)
      simp only [hor, Nat.add_sub_cancel]
      refine ⟨Nat.div_pos ?_ (Nat.succ_pos m), by omega, hproduct (t :=
        (top * b + next) * b ^ n) ?_ (by rw [Nat.mul_assoc]; exact hV')⟩
      · exact (Nat.succ_le_of_lt hmsb).trans ((Nat.le_mul_of_pos_left h htop).trans (Nat.le_add_right _ _))
      · refine Nat.mul_le_mul_right _ ?_
        calc (top * h + next / h) / (m + 1) * ((m + 1) * h)
            = (top * h + next / h) / (m + 1) * (m + 1) * h := by ring
          _ ≤ (top * h + next / h) * h := Nat.mul_le_mul_right _ (Nat.div_mul_le_self _ _)
          _ = top * b + next / h * h := by rw [hsq]; ring
          _ ≤ top * b + next := Nat.add_le_add_left (Nat.div_mul_le_self _ _) _
    · rename_i hmore
      simp only [Nat.add_sub_cancel]
      refine ⟨Nat.mul_pos (Nat.div_pos (Nat.le_of_not_lt hmore) (Nat.succ_pos m)) hpos, by omega,
        hproduct (t := (top * b + next) * b ^ n) ?_ (by rw [Nat.mul_assoc]; exact hV')⟩
      refine Nat.mul_le_mul_right _ ?_
      calc top / (m + 1) * h * ((m + 1) * h) = top / (m + 1) * (m + 1) * b := by rw [hsq]; ring
        _ ≤ top * b := Nat.mul_le_mul_right _ (Nat.div_mul_le_self _ _)
        _ ≤ top * b + next := Nat.le_add_right _ _
  · rename_i hhigh
    split
    · rename_i hshift
      have hmore : m + 1 ≤ top / h := Nat.le_of_not_lt fun hlt => hhigh ⟨hshift, hlt⟩
      refine ⟨Nat.div_pos hmore (Nat.succ_pos m), le_refl _, hproduct (t := top * b ^ shift) ?_ ?_⟩
      · refine Nat.mul_le_mul_right _ ?_
        calc top / h / (m + 1) * ((m + 1) * h) = top / h / (m + 1) * (m + 1) * h := by ring
          _ ≤ top / h * h := Nat.mul_le_mul_right _ (Nat.div_mul_le_self _ _)
          _ ≤ top := Nat.div_mul_le_self _ _
      · rw [Nat.mul_assoc, ← Nat.pow_add, Nat.add_comm shift]
        exact hV
    · rename_i hshift
      obtain rfl : shift = 0 := by omega
      rw [Nat.pow_zero, Nat.mul_one]
      rw [Nat.add_zero] at hV
      split
      · exact ⟨Nat.one_pos, le_refl _, by rw [Nat.one_mul]; exact hle⟩
      · rename_i hne
        refine ⟨Nat.pos_of_ne_zero hne, le_refl _, ?_⟩
        calc top / (dt + 1) * D ≤ top / (dt + 1) * ((dt + 1) * b ^ k) := Nat.mul_le_mul_left _ hD.le
          _ = top / (dt + 1) * (dt + 1) * b ^ k := by ring
          _ ≤ top * b ^ k := Nat.mul_le_mul_right _ (Nat.div_mul_le_self _ _)
          _ ≤ V := hV

/-! ### One turn and the loop -/

theorem value_top {x : List Nat} (hne : x ≠ []) :
    ofDigits b x = ofDigits b x.dropLast + b ^ (x.length - 1) * x.getLastD 0 := by
  rcases List.eq_nil_or_concat x with rfl | ⟨ys, d, rfl⟩
  · exact absurd rfl hne
  · rw [List.concat_eq_append, List.dropLast_concat, List.getLastD_concat, ofDigits_append, ofDigits_singleton,
      List.length_append, List.length_singleton, Nat.add_sub_cancel]

theorem getLastD_lt (hb : 2 ≤ b) {xs : List Nat} (hx : ∀ d ∈ xs, d < b) : xs.getLastD 0 < b := by
  rcases List.eq_nil_or_concat xs with rfl | ⟨ys, d, rfl⟩
  · exact Nat.lt_of_lt_of_le (by decide) hb
  · rw [List.concat_eq_append, List.getLastD_concat]
    exact hx d (by simp)

variable {divisor result : List Nat}

/-- What the estimate of a remainder is good for. --/
theorem scaleOf_spec (hw : 0 < width) (hd : Proper (digitRadix width) divisor) (hr : Proper (digitRadix width) result)
    (hpos : 0 < ofDigits (digitRadix width) divisor)
    (hle : ofDigits (digitRadix width) divisor ≤ ofDigits (digitRadix width) result) :
    0 < (scaleOf width divisor result).scale ∧ (scaleOf width divisor result).shift ≤ result.length - divisor.length ∧
      (scaleOf width divisor result).scale * ofDigits (digitRadix width) divisor *
        digitRadix width ^ (scaleOf width divisor result).shift ≤ ofDigits (digitRadix width) result := by
  have hb := two_le_digitRadix hw
  have hradix : digitRadix width = 2 ^ (2 * (4 * width)) := by
    unfold digitRadix hnRadix
    congr 1
    omega
  have hdne := proper_ne_nil hd
  have hrne := proper_ne_nil hr
  have hlen := hd.length_le_of_le hb hr hle
  have hdlen := List.length_pos_of_ne_nil hdne
  have hdvalue := value_top (b := digitRadix width) hdne
  have hrvalue := value_top (b := digitRadix width) hrne
  have hdlow := value_lt (x := divisor.dropLast) hb fun d h => hd.digits d (List.dropLast_subset _ h)
  have hrlow := value_lt (x := result.dropLast) hb fun d h => hr.digits d (List.dropLast_subset _ h)
  rw [List.length_dropLast] at hdlow hrlow
  have hrpow := hr.pow_le hb (hpos.trans_le hle)
  have htop : 0 < result.getLastD 0 := by
    by_contra h
    rw [Nat.eq_zero_of_not_pos h, Nat.mul_zero] at hrvalue
    omega
  unfold scaleOf
  refine estimateScale_spec hradix htop (getLastD_lt hb fun d h => hr.digits d (List.dropLast_subset _ h))
    (getLastD_lt hb hd.digits) (k := divisor.length - 1) ?_ hle ?_ ?_
  · rw [Nat.add_mul, Nat.one_mul, Nat.mul_comm]
    omega
  · rw [show divisor.length - 1 + (result.length - divisor.length) = result.length - 1 by omega, Nat.mul_comm]
    omega
  · intro hshift
    have hlow := value_top (b := digitRadix width) (x := result.dropLast) (List.ne_nil_of_length_pos (by
      rw [List.length_dropLast]
      omega))
    rw [List.length_dropLast] at hlow
    rw [show divisor.length - 1 + (result.length - divisor.length) - 1 = result.length - 1 - 1 by omega]
    obtain ⟨n, hn⟩ : ∃ n, result.length - 1 = n + 1 := ⟨result.length - 1 - 1, by omega⟩
    rw [hn, Nat.pow_succ] at hrvalue
    rw [hn, Nat.add_sub_cancel] at hlow ⊢
    calc (result.getLastD 0 * digitRadix width + result.dropLast.getLastD 0) * digitRadix width ^ n
        = digitRadix width ^ n * digitRadix width * result.getLastD 0 +
          digitRadix width ^ n * result.dropLast.getLastD 0 := by ring
      _ ≤ _ := by omega

/-- One turn takes a multiple of the divisor away, and never more than there is. --/
theorem reduceOnce_spec (hw : 0 < width) (hd : Proper (digitRadix width) divisor) (hr :
    Proper (digitRadix width) result)
    (hpos : 0 < ofDigits (digitRadix width) divisor)
    (hle : ofDigits (digitRadix width) divisor ≤ ofDigits (digitRadix width) result) :
    Proper (digitRadix width) (reduceOnce width divisor result) ∧
      ofDigits (digitRadix width) (reduceOnce width divisor result) +
        (scaleOf width divisor result).scale * ofDigits (digitRadix width) divisor *
          digitRadix width ^ (scaleOf width divisor result).shift = ofDigits (digitRadix width) result := by
  have hb := two_le_digitRadix hw
  have hlen := hd.length_le_of_le hb hr hle
  obtain ⟨-, hshift, hfit⟩ := scaleOf_spec hw hd hr hpos hle
  unfold reduceOnce
  dsimp only
  generalize scaleOf width divisor result = s at *
  have hsplit : ofDigits (digitRadix width) result = ofDigits (digitRadix width) (result.take s.shift) +
      digitRadix width ^ s.shift * ofDigits (digitRadix width) (result.drop s.shift) := by
    conv_lhs => rw [← List.take_append_drop s.shift result, ofDigits_append, List.length_take,
      Nat.min_eq_left (by omega)]
  have hlow := value_lt (x := result.take s.shift) hb fun d h => hr.digits d (List.mem_of_mem_take h)
  rw [List.length_take, Nat.min_eq_left (by omega)] at hlow
  have hhigh : s.scale * ofDigits (digitRadix width) divisor ≤ ofDigits (digitRadix width) (result.drop s.shift) := by
    by_contra hc
    have hmul : digitRadix width ^ s.shift * (ofDigits (digitRadix width) (result.drop s.shift) + 1) ≤
        digitRadix width ^ s.shift * (s.scale * ofDigits (digitRadix width) divisor) := Nat.mul_le_mul_left _ (by omega)
    rw [Nat.mul_add, Nat.mul_one, Nat.mul_comm _ (s.scale * _)] at hmul
    omega
  have hdiff := subtractScaled_spec hb (fun d h => hr.digits d (List.mem_of_mem_drop h))
    (by rw [List.length_drop]; omega) hhigh
  refine ⟨proper_adjustSize hb ?_, ?_⟩
  · intro d h
    rcases List.mem_append.mp h with h | h
    · exact hr.digits d (List.mem_of_mem_take h)
    · exact subtractScaled_digits hb d h
  · rw [value_adjustSize, ofDigits_append, List.length_take, Nat.min_eq_left (by omega), hsplit, ← hdiff]
    ring

theorem reduced_iff (hb : 2 ≤ b) (hd : Proper b divisor) (hr : Proper b result) :
    reduced divisor result ↔ ofDigits b result < ofDigits b divisor := by
  unfold reduced
  rw [compareUnsigned_spec hb hr.digits hd.digits, Nat.compare_eq_lt]
  exact ⟨And.right, fun h => ⟨hr.length_le_of_le hb hd h.le, h⟩⟩

/-- The loop ends with the remainder, and takes no more than there is on its way. --/
theorem reduceLoop_spec (hw : 0 < width) (hd : Proper (digitRadix width) divisor)
    (hpos : 0 < ofDigits (digitRadix width) divisor) : ∀ {n : Nat} {x : List Nat},
    Proper (digitRadix width) x → ofDigits (digitRadix width) divisor ≤ ofDigits (digitRadix width) x →
    ofDigits (digitRadix width) x ≤ n →
    (∃ rest, reduceLoop width divisor n x = some rest ∧ Proper (digitRadix width) rest ∧
      ofDigits (digitRadix width) rest = ofDigits (digitRadix width) x % ofDigits (digitRadix width) divisor) ∧
    ∀ r ∈ reduceStarts width divisor n x, (scaleOf width divisor r).scale * ofDigits (digitRadix width) divisor *
      digitRadix width ^ (scaleOf width divisor r).shift ≤ ofDigits (digitRadix width) r
  | 0, result, _, hle, hfuel => by omega
  | fuel + 1, result, hr, hle, hfuel => by
    have hb := two_le_digitRadix hw
    obtain ⟨hscale, -, hfit⟩ := scaleOf_spec hw hd hr hpos hle
    obtain ⟨hproper, hvalue⟩ := reduceOnce_spec hw hd hr hpos hle
    have hiff := reduced_iff hb hd hproper
    have htaken : 0 < (scaleOf width divisor result).scale * ofDigits (digitRadix width) divisor *
        digitRadix width ^ (scaleOf width divisor result).shift :=
      Nat.mul_pos (Nat.mul_pos hscale hpos) (Nat.pow_pos (by omega))
    have hmod : ofDigits (digitRadix width) (reduceOnce width divisor result) % ofDigits (digitRadix width) divisor =
        ofDigits (digitRadix width) result % ofDigits (digitRadix width) divisor := by
      rw [← hvalue, show ∀ x s d p : Nat, x + s * d * p = x + d * (s * p) from fun x s d p => by ring,
        Nat.add_mul_mod_self_left]
    rw [reduceLoop, reduceStarts]
    by_cases hdone : reduced divisor (reduceOnce width divisor result)
    · rw [if_pos hdone, if_pos hdone]
      refine ⟨⟨_, rfl, hproper, ?_⟩, ?_⟩
      · rw [← hmod, Nat.mod_eq_of_lt (hiff.mp hdone)]
      · intro r h
        obtain rfl := List.mem_singleton.mp h
        exact hfit
    · rw [if_neg hdone, if_neg hdone]
      obtain ⟨⟨rest, hrest, hproper', hsame⟩, hstarts⟩ := reduceLoop_spec hw hd hpos (n := fuel) hproper
        (Nat.le_of_not_lt fun h => hdone (hiff.mpr h)) (by omega)
      refine ⟨⟨rest, hrest, hproper', hsame.trans hmod⟩, ?_⟩
      intro r h
      rcases List.mem_cons.mp h with rfl | h
      · exact hfit
      · exact hstarts r h

/-! ### The remainder -/

/-- What a reduction is to leave: a proper number that is not negative, below the divisor, and congruent to the
    dividend. --/
structure Remainder (width : Nat) (dividend divisor y : SignedNumber) : Prop where
  proper : Proper (digitRadix width) y.data
  sign : y.isNegative = false
  lt : y.toInt width < divisor.toInt width
  congr : y.toInt width ≡ dividend.toInt width [ZMOD divisor.toInt width]

/-- With fuel enough the reduction ends with the remainder, and no turn of its loop takes more than there is. --/
def Reduces (width : Nat) (dividend divisor : SignedNumber) : Prop :=
  ∃ n, ∀ fuel ≥ n, (∃ y, modulus width fuel dividend divisor = some y ∧ Remainder width dividend divisor y) ∧
    (ofDigits (digitRadix width) divisor.data ≤ ofDigits (digitRadix width) dividend.data →
      ∀ r ∈ reduceStarts width divisor.data fuel dividend.data,
        (scaleOf width divisor.data r).scale * ofDigits (digitRadix width) divisor.data *
          digitRadix width ^ (scaleOf width divisor.data r).shift ≤ ofDigits (digitRadix width) r)

variable {dividend divisor : SignedNumber}

/-- The divisor less the magnitude of a negative number below it. For a negative zero that is the divisor itself. --/
theorem add_divisor {x : SignedNumber} (hw : 0 < width) (hx : Proper (digitRadix width) x.data)
    (hd : Proper (digitRadix width) divisor.data) (hneg : x.isNegative = true) (hsign : divisor.isNegative = false)
    (hlt : ofDigits (digitRadix width) x.data < ofDigits (digitRadix width) divisor.data) :
    Proper (digitRadix width) (add width x divisor).data ∧ (add width x divisor).isNegative = false ∧
      ofDigits (digitRadix width) (add width x divisor).data + ofDigits (digitRadix width) x.data =
        ofDigits (digitRadix width) divisor.data := by
  have hb := two_le_digitRadix hw
  have hone : digitRadix width / digitRadix width = 1 := Nat.div_self (by omega)
  have hvalue := value_subtractFrom hb (digitRadix width) divisor.data x.data (by omega)
    (hx.length_le_of_le hb hd hlt.le)
    hd.digits hx.digits (by omega)
  rw [hone, Nat.sub_self, Nat.add_zero] at hvalue
  unfold add
  simp only [hneg, hsign, compareUnsigned_spec hb hx.digits hd.digits, Nat.compare_eq_lt.mpr hlt]
  rw [if_neg (by decide), if_neg (by decide), if_pos trivial]
  unfold subtractUnsigned
  simp only [map_subtractProducts, data_adjust, value_adjustSize]
  exact ⟨proper_adjustSize hb (subtractFrom_digits hb _ _ _), trivial, hvalue⟩

/-- What comes of a number of either sign once its magnitude is below the divisor's. --/
theorem fixed_sign {x y : SignedNumber} (hw : 0 < width) (hx : Proper (digitRadix width) x.data)
    (hd : Proper (digitRadix width) divisor.data) (hsign : divisor.isNegative = false)
    (hlt : ofDigits (digitRadix width) x.data < ofDigits (digitRadix width) divisor.data)
    (hy : y = if x.isNegative then add width x divisor else x) :
    Proper (digitRadix width) y.data ∧ y.isNegative = false ∧
      ofDigits (digitRadix width) y.data = (if x.isNegative then
        ofDigits (digitRadix width) divisor.data - ofDigits (digitRadix width) x.data
        else ofDigits (digitRadix width) x.data) := by
  subst hy
  by_cases hneg : x.isNegative = true
  · obtain ⟨hproper, hpos, hvalue⟩ := add_divisor hw hx hd hneg hsign hlt
    rw [if_pos hneg, if_pos hneg]
    exact ⟨hproper, hpos, by omega⟩
  · rw [if_neg hneg, if_neg hneg]
    exact ⟨hx, by simpa using hneg, rfl⟩

/-- What the function returns, for every dividend and every positive divisor. --/
theorem modulus_spec (hw : 0 < width) (hx : Proper (digitRadix width) dividend.data)
    (hd : Proper (digitRadix width) divisor.data) (hsign : divisor.isNegative = false)
    (hpos : 0 < ofDigits (digitRadix width) divisor.data) {n : Nat}
    (hfuel : ofDigits (digitRadix width) dividend.data ≤ n) :
    ∃ y, modulus width n dividend divisor = some y ∧ Proper (digitRadix width) y.data ∧ y.isNegative = false ∧
      ofDigits (digitRadix width) y.data = (if dividend.isNegative then ofDigits (digitRadix width) divisor.data -
        ofDigits (digitRadix width) dividend.data % ofDigits (digitRadix width) divisor.data
        else ofDigits (digitRadix width) dividend.data % ofDigits (digitRadix width) divisor.data) := by
  have hb := two_le_digitRadix hw
  unfold modulus
  rw [compareUnsigned_spec hb hx.digits hd.digits]
  by_cases hlt : ofDigits (digitRadix width) dividend.data < ofDigits (digitRadix width) divisor.data
  · rw [if_pos (Nat.compare_eq_lt.mpr hlt), Nat.mod_eq_of_lt hlt]
    exact ⟨_, rfl, fixed_sign hw hx hd hsign hlt rfl⟩
  · rw [if_neg (fun h => hlt (Nat.compare_eq_lt.mp h))]
    obtain ⟨⟨rest, hrest, hproper, hvalue⟩, -⟩ := reduceLoop_spec hw hd hpos hx (Nat.le_of_not_lt hlt) hfuel
    have hrestlt : ofDigits (digitRadix width) rest < ofDigits (digitRadix width) divisor.data := by
      rw [hvalue]
      exact Nat.mod_lt _ hpos
    rw [hrest, ← hvalue]
    exact ⟨_, rfl, fixed_sign (x := { dividend with data := rest }) hw hproper hd hsign hrestlt rfl⟩

/-- The reduction is right for every dividend but the negative multiples of the divisor. --/
theorem modulus_iff (hw : width = 2 ∨ width = 4) (hx : Proper (digitRadix width) dividend.data)
    (hd : Proper (digitRadix width) divisor.data) (hsign : divisor.isNegative = false)
    (hpos : 0 < ofDigits (digitRadix width) divisor.data) :
    Reduces width dividend divisor ↔ dividend.isNegative = false ∨ ¬divisor.toInt width ∣ dividend.toInt width := by
  have hw' : 0 < width := by omega
  have hdint : divisor.toInt width = (ofDigits (digitRadix width) divisor.data : Nat) := by
    unfold SignedNumber.toInt
    rw [hsign]
    rfl
  have hdvd : divisor.toInt width ∣ dividend.toInt width ↔
      ofDigits (digitRadix width) dividend.data % ofDigits (digitRadix width) divisor.data = 0 := by
    rw [← Int.natAbs_dvd_natAbs, natAbs_toInt, natAbs_toInt, Nat.dvd_iff_mod_eq_zero]
  have hmod := Nat.mod_lt (ofDigits (digitRadix width) dividend.data) hpos
  have hdm := Nat.mod_add_div (ofDigits (digitRadix width) dividend.data) (ofDigits (digitRadix width) divisor.data)
  constructor
  · rintro ⟨n, hn⟩
    obtain ⟨⟨y, hy, hrem⟩, -⟩ := hn (max n (ofDigits (digitRadix width) dividend.data)) (le_max_left _ _)
    obtain ⟨y', hy', -, -, hvalue⟩ := modulus_spec hw' hx hd hsign hpos
      (n := max n (ofDigits (digitRadix width) dividend.data)) (le_max_right _ _)
    obtain rfl : y = y' := Option.some.inj (hy.symm.trans hy')
    by_contra hc
    obtain ⟨hneg, hmultiple⟩ := not_or.mp hc
    rw [Bool.not_eq_false] at hneg
    have hzero := hdvd.mp (not_not.mp hmultiple)
    have hlt := hrem.lt
    rw [hdint] at hlt
    unfold SignedNumber.toInt at hlt
    rw [hrem.sign, if_neg (by decide), hvalue, if_pos hneg, hzero, Nat.sub_zero] at hlt
    omega
  · intro hcond
    refine ⟨ofDigits (digitRadix width) dividend.data, fun fuel hfuel => ⟨?_, fun hle => ?_⟩⟩
    · obtain ⟨y, hy, hproper, hpositive, hvalue⟩ := modulus_spec hw' hx hd hsign hpos hfuel
      refine ⟨y, hy, ?_⟩
      have hyint : y.toInt width = (ofDigits (digitRadix width) y.data : Nat) := by
        unfold SignedNumber.toInt
        rw [hpositive]
        rfl
      by_cases hneg : dividend.isNegative = true
      · have hne : ofDigits (digitRadix width) dividend.data % ofDigits (digitRadix width) divisor.data ≠ 0 := by
          intro h
          exact hcond.elim (fun h' => by rw [hneg] at h'; cases h') (fun h' => h' (hdvd.mpr h))
        rw [if_pos hneg] at hvalue
        have hxint : dividend.toInt width = -((ofDigits (digitRadix width) dividend.data : Nat) : Int) := by
          unfold SignedNumber.toInt
          rw [if_pos hneg]
        refine ⟨hproper, hpositive, by rw [hyint, hdint, hvalue]; omega, ?_⟩
        rw [hyint, hdint, hxint, hvalue, Nat.cast_sub hmod.le]
        refine Int.modEq_iff_dvd.mpr ⟨-(((ofDigits (digitRadix width) dividend.data /
          ofDigits (digitRadix width) divisor.data : Nat) : Int) + 1), ?_⟩
        have hdm' := congrArg (Nat.cast (R := Int)) hdm
        rw [Nat.cast_add, Nat.cast_mul] at hdm'
        rw [← hdm']
        ring
      · rw [if_neg hneg] at hvalue
        have hxint : dividend.toInt width = (ofDigits (digitRadix width) dividend.data : Nat) := by
          unfold SignedNumber.toInt
          rw [if_neg hneg]
        refine ⟨hproper, hpositive, by rw [hyint, hdint, hvalue]; omega, ?_⟩
        rw [hyint, hdint, hxint, hvalue, Int.natCast_mod]
        exact Int.mod_modEq _ _
    · exact (reduceLoop_spec hw' hd hpos hx hle hfuel).2

/-- Minus seven by five. --/
theorem modulus_iff_negative : Reduces 4 ⟨[7], 4, true⟩ ⟨[5], 4, false⟩ ↔
    true = false ∨ ¬SignedNumber.toInt 4 ⟨[5], 4, false⟩ ∣ SignedNumber.toInt 4 ⟨[7], 4, true⟩ :=
  modulus_iff (.inr rfl) ⟨by decide +kernel, by decide +kernel⟩ ⟨by
    decide +kernel, by decide +kernel⟩ rfl (by decide +kernel)

/-- Minus ten by five leaves five. --/
theorem negative_multiple_not_reduced :
    modulus 4 20 ⟨[10], 4, true⟩ ⟨[5], 4, false⟩ = some ⟨[5], 4, false⟩ ∧
      ¬Reduces 4 ⟨[10], 4, true⟩ ⟨[5], 4, false⟩ := by
  refine ⟨by decide +kernel, ?_⟩
  rintro ⟨n, hn⟩
  obtain ⟨⟨y, hy, hrem⟩, -⟩ := hn (max n 20) (le_max_left _ _)
  have hx : Proper (digitRadix 4) [10] := ⟨by decide +kernel, by decide +kernel⟩
  have hd : Proper (digitRadix 4) [5] := ⟨by decide +kernel, by decide +kernel⟩
  have hten : ofDigits (digitRadix 4) [10] = 10 := by decide +kernel
  have hfive : ofDigits (digitRadix 4) [5] = 5 := by decide +kernel
  have hfuel : ofDigits (digitRadix 4) [10] ≤ max n 20 := by
    rw [hten]
    exact (show 10 ≤ 20 by decide).trans (le_max_right _ _)
  have hspec : ∃ y, modulus 4 (max n 20) ⟨[10], 4, true⟩ ⟨[5], 4, false⟩ = some y ∧ Proper (digitRadix 4) y.data ∧
      y.isNegative = false ∧ ofDigits (digitRadix 4) y.data = (if true then ofDigits (digitRadix 4) [5] -
        ofDigits (digitRadix 4) [10] % ofDigits (digitRadix 4) [5]
        else ofDigits (digitRadix 4) [10] % ofDigits (digitRadix 4) [5]) :=
    modulus_spec (by decide) hx hd rfl (by decide +kernel) hfuel
  obtain ⟨y', hy', -, hsign, hvalue⟩ := hspec
  obtain rfl : y = y' := Option.some.inj (hy.symm.trans hy')
  have hlt := hrem.lt
  unfold SignedNumber.toInt at hlt
  rw [hsign, if_neg (by decide), hvalue, if_pos rfl, if_neg (by decide)] at hlt
  simp only [hten, hfive] at hlt
  omega

end

end Netxduo.Crypto
