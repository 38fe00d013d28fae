import Mathlib
import Netxduo.Crypto.HugeNumber

/-! Huge numbers with a sign: adding and subtracting them. -/

namespace Netxduo.Crypto
open Nat

/-! ### The source -/

/-- `NX_CRYPTO_HUGE_NUMBER`. The buffer's size is counted in bytes. --/
structure SignedNumber where
  data : HugeNumber
  bufferSize : Nat
  isNegative : Bool
deriving DecidableEq, Repr

/-- `HN_RADIX`, for a digit of so many bytes: two or four. --/
abbrev digitRadix (width : Nat) : Nat := hnRadix (8 * width)

/-- `_nx_crypto_huge_number_adjust_size`, with the sign of zero. --/
def SignedNumber.adjust (val : SignedNumber) : SignedNumber :=
  { val with data := adjustSize val.data, isNegative := if dropZeros val.data = [] then false else val.isNegative }

/-- `NX_CRYPTO_HUGE_NUMBER_SET_DIGIT` --/
def SignedNumber.setDigit (hn : SignedNumber) (val : Nat) : SignedNumber :=
    { hn with data := [val], isNegative := false }

/-- What `product` holds in the two loops of the addition, one time after the other. --/
def addProducts (b : Nat) : Nat → List Nat → List Nat → List Nat
  | product, l :: ls, r :: rs =>
    let product := product / b + l + r
    product :: addProducts b product ls rs
  | product, l :: ls, [] =>
    let product := product / b + l
    product :: addProducts b product ls []
  | _, [], _ => []

/-- `_nx_crypto_huge_number_add_unsigned` --/
def addUnsigned (width : Nat) (left right : SignedNumber) : SignedNumber :=
  let b := digitRadix width
  let longer := if left.data.length < right.data.length then right.data else left.data
  let shorter := if left.data.length < right.data.length then left.data else right.data
  let products := addProducts b 0 longer shorter
  let digits := products.map (· % b)
  if products.getLastD 0 / b ≠ 0 ∧ digits.length * width < left.bufferSize then { left with data := digits ++ [1] }
  else { left with data := digits }

/-- What `product` holds in the two loops of the subtraction. --/
def subtractProducts (b : Nat) : Nat → List Nat → List Nat → List Nat
  | product, l :: ls, r :: rs =>
    let product := product / b + (b - 1 + l - r)
    product :: subtractProducts b product ls rs
  | product, l :: ls, [] =>
    let product := product / b + (b - 1 + l)
    product :: subtractProducts b product ls []
  | _, [], _ => []

/-- `_nx_crypto_huge_number_subtract_unsigned` --/
def subtractUnsigned (width : Nat) (left right result : SignedNumber) : SignedNumber :=
  let b := digitRadix width
  { result with data := (subtractProducts b b left.data right.data).map (· % b) }.adjust

/-- `_nx_crypto_huge_number_add` --/
def add (width : Nat) (left right : SignedNumber) : SignedNumber :=
  let cmp := compareUnsigned left.data right.data
  if left.isNegative = right.isNegative then addUnsigned width left right
  else if cmp = .eq then left.setDigit 0
  else if cmp = .lt then { subtractUnsigned width right left left with isNegative := right.isNegative }
  else subtractUnsigned width left right left

/-- `_nx_crypto_huge_number_subtract` --/
def subtractSigned (width : Nat) (left right : SignedNumber) : SignedNumber :=
  let cmp := compareUnsigned left.data right.data
  if left.isNegative ≠ right.isNegative then addUnsigned width left right
  else if cmp = .eq then left.setDigit 0
  else if cmp = .lt then { subtractUnsigned width right left left with isNegative := !right.isNegative }
  else subtractUnsigned width left right left

/-! ### The integer a number stands for -/

/-- The integer. --/
def SignedNumber.toInt (width : Nat) (x : SignedNumber) : Int :=
  if x.isNegative then -((ofDigits (digitRadix width) x.data : Nat) : Int)
  else ((ofDigits (digitRadix width) x.data : Nat) : Int)

/-- A number in order: proper digits, a zero that is not negative, and a buffer of whole digits that holds them. --/
structure Normal (width : Nat) (x : SignedNumber) : Prop where
  proper : Proper (digitRadix width) x.data
  sign : x.isNegative = true → 0 < ofDigits (digitRadix width) x.data
  whole : width ∣ x.bufferSize
  fits : x.data.length * width ≤ x.bufferSize

section
variable {b width : Nat} {left right x : SignedNumber}

theorem two_le_digitRadix (hw : 0 < width) : 2 ≤ digitRadix width := by
  unfold digitRadix hnRadix
  calc 2 = 2 ^ 1 := rfl
    _ ≤ 2 ^ (8 * width) := Nat.pow_le_pow_right (by decide) (by omega)

theorem natAbs_toInt (x : SignedNumber) : (x.toInt width).natAbs = ofDigits (digitRadix width) x.data := by
  unfold SignedNumber.toInt
  split <;> simp

theorem proper_ne_nil {xs : HugeNumber} (hx : Proper b xs) : xs ≠ [] := by
  rintro rfl
  have h := hx.adjusted
  simp [adjustSize, dropZeros] at h

/-- Digits with no zero in front, or one digit alone, are in order. --/
theorem proper_of_top (hb : 2 ≤ b) {xs : HugeNumber} (hdigits : ∀ d ∈ xs, d < b)
    (htop : xs.length = 1 ∨ 0 < xs.length ∧ b ^ (xs.length - 1) ≤ ofDigits b xs) : Proper b xs := by
  refine ⟨hdigits, ?_⟩
  obtain ⟨k, hk⟩ := dropZeros_spec xs
  have hlen : xs.length = (dropZeros xs).length + k := by
    conv_lhs => rw [hk]
    rw [List.length_append, List.length_replicate]
  rcases htop with hone | ⟨hpos, htop⟩
  · obtain ⟨d, rfl⟩ := List.length_eq_one_iff.mp hone
    by_cases hd : d = 0
    · subst hd
      decide
    · simp [adjustSize, dropZeros, hd]
  · have hup := value_lt (x := dropZeros xs) hb fun d hd => hdigits d (mem_of_dropZeros hd)
    rw [value_dropZeros] at hup
    have hk0 : k = 0 := by
      by_contra hk0
      have hpow : b ^ (dropZeros xs).length ≤ b ^ (xs.length - 1) := Nat.pow_le_pow_right (by omega) (by omega)
      omega
    subst hk0
    simp only [List.replicate_zero, List.append_nil] at hk
    unfold adjustSize
    rw [← hk, if_neg]
    rintro rfl
    simp at hpos

/-- Either one digit alone or a top digit that counts. --/
theorem Proper.top (hb : 2 ≤ b) {xs : HugeNumber} (hx : Proper b xs) : xs.length = 1 ∨ b ^ (xs.length - 1) ≤
    ofDigits b xs := by
  rcases Nat.eq_zero_or_pos (ofDigits b xs) with h | h
  · refine .inl (Nat.le_antisymm (hx.length_le hb Nat.one_pos ?_) (List.length_pos_of_ne_nil (proper_ne_nil hx)))
    rw [h]
    exact Nat.pow_pos (by omega)
  · exact .inr (hx.pow_le hb h)

/-! ### Adjusting -/

theorem dropZeros_eq_nil_iff {xs : HugeNumber} (hb : 2 ≤ b) : dropZeros xs = [] ↔ ofDigits b xs = 0 := by
  constructor
  · intro h
    rw [← value_dropZeros xs, h, ofDigits_nil]
  · intro h
    by_contra hne
    have hle := le_value hb hne
    have hpow : 0 < b ^ ((dropZeros xs).length - 1) := Nat.pow_pos (by omega)
    omega

theorem length_adjustSize_le {xs : HugeNumber} (hne : xs ≠ []) : (adjustSize xs).length ≤ xs.length := by
  unfold adjustSize
  split
  · exact List.length_pos_of_ne_nil hne
  · obtain ⟨k, hk⟩ := dropZeros_spec xs
    conv_rhs => rw [hk]
    rw [List.length_append]
    omega

@[simp] theorem data_adjust (x : SignedNumber) : x.adjust.data = adjustSize x.data := rfl
@[simp] theorem bufferSize_adjust (x : SignedNumber) : x.adjust.bufferSize = x.bufferSize := rfl

theorem isNegative_adjust (hw : 0 < width) (x : SignedNumber) :
    x.adjust.isNegative = if ofDigits (digitRadix width) x.data = 0 then false else x.isNegative := by
  unfold SignedNumber.adjust
  simp only [dropZeros_eq_nil_iff (two_le_digitRadix hw)]

theorem toInt_adjust (hw : 0 < width) (x : SignedNumber) : x.adjust.toInt width = x.toInt width := by
  unfold SignedNumber.toInt
  rw [isNegative_adjust hw, data_adjust, value_adjustSize]
  by_cases hzero : ofDigits (digitRadix width) x.data = 0
  · rw [if_pos hzero, hzero]
    simp
  · rw [if_neg hzero]

theorem normal_adjust (hw : 0 < width) (hdigits : ∀ d ∈ x.data, d < digitRadix width) (hne : x.data ≠ [])
    (hwhole : width ∣ x.bufferSize) (hfits : x.data.length * width ≤ x.bufferSize) : Normal width x.adjust where
  proper := proper_adjustSize (two_le_digitRadix hw) hdigits
  sign h := by
    rw [isNegative_adjust hw] at h
    rw [data_adjust, value_adjustSize]
    split at h
    · exact absurd h (by simp)
    · omega
  whole := hwhole
  fits := (Nat.mul_le_mul_right _ (length_adjustSize_le hne)).trans hfits

/-! ### Adding -/

theorem length_addProducts (b : Nat) : ∀ (product : Nat) (ls rs : List Nat), (addProducts b product ls rs).length =
    ls.length
  | _, [], _ => rfl
  | _, _ :: ls, [] => by simp [addProducts, length_addProducts b _ ls []]
  | _, _ :: ls, _ :: rs => by simp [addProducts, length_addProducts b _ ls rs]

/-- No sum of the loops reaches the double of the radix, and no carry is more than one. --/
theorem addProducts_lt (hb : 2 ≤ b) : ∀ {p : Nat} {ls rs : List Nat}, p / b ≤ 1 → (∀ d ∈ ls, d < b) →
    (∀ d ∈ rs, d < b) → ∀ q ∈ addProducts b p ls rs, q < 2 * b
  | _, [], _, _, _, _ => by simp [addProducts]
  | product, l :: ls, [], hp, hl, hr => by
    have hlow := hl l List.mem_cons_self
    have hsum : product / b + l < 2 * b := by omega
    have hquot : (product / b + l) / b < 2 := Nat.div_lt_of_lt_mul (by omega)
    intro p hmem
    rw [addProducts, List.mem_cons] at hmem
    rcases hmem with rfl | hmem
    · exact hsum
    · exact addProducts_lt hb (by omega) (fun d hd => hl d (List.mem_cons_of_mem _ hd)) hr p hmem
  | product, l :: ls, r :: rs, hp, hl, hr => by
    have hlow := hl l List.mem_cons_self
    have hlow' := hr r List.mem_cons_self
    have hsum : product / b + l + r < 2 * b := by omega
    have hquot : (product / b + l + r) / b < 2 := Nat.div_lt_of_lt_mul (by omega)
    intro p hmem
    rw [addProducts, List.mem_cons] at hmem
    rcases hmem with rfl | hmem
    · exact hsum
    · exact addProducts_lt hb (by omega) (fun d hd => hl d (List.mem_cons_of_mem _ hd))
        (fun d hd => hr d (List.mem_cons_of_mem _ hd)) p hmem

/-- The digits and the last carry together are the sum. --/
theorem value_addProducts (b : Nat) : ∀ (product : Nat) (ls rs : List Nat), rs.length ≤ ls.length →
    ofDigits b ((addProducts b product ls rs).map (· % b)) +
      b ^ ls.length * ((addProducts b product ls rs).getLastD product / b) = product / b + ofDigits b ls + ofDigits b rs
  | product, [], rs, hlen => by
    obtain rfl : rs = [] := List.eq_nil_of_length_eq_zero (by simpa using hlen)
    simp [addProducts]
  | product, l :: ls, [], _ => by
    have ih := value_addProducts b (product / b + l) ls [] (Nat.zero_le _)
    have hdm := Nat.mod_add_div (product / b + l) b
    simp only [addProducts, List.map_cons, ofDigits_cons, List.getLastD_cons, List.length_cons, Nat.pow_succ,
      ofDigits_nil,
      Nat.add_zero] at ih ⊢
    calc _ = (product / b + l) % b + b * (ofDigits b ((addProducts b (product / b + l) ls []).map (· % b)) +
          b ^ ls.length * ((addProducts b (product / b + l) ls []).getLastD (product / b + l) / b)) := by ring
      _ = (product / b + l) % b + b * ((product / b + l) / b) + b * ofDigits b ls := by rw [ih]; ring
      _ = _ := by rw [hdm]; ring
  | product, l :: ls, r :: rs, hlen => by
    have ih := value_addProducts b (product / b + l + r) ls rs (by simpa using hlen)
    have hdm := Nat.mod_add_div (product / b + l + r) b
    simp only [addProducts, List.map_cons, ofDigits_cons, List.getLastD_cons, List.length_cons, Nat.pow_succ] at ih ⊢
    calc _ = (product / b + l + r) % b + b * (ofDigits b ((addProducts b (product / b + l + r) ls rs).map (· % b)) +
          b ^ ls.length * ((addProducts b (product / b + l + r) ls rs).getLastD (product / b + l + r) / b)) := by ring
      _ = (product / b + l + r) % b + b * ((product / b + l + r) / b) + b * ofDigits b ls + b * ofDigits b rs := by
        rw [ih]; ring
      _ = _ := by rw [hdm]; ring

theorem getLastD_addProducts (hb : 2 ≤ b) {ls rs : List Nat} (hl : ∀ d ∈ ls, d < b) (hr : ∀ d ∈ rs, d < b) :
    (addProducts b 0 ls rs).getLastD 0 / b ≤ 1 := by
  have hlt := addProducts_lt hb (p := 0) (by simp) hl hr
  cases hlast : addProducts b 0 ls rs with
  | nil => simp
  | cons p ps =>
    rw [hlast] at hlt
    have hmem : (p :: ps).getLastD 0 ∈ p :: ps := by
      rw [List.getLastD_cons]
      exact List.getLastD_mem_cons
    have hquot : (p :: ps).getLastD 0 / b < 2 := Nat.div_lt_of_lt_mul (by have := hlt _ hmem; omega)
    omega

/-- The sum of the magnitudes, where the left buffer holds it. --/
theorem addUnsigned_spec (hw : 0 < width) (hl : Normal width left) (hr : Normal width right)
    (hfits : right.data.length * width ≤ left.bufferSize)
    (hroom : ofDigits (digitRadix width) left.data + ofDigits (digitRadix width) right.data <
      digitRadix width ^ (left.bufferSize / width)) :
    Proper (digitRadix width) (addUnsigned width left right).data ∧
      (addUnsigned width left right).data.length * width ≤ left.bufferSize ∧
      ofDigits (digitRadix width) (addUnsigned width left right).data =
        ofDigits (digitRadix width) left.data + ofDigits (digitRadix width) right.data ∧
      (addUnsigned width left right).bufferSize = left.bufferSize ∧
      (addUnsigned width left right).isNegative = left.isNegative := by
  have hb := two_le_digitRadix hw
  have hwhole := hl.whole
  obtain ⟨longer, shorter, hlonger, hshorter, hlen, hsum, hlonger', hshorter', hfit⟩ : ∃ longer shorter,
      longer = (if left.data.length < right.data.length then right.data else left.data) ∧
      shorter = (if left.data.length < right.data.length then left.data else right.data) ∧
      shorter.length ≤ longer.length ∧
      ofDigits (digitRadix width) longer + ofDigits (digitRadix width) shorter =
        ofDigits (digitRadix width) left.data + ofDigits (digitRadix width) right.data ∧
      Proper (digitRadix width) longer ∧ Proper (digitRadix width) shorter ∧
      longer.length * width ≤ left.bufferSize := by
    by_cases hlt : left.data.length < right.data.length
    · refine ⟨_, _, rfl, rfl, ?_⟩
      rw [if_pos hlt, if_pos hlt]
      exact ⟨by omega, Nat.add_comm _ _, hr.proper, hl.proper, hfits⟩
    · refine ⟨_, _, rfl, rfl, ?_⟩
      rw [if_neg hlt, if_neg hlt]
      exact ⟨by omega, rfl, hl.proper, hr.proper, hl.fits⟩
  have hvalue := value_addProducts (digitRadix width) 0 longer shorter hlen
  have hcarry := getLastD_addProducts hb hlonger'.digits hshorter'.digits
  have hcount := length_addProducts (digitRadix width) 0 longer shorter
  have hpos := List.length_pos_of_ne_nil (proper_ne_nil hlonger')
  have htop := hlonger'.top hb
  unfold addUnsigned
  simp only [← hlonger, ← hshorter]
  rw [← hsum] at hroom ⊢
  rw [Nat.zero_div, Nat.zero_add] at hvalue
  generalize digitRadix width = b at *
  have hdigits : ∀ d ∈ (addProducts b 0 longer shorter).map (· % b), d < b := by
    intro d hd
    obtain ⟨p, -, rfl⟩ := List.mem_map.mp hd
    exact Nat.mod_lt _ (by omega)
  have hlength : ((addProducts b 0 longer shorter).map (· % b)).length = longer.length := by
    rw [List.length_map, hcount]
  generalize (addProducts b 0 longer shorter).map (· % b) = digits at *
  generalize (addProducts b 0 longer shorter).getLastD 0 / b = carry at *
  rw [hlength]
  by_cases hzero : carry = 0
  · rw [if_neg (by simp [hzero])]
    rw [hzero, Nat.mul_zero, Nat.add_zero] at hvalue
    refine ⟨proper_of_top hb hdigits ?_, by rw [hlength]; exact hfit, hvalue, rfl, rfl⟩
    rw [hlength, hvalue]
    exact htop.imp id fun h => ⟨hpos, h.trans (Nat.le_add_right _ _)⟩
  · obtain rfl : carry = 1 := by omega
    rw [Nat.mul_one] at hvalue
    have hlt : longer.length < left.bufferSize / width := by
      by_contra hc
      have hpow : b ^ (left.bufferSize / width) ≤ b ^ longer.length := Nat.pow_le_pow_right (by omega) (by omega)
      omega
    have hmore : (longer.length + 1) * width ≤ left.bufferSize :=
      (Nat.mul_le_mul_right _ hlt).trans (Nat.div_mul_le_self _ _)
    rw [Nat.add_mul] at hmore
    rw [if_pos ⟨by omega, by omega⟩]
    have hnew : ofDigits b (digits ++ [1]) = ofDigits b longer + ofDigits b shorter := by
      rw [ofDigits_append, ofDigits_singleton, hlength, Nat.mul_one]
      exact hvalue
    refine ⟨proper_of_top hb ?_ (.inr ⟨by simp, ?_⟩), ?_, hnew, rfl, rfl⟩
    · intro d hd
      rcases List.mem_append.mp hd with hd | hd
      · exact hdigits d hd
      · obtain rfl := List.mem_singleton.mp hd
        omega
    · rw [hnew, List.length_append, List.length_singleton, Nat.add_sub_cancel, hlength]
      omega
    · rw [List.length_append, List.length_singleton, hlength, Nat.add_mul]
      omega

/-- The sum of two numbers of one sign. --/
theorem addUnsigned_signed (hw : 0 < width) (hl : Normal width left) (hr : Normal width right)
    (hfits : right.data.length * width ≤ left.bufferSize)
    (hroom : ofDigits (digitRadix width) left.data + ofDigits (digitRadix width) right.data <
      digitRadix width ^ (left.bufferSize / width)) :
    Normal width (addUnsigned width left right) ∧ (addUnsigned width left right).toInt width =
      left.toInt width + (if left.isNegative then -((ofDigits (digitRadix width) right.data : Nat) : Int)
        else ((ofDigits (digitRadix width) right.data : Nat) : Int)) := by
  obtain ⟨hproper, hfit, hvalue, hsize, hsign⟩ := addUnsigned_spec hw hl hr hfits hroom
  refine ⟨⟨hproper, fun h => ?_, by rw [hsize]; exact hl.whole, by rw [hsize]; exact hfit⟩, ?_⟩
  · have hpos := hl.sign (by rw [← hsign]; exact h)
    omega
  · unfold SignedNumber.toInt
    rw [hsign, hvalue]
    split <;> push_cast <;> ring

/-! ### Subtracting with a sign -/

theorem map_subtractProducts (b : Nat) : ∀ (product : Nat) (ls rs : List Nat),
    (subtractProducts b product ls rs).map (· % b) = subtractFrom b product ls rs
  | _, [], _ => by simp [subtractProducts, subtractFrom]
  | _, _ :: ls, [] => by simp [subtractProducts, subtractFrom, map_subtractProducts b _ ls []]
  | _, _ :: ls, _ :: rs => by simp [subtractProducts, subtractFrom, map_subtractProducts b _ ls rs]

theorem length_subtractFrom (b : Nat) : ∀ (product : Nat) (ls rs : List Nat), (subtractFrom b product ls rs).length =
    ls.length
  | _, [], _ => by simp [subtractFrom]
  | _, _ :: ls, [] => by simp [subtractFrom, length_subtractFrom b _ ls []]
  | _, _ :: ls, _ :: rs => by simp [subtractFrom, length_subtractFrom b _ ls rs]

/-- No sum of the loops reaches the double of the radix. --/
theorem subtractProducts_lt (hb : 2 ≤ b) : ∀ {product : Nat} {ls rs : List Nat}, product / b ≤ 1 → (∀ d ∈ ls, d < b) →
    ∀ p ∈ subtractProducts b product ls rs, p < 2 * b
  | _, [], _, _, _ => by simp [subtractProducts]
  | product, l :: ls, [], hp, hl => by
    have hlow := hl l List.mem_cons_self
    have hsum : product / b + (b - 1 + l) < 2 * b := by omega
    have hquot : (product / b + (b - 1 + l)) / b < 2 := Nat.div_lt_of_lt_mul (by omega)
    intro p hmem
    rw [subtractProducts, List.mem_cons] at hmem
    rcases hmem with rfl | hmem
    · exact hsum
    · exact subtractProducts_lt hb (by omega) (fun d hd => hl d (List.mem_cons_of_mem _ hd)) p hmem
  | product, l :: ls, r :: rs, hp, hl => by
    have hlow := hl l List.mem_cons_self
    have hsum : product / b + (b - 1 + l - r) < 2 * b := by omega
    have hquot : (product / b + (b - 1 + l - r)) / b < 2 := Nat.div_lt_of_lt_mul (by omega)
    intro p hmem
    rw [subtractProducts, List.mem_cons] at hmem
    rcases hmem with rfl | hmem
    · exact hsum
    · exact subtractProducts_lt hb (by omega) (fun d hd => hl d (List.mem_cons_of_mem _ hd)) p hmem

/-- The longer of two proper numbers is not the smaller one. --/
theorem Proper.length_le_of_le (hb : 2 ≤ b) {xs ys : HugeNumber} (hx : Proper b xs) (hy : Proper b ys)
    (hle : ofDigits b xs ≤ ofDigits b ys) : xs.length ≤ ys.length :=
  hx.length_le hb (List.length_pos_of_ne_nil (proper_ne_nil hy)) (hle.trans_lt (value_lt hb hy.digits))

/-- The difference of the magnitudes with the sign the result has, where the left one is not the smaller one. --/
theorem subtractUnsigned_spec (hw : 0 < width) {result : SignedNumber} (hl : Normal width left) (hr :
    Normal width right)
    (hwhole : width ∣ result.bufferSize) (hfits : left.data.length * width ≤ result.bufferSize)
    (hle : ofDigits (digitRadix width) right.data ≤ ofDigits (digitRadix width) left.data) :
    Normal width (subtractUnsigned width left right result) ∧
      ofDigits (digitRadix width) (subtractUnsigned width left right result).data +
        ofDigits (digitRadix width) right.data =
        ofDigits (digitRadix width) left.data ∧
      (subtractUnsigned width left right result).bufferSize = result.bufferSize ∧
      (ofDigits (digitRadix width) right.data < ofDigits (digitRadix width) left.data →
        (subtractUnsigned width left right result).isNegative = result.isNegative) := by
  have hb := two_le_digitRadix hw
  have hone : digitRadix width / digitRadix width = 1 := Nat.div_self (by omega)
  have hvalue := value_subtractFrom hb (digitRadix width) left.data right.data (by omega)
    (hr.proper.length_le_of_le hb hl.proper hle) hl.proper.digits hr.proper.digits (by omega)
  rw [hone, Nat.sub_self, Nat.add_zero] at hvalue
  have hlength := length_subtractFrom (digitRadix width) (digitRadix width) left.data right.data
  unfold subtractUnsigned
  simp only [map_subtractProducts]
  refine ⟨normal_adjust hw (subtractFrom_digits hb _ _ _) ?_ hwhole (by simpa only [hlength] using hfits), ?_, rfl, ?_⟩
  · intro hnil
    rw [show subtractFrom (digitRadix width) (digitRadix width) left.data right.data = [] from hnil] at hlength
    exact proper_ne_nil hl.proper (List.eq_nil_of_length_eq_zero hlength.symm)
  · rw [data_adjust, value_adjustSize]
    exact hvalue
  · intro hlt
    rw [isNegative_adjust hw, if_neg]
    have h : ofDigits (digitRadix width) (subtractFrom (digitRadix width) (digitRadix width) left.data right.data) ≠
      0 := by
      omega
    exact h

/-! ### Room, and the two sums with a sign -/

/-- The left buffer holds the digits of the right number and the whole of the result. --/
structure Room (width : Nat) (left right : SignedNumber) (n : Int) : Prop where
  fits : right.data.length * width ≤ left.bufferSize
  value : n.natAbs < digitRadix width ^ (left.bufferSize / width)

theorem normal_setDigit_zero (hw : 0 < width) (hl : Normal width left) : Normal width (left.setDigit 0) where
  proper := proper_of_top (two_le_digitRadix hw) (by simp [SignedNumber.setDigit]; have := two_le_digitRadix hw; omega)
    (.inl rfl)
  sign h := by cases h
  whole := hl.whole
  fits := (Nat.mul_le_mul_right _ (List.length_pos_of_ne_nil (proper_ne_nil hl.proper))).trans hl.fits

theorem toInt_setDigit_zero (x : SignedNumber) : (x.setDigit 0).toInt width = 0 := by
  simp [SignedNumber.setDigit, SignedNumber.toInt]

theorem Normal.with_sign {neg : Bool} (hx : Normal width x) (hpos : 0 < ofDigits (digitRadix width) x.data) :
    Normal width { x with isNegative := neg } where
  proper := hx.proper
  sign _ := hpos
  whole := hx.whole
  fits := hx.fits

/-- What comes of two numbers whose magnitudes are subtracted, the larger one's sign being kept. --/
theorem difference_spec (hw : 0 < width) {neg : Bool} (hl : Normal width left) (hr : Normal width right)
    (hfits : right.data.length * width ≤ left.bufferSize) :
    ∀ {y : SignedNumber}, y = (if compareUnsigned left.data right.data = .eq then left.setDigit 0
      else if compareUnsigned left.data right.data = .lt then
        { subtractUnsigned width right left left with isNegative := neg }
      else subtractUnsigned width left right left) →
    neg = !left.isNegative →
    Normal width y ∧ y.toInt width = left.toInt width +
      (if left.isNegative then ((ofDigits (digitRadix width) right.data : Nat) : Int)
        else -((ofDigits (digitRadix width) right.data : Nat) : Int)) := by
  intro y hy hneg
  have hb := two_le_digitRadix hw
  rw [compareUnsigned_spec hb hl.proper.digits hr.proper.digits] at hy
  rcases Nat.lt_trichotomy (ofDigits (digitRadix width) left.data)
    (ofDigits (digitRadix width) right.data) with h | h | h
  · rw [Nat.compare_eq_lt.mpr h, if_neg (by decide), if_pos rfl] at hy
    obtain ⟨hnormal, hvalue, -, -⟩ := subtractUnsigned_spec hw hr hl hl.whole hfits h.le
    subst hy
    refine ⟨hnormal.with_sign (by omega), ?_⟩
    unfold SignedNumber.toInt
    subst hneg
    have hvalue' := congrArg (Nat.cast (R := Int)) hvalue
    push_cast at hvalue'
    cases left.isNegative
    · simp
      omega
    · simp
      omega
  · rw [Nat.compare_eq_eq.mpr h, if_pos rfl] at hy
    subst hy
    refine ⟨normal_setDigit_zero hw hl, ?_⟩
    rw [toInt_setDigit_zero]
    unfold SignedNumber.toInt
    rw [h]
    split <;> ring
  · rw [Nat.compare_eq_gt.mpr h, if_neg (by decide), if_neg (by decide)] at hy
    obtain ⟨hnormal, hvalue, -, hsign⟩ := subtractUnsigned_spec hw hl hr hl.whole hl.fits h.le
    subst hy
    refine ⟨hnormal, ?_⟩
    unfold SignedNumber.toInt
    rw [hsign h]
    split
    · omega
    · omega

theorem add_spec (hw : 0 < width) (hl : Normal width left) (hr : Normal width right)
    (hroom : Room width left right (left.toInt width + right.toInt width)) :
    Normal width (add width left right) ∧
      (add width left right).toInt width = left.toInt width + right.toInt width := by
  have hvalue := hroom.value
  unfold add
  dsimp only
  by_cases hsame : left.isNegative = right.isNegative
  · have hright : right.toInt width = (if left.isNegative then -((ofDigits (digitRadix width) right.data : Nat) : Int)
        else ((ofDigits (digitRadix width) right.data : Nat) : Int)) := by
      rw [hsame]
      rfl
    rw [if_pos hsame, hright]
    refine addUnsigned_signed hw hl hr hroom.fits ?_
    rw [hright] at hvalue
    unfold SignedNumber.toInt at hvalue
    split at hvalue
    · omega
    · omega
  · rw [if_neg hsame]
    have hneg : right.isNegative = !left.isNegative := by
      revert hsame
      cases left.isNegative <;> cases right.isNegative <;> simp
    have hright : right.toInt width = (if left.isNegative then ((ofDigits (digitRadix width) right.data : Nat) : Int)
        else -((ofDigits (digitRadix width) right.data : Nat) : Int)) := by
      unfold SignedNumber.toInt
      rw [hneg]
      cases left.isNegative <;> simp
    rw [hright]
    exact difference_spec hw hl hr hroom.fits rfl hneg

theorem subtractSigned_spec (hw : 0 < width) (hl : Normal width left) (hr : Normal width right)
    (hroom : Room width left right (left.toInt width - right.toInt width)) :
    Normal width (subtractSigned width left right) ∧
      (subtractSigned width left right).toInt width = left.toInt width - right.toInt width := by
  have hvalue := hroom.value
  unfold subtractSigned
  dsimp only
  by_cases hsame : left.isNegative = right.isNegative
  · have hright : -right.toInt width = (if left.isNegative then ((ofDigits (digitRadix width) right.data : Nat) : Int)
        else -((ofDigits (digitRadix width) right.data : Nat) : Int)) := by
      unfold SignedNumber.toInt
      rw [hsame]
      split <;> simp
    rw [if_neg (by simpa using hsame), Int.sub_eq_add_neg, hright]
    exact difference_spec hw hl hr hroom.fits rfl (by rw [hsame])
  · rw [if_pos hsame]
    have hneg : right.isNegative = !left.isNegative := by
      revert hsame
      cases left.isNegative <;> cases right.isNegative <;> simp
    have hright : -right.toInt width = (if left.isNegative then -((ofDigits (digitRadix width) right.data : Nat) : Int)
        else ((ofDigits (digitRadix width) right.data : Nat) : Int)) := by
      unfold SignedNumber.toInt
      rw [hneg]
      cases left.isNegative <;> simp
    rw [Int.sub_eq_add_neg, hright]
    refine addUnsigned_signed hw hl hr hroom.fits ?_
    rw [Int.sub_eq_add_neg, hright] at hvalue
    unfold SignedNumber.toInt at hvalue
    split at hvalue
    · omega
    · omega

end

end Netxduo.Crypto
