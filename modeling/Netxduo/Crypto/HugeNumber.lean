import Mathlib

/-! Huge numbers: lists of digits, the lowest one first, and what is done with them digit by digit. -/

namespace Netxduo.Crypto
open Nat

/-- The digits of a huge number, as many as its size says. --/
abbrev HugeNumber := List Nat

/-! ### The source -/

/-- `HN_RADIX`, for a digit of `NX_CRYPTO_HUGE_NUMBER_BITS` bits. --/
def hnRadix (bits : Nat) : Nat := 2 ^ bits

/-- The digits less the zeros at the front. --/
def dropZeros (x : HugeNumber) : HugeNumber := x.rdropWhile (· = 0)

/-- `_nx_crypto_huge_number_adjust_size` --/
def adjustSize (x : HugeNumber) : HugeNumber := if dropZeros x = [] then [0] else dropZeros x

/-- The digits from the top. --/
def compareTop : List Nat → List Nat → Ordering
  | l :: ls, r :: rs => if l > r then .gt else if r > l then .lt else compareTop ls rs
  | _, _ => .eq

/-- `_nx_crypto_huge_number_compare_unsigned` --/
def compareUnsigned (left right : HugeNumber) : Ordering :=
  let left := dropZeros left
  let right := dropZeros right
  if left.length > right.length then .gt
  else if right.length > left.length then .lt
  else compareTop left.reverse right.reverse

/-- The two loops of the subtraction. The borrow is `1 - product / radix`. --/
def subtractFrom (b : Nat) : Nat → List Nat → List Nat → List Nat
  | product, l :: ls, r :: rs =>
    let product := product / b + (b - 1 + l - r)
    product % b :: subtractFrom b product ls rs
  | product, l :: ls, [] =>
    let product := product / b + (b - 1 + l)
    product % b :: subtractFrom b product ls []
  | _, [], _ => []

/-- `_nx_crypto_huge_number_subtract`, where neither number is negative and the left one is not the smaller one. --/
def subtract (b : Nat) (left right : HugeNumber) : HugeNumber :=
  if compareUnsigned left right = .eq then [0] else adjustSize (subtractFrom b b left right)

/-! ### The number the digits stand for -/

/-- The digits of a number in order: each below the radix, and no zero at the front. --/
structure Proper (b : Nat) (x : HugeNumber) : Prop where
  digits : ∀ d ∈ x, d < b
  adjusted : adjustSize x = x

section
variable {b : Nat} {x y left right : HugeNumber}

theorem dropZeros_spec (x : HugeNumber) : ∃ k, x = dropZeros x ++ List.replicate k 0 := by
  refine ⟨(x.rtakeWhile (· = 0)).length, ?_⟩
  have hzeros : ∀ d ∈ x.rtakeWhile (· = 0), d = 0 := fun d hd => by simpa using List.mem_rtakeWhile_imp hd
  rw [← List.eq_replicate_of_mem hzeros]
  exact List.rdropWhile_append_rtakeWhile.symm

@[simp] theorem value_dropZeros (x : HugeNumber) : ofDigits b (dropZeros x) = ofDigits b x := by
  obtain ⟨k, hk⟩ := dropZeros_spec x
  nth_rewrite 2 [hk]
  rw [ofDigits_append_replicate_zero]

theorem mem_of_dropZeros {d : Nat} (h : d ∈ dropZeros x) : d ∈ x := by
  obtain ⟨k, hk⟩ := dropZeros_spec x
  rw [hk]
  exact List.mem_append_left _ h

theorem dropZeros_dropZeros (x : HugeNumber) : dropZeros (dropZeros x) = dropZeros x := List.rdropWhile_idempotent _ _

/-- A number without zeros at the front reaches up to its length. --/
theorem le_value (hb : 2 ≤ b) (hx : dropZeros x ≠ []) : b ^ ((dropZeros x).length - 1) ≤ ofDigits b x := by
  obtain ⟨c, rfl⟩ : ∃ c, b = c + 2 := ⟨b - 2, by omega⟩
  have hlast : (dropZeros x).getLast hx ≠ 0 := by
    have h : ¬decide ((dropZeros x).getLast hx = 0) = true := List.rdropWhile_last_not _ _ hx
    simpa using h
  have h := pow_length_le_mul_ofDigits (b := c) hx hlast
  rw [value_dropZeros] at h
  obtain ⟨n, hn⟩ : ∃ n, (dropZeros x).length = n + 1 :=
    ⟨(dropZeros x).length - 1, by have := List.length_pos_of_ne_nil hx; omega⟩
  rw [hn, Nat.pow_succ, Nat.mul_comm] at h
  rw [hn, Nat.add_sub_cancel]
  exact Nat.le_of_mul_le_mul_left h (by omega)

theorem value_lt (hb : 2 ≤ b) (hx : ∀ d ∈ x, d < b) : ofDigits b x < b ^ x.length :=
  ofDigits_lt_base_pow_length (by omega) hx

/-! ### Adjusting and comparing -/

@[simp] theorem value_adjustSize (x : HugeNumber) : ofDigits b (adjustSize x) = ofDigits b x := by
  unfold adjustSize
  split
  · rename_i hnil
    rw [← value_dropZeros x, hnil]
    simp
  · exact value_dropZeros x

theorem proper_adjustSize (hb : 2 ≤ b) (hx : ∀ d ∈ x, d < b) : Proper b (adjustSize x) := by
  unfold adjustSize
  split
  · refine ⟨fun d hd => ?_, by decide⟩
    obtain rfl := List.mem_singleton.mp hd
    omega
  · rename_i hne
    refine ⟨fun d hd => hx d (mem_of_dropZeros hd), ?_⟩
    unfold adjustSize
    rw [dropZeros_dropZeros, if_neg hne]

/-- A proper number below a power of the radix has no more digits. --/
theorem Proper.length_le (hb : 2 ≤ b) (hx : Proper b x) {n : Nat} (hn : 0 < n) (hlt : ofDigits b x < b ^ n) :
    x.length ≤ n := by
  have hadjusted := hx.adjusted
  unfold adjustSize at hadjusted
  split at hadjusted
  · rw [← hadjusted]
    exact hn
  · rename_i hne
    have hle := le_value (x := x) hb hne
    rw [hadjusted] at hle
    by_contra hc
    have hpow : b ^ n ≤ b ^ (x.length - 1) := Nat.pow_le_pow_right (by omega) (by omega)
    omega

/-- A proper number that is not zero reaches up to its length. --/
theorem Proper.pow_le (hb : 2 ≤ b) (hx : Proper b x) (hpos : 0 < ofDigits b x) : b ^ (x.length - 1) ≤ ofDigits b x := by
  have hadjusted := hx.adjusted
  unfold adjustSize at hadjusted
  split at hadjusted
  · rw [← hadjusted] at hpos
    exact absurd hpos (by simp)
  · rename_i hne
    have hle := le_value (x := x) hb hne
    rw [hadjusted] at hle
    exact hle

theorem compareTop_spec (hb : 2 ≤ b) : ∀ {ls rs : List Nat}, ls.length = rs.length → (∀ d ∈ ls, d < b) →
    (∀ d ∈ rs, d < b) → compareTop ls rs = compare (ofDigits b ls.reverse) (ofDigits b rs.reverse)
  | [], [], _, _, _ => by simp [compareTop]
  | l :: ls, r :: rs, hlen, hl, hr => by
    have hlen' : ls.length = rs.length := by simpa using hlen
    have hls := value_lt (x := ls.reverse) hb fun d hd => hl d (List.mem_cons_of_mem _ (List.mem_reverse.mp hd))
    have hrs := value_lt (x := rs.reverse) hb fun d hd => hr d (List.mem_cons_of_mem _ (List.mem_reverse.mp hd))
    have ih := compareTop_spec hb hlen' (fun d hd => hl d (List.mem_cons_of_mem _ hd))
      fun d hd => hr d (List.mem_cons_of_mem _ hd)
    rw [List.length_reverse] at hls hrs
    rw [compareTop, ofDigits_reverse_cons, ofDigits_reverse_cons, ← hlen']
    rw [← hlen'] at hrs
    generalize ofDigits b ls.reverse = L at *
    generalize ofDigits b rs.reverse = R at *
    generalize b ^ ls.length = p at *
    split
    · rename_i hgt
      have hmul : p * (r + 1) ≤ p * l := Nat.mul_le_mul_left _ hgt
      rw [Nat.mul_succ] at hmul
      exact (Nat.compare_eq_gt.mpr (by omega)).symm
    · split
      · rename_i hlt
        have hmul : p * (l + 1) ≤ p * r := Nat.mul_le_mul_left _ hlt
        rw [Nat.mul_succ] at hmul
        exact (Nat.compare_eq_lt.mpr (by omega)).symm
      · obtain rfl : l = r := by omega
        rw [ih]
        rcases Nat.lt_trichotomy L R with h | h | h
        · rw [Nat.compare_eq_lt.mpr h, Nat.compare_eq_lt.mpr (by omega)]
        · rw [Nat.compare_eq_eq.mpr h, Nat.compare_eq_eq.mpr (by omega)]
        · rw [Nat.compare_eq_gt.mpr h, Nat.compare_eq_gt.mpr (by omega)]

theorem compareUnsigned_spec (hb : 2 ≤ b) (hl : ∀ d ∈ left, d < b) (hr : ∀ d ∈ right, d < b) :
    compareUnsigned left right = compare (ofDigits b left) (ofDigits b right) := by
  have hbelow : ∀ {x y : HugeNumber}, (∀ d ∈ y, d < b) → (dropZeros y).length < (dropZeros x).length →
      ofDigits b y < ofDigits b x := by
    intro x y hy hlt
    have hle := le_value (x := x) hb (by rintro hnil; rw [hnil] at hlt; simp at hlt)
    have hup := value_lt (x := dropZeros y) hb fun d hd => hy d (mem_of_dropZeros hd)
    rw [value_dropZeros] at hup
    have hpow : b ^ (dropZeros y).length ≤ b ^ ((dropZeros x).length - 1) := Nat.pow_le_pow_right (by omega) (by omega)
    omega
  unfold compareUnsigned
  dsimp only
  split
  · rename_i hgt
    exact (Nat.compare_eq_gt.mpr (hbelow hr hgt)).symm
  · split
    · rename_i hlt
      exact (Nat.compare_eq_lt.mpr (hbelow hl hlt)).symm
    · rw [compareTop_spec hb (by simp; omega) (fun d hd => hl d (mem_of_dropZeros (List.mem_reverse.mp hd)))
        fun d hd => hr d (mem_of_dropZeros (List.mem_reverse.mp hd))]
      simp

/-! ### Subtracting -/

theorem subtractFrom_digits (hb : 2 ≤ b) : ∀ (product : Nat) (ls rs : List Nat), ∀ d ∈ subtractFrom b product ls rs, d < b
  | _, [], _ => by simp [subtractFrom]
  | product, l :: ls, [] => by
    intro d hd
    rw [subtractFrom, List.mem_cons] at hd
    rcases hd with rfl | hd
    · exact Nat.mod_lt _ (by omega)
    · exact subtractFrom_digits hb _ ls [] d hd
  | product, l :: ls, r :: rs => by
    intro d hd
    rw [subtractFrom, List.mem_cons] at hd
    rcases hd with rfl | hd
    · exact Nat.mod_lt _ (by omega)
    · exact subtractFrom_digits hb _ ls rs d hd

/-- The borrow of one digit. --/
theorem borrow_digit (hb : 2 ≤ b) {c l r : Nat} (hc : c ≤ 1) (hl : l < b) (hr : r < b) :
    (c + (b - 1 + l - r)) / b ≤ 1 ∧
      (c + (b - 1 + l - r)) % b + r + (1 - c) = l + b * (1 - (c + (b - 1 + l - r)) / b) := by
  have hdm := Nat.div_add_mod (c + (b - 1 + l - r)) b
  have hlt : (c + (b - 1 + l - r)) / b < 2 := Nat.div_lt_of_lt_mul (by omega)
  have hmod := Nat.mod_lt (c + (b - 1 + l - r)) (show 0 < b by omega)
  generalize (c + (b - 1 + l - r)) / b = q at *
  generalize (c + (b - 1 + l - r)) % b = m at *
  refine ⟨by omega, ?_⟩
  obtain rfl | rfl : q = 0 ∨ q = 1 := by omega
  · omega
  · omega

theorem value_subtractFrom (hb : 2 ≤ b) : ∀ (product : Nat) (ls rs : List Nat), product / b ≤ 1 → rs.length ≤ ls.length →
    (∀ d ∈ ls, d < b) → (∀ d ∈ rs, d < b) → ofDigits b rs + (1 - product / b) ≤ ofDigits b ls →
    ofDigits b (subtractFrom b product ls rs) + ofDigits b rs + (1 - product / b) = ofDigits b ls
  | product, [], [], _, _, _, _, hle => by
    simp [subtractFrom] at hle ⊢
    omega
  | product, l :: ls, [], hc, _, hl, _, hle => by
    obtain ⟨hq, hdigit⟩ := borrow_digit hb hc (hl l List.mem_cons_self) (show 0 < b by omega)
    rw [Nat.sub_zero, Nat.add_zero] at hdigit
    rw [Nat.sub_zero] at hq
    rw [subtractFrom]
    simp only [ofDigits_cons, ofDigits_nil, Nat.zero_add, Nat.add_zero] at hle ⊢
    have ih := value_subtractFrom hb (product / b + (b - 1 + l)) ls [] hq (Nat.zero_le _)
      (fun d hd => hl d (List.mem_cons_of_mem _ hd)) (by simp)
    simp only [ofDigits_nil, Nat.zero_add, Nat.add_zero] at ih
    have hmod := Nat.mod_lt (product / b + (b - 1 + l)) (show 0 < b by omega)
    generalize product / b = c at *
    generalize subtractFrom b (c + (b - 1 + l)) ls [] = left at *
    generalize (c + (b - 1 + l)) / b = q at *
    have hmore : 1 - q ≤ ofDigits b ls := by
      by_contra hc'
      obtain ⟨rfl, hzero⟩ : q = 0 ∧ ofDigits b ls = 0 := by omega
      rw [hzero, Nat.mul_zero] at hle
      rw [Nat.sub_zero, Nat.mul_one] at hdigit
      omega
    rw [← ih hmore, Nat.mul_add]
    omega
  | product, l :: ls, r :: rs, hc, hlen, hl, hr, hle => by
    obtain ⟨hq, hdigit⟩ := borrow_digit hb hc (hl l List.mem_cons_self) (hr r List.mem_cons_self)
    rw [subtractFrom]
    simp only [ofDigits_cons] at hle ⊢
    have ih := value_subtractFrom hb (product / b + (b - 1 + l - r)) ls rs hq
      (by simpa using hlen) (fun d hd => hl d (List.mem_cons_of_mem _ hd)) (fun d hd => hr d (List.mem_cons_of_mem _ hd))
    have hmod := Nat.mod_lt (product / b + (b - 1 + l - r)) (show 0 < b by omega)
    generalize product / b = c at *
    generalize subtractFrom b (c + (b - 1 + l - r)) ls rs = left at *
    generalize (c + (b - 1 + l - r)) / b = q at *
    have hmore : ofDigits b rs + (1 - q) ≤ ofDigits b ls := by
      by_contra hc'
      have hmul : b * (ofDigits b ls + 1) ≤ b * (ofDigits b rs + (1 - q)) := Nat.mul_le_mul_left _ (by omega)
      rw [Nat.mul_add, Nat.mul_add, Nat.mul_one] at hmul
      omega
    rw [← ih hmore, Nat.mul_add, Nat.mul_add]
    omega

/-- The difference, where it is not negative. --/
theorem subtract_spec (hb : 2 ≤ b) (hl : ∀ d ∈ left, d < b) (hr : ∀ d ∈ right, d < b) (hlen : right.length ≤ left.length)
    (hle : ofDigits b right ≤ ofDigits b left) :
    Proper b (subtract b left right) ∧ ofDigits b (subtract b left right) + ofDigits b right = ofDigits b left := by
  unfold subtract
  rw [compareUnsigned_spec hb hl hr]
  split
  · rename_i heq
    rw [Nat.compare_eq_eq] at heq
    refine ⟨⟨fun d hd => ?_, by decide⟩, by simp [heq]⟩
    obtain rfl := List.mem_singleton.mp hd
    omega
  · have hone : b / b = 1 := Nat.div_self (by omega)
    have hvalue := value_subtractFrom hb b left right (by omega) hlen hl hr (by omega)
    rw [hone] at hvalue
    refine ⟨proper_adjustSize hb (subtractFrom_digits hb _ _ _), ?_⟩
    rw [value_adjustSize]
    exact hvalue

end

end Netxduo.Crypto
