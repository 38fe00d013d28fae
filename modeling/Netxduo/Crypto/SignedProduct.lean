import Mathlib
import Netxduo.Crypto.SignedNumber

/-! Multiplying, squaring and shifting huge numbers with a sign. -/

namespace Netxduo.Crypto
open Nat

/-! ### The source -/

/-- The inner loop of the multiplication, from one bucket on. The carry that is left goes into the bucket after it. --/
def multiplyRow (b l : Nat) : Nat → List Nat → List Nat → List Nat
  | product, r :: rs, t :: ts =>
    let product := product / b + (l * r + t)
    product % b :: multiplyRow b l product rs ts
  | product, [], _ :: ts => product / b :: ts
  | _, _, [] => []

/-- What `product` holds in the inner loop. --/
def rowProducts (b l : Nat) : Nat → List Nat → List Nat → List Nat
  | product, r :: rs, t :: ts =>
    let product := product / b + (l * r + t)
    product :: rowProducts b l product rs ts
  | _, _, _ => []

/-- The buckets after one digit of the left number, which does nothing where it is zero. --/
def multiplyPass (b l : Nat) (right buckets : List Nat) : List Nat :=
  if l = 0 then buckets else multiplyRow b l 0 right buckets

/-- The outer loop, from the bucket of its digit on. --/
def multiplyFrom (b : Nat) (right : List Nat) : List Nat → List Nat → List Nat
  | l :: ls, buckets =>
    let buckets := multiplyPass b l right buckets
    buckets.headD 0 :: multiplyFrom b right ls buckets.tail
  | [], buckets => buckets

/-- What `product` holds in the whole of the multiplication. --/
def multiplyProducts (b : Nat) (right : List Nat) : List Nat → List Nat → List Nat
  | l :: ls, buckets =>
    (if l = 0 then [] else rowProducts b l 0 right buckets) ++
      multiplyProducts b right ls (multiplyPass b l right buckets).tail
  | [], _ => []

/-- `_nx_crypto_huge_number_multiply`, whose result is neither of the operands. --/
def multiply (width : Nat) (left right result : SignedNumber) : SignedNumber :=
  { result with
    data := multiplyFrom (digitRadix width) right.data left.data (List.replicate (left.data.length +
      right.data.length) 0)
    isNegative := if left.isNegative = right.isNegative then false else true }.adjust

/-- The first loop of the squaring, from the even digit of the result that is its digit's square. --/
def squareRows (b : Nat) : List Nat → List Nat → List Nat
  | v :: vs, r :: result =>
    let row := multiplyRow b v 0 vs result
    r :: row.headD 0 :: squareRows b vs row.tail
  | _, result => result

/-- What `product` holds in the first loop. --/
def squareRowProducts (b : Nat) : List Nat → List Nat → List Nat
  | v :: vs, _ :: result => rowProducts b v 0 vs result ++ squareRowProducts b vs (multiplyRow b v 0 vs result).tail
  | _, _ => []

/-- Every digit moved up, with the bits that fall out of the digit below it, and what falls out of the top one. --/
def shiftLeftDigits (bits shift : Nat) : Nat → List Nat → List Nat
  | below, d :: ds => ((d <<< shift) % 2 ^ bits ||| below) :: shiftLeftDigits bits shift (d >>> (bits - shift)) ds
  | below, [] => [below]

/-- The third loop of the squaring: the squares of the digits, and the carries. --/
def squareSums (b : Nat) : Nat → List Nat → List Nat → List Nat
  | product, v :: vs, r :: s :: result =>
    let even := product / b + (r + v * v)
    let odd := even / b + s
    even :: odd :: squareSums b odd vs result
  | _, _, _ => []

/-- The result once the first loop is over and its digits are doubled. --/
def squareDoubled (width : Nat) (value : List Nat) : List Nat :=
  (shiftLeftDigits (8 * width) 1 0 (squareRows (digitRadix width) value (List.replicate (2 * value.length) 0))).dropLast

/-- `_nx_crypto_huge_number_square`, whose result is not its operand. --/
def square (width : Nat) (value result : SignedNumber) : SignedNumber :=
  let b := digitRadix width
  { result with
    data := (squareSums b 0 value.data (squareDoubled width value.data)).map (· % b)
    isNegative := false }.adjust

/-- `_nx_crypto_huge_number_shift_left`, for a shift that is less than a digit. --/
def shiftLeft (width : Nat) (x : SignedNumber) (shift : Nat) : SignedNumber :=
  let moved := shiftLeftDigits (8 * width) shift 0 x.data
  if moved.getLastD 0 ≠ 0 then { x with data := moved } else { x with data := moved.dropLast }

/-- Every digit moved down, with the bits that fall out of the digit above it. --/
def shiftRightDigits (bits shift : Nat) : List Nat → List Nat
  | d :: e :: ds => ((e <<< (bits - shift)) % 2 ^ bits ||| d >>> shift) :: shiftRightDigits bits shift (e :: ds)
  | [d] => [d >>> shift]
  | [] => []

/-- `_nx_crypto_huge_number_shift_right`, for a shift that is less than a digit. --/
def shiftRight (width : Nat) (x : SignedNumber) (shift : Nat) : SignedNumber :=
  { x with data := shiftRightDigits (8 * width) shift x.data }.adjust

section
variable {b width : Nat} {left right x : SignedNumber}

/-! ### Multiplying -/

theorem product_lt {p l r t : Nat} (hp : p / b < b) (hl : l < b) (hr : r < b) (ht : t < b) :
    p / b + (l * r + t) < b ^ 2 := by
  have hmul : l * r ≤ (b - 1) * (b - 1) := Nat.mul_le_mul (by omega) (by omega)
  obtain ⟨c, rfl⟩ : ∃ c, b = c + 1 := ⟨b - 1, by omega⟩
  rw [Nat.add_sub_cancel] at hmul
  have hsq : (c + 1) ^ 2 = c * c + c + c + 1 := by ring
  omega

theorem carry_lt_radix {p : Nat} (hp : p < b ^ 2) : p / b < b :=
  Nat.div_lt_of_lt_mul (by rw [← Nat.pow_two]; exact hp)

/-- One pass over the right digits adds the product to the buckets, and its carry goes into the next bucket. --/
theorem multiplyRow_spec (hb : 2 ≤ b) {l : Nat} (hl : l < b) {t : Nat} {s : List Nat} : ∀ {p : Nat} {R T : List Nat},
    p / b < b → (∀ d ∈ R, d < b) → (∀ d ∈ T, d < b) → T.length = R.length →
    ∃ out, multiplyRow b l p R (T ++ t :: s) = out ++ s ∧ out.length = R.length + 1 ∧ (∀ d ∈ out, d < b) ∧
      ofDigits b out = p / b + l * ofDigits b R + ofDigits b T
  | product, [], [], hp, _, _, _ => ⟨[product / b], by simp [multiplyRow], rfl, by simpa using hp, by simp⟩
  | product, r :: rs, u :: ts, hp, hr, ht, hlen => by
    have hlt := product_lt hp hl (hr r List.mem_cons_self) (ht u List.mem_cons_self)
    obtain ⟨out, hout, hcount, hdigits, hvalue⟩ := multiplyRow_spec hb hl (t := t) (s := s)
      (p := product / b + (l * r + u)) (R := rs) (T := ts) (carry_lt_radix hlt)
      (fun d hd => hr d (List.mem_cons_of_mem _ hd)) (fun d hd => ht d (List.mem_cons_of_mem _ hd))
        (by simpa using hlen)
    have hdm := Nat.mod_add_div (product / b + (l * r + u)) b
    refine ⟨(product / b + (l * r + u)) % b :: out, ?_, by rw [List.length_cons, hcount, List.length_cons], ?_, ?_⟩
    · rw [List.cons_append, multiplyRow, hout, List.cons_append]
    · intro d hd
      rcases List.mem_cons.mp hd with rfl | hd
      · exact Nat.mod_lt _ (by omega)
      · exact hdigits d hd
    · rw [ofDigits_cons, hvalue, ofDigits_cons, ofDigits_cons]
      calc _ = (product / b + (l * r + u)) % b + b * ((product / b + (l * r + u)) / b) + b * (l * ofDigits b rs) +
            b * ofDigits b ts := by ring
        _ = _ := by rw [hdm]; ring

theorem rowProducts_lt (hb : 2 ≤ b) {l : Nat} (hl : l < b) : ∀ {product : Nat} {rs ts : List Nat},
    product / b < b → (∀ d ∈ rs, d < b) → (∀ d ∈ ts, d < b) → ∀ p ∈ rowProducts b l product rs ts, p < b ^ 2
  | _, [], _, _, _, _ => by simp [rowProducts]
  | _, _ :: _, [], _, _, _ => by simp [rowProducts]
  | product, r :: rs, u :: ts, hp, hr, ht => by
    have hlt := product_lt hp hl (hr r List.mem_cons_self) (ht u List.mem_cons_self)
    intro p hmem
    rw [rowProducts, List.mem_cons] at hmem
    rcases hmem with rfl | hmem
    · exact hlt
    · exact rowProducts_lt hb hl (carry_lt_radix hlt) (fun d hd => hr d (List.mem_cons_of_mem _ hd))
        (fun d hd => ht d (List.mem_cons_of_mem _ hd)) p hmem

/-- The buckets after one digit of the left number: the one it leaves, and those the next digit starts from. --/
theorem multiplyPass_spec (hb : 2 ≤ b) {l k : Nat} {rs ts : List Nat} (hl : l < b) (hr : ∀ d ∈ rs, d < b)
    (ht : ∀ d ∈ ts, d < b) (hlen : ts.length = rs.length) :
    ∃ d ds, multiplyPass b l rs (ts ++ List.replicate (k + 1) 0) = d :: (ds ++ List.replicate k 0) ∧
      ds.length = rs.length ∧ d < b ∧ (∀ e ∈ ds, e < b) ∧
      d + b * ofDigits b ds = l * ofDigits b rs + ofDigits b ts := by
  have hsplit : ∃ out, multiplyPass b l rs (ts ++ List.replicate (k + 1) 0) = out ++ List.replicate k 0 ∧
      out.length = rs.length + 1 ∧ (∀ e ∈ out, e < b) ∧ ofDigits b out = l * ofDigits b rs + ofDigits b ts := by
    unfold multiplyPass
    by_cases hzero : l = 0
    · refine ⟨ts ++ [0], ?_, by simp [hlen], ?_, ?_⟩
      · rw [if_pos hzero, List.replicate_succ, List.append_assoc, List.singleton_append]
      · intro e he
        rcases List.mem_append.mp he with he | he
        · exact ht e he
        · obtain rfl := List.mem_singleton.mp he
          omega
      · rw [ofDigits_append, ofDigits_singleton, hzero]
        ring
    · rw [if_neg hzero, List.replicate_succ]
      obtain ⟨out, hout, hcount, hdigits, hvalue⟩ := multiplyRow_spec hb hl (t := 0) (s := List.replicate k 0) (p := 0)
        (by rw [Nat.zero_div]; omega) hr ht hlen
      refine ⟨out, hout, hcount, hdigits, ?_⟩
      rw [hvalue, Nat.zero_div, Nat.zero_add]
  obtain ⟨out, hout, hcount, hdigits, hvalue⟩ := hsplit
  cases out with
  | nil => simp at hcount
  | cons d ds =>
    refine ⟨d, ds, by rw [hout, List.cons_append], by simpa using hcount, hdigits d List.mem_cons_self,
      fun e he => hdigits e (List.mem_cons_of_mem _ he), ?_⟩
    rw [← hvalue, ofDigits_cons]

/-- The digits on the left, one after the other. --/
theorem multiplyFrom_spec (hb : 2 ≤ b) {rs : List Nat} (hr : ∀ d ∈ rs, d < b) : ∀ {L T : List Nat}, (∀ d ∈ L, d < b) →
    (∀ d ∈ T, d < b) → T.length = rs.length →
    (multiplyFrom b rs L (T ++ List.replicate L.length 0)).length = L.length + rs.length ∧
      (∀ d ∈ multiplyFrom b rs L (T ++ List.replicate L.length 0), d < b) ∧
      ofDigits b (multiplyFrom b rs L (T ++ List.replicate L.length 0)) = ofDigits b L * ofDigits b rs + ofDigits b T ∧
      ∀ p ∈ multiplyProducts b rs L (T ++ List.replicate L.length 0), p < b ^ 2
  | [], ts, _, ht, hlen => by
    simp only [multiplyFrom, multiplyProducts, List.length_nil, List.replicate_zero, List.append_nil, ofDigits_nil,
      Nat.zero_mul,
      Nat.zero_add]
    exact ⟨hlen, ht, trivial, by simp⟩
  | l :: ls, ts, hl, ht, hlen => by
    obtain ⟨d, ds, hpass, hlen', hd, hds, hvalue⟩ :=
      multiplyPass_spec hb (k := ls.length) (hl l List.mem_cons_self) hr ht hlen
    obtain ⟨hcount, hdigits, hrest, hproducts⟩ := multiplyFrom_spec hb hr (L := ls) (T := ds)
      (fun e he => hl e (List.mem_cons_of_mem _ he)) hds hlen'
    rw [List.length_cons, multiplyFrom, multiplyProducts, hpass]
    simp only [List.headD_cons, List.tail_cons]
    refine ⟨by rw [List.length_cons, hcount]; omega, ?_, ?_, ?_⟩
    · intro e he
      rcases List.mem_cons.mp he with rfl | he
      · exact hd
      · exact hdigits e he
    · rw [ofDigits_cons, hrest, ofDigits_cons]
      calc _ = d + b * ofDigits b ds + b * (ofDigits b ls * ofDigits b rs) := by ring
        _ = _ := by rw [hvalue]; ring
    · intro p hmem
      rcases List.mem_append.mp hmem with hmem | hmem
      · split at hmem
        · simp at hmem
        · refine rowProducts_lt hb (hl l List.mem_cons_self) (by rw [Nat.zero_div]; omega) hr ?_ p hmem
          intro e he
          rcases List.mem_append.mp he with he | he
          · exact ht e he
          · rw [List.eq_of_mem_replicate he]
            omega
      · exact hproducts p hmem

/-- The product of the magnitudes in a buffer of its own. --/
theorem multiply_value (hw : 0 < width) (hl : Normal width left) (hr : Normal width right) :
    (multiplyFrom (digitRadix width) right.data left.data (List.replicate (left.data.length +
      right.data.length) 0)).length =
        left.data.length + right.data.length ∧
      (∀ d ∈ multiplyFrom (digitRadix width) right.data left.data (List.replicate (left.data.length +
        right.data.length) 0),
        d < digitRadix width) ∧
      ofDigits (digitRadix width)
          (multiplyFrom (digitRadix width) right.data left.data (List.replicate (left.data.length +
            right.data.length) 0)) =
        ofDigits (digitRadix width) left.data * ofDigits (digitRadix width) right.data ∧
      ∀ p ∈ multiplyProducts (digitRadix width) right.data left.data
        (List.replicate (left.data.length + right.data.length) 0), p < digitRadix width ^ 2 := by
  have hb := two_le_digitRadix hw
  have h := multiplyFrom_spec hb hr.proper.digits (L := left.data) (T := List.replicate right.data.length 0)
    hl.proper.digits
    (fun d hd => by rw [List.eq_of_mem_replicate hd]; omega) (List.length_replicate ..)
  have hzero : ofDigits (digitRadix width) (List.replicate right.data.length 0) = 0 := by
    rw [← List.nil_append (List.replicate _ 0), ofDigits_append_replicate_zero, ofDigits_nil]
  rw [List.replicate_append_replicate, Nat.add_comm right.data.length, hzero, Nat.add_zero] at h
  exact h

theorem multiply_spec (hw : 0 < width) {result : SignedNumber} (hl : Normal width left) (hr : Normal width right)
    (hwhole : width ∣ result.bufferSize) (hroom : (left.data.length + right.data.length) * width ≤ result.bufferSize) :
    Normal width (multiply width left right result) ∧
      (multiply width left right result).toInt width = left.toInt width * right.toInt width := by
  obtain ⟨hlength, hdigits, hvalue, -⟩ := multiply_value hw hl hr
  have hpos := List.length_pos_of_ne_nil (proper_ne_nil hl.proper)
  have hsum : 0 < left.data.length + right.data.length := by omega
  rw [← hlength] at hsum
  unfold multiply
  refine ⟨normal_adjust hw hdigits (List.ne_nil_of_length_pos hsum) hwhole ?_, ?_⟩
  · exact hlength.symm ▸ hroom
  · rw [toInt_adjust hw]
    unfold SignedNumber.toInt
    simp only [hvalue]
    cases left.isNegative <;> cases right.isNegative <;> simp

/-! ### Squaring -/

/-- Half of what the square has off its diagonal. --/
def offDiagonal (b : Nat) : List Nat → Nat
  | [] => 0
  | v :: vs => b * (v * ofDigits b vs) + b ^ 2 * offDiagonal b vs

/-- What the square has on its diagonal. --/
def diagonal (b : Nat) : List Nat → Nat
  | [] => 0
  | v :: vs => v * v + b ^ 2 * diagonal b vs

theorem square_eq (b : Nat) : ∀ vs : List Nat, ofDigits b vs * ofDigits b vs = 2 * offDiagonal b vs + diagonal b vs
  | [] => by simp [offDiagonal, diagonal]
  | v :: vs => by
    rw [ofDigits_cons, offDiagonal, diagonal]
    calc _ = v * v + 2 * (b * (v * ofDigits b vs)) + b ^ 2 * (ofDigits b vs * ofDigits b vs) := by ring
      _ = _ := by rw [square_eq b vs]; ring

theorem squareRows_spec (hb : 2 ≤ b) : ∀ {V T : List Nat}, (∀ d ∈ V, d < b) → (∀ d ∈ T, d < b) → T.length = V.length →
    (squareRows b V (T ++ List.replicate V.length 0)).length = 2 * V.length ∧
      (∀ d ∈ squareRows b V (T ++ List.replicate V.length 0), d < b) ∧
      ofDigits b (squareRows b V (T ++ List.replicate V.length 0)) = offDiagonal b V + ofDigits b T ∧
      ∀ p ∈ squareRowProducts b V (T ++ List.replicate V.length 0), p < b ^ 2
  | [], [], _, _, _ => by simp [squareRows, squareRowProducts, offDiagonal]
  | v :: vs, t :: ts, hv, ht, hlen => by
    have hv' : ∀ d ∈ vs, d < b := fun d hd => hv d (List.mem_cons_of_mem _ hd)
    have ht' : ∀ d ∈ ts, d < b := fun d hd => ht d (List.mem_cons_of_mem _ hd)
    obtain ⟨out, hout, hcount, hdigits, hvalue⟩ := multiplyRow_spec hb (hv v List.mem_cons_self) (t := 0)
      (s := List.replicate vs.length 0) (p := 0) (R := vs) (T := ts) (by rw [Nat.zero_div]; omega) hv' ht'
      (by simpa using hlen)
    cases out with
    | nil => simp at hcount
    | cons d ds =>
      obtain ⟨hcount', hdigits', hrest, hproducts⟩ := squareRows_spec hb (V := vs) (T := ds) hv'
        (fun e he => hdigits e (List.mem_cons_of_mem _ he)) (by simpa using hcount)
      rw [List.length_cons, List.replicate_succ, List.cons_append, squareRows, squareRowProducts, hout]
      simp only [List.cons_append, List.headD_cons, List.tail_cons]
      refine ⟨by simp only [List.length_cons, hcount']; omega, ?_, ?_, ?_⟩
      · intro e he
        rcases List.mem_cons.mp he with rfl | he
        · exact ht e List.mem_cons_self
        rcases List.mem_cons.mp he with rfl | he
        · exact hdigits e List.mem_cons_self
        · exact hdigits' e he
      · rw [ofDigits_cons, Nat.zero_div, Nat.zero_add] at hvalue
        rw [ofDigits_cons, ofDigits_cons, hrest, offDiagonal, ofDigits_cons]
        calc _ = t + b * (d + b * ofDigits b ds) + b ^ 2 * offDiagonal b vs := by ring
          _ = _ := by rw [hvalue]; ring
      · intro p hmem
        rcases List.mem_append.mp hmem with hmem | hmem
        · refine rowProducts_lt hb (hv v List.mem_cons_self) (by rw [Nat.zero_div]; omega) hv' ?_ p hmem
          intro e he
          rcases List.mem_append.mp he with he | he
          · exact ht' e he
          · rcases List.mem_cons.mp he with rfl | he
            · omega
            · rw [List.eq_of_mem_replicate he]
              omega
        · exact hproducts p hmem

/-! ### Shifting -/

theorem radix_split {bits shift : Nat} (hshift : shift ≤ bits) : 2 ^ bits = 2 ^ (bits - shift) * 2 ^ shift := by
  rw [← Nat.pow_add, Nat.sub_add_cancel hshift]

/-- One digit moved up. --/
theorem shiftLeft_digit {bits shift below d : Nat} (hshift : shift ≤ bits) (hbelow : below < 2 ^ shift) :
    ((d <<< shift) % 2 ^ bits ||| below) + 2 ^ bits * (d >>> (bits - shift)) = below + 2 ^ shift * d ∧
      ((d <<< shift) % 2 ^ bits ||| below) < 2 ^ bits := by
  have hsplit := radix_split hshift
  have hlow : (d <<< shift) % 2 ^ bits = 2 ^ shift * (d % 2 ^ (bits - shift)) := by
    rw [Nat.shiftLeft_eq, hsplit, Nat.mul_mod_mul_right, Nat.mul_comm]
  have hdm := Nat.mod_add_div d (2 ^ (bits - shift))
  have hmod := Nat.mod_lt d (show 0 < 2 ^ (bits - shift) by exact Nat.pow_pos (by decide))
  rw [hlow, ← Nat.two_pow_add_eq_or_of_lt hbelow, Nat.shiftRight_eq_div_pow, hsplit]
  constructor
  · calc _ = below + 2 ^ shift * (d % 2 ^ (bits - shift) + 2 ^ (bits - shift) * (d / 2 ^ (bits - shift))) := by ring
      _ = _ := by rw [hdm]
  · calc _ < 2 ^ shift * (d % 2 ^ (bits - shift)) + 2 ^ shift := by omega
      _ = 2 ^ shift * (d % 2 ^ (bits - shift) + 1) := by ring
      _ ≤ 2 ^ shift * 2 ^ (bits - shift) := Nat.mul_le_mul_left _ hmod
      _ = _ := Nat.mul_comm _ _

theorem top_bits_lt {bits shift d : Nat} (hshift : shift ≤ bits) (hd : d < 2 ^ bits) : d >>> (bits - shift) <
    2 ^ shift := by
  rw [Nat.shiftRight_eq_div_pow]
  refine Nat.div_lt_of_lt_mul ?_
  rw [← radix_split hshift]
  exact hd

theorem shiftLeftDigits_spec {n shift : Nat} (hshift : shift ≤ n) : ∀ {l : Nat} {X : List Nat}, l < 2 ^ shift →
    (∀ d ∈ X, d < 2 ^ n) →
    (shiftLeftDigits n shift l X).length = X.length + 1 ∧ (∀ d ∈ shiftLeftDigits n shift l X, d < 2 ^ n) ∧
      ofDigits (2 ^ n) (shiftLeftDigits n shift l X) = l + 2 ^ shift * ofDigits (2 ^ n) X
  | below, [], hbelow, _ => by
    have hle : 2 ^ shift ≤ 2 ^ n := Nat.pow_le_pow_right (by decide) hshift
    refine ⟨rfl, fun d hd => ?_, by simp [shiftLeftDigits]⟩
    obtain rfl := List.mem_singleton.mp hd
    omega
  | below, d :: ds, hbelow, hx => by
    obtain ⟨hdigit, hlt⟩ := shiftLeft_digit (d := d) hshift hbelow
    obtain ⟨hlength, hdigits, hvalue⟩ := shiftLeftDigits_spec hshift (top_bits_lt hshift (hx d List.mem_cons_self))
      (X := ds) fun e he => hx e (List.mem_cons_of_mem _ he)
    rw [shiftLeftDigits]
    refine ⟨by rw [List.length_cons, hlength, List.length_cons], ?_, ?_⟩
    · intro e he
      rcases List.mem_cons.mp he with rfl | he
      · exact hlt
      · exact hdigits e he
    · rw [ofDigits_cons, hvalue, ofDigits_cons]
      calc _ = ((d <<< shift) % 2 ^ n ||| below) + 2 ^ n * (d >>> (n - shift)) +
            2 ^ n * (2 ^ shift * ofDigits (2 ^ n) ds) := by ring
        _ = _ := by rw [hdigit]; ring

/-- Digits whose top one is zero stand for the same number without it. --/
theorem value_dropLast {xs : List Nat} (htop : xs.getLastD 0 = 0) : ofDigits b xs.dropLast = ofDigits b xs := by
  rcases List.eq_nil_or_concat xs with rfl | ⟨ys, d, rfl⟩
  · rfl
  · obtain rfl : d = 0 := by simpa using htop
    rw [List.concat_eq_append, List.dropLast_concat, ofDigits_append, ofDigits_singleton, Nat.mul_zero, Nat.add_zero]

/-- A number below the radix to a length has a top digit of zero in one more. --/
theorem top_eq_zero {xs : List Nat} {n : Nat} (hlength : xs.length = n + 1) (hlt : ofDigits b xs < b ^ n) :
    xs.getLastD 0 = 0 := by
  rcases List.eq_nil_or_concat xs with rfl | ⟨ys, d, rfl⟩
  · rfl
  · rw [List.concat_eq_append] at hlength hlt ⊢
    rw [List.length_append, List.length_singleton] at hlength
    rw [ofDigits_append, ofDigits_singleton, show ys.length = n by omega] at hlt
    by_contra hd
    have hd : 0 < d := Nat.pos_of_ne_zero (by simpa using hd)
    have hmul : b ^ n * 1 ≤ b ^ n * d := Nat.mul_le_mul_left _ hd
    omega

theorem shiftLeft_spec (hw : 0 < width) {shift : Nat} (hshift : shift < 8 * width) (hx : Normal width x)
    (hroom : (x.data.length + 1) * width ≤ x.bufferSize) :
    Normal width (shiftLeft width x shift) ∧ (shiftLeft width x shift).toInt width = x.toInt width * 2 ^ shift := by
  have hb := two_le_digitRadix hw
  obtain ⟨hlength, hdigits, hvalue⟩ := shiftLeftDigits_spec (n := 8 * width) (l := 0) (X := x.data) hshift.le
    (Nat.pow_pos (by decide)) hx.proper.digits
  have hne := proper_ne_nil hx.proper
  have hpos := List.length_pos_of_ne_nil hne
  have htop := hx.proper.top hb
  have hpow : 1 ≤ 2 ^ shift := Nat.pow_pos (by decide)
  have hmore : ofDigits (digitRadix width) x.data ≤ 2 ^ shift * ofDigits (digitRadix width) x.data :=
    Nat.le_mul_of_pos_left _ hpow
  rw [Nat.zero_add] at hvalue
  unfold shiftLeft
  dsimp only
  generalize hmoved : shiftLeftDigits (8 * width) shift 0 x.data = moved at *
  have hnormal : ∀ {ys : List Nat}, (∀ d ∈ ys, d < digitRadix width) → ys.length * width ≤ x.bufferSize →
      (ys.length = 1 ∨ 0 < ys.length ∧ digitRadix width ^ (ys.length - 1) ≤ ofDigits (digitRadix width) ys) →
      ofDigits (digitRadix width) ys = 2 ^ shift * ofDigits (digitRadix width) x.data →
      Normal width { x with data := ys } ∧ ({ x with data := ys } : SignedNumber).toInt width =
        x.toInt width * 2 ^ shift := by
    intro ys hys hfit htop' heq
    refine ⟨⟨proper_of_top hb hys htop', fun h => ?_, hx.whole, hfit⟩, ?_⟩
    · have := hx.sign h
      rw [heq]
      omega
    · unfold SignedNumber.toInt
      simp only [heq]
      split <;> push_cast <;> ring
  split
  · rename_i hlast
    refine hnormal hdigits (hlength ▸ hroom) (.inr ⟨by omega, ?_⟩) hvalue
    by_contra hlt
    rw [hlength, Nat.add_sub_cancel] at hlt
    exact hlast (top_eq_zero hlength (Nat.lt_of_not_le hlt))
  · rename_i hlast
    have hlast : moved.getLastD 0 = 0 := by simpa using hlast
    have hcount : moved.dropLast.length = x.data.length := by
      rw [List.length_dropLast, hlength]
      omega
    have heq : ofDigits (digitRadix width) moved.dropLast = 2 ^ shift * ofDigits (digitRadix width) x.data :=
      (value_dropLast hlast).trans hvalue
    refine hnormal (fun d hd => hdigits d (List.dropLast_subset _ hd)) (by rw [hcount]; exact hx.fits) ?_ heq
    rw [hcount, heq]
    exact htop.imp id fun h => ⟨hpos, h.trans hmore⟩

/-- One digit moved down. --/
theorem shiftRight_digit {bits shift e v : Nat} (hshift : shift ≤ bits) (d : Nat) (hd : d < 2 ^ bits)
    (he : v % 2 ^ shift = e % 2 ^ shift) :
    ((e <<< (bits - shift)) % 2 ^ bits ||| d >>> shift) + 2 ^ bits * (v / 2 ^ shift) = (d + 2 ^ bits * v) / 2 ^ shift ∧
      ((e <<< (bits - shift)) % 2 ^ bits ||| d >>> shift) < 2 ^ bits := by
  have hsplit := radix_split hshift
  have hhigh : (e <<< (bits - shift)) % 2 ^ bits = 2 ^ (bits - shift) * (e % 2 ^ shift) := by
    rw [Nat.shiftLeft_eq, hsplit, Nat.mul_comm e, Nat.mul_mod_mul_left]
  have hlow : d >>> shift < 2 ^ (bits - shift) := by
    rw [Nat.shiftRight_eq_div_pow]
    refine Nat.div_lt_of_lt_mul ?_
    rw [Nat.mul_comm, ← hsplit]
    exact hd
  have hdm := Nat.mod_add_div v (2 ^ shift)
  have hmod := Nat.mod_lt e (show 0 < 2 ^ shift by exact Nat.pow_pos (by decide))
  rw [hhigh, ← Nat.two_pow_add_eq_or_of_lt hlow]
  constructor
  · have hdiv : (d + 2 ^ bits * v) / 2 ^ shift = d >>> shift + 2 ^ (bits - shift) * v := by
      rw [Nat.shiftRight_eq_div_pow, hsplit, show 2 ^ (bits - shift) * 2 ^ shift * v =
        2 ^ shift * (2 ^ (bits - shift) * v) by ring,
        Nat.add_mul_div_left _ _ (Nat.pow_pos (by decide))]
    rw [hdiv, ← he, hsplit]
    calc _ = d >>> shift + 2 ^ (bits - shift) * (v % 2 ^ shift + 2 ^ shift * (v / 2 ^ shift)) := by ring
      _ = _ := by rw [hdm]
  · rw [hsplit]
    calc _ < 2 ^ (bits - shift) * (e % 2 ^ shift) + 2 ^ (bits - shift) := by omega
      _ = 2 ^ (bits - shift) * (e % 2 ^ shift + 1) := by ring
      _ ≤ _ := Nat.mul_le_mul_left _ hmod

theorem shiftRightDigits_spec {n shift : Nat} (hshift : shift ≤ n) : ∀ {X : List Nat}, (∀ d ∈ X, d < 2 ^ n) →
    (shiftRightDigits n shift X).length = X.length ∧ (∀ d ∈ shiftRightDigits n shift X, d < 2 ^ n) ∧
      ofDigits (2 ^ n) (shiftRightDigits n shift X) = ofDigits (2 ^ n) X / 2 ^ shift
  | [], _ => by simp [shiftRightDigits]
  | [d], hx => by
    have hd := hx d List.mem_cons_self
    have hle : d >>> shift ≤ d := Nat.shiftRight_le d shift
    refine ⟨rfl, fun e he => ?_, ?_⟩
    · obtain rfl := List.mem_singleton.mp he
      omega
    · rw [shiftRightDigits, ofDigits_singleton, ofDigits_singleton, Nat.shiftRight_eq_div_pow]
  | d :: e :: ds, hx => by
    obtain ⟨hlength, hdigits, hvalue⟩ := shiftRightDigits_spec hshift (X :=
      e :: ds) fun f hf => hx f (List.mem_cons_of_mem _ hf)
    have hlow : ofDigits (2 ^ n) (e :: ds) % 2 ^ shift = e % 2 ^ shift := by
      rw [ofDigits_cons, radix_split hshift, show 2 ^ (n - shift) * 2 ^ shift * ofDigits (2 ^ (n - shift) * 2 ^ shift)
        ds =
        2 ^ shift * (2 ^ (n - shift) * ofDigits (2 ^ (n - shift) * 2 ^ shift) ds) by ring, Nat.add_mul_mod_self_left]
    obtain ⟨hdigit, hlt⟩ := shiftRight_digit hshift d (hx d List.mem_cons_self) hlow
    rw [shiftRightDigits]
    refine ⟨congrArg (· + 1) hlength, ?_, ?_⟩
    · intro f hf
      rcases List.mem_cons.mp hf with rfl | hf
      · exact hlt
      · exact hdigits f hf
    · rw [ofDigits_cons, hvalue, hdigit, ← ofDigits_cons]

/-- The integer is divided towards zero. --/
theorem shiftRight_spec (hw : 0 < width) {shift : Nat} (hshift : shift < 8 * width) (hx : Normal width x) :
    Normal width (shiftRight width x shift) ∧ (shiftRight width x shift).toInt width =
      (x.toInt width).tdiv (2 ^ shift) := by
  obtain ⟨hlength, hdigits, hvalue⟩ := shiftRightDigits_spec (n := 8 * width) (X := x.data) hshift.le hx.proper.digits
  have hpos := List.length_pos_of_ne_nil (proper_ne_nil hx.proper)
  unfold shiftRight
  refine ⟨normal_adjust hw hdigits (List.ne_nil_of_length_pos (by rw [hlength]; exact hpos)) hx.whole ?_, ?_⟩
  · exact hlength.symm ▸ hx.fits
  · rw [toInt_adjust hw]
    unfold SignedNumber.toInt
    have h : ofDigits (digitRadix width) (shiftRightDigits (8 * width) shift x.data) =
        ofDigits (digitRadix width) x.data / 2 ^ shift := hvalue
    simp only [h]
    split
    · rw [Int.neg_tdiv, Int.ofNat_tdiv]
      push_cast
      rfl
    · rw [Int.ofNat_tdiv]
      push_cast
      rfl

/-- The last loop of the squaring: what it leaves, and the carry past its end. --/
theorem squareSums_spec (hb : 2 ≤ b) : ∀ {p : Nat} {V R : List Nat}, p / b ≤ 1 → (∀ d ∈ V, d < b) →
    (∀ d ∈ R, d < b) → R.length = 2 * V.length →
    (squareSums b p V R).length = 2 * V.length ∧ (∀ q ∈ squareSums b p V R, q < b ^ 2) ∧
      ∃ carry, ofDigits b ((squareSums b p V R).map (· % b)) + b ^ (2 * V.length) * carry =
        p / b + ofDigits b R + diagonal b V
  | product, [], rs, _, _, _, hlen => by
    obtain rfl : rs = [] := List.eq_nil_of_length_eq_zero (by simpa using hlen)
    exact ⟨rfl, by simp [squareSums], product / b, by simp [squareSums, diagonal]⟩
  | _, _ :: _, [], _, _, _, hlen => by simp at hlen
  | _, v :: vs, [_], _, _, _, hlen => by
    rw [List.length_cons, List.length_cons, List.length_nil] at hlen
    omega
  | product, v :: vs, r :: s :: rs, hp, hv, hr, hlen => by
    have hv' := hv v List.mem_cons_self
    have hs := hr s (List.mem_cons_of_mem _ List.mem_cons_self)
    have heven : product / b + (v * v + r) < b ^ 2 := product_lt (by omega) hv' hv' (hr r List.mem_cons_self)
    rw [Nat.add_comm (v * v)] at heven
    have hcarry := carry_lt_radix heven
    have hsq : 2 * b ≤ b ^ 2 := by
      rw [Nat.pow_two]
      exact Nat.mul_le_mul_right _ hb
    have hodd : (product / b + (r + v * v)) / b + s < 2 * b := by omega
    have hlow : ((product / b + (r + v * v)) / b + s) / b < 2 := Nat.div_lt_of_lt_mul (by omega)
    obtain ⟨hlength, hsums, carry, hvalue⟩ := squareSums_spec hb (p := (product / b + (r + v * v)) / b + s) (V := vs)
      (R := rs) (by omega) (fun d hd => hv d (List.mem_cons_of_mem _ hd))
      (fun d hd => hr d (List.mem_cons_of_mem _ (List.mem_cons_of_mem _ hd)))
      (by simp only [List.length_cons] at hlen; omega)
    rw [squareSums]
    refine ⟨by simp only [List.length_cons, hlength]; omega, ?_, carry, ?_⟩
    · intro p hmem
      rcases List.mem_cons.mp hmem with rfl | hmem
      · exact heven
      rcases List.mem_cons.mp hmem with rfl | hmem
      · omega
      · exact hsums p hmem
    · have hdm := Nat.mod_add_div (product / b + (r + v * v)) b
      have hdm' := Nat.mod_add_div ((product / b + (r + v * v)) / b + s) b
      rw [diagonal, List.length_cons, Nat.mul_succ, Nat.pow_add]
      simp only [List.map_cons, ofDigits_cons]
      generalize hoddeq : (product / b + (r + v * v)) / b + s = odd at *
      generalize ofDigits b ((squareSums b odd vs rs).map (· % b)) = rest at *
      calc _ = (product / b + (r + v * v)) % b + b * (odd % b) + b ^ 2 * (rest + b ^ (2 * vs.length) * carry) := by ring
        _ = (product / b + (r + v * v)) % b + b * (odd % b + b * (odd / b)) + b ^ 2 * ofDigits b rs +
          b ^ 2 * diagonal b vs := by
          rw [hvalue]
          ring
        _ = _ := by
          rw [hdm', ← hoddeq]
          calc _ = (product / b + (r + v * v)) % b + b * ((product / b + (r + v * v)) / b) + b * s +
            b ^ 2 * ofDigits b rs +
                b ^ 2 * diagonal b vs := by ring
            _ = _ := by
              rw [hdm]
              ring

/-- The square of the magnitude in a buffer of its own. --/
theorem square_value (hw : 0 < width) (hx : Normal width x) :
    let sums := squareSums (digitRadix width) 0 x.data (squareDoubled width x.data)
    sums.length = 2 * x.data.length ∧ (∀ p ∈ sums, p < digitRadix width ^ 2) ∧
      ofDigits (digitRadix width) (sums.map (· % digitRadix width)) =
        ofDigits (digitRadix width) x.data * ofDigits (digitRadix width) x.data ∧
      ∀ p ∈ squareRowProducts (digitRadix width) x.data (List.replicate (2 * x.data.length) 0), p <
        digitRadix width ^ 2 := by
  have hb := two_le_digitRadix hw
  have hzero : ofDigits (digitRadix width) (List.replicate x.data.length 0) = 0 := by
    rw [← List.nil_append (List.replicate _ 0), ofDigits_append_replicate_zero, ofDigits_nil]
  obtain ⟨hlength, hdigits, hvalue, hproducts⟩ := squareRows_spec hb (V := x.data) (T := List.replicate x.data.length 0)
    hx.proper.digits (fun d hd => by rw [List.eq_of_mem_replicate hd]; omega) (List.length_replicate ..)
  rw [List.replicate_append_replicate, ← Nat.two_mul] at hlength hdigits hvalue hproducts
  rw [hzero, Nat.add_zero] at hvalue
  obtain ⟨hlength', hdigits', hvalue'⟩ := shiftLeftDigits_spec (n := 8 * width) (l := 0) (show 1 ≤ 8 * width by omega)
    (by decide) hdigits
  rw [hlength] at hlength'
  have hsquare := square_eq (digitRadix width) x.data
  have hlt := value_lt hb hx.proper.digits
  have hlt' : ofDigits (digitRadix width) x.data * ofDigits (digitRadix width) x.data <
      digitRadix width ^ (2 * x.data.length) := by
    rw [Nat.two_mul, Nat.pow_add]
    exact Nat.mul_lt_mul'' hlt hlt
  have hdoubled : ofDigits (digitRadix width)
      (shiftLeftDigits (8 * width) 1 0 (squareRows (digitRadix width) x.data (List.replicate (2 * x.data.length) 0))) =
        2 * offDiagonal (digitRadix width) x.data := by
    rw [← hvalue]
    exact hvalue'.trans (by rw [Nat.zero_add, Nat.pow_one]; rfl)
  have htop := top_eq_zero hlength' (hdoubled.trans_lt (by omega))
  have hrest : ofDigits (digitRadix width) (squareDoubled width x.data) = 2 * offDiagonal (digitRadix width) x.data :=
    (value_dropLast htop).trans hdoubled
  obtain ⟨hcount, hsums, carry, hsum⟩ := squareSums_spec hb (p := 0) (V := x.data) (R := squareDoubled width x.data)
    (by simp) hx.proper.digits (fun d hd => hdigits' d (List.dropLast_subset _ hd))
    (by unfold squareDoubled; rw [List.length_dropLast, hlength', Nat.add_sub_cancel])
  rw [Nat.zero_div, Nat.zero_add, hrest, ← hsquare] at hsum
  refine ⟨hcount, hsums, ?_, hproducts⟩
  rcases Nat.eq_zero_or_pos carry with rfl | hcarry
  · rw [Nat.mul_zero, Nat.add_zero] at hsum
    exact hsum
  · have hmul : digitRadix width ^ (2 * x.data.length) * 1 ≤ digitRadix width ^ (2 * x.data.length) * carry :=
      Nat.mul_le_mul_left _ hcarry
    omega

theorem square_spec (hw : 0 < width) {result : SignedNumber} (hx : Normal width x) (hwhole : width ∣ result.bufferSize)
    (hroom : 2 * x.data.length * width ≤ result.bufferSize) :
    Normal width (square width x result) ∧ (square width x result).toInt width = x.toInt width * x.toInt width := by
  obtain ⟨hlength, -, hvalue, -⟩ := square_value hw hx
  have hb := two_le_digitRadix hw
  have hpos := List.length_pos_of_ne_nil (proper_ne_nil hx.proper)
  have hcount : 0 < 2 * x.data.length := by omega
  rw [← hlength, ← List.length_map (· % digitRadix width)] at hcount
  unfold square
  refine ⟨normal_adjust hw ?_ (List.ne_nil_of_length_pos hcount) hwhole ?_, ?_⟩
  · intro d hd
    obtain ⟨p, -, rfl⟩ := List.mem_map.mp hd
    exact Nat.mod_lt _ (by omega)
  · rw [List.length_map, hlength]
    exact hroom
  · rw [toInt_adjust hw]
    unfold SignedNumber.toInt
    simp only [hvalue]
    cases x.isNegative <;> simp

/-- Two numbers in order that stand for one integer have the same digits and the same sign. --/
theorem Normal.unique (hw : 0 < width) {y : SignedNumber} (hx : Normal width x) (hy : Normal width y)
    (h : x.toInt width = y.toInt width) : x.data = y.data ∧ x.isNegative = y.isNegative := by
  have hb := two_le_digitRadix hw
  have hvalue : ofDigits (digitRadix width) x.data = ofDigits (digitRadix width) y.data := by
    rw [← natAbs_toInt, ← natAbs_toInt, h]
  have hlength : x.data.length = y.data.length :=
    Nat.le_antisymm (hx.proper.length_le_of_le hb hy.proper hvalue.le)
      (hy.proper.length_le_of_le hb hx.proper hvalue.ge)
  refine ⟨Nat.ofDigits_inj_of_len_eq (by omega) hlength hx.proper.digits hy.proper.digits hvalue, ?_⟩
  have hxs := hx.sign
  have hys := hy.sign
  unfold SignedNumber.toInt at h
  revert h hxs hys
  cases x.isNegative <;> cases y.isNegative
  · simp
  · simp
  · simp
    omega
  · simp

end

end Netxduo.Crypto
