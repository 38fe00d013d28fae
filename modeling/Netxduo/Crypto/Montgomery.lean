import Netxduo.Crypto.HugeNumber
import Netxduo.Library.Montgomery

/-! Modular exponentiation over huge numbers, by Montgomery's multiplication. -/

namespace Netxduo.Crypto
open Nat Montgomery

/-! ### The source -/

/-- `r = r + x[i] * y`: the digits, and the carry out of the last one, which is dropped. --/
def mulAdd (b : Nat) : Nat → Nat → List Nat → List Nat → List Nat × Nat
  | carry, _, _, [] => ([], carry)
  | carry, xi, [], r :: rs =>
    let product := carry + r
    let rest := mulAdd b (product / b) xi [] rs
    (product % b :: rest.1, rest.2)
  | carry, xi, y :: ys, r :: rs =>
    let product := carry + r + xi * y
    let rest := mulAdd b (product / b) xi ys rs
    (product % b :: rest.1, rest.2)

/-- `r = (r + u * m) / radix`, from the second digit on. --/
def shiftAdd (b : Nat) : Nat → Nat → List Nat → List Nat → List Nat
  | carry, u, m :: ms, r :: rs =>
    let product := carry + r + u * m
    product % b :: shiftAdd b (product / b) u ms rs
  | carry, _, [], r :: _ =>
    let product := carry + r
    [product % b, product / b]
  | _, _, _, [] => []

/-- The second half of a round. --/
def reduce (b mi : Nat) (m r : HugeNumber) : HugeNumber :=
  let u := r.headD 0 * mi % b
  let product := r.headD 0 + u * m.headD 0
  shiftAdd b (product / b) u m.tail r.tail

/-- A round of the first loop. --/
def montRound (b mi : Nat) (m y r : HugeNumber) (xi : Nat) : HugeNumber := reduce b mi m (mulAdd b 0 xi y r).1

/-- `_nx_crypto_huge_number_mont` --/
def mont (b : Nat) (m : HugeNumber) (mi : Nat) (x y : HugeNumber) : HugeNumber :=
  let result := x.foldl (montRound b mi m y) (List.replicate (m.length + 1) 0)
  let result := (List.replicate (m.length - x.length) ()).foldl (fun r _ => reduce b mi m r) result
  let result := adjustSize result
  if compareUnsigned result m ≠ .lt then subtract b result m else result

/-- The carries out of the accumulator, which the rounds of the first loop drop. --/
def droppedCarries (b mi : Nat) (m y : HugeNumber) : List Nat → HugeNumber → List Nat
  | [], _ => []
  | xi :: xs, r => (mulAdd b 0 xi y r).2 :: droppedCarries b mi m y xs (montRound b mi m y r xi)

/-! ### The digits of a round -/

section
variable {b mi carry xi u : Nat} {m y r ms ys rs : List Nat}

theorem carry_lt {c d u e : Nat} (hc : c < b) (hd : d < b) (hu : u < b) (he : e < b) : (c + d + u * e) / b < b := by
  refine Nat.div_lt_of_lt_mul ?_
  have hmul : u * e ≤ (b - 1) * (b - 1) := Nat.mul_le_mul (by omega) (by omega)
  obtain ⟨k, rfl⟩ : ∃ k, b = k + 1 := ⟨b - 1, by omega⟩
  rw [Nat.add_sub_cancel] at hmul
  have hsq : (k + 1) * (k + 1) = k * k + 2 * k + 1 := by ring
  omega

theorem mulAdd_digits (hb : 0 < b) : ∀ (carry xi : Nat) (ys rs : List Nat), ∀ d ∈ (mulAdd b carry xi ys rs).1, d < b
  | _, _, [], [] => by simp [mulAdd]
  | _, _, _ :: _, [] => by simp [mulAdd]
  | carry, xi, [], r :: rs => by
    intro d hd
    rw [mulAdd, List.mem_cons] at hd
    rcases hd with rfl | hd
    · exact Nat.mod_lt _ hb
    · exact mulAdd_digits hb _ _ _ _ d hd
  | carry, xi, y :: ys, r :: rs => by
    intro d hd
    rw [mulAdd, List.mem_cons] at hd
    rcases hd with rfl | hd
    · exact Nat.mod_lt _ hb
    · exact mulAdd_digits hb _ _ _ _ d hd

theorem mulAdd_length : ∀ (carry xi : Nat) (ys rs : List Nat), (mulAdd b carry xi ys rs).1.length = rs.length
  | _, _, [], [] => by simp [mulAdd]
  | _, _, _ :: _, [] => by simp [mulAdd]
  | carry, xi, [], r :: rs => by
    rw [mulAdd, List.length_cons, mulAdd_length, List.length_cons]
  | carry, xi, y :: ys, r :: rs => by
    rw [mulAdd, List.length_cons, mulAdd_length, List.length_cons]

/-- Digits and dropped carry are the sum. --/
theorem value_mulAdd : ∀ (carry xi : Nat) (ys rs : List Nat), ys.length ≤ rs.length →
    ofDigits b (mulAdd b carry xi ys rs).1 + b ^ rs.length * (mulAdd b carry xi ys rs).2 =
      ofDigits b rs + xi * ofDigits b ys + carry
  | carry, xi, [], [], _ => by simp [mulAdd]
  | carry, xi, [], r :: rs, _ => by
    have ih := value_mulAdd ((carry + r) / b) xi [] rs (Nat.zero_le _)
    have hdm := Nat.div_add_mod (carry + r) b
    simp only [mulAdd, ofDigits_cons, ofDigits_nil, List.length_cons, Nat.pow_succ, Nat.mul_zero, Nat.add_zero] at ih ⊢
    calc _ = (carry + r) % b + b * (ofDigits b (mulAdd b ((carry + r) / b) xi [] rs).1 +
          b ^ rs.length * (mulAdd b ((carry + r) / b) xi [] rs).2) := by ring
      _ = (b * ((carry + r) / b) + (carry + r) % b) + b * ofDigits b rs := by
        rw [ih]
        ring
      _ = _ := by
        rw [hdm]
        ring
  | carry, xi, y :: ys, r :: rs, hlen => by
    have ih := value_mulAdd ((carry + r + xi * y) / b) xi ys rs (by simpa using hlen)
    have hdm := Nat.div_add_mod (carry + r + xi * y) b
    simp only [mulAdd, ofDigits_cons, List.length_cons, Nat.pow_succ]
    calc _ = (carry + r + xi * y) % b + b * (ofDigits b (mulAdd b ((carry + r + xi * y) / b) xi ys rs).1 +
          b ^ rs.length * (mulAdd b ((carry + r + xi * y) / b) xi ys rs).2) := by ring
      _ = (b * ((carry + r + xi * y) / b) + (carry + r + xi * y) % b) + b * (ofDigits b rs + xi * ofDigits b ys) := by
        rw [ih]
        ring
      _ = _ := by
        rw [hdm]
        ring

/-- The shifted sum keeps every digit. --/
theorem value_shiftAdd : ∀ (carry u : Nat) (ms rs : List Nat), rs.length = ms.length + 1 →
    ofDigits b (shiftAdd b carry u ms rs) = carry + ofDigits b rs + u * ofDigits b ms
  | carry, u, [], [r], _ => by
    have hdm := Nat.div_add_mod (carry + r) b
    simp only [shiftAdd, ofDigits_cons, ofDigits_nil, Nat.mul_zero, Nat.add_zero]
    omega
  | carry, u, m :: ms, r :: rs, hlen => by
    have ih := value_shiftAdd ((carry + r + u * m) / b) u ms rs (by simpa using hlen)
    have hdm := Nat.div_add_mod (carry + r + u * m) b
    simp only [shiftAdd, ofDigits_cons]
    rw [ih]
    calc _ = (b * ((carry + r + u * m) / b) + (carry + r + u * m) % b) + b * (ofDigits b rs + u * ofDigits b ms) := by ring
      _ = _ := by
        rw [hdm]
        ring

theorem shiftAdd_length : ∀ {carry u : Nat} {ms rs : List Nat}, rs.length = ms.length + 1 →
    (shiftAdd b carry u ms rs).length = rs.length + 1
  | carry, u, [], [r], _ => rfl
  | carry, u, m :: ms, r :: rs, hlen => by
    rw [shiftAdd, List.length_cons, shiftAdd_length (by simpa using hlen), List.length_cons]

theorem shiftAdd_digits : ∀ {carry u : Nat} {ms rs : List Nat}, rs.length = ms.length + 1 → carry < b → u < b →
    (∀ d ∈ ms, d < b) → (∀ d ∈ rs, d < b) → ∀ d ∈ shiftAdd b carry u ms rs, d < b
  | carry, u, [], [r], _, hc, hu, _, hr, d, hd => by
    have hr' := hr r List.mem_cons_self
    rw [shiftAdd, List.mem_pair] at hd
    rcases hd with rfl | rfl
    · exact Nat.mod_lt _ (by omega)
    · have h := carry_lt (e := 0) hc hr' hu (by omega)
      simpa using h
  | carry, u, m :: ms, r :: rs, hlen, hc, hu, hm, hr, d, hd => by
    rw [shiftAdd, List.mem_cons] at hd
    rcases hd with rfl | hd
    · exact Nat.mod_lt _ (by omega)
    · exact shiftAdd_digits (by simpa using hlen)
        (carry_lt hc (hr r List.mem_cons_self) hu (hm m List.mem_cons_self)) hu
        (fun d hd => hm d (List.mem_cons_of_mem _ hd)) (fun d hd => hr d (List.mem_cons_of_mem _ hd)) d hd

/-! ### The rounds -/

/-- The accumulator has a digit more than the modulus, each below the radix. --/
structure Accumulator (b : Nat) (m r : List Nat) : Prop where
  length : r.length = m.length + 1
  digits : ∀ d ∈ r, d < b

/-- An odd modulus, with the digit that makes the lowest digit vanish. --/
structure Modulus (b mi : Nat) (m : HugeNumber) : Prop where
  proper : Proper b m
  radix : 2 ≤ b
  coprime : (ofDigits b m).Coprime b
  large : 1 < ofDigits b m
  inverse : (m.headD 0 * mi + 1) % b = 0

theorem Modulus.ne_nil (hm : Modulus b mi m) : m ≠ [] := by
  rintro rfl
  exact absurd hm.large (by simp)

/-- The second half of a round divides by the radix. --/
theorem reduce_spec (hm : Modulus b mi m) (hr : Accumulator b m r) : Accumulator b m (reduce b mi m r) ∧
    ∃ u < b, ofDigits b (reduce b mi m r) * b = ofDigits b r + u * ofDigits b m := by
  have hb := hm.radix
  have hmdigits := hm.proper.digits
  have hinv := hm.inverse
  obtain ⟨m₀, ms, rfl⟩ : ∃ m₀ ms, m = m₀ :: ms := List.exists_cons_of_ne_nil hm.ne_nil
  obtain ⟨hlen, hdigits⟩ := hr
  obtain ⟨r₀, rs, rfl⟩ : ∃ r₀ rs, r = r₀ :: rs := List.exists_cons_of_length_eq_add_one hlen
  have hlen' : rs.length = ms.length + 1 := by simpa using hlen
  unfold reduce
  simp only [List.headD_cons, List.tail_cons] at hinv ⊢
  have hu : r₀ * mi % b < b := Nat.mod_lt _ (by omega)
  have hzero : (r₀ + r₀ * mi % b * m₀) % b = 0 := by
    have hmod : r₀ + r₀ * mi % b * m₀ ≡ r₀ * (m₀ * mi + 1) [MOD b] :=
      calc r₀ + r₀ * mi % b * m₀ ≡ r₀ + r₀ * mi * m₀ [MOD b] :=
            Nat.ModEq.add_left _ (Nat.ModEq.mul_right _ (Nat.mod_modEq _ _))
        _ = r₀ * (m₀ * mi + 1) := by ring
    have hdvd : b ∣ r₀ * (m₀ * mi + 1) := Dvd.dvd.mul_left (Nat.dvd_of_mod_eq_zero hinv) _
    exact Nat.mod_eq_zero_of_dvd (Nat.modEq_zero_iff_dvd.mp (hmod.trans (Nat.modEq_zero_iff_dvd.mpr hdvd)))
  have hdm := Nat.div_add_mod (r₀ + r₀ * mi % b * m₀) b
  rw [hzero, Nat.add_zero] at hdm
  have hcarry : (r₀ + r₀ * mi % b * m₀) / b < b := by
    have h := carry_lt (b := b) (c := 0) (by omega) (hdigits r₀ List.mem_cons_self) hu (hmdigits m₀ List.mem_cons_self)
    rwa [Nat.zero_add] at h
  refine ⟨⟨?_, ?_⟩, r₀ * mi % b, hu, ?_⟩
  · rw [shiftAdd_length hlen', List.length_cons, hlen']
  · exact shiftAdd_digits hlen' hcarry hu (fun d hd => hmdigits d (List.mem_cons_of_mem _ hd))
      fun d hd => hdigits d (List.mem_cons_of_mem _ hd)
  · rw [value_shiftAdd _ _ _ _ hlen', ofDigits_cons, ofDigits_cons]
    calc _ = b * ((r₀ + r₀ * mi % b * m₀) / b) + b * (ofDigits b rs + r₀ * mi % b * ofDigits b ms) := by ring
      _ = _ := by
        rw [hdm]
        ring

/-- A round is right as long as no carry is dropped. --/
theorem montRound_spec (hm : Modulus b mi m) (hr : Accumulator b m r) (hy : y.length ≤ m.length)
    (hcarry : (mulAdd b 0 xi y r).2 = 0) : Accumulator b m (montRound b mi m y r xi) ∧
      ∃ u < b, ofDigits b (montRound b mi m y r xi) * b = ofDigits b r + xi * ofDigits b y + u * ofDigits b m := by
  have hb := hm.radix
  have hacc : Accumulator b m (mulAdd b 0 xi y r).1 :=
    ⟨(mulAdd_length _ _ _ _).trans hr.length, mulAdd_digits (by omega) _ _ _ _⟩
  have hvalue := value_mulAdd (b := b) 0 xi y r (by rw [hr.length]; omega)
  rw [hcarry, Nat.mul_zero, Nat.add_zero, Nat.add_zero] at hvalue
  obtain ⟨hacc', u, hu, hred⟩ := reduce_spec hm hacc
  rw [hvalue] at hred
  exact ⟨hacc', u, hu, hred⟩

/-- The carry is dropped just where the sum does not fit. --/
theorem carry_zero_iff (hb : 2 ≤ b) (hr : r.length = m.length + 1) (hy : y.length ≤ m.length) :
    (mulAdd b 0 xi y r).2 = 0 ↔ ofDigits b r + xi * ofDigits b y < b ^ (m.length + 1) := by
  have hvalue := value_mulAdd (b := b) 0 xi y r (by omega)
  have hlow := value_lt (x := (mulAdd b 0 xi y r).1) hb (mulAdd_digits (by omega) _ _ _ _)
  rw [mulAdd_length] at hlow
  rw [Nat.add_zero] at hvalue
  rw [← hr, ← hvalue]
  constructor
  · intro hzero
    rw [hzero]
    omega
  · intro hlt
    by_contra hne
    have hmul : b ^ r.length * 1 ≤ b ^ r.length * (mulAdd b 0 xi y r).2 := Nat.mul_le_mul_left _ (by omega)
    omega

/-- The rounds of the first loop, where no carry is dropped. --/
theorem rounds_spec (hm : Modulus b mi m) (hy : y.length ≤ m.length) : ∀ {xs r : List Nat} {i X : Nat},
    Accumulator b m r → Reduced b (ofDigits b m) (ofDigits b y) i X (ofDigits b r) →
    (∀ c ∈ droppedCarries b mi m y xs r, c = 0) → Accumulator b m (xs.foldl (montRound b mi m y) r) ∧
      Reduced b (ofDigits b m) (ofDigits b y) (i + xs.length) (X + b ^ i * ofDigits b xs)
        (ofDigits b (xs.foldl (montRound b mi m y) r))
  | [], r, i, X, hr, hred, _ => by
    simpa using ⟨hr, hred⟩
  | d :: ds, r, i, X, hr, hred, hcarries => by
    obtain ⟨hacc, u, hu, hround⟩ := montRound_spec hm hr hy (hcarries _ List.mem_cons_self)
    obtain ⟨hacc', hred'⟩ := rounds_spec hm hy hacc (hred.next hu hround) fun c hc => hcarries c (List.mem_cons_of_mem _ hc)
    refine ⟨hacc', ?_⟩
    rw [List.length_cons, ofDigits_cons, show i + (ds.length + 1) = i + 1 + ds.length by omega,
      show X + b ^ i * (d + b * ofDigits b ds) = X + d * b ^ i + b ^ (i + 1) * ofDigits b ds by ring]
    exact hred'

/-- No carry is dropped just where every sum of the first loop fits. --/
theorem carries_iff (hm : Modulus b mi m) (hy : y.length ≤ m.length) : ∀ {xs r : List Nat} {i X : Nat},
    Accumulator b m r → Reduced b (ofDigits b m) (ofDigits b y) i X (ofDigits b r) →
    ((∀ c ∈ droppedCarries b mi m y xs r, c = 0) ↔ ∀ j < xs.length, ∀ U < b ^ (i + j),
      b ^ (i + j) ∣ (X + b ^ i * ofDigits b (xs.take j)) * ofDigits b y + U * ofDigits b m →
        (X + b ^ i * ofDigits b (xs.take (j + 1))) * ofDigits b y + U * ofDigits b m < b ^ (m.length + 1 + (i + j)))
  | [], r, i, X, _, _ => by
    simp [droppedCarries]
  | d :: ds, r, i, X, hr, hred => by
    have hb := hm.radix
    have hfirst := (@carry_zero_iff b d m y r hb hr.length hy).trans
      (hred.add_lt_iff (d := d) (k := m.length + 1) (by omega) hm.coprime)
    have hstep : ∀ zs : List Nat, X + b ^ i * ofDigits b (d :: zs) = X + d * b ^ i + b ^ (i + 1) * ofDigits b zs := by
      intro zs
      rw [ofDigits_cons]
      ring
    have hzero : X + b ^ i * ofDigits b ((d :: ds).take 0) = X := by simp
    have hone : X + b ^ i * ofDigits b ((d :: ds).take 1) = X + d * b ^ i := by
      rw [List.take_succ_cons, hstep]
      simp
    rw [droppedCarries, List.forall_mem_cons]
    constructor
    · rintro ⟨hcarry, hmore⟩ j hj
      obtain ⟨hacc, u, hu, hround⟩ := montRound_spec hm hr hy hcarry
      have hrest := (carries_iff hm hy hacc (hred.next hu hround)).mp hmore
      cases j with
      | zero =>
        rw [hzero, hone]
        exact hfirst.mp hcarry
      | succ j =>
        have h := hrest j (by simpa using hj)
        rw [List.take_succ_cons, List.take_succ_cons, hstep, hstep, show i + (j + 1) = i + 1 + j by omega]
        exact h
    · intro hall
      have hcarry : (mulAdd b 0 d y r).2 = 0 := by
        have h := hall 0 (by simp)
        rw [hzero, hone] at h
        exact hfirst.mpr h
      obtain ⟨hacc, u, hu, hround⟩ := montRound_spec hm hr hy hcarry
      refine ⟨hcarry, (carries_iff hm hy hacc (hred.next hu hround)).mpr fun j hj => ?_⟩
      have h := hall (j + 1) (by simpa using hj)
      rw [List.take_succ_cons, List.take_succ_cons, hstep, hstep, show i + (j + 1) = i + 1 + j by omega] at h
      exact h

/-- The rounds of the second loop. --/
theorem tail_spec (hm : Modulus b mi m) : ∀ {k i X : Nat} {r : List Nat}, Accumulator b m r →
    Reduced b (ofDigits b m) (ofDigits b y) i X (ofDigits b r) →
    Accumulator b m ((List.replicate k ()).foldl (fun r _ => reduce b mi m r) r) ∧
      Reduced b (ofDigits b m) (ofDigits b y) (i + k) X
        (ofDigits b ((List.replicate k ()).foldl (fun r _ => reduce b mi m r) r))
  | 0, i, X, r, hr, hred => ⟨hr, hred⟩
  | k + 1, i, X, r, hr, hred => by
    obtain ⟨hacc, u, hu, hround⟩ := reduce_spec hm hr
    have hnext : Reduced b (ofDigits b m) (ofDigits b y) (i + 1) (X + 0 * b ^ i) (ofDigits b (reduce b mi m r)) :=
      hred.next hu (by simpa using hround)
    rw [Nat.zero_mul, Nat.add_zero] at hnext
    have h := tail_spec (k := k) hm hacc hnext
    rw [List.replicate_succ, List.foldl_cons, show i + (k + 1) = i + 1 + k by omega]
    exact h

/-! ### The product -/

/-- The sums of the first loop fit into the accumulator: a condition on the three numbers alone. What is added of the
    modulus by then, `U`, is the one number below the power of the radix that makes the sum divisible by it. --/
def Fits (b : Nat) (m x y : HugeNumber) : Prop :=
  ∀ i < x.length, ∀ U < b ^ i, b ^ i ∣ (ofDigits b x % b ^ i) * ofDigits b y + U * ofDigits b m →
    (ofDigits b x % b ^ (i + 1)) * ofDigits b y + U * ofDigits b m < b ^ (m.length + 1 + i)

/-- A factor of a product: its digits in order, and below the modulus. --/
structure Factor (b : Nat) (m x : HugeNumber) : Prop where
  proper : Proper b x
  lt : ofDigits b x < ofDigits b m

theorem Factor.length_le (hm : Modulus b mi m) (hx : Factor b m x) : x.length ≤ m.length := by
  have hb := hm.radix
  exact hx.proper.length_le hb (List.length_pos_of_ne_nil hm.ne_nil)
    (Nat.lt_trans hx.lt (value_lt hb hm.proper.digits))

theorem accumulator_start (hb : 2 ≤ b) (m : List Nat) : Accumulator b m (List.replicate (m.length + 1) 0) := by
  refine ⟨List.length_replicate, fun d hd => ?_⟩
  rw [(List.mem_replicate.mp hd).2]
  omega

theorem fits_iff (hm : Modulus b mi m) (hx : Factor b m x) (hy : Factor b m y) :
    (∀ c ∈ droppedCarries b mi m y x (List.replicate (m.length + 1) 0), c = 0) ↔ Fits b m x y := by
  have hb := hm.radix
  have hstart : Reduced b (ofDigits b m) (ofDigits b y) 0 0 (ofDigits b (List.replicate (m.length + 1) 0)) := by
    rw [ofDigits_replicate_zero]
    exact reduced_start
  have htake : ∀ j, ofDigits b x % b ^ j = ofDigits b (x.take j) := fun j =>
    ofDigits_mod_pow_eq_ofDigits_take j (by omega) x hx.proper.digits
  rw [carries_iff hm (hy.length_le hm) (accumulator_start hb m) hstart]
  unfold Fits
  simp only [htake, Nat.zero_add, Nat.pow_zero, Nat.one_mul]

/-- Where the sums fit, the product is the canonical one. --/
theorem mont_spec (hm : Modulus b mi m) (hx : Factor b m x) (hy : Factor b m y) (hfits : Fits b m x y) :
    Factor b m (mont b m mi x y) ∧
      ofDigits b (mont b m mi x y) * b ^ m.length ≡ ofDigits b x * ofDigits b y [MOD ofDigits b m] := by
  have hb := hm.radix
  have hxlen := hx.length_le hm
  have hstart : Reduced b (ofDigits b m) (ofDigits b y) 0 0 (ofDigits b (List.replicate (m.length + 1) 0)) := by
    rw [ofDigits_replicate_zero]
    exact reduced_start
  obtain ⟨hacc, hred⟩ := rounds_spec hm (hy.length_le hm) (accumulator_start hb m) hstart ((fits_iff hm hx hy).mpr hfits)
  obtain ⟨hacc', hred'⟩ := tail_spec (k := m.length - x.length) hm hacc hred
  unfold mont
  dsimp only
  generalize (List.replicate (m.length - x.length) ()).foldl (fun r _ => reduce b mi m r) _ = r at hacc' hred' ⊢
  rw [Nat.pow_zero, Nat.one_mul, Nat.zero_add, Nat.zero_add, Nat.add_sub_cancel' hxlen] at hred'
  have hlarge := hm.large
  have hsum := hred'.lt (Nat.lt_trans hx.lt (value_lt hb hm.proper.digits)) (by omega)
  have hmod := hred'.modEq
  have hproper := proper_adjustSize (x := r) hb hacc'.digits
  have hlt := hy.lt
  rw [compareUnsigned_spec hb hproper.digits hm.proper.digits, value_adjustSize]
  split
  · rename_i hge
    have hle : ofDigits b m ≤ ofDigits b r := by
      by_contra hc
      exact hge (Nat.compare_eq_lt.mpr (by omega))
    have hlong : m.length ≤ (adjustSize r).length := by
      by_contra hshort
      have hup := value_lt hb hproper.digits
      have hlow := hm.proper.pow_le hb (by omega)
      have hpow : b ^ (adjustSize r).length ≤ b ^ (m.length - 1) := Nat.pow_le_pow_right (by omega) (by omega)
      rw [value_adjustSize] at hup
      omega
    obtain ⟨hproper', hvalue⟩ := subtract_spec hb hproper.digits hm.proper.digits hlong (by rw [value_adjustSize]; exact hle)
    rw [value_adjustSize] at hvalue
    refine ⟨⟨hproper', by omega⟩, ?_⟩
    rw [← hvalue, Nat.add_mul] at hmod
    have hmul : ofDigits b m * b ^ m.length ≡ 0 [MOD ofDigits b m] := Nat.modEq_zero_iff_dvd.mpr (Nat.dvd_mul_right _ _)
    exact ((Nat.ModEq.add_left _ hmul).symm.trans hmod)
  · rename_i hless
    rw [not_not, Nat.compare_eq_lt] at hless
    refine ⟨⟨hproper, by rw [value_adjustSize]; exact hless⟩, ?_⟩
    rw [value_adjustSize]
    exact hmod

/-- Where the modulus leaves that much room below the power of the radix, every sum fits. --/
theorem fits_of_room (hm : Modulus b mi m) (hy : Factor b m y)
    (hroom : (b + 1) * ofDigits b m ≤ b ^ (m.length + 1) + b) : Fits b m x y := by
  intro i _ U hU _
  have hb := hm.radix
  have hlow : ofDigits b x % b ^ (i + 1) < b ^ (i + 1) := Nat.mod_lt _ (Nat.pow_pos (by omega))
  have hlt := hy.lt
  rw [Nat.pow_add b (m.length + 1) i]
  generalize ofDigits b x % b ^ (i + 1) = X at *
  rw [Nat.pow_succ] at hlow
  generalize ofDigits b m = M at *
  generalize ofDigits b y = Y at *
  generalize b ^ i = p at *
  generalize b ^ (m.length + 1) = R at *
  have hX : X * Y ≤ p * b * (M - 1) := Nat.mul_le_mul (Nat.le_of_lt hlow) (by omega)
  have hUm : U * M < p * M := Nat.mul_lt_mul_of_pos_right hU (by omega)
  have hsum : p * b * (M - 1) + p * M ≤ R * p := by
    have hM : b * (M - 1) + M ≤ R := by
      obtain ⟨k, rfl⟩ : ∃ k, M = k + 1 := ⟨M - 1, by omega⟩
      rw [Nat.add_sub_cancel]
      have hexpand : (b + 1) * (k + 1) = b * k + k + 1 + b := by ring
      omega
    calc p * b * (M - 1) + p * M = p * (b * (M - 1) + M) := by ring
      _ ≤ p * R := Nat.mul_le_mul_left _ hM
      _ = R * p := Nat.mul_comm _ _
  omega

end

/-! ### Powers -/

/-- The arithmetic the exponentiation rests on: remainder, square and inverse. --/
structure Helpers (b : Nat) where
  modulus : HugeNumber → HugeNumber → HugeNumber
  square : HugeNumber → HugeNumber
  inverseModulus : HugeNumber → HugeNumber → HugeNumber
  modulus_proper : ∀ {a m : HugeNumber}, (∀ d ∈ a, d < b) → Proper b m → 0 < ofDigits b m → Proper b (modulus a m)
  modulus_value : ∀ {a m : HugeNumber}, (∀ d ∈ a, d < b) → Proper b m → 0 < ofDigits b m →
    ofDigits b (modulus a m) = ofDigits b a % ofDigits b m
  square_proper : ∀ {a : HugeNumber}, Proper b a → Proper b (square a)
  square_value : ∀ {a : HugeNumber}, Proper b a → ofDigits b (square a) = ofDigits b a ^ 2
  inverse_proper : ∀ {a m : HugeNumber}, Proper b a → Proper b m → (ofDigits b a).Coprime (ofDigits b m) →
    1 < ofDigits b m → Proper b (inverseModulus a m)
  inverse_value : ∀ {a m : HugeNumber}, Proper b a → Proper b m → (ofDigits b a).Coprime (ofDigits b m) →
    1 < ofDigits b m → ofDigits b (inverseModulus a m) < ofDigits b m ∧
      ofDigits b a * ofDigits b (inverseModulus a m) % ofDigits b m = 1

/-- The bits of the exponent, from the top. --/
def exponentBits (bits : Nat) (e : HugeNumber) : List Bool :=
  e.reverse.flatMap fun curBlock => (List.range bits).map fun bit => curBlock.testBit (bits - (1 + bit))

/-- One bit of the exponent. --/
def ladderStep (b : Nat) (m : HugeNumber) (mi : Nat) (xx operand : HugeNumber) (bit : Bool) : HugeNumber :=
  let tempResult := mont b m mi operand operand
  if bit then mont b m mi tempResult xx else tempResult

/-- `mi = -m^(-1) mod radix` --/
def montDigit (b : Nat) (ops : Helpers b) (m : HugeNumber) : Nat :=
  (b - (ops.inverseModulus [m.headD 0] [0, 1]).headD 0) % b

/-- `_nx_crypto_huge_number_mont_power_modulus` --/
def montPowerModulus (bits : Nat) (ops : Helpers (hnRadix bits)) (x e m : HugeNumber) : HugeNumber :=
  let b := hnRadix bits
  let x := adjustSize x
  let e := adjustSize e
  let m := adjustSize m
  let mi := montDigit b ops m
  let temp := ops.modulus (List.replicate m.length 0 ++ [1]) m
  let result := ops.modulus (ops.square temp) m
  let xx := mont b m mi x result
  let operand := (exponentBits bits e).foldl (ladderStep b m mi xx) temp
  mont b m mi [1] operand

section
variable {bits b mi : Nat} {m x xx e : HugeNumber}

/-- What the bits of the exponent say. --/
def bitsValue (n : Nat) (bs : List Bool) : Nat := bs.foldl (fun n bit => 2 * n + bit.toNat) n

theorem bitsValue_block {block : Nat} (hblock : block < 2 ^ bits) (n k : Nat) (hk : k ≤ bits) :
    bitsValue n ((List.range k).map fun bit => block.testBit (bits - (1 + bit))) = n * 2 ^ k + block / 2 ^ (bits - k) := by
  induction k with
  | zero =>
    simp [bitsValue, Nat.div_eq_of_lt hblock]
  | succ k ih =>
    rw [List.range_succ, List.map_append, bitsValue, List.foldl_append]
    have ih' := ih (by omega)
    unfold bitsValue at ih'
    rw [ih']
    obtain ⟨j, hj⟩ : ∃ j, bits - k = j + 1 := ⟨bits - k - 1, by omega⟩
    simp only [List.map_cons, List.map_nil, List.foldl_cons, List.foldl_nil]
    rw [show bits - (1 + k) = j by omega, show bits - (k + 1) = j by omega, hj, Nat.pow_succ 2 k, Nat.pow_succ 2 j,
      Nat.testBit_eq_decide_div_mod_eq]
    have hdiv : block / (2 ^ j * 2) = block / 2 ^ j / 2 := (Nat.div_div_eq_div_mul _ _ _).symm
    have hbit : (decide (block / 2 ^ j % 2 = 1)).toNat = block / 2 ^ j % 2 := by
      rcases Nat.mod_two_eq_zero_or_one (block / 2 ^ j) with h | h
      · simp [h]
      · simp [h]
    rw [hdiv, hbit]
    have hmul : 2 * (n * 2 ^ k) = n * (2 ^ k * 2) := by ring
    omega

theorem bitsValue_append (n : Nat) (bs cs : List Bool) : bitsValue n (bs ++ cs) = bitsValue (bitsValue n bs) cs :=
  List.foldl_append

theorem bitsValue_exponent (he : ∀ d ∈ e, d < hnRadix bits) : bitsValue 0 (exponentBits bits e) = ofDigits (hnRadix bits) e := by
  have hall : ∀ (blocks : List Nat) (n : Nat), (∀ d ∈ blocks, d < hnRadix bits) →
      bitsValue n (blocks.flatMap fun curBlock => (List.range bits).map fun bit => curBlock.testBit (bits - (1 + bit))) =
        n * hnRadix bits ^ blocks.length + ofDigits (hnRadix bits) blocks.reverse := by
    intro blocks
    induction blocks with
    | nil => simp [bitsValue]
    | cons d ds ih =>
      intro n hd
      rw [List.flatMap_cons, bitsValue_append, bitsValue_block (hd d List.mem_cons_self) n bits (Nat.le_refl _),
        ih _ fun d' hd' => hd d' (List.mem_cons_of_mem _ hd'), ofDigits_reverse_cons, Nat.sub_self, Nat.pow_zero,
        Nat.div_one, List.length_cons, Nat.pow_succ]
      unfold hnRadix
      ring
  have h := hall e.reverse 0 fun d hd => he d (List.mem_reverse.mp hd)
  rw [Nat.zero_mul, Nat.zero_add, List.reverse_reverse] at h
  exact h

/-- The digit that makes the lowest digit vanish. --/
theorem montDigit_spec (hb : 2 ≤ b) (ops : Helpers b) (hproper : Proper b m) (hcoprime : (ofDigits b m).Coprime b)
    (hlarge : 1 < ofDigits b m) : Modulus b (montDigit b ops m) m := by
  obtain ⟨m₀, ms, rfl⟩ : ∃ m₀ ms, m = m₀ :: ms := by
    refine List.exists_cons_of_ne_nil ?_
    rintro rfl
    exact absurd hlarge (by simp)
  have hm₀ := hproper.digits m₀ List.mem_cons_self
  have hsingle : ∀ d, d < b → Proper b [d] := by
    intro d hd
    refine ⟨fun d' hd' => by rwa [List.mem_singleton.mp hd'], ?_⟩
    unfold adjustSize dropZeros
    rw [List.rdropWhile_singleton]
    by_cases hzero : d = 0
    · simp [hzero]
    · simp [hzero]
  have hradix : Proper b [0, 1] := by
    refine ⟨fun d hd => ?_, by decide⟩
    rcases List.mem_pair.mp hd with rfl | rfl
    · omega
    · omega
  have hvalue : ofDigits b [0, 1] = b := by simp [ofDigits_cons]
  have hcop : (ofDigits b [m₀]).Coprime (ofDigits b [0, 1]) := by
    rw [hvalue, ofDigits_singleton]
    rw [ofDigits_cons] at hcoprime
    exact (Nat.coprime_add_mul_left_left _ _ _).mp hcoprime
  have hinvProper := ops.inverse_proper (hsingle m₀ hm₀) hradix hcop (by rw [hvalue]; omega)
  obtain ⟨hlt, hone⟩ := ops.inverse_value (hsingle m₀ hm₀) hradix hcop (by rw [hvalue]; omega)
  rw [hvalue] at hlt
  rw [hvalue, ofDigits_singleton] at hone
  have hlen := hinvProper.length_le hb Nat.one_pos (by simpa using hlt)
  refine ⟨hproper, hb, hcoprime, hlarge, ?_⟩
  unfold montDigit
  rw [List.headD_cons]
  have hhead : (ops.inverseModulus [m₀] [0, 1]).headD 0 = ofDigits b (ops.inverseModulus [m₀] [0, 1]) := by
    generalize ops.inverseModulus [m₀] [0, 1] = inv at *
    match inv, hlen with
    | [], _ => simp
    | [d], _ => simp
  rw [hhead]
  generalize ofDigits b (ops.inverseModulus [m₀] [0, 1]) = inv at *
  have hdvd : b ∣ m₀ * (b - inv) + 1 := by
    have hdm := Nat.div_add_mod (m₀ * inv) b
    rw [hone] at hdm
    have hsum : m₀ * (b - inv) + m₀ * inv = m₀ * b := by
      rw [← Nat.mul_add, Nat.sub_add_cancel (Nat.le_of_lt hlt)]
    have hle : m₀ * inv / b ≤ m₀ := Nat.div_le_of_le_mul (by rw [Nat.mul_comm b]; exact Nat.mul_le_mul_left _ (Nat.le_of_lt hlt))
    refine ⟨m₀ - m₀ * inv / b, ?_⟩
    rw [Nat.mul_sub b, Nat.mul_comm b m₀]
    have hmul : b * (m₀ * inv / b) ≤ b * m₀ := Nat.mul_le_mul_left _ hle
    rw [Nat.mul_comm b m₀] at hmul
    have : m₀ * (b - inv) + (b * (m₀ * inv / b) + 1) = m₀ * b := by rw [hdm, hsum]
    omega
  have hmod : m₀ * ((b - inv) % b) + 1 ≡ m₀ * (b - inv) + 1 [MOD b] :=
    Nat.ModEq.add_right _ (Nat.ModEq.mul_left _ (Nat.mod_modEq _ _))
  exact Nat.mod_eq_zero_of_dvd (Nat.modEq_zero_iff_dvd.mp (hmod.trans (Nat.modEq_zero_iff_dvd.mpr hdvd)))

/-- A factor in Montgomery's form. --/
structure Represents (b : Nat) (m : HugeNumber) (x : HugeNumber) (n : Nat) : Prop where
  factor : Factor b m x
  value : ofDigits b x ≡ n * b ^ m.length [MOD ofDigits b m]

theorem Modulus.cancel (hm : Modulus b mi m) {k l : Nat} (h : k * b ^ m.length ≡ l * b ^ m.length [MOD ofDigits b m]) :
    k ≡ l [MOD ofDigits b m] :=
  Nat.ModEq.cancel_right_of_coprime (Nat.Coprime.pow_right _ hm.coprime) h

/-- The form of a product. --/
theorem Represents.mont (hm : Modulus b mi m) (hfits : ∀ x y, Factor b m x → Factor b m y → Fits b m x y)
    {y : HugeNumber} {k l : Nat} (hx : Represents b m x k) (hy : Represents b m y l) :
    Represents b m (mont b m mi x y) (k * l) := by
  obtain ⟨hfactor, hvalue⟩ := mont_spec hm hx.factor hy.factor (hfits x y hx.factor hy.factor)
  refine ⟨hfactor, hm.cancel (hvalue.trans ((hx.value.mul hy.value).trans ?_))⟩
  rw [show k * b ^ m.length * (l * b ^ m.length) = k * l * b ^ m.length * b ^ m.length by ring]

/-- Every bit of the exponent squares, and multiplies where it is set. --/
theorem ladder_spec (hm : Modulus b mi m) (hfits : ∀ x y, Factor b m x → Factor b m y → Fits b m x y) {k : Nat}
    (hxx : Represents b m xx k) (bs : List Bool) {operand : HugeNumber} {n : Nat} (ho : Represents b m operand (k ^ n)) :
    Represents b m (bs.foldl (ladderStep b m mi xx) operand) (k ^ bitsValue n bs) := by
  induction bs generalizing operand n with
  | nil => exact ho
  | cons bit bs ih =>
    rw [List.foldl_cons, bitsValue, List.foldl_cons]
    refine ih ?_
    have hsquare := ho.mont hm hfits ho
    rw [← Nat.pow_add, ← Nat.two_mul] at hsquare
    unfold ladderStep
    cases bit with
    | false =>
      simp only [Bool.false_eq_true, if_false, Bool.toNat_false, Nat.add_zero]
      exact hsquare
    | true =>
      have hmul := hsquare.mont hm hfits hxx
      rw [← Nat.pow_succ] at hmul
      simp only [if_true, Bool.toNat_true]
      exact hmul

theorem represents_one (hm : Modulus b mi m) (ops : Helpers b) :
    Represents b m (ops.modulus (List.replicate m.length 0 ++ [1]) m) 1 := by
  have hb := hm.radix
  have hpos : 0 < ofDigits b m := Nat.lt_trans Nat.one_pos hm.large
  have hdigits : ∀ d ∈ List.replicate m.length 0 ++ [1], d < b := by
    intro d hd
    rcases List.mem_append.mp hd with hd | hd
    · rw [(List.mem_replicate.mp hd).2]
      omega
    · rw [List.mem_singleton.mp hd]
      omega
  have hvalue : ofDigits b (List.replicate m.length 0 ++ [1]) = b ^ m.length := by
    rw [ofDigits_append, ofDigits_replicate_zero, List.length_replicate, ofDigits_singleton]
    ring
  refine ⟨⟨ops.modulus_proper hdigits hm.proper hpos, ?_⟩, ?_⟩
  · rw [ops.modulus_value hdigits hm.proper hpos]
    exact Nat.mod_lt _ hpos
  · rw [ops.modulus_value hdigits hm.proper hpos, hvalue, Nat.one_mul]
    exact Nat.mod_modEq _ _

/-- The square of the power of the radix, which brings a factor into the form. --/
theorem represents_radix (hm : Modulus b mi m) (ops : Helpers b) (hx : Represents b m x 1) :
    Represents b m (ops.modulus (ops.square x) m) (b ^ m.length) := by
  have hpos : 0 < ofDigits b m := Nat.lt_trans Nat.one_pos hm.large
  have hsquare := ops.square_proper hx.factor.proper
  refine ⟨⟨ops.modulus_proper hsquare.digits hm.proper hpos, ?_⟩, ?_⟩
  · rw [ops.modulus_value hsquare.digits hm.proper hpos]
    exact Nat.mod_lt _ hpos
  · rw [ops.modulus_value hsquare.digits hm.proper hpos, ops.square_value hx.factor.proper]
    have hvalue := hx.value
    rw [Nat.one_mul] at hvalue
    rw [← Nat.pow_two]
    exact (Nat.mod_modEq _ _).trans (hvalue.pow 2)

/-- Where every sum fits, the power is the power. --/
theorem montPowerModulus_spec (ops : Helpers (hnRadix bits)) (hm : Modulus (hnRadix bits) mi (adjustSize m))
    (hmi : mi = montDigit (hnRadix bits) ops (adjustSize m))
    (hfits : ∀ x y, Factor (hnRadix bits) (adjustSize m) x → Factor (hnRadix bits) (adjustSize m) y →
      Fits (hnRadix bits) (adjustSize m) x y)
    (hx : ∀ d ∈ x, d < hnRadix bits) (hlt : ofDigits (hnRadix bits) x < ofDigits (hnRadix bits) m)
    (he : ∀ d ∈ e, d < hnRadix bits) : ofDigits (hnRadix bits) (montPowerModulus bits ops x e m) =
      ofDigits (hnRadix bits) x ^ ofDigits (hnRadix bits) e % ofDigits (hnRadix bits) m := by
  have hb := hm.radix
  unfold montPowerModulus
  dsimp only
  rw [← hmi]
  have hx' : Factor (hnRadix bits) (adjustSize m) (adjustSize x) :=
    ⟨proper_adjustSize hb hx, by rw [value_adjustSize, value_adjustSize]; exact hlt⟩
  have hone := represents_one hm ops
  have hradix := represents_radix hm ops hone
  generalize ops.modulus (List.replicate (adjustSize m).length 0 ++ [1]) (adjustSize m) = temp at *
  generalize ops.modulus (ops.square temp) (adjustSize m) = result at *
  -- `x` times the square of the power of the radix, less one power of it
  have hxx : Represents (hnRadix bits) (adjustSize m) (mont (hnRadix bits) (adjustSize m) mi (adjustSize x) result)
      (ofDigits (hnRadix bits) x) := by
    obtain ⟨hfactor, hvalue⟩ := mont_spec hm hx' hradix.factor (hfits _ _ hx' hradix.factor)
    refine ⟨hfactor, hm.cancel (hvalue.trans ((Nat.ModEq.mul_left _ hradix.value).trans ?_))⟩
    rw [value_adjustSize x, Nat.mul_assoc]
  have hpower := ladder_spec hm hfits hxx (exponentBits bits (adjustSize e)) (n := 0) (by rw [Nat.pow_zero]; exact hone)
  rw [bitsValue_exponent (proper_adjustSize hb he).digits, value_adjustSize] at hpower
  generalize (exponentBits bits (adjustSize e)).foldl _ temp = operand at hpower ⊢
  have hdigit : Factor (hnRadix bits) (adjustSize m) [1] := by
    refine ⟨⟨fun d hd => ?_, by decide⟩, ?_⟩
    · rw [List.mem_singleton.mp hd]
      omega
    · rw [ofDigits_singleton]
      exact hm.large
  obtain ⟨hfactor, hvalue⟩ := mont_spec hm hdigit hpower.factor (hfits _ _ hdigit hpower.factor)
  have hmod := hm.cancel (hvalue.trans (by rw [ofDigits_singleton, Nat.one_mul]; exact hpower.value))
  have hlt' := hfactor.lt
  rw [value_adjustSize] at hmod hlt'
  rw [← Nat.mod_eq_of_lt hlt']
  exact hmod

/-- What the exponentiation is for, over one modulus: powers, canonical products, and no carry dropped on the way. --/
structure PowerRight (bits : Nat) (ops : Helpers (hnRadix bits)) (m : HugeNumber) : Prop where
  power : ∀ x e : HugeNumber, (∀ d ∈ x, d < hnRadix bits) → ofDigits (hnRadix bits) x < ofDigits (hnRadix bits) m →
    (∀ d ∈ e, d < hnRadix bits) → ofDigits (hnRadix bits) (montPowerModulus bits ops x e m) =
      ofDigits (hnRadix bits) x ^ ofDigits (hnRadix bits) e % ofDigits (hnRadix bits) m
  product : ∀ x y : HugeNumber, Factor (hnRadix bits) (adjustSize m) x → Factor (hnRadix bits) (adjustSize m) y →
    let r := mont (hnRadix bits) (adjustSize m) (montDigit (hnRadix bits) ops (adjustSize m)) x y
    Factor (hnRadix bits) (adjustSize m) r ∧ ofDigits (hnRadix bits) r * hnRadix bits ^ (adjustSize m).length ≡
      ofDigits (hnRadix bits) x * ofDigits (hnRadix bits) y [MOD ofDigits (hnRadix bits) m]
  carries : ∀ x y : HugeNumber, Factor (hnRadix bits) (adjustSize m) x → Factor (hnRadix bits) (adjustSize m) y →
    ∀ c ∈ droppedCarries (hnRadix bits) (montDigit (hnRadix bits) ops (adjustSize m)) (adjustSize m) y x
      (List.replicate ((adjustSize m).length + 1) 0), c = 0

/-- Over an odd modulus all of it is right just where the sums fit, for every two factors. --/
theorem power_right_iff (hbits : 0 < bits) (ops : Helpers (hnRadix bits)) (hm : ∀ d ∈ m, d < hnRadix bits)
    (hodd : ofDigits (hnRadix bits) m % 2 = 1) (hlarge : 1 < ofDigits (hnRadix bits) m) : PowerRight bits ops m ↔
      ∀ x y, Factor (hnRadix bits) (adjustSize m) x → Factor (hnRadix bits) (adjustSize m) y →
        Fits (hnRadix bits) (adjustSize m) x y := by
  have hb : 2 ≤ hnRadix bits :=
    calc 2 = 2 ^ 1 := rfl
      _ ≤ 2 ^ bits := Nat.pow_le_pow_right (by decide) hbits
  have hcoprime : (ofDigits (hnRadix bits) m).Coprime (hnRadix bits) :=
    Nat.Coprime.pow_right _ (Nat.coprime_two_right.mpr (Nat.odd_iff.mpr hodd))
  have hmodulus := montDigit_spec hb ops (proper_adjustSize hb hm) (by rw [value_adjustSize]; exact hcoprime)
    (by rw [value_adjustSize]; exact hlarge)
  constructor
  · intro hright x y hx hy
    exact (fits_iff hmodulus hx hy).mp (hright.carries x y hx hy)
  · intro hfits
    refine ⟨fun x e hx hlt he => montPowerModulus_spec ops hmodulus rfl hfits hx hlt he, fun x y hx hy => ?_,
      fun x y hx hy => (fits_iff hmodulus hx hy).mpr (hfits x y hx hy)⟩
    obtain ⟨hfactor, hvalue⟩ := mont_spec hmodulus hx hy (hfits x y hx hy)
    rw [value_adjustSize] at hvalue
    exact ⟨hfactor, hvalue⟩

end

/-- The digits of a number, in order. --/
def digitsOf (b n : Nat) : HugeNumber := adjustSize (Nat.digits b n)

theorem digitsOf_proper {b : Nat} (hb : 2 ≤ b) (n : Nat) : Proper b (digitsOf b n) :=
  proper_adjustSize hb fun _ hd => Nat.digits_lt_base (by omega) hd

theorem value_digitsOf (b n : Nat) : ofDigits b (digitsOf b n) = n := by
  unfold digitsOf
  rw [value_adjustSize, Nat.ofDigits_digits]

/-- The helpers, by the arithmetic of numbers. --/
def Helpers.exact (b : Nat) (hb : 2 ≤ b) : Helpers b where
  modulus a m := digitsOf b (ofDigits b a % ofDigits b m)
  square a := digitsOf b (ofDigits b a ^ 2)
  inverseModulus a m := digitsOf b (Int.toNat (Nat.gcdA (ofDigits b a) (ofDigits b m) % ofDigits b m))
  modulus_proper _ _ _ := digitsOf_proper hb _
  modulus_value _ _ _ := value_digitsOf _ _
  square_proper _ := digitsOf_proper hb _
  square_value _ := value_digitsOf _ _
  inverse_proper _ _ _ _ := digitsOf_proper hb _
  inverse_value := by
    intro a m _ _ hcop hm
    rw [value_digitsOf]
    generalize ofDigits b a = A at *
    generalize ofDigits b m = M at *
    have hM : (0 : ℤ) < M := by omega
    have hnonneg := Int.emod_nonneg (Nat.gcdA A M) (by omega : (M : ℤ) ≠ 0)
    have hlt := Int.emod_lt_of_pos (Nat.gcdA A M) hM
    refine ⟨by omega, ?_⟩
    have hbezout := Nat.gcd_eq_gcd_ab A M
    rw [Nat.Coprime.gcd_eq_one hcop] at hbezout
    have hmod : ((A * Int.toNat (Nat.gcdA A M % M) : Nat) : ℤ) ≡ 1 [ZMOD M] := by
      push_cast
      rw [Int.toNat_of_nonneg hnonneg]
      have h : (A : ℤ) * (Nat.gcdA A M % M) ≡ A * Nat.gcdA A M [ZMOD M] := Int.ModEq.mul_left _ (Int.mod_modEq _ _)
      refine h.trans (Int.modEq_iff_dvd.mpr ⟨Nat.gcdB A M, ?_⟩)
      push_cast at hbezout
      linarith
    have hnat : A * Int.toNat (Nat.gcdA A M % M) ≡ 1 [MOD M] := by
      rw [← Int.natCast_modEq_iff]
      exact_mod_cast hmod
    unfold Nat.ModEq at hnat
    rw [hnat, Nat.mod_eq_of_lt hm]

theorem power_right_seven : PowerRight 32 (.exact (hnRadix 32) (by decide)) [7] ↔
    ∀ x y, Factor (hnRadix 32) (adjustSize [7]) x → Factor (hnRadix 32) (adjustSize [7]) y →
      Fits (hnRadix 32) (adjustSize [7]) x y :=
  power_right_iff (by decide) _ (by decide) (by decide) (by decide)

/-- Two digits of all ones: the square of the largest factor drops a carry, and comes out as 0 in the place of 1. --/
theorem square_drops_carry :
    let m : HugeNumber := [0xFFFFFFFF, 0xFFFFFFFF]
    let x : HugeNumber := [0xFFFFFFFE, 0xFFFFFFFF]
    droppedCarries (hnRadix 32) 1 m x x [0, 0, 0] = [0, 1] ∧ mont (hnRadix 32) m 1 x x = [0] ∧
      ¬ofDigits (hnRadix 32) [0] * hnRadix 32 ^ 2 ≡ ofDigits (hnRadix 32) x * ofDigits (hnRadix 32) x
        [MOD ofDigits (hnRadix 32) m] := by
  decide

end Netxduo.Crypto
