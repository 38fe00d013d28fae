import Mathlib
import Netxduo.Library.Checked
import Netxduo.Tcp.SackRecovery

/-! The proportional credit of a recovery, `_nx_tcp_prr_proportional_credit`: the product of two 32-bit numbers divided
    by a third, computed in 32-bit parts. -/

namespace Netxduo
open Checked

/-! ### The same steps with every sum, difference and product checked -/

/-- One round of carrying: the remainder plus `addend`, with a unit of the fraction taken off where it is full. --/
def prrCarryChecked (flight addend fraction remainder : ULONG) : Option (ULONG × ULONG) := do
  let room ← sub flight addend
  if remainder ≥ room then
    let remainder ← sub remainder room
    let fraction ← add fraction 1
    return (fraction, remainder)
  else
    let remainder ← add remainder addend
    return (fraction, remainder)

/-- The fractional loop, over the bits of the threshold. --/
def prrFractionChecked (flight residue threshold : ULONG) : List Nat → ULONG → ULONG → Option (ULONG × ULONG)
  | [], fraction, remainder => some (fraction, remainder)
  | bit :: rest, fraction, remainder => do
    let fraction ← double fraction
    let doubled ← prrCarryChecked flight remainder fraction remainder
    let stepped ← if threshold.getLsbD bit then prrCarryChecked flight residue doubled.1 doubled.2 else some doubled
    prrFractionChecked flight residue threshold rest stepped.1 stepped.2

/-- The decomposition of the general ratio. --/
def prrGeneralChecked (delivered threshold flight : ULONG) : Option ULONG :=
  let maximum : ULONG := 0xFFFFFFFF
  let whole := delivered / flight
  let residue := delivered % flight
  if whole ≠ 0 ∧ threshold > maximum / whole then some maximum
  else do
    let product ← mul whole threshold
    let divided ← prrFractionChecked flight residue threshold (List.range 32).reverse 0 0
    let fraction ← add divided.1 (if divided.2 ≠ 0 then 1 else 0)
    let room ← sub maximum product
    if fraction > room then some maximum else add product fraction

/-- `_nx_tcp_prr_proportional_credit`, with every intermediate value checked. --/
def prrProportionalCreditChecked (delivered threshold flight : ULONG) : Option ULONG :=
  let maximum : ULONG := 0xFFFFFFFF
  if flight = 0 ∨ threshold = 0 then some 0
  else if threshold = flight / 2 then
    if flight &&& 1 = 0 ∨ delivered < flight then add (delivered >>> 1) (delivered &&& 1)
    else do
      let residue := delivered % flight
      let product ← mul (delivered / flight) threshold
      let half ← add product (residue >>> 1)
      add half (residue &&& 1)
  else if threshold = flight then some delivered
  else if delivered ≤ maximum / threshold then do
    let product ← mul delivered threshold
    add (product / flight) (if product % flight ≠ 0 then 1 else 0)
  else prrGeneralChecked delivered threshold flight

/-! ### Quotients -/

/-- A quotient with its remainder gives the rounded-up quotient. --/
theorem ceilDiv_eq {p f q r : Nat} (hr : r < f) (h : q * f + r = p) :
    p ⌈/⌉ f = q + if r ≠ 0 then 1 else 0 := by
  rw [Nat.ceilDiv_eq_add_pred_div, ← h]
  split
  · rename_i hpos
    have hsplit : q * f + r + f - 1 = (r - 1) + (q + 1) * f := by
      rw [Nat.add_mul]
      omega
    rw [hsplit, Nat.add_mul_div_right _ _ (by omega), Nat.div_eq_of_lt (by omega), Nat.zero_add]
  · rename_i hzero
    have hsplit : q * f + r + f - 1 = (f - 1) + q * f := by omega
    rw [hsplit, Nat.add_mul_div_right _ _ (by omega), Nat.div_eq_of_lt (by omega)]
    omega

/-- The half of a number, rounded up. --/
theorem toNat_half (x : ULONG) : (x >>> 1).toNat + (x &&& 1).toNat = (x.toNat + 1) / 2 := by
  rw [BitVec.toNat_ushiftRight, BitVec.toNat_and, Nat.shiftRight_eq_div_pow]
  have hbit : x.toNat &&& (1 : ULONG).toNat = x.toNat % 2 := Nat.and_one_is_mod _
  rw [hbit]
  omega

theorem even_iff (x : ULONG) : x &&& 1 = 0 ↔ x.toNat % 2 = 0 := by
  rw [← BitVec.toNat_inj, BitVec.toNat_and]
  have hbit : x.toNat &&& (1 : ULONG).toNat = x.toNat % 2 := Nat.and_one_is_mod _
  rw [hbit]
  rfl

/-- The credit at the normal threshold, a half of the flight. --/
theorem half_ceilDiv {d f : Nat} (hf : f ≠ 0) (h : f % 2 = 0 ∨ d < f) : (d * (f / 2)) ⌈/⌉ f = (d + 1) / 2 := by
  obtain ⟨k, hk⟩ : ∃ k, k = f / 2 := ⟨_, rfl⟩
  obtain ⟨e, he⟩ : ∃ e, e = d / 2 := ⟨_, rfl⟩
  rw [← hk]
  rcases Nat.mod_two_eq_zero_or_one f with hfeven | hfodd
  · obtain rfl : f = 2 * k := by omega
    rcases Nat.mod_two_eq_zero_or_one d with hdeven | hdodd
    · obtain rfl : d = 2 * e := by omega
      rw [ceilDiv_eq (q := e) (r := 0) (by omega) (by ring), if_neg (by omega)]
      omega
    · obtain rfl : d = 2 * e + 1 := by omega
      rw [ceilDiv_eq (q := e) (r := k) (by omega) (by ring), if_pos (by omega)]
      omega
  · obtain rfl : f = 2 * k + 1 := by omega
    have hlt : d < 2 * k + 1 := by omega
    rcases Nat.mod_two_eq_zero_or_one d with hdeven | hdodd
    · obtain rfl : d = 2 * e := by omega
      cases e with
      | zero => rw [ceilDiv_eq (q := 0) (r := 0) (by omega) (by ring), if_neg (by omega)]
      | succ e =>
        obtain ⟨j, rfl⟩ : ∃ j, k = e + 1 + j := ⟨k - (e + 1), by omega⟩
        rw [ceilDiv_eq (q := e) (r := e + 2 + 2 * j) (by omega) (by ring), if_pos (by omega)]
        omega
    · obtain rfl : d = 2 * e + 1 := by omega
      obtain ⟨j, rfl⟩ : ∃ j, k = e + 1 + j := ⟨k - (e + 1), by omega⟩
      rw [ceilDiv_eq (q := e) (r := j + 1) (by omega) (by ring), if_pos (by omega)]
      omega

/-! ### The fractional loop -/

section
variable {flight residue threshold fraction remainder addend : ULONG} {n : Nat}

/-- A round adds `addend` to the fraction as a whole. --/
theorem prrCarryChecked_spec (fraction : ULONG) (haddend : addend.toNat < flight.toNat)
    (hremainder : remainder.toNat < flight.toNat) (hfraction : fraction.toNat + 1 < 2 ^ 32) :
    ∃ f r, prrCarryChecked flight addend fraction remainder = some (f, r) ∧
      (f, r) = (if remainder ≥ flight - addend then (fraction + 1, remainder - (flight - addend))
        else (fraction, remainder + addend)) ∧
      r.toNat < flight.toNat ∧
      f.toNat * flight.toNat + r.toNat = fraction.toNat * flight.toNat + remainder.toNat + addend.toNat := by
  have hroom := toNat_sub (Nat.le_of_lt haddend)
  have hflight := flight.isLt
  unfold prrCarryChecked
  rw [sub_eq (Nat.le_of_lt haddend)]
  by_cases hfull : remainder ≥ flight - addend
  · have hle : (flight - addend).toNat ≤ remainder.toNat := BitVec.le_def.mp hfull
    have hone : fraction.toNat + (1 : ULONG).toNat < 2 ^ 32 := hfraction
    refine ⟨fraction + 1, remainder - (flight - addend), ?_, (if_pos hfull).symm, ?_, ?_⟩
    · rw [Option.bind_eq_bind, Option.bind_some, if_pos hfull, sub_eq hle, add_eq hone]
      rfl
    · rw [toNat_sub hle]
      omega
    · rw [toNat_sub hle, toNat_add hone, Nat.add_mul]
      show fraction.toNat * flight.toNat + 1 * flight.toNat + _ = _
      omega
  · have hlt : ¬(flight - addend).toNat ≤ remainder.toNat := fun h => hfull (BitVec.le_def.mpr h)
    have hsum : remainder.toNat + addend.toNat < 2 ^ 32 := by omega
    refine ⟨fraction, remainder + addend, ?_, (if_neg hfull).symm, ?_, ?_⟩
    · rw [Option.bind_eq_bind, Option.bind_some, if_neg hfull, add_eq hsum]
      rfl
    · rw [toNat_add hsum]
      omega
    · rw [toNat_add hsum]
      omega

/-- A quotient by more than one factor stays below the other. --/
theorem quotient_lt {q f r a b : Nat} (ha : a < f) (h : q * f + r = a * b) : q < b ∨ b = 0 ∧ q = 0 := by
  rcases Nat.eq_zero_or_pos b with rfl | hb
  · refine .inr ⟨rfl, ?_⟩
    have hzero : q * f = 0 := by omega
    rcases Nat.mul_eq_zero.mp hzero with hq | hf
    · exact hq
    · omega
  · refine .inl (Nat.lt_of_not_le fun hle => ?_)
    have h₁ : a * b < f * b := Nat.mul_lt_mul_of_pos_right ha hb
    have h₂ : f * b ≤ f * q := Nat.mul_le_mul_left f hle
    rw [Nat.mul_comm f q] at h₂
    omega

theorem getLsbD_iff (threshold : ULONG) (n : Nat) : threshold.getLsbD n = true ↔ threshold.toNat / 2 ^ n % 2 = 1 := by
  rw [BitVec.getLsbD, Nat.testBit_eq_decide_div_mod_eq, decide_eq_true_iff]

/-- The loop divides: over the bits below `n` it turns the quotient for the upper bits of the threshold into the
    quotient for all of them, and no step of it overflows. --/
theorem prrFraction_spec (threshold : ULONG) (n : Nat) (fraction remainder : ULONG)
    (hresidue : residue.toNat < flight.toNat) (hremainder : remainder.toNat < flight.toNat)
    (hquotient : fraction.toNat * flight.toNat + remainder.toNat = residue.toNat * (threshold.toNat / 2 ^ n)) :
    ∃ f r, prrFractionChecked flight residue threshold (List.range n).reverse fraction remainder = some (f, r) ∧
      prrFraction flight residue threshold (List.range n).reverse fraction remainder = (f, r) ∧
      r.toNat < flight.toNat ∧ f.toNat * flight.toNat + r.toNat = residue.toNat * threshold.toNat := by
  induction n generalizing fraction remainder with
  | zero =>
    rw [Nat.pow_zero, Nat.div_one] at hquotient
    exact ⟨fraction, remainder, rfl, rfl, hremainder, hquotient⟩
  | succ n ih =>
    have hrange : (List.range (n + 1)).reverse = n :: (List.range n).reverse := by
      rw [List.range_succ, List.reverse_concat]
    have hupper : threshold.toNat / 2 ^ (n + 1) = threshold.toNat / 2 ^ n / 2 := by
      rw [Nat.pow_succ, Nat.div_div_eq_div_mul]
    have hle : threshold.toNat / 2 ^ n ≤ threshold.toNat := Nat.div_le_self _ _
    have hthreshold := threshold.isLt
    generalize threshold.toNat / 2 ^ (n + 1) = upper at hquotient hupper
    have hbit := getLsbD_iff threshold n
    generalize threshold.toNat / 2 ^ n = part at hupper hbit hle ih
    -- the doubling
    have hfraction := quotient_lt hresidue hquotient
    have hroom : 2 * fraction.toNat < 2 ^ 32 := by omega
    have hdouble := toNat_double hroom
    obtain ⟨f₁, r₁, hcarry₁, hplain₁, hr₁, hq₁⟩ := prrCarryChecked_spec (fraction <<< 1) hremainder
      hremainder (by omega)
    have hq₁ : f₁.toNat * flight.toNat + r₁.toNat = residue.toNat * (2 * upper) := by
      rw [hq₁, hdouble, Nat.mul_assoc, Nat.mul_left_comm residue.toNat 2, ← hquotient]
      omega
    have hf₁ := quotient_lt hresidue hq₁
    rw [hrange, prrFractionChecked, prrFraction, double_eq hroom, Option.bind_eq_bind, Option.bind_some, hcarry₁,
      Option.bind_eq_bind, Option.bind_some, ← hplain₁]
    by_cases hset : threshold.getLsbD n = true
    · -- the bit is set
      have hodd := hbit.mp hset
      obtain ⟨f₂, r₂, hcarry₂, hplain₂, hr₂, hq₂⟩ := prrCarryChecked_spec f₁ hresidue hr₁ (by omega)
      obtain ⟨f, r, hchecked, hplain, hr, hq⟩ := ih _ _ hr₂ (by
        rw [hq₂, hq₁, show part = 2 * upper + 1 by omega, Nat.mul_add, Nat.mul_one])
      refine ⟨f, r, ?_, ?_, hr, hq⟩
      · rw [if_pos hset, hcarry₂]
        exact hchecked
      · dsimp only
        rw [if_pos hset, ← hplain₂]
        exact hplain
    · have heven : part = 2 * upper := by
        have := mt hbit.mpr hset
        omega
      obtain ⟨f, r, hchecked, hplain, hr, hq⟩ := ih _ _ hr₁ (by rw [hq₁, heven])
      refine ⟨f, r, ?_, ?_, hr, hq⟩
      · rw [if_neg hset]
        exact hchecked
      · dsimp only
        rw [if_neg hset]
        exact hplain

end

/-! ### The credit -/

section
variable {delivered threshold flight : ULONG}

theorem ne_zero_iff (x : ULONG) : x ≠ 0 ↔ x.toNat ≠ 0 := by
  rw [Ne, ← BitVec.toNat_inj]
  rfl

theorem toNat_flag (x : ULONG) : (if x ≠ 0 then (1 : ULONG) else 0).toNat = if x.toNat ≠ 0 then 1 else 0 := by
  rw [← if_congr (ne_zero_iff x) rfl rfl]
  split <;> rfl

/-- The largest 32-bit number. --/
theorem toNat_maximum : (0xFFFFFFFF : ULONG).toNat = 2 ^ 32 - 1 := rfl

theorem gt_maximum_div_iff {x whole : ULONG} (hwhole : whole ≠ 0) :
    x > (0xFFFFFFFF : ULONG) / whole ↔ 2 ^ 32 ≤ whole.toNat * x.toNat := by
  have hpos : 0 < whole.toNat := Nat.pos_of_ne_zero ((ne_zero_iff whole).mp hwhole)
  show ((0xFFFFFFFF : ULONG) / whole).toNat < x.toNat ↔ _
  rw [BitVec.toNat_udiv, toNat_maximum, Nat.div_lt_iff_lt_mul hpos, Nat.mul_comm x.toNat]
  omega

/-- The decomposition is exact, and saturates where the quotient has more than 32 bits. --/
theorem prrGeneral_spec (hflight : flight ≠ 0) (hthreshold : threshold ≠ 0) (hhalf : threshold ≠ flight / 2)
    (hwhole : threshold ≠ flight) (hlarge : ¬delivered ≤ 0xFFFFFFFF / threshold) :
    prrGeneralChecked delivered threshold flight = some (prrProportionalCredit delivered threshold flight) ∧
      (prrProportionalCredit delivered threshold flight).toNat =
        min (2 ^ 32 - 1) ((delivered.toNat * threshold.toNat) ⌈/⌉ flight.toNat) := by
  have hpos : 0 < flight.toNat := Nat.pos_of_ne_zero ((ne_zero_iff flight).mp hflight)
  have hsplit := Nat.div_add_mod delivered.toNat flight.toNat
  have hwholeNat : (delivered / flight).toNat = delivered.toNat / flight.toNat := BitVec.toNat_udiv
  have hresidueNat : (delivered % flight).toNat = delivered.toNat % flight.toNat := BitVec.toNat_umod
  have hresidue : (delivered % flight).toNat < flight.toNat := by
    rw [hresidueNat]
    exact Nat.mod_lt _ hpos
  unfold prrGeneralChecked prrProportionalCredit
  rw [if_neg (not_or.mpr ⟨hflight, hthreshold⟩), if_neg hhalf, if_neg hwhole, if_neg hlarge]
  dsimp only
  rw [← hwholeNat, ← hresidueNat] at hsplit
  generalize delivered / flight = whole at hsplit
  generalize delivered % flight = residue at hsplit hresidue
  -- the product is the whole units and the fractional product
  have hproduct : delivered.toNat * threshold.toNat =
      whole.toNat * threshold.toNat * flight.toNat + residue.toNat * threshold.toNat := by
    rw [← hsplit]
    ring
  obtain ⟨f, r, hchecked, hplain, hr, hq⟩ := prrFraction_spec threshold 32 0 0
    hresidue (by exact hpos) (by
      rw [Nat.div_eq_of_lt threshold.isLt, Nat.mul_zero]
      exact Nat.zero_mul _)
  have hceil : (delivered.toNat * threshold.toNat) ⌈/⌉ flight.toNat =
      whole.toNat * threshold.toNat + (f.toNat + if r.toNat ≠ 0 then 1 else 0) := by
    rw [ceilDiv_eq (q := whole.toNat * threshold.toNat + f.toNat) hr, Nat.add_assoc]
    rw [hproduct, ← hq]
    ring
  by_cases hover : whole ≠ 0 ∧ threshold > 0xFFFFFFFF / whole
  · rw [if_pos hover, if_pos hover]
    refine ⟨rfl, ?_⟩
    have := (gt_maximum_div_iff hover.1).mp hover.2
    rw [hceil, toNat_maximum]
    omega
  · have hfits : whole.toNat * threshold.toNat < 2 ^ 32 := by
      by_cases hwhole : whole = 0
      · rw [hwhole]
        show 0 * threshold.toNat < 2 ^ 32
        omega
      · have := mt (gt_maximum_div_iff hwhole).mpr (fun h => hover ⟨hwhole, h⟩)
        omega
    have hlt := quotient_lt hresidue hq
    have hthreshold := threshold.isLt
    have hflag := toNat_flag r
    have hfraction : f.toNat + (if r ≠ 0 then (1 : ULONG) else 0).toNat < 2 ^ 32 := by
      rw [hflag]
      split <;> omega
    have hroom : (whole * threshold).toNat ≤ (0xFFFFFFFF : ULONG).toNat := by
      rw [toNat_maximum]
      have := (whole * threshold).isLt
      omega
    have hfractionNat := toNat_add hfraction
    rw [hflag] at hfractionNat
    have hroomNat := toNat_sub hroom
    rw [toNat_maximum, toNat_mul hfits] at hroomNat
    rw [if_neg hover, if_neg hover, mul_eq hfits, hplain, hceil]
    rw [Option.bind_eq_bind, Option.bind_some, hchecked, Option.bind_eq_bind, Option.bind_some]
    dsimp only
    rw [add_eq hfraction, Option.bind_some, sub_eq hroom, Option.bind_some]
    generalize f + (if r ≠ 0 then (1 : ULONG) else 0) = fraction at hfractionNat
    by_cases hlarge : fraction > 0xFFFFFFFF - whole * threshold
    · rw [if_pos hlarge, if_pos hlarge]
      refine ⟨rfl, ?_⟩
      have hlarge : ((0xFFFFFFFF : ULONG) - whole * threshold).toNat < fraction.toNat := hlarge
      rw [toNat_maximum]
      omega
    · have hsmall : ¬((0xFFFFFFFF : ULONG) - whole * threshold).toNat < fraction.toNat := hlarge
      have hsum : (whole * threshold).toNat + fraction.toNat < 2 ^ 32 := by
        rw [toNat_mul hfits]
        omega
      rw [if_neg hlarge, if_neg hlarge, add_eq hsum]
      refine ⟨rfl, ?_⟩
      rw [toNat_add hsum, toNat_mul hfits]
      omega

/-- The normal threshold is a half of the flight. --/
theorem prrHalf_spec (hflight : flight ≠ 0) (hthreshold : threshold ≠ 0) (hhalf : threshold = flight / 2) :
    prrProportionalCreditChecked delivered threshold flight = some (prrProportionalCredit delivered threshold flight) ∧
      (prrProportionalCredit delivered threshold flight).toNat =
        min (2 ^ 32 - 1) ((delivered.toNat * threshold.toNat) ⌈/⌉ flight.toNat) := by
  have hpos : 0 < flight.toNat := Nat.pos_of_ne_zero ((ne_zero_iff flight).mp hflight)
  have hdelivered := delivered.isLt
  have hhalfNat : threshold.toNat = flight.toNat / 2 := by
    rw [hhalf]
    exact BitVec.toNat_udiv
  unfold prrProportionalCreditChecked prrProportionalCredit
  rw [if_neg (not_or.mpr ⟨hflight, hthreshold⟩), if_pos hhalf, if_neg (not_or.mpr ⟨hflight, hthreshold⟩),
    if_pos hhalf, hhalfNat]
  by_cases heasy : flight &&& 1 = 0 ∨ delivered < flight
  · have hhalves := toNat_half delivered
    have hsum : (delivered >>> 1).toNat + (delivered &&& 1).toNat < 2 ^ 32 := by omega
    rw [if_pos heasy, if_pos heasy, add_eq hsum]
    refine ⟨rfl, ?_⟩
    rw [toNat_add hsum, hhalves, half_ceilDiv (by omega) (heasy.imp (even_iff flight).mp BitVec.lt_def.mp)]
    omega
  · -- whole flights first, each of them a threshold
    have hodd : flight.toNat % 2 = 1 := by
      have := mt (even_iff flight).mpr (fun h => heasy (.inl h))
      omega
    have hsplit := Nat.div_add_mod delivered.toNat flight.toNat
    have hmod := Nat.mod_lt delivered.toNat hpos
    have hwholeNat : (delivered / flight).toNat = delivered.toNat / flight.toNat := BitVec.toNat_udiv
    have hresidueNat : (delivered % flight).toNat = delivered.toNat % flight.toNat := BitVec.toNat_umod
    rw [← hwholeNat, ← hresidueNat] at hsplit
    rw [← hresidueNat] at hmod
    rw [if_neg heasy, if_neg heasy]
    dsimp only
    generalize delivered / flight = whole at hsplit
    generalize delivered % flight = residue at hsplit hmod
    have hhalves := toNat_half residue
    have hbound : whole.toNat * (flight.toNat / 2) + (residue.toNat + 1) / 2 ≤ delivered.toNat := by
      have hmul : whole.toNat * (flight.toNat / 2) ≤ flight.toNat * whole.toNat := by
        rw [Nat.mul_comm]
        exact Nat.mul_le_mul_right _ (Nat.div_le_self _ _)
      omega
    have hproduct : whole.toNat * threshold.toNat < 2 ^ 32 := by
      rw [hhalfNat]
      omega
    have hfirst : (whole * threshold).toNat + (residue >>> 1).toNat < 2 ^ 32 := by
      rw [toNat_mul hproduct, hhalfNat]
      omega
    have hsecond : (whole * threshold + (residue >>> 1)).toNat + (residue &&& 1).toNat < 2 ^ 32 := by
      rw [toNat_add hfirst, toNat_mul hproduct, hhalfNat]
      omega
    rw [mul_eq hproduct, Option.bind_eq_bind, Option.bind_some, add_eq hfirst, Option.bind_some, add_eq hsecond]
    refine ⟨rfl, ?_⟩
    have hceil : (delivered.toNat * (flight.toNat / 2)) ⌈/⌉ flight.toNat =
        whole.toNat * (flight.toNat / 2) + (residue.toNat + 1) / 2 := by
      rw [← half_ceilDiv (d := residue.toNat) (f := flight.toNat) (by omega) (.inr hmod), ← hsplit]
      rw [Nat.ceilDiv_eq_add_pred_div, Nat.ceilDiv_eq_add_pred_div,
        show (flight.toNat * whole.toNat + residue.toNat) * (flight.toNat / 2) + flight.toNat - 1 =
          (residue.toNat * (flight.toNat / 2) + flight.toNat - 1) + whole.toNat * (flight.toNat / 2) * flight.toNat by
            rw [Nat.add_mul, Nat.mul_assoc, Nat.mul_comm flight.toNat]
            omega,
        Nat.add_mul_div_right _ _ hpos, Nat.add_comm]
    rw [toNat_add hsecond, toNat_add hfirst, toNat_mul hproduct, hhalfNat, hceil]
    omega

/-- Where the product has 32 bits it is divided at once. --/
theorem prrProduct_spec (hflight : flight ≠ 0) (hthreshold : threshold ≠ 0) (hhalf : threshold ≠ flight / 2)
    (hwhole : threshold ≠ flight) (hsmall : delivered ≤ 0xFFFFFFFF / threshold) :
    prrProportionalCreditChecked delivered threshold flight = some (prrProportionalCredit delivered threshold flight) ∧
      (prrProportionalCredit delivered threshold flight).toNat =
        min (2 ^ 32 - 1) ((delivered.toNat * threshold.toNat) ⌈/⌉ flight.toNat) := by
  have hpos : 0 < flight.toNat := Nat.pos_of_ne_zero ((ne_zero_iff flight).mp hflight)
  have hfits : delivered.toNat * threshold.toNat < 2 ^ 32 := by
    have := mt (gt_maximum_div_iff (x := delivered) hthreshold).mpr (BitVec.not_lt.mpr hsmall)
    rw [Nat.mul_comm]
    omega
  unfold prrProportionalCreditChecked prrProportionalCredit
  rw [if_neg (not_or.mpr ⟨hflight, hthreshold⟩), if_neg hhalf, if_neg hwhole, if_pos hsmall,
    if_neg (not_or.mpr ⟨hflight, hthreshold⟩), if_neg hhalf, if_neg hwhole, if_pos hsmall]
  dsimp only
  have hproduct := toNat_mul hfits
  have hlt := (delivered * threshold).isLt
  have hsplit := Nat.div_add_mod (delivered * threshold).toNat flight.toNat
  have hmod := Nat.mod_lt (delivered * threshold).toNat hpos
  rw [mul_eq hfits, Option.bind_eq_bind, Option.bind_some, ← hproduct]
  generalize delivered * threshold = product at hsplit hmod hlt
  have hquotientNat : (product / flight).toNat = product.toNat / flight.toNat := BitVec.toNat_udiv
  have hremainderNat : (product % flight).toNat = product.toNat % flight.toNat := BitVec.toNat_umod
  rw [← hquotientNat, ← hremainderNat] at hsplit
  rw [← hremainderNat] at hmod
  have hflag := toNat_flag (product % flight)
  have hceil := ceilDiv_eq (q := (product / flight).toNat) (p := product.toNat) hmod (by
    rw [Nat.mul_comm]
    exact hsplit)
  have hsum : (product / flight).toNat + (if product % flight ≠ 0 then (1 : ULONG) else 0).toNat < 2 ^ 32 := by
    rw [hflag]
    have hle : (product / flight).toNat ≤ flight.toNat * (product / flight).toNat := Nat.le_mul_of_pos_left _ hpos
    split <;> omega
  rw [add_eq hsum]
  refine ⟨rfl, ?_⟩
  rw [toNat_add hsum, hflag, hceil]
  have hvalue := hsum
  rw [hflag] at hvalue
  omega

/-- The credit is the rounded-up ratio, saturated, and no intermediate value overflows. --/
theorem prrProportionalCredit_exact (delivered threshold flight : ULONG) (hflight : flight ≠ 0) :
    prrProportionalCreditChecked delivered threshold flight = some (prrProportionalCredit delivered threshold flight) ∧
      (prrProportionalCredit delivered threshold flight).toNat =
        min (2 ^ 32 - 1) ((delivered.toNat * threshold.toNat) ⌈/⌉ flight.toNat) := by
  have hpos : 0 < flight.toNat := Nat.pos_of_ne_zero ((ne_zero_iff flight).mp hflight)
  have hdelivered := delivered.isLt
  by_cases hzero : threshold = 0
  · unfold prrProportionalCreditChecked prrProportionalCredit
    rw [if_pos (.inr hzero), if_pos (.inr hzero), hzero]
    refine ⟨rfl, ?_⟩
    show 0 = min _ ((delivered.toNat * 0) ⌈/⌉ flight.toNat)
    rw [Nat.mul_zero, zero_ceilDiv, Nat.min_zero]
  have hcond : ¬(flight = 0 ∨ threshold = 0) := not_or.mpr ⟨hflight, hzero⟩
  by_cases hhalf : threshold = flight / 2
  · exact prrHalf_spec hflight hzero hhalf
  by_cases hwhole : threshold = flight
  · unfold prrProportionalCreditChecked prrProportionalCredit
    rw [if_neg hcond, if_neg hhalf, if_pos hwhole, if_neg hcond, if_neg hhalf, if_pos hwhole, hwhole]
    refine ⟨rfl, ?_⟩
    rw [ceilDiv_eq (q := delivered.toNat) hpos (Nat.add_zero _), if_neg (not_not.mpr rfl)]
    omega
  by_cases hsmall : delivered ≤ 0xFFFFFFFF / threshold
  · exact prrProduct_spec hflight hzero hhalf hwhole hsmall
  · obtain ⟨hchecked, hvalue⟩ := prrGeneral_spec hflight hzero hhalf hwhole hsmall
    refine ⟨?_, hvalue⟩
    rw [← hchecked]
    unfold prrProportionalCreditChecked
    rw [if_neg hcond, if_neg hhalf, if_neg hwhole, if_neg hsmall]

/-- A flight whose threshold is neither the whole nor a half of it takes the loop. --/
theorem prrProportionalCredit_exact_loop :
    (prrProportionalCredit 0x90000000 0x50000001 0x70000000).toNat =
      min (2 ^ 32 - 1) ((0x90000000 * 0x50000001) ⌈/⌉ 0x70000000) :=
  (prrProportionalCredit_exact 0x90000000 0x50000001 0x70000000 (by decide)).2

end

end Netxduo
