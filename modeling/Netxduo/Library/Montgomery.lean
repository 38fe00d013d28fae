import Mathlib

/-! Montgomery's reduction, digit by digit: after `i` digits of a factor the running value is what their product with the
    other factor is modulo `m`, divided by the radix `i` times. -/

namespace Montgomery

variable {b m y i n d u X r r' k : Nat}

/-- The low `i` digits `X` of a factor are dealt with, and `U` times the modulus was added on the way. --/
def Reduced (b m y i X r : Nat) : Prop := ∃ U < b ^ i, r * b ^ i = X * y + U * m

theorem reduced_start : Reduced b m y 0 0 0 := ⟨0, by simp, by simp⟩

/-- A digit more. --/
theorem Reduced.next (h : Reduced b m y i X r) (hu : u < b) (hr : r' * b = r + d * y + u * m) :
    Reduced b m y (i + 1) (X + d * b ^ i) r' := by
  obtain ⟨U, hU, hred⟩ := h
  refine ⟨U + u * b ^ i, ?_, ?_⟩
  · have hmul : (u + 1) * b ^ i ≤ b * b ^ i := Nat.mul_le_mul_right _ hu
    rw [Nat.pow_succ, Nat.mul_comm (b ^ i)]
    rw [Nat.succ_mul] at hmul
    omega
  · calc r' * b ^ (i + 1) = (r' * b) * b ^ i := by ring
      _ = (r + d * y + u * m) * b ^ i := by rw [hr]
      _ = r * b ^ i + (d * y + u * m) * b ^ i := by ring
      _ = (X + d * b ^ i) * y + (U + u * b ^ i) * m := by
        rw [hred]
        ring

/-- The running value stays below the sum of factor and modulus. --/
theorem Reduced.lt (h : Reduced b m y i X r) (hX : X < b ^ i) (hm : 0 < m) : r < y + m := by
  obtain ⟨U, hU, hred⟩ := h
  have hXy : X * y ≤ b ^ i * y := Nat.mul_le_mul_right _ (Nat.le_of_lt hX)
  have hUm : U * m < b ^ i * m := Nat.mul_lt_mul_of_pos_right hU hm
  have hlt : r * b ^ i < (y + m) * b ^ i := by
    rw [hred, Nat.add_mul, Nat.mul_comm y, Nat.mul_comm m]
    omega
  exact Nat.lt_of_mul_lt_mul_right hlt

theorem Reduced.modEq (h : Reduced b m y i X r) : r * b ^ i ≡ X * y [MOD m] := by
  obtain ⟨U, -, hred⟩ := h
  rw [hred]
  exact Nat.modEq_of_dvd ⟨-(U : ℤ), by push_cast; ring⟩

/-- What one more digit makes of the running value stays below a bound, just where the numbers it stands for do. --/
theorem Reduced.add_lt_iff (h : Reduced b m y i X r) (hb : 0 < b) (hm : m.Coprime b) :
    r + d * y < b ^ k ↔ ∀ U < b ^ i, b ^ i ∣ X * y + U * m → (X + d * b ^ i) * y + U * m < b ^ (k + i) := by
  obtain ⟨U, hU, hred⟩ := h
  have hscaled : (X + d * b ^ i) * y + U * m = (r + d * y) * b ^ i := by
    rw [Nat.add_mul r, hred]
    ring
  have hpos : 0 < b ^ i := Nat.pow_pos hb
  rw [Nat.pow_add]
  constructor
  · intro hlt V hV hdvd
    have hsame : V = U := by
      have hmod : X * y + V * m ≡ X * y + U * m [MOD b ^ i] :=
        (Nat.modEq_zero_iff_dvd.mpr hdvd).trans (Nat.modEq_zero_iff_dvd.mpr ⟨r, by rw [← hred, Nat.mul_comm]⟩).symm
      have hcancel : V ≡ U [MOD b ^ i] :=
        Nat.ModEq.cancel_right_of_coprime (Nat.Coprime.pow_left i hm.symm) (Nat.ModEq.add_left_cancel' _ hmod)
      exact Nat.ModEq.eq_of_lt_of_lt hcancel hV hU
    rw [hsame, hscaled]
    exact Nat.mul_lt_mul_of_pos_right hlt hpos
  · intro hall
    have hlt := hall U hU ⟨r, by rw [← hred, Nat.mul_comm]⟩
    rw [hscaled] at hlt
    exact Nat.lt_of_mul_lt_mul_right hlt

end Montgomery
