import Mathlib
import Netxduo.Library.Checked
import Netxduo.Tcp.Types

/-! The round-trip time estimator, `_nx_tcp_socket_rtt_sample`: the smoothed round trip and its variation in fixed point,
    and the timeout derived from them. -/

namespace Netxduo
open Checked

/-! ### Settings -/

/-- `NX_TCP_RTO_TICKS` --/
def rtoTicks (ms periodicRate : ULONG) : ULONG :=
  ms / 1000 * periodicRate + (ms % 1000 * periodicRate + 999) / 1000

/-- The bounds of the timeout, for the tick rate of the port. The upper bound leaves room for the fixed point. --/
structure RtoBounds where
  periodicRate : ULONG := 100
  /-- `NX_TCP_RTO_MINIMUM_MS` --/
  minimumMs : ULONG := 1000
  /-- `NX_TCP_RTO_MAXIMUM_MS` --/
  maximumMs : ULONG := 60000
  ordered : (rtoTicks minimumMs periodicRate).toNat ≤ (rtoTicks maximumMs periodicRate).toNat := by decide
  positive : 1 ≤ (rtoTicks maximumMs periodicRate).toNat := by decide
  room : 8 * (rtoTicks maximumMs periodicRate).toNat < 2 ^ 31 := by decide

namespace RtoBounds

/-- `NX_TCP_RTO_MINIMUM` --/
def minimum (c : RtoBounds) : ULONG := rtoTicks c.minimumMs c.periodicRate

/-- `NX_TCP_RTO_MAXIMUM` --/
def maximum (c : RtoBounds) : ULONG := rtoTicks c.maximumMs c.periodicRate

end RtoBounds

/-! ### The estimator -/

/-- The fields of the socket that `_nx_tcp_socket_rtt_sample` works on; a smoothed value of zero means that no sample
    has been taken yet. --/
structure RttEstimator where
  /-- `nx_tcp_socket_rtt_configured` --/
  configured : Bool
  /-- `nx_tcp_socket_rtt_smoothed`, scaled by eight. --/
  smoothed : ULONG
  /-- `nx_tcp_socket_rtt_variation`, scaled by four. --/
  variation : ULONG
  /-- `nx_tcp_socket_timeout_rate` --/
  timeoutRate : ULONG
deriving DecidableEq, Repr

/-- The sample, brought between one tick and the longest timeout. --/
def rttClamp (c : RtoBounds) (rttTicks : ULONG) : ULONG :=
  let rttTicks := if rttTicks = 0 then 1 else rttTicks
  if rttTicks > c.maximum then c.maximum else rttTicks

/-- The timeout: the smoothed round trip and at least a tick of variation, within the bounds. --/
def rttTimeout (c : RtoBounds) (e : RttEstimator) : Option ULONG := do
  let variation := if e.variation = 0 then 1 else e.variation
  let rto ← add (e.smoothed >>> 3) variation
  let rto := if rto < c.minimum then c.minimum else rto
  return if rto > c.maximum then c.maximum else rto

/-- The first measurement, RFC 6298 section 2.2; the scaling shifts out no bit. --/
def rttFirst (e : RttEstimator) (rttTicks : ULONG) : Option RttEstimator := do
  let doubled ← double rttTicks
  let fourfold ← double doubled
  let smoothed ← double fourfold
  return { e with smoothed := smoothed, variation := doubled }

/-- The size of the error. --/
def rttMagnitude (error : ULONG) : Option ULONG := if INT error < 0 then subSigned 0 error else some error

/-- Every later measurement, section 2.3: the variation moves first. --/
def rttLater (e : RttEstimator) (rttTicks : ULONG) : Option RttEstimator := do
  let error ← subSigned rttTicks (e.smoothed >>> 3)
  let magnitude ← rttMagnitude error
  let kept ← sub e.variation (e.variation >>> 2)
  let variation ← add kept magnitude
  let smoothed ← addSigned e.smoothed error
  return { e with smoothed := smoothed, variation := variation }

/-- The measurement proper. --/
def rttMeasure (e : RttEstimator) (rttTicks : ULONG) : Option RttEstimator :=
  if e.smoothed = 0 then rttFirst e rttTicks else rttLater e rttTicks

/-- `_nx_tcp_socket_rtt_sample`; nothing comes out where an intermediate value leaves its 32 bits. --/
def rttSample (c : RtoBounds) (e : RttEstimator) (rttTicks : ULONG) : Option RttEstimator :=
  if e.configured then some e
  else do
    let e ← rttMeasure e (rttClamp c rttTicks)
    let rto ← rttTimeout c e
    return { e with timeoutRate := rto }

/-- One sample after the other. --/
def rttSamples (c : RtoBounds) (e : RttEstimator) (samples : List ULONG) : Option RttEstimator :=
  samples.foldlM (rttSample c) e

/-! ### Bounds -/

/-- What a sample leaves: the smoothed round trip between one tick and the longest timeout, the variation at most the
    longest timeout, each in its scale, and the timeout within its bounds. --/
structure RttEstimator.Bounded (c : RtoBounds) (e : RttEstimator) : Prop where
  smoothed_pos : 8 ≤ e.smoothed.toNat
  smoothed_le : e.smoothed.toNat ≤ 8 * c.maximum.toNat
  variation_le : e.variation.toNat ≤ 4 * c.maximum.toNat
  timeout_ge : c.minimum.toNat ≤ e.timeoutRate.toNat
  timeout_le : e.timeoutRate.toNat ≤ c.maximum.toNat

section
variable {c : RtoBounds} {e : RttEstimator} {sample rttTicks : ULONG}

theorem rttClamp_spec (c : RtoBounds) (sample : ULONG) :
    1 ≤ (rttClamp c sample).toNat ∧ (rttClamp c sample).toNat ≤ c.maximum.toNat := by
  have hpos : 1 ≤ c.maximum.toNat := c.positive
  unfold rttClamp
  dsimp only
  generalize hx : (if sample = 0 then (1 : ULONG) else sample) = x
  have hone : 1 ≤ x.toNat := by
    rw [← hx]
    split
    · decide
    · rename_i hne
      exact Nat.pos_of_ne_zero fun h => hne (BitVec.eq_of_toNat_eq h)
  split
  · exact ⟨hpos, Nat.le_refl _⟩
  · rename_i hle
    exact ⟨hone, Nat.le_of_not_lt hle⟩

/-- The smoothed value, unscaled. --/
theorem toNat_shift (x : ULONG) (n : Nat) : (x >>> n).toNat = x.toNat / 2 ^ n := by
  rw [BitVec.toNat_ushiftRight, Nat.shiftRight_eq_div_pow]

theorem toInt_small {x : ULONG} (h : x.toNat < 2 ^ 31) : x.toInt = x.toNat := by
  rw [BitVec.toInt_eq_toNat_cond, if_pos (by omega)]

theorem rttTimeout_spec (hsmoothed : e.smoothed.toNat ≤ 8 * c.maximum.toNat)
    (hvariation : e.variation.toNat ≤ 4 * c.maximum.toNat) :
    ∃ rto, rttTimeout c e = some rto ∧ c.minimum.toNat ≤ rto.toNat ∧ rto.toNat ≤ c.maximum.toNat := by
  have hroom : 8 * c.maximum.toNat < 2 ^ 31 := c.room
  have hordered : c.minimum.toNat ≤ c.maximum.toNat := c.ordered
  have hshift := toNat_shift e.smoothed 3
  unfold rttTimeout
  dsimp only
  generalize hv : (if e.variation = 0 then (1 : ULONG) else e.variation) = variation
  have hle : variation.toNat ≤ 4 * c.maximum.toNat + 1 := by
    rw [← hv]
    split
    · show 1 ≤ _
      omega
    · omega
  have hsum : (e.smoothed >>> 3).toNat + variation.toNat < 2 ^ 32 := by omega
  rw [add_eq hsum, Option.bind_eq_bind, Option.bind_some]
  refine ⟨_, rfl, ?_⟩
  generalize (e.smoothed >>> 3) + variation = rto
  by_cases hlow : rto < c.minimum
  · rw [if_pos hlow]
    have hnot : ¬c.minimum > c.maximum := Nat.not_lt.mpr hordered
    rw [if_neg hnot]
    exact ⟨Nat.le_refl _, hordered⟩
  · rw [if_neg hlow]
    have hlow : ¬rto.toNat < c.minimum.toNat := hlow
    by_cases hhigh : rto > c.maximum
    · rw [if_pos hhigh]
      exact ⟨hordered, Nat.le_refl _⟩
    · rw [if_neg hhigh]
      have hhigh : ¬c.maximum.toNat < rto.toNat := hhigh
      omega

theorem rttFirst_spec (hticks : 1 ≤ rttTicks.toNat) (hmax : rttTicks.toNat ≤ c.maximum.toNat) :
    ∃ e', rttFirst e rttTicks = some e' ∧ e'.configured = e.configured ∧ 8 ≤ e'.smoothed.toNat ∧
      e'.smoothed.toNat ≤ 8 * c.maximum.toNat ∧ e'.variation.toNat ≤ 4 * c.maximum.toNat := by
  have hroom : 8 * c.maximum.toNat < 2 ^ 31 := c.room
  have h₁ : 2 * rttTicks.toNat < 2 ^ 32 := by omega
  have hd₁ := toNat_double h₁
  have h₂ : 2 * (rttTicks <<< 1).toNat < 2 ^ 32 := by omega
  have hd₂ := toNat_double h₂
  have h₃ : 2 * (rttTicks <<< 1 <<< 1).toNat < 2 ^ 32 := by omega
  have hd₃ := toNat_double h₃
  unfold rttFirst
  simp only [double_eq h₁, double_eq h₂, double_eq h₃, Option.bind_eq_bind, Option.bind_some]
  refine ⟨_, rfl, rfl, ?_, ?_, ?_⟩
  · dsimp only
    omega
  · dsimp only
    omega
  · dsimp only
    omega

theorem rttMagnitude_spec (error : ULONG) (bound : Nat) (hbound : bound < 2 ^ 31) (hlow : -(bound : Int) ≤ error.toInt)
    (hhigh : error.toInt ≤ bound) : ∃ magnitude, rttMagnitude error = some magnitude ∧ magnitude.toNat ≤ bound := by
  have hzero : (0 : ULONG).toInt = 0 := rfl
  unfold rttMagnitude
  by_cases hneg : INT error < 0
  · have hneg' : error.toInt < 0 := hneg
    obtain ⟨hsub, hsubInt⟩ := subSigned_eq (x := (0 : ULONG)) (y := error) (by
      simp only [BitVec.ssubOverflow, hzero, Bool.or_eq_false_iff, decide_eq_false_iff_not]
      omega)
    refine ⟨_, (if_pos hneg).trans hsub, ?_⟩
    have := BitVec.toInt_eq_toNat_cond (0 - error)
    split at this <;> omega
  · have hneg' : ¬error.toInt < 0 := hneg
    refine ⟨error, if_neg hneg, ?_⟩
    have := BitVec.toInt_eq_toNat_cond error
    split at this <;> omega

/-- A later measurement: the smoothed value moves an eighth of the error, the variation gives up a quarter and takes
    the error. --/
theorem rttLater_spec (hticks : 1 ≤ rttTicks.toNat) (hmax : rttTicks.toNat ≤ c.maximum.toNat)
    (hpos : 8 ≤ e.smoothed.toNat) (hle : e.smoothed.toNat ≤ 8 * c.maximum.toNat)
    (hvariation : e.variation.toNat ≤ 4 * c.maximum.toNat) :
    ∃ e', rttLater e rttTicks = some e' ∧ e'.configured = e.configured ∧ 8 ≤ e'.smoothed.toNat ∧
      e'.smoothed.toNat ≤ 8 * c.maximum.toNat ∧ e'.variation.toNat ≤ 4 * c.maximum.toNat := by
  have hroom : 8 * c.maximum.toNat < 2 ^ 31 := c.room
  have hshift := toNat_shift e.smoothed 3
  have hquarter := toNat_shift e.variation 2
  have hticksInt := toInt_small (x := rttTicks) (by omega)
  have hshiftInt := toInt_small (x := e.smoothed >>> 3) (by omega)
  have hsmoothedInt := toInt_small (x := e.smoothed) (by omega)
  -- the error
  obtain ⟨herror, herrorInt⟩ := subSigned_eq (x := rttTicks) (y := e.smoothed >>> 3) (by
    simp only [BitVec.ssubOverflow, hticksInt, hshiftInt, Bool.or_eq_false_iff, decide_eq_false_iff_not]
    omega)
  generalize rttTicks - e.smoothed >>> 3 = error at herror herrorInt
  obtain ⟨magnitude, hmagnitude, hmagnitudeNat⟩ := rttMagnitude_spec error c.maximum.toNat
    (by omega) (by omega) (by omega)
  have hkept : (e.variation >>> 2).toNat ≤ e.variation.toNat := by omega
  have hkeptNat := toNat_sub hkept
  have hsum : (e.variation - e.variation >>> 2).toNat + magnitude.toNat < 2 ^ 32 := by omega
  obtain ⟨hsmoothed, hnextInt⟩ := addSigned_eq (x := e.smoothed) (y := error) (by
    simp only [BitVec.saddOverflow, hsmoothedInt, Bool.or_eq_false_iff, decide_eq_false_iff_not]
    omega)
  have hnextNat := BitVec.toInt_eq_toNat_cond (e.smoothed + error)
  unfold rttLater
  simp only [herror, hmagnitude, sub_eq hkept, add_eq hsum, hsmoothed, Option.bind_eq_bind, Option.bind_some]
  refine ⟨_, rfl, rfl, ?_, ?_, ?_⟩
  · dsimp only
    split at hnextNat <;> omega
  · dsimp only
    split at hnextNat <;> omega
  · dsimp only
    rw [toNat_add hsum]
    omega

/-- A sample on a socket that measures: the first one as the later ones. --/
theorem rttSample_spec (hconfigured : e.configured = false) (h : e.smoothed = 0 ∨ e.Bounded c) (sample : ULONG) :
    ∃ e', rttSample c e sample = some e' ∧ e'.configured = false ∧ e'.Bounded c := by
  obtain ⟨hticks, hmax⟩ := rttClamp_spec c sample
  obtain ⟨e₁, hstep, hconfigured₁, hpos₁, hle₁, hvariation₁⟩ : ∃ e₁,
      rttMeasure e (rttClamp c sample) = some e₁ ∧
        e₁.configured = e.configured ∧ 8 ≤ e₁.smoothed.toNat ∧ e₁.smoothed.toNat ≤ 8 * c.maximum.toNat ∧
        e₁.variation.toNat ≤ 4 * c.maximum.toNat := by
    unfold rttMeasure
    by_cases hzero : e.smoothed = 0
    · rw [if_pos hzero]
      exact rttFirst_spec hticks hmax
    · rw [if_neg hzero]
      have hb := h.resolve_left hzero
      exact rttLater_spec hticks hmax hb.smoothed_pos hb.smoothed_le hb.variation_le
  obtain ⟨rto, hrto, hmin, hmaxRto⟩ := rttTimeout_spec hle₁ hvariation₁
  refine ⟨{ e₁ with timeoutRate := rto }, ?_, hconfigured₁.trans hconfigured, ⟨hpos₁, hle₁, hvariation₁, hmin, hmaxRto⟩⟩
  unfold rttSample
  rw [hconfigured, if_neg Bool.false_ne_true, hstep, Option.bind_eq_bind, Option.bind_some, hrto]
  rfl

theorem rttSamples_spec (hconfigured : e.configured = false) (h : e.Bounded c) (samples : List ULONG) :
    ∃ e', rttSamples c e samples = some e' ∧ e'.configured = false ∧ e'.Bounded c := by
  induction samples generalizing e with
  | nil => exact ⟨e, rfl, hconfigured, h⟩
  | cons sample samples ih =>
    obtain ⟨e₁, hstep, hconfigured₁, h₁⟩ := rttSample_spec hconfigured (.inr h) sample
    obtain ⟨e', hrun, hconfigured', h'⟩ := ih hconfigured₁ h₁
    refine ⟨e', ?_, hconfigured', h'⟩
    rw [rttSamples, List.foldlM_cons, hstep]
    exact hrun

end

/-- Over any samples nothing overflows, and after the first one the estimator stays within its bounds. --/
theorem rttSamples_bounded (c : RtoBounds) (e : RttEstimator) (hconfigured : e.configured = false)
    (hstart : e.smoothed = 0) (sample : ULONG) (samples : List ULONG) :
    ∃ e', rttSamples c e (sample :: samples) = some e' ∧ e'.smoothed ≠ 0 ∧ e'.Bounded c := by
  obtain ⟨e₁, hstep, hconfigured₁, h₁⟩ := rttSample_spec hconfigured (.inl hstart) sample
  obtain ⟨e', hrun, -, h'⟩ := rttSamples_spec hconfigured₁ h₁ samples
  refine ⟨e', ?_, fun hzero => ?_, h'⟩
  · rw [rttSamples, List.foldlM_cons, hstep]
    exact hrun
  · have := h'.smoothed_pos
    rw [hzero] at this
    exact absurd this (by decide)

/-- A clock that jumps by half its range after a round trip of no tick. --/
theorem rttSamples_bounded_jump :
    ∃ e', rttSamples {} ⟨false, 0, 0, 100⟩ [0, 0x80000000, 3] = some e' ∧ e'.smoothed ≠ 0 ∧ e'.Bounded {} :=
  rttSamples_bounded {} ⟨false, 0, 0, 100⟩ rfl rfl 0 [0x80000000, 3]

end Netxduo
