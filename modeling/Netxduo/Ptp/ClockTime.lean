import Mathlib

/-! The times of the clock client: signed seconds in two words of 32 bits with nanoseconds, their sum, difference and
    half, and the correction of the software clock. -/

namespace Netxduo.Ptp.ClockTime

/-! ### The source -/

/-- The `LONG` and the `ULONG` the seconds are kept in. --/
structure Words where
  high : BitVec 32
  low : BitVec 32
deriving DecidableEq, Repr

/-- `NX_PTP_TIME`. The nanoseconds are a `LONG`, which the sum of two of them below a second does not leave. --/
structure Time where
  second : Words
  nanosecond : Int
deriving DecidableEq, Repr

/-- `NX_PTP_NANOSECONDS_PER_SEC` --/
def nanosecondsPerSec : Int := 1000000000

/-- `_nx_ptp_client_utility_add64` --/
def add64 (a b : Words) : Words :=
  ⟨a.high + b.high + if a.low + b.low < a.low ∨ a.low + b.low < b.low then 1 else 0, a.low + b.low⟩

/-- `_nx_ptp_client_utility_sub64` --/
def sub64 (a b : Words) : Words := ⟨a.high - b.high - if a.low < b.low then 1 else 0, a.low - b.low⟩

/-- `_nx_ptp_client_utility_inc64` --/
def inc64 (a : Words) : Words := ⟨if a.low + 1 = 0 then a.high + 1 else a.high, a.low + 1⟩

/-- `_nx_ptp_client_utility_dec64` --/
def dec64 (a : Words) : Words := ⟨if a.low = 0 then a.high - 1 else a.high, a.low - 1⟩

/-- `_nx_ptp_client_utility_neg64` --/
def neg64 (a : Words) : Words := ⟨-a.high - if a.low ≠ 0 then 1 else 0, -a.low⟩

/-- The nanoseconds are brought back below a second. --/
def carry (s : Words) (ns : Int) : Time :=
  if ns ≤ -nanosecondsPerSec then ⟨dec64 s, ns + nanosecondsPerSec⟩
  else if ns ≥ nanosecondsPerSec then ⟨inc64 s, ns - nanosecondsPerSec⟩
  else ⟨s, ns⟩

/-- The nanoseconds get the sign of the seconds. --/
def align (t : Time) : Time :=
  if 0 ≤ t.second.high.toInt ∧ (t.second.high ≠ 0 ∨ t.second.low ≠ 0) then
    if t.nanosecond < 0 then ⟨dec64 t.second, t.nanosecond + nanosecondsPerSec⟩ else t
  else if t.second.high.toInt < 0 then
    if t.nanosecond > 0 then ⟨inc64 t.second, t.nanosecond - nanosecondsPerSec⟩ else t
  else t

/-- `_nx_ptp_client_utility_time_diff` --/
def timeDiff (a b : Time) : Time := align (carry (sub64 a.second b.second) (a.nanosecond - b.nanosecond))

/-- `_nx_ptp_client_utility_time_sum` --/
def timeSum (a b : Time) : Time := align (carry (add64 a.second b.second) (a.nanosecond + b.nanosecond))

/-- The shift of two words by one, the high one with its sign. --/
def shift (s : Words) : Words :=
  ⟨s.high.sshiftRight 1, (s.low >>> 1) ||| if s.high &&& 1 ≠ 0 then 0x80000000 else 0⟩

/-- The halving of `_nx_ptp_client_utility_time_div_by_2`, of what was made positive. --/
def halve (t : Time) : Time := ⟨shift t.second, t.nanosecond / 2 + if t.second.low &&& 1 ≠ 0 then 500000000 else 0⟩

def negate (t : Time) : Time := ⟨neg64 t.second, -t.nanosecond⟩

/-- `_nx_ptp_client_utility_time_div_by_2` --/
def timeDivBy2 (t : Time) : Time :=
  if t.second.high.toInt < 0 ∨ t.nanosecond < 0 then negate (halve (negate t)) else halve t

/-- `_nx_ptp_client_soft_clock_adjust` --/
def softClockAdjust (clock : Time) (offsetNs : Int) : Time :=
  let offsetNs :=
    if offsetNs > nanosecondsPerSec then nanosecondsPerSec
    else if offsetNs < -nanosecondsPerSec then -nanosecondsPerSec
    else offsetNs
  let ns := clock.nanosecond + offsetNs
  if ns ≥ nanosecondsPerSec then ⟨inc64 clock.second, ns - nanosecondsPerSec⟩
  else if ns < 0 then ⟨dec64 clock.second, ns + nanosecondsPerSec⟩
  else ⟨clock.second, ns⟩

/-- `_nx_ptp_client_clock_adjust`, with the software clock behind the callback. --/
def clockAdjust (clock offset : Time) : Time :=
  if offset.second.high = 0 ∧ offset.second.low = 0 then softClockAdjust clock offset.nanosecond
  else
    let ns := clock.nanosecond + offset.nanosecond
    let current : Time :=
      if ns < 0 then ⟨dec64 clock.second, ns + nanosecondsPerSec⟩
      else if ns ≥ nanosecondsPerSec then ⟨inc64 clock.second, ns - nanosecondsPerSec⟩
      else ⟨clock.second, ns⟩
    ⟨add64 current.second offset.second, current.nanosecond⟩

/-- `NX_PTP_CLIENT`, as far as the correction reads and writes it. --/
structure Client where
  sync : Time
  syncTs : Time
  delayTs : Time
  softClock : Time
  calibrated : Bool
  delayIdle : Bool
deriving DecidableEq, Repr

/-- The words of the correctionField in a header. --/
structure Header where
  cFieldHigh : BitVec 32
  cFieldLow : BitVec 32

/-- `_nx_ptp_msg_parse_timestamp`, of the 16, 32 and 32 bits on the wire. --/
def parseTimestamp (secondHigh : BitVec 16) (secondLow nanosecond : BitVec 32) : Time :=
  ⟨⟨secondHigh.setWidth 32, secondLow⟩, nanosecond.toInt⟩

/-- `correctionNS`: two shifts of words of 32 bits. --/
def correctionNs (hdr : Header) : Nat := ((hdr.cFieldHigh <<< 16) ||| (hdr.cFieldLow >>> 16)).toNat

/-- `_nx_ptp_client_sync_received`, up to the request for the delay. --/
def syncReceived (client : Client) (timestamp : Time) (hdr : Header) : Client :=
  { client with
    sync :=
      if correctionNs hdr ≠ 0 then
        timeSum timestamp ⟨⟨0, BitVec.ofNat 32 (correctionNs hdr / 1000000000)⟩, (correctionNs hdr % 1000000000 : Nat)⟩
      else timestamp }

/-- The offset `_nx_ptp_client_delay_resp_received` computes. --/
def offset (client : Client) (t4 : Time) : Time :=
  timeDivBy2 (timeDiff (timeDiff t4 client.delayTs) (timeDiff client.syncTs client.sync))

/-- `_nx_ptp_client_delay_resp_received` --/
def delayRespReceived (client : Client) (t4 : Time) : Client :=
  if client.sync.second.low = 0 ∧ client.sync.second.high = 0 then client
  else { client with softClock := clockAdjust client.softClock (offset client t4), calibrated := true, delayIdle :=
    true }

/-! ### Two words as a number -/

/-- The 64 bits of the two words. --/
def join (s : Words) : BitVec 64 := s.high ++ s.low

/-- The seconds, as a signed number. --/
def secs (s : Words) : Int := (join s).toInt

/-- A signed number of 64 bits. --/
def Fits (n : Int) : Prop := -2 ^ 63 ≤ n ∧ n < 2 ^ 63

instance (n : Int) : Decidable (Fits n) := inferInstanceAs (Decidable (_ ∧ _))

section
variable {s s' : Words} {t a b : Time}

theorem toNat_join (s : Words) : (join s).toNat = s.high.toNat * 2 ^ 32 + s.low.toNat := by
  rw [join, BitVec.toNat_append, ← Nat.shiftLeft_add_eq_or_of_lt s.low.isLt, Nat.shiftLeft_eq]

theorem fits_secs (s : Words) : Fits (secs s) := ⟨BitVec.le_toInt _, BitVec.toInt_lt⟩

theorem join_eq (s : Words) : join s = BitVec.ofInt 64 (secs s) := BitVec.ofInt_toInt.symm

/-- Words with the bits of a number that fits have the number. --/
theorem secs_eq {n : Int} (h : join s = BitVec.ofInt 64 n) (hn : Fits n) : secs s = n := by
  obtain ⟨hlow, hhigh⟩ := hn
  rw [secs, h, BitVec.toInt_ofInt]
  exact Int.bmod_eq_of_le (by omega) (by omega)

theorem join_add64 (s s' : Words) : join (add64 s s') = join s + join s' := by
  apply BitVec.eq_of_toNat_eq
  have h₁ := s.low.isLt
  have h₂ := s'.low.isLt
  have h₃ := s.high.isLt
  have h₄ := s'.high.isLt
  rw [BitVec.toNat_add, toNat_join, toNat_join, toNat_join]
  unfold add64
  simp only [BitVec.lt_def, BitVec.toNat_add]
  split <;> simp <;> omega

theorem join_sub64 (s s' : Words) : join (sub64 s s') = join s - join s' := by
  apply BitVec.eq_of_toNat_eq
  have h₁ := s.low.isLt
  have h₂ := s'.low.isLt
  have h₃ := s.high.isLt
  have h₄ := s'.high.isLt
  rw [BitVec.toNat_sub, toNat_join, toNat_join, toNat_join]
  unfold sub64
  simp only [BitVec.lt_def, BitVec.toNat_sub]
  split <;> simp <;> omega

theorem join_inc64 (s : Words) : join (inc64 s) = join s + 1 := by
  apply BitVec.eq_of_toNat_eq
  have h₁ := s.low.isLt
  have h₃ := s.high.isLt
  rw [BitVec.toNat_add, toNat_join, toNat_join]
  unfold inc64
  simp only [BitVec.toNat_add, ← BitVec.toNat_inj]
  split <;> simp_all <;> omega

theorem join_dec64 (s : Words) : join (dec64 s) = join s - 1 := by
  apply BitVec.eq_of_toNat_eq
  have h₁ := s.low.isLt
  have h₃ := s.high.isLt
  rw [BitVec.toNat_sub, toNat_join, toNat_join]
  unfold dec64
  simp only [BitVec.toNat_sub, ← BitVec.toNat_inj]
  split <;> simp_all <;> omega

theorem join_neg64 (s : Words) : join (neg64 s) = -join s := by
  apply BitVec.eq_of_toNat_eq
  have h₁ := s.low.isLt
  have h₃ := s.high.isLt
  rw [BitVec.toNat_neg, toNat_join, toNat_join]
  unfold neg64
  simp only [BitVec.toNat_neg, ne_eq, ← BitVec.toNat_inj]
  split <;> simp_all [BitVec.toNat_sub, BitVec.toNat_neg] <;> omega

/-- Each operation on words is that on the numbers, as far as the result fits. --/
theorem secs_add64 (h : Fits (secs s + secs s')) : secs (add64 s s') = secs s + secs s' :=
  secs_eq (by rw [join_add64, join_eq s, join_eq s', BitVec.ofInt_add]) h

theorem secs_sub64 (h : Fits (secs s - secs s')) : secs (sub64 s s') = secs s - secs s' :=
  secs_eq (by rw [join_sub64, join_eq s, join_eq s', sub_eq_add_neg (secs s), BitVec.ofInt_add, BitVec.ofInt_neg,
    BitVec.sub_eq_add_neg]) h

theorem secs_inc64 (h : secs s + 1 < 2 ^ 63) : secs (inc64 s) = secs s + 1 :=
  secs_eq (by rw [join_inc64, join_eq s, BitVec.ofInt_add]; rfl) ⟨by have := (fits_secs s).1; omega, h⟩

theorem secs_dec64 (h : -2 ^ 63 ≤ secs s - 1) : secs (dec64 s) = secs s - 1 :=
  secs_eq (by rw [join_dec64, join_eq s, sub_eq_add_neg (secs s), BitVec.ofInt_add, BitVec.sub_eq_add_neg]; rfl)
    ⟨h, by have := (fits_secs s).2; omega⟩

theorem secs_neg64 (h : secs s ≠ -2 ^ 63) : secs (neg64 s) = -secs s :=
  secs_eq (by rw [join_neg64, join_eq s, BitVec.ofInt_neg]) (by
    obtain ⟨hlow, hhigh⟩ := fits_secs s
    exact ⟨by omega, by omega⟩)

/-- The high word has the sign. --/
theorem high_neg : s.high.toInt < 0 ↔ secs s < 0 := by
  have h₁ := s.low.isLt
  have h₂ := s.high.isLt
  rw [secs, BitVec.toInt_eq_toNat_cond, BitVec.toInt_eq_toNat_cond, toNat_join]
  split <;> split <;> omega

theorem high_low_zero : s.high = 0 ∧ s.low = 0 ↔ secs s = 0 := by
  have h₁ := s.low.isLt
  have h₂ := s.high.isLt
  rw [secs, BitVec.toInt_eq_toNat_cond, toNat_join, ← BitVec.toNat_inj, ← BitVec.toNat_inj]
  simp only [BitVec.ofNat_eq_ofNat, BitVec.toNat_ofNat, Nat.zero_mod]
  split <;> omega

/-! ### Sum and difference -/

/-- The whole number of nanoseconds. --/
def value (t : Time) : Int := secs t.second * 1000000000 + t.nanosecond

/-- The nanoseconds are below a second, and never of the sign opposite to the seconds. --/
structure Canonical (t : Time) : Prop where
  low : -1000000000 < t.nanosecond
  high : t.nanosecond < 1000000000
  positive : 0 < secs t.second → 0 ≤ t.nanosecond
  negative : secs t.second < 0 → t.nanosecond ≤ 0

/-- The seconds of a number of nanoseconds, rounded toward zero, fit. --/
def FitsTime (v : Int) : Prop := Fits (v.tdiv 1000000000)

instance (v : Int) : Decidable (FitsTime v) := inferInstanceAs (Decidable (Fits _))

theorem fitsTime_iff {v : Int} : FitsTime v ↔
    -(2 ^ 63 + 1) * 1000000000 < v ∧ v < 2 ^ 63 * 1000000000 := by
  unfold FitsTime Fits
  rcases le_total 0 v with h | h
  · rw [Int.tdiv_eq_ediv_of_nonneg h]
    omega
  · obtain ⟨w, rfl⟩ : ∃ w, v = -w := ⟨-v, (neg_neg v).symm⟩
    rw [Int.neg_tdiv, Int.tdiv_eq_ediv_of_nonneg (by omega)]
    omega

theorem carry_spec {n : Int} (hlow : -2000000000 < n) (hhigh : n < 2000000000)
    (hfits : FitsTime (secs s * 1000000000 + n)) :
    value (carry s n) = secs s * 1000000000 + n ∧ -1000000000 < (carry s n).nanosecond ∧
      (carry s n).nanosecond < 1000000000 := by
  obtain ⟨hmin, hmax⟩ := fitsTime_iff.mp hfits
  unfold carry nanosecondsPerSec value
  split_ifs
  · rw [secs_dec64 (by omega)]
    dsimp only
    omega
  · rw [secs_inc64 (by omega)]
    dsimp only
    omega
  · dsimp only
    omega

theorem align_spec (hlow : -1000000000 < t.nanosecond) (hhigh : t.nanosecond < 1000000000) :
    value (align t) = value t ∧ Canonical (align t) := by
  have hneg := @high_neg t.second
  have hzero := @high_low_zero t.second
  have hpositive : (0 ≤ t.second.high.toInt ∧ (t.second.high ≠ 0 ∨ t.second.low ≠ 0)) ↔ 0 < secs t.second := by
    rw [← not_and_or, hzero, ← not_lt, hneg]
    omega
  unfold align nanosecondsPerSec
  rw [if_congr hpositive rfl rfl, if_congr hneg rfl rfl]
  obtain ⟨hmin, hmax⟩ := fits_secs t.second
  unfold value
  split_ifs
  · rw [secs_dec64 (by omega)]
    exact ⟨by dsimp only; omega, ⟨by dsimp only; omega, by dsimp only; omega, fun _ => by dsimp only; omega,
      fun h => by rw [secs_dec64 (by omega)] at h; omega⟩⟩
  · exact ⟨rfl, hlow, hhigh, fun _ => by omega, fun _ => by omega⟩
  · rw [secs_inc64 (by omega)]
    exact ⟨by dsimp only; omega, ⟨by dsimp only; omega, by dsimp only; omega,
      fun h => by rw [secs_inc64 (by omega)] at h; omega, fun _ => by dsimp only; omega⟩⟩
  · exact ⟨rfl, hlow, hhigh, fun _ => by omega, fun _ => by omega⟩
  · exact ⟨rfl, hlow, hhigh, fun _ => by omega, fun _ => by omega⟩

/-- Nanoseconds below a second, of any sign. --/
def InRange (t : Time) : Prop := -1000000000 < t.nanosecond ∧ t.nanosecond < 1000000000

theorem timeDiff_spec (ha : InRange a) (hb : InRange b) (hsecs : Fits (secs a.second - secs b.second))
    (hfits : FitsTime (value a - value b)) :
    value (timeDiff a b) = value a - value b ∧ Canonical (timeDiff a b) := by
  obtain ⟨ha₁, ha₂⟩ := ha
  obtain ⟨hb₁, hb₂⟩ := hb
  have hvalue : secs (sub64 a.second b.second) * 1000000000 + (a.nanosecond - b.nanosecond) = value a - value b := by
    rw [secs_sub64 hsecs]
    unfold value
    ring
  obtain ⟨hsame, hlow, hhigh⟩ := carry_spec (s := sub64 a.second b.second) (n := a.nanosecond - b.nanosecond)
    (by omega) (by omega) (by rw [hvalue]; exact hfits)
  obtain ⟨halign, hcanonical⟩ := align_spec hlow hhigh
  exact ⟨halign.trans (hsame.trans hvalue), hcanonical⟩

theorem timeSum_spec (ha : InRange a) (hb : InRange b) (hsecs : Fits (secs a.second + secs b.second))
    (hfits : FitsTime (value a + value b)) :
    value (timeSum a b) = value a + value b ∧ Canonical (timeSum a b) := by
  obtain ⟨ha₁, ha₂⟩ := ha
  obtain ⟨hb₁, hb₂⟩ := hb
  have hvalue : secs (add64 a.second b.second) * 1000000000 + (a.nanosecond + b.nanosecond) = value a + value b := by
    rw [secs_add64 hsecs]
    unfold value
    ring
  obtain ⟨hsame, hlow, hhigh⟩ := carry_spec (s := add64 a.second b.second) (n := a.nanosecond + b.nanosecond)
    (by omega) (by omega) (by rw [hvalue]; exact hfits)
  obtain ⟨halign, hcanonical⟩ := align_spec hlow hhigh
  exact ⟨halign.trans (hsame.trans hvalue), hcanonical⟩

/-- The seconds of a canonical time are its value rounded toward zero. --/
theorem Canonical.secs_eq (h : Canonical t) : secs t.second = (value t).tdiv 1000000000 := by
  obtain ⟨hlow, hhigh, hpositive, hnegative⟩ := h
  have hzero : value t = secs t.second * 1000000000 + t.nanosecond := rfl
  rcases lt_trichotomy (secs t.second) 0 with hs | hs | hs
  · have := hnegative hs
    obtain ⟨w, hw⟩ : ∃ w, value t = -w := ⟨-value t, (neg_neg _).symm⟩
    rw [hw, Int.neg_tdiv, Int.tdiv_eq_ediv_of_nonneg (by omega)]
    omega
  · rcases le_total 0 t.nanosecond with hn | hn
    · rw [Int.tdiv_eq_ediv_of_nonneg (by omega)]
      omega
    · obtain ⟨w, hw⟩ : ∃ w, value t = -w := ⟨-value t, (neg_neg _).symm⟩
      rw [hw, Int.neg_tdiv, Int.tdiv_eq_ediv_of_nonneg (by omega)]
      omega
  · have := hpositive hs
    rw [Int.tdiv_eq_ediv_of_nonneg (by omega)]
    omega

/-! ### Halving -/

theorem one_and (x : BitVec 32) : x &&& 1 ≠ 0 ↔ x.toNat % 2 = 1 := by
  rw [ne_eq, ← BitVec.toNat_inj, BitVec.toNat_and]
  simp only [BitVec.ofNat_eq_ofNat, BitVec.toNat_ofNat, Nat.zero_mod, Nat.reducePow, Nat.one_mod, Nat.and_one_is_mod]
  omega

/-- The words of a number that is not negative are shifted as one. --/
theorem secs_shift (h : 0 ≤ secs s) : secs (shift s) = secs s / 2 := by
  have h₁ := s.low.isLt
  have h₂ := s.high.isLt
  have hhigh : 2 * s.high.toNat < 2 ^ 32 := by
    rw [secs, BitVec.toInt_eq_toNat_cond, toNat_join] at h
    split at h <;> omega
  have hor : ∀ x : Nat, x < 2 ^ 31 → x ||| 2 ^ 31 = 2 ^ 31 + x := fun x hx => by
    have := Nat.two_pow_add_eq_or_of_lt hx 1
    rw [Nat.mul_one] at this
    rw [Nat.or_comm, ← this]
  have hnat : (join (shift s)).toNat = (join s).toNat / 2 := by
    rw [toNat_join, toNat_join]
    unfold shift
    dsimp only
    rw [BitVec.toNat_sshiftRight_of_msb_false (BitVec.msb_eq_false_iff_two_mul_lt.mpr hhigh),
      if_congr (one_and _) rfl rfl,
      BitVec.toNat_or, BitVec.toNat_ushiftRight, Nat.shiftRight_eq_div_pow, Nat.shiftRight_eq_div_pow]
    split
    · rw [show (0x80000000 : BitVec 32).toNat = 2 ^ 31 from rfl, hor _ (by omega)]
      omega
    · rw [show (0 : BitVec 32).toNat = 0 from rfl, Nat.or_zero]
      omega
  rw [secs, secs, BitVec.toInt_eq_toNat_cond, BitVec.toInt_eq_toNat_cond, hnat, toNat_join]
  split <;> split <;> omega

theorem low_odd : s.low &&& 1 ≠ 0 ↔ secs s % 2 = 1 := by
  rw [one_and, secs, BitVec.toInt_eq_toNat_cond, toNat_join]
  split <;> omega

theorem halve_spec (hs : 0 ≤ secs t.second) (hlow : 0 ≤ t.nanosecond) (hhigh : t.nanosecond < 1000000000) :
    value (halve t) = value t / 2 ∧ 0 ≤ secs (halve t).second ∧ 0 ≤ (halve t).nanosecond ∧
      (halve t).nanosecond < 1000000000 ∧ secs (halve t).second ≠ -2 ^ 63 := by
  have hsecs : secs (halve t).second = secs t.second / 2 := secs_shift hs
  have hns : (halve t).nanosecond = t.nanosecond / 2 + if secs t.second % 2 = 1 then 500000000 else 0 := by
    unfold halve
    rw [if_congr low_odd rfl rfl]
  unfold value
  rw [hsecs, hns]
  split <;> omega

theorem value_negate (h : secs t.second ≠ -2 ^ 63) : value (negate t) = -value t := by
  unfold value negate
  rw [secs_neg64 h]
  ring

/-- Half of a canonical time, rounded toward zero; the time with the least seconds has no opposite. --/
theorem timeDivBy2_spec (h : Canonical t) (hmin : secs t.second ≠ -2 ^ 63) :
    value (timeDivBy2 t) = (value t).tdiv 2 ∧ Canonical (timeDivBy2 t) := by
  obtain ⟨hlow, hhigh, hpositive, hnegative⟩ := h
  have hvalue : value t = secs t.second * 1000000000 + t.nanosecond := rfl
  unfold timeDivBy2
  rw [if_congr (or_congr_left high_neg) rfl rfl]
  split
  · rename_i hneg
    have hsecs : secs (negate t).second = -secs t.second := secs_neg64 hmin
    have hns : (negate t).nanosecond = -t.nanosecond := rfl
    obtain ⟨hhalf, hs, hn, hn', hne⟩ := halve_spec (t := negate t) (by omega) (by omega) (by omega)
    have hback : secs (negate (halve (negate t))).second = -secs (halve (negate t)).second := secs_neg64 hne
    have hnback : (negate (halve (negate t))).nanosecond = -(halve (negate t)).nanosecond := rfl
    refine ⟨?_, by omega, by omega, fun _ => by omega, fun _ => by omega⟩
    rw [value_negate hne, hhalf, value_negate hmin, show value t = -(-value t) from (neg_neg _).symm, Int.neg_tdiv,
      neg_neg, Int.tdiv_eq_ediv_of_nonneg (by omega)]
  · rename_i hneg
    rw [not_or, not_lt, not_lt] at hneg
    obtain ⟨hhalf, hs, hn, hn', -⟩ := halve_spec hneg.1 hneg.2 hhigh
    refine ⟨?_, by omega, hn', fun _ => hn, fun _ => by omega⟩
    rw [hhalf, Int.tdiv_eq_ediv_of_nonneg (by omega)]

/-- The time with the least seconds is taken for a positive one after the shift. --/
theorem timeDivBy2_min (h : Canonical t) (hmin : secs t.second = -2 ^ 63) : 0 < value (timeDivBy2 t) := by
  obtain ⟨⟨high, low⟩, ns⟩ := t
  have h₁ := low.isLt
  have h₂ := high.isLt
  have hwords : high = 0x80000000 ∧ low = 0 := by
    rw [secs, BitVec.toInt_eq_toNat_cond, toNat_join] at hmin
    rw [← BitVec.toNat_inj, ← BitVec.toNat_inj]
    simp only [BitVec.ofNat_eq_ofNat, BitVec.toNat_ofNat, Nat.reducePow, Nat.reduceMod, Nat.zero_mod]
    dsimp only at hmin
    split at hmin <;> omega
  obtain ⟨rfl, rfl⟩ := hwords
  have hlow : -1000000000 < ns := h.low
  have hnegative : ns ≤ 0 := h.negative (by rw [hmin]; decide)
  have hneg : (0x80000000 : BitVec 32).toInt < 0 ∨ ns < 0 := Or.inl (by decide)
  have hsecs : secs (neg64 (shift (neg64 ⟨0x80000000, 0⟩))) = 2 ^ 62 := by decide
  have hodd : ¬(negate ⟨⟨0x80000000, 0⟩, ns⟩).second.low &&& 1 ≠ 0 :=
    (by decide : ¬(neg64 ⟨0x80000000, 0⟩).low &&& 1 ≠ 0)
  rw [timeDivBy2, if_pos hneg]
  show 0 < secs (neg64 (shift (neg64 ⟨0x80000000, 0⟩))) * 1000000000 + -(-ns / 2 + if _ then _ else _)
  rw [hsecs, if_neg hodd]
  omega

/-! ### The clock -/

/-- Nanoseconds of a clock. --/
def Whole (t : Time) : Prop := 0 ≤ t.nanosecond ∧ t.nanosecond < 1000000000

instance (t : Time) : Decidable (Whole t) := inferInstanceAs (Decidable (_ ∧ _))

theorem Whole.inRange (h : Whole t) : InRange t := ⟨by have := h.1; omega, h.2⟩

/-- An offset below a second is within the bounds of the adjustment. --/
theorem softClockAdjust_eq {clock : Time} {ns : Int} (hlow : -1000000000 < ns) (hhigh : ns < 1000000000) :
    softClockAdjust clock ns =
      if clock.nanosecond + ns ≥ 1000000000 then ⟨inc64 clock.second, clock.nanosecond + ns - 1000000000⟩
      else if clock.nanosecond + ns < 0 then ⟨dec64 clock.second, clock.nanosecond + ns + 1000000000⟩
      else ⟨clock.second, clock.nanosecond + ns⟩ := by
  have h₁ : ¬ns > 1000000000 := by omega
  have h₂ : ¬ns < -1000000000 := by omega
  simp only [softClockAdjust, nanosecondsPerSec, h₁, h₂, if_false]

/-- The clock gets the offset as it is, in one step or in two. --/
theorem clockAdjust_spec {clock o : Time} (hclock : Whole clock) (ho : Canonical o)
    (hlow : -2 ^ 63 * 1000000000 ≤ value clock + value o) (hhigh : value clock + value o < 2 ^ 63 * 1000000000) :
    value (clockAdjust clock o) = value clock + value o ∧ Whole (clockAdjust clock o) := by
  obtain ⟨hc₁, hc₂⟩ := hclock
  obtain ⟨ho₁, ho₂, -, -⟩ := ho
  unfold value at hlow hhigh ⊢
  unfold clockAdjust
  rw [if_congr high_low_zero rfl rfl]
  split
  · rename_i hzero
    rw [hzero] at hlow hhigh ⊢
    rw [softClockAdjust_eq ho₁ ho₂]
    unfold Whole
    split_ifs
    · rw [secs_inc64 (by omega)]
      dsimp only
      omega
    · rw [secs_dec64 (by omega)]
      dsimp only
      omega
    · dsimp only
      omega
  · unfold Whole nanosecondsPerSec
    dsimp only
    split_ifs
    · have hsecs : secs (add64 (dec64 clock.second) o.second) = secs clock.second - 1 + secs o.second :=
        secs_eq (by rw [join_add64, join_dec64, join_eq clock.second, join_eq o.second, BitVec.ofInt_add,
          sub_eq_add_neg (secs clock.second), BitVec.ofInt_add, BitVec.sub_eq_add_neg]; rfl) ⟨by omega, by omega⟩
      dsimp only
      rw [hsecs]
      omega
    · have hsecs : secs (add64 (inc64 clock.second) o.second) = secs clock.second + 1 + secs o.second :=
        secs_eq (by rw [join_add64, join_inc64, join_eq clock.second, join_eq o.second, BitVec.ofInt_add,
          BitVec.ofInt_add]; rfl) ⟨by omega, by omega⟩
      dsimp only
      rw [hsecs]
      omega
    · have hsecs : secs (add64 clock.second o.second) = secs clock.second + secs o.second :=
        secs_add64 ⟨by omega, by omega⟩
      dsimp only
      rw [hsecs]
      omega

/-! ### The correction field -/

/-- The signed number in the correctionField, in units of a nanosecond divided by 2 ^ 16. --/
def correctionField (hdr : Header) : Int := secs ⟨hdr.cFieldHigh, hdr.cFieldLow⟩

theorem correctionNs_eq (hdr : Header) :
    correctionNs hdr = hdr.cFieldHigh.toNat % 2 ^ 16 * 2 ^ 16 + hdr.cFieldLow.toNat / 2 ^ 16 := by
  have h₁ := hdr.cFieldLow.isLt
  have hshift : hdr.cFieldHigh.toNat <<< 16 % 2 ^ 32 = (hdr.cFieldHigh.toNat % 2 ^ 16) <<< 16 := by
    rw [Nat.shiftLeft_eq, Nat.shiftLeft_eq]
    omega
  rw [correctionNs, BitVec.toNat_or, BitVec.toNat_shiftLeft, BitVec.toNat_ushiftRight, hshift,
    ← Nat.shiftLeft_add_eq_or_of_lt (by rw [Nat.shiftRight_eq_div_pow]; omega), Nat.shiftLeft_eq,
    Nat.shiftRight_eq_div_pow]

theorem secs_parseTimestamp (h : BitVec 16) (l n : BitVec 32) :
    secs (parseTimestamp h l n).second = h.toNat * 2 ^ 32 + l.toNat := by
  have h₁ := h.isLt
  have h₂ := l.isLt
  rw [secs, BitVec.toInt_eq_toNat_cond, toNat_join]
  unfold parseTimestamp
  dsimp only
  rw [BitVec.toNat_setWidth]
  split <;> omega

/-- The master time is the timestamp with 32 bits of the correction. --/
theorem value_syncReceived (client : Client) {h : BitVec 16} {l n : BitVec 32} (hn : Whole (parseTimestamp h l n))
    (hdr : Header) :
    value (syncReceived client (parseTimestamp h l n) hdr).sync = value (parseTimestamp h l n) + correctionNs hdr := by
  obtain ⟨q, hq⟩ : ∃ q, q = correctionNs hdr := ⟨_, rfl⟩
  have hsmall : q < 2 ^ 32 := hq ▸ BitVec.isLt _
  have hsecs := secs_parseTimestamp h l n
  have h₁ := h.isLt
  have h₂ := l.isLt
  show value (if correctionNs hdr ≠ 0 then _ else _) = _
  rw [← hq]
  split
  · have hwords : secs ⟨0, BitVec.ofNat 32 (q / 1000000000)⟩ = q / 1000000000 := by
      rw [secs, BitVec.toInt_eq_toNat_cond, toNat_join]
      simp only [BitVec.ofNat_eq_ofNat, BitVec.toNat_ofNat, Nat.zero_mod]
      split <;> omega
    have hcorrection : value ⟨⟨0, BitVec.ofNat 32 (q / 1000000000)⟩, (q % 1000000000 : Nat)⟩ = q := by
      unfold value
      rw [hwords]
      dsimp only
      omega
    have hvalue : value (parseTimestamp h l n) =
        secs (parseTimestamp h l n).second * 1000000000 + (parseTimestamp h l n).nanosecond := rfl
    obtain ⟨hn₁, hn₂⟩ := hn
    rw [(timeSum_spec ⟨by omega, hn₂⟩ ⟨by dsimp only; omega, by dsimp only; omega⟩ ⟨by rw [hsecs, hwords]; omega,
      by rw [hsecs, hwords]; omega⟩ (by rw [hcorrection]; exact fitsTime_iff.mpr ⟨by omega, by omega⟩)).1, hcorrection]
  · rename_i hzero
    rw [not_not] at hzero
    rw [hzero]
    exact (add_zero _).symm

/-- The 32 bits that are taken are the correction, but for the fraction of a nanosecond, where it has no sign and no
    bits above them. --/
theorem correctionNs_iff (hdr : Header) :
    |65536 * (correctionNs hdr : Int) - correctionField hdr| < 65536 ↔
      0 ≤ correctionField hdr ∧ correctionField hdr < 2 ^ 48 := by
  have h₁ := hdr.cFieldLow.isLt
  have h₂ := hdr.cFieldHigh.isLt
  rw [correctionField, secs, BitVec.toInt_eq_toNat_cond, toNat_join, correctionNs_eq, abs_lt]
  dsimp only
  split <;> omega

/-! ### The exchange -/

/-- What a Sync and a Delay_Resp bring to a client: the nanoseconds are in range, the master time t1 is known, and the
    differences fit. --/
structure Exchange where
  client : Client
  secondHigh : BitVec 16
  secondLow : BitVec 32
  nanosecond : BitVec 32
  hdr : Header
  t4 : Time
  timestampWhole : Whole (parseTimestamp secondHigh secondLow nanosecond)
  syncWhole : Whole client.sync
  syncTsWhole : Whole client.syncTs
  delayTsWhole : Whole client.delayTs
  t4Whole : Whole t4
  clockWhole : Whole client.softClock
  known : secs client.sync.second ≠ 0
  fitsSync : Fits (secs client.syncTs.second - secs client.sync.second)
  fitsDelay : Fits (secs t4.second - secs client.delayTs.second)
  fitsSecs : Fits ((value t4 - value client.delayTs).tdiv 1000000000 -
    (value client.syncTs - value client.sync).tdiv 1000000000)
  fitsOffset : FitsTime (value t4 - value client.delayTs - (value client.syncTs - value client.sync))
  fitsClock : -2 ^ 63 * 1000000000 ≤ value client.softClock +
      (value t4 - value client.delayTs - (value client.syncTs - value client.sync)).tdiv 2 ∧
    value client.softClock +
      (value t4 - value client.delayTs - (value client.syncTs - value client.sync)).tdiv 2 < 2 ^ 63 * 1000000000

/-- Twice the offset: `(t4 - t3) - (t2 - t1)`. --/
def Exchange.twice (x : Exchange) : Int :=
  value x.t4 - value x.client.delayTs - (value x.client.syncTs - value x.client.sync)

/-- The correction of an exchange is exact: the master time is the timestamp and the correction, but for the fraction of
    a nanosecond; the offset is half of the difference, rounded toward zero; the clock moves by the offset. --/
structure Exact (x : Exchange) : Prop where
  master : |65536 * (value (syncReceived x.client (parseTimestamp x.secondHigh x.secondLow x.nanosecond) x.hdr).sync -
    value (parseTimestamp x.secondHigh x.secondLow x.nanosecond)) - correctionField x.hdr| < 65536
  offset : value (offset x.client x.t4) = x.twice.tdiv 2
  canonical : Canonical (ClockTime.offset x.client x.t4)
  clock : value (delayRespReceived x.client x.t4).softClock = value x.client.softClock + x.twice.tdiv 2
  whole : Whole (delayRespReceived x.client x.t4).softClock

/-- A difference of times with seconds that fit is exact. --/
theorem timeDiff_whole (ha : Whole a) (hb : Whole b) (hsecs : Fits (secs a.second - secs b.second)) :
    value (timeDiff a b) = value a - value b ∧ Canonical (timeDiff a b) := by
  obtain ⟨hlow, hhigh⟩ := hsecs
  refine timeDiff_spec ha.inRange hb.inRange ⟨hlow, hhigh⟩ (fitsTime_iff.mpr ?_)
  obtain ⟨ha₁, ha₂⟩ := ha
  obtain ⟨hb₁, hb₂⟩ := hb
  unfold value
  constructor <;> omega

theorem Canonical.inRange (h : Canonical t) : InRange t := ⟨h.low, h.high⟩

/-- The time that is halved. --/
theorem twice_spec (x : Exchange) :
    value (timeDiff (timeDiff x.t4 x.client.delayTs) (timeDiff x.client.syncTs x.client.sync)) = x.twice ∧
      Canonical (timeDiff (timeDiff x.t4 x.client.delayTs) (timeDiff x.client.syncTs x.client.sync)) := by
  obtain ⟨hb, hbc⟩ := timeDiff_whole x.t4Whole x.delayTsWhole x.fitsDelay
  obtain ⟨ha, hac⟩ := timeDiff_whole x.syncTsWhole x.syncWhole x.fitsSync
  obtain ⟨hvalue, hcanonical⟩ := timeDiff_spec hbc.inRange hac.inRange
    (by rw [hbc.secs_eq, hac.secs_eq, hb, ha]; exact x.fitsSecs) (by rw [hb, ha]; exact x.fitsOffset)
  exact ⟨by rw [hvalue, hb, ha]; rfl, hcanonical⟩

/-- The clock after a Delay_Resp with a known master time. --/
theorem softClock_delayRespReceived (x : Exchange) : (delayRespReceived x.client x.t4).softClock =
    clockAdjust x.client.softClock (offset x.client x.t4) := by
  rw [delayRespReceived, if_neg fun h => x.known (high_low_zero.mp h.symm)]

/-- Sum and difference are exact and canonical for all times in range, as far as they fit. The correction of an exchange
    is exact where the correctionField has no sign and fits 48 bits, and twice the offset is not of the least number of
    seconds. --/
theorem clock_exact_iff (a b : Time) (x : Exchange) :
    (InRange a → InRange b →
      (Fits (secs a.second + secs b.second) → FitsTime (value a + value b) →
        value (timeSum a b) = value a + value b ∧ Canonical (timeSum a b)) ∧
      (Fits (secs a.second - secs b.second) → FitsTime (value a - value b) →
        value (timeDiff a b) = value a - value b ∧ Canonical (timeDiff a b))) ∧
    (Exact x ↔ 0 ≤ correctionField x.hdr ∧ correctionField x.hdr < 2 ^ 48 ∧
      x.twice.tdiv 1000000000 ≠ -2 ^ 63) := by
  refine ⟨fun ha hb => ⟨timeSum_spec ha hb, timeDiff_spec ha hb⟩, ?_⟩
  obtain ⟨htwice, hcanonical⟩ := twice_spec x
  have hmaster : value (syncReceived x.client (parseTimestamp x.secondHigh x.secondLow x.nanosecond) x.hdr).sync -
      value (parseTimestamp x.secondHigh x.secondLow x.nanosecond) = correctionNs x.hdr := by
    rw [value_syncReceived x.client x.timestampWhole]
    exact add_sub_cancel_left _ _
  rw [← and_assoc]
  constructor
  · intro h
    have hfield := h.master
    rw [hmaster] at hfield
    refine ⟨(correctionNs_iff x.hdr).mp hfield, fun hmin => ?_⟩
    -- With the least number of seconds the half comes out positive.
    have hpositive := timeDivBy2_min hcanonical (by rw [hcanonical.secs_eq, htwice]; exact hmin)
    have hoffset : value (timeDivBy2 _) = x.twice.tdiv 2 := h.offset
    rw [hoffset] at hpositive
    have hnegative : x.twice < 0 := by
      by_contra hge
      rw [Int.tdiv_eq_ediv_of_nonneg (not_lt.mp hge)] at hmin
      omega
    obtain ⟨w, hw⟩ : ∃ w, x.twice = -w := ⟨-x.twice, (neg_neg _).symm⟩
    rw [hw, Int.neg_tdiv, Int.tdiv_eq_ediv_of_nonneg (by omega)] at hpositive
    omega
  · rintro ⟨hfield, hmin⟩
    obtain ⟨hhalf, hhalfCanonical⟩ := timeDivBy2_spec hcanonical (by rw [hcanonical.secs_eq, htwice]; exact hmin)
    rw [htwice] at hhalf
    have hfits := x.fitsClock
    obtain ⟨hclock, hwhole⟩ := clockAdjust_spec (o := offset x.client x.t4) x.clockWhole hhalfCanonical
      (by show _ ≤ _ + value (timeDivBy2 _); rw [hhalf]; exact hfits.1)
      (by show _ + value (timeDivBy2 _) < _; rw [hhalf]; exact hfits.2)
    refine ⟨by rw [hmaster]; exact (correctionNs_iff x.hdr).mpr hfield, hhalf, hhalfCanonical, ?_, ?_⟩
    · rw [softClock_delayRespReceived, hclock]
      exact congrArg _ hhalf
    · rw [softClock_delayRespReceived]
      exact hwhole

/-- An exchange at second 100, with a correction of minus one nanosecond. --/
def negativeCorrection : Exchange where
  client := ⟨⟨⟨0, 100⟩, 5⟩, ⟨⟨0, 100⟩, 905⟩, ⟨⟨0, 101⟩, 0⟩, ⟨⟨0, 101⟩, 50⟩, false, false⟩
  secondHigh := 0
  secondLow := 100
  nanosecond := 5
  hdr := ⟨0xFFFFFFFF, 0xFFFF0000⟩
  t4 := ⟨⟨0, 101⟩, 300⟩
  timestampWhole := by decide
  syncWhole := by decide
  syncTsWhole := by decide
  delayTsWhole := by decide
  t4Whole := by decide
  clockWhole := by decide
  known := by decide
  fitsSync := by decide
  fitsDelay := by decide
  fitsSecs := by decide
  fitsOffset := by decide
  fitsClock := by decide

/-- The correction of minus one nanosecond becomes one of 4294967295. --/
theorem negativeCorrection_not_exact : ¬∀ x : Exchange, Exact x := by
  intro h
  have hmaster := (h negativeCorrection).master
  have hvalue : value (syncReceived negativeCorrection.client (parseTimestamp 0 100 5) ⟨0xFFFFFFFF, 0xFFFF0000⟩).sync -
      value (parseTimestamp 0 100 5) = 4294967295 := by decide +kernel
  have hfield : correctionField ⟨0xFFFFFFFF, 0xFFFF0000⟩ = -65536 := by decide +kernel
  have hmaster : |65536 * (value (syncReceived negativeCorrection.client (parseTimestamp 0 100 5)
      ⟨0xFFFFFFFF, 0xFFFF0000⟩).sync - value (parseTimestamp 0 100 5)) - correctionField ⟨0xFFFFFFFF, 0xFFFF0000⟩| <
    65536 := hmaster
  rw [hvalue, hfield] at hmaster
  exact absurd hmaster (by decide)

example : (offset negativeCorrection.client negativeCorrection.t4).nanosecond = -300 := by decide

end

end Netxduo.Ptp.ClockTime
