import Mathlib.Tactic.Ring
import Netxduo.Tcp.Types

/-! SYN cookies: an initial sequence number that carries a coarse clock and ten option bits under two keyed hashes,
    `nx_tcp_syncache.c`. -/

namespace Netxduo.Syncache

/-! ### The hash -/

/-- The state of HalfSipHash. --/
structure Sip where
  v0 : ULONG
  v1 : ULONG
  v2 : ULONG
  v3 : ULONG

/-- `NX_TCP_SYNCACHE_SIPROUND` --/
def Sip.round (s : Sip) : Sip :=
  let v0 := s.v0 + s.v1
  let v1 := s.v1.rotateLeft 5 ^^^ v0
  let v0 := v0.rotateLeft 16
  let v2 := s.v2 + s.v3
  let v3 := s.v3.rotateLeft 8 ^^^ v2
  let v0 := v0 + v3
  let v3 := v3.rotateLeft 7 ^^^ v0
  let v2 := v2 + v1
  let v1 := v1.rotateLeft 13 ^^^ v2
  ⟨v0, v1, v2.rotateLeft 16, v3⟩

def Sip.absorb (s : Sip) (m : ULONG) : Sip :=
  let s := ({ s with v3 := s.v3 ^^^ m } : Sip).round.round
  { s with v0 := s.v0 ^^^ m }

/-- `_nx_tcp_syncache_hash`: HalfSipHash-2-4 over whole words, under two words of key. --/
def syncacheHash (key : ULONG × ULONG) (words : List ULONG) : ULONG :=
  let s : Sip := ⟨key.1, key.2, 0x6c796765 ^^^ key.1, 0x74656462 ^^^ key.2⟩
  let s := (words.foldl Sip.absorb s).absorb ((BitVec.ofNat 32 words.length * 4) <<< 24)
  let s := ({ s with v2 := s.v2 ^^^ 0xFF } : Sip).round.round.round.round
  s.v1 ^^^ s.v3

/-! ### Cookies -/

/-- `nx_tcp_syncache_key`: two keys of two words. --/
structure Key where
  first : ULONG × ULONG
  second : ULONG × ULONG
deriving DecidableEq, Repr

/-- `NX_TCP_SYNCACHE_COOKIE_MAXDIFF` --/
def cookieMaxdiff : ULONG := 2

/-- `NX_TCP_SYNCACHE_COOKIE_MASK` --/
def cookieMask : ULONG := 0x00FFFFFF

/-- `NX_TCP_SYNCACHE_DATA_MAX` --/
def dataMax : ULONG := 0x0400

section
variable (hash : ULONG × ULONG → List ULONG → ULONG) (key : Key) (tuple : List ULONG) (irs : ULONG)

/-- The hash over the connection, the counter and the sequence number of the peer. --/
def countedHash (count : ULONG) : ULONG := hash key.second (tuple.take 9 ++ [count, irs])

/-- `_nx_tcp_syncache_cookie_build` --/
def cookieBuild (count data : ULONG) : ULONG :=
  hash key.first tuple + irs + count <<< 24 + ((countedHash hash key tuple irs count + data) &&& cookieMask)

/-- `_nx_tcp_syncache_cookie_check` --/
def cookieCheck (count cookie : ULONG) : Option ULONG :=
  let rest := cookie - hash key.first tuple - irs
  let diff := (count - rest >>> 24) &&& 0xFF
  if diff ≥ cookieMaxdiff then none
  else
    let value := (rest - countedHash hash key tuple irs (count - diff)) &&& cookieMask
    if value ≥ dataMax then none else some value

end

/-! ### The fields of a cookie -/

section
variable {hash : ULONG × ULONG → List ULONG → ULONG} {key : Key} {tuple : List ULONG}
  {irs count count' data value cookie x y : ULONG}

theorem toNat_mask (x : ULONG) : (x &&& cookieMask).toNat = x.toNat % 2 ^ 24 := by
  rw [cookieMask, BitVec.toNat_and]
  exact Nat.and_two_pow_sub_one_eq_mod x.toNat 24

theorem toNat_low8 (x : ULONG) : (x &&& 0xFF).toNat = x.toNat % 2 ^ 8 := by
  rw [BitVec.toNat_and]
  exact Nat.and_two_pow_sub_one_eq_mod x.toNat 8

theorem toNat_top (x : ULONG) : (x <<< 24).toNat = x.toNat * 2 ^ 24 % 2 ^ 32 := by
  rw [BitVec.toNat_shiftLeft, Nat.shiftLeft_eq]

/-- The counter above, the masked sum below: the two do not touch. --/
theorem toNat_fields (x y : ULONG) :
    (x <<< 24 + (y &&& cookieMask)).toNat = x.toNat % 2 ^ 8 * 2 ^ 24 + y.toNat % 2 ^ 24 := by
  rw [BitVec.toNat_add, toNat_top, toNat_mask]
  omega

theorem field_top (x y : ULONG) : ((x <<< 24 + (y &&& cookieMask)) >>> 24).toNat = x.toNat % 2 ^ 8 := by
  rw [BitVec.toNat_ushiftRight, toNat_fields, Nat.shiftRight_eq_div_pow]
  omega

theorem field_low (x y z : ULONG) :
    (x <<< 24 + (y &&& cookieMask) - z) &&& cookieMask = (y - z) &&& cookieMask := by
  apply BitVec.eq_of_toNat_eq
  rw [toNat_mask, toNat_mask, BitVec.toNat_sub, BitVec.toNat_sub, toNat_fields]
  omega

/-- How old the cookie says it is. --/
theorem age_eq (x y : ULONG) :
    (count' - (x <<< 24 + (y &&& cookieMask)) >>> 24) &&& 0xFF = (count' - x) &&& 0xFF := by
  apply BitVec.eq_of_toNat_eq
  rw [toNat_low8, toNat_low8, BitVec.toNat_sub, BitVec.toNat_sub, field_top]
  omega

/-- What the check makes of any cookie of the connection: the age is the one of the counters, taken modulo 256, and
    the option field is off by as much as the two counted hashes differ. --/
theorem cookieCheck_build (hash : ULONG × ULONG → List ULONG → ULONG) (key : Key) (tuple : List ULONG)
    (irs count count' data : ULONG) :
    cookieCheck hash key tuple irs count' (cookieBuild hash key tuple irs count data) =
      let diff := (count' - count) &&& 0xFF
      if diff ≥ cookieMaxdiff then none
      else
        let value := (countedHash hash key tuple irs count + data - countedHash hash key tuple irs (count' - diff)) &&&
          cookieMask
        if value ≥ dataMax then none else some value := by
  have hrest : cookieBuild hash key tuple irs count data - hash key.first tuple - irs =
      count <<< 24 + ((countedHash hash key tuple irs count + data) &&& cookieMask) := by
    rw [cookieBuild]
    generalize count <<< 24 = c
    generalize (countedHash hash key tuple irs count + data) &&& cookieMask = low
    grind
  unfold cookieCheck
  dsimp only
  rw [hrest, age_eq, field_low]

/-- Within 256 counter steps the age is the true one. --/
theorem age_small (h : count' - count < 256) : (count' - count) &&& 0xFF = count' - count := by
  apply BitVec.eq_of_toNat_eq
  rw [toNat_low8]
  rw [BitVec.lt_def] at h
  exact Nat.mod_eq_of_lt h

theorem sub_mask_of_small (h x : ULONG) (hx : x < 2048) : (h + x - h) &&& cookieMask = x := by
  have hcancel : h + x - h = x := by grind
  rw [hcancel]
  apply BitVec.eq_of_toNat_eq
  rw [toNat_mask]
  rw [BitVec.lt_def] at hx
  have hbound : x.toNat < 2048 := hx
  omega

theorem dataMax_lt (h : value < dataMax) : value < 2048 := by
  rw [BitVec.lt_def] at h ⊢
  exact Nat.lt_trans h (by decide)

/-- A cookie that is young enough yields what it was built from. --/
theorem cookieCheck_of_young (hvalue : value < dataMax) (hage : count' - count < cookieMaxdiff) :
    cookieCheck hash key tuple irs count' (cookieBuild hash key tuple irs count value) = some value := by
  have hsmall : count' - count < 256 := by
    rw [BitVec.lt_def] at hage ⊢
    exact Nat.lt_trans hage (by decide)
  have hback : count' - (count' - count) = count := by grind
  rw [cookieCheck_build]
  dsimp only
  rw [age_small hsmall, hback, sub_mask_of_small _ _ (dataMax_lt hvalue), if_neg (BitVec.not_le.mpr hage),
    if_neg (BitVec.not_le.mpr hvalue)]

/-- What is accepted is the cookie of the counter it names. --/
theorem cookieBuild_of_check (h : cookieCheck hash key tuple irs count' cookie = some value) :
    value < dataMax ∧ ∃ count, count' - count < cookieMaxdiff ∧ cookie = cookieBuild hash key tuple irs count value := by
  unfold cookieCheck at h
  dsimp only at h
  generalize hrest : cookie - hash key.first tuple - irs = rest at h
  generalize hdiff : (count' - rest >>> 24) &&& 0xFF = diff at h
  generalize hsum : countedHash hash key tuple irs (count' - diff) = sum at h
  split at h
  · cases h
  rename_i hage
  split at h
  · cases h
  rename_i hmax
  cases h
  have hback : count' - (count' - diff) = diff := by grind
  refine ⟨BitVec.not_le.mp hmax, count' - diff, ?_, ?_⟩
  · rw [hback]
    exact BitVec.not_le.mp hage
  -- both fields of the number are the ones the counter and the data give
  have hfields : rest = (count' - diff) <<< 24 + ((sum + ((rest - sum) &&& cookieMask)) &&& cookieMask) := by
    apply BitVec.eq_of_toNat_eq
    rw [toNat_fields, BitVec.toNat_add, toNat_mask, BitVec.toNat_sub, BitVec.toNat_sub]
    have hd := congrArg BitVec.toNat hdiff
    rw [toNat_low8, BitVec.toNat_sub, BitVec.toNat_ushiftRight, Nat.shiftRight_eq_div_pow] at hd
    omega
  have hcookie : cookie = hash key.first tuple + irs + rest := by
    rw [← hrest]
    grind
  rw [cookieBuild, hsum, hcookie, BitVec.add_assoc (hash key.first tuple + irs), ← hfields]

/-- The initial sequence number of a cached entry stays out of the cookies until the counter has come round. --/
theorem cookieCheck_marked (hdata : data < dataMax) (hage : count' - count < 256) :
    cookieCheck hash key tuple irs count' (cookieBuild hash key tuple irs count (data ||| dataMax)) = none := by
  have hor : (data ||| dataMax).toNat = data.toNat + 1024 := by
    rw [BitVec.lt_def] at hdata
    have hsum : 2 ^ 10 * 1 + data.toNat = 2 ^ 10 * 1 ||| data.toNat := Nat.two_pow_add_eq_or_of_lt hdata 1
    rw [BitVec.toNat_or, Nat.or_comm]
    change 2 ^ 10 * 1 ||| data.toNat = _
    omega
  have hsmall : data ||| dataMax < 2048 := by
    rw [BitVec.lt_def, hor]
    rw [BitVec.lt_def] at hdata
    change data.toNat < 1024 at hdata
    change _ < 2048
    omega
  have hback : count' - (count' - count) = count := by grind
  rw [cookieCheck_build]
  dsimp only
  rw [age_small hage, hback, sub_mask_of_small _ _ hsmall]
  split
  · rfl
  · rw [if_pos]
    rw [ge_iff_le, BitVec.le_def, hor]
    exact Nat.le_add_left _ _

/-! ### Minted and checked -/

/-- The check accepts just the cookies the connection gets at one of the last `cookieMaxdiff` counters, and yields what
    they were built from; the numbers of cached entries are none of them. --/
theorem cookieCheck_iff_built (hash : ULONG × ULONG → List ULONG → ULONG) (key : Key) (tuple : List ULONG)
    (irs count' : ULONG) :
    (∀ cookie value, cookieCheck hash key tuple irs count' cookie = some value ↔
      value < dataMax ∧
        ∃ count, count' - count < cookieMaxdiff ∧ cookie = cookieBuild hash key tuple irs count value) ∧
    ∀ count data, data < dataMax → count' - count < 256 →
      cookieCheck hash key tuple irs count' (cookieBuild hash key tuple irs count (data ||| dataMax)) = none := by
  refine ⟨fun cookie value => ⟨cookieBuild_of_check, ?_⟩, fun count data => cookieCheck_marked⟩
  rintro ⟨hvalue, count, hage, rfl⟩
  exact cookieCheck_of_young hvalue hage

/-- A cookie of the counter before comes back with its ten bits. --/
theorem cookieCheck_iff_built_young :
    cookieCheck syncacheHash ⟨(1, 2), (3, 4)⟩ [0xC0A80002, 0xC0A80001, 0x005004D2] 2948 8
      (cookieBuild syncacheHash ⟨(1, 2), (3, 4)⟩ [0xC0A80002, 0xC0A80001, 0x005004D2] 2948 7 5) = some 5 :=
  ((cookieCheck_iff_built _ _ _ _ _).1 _ _).mpr ⟨by decide, 7, by decide, rfl⟩

/-- When the counter has come round, a cookie may be taken for one of another counter: here it yields 311, not 5. --/
theorem cookieCheck_collides :
    ¬∀ (key : Key) (tuple : List ULONG) (irs count count' data : ULONG), data < dataMax →
      (count' - count) &&& 0xFF < cookieMaxdiff →
      cookieCheck syncacheHash key tuple irs count' (cookieBuild syncacheHash key tuple irs count data) = some data ∨
        count' - ((count' - count) &&& 0xFF) ≠ count ∧
          cookieCheck syncacheHash key tuple irs count' (cookieBuild syncacheHash key tuple irs count data) = none := by
  intro h
  have hcheck : cookieCheck syncacheHash ⟨(1, 2), (3, 4)⟩ [0xC0A80002, 0xC0A80001, 0x005004D2] 2948 263
      (cookieBuild syncacheHash ⟨(1, 2), (3, 4)⟩ [0xC0A80002, 0xC0A80001, 0x005004D2] 2948 7 5) = some 311 := by
    decide +kernel
  have hany := h ⟨(1, 2), (3, 4)⟩ [0xC0A80002, 0xC0A80001, 0x005004D2] 2948 7 263 5 (by decide) (by decide)
  rw [hcheck] at hany
  exact absurd hany (by decide)

end

end Netxduo.Syncache
