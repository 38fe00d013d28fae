import Mathlib
import Netxduo.Crypto.EcdsaSign
import Netxduo.Crypto.SignedModulus
import Netxduo.Crypto.StoredNumber
import Netxduo.Library.Fallible

/-! What `_nx_crypto_ecdsa_verify` accepts, and that it reads back what `_nx_crypto_ecdsa_sign` puts out. -/

namespace Netxduo.Crypto.Ecdsa
open Nat Fallible

/-! ### The source -/

/-- What a signature takes of a curve: its bits, and the order of the group in order. --/
structure EcCurve (width : Nat) where
  bits : Nat
  n : SignedNumber
  digit : width = 2 ∨ width = 4
  normal : Normal width n
  positive : n.isNegative = false
  one_lt : 1 < n.magnitude width
  lt_bits : n.magnitude width < 2 ^ bits
  -- r and s are under 128 bytes on every curve.
  size : curveSize bits ≤ 124
  -- The hash is shifted by less than a digit.
  shift : 8 * n.bufferSize < bits + 8 * width

/-- A number that stands for `v`, without zeros in front. --/
structure Represents (width : Nat) (x : SignedNumber) (v : Nat) : Prop where
  proper : Proper (digitRadix width) x.data
  sign : x.isNegative = false
  value : x.magnitude width = v

/-- The functions on points and the inverse modulo the order, with what is relied on of them. --/
structure CurveOperations {width : Nat} (c : EcCurve width) (Point : Type) where
  generator : Point
  pointSetup : List Nat → Except EcdsaError Point
  validatePublicKey : Point → Except EcdsaError Unit
  inverseModulus : SignedNumber → SignedNumber
  multiple : Point → SignedNumber → Point
  add : Point → Point → Point
  xCoordinate : Point → SignedNumber
  inverse : ∀ {x v}, Represents width x v → 0 < v → v < c.n.magnitude width → ∃ w, Normal width (inverseModulus x) ∧
    Represents width (inverseModulus x) w ∧ (inverseModulus x).data.length * width ≤ c.n.bufferSize ∧
    v * w % c.n.magnitude width = 1
  coordinate : ∀ p, ∃ v, Represents width (xCoordinate p) v

section
variable {width : Nat} {Point : Type}

/-- A number set up in a buffer of the size of the order. --/
def load (c : EcCurve width) (value : List Nat) : Except EcdsaError SignedNumber :=
  match setup width ⟨[0], c.n.bufferSize, false⟩ value with
  | .error .sizeError => .error .sizeError
  | .error .notSuccessful => .error .notSuccessful
  | .ok number => .ok number

/-- `_nx_crypto_huge_number_is_zero` --/
def isZero (x : SignedNumber) : Bool := x.data.all (· = 0)

/-- `_nx_crypto_huge_number_modulus`; the number itself is fuel enough for its loop. --/
def reduce (c : EcCurve width) (x : SignedNumber) : SignedNumber :=
  (modulus width (x.magnitude width) x c.n).getD x

/-- r and s loaded, and held against the range they must be in. --/
def loadNumbers (c : EcCurve width) (rValue sValue : List Nat) : Except EcdsaError (SignedNumber × SignedNumber) := do
  let r ← load c rValue
  let s ← load c sValue
  if isZero r ∨ isZero s then .error .notSuccessful
  else if compareUnsigned r.data c.n.data ≠ .lt then .error .notSuccessful
  else if compareUnsigned s.data c.n.data ≠ .lt then .error .notSuccessful
  else .ok (r, s)

/-- The hash, truncated to the size of the order and then to its bits. --/
def loadHash (c : EcCurve width) (hash : List Nat) : Except EcdsaError SignedNumber := do
  let hash := hash.take c.n.bufferSize
  let z ← load c hash
  return if c.bits < hash.length <<< 3 then shiftRight width z (hash.length <<< 3 - c.bits) else z

/-- The rest of `_nx_crypto_ecdsa_verify`: whether r is what the points come to. --/
def checkEquation {c : EcCurve width} (A : CurveOperations c Point) (z : SignedNumber) (pubkey : Point)
    (r s : SignedNumber) : Except EcdsaError Unit :=
  let double : SignedNumber := ⟨[0], c.n.bufferSize <<< 1, false⟩
  let w := A.inverseModulus s
  let u1 := reduce c (multiply width z w double)
  let u2 := reduce c (multiply width r w double)
  let pt := A.add (A.multiple A.generator u1) (A.multiple pubkey u2)
  if compareUnsigned (reduce c (A.xCoordinate pt)).data r.data ≠ .eq then .error .notSuccessful else .ok ()

/-- `_nx_crypto_ecdsa_verify` --/
def verify {c : EcCurve width} (A : CurveOperations c Point) (hash publicKey signature : List Nat) :
    Except EcdsaError Unit :=
  if publicKey.length > 1 + c.n.bufferSize <<< 1 then .error .sizeError
  else do
    let (rValue, sValue) ← takeApart signature
    let pubkey ← A.pointSetup publicKey
    A.validatePublicKey pubkey
    let (r, s) ← loadNumbers c rValue sValue
    let z ← loadHash c hash
    checkEquation A z pubkey r s

/-! ### What is meant -/

/-- The leftmost bits of the hash, as many as the order has. --/
def hashNumber (c : EcCurve width) (hash : List Nat) : Nat :=
  ofDigits 256 (hash.take c.n.bufferSize).reverse / 2 ^ (8 * (hash.take c.n.bufferSize).length - c.bits)

/-- With w the inverse of s: the x coordinate of zw G + rw Q is r modulo the order. --/
structure VerificationEquation {c : EcCurve width} (A : CurveOperations c Point) (z : Nat) (pubkey : Point)
    (r s : Nat) : Prop where
  holds : ∃ (w x : Nat) (u1 u2 : SignedNumber), s * w % c.n.magnitude width = 1 ∧
    Represents width u1 (z * w % c.n.magnitude width) ∧ Represents width u2 (r * w % c.n.magnitude width) ∧
    Represents width (A.xCoordinate (A.add (A.multiple A.generator u1) (A.multiple pubkey u2))) x ∧
    x % c.n.magnitude width = r

/-- The codec of a curve: what is written is read back, and nothing but the one minimal encoding of numbers in the
range that meet the equation is accepted. --/
structure SignatureCodec {c : EcCurve width} (A : CurveOperations c Point) : Prop where
  written : ∀ {r s : SignedNumber} {vr vs : Nat} {signature : List Nat}, Normal width r → Normal width s →
    r.toInt width = (vr : Int) → s.toInt width = (vs : Int) → 0 < vr → vr < c.n.magnitude width → 0 < vs →
    vs < c.n.magnitude width → curveSize c.bits <<< 1 + 9 ≤ signature.length →
    ∃ out len, outputSignature width c.bits r s signature = .ok (out, len) ∧ out.length = signature.length ∧
      len ≤ curveSize c.bits <<< 1 + 9 ∧ ∃ rValue sValue r' s', takeApart (out.take len) = .ok (rValue, sValue) ∧
        loadNumbers c rValue sValue = .ok (r', s') ∧ Represents width r' vr ∧ Represents width s' vs
  accepted : ∀ {hash publicKey signature : List Nat}, (∀ d ∈ hash, d < 256) → (∀ d ∈ signature, d < 256) →
    verify A hash publicKey signature = .ok () →
    ∃ r s pubkey, (0 < r ∧ r < c.n.magnitude width) ∧ (0 < s ∧ s < c.n.magnitude width) ∧
      signature = derSignature r s ∧
      (∀ r' s', 0 < r' → r' < c.n.magnitude width → 0 < s' → s' < c.n.magnitude width →
        signature = derSignature r' s' → r' = r ∧ s' = s) ∧
      A.pointSetup publicKey = .ok pubkey ∧ A.validatePublicKey pubkey = .ok () ∧
      VerificationEquation A (hashNumber c hash) pubkey r s

/-! ### Numbers -/

variable {c : EcCurve width} {A : CurveOperations c Point} {x y : SignedNumber} {v : Nat} {value : List Nat}

theorem EcCurve.width_pos (c : EcCurve width) : 0 < width := by
  have := c.digit
  omega

theorem represents (hx : Normal width x) (hv : x.toInt width = (v : Int)) : Represents width x v := by
  have hmag : x.magnitude width = v := by
    rw [← natAbs_magnitude, hv, Int.natAbs_natCast]
  refine ⟨hx.proper, ?_, hmag⟩
  by_contra hneg
  have hpos := hx.sign (by simpa using hneg)
  rw [toInt_magnitude, if_pos (by simpa using hneg)] at hv
  change 0 < x.magnitude width at hpos
  omega

theorem Represents.toInt (h : Represents width x v) : x.toInt width = (v : Int) := by
  rw [toInt_magnitude, h.sign, h.value]
  rfl

theorem compare_represents (hw : 0 < width) {w : Nat} (hx : Represents width x v) (hy : Represents width y w) :
    compareUnsigned x.data y.data = compare v w := by
  rw [compareUnsigned_spec (two_le_digitRadix hw) hx.proper.digits hy.proper.digits, ← hx.value, ← hy.value]
  rfl

theorem EcCurve.order (c : EcCurve width) : Represents width c.n (c.n.magnitude width) :=
  ⟨c.normal.proper, c.positive, rfl⟩

theorem EcCurve.one_le_buffer (c : EcCurve width) : width ≤ c.n.bufferSize :=
  (Nat.le_mul_of_pos_left _ (List.length_pos_of_ne_nil (proper_ne_nil c.normal.proper))).trans c.normal.fits

theorem EcCurve.lt_room (c : EcCurve width) : c.n.magnitude width < digitRadix width ^ (c.n.bufferSize / width) :=
  (value_lt (two_le_digitRadix c.width_pos) c.normal.proper.digits).trans_le
    (Nat.pow_le_pow_right (by have := two_le_digitRadix c.width_pos; omega)
      ((Nat.le_div_iff_mul_le c.width_pos).mpr c.normal.fits))

theorem isZero_iff (h : Represents width x v) : isZero x ↔ v = 0 := by
  have hall : isZero x ↔ ∀ d ∈ x.data, d = 0 := by simp [isZero]
  rw [hall, ← h.value]
  refine ⟨fun hz => ?_, fun hz => ?_⟩
  · have hrep := List.eq_replicate_of_mem hz
    unfold SignedNumber.magnitude
    rw [hrep, ← List.nil_append (List.replicate _ 0), ofDigits_append_replicate_zero]
    rfl
  · intro d hd
    exact digits_zero_of_eq_zero (Nat.pos_iff_ne_zero.mp (Nat.pow_pos (by decide))) hz d hd

theorem bufferSize_setup {number : SignedNumber} (h : setup width number value = .ok y) :
    y.bufferSize = number.bufferSize := by
  unfold setup at h
  dsimp only at h
  split_ifs at h
  · obtain rfl := Except.ok.inj h
    rfl
  · obtain rfl := Except.ok.inj h
    rfl

/-- What was set up fits in the buffer. --/
theorem room_of_setup (hw : 0 < width) {number : SignedNumber} (hbytes : ∀ d ∈ value, d < 256)
    (hwhole : width ∣ number.bufferSize) (h : setup width number value = .ok y) :
    ofDigits 256 value.reverse < digitRadix width ^ (number.bufferSize / width) := by
  have hvalue := value_dropWhile value
  rw [digitRadix_eq, ← Nat.pow_mul, Nat.mul_div_cancel' hwhole]
  unfold setup at h
  dsimp only at h
  split_ifs at h with hnil hsmall hsmall
  · rw [hnil] at hvalue
    rw [← hvalue]
    exact Nat.pow_pos (by decide)
  · have hlt := @ofDigits_lt_base_pow_length 256 (value.dropWhile (· = 0)).reverse (by decide) fun d hd =>
      hbytes d (List.dropWhile_subset _ (List.mem_reverse.mp hd))
    rw [hvalue, List.length_reverse] at hlt
    refine hlt.trans_le (Nat.pow_le_pow_right (by decide) ?_)
    have hmod := Nat.div_add_mod ((value.dropWhile (· = 0)).length + (width - 1)) width
    have hrem := Nat.mod_lt ((value.dropWhile (· = 0)).length + (width - 1)) hw
    rw [Nat.mul_comm] at hmod
    omega

theorem load_spec (c : EcCurve width) (hbytes : ∀ d ∈ value, d < 256)
    (hroom : ofDigits 256 value.reverse < digitRadix width ^ (c.n.bufferSize / width)) :
    ∃ y, load c value = .ok y ∧ Normal width y ∧ Represents width y (ofDigits 256 value.reverse) ∧
      y.bufferSize = c.n.bufferSize := by
  obtain ⟨y, hy, hnormal, hint⟩ := @setup_spec width c.width_pos ⟨[0], c.n.bufferSize, false⟩ value hbytes
    c.normal.whole c.one_le_buffer hroom
  refine ⟨y, ?_, hnormal, represents hnormal hint, bufferSize_setup hy⟩
  unfold load
  rw [hy]

theorem load_inv (hbytes : ∀ d ∈ value, d < 256) (h : load c value = .ok y) :
    Normal width y ∧ Represents width y (ofDigits 256 value.reverse) ∧ y.bufferSize = c.n.bufferSize := by
  have hsetup : setup width ⟨[0], c.n.bufferSize, false⟩ value = .ok y := by
    unfold load at h
    split at h
    · cases h
    · cases h
    · next hok => rw [hok, Except.ok.inj h]
  have hroom := room_of_setup c.width_pos hbytes c.normal.whole hsetup
  obtain ⟨y', hy', hspec⟩ := load_spec c hbytes hroom
  obtain rfl := Except.ok.inj (h.symm.trans hy')
  exact hspec

theorem reduce_spec (c : EcCurve width) (hx : Represents width x v) :
    Represents width (reduce c x) (v % c.n.magnitude width) := by
  obtain ⟨y, hy, hproper, hsign, hvalue⟩ := modulus_spec c.width_pos hx.proper c.normal.proper c.positive
    (Nat.lt_of_succ_lt c.one_lt) (le_refl (ofDigits (digitRadix width) x.data))
  have hreduce : reduce c x = y := by
    unfold reduce SignedNumber.magnitude
    rw [hy]
    rfl
  rw [hx.sign, if_neg (by simp)] at hvalue
  rw [hreduce]
  refine ⟨hproper, hsign, hvalue.trans ?_⟩
  rw [← hx.value]
  rfl

/-! ### The numbers of a signature -/

theorem loadNumbers_inv {rValue sValue : List Nat} {r s : SignedNumber} (hr : ∀ d ∈ rValue, d < 256)
    (hs : ∀ d ∈ sValue, d < 256) (h : loadNumbers c rValue sValue = .ok (r, s)) :
    ∃ vr vs, (Normal width r ∧ Represents width r vr ∧ r.bufferSize = c.n.bufferSize) ∧
      Represents width s vs ∧ (vr = ofDigits 256 rValue.reverse ∧ 0 < vr ∧ vr < c.n.magnitude width) ∧
      vs = ofDigits 256 sValue.reverse ∧ 0 < vs ∧ vs < c.n.magnitude width := by
  unfold loadNumbers at h
  obtain ⟨r', hload, h⟩ := bind_ok.mp h
  obtain ⟨s', hload', h⟩ := bind_ok.mp h
  split_ifs at h with hzero hltR hltS
  obtain ⟨rfl, rfl⟩ := Prod.mk.inj (Except.ok.inj h)
  have hloadR := load_inv hr hload
  have hloadS := load_inv hs hload'
  rw [isZero_iff hloadR.2.1, isZero_iff hloadS.2.1] at hzero
  rw [not_not, compare_represents c.width_pos hloadR.2.1 c.order, Nat.compare_eq_lt] at hltR
  rw [not_not, compare_represents c.width_pos hloadS.2.1 c.order, Nat.compare_eq_lt] at hltS
  exact ⟨_, _, hloadR, hloadS.2.1, ⟨rfl, by omega, hltR⟩, rfl, by omega, hltS⟩

theorem loadNumbers_spec (c : EcCurve width) {rValue sValue : List Nat} (hr : ∀ d ∈ rValue, d < 256)
    (hs : ∀ d ∈ sValue, d < 256) (hposR : 0 < ofDigits 256 rValue.reverse)
    (hltR : ofDigits 256 rValue.reverse < c.n.magnitude width) (hposS : 0 < ofDigits 256 sValue.reverse)
    (hltS : ofDigits 256 sValue.reverse < c.n.magnitude width) :
    ∃ r s, loadNumbers c rValue sValue = .ok (r, s) ∧ Represents width r (ofDigits 256 rValue.reverse) ∧
      Represents width s (ofDigits 256 sValue.reverse) := by
  obtain ⟨r, hloadR, -, hrepR, -⟩ := load_spec c hr (hltR.trans c.lt_room)
  obtain ⟨s, hloadS, -, hrepS, -⟩ := load_spec c hs (hltS.trans c.lt_room)
  refine ⟨r, s, ?_, hrepR, hrepS⟩
  unfold loadNumbers
  refine bind_ok.mpr ⟨r, hloadR, bind_ok.mpr ⟨s, hloadS, ?_⟩⟩
  rw [if_neg, if_neg, if_neg]
  · rw [not_not, compare_represents c.width_pos hrepS c.order, Nat.compare_eq_lt]
    exact hltS
  · rw [not_not, compare_represents c.width_pos hrepR c.order, Nat.compare_eq_lt]
    exact hltR
  · rw [isZero_iff hrepR, isZero_iff hrepS]
    omega

/-- Numbers below the order have contents in the short form. --/
theorem contents_below (c : EcCurve width) (hpos : 0 < v) (hlt : v < c.n.magnitude width) :
    IntegerContents (integerOctets v) ∧ (integerOctets v).length ≤ 125 := by
  have hmag := length_magnitude (lt_curveSize (hlt.trans c.lt_bits))
  have hsize := c.size
  have hlength : (integerOctets v).length ≤ 125 := by
    unfold integerOctets
    split_ifs
    · rw [List.length_cons]
      omega
    · omega
  exact ⟨integerOctets_contents hpos (by omega), hlength⟩

/-! ### The equation -/

theorem loadHash_inv {hash : List Nat} {z : SignedNumber} (hbytes : ∀ d ∈ hash, d < 256) (h : loadHash c hash = .ok z) :
    Normal width z ∧ Represents width z (hashNumber c hash) ∧ z.bufferSize = c.n.bufferSize := by
  have hw := c.width_pos
  have hshift := c.shift
  have hcut : (hash.take c.n.bufferSize).length ≤ c.n.bufferSize := List.length_take_le _ _
  have height : (hash.take c.n.bufferSize).length <<< 3 = 8 * (hash.take c.n.bufferSize).length := by
    rw [Nat.shiftLeft_eq, Nat.mul_comm]
  unfold loadHash at h
  obtain ⟨y, hload, h⟩ := bind_ok.mp h
  obtain ⟨hnormal, hrep, hbuffer⟩ := load_inv (fun d hd => hbytes d (List.mem_of_mem_take hd)) hload
  obtain rfl := Except.ok.inj h
  unfold hashNumber
  rw [height]
  split_ifs with hlong
  · obtain ⟨hnormal', hvalue⟩ := @shiftRight_spec width y hw (8 * (hash.take c.n.bufferSize).length - c.bits) (by omega)
      hnormal
    refine ⟨hnormal', represents hnormal' ?_, hbuffer⟩
    rw [hvalue, hrep.toInt]
    rw [Int.tdiv_eq_ediv_of_nonneg (Int.natCast_nonneg _)]
    push_cast
    rfl
  · rw [Nat.sub_eq_zero_of_le (by omega), Nat.pow_zero, Nat.div_one]
    exact ⟨hnormal, hrep, hbuffer⟩

theorem product_spec {w : SignedNumber} {vx vw : Nat} (hx : Normal width x) (hrep : Represents width x vx)
    (hbuffer : x.bufferSize = c.n.bufferSize) (hw : Normal width w) (hrep' : Represents width w vw)
    (hfits : w.data.length * width ≤ c.n.bufferSize) :
    Represents width (reduce c (multiply width x w ⟨[0], c.n.bufferSize <<< 1, false⟩))
      (vx * vw % c.n.magnitude width) := by
  have htwo : c.n.bufferSize <<< 1 = 2 * c.n.bufferSize := by rw [Nat.shiftLeft_eq, Nat.pow_one, Nat.mul_comm]
  have hxfits := hx.fits
  obtain ⟨hnormal, hvalue⟩ := @multiply_spec width x w c.width_pos ⟨[0], c.n.bufferSize <<< 1, false⟩ hx hw
    (by rw [htwo]; exact c.normal.whole.mul_left 2) (by
      change _ ≤ c.n.bufferSize <<< 1
      rw [htwo, Nat.add_mul]
      omega)
  refine reduce_spec c (represents hnormal ?_)
  rw [hvalue, hrep.toInt, hrep'.toInt]
  push_cast
  rfl

theorem checkEquation_inv {z r s : SignedNumber} {pubkey : Point} {vz vr vs : Nat}
    (hz : Normal width z ∧ Represents width z vz ∧ z.bufferSize = c.n.bufferSize)
    (hr : Normal width r ∧ Represents width r vr ∧ r.bufferSize = c.n.bufferSize) (hs : Represents width s vs)
    (hpos : 0 < vs) (hlt : vs < c.n.magnitude width) (h : checkEquation A z pubkey r s = .ok ()) :
    VerificationEquation A vz pubkey vr vs := by
  obtain ⟨w, hnormal, hrep, hfits, hinverse⟩ := A.inverse hs hpos hlt
  unfold checkEquation at h
  dsimp only at h
  split_ifs at h with heq
  obtain ⟨x, hx⟩ := A.coordinate (A.add
    (A.multiple A.generator (reduce c (multiply width z (A.inverseModulus s) ⟨[0], c.n.bufferSize <<< 1, false⟩)))
    (A.multiple pubkey (reduce c (multiply width r (A.inverseModulus s) ⟨[0], c.n.bufferSize <<< 1, false⟩))))
  refine ⟨w, x, _, _, hinverse, product_spec hz.1 hz.2.1 hz.2.2 hnormal hrep hfits,
    product_spec hr.1 hr.2.1 hr.2.2 hnormal hrep hfits, hx, ?_⟩
  rw [not_not, compare_represents c.width_pos (reduce_spec c hx) hr.2.1, Nat.compare_eq_eq] at heq
  exact heq

/-! ### The codec -/

/-- For every curve. --/
theorem ecdsa_signature_codec {c : EcCurve width} (A : CurveOperations c Point) : SignatureCodec A where
  written := by
    intro r s vr vs signature hr hs hvr hvs hposR hltR hposS hltS hroom
    obtain ⟨out, len, hout, hlength, hlen, htake⟩ := outputSignature_spec c.digit c.size hr hs hvr hvs hposR hposS
      (hltR.trans c.lt_bits) (hltS.trans c.lt_bits) hroom
    obtain ⟨hcontentsR, hlengthR⟩ := contents_below c hposR hltR
    obtain ⟨hcontentsS, hlengthS⟩ := contents_below c hposS hltS
    obtain ⟨r', s', hload, hrepR, hrepS⟩ := loadNumbers_spec c hcontentsR.octets hcontentsS.octets
      (by rwa [value_integer]) (by rwa [value_integer]) (by rwa [value_integer]) (by rwa [value_integer])
    rw [value_integer] at hrepR hrepS
    refine ⟨out, len, hout, hlength, hlen, integerOctets vr, integerOctets vs, r', s', ?_, hload, hrepR, hrepS⟩
    rw [htake]
    exact takeApart_encoded hcontentsR hcontentsS (by omega)
  accepted := by
    intro hash publicKey signature hhash hsignature h
    unfold verify at h
    split_ifs at h
    obtain ⟨⟨rValue, sValue⟩, htake, h⟩ := bind_ok.mp h
    obtain ⟨pubkey, hsetup, h⟩ := bind_ok.mp h
    obtain ⟨⟨⟩, hvalid, h⟩ := bind_ok.mp h
    obtain ⟨⟨r, s⟩, hload, h⟩ := bind_ok.mp h
    obtain ⟨z, hz, h⟩ := bind_ok.mp h
    obtain ⟨hencoded, hcontentsR, hcontentsS⟩ := takeApart_inv hsignature htake
    obtain ⟨vr, vs, hr, hs, ⟨hvr, hposR, hltR⟩, hvs, hposS, hltS⟩ :=
      loadNumbers_inv hcontentsR.octets hcontentsS.octets hload
    have hder : signature = derSignature vr vs := by
      rw [hencoded, derSignature, hvr, hvs, ← hcontentsR.eq_integer (hvr ▸ hposR),
        ← hcontentsS.eq_integer (hvs ▸ hposS)]
    refine ⟨vr, vs, pubkey, ⟨hposR, hltR⟩, ⟨hposS, hltS⟩, hder, fun r' s' hposR' hltR' hposS' hltS' hder' => ?_, hsetup,
      hvalid, checkEquation_inv (loadHash_inv hhash hz) hr hs hposS hltS h⟩
    obtain ⟨hr₁, hl₁⟩ := contents_below c hposR' hltR'
    obtain ⟨hs₁, hl₂⟩ := contents_below c hposS' hltS'
    obtain ⟨hr₂, hl₃⟩ := contents_below c hposR hltR
    obtain ⟨hs₂, hl₄⟩ := contents_below c hposS hltS
    exact derSignature_injective hr₁ hs₁ hr₂ hs₂ (by omega) (by omega) (hder'.symm.trans hder)

end

/-! ### The curves -/

/-- `_nx_crypto_ec_secp192r1` --/
def secp192r1 : EcCurve 4 where
  bits := 192
  n := ⟨[0xB4D22831, 0x146BC9B1, 0x99DEF836, 0xFFFFFFFF, 0xFFFFFFFF, 0xFFFFFFFF], 24, false⟩
  digit := .inr rfl
  normal := ⟨⟨by decide +kernel, by decide +kernel⟩, by decide +kernel, by decide, by decide⟩
  positive := rfl
  one_lt := by decide +kernel
  lt_bits := by decide +kernel
  size := by decide
  shift := by decide

/-- `_nx_crypto_ec_secp224r1` --/
def secp224r1 : EcCurve 4 where
  bits := 224
  n := ⟨[0x5C5C2A3D, 0x13DD2945, 0xE0B8F03E, 0xFFFF16A2, 0xFFFFFFFF, 0xFFFFFFFF, 0xFFFFFFFF], 28, false⟩
  digit := .inr rfl
  normal := ⟨⟨by decide +kernel, by decide +kernel⟩, by decide +kernel, by decide, by decide⟩
  positive := rfl
  one_lt := by decide +kernel
  lt_bits := by decide +kernel
  size := by decide
  shift := by decide

/-- `_nx_crypto_ec_secp256r1` --/
def secp256r1 : EcCurve 4 where
  bits := 256
  n := ⟨[0xFC632551, 0xF3B9CAC2, 0xA7179E84, 0xBCE6FAAD, 0xFFFFFFFF, 0xFFFFFFFF, 0x00000000, 0xFFFFFFFF], 32, false⟩
  digit := .inr rfl
  normal := ⟨⟨by decide +kernel, by decide +kernel⟩, by decide +kernel, by decide, by decide⟩
  positive := rfl
  one_lt := by decide +kernel
  lt_bits := by decide +kernel
  size := by decide
  shift := by decide

/-- `_nx_crypto_ec_secp384r1` --/
def secp384r1 : EcCurve 4 where
  bits := 384
  n := ⟨[0xCCC52973, 0xECEC196A, 0x48B0A77A, 0x581A0DB2, 0xF4372DDF, 0xC7634D81, 0xFFFFFFFF, 0xFFFFFFFF, 0xFFFFFFFF,
    0xFFFFFFFF, 0xFFFFFFFF, 0xFFFFFFFF], 48, false⟩
  digit := .inr rfl
  normal := ⟨⟨by decide +kernel, by decide +kernel⟩, by decide +kernel, by decide, by decide⟩
  positive := rfl
  one_lt := by decide +kernel
  lt_bits := by decide +kernel
  size := by decide
  shift := by decide

/-- `_nx_crypto_ec_secp521r1` --/
def secp521r1 : EcCurve 4 where
  bits := 521
  n := ⟨[0x91386409, 0xBB6FB71E, 0x899C47AE, 0x3BB5C9B8, 0xF709A5D0, 0x7FCC0148, 0xBF2F966B, 0x51868783, 0xFFFFFFFA,
    0xFFFFFFFF, 0xFFFFFFFF, 0xFFFFFFFF, 0xFFFFFFFF, 0xFFFFFFFF, 0xFFFFFFFF, 0xFFFFFFFF, 0x000001FF], 68, false⟩
  digit := .inr rfl
  normal := ⟨⟨by decide +kernel, by decide +kernel⟩, by decide +kernel, by decide, by decide⟩
  positive := rfl
  one_lt := by decide +kernel
  lt_bits := by decide +kernel
  size := by decide
  shift := by decide

/-! ### A small curve -/

/-- The nineteen points of y² = x³ + 2x + 2 modulo 17. --/
def smallCurve : EcCurve 4 where
  bits := 5
  n := ⟨[19], 4, false⟩
  digit := .inr rfl
  normal := ⟨⟨by decide +kernel, by decide +kernel⟩, by decide +kernel, by decide, by decide⟩
  positive := rfl
  one_lt := by decide +kernel
  lt_bits := by decide +kernel
  size := by decide
  shift := by decide

/-- The slope through two points, or of the tangent. --/
def smallSlope (x y x' y' : Nat) : Nat :=
  if x = x' then (3 * x ^ 2 + 2) * (2 * y) ^ 15 % 17 else (y' + (17 - y)) * (x' + (17 - x)) ^ 15 % 17

def smallAdd : Option (Nat × Nat) → Option (Nat × Nat) → Option (Nat × Nat)
  | none, q => q
  | p, none => p
  | some (x, y), some (x', y') =>
    if x = x' ∧ (y + y') % 17 = 0 then none
    else
      let slope := smallSlope x y x' y'
      let x'' := (slope ^ 2 + (17 - x) + (17 - x')) % 17
      some (x'', (slope * (x + (17 - x'')) + (17 - y)) % 17)

theorem small_represents {v : Nat} (h : v < 2 ^ 32) : Represents 4 ⟨[v], 4, false⟩ v :=
  ⟨proper_of_top (two_le_digitRadix (by decide)) (fun d hd => by
    obtain rfl := List.mem_singleton.mp hd
    exact h) (.inl rfl), rfl, ofDigits_singleton⟩

/-- The inverse by the power of 17. --/
def smallInverse (x : SignedNumber) : SignedNumber := ⟨[x.magnitude 4 ^ 17 % 19], 4, false⟩

theorem smallInverse_spec {x : SignedNumber} {v : Nat} (hx : Represents 4 x v) (hpos : 0 < v)
    (hlt : v < smallCurve.n.magnitude 4) :
    ∃ w, Normal 4 (smallInverse x) ∧ Represents 4 (smallInverse x) w ∧
      (smallInverse x).data.length * 4 ≤ smallCurve.n.bufferSize ∧ v * w % smallCurve.n.magnitude 4 = 1 := by
  have hrep : Represents 4 (smallInverse x) (x.magnitude 4 ^ 17 % 19) :=
    small_represents ((Nat.mod_lt _ (by decide)).trans (by decide))
  have hall : ∀ d : Fin 19, 0 < d.val → d.val * (d.val ^ 17 % 19) % 19 = 1 := by decide +kernel
  have horder : smallCurve.n.magnitude 4 = 19 := by decide +kernel
  rw [horder] at hlt ⊢
  refine ⟨_, ⟨hrep.proper, (fun h => by cases h), dvd_refl 4, le_refl 4⟩, hrep, le_refl 4, ?_⟩
  rw [hx.value]
  exact hall ⟨v, hlt⟩ hpos

def smallCoordinate (p : Option (Nat × Nat)) : SignedNumber := ⟨[(p.elim 0 Prod.fst) % 17], 4, false⟩

theorem smallCoordinate_spec (p : Option (Nat × Nat)) : ∃ v, Represents 4 (smallCoordinate p) v :=
  ⟨_, small_represents ((Nat.mod_lt _ (by decide)).trans (by decide))⟩

def smallSetup (octets : List Nat) : Except EcdsaError (Option (Nat × Nat)) :=
  if octets.getD 0 0 ≠ 0x04 then .error (.keyRefused 0) else .ok (some (octets.getD 1 0, octets.getD 2 0))

/-- A key is a point of the curve. --/
def smallValidate (p : Option (Nat × Nat)) : Except EcdsaError Unit :=
  p.elim (.error (.keyRefused 1)) fun q =>
    if q.1 < 17 ∧ q.2 < 17 ∧ q.2 ^ 2 % 17 = (q.1 ^ 3 + 2 * q.1 + 2) % 17 then .ok () else .error (.keyRefused 2)

def smallMultiple (p : Option (Nat × Nat)) (k : SignedNumber) : Option (Nat × Nat) :=
  (smallAdd p)^[k.magnitude 4] none

def smallOperations : CurveOperations smallCurve (Option (Nat × Nat)) where
  generator := some (5, 1)
  pointSetup := smallSetup
  validatePublicKey := smallValidate
  inverseModulus := smallInverse
  multiple := smallMultiple
  add := smallAdd
  xCoordinate := smallCoordinate
  inverse := smallInverse_spec
  coordinate := smallCoordinate_spec

example : verify smallOperations [0x48] [0x04, 0, 6] [0x30, 6, 0x02, 1, 7, 0x02, 1, 2] = .ok () := by rfl

/-- For the small curve. --/
theorem ecdsa_signature_codec_small : SignatureCodec smallOperations := ecdsa_signature_codec smallOperations

end Netxduo.Crypto.Ecdsa
