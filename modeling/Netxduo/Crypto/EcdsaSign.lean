import Mathlib
import Netxduo.Crypto.EcdsaDer

/-! The signature that `_nx_crypto_ecdsa_sign` builds in place: r and s written apart in the buffer, then moved together
behind their headers. -/

namespace Netxduo.Crypto.Ecdsa
open Nat

/-! ### The source -/

def curveSize (bits : Nat) : Nat := if bits &&& 7 ≠ 0 then bits >>> 3 + 1 else bits >>> 3

def octetsAt (buffer : List Nat) (i size : Nat) : List Nat := (buffer.drop i).take size

/-- The octets of `bytes` stored over those of a buffer from `i` on. --/
def writeOctets (buffer : List Nat) (i : Nat) (bytes : List Nat) : List Nat :=
  buffer.take i ++ bytes ++ buffer.drop (i + bytes.length)

/-- `NX_CRYPTO_MEMMOVE` within the buffer, whatever of the two places overlaps. --/
def moveOctets (buffer : List Nat) (destination source size : Nat) : List Nat :=
  writeOctets buffer destination (octetsAt buffer source size)

/-- A number extracted into the buffer, with the size that comes back. --/
def extractTo (width : Nat) (number : SignedNumber) (buffer : List Nat) (i size : Nat) :
    Except EcdsaError (List Nat × Nat) :=
  match extract width number size with
  | .error _ => .error .notSuccessful
  | .ok bytes => .ok (writeOctets buffer i bytes, bytes.length)

/-- How far the loop that trims zeros goes. --/
def prefixZeros (octets : List Nat) : Nat := (octets.takeWhile (· = 0)).length

def padZero (buffer : List Nat) (i : Nat) : Nat := if buffer.getD i 0 &&& 0x80 ≠ 0 then 1 else 0

/-- The setup of r, or of s: the value moved to its place first, then the octets in front of it. --/
def setupInteger (buffer : List Nat) (base source size pad : Nat) : List Nat :=
  let buffer := moveOctets buffer (base + (2 + pad)) source size
  let buffer := writeOctets buffer base [0x02, (size + pad) % 256]
  if pad ≠ 0 then writeOctets buffer (base + 2) [0] else buffer

/-- The part of `_nx_crypto_ecdsa_sign` after r and s are extracted: the buffer, and the length of the signature. --/
def layOut (curveSize rSize sSize : Nat) (signature : List Nat) : List Nat × Nat :=
  let i := prefixZeros (octetsAt signature 3 rSize)
  let signatureR := 3 + i
  let rSize := rSize - i
  let padZeroR := padZero signature signatureR
  let i := prefixZeros (octetsAt signature (curveSize + 6) sSize)
  let signatureS := curveSize + 6 + i
  let sSize := sSize - i
  let padZeroS := padZero signature signatureS
  let sequenceSize := rSize + padZeroR + sSize + padZeroS + 4
  let header := if sequenceSize < 0x80 then [0x30, sequenceSize] else [0x30, 0x81, sequenceSize % 256]
  let signature := writeOctets signature 0 header
  let signature := setupInteger signature header.length signatureR rSize padZeroR
  let signature := setupInteger signature (header.length + (2 + padZeroR + rSize)) signatureS sSize padZeroS
  (signature, sequenceSize + header.length)

/-- The end of `_nx_crypto_ecdsa_sign` with its check of the signature's length: r and s as two INTEGERs. --/
def outputSignature (width bits : Nat) (r s : SignedNumber) (signature : List Nat) :
    Except EcdsaError (List Nat × Nat) :=
  if signature.length < curveSize bits <<< 1 + 9 then .error .sizeError
  else do
    let (signature, rSize) ← extractTo width r signature 3 (curveSize bits + 3)
    let (signature, sSize) ← extractTo width s signature (curveSize bits + 6) (curveSize bits + 3)
    return layOut (curveSize bits) rSize sSize signature

section
variable {buffer bytes : List Nat} {i j m n : Nat}

/-! ### Octets of a buffer -/

theorem length_writeOctets (h : i + bytes.length ≤ buffer.length) :
    (writeOctets buffer i bytes).length = buffer.length := by
  simp only [writeOctets, List.length_append, List.length_take, List.length_drop]
  omega

theorem getElem?_writeOctets (h : i + bytes.length ≤ buffer.length) (k : Nat) :
    (writeOctets buffer i bytes)[k]? = if i ≤ k ∧ k < i + bytes.length then bytes[k - i]? else buffer[k]? := by
  have htake : (buffer.take i).length = i := by
    rw [List.length_take]
    omega
  unfold writeOctets
  rw [List.append_assoc, List.getElem?_append, htake]
  split_ifs with hlt hin hin
  · omega
  · rw [List.getElem?_take_of_lt hlt]
  · rw [List.getElem?_append_left (by omega)]
  · rw [List.getElem?_append_right (by omega), List.getElem?_drop]
    congr 1
    omega

theorem getElem?_octetsAt (buffer : List Nat) (i n k : Nat) :
    (octetsAt buffer i n)[k]? = if k < n then buffer[i + k]? else none := by
  unfold octetsAt
  rw [List.getElem?_take]
  split_ifs
  · rw [List.getElem?_drop]
  · rfl

theorem length_octetsAt (h : i + n ≤ buffer.length) : (octetsAt buffer i n).length = n := by
  simp only [octetsAt, List.length_take, List.length_drop]
  omega

/-- What is stored is there. --/
theorem octetsAt_written (h : i + bytes.length ≤ buffer.length) :
    octetsAt (writeOctets buffer i bytes) i bytes.length = bytes := by
  refine List.ext_getElem? fun k => ?_
  rw [getElem?_octetsAt, getElem?_writeOctets h]
  split_ifs with hlt hin
  · rw [Nat.add_sub_cancel_left]
  · omega
  · exact (List.getElem?_eq_none (by omega)).symm

/-- What lies before or behind the place stays. --/
theorem octetsAt_apart (h : i + bytes.length ≤ buffer.length) (hapart : j + m ≤ i ∨ i + bytes.length ≤ j) :
    octetsAt (writeOctets buffer i bytes) j m = octetsAt buffer j m := by
  refine List.ext_getElem? fun k => ?_
  rw [getElem?_octetsAt, getElem?_octetsAt, getElem?_writeOctets h]
  split_ifs with hlt hin
  · omega
  · rfl
  · rfl

theorem octetsAt_add (buffer : List Nat) (i m n : Nat) :
    octetsAt buffer i (m + n) = octetsAt buffer i m ++ octetsAt buffer (i + m) n := by
  rw [octetsAt, List.take_add, List.drop_drop]
  rfl

theorem drop_octetsAt (buffer : List Nat) (i m n : Nat) :
    (octetsAt buffer i n).drop m = octetsAt buffer (i + m) (n - m) := by
  rw [octetsAt, List.drop_take, List.drop_drop]
  rfl

theorem headD_octetsAt (hn : 0 < n) : (octetsAt buffer i n).headD 0 = buffer.getD i 0 := by
  have h := getElem?_octetsAt buffer i n 0
  rw [if_pos hn, Nat.add_zero] at h
  rw [List.headD_eq_head?_getD, List.head?_eq_getElem?, h, List.getD_eq_getElem?_getD]

/-! ### An INTEGER in its place -/

variable {base source size pad : Nat}

theorem setupInteger_spec (hpad : pad ≤ 1) (hsource : source + size ≤ buffer.length)
    (hroom : base + (2 + pad + size) ≤ buffer.length) (hsize : size + pad < 256) :
    (setupInteger buffer base source size pad).length = buffer.length ∧
      octetsAt (setupInteger buffer base source size pad) base (2 + pad + size) =
        encodedInteger (List.replicate pad 0 ++ octetsAt buffer source size) ∧
      ∀ j m, j + m ≤ base ∨ base + (2 + pad + size) ≤ j →
        octetsAt (setupInteger buffer base source size pad) j m = octetsAt buffer j m := by
  have hcount : (octetsAt buffer source size).length = size := length_octetsAt hsource
  have hmove : base + (2 + pad) + (octetsAt buffer source size).length ≤ buffer.length := by omega
  have hmoved := length_writeOctets hmove
  have hvalue := octetsAt_written hmove
  have hapart := fun j m => octetsAt_apart (j := j) (m := m) hmove
  rw [hcount] at hvalue hapart
  have hencoded : encodedInteger (List.replicate pad 0 ++ octetsAt buffer source size) =
      [0x02, size + pad] ++ List.replicate pad 0 ++ octetsAt buffer source size := by
    simp [encodedInteger, hcount, Nat.add_comm]
  unfold setupInteger
  simp only [moveOctets]
  rw [Nat.mod_eq_of_lt hsize, hencoded]
  generalize writeOctets buffer (base + (2 + pad)) (octetsAt buffer source size) = moved at hmoved hvalue hapart ⊢
  have htag : base + [0x02, size + pad].length ≤ moved.length := by
    simp only [List.length_cons, List.length_nil]
    omega
  have htagged := length_writeOctets htag
  have hhead := octetsAt_written htag
  have htail := fun j m => octetsAt_apart (j := j) (m := m) htag
  generalize writeOctets moved base [0x02, size + pad] = tagged at htagged hhead htail ⊢
  simp only [List.length_cons, List.length_nil] at hhead htail
  obtain rfl | rfl : pad = 0 ∨ pad = 1 := by omega
  · rw [if_neg (by simp)]
    refine ⟨by omega, ?_, fun j m h => ?_⟩
    · rw [octetsAt_add, hhead, htail _ _ (.inr (by omega)), hvalue]
      simp
    · rw [htail _ _ (by omega), hapart _ _ (by omega)]
  · rw [if_pos (by simp)]
    have hzero : base + 2 + [0].length ≤ tagged.length := by
      simp only [List.length_cons, List.length_nil]
      omega
    have hpadded := octetsAt_written hzero
    have hrest := fun j m => octetsAt_apart (j := j) (m := m) hzero
    have hlength := length_writeOctets hzero
    simp only [List.length_cons, List.length_nil] at hpadded hrest
    refine ⟨by omega, ?_, fun j m h => ?_⟩
    · rw [octetsAt_add, octetsAt_add, hrest _ _ (.inl (by omega)), hhead, hpadded, hrest _ _ (.inr (by omega)),
        htail _ _ (.inr (by omega)), hvalue]
      simp
    · rw [hrest _ _ (by omega), htail _ _ (by omega), hapart _ _ (by omega)]

/-! ### The numbers in the buffer -/

variable {width bits v : Nat} {x : SignedNumber}

theorem bits_le_curveSize (bits : Nat) : bits ≤ 8 * curveSize bits ∧ curveSize bits ≤ bits / 8 + 1 := by
  have hand : bits &&& 7 = bits % 8 := Nat.and_two_pow_sub_one_eq_mod bits 3
  unfold curveSize
  rw [hand, Nat.shiftRight_eq_div_pow]
  split_ifs <;> omega

theorem lt_curveSize (h : v < 2 ^ bits) : v < 256 ^ curveSize bits := by
  have hle := (bits_le_curveSize bits).1
  calc v < 2 ^ bits := h
    _ ≤ 2 ^ (8 * curveSize bits) := Nat.pow_le_pow_right (by decide) hle
    _ = 256 ^ curveSize bits := by rw [Nat.pow_mul]

/-- What is extracted of a number below the group order fits, and without the zeros in front is the number. --/
theorem extracted (hw : width = 2 ∨ width = 4) (hx : Normal width x) (hv : x.toInt width = (v : Int)) (hpos : 0 < v)
    (hlt : v < 2 ^ bits) :
    ∃ bytes, extract width x (curveSize bits + 3) = .ok bytes ∧ bytes.length ≤ curveSize bits + 3 ∧
      bytes.drop (prefixZeros bytes) = magnitudeOctets v := by
  have hw' : 0 < width := by omega
  have hsize := lt_curveSize hlt
  have hone : 0 < curveSize bits := Nat.pos_of_ne_zero fun h => by
    rw [h, Nat.pow_zero] at hsize
    omega
  have hdm := Nat.div_mul_le_self (curveSize bits + (width - 1)) width
  have hwords : x.data.length * width ≤ curveSize bits + 3 := by
    have hvalue : ofDigits (digitRadix width) x.data < digitRadix width ^ ((curveSize bits + (width - 1)) / width) := by
      rw [← natAbs_toInt, hv, Int.natAbs_natCast, digitRadix_eq, ← Nat.pow_mul]
      refine hsize.trans_le (Nat.pow_le_pow_right (by decide) ?_)
      have hmod := Nat.div_add_mod (curveSize bits + (width - 1)) width
      have hrem := Nat.mod_lt (curveSize bits + (width - 1)) hw'
      omega
    have hlen := hx.proper.length_le (two_le_digitRadix hw') (Nat.div_pos (by omega) hw') hvalue
    exact (Nat.mul_le_mul_right _ hlen).trans (by omega)
  obtain ⟨bytes, hextract, hlength, hbytes, hbval⟩ := extract_spec hx hwords
  refine ⟨bytes, hextract, by omega, ?_⟩
  rw [hv, Int.natAbs_natCast] at hbval
  have hdrop : bytes.drop (prefixZeros bytes) = bytes.dropWhile (· = 0) := by
    have hdrop := @List.drop_left _ (bytes.takeWhile (· = 0)) (bytes.dropWhile (· = 0))
    rwa [List.takeWhile_append_dropWhile] at hdrop
  have hsame := value_dropWhile bytes
  rw [hdrop]
  rw [hbval] at hsame
  rcases hcons : bytes.dropWhile (· = 0) with _ | ⟨d, ds⟩
  · rw [hcons] at hsame
    simp at hsame
    omega
  · have hhead := List.head_dropWhile_not (fun d : Nat => decide (d = 0)) (l := bytes) (by rw [hcons]; simp)
    simp only [hcons, List.head_cons, decide_eq_false_iff_not] at hhead
    have hmem : ∀ e ∈ d :: ds, e < 256 := fun e he => hbytes e (List.dropWhile_subset _ (by
      rw [hcons]
      exact he))
    rw [hcons] at hsame ⊢
    rw [eq_magnitude hmem hhead, hsame]

/-! ### The signature -/

/-- The octets in front of the magnitude make it the contents of an INTEGER. --/
theorem padded_magnitude {i size : Nat} (hpos : 0 < v) (h : octetsAt buffer i size = magnitudeOctets v) :
    padZero buffer i ≤ 1 ∧ List.replicate (padZero buffer i) 0 ++ magnitudeOctets v = integerOctets v := by
  obtain ⟨d, ds, hcons, -⟩ := head_magnitude hpos
  have hlt : d < 256 := magnitude_lt (v := v) d (by rw [hcons]; exact List.mem_cons_self)
  have hsize : 0 < size := Nat.pos_of_ne_zero fun hzero => by
    rw [hzero, hcons] at h
    simp [octetsAt] at h
  have hhead : buffer.getD i 0 = d := by
    rw [← headD_octetsAt hsize, h, hcons, List.headD_cons]
  unfold padZero integerOctets
  rw [hhead, hcons, List.headD_cons]
  by_cases htop : 0x80 ≤ d
  · rw [if_pos ((top_bit hlt).mpr htop), if_pos htop]
    exact ⟨le_rfl, rfl⟩
  · rw [if_neg fun h => htop ((top_bit hlt).mp h), if_neg htop]
    exact ⟨Nat.zero_le _, rfl⟩

theorem layOut_spec {size rSize sSize vr vs : Nat} (hsize : size ≤ 124) (hroom : size <<< 1 + 9 ≤ buffer.length)
    (hposR : 0 < vr) (hposS : 0 < vs) (hrSize : (magnitudeOctets vr).length ≤ size)
    (hsSize : (magnitudeOctets vs).length ≤ size) (hrLength : rSize ≤ size + 3) (hsLength : sSize ≤ size + 3)
    (hr : (octetsAt buffer 3 rSize).drop (prefixZeros (octetsAt buffer 3 rSize)) = magnitudeOctets vr)
    (hs : (octetsAt buffer (size + 6) sSize).drop (prefixZeros (octetsAt buffer (size + 6) sSize)) =
      magnitudeOctets vs) :
    (layOut size rSize sSize buffer).1.length = buffer.length ∧
      (layOut size rSize sSize buffer).2 ≤ size <<< 1 + 9 ∧
      (layOut size rSize sSize buffer).1.take (layOut size rSize sSize buffer).2 = derSignature vr vs := by
  rw [Nat.shiftLeft_eq, Nat.pow_one] at hroom ⊢
  have hcountR : rSize - prefixZeros (octetsAt buffer 3 rSize) = (magnitudeOctets vr).length := by
    rw [← hr, List.length_drop, length_octetsAt (by omega)]
  have hcountS : sSize - prefixZeros (octetsAt buffer (size + 6) sSize) = (magnitudeOctets vs).length := by
    rw [← hs, List.length_drop, length_octetsAt (by omega)]
  obtain ⟨d, ds, hconsR, -⟩ := head_magnitude hposR
  obtain ⟨e, es, hconsS, -⟩ := head_magnitude hposS
  have hneR : 0 < (magnitudeOctets vr).length := by rw [hconsR]; exact Nat.zero_lt_succ _
  have hneS : 0 < (magnitudeOctets vs).length := by rw [hconsS]; exact Nat.zero_lt_succ _
  rw [drop_octetsAt, hcountR] at hr
  rw [drop_octetsAt, hcountS] at hs
  obtain ⟨hpadR, hcontentsR⟩ := padded_magnitude hposR hr
  obtain ⟨hpadS, hcontentsS⟩ := padded_magnitude hposS hs
  unfold layOut
  dsimp only
  rw [hcountR, hcountS]
  have hplaceR : prefixZeros (octetsAt buffer 3 rSize) + (magnitudeOctets vr).length ≤ size + 3 := by omega
  have hplaceS : prefixZeros (octetsAt buffer (size + 6) sSize) + (magnitudeOctets vs).length ≤ size + 3 := by omega
  generalize prefixZeros (octetsAt buffer 3 rSize) = i at hr hpadR hcontentsR hplaceR ⊢
  generalize prefixZeros (octetsAt buffer (size + 6) sSize) = j at hs hpadS hcontentsS hplaceS ⊢
  generalize hpR : padZero buffer (3 + i) = padR at hpadR hcontentsR ⊢
  generalize hpS : padZero buffer (size + 6 + j) = padS at hpadS hcontentsS ⊢
  generalize hnR : (magnitudeOctets vr).length = nR at *
  generalize hnS : (magnitudeOctets vs).length = nS at *
  have hlengthR : (integerOctets vr).length = padR + nR := by
    rw [← hcontentsR, List.length_append, List.length_replicate, hnR]
  have hlengthS : (integerOctets vs).length = padS + nS := by
    rw [← hcontentsS, List.length_append, List.length_replicate, hnS]
  -- The header, in either form of the length.
  obtain ⟨header, hheader, hheaderLength, hsignature⟩ : ∃ header, (if nR + padR + nS + padS + 4 < 0x80
      then [0x30, nR + padR + nS + padS + 4] else [0x30, 0x81, (nR + padR + nS + padS + 4) % 256]) = header ∧
      header.length ≤ 3 ∧ derSignature vr vs = header ++ (encodedInteger (integerOctets vr) ++
        encodedInteger (integerOctets vs)) := by
    have htotal : (encodedInteger (integerOctets vr) ++ encodedInteger (integerOctets vs)).length =
        nR + padR + nS + padS + 4 := by
      simp only [encodedInteger, List.length_append, List.length_cons, hlengthR, hlengthS]
      omega
    refine ⟨_, rfl, by split_ifs <;> simp, ?_⟩
    rw [derSignature, encodedSequence, htotal]
    split_ifs
    · rfl
    · rw [Nat.mod_eq_of_lt (by omega)]
      rfl
  rw [hheader, hsignature]
  have hfits : 0 + header.length ≤ buffer.length := by omega
  have hlength := length_writeOctets hfits
  have hwritten := octetsAt_written hfits
  have hkept := fun j m => octetsAt_apart (j := j) (m := m) hfits
  generalize writeOctets buffer 0 header = first at hlength hwritten hkept ⊢
  obtain ⟨hlengthFirst, hencodedR, hkeptR⟩ := @setupInteger_spec first header.length (3 + i) nR padR hpadR
    (by omega) (by omega) (by omega)
  rw [hkept _ _ (.inr (by omega)), hr, hcontentsR] at hencodedR
  generalize setupInteger first header.length (3 + i) nR padR = second at hlengthFirst hencodedR hkeptR ⊢
  obtain ⟨hlengthSecond, hencodedS, hkeptS⟩ := @setupInteger_spec second (header.length + (2 + padR + nR))
    (size + 6 + j) nS padS hpadS (by omega) (by omega) (by omega)
  -- The octets of s still lie where they were extracted.
  rw [hkeptR _ _ (.inr (by omega)), hkept _ _ (.inr (by omega)), hs, hcontentsS] at hencodedS
  generalize setupInteger second (header.length + (2 + padR + nR)) (size + 6 + j) nS padS = third at *
  refine ⟨by omega, by omega, ?_⟩
  have hsplit : nR + padR + nS + padS + 4 + header.length =
      header.length + (2 + padR + nR) + (2 + padS + nS) := by omega
  change octetsAt third 0 _ = _
  rw [hsplit, octetsAt_add, octetsAt_add, Nat.zero_add, Nat.zero_add, hencodedS,
    hkeptS 0 header.length (.inl (by omega)), hkeptR 0 header.length (.inl (by omega)), hwritten,
    hkeptS _ _ (.inl (by omega)), hencodedR, List.append_assoc]

/-- What is put out is the one minimal encoding of r and s, within the length that is asked for. --/
theorem outputSignature_spec {r s : SignedNumber} {vr vs : Nat} {signature : List Nat} (hw : width = 2 ∨ width = 4)
    (hsize : curveSize bits ≤ 124) (hr : Normal width r) (hs : Normal width s) (hvr : r.toInt width = (vr : Int))
    (hvs : s.toInt width = (vs : Int)) (hposR : 0 < vr) (hposS : 0 < vs) (hltR : vr < 2 ^ bits) (hltS : vs < 2 ^ bits)
    (hroom : curveSize bits <<< 1 + 9 ≤ signature.length) :
    ∃ out len, outputSignature width bits r s signature = .ok (out, len) ∧ out.length = signature.length ∧
      len ≤ curveSize bits <<< 1 + 9 ∧ out.take len = derSignature vr vs := by
  obtain ⟨rBytes, hextractR, hlengthR, htrimR⟩ := extracted hw hr hvr hposR hltR
  obtain ⟨sBytes, hextractS, hlengthS, htrimS⟩ := extracted hw hs hvs hposS hltS
  have htwo : curveSize bits <<< 1 = 2 * curveSize bits := by rw [Nat.shiftLeft_eq, Nat.pow_one, Nat.mul_comm]
  have hfitsR : 3 + rBytes.length ≤ signature.length := by omega
  have hlength₁ := length_writeOctets hfitsR
  have hfitsS : curveSize bits + 6 + sBytes.length ≤ (writeOctets signature 3 rBytes).length := by omega
  have hlength₂ := length_writeOctets hfitsS
  have hplaceR : octetsAt (writeOctets (writeOctets signature 3 rBytes) (curveSize bits + 6) sBytes) 3 rBytes.length =
      rBytes := by
    rw [octetsAt_apart hfitsS (.inl (by omega)), octetsAt_written hfitsR]
  have hplaceS := octetsAt_written hfitsS
  obtain ⟨hout, hlen, htake⟩ := @layOut_spec
    (writeOctets (writeOctets signature 3 rBytes) (curveSize bits + 6) sBytes) (curveSize bits) rBytes.length
    sBytes.length vr vs hsize (by omega) hposR hposS (length_magnitude (lt_curveSize hltR))
    (length_magnitude (lt_curveSize hltS)) hlengthR hlengthS (by rw [hplaceR, htrimR]) (by rw [hplaceS, htrimS])
  refine ⟨_, _, ?_, by rw [hout, hlength₂, hlength₁], hlen, htake⟩
  unfold outputSignature extractTo
  rw [if_neg (by omega), hextractR, hextractS]
  rfl

end

end Netxduo.Crypto.Ecdsa
