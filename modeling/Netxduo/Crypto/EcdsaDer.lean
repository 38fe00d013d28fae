import Mathlib
import Netxduo.Crypto.SignedBytes

/-! The octets of an ECDSA signature: two INTEGERs of DER in a SEQUENCE, and the strict reading of them. -/

namespace Netxduo.Crypto.Ecdsa
open Nat

/-! ### The source -/

inductive EcdsaError
  | sizeError
  | authenticationFailed
  | notSuccessful
  | keyRefused (status : Nat)
deriving DecidableEq, Repr

/-- `_nx_crypto_ecdsa_der_integer`: the value, and the length of the whole encoding. The buffer is all of what is left
of the sequence. --/
def derInteger (buffer : List Nat) : Except EcdsaError (List Nat × Nat) :=
  if buffer.length < 3 then .error .sizeError
  else if buffer.getD 0 0 ≠ 0x02 then .error .authenticationFailed
  else
    let contentLength := buffer.getD 1 0
    if contentLength &&& 0x80 ≠ 0 ∨ contentLength = 0 ∨ contentLength > buffer.length - 2 then .error .sizeError
    -- Negative.
    else if buffer.getD 2 0 &&& 0x80 ≠ 0 then .error .authenticationFailed
    -- Redundant leading zero.
    else if contentLength > 1 ∧ buffer.getD 2 0 = 0 ∧ buffer.getD 3 0 &&& 0x80 = 0 then .error .authenticationFailed
    else .ok ((buffer.drop 2).take contentLength, contentLength + 2)

/-- The check of the sequence and its size: what the sequence holds. --/
def sequenceContents (signature : List Nat) : Except EcdsaError (List Nat) :=
  if signature.length < 2 then .error .sizeError
  else if signature.getD 0 0 ≠ 0x30 then .error .authenticationFailed
  else if signature.getD 1 0 &&& 0x80 ≠ 0 then
    if signature.getD 1 0 ≠ 0x81 ∨ signature.length < 3 ∨ signature.getD 2 0 < 0x80 then .error .sizeError
    else if signature.length ≠ signature.getD 2 0 + 3 then .error .sizeError
    else .ok (signature.drop 3)
  else if signature.length ≠ signature.getD 1 0 + 2 then .error .sizeError
  else .ok (signature.drop 2)

/-- The part of `_nx_crypto_ecdsa_verify` that takes r and s apart. --/
def takeApart (signature : List Nat) : Except EcdsaError (List Nat × List Nat) := do
  let contents ← sequenceContents signature
  let (rValue, encodedLength) ← derInteger contents
  let contents := contents.drop encodedLength
  let (sValue, encodedLength) ← derInteger contents
  if contents.length ≠ encodedLength then .error .sizeError else .ok (rValue, sValue)

/-! ### What DER says -/

/-- The octets of a number, the highest one first and none of them a zero in front. --/
def magnitudeOctets (v : Nat) : List Nat := (digits 256 v).reverse

/-- The contents of the INTEGER of a positive number: a zero in front only where the number would read as negative. --/
def integerOctets (v : Nat) : List Nat :=
  if 0x80 ≤ (magnitudeOctets v).headD 0 then 0 :: magnitudeOctets v else magnitudeOctets v

def encodedInteger (value : List Nat) : List Nat := 0x02 :: value.length :: value

def encodedSequence (contents : List Nat) : List Nat :=
  0x30 :: ((if contents.length < 0x80 then [contents.length] else [0x81, contents.length]) ++ contents)

/-- The one minimal encoding of two positive numbers. --/
def derSignature (r s : Nat) : List Nat :=
  encodedSequence (encodedInteger (integerOctets r) ++ encodedInteger (integerOctets s))

/-- Contents of an INTEGER in the short form that are not negative and have no redundant zero. --/
structure IntegerContents (value : List Nat) : Prop where
  ne_nil : value ≠ []
  short : value.length < 0x80
  octets : ∀ d ∈ value, d < 256
  sign : value.headD 0 < 0x80
  minimal : 1 < value.length → value.headD 0 = 0 → 0x80 ≤ value.getD 1 0

section
variable {buffer value rest signature contents rValue sValue : List Nat} {len v r s : Nat}

/-! ### Reading an INTEGER -/

theorem top_bit (h : v < 256) : v &&& 0x80 ≠ 0 ↔ 0x80 ≤ v := by
  have hall : ∀ d : Fin 256, (d.val &&& 0x80 ≠ 0 ↔ 0x80 ≤ d.val) := by decide +kernel
  exact hall ⟨v, h⟩

theorem no_top_bit (h : v < 256) : v &&& 0x80 = 0 ↔ v < 0x80 := by
  have := top_bit h
  omega

theorem derInteger_inv (hbytes : ∀ d ∈ buffer, d < 256) (h : derInteger buffer = .ok (value, len)) :
    ∃ rest, buffer = encodedInteger value ++ rest ∧ IntegerContents value ∧ len = value.length + 2 := by
  unfold derInteger at h
  dsimp only at h
  rcases buffer with _ | ⟨tag, _ | ⟨n, _ | ⟨first, buffer⟩⟩⟩
  · simp at h
  · simp at h
  · simp at h
  simp only [List.getD_cons_zero, List.getD_cons_succ, List.length_cons, List.drop_succ_cons, List.drop_zero] at h
  split_ifs at h with hlen htag hform hsign hzero
  obtain ⟨rfl, rfl⟩ := Prod.mk.inj (Except.ok.inj h)
  simp only [not_or, not_not, Nat.not_lt] at hform htag hsign
  obtain ⟨hshort, hpos, hle⟩ := hform
  have hn : n < 256 := hbytes n (by simp)
  have hfirst : first < 256 := hbytes first (by simp)
  rw [no_top_bit hn] at hshort
  rw [no_top_bit hfirst] at hsign
  have hcount : ((first :: buffer).take n).length = n := by
    rw [List.length_take, List.length_cons]
    omega
  refine ⟨(first :: buffer).drop n, ?_, ⟨?_, by omega, ?_, ?_, ?_⟩, by rw [hcount]⟩
  · unfold encodedInteger
    rw [hcount, List.cons_append, List.cons_append, List.take_append_drop, htag]
  · exact List.ne_nil_of_length_pos (by omega)
  · exact fun d hd => hbytes d (List.mem_cons_of_mem _ (List.mem_cons_of_mem _ (List.mem_of_mem_take hd)))
  · obtain ⟨m, rfl⟩ := Nat.exists_eq_succ_of_ne_zero hpos
    rwa [List.take_succ_cons, List.headD_cons]
  · intro hone hhead
    rw [hcount] at hone
    obtain ⟨m, rfl⟩ : ∃ m, n = m + 2 := ⟨n - 2, by omega⟩
    rcases buffer with _ | ⟨second, buffer⟩
    · simp only [List.length_nil] at hle
      omega
    · simp only [List.take_succ_cons, List.headD_cons] at hhead
      simp only [List.take_succ_cons, List.getD_cons_succ, List.getD_cons_zero] at hzero ⊢
      have hsecond : second < 256 := hbytes second (by simp)
      rw [no_top_bit hsecond] at hzero
      exact Nat.le_of_not_lt fun hlt => hzero ⟨hone, hhead, hlt⟩

theorem derInteger_encoded (hvalue : IntegerContents value) (rest : List Nat) :
    derInteger (encodedInteger value ++ rest) = .ok (value, value.length + 2) := by
  obtain ⟨hne, hshort, hoctets, hsign, hminimal⟩ := hvalue
  rcases value with _ | ⟨first, value⟩
  · exact absurd rfl hne
  have hfirst : first < 256 := hoctets first (by simp)
  unfold derInteger encodedInteger
  dsimp only
  simp only [List.cons_append, List.getD_cons_zero, List.getD_cons_succ, List.length_cons, List.length_append,
    List.drop_succ_cons, List.drop_zero, List.headD_cons] at hshort hsign hminimal ⊢
  rw [if_neg (by omega), if_neg (by simp), if_neg, if_neg, if_neg]
  · rw [List.take_succ_cons, List.take_left]
  · rintro ⟨hone, hhead, hsecond⟩
    rcases value with _ | ⟨second, value⟩
    · simp at hone
    · have hlt : second < 256 := hoctets second (by simp)
      simp only [List.cons_append, List.getD_cons_zero] at hsecond
      rw [no_top_bit hlt] at hsecond
      exact absurd (hminimal (by omega) hhead) (by simpa using hsecond)
  · exact fun h => absurd ((top_bit hfirst).mp h) (by omega)
  · rintro (h | h | h)
    · exact absurd ((top_bit (by omega)).mp h) (by omega)
    · omega
    · omega

/-! ### Reading a signature -/

theorem sequenceContents_inv (hbytes : ∀ d ∈ signature, d < 256) (h : sequenceContents signature = .ok contents) :
    signature = encodedSequence contents ∧ contents.length < 256 := by
  unfold sequenceContents at h
  rcases signature with _ | ⟨tag, _ | ⟨size, signature⟩⟩
  · simp at h
  · simp at h
  have hsize : size < 256 := hbytes size (by simp)
  simp only [List.getD_cons_zero, List.getD_cons_succ, List.length_cons, List.drop_succ_cons, List.drop_zero] at h
  unfold encodedSequence
  split_ifs at h with hlen htag hlong hform hexact hexact
  · rcases signature with _ | ⟨long, signature⟩
    · simp at hform
    · simp only [List.getD_cons_zero, List.length_cons, List.drop_succ_cons, List.drop_zero, not_or, not_not,
        Nat.not_lt] at h hform hexact htag
      obtain rfl := Except.ok.inj h
      have hlt : long < 256 := hbytes long (by simp)
      have hcount : signature.length = long := by omega
      rw [if_neg (by omega), hcount, hform.1, htag]
      exact ⟨rfl, hlt⟩
  · obtain rfl := Except.ok.inj h
    simp only [not_not] at htag hlong hexact
    rw [no_top_bit hsize] at hlong
    have hcount : signature.length = size := by omega
    rw [if_pos (by omega), hcount, htag]
    exact ⟨rfl, hsize⟩

theorem sequenceContents_encoded (h : contents.length < 256) :
    sequenceContents (encodedSequence contents) = .ok contents := by
  unfold sequenceContents encodedSequence
  by_cases hshort : contents.length < 0x80
  · rw [if_pos hshort]
    simp [(no_top_bit h).mpr hshort]
  · rw [if_neg hshort]
    simp [Nat.le_of_not_lt hshort]

/-- What is accepted is the encoding of the two values, and fills the signature. --/
theorem takeApart_inv (hbytes : ∀ d ∈ signature, d < 256) (h : takeApart signature = .ok (rValue, sValue)) :
    signature = encodedSequence (encodedInteger rValue ++ encodedInteger sValue) ∧ IntegerContents rValue ∧
      IntegerContents sValue := by
  unfold takeApart at h
  rcases hcontents : sequenceContents signature with e | contents
  · rw [hcontents] at h
    cases h
  obtain ⟨hsignature, -⟩ := sequenceContents_inv hbytes hcontents
  have hmem : ∀ d ∈ contents, d < 256 := fun d hd => hbytes d (by
    rw [hsignature]
    exact List.mem_cons_of_mem _ (List.mem_append_right _ hd))
  rw [hcontents] at h
  change (derInteger contents >>= _) = _ at h
  rcases hr : derInteger contents with e | ⟨value, len⟩
  · rw [hr] at h
    cases h
  obtain ⟨rest, rfl, hrContents, rfl⟩ := derInteger_inv hmem hr
  have hdrop : (encodedInteger value ++ rest).drop (value.length + 2) = rest :=
    List.drop_left' (by simp [encodedInteger])
  rw [hr] at h
  change (derInteger ((encodedInteger value ++ rest).drop (value.length + 2)) >>= fun x =>
    if ((encodedInteger value ++ rest).drop (value.length + 2)).length ≠ x.2 then .error .sizeError
    else .ok (value, x.1)) = _ at h
  rw [hdrop] at h
  rcases hs : derInteger rest with e | ⟨value', len'⟩
  · rw [hs] at h
    cases h
  obtain ⟨rest', rfl, hsContents, rfl⟩ :=
    derInteger_inv (fun d hd => hmem d (List.mem_append_right _ hd)) hs
  rw [hs] at h
  change (if (encodedInteger value' ++ rest').length ≠ value'.length + 2 then Except.error EcdsaError.sizeError
    else .ok (value, value')) = _ at h
  split_ifs at h with hexact
  obtain ⟨rfl, rfl⟩ := Prod.mk.inj (Except.ok.inj h)
  rw [not_not, List.length_append] at hexact
  obtain rfl : rest' = [] := List.eq_nil_of_length_eq_zero (by
    simp only [encodedInteger, List.length_cons] at hexact
    omega)
  rw [List.append_nil] at hsignature
  exact ⟨hsignature, hrContents, hsContents⟩

theorem takeApart_encoded (hr : IntegerContents rValue) (hs : IntegerContents sValue)
    (h : rValue.length + sValue.length + 4 < 256) :
    takeApart (encodedSequence (encodedInteger rValue ++ encodedInteger sValue)) = .ok (rValue, sValue) := by
  have hcontents := @sequenceContents_encoded (encodedInteger rValue ++ encodedInteger sValue) (by
    simp only [encodedInteger, List.length_append, List.length_cons]
    omega)
  have hdrop : (encodedInteger rValue ++ encodedInteger sValue).drop (rValue.length + 2) = encodedInteger sValue :=
    List.drop_left' (by simp [encodedInteger])
  have hsecond := derInteger_encoded hs []
  rw [List.append_nil] at hsecond
  unfold takeApart
  rw [hcontents]
  change (derInteger (encodedInteger rValue ++ encodedInteger sValue) >>= _) = _
  rw [derInteger_encoded hr]
  change (derInteger ((encodedInteger rValue ++ encodedInteger sValue).drop (rValue.length + 2)) >>= fun x =>
    if ((encodedInteger rValue ++ encodedInteger sValue).drop (rValue.length + 2)).length ≠ x.2
    then .error .sizeError else .ok (rValue, x.1)) = _
  rw [hdrop, hsecond]
  change (if (encodedInteger sValue).length ≠ sValue.length + 2 then Except.error EcdsaError.sizeError
    else .ok (rValue, sValue)) = _
  rw [if_neg (by simp [encodedInteger])]

/-! ### The octets of a number -/

theorem value_magnitude (v : Nat) : ofDigits 256 (magnitudeOctets v).reverse = v := by
  rw [magnitudeOctets, List.reverse_reverse, ofDigits_digits]

theorem magnitude_lt : ∀ d ∈ magnitudeOctets v, d < 256 := fun _ hd =>
  digits_lt_base (by decide) (List.mem_reverse.mp hd)

theorem head_magnitude (hpos : 0 < v) : ∃ d ds, magnitudeOctets v = d :: ds ∧ 0 < d := by
  have hne : digits 256 v ≠ [] := digits_ne_nil_iff_ne_zero.mpr hpos.ne'
  refine ⟨(digits 256 v).getLast hne, (digits 256 v).dropLast.reverse, ?_, ?_⟩
  · rw [magnitudeOctets]
    conv_lhs => rw [← List.dropLast_append_getLast hne]
    rw [List.reverse_append, List.reverse_singleton, List.singleton_append]
  · exact Nat.pos_of_ne_zero (getLast_digit_ne_zero 256 hpos.ne')

/-- Octets without a zero in front are the octets of the number they stand for. --/
theorem eq_magnitude {d : Nat} {ds : List Nat} (hoctets : ∀ e ∈ d :: ds, e < 256) (hd : d ≠ 0) :
    d :: ds = magnitudeOctets (ofDigits 256 (d :: ds).reverse) := by
  rw [magnitudeOctets, digits_ofDigits 256 (by decide) _ (fun e he => hoctets e (List.mem_reverse.mp he)),
    List.reverse_reverse]
  intro hne
  rw [List.getLast_reverse]
  exact hd

theorem length_magnitude {n : Nat} (h : v < 256 ^ n) : (magnitudeOctets v).length ≤ n := by
  rw [magnitudeOctets, List.length_reverse]
  exact (digits_length_le_iff (by decide) v).mpr h

theorem integerOctets_contents (hpos : 0 < v) (hlength : (integerOctets v).length < 0x80) :
    IntegerContents (integerOctets v) := by
  obtain ⟨d, ds, hcons, hd⟩ := head_magnitude hpos
  have hlt := magnitude_lt (v := v)
  unfold integerOctets at hlength ⊢
  rw [hcons] at hlength hlt ⊢
  rw [List.headD_cons] at hlength ⊢
  split_ifs at hlength ⊢ with htop
  · refine ⟨List.cons_ne_nil _ _, hlength, ?_, by simp, fun _ _ => by simpa using htop⟩
    intro e he
    rcases List.mem_cons.mp he with rfl | he
    · decide
    · exact hlt e he
  · exact ⟨List.cons_ne_nil _ _, hlength, hlt, by simpa using htop, fun _ hzero => by
      rw [List.headD_cons] at hzero
      omega⟩

theorem value_integer (v : Nat) : ofDigits 256 (integerOctets v).reverse = v := by
  unfold integerOctets
  split_ifs
  · rw [List.reverse_cons, ofDigits_append, value_magnitude, ofDigits_singleton, Nat.mul_zero, Nat.add_zero]
  · exact value_magnitude v

/-- There are no other contents of an INTEGER for a positive number. --/
theorem IntegerContents.eq_integer (h : IntegerContents value) (hpos : 0 < ofDigits 256 value.reverse) :
    value = integerOctets (ofDigits 256 value.reverse) := by
  obtain ⟨hne, -, hoctets, hsign, hminimal⟩ := h
  rcases value with _ | ⟨first, value⟩
  · exact absurd rfl hne
  rw [List.headD_cons] at hsign hminimal
  by_cases hzero : first = 0
  · subst hzero
    have hvalue : ofDigits 256 (0 :: value).reverse = ofDigits 256 value.reverse := by
      rw [List.reverse_cons, ofDigits_append, ofDigits_singleton, Nat.mul_zero, Nat.add_zero]
    rcases value with _ | ⟨second, value⟩
    · simp at hpos
    · have htop : 0x80 ≤ second := by simpa using hminimal (by simp) rfl
      have hsame := eq_magnitude (fun e he => hoctets e (List.mem_cons_of_mem _ he)) (show second ≠ 0 by omega)
      rw [hvalue, integerOctets, ← hsame, List.headD_cons, if_pos htop]
  · have hsame := eq_magnitude hoctets hzero
    rw [integerOctets, ← hsame, List.headD_cons, if_neg (by omega)]

/-- The encoding tells which numbers it is of. --/
theorem derSignature_injective {r' s' : Nat} (hr : IntegerContents (integerOctets r))
    (hs : IntegerContents (integerOctets s)) (hr' : IntegerContents (integerOctets r'))
    (hs' : IntegerContents (integerOctets s'))
    (hlt : (integerOctets r).length + (integerOctets s).length + 4 < 256)
    (hlt' : (integerOctets r').length + (integerOctets s').length + 4 < 256)
    (h : derSignature r s = derSignature r' s') : r = r' ∧ s = s' := by
  have hfirst := takeApart_encoded hr hs hlt
  have hsecond := takeApart_encoded hr' hs' hlt'
  rw [← derSignature, h, derSignature, hsecond] at hfirst
  obtain ⟨hrs, hss⟩ := Prod.mk.inj (Except.ok.inj hfirst)
  rw [← value_integer r, ← value_integer s, ← hrs, ← hss, value_integer, value_integer]
  exact ⟨rfl, rfl⟩

end

end Netxduo.Crypto.Ecdsa
