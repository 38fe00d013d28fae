import Mathlib
import Netxduo.Secure.Asn1

/-! The signature block of PKCS#1 v1.5, and which octet strings are taken for one. -/

namespace Netxduo.X509

/-! ### The source -/

/-- `00 01`, at least eight `FF`, `00`: what is left behind them. --/
def skipPadding (signature : List UInt8) : Option (List UInt8) :=
  if signature.length < 11 then none
  else if signature.getD 0 0 ≠ 0x00 ∨ signature.getD 1 0 ≠ 0x01 then none
  else
    let i := 2 + ((signature.drop 2).takeWhile (· = 0xFF)).length
    if i - 2 < 8 ∨ i ≥ signature.length ∨ signature.getD i 0 ≠ 0x00 then none
    else some (signature.drop (i + 1))

/-- The padding, the DigestInfo that fills the block, and the AlgorithmIdentifier in it. --/
def digestInfo (signature : List UInt8) : Option (List UInt8 × Tlv × Tlv) :=
  match skipPadding signature with
  | none => none
  | some body =>
    match asn1TlvBlockParse body body.length with
    | .error _ => none
    | .ok outer =>
      if outer.tlvType ≠ asnTagSequence ∨ outer.tlvTagClass ≠ asnTagClassUniversal then none
      else if outer.bufferLength ≠ 0 then none
      else
        match asn1TlvBlockParse outer.tlvData outer.tlvLength with
        | .error _ => none
        | .ok inner =>
          if inner.tlvType ≠ asnTagSequence ∨ inner.tlvTagClass ≠ asnTagClassUniversal then none
          else some (body, outer, inner)

/-- The loop over the AlgorithmIdentifier. The sequence grows shorter in every round, so its length is fuel enough. --/
def oidWalk : Nat → List UInt8 → Nat → Option (List UInt8) → Option (List UInt8 × Option (List UInt8))
  | 0, _, _, _ => none
  | fuel + 1, signatureData, seqLength, signatureOid =>
    match asn1TlvBlockParse signatureData seqLength with
    | .error _ => none
    | .ok t =>
      if t.tlvTagClass ≠ asnTagClassUniversal then none
      else
        let signatureData := signatureData.drop (t.tlvLength + t.headerLength)
        if t.tlvType = asnTagNull then some (signatureData, signatureOid)
        else
          let signatureOid := some (t.tlvData.take t.tlvLength)
          if t.tlvType = asnTagOid then oidWalk fuel signatureData t.bufferLength signatureOid
          else some (signatureData, signatureOid)

/-- The hash, which is parsed with what the AlgorithmIdentifier leaves of the DigestInfo. --/
def hashData (signatureData : List UInt8) (remainingLength : Nat) : Option (List UInt8) :=
  match asn1TlvBlockParse signatureData remainingLength with
  | .error _ => none
  | .ok t =>
    if t.tlvType ≠ asnTagOctetString ∨ t.tlvTagClass ≠ asnTagClassUniversal then none
    else if t.bufferLength ≠ 0 then none
    else some (t.tlvData.take t.tlvLength)

/-- `_nx_secure_x509_pkcs7_decode`: the OID, unless none was written, and the hash. --/
def pkcs7Decode (signature : List UInt8) : Option (Option (List UInt8) × List UInt8) :=
  match digestInfo signature with
  | none => none
  | some (_, _, inner) =>
    match oidWalk (inner.tlvLength + 1) inner.tlvData inner.tlvLength none with
    | none => none
    | some (signatureData, signatureOid) =>
      match hashData signatureData inner.bufferLength with
      | none => none
      | some hash => some (signatureOid, hash)

/-! ### The encoding -/

/-- The length octets of the four blocks that have them. --/
structure Lengths where
  digest : List UInt8
  algorithm : List UInt8
  oid : List UInt8
  hash : List UInt8

namespace Lengths
variable (c : Lengths)

/-- The contents of the AlgorithmIdentifier: the OID and NULL. --/
def algorithmContents (oid : List UInt8) : List UInt8 := 0x06 :: (c.oid ++ (oid ++ [0x05, 0x00]))

def digestContents (oid hash : List UInt8) : List UInt8 :=
  0x30 :: (c.algorithm ++ (c.algorithmContents oid ++ 0x04 :: (c.hash ++ hash)))

def digestInfo (oid hash : List UInt8) : List UInt8 := 0x30 :: (c.digest ++ c.digestContents oid hash)

/-- The block of a given size: the padding takes what the DigestInfo leaves. --/
def block (size : Nat) (oid hash : List UInt8) : List UInt8 :=
  0x00 :: 0x01 :: (List.replicate (size - 3 - (c.digestInfo oid hash).length) 0xFF ++ 0x00 :: c.digestInfo oid hash)

/-- The length octets spell the lengths. --/
structure Spell (o h : List UInt8) : Prop where
  oid : LengthCode c.oid o.length
  hash : LengthCode c.hash h.length
  algorithm : LengthCode c.algorithm (c.algorithmContents o).length
  digest : LengthCode c.digest (c.digestContents o h).length

end Lengths

/-- The block is the encoding of the OID and the hash: only the length octets are left open. --/
def Encoded (signature oid hash : List UInt8) : Prop :=
  ∃ c : Lengths, c.Spell oid hash ∧ (c.digestInfo oid hash).length + 11 ≤ signature.length ∧
    signature = c.block signature.length oid hash

/-- What is accepted is an encoding, and the hash is the one in it. --/
def Grammatical (signature : List UInt8) : Prop :=
  ∀ oid hash, pkcs7Decode signature = some (oid, hash) → ∃ o, oid = some o ∧ Encoded signature o hash

/-- The tags are those of the encoding, and the AlgorithmIdentifier contains one OID and NULL, with its length octet. --/
structure Plain (body : List UInt8) (outer inner : Tlv) : Prop where
  digest : body.head? = some 0x30
  algorithm : outer.tlvData.head? = some 0x30
  contents : ∃ code oid, LengthCode code oid.length ∧
    inner.tlvData.take inner.tlvLength = 0x06 :: (code ++ (oid ++ [0x05, 0x00]))
  hash : (inner.tlvData.drop inner.tlvLength).head? = some 0x04

/-- Where the loop over the AlgorithmIdentifier stops stands an octet string, as long as what is left. --/
def HashFills (inner : Tlv) : Prop :=
  ∃ signatureData oid hash, oidWalk (inner.tlvLength + 1) inner.tlvData inner.tlvLength none = some (signatureData, oid) ∧
    hashData signatureData inner.bufferLength = some hash

/-! ### The padding -/

theorem takeWhile_padding (k : Nat) (body : List UInt8) :
    (List.replicate k 0xFF ++ 0x00 :: body).takeWhile (· = 0xFF) = List.replicate k (0xFF : UInt8) := by
  rw [List.takeWhile_append_of_pos (fun b hb => by simpa using (List.mem_replicate.mp hb).2),
    List.takeWhile_cons_of_neg (by decide), List.append_nil]

theorem skipPadding_iff {signature body : List UInt8} : skipPadding signature = some body ↔
    ∃ k, 8 ≤ k ∧ signature = 0x00 :: 0x01 :: (List.replicate k 0xFF ++ 0x00 :: body) := by
  constructor
  · intro h
    unfold skipPadding at h
    dsimp only at h
    split at h
    · cases h
    split at h
    · cases h
    rename_i hhead
    split at h
    · cases h
    rename_i hpad
    obtain rfl := Option.some.inj h
    simp only [not_or, not_not] at hhead hpad
    obtain ⟨h8, hlt, hzero⟩ := hpad
    match signature with
    | [] | [_] => simp at *
    | a :: b :: rest =>
      obtain ⟨rfl, rfl⟩ : a = 0x00 ∧ b = 0x01 := hhead
      have hsplit := List.takeWhile_append_dropWhile (p := fun b : UInt8 => decide (b = 0xFF)) (l := rest)
      have hones : ∀ b ∈ rest.takeWhile (· = 0xFF), b = 0xFF := fun b hb => by simpa using List.mem_takeWhile_imp hb
      simp only [List.drop_succ_cons, List.drop_zero] at h8 hlt hzero ⊢
      generalize rest.takeWhile (· = 0xFF) = pad at *
      generalize rest.dropWhile (· = 0xFF) = left at *
      subst hsplit
      refine ⟨pad.length, by omega, ?_⟩
      rw [← List.eq_replicate_of_mem hones]
      cases left with
      | nil =>
        simp at hlt
        omega
      | cons c left =>
        have hc : c = 0x00 := by
          simpa [Nat.add_comm 2] using hzero
        rw [hc, Nat.add_comm 2, List.drop_succ_cons, List.drop_append]
        simp
  · rintro ⟨k, hk, rfl⟩
    unfold skipPadding
    dsimp only
    rw [if_neg (by simp; omega), if_neg (by simp), List.drop_succ_cons, List.drop_succ_cons, List.drop_zero,
      takeWhile_padding, List.length_replicate, if_neg]
    · rw [show 2 + k + 1 = k + 1 + 2 by omega, List.drop_succ_cons, List.drop_succ_cons, List.drop_append]
      simp
    · simp [Nat.add_comm 2]
      omega

/-! ### The parts of a block -/

theorem tagRead_sequence : TagRead 0x30 := ⟨by decide, by decide, by decide⟩
theorem tagRead_oid : TagRead 0x06 := ⟨by decide, by decide, by decide⟩
theorem tagRead_null : TagRead 0x05 := ⟨by decide, by decide, by decide⟩
section
variable {signature body oid hash tail : List UInt8} {outer inner t : Tlv}

/-- A block of another type than NULL is parsed with its length octets. --/
theorem block_of_type {buffer : List UInt8} {k : Nat} (hk : k ≤ buffer.length) (h : asn1TlvBlockParse buffer k = .ok t)
    (hnull : t.tlvType ≠ asnTagNull) : ∃ tag code, LengthCode code t.tlvLength ∧ buffer = tag :: (code ++ t.tlvData) ∧
      k = 1 + code.length + t.tlvLength + t.bufferLength := by
  obtain ⟨tag, -, -, htype, ⟨htag, -⟩ | ⟨-, code, hcode, hbuffer, hheader, hlen⟩⟩ := block_of_parse hk h
  · rw [htag] at htype
    exact absurd htype hnull
  · exact ⟨tag, code, hcode, hbuffer, by rw [hlen, hheader]⟩

/-- What stands in front of the AlgorithmIdentifier's contents. --/
structure Located (signature body : List UInt8) (outer inner : Tlv) : Prop where
  padding : ∃ k, 8 ≤ k ∧ signature = 0x00 :: 0x01 :: (List.replicate k 0xFF ++ 0x00 :: body)
  digest : ∃ tag code, LengthCode code outer.tlvData.length ∧ body = tag :: (code ++ outer.tlvData)
  algorithm : ∃ tag code, LengthCode code inner.tlvLength ∧ outer.tlvData = tag :: (code ++ inner.tlvData)
  length : inner.tlvData.length = inner.tlvLength + inner.bufferLength

theorem digestInfo_eq (h : digestInfo signature = some (body, outer, inner)) : skipPadding signature = some body ∧
    asn1TlvBlockParse body body.length = .ok outer ∧ (outer.tlvType = asnTagSequence ∧ outer.bufferLength = 0) ∧
      asn1TlvBlockParse outer.tlvData outer.tlvLength = .ok inner ∧ inner.tlvType = asnTagSequence := by
  unfold digestInfo at h
  split at h
  · cases h
  rename_i body' hpad
  split at h
  · cases h
  rename_i outer' houter
  split at h
  · cases h
  rename_i htype
  split at h
  · cases h
  rename_i hall
  split at h
  · cases h
  rename_i inner' hinner
  split at h
  · cases h
  rename_i htype'
  simp only [Option.some.injEq, Prod.mk.injEq] at h
  obtain ⟨rfl, rfl, rfl⟩ := h
  simp only [not_or, not_not] at htype htype' hall
  exact ⟨hpad, houter, ⟨htype.1, hall⟩, hinner, htype'.1⟩

theorem located_of_digestInfo (h : digestInfo signature = some (body, outer, inner)) :
    Located signature body outer inner := by
  obtain ⟨hpad, houter, ⟨htype, hall⟩, hinner, htype'⟩ := digestInfo_eq h
  obtain ⟨tag, code, hcode, hbody, hlen⟩ := block_of_type (Nat.le_refl _) houter (by rw [htype]; decide)
  have houterLength : outer.tlvLength = outer.tlvData.length := by
    have hb := congrArg List.length hbody
    rw [List.length_cons, List.length_append] at hb
    omega
  obtain ⟨tag', code', hcode', hdata, hlen'⟩ := block_of_type (Nat.le_of_eq houterLength) hinner (by rw [htype']; decide)
  refine ⟨skipPadding_iff.mp hpad, ⟨tag, code, houterLength ▸ hcode, hbody⟩, ⟨tag', code', hcode', hdata⟩, ?_⟩
  have hd := congrArg List.length hdata
  rw [List.length_cons, List.length_append] at hd
  omega

/-- The loop passes an OID and NULL, whatever follows NULL. --/
theorem oidWalk_plain {code : List UInt8} (last : UInt8) (hcode : LengthCode code oid.length) (fuel : Nat)
    (o : Option (List UInt8)) :
    oidWalk (fuel + 2) (0x06 :: (code ++ (oid ++ 0x05 :: last :: tail))) (1 + code.length + (oid.length + 2)) o =
      some (tail, some oid) := by
  unfold oidWalk
  rw [parse_block tagRead_oid (by decide) hcode (Nat.le_add_right _ _)]
  dsimp only
  rw [if_neg (by decide), if_neg (by decide), if_pos (by decide), Nat.add_sub_cancel_left, List.take_left]
  have hdrop : (0x06 :: (code ++ (oid ++ 0x05 :: last :: tail))).drop (oid.length + (1 + code.length)) =
      0x05 :: last :: tail := by
    rw [show oid.length + (1 + code.length) = (code.length + oid.length) + 1 by omega, List.drop_succ_cons,
      ← List.append_assoc, ← List.length_append, List.drop_left]
  rw [hdrop]
  unfold oidWalk
  rw [show 2 = 1 + 1 from rfl, parse_null tagRead_null (by decide) (Nat.le_refl _)]
  rfl

/-- The sequence is shorter after every round, so that the fuel does not run out. --/
theorem oidWalk_fuel {data : List UInt8} {k fuel : Nat} (o : Option (List UInt8)) (hk : k ≤ data.length) (hfuel : k < fuel) :
    oidWalk (fuel + 1) data k o = oidWalk fuel data k o := by
  induction fuel generalizing data k o with
  | zero => omega
  | succ fuel ih =>
    rw [oidWalk, oidWalk]
    cases h : asn1TlvBlockParse data k with
    | error => rfl
    | ok t =>
      dsimp only
      obtain ⟨tag, -, -, htype, ⟨hnull, -⟩ | ⟨-, code, -, -, hheader, hlen⟩⟩ := block_of_parse hk h
      · have hstop : t.tlvType = asnTagNull := by
          rw [htype, hnull]
          decide
        rw [if_pos hstop, if_pos hstop]
      · have hleft : t.bufferLength ≤ (data.drop (t.tlvLength + t.headerLength)).length := by
          rw [List.length_drop]
          omega
        rw [ih _ hleft (by omega)]

/-- An octet string that takes all that is left. --/
theorem block_of_hashData {signatureData : List UInt8} (h : hashData signatureData signatureData.length = some hash) :
    ∃ tag code, LengthCode code hash.length ∧ signatureData = tag :: (code ++ hash) := by
  unfold hashData at h
  split at h
  · cases h
  rename_i t ht
  split at h
  · cases h
  rename_i htype
  split at h
  · cases h
  rename_i hall
  obtain rfl := Option.some.inj h
  simp only [not_or, not_not] at htype hall
  obtain ⟨tag, code, hcode, hbuffer, hlen⟩ := block_of_type (Nat.le_refl _) ht (by rw [htype.1]; decide)
  have hb := congrArg List.length hbuffer
  rw [List.length_cons, List.length_append] at hb
  have hlength : t.tlvLength = t.tlvData.length := by omega
  rw [hlength, List.take_length]
  exact ⟨tag, code, hlength ▸ hcode, hbuffer⟩

theorem pkcs7Decode_eq (h : digestInfo signature = some (body, outer, inner)) {o : Option (List UInt8)} :
    pkcs7Decode signature = some (o, hash) ↔
      ∃ signatureData, oidWalk (inner.tlvLength + 1) inner.tlvData inner.tlvLength none = some (signatureData, o) ∧
        hashData signatureData inner.bufferLength = some hash := by
  unfold pkcs7Decode
  rw [h]
  dsimp only
  cases hwalk : oidWalk (inner.tlvLength + 1) inner.tlvData inner.tlvLength none with
  | none => simp
  | some w =>
    obtain ⟨signatureData, o'⟩ := w
    dsimp only
    cases hhash : hashData signatureData inner.bufferLength with
    | none => simp [hhash]
    | some hash' => simp [hhash, and_comm, eq_comm]

/-- A plain block is the encoding of what is decoded. --/
theorem encoded_of_plain (h : digestInfo signature = some (body, outer, inner)) (hplain : Plain body outer inner)
    {o : Option (List UInt8)} (hok : pkcs7Decode signature = some (o, hash)) :
    ∃ oid, o = some oid ∧ Encoded signature oid hash := by
  obtain ⟨⟨k, hk, hsignature⟩, ⟨tag, c₁, hc₁, hbody⟩, ⟨tag', c₂, hc₂, hdata⟩, hlen⟩ := located_of_digestInfo h
  obtain ⟨hhead, hhead', ⟨c₃, oid, hc₃, hcontents⟩, htail⟩ := hplain
  rw [pkcs7Decode_eq h] at hok
  obtain ⟨signatureData, hwalk, hhash⟩ := hok
  obtain rfl : tag = 0x30 := by simpa [hbody] using hhead
  obtain rfl : tag' = 0x30 := by simpa [hdata] using hhead'
  have hsplit := List.take_append_drop inner.tlvLength inner.tlvData
  have hleft : (inner.tlvData.drop inner.tlvLength).length = inner.bufferLength := by
    rw [List.length_drop]
    omega
  have htook : inner.tlvLength = 1 + c₃.length + (oid.length + 2) := by
    have ht := congrArg List.length hcontents
    rw [List.length_take, List.length_cons, List.length_append, List.length_append, List.length_cons,
      List.length_singleton] at ht
    omega
  generalize inner.tlvData.drop inner.tlvLength = tail at *
  have hinner : inner.tlvData = 0x06 :: (c₃ ++ (oid ++ 0x05 :: 0x00 :: tail)) := by
    rw [← hsplit, hcontents]
    simp
  rw [hinner, htook, show 1 + c₃.length + (oid.length + 2) + 1 = c₃.length + oid.length + 2 + 2 by omega,
    oidWalk_plain 0x00 hc₃] at hwalk
  simp only [Option.some.injEq, Prod.mk.injEq] at hwalk
  obtain ⟨rfl, rfl⟩ := hwalk
  rw [← hleft] at hhash
  obtain ⟨tag'', c₄, hc₄, htail'⟩ := block_of_hashData hhash
  obtain rfl : tag'' = 0x04 := by simpa [htail'] using htail
  have hcontents' : (⟨c₁, c₂, c₃, c₄⟩ : Lengths).algorithmContents oid = inner.tlvData.take inner.tlvLength := hcontents.symm
  have hdigest : (⟨c₁, c₂, c₃, c₄⟩ : Lengths).digestContents oid hash = outer.tlvData := by
    unfold Lengths.digestContents
    rw [hcontents', ← htail', hsplit, hdata]
  have hinfo : (⟨c₁, c₂, c₃, c₄⟩ : Lengths).digestInfo oid hash = body := by
    unfold Lengths.digestInfo
    rw [hdigest, hbody]
  have hsize := congrArg List.length hsignature
  rw [List.length_cons, List.length_cons, List.length_append, List.length_cons, List.length_replicate] at hsize
  refine ⟨oid, rfl, ⟨c₁, c₂, c₃, c₄⟩, ⟨hc₃, hc₄, ?_, ?_⟩, ?_, ?_⟩
  · rw [hcontents', List.length_take, Nat.min_eq_left (by omega)]
    exact hc₂
  · rw [hdigest]
    exact hc₁
  · rw [hinfo]
    omega
  · unfold Lengths.block
    rw [hinfo, show signature.length - 3 - body.length = k by omega]
    exact hsignature

/-- An encoding is plain. --/
theorem plain_of_encoded (h : digestInfo signature = some (body, outer, inner)) (henc : Encoded signature oid hash) :
    Plain body outer inner := by
  obtain ⟨c, hspell, hsize, hsignature⟩ := henc
  obtain ⟨hpad, houter, -, hinner, -⟩ := digestInfo_eq h
  have hpad' : skipPadding signature = some (c.digestInfo oid hash) :=
    skipPadding_iff.mpr ⟨signature.length - 3 - (c.digestInfo oid hash).length, by omega, hsignature⟩
  rw [hpad] at hpad'
  obtain rfl := Option.some.inj hpad'
  have hparse := @parse_block (c.digestContents oid hash) _ _ _ _ tagRead_sequence (by decide) hspell.digest (Nat.le_refl _)
  have hlength : (c.digestInfo oid hash).length = 1 + c.digest.length + (c.digestContents oid hash).length := by
    rw [Lengths.digestInfo, List.length_cons, List.length_append]
    omega
  rw [← hlength] at hparse
  obtain rfl := Except.ok.inj (houter.symm.trans hparse)
  dsimp only at hinner ⊢
  have hparse' := @parse_block (c.algorithmContents oid ++ 0x04 :: (c.hash ++ hash)) _ _ _
    (c.algorithmContents oid ++ 0x04 :: (c.hash ++ hash)).length tagRead_sequence (by decide) hspell.algorithm
    (by rw [List.length_append]; omega)
  have hlength' : (c.digestContents oid hash).length =
      1 + c.algorithm.length + (c.algorithmContents oid ++ 0x04 :: (c.hash ++ hash)).length := by
    rw [Lengths.digestContents, List.length_cons, List.length_append]
    omega
  rw [← hlength'] at hparse'
  obtain rfl := Except.ok.inj (hinner.symm.trans hparse')
  refine ⟨rfl, rfl, ⟨c.oid, oid, hspell.oid, ?_⟩, ?_⟩
  · dsimp only
    rw [List.take_left]
    rfl
  · dsimp only
    rw [List.drop_left]
    rfl

end

/-- The octet string stands inside the AlgorithmIdentifier, and four octets follow it. --/
def forged (a b c d : UInt8) : List UInt8 :=
  [0x00, 0x01, 0xFF, 0xFF, 0xFF, 0xFF, 0xFF, 0xFF, 0xFF, 0xFF, 0x00, 0x30, 0x0F, 0x30, 0x09,
    0x06, 0x01, 0x2A, 0x05, 0x00, 0x04, 0x02, 0xAA, 0xBB, a, b, c, d]

end Netxduo.X509
