import Mathlib

/-! The parser of one ASN.1 block: tag, length octets, and where the value stands. -/

namespace Netxduo.X509

/-! ### The source -/

def asnTagOctetString : UInt8 := 4
def asnTagNull : UInt8 := 5
def asnTagOid : UInt8 := 6
def asnTagSequence : UInt8 := 16
def asnTagClassUniversal : UInt8 := 0
def asnTagClassApplication : UInt8 := 1
def asnTagClassPrivate : UInt8 := 3

inductive AsnError
  | lengthTooLong
  | multibyteTagUnsupported
  | invalidTagClass
deriving DecidableEq, Repr

/-- What the parser returns. A pointer is what it points at and everything behind it. --/
structure Tlv where
  tlvType : UInt8
  tlvTagClass : UInt8
  tlvLength : Nat
  headerLength : Nat
  tlvData : List UInt8
  bufferLength : Nat
deriving DecidableEq, Repr

/-- The octets of a multi-byte length, the highest one first. --/
def lengthValue (octets : List UInt8) : Nat := octets.foldl (fun length octet => length <<< 8 + octet.toNat) 0

/-- The tag without the bit for a constructed value. --/
def plainTag (tag : UInt8) : UInt8 := if tag &&& 0x20 ≠ 0 then tag &&& ~~~0x20 else tag

/-- `_nx_secure_x509_asn1_tlv_block_parse` --/
def asn1TlvBlockParse (buffer : List UInt8) (bufferLength : Nat) : Except AsnError Tlv :=
  if bufferLength < 1 then .error .lengthTooLong
  else
    let currentTag := buffer.getD 0 0
    if currentTag &&& 0x1F = 0x1F then .error .multibyteTagUnsupported
    else
      let bufferLength := bufferLength - 1
      let tagClass := (currentTag &&& 0xC0) >>> 6
      if tagClass = asnTagClassApplication ∨ tagClass = asnTagClassPrivate then .error .invalidTagClass
      else
        let currentTag := plainTag currentTag
        let tlvType := currentTag &&& 0x1F
        if bufferLength < 1 then .error .lengthTooLong
        else if currentTag = asnTagNull then
          -- the length octet is not looked at: it counts as the value
          .ok ⟨tlvType, tagClass, 1, 1, buffer.drop 1, bufferLength⟩
        else
          let length := buffer.getD 1 0
          let bufferLength := bufferLength - 1
          let lengthBytes := if length &&& 0x80 ≠ 0 then (length &&& 0x7F).toNat else 0
          if lengthBytes > 4 ∨ lengthBytes > bufferLength then .error .lengthTooLong
          else
            let bufferLength := bufferLength - lengthBytes
            let tlvLength := if length &&& 0x80 ≠ 0 then lengthValue ((buffer.drop 2).take lengthBytes) else length.toNat
            if tlvLength > bufferLength then .error .lengthTooLong
            else .ok ⟨tlvType, tagClass, tlvLength, 2 + lengthBytes, buffer.drop (2 + lengthBytes), bufferLength - tlvLength⟩

/-! ### What is parsed -/

/-- The octets spell a length: in one octet, or in the number of octets that the first one names. --/
def LengthCode (octets : List UInt8) (n : Nat) : Prop :=
  ∃ first rest, octets = first :: rest ∧
    if first &&& 0x80 ≠ 0 then rest.length = (first &&& 0x7F).toNat ∧ rest.length ≤ 4 ∧ n = lengthValue rest
    else rest = [] ∧ n = first.toNat

/-- The parser goes on behind the tag. --/
structure TagRead (tag : UInt8) : Prop where
  single : tag &&& 0x1F ≠ 0x1F
  application : (tag &&& 0xC0) >>> 6 ≠ asnTagClassApplication
  privateUse : (tag &&& 0xC0) >>> 6 ≠ asnTagClassPrivate

section
variable {buffer rest code value : List UInt8} {tag : UInt8} {n k : Nat} {t : Tlv}

/-- What stands for a block is parsed into its parts. --/
theorem parse_block (htag : TagRead tag) (hnull : plainTag tag ≠ asnTagNull) (hcode : LengthCode code n)
    (hk : n ≤ k) : asn1TlvBlockParse (tag :: (code ++ rest)) (1 + code.length + k) =
      .ok ⟨plainTag tag &&& 0x1F, (tag &&& 0xC0) >>> 6, n, 1 + code.length, rest, k - n⟩ := by
  obtain ⟨first, more, rfl, hfirst⟩ := hcode
  have h₀ : (tag :: (first :: more ++ rest)).getD 0 0 = tag := rfl
  have h₁ : (tag :: (first :: more ++ rest)).getD 1 0 = first := rfl
  have hdrop : ∀ j, (tag :: (first :: more ++ rest)).drop (2 + j) = (more ++ rest).drop j := by
    intro j
    rw [Nat.add_comm, List.cons_append, List.drop_succ_cons, List.drop_succ_cons]
  unfold asn1TlvBlockParse
  dsimp only
  rw [h₀, h₁, if_neg (by omega), if_neg htag.single, if_neg (not_or.mpr ⟨htag.application, htag.privateUse⟩),
    if_neg (by simp; omega), if_neg hnull]
  by_cases hlong : first &&& 0x80 ≠ 0
  · rw [if_pos hlong] at hfirst
    obtain ⟨hlength, hle, rfl⟩ := hfirst
    have hvalue := hdrop 0
    rw [List.drop_zero] at hvalue
    rw [if_pos hlong, if_pos hlong, ← hlength, hdrop, hvalue, List.drop_left, List.take_left, List.length_cons,
      if_neg (by omega), if_neg (by omega)]
    simp only [Except.ok.injEq, Tlv.mk.injEq, true_and]
    omega
  · rw [if_neg hlong] at hfirst
    obtain ⟨rfl, rfl⟩ := hfirst
    rw [if_neg hlong, if_neg hlong, hdrop, List.length_singleton, if_neg (by omega), if_neg (by omega)]
    simp only [List.nil_append, List.drop_zero, Except.ok.injEq, Tlv.mk.injEq, true_and]
    omega

/-- NULL takes one octet of any value with it. --/
theorem parse_null (htag : TagRead tag) (hnull : plainTag tag = asnTagNull) (hk : 1 ≤ k) :
    asn1TlvBlockParse (tag :: rest) (1 + k) = .ok ⟨5, (tag &&& 0xC0) >>> 6, 1, 1, rest, k⟩ := by
  have h₀ : (tag :: rest).getD 0 0 = tag := rfl
  unfold asn1TlvBlockParse
  dsimp only
  rw [h₀, if_neg (by omega), if_neg htag.single, if_neg (not_or.mpr ⟨htag.application, htag.privateUse⟩),
    if_neg (by omega), if_pos hnull]
  rw [hnull, Nat.add_sub_cancel_left]
  rfl

/-- Whatever is parsed is a block that stands there, as long as the length does not run past the buffer. --/
theorem block_of_parse (hk : k ≤ buffer.length) (h : asn1TlvBlockParse buffer k = .ok t) :
    ∃ tag, TagRead tag ∧ t.tlvTagClass = (tag &&& 0xC0) >>> 6 ∧ t.tlvType = plainTag tag &&& 0x1F ∧
      ((plainTag tag = asnTagNull ∧ buffer = tag :: t.tlvData ∧ t.tlvLength = 1 ∧ t.headerLength = 1 ∧
          k = 1 + t.bufferLength ∧ 1 ≤ t.bufferLength) ∨
        plainTag tag ≠ asnTagNull ∧ ∃ code, LengthCode code t.tlvLength ∧ buffer = tag :: (code ++ t.tlvData) ∧
          t.headerLength = 1 + code.length ∧ k = t.headerLength + t.tlvLength + t.bufferLength) := by
  unfold asn1TlvBlockParse at h
  dsimp only at h
  cases buffer with
  | nil =>
    rw [if_pos (by simpa using hk)] at h
    cases h
  | cons tag rest =>
    have h₀ : (tag :: rest).getD 0 0 = tag := rfl
    rw [h₀] at h
    split at h
    · cases h
    rename_i hk1
    split at h
    · cases h
    rename_i hsingle
    split at h
    · cases h
    rename_i hclass
    obtain ⟨happlication, hprivate⟩ := not_or.mp hclass
    split at h
    · cases h
    rename_i hk2
    refine ⟨tag, ⟨hsingle, happlication, hprivate⟩, ?_⟩
    split at h
    · rename_i hnull
      obtain rfl := Except.ok.inj h
      exact ⟨rfl, rfl, .inl ⟨hnull, rfl, rfl, rfl, by dsimp only; omega, by dsimp only; omega⟩⟩
    · rename_i hnull
      cases rest with
      | nil =>
        rw [List.length_singleton] at hk
        omega
      | cons first more =>
        have h₁ : (tag :: first :: more).getD 1 0 = first := rfl
        rw [List.length_cons, List.length_cons] at hk
        rw [h₁] at h
        by_cases hlong : first &&& 0x80 ≠ 0
        · rw [if_pos hlong, if_pos hlong] at h
          split at h
          · cases h
          rename_i hbytes
          split at h
          · cases h
          rename_i hlength
          obtain rfl := Except.ok.inj h
          refine ⟨rfl, rfl, .inr ⟨hnull, first :: more.take (first &&& 0x7F).toNat, ⟨first, _, rfl, ?_⟩, ?_, ?_, ?_⟩⟩
          · rw [if_pos hlong, List.length_take]
            exact ⟨by omega, by omega, rfl⟩
          · dsimp only
            rw [Nat.add_comm 2, List.drop_succ_cons, List.drop_succ_cons, List.cons_append, List.take_append_drop]
          · dsimp only
            rw [List.length_cons, List.length_take]
            omega
          · dsimp only at hlength ⊢
            omega
        · rw [if_neg hlong, if_neg hlong] at h
          split at h
          · cases h
          rename_i hbytes
          split at h
          · cases h
          rename_i hlength
          obtain rfl := Except.ok.inj h
          refine ⟨rfl, rfl, .inr ⟨hnull, [first], ⟨first, [], rfl, ?_⟩, rfl, rfl, ?_⟩⟩
          · rw [if_neg hlong]
            exact ⟨rfl, rfl⟩
          · dsimp only at hlength ⊢
            omega

end

end Netxduo.X509
