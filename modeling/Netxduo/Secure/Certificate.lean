import Netxduo.Secure.Asn1

/-! A certificate, the walk over its extensions, and what the walk finds. -/

namespace Netxduo.X509

/-! ### The source -/

def asnTagBoolean : UInt8 := 1
def asnTagInteger : UInt8 := 2
def asnTagClassContext : UInt8 := 2

inductive X509Error
  | asn (error : AsnError)
  | extensionNotFound
  | invalidExtensionSequence
  | unsupportedCriticalExtension
  | nameConstraintViolation
  | nameConstraintUnsupported
  | invalidDateFormat
  | certificateExpired
  | certificateNotYetValid
  | certificateNotFound
  | issuerCertificateNotFound
  | invalidCaCertificate
  | invalidSelfSignedCert
  | certificateSigCheckFailed
  | chainTooLong
  | chainVerifyFailure
  | altNameNotFound
  | certificateDnsMismatch
deriving DecidableEq, Repr

/-- The field that is compared when names are not compared strictly: a pointer, and a length. --/
structure DistinguishedName where
  commonName : List UInt8
  commonNameLength : Nat
deriving DecidableEq, Repr

/-- A parsed certificate. The extensions are a pointer into it, and a length. --/
structure Certificate where
  certificateData : List UInt8
  distinguishedName : DistinguishedName
  issuer : DistinguishedName
  notBefore : List UInt8
  notBeforeValidityFormat : UInt8
  notAfter : List UInt8
  notAfterValidityFormat : UInt8
  extensionsData : List UInt8
  extensionsDataLength : Nat
deriving DecidableEq, Repr

inductive OidType
  | unknown
  | directoryAttributes
  | subjectKeyId
  | keyUsage
  | subjectAltName
  | issuerAltName
  | basicConstraints
  | nameConstraints
  | crlDistribution
  | certificatePolicies
  | certPolicyMappings
  | authorityKeyId
  | policyConstraints
  | extendedKeyUsage
  | anyExtendedKeyUsage
  | freshestCrl
  | inhibitAnyPolicy
  | anyPolicy
deriving DecidableEq, Repr

/-- The rows of `_nx_secure_x509_oid_map` below id-ce: no other row begins like them. --/
def oidMap : List (OidType × List UInt8) :=
  [(.directoryAttributes, [0x55, 0x1D, 0x09]), (.subjectKeyId, [0x55, 0x1D, 0x0E]), (.keyUsage, [0x55, 0x1D, 0x0F]),
    (.subjectAltName, [0x55, 0x1D, 0x11]), (.issuerAltName, [0x55, 0x1D, 0x12]),
    (.basicConstraints, [0x55, 0x1D, 0x13]), (.nameConstraints, [0x55, 0x1D, 0x1E]),
    (.crlDistribution, [0x55, 0x1D, 0x1F]), (.certificatePolicies, [0x55, 0x1D, 0x20]),
    (.certPolicyMappings, [0x55, 0x1D, 0x21]), (.authorityKeyId, [0x55, 0x1D, 0x23]),
    (.policyConstraints, [0x55, 0x1D, 0x24]), (.extendedKeyUsage, [0x55, 0x1D, 0x25]),
    (.anyExtendedKeyUsage, [0x55, 0x1D, 0x25, 0x00]), (.freshestCrl, [0x55, 0x1D, 0x2E]),
    (.inhibitAnyPolicy, [0x55, 0x1D, 0x36]), (.anyPolicy, [0x55, 0x1D, 0x20, 0x00])]

/-- `_nx_secure_x509_oid_parse`: the row's octets are compared, so an OID that is shorter is read past its end. --/
def oidParse (oid : List UInt8) (length : Nat) : OidType :=
  match oidMap.find? (fun row => decide (length ≤ row.2.length ∧ oid.take row.2.length = row.2)) with
  | some row => row.1
  | none => .unknown

/-- What a round of a loop comes to: the local variables for the next one, or what the function returns. --/
inductive Round (σ ρ : Type)
  | next (s : σ)
  | done (r : ρ)

section
variable {σ ρ : Type}

/-- `while (length > 0)` over the blocks of a buffer. A block takes at least one octet, so the length is fuel enough. --/
def eachBlock (failed : AsnError → σ → ρ) (ended : σ → ρ) (body : Tlv → σ → Round σ ρ) : Nat → List UInt8 → Nat → σ → ρ
  | 0, _, _, s => ended s
  | fuel + 1, buffer, length, s =>
    if length = 0 then ended s
    else
      match asn1TlvBlockParse buffer length with
      | .error e => failed e s
      | .ok t =>
        match body t s with
        | .done r => r
        | .next s => eachBlock failed ended body fuel (buffer.drop (t.headerLength + t.tlvLength)) t.bufferLength s

end

/-- The type of an extension, and what stands behind its OID. --/
def extensionHead (t : Tlv) : Except X509Error (OidType × List UInt8 × Nat) :=
  if ¬(t.tlvTagClass = asnTagClassUniversal ∧ t.tlvType = asnTagSequence) then .error .invalidExtensionSequence
  else
    match asn1TlvBlockParse t.tlvData t.tlvLength with
    | .error e => .error (.asn e)
    | .ok oid =>
      if oid.tlvType ≠ asnTagOid then .error .invalidExtensionSequence
      else .ok (oidParse oid.tlvData oid.tlvLength, oid.tlvData.drop oid.tlvLength, oid.bufferLength)

structure Extension where
  extensionData : List UInt8
  extensionDataLength : Nat
deriving DecidableEq, Repr

/-- The value of an extension, behind the critical flag if there is one. --/
def extensionValue (buffer : List UInt8) (length : Nat) : Except X509Error Extension :=
  match asn1TlvBlockParse buffer length with
  | .error e => .error (.asn e)
  | .ok flag =>
    if flag.tlvType = asnTagBoolean then
      match asn1TlvBlockParse (buffer.drop (flag.headerLength + flag.tlvLength)) flag.bufferLength with
      | .error e => .error (.asn e)
      | .ok value =>
        if value.tlvType ≠ asnTagOctetString then .error .invalidExtensionSequence
        else .ok ⟨value.tlvData, value.tlvLength⟩
    else if flag.tlvType ≠ asnTagOctetString then .error .invalidExtensionSequence
    else .ok ⟨flag.tlvData, flag.tlvLength⟩

/-- `_nx_secure_x509_extension_find` --/
def extensionFind (certificate : Certificate) (extensionId : OidType) : Except X509Error Extension :=
  eachBlock (fun e _ => .error (.asn e)) (fun _ => .error .extensionNotFound)
    (fun t _ =>
      match extensionHead t with
      | .error e => .done (.error e)
      | .ok (oid, buffer, length) => if oid = extensionId then .done (extensionValue buffer length) else .next ())
    certificate.extensionsDataLength certificate.extensionsData certificate.extensionsDataLength ()

/-- The octets of pathLenConstraint, clamped where the next one would not fit. --/
def pathLengthValue : List UInt8 → Nat → Nat
  | [], value => value
  | octet :: octets, value =>
    if value > 0x7FFFFFFF >>> 8 then 0x7FFFFFFF else pathLengthValue octets (value <<< 8 + octet.toNat)

/-- pathLenConstraint, if that is what the block holds. --/
def pathLengthOf (t : Tlv) : Option Nat :=
  if t.tlvTagClass = asnTagClassUniversal ∧ t.tlvType = asnTagInteger then
    some (pathLengthValue (t.tlvData.take t.tlvLength) 0)
  else none

/-- `_nx_secure_x509_basic_constraints_extension_parse`: cA and pathLenConstraint. --/
def basicConstraintsExtensionParse (certificate : Certificate) : Except X509Error (Bool × Option Nat) :=
  match extensionFind certificate .basicConstraints with
  | .error e => .error e
  | .ok extension =>
    match asn1TlvBlockParse extension.extensionData extension.extensionDataLength with
    | .error e => .error (.asn e)
    | .ok sequence =>
      if ¬(sequence.tlvTagClass = asnTagClassUniversal ∧ sequence.tlvType = asnTagSequence) then
        .error .invalidExtensionSequence
      else
        let remaining := sequence.tlvLength
        if remaining = 0 then .ok (false, none)
        else
          match asn1TlvBlockParse sequence.tlvData remaining with
          | .error e => .error (.asn e)
          | .ok t =>
            if t.tlvTagClass = asnTagClassUniversal ∧ t.tlvType = asnTagBoolean then
              if t.tlvLength ≠ 1 then .error .invalidExtensionSequence
              else
                let isCa := decide (t.tlvData.getD 0 0 ≠ 0)
                let remaining := remaining - (t.headerLength + t.tlvLength)
                if remaining = 0 then .ok (isCa, none)
                else
                  match asn1TlvBlockParse (sequence.tlvData.drop (t.headerLength + t.tlvLength)) remaining with
                  | .error e => .error (.asn e)
                  | .ok limit => .ok (isCa, pathLengthOf limit)
            else .ok (false, pathLengthOf t)

def knownCritical : List OidType := [.basicConstraints, .keyUsage, .subjectAltName, .extendedKeyUsage]

/-- `_nx_secure_x509_critical_extensions_check` --/
def criticalExtensionsCheck (certificate : Certificate) (nameConstraintsEnforced : Bool) : Except X509Error Unit :=
  eachBlock (fun e _ => .error (.asn e)) (fun _ => .ok ())
    (fun t _ =>
      match extensionHead t with
      | .error e => .done (.error e)
      | .ok (oid, buffer, length) =>
        match asn1TlvBlockParse buffer length with
        | .error e => .done (.error (.asn e))
        | .ok flag =>
          if flag.tlvType ≠ asnTagBoolean then .next ()
          else if flag.tlvLength = 0 then .done (.error .invalidExtensionSequence)
          else if flag.tlvData.getD 0 0 = 0 then .next ()
          else if oid ∈ knownCritical ∨ (oid = .nameConstraints ∧ nameConstraintsEnforced) then .next ()
          else .done (.error .unsupportedCriticalExtension))
    certificate.extensionsDataLength certificate.extensionsData certificate.extensionsDataLength ()

/-! ### What stands in a certificate -/

/-- The blocks of a buffer, up to its end or to the first that does not parse. --/
def blocks : Nat → List UInt8 → Nat → List Tlv × Option AsnError
  | 0, _, _ => ([], none)
  | fuel + 1, buffer, length =>
    if length = 0 then ([], none)
    else
      match asn1TlvBlockParse buffer length with
      | .error e => ([], some e)
      | .ok t =>
        let rest := blocks fuel (buffer.drop (t.headerLength + t.tlvLength)) t.bufferLength
        (t :: rest.1, rest.2)

namespace Tlv

/-- The octets of the value. --/
def octets (t : Tlv) : List UInt8 := t.tlvData.take t.tlvLength

/-- The blocks in the value of a constructed block. --/
def members (t : Tlv) : List Tlv := (blocks t.tlvLength t.tlvData t.tlvLength).1

def IsSequence (t : Tlv) : Prop := t.tlvTagClass = asnTagClassUniversal ∧ t.tlvType = asnTagSequence

def IsBoolean (t : Tlv) : Prop := t.tlvTagClass = asnTagClassUniversal ∧ t.tlvType = asnTagBoolean

def IsInteger (t : Tlv) : Prop := t.tlvTagClass = asnTagClassUniversal ∧ t.tlvType = asnTagInteger

end Tlv

namespace Certificate
variable (c : Certificate)

def extensions : List Tlv := (blocks c.extensionsDataLength c.extensionsData c.extensionsDataLength).1

/-- The certificate carries an extension of this type, with this octet string for its value. --/
def Carries (oid : List UInt8) (value : Extension) : Prop :=
  ∃ t ∈ c.extensions, ∃ o flags v, o.octets = oid ∧ (∃ rest, t.members = o :: flags ++ v :: rest) ∧
    (flags = [] ∨ ∃ flag, flags = [flag] ∧ flag.tlvType = asnTagBoolean) ∧
    v.tlvType = asnTagOctetString ∧ value = ⟨v.tlvData, v.tlvLength⟩

/-- The certificate marks an extension of this type critical. --/
def MarksCritical (oid : List UInt8) : Prop :=
  ∃ t ∈ c.extensions, ∃ o flag rest, t.members = o :: flag :: rest ∧ o.octets = oid ∧
    flag.tlvType = asnTagBoolean ∧ flag.tlvData.getD 0 0 ≠ 0

end Certificate

/-- basicConstraints asserts cA, and a pathLenConstraint in it allows `i` certificates in between. --/
def AssertsAuthority (value : Extension) (i : Nat) : Prop :=
  ∃ sequence ca rest, asn1TlvBlockParse value.extensionData value.extensionDataLength = .ok sequence ∧
    sequence.IsSequence ∧ sequence.members = ca :: rest ∧ ca.IsBoolean ∧ ca.tlvLength = 1 ∧ ca.tlvData.getD 0 0 ≠ 0 ∧
    ∀ limit ∈ rest.head?, limit.IsInteger → i ≤ lengthValue limit.octets

def oidBasicConstraints : List UInt8 := [0x55, 0x1D, 0x13]
def oidKeyUsage : List UInt8 := [0x55, 0x1D, 0x0F]
def oidSubjectAltName : List UInt8 := [0x55, 0x1D, 0x11]
def oidExtendedKeyUsage : List UInt8 := [0x55, 0x1D, 0x25]
def oidNameConstraints : List UInt8 := [0x55, 0x1D, 0x1E]

/-- A loop over blocks that are all parsed, or all up to one that does not parse. --/
def foldBlocks {σ ρ : Type} (failed : AsnError → σ → ρ) (ended : σ → ρ) (body : Tlv → σ → Round σ ρ) :
    List Tlv → Option AsnError → σ → ρ
  | [], none, s => ended s
  | [], some e, s => failed e s
  | t :: ts, e, s =>
    match body t s with
    | .done r => r
    | .next s => foldBlocks failed ended body ts e s

/-! ### One block -/

section
variable {buffer : List UInt8} {k : Nat} {t : Tlv}

theorem parse_shape (h : asn1TlvBlockParse buffer k = .ok t) :
    t.tlvData = buffer.drop t.headerLength ∧ t.tlvType = plainTag (buffer.getD 0 0) &&& 0x1F ∧
      t.bufferLength < k ∧ (t.tlvType ≠ asnTagNull → t.headerLength + t.tlvLength + t.bufferLength = k) := by
  unfold asn1TlvBlockParse at h
  dsimp only at h
  split at h
  · cases h
  split at h
  · cases h
  split at h
  · cases h
  split at h
  · cases h
  split at h
  · rename_i hnull
    obtain rfl := Except.ok.inj h
    refine ⟨rfl, rfl, by dsimp only; omega, fun htype => ?_⟩
    dsimp only at htype
    rw [hnull] at htype
    exact absurd rfl htype
  · by_cases hlong : buffer.getD 1 0 &&& 0x80 ≠ 0
    · rw [if_pos hlong, if_pos hlong] at h
      split at h
      · cases h
      rename_i hbytes
      split at h
      · cases h
      rename_i hlength
      obtain rfl := Except.ok.inj h
      refine ⟨rfl, rfl, by dsimp only; omega, fun _ => ?_⟩
      dsimp only at hlength ⊢
      omega
    · rw [if_neg hlong, if_neg hlong] at h
      split at h
      · cases h
      split at h
      · cases h
      rename_i hlength
      obtain rfl := Except.ok.inj h
      refine ⟨rfl, rfl, by dsimp only; omega, fun _ => ?_⟩
      dsimp only at hlength ⊢
      omega

theorem parse_data (h : asn1TlvBlockParse buffer k = .ok t) (n : Nat) :
    t.tlvData.drop n = buffer.drop (t.headerLength + n) := by
  rw [(parse_shape h).1, List.drop_drop]

theorem parse_pos (h : asn1TlvBlockParse buffer k = .ok t) : k ≠ 0 :=
  Nat.ne_of_gt (Nat.zero_lt_of_lt (parse_shape h).2.2.1)

end

/-! ### The walk -/

section
variable {σ ρ : Type} {failed : AsnError → σ → ρ} {ended : σ → ρ} {body : Tlv → σ → Round σ ρ}
variable {buffer : List UInt8} {fuel length : Nat} {t : Tlv}

theorem eachBlock_eq (s : σ) :
    eachBlock failed ended body fuel buffer length s =
      foldBlocks failed ended body (blocks fuel buffer length).1 (blocks fuel buffer length).2 s := by
  induction fuel generalizing buffer length s with
  | zero => rfl
  | succ fuel ih =>
    unfold eachBlock blocks
    split
    · rfl
    cases hparse : asn1TlvBlockParse buffer length with
    | error e => rfl
    | ok t =>
      dsimp only [foldBlocks]
      cases body t s with
      | done r => rfl
      | next s => exact ih s

theorem blocks_fuel (h : length ≤ fuel) : blocks fuel buffer length = blocks length buffer length := by
  induction fuel using Nat.strongRecOn generalizing buffer length with
  | ind fuel ih =>
    cases fuel with
    | zero => rw [Nat.le_zero.mp h]
    | succ fuel =>
      cases length with
      | zero => rfl
      | succ length =>
        unfold blocks
        rw [if_neg (Nat.succ_ne_zero _), if_neg (Nat.succ_ne_zero _)]
        cases hparse : asn1TlvBlockParse buffer (length + 1) with
        | error e => rfl
        | ok t =>
          have hlt := (parse_shape hparse).2.2.1
          dsimp only
          rw [ih fuel (by omega) (by omega), ih length (by omega) (by omega)]

theorem blocks_cons (h : asn1TlvBlockParse buffer length = .ok t) :
    blocks length buffer length =
      (t :: (blocks t.bufferLength (buffer.drop (t.headerLength + t.tlvLength)) t.bufferLength).1,
        (blocks t.bufferLength (buffer.drop (t.headerLength + t.tlvLength)) t.bufferLength).2) := by
  have hlt := (parse_shape h).2.2.1
  obtain ⟨n, rfl⟩ : ∃ n, length = n + 1 := ⟨length - 1, by omega⟩
  rw [blocks, if_neg (Nat.succ_ne_zero _), h]
  dsimp only
  rw [blocks_fuel (by omega)]

theorem blocks_head (h : (blocks length buffer length).1.head? = some t) : asn1TlvBlockParse buffer length = .ok t := by
  cases length with
  | zero => cases h
  | succ length =>
    rw [blocks, if_neg (Nat.succ_ne_zero _)] at h
    cases hparse : asn1TlvBlockParse buffer (length + 1) with
    | error e =>
      rw [hparse] at h
      cases h
    | ok t' =>
      rw [hparse] at h
      rw [Option.some.inj h]

/-- A walk ends at one of the blocks, at the end, or where a block does not parse. --/
theorem foldBlocks_cases {ts : List Tlv} {e : Option AsnError} {s : σ} {r : ρ}
    (h : foldBlocks failed ended body ts e s = r) :
    (∃ t ∈ ts, ∃ s', body t s' = .done r) ∨ (∃ s', r = ended s') ∨ ∃ e' s', r = failed e' s' := by
  induction ts generalizing s with
  | nil =>
    cases e with
    | none => exact .inr (.inl ⟨s, h.symm⟩)
    | some e => exact .inr (.inr ⟨e, s, h.symm⟩)
  | cons t ts ih =>
    unfold foldBlocks at h
    cases hbody : body t s with
    | done r' =>
      rw [hbody] at h
      obtain rfl := h
      exact .inl ⟨t, List.mem_cons_self, s, hbody⟩
    | next s' =>
      rw [hbody] at h
      rcases ih h with ⟨t', ht', hdone⟩ | hend
      · exact .inl ⟨t', List.mem_cons_of_mem t ht', hdone⟩
      · exact .inr hend

/-- A walk without local variables that nothing ends before its time goes on at every block. --/
theorem foldBlocks_next {body : Tlv → Unit → Round Unit ρ} {failed : AsnError → Unit → ρ} {ended : Unit → ρ} {r : ρ}
    (hdone : ∀ t, body t () ≠ .done r) (ts : List Tlv) (e : Option AsnError)
    (h : foldBlocks failed ended body ts e () = r) : ∀ t ∈ ts, body t () = .next () := by
  induction ts with
  | nil => exact fun t ht => absurd ht List.not_mem_nil
  | cons t ts ih =>
    unfold foldBlocks at h
    cases hbody : body t () with
    | done r' =>
      rw [hbody] at h
      exact absurd (h ▸ hbody) (hdone t)
    | next s =>
      rw [hbody] at h
      intro t' ht'
      rcases List.mem_cons.mp ht' with rfl | ht'
      · exact hbody
      · exact ih h t' ht'

end

/-! ### What the walk finds -/

section
variable {t : Tlv} {oid : OidType} {buffer : List UInt8} {length : Nat}

theorem members_cons {m : Tlv} (h : asn1TlvBlockParse t.tlvData t.tlvLength = .ok m) :
    t.members = m :: (blocks m.bufferLength (m.tlvData.drop m.tlvLength) m.bufferLength).1 := by
  unfold Tlv.members
  rw [blocks_cons h, parse_data h]

theorem extensionHead_ok (h : extensionHead t = .ok (oid, buffer, length)) :
    ∃ o, t.members = o :: (blocks length buffer length).1 ∧ oid = oidParse o.tlvData o.tlvLength ∧
      buffer = o.tlvData.drop o.tlvLength := by
  unfold extensionHead at h
  split at h
  · cases h
  cases hparse : asn1TlvBlockParse t.tlvData t.tlvLength with
  | error e =>
    rw [hparse] at h
    cases h
  | ok o =>
    rw [hparse] at h
    dsimp only at h
    split at h
    · cases h
    cases h
    exact ⟨o, members_cons hparse, rfl, rfl⟩

/-- The types the code asks for by name. --/
def namedOids : List (OidType × List UInt8) :=
  [(.basicConstraints, oidBasicConstraints), (.keyUsage, oidKeyUsage), (.subjectAltName, oidSubjectAltName),
    (.extendedKeyUsage, oidExtendedKeyUsage), (.nameConstraints, oidNameConstraints)]

theorem namedOids_row : ∀ named ∈ namedOids, ∀ row ∈ oidMap, row.1 = named.1 → row.2 = named.2 := by decide

/-- None of their octets is the tag of what may follow an OID, so none of them is matched by a shorter OID. --/
theorem namedOids_tag : ∀ named ∈ namedOids, named.2.length = 3 ∧ named.1 ≠ .unknown ∧ ∀ n < 3,
    plainTag (named.2.getD n 0) &&& 0x1F ≠ asnTagBoolean ∧ plainTag (named.2.getD n 0) &&& 0x1F ≠ asnTagOctetString := by
  decide

theorem oidParse_exact {data row : List UInt8} {n k : Nat} {next : Tlv} (hoid : oidParse data n = oid)
    (hrow : (oid, row) ∈ namedOids) (hnext : asn1TlvBlockParse (data.drop n) k = .ok next)
    (htype : next.tlvType = asnTagBoolean ∨ next.tlvType = asnTagOctetString) : data.take n = row := by
  obtain ⟨hlength, hknown, htag⟩ := namedOids_tag _ hrow
  unfold oidParse at hoid
  split at hoid
  · rename_i found hfind
    have hmatch := List.find?_some hfind
    rw [decide_eq_true_eq] at hmatch
    obtain ⟨hle, htake⟩ := hmatch
    have heq : found.2 = row := namedOids_row _ hrow found (List.mem_of_find?_eq_some hfind) hoid
    rw [heq] at hle htake
    dsimp only at hlength
    rw [hlength] at hle htake
    rcases Nat.lt_or_eq_of_le hle with hlt | rfl
    · have hoctet : (data.drop n).getD 0 0 = row.getD n 0 := by
        rw [← htake, List.getD_eq_getElem?_getD, List.getD_eq_getElem?_getD, List.getElem?_drop, Nat.add_zero,
          List.getElem?_take_of_lt hlt]
      rw [(parse_shape hnext).2.1, hoctet] at htype
      exact absurd htype (not_or.mpr (htag n hlt))
    · exact htake
  · exact absurd hoid.symm hknown

theorem extensionValue_ok {value : Extension} (h : extensionValue buffer length = .ok value) :
    ∃ flags v rest, (blocks length buffer length).1 = flags ++ v :: rest ∧
      (flags = [] ∨ ∃ flag, flags = [flag] ∧ flag.tlvType = asnTagBoolean) ∧
      v.tlvType = asnTagOctetString ∧ value = ⟨v.tlvData, v.tlvLength⟩ := by
  unfold extensionValue at h
  cases hflag : asn1TlvBlockParse buffer length with
  | error e =>
    rw [hflag] at h
    cases h
  | ok flag =>
    rw [hflag] at h
    dsimp only at h
    have hblocks := congrArg Prod.fst (blocks_cons hflag)
    split at h
    · rename_i hboolean
      cases hvalue : asn1TlvBlockParse (buffer.drop (flag.headerLength + flag.tlvLength)) flag.bufferLength with
      | error e =>
        rw [hvalue] at h
        cases h
      | ok v =>
        rw [hvalue] at h
        dsimp only at h
        split at h
        · cases h
        rename_i htype
        rw [blocks_cons hvalue] at hblocks
        exact ⟨[flag], v, _, hblocks, .inr ⟨flag, rfl, hboolean⟩, not_not.mp htype, (Except.ok.inj h).symm⟩
    · split at h
      · cases h
      rename_i htype
      exact ⟨[], flag, _, hblocks, .inl rfl, not_not.mp htype, (Except.ok.inj h).symm⟩

theorem extensionFind_ok {c : Certificate} {value : Extension} (h : extensionFind c oid = .ok value) :
    ∃ t ∈ c.extensions, ∃ buffer length, extensionHead t = .ok (oid, buffer, length) ∧
      extensionValue buffer length = .ok value := by
  unfold extensionFind at h
  rw [eachBlock_eq] at h
  rcases foldBlocks_cases h with ⟨t, ht, s, hbody⟩ | ⟨s, hend⟩ | ⟨e, s, hfail⟩
  · split at hbody
    · cases hbody
    rename_i oid' buffer length hhead
    split at hbody
    · rename_i hid
      rw [hid] at hhead
      exact ⟨t, ht, buffer, length, hhead, Round.done.inj hbody⟩
    · cases hbody
  · cases hend
  · cases hfail

theorem carries_of_find {c : Certificate} {value : Extension} {row : List UInt8} (hrow : (oid, row) ∈ namedOids)
    (h : extensionFind c oid = .ok value) : c.Carries row value := by
  obtain ⟨t, ht, buffer, length, hhead, hvalue⟩ := extensionFind_ok h
  obtain ⟨o, hmembers, hoid, hbuffer⟩ := extensionHead_ok hhead
  obtain ⟨flags, v, rest, hblocks, hflags, htype, rfl⟩ := extensionValue_ok hvalue
  refine ⟨t, ht, o, flags, v, ?_, ⟨rest, by rw [hmembers, hblocks, List.cons_append]⟩, hflags, htype, rfl⟩
  rw [hbuffer] at hblocks
  rcases hflags with rfl | ⟨flag, rfl, hboolean⟩
  · exact oidParse_exact hoid.symm hrow (blocks_head (congrArg List.head? hblocks)) (.inr htype)
  · exact oidParse_exact hoid.symm hrow (blocks_head (congrArg List.head? hblocks)) (.inl hboolean)

/-- What passes marks nothing critical but what is enforced. --/
theorem marksCritical_of_check {c : Certificate} {enforced : Bool} {row : List UInt8}
    (h : criticalExtensionsCheck c enforced = .ok ()) (hmarks : c.MarksCritical row) :
    row ∈ [oidBasicConstraints, oidKeyUsage, oidSubjectAltName, oidExtendedKeyUsage] ∨
      (row = oidNameConstraints ∧ enforced = true) := by
  obtain ⟨t, ht, o, flag, rest, hmembers, rfl, hboolean, hset⟩ := hmarks
  unfold criticalExtensionsCheck at h
  rw [eachBlock_eq] at h
  have hnext := foldBlocks_next ?_ _ _ h t ht
  · split at hnext
    · cases hnext
    rename_i oid buffer length hhead
    obtain ⟨o', hmembers', hoid, hbuffer⟩ := extensionHead_ok hhead
    rw [hmembers] at hmembers'
    obtain ⟨rfl, hrest⟩ := List.cons.inj hmembers'
    have hparse : asn1TlvBlockParse buffer length = .ok flag := blocks_head (by rw [← hrest]; rfl)
    rw [hparse] at hnext
    dsimp only at hnext
    rw [if_neg (not_not.mpr hboolean)] at hnext
    by_cases hlength : flag.tlvLength = 0
    · rw [if_pos hlength] at hnext
      cases hnext
    rw [if_neg hlength, if_neg hset] at hnext
    split at hnext
    · rename_i hknown
      have hexact : ∀ row, (oid, row) ∈ namedOids → o.octets = row := by
        intro row hrow
        rw [hbuffer] at hparse
        exact oidParse_exact hoid.symm hrow hparse (.inl hboolean)
      rcases hknown with hknown | ⟨rfl, henforced⟩
      · refine .inl ?_
        simp only [knownCritical, List.mem_cons, List.not_mem_nil, or_false] at hknown
        rcases hknown with rfl | rfl | rfl | rfl
        · rw [hexact oidBasicConstraints (by decide)]
          decide
        · rw [hexact oidKeyUsage (by decide)]
          decide
        · rw [hexact oidSubjectAltName (by decide)]
          decide
        · rw [hexact oidExtendedKeyUsage (by decide)]
          decide
      · exact .inr ⟨hexact _ (by decide), henforced⟩
    · cases hnext
  · intro t
    split
    · rintro ⟨⟩
    split
    · rintro ⟨⟩
    split
    · rintro ⟨⟩
    split
    · rintro ⟨⟩
    split
    · rintro ⟨⟩
    split
    · rintro ⟨⟩
    · rintro ⟨⟩

end

/-! ### cA and pathLenConstraint -/

theorem le_lengthValue (octets : List UInt8) (value : Nat) :
    value ≤ octets.foldl (fun length octet => length <<< 8 + octet.toNat) value := by
  induction octets generalizing value with
  | nil => exact Nat.le_refl _
  | cons octet octets ih =>
    refine Nat.le_trans ?_ (ih (value <<< 8 + octet.toNat))
    rw [Nat.shiftLeft_eq]
    omega

theorem pathLengthValue_le (octets : List UInt8) (value : Nat) :
    pathLengthValue octets value ≤ octets.foldl (fun length octet => length <<< 8 + octet.toNat) value := by
  induction octets generalizing value with
  | nil => exact Nat.le_refl _
  | cons octet octets ih =>
    unfold pathLengthValue
    split
    · rename_i hlarge
      have hclamp : 0x7FFFFFFF >>> 8 = 0x7FFFFF := rfl
      refine Nat.le_trans ?_ (le_lengthValue octets _)
      show 0x7FFFFFFF ≤ value <<< 8 + octet.toNat
      rw [Nat.shiftLeft_eq]
      omega
    · exact ih _

/-- An issuer that is let through asserts cA, and allows as many certificates as are below it. --/
theorem authority_of_parse {c : Certificate} {limit : Option Nat} {i : Nat}
    (h : basicConstraintsExtensionParse c = .ok (true, limit)) (hlimit : ∀ n ∈ limit, i ≤ n) :
    ∃ value, c.Carries oidBasicConstraints value ∧ AssertsAuthority value i := by
  unfold basicConstraintsExtensionParse at h
  cases hfind : extensionFind c .basicConstraints with
  | error e =>
    rw [hfind] at h
    cases h
  | ok value =>
    refine ⟨value, carries_of_find (by decide) hfind, ?_⟩
    rw [hfind] at h
    dsimp only at h
    cases hsequence : asn1TlvBlockParse value.extensionData value.extensionDataLength with
    | error e =>
      rw [hsequence] at h
      cases h
    | ok sequence =>
      rw [hsequence] at h
      dsimp only at h
      split at h
      · cases h
      rename_i his
      split at h
      · cases h
      cases hca : asn1TlvBlockParse sequence.tlvData sequence.tlvLength with
      | error e =>
        rw [hca] at h
        cases h
      | ok ca =>
        rw [hca] at h
        dsimp only at h
        split at h
        · rename_i hboolean
          split at h
          · cases h
          rename_i hone
          have hleft : sequence.tlvLength - (ca.headerLength + ca.tlvLength) = ca.bufferLength := by
            have := (parse_shape hca).2.2.2 (by rw [hboolean.2]; decide)
            omega
          rw [hleft] at h
          refine ⟨sequence, ca, _, hsequence, not_not.mp his, members_cons hca, hboolean, not_not.mp hone, ?_, ?_⟩
          · split at h
            · exact of_decide_eq_true (Prod.mk.inj (Except.ok.inj h)).1
            · split at h
              · cases h
              · exact of_decide_eq_true (Prod.mk.inj (Except.ok.inj h)).1
          · intro last hlast hinteger
            have hlast := blocks_head hlast
            rw [parse_data hca] at hlast
            rw [if_neg (parse_pos hlast), hlast] at h
            refine Nat.le_trans (hlimit _ ?_) (pathLengthValue_le last.octets 0)
            rw [← (Prod.mk.inj (Except.ok.inj h)).2]
            exact if_pos hinteger
        · cases h

end Netxduo.X509
