import Mathlib
import Netxduo.Library.Fallible

/-! The RSA signature of a CertificateVerify message in TLS 1.2: what the message and the recovered block are held
against. -/

namespace Netxduo.Tls.CertificateVerify
open Fallible

/-! ### The source -/

/-- `NX_SECURE_TLS_CERTIFICATE_VERIFY_SIGNATURE_SIZE` --/
def signatureSize : Nat := 600

def hashAlgorithmSha256 : UInt8 := 4
def signatureAlgorithmRsa : UInt8 := 1

/-- `_NX_SECURE_OID_SHA256`: the DigestInfo in front of the hash. --/
def oidSha256 : List UInt8 :=
  [0x30, 0x31, 0x30, 0x0d, 0x06, 0x09, 0x60, 0x86, 0x48, 0x01, 0x65, 0x03, 0x04, 0x02, 0x01, 0x05, 0x00, 0x04, 0x20]

def signatureLength : Nat := 19 + 32

/-- The errors; `readOutside` is no error of the code: it is a read past the end of the message. --/
inductive VerifyError
  | incorrectMessageLength
  | certificateNotFound
  | unknownCertSigAlgorithm
  | unsupportedCertSignAlg
  | certificateSigCheckFailed
  | invalidCertificate
  | paddingCheckFailed
  | certificateVerifyFailure
  | crypto (status : UInt32)
  | readOutside
deriving DecidableEq, Repr

/-- The public key method, where a missing function is not called. The operation leaves what it has recovered in a
buffer of fixed size, which is zero before. --/
structure PublicCipher where
  init : Option UInt32
  operation : Option (List UInt8 → UInt32 × Vector UInt8 signatureSize)
  cleanup : Option UInt32

structure RemoteCertificate where
  modulusLength : Nat
  rsaPss : Bool

/-- What the session has for the message: a certificate with an RSA key, the methods for it, and the transcript
hash. --/
structure VerifySession where
  remoteCertificate : Option RemoteCertificate
  cryptoMethods : Option PublicCipher
  handshakeHash : Except UInt32 (Vector UInt8 32)

def readAt (message : List UInt8) (index : Nat) : Except VerifyError UInt8 :=
  (message[index]?).elim (.error .readOutside) .ok

def readSlice (message : List UInt8) (index size : Nat) : Except VerifyError (List UInt8) :=
  if index + size ≤ message.length then .ok ((message.drop index).take size) else .error .readOutside

/-- The algorithms and the length in front of the signature. --/
def signatureHeader (message : List UInt8) : Except VerifyError Nat := do
  let hash ← readAt message 0
  let signature ← readAt message 1
  if hash ≠ hashAlgorithmSha256 ∨ signature ≠ signatureAlgorithmRsa then .error .unknownCertSigAlgorithm
  else do
    let high ← readAt message 2
    let low ← readAt message 3
    .ok ((high.toNat <<< 8) + low.toNat)

/-- A status is zero where the method succeeds, or is not there. --/
def cryptoStatus (status : Option UInt32) : Except VerifyError Unit :=
  if status.getD 0 ≠ 0 then .error (.crypto (status.getD 0)) else .ok ()

/-- The call of the operation on the signature. --/
def operate (cipher : PublicCipher) (message : List UInt8) (dataSize : Nat) : Except VerifyError (List UInt8) :=
  match cipher.operation with
  | none => .ok (List.replicate signatureSize 0)
  | some operation => do
    let signature ← readSlice message 4 dataSize
    cryptoStatus (some (operation signature).1)
    .ok (operation signature).2.toList

/-- The signature is recovered into the buffer. --/
def recover (cipher : PublicCipher) (message : List UInt8) (dataSize : Nat) : Except VerifyError (List UInt8) := do
  cryptoStatus cipher.init
  let block ← operate cipher message dataSize
  cryptoStatus cipher.cleanup
  .ok block

/-- The block type, the padding and its terminator. --/
def blockCheck (block : List UInt8) (dataSize : Nat) : Except VerifyError Unit :=
  if dataSize < signatureLength + 11 then .error .paddingCheckFailed
  else if block.getD 0 0 ≠ 0 ∨ block.getD 1 0 ≠ 1 then .error .paddingCheckFailed
  else if ((block.drop 2).take (dataSize - signatureLength - 1 - 2)).any (fun octet => decide (octet ≠ 0xFF)) then
    .error .paddingCheckFailed
  else if block.getD (dataSize - signatureLength - 1) 0 ≠ 0 then .error .paddingCheckFailed
  else .ok ()

/-- The DigestInfo and the hash, as far as they are compared. --/
def digestInfo (block : List UInt8) (dataSize : Nat) : List UInt8 := (block.drop (dataSize - signatureLength)).take 19

def recoveredHash (block : List UInt8) (dataSize : Nat) : List UInt8 :=
    (block.drop (dataSize - signatureLength + 19)).take 32

/-- `_nx_secure_tls_process_certificate_verify`, for TLS 1.2 and an RSA key. `memcmp` is what NX_SECURE_MEMCMP returns;
its two results are added up. --/
def processCertificateVerify (memcmp : List UInt8 → List UInt8 → Int32) (s : VerifySession) (message : List UInt8) :
    Except VerifyError Unit :=
  if message.length < 4 then .error .incorrectMessageLength
  else
    match s.remoteCertificate, s.cryptoMethods, s.handshakeHash with
    | none, _, _ => .error .certificateNotFound
    | some _, none, _ => .error .unknownCertSigAlgorithm
    | some _, some _, .error status => .error (.crypto status)
    | some certificate, some cipher, .ok handshakeHash =>
      if certificate.rsaPss then .error .unsupportedCertSignAlg
      else do
        let length ← signatureHeader message
        if length ≠ certificate.modulusLength then .error .certificateSigCheckFailed
        else if 4 + length > message.length then .error .incorrectMessageLength
        else if certificate.modulusLength > signatureSize then .error .invalidCertificate
        else do
          let block ← recover cipher message certificate.modulusLength
          blockCheck block certificate.modulusLength
          let compareValue := memcmp (digestInfo block certificate.modulusLength) oidSha256 +
            memcmp (recoveredHash block certificate.modulusLength) handshakeHash.toList
          if compareValue ≠ 0 then .error .certificateVerifyFailure else .ok ()

/-! ### What is compared -/

/-- MEMCMP returns a value of the right sign, for blocks of one length. --/
structure RightSign (memcmp : List UInt8 → List UInt8 → Int32) : Prop where
  less : ∀ a b : List UInt8, a.length = b.length → a < b → memcmp a b < 0
  same : ∀ a, memcmp a a = 0
  greater : ∀ a b : List UInt8, a.length = b.length → b < a → 0 < memcmp a b

/-- The message is framed for the key, and a block is recovered from it that begins as a signature does. --/
structure Recovers (s : VerifySession) (message : List UInt8) (hash : Vector UInt8 32) (dataSize : Nat)
    (block : List UInt8) : Prop where
  certificate : s.remoteCertificate = some ⟨dataSize, false⟩
  hash : s.handshakeHash = .ok hash
  header : ∃ high low rest, message = hashAlgorithmSha256 :: signatureAlgorithmRsa :: high :: low :: rest ∧
    (high.toNat <<< 8) + low.toNat = dataSize ∧ dataSize ≤ rest.length
  fits : dataSize ≤ signatureSize
  recovered : ∃ cipher, s.cryptoMethods = some cipher ∧ recover cipher message dataSize = .ok block
  front : blockCheck block dataSize = .ok ()

/-- The block is 00 01 FF .. FF 00, the DigestInfo and the hash. --/
def RightBlock (hash : Vector UInt8 32) (dataSize : Nat) (block : List UInt8) : Prop :=
  block.take dataSize = 0 :: 1 :: (List.replicate (dataSize - 54) 0xFF ++ 0 :: (oidSha256 ++ hash.toList))

/-- The comparison can come out even: both parts differ, and not both of them upwards. --/
def Cancels (hash : Vector UInt8 32) (dataSize : Nat) (block : List UInt8) : Prop :=
  digestInfo block dataSize ≠ oidSha256 ∧ recoveredHash block dataSize ≠ hash.toList ∧
    ¬(oidSha256 < digestInfo block dataSize ∧ hash.toList < recoveredHash block dataSize)

/-! ### The message and the block -/

section
variable {message block : List UInt8} {dataSize : Nat} {hash : Vector UInt8 32}

theorem signatureHeader_cons (h0 h1 high low : UInt8) (rest : List UInt8) :
    signatureHeader (h0 :: h1 :: high :: low :: rest) =
      if h0 ≠ hashAlgorithmSha256 ∨ h1 ≠ signatureAlgorithmRsa then .error .unknownCertSigAlgorithm
      else .ok ((high.toNat <<< 8) + low.toNat) := rfl

/-- Four octets are enough for the header. --/
theorem signatureHeader_inside (h : 4 ≤ message.length) : signatureHeader message ≠ .error .readOutside := by
  obtain ⟨h0, h1, high, low, rest, rfl⟩ : ∃ h0 h1 high low rest, message = h0 :: h1 :: high :: low :: rest := by
    match message, h with
    | h0 :: h1 :: high :: low :: rest, _ => exact ⟨h0, h1, high, low, rest, rfl⟩
  rw [signatureHeader_cons]
  split
  · exact fun h => by cases h
  · exact fun h => by cases h

theorem signatureHeader_ok {length : Nat} (h : 4 ≤ message.length) (hheader : signatureHeader message = .ok length) :
    ∃ high low rest, message = hashAlgorithmSha256 :: signatureAlgorithmRsa :: high :: low :: rest ∧
      (high.toNat <<< 8) + low.toNat = length := by
  obtain ⟨h0, h1, high, low, rest, rfl⟩ : ∃ h0 h1 high low rest, message = h0 :: h1 :: high :: low :: rest := by
    match message, h with
    | h0 :: h1 :: high :: low :: rest, _ => exact ⟨h0, h1, high, low, rest, rfl⟩
  rw [signatureHeader_cons] at hheader
  split at hheader
  · cases hheader
  · rename_i hmatch
    obtain ⟨hfirst, hsecond⟩ := not_or.mp hmatch
    rw [not_not.mp hfirst, not_not.mp hsecond]
    exact ⟨high, low, rest, rfl, Except.ok.inj hheader⟩

theorem cryptoStatus_inside (status : Option UInt32) : cryptoStatus status ≠ .error .readOutside := by
  unfold cryptoStatus
  split
  · exact fun h => by cases h
  · exact fun h => by cases h

/-- The signature is read where it lies inside the message. --/
theorem recover_inside (cipher : PublicCipher) (h : 4 + dataSize ≤ message.length) :
    recover cipher message dataSize ≠ .error .readOutside := by
  unfold recover
  refine bind_ne (cryptoStatus_inside _) fun _ _ => bind_ne ?_ fun _ _ => bind_ne (cryptoStatus_inside _) fun _ _ => ?_
  · unfold operate
    cases cipher.operation with
    | none => exact fun h => by cases h
    | some operation =>
      refine bind_ne ?_ fun _ _ => bind_ne (cryptoStatus_inside _) fun _ _ => ?_
      · unfold readSlice
        rw [if_pos h]
        exact fun h => by cases h
      · exact fun h => by cases h
  · exact fun h => by cases h

theorem blockCheck_inside : blockCheck block dataSize ≠ .error .readOutside := by
  unfold blockCheck
  split_ifs <;> exact fun h => by cases h

/-- The buffer keeps its size. --/
theorem recover_length {cipher : PublicCipher} (h : recover cipher message dataSize = .ok block) :
    block.length = signatureSize := by
  unfold recover at h
  obtain ⟨-, -, h⟩ := bind_ok.mp h
  obtain ⟨found, hfound, h⟩ := bind_ok.mp h
  obtain ⟨-, -, h⟩ := bind_ok.mp h
  obtain rfl := Except.ok.inj h
  unfold operate at hfound
  cases hop : cipher.operation with
  | none =>
    rw [hop] at hfound
    rw [← Except.ok.inj hfound, List.length_replicate]
  | some operation =>
    rw [hop] at hfound
    obtain ⟨signature, -, hfound⟩ := bind_ok.mp hfound
    obtain ⟨-, -, hfound⟩ := bind_ok.mp hfound
    rw [← Except.ok.inj hfound]
    exact Vector.length_toList

theorem blockCheck_ok (h : blockCheck block dataSize = .ok ()) (hlength : dataSize ≤ block.length) :
    62 ≤ dataSize ∧ block.take dataSize =
      0 :: 1 :: (List.replicate (dataSize - 54) 0xFF ++ 0 :: (digestInfo block dataSize ++
        recoveredHash block dataSize)) := by
  unfold blockCheck signatureLength at h
  split at h
  · cases h
  rename_i hsize
  split at h
  · cases h
  rename_i htype
  split at h
  · cases h
  rename_i hpadding
  split at h
  · cases h
  rename_i hend
  obtain ⟨hzero, hone⟩ := not_or.mp htype
  have hlong : 62 ≤ dataSize := by omega
  refine ⟨hlong, ?_⟩
  obtain ⟨n, rfl⟩ : ∃ n, dataSize = 2 + n + 1 + 19 + 32 := ⟨dataSize - 54, by omega⟩
  rw [show 2 + n + 1 + 19 + 32 - (19 + 32) - 1 = 2 + n by omega] at hend
  rw [show 2 + n + 1 + 19 + 32 - (19 + 32) - 1 - 2 = n by omega] at hpadding
  have hfirst : block.take 2 = [0, 1] := by
    match block, hlength with
    | a :: b :: rest, _ =>
      have ha : a = 0 := not_not.mp hzero
      have hb : b = 1 := not_not.mp hone
      rw [ha, hb]
      rfl
  have hmiddle : (block.drop 2).take n = List.replicate n 0xFF := by
    refine List.eq_replicate_iff.mpr ⟨by rw [List.length_take, List.length_drop]; omega, fun octet hoctet => ?_⟩
    by_contra hne
    exact hpadding (List.any_eq_true.mpr ⟨octet, hoctet, decide_eq_true hne⟩)
  have hterminator : (block.drop (2 + n)).take 1 = [0] := by
    have hlt : 2 + n < block.length := by omega
    rw [List.drop_eq_getElem_cons hlt, List.take_succ_cons, List.take_zero]
    rw [List.getD_eq_getElem _ _ hlt] at hend
    rw [not_not.mp hend]
  unfold digestInfo recoveredHash signatureLength
  rw [List.take_add, List.take_add, List.take_add, List.take_add, hfirst, hmiddle, hterminator,
    show 2 + n + 1 + 19 + 32 - 54 = n by omega, show 2 + n + 1 + 19 + 32 - (19 + 32) = 2 + n + 1 by omega]
  simp only [List.cons_append, List.nil_append, List.append_assoc]

theorem rightBlock_iff (h : blockCheck block dataSize = .ok ()) (hlength : dataSize ≤ block.length) :
    RightBlock hash dataSize block ↔ digestInfo block dataSize = oidSha256 ∧
      recoveredHash block dataSize = hash.toList := by
  obtain ⟨hlong, htake⟩ := blockCheck_ok h hlength
  unfold RightBlock
  rw [htake]
  have hdigest : (digestInfo block dataSize).length = oidSha256.length := by
    unfold digestInfo signatureLength
    rw [List.length_take, List.length_drop, show oidSha256.length = 19 from rfl]
    omega
  constructor
  · intro heq
    have hrest := (List.cons.inj (List.cons.inj heq).2).2
    have htail := (List.cons.inj (List.append_cancel_left hrest)).2
    exact List.append_inj htail hdigest
  · rintro ⟨hinfo, hhash⟩
    rw [hinfo, hhash]

end

/-! ### The comparison -/

theorem lt_or_eq_or_lt (a b : List UInt8) : a < b ∨ a = b ∨ b < a := by
  by_cases hless : a < b
  · exact .inl hless
  by_cases hgreater : b < a
  · exact .inr (.inr hgreater)
  · exact .inr (.inl (List.le_antisymm (List.not_lt.mp hgreater) (List.not_lt.mp hless)))

/-- Two positive values do not add up to zero, also where the sum wraps around. --/
theorem add_pos_ne_zero {a b : Int32} (ha : 0 < a) (hb : 0 < b) : a + b ≠ 0 := by
  intro hsum
  rw [Int32.lt_iff_toInt_lt] at ha hb
  have hzero : (0 : Int32).toInt = 0 := rfl
  have hadd := Int32.toInt_add a b
  have ha' := a.toInt_lt
  have hb' := b.toInt_lt
  rw [hsum, hzero] at hadd
  rw [hzero] at ha hb
  have hdvd := Int.dvd_of_bmod_eq_zero hadd.symm
  omega

/-- A MEMCMP that returns -1, 0 or 1, and one that returns the least value instead of -1. --/
def unitCompare (lowest : Int32) (a b : List UInt8) : Int32 := if a < b then lowest else if a = b then 0 else 1

theorem unitCompare_rightSign {lowest : Int32} (h : lowest < 0) : RightSign (unitCompare lowest) where
  less := fun a b _ hlt => by
    unfold unitCompare
    rwa [if_pos hlt]
  same := fun a => by
    unfold unitCompare
    rw [if_neg (List.lt_irrefl a), if_pos rfl]
  greater := fun a b _ hlt => by
    unfold unitCompare
    have hne : a ≠ b := by
      rintro rfl
      exact List.lt_irrefl a hlt
    rw [if_neg (List.lt_asymm hlt), if_neg hne]
    decide

section
variable {hash : Vector UInt8 32} {a b x y : List UInt8} {memcmp : List UInt8 → List UInt8 → Int32}

theorem RightSign.eq_zero (h : RightSign memcmp) (hlength : a.length = b.length) (hzero : memcmp a b = 0) : a = b := by
  rcases lt_or_eq_or_lt a b with hless | rfl | hgreater
  · have hneg := h.less a b hlength hless
    rw [hzero] at hneg
    exact absurd hneg (by decide)
  · rfl
  · have hpos := h.greater a b hlength hgreater
    rw [hzero] at hpos
    exact absurd hpos (by decide)

/-- Every comparison of the right signs tells the right parts from others, unless they can cancel out. --/
theorem sum_zero_iff (hab : a.length = b.length) (hxy : x.length = y.length) :
    (∀ memcmp, RightSign memcmp → memcmp a b + memcmp x y = 0 → a = b ∧ x = y) ↔
      ¬(a ≠ b ∧ x ≠ y ∧ ¬(b < a ∧ y < x)) := by
  constructor
  · rintro hall ⟨hne, hne', hdown⟩
    rcases lt_or_eq_or_lt a b with hless | heq | hgreater
    · rcases lt_or_eq_or_lt x y with hless' | heq' | hgreater'
      · -- both are lower, and the least value twice wraps around to zero
        refine hne (hall (unitCompare Int32.minValue) (unitCompare_rightSign (by decide)) ?_).1
        unfold unitCompare
        rw [if_pos hless, if_pos hless']
        decide
      · exact hne' heq'
      · refine hne (hall (unitCompare (-1)) (unitCompare_rightSign (by decide)) ?_).1
        unfold unitCompare
        rw [if_pos hless, if_neg (List.lt_asymm hgreater'), if_neg hne']
        decide
    · exact hne heq
    · rcases lt_or_eq_or_lt x y with hless' | heq' | hgreater'
      · refine hne (hall (unitCompare (-1)) (unitCompare_rightSign (by decide)) ?_).1
        unfold unitCompare
        rw [if_neg (List.lt_asymm hgreater), if_neg hne, if_pos hless']
        decide
      · exact hne' heq'
      · exact hdown ⟨hgreater, hgreater'⟩
  · intro hnot memcmp hmemcmp hsum
    by_cases heq : a = b
    · subst heq
      rw [hmemcmp.same, Int32.zero_add] at hsum
      exact ⟨rfl, hmemcmp.eq_zero hxy hsum⟩
    by_cases heq' : x = y
    · subst heq'
      rw [hmemcmp.same, Int32.add_zero] at hsum
      exact ⟨hmemcmp.eq_zero hab hsum, rfl⟩
    obtain ⟨hup, hup'⟩ := not_not.mp fun hdown => hnot ⟨heq, heq', hdown⟩
    exact absurd hsum (add_pos_ne_zero (hmemcmp.greater a b hab hup) (hmemcmp.greater x y hxy hup'))

end

/-! ### The main result -/

section
variable {memcmp : List UInt8 → List UInt8 → Int32} {s : VerifySession} {message : List UInt8}

/-- Whatever is compared was recovered from a framed message; no read is outside of it. --/
theorem process_inside : processCertificateVerify memcmp s message ≠ .error .readOutside := by
  unfold processCertificateVerify
  split
  · exact fun h => by cases h
  rename_i hlength
  split
  · exact fun h => by cases h
  · exact fun h => by cases h
  · exact fun h => by cases h
  · split
    · exact fun h => by cases h
    refine bind_ne (signatureHeader_inside (Nat.not_lt.mp hlength)) fun length _ => ?_
    split
    · exact fun h => by cases h
    rename_i hsame
    split
    · exact fun h => by cases h
    rename_i hinside
    split
    · exact fun h => by cases h
    rw [not_not.mp hsame] at hinside
    refine bind_ne (recover_inside _ (Nat.not_lt.mp hinside)) fun block _ => bind_ne blockCheck_inside fun _ _ => ?_
    dsimp only
    split
    · exact fun h => by cases h
    · exact fun h => by cases h

theorem process_ok_iff : processCertificateVerify memcmp s message = .ok () ↔ ∃ hash dataSize block,
    Recovers s message hash dataSize block ∧
      memcmp (digestInfo block dataSize) oidSha256 + memcmp (recoveredHash block dataSize) hash.toList = 0 := by
  constructor
  · intro h
    unfold processCertificateVerify at h
    split at h
    · cases h
    rename_i hlength
    split at h
    · cases h
    · cases h
    · cases h
    · rename_i certificate cipher hash hcertificate hcipher hhash
      obtain ⟨dataSize, pss⟩ := certificate
      split at h
      · cases h
      rename_i hpss
      obtain ⟨length, hheader, h⟩ := bind_ok.mp h
      split at h
      · cases h
      rename_i hsame
      split at h
      · cases h
      rename_i hinside
      split at h
      · cases h
      rename_i hfits
      obtain rfl : length = dataSize := not_not.mp hsame
      obtain ⟨block, hrecover, h⟩ := bind_ok.mp h
      obtain ⟨⟨⟩, hfront, h⟩ := bind_ok.mp h
      dsimp only at h
      split at h
      · cases h
      rename_i hzero
      obtain ⟨high, low, rest, hmessage, hfield⟩ := signatureHeader_ok (Nat.not_lt.mp hlength) hheader
      refine ⟨hash, length, block, ⟨?_, hhash, ⟨high, low, rest, hmessage, hfield, ?_⟩, Nat.not_lt.mp hfits,
        ⟨cipher, hcipher, hrecover⟩, hfront⟩, not_not.mp hzero⟩
      · obtain rfl : pss = false := Bool.eq_false_iff.mpr hpss
        exact hcertificate
      · rw [hmessage] at hinside
        simp only [List.length_cons] at hinside
        omega
  · rintro ⟨hash, dataSize, block, ⟨hcertificate, hhash, ⟨high, low, rest, rfl, hfield, hinside⟩, hfits,
      ⟨cipher, hcipher, hrecover⟩, hfront⟩, hzero⟩
    unfold processCertificateVerify
    rw [if_neg (by simp), hcertificate, hcipher, hhash]
    dsimp only
    rw [if_neg Bool.false_ne_true, signatureHeader_cons, if_neg (by simp), hfield]
    show (if dataSize ≠ dataSize then _ else _) = _
    rw [if_neg (not_not.mpr rfl), if_neg (by simp only [List.length_cons]; omega), if_neg (Nat.not_lt.mpr hfits),
      hrecover]
    show (blockCheck block dataSize >>= _) = _
    rw [hfront]
    exact if_neg (not_not.mpr hzero)

end

namespace Recovers
variable {s : VerifySession} {message block block' : List UInt8} {hash hash' : Vector UInt8 32} {dataSize dataSize' :
  Nat}

theorem length (h : Recovers s message hash dataSize block) : dataSize ≤ block.length := by
  obtain ⟨cipher, -, hrecover⟩ := h.recovered
  rw [recover_length hrecover]
  exact h.fits

theorem unique (h : Recovers s message hash dataSize block) (h' : Recovers s message hash' dataSize' block') :
    hash = hash' ∧ dataSize = dataSize' ∧ block = block' := by
  have hcertificate := Option.some.inj (h.certificate.symm.trans h'.certificate)
  obtain rfl : dataSize = dataSize' := congrArg RemoteCertificate.modulusLength hcertificate
  obtain ⟨cipher, hcipher, hrecover⟩ := h.recovered
  obtain ⟨cipher', hcipher', hrecover'⟩ := h'.recovered
  obtain rfl := Option.some.inj (hcipher.symm.trans hcipher')
  exact ⟨Except.ok.inj (h.hash.symm.trans h'.hash), rfl, Except.ok.inj (hrecover.symm.trans hrecover')⟩

/-- The two comparisons of a recovered block. --/
theorem sum_zero_iff (h : Recovers s message hash dataSize block) :
    (∀ memcmp, RightSign memcmp →
      memcmp (digestInfo block dataSize) oidSha256 + memcmp (recoveredHash block dataSize) hash.toList = 0 →
        digestInfo block dataSize = oidSha256 ∧ recoveredHash block dataSize = hash.toList) ↔
      ¬Cancels hash dataSize block := by
  have hlength := h.length
  obtain ⟨hlong, -⟩ := blockCheck_ok h.front hlength
  refine CertificateVerify.sum_zero_iff ?_ ?_
  · unfold digestInfo signatureLength
    rw [List.length_take, List.length_drop, show oidSha256.length = 19 from rfl]
    omega
  · unfold recoveredHash signatureLength
    rw [List.length_take, List.length_drop, Vector.length_toList]
    omega

end Recovers

/-- With every MEMCMP of the right signs, only the right block is accepted and nothing is read outside of the message,
exactly where the two comparisons cannot cancel out. --/
theorem certificate_verify_iff (s : VerifySession) (message : List UInt8) :
    (∀ memcmp, RightSign memcmp → processCertificateVerify memcmp s message ≠ .error .readOutside ∧
      (processCertificateVerify memcmp s message = .ok () →
        ∃ hash dataSize block, Recovers s message hash dataSize block ∧ RightBlock hash dataSize block)) ↔
      ∀ hash dataSize block, Recovers s message hash dataSize block → ¬Cancels hash dataSize block := by
  constructor
  · intro hall hash dataSize block hrecovers hcancels
    refine (hrecovers.sum_zero_iff.mp fun memcmp hmemcmp hzero => ?_) hcancels
    obtain ⟨hash', dataSize', block', hrecovers', hright⟩ :=
      (hall memcmp hmemcmp).2 (process_ok_iff.mpr ⟨hash, dataSize, block, hrecovers, hzero⟩)
    obtain ⟨rfl, rfl, rfl⟩ := hrecovers.unique hrecovers'
    exact (rightBlock_iff hrecovers.front hrecovers.length).mp hright
  · intro hnot memcmp hmemcmp
    refine ⟨process_inside, fun hok => ?_⟩
    obtain ⟨hash, dataSize, block, hrecovers, hzero⟩ := process_ok_iff.mp hok
    have hparts := hrecovers.sum_zero_iff.mpr (hnot hash dataSize block hrecovers) memcmp hmemcmp hzero
    exact ⟨hash, dataSize, block, hrecovers, (rightBlock_iff hrecovers.front hrecovers.length).mpr hparts⟩

/-! ### A block that is accepted -/

/-- A block of 64 octets with 31 for the first octet of the DigestInfo, and a hash of zeros. --/
def wrongBlock : List UInt8 := 0 :: 1 :: (List.replicate 10 0xFF ++ 0 :: 0x31 ::
    (oidSha256.tail ++ List.replicate 32 0))

def wrongBuffer : Vector UInt8 signatureSize := ⟨(wrongBlock ++ List.replicate 536 0).toArray, by decide +kernel⟩

/-- The transcript hash is all ones. --/
def wrongSession : VerifySession where
  remoteCertificate := some ⟨64, false⟩
  cryptoMethods := some ⟨none, some fun _ => (0, wrongBuffer), none⟩
  handshakeHash := .ok (Vector.replicate 32 1)

def wrongMessage : List UInt8 := 4 :: 1 :: 0 :: 64 :: List.replicate 64 7

theorem wrongMessage_recovers :
    Recovers wrongSession wrongMessage (Vector.replicate 32 1) 64 (wrongBlock ++ List.replicate 536 0) where
  certificate := rfl
  hash := rfl
  header := ⟨0, 64, List.replicate 64 7, rfl, by decide, by decide⟩
  fits := by decide
  recovered := ⟨_, rfl, by decide +kernel⟩
  front := by decide +kernel

/-- One too high and one too low add up to zero. --/
theorem wrongBlock_accepted : RightSign (unitCompare (-1)) ∧
    processCertificateVerify (unitCompare (-1)) wrongSession wrongMessage = .ok () ∧
    ∀ hash dataSize block, Recovers wrongSession wrongMessage hash dataSize block → ¬RightBlock hash dataSize block :=
      by
  refine ⟨unitCompare_rightSign (by decide), by decide +kernel, fun hash dataSize block hrecovers hright => ?_⟩
  obtain ⟨rfl, rfl, rfl⟩ := wrongMessage_recovers.unique hrecovers
  exact absurd hright (by unfold RightBlock; decide +kernel)

end Netxduo.Tls.CertificateVerify
