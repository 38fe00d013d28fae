import Netxduo.Library.BlockModes

/-! Counter mode with the chained code, `nx_crypto_ccm.c`: the context, the loops over a text and the calls that start a
    message, take pieces of it and end it. -/

namespace Netxduo
open BlockModes

/-! ### Buffers and the counter -/

/-- The octets of `bytes` copied over those of a buffer from `i` on. --/
def writeAt (buffer : List UInt8) (i : Nat) (bytes : List UInt8) : List UInt8 :=
  buffer.take i ++ bytes ++ buffer.drop (i + bytes.length)

/-- The first octet of the counter in `A`. --/
def ccmCounterFirst (A : List UInt8) : Nat := 15 - (A.getD 0 0 &&& 0x07).toNat

/-- The loop of `_nx_crypto_ccm_counter_increment`; the argument is one more than the index. --/
def ccmCounterCarry (first : Nat) (A : List UInt8) : Nat → List UInt8
  | 0 => A
  | i + 1 =>
    if i < first then A
    else
      let A := A.set i (A.getD i 0 + 1)
      if A.getD i 0 ≠ 0 then A else ccmCounterCarry first A i

/-- `_nx_crypto_ccm_counter_increment`. --/
def ccmCounterIncrement (A : List UInt8) : List UInt8 := ccmCounterCarry (ccmCounterFirst A) A 16

/-- `_nx_crypto_ccm_counter_zero`. --/
def ccmCounterZero (A : List UInt8) : List UInt8 :=
  writeAt A (ccmCounterFirst A) (List.replicate (16 - ccmCounterFirst A) 0)

/-! ### The chained code -/

/-- The loop of `_nx_crypto_ccm_cbc_pad`; `i` has 32 bits. --/
def ccmCbcPadLoop (E : BlockCipher) (input : List UInt8) (length : Nat) : Nat → Nat → List UInt8 → Option (List UInt8)
  | 0, _, _ => none
  | fuel + 1, i, lastCipher =>
    if i < length then
      let output :=
        if length - i < 16 then
          xor ((input.drop i).take (length - i) ++ List.replicate (16 - (length - i)) 0) lastCipher
        else xor ((input.drop i).take 16) lastCipher
      ccmCbcPadLoop E input length fuel ((i + 16) % 2 ^ 32) (E.encrypt output)
    else some lastCipher

/-- `_nx_crypto_ccm_cbc_pad`. --/
def ccmCbcPad (fuel : Nat) (E : BlockCipher) (input : List UInt8) (length : Nat) (iv : List UInt8) :
    Option (List UInt8) :=
  ccmCbcPadLoop E input length fuel 0 iv

/-- The block B(0) = Flags||Nonce||l(m) of `_nx_crypto_ccm_authentication_init`. --/
def ccmFirstBlock (aLen mLen : Nat) (nonce : List UInt8) (L M : Nat) : List UInt8 :=
  let flags : UInt8 := if aLen > 0 then UInt8.ofNat (1 <<< 6) else 0
  let flags := flags ||| UInt8.ofNat (((M - 2) >>> 1) <<< 3)
  let flags := flags ||| UInt8.ofNat (L - 1)
  let B := (List.replicate 16 0).set 0 flags
  let B := writeAt B 1 (nonce.take (15 - L))
  let B := B.set 14 (UInt8.ofNat (mLen >>> 8))
  B.set 15 (UInt8.ofNat mLen)

/-- The length of the additional data at the head of B(1), and how many octets it takes. --/
def ccmLengthOctets (aLen : Nat) : List UInt8 :=
  if aLen < 0xFF00 then [UInt8.ofNat (aLen >>> 8), UInt8.ofNat aLen]
  else [0xFF, 0xFE, UInt8.ofNat (aLen >>> 24), UInt8.ofNat (aLen >>> 16), UInt8.ofNat (aLen >>> 8), UInt8.ofNat aLen]

/-- `_nx_crypto_ccm_authentication_init`. --/
def ccmAuthenticationInit (fuel : Nat) (E : BlockCipher) (aData : List UInt8) (aLen mLen : Nat) (nonce : List UInt8)
    (L M : Nat) : Option (List UInt8) :=
  let B := ccmFirstBlock aLen mLen nonce L M
  (ccmCbcPad fuel E B 16 (List.replicate 16 0)).bind fun X =>
    if aLen > 0 then
      let lenSize := (ccmLengthOctets aLen).length
      let B := writeAt B 0 (ccmLengthOctets aLen)
      let tempLen := if aLen > 16 - lenSize then 16 - lenSize else aLen
      let B := writeAt B lenSize (aData.take tempLen)
      (ccmCbcPad fuel E B (tempLen + lenSize) X).bind fun X =>
        if aLen > tempLen then ccmCbcPad fuel E (aData.drop tempLen) (aLen - tempLen) X else some X
    else some X

/-! ### The calls -/

inductive CcmStatus
  | success
  | ptrError
  | authenticationFailed
deriving DecidableEq, Repr

inductive CcmOp
  | encryptUpdate
  | decryptUpdate
deriving DecidableEq, Repr

/-- `NX_CRYPTO_CCM`, less the fields these calls do not use. --/
structure Ccm where
  icvLength : Nat
  A : List UInt8
  X : List UInt8
deriving DecidableEq, Repr

/-- `_nx_crypto_ccm_encrypt_init`, which decryption uses too. --/
def ccmEncryptInit (fuel : Nat) (E : BlockCipher) (ccm : Ccm) (additionalData : List UInt8)
    (additionalLen length : Nat) (iv : List UInt8) (icvLen blockSize : Nat) : Option (CcmStatus × Ccm) :=
  let L := (15 - iv.getD 0 0).toNat
  let nonce := iv.drop 1
  if blockSize ≠ 16 ∨ iv.getD 0 0 > 13 ∨ iv.getD 0 0 < 7 then some (.ptrError, ccm)
  else
    let X :=
      if icvLen > 0 then ccmAuthenticationInit fuel E additionalData additionalLen length nonce L icvLen
      else some ccm.X
    X.map fun X =>
      let A := (List.replicate 16 0).set 0 (UInt8.ofNat (L - 1))
      (.success, ⟨icvLen, writeAt A 1 (nonce.take (15 - L)), X⟩)

/-- The loop of `_nx_crypto_ccm_encrypt_update` that adds the key stream; `i` has 32 bits. --/
def ccmUpdateLoop (E : BlockCipher) (input : List UInt8) (length : Nat) :
    Nat → Nat → List UInt8 → List UInt8 → Option (List UInt8 × List UInt8)
  | 0, _, _, _ => none
  | fuel + 1, i, A, output =>
    if i < length then
      let A := ccmCounterIncrement A
      let X := E.encrypt A
      ccmUpdateLoop E input length fuel ((i + 16) % 2 ^ 32) A (writeAt output i (xor X ((input.take length).drop i)))
    else some (A, output)

/-- `_nx_crypto_ccm_encrypt_update`, which decryption uses too: it authenticates the input when it encrypts and the
    output when it decrypts. --/
def ccmEncryptUpdate (op : CcmOp) (fuel : Nat) (E : BlockCipher) (ccm : Ccm) (input output : List UInt8)
    (length blockSize : Nat) : Option (CcmStatus × Ccm × List UInt8) :=
  if blockSize ≠ 16 then some (.ptrError, ccm, output)
  else
    let before :=
      if op = .encryptUpdate ∧ ccm.icvLength > 0 then ccmCbcPad fuel E input length ccm.X else some ccm.X
    before.bind fun X =>
      let stream := if length > 0 then ccmUpdateLoop E input length fuel 0 ccm.A output else some (ccm.A, output)
      stream.bind fun r =>
        let after := if op = .decryptUpdate ∧ ccm.icvLength > 0 then ccmCbcPad fuel E r.2 length X else some X
        after.map fun X => (.success, { ccm with A := r.1, X := X }, r.2)

/-- `_nx_crypto_ccm_encrypt_calculate`. --/
def ccmEncryptCalculate (E : BlockCipher) (ccm : Ccm) (icv : List UInt8) (blockSize : Nat) :
    CcmStatus × Ccm × List UInt8 :=
  if blockSize ≠ 16 then (.ptrError, ccm, icv)
  else if ccm.icvLength > 0 then
    let icv := writeAt icv 0 (ccm.X.take ccm.icvLength)
    let A := E.encrypt (ccmCounterZero ccm.A)
    let icv := writeAt icv 0 (xor (A.take ccm.icvLength) icv)
    (.success, { ccm with A := A }, icv)
  else (.success, ccm, icv)

/-- `_nx_crypto_ccm_decrypt_calculate`. --/
def ccmDecryptCalculate (E : BlockCipher) (ccm : Ccm) (icv : List UInt8) (blockSize : Nat) : CcmStatus :=
  if blockSize ≠ 16 then .ptrError
  else if ccm.icvLength > 0 then
    let temp := E.encrypt (ccmCounterZero ccm.A)
    let temp := writeAt temp 0 (xor (temp.take ccm.icvLength) icv)
    if temp.take ccm.icvLength ≠ ccm.X.take ccm.icvLength then .authenticationFailed else .success
  else .success

/-! ### A message in pieces -/

/-- A piece of a message and the buffer its output goes to, which may be the piece itself. --/
structure CcmPiece where
  input : List UInt8
  output : List UInt8
  length_output : output.length = input.length

/-- One update for every piece; the outputs piece by piece. --/
def ccmUpdates (op : CcmOp) (fuel : Nat) (E : BlockCipher) : List CcmPiece → Ccm → Option (Ccm × List (List UInt8))
  | [], ccm => some (ccm, [])
  | p :: rest, ccm =>
    (ccmEncryptUpdate op fuel E ccm p.input p.output p.input.length 16).bind fun r =>
      (ccmUpdates op fuel E rest r.2.1).map fun q => (q.1, r.2.2 :: q.2)

/-- The calls up to the last update, for a message of `length` octets: a failed start is not followed by anything. --/
def ccmStream (op : CcmOp) (fuel : Nat) (E : BlockCipher) (ccm : Ccm) (additionalData : List UInt8) (length : Nat)
    (iv : List UInt8) (icvLen : Nat) (pieces : List CcmPiece) : Option (Ccm × List (List UInt8)) :=
  (ccmEncryptInit fuel E ccm additionalData additionalData.length length iv icvLen 16).bind fun r =>
    if r.1 = .success then ccmUpdates op fuel E pieces r.2 else none

/-- A whole encryption: the outputs and the buffer of the tag. --/
def ccmEncrypt (fuel : Nat) (E : BlockCipher) (ccm : Ccm) (additionalData : List UInt8) (length : Nat)
    (iv : List UInt8) (icvLen : Nat) (pieces : List CcmPiece) (icv : List UInt8) :
    Option (List (List UInt8) × List UInt8) :=
  (ccmStream .encryptUpdate fuel E ccm additionalData length iv icvLen pieces).map fun r =>
    (r.2, (ccmEncryptCalculate E r.1 icv 16).2.2)

/-- A whole decryption: the outputs and the answer about the tag. --/
def ccmDecrypt (fuel : Nat) (E : BlockCipher) (ccm : Ccm) (additionalData : List UInt8) (length : Nat)
    (iv : List UInt8) (icvLen : Nat) (pieces : List CcmPiece) (icv : List UInt8) :
    Option (List (List UInt8) × CcmStatus) :=
  (ccmStream .decryptUpdate fuel E ccm additionalData length iv icvLen pieces).map fun r =>
    (r.2, ccmDecryptCalculate E r.1 icv 16)

end Netxduo
