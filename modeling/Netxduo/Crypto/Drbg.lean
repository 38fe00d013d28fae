import Netxduo.Crypto.Ccm

/-! The random bit generator of `nx_crypto_drbg.c`: the context, the update, the derivation function and the calls that
    instantiate, reseed and generate. -/

namespace Netxduo
open BlockModes

/-! ### The context -/

/-- What `NX_CRYPTO_METHOD` brings: the length of a key and the cipher under it. --/
structure CryptoMethod where
  keyLength : Nat
  cipher : List UInt8 → BlockCipher
  keyLength_le : keyLength ≤ 32

/-- `nx_crypto_drbg_get_entropy` at its n-th call: the octets it reports for the length requested and the maximum. --/
abbrev EntropySource := Nat → Nat → Nat → Option (List UInt8)

/-- `NX_CRYPTO_DRBG`; the last field counts the calls of the entropy source. --/
structure Drbg where
  hasMethod : Bool
  useDf : Bool
  predictionResistance : Bool
  securityStrength : Nat
  instantiated : Bool
  key : List UInt8
  v : List UInt8
  reseedCounter : Nat
  seedlen : Nat
  buffer : List UInt8
  asked : Nat

inductive DrbgStatus where
  | success
  | ptrError
  | noInstance
  | sizeError
  | entropyError
deriving DecidableEq, Repr

/-- `NX_CRYPTO_DRBG_SEED_BUFFER_LEN` --/
def drbgSeedBufferLen : Nat := 256

/-- `NX_CRYPTO_DRBG_DF_INPUT_OFFSET` --/
def drbgDfInputOffset : Nat := 24

/-- `NX_CRYPTO_DRBG_MAX_ENTROPY_LEN` --/
def drbgMaxEntropyLen : Nat := 125

/-- `NX_CRYPTO_DRBG_MAX_SEED_LIFE` --/
def drbgMaxSeedLife : Nat := 100000

/-- `_nx_crypto_drbg_df_key` --/
def drbgDfKey : List UInt8 := (List.range 32).map UInt8.ofNat

/-- A copy into a buffer, which has to fit. --/
def copyTo (buffer : List UInt8) (i : Nat) (bytes : List UInt8) : Option (List UInt8) :=
  if i + bytes.length ≤ buffer.length then some (writeAt buffer i bytes) else none

/-! ### The update -/

/-- The loop of `_nx_crypto_drbg_ctr_add_one`, from the last octet on; `carry` is the high octet of the result. --/
def drbgCtrCarry : Nat → List UInt8 → List UInt8
  | _, [] => []
  | carry, x :: rest => UInt8.ofNat (carry + x.toNat) :: drbgCtrCarry ((carry + x.toNat) / 256) rest

/-- `_nx_crypto_drbg_ctr_add_one` --/
def drbgCtrAddOne (ctr : List UInt8) : List UInt8 := (drbgCtrCarry 1 ctr.reverse).reverse

/-- The loop of `_nx_crypto_drbg_update`; every round adds a block, so the length bounds the rounds. --/
def drbgUpdateLoop (E : BlockCipher) (seedlen : Nat) : Nat → List UInt8 → List UInt8 → List UInt8
  | 0, _, temp => temp
  | rounds + 1, v, temp =>
    if temp.length < seedlen then
      let v := drbgCtrAddOne v
      drbgUpdateLoop E seedlen rounds v (temp ++ E.encrypt v)
    else temp

/-- `_nx_crypto_drbg_update` --/
def drbgUpdate (M : CryptoMethod) (d : Drbg) (providedData : Option (List UInt8)) : Drbg :=
  let temp := drbgUpdateLoop (M.cipher (d.key.take M.keyLength)) d.seedlen d.seedlen d.v []
  let temp := providedData.elim temp fun data => xor (temp.take d.seedlen) data ++ temp.drop d.seedlen
  { d with
    key := writeAt d.key 0 (temp.take M.keyLength)
    v := (temp.drop M.keyLength).take 16 }

/-! ### The derivation function -/

/-- The chained code of `_nx_crypto_drbg_block_cipher_df` over the first `sLen` octets of the buffer. --/
def drbgBcc (E : BlockCipher) (buffer : List UInt8) (sLen : Nat) : Nat → Nat → List UInt8 → List UInt8
  | 0, _, chain => chain
  | rounds + 1, i, chain =>
    if i < sLen then drbgBcc E buffer sLen rounds (i + 16) (E.encrypt (xor chain ((buffer.drop i).take 16))) else chain

/-- The first loop of `_nx_crypto_drbg_block_cipher_df`. --/
def drbgDfTemp (E : BlockCipher) (seedlen sLen : Nat) : Nat → List UInt8 → List UInt8 → List UInt8 × List UInt8
  | 0, buffer, temp => (buffer, temp)
  | rounds + 1, buffer, temp =>
    if temp.length < seedlen then
      let chain := drbgBcc E buffer sLen sLen 0 (List.replicate 16 0)
      drbgDfTemp E seedlen sLen rounds (buffer.set 3 (buffer.getD 3 0 + 1)) (temp ++ chain)
    else (buffer, temp)

/-- The last loop of `_nx_crypto_drbg_block_cipher_df`. --/
def drbgDfOutput (E : BlockCipher) (outputLen : Nat) : Nat → List UInt8 → List UInt8 → List UInt8
  | 0, _, output => output
  | rounds + 1, s, output =>
    if output.length < outputLen then
      let block := E.encrypt s
      let output :=
        if outputLen - output.length < 16 then output ++ block.take (outputLen - output.length) else output ++ block
      drbgDfOutput E outputLen rounds block output
    else output

/-- `_nx_crypto_drbg_block_cipher_df`: the output, and the buffer. --/
def drbgBlockCipherDf (M : CryptoMethod) (d : Drbg) (inputLen outputLen : Nat) : Option (List UInt8 × Drbg) :=
  let buffer := writeAt d.buffer 0 (List.replicate 16 0)
  let buffer := writeAt buffer 16 (bigEndian 4 inputLen ++ bigEndian 4 outputLen)
  (copyTo buffer (16 + (inputLen + 8)) [0x80]).bind fun buffer =>
    let sLen := 16 + inputLen + 8 + 1
    let fill := if sLen % 16 ≠ 0 then 16 - sLen % 16 else 0
    (copyTo buffer sLen (List.replicate fill 0)).bind fun buffer =>
      let sLen := sLen + fill
      let filled := drbgDfTemp (M.cipher (drbgDfKey.take M.keyLength)) d.seedlen sLen d.seedlen buffer []
      let temp := filled.2
      let output := drbgDfOutput (M.cipher (temp.take M.keyLength)) outputLen outputLen
        ((temp.drop M.keyLength).take 16) []
      some (output, { d with buffer := filled.1 })

/-! ### Instantiate, reseed and generate -/

/-- The seed of `_nx_crypto_drbg_instantiate` and `_nx_crypto_drbg_reseed`: entropy, `nonce` and `input` through the
    derivation function, or entropy added to `input`. `none` stands for a copy past the end of the buffer. --/
def drbgSeed (M : CryptoMethod) (source : EntropySource) (d : Drbg) (nonce input : List UInt8) (maximum : Nat) :
    Option (Except DrbgStatus (List UInt8) × Drbg) :=
  if d.useDf then
    if (d.securityStrength + nonce.length + input.length + drbgDfInputOffset) % 2 ^ 32 ≥ drbgSeedBufferLen then
      some (.error .sizeError, d)
    else
      (source d.asked d.securityStrength drbgMaxEntropyLen).elim
        (some (.error .entropyError, { d with asked := d.asked + 1 }))
        fun entropy =>
          (copyTo d.buffer drbgDfInputOffset entropy).bind fun buffer =>
            (copyTo buffer (drbgDfInputOffset + entropy.length) nonce).bind fun buffer =>
              (copyTo buffer (drbgDfInputOffset + entropy.length + nonce.length) input).bind fun buffer =>
                (drbgBlockCipherDf M { d with buffer := buffer, asked := d.asked + 1 }
                  (entropy.length + nonce.length + input.length) d.seedlen).map fun r => (.ok r.1, r.2)
  else if input.length > d.seedlen then some (.error .sizeError, d)
  else
    let seedMaterial := input ++ List.replicate (d.seedlen - input.length) 0
    (source d.asked d.seedlen maximum).elim (some (.error .entropyError, { d with asked := d.asked + 1 }))
      fun entropy =>
        (copyTo d.buffer 0 entropy).map fun buffer =>
          (.ok (xor seedMaterial (buffer.take d.seedlen)), { d with buffer := buffer, asked := d.asked + 1 })

/-- `_nx_crypto_drbg_instantiate` --/
def drbgInstantiate (M : CryptoMethod) (source : EntropySource) (d : Drbg) (nonce personalization : List UInt8) :
    Option (DrbgStatus × Drbg) :=
  if d.hasMethod = false then some (.ptrError, d)
  else
    let d := { d with seedlen := 16 + M.keyLength }
    (drbgSeed M source d nonce personalization d.seedlen).map fun r =>
      match r with
      | (.error status, d) => (status, d)
      | (.ok seedMaterial, d) =>
        let d := drbgUpdate M { d with key := List.replicate 32 0, v := List.replicate 16 0 } (some seedMaterial)
        (.success, { d with reseedCounter := 1, instantiated := true })

/-- `_nx_crypto_drbg_reseed` --/
def drbgReseed (M : CryptoMethod) (source : EntropySource) (d : Drbg) (additional : List UInt8) :
    Option (DrbgStatus × Drbg) :=
  if d.instantiated = false then some (.noInstance, d)
  else
    (drbgSeed M source d [] additional drbgMaxEntropyLen).map fun r =>
      match r with
      | (.error status, d) => (status, d)
      | (.ok seedMaterial, d) => (.success, { drbgUpdate M d (some seedMaterial) with reseedCounter := 1 })

/-- The loop of `_nx_crypto_drbg_generate`; `tempLen` has 32 bits. --/
def drbgGenerateLoop (E : BlockCipher) (outputLen : Nat) :
    Nat → Nat → List UInt8 → List UInt8 → Option (List UInt8 × List UInt8)
  | 0, _, _, _ => none
  | fuel + 1, tempLen, v, output =>
    if tempLen < outputLen then
      let v := drbgCtrAddOne v
      let block := E.encrypt v
      let block := if outputLen - tempLen < 16 then block.take (outputLen - tempLen) else block
      drbgGenerateLoop E outputLen fuel ((tempLen + 16) % 2 ^ 32) v (output.take tempLen ++ block)
    else some (output, v)

/-- The additional input of `_nx_crypto_drbg_generate`, made ready for the update. --/
def drbgAddition (M : CryptoMethod) (d : Drbg) (additional : List UInt8) :
    Option (Except DrbgStatus (Option (List UInt8)) × Drbg) :=
  if d.useDf then
    if (additional.length + drbgDfInputOffset) % 2 ^ 32 ≥ drbgSeedBufferLen then some (.error .sizeError, d)
    else if additional.length > 0 then
      (copyTo d.buffer drbgDfInputOffset additional).bind fun buffer =>
        (drbgBlockCipherDf M { d with buffer := buffer } additional.length d.seedlen).map fun r => (.ok (some r.1), r.2)
    else some (.ok none, d)
  else if additional.length > d.seedlen then some (.error .sizeError, d)
  else if additional.length > 0 then
    some (.ok (some (additional ++ List.replicate (d.seedlen - additional.length) 0)), d)
  else some (.ok none, d)

/-- `_nx_crypto_drbg_generate` after the reseed. --/
def drbgGenerateOutput (fuel : Nat) (M : CryptoMethod) (d : Drbg) (outputLen : Nat) (additional : List UInt8) :
    Option (DrbgStatus × List UInt8 × Drbg) :=
  (drbgAddition M d additional).bind fun r =>
    match r with
    | (.error status, d) => some (status, [], d)
    | (.ok addition, d) =>
      let d := addition.elim d fun data => drbgUpdate M d (some data)
      (drbgGenerateLoop (M.cipher (d.key.take M.keyLength)) outputLen fuel 0 d.v []).map fun r =>
        let d := drbgUpdate M { d with v := r.2 } addition
        (.success, r.1, { d with reseedCounter := d.reseedCounter + 1 })

/-- `_nx_crypto_drbg_generate` --/
def drbgGenerate (fuel : Nat) (M : CryptoMethod) (source : EntropySource) (d : Drbg) (outputLen : Nat)
    (additional : List UInt8) : Option (DrbgStatus × List UInt8 × Drbg) :=
  if d.instantiated = false then some (.noInstance, [], d)
  else if d.reseedCounter > drbgMaxSeedLife ∨ d.predictionResistance = true then
    (drbgReseed M source d additional).bind fun r =>
      if r.1 ≠ .success then some (r.1, [], r.2) else drbgGenerateOutput fuel M r.2 outputLen []
  else drbgGenerateOutput fuel M d outputLen additional

end Netxduo
