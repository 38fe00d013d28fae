import Mathlib.Algebra.BigOperators.Group.List.Basic
import Mathlib.Tactic.Ring
import Netxduo.Library.BlockHash
import Netxduo.Library.BlockModes

/-! MD5, SHA-1 and SHA-2 from call to call: the digest of a message that comes in pieces is that of the whole
    message. -/

namespace Netxduo.Crypto.Hash

open BlockHash BlockModes

/-! ### The source -/

/-- What the hash methods differ in: the size of a word and of a block, the order of the octets in a word, the words
    the state starts with, how much of it is the digest, and how a block is processed. --/
structure Method where
  wordBits : Nat
  blockSize : Nat
  highFirst : Bool
  initial : List Nat
  digestSize : Nat
  processBuffer : List Nat → List UInt8 → List Nat
  sizes : wordBits = 32 ∧ blockSize = 64 ∨ wordBits = 64 ∧ blockSize = 128
  digestSize_le : digestSize ≤ blockSize
  words : ∀ states block, (processBuffer states block).length = states.length
  digestSize_words : digestSize ≤ initial.length * (wordBits / 8)

/-- `NX_CRYPTO_MD5`, `NX_CRYPTO_SHA1`, `NX_CRYPTO_SHA256` and `NX_CRYPTO_SHA512`, less the words of the block that is
    processed. --/
structure Context where
  bitCount0 : Nat
  bitCount1 : Nat
  states : List Nat
  buffer : List UInt8

def Method.wordOctets (h : Method) (word : Nat) : List UInt8 :=
  if h.highFirst then bigEndian (h.wordBits / 8) word else (bigEndian (h.wordBits / 8) word).reverse

def Method.hashInitialize (h : Method) (buffer : List UInt8) : Context := ⟨0, 0, h.initial, buffer⟩

def copyTo (buffer : List UInt8) (offset : Nat) (data : List UInt8) : List UInt8 :=
  buffer.take offset ++ data ++ buffer.drop (offset + data.length)

/-- The octets in the buffer; the source has a mask for the remainder. --/
def Method.currentBytes (h : Method) (c : Context) : Nat := c.bitCount0 / 8 % h.blockSize

/-- The bits of an input, in the two words. The input length is of 32 bits, and so is what goes to the lower word. --/
def Method.addBits (h : Method) (inputLength : Nat) (c : Context) : Context :=
  let added := 8 * inputLength % 2 ^ 32
  let bitCount0 := (c.bitCount0 + added) % 2 ^ h.wordBits
  { c with
    bitCount0 := bitCount0
    bitCount1 := (c.bitCount1 + (if bitCount0 < added then 1 else 0) + inputLength / 2 ^ 29) % 2 ^ h.wordBits }

/-- A buffer that is begun is filled up, if there is enough input for that. --/
def Method.fill (h : Method) (current : Nat) (input : List UInt8) (c : Context) : Nat × List UInt8 × Context :=
  if current ≠ 0 ∧ h.blockSize - current ≤ input.length then
    let buffer := copyTo c.buffer current (input.take (h.blockSize - current))
    (0, input.drop (h.blockSize - current), { c with buffer := buffer, states := h.processBuffer c.states buffer })
  else (current, input, c)

/-- The loop over whole blocks of input. --/
def Method.wholeBlocks (h : Method) : Nat → List UInt8 → List Nat → List UInt8 × List Nat
  | 0, input, states => (input, states)
  | rounds + 1, input, states =>
    if h.blockSize ≤ input.length then
      h.wholeBlocks rounds (input.drop h.blockSize) (h.processBuffer states (input.take h.blockSize))
    else (input, states)

def Method.update (h : Method) (input : List UInt8) (c : Context) : Context :=
  if input.length = 0 then c
  else
    let (current, input', c') := h.fill (h.currentBytes c) input (h.addBits input.length c)
    let (rest, states) := h.wholeBlocks input'.length input' c'.states
    { c' with
      states := states
      buffer := if rest.length ≠ 0 then copyTo c'.buffer current rest else c'.buffer }

/-- The first octet of padding, and zeros. --/
def Method.paddingArray (h : Method) : List UInt8 := 0x80 :: List.replicate (h.blockSize - 1) 0

/-- The room in a block in front of the length: 56 or 112 octets. --/
def Method.room (h : Method) : Nat := h.blockSize - h.wordBits / 4

def Method.paddingBytes (h : Method) (current : Nat) : Nat :=
  if current < h.room then h.room - current else h.room + h.blockSize - current

def Method.bitCountString (h : Method) (c : Context) : List UInt8 :=
  if h.highFirst then h.wordOctets c.bitCount1 ++ h.wordOctets c.bitCount0
  else h.wordOctets c.bitCount0 ++ h.wordOctets c.bitCount1

/-- The context after the padding and the length. --/
def Method.finish (h : Method) (c : Context) : Context :=
  h.update (h.bitCountString c) (h.update (h.paddingArray.take (h.paddingBytes (h.currentBytes c))) c)

def Method.digestCalculate (h : Method) (c : Context) : List UInt8 :=
  ((h.finish c).states.flatMap h.wordOctets).take h.digestSize

section
variable (processBuffer : List Nat → List UInt8 → List Nat)
  (words : ∀ states block, (processBuffer states block).length = states.length)

/-- `_nx_crypto_md5_initialize`, `_nx_crypto_md5_update`, `_nx_crypto_md5_digest_calculate` --/
def md5 : Method where
  wordBits := 32
  blockSize := 64
  highFirst := false
  initial := [0x67452301, 0xEFCDAB89, 0x98BADCFE, 0x10325476]
  digestSize := 16
  processBuffer := processBuffer
  sizes := .inl ⟨rfl, rfl⟩
  digestSize_le := by decide
  words := words
  digestSize_words := by decide

/-- `_nx_crypto_sha1_initialize`, `_nx_crypto_sha1_update`, `_nx_crypto_sha1_digest_calculate` --/
def sha1 : Method where
  wordBits := 32
  blockSize := 64
  highFirst := true
  initial := [0x67452301, 0xEFCDAB89, 0x98BADCFE, 0x10325476, 0xC3D2E1F0]
  digestSize := 20
  processBuffer := processBuffer
  sizes := .inl ⟨rfl, rfl⟩
  digestSize_le := by decide
  words := words
  digestSize_words := by decide

/-- `_nx_crypto_sha256_initialize`, `_nx_crypto_sha256_update`, `_nx_crypto_sha256_digest_calculate` --/
def sha256 : Method where
  wordBits := 32
  blockSize := 64
  highFirst := true
  initial := [0x6a09e667, 0xbb67ae85, 0x3c6ef372, 0xa54ff53a, 0x510e527f, 0x9b05688c, 0x1f83d9ab, 0x5be0cd19]
  digestSize := 32
  processBuffer := processBuffer
  sizes := .inl ⟨rfl, rfl⟩
  digestSize_le := by decide
  words := words
  digestSize_words := by decide

/-- The same, for SHA-224. --/
def sha224 : Method :=
  { sha256 processBuffer words with
    initial := [0xc1059ed8, 0x367cd507, 0x3070dd17, 0xf70e5939, 0xffc00b31, 0x68581511, 0x64f98fa7, 0xbefa4fa4]
    digestSize := 28
    digestSize_le := by simp [sha256]
    digestSize_words := by simp [sha256] }

/-- `_nx_crypto_sha512_initialize`, `_nx_crypto_sha512_update`, `_nx_crypto_sha512_digest_calculate` --/
def sha512 : Method where
  wordBits := 64
  blockSize := 128
  highFirst := true
  initial := [0x6a09e667f3bcc908, 0xbb67ae8584caa73b, 0x3c6ef372fe94f82b, 0xa54ff53a5f1d36f1, 0x510e527fade682d1,
    0x9b05688c2b3e6c1f, 0x1f83d9abfb41bd6b, 0x5be0cd19137e2179]
  digestSize := 64
  processBuffer := processBuffer
  sizes := .inr ⟨rfl, rfl⟩
  digestSize_le := by decide
  words := words
  digestSize_words := by decide

/-- The same, for SHA-384. --/
def sha384 : Method :=
  { sha512 processBuffer words with
    initial := [0xcbbb9d5dc1059ed8, 0x629a292a367cd507, 0x9159015a3070dd17, 0x152fecd8f70e5939, 0x67332667ffc00b31,
      0x8eb44a8768581511, 0xdb0c2e0d64f98fa7, 0x47b5481dbefa4fa4]
    digestSize := 48
    digestSize_le := by simp [sha512]
    digestSize_words := by simp [sha512] }

/-- The same, for SHA-512/224. --/
def sha512t224 : Method :=
  { sha512 processBuffer words with
    initial := [0x8c3d37c819544da2, 0x73e1996689dcd4d6, 0x1dfab7ae32ff9c82, 0x679dd514582f9fcf, 0x0f6d2b697bd44da8,
      0x77e36f7304c48942, 0x3f9d85a86a1d36c8, 0x1112e6ad91d692a1]
    digestSize := 28
    digestSize_le := by simp [sha512]
    digestSize_words := by simp [sha512] }

/-- The same, for SHA-512/256. --/
def sha512t256 : Method :=
  { sha512 processBuffer words with
    initial := [0x22312194fc2bf72c, 0x9f555fa3c84c64c2, 0x2393b86b6f53b151, 0x963877195940eabd, 0x96283ee2a88effe3,
      0xbe5e1e2553863992, 0x2b0199fc2c85b8aa, 0x0eb72ddc81c52ca2]
    digestSize := 32
    digestSize_le := by simp [sha512]
    digestSize_words := by simp [sha512] }

end

/-! ### The definition -/

/-- A number of bits in the octets of two words. --/
def Method.lengthField (h : Method) (bits : Nat) : List UInt8 :=
  if h.highFirst then bigEndian (h.wordBits / 4) (bits % 2 ^ (2 * h.wordBits))
  else (bigEndian (h.wordBits / 4) (bits % 2 ^ (2 * h.wordBits))).reverse

/-- The octet 0x80, and zeros up to the room for the length. --/
def Method.padding (h : Method) (length : Nat) : List UInt8 :=
  0x80 :: List.replicate (h.paddingBytes (length % h.blockSize) - 1) 0

/-- The digest of a message, with a number of bits for its length field. --/
def Method.digestOf (h : Method) (message : List UInt8) (bits : Nat) : List UInt8 :=
  ((hash h.blockSize h.processBuffer h.initial (message ++ h.padding message.length ++ h.lengthField bits)).flatMap
    h.wordOctets).take h.digestSize

/-! ### Sizes -/

theorem length_wordOctets (h : Method) (word : Nat) : (h.wordOctets word).length = h.wordBits / 8 := by
  unfold Method.wordOctets
  split
  · exact length_bigEndian ..
  · rw [List.length_reverse, length_bigEndian]

theorem length_foldl (h : Method) (bs : List (List UInt8)) (states : List Nat) :
    (bs.foldl h.processBuffer states).length = states.length := by
  induction bs generalizing states with
  | nil => rfl
  | cons b bs ih => rw [List.foldl_cons, ih, h.words]

theorem length_digestOf (h : Method) (message : List UInt8) (bits : Nat) :
    (h.digestOf message bits).length = h.digestSize := by
  have hoctets : ∀ states : List Nat, (states.flatMap h.wordOctets).length = states.length * (h.wordBits / 8) := by
    intro states
    induction states with
    | nil => simp
    | cons word states ih =>
      rw [List.flatMap_cons, List.length_append, ih, length_wordOctets, List.length_cons, Nat.succ_mul, Nat.add_comm]
  unfold Method.digestOf
  rw [List.length_take, hoctets]
  unfold BlockHash.hash
  rw [length_foldl]
  exact Nat.min_eq_left h.digestSize_words

/-! ### Octets of numbers -/

theorem bigEndian_add (k j n : Nat) : bigEndian (k + j) n = bigEndian k (n / 256 ^ j) ++ bigEndian j n := by
  induction j generalizing n with
  | zero => simp [bigEndian]
  | succ j ih =>
    rw [← Nat.add_assoc, bigEndian, ih, bigEndian, List.append_assoc, Nat.div_div_eq_div_mul, Nat.pow_succ']

theorem bigEndian_mod (j n : Nat) : bigEndian j (n % 256 ^ j) = bigEndian j n := by
  induction j generalizing n with
  | zero => rfl
  | succ j ih =>
    have hlow : UInt8.ofNat (n % 256 ^ (j + 1)) = UInt8.ofNat n := by
      refine UInt8.toNat_inj.mp ?_
      rw [UInt8.toNat_ofNat', UInt8.toNat_ofNat']
      exact Nat.mod_mod_of_dvd n (Dvd.intro_left (256 ^ j) rfl)
    rw [bigEndian, bigEndian, hlow, Nat.pow_succ', Nat.mod_mul_right_div_self, ih]

section
variable {h : Method} {c : Context} {message input : List UInt8} {total : Nat}

theorem Method.word_pow (h : Method) : 2 ^ h.wordBits = 256 ^ (h.wordBits / 8) := by
  obtain ⟨hw, -⟩ | ⟨hw, -⟩ := h.sizes <;> rw [hw] <;> norm_num

/-- The count in two words is the length field of the number they make up. --/
theorem bitCountString_eq (hlow : c.bitCount0 < 2 ^ h.wordBits)
    (htotal : c.bitCount1 * 2 ^ h.wordBits + c.bitCount0 = total % 2 ^ (2 * h.wordBits)) :
    h.bitCountString c = h.lengthField total := by
  have hsize : h.wordBits / 4 = h.wordBits / 8 + h.wordBits / 8 := by
    obtain ⟨hw, -⟩ | ⟨hw, -⟩ := h.sizes <;> rw [hw]
  have hdiv : (c.bitCount1 * 2 ^ h.wordBits + c.bitCount0) / 256 ^ (h.wordBits / 8) = c.bitCount1 := by
    rw [← h.word_pow, Nat.mul_comm, Nat.mul_add_div (Nat.two_pow_pos _), Nat.div_eq_of_lt hlow, Nat.add_zero]
  have hmod : bigEndian (h.wordBits / 8) (c.bitCount1 * 2 ^ h.wordBits + c.bitCount0) =
      bigEndian (h.wordBits / 8) c.bitCount0 := by
    rw [← bigEndian_mod, ← h.word_pow, Nat.mul_comm, Nat.mul_add_mod, Nat.mod_eq_of_lt hlow]
  unfold Method.bitCountString Method.lengthField Method.wordOctets
  rw [← htotal, hsize, bigEndian_add, hdiv, hmod]
  cases h.highFirst
  · simp
  · simp

/-! ### Counting -/

/-- The bits that the two words are increased by for an input. --/
def Method.bits (h : Method) (inputLength : Nat) : Nat :=
  8 * inputLength % 2 ^ 32 + inputLength / 2 ^ 29 * 2 ^ h.wordBits

/-- A sum in two words, with the carry. --/
theorem two_words {w high low added k : Nat} (hlow : low < w) (hadded : added < w) :
    (high + (if (low + added) % w < added then 1 else 0) + k) % w * w + (low + added) % w =
      (high * w + low + (added + k * w)) % (w * w) := by
  have hw : 0 < w := Nat.lt_of_le_of_lt (Nat.zero_le _) hlow
  have hlast : (low + added) % w < w := Nat.mod_lt _ hw
  have hsum : (high + (if (low + added) % w < added then 1 else 0) + k) * w + (low + added) % w =
      high * w + low + (added + k * w) := by
    by_cases hcarry : low + added < w
    · rw [Nat.mod_eq_of_lt hcarry, if_neg (by omega), Nat.add_mul, Nat.add_mul]
      omega
    · have hmod : (low + added) % w = low + added - w := by
        rw [Nat.mod_eq_sub_mod (Nat.not_lt.mp hcarry), Nat.mod_eq_of_lt (by omega)]
      rw [hmod, if_pos (by omega), Nat.add_mul, Nat.add_mul]
      omega
  rw [← hsum]
  generalize high + (if (low + added) % w < added then 1 else 0) + k = x
  generalize (low + added) % w = r at hlast
  have hbound : x % w * w + r < w * w := by
    calc _ < x % w * w + w := Nat.add_lt_add_left hlast _
      _ = (x % w + 1) * w := by rw [Nat.add_mul, Nat.one_mul]
      _ ≤ w * w := Nat.mul_le_mul_right w (Nat.mod_lt x hw)
  calc x % w * w + r = (x % w * w + r) % (w * w) := (Nat.mod_eq_of_lt hbound).symm
    _ = (x * w % (w * w) + r) % (w * w) := by rw [Nat.mul_mod_mul_right]
    _ = (x * w + r) % (w * w) := Nat.mod_add_mod ..

/-! ### What a context holds -/

/-- After a message, with a number of bits, that is right up to the bits that do not fit into the lower word. --/
structure Follows (h : Method) (c : Context) (message : List UInt8) (total : Nat) : Prop where
  absorbed : Absorbed h.blockSize h.processBuffer h.initial message c.states
    (c.buffer.take (message.length % h.blockSize))
  buffer : c.buffer.length = h.blockSize
  low : c.bitCount0 < 2 ^ h.wordBits
  count : c.bitCount1 * 2 ^ h.wordBits + c.bitCount0 = total % 2 ^ (2 * h.wordBits)
  bits : total % 2 ^ 32 = 8 * message.length % 2 ^ 32

theorem Method.blockSize_pos (h : Method) : 0 < h.blockSize := by
  obtain ⟨-, hb⟩ | ⟨-, hb⟩ := h.sizes <;> rw [hb] <;> decide

/-- The count tells how much is in the buffer. --/
theorem Follows.currentBytes (hf : Follows h c message total) : h.currentBytes c = message.length % h.blockSize := by
  have hbits := hf.bits
  have hcount := hf.count
  unfold Method.currentBytes
  obtain ⟨hw, hb⟩ | ⟨hw, hb⟩ := h.sizes
  · rw [hw] at hcount
    rw [hb]
    omega
  · rw [hw] at hcount
    rw [hb]
    omega

theorem Method.bits_mod (h : Method) (n : Nat) : h.bits n % 2 ^ 32 = 8 * n % 2 ^ 32 := by
  unfold Method.bits
  obtain ⟨hw, -⟩ | ⟨hw, -⟩ := h.sizes <;> rw [hw] <;> omega

theorem addBits_count (hf : Follows h c message total) (n : Nat) :
    (h.addBits n c).bitCount0 < 2 ^ h.wordBits ∧
      (h.addBits n c).bitCount1 * 2 ^ h.wordBits + (h.addBits n c).bitCount0 =
        (total + h.bits n) % 2 ^ (2 * h.wordBits) := by
  have hadded : 8 * n % 2 ^ 32 < 2 ^ h.wordBits := by
    obtain ⟨hw, -⟩ | ⟨hw, -⟩ := h.sizes <;> rw [hw] <;> omega
  have hsquare : 2 ^ (2 * h.wordBits) = 2 ^ h.wordBits * 2 ^ h.wordBits := by rw [Nat.two_mul, Nat.pow_add]
  refine ⟨Nat.mod_lt _ (Nat.two_pow_pos _), ?_⟩
  have hwords := @two_words _ c.bitCount1 _ _ (n / 2 ^ 29) hf.low hadded
  have hcount := hf.count
  rw [hsquare] at hcount ⊢
  rw [hcount] at hwords
  rw [← Nat.mod_add_mod]
  exact hwords

/-! ### An update -/

theorem take_copyTo {buffer data : List UInt8} {offset : Nat} (hfit : offset + data.length ≤ buffer.length) :
    (copyTo buffer offset data).take (offset + data.length) = buffer.take offset ++ data := by
  have htake : (buffer.take offset).length = offset := by
    rw [List.length_take]
    omega
  unfold copyTo
  rw [List.take_left' (by rw [List.length_append, htake])]

theorem length_copyTo {buffer data : List UInt8} {offset : Nat} (hfit : offset + data.length ≤ buffer.length) :
    (copyTo buffer offset data).length = buffer.length := by
  unfold copyTo
  rw [List.length_append, List.length_append, List.length_take, List.length_drop]
  omega

/-- The loop takes all whole blocks. --/
theorem wholeBlocks_spec {s₀ : List Nat} : ∀ {rounds : Nat} {message input : List UInt8} {states : List Nat},
    Absorbed h.blockSize h.processBuffer s₀ message states [] → input.length ≤ rounds →
    ∃ taken, input = taken ++ (h.wholeBlocks rounds input states).1 ∧
      (h.wholeBlocks rounds input states).1.length < h.blockSize ∧
      Absorbed h.blockSize h.processBuffer s₀ (message ++ taken) (h.wholeBlocks rounds input states).2 []
  | 0, message, input, states, ha, hlength => by
    obtain rfl := List.eq_nil_of_length_eq_zero (Nat.le_zero.mp hlength)
    exact ⟨[], rfl, h.blockSize_pos, by rwa [List.append_nil]⟩
  | rounds + 1, message, input, states, ha, hlength => by
    have hpos := h.blockSize_pos
    unfold Method.wholeBlocks
    split
    · rename_i hblock
      have htake : ([] ++ input.take h.blockSize).length = h.blockSize := by
        rw [List.nil_append, List.length_take, Nat.min_eq_left hblock]
      have hrest : (input.drop h.blockSize).length ≤ rounds := by
        rw [List.length_drop]
        omega
      have hblocked := ha.block htake
      rw [List.nil_append] at hblocked
      obtain ⟨taken, hinput, hshort, habsorbed⟩ := wholeBlocks_spec hblocked hrest
      refine ⟨input.take h.blockSize ++ taken, ?_, hshort, ?_⟩
      · rw [List.append_assoc, ← hinput, List.take_append_drop]
      · rw [← List.append_assoc]
        exact habsorbed
    · rename_i hblock
      exact ⟨[], rfl, Nat.not_le.mp hblock, by rwa [List.append_nil]⟩

/-- After the buffer was filled up, or was not, nothing is in it, or what is left does not complete it. --/
theorem fill_spec {s₀ : List Nat} {current : Nat} (hbuffer : c.buffer.length = h.blockSize)
    (ha : Absorbed h.blockSize h.processBuffer s₀ message c.states (c.buffer.take current))
    (hcurrent : current < h.blockSize) :
    ∃ taken, input = taken ++ (h.fill current input c).2.1 ∧
      (h.fill current input c).2.2.buffer.length = h.blockSize ∧
      Absorbed h.blockSize h.processBuffer s₀ (message ++ taken) (h.fill current input c).2.2.states
        ((h.fill current input c).2.2.buffer.take (h.fill current input c).1) ∧
      ((h.fill current input c).1 = 0 ∨
        (h.fill current input c).1 + (h.fill current input c).2.1.length < h.blockSize) ∧
      (h.fill current input c).1 < h.blockSize := by
  unfold Method.fill
  split
  · rename_i hfull
    have htake : (input.take (h.blockSize - current)).length = h.blockSize - current := by
      rw [List.length_take, Nat.min_eq_left hfull.2]
    have hfit : current + (input.take (h.blockSize - current)).length = c.buffer.length := by
      rw [htake, hbuffer]
      omega
    have hcopy : copyTo c.buffer current (input.take (h.blockSize - current)) =
        c.buffer.take current ++ input.take (h.blockSize - current) := by
      rw [← take_copyTo (Nat.le_of_eq hfit), hfit, ← length_copyTo (Nat.le_of_eq hfit), List.take_length]
    refine ⟨input.take (h.blockSize - current), (List.take_append_drop ..).symm, ?_, ?_, .inl rfl, h.blockSize_pos⟩
    · exact (length_copyTo (Nat.le_of_eq hfit)).trans hbuffer
    · dsimp only
      rw [hcopy]
      refine ha.block ?_
      rw [← hcopy, length_copyTo (Nat.le_of_eq hfit), hbuffer]
  · rename_i hfull
    refine ⟨[], rfl, hbuffer, by rwa [List.append_nil], ?_, hcurrent⟩
    by_cases hzero : current = 0
    · exact .inl hzero
    · refine .inr ?_
      have hless : input.length < h.blockSize - current := Nat.not_le.mp fun hle => hfull ⟨hzero, hle⟩
      dsimp only
      omega

theorem wholeBlocks_short {rounds : Nat} {states : List Nat} (hshort : input.length < h.blockSize) :
    h.wholeBlocks rounds input states = (input, states) := by
  cases rounds with
  | zero => rfl
  | succ rounds => exact if_neg (Nat.not_le.mpr hshort)

/-- The loop, and the octets that are saved. --/
theorem saved_spec {s₀ : List Nat} {current : Nat} (hbuffer : c.buffer.length = h.blockSize)
    (ha : Absorbed h.blockSize h.processBuffer s₀ message c.states (c.buffer.take current))
    (hroom : current = 0 ∨ current + input.length < h.blockSize) (hcurrent : current < h.blockSize) :
    (if (h.wholeBlocks input.length input c.states).1.length ≠ 0 then
      copyTo c.buffer current (h.wholeBlocks input.length input c.states).1 else c.buffer).length = h.blockSize ∧
    Absorbed h.blockSize h.processBuffer s₀ (message ++ input) (h.wholeBlocks input.length input c.states).2
      ((if (h.wholeBlocks input.length input c.states).1.length ≠ 0 then
        copyTo c.buffer current (h.wholeBlocks input.length input c.states).1 else c.buffer).take
          ((message ++ input).length % h.blockSize)) := by
  have htakeLength : (c.buffer.take current).length = current := by
    rw [List.length_take]
    omega
  obtain ⟨taken, hinput, habsorbed, hshort⟩ : ∃ taken,
      input = taken ++ (h.wholeBlocks input.length input c.states).1 ∧
      Absorbed h.blockSize h.processBuffer s₀ (message ++ taken) (h.wholeBlocks input.length input c.states).2
        (c.buffer.take current) ∧
      current + (h.wholeBlocks input.length input c.states).1.length < h.blockSize := by
    by_cases hshort : current + input.length < h.blockSize
    · rw [wholeBlocks_short (Nat.lt_of_le_of_lt (Nat.le_add_left ..) hshort)]
      exact ⟨[], rfl, by rwa [List.append_nil], hshort⟩
    · obtain rfl := hroom.resolve_right hshort
      obtain ⟨taken, hinput, hless, habsorbed⟩ := wholeBlocks_spec ha (Nat.le_refl input.length)
      exact ⟨taken, hinput, habsorbed, by rwa [Nat.zero_add]⟩
  generalize (h.wholeBlocks input.length input c.states).1 = rest at *
  generalize (h.wholeBlocks input.length input c.states).2 = states at *
  have hpart := habsorbed.part (x := rest) (by rw [List.length_append, htakeLength]; exact hshort)
  rw [List.append_assoc, ← hinput] at hpart
  have hlength := hpart.length
  rw [List.length_append, htakeLength] at hlength
  rw [← hlength]
  have hfit : current + rest.length ≤ c.buffer.length := by omega
  split
  · rw [take_copyTo hfit]
    exact ⟨(length_copyTo hfit).trans hbuffer, hpart⟩
  · rename_i hempty
    obtain rfl := List.eq_nil_of_length_eq_zero (not_not.mp hempty)
    rw [List.append_nil] at hpart
    exact ⟨hbuffer, hpart⟩

/-- An input is the continuation of the message. --/
theorem Follows.update (hf : Follows h c message total) (input : List UInt8) :
    Follows h (h.update input c) (message ++ input) (total + h.bits input.length) := by
  unfold Method.update
  split
  · rename_i hempty
    obtain rfl := List.eq_nil_of_length_eq_zero hempty
    have hzero : h.bits ([] : List UInt8).length = 0 := by simp [Method.bits]
    rwa [hzero, List.append_nil, Nat.add_zero]
  · obtain ⟨hlow, hcount⟩ := addBits_count hf input.length
    have hcurrent := hf.currentBytes
    have hmod : h.currentBytes c < h.blockSize := Nat.mod_lt _ h.blockSize_pos
    have habsorbed := hf.absorbed
    rw [← hcurrent] at habsorbed
    obtain ⟨taken, hinput, hbuffer, hfilled, hroom, hless⟩ :=
      @fill_spec h (h.addBits input.length c) message input _ _ hf.buffer habsorbed hmod
    have hsaved := saved_spec hbuffer hfilled hroom hless
    rw [List.append_assoc, ← hinput] at hsaved
    have hwords : (h.fill (h.currentBytes c) input (h.addBits input.length c)).2.2.bitCount0 =
          (h.addBits input.length c).bitCount0 ∧
        (h.fill (h.currentBytes c) input (h.addBits input.length c)).2.2.bitCount1 =
          (h.addBits input.length c).bitCount1 := by
      unfold Method.fill
      split <;> exact ⟨rfl, rfl⟩
    refine ⟨hsaved.2, hsaved.1, ?_, ?_, ?_⟩
    · dsimp only
      rw [hwords.1]
      exact hlow
    · dsimp only
      rw [hwords.1, hwords.2]
      exact hcount
    · have hbits := hf.bits
      have hnew := h.bits_mod input.length
      rw [List.length_append]
      omega

theorem follows_start {buffer : List UInt8} (hbuffer : buffer.length = h.blockSize) :
    Follows h (h.hashInitialize buffer) [] 0 where
  absorbed := by
    rw [List.length_nil, Nat.zero_mod, List.take_zero]
    exact absorbed_nil h.blockSize_pos
  buffer := hbuffer
  low := Nat.two_pow_pos _
  count := by simp [Method.hashInitialize]
  bits := rfl

/-! ### The digest -/

theorem Method.room_eq (h : Method) : h.room + h.wordBits / 4 = h.blockSize ∧ 0 < h.room := by
  unfold Method.room
  obtain ⟨hw, hb⟩ | ⟨hw, hb⟩ := h.sizes <;> rw [hw, hb] <;> decide

theorem Method.paddingBytes_le (h : Method) {current : Nat} (hcurrent : current < h.blockSize) :
    0 < h.paddingBytes current ∧ h.paddingBytes current ≤ h.blockSize := by
  obtain ⟨hroom, hpos⟩ := h.room_eq
  unfold Method.paddingBytes
  split
  · omega
  · omega

theorem take_paddingArray {length : Nat} :
    h.paddingArray.take (h.paddingBytes (length % h.blockSize)) = h.padding length := by
  obtain ⟨hpos, hle⟩ := h.paddingBytes_le (Nat.mod_lt length h.blockSize_pos)
  unfold Method.paddingArray Method.padding
  obtain ⟨n, hn⟩ := Nat.exists_eq_add_one_of_ne_zero (Nat.ne_of_gt hpos)
  rw [hn, List.take_succ_cons, List.take_replicate, Nat.add_sub_cancel, Nat.min_eq_left (by omega)]

theorem length_padding (length : Nat) : (h.padding length).length = h.paddingBytes (length % h.blockSize) := by
  have hpos := (h.paddingBytes_le (Nat.mod_lt length h.blockSize_pos)).1
  rw [Method.padding, List.length_cons, List.length_replicate]
  omega

theorem length_lengthField (bits : Nat) : (h.lengthField bits).length = h.wordBits / 4 := by
  unfold Method.lengthField
  split
  · exact length_bigEndian ..
  · rw [List.length_reverse, length_bigEndian]

/-- With the padding and the length the message ends with a block. --/
theorem padded_mod (message : List UInt8) (bits : Nat) :
    (message ++ h.padding message.length ++ h.lengthField bits).length % h.blockSize = 0 := by
  rw [List.length_append, List.length_append, length_padding, length_lengthField]
  unfold Method.paddingBytes Method.room
  obtain ⟨hw, hb⟩ | ⟨hw, hb⟩ := h.sizes
  · rw [hw, hb]
    split <;> omega
  · rw [hw, hb]
    split <;> omega

theorem Follows.finish (hf : Follows h c message total) : (h.finish c).buffer.length = h.blockSize ∧
    (h.finish c).states = hash h.blockSize h.processBuffer h.initial
      (message ++ h.padding message.length ++ h.lengthField total) := by
  have hfinish : h.finish c = h.update (h.lengthField total) (h.update (h.padding message.length) c) := by
    rw [Method.finish, hf.currentBytes, take_paddingArray, bitCountString_eq hf.low hf.count]
  have hpadded := (hf.update (h.padding message.length)).update (h.lengthField total)
  have habsorbed := hpadded.absorbed
  rw [padded_mod, List.take_zero] at habsorbed
  rw [hfinish]
  exact ⟨hpadded.buffer, habsorbed.hash⟩

theorem Follows.digest (hf : Follows h c message total) : h.digestCalculate c = h.digestOf message total := by
  rw [Method.digestCalculate, hf.finish.2]
  rfl

/-! ### Messages in pieces -/

theorem follows_pieces (hf : Follows h c message total) (pieces : List (List UInt8)) :
    Follows h (pieces.foldl (fun c piece => h.update piece c) c) (message ++ pieces.flatten)
      (total + (pieces.map fun piece => h.bits piece.length).sum) := by
  induction pieces generalizing c message total with
  | nil => simpa using hf
  | cons piece pieces ih =>
    have htail := ih (hf.update piece)
    rw [List.append_assoc, Nat.add_assoc] at htail
    simpa using htail

/-- The bits are counted right where the words are of 32 bits, or the length of a piece in bits fits into 32. --/
theorem bits_eq {n : Nat} (hn : h.wordBits = 32 ∨ n < 2 ^ 29) : h.bits n = 8 * n := by
  unfold Method.bits
  obtain hw | hn := hn
  · rw [hw]
    omega
  · rw [Nat.div_eq_of_lt hn]
    omega

/-- Of a longer piece SHA-512 counts the upper bits in the upper one of its words of 64 bits. --/
theorem bits_ne {n : Nat} (hw : h.wordBits = 64) (hn : 2 ^ 29 ≤ n) (hlength : n < 2 ^ 32) :
    h.bits n % 2 ^ (2 * h.wordBits) ≠ 8 * n := by
  unfold Method.bits
  rw [hw]
  omega

/-- The digest of a message in pieces of any sizes is that of the whole message; its length is right for MD5, SHA-1
    and SHA-256, and for SHA-512 if no piece has 2^29 octets or more. --/
theorem digest_pieces (h : Method) {buffer : List UInt8} (hbuffer : buffer.length = h.blockSize)
    (pieces : List (List UInt8)) :
    h.digestCalculate (pieces.foldl (fun c piece => h.update piece c) (h.hashInitialize buffer)) =
      h.digestOf pieces.flatten (pieces.map fun piece => h.bits piece.length).sum ∧
    ((h.wordBits = 32 ∨ ∀ piece ∈ pieces, piece.length < 2 ^ 29) →
      h.digestCalculate (pieces.foldl (fun c piece => h.update piece c) (h.hashInitialize buffer)) =
        h.digestOf pieces.flatten (8 * pieces.flatten.length)) := by
  have hf := follows_pieces (follows_start hbuffer) pieces
  rw [List.nil_append, Nat.zero_add] at hf
  refine ⟨hf.digest, fun hsizes => ?_⟩
  have hbits : (pieces.map fun piece => h.bits piece.length).sum = 8 * pieces.flatten.length := by
    clear hf
    induction pieces with
    | nil => rfl
    | cons piece pieces ih =>
      rw [List.map_cons, List.sum_cons, List.flatten_cons, List.length_append, Nat.mul_add,
        bits_eq (hsizes.imp_right fun hall => hall piece List.mem_cons_self),
        ih (hsizes.imp_right fun hall p hp => hall p (List.mem_cons_of_mem _ hp))]
  rw [hf.digest, hbits]

/-- Two octets, one after the other. --/
theorem digest_pieces_twoOctets :
    let h := md5 (fun states _ => states) fun _ _ => rfl
    h.digestCalculate (h.update [2] (h.update [1] (h.hashInitialize (List.replicate 64 0)))) = h.digestOf [1, 2] 16 :=
      by
  intro h
  exact (digest_pieces h rfl [[1], [2]]).2 (.inl rfl)

end

end Netxduo.Crypto.Hash
