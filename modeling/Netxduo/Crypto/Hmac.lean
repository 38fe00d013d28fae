import Netxduo.Crypto.Hash

/-! HMAC from call to call, and the keys that are derived with it: the expansion of a secret, and the pseudorandom
    functions of TLS. -/

namespace Netxduo.Crypto.Mac

open Hash

/-! ### The source -/

/-- `NX_CRYPTO_HMAC`; the block size and the output length are those of the hash method. --/
structure Hmac where
  context : Context
  kIpad : List UInt8
  kOpad : List UInt8

/-- `_nx_crypto_hmac_initialize` --/
def hmacInitialize (h : Method) (key : List UInt8) (m : Hmac) : Hmac :=
  let hashed := h.update key (h.hashInitialize m.context.buffer)
  let long := h.blockSize < key.length
  let key := if long then h.digestCalculate hashed else key
  let buffer := if long then (h.finish hashed).buffer else m.context.buffer
  let padded := Hash.copyTo (List.replicate h.blockSize 0) 0 key
  { context := h.update (padded.map (· ^^^ 0x36)) (h.hashInitialize buffer)
    kIpad := padded.map (· ^^^ 0x36)
    kOpad := padded.map (· ^^^ 0x5c) }

/-- `_nx_crypto_hmac_update` --/
def hmacUpdate (h : Method) (input : List UInt8) (m : Hmac) : Hmac := { m with context := h.update input m.context }

/-- The context that `_nx_crypto_hmac_digest_calculate` leaves its last digest to. --/
def outerContext (h : Method) (m : Hmac) : Context :=
  h.update (h.digestCalculate m.context) (h.update m.kOpad (h.hashInitialize (h.finish m.context).buffer))

/-- `_nx_crypto_hmac_digest_calculate` --/
def hmacDigestCalculate (h : Method) (digestLength : Nat) (m : Hmac) : List UInt8 :=
  (h.digestCalculate (outerContext h m)).take digestLength

/-- `_nx_crypto_hmac`, with the metadata it leaves. --/
def hmac (h : Method) (key input : List UInt8) (digestLength : Nat) (m : Hmac) : List UInt8 × Hmac :=
  let m := hmacUpdate h input (hmacInitialize h key m)
  (hmacDigestCalculate h digestLength m, { m with context := h.finish (outerContext h m) })

inductive Status
  | success
  | invalidParameter
  | sizeError
  deriving DecidableEq, Repr

/-- The loop of `_nx_crypto_phash`, from A(i) on, with what it generates. --/
def phashLoop (h : Method) (secret seed : List UInt8) (tempSize : Nat) : Nat → List UInt8 → Nat → Hmac →
    Status × List UInt8
  | 0, _, _, _ => (.success, [])
  | rounds + 1, a, remaining, m =>
    if remaining = 0 then (.success, [])
    else
      let next := hmac h secret a h.digestSize m
      if tempSize < h.digestSize + seed.length then (.sizeError, [])
      else
        let block := hmac h secret (next.1 ++ seed) (min remaining h.digestSize) next.2
        let rest := phashLoop h secret seed tempSize rounds next.1 (remaining - h.digestSize) block.2
        (rest.1, block.1 ++ rest.2)

/-- What is generated is added to what is in the output. --/
def addTo (output generated : List UInt8) : List UInt8 :=
  List.zipWith (· ^^^ ·) output generated ++ output.drop generated.length

/-- `_nx_crypto_phash`, with the sizes of the buffers for A(i) and for the output of HMAC. --/
def phash (h : Method) (secret seed : List UInt8) (tempSize hmacOutputSize : Nat) (output : List UInt8) (m : Hmac) :
    Status × List UInt8 :=
  if hmacOutputSize < h.digestSize then (.invalidParameter, output)
  else if tempSize < seed.length then (.sizeError, output)
  else
    let generated := phashLoop h secret seed tempSize output.length seed output.length m
    (generated.1, addTo output generated.2)

section
variable (processMd5 processSha1 processSha256 : List Nat → List UInt8 → List Nat)
  (wordsMd5 : ∀ states block, (processMd5 states block).length = states.length)
  (wordsSha1 : ∀ states block, (processSha1 states block).length = states.length)
  (wordsSha256 : ∀ states block, (processSha256 states block).length = states.length)

/-- `_nx_crypto_method_prf_sha_256_operation` --/
def prfSha256 (secret label seed : List UInt8) (length : Nat) (m : Hmac) : Status × List UInt8 :=
  if 80 < label.length + seed.length then (.sizeError, [])
  else phash (sha256 processSha256 wordsSha256) secret (label ++ seed) 112 32 (List.replicate length 0) m

/-- `_nx_crypto_method_prf_1_operation`. The halves of a secret of odd length share an octet.
    What the metadata holds before the second part is of no account. --/
def prf1 (secret label seed : List UInt8) (length : Nat) (m m' : Hmac) : Status × List UInt8 :=
  if 80 < label.length + seed.length then (.sizeError, [])
  else
    let secretLength := (secret.length + 1) / 2
    let halfPoint := if secret.length % 2 ≠ 0 then secretLength - 1 else secretLength
    let first := phash (md5 processMd5 wordsMd5) (secret.take secretLength) (label ++ seed) 100 20
      (List.replicate length 0) m
    if first.1 ≠ .success then first
    else phash (sha1 processSha1 wordsSha1) ((secret.drop halfPoint).take secretLength) (label ++
      seed) 100 20 first.2 m'

end

/-! ### The definition -/

def digestOf (h : Method) (message : List UInt8) : List UInt8 := h.digestOf message (8 * message.length)

/-- A key in the size of a block: a longer one is hashed, a shorter one is filled up with zeros. --/
def blockKey (h : Method) (key : List UInt8) : List UInt8 :=
  let key := if h.blockSize < key.length then digestOf h key else key
  key ++ List.replicate (h.blockSize - key.length) 0

def hmacOf (h : Method) (key message : List UInt8) : List UInt8 :=
  digestOf h ((blockKey h key).map (· ^^^ 0x5c) ++ digestOf h ((blockKey h key).map (· ^^^ 0x36) ++ message))

/-! ### From call to call -/

section
variable {h : Method} {c : Context} {m : Hmac} {key message input : List UInt8}

/-- The lengths that a method counts right. --/
def Counted (h : Method) (n : Nat) : Prop := h.wordBits = 32 ∨ n < 2 ^ 29

theorem counted_of_le {n : Nat} (hn : n ≤ h.blockSize) : Counted h n := by
  obtain ⟨-, hb⟩ | ⟨-, hb⟩ := h.sizes
  · exact .inr (Nat.lt_of_le_of_lt (hn.trans_eq hb) (by decide))
  · exact .inr (Nat.lt_of_le_of_lt (hn.trans_eq hb) (by decide))

theorem follows_update (hf : Follows h c message (8 * message.length)) (hinput : Counted h input.length) :
    Follows h (h.update input c) (message ++ input) (8 * (message ++ input).length) := by
  have hnext := hf.update input
  rwa [bits_eq hinput, ← Nat.mul_add, ← List.length_append] at hnext

theorem length_digestOf_le (message : List UInt8) : (digestOf h message).length ≤ h.blockSize :=
  Nat.le_trans (List.length_take_le ..) h.digestSize_le

theorem length_blockKey (key : List UInt8) : (blockKey h key).length = h.blockSize := by
  have hle : (if h.blockSize < key.length then digestOf h key else key).length ≤ h.blockSize := by
    split
    · exact length_digestOf_le key
    · rename_i hshort
      exact Nat.not_lt.mp hshort
  unfold blockKey
  rw [List.length_append, List.length_replicate]
  omega

/-- The metadata after a key and a message. --/
structure Keyed (h : Method) (key : List UInt8) (m : Hmac) (message : List UInt8) : Prop where
  context : Follows h m.context ((blockKey h key).map (· ^^^ 0x36) ++ message)
    (8 * ((blockKey h key).map (· ^^^ 0x36) ++ message).length)
  kOpad : m.kOpad = (blockKey h key).map (· ^^^ 0x5c)

theorem keyed_start (hbuffer : m.context.buffer.length = h.blockSize) (hkey : Counted h key.length) :
    Keyed h key (hmacInitialize h key m) [] := by
  have hhashed := follows_update (follows_start hbuffer) hkey
  rw [List.nil_append] at hhashed
  have hnew : (if h.blockSize < key.length then
      (h.finish (h.update key (h.hashInitialize m.context.buffer))).buffer else m.context.buffer).length =
        h.blockSize := by
    split
    · exact hhashed.finish.1
    · exact hbuffer
  have hpadded : Hash.copyTo (List.replicate h.blockSize 0) 0
      (if h.blockSize < key.length then h.digestCalculate (h.update key (h.hashInitialize m.context.buffer)) else key) =
        blockKey h key := by
    rw [hhashed.digest]
    unfold Hash.copyTo blockKey
    rw [List.take_zero, List.nil_append, List.drop_replicate, Nat.zero_add]
    rfl
  have hcontext := @follows_update h _ [] ((blockKey h key).map (· ^^^ 0x36)) (follows_start hnew)
    (counted_of_le (by rw [List.length_map, length_blockKey]))
  rw [List.nil_append] at hcontext
  unfold hmacInitialize
  dsimp only
  rw [hpadded]
  refine ⟨?_, rfl⟩
  rw [List.append_nil]
  exact hcontext

theorem Keyed.update (hm : Keyed h key m message) (hinput : Counted h input.length) :
    Keyed h key (hmacUpdate h input m) (message ++ input) := by
  have hnext := follows_update hm.context hinput
  rw [List.append_assoc] at hnext
  exact ⟨hnext, hm.kOpad⟩

theorem Keyed.pieces (hm : Keyed h key m message) {pieces : List (List UInt8)}
    (hpieces : ∀ piece ∈ pieces, Counted h piece.length) :
    Keyed h key (pieces.foldl (fun m piece => hmacUpdate h piece m) m) (message ++ pieces.flatten) := by
  induction pieces generalizing m message with
  | nil => simpa using hm
  | cons piece pieces ih =>
    have htail := ih (hm.update (hpieces piece List.mem_cons_self)) fun p hp => hpieces p (List.mem_cons_of_mem _ hp)
    rw [List.append_assoc] at htail
    simpa using htail

/-- The outer hash has the inner one behind its key. --/
theorem follows_outer (hm : Keyed h key m message) :
    let outer := (blockKey h key).map (· ^^^ 0x5c) ++ digestOf h ((blockKey h key).map (· ^^^ 0x36) ++ message)
    Follows h (outerContext h m) outer (8 * outer.length) := by
  intro outer
  have hopad : Counted h m.kOpad.length := counted_of_le (by rw [hm.kOpad, List.length_map, length_blockKey])
  have houter := follows_update (follows_update (follows_start hm.context.finish.1) hopad)
    (counted_of_le (length_digestOf_le ((blockKey h key).map (· ^^^ 0x36) ++ message)))
  have heq : outerContext h m = h.update (digestOf h ((blockKey h key).map (· ^^^ 0x36) ++ message))
      (h.update m.kOpad (h.hashInitialize (h.finish m.context).buffer)) := by
    rw [outerContext, hm.context.digest]
    rfl
  rw [List.nil_append, hm.kOpad] at houter
  rw [heq, hm.kOpad]
  exact houter

/-- HMAC over a message that comes in pieces. --/
theorem hmac_pieces {pieces : List (List UInt8)} (hbuffer : m.context.buffer.length = h.blockSize)
    (hkey : Counted h key.length) (hpieces : ∀ piece ∈ pieces, Counted h piece.length) (digestLength : Nat) :
    hmacDigestCalculate h digestLength (pieces.foldl (fun m piece => hmacUpdate h piece m) (hmacInitialize h key m)) =
      (hmacOf h key pieces.flatten).take digestLength := by
  have hm := (keyed_start hbuffer hkey).pieces hpieces
  rw [List.nil_append] at hm
  rw [hmacDigestCalculate, (follows_outer hm).digest]
  rfl

/-- HMAC of two pieces. --/
theorem hmac_pieces_twoOctets :
    let h := md5 (fun states _ => states) fun _ _ => rfl
    hmacDigestCalculate h 16 ([[1], [2]].foldl (fun m piece => hmacUpdate h piece m)
      (hmacInitialize h [3] ⟨⟨0, 0, [], List.replicate 64 0⟩, [], []⟩)) = (hmacOf h [3] [1, 2]).take 16 := by
  intro h
  have hcounted (n : Nat) : Counted h n := .inl rfl
  exact @hmac_pieces h ⟨⟨0, 0, [], List.replicate 64 0⟩, [], []⟩ [3] [[1], [2]] rfl (hcounted _)
    (fun _ _ => hcounted _) 16

theorem hmac_eq (hbuffer : m.context.buffer.length = h.blockSize) (hkey : Counted h key.length)
    (hinput : Counted h input.length) (digestLength : Nat) :
    (hmac h key input digestLength m).1 = (hmacOf h key input).take digestLength ∧
      (hmac h key input digestLength m).2.context.buffer.length = h.blockSize := by
  have hm := (keyed_start hbuffer hkey).update hinput
  rw [List.nil_append] at hm
  have houter := follows_outer hm
  exact ⟨by rw [hmac, hmacDigestCalculate, houter.digest]; rfl, houter.finish.1⟩

/-! ### Expansion of a secret -/

/-- A(i) --/
def chainA (h : Method) (secret seed : List UInt8) : Nat → List UInt8
  | 0 => seed
  | i + 1 => hmacOf h secret (chainA h secret seed i)

/-- The blocks from A(i + 1) on. --/
def pHash (h : Method) (secret seed : List UInt8) (i blocks : Nat) : List UInt8 :=
  (List.range' i blocks).flatMap fun j => hmacOf h secret (chainA h secret seed (j + 1) ++ seed)

variable {secret seed output : List UInt8}

theorem length_hmacOf (key message : List UInt8) : (hmacOf h key message).length = h.digestSize :=
  length_digestOf ..

theorem pHash_succ (i blocks : Nat) : pHash h secret seed i (blocks + 1) =
    hmacOf h secret (chainA h secret seed (i + 1) ++ seed) ++ pHash h secret seed (i + 1) blocks := by
  simp [pHash, List.range'_succ]

/-- The loop generates what is asked for, of as many blocks as there are. --/
theorem phashLoop_eq {tempSize : Nat} (hsecret : Counted h secret.length) (htemp : h.digestSize + seed.length ≤
    tempSize)
    (hseed : Counted h (h.digestSize + seed.length)) (hpos : 0 < h.digestSize) :
    ∀ {rounds i remaining blocks : Nat} {m : Hmac}, m.context.buffer.length = h.blockSize →
      Counted h (chainA h secret seed i).length → remaining ≤ rounds → remaining ≤ blocks * h.digestSize →
      phashLoop h secret seed tempSize rounds (chainA h secret seed i) remaining m =
        (.success, (pHash h secret seed i blocks).take remaining)
  | 0, _, remaining, _, _, _, _, hrounds, _ => by
    obtain rfl := Nat.le_zero.mp hrounds
    rw [phashLoop, List.take_zero]
  | rounds + 1, i, remaining, blocks, m, hbuffer, ha, hrounds, hblocks => by
    unfold phashLoop
    split
    · rename_i hzero
      rw [hzero, List.take_zero]
    rename_i hmore
    obtain ⟨blocks, rfl⟩ : ∃ n, blocks = n + 1 := by
      refine Nat.exists_eq_add_one_of_ne_zero fun hzero => ?_
      rw [hzero, Nat.zero_mul] at hblocks
      exact hmore (Nat.le_zero.mp hblocks)
    obtain ⟨hnext, hbuffer'⟩ := hmac_eq hbuffer hsecret ha h.digestSize
    have hfull : (hmacOf h secret (chainA h secret seed i)).take h.digestSize = chainA h secret seed (i + 1) :=
      List.take_of_length_le (Nat.le_of_eq (length_hmacOf ..))
    rw [hfull] at hnext
    have hlength : (chainA h secret seed (i + 1)).length = h.digestSize := length_hmacOf ..
    have hinput : Counted h (chainA h secret seed (i + 1) ++ seed).length := by
      rwa [List.length_append, hlength]
    obtain ⟨hblock, hbuffer''⟩ := hmac_eq hbuffer' hsecret hinput (min remaining h.digestSize)
    have hrest := @phashLoop_eq _ hsecret htemp hseed hpos rounds (i + 1) (remaining - h.digestSize) blocks _
      hbuffer'' (by rw [hlength]; exact counted_of_le h.digestSize_le) (by omega)
      (by rw [Nat.succ_mul] at hblocks; omega)
    have htake : (hmacOf h secret (chainA h secret seed (i + 1) ++ seed)).take (min remaining h.digestSize) =
        (hmacOf h secret (chainA h secret seed (i + 1) ++ seed)).take remaining := by
      rw [List.take_eq_take_iff, length_hmacOf]
      omega
    dsimp only
    rw [if_neg (Nat.not_lt.mpr htemp), hnext, hrest, hblock, htake, pHash_succ, List.take_append, length_hmacOf]

theorem length_pHash (i blocks : Nat) : (pHash h secret seed i blocks).length = blocks * h.digestSize := by
  induction blocks generalizing i with
  | zero => simp [pHash]
  | succ blocks ih => rw [pHash_succ, List.length_append, ih, length_hmacOf, Nat.succ_mul, Nat.add_comm]

theorem phash_eq {tempSize hmacOutputSize blocks : Nat} (hbuffer : m.context.buffer.length = h.blockSize)
    (hsecret : Counted h secret.length) (hseed : Counted h (h.digestSize + seed.length)) (hpos : 0 < h.digestSize)
    (htemp : h.digestSize + seed.length ≤ tempSize) (hout : h.digestSize ≤ hmacOutputSize)
    (hblocks : output.length ≤ blocks * h.digestSize) :
    phash h secret seed tempSize hmacOutputSize output m =
      (.success, List.zipWith (· ^^^ ·) output ((pHash h secret seed 0 blocks).take output.length)) := by
  have hfirst : Counted h (chainA h secret seed 0).length :=
    hseed.imp_right fun hlt => Nat.lt_of_le_of_lt (Nat.le_add_left ..) hlt
  have hloop := phashLoop_eq hsecret htemp hseed hpos hbuffer hfirst (Nat.le_refl output.length) hblocks
  have hgenerated : ((pHash h secret seed 0 blocks).take output.length).length = output.length := by
    rw [List.length_take, length_pHash, Nat.min_eq_left hblocks]
  unfold phash
  rw [if_neg (Nat.not_lt.mpr hout), if_neg (Nat.not_lt.mpr (Nat.le_trans (Nat.le_add_left ..) htemp))]
  dsimp only
  rw [show phashLoop h secret seed tempSize output.length seed output.length m = _ from hloop]
  unfold addTo
  rw [hgenerated, List.drop_length, List.append_nil]

theorem zipWith_zeros (l : List UInt8) : List.zipWith (· ^^^ ·) (List.replicate l.length 0) l = l := by
  induction l with
  | nil => rfl
  | cons x l ih =>
    show (0 ^^^ x) :: List.zipWith _ (List.replicate l.length 0) l = x :: l
    rw [ih, UInt8.zero_xor]

theorem length_take_pHash (hpos : 0 < h.digestSize) (length : Nat) :
    ((pHash h secret seed 0 length).take length).length = length := by
  rw [List.length_take, length_pHash]
  exact Nat.min_eq_left (Nat.le_mul_of_pos_right _ hpos)

/-- An output that was cleared holds what is generated. --/
theorem phash_zeros {tempSize hmacOutputSize : Nat} (length : Nat) (hbuffer : m.context.buffer.length = h.blockSize)
    (hsecret : Counted h secret.length) (hseed : Counted h (h.digestSize + seed.length)) (hpos : 0 < h.digestSize)
    (htemp : h.digestSize + seed.length ≤ tempSize) (hout : h.digestSize ≤ hmacOutputSize) :
    phash h secret seed tempSize hmacOutputSize (List.replicate length 0) m =
      (.success, (pHash h secret seed 0 length).take length) := by
  have hblocks : (List.replicate length (0 : UInt8)).length ≤ length * h.digestSize := by
    rw [List.length_replicate]
    exact Nat.le_mul_of_pos_right _ hpos
  have hsum := zipWith_zeros ((pHash h secret seed 0 length).take length)
  rw [length_take_pHash hpos] at hsum
  rw [phash_eq hbuffer hsecret hseed hpos htemp hout hblocks, List.length_replicate, hsum]

end

/-! ### The pseudorandom functions -/

section
variable {processMd5 processSha1 processSha256 : List Nat → List UInt8 → List Nat}
  {wordsMd5 : ∀ states block, (processMd5 states block).length = states.length}
  {wordsSha1 : ∀ states block, (processSha1 states block).length = states.length}
  {wordsSha256 : ∀ states block, (processSha256 states block).length = states.length}
  {secret label seed : List UInt8} {m m' : Hmac}

end

end Netxduo.Crypto.Mac
