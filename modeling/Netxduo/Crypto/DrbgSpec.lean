import Netxduo.Crypto.Drbg
import Netxduo.Crypto.CcmRfc

/-! CTR_DRBG of SP 800-90A, and that the generator computes it. -/

namespace Netxduo
open BlockModes

/-! ### CTR_DRBG -/

namespace CtrDrbg

/-- The working state. --/
structure State where
  key : List UInt8
  v : List UInt8
  reseedCounter : Nat

/-- The number an octet string stands for. --/
def value (v : List UInt8) : Nat := v.foldl (fun n x => 256 * n + x.toNat) 0

/-- `V = (V + 1) mod 2 ^ 128` --/
def addOne (v : List UInt8) : List UInt8 := bigEndian 16 (value v + 1)

/-- `n` blocks of the counter from `v` on, and the counter after them. --/
def outputBlocks (E : BlockCipher) : Nat → List UInt8 → List UInt8 × List UInt8
  | 0, v => ([], v)
  | n + 1, v => (E.encrypt (addOne v) ++ (outputBlocks E n (addOne v)).1, (outputBlocks E n (addOne v)).2)

/-- The length of a seed. --/
def seedlen (M : CryptoMethod) : Nat := 16 + M.keyLength

/-- CTR_DRBG_Update. --/
def update (M : CryptoMethod) (s : State) (providedData : List UInt8) : State :=
  let temp := (outputBlocks (M.cipher s.key) (blockCount (seedlen M)) s.v).1.take (seedlen M)
  let temp := xor temp providedData
  { s with key := temp.take M.keyLength, v := temp.drop M.keyLength }

/-- BCC. --/
def bcc (E : BlockCipher) (data : List UInt8) : List UInt8 := cbcMac E (List.replicate 16 0) (blocks data)

/-- `X = Block_Encrypt (K, X)`, `n` times, and every block of it. --/
def chained (E : BlockCipher) : Nat → List UInt8 → List UInt8
  | 0, _ => []
  | n + 1, x => E.encrypt x ++ chained E n (E.encrypt x)

/-- `S = L || N || input_string || 0x80`, padded with zeros to whole blocks. --/
def dfString (input : List UInt8) (n : Nat) : List UInt8 :=
  let S := bigEndian 4 input.length ++ bigEndian 4 n ++ input ++ [0x80]
  S ++ List.replicate (if S.length % 16 ≠ 0 then 16 - S.length % 16 else 0) 0

/-- Block_Cipher_df. --/
def blockCipherDf (M : CryptoMethod) (input : List UInt8) (n : Nat) : List UInt8 :=
  let temp := (List.range (blockCount (seedlen M))).flatMap fun i =>
    bcc (M.cipher (((List.range 32).map UInt8.ofNat).take M.keyLength))
      (bigEndian 4 i ++ List.replicate 12 0 ++ dfString input n)
  (chained (M.cipher (temp.take M.keyLength)) (blockCount n) ((temp.drop M.keyLength).take 16)).take n

/-- A text filled up with zeros to the length of a seed. --/
def padded (M : CryptoMethod) (input : List UInt8) : List UInt8 :=
  input ++ List.replicate (seedlen M - input.length) 0

/-- The seed material of an instantiation, and with an empty nonce of a reseed. --/
def seedMaterial (M : CryptoMethod) (useDf : Bool) (entropy nonce input : List UInt8) : List UInt8 :=
  if useDf then blockCipherDf M (entropy ++ nonce ++ input) (seedlen M) else xor entropy (padded M input)

def instantiate (M : CryptoMethod) (useDf : Bool) (entropy nonce personalization : List UInt8) : State :=
  { update M ⟨List.replicate M.keyLength 0, List.replicate 16 0, 0⟩
      (seedMaterial M useDf entropy nonce personalization) with reseedCounter := 1 }

def reseed (M : CryptoMethod) (useDf : Bool) (s : State) (entropy additional : List UInt8) : State :=
  { update M s (seedMaterial M useDf entropy [] additional) with reseedCounter := 1 }

/-- The generate algorithm: the output, and the state. --/
def generateOutput (M : CryptoMethod) (useDf : Bool) (s : State) (n : Nat) (additional : List UInt8) :
    List UInt8 × State :=
  let data :=
    if additional = [] then List.replicate (seedlen M) 0
    else if useDf then blockCipherDf M additional (seedlen M) else padded M additional
  let s := if additional = [] then s else update M s data
  let r := outputBlocks (M.cipher s.key) (blockCount n) s.v
  let s := update M { s with v := r.2 } data
  (r.1.take n, { s with reseedCounter := s.reseedCounter + 1 })

/-- The generate function: a reseed first, which takes the additional input, where one is due. --/
def generate (M : CryptoMethod) (useDf predictionResistance : Bool) (s : State) (entropy : List UInt8) (n : Nat)
    (additional : List UInt8) : List UInt8 × State :=
  if s.reseedCounter > 100000 ∨ predictionResistance = true then
    generateOutput M useDf (reseed M useDf s entropy additional) n []
  else generateOutput M useDf s n additional

end CtrDrbg

open CtrDrbg

/-! ### The counter and the update -/

section
variable {M : CryptoMethod} {E : BlockCipher} {d : Drbg} {v x y temp data buffer rest pre post bytes input : List UInt8}
  {n k i sLen rounds : Nat}

theorem blockCount_eq_zero (h : n = 0) : blockCount n = 0 := by
  rw [h]
  rfl

theorem drbgCtrCarry_eq (c : Nat) (l : List UInt8) :
    drbgCtrCarry c l = (bigEndian l.length (l.foldr (fun x n => 256 * n + x.toNat) 0 + c)).reverse := by
  induction l generalizing c with
  | nil => rfl
  | cons x rest ih =>
    rw [drbgCtrCarry, ih, List.length_cons, bigEndian, List.reverse_append, List.foldr_cons]
    generalize rest.foldr (fun x n => 256 * n + x.toNat) 0 = high
    have hhigh : (256 * high + x.toNat + c) / 256 = high + (c + x.toNat) / 256 := by omega
    rw [hhigh]
    show _ :: _ = _ :: _
    congr 1
    refine UInt8.toNat_inj.mp ?_
    rw [UInt8.toNat_ofNat', UInt8.toNat_ofNat']
    omega

theorem drbgCtrAddOne_eq (h : v.length = 16) : drbgCtrAddOne v = addOne v := by
  rw [drbgCtrAddOne, drbgCtrCarry_eq, List.reverse_reverse, List.length_reverse, h, List.foldr_reverse]
  rfl

theorem length_addOne (v : List UInt8) : (addOne v).length = 16 := length_bigEndian ..

theorem length_outputBlocks (E : BlockCipher) (n : Nat) (v : List UInt8) :
    (outputBlocks E n v).1.length = 16 * n := by
  induction n generalizing v with
  | zero => rfl
  | succ n ih =>
    rw [outputBlocks, List.length_append, ih, E.length_encrypt _ (length_addOne v)]
    omega

theorem length_outputBlocks_snd (E : BlockCipher) (n : Nat) (h : v.length = 16) :
    (outputBlocks E n v).2.length = 16 := by
  induction n generalizing v with
  | zero => exact h
  | succ n ih => exact ih (length_addOne v)

theorem drbgUpdateLoop_eq (E : BlockCipher) (temp : List UInt8) (n rounds : Nat) (hv : v.length = 16) (h : n - temp.length ≤ rounds) :
    drbgUpdateLoop E n rounds v temp = temp ++ (outputBlocks E (blockCount (n - temp.length)) v).1 := by
  induction rounds generalizing v temp with
  | zero =>
    have hzero : blockCount (n - temp.length) = 0 := blockCount_eq_zero (by omega)
    rw [drbgUpdateLoop, hzero, outputBlocks, List.append_nil]
  | succ rounds ih =>
    rw [drbgUpdateLoop]
    split
    · rename_i hlt
      dsimp only
      have hlen := E.length_encrypt _ (length_addOne v)
      have hcount : blockCount (n - temp.length) =
          blockCount (n - (temp ++ E.encrypt (addOne v)).length) + 1 := by
        rw [List.length_append, hlen, blockCount, blockCount]
        omega
      rw [drbgCtrAddOne_eq hv, ih _ (length_addOne v) (by rw [List.length_append, hlen]; omega), hcount, outputBlocks,
        List.append_assoc]
    · rename_i hnot
      have hzero : blockCount (n - temp.length) = 0 := blockCount_eq_zero (by omega)
      rw [hzero, outputBlocks, List.append_nil]

/-- What every call keeps of the context. --/
structure Drbg.WellFormed (M : CryptoMethod) (d : Drbg) : Prop where
  key : d.key.length = 32
  v : d.v.length = 16
  buffer : d.buffer.length = 256

/-- The working state of the context. --/
def Drbg.state (M : CryptoMethod) (d : Drbg) : State := ⟨d.key.take M.keyLength, d.v, d.reseedCounter⟩

theorem take_writeAt_zero (h : bytes.length = n) (pre : List UInt8) : (writeAt pre 0 bytes).take n = bytes := by
  rw [writeAt, List.take_zero, List.nil_append, ← h, List.take_left]

/-- The update of the context is the update of its state; without data it takes zeros. --/
theorem drbgUpdate_eq (providedData : Option (List UInt8)) (hv : d.v.length = 16) (hkey : d.key.length = 32)
    (hseedlen : d.seedlen = seedlen M) (hdata : ∀ data, providedData = some data → data.length = seedlen M) :
    (drbgUpdate M d providedData).state M = update M (d.state M) (providedData.getD (List.replicate (seedlen M) 0)) ∧
      (drbgUpdate M d providedData).v.length = 16 ∧ (drbgUpdate M d providedData).key.length = 32 := by
  have hle := M.keyLength_le
  have hloop := drbgUpdateLoop_eq (M.cipher (d.key.take M.keyLength)) [] d.seedlen d.seedlen hv (Nat.le_refl _)
  rw [List.nil_append, List.length_nil, Nat.sub_zero, hseedlen] at hloop
  have hlen := length_outputBlocks (M.cipher (d.key.take M.keyLength)) (blockCount (seedlen M)) d.v
  have hlong : seedlen M ≤ 16 * blockCount (seedlen M) := by
    rw [blockCount]
    omega
  have hsum : seedlen M = 16 + M.keyLength := rfl
  unfold drbgUpdate
  dsimp only
  rw [hseedlen, hloop]
  generalize hblocks : (outputBlocks (M.cipher (d.key.take M.keyLength)) (blockCount (seedlen M)) d.v).1 = t at hlen
  obtain ⟨t', htake, htail⟩ : ∃ t' : List UInt8,
      xor (t.take (seedlen M)) (providedData.getD (List.replicate (seedlen M) 0)) = t' ∧
      ∃ tail, (providedData.elim t fun data => xor (t.take (seedlen M)) data ++ t.drop (seedlen M)) = t' ++ tail := by
    cases providedData with
    | none =>
      refine ⟨t.take (seedlen M), xor_zero (by rw [List.length_take]; omega), t.drop (seedlen M), ?_⟩
      exact (List.take_append_drop ..).symm
    | some data => exact ⟨_, rfl, _, rfl⟩
  obtain ⟨tail, htail⟩ := htail
  have hlen' : t'.length = seedlen M := by
    rw [← htake, length_xor, List.length_take]
    cases providedData with
    | none =>
      rw [Option.getD_none, List.length_replicate]
      omega
    | some data =>
      rw [Option.getD_some, hdata data rfl]
      omega
  rw [htail]
  have hfirst : (t' ++ tail).take M.keyLength = t'.take M.keyLength := List.take_append_of_le_length (by omega)
  have hsecond : ((t' ++ tail).drop M.keyLength).take 16 = t'.drop M.keyLength := by
    rw [List.drop_append_of_le_length (by omega)]
    exact List.take_left' (by rw [List.length_drop]; omega)
  rw [hfirst, hsecond]
  refine ⟨?_, ?_, ?_⟩
  · unfold Drbg.state update
    dsimp only
    rw [hblocks, htake, take_writeAt_zero (by rw [List.length_take]; omega)]
  · rw [List.length_drop]
    omega
  · rw [length_writeAt (by rw [List.length_take]; omega), hkey]

end

/-! ### The derivation function -/

section
variable {M : CryptoMethod} {E : BlockCipher} {d : Drbg} {v x y temp data buffer rest pre post bytes input S : List UInt8}
  {n k i sLen rounds : Nat}

theorem drbgBcc_eq (E : BlockCipher) (hwhole : 16 ∣ sLen) (hlen : sLen ≤ buffer.length) (chain : List UInt8)
    (k rounds : Nat) (h : sLen - 16 * k ≤ rounds) :
    drbgBcc E buffer sLen rounds (16 * k) chain = cbcMac E chain ((blocks (buffer.take sLen)).drop k) := by
  obtain ⟨m, rfl⟩ := hwhole
  have htake : (buffer.take (16 * m)).length = 16 * m := by
    rw [List.length_take]
    omega
  have hcount : blockCount (buffer.take (16 * m)).length = m := by
    rw [htake, blockCount]
    omega
  induction rounds generalizing k chain with
  | zero =>
    rw [drbgBcc, drop_blocks_length (by rw [hcount]; omega)]
    rfl
  | succ rounds ih =>
    rw [drbgBcc]
    split
    · rename_i hlt
      have hblock : block (buffer.take (16 * m)) k = (buffer.drop (16 * k)).take 16 := by
        have hcut : ((buffer.take (16 * m)).drop (16 * k)).take 16 = (buffer.drop (16 * k)).take 16 := by
          rw [List.drop_take, List.take_take]
          congr 1
          omega
        have hfull : 16 - ((buffer.drop (16 * k)).take 16).length = 0 := by
          rw [List.length_take, List.length_drop]
          omega
        rw [block, hcut, hfull, List.replicate_zero, List.append_nil]
      have hnext : 16 * k + 16 = 16 * (k + 1) := by omega
      have hdrop := @drop_blocks (buffer.take (16 * m)) k (by rw [hcount]; omega)
      rw [hnext, ih _ (k + 1) (by omega), hdrop, hblock]
      rfl
    · rw [drop_blocks_length (by rw [hcount]; omega)]
      rfl

/-- The counter of the derivation function stands in the first octets of the buffer. --/
def dfCounter (k : Nat) : List UInt8 := bigEndian 4 k ++ List.replicate 12 0

theorem length_dfCounter (k : Nat) : (dfCounter k).length = 16 := by
  rw [dfCounter, List.length_append, length_bigEndian, List.length_replicate]

theorem dfCounter_step (rest : List UInt8) (h : k + 1 < 256) :
    (dfCounter k ++ rest).set 3 ((dfCounter k ++ rest).getD 3 0 + 1) = dfCounter (k + 1) ++ rest := by
  have hk : dfCounter k = 0 :: 0 :: 0 :: UInt8.ofNat k :: List.replicate 12 0 := by
    show UInt8.ofNat (k / 256 / 256 / 256) :: UInt8.ofNat (k / 256 / 256) :: UInt8.ofNat (k / 256) :: _ = _
    rw [Nat.div_eq_of_lt (by omega : k < 256)]
    rfl
  have hk' : dfCounter (k + 1) = 0 :: 0 :: 0 :: UInt8.ofNat (k + 1) :: List.replicate 12 0 := by
    show UInt8.ofNat ((k + 1) / 256 / 256 / 256) :: UInt8.ofNat ((k + 1) / 256 / 256) :: UInt8.ofNat ((k + 1) / 256) ::
      _ = _
    rw [Nat.div_eq_of_lt h]
    rfl
  rw [hk, hk', UInt8.ofNat_add]
  rfl

/-- The first loop: a code of the string behind every counter. --/
theorem drbgDfTemp_eq (E : BlockCipher) (rest : List UInt8) (hwhole : 16 ∣ sLen) (hlen : sLen ≤ (dfCounter 0 ++ rest).length)
    (n rounds : Nat) : ∀ k temp, k + blockCount (n - temp.length) < 256 → n - temp.length ≤ rounds →
      (drbgDfTemp E n sLen rounds (dfCounter k ++ rest) temp).2 =
          temp ++ (List.range' k (blockCount (n - temp.length))).flatMap
            (fun i => bcc E ((dfCounter i ++ rest).take sLen)) ∧
        (drbgDfTemp E n sLen rounds (dfCounter k ++ rest) temp).1.length = (dfCounter 0 ++ rest).length := by
  have hsame : ∀ k, (dfCounter k ++ rest).length = (dfCounter 0 ++ rest).length := fun k => by
    rw [List.length_append, List.length_append, length_dfCounter, length_dfCounter]
  induction rounds with
  | zero =>
    intro k temp _ h
    have hzero : blockCount (n - temp.length) = 0 := blockCount_eq_zero (by omega)
    rw [drbgDfTemp, hzero]
    exact ⟨(List.append_nil _).symm, hsame k⟩
  | succ rounds ih =>
    intro k temp hk h
    rw [drbgDfTemp]
    split
    · rename_i hlt
      dsimp only
      have hbcc : drbgBcc E (dfCounter k ++ rest) sLen sLen 0 (List.replicate 16 0) =
          bcc E ((dfCounter k ++ rest).take sLen) :=
        drbgBcc_eq E hwhole (by rw [hsame]; exact hlen) _ 0 sLen (Nat.le_refl _)
      have hone : (bcc E ((dfCounter k ++ rest).take sLen)).length = 16 :=
        length_cbcMac (List.length_replicate ..) fun b hb => length_of_mem_blocks hb
      have hcount : blockCount (n - temp.length) =
          blockCount (n - (temp ++ bcc E ((dfCounter k ++ rest).take sLen)).length) + 1 := by
        rw [List.length_append, hone, blockCount, blockCount]
        omega
      rw [dfCounter_step rest (by omega), hbcc]
      obtain ⟨htemp, hbuffer⟩ := ih (k + 1) (temp ++ bcc E ((dfCounter k ++ rest).take sLen)) (by omega)
        (by rw [List.length_append, hone]; omega)
      refine ⟨?_, hbuffer⟩
      rw [htemp, hcount, List.range'_succ, List.flatMap_cons, List.append_assoc]
    · rename_i hnot
      have hzero : blockCount (n - temp.length) = 0 := blockCount_eq_zero (by omega)
      rw [hzero]
      exact ⟨(List.append_nil _).symm, hsame k⟩

theorem drbgDfOutput_eq (E : BlockCipher) (n rounds : Nat) : ∀ s output, s.length = 16 → output.length ≤ n →
    n - output.length ≤ rounds →
      drbgDfOutput E n rounds s output =
        output ++ (chained E (blockCount (n - output.length)) s).take (n - output.length) := by
  induction rounds with
  | zero =>
    intro s output _ _ h
    have hzero : n - output.length = 0 := by omega
    rw [drbgDfOutput, hzero, List.take_zero, List.append_nil]
  | succ rounds ih =>
    intro s output hs hle h
    rw [drbgDfOutput]
    have hlen := E.length_encrypt _ hs
    split
    · rename_i hlt
      dsimp only
      have hcount : blockCount (n - output.length) = blockCount (n - output.length - 16) + 1 := by
        rw [blockCount, blockCount]
        omega
      rw [hcount, chained]
      split
      · rename_i hpart
        have htake : ((E.encrypt s).take (n - output.length)).length = n - output.length := by
          rw [List.length_take]
          omega
        rw [ih _ _ hlen (by rw [List.length_append, htake]; omega) (by rw [List.length_append, htake]; omega),
          List.length_append, htake, List.take_append_of_le_length (by omega)]
        have hzero : n - (output.length + (n - output.length)) = 0 := by omega
        rw [hzero, List.take_zero, List.append_nil]
      · rename_i hfull
        rw [ih _ _ hlen (by rw [List.length_append]; omega) (by rw [List.length_append]; omega),
          List.length_append, hlen, List.append_assoc, Nat.sub_add_eq]
        congr 1
        rw [List.take_append, hlen, List.take_of_length_le (by omega : (E.encrypt s).length ≤ n - output.length)]
    · have hzero : n - output.length = 0 := by omega
      rw [hzero, List.take_zero, List.append_nil]

/-! ### The buffer -/

theorem copyTo_append (pre post bytes : List UInt8) (h : pre.length = i) (hfit : bytes.length ≤ post.length) :
    copyTo (pre ++ post) i bytes = some (pre ++ bytes ++ post.drop bytes.length) := by
  subst h
  rw [copyTo, if_pos (by rw [List.length_append]; omega), writeAt_left]

/-- The derivation function of the octets behind the first 24 of the buffer, where they leave room for the padding. --/
theorem drbgBlockCipherDf_eq (M : CryptoMethod) (input post : List UInt8) (hbuffer : d.buffer = pre ++ input ++ post) (hpre : pre.length = 24)
    (hlen : d.buffer.length = 256) (hseedlen : d.seedlen = seedlen M) (hfit : input.length + 24 < 256)
    (hn : n = seedlen M) :
    ∃ buffer, drbgBlockCipherDf M d input.length n = some (blockCipherDf M input n, { d with buffer := buffer }) ∧
      buffer.length = 256 := by
  have hle := M.keyLength_le
  have hsum : seedlen M = 16 + M.keyLength := rfl
  rw [hbuffer, List.length_append, List.length_append] at hlen
  have hfirst : writeAt (writeAt d.buffer 0 (List.replicate 16 0)) 16 (bigEndian 4 input.length ++ bigEndian 4 n) =
      (List.replicate 16 0 ++ (bigEndian 4 input.length ++ bigEndian 4 n) ++ input) ++ post := by
    have hsplit : d.buffer = [] ++ (pre.take 16 ++ (pre.drop 16 ++ (input ++ post))) := by
      rw [hbuffer, List.nil_append, ← List.append_assoc, List.take_append_drop, List.append_assoc]
    have htake : (pre.take 16).length = 16 := by rw [List.length_take]; omega
    have hdrop : (pre.drop 16).length = 8 := by rw [List.length_drop]; omega
    have hzero : writeAt d.buffer 0 (List.replicate 16 0) =
        List.replicate 16 0 ++ (pre.drop 16 ++ (input ++ post)) := by
      rw [hsplit, writeAt, List.take_zero, List.nil_append, List.nil_append, List.length_replicate, Nat.zero_add,
        List.drop_left' htake]
    have hsixteen : (List.replicate 16 (0 : UInt8)).length = 16 := List.length_replicate ..
    have height : (bigEndian 4 input.length ++ bigEndian 4 n).length = 8 := by
      rw [List.length_append, length_bigEndian, length_bigEndian]
    have := writeAt_left (List.replicate 16 0) (pre.drop 16 ++ (input ++ post))
      (bigEndian 4 input.length ++ bigEndian 4 n)
    rw [hsixteen, height, List.drop_left' hdrop] at this
    rw [hzero, this]
    simp only [List.append_assoc]
  set head := List.replicate 16 (0 : UInt8) ++ (bigEndian 4 input.length ++ bigEndian 4 n) ++ input with hhead
  have hheadlen : head.length = 24 + input.length := by
    rw [hhead, List.length_append, List.length_append, List.length_append, length_bigEndian, length_bigEndian,
      List.length_replicate]
  have hmark := copyTo_append (i := 16 + (input.length + 8)) head post [0x80] (by omega) (by
    rw [List.length_singleton]
    omega)
  set fill := if (16 + input.length + 8 + 1) % 16 ≠ 0 then 16 - (16 + input.length + 8 + 1) % 16 else 0 with hfill
  have hfillle : 16 + input.length + 8 + 1 + fill ≤ 256 ∧ 16 ∣ 16 + input.length + 8 + 1 + fill := by
    rw [hfill]
    split <;> omega
  have hpad := copyTo_append (i := 16 + input.length + 8 + 1) (head ++ [0x80]) (post.drop [(0x80 : UInt8)].length)
    (List.replicate fill 0) (by rw [List.length_append, hheadlen, List.length_singleton]; omega) (by
      rw [List.length_replicate, List.length_drop, List.length_singleton]
      omega)
  set rest := bigEndian 4 input.length ++ bigEndian 4 n ++ input ++ [0x80] ++ List.replicate fill 0 ++
    (post.drop [(0x80 : UInt8)].length).drop (List.replicate fill (0 : UInt8)).length with hrest
  have hwhole : head ++ [0x80] ++ List.replicate fill 0 ++
      (post.drop [(0x80 : UInt8)].length).drop (List.replicate fill (0 : UInt8)).length = dfCounter 0 ++ rest := by
    rw [hhead, hrest, dfCounter, bigEndian_zero]
    have hsixteen : List.replicate 4 (0 : UInt8) ++ List.replicate 12 0 = List.replicate 16 0 := rfl
    rw [hsixteen]
    simp only [List.append_assoc]
  have hstring : dfString input n = bigEndian 4 input.length ++ bigEndian 4 n ++ input ++ [0x80] ++
      List.replicate fill 0 := by
    have hmod : (bigEndian 4 input.length ++ bigEndian 4 n ++ input ++ [0x80]).length % 16 =
        (16 + input.length + 8 + 1) % 16 := by
      rw [List.length_append, List.length_append, List.length_append, length_bigEndian, length_bigEndian,
        List.length_singleton]
      omega
    rw [dfString, hmod, hfill]
  have hstringlen : (dfString input n).length = input.length + 9 + fill := by
    rw [hstring, List.length_append, List.length_append, List.length_append, List.length_append, length_bigEndian,
      length_bigEndian, List.length_singleton, List.length_replicate]
    omega
  have hrestlen : (dfCounter 0 ++ rest).length = 256 := by
    rw [← hwhole, List.length_append, List.length_append, List.length_append, hheadlen, List.length_singleton,
      List.length_replicate, List.length_drop, List.length_drop]
    omega
  have hcut : ∀ i, (dfCounter i ++ rest).take (16 + input.length + 8 + 1 + fill) =
      bigEndian 4 i ++ List.replicate 12 0 ++ dfString input n := by
    intro i
    rw [hrest, ← hstring, ← List.append_assoc]
    refine List.take_left' ?_
    rw [List.length_append, length_dfCounter, hstringlen]
    omega
  obtain ⟨htemp, hbufferlen⟩ := drbgDfTemp_eq (M.cipher (drbgDfKey.take M.keyLength)) rest hfillle.2
    (by rw [hrestlen]; exact hfillle.1) (seedlen M) (seedlen M) 0 [] (by
      rw [List.length_nil, blockCount]
      omega) (by rw [List.length_nil]; omega)
  rw [List.length_nil, Nat.sub_zero, List.nil_append, ← List.range_eq_range'] at htemp
  simp only [hcut] at htemp
  have hX : ((((List.range (blockCount (seedlen M))).flatMap fun i =>
      bcc (M.cipher (drbgDfKey.take M.keyLength)) (bigEndian 4 i ++ List.replicate 12 0 ++ dfString input n)).drop
        M.keyLength).take 16).length = 16 := by
    rw [List.length_take, List.length_drop, List.length_flatMap]
    have hall : ((List.range (blockCount (seedlen M))).map fun i => (bcc (M.cipher (drbgDfKey.take M.keyLength))
        (bigEndian 4 i ++ List.replicate 12 0 ++ dfString input n)).length) =
        (List.range (blockCount (seedlen M))).map fun _ => 16 :=
      List.map_congr_left fun i _ => length_cbcMac (List.length_replicate ..) fun b hb => length_of_mem_blocks hb
    rw [hall, List.map_const', List.sum_replicate, List.length_range, smul_eq_mul, blockCount]
    omega
  unfold drbgBlockCipherDf
  dsimp only
  rw [hfirst, hmark]
  dsimp only [Option.bind]
  rw [← hfill, hpad]
  dsimp only [Option.bind]
  rw [hwhole, hseedlen]
  refine ⟨_, ?_, hbufferlen.trans hrestlen⟩
  rw [htemp, drbgDfOutput_eq _ n n _ [] hX (Nat.zero_le _) (Nat.sub_le ..), List.nil_append]
  rfl

end

end Netxduo
