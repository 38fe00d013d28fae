import Netxduo.Crypto.Gcm

/-! GCM from call to call, against its definition over the whole message. -/

namespace Netxduo.Crypto.Gcm
open BlockModes GaloisBlocks

/-! ### The definition -/

def hashKey (E : BlockCipher) : List UInt8 := E.encrypt (List.replicate 16 0)

/-- The block in front of the counter: from an IV of 96 bits, or from the hash of any other. --/
def preCounter (E : BlockCipher) (iv : List UInt8) : List UInt8 :=
  if iv.length = 12 then iv ++ [0, 0, 0, 1]
  else ghash (hashKey E) (List.replicate 16 0) (blocks iv ++ [List.replicate 8 0 ++ bigEndian 8 (8 * iv.length)])

def ciphertext (E : BlockCipher) (iv message : List UInt8) : List UInt8 :=
    ctr E (counterBlock (preCounter E iv)) 1 message

/-- The lengths in bits. --/
def lengthsOf (additionalData text : List UInt8) : List UInt8 :=
  bigEndian 8 (8 * additionalData.length) ++ bigEndian 8 (8 * text.length)

def tagOf (E : BlockCipher) (iv additionalData text : List UInt8) : List UInt8 :=
  BlockModes.xor (E.encrypt (preCounter E iv)) (ghash (hashKey E) (List.replicate 16 0)
    (blocks additionalData ++ (blocks text ++ [lengthsOf additionalData text])))

/-! ### The counter -/

section
variable {x : List UInt8} {n : Nat}

theorem ofNat_congr {m n : Nat} (h : m % 256 = n % 256) : UInt8.ofNat m = UInt8.ofNat n := by
  refine UInt8.toNat_inj.mp ?_
  rw [UInt8.toNat_ofNat', UInt8.toNat_ofNat']
  exact h

theorem bigEndian_number (x : List UInt8) : bigEndian x.length (number x) = x := by
  induction x using List.reverseRecOn with
  | nil => rfl
  | append_singleton x octet ih =>
    have hoctet := octet.toNat_lt
    rw [List.length_append, List.length_singleton, bigEndian, number_append_singleton,
      show (256 * number x + octet.toNat) / 256 = number x by omega, ih]
    congr 2
    refine UInt8.toNat_inj.mp ?_
    rw [UInt8.toNat_ofNat']
    omega

theorem number_lt (x : List UInt8) : number x < 256 ^ x.length := by
  induction x using List.reverseRecOn with
  | nil => exact Nat.one_pos
  | append_singleton x octet ih =>
    have hoctet := octet.toNat_lt
    rw [number_append_singleton, List.length_append, List.length_singleton, Nat.pow_succ]
    omega

theorem counterBlock_zero (h : x.length = 16) : counterBlock x 0 = x := by
  have hdrop : (x.drop 12).length = 4 := by
    rw [List.length_drop, h]
  have hlt := number_lt (x.drop 12)
  have hnumber := bigEndian_number (x.drop 12)
  rw [hdrop] at hlt hnumber
  have hfits : number (x.drop 12) < 2 ^ 32 := hlt
  rw [counterBlock, Nat.add_zero, Nat.mod_eq_of_lt hfits, hnumber, List.take_append_drop]

/-- The octets with their carries are one step of the counter. --/
theorem gcmInc32_eq (h : x.length = 16) : gcmInc32 x = counterBlock x 1 := by
  have hdrop : (x.drop 12).length = 4 := by
    rw [List.length_drop, h]
  have hget : ∀ i, x.getD (12 + i) 0 = (x.drop 12).getD i 0 := by
    intro i
    rw [List.getD_eq_getElem?_getD, List.getD_eq_getElem?_getD, List.getElem?_drop]
  unfold gcmInc32 counterBlock
  rw [show (15 : Nat) = 12 + 3 from rfl, show (14 : Nat) = 12 + 2 from rfl, show (13 : Nat) = 12 + 1 from rfl, hget,
    hget, hget,
    ← Nat.add_zero 12, hget, Nat.add_zero]
  match x.drop 12, hdrop with
  | [a, b, c, d], _ =>
    have ha := a.toNat_lt
    have hb := b.toNat_lt
    have hc := c.toNat_lt
    have hd := d.toNat_lt
    have hnumber : number [a, b, c, d] = 256 * (256 * (256 * (256 * 0 + a.toNat) + b.toNat) + c.toNat) + d.toNat := rfl
    rw [hnumber]
    simp only [bigEndian, List.nil_append, List.cons_append, List.getD_cons_zero, List.getD_cons_succ]
    congr 1
    refine congrArg₂ _ (ofNat_congr ?_) (congrArg₂ _ (ofNat_congr ?_)
      (congrArg₂ _ (ofNat_congr ?_) (congrArg₂ _ (ofNat_congr ?_) rfl)))
    · omega
    · omega
    · omega
    · omega

theorem gcmInc32_iterate (h : x.length = 16) (n : Nat) : gcmInc32^[n] x = counterBlock x n := by
  induction n with
  | zero => exact (counterBlock_zero h).symm
  | succ n ih => rw [Function.iterate_succ_apply', ih, gcmInc32_eq (counterBlock_length h n), counterBlock_add h]

end

/-! ### The hash and the key stream -/

section
variable {E : BlockCipher} {hkey input s counter a b : List UInt8} {n start : Nat}

theorem blocks_whole (h : a.length = 16) : blocks a = [a] := by
  have hcount : blockCount a.length = 1 := by rw [blockCount, h]
  unfold blocks
  rw [hcount]
  show [block a 0] = [a]
  rw [block, Nat.mul_zero, List.drop_zero, List.take_of_length_le (Nat.le_of_eq h), h]
  exact congrArg (· :: []) (List.append_nil a)

theorem blocks_part (hpos : 0 < a.length) (hlt : a.length < 16) : blocks a = [a ++ List.replicate (16 - a.length) 0] :=
    by
  have hcount : blockCount a.length = 1 := by
    rw [blockCount]
    omega
  unfold blocks
  rw [hcount]
  show [block a 0] = _
  rw [block, Nat.mul_zero, List.drop_zero, List.take_of_length_le (Nat.le_of_lt hlt)]

theorem ghashBlocks_eq (hkey16 : hkey.length = 16) (h : 16 * n ≤ input.length) :
    ghashBlocks hkey n input s = ghash hkey s (blocks (input.take (16 * n))) := by
  induction n generalizing input s with
  | zero =>
    rw [Nat.mul_zero, List.take_zero, blocks_nil]
    rfl
  | succ n ih =>
    have hfirst : (input.take 16).length = 16 := by
      rw [List.length_take]
      omega
    rw [ghashBlocks, ih (by rw [List.length_drop]; omega), show 16 * (n + 1) = 16 + 16 * n by omega, List.take_add,
      blocks_append (Dvd.intro 1 hfirst.symm), blocks_whole hfirst, gcmMulti_eq hkey16]
    rfl

/-- The hash of a text goes over its blocks. --/
theorem ghashUpdate_eq (hkey16 : hkey.length = 16) : ghashUpdate hkey input s = ghash hkey s (blocks input) := by
  unfold ghashUpdate
  dsimp only
  rw [Nat.shiftRight_eq_div_pow, Nat.shiftLeft_eq, show 2 ^ 4 = 16 from rfl, Nat.mul_comm (input.length / 16),
    ghashBlocks_eq hkey16 (by omega)]
  have hrest : (input.drop (16 * (input.length / 16))).length = input.length % 16 := by
    rw [List.length_drop]
    omega
  have hwhole : 16 ∣ (input.take (16 * (input.length / 16))).length := by
    refine ⟨input.length / 16, ?_⟩
    rw [List.length_take]
    omega
  have hall : ghash hkey s (blocks input) = ghash hkey (ghash hkey s (blocks (input.take (16 * (input.length / 16)))))
      (blocks (input.drop (16 * (input.length / 16)))) := by
    rw [← ghash_append, ← blocks_append hwhole, List.take_append_drop]
  rw [hall]
  generalize input.drop (16 * (input.length / 16)) = rest at hrest
  by_cases hpos : 0 < rest.length
  · rw [if_pos hpos, blocks_part hpos (by rw [hrest]; exact Nat.mod_lt _ (by decide)), gcmMulti_eq hkey16]
    rfl
  · obtain rfl : rest = [] := List.eq_nil_of_length_eq_zero (Nat.eq_zero_of_not_pos hpos)
    rw [if_neg hpos, blocks_nil]
    rfl

theorem ctr_shift (counter : List UInt8) (hcounter : counter.length = 16) (k start : Nat) (data : List UInt8) :
    ctr E (counterBlock (counterBlock counter k)) start data = ctr E (counterBlock counter) (k + start) data := by
  unfold ctr keystream
  congr 1
  funext i octet
  rw [counterBlock_add hcounter, show k + (16 * start + i) / 16 = (16 * (k + start) + i) / 16 by omega,
    show (16 * start + i) % 16 = (16 * (k + start) + i) % 16 by omega]

theorem gctrBlocks_eq (hcounter : counter.length = 16) (h : 16 * n ≤ input.length) :
    gctrBlocks E n input counter = (ctr E (counterBlock counter) 0 (input.take (16 * n)), counterBlock counter n) := by
  induction n generalizing input counter with
  | zero =>
    rw [Nat.mul_zero, List.take_zero, counterBlock_zero hcounter]
    rfl
  | succ n ih =>
    have hfirst : (input.take 16).length = 16 * 1 := by
      rw [List.length_take]
      omega
    have henc : (E.encrypt (counterBlock counter 0)).length = 16 := E.length_encrypt _ (counterBlock_length hcounter 0)
    have hblock : ctr E (counterBlock counter) 0 (input.take 16) =
      BlockModes.xor (input.take 16) (E.encrypt counter) := by
      rw [ctr_step 0 _ henc, List.drop_of_length_le (by omega), counterBlock_zero hcounter, xor_swap]
      exact List.append_nil _
    rw [gctrBlocks, gcmInc32_eq hcounter, ih (counterBlock_length hcounter 1) (by rw [List.length_drop]; omega),
      ctr_shift counter hcounter, counterBlock_add hcounter, Nat.add_comm 1 n, show 16 * (n + 1) = 16 + 16 * n by omega,
      List.take_add, ctr_append hfirst, hblock]

/-- The text under the key stream of the counter, which is left behind the whole blocks. --/
theorem gctr_eq (hcounter : counter.length = 16) :
    gctr E input counter = (ctr E (counterBlock counter) 0 input, counterBlock counter (input.length / 16)) := by
  unfold gctr
  dsimp only
  rw [Nat.shiftRight_eq_div_pow, Nat.shiftLeft_eq, show 2 ^ 4 = 16 from rfl, Nat.mul_comm (input.length / 16),
    gctrBlocks_eq hcounter (by omega)]
  have hrest : (input.drop (16 * (input.length / 16))).length = input.length % 16 := by
    rw [List.length_drop]
    omega
  have hwhole : (input.take (16 * (input.length / 16))).length = 16 * (input.length / 16) := by
    rw [List.length_take]
    omega
  have henc : (E.encrypt (counterBlock counter (0 + input.length / 16))).length = 16 :=
    E.length_encrypt _ (counterBlock_length hcounter _)
  have hshort : (input.drop (16 * (input.length / 16))).drop 16 = [] :=
    List.drop_of_length_le (by rw [hrest]; omega)
  have hall : ctr E (counterBlock counter) 0 input = ctr E (counterBlock counter) 0
    (input.take (16 * (input.length / 16))) ++
      BlockModes.xor (input.drop (16 * (input.length / 16))) (E.encrypt (counterBlock counter (input.length / 16))) :=
        by
    conv_lhs => rw [← List.take_append_drop (16 * (input.length / 16)) input]
    rw [ctr_append hwhole, ctr_step _ _ henc, hshort, Nat.zero_add, xor_swap]
    exact congrArg _ (List.append_nil _)
  rw [hall]
  generalize input.drop (16 * (input.length / 16)) = rest
  by_cases hpos : 0 < rest.length
  · rw [if_pos hpos]
  · obtain rfl : rest = [] := List.eq_nil_of_length_eq_zero (Nat.eq_zero_of_not_pos hpos)
    rw [if_neg hpos]
    exact congrArg (·, _) (List.append_nil _).symm

end

/-! ### The calls -/

/-- The chunks but for the last one are of whole blocks. --/
def WholeBlocks (chunks : List (List UInt8)) : Prop := ∀ chunk ∈ chunks.dropLast, 16 ∣ chunk.length

section
variable {E : BlockCipher} {chunks : List (List UInt8)} {chunk : List UInt8}

/-- A chunk is of whole blocks, or nothing comes behind it. --/
theorem WholeBlocks.cut (h : WholeBlocks (chunk :: chunks)) : (16 ∣ chunk.length ∨ chunks.flatten = []) ∧
    WholeBlocks chunks := by
  cases chunks with
  | nil => exact ⟨.inr rfl, fun _ hmem => absurd hmem List.not_mem_nil⟩
  | cons next chunks =>
    refine ⟨.inl (h chunk ?_), fun c hc => h c ?_⟩
    · rw [List.dropLast_cons_cons]
      exact List.mem_cons_self
    · rw [List.dropLast_cons_cons]
      exact List.mem_cons_of_mem chunk hc

/-- The metadata behind a text of which `k` blocks have passed. --/
structure GcmMetadata.Behind (m : GcmMetadata) (E : BlockCipher) (block : List UInt8) (k : Nat) : Prop where
  hkey : m.hkey = hashKey E
  j0 : m.j0 = block
  counter : m.counter = counterBlock block k

/-- The calls come to one call for the whole text: what is hashed is the ciphertext, whichever side it is on. --/
theorem gcmUpdates_eq (update : GcmMetadata → List UInt8 → List UInt8 × GcmMetadata)
    (hashed : List UInt8 → List UInt8 → List UInt8)
    (hupdate : ∀ m input, update m input = ((gctr E input m.counter).1, { m with
      s := ghashUpdate m.hkey (hashed input (gctr E input m.counter).1) m.s
      counter := (gctr E input m.counter).2
      inputTotalLength := m.inputTotalLength + UInt32.ofNat input.length }))
    (happend : ∀ a b c d, a.length = c.length → hashed (a ++ b) (c ++ d) = hashed a c ++ hashed b d)
    (hlength : ∀ a c, a.length = c.length → (hashed a c).length = a.length)
    {j0 : List UInt8} (hj0 : j0.length = 16) (h : WholeBlocks chunks) {m : GcmMetadata} {k : Nat} (hm :
      m.Behind E j0 k) :
    let r := gcmUpdates update chunks m
    r.1 = ctr E (counterBlock j0) k chunks.flatten ∧
      r.2.s = ghash (hashKey E) m.s (blocks (hashed chunks.flatten r.1)) ∧
      r.2.inputTotalLength = m.inputTotalLength + UInt32.ofNat chunks.flatten.length ∧
      r.2.hkey = hashKey E ∧ r.2.j0 = j0 ∧ r.2.additionalDataLen = m.additionalDataLen := by
  induction chunks generalizing m k with
  | nil =>
    have hnil : hashed [] [] = [] := List.eq_nil_of_length_eq_zero (hlength [] [] rfl)
    refine ⟨rfl, ?_, ?_, hm.hkey, hm.j0, rfl⟩
    · show m.s = ghash (hashKey E) m.s (blocks (hashed [] []))
      rw [hnil, blocks_nil]
      rfl
    · show m.inputTotalLength = m.inputTotalLength + 0
      rw [UInt32.add_zero]
  | cons chunk chunks ih =>
    obtain ⟨hcut, hrest⟩ := h.cut
    have hcounter : m.counter.length = 16 := by
      rw [hm.counter]
      exact counterBlock_length hj0 k
    have hkey16 : (hashKey E).length = 16 := E.length_encrypt _ List.length_replicate
    have hout : (gctr E chunk m.counter).1 = ctr E (counterBlock j0) k chunk := by
      rw [gctr_eq hcounter, hm.counter, ctr_shift j0 hj0]
      rfl
    have hnext : (gctr E chunk m.counter).2 = counterBlock j0 (k + chunk.length / 16) := by
      rw [gctr_eq hcounter, hm.counter, counterBlock_add hj0]
    have hcount : ctr E (counterBlock j0) (k + chunk.length / 16) chunks.flatten =
        ctr E (counterBlock j0) (k + blockCount chunk.length) chunks.flatten := by
      rcases hcut with hwhole | hnil
      · rw [show chunk.length / 16 = blockCount chunk.length by rw [blockCount]; omega]
      · rw [hnil]
        rfl
    have hsum : m.inputTotalLength + UInt32.ofNat chunk.length + UInt32.ofNat chunks.flatten.length =
        m.inputTotalLength + UInt32.ofNat (chunk :: chunks).flatten.length := by
      rw [List.flatten_cons, List.length_append, UInt32.ofNat_add, UInt32.add_assoc]
    dsimp only
    rw [gcmUpdates, hupdate]
    dsimp only
    obtain ⟨hrestOut, hrestS, hrestTotal, hrestKey, hrestJ0, hrestLen⟩ := @ih hrest
      { m with
        s := ghashUpdate m.hkey (hashed chunk (gctr E chunk m.counter).1) m.s
        counter := (gctr E chunk m.counter).2
        inputTotalLength := m.inputTotalLength + UInt32.ofNat chunk.length }
      (k + chunk.length / 16) ⟨hm.hkey, hm.j0, hnext⟩
    generalize gcmUpdates update chunks _ = rest at hrestOut hrestS hrestTotal hrestKey hrestJ0 hrestLen
    refine ⟨?_, ?_, hrestTotal.trans hsum, hrestKey, hrestJ0, hrestLen⟩
    · rw [hout, hrestOut, hcount, List.flatten_cons, ctr_cut hcut]
    · have hlen : chunk.length = (gctr E chunk m.counter).1.length := by rw [hout, length_ctr]
      have htail : 16 ∣ (hashed chunk (gctr E chunk m.counter).1).length ∨ hashed chunks.flatten rest.1 = [] := by
        rw [hlength _ _ hlen]
        refine hcut.imp_right fun hnil => List.eq_nil_of_length_eq_zero ?_
        rw [hlength _ _ (by rw [hrestOut, length_ctr]), hnil, List.length_nil]
      rw [hrestS, List.flatten_cons, happend _ _ _ _ hlen, blocks_cut htail, ghash_append]
      dsimp only
      rw [hm.hkey, ghashUpdate_eq hkey16]

theorem length_preCounter (iv : List UInt8) : (preCounter E iv).length = 16 := by
  unfold preCounter
  split
  · rename_i h
    rw [List.length_append, h]
    rfl
  · exact length_ghash List.length_replicate _

/-- The start of the calls. --/
theorem gcmEncryptInit_eq (additionalData : List UInt8) {iv : List UInt8} (hiv : iv.length < 256) :
    (gcmEncryptInit E additionalData iv).Behind E (preCounter E iv) 1 ∧
      (gcmEncryptInit E additionalData iv).s = ghash (hashKey E) (List.replicate 16 0) (blocks additionalData) ∧
      (gcmEncryptInit E additionalData iv).additionalDataLen = UInt32.ofNat additionalData.length ∧
      (gcmEncryptInit E additionalData iv).inputTotalLength = 0 := by
  have hkey16 : (hashKey E).length = 16 := E.length_encrypt _ List.length_replicate
  have hj0 : (gcmEncryptInit E additionalData iv).j0 = preCounter E iv := by
    unfold gcmEncryptInit preCounter
    dsimp only
    split
    · rfl
    · have hnumber : number [0, 0, 0, 0, 0, 0, UInt8.ofNat ((iv.length <<< 3) / 256), UInt8.ofNat (iv.length <<< 3)] =
          8 * iv.length := by
        show 256 * (256 * 0 + (UInt8.ofNat ((iv.length <<< 3) / 256)).toNat) + (UInt8.ofNat (iv.length <<< 3)).toNat = _
        rw [UInt8.toNat_ofNat', UInt8.toNat_ofNat', Nat.shiftLeft_eq]
        omega
      have hbits : List.replicate 14 (0 : UInt8) ++ [UInt8.ofNat ((iv.length <<< 3) / 256),
        UInt8.ofNat (iv.length <<< 3)] =
          List.replicate 8 0 ++ bigEndian 8 (8 * iv.length) := by
        rw [← hnumber]
        exact congrArg (List.replicate 8 (0 : UInt8) ++ ·) (bigEndian_number _).symm
      have hlast : (List.replicate 8 (0 : UInt8) ++ bigEndian 8 (8 * iv.length)).length = 16 := by
        rw [List.length_append, List.length_replicate, length_bigEndian]
      rw [hbits, show E.encrypt (List.replicate 16 0) = hashKey E from rfl, ghashUpdate_eq hkey16,
        ghashUpdate_eq hkey16,
        blocks_whole hlast, ghash_append]
  refine ⟨⟨rfl, hj0, ?_⟩, ghashUpdate_eq hkey16, rfl, rfl⟩
  show gcmInc32 (gcmEncryptInit E additionalData iv).j0 = _
  rw [hj0, gcmInc32_eq (length_preCounter iv)]

/-! ### The lengths -/

theorem number_lengthOctets (length : UInt32) : number (lengthOctets length) = (length <<< 3).toNat := by
  have hlt := (length <<< 3).toNat_lt
  unfold lengthOctets
  dsimp only
  generalize (length <<< 3).toNat = bits at hlt
  show 256 * (256 * (256 * (256 * 0 + (UInt8.ofNat (bits / 256 ^ 3)).toNat) + (UInt8.ofNat (bits / 256 ^ 2)).toNat) +
    (UInt8.ofNat (bits / 256)).toNat) + (UInt8.ofNat bits).toNat = bits
  rw [UInt8.toNat_ofNat', UInt8.toNat_ofNat', UInt8.toNat_ofNat', UInt8.toNat_ofNat']
  omega

/-- The octets are the length in bits exactly where the shift loses nothing. --/
theorem lengthOctets_iff {n : Nat} (h : n < 2 ^ 32) : lengthOctets (UInt32.ofNat n) = bigEndian 8 (8 * n) ↔
    n < 2 ^ 29 := by
  have hbits : (UInt32.ofNat n <<< 3).toNat = 8 * n % 2 ^ 32 := by
    rw [UInt32.toNat_shiftLeft, UInt32.toNat_ofNat', Nat.shiftLeft_eq, show 2 ^ (UInt32.toNat 3 % 32) = 8 from rfl]
    omega
  have hnumber : number (bigEndian 8 (8 * n)) = 8 * n := number_bigEndian 8 (by omega)
  constructor
  · intro heq
    have hsame := congrArg number heq
    rw [number_lengthOctets, hbits, hnumber] at hsame
    omega
  · intro hlt
    have hback := bigEndian_number (lengthOctets (UInt32.ofNat n))
    rw [number_lengthOctets, hbits, Nat.mod_eq_of_lt (by omega)] at hback
    exact hback.symm

theorem lengthBlock_iff {m : GcmMetadata} {additionalData text : List UInt8} (ha : additionalData.length < 2 ^ 32)
    (ht : text.length < 2 ^ 32) (hma : m.additionalDataLen = UInt32.ofNat additionalData.length)
    (hmt : m.inputTotalLength = UInt32.ofNat text.length) :
    lengthBlock m = lengthsOf additionalData text ↔ additionalData.length < 2 ^ 29 ∧ text.length < 2 ^ 29 := by
  unfold lengthBlock lengthsOf
  rw [hma, hmt, ← lengthOctets_iff ha, ← lengthOctets_iff ht]
  constructor
  · intro heq
    refine List.append_inj heq ?_
    rw [length_bigEndian]
    rfl
  · rintro ⟨hfirst, hsecond⟩
    rw [hfirst, hsecond]

/-- The tag, as soon as the lengths are right. --/
theorem gcmTag_eq {m : GcmMetadata} {iv additionalData text : List UInt8} (hkey : m.hkey = hashKey E)
    (hj0 : m.j0 = preCounter E iv)
    (hs : m.s = ghash (hashKey E) (ghash (hashKey E) (List.replicate 16 0) (blocks additionalData)) (blocks text))
    (hlengths : lengthBlock m = lengthsOf additionalData text) : gcmTag E m = tagOf E iv additionalData text := by
  have hkey16 : (hashKey E).length = 16 := E.length_encrypt _ List.length_replicate
  have hpre := length_preCounter (E := E) iv
  have hlength : (lengthsOf additionalData text).length = 16 := by
    rw [lengthsOf, List.length_append, length_bigEndian, length_bigEndian]
  have hsum : ghash (hashKey E) m.s [lengthsOf additionalData text] = ghash (hashKey E) (List.replicate 16 0)
      (blocks additionalData ++ (blocks text ++ [lengthsOf additionalData text])) := by
    rw [hs, ghash_append, ghash_append]
  have h16 : (ghash (hashKey E) m.s [lengthsOf additionalData text]).length = 16 := by
    rw [hsum]
    exact length_ghash List.length_replicate _
  have henc : (E.encrypt (counterBlock (preCounter E iv) 0)).length = 16 :=
    E.length_encrypt _ (counterBlock_length hpre 0)
  unfold gcmTag tagOf
  rw [hlengths, hkey, hj0, ghashUpdate_eq hkey16, blocks_whole hlength, gctr_eq hpre]
  dsimp only
  rw [ctr_step _ _ henc, List.drop_of_length_le (Nat.le_of_eq h16), counterBlock_zero hpre, hsum]
  exact List.append_nil _

/-! ### The main result -/

/-- The calls in order: what is put out, and the metadata behind them. --/
def gcmEncryptCalls (E : BlockCipher) (iv additionalData : List UInt8) (chunks : List (List UInt8)) :
    List UInt8 × GcmMetadata :=
  gcmUpdates (gcmEncryptUpdate E) chunks (gcmEncryptInit E additionalData iv)

def gcmDecryptCalls (E : BlockCipher) (iv additionalData : List UInt8) (chunks : List (List UInt8)) :
    List UInt8 × GcmMetadata :=
  gcmUpdates (gcmDecryptUpdate E) chunks (gcmEncryptInit E additionalData iv)

/-- The calls put out what the definition says, and their way back; the lengths are exact, and no counter block comes
twice. --/
structure AsDefined (E : BlockCipher) (iv additionalData : List UInt8) (chunks : List (List UInt8)) : Prop where
  ciphertext : (gcmEncryptCalls E iv additionalData chunks).1 = ciphertext E iv chunks.flatten
  tag : ∀ icvLen ≤ 16, gcmEncryptCalculate E (gcmEncryptCalls E iv additionalData chunks).2 icvLen =
    (tagOf E iv additionalData (Gcm.ciphertext E iv chunks.flatten)).take icvLen
  decrypted : ∀ pieces, WholeBlocks pieces → pieces.flatten = Gcm.ciphertext E iv chunks.flatten →
    (gcmDecryptCalls E iv additionalData pieces).1 = chunks.flatten ∧
      ∀ icvLen ≤ 16, gcmDecryptCalculate E (gcmDecryptCalls E iv additionalData pieces).2
        ((tagOf E iv additionalData (Gcm.ciphertext E iv chunks.flatten)).take icvLen) icvLen = true
  lengths : lengthBlock (gcmEncryptCalls E iv additionalData chunks).2 = lengthsOf additionalData chunks.flatten
  counters : ∀ i < 2 ^ 32, ∀ j < 2 ^ 32, gcmInc32^[i] (preCounter E iv) = gcmInc32^[j] (preCounter E iv) → i = j

section
variable {iv additionalData : List UInt8}

/-- What the encrypting calls leave behind. --/
theorem gcmEncryptCalls_eq (hiv : iv.length < 256) (hchunks : WholeBlocks chunks) :
    let r := gcmEncryptCalls E iv additionalData chunks
    r.1 = ciphertext E iv chunks.flatten ∧
      r.2.s = ghash (hashKey E) (ghash (hashKey E) (List.replicate 16 0) (blocks additionalData)) (blocks r.1) ∧
      r.2.inputTotalLength = UInt32.ofNat chunks.flatten.length ∧ r.2.hkey = hashKey E ∧ r.2.j0 = preCounter E iv ∧
      r.2.additionalDataLen = UInt32.ofNat additionalData.length := by
  obtain ⟨hbehind, hs, hlen, hzero⟩ := @gcmEncryptInit_eq E additionalData iv hiv
  have h := gcmUpdates_eq (gcmEncryptUpdate E) (fun _ c => c) (fun _ _ => rfl) (fun _ _ _ _ _ => rfl) (fun _ _ h =>
    h.symm)
    (length_preCounter (E := E) iv) hchunks hbehind
  rw [hs, hzero, UInt32.zero_add, hlen] at h
  exact h

/-- And the decrypting calls. --/
theorem gcmDecryptCalls_eq (hiv : iv.length < 256) (hchunks : WholeBlocks chunks) :
    let r := gcmDecryptCalls E iv additionalData chunks
    r.1 = ciphertext E iv chunks.flatten ∧
      r.2.s = ghash (hashKey E) (ghash (hashKey E) (List.replicate 16 0) (blocks additionalData))
        (blocks chunks.flatten) ∧
      r.2.inputTotalLength = UInt32.ofNat chunks.flatten.length ∧ r.2.hkey = hashKey E ∧ r.2.j0 = preCounter E iv ∧
      r.2.additionalDataLen = UInt32.ofNat additionalData.length := by
  obtain ⟨hbehind, hs, hlen, hzero⟩ := @gcmEncryptInit_eq E additionalData iv hiv
  have h := gcmUpdates_eq (gcmDecryptUpdate E) (fun a _ => a) (fun _ _ => rfl) (fun _ _ _ _ _ => rfl) (fun _ _ _ => rfl)
    (length_preCounter (E := E) iv) hchunks hbehind
  rw [hs, hzero, UInt32.zero_add, hlen] at h
  exact h

theorem gcmEncryptCalls_lengths (hiv : iv.length < 256) (ha : additionalData.length < 2 ^ 32)
    (htext : chunks.flatten.length < 2 ^ 32) (hchunks : WholeBlocks chunks) :
    lengthBlock (gcmEncryptCalls E iv additionalData chunks).2 = lengthsOf additionalData chunks.flatten ↔
      additionalData.length < 2 ^ 29 ∧ chunks.flatten.length < 2 ^ 29 := by
  obtain ⟨-, -, htotal, -, -, hlen⟩ := @gcmEncryptCalls_eq E chunks iv additionalData hiv hchunks
  exact lengthBlock_iff ha htext hlen htotal

end

/-- The calls are GCM exactly as long as the lengths in bits fit the 32-bit shift. --/
theorem gcm_calls_iff (E : BlockCipher) (iv additionalData : List UInt8) (chunks : List (List UInt8)) (hiv :
    iv.length < 256)
    (ha : additionalData.length < 2 ^ 32) (htext : chunks.flatten.length < 2 ^ 32) (hchunks : WholeBlocks chunks) :
    AsDefined E iv additionalData chunks ↔ additionalData.length < 2 ^ 29 ∧ chunks.flatten.length < 2 ^ 29 := by
  have hpre := length_preCounter (E := E) iv
  have hlengths := gcmEncryptCalls_lengths (E := E) hiv ha htext hchunks
  obtain ⟨heOut, heS, heTotal, heKey, heJ0, heLen⟩ := @gcmEncryptCalls_eq E chunks iv additionalData hiv hchunks
  refine ⟨fun h => hlengths.mp h.lengths, fun h => ?_⟩
  have hexact := hlengths.mpr h
  have htag : ∀ {m : GcmMetadata}, m.hkey = hashKey E → m.j0 = preCounter E iv →
      m.s = ghash (hashKey E) (ghash (hashKey E) (List.replicate 16 0) (blocks additionalData))
        (blocks (ciphertext E iv chunks.flatten)) →
      m.additionalDataLen = UInt32.ofNat additionalData.length →
        m.inputTotalLength = UInt32.ofNat chunks.flatten.length →
      gcmTag E m = tagOf E iv additionalData (ciphertext E iv chunks.flatten) := by
    intro m hkey hj0 hms hma hmt
    refine gcmTag_eq hkey hj0 hms ?_
    have hsame : lengthsOf additionalData (ciphertext E iv chunks.flatten) = lengthsOf additionalData chunks.flatten :=
      by
      rw [lengthsOf, lengthsOf, ciphertext, length_ctr]
    rw [hsame]
    exact (lengthBlock_iff ha htext hma hmt).mpr h
  refine ⟨heOut, fun icvLen _ => ?_, fun pieces hpieces hflatten => ?_, hexact, fun i hi j hj heq => ?_⟩
  · unfold gcmEncryptCalculate
    rw [htag heKey heJ0 (by rw [heS, heOut]) heLen heTotal]
  · obtain ⟨hdOut, hdS, hdTotal, hdKey, hdJ0, hdLen⟩ := @gcmDecryptCalls_eq E pieces iv additionalData hiv hpieces
    rw [hflatten] at hdS
    rw [hflatten, ciphertext, length_ctr] at hdTotal
    refine ⟨?_, fun icvLen hicv => ?_⟩
    · rw [hdOut, hflatten, ciphertext, ciphertext, ctr_ctr]
    · unfold gcmDecryptCalculate
      rw [htag hdKey hdJ0 hdS hdLen hdTotal]
      refine List.all_eq_true.mpr fun i hi => decide_eq_true ?_
      rw [List.mem_range] at hi
      rw [List.getD_eq_getElem?_getD, List.getD_eq_getElem?_getD, List.getElem?_take_of_lt hi]
  · rw [gcmInc32_iterate hpre, gcmInc32_iterate hpre] at heq
    exact counterBlock_injective hi hj heq

end

/-! ### Additional data that is too long -/

/-- The cipher that leaves every block as it is. --/
def plainCipher : BlockCipher := ⟨id, fun _ h => h⟩

theorem gcm_calls_iff_small : AsDefined plainCipher (List.replicate 12 0) [] [[1]] ↔ 0 < 2 ^ 29 ∧ 1 < 2 ^ 29 :=
  gcm_calls_iff plainCipher (List.replicate 12 0) [] [[1]] (by decide) (by decide) (by decide)
    fun _ hmem => absurd hmem List.not_mem_nil

/-- For 2^29 octets of additional data the length in bits is written as zero. --/
theorem length_wraps : lengthOctets (UInt32.ofNat (2 ^ 29)) = List.replicate 8 0 ∧
    ¬AsDefined plainCipher (List.replicate 12 0) (List.replicate (2 ^ 29) 0) [] := by
  refine ⟨by decide, fun h => ?_⟩
  have hlength : (List.replicate (2 ^ 29) (0 : UInt8)).length = 2 ^ 29 := List.length_replicate
  have hlengths := gcmEncryptCalls_lengths (E := plainCipher) (show (List.replicate 12 (0 : UInt8)).length <
    256 by decide)
    (show (List.replicate (2 ^ 29) (0 : UInt8)).length < 2 ^ 32 by rw [hlength]; decide)
    (show ([] : List (List UInt8)).flatten.length < 2 ^ 32 by decide) (fun _ hmem => absurd hmem List.not_mem_nil)
  have hlt := (hlengths.mp h.lengths).1
  rw [hlength] at hlt
  exact absurd hlt (Nat.lt_irrefl _)

end Netxduo.Crypto.Gcm
