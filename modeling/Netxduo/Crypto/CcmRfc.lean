import Netxduo.Crypto.Ccm

/-! Counter mode with the chained code as RFC 3610 defines it, and when `nx_crypto_ccm.c` computes it: where the message
    has fewer than `2 ^ 16` octets and the additional data does not keep a 32-bit loop from ending. -/

namespace Netxduo
open BlockModes

/-! ### The definition -/

namespace Rfc3610

/-- B_0: the flags, the nonce and the length of the message in `L` octets. --/
def firstBlock (L M : Nat) (nonce a m : List UInt8) : List UInt8 :=
  UInt8.ofNat ((if 0 < a.length then 64 else 0) + 8 * ((M - 2) / 2) + (L - 1)) :: nonce ++ bigEndian L m.length

/-- l(a), for additional data of fewer than `2 ^ 32` octets. --/
def encodedLength (n : Nat) : List UInt8 :=
  if n < 2 ^ 16 - 2 ^ 8 then bigEndian 2 n else [0xFF, 0xFE] ++ bigEndian 4 n

def associated (a : List UInt8) : List (List UInt8) := if a = [] then [] else blocks (encodedLength a.length ++ a)

/-- A_i. --/
def counterBlock (L : Nat) (nonce : List UInt8) (i : Nat) : List UInt8 :=
  UInt8.ofNat (L - 1) :: nonce ++ bigEndian L i

/-- The last X_i; the code T of the message is its first `M` octets. --/
def mac (E : BlockCipher) (L M : Nat) (nonce a m : List UInt8) : List UInt8 :=
  cbcMac E (E.encrypt (firstBlock L M nonce a m)) (associated a ++ blocks m)

def ciphertext (E : BlockCipher) (L : Nat) (nonce m : List UInt8) : List UInt8 := ctr E (counterBlock L nonce) 1 m

/-- T under S_0. --/
def tag (E : BlockCipher) (L M : Nat) (nonce a m : List UInt8) : List UInt8 :=
  xor ((mac E L M nonce a m).take M) ((E.encrypt (counterBlock L nonce 0)).take M)

end Rfc3610

open Rfc3610

section
variable {E : BlockCipher} {pre post bytes nonce input output a b m X : List UInt8} {i j c L M length fuel : Nat}

/-! ### Buffers -/

theorem writeAt_left (pre post bytes : List UInt8) :
    writeAt (pre ++ post) pre.length bytes = pre ++ bytes ++ post.drop bytes.length := by
  rw [writeAt, List.take_left, List.drop_append, List.drop_of_length_le (by omega), List.nil_append,
    Nat.add_sub_cancel_left]

theorem writeAt_append (pre mid post bytes : List UInt8) (hmid : mid.length = bytes.length) :
    writeAt (pre ++ mid ++ post) pre.length bytes = pre ++ bytes ++ post := by
  rw [List.append_assoc, writeAt_left, ← hmid, List.drop_left]

theorem take_writeAt (pre bytes : List UInt8) (h : i ≤ pre.length) :
    (writeAt pre i bytes).take (i + bytes.length) = pre.take i ++ bytes := by
  rw [writeAt, List.take_left' (by rw [List.length_append, List.length_take]; omega)]

theorem length_writeAt (h : i + bytes.length ≤ pre.length) : (writeAt pre i bytes).length = pre.length := by
  rw [writeAt, List.length_append, List.length_append, List.length_take, List.length_drop]
  omega

theorem set_append (u v : UInt8) : (pre ++ u :: post).set pre.length v = pre ++ v :: post := by
  rw [List.set_append_right _ _ (Nat.le_refl _), Nat.sub_self, List.set_cons_zero]

theorem getD_append (u d : UInt8) : (pre ++ u :: post).getD pre.length d = u := by
  rw [List.getD_append_right _ _ _ _ (Nat.le_refl _), Nat.sub_self, List.getD_cons_zero]

/-! ### The counter -/

/-- The carry goes through the octets of the counter and no further. --/
theorem ccmCounterCarry_eq (pre post : List UInt8) (width c : Nat) :
    ccmCounterCarry pre.length (pre ++ bigEndian width c ++ post) (pre.length + width) =
      pre ++ bigEndian width (c + 1) ++ post := by
  induction width generalizing c post with
  | zero =>
    show ccmCounterCarry pre.length (pre ++ [] ++ post) pre.length = pre ++ [] ++ post
    cases hlen : pre.length with
    | zero => rfl
    | succ n => rw [ccmCounterCarry, if_pos (Nat.lt_succ_self n)]
  | succ width ih =>
    have hlen : (pre ++ bigEndian width (c / 256)).length = pre.length + width := by
      rw [List.length_append, length_bigEndian]
    have hshape : pre ++ bigEndian (width + 1) c ++ post = pre ++ bigEndian width (c / 256) ++ UInt8.ofNat c :: post := by
      simp [bigEndian]
    have hnext : UInt8.ofNat c + 1 = UInt8.ofNat (c + 1) := by
      rw [UInt8.ofNat_add]
      rfl
    rw [hshape, ← Nat.add_assoc, ccmCounterCarry, if_neg (by omega), ← hlen, getD_append, set_append]
    dsimp only
    rw [getD_append, hnext]
    have hzero : UInt8.ofNat (c + 1) ≠ 0 ↔ (c + 1) % 256 ≠ 0 := by
      rw [Ne, ← UInt8.toNat_inj, UInt8.toNat_ofNat']
      rfl
    by_cases hcarry : (c + 1) % 256 = 0
    · have hhigh : c / 256 + 1 = (c + 1) / 256 := by omega
      rw [if_neg (mt hzero.mp (not_not.mpr hcarry)), hlen, ih, hhigh]
      simp [bigEndian]
    · have hhigh : c / 256 = (c + 1) / 256 := by omega
      rw [if_pos (hzero.mpr hcarry), hhigh]
      simp [bigEndian]

/-- The length of the length field is read off the flags. --/
theorem ccmCounterFirst_eq (hL : 2 ≤ L) (hL' : L ≤ 8) : ccmCounterFirst (counterBlock L nonce c) = 16 - L := by
  rw [ccmCounterFirst, counterBlock, List.cons_append, List.getD_cons_zero]
  interval_cases L <;> rfl

theorem length_counterBlock (hL' : L ≤ 8) (hnonce : nonce.length = 15 - L) : (counterBlock L nonce c).length = 16 := by
  rw [counterBlock, List.cons_append, List.length_cons, List.length_append, length_bigEndian, hnonce]
  omega

theorem ccmCounterIncrement_eq (hL : 2 ≤ L) (hL' : L ≤ 8) (hnonce : nonce.length = 15 - L) :
    ccmCounterIncrement (counterBlock L nonce c) = counterBlock L nonce (c + 1) := by
  have hpre : (UInt8.ofNat (L - 1) :: nonce).length = 16 - L := by
    rw [List.length_cons, hnonce]
    omega
  have hcarry := ccmCounterCarry_eq (UInt8.ofNat (L - 1) :: nonce) [] L c
  rw [hpre, List.append_nil, List.append_nil, show 16 - L + L = 16 by omega] at hcarry
  rw [ccmCounterIncrement, ccmCounterFirst_eq hL hL']
  exact hcarry

theorem ccmCounterZero_eq (hL : 2 ≤ L) (hL' : L ≤ 8) (hnonce : nonce.length = 15 - L) :
    ccmCounterZero (counterBlock L nonce c) = counterBlock L nonce 0 := by
  have hpre : (UInt8.ofNat (L - 1) :: nonce).length = 16 - L := by
    rw [List.length_cons, hnonce]
    omega
  have hwrite := writeAt_append (UInt8.ofNat (L - 1) :: nonce) (bigEndian L c) [] (List.replicate L 0)
    (by rw [length_bigEndian, List.length_replicate])
  rw [hpre, List.append_nil, List.append_nil] at hwrite
  rw [ccmCounterZero, ccmCounterFirst_eq hL hL', show 16 - (16 - L) = L by omega, counterBlock, counterBlock,
    bigEndian_zero]
  exact hwrite

/-! ### The chained code -/

/-- The block the loop reads. --/
theorem readBlock_eq (hj : 16 * j < length) (hlen : length ≤ input.length) :
    (if length - 16 * j < 16 then
        xor ((input.drop (16 * j)).take (length - 16 * j) ++ List.replicate (16 - (length - 16 * j)) 0) X
      else xor ((input.drop (16 * j)).take 16) X) = xor X (block (input.take length) j) := by
  rw [xor_swap (x := X), block, List.drop_take, List.take_take]
  split
  · rw [Nat.min_eq_right (by omega), List.length_take, List.length_drop, Nat.min_eq_left (by omega)]
  · rw [Nat.min_eq_left (by omega), List.length_take, List.length_drop, Nat.min_eq_left (by omega), Nat.sub_self,
      List.replicate_zero, List.append_nil]

/-- From block `j` on, as long as the index does not come around. --/
theorem ccmCbcPadLoop_eq (hlen : length ≤ input.length) (hbound : length ≤ 2 ^ 32 - 16) :
    ∀ k j fuel X, j + k = blockCount length → k < fuel →
      ccmCbcPadLoop E input length fuel (16 * j) X = some (cbcMac E X ((blocks (input.take length)).drop j)) := by
  have hdata : (input.take length).length = length := by
    rw [List.length_take]
    omega
  intro k
  induction k with
  | zero =>
    intro j fuel X hj hfuel
    obtain ⟨fuel, rfl⟩ := Nat.exists_eq_add_one_of_ne_zero (Nat.ne_of_gt hfuel)
    have hcount : blockCount length = (length + 15) / 16 := rfl
    rw [ccmCbcPadLoop, if_neg (by omega), drop_blocks_length (by rw [hdata]; omega)]
    rfl
  | succ k ih =>
    intro j fuel X hj hfuel
    obtain ⟨fuel, rfl⟩ := Nat.exists_eq_add_one_of_ne_zero (Nat.ne_of_gt (Nat.lt_of_le_of_lt (Nat.zero_le _) hfuel))
    have hcount : blockCount length = (length + 15) / 16 := rfl
    have hin : 16 * j < length := by omega
    rw [ccmCbcPadLoop, if_pos hin, drop_blocks (by rw [hdata]; omega)]
    dsimp only
    rw [readBlock_eq hin hlen, Nat.mod_eq_of_lt (by omega), show 16 * j + 16 = 16 * (j + 1) by omega,
      ih (j + 1) fuel _ (by omega) (by omega)]
    rfl

/-- Enough rounds for every length of 32 bits. --/
theorem ccmCbcPad_eq (hlen : length ≤ input.length) (hbound : length ≤ 2 ^ 32 - 16) (hfuel : 2 ^ 28 < fuel) :
    ccmCbcPad fuel E input length X = some (cbcMac E X (blocks (input.take length))) := by
  have hcount : blockCount length = (length + 15) / 16 := rfl
  exact ccmCbcPadLoop_eq hlen hbound (blockCount length) 0 fuel X (Nat.zero_add _) (by omega)

/-- Beyond `2 ^ 32 - 16` octets the index comes around before it gets there. --/
theorem ccmCbcPadLoop_endless (hlong : 2 ^ 32 - 16 < length) (hi : i % 16 = 0) (hlt : i < 2 ^ 32) :
    ccmCbcPadLoop E input length fuel i X = none := by
  induction fuel generalizing i X with
  | zero => rfl
  | succ fuel ih =>
    rw [ccmCbcPadLoop, if_pos (by omega)]
    exact ih (by omega) (Nat.mod_lt _ (by omega))

/-! ### The first block -/

theorem ccmFlags_eq (n : Nat) (hL : 2 ≤ L) (hL' : L ≤ 8) (hM : 4 ≤ M) (hM' : M ≤ 16) :
    (if n > 0 then UInt8.ofNat (1 <<< 6) else 0) ||| UInt8.ofNat (((M - 2) >>> 1) <<< 3) ||| UInt8.ofNat (L - 1) =
      UInt8.ofNat ((if 0 < n then 64 else 0) + 8 * ((M - 2) / 2) + (L - 1)) := by
  split <;> interval_cases L <;> interval_cases M <;> rfl

/-- Only the lowest two octets of the length are written. --/
theorem ccmFirstBlock_eq (n : Nat) (hL : 2 ≤ L) (hL' : L ≤ 8) (hM : 4 ≤ M) (hM' : M ≤ 16)
    (hnonce : nonce.length = 15 - L) :
    ccmFirstBlock a.length n nonce L M =
      UInt8.ofNat ((if 0 < a.length then 64 else 0) + 8 * ((M - 2) / 2) + (L - 1)) :: nonce ++
        (List.replicate (L - 2) 0 ++ [UInt8.ofNat (n / 256), UInt8.ofNat n]) := by
  unfold ccmFirstBlock
  dsimp only
  rw [ccmFlags_eq a.length hL hL' hM hM', Nat.shiftRight_eq_div_pow]
  generalize UInt8.ofNat ((if 0 < a.length then 64 else 0) + 8 * ((M - 2) / 2) + (L - 1)) = flags
  have hshape : (List.replicate 16 (0 : UInt8)).set 0 flags =
      [flags] ++ List.replicate (15 - L) 0 ++ (List.replicate (L - 2) 0 ++ [0, 0]) := by
    have hsplit : List.replicate 15 (0 : UInt8) =
        List.replicate (15 - L) 0 ++ (List.replicate (L - 2) 0 ++ List.replicate 2 0) := by
      rw [List.replicate_append_replicate, List.replicate_append_replicate]
      congr 1
      omega
    show flags :: List.replicate 15 0 = _
    rw [hsplit]
    rfl
  have hwrite := writeAt_append [flags] (List.replicate (15 - L) 0) (List.replicate (L - 2) 0 ++ [0, 0]) nonce
    (by rw [List.length_replicate, hnonce])
  have htake : nonce.take (15 - L) = nonce := List.take_of_length_le (Nat.le_of_eq hnonce)
  have hlen : (flags :: nonce ++ List.replicate (L - 2) 0).length = 14 := by
    rw [List.length_append, List.length_cons, List.length_replicate, hnonce]
    omega
  have hhigh := @set_append (flags :: nonce ++ List.replicate (L - 2) 0) [0] 0 (UInt8.ofNat (n / 2 ^ 8))
  have hlow := @set_append (flags :: nonce ++ List.replicate (L - 2) 0 ++ [UInt8.ofNat (n / 2 ^ 8)]) [] 0
    (UInt8.ofNat n)
  rw [hlen] at hhigh
  rw [List.length_append, hlen] at hlow
  rw [hshape, htake, show writeAt ([flags] ++ List.replicate (15 - L) 0 ++ (List.replicate (L - 2) 0 ++ [0, 0])) 1 nonce =
    [flags] ++ nonce ++ (List.replicate (L - 2) 0 ++ [0, 0]) from hwrite]
  have hassoc : [flags] ++ nonce ++ (List.replicate (L - 2) 0 ++ [0, 0]) =
      flags :: nonce ++ List.replicate (L - 2) 0 ++ 0 :: [0] := by simp
  have hassoc' : flags :: nonce ++ List.replicate (L - 2) 0 ++ UInt8.ofNat (n / 2 ^ 8) :: [0] =
      flags :: nonce ++ List.replicate (L - 2) 0 ++ [UInt8.ofNat (n / 2 ^ 8)] ++ 0 :: [] := by simp
  rw [hassoc, hhigh, hassoc', show 15 = 14 + [UInt8.ofNat (n / 2 ^ 8)].length from rfl, hlow]
  simp

/-- The length in `L` octets is zeros and those two octets exactly where it is below `2 ^ 16`. --/
theorem bigEndian_low_iff {n : Nat} (hL : 2 ≤ L) (hn : n < 256 ^ L) :
    List.replicate (L - 2) 0 ++ [UInt8.ofNat (n / 256), UInt8.ofNat n] = bigEndian L n ↔ n < 2 ^ 16 := by
  obtain ⟨k, rfl⟩ : ∃ k, L = k + 2 := ⟨L - 2, by omega⟩
  have hshape : bigEndian (k + 2) n = bigEndian k (n / 256 / 256) ++ [UInt8.ofNat (n / 256), UInt8.ofNat n] := by
    rw [bigEndian, bigEndian, List.append_assoc]
    rfl
  rw [hshape, Nat.add_sub_cancel, List.append_cancel_right_eq]
  rw [Nat.pow_add] at hn
  constructor
  · intro h
    have := eq_zero_of_bigEndian (by omega) h.symm
    omega
  · intro h
    rw [show n / 256 / 256 = 0 by omega, bigEndian_zero]

/-- The block holds the length exactly where it is below `2 ^ 16`. --/
theorem ccmFirstBlock_iff (hL : 2 ≤ L) (hL' : L ≤ 8) (hM : 4 ≤ M) (hM' : M ≤ 16) (hnonce : nonce.length = 15 - L)
    (hm : m.length < 256 ^ L) :
    ccmFirstBlock a.length m.length nonce L M = firstBlock L M nonce a m ↔ m.length < 2 ^ 16 := by
  rw [ccmFirstBlock_eq m.length hL hL' hM hM' hnonce, firstBlock, List.append_cancel_left_eq, bigEndian_low_iff hL hm]

theorem length_firstBlock (hL' : L ≤ 8) (hnonce : nonce.length = 15 - L) : (firstBlock L M nonce a m).length = 16 := by
  rw [firstBlock, List.cons_append, List.length_cons, List.length_append, length_bigEndian, hnonce]
  omega

/-! ### The additional data -/

theorem ccmLengthOctets_eq (n : Nat) : ccmLengthOctets n = encodedLength n := by
  have h16 : n >>> 8 = n / 256 := Nat.shiftRight_eq_div_pow ..
  have h24 : n >>> 16 = n / 256 / 256 := by
    rw [Nat.shiftRight_eq_div_pow, Nat.div_div_eq_div_mul]
  have h32 : n >>> 24 = n / 256 / 256 / 256 := by
    rw [Nat.shiftRight_eq_div_pow, Nat.div_div_eq_div_mul, Nat.div_div_eq_div_mul]
  unfold ccmLengthOctets encodedLength
  rw [h16, h24, h32]
  rfl

theorem length_encodedLength (n : Nat) : (encodedLength n).length = 2 ∨ (encodedLength n).length = 6 := by
  unfold encodedLength
  split
  · exact .inl rfl
  · exact .inr rfl

theorem blocks_one (h : b.length = 16) : blocks b = [b] := by
  have hcount : blockCount b.length = 1 := by
    rw [blockCount, h]
  rw [blocks, hcount]
  show [block b 0] = [b]
  rw [block, Nat.mul_zero, List.drop_zero, List.take_of_length_le (by omega), h]
  exact congrArg (· :: []) (List.append_nil b)

/-- The chaining value after B_0 and the additional data. --/
theorem ccmAuthenticationInit_eq {n : Nat} (hB : (ccmFirstBlock a.length n nonce L M).length = 16)
    (ha : a.length ≤ 2 ^ 32 - 6) (hfuel : 2 ^ 28 < fuel) :
    ccmAuthenticationInit fuel E a a.length n nonce L M =
      some (cbcMac E (E.encrypt (ccmFirstBlock a.length n nonce L M)) (associated a)) := by
  unfold ccmAuthenticationInit
  dsimp only
  generalize ccmFirstBlock a.length n nonce L M = B at hB
  have hfirst : cbcMac E (List.replicate 16 0) [B] = E.encrypt B := by
    show E.encrypt (xor (List.replicate 16 0) B) = _
    rw [xor_swap, xor_zero (Nat.le_of_eq hB)]
  rw [ccmCbcPad_eq (Nat.le_of_eq hB.symm) (by omega) hfuel, Option.bind_some, List.take_of_length_le (Nat.le_of_eq hB),
    blocks_one hB, hfirst, ccmLengthOctets_eq, associated]
  by_cases hempty : a = []
  · rw [if_pos hempty, hempty]
    rfl
  · have hpos : a.length > 0 := List.length_pos_of_ne_nil hempty
    rw [if_pos hpos, if_neg hempty]
    have he := length_encodedLength a.length
    generalize encodedLength a.length = e at he
    have hmin : (if a.length > 16 - e.length then 16 - e.length else a.length) = min a.length (16 - e.length) := by
      split <;> omega
    rw [hmin]
    obtain ⟨t, ht⟩ : ∃ t, t = min a.length (16 - e.length) := ⟨_, rfl⟩
    rw [← ht]
    have htake : (a.take t).length = t := by
      rw [List.length_take]
      omega
    have hhead : (writeAt B 0 e).length = B.length := length_writeAt (by omega)
    have hinner : (writeAt B 0 e).take e.length = e := by
      have := @take_writeAt 0 B e (Nat.zero_le _)
      rw [Nat.zero_add, List.take_zero, List.nil_append] at this
      exact this
    have hlen : (writeAt (writeAt B 0 e) e.length (a.take t)).length = 16 := by
      rw [length_writeAt (by omega), hhead, hB]
    have hread : (writeAt (writeAt B 0 e) e.length (a.take t)).take (t + e.length) = e ++ a.take t := by
      have := @take_writeAt e.length (writeAt B 0 e) (a.take t) (by omega)
      rw [htake, hinner, Nat.add_comm] at this
      exact this
    rw [ccmCbcPad_eq (by omega) (by omega) hfuel, Option.bind_some, hread]
    by_cases hmore : a.length > t
    · -- the first block is full, and the rest goes on after it
      have hdrop : (a.drop t).length = a.length - t := List.length_drop ..
      have hfull : 16 ∣ (e ++ a.take t).length := ⟨1, by rw [List.length_append]; omega⟩
      rw [if_pos hmore, ccmCbcPad_eq (Nat.le_of_eq hdrop.symm) (by omega) hfuel,
        List.take_of_length_le (Nat.le_of_eq hdrop), ← cbcMac_append, ← blocks_append hfull, List.append_assoc,
        List.take_append_drop]
    · rw [if_neg hmore, List.take_of_length_le (Nat.le_of_not_lt hmore)]

/-- Additional data of more octets never ends. --/
theorem ccmAuthenticationInit_endless {n : Nat} (ha : 2 ^ 32 - 6 < a.length) (ha' : a.length < 2 ^ 32) :
    ccmAuthenticationInit fuel E a a.length n nonce L M = none := by
  unfold ccmAuthenticationInit
  dsimp only
  have hlarge : (ccmLengthOctets a.length).length = 6 := by
    rw [ccmLengthOctets, if_neg (by omega)]
    rfl
  rw [hlarge, if_pos (show a.length > 16 - 6 by omega), Option.bind_eq_none_iff]
  intro X hX
  rw [if_pos (show a.length > 0 by omega), Option.bind_eq_none_iff]
  intro Y hY
  rw [if_pos (show a.length > 16 - 6 by omega)]
  exact ccmCbcPadLoop_endless (by omega) rfl (by omega)

/-! ### An update -/

/-- From block `j` on: the octets before it stay, those from it on are the text under the key stream. --/
theorem ccmUpdateLoop_eq (hL : 2 ≤ L) (hL' : L ≤ 8) (hnonce : nonce.length = 15 - L) (hlen : length ≤ input.length)
    (hbound : length ≤ 2 ^ 32 - 16) :
    ∀ k j fuel c done rest, j + k = blockCount length → k < fuel → done.length = min (16 * j) length →
      done.length + rest.length = length →
      ccmUpdateLoop E input length fuel (16 * j) (counterBlock L nonce c) (done ++ rest) =
        some (counterBlock L nonce (c + k),
          done ++ ctr E (counterBlock L nonce) (c + 1) ((input.take length).drop (16 * j))) := by
  have hdata : (input.take length).length = length := by
    rw [List.length_take]
    omega
  intro k
  induction k with
  | zero =>
    intro j fuel c done rest hj hfuel hdone hrest
    obtain ⟨fuel, rfl⟩ := Nat.exists_eq_add_one_of_ne_zero (Nat.ne_of_gt hfuel)
    have hcount : blockCount length = (length + 15) / 16 := rfl
    obtain rfl : rest = [] := List.eq_nil_of_length_eq_zero (by omega)
    rw [ccmUpdateLoop, if_neg (by omega), List.drop_of_length_le (by omega)]
    rfl
  | succ k ih =>
    intro j fuel c done rest hj hfuel hdone hrest
    obtain ⟨fuel, rfl⟩ := Nat.exists_eq_add_one_of_ne_zero (Nat.ne_of_gt (Nat.lt_of_le_of_lt (Nat.zero_le _) hfuel))
    have hcount : blockCount length = (length + 15) / 16 := rfl
    have hstart : done.length = 16 * j := by omega
    have hblock : (E.encrypt (counterBlock L nonce (c + 1))).length = 16 :=
      E.length_encrypt _ (length_counterBlock hL' hnonce)
    have hsum : (xor (E.encrypt (counterBlock L nonce (c + 1))) ((input.take length).drop (16 * j))).length =
        min 16 (length - 16 * j) := by
      rw [length_xor, hblock, List.length_drop, hdata]
    have hwrite := writeAt_left done rest
      (xor (E.encrypt (counterBlock L nonce (c + 1))) ((input.take length).drop (16 * j)))
    rw [hstart] at hwrite
    rw [ccmUpdateLoop, if_pos (by omega)]
    dsimp only
    rw [ccmCounterIncrement_eq hL hL' hnonce, hwrite, Nat.mod_eq_of_lt (by omega),
      show 16 * j + 16 = 16 * (j + 1) by omega, ih (j + 1) fuel (c + 1) _ _ (by omega) (by omega)
        (by rw [List.length_append, hsum]; omega)
        (by rw [List.length_append, List.length_drop, hsum]; omega),
      ctr_step (c + 1) ((input.take length).drop (16 * j)) hblock, List.drop_drop, List.append_assoc,
      show c + 1 + k = c + (k + 1) by omega]
    rfl

/-- The text the code is over: what an encryption reads and what a decryption writes. --/
def plainOf (op : CcmOp) (E : BlockCipher) (counter : Nat → List UInt8) (c : Nat) (input : List UInt8) : List UInt8 :=
  if op = .encryptUpdate then input else ctr E counter (c + 1) input

theorem length_plainOf {op : CcmOp} {counter : Nat → List UInt8} :
    (plainOf op E counter c input).length = input.length := by
  unfold plainOf
  split
  · rfl
  · exact length_ctr

theorem plainOf_cut {op : CcmOp} {counter : Nat → List UInt8} (h : 16 ∣ a.length ∨ b = []) :
    plainOf op E counter c (a ++ b) =
      plainOf op E counter c a ++ plainOf op E counter (c + blockCount a.length) b := by
  unfold plainOf
  split
  · rfl
  · rw [ctr_cut h, Nat.add_right_comm]

/-- An update writes its piece under the key stream and takes the plain text into the code. --/
theorem ccmEncryptUpdate_eq (op : CcmOp) (hL : 2 ≤ L) (hL' : L ≤ 8) (hnonce : nonce.length = 15 - L) (hM : 0 < M)
    (hbound : input.length ≤ 2 ^ 32 - 16) (houtput : output.length = input.length) (hfuel : 2 ^ 28 < fuel) :
    ccmEncryptUpdate op fuel E ⟨M, counterBlock L nonce c, X⟩ input output input.length 16 =
      some (.success, ⟨M, counterBlock L nonce (c + blockCount input.length),
        cbcMac E X (blocks (plainOf op E (counterBlock L nonce) c input))⟩,
        ctr E (counterBlock L nonce) (c + 1) input) := by
  have hstream : (if input.length > 0 then
        ccmUpdateLoop E input input.length fuel 0 (counterBlock L nonce c) output
      else some (counterBlock L nonce c, output)) =
      some (counterBlock L nonce (c + blockCount input.length), ctr E (counterBlock L nonce) (c + 1) input) := by
    split
    · have hcount : blockCount input.length = (input.length + 15) / 16 := rfl
      have := @ccmUpdateLoop_eq E nonce input L input.length hL hL' hnonce (Nat.le_refl _) hbound
        (blockCount input.length) 0 fuel c [] output (Nat.zero_add _) (by omega) (by simp) (by simp [houtput])
      rw [List.take_length, Nat.mul_zero, List.drop_zero, List.nil_append, List.nil_append] at this
      exact this
    · obtain rfl : input = [] := List.eq_nil_of_length_eq_zero (by omega)
      obtain rfl : output = [] := List.eq_nil_of_length_eq_zero houtput
      rfl
  unfold ccmEncryptUpdate
  dsimp only
  rw [if_neg (not_not.mpr rfl), hstream]
  cases op with
  | encryptUpdate =>
    rw [if_pos ⟨rfl, hM⟩, ccmCbcPad_eq (Nat.le_refl _) hbound hfuel, List.take_length, Option.bind_some, Option.bind_some,
      if_neg (by rintro ⟨h, -⟩; cases h)]
    rfl
  | decryptUpdate =>
    rw [if_neg (by rintro ⟨h, -⟩; cases h), Option.bind_some, Option.bind_some, if_pos ⟨rfl, hM⟩,
      ccmCbcPad_eq (Nat.le_of_eq length_ctr.symm) hbound hfuel, List.take_of_length_le (Nat.le_of_eq length_ctr)]
    rfl

/-! ### A whole message -/

/-- Every piece but the last has whole blocks. --/
def WholeBlocks (pieces : List CcmPiece) : Prop := ∀ n ∈ (pieces.map (·.input.length)).dropLast, 16 ∣ n

/-- The text of the pieces. --/
def textOf (pieces : List CcmPiece) : List UInt8 := (pieces.map (·.input)).flatten

theorem ccmUpdates_eq (op : CcmOp) (hL : 2 ≤ L) (hL' : L ≤ 8) (hnonce : nonce.length = 15 - L) (hM : 0 < M)
    (hfuel : 2 ^ 28 < fuel) (pieces : List CcmPiece) (hpieces : WholeBlocks pieces)
    (hbound : (textOf pieces).length ≤ 2 ^ 32 - 16) :
    ∃ outs, ccmUpdates op fuel E pieces ⟨M, counterBlock L nonce c, X⟩ =
        some (⟨M, counterBlock L nonce (c + blockCount (textOf pieces).length),
          cbcMac E X (blocks (plainOf op E (counterBlock L nonce) c (textOf pieces)))⟩, outs) ∧
      outs.flatten = ctr E (counterBlock L nonce) (c + 1) (textOf pieces) ∧
      outs.map List.length = pieces.map (·.input.length) := by
  induction pieces generalizing c X with
  | nil =>
    refine ⟨[], ?_, rfl, rfl⟩
    have hplain : plainOf op E (counterBlock L nonce) c (textOf []) = [] :=
      List.eq_nil_of_length_eq_zero length_plainOf
    rw [show blockCount (textOf []).length = 0 from rfl, hplain, blocks_nil]
    rfl
  | cons p rest ih =>
    have htext : textOf (p :: rest) = p.input ++ textOf rest := rfl
    rw [htext, List.length_append] at hbound
    have hcut : 16 ∣ p.input.length ∨ textOf rest = [] := by
      cases rest with
      | nil => exact .inr rfl
      | cons q rest => exact .inl (hpieces _ (List.mem_cons_self ..))
    have hrest : WholeBlocks rest := by
      cases rest with
      | nil => exact fun n hn => absurd hn (List.not_mem_nil)
      | cons q rest => exact fun n hn => hpieces n (List.mem_cons_of_mem _ hn)
    obtain ⟨outs, hrun, hflat, hlens⟩ := @ih (cbcMac E X (blocks (plainOf op E (counterBlock L nonce) c p.input)))
      (c + blockCount p.input.length) hrest (by omega)
    refine ⟨ctr E (counterBlock L nonce) (c + 1) p.input :: outs, ?_, ?_, ?_⟩
    · rw [ccmUpdates, ccmEncryptUpdate_eq op hL hL' hnonce hM (by omega) p.length_output hfuel, Option.bind_some, hrun,
        htext, plainOf_cut hcut, blocks_cut (by
          rw [length_plainOf]
          refine hcut.imp id fun h => ?_
          rw [h]
          cases op <;> rfl),
        cbcMac_append, blockCount_cut hcut, Nat.add_assoc]
      rfl
    · rw [List.flatten_cons, hflat, htext, ctr_cut hcut, Nat.add_right_comm]
    · rw [List.map_cons, List.map_cons, length_ctr, hlens]

/-- The start of a message. --/
theorem ccmEncryptInit_eq (ccm : Ccm) (n : Nat) (hL : 2 ≤ L) (hL' : L ≤ 8) (hnonce : nonce.length = 15 - L)
    (hM : 0 < M) :
    ccmEncryptInit fuel E ccm a a.length n (UInt8.ofNat (15 - L) :: nonce) M 16 =
      (ccmAuthenticationInit fuel E a a.length n nonce L M).map fun X =>
        (.success, ⟨M, counterBlock L nonce 0, X⟩) := by
  have hsize : (15 - UInt8.ofNat (15 - L)).toNat = L := by interval_cases L <;> rfl
  have hvalid : ¬((16 : Nat) ≠ 16 ∨ UInt8.ofNat (15 - L) > 13 ∨ UInt8.ofNat (15 - L) < 7) := by
    interval_cases L <;> decide
  have hA : writeAt ((List.replicate 16 0).set 0 (UInt8.ofNat (L - 1))) 1 (nonce.take (15 - L)) =
      counterBlock L nonce 0 := by
    have hsplit : List.replicate 15 (0 : UInt8) = List.replicate (15 - L) 0 ++ List.replicate L 0 := by
      rw [List.replicate_append_replicate]
      congr 1
      omega
    have hwrite := writeAt_append [UInt8.ofNat (L - 1)] (List.replicate (15 - L) 0) (List.replicate L 0) nonce
      (by rw [List.length_replicate, hnonce])
    rw [List.take_of_length_le (Nat.le_of_eq hnonce), counterBlock, bigEndian_zero]
    show writeAt (UInt8.ofNat (L - 1) :: List.replicate 15 0) 1 nonce = _
    rw [hsplit]
    exact hwrite
  unfold ccmEncryptInit
  dsimp only
  rw [List.getD_cons_zero, hsize, if_neg hvalid, if_pos hM, List.drop_one, List.tail_cons, hA]

theorem length_ccmFirstBlock (n : Nat) (hL : 2 ≤ L) (hL' : L ≤ 8) (hM : 4 ≤ M) (hM' : M ≤ 16)
    (hnonce : nonce.length = 15 - L) : (ccmFirstBlock a.length n nonce L M).length = 16 := by
  rw [ccmFirstBlock_eq n hL hL' hM hM' hnonce, List.length_append, List.length_cons, List.length_append,
    List.length_replicate, hnonce]
  show 15 - L + 1 + (L - 2 + 2) = 16
  omega

/-- The context and the outputs after the last update. --/
theorem ccmStream_eq (op : CcmOp) (ccm : Ccm) (hL : 2 ≤ L) (hL' : L ≤ 8) (hM : 4 ≤ M) (hM' : M ≤ 16)
    (hnonce : nonce.length = 15 - L) (ha : a.length ≤ 2 ^ 32 - 6) (hfuel : 2 ^ 28 < fuel) (pieces : List CcmPiece)
    (hpieces : WholeBlocks pieces) (hbound : (textOf pieces).length ≤ 2 ^ 32 - 16) :
    ∃ outs c, ccmStream op fuel E ccm a (textOf pieces).length (UInt8.ofNat (15 - L) :: nonce) M pieces =
        some (⟨M, counterBlock L nonce c,
          cbcMac E (E.encrypt (ccmFirstBlock a.length (textOf pieces).length nonce L M))
            (associated a ++ blocks (plainOf op E (counterBlock L nonce) 0 (textOf pieces)))⟩, outs) ∧
      outs.flatten = ciphertext E L nonce (textOf pieces) ∧
      outs.map List.length = pieces.map (·.input.length) := by
  have hauth := @ccmAuthenticationInit_eq E nonce a L M fuel (textOf pieces).length
    (length_ccmFirstBlock _ hL hL' hM hM' hnonce) ha hfuel
  obtain ⟨outs, hrun, hflat, hlens⟩ := @ccmUpdates_eq E nonce
    (cbcMac E (E.encrypt (ccmFirstBlock a.length (textOf pieces).length nonce L M)) (associated a)) 0 L M fuel op hL hL'
    hnonce (by omega) hfuel pieces hpieces hbound
  refine ⟨outs, 0 + blockCount (textOf pieces).length, ?_, hflat, hlens⟩
  rw [ccmStream, ccmEncryptInit_eq ccm _ hL hL' hnonce (by omega), hauth, Option.map_some, Option.bind_some, if_pos rfl,
    hrun, ← cbcMac_append]

theorem length_of_mem_associated (h : b ∈ associated a ++ blocks m) : b.length = 16 := by
  rcases List.mem_append.mp h with h | h
  · rw [associated] at h
    split at h
    · cases h
    · exact length_of_mem_blocks h
  · exact length_of_mem_blocks h

theorem length_chained (E : BlockCipher) (a m : List UInt8) (hX : X.length = 16) : (cbcMac E X (associated a ++ blocks m)).length = 16 :=
  length_cbcMac hX fun _ hb => length_of_mem_associated hb

/-! ### The tag -/

theorem take_writeAt_xor (buffer : List UInt8) {x y : List UInt8} (hx : x.length = M) (hy : M ≤ y.length) :
    (writeAt buffer 0 (xor x y)).take M = xor x (y.take M) := by
  have hlen : (xor x y).length = M := by
    rw [length_xor]
    omega
  have htake := take_writeAt buffer (xor x y) (Nat.zero_le _)
  rw [hlen, Nat.zero_add, List.take_zero, List.nil_append] at htake
  have hcut := take_xor (x := x) (y := y) (n := M)
  rw [List.take_of_length_le (Nat.le_of_eq hlen), List.take_of_length_le (Nat.le_of_eq hx)] at hcut
  rw [htake, hcut]

theorem ccmEncryptCalculate_tag {icv : List UInt8} (hL : 2 ≤ L) (hL' : L ≤ 8) (hnonce : nonce.length = 15 - L)
    (hM : 0 < M) (hM' : M ≤ 16) (hX : X.length = 16) (hicv : M ≤ icv.length) :
    (ccmEncryptCalculate E ⟨M, counterBlock L nonce c, X⟩ icv 16).2.2.take M =
      xor (X.take M) ((E.encrypt (counterBlock L nonce 0)).take M) := by
  have hblock := E.length_encrypt _ (@length_counterBlock nonce 0 L hL' hnonce)
  have hlen : (X.take M).length = M := by
    rw [List.length_take]
    omega
  have hcopy : (writeAt icv 0 (X.take M)).take M = X.take M := by
    have := take_writeAt icv (X.take M) (Nat.zero_le _)
    rw [hlen, Nat.zero_add, List.take_zero, List.nil_append] at this
    exact this
  unfold ccmEncryptCalculate
  dsimp only
  rw [if_neg (not_not.mpr rfl), if_pos hM]
  dsimp only
  rw [ccmCounterZero_eq hL hL' hnonce, take_writeAt_xor _ (by rw [List.length_take]; omega)
    (by rw [length_writeAt (by omega)]; exact hicv), hcopy, xor_swap]

/-- A tag is accepted where it is the computed one. --/
theorem ccmDecryptCalculate_iff {icv : List UInt8} (hL : 2 ≤ L) (hL' : L ≤ 8) (hnonce : nonce.length = 15 - L)
    (hM : 0 < M) (hM' : M ≤ 16) (hX : X.length = 16) (hicv : M ≤ icv.length) :
    ccmDecryptCalculate E ⟨M, counterBlock L nonce c, X⟩ icv 16 = .success ↔
      icv.take M = xor (X.take M) ((E.encrypt (counterBlock L nonce 0)).take M) := by
  have hblock := E.length_encrypt _ (@length_counterBlock nonce 0 L hL' hnonce)
  have hlen : ((E.encrypt (counterBlock L nonce 0)).take M).length = M := by
    rw [List.length_take]
    omega
  unfold ccmDecryptCalculate
  dsimp only
  rw [if_neg (not_not.mpr rfl), if_pos hM, ccmCounterZero_eq hL hL' hnonce, take_writeAt_xor _ hlen hicv,
    xor_swap (x := X.take M), ← xor_eq_iff (by rw [List.length_take]; omega) (by rw [List.length_take]; omega)]
  split
  · rename_i hne
    exact iff_of_false (fun h => by cases h) hne
  · rename_i heq
    exact iff_of_true rfl (not_not.mp heq)

end

/-! ### Messages -/

/-- What RFC 3610 asks of a message: the first block with its length, the ciphertext and the tag; the same cuts of the
    ciphertext give the message back, and accept the tag and no other. --/
structure CcmConforms (E : BlockCipher) (L M : Nat) (nonce a m : List UInt8) (pieces : List CcmPiece) : Prop where
  firstBlock : ccmFirstBlock a.length m.length nonce L M = Rfc3610.firstBlock L M nonce a m
  runs : ∀ ccm icv, M ≤ icv.length → ∃ fuel outs tag,
    ccmEncrypt fuel E ccm a m.length (UInt8.ofNat (15 - L) :: nonce) M pieces icv = some (outs, tag) ∧
    outs.flatten = ciphertext E L nonce m ∧ tag.take M = Rfc3610.tag E L M nonce a m ∧
    ∀ ccm' back icv', back.map CcmPiece.input = outs → M ≤ icv'.length → ∃ fuel' texts status,
      ccmDecrypt fuel' E ccm' a m.length (UInt8.ofNat (15 - L) :: nonce) M back icv' = some (texts, status) ∧
      texts.flatten = m ∧ (status = .success ↔ icv'.take M = tag.take M)

/-- A longer message gets another tag under an invertible cipher, where the whole of the code is sent. --/
theorem ccmEncrypt_tag_ne {E : BlockCipher} {L : Nat} {nonce a : List UInt8} {pieces : List CcmPiece}
    (hE : ∀ b c, b.length = 16 → c.length = 16 → E.encrypt b = E.encrypt c → b = c) (hL : 2 ≤ L) (hL' : L ≤ 8)
    (hnonce : nonce.length = 15 - L) (ha : a.length ≤ 2 ^ 32 - 6) (hpieces : WholeBlocks pieces)
    (hm : (textOf pieces).length < 256 ^ L) (hlong : 2 ^ 16 ≤ (textOf pieces).length)
    (hbound : (textOf pieces).length ≤ 2 ^ 32 - 16) (ccm : Ccm) (icv : List UInt8) (hicv : 16 ≤ icv.length) :
    ∃ fuel outs tag,
      ccmEncrypt fuel E ccm a (textOf pieces).length (UInt8.ofNat (15 - L) :: nonce) 16 pieces icv = some (outs, tag) ∧
      tag.take 16 ≠ Rfc3610.tag E L 16 nonce a (textOf pieces) := by
  obtain ⟨outs, c, hstream, -, -⟩ := ccmStream_eq (E := E) .encryptUpdate ccm hL hL' (by omega) (Nat.le_refl _) hnonce ha
    (Nat.lt_succ_self (2 ^ 28)) pieces hpieces hbound
  have hB := length_ccmFirstBlock (a := a) (textOf pieces).length hL hL' (by omega) (Nat.le_refl 16) hnonce
  have hB' := length_firstBlock (M := 16) (a := a) (m := textOf pieces) hL' hnonce
  have hX := length_chained E a (textOf pieces) (E.length_encrypt _ hB)
  have hmac := length_chained E a (textOf pieces) (E.length_encrypt _ hB')
  have htag := ccmEncryptCalculate_tag (E := E) (c := c) hL hL' hnonce (by omega) (Nat.le_refl 16) hX hicv
  have hblock := E.length_encrypt _ (@length_counterBlock nonce 0 L hL' hnonce)
  refine ⟨2 ^ 28 + 1, outs, _, by rw [ccmEncrypt, hstream]; rfl, fun heq => ?_⟩
  have heq := htag.symm.trans heq
  rw [Rfc3610.tag, mac, List.take_of_length_le (Nat.le_of_eq hX), List.take_of_length_le (Nat.le_of_eq hmac),
    List.take_of_length_le (Nat.le_of_eq hblock), xor_swap,
    xor_eq_iff (by omega) (by rw [length_xor]; omega), xor_swap (y := E.encrypt (counterBlock L nonce 0)),
    xor_cancel (by omega)] at heq
  have hsame := hE _ _ hB hB' (cbcMac_injective hE (fun b hb => length_of_mem_associated hb) (E.length_encrypt _ hB)
    (E.length_encrypt _ hB') heq)
  have := (ccmFirstBlock_iff (a := a) hL hL' (by omega) (Nat.le_refl 16) hnonce hm).mp hsame
  omega

/-- The cipher that writes a block backwards. --/
def ccmMirror : BlockCipher := ⟨List.reverse, fun b h => by rw [List.length_reverse, h]⟩

/-- A message conforms exactly where its length has 16 bits and the loop over the additional data ends. --/
theorem ccm_conforms_iff (E : BlockCipher) (L M : Nat) (nonce a : List UInt8) (pieces : List CcmPiece) (hL : 2 ≤ L)
    (hL' : L ≤ 8) (hM : 4 ≤ M) (hM' : M ≤ 16) (hnonce : nonce.length = 15 - L) (ha : a.length < 2 ^ 32)
    (hm : (textOf pieces).length < 256 ^ L) (hpieces : WholeBlocks pieces) :
    CcmConforms E L M nonce a (textOf pieces) pieces ↔
      (textOf pieces).length < 2 ^ 16 ∧ a.length ≤ 2 ^ 32 - 6 := by
  constructor
  · rintro ⟨hfirst, hruns⟩
    refine ⟨(ccmFirstBlock_iff hL hL' hM hM' hnonce hm).mp hfirst, Nat.le_of_not_lt fun hlong => ?_⟩
    obtain ⟨fuel, outs, tag, hrun, -⟩ := hruns ⟨0, [], []⟩ (List.replicate M 0) (by rw [List.length_replicate])
    rw [ccmEncrypt, ccmStream, ccmEncryptInit_eq _ _ hL hL' hnonce (by omega), ccmAuthenticationInit_endless hlong ha]
      at hrun
    cases hrun
  · rintro ⟨hshort, hadata⟩
    have hfuel : 2 ^ 28 < 2 ^ 28 + 1 := Nat.lt_succ_self _
    have hfirst := (ccmFirstBlock_iff (a := a) hL hL' hM hM' hnonce hm).mpr hshort
    have hmac : (mac E L M nonce a (textOf pieces)).length = 16 :=
      length_chained E a (textOf pieces) (E.length_encrypt _ (length_firstBlock hL' hnonce))
    refine ⟨hfirst, fun ccm icv hicv => ?_⟩
    obtain ⟨outs, c, hstream, hflat, hlens⟩ := ccmStream_eq (E := E) .encryptUpdate ccm hL hL' hM hM' hnonce hadata hfuel
      pieces hpieces (by omega)
    rw [hfirst] at hstream
    have htag := ccmEncryptCalculate_tag (E := E) (c := c) hL hL' hnonce (by omega) hM' hmac hicv
    refine ⟨2 ^ 28 + 1, outs, _, ?_, hflat, htag, fun ccm' back icv' hback hicv' => ?_⟩
    · rw [ccmEncrypt, hstream]
      rfl
    · have htext : textOf back = ciphertext E L nonce (textOf pieces) := by
        rw [textOf, hback, hflat]
      have hlength : (textOf back).length = (textOf pieces).length := by rw [htext]; exact length_ctr
      have hcuts : back.map (·.input.length) = pieces.map (·.input.length) := by
        rw [← hlens, ← hback, List.map_map]
        rfl
      obtain ⟨texts, c', hstream', hflat', -⟩ := ccmStream_eq (E := E) .decryptUpdate ccm' hL hL' hM hM' hnonce hadata
        hfuel back (by rw [WholeBlocks, hcuts]; exact hpieces) (by omega)
      have hplain : plainOf .decryptUpdate E (counterBlock L nonce) 0 (textOf back) = textOf pieces := by
        rw [htext]
        exact ctr_ctr
      rw [hlength, hplain, hfirst] at hstream'
      refine ⟨2 ^ 28 + 1, texts, _, by rw [ccmDecrypt, hstream']; rfl, ?_, ?_⟩
      · rw [hflat', htext]
        exact ctr_ctr
      · rw [htag]
        exact ccmDecryptCalculate_iff hL hL' hnonce (by omega) hM' hmac hicv'

/-- Forty octets in two pieces, the first of them of whole blocks, with additional data. --/
theorem ccm_conforms_iff_pieces :
    CcmConforms ccmMirror 2 8 (List.replicate 13 1) [1, 2, 3] (List.replicate 32 7 ++ List.replicate 8 9)
        [⟨List.replicate 32 7, List.replicate 32 7, rfl⟩, ⟨List.replicate 8 9, List.replicate 8 0, rfl⟩] ↔
      (List.replicate 32 (7 : UInt8) ++ List.replicate 8 9).length < 2 ^ 16 ∧ [1, 2, (3 : UInt8)].length ≤ 2 ^ 32 - 6 :=
  ccm_conforms_iff ccmMirror 2 8 (List.replicate 13 1) [1, 2, 3]
    [⟨List.replicate 32 7, List.replicate 32 7, rfl⟩, ⟨List.replicate 8 9, List.replicate 8 0, rfl⟩] (by decide) (by decide)
    (by decide) (by decide) rfl (by decide) (by decide) (by
      unfold WholeBlocks
      decide)

/-- A message of `2 ^ 16` octets with a length field of three. --/
theorem ccm_long_message : ∃ fuel outs tag,
    ccmEncrypt fuel ccmMirror ⟨0, [], []⟩ [] (textOf [⟨List.replicate (2 ^ 16) 0, List.replicate (2 ^ 16) 0, rfl⟩]).length
      (UInt8.ofNat 12 :: List.replicate 12 0) 16 [⟨List.replicate (2 ^ 16) 0, List.replicate (2 ^ 16) 0, rfl⟩]
      (List.replicate 16 0) = some (outs, tag) ∧
    tag.take 16 ≠ Rfc3610.tag ccmMirror 3 16 (List.replicate 12 0) []
      (textOf [⟨List.replicate (2 ^ 16) 0, List.replicate (2 ^ 16) 0, rfl⟩]) := by
  have hlen : (textOf [⟨List.replicate (2 ^ 16) 0, List.replicate (2 ^ 16) 0, rfl⟩]).length = 2 ^ 16 := by
    rw [textOf, List.map_singleton, List.flatten_singleton, List.length_replicate]
  exact @ccmEncrypt_tag_ne ccmMirror 3 (List.replicate 12 0) []
    [⟨List.replicate (2 ^ 16) 0, List.replicate (2 ^ 16) 0, rfl⟩] (fun b c _ _ h => List.reverse_injective h) (by omega)
    (by omega) rfl (by decide) (fun n hn => absurd hn List.not_mem_nil) (by rw [hlen]; omega) (Nat.le_of_eq hlen.symm)
    (by rw [hlen]; omega) ⟨0, [], []⟩ (List.replicate 16 0) (by decide)

end Netxduo
