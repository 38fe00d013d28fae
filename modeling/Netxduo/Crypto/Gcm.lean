import Netxduo.Library.GaloisBlocks

/-! GCM as the code has it: the product of two blocks bit by bit, the counter octet by octet, and the hash, the key
    stream and the lengths that go from call to call. -/

namespace Netxduo.Crypto.Gcm
open BlockModes GaloisBlocks

/-! ### The source -/

/-- `_nx_crypto_gcm_inc32`. A carry goes on in a USHORT. --/
def gcmInc32 (counterBlock : List UInt8) : List UInt8 :=
  let last := (counterBlock.getD 15 0).toNat + 1
  let third := last / 256 + (counterBlock.getD 14 0).toNat
  let second := third / 256 + (counterBlock.getD 13 0).toNat
  let first := second / 256 + (counterBlock.getD 12 0).toNat
  counterBlock.take 12 ++ [UInt8.ofNat first, UInt8.ofNat second, UInt8.ofNat third, UInt8.ofNat last]

/-- The shift by one bit, each octet with the last bit of the one before it. --/
def shiftRight : UInt8 → List UInt8 → List UInt8
  | _, [] => []
  | before, octet :: octets => (octet >>> 1 ||| before <<< 7) :: shiftRight octet octets

/-- What the loop of the product holds: the pointer into `x`, the mask, `v`, and the output. --/
structure Multi where
  x : List UInt8
  mask : UInt8
  v : List UInt8
  output : List UInt8

def multiStep (m : Multi) : Multi :=
  let output := if m.x.getD 0 0 &&& m.mask ≠ 0 then BlockModes.xor m.output m.v else m.output
  let lsb := m.v.getD 15 0
  let v := shiftRight 0 m.v
  let v := if lsb &&& 1 ≠ 0 then (v.getD 0 0 ^^^ 0xe1) :: v.drop 1 else v
  let mask := m.mask >>> 1
  if mask = 0 then ⟨m.x.drop 1, 0x80, v, output⟩ else ⟨m.x, mask, v, output⟩

/-- `_nx_crypto_gcm_multi` --/
def gcmMulti (x y : List UInt8) : List UInt8 := (multiStep^[128] ⟨x, 0x80, y, List.replicate 16 0⟩).output

/-- The whole blocks of `_nx_crypto_gcm_ghash_update`. --/
def ghashBlocks (hkey : List UInt8) : Nat → List UInt8 → List UInt8 → List UInt8
  | 0, _, output => output
  | n + 1, input, output => ghashBlocks hkey n (input.drop 16) (gcmMulti (BlockModes.xor output (input.take 16)) hkey)

/-- `_nx_crypto_gcm_ghash_update`: a block that is not whole is filled up with zeros. --/
def ghashUpdate (hkey input output : List UInt8) : List UInt8 :=
  let n := input.length >>> 4
  let output := ghashBlocks hkey n input output
  let input := input.drop (n <<< 4)
  if input.length > 0 then
    gcmMulti (BlockModes.xor output (input ++ List.replicate (16 - input.length) 0)) hkey
  else output

/-- The whole blocks of `_nx_crypto_gcm_gctr`: what is put out, and the counter behind them. --/
def gctrBlocks (E : BlockCipher) : Nat → List UInt8 → List UInt8 → List UInt8 × List UInt8
  | 0, _, counter => ([], counter)
  | n + 1, input, counter =>
    let rest := gctrBlocks E n (input.drop 16) (gcmInc32 counter)
    (BlockModes.xor (input.take 16) (E.encrypt counter) ++ rest.1, rest.2)

/-- `_nx_crypto_gcm_gctr`: a block that is not whole leaves the counter as it is. --/
def gctr (E : BlockCipher) (input counter : List UInt8) : List UInt8 × List UInt8 :=
  let n := input.length >>> 4
  let whole := gctrBlocks E n input counter
  let input := input.drop (n <<< 4)
  if input.length > 0 then (whole.1 ++ BlockModes.xor input (E.encrypt whole.2), whole.2) else whole

/-- `NX_CRYPTO_GCM` --/
structure GcmMetadata where
  hkey : List UInt8
  j0 : List UInt8
  s : List UInt8
  counter : List UInt8
  additionalDataLen : UInt32
  inputTotalLength : UInt32

/-- `_nx_crypto_gcm_encrypt_init`; its length octet bounds the IV. --/
def gcmEncryptInit (E : BlockCipher) (additionalData iv : List UInt8) : GcmMetadata :=
  let hkey := E.encrypt (List.replicate 16 0)
  let j0 :=
    if iv.length = 12 then iv ++ [0, 0, 0, 1]
    else
      let bits := iv.length <<< 3
      ghashUpdate hkey (List.replicate 14 0 ++ [UInt8.ofNat (bits / 256), UInt8.ofNat bits])
        (ghashUpdate hkey iv (List.replicate 16 0))
  ⟨hkey, j0, ghashUpdate hkey additionalData (List.replicate 16 0), gcmInc32 j0, UInt32.ofNat additionalData.length, 0⟩

/-- `_nx_crypto_gcm_encrypt_update` --/
def gcmEncryptUpdate (E : BlockCipher) (m : GcmMetadata) (input : List UInt8) : List UInt8 × GcmMetadata :=
  let output := gctr E input m.counter
  (output.1, { m with
    s := ghashUpdate m.hkey output.1 m.s
    counter := output.2
    inputTotalLength := m.inputTotalLength + UInt32.ofNat input.length })

/-- `_nx_crypto_gcm_decrypt_update` --/
def gcmDecryptUpdate (E : BlockCipher) (m : GcmMetadata) (input : List UInt8) : List UInt8 × GcmMetadata :=
  let output := gctr E input m.counter
  (output.1, { m with
    s := ghashUpdate m.hkey input m.s
    counter := output.2
    inputTotalLength := m.inputTotalLength + UInt32.ofNat input.length })

/-- A length in bits, in the four octets of a 32-bit shift. --/
def lengthOctets (length : UInt32) : List UInt8 :=
  let bits := (length <<< 3).toNat
  [0, 0, 0, 0, UInt8.ofNat (bits / 256 ^ 3), UInt8.ofNat (bits / 256 ^ 2), UInt8.ofNat (bits / 256), UInt8.ofNat bits]

/-- The block of the lengths. --/
def lengthBlock (m : GcmMetadata) : List UInt8 := lengthOctets m.additionalDataLen ++ lengthOctets m.inputTotalLength

/-- The tag before it is cut. --/
def gcmTag (E : BlockCipher) (m : GcmMetadata) : List UInt8 := (gctr E (ghashUpdate m.hkey (lengthBlock m) m.s) m.j0).1

/-- `_nx_crypto_gcm_encrypt_calculate` --/
def gcmEncryptCalculate (E : BlockCipher) (m : GcmMetadata) (icvLen : Nat) : List UInt8 := (gcmTag E m).take icvLen

/-- `_nx_crypto_gcm_decrypt_calculate`: whether the tag is accepted. --/
def gcmDecryptCalculate (E : BlockCipher) (m : GcmMetadata) (input : List UInt8) (icvLen : Nat) : Bool :=
  (List.range icvLen).all fun i => decide (input.getD i 0 = (gcmTag E m).getD i 0)

/-- Calls of an update, one after the other. --/
def gcmUpdates (update : GcmMetadata → List UInt8 → List UInt8 × GcmMetadata) :
    List (List UInt8) → GcmMetadata → List UInt8 × GcmMetadata
  | [], m => ([], m)
  | chunk :: chunks, m =>
    let first := update m chunk
    let rest := gcmUpdates update chunks first.2
    (first.1 ++ rest.1, rest.2)

/-! ### The product -/

theorem mask_bit : ∀ (n : Fin 256) (r : Fin 8), UInt8.ofNat n.val &&& ((0x80 : UInt8) >>> UInt8.ofNat r.val) ≠ 0 ↔
    (UInt8.ofNat n.val).toBitVec.getLsbD (7 - r.val) = true := by decide +kernel

theorem lsb_bit : ∀ n : Fin 256, UInt8.ofNat n.val &&& 1 ≠ 0 ↔ (UInt8.ofNat n.val).toBitVec.getLsbD 0 = true := by
  decide +kernel

/-- The mask in front of bit `i`. --/
def maskAt (i : Nat) : UInt8 := 0x80 >>> UInt8.ofNat (i % 8)

theorem mask_step : ∀ r : Fin 8, (r.val < 7 → (0x80 : UInt8) >>> UInt8.ofNat r.val >>> 1 = 0x80 >>>
    UInt8.ofNat (r.val + 1) ∧
    (0x80 : UInt8) >>> UInt8.ofNat (r.val + 1) ≠ 0) ∧ (r.val = 7 → (0x80 : UInt8) >>> UInt8.ofNat r.val >>> 1 = 0) := by
  decide

theorem reduce_bit : ∀ (n : Fin 256) (r : Fin 8), (UInt8.ofNat n.val ^^^ 0xe1).toBitVec.getLsbD (7 - r.val) =
    xor ((UInt8.ofNat n.val).toBitVec.getLsbD (7 - r.val)) (decide (r.val = 0 ∨ r.val = 1 ∨ r.val = 2 ∨ r.val = 7)) :=
      by
  decide +kernel

theorem shift_bit (a b : UInt8) {t : Nat} (ht : t < 8) :
    (a >>> 1 ||| b <<< 7).toBitVec.getLsbD t = if t = 7 then b.toBitVec.getLsbD 0 else a.toBitVec.getLsbD (t + 1) := by
  rw [UInt8.toBitVec_or, UInt8.toBitVec_shiftRight, UInt8.toBitVec_shiftLeft]
  interval_cases t <;> simp

theorem ofNat_octet (octet : UInt8) : ∃ n : Fin 256, octet = UInt8.ofNat n.val :=
  ⟨⟨octet.toNat, octet.toNat_lt⟩, UInt8.ofNat_toNat.symm⟩

section
variable {v : List UInt8} {before : UInt8}

theorem length_shiftRight : (shiftRight before v).length = v.length := by
  induction v generalizing before with
  | nil => rfl
  | cons octet v ih => rw [shiftRight, List.length_cons, ih, List.length_cons]

theorem getD_shiftRight {j : Nat} (hj : j < v.length) :
    (shiftRight before v).getD j 0 = (v.getD j 0 >>> 1 ||| (if j = 0 then before else v.getD (j - 1) 0) <<< 7) := by
  induction v generalizing before j with
  | nil => exact absurd hj (Nat.not_lt_zero j)
  | cons octet v ih =>
    cases j with
    | zero => rfl
    | succ j =>
      rw [shiftRight, List.getD_cons_succ, ih (Nat.lt_of_succ_lt_succ hj), List.getD_cons_succ,
        if_neg (Nat.succ_ne_zero j),
        Nat.add_sub_cancel]
      cases j with
      | zero => rfl
      | succ j => rw [if_neg (Nat.succ_ne_zero j), Nat.add_sub_cancel, List.getD_cons_succ]

/-- The octets shifted are the bits shifted. --/
theorem bit_shiftRight {i : Nat} (hi : i / 8 < v.length) : bit (shiftRight 0 v) i =
    (decide (0 < i) && bit v (i - 1)) := by
  unfold bit
  rw [getD_shiftRight hi, shift_bit _ _ (by omega)]
  by_cases hfirst : i % 8 = 0
  · rw [if_pos (by omega)]
    by_cases hzero : i = 0
    · subst hzero
      simp
    · rw [if_neg (by omega), decide_eq_true (by omega), Bool.true_and, show (i - 1) / 8 = i / 8 - 1 by omega,
        show 7 - (i - 1) % 8 = 0 by omega]
  · rw [if_neg (by omega), decide_eq_true (by omega), Bool.true_and, show (i - 1) / 8 = i / 8 by omega,
      show 7 - (i - 1) % 8 = 7 - i % 8 + 1 by omega]

/-- The next `v` of the loop. --/
theorem bit_reduce (hv : v.length = 16) {i : Nat} (hi : i < 128) :
    bit (if v.getD 15 0 &&& 1 ≠ 0 then ((shiftRight 0 v).getD 0 0 ^^^ 0xe1) ::
      (shiftRight 0 v).drop 1 else shiftRight 0 v) i =
      timesX (bit v) i := by
  have hlast : v.getD 15 0 &&& 1 ≠ 0 ↔ bit v 127 = true := by
    obtain ⟨n, hn⟩ := ofNat_octet (v.getD 15 0)
    unfold bit
    rw [show (127 : Nat) / 8 = 15 from rfl, show 7 - 127 % 8 = 0 from rfl, hn]
    exact lsb_bit n
  have hshift := @bit_shiftRight v i (by omega)
  unfold timesX
  by_cases hset : bit v 127 = true
  · rw [if_pos (hlast.mpr hset), hset, Bool.true_and, ← hshift]
    by_cases hfirst : i < 8
    · have hzero : i / 8 = 0 := Nat.div_eq_of_lt hfirst
      have hmod : i % 8 = i := Nat.mod_eq_of_lt hfirst
      unfold bit
      rw [hzero, hmod, List.getD_cons_zero]
      obtain ⟨n, hn⟩ := ofNat_octet ((shiftRight 0 v).getD 0 0)
      rw [hn]
      exact reduce_bit n ⟨i, hfirst⟩
    · have hnone : decide (i = 0 ∨ i = 1 ∨ i = 2 ∨ i = 7) = false := decide_eq_false (by omega)
      rw [hnone, Bool.xor_false]
      unfold bit
      obtain ⟨j, hj⟩ : ∃ j, i / 8 = j + 1 := ⟨i / 8 - 1, by omega⟩
      rw [hj, List.getD_cons_succ, List.getD_eq_getElem?_getD, List.getD_eq_getElem?_getD, List.getElem?_drop,
        Nat.add_comm 1]
  · rw [if_neg (fun h => hset (hlast.mp h)), Bool.eq_false_iff.mpr hset, Bool.false_and, Bool.xor_false, hshift]

end

/-- What the loop holds in front of bit `i`. --/
structure Multi.At (x y : List UInt8) (i : Nat) (m : Multi) : Prop where
  pointer : m.x = x.drop (i / 8)
  mask : m.mask = maskAt i
  lengthV : m.v.length = 16
  lengthOutput : m.output.length = 16
  output : ∀ k < 128, bit m.output k = ((List.range i).foldl (mulStep (bit x)) (fun _ => false, bit y)).1 k
  v : ∀ k < 128, bit m.v k = ((List.range i).foldl (mulStep (bit x)) (fun _ => false, bit y)).2 k

section
variable {x y : List UInt8} {i : Nat} {m : Multi}

theorem Multi.At.bit_test (h : m.At x y i) : m.x.getD 0 0 &&& m.mask ≠ 0 ↔ bit x i = true := by
  have hoctet : m.x.getD 0 0 = x.getD (i / 8) 0 := by
    rw [h.pointer, List.getD_eq_getElem?_getD, List.getElem?_drop, Nat.add_zero, List.getD_eq_getElem?_getD]
  obtain ⟨n, hn⟩ := ofNat_octet (x.getD (i / 8) 0)
  unfold bit
  rw [hoctet, h.mask, hn]
  exact mask_bit n ⟨i % 8, Nat.mod_lt _ (by decide)⟩

theorem Multi.At.step (h : m.At x y i) : (multiStep m).At x y (i + 1) := by
  have hfold : (List.range (i + 1)).foldl (mulStep (bit x)) (fun _ => false, bit y) =
      mulStep (bit x) ((List.range i).foldl (mulStep (bit x)) (fun _ => false, bit y)) i := by
    rw [List.range_succ, List.foldl_append]
    rfl
  obtain ⟨hnext, hwrap⟩ := mask_step ⟨i % 8, Nat.mod_lt _ (by decide)⟩
  have hv : ∀ v', v' = (if m.v.getD 15 0 &&& 1 ≠ 0 then ((shiftRight 0 m.v).getD 0 0 ^^^ 0xe1) ::
    (shiftRight 0 m.v).drop 1
      else shiftRight 0 m.v) → v'.length = 16 ∧ ∀ k < 128, bit v' k =
        ((List.range (i + 1)).foldl (mulStep (bit x)) (fun _ => false, bit y)).2 k := by
    rintro v' rfl
    refine ⟨?_, fun k hk => ?_⟩
    · split
      · rw [List.length_cons, List.length_drop, length_shiftRight, h.lengthV]
      · rw [length_shiftRight, h.lengthV]
    · rw [bit_reduce h.lengthV hk, hfold]
      show timesX (bit m.v) k = timesX _ k
      unfold timesX
      rw [h.v 127 (by decide)]
      by_cases hzero : 0 < k
      · rw [h.v (k - 1) (by omega)]
      · rw [decide_eq_false hzero, Bool.false_and, Bool.false_and]
  have houtput : ∀ output', output' = (if m.x.getD 0 0 &&& m.mask ≠ 0 then BlockModes.xor m.output m.v else m.output) →
      output'.length = 16 ∧ ∀ k < 128, bit output' k =
        ((List.range (i + 1)).foldl (mulStep (bit x)) (fun _ => false, bit y)).1 k := by
    rintro output' rfl
    rw [hfold]
    unfold mulStep
    dsimp only
    by_cases hset : bit x i = true
    · rw [if_pos (h.bit_test.mpr hset), if_pos hset]
      refine ⟨by rw [length_xor, h.lengthOutput, h.lengthV]; rfl, fun k hk => ?_⟩
      rw [bit_xor (h.lengthOutput.trans h.lengthV.symm), h.output k hk, h.v k hk]
      rfl
    · rw [if_neg (fun hne => hset (h.bit_test.mp hne)), if_neg hset]
      exact ⟨h.lengthOutput, h.output⟩
  obtain ⟨hlengthV, hbitsV⟩ := hv _ rfl
  obtain ⟨hlengthOutput, hbitsOutput⟩ := houtput _ rfl
  have hmask : m.mask >>> 1 = (0x80 : UInt8) >>> UInt8.ofNat (i % 8) >>> 1 := by rw [h.mask, maskAt]
  unfold multiStep
  dsimp only
  by_cases hlast : i % 8 = 7
  · rw [if_pos (hmask.trans (hwrap hlast))]
    refine ⟨?_, ?_, hlengthV, hlengthOutput, hbitsOutput, hbitsV⟩
    · rw [h.pointer, List.drop_drop, show (i + 1) / 8 = i / 8 + 1 by omega]
    · rw [maskAt, show (i + 1) % 8 = 0 by omega]
      rfl
  · obtain ⟨hshift, hne⟩ := hnext (show i % 8 < 7 by omega)
    dsimp only at hshift hne
    rw [hmask, hshift, if_neg hne]
    refine ⟨?_, ?_, hlengthV, hlengthOutput, hbitsOutput, hbitsV⟩
    · rw [h.pointer, show (i + 1) / 8 = i / 8 by omega]
    · rw [maskAt, show (i + 1) % 8 = i % 8 + 1 by omega]

theorem multi_at (hy : y.length = 16) (i : Nat) : (multiStep^[i] ⟨x, 0x80, y, List.replicate 16 0⟩).At x y i := by
  induction i with
  | zero =>
    refine ⟨rfl, rfl, hy, List.length_replicate, fun k hk => ?_, fun k _ => rfl⟩
    show bit (List.replicate 16 0) k = false
    unfold bit
    rw [List.getD_eq_getElem _ _ (by rw [List.length_replicate]; omega), List.getElem_replicate]
    simp
  | succ i ih =>
    rw [Function.iterate_succ_apply']
    exact ih.step

/-- The loop computes the product. --/
theorem gcmMulti_eq (hy : y.length = 16) : gcmMulti x y = blockProduct x y := by
  have h := @multi_at x y hy 128
  unfold gcmMulti blockProduct product
  rw [← ofBits_bit h.lengthOutput]
  exact ofBits_congr h.output

end

end Netxduo.Crypto.Gcm
