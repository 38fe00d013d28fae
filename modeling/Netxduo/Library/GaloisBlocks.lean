import Netxduo.Library.BlockModes

/-! Blocks of 16 octets as strings of 128 bits, the first bit the highest of the first octet: their product, the hash of
    a text under a key, and the blocks of a 32-bit counter. -/

namespace GaloisBlocks
open BlockModes

/-! ### Bits -/

/-- Bit `i` of a text. --/
def bit (x : List UInt8) (i : Nat) : Bool := (x.getD (i / 8) 0).toBitVec.getLsbD (7 - i % 8)

/-- The block with these bits. --/
def ofBits (f : Nat → Bool) : List UInt8 :=
  (List.range 16).map fun j => ⟨BitVec.ofFnLE fun k : Fin 8 => f (8 * j + (7 - k.val))⟩

/-- The bits shifted by one, with the reduction where the last one drops out. --/
def timesX (v : Nat → Bool) (i : Nat) : Bool :=
  xor (decide (0 < i) && v (i - 1)) (v 127 && decide (i = 0 ∨ i = 1 ∨ i = 2 ∨ i = 7))

/-- One bit of a factor: the other one is added to the result where it is set. --/
def mulStep (x : Nat → Bool) (s : (Nat → Bool) × (Nat → Bool)) (i : Nat) : (Nat → Bool) × (Nat → Bool) :=
  (if x i then fun k => xor (s.1 k) (s.2 k) else s.1, timesX s.2)

/-- The product of two strings of 128 bits. --/
def product (x y : Nat → Bool) : Nat → Bool := ((List.range 128).foldl (mulStep x) (fun _ => false, y)).1

/-- The product of two blocks. --/
def blockProduct (x y : List UInt8) : List UInt8 := ofBits (product (bit x) (bit y))

/-- The hash of blocks under the key `h`, from the value `s` on. --/
def ghash (h s : List UInt8) (bs : List (List UInt8)) : List UInt8 := bs.foldl (fun y b => blockProduct (xor y b) h) s

/-- The number in octets, the highest first. --/
def number (x : List UInt8) : Nat := x.foldl (fun n octet => 256 * n + octet.toNat) 0

/-- The counter block `n` steps on: the last 32 bits count, and wrap around. --/
def counterBlock (j : List UInt8) (n : Nat) : List UInt8 :=
  j.take 12 ++ bigEndian 4 ((number (j.drop 12) + n) % 2 ^ 32)

section
variable {x y h s : List UInt8} {f g : Nat → Bool} {n : Nat}

theorem length_ofBits : (ofBits f).length = 16 := by rw [ofBits, List.length_map, List.length_range]

theorem ofBits_congr (h : ∀ i < 128, f i = g i) : ofBits f = ofBits g := by
  refine List.map_congr_left fun j hj => ?_
  rw [List.mem_range] at hj
  congr 2
  funext k
  exact h _ (by omega)

theorem ofBits_bit (h : x.length = 16) : ofBits (bit x) = x := by
  refine List.ext_getElem (by rw [length_ofBits, h]) fun j h₁ h₂ => ?_
  simp only [ofBits, List.getElem_map, List.getElem_range]
  refine UInt8.toBitVec_inj.mp (BitVec.eq_of_getElem_eq fun k hk => ?_)
  rw [BitVec.getElem_ofFnLE]
  unfold bit
  dsimp only
  rw [show (8 * j + (7 - k)) / 8 = j by omega, show 7 - (8 * j + (7 - k)) % 8 = k by omega, List.getD_eq_getElem _ _ h₂]
  exact BitVec.getLsbD_eq_getElem hk

theorem bit_xor (h : x.length = y.length) (i : Nat) : bit (xor x y) i = Bool.xor (bit x i) (bit y i) := by
  unfold bit
  by_cases hi : i / 8 < x.length
  · rw [List.getD_eq_getElem _ _ (by rw [length_xor]; omega), List.getD_eq_getElem _ _ hi,
      List.getD_eq_getElem _ _ (by omega)]
    simp only [BlockModes.xor]
    rw [List.getElem_zipWith, UInt8.toBitVec_xor, BitVec.getLsbD_xor]
  · have hnone : ∀ l : List UInt8, l.length ≤ i / 8 → l.getD (i / 8) 0 = 0 := by
      intro l hl
      rw [List.getD_eq_getElem?_getD, List.getElem?_eq_none hl]
      rfl
    rw [hnone x (by omega), hnone y (by omega), hnone _ (by rw [length_xor]; omega)]
    simp

theorem length_ghash (hs : s.length = 16) (bs : List (List UInt8)) : (ghash h s bs).length = 16 := by
  induction bs generalizing s with
  | nil => exact hs
  | cons b bs ih => exact ih length_ofBits

theorem ghash_append (a b : List (List UInt8)) : ghash h s (a ++ b) = ghash h (ghash h s a) b := List.foldl_append

/-! ### The counter -/

theorem number_append_singleton (x : List UInt8) (octet : UInt8) : number (x ++ [octet]) = 256 * number x +
    octet.toNat := by
  unfold number
  rw [List.foldl_append]
  rfl

theorem number_bigEndian (width : Nat) (h : n < 256 ^ width) : number (bigEndian width n) = n := by
  induction width generalizing n with
  | zero =>
    rw [Nat.pow_zero] at h
    obtain rfl : n = 0 := by omega
    rfl
  | succ width ih =>
    rw [Nat.pow_succ] at h
    rw [bigEndian, number_append_singleton, ih (by omega), UInt8.toNat_ofNat']
    omega

theorem number_mod (n : Nat) : number (bigEndian 4 (n % 2 ^ 32)) = n % 2 ^ 32 :=
  number_bigEndian 4 (Nat.mod_lt _ (by decide))

theorem counterBlock_length (h : x.length = 16) (n : Nat) : (counterBlock x n).length = 16 := by
  rw [counterBlock, List.length_append, length_bigEndian, List.length_take, h]
  rfl

/-- Steps add up. --/
theorem counterBlock_add (h : x.length = 16) (m n : Nat) : counterBlock (counterBlock x m) n =
    counterBlock x (m + n) := by
  have htake : (x.take 12).length = 12 := by
    rw [List.length_take, h]
    rfl
  unfold counterBlock
  rw [List.take_left' htake, List.drop_left' htake, number_mod, Nat.mod_add_mod,
    Nat.add_assoc]

/-- Within 2^32 steps no counter block comes twice. --/
theorem counterBlock_injective {i j : Nat} (hi : i < 2 ^ 32) (hj : j < 2 ^ 32)
    (heq : counterBlock x i = counterBlock x j) : i = j := by
  unfold counterBlock at heq
  have hnumber := congrArg number (List.append_cancel_left heq)
  rw [number_mod, number_mod] at hnumber
  omega

end

end GaloisBlocks
