import Mathlib

/-! Two modes of a cipher for blocks of 16 octets: the chained code over a text whose last block is filled up with zeros,
    and the key stream of a counter. -/

namespace BlockModes

/-- A cipher under a fixed key. Nothing here needs it to be invertible. --/
structure BlockCipher where
  encrypt : List UInt8 → List UInt8
  length_encrypt : ∀ b, b.length = 16 → (encrypt b).length = 16

/-- The sum of two texts, octet by octet. --/
def xor (x y : List UInt8) : List UInt8 := List.zipWith (· ^^^ ·) x y

/-- How many blocks `n` octets take. --/
def blockCount (n : Nat) : Nat := (n + 15) / 16

/-- Block `n` of a text, filled up with zeros. --/
def block (data : List UInt8) (n : Nat) : List UInt8 :=
  let octets := (data.drop (16 * n)).take 16
  octets ++ List.replicate (16 - octets.length) 0

def blocks (data : List UInt8) : List (List UInt8) := (List.range (blockCount data.length)).map (block data)

/-- The chained code over blocks, from the chaining value `x`. --/
def cbcMac (E : BlockCipher) (x : List UInt8) (bs : List (List UInt8)) : List UInt8 :=
  bs.foldl (fun x b => E.encrypt (xor x b)) x

/-- Octet `n` of the key stream of a counter. --/
def keystream (E : BlockCipher) (counter : Nat → List UInt8) (n : Nat) : UInt8 :=
  (E.encrypt (counter (n / 16))).getD (n % 16) 0

/-- A text under the key stream from count `start` on. --/
def ctr (E : BlockCipher) (counter : Nat → List UInt8) (start : Nat) (data : List UInt8) : List UInt8 :=
  data.mapIdx fun n x => x ^^^ keystream E counter (16 * start + n)

/-- `n` in `width` octets, the highest first. --/
def bigEndian : Nat → Nat → List UInt8
  | 0, _ => []
  | width + 1, n => bigEndian width (n / 256) ++ [UInt8.ofNat n]

section
variable {E : BlockCipher} {counter : Nat → List UInt8} {x y data a b : List UInt8} {n start k : Nat}

/-! ### Sums -/

theorem length_xor : (xor x y).length = min x.length y.length := List.length_zipWith ..

theorem xor_swap : xor x y = xor y x := List.zipWith_comm_of_comm UInt8.xor_comm

theorem xor_zero (h : x.length ≤ n) : xor x (List.replicate n 0) = x := by
  induction x generalizing n with
  | nil => rfl
  | cons u x ih =>
    obtain ⟨n, rfl⟩ := Nat.exists_eq_add_one_of_ne_zero (Nat.ne_of_gt (Nat.lt_of_lt_of_le (Nat.succ_pos _) h))
    show (u ^^^ 0) :: xor x (List.replicate n 0) = u :: x
    rw [UInt8.xor_zero, ih (Nat.le_of_succ_le_succ h)]

theorem take_xor : (xor x y).take n = xor (x.take n) (y.take n) := List.take_zipWith

/-- Adding the same text twice changes nothing. --/
theorem xor_cancel (h : y.length ≤ x.length) : xor x (xor x y) = y := by
  induction x generalizing y with
  | nil =>
    obtain rfl : y = [] := List.eq_nil_of_length_eq_zero (Nat.le_zero.mp h)
    rfl
  | cons u x ih =>
    cases y with
    | nil => rfl
    | cons v y =>
      show (u ^^^ (u ^^^ v)) :: xor x (xor x y) = v :: y
      rw [ih (Nat.le_of_succ_le_succ h), ← UInt8.xor_assoc, UInt8.xor_self, UInt8.zero_xor]

/-- What is added to a text is determined by the sum. --/
theorem xor_eq_iff (hy : y.length ≤ x.length) (ha : a.length ≤ x.length) : xor x y = a ↔ y = xor x a := by
  constructor
  · rintro rfl
    exact (xor_cancel hy).symm
  · rintro rfl
    exact xor_cancel ha

/-! ### Blocks -/

theorem length_block (data : List UInt8) (n : Nat) : (block data n).length = 16 := by
  unfold block
  rw [List.length_append, List.length_replicate]
  have : ((data.drop (16 * n)).take 16).length ≤ 16 := by
    rw [List.length_take]
    exact Nat.min_le_left ..
  omega

theorem length_blocks (data : List UInt8) : (blocks data).length = blockCount data.length := by
  rw [blocks, List.length_map, List.length_range]

theorem length_of_mem_blocks (h : b ∈ blocks data) : b.length = 16 := by
  obtain ⟨n, -, rfl⟩ := List.mem_map.mp h
  exact length_block data n

theorem blocks_nil : blocks [] = [] := List.eq_nil_of_length_eq_zero (length_blocks [])

theorem drop_blocks (h : n < blockCount data.length) :
    (blocks data).drop n = block data n :: (blocks data).drop (n + 1) := by
  have hlt : n < (blocks data).length := by rw [length_blocks]; exact h
  rw [List.drop_eq_getElem_cons hlt]
  simp [blocks]

theorem drop_blocks_length (h : blockCount data.length ≤ n) : (blocks data).drop n = [] :=
  List.drop_of_length_le (by rw [length_blocks]; exact h)

/-- A text cut between two blocks. --/
theorem blocks_append (h : 16 ∣ a.length) : blocks (a ++ b) = blocks a ++ blocks b := by
  obtain ⟨k, hk⟩ := h
  have hcount : blockCount (a ++ b).length = k + blockCount b.length := by
    rw [blockCount, blockCount, List.length_append]
    omega
  have hfirst : blockCount a.length = k := by
    rw [blockCount]
    omega
  rw [blocks, blocks, blocks, hcount, hfirst, List.range_add, List.map_append, List.map_map]
  congr 1
  · refine List.map_congr_left fun n hn => ?_
    have hn := List.mem_range.mp hn
    have hpart : ((a ++ b).drop (16 * n)).take 16 = (a.drop (16 * n)).take 16 := by
      rw [List.drop_append_of_le_length (by omega), List.take_append_of_le_length (by rw [List.length_drop]; omega)]
    rw [block, block, hpart]
  · refine List.map_congr_left fun n hn => ?_
    have hpart : (a ++ b).drop (16 * (k + n)) = b.drop (16 * n) := by
      rw [List.drop_append, List.drop_of_length_le (by omega), List.nil_append]
      congr 1
      omega
    rw [Function.comp, block, block, hpart]

/-! ### The chained code -/

theorem cbcMac_append (u v : List (List UInt8)) : cbcMac E x (u ++ v) = cbcMac E (cbcMac E x u) v := List.foldl_append

theorem length_cbcMac {bs : List (List UInt8)} (hx : x.length = 16) (hbs : ∀ b ∈ bs, b.length = 16) :
    (cbcMac E x bs).length = 16 := by
  induction bs generalizing x with
  | nil => exact hx
  | cons b bs ih =>
    refine ih (E.length_encrypt _ ?_) fun c hc => hbs c (List.mem_cons_of_mem b hc)
    rw [length_xor, hx, hbs b (List.mem_cons_self ..)]
    rfl

/-- Under an invertible cipher different chaining values stay different. --/
theorem cbcMac_injective (hE : ∀ b c, b.length = 16 → c.length = 16 → E.encrypt b = E.encrypt c → b = c)
    {bs : List (List UInt8)} (hbs : ∀ b ∈ bs, b.length = 16) (hx : x.length = 16) (hy : y.length = 16)
    (h : cbcMac E x bs = cbcMac E y bs) : x = y := by
  induction bs generalizing x y with
  | nil => exact h
  | cons b bs ih =>
    have hb : b.length = 16 := hbs b (List.mem_cons_self ..)
    have hbx : (xor x b).length = 16 := by rw [length_xor, hx, hb]; rfl
    have hby : (xor y b).length = 16 := by rw [length_xor, hy, hb]; rfl
    have hxor : xor x b = xor y b := hE _ _ hbx hby
      (ih (fun c hc => hbs c (List.mem_cons_of_mem b hc)) (E.length_encrypt _ hbx) (E.length_encrypt _ hby) h)
    rw [xor_swap, xor_swap (x := y), xor_eq_iff (by omega) (by rw [length_xor]; omega), xor_cancel (by omega)] at hxor
    exact hxor

/-! ### The key stream -/

theorem length_ctr : (ctr E counter start data).length = data.length := List.length_mapIdx

/-- A text cut between two blocks goes on with the count reached. --/
theorem ctr_append (h : a.length = 16 * k) :
    ctr E counter start (a ++ b) = ctr E counter start a ++ ctr E counter (start + k) b := by
  rw [ctr, ctr, ctr, List.mapIdx_append]
  congr 2
  funext n u
  rw [show 16 * start + (n + a.length) = 16 * (start + k) + n by omega]

/-- Under the same key stream twice the text is back. --/
theorem ctr_ctr : ctr E counter start (ctr E counter start data) = data := by
  rw [ctr, ctr, List.mapIdx_mapIdx]
  refine List.ext_getElem (by rw [List.length_mapIdx]) fun n h₁ h₂ => ?_
  rw [List.getElem_mapIdx, Function.comp, UInt8.xor_assoc, UInt8.xor_self, UInt8.xor_zero]

/-- The first block of the text, and the rest. --/
theorem ctr_step (start : Nat) (data : List UInt8) (hlen : (E.encrypt (counter start)).length = 16) :
    ctr E counter start data =
      xor (E.encrypt (counter start)) data ++ ctr E counter (start + 1) (data.drop 16) := by
  have hfirst : ∀ data : List UInt8, data.length ≤ 16 →
      ctr E counter start data = xor (E.encrypt (counter start)) data := by
    intro data hle
    refine List.ext_getElem (by rw [length_ctr, length_xor]; omega) fun n h₁ h₂ => ?_
    rw [length_ctr] at h₁
    have hdiv : (16 * start + n) / 16 = start := by omega
    have hmod : (16 * start + n) % 16 = n := by omega
    simp only [ctr, xor, List.getElem_mapIdx, List.getElem_zipWith, keystream, hdiv, hmod]
    rw [List.getD_eq_getElem _ _ (by omega), UInt8.xor_comm]
  rcases Nat.le_total data.length 16 with hle | hle
  · rw [hfirst data hle, List.drop_of_length_le hle]
    exact (List.append_nil _).symm
  · have htake : (data.take 16).length = 16 * 1 := by
      rw [List.length_take]
      omega
    have hxor : xor (E.encrypt (counter start)) data = xor (E.encrypt (counter start)) (data.take 16) := by
      have := take_xor (x := E.encrypt (counter start)) (y := data) (n := 16)
      rw [List.take_of_length_le (by rw [length_xor]; omega),
        List.take_of_length_le (l := E.encrypt (counter start)) (by omega)] at this
      exact this
    conv_lhs => rw [← List.take_append_drop 16 data]
    rw [ctr_append htake, hfirst (data.take 16) (by omega), hxor]

/-! ### Cuts

A text may be cut after whole blocks, or after its end. -/

theorem blockCount_cut (h : 16 ∣ a.length ∨ b = []) :
    blockCount (a ++ b).length = blockCount a.length + blockCount b.length := by
  rcases h with ⟨k, hk⟩ | rfl
  · rw [blockCount, blockCount, blockCount, List.length_append]
    omega
  · rw [List.append_nil]
    rfl

theorem blocks_cut (h : 16 ∣ a.length ∨ b = []) : blocks (a ++ b) = blocks a ++ blocks b := by
  rcases h with h | rfl
  · exact blocks_append h
  · rw [List.append_nil]
    exact (List.append_nil _).symm

theorem ctr_cut (h : 16 ∣ a.length ∨ b = []) :
    ctr E counter start (a ++ b) = ctr E counter start a ++ ctr E counter (start + blockCount a.length) b := by
  rcases h with ⟨k, hk⟩ | rfl
  · have hcount : blockCount a.length = k := by
      rw [blockCount]
      omega
    rw [hcount, ctr_append hk]
  · rw [List.append_nil]
    exact (List.append_nil _).symm

/-! ### Numbers in octets -/

theorem length_bigEndian (width n : Nat) : (bigEndian width n).length = width := by
  induction width generalizing n with
  | zero => rfl
  | succ width ih => rw [bigEndian, List.length_append, ih, List.length_singleton]

theorem bigEndian_zero (width : Nat) : bigEndian width 0 = List.replicate width 0 := by
  induction width with
  | zero => rfl
  | succ width ih =>
    rw [bigEndian, Nat.zero_div, ih, List.replicate_succ']
    rfl

/-- Only zero is written as zeros. --/
theorem eq_zero_of_bigEndian {width n : Nat} (hn : n < 256 ^ width) (h : bigEndian width n = List.replicate width 0) :
    n = 0 := by
  induction width generalizing n with
  | zero =>
    rw [Nat.pow_zero] at hn
    omega
  | succ width ih =>
    rw [bigEndian, List.replicate_succ'] at h
    obtain ⟨hhigh, hlow⟩ := List.append_inj h (by rw [length_bigEndian, List.length_replicate])
    rw [Nat.pow_succ] at hn
    have hzero := ih (by omega) hhigh
    have hmod : n % 256 = 0 := by
      have := congrArg UInt8.toNat (List.singleton_inj.mp hlow)
      rwa [UInt8.toNat_ofNat'] at this
    omega

end

end BlockModes
