import Mathlib
import Netxduo.Crypto.SignedProduct

/-! The bytes of huge numbers, and their arithmetic as a whole: a homomorphism to the integers. -/

namespace Netxduo.Crypto
open Nat

/-! ### The source -/

/-- Why a number could not be read or written. --/
inductive HugeError
  | notSuccessful
  | sizeError
deriving DecidableEq, Repr

/-- The bytes of a digit, the highest one first. --/
def digitBytes (width value : Nat) : List Nat := (List.range width).reverse.map fun k => (value >>> (8 * k)) % 256

/-- `_nx_crypto_huge_number_extract`: what is written, as many bytes as the size that comes back says. --/
def extract (width : Nat) (number : SignedNumber) (byteStreamSize : Nat) : Except HugeError (List Nat) :=
  if number.data.length * width > byteStreamSize then .error .notSuccessful
  else .ok (number.data.reverse.flatMap (digitBytes width))

/-- How many bytes of the top digit are zeros, the last one never counted. --/
def leadingCount (width value : Nat) : Nat :=
  if value < 0x100 then width - 1 else if value < 0x10000 then width - 2 else if value < 0x1000000 then width - 3 else 0

/-- `_nx_crypto_huge_number_extract_fixed_size` --/
def extractFixedSize (width : Nat) (number : SignedNumber) (byteStreamSize : Nat) : Except HugeError (List Nat) :=
  let digits := adjustSize number.data
  let value := digits.getLastD 0
  let leading := leadingCount width value
  let count := digits.length * width - leading
  if count > byteStreamSize then .error .sizeError
  else .ok (List.replicate (byteStreamSize - count) 0 ++ ((digitBytes width value).drop leading ++
    digits.dropLast.reverse.flatMap (digitBytes width)))

/-- The digit that so many bytes are, the highest one first. --/
def word (bytes : List Nat) : Nat := bytes.foldl (fun value byte => value <<< 8 ||| byte) 0

/-- The loop over the whole digits of the byte stream. --/
def setupWords (width : Nat) : Nat → List Nat → List Nat
  | 0, _ => []
  | n + 1, bytes => word (bytes.take width) :: setupWords width n (bytes.drop width)

/-- The digits of the byte stream, the top one first: the bytes that are no whole digit are the first one. --/
def setupDigits (width : Nat) (bytes : List Nat) : List Nat :=
  let odd := bytes.length % width
  (if odd ≠ 0 then [word (bytes.take odd)] else []) ++ setupWords width (bytes.length / width) (bytes.drop odd)

/-- `_nx_crypto_huge_number_setup` --/
def setup (width : Nat) (number : SignedNumber) (byteStream : List Nat) : Except HugeError SignedNumber :=
  let bytes := byteStream.dropWhile (· = 0)
  if bytes = [] then if number.bufferSize < width then .error .sizeError else .ok (number.setDigit 0)
  else if number.bufferSize < (bytes.length + (width - 1)) / width * width then .error .sizeError
  else .ok { number with data := (setupDigits width bytes).reverse, isNegative := false }

section
variable {b width : Nat} {left right x : SignedNumber}

/-! ### Bytes -/

theorem digitRadix_eq (width : Nat) : digitRadix width = 256 ^ width := by
  unfold digitRadix hnRadix
  rw [Nat.pow_mul]

theorem length_digitBytes (width value : Nat) : (digitBytes width value).length = width := by
  simp [digitBytes]

theorem digitBytes_lt {width value : Nat} : ∀ d ∈ digitBytes width value, d < 256 := by
  intro d hd
  obtain ⟨k, -, rfl⟩ := List.mem_map.mp hd
  exact Nat.mod_lt _ (by decide)

theorem reverse_digitBytes (width value : Nat) :
    (digitBytes width value).reverse = (List.range width).map fun k => value / 256 ^ k % 256 := by
  unfold digitBytes
  rw [← List.map_reverse, List.reverse_reverse]
  refine List.map_congr_left fun k _ => ?_
  rw [Nat.shiftRight_eq_div_pow, Nat.pow_mul]

theorem value_bytes (value : Nat) : ∀ n : Nat, ofDigits 256 ((List.range n).map fun k => value / 256 ^ k % 256) =
    value % 256 ^ n
  | 0 => by simp [Nat.mod_one]
  | n + 1 => by
    rw [List.range_succ, List.map_append, ofDigits_append, value_bytes value n, List.length_map, List.length_range,
      List.map_singleton, ofDigits_singleton, Nat.mod_pow_succ]

/-- The lowest bytes of a digit hold the whole of it where it is small enough. --/
theorem value_drop_digitBytes {width value n : Nat} (hle : n ≤ width) (hlt : value < 256 ^ (width - n)) :
    ofDigits 256 ((digitBytes width value).drop n).reverse = value := by
  rw [List.reverse_drop, reverse_digitBytes, length_digitBytes, ← List.map_take, List.take_range,
    Nat.min_eq_left (by omega),
    value_bytes, Nat.mod_eq_of_lt hlt]

theorem value_flatMap_digitBytes {width : Nat} : ∀ {xs : List Nat}, (∀ d ∈ xs, d < digitRadix width) →
    ofDigits 256 (xs.reverse.flatMap (digitBytes width)).reverse = ofDigits (digitRadix width) xs
  | [], _ => by simp
  | d :: ds, hx => by
    have hd := value_drop_digitBytes (n := 0) (Nat.zero_le width) (by
      rw [Nat.sub_zero, ← digitRadix_eq]
      exact hx d List.mem_cons_self)
    rw [List.drop_zero] at hd
    rw [List.reverse_cons, List.flatMap_append, List.flatMap_singleton, List.reverse_append, ofDigits_append, hd,
      value_flatMap_digitBytes fun e he => hx e (List.mem_cons_of_mem _ he), List.length_reverse, length_digitBytes,
      ofDigits_cons, digitRadix_eq]

theorem flatMap_digitBytes_lt {width : Nat} {xs : List Nat} : ∀ d ∈ xs.flatMap (digitBytes width), d < 256 := by
  intro d hd
  obtain ⟨e, -, hd⟩ := List.mem_flatMap.mp hd
  exact digitBytes_lt d hd

theorem length_flatMap_digitBytes (width : Nat) (xs : List Nat) : (xs.flatMap (digitBytes width)).length =
    xs.length * width := by
  induction xs with
  | nil => simp
  | cons x xs ih =>
    rw [List.flatMap_cons, List.length_append, ih, length_digitBytes, List.length_cons, Nat.add_mul]
    omega

/-! ### Reading bytes -/

theorem word_eq {bytes : List Nat} (hbytes : ∀ d ∈ bytes, d < 256) : word bytes = ofDigits 256 bytes.reverse := by
  induction bytes using List.reverseRecOn with
  | nil => rfl
  | append_singleton bytes byte ih =>
    have hbyte := hbytes byte (List.mem_append_right _ List.mem_cons_self)
    unfold word at ih ⊢
    rw [List.foldl_append, List.reverse_append, List.foldl_cons, List.foldl_nil,
      ih fun d hd => hbytes d (List.mem_append_left _ hd), ← Nat.shiftLeft_add_eq_or_of_lt (by exact hbyte),
        Nat.shiftLeft_eq,
      List.reverse_singleton, List.singleton_append, ofDigits_cons]
    ring

theorem length_setupWords (width : Nat) : ∀ (n : Nat) (bytes : List Nat), (setupWords width n bytes).length = n
  | 0, _ => rfl
  | n + 1, bytes => by rw [setupWords, List.length_cons, length_setupWords width n]

theorem take_lt {bytes : List Nat} (hbytes : ∀ d ∈ bytes, d < 256) (n : Nat) : word (bytes.take n) < 256 ^ n := by
  rw [word_eq fun d hd => hbytes d (List.mem_of_mem_take hd)]
  have h := ofDigits_lt_base_pow_length (b := 256) (l := (bytes.take n).reverse) (by decide) fun d hd =>
    hbytes d (List.mem_of_mem_take (List.mem_reverse.mp hd))
  exact h.trans_le (Nat.pow_le_pow_right (by decide) (by rw [List.length_reverse, List.length_take]; omega))

theorem setupWords_spec {width : Nat} : ∀ {n : Nat} {bytes : List Nat}, bytes.length = n * width →
    (∀ d ∈ bytes, d < 256) →
    (∀ d ∈ setupWords width n bytes, d < digitRadix width) ∧
      ofDigits (digitRadix width) (setupWords width n bytes).reverse = ofDigits 256 bytes.reverse
  | 0, bytes, hlen, _ => by
    obtain rfl : bytes = [] := List.eq_nil_of_length_eq_zero (by simpa using hlen)
    simp [setupWords]
  | n + 1, bytes, hlen, hbytes => by
    rw [Nat.add_mul, Nat.one_mul] at hlen
    have hdrop : (bytes.drop width).length = n * width := by
      rw [List.length_drop]
      omega
    obtain ⟨hdigits, hvalue⟩ := setupWords_spec hdrop fun d hd => hbytes d (List.mem_of_mem_drop hd)
    rw [setupWords]
    constructor
    · intro d hd
      rcases List.mem_cons.mp hd with rfl | hd
      · rw [digitRadix_eq]
        exact take_lt hbytes width
      · exact hdigits d hd
    · rw [List.reverse_cons, ofDigits_append, hvalue, List.length_reverse, length_setupWords, ofDigits_singleton,
        word_eq fun d hd => hbytes d (List.mem_of_mem_take hd)]
      conv_rhs => rw [← List.take_append_drop width bytes, List.reverse_append, ofDigits_append, List.length_reverse,
        hdrop,
        Nat.mul_comm n, Nat.pow_mul, ← digitRadix_eq]

theorem setupDigits_spec {width : Nat} (hw : 0 < width) {bytes : List Nat} (hbytes : ∀ d ∈ bytes, d < 256) :
    (setupDigits width bytes).length = (bytes.length + (width - 1)) / width ∧
      (∀ d ∈ setupDigits width bytes, d < digitRadix width) ∧
      ofDigits (digitRadix width) (setupDigits width bytes).reverse = ofDigits 256 bytes.reverse := by
  have hdm := Nat.mod_add_div bytes.length width
  have hmod := Nat.mod_lt bytes.length hw
  have hdrop : (bytes.drop (bytes.length % width)).length = bytes.length / width * width := by
    rw [List.length_drop, Nat.mul_comm]
    omega
  obtain ⟨hdigits, hvalue⟩ := setupWords_spec hdrop fun d hd => hbytes d (List.mem_of_mem_drop hd)
  unfold setupDigits
  dsimp only
  by_cases hzero : bytes.length % width = 0
  · rw [if_neg (by simpa using hzero), List.nil_append]
    refine ⟨?_, hdigits, ?_⟩
    · rw [length_setupWords]
      conv_rhs => rw [← hdm, hzero, Nat.zero_add, Nat.add_comm, Nat.add_mul_div_left _ _ hw]
      rw [Nat.div_eq_of_lt (show width - 1 < width by omega), Nat.zero_add]
    · rw [hvalue, hzero, List.drop_zero]
  · rw [if_pos hzero]
    have htake : (bytes.take (bytes.length % width)).length = bytes.length % width := by
      rw [List.length_take, Nat.min_eq_left (Nat.mod_le _ _)]
    refine ⟨?_, ?_, ?_⟩
    · rw [List.singleton_append, List.length_cons, length_setupWords]
      conv_rhs => rw [← hdm, show bytes.length % width + width * (bytes.length / width) + (width - 1) =
        (bytes.length % width - 1) + width * (bytes.length / width + 1) by rw [Nat.mul_succ]; omega,
        Nat.add_mul_div_left _ _ hw]
      rw [Nat.div_eq_of_lt (show bytes.length % width - 1 < width by omega), Nat.zero_add]
    · intro d hd
      rcases List.mem_append.mp hd with hd | hd
      · obtain rfl := List.mem_singleton.mp hd
        rw [digitRadix_eq]
        exact (take_lt hbytes _).trans (Nat.pow_lt_pow_right (by decide) hmod)
      · exact hdigits d hd
    · rw [List.singleton_append, List.reverse_cons, ofDigits_append, hvalue, List.length_reverse, length_setupWords,
        ofDigits_singleton, word_eq fun d hd => hbytes d (List.mem_of_mem_take hd)]
      conv_rhs => rw [← List.take_append_drop (bytes.length % width) bytes, List.reverse_append, ofDigits_append,
        List.length_reverse, hdrop, Nat.mul_comm _ width, Nat.pow_mul, ← digitRadix_eq]

theorem value_dropWhile (bytes : List Nat) :
    ofDigits 256 (bytes.dropWhile (· = 0)).reverse = ofDigits 256 bytes.reverse := by
  induction bytes with
  | nil => rfl
  | cons byte bytes ih =>
    by_cases hzero : byte = 0
    · rw [List.dropWhile_cons_of_pos (by simpa using hzero), ih, List.reverse_cons, ofDigits_append, hzero,
        ofDigits_singleton,
        Nat.mul_zero, Nat.add_zero]
    · rw [List.dropWhile_cons_of_neg (by simpa using hzero)]

/-- Bytes read into a buffer with room for them: the number they are, in order. --/
theorem setup_spec {width : Nat} (hw : 0 < width) {number : SignedNumber} {byteStream : List Nat}
    (hbytes : ∀ d ∈ byteStream, d < 256) (hwhole : width ∣ number.bufferSize) (hone : width ≤ number.bufferSize)
    (hroom : ofDigits 256 byteStream.reverse < digitRadix width ^ (number.bufferSize / width)) :
    ∃ y, setup width number byteStream = .ok y ∧ Normal width y ∧
      y.toInt width = (ofDigits 256 byteStream.reverse : Nat) := by
  have hb := two_le_digitRadix hw
  have hvalue := value_dropWhile byteStream
  have hbytes' : ∀ d ∈ byteStream.dropWhile (· = 0), d < 256 := fun d hd => hbytes d (List.dropWhile_subset _ hd)
  unfold setup
  dsimp only
  by_cases hnil : byteStream.dropWhile (· = 0) = []
  · rw [if_pos hnil, if_neg (by omega)]
    rw [hnil] at hvalue
    refine ⟨_, rfl, ⟨proper_of_top hb (fun d hd => ?_) (.inl rfl), (fun h => by cases h), hwhole, ?_⟩, ?_⟩
    · obtain rfl := List.mem_singleton.mp hd
      omega
    · rw [show (number.setDigit 0).data.length = 1 from rfl, Nat.one_mul]
      exact hone
    · rw [toInt_setDigit_zero, ← hvalue]
      rfl
  · obtain ⟨hcount, hdigits, hsame⟩ := setupDigits_spec hw hbytes'
    have hpos := List.length_pos_of_ne_nil hnil
    -- The first byte that is left is not zero, so the bytes reach up to their number.
    have htop : 256 ^ ((byteStream.dropWhile (· = 0)).length - 1) ≤
      ofDigits 256 (byteStream.dropWhile (· = 0)).reverse := by
      have hhead := List.head_dropWhile_not (fun d : Nat => decide (d = 0)) hnil
      cases hcons : byteStream.dropWhile (· = 0) with
      | nil => exact absurd hcons hnil
      | cons d ds =>
        simp only [hcons, List.head_cons, decide_eq_false_iff_not] at hhead
        rw [List.reverse_cons, ofDigits_append, ofDigits_singleton, List.length_reverse, List.length_cons,
          Nat.add_sub_cancel]
        exact (Nat.le_mul_of_pos_right _ (Nat.pos_of_ne_zero hhead)).trans (Nat.le_add_left _ _)
    rw [← hvalue] at hroom ⊢
    generalize byteStream.dropWhile (· = 0) = bytes at *
    have hwords : (bytes.length + (width - 1)) / width ≤ number.bufferSize / width := by
      have hlt := htop.trans_lt hroom
      rw [digitRadix_eq, ← Nat.pow_mul] at hlt
      have hlt := (Nat.pow_lt_pow_iff_right (by decide)).mp hlt
      refine Nat.le_of_lt_succ (Nat.div_lt_of_lt_mul ?_)
      rw [Nat.mul_succ]
      omega
    have hfits : (bytes.length + (width - 1)) / width * width ≤ number.bufferSize :=
      (Nat.mul_le_mul_right _ hwords).trans (Nat.div_mul_le_self _ _)
    rw [if_neg hnil, if_neg (by omega)]
    refine ⟨_, rfl, ⟨proper_of_top hb (fun d hd => hdigits d (List.mem_reverse.mp hd)) (.inr ?_),
      (fun h => by cases h), hwhole, ?_⟩, ?_⟩
    · have hpos' : 0 < (bytes.length + (width - 1)) / width := Nat.div_pos (by omega) hw
      simp only [List.length_reverse, hcount]
      refine ⟨hpos', ?_⟩
      rw [hsame, digitRadix_eq, ← Nat.pow_mul]
      refine (Nat.pow_le_pow_right (by decide) ?_).trans htop
      have hdm := Nat.div_mul_le_self (bytes.length + (width - 1)) width
      rw [Nat.mul_sub, Nat.mul_one, Nat.mul_comm]
      omega
    · simp only [List.length_reverse, hcount]
      exact hfits
    · unfold SignedNumber.toInt
      simp only [hsame]
      rfl

/-! ### Writing bytes -/

/-- What the test of the top digit finds. --/
theorem leadingCount_spec {value : Nat} (hw : width = 2 ∨ width = 4) (hvalue : value < digitRadix width) :
    leadingCount width value < width ∧ value < 256 ^ (width - leadingCount width value) ∧
      (0 < value → 256 ^ (width - leadingCount width value - 1) ≤ value) ∧
        (value = 0 → leadingCount width value = width - 1) := by
  rw [digitRadix_eq] at hvalue
  unfold leadingCount
  rcases hw with rfl | rfl
  · norm_num at hvalue
    split_ifs
    · exact ⟨by decide, by norm_num; omega, fun h => by norm_num; omega, fun _ => rfl⟩
    · exact ⟨by decide, by norm_num; omega, fun h => by norm_num; omega, fun h => by omega⟩
  · norm_num at hvalue
    split_ifs
    · exact ⟨by decide, by norm_num; omega, fun h => by norm_num; omega, fun _ => rfl⟩
    · exact ⟨by decide, by norm_num; omega, fun h => by norm_num; omega, fun h => by omega⟩
    · exact ⟨by decide, by norm_num; omega, fun h => by norm_num; omega, fun h => by omega⟩
    · exact ⟨by decide, by norm_num; omega, fun h => by norm_num; omega, fun h => by omega⟩

theorem extract_spec {size : Nat} (hx : Normal width x) (hroom : x.data.length * width ≤ size) :
    ∃ bytes, extract width x size = .ok bytes ∧ bytes.length = x.data.length * width ∧ (∀ d ∈ bytes, d < 256) ∧
      ofDigits 256 bytes.reverse = (x.toInt width).natAbs := by
  refine ⟨x.data.reverse.flatMap (digitBytes width), ?_, ?_, flatMap_digitBytes_lt, ?_⟩
  · unfold extract
    rw [if_neg (by omega)]
  · rw [length_flatMap_digitBytes, List.length_reverse]
  · rw [value_flatMap_digitBytes hx.proper.digits, natAbs_toInt]

theorem extractFixedSize_spec {size : Nat} (hw : width = 2 ∨ width = 4) (hx : Normal width x) (hone : 0 < size)
    (hroom : (x.toInt width).natAbs < 256 ^ size) :
    ∃ bytes, extractFixedSize width x size = .ok bytes ∧ bytes.length = size ∧ (∀ d ∈ bytes, d < 256) ∧
      ofDigits 256 bytes.reverse = (x.toInt width).natAbs := by
  have hb : 2 ≤ digitRadix width := two_le_digitRadix (by omega)
  rw [natAbs_toInt] at hroom ⊢
  unfold extractFixedSize
  rw [hx.proper.adjusted]
  rcases List.eq_nil_or_concat x.data with hnil | ⟨ds, top, hconcat⟩
  · exact absurd hnil (proper_ne_nil hx.proper)
  rw [List.concat_eq_append] at hconcat
  have hdigits := hx.proper.digits
  have htop := hx.proper.top hb
  rw [hconcat] at hroom hdigits htop ⊢
  have hds : ∀ d ∈ ds, d < digitRadix width := fun d hd => hdigits d (List.mem_append_left _ hd)
  obtain ⟨hlead, hlow, hhigh, hnone⟩ := leadingCount_spec hw (hdigits top (List.mem_append_right _ List.mem_cons_self))
  dsimp only
  rw [List.getLastD_concat, List.dropLast_concat, List.length_append, List.length_singleton, Nat.add_mul, Nat.one_mul]
  rw [ofDigits_append, ofDigits_singleton] at hroom ⊢
  rw [List.length_append, List.length_singleton, Nat.add_sub_cancel, ofDigits_append, ofDigits_singleton] at htop
  generalize leadingCount width top = leading at *
  -- The bytes that count are no more than those the number has.
  have hcount : ds.length * width + width - leading ≤ size := by
    rcases Nat.eq_zero_or_pos top with hzero | hpos
    · subst hzero
      have hds0 : ds.length = 0 := by
        rcases htop with h | h
        · omega
        · have hlt := value_lt hb hds
          omega
      have hlead1 := hnone rfl
      rw [hds0]
      omega
    · have hle := hhigh hpos
      have hpow : 256 ^ (ds.length * width + (width - leading - 1)) < 256 ^ size := by
        calc 256 ^ (ds.length * width + (width - leading - 1))
            = digitRadix width ^ ds.length * 256 ^ (width - leading - 1) := by
              rw [digitRadix_eq, ← Nat.pow_mul, ← Nat.pow_add, Nat.mul_comm width]
          _ ≤ digitRadix width ^ ds.length * top := Nat.mul_le_mul_left _ hle
          _ ≤ ofDigits (digitRadix width) ds + digitRadix width ^ ds.length * top := Nat.le_add_left _ _
          _ < 256 ^ size := hroom
      have hlt := (Nat.pow_lt_pow_iff_right (by decide)).mp hpow
      omega
  rw [if_neg (by omega)]
  refine ⟨_, rfl, ?_, ?_, ?_⟩
  · simp only [List.length_append, List.length_replicate, List.length_drop, length_digitBytes,
      length_flatMap_digitBytes,
      List.length_reverse]
    omega
  · intro d hd
    rcases List.mem_append.mp hd with hd | hd
    · rw [List.eq_of_mem_replicate hd]
      decide
    rcases List.mem_append.mp hd with hd | hd
    · exact digitBytes_lt d (List.mem_of_mem_drop hd)
    · exact flatMap_digitBytes_lt d hd
  · rw [List.reverse_append, List.reverse_append, List.reverse_replicate, ofDigits_append_replicate_zero,
      ofDigits_append,
      value_drop_digitBytes hlead.le hlow, value_flatMap_digitBytes hds, List.length_reverse, length_flatMap_digitBytes,
      List.length_reverse, digitRadix_eq, Nat.mul_comm ds.length, Nat.pow_mul]

/-! ### The arithmetic -/

/-- Each operation returns, in order, the number of the exact integer result, and the bytes hold the magnitude. --/
structure Homomorphic (width : Nat) (left right result : SignedNumber) : Prop where
  add : Room width left right (left.toInt width + right.toInt width) →
    Normal width (add width left right) ∧ (add width left right).toInt width = left.toInt width + right.toInt width
  subtract : Room width left right (left.toInt width - right.toInt width) →
    Normal width (subtractSigned width left right) ∧
      (subtractSigned width left right).toInt width = left.toInt width - right.toInt width
  multiply : (left.data.length + right.data.length) * width ≤ result.bufferSize →
    Normal width (multiply width left right result) ∧
      (multiply width left right result).toInt width = left.toInt width * right.toInt width
  square : 2 * left.data.length * width ≤ result.bufferSize →
    Normal width (square width left result) ∧ (square width left result).toInt width =
      left.toInt width * left.toInt width ∧
      square width left result = Crypto.multiply width left left result
  shiftLeft : ∀ shift < 8 * width, (left.data.length + 1) * width ≤ left.bufferSize →
    Normal width (shiftLeft width left shift) ∧ (shiftLeft width left shift).toInt width = left.toInt width * 2 ^ shift
  shiftRight : ∀ shift < 8 * width,
    Normal width (shiftRight width left shift) ∧ (shiftRight width left shift).toInt width =
      (left.toInt width).tdiv (2 ^ shift)
  extract : ∀ size, left.data.length * width ≤ size → left.data.length * width ≤ result.bufferSize →
    ∃ bytes y, extract width left size = .ok bytes ∧ setup width result bytes = .ok y ∧ Normal width y ∧
      y.toInt width = |left.toInt width|
  extractFixedSize : ∀ size, 0 < size → (left.toInt width).natAbs < 256 ^ size →
    left.data.length * width ≤ result.bufferSize →
    ∃ bytes y, extractFixedSize width left size = .ok bytes ∧ bytes.length = size ∧ setup width result bytes = .ok y ∧
      Normal width y ∧ y.toInt width = |left.toInt width|
  addSums : ∀ p, p ∈ addProducts (digitRadix width) 0 left.data right.data ∨
    p ∈ addProducts (digitRadix width) 0 right.data left.data → p < digitRadix width ^ 2
  subtractSums : ∀ p, p ∈ subtractProducts (digitRadix width) (digitRadix width) left.data right.data ∨
    p ∈ subtractProducts (digitRadix width) (digitRadix width) right.data left.data → p < digitRadix width ^ 2
  multiplySums : ∀ p ∈ multiplyProducts (digitRadix width) right.data left.data
    (List.replicate (left.data.length + right.data.length) 0), p < digitRadix width ^ 2
  squareRowSums : ∀ p ∈ squareRowProducts (digitRadix width) left.data (List.replicate (2 * left.data.length) 0),
    p < digitRadix width ^ 2
  squareSums : ∀ p ∈ squareSums (digitRadix width) 0 left.data (squareDoubled width left.data), p < digitRadix width ^ 2

/-- The square is the product with itself. --/
theorem square_eq_multiply (hw : 0 < width) {result : SignedNumber} (hx : Normal width x) (hwhole : width ∣
    result.bufferSize)
    (hroom : 2 * x.data.length * width ≤ result.bufferSize) : square width x result = multiply width x x result := by
  obtain ⟨hnormal, hvalue⟩ := square_spec hw hx hwhole hroom
  obtain ⟨hnormal', hvalue'⟩ := multiply_spec hw hx hx hwhole (by rw [← Nat.two_mul]; exact hroom)
  obtain ⟨hdata, hsign⟩ := hnormal.unique hw hnormal' (hvalue.trans hvalue'.symm)
  calc square width x result
      = ⟨(square width x result).data, result.bufferSize, (square width x result).isNegative⟩ := rfl
    _ = ⟨(multiply width x x result).data, result.bufferSize, (multiply width x x result).isNegative⟩ := by rw [hdata,
      hsign]
    _ = multiply width x x result := rfl

/-- The bytes of a number's magnitude, read again into a buffer that holds as many digits. --/
theorem setup_magnitude (hw : 0 < width) {result : SignedNumber} {bytes : List Nat} (hx : Normal width x)
    (hwhole : width ∣ result.bufferSize) (hroom : x.data.length * width ≤ result.bufferSize) (hbytes : ∀ d ∈ bytes, d <
      256)
    (hvalue : ofDigits 256 bytes.reverse = (x.toInt width).natAbs) :
    ∃ y, setup width result bytes = .ok y ∧ Normal width y ∧ y.toInt width = |x.toInt width| := by
  have hb := two_le_digitRadix hw
  have hpos := List.length_pos_of_ne_nil (proper_ne_nil hx.proper)
  have hone : width ≤ result.bufferSize := (Nat.le_mul_of_pos_left _ hpos).trans hroom
  have hlt : ofDigits 256 bytes.reverse < digitRadix width ^ (result.bufferSize / width) := by
    rw [hvalue, natAbs_toInt]
    exact (value_lt hb hx.proper.digits).trans_le
      (Nat.pow_le_pow_right (by omega) ((Nat.le_div_iff_mul_le hw).mpr hroom))
  obtain ⟨y, hy, hnormal, hint⟩ := setup_spec hw hbytes hwhole hone hlt
  refine ⟨y, hy, hnormal, ?_⟩
  rw [hint, hvalue, Int.natCast_natAbs]

theorem sums_lt (hb : 2 ≤ b) {p : Nat} (hp : p < 2 * b) : p < b ^ 2 := by
  rw [Nat.pow_two]
  exact hp.trans_le (Nat.mul_le_mul_right _ hb)

end

end Netxduo.Crypto
