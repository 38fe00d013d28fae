import Mathlib
import Netxduo.Crypto.FieldHelpers
import Netxduo.Crypto.SignedBytes
import Netxduo.Crypto.SignedModulus

/-! The reductions of the NIST primes: the words of a product are put together in other orders, and what comes out is
    corrected by the prime. Digits and words have 32 bits. -/

namespace Netxduo.Crypto.Field
open Nat

/-! ### The source -/

/-- `_nx_crypto_huge_number_compare` --/
def compareSigned (left right : SignedNumber) : Ordering :=
  if left.isNegative ≠ right.isNegative then if left.isNegative then .lt else .gt
  else if left.isNegative then compareUnsigned right.data left.data
  else compareUnsigned left.data right.data

/-- `_nx_crypto_huge_number_is_zero` --/
def isZero (x : SignedNumber) : Bool := x.data.all fun d => decide (d = 0)

/-- A word of the value, or the constant zero. --/
def fetch (data : List Nat) : Option Nat → Nat
  | some i => data.getD i 0
  | none => 0

/-- `NX_CRYPTO_EC_SECP256R1_DATA_SETUP` and its like. The arguments come with the top word first. --/
def dataSetup (data : List Nat) (words : List (Option Nat)) : List Nat := (words.map (fetch data)).reverse

/-- `NX_CRYPTO_EC_SECP256R1_DATA_SETUP_LS1` and its like: all words moved up by a bit. --/
def dataSetupLs1 (data : List Nat) (words : List (Option Nat)) : List Nat :=
  let moved := shiftLeftDigits 32 1 0 (dataSetup data words)
  if moved.getLastD 0 ≠ 0 then moved else moved.dropLast

/-- What is done with one of the numbers s2, s3 and so on. --/
inductive Term
  | add (words : List (Option Nat))
  | addTwice (words : List (Option Nat))
  | addFront (count : Nat)
  | subtract (words : List (Option Nat))
deriving Repr

/-- The octets of the value, padded with zeros in front, and the words they are. --/
def paddedOctets (value : SignedNumber) (size : Nat) : Except HugeError (List Nat) :=
  (extract 4 value size).map fun octets => List.replicate (size - octets.length) 0 ++ octets

def dataWords (octets : List Nat) : List Nat := setupWords 4 (octets.length / 4) octets

/-- One number is set up in `temp` and added or subtracted. --/
def applyTerm (octets : List Nat) (temp value : SignedNumber) : Term → Except HugeError SignedNumber
  | .add words => .ok (Crypto.add 4 value { temp with data := dataSetup (dataWords octets) words })
  | .addTwice words => .ok (Crypto.add 4 value { temp with data := dataSetupLs1 (dataWords octets) words })
  | .addFront count => (setup 4 temp (octets.take (4 * count))).map fun temp => Crypto.add 4 value temp
  | .subtract words => .ok (subtractSigned 4 value { temp with data := dataSetup (dataWords octets) words })

/-- The loop that takes the prime from the magnitude. --/
def correctLoop (fp : SignedNumber) : Nat → SignedNumber → Option SignedNumber
  | 0, _ => none
  | fuel + 1, value =>
    if compareUnsigned value.data fp.data = .lt then some value
    else correctLoop fp fuel (subtractUnsigned 4 value fp value)

/-- The sign at the end. --/
def correctSign (fp value : SignedNumber) : SignedNumber :=
  if isZero value then { value with isNegative := false }
  else if value.isNegative then { subtractUnsigned 4 fp value value with isNegative := false }
  else value

/-- What all the reductions begin with, and end with. An error of the extraction or of a set-up is not looked at in the
    source; it is none of what comes out here. --/
def reduceWith (fp value : SignedNumber) (fuel : Nat) (combine : Except HugeError SignedNumber) : Option SignedNumber :=
  match compareSigned value fp with
  | .lt => some value
  | .eq => some (value.setDigit 0)
  | .gt => combine.toOption.bind fun value => (correctLoop fp fuel value).map (correctSign fp)

/-- The reductions of whole words. The lower half of the value is set up, and the other numbers are added to it. --/
def wordReduce (fp : SignedNumber) (tempSize words : Nat) (terms : List Term) (fuel : Nat) (value : SignedNumber) :
    Option SignedNumber :=
  reduceWith fp value fuel do
    let octets ← paddedOctets value (8 * words)
    let value ← setup 4 value (octets.drop (4 * words))
    terms.foldlM (applyTerm octets ⟨[], tempSize, false⟩) value

def secp192r1P : SignedNumber :=
  ⟨[0xFFFFFFFF, 0xFFFFFFFF, 0xFFFFFFFE, 0xFFFFFFFF, 0xFFFFFFFF, 0xFFFFFFFF], 24, false⟩

def secp192r1Terms : List Term :=
  [.add [none, none, some 4, some 5, some 4, some 5], .add [some 2, some 3, some 2, some 3, none, none],
    .add [some 0, some 1, some 0, some 1, some 0, some 1]]

/-- `_nx_crypto_ec_secp192r1_reduce` --/
def secp192r1Reduce (fuel : Nat) (value : SignedNumber) : Option SignedNumber :=
  wordReduce secp192r1P 36 6 secp192r1Terms fuel value

def secp224r1P : SignedNumber :=
  ⟨[0x00000001, 0x00000000, 0x00000000, 0xFFFFFFFF, 0xFFFFFFFF, 0xFFFFFFFF, 0xFFFFFFFF], 28, false⟩

def secp224r1Terms : List Term :=
  [.add [some 3, some 4, some 5, some 6, none, none, none], .add [none, some 0, some 1, some 2, none, none, none],
    .subtract [some 0, some 1, some 2, some 3, some 4, some 5, some 6],
    .subtract [none, none, none, none, some 0, some 1, some 2]]

/-- `_nx_crypto_ec_secp224r1_reduce` --/
def secp224r1Reduce (fuel : Nat) (value : SignedNumber) : Option SignedNumber :=
  wordReduce secp224r1P 36 7 secp224r1Terms fuel value

def secp256r1P : SignedNumber :=
  ⟨[0xFFFFFFFF, 0xFFFFFFFF, 0xFFFFFFFF, 0x00000000, 0x00000000, 0x00000000, 0x00000001, 0xFFFFFFFF], 32, false⟩

def secp256r1Terms : List Term :=
  [.addTwice [some 0, some 1, some 2, some 3, some 4, none, none, none],
    .addTwice [none, some 0, some 1, some 2, some 3, none, none, none],
    .add [some 0, some 1, none, none, none, some 5, some 6, some 7],
    .add [some 7, some 2, some 0, some 1, some 2, some 4, some 5, some 6],
    .subtract [some 5, some 7, none, none, none, some 2, some 3, some 4],
    .subtract [some 4, some 6, none, none, some 0, some 1, some 2, some 3],
    .subtract [some 3, none, some 5, some 6, some 7, some 0, some 1, some 2],
    .subtract [some 2, none, some 4, some 5, some 6, none, some 0, some 1]]

/-- `_nx_crypto_ec_secp256r1_reduce` --/
def secp256r1Reduce (fuel : Nat) (value : SignedNumber) : Option SignedNumber :=
  wordReduce secp256r1P 36 8 secp256r1Terms fuel value

def secp384r1P : SignedNumber :=
  ⟨[0xFFFFFFFF, 0x00000000, 0x00000000, 0xFFFFFFFF, 0xFFFFFFFE, 0xFFFFFFFF, 0xFFFFFFFF, 0xFFFFFFFF, 0xFFFFFFFF,
    0xFFFFFFFF, 0xFFFFFFFF, 0xFFFFFFFF], 48, false⟩

def secp384r1Terms : List Term :=
  [.addTwice [none, none, none, none, none, some 0, some 1, some 2, none, none, none, none],
    .addFront 12,
    .add [some 3, some 4, some 5, some 6, some 7, some 8, some 9, some 10, some 11, some 0, some 1, some 2],
    .add [some 4, some 5, some 6, some 7, some 8, some 9, some 10, some 11, some 3, none, some 0, none],
    .add [none, none, none, none, some 0, some 1, some 2, some 3, none, none, none, none],
    .add [none, none, none, none, none, none, some 0, some 1, some 2, none, none, some 3],
    .subtract [some 1, some 2, some 3, some 4, some 5, some 6, some 7, some 8, some 9, some 10, some 11, some 0],
    .subtract [none, none, none, none, none, none, none, some 0, some 1, some 2, some 3, none],
    .subtract [none, none, none, none, none, none, none, some 0, some 0, none, none, none]]

/-- `_nx_crypto_ec_secp384r1_reduce` --/
def secp384r1Reduce (fuel : Nat) (value : SignedNumber) : Option SignedNumber :=
  wordReduce secp384r1P 52 12 secp384r1Terms fuel value

def secp521r1P : SignedNumber :=
  ⟨[0xFFFFFFFF, 0xFFFFFFFF, 0xFFFFFFFF, 0xFFFFFFFF, 0xFFFFFFFF, 0xFFFFFFFF, 0xFFFFFFFF, 0xFFFFFFFF, 0xFFFFFFFF,
    0xFFFFFFFF, 0xFFFFFFFF, 0xFFFFFFFF, 0xFFFFFFFF, 0xFFFFFFFF, 0xFFFFFFFF, 0xFFFFFFFF, 0x000001FF], 68, false⟩

/-- `_nx_crypto_ec_secp521r1_reduce`: the upper bits are moved down, and the lower ones added. --/
def secp521r1Reduce (fuel : Nat) (value : SignedNumber) : Option SignedNumber :=
  reduceWith secp521r1P value fuel do
    let octets ← paddedOctets value 132
    let value ← setup 4 value (octets.take 67)
    let value := shiftRight 4 value 1
    let temp ← setup 4 ⟨[], 68, false⟩ ((octets.getD 66 0 &&& 1) :: octets.drop 67)
    return Crypto.add 4 value temp

/-! ### What the numbers weigh -/

/-- How often a word counts in a number that is put together. --/
def wordsWeight (words : List (Option Nat)) (i : Nat) : Nat :=
  ofDigits (2 ^ 32) ((words.map fun w => if w = some i then 1 else 0).reverse)

namespace Term

/-- The words of a number. --/
def words : Term → List (Option Nat)
  | .add words => words
  | .addTwice words => words
  | .addFront count => (List.range count).map some
  | .subtract words => words

/-- What a number is multiplied by. --/
def factor : Term → Int
  | .add _ => 1
  | .addTwice _ => 2
  | .addFront _ => 1
  | .subtract _ => -1

/-- A number has as many words as the prime, and all of them are words of the value. --/
def Within (n : Nat) (t : Term) : Prop := t.words.length = n ∧ ∀ w ∈ t.words, w.all (fun i => decide (i < 2 * n)) = true

instance (n : Nat) (t : Term) : Decidable (t.Within n) :=
  inferInstanceAs (Decidable (t.words.length = n ∧ ∀ w ∈ t.words, w.all (fun i => decide (i < 2 * n)) = true))

end Term

/-- How often a word counts in the sum of the numbers. --/
def termsWeight (terms : List Term) (i : Nat) : Int := (terms.map fun t => t.factor * (wordsWeight t.words i : Int)).sum

/-- The words count modulo the prime as they do in the value. --/
def Congruent (p n : Nat) (terms : List Term) : Prop :=
  ∀ i < 2 * n, ((wordsWeight ((List.range' n n).map some) i : Int) + termsWeight terms i) % p =
    wordsWeight ((List.range (2 * n)).map some) i % p

instance (p n : Nat) (terms : List Term) : Decidable (Congruent p n terms) :=
  inferInstanceAs (Decidable (∀ i < 2 * n, _))

section
variable {data octets : List Nat} {words : List (Option Nat)} {n m size fuel : Nat} {fp value temp x : SignedNumber}
  {t : Term} {terms : List Term}

theorem fetch_lt (hdata : ∀ d ∈ data, d < 2 ^ 32) (w : Option Nat) : fetch data w < 2 ^ 32 := by
  cases w with
  | none => exact Nat.pow_pos (by decide)
  | some i =>
    rw [fetch, List.getD_eq_getElem?_getD]
    cases hi : data[i]? with
    | none => exact Nat.pow_pos (by decide)
    | some d => exact hdata d (List.mem_of_getElem? hi)

theorem fetch_sum {w : Option Nat} (hw : w.all (fun i => decide (i < m)) = true) :
    fetch data w = ∑ i ∈ Finset.range m, (if w = some i then 1 else 0) * data.getD i 0 := by
  cases w with
  | none => simp [fetch]
  | some j =>
    have hj : j < m := by simpa using hw
    rw [Finset.sum_eq_single j]
    · simp [fetch]
    · intro i _ hne
      rw [if_neg (fun h => hne (Option.some.inj h).symm), Nat.zero_mul]
    · intro hout
      exact absurd (Finset.mem_range.mpr hj) hout

/-- A number that is put together is the sum of its words, each as often as it counts. --/
theorem value_dataSetup : ∀ {words : List (Option Nat)}, (∀ w ∈ words, w.all (fun i => decide (i < m)) = true) →
    ofDigits (2 ^ 32) (dataSetup data words) = ∑ i ∈ Finset.range m, wordsWeight words i * data.getD i 0
  | [], _ => by simp [dataSetup, wordsWeight]
  | w :: words, hw => by
    have ih := value_dataSetup fun v hv => hw v (List.mem_cons_of_mem _ hv)
    have hfetch := @fetch_sum data m w (hw w List.mem_cons_self)
    unfold dataSetup wordsWeight at ih ⊢
    rw [List.map_cons, List.reverse_cons, ofDigits_append, ofDigits_singleton, ih, hfetch, Finset.mul_sum,
      ← Finset.sum_add_distrib]
    refine Finset.sum_congr rfl fun i _ => ?_
    rw [List.map_cons, List.reverse_cons, ofDigits_append, ofDigits_singleton, List.length_reverse, List.length_reverse,
      List.length_map, List.length_map]
    ring

/-- Words in their own order are a piece of the value. --/
theorem dataSetup_range' {a k : Nat} (h : a + k ≤ data.length) :
    dataSetup data ((List.range' a k).map some) = ((data.drop a).take k).reverse := by
  unfold dataSetup
  rw [List.map_map]
  congr 1
  refine List.ext_getElem (by simp; omega) fun i hi hi' => ?_
  have hlt : a + i < data.length := by
    rw [List.length_map, List.length_range'] at hi
    omega
  simp [fetch, List.getElem?_eq_getElem hlt]

theorem dataSetup_digits (hdata : ∀ d ∈ data, d < 2 ^ 32) : ∀ d ∈ dataSetup data words, d < 2 ^ 32 := by
  intro d hd
  obtain ⟨w, -, rfl⟩ := List.mem_map.mp (List.mem_reverse.mp hd)
  exact fetch_lt hdata w

theorem length_dataSetup : (dataSetup data words).length = words.length := by simp [dataSetup]

/-- The words moved up by a bit are the double, in one digit more at the most. --/
theorem dataSetupLs1_spec (hdata : ∀ d ∈ data, d < 2 ^ 32) :
    words.length ≤ (dataSetupLs1 data words).length ∧ (dataSetupLs1 data words).length ≤ words.length + 1 ∧
      (∀ d ∈ dataSetupLs1 data words, d < 2 ^ 32) ∧
      ofDigits (2 ^ 32) (dataSetupLs1 data words) = 2 * ofDigits (2 ^ 32) (dataSetup data words) := by
  obtain ⟨hlength, hdigits, hvalue⟩ := shiftLeftDigits_spec (n := 32) (l := 0) (X := dataSetup data words)
    (show 1 ≤ 32 by decide) (by decide) (dataSetup_digits hdata)
  rw [length_dataSetup] at hlength
  rw [Nat.zero_add, Nat.pow_one] at hvalue
  unfold dataSetupLs1
  dsimp only
  split
  · exact ⟨by omega, by omega, hdigits, hvalue⟩
  · rename_i hlast
    refine ⟨?_, ?_, fun d hd => hdigits d (List.dropLast_subset _ hd), ?_⟩
    · rw [List.length_dropLast]
      omega
    · rw [List.length_dropLast]
      omega
    · rw [value_dropLast (not_not.mp hlast)]
      exact hvalue

/-! ### The words of the octets -/

theorem setupWords_append : ∀ (a b : Nat) (bytes : List Nat),
    setupWords 4 (a + b) bytes = setupWords 4 a bytes ++ setupWords 4 b (bytes.drop (4 * a))
  | 0, b, bytes => by simp [setupWords]
  | a + 1, b, bytes => by
    rw [show a + 1 + b = a + b + 1 by omega, setupWords, setupWords, setupWords_append a b, List.drop_drop,
      List.cons_append, show 4 + 4 * a = 4 * (a + 1) by ring]

theorem setupWords_take : ∀ (a : Nat) (bytes : List Nat), setupWords 4 a (bytes.take (4 * a)) = setupWords 4 a bytes
  | 0, _ => rfl
  | a + 1, bytes => by
    rw [setupWords, setupWords, List.take_take, Nat.min_eq_left (by omega), List.drop_take,
      show 4 * (a + 1) - 4 = 4 * a by omega, setupWords_take a]

/-- The words of the octets: below the radix, and in pieces the numbers that the pieces of the octets are. --/
theorem dataWords_spec (hlength : octets.length = 8 * n) (hoctets : ∀ d ∈ octets, d < 256) :
    (dataWords octets).length = 2 * n ∧ (∀ d ∈ dataWords octets, d < 2 ^ 32) ∧
      ofDigits (2 ^ 32) (dataWords octets).reverse = ofDigits 256 octets.reverse ∧
      ofDigits (2 ^ 32) ((dataWords octets).drop n).reverse = ofDigits 256 (octets.drop (4 * n)).reverse ∧
      ofDigits (2 ^ 32) ((dataWords octets).take n).reverse = ofDigits 256 (octets.take (4 * n)).reverse := by
  have hcount : octets.length / 4 = n + n := by omega
  have hall := @setupWords_spec 4 (n + n) octets (by omega) hoctets
  have hlow := @setupWords_spec 4 n (octets.drop (4 * n)) (by rw [List.length_drop]; omega)
    fun d hd => hoctets d (List.mem_of_mem_drop hd)
  have hhigh := @setupWords_spec 4 n (octets.take (4 * n))
    (by rw [List.length_take]; omega) fun d hd => hoctets d (List.mem_of_mem_take hd)
  have hfirst := length_setupWords 4 n octets
  rw [setupWords_take] at hhigh
  unfold dataWords
  rw [hcount]
  refine ⟨by rw [length_setupWords]; omega, hall.1, hall.2, ?_, ?_⟩
  · rw [setupWords_append, List.drop_append_of_le_length (by omega), List.drop_of_length_le (by omega), List.nil_append]
    exact hlow.2
  · rw [setupWords_append, List.take_append_of_le_length (by omega), List.take_of_length_le (by omega)]
    exact hhigh.2

/-! ### Adding the numbers -/

theorem Stored.of_digits {xs : List Nat} (hxs : ∀ d ∈ xs, d < 2 ^ 32) (hne : 0 < xs.length) (hsize : 4 ∣ size)
    (hfits : xs.length * 4 ≤ size) : Stored 4 ⟨xs, size, false⟩ :=
  ⟨hxs, List.ne_nil_of_length_pos hne, (fun h => by cases h), hsize, hfits⟩

theorem toInt_of_not_negative (h : x.isNegative = false) : x.toInt 4 = x.magnitude 4 := by
  rw [toInt_magnitude, h]
  rfl

/-- One number, added or subtracted. --/
theorem applyTerm_spec (hn : 0 < n) (hlength : octets.length = 8 * n) (hoctets : ∀ d ∈ octets, d < 256)
    (hsize : 4 ∣ size) (htemp : (n + 1) * 4 ≤ size) (hwithin : t.Within n) (hv : Stored 4 value)
    (hroom : 8 * n ≤ value.bufferSize)
    (hbound : value.magnitude 4 + 2 * (2 ^ 32) ^ n < (2 ^ 32) ^ (value.bufferSize / 4)) :
    ∃ y, applyTerm octets ⟨[], size, false⟩ value t = .ok y ∧ Stored 4 y ∧ y.bufferSize = value.bufferSize ∧
      y.toInt 4 = value.toInt 4 +
        ∑ i ∈ Finset.range (2 * n), t.factor * wordsWeight t.words i * (dataWords octets).getD i 0 ∧
      y.magnitude 4 ≤ value.magnitude 4 + 2 * (2 ^ 32) ^ n := by
  obtain ⟨hcount, hdata, -, -, hfront⟩ := dataWords_spec hlength hoctets
  obtain ⟨hwords, hindices⟩ := hwithin
  have hsum := @value_dataSetup (dataWords octets) _ _ hindices
  have hdigits := @dataSetup_digits _ t.words hdata
  have hlt := value_lt (b := 2 ^ 32) (by decide) hdigits
  rw [length_dataSetup, hwords] at hlt
  have hcast : ∑ i ∈ Finset.range (2 * n), t.factor * (wordsWeight t.words i : Int) * ((dataWords octets).getD i 0 :
    Nat) =
      t.factor * (ofDigits (2 ^ 32) (dataSetup (dataWords octets) t.words) : Nat) := by
    rw [hsum, Nat.cast_sum, Finset.mul_sum]
    exact Finset.sum_congr rfl fun i _ => by push_cast; ring
  rw [hcast]
  -- the number that is set up, and what becomes of the sum with it
  have hplus : ∀ {u : SignedNumber}, Stored 4 u → u.isNegative = false → u.data.length ≤ n + 1 →
      u.magnitude 4 ≤ 2 * (2 ^ 32) ^ n → Stored 4 (Crypto.add 4 value u) ∧
        (Crypto.add 4 value u).bufferSize = value.bufferSize ∧
        (Crypto.add 4 value u).toInt 4 = value.toInt 4 + u.magnitude 4 ∧
        (Crypto.add 4 value u).magnitude 4 ≤ value.magnitude 4 + 2 * (2 ^ 32) ^ n := by
    intro u hu hsign hshort hsmall
    obtain ⟨hstored, hbuffer, hint⟩ := hv.add (by decide) hu ⟨by omega, (Nat.add_le_add_left hsmall _).trans_lt hbound⟩
    rw [toInt_of_not_negative hsign] at hint
    refine ⟨hstored, hbuffer, hint, ?_⟩
    have habs := @natAbs_magnitude 4 (Crypto.add 4 value u)
    have habs' := @natAbs_magnitude 4 value
    omega
  have hminus : ∀ {u : SignedNumber}, Stored 4 u → u.isNegative = false → u.data.length ≤ n + 1 →
      u.magnitude 4 ≤ 2 * (2 ^ 32) ^ n → Stored 4 (subtractSigned 4 value u) ∧
        (subtractSigned 4 value u).bufferSize = value.bufferSize ∧
        (subtractSigned 4 value u).toInt 4 = value.toInt 4 - u.magnitude 4 ∧
        (subtractSigned 4 value u).magnitude 4 ≤ value.magnitude 4 + 2 * (2 ^ 32) ^ n := by
    intro u hu hsign hshort hsmall
    obtain ⟨hstored, hbuffer, hint⟩ := hv.subtract (by decide) hu
      ⟨by omega, (Nat.add_le_add_left hsmall _).trans_lt hbound⟩
    rw [toInt_of_not_negative hsign] at hint
    refine ⟨hstored, hbuffer, hint, ?_⟩
    have habs := @natAbs_magnitude 4 (subtractSigned 4 value u)
    have habs' := @natAbs_magnitude 4 value
    omega
  have hset : t.words.length * 4 ≤ size := by omega
  cases t with
  | add words =>
    have hu : Stored 4 ⟨dataSetup (dataWords octets) words, size, false⟩ :=
      Stored.of_digits hdigits (by rw [length_dataSetup]; exact hwords ▸ hn) hsize
        (by rw [length_dataSetup]; exact hset)
    obtain ⟨hstored, hbuffer, hint, hmag⟩ := hplus hu rfl
      (by rw [length_dataSetup]; exact hwords.le.trans (Nat.le_succ n))
      (show ofDigits (2 ^ 32) (dataSetup (dataWords octets) words) ≤ _ by exact hlt.le.trans (by omega))
    exact ⟨_, rfl, hstored, hbuffer, hint.trans (by rw [Term.factor, Int.one_mul]; rfl), hmag⟩
  | addTwice words =>
    obtain ⟨hge, hle, hdigits', hdouble⟩ := @dataSetupLs1_spec _ words hdata
    have hwords' : words.length = n := hwords
    have hu : Stored 4 ⟨dataSetupLs1 (dataWords octets) words, size, false⟩ :=
      Stored.of_digits hdigits' (by omega) hsize (by omega)
    have hmagnitude : (SignedNumber.mk (dataSetupLs1 (dataWords octets) words) size false).magnitude 4 =
        2 * ofDigits (2 ^ 32) (dataSetup (dataWords octets) words) := hdouble
    obtain ⟨hstored, hbuffer, hint, hmag⟩ := hplus hu rfl (by dsimp only; omega)
      (by rw [hmagnitude]; exact Nat.mul_le_mul_left 2 hlt.le)
    refine ⟨_, rfl, hstored, hbuffer, hint.trans ?_, hmag⟩
    rw [hmagnitude]
    push_cast
    rfl
  | addFront count =>
    have hcount' : count = n := by simpa [Term.words] using hwords
    subst hcount'
    have hpiece : ofDigits (2 ^ 32) (dataSetup (dataWords octets) (Term.words (.addFront count))) =
        ofDigits 256 (octets.take (4 * count)).reverse := by
      rw [← hfront, Term.words, List.range_eq_range', dataSetup_range' (by omega), List.drop_zero]
    rw [hpiece] at hlt ⊢
    have hquot : count + 1 ≤ size / 4 := (Nat.le_div_iff_mul_le (by decide)).mpr htemp
    obtain ⟨u, hsetup, hnormal, hvalue⟩ := @setup_spec 4 (by decide) ⟨[], size, false⟩ _
      (fun d hd => hoctets d (List.mem_of_mem_take hd)) hsize (by dsimp only; omega)
      (hlt.trans_le (Nat.pow_le_pow_right (by decide) (by dsimp only; omega)))
    have hmagnitude : u.magnitude 4 = ofDigits 256 (octets.take (4 * count)).reverse := by
      rw [← natAbs_magnitude, hvalue]
      rfl
    have hpositive : u.isNegative = false := by
      by_contra hneg
      have hneg' : u.isNegative = true := by simpa using hneg
      have hpos := hnormal.stored.sign hneg'
      rw [toInt_magnitude, hneg', if_pos rfl] at hvalue
      omega
    have hshort : u.data.length ≤ count := by
      refine hnormal.proper.length_le (by decide) hn ?_
      exact (show u.magnitude 4 < _ from hmagnitude ▸ hlt)
    obtain ⟨hstored, hbuffer, hint, hmag⟩ := hplus hnormal.stored hpositive (by omega) (by omega)
    refine ⟨_, by rw [applyTerm, hsetup]; rfl, hstored, hbuffer, hint.trans ?_, hmag⟩
    rw [hmagnitude, Term.factor, Int.one_mul]
  | subtract words =>
    have hu : Stored 4 ⟨dataSetup (dataWords octets) words, size, false⟩ :=
      Stored.of_digits hdigits (by rw [length_dataSetup]; exact hwords ▸ hn) hsize
        (by rw [length_dataSetup]; exact hset)
    obtain ⟨hstored, hbuffer, hint, hmag⟩ := hminus hu rfl
      (by rw [length_dataSetup]; exact hwords.le.trans (Nat.le_succ n))
      (show ofDigits (2 ^ 32) (dataSetup (dataWords octets) words) ≤ _ by exact hlt.le.trans (by omega))
    refine ⟨_, rfl, hstored, hbuffer, hint.trans ?_, hmag⟩
    rw [Term.factor, Int.neg_one_mul, Int.sub_eq_add_neg]
    rfl

/-- All numbers, one after the other. --/
theorem applyTerms_spec (hn : 0 < n) (hlength : octets.length = 8 * n) (hoctets : ∀ d ∈ octets, d < 256)
    (hsize : 4 ∣ size) (htemp : (n + 1) * 4 ≤ size) : ∀ {terms : List Term} {value : SignedNumber},
    (∀ t ∈ terms, t.Within n) → Stored 4 value → 8 * n ≤ value.bufferSize →
    value.magnitude 4 + terms.length * (2 * (2 ^ 32) ^ n) < (2 ^ 32) ^ (value.bufferSize / 4) →
    ∃ y, terms.foldlM (applyTerm octets ⟨[], size, false⟩) value = .ok y ∧ Stored 4 y ∧
      y.bufferSize = value.bufferSize ∧ y.magnitude 4 ≤ value.magnitude 4 + terms.length * (2 * (2 ^ 32) ^ n) ∧
      y.toInt 4 = value.toInt 4 + ∑ i ∈ Finset.range (2 * n), termsWeight terms i * (dataWords octets).getD i 0
  | [], value, _, hv, _, _ => ⟨value, rfl, hv, rfl, Nat.le_add_right _ _, by simp [termsWeight]⟩
  | t :: terms, value, hwithin, hv, hroom, hbound => by
    rw [List.length_cons, Nat.add_mul, Nat.one_mul] at hbound
    obtain ⟨z, happly, hstored, hbuffer, hint, hmag⟩ := applyTerm_spec hn hlength hoctets hsize htemp
      (hwithin t List.mem_cons_self) hv hroom (by omega)
    obtain ⟨y, hfold, hstored', hbuffer', hmag', hint'⟩ := applyTerms_spec hn hlength hoctets hsize htemp
      (fun u hu => hwithin u (List.mem_cons_of_mem _ hu)) hstored (hbuffer ▸ hroom) (by rw [hbuffer]; omega)
    refine ⟨y, ?_, hstored', hbuffer'.trans hbuffer, ?_, ?_⟩
    · rw [List.foldlM_cons, happly]
      exact hfold
    · rw [List.length_cons, Nat.add_mul, Nat.one_mul]
      omega
    · rw [hint', hint, Int.add_assoc, ← Finset.sum_add_distrib]
      congr 1
      refine Finset.sum_congr rfl fun i _ => ?_
      unfold termsWeight
      rw [List.map_cons, List.sum_cons]
      ring

/-! ### The correction -/

/-- The loop leaves the remainder of the magnitude, with the sign if anything is left. --/
theorem correctLoop_spec (hfp : Stored 4 fp) (hpos : 0 < fp.magnitude 4) : ∀ {fuel : Nat} {value : SignedNumber},
    Stored 4 value → value.magnitude 4 < fuel * fp.magnitude 4 →
    ∃ y, correctLoop fp fuel value = some y ∧ Stored 4 y ∧ y.bufferSize = value.bufferSize ∧
      y.magnitude 4 = value.magnitude 4 % fp.magnitude 4 ∧ (0 < y.magnitude 4 → y.isNegative = value.isNegative)
  | 0, _, _, hfuel => by rw [Nat.zero_mul] at hfuel; exact absurd hfuel (Nat.not_lt_zero _)
  | fuel + 1, value, hv, hfuel => by
    rw [correctLoop, compare_magnitude (by decide) hv hfp]
    by_cases hlt : value.magnitude 4 < fp.magnitude 4
    · rw [if_pos (Nat.compare_eq_lt.mpr hlt)]
      exact ⟨value, rfl, hv, rfl, (Nat.mod_eq_of_lt hlt).symm, fun _ => rfl⟩
    · have hle := Nat.le_of_not_lt hlt
      rw [if_neg (fun h => hlt (Nat.compare_eq_lt.mp h))]
      obtain ⟨hnormal, hvalue, hbuffer, hsign⟩ := hv.subtractUnsigned (by decide) hfp hv.whole hv.fits hle
      rw [Nat.add_mul, Nat.one_mul] at hfuel
      obtain ⟨y, hloop, hstored, hbuffer', hmod, hsign'⟩ := @correctLoop_spec hfp hpos fuel _ hnormal.stored
        (by omega)
      have hmod' : value.magnitude 4 % fp.magnitude 4 = y.magnitude 4 := by
        rw [hmod, ← hvalue, Nat.add_mod_right]
      refine ⟨y, hloop, hstored, hbuffer'.trans hbuffer, hmod'.symm, fun h => (hsign' h).trans (hsign ?_)⟩
      rw [hmod] at h
      have hmore : 0 < (subtractUnsigned 4 value fp value).magnitude 4 := by
        refine Nat.pos_of_ne_zero fun hzero => ?_
        rw [hzero, Nat.zero_mod] at h
        exact absurd h (Nat.lt_irrefl 0)
      omega

theorem isZero_iff : isZero x = true ↔ x.magnitude 4 = 0 := by
  unfold isZero SignedNumber.magnitude
  rw [← dropZeros_eq_nil_iff (two_le_digitRadix (by decide)), List.all_eq_true]
  constructor
  · intro h
    unfold dropZeros
    rw [List.rdropWhile_eq_nil_iff]
    exact h
  · intro h
    unfold dropZeros at h
    rw [List.rdropWhile_eq_nil_iff] at h
    exact h

/-- A number whose magnitude is left by the loop becomes the representative of what it was. --/
theorem correct_spec (hfp : Stored 4 fp) (hpos : 0 < fp.magnitude 4) (hv : Stored 4 value)
    (hfuel : value.magnitude 4 < fuel * fp.magnitude 4) (hroom : fp.data.length * 4 ≤ value.bufferSize) :
    ∃ r, (correctLoop fp fuel value).map (correctSign fp) = some r ∧ Representative 4 fp (value.toInt 4) r := by
  obtain ⟨y, hloop, hstored, hbuffer, hmod, hsign⟩ := correctLoop_spec hfp hpos hv hfuel
  have hbelow : y.magnitude 4 < fp.magnitude 4 := hmod ▸ Nat.mod_lt _ hpos
  have hdiv := Nat.div_add_mod (value.magnitude 4) (fp.magnitude 4)
  rw [← hmod] at hdiv
  have hdiv' := congrArg (Nat.cast (R := Int)) hdiv
  push_cast at hdiv'
  refine ⟨correctSign fp y, by rw [hloop]; rfl, ?_⟩
  unfold correctSign
  by_cases hzero : y.magnitude 4 = 0
  · rw [if_pos (isZero_iff.mpr hzero)]
    have hzero' : ({ y with isNegative := false } : SignedNumber).magnitude 4 = 0 := hzero
    have hout : Operand 4 fp { y with isNegative := false } :=
      ⟨⟨hstored.digits, hstored.ne_nil, (fun h => by cases h), hstored.whole, hstored.fits⟩, rfl, hbelow⟩
    rw [hzero] at hdiv'
    rw [toInt_magnitude]
    split
    · exact hout.representative (value.magnitude 4 / fp.magnitude 4 : Nat) (by rw [hzero']; push_cast; linarith)
    · exact hout.representative (-(value.magnitude 4 / fp.magnitude 4 : Nat)) (by rw [hzero']; push_cast; linarith)
  · rw [if_neg (fun h => hzero (isZero_iff.mp h)), toInt_magnitude, ← hsign (Nat.pos_of_ne_zero hzero)]
    by_cases hneg : y.isNegative = true
    · rw [if_pos hneg, if_pos hneg]
      obtain ⟨hnormal, hvalue, -, -⟩ := hfp.subtractUnsigned (by decide) hstored hstored.whole
        (hbuffer ▸ hroom) hbelow.le
      have hout : Operand 4 fp { subtractUnsigned 4 fp y y with isNegative := false } :=
        ⟨⟨hnormal.stored.digits, hnormal.stored.ne_nil, (fun h => by cases h), hnormal.whole, hnormal.fits⟩, rfl,
          show (subtractUnsigned 4 fp y y).magnitude 4 < _ by omega⟩
      refine hout.representative (1 + (value.magnitude 4 / fp.magnitude 4 : Nat)) ?_
      have hvalue' := congrArg (Nat.cast (R := Int)) hvalue
      push_cast at hvalue' ⊢
      have hsame : ({ subtractUnsigned 4 fp y y with isNegative := false } : SignedNumber).magnitude 4 =
        (subtractUnsigned 4 fp y y).magnitude 4 := rfl
      rw [hsame]
      linarith
    · rw [if_neg hneg, if_neg hneg]
      have hout : Operand 4 fp y := ⟨hstored, by simpa using hneg, hbelow⟩
      exact hout.representative (-(value.magnitude 4 / fp.magnitude 4 : Nat)) (by push_cast; linarith)

/-! ### The reductions -/

/-- A value that the prime divides up, or that is below it, needs nothing else; the others are combined. --/
theorem reduceWith_spec (hfp : Stored 4 fp) (hsign : fp.isNegative = false) (hpos : 0 < fp.magnitude 4)
    (hv : Stored 4 value) (hvsign : value.isNegative = false) {combine : Except HugeError SignedNumber}
    (hcombine : ∃ y, combine = .ok y ∧ Stored 4 y ∧ y.magnitude 4 < fuel * fp.magnitude 4 ∧
      fp.data.length * 4 ≤ y.bufferSize ∧ y.toInt 4 % fp.magnitude 4 = value.magnitude 4 % fp.magnitude 4) :
    ∃ r, reduceWith fp value fuel combine = some r ∧ Representative 4 fp (value.magnitude 4) r := by
  unfold reduceWith compareSigned
  rw [hvsign, hsign, if_neg (fun h => h rfl), if_neg Bool.false_ne_true, compare_magnitude (by decide) hv hfp]
  rcases Nat.lt_trichotomy (value.magnitude 4) (fp.magnitude 4) with h | h | h
  · rw [Nat.compare_eq_lt.mpr h]
    exact ⟨value, rfl, Operand.representative ⟨hv, hvsign, h⟩ 0 (by ring)⟩
  · rw [Nat.compare_eq_eq.mpr h]
    have hzero : (value.setDigit 0).magnitude 4 = 0 := by simp [SignedNumber.magnitude, SignedNumber.setDigit]
    refine ⟨_, rfl, Operand.representative ⟨⟨?_, List.cons_ne_nil _ _, (fun h => by cases h), hv.whole, ?_⟩, rfl,
      ?_⟩ (-1) ?_⟩
    · intro d hd
      obtain rfl : d = 0 := by simpa [SignedNumber.setDigit] using hd
      exact Nat.pow_pos (by decide)
    · exact (Nat.mul_le_mul_right _ (List.length_pos_of_ne_nil hv.ne_nil)).trans hv.fits
    · rw [hzero]
      exact hpos
    · rw [hzero, h]
      push_cast
      ring
  · rw [Nat.compare_eq_gt.mpr h]
    obtain ⟨y, rfl, hstored, hfuel, hroom, hmod⟩ := hcombine
    obtain ⟨r, hr, hrep⟩ := correct_spec hfp hpos hstored hfuel hroom
    exact ⟨r, hr, hrep.operand, hrep.value.trans hmod, hrep.product⟩

/-- The octets of a value that is not too long. --/
theorem paddedOctets_spec (hv : Normal 4 value) (hlt : value.magnitude 4 < 256 ^ m) (hm : 4 ∣ m) (hpos : 0 < m) :
    ∃ octets, paddedOctets value m = .ok octets ∧ octets.length = m ∧ (∀ d ∈ octets, d < 256) ∧
      ofDigits 256 octets.reverse = value.magnitude 4 := by
  obtain ⟨k, rfl⟩ := hm
  have hshort : value.data.length ≤ k := by
    refine hv.proper.length_le (by decide) (by omega) ?_
    rw [digitRadix_eq, ← Nat.pow_mul]
    exact hlt
  obtain ⟨octets, hextract, hlength, hoctets, hvalue⟩ := @extract_spec _ _ (4 * k) hv (by omega)
  refine ⟨List.replicate (4 * k - octets.length) 0 ++ octets, by rw [paddedOctets, hextract]; rfl, ?_, ?_, ?_⟩
  · rw [List.length_append, List.length_replicate]
    omega
  · intro d hd
    rcases List.mem_append.mp hd with hd | hd
    · rw [List.eq_of_mem_replicate hd]
      decide
    · exact hoctets d hd
  · rw [List.reverse_append, List.reverse_replicate, ofDigits_append_replicate_zero, hvalue, natAbs_magnitude]

/-- Octets that are set up in a buffer that is long enough. --/
theorem setup_magnitude_spec {number : SignedNumber} (hoctets : ∀ d ∈ octets, d < 256) (hwhole : 4 ∣ number.bufferSize)
    (hlt : ofDigits 256 octets.reverse < (2 ^ 32) ^ n) (hn : 0 < n) (hroom : n * 4 ≤ number.bufferSize) :
    ∃ y, setup 4 number octets = .ok y ∧ Normal 4 y ∧ y.isNegative = false ∧ y.bufferSize = number.bufferSize ∧
      y.magnitude 4 = ofDigits 256 octets.reverse := by
  have hquot : n ≤ number.bufferSize / 4 := (Nat.le_div_iff_mul_le (by decide)).mpr hroom
  obtain ⟨y, hsetup, hnormal, hvalue⟩ := @setup_spec 4 (by decide) number _ hoctets hwhole (by omega)
    (hlt.trans_le (Nat.pow_le_pow_right (by decide) hquot))
  have hmagnitude : y.magnitude 4 = ofDigits 256 octets.reverse := by
    rw [← natAbs_magnitude, hvalue]
    rfl
  refine ⟨y, hsetup, hnormal, ?_, ?_, hmagnitude⟩
  · by_contra hneg
    have hneg' : y.isNegative = true := by simpa using hneg
    have hpos := hnormal.stored.sign hneg'
    rw [toInt_magnitude, hneg', if_pos rfl] at hvalue
    omega
  · unfold setup at hsetup
    dsimp only at hsetup
    split at hsetup
    · split at hsetup
      · cases hsetup
      · obtain rfl := Except.ok.inj hsetup
        rfl
    · split at hsetup
      · cases hsetup
      · obtain rfl := Except.ok.inj hsetup
        rfl

/-- Where the words count modulo the prime as they do in the value, the reduction is right. --/
theorem wordReduce_spec (hfp : Stored 4 fp) (hsign : fp.isNegative = false) (hn : 0 < n) (hlen : fp.data.length = n)
    (hhigh : (2 ^ 32) ^ n ≤ 2 * fp.magnitude 4) (hsize : 4 ∣ size) (htemp : (n + 1) * 4 ≤ size)
    (hwithin : ∀ t ∈ terms, t.Within n) (hcount : terms.length ≤ 9) (hcongruent : Congruent (fp.magnitude 4) n terms)
    (hv : Normal 4 value) (hvsign : value.isNegative = false) (hle : value.magnitude 4 ≤ (fp.magnitude 4 - 1) ^ 2)
    (hroom : 8 * n ≤ value.bufferSize) (hfuel : 64 ≤ fuel) :
    ∃ r, wordReduce fp size n terms fuel value = some r ∧ Representative 4 fp (value.magnitude 4) r := by
  have hpow : 1 ≤ (2 ^ 32) ^ n := Nat.pow_pos (by decide)
  have hpos : 0 < fp.magnitude 4 := by omega
  refine reduceWith_spec hfp hsign hpos hv.stored hvsign ?_
  have hfplt : fp.magnitude 4 < (2 ^ 32) ^ n := hlen ▸ value_lt (b := 2 ^ 32) (by decide) hfp.digits
  have hvalue : value.magnitude 4 < 256 ^ (8 * n) := by
    calc value.magnitude 4 ≤ (fp.magnitude 4 - 1) ^ 2 := hle
      _ < ((2 ^ 32) ^ n) ^ 2 := Nat.pow_lt_pow_left (by omega) (by decide)
      _ = 256 ^ (8 * n) := by
        rw [← Nat.pow_mul, ← Nat.pow_mul, show (256 : Nat) = 2 ^ 8 from rfl, ← Nat.pow_mul]
        congr 1
        ring
  obtain ⟨octets, hpadded, hlength, hoctets, hmagnitude⟩ := paddedOctets_spec hv hvalue ⟨2 * n, by ring⟩ (by omega)
  obtain ⟨hwords, hdata, hall, hlow, -⟩ := dataWords_spec hlength hoctets
  have hlowlt : ofDigits 256 (octets.drop (4 * n)).reverse < (2 ^ 32) ^ n := by
    have h := value_lt (b := 256) (x := (octets.drop (4 * n)).reverse) (by decide) fun d hd =>
      hoctets d (List.mem_of_mem_drop (List.mem_reverse.mp hd))
    rw [List.length_reverse, List.length_drop, hlength, show 8 * n - 4 * n = 4 * n by omega, Nat.pow_mul] at h
    exact h
  obtain ⟨low, hsetup, hnormal, hlowsign, hbuffer, hlowvalue⟩ := setup_magnitude_spec
    (fun d hd => hoctets d (List.mem_of_mem_drop hd)) hv.whole hlowlt hn (by omega)
  have hquot : n + 1 ≤ value.bufferSize / 4 := (Nat.le_div_iff_mul_le (by decide)).mpr (by omega)
  have hcapacity : (2 ^ 32) ^ n * 2 ^ 32 ≤ (2 ^ 32) ^ (value.bufferSize / 4) := by
    rw [← Nat.pow_succ]
    exact Nat.pow_le_pow_right (by decide) hquot
  have hterms : terms.length * (2 * (2 ^ 32) ^ n) ≤ 9 * (2 * (2 ^ 32) ^ n) := Nat.mul_le_mul_right _ hcount
  obtain ⟨y, hfold, hstored, hbuffer', hbound, hint⟩ := applyTerms_spec hn hlength hoctets hsize htemp hwithin
    hnormal.stored (hbuffer.symm ▸ hroom) (by rw [hbuffer]; omega)
  have hmore : 64 * fp.magnitude 4 ≤ fuel * fp.magnitude 4 := Nat.mul_le_mul_right _ hfuel
  refine ⟨y, ?_, hstored, by omega, by omega, ?_⟩
  · rw [hpadded]
    show (setup 4 value (octets.drop (4 * n)) >>= _) = _
    rw [hsetup]
    exact hfold
  · -- the value and its lower half, as sums over the words
    have hvalueSum : (value.magnitude 4 : Int) = ∑ i ∈ Finset.range (2 * n),
        (wordsWeight ((List.range (2 * n)).map some) i : Int) * (dataWords octets).getD i 0 := by
      have h := @value_dataSetup (dataWords octets) (2 * n) ((List.range (2 * n)).map some) (by simp)
      rw [List.range_eq_range', dataSetup_range' (by omega), List.drop_zero, List.take_of_length_le (by omega), hall,
        hmagnitude] at h
      rw [h, List.range_eq_range', Nat.cast_sum]
      exact Finset.sum_congr rfl fun i _ => by push_cast; rfl
    have hlowSum : (low.toInt 4 : Int) = ∑ i ∈ Finset.range (2 * n),
        (wordsWeight ((List.range' n n).map some) i : Int) * (dataWords octets).getD i 0 := by
      have h := @value_dataSetup (dataWords octets) (2 * n) ((List.range' n n).map some)
        fun w hw => by
          obtain ⟨i, hi, rfl⟩ := List.mem_map.mp hw
          rw [List.mem_range'_1] at hi
          exact decide_eq_true (by omega)
      rw [dataSetup_range' (by omega), List.take_of_length_le (by rw [List.length_drop]; omega), hlow] at h
      rw [toInt_of_not_negative hlowsign, hlowvalue, h, Nat.cast_sum]
      exact Finset.sum_congr rfl fun i _ => by push_cast; rfl
    rw [hint, hlowSum, hvalueSum, ← Finset.sum_add_distrib]
    refine Int.ModEq.symm (Int.modEq_iff_dvd.mpr ?_)
    rw [← Finset.sum_sub_distrib]
    refine Finset.dvd_sum fun i hi => ?_
    have h := Int.ModEq.dvd (hcongruent i (Finset.mem_range.mp hi)).symm
    have heq := Dvd.dvd.mul_right h ((dataWords octets).getD i 0 : Int)
    refine heq.trans (dvd_of_eq ?_)
    ring

/-- The upper bits moved down, plus the lower ones: the prime is one less than a power of two. --/
theorem secp521r1Reduce_spec (hv : Normal 4 value) (hvsign : value.isNegative = false)
    (hle : value.magnitude 4 ≤ (secp521r1P.magnitude 4 - 1) ^ 2) (hroom : 136 ≤ value.bufferSize) (hfuel : 64 ≤ fuel) :
    ∃ r, secp521r1Reduce fuel value = some r ∧ Representative 4 secp521r1P (value.magnitude 4) r := by
  have hp : secp521r1P.magnitude 4 = 2 ^ 521 - 1 := by decide +kernel
  have hfp : Stored 4 secp521r1P :=
    ⟨by decide +kernel, by decide, (fun h => by cases h), ⟨17, rfl⟩, by decide⟩
  -- the power of two that everything here is a multiple of
  obtain ⟨k, hk⟩ : ∃ k, k = 2 ^ 520 := ⟨_, rfl⟩
  have hoctetPower : 256 ^ 65 = k := by rw [hk]; decide +kernel
  have hprime : secp521r1P.magnitude 4 = 2 * k - 1 := by rw [hp, hk]; decide +kernel
  have hone : 1 ≤ k := by rw [hk]; decide +kernel
  have hroomPower : 8 * k ≤ (2 ^ 32) ^ 17 := by rw [hk]; decide +kernel
  have hsquare : k * (4 * k) ≤ 256 ^ 132 := by rw [hk]; decide +kernel
  clear hk hp
  refine reduceWith_spec hfp rfl (by omega) hv.stored hvsign ?_
  have hvalue : value.magnitude 4 < k * (4 * k) := by
    rw [hprime] at hle
    obtain ⟨c, hc⟩ : ∃ c, k = c + 1 := ⟨k - 1, by omega⟩
    rw [hc] at hle ⊢
    rw [show 2 * (c + 1) - 1 - 1 = 2 * c by omega] at hle
    have hexpand : (c + 1) * (4 * (c + 1)) = (2 * c) ^ 2 + 8 * c + 4 := by ring
    omega
  obtain ⟨octets, hpadded, hlength, hoctets, hmagnitude⟩ := paddedOctets_spec (m := 132) hv
    (hvalue.trans_le hsquare) ⟨33, rfl⟩ (by decide)
  have htail : ∀ d ∈ octets.drop 67, d < 256 := fun d hd => hoctets d (List.mem_of_mem_drop hd)
  -- the octets above, the one with the lowest of the upper bits, and the octets below
  have hsplit : octets = octets.take 66 ++ octets.getD 66 0 :: octets.drop 67 := by
    have hget : octets.getD 66 0 = octets[66] := by
      rw [List.getD_eq_getElem?_getD, List.getElem?_eq_getElem (by omega)]
      rfl
    rw [hget, ← List.drop_eq_getElem_cons (by omega), List.take_append_drop]
  have hmiddle : octets.getD 66 0 < 256 := by
    rw [List.getD_eq_getElem?_getD, List.getElem?_eq_getElem (by omega)]
    exact hoctets _ (List.getElem_mem _)
  have hlower := value_lt (b := 256) (x := (octets.drop 67).reverse) (by decide) fun d hd =>
    htail d (List.mem_reverse.mp hd)
  have hdrop : (octets.drop 67).length = 65 := by rw [List.length_drop]; omega
  rw [List.length_reverse, hdrop, hoctetPower] at hlower
  have htake : octets.take 67 = octets.take 66 ++ [octets.getD 66 0] := by
    have hfirst : (octets.take 66).length = 66 := by rw [List.length_take]; omega
    conv_lhs => rw [hsplit]
    rw [List.take_append, hfirst, List.take_of_length_le (by omega)]
    rfl
  have hupperValue : ofDigits 256 (octets.take 67).reverse =
      octets.getD 66 0 + 256 * ofDigits 256 (octets.take 66).reverse := by
    rw [htake, List.reverse_append, List.reverse_singleton, List.singleton_append, ofDigits_cons]
  have hwhole : value.magnitude 4 = ofDigits 256 (octets.drop 67).reverse +
      k * ofDigits 256 (octets.take 67).reverse := by
    rw [← hmagnitude, hupperValue, ← hoctetPower]
    conv_lhs => rw [hsplit]
    rw [List.reverse_append, List.reverse_cons, ofDigits_append, ofDigits_append, ofDigits_singleton,
      List.length_append,
      List.length_reverse, hdrop, List.length_singleton]
    ring
  have hmasked : octets.getD 66 0 &&& 1 = octets.getD 66 0 % 2 := Nat.and_one_is_mod _
  have hbit : octets.getD 66 0 &&& 1 < 2 := by rw [hmasked]; exact Nat.mod_lt _ (by decide)
  have hlowerValue : ofDigits 256 ((octets.getD 66 0 &&& 1) :: octets.drop 67).reverse =
      ofDigits 256 (octets.drop 67).reverse + k * (octets.getD 66 0 &&& 1) := by
    rw [List.reverse_cons, ofDigits_append, ofDigits_singleton, List.length_reverse, hdrop, hoctetPower]
  have hodd : ofDigits 256 (octets.take 67).reverse % 2 = octets.getD 66 0 &&& 1 := by
    rw [hupperValue, hmasked]
    omega
  generalize hlow : ofDigits 256 (octets.drop 67).reverse = low at *
  generalize hup : ofDigits 256 (octets.take 67).reverse = upper at *
  generalize hmid : octets.getD 66 0 &&& 1 = bit at *
  have hupperlt : upper < 4 * k := by
    refine Nat.lt_of_mul_lt_mul_left (a := k) ?_
    omega
  have hbitlt : k * bit ≤ k := by
    obtain rfl | rfl : bit = 0 ∨ bit = 1 := by omega
    · rw [Nat.mul_zero]
      exact Nat.zero_le _
    · rw [Nat.mul_one]
  obtain ⟨y, hsetup, hnormal, hysign, hybuffer, hyvalue⟩ := @setup_magnitude_spec _ 17 value
    (fun d hd => hoctets d (List.mem_of_mem_take hd)) hv.whole (by rw [hup]; omega)
    (by decide) (by omega)
  obtain ⟨hshifted, hshiftedValue⟩ := @shiftRight_spec 4 _ (by decide) 1 (by decide) hnormal
  obtain ⟨t, htsetup, htnormal, htsign, -, htvalue⟩ := @setup_magnitude_spec (bit :: octets.drop 67) 17 ⟨[], 68, false⟩
    (fun d hd => by
      rcases List.mem_cons.mp hd with rfl | hd
      · omega
      · exact htail d hd) ⟨17, rfl⟩ (by rw [hlowerValue]; omega) (by decide) (by decide)
  rw [hlowerValue] at htvalue
  rw [hup] at hyvalue
  have hshiftedBuffer : (shiftRight 4 y 1).bufferSize = value.bufferSize := hybuffer
  have hshiftedInt : (shiftRight 4 y 1).toInt 4 = ((upper / 2 : Nat) : Int) := by
    rw [hshiftedValue, toInt_of_not_negative hysign, hyvalue, Int.pow_succ, Int.pow_zero, Int.one_mul]
    rfl
  have hshiftedMagnitude : (shiftRight 4 y 1).magnitude 4 = upper / 2 := by
    rw [← natAbs_magnitude, hshiftedInt]
    rfl
  have hcapacity : (2 ^ 32) ^ 17 ≤ (2 ^ 32) ^ (value.bufferSize / 4) :=
    Nat.pow_le_pow_right (by decide) ((Nat.le_div_iff_mul_le (by decide)).mpr (by omega))
  have hsmall : upper / 2 + (low + k * bit) < 4 * k := by omega
  have htshort : t.data.length ≤ 17 := by
    refine htnormal.proper.length_le (by decide) (by decide) ?_
    exact (show t.magnitude 4 < (2 ^ 32) ^ 17 by rw [htvalue]; omega)
  obtain ⟨hstored, hbuffer, hint⟩ := hshifted.stored.add (by decide) htnormal.stored ⟨by omega, by
    rw [hshiftedMagnitude, htvalue, hshiftedBuffer]
    exact (show _ < (2 ^ 32) ^ 17 by omega).trans_le hcapacity⟩
  rw [hshiftedInt, toInt_of_not_negative htsign, htvalue] at hint
  refine ⟨_, ?_, hstored, ?_, ?_, ?_⟩
  · rw [hpadded]
    show (setup 4 value (octets.take 67) >>= _) = _
    rw [hsetup]
    show (setup 4 ⟨[], 68, false⟩ ((octets.getD 66 0 &&& 1) :: octets.drop 67) >>= _) = _
    rw [hmid, htsetup]
    rfl
  · have hfuel' : 64 * (2 * k - 1) ≤ fuel * (2 * k - 1) := Nat.mul_le_mul_right _ hfuel
    rw [hprime, ← natAbs_magnitude, hint]
    omega
  · rw [hbuffer, hshiftedBuffer]
    exact (show 17 * 4 ≤ _ by omega)
  · rw [hint, hprime, hwhole]
    refine (Int.modEq_iff_dvd.mpr ⟨((upper / 2 : Nat) : Int), ?_⟩)
    have hdiv := Nat.div_add_mod upper 2
    rw [hodd] at hdiv
    rw [Nat.cast_sub (by omega)]
    generalize upper / 2 = half at *
    subst hdiv
    push_cast
    ring

end

/-! ### The curves -/

inductive NistCurve
  | secp192r1
  | secp224r1
  | secp256r1
  | secp384r1
  | secp521r1
deriving DecidableEq, Repr

namespace NistCurve

/-- The prime of a curve. --/
def fp : NistCurve → SignedNumber
  | secp192r1 => secp192r1P
  | secp224r1 => secp224r1P
  | secp256r1 => secp256r1P
  | secp384r1 => secp384r1P
  | secp521r1 => secp521r1P

/-- `nx_crypto_ec_reduce` of a curve. --/
def reduce : NistCurve → Nat → SignedNumber → Option SignedNumber
  | secp192r1 => secp192r1Reduce
  | secp224r1 => secp224r1Reduce
  | secp256r1 => secp256r1Reduce
  | secp384r1 => secp384r1Reduce
  | secp521r1 => secp521r1Reduce

end NistCurve

theorem congruent_secp192r1 : Congruent (secp192r1P.magnitude 4) 6 secp192r1Terms := by decide +kernel

theorem congruent_secp224r1 : Congruent (secp224r1P.magnitude 4) 7 secp224r1Terms := by decide +kernel

theorem congruent_secp256r1 : Congruent (secp256r1P.magnitude 4) 8 secp256r1Terms := by decide +kernel

theorem congruent_secp384r1 : Congruent (secp384r1P.magnitude 4) 12 secp384r1Terms := by decide +kernel

/-- Every curve's reduction leaves the remainder below the prime, the one that the long division leaves. --/
theorem nist_reduce (curve : NistCurve) {value : SignedNumber} {fuel : Nat} (hfuel : 64 ≤ fuel) (hv : Normal 4 value)
    (hsign : value.isNegative = false) (hle : value.magnitude 4 ≤ (curve.fp.magnitude 4 - 1) ^ 2)
    (hroom : 2 * curve.fp.bufferSize ≤ value.bufferSize) :
    ∃ r, curve.reduce fuel value = some r ∧ r.isNegative = false ∧
      r.magnitude 4 = value.magnitude 4 % curve.fp.magnitude 4 ∧
      ∃ y, modulus 4 (value.magnitude 4) value curve.fp = some y ∧ y.isNegative = false ∧
        y.magnitude 4 = r.magnitude 4 := by
  have hdivide : ∀ fp : SignedNumber, Proper (digitRadix 4) fp.data → fp.isNegative = false → 0 < fp.magnitude 4 →
      ∃ y, modulus 4 (value.magnitude 4) value fp = some y ∧ y.isNegative = false ∧
        y.magnitude 4 = value.magnitude 4 % fp.magnitude 4 := by
    intro fp hproper hfpsign hpos
    obtain ⟨y, hmodulus, -, hysign, hyvalue⟩ := modulus_spec (by decide) hv.proper hproper hfpsign hpos
      (Nat.le_refl _)
    rw [hsign, if_neg Bool.false_ne_true] at hyvalue
    exact ⟨y, hmodulus, hysign, hyvalue⟩
  have hassemble : ∀ fp : SignedNumber, Proper (digitRadix 4) fp.data → fp.isNegative = false → 0 < fp.magnitude 4 →
      (∃ r, curve.reduce fuel value = some r ∧ Representative 4 fp (value.magnitude 4) r) →
      ∃ r, curve.reduce fuel value = some r ∧ r.isNegative = false ∧
        r.magnitude 4 = value.magnitude 4 % fp.magnitude 4 ∧
        ∃ y, modulus 4 (value.magnitude 4) value fp = some y ∧ y.isNegative = false ∧ y.magnitude 4 = r.magnitude 4 :=
          by
    rintro fp hproper hfpsign hpos ⟨r, hr, hrep⟩
    have hvalue : r.magnitude 4 = value.magnitude 4 % fp.magnitude 4 := by exact_mod_cast hrep.value
    obtain ⟨y, hmodulus, hysign, hyvalue⟩ := hdivide fp hproper hfpsign hpos
    exact ⟨r, hr, hrep.operand.sign, hvalue, y, hmodulus, hysign, hyvalue.trans hvalue.symm⟩
  cases curve with
  | secp192r1 =>
    refine hassemble secp192r1P ⟨by decide +kernel, by decide +kernel⟩ rfl (by decide +kernel) ?_
    exact wordReduce_spec ⟨by decide +kernel, by decide, (fun h => by cases h), ⟨6, rfl⟩, by decide⟩ rfl (by decide) rfl
      (by decide +kernel) ⟨9, rfl⟩ (by decide) (by decide) (by decide) congruent_secp192r1 hv hsign hle hroom hfuel
  | secp224r1 =>
    refine hassemble secp224r1P ⟨by decide +kernel, by decide +kernel⟩ rfl (by decide +kernel) ?_
    exact wordReduce_spec ⟨by decide +kernel, by decide, (fun h => by cases h), ⟨7, rfl⟩, by decide⟩ rfl (by decide) rfl
      (by decide +kernel) ⟨9, rfl⟩ (by decide) (by decide) (by decide) congruent_secp224r1 hv hsign hle hroom hfuel
  | secp256r1 =>
    refine hassemble secp256r1P ⟨by decide +kernel, by decide +kernel⟩ rfl (by decide +kernel) ?_
    exact wordReduce_spec ⟨by decide +kernel, by decide, (fun h => by cases h), ⟨8, rfl⟩, by decide⟩ rfl (by decide) rfl
      (by decide +kernel) ⟨9, rfl⟩ (by decide) (by decide) (by decide) congruent_secp256r1 hv hsign hle hroom hfuel
  | secp384r1 =>
    refine hassemble secp384r1P ⟨by decide +kernel, by decide +kernel⟩ rfl (by decide +kernel) ?_
    exact wordReduce_spec ⟨by decide +kernel, by decide, (fun h => by cases h),
      ⟨12, rfl⟩, by decide⟩ rfl (by decide) rfl
      (by decide +kernel) ⟨13, rfl⟩ (by decide) (by decide) (by decide) congruent_secp384r1 hv hsign hle hroom hfuel
  | secp521r1 =>
    refine hassemble secp521r1P ⟨by decide +kernel, by decide +kernel⟩ rfl (by decide +kernel) ?_
    exact secp521r1Reduce_spec hv hsign hle hroom hfuel

/-- The square of the largest number of the field of secp256r1. --/
def largestSquare : SignedNumber :=
  ⟨[0x00000004, 0x00000000, 0x00000000, 0xFFFFFFFC, 0xFFFFFFFF, 0xFFFFFFFF, 0xFFFFFFFC, 0x00000003,
    0xFFFFFFFC, 0x00000001, 0xFFFFFFFE, 0x00000001, 0x00000001, 0xFFFFFFFE, 0x00000002, 0xFFFFFFFE], 64, false⟩

theorem nist_reduce_largest :
    ∃ r, NistCurve.secp256r1.reduce 64 largestSquare = some r ∧ r.isNegative = false ∧
      r.magnitude 4 = largestSquare.magnitude 4 % NistCurve.secp256r1.fp.magnitude 4 ∧
      ∃ y, modulus 4 (largestSquare.magnitude 4) largestSquare NistCurve.secp256r1.fp = some y ∧ y.isNegative = false ∧
        y.magnitude 4 = r.magnitude 4 :=
  nist_reduce .secp256r1 (Nat.le_refl 64) ⟨⟨by decide +kernel, by decide +kernel⟩, (fun h => by cases h), ⟨16, rfl⟩,
    by decide⟩ rfl (by decide +kernel) (Nat.le_refl 64)

end Netxduo.Crypto.Field
