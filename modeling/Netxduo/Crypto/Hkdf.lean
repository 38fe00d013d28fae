import Netxduo.Crypto.Hmac

/-! HKDF: a key is extracted from a secret, and expanded to as many octets as are asked for. -/

namespace Netxduo.Crypto.Mac

open Hash

/-! ### The source -/

/-- `NX_CRYPTO_HKDF`; the salt, the secret and the info are arguments of the calls. --/
structure Hkdf where
  prk : List UInt8
  prkSize : Nat
  metadata : Hmac

/-- The size of `nx_crypto_hkdf_temp_T` --/
def tempTSize : Nat := 120

/-- `_nx_crypto_hkdf_extract` --/
def hkdfExtract (h : Method) (salt ikm : List UInt8) (hkdf : Hkdf) : Status × Hkdf :=
  if hkdf.prk.length < h.digestSize then (.invalidParameter, hkdf)
  else
    let output := hmac h salt ikm h.digestSize hkdf.metadata
    (.success, { prk := Hash.copyTo hkdf.prk 0 output.1, prkSize := h.digestSize, metadata := output.2 })

/-- The loop of `_nx_crypto_hkdf_expand`, from T(i - 1) on, with what it copies to the output. --/
def expandLoop (h : Method) (prk info : List UInt8) (desiredLength : Nat) : Nat → Nat → List UInt8 → Hmac →
    (Status × List UInt8) × Hmac
  | 0, _, _, m => ((.success, []), m)
  | rounds + 1, i, t, m =>
    if tempTSize < t.length + info.length + 1 then ((.sizeError, []), m)
    else
      let next := hmac h prk (t ++ info ++ [UInt8.ofNat i]) (min h.digestSize tempTSize) m
      let offset := (i - 1) * h.digestSize
      let outputLen := if desiredLength - offset < h.digestSize then desiredLength - offset else h.digestSize
      let outputLen := if desiredLength < h.digestSize then desiredLength else outputLen
      let rest := expandLoop h prk info desiredLength rounds (i + 1) next.1 next.2
      ((rest.1.1, next.1.take outputLen ++ rest.1.2), rest.2)

/-- `_nx_crypto_hkdf_expand`. Where the length is one of whole blocks, the last round copies nothing. --/
def hkdfExpand (h : Method) (info : List UInt8) (desiredLength : Nat) (hkdf : Hkdf) : (Status × List UInt8) × Hkdf :=
  let okm := expandLoop h (hkdf.prk.take hkdf.prkSize) info desiredLength (1 + desiredLength / h.digestSize) 1 []
    hkdf.metadata
  (okm.1, { hkdf with prkSize := h.digestSize, metadata := okm.2 })

/-- Requests of an info and a length, one after the other. --/
def expandAll (h : Method) : List (List UInt8 × Nat) → Hkdf → List (Status × List UInt8)
  | [], _ => []
  | (info, desiredLength) :: requests, hkdf =>
    let okm := hkdfExpand h info desiredLength hkdf
    okm.1 :: expandAll h requests okm.2

/-! ### The definition -/

/-- T(i) --/
def expandT (h : Method) (prk info : List UInt8) : Nat → List UInt8
  | 0 => []
  | i + 1 => hmacOf h prk (expandT h prk info i ++ info ++ [UInt8.ofNat (i + 1)])

/-- The blocks from T(i + 1) on. --/
def okmBlocks (h : Method) (prk info : List UInt8) (i blocks : Nat) : List UInt8 :=
  (List.range' i blocks).flatMap fun j => expandT h prk info (j + 1)

/-- Whether the info of a request and what is hashed with it fit: the first block has no block before it. --/
def Fits (h : Method) (info : List UInt8) (desiredLength : Nat) : Prop :=
  (if desiredLength < h.digestSize then 0 else h.digestSize) + info.length + 1 ≤ tempTSize

instance (h : Method) (info : List UInt8) (desiredLength : Nat) : Decidable (Fits h info desiredLength) :=
  inferInstanceAs (Decidable (_ ≤ _))

/-- What a request has for an answer. --/
def Answers (h : Method) (prk info : List UInt8) (desiredLength : Nat) (answer : Status × List UInt8) : Prop :=
  if Fits h info desiredLength then
    answer = (.success, (okmBlocks h prk info 0 (1 + desiredLength / h.digestSize)).take desiredLength)
  else answer.1 = .sizeError

/-! ### Expansion of a key -/

section
variable {h : Method} {m : Hmac} {hkdf : Hkdf} {prk info salt ikm : List UInt8} {desiredLength : Nat}

theorem okmBlocks_succ (i blocks : Nat) : okmBlocks h prk info i (blocks + 1) =
    expandT h prk info (i + 1) ++ okmBlocks h prk info (i + 1) blocks := by
  simp [okmBlocks, List.range'_succ]

theorem length_expandT_le (i : Nat) : (expandT h prk info i).length ≤ h.digestSize := by
  cases i with
  | zero => exact Nat.zero_le _
  | succ i => exact Nat.le_of_eq (length_hmacOf ..)

theorem length_expandT_succ (i : Nat) : (expandT h prk info (i + 1)).length = h.digestSize := length_hmacOf ..

theorem counted_of_le_blocks {n : Nat} (hn : n ≤ tempTSize) : Counted h n :=
  .inr (Nat.lt_of_le_of_lt hn (by decide))

/-- A round that fits computes the next block. --/
theorem next_block {i : Nat} (hbuffer : m.context.buffer.length = h.blockSize) (hprk : Counted h prk.length)
    (hsize : h.digestSize ≤ tempTSize) (hfit : (expandT h prk info i).length + info.length + 1 ≤ tempTSize) :
    let next := hmac h prk (expandT h prk info i ++ info ++ [UInt8.ofNat (i + 1)]) (min h.digestSize tempTSize) m
    next.1 = expandT h prk info (i + 1) ∧ next.2.context.buffer.length = h.blockSize := by
  intro next
  have hinput : Counted h (expandT h prk info i ++ info ++ [UInt8.ofNat (i + 1)]).length := by
    refine counted_of_le_blocks ?_
    rwa [List.length_append, List.length_append]
  obtain ⟨hblock, hbuffer'⟩ := hmac_eq hbuffer hprk hinput (min h.digestSize tempTSize)
  refine ⟨?_, hbuffer'⟩
  rw [show next.1 = _ from hblock, Nat.min_eq_left hsize]
  exact List.take_of_length_le (Nat.le_of_eq (length_hmacOf ..))

theorem outputLen_eq {i : Nat} (hi : i * h.digestSize ≤ desiredLength) :
    (if desiredLength < h.digestSize then desiredLength else
      if desiredLength - i * h.digestSize < h.digestSize then desiredLength - i * h.digestSize else h.digestSize) =
        min (desiredLength - i * h.digestSize) h.digestSize := by
  obtain rfl | hpos := Nat.eq_zero_or_pos i
  · rw [Nat.zero_mul, Nat.sub_zero]
    split <;> omega
  · have hle : h.digestSize ≤ i * h.digestSize := Nat.le_mul_of_pos_left _ hpos
    rw [if_neg (Nat.not_lt.mpr (hle.trans hi))]
    split <;> omega

/-- Rounds that all fit copy the blocks, as far as the length goes. --/
theorem expandLoop_eq (hprk : Counted h prk.length) (hsize : h.digestSize ≤ tempTSize) :
    ∀ {rounds i : Nat} {m : Hmac}, m.context.buffer.length = h.blockSize →
      (∀ j, i ≤ j → j < i + rounds → (expandT h prk info j).length + info.length + 1 ≤ tempTSize) →
      (∀ j, i ≤ j → j < i + rounds → j * h.digestSize ≤ desiredLength) →
      (expandLoop h prk info desiredLength rounds (i + 1) (expandT h prk info i) m).1 =
        (.success, (okmBlocks h prk info i rounds).take (desiredLength - i * h.digestSize)) ∧
      (expandLoop h prk info desiredLength rounds (i + 1) (expandT h prk info i) m).2.context.buffer.length =
        h.blockSize
  | 0, _, _, hbuffer, _, _ => ⟨by simp [expandLoop, okmBlocks], hbuffer⟩
  | rounds + 1, i, m, hbuffer, hfits, hbefore => by
    have hfit := hfits i (Nat.le_refl i) (by omega)
    obtain ⟨hblock, hbuffer'⟩ := next_block hbuffer hprk hsize hfit
    obtain ⟨hrest, hbuffer''⟩ := @expandLoop_eq hprk hsize rounds (i + 1) _ hbuffer'
      (fun j hj hlt => hfits j (by omega) (by omega)) (fun j hj hlt => hbefore j (by omega) (by omega))
    have htake : (expandT h prk info (i + 1)).take (min (desiredLength - i * h.digestSize) h.digestSize) =
        (expandT h prk info (i + 1)).take (desiredLength - i * h.digestSize) := by
      rw [List.take_eq_take_iff, length_expandT_succ]
      omega
    unfold expandLoop
    dsimp only
    rw [if_neg (Nat.not_lt.mpr hfit), Nat.add_sub_cancel, outputLen_eq (hbefore i (Nat.le_refl i) (by omega)), hblock]
    refine ⟨?_, hbuffer''⟩
    dsimp only
    rw [hrest, htake, okmBlocks_succ, List.take_append, length_expandT_succ, Nat.succ_mul, Nat.sub_sub]

/-- A round that does not fit ends the loop. --/
theorem expandLoop_refused {rounds i : Nat} {t : List UInt8} (hfit : tempTSize < t.length + info.length + 1) :
    expandLoop h prk info desiredLength (rounds + 1) i t m = ((.sizeError, []), m) := by
  unfold expandLoop
  rw [if_pos hfit]

/-- Where only the first block has room, the loop ends behind it. --/
theorem expandLoop_second {rounds : Nat} (hbuffer : m.context.buffer.length = h.blockSize)
    (hprk : Counted h prk.length) (hsize : h.digestSize ≤ tempTSize) (hfirst : info.length + 1 ≤ tempTSize)
    (hsecond : tempTSize < h.digestSize + info.length + 1) :
    (expandLoop h prk info desiredLength (rounds + 1 + 1) 1 [] m).1.1 = .sizeError ∧
      (expandLoop h prk info desiredLength (rounds + 1 + 1) 1 [] m).2.context.buffer.length = h.blockSize := by
  have hfit : (expandT h prk info 0).length + info.length + 1 ≤ tempTSize := by
    rwa [expandT, List.length_nil, Nat.zero_add]
  obtain ⟨hblock, hbuffer'⟩ := next_block hbuffer hprk hsize hfit
  change (expandLoop h prk info desiredLength (rounds + 1 + 1) (0 + 1) (expandT h prk info 0) m).1.1 = _ ∧
    (expandLoop h prk info desiredLength (rounds + 1 + 1) (0 + 1) (expandT h prk info 0) m).2.context.buffer.length = _
  unfold expandLoop
  dsimp only
  rw [if_neg (Nat.not_lt.mpr hfit), hblock, expandLoop_refused (by rwa [length_expandT_succ])]
  exact ⟨rfl, hbuffer'⟩

theorem expand_eq (hbuffer : hkdf.metadata.context.buffer.length = h.blockSize) (hpos : 0 < h.digestSize)
    (hsize : h.digestSize ≤ tempTSize) (hprk : hkdf.prk.take hkdf.prkSize = prk) (hcounted : Counted h prk.length) :
    Answers h prk info desiredLength (hkdfExpand h info desiredLength hkdf).1 ∧
      (hkdfExpand h info desiredLength hkdf).2.metadata.context.buffer.length = h.blockSize := by
  have hrounds (j : Nat) (hj : j < 0 + (1 + desiredLength / h.digestSize)) : j * h.digestSize ≤ desiredLength :=
    (Nat.mul_le_mul_right _ (by omega)).trans (Nat.div_mul_le_self desiredLength h.digestSize)
  unfold hkdfExpand Answers
  dsimp only
  rw [hprk]
  split
  · rename_i hfits
    have hloop := @expandLoop_eq h prk info desiredLength hcounted hsize (1 + desiredLength / h.digestSize) 0
      hkdf.metadata hbuffer ?_ fun j _ => hrounds j
    · rwa [Nat.zero_mul, Nat.sub_zero] at hloop
    intro j _ hj
    unfold Fits at hfits
    split at hfits
    · rename_i hshort
      rw [Nat.div_eq_of_lt hshort] at hj
      obtain rfl : j = 0 := by omega
      exact hfits
    · have hle := @length_expandT_le h prk info j
      omega
  · rename_i hfits
    unfold Fits at hfits
    by_cases hinfo : tempTSize < info.length + 1
    · rw [Nat.add_comm 1, expandLoop_refused (t := []) (by simpa using hinfo)]
      exact ⟨rfl, hbuffer⟩
    have hlong : ¬ desiredLength < h.digestSize := by
      intro hshort
      rw [if_pos hshort] at hfits
      omega
    rw [if_neg hlong] at hfits
    obtain ⟨n, hn⟩ : ∃ n, desiredLength / h.digestSize = n + 1 :=
      Nat.exists_eq_add_one_of_ne_zero (Nat.div_pos (Nat.not_lt.mp hlong) hpos).ne'
    rw [hn, Nat.add_comm 1]
    exact expandLoop_second hbuffer hcounted hsize (Nat.not_lt.mp hinfo) (Nat.not_le.mp hfits)

/-! ### One key for many requests -/

theorem expandAll_eq (hpos : 0 < h.digestSize) (hsize : h.digestSize ≤ tempTSize) (hcounted : Counted h prk.length)
    (hprk : hkdf.prk.take hkdf.prkSize = prk) (hprkSize : hkdf.prkSize = h.digestSize)
    (hbuffer : hkdf.metadata.context.buffer.length = h.blockSize) (requests : List (List UInt8 × Nat)) :
    List.Forall₂ (fun request answer => Answers h prk request.1 request.2 answer) requests
      (expandAll h requests hkdf) := by
  induction requests generalizing hkdf with
  | nil => exact .nil
  | cons request requests ih =>
    obtain ⟨hanswer, hbuffer'⟩ := @expand_eq h hkdf prk request.1 request.2 hbuffer hpos hsize hprk hcounted
    refine .cons hanswer (ih ?_ rfl hbuffer')
    rw [← hprk, hprkSize]
    rfl

end

end Netxduo.Crypto.Mac
