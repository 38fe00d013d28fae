import Mathlib.Data.List.Basic
import Mathlib.Data.List.GetD
import Mathlib.Tactic.Ring

/-! Base64, as the names and passwords of HTTP and SMTP are sent: what is encoded is decoded. -/

namespace Netxduo.Utility

/-! ### The source -/

/-- `_nx_utility_base64_array` --/
def base64Array : List UInt8 :=
  "ABCDEFGHIJKLMNOPQRSTUVWXYZabcdefghijklmnopqrstuvwxyz0123456789+/".toList.map fun c => UInt8.ofNat c.toNat

def base64Char (index : Nat) : UInt8 := base64Array.getD index 0

/-- The loop that computes the characters, behind its first ones: how many are left, the step, and the name from the
    octet of the step on. --/
def encodeLoop : Nat → Nat → List UInt8 → List UInt8
  | 0, _, _ => []
  | count + 1, step, name =>
    let byte := (name.headD 0).toNat
    let next := (name.tail.headD 0).toNat
    if step = 0 then base64Char (byte >>> 2) :: encodeLoop count (step + 1) name
    else if step = 1 then
      base64Char (if name.tail ≠ [] then (byte &&& 0x3) <<< 4 ||| next >>> 4 else (byte &&& 0x3) <<< 4) ::
        encodeLoop count (step + 1) name.tail
    else if step = 2 then
      base64Char (if name.tail ≠ [] then (byte &&& 0xf) <<< 2 ||| next >>> 6 else (byte &&& 0xf) <<< 2) ::
        encodeLoop count (step + 1) name.tail
    else base64Char (byte &&& 0x3f) :: encodeLoop count 0 name.tail

/-- `_nx_utility_base64_encode` into a buffer of a size, without the end of the string. There is none where the size
    does not do. --/
def base64Encode (name : List UInt8) (base64nameSize : Nat) : Option (List UInt8) :=
  if name.length = 0 ∨ base64nameSize = 0 then none
  else
    let nameSize := name.length * 8 % 2 ^ 32 / 6
    let rest := nameSize * 6 % 2 ^ 32 % 24
    let pad := if rest ≠ 0 then (24 - rest) / 6 - 1 else 0
    let nameSize := if rest ≠ 0 then nameSize + 1 else nameSize
    if base64nameSize ≤ nameSize + pad then none
    else some (encodeLoop nameSize 0 name ++ List.replicate pad 0x3d)

/-- The value of a character; one that is none of Base64 counts as zero. --/
def base64Value (c : UInt8) : Nat :=
  if 0x41 ≤ c ∧ c ≤ 0x5a then c.toNat - 0x41
  else if 0x61 ≤ c ∧ c ≤ 0x7a then c.toNat - 0x61 + 26
  else if 0x30 ≤ c ∧ c ≤ 0x39 then c.toNat - 0x30 + 52
  else if c = 0x2b ∨ c = 0x2d then 62
  else if c = 0x2f ∨ c = 0x5f then 63
  else 0

/-- The loop that computes the name. Behind the characters is the end of the string. --/
def decodeLoop : Nat → Nat → List UInt8 → List UInt8
  | 0, _, _ => []
  | count + 1, step, base64name =>
    let byte := base64name.headD 0
    if byte = 0 ∨ byte = 0x3d then []
    else
      let value1 := base64Value byte
      let value2 := base64Value (base64name.tail.headD 0)
      if step = 0 then
        UInt8.ofNat ((value1 &&& 0x3f) <<< 2 ||| value2 >>> 4 &&& 3) :: decodeLoop count (step + 1) base64name.tail
      else if step = 1 then
        UInt8.ofNat ((value1 &&& 0xf) <<< 4 ||| value2 >>> 2) :: decodeLoop count (step + 1) base64name.tail
      else UInt8.ofNat ((value1 &&& 3) <<< 6 ||| value2 &&& 0x3f) :: decodeLoop count 0 base64name.tail.tail

/-- `_nx_utility_base64_decode` into a buffer of a size. --/
def base64Decode (base64name : List UInt8) (nameSize : Nat) : Option (List UInt8) :=
  if base64name.length = 0 ∨ nameSize = 0 then none
  else
    let size := base64name.length * 6 % 2 ^ 32 / 8
    let size :=
      if size ≠ 0 ∧ base64name.getD (base64name.length - 1) 0 = 0x3d then
        if size - 1 ≠ 0 ∧ base64name.getD (base64name.length - 2) 0 = 0x3d then size - 1 - 1 else size - 1
      else size
    if nameSize ≤ size then none else some (decodeLoop size 0 base64name)

/-! ### Characters -/

theorem base64Value_char : ∀ index < 64, base64Value (base64Char index) = index ∧ base64Char index ≠ 0 ∧
    base64Char index ≠ 0x3d := by
  decide +kernel

/-- Bits that are put below others. --/
theorem shift_or {low k : Nat} (high : Nat) (hlow : low < 2 ^ k) : high <<< k ||| low = high * 2 ^ k + low := by
  rw [← Nat.shiftLeft_add_eq_or_of_lt hlow, Nat.shiftLeft_eq]

theorem and_three (x : Nat) : x &&& 3 = x % 4 := Nat.and_two_pow_sub_one_eq_mod x 2

theorem and_fifteen (x : Nat) : x &&& 0xf = x % 16 := Nat.and_two_pow_sub_one_eq_mod x 4

theorem and_sixtyThree (x : Nat) : x &&& 0x3f = x % 64 := Nat.and_two_pow_sub_one_eq_mod x 6

section steps
variable {m i j : Nat} {more : List UInt8}

/-- The three steps of the decoder on characters. --/
theorem decodeLoop_first (hi : i < 64) (hj : j < 64) : decodeLoop (m + 1) 0 (base64Char i :: base64Char j :: more) =
    UInt8.ofNat (i * 4 + j / 16) :: decodeLoop m 1 (base64Char j :: more) := by
  obtain ⟨hvalue, hzero, hpad⟩ := base64Value_char i hi
  have hlow : j / 16 % 4 < 2 ^ 2 := Nat.mod_lt _ (by decide)
  simp only [decodeLoop, List.headD_cons, List.tail_cons, hzero, hpad, or_self, if_false, if_true, hvalue,
    (base64Value_char j hj).1, and_three, and_sixtyThree, Nat.shiftRight_eq_div_pow, shift_or _ hlow]
  congr 2
  omega

theorem decodeLoop_second (hi : i < 64) (hj : j < 64) : decodeLoop (m + 1) 1 (base64Char i :: base64Char j :: more) =
    UInt8.ofNat (i % 16 * 16 + j / 4) :: decodeLoop m 2 (base64Char j :: more) := by
  obtain ⟨hvalue, hzero, hpad⟩ := base64Value_char i hi
  have hlow : j / 2 ^ 2 < 2 ^ 4 := by omega
  simp only [decodeLoop, List.headD_cons, List.tail_cons, hzero, hpad, or_self, if_false, if_true, hvalue,
    (base64Value_char j hj).1, and_fifteen, Nat.shiftRight_eq_div_pow, shift_or _ hlow]
  rfl

theorem decodeLoop_third (hi : i < 64) (hj : j < 64) : decodeLoop (m + 1) 2 (base64Char i :: base64Char j :: more) =
    UInt8.ofNat (i % 4 * 64 + j) :: decodeLoop m 0 more := by
  obtain ⟨hvalue, hzero, hpad⟩ := base64Value_char i hi
  have hlow : j < 2 ^ 6 := hj
  simp only [decodeLoop, List.headD_cons, List.tail_cons, hzero, hpad, or_self, if_false, hvalue,
    (base64Value_char j hj).1, and_three, and_sixtyThree, Nat.mod_eq_of_lt hj, shift_or _ hlow]
  rfl

end steps

/-! ### Groups of octets -/

/-- How many characters stand for octets, the padding apart. --/
def textLength (n : Nat) : Nat := 4 * (n / 3) + if n % 3 = 0 then 0 else n % 3 + 1

theorem textLength_group (n : Nat) : textLength (n + 3) = textLength n + 4 := by
  unfold textLength
  rw [Nat.add_mod_right, Nat.add_div_right n (by decide)]
  split <;> omega

section groups
variable {a b c : UInt8} {rest : List UInt8} {count : Nat}

/-- The characters of a group of octets, and of what may be left behind the groups. --/
theorem encodeLoop_one : encodeLoop 2 0 [a] = [base64Char (a.toNat / 4), base64Char (a.toNat % 4 * 16)] := by
  simp only [encodeLoop, and_three, Nat.shiftRight_eq_div_pow, Nat.shiftLeft_eq]
  rfl

theorem encodeLoop_two : encodeLoop 3 0 [a, b] = [base64Char (a.toNat / 4),
    base64Char (a.toNat % 4 * 16 + b.toNat / 16), base64Char (b.toNat % 16 * 4)] := by
  have hlow : b.toNat / 2 ^ 4 < 2 ^ 4 := by
    have := b.toNat_lt
    omega
  rw [show a.toNat % 4 * 16 + b.toNat / 16 = (a.toNat &&& 3) <<< 4 ||| b.toNat >>> 4 by
    rw [and_three, Nat.shiftRight_eq_div_pow, shift_or _ hlow]
    rfl]
  simp only [encodeLoop, and_fifteen, Nat.shiftRight_eq_div_pow, Nat.shiftLeft_eq]
  rfl

theorem encodeLoop_group : encodeLoop (count + 4) 0 (a :: b :: c :: rest) =
    base64Char (a.toNat / 4) :: base64Char (a.toNat % 4 * 16 + b.toNat / 16) ::
      base64Char (b.toNat % 16 * 4 + c.toNat / 64) :: base64Char (c.toNat % 64) :: encodeLoop count 0 rest := by
  have hb : b.toNat / 2 ^ 4 < 2 ^ 4 := by
    have := b.toNat_lt
    omega
  have hc : c.toNat / 2 ^ 6 < 2 ^ 2 := by
    have := c.toNat_lt
    omega
  rw [show a.toNat % 4 * 16 + b.toNat / 16 = (a.toNat &&& 3) <<< 4 ||| b.toNat >>> 4 by
      rw [and_three, Nat.shiftRight_eq_div_pow, shift_or _ hb]
      rfl,
    show b.toNat % 16 * 4 + c.toNat / 64 = (b.toNat &&& 0xf) <<< 2 ||| c.toNat >>> 6 by
      rw [and_fifteen, Nat.shiftRight_eq_div_pow, shift_or _ hc]
      rfl,
    ← and_sixtyThree, show a.toNat / 4 = a.toNat >>> 2 from (Nat.shiftRight_eq_div_pow _ 2).symm]
  rfl

end groups

/-- What is encoded is decoded, whatever stands behind it. --/
theorem decodeLoop_encodeLoop : ∀ (name more : List UInt8),
    decodeLoop name.length 0 (encodeLoop (textLength name.length) 0 name ++ more) = name
  | [], more => rfl
  | [a], more => by
    have ha := a.toNat_lt
    show decodeLoop 1 0 (encodeLoop 2 0 [a] ++ more) = [a]
    rw [encodeLoop_one, List.cons_append, List.cons_append, decodeLoop_first (by omega) (by omega),
      show a.toNat / 4 * 4 + a.toNat % 4 * 16 / 16 = a.toNat by omega, UInt8.ofNat_toNat]
    rfl
  | [a, b], more => by
    have ha := a.toNat_lt
    have hb := b.toNat_lt
    show decodeLoop 2 0 (encodeLoop 3 0 [a, b] ++ more) = [a, b]
    rw [encodeLoop_two, List.cons_append, List.cons_append, List.cons_append,
      decodeLoop_first (by omega) (by omega), decodeLoop_second (by omega) (by omega),
      show a.toNat / 4 * 4 + (a.toNat % 4 * 16 + b.toNat / 16) / 16 = a.toNat by omega,
      show (a.toNat % 4 * 16 + b.toNat / 16) % 16 * 16 + b.toNat % 16 * 4 / 4 = b.toNat by omega,
      UInt8.ofNat_toNat, UInt8.ofNat_toNat]
    rfl
  | a :: b :: c :: rest, more => by
    have ha := a.toNat_lt
    have hb := b.toNat_lt
    have hc := c.toNat_lt
    have ih := decodeLoop_encodeLoop rest more
    show decodeLoop (rest.length + 3) 0 (encodeLoop (textLength (rest.length + 3)) 0 (a :: b :: c :: rest) ++ more) = _
    rw [textLength_group, encodeLoop_group, List.cons_append, List.cons_append, List.cons_append, List.cons_append,
      decodeLoop_first (by omega) (by omega), decodeLoop_second (by omega) (by omega),
      decodeLoop_third (by omega) (by omega), ih,
      show a.toNat / 4 * 4 + (a.toNat % 4 * 16 + b.toNat / 16) / 16 = a.toNat by omega,
      show (a.toNat % 4 * 16 + b.toNat / 16) % 16 * 16 + (b.toNat % 16 * 4 + c.toNat / 64) / 4 = b.toNat by omega,
      show (b.toNat % 16 * 4 + c.toNat / 64) % 4 * 64 + c.toNat % 64 = c.toNat by omega,
      UInt8.ofNat_toNat, UInt8.ofNat_toNat, UInt8.ofNat_toNat]

/-! ### Names -/

def padding (n : Nat) : Nat := (3 - n % 3) % 3

theorem encodeLoop_length (count step : Nat) (name : List UInt8) : (encodeLoop count step name).length = count := by
  induction count generalizing step name with
  | zero => rfl
  | succ count ih =>
    unfold encodeLoop
    dsimp only
    split
    · rw [List.length_cons, ih]
    · split
      · rw [List.length_cons, ih]
      · split <;> rw [List.length_cons, ih]

/-- No character of the array is the padding. --/
theorem base64Char_ne (index : Nat) : base64Char index ≠ 0x3d := by
  rcases Nat.lt_or_ge index 64 with hless | hmore
  · exact (base64Value_char index hless).2.2
  · rw [base64Char, List.getD_eq_default _ _ hmore]
    decide

theorem encodeLoop_ne (count step : Nat) (name : List UInt8) : ∀ c ∈ encodeLoop count step name, c ≠ 0x3d := by
  induction count generalizing step name with
  | zero => exact fun c hc => absurd hc List.not_mem_nil
  | succ count ih =>
    intro c hc
    unfold encodeLoop at hc
    dsimp only at hc
    split at hc
    · rcases List.mem_cons.mp hc with rfl | hc
      · exact base64Char_ne _
      · exact ih _ _ c hc
    · split at hc
      · rcases List.mem_cons.mp hc with rfl | hc
        · exact base64Char_ne _
        · exact ih _ _ c hc
      · split at hc <;> rcases List.mem_cons.mp hc with rfl | hc
        · exact base64Char_ne _
        · exact ih _ _ c hc
        · exact base64Char_ne _
        · exact ih _ _ c hc

/-- Where the padding stands. --/
theorem getD_padded {chars : List UInt8} {pad j : Nat} (hchars : ∀ c ∈ chars, c ≠ 0x3d) (hj : j < chars.length + pad) :
    (chars ++ List.replicate pad 0x3d).getD j 0 = 0x3d ↔ chars.length ≤ j := by
  rcases Nat.lt_or_ge j chars.length with hless | hmore
  · rw [List.getD_append _ _ _ _ hless, List.getD_eq_getElem _ _ hless]
    exact ⟨fun h => absurd h (hchars _ (List.getElem_mem hless)), fun h => absurd hless (Nat.not_lt_of_le h)⟩
  · rw [List.getD_append_right _ _ _ _ hmore, List.getD_replicate _ (by omega)]
    exact ⟨fun _ => hmore, fun _ => rfl⟩

section names
variable {name text : List UInt8} {base64nameSize nameSize : Nat}

/-- The sizes that the encoder computes are those of the groups, where they do not wrap. --/
theorem base64Encode_eq (hne : name.length ≠ 0) (hlength : name.length ≤ 2 ^ 29 - 2) :
    base64Encode name base64nameSize =
      if base64nameSize ≤ textLength name.length + padding name.length then none
      else some (encodeLoop (textLength name.length) 0 name ++ List.replicate (padding name.length) 0x3d) := by
  have hbits : name.length * 8 % 2 ^ 32 = name.length * 8 := Nat.mod_eq_of_lt (by omega)
  have hchars : name.length * 8 / 6 * 6 % 2 ^ 32 = name.length * 8 / 6 * 6 := Nat.mod_eq_of_lt (by omega)
  have hgroups := Nat.div_add_mod name.length 3
  have hless := Nat.mod_lt name.length (by decide : 0 < 3)
  have hcases : name.length * 8 / 6 = 4 * (name.length / 3) + name.length % 3 := by omega
  unfold base64Encode
  by_cases hroom : base64nameSize = 0
  · rw [if_pos (Or.inr hroom), if_pos (by omega)]
  · rw [if_neg (not_or.mpr ⟨hne, hroom⟩)]
    dsimp only
    rw [hbits, hchars, hcases]
    unfold textLength padding
    generalize name.length / 3 = k at *
    generalize name.length % 3 = r at *
    have hrest : (4 * k + r) * 6 % 24 = 6 * r := by omega
    rw [hrest]
    rcases r with _ | _ | _ | r
    · rfl
    · rfl
    · rfl
    · omega

/-- The size that the decoder computes is that of the name. --/
theorem decodedSize (hne : name.length ≠ 0) (hlength : name.length ≤ 2 ^ 29 - 2) (hroom : name.length < nameSize) :
    base64Decode (encodeLoop (textLength name.length) 0 name ++ List.replicate (padding name.length) 0x3d) nameSize =
      some (decodeLoop name.length 0
        (encodeLoop (textLength name.length) 0 name ++ List.replicate (padding name.length) 0x3d)) := by
  have hchars := encodeLoop_ne (textLength name.length) 0 name
  have hcount := encodeLoop_length (textLength name.length) 0 name
  generalize encodeLoop (textLength name.length) 0 name = chars at hchars hcount ⊢
  have hsum : chars.length + padding name.length = 4 * ((name.length + 2) / 3) := by
    rw [hcount]
    unfold textLength padding
    split <;> omega
  have hpadding : 3 * ((name.length + 2) / 3) = name.length + padding name.length := by
    unfold padding
    omega
  have htext : (chars ++ List.replicate (padding name.length) 0x3d).length = 4 * ((name.length + 2) / 3) := by
    rw [List.length_append, List.length_replicate, hsum]
  have hlast := @getD_padded chars (padding name.length) (4 * ((name.length + 2) / 3) - 1) hchars (by omega)
  have hbefore := @getD_padded chars (padding name.length) (4 * ((name.length + 2) / 3) - 2) hchars (by omega)
  have hsize : 4 * ((name.length + 2) / 3) * 6 % 2 ^ 32 / 8 = 3 * ((name.length + 2) / 3) := by omega
  have hpad : padding name.length ≤ 2 := by
    unfold padding
    omega
  have hname : (if 3 * ((name.length + 2) / 3) ≠ 0 ∧
      (chars ++ List.replicate (padding name.length) 0x3d).getD (4 * ((name.length + 2) / 3) - 1) 0 = 0x3d then
        if 3 * ((name.length + 2) / 3) - 1 ≠ 0 ∧
          (chars ++ List.replicate (padding name.length) 0x3d).getD (4 * ((name.length + 2) / 3) - 2) 0 = 0x3d then
            3 * ((name.length + 2) / 3) - 1 - 1
        else 3 * ((name.length + 2) / 3) - 1
      else 3 * ((name.length + 2) / 3)) = name.length := by
    by_cases hone : chars.length ≤ 4 * ((name.length + 2) / 3) - 1
    · rw [if_pos ⟨by omega, hlast.mpr hone⟩]
      by_cases htwo : chars.length ≤ 4 * ((name.length + 2) / 3) - 2
      · rw [if_pos ⟨by omega, hbefore.mpr htwo⟩]
        omega
      · rw [if_neg fun h => htwo (hbefore.mp h.2)]
        omega
    · rw [if_neg fun h => hone (hlast.mp h.2)]
      omega
  unfold base64Decode
  rw [if_neg (by omega)]
  dsimp only
  rw [htext, hsize, hname, if_neg (Nat.not_le_of_lt hroom)]

/-- A name that is encoded is decoded again, where the buffers do and the name has less than 2^29 - 1 octets. --/
theorem base64_decoded (hlength : name.length ≤ 2 ^ 29 - 2) (hencode : base64Encode name base64nameSize = some text)
    (hroom : name.length < nameSize) : base64Decode text nameSize = some name := by
  by_cases hne : name.length = 0
  · rw [base64Encode, if_pos (Or.inl hne)] at hencode
    cases hencode
  · rw [base64Encode_eq hne hlength] at hencode
    split at hencode
    · cases hencode
    · obtain rfl := Option.some.inj hencode
      rw [decodedSize hne hlength hroom, decodeLoop_encodeLoop]

theorem base64_decoded_fourOctets : base64Decode [0x59, 0x54, 0x70, 0x69, 0x59, 0x77, 0x3d, 0x3d] 5 =
    some [0x61, 0x3a, 0x62, 0x63] :=
  base64_decoded (by decide) (by decide +kernel : base64Encode [0x61, 0x3a, 0x62, 0x63] 16 = some _) (by decide)

end names

end Netxduo.Utility
