import Mathlib
import Netxduo.Library.OnesComplement

/-! The checksum over a chain of buffers, read four octets at a time. -/

namespace Netxduo.Ip.ChecksumCompute

/-! ### The source -/

/-- A buffer of the chain, from its prepend pointer on, which is four-octet aligned. `size` is how far its append
    pointer is. --/
structure Buffer where
  memory : List UInt8
  size : Nat
deriving DecidableEq, Repr

/-- What a protocol with a pseudo header puts in front: the protocol, and the halves of both addresses. --/
structure PseudoHeader where
  protocol : UInt16
  addresses : List UInt16
  atMost : addresses.length ≤ 16

/-- Two octets read as a `USHORT` of the host. --/
def hostShort (little : Bool) (first second : UInt8) : Nat :=
  if little then first.toNat + 256 * second.toNat else 256 * first.toNat + second.toNat

def shortAt (little : Bool) (memory : List UInt8) (shortPtr : Nat) : Nat :=
  hostShort little (memory.getD shortPtr 0) (memory.getD (shortPtr + 1) 0)

/-- `NX_CHANGE_USHORT_ENDIAN` --/
def changeEndian (little : Bool) (value : Nat) : Nat := if little then value % 256 * 256 + value / 256 else value

/-- A 32-bit sum folded into 16 bits, and folded again for the carry. --/
def foldTwice (checksum : Nat) : Nat :=
  let checksum := checksum / 65536 + checksum % 65536
  checksum / 65536 + checksum % 65536

/-- The checksum before the payload. --/
def pseudoChecksum (little : Bool) (dataLength : Nat) : Option PseudoHeader → Nat
  | some p =>
    changeEndian little (foldTwice ((p.protocol.toNat + OnesComplement.total p.addresses + dataLength) % 2 ^ 32))
  | none => 0

/-- The loop over the long words of a buffer. Both halves of a word are added. --/
def addLongs (little : Bool) (memory : List UInt8) : Nat → Nat → Nat → Nat
  | 0, _, checksum => checksum
  | n + 1, longPtr, checksum =>
    let checksum := (checksum + shortAt little memory longPtr) % 2 ^ 32
    let checksum := (checksum + shortAt little memory (longPtr + 2)) % 2 ^ 32
    addLongs little memory n (longPtr + 4) checksum

/-- What is done once the chain is over: the octets that are no whole word, the odd one with a zero behind it. --/
def lastOctets (little : Bool) (memory : List UInt8) (longPtr dataLength checksum : Nat) : Nat :=
  if dataLength = 0 then checksum
  else if dataLength = 1 then (checksum + hostShort little (memory.getD longPtr 0) 0) % 2 ^ 32
  else if dataLength = 3 then
    let checksum := (checksum + shortAt little memory longPtr) % 2 ^ 32
    (checksum + hostShort little (memory.getD (longPtr + 2) 0) 0) % 2 ^ 32
  else (checksum + shortAt little memory longPtr) % 2 ^ 32

/-- The loop over the chain. The end of a buffer that is all data is rounded down to a word; in another one the words
    end with the last whole word of the data. --/
def walk (little : Bool) : List Buffer → Nat → Nat → Nat
  | [], _, checksum => checksum
  | current :: next, dataLength, checksum =>
    let longs := if dataLength > current.size then current.size / 4 else dataLength / 4
    let checksum := addLongs little current.memory longs 0 checksum
    let dataLength := dataLength - 4 * longs
    if dataLength > 0 ∧ next ≠ [] then
      if current.size % 4 = 2 then
        walk little next ((dataLength + 2 ^ 32 - 2) % 2 ^ 32)
          ((checksum + shortAt little current.memory (4 * longs)) % 2 ^ 32)
      else walk little next dataLength checksum
    else lastOctets little current.memory (4 * longs) dataLength checksum

/-- `_nx_ip_checksum_compute` --/
def ipChecksumCompute (little : Bool) (pseudo : Option PseudoHeader) (chain : List Buffer) (dataLength : Nat) : Nat :=
  changeEndian little (foldTwice (walk little chain dataLength (pseudoChecksum little dataLength pseudo)))

/-! ### The sum that is meant -/

/-- The octets of a chain. --/
def octets (chain : List Buffer) : List UInt8 := chain.flatMap fun b => b.memory.take b.size

/-- Octets as 16-bit words of the network, an odd one with a zero behind it. --/
def networkWords : List UInt8 → List UInt16
  | first :: second :: rest => UInt16.ofNat (256 * first.toNat + second.toNat) :: networkWords rest
  | [first] => [UInt16.ofNat (256 * first.toNat)]
  | [] => []

/-- The words of the pseudo header. The length is a 32-bit word. --/
def pseudoWords (dataLength : Nat) : Option PseudoHeader → List UInt16
  | some p => p.protocol :: UInt16.ofNat (dataLength / 65536) :: UInt16.ofNat (dataLength % 65536) :: p.addresses
  | none => []

/-- The ones' complement sum of the pseudo header and of so many octets. --/
def internetSum (pseudo : Option PseudoHeader) (data : List UInt8) : Nat :=
  OnesComplement.sum (pseudoWords data.length pseudo ++ networkWords data)

/-- Buffers hold what they say, and an even number of octets each. --/
def EvenChain (chain : List Buffer) : Prop := ∀ b ∈ chain, b.size % 2 = 0 ∧ b.size ≤ b.memory.length

/-- Where the data ends: in the last buffer, at a word of its buffer, or two octets behind one in a buffer that ends
    two octets behind one. --/
def EndsWell : List Nat → Nat → Prop
  | [], dataLength => dataLength = 0
  | [_], _ => True
  | size :: sizes, dataLength =>
    if dataLength > size then EndsWell sizes (dataLength - size)
    else dataLength % 4 = 0 ∨ dataLength % 4 = 2 ∧ size % 4 = 2

/-! ### What the loops add -/

/-- Octets added as the host reads them. --/
def hostSum (little : Bool) : List UInt8 → Nat
  | first :: second :: rest => hostShort little first second + hostSum little rest
  | [first] => hostShort little first 0
  | [] => 0

section
variable {little : Bool}

theorem hostSum_append : ∀ {x y : List UInt8}, x.length % 2 = 0 → hostSum little (x ++ y) = hostSum little x +
    hostSum little y
  | [], _, _ => by simp [hostSum]
  | [_], _, hx => by simp at hx
  | a :: b :: x, y, hx => by
    have hx' : x.length % 2 = 0 := by
      simp only [List.length_cons] at hx
      omega
    simp only [List.cons_append, hostSum, hostSum_append hx', Nat.add_assoc]

variable (little) in
theorem hostShort_le (first second : UInt8) : hostShort little first second ≤ 65535 := by
  have h1 := first.toNat_lt
  have h2 := second.toNat_lt
  unfold hostShort
  split <;> omega

variable (little) in
theorem hostSum_le : ∀ x : List UInt8, hostSum little x ≤ 65535 * ((x.length + 1) / 2)
  | [] => by simp [hostSum]
  | [a] => by simpa [hostSum] using hostShort_le little a 0
  | a :: b :: x => by
    have h1 := hostShort_le little a b
    have h2 := hostSum_le x
    simp only [hostSum, List.length_cons]
    omega

/-- Two octets of a list, and what comes behind them. --/
theorem drop_two {m : List UInt8} {o : Nat} (h : o + 2 ≤ m.length) :
    m.drop o = m.getD o 0 :: m.getD (o + 1) 0 :: m.drop (o + 2) := by
  rw [List.drop_eq_getElem_cons (by omega), List.drop_eq_getElem_cons (by omega), List.getD_eq_getElem _ _ (by omega),
    List.getD_eq_getElem _ _ (by omega)]

theorem hostSum_take_two {m : List UInt8} {o n : Nat} (h : o + 2 ≤ m.length) :
    hostSum little ((m.drop o).take (n + 2)) = shortAt little m o + hostSum little ((m.drop (o + 2)).take n) := by
  rw [drop_two h]
  simp only [List.take_succ_cons, hostSum]
  rfl

theorem addLongs_eq {m : List UInt8} : ∀ {n o c : Nat}, o + 4 * n ≤ m.length → c < 2 ^ 32 →
    addLongs little m n o c = (c + hostSum little ((m.drop o).take (4 * n))) % 2 ^ 32
  | 0, o, c, _, hc => by
    simp [addLongs, hostSum]
    omega
  | n + 1, o, c, ho, _ => by
    rw [addLongs, show o + 4 = o + 2 + 2 from rfl, addLongs_eq (by omega) (Nat.mod_lt _ (by decide)),
      show 4 * (n + 1) = 4 * n + 2 + 2 by omega,
      hostSum_take_two (by omega), hostSum_take_two (by omega)]
    omega

/-- A part of the data, cut at an even place. --/
theorem hostSum_take_add {m : List UInt8} {k n : Nat} (hk : k % 2 = 0) (hlen : k ≤ m.length) :
    hostSum little (m.take (k + n)) = hostSum little (m.take k) + hostSum little ((m.drop k).take n) := by
  rw [List.take_add, hostSum_append (by rw [List.length_take, Nat.min_eq_left hlen]; exact hk)]

theorem lastOctets_eq {m : List UInt8} {o n c : Nat} (hn : n < 4) (ho : o + n ≤ m.length) (hc : c < 2 ^ 32) :
    lastOctets little m o n c = (c + hostSum little ((m.drop o).take n)) % 2 ^ 32 := by
  unfold lastOctets
  obtain rfl | rfl | rfl | rfl : n = 0 ∨ n = 1 ∨ n = 2 ∨ n = 3 := by omega
  · simp [hostSum]
    omega
  · rw [if_neg (by decide), if_pos rfl, List.drop_eq_getElem_cons (by omega), List.getD_eq_getElem _ _ (by omega)]
    rfl
  · rw [if_neg (by decide), if_neg (by decide), if_neg (by decide), hostSum_take_two (n := 0) ho]
    simp [hostSum]
  · rw [if_neg (by decide), if_neg (by decide), if_pos rfl, hostSum_take_two (n := 1) (by omega)]
    rw [List.drop_eq_getElem_cons (by omega), List.getD_eq_getElem _ _ (by omega : o + 2 < m.length)]
    simp only [List.take_succ_cons, List.take_zero, hostSum]
    omega

theorem walk_zero : ∀ {chain : List Buffer} {c : Nat}, walk little chain 0 c = c
  | [], _ => rfl
  | b :: next, c => by
    rw [walk]
    simp [addLongs, lastOctets]

/-- The loop adds the data, up to 32 bits, where the data ends well. --/
theorem walk_eq : ∀ {chain : List Buffer} {n c : Nat}, EvenChain chain → EndsWell (chain.map (·.size)) n →
    n ≤ (octets chain).length → n < 2 ^ 32 → c < 2 ^ 32 →
    walk little chain n c = (c + hostSum little ((octets chain).take n)) % 2 ^ 32
  | [], n, c, _, hends, _, _, hc => by
    simp [walk, octets, hostSum]
    omega
  | b :: next, n, c, heven, hends, hn, hlt, hc => by
    obtain ⟨hsize, hmem⟩ := heven b List.mem_cons_self
    have hnext : EvenChain next := fun d hd => heven d (List.mem_cons_of_mem _ hd)
    have hoct : octets (b :: next) = b.memory.take b.size ++ octets next := rfl
    have hlen : (b.memory.take b.size).length = b.size := by rw [List.length_take, Nat.min_eq_left hmem]
    rw [hoct, List.length_append, hlen] at hn
    rw [walk]
    by_cases hmore : n > b.size
    · -- The whole of the buffer is data, and there is a next one.
      have hne : next ≠ [] := by
        rintro rfl
        simp [octets] at hn
        omega
      have hends' : EndsWell (next.map (·.size)) (n - b.size) := by
        cases next with
        | nil => exact absurd rfl hne
        | cons d rest =>
          simp only [List.map_cons, EndsWell] at hends
          rw [if_pos hmore] at hends
          exact hends
      have hsum : hostSum little ((octets (b :: next)).take n) =
          hostSum little (b.memory.take b.size) + hostSum little ((octets next).take (n - b.size)) := by
        rw [hoct, show n = b.size + (n - b.size) by omega, hostSum_take_add hsize (by rw [List.length_append]; omega),
          List.take_left' hlen, List.drop_left' hlen, Nat.add_sub_cancel_left]
      have hlongs : addLongs little b.memory (b.size / 4) 0 c =
          (c + hostSum little ((b.memory.drop 0).take (4 * (b.size / 4)))) % 2 ^ 32 := addLongs_eq (by omega) hc
      simp only [hmore, if_true, hlongs, List.drop_zero]
      rw [if_pos ⟨by omega, hne⟩]
      by_cases htwo : b.size % 4 = 2
      · rw [if_pos htwo, show (n - 4 * (b.size / 4) + 2 ^ 32 - 2) % 2 ^ 32 = n - b.size by omega,
          walk_eq hnext hends' (by omega) (by omega) (Nat.mod_lt _ (by decide)), hsum]
        have hpart : hostSum little (b.memory.take b.size) =
            hostSum little (b.memory.take (4 * (b.size / 4))) + shortAt little b.memory (4 * (b.size / 4)) := by
          obtain ⟨q, hq⟩ : ∃ q, q = b.size / 4 := ⟨_, rfl⟩
          rw [← hq, show b.size = 4 * q + 2 by omega, hostSum_take_add (by omega) (by omega),
            hostSum_take_two (n := 0) (by omega)]
          simp [hostSum]
        rw [hpart]
        omega
      · rw [if_neg htwo, show n - 4 * (b.size / 4) = n - b.size by omega,
          walk_eq hnext hends' (by omega) (by omega) (Nat.mod_lt _ (by decide)), hsum,
          show 4 * (b.size / 4) = b.size by omega]
        omega
    · -- The data ends in this buffer.
      have hsum : hostSum little ((octets (b :: next)).take n) =
          hostSum little (b.memory.take (4 * (n / 4))) +
            hostSum little ((b.memory.drop (4 * (n / 4))).take (n % 4)) := by
        rw [hoct, List.take_append_of_le_length (by omega), List.take_take, Nat.min_eq_left (by omega),
          ← hostSum_take_add (by omega) (by omega), Nat.div_add_mod]
      have hlongs : addLongs little b.memory (n / 4) 0 c =
          (c + hostSum little ((b.memory.drop 0).take (4 * (n / 4)))) % 2 ^ 32 := addLongs_eq (by omega) hc
      simp only [hmore, if_false, hlongs, List.drop_zero]
      rw [show n - 4 * (n / 4) = n % 4 by omega, hsum]
      by_cases hgo : n % 4 > 0 ∧ next ≠ []
      · rw [if_pos hgo]
        have htwo : n % 4 = 2 ∧ b.size % 4 = 2 := by
          cases hcase : next with
          | nil => exact absurd hcase hgo.2
          | cons d rest =>
            rw [hcase] at hends
            simp only [List.map_cons, EndsWell] at hends
            rw [if_neg hmore] at hends
            omega
        rw [if_pos htwo.2, htwo.1, show (2 + 2 ^ 32 - 2) % 2 ^ 32 = 0 by decide, walk_zero,
          hostSum_take_two (n := 0) (by omega)]
        simp [hostSum]
        omega
      · rw [if_neg hgo, lastOctets_eq (Nat.mod_lt _ (by decide)) (by omega) (Nat.mod_lt _ (by decide))]
        omega

/-! ### Sixteen bits -/

/-- What folding leaves of a sum: its residue by 65535, and zero only for zero. --/
def roundSum (sum : Nat) : Nat := if sum = 0 then 0 else (sum - 1) % 65535 + 1

theorem foldTwice_eq {x : Nat} (hx : x < 2 ^ 32) : foldTwice x = roundSum x := by
  unfold foldTwice roundSum
  dsimp only
  split <;> omega

theorem roundSum_le (x : Nat) : roundSum x ≤ 65535 := by
  unfold roundSum
  split <;> omega

theorem roundSum_unique {x y : Nat} (hy : y ≤ 65535) (hmod : y % 65535 = x % 65535) (hzero : y = 0 ↔ x = 0) :
    y = roundSum x := by
  unfold roundSum
  split <;> omega

theorem changeEndian_le {t : Nat} (ht : t ≤ 65535) : changeEndian little t ≤ 65535 := by
  unfold changeEndian
  split <;> omega

theorem changeEndian_zero_iff {t : Nat} : changeEndian little t = 0 ↔ t = 0 := by
  unfold changeEndian
  split <;> omega

theorem changeEndian_inj {t u : Nat} (ht : t ≤ 65535) (hu : u ≤ 65535) (h : changeEndian little t =
    changeEndian little u) :
    t = u := by
  unfold changeEndian at h
  split at h <;> omega

/-- The bytes of a word turned around are a multiplication by 256. --/
theorem changeEndian_mod (t : Nat) :
    changeEndian little t % 65535 = (if little then 256 * t else t) % 65535 := by
  unfold changeEndian
  split <;> omega

theorem toNat_networkWord (first second : UInt8) :
    (UInt16.ofNat (256 * first.toNat + second.toNat)).toNat = 256 * first.toNat + second.toNat := by
  have h1 := first.toNat_lt
  have h2 := second.toNat_lt
  rw [UInt16.toNat_ofNat']
  exact Nat.mod_eq_of_lt (by omega)

variable (little) in
/-- What the host adds is what the network adds, with the bytes of every word turned around. --/
theorem hostSum_network : ∀ x : List UInt8,
    hostSum little x % 65535 = (if little then 256 * OnesComplement.total (networkWords x)
      else OnesComplement.total (networkWords x)) % 65535 ∧
    (hostSum little x = 0 ↔ OnesComplement.total (networkWords x) = 0)
  | [] => by simp [hostSum, networkWords]
  | [a] => by
    have h1 := a.toNat_lt
    have hword := toNat_networkWord a 0
    rw [UInt8.toNat_zero, Nat.add_zero] at hword
    simp only [hostSum, networkWords, OnesComplement.total_cons, OnesComplement.total_nil, hword]
    unfold hostShort
    rw [UInt8.toNat_zero]
    cases little
    · simp
    · simp
      omega
  | a :: b :: x => by
    obtain ⟨hmod, hzero⟩ := hostSum_network x
    have h1 := a.toNat_lt
    have h2 := b.toNat_lt
    simp only [hostSum, networkWords, OnesComplement.total_cons, toNat_networkWord]
    unfold hostShort
    cases little
    · simp only [Bool.false_eq_true, if_false] at hmod ⊢
      omega
    · simp only [if_true] at hmod ⊢
      omega

theorem octet_zero_iff (d : UInt8) : d = 0 ↔ d.toNat = 0 := by
  rw [← UInt8.toNat_inj, UInt8.toNat_zero]

theorem hostSum_zero_iff : ∀ x : List UInt8, hostSum little x = 0 ↔ ∀ d ∈ x, d = 0
  | [] => by simp [hostSum]
  | [a] => by
    rw [List.forall_mem_singleton, octet_zero_iff]
    simp only [hostSum]
    unfold hostShort
    split <;> simp
  | a :: b :: x => by
    have ih := hostSum_zero_iff x
    rw [List.forall_mem_cons, List.forall_mem_cons, octet_zero_iff, octet_zero_iff, ← ih]
    simp only [hostSum]
    unfold hostShort
    split <;> omega

theorem total_le : ∀ words : List UInt16, OnesComplement.total words ≤ 65535 * words.length
  | [] => by simp
  | w :: words => by
    have h1 := w.toNat_lt
    have h2 := total_le words
    rw [OnesComplement.total_cons, List.length_cons]
    omega

variable (little) in
/-- What the pseudo header adds, turned around. --/
theorem pseudoChecksum_eq {p : Option PseudoHeader} {n : Nat} (hn : p = none ∨ n ≤ 131074) :
    pseudoChecksum little n p ≤ 65535 ∧
      pseudoChecksum little n p % 65535 = (if little then 256 * OnesComplement.total (pseudoWords n p)
        else OnesComplement.total (pseudoWords n p)) % 65535 ∧
      (pseudoChecksum little n p = 0 ↔ OnesComplement.total (pseudoWords n p) = 0) := by
  cases p with
  | none => simp [pseudoChecksum, pseudoWords]
  | some q =>
    have hn : n ≤ 131074 := hn.resolve_left (by simp)
    have hsum := total_le q.addresses
    have hfew := q.atMost
    have hprotocol := q.protocol.toNat_lt
    have hhigh : (UInt16.ofNat (n / 65536)).toNat = n / 65536 := by
      rw [UInt16.toNat_ofNat']
      omega
    have hlow : (UInt16.ofNat (n % 65536)).toNat = n % 65536 := by
      rw [UInt16.toNat_ofNat']
      omega
    simp only [pseudoChecksum, pseudoWords, OnesComplement.total_cons, hhigh, hlow]
    generalize OnesComplement.total q.addresses = addresses at *
    generalize q.protocol.toNat = protocol at *
    rw [foldTwice_eq (Nat.mod_lt _ (by decide)), Nat.mod_eq_of_lt (by omega)]
    have hle := roundSum_le (protocol + addresses + n)
    have hround : roundSum (protocol + addresses + n) % 65535 = (protocol + addresses + n) % 65535 ∧
        (roundSum (protocol + addresses + n) = 0 ↔ protocol + addresses + n = 0) := by
      unfold roundSum
      split <;> omega
    refine ⟨changeEndian_le hle, ?_, ?_⟩
    · rw [changeEndian_mod]
      cases little
      · simp only [Bool.false_eq_true, if_false]
        omega
      · simp only [if_true]
        omega
    · rw [changeEndian_zero_iff, hround.2]
      omega

variable (little) in
/-- The sum that is meant, from what the host adds. --/
theorem internetSum_eq {pseudo : Option PseudoHeader} {data : List UInt8} (hn : pseudo = none ∨ data.length ≤ 131074) :
    internetSum pseudo data =
      changeEndian little (roundSum (pseudoChecksum little data.length pseudo + hostSum little data)) := by
  obtain ⟨-, hpmod, hpzero⟩ := pseudoChecksum_eq little hn
  obtain ⟨hdmod, hdzero⟩ := hostSum_network little data
  obtain ⟨hle, hmod, hzero⟩ := OnesComplement.sum_spec (pseudoWords data.length pseudo ++ networkWords data)
  rw [OnesComplement.total_append] at hmod hzero
  unfold internetSum
  generalize OnesComplement.total (pseudoWords data.length pseudo) = p at *
  generalize OnesComplement.total (networkWords data) = d at *
  generalize pseudoChecksum little data.length pseudo = p' at *
  generalize hostSum little data = d' at *
  generalize OnesComplement.sum (pseudoWords data.length pseudo ++ networkWords data) = s at *
  have hround := roundSum_le (p' + d')
  have hrmod : roundSum (p' + d') % 65535 = (p' + d') % 65535 ∧ (roundSum (p' + d') = 0 ↔ p' + d' = 0) := by
    unfold roundSum
    split <;> omega
  have hleft := roundSum_unique hle hmod hzero
  rw [hleft]
  refine (roundSum_unique (changeEndian_le hround) ?_ ?_).symm
  · rw [changeEndian_mod]
    cases little
    · simp only [Bool.false_eq_true, if_false] at hpmod hdmod ⊢
      omega
    · simp only [if_true] at hpmod hdmod ⊢
      omega
  · rw [changeEndian_zero_iff, hrmod.2]
    omega

variable (little) in
theorem walk_lt : ∀ {b : List Buffer} {n c : Nat}, c < 2 ^ 32 → walk little b n c < 2 ^ 32
  | [], _, _, hc => hc
  | b :: next, n, c, hc => by
    have hlongs : ∀ (k o c : Nat), c < 2 ^ 32 → addLongs little b.memory k o c < 2 ^ 32 := by
      intro k
      induction k with
      | zero => exact fun o c hc => hc
      | succ k ih => exact fun o c _ => ih _ _ (Nat.mod_lt _ (by decide))
    rw [walk]
    generalize (if n > b.size then b.size / 4 else n / 4) = q
    split
    · split
      · exact walk_lt (Nat.mod_lt _ (by decide))
      · exact walk_lt (hlongs _ _ _ hc)
    · unfold lastOctets
      have h := hlongs q 0 c hc
      split
      · exact h
      · split
        · exact Nat.mod_lt _ (by decide)
        · split
          · exact Nat.mod_lt _ (by decide)
          · exact Nat.mod_lt _ (by decide)

/-- The function is right exactly where the loop's sum has the residue of the whole one. --/
theorem compute_eq_iff {pseudo : Option PseudoHeader} {chain : List Buffer} {n : Nat} (hlen : n ≤ (octets chain).length)
    (hn : pseudo = none ∨ n ≤ 131074) :
    ipChecksumCompute little pseudo chain n = internetSum pseudo ((octets chain).take n) ↔
      roundSum (walk little chain n (pseudoChecksum little n pseudo)) =
        roundSum (pseudoChecksum little n pseudo + hostSum little ((octets chain).take n)) := by
  have hlength : ((octets chain).take n).length = n := by rw [List.length_take, Nat.min_eq_left hlen]
  have hp := (pseudoChecksum_eq little hn).1
  have hwalk := walk_lt little (n := n) (c := pseudoChecksum little n pseudo) (b := chain) (by omega)
  rw [internetSum_eq little (by rw [hlength]; exact hn), hlength]
  unfold ipChecksumCompute
  rw [foldTwice_eq hwalk]
  exact ⟨changeEndian_inj (roundSum_le _) (roundSum_le _), fun h => by rw [h]⟩

/-- Where the data ends well and 32 bits hold the sum, the function is right. --/
theorem compute_eq {pseudo : Option PseudoHeader} {chain : List Buffer} {n : Nat} (heven : EvenChain chain)
    (hends : EndsWell (chain.map (·.size)) n) (hlen : n ≤ (octets chain).length) (hn : n ≤ 131072) :
    ipChecksumCompute little pseudo chain n = internetSum pseudo ((octets chain).take n) := by
  have hp := (pseudoChecksum_eq little (p := pseudo) (n := n) (.inr (by omega))).1
  have hsum := hostSum_le little ((octets chain).take n)
  rw [List.length_take, Nat.min_eq_left hlen] at hsum
  rw [compute_eq_iff hlen (.inr (by omega)), walk_eq heven hends hlen (by omega) (by omega),
    Nat.mod_eq_of_lt (by omega)]

/-! ### Where it goes wrong -/

theorem addLongs_zero {m : List UInt8} : ∀ {n o c : Nat}, (∀ i, o ≤ i → i < o + 4 * n → m.getD i 0 = 0) → c < 2 ^ 32 →
    addLongs little m n o c = c
  | 0, _, _, _, _ => rfl
  | n + 1, o, c, hm, hc => by
    have hshort : ∀ i, o ≤ i → i + 1 < o + 4 * (n + 1) → shortAt little m i = 0 := by
      intro i h1 h2
      unfold shortAt hostShort
      rw [hm i h1 (by omega), hm (i + 1) (by omega) h2]
      cases little <;> rfl
    have hsame : (c + 0) % 2 ^ 32 = c := Nat.mod_eq_of_lt hc
    rw [addLongs, hshort o (le_refl _) (by omega), hshort (o + 2) (by omega) (by omega), hsame, hsame]
    exact addLongs_zero (fun i h1 h2 => hm i (by omega) (by omega)) hc

theorem getD_zero {m : List UInt8} (hm : ∀ d ∈ m, d = 0) (i : Nat) : m.getD i 0 = 0 := by
  by_cases hi : i < m.length
  · rw [List.getD_eq_getElem _ _ hi]
    exact hm _ (List.getElem_mem hi)
  · exact List.getD_eq_default _ _ (by omega)

theorem shortAt_zero {m : List UInt8} {o : Nat} (h1 : m.getD o 0 = 0) (h2 : m.getD (o + 1) 0 = 0) :
    shortAt little m o = 0 := by
  unfold shortAt hostShort
  rw [h1, h2]
  cases little <;> rfl

/-- Zeros add nothing, however much of them is read. --/
theorem walk_zeros : ∀ {chain : List Buffer} {n c : Nat}, (∀ b ∈ chain, ∀ d ∈ b.memory, d = 0) → c < 2 ^ 32 →
    walk little chain n c = c
  | [], _, _, _, _ => rfl
  | b :: next, n, c, hz, hc => by
    have hb := getD_zero (hz b List.mem_cons_self)
    have hnext : ∀ d ∈ next, ∀ e ∈ d.memory, e = 0 := fun d hd => hz d (List.mem_cons_of_mem _ hd)
    have hone : hostShort little 0 0 = 0 := by cases little <;> rfl
    rw [walk]
    generalize (if n > b.size then b.size / 4 else n / 4) = q
    simp only [addLongs_zero (fun i _ _ => hb i) hc, shortAt_zero (hb _) (hb _), Nat.add_zero, Nat.mod_eq_of_lt hc,
      walk_zeros hnext hc, ite_self]
    unfold lastOctets
    simp only [shortAt_zero (hb _) (hb _), hb, hone, Nat.add_zero, Nat.mod_eq_of_lt hc, ite_self]

/-- A buffer of zeros with one octet that is not. --/
def marked (size mark : Nat) : Buffer := ⟨(List.range size).map fun i => if i = mark then 1 else 0, size⟩

/-- Buffers of zeros. --/
def zeros (sizes : List Nat) : List Buffer := sizes.map fun s => ⟨List.replicate s 0, s⟩

theorem getD_marked {s k i : Nat} (hi : i ≠ k) : (marked s k).memory.getD i 0 = 0 := by
  unfold marked
  by_cases h : i < s
  · rw [List.getD_eq_getElem _ _ (by simpa using h)]
    simp [hi]
  · exact List.getD_eq_default _ _ (by simpa using h)

theorem getD_marked_self {s k : Nat} (hk : k < s) : (marked s k).memory.getD k 0 = 1 := by
  unfold marked
  rw [List.getD_eq_getElem _ _ (by simpa using hk)]
  simp

theorem take_marked_zero_iff {s k n : Nat} (hn : n ≤ s) : hostSum little ((marked s k).memory.take n) = 0 ↔ n ≤ k := by
  rw [hostSum_zero_iff]
  unfold marked
  rw [← List.map_take, List.take_range, Nat.min_eq_left hn]
  constructor
  · intro h
    by_contra hk
    have := h 1 (List.mem_map.mpr ⟨k, List.mem_range.mpr (by omega), if_pos rfl⟩)
    exact absurd this (by decide)
  · intro h d hd
    obtain ⟨i, hi, rfl⟩ := List.mem_map.mp hd
    exact if_neg (by have := List.mem_range.mp hi; omega)

theorem zeros_spec (sizes : List Nat) : (zeros sizes).map (·.size) = sizes ∧
    (∀ b ∈ zeros sizes, b.size ∈ sizes ∧ b.size ≤ b.memory.length) ∧ ∀ b ∈ zeros sizes, ∀ d ∈ b.memory, d = 0 := by
  unfold zeros
  refine ⟨by simp [Function.comp_def], fun b hb => ?_, fun b hb d hd => ?_⟩
  · obtain ⟨s, hs, rfl⟩ := List.mem_map.mp hb
    exact ⟨hs, by simp⟩
  · obtain ⟨s, -, rfl⟩ := List.mem_map.mp hb
    exact List.eq_of_mem_replicate hd

/-- Where the data ends badly in the first of several buffers, one octet is missed or one is too many. --/
theorem ends_badly {s t n : Nat} {rest : List Nat} (heven : ∀ d ∈ s :: t :: rest, d % 2 = 0) (hn : n ≤ s)
    (hbad : ¬(n % 4 = 0 ∨ n % 4 = 2 ∧ s % 4 = 2)) :
    ∃ chain, EvenChain chain ∧ chain.map (·.size) = s :: t :: rest ∧
      ¬(walk little chain n 0 = 0 ↔ hostSum little ((octets chain).take n) = 0) := by
  have hs := heven s List.mem_cons_self
  obtain ⟨hsizes, hfit, hzero⟩ := zeros_spec (t :: rest)
  have hchain : ∀ k, EvenChain (marked s k :: zeros (t :: rest)) := by
    intro k b hb
    rcases List.mem_cons.mp hb with rfl | hb
    · exact ⟨hs, by simp [marked]⟩
    · exact ⟨heven _ (List.mem_cons_of_mem _ (hfit b hb).1), (hfit b hb).2⟩
  have hmap : ∀ k, (marked s k :: zeros (t :: rest)).map (·.size) = s :: t :: rest := fun k => by
    rw [List.map_cons, hsizes]
    rfl
  have htake : ∀ k, (octets (marked s k :: zeros (t :: rest))).take n = (marked s k).memory.take n := by
    intro k
    have hlen : (marked s k).memory.length = s := by simp [marked]
    have h : octets (marked s k :: zeros (t :: rest)) = (marked s k).memory.take s ++ octets (zeros (t :: rest)) := rfl
    rw [h, List.take_append_of_le_length (by rw [List.length_take, hlen]; omega), List.take_take, Nat.min_eq_left hn]
  have hne : zeros (t :: rest) ≠ [] := List.cons_ne_nil _ _
  have hsize : ∀ k, (marked s k).size = s := fun _ => rfl
  have hlongs : ∀ k, 4 * (n / 4) ≤ k → addLongs little (marked s k).memory (n / 4) 0 0 = 0 := fun k hk =>
    addLongs_zero (fun i _ h => getD_marked (by omega)) (by decide)
  by_cases hover : n % 4 = 1 ∧ s % 4 = 2
  · -- The octet behind the data is read with the last one.
    refine ⟨marked s n :: zeros (t :: rest), hchain n, hmap n, ?_⟩
    rw [htake, take_marked_zero_iff hn, walk]
    simp only [hsize, if_neg (Nat.not_lt.mpr hn), hlongs n (by omega)]
    rw [if_pos ⟨by omega, hne⟩, if_pos hover.2, walk_zeros hzero (Nat.mod_lt _ (by decide))]
    have hshort : shortAt little (marked s n).memory (4 * (n / 4)) = hostShort little 0 1 := by
      unfold shortAt
      rw [getD_marked (by omega), show 4 * (n / 4) + 1 = n by omega, getD_marked_self (by omega)]
    rw [hshort]
    cases little <;> simp [hostShort]
  · -- The last octet of the data is not read.
    refine ⟨marked s (n - 1) :: zeros (t :: rest), hchain _, hmap _, ?_⟩
    rw [htake, take_marked_zero_iff hn, walk]
    simp only [hsize, if_neg (Nat.not_lt.mpr hn), hlongs (n - 1) (by omega)]
    rw [if_pos ⟨by omega, hne⟩]
    have hwalk : (if s % 4 = 2 then walk little (zeros (t :: rest)) ((n - 4 * (n / 4) + 2 ^ 32 - 2) % 2 ^ 32)
        ((0 + shortAt little (marked s (n - 1)).memory (4 * (n / 4))) % 2 ^ 32)
        else walk little (zeros (t :: rest)) (n - 4 * (n / 4)) 0) = 0 := by
      split
      · rw [shortAt_zero (getD_marked (by omega)) (getD_marked (by omega))]
        exact walk_zeros hzero (by decide)
      · exact walk_zeros hzero (by decide)
    rw [hwalk]
    simp only [true_iff]
    omega

theorem endsWell_cons (s t n : Nat) (rest : List Nat) : EndsWell (s :: t :: rest) n =
    if n > s then EndsWell (t :: rest) (n - s) else n % 4 = 0 ∨ n % 4 = 2 ∧ s % 4 = 2 := rfl

variable (little) in
/-- Where the data ends badly, some contents are summed wrongly. --/
theorem exists_bad : ∀ {l : List Nat} {n : Nat}, (∀ d ∈ l, d % 2 = 0) → n ≤ l.sum → n < 2 ^ 32 →
    ¬EndsWell l n → ∃ chain, EvenChain chain ∧ chain.map (·.size) = l ∧
      ¬(walk little chain n 0 = 0 ↔ hostSum little ((octets chain).take n) = 0)
  | [], n, _, hn, _, hbad => absurd (by simpa [EndsWell] using hn) hbad
  | [_], _, _, _, _, hbad => absurd trivial hbad
  | s :: t :: rest, n, heven, hn, hlt, hbad => by
    by_cases hmore : n > s
    · rw [endsWell_cons, if_pos hmore] at hbad
      obtain ⟨chain, hchain, hmap, hwrong⟩ := exists_bad (l := t :: rest) (n := n - s)
        (fun d hd => heven d (List.mem_cons_of_mem _ hd)) (by rw [List.sum_cons] at hn; omega) (by omega) hbad
      have hs := heven s List.mem_cons_self
      have hne : chain ≠ [] := by
        rintro rfl
        simp at hmap
      have hzero : ∀ i, (List.replicate s (0 : UInt8)).getD i 0 = 0 := getD_zero fun d hd => List.eq_of_mem_replicate hd
      refine ⟨⟨List.replicate s 0, s⟩ :: chain, ?_, by rw [List.map_cons, hmap], ?_⟩
      · intro b hb
        rcases List.mem_cons.mp hb with rfl | hb
        · exact ⟨hs, by simp⟩
        · exact hchain b hb
      · have hwalk : walk little (⟨List.replicate s 0, s⟩ :: chain) n 0 = walk little chain (n - s) 0 := by
          rw [walk]
          simp only [if_pos hmore, addLongs_zero (fun i _ _ => hzero i) (show 0 < 2 ^ 32 by decide),
            shortAt_zero (hzero _) (hzero _)]
          rw [if_pos ⟨by omega, hne⟩]
          split
          · rw [show (n - 4 * (s / 4) + 2 ^ 32 - 2) % 2 ^ 32 = n - s by omega]
            rfl
          · rw [show n - 4 * (s / 4) = n - s by omega]
        have hoct : octets (⟨List.replicate s 0, s⟩ :: chain) = List.replicate s 0 ++ octets chain := by
          unfold octets
          rw [List.flatMap_cons, List.take_of_length_le (by simp)]
        have hzeros : hostSum little (List.replicate s 0) = 0 :=
          (hostSum_zero_iff _).mpr fun d hd => List.eq_of_mem_replicate hd
        rw [hwalk, hoct, List.take_append, List.length_replicate, List.take_of_length_le (by simp; omega),
          hostSum_append (by simpa using hs), hzeros, Nat.zero_add]
        exact hwrong
    · rw [endsWell_cons, if_neg hmore] at hbad
      exact ends_badly heven (by omega) hbad

/-- Octets cut into buffers. --/
def cut (data : List UInt8) : List Nat → List Buffer
  | [] => []
  | size :: sizes => ⟨data.take size, size⟩ :: cut (data.drop size) sizes

theorem cut_spec : ∀ {l : List Nat} {d : List UInt8}, d.length = l.sum → (∀ s ∈ l, s % 2 = 0) →
    (cut d l).map (·.size) = l ∧ EvenChain (cut d l) ∧ octets (cut d l) = d
  | [], data, hlen, _ => by
    obtain rfl : data = [] := List.eq_nil_of_length_eq_zero (by simpa using hlen)
    exact ⟨rfl, (fun _ h => by cases h), rfl⟩
  | size :: sizes, data, hlen, heven => by
    rw [List.sum_cons] at hlen
    obtain ⟨hmap, hchain, hoct⟩ := cut_spec (l := sizes) (d := data.drop size) (by rw [List.length_drop]; omega)
      fun d hd => heven d (List.mem_cons_of_mem _ hd)
    refine ⟨by rw [cut, List.map_cons, hmap], ?_, ?_⟩
    · intro b hb
      rcases List.mem_cons.mp hb with rfl | hb
      · refine ⟨heven _ List.mem_cons_self, ?_⟩
        show size ≤ (data.take size).length
        rw [List.length_take]
        omega
      · exact hchain b hb
    · have h : octets (cut data (size :: sizes)) = (data.take size).take size ++ octets (cut (data.drop size) sizes) :=
        rfl
      rw [h, hoct, List.take_take, Nat.min_self, List.take_append_drop]

theorem hostSum_ones : ∀ k : Nat, hostSum little (List.replicate (2 * k) 255) = 65535 * k
  | 0 => rfl
  | k + 1 => by
    rw [show 2 * (k + 1) = 2 * k + 1 + 1 by omega, List.replicate_succ, List.replicate_succ]
    simp only [hostSum, hostSum_ones k]
    have h : hostShort little 255 255 = 65535 := by cases little <;> rfl
    rw [h]
    omega

/-- All ones, an odd number of them, and zeros. --/
theorem hostSum_odd_ones (k j : Nat) :
    hostSum little (List.replicate (2 * k + 1) 255 ++ List.replicate j 0) = 65535 * k + hostShort little 255 0 := by
  rw [List.replicate_succ', List.append_assoc, hostSum_append (by rw [List.length_replicate]; omega), hostSum_ones,
    List.singleton_append]
  congr 1
  cases j with
  | zero => rfl
  | succ j =>
    rw [List.replicate_succ, hostSum, (hostSum_zero_iff _).mpr fun d hd => List.eq_of_mem_replicate hd, Nat.add_zero]

/-- A pseudo header that adds all ones for a length. --/
def onesHeader (n : Nat) : PseudoHeader := ⟨17, [65518, UInt16.ofNat (65535 - n % 65535)], by simp⟩

theorem pseudoChecksum_ones {n : Nat} (hn : n ≤ 131074) : pseudoChecksum little n (some (onesHeader n)) = 65535 := by
  have haddress : (UInt16.ofNat (65535 - n % 65535)).toNat = 65535 - n % 65535 := by
    rw [UInt16.toNat_ofNat']
    omega
  have hround : roundSum ((17 + (65518 + (65535 - n % 65535 + 0)) + n) % 2 ^ 32) = 65535 := by
    rw [show (17 + (65518 + (65535 - n % 65535 + 0)) + n) % 2 ^ 32 = 65535 * (n / 65535 + 1) + 65535 by omega]
    unfold roundSum
    split <;> omega
  unfold pseudoChecksum onesHeader
  dsimp only
  rw [foldTwice_eq (Nat.mod_lt _ (by decide)), OnesComplement.total_cons, OnesComplement.total_cons,
    OnesComplement.total_nil,
    haddress, show (17 : UInt16).toNat = 17 from rfl, show (65518 : UInt16).toNat = 65518 from rfl, hround]
  cases little <;> rfl

variable (little) in
/-- Where there are more octets than 32 bits have room for, the sum of some of them is wrong. --/
theorem exists_overflow {l : List Nat} {n : Nat} (heven : ∀ d ∈ l, d % 2 = 0) (hn : n ≤ l.sum) (hlt : n < 2 ^ 32)
    (hends : EndsWell l n) (hbig : 131072 < n) : ∃ pseudo chain, EvenChain chain ∧ chain.map (·.size) = l ∧
      ¬ipChecksumCompute little pseudo chain n = internetSum pseudo ((octets chain).take n) := by
  obtain ⟨k, pseudo, hk, hpseudo, hsum⟩ : ∃ k pseudo, 2 * k + 1 ≤ n ∧ (pseudo = none ∨ n ≤ 131074) ∧
      pseudoChecksum little n pseudo + 65535 * k = 2 ^ 32 - 1 := by
    by_cases hsmall : n ≤ 131074
    · exact ⟨65536, some (onesHeader n), by omega, .inr hsmall, by rw [pseudoChecksum_ones hsmall]; norm_num⟩
    · exact ⟨65537, none, by omega, .inl rfl, by simp [pseudoChecksum]⟩
  have hcount : (List.replicate (2 * k + 1) (255 : UInt8) ++
      List.replicate (l.sum - (2 * k + 1)) 0).length = l.sum := by
    simp
    omega
  obtain ⟨hmap, hchain, hoct⟩ := cut_spec hcount heven
  refine ⟨pseudo, cut (List.replicate (2 * k + 1) 255 ++ List.replicate (l.sum - (2 * k + 1)) 0) l, hchain, hmap, ?_⟩
  have hlen : n ≤ (octets (cut (List.replicate (2 * k + 1) 255 ++
      List.replicate (l.sum - (2 * k + 1)) 0) l)).length := by
    rw [hoct]
    simp
    omega
  have htake : (List.replicate (2 * k + 1) (255 : UInt8) ++ List.replicate (l.sum - (2 * k + 1)) 0).take n =
      List.replicate (2 * k + 1) 255 ++ List.replicate (n - (2 * k + 1)) 0 := by
    rw [List.take_append, List.length_replicate, List.take_of_length_le (by simpa using hk), List.take_replicate,
      Nat.min_eq_left (by omega)]
  have hp := (pseudoChecksum_eq little hpseudo).1
  rw [compute_eq_iff hlen hpseudo, walk_eq hchain (by rw [hmap]; exact hends) hlen hlt (by omega), hoct, htake,
    hostSum_odd_ones, ← Nat.add_assoc, hsum]
  cases little <;> decide +kernel

/-- The checksum is right for all contents and pseudo headers exactly where the data ends well and is not too long. --/
theorem checksum_compute_iff {sizes : List Nat} {n : Nat} (heven : ∀ d ∈ sizes, d % 2 = 0) (hlen : n ≤ sizes.sum)
    (hn : n < 2 ^ 32) :
    (∀ pseudo chain, EvenChain chain → chain.map (·.size) = sizes →
      ipChecksumCompute little pseudo chain n = internetSum pseudo ((octets chain).take n)) ↔
    EndsWell sizes n ∧ n ≤ 131072 := by
  have hlength : ∀ {chain : List Buffer}, EvenChain chain → (octets chain).length = (chain.map (·.size)).sum := by
    intro chain hchain
    induction chain with
    | nil => rfl
    | cons b next ih =>
      have h : octets (b :: next) = b.memory.take b.size ++ octets next := rfl
      rw [h, List.length_append, List.length_take, Nat.min_eq_left (hchain b List.mem_cons_self).2, List.map_cons,
        List.sum_cons, ih fun d hd => hchain d (List.mem_cons_of_mem _ hd)]
  constructor
  · intro h
    have hends : EndsWell sizes n := by
      by_contra hbad
      obtain ⟨chain, hchain, hmap, hwrong⟩ := exists_bad little heven hlen hn hbad
      have hright := h none chain hchain hmap
      rw [compute_eq_iff (by rw [hlength hchain, hmap]; exact hlen) (.inl rfl)] at hright
      have hnone : pseudoChecksum little n none = 0 := rfl
      rw [hnone, Nat.zero_add] at hright
      have hzero : ∀ x, roundSum x = 0 ↔ x = 0 := by
        intro x
        unfold roundSum
        split <;> omega
      exact hwrong (by rw [← hzero, hright, hzero])
    refine ⟨hends, ?_⟩
    by_contra hbig
    obtain ⟨pseudo, chain, hchain, hmap, hwrong⟩ := exists_overflow little heven hlen hn hends (by omega)
    exact hwrong (h pseudo chain hchain hmap)
  · rintro ⟨hends, hshort⟩ pseudo chain hchain hmap
    exact compute_eq hchain (by rw [hmap]; exact hends) (by rw [hlength hchain, hmap]; exact hlen) hshort

/-- Ten octets in two buffers, of which seven are summed. --/
theorem checksum_compute_iff_two : (∀ pseudo chain, EvenChain chain → chain.map (·.size) = [6, 4] →
    ipChecksumCompute true pseudo chain 7 = internetSum pseudo ((octets chain).take 7)) ↔ EndsWell [6, 4] 7 ∧
      7 ≤ 131072 :=
  checksum_compute_iff (by decide) (by decide) (by decide)

/-- The two octets that are summed are in the first of two buffers, and are not read. --/
theorem first_octets_missed :
    ipChecksumCompute true none [⟨[1, 2, 0, 0], 4⟩, ⟨[0, 0, 0, 0], 4⟩] 2 = 0 ∧
      ipChecksumCompute true none [⟨[1, 2, 0, 0, 0, 0, 0, 0], 8⟩] 2 = 0x0102 ∧
      internetSum none [1, 2] = 0x0102 := by
  decide +kernel

end

end Netxduo.Ip.ChecksumCompute
