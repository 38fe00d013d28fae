import Mathlib
import Netxduo.Library.OnesComplement
import Netxduo.Ip.ForwardFragment

/-! What the receive path makes of an IPv4 packet for somebody else (`_nx_ipv4_packet_receive`,
    `_nx_ip_forward_packet_process`): padding and options are removed, the time to live is counted down and the
    checksum of the header updated. Counters, NAT and the capabilities of interfaces are not built in. -/

namespace Netxduo.Ip
open OnesComplement

/-! ### The source -/

/-- A packet as it arrives, the header in host order. `length` is `nx_packet_length`; of the first buffer, `head` has
    what is behind the options. --/
structure ReceivedPacket where
  word0 : ULONG
  word1 : ULONG
  word2 : ULONG
  source : ULONG
  destination : ULONG
  options : List ULONG
  length : ULONG
  head : SourceBuffer
  tail : List SourceBuffer
deriving DecidableEq, Repr

/-- A word as it is on the wire. --/
def wireHalves (w : ULONG) : List UInt16 := [UInt16.ofNat (w.toNat / 65536), UInt16.ofNat (w.toNat % 65536)]

namespace ReceivedPacket

def headerLength (p : ReceivedPacket) : ULONG := (p.word0 &&& ipLengthMask) >>> 24

def pktLength (p : ReceivedPacket) : ULONG := p.word0 &&& lower16Mask

def timeToLive (p : ReceivedPacket) : Nat := (p.word2 >>> 24).toNat

def data (p : ReceivedPacket) : List UInt8 := (p.head :: p.tail).flatMap SourceBuffer.octets

def headerWords (p : ReceivedPacket) : List UInt16 :=
  ([p.word0, p.word1, p.word2, p.source, p.destination] ++ p.options).flatMap wireHalves

end ReceivedPacket

/-- The loop that takes `delta` octets from the end; the buffers behind the first one come last first. --/
def trimPadding (head : SourceBuffer) : Nat → List SourceBuffer → SourceBuffer × List SourceBuffer
  | 0, reversed => (head, reversed.reverse)
  | delta + 1, [] => (⟨head.interface, head.octets.take (head.octets.length - (delta + 1))⟩, [])
  | delta + 1, last :: before =>
    if last.octets.length > delta + 1 then
      (head, (⟨last.interface, last.octets.take (last.octets.length - (delta + 1))⟩ :: before).reverse)
    else trimPadding head (delta + 1 - last.octets.length) before

/-- What the packet meets: `forHost` says whether a destination is the interface that received it, one of its broadcast
    addresses or another that is kept, `addressed` whether this interface has an address, `dataAdjust` whether room for
    the physical header is found. --/
structure ForwardEnvironment where
  optionProcess : ReceivedPacket → Bool
  forHost : ULONG → Bool
  addressed : Bool
  forwarding : Bool
  routeFind : ULONG → Option Nat
  address : Nat → ULONG
  mtu : Nat → ULONG
  dataAdjust : ForwardPacket → Bool
  fragmentProcessing : Bool
  grants : Nat → Bool

/-- The header without its options. The length in the first word stays as it is. --/
def ReceivedPacket.stripped (p : ReceivedPacket) (head : SourceBuffer) (tail : List SourceBuffer) : ForwardPacket where
  word0 := if p.headerLength > 5 then p.word0 &&& ~~~ipLengthMask ||| 0x45000000 else p.word0
  word1 := p.word1
  word2 := p.word2
  source := p.source
  destination := p.destination
  length := if p.headerLength > 5 then p.pktLength - (p.headerLength - 5) * 4 else p.pktLength
  head := head
  tail := tail

/-- `_nx_ipv4_packet_receive`, as far as the packet that it forwards. --/
def receiveToForward (env : ForwardEnvironment) (p : ReceivedPacket) : Option ForwardPacket :=
  if p.length < p.pktLength then none
  else
    let trimmed := trimPadding p.head (p.length - p.pktLength).toNat p.tail.reverse
    if p.pktLength ≤ p.headerLength <<< 2 ∨ p.headerLength < 5 then none
    else if ¬ Verifies p.headerWords then none
    else if p.headerLength > 5 ∧ env.optionProcess p = false then none
    else if env.forHost p.destination then none
    else if env.addressed = false then none
    else if env.forwarding = false then none
    else some (p.stripped trimmed.1 trimmed.2)

/-- Twice, since the first sum may have a carry of its own. --/
def foldTwice (checksum : ULONG) : ULONG :=
  let checksum := (checksum >>> 16) + (checksum &&& 0xFFFF)
  (checksum >>> 16) + (checksum &&& 0xFFFF)

/-- The second word of the header, with the time to live counted down and the checksum updated. --/
def countDown (word2 : ULONG) : ULONG :=
  let word2 := word2 - 0x01000000
  let checksum := word2 &&& lower16Mask
  let newM := (word2 &&& 0xFFFF0000) >>> 16
  let oldM := newM + 0x0100
  let checksum := foldTwice ((~~~checksum &&& 0xFFFF) + (~~~oldM &&& 0xFFFF) + newM)
  word2 &&& 0xFFFF0000 ||| (~~~checksum &&& lower16Mask)

def ipDontFragment : ULONG := 0x00004000

/-- Where a packet goes that is forwarded. --/
inductive Forwarded where
  | released
  /-- To another interface of this host, `_nx_ip_packet_deferred_receive`. --/
  | deferred
  /-- To the driver, as it is. --/
  | sent (e : Emitted)
  /-- To `_nx_ip_fragment_forward_packet`. --/
  | fragmented (o : Option Outcome)
deriving DecidableEq, Repr

/-- `_nx_ip_forward_packet_process` --/
def forwardPacketProcess (env : ForwardEnvironment) (fuel : Nat) (p : ForwardPacket) : Forwarded :=
  if p.destination &&& 0xF0000000 = 0xE0000000 then .released
  else if p.source &&& 0xFFFF0000 = 0xA9FE0000 ∨ p.destination &&& 0xFFFF0000 = 0xA9FE0000 then .released
  else
    match env.routeFind p.destination with
    | none => .released
    | some outgoing =>
      let timeToLive := ((p.word2 &&& 0xFF000000) >>> 24) - 1
      let fragmentBit := p.word1 &&& ipDontFragment
      if timeToLive = 0 then .released
      else
        let p := { p with word2 := countDown p.word2, head := ⟨outgoing, p.head.octets⟩ }
        if env.address outgoing = p.destination then .deferred
        else if env.dataAdjust p = false then .released
        else if p.length ≤ env.mtu outgoing then
          .sent ⟨outgoing, ⟨p.word0, p.word1, p.word2, p.source, p.destination, p.data⟩⟩
        else if env.fragmentProcessing ∧ fragmentBit = 0 then
          .fragmented (fragmentForwardPacket env.grants (env.mtu outgoing) p fuel)
        else .released

/-- What the drivers get. --/
def Forwarded.frames : Forwarded → List Frame
  | .sent e => [e.frame]
  | .fragmented (some o) => o.sent.map Emitted.frame
  | _ => []

/-- Reception and forwarding. --/
def forwardReceived (env : ForwardEnvironment) (fuel : Nat) (p : ReceivedPacket) : Forwarded :=
  match receiveToForward env p with
  | none => .released
  | some q => forwardPacketProcess env fuel q

/-! ### What it is for -/

def Frame.timeToLive (f : Frame) : Nat := (f.word2 >>> 24).toNat

def Frame.headerWords (f : Frame) : List UInt16 := [f.word0, f.word1, f.word2, f.source,
    f.destination].flatMap wireHalves

/-- A header of five words in order, as it follows from one with a time to live. --/
structure Frame.Follows (f : Frame) (timeToLive : Nat) : Prop where
  timeToLive : f.timeToLive + 1 = timeToLive
  alive : 1 ≤ f.timeToLive
  total : (f.word0 &&& lower16Mask).toNat = 20 + f.data.length
  checksum : Verifies f.headerWords

/-- The header is as long as it says, and the packet as long as its buffers. --/
structure ReceivedPacket.WellFormed (p : ReceivedPacket) : Prop where
  header : p.headerLength.toNat = 5 + p.options.length
  length : p.length.toNat = 4 * p.headerLength.toNat + p.data.length

/-- The packet without its options is longer than the MTU of the interface it goes to. --/
def ReceivedPacket.Exceeds (env : ForwardEnvironment) (p : ReceivedPacket) : Prop :=
  ∃ outgoing, env.routeFind p.destination = some outgoing ∧
    (env.mtu outgoing).toNat < p.pktLength.toNat - 4 * p.options.length

/-! ### Words and their halves -/

section words
variable (w v : ULONG)

theorem toNat_lower : (w &&& lower16Mask).toNat = w.toNat % 65536 := by
  rw [BitVec.toNat_and]
  exact Nat.and_two_pow_sub_one_eq_mod w.toNat 16

theorem toNat_upper : (w >>> 16).toNat = w.toNat / 65536 := by
  rw [BitVec.toNat_ushiftRight, Nat.shiftRight_eq_div_pow]

theorem toNat_timeToLive : (w >>> 24).toNat = w.toNat / 16777216 := by
  rw [BitVec.toNat_ushiftRight, Nat.shiftRight_eq_div_pow]

theorem toNat_not_lower : (~~~w &&& lower16Mask).toNat = 65535 - w.toNat % 65536 := by
  have hlt := w.isLt
  rw [toNat_lower, BitVec.toNat_not]
  omega

/-- The upper half of one word with the lower half of another one. --/
theorem toNat_join : (w &&& ~~~lower16Mask ||| (v &&& lower16Mask)).toNat = w.toNat / 65536 * 65536 +
    v.toNat % 65536 := by
  have hupper : (w &&& ~~~lower16Mask).toNat = 2 ^ 16 * (w.toNat / 65536) := by
    have hshift : w &&& ~~~lower16Mask = (w >>> 16) <<< 16 := by
      refine BitVec.eq_of_getLsbD_eq fun i hi => ?_
      have hmask : ∀ i < 32, (~~~lower16Mask).getLsbD i = decide (16 ≤ i) := by decide
      rw [BitVec.getLsbD_and, hmask i hi, BitVec.getLsbD_shiftLeft, BitVec.getLsbD_ushiftRight]
      by_cases h : i < 16
      · rw [decide_eq_false (by omega), decide_eq_true h]
        simp
      · rw [decide_eq_true (by omega), decide_eq_false h, show 16 + (i - 16) = i by omega]
        simp [hi]
    have hlt := w.isLt
    rw [hshift, BitVec.toNat_shiftLeft, toNat_upper, Nat.shiftLeft_eq]
    omega
  rw [BitVec.toNat_or, hupper, toNat_lower, ← Nat.two_pow_add_eq_or_of_lt (Nat.mod_lt _ (by decide))]
  omega

theorem toNat_foldTwice (hlt : w.toNat < 2 ^ 31) :
    (foldTwice w).toNat ≤ 65535 ∧ (foldTwice w).toNat % 65535 = w.toNat % 65535 ∧
      ((foldTwice w).toNat = 0 ↔ w.toNat = 0) := by
  have honce : ∀ v : ULONG, v.toNat < 2 ^ 31 → ((v >>> 16) + (v &&& 0xFFFF)).toNat = v.toNat / 65536 +
    v.toNat % 65536 := by
    intro v hv
    have hlower : (v &&& 0xFFFF).toNat = v.toNat % 65536 := toNat_lower v
    rw [BitVec.toNat_add, toNat_upper, hlower]
    exact Nat.mod_eq_of_lt (by omega)
  unfold foldTwice
  rw [honce _ (by rw [honce w hlt]; omega), honce w hlt]
  omega

theorem halfSum_eq : halfSum w = w.toNat / 65536 + w.toNat % 65536 := by
  rw [halfSum, toNat_upper, toNat_lower]

theorem halfSum_le : halfSum w ≤ 131070 := by
  have hlt := w.isLt
  rw [halfSum_eq]
  omega

theorem total_halves : total (wireHalves w) = halfSum w := by
  have hlt := w.isLt
  rw [halfSum_eq]
  unfold wireHalves
  rw [total_cons, total_cons, total_nil, UInt16.toNat_ofNat', UInt16.toNat_ofNat', Nat.add_zero,
    Nat.mod_eq_of_lt (by omega), Nat.mod_eq_of_lt (by omega)]

theorem total_words (words : List ULONG) : total (words.flatMap wireHalves) = (words.map halfSum).sum := by
  induction words with
  | nil => rfl
  | cons w words ih => rw [List.flatMap_cons, total_append, ih, total_halves, List.map_cons, List.sum_cons]

theorem toNat_foldCarry (n : Nat) (hlt : n < 2 ^ 31) :
    foldCarry (foldCarry n) ≤ 65535 ∧ foldCarry (foldCarry n) % 65535 = n % 65535 := by
  unfold foldCarry
  omega

end words

/-! ### The time to live and the checksum -/

section countDown
variable {word2 : ULONG}

theorem toNat_decrement (word2 : ULONG) :
    (word2 - 0x01000000).toNat = (word2.toNat + 4278190080) % 4294967296 := by
  have hone : (0x01000000 : ULONG).toNat = 16777216 := rfl
  have hlt := word2.isLt
  rw [BitVec.toNat_sub, hone]
  congr 1
  omega

theorem countDown_timeToLive (word2 : ULONG) :
    (countDown word2 >>> 24).toNat = (word2 - 0x01000000).toNat / 16777216 := by
  have hupper : (0xFFFF0000 : ULONG) = ~~~lower16Mask := by decide
  unfold countDown
  dsimp only
  rw [hupper, toNat_timeToLive, toNat_join]
  omega

/-- The sum of the two halves is the same as before, whatever the time to live. --/
theorem countDown_sum (word2 : ULONG) : halfSum (countDown word2) % 65535 = halfSum word2 % 65535 := by
  rw [halfSum_eq, halfSum_eq]
  have hupper : (0xFFFF0000 : ULONG) = ~~~lower16Mask := by decide
  have hlow : (0xFFFF : ULONG) = lower16Mask := by decide
  have hlt := word2.isLt
  have hdec := toNat_decrement word2
  have hnew : ((word2 - 0x01000000 &&& 0xFFFF0000) >>> 16).toNat = (word2 - 0x01000000).toNat / 65536 := by
    have hzero := toNat_join (word2 - 0x01000000) 0
    have hmask : (word2 - 0x01000000 &&& ~~~lower16Mask ||| (0 &&& lower16Mask)) =
        word2 - 0x01000000 &&& 0xFFFF0000 := by
      rw [hupper]
      simp
    rw [hmask] at hzero
    rw [toNat_upper, hzero]
    show (_ + 0 % 65536) / 65536 = _
    omega
  unfold countDown
  dsimp only
  rw [hlow]
  generalize hsum : (~~~(word2 - 0x01000000 &&& lower16Mask) &&& lower16Mask) +
    (~~~((word2 - 0x01000000 &&& 0xFFFF0000) >>> 16 + 0x0100) &&& lower16Mask) +
    (word2 - 0x01000000 &&& 0xFFFF0000) >>> 16 = sum
  have holdM : ((word2 - 0x01000000 &&& 0xFFFF0000) >>> 16 + 0x0100).toNat =
      (word2 - 0x01000000).toNat / 65536 + 256 := by
    have hadd : (0x0100 : ULONG).toNat = 256 := rfl
    rw [BitVec.toNat_add, hnew, hadd]
    exact Nat.mod_eq_of_lt (by omega)
  have htotal : sum.toNat = (65535 - (word2 - 0x01000000).toNat % 65536) +
      (65535 - ((word2 - 0x01000000).toNat / 65536 + 256) % 65536) + (word2 - 0x01000000).toNat / 65536 := by
    have hisLt := (word2 - 0x01000000).isLt
    rw [← hsum, BitVec.toNat_add, BitVec.toNat_add, toNat_not_lower, toNat_not_lower, toNat_lower, holdM, hnew,
      Nat.mod_mod]
    omega
  obtain ⟨hle, hmod, -⟩ := toNat_foldTwice sum (by rw [htotal]; have := (word2 - 0x01000000).isLt; omega)
  obtain ⟨hi, lo, hlo, hword⟩ : ∃ hi lo, lo < 65536 ∧ word2.toNat = 65536 * hi + lo :=
    ⟨word2.toNat / 65536, word2.toNat % 65536, by omega, by omega⟩
  obtain ⟨hi', hhi', hdec'⟩ : ∃ hi', (hi' + 256 = hi ∨ hi' + 256 = hi + 65536) ∧
      (word2 - 0x01000000).toNat = 65536 * hi' + lo := by
    rcases Nat.lt_or_ge hi 256 with h | h
    · exact ⟨hi + 65280, by omega, by omega⟩
    · exact ⟨hi - 256, by omega, by omega⟩
  have hdiv : (65536 * hi' + lo) / 65536 = hi' := by omega
  have hmodlo : (65536 * hi' + lo) % 65536 = lo := by omega
  have hhi : hi < 65536 := by omega
  have hlt' : hi' < 65536 := by
    have := (word2 - 0x01000000).isLt
    omega
  rw [hdec', hdiv, hmodlo] at htotal
  rw [htotal] at hmod
  rw [hupper, toNat_join, BitVec.toNat_not, hdec', hdiv, hword]
  generalize (foldTwice sum).toNat = folded at hle hmod ⊢
  have hcomplement : (2 ^ 32 - 1 - folded) % 65536 = 65535 - folded := by omega
  rw [hcomplement]
  rcases hhi' with rfl | hwrap
  · rw [Nat.mod_eq_of_lt (by omega : hi' + 256 < 65536)] at hmod
    omega
  · have hm : (hi' + 256) % 65536 = hi := by omega
    rw [hm] at hmod
    omega

end countDown

/-! ### Fragments -/

section fragments
variable {grants : Nat → Bool} {p : ForwardPacket} {fuel size asked asked' : Nat} {remaining : Bool} {c c' : Cursor}
  {data : List UInt8}

theorem copyFragment_length (h : copyFragment grants remaining fuel size asked c = some (.done data asked' c')) :
    data.length = size := by
  induction fuel generalizing size asked c data with
  | zero => cases h
  | succ fuel ih =>
    rcases size with _ | size
    · cases h
      rfl
    · have hle : (c.left.take (size + 1)).length ≤ size + 1 := List.length_take_le ..
      have hbehind : ∀ {r : Option Copied}, r.map (Copied.behind (c.left.take (size + 1))) =
        some (.done data asked' c') →
          (∀ more, r = some (.done more asked' c') → more.length = size + 1 - (c.left.take (size + 1)).length) →
          data.length = size + 1 := by
        intro r hr hmore
        obtain ⟨r', rfl, hbehind⟩ := Option.map_eq_some_iff.mp hr
        cases r' with
        | failed => cases hbehind
        | done more =>
          cases hbehind
          rw [List.length_append, hmore more rfl]
          omega
      rw [copyFragment] at h
      split at h
      · cases h
      · split at h
        · exact hbehind h fun more hmore => ih hmore
        · split at h
          · exact hbehind h fun more hmore => ih hmore
          · split at h
            · cases h
            · exact hbehind h fun more hmore => ih hmore

/-- All that is sent are fragments of the packet. --/
theorem forwardLoop_frames {fragmentSize remainingBytes offset : Nat} {o : Outcome}
    (h : forwardLoop grants p fragmentSize fuel remainingBytes offset asked c = some o) :
    ∀ f ∈ o.sent.map Emitted.frame,
      ∃ offset remaining data, f = p.fragment offset remaining data ∧ data.length ≤ remainingBytes := by
  induction fuel generalizing remainingBytes offset asked c o with
  | zero => cases h
  | succ fuel ih =>
    rw [forwardLoop] at h
    split at h
    · cases h
      exact List.forall_mem_nil _
    · split at h
      · cases h
        exact List.forall_mem_nil _
      · dsimp only at h
        split at h
        · cases h
        · cases h
          exact List.forall_mem_nil _
        · rename_i data asked' c' hcopy
          obtain ⟨o', ho, rfl⟩ := Option.map_eq_some_iff.mp h
          refine List.forall_mem_cons.mpr ⟨⟨_, _, data, rfl, ?_⟩, fun f hf => ?_⟩
          · rw [copyFragment_length hcopy]
            split <;> omega
          · obtain ⟨offset', remaining', data', hframe, hle⟩ := ih ho f hf
            exact ⟨offset', remaining', data', hframe, Nat.le_trans hle (Nat.sub_le _ _)⟩

/-- A header that was complete but for its checksum verifies. --/
theorem withChecksum_spec (word0 word1 word2 source destination : ULONG) :
    (withChecksum word0 word1 (word2 &&& ~~~lower16Mask) source destination).toNat / 65536 = word2.toNat / 65536 ∧
      (halfSum word0 + halfSum word1 +
        halfSum (withChecksum word0 word1 (word2 &&& ~~~lower16Mask) source destination) +
        halfSum source + halfSum destination) % 65535 = 0 := by
  have h0 := halfSum_le word0
  have h1 := halfSum_le word1
  have hs := halfSum_le source
  have hd := halfSum_le destination
  have hupper : (word2 &&& ~~~lower16Mask).toNat = word2.toNat / 65536 * 65536 := by
    have hnone : word2 &&& ~~~lower16Mask ||| (0#32 &&& lower16Mask) = word2 &&& ~~~lower16Mask := by simp
    have hzero := toNat_join word2 0#32
    have hzero' : (0#32).toNat % 65536 = 0 := rfl
    rw [hnone, hzero', Nat.add_zero] at hzero
    exact hzero
  obtain ⟨high, hhigh⟩ : ∃ high, high = word2.toNat / 65536 := ⟨_, rfl⟩
  have hhighLt : high < 65536 := by
    have := word2.isLt
    omega
  have hshift : ((word2 &&& ~~~lower16Mask) >>> 16).toNat = high := by
    rw [toNat_upper, hupper, ← hhigh, Nat.mul_div_cancel _ (by decide)]
  have htwice : word2 &&& ~~~lower16Mask = word2 &&& ~~~lower16Mask &&& ~~~lower16Mask := by
    rw [BitVec.and_assoc, BitVec.and_self]
  obtain ⟨sum, hsum⟩ : ∃ sum, sum = halfSum word0 + halfSum word1 + high + halfSum source + halfSum destination :=
    ⟨_, rfl⟩
  have hbound : sum < 2 ^ 31 := by omega
  obtain ⟨hle, hmod⟩ := toNat_foldCarry sum hbound
  have hword : (withChecksum word0 word1 (word2 &&& ~~~lower16Mask) source destination).toNat =
      high * 65536 + (65535 - foldCarry (foldCarry sum)) := by
    unfold withChecksum
    dsimp only
    rw [hshift, ← hsum, htwice, BitVec.and_comm lower16Mask, toNat_join, hupper, ← hhigh,
      Nat.mul_div_cancel _ (by decide), BitVec.toNat_not, toNat_of_small (by omega)]
    congr 1
    omega
  have hdiv : (withChecksum word0 word1 (word2 &&& ~~~lower16Mask) source destination).toNat / 65536 = high := by
    rw [hword]
    omega
  have hlow : (withChecksum word0 word1 (word2 &&& ~~~lower16Mask) source destination).toNat % 65536 =
      65535 - foldCarry (foldCarry sum) := by
    rw [hword]
    omega
  refine ⟨hdiv.trans hhigh, ?_⟩
  rw [halfSum_eq (withChecksum _ _ _ _ _), hdiv, hlow]
  omega

/-- A fragment has a header of its own that is in order. --/
theorem fragment_follows {offset timeToLive : Nat} (hlength : 20 + data.length ≤ 65535)
    (halive : 1 ≤ (p.word2 >>> 24).toNat) (htime : (p.word2 >>> 24).toNat + 1 = timeToLive) :
    (p.fragment offset remaining data).Follows timeToLive := by
  have hsmall : BitVec.ofNat 32 (20 + data.length) = BitVec.ofNat 32 (20 + data.length) &&& lower16Mask := by
    refine BitVec.eq_of_toNat_eq ?_
    rw [toNat_lower, toNat_of_small (by omega), Nat.mod_eq_of_lt (by omega)]
  have hword0 : ((p.fragment offset remaining data).word0 &&& lower16Mask).toNat = 20 + data.length := by
    show ((p.word0 &&& ~~~lower16Mask ||| BitVec.ofNat 32 (20 + data.length)) &&& lower16Mask).toNat = _
    rw [toNat_lower, hsmall, toNat_join, toNat_of_small (by omega), Nat.mul_add_mod_of_lt (by omega)]
    exact Nat.mod_eq_of_lt (by omega)
  obtain ⟨hupper, hmod⟩ := withChecksum_spec (p.fragment offset remaining data).word0
    (p.fragment offset remaining data).word1 p.word2 p.source p.destination
  have hword2 : (p.fragment offset remaining data).word2 = withChecksum (p.fragment offset remaining data).word0
      (p.fragment offset remaining data).word1 (p.word2 &&& ~~~lower16Mask) p.source p.destination := rfl
  have hlive : (p.fragment offset remaining data).timeToLive = (p.word2 >>> 24).toNat := by
    rw [Frame.timeToLive, toNat_timeToLive, toNat_timeToLive, hword2]
    have hsplit : ∀ n : Nat, n / 16777216 = n / 65536 / 256 := fun n => by omega
    rw [hsplit, hupper, ← hsplit]
  refine ⟨hlive.symm ▸ htime, hlive.symm ▸ halive, hword0, ?_⟩
  have htotal : total (p.fragment offset remaining data).headerWords =
      halfSum (p.fragment offset remaining data).word0 + halfSum (p.fragment offset remaining data).word1 +
        halfSum (p.fragment offset remaining data).word2 + halfSum p.source + halfSum p.destination := by
    unfold Frame.headerWords
    rw [total_words]
    simp only [List.map_cons, List.map_nil, List.sum_cons, List.sum_nil, Nat.add_zero, ← Nat.add_assoc]
    rfl
  rw [verifies_iff, htotal, hword2]
  refine ⟨?_, hmod⟩
  have hpos : 20 + data.length ≤ halfSum (p.fragment offset remaining data).word0 := by
    rw [← hword0]
    exact Nat.le_add_left _ _
  omega

end fragments

/-! ### Reception -/

section reception
variable {env : ForwardEnvironment} {p : ReceivedPacket} {q : ForwardPacket}

theorem trimPadding_length (head : SourceBuffer) (delta : Nat) (reversed : List SourceBuffer) :
    ((trimPadding head delta reversed).1.octets ++
      (trimPadding head delta reversed).2.flatMap SourceBuffer.octets).length =
      head.octets.length + (reversed.flatMap SourceBuffer.octets).length - delta := by
  have hreverse : ∀ l : List SourceBuffer, (l.reverse.flatMap SourceBuffer.octets).length =
      (l.flatMap SourceBuffer.octets).length := by
    intro l
    rw [List.length_flatMap, List.length_flatMap, List.map_reverse, List.sum_reverse]
  induction reversed generalizing delta with
  | nil =>
    rcases delta with _ | delta
    · rw [trimPadding, List.length_append]
      rfl
    · rw [trimPadding, List.flatMap_nil, List.append_nil, List.length_take]
      simp only [List.length_nil]
      omega
  | cons last before ih =>
    rcases delta with _ | delta
    · rw [trimPadding, List.length_append, hreverse]
      rfl
    · have hlength : (last.octets ++ before.flatMap SourceBuffer.octets).length =
          last.octets.length + (before.flatMap SourceBuffer.octets).length := List.length_append
      rw [trimPadding, List.flatMap_cons, hlength]
      split
      · rename_i hgt
        rw [List.length_append, hreverse, List.flatMap_cons, List.length_append]
        dsimp only
        rw [List.length_take]
        omega
      · rename_i hle
        rw [ih]
        omega

/-- What the forwarding starts from. --/
structure Stripped (p : ReceivedPacket) (q : ForwardPacket) : Prop where
  verifies : Verifies p.headerWords
  word1 : q.word1 = p.word1
  word2 : q.word2 = p.word2
  source : q.source = p.source
  destination : q.destination = p.destination
  total : (q.word0 &&& lower16Mask).toNat = p.pktLength.toNat
  plain : p.options = [] → q.word0 = p.word0
  data : q.data.length + 4 * (5 + p.options.length) = p.pktLength.toNat
  length : q.length.toNat = 20 + q.data.length

theorem receiveToForward_stripped (hp : p.WellFormed) (h : receiveToForward env p = some q) : Stripped p q := by
  unfold receiveToForward at h
  split at h
  · cases h
  rename_i hlong
  dsimp only at h
  split at h
  · cases h
  rename_i hheader
  split at h
  · cases h
  rename_i hverifies
  split at h
  · cases h
  split at h
  · cases h
  split at h
  · cases h
  split at h
  · cases h
  cases h
  rw [not_or] at hheader
  obtain ⟨hshort, -⟩ := hheader
  have hihl := hp.header
  have hlength := hp.length
  have hihlLt : p.headerLength.toNat < 16 := by
    have hle : (p.word0 &&& ipLengthMask).toNat ≤ ipLengthMask.toNat := by
      rw [BitVec.toNat_and]
      exact Nat.and_le_right
    have hmask : ipLengthMask.toNat = 251658240 := rfl
    rw [ReceivedPacket.headerLength, toNat_timeToLive]
    omega
  have hshift : (p.headerLength <<< 2).toNat = 4 * p.headerLength.toNat := by
    rw [BitVec.toNat_shiftLeft, Nat.shiftLeft_eq]
    omega
  have hpkt : 4 * p.headerLength.toNat < p.pktLength.toNat := by
    rw [BitVec.le_def, hshift] at hshort
    omega
  have hle : p.pktLength.toNat ≤ p.length.toNat := by
    rw [BitVec.lt_def] at hlong
    omega
  have hsub : (p.length - p.pktLength).toNat = p.length.toNat - p.pktLength.toNat :=
    BitVec.toNat_sub_of_le (BitVec.le_def.mpr hle)
  have htrim := trimPadding_length p.head (p.length - p.pktLength).toNat p.tail.reverse
  have hdata : (p.stripped (trimPadding p.head (p.length - p.pktLength).toNat p.tail.reverse).1
      (trimPadding p.head (p.length - p.pktLength).toNat p.tail.reverse).2).data.length + 4 * (5 + p.options.length) =
      p.pktLength.toNat := by
    have hall : p.data.length = p.head.octets.length + (p.tail.reverse.flatMap SourceBuffer.octets).length := by
      rw [ReceivedPacket.data, List.flatMap_cons, List.length_append, List.length_flatMap, List.length_flatMap,
        List.map_reverse, List.sum_reverse]
    rw [data_eq]
    show ((trimPadding _ _ _).1.octets ++ (trimPadding _ _ _).2.flatMap SourceBuffer.octets).length + _ = _
    rw [htrim, ← hall, hsub]
    omega
  have hgt : p.headerLength > 5 ↔ 0 < p.options.length := by
    have hfive : (5 : ULONG).toNat = 5 := rfl
    show (5 : ULONG) < p.headerLength ↔ _
    rw [BitVec.lt_def]
    omega
  refine ⟨not_not.mp hverifies, rfl, rfl, rfl, rfl, ?_, fun hnil => ?_, hdata, ?_⟩
  · show ((if p.headerLength > 5 then p.word0 &&& ~~~ipLengthMask ||| 0x45000000 else p.word0) &&& lower16Mask).toNat =
      _
    split
    · have h₁ : ~~~ipLengthMask &&& lower16Mask = lower16Mask := by decide
      have h₂ : (0x45000000 : ULONG) &&& lower16Mask = 0 := by decide
      rw [BitVec.and_or_distrib_right, BitVec.and_assoc, h₁, h₂]
      exact congrArg BitVec.toNat BitVec.or_zero
    · rfl
  · show (if p.headerLength > 5 then _ else p.word0) = _
    rw [if_neg (fun h => by rw [hgt, hnil] at h; exact Nat.lt_irrefl 0 h)]
  · show (if p.headerLength > 5 then p.pktLength - (p.headerLength - 5) * 4 else p.pktLength).toNat = _
    split
    · rename_i hoptions
      have hfive : (5 : ULONG).toNat = 5 := rfl
      have hfour : (4 : ULONG).toNat = 4 := rfl
      have hextra : ((p.headerLength - 5) * 4).toNat = 4 * p.options.length := by
        rw [BitVec.toNat_mul, BitVec.toNat_sub_of_le (by rw [BitVec.le_def]; omega), hfive, hfour]
        omega
      rw [BitVec.toNat_sub_of_le (by rw [BitVec.le_def]; omega), hextra]
      omega
    · rename_i hnone
      have := hgt.not.mp hnone
      omega

end reception

/-! ### All packets -/

section packets
variable {env : ForwardEnvironment} {fuel : Nat} {p : ReceivedPacket}

/-- The field counts modulo 256, and a packet on which it would be zero is not forwarded. --/
theorem decrement_timeToLive {word2 : ULONG} (hsome : ((word2 &&& 0xFF000000) >>> 24) - 1 ≠ 0) :
    (word2 >>> 24).toNat ≠ 1 ∧
      (countDown word2 >>> 24).toNat = if (word2 >>> 24).toNat = 0 then 255 else (word2 >>> 24).toNat - 1 := by
  have hmask : (word2 &&& 0xFF000000) >>> 24 = word2 >>> 24 := by
    rw [BitVec.ushiftRight_and_distrib]
    refine BitVec.eq_of_getLsbD_eq fun i hi => ?_
    have hbits : ∀ i < 32, ((0xFF000000 : ULONG) >>> 24).getLsbD i = decide (i < 8) := by decide
    rw [BitVec.getLsbD_and, hbits i hi, BitVec.getLsbD_ushiftRight]
    by_cases h : i < 8
    · rw [decide_eq_true h, Bool.and_true]
    · rw [decide_eq_false h, Bool.and_false, BitVec.getLsbD_of_ge _ _ (by omega)]
  have hlt := word2.isLt
  rw [hmask] at hsome
  have hone : (word2 >>> 24).toNat ≠ 1 := by
    intro h
    have heq : word2 >>> 24 = 1 := BitVec.eq_of_toNat_eq h
    rw [heq] at hsome
    exact hsome rfl
  refine ⟨hone, ?_⟩
  rw [countDown_timeToLive, toNat_decrement]
  rw [toNat_timeToLive] at hone ⊢
  split <;> omega

/-- What a packet is that leaves: as it is, or in fragments. --/
theorem forwardPacketProcess_frames {q : ForwardPacket} (h : (forwardPacketProcess env fuel q).frames ≠ []) :
    ∃ outgoing, env.routeFind q.destination = some outgoing ∧ ((q.word2 &&& 0xFF000000) >>> 24) - 1 ≠ 0 ∧
      (q.length ≤ env.mtu outgoing ∧ (forwardPacketProcess env fuel q).frames =
          [⟨q.word0, q.word1, countDown q.word2, q.source, q.destination, q.data⟩] ∨
        ¬ q.length ≤ env.mtu outgoing ∧ ∃ o, (forwardPacketProcess env fuel q).frames = o.sent.map Emitted.frame ∧
          fragmentForwardPacket env.grants (env.mtu outgoing)
            { q with word2 := countDown q.word2, head := ⟨outgoing, q.head.octets⟩ } fuel = some o) := by
  unfold forwardPacketProcess at h ⊢
  split at h
  · exact absurd rfl h
  rename_i hmulticast
  rw [if_neg hmulticast]
  split at h
  · exact absurd rfl h
  rename_i hlocal
  rw [if_neg hlocal]
  split at h
  · exact absurd rfl h
  rename_i outgoing hroute
  rw [hroute]
  dsimp only at h ⊢
  split at h
  · exact absurd rfl h
  rename_i htime
  rw [if_neg htime]
  split at h
  · exact absurd rfl h
  rename_i hown
  rw [if_neg hown]
  split at h
  · exact absurd rfl h
  rename_i hadjust
  rw [if_neg hadjust]
  refine ⟨outgoing, rfl, htime, ?_⟩
  split at h
  · rename_i hfits
    rw [if_pos hfits]
    exact Or.inl ⟨hfits, rfl⟩
  rename_i hlong
  rw [if_neg hlong]
  split at h
  · rename_i hfragment
    rw [if_pos hfragment]
    refine Or.inr ⟨hlong, ?_⟩
    cases ho : fragmentForwardPacket env.grants (env.mtu outgoing)
        { q with word2 := countDown q.word2, head := ⟨outgoing, q.head.octets⟩ } fuel with
    | none =>
      rw [ho] at h
      exact absurd rfl h
    | some o => exact ⟨o, rfl, rfl⟩
  · exact absurd rfl h

/-- Of every packet that is forwarded, the headers on the wire are in order in exactly these cases. --/
theorem forward_header_iff (hp : p.WellFormed) (hsent : (forwardReceived env fuel p).frames ≠ []) :
    (∀ f ∈ (forwardReceived env fuel p).frames, f.Follows p.timeToLive) ↔
      p.timeToLive ≠ 0 ∧ (p.options = [] ∨ p.Exceeds env) := by
  unfold forwardReceived at hsent ⊢
  cases hq : receiveToForward env p with
  | none =>
    rw [hq] at hsent
    exact absurd rfl hsent
  | some q =>
    rw [hq] at hsent
    dsimp only at hsent ⊢
    have hs := receiveToForward_stripped hp hq
    obtain ⟨outgoing, hroute, htime, hframes⟩ := forwardPacketProcess_frames hsent
    obtain ⟨hone, hcount⟩ := decrement_timeToLive htime
    have htotal := hs.total
    have hdata := hs.data
    have hlength := hs.length
    have hpktLt : p.pktLength.toNat < 65536 := by
      rw [ReceivedPacket.pktLength, toNat_lower]
      omega
    rw [hs.word2] at hone hcount
    have hzero : ∀ f : Frame, f.Follows p.timeToLive → p.timeToLive ≠ 0 := fun f hf h => by
      have := hf.timeToLive
      omega
    have hexceeds : p.Exceeds env ↔ (env.mtu outgoing).toNat < q.length.toNat := by
      constructor
      · rintro ⟨outgoing', hroute', hlt⟩
        rw [← hs.destination, hroute] at hroute'
        cases hroute'
        omega
      · intro hlt
        exact ⟨outgoing, by rw [← hs.destination, hroute], by omega⟩
    rcases hframes with ⟨hfits, hframes⟩ | ⟨hlong, o, hframes, hfragments⟩
    · rw [hframes, List.forall_mem_singleton]
      rw [BitVec.le_def] at hfits
      constructor
      · intro hf
        refine ⟨hzero _ hf, Or.inl ?_⟩
        have hlen : (q.word0 &&& lower16Mask).toNat = 20 + q.data.length := hf.total
        exact List.length_eq_zero_iff.mp (by omega)
      · rintro ⟨halive, hor⟩
        have hplain : p.options = [] := hor.resolve_right fun h => by
          rw [hexceeds] at h
          omega
        have hlive : (p.word2 >>> 24).toNat ≠ 0 := halive
        rw [if_neg hlive] at hcount
        rw [hplain, List.length_nil] at hdata
        refine ⟨?_, ?_, ?_, ?_⟩
        · show (countDown q.word2 >>> 24).toNat + 1 = (p.word2 >>> 24).toNat
          rw [hs.word2, hcount]
          omega
        · show 1 ≤ (countDown q.word2 >>> 24).toNat
          rw [hs.word2, hcount]
          omega
        · show (q.word0 &&& lower16Mask).toNat = 20 + q.data.length
          omega
        · have hverifies := hs.verifies
          have hsum := countDown_sum p.word2
          unfold ReceivedPacket.headerWords at hverifies
          unfold Frame.headerWords
          rw [hplain, List.append_nil] at hverifies
          rw [verifies_iff, total_words] at hverifies ⊢
          simp only [List.map_cons, List.map_nil, List.sum_cons, List.sum_nil] at hverifies ⊢
          rw [hs.plain hplain, hs.word1, hs.word2, hs.source, hs.destination]
          have hlow : halfSum p.word0 = (p.word0 >>> 16).toNat + p.pktLength.toNat := rfl
          omega
    · rw [hframes] at hsent ⊢
      rw [BitVec.le_def] at hlong
      constructor
      · intro hall
        obtain ⟨f, hf⟩ := List.exists_mem_of_ne_nil _ hsent
        exact ⟨hzero f (hall f hf), Or.inr (hexceeds.mpr (Nat.lt_of_not_le hlong))⟩
      · rintro ⟨halive, -⟩ f hf
        have hlive : (p.word2 >>> 24).toNat ≠ 0 := halive
        rw [if_neg hlive] at hcount
        obtain ⟨offset, remaining, data, rfl, hle⟩ := forwardLoop_frames hfragments f hf
        have hremaining : (q.length - ipv4HeaderSize).toNat = q.data.length := remaining_eq hlength
        have hle' : data.length ≤ (q.length - ipv4HeaderSize).toNat := hle
        refine fragment_follows (by omega) ?_ ?_
        · show 1 ≤ (countDown q.word2 >>> 24).toNat
          rw [hs.word2, hcount]
          omega
        · show (countDown q.word2 >>> 24).toNat + 1 = (p.word2 >>> 24).toNat
          rw [hs.word2, hcount]
          omega

end packets

/-! ### Packets that go wrong -/

/-- A host that forwards from its interface to another one. --/
def ForwardEnvironment.plain : ForwardEnvironment where
  optionProcess := fun _ => true
  forHost := fun _ => false
  addressed := true
  forwarding := true
  routeFind := fun _ => some 1
  address := fun _ => 0xC0A80101
  mtu := fun _ => 1500
  dataAdjust := fun _ => true
  fragmentProcessing := true
  grants := fun _ => true

/-- A packet of eight octets that arrives with a time to live of zero. --/
def ReceivedPacket.expired : ReceivedPacket :=
  ⟨0x4500001C, 0x00010000, 0x0011A5CF, 0x0A000001, 0x0B000001, [], 28, ⟨0, List.replicate 8 1⟩, []⟩

/-- The same with a time to live of 64 and an option word that does nothing. --/
def ReceivedPacket.withOption : ReceivedPacket :=
  ⟨0x46000020, 0x00010000, 0x401162C9, 0x0A000001, 0x0B000001, [0x01010101], 32, ⟨0, List.replicate 8 1⟩, []⟩

/-- The one is forwarded with a time to live of 255, the other one with a length and a checksum that count the
    option. --/
theorem expired_forwarded :
    (∃ f, (forwardReceived .plain 100 .expired).frames = [f] ∧ f.timeToLive = 255 ∧
        ¬ f.Follows ReceivedPacket.expired.timeToLive) ∧
      ∃ f, (forwardReceived .plain 100 .withOption).frames = [f] ∧ (f.word0 &&& lower16Mask).toNat = 32 ∧
        f.data.length = 8 ∧ ¬ Verifies f.headerWords ∧ ¬ f.Follows ReceivedPacket.withOption.timeToLive := by
  refine ⟨⟨⟨0x4500001C, 0x00010000, 0xFF11A6CE, 0x0A000001, 0x0B000001, List.replicate 8 1⟩, ?_, ?_, fun h => ?_⟩,
    ⟨⟨0x45000020, 0x00010000, 0x3F1163C9, 0x0A000001, 0x0B000001, List.replicate 8 1⟩, ?_, ?_, ?_, ?_, fun h => ?_⟩⟩
  · decide +kernel
  · decide +kernel
  · have htime := h.timeToLive
    revert htime
    decide +kernel
  · decide +kernel
  · decide +kernel
  · decide +kernel
  · decide +kernel
  · have htotal := h.total
    revert htotal
    decide +kernel

/-- Without the option the header is in order. --/
theorem forward_header_iff_plain :
    (forwardReceived .plain 100
        ⟨0x4500001C, 0x00010000, 0x401165CF, 0x0A000001, 0x0B000001, [], 28, ⟨0, List.replicate 8 1⟩, []⟩).frames ≠ [] ∧
      ∀ f ∈ (forwardReceived .plain 100
          ⟨0x4500001C, 0x00010000, 0x401165CF, 0x0A000001, 0x0B000001, [], 28, ⟨0, List.replicate 8 1⟩, []⟩).frames,
        f.Follows 64 :=
  ⟨by decide +kernel, (forward_header_iff ⟨by decide +kernel, by decide +kernel⟩ (by decide +kernel)).mpr
    ⟨by decide +kernel, Or.inl rfl⟩⟩

end Netxduo.Ip
