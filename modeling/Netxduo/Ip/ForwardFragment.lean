import Mathlib
import Netxduo.Ip.Fragmentation

/-! How a forwarded packet is taken apart (`_nx_ip_fragment_forward_packet`). The loop that copies moves the pointer to
    the packet along its buffers, and what comes after the loop goes on with that pointer. Counters are not built in. -/

namespace Netxduo.Ip
open Pieces

/-! ### The source -/

/-- A buffer of the packet, with its own `nx_packet_interface_ptr`; of the first one, the octets behind the header. --/
structure SourceBuffer where
  interface : Nat
  octets : List UInt8
deriving DecidableEq, Repr

/-- A packet to be forwarded, the header in host order; `length` is `nx_packet_length`. --/
structure ForwardPacket where
  word0 : ULONG
  word1 : ULONG
  word2 : ULONG
  source : ULONG
  destination : ULONG
  length : ULONG
  head : SourceBuffer
  tail : List SourceBuffer
deriving DecidableEq, Repr

namespace ForwardPacket

def chain (p : ForwardPacket) : List SourceBuffer := p.head :: p.tail

def data (p : ForwardPacket) : List UInt8 := p.chain.flatMap SourceBuffer.octets

/-- `fragment_offset`, as it is at first. --/
def offset (p : ForwardPacket) : Nat := (p.word1 &&& ipOffsetMask).toNat * 8

/-- `more_fragment` --/
def moreFragment (p : ForwardPacket) : ULONG := p.word1 &&& ipMoreFragment

end ForwardPacket

/-- The two halves of a word, as the sum for the checksum takes them. --/
def halfSum (w : ULONG) : Nat := (w >>> 16).toNat + (w &&& lower16Mask).toNat

/-- The carry bits are added in. --/
def foldCarry (n : Nat) : Nat := n / 65536 + n % 65536

/-- The second word of a header that is complete but for its checksum. --/
def withChecksum (word0 word1 word2 source destination : ULONG) : ULONG :=
  let checksum := halfSum word0 + halfSum word1 + (word2 >>> 16).toNat + halfSum source + halfSum destination
  word2 ||| (lower16Mask &&& ~~~BitVec.ofNat 32 (foldCarry (foldCarry checksum)))

/-- The header of a fragment; `remaining` says that octets for other fragments remain. --/
def ForwardPacket.fragment (p : ForwardPacket) (offset : Nat) (remaining : Bool) (data : List UInt8) : Frame :=
  let word0 := p.word0 &&& ~~~lower16Mask ||| BitVec.ofNat 32 (20 + data.length)
  let word1 :=
    p.word1 &&& 0xFFFF0000 ||| BitVec.ofNat 32 (offset / 8) ||| (if remaining then ipMoreFragment else p.moreFragment)
  { word0 := word0
    word1 := word1
    word2 := withChecksum word0 word1 (p.word2 &&& ~~~lower16Mask) p.source p.destination
    source := p.source
    destination := p.destination
    data := data }

/-- Where the copying stands: `source_packet`, the octets from `source_ptr` to its append pointer, and the buffers
    behind it. --/
structure Cursor where
  packet : SourceBuffer
  left : List UInt8
  next : List SourceBuffer
deriving DecidableEq, Repr

def Cursor.chain (c : Cursor) : List SourceBuffer := c.packet :: c.next

/-- How the copying of one fragment ends. --/
inductive Copied where
  | done (data : List UInt8) (asked : Nat) (c : Cursor)
  | failed (c : Cursor)
deriving DecidableEq, Repr

/-- Octets were copied before. --/
def Copied.behind (data : List UInt8) : Copied → Copied
  | .done more asked c => .done (data ++ more) asked c
  | .failed c => .failed c

/-- The loop that copies `size` octets. `grants` says which of the calls that may take a packet from the pool succeed;
    to append nothing takes none. --/
def copyFragment (grants : Nat → Bool) (remaining : Bool) : Nat → Nat → Nat → Cursor → Option Copied
  | 0, _, _, _ => none
  | _ + 1, 0, asked, c => some (.done [] asked c)
  | fuel + 1, size + 1, asked, c =>
    let data := c.left.take (size + 1)
    if data ≠ [] ∧ grants asked = false then some (.failed c)
    else if data.length ≠ c.left.length then
      (copyFragment grants remaining fuel (size + 1 - data.length) (asked + 1)
        ⟨c.packet, c.left.drop (size + 1), c.next⟩).map (Copied.behind data)
    else
      match c.next with
      | next :: rest =>
        (copyFragment grants remaining fuel (size + 1 - data.length) (asked + 1) ⟨next, next.octets, rest⟩).map
          (Copied.behind data)
      | [] =>
        if remaining then some (.failed c)
        else (copyFragment grants remaining fuel (size + 1 - data.length) (asked + 1) c).map (Copied.behind data)

/-- A fragment as the driver gets it: `interface` is its own `nx_packet_interface_ptr`. --/
structure Emitted where
  interface : Nat
  frame : Frame
deriving DecidableEq, Repr

/-- What a call leaves: the fragments it sent, the buffers of the source it released, and whether it counted as a
    success. --/
structure Outcome where
  sent : List Emitted
  released : List SourceBuffer
  successful : Bool
deriving DecidableEq, Repr

/-- Another fragment was sent before. --/
def Outcome.after (e : Emitted) (o : Outcome) : Outcome := ⟨e :: o.sent, o.released, o.successful⟩

/-- The loop over the fragments, each of `fragmentSize` octets but the last. --/
def forwardLoop (grants : Nat → Bool) (p : ForwardPacket) (fragmentSize : Nat) :
    Nat → Nat → Nat → Nat → Cursor → Option Outcome
  | 0, _, _, _, _ => none
  | fuel + 1, remainingBytes, offset, asked, c =>
    if remainingBytes = 0 then some ⟨[], c.chain, true⟩
    else if grants asked = false then some ⟨[], c.chain, false⟩
    else
      let size := if remainingBytes > fragmentSize then fragmentSize else remainingBytes
      let remaining := decide (remainingBytes - size ≠ 0)
      match copyFragment grants remaining fuel size (asked + 1) c with
      | none => none
      | some (.failed c') => some ⟨[], c'.chain, false⟩
      | some (.done data asked' c') =>
        (forwardLoop grants p fragmentSize fuel (remainingBytes - size) (offset + fragmentSize) asked' c').map
          (Outcome.after ⟨c.packet.interface, p.fragment offset remaining data⟩)

/-- `fragment_size` --/
def fragmentSize (mtu : ULONG) : Nat := ((mtu - ipv4HeaderSize) / 8 * 8).toNat

/-- `_nx_ip_fragment_forward_packet`, where the interface of the packet has the MTU. --/
def fragmentForwardPacket (grants : Nat → Bool) (mtu : ULONG) (p : ForwardPacket) (fuel : Nat) : Option Outcome :=
  forwardLoop grants p (fragmentSize mtu) fuel (p.length - ipv4HeaderSize).toNat p.offset 0
    ⟨p.head, p.head.octets, p.tail⟩

/-! ### What it is for -/

/-- Frames that carry `data` in order, from a position of the packet on. --/
def Covers (p : ForwardPacket) : Nat → List UInt8 → List Frame → Prop
  | _, _, [] => True
  | position, data, f :: frames =>
    f.data ≠ [] ∧ f.data <+: data ∧ f.piece.start = p.offset + position ∧
      f.piece.last = (decide (f.data.length = data.length) && decide (p.moreFragment = 0)) ∧
      Covers p (position + f.data.length) (data.drop f.data.length) frames

/-- The packet is passed on in fragments, and given back as a whole. --/
structure Refragmented (p : ForwardPacket) (o : Outcome) : Prop where
  interface : ∀ e ∈ o.sent, e.interface = p.head.interface
  covers : Covers p 0 p.data (o.sent.map Emitted.frame)
  complete : o.successful = true → o.sent.flatMap (fun e => e.frame.data) = p.data
  released : o.released = p.chain

/-- How many calls may take a packet before the first buffer is copied. --/
def callsBefore (fragmentSize left : Nat) : Nat := if left = 0 then 1 else 2 * ((left - 1) / fragmentSize + 1)

/-- One of the calls before the first buffer is copied fails. --/
def RefusedFirst (grants : Nat → Bool) (fragmentSize asked left : Nat) : Prop :=
  ∃ k, asked ≤ k ∧ k < asked + callsBefore fragmentSize left ∧ grants k = false

/-- No fragment that gets its packets starts beyond what the offset field holds. --/
def OffsetsFit (grants : Nat → Bool) (fragmentSize asked offset length : Nat) : Prop :=
  ∀ i, i * fragmentSize < length → (∀ k, asked ≤ k → k < asked + 2 * (i + 1) → grants k = true) →
    offset + i * fragmentSize < 65536

/-! ### The header of a fragment -/

section header
variable {p : ForwardPacket} {offset : Nat} {remaining : Bool} {data : List UInt8}

theorem moreFragment_cases (w : ULONG) : w &&& ipMoreFragment = 0 ∨ w &&& ipMoreFragment = ipMoreFragment := by
  have hbit : ∀ i < 32, (w &&& ipMoreFragment).getLsbD i = (decide (i = 13) && w.getLsbD 13) := by
    intro i hi
    have hmask : ∀ i < 32, ipMoreFragment.getLsbD i = decide (i = 13) := by decide
    rw [BitVec.getLsbD_and, hmask i hi]
    by_cases h : i = 13
    · subst h
      simp
    · simp [h]
  cases hw : w.getLsbD 13 with
  | false =>
    refine Or.inl (BitVec.eq_of_getLsbD_eq fun i hi => ?_)
    rw [hbit i hi, hw, Bool.and_false]
    exact BitVec.getLsbD_zero.symm
  | true =>
    refine Or.inr (BitVec.eq_of_getLsbD_eq fun i hi => ?_)
    have hmask : ∀ i < 32, ipMoreFragment.getLsbD i = decide (i = 13) := by decide
    rw [hbit i hi, hw, Bool.and_true, hmask i hi]

/-- The packet as the send path would see it, with the fragment bits cleared. --/
def ForwardPacket.outgoing (p : ForwardPacket) : Outgoing :=
  ⟨p.word0, p.word1 &&& 0xFFFF0000, p.word2, p.source, p.destination, p.length, []⟩

theorem fragment_word1_eq (p : ForwardPacket) (offset : Nat) (remaining : Bool) (data : List UInt8) :
    (p.fragment offset remaining data).word1 =
      (p.outgoing.fragment offset (remaining || !decide (p.moreFragment = 0)) data).word1 := by
  have hmore : (if remaining = true then ipMoreFragment else p.moreFragment) =
      if (remaining || !decide (p.moreFragment = 0)) = true then ipMoreFragment else 0 := by
    cases remaining with
    | true => rfl
    | false =>
      rcases moreFragment_cases p.word1 with h | h
      · have hp : p.moreFragment = 0 := h
        rw [hp]
        rfl
      · have hp : p.moreFragment = ipMoreFragment := h
        rw [hp]
        rfl
  show _ ||| (if remaining = true then ipMoreFragment else p.moreFragment) = _
  rw [hmore]
  rfl

theorem fragment_fields (hoffset : 8 ∣ offset) (hlt : offset < 65536) :
    (p.fragment offset remaining data).piece.start = offset ∧
      (p.fragment offset remaining data).piece.last = (!remaining && decide (p.moreFragment = 0)) := by
  have hcleared : p.outgoing.word1 &&& ipFragmentMask = 0 := by
    show p.word1 &&& 0xFFFF0000 &&& ipFragmentMask = 0
    rw [BitVec.and_assoc]
    exact BitVec.and_zero
  obtain ⟨hstart, hmore, -⟩ := @fragment_word1 p.outgoing offset (remaining || !decide (p.moreFragment = 0)) data
    hcleared (by omega)
  rw [← fragment_word1_eq] at hstart hmore
  refine ⟨?_, ?_⟩
  · show 8 * ((p.fragment offset remaining data).word1 &&& ipOffsetMask).toNat = offset
    rw [hstart]
    omega
  · show (!((p.fragment offset remaining data).word1 &&& ipMoreFragment != 0)) = _
    rw [hmore, Bool.not_or, Bool.not_not]

/-- The offset field holds thirteen bits. --/
theorem piece_start_lt (f : Frame) : f.piece.start < 65536 := by
  have hle : (f.word1 &&& ipOffsetMask).toNat ≤ ipOffsetMask.toNat := by
    rw [BitVec.toNat_and]
    exact Nat.and_le_right
  have hmask : ipOffsetMask.toNat = 8191 := rfl
  show 8 * (f.word1 &&& ipOffsetMask).toNat < 65536
  omega

theorem offset_dvd (p : ForwardPacket) : 8 ∣ p.offset := Dvd.intro_left _ rfl

theorem fragmentSize_dvd (mtu : ULONG) : 8 ∣ fragmentSize mtu := by
  have hlt := (mtu - ipv4HeaderSize).isLt
  have hsize : fragmentSize mtu = (mtu - ipv4HeaderSize).toNat / 8 * 8 := by
    unfold fragmentSize
    rw [BitVec.toNat_mul, BitVec.toNat_udiv]
    exact Nat.mod_eq_of_lt (Nat.lt_of_le_of_lt (Nat.div_mul_le_self _ _) hlt)
  rw [hsize]
  exact Nat.dvd_mul_left _ _

end header

/-! ### Copying -/

section copying
variable {grants : Nat → Bool} {remaining : Bool} {fuel size asked : Nat} {c : Cursor}

/-- A fragment that ends within the buffer takes two passes at most. --/
theorem copyFragment_within {r : Copied} (h : copyFragment grants remaining fuel size asked c = some r)
    (hsize : 0 < size) (hlt : size < c.left.length) :
    r = if grants asked then .done (c.left.take size) (asked + 1) ⟨c.packet, c.left.drop size,
      c.next⟩ else .failed c := by
  rcases fuel with _ | fuel
  · cases h
  obtain ⟨size, rfl⟩ : ∃ s, size = s + 1 := ⟨size - 1, by omega⟩
  have hlength : (c.left.take (size + 1)).length = size + 1 := List.length_take_of_le (Nat.le_of_lt hlt)
  have hne : c.left.take (size + 1) ≠ [] := by
    intro hnil
    rw [hnil] at hlength
    cases hlength
  rw [copyFragment] at h
  cases hgrant : grants asked with
  | false =>
    rw [if_pos ⟨hne, hgrant⟩] at h
    cases h
    rfl
  | true =>
    rw [if_neg (fun h => by rw [hgrant] at h; cases h.2), if_pos (by omega), hlength, Nat.sub_self] at h
    rcases fuel with _ | fuel
    · cases h
    · rw [copyFragment, Option.map_some, Copied.behind, List.append_nil] at h
      cases h
      rfl

theorem copyFragment_within_some (hfuel : 2 ≤ fuel) (hsize : 0 < size) (hlt : size < c.left.length) :
    ∃ r, copyFragment grants remaining fuel size asked c = some r := by
  obtain ⟨fuel, rfl⟩ : ∃ f, fuel = f + 2 := ⟨fuel - 2, by omega⟩
  obtain ⟨size, rfl⟩ : ∃ s, size = s + 1 := ⟨size - 1, by omega⟩
  have hlength : (c.left.take (size + 1)).length = size + 1 := List.length_take_of_le (Nat.le_of_lt hlt)
  rw [copyFragment]
  split
  · exact ⟨_, rfl⟩
  · rw [if_pos (by omega), hlength, Nat.sub_self, copyFragment]
    exact ⟨_, rfl⟩

/-- A fragment that takes the rest of the last buffer. --/
theorem copyFragment_last (hfuel : 2 ≤ fuel) (hsize : 0 < c.left.length) (hnext : c.next = []) :
    copyFragment grants false fuel c.left.length asked c =
      if grants asked then some (.done c.left (asked + 1) c) else some (.failed c) := by
  obtain ⟨fuel, rfl⟩ : ∃ f, fuel = f + 2 := ⟨fuel - 2, by omega⟩
  obtain ⟨size, hlength⟩ : ∃ s, c.left.length = s + 1 := ⟨c.left.length - 1, by omega⟩
  have htake : c.left.take (size + 1) = c.left := List.take_of_length_le (by omega)
  have hne : c.left ≠ [] := List.ne_nil_of_length_pos hsize
  rw [hlength, copyFragment, htake]
  cases hgrant : grants asked with
  | false => rw [if_pos ⟨hne, rfl⟩, if_neg Bool.false_ne_true]
  | true =>
    rw [if_neg (fun h => by cases h.2), if_neg (fun h => h rfl), hnext, hlength, Nat.sub_self, copyFragment]
    simp [Copied.behind]

theorem copyFragment_refused (hfuel : 1 ≤ fuel) (hsize : 0 < size) (hleft : 0 < c.left.length)
    (hno : grants asked = false) : copyFragment grants remaining fuel size asked c = some (.failed c) := by
  obtain ⟨fuel, rfl⟩ : ∃ f, fuel = f + 1 := ⟨fuel - 1, by omega⟩
  obtain ⟨size, rfl⟩ : ∃ s, size = s + 1 := ⟨size - 1, by omega⟩
  have hne : c.left.take (size + 1) ≠ [] := by
    intro hnil
    have hlength := congrArg List.length hnil
    rw [List.length_take, List.length_nil] at hlength
    omega
  rw [copyFragment]
  exact if_pos ⟨hne, hno⟩

/-- The buffers behind the pointer, when the copying ends. --/
def Copied.behindPointer : Copied → Nat
  | .done _ _ c => c.next.length
  | .failed c => c.next.length

theorem behindPointer_behind (data : List UInt8) (r : Copied) : (r.behind data).behindPointer = r.behindPointer := by
  cases r with
  | done => rfl
  | failed => rfl

/-- The pointer only moves on. --/
theorem copyFragment_behindPointer {r : Copied} (h : copyFragment grants remaining fuel size asked c = some r) :
    r.behindPointer ≤ c.next.length := by
  induction fuel generalizing size asked c r with
  | zero => cases h
  | succ fuel ih =>
    rcases size with _ | size
    · cases h
      exact Nat.le_refl _
    · rw [copyFragment] at h
      split at h
      · cases h
        exact Nat.le_refl _
      · split at h
        · obtain ⟨r', hr, rfl⟩ := Option.map_eq_some_iff.mp h
          have hle := ih hr
          rw [behindPointer_behind]
          exact hle
        · split at h
          · rename_i next rest hnext
            obtain ⟨r', hr, rfl⟩ := Option.map_eq_some_iff.mp h
            have hle := ih hr
            rw [behindPointer_behind, hnext]
            exact Nat.le_succ_of_le hle
          · split at h
            · cases h
              exact Nat.le_refl _
            · obtain ⟨r', hr, rfl⟩ := Option.map_eq_some_iff.mp h
              rw [behindPointer_behind]
              exact ih hr

/-- Where the buffer is copied to its end and another one follows, the pointer moves to it. --/
theorem copyFragment_leaves {r : Copied} (h : copyFragment grants remaining fuel size asked c = some r)
    (hsize : 0 < size) (hle : c.left.length ≤ size) (hgrant : c.left ≠ [] → grants asked = true)
    (hnext : c.next ≠ []) : r.behindPointer < c.next.length := by
  rcases fuel with _ | fuel
  · cases h
  obtain ⟨size, rfl⟩ : ∃ s, size = s + 1 := ⟨size - 1, by omega⟩
  have htake : c.left.take (size + 1) = c.left := List.take_of_length_le hle
  rw [copyFragment, htake, if_neg (fun hf => by rw [hgrant hf.1] at hf; cases hf.2), if_neg (fun hf => hf rfl)] at h
  split at h
  · rename_i next rest hcons
    obtain ⟨r', hr, rfl⟩ := Option.map_eq_some_iff.mp h
    have hle := copyFragment_behindPointer hr
    rw [behindPointer_behind, hcons]
    exact Nat.lt_succ_of_le hle
  · rename_i hnil
    exact absurd hnil hnext

end copying

/-! ### The loop -/

section loop
variable {grants : Nat → Bool} {p : ForwardPacket} {fragmentSize fuel remainingBytes offset asked position : Nat}
  {c : Cursor} {o : Outcome}

/-- What is given back lies behind the pointer. --/
theorem forwardLoop_released (h : forwardLoop grants p fragmentSize fuel remainingBytes offset asked c = some o) :
    o.released.length ≤ c.next.length + 1 := by
  induction fuel generalizing remainingBytes offset asked c o with
  | zero => cases h
  | succ fuel ih =>
    rw [forwardLoop] at h
    split at h
    · cases h
      exact Nat.le_refl _
    · split at h
      · cases h
        exact Nat.le_refl _
      · dsimp only at h
        split at h
        · cases h
        · rename_i c' hcopy
          cases h
          exact Nat.succ_le_succ (copyFragment_behindPointer hcopy)
        · rename_i data asked' c' hcopy
          obtain ⟨o', ho, rfl⟩ := Option.map_eq_some_iff.mp h
          have hmoved : c'.next.length ≤ c.next.length := copyFragment_behindPointer hcopy
          have hle := ih ho
          show o'.released.length ≤ c.next.length + 1
          omega

theorem callsBefore_pos (fragmentSize left : Nat) : 1 ≤ callsBefore fragmentSize left := by
  unfold callsBefore
  split
  · exact Nat.le_refl _
  · exact Nat.mul_pos (by decide) (Nat.succ_pos _)

theorem callsBefore_two (fragmentSize : Nat) {left : Nat} (hpos : 0 < left) : 2 ≤ callsBefore fragmentSize left := by
  unfold callsBefore
  rw [if_neg (Nat.ne_of_gt hpos)]
  exact Nat.le_mul_of_pos_right 2 (Nat.succ_pos _)

theorem callsBefore_step {left : Nat} (hsize : 0 < fragmentSize) (hlt : fragmentSize < left) :
    callsBefore fragmentSize left = 2 + callsBefore fragmentSize (left - fragmentSize) := by
  have hdiv : (left - 1) / fragmentSize = (left - fragmentSize - 1) / fragmentSize + 1 := by
    have hsplit : left - 1 = left - fragmentSize - 1 + fragmentSize := by omega
    rw [hsplit, Nat.add_div_right _ hsize]
  unfold callsBefore
  rw [if_neg (by omega), if_neg (by omega), hdiv]
  omega

theorem RefusedFirst.step {left : Nat} (hsize : 0 < fragmentSize) (hlt : fragmentSize < left)
    (h₁ : grants asked = true) (h₂ : grants (asked + 1) = true) :
    RefusedFirst grants fragmentSize asked left ↔
      RefusedFirst grants fragmentSize (asked + 2) (left - fragmentSize) := by
  have hcalls := callsBefore_step hsize hlt
  constructor
  · rintro ⟨k, hle, hk, hno⟩
    refine ⟨k, ?_, by omega, hno⟩
    by_contra hshort
    rcases (by omega : k = asked ∨ k = asked + 1) with rfl | rfl
    · rw [h₁] at hno
      cases hno
    · rw [h₂] at hno
      cases hno
  · rintro ⟨k, hle, hk, hno⟩
    exact ⟨k, by omega, by omega, hno⟩

/-- Where the first buffer is copied and another one follows, the first buffer is not given back. --/
theorem forwardLoop_leaves (hsize : 0 < fragmentSize) (hnext : c.next ≠ [])
    (hgranted : ¬ RefusedFirst grants fragmentSize asked c.left.length)
    (hremaining : c.left.length + (c.next.flatMap SourceBuffer.octets).length = remainingBytes)
    (hpos : 0 < remainingBytes)
    (h : forwardLoop grants p fragmentSize fuel remainingBytes offset asked c = some o) :
    o.released.length ≤ c.next.length := by
  induction fuel generalizing remainingBytes offset asked c o with
  | zero => cases h
  | succ fuel ih =>
    have hcalls : ∀ k, asked ≤ k → k < asked + callsBefore fragmentSize c.left.length → grants k = true := by
      intro k hle hk
      cases hg : grants k with
      | true => rfl
      | false => exact absurd ⟨k, hle, hk, hg⟩ hgranted
    have hone := callsBefore_pos fragmentSize c.left.length
    have hfirst : grants asked = true := hcalls asked (Nat.le_refl _) (by omega)
    have hsecond : c.left ≠ [] → grants (asked + 1) = true := by
      intro hne
      have htwo := callsBefore_two fragmentSize (List.length_pos_iff.mpr hne)
      exact hcalls (asked + 1) (by omega) (by omega)
    rw [forwardLoop, if_neg (by omega), if_neg (by rw [hfirst]; exact Bool.true_eq_false_eq_False)] at h
    dsimp only at h
    by_cases hwithin : (if remainingBytes > fragmentSize then fragmentSize else remainingBytes) < c.left.length
    · -- The fragment ends within the buffer.
      have hlimit : remainingBytes > fragmentSize := by
        by_contra hle
        rw [if_neg hle] at hwithin
        omega
      rw [if_pos hlimit] at hwithin h
      have hne : c.left ≠ [] := List.ne_nil_of_length_pos (by omega)
      split at h
      · cases h
      · rename_i c' hcopy
        have hr := copyFragment_within hcopy hsize hwithin
        rw [if_pos (hsecond hne)] at hr
        cases hr
      · rename_i data asked' c' hcopy
        obtain ⟨o', ho, rfl⟩ := Option.map_eq_some_iff.mp h
        have hr := copyFragment_within hcopy hsize hwithin
        rw [if_pos (hsecond hne)] at hr
        cases hr
        have hdrop : (c.left.drop fragmentSize).length = c.left.length - fragmentSize := List.length_drop ..
        have hstep := (RefusedFirst.step hsize hwithin hfirst (hsecond hne)).not.mp hgranted
        rw [← hdrop] at hstep
        have hrest : (c.left.drop fragmentSize).length + (c.next.flatMap SourceBuffer.octets).length =
            remainingBytes - fragmentSize := by omega
        have hle := ih (c := ⟨c.packet, c.left.drop fragmentSize, c.next⟩) hnext hstep hrest (by omega) ho
        exact hle
    · -- The fragment takes the rest of the buffer.
      have hle := Nat.le_of_not_lt hwithin
      have hsome : 0 < (if remainingBytes > fragmentSize then fragmentSize else remainingBytes) := by
        split <;> omega
      split at h
      · cases h
      · rename_i c' hcopy
        cases h
        exact copyFragment_leaves hcopy hsome hle hsecond hnext
      · rename_i data asked' c' hcopy
        obtain ⟨o', ho, rfl⟩ := Option.map_eq_some_iff.mp h
        have hmoved : c'.next.length < c.next.length := copyFragment_leaves hcopy hsome hle hsecond hnext
        have hle := forwardLoop_released ho
        show o'.released.length ≤ c.next.length
        omega

theorem offsetsFit_refused {k length : Nat} (hle : asked ≤ k) (hk : k < asked + 2) (hno : grants k = false) :
    OffsetsFit grants fragmentSize asked offset length := by
  intro i _ hall
  have hyes := hall k hle (by omega)
  rw [hno] at hyes
  cases hyes

theorem offsetsFit_step {length : Nat} (hlong : fragmentSize < length) (h₁ : grants asked = true)
    (h₂ : grants (asked + 1) = true) :
    OffsetsFit grants fragmentSize asked offset length ↔
      offset < 65536 ∧ OffsetsFit grants fragmentSize (asked + 2) (offset + fragmentSize) (length - fragmentSize) := by
  constructor
  · intro h
    refine ⟨?_, fun i hi hall => ?_⟩
    · have hzero := h 0 (by omega) fun k hle hk => by
        rcases (by omega : k = asked ∨ k = asked + 1) with rfl | rfl
        · exact h₁
        · exact h₂
      omega
    · have hmul : (i + 1) * fragmentSize = i * fragmentSize + fragmentSize := Nat.succ_mul ..
      have hnext := h (i + 1) (by omega) fun k hle hk => by
        rcases (by omega : k = asked ∨ k = asked + 1 ∨ asked + 2 ≤ k) with rfl | rfl | hle
        · exact h₁
        · exact h₂
        · exact hall k hle (by omega)
      omega
  · rintro ⟨hoffset, h⟩ i hi hall
    rcases i with _ | i
    · omega
    · have hmul : (i + 1) * fragmentSize = i * fragmentSize + fragmentSize := Nat.succ_mul ..
      have hnext := h i (by omega) fun k hle hk => hall k (by omega) (by omega)
      omega

theorem offsetsFit_last {length : Nat} (hpos : 0 < length) (hlong : length ≤ fragmentSize) (h₁ : grants asked = true)
    (h₂ : grants (asked + 1) = true) : OffsetsFit grants fragmentSize asked offset length ↔ offset < 65536 := by
  constructor
  · intro h
    have hzero := h 0 (by omega) fun k hle hk => by
      rcases (by omega : k = asked ∨ k = asked + 1) with rfl | rfl
      · exact h₁
      · exact h₂
    omega
  · intro hoffset i hi _
    rcases i with _ | i
    · omega
    · have hmul : (i + 1) * fragmentSize = i * fragmentSize + fragmentSize := Nat.succ_mul ..
      omega

/-- One more fragment in front. --/
theorem covers_cons {data piece : List UInt8} {frames : List Frame} {remaining : Bool} (hoffset : 8 ∣ p.offset +
    position)
    (hne : piece ≠ []) (hfront : piece <+: data) (hlast : remaining = !decide (piece.length = data.length)) :
    Covers p position data (p.fragment (p.offset + position) remaining piece :: frames) ↔
      p.offset + position < 65536 ∧ Covers p (position + piece.length) (data.drop piece.length) frames := by
  rw [Covers]
  constructor
  · rintro ⟨-, -, hstart, -, hrest⟩
    have hlt := piece_start_lt (p.fragment (p.offset + position) remaining piece)
    rw [hstart] at hlt
    exact ⟨hlt, hrest⟩
  · rintro ⟨hlt, hrest⟩
    obtain ⟨hstart, hfinal⟩ := @fragment_fields p (p.offset + position) remaining piece hoffset hlt
    refine ⟨hne, hfront, hstart, ?_, hrest⟩
    rw [hfinal, hlast, Bool.not_not]
    rfl

/-- As long as the pointer stays, the fragments are as they should be. --/
theorem forwardLoop_stays (hsize : 0 < fragmentSize) (hdvd : 8 ∣ fragmentSize) (hoffset : 8 ∣ p.offset + position)
    (hstay : c.next = [] ∨ RefusedFirst grants fragmentSize asked c.left.length)
    (hremaining : (c.left ++ c.next.flatMap SourceBuffer.octets).length = remainingBytes)
    (hfuel : remainingBytes + 1 < fuel) :
    ∃ o, forwardLoop grants p fragmentSize fuel remainingBytes (p.offset + position) asked c = some o ∧
      o.released = c.chain ∧ (∀ e ∈ o.sent, e.interface = c.packet.interface) ∧
      (o.successful = true → o.sent.flatMap (fun e => e.frame.data) = c.left ++ c.next.flatMap SourceBuffer.octets) ∧
      (Covers p position (c.left ++ c.next.flatMap SourceBuffer.octets) (o.sent.map Emitted.frame) ↔
        OffsetsFit grants fragmentSize asked (p.offset + position) remainingBytes) := by
  induction fuel generalizing remainingBytes position asked c with
  | zero => exact absurd hfuel (Nat.not_lt_zero _)
  | succ fuel ih =>
    rw [forwardLoop]
    by_cases hnone : remainingBytes = 0
    · rw [if_pos hnone, List.length_eq_zero_iff.mp (hremaining.trans hnone)]
      refine ⟨_, rfl, rfl, List.forall_mem_nil _, fun _ => rfl, ⟨fun _ i hi => ?_, fun _ => trivial⟩⟩
      omega
    rw [if_neg hnone]
    cases hfirst : grants asked with
    | false =>
      rw [if_pos rfl]
      refine ⟨_, rfl, rfl, List.forall_mem_nil _, fun hf => ?_, ⟨fun _ => ?_, fun _ => trivial⟩⟩
      · cases hf
      · exact offsetsFit_refused (Nat.le_refl _) (by omega) hfirst
    | true =>
      rw [if_neg (by decide)]
      have hlength := hremaining
      rw [List.length_append] at hlength
      have hpos : 0 < c.left.length := by
        by_contra hzero
        rcases hstay with hnil | ⟨k, hle, hk, hno⟩
        · rw [hnil, List.flatMap_nil, List.length_nil] at hlength
          omega
        · have hcalls : callsBefore fragmentSize c.left.length = 1 := if_pos (by omega)
          rw [hcalls] at hk
          obtain rfl : k = asked := by omega
          rw [hfirst] at hno
          cases hno
      have hrefused : grants (asked + 1) = false →
          OffsetsFit grants fragmentSize asked (p.offset + position) remainingBytes := fun hno =>
        offsetsFit_refused (Nat.le_succ _) (by omega) hno
      dsimp only
      by_cases hwithin : (if remainingBytes > fragmentSize then fragmentSize else remainingBytes) < c.left.length
      · have hlimit : remainingBytes > fragmentSize := by
          by_contra hle
          rw [if_neg hle] at hwithin
          omega
        rw [if_pos hlimit] at hwithin ⊢
        obtain ⟨r, hcopy⟩ := @copyFragment_within_some grants (decide (remainingBytes - fragmentSize ≠ 0)) fuel
          fragmentSize (asked + 1) c (by omega) hsize hwithin
        have hr := copyFragment_within hcopy hsize hwithin
        rw [hcopy]
        cases hsecond : grants (asked + 1) with
        | false =>
          rw [hsecond, if_neg Bool.false_ne_true] at hr
          subst hr
          refine ⟨_, rfl, rfl, List.forall_mem_nil _, fun hf => ?_, ⟨fun _ => hrefused hsecond, fun _ => trivial⟩⟩
          cases hf
        | true =>
          rw [hsecond, if_pos rfl] at hr
          subst hr
          have htake : (c.left.take fragmentSize).length = fragmentSize := List.length_take_of_le (Nat.le_of_lt hwithin)
          have hdrop : (c.left.drop fragmentSize).length = c.left.length - fragmentSize := List.length_drop ..
          have hsplit : c.left ++ c.next.flatMap SourceBuffer.octets = c.left.take fragmentSize ++
              (c.left.drop fragmentSize ++ c.next.flatMap SourceBuffer.octets) := by
            rw [← List.append_assoc, List.take_append_drop]
          have hstay' : c.next = [] ∨
              RefusedFirst grants fragmentSize (asked + 2) (c.left.drop fragmentSize).length := by
            rw [hdrop]
            exact hstay.imp_right (RefusedFirst.step hsize hwithin hfirst hsecond).mp
          have hrest : (c.left.drop fragmentSize ++ c.next.flatMap SourceBuffer.octets).length =
              remainingBytes - fragmentSize := by
            rw [List.length_append, hdrop]
            omega
          have hnext : 8 ∣ p.offset + (position + fragmentSize) := by omega
          obtain ⟨o, ho, hreleased, hinterface, hdata, hcovers⟩ :=
            ih (c := ⟨c.packet, c.left.drop fragmentSize, c.next⟩) hnext hstay' hrest (by omega)
          rw [← Nat.add_assoc] at ho hcovers
          refine ⟨o.after ⟨c.packet.interface, p.fragment (p.offset + position)
            (decide (remainingBytes - fragmentSize ≠ 0)) (c.left.take fragmentSize)⟩, ?_, hreleased, ?_, ?_, ?_⟩
          · show (forwardLoop _ _ _ _ _ _ _ _).map _ = _
            rw [ho]
            rfl
          · exact List.forall_mem_cons.mpr ⟨rfl, hinterface⟩
          · intro hsuccess
            rw [hsplit]
            exact congrArg (c.left.take fragmentSize ++ ·) (hdata hsuccess)
          · have hne : c.left.take fragmentSize ≠ [] := by
              intro hnil
              rw [hnil, List.length_nil] at htake
              omega
            rw [offsetsFit_step hlimit hfirst hsecond, ← hcovers, hsplit]
            show Covers p position _ (p.fragment _ _ _ :: _) ↔ _
            rw [covers_cons hoffset hne (List.prefix_append ..) ?_, List.drop_left, htake]
            rw [← hsplit, hremaining, htake]
            by_cases heq : fragmentSize = remainingBytes
            · omega
            · rw [decide_eq_false heq, decide_eq_true (by omega)]
              rfl
      · -- The fragment takes the rest of the buffer: it is the only one, or its packet is refused.
        have hle := Nat.le_of_not_lt hwithin
        rcases hstay with hnil | ⟨k, hlek, hk, hno⟩
        · rw [hnil, List.flatMap_nil, List.length_nil] at hlength
          have hall : (if remainingBytes > fragmentSize then fragmentSize else remainingBytes) = c.left.length := by
            rcases Nat.lt_or_ge fragmentSize remainingBytes with hgt | hge
            · rw [if_pos hgt] at hle ⊢
              omega
            · rw [if_neg (Nat.not_lt.mpr hge)] at hle ⊢
              omega
          have hnomore : decide (remainingBytes - c.left.length ≠ 0) = false := decide_eq_false (by omega)
          rw [hall, hnomore, copyFragment_last (by omega) hpos hnil, hnil, List.flatMap_nil, List.append_nil]
          cases hsecond : grants (asked + 1) with
          | false =>
            refine ⟨_, rfl, ?_, List.forall_mem_nil _, fun hf => ?_, ⟨fun _ => hrefused hsecond, fun _ => trivial⟩⟩
            · rfl
            · cases hf
          | true =>
            obtain ⟨fuel, rfl⟩ : ∃ f, fuel = f + 1 := ⟨fuel - 1, by omega⟩
            refine ⟨⟨[⟨c.packet.interface, p.fragment (p.offset + position) false c.left⟩], c.chain, true⟩, ?_, rfl,
              List.forall_mem_singleton.mpr rfl, fun _ => List.append_nil _, ?_⟩
            · rw [if_pos rfl]
              dsimp only
              rw [forwardLoop, if_pos (by omega)]
              rfl
            · have hlimit : remainingBytes ≤ fragmentSize := by
                by_contra hgt
                rw [if_pos (Nat.lt_of_not_le hgt)] at hall
                omega
              rw [offsetsFit_last (by omega) hlimit hfirst hsecond]
              show Covers p position c.left [p.fragment _ _ _] ↔ _
              rw [covers_cons hoffset (List.ne_nil_of_length_pos hpos) (List.prefix_refl _) (by simp)]
              exact and_iff_left trivial
        · have hsmall : c.left.length ≤ fragmentSize := by
            split at hle
            · exact hle
            · omega
          have hcalls : callsBefore fragmentSize c.left.length = 2 := by
            unfold callsBefore
            rw [if_neg (Nat.ne_of_gt hpos), Nat.div_eq_of_lt (by omega)]
          rw [hcalls] at hk
          have hsecond : grants (asked + 1) = false := by
            rcases (by omega : k = asked ∨ k = asked + 1) with rfl | rfl
            · rw [hfirst] at hno
              cases hno
            · exact hno
          rw [copyFragment_refused (by omega) (Nat.lt_of_lt_of_le hpos hle) hpos hsecond]
          refine ⟨_, rfl, rfl, List.forall_mem_nil _, fun hf => ?_, ⟨fun _ => hrefused hsecond, fun _ => trivial⟩⟩
          cases hf

end loop

/-! ### All packets -/

/-- When a packet is refragmented as it should be: there is nothing to send, or not even a packet for it, or the first
    buffer is all there is to copy until the packets are used up, and the offsets fit their field. --/
def Refragments (grants : Nat → Bool) (mtu : ULONG) (p : ForwardPacket) : Prop :=
  p.data = [] ∨ grants 0 = false ∨
    0 < fragmentSize mtu ∧
      (p.tail = [] ∨ RefusedFirst grants (fragmentSize mtu) 0 p.head.octets.length) ∧
      OffsetsFit grants (fragmentSize mtu) 0 p.offset p.data.length

section packets
variable {grants : Nat → Bool} {mtu : ULONG} {p : ForwardPacket} {fuel : Nat}

theorem data_eq (p : ForwardPacket) : p.data = p.head.octets ++ p.tail.flatMap SourceBuffer.octets := List.flatMap_cons

theorem remaining_eq (hlength : p.length.toNat = 20 + p.data.length) :
    (p.length - ipv4HeaderSize).toNat = p.data.length := by
  have hheader : ipv4HeaderSize.toNat = 20 := rfl
  rw [BitVec.toNat_sub_of_le (by rw [BitVec.le_def]; omega)]
  omega

/-- Fragments without data, as many as there are packets for. --/
theorem fragmentForwardPacket_empty {o : Outcome} (hlength : p.length.toNat = 20 + p.data.length) (hdata : p.data ≠ [])
    (hzero : fragmentSize mtu = 0) (hgrant : grants 0 = true)
    (h : fragmentForwardPacket grants mtu p fuel = some o) : ¬ Refragmented p o := by
  have hpos : 0 < p.data.length := List.length_pos_iff.mpr hdata
  intro hgood
  unfold fragmentForwardPacket at h
  rw [hzero, remaining_eq hlength] at h
  rcases fuel with _ | _ | fuel
  · cases h
  · rw [forwardLoop, if_neg (by omega), hgrant, if_neg (by decide)] at h
    dsimp only at h
    rw [copyFragment] at h
    cases h
  · rw [forwardLoop, if_neg (by omega), hgrant, if_neg (by decide)] at h
    dsimp only at h
    rw [if_pos hpos, copyFragment] at h
    obtain ⟨o', -, rfl⟩ := Option.map_eq_some_iff.mp h
    have hcovers : Covers p 0 p.data (p.fragment _ _ [] :: o'.sent.map Emitted.frame) := hgood.covers
    exact hcovers.1 rfl

/-- Re-fragmentation, for every packet, every MTU and every pool: what is promised of it holds in exactly these
    cases. --/
theorem fragment_forward_packet_iff (hlength : p.length.toNat = 20 + p.data.length) (hfuel : p.length.toNat < fuel) :
    (∃ o, fragmentForwardPacket grants mtu p fuel = some o ∧ Refragmented p o) ↔ Refragments grants mtu p := by
  have hstart : fragmentForwardPacket grants mtu p fuel = forwardLoop grants p (fragmentSize mtu) fuel p.data.length
      (p.offset + 0) 0 ⟨p.head, p.head.octets, p.tail⟩ := by
    unfold fragmentForwardPacket
    rw [remaining_eq hlength]
    rfl
  have hdata := data_eq p
  by_cases hnone : p.data = []
  · refine ⟨fun _ => Or.inl hnone, fun _ => ⟨⟨[], p.chain, true⟩, ?_, ?_⟩⟩
    · obtain ⟨fuel, rfl⟩ : ∃ f, fuel = f + 1 := ⟨fuel - 1, by omega⟩
      rw [hstart, hnone, forwardLoop]
      rfl
    · exact ⟨List.forall_mem_nil _, trivial, fun _ => hnone.symm, rfl⟩
  have hpos : 0 < p.data.length := List.length_pos_iff.mpr hnone
  cases hgrant : grants 0 with
  | false =>
    refine ⟨fun _ => Or.inr (Or.inl hgrant), fun _ => ⟨⟨[], p.chain, false⟩, ?_, ?_⟩⟩
    · obtain ⟨fuel, rfl⟩ : ∃ f, fuel = f + 1 := ⟨fuel - 1, by omega⟩
      rw [hstart, forwardLoop, if_neg (by omega), if_pos hgrant]
      rfl
    · refine ⟨List.forall_mem_nil _, trivial, fun hf => ?_, rfl⟩
      cases hf
  | true =>
    rcases Nat.eq_zero_or_pos (fragmentSize mtu) with hzero | hsize
    · refine ⟨fun ⟨o, ho, hgood⟩ => ?_, fun h => ?_⟩
      · exact absurd hgood (fragmentForwardPacket_empty hlength hnone hzero hgrant ho)
      · rcases h with h | h | ⟨h, -⟩
        · exact absurd h hnone
        · rw [hgrant] at h
          cases h
        · omega
    · by_cases hstay : p.tail = [] ∨ RefusedFirst grants (fragmentSize mtu) 0 p.head.octets.length
      · have hsum : (p.head.octets ++ p.tail.flatMap SourceBuffer.octets).length = p.data.length := by rw [hdata]
        have hbase : 8 ∣ p.offset + 0 := offset_dvd p
        obtain ⟨o, ho, hreleased, hinterface, hcomplete, hcovers⟩ :=
          forwardLoop_stays (c := ⟨p.head, p.head.octets, p.tail⟩) (p := p) hsize
            (fragmentSize_dvd mtu) hbase hstay hsum (by omega : p.data.length + 1 < fuel)
        rw [hstart, ho]
        rw [Nat.add_zero] at hcovers
        constructor
        · rintro ⟨o', ho', hgood⟩
          cases ho'
          refine Or.inr (Or.inr ⟨hsize, hstay, hcovers.mp ?_⟩)
          rw [← hdata]
          exact hgood.covers
        · rintro (h | h | ⟨-, -, hfit⟩)
          · exact absurd h hnone
          · rw [hgrant] at h
            cases h
          · refine ⟨o, rfl, hinterface, ?_, ?_, hreleased⟩
            · rw [hdata]
              exact hcovers.mpr hfit
            · rw [hdata]
              exact hcomplete
      · have hnext : p.tail ≠ [] := fun hnil => hstay (Or.inl hnil)
        have hgranted : ¬ RefusedFirst grants (fragmentSize mtu) 0 p.head.octets.length := fun h => hstay (Or.inr h)
        refine ⟨fun ⟨o, ho, hgood⟩ => ?_, fun h => ?_⟩
        · have hsum : p.head.octets.length + (p.tail.flatMap SourceBuffer.octets).length = p.data.length := by
            rw [hdata, List.length_append]
          rw [hstart] at ho
          have hle : o.released.length ≤ p.tail.length :=
            forwardLoop_leaves (c := ⟨p.head, p.head.octets, p.tail⟩) hsize hnext hgranted hsum hpos ho
          rw [hgood.released] at hle
          exact absurd hle (Nat.not_succ_le_self _)
        · rcases h with h | h | ⟨-, h, -⟩
          · exact absurd h hnone
          · rw [hgrant] at h
            cases h
          · exact absurd h hstay

/-- A packet of two buffers, of which the second one has no interface of its own. --/
def ForwardPacket.twoBuffers : ForwardPacket :=
  ⟨0x45000024, 0x12340000, 0x40110000, 0xC0A80101, 0x0A000001, 36, ⟨1, List.replicate 8 1⟩, [⟨0, List.replicate 8 2⟩]⟩

/-- The second fragment has the interface of the second buffer, and the first buffer is not released. --/
theorem second_buffer_forwarded : ∃ o,
    fragmentForwardPacket (fun _ => true) 28 ForwardPacket.twoBuffers 40 = some o ∧
      o.sent.map Emitted.interface = [1, 0] ∧ o.released = ForwardPacket.twoBuffers.tail ∧ o.successful = true ∧
      ¬ Refragmented ForwardPacket.twoBuffers o := by
  refine ⟨(fragmentForwardPacket (fun _ => true) 28 ForwardPacket.twoBuffers 40).get (by decide +kernel), ?_, ?_, ?_,
    ?_,
    fun h => ?_⟩
  · exact (Option.some_get _).symm
  · decide +kernel
  · decide +kernel
  · decide +kernel
  · have hreleased := h.released
    revert hreleased
    decide +kernel

/-- One of a single buffer is taken apart as it should be. --/
theorem fragment_forward_packet_iff_single : ∃ o,
    fragmentForwardPacket (fun _ => true) 28
        ⟨0x45000024, 0x12342004, 0x40110000, 0xC0A80101, 0x0A000001, 36, ⟨1, List.replicate 16 1⟩, []⟩ 40 = some o ∧
      Refragmented ⟨0x45000024, 0x12342004, 0x40110000, 0xC0A80101, 0x0A000001, 36,
        ⟨1, List.replicate 16 1⟩, []⟩ o := by
  refine (fragment_forward_packet_iff (by decide +kernel) (by decide +kernel)).mpr (Or.inr (Or.inr ⟨by decide +kernel,
    Or.inl rfl, fun i hi _ => ?_⟩))
  have hsize : fragmentSize 28 = 8 := by decide +kernel
  have hoffset : ForwardPacket.offset ⟨0x45000024, 0x12342004, 0x40110000, 0xC0A80101, 0x0A000001, 36,
      ⟨1, List.replicate 16 1⟩, []⟩ = 32 := by decide +kernel
  have hlength : (ForwardPacket.data ⟨0x45000024, 0x12342004, 0x40110000, 0xC0A80101, 0x0A000001, 36,
      ⟨1, List.replicate 16 1⟩, []⟩).length = 16 := by decide +kernel
  rw [hsize] at hi ⊢
  rw [hlength] at hi
  rw [hoffset]
  omega

end packets

end Netxduo.Ip
