import Mathlib
import Netxduo.Ip.Arrivals

/-! How the send path takes an IPv4 datagram apart (`_nx_ip_fragment_packet`), and what the receive path makes of the
    fragments. Checksums are not built in. -/

namespace Netxduo.Ip
open Pieces

/-! ### The source -/

/-- A packet to be sent, the header in host order; `buffers` is the data behind the header, buffer by buffer, and
    `length` is `nx_packet_length`. --/
structure Outgoing where
  word0 : ULONG
  word1 : ULONG
  word2 : ULONG
  source : ULONG
  destination : ULONG
  length : ULONG
  buffers : List (List UInt8)
deriving DecidableEq, Repr

/-- A packet as the driver sends it. --/
structure Frame where
  word0 : ULONG
  word1 : ULONG
  word2 : ULONG
  source : ULONG
  destination : ULONG
  data : List UInt8
deriving DecidableEq, Repr

/-- The loop that copies `size` octets into a fragment, and the buffers it leaves; `remaining` says that octets for
    other fragments remain. Buffers that hold less than the packet length says are given up. --/
def copyData (remaining : Bool) : Nat → List (List UInt8) → Option (List UInt8 × List (List UInt8))
  | 0, buffers => some ([], buffers)
  | _ + 1, [] => none
  | size + 1, [b] =>
    if size + 1 < b.length then some (b.take (size + 1), [b.drop (size + 1)])
    else if size + 1 = b.length ∧ remaining = false then some (b, [[]])
    else none
  | size + 1, b :: next :: rest =>
    if size + 1 < b.length then some (b.take (size + 1), b.drop (size + 1) :: next :: rest)
    else (copyData remaining (size + 1 - b.length) (next :: rest)).map fun (data, left) => (b ++ data, left)

/-- The header of a fragment. --/
def Outgoing.fragment (p : Outgoing) (offset : Nat) (remaining : Bool) (data : List UInt8) : Frame where
  word0 := p.word0 &&& ~~~lower16Mask ||| BitVec.ofNat 32 (20 + data.length)
  word1 := p.word1 ||| BitVec.ofNat 32 (offset / 8) ||| if remaining then ipMoreFragment else 0
  word2 := p.word2 &&& ~~~lower16Mask
  source := p.source
  destination := p.destination
  data := data

/-- The loop over the fragments, each of `fragmentSize` octets but the last: what is sent, and whether all of it is.
    `allocate` says whether there is a packet for the fragment at an offset. --/
def fragmentLoop (allocate : Nat → Bool) (p : Outgoing) (fragmentSize : Nat) :
    Nat → Nat → Nat → List (List UInt8) → List Frame × Bool
  | 0, _, _, _ => ([], false)
  | fuel + 1, remainingBytes, offset, buffers =>
    if remainingBytes = 0 then ([], true)
    else if allocate offset = false then ([], false)
    else
      let size := if remainingBytes > fragmentSize then fragmentSize else remainingBytes
      let remaining := remainingBytes - size
      match copyData (decide (remaining ≠ 0)) size buffers with
      | none => ([], false)
      | some (data, left) =>
        let (sent, done) := fragmentLoop allocate p fragmentSize fuel remaining (offset + fragmentSize) left
        (p.fragment offset (decide (remaining ≠ 0)) data :: sent, done)

/-- `_nx_ip_fragment_packet` --/
def fragmentPacket (allocate : Nat → Bool) (mtu : ULONG) (p : Outgoing) : List Frame × Bool :=
  let remainingBytes := (p.length - ipv4HeaderSize).toNat
  let fragmentSize := ((mtu - ipv4HeaderSize) / 8 * 8).toNat
  fragmentLoop allocate p fragmentSize (remainingBytes + 1) remainingBytes 0 p.buffers

/-! ### Copying -/

section
variable {remaining : Bool} {size n : Nat} {buffers : List (List UInt8)}

/-- What is copied are the next octets of the chain, however it is split. --/
theorem copyData_spec (hsize : size ≤ buffers.flatten.length)
    (hmore : remaining = true → size < buffers.flatten.length) :
    ∃ left, copyData remaining size buffers = some (buffers.flatten.take size, left) ∧
      left.flatten = buffers.flatten.drop size := by
  induction buffers generalizing size with
  | nil =>
    obtain rfl : size = 0 := Nat.le_zero.mp hsize
    exact ⟨[], rfl, rfl⟩
  | cons b buffers ih =>
    rcases size with _ | size
    · exact ⟨b :: buffers, by rw [copyData, List.take_zero], by rw [List.drop_zero]⟩
    · rw [List.flatten_cons] at hsize hmore ⊢
      rw [List.length_append] at hsize hmore
      cases buffers with
      | nil =>
        rw [List.flatten_nil, List.append_nil, copyData]
        rw [List.flatten_nil, List.length_nil, Nat.add_zero] at hsize hmore
        by_cases hlt : size + 1 < b.length
        · exact ⟨[b.drop (size + 1)], if_pos hlt, List.append_nil _⟩
        · have heq : size + 1 = b.length := by omega
          have hlast : remaining = false := by
            cases remaining with
            | false => rfl
            | true => exact absurd (hmore rfl) hlt
          refine ⟨[[]], ?_, ?_⟩
          · rw [if_neg hlt, if_pos ⟨heq, hlast⟩, heq, List.take_length]
          · rw [heq, List.drop_length]
            rfl
      | cons next rest =>
        rw [copyData]
        by_cases hlt : size + 1 < b.length
        · refine ⟨b.drop (size + 1) :: next :: rest, ?_, ?_⟩
          · rw [if_pos hlt, List.take_append_of_le_length (Nat.le_of_lt hlt)]
          · rw [List.flatten_cons, List.drop_append_of_le_length (Nat.le_of_lt hlt)]
        · obtain ⟨left, hcopy, hleft⟩ := @ih (size + 1 - b.length) (by omega) fun htrue => by
            have := hmore htrue
            omega
          refine ⟨left, ?_, ?_⟩
          · rw [if_neg hlt, hcopy, List.take_append, List.take_of_length_le (Nat.le_of_not_lt hlt)]
            rfl
          · rw [hleft, List.drop_append, List.drop_of_length_le (Nat.le_of_not_lt hlt), List.nil_append]

end

/-! ### The loop -/

/-- The frame of a piece of the data. --/
def Outgoing.frame (p : Outgoing) (q : Piece UInt8) : Frame := p.fragment q.start (!q.last) q.data

/-- How data is cut: into pieces of `limit` octets, and a last one of as many at most. --/
structure Cut (limit offset : Nat) (data : List UInt8) (pieces : List (Piece UInt8)) : Prop where
  contiguous : Contiguous offset pieces
  flatMap : pieces.flatMap Piece.data = data
  nonempty : ∀ q ∈ pieces, q.data ≠ []
  le : ∀ q ∈ pieces, q.data.length ≤ limit
  full : ∀ q ∈ pieces, q.last = false → q.data.length = limit
  others : pieces.Pairwise fun q _ => q.last = false
  last : ∀ hne : pieces ≠ [], (pieces.getLast hne).last = true

section
variable {p : Outgoing} {allocate : Nat → Bool} {fragmentSize limit offset : Nat} {data : List UInt8}
  {pieces : List (Piece UInt8)}

theorem cut_nil : Cut limit offset [] [] :=
  ⟨trivial, rfl, List.forall_mem_nil _, List.forall_mem_nil _, List.forall_mem_nil _, List.Pairwise.nil,
    fun hne => absurd rfl hne⟩

theorem Cut.eq_nil (h : Cut limit offset [] pieces) : pieces = [] := by
  cases pieces with
  | nil => rfl
  | cons q pieces =>
    have hflat := h.flatMap
    rw [List.flatMap_cons] at hflat
    exact absurd (List.append_eq_nil_iff.mp hflat).1 (h.nonempty q (List.mem_cons_self ..))

/-- Another full piece in front. --/
theorem Cut.cons (h : Cut limit (offset + limit) (data.drop limit) pieces) (hlimit : 0 < limit)
    (hlong : limit < data.length) : Cut limit offset data (⟨offset, data.take limit, false⟩ :: pieces) := by
  have hlength : (data.take limit).length = limit := List.length_take_of_le (Nat.le_of_lt hlong)
  have hne : pieces ≠ [] := by
    rintro rfl
    have hrest := List.drop_eq_nil_iff.mp h.flatMap.symm
    omega
  refine ⟨⟨rfl, ?_⟩, ?_, ?_, ?_, ?_, ?_, fun _ => ?_⟩
  · rw [Piece.stop, hlength]
    exact h.contiguous
  · rw [List.flatMap_cons, h.flatMap, List.take_append_drop]
  · refine List.forall_mem_cons.mpr ⟨fun hnil : data.take limit = [] => ?_, h.nonempty⟩
    rw [hnil, List.length_nil] at hlength
    omega
  · exact List.forall_mem_cons.mpr ⟨Nat.le_of_eq hlength, h.le⟩
  · exact List.forall_mem_cons.mpr ⟨fun _ => hlength, h.full⟩
  · exact List.pairwise_cons.mpr ⟨fun _ _ => rfl, h.others⟩
  · rw [List.getLast_cons hne]
    exact h.last hne

theorem cut_single (hne : data ≠ []) (hle : data.length ≤ limit) : Cut limit offset data [⟨offset, data, true⟩] := by
  refine ⟨⟨rfl, trivial⟩, List.append_nil _, ?_, ?_, ?_, List.pairwise_singleton .., fun _ => rfl⟩
  · exact List.forall_mem_singleton.mpr hne
  · exact List.forall_mem_singleton.mpr hle
  · refine List.forall_mem_singleton.mpr fun hlast => ?_
    cases hlast

/-- The loop cuts what the buffers hold. --/
theorem fragmentLoop_spec {fuel remainingBytes : Nat} {buffers : List (List UInt8)} (hsize : 0 < fragmentSize)
    (hlength : buffers.flatten.length = remainingBytes) (hfuel : remainingBytes < fuel)
    (hallocate : ∀ offset, allocate offset = true) :
    ∃ pieces, fragmentLoop allocate p fragmentSize fuel remainingBytes offset buffers = (pieces.map p.frame, true) ∧
      Cut fragmentSize offset buffers.flatten pieces := by
  induction fuel generalizing remainingBytes offset buffers with
  | zero => exact absurd hfuel (Nat.not_lt_zero _)
  | succ fuel ih =>
    rw [fragmentLoop]
    by_cases hnone : remainingBytes = 0
    · rw [if_pos hnone, List.length_eq_zero_iff.mp (hlength.trans hnone)]
      exact ⟨[], rfl, cut_nil⟩
    · rw [if_neg hnone, hallocate offset, if_neg Bool.false_ne_true.symm]
      dsimp only
      by_cases hlong : remainingBytes > fragmentSize
      · rw [if_pos hlong]
        have hne : remainingBytes - fragmentSize ≠ 0 := by omega
        obtain ⟨left, hcopy, hleft⟩ := @copyData_spec true fragmentSize buffers (by omega) fun _ => by omega
        obtain ⟨pieces, hloop, hcut⟩ := @ih (offset + fragmentSize) (remainingBytes - fragmentSize) left
          (by rw [hleft, List.length_drop, hlength]) (by omega)
        rw [decide_eq_true hne, hcopy]
        dsimp only
        rw [hloop]
        rw [hleft] at hcut
        exact ⟨⟨offset, buffers.flatten.take fragmentSize, false⟩ :: pieces, rfl, hcut.cons hsize (by omega)⟩
      · rw [if_neg hlong, Nat.sub_self]
        obtain ⟨left, hcopy, hleft⟩ := @copyData_spec false remainingBytes buffers (by omega) fun hfalse => by
          cases hfalse
        obtain ⟨pieces, hloop, hcut⟩ := @ih (offset + fragmentSize) 0 left
          (by rw [hleft, List.length_drop, hlength, Nat.sub_self]) (by omega)
        have hrest : left.flatten = [] := by
          rw [hleft, ← hlength, List.drop_length]
        rw [hrest] at hcut
        obtain rfl := hcut.eq_nil
        have htake : buffers.flatten.take remainingBytes = buffers.flatten := by
          rw [← hlength, List.take_length]
        rw [decide_eq_false (fun hne => hne rfl), hcopy]
        dsimp only
        rw [hloop, htake]
        refine ⟨[⟨offset, buffers.flatten, true⟩], rfl, cut_single (fun hnil => hnone ?_) (by omega)⟩
        rw [← hlength, hnil, List.length_nil]

end

section
variable {limit offset k : Nat} {data : List UInt8} {pieces : List (Piece UInt8)} {pc : Piece UInt8}

theorem Cut.ascending (h : Cut limit offset data pieces) : Ascending pieces := by
  have happart := h.contiguous.pairwise.and h.others
  refine ⟨happart.imp_of_mem fun {p q} hp _ hpq => ?_, fun p hp q hq => ?_, h.nonempty⟩
  · have hpos := List.length_pos_of_ne_nil (h.nonempty p hp)
    have hstop : p.stop = p.start + p.data.length := rfl
    have hle := hpq.1
    omega
  · have hagree : pieces.Pairwise Piece.Agrees := happart.imp fun hpq => Or.inr (Or.inl hpq)
    exact hagree.forall_of_forall_of_flip (fun p _ => Piece.agrees_refl p) (hagree.imp Piece.Agrees.symm) hp hq

/-- No two pieces are the same. --/
theorem Cut.apart (h : Cut limit offset data pieces) : pieces.Pairwise fun p q => p.Agrees q ∧ p ≠ q := by
  refine (h.contiguous.pairwise.and (h.others.and h.ascending.starts)).imp fun hpq => ?_
  obtain ⟨hle, hlast, hlt⟩ := hpq
  refine ⟨Or.inr (Or.inl ⟨hle, hlast⟩), ?_⟩
  rintro rfl
  exact Nat.lt_irrefl _ hlt

theorem Cut.start_dvd (h : Cut limit offset data pieces) (hoffset : k ∣ offset) (hlimit : k ∣ limit) (hpc : pc ∈ pieces) :
    k ∣ pc.start := by
  have hcontiguous := h.contiguous
  have hothers := h.others
  have hfull := h.full
  clear h
  induction pieces generalizing offset with
  | nil => cases hpc
  | cons q pieces ih =>
    obtain ⟨rfl, hrest⟩ := hcontiguous
    obtain ⟨hq, hothers⟩ := List.pairwise_cons.mp hothers
    rcases List.mem_cons.mp hpc with rfl | hpc
    · exact hoffset
    · have hlength := hfull q (List.mem_cons_self ..) (hq pc hpc)
      refine ih ?_ hpc hrest hothers fun r hr => hfull r (List.mem_cons_of_mem q hr)
      rw [Piece.stop, hlength]
      exact Nat.dvd_add hoffset hlimit

theorem Cut.ne_nil (h : Cut limit offset data pieces) (hne : data ≠ []) : pieces ≠ [] := by
  rintro rfl
  exact hne h.flatMap.symm

theorem Cut.holds (h : Cut limit 0 data pieces) (hne : data ≠ []) : Holds {q | q ∈ pieces} data := by
  have hpieces := h.ne_nil hne
  have hholds := h.contiguous.holds hpieces (h.last hpieces)
  rw [h.flatMap] at hholds
  exact hholds

theorem Cut.stop_le (h : Cut limit 0 data pieces) (hpc : pc ∈ pieces) : pc.stop ≤ data.length := by
  have hne : pieces ≠ [] := List.ne_nil_of_mem hpc
  have hend := (h.contiguous.flatMap hne).1
  rw [h.flatMap, Nat.zero_add] at hend
  rw [← hend]
  exact h.ascending.stop_le hpc hne

/-- Of data that is longer than a piece the first piece is not the last one. --/
theorem Cut.part (h : Cut limit 0 data pieces) (hlong : limit < data.length) (hpc : pc ∈ pieces) (hstart : pc.start = 0) :
    pc.last = false := by
  have hne : pieces ≠ [] := List.ne_nil_of_mem hpc
  cases hlast : pc.last with
  | false => rfl
  | true =>
    have hend := (h.contiguous.flatMap hne).1
    rw [h.flatMap, Nat.zero_add, h.ascending.getLast hpc hlast hne, Piece.stop, hstart] at hend
    have := h.le pc hpc
    omega

end

/-! ### Frames on the wire -/

/-- The frame a packet was received with, less padding. --/
def Ipv4Packet.frame (q : Ipv4Packet) : Frame := ⟨q.word0, q.word1, q.word2, q.source, q.destination, q.octets⟩

/-- The buffers hold what the length of the packet says, and that is what its header says, or more. --/
structure Ipv4Packet.Intact (q : Ipv4Packet) : Prop where
  length : q.length.toNat = 4 * q.headerLength.toNat + q.data.length
  total : (q.word0 &&& lower16Mask).toNat ≤ q.length.toNat

/-- A datagram to be sent: a header without options, not a fragment itself. --/
structure Outgoing.WellFormed (p : Outgoing) : Prop where
  header : p.word0 &&& ipLengthMask = 0x05000000
  whole : p.word1 &&& ipFragmentMask = 0
  length : p.length.toNat = 20 + p.buffers.flatten.length
  total : p.length.toNat ≤ 65535

section
variable {p : Outgoing} {q : Ipv4Packet} {offset : Nat} {remaining : Bool} {data : List UInt8}

theorem toNat_of_small {n : Nat} (hn : n < 2 ^ 32) : (BitVec.ofNat 32 n).toNat = n := by
  rw [BitVec.toNat_ofNat, Nat.mod_eq_of_lt hn]

/-- The fields of the word with the offset. --/
theorem fragment_word1 (hp : p.word1 &&& ipFragmentMask = 0) (hoffset : offset / 8 < 2 ^ 13) :
    ((p.fragment offset remaining data).word1 &&& ipOffsetMask).toNat = offset / 8 ∧
      ((p.fragment offset remaining data).word1 &&& ipMoreFragment != 0) = remaining ∧
      (p.fragment offset remaining data).word1 >>> 16 = p.word1 >>> 16 := by
  have hsmall : (BitVec.ofNat 32 (offset / 8)).toNat = offset / 8 := toNat_of_small (by omega)
  have hmask : BitVec.ofNat 32 (offset / 8) &&& ipOffsetMask = BitVec.ofNat 32 (offset / 8) := by
    refine BitVec.eq_of_toNat_eq ?_
    have hmod := Nat.and_two_pow_sub_one_eq_mod (offset / 8) 13
    rw [BitVec.toNat_and, hsmall]
    exact hmod.trans (Nat.mod_eq_of_lt hoffset)
  have hp₁ : p.word1 &&& ipOffsetMask = 0 := by
    have hsub : ipOffsetMask = ipFragmentMask &&& ipOffsetMask := by decide
    rw [hsub, ← BitVec.and_assoc, hp]
    exact BitVec.zero_and
  have hp₂ : p.word1 &&& ipMoreFragment = 0 := by
    have hsub : ipMoreFragment = ipFragmentMask &&& ipMoreFragment := by decide
    rw [hsub, ← BitVec.and_assoc, hp]
    exact BitVec.zero_and
  have hmore : BitVec.ofNat 32 (offset / 8) &&& ipMoreFragment = 0 := by
    have hapart : ipOffsetMask &&& ipMoreFragment = 0 := by decide
    rw [← hmask, BitVec.and_assoc, hapart]
    exact BitVec.and_zero
  have hshift : BitVec.ofNat 32 (offset / 8) >>> 16 = 0 := by
    refine BitVec.eq_of_toNat_eq ?_
    rw [BitVec.toNat_ushiftRight, hsmall, Nat.shiftRight_eq_div_pow, Nat.div_eq_of_lt (by omega)]
    rfl
  have hzero : ∀ x : ULONG, 0 ||| x = x := fun x => BitVec.zero_or
  refine ⟨?_, ?_, ?_⟩
  · rw [Outgoing.fragment, BitVec.and_or_distrib_right, BitVec.and_or_distrib_right, hp₁, hmask, hzero]
    have hnone : (if remaining = true then ipMoreFragment else 0) &&& ipOffsetMask = 0 := by
      cases remaining with
      | false => rfl
      | true => rfl
    rw [hnone]
    exact (congrArg BitVec.toNat BitVec.or_zero).trans hsmall
  · rw [Outgoing.fragment, BitVec.and_or_distrib_right, BitVec.and_or_distrib_right, hp₂, hmore, hzero, hzero]
    cases remaining with
    | false => rfl
    | true => rfl
  · rw [Outgoing.fragment, BitVec.ushiftRight_or_distrib, BitVec.ushiftRight_or_distrib, hshift]
    have hnone : (if remaining = true then ipMoreFragment else 0) >>> 16 = (0 : ULONG) := by
      cases remaining with
      | false => rfl
      | true => rfl
    rw [hnone]
    exact BitVec.or_zero.trans BitVec.or_zero

/-- The fields of the word with the length. --/
theorem fragment_word0 (hp : p.word0 &&& ipLengthMask = 0x05000000) (hdata : 20 + data.length ≤ 65535) :
    ((p.fragment offset remaining data).word0 &&& lower16Mask).toNat = 20 + data.length ∧
      ((p.fragment offset remaining data).word0 &&& ipLengthMask) >>> 24 = 5 := by
  have hsmall : (BitVec.ofNat 32 (20 + data.length)).toNat = 20 + data.length := toNat_of_small (by omega)
  have hmask : BitVec.ofNat 32 (20 + data.length) &&& lower16Mask = BitVec.ofNat 32 (20 + data.length) := by
    refine BitVec.eq_of_toNat_eq ?_
    have hmod := Nat.and_two_pow_sub_one_eq_mod (20 + data.length) 16
    rw [BitVec.toNat_and, hsmall]
    exact hmod.trans (Nat.mod_eq_of_lt (by omega))
  have hlength : BitVec.ofNat 32 (20 + data.length) &&& ipLengthMask = 0 := by
    have hapart : lower16Mask &&& ipLengthMask = 0 := by decide
    rw [← hmask, BitVec.and_assoc, hapart]
    exact BitVec.and_zero
  have hkept : ~~~lower16Mask &&& ipLengthMask = ipLengthMask := by decide
  have hcleared : ~~~lower16Mask &&& lower16Mask = 0 := by decide
  rw [Outgoing.fragment]
  dsimp only
  constructor
  · rw [BitVec.and_or_distrib_right, BitVec.and_assoc, hcleared, hmask]
    exact (congrArg BitVec.toNat ((congrArg (· ||| _) BitVec.and_zero).trans BitVec.zero_or)).trans hsmall
  · rw [BitVec.and_or_distrib_right, BitVec.and_assoc, hkept, hp, hlength]
    rfl

/-- The part of the datagram a frame carries. --/
def Frame.piece (s : Frame) : Piece UInt8 :=
  ⟨8 * (s.word1 &&& ipOffsetMask).toNat, s.data, !(s.word1 &&& ipMoreFragment != 0)⟩

/-- The datagram a fragment says it belongs to. --/
def Outgoing.key (p : Outgoing) : FragmentKey :=
  .v4 (p.word1 >>> 16) (p.word2 &&& 0x00FF0000) p.source p.destination

def Outgoing.protocol (p : Outgoing) : Nat := (p.word2 >>> 16 &&& 0xFF).toNat

/-- A piece that a fragment can carry: not all of a datagram, and aligned. --/
structure Carried (pc : Piece UInt8) : Prop where
  nonempty : pc.data ≠ []
  start : 8 ∣ pc.start
  full : pc.last = false → 8 ∣ pc.data.length
  within : pc.stop ≤ 65515
  part : pc.start = 0 → pc.last = false

variable {pc : Piece UInt8}

theorem piece_frame (hp : p.WellFormed) (hpc : Carried pc) : (p.frame pc).piece = pc := by
  have hwithin := hpc.within
  have hstop : pc.stop = pc.start + pc.data.length := rfl
  obtain ⟨hoffset, hmore, -⟩ := @fragment_word1 p pc.start (!pc.last) pc.data hp.whole (by omega)
  rw [Frame.piece, Outgoing.frame, hoffset, hmore, Nat.mul_div_cancel' hpc.start, Bool.not_not]
  rfl

/-- What the receive path makes of a frame. --/
theorem frame_received (hp : p.WellFormed) (hpc : Carried pc) (hq : q.Intact) (hframe : q.frame = p.frame pc) :
    q.WellFormed ∧ q.headerLength = 5 ∧ q.stripped.piece = pc ∧ q.stripped.key = p.key ∧
      q.stripped.protocol = p.protocol := by
  have hwithin := hpc.within
  have hstop : pc.stop = pc.start + pc.data.length := rfl
  have hpiece : q.piece = pc := (congrArg Frame.piece hframe).trans (piece_frame hp hpc)
  obtain ⟨-, hmore, hid⟩ := @fragment_word1 p pc.start (!pc.last) pc.data hp.whole (by omega)
  obtain ⟨-, hheader⟩ := @fragment_word0 p pc.start (!pc.last) pc.data hp.header (by omega)
  have hoctets : q.octets = pc.data := congrArg Piece.data hpiece
  have hlast : (!q.more) = pc.last := congrArg Piece.last hpiece
  have hstart : 8 * (q.word1 &&& ipOffsetMask).toNat = pc.start := congrArg Piece.start hpiece
  have hword0 : q.word0 = (p.frame pc).word0 := congrArg Frame.word0 hframe
  have hword1 : q.word1 = (p.frame pc).word1 := congrArg Frame.word1 hframe
  have hword2 : q.word2 = p.word2 &&& ~~~lower16Mask := congrArg Frame.word2 hframe
  have hsource : q.source = p.source := congrArg Frame.source hframe
  have hdestination : q.destination = p.destination := congrArg Frame.destination hframe
  have hfive : q.headerLength = 5 := by
    rw [Ipv4Packet.headerLength, hword0]
    exact hheader
  refine ⟨⟨fun hzero => ?_, by rw [hfive]; decide, hq.length, hq.total, ?_, fun htrue => ?_, ?_⟩, hfive, hpiece, ?_, ?_⟩
  · have hsub : ∀ m : ULONG, m = ipFragmentMask &&& m → q.word1 &&& m = 0 := by
      intro m hm
      rw [hm, ← BitVec.and_assoc, hzero]
      exact BitVec.zero_and
    have hstart' : pc.start = 0 := by
      rw [← hstart, hsub ipOffsetMask (by decide)]
      rfl
    have hnone : q.more = false := by
      rw [Ipv4Packet.more, hsub ipMoreFragment (by decide)]
      rfl
    rw [hnone, hpc.part hstart'] at hlast
    cases hlast
  · rw [hoctets]
    exact hpc.nonempty
  · rw [hoctets]
    refine hpc.full ?_
    rw [← hlast, htrue]
    rfl
  · rw [hpiece]
    omega
  · have hkept : ~~~lower16Mask &&& 0x00FF0000 = (0x00FF0000 : ULONG) := by decide
    show FragmentKey.v4 (q.word1 >>> 16) (q.word2 &&& 0x00FF0000) q.source q.destination = p.key
    rw [hword1, hword2, hsource, hdestination, BitVec.and_assoc, hkept]
    exact congrArg (fun id => FragmentKey.v4 id (p.word2 &&& 0x00FF0000) p.source p.destination) hid
  · have hkept : ~~~lower16Mask >>> 16 &&& 0xFF = (0xFF : ULONG) := by decide
    show (q.word2 >>> 16 &&& 0xFF).toNat = p.protocol
    rw [hword2, BitVec.ushiftRight_and_distrib, BitVec.and_assoc, hkept, Outgoing.protocol]

end

/-! ### There and back -/

section
variable {env : Environment} {a : Assembly} {p : Outgoing} {allocate : Nat → Bool} {mtu : ULONG} {sent : List Frame}
  {arrivals : List Ipv4Packet} {pieces : List (Piece UInt8)} {limit : Nat}

/-- The frames arrive, in any order, each in packets of its own; nothing is held under the key of their datagram, and
    there is room for them. --/
structure Delivered (env : Environment) (a : Assembly) (p : Outgoing) (sent : List Frame) (arrivals : List Ipv4Packet) :
    Prop where
  frames : (arrivals.map Ipv4Packet.frame).Perm sent
  intact : ∀ q ∈ arrivals, q.Intact
  addrs : (arrivals.map (·.addr)).Nodup
  fresh : ∀ q ∈ arrivals, q.addr ∉ a.held.map (·.addr)
  unknown : ∀ f ∈ a.held, f.key ≠ p.key
  room : ∀ pool, assemblyHeld a pool + (arrivals.map fun q => q.pools.count pool).sum ≤
    env.poolTotal pool - poolReserve env pool

/-- The pieces of a datagram longer than one of them can be carried. --/
theorem Cut.carried {data : List UInt8} (h : Cut limit 0 data pieces) (hlimit : 8 ∣ limit) (hlong : limit < data.length)
    (htotal : data.length ≤ 65515) {pc : Piece UInt8} (hpc : pc ∈ pieces) : Carried pc :=
  ⟨h.nonempty pc hpc, h.start_dvd (Nat.dvd_zero 8) hlimit hpc, fun hlast => (h.full pc hpc hlast).symm ▸ hlimit,
    Nat.le_trans (h.stop_le hpc) htotal, h.part hlong hpc⟩

/-- What arrives is what is still to come of the datagram. --/
theorem Delivered.incoming (h : Delivered env a p (pieces.map p.frame) arrivals) (hp : p.WellFormed)
    (hcarried : ∀ pc ∈ pieces, Carried pc) (hapart : pieces.Pairwise fun pc qc => pc.Agrees qc ∧ pc ≠ qc) :
    Incoming env a p.key (arrivals.map Ipv4Packet.stripped) ∧
      ((arrivals.map Ipv4Packet.stripped).map Fragment.piece).Perm pieces ∧
      (∀ q ∈ arrivals, q.WellFormed ∧ q.headerLength = 5 ∧ q.stripped.protocol = p.protocol) := by
  have hreceived : ∀ q ∈ arrivals, q.WellFormed ∧ q.headerLength = 5 ∧ q.stripped.key = p.key ∧
      q.stripped.protocol = p.protocol := by
    intro q hq
    obtain ⟨pc, hpc, hframe⟩ := List.mem_map.mp (h.frames.subset (List.mem_map_of_mem hq))
    obtain ⟨hwell, hfive, -, hkey, hprotocol⟩ := frame_received hp (hcarried pc hpc) (h.intact q hq) hframe.symm
    exact ⟨hwell, hfive, hkey, hprotocol⟩
  have hpieces : ((arrivals.map Ipv4Packet.stripped).map Fragment.piece).Perm pieces := by
    have hperm := h.frames.map Frame.piece
    rw [List.map_map, List.map_map] at hperm
    rw [List.map_map]
    have hid : pieces.map (Frame.piece ∘ p.frame) = pieces.map id :=
      List.map_congr_left fun pc hpc => piece_frame hp (hcarried pc hpc)
    rw [hid, List.map_id] at hperm
    exact hperm
  refine ⟨⟨?_, ?_, ?_, ?_, ?_, ?_, ?_⟩, hpieces, fun q hq => ?_⟩
  · exact List.forall_mem_map.mpr fun q hq => (hreceived q hq).2.2.1
  · exact List.forall_mem_map.mpr fun q hq => (hreceived q hq).1.sound fun _ => (hreceived q hq).2.1
  · have hpairwise := (hpieces.pairwise_iff fun hpq => ⟨hpq.1.symm, hpq.2.symm⟩).mpr hapart
    refine (List.pairwise_map.mp hpairwise).imp_of_mem fun {f g} hf hg hfg => ⟨fun _ => ⟨hfg.1, ?_⟩, hfg.2⟩
    obtain ⟨q, hq, rfl⟩ := List.mem_map.mp hf
    obtain ⟨r, hr, rfl⟩ := List.mem_map.mp hg
    rw [(hreceived q hq).2.2.2, (hreceived r hr).2.2.2]
  · refine List.forall_mem_map.mpr fun q hq g hg => ⟨fun hkey => ?_, fun hkey => absurd hkey (h.unknown g hg)⟩
    rw [(hreceived q hq).2.2.1] at hkey
    exact absurd hkey.symm (h.unknown g hg)
  · rw [List.map_map]
    exact h.addrs
  · exact List.forall_mem_map.mpr h.fresh
  · intro pool
    rw [List.map_map]
    exact h.room pool
  · obtain ⟨hwell, hfive, -, hprotocol⟩ := hreceived q hq
    exact ⟨hwell, hfive, hprotocol⟩

/-- A datagram too long for its link is taken apart into frames that fit the link, and put together again from them,
    in whatever order they arrive. --/
theorem ipv4_fragmentation_undone (hp : p.WellFormed) (hmtu : 28 ≤ mtu.toNat) (hlong : mtu.toNat < p.length.toNat)
    (hallocate : ∀ offset, allocate offset = true) (ha : Owned env a) (hc : Consistent a) :
    ∃ sent, fragmentPacket allocate mtu p = (sent, true) ∧ (∀ s ∈ sent, 20 + s.data.length ≤ mtu.toNat) ∧
      ∀ arrivals, Delivered env a p sent arrivals →
        ∃ d, (arrivals.foldl (fun a q => step env a (.ipv4 q)) a).dispatched = a.dispatched ++ [d] ∧
          d.octets = p.buffers.flatten ∧ d.length.toNat = p.buffers.flatten.length ∧ d.protocol = p.protocol ∧
          ∀ f ∈ d.fragments, f.key = p.key := by
  have hlength := hp.length
  have htotal := hp.total
  have hheader : ipv4HeaderSize.toNat = 20 := rfl
  have height : (8 : ULONG).toNat = 8 := rfl
  have hremaining : (p.length - ipv4HeaderSize).toNat = p.buffers.flatten.length := by
    rw [BitVec.toNat_sub_of_le (by rw [BitVec.le_def]; omega)]
    omega
  have hsize : ((mtu - ipv4HeaderSize) / 8 * 8).toNat = (mtu.toNat - 20) / 8 * 8 := by
    have hmtu' := mtu.isLt
    rw [BitVec.toNat_mul, BitVec.toNat_udiv, BitVec.toNat_sub_of_le (by rw [BitVec.le_def]; omega), hheader, height]
    exact Nat.mod_eq_of_lt (by omega)
  have hdvd : 8 ∣ (mtu.toNat - 20) / 8 * 8 := Nat.dvd_mul_left ..
  have hpayload : p.buffers.flatten ≠ [] := by
    intro hnil
    rw [hnil, List.length_nil] at hlength
    omega
  rw [fragmentPacket, hremaining, hsize]
  obtain ⟨pieces, hloop, hcut⟩ := @fragmentLoop_spec p allocate ((mtu.toNat - 20) / 8 * 8) 0
    (p.buffers.flatten.length + 1) p.buffers.flatten.length p.buffers (by omega) rfl (Nat.lt_succ_self _) hallocate
  have hcarried : ∀ pc ∈ pieces, Carried pc := fun pc hpc => hcut.carried hdvd (by omega) (by omega) hpc
  refine ⟨pieces.map p.frame, hloop, List.forall_mem_map.mpr fun pc hpc => ?_, fun arrivals hdelivered => ?_⟩
  · have hle := hcut.le pc hpc
    show 20 + pc.data.length ≤ mtu.toNat
    omega
  · obtain ⟨hincoming, hperm, hreceived⟩ := hdelivered.incoming hp hcarried hcut.apart
    have hfold : arrivals.foldl (fun a q => step env a (.ipv4 q)) a =
        fragmentAssembly env a (arrivals.map Ipv4Packet.stripped) := by
      rw [fragmentAssembly, List.foldl_map]
      refine List.foldl_ext _ _ a fun a q hq => ?_
      obtain ⟨hwell, hfive, -⟩ := hreceived q hq
      show fragmentAssembly env a ((Action.ipv4 q).queue env) = _
      rw [Action.queue, hwell.receive_eq (fun _ => hfive) fun hlonger => absurd hlonger (by rw [hfive]; decide)]
      rfl
    have hset : a.pieces p.key ∪ {pc | pc ∈ (arrivals.map Ipv4Packet.stripped).map Fragment.piece} =
        {pc | pc ∈ pieces} := by
      have hnone : a.pieces p.key = ∅ := by
        ext pc
        constructor
        · rintro ⟨f, hf, hkey, -⟩
          exact absurd hkey (hdelivered.unknown f hf)
        · intro hpc
          exact hpc.elim
      rw [hnone, Set.empty_union]
      ext pc
      exact hperm.mem_iff
    have hne : arrivals.map Ipv4Packet.stripped ≠ [] := by
      intro hnil
      rw [hnil] at hperm
      exact hcut.ne_nil hpayload hperm.nil_eq.symm
    obtain ⟨d, hd, hoctets, hlen, hprotocol, hkeys⟩ := hincoming.dispatched ha hc hne
      (by rw [hset]; exact hcut.holds hpayload)
    refine ⟨d, by rw [hfold, hd], hoctets, hlen, ?_, hkeys⟩
    obtain ⟨f, hf⟩ := List.exists_mem_of_ne_nil _ hne
    obtain ⟨q, hq, rfl⟩ := List.mem_map.mp hf
    rw [hprotocol q.stripped hf, (hreceived q hq).2.2]

end

end Netxduo.Ip
