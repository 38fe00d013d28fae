import Mathlib.Data.List.Basic

/-! Packets: chains of buffers that are linked, read at an offset and trimmed. -/

namespace Netxduo.Packets

/-! ### The source -/

/-- A buffer of a chain. Its own `nx_packet_last` counts the buffers up to the one it points to; it is read where the buffer
    is the first. --/
structure Buffer where
  octets : List UInt8
  last : Option Nat
deriving DecidableEq, Repr

/-- `NX_PACKET`, with the buffers behind it. --/
structure Packet where
  head : Buffer
  tail : List Buffer
  length : Nat
deriving DecidableEq, Repr

namespace Packet

def octets (p : Packet) : List UInt8 := p.head.octets ++ p.tail.flatMap Buffer.octets

/-- A packet of one buffer. --/
def ofOctets (octets : List UInt8) : Packet := ⟨⟨octets, none⟩, [], octets.length⟩

/-- `nx_packet_data_extract_offset`. The length is that of the octets, unless a buffer of the chain was lost. --/
def extractOffset (p : Packet) (offset size : Nat) : Option (List UInt8) :=
  if p.length ≤ offset then
    if offset = 0 then some [] else none
  else if p.octets.length ≤ offset then none
  else some ((p.octets.drop offset).take size)

/-- A packet is linked to another one, behind the buffer that counts as its last one. --/
def link (p q : Packet) : Packet :=
  let last := p.head.last.getD 0
  ⟨⟨p.head.octets, some (last + 1 + q.head.last.getD 0)⟩, p.tail.take last ++ q.head :: q.tail, p.length + q.length⟩

/-- The buffers that lie before the offset are released. --/
def releaseBefore (offset : Nat) (head : Buffer) : List Buffer → Option (Buffer × List Buffer × Nat)
  | [] => if head.octets.length ≤ offset then none else some (head, [], offset)
  | next :: tail =>
    if head.octets.length ≤ offset then releaseBefore (offset - head.octets.length) next tail
    else some (head, next :: tail, offset)

/-- What is behind an offset; the buffer that is first then has its own pointer. --/
def trim (p : Packet) (offset : Nat) : Option Packet :=
  (releaseBefore offset p.head p.tail).map fun r => ⟨⟨r.1.octets.drop r.2.2, r.1.last⟩, r.2.1, p.length - offset⟩

/-- An octet at the data pointer of the first buffer; behind the buffer there is what the memory holds. --/
def headOctet (beyond : Nat → UInt8) (p : Packet) (i : Nat) : UInt8 := (p.head.octets[i]?).getD (beyond i)

end Packet

/-! ### Chains in order -/

/-- No buffer is empty, and the length is that of the octets. --/
structure Packet.Filled (p : Packet) : Prop where
  head : p.head.octets ≠ []
  tail : ∀ b ∈ p.tail, b.octets ≠ []
  length : p.length = p.octets.length

/-- The buffer that counts as the last one is the last one. --/
def Packet.Ends (p : Packet) : Prop := p.head.last.getD 0 = p.tail.length

section chains

variable {p q : Packet} {offset size : Nat} {s m rest : List UInt8}

theorem ofOctets_octets (s : List UInt8) : (Packet.ofOctets s).octets = s := List.append_nil s

theorem ofOctets_filled (hs : s ≠ []) : (Packet.ofOctets s).Filled :=
  ⟨hs, fun _ hb => absurd hb List.not_mem_nil, by rw [ofOctets_octets]; rfl⟩

theorem Packet.Ends.link_octets (h : p.Ends) (q : Packet) : (p.link q).octets = p.octets ++ q.octets := by
  unfold Packet.Ends at h
  simp [Packet.link, Packet.octets, h]

theorem Packet.Ends.link_filled (h : p.Ends) (hp : p.Filled) (hq : q.Filled) : (p.link q).Filled := by
  refine ⟨hp.head, fun b hb => ?_, ?_⟩
  · rcases List.mem_append.mp hb with hb | hb
    · exact hp.tail b (List.mem_of_mem_take hb)
    · rcases List.mem_cons.mp hb with rfl | hb
      · exact hq.head
      · exact hq.tail b hb
  · rw [h.link_octets, List.length_append, ← hp.length, ← hq.length]
    rfl

theorem Packet.Ends.link_ends (h : p.Ends) (hq : q.Ends) : (p.link q).Ends := by
  unfold Packet.Ends at h hq ⊢
  simp only [Packet.link, Option.getD_some, List.length_append, List.length_take, List.length_cons]
  omega

theorem releaseBefore_all {head : Buffer} {tail : List Buffer}
    (hle : head.octets.length + (tail.flatMap Buffer.octets).length ≤ offset) :
    Packet.releaseBefore offset head tail = none := by
  induction tail generalizing head offset with
  | nil =>
    simp only [List.flatMap_nil, List.length_nil, Nat.add_zero] at hle
    exact if_pos hle
  | cons next tail ih =>
    rw [List.flatMap_cons, List.length_append] at hle
    unfold Packet.releaseBefore
    rw [if_pos (by omega)]
    exact ih (by omega)

theorem releaseBefore_spec {head : Buffer} {tail : List Buffer}
    (hlt : offset < head.octets.length + (tail.flatMap Buffer.octets).length) (htail : ∀ b ∈ tail, b.octets ≠ []) :
    ∃ head' tail' left, Packet.releaseBefore offset head tail = some (head', tail', left) ∧ left < head'.octets.length ∧
      (∀ b ∈ tail', b.octets ≠ []) ∧ tail'.length ≤ tail.length ∧
      head'.octets.drop left ++ tail'.flatMap Buffer.octets = (head.octets ++ tail.flatMap Buffer.octets).drop offset := by
  induction tail generalizing head offset with
  | nil =>
    simp only [List.flatMap_nil, List.length_nil, Nat.add_zero] at hlt
    exact ⟨head, [], offset, if_neg (Nat.not_le.mpr hlt), hlt, htail, Nat.le_refl _, by simp⟩
  | cons next tail ih =>
    unfold Packet.releaseBefore
    split
    · rename_i hle
      rw [List.flatMap_cons, List.length_append] at hlt
      obtain ⟨head', tail', left, hrelease, hleft, hne, hshort, hoctets⟩ :=
        @ih (offset - head.octets.length) next (by omega) fun b hb => htail b (List.mem_cons_of_mem _ hb)
      refine ⟨head', tail', left, hrelease, hleft, hne, Nat.le_succ_of_le hshort, ?_⟩
      rw [hoctets, List.flatMap_cons, eq_comm, List.drop_append, List.drop_eq_nil_of_le hle, List.nil_append]
    · rename_i hlt'
      refine ⟨head, next :: tail, offset, rfl, by omega, htail, Nat.le_refl _, ?_⟩
      rw [List.drop_append_of_le_length (by omega)]

/-- What is left of a packet behind an offset. --/
theorem Packet.Filled.trim (h : p.Filled) (hlt : offset < p.length) :
    ∃ q, p.trim offset = some q ∧ q.octets = p.octets.drop offset ∧ q.Filled := by
  have hlength := h.length
  rw [hlength, Packet.octets, List.length_append] at hlt
  obtain ⟨head, tail, left, hrelease, hleft, hne, -, hoctets⟩ := releaseBefore_spec hlt h.tail
  refine ⟨⟨⟨head.octets.drop left, head.last⟩, tail, p.length - offset⟩, ?_, hoctets, ?_, hne, ?_⟩
  · unfold Packet.trim
    rw [hrelease]
    rfl
  · intro hnil
    rw [List.drop_eq_nil_iff] at hnil
    exact absurd hleft (Nat.not_lt.mpr hnil)
  · show p.length - offset = (head.octets.drop left ++ tail.flatMap Buffer.octets).length
    rw [hoctets, List.length_drop, hlength]
    rfl

theorem Packet.Filled.extractOffset_eq (h : p.Filled) (offset size : Nat) :
    p.extractOffset offset size = (Packet.ofOctets p.octets).extractOffset offset size := by
  unfold Packet.extractOffset
  rw [ofOctets_octets, h.length]
  rfl

/-- Octets that are there are found in front of whatever follows. --/
theorem extractOffset_front (hle : offset + size ≤ m.length) (hsize : 0 < size) (rest : List UInt8) :
    (Packet.ofOctets (m ++ rest)).extractOffset offset size = some ((m.drop offset).take size) := by
  have hlength : (Packet.ofOctets (m ++ rest)).length = (m ++ rest).length := rfl
  unfold Packet.extractOffset
  rw [ofOctets_octets, hlength, List.length_append, if_neg (by omega), if_neg (by omega),
    List.drop_append_of_le_length (by omega), List.take_append_of_le_length (by rw [List.length_drop]; omega)]

end chains

end Netxduo.Packets
