import Netxduo.Tcp.RepairWire

/-! The walk of the old flight after a timeout, `_nx_tcp_socket_resend_range` and
    `_nx_tcp_socket_retransmit_after_timeout`: what it sends, what it spends and what it steps over. -/

namespace Netxduo
open Serial

/-! ### What a walk does -/

/-- The octet at `a` is one of the segments. --/
def SentIn (segs : List Segment) (a : ULONG) : Prop :=
  ∃ seg ∈ segs, (a - seg.sequenceNumber).toNat < seg.octets.length

/-- A block reports the octet at `a`. --/
def Sacked (blocks : List SackBlock) (a : ULONG) : Prop :=
  ∃ b ∈ blocks, INT (b.right - b.left) > 0 ∧ INT (a - b.left) ≥ 0 ∧ INT (b.right - a) > 0

/-- Octets of a queued packet, under their own sequence numbers. --/
def Original (q : List TxPacket) (seg : Segment) : Prop :=
  ∃ p ∈ q, ∃ k, k + seg.octets.length ≤ p.octets.length ∧ seg.sequenceNumber = p.sequence + BitVec.ofNat 32 k ∧
    seg.octets = (p.octets.drop k).take seg.octets.length

/-- A whole packet of one segment, which stands in for a copy that cannot be had. --/
def WholePacket (ip : Ip) (s : Socket) (q : List TxPacket) (seg : Segment) : Prop :=
  ∃ p ∈ q, seg.sequenceNumber = p.sequence ∧ seg.octets = p.octets ∧ seg.octets.length ≤ (payloadMss ip s).toNat

/-- A walk from the cursor `c` to the cursor `d`, at distances from `r`: every octet it passes is sent or reported, and
    what it sends lies between the first cursor and the limit, or is a whole packet. --/
structure Walked (ip : Ip) (r limit : ULONG) (q : List TxPacket) (s : Socket) (c available : ULONG) (t : Socket)
    (d left : ULONG) (segs : List Segment) : Prop where
  wire : t.wire = s.wire ++ segs
  spent : (segs.map (·.octets.length)).sum + left.toNat = available.toNat
  forward : rel r c ≤ rel r d
  bounded : rel r d < 2 ^ 30
  covered : ∀ a, rel r c ≤ rel r a → rel r a < rel r d → SentIn segs a ∨ Sacked s.sack.blocks a
  original : ∀ seg ∈ segs, Original q seg
  inside : ∀ seg ∈ segs, rel r c ≤ rel r seg.sequenceNumber ∧
    rel r seg.sequenceNumber + seg.octets.length ≤ rel r limit ∨ WholePacket ip s q seg
  blocks : t.sack.blocks = s.sack.blocks
  mss : payloadMss ip t = payloadMss ip s
  rtoEnd : t.snd.txRtoEnd = s.snd.txRtoEnd

section
variable {ip : Ip} {r limit c d e available left left' x y : ULONG} {q q' : List TxPacket} {s t u : Socket}
  {p : TxPacket} {segs segs' : List Segment} {blocks : List SackBlock} {n n' : ULONG}

theorem Walked.refl (ip : Ip) (limit : ULONG) (q : List TxPacket) (s : Socket) (available : ULONG)
    (hc : rel r c < 2 ^ 30) : Walked ip r limit q s c available s c available [] where
  wire := (List.append_nil _).symm
  spent := Nat.zero_add _
  forward := Int.le_refl _
  bounded := hc
  covered := fun a h₁ h₂ => by omega
  original := fun seg h => absurd h List.not_mem_nil
  inside := fun seg h => absurd h List.not_mem_nil
  blocks := rfl
  mss := rfl
  rtoEnd := rfl

theorem Walked.trans (h : Walked ip r limit q s c available t d left segs)
    (h' : Walked ip r limit q t d left u e left' segs') :
    Walked ip r limit q s c available u e left' (segs ++ segs') where
  wire := by rw [h'.wire, h.wire, List.append_assoc]
  spent := by
    have h₁ := h.spent
    have h₂ := h'.spent
    rw [List.map_append, List.sum_append]
    omega
  forward := Int.le_trans h.forward h'.forward
  bounded := h'.bounded
  covered := by
    intro a h₁ h₂
    by_cases hd : rel r a < rel r d
    · rcases h.covered a h₁ hd with ⟨seg, hseg, hin⟩ | hsacked
      · exact .inl ⟨seg, List.mem_append_left segs' hseg, hin⟩
      · exact .inr hsacked
    · rcases h'.covered a (Int.not_lt.mp hd) h₂ with ⟨seg, hseg, hin⟩ | hsacked
      · exact .inl ⟨seg, List.mem_append_right segs hseg, hin⟩
      · exact .inr (h.blocks ▸ hsacked)
  original := by
    intro seg hseg
    rcases List.mem_append.mp hseg with hseg | hseg
    · exact h.original seg hseg
    · exact h'.original seg hseg
  inside := by
    intro seg hseg
    rcases List.mem_append.mp hseg with hseg | hseg
    · exact h.inside seg hseg
    · rcases h'.inside seg hseg with ⟨h₁, h₂⟩ | ⟨p, hp, hsequence, hoctets, hmss⟩
      · exact .inl ⟨Int.le_trans h.forward h₁, h₂⟩
      · exact .inr ⟨p, hp, hsequence, hoctets, h.mss ▸ hmss⟩
  blocks := h'.blocks.trans h.blocks
  mss := h'.mss.trans h.mss
  rtoEnd := h'.rtoEnd.trans h.rtoEnd

theorem Walked.mono (h : Walked ip r limit q s c available t d left segs) (hq : ∀ p ∈ q, p ∈ q') :
    Walked ip r limit q' s c available t d left segs where
  wire := h.wire
  spent := h.spent
  forward := h.forward
  bounded := h.bounded
  covered := h.covered
  original := fun seg hseg => by
    obtain ⟨p, hp, hrest⟩ := h.original seg hseg
    exact ⟨p, hq p hp, hrest⟩
  inside := by
    intro seg hseg
    rcases h.inside seg hseg with hinside | ⟨p, hp, hrest⟩
    · exact .inl hinside
    · exact .inr ⟨p, hq p hp, hrest⟩
  blocks := h.blocks
  mss := h.mss
  rtoEnd := h.rtoEnd

/-! ### Places -/

theorem rel_add_toNat (h : rel r x + n.toNat < 2 ^ 31) : rel r (x + n) = rel r x + n.toNat := by
  have hx := rel_bounds r x
  have := @rel_add_ofNat 32 r x n.toNat (by omega) (by omega)
  rwa [BitVec.ofNat_toNat, BitVec.setWidth_eq] at this

theorem toNat_sub_place (h : rel r y ≤ rel r x) (h' : rel r x - rel r y < 2 ^ 31) :
    ((x - y).toNat : Int) = rel r x - rel r y := by
  have hint : INT (x - y) = rel r x - rel r y := int_sub_rel (by omega) h'
  have hcond := BitVec.toInt_eq_toNat_cond (x - y)
  unfold INT at hint
  split at hcond <;> omega

/-! ### The blocks -/

theorem resendIsland_send {len : ULONG} (h : resendIsland x limit blocks n = .send len) (hn : n.toNat < 2 ^ 31)
    (hpos : 0 < n.toNat) : len.toNat ≤ n.toNat ∧ 0 < len.toNat := by
  induction blocks generalizing n with
  | nil =>
    rw [resendIsland] at h
    cases h
    exact ⟨Nat.le_refl _, hpos⟩
  | cons b rest ih =>
    rw [resendIsland] at h
    by_cases hempty : INT (b.right - b.left) ≤ 0
    · rw [if_pos hempty] at h
      exact ih h hn hpos
    · rw [if_neg hempty] at h
      by_cases hin : INT (x - b.left) ≥ 0 ∧ INT (b.right - x) > 0
      · rw [if_pos hin] at h
        split at h <;> cases h
      · rw [if_neg hin] at h
        by_cases hclip : INT (b.left - x) > 0 ∧ INT (b.left - (x + n)) < 0
        · rw [if_pos hclip] at h
          have hsplit : b.left - (x + n) = (b.left - x) - n := by grind
          rw [hsplit] at hclip
          generalize b.left - x = gap at hclip h
          rw [int_pos_iff, int_neg_iff, BitVec.toNat_sub] at hclip
          have := ih h (by omega) (by omega)
          omega
        · rw [if_neg hclip] at h
          exact ih h hn hpos

theorem resendIsland_skip {right : ULONG} (h : resendIsland x limit blocks n = .skip right) :
    ∃ b ∈ blocks, b.right = right ∧ INT (b.right - b.left) > 0 ∧ INT (x - b.left) ≥ 0 ∧ INT (b.right - x) > 0 ∧
      INT (b.right - limit) < 0 := by
  induction blocks generalizing n with
  | nil => cases h
  | cons b rest ih =>
    rw [resendIsland] at h
    by_cases hempty : INT (b.right - b.left) ≤ 0
    · rw [if_pos hempty] at h
      obtain ⟨b', hb', hrest⟩ := ih h
      exact ⟨b', List.mem_cons_of_mem b hb', hrest⟩
    · rw [if_neg hempty] at h
      by_cases hin : INT (x - b.left) ≥ 0 ∧ INT (b.right - x) > 0
      · rw [if_pos hin] at h
        by_cases hheld : INT (b.right - limit) ≥ 0
        · rw [if_pos hheld] at h
          cases h
        · rw [if_neg hheld] at h
          cases h
          exact ⟨b, List.mem_cons_self .., rfl, Int.not_le.mp hempty, hin.1, hin.2, Int.not_le.mp hheld⟩
      · rw [if_neg hin] at h
        obtain ⟨b', hb', hrest⟩ := ih h
        exact ⟨b', List.mem_cons_of_mem b hb', hrest⟩

/-- An island is stepped over up to its end, and all of it is reported. --/
theorem walked_skip (ip : Ip) (q : List TxPacket) (available : ULONG) {right : ULONG} (hc : -2 ^ 30 ≤ rel r c)
    (hlimit : rel r limit < 2 ^ 30) (hlt : rel r c < rel r limit)
    (h : resendIsland c limit s.sack.blocks n = .skip right) :
    Walked ip r limit q s c available s right available [] ∧ rel r c < rel r right := by
  obtain ⟨b, hb, rfl, hsize, habove, hpos, hbelow⟩ := resendIsland_skip h
  have hgap : rel r limit = rel r c + (limit - c).toNat := by
    have := @toNat_sub_place r limit c (by omega) (by omega)
    omega
  have hsplit : b.right - limit = (b.right - c) - (limit - c) := by grind
  have hwhole : b.right - b.left = (b.right - c) + (c - b.left) := by grind
  have hnot : ¬INT (c - b.left) < 0 := Int.not_lt.mpr habove
  rw [hsplit, int_neg_iff, BitVec.toNat_sub] at hbelow
  rw [hwhole, int_pos_iff, BitVec.toNat_add] at hsize
  rw [int_neg_iff] at hnot
  rw [int_pos_iff] at hpos
  have hright : rel r b.right = rel r c + (b.right - c).toNat := by
    rw [← rel_add_toNat (by omega)]
    congr 1
    grind
  refine ⟨⟨(List.append_nil _).symm, Nat.zero_add _, by omega, by omega, fun a h₁ h₂ => .inr ⟨b, hb, ?_⟩,
    fun seg h => absurd h List.not_mem_nil, fun seg h => absurd h List.not_mem_nil, rfl, rfl, rfl⟩, by omega⟩
  have hplace := @toNat_sub_place r a c h₁ (by omega)
  have hleft : a - b.left = (a - c) + (c - b.left) := by grind
  have hrest : b.right - a = (b.right - c) - (a - c) := by grind
  rw [hwhole, hleft, hrest, ge_iff_le, ← Int.not_lt, int_neg_iff, int_pos_iff, int_pos_iff]
  generalize b.right - c = size at *
  generalize c - b.left = low at *
  generalize a - c = place at *
  rw [BitVec.toNat_add, BitVec.toNat_add, BitVec.toNat_sub]
  omega

/-! ### A round over one packet -/

/-- The octets the walk may send at the cursor, the blocks aside. --/
def resendLength (ip : Ip) (limit : ULONG) (p : TxPacket) (c available : ULONG) (s : Socket) : ULONG :=
  let length := p.payload - (c - p.sequence)
  let length := if length > limit - c then limit - c else length
  let length := if length > payloadMss ip s then payloadMss ip s else length
  if length > available then available else length

/-- A packet of the queue whose places do not wrap. --/
structure PlacedPacket (r : ULONG) (p : TxPacket) : Prop where
  low : -2 ^ 30 ≤ rel r p.sequence
  high : rel r p.sequence + p.octets.length < 2 ^ 30

theorem PlacedPacket.length (h : PlacedPacket r p) : p.payload.toNat = p.octets.length := by
  have := h.low
  have := h.high
  exact toNat_payload (by omega)

theorem PlacedPacket.rel_end (h : PlacedPacket r p) : rel r p.endSequence = rel r p.sequence + p.octets.length := by
  have hhigh := h.high
  rw [TxPacket.endSequence, rel_add_toNat (by rw [h.length]; omega), h.length]

theorem toNat_min (x y : ULONG) : (if x > y then y else x).toNat = min x.toNat y.toNat := by
  split
  · rename_i h
    exact (Nat.min_eq_right (Nat.le_of_lt h)).symm
  · rename_i h
    exact (Nat.min_eq_left (BitVec.not_lt.mp h)).symm

/-- They lie in the packet and below the limit, and there is one of them at least. --/
theorem toNat_resendLength (ip : Ip) (s : Socket) (h : PlacedPacket r p) (hc : rel r p.sequence ≤ rel r c)
    (hin : rel r c < rel r p.endSequence) (hlimit : rel r c < rel r limit) (hlimit' : rel r limit < 2 ^ 30)
    (havailable : available ≠ 0)
    (hmss : 0 < (payloadMss ip s).toNat) :
    0 < (resendLength ip limit p c available s).toNat ∧
      rel r c + (resendLength ip limit p c available s).toNat ≤ rel r p.endSequence ∧
      rel r c + (resendLength ip limit p c available s).toNat ≤ rel r limit ∧
      (resendLength ip limit p c available s).toNat ≤ available.toNat := by
  have hlow := h.low
  have hhigh := h.high
  have hend := h.rel_end
  have hgap := @toNat_sub_place r limit c (by omega) (by omega)
  have hdone := @toNat_sub_place r c p.sequence hc (by omega)
  have hrest : (p.payload - (c - p.sequence)).toNat = p.octets.length - (c - p.sequence).toNat := by
    rw [BitVec.toNat_sub_of_le (by rw [BitVec.le_def, h.length]; omega), h.length]
  have hpos : 0 < available.toNat := Nat.pos_of_ne_zero fun h => havailable (BitVec.eq_of_toNat_eq h)
  unfold resendLength
  dsimp only
  rw [toNat_min, toNat_min, toNat_min, hrest]
  omega

/-- A segment that goes out moves the cursor to its end. --/
theorem walked_sent {seg : Segment} (hwire : t.wire = s.wire ++ [seg])
    (hspent : seg.octets.length + left.toNat = available.toNat) (hlow : -2 ^ 30 ≤ rel r seg.sequenceNumber)
    (hbegin : rel r seg.sequenceNumber ≤ rel r c) (hend : rel r d = rel r seg.sequenceNumber + seg.octets.length)
    (hforward : rel r c ≤ rel r d) (hbounded : rel r d < 2 ^ 30) (horiginal : Original q seg)
    (hinside : rel r c ≤ rel r seg.sequenceNumber ∧ rel r seg.sequenceNumber + seg.octets.length ≤ rel r limit ∨
      WholePacket ip s q seg) (hblocks : t.sack.blocks = s.sack.blocks) (hmss : payloadMss ip t = payloadMss ip s)
    (hrtoEnd : t.snd.txRtoEnd = s.snd.txRtoEnd) :
    Walked ip r limit q s c available t d left [seg] where
  wire := hwire
  spent := by
    rw [List.map_singleton, List.sum_singleton]
    exact hspent
  forward := hforward
  bounded := hbounded
  covered := by
    intro a h₁ h₂
    have := @toNat_sub_place r a seg.sequenceNumber (by omega) (by omega)
    exact .inl ⟨seg, List.mem_singleton_self seg, by omega⟩
  original := fun seg' h => by
    obtain rfl := List.mem_singleton.mp h
    exact horiginal
  inside := fun seg' h => by
    obtain rfl := List.mem_singleton.mp h
    exact hinside
  blocks := hblocks
  mss := hmss
  rtoEnd := hrtoEnd

/-- A copy of the octets at the cursor. --/
theorem walked_copy (ip : Ip) (limit : ULONG) (s : Socket) (h : PlacedPacket r p) (hp : p ∈ q)
    (hc : rel r p.sequence ≤ rel r c) (hpos : 0 < n.toNat)
    (hin : rel r c + n.toNat ≤ rel r p.endSequence) (hlimit : rel r c + n.toNat ≤ rel r limit)
    (havailable : n.toNat ≤ available.toNat) (m : Nat) :
    ∃ seg, Walked ip r limit q s c available
      ((retransmitSegment ip { s with asked := m } c
        ((p.octets.drop (c - p.sequence).toNat).take n.toNat)).driverTakes ip).2
      (c + n) (available - n) [seg] := by
  have hlow := h.low
  have hhigh := h.high
  have hend := h.rel_end
  have hdone := @toNat_sub_place r c p.sequence hc (by omega)
  have hcut : ((p.octets.drop (c - p.sequence).toNat).take n.toNat).length = n.toNat := by
    rw [List.length_take, List.length_drop]
    omega
  have hplace : c = p.sequence + BitVec.ofNat 32 (c - p.sequence).toNat := by
    rw [BitVec.ofNat_toNat, BitVec.setWidth_eq]
    grind
  have hnext : rel r (c + n) = rel r c + n.toNat := rel_add_toNat (by omega)
  refine ⟨_, walked_sent rfl ?_ (Int.le_trans hlow hc) (Int.le_refl _) ?_ (by omega) (by omega)
    ⟨p, hp, (c - p.sequence).toNat, ?_, hplace, ?_⟩ (.inl ⟨Int.le_refl _, ?_⟩) rfl rfl rfl⟩
  · show ((p.octets.drop (c - p.sequence).toNat).take n.toNat).length + _ = _
    rw [hcut, BitVec.toNat_sub_of_le havailable]
    omega
  · show _ = rel r c + (((p.octets.drop (c - p.sequence).toNat).take n.toNat).length : Int)
    rw [hcut, hnext]
  · show _ + ((p.octets.drop (c - p.sequence).toNat).take n.toNat).length ≤ _
    rw [hcut]
    omega
  · show _ = (p.octets.drop _).take ((p.octets.drop (c - p.sequence).toNat).take n.toNat).length
    rw [hcut]
  · show rel r c + (((p.octets.drop (c - p.sequence).toNat).take n.toNat).length : Int) ≤ _
    rw [hcut]
    exact hlimit

/-- The whole packet. --/
theorem walked_packet (ip : Ip) (limit : ULONG) (s : Socket) (h : PlacedPacket r p) (hp : p ∈ q)
    (hc : rel r p.sequence ≤ rel r c)
    (hin : rel r c < rel r p.endSequence) (havailable : p.payload.toNat ≤ available.toNat) (m : Nat)
    (hinside : rel r c = rel r p.sequence ∧ rel r p.endSequence ≤ rel r limit ∨
      p.payload.toNat ≤ (payloadMss ip s).toNat) :
    ∃ seg, Walked ip r limit q s c available (retransmitPacket ip { s with asked := m } p) p.endSequence
      (available - p.payload) [seg] := by
  have hlow := h.low
  have hhigh := h.high
  have hend := h.rel_end
  have hlength := h.length
  refine ⟨_, walked_sent rfl ?_ hlow hc hend (Int.le_of_lt hin) (by omega)
    ⟨p, hp, 0, Nat.le_of_eq (Nat.zero_add _), (BitVec.add_zero _).symm, List.take_length.symm⟩ ?_ rfl rfl rfl⟩
  · show p.octets.length + _ = _
    rw [BitVec.toNat_sub_of_le havailable]
    omega
  · rcases hinside with ⟨hat, hle⟩ | hle
    · refine .inl ⟨Int.le_of_eq hat, ?_⟩
      show rel r p.sequence + p.octets.length ≤ _
      omega
    · exact .inr ⟨p, hp, rfl, rfl, hlength ▸ hle⟩

/-- A round ends the work on the packet, or moves the cursor and goes on. --/
theorem resendPacket_step (ip : Ip) (h : PlacedPacket r p) (hp : p ∈ q) (hc : rel r p.sequence ≤ rel r c)
    (hc' : rel r c < 2 ^ 30) (hlimit : -2 ^ 30 ≤ rel r limit) (hlimit' : rel r limit < 2 ^ 30)
    (hmss : 0 < (payloadMss ip s).toNat) (available : ULONG) :
    (∃ R segs, (∀ rounds, resendPacket ip limit p (rounds + 1) c available s = R) ∧
      Walked ip r limit q s c available R.socket R.cursor R.available segs ∧
      (R.proceed = true → rel r p.endSequence ≤ rel r R.cursor)) ∨
    ∃ d left t segs, (∀ rounds, resendPacket ip limit p (rounds + 1) c available s =
        resendPacket ip limit p rounds d left t) ∧
      Walked ip r limit q s c available t d left segs ∧ rel r c < rel r d ∧ rel r c < rel r p.endSequence := by
  have hlow := h.low
  have hhigh := h.high
  have hend := h.rel_end
  have hint : INT (p.endSequence - c) = rel r p.endSequence - rel r c := int_sub_rel (by omega) (by omega)
  by_cases hin : INT (p.endSequence - c) > 0
  · have hseq : (if INT (c - p.sequence) > 0 then c else p.sequence) = c := by
      split
      · rfl
      · rename_i hnot
        rw [@int_sub_rel r c p.sequence (by omega) (by omega)] at hnot
        exact rel_injective r (by omega)
    by_cases hstop : INT (limit - c) ≤ 0 ∨ available = 0
    · refine .inl ⟨⟨false, c, available, s⟩, [], fun rounds => ?_, .refl ip limit q s available hc',
        fun h => by cases h⟩
      rw [resendPacket, if_pos hin]
      dsimp only
      rw [hseq, if_pos hstop]
    · have hbelow : rel r c < rel r limit := by
        rw [@int_sub_rel r limit c (by omega) (by omega)] at hstop
        omega
      obtain ⟨hpos, hfit, hunder, hpaid⟩ := toNat_resendLength ip s h hc (by omega) hbelow hlimit'
        (fun hz => hstop (.inr hz)) hmss
      cases hisland : resendIsland c limit s.sack.blocks (resendLength ip limit p c available s) with
      | held =>
        refine .inl ⟨⟨false, c, available, s⟩, [], fun rounds => ?_, .refl ip limit q s available hc',
          fun h => by cases h⟩
        unfold resendLength at hisland
        rw [resendPacket, if_pos hin]
        dsimp only at hisland ⊢
        rw [hseq, if_neg hstop, hisland]
      | skip right =>
        obtain ⟨hwalked, hlt⟩ := walked_skip ip q available (by omega) hlimit' hbelow hisland
        refine .inr ⟨right, available, s, [], fun rounds => ?_, hwalked, hlt, by omega⟩
        unfold resendLength at hisland
        rw [resendPacket, if_pos hin]
        dsimp only at hisland ⊢
        rw [hseq, if_neg hstop, hisland]
      | send n =>
        obtain ⟨hle, hpos⟩ := resendIsland_send hisland (by omega) hpos
        have hround : ∀ rounds, resendPacket ip limit p (rounds + 1) c available s =
            if c ≠ p.sequence ∨ n ≠ p.payload then
              ((dataSlice ip s p c n).1).elim
                (if p.payload ≤ payloadMss ip (dataSlice ip s p c n).2 ∧ p.payload ≤ available then
                  ⟨true, p.endSequence, available - p.payload, retransmitPacket ip (dataSlice ip s p c n).2 p⟩
                else ⟨false, c, available, (dataSlice ip s p c n).2⟩)
                fun octets =>
                  let t := ((retransmitSegment ip (dataSlice ip s p c n).2 c octets).driverTakes ip).2
                  if INT (p.endSequence - (c + n)) > 0 then
                    if available - n ≠ 0 then resendPacket ip limit p rounds (c + n) (available - n) t
                    else ⟨false, c + n, available - n, t⟩
                  else ⟨true, c + n, available - n, t⟩
            else ⟨true, p.endSequence, available - p.payload, retransmitPacket ip s p⟩ := by
          intro rounds
          unfold resendLength at hisland
          rw [resendPacket, if_pos hin]
          dsimp only at hisland ⊢
          rw [hseq, if_neg hstop, hisland]
          dsimp only
          split
          · cases (dataSlice ip s p c n).1 <;> rfl
          · rfl
        by_cases hpart : c ≠ p.sequence ∨ n ≠ p.payload
        · have hslice : dataSlice ip s p c n =
              (if ip.packetAllocate s.asked = true ∧
                  ((p.octets.drop (c - p.sequence).toNat).take n.toNat).length = n.toNat then
                some ((p.octets.drop (c - p.sequence).toNat).take n.toNat) else none,
                { s with asked := s.asked + 1 }) := rfl
          by_cases hcopy : ip.packetAllocate s.asked = true ∧
              ((p.octets.drop (c - p.sequence).toNat).take n.toNat).length = n.toNat
          · obtain ⟨seg, hwalked⟩ := walked_copy ip limit s h hp hc hpos (by omega) (by omega)
              (Nat.le_trans hle hpaid) (s.asked + 1)
            have hnext : rel r (c + n) = rel r c + n.toNat := rel_add_toNat (by omega)
            rw [hslice, if_pos hcopy] at hround
            by_cases hmore : INT (p.endSequence - (c + n)) > 0
            · by_cases hleft : available - n ≠ 0
              · refine .inr ⟨c + n, available - n, _, _, fun rounds => ?_, hwalked, by omega, by omega⟩
                rw [hround, if_pos hpart]
                dsimp only [Option.elim]
                rw [if_pos hmore, if_pos hleft]
              · refine .inl ⟨⟨false, _, _, _⟩, _, fun rounds => ?_, hwalked, fun h => by cases h⟩
                rw [hround, if_pos hpart]
                dsimp only [Option.elim]
                rw [if_pos hmore, if_neg hleft]
            · refine .inl ⟨⟨true, _, _, _⟩, _, fun rounds => ?_, hwalked, fun _ => ?_⟩
              · rw [hround, if_pos hpart]
                dsimp only [Option.elim]
                rw [if_neg hmore]
              · rw [@int_sub_rel r p.endSequence (c + n) (by omega) (by omega)] at hmore
                show rel r p.endSequence ≤ rel r (c + n)
                omega
          · rw [hslice, if_neg hcopy] at hround
            by_cases hwhole : p.payload ≤ payloadMss ip { s with asked := s.asked + 1 } ∧ p.payload ≤ available
            · obtain ⟨seg, hwalked⟩ := walked_packet ip limit s h hp hc (by omega) hwhole.2
                (s.asked + 1) (.inr hwhole.1)
              refine .inl ⟨⟨true, _, _, _⟩, _, fun rounds => ?_, hwalked, fun _ => Int.le_refl _⟩
              rw [hround, if_pos hpart]
              dsimp only [Option.elim]
              rw [if_pos hwhole]
              rfl
            · refine .inl ⟨⟨false, c, available, { s with asked := s.asked + 1 }⟩, [], fun rounds => ?_, ?_,
                fun h => by cases h⟩
              · rw [hround, if_pos hpart]
                dsimp only [Option.elim]
                rw [if_neg hwhole]
              · have hrefl := Walked.refl ip limit q s available hc'
                exact ⟨hrefl.wire, hrefl.spent, hrefl.forward, hrefl.bounded, hrefl.covered, hrefl.original,
                  hrefl.inside, rfl, rfl, rfl⟩
        · obtain ⟨hat, hall⟩ : c = p.sequence ∧ n = p.payload := by
            rw [not_or, not_not, not_not] at hpart
            exact hpart
          have hlength := h.length
          rw [hall] at hle
          obtain ⟨seg, hwalked⟩ := walked_packet ip limit s h hp hc (by omega)
            (Nat.le_trans hle hpaid) s.asked (.inl ⟨by rw [hat], by omega⟩)
          refine .inl ⟨⟨true, _, _, _⟩, _, fun rounds => ?_, hwalked, fun _ => Int.le_refl _⟩
          rw [hround, if_neg hpart]
          rfl
  · refine .inl ⟨⟨true, c, available, s⟩, [], fun rounds => ?_, .refl ip limit q s available hc', fun _ => ?_⟩
    · rw [resendPacket, if_neg hin]
    · show rel r p.endSequence ≤ rel r c
      omega

/-! ### A packet, and the queue -/

/-- Every round that goes on moves the cursor over an octet of the packet, so the octets bound the rounds. --/
theorem resendPacket_ends (h : PlacedPacket r p) (hlimit : -2 ^ 30 ≤ rel r limit) (hlimit' : rel r limit < 2 ^ 30)
    (rounds : Nat) : ∀ s c available rounds', rel r p.sequence ≤ rel r c → rel r c < 2 ^ 30 →
      0 < (payloadMss ip s).toNat → (rel r p.endSequence - rel r c).toNat < rounds →
      (rel r p.endSequence - rel r c).toNat < rounds' →
      resendPacket ip limit p rounds c available s = resendPacket ip limit p rounds' c available s := by
  induction rounds with
  | zero => exact fun s c available rounds' _ _ _ h => absurd h (Nat.not_lt_zero _)
  | succ rounds ih =>
    intro s c available rounds' hc hc' hmss hlt hlt'
    obtain ⟨rounds', rfl⟩ := Nat.exists_eq_add_one_of_ne_zero (Nat.ne_of_gt (Nat.lt_of_le_of_lt (Nat.zero_le _) hlt'))
    rcases resendPacket_step ip h (List.mem_singleton_self p) hc hc' hlimit hlimit' hmss available with
      ⟨R, segs, hround, -, -⟩ | ⟨d, left, t, segs, hround, hwalked, hless, hbelow⟩
    · rw [hround, hround]
    · rw [hround, hround]
      exact ih t d left rounds' (Int.le_trans hc hwalked.forward) hwalked.bounded (by rw [hwalked.mss]; exact hmss)
        (by omega) (by omega)

theorem resendPacket_walked (ip : Ip) (h : PlacedPacket r p) (hp : p ∈ q) (hlimit : -2 ^ 30 ≤ rel r limit)
    (hlimit' : rel r limit < 2 ^ 30) (rounds : Nat) : ∀ s c available, rel r p.sequence ≤ rel r c → rel r c < 2 ^ 30 →
      0 < (payloadMss ip s).toNat → ∃ segs,
        Walked ip r limit q s c available (resendPacket ip limit p rounds c available s).socket
          (resendPacket ip limit p rounds c available s).cursor (resendPacket ip limit p rounds c available s).available
          segs ∧
        ((resendPacket ip limit p rounds c available s).proceed = true →
          rel r p.endSequence ≤ rel r (resendPacket ip limit p rounds c available s).cursor) := by
  induction rounds with
  | zero => exact fun s c available _ hc' _ => ⟨[], .refl ip limit q s available hc', fun h => by cases h⟩
  | succ rounds ih =>
    intro s c available hc hc' hmss
    rcases resendPacket_step ip h hp hc hc' hlimit hlimit' hmss available with
      ⟨R, segs, hround, hwalked, hproceed⟩ | ⟨d, left, t, segs, hround, hwalked, -, -⟩
    · rw [hround]
      exact ⟨segs, hwalked, hproceed⟩
    · rw [hround]
      obtain ⟨segs', hwalked', hproceed⟩ := ih t d left (Int.le_trans hc hwalked.forward) hwalked.bounded
        (by rw [hwalked.mss]; exact hmss)
      exact ⟨segs ++ segs', hwalked.trans hwalked', hproceed⟩

/-- The packets follow each other in the sequence space from `e` on. --/
def Contiguous : ULONG → List TxPacket → Prop
  | _, [] => True
  | e, p :: rest => p.sequence = e ∧ Contiguous p.endSequence rest

/-- The walk over the queue. --/
theorem resendRange_walked (hlimit : -2 ^ 30 ≤ rel r limit) (hlimit' : rel r limit < 2 ^ 30) (q : List TxPacket) :
    ∀ e s c available, Contiguous e q → (∀ p ∈ q, PlacedPacket r p) → rel r e ≤ rel r c → rel r c < 2 ^ 30 →
      0 < (payloadMss ip s).toNat → ∃ segs left,
        Walked ip r limit q s c available (resendRange ip limit q c available s).2
          (resendRange ip limit q c available s).1 left segs := by
  induction q with
  | nil => exact fun e s c available _ _ _ hc' _ => ⟨[], available, .refl ip limit [] s available hc'⟩
  | cons p rest ih =>
    intro e s c available hcontiguous hplaced hc hc' hmss
    obtain ⟨rfl, hrest⟩ := hcontiguous
    obtain ⟨segs, hwalked, hproceed⟩ := resendPacket_walked ip (hplaced p (List.mem_cons_self ..))
      (List.mem_cons_self (l := rest)) hlimit hlimit' (p.octets.length + 1) s c available hc hc' hmss
    rw [resendRange]
    split
    · dsimp only
      split
      · rename_i hgo
        obtain ⟨segs', left', hwalked'⟩ := ih p.endSequence _ _ _ hrest
          (fun p' hp' => hplaced p' (List.mem_cons_of_mem p hp')) (hproceed hgo) hwalked.bounded
          (by rw [hwalked.mss]; exact hmss)
        exact ⟨segs ++ segs', left', hwalked.trans (hwalked'.mono fun p' hp' => List.mem_cons_of_mem p hp')⟩
      · exact ⟨segs, _, hwalked⟩
    · exact ⟨[], available, .refl ip limit (p :: rest) s available hc'⟩

/-! ### The walk after an acknowledgment -/

/-- Where the walk starts: at the cursor, or at what is not acknowledged. --/
def rtoCursor (s : Socket) : ULONG :=
  if INT (dataUnacked s - s.snd.txRtoNext) > 0 then dataUnacked s else s.snd.txRtoNext

/-- What the windows leave for it. --/
def rtoBudget (s : Socket) : Nat :=
  min s.snd.txWindowCongestion.toNat s.snd.txWindowAdvertised.toNat -
    (s.snd.txOutstandingBytes - (s.snd.txRtoEnd - rtoCursor s)).toNat

/-- The old flight, seen from its end: the queue holds it from what is not acknowledged on, and nothing of it is far
    away. --/
structure OldFlight (s : Socket) : Prop where
  queue : ∃ e, Contiguous e s.snd.transmitSent ∧ rel s.snd.txRtoEnd e ≤ rel s.snd.txRtoEnd (dataUnacked s)
  placed : ∀ p ∈ s.snd.transmitSent, PlacedPacket s.snd.txRtoEnd p
  empty : s.snd.transmitSent = [] → 0 ≤ rel s.snd.txRtoEnd (dataUnacked s)
  unacked : -2 ^ 30 ≤ rel s.snd.txRtoEnd (dataUnacked s) ∧ rel s.snd.txRtoEnd (dataUnacked s) < 2 ^ 30
  cursor : -2 ^ 30 ≤ rel s.snd.txRtoEnd s.snd.txRtoNext ∧ rel s.snd.txRtoEnd s.snd.txRtoNext < 2 ^ 30
  outstanding : -rel s.snd.txRtoEnd (dataUnacked s) ≤ s.snd.txOutstandingBytes.toNat
  mss : s.connectMss ≠ 0

/-- One call of the walk. --/
structure RtoWalked (ip : Ip) (s t : Socket) (segs : List Segment) : Prop where
  wire : t.wire = s.wire ++ segs
  spent : (segs.map (·.octets.length)).sum ≤ rtoBudget s
  rtoEnd : t.snd.txRtoEnd = s.snd.txRtoEnd
  forward : rel s.snd.txRtoEnd s.snd.txRtoNext ≤ rel s.snd.txRtoEnd t.snd.txRtoNext
  covered : ∀ a, rel s.snd.txRtoEnd s.snd.txRtoNext ≤ rel s.snd.txRtoEnd a →
    rel s.snd.txRtoEnd a < rel s.snd.txRtoEnd t.snd.txRtoNext →
    SentIn segs a ∨ Sacked s.sack.blocks a ∨ rel s.snd.txRtoEnd a < rel s.snd.txRtoEnd (dataUnacked s)
  original : ∀ seg ∈ segs, Original s.snd.transmitSent seg
  inside : ∀ seg ∈ segs, rel s.snd.txRtoEnd (dataUnacked s) ≤ rel s.snd.txRtoEnd seg.sequenceNumber ∧
    rel s.snd.txRtoEnd seg.sequenceNumber + seg.octets.length ≤ 0 ∨ WholePacket ip s s.snd.transmitSent seg

/-- The cursor moves, and nothing is sent. --/
theorem rtoWalked_silent {t : Socket} (hwire : t.wire = s.wire) (hend : t.snd.txRtoEnd = s.snd.txRtoEnd)
    (hforward : rel s.snd.txRtoEnd s.snd.txRtoNext ≤ rel s.snd.txRtoEnd t.snd.txRtoNext)
    (hacked : rel s.snd.txRtoEnd t.snd.txRtoNext ≤ rel s.snd.txRtoEnd s.snd.txRtoNext ∨
      rel s.snd.txRtoEnd t.snd.txRtoNext ≤ rel s.snd.txRtoEnd (dataUnacked s)) : RtoWalked ip s t [] where
  wire := hwire.trans (List.append_nil _).symm
  spent := Nat.zero_le _
  rtoEnd := hend
  forward := hforward
  covered := fun a h₁ h₂ => .inr (.inr (by omega))
  original := fun seg h => absurd h List.not_mem_nil
  inside := fun seg h => absurd h List.not_mem_nil

theorem rel_rtoCursor (h : OldFlight s) : rel s.snd.txRtoEnd (rtoCursor s) =
    max (rel s.snd.txRtoEnd s.snd.txRtoNext) (rel s.snd.txRtoEnd (dataUnacked s)) := by
  have h₁ := h.unacked
  have h₂ := h.cursor
  have hint : INT (dataUnacked s - s.snd.txRtoNext) =
      rel s.snd.txRtoEnd (dataUnacked s) - rel s.snd.txRtoEnd s.snd.txRtoNext := int_sub_rel (by omega) (by omega)
  unfold rtoCursor
  rw [hint]
  split <;> omega

theorem payloadMss_pos (ip : Ip) (h : s.connectMss ≠ 0) : 0 < (payloadMss ip s).toNat := by
  have hpos : 0 < s.connectMss.toNat := Nat.pos_of_ne_zero fun hz => h (BitVec.eq_of_toNat_eq hz)
  unfold payloadMss
  split
  · rename_i hcond
    rw [Bool.and_eq_true, decide_eq_true_eq] at hcond
    have hgt : (12 : ULONG).toNat < s.connectMss.toNat := hcond.2
    have htwelve : (12 : ULONG).toNat = 12 := rfl
    rw [BitVec.toNat_sub_of_le (Nat.le_of_lt hgt)]
    omega
  · exact hpos

theorem retransmitAfterTimeout_walked (ip : Ip) (h : OldFlight s) :
    ∃ segs, RtoWalked ip s (retransmitAfterTimeout ip s) segs := by
  obtain ⟨hlow, hhigh⟩ := h.unacked
  obtain ⟨hlow', hhigh'⟩ := h.cursor
  have hself : rel s.snd.txRtoEnd s.snd.txRtoEnd = 0 := rel_self _
  have hcursor := rel_rtoCursor h
  have hmove : (if INT (dataUnacked s - s.snd.txRtoNext) > 0 then { s with snd.txRtoNext := dataUnacked s } else s) =
      { s with snd.txRtoNext := rtoCursor s } := by
    unfold rtoCursor
    split <;> rfl
  unfold retransmitAfterTimeout
  by_cases hdone : INT (s.snd.txRtoEnd - s.snd.txRtoNext) ≤ 0
  · rw [if_pos hdone]
    exact ⟨[], rtoWalked_silent rfl rfl (Int.le_refl _) (.inl (Int.le_refl _))⟩
  rw [if_neg hdone]
  rw [@int_sub_rel s.snd.txRtoEnd s.snd.txRtoEnd s.snd.txRtoNext (by omega) (by omega)] at hdone
  by_cases hempty : s.snd.transmitSent = []
  · rw [if_pos hempty]
    have hacked := h.empty hempty
    refine ⟨[], rtoWalked_silent rfl rfl ?_ (.inr ?_)⟩
    · show _ ≤ rel s.snd.txRtoEnd s.snd.txRtoEnd
      omega
    · show rel s.snd.txRtoEnd s.snd.txRtoEnd ≤ _
      omega
  rw [if_neg hempty]
  dsimp only
  rw [hmove]
  have hsilent : RtoWalked ip s { s with snd.txRtoNext := rtoCursor s } [] := by
    refine rtoWalked_silent rfl rfl ?_ ?_
    · show _ ≤ rel s.snd.txRtoEnd (rtoCursor s)
      omega
    · show rel s.snd.txRtoEnd (rtoCursor s) ≤ _ ∨ rel s.snd.txRtoEnd (rtoCursor s) ≤ _
      omega
  dsimp only
  by_cases hpassed : INT (s.snd.txRtoEnd - rtoCursor s) ≤ 0
  · rw [if_pos hpassed]
    exact ⟨[], hsilent⟩
  rw [if_neg hpassed]
  rw [@int_sub_rel s.snd.txRtoEnd s.snd.txRtoEnd (rtoCursor s) (by omega) (by omega)] at hpassed
  have hwidth := @toNat_sub_place s.snd.txRtoEnd s.snd.txRtoEnd (rtoCursor s) (by omega) (by omega)
  have houtstanding := h.outstanding
  rw [if_neg (show ¬s.snd.txRtoEnd - rtoCursor s > s.snd.txOutstandingBytes from fun hgt => by
    have hgt : s.snd.txOutstandingBytes.toNat < (s.snd.txRtoEnd - rtoCursor s).toNat := hgt
    omega)]
  by_cases hroom : (if s.snd.txWindowCongestion > s.snd.txWindowAdvertised then s.snd.txWindowAdvertised
      else s.snd.txWindowCongestion) ≤ s.snd.txOutstandingBytes - (s.snd.txRtoEnd - rtoCursor s)
  · rw [if_pos hroom]
    exact ⟨[], hsilent⟩
  rw [if_neg hroom]
  obtain ⟨e, hcontiguous, he⟩ := h.queue
  obtain ⟨segs, left, hwalked⟩ := @resendRange_walked ip s.snd.txRtoEnd s.snd.txRtoEnd
    (by omega) (by omega) s.snd.transmitSent e
    { s with snd.txRtoNext := rtoCursor s } (rtoCursor s)
    ((if s.snd.txWindowCongestion > s.snd.txWindowAdvertised then s.snd.txWindowAdvertised
        else s.snd.txWindowCongestion) -
      (s.snd.txOutstandingBytes - (s.snd.txRtoEnd - rtoCursor s))) hcontiguous h.placed (by omega) (by omega)
    (payloadMss_pos ip h.mss)
  refine ⟨segs, hwalked.wire, ?_, hwalked.rtoEnd, ?_, fun a h₁ h₂ => ?_, hwalked.original, fun seg hseg => ?_⟩
  · have hspent := hwalked.spent
    have hmin := toNat_min s.snd.txWindowCongestion s.snd.txWindowAdvertised
    have hle : (s.snd.txOutstandingBytes - (s.snd.txRtoEnd - rtoCursor s)).toNat ≤
        (if s.snd.txWindowCongestion > s.snd.txWindowAdvertised then s.snd.txWindowAdvertised
          else s.snd.txWindowCongestion).toNat := Nat.le_of_not_le hroom
    rw [BitVec.toNat_sub_of_le hle, hmin] at hspent
    unfold rtoBudget
    omega
  · have hstart : rel s.snd.txRtoEnd s.snd.txRtoNext ≤ rel s.snd.txRtoEnd (rtoCursor s) := by omega
    exact Int.le_trans hstart hwalked.forward
  · by_cases hacked : rel s.snd.txRtoEnd a < rel s.snd.txRtoEnd (dataUnacked s)
    · exact .inr (.inr hacked)
    · exact (hwalked.covered a (by omega) h₂).imp id .inl
  · rcases hwalked.inside seg hseg with ⟨h₁, h₂⟩ | hwhole
    · exact .inl ⟨by omega, by omega⟩
    · exact .inr hwhole

/-- One call for a lost copy: one segment at most, below the cursor. --/
structure LostCopyWalked (ip : Ip) (s t : Socket) (segs : List Segment) : Prop where
  wire : t.wire = s.wire ++ segs
  spent : (segs.map (·.octets.length)).sum ≤ (payloadMss ip s).toNat
  original : ∀ seg ∈ segs, Original s.snd.transmitSent seg
  inside : ∀ seg ∈ segs, rel s.snd.txRtoEnd (dataUnacked s) ≤ rel s.snd.txRtoEnd seg.sequenceNumber ∧
    rel s.snd.txRtoEnd seg.sequenceNumber + seg.octets.length ≤ rel s.snd.txRtoEnd s.snd.txRtoNext ∨
    WholePacket ip s s.snd.transmitSent seg

theorem retransmitLostCopy_walked (ip : Ip) (h : OldFlight s) :
    ∃ segs, LostCopyWalked ip s (retransmitLostCopy ip s).2 segs := by
  obtain ⟨hlow, hhigh⟩ := h.unacked
  obtain ⟨hlow', hhigh'⟩ := h.cursor
  obtain ⟨e, hcontiguous, he⟩ := h.queue
  have hsilent : LostCopyWalked ip s s [] :=
    ⟨(List.append_nil _).symm, Nat.zero_le _, fun seg h => absurd h List.not_mem_nil,
      fun seg h => absurd h List.not_mem_nil⟩
  unfold retransmitLostCopy
  dsimp only
  by_cases hlost : (walking s && (ackHeuristic s (dataUnacked s) ||
      s.sackPermitted && sackAbove s (dataUnacked s))) = true
  · rw [if_pos hlost]
    by_cases hbehind : INT (s.snd.txRtoNext - dataUnacked s) ≤ 0
    · rw [if_pos hbehind]
      exact ⟨[], hsilent⟩
    rw [if_neg hbehind]
    rw [@int_sub_rel s.snd.txRtoEnd s.snd.txRtoNext (dataUnacked s) (by omega) (by omega)] at hbehind
    have hwidth := @toNat_sub_place s.snd.txRtoEnd s.snd.txRtoNext (dataUnacked s) (by omega) (by omega)
    obtain ⟨limit, hset, hspan, hle, hmss⟩ : ∃ limit : ULONG, (if s.snd.txRtoNext - dataUnacked s > payloadMss ip s then
          dataUnacked s + payloadMss ip s else s.snd.txRtoNext) = limit ∧
        rel s.snd.txRtoEnd (dataUnacked s) ≤ rel s.snd.txRtoEnd limit ∧
        rel s.snd.txRtoEnd limit ≤ rel s.snd.txRtoEnd s.snd.txRtoNext ∧
        rel s.snd.txRtoEnd limit - rel s.snd.txRtoEnd (dataUnacked s) ≤ (payloadMss ip s).toNat := by
      refine ⟨_, rfl, ?_⟩
      by_cases hwide : s.snd.txRtoNext - dataUnacked s > payloadMss ip s
      · have hwide' : (payloadMss ip s).toNat < (s.snd.txRtoNext - dataUnacked s).toNat := hwide
        rw [if_pos hwide, rel_add_toNat (by omega)]
        omega
      · have hwide' : ¬(payloadMss ip s).toNat < (s.snd.txRtoNext - dataUnacked s).toNat := hwide
        rw [if_neg hwide]
        omega
    rw [hset]
    have hbudget := @toNat_sub_place s.snd.txRtoEnd limit (dataUnacked s) hspan (by omega)
    obtain ⟨segs, left, hwalked⟩ := @resendRange_walked ip s.snd.txRtoEnd limit (by omega) (by omega)
      s.snd.transmitSent e s (dataUnacked s) (limit - dataUnacked s) hcontiguous h.placed he hhigh
      (payloadMss_pos ip h.mss)
    have hspent := hwalked.spent
    refine ⟨segs, hwalked.wire, by omega, hwalked.original, fun seg hseg => ?_⟩
    rcases hwalked.inside seg hseg with ⟨h₁, h₂⟩ | hwhole
    · exact .inl ⟨h₁, Int.le_trans h₂ hle⟩
    · exact .inr hwhole
  · rw [if_neg hlost]
    exact ⟨[], hsilent⟩

/-! ### The timeout itself -/

/-- What a timeout sends from the cursor `c` on: all it moves the cursor over. --/
structure TimeoutSent (r : ULONG) (q : List TxPacket) (s : Socket) (c : ULONG) (t : Socket) (segs : List Segment) :
    Prop where
  wire : t.wire = s.wire ++ segs
  rtoEnd : t.snd.txRtoEnd = r
  forward : rel r c ≤ rel r t.snd.txRtoNext
  covered : ∀ a, rel r c ≤ rel r a → rel r a < rel r t.snd.txRtoNext → SentIn segs a
  original : ∀ seg ∈ segs, Original q seg

theorem TimeoutSent.still (hend : s.snd.txRtoEnd = r) (hcursor : rel r s.snd.txRtoNext = rel r c) :
    TimeoutSent r q s c s [] where
  wire := (List.append_nil _).symm
  rtoEnd := hend
  forward := Int.le_of_eq hcursor.symm
  covered := fun a h₁ h₂ => by omega
  original := fun seg h => absurd h List.not_mem_nil

theorem TimeoutSent.ite {b : Prop} [Decidable b] {v v' : Socket} (h : b → ∃ segs, TimeoutSent r q s c v segs)
    (h' : ¬b → ∃ segs, TimeoutSent r q s c v' segs) :
    ∃ segs, TimeoutSent r q s c (if b then v else v') segs := by
  by_cases hb : b
  · rw [if_pos hb]
    exact h hb
  · rw [if_neg hb]
    exact h' hb

/-- One segment, and what follows it. --/
theorem TimeoutSent.cons {seg : Segment} {v : Socket} (hwire : u.wire = s.wire ++ [seg])
    (hforward : rel r c ≤ rel r d)
    (hseg : ∀ a, rel r c ≤ rel r a → rel r a < rel r d → SentIn [seg] a) (horiginal : Original (p :: q) seg)
    (h : TimeoutSent r q u d v segs) : TimeoutSent r (p :: q) s c v (seg :: segs) where
  wire := by
    rw [h.wire, hwire, List.append_assoc]
    rfl
  rtoEnd := h.rtoEnd
  forward := Int.le_trans hforward h.forward
  covered := by
    intro a h₁ h₂
    by_cases hd : rel r a < rel r d
    · obtain ⟨seg', hseg', hin⟩ := hseg a h₁ hd
      obtain rfl := List.mem_singleton.mp hseg'
      exact ⟨seg', List.mem_cons_self .., hin⟩
    · obtain ⟨seg', hseg', hin⟩ := h.covered a (Int.not_lt.mp hd) h₂
      exact ⟨seg', List.mem_cons_of_mem seg hseg', hin⟩
  original := by
    intro seg' hseg'
    rcases List.mem_cons.mp hseg' with rfl | hseg'
    · exact horiginal
    · obtain ⟨p', hp', hrest⟩ := h.original seg' hseg'
      exact ⟨p', List.mem_cons_of_mem p hp', hrest⟩

theorem Walked.sentIn {seg : Segment} (h : Walked ip r limit q s c available t d left [seg])
    (hblocks : s.sack.blocks = []) (a : ULONG) (h₁ : rel r c ≤ rel r a) (h₂ : rel r a < rel r d) : SentIn [seg] a := by
  rcases h.covered a h₁ h₂ with hsent | ⟨b, hb, -⟩
  · exact hsent
  · rw [hblocks] at hb
    cases hb

/-- A timeout walks the queue from what is not acknowledged on, without any block. --/
theorem retransmitWalk_covers (ip : Ip) (sackHigh : ULONG) (q : List TxPacket) : ∀ e s available, Contiguous e q →
    (∀ p ∈ q, PlacedPacket s.snd.txRtoEnd p ∧ rel s.snd.txRtoEnd p.endSequence ≤ 0) → s.snd.fastRecovery = false →
    s.sack.blocks = [] → -2 ^ 30 ≤ rel s.snd.txRtoEnd (dataUnacked s) → rel s.snd.txRtoEnd s.snd.txRtoNext < 2 ^ 30 →
    rel s.snd.txRtoEnd e ≤ rel s.snd.txRtoEnd s.snd.txRtoNext →
    rel s.snd.txRtoEnd (dataUnacked s) ≤ rel s.snd.txRtoEnd s.snd.txRtoNext →
    (s.snd.txRtoNext = e ∨ s.snd.txRtoNext = dataUnacked s) →
    ∃ segs, TimeoutSent s.snd.txRtoEnd q s s.snd.txRtoNext
      (retransmitWalk ip false [] sackHigh q available s) segs := by
  induction q with
  | nil => exact fun e s available _ _ _ _ _ _ _ _ _ => ⟨[], .still rfl rfl⟩
  | cons p rest ih =>
    intro e s available hcontiguous hplaced hslow hblocks hunacked hbounded hfrom hacked hat
    obtain ⟨rfl, hrest⟩ := hcontiguous
    obtain ⟨hp, hinside⟩ := hplaced p (List.mem_cons_self ..)
    have hlow := hp.low
    have hhigh := hp.high
    have hend := hp.rel_end
    have hself : rel s.snd.txRtoEnd s.snd.txRtoEnd = 0 := rel_self _
    have hplaced' := fun p' hp' => hplaced p' (List.mem_cons_of_mem p hp')
    rw [retransmitWalk]
    by_cases hdone : p.txDone = false
    · rw [if_pos hdone]
      exact ⟨[], .still rfl rfl⟩
    rw [if_neg hdone, if_neg (by rw [hslow]; rintro ⟨h, -⟩; cases h), if_neg (fun h => h.1 rfl),
      if_neg (by rintro ⟨-, h⟩; cases h)]
    dsimp only
    have hfirst : rel s.snd.txRtoEnd (if INT (p.sequence - dataUnacked s) > 0 then p.sequence else dataUnacked s) =
        rel s.snd.txRtoEnd s.snd.txRtoNext := by
      rw [@int_sub_rel s.snd.txRtoEnd p.sequence (dataUnacked s) (by omega) (by omega)]
      rcases hat with hat | hat <;> rw [hat] at hfrom hacked ⊢ <;> split <;> omega
    have hfirst := rel_injective s.snd.txRtoEnd hfirst
    rw [hfirst]
    have hstart : rel s.snd.txRtoEnd p.sequence ≤ rel s.snd.txRtoEnd s.snd.txRtoNext := by omega
    have hmoved : ∀ (u : Socket) (seg : Segment) (available d : ULONG) (b : Prop) [Decidable b],
        u.wire = s.wire ++ [seg] → u.snd.txRtoEnd = s.snd.txRtoEnd → u.snd.txRtoNext = d → u.snd.fastRecovery = false →
        u.sack.blocks = [] → dataUnacked u = dataUnacked s → rel s.snd.txRtoEnd s.snd.txRtoNext ≤ rel s.snd.txRtoEnd d →
        (∀ a, rel s.snd.txRtoEnd s.snd.txRtoNext ≤ rel s.snd.txRtoEnd a → rel s.snd.txRtoEnd a < rel s.snd.txRtoEnd d →
          SentIn [seg] a) → Original (p :: rest) seg → (¬b → d = p.endSequence) →
        ∃ segs, TimeoutSent s.snd.txRtoEnd (p :: rest) s s.snd.txRtoNext
          (if b then u else retransmitWalk ip false [] sackHigh rest available u) segs := by
      intro u seg available d b _ hwire h₁ h₂ h₃ h₄ h₅ hforward hsent horiginal hlast
      refine TimeoutSent.ite (fun _ => ⟨[seg], .cons hwire hforward hsent horiginal (.still h₁ (by rw [h₂]))⟩)
        fun hgo => ?_
      obtain rfl := hlast hgo
      have := ih p.endSequence u available hrest (by rw [h₁]; exact hplaced') h₃ h₄ (by rw [h₁, h₅]; exact hunacked)
        (by rw [h₁, h₂]; omega) (by rw [h₁, h₂]) (by rw [h₁, h₂, h₅]; omega) (.inl h₂)
      rw [h₁, h₂] at this
      obtain ⟨segs, hrun⟩ := this
      exact ⟨seg :: segs, .cons hwire hforward hsent horiginal hrun⟩
    by_cases hpart : p.payload > payloadMss ip s ∨ s.snd.txRtoNext ≠ p.sequence
    · rw [if_pos hpart, ite_self]
      generalize (if available < payloadMss ip s then available else payloadMss ip s) = most
      by_cases hstop : INT (p.endSequence - s.snd.txRtoNext) ≤ 0 ∨ most = 0
      · rw [if_pos hstop]
        exact ⟨[], .still rfl rfl⟩
      rw [if_neg hstop]
      have hin : rel s.snd.txRtoEnd s.snd.txRtoNext < rel s.snd.txRtoEnd p.endSequence := by
        rw [@int_sub_rel s.snd.txRtoEnd p.endSequence s.snd.txRtoNext (by omega) (by omega)] at hstop
        omega
      have hwidth := @toNat_sub_place s.snd.txRtoEnd p.endSequence s.snd.txRtoNext (by omega) (by omega)
      have hmost : 0 < most.toNat := Nat.pos_of_ne_zero fun h => hstop (.inr (BitVec.eq_of_toNat_eq h))
      have hmin := toNat_min most (p.endSequence - s.snd.txRtoNext)
      generalize (if most > p.endSequence - s.snd.txRtoNext then p.endSequence - s.snd.txRtoNext else most) = n at hmin
      have hnext : rel s.snd.txRtoEnd (s.snd.txRtoNext + n) = rel s.snd.txRtoEnd s.snd.txRtoNext + n.toNat :=
        rel_add_toNat (by omega)
      have hover : ¬(s.snd.fastRecovery = true ∨ INT (p.endSequence - (s.snd.txRtoNext + n)) > 0) →
          s.snd.txRtoNext + n = p.endSequence := by
        intro h
        rw [not_or, @int_sub_rel s.snd.txRtoEnd p.endSequence (s.snd.txRtoNext + n) (by omega) (by omega)] at h
        have hpast := h.2
        exact rel_injective s.snd.txRtoEnd (by omega)
      have hslice : dataSlice ip s p s.snd.txRtoNext n =
          (if ip.packetAllocate s.asked = true ∧
              ((p.octets.drop (s.snd.txRtoNext - p.sequence).toNat).take n.toNat).length = n.toNat then
            some ((p.octets.drop (s.snd.txRtoNext - p.sequence).toNat).take n.toNat) else none,
            { s with asked := s.asked + 1 }) := rfl
      have hset : (if s.snd.fastRecovery = true then s.snd.txRtoNext else s.snd.txRtoNext + n) = s.snd.txRtoNext + n :=
        if_neg (by rw [hslow]; exact Bool.false_ne_true)
      rw [hslice]
      dsimp only
      rw [hset]
      by_cases hcopy : ip.packetAllocate s.asked = true ∧
          ((p.octets.drop (s.snd.txRtoNext - p.sequence).toNat).take n.toNat).length = n.toNat
      · rw [if_pos hcopy, if_neg (fun h => by cases h.1)]
        dsimp only
        obtain ⟨seg, hwalked⟩ := walked_copy (q := p :: rest) (r := s.snd.txRtoEnd) (c := s.snd.txRtoNext) (n := n) ip
          p.endSequence { s with snd.txRtoNext := s.snd.txRtoNext + n, sack.txHighRxt := s.snd.txRtoNext + n } hp
          (List.mem_cons_self ..) hstart (by omega) (by omega) (by omega) (Nat.le_refl _) (s.asked + 1)
        exact hmoved _ seg _ _ _ hwalked.wire rfl rfl hslow hblocks rfl hwalked.forward (hwalked.sentIn hblocks)
          (hwalked.original seg (List.mem_singleton_self seg)) hover
      · rw [if_neg hcopy]
        split
        · exact ⟨[], ⟨(List.append_nil _).symm, rfl, Int.le_refl _, fun a h₁ h₂ => by
            have h₂ : rel s.snd.txRtoEnd a < rel s.snd.txRtoEnd s.snd.txRtoNext := h₂
            omega, fun seg h => absurd h List.not_mem_nil⟩⟩
        · rename_i hwhole
          rw [not_and, not_not] at hwhole
          obtain ⟨-, hmss, hfits, hlast⟩ := hwhole rfl
          dsimp only
          obtain ⟨seg, hwalked⟩ := walked_packet (q := p :: rest) (r := s.snd.txRtoEnd) (c := s.snd.txRtoNext) ip
            p.endSequence { s with snd.txRtoNext := s.snd.txRtoNext + n, sack.txHighRxt := s.snd.txRtoNext + n } hp
            (List.mem_cons_self ..) hstart hin (BitVec.le_def.mp hfits) (s.asked + 1) (.inr hmss)
          have hcovers := hwalked.sentIn hblocks
          rw [← hlast] at hcovers
          have hforward : rel s.snd.txRtoEnd s.snd.txRtoNext ≤ rel s.snd.txRtoEnd (s.snd.txRtoNext + n) := by omega
          exact hmoved _ seg _ _ _ hwalked.wire rfl rfl hslow hblocks rfl hforward hcovers
            (hwalked.original seg (List.mem_singleton_self seg)) hover
    · rw [if_neg hpart]
      rw [not_or, not_not] at hpart
      obtain ⟨-, hseq⟩ := hpart
      by_cases hroom : p.headerLength + p.payload > available + segmentHeaderLength ip s
      · rw [if_pos hroom]
        exact ⟨[], .still rfl rfl⟩
      rw [if_neg hroom]
      have hmark : (if s.snd.fastRecovery = false ∧ INT (s.snd.txRtoEnd - s.snd.txRtoNext) > 0 then
          { s with snd.txRtoNext := p.endSequence } else s) = { s with snd.txRtoNext := p.endSequence } := by
        split
        · rfl
        · rename_i hnot
          have hle : ¬INT (s.snd.txRtoEnd - s.snd.txRtoNext) > 0 := fun h => hnot ⟨hslow, h⟩
          rw [@int_sub_rel s.snd.txRtoEnd s.snd.txRtoEnd s.snd.txRtoNext (by omega) (by omega)] at hle
          have hsame : s.snd.txRtoNext = p.endSequence := rel_injective s.snd.txRtoEnd (by rw [hseq] at hle ⊢; omega)
          rw [← hsame]
      rw [hmark]
      have hkeep : ∀ x : Socket, (if INT (p.endSequence - x.sack.txHighRxt) > 0 then
          { x with sack.txHighRxt := p.endSequence } else x) = { x with sack.txHighRxt :=
            (if INT (p.endSequence - x.sack.txHighRxt) > 0 then p.endSequence else x.sack.txHighRxt) } := by
        intro x
        split <;> rfl
      rw [hkeep]
      have hcovers : ∀ seg : Segment, seg.sequenceNumber = p.sequence → seg.octets = p.octets → ∀ a,
          rel s.snd.txRtoEnd s.snd.txRtoNext ≤ rel s.snd.txRtoEnd a →
          rel s.snd.txRtoEnd a < rel s.snd.txRtoEnd p.endSequence → SentIn [seg] a := by
        intro seg h₁ h₂ a ha ha'
        rw [hseq] at ha
        have := @toNat_sub_place s.snd.txRtoEnd a p.sequence (by omega) (by omega)
        refine ⟨seg, List.mem_singleton_self seg, ?_⟩
        rw [h₁, h₂]
        omega
      have horiginal : ∀ seg : Segment, seg.sequenceNumber = p.sequence → seg.octets = p.octets →
          Original (p :: rest) seg := fun seg h₁ h₂ =>
        ⟨p, List.mem_cons_self .., 0, by rw [h₂]; omega, by rw [h₁]; exact (BitVec.add_zero _).symm,
          by rw [h₂]; exact List.take_length.symm⟩
      have hforward : rel s.snd.txRtoEnd s.snd.txRtoNext ≤ rel s.snd.txRtoEnd p.endSequence := by
        rw [hseq]
        omega
      exact hmoved _ _ _ _ _ rfl rfl rfl hslow hblocks rfl hforward (hcovers _ rfl rfl) (horiginal _ rfl rfl)
        fun _ => rfl

/-- The flight a timeout finds, seen from its end `r`. --/
structure TimeoutFlight (r : ULONG) (s : Socket) : Prop where
  tail : ∃ p, s.snd.transmitSent.getLast? = some p ∧ p.endSequence = r
  queue : ∃ e, Contiguous e s.snd.transmitSent ∧ rel r e ≤ rel r (dataUnacked s)
  placed : ∀ p ∈ s.snd.transmitSent, PlacedPacket r p ∧ rel r p.endSequence ≤ 0
  unacked : -2 ^ 30 ≤ rel r (dataUnacked s) ∧ rel r (dataUnacked s) ≤ 0
  slow : s.snd.fastRecovery = false
  window : s.snd.txWindowAdvertised ≠ 0

/-- What a timeout makes of the socket before it walks the queue. --/
theorem enterLoss_timeout (h : s.snd.fastRecovery = false) :
    (enterLoss (forgetBlocks s false) false).wire = s.wire ∧
      (enterLoss (forgetBlocks s false) false).snd.transmitSent = s.snd.transmitSent ∧
      (enterLoss (forgetBlocks s false) false).snd.txRtoNext = s.snd.txRtoNext ∧
      (enterLoss (forgetBlocks s false) false).snd.txRtoEnd = s.snd.txRtoEnd ∧
      (enterLoss (forgetBlocks s false) false).snd.fastRecovery = false ∧
      (enterLoss (forgetBlocks s false) false).sack.blocks = [] ∧
      dataUnacked (enterLoss (forgetBlocks s false) false) = dataUnacked s := by
  have hforget : forgetBlocks s false = { s with sack := { s.sack.reset with blocks := [] } } := if_pos ⟨rfl, h⟩
  rw [hforget, enterLoss, if_pos (.inr h)]
  exact ⟨rfl, rfl, rfl, rfl, h, rfl, rfl⟩

theorem socketRetransmit_sends (ip : Ip) (h : TimeoutFlight r s) :
    ∃ segs, TimeoutSent r s.snd.transmitSent s (dataUnacked s) (socketRetransmit ip s false) segs := by
  obtain ⟨p, htail, hend⟩ := h.tail
  obtain ⟨e, hcontiguous, he⟩ := h.queue
  obtain ⟨hlow, hhigh⟩ := h.unacked
  have hslow := h.slow
  have hwalk : rtoWalk s false = { s with snd := { s.snd with txRtoNext := dataUnacked s, txRtoEnd := r } } := by
    unfold rtoWalk
    rw [htail]
    dsimp only
    rw [if_pos ⟨rfl, hslow, h.window⟩, hend]
  unfold socketRetransmit
  rw [hwalk]
  dsimp only
  rw [if_neg h.window, if_neg (by rw [hslow]; rintro ⟨-, h | h⟩ <;> cases h)]
  unfold retransmitQueue
  dsimp only
  have hloss := enterLoss_timeout (s := { s with snd := { s.snd with
    txRtoNext := dataUnacked s, txRtoEnd := r, zeroWindowProbeHasData := false } }) hslow
  revert hloss
  generalize enterLoss (forgetBlocks _ false) false = u
  rintro ⟨hwire, hqueue, hnext, hend', hslow', hblocks, hunacked⟩
  have hnext : u.snd.txRtoNext = dataUnacked s := hnext
  have hend' : u.snd.txRtoEnd = r := hend'
  have hunacked : dataUnacked u = dataUnacked s := hunacked
  have hlive : liveBlocks u = [] := by
    rw [liveBlocks, hblocks]
    rfl
  rw [hlive, if_neg (by rw [hslow']; rintro ⟨-, h, -⟩; cases h), hqueue]
  obtain ⟨segs, hsent⟩ := retransmitWalk_covers ip (liveHigh (dataUnacked u) []) s.snd.transmitSent e u
    (blockRoom u false []) hcontiguous (by rw [hend']; exact h.placed) hslow' hblocks
    (by rw [hend', hunacked]; exact hlow) (by rw [hend', hnext]; omega) (by rw [hend', hnext]; exact he)
    (by rw [hend', hnext, hunacked]) (.inr (by rw [hnext, hunacked]))
  rw [hend', hnext] at hsent
  exact ⟨segs, hsent.wire.trans (by rw [hwire]), hsent.rtoEnd, hsent.forward, hsent.covered, hsent.original⟩

end

/-! ### A whole recovery -/

/-- A recovery: the timeout, the walks at the acknowledgments that follow, and between them whatever leaves the marks
    of the walk alone. With every walk stand the socket it found and what it sent. --/
inductive RtoRecovery (ip : Ip) (s : Socket) : Socket → List (Socket × List Segment) → Prop
  | timeout {segs : List Segment} (hwire : (socketRetransmit ip s false).wire = s.wire ++ segs) :
    RtoRecovery ip s (socketRetransmit ip s false) [(forgetBlocks s false, segs)]
  | walk {t : Socket} {log : List (Socket × List Segment)} {segs : List Segment} (h : RtoRecovery ip s t log)
    (hflight : OldFlight t) (hwire : (retransmitAfterTimeout ip t).wire = t.wire ++ segs) :
    RtoRecovery ip s (retransmitAfterTimeout ip t) (log ++ [(t, segs)])
  | other {t u : Socket} {log : List (Socket × List Segment)} (h : RtoRecovery ip s t log)
    (hnext : u.snd.txRtoNext = t.snd.txRtoNext) (hend : u.snd.txRtoEnd = t.snd.txRtoEnd) : RtoRecovery ip s u log

/-- One of the walks sent the octet at `a`, or found it reported or acknowledged. --/
def Recovered (r : ULONG) (log : List (Socket × List Segment)) (a : ULONG) : Prop :=
  ∃ w ∈ log, SentIn w.2 a ∨ Sacked w.1.sack.blocks a ∨ rel r a < rel r (dataUnacked w.1)

section
variable {ip : Ip} {r : ULONG} {s t : Socket} {log : List (Socket × List Segment)}

/-- The cursor never goes back, and leaves nothing behind. --/
theorem RtoRecovery.covers (hrun : RtoRecovery ip s t log) (h : TimeoutFlight r s) :
    t.snd.txRtoEnd = r ∧ rel r (dataUnacked s) ≤ rel r t.snd.txRtoNext ∧
      ∀ a, rel r (dataUnacked s) ≤ rel r a → rel r a < rel r t.snd.txRtoNext → Recovered r log a := by
  induction hrun with
  | timeout hwire =>
    obtain ⟨segs, hsent⟩ := socketRetransmit_sends ip h
    obtain rfl := List.append_cancel_left (hwire.symm.trans hsent.wire)
    exact ⟨hsent.rtoEnd, hsent.forward, fun a h₁ h₂ => ⟨_, List.mem_singleton_self _, .inl (hsent.covered a h₁ h₂)⟩⟩
  | @walk t log segs _ hflight hwire ih =>
    obtain ⟨hend, hforward, hcovered⟩ := ih
    obtain ⟨segs', hwalked⟩ := retransmitAfterTimeout_walked ip hflight
    obtain rfl := List.append_cancel_left (hwire.symm.trans hwalked.wire)
    have hmoved := hwalked.forward
    have hpassed := hwalked.covered
    rw [hend] at hmoved hpassed
    refine ⟨hwalked.rtoEnd.trans hend, Int.le_trans hforward hmoved, fun a h₁ h₂ => ?_⟩
    by_cases hbefore : rel r a < rel r t.snd.txRtoNext
    · obtain ⟨w, hw, hrecovered⟩ := hcovered a h₁ hbefore
      exact ⟨w, List.mem_append_left _ hw, hrecovered⟩
    · exact ⟨(t, segs), List.mem_append_right _ (List.mem_singleton_self _), hpassed a (Int.not_lt.mp hbefore) h₂⟩
  | other _ hnext hend ih =>
    rw [hnext, hend]
    exact ih

/-- A walk that is over has left nothing of the old flight. --/
theorem RtoRecovery.finished (hrun : RtoRecovery ip s t log) (h : TimeoutFlight r s)
    (hover : INT (t.snd.txRtoEnd - t.snd.txRtoNext) ≤ 0) (a : ULONG) (h₁ : rel r (dataUnacked s) ≤ rel r a)
    (h₂ : rel r a < 0) : Recovered r log a := by
  obtain ⟨hend, hforward, hcovered⟩ := hrun.covers h
  have hlow := h.unacked.1
  have hself : rel r r = 0 := rel_self r
  have hbounds := rel_bounds r t.snd.txRtoNext
  rw [hend, @int_sub_rel r r t.snd.txRtoNext (by omega) (by omega)] at hover
  exact hcovered a h₁ (by omega)

end

/-- The walk after a timeout. On every queue without gaps, from every cursor, up to every limit, with every budget and
    every block, it ends, pays for what it sends, never goes back, passes only octets it sends or finds reported, and
    sends nothing outside its range except a whole packet of one segment. A recovery that is over has left nothing. --/
theorem rtoWalk_recovers (ip : Ip) :
    (∀ r limit q e c available s, Contiguous e q → (∀ p ∈ q, PlacedPacket r p) → rel r e ≤ rel r c → rel r c < 2 ^ 30 →
      -2 ^ 30 ≤ rel r limit → rel r limit < 2 ^ 30 → s.connectMss ≠ 0 →
      (∃ segs left, Walked ip r limit q s c available (resendRange ip limit q c available s).2
        (resendRange ip limit q c available s).1 left segs)) ∧
    (∀ r limit p c available s rounds, PlacedPacket r p → rel r p.sequence ≤ rel r c → rel r c < 2 ^ 30 →
      -2 ^ 30 ≤ rel r limit → rel r limit < 2 ^ 30 → s.connectMss ≠ 0 → p.octets.length < rounds →
      resendPacket ip limit p rounds c available s = resendPacket ip limit p (p.octets.length + 1) c available s) ∧
    (∀ s, OldFlight s → ∃ segs, RtoWalked ip s (retransmitAfterTimeout ip s) segs) ∧
    (∀ s, OldFlight s → ∃ segs, LostCopyWalked ip s (retransmitLostCopy ip s).2 segs) ∧
    ∀ r s t log, TimeoutFlight r s → RtoRecovery ip s t log → INT (t.snd.txRtoEnd - t.snd.txRtoNext) ≤ 0 →
      ∀ a, rel r (dataUnacked s) ≤ rel r a → rel r a < 0 → Recovered r log a := by
  refine ⟨fun r limit q e c available s hcontiguous hplaced he hc hlow hhigh hmss => ?_,
    fun r limit p c available s rounds h hp hc hlow hhigh hmss hrounds => ?_,
    fun s h => retransmitAfterTimeout_walked ip h, fun s h => retransmitLostCopy_walked ip h,
    fun r s t log h hrun hover => hrun.finished h hover⟩
  · exact resendRange_walked hlow hhigh q e s c available hcontiguous hplaced he hc (payloadMss_pos ip hmss)
  · have hend := h.rel_end
    exact resendPacket_ends h hlow hhigh rounds s c available _ hp hc (payloadMss_pos ip hmss) (by omega) (by omega)

/-! ### Two packets of eight octets -/

/-- A timeout finds two packets of one segment each. --/
def Socket.timedOut : Socket :=
  let s := Socket.opened 0 99 1000 60000
  { s with
    connectMss := 8
    sackPermitted := false
    snd := { s.snd with
      txSequence := 116
      txOutstandingBytes := 16
      transmitSent := [⟨7, 100, 20, List.replicate 8 0, true⟩, ⟨8, 108, 20, List.replicate 8 1, true⟩] } }

/-- The first `n` octets are acknowledged, and the windows let the walk go on. --/
def Socket.walkingOn (n : ULONG) : Socket :=
  { Socket.timedOut with
    snd := { Socket.timedOut.snd with
      txOutstandingBytes := 16 - n
      txWindowCongestion := 16
      txRtoNext := 108
      txRtoEnd := 116
      transmitSent := [⟨8, 108, 20, List.replicate 8 1, true⟩] } }

theorem oldFlight_walkingOn : OldFlight (.walkingOn 8) where
  queue := ⟨108, ⟨rfl, trivial⟩, by decide⟩
  placed := fun p hp => by
    obtain rfl := List.mem_singleton.mp hp
    exact ⟨by decide, by decide⟩
  empty := fun h => by cases h
  unacked := by decide
  cursor := by decide
  outstanding := by decide
  mss := by decide

/-- The timeout sends the first of them, the walk after its acknowledgment the second. --/
theorem rtoWalk_recovers_two : ∃ t log, RtoRecovery .ideal .timedOut t log ∧ t.snd.txRtoNext = 116 ∧
    ∀ a : ULONG, rel 116 (dataUnacked .timedOut) ≤ rel 116 a → rel 116 a < 0 → Recovered 116 log a := by
  have hstart : TimeoutFlight 116 .timedOut := {
    tail := ⟨_, rfl, rfl⟩
    queue := ⟨100, ⟨rfl, rfl, trivial⟩, by decide⟩
    placed := fun p hp => by
      rcases List.mem_cons.mp hp with rfl | hp
      · exact ⟨⟨by decide, by decide⟩, by decide⟩
      · obtain rfl := List.mem_singleton.mp hp
        exact ⟨⟨by decide, by decide⟩, by decide⟩
    unacked := by decide
    slow := rfl
    window := by decide }
  obtain ⟨segs, hsent⟩ := socketRetransmit_sends .ideal hstart
  obtain ⟨segs', hwalked⟩ := retransmitAfterTimeout_walked .ideal oldFlight_walkingOn
  have hrun := ((RtoRecovery.timeout hsent.wire).other (u := .walkingOn 8)
    (by decide +kernel) (by decide +kernel)).walk oldFlight_walkingOn hwalked.wire
  have hnext : (retransmitAfterTimeout .ideal (.walkingOn 8)).snd.txRtoNext = 116 := by
    decide +kernel
  have hover : INT ((retransmitAfterTimeout .ideal (.walkingOn 8)).snd.txRtoEnd -
      (retransmitAfterTimeout .ideal (.walkingOn 8)).snd.txRtoNext) ≤ 0 := by
    decide +kernel
  exact ⟨_, _, hrun, hnext, (rtoWalk_recovers .ideal).2.2.2.2 116 _ _ _ hstart hrun hover⟩

/-- Without a packet for the copy the whole packet goes out, its acknowledged octets with it. --/
theorem acknowledged_prefix : ∃ s, OldFlight s ∧
    ∃ seg ∈ (retransmitAfterTimeout { Ip.ideal with packetAllocate := fun _ => false } s).wire,
      INT (seg.sequenceNumber - dataUnacked s) < 0 := by
  refine ⟨.walkingOn 12, ?_, ?_⟩
  · exact {
      queue := ⟨108, ⟨rfl, trivial⟩, by decide⟩
      placed := fun p hp => by
        obtain rfl := List.mem_singleton.mp hp
        exact ⟨by decide, by decide⟩
      empty := fun h => by cases h
      unacked := by decide
      cursor := by decide
      outstanding := by decide
      mss := by decide }
  · decide +kernel

end Netxduo
