import Netxduo.Tcp.Queueing

/-! The two window trims of `_nx_tcp_socket_state_data_check`: what is left of a segment that reaches into
    the window is the part of it inside the window. -/

namespace Netxduo
open Serial Spans

/-- The octets of `q` are octets of `p`, at the positions they have in `p`. --/
def Packet.Slice (r : ULONG) (q p : Packet) : Prop :=
  ∃ k : Nat, q.lo r = p.lo r + k ∧ q.octets <+: p.octets.drop k

/-- A segment with data that reaches into the window. --/
structure Packet.Enters (p : Packet) (r : Receive) : Prop where
  wf : p.WellFormed
  data : p.octets ≠ []
  left : p.lo r.rxSequence < r.rxWindowCurrent.toNat
  right : 0 < p.hi r.rxSequence
  lower : -2 ^ 31 < p.lo r.rxSequence
  upper : p.hi r.rxSequence < 2 ^ 31
  window : r.rxWindowCurrent.toNat < 2 ^ 30
  nonzero : 0 < r.rxWindowCurrent.toNat
  fresh : p.addr ∉ r.receiveQueue.map (·.addr)

/-- What a trim leaves of `p`: the octets in `[lo, hi)`, and numbers that agree with them. --/
structure Arrival.Trimmed (a : Arrival) (d : ULONG) (p : Packet) (lo hi : Int) : Prop where
  wf : a.packet.WellFormed
  dataLength : a.dataLength = a.packet.dataLength
  beginSequence : a.beginSequence = a.packet.beginSequence
  endSequence : a.endSequence = a.packet.endSequence
  addr : a.packet.addr = p.addr
  word3 : a.packet.header.word3 = p.header.word3
  lo_eq : a.packet.lo d = lo
  hi_eq : a.packet.hi d = hi
  slice : a.packet.Slice d p

section
variable {ip : Ip} {s : Socket} {p : Packet}

@[simp] theorem word3_urgentTrim (h : TcpHeader) (trimmed : ULONG) : (urgentTrim h trimmed).word3 = h.word3 := by
  unfold urgentTrim
  split <;> rfl

@[simp] theorem sequenceNumber_urgentTrim (h : TcpHeader) (trimmed : ULONG) :
    (urgentTrim h trimmed).sequenceNumber = h.sequenceNumber := by
  unfold urgentTrim
  split <;> rfl

theorem addr_dataTrimFront (p : Packet) (amount : ULONG) : (socketStateDataTrimFront p amount).addr = p.addr := by
  unfold socketStateDataTrimFront
  split
  · rfl
  · split <;> rfl

/-! ### The left edge -/

/-- The packet the left trim leaves. --/
def Packet.cutFront (p : Packet) (amount : ULONG) : Packet :=
  let q := socketStateDataTrimFront p amount
  let h := urgentTrim q.header amount
  { q with header := { h with sequenceNumber := h.sequenceNumber + amount } }

namespace Packet

variable {amount : ULONG}

@[simp] theorem word3_cutFront : (p.cutFront amount).header.word3 = p.header.word3 := by
  show (urgentTrim (socketStateDataTrimFront p amount).header amount).word3 = _
  rw [word3_urgentTrim, header_dataTrimFront]

@[simp] theorem beginSequence_cutFront : (p.cutFront amount).beginSequence = p.beginSequence + amount := by
  show (urgentTrim (socketStateDataTrimFront p amount).header amount).sequenceNumber + amount = _
  rw [sequenceNumber_urgentTrim, header_dataTrimFront]
  rfl

theorem octets_cutFront (h : p.WellFormed) (ha : amount.toNat < p.octets.length) :
    (p.cutFront amount).octets = p.octets.drop amount.toNat :=
  octets_dataTrimFront h ha

theorem WellFormed.cutFront (h : p.WellFormed) (ha : amount.toNat < p.octets.length) :
    (p.cutFront amount).WellFormed := by
  have hwf := h.dataTrimFront ha
  refine ⟨?_, hwf.length_lt⟩
  have hlen := hwf.length_eq
  rw [header_dataTrimFront] at hlen
  rw [TcpHeader.headerLength, word3_cutFront]
  exact hlen

theorem dataLength_cutFront (h : p.WellFormed) (ha : amount.toNat < p.octets.length) :
    (p.cutFront amount).dataLength = p.dataLength - amount := by
  have hdata := h.dataLength_toNat
  apply BitVec.eq_of_toNat_eq
  rw [(h.cutFront ha).dataLength_toNat, octets_cutFront h ha, List.length_drop,
    BitVec.toNat_sub_of_le (by rw [BitVec.le_def]; omega), hdata]

theorem endSequence_cutFront (h : p.WellFormed) (ha : amount.toNat < p.octets.length) :
    (p.cutFront amount).endSequence = p.endSequence := by
  rw [endSequence, endSequence, beginSequence_cutFront, dataLength_cutFront h ha]
  grind

end Packet

theorem trimLeft_trimmed (h : p.Enters s.rcv) :
    let res := trimLeft s ⟨p, p.dataLength, p.beginSequence, p.endSequence⟩
    AckOnly s res.1 ∧ res.2.Trimmed s.rcv.rxSequence p (max 0 (p.lo s.rcv.rxSequence)) (p.hi s.rcv.rxSequence) := by
  have hlo : rel s.rcv.rxSequence p.beginSequence = p.lo s.rcv.rxSequence := rfl
  have hlower := h.lower
  have hupper := h.upper
  have hright := h.right
  have hhi : p.hi s.rcv.rxSequence = p.lo s.rcv.rxSequence + p.octets.length := rfl
  have hback : INT (s.rcv.rxSequence - p.beginSequence) = -p.lo s.rcv.rxSequence := by
    have := toInt_sub_eq (r := s.rcv.rxSequence) (x := s.rcv.rxSequence) (y := p.beginSequence)
      (by rw [rel_self, hlo]; omega) (by rw [rel_self, hlo]; omega)
    rw [rel_self, hlo] at this
    show (s.rcv.rxSequence - p.beginSequence).toInt = _
    omega
  unfold trimLeft
  dsimp only
  split
  · rename_i hpos
    have hbegin : p.beginSequence + (s.rcv.rxSequence - p.beginSequence) = s.rcv.rxSequence := by grind
    rw [hback] at hpos
    have hamount := toNat_of_int hback (by omega)
    refine ⟨ackOnly_dsackRecord s _ _, ?_⟩
    generalize s.rcv.rxSequence - p.beginSequence = amount at hback hbegin hamount ⊢
    have hlt : amount.toNat < p.octets.length := by omega
    have hlo' : (p.cutFront amount).lo s.rcv.rxSequence = 0 := by
      rw [Packet.lo, Packet.beginSequence_cutFront, hbegin, rel_self]
    have hoct := Packet.octets_cutFront h.wf hlt
    refine ⟨h.wf.cutFront hlt, (Packet.dataLength_cutFront h.wf hlt).symm, Packet.beginSequence_cutFront.symm,
      (Packet.endSequence_cutFront h.wf hlt).symm, addr_dataTrimFront p amount, Packet.word3_cutFront, ?_, ?_,
      amount.toNat, ?_, ?_⟩
    · show (p.cutFront amount).lo s.rcv.rxSequence = _
      omega
    · show (p.cutFront amount).hi s.rcv.rxSequence = _
      rw [Packet.hi, hlo', hoct, List.length_drop]
      omega
    · show (p.cutFront amount).lo s.rcv.rxSequence = _
      omega
    · exact hoct ▸ List.prefix_refl _
  · rename_i hneg
    rw [hback] at hneg
    refine ⟨.refl s, h.wf, rfl, rfl, rfl, rfl, rfl, ?_, rfl, 0, by simp, by simp⟩
    show p.lo s.rcv.rxSequence = max 0 (p.lo s.rcv.rxSequence)
    omega

/-! ### The right edge -/

theorem trimRight_trimmed {a : Arrival} {lo hi : Int} (h : a.Trimmed s.rcv.rxSequence p lo hi) (hlo : 0 ≤ lo)
    (hhi : hi < 2 ^ 31) (hwin : lo < s.rcv.rxWindowCurrent.toNat) (hcur : s.rcv.rxWindowCurrent.toNat < 2 ^ 30)
    (hne : lo < hi) :
    (trimRight s a).Trimmed s.rcv.rxSequence p lo (min hi s.rcv.rxWindowCurrent.toNat) := by
  have hend : rel s.rcv.rxSequence a.endSequence = hi := by
    rw [h.endSequence, Packet.rel_endSequence h.wf (by rw [h.hi_eq]; omega) (by rw [h.hi_eq]; omega), h.hi_eq]
  have hcurInt : s.rcv.rxWindowCurrent.toInt = s.rcv.rxWindowCurrent.toNat :=
    BitVec.toInt_eq_toNat_of_lt (by omega)
  have hover : INT (a.endSequence - s.rcv.rxSequence - s.rcv.rxWindowCurrent) =
      hi - s.rcv.rxWindowCurrent.toNat := by
    have hd : (a.endSequence - s.rcv.rxSequence).toInt = hi := hend
    show (a.endSequence - s.rcv.rxSequence - s.rcv.rxWindowCurrent).toInt = _
    rw [BitVec.toInt_sub, hd, hcurInt]
    exact bmod_eq (by omega) (by omega)
  have hspan : a.packet.hi s.rcv.rxSequence = a.packet.lo s.rcv.rxSequence + a.packet.octets.length := rfl
  rw [h.lo_eq, h.hi_eq] at hspan
  unfold trimRight
  split
  · rename_i hpos
    rw [hover] at hpos
    have heq : a.endSequence - (s.rcv.rxSequence + s.rcv.rxWindowCurrent) =
        a.endSequence - s.rcv.rxSequence - s.rcv.rxWindowCurrent := by grind
    rw [← heq] at hover
    have hamount := toNat_of_int hover (by omega)
    dsimp only
    have hsub : a.endSequence - (a.endSequence - (s.rcv.rxSequence + s.rcv.rxWindowCurrent)) =
        s.rcv.rxSequence + s.rcv.rxWindowCurrent := by grind
    have hend' := h.endSequence
    generalize a.endSequence - (s.rcv.rxSequence + s.rcv.rxWindowCurrent) = amount at hover hamount hsub ⊢
    obtain ⟨hpiece, hphi⟩ := Packet.piece_dataTrim (r := s.rcv.rxSequence) h.wf amount (by omega)
    rw [h.hi_eq] at hphi
    have hplen : (socketStateDataTrim a.packet amount).octets.length = a.packet.octets.length - amount.toNat := by
      rw [Packet.octets_dataTrim h.wf (by omega), List.length_take]
      omega
    have hdl : (socketStateDataTrim a.packet amount).dataLength = a.packet.dataLength - amount := by
      have hdata := h.wf.dataLength_toNat
      apply BitVec.eq_of_toNat_eq
      rw [hpiece.wf.dataLength_toNat, hplen, BitVec.toNat_sub_of_le (by rw [BitVec.le_def]; omega), hdata]
    have hbegin : (socketStateDataTrim a.packet amount).beginSequence = a.packet.beginSequence := by
      rw [Packet.beginSequence, Packet.beginSequence, hpiece.header]
    obtain ⟨k, hk, hpre⟩ := h.slice
    refine ⟨hpiece.wf, ?_, ?_, ?_, hpiece.addr.trans h.addr, ?_, hpiece.lo_eq.trans h.lo_eq, ?_, k, ?_,
      hpiece.octets.trans hpre⟩
    · rw [h.dataLength, hdl]
    · rw [h.beginSequence, hbegin]
    · show a.endSequence - amount = _
      rw [hend', Packet.endSequence, Packet.endSequence, hbegin, hdl]
      grind
    · rw [hpiece.header, h.word3]
    · show (socketStateDataTrim a.packet amount).hi s.rcv.rxSequence = _
      omega
    · exact hpiece.lo_eq.trans hk
  · rename_i hneg
    rw [hover] at hneg
    rw [min_eq_left (by omega)]
    exact h

theorem trimRight_congr {t : Socket} (hx : t.rcv.rxSequence = s.rcv.rxSequence)
    (hw : t.rcv.rxWindowCurrent = s.rcv.rxWindowCurrent) (a : Arrival) : trimRight t a = trimRight s a := by
  rw [trimRight, trimRight, hx, hw]

/-! ### Both -/

theorem trimToWindow_trimmed (h : p.Enters s.rcv) :
    let res := trimToWindow s p
    AckOnly s res.1 ∧ res.2.Trimmed s.rcv.rxSequence p (max 0 (p.lo s.rcv.rxSequence))
      (min (p.hi s.rcv.rxSequence) s.rcv.rxWindowCurrent.toNat) := by
  have hdata : p.dataLength ≠ 0 := by
    intro hz
    have := h.wf.dataLength_toNat
    rw [hz] at this
    exact h.data (List.eq_nil_of_length_eq_zero this.symm)
  have hleft := h.left
  have hright := h.right
  have hnonzero := h.nonzero
  have hupper := h.upper
  have hhi : p.hi s.rcv.rxSequence = p.lo s.rcv.rxSequence + p.octets.length := rfl
  have hpos : 0 < p.octets.length := List.length_pos_iff.mpr h.data
  obtain ⟨hack, htrim⟩ := trimLeft_trimmed h
  unfold trimToWindow
  dsimp only
  rw [if_pos hdata]
  refine ⟨hack, ?_⟩
  have heq := trimRight_congr hack.rcv.rxSequence hack.rcv.rxWindowCurrent
    (trimLeft s ⟨p, p.dataLength, p.beginSequence, p.endSequence⟩).2
  rw [heq]
  exact trimRight_trimmed htrim (by omega) hupper (by omega) h.window (by omega)

/-- What is left fits the window. --/
theorem Arrival.Trimmed.fits {a : Arrival} (h : p.Enters s.rcv) (ha : a.Trimmed s.rcv.rxSequence p
    (max 0 (p.lo s.rcv.rxSequence)) (min (p.hi s.rcv.rxSequence) s.rcv.rxWindowCurrent.toNat)) : a.Fits s.rcv := by
  have hleft := h.left
  have hright := h.right
  have hnonzero := h.nonzero
  have hhi : p.hi s.rcv.rxSequence = p.lo s.rcv.rxSequence + p.octets.length := rfl
  have hpos : 0 < p.octets.length := List.length_pos_iff.mpr h.data
  refine ⟨ha.wf, ha.beginSequence, ha.endSequence, ?_, ?_, ?_, ?_⟩
  · rw [ha.lo_eq]
    omega
  · rw [ha.lo_eq, ha.hi_eq]
    omega
  · rw [ha.hi_eq]
    omega
  · rw [ha.addr]
    exact h.fresh

theorem Arrival.Fits.of_ackOnly {a : Arrival} {t : Socket} (h : a.Fits s.rcv) (ha : AckOnly s t) : a.Fits t.rcv := by
  refine ⟨h.wf, h.beginSequence, h.endSequence, ?_, ?_, ?_, ?_⟩
  · rw [ha.rcv.rxSequence]
    exact h.lower
  · rw [ha.rcv.rxSequence]
    exact h.nonempty
  · rw [ha.rcv.rxSequence, ha.rcv.rxWindowCurrent]
    exact h.upper
  · rw [ha.rcv.queue]
    exact h.fresh

end

end Netxduo
