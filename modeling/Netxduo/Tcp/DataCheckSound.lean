import Netxduo.Tcp.Delivery
import Netxduo.Tcp.WindowTrim

/-! `_nx_tcp_socket_state_data_check` as a whole keeps the receive half as `Receiving` says, and makes
    `Progress` with what is left of the segment after the trims. -/

namespace Netxduo
open Serial Spans

section
variable {ip : Ip} {s t : Socket} {a : Arrival} {p : Packet} {ready pending : List Packet}

/-! ### After the queueing -/

theorem limitOutOfOrder_progress {acked : ULONG} (h : Receiving ip s.rcv.rxSequence s.rcv ready pending)
    (hacked : acked = BitVec.ofNat 32 ready.length) : ∃ pending',
      Progress [] [] s ready pending { s with rcv := limitOutOfOrder ip s.rcv acked } ready pending' ∧
      Receiving ip s.rcv.rxSequence (limitOutOfOrder ip s.rcv acked) ready pending' ∧
      (limitOutOfOrder ip s.rcv acked).rxSequence = s.rcv.rxSequence := by
  obtain ⟨head, tail, queue, count, pending', heq, hr, hpre⟩ := h.limitOutOfOrder hacked
  refine ⟨pending', ?_, hr, by rw [heq]⟩
  rw [heq]
  exact progress_rcv [] _ rfl rfl rfl rfl rfl fun q hq => ⟨q, hpre.subset hq, .refl q⟩

/-- The suspended threads, the callback and the acknowledgment. --/
theorem settle_delivers {d : ULONG} (reads : Nat) {acked : ULONG} (h : Receiving ip d s.rcv ready pending)
    (hacked : acked = BitVec.ofNat 32 ready.length) (header : TcpHeader) (original : ULONG) (outOfSequence : Bool) :
    let res := resumeReceivers acked header s s.rcv.receiveSuspensionList
    Delivers ip d pending s ready (acknowledgeData ip reads
      { res.2 with rcv := clearEmptyQueue res.2.rcv } original res.1 outOfSequence) := by
  have hresume := resumeReceivers_delivers h header
  rw [← hacked] at hresume
  exact hresume.trans fun _ h' => acknowledgeData_delivers reads h' _ _ _

theorem settleQueued_sound (reads : Nat) {q : Queued} {drop : Bool} (hq : q.Settles ip s ready pending p drop)
    (header : TcpHeader) : ∃ front ready' pending',
      Progress [p] front s ready pending (settleQueued ip reads q s.rcv.rxSequence header drop) ready' pending' ∧
      Receiving ip (settleQueued ip reads q s.rcv.rxSequence header drop).rcv.rxSequence
        (settleQueued ip reads q s.rcv.rxSequence header drop).rcv ready' pending' := by
  obtain ⟨front, rest, hp, hr, hacked⟩ := hq
  have hacked' : q.acked = BitVec.ofNat 32 (ready ++ front.map Packet.markReady).length := by simp [hacked]
  obtain ⟨pending', hp₁, hr₁, hx₁⟩ := limitOutOfOrder_progress hr hacked'
  obtain ⟨ready', hp₂, hr₂, hx₂⟩ := settle_delivers (s := { q.debited s.rcv.rxSequence drop with
    rcv := limitOutOfOrder ip (q.debited s.rcv.rxSequence drop).rcv q.acked }) reads hr₁ hacked' header
    s.rcv.rxSequence q.outOfSequence
  refine ⟨front, ready', pending', (hp.trans hp₁ (List.nil_subset _)).trans hp₂ (List.nil_subset _), ?_⟩
  have hx : (settleQueued ip reads q s.rcv.rxSequence header drop).rcv.rxSequence =
      (q.debited s.rcv.rxSequence drop).rcv.rxSequence := hx₂.trans hx₁
  rw [hx]
  exact hr₂

/-! ### The FIN -/

theorem AckOnly.recordFin (h : AckOnly s t) (a : Arrival) : AckOnly (recordFin s a) (recordFin t a) := by
  unfold Netxduo.recordFin
  split
  · obtain ⟨h₁, h₂, h₃, h₄, h₅, h₆, h₇, h₈, h₉⟩ := h
    exact ⟨h₁, h₂, h₃, h₄, ⟨h₅.rxSequence, h₅.rxWindowDefault, h₅.rxWindowCurrent, rfl, rfl, h₅.queue, h₅.head, h₅.tail,
      h₅.count, h₅.maximum, h₅.suspended⟩, h₆, h₇, h₈, h₉⟩
  · exact h

/-- Remembering a FIN leaves the queue alone. --/
theorem recordFin_kept (s : Socket) (a : Arrival) : ∃ finSequence finReceived,
    recordFin s a = { s with rcv := { s.rcv with finSequence := finSequence, finReceived := finReceived } } := by
  unfold recordFin
  split
  · exact ⟨_, _, rfl⟩
  · exact ⟨_, _, rfl⟩

theorem Receiving.recordFin {d : ULONG} (h : Receiving ip d s.rcv ready pending) (a : Arrival) :
    Receiving ip d (recordFin s a).rcv ready pending := by
  obtain ⟨finSequence, finReceived, heq⟩ := recordFin_kept s a
  rw [heq]
  exact ⟨h.toLinked.of_addrs rfl rfl rfl rfl, h.queue, h.content, h.room⟩

theorem rxSequence_recordFin (s : Socket) (a : Arrival) : (recordFin s a).rcv.rxSequence = s.rcv.rxSequence := by
  unfold recordFin
  split <;> rfl

theorem Arrival.Fits.recordFin (h : a.Fits s.rcv) (b : Arrival) : a.Fits (recordFin s b).rcv := by
  obtain ⟨finSequence, finReceived, heq⟩ := recordFin_kept s b
  rw [heq]
  exact ⟨h.wf, h.beginSequence, h.endSequence, h.lower, h.nonempty, h.upper, h.fresh⟩

/-! ### The drop -/

theorem dropPacket_spec (ip : Ip) (s : Socket) : AckOnly s (dropPacket ip s).2 ∧
    ((dropPacket ip s).1 = true → ip.build.lowWatermark = true) ∧
    ((dropPacket ip s).1 = false → ip.build.lowWatermark = true →
      s.rcv.receiveQueueCount.toNat < s.rcv.receiveQueueMaximum.toNat) := by
  unfold dropPacket Socket.belowLowWatermark
  by_cases hlow : ip.build.lowWatermark = true
  · rw [if_pos hlow]
    refine ⟨ackOnly_asked s _, fun _ => hlow, fun hfalse _ => ?_⟩
    simp only [Bool.or_eq_false_iff, decide_eq_false_iff_not, ge_iff_le, BitVec.le_def] at hfalse
    omega
  · rw [if_neg hlow]
    exact ⟨.refl s, fun hf => absurd hf (by simp), fun _ hl => absurd hl hlow⟩

/-! ### The answer to an empty segment -/

theorem ackOnly_answerEmpty (ip : Ip) (s : Socket) (a : Arrival) (original : ULONG) :
    AckOnly s (answerEmpty ip s a original) := by
  unfold answerEmpty
  split
  · exact ackOnly_packetSendAck ip s _
  · split
    · exact ackOnly_packetSendAck ip s _
    · exact .refl s

/-! ### The check -/

/-- A segment without data. --/
theorem dataCheck_empty (reads : Nat) (hwf : p.WellFormed) (hnil : p.octets = []) :
    AckOnly (recordFin s ⟨p, p.dataLength, p.beginSequence, p.endSequence⟩) (socketStateDataCheck ip reads s p) := by
  have hz : p.dataLength = 0 := by
    apply BitVec.eq_of_toNat_eq
    rw [hwf.dataLength_toNat, hnil]
    rfl
  have htrim : trimToWindow s p = (s, ⟨p, p.dataLength, p.beginSequence, p.endSequence⟩) := by
    unfold trimToWindow
    dsimp only
    rw [if_neg (by simp [hz])]
  unfold socketStateDataCheck
  rw [htrim]
  dsimp only
  rw [if_pos hz]
  exact ackOnly_answerEmpty ip _ _ _

/-- A segment with data that reaches into the window. --/
theorem dataCheck_sound (reads : Nat) (h : Receiving ip s.rcv.rxSequence s.rcv ready pending) (hp : p.Enters s.rcv) :
    ∃ front ready' pending', Progress [{ (trimToWindow s p).2.packet with ready := false }] front
        (recordFin s (trimToWindow s p).2) ready pending (socketStateDataCheck ip reads s p) ready' pending' ∧
      Receiving ip (socketStateDataCheck ip reads s p).rcv.rxSequence (socketStateDataCheck ip reads s p).rcv
        ready' pending' := by
  obtain ⟨hack, htrim⟩ := trimToWindow_trimmed hp
  have hfits := htrim.fits hp
  unfold socketStateDataCheck
  dsimp only
  generalize trimToWindow s p = res at hack htrim hfits
  obtain ⟨s₁, a⟩ := res
  dsimp only at hack htrim hfits ⊢
  have hne : a.dataLength ≠ 0 := by
    intro hz
    have hlen := htrim.wf.dataLength_toNat
    rw [← htrim.dataLength, hz] at hlen
    have hspan := hfits.nonempty
    rw [Packet.hi, ← hlen] at hspan
    simp at hspan
  rw [if_neg hne]
  -- up to the queueing nothing but the record of the FIN and questions
  have hfin := hack.recordFin a
  obtain ⟨hdrop, hlow, hkeep⟩ := dropPacket_spec ip (recordFin s₁ a)
  have hall := hfin.trans hdrop
  have hr : Receiving ip (dropPacket ip (recordFin s₁ a)).2.rcv.rxSequence (dropPacket ip (recordFin s₁ a)).2.rcv
      ready pending := by
    rw [hall.rcv.rxSequence, rxSequence_recordFin]
    exact (h.recordFin a).sameQueue hall.rcv
  have hf : a.Fits (dropPacket ip (recordFin s₁ a)).2.rcv := (hfits.recordFin a).of_ackOnly hall
  have hroom : (dropPacket ip (recordFin s₁ a)).1 = false → ip.build.lowWatermark = true →
      (dropPacket ip (recordFin s₁ a)).2.rcv.receiveQueue.length <
        (dropPacket ip (recordFin s₁ a)).2.rcv.receiveQueueMaximum.toNat := by
    intro hd hl
    rw [← hr.count, hdrop.rcv.count, hdrop.rcv.maximum]
    exact hkeep hd hl
  have hx : (recordFin s₁ a).rcv.rxSequence = (dropPacket ip (recordFin s₁ a)).2.rcv.rxSequence :=
    hdrop.rcv.rxSequence.symm
  rw [hx]
  generalize dropPacket ip (recordFin s₁ a) = res at *
  obtain ⟨drop, s₂⟩ := res
  dsimp only at *
  obtain ⟨hleft, htaken⟩ := queuePacket_sound hr hf hroom hlow
  split
  · rename_i htake
    obtain ⟨front, ready', pending', hp', hr'⟩ := settleQueued_sound reads (htaken htake) a.packet.header
    exact ⟨front, ready', pending', hall.trans_progress hp', hr'⟩
  · rename_i htake
    have hq := hleft (by simpa using htake)
    refine ⟨[], ready, pending, (hall.trans hq).progress _, ?_⟩
    rw [hq.rcv.rxSequence]
    exact hr.sameQueue hq.rcv

end

end Netxduo
