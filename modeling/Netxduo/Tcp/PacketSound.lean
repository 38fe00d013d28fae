import Netxduo.Tcp.DataCheckSound
import Netxduo.Tcp.PacketProcess
import Netxduo.Tcp.Resend

/-! `_nx_tcp_socket_packet_process` on the receive half: what a segment that is not taken leaves alone, what
    the acceptance test lets through, and what one that is taken adds. -/

namespace Netxduo
open Serial Spans

/-! ### What leaves the queue alone -/

/-- The segment carries an acknowledgment. --/
def Segment.acknowledges (g : Segment) : Prop := g.control &&& tcpAckBit ≠ 0

/-- From `s` to `t` the receive half keeps its packets, and nothing is acknowledged but what has been
    received. --/
structure Undisturbed (ip : Ip) (s t : Socket) : Prop where
  receiving : ∀ {d : ULONG} {ready pending : List Packet},
    Receiving ip d s.rcv ready pending → Receiving ip d t.rcv ready pending
  rxSequence : t.rcv.rxSequence = s.rcv.rxSequence
  finSequence : t.rcv.finSequence = s.rcv.finSequence
  finReceived : t.rcv.finReceived = s.rcv.finReceived
  handed : t.handed = s.handed
  wire : ∃ sent, t.wire = s.wire ++ sent ∧
    ∀ g ∈ sent, g.acknowledges → g.acknowledgmentNumber = s.rcv.rxSequence

section
variable {ip : Ip} {s t u : Socket}

theorem Undisturbed.refl (s : Socket) : Undisturbed ip s s := ⟨id, rfl, rfl, rfl, rfl, [], by simp⟩

theorem Undisturbed.trans (h : Undisturbed ip s t) (h' : Undisturbed ip t u) : Undisturbed ip s u := by
  obtain ⟨sent, hw, hack⟩ := h.wire
  obtain ⟨sent', hw', hack'⟩ := h'.wire
  refine ⟨fun hr => h'.receiving (h.receiving hr), h'.rxSequence.trans h.rxSequence, h'.finSequence.trans h.finSequence,
    h'.finReceived.trans h.finReceived, h'.handed.trans h.handed, sent ++ sent', by rw [hw', hw, List.append_assoc],
    fun g hg hc => ?_⟩
  rcases List.mem_append.mp hg with hg | hg
  · exact hack g hg hc
  · rw [hack' g hg hc, h.rxSequence]

theorem Undisturbed.ite {c : Prop} [Decidable c] (h : Undisturbed ip s t) (h' : Undisturbed ip s u) :
    Undisturbed ip s (if c then t else u) := by
  split
  · exact h
  · exact h'

theorem Aside.undisturbed (h : Aside s t) : Undisturbed ip s t := by
  obtain ⟨sent, hw, hack⟩ := h.wire
  exact ⟨fun hr => hr.sameQueue h.rcv, h.rcv.rxSequence, h.rcv.finSequence, h.rcv.finReceived, h.handed, sent, hw,
    fun g hg _ => hack g hg⟩

theorem AckOnly.undisturbed (h : AckOnly s t) : Undisturbed ip s t := h.aside.undisturbed

/-- The state, the transmit half and the list of waiting threads may change. --/
theorem undisturbed_state (s : Socket) (state : State) (x : Transmit) (k : SackRecovery) (waiting : List Nat) :
    Undisturbed ip s { s with state := state, snd := x, sack := k, rcv.receiveSuspensionList := waiting } :=
  ⟨fun hr => ⟨hr.toLinked.of_addrs rfl rfl rfl rfl, hr.queue, hr.content, hr.room⟩, rfl, rfl, rfl, rfl, [], by simp⟩

/-! ### What a segment may do on its way -/

theorem undisturbed_reopenWindow (ip : Ip) (s : Socket) : Undisturbed ip s (reopenWindow ip s) := by
  have hask : Undisturbed ip s (s.belowLowWatermark ip).2 := (ackOnly_asked s _).undisturbed
  unfold reopenWindow
  split
  · rename_i h
    obtain ⟨-, -, hhead⟩ := h
    refine .ite hask (hask.trans ⟨fun hr => ?_, rfl, rfl, rfl, rfl, [], (List.append_nil _).symm, by simp⟩)
    have hnil := hr.head
    rw [show (s.belowLowWatermark ip).2.rcv.receiveQueueHead = none from hhead] at hnil
    have hq : (s.belowLowWatermark ip).2.rcv.receiveQueue = [] := by
      cases hq : (s.belowLowWatermark ip).2.rcv.receiveQueue with
      | nil => rfl
      | cons p q => simp [hq] at hnil
    have hlist := hr.queue
    rw [hq, eq_comm, List.append_eq_nil_iff] at hlist
    obtain ⟨rfl, rfl⟩ := hlist
    exact ⟨hr.toLinked.of_addrs rfl rfl rfl rfl, hr.queue, hr.content.reopened, hr.room⟩
  · exact .refl s

theorem ackOnly_recordTimestamp (s : Socket) (p : Packet) (value : Option ULONG) :
    AckOnly s (recordTimestamp s p value) := by
  unfold recordTimestamp
  split
  · split
    · exact ⟨rfl, rfl, rfl, rfl, ⟨rfl, rfl, rfl, rfl, rfl, rfl, rfl, rfl, rfl, rfl, rfl⟩, rfl, rfl, rfl, [], by simp⟩
    · exact .refl s
  · exact .refl s

theorem ackOnly_answerOutside (ip : Ip) (s : Socket) (p : Packet) : AckOnly s (answerOutside ip s p) := by
  have hrecord : AckOnly s (if p.header.has tcpRstBit = false ∧ p.dataLength > 0 ∧
      INT (p.header.sequenceNumber + p.dataLength - s.rcv.rxSequence) ≤ 0 then
      dsackRecord s p.header.sequenceNumber (p.header.sequenceNumber + p.dataLength) else s) :=
    .ite (ackOnly_dsackRecord s _ _) (.refl s)
  exact .ite (hrecord.trans (ackOnly_packetSendAck ip _ _)) hrecord

theorem ackOnly_challengeAck (ip : Ip) (s : Socket) : AckOnly s (challengeAck ip s) := by
  unfold challengeAck
  split
  · exact .refl s
  · have hbudget : AckOnly s { s with challengeAckBudget := s.challengeAckBudget - 1 } :=
      ⟨rfl, rfl, rfl, rfl, .refl _, rfl, rfl, rfl, [], by simp⟩
    exact hbudget.trans (ackOnly_packetSendAck ip _ _)

theorem undisturbed_socketBlockCleanup (s : Socket) : Undisturbed ip s (socketBlockCleanup s) :=
  undisturbed_state s _ _ _ s.rcv.receiveSuspensionList

theorem undisturbed_socketConnectionReset (s : Socket) : Undisturbed ip s (socketConnectionReset s) := by
  have hflush : ∀ s : Socket, Undisturbed ip s (if s.snd.transmitSent ≠ [] then socketTransmitQueueFlush s else s) :=
    fun s => .ite (undisturbed_state s _ _ _ s.rcv.receiveSuspensionList) (.refl s)
  exact ((undisturbed_socketBlockCleanup s).trans (hflush _)).trans (undisturbed_state _ _ _ _ [])

/-- A reset acknowledges nothing. --/
theorem undisturbed_packetSendRst (ip : Ip) (s : Socket) {h : TcpHeader} (hh : h.has tcpAckBit = true) :
    Undisturbed ip s (packetSendRst ip s h) := by
  unfold packetSendRst packetSendControl Socket.packetAllocate
  rw [if_pos hh]
  dsimp only
  split
  · refine ⟨fun hr => ⟨hr.toLinked.of_addrs rfl rfl rfl rfl, hr.queue, hr.content, hr.room⟩, rfl, rfl, rfl, rfl, _,
      rfl, fun g hg hc => ?_⟩
    rw [List.mem_singleton] at hg
    subst hg
    exact absurd hc (show ¬tcpRstBit &&& tcpAckBit ≠ 0 by decide)
  · exact (ackOnly_asked s _).undisturbed

theorem undisturbed_rejectOptions (ip : Ip) (s : Socket) {p : Packet} (hp : p.header.has tcpAckBit = true) :
    Undisturbed ip s (rejectOptions ip s p) := by
  unfold rejectOptions
  simp only [if_pos hp]
  exact .ite (.refl s) ((undisturbed_packetSendRst ip s hp).trans (undisturbed_socketConnectionReset _))

/-! ### The acceptance test -/

theorem acceptWindow_le (s : Socket) : (acceptWindow s).toNat ≤ s.rcv.rxWindowCurrent.toNat := by
  unfold acceptWindow
  split
  · rename_i h
    have := h.2
    rw [gt_iff_lt, BitVec.lt_def] at this
    omega
  · exact Nat.le_refl _

/-- A segment with data that passes the test reaches into the window. --/
theorem enters_of_accepted {d : ULONG} {ready pending : List Packet} {p : Packet}
    (h : Receiving ip d s.rcv ready pending) (hp : p.WellFormed) (hfresh : p.addr ∉ s.rcv.receiveQueue.map (·.addr))
    (hdata : p.octets ≠ []) (haccept : outsideOfWindow s p = false) : p.Enters s.rcv := by
  have hcredit := h.content.credit
  have hbound := h.content.bound
  have hle := acceptWindow_le s
  have hlen := hp.dataLength_toInt
  have hpos : 0 < p.octets.length := List.length_pos_iff.mpr hdata
  have hlt : p.octets.length < 2 ^ 31 := by
    have := hp.length_eq
    have := hp.length_lt
    omega
  have hne : p.dataLength ≠ 0 := by
    intro hz
    rw [hz] at hlen
    simp at hlen
    omega
  unfold outsideOfWindow at haccept
  dsimp only at haccept
  rw [if_neg hne] at haccept
  simp only [Bool.not_eq_false', Bool.and_eq_true, decide_eq_true_eq] at haccept
  obtain ⟨⟨hw, hleft⟩, hright⟩ := haccept
  have hw' : 0 < (acceptWindow s).toNat := by simpa [BitVec.lt_def] using hw
  have hwInt : (acceptWindow s).toInt = (acceptWindow s).toNat := BitVec.toInt_eq_toNat_of_lt (by omega)
  obtain ⟨hl₁, hl₂⟩ := rel_lt_of_toInt_neg (by omega) hleft
  obtain ⟨hr₁, hr₂⟩ := rel_add_of_toInt_pos (by omega) hright
  have hlo : rel s.rcv.rxSequence p.header.sequenceNumber = p.lo s.rcv.rxSequence := rfl
  have hhi : p.hi s.rcv.rxSequence = p.lo s.rcv.rxSequence + p.octets.length := rfl
  exact ⟨hp, hdata, by omega, by omega, by omega, by omega, by omega, by omega, hfresh⟩

theorem Packet.Enters.sameQueue {r r' : Receive} {p : Packet} (h : p.Enters r) (hs : SameQueue r r') :
    p.Enters r' := by
  obtain ⟨h₁, h₂, h₃, h₄, h₅, h₆, h₇, h₈, h₉⟩ := h
  refine ⟨h₁, h₂, ?_, ?_, ?_, ?_, ?_, ?_, ?_⟩
  · rw [hs.rxSequence, hs.rxWindowCurrent]
    exact h₃
  · rw [hs.rxSequence]
    exact h₄
  · rw [hs.rxSequence]
    exact h₅
  · rw [hs.rxSequence]
    exact h₆
  · rw [hs.rxWindowCurrent]
    exact h₇
  · rw [hs.rxWindowCurrent]
    exact h₈
  · rw [hs.queue]
    exact h₉

end

end Netxduo
