import Mathlib
import Netxduo.Syncache.Hold
import Netxduo.Tcp.Content

/-! Data on the SYN-ACK (`_nx_tcp_socket_state_syn_sent`, and the data check that follows it in
    `_nx_tcp_socket_packet_process`). The header of the segment counts its SYN,
      the data check takes the number for the one
    of the first octet. The SYN and the RST that are sent in answer are not built in. -/

namespace Netxduo
open Serial Spans

/-! ### The source -/

/-- `_nx_tcp_socket_state_syn_sent`; `segments` is the initial window of the interface. --/
def socketStateSynSent (ip : Ip) (rxWindowMaximum segments : ULONG) (s : Socket) (h : TcpHeader) : Socket :=
  let window := h.word3 &&& lower16Mask
  if h.has tcpRstBit then
    if h.has tcpAckBit ∧ h.acknowledgmentNumber = s.snd.txSequence then socketConnectionReset s else s
  else if h.has tcpSynBit ∧ h.has tcpAckBit ∧ h.acknowledgmentNumber = s.snd.txSequence then
    let unscaled := ip.build.windowScaling ∧ s.snd.sndWinScaleValue = 0xFF
    let small := unscaled ∧ rxWindowMaximum > 65535
    let s := { s with
      rcv := { s.rcv with
        rxSequence := h.sequenceNumber + 1
        rcvWinScaleValue := if unscaled then 0 else s.rcv.rcvWinScaleValue
        rxWindowDefault := if small then 65535 else s.rcv.rxWindowDefault
        rxWindowCurrent := if small then 65535 else s.rcv.rxWindowCurrent }
      snd := { s.snd with
        sndWinScaleValue := if unscaled then 0 else s.snd.sndWinScaleValue
        txWindowAdvertised := window
        txWindowAdvertisedMax := window
        txSlowStartThreshold := 0x7FFFFFFF
        txOutstandingBytes := 0
        txWindowCongestion :=
          if s.snd.timeoutRetries > 0 then s.connectMss else Syncache.initialWindow s.connectMss segments } }
    let s := packetSendAck ip s s.snd.txSequence
    { s with state := .established, rcv.ackNPacketCounter := 0, snd.timeout := 0 }
  else if h.has tcpSynBit ∧ h.has tcpAckBit = false then
    let window := if ip.build.windowScaling then window <<< s.rcv.rcvWinScaleValue else window
    { s with
      state := .synReceived
      rcv.rxSequence := h.sequenceNumber + 1
      snd := { s.snd with
        txWindowAdvertised := window
        txWindowAdvertisedMax := window
        txSlowStartThreshold := 0x7FFFFFFF
        txOutstandingBytes := 0
        txWindowCongestion := Syncache.initialWindow s.connectMss segments
        timeout := 0 } }
  else s

/-- `_nx_tcp_socket_packet_process` in the state `NX_TCP_SYN_SENT`. --/
def synSentProcess (ip : Ip) (reads : Nat) (rxWindowMaximum segments : ULONG) (s : Socket) (p : Packet) : Socket :=
  let s := socketStateSynSent ip rxWindowMaximum segments s p.header
  if s.state = .established then socketStateDataCheck ip reads s p else s

/-! ### What it is for -/

/-- A socket that waits for a SYN-ACK. --/
structure Connecting (s : Socket) : Prop where
  state : s.state = .synSent
  finReceived : s.rcv.finReceived = false
  queue : s.rcv.receiveQueue = []
  count : s.rcv.receiveQueueCount = 0
  head : s.rcv.receiveQueueHead = none
  tail : s.rcv.receiveQueueTail = none
  open_ : 0 < s.rcv.rxWindowCurrent.toNat
  window : s.rcv.rxWindowCurrent.toNat ≤ s.rcv.rxWindowDefault.toNat
  bound : s.rcv.rxWindowDefault.toNat < 2 ^ 30
  handed : s.handed = []

/-- A SYN-ACK that completes the connection, with data. --/
structure SynAckData (s : Socket) (p : Packet) : Prop where
  wf : p.WellFormed
  syn : p.header.has tcpSynBit = true
  ack : p.header.has tcpAckBit = true
  noReset : p.header.has tcpRstBit = false
  acknowledges : p.header.acknowledgmentNumber = s.snd.txSequence
  data : p.octets ≠ []

/-- The stream of the peer starts with `data`, behind its initial sequence number: what was received is the front of it,
    and the numbers say so. --/
structure StartsStream (irs : ULONG) (data : List UInt8) (s : Socket) : Prop where
  received : s.received <+: data
  rxSequence : s.rcv.rxSequence = irs + 1 + BitVec.ofNat 32 s.received.length
  fin : s.rcv.finReceived = true → s.rcv.finSequence = irs + 1 + BitVec.ofNat 32 data.length

/-- How many octets are taken once the socket is as `t`: none where the queue has no room, and otherwise all but one, as
    far as the window goes. --/
def octetsTaken (ip : Ip) (t : Socket) (p : Packet) : Nat :=
  if (dropPacket ip t).1 then 0 else min (p.octets.length - 1) t.rcv.rxWindowCurrent.toNat

section
variable {ip : Ip} {reads : Nat} {rxWindowMaximum segments irs : ULONG} {s t : Socket} {p : Packet}

/-! ### The connection -/

/-- What the SYN-ACK makes of the socket. --/
structure Accepted (irs : ULONG) (t : Socket) : Prop where
  state : t.state = .established
  rxSequence : t.rcv.rxSequence = irs + 1
  receives : ∀ ip, Receives ip irs t false
  received : t.received = []
  open_ : 0 < t.rcv.rxWindowCurrent.toNat
  bound : t.rcv.rxWindowCurrent.toNat < 2 ^ 30
  queue : t.rcv.receiveQueue = []
  tail : t.rcv.receiveQueueTail = none
  finReceived : t.rcv.finReceived = false

theorem synSent_accepted (hs : Connecting s) (hp : SynAckData s p) :
    Accepted p.header.sequenceNumber (socketStateSynSent ip rxWindowMaximum segments s p.header) := by
  unfold socketStateSynSent
  rw [if_neg (by rw [hp.noReset]; exact Bool.false_ne_true), if_pos ⟨hp.syn, hp.ack, hp.acknowledges⟩]
  dsimp only
  generalize hu : ({ s with
      rcv := { s.rcv with
        rxSequence := p.header.sequenceNumber + 1
        rcvWinScaleValue := _
        rxWindowDefault := _
        rxWindowCurrent := _ }
      snd := _ } : Socket) = u
  have hack : AckOnly u (packetSendAck ip u s.snd.txSequence) :=
    ackOnly_packetSendAck ip u s.snd.txSequence
  have hrcv := hack.rcv
  have hwindow : 0 < u.rcv.rxWindowCurrent.toNat ∧ u.rcv.rxWindowCurrent.toNat ≤ u.rcv.rxWindowDefault.toNat ∧
      u.rcv.rxWindowDefault.toNat < 2 ^ 30 := by
    rw [← hu]
    dsimp only
    split
    · exact ⟨by decide, Nat.le_refl _, by decide⟩
    · exact ⟨hs.open_, hs.window, hs.bound⟩
  have hqueue : (packetSendAck ip u s.snd.txSequence).rcv.receiveQueue = [] := by
    rw [hrcv.queue, ← hu]
    exact hs.queue
  have hhanded : (packetSendAck ip u s.snd.txSequence).handed = [] := by
    rw [hack.handed, ← hu]
    exact hs.handed
  have hrx : (packetSendAck ip u s.snd.txSequence).rcv.rxSequence = p.header.sequenceNumber + 1 := by
    rw [hrcv.rxSequence, ← hu]
  have hestablished : Socket.Established p.header.sequenceNumber { packetSendAck ip u s.snd.txSequence with
      state := .established, rcv.ackNPacketCounter := 0, snd.timeout := 0, wire := [] } := by
    refine ⟨rfl, hrx, ?_, hqueue, ?_, ?_, ?_, ?_, ?_, hhanded, rfl⟩
    · show (packetSendAck ip u s.snd.txSequence).rcv.finReceived = false
      rw [hrcv.finReceived, ← hu]
      exact hs.finReceived
    · show (packetSendAck ip u s.snd.txSequence).rcv.receiveQueueCount = 0
      rw [hrcv.count, ← hu]
      exact hs.count
    · show (packetSendAck ip u s.snd.txSequence).rcv.receiveQueueHead = none
      rw [hrcv.head, ← hu]
      exact hs.head
    · show (packetSendAck ip u s.snd.txSequence).rcv.receiveQueueTail = none
      rw [hrcv.tail, ← hu]
      exact hs.tail
    · show (packetSendAck ip u s.snd.txSequence).rcv.rxWindowCurrent.toNat ≤
        (packetSendAck ip u s.snd.txSequence).rcv.rxWindowDefault.toNat
      rw [hrcv.rxWindowCurrent, hrcv.rxWindowDefault]
      exact hwindow.2.1
    · show (packetSendAck ip u s.snd.txSequence).rcv.rxWindowDefault.toNat < 2 ^ 30
      rw [hrcv.rxWindowDefault]
      exact hwindow.2.2
  refine ⟨rfl, hrx, fun ip => ?_, hestablished.received, ?_, ?_, hqueue, hestablished.tail, hestablished.finReceived⟩
  · have hreceives : Receives ip _ _ false := hestablished.receives
    obtain ⟨h₁, h₂, h₃⟩ := hreceives
    exact ⟨h₁, h₂, h₃⟩
  · show 0 < (packetSendAck ip u s.snd.txSequence).rcv.rxWindowCurrent.toNat
    rw [hrcv.rxWindowCurrent]
    exact hwindow.1
  · show (packetSendAck ip u s.snd.txSequence).rcv.rxWindowCurrent.toNat < 2 ^ 30
    rw [hrcv.rxWindowCurrent]
    omega

/-! ### The data -/

theorem begin_before (irs : ULONG) : rel (irs + 1) irs = -1 := by
  have h : irs - (irs + 1) = -1 := by grind
  rw [rel, h]
  rfl

theorem settleQueued_rxSequence {q : Queued} {drop : Bool} {ready pending : List Packet}
    (hq : q.Settles ip s ready pending p drop) (header : TcpHeader) :
    (settleQueued ip reads q s.rcv.rxSequence header drop).rcv.rxSequence = q.socket.rcv.rxSequence := by
  obtain ⟨front, rest, hp, hr, hacked⟩ := hq
  have hacked' : q.acked = BitVec.ofNat 32 (ready ++ front.map Packet.markReady).length := by simp [hacked]
  obtain ⟨pending', -, hr₁, hx₁⟩ := limitOutOfOrder_progress hr hacked'
  obtain ⟨ready', -, -, hx₂⟩ := settle_delivers (s := { q.debited s.rcv.rxSequence drop with
    rcv := limitOutOfOrder ip (q.debited s.rcv.rxSequence drop).rcv q.acked }) reads hr₁ hacked' header
    s.rcv.rxSequence q.outOfSequence
  have hdebit : (q.debited s.rcv.rxSequence drop).rcv.rxSequence = q.socket.rcv.rxSequence := by
    unfold Queued.debited debitWindow
    dsimp only
    split <;> rfl
  exact (hx₂.trans hx₁).trans hdebit

theorem asked_dsackRecord (s : Socket) (left right : ULONG) : (dsackRecord s left right).asked = s.asked := by
  unfold dsackRecord
  split <;> rfl

theorem asked_trimToWindow (s : Socket) (p : Packet) : (trimToWindow s p).1.asked = s.asked := by
  unfold trimToWindow trimLeft
  dsimp only
  split
  · split
    · exact asked_dsackRecord s _ _
    · rfl
  · rfl

/-- Whether the queue has room depends on little. --/
theorem dropPacket_congr (hasked : t.asked = s.asked) (hqueue : SameQueue s.rcv t.rcv) :
    (dropPacket ip t).1 = (dropPacket ip s).1 := by
  unfold dropPacket Socket.belowLowWatermark
  split
  · dsimp only
    rw [hasked, hqueue.count, hqueue.maximum]
  · rfl

theorem recordFin_sameCount (s : Socket) (a : Arrival) : (dropPacket ip (recordFin s a)).1 = (dropPacket ip s).1 := by
  obtain ⟨finSequence, finReceived, heq⟩ := recordFin_kept s a
  rw [heq]
  unfold dropPacket Socket.belowLowWatermark
  split
  · rfl
  · rfl

theorem recordFin_fin (s : Socket) (a : Arrival) (hno : s.rcv.finReceived = false) :
    (recordFin s a).rcv.finReceived = a.packet.header.has tcpFinBit ∧
      (a.packet.header.has tcpFinBit = true →
        (recordFin s a).rcv.finSequence = a.packet.header.sequenceNumber + a.dataLength) := by
  unfold recordFin
  split
  · rename_i h
    exact ⟨h.symm, fun _ => rfl⟩
  · rename_i h
    refine ⟨hno.trans (Bool.eq_false_iff.mpr h).symm, fun hf => absurd hf h⟩

/-- What the data check leaves: the first octet is not among what was received, and the FIN is one too early. --/
structure SynDataLeaves (ip : Ip) (irs : ULONG) (t : Socket) (p : Packet) (u : Socket) : Prop where
  received : u.received = (p.octets.drop 1).take (octetsTaken ip t p)
  rxSequence : u.rcv.rxSequence = irs + 1 + BitVec.ofNat 32 (octetsTaken ip t p)
  finReceived : u.rcv.finReceived = p.header.has tcpFinBit
  finSequence : p.header.has tcpFinBit = true →
    u.rcv.finSequence = irs + 1 + BitVec.ofNat 32 (min (p.octets.length - 1) t.rcv.rxWindowCurrent.toNat)

/-- A single octet is taken for the one that the SYN stands for. --/
theorem dataCheck_single (ht : Accepted p.header.sequenceNumber t) (hp : p.WellFormed) (hone : p.octets.length = 1) :
    SynDataLeaves ip p.header.sequenceNumber t p (socketStateDataCheck ip reads t p) := by
  have hdata : p.dataLength = 1 := by
    apply BitVec.eq_of_toNat_eq
    rw [hp.dataLength_toNat, hone]
    rfl
  have hbegin : p.beginSequence = p.header.sequenceNumber := rfl
  have hend : p.endSequence = t.rcv.rxSequence := by
    rw [Packet.endSequence, hbegin, hdata, ht.rxSequence]
  have hback : t.rcv.rxSequence - p.beginSequence = 1 := by
    rw [ht.rxSequence, hbegin]
    grind
  have hpos : INT (t.rcv.rxSequence - p.beginSequence) > 0 := by
    rw [hback]
    decide
  have hopen := ht.open_
  have hbound := ht.bound
  obtain ⟨a, s₁, htrim, hlen, hseq, hfin, hack, hasked⟩ : ∃ a s₁, trimToWindow t p = (s₁, a) ∧ a.dataLength = 0 ∧
      a.packet.header.sequenceNumber = p.header.sequenceNumber + 1 ∧ a.packet.header.word3 = p.header.word3 ∧
      AckOnly t s₁ ∧ s₁.asked = t.asked := by
    refine ⟨(trimToWindow t p).2, (trimToWindow t p).1, rfl, ?_⟩
    have hasked := asked_trimToWindow t p
    revert hasked
    unfold trimToWindow trimLeft
    dsimp only
    rw [if_pos (by rw [hdata]; decide), if_pos hpos]
    dsimp only
    have hnowin : ¬ INT ((p.endSequence - (dsackRecord t p.beginSequence t.rcv.rxSequence).rcv.rxSequence) -
        (dsackRecord t p.beginSequence t.rcv.rxSequence).rcv.rxWindowCurrent) > 0 := by
      have hd := ackOnly_dsackRecord t p.beginSequence t.rcv.rxSequence
      rw [hd.rcv.rxSequence, hd.rcv.rxWindowCurrent, hend, BitVec.sub_self]
      show ¬ (0#32 - t.rcv.rxWindowCurrent).toInt > 0
      rw [BitVec.zero_sub, BitVec.toInt_neg, BitVec.toInt_eq_toNat_of_lt (by omega), Int.bmod_def]
      omega
    unfold trimRight
    rw [if_neg hnowin]
    dsimp only
    intro hasked
    refine ⟨?_, ?_, ?_, ackOnly_dsackRecord t _ _, hasked⟩
    · rw [hdata, hback]
      rfl
    · rw [sequenceNumber_urgentTrim, Packet.header_dataTrimFront, hback]
    · rw [word3_urgentTrim, Packet.header_dataTrimFront]
  have htaken : octetsTaken ip t p = 0 := by
    unfold octetsTaken
    rw [hone, Nat.sub_self, Nat.zero_min]
    split <;> rfl
  have hno : s₁.rcv.finReceived = false := hack.rcv.finReceived.trans ht.finReceived
  obtain ⟨hf₁, hf₂⟩ := recordFin_fin s₁ a hno
  have hhas : a.packet.header.has tcpFinBit = p.header.has tcpFinBit := by
    unfold TcpHeader.has
    rw [hfin]
  have hanswer := ackOnly_answerEmpty ip (recordFin s₁ a) a p.dataLength
  have hcheck : socketStateDataCheck ip reads t p = answerEmpty ip (recordFin s₁ a) a p.dataLength := by
    unfold socketStateDataCheck
    rw [htrim]
    dsimp only
    rw [if_pos hlen]
  rw [hcheck]
  obtain ⟨finSequence, finReceived, hkept⟩ := recordFin_kept s₁ a
  refine ⟨?_, ?_, ?_, ?_⟩
  · rw [htaken, List.take_zero]
    have hreceived := ht.received
    unfold Socket.received Receive.readyPackets at hreceived ⊢
    rw [hanswer.handed, hanswer.rcv.queue, hkept]
    show octetsOf s₁.handed ++ octetsOf (s₁.rcv.receiveQueue.filter _) = []
    rw [hack.handed, hack.rcv.queue]
    exact hreceived
  · rw [hanswer.rcv.rxSequence, rxSequence_recordFin, hack.rcv.rxSequence, ht.rxSequence, htaken]
    simp
  · rw [hanswer.rcv.finReceived, hf₁, hhas]
  · intro hfinbit
    rw [hanswer.rcv.finSequence, hf₂ (hhas.trans hfinbit), hseq, hlen, hone, Nat.sub_self, Nat.zero_min]
    rfl

/-- Of more octets the first one is cut off. --/
theorem dataCheck_many (ht : Accepted p.header.sequenceNumber t) (hp : p.WellFormed) (hmany : 2 ≤ p.octets.length) :
    SynDataLeaves ip p.header.sequenceNumber t p (socketStateDataCheck ip reads t p) := by
  have hopen := ht.open_
  have hbound := ht.bound
  have hwf := hp.length_eq
  have hlt := hp.length_lt
  have hlo : p.lo t.rcv.rxSequence = -1 := by
    rw [ht.rxSequence]
    exact begin_before _
  have hhi : p.hi t.rcv.rxSequence = p.octets.length - 1 := by
    rw [Packet.hi, hlo]
    omega
  have henters : p.Enters t.rcv := by
    refine ⟨hp, List.ne_nil_of_length_pos (by omega), by omega, by omega, by omega, by omega, hbound, hopen, ?_⟩
    rw [ht.queue]
    exact List.not_mem_nil
  have hreceives := ht.receives ip
  have hreceiving : Receiving ip t.rcv.rxSequence t.rcv [] [] := by
    have h := hreceives.receiving
    have hend := hreceives.receivedEnd
    have hready : t.rcv.readyPackets = [] := by rw [Receive.readyPackets, ht.queue, List.filter_nil]
    have hpending : t.rcv.pendingPackets = [] := by rw [Receive.pendingPackets, ht.queue, List.filter_nil]
    rw [hready, hpending] at h
    have heq : t.rcv.rxSequence = t.receivedEnd p.header.sequenceNumber := by
      rw [hend]
      simp
    rw [heq]
    exact h
  obtain ⟨front, ready', pending', hprogress, hafter⟩ := @dataCheck_sound ip t p [] [] reads hreceiving henters
  obtain ⟨hack, htrim⟩ := trimToWindow_trimmed henters
  have hfits := htrim.fits henters
  have hasked := asked_trimToWindow t p
  -- what the trims leave starts at `rxSequence`
  have hrest : min (p.hi t.rcv.rxSequence) (t.rcv.rxWindowCurrent.toNat : Int) =
      (min (p.octets.length - 1) t.rcv.rxWindowCurrent.toNat : Nat) := by
    rw [hhi]
    omega
  have hstart : max 0 (p.lo t.rcv.rxSequence) = 0 := by omega
  rw [hrest, hstart] at htrim
  have hlength : (trimToWindow t p).2.packet.octets.length =
      min (p.octets.length - 1) t.rcv.rxWindowCurrent.toNat := by
    have h₁ := htrim.lo_eq
    have h₂ := htrim.hi_eq
    rw [Packet.hi, h₁] at h₂
    omega
  obtain ⟨k, hk, hslice⟩ := htrim.slice
  obtain rfl : k = 1 := by
    have := htrim.lo_eq
    omega
  have hsequence : (trimToWindow t p).2.packet.header.sequenceNumber = t.rcv.rxSequence := by
    have h := htrim.lo_eq
    rw [Packet.lo, rel] at h
    have hzero : (trimToWindow t p).2.packet.beginSequence - t.rcv.rxSequence = 0 := BitVec.eq_of_toInt_eq h
    have heq : (trimToWindow t p).2.packet.beginSequence = t.rcv.rxSequence := by grind
    exact heq
  have hdataLength : (trimToWindow t p).2.dataLength =
      BitVec.ofNat 32 (min (p.octets.length - 1) t.rcv.rxWindowCurrent.toNat) := by
    apply BitVec.eq_of_toNat_eq
    rw [htrim.dataLength, htrim.wf.dataLength_toNat, hlength, BitVec.toNat_ofNat]
    omega
  have hendSequence : (trimToWindow t p).2.endSequence = t.rcv.rxSequence +
      BitVec.ofNat 32 (min (p.octets.length - 1) t.rcv.rxWindowCurrent.toNat) := by
    rw [htrim.endSequence, Packet.endSequence, ← htrim.dataLength, hdataLength]
    show (trimToWindow t p).2.packet.header.sequenceNumber + _ = _
    rw [hsequence]
  -- the number behind what is taken
  have hrx : (socketStateDataCheck ip reads t p).rcv.rxSequence =
      t.rcv.rxSequence + BitVec.ofNat 32 (octetsTaken ip t p) := by
    have hdrop : (dropPacket ip (recordFin (trimToWindow t p).1 (trimToWindow t p).2)).1 = (dropPacket ip t).1 := by
      rw [recordFin_sameCount, dropPacket_congr hasked hack.rcv]
    unfold socketStateDataCheck octetsTaken
    dsimp only
    generalize trimToWindow t p = res at hack htrim hfits hlength hsequence hdataLength hendSequence hdrop ⊢
    obtain ⟨s₁, a⟩ := res
    dsimp only at hack htrim hfits hlength hsequence hdataLength hendSequence hdrop ⊢
    have hne : a.dataLength ≠ 0 := by
      intro hz
      have hlen := htrim.wf.dataLength_toNat
      rw [← htrim.dataLength, hz, hlength] at hlen
      have hzero : (0 : ULONG).toNat = 0 := rfl
      omega
    rw [if_neg hne]
    have hfin := hack.recordFin a
    obtain ⟨hdropAck, hlow, hkeep⟩ := dropPacket_spec ip (recordFin s₁ a)
    have hall := hfin.trans hdropAck
    have hr : Receiving ip (dropPacket ip (recordFin s₁ a)).2.rcv.rxSequence (dropPacket ip (recordFin s₁ a)).2.rcv
        [] [] := by
      rw [hall.rcv.rxSequence, rxSequence_recordFin]
      exact (hreceiving.recordFin a).sameQueue hall.rcv
    have hf : a.Fits (dropPacket ip (recordFin s₁ a)).2.rcv := (hfits.recordFin a).of_ackOnly hall
    have hroom : (dropPacket ip (recordFin s₁ a)).1 = false → ip.build.lowWatermark = true →
        (dropPacket ip (recordFin s₁ a)).2.rcv.receiveQueue.length <
          (dropPacket ip (recordFin s₁ a)).2.rcv.receiveQueueMaximum.toNat := by
      intro hd hl
      rw [← hr.count, hdropAck.rcv.count, hdropAck.rcv.maximum]
      exact hkeep hd hl
    have hx : (recordFin s₁ a).rcv.rxSequence = (dropPacket ip (recordFin s₁ a)).2.rcv.rxSequence :=
      hdropAck.rcv.rxSequence.symm
    have hxt : (recordFin s₁ a).rcv.rxSequence = t.rcv.rxSequence := by
      rw [rxSequence_recordFin, hack.rcv.rxSequence]
    have htail : (dropPacket ip (recordFin s₁ a)).2.rcv.receiveQueueTail = none := by
      rw [hall.rcv.tail, (recordFin_kept t a).choose_spec.choose_spec]
      exact ht.tail
    rw [hx] at hxt ⊢
    rw [← hdrop]
    generalize dropPacket ip (recordFin s₁ a) = res at *
    obtain ⟨drop, s₂⟩ := res
    dsimp only at *
    obtain ⟨hleft, htaken⟩ := queuePacket_sound hr hf hroom hlow
    have hinOrder : queuePacket ip s₂ a drop =
        queueInOrder ip s₂ { a with packet := { a.packet with ready := false } } drop := by
      unfold queuePacket
      dsimp only
      have hsearch : s₂.rcv.searchEnd = s₂.rcv.rxSequence := by
        unfold Receive.searchEnd Receive.tailPacket
        rw [htail]
        rfl
      rw [if_pos ⟨hsequence.trans hxt.symm, hsearch⟩]
    have htake : (queuePacket ip s₂ a drop).taken = true := by
      rw [hinOrder]
      unfold queueInOrder
      split <;> rfl
    rw [if_pos htake, settleQueued_rxSequence (htaken htake), hinOrder]
    unfold queueInOrder
    cases drop with
    | true =>
      rw [if_pos rfl, if_pos rfl]
      have hrefuse : AckOnly { s₂ with rcv := { s₂.rcv with rxWindowCurrent := 0, rxWindowLastSent := 0 } }
          (refusePacket ip s₂) := ackOnly_packetSendAck _ _ s₂.snd.txSequence
      show (refusePacket ip s₂).rcv.rxSequence = _
      have hsame : (refusePacket ip s₂).rcv.rxSequence = s₂.rcv.rxSequence := hrefuse.rcv.rxSequence
      rw [hsame, hxt]
      simp
    | false =>
      rw [if_neg Bool.false_ne_true, if_neg Bool.false_ne_true]
      exact hendSequence
  obtain ⟨out, hmoved⟩ := hprogress.moved
  have hfrontLength : (octetsOf front).length = octetsTaken ip t p := by
    have h := hmoved.rxSequence
    rw [rxSequence_recordFin, hrx] at h
    have hb := hmoved.bounded
    have heq : BitVec.ofNat 32 (octetsTaken ip t p) = BitVec.ofNat 32 (octetsOf front).length := by grind
    have hk : octetsTaken ip t p ≤ p.octets.length := by
      unfold octetsTaken
      split
      · exact Nat.zero_le _
      · omega
    have hnat := congrArg BitVec.toNat heq
    rw [BitVec.toNat_ofNat, BitVec.toNat_ofNat, Nat.mod_eq_of_lt (by omega), Nat.mod_eq_of_lt (by omega)] at hnat
    exact hnat.symm
  have hfitting : ∀ q ∈ front, q.Fits (p.octets.drop 1) 0 (recordFin t (trimToWindow t p).2).rcv.rxSequence := by
    intro q hq
    obtain ⟨o, ho, hcut⟩ := hmoved.cut q (List.mem_append_left _ hq)
    rw [List.append_nil] at ho
    obtain rfl := List.mem_singleton.mp ho
    have hzero : q.lo (recordFin t (trimToWindow t p).2).rcv.rxSequence = 0 := by
      rw [rxSequence_recordFin, Packet.lo, Packet.beginSequence, hcut.header]
      show rel _ (trimToWindow t p).2.packet.header.sequenceNumber = 0
      rw [hsequence, rel_self]
    refine ⟨0, ?_, hcut.octets.trans hslice⟩
    rw [hzero]
    rfl
  have hfront : octetsOf front <+: p.octets.drop 1 := by
    have hzero : ((0 : Nat) : Int) = ((0 : Nat) : Int) + 0 := rfl
    have h := octetsOf_prefix hmoved.tiles hfitting hzero
    rw [List.drop_zero] at h
    exact h
  have hreceived : (socketStateDataCheck ip reads t p).received = octetsOf front := by
    have hnone := ht.received
    unfold Socket.received at hnone
    obtain ⟨hhanded, -⟩ := List.append_eq_nil_iff.mp hnone
    obtain ⟨finSequence, finReceived, hkept⟩ := recordFin_kept t (trimToWindow t p).2
    have hkeptHanded : (recordFin t (trimToWindow t p).2).handed = t.handed := by rw [hkept]
    have hall := congrArg octetsOf hmoved.ready
    rw [octetsOf_append, octetsOf_append, octetsOf_markReady, octetsOf_nil, List.nil_append] at hall
    unfold Socket.received
    rw [hafter.readyPackets, hmoved.handed, hkeptHanded, octetsOf_append, hhanded, List.nil_append]
    exact hall
  obtain ⟨hf₁, hf₂⟩ := recordFin_fin t (trimToWindow t p).2 ht.finReceived
  have hhas : (trimToWindow t p).2.packet.header.has tcpFinBit = p.header.has tcpFinBit := by
    unfold TcpHeader.has
    rw [htrim.word3]
  refine ⟨?_, ?_, ?_, fun hfin => ?_⟩
  · rw [hreceived, ← hfrontLength]
    exact List.prefix_iff_eq_take.mp hfront
  · rw [hrx, ht.rxSequence]
  · rw [hprogress.finReceived, hf₁, hhas]
  · rw [hprogress.finSequence, hf₂ (hhas.trans hfin), hsequence, hdataLength, ht.rxSequence]

/-! ### All segments -/

/-- A client that has sent its SYN. --/
def Socket.connecting : Socket :=
  { Socket.opened 0 6999 8192 0 with state := .synSent }

end

end Netxduo
