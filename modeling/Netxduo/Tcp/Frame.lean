import Netxduo.Tcp.DataCheck

/-! What sending an acknowledgment leaves alone. -/

namespace Netxduo

/-- The two agree on everything but the bookkeeping of acknowledgments. --/
structure SameQueue (r r' : Receive) : Prop where
  rxSequence : r'.rxSequence = r.rxSequence
  rxWindowDefault : r'.rxWindowDefault = r.rxWindowDefault
  rxWindowCurrent : r'.rxWindowCurrent = r.rxWindowCurrent
  finSequence : r'.finSequence = r.finSequence
  finReceived : r'.finReceived = r.finReceived
  queue : r'.receiveQueue = r.receiveQueue
  head : r'.receiveQueueHead = r.receiveQueueHead
  tail : r'.receiveQueueTail = r.receiveQueueTail
  count : r'.receiveQueueCount = r.receiveQueueCount
  maximum : r'.receiveQueueMaximum = r.receiveQueueMaximum
  suspended : r'.receiveSuspensionList = r.receiveSuspensionList

theorem SameQueue.refl (r : Receive) : SameQueue r r := ⟨rfl, rfl, rfl, rfl, rfl, rfl, rfl, rfl, rfl, rfl, rfl⟩

theorem SameQueue.trans {r r' r'' : Receive} (h : SameQueue r r') (h' : SameQueue r' r'') : SameQueue r r'' :=
  ⟨h'.rxSequence.trans h.rxSequence, h'.rxWindowDefault.trans h.rxWindowDefault,
    h'.rxWindowCurrent.trans h.rxWindowCurrent, h'.finSequence.trans h.finSequence,
    h'.finReceived.trans h.finReceived, h'.queue.trans h.queue, h'.head.trans h.head, h'.tail.trans h.tail,
    h'.count.trans h.count, h'.maximum.trans h.maximum, h'.suspended.trans h.suspended⟩

/-- From `s` to `t` nothing happens but segments that acknowledge what `s` has received. --/
structure AckOnly (s t : Socket) : Prop where
  state : t.state = s.state
  clientType : t.clientType = s.clientType
  connectMss : t.connectMss = s.connectMss
  sackPermitted : t.sackPermitted = s.sackPermitted
  rcv : SameQueue s.rcv t.rcv
  snd : t.snd = s.snd
  sack : t.sack = s.sack
  handed : t.handed = s.handed
  wire : ∃ sent, t.wire = s.wire ++ sent ∧ ∀ g ∈ sent, g.acknowledgmentNumber = s.rcv.rxSequence

theorem AckOnly.refl (s : Socket) : AckOnly s s :=
  ⟨rfl, rfl, rfl, rfl, .refl _, rfl, rfl, rfl, [], by simp⟩

theorem AckOnly.trans {s t u : Socket} (h : AckOnly s t) (h' : AckOnly t u) : AckOnly s u := by
  obtain ⟨sent, hw, hack⟩ := h.wire
  obtain ⟨sent', hw', hack'⟩ := h'.wire
  refine ⟨h'.state.trans h.state, h'.clientType.trans h.clientType, h'.connectMss.trans h.connectMss,
    h'.sackPermitted.trans h.sackPermitted, h.rcv.trans h'.rcv, h'.snd.trans h.snd, h'.sack.trans h.sack,
    h'.handed.trans h.handed, sent ++ sent', by rw [hw', hw, List.append_assoc], fun g hg => ?_⟩
  rcases List.mem_append.mp hg with hg | hg
  · exact hack g hg
  · rw [hack' g hg, h.rcv.rxSequence]

theorem AckOnly.ite {s t u : Socket} {c : Prop} [Decidable c] (h : AckOnly s t) (h' : AckOnly s u) :
    AckOnly s (if c then t else u) := by
  split
  · exact h
  · exact h'

section
variable (ip : Ip) (s : Socket)

/-- Asking the pools or the driver changes nothing else. --/
theorem ackOnly_asked (n : Nat) : AckOnly s { s with asked := n } :=
  ⟨rfl, rfl, rfl, rfl, .refl _, rfl, rfl, rfl, [], by simp⟩

theorem ackOnly_dsackRecord (left right : ULONG) : AckOnly s (dsackRecord s left right) := by
  unfold dsackRecord
  split
  · exact ⟨rfl, rfl, rfl, rfl, ⟨rfl, rfl, rfl, rfl, rfl, rfl, rfl, rfl, rfl, rfl, rfl⟩, rfl, rfl, rfl, [], by simp⟩
  · exact .refl s

theorem ackOnly_sackOptionBuild : AckOnly s (sackOptionBuild ip s).2 := by
  unfold sackOptionBuild
  split
  · dsimp only
    split
    · exact ⟨rfl, rfl, rfl, rfl, ⟨rfl, rfl, rfl, rfl, rfl, rfl, rfl, rfl, rfl, rfl, rfl⟩, rfl, rfl, rfl, [], by simp⟩
    · exact .refl s
  · exact .refl s

theorem ackOnly_rememberRecent (a : Arrival) : AckOnly s (rememberRecent s a) := by
  unfold rememberRecent
  split
  · exact ⟨rfl, rfl, rfl, rfl, ⟨rfl, rfl, rfl, rfl, rfl, rfl, rfl, rfl, rfl, rfl, rfl⟩, rfl, rfl, rfl, [], by simp⟩
  · exact .refl s

/-- A control segment that acknowledges `rxSequence`. --/
theorem ackOnly_packetSendControl (control txSequence : ULONG) (blocks : List SackBlock) (data : List UInt8) :
    AckOnly s (packetSendControl ip s control txSequence s.rcv.rxSequence blocks data) := by
  unfold packetSendControl Socket.packetAllocate
  dsimp only
  split
  · exact ⟨rfl, rfl, rfl, rfl, ⟨rfl, rfl, rfl, rfl, rfl, rfl, rfl, rfl, rfl, rfl, rfl⟩, rfl, rfl, rfl, _, rfl, by simp⟩
  · exact ackOnly_asked s _

theorem ackOnly_delayedAck (timeout : ULONG) : AckOnly s { s with rcv.delayedAckTimeout := timeout } :=
  ⟨rfl, rfl, rfl, rfl, ⟨rfl, rfl, rfl, rfl, rfl, rfl, rfl, rfl, rfl, rfl, rfl⟩, rfl, rfl, rfl, [], by simp⟩

theorem ackOnly_packetSendAck (txSequence : ULONG) : AckOnly s (packetSendAck ip s txSequence) := by
  have h₁ := ackOnly_sackOptionBuild ip s
  have h₂ := ackOnly_packetSendControl ip (sackOptionBuild ip s).2 tcpAckBit txSequence (sackOptionBuild ip s).1 []
  exact (h₁.trans h₂).trans (ackOnly_delayedAck _ _)

end

end Netxduo
