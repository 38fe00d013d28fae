import Netxduo.Tcp.Steps

/-! What no function of the connection changes: the MSS settled in the handshake, and the budget of challenge
    acknowledgments except where one is sent. -/

namespace Netxduo

/-- The MSS and the budget are left alone. --/
structure Steady (s t : Socket) : Prop where
  connectMss : t.connectMss = s.connectMss
  challengeAckBudget : t.challengeAckBudget = s.challengeAckBudget

section
variable {ip : Ip} {F : Transmit → Transmit → Prop} {s t u : Socket}

theorem Steady.refl (s : Socket) : Steady s s := ⟨rfl, rfl⟩

theorem Steady.trans (h : Steady s t) (h' : Steady t u) : Steady s u :=
  ⟨h'.connectMss.trans h.connectMss, h'.challengeAckBudget.trans h.challengeAckBudget⟩

/-- A change beside the two, before what keeps them. --/
theorem Steady.after (h : Steady t u) (hm : t.connectMss = s.connectMss)
    (hb : t.challengeAckBudget = s.challengeAckBudget) : Steady s u := Steady.trans ⟨hm, hb⟩ h

theorem Steady.ite {c : Prop} [Decidable c] (h : Steady s t) (h' : Steady s u) : Steady s (if c then t else u) := by
  split
  · exact h
  · exact h'

theorem Sending.steady (h : Sending ip F s t) : Steady s t := by
  induction h with
  | refl s => exact .refl s
  | quiet s k n h => exact ⟨rfl, rfl⟩
  | noted s h => exact ⟨rfl, rfl⟩
  | sent s h last ack window n => exact ⟨rfl, rfl⟩
  | trans _ _ ih ih' => exact ih.trans ih'

end

section
variable (ip : Ip) (s : Socket)

theorem steady_packetSendAck (txSequence : ULONG) : Steady s (packetSendAck ip s txSequence) :=
  (sending_packetSendAck (F := FreeFlight) ip s (fun _ => trivial) txSequence).steady

theorem steady_packetSendControl (control txSequence ack : ULONG) (blocks : List SackBlock) (data : List UInt8) :
    Steady s (packetSendControl ip s control txSequence ack blocks data) :=
  .ite ⟨rfl, rfl⟩ ⟨rfl, rfl⟩

theorem steady_packetSendRst (h : TcpHeader) : Steady s (packetSendRst ip s h) :=
  .ite (steady_packetSendControl ip s _ _ _ _ _) (steady_packetSendControl ip s _ _ _ _ _)

/-! ### The receive path -/

theorem steady_dsackRecord (left right : ULONG) : Steady s (dsackRecord s left right) := .ite ⟨rfl, rfl⟩ (.refl s)

theorem steady_trimToWindow (p : Packet) : Steady s (trimToWindow s p).1 := by
  unfold trimToWindow trimLeft
  dsimp only
  split
  · split
    · exact steady_dsackRecord s _ _
    · exact .refl s
  · exact .refl s

theorem steady_recordFin (a : Arrival) : Steady s (recordFin s a) := .ite ⟨rfl, rfl⟩ (.refl s)

theorem steady_dropPacket : Steady s (dropPacket ip s).2 := by
  unfold dropPacket Socket.belowLowWatermark
  split
  · exact ⟨rfl, rfl⟩
  · exact .refl s

theorem steady_refusePacket : Steady s (refusePacket ip s) :=
  (steady_packetSendAck ip { s with rcv := { s.rcv with rxWindowCurrent := 0, rxWindowLastSent := 0 } } _).after rfl rfl

theorem steady_queueOutOfOrder (a : Arrival) (drop : Bool) : Steady s (queueOutOfOrder ip s a drop).socket := by
  have hremember : Steady s (rememberRecent s a) := .ite ⟨rfl, rfl⟩ (.refl s)
  have hduplicate : ∀ t : Socket, Steady t (packetSendAck ip (dsackRecord t a.beginSequence a.endSequence)
      (dsackRecord t a.beginSequence a.endSequence).snd.txSequence) := fun t =>
    (steady_dsackRecord t _ _).trans (steady_packetSendAck ip _ _)
  unfold queueOutOfOrder
  dsimp only
  split
  · exact hremember.trans ((hduplicate _).after rfl rfl)
  · exact hremember.trans ⟨rfl, rfl⟩

theorem steady_queuePacket (a : Arrival) (drop : Bool) : Steady s (queuePacket ip s a drop).socket := by
  unfold queuePacket
  dsimp only
  split
  · unfold queueInOrder
    split
    · exact steady_refusePacket ip s
    · dsimp only
      split
      · exact ⟨rfl, rfl⟩
      · exact ⟨rfl, rfl⟩
  · split
    · unfold queueFirst
      split
      · exact steady_refusePacket ip s
      · exact ⟨rfl, rfl⟩
    · exact steady_queueOutOfOrder ip s _ drop

theorem steady_resumeReceivers (acked : ULONG) (header : TcpHeader) (threads : List Nat) :
    Steady s (resumeReceivers acked header s threads).2 := by
  induction threads generalizing s acked header with
  | nil => exact .refl s
  | cons thread threads ih =>
    unfold resumeReceivers
    split
    · exact .refl s
    · split
      · exact .refl s
      · exact (ih _ _ _).after rfl rfl

theorem steady_socketReceive (wait : Option Nat) : Steady s (socketReceive ip s wait).2 := by
  unfold socketReceive
  split
  · exact .refl s
  · split
    · split
      · dsimp only
        split
        · exact (steady_packetSendAck ip _ _).after rfl rfl
        · exact ⟨rfl, rfl⟩
      · cases wait with
        | none => exact .refl s
        | some thread => exact ⟨rfl, rfl⟩
    · cases wait with
      | none => exact .refl s
      | some thread => exact ⟨rfl, rfl⟩

theorem steady_receiveCallback (reads : Nat) : Steady s (receiveCallback ip reads s) := by
  unfold receiveCallback
  induction reads generalizing s with
  | zero => exact .refl s
  | succ n ih =>
    rw [Function.iterate_succ_apply]
    exact (steady_socketReceive ip s none).trans (ih _)

theorem steady_acknowledgeData (reads : Nat) (original : ULONG) (header : TcpHeader) (outOfSequence : Bool) :
    Steady s (acknowledgeData ip reads s original header outOfSequence) := by
  have hread := steady_receiveCallback ip s reads
  obtain ⟨due, t, heq, ht⟩ : ∃ due t,
      (if original ≠ s.rcv.rxSequence then
        let s := receiveCallback ip reads s
        if s.state = .established ∧ header.has tcpFinBit = false then
          ((ackProgress ip s).1, { s with rcv := (ackProgress ip s).2 })
        else (false, s)
      else (false, s)) = (due, t) ∧ Steady s t := by
    split
    · dsimp only
      split
      · exact ⟨_, _, rfl, hread.trans ⟨rfl, rfl⟩⟩
      · exact ⟨_, _, rfl, hread⟩
    · exact ⟨_, _, rfl, .refl s⟩
  unfold acknowledgeData
  dsimp only at heq ⊢
  rw [heq]
  exact .ite (ht.trans (steady_packetSendAck ip t _)) ht

theorem steady_settleQueued (reads : Nat) (q : Queued) (original : ULONG) (header : TcpHeader) (drop : Bool) :
    Steady q.socket (settleQueued ip reads q original header drop) := by
  have hlimit : Steady q.socket { q.socket with
      rcv := limitOutOfOrder ip (debitWindow q.socket.rcv original drop) q.acked } := ⟨rfl, rfl⟩
  have hresume := hlimit.trans (steady_resumeReceivers _ q.acked header
    (limitOutOfOrder ip (debitWindow q.socket.rcv original drop) q.acked).receiveSuspensionList)
  unfold settleQueued
  dsimp only at hresume ⊢
  generalize resumeReceivers q.acked header _ _ = res at hresume ⊢
  exact (steady_acknowledgeData ip _ reads original _ q.outOfSequence).after hresume.connectMss hresume.challengeAckBudget

theorem steady_socketStateDataCheck (reads : Nat) (p : Packet) : Steady s (socketStateDataCheck ip reads s p) := by
  have htrim := (steady_trimToWindow s p).trans (steady_recordFin _ (trimToWindow s p).2)
  have hqueue := (htrim.trans (steady_dropPacket ip _)).trans (steady_queuePacket ip _ (trimToWindow s p).2
    (dropPacket ip (recordFin (trimToWindow s p).1 (trimToWindow s p).2)).1)
  unfold socketStateDataCheck
  dsimp only
  split
  · exact htrim.trans (.ite (steady_packetSendAck ip _ _) (.ite (steady_packetSendAck ip _ _) (.refl _)))
  · exact .ite (hqueue.trans (steady_settleQueued ip reads _ _ _ _)) hqueue

/-! ### A segment -/

theorem steady_fin (state : State) (x : Transmit) (waiting : List Nat) (txSequence : ULONG) :
    Steady s (packetSendAck ip { s with
      state := state
      snd := x
      rcv := { s.rcv with rxSequence := s.rcv.rxSequence + 1, receiveSuspensionList := waiting } } txSequence) := by
  exact (steady_packetSendAck ip _ _).after rfl rfl

theorem steady_socketBlockCleanup : Steady s (socketBlockCleanup s) := ⟨rfl, rfl⟩

theorem steady_socketConnectionReset : Steady s (socketConnectionReset s) := by
  have hflush : Steady s (if (socketBlockCleanup s).snd.transmitSent ≠ [] then
      socketTransmitQueueFlush (socketBlockCleanup s) else socketBlockCleanup s) := .ite ⟨rfl, rfl⟩ ⟨rfl, rfl⟩
  exact hflush.trans ⟨rfl, rfl⟩

theorem steady_socketStateDispatch (reads : Nat) (p : Packet) : Steady s (socketStateDispatch ip reads s p) := by
  have hdata := steady_socketStateDataCheck ip s reads p
  unfold socketStateDispatch
  split
  · exact hdata.trans (.ite (steady_fin ip _ _ (socketStateDataCheck ip reads s p).snd [] _) (.refl _))
  · exact hdata.trans (.ite ⟨rfl, rfl⟩ (.ite (steady_fin ip _ _ _ (socketStateDataCheck ip reads s p).rcv.receiveSuspensionList _)
      (.ite (steady_fin ip _ _ (socketStateDataCheck ip reads s p).snd
        (socketStateDataCheck ip reads s p).rcv.receiveSuspensionList _) (.refl _))))
  · exact hdata.trans (.ite (steady_fin ip _ _ _ (socketStateDataCheck ip reads s p).rcv.receiveSuspensionList _) (.refl _))
  · exact .ite ⟨rfl, rfl⟩ (.refl s)
  · exact .ite (steady_socketBlockCleanup s) (.refl s)
  · exact .ite ((steady_packetSendAck ip _ _).after rfl rfl) (.refl s)
  · exact .refl s
  all_goals exact .refl s

theorem steady_processAccepted (reads : Nat) (p : Packet) : Steady s (processAccepted ip reads s p) := by
  have hget : Sending ip FreeFlight s (sackOptionGet s p.options) := sending_sackOptionGet s p.options
  have hoption : Sending ip FreeFlight s (if p.header.has tcpAckBit ∧ p.header.headerLength > 20 then
    sackOptionGet s p.options else s) := .ite hget (.refl s)
  have hcheck := (hoption.trans (sending_socketStateAckCheck ip _ p.header)).steady
  have hreject : ∀ t : Socket, Steady t (rejectOptions ip t p) := fun t =>
    .ite (.refl t) ((steady_packetSendRst ip t _).trans (steady_socketConnectionReset _))
  exact .ite hcheck (.ite (hcheck.trans (hreject _)) (hcheck.trans (steady_socketStateDispatch ip _ reads p)))

theorem steady_reopenWindow : Steady s (reopenWindow ip s) := by
  unfold reopenWindow Socket.belowLowWatermark
  split
  · dsimp only
    split
    · exact ⟨rfl, rfl⟩
    · exact ⟨rfl, rfl⟩
  · exact .refl s

theorem steady_answerOutside (p : Packet) : Steady s (answerOutside ip s p) := by
  have hrecord : Steady s (if p.header.has tcpRstBit = false ∧ p.dataLength > 0 ∧
      INT (p.header.sequenceNumber + p.dataLength - s.rcv.rxSequence) ≤ 0 then
      dsackRecord s p.header.sequenceNumber (p.header.sequenceNumber + p.dataLength) else s) :=
    .ite (steady_dsackRecord s _ _) (.refl s)
  exact .ite (hrecord.trans (steady_packetSendAck ip _ _)) hrecord

theorem steady_recordTimestamp (p : Packet) (value : Option ULONG) : Steady s (recordTimestamp s p value) := by
  unfold recordTimestamp
  split
  · exact .ite ⟨rfl, rfl⟩ (.refl s)
  · exact .refl s

/-! ### Closing and the timer -/

theorem steady_disconnectFinish : Steady s (disconnectFinish s) := by
  have hflush : Steady s (if s.snd.transmitSent ≠ [] then socketTransmitQueueFlush s else s) := .ite ⟨rfl, rfl⟩ (.refl s)
  exact hflush.trans ⟨rfl, rfl⟩

theorem steady_socketDisconnect (wait ipThread : Bool) : Steady s (socketDisconnect ip s wait ipThread) := by
  have hfin : Steady s (disconnectFin ip s) := by
    exact (steady_packetSendControl ip _ _ _ _ _ _).after rfl rfl
  exact .ite (.refl s) (.ite (((steady_packetSendRst ip s _).trans (steady_socketBlockCleanup _)).trans
    (steady_disconnectFinish _)) (.ite (hfin.trans ⟨rfl, rfl⟩) (hfin.trans (steady_disconnectFinish _))))

theorem steady_disconnectResume : Steady s (disconnectResume s) := by
  have hclose : Steady s (if s.state = .timedWait then { s with disconnectSuspended := false }
      else socketBlockCleanup { s with disconnectSuspended := false }) := .ite ⟨rfl, rfl⟩ ⟨rfl, rfl⟩
  exact .ite (hclose.trans (steady_disconnectFinish _)) (.refl s)

theorem steady_fastPeriodicProcessing : Steady s (fastPeriodicProcessing ip s) := by
  have hack : Steady s (delayedAck ip s) := by
    have hcounter : ∀ n : ULONG, Steady s { s with rcv.ackNPacketCounter := n } := fun n => ⟨rfl, rfl⟩
    unfold delayedAck
    exact .ite (.ite ((Steady.ite (hcounter _) (.refl s)).trans (steady_packetSendAck ip _ _)) ⟨rfl, rfl⟩) (.refl s)
  have htimeout : ∀ s : Socket, Steady s (retransmitTimeout ip s) := by
    intro s
    unfold retransmitTimeout
    exact .ite ((sending_socketRetransmit ip _ false).steady.after rfl rfl)
      (.ite ((steady_packetSendControl ip _ _ _ _ _ _).after rfl rfl) (.ite (steady_socketBlockCleanup s) (.refl s)))
  unfold fastPeriodicProcessing retransmitTimer
  refine hack.trans ?_
  generalize delayedAck ip s = s₁
  have htick : Steady s₁ { s₁ with snd.stallTicks := s₁.snd.stallTicks + ip.tcpFastTimerRate } := ⟨rfl, rfl⟩
  exact .ite (.ite (htick.trans (steady_socketConnectionReset _)) (.ite (htick.trans ⟨rfl, rfl⟩)
    (.ite (htick.trans (steady_socketConnectionReset _)) (htick.trans (htimeout _))))) ⟨rfl, rfl⟩

end

end Netxduo
