import Netxduo.Tcp.PacketProcess

/-! Closing, `nx_tcp_socket_disconnect.c`, and the fast timer, `nx_tcp_fast_periodic_processing.c`. -/

namespace Netxduo

/-! ### Disconnect -/

/-- The end of `_nx_tcp_socket_disconnect`: the transmit queue and the waiting threads are given up. --/
def disconnectFinish (s : Socket) : Socket :=
  let s := if s.snd.transmitSent ≠ [] then socketTransmitQueueFlush s else s
  { s with rcv.receiveSuspensionList := [], snd.transmitSuspensionList := [] }

/-- The state behind the call, and the number of the FIN. With data on the way its timer goes on. --/
def disconnectEnter (s : Socket) : Socket :=
  { s with
    state := if s.state = .closeWait then .lastAck else .finWait1
    snd := { s.snd with
      timeout := if s.snd.transmitSent = [] then s.snd.timeoutRate else s.snd.timeout
      timeoutRetries := if s.snd.transmitSent = [] then 0 else s.snd.timeoutRetries
      txSequence := s.snd.txSequence + 1 } }

/-- The FIN of `_nx_tcp_socket_disconnect`. --/
def disconnectFin (ip : Ip) (s : Socket) : Socket :=
  let s := disconnectEnter s
  packetSendFin ip s (s.snd.txSequence - 1)

/-- `_nx_tcp_socket_disconnect`. `wait` says that the caller waits, `ipThread` that it is the IP thread. --/
def socketDisconnect (ip : Ip) (s : Socket) (wait ipThread : Bool) : Socket :=
  if s.state ≠ .established ∧ s.state ≠ .closeWait then s
  else if wait = false ∧ ip.build.disableResetDisconnect = false then
    disconnectFinish (socketBlockCleanup (packetSendRst ip s ⟨s.rcv.rxSequence, s.snd.txSequence, tcpAckBit, 0⟩))
  else
    let s := disconnectFin ip s
    if wait = true ∧ ipThread = false then { s with disconnectSuspended := true } else disconnectFinish s

/-- The suspended caller goes on, for the connection is closed or the wait is over. --/
def disconnectResume (s : Socket) : Socket :=
  if s.disconnectSuspended then
    let s := { s with disconnectSuspended := false }
    disconnectFinish (if s.state = .timedWait then s else socketBlockCleanup s)
  else s

/-! ### The fast timer -/

/-- An acknowledgment that waits, or a window that has opened. --/
def ackWaits (ip : Ip) (s : Socket) : Bool :=
  let window := socketRxWindowOpen ip s
  let last := s.rcv.rxWindowLastSent
  decide (s.state.code ≥ State.established.code) &&
    (s.rcv.rxSequence != s.rcv.rxSequenceAcked ||
      decide (window > last) && (decide (window - last ≥ socketWindowUpdateStep ip s) ||
        decide (last < s.connectMss) && decide (window ≥ s.connectMss <<< 1)))

/-- The delayed acknowledgment. --/
def delayedAck (ip : Ip) (s : Socket) : Socket :=
  if ackWaits ip s then
    if s.rcv.delayedAckTimeout ≤ ip.tcpFastTimerRate then
      let outstanding := (s.rcv.rxSequence - s.rcv.rxSequenceAcked) >>> 1
      let outstanding := if outstanding < s.connectMss <<< 1 then s.connectMss <<< 1 else outstanding
      let s :=
        if ip.build.ackEveryNPackets = none ∧ s.rcv.rxSequence ≠ s.rcv.rxSequenceAcked ∧
            outstanding < s.rcv.ackNPacketCounter then { s with rcv.ackNPacketCounter := outstanding }
        else s
      packetSendAck ip s s.snd.txSequence
    else { s with rcv.delayedAckTimeout := s.rcv.delayedAckTimeout - ip.tcpFastTimerRate }
  else s

/-- The timeout has run out. --/
def retransmitTimeout (ip : Ip) (s : Socket) : Socket :=
  if s.snd.transmitSent ≠ [] ∨ (s.snd.txWindowAdvertised = 0 ∧ s.state.code ≤ State.closeWait.code) then
    socketRetransmit ip { s with snd := { s.snd with
      txSequenceRecover := s.snd.txSequence - 1
      fastRecovery := false } } false
  else if s.state = .finWait1 ∨ s.state = .closing ∨ s.state = .lastAck then
    let s := { s with snd := { s.snd with
      timeoutRetries := s.snd.timeoutRetries + 1
      timeout := s.snd.timeoutRate <<< ((s.snd.timeoutRetries + 1) * s.snd.timeoutShift).toNat } }
    packetSendFin ip s (s.snd.txSequence - 1)
  else if s.state = .timedWait then socketBlockCleanup s
  else s

/-- The attempts are used up. --/
def retriesExhausted (s : Socket) : Bool :=
  decide (s.snd.timeoutRetries ≥ s.snd.timeoutMaxRetries) && !s.snd.zeroWindowProbeHasData ||
    decide (s.snd.zeroWindowProbeFailure ≥ s.snd.timeoutMaxRetries) && s.snd.zeroWindowProbeHasData

/-- The retransmission timer. --/
def retransmitTimer (ip : Ip) (s : Socket) : Socket :=
  if s.snd.timeout ≠ 0 then
    let s := { s with snd.stallTicks := s.snd.stallTicks + ip.tcpFastTimerRate }
    if s.snd.userTimeout ≠ 0 ∧ s.snd.stallTicks ≥ s.snd.userTimeout then socketConnectionReset s
    else if s.snd.timeout > ip.tcpFastTimerRate then { s with snd.timeout := s.snd.timeout - ip.tcpFastTimerRate }
    else if retriesExhausted s then socketConnectionReset s
    else retransmitTimeout ip s
  else { s with snd.stallTicks := 0 }

/-- `_nx_tcp_fast_periodic_processing` for one socket past its handshake. --/
def fastPeriodicProcessing (ip : Ip) (s : Socket) : Socket := retransmitTimer ip (delayedAck ip s)

end Netxduo
