import Netxduo.Tcp.AckCheck
import Netxduo.Tcp.Options

/-! `nx_tcp_socket_packet_process.c` for a connection past its handshake: the acceptance test, RST and SYN,
    the acknowledgment, and the state the segment is dispatched to. -/

namespace Netxduo

/-! ### Closing the control block -/

/-- `_nx_tcp_socket_block_cleanup` --/
def socketBlockCleanup (s : Socket) : Socket :=
  { s with
    state := if s.clientType then .closed else .listen
    sack := s.sack.reset
    snd := { s.snd with
      zeroWindowProbeHasData := false
      timeout := 0
      stallTicks := 0
      duplicatedAckReceived := 0
      fastRecovery := false
      txRtoNext := 0
      txRtoEnd := 0 } }

/-- `_nx_tcp_socket_transmit_queue_flush` --/
def socketTransmitQueueFlush (s : Socket) : Socket :=
  { s with snd.transmitSent := [] }

/-- `_nx_tcp_socket_connection_reset` --/
def socketConnectionReset (s : Socket) : Socket :=
  let s := socketBlockCleanup s
  let s := if s.snd.transmitSent ≠ [] then socketTransmitQueueFlush s else s
  { s with rcv.receiveSuspensionList := [], snd.transmitSuspensionList := [] }

/-! ### The acceptance test -/

/-- The window a segment is tested against. --/
def acceptWindow (s : Socket) : ULONG :=
  if s.rcv.rxWindowCurrent < swsFloor s ∧ s.rcv.rxWindowCurrent > s.rcv.rxWindowLastSent then s.rcv.rxWindowLastSent
  else s.rcv.rxWindowCurrent

/-- The segment lies outside the window. --/
def outsideOfWindow (s : Socket) (p : Packet) : Bool :=
  let window := acceptWindow s
  let sequence := p.header.sequenceNumber
  let rx := s.rcv.rxSequence
  if p.dataLength = 0 then
    if window = 0 then
      !(sequence == rx || p.header.has tcpRstBit || p.header.has tcpUrgBit ||
        p.header.word3 &&& tcpControlMask == tcpAckBit)
    else !(decide (INT (sequence - rx) ≥ 0) && decide (INT (rx + window - sequence) > 0))
  else
    !(decide (window > 0) && decide (INT (sequence - (rx + window)) < 0) &&
      decide (INT (sequence + p.dataLength - rx) > 0))

/-- A window closed by a drop opens again when the queue is empty and the pool has recovered. --/
def reopenWindow (ip : Ip) (s : Socket) : Socket :=
  if ip.build.lowWatermark ∧ s.rcv.rxWindowCurrent = 0 ∧ s.rcv.receiveQueueHead = none then
    let (low, s) := s.belowLowWatermark ip
    if low then s else { s with rcv.rxWindowCurrent := s.rcv.rxWindowDefault }
  else s

/-- The answer to a segment outside the window. --/
def answerOutside (ip : Ip) (s : Socket) (p : Packet) : Socket :=
  let sequence := p.header.sequenceNumber
  let rx := s.rcv.rxSequence
  let s :=
    if p.header.has tcpRstBit = false ∧ p.dataLength > 0 ∧ INT (sequence + p.dataLength - rx) ≤ 0 then
      dsackRecord s sequence (sequence + p.dataLength)
    else s
  if p.header.has tcpRstBit = false ∧ (INT (sequence + 1 - rx) ≥ 0 ∨ p.dataLength > 0 ∨
      s.rcv.dsackLeft ≠ s.rcv.dsackRight ∨ s.rcv.rxSequence ≠ s.rcv.rxSequenceAcked ∨
      socketRxWindowAdvertised ip s ≠ s.rcv.rxWindowLastSent) then
    packetSendAck ip s s.snd.txSequence
  else s

/-- A challenge acknowledgment, while the budget lasts. --/
def challengeAck (ip : Ip) (s : Socket) : Socket :=
  if s.challengeAckBudget = 0 then s
  else packetSendAck ip { s with challengeAckBudget := s.challengeAckBudget - 1 } s.snd.txSequence

/-! ### The states -/

/-- `_nx_tcp_socket_state_fin_wait1` --/
def socketStateFinWait1 (ip : Ip) (s : Socket) : Socket :=
  if s.snd.finAcked ∧ s.rcv.finReceived = false then { s with state := .finWait2, snd.timeout := 0 }
  else if s.snd.finAcked ∧ s.rcv.finSequence = s.rcv.rxSequence then
    packetSendAck ip { s with
      state := .timedWait
      snd.timeout := ip.tcp2MslTimerRate
      rcv.rxSequence := s.rcv.rxSequence + 1 } s.snd.txSequence
  else if s.rcv.finReceived ∧ s.rcv.finSequence = s.rcv.rxSequence then
    packetSendAck ip { s with state := .closing, rcv.rxSequence := s.rcv.rxSequence + 1 } s.snd.txSequence
  else s

/-- `_nx_tcp_socket_state_fin_wait2` --/
def socketStateFinWait2 (ip : Ip) (s : Socket) : Socket :=
  if s.rcv.finReceived ∧ s.rcv.finSequence = s.rcv.rxSequence then
    packetSendAck ip { s with
      state := .timedWait
      snd.timeout := ip.tcp2MslTimerRate
      rcv.rxSequence := s.rcv.rxSequence + 1 } s.snd.txSequence
  else s

/-- The acknowledgment of the FIN, in sequence. --/
def acksFin (s : Socket) (h : TcpHeader) : Bool :=
  h.has tcpAckBit && h.acknowledgmentNumber == s.snd.txSequence && h.sequenceNumber == s.rcv.rxSequence

/-- `_nx_tcp_socket_state_closing` --/
def socketStateClosing (ip : Ip) (s : Socket) (h : TcpHeader) : Socket :=
  if acksFin s h then { s with state := .timedWait, snd.timeout := ip.tcp2MslTimerRate } else s

/-- `_nx_tcp_socket_state_last_ack` --/
def socketStateLastAck (s : Socket) (h : TcpHeader) : Socket := if acksFin s h then socketBlockCleanup s else s

/-- The dispatch. What `_nx_tcp_socket_state_transmit_check` does to suspended writers is a step of theirs. --/
def socketStateDispatch (ip : Ip) (reads : Nat) (s : Socket) (p : Packet) : Socket :=
  match s.state with
  | .established => socketStateEstablished ip (socketStateDataCheck ip reads s p)
  | .finWait1 => socketStateFinWait1 ip (socketStateDataCheck ip reads s p)
  | .finWait2 => socketStateFinWait2 ip (socketStateDataCheck ip reads s p)
  | .closing => socketStateClosing ip s p.header
  | .lastAck => socketStateLastAck s p.header
  | .timedWait =>
    if p.header.has tcpFinBit then packetSendAck ip { s with snd.timeout := ip.tcp2MslTimerRate } s.snd.txSequence
    else s
  | .closeWait => s
  -- the handshake is not modelled, and the other two states take no segment
  | .closed | .listen | .synSent | .synReceived => s

/-- A segment with illegal options costs the connection. --/
def rejectOptions (ip : Ip) (s : Socket) (p : Packet) : Socket :=
  if p.header.has tcpRstBit then s
  else
    let h :=
      if p.header.has tcpAckBit then p.header
      else
        let next := p.header.sequenceNumber + p.dataLength
        { p.header with sequenceNumber := if p.header.has tcpSynBit || p.header.has tcpFinBit then next + 1 else next }
    socketConnectionReset (packetSendRst ip s h)

/-- From the acknowledgment on. --/
def processAccepted (ip : Ip) (reads : Nat) (s : Socket) (p : Packet) : Socket :=
  let s := if p.header.has tcpAckBit ∧ p.header.headerLength > 20 then sackOptionGet s p.options else s
  let (accepted, s) := socketStateAckCheck ip s p.header
  if accepted = false then s
  else if p.header.headerLength > 20 ∧ mssOptionLegal p.options = false then rejectOptions ip s p
  else socketStateDispatch ip reads s p

/-- The timestamp option of a segment, where the connection has timestamps. --/
def packetTimestamp (ip : Ip) (s : Socket) (p : Packet) : Option ULONG :=
  if ip.build.timestamp ∧ s.rcv.timestampEnabled ∧ p.header.headerLength > 20 ∧ p.header.headerLength ≤ p.length then
    (timestampOptionGet p.options).map (·.1)
  else none

/-- The newest timestamp in sequence is remembered. --/
def recordTimestamp (s : Socket) (p : Packet) : Option ULONG → Socket
  | some value =>
    if INT (value - s.rcv.tsRecent) ≥ 0 ∧ INT (p.header.sequenceNumber - s.rcv.lastAckSent) ≤ 0 then
      { s with rcv.tsRecent := value }
    else s
  | none => s

/-- A segment that passed the timestamp test. --/
def processWindow (ip : Ip) (reads : Nat) (s : Socket) (p : Packet) (value : Option ULONG) : Socket :=
  let s := reopenWindow ip s
  if outsideOfWindow s p then answerOutside ip s p
  else
    let s := recordTimestamp s p value
    if p.header.has tcpRstBit then
      if s.state = .timedWait then s
      else if p.header.sequenceNumber ≠ s.rcv.rxSequence then challengeAck ip s
      else socketConnectionReset s
    else if p.header.has tcpSynBit then challengeAck ip s
    else processAccepted ip reads s p

/-- `_nx_tcp_socket_packet_process`. `reads` is what the application's receive callback does. --/
def socketPacketProcess (ip : Ip) (reads : Nat) (s : Socket) (p : Packet) : Socket :=
  match packetTimestamp ip s p with
  | some value =>
    if p.header.has tcpRstBit = false ∧ INT (value - s.rcv.tsRecent) < 0 then packetSendAck ip s s.snd.txSequence
    else processWindow ip reads s p (some value)
  | none => processWindow ip reads s p none

end Netxduo
