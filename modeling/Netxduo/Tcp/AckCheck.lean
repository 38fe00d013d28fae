import Netxduo.Tcp.DataCheck
import Netxduo.Tcp.Retransmit

/-! Processing an acknowledgment, `nx_tcp_socket_state_ack_check.c`. Keepalive, RTT estimation, early
    retransmit and the queue depth callback are not built in. -/

namespace Netxduo

/-! ### The range -/

/-- `ending_tx_sequence`: behind the last number sent, a probe included. --/
def endingTxSequence (s : Socket) : ULONG :=
  if s.snd.zeroWindowProbeHasData then s.snd.txSequence + 1 else s.snd.txSequence

/-- `acked_bytes`: the outstanding octets an acceptable acknowledgment covers. --/
def ackedBytes (s : Socket) (ack : ULONG) : ULONG :=
  if INT (ack - dataUnacked s) > 0 ∧ INT (endingTxSequence s - ack) ≥ 0 then
    if ack - dataUnacked s > s.snd.txOutstandingBytes then s.snd.txOutstandingBytes else ack - dataUnacked s
  else 0

/-! ### Duplicates -/

/-- A SACK peer at the recovery point has reported data above it. --/
def sackNewRecovery (s : Socket) (ack : ULONG) : Bool :=
  s.sackPermitted && ack - 1 == s.snd.txSequenceRecover && sackAbove s ack

/-- The third duplicate acknowledgment. --/
def thirdDuplicate (ip : Ip) (s : Socket) (ack : ULONG) : Socket :=
  if INT ((ack - 1) - s.snd.txSequenceRecover) > 0 ∨ sackNewRecovery s ack = true then socketRetransmit ip s true
  else
    let (repaired, s) := retransmitLostCopy ip s
    if repaired = false ∧ ackHeuristic s ack = true then socketRetransmit ip s true else s

/-- A duplicate acknowledgment while the driver is done with the head packet. --/
def duplicateAck (ip : Ip) (s : Socket) (ack : ULONG) : Socket :=
  let s := { s with snd.duplicatedAckReceived := s.snd.duplicatedAckReceived + 1 }
  if s.snd.duplicatedAckReceived = BitVec.ofNat 32 fastRetransmitThreshold then thirdDuplicate ip s ack
  else if s.snd.duplicatedAckReceived > BitVec.ofNat 32 fastRetransmitThreshold ∧ s.snd.fastRecovery = true then
    let s :=
      if s.sackPermitted then s
      else { s with snd.txWindowCongestion := s.snd.txWindowCongestion + s.connectMss }
    if s.sackRecoveryActive then socketRetransmit ip s false else s
  else s

/-- What a number other than `ending_tx_sequence` does before anything is released. --/
def checkDuplicate (ip : Ip) (s : Socket) (start ack : ULONG) : Socket :=
  match s.snd.transmitSent with
  | p :: _ => if p.txDone ∧ ack = start then duplicateAck ip s ack else s
  | [] => s

/-! ### What is released -/

/-- The packets an acknowledgment covers, from the head of the queue on. --/
def releaseCount (start ending ack : ULONG) : List TxPacket → Nat
  | [] => 0
  | p :: rest =>
    if INT (ack - start) < 0 ∨ INT (ending - ack) < 0 ∨ INT (ack - p.endSequence) < 0 then 0
    else releaseCount start ending ack rest + 1

/-- Takes the first `count` packets off the transmit queue. --/
def releasePackets (s : Socket) (count : Nat) : Socket :=
  let released := s.snd.transmitSent.take count
  let rest := s.snd.transmitSent.drop count
  let cursor :=
    if s.sack.cursor.any fun addr => released.any (·.addr == addr) then rest.head?.map (·.addr) else s.sack.cursor
  let s : Socket := { s with snd.transmitSent := rest, sack.cursor := cursor }
  if rest ≠ [] then
    { s with snd := { s.snd with timeout := s.snd.timeoutRate, timeoutRetries := 0, stallTicks := 0 } }
  else if s.state = .finWait1 ∨ s.state = .closing ∨ s.state = .lastAck then
    { s with snd := { s.snd with timeout := s.snd.timeoutRate, timeoutRetries := 0 } }
  else if s.snd.txWindowAdvertised ≠ 0 then { s with snd.timeout := 0 }
  else s

/-! ### Congestion control -/

/-- An acknowledgment past the recovery point ends the recovery. --/
def leaveRecovery (s : Socket) (ack : ULONG) : Socket :=
  if s.snd.fastRecovery = true ∧ INT (ack - s.snd.txSequenceRecover) > 0 then
    { s with
      snd := { s.snd with fastRecovery := false, txWindowCongestion := s.snd.txSlowStartThreshold }
      sack := s.sack.finish }
  else s

/-- The congestion window after `acked` more octets. --/
def growWindow (ip : Ip) (s : Socket) (acked : ULONG) : Socket :=
  let cwnd := s.snd.txWindowCongestion
  if s.snd.fastRecovery then
    if s.sackPermitted then s
    else
      let deflated := if acked < cwnd then cwnd - acked else 0
      { s with snd := { s.snd with
        txWindowCongestion := if acked > s.connectMss then deflated + s.connectMss else deflated
        txCwndAcked := 0 } }
  else if cwnd ≥ s.snd.txSlowStartThreshold then
    let total := s.snd.txCwndAcked + acked
    if total ≥ cwnd then
      { s with snd := { s.snd with
        txCwndAcked := if total - cwnd > cwnd then cwnd else total - cwnd
        txWindowCongestion := cwnd + s.connectMss } }
    else { s with snd.txCwndAcked := total }
  else
    let limit := if ip.interfaceAbcLimit > 1 then s.connectMss * ip.interfaceAbcLimit else s.connectMss
    { s with snd := { s.snd with
      txCwndAcked := 0
      txWindowCongestion := cwnd + if acked < limit then acked else limit } }

/-- What newly acknowledged octets do. --/
def creditAcked (ip : Ip) (s : Socket) (start ack acked : ULONG) : Socket :=
  if acked ≠ 0 then
    let s := leaveRecovery s ack
    let recover := if INT (s.snd.txSequenceRecover - (ack - 2)) < 0 then ack - 2 else s.snd.txSequenceRecover
    let s := { s with snd := { s.snd with
      txSequenceRecover := recover
      duplicatedAckReceived := 0
      previousHighestAck := start } }
    let s := growWindow ip s acked
    { s with snd := { s.snd with
      txOutstandingBytes := s.snd.txOutstandingBytes - acked
      timeout := s.snd.timeoutRate
      timeoutRetries := 0
      stallTicks := 0 } }
  else s

/-! ### The window -/

/-- The window update of a segment that is no older than the last one. --/
def updateWindow (s : Socket) (h : TcpHeader) (start ending endingRx : ULONG) : Socket :=
  let ack := h.acknowledgmentNumber
  if (INT (ack - start) > 0 ∧ INT (ack - ending) ≤ 0) ∨ INT (h.sequenceNumber - endingRx) > 0 ∨
      (h.sequenceNumber = endingRx ∧ INT (ack - start) ≥ 0) then
    let window := (h.word3 &&& lower16Mask) <<< s.snd.sndWinScaleValue
    { s with snd := { s.snd with
      txWindowAdvertised := window
      txWindowAdvertisedMax := if window > s.snd.txWindowAdvertisedMax then window else s.snd.txWindowAdvertisedMax } }
  else s

/-- An answered probe resets the count of the unanswered ones. The comparison is the source's. --/
def probeAnswered (s : Socket) (ack : ULONG) : Socket :=
  if s.snd.txWindowAdvertised ≤ s.snd.txOutstandingBytes ∧ ack ≥ s.snd.zeroWindowProbeSequence then
    { s with snd.zeroWindowProbeFailure := 0 }
  else s

/-! ### The retransmissions -/

/-- Inside a walk of the old flight, blocks the acknowledgment has reached are dropped. --/
def dropReachedBlocks (s : Socket) (ack : ULONG) : Socket :=
  if INT (s.snd.txRtoEnd - s.snd.txRtoNext) > 0 ∧ s.sack.blocks.any (fun b => decide (INT (ack - b.left) ≥ 0)) then
    { s with sack.blocks := [] }
  else s

/-- What is sent again after an acknowledgment of new data. --/
def resumeSending (ip : Ip) (s : Socket) (ack : ULONG) : Socket :=
  let s := if s.snd.transmitSent = [] then { s with sack := s.sack.reset } else s
  if s.snd.fastRecovery then socketRetransmit ip s false
  else retransmitAfterTimeout ip (dropReachedBlocks s ack)

/-! ### The whole check -/

/-- The scoreboard takes an acceptable acknowledgment in. --/
def sackTakeAck (ip : Ip) (s : Socket) (ack : ULONG) : Socket :=
  if s.sackPermitted = true ∧ INT (ack - dataUnacked s) ≥ 0 ∧ INT (endingTxSequence s - ack) ≥ 0 ∧
      (s.sack.blocks ≠ [] ∨ s.sack.flags ≠ ⟨false, false, false, false, false⟩) then
    sackRecoveryAck ip s ack
  else s

/-- The packets the number covers, and what the last number sent or a duplicate does. --/
def ackCovers (ip : Ip) (s : Socket) (start ending ack : ULONG) : Nat × Socket :=
  if ack = ending then
    (s.snd.transmitSent.length, if s.state.code ≥ State.finWait1.code then { s with snd.finAcked := true } else s)
  else
    let s := checkDuplicate ip s start ack
    (releaseCount start ending ack s.snd.transmitSent, s)

/-- The answer to a probe of the peer while the window is closed. --/
def answerProbe (ip : Ip) (s : Socket) (h : TcpHeader) (ending : ULONG) (count : Nat) : Socket :=
  if count = 0 ∧ h.acknowledgmentNumber = ending ∧ s.rcv.rxWindowCurrent = 0 ∧
      h.sequenceNumber = s.rcv.rxSequence then
    packetSendAck ip s ending
  else s

/-- What is released, and sent after it. --/
def releaseAcked (ip : Ip) (s : Socket) (ack acked : ULONG) (count : Nat) : Socket :=
  if count = 0 ∧ acked = 0 then s
  else resumeSending ip (if count ≠ 0 then releasePackets s count else s) ack

/-- `_nx_tcp_socket_state_ack_check` --/
def socketStateAckCheck (ip : Ip) (s : Socket) (h : TcpHeader) : Bool × Socket :=
  if h.has tcpAckBit then
    let ack := h.acknowledgmentNumber
    let ending := endingTxSequence s
    let start := dataUnacked s
    let acked := ackedBytes s ack
    let s := sackTakeAck ip s ack
    let endingRx := s.rcv.searchEnd
    let (count, s) := ackCovers ip s start ending ack
    if count = 0 ∧ ack ≠ ending ∧ INT (ack - ending) > 0 then (false, packetSendAck ip s ending)
    else
      let s := answerProbe ip s h ending count
      let s := creditAcked ip s start ack acked
      let s := updateWindow s h start ending endingRx
      let s := probeAnswered s ack
      (true, releaseAcked ip s ack acked count)
  else (false, s)

end Netxduo
