import Netxduo.Tcp.Retransmit

/-! Sending, `nx_tcp_socket_send_internal.c`. The loop over a packet of the application is cut into rounds:
    a round runs under the mutex, from the window to the segment handed to IP. Where the source gives the mutex
    up inside a round, for a packet or for the checksum, it starts over when another writer was faster. -/

namespace Netxduo

/-! ### The room -/

/-- `_nx_tcp_socket_queue_byte_credit` without segmentation offload. --/
def queueByteCredit : ULONG := 0x7FFFFFFF

/-- `window` without what is outstanding. --/
def lessOutstanding (s : Socket) (window : ULONG) : ULONG :=
  if window > s.snd.txOutstandingBytes then window - s.snd.txOutstandingBytes else 0

/-- The smaller of the two windows; the first two duplicates open the congestion window by two segments. --/
def sendWindow (s : Socket) : ULONG :=
  if s.snd.txWindowAdvertised > s.snd.txWindowCongestion then
    if s.snd.duplicatedAckReceived = 1 ∨ s.snd.duplicatedAckReceived = 2 then
      let window := s.snd.txWindowCongestion + (s.connectMss <<< 1)
      if window > s.snd.txWindowAdvertised then s.snd.txWindowAdvertised else window
    else s.snd.txWindowCongestion
  else s.snd.txWindowAdvertised

/-- `tx_window_current`: how much may be sent now. --/
def txWindowCurrent (s : Socket) (stopped : Bool) : ULONG :=
  let window := lessOutstanding s (sendWindow s)
  let window :=
    if s.sackRecoveryActive then
      let window := lessOutstanding s s.snd.txWindowAdvertised
      if window > s.sack.prrCredit then s.sack.prrCredit else window
    else window
  let window := if window > queueByteCredit then queueByteCredit else window
  if stopped then 0 else window

/-- `_nx_tcp_socket_sws_send_permitted` --/
def swsSendPermitted (ip : Ip) (s : Socket) : Bool :=
  let usable := lessOutstanding s s.snd.txWindowAdvertised
  let half := s.snd.txWindowAdvertisedMax >>> 1
  if usable = 0 then false
  else if s.snd.txOutstandingBytes = 0 then true
  else if payloadMss ip s ≠ 0 ∧ usable ≥ payloadMss ip s then true
  else decide (half ≠ 0 ∧ usable ≥ half)

/-! ### A segment -/

/-- A new segment at the end of the stream. --/
def newSegment (ip : Ip) (s : Socket) (octets : List UInt8) : Socket :=
  let s := retransmitSegment ip s s.snd.txSequence octets
  { s with rcv.delayedAckTimeout := ip.tcpAckTimerRate }

/-- The segment joins the transmit queue. --/
def enqueueSent (ip : Ip) (s : Socket) (addr : Nat) (octets : List UInt8) (done : Bool) : Socket :=
  let bytes := BitVec.ofNat 32 octets.length
  let p : TxPacket := ⟨addr, s.snd.txSequence, segmentHeaderLength ip s, octets, done⟩
  let first := s.snd.transmitSent = []
  let s := { s with snd := { s.snd with
    txSequence := s.snd.txSequence + bytes
    zeroWindowProbeHasData := false
    timeout := if first then s.snd.timeoutRate else s.snd.timeout
    timeoutRetries := if first then 0 else s.snd.timeoutRetries
    transmitSent := s.snd.transmitSent ++ [p]
    txOutstandingBytes := (if first then 0 else s.snd.txOutstandingBytes) + bytes } }
  if s.sackRecoveryActive then
    { s with sack := { s.sack with
      prrOut := s.sack.prrOut + bytes
      prrCredit := if s.sack.prrCredit > bytes then s.sack.prrCredit - bytes else 0 } }
  else s

/-- `_nx_tcp_socket_zero_window_probe_arm` --/
def zeroWindowProbeArm (s : Socket) (octets : List UInt8) : Socket :=
  if s.snd.txWindowAdvertised ≠ 0 then s
  else
    let s :=
      if s.snd.zeroWindowProbeHasData then s
      else
        { s with snd := { s.snd with
          zeroWindowProbeHasData := true
          zeroWindowProbeData := octets.headD 0
          zeroWindowProbeSequence := s.snd.txSequence
          zeroWindowProbeFailure := 0 } }
    if s.snd.timeout = 0 then { s with snd := { s.snd with timeout := s.snd.timeoutRate, timeoutRetries := 0 } }
    else s

/-! ### A round -/

/-- What a round may send: nothing of a packet that does not fit, when silly windows are to be avoided. --/
def roundWindow (ip : Ip) (s : Socket) (length : ULONG) (stopped : Bool) : ULONG :=
  let window := txWindowCurrent s stopped
  let window := if length > window ∧ swsSendPermitted ip s = false then 0 else window
  if window > payloadMss ip s then payloadMss ip s else window

inductive SendStatus where
  | sent (bytes : Nat) | invalidPacket | notConnected | noPacket | suspended | windowOverflow | txQueueDepth
deriving DecidableEq, Repr

/-- What becomes of a packet there is no room for. --/
def sendBlocked (s : Socket) (octets : List UInt8) (wait : Option Nat) : SendStatus × Socket :=
  let s := zeroWindowProbeArm s octets
  match wait with
  | some thread => (.suspended, { s with snd.transmitSuspensionList := s.snd.transmitSuspensionList ++ [thread] })
  | none =>
    if s.snd.transmitSent.length < s.snd.transmitQueueMaximum.toNat then (.windowOverflow, s) else (.txQueueDepth, s)

/-- The segment goes out. --/
def sendPart (ip : Ip) (s : Socket) (part : List UInt8) (addr : Nat) : SendStatus × Socket :=
  let (done, s) := (newSegment ip s part).driverTakes ip
  (.sent part.length, enqueueSent ip s addr part done)

/-- A round of `_nx_tcp_socket_send_internal` with the octets left of the application's packet. The segment is
    sent from the packet at `addr`; `copies` says that the application's own cannot be used as it is. --/
def socketSend (ip : Ip) (s : Socket) (octets : List UInt8) (addr : Nat) (copies : Bool) (wait : Option Nat) :
    SendStatus × Socket :=
  if octets = [] then (.invalidPacket, s)
  else if s.state ≠ .established ∧ s.state ≠ .closeWait then (.notConnected, s)
  else
    let (stopped, s) := s.txQueueStopped ip
    let window := roundWindow ip s (BitVec.ofNat 32 octets.length) stopped
    if window ≠ 0 ∧ s.snd.transmitSent.length < s.snd.transmitQueueMaximum.toNat then
      if copies || decide (BitVec.ofNat 32 octets.length > window) then
        let (allocated, s) := s.packetAllocate ip
        if allocated then sendPart ip s (octets.take window.toNat) addr else (.noPacket, s)
      else sendPart ip s (octets.take window.toNat) addr
    else sendBlocked s octets wait

/-! ### Writers that wait -/

/-- The window the check of the waiting writers computes for itself. --/
def transmitCheckWindow (s : Socket) (stopped : Bool) : ULONG :=
  let window :=
    if s.snd.txWindowAdvertised > s.snd.txWindowCongestion then
      let window :=
        if s.snd.duplicatedAckReceived = 1 ∨ s.snd.duplicatedAckReceived = 2 then
          s.snd.txWindowCongestion + (s.connectMss <<< 1)
        else s.snd.txWindowCongestion
      -- here the bound stands outside the case of the duplicates
      if window > s.snd.txWindowAdvertised then s.snd.txWindowAdvertised else window
    else s.snd.txWindowAdvertised
  let window := if window > s.snd.txOutstandingBytes then window - s.snd.txOutstandingBytes else 0
  let window :=
    if s.sackRecoveryActive then
      let window := s.snd.txWindowAdvertised
      let window := if window > s.snd.txOutstandingBytes then window - s.snd.txOutstandingBytes else 0
      if window > s.sack.prrCredit then s.sack.prrCredit else window
    else window
  let window := if window > queueByteCredit then queueByteCredit else window
  if stopped then 0 else window

/-- `_nx_tcp_socket_state_transmit_check`: the first suspended writer goes on. `waiting` is the length of its
    packet. --/
def socketStateTransmitCheck (ip : Ip) (s : Socket) (waiting : ULONG) : Socket :=
  match s.snd.transmitSuspensionList with
  | [] => s
  | _ :: threads =>
    let (stopped, s) := s.txQueueStopped ip
    let window := transmitCheckWindow s stopped
    let window := if swsSendPermitted ip s = false ∧ waiting > window then 0 else window
    if window ≠ 0 ∧ s.snd.transmitSent.length < s.snd.transmitQueueMaximum.toNat then
      { s with snd.transmitSuspensionList := threads }
    else s

end Netxduo
