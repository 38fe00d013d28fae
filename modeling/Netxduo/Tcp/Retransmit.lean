import Netxduo.Tcp.SackRecovery
import Netxduo.Tcp.SendAck

/-! Sending again, `nx_tcp_socket_retransmit.c`: the zero window probe, the SACK repairs, the walk of a fast
    retransmit or a timeout, and the walk of the old flight after a timeout. The connection is an IPv4 one. -/

namespace Netxduo

/-! ### Queued packets -/

namespace TxPacket

/-- The payload, as a length. --/
def payload (p : TxPacket) : ULONG := BitVec.ofNat 32 p.octets.length

def endSequence (p : TxPacket) : ULONG := p.sequence + p.payload

end TxPacket

/-- `_nx_tcp_socket_payload_mss` --/
def payloadMss (ip : Ip) (s : Socket) : ULONG :=
  if ip.build.timestamp && s.rcv.timestampEnabled && decide (s.connectMss > 12) then s.connectMss - 12
  else s.connectMss

/-- `NX_TCP_SEGMENT_HEADER_LENGTH` --/
def segmentHeaderLength (ip : Ip) (s : Socket) : ULONG :=
  if ip.build.timestamp && s.rcv.timestampEnabled then 32 else 20

/-- `_nx_tcp_socket_data_unacked` --/
def dataUnacked (s : Socket) : ULONG :=
  let unacked := s.snd.txSequence - s.snd.txOutstandingBytes
  if finPending s then unacked - 1 else unacked

/-- The header `_nx_tcp_socket_retransmit_packet` builds, in front of the octets from `sequence` on. --/
def retransmitSegment (ip : Ip) (s : Socket) (sequence : ULONG) (octets : List UInt8) : Socket :=
  { s with
    wire := s.wire ++ [⟨sequence, s.rcv.rxSequence, tcpAckBit ||| tcpPshBit, windowField ip s, [], octets⟩]
    rcv := { s.rcv with
      rxSequenceAcked := s.rcv.rxSequence
      rxWindowLastSent := windowField ip s <<< ip.rcvScale s
      lastAckSent :=
        if ip.build.timestamp && s.rcv.timestampEnabled then s.rcv.rxSequence else s.rcv.lastAckSent } }

/-- `_nx_tcp_socket_retransmit_packet` of a queued packet: the driver owns it until it completes it. --/
def retransmitPacket (ip : Ip) (s : Socket) (p : TxPacket) : Socket :=
  let s := retransmitSegment ip s p.sequence p.octets
  let (done, s) := s.driverTakes ip
  { s with snd.transmitSent := s.snd.transmitSent.map fun q => if q.addr = p.addr then { q with txDone := done } else q }

/-- `_nx_tcp_socket_data_slice`: a copy of `bytes` octets from `sequence` on, if a packet can be had for it. --/
def dataSlice (ip : Ip) (s : Socket) (p : TxPacket) (sequence bytes : ULONG) : Option (List UInt8) × Socket :=
  let (allocated, s) := s.packetAllocate ip
  let octets := (p.octets.drop (sequence - p.sequence).toNat).take bytes.toNat
  (if allocated ∧ octets.length = bytes.toNat then some octets else none, s)

/-! ### SACK repairs -/

/-- How the search for the packet of a repair ends. --/
inductive RepairSearch where
  /-- No packet holds the range. --/
  | none
  /-- The packet cannot be sent now. --/
  | blocked (p : TxPacket)
  | found (p : TxPacket)
deriving DecidableEq, Repr

/-- The search of `_nx_tcp_socket_sack_retransmit` for the packet that holds `sequence`. --/
def repairSearch (sequence : ULONG) : List TxPacket → RepairSearch
  | [] => .none
  | p :: rest =>
    if INT (p.endSequence - sequence) > 0 then
      if INT (sequence - p.sequence) < 0 ∨ p.payload = 0 ∨ p.txDone = false then .blocked p else .found p
    else repairSearch sequence rest

/-- The queue from the cursor on, when the cursor does not lie behind the range. --/
def repairQueue (s : Socket) (sequence : ULONG) : List TxPacket :=
  match s.sack.cursor.bind fun addr => s.snd.transmitSent.find? (·.addr == addr) with
  | some p =>
    if INT (p.sequence - sequence) > 0 then s.snd.transmitSent
    else s.snd.transmitSent.dropWhile (·.addr != p.addr)
  | none => s.snd.transmitSent

/-- The part of the packet a repair may send: at most the credit and one segment, inside the window. --/
def repairRange (ip : Ip) (s : Socket) (r : Repair) (p : TxPacket) : Option (ULONG × ULONG) :=
  let credit := s.sack.prrCredit
  let mss := payloadMss ip s
  let ack := s.sack.highAck
  let sendEnd := if INT (p.endSequence - r.limit) > 0 then r.limit else p.endSequence
  let (sendBegin, sendEnd) :=
    if r.rescue then
      let sendBegin := if sendEnd - p.sequence > credit then sendEnd - credit else p.sequence
      (if sendEnd - sendBegin > mss then sendEnd - mss else sendBegin, sendEnd)
    else
      let sendEnd := if sendEnd - r.sequence > credit then r.sequence + credit else sendEnd
      (r.sequence, if sendEnd - r.sequence > mss then r.sequence + mss else sendEnd)
  let sendBegin := if INT (ack - sendBegin) > 0 then ack else sendBegin
  let edge := ack + s.snd.txWindowAdvertised
  if INT (sendEnd - edge) > 0 ∧ r.rescue then none
  else
    let sendEnd := if INT (sendEnd - edge) > 0 then edge else sendEnd
    if INT (sendEnd - sendBegin) ≤ 0 then none else some (sendBegin, sendEnd)

/-- Sends the range of the packet, and says whether it did. A whole packet of one segment may stand in for
    a copy that cannot be had. --/
def repairSend (ip : Ip) (s : Socket) (r : Repair) (p : TxPacket) (sendBegin sendEnd : ULONG) : Bool × Socket :=
  if sendBegin ≠ p.sequence ∨ sendEnd ≠ p.endSequence then
    let (copy, s) := dataSlice ip s p sendBegin (sendEnd - sendBegin)
    match copy with
    | some octets =>
      let s := sackRecoverySent s sendBegin (sendEnd - sendBegin) r.rescue
      let s := retransmitSegment ip s sendBegin octets
      (true, (s.driverTakes ip).2)
    | none =>
      if p.payload ≤ payloadMss ip s ∧ p.payload ≤ s.sack.prrCredit ∧
          INT (p.endSequence - (s.sack.highAck + s.snd.txWindowAdvertised)) ≤ 0 then
        (true, retransmitPacket ip (sackRecoverySent s p.sequence (p.endSequence - p.sequence) r.rescue) p)
      else (false, s)
  else (true, retransmitPacket ip (sackRecoverySent s sendBegin (sendEnd - sendBegin) r.rescue) p)

/-- `_nx_tcp_socket_sack_retransmit`. Every round spends credit, so the credit bounds the rounds. --/
def sackRetransmit (ip : Ip) : Nat → Socket → Socket
  | 0, s => s
  | rounds + 1, s =>
    if s.sack.prrCredit = 0 then s
    else
      let (stopped, s) := s.txQueueStopped ip
      match sackRecoveryNext s stopped with
      | none => s
      | some r =>
        match repairSearch r.sequence (repairQueue s r.sequence) with
        | .none => { s with sack.cursor := none }
        | .blocked p => { s with sack.cursor := some p.addr }
        | .found p =>
          let s := { s with sack.cursor := some p.addr }
          match repairRange ip s r p with
          | none => s
          | some (sendBegin, sendEnd) =>
            let (sent, s) := repairSend ip s r p sendBegin sendEnd
            if sent then sackRetransmit ip rounds s else s

/-! ### The zero window probe -/

/-- The octet the probe carries, and the number it stands at. --/
def probeData (s : Socket) (p : TxPacket) : Option UInt8 := p.octets[(dataUnacked s - p.sequence).toNat]?

/-- Sends the probe and backs the timer off. --/
def probeSend (ip : Ip) (s : Socket) : Socket :=
  let s := { s with snd := { s.snd with
    timeoutRetries := s.snd.timeoutRetries + 1
    zeroWindowProbeFailure := s.snd.zeroWindowProbeFailure + 1
    timeout := s.snd.timeoutRate <<< ((s.snd.timeoutRetries + 1) * s.snd.timeoutShift).toNat } }
  packetSendProbe ip s s.snd.zeroWindowProbeSequence s.snd.zeroWindowProbeData

/-- Takes the first unacknowledged octet for the probe. --/
def probeLoad (s : Socket) (data : UInt8) : Socket :=
  { s with snd := { s.snd with
    zeroWindowProbeData := data
    zeroWindowProbeSequence := dataUnacked s
    zeroWindowProbeHasData := true
    zeroWindowProbeFailure := if s.snd.zeroWindowProbeHasData then s.snd.zeroWindowProbeFailure else 0 } }

/-- The probe of `_nx_tcp_socket_retransmit`. --/
def windowProbe (ip : Ip) (s : Socket) : Socket :=
  match s.snd.transmitSent with
  | p :: _ =>
    if s.snd.txOutstandingBytes ≠ 0 then
      match probeData s p with
      | some data => probeSend ip (probeLoad s data)
      | none => s
    else if s.snd.zeroWindowProbeHasData then probeSend ip s
    else s
  | [] => if s.snd.zeroWindowProbeHasData then probeSend ip s else s

/-! ### The old flight -/

/-- What the blocks say of the octets at the cursor. --/
inductive Island where
  /-- The rest of the flight is held by the peer. --/
  | held
  | skip (right : ULONG)
  | send (length : ULONG)
deriving DecidableEq, Repr

/-- The loop of `_nx_tcp_socket_resend_range` over the blocks. --/
def resendIsland (sequence limit : ULONG) : List SackBlock → ULONG → Island
  | [], length => .send length
  | b :: rest, length =>
    if INT (b.right - b.left) ≤ 0 then resendIsland sequence limit rest length
    else if INT (sequence - b.left) ≥ 0 ∧ INT (b.right - sequence) > 0 then
      if INT (b.right - limit) ≥ 0 then .held else .skip b.right
    else
      resendIsland sequence limit rest
        (if INT (b.left - sequence) > 0 ∧ INT (b.left - (sequence + length)) < 0 then b.left - sequence else length)

/-- Where the walk of the old flight stands. --/
structure Resent where
  proceed : Bool
  cursor : ULONG
  available : ULONG
  socket : Socket

/-- The rounds of `_nx_tcp_socket_resend_range` over one packet. Every round moves the cursor over one of its
    octets at least, so the octets bound the rounds. --/
def resendPacket (ip : Ip) (limit : ULONG) (p : TxPacket) : Nat → ULONG → ULONG → Socket → Resent
  | 0, cursor, available, s => ⟨false, cursor, available, s⟩
  | rounds + 1, cursor, available, s =>
    if INT (p.endSequence - cursor) > 0 then
      let sequence := if INT (cursor - p.sequence) > 0 then cursor else p.sequence
      let length := p.payload - (sequence - p.sequence)
      if INT (limit - sequence) ≤ 0 ∨ available = 0 then ⟨false, cursor, available, s⟩
      else
        let length := if length > limit - sequence then limit - sequence else length
        let length := if length > payloadMss ip s then payloadMss ip s else length
        let length := if length > available then available else length
        match resendIsland sequence limit s.sack.blocks length with
        | .held => ⟨false, cursor, available, s⟩
        | .skip right => resendPacket ip limit p rounds right available s
        | .send length =>
          if sequence ≠ p.sequence ∨ length ≠ p.payload then
            let (copy, s) := dataSlice ip s p sequence length
            match copy with
            | some octets =>
              let s := retransmitSegment ip s sequence octets
              let s := (s.driverTakes ip).2
              if INT (p.endSequence - (sequence + length)) > 0 then
                if available - length ≠ 0 then resendPacket ip limit p rounds (sequence + length) (available - length) s
                else ⟨false, sequence + length, available - length, s⟩
              else ⟨true, sequence + length, available - length, s⟩
            | none =>
              if p.payload ≤ payloadMss ip s ∧ p.payload ≤ available then
                ⟨true, p.endSequence, available - p.payload, retransmitPacket ip s p⟩
              else ⟨false, cursor, available, s⟩
          else ⟨true, p.endSequence, available - p.payload, retransmitPacket ip s p⟩
    else ⟨true, cursor, available, s⟩

/-- `_nx_tcp_socket_resend_range`: the cursor it leaves, and the socket. --/
def resendRange (ip : Ip) (limit : ULONG) : List TxPacket → ULONG → ULONG → Socket → ULONG × Socket
  | [], cursor, _, s => (cursor, s)
  | p :: rest, cursor, available, s =>
    if p.txDone then
      let r := resendPacket ip limit p (p.octets.length + 1) cursor available s
      if r.proceed then resendRange ip limit rest r.cursor r.available r.socket else (r.cursor, r.socket)
    else (cursor, s)

/-- `_nx_tcp_socket_retransmit_after_timeout` --/
def retransmitAfterTimeout (ip : Ip) (s : Socket) : Socket :=
  if INT (s.snd.txRtoEnd - s.snd.txRtoNext) ≤ 0 then s
  else if s.snd.transmitSent = [] then { s with snd.txRtoNext := s.snd.txRtoEnd }
  else
    let unacked := dataUnacked s
    let s := if INT (unacked - s.snd.txRtoNext) > 0 then { s with snd.txRtoNext := unacked } else s
    if INT (s.snd.txRtoEnd - s.snd.txRtoNext) ≤ 0 then s
    else
      let available :=
        if s.snd.txWindowCongestion > s.snd.txWindowAdvertised then s.snd.txWindowAdvertised
        else s.snd.txWindowCongestion
      if s.snd.txRtoEnd - s.snd.txRtoNext > s.snd.txOutstandingBytes then { s with snd.txRtoNext := s.snd.txRtoEnd }
      else
        let inFlight := s.snd.txOutstandingBytes - (s.snd.txRtoEnd - s.snd.txRtoNext)
        if available ≤ inFlight then s
        else
          let (cursor, s) := resendRange ip s.snd.txRtoEnd s.snd.transmitSent s.snd.txRtoNext (available - inFlight) s
          { s with snd.txRtoNext := cursor }

/-- A block that shows data above `first` to be held by the peer. --/
def sackAbove (s : Socket) (first : ULONG) : Bool :=
  (s.sack.blocks.take sackMaxBlocks).any fun b =>
    decide (INT (b.left - first) > 0) && decide (INT (b.right - b.left) > 0) &&
      decide (INT (s.snd.txSequence - b.right) ≥ 0) &&
      decide (INT (first + s.snd.txOutstandingBytes - b.left) > 0)

/-- The duplicates say that a copy of the segment at `ack` was lost, by RFC 6582 section 4.1. --/
def ackHeuristic (s : Socket) (ack : ULONG) : Bool :=
  decide (s.snd.txWindowCongestion > s.connectMss) &&
    decide (INT (ack - (s.snd.previousHighestAck + (s.connectMss <<< 2))) ≤ 0)

/-- A timeout is walking the old flight. --/
def walking (s : Socket) : Bool :=
  !(s.snd.fastRecovery || decide (INT (s.snd.txRtoEnd - dataUnacked s) ≤ 0) ||
    decide (INT ((s.snd.txSequenceRecover + 1) - s.snd.txRtoEnd) < 0))

/-- `_nx_tcp_socket_retransmit_lost_copy` --/
def retransmitLostCopy (ip : Ip) (s : Socket) : Bool × Socket :=
  let first := dataUnacked s
  if walking s && (ackHeuristic s first || s.sackPermitted && sackAbove s first) then
    if INT (s.snd.txRtoNext - first) ≤ 0 then (true, s)
    else
      let limit :=
        if s.snd.txRtoNext - first > payloadMss ip s then first + payloadMss ip s else s.snd.txRtoNext
      (true, (resendRange ip limit s.snd.transmitSent first (limit - first) s).2)
  else (false, s)

/-! ### A fast retransmit or a timeout -/

/-- Where the walk of the old flight is to run, when a timeout starts it. --/
def rtoWalk (s : Socket) (needFast : Bool) : Socket :=
  match s.snd.transmitSent.getLast? with
  | some tail =>
    if needFast = false ∧ s.snd.fastRecovery = false ∧ s.snd.txWindowAdvertised ≠ 0 then
      { s with snd := { s.snd with txRtoNext := dataUnacked s, txRtoEnd := tail.endSequence } }
    else s
  | none => s

/-- A timeout drops what the peer has reported. --/
def forgetBlocks (s : Socket) (needFast : Bool) : Socket :=
  if needFast = false ∧ s.snd.fastRecovery = false then
    { s with sack := { s.sack.reset with blocks := [] } }
  else s

/-- The timer, the threshold and the window of a fast retransmit or a timeout. --/
def enterLoss (s : Socket) (needFast : Bool) : Socket :=
  if needFast = true ∨ s.snd.fastRecovery = false then
    let retries := if needFast then s.snd.timeoutRetries else s.snd.timeoutRetries + 1
    let window := s.snd.txOutstandingBytes >>> 1
    let window := if window < s.connectMss <<< 1 then s.connectMss <<< 1 else window
    let s := { s with snd := { s.snd with
      timeoutRetries := retries
      timeout := s.snd.timeoutRate <<< (retries * s.snd.timeoutShift).toNat
      txSlowStartThreshold := window
      txWindowCongestion := s.connectMss } }
    if needFast then
      { s with
        snd := { s.snd with
          txWindowCongestion := s.connectMss + (window + (s.connectMss <<< 1))
          fastRecovery := true
          txRtoNext := 0
          txRtoEnd := 0
          txSequenceRecover := s.snd.txSequence - 1 }
        sack := { s.sack with txHighRxt := s.snd.txSequence - s.snd.txOutstandingBytes } }
    else s
  else s

/-- The blocks that still describe unacknowledged data. --/
def liveBlocks (s : Socket) : List SackBlock :=
  s.sack.blocks.filter fun b =>
    !(decide (INT (b.left - dataUnacked s) ≤ 0) || decide (INT (s.snd.txSequence - b.right) < 0))

/-- The highest octet behind the live blocks. --/
def liveHigh (unacked : ULONG) (blocks : List SackBlock) : ULONG :=
  blocks.foldl (fun high b => if INT (b.right - high) > 0 then b.right else high) unacked

/-- The octets of the blocks below an edge. --/
def heldBelow (edge : ULONG) (blocks : List SackBlock) : ULONG :=
  blocks.foldl (fun held b =>
    let right := if INT (b.right - edge) > 0 then edge else b.right
    if INT (right - b.left) > 0 then held + (right - b.left) else held) 0

/-- What may be sent of the window, given the blocks: the room under the congestion window. --/
def blockRoom (s : Socket) (needFast : Bool) (blocks : List SackBlock) : ULONG :=
  let available := s.snd.txWindowCongestion
  if blocks ≠ [] ∧ s.snd.fastRecovery = true then
    let unacked := dataUnacked s
    let sackedBytes := blocks.foldl (fun sum b => sum + (b.right - b.left)) 0
    let lostEdge := liveHigh unacked blocks - BitVec.ofNat 32 (fastRetransmitThreshold - 1) * s.connectMss
    let lostBytes :=
      if INT (lostEdge - unacked) > 0 then
        if lostEdge - unacked > heldBelow lostEdge blocks then lostEdge - unacked - heldBelow lostEdge blocks else 0
      else 0
    let inFlight :=
      if s.snd.txOutstandingBytes > sackedBytes + lostBytes then
        s.snd.txOutstandingBytes - sackedBytes - lostBytes
      else 0
    let retransmitted := s.sack.txHighRxt - unacked
    let inFlight :=
      if retransmitted ≠ 0 ∧ retransmitted ≤ s.snd.txOutstandingBytes then
        inFlight + (retransmitted - heldBelow s.sack.txHighRxt blocks)
      else inFlight
    let available := if available > inFlight then available - inFlight else 0
    if needFast = true ∧ available < s.connectMss then s.connectMss else available
  else available

/-- The walk of `_nx_tcp_socket_retransmit` over the transmit queue. --/
def retransmitWalk (ip : Ip) (needFast : Bool) (blocks : List SackBlock) (sackHigh : ULONG) :
    List TxPacket → ULONG → Socket → Socket
  | [], _, s => s
  | p :: rest, available, s =>
    if p.txDone = false then s
    else if s.snd.fastRecovery = true ∧ needFast = false ∧ INT (p.endSequence - s.sack.txHighRxt) ≤ 0 then
      retransmitWalk ip needFast blocks sackHigh rest available s
    else if blocks ≠ [] ∧ INT (p.sequence - sackHigh) ≥ 0 then s
    else if INT (p.endSequence - p.sequence) > 0 ∧ blocks.any (fun b =>
        decide (INT (p.sequence - b.left) ≥ 0) && decide (INT (b.right - p.endSequence) ≥ 0)) then
      retransmitWalk ip needFast blocks sackHigh rest available s
    else
      let wireMss := payloadMss ip s
      let sendBegin := if INT (p.sequence - dataUnacked s) > 0 then p.sequence else dataUnacked s
      if p.payload > wireMss ∨ sendBegin ≠ p.sequence then
        let sendBegin :=
          if s.snd.fastRecovery = false ∧ INT (s.snd.txRtoNext - sendBegin) > 0 then s.snd.txRtoNext else sendBegin
        let sendBytes := if available < wireMss then available else wireMss
        if INT (p.endSequence - sendBegin) ≤ 0 ∨ sendBytes = 0 then s
        else
          let sendBytes := if sendBytes > p.endSequence - sendBegin then p.endSequence - sendBegin else sendBytes
          let sendEnd := sendBegin + sendBytes
          let (copy, s) := dataSlice ip s p sendBegin sendBytes
          let whole := s.snd.fastRecovery = false ∧ p.payload ≤ wireMss ∧ p.payload ≤ available ∧
            sendEnd = p.endSequence
          if copy = none ∧ ¬whole then s
          else
            let s := { s with
              snd.txRtoNext := if s.snd.fastRecovery then s.snd.txRtoNext else sendEnd
              sack.txHighRxt := sendEnd }
            let (available, s) :=
              match copy with
              | some octets => (available - sendBytes, ((retransmitSegment ip s sendBegin octets).driverTakes ip).2)
              | none => (available - p.payload, retransmitPacket ip s p)
            if s.snd.fastRecovery = true ∨ INT (p.endSequence - sendEnd) > 0 then s
            else retransmitWalk ip needFast blocks sackHigh rest available s
      else if p.headerLength + p.payload > available + segmentHeaderLength ip s then s
      else
        let available := available - (p.headerLength + p.payload - segmentHeaderLength ip s)
        let s :=
          if s.snd.fastRecovery = false ∧ INT (s.snd.txRtoEnd - s.snd.txRtoNext) > 0 then
            { s with snd.txRtoNext := p.endSequence }
          else s
        let s := retransmitPacket ip s p
        let s := if INT (p.endSequence - s.sack.txHighRxt) > 0 then { s with sack.txHighRxt := p.endSequence } else s
        if s.snd.fastRecovery = true ∧ blocks = [] then s
        else retransmitWalk ip needFast blocks sackHigh rest available s

/-- The part of `_nx_tcp_socket_retransmit` without SACK. --/
def retransmitQueue (ip : Ip) (s : Socket) (needFast : Bool) : Socket :=
  let s := enterLoss (forgetBlocks s needFast) needFast
  let blocks := liveBlocks s
  if needFast = false ∧ s.snd.fastRecovery = true ∧ s.sackPermitted = true ∧ blocks = [] ∧
      (s.snd.txOutstandingBytes > s.connectMss ∨
        INT (dataUnacked s - s.snd.previousHighestAck) ≤ INT s.connectMss) then s
  else
    retransmitWalk ip needFast blocks (liveHigh (dataUnacked s) blocks) s.snd.transmitSent
      (blockRoom s needFast blocks) s

/-- The part of `_nx_tcp_socket_retransmit` for a SACK peer in recovery. --/
def retransmitSack (ip : Ip) (s : Socket) (needFast : Bool) : Socket :=
  let s :=
    if needFast = true ∧ s.sackRecoveryActive = false then
      let s := sackRecoveryBegin ip s
      { s with snd.timeout := s.snd.timeoutRate }
    else s
  if s.sackRecoveryActive then sackRetransmit ip s.sack.prrCredit.toNat s else s

/-- `_nx_tcp_socket_retransmit` --/
def socketRetransmit (ip : Ip) (s : Socket) (needFast : Bool) : Socket :=
  let s := rtoWalk s needFast
  if s.snd.txWindowAdvertised = 0 then windowProbe ip s
  else
    let s := { s with snd.zeroWindowProbeHasData := false }
    if s.sackPermitted = true ∧ (needFast = true ∨ s.snd.fastRecovery = true) then retransmitSack ip s needFast
    else retransmitQueue ip s needFast

end Netxduo
