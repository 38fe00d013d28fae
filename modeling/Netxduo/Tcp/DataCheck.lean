import Netxduo.Tcp.SendAck
import Netxduo.Tcp.Trim

/-! The receive path: `_nx_tcp_socket_receive`, `_nx_tcp_socket_state_data_check` and
    `_nx_tcp_socket_state_established`. The receive queue is the list of its packets in link order; the
    head and tail pointers and the packet count are kept beside it, as the source keeps them. -/

namespace Netxduo

/-! ### Reading -/

inductive ReceiveStatus where
  | success | notConnected | noPacket | suspended
deriving DecidableEq, Repr

/-- The address of the packet linked behind the head. --/
def nextAddr : List Packet → Option Nat
  | [] => none
  | p :: _ => some p.addr

/-- Takes the head packet off the queue, as `_nx_tcp_socket_receive` does for a packet that is ready. --/
def Receive.takeHead (r : Receive) (p : Packet) (rest : List Packet) : Receive :=
  let r :=
    if r.receiveQueueHead = r.receiveQueueTail then
      { r with receiveQueue := rest, receiveQueueHead := none, receiveQueueTail := none }
    else { r with receiveQueue := rest, receiveQueueHead := nextAddr rest }
  let r := { r with receiveQueueCount := r.receiveQueueCount - 1 }
  if r.receiveQueueCount = 0 then { r with rxWindowCurrent := r.rxWindowDefault }
  else { r with rxWindowCurrent := r.rxWindowCurrent + p.dataLength }

/-- `_nx_tcp_socket_receive` on a bound socket. `wait` is a wait option other than `NX_NO_WAIT`, asked for
    by the thread named. --/
def socketReceive (ip : Ip) (s : Socket) (wait : Option Nat) : ReceiveStatus × Socket :=
  if s.rcv.receiveQueueHead = none ∧ (s.state.code < State.synSent.code ∨ s.state = .closeWait ∨
      s.state.code ≥ State.closing.code) then (.notConnected, s)
  else
    match s.rcv.receiveQueueHead, s.rcv.receiveQueue with
    | some _, p :: rest =>
      if p.ready then
        let s := { s with rcv := s.rcv.takeHead p rest, handed := s.handed ++ [p] }
        if socketRxWindowOpen ip s > s.rcv.rxWindowLastSent ∧
            socketRxWindowOpen ip s - s.rcv.rxWindowLastSent ≥ socketWindowUpdateStep ip s ∧
            (s.state = .established ∨ s.state = .finWait1 ∨ s.state = .finWait2) then
          (.success, packetSendAck ip s s.snd.txSequence)
        else (.success, s)
      else
        match wait with
        | some thread =>
          (.suspended, { s with rcv.receiveSuspensionList := s.rcv.receiveSuspensionList ++ [thread] })
        | none => (.noPacket, s)
    | _, _ =>
      match wait with
      | some thread =>
        (.suspended, { s with rcv.receiveSuspensionList := s.rcv.receiveSuspensionList ++ [thread] })
      | none => (.noPacket, s)

/-- The receive callback of the application: it reads that many times without waiting. --/
def receiveCallback (ip : Ip) (reads : Nat) (s : Socket) : Socket :=
  (fun s => (socketReceive ip s none).2)^[reads] s

/-! ### The window trims and the FIN -/

/-- What `_nx_tcp_socket_state_data_check` knows of the arriving segment. --/
structure Arrival where
  packet : Packet
  dataLength : ULONG
  beginSequence : ULONG
  endSequence : ULONG

/-- The urgent pointer after `trimmed` bytes came off the front. --/
def urgentTrim (h : TcpHeader) (trimmed : ULONG) : TcpHeader :=
  if h.has tcpUrgBit then
    let urgent := h.word4 &&& lower16Mask
    { h with word4 := (h.word4 &&& ~~~lower16Mask) ||| if urgent > trimmed then urgent - trimmed else 0 }
  else h

/-- Step 1 of the window trims: data below `rxSequence` comes off. --/
def trimLeft (s : Socket) (a : Arrival) : Socket × Arrival :=
  if INT (s.rcv.rxSequence - a.beginSequence) > 0 then
    let trimmed := s.rcv.rxSequence - a.beginSequence
    let s := dsackRecord s a.beginSequence s.rcv.rxSequence
    let p := socketStateDataTrimFront a.packet trimmed
    let h := urgentTrim p.header trimmed
    (s, { a with
      packet := { p with header := { h with sequenceNumber := h.sequenceNumber + trimmed } }
      dataLength := a.dataLength - trimmed
      beginSequence := a.beginSequence + trimmed })
  else (s, a)

/-- Step 2 of the window trims: data behind the right edge of the window comes off. --/
def trimRight (s : Socket) (a : Arrival) : Arrival :=
  if INT ((a.endSequence - s.rcv.rxSequence) - s.rcv.rxWindowCurrent) > 0 then
    let trimmed := a.endSequence - (s.rcv.rxSequence + s.rcv.rxWindowCurrent)
    { a with
      packet := socketStateDataTrim a.packet trimmed
      dataLength := a.dataLength - trimmed
      endSequence := a.endSequence - trimmed }
  else a

/-- Both trims, for a segment with data. --/
def trimToWindow (s : Socket) (p : Packet) : Socket × Arrival :=
  let a : Arrival := ⟨p, p.dataLength, p.beginSequence, p.endSequence⟩
  if a.dataLength ≠ 0 then
    let (s, a) := trimLeft s a
    (s, trimRight s a)
  else (s, a)

/-- Remembers where the FIN of a segment stands. --/
def recordFin (s : Socket) (a : Arrival) : Socket :=
  if a.packet.header.has tcpFinBit then
    { s with rcv := { s.rcv with
      finSequence := a.packet.header.sequenceNumber + a.dataLength
      finReceived := true } }
  else s

/-- The answer to a segment without data, or with none left after the trims. --/
def answerEmpty (ip : Ip) (s : Socket) (a : Arrival) (originalDataLength : ULONG) : Socket :=
  if s.state = .established ∧ originalDataLength > 0 then packetSendAck ip s s.snd.txSequence
  else if s.state = .established ∧ s.rcv.receiveQueueCount = 0 ∧
      s.rcv.rxSequence ≠ a.packet.header.sequenceNumber ∧
      s.rcv.rxSequence - 1 ≠ a.packet.header.sequenceNumber then
    packetSendAck ip s s.snd.txSequence
  else s

/-! ### Finding the place of a packet -/

/-- How the search through the queue ends. --/
structure Placement where
  queue : List Packet
  /-- The packet's data is already held: it is not queued. --/
  duplicate : Bool
  /-- The packets released on the way. --/
  released : Nat
  /-- `previous_ptr` is null at the end of the search. --/
  first : Bool
  /-- `search_ptr` is null at the end of the search. --/
  last : Bool

/-- The search loop: `p` holds `[packetBegin, packetEnd)`, `first` says that no packet has been passed.
    The numbers are the source's. --/
def placePacket (p : Packet) (packetBegin packetEnd : ULONG) (first : Bool) : List Packet → Placement
  | [] => ⟨[p], false, 0, first, true⟩
  | search :: rest =>
    -- (1) the packet lies behind
    if INT (packetBegin - search.endSequence) ≥ 0 then
      let r := placePacket p packetBegin packetEnd false rest
      { r with queue := search :: r.queue }
    -- (2) the packet lies in front
    else if INT (search.beginSequence - packetEnd) ≥ 0 then ⟨p :: search :: rest, false, 0, first, false⟩
    -- (3) the packet is covered
    else if INT (packetBegin - search.beginSequence) ≥ 0 ∧ INT (search.endSequence - packetEnd) ≥ 0 then
      ⟨search :: rest, true, 0, first, false⟩
    -- (4) the packet covers
    else if INT (search.beginSequence - packetBegin) ≥ 0 ∧ INT (packetEnd - search.endSequence) ≥ 0 then
      let r := placePacket p packetBegin packetEnd first rest
      { r with released := r.released + 1 }
    -- (5) the packet runs into the next one
    else if INT (search.beginSequence - packetBegin) ≥ 0 then
      ⟨socketStateDataTrim p (packetEnd - search.beginSequence) :: search :: rest, false, 0, first, false⟩
    -- (6) the next one runs into the packet
    else
      let r := placePacket p packetBegin packetEnd false rest
      { r with queue := socketStateDataTrim search (search.endSequence - packetBegin) :: r.queue }

/-! ### Counting what is contiguous -/

structure Walk where
  queue : List Packet
  expected : ULONG
  acked : ULONG

/-- The walk over the queue that advances `rx_sequence` and marks packets as ready. `drop` says that the
    tail is about to be released. --/
def readyWalk (r : Receive) (drop : Bool) (expected acked : ULONG) : List Packet → Walk
  | [] => ⟨[], expected, acked⟩
  | search :: rest =>
    if drop ∧ r.receiveQueueTail = some search.addr then ⟨search :: rest, expected, acked⟩
    else if INT (expected - search.beginSequence) ≥ 0 then
      let inside := INT (search.endSequence - expected) > 0
      let search' := if inside then { search with ready := true } else search
      let expected' := if inside then search.endSequence else expected
      if drop ∧ acked + 1 ≥ r.receiveQueueMaximum then ⟨search' :: rest, expected', acked + 1⟩
      else
        let w := readyWalk r drop expected' (acked + 1) rest
        { w with queue := search' :: w.queue }
    else ⟨search :: rest, expected, acked⟩

/-! ### Dropping the tail -/

/-- The packets in front of the one the tail pointer designates. --/
def Receive.beforeTail (r : Receive) : List Packet :=
  r.receiveQueue.takeWhile fun p => r.receiveQueueTail ≠ some p.addr

/-- Releases the tail of the queue. --/
def Receive.dropTail (r : Receive) : Receive :=
  if r.receiveQueueCount > 1 then
    { r with
      receiveQueue := r.beforeTail
      receiveQueueTail := r.beforeTail.getLast?.map (·.addr)
      receiveQueueCount := r.receiveQueueCount - 1 }
  else
    { r with
      receiveQueue := []
      receiveQueueHead := none
      receiveQueueTail := none
      receiveQueueCount := r.receiveQueueCount - 1 }

/-- Closes the window at the end of the data still queued. --/
def Receive.closeWindow (r : Receive) : Receive :=
  let window :=
    match r.tailPacket with
    | some tail => tail.endSequence - r.rxSequence
    | none => 0
  { r with rxWindowCurrent := window, rxWindowLastSent := window }

/-! ### Queueing -/

/-- What the queueing leaves: the socket, whether the packet was taken, the packets that can be
    acknowledged, and whether an acknowledgment has to report a gap. --/
structure Queued where
  socket : Socket
  taken : Bool
  acked : ULONG
  outOfSequence : Bool

/-- A packet the receive queue has no room for: the window closes and the sender is told. --/
def refusePacket (ip : Ip) (s : Socket) : Socket :=
  packetSendAck ip { s with rcv := { s.rcv with rxWindowCurrent := 0, rxWindowLastSent := 0 } }
    s.snd.txSequence

/-- The packet continues the queue. --/
def queueInOrder (ip : Ip) (s : Socket) (a : Arrival) (drop : Bool) : Queued :=
  if drop then
    let s := refusePacket ip s
    ⟨s, true, s.rcv.receiveQueueCount, false⟩
  else
    let p := { a.packet with ready := true }
    let r := s.rcv
    let r :=
      match r.receiveQueueTail with
      | some _ => { r with receiveQueue := r.receiveQueue ++ [p], receiveQueueTail := some p.addr }
      | none =>
        { r with
          receiveQueue := [p]
          receiveQueueHead := some p.addr
          receiveQueueTail := some p.addr
          delayedAckTimeout := ip.tcpAckTimerRate }
    let r := { r with receiveQueueCount := r.receiveQueueCount + 1, rxSequence := a.endSequence }
    ⟨{ s with rcv := r }, true, r.receiveQueueCount, false⟩

/-- The packet is ahead of the stream and the queue is empty. --/
def queueFirst (ip : Ip) (s : Socket) (a : Arrival) (drop : Bool) : Queued :=
  if drop then ⟨refusePacket ip s, true, 0, false⟩
  else
    ⟨{ s with rcv := { s.rcv with
        sackRecentSequence := a.beginSequence
        receiveQueue := [a.packet]
        receiveQueueHead := some a.packet.addr
        receiveQueueTail := some a.packet.addr
        receiveQueueCount := 1
        delayedAckTimeout := ip.tcpAckTimerRate } },
      true, 0, true⟩

/-- The first block of the next SACK option is to hold a packet that lies ahead. --/
def rememberRecent (s : Socket) (a : Arrival) : Socket :=
  if INT (a.beginSequence - s.rcv.rxSequence) > 0 then { s with rcv.sackRecentSequence := a.beginSequence } else s

/-- The packet has to be placed among the queued ones. --/
def queueOutOfOrder (ip : Ip) (s : Socket) (a : Arrival) (drop : Bool) : Queued :=
  let ahead := decide (INT (a.beginSequence - s.rcv.rxSequence) > 0)
  let s := rememberRecent s a
  let placed := placePacket a.packet a.beginSequence a.endSequence true s.rcv.receiveQueue
  let r := { s.rcv with
    receiveQueue := placed.queue
    receiveQueueCount := s.rcv.receiveQueueCount - BitVec.ofNat 32 placed.released }
  if placed.duplicate then
    let s := dsackRecord { s with rcv := r } a.beginSequence a.endSequence
    ⟨packetSendAck ip s s.snd.txSequence, false, 0, ahead⟩
  else
    let r := { r with
      receiveQueueHead := if placed.first then some a.packet.addr else r.receiveQueueHead
      receiveQueueTail := if placed.last then some a.packet.addr else r.receiveQueueTail
      receiveQueueCount := r.receiveQueueCount + 1 }
    let w := readyWalk r drop r.rxSequence 0 r.receiveQueue
    let r := { r with receiveQueue := w.queue, rxSequence := w.expected }
    let r := if drop then r.dropTail.closeWindow else r
    ⟨{ s with rcv := r }, true, w.acked, ahead⟩

/-- Whether the queue has no room for the packet; asked in builds with `NX_ENABLE_LOW_WATERMARK`. --/
def dropPacket (ip : Ip) (s : Socket) : Bool × Socket :=
  if ip.build.lowWatermark then
    let (low, s) := s.belowLowWatermark ip
    (decide (s.rcv.receiveQueueCount ≥ s.rcv.receiveQueueMaximum) || low, s)
  else (false, s)

/-- Where the queued data ends; `search_end_sequence` before the packet is queued. --/
def Receive.searchEnd (r : Receive) : ULONG :=
  match r.tailPacket with
  | some tail => tail.endSequence
  | none => r.rxSequence

/-- The three ways to queue the data of a segment. --/
def queuePacket (ip : Ip) (s : Socket) (a : Arrival) (drop : Bool) : Queued :=
  let a := { a with packet := { a.packet with ready := false } }
  if a.packet.header.sequenceNumber = s.rcv.rxSequence ∧ s.rcv.searchEnd = s.rcv.rxSequence then
    queueInOrder ip s a drop
  else if s.rcv.receiveQueueHead = none then queueFirst ip s a drop
  else queueOutOfOrder ip s a drop

/-! ### After the queueing -/

/-- Takes the data behind `original` out of the window, unless a drop has set the window already. --/
def debitWindow (r : Receive) (original : ULONG) (drop : Bool) : Receive :=
  if original ≠ r.rxSequence ∧ drop = false then
    let advance := r.rxSequence - original
    { r with
      rxWindowCurrent := r.rxWindowCurrent - advance
      rxWindowLastSent := if r.rxWindowLastSent > advance then r.rxWindowLastSent - advance else 0 }
  else r

/-- `NX_TCP_MAX_OUT_OF_ORDER_PACKETS`: one packet too many behind a gap costs the tail. --/
def limitOutOfOrder (ip : Ip) (r : Receive) (acked : ULONG) : Receive :=
  match ip.build.maxOutOfOrderPackets with
  | some limit => if r.receiveQueueCount - acked > limit then r.dropTail else r
  | none => r

/-- Hands the head packets to the suspended threads. Gives back the header looked at last. --/
def resumeReceivers (acked : ULONG) (header : TcpHeader) (s : Socket) : List Nat → TcpHeader × Socket
  | [] => (header, s)
  | _ :: threads =>
    if acked = 0 then (header, s)
    else
      match s.rcv.receiveQueue with
      | [] => (header, s)
      | p :: rest =>
        resumeReceivers (acked - 1) p.header
          { s with
            handed := s.handed ++ [p]
            rcv := { s.rcv with
              receiveQueue := rest
              receiveQueueHead := nextAddr rest
              receiveQueueCount := s.rcv.receiveQueueCount - 1
              rxWindowCurrent := s.rcv.rxWindowCurrent + p.dataLength
              receiveSuspensionList := threads } } threads

/-- An empty queue has no head and no tail. --/
def clearEmptyQueue (r : Receive) : Receive :=
  if r.receiveQueueCount = 0 then { r with receiveQueueHead := none, receiveQueueTail := none } else r

/-- What the acknowledgment threshold ramps up to. --/
def ackLimit (ip : Ip) (s : Socket) : ULONG :=
  let limit := socketWindowUpdateStep ip s
  match ip.build.ackThresholdMax with
  | some portMax =>
    let ackMax := if ip.interfaceAckThresholdMax ≠ 0 then ip.interfaceAckThresholdMax else portMax
    if limit > ackMax then ackMax else limit
  | none => limit

/-- The acknowledgment threshold: two segments at first. --/
def ackThreshold (ip : Ip) (s : Socket) : ULONG :=
  let threshold := if s.rcv.ackNPacketCounter = 0 then s.connectMss <<< 1 else s.rcv.ackNPacketCounter
  if threshold > ackLimit ip s then ackLimit ip s else threshold

/-- Whether an acknowledgment is due by the threshold, which doubles each time it is. --/
def ackByThreshold (ip : Ip) (s : Socket) : Bool × Receive :=
  let delivered := s.rcv.rxSequence - s.rcv.rxSequenceAcked
  if delivered ≥ ackThreshold ip s then
    let doubled := ackThreshold ip s <<< 1
    let doubled := if doubled > ackLimit ip s then ackLimit ip s else doubled
    (true, { s.rcv with ackNPacketCounter := if doubled > delivered then delivered else doubled })
  else (false, { s.rcv with ackNPacketCounter := ackThreshold ip s })

/-- The acknowledgment counter of builds with `NX_TCP_ACK_EVERY_N_PACKETS`, the threshold of the others. --/
def ackProgress (ip : Ip) (s : Socket) : Bool × Receive :=
  match ip.build.ackEveryNPackets with
  | some n =>
    if s.rcv.ackNPacketCounter ≥ n then (true, { s.rcv with ackNPacketCounter := 1 })
    else (false, { s.rcv with ackNPacketCounter := s.rcv.ackNPacketCounter + 1 })
  | none => ackByThreshold ip s

/-- The window has opened by half of what is offered since it was last sent. --/
def windowReopened (ip : Ip) (s : Socket) : Bool :=
  let cap := socketRxWindowCap ip s
  socketRxWindowOpen ip s - s.rcv.rxWindowLastSent ≥
    if cap ≠ 0 ∧ cap < s.rcv.rxWindowDefault then cap / 2 else s.rcv.rxWindowDefault / 2

/-- The end of `_nx_tcp_socket_state_data_check`: the receive callback, which reads `reads` times, and
    the acknowledgment. --/
def acknowledgeData (ip : Ip) (reads : Nat) (s : Socket) (original : ULONG) (header : TcpHeader)
    (outOfSequence : Bool) : Socket :=
  let needAck := outOfSequence || windowReopened ip s
  let (due, s) :=
    if original ≠ s.rcv.rxSequence then
      let s := receiveCallback ip reads s
      if s.state = .established ∧ header.has tcpFinBit = false then
        ((ackProgress ip s).1, { s with rcv := (ackProgress ip s).2 })
      else (false, s)
    else (false, s)
  if (needAck || due) ∧ (outOfSequence = true ∨ s.rcv.rxSequence ≠ s.rcv.rxSequenceAcked ∨
      socketRxWindowAdvertised ip s ≠ s.rcv.rxWindowLastSent) then
    packetSendAck ip s s.snd.txSequence
  else s

/-! ### The whole check -/

/-- A segment whose data has been queued, or dropped for want of room. --/
def settleQueued (ip : Ip) (reads : Nat) (q : Queued) (original : ULONG) (header : TcpHeader) (drop : Bool) :
    Socket :=
  let s := q.socket
  let s := { s with rcv := limitOutOfOrder ip (debitWindow s.rcv original drop) q.acked }
  let (header, s) := resumeReceivers q.acked header s s.rcv.receiveSuspensionList
  let s := { s with rcv := clearEmptyQueue s.rcv }
  acknowledgeData ip reads s original header q.outOfSequence

/-- `_nx_tcp_socket_state_data_check`. `reads` is what the application's receive callback does. --/
def socketStateDataCheck (ip : Ip) (reads : Nat) (s : Socket) (p : Packet) : Socket :=
  let (s, a) := trimToWindow s p
  let s := recordFin s a
  if a.dataLength = 0 then answerEmpty ip s a p.dataLength
  else
    let original := s.rcv.rxSequence
    let (drop, s) := dropPacket ip s
    let q := queuePacket ip s a drop
    if q.taken then settleQueued ip reads q original a.packet.header drop else q.socket

/-- `_nx_tcp_socket_state_established`. What the disconnect callback of the application does are steps of
    their own. --/
def socketStateEstablished (ip : Ip) (s : Socket) : Socket :=
  if s.rcv.finReceived ∧ s.rcv.finSequence = s.rcv.rxSequence then
    let s := { s with
      state := .closeWait
      rcv := { s.rcv with rxSequence := s.rcv.rxSequence + 1, receiveSuspensionList := [] } }
    packetSendAck ip s s.snd.txSequence
  else s

end Netxduo
