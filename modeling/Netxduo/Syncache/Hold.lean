import Netxduo.Syncache.Cache
import Netxduo.Tcp.System

/-! The socket of a finished handshake that waits for `accept`: `_nx_tcp_syncache_hold` keeps on its receive queue what
    the peer sends meanwhile, `_nx_tcp_syncache_accept` has it processed, and the wait may end in other ways. -/

namespace Netxduo.Syncache

/-! ### Handing over -/

/-- `NX_TCP_SYNCACHE_HOLD_SEGMENTS` --/
def holdSegments : ULONG := 10

/-- A socket that has taken over a handshake, and what became of the segments that arrived for it before `accept`. --/
structure Holding where
  socket : Socket
  /-- `nx_tcp_socket_bound_next` is not null. --/
  bound : Bool
  /-- `nx_tcp_socket_connect_port` is not zero. --/
  connectPort : Bool
  /-- `nx_tcp_socket_rx_window_maximum` --/
  rxWindowMaximum : ULONG
  /-- `nx_interface_tcp_initial_window` --/
  interfaceInitialWindow : ULONG
  /-- The window of the SYN-ACK. --/
  offered : ULONG
  /-- The application has accepted the connection: what follows is the socket's. --/
  accepted : Bool
  /-- What arrived, what was released of it, and what was given to the socket. --/
  arrived : List Packet
  released : List Packet
  processed : List Packet

/-- `_nx_tcp_socket_rx_window_syn` --/
def socketRxWindowSyn (ip : Ip) (s : Socket) : ULONG :=
  let cap := socketRxWindowCap ip s
  if cap ≠ 0 ∧ s.rcv.rxWindowCurrent > cap then cap else s.rcv.rxWindowCurrent

/-- `_nx_tcp_syncache_setup_socket` --/
def setupSocket (ip : Ip) (e : Terms) (s : Socket) : Socket :=
  let s : Socket := { s with
    state := .synReceived
    clientType := false
    connectMss := e.connectMss
    sackPermitted := e.sack
    sack := { s.sack with blocks := [] }
    rcv := { s.rcv with
      rxSequence := e.irs + 1
      rcvWinScaleValue := e.rcvWinScale.toNat
      dsackLeft := 0
      dsackRight := 0
      timestampEnabled := e.timestamp
      tsRecent := e.tsRecent
      finReceived := false
      receiveQueue := []
      receiveQueueHead := none
      receiveQueueTail := none
      receiveQueueCount := 0
      rxWindowCurrent := s.rcv.rxWindowDefault }
    snd := { s.snd with
      txSequence := e.iss + 1
      txSequenceRecover := e.iss
      previousHighestAck := e.iss
      sndWinScaleValue := if e.sndWinScale = noWindowScale then 0xFF else e.sndWinScale.toNat
      finAcked := false
      txWindowCongestion := 0
      txOutstandingBytes := 0
      transmitSent := []
      timeout := 0
      timeoutRetries := 0 } }
  { s with rcv := { s.rcv with rxWindowLastSent := socketRxWindowSyn ip s } }

/-- `_nx_tcp_syncache_hand_over` to a socket `accept` has not been called for. --/
def handOver (ip : Ip) (path : Path) (e : Entry) (s : Socket) (rxWindowMaximum interfaceInitialWindow : ULONG) :
    Holding where
  socket :=
    let s := setupSocket ip e.terms s
    { s with state := .listen, snd := { s.snd with txWindowAdvertised := e.terms.peerWindow &&& lower16Mask } }
  bound := true
  connectPort := e.peer.port != 0
  rxWindowMaximum := rxWindowMaximum
  interfaceInitialWindow := interfaceInitialWindow
  offered := (sendSynack path e.terms).1.window
  accepted := false
  arrived := []
  released := []
  processed := []

/-- `_nx_tcp_syncache_awaiting_accept` --/
def Holding.awaitingAccept (h : Holding) : Bool :=
  h.socket.state == .listen && !h.socket.clientType && h.bound && h.connectPort

/-! ### A segment while the socket waits -/

/-- `data_length`: what is behind the header. --/
def payload (p : Packet) : ULONG := if p.length > p.header.headerLength then p.dataLength else 0

/-- `held` --/
def heldData (queue : List Packet) : ULONG := (queue.map payload).sum

/-- After a FIN or a RST nothing more is kept. --/
def closes (p : Packet) : Bool := p.header.has tcpFinBit || p.header.has tcpRstBit

/-- The segment continues what is kept, or resets it. --/
def holdValid (s : Socket) (p : Packet) : Bool :=
  let held := heldData s.rcv.receiveQueue
  !s.rcv.receiveQueue.any closes &&
    if p.header.has tcpRstBit then p.header.sequenceNumber == s.rcv.rxSequence
    else p.header.has tcpAckBit && !p.header.has tcpSynBit && p.header.acknowledgmentNumber == s.snd.txSequence &&
      p.header.sequenceNumber == s.rcv.rxSequence + held && (payload p != 0 || p.header.has tcpFinBit) &&
      decide (held + payload p ≤ s.rcv.rxWindowCurrent)

/-- A RST is kept without its data. --/
def holdTrim (p : Packet) : Packet :=
  if p.header.has tcpRstBit ∧ payload p ≠ 0 then { p with length := p.header.headerLength, first := [], chain := [] }
  else p

/-- `_nx_tcp_syncache_hold` --/
def syncacheHold (h : Holding) (p : Packet) : Holding :=
  let h := { h with arrived := h.arrived ++ [p] }
  let r := h.socket.rcv
  if holdValid h.socket p = false ∨ r.receiveQueueCount ≥ holdSegments then { h with released := h.released ++ [p] }
  else
    { h with socket := { h.socket with rcv := { r with
      receiveQueue := r.receiveQueue ++ [holdTrim p]
      receiveQueueHead := if r.receiveQueueCount = 0 then some p.addr else r.receiveQueueHead
      receiveQueueTail := some p.addr
      receiveQueueCount := r.receiveQueueCount + 1 } } }

/-! ### Accepting -/

/-- The congestion window of `_nx_tcp_socket_state_syn_received`, with `NX_TCP_SOCKET_INITIAL_WINDOW`. --/
def initialWindow (mss segments : ULONG) : ULONG :=
  if segments ≠ 0 then
    let window := segments * 1460
    let window := if window < mss <<< 1 then mss <<< 1 else window
    if window > segments * mss then segments * mss else window
  else mss <<< 2 - (if mss > 1095 then mss else 0) - if mss > 2190 then mss else 0

/-- `_nx_tcp_syncache_establish`: `_nx_tcp_socket_state_syn_received` on the acknowledgment of the SYN-ACK. --/
def syncacheEstablish (rxWindowMaximum segments : ULONG) (s : Socket) : Socket :=
  let unscaled := s.snd.sndWinScaleValue = 0xFF
  let scale := if unscaled then 0 else s.snd.sndWinScaleValue
  let window := (s.snd.txWindowAdvertised &&& lower16Mask) <<< scale
  let small := unscaled ∧ rxWindowMaximum > 65535
  { s with
    state := .established
    rcv := { s.rcv with
      rcvWinScaleValue := if unscaled then 0 else s.rcv.rcvWinScaleValue
      rxWindowDefault := if small then 65535 else s.rcv.rxWindowDefault
      rxWindowCurrent := if small then 65535 else s.rcv.rxWindowCurrent
      ackNPacketCounter := 0
      rxSequenceAcked := s.rcv.rxSequence }
    snd := { s.snd with
      sndWinScaleValue := scale
      txWindowAdvertised := window
      txWindowAdvertisedMax := window
      txSlowStartThreshold := 0x7FFFFFFF
      txWindowCongestion :=
        if s.snd.timeoutRetries > 0 then s.connectMss else initialWindow s.connectMss segments } }

/-- `_nx_tcp_socket_packet_process`, also where the connection is gone. --/
def processHeld (ip : Ip) (reads : Nat) (s : Socket) (p : Packet) : Socket :=
  if State.established.code ≤ s.state.code then socketPacketProcess ip reads s p
  else if p.header.headerLength > 20 ∧ mssOptionLegal p.options = false then rejectOptions ip s p
  else s

/-- The socket with nothing queued. --/
def Holding.emptied (h : Holding) : Socket :=
  { h.socket with rcv := { h.socket.rcv with
    receiveQueue := []
    receiveQueueHead := none
    receiveQueueTail := none
    receiveQueueCount := 0 } }

/-- The connection of `_nx_tcp_syncache_accept`, before what was kept is processed. --/
def acceptOpen (ip : Ip) (h : Holding) : Socket :=
  let s := syncacheEstablish h.rxWindowMaximum h.interfaceInitialWindow h.emptied
  packetSendAck ip s s.snd.txSequence

/-- `_nx_tcp_syncache_accept`. `reads` is what the receive callback does at a packet. --/
def syncacheAccept (ip : Ip) (reads : Nat → Nat) (h : Holding) : Holding :=
  { h with
    socket := h.socket.rcv.receiveQueue.foldl (fun s p => processHeld ip (reads p.addr) s p) (acceptOpen ip h)
    accepted := true
    processed := h.processed ++ h.socket.rcv.receiveQueue }

/-- `_nx_tcp_server_socket_accept`. `iss` is the number drawn where the handshake has not begun; the SYN-ACK of such
    a handshake is left out. --/
def serverSocketAccept (ip : Ip) (reads : Nat → Nat) (iss : ULONG) (h : Holding) : Holding :=
  if h.socket.state = .established then h
  else if h.awaitingAccept then syncacheAccept ip reads h
  else if h.socket.state ≠ .listen then h
  else
    let s := h.socket
    let r := { s.rcv with
      rxWindowCurrent := s.rcv.rxWindowDefault
      rxWindowLastSent := s.rcv.rxWindowDefault
      finReceived := false }
    if h.bound then
      { h with socket := { s with
        state := .synReceived
        rcv := { r with
          rxSequence := r.rxSequence + 1
          receiveQueue := []
          receiveQueueHead := none
          receiveQueueTail := none
          receiveQueueCount := 0 }
        snd := { s.snd with
          txSequence := iss + 1
          finAcked := false
          timeout := s.snd.timeoutRate
          timeoutRetries := 0
          txWindowCongestion := 0
          txOutstandingBytes := 0
          transmitSent := [] } } }
    else
      { h with socket := { s with
        state := .synReceived
        rcv := r
        snd := { s.snd with txSequence := iss, finAcked := false, timeout := 0 } } }

/-! ### Other ends -/

/-- `_nx_tcp_server_socket_unaccept`, with `_nx_tcp_socket_receive_queue_flush`. --/
def serverSocketUnaccept (h : Holding) : Holding :=
  let h :=
    if State.closeWait.code ≤ h.socket.state.code ∨ h.socket.state = .closed ∧ h.bound = true then
      { h with socket := { h.socket with state := .listen }, connectPort := false }
    else h
  if h.socket.state ≠ .listen then h
  else
    let s := h.emptied
    { h with
      socket := { s with
        state := .closed
        clientType := true
        disconnectSuspended := false
        snd := { s.snd with timeout := 0 } }
      bound := false
      released := h.released ++ h.socket.rcv.receiveQueue }

/-- `_nx_ip_interface_detach` of the interface of the connection. --/
def interfaceDetach (h : Holding) : Holding :=
  { h with socket := socketConnectionReset h.socket, connectPort := false }

inductive HoldAction where
  /-- A segment of the peer arrives. --/
  | segment (p : Packet)
  | accept (reads : Nat → Nat) (iss : ULONG)
  | unaccept
  | detach

/-- One step. A segment that does not find the socket waiting is not kept here, and a connection once accepted is the
    socket's. --/
def holdStep (ip : Ip) (h : Holding) (a : HoldAction) : Holding :=
  if h.accepted then h
  else match a with
    | .segment p => if h.awaitingAccept then syncacheHold h p else h
    | .accept reads iss => serverSocketAccept ip reads iss h
    | .unaccept => serverSocketUnaccept h
    | .detach => interfaceDetach h

end Netxduo.Syncache
