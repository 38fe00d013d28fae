import Netxduo.Tcp.Socket

/-! The windows a socket offers, and the control segments it sends. -/

namespace Netxduo

/-- The packet the tail pointer designates. --/
def Receive.tailPacket (r : Receive) : Option Packet :=
  r.receiveQueueTail.bind fun addr => r.receiveQueue.find? (·.addr == addr)

/-! ### Windows -/

/-- `_nx_tcp_socket_rx_window_cap` --/
def socketRxWindowCap (ip : Ip) (s : Socket) : ULONG :=
  let cap := if s.rcv.rxWindowCap = 0 then ip.interfaceRxWindowCap else s.rcv.rxWindowCap
  if cap = 0xFFFFFFFF then 0 else cap

/-- `_nx_tcp_socket_rx_window_open` --/
def socketRxWindowOpen (ip : Ip) (s : Socket) : ULONG :=
  let cap := socketRxWindowCap ip s
  if cap ≠ 0 ∧ s.rcv.rxWindowCurrent > cap then
    let cap := if cap < s.rcv.rxWindowLastSent then s.rcv.rxWindowLastSent else cap
    if s.rcv.rxWindowCurrent > cap then cap else s.rcv.rxWindowCurrent
  else s.rcv.rxWindowCurrent

/-- `NX_TCP_SWS_FLOOR` --/
def swsFloor (s : Socket) : ULONG :=
  if s.connectMss < s.rcv.rxWindowDefault >>> 1 then s.connectMss else s.rcv.rxWindowDefault >>> 1

/-- `_nx_tcp_socket_rx_window_advertised` --/
def socketRxWindowAdvertised (ip : Ip) (s : Socket) : ULONG :=
  if socketRxWindowOpen ip s ≥ swsFloor s ∨ socketRxWindowOpen ip s ≤ s.rcv.rxWindowLastSent then
    socketRxWindowOpen ip s
  else s.rcv.rxWindowLastSent

/-- `_nx_tcp_socket_window_update_step` --/
def socketWindowUpdateStep (ip : Ip) (s : Socket) : ULONG :=
  let cap := socketRxWindowCap ip s
  let window := if cap ≠ 0 ∧ s.rcv.rxWindowDefault > cap then cap else s.rcv.rxWindowDefault
  let step := window / 2
  if step > s.connectMss <<< 1 ∧ window ≤ s.connectMss <<< 4 then s.connectMss <<< 1 else step

/-- The shift applied to the window field; none without `NX_ENABLE_TCP_WINDOW_SCALING`. --/
def Ip.rcvScale (ip : Ip) (s : Socket) : Nat := if ip.build.windowScaling then s.rcv.rcvWinScaleValue else 0

/-- The window field of every segment but a SYN. --/
def windowField (ip : Ip) (s : Socket) : ULONG :=
  let window := socketRxWindowAdvertised ip s >>> ip.rcvScale s
  if INT s.rcv.rxWindowCurrent < 0 then 0 else if window > 0xFFFF then 0xFFFF else window

/-! ### SACK blocks to report -/

/-- The collecting loop of `_nx_tcp_sack_option_build`: the ranges held above `rxSequence`, ascending,
    the lowest dropped when the option has no room. --/
def sackCollect (rxSequence : ULONG) (limit : Nat) : List Packet → List SackBlock → List SackBlock
  | [], blocks => blocks
  | p :: rest, blocks =>
    sackCollect rxSequence limit rest <|
      if INT (p.endSequence - rxSequence) > 0 then
        match blocks.getLast? with
        | some last =>
          if last.right = p.beginSequence then blocks.dropLast ++ [⟨last.left, p.endSequence⟩]
          else if blocks.length < limit then blocks ++ [⟨p.beginSequence, p.endSequence⟩]
          else blocks.tail ++ [⟨p.beginSequence, p.endSequence⟩]
        | none => [⟨p.beginSequence, p.endSequence⟩]
      else blocks

/-- `_nx_tcp_sack_option_build`: the blocks of the option, in the order they are written. The pending
    duplicate comes first and is forgotten, then the block of the segment that triggered the option. --/
def sackOptionBuild (ip : Ip) (s : Socket) : List SackBlock × Socket :=
  if s.sackPermitted then
    let dsack := s.rcv.dsackLeft != s.rcv.dsackRight
    let limit := (if ip.build.timestamp && s.rcv.timestampEnabled then 3 else 4) - if dsack then 1 else 0
    let blocks :=
      match s.rcv.receiveQueueHead, s.rcv.tailPacket with
      | some _, some tail =>
        if INT (tail.endSequence - s.rcv.rxSequence) ≤ 0 then []
        else sackCollect s.rcv.rxSequence limit s.rcv.receiveQueue []
      | _, _ => []
    let recent := (blocks.findIdx? fun b => decide (INT (s.rcv.sackRecentSequence - b.left) ≥ 0) &&
      decide (INT (b.right - s.rcv.sackRecentSequence) > 0)).getD (blocks.length - 1)
    let ordinary :=
      match blocks[recent]? with
      | some first => first :: (blocks.eraseIdx recent).reverse
      | none => []
    if dsack then
      (⟨s.rcv.dsackLeft, s.rcv.dsackRight⟩ :: ordinary,
        { s with rcv := { s.rcv with dsackLeft := 0, dsackRight := 0 } })
    else (ordinary, s)
  else ([], s)

/-- `NX_TCP_DSACK_RECORD` --/
def dsackRecord (s : Socket) (left right : ULONG) : Socket :=
  if s.sackPermitted && decide (INT (right - left) > 0) then
    { s with rcv := { s.rcv with dsackLeft := left, dsackRight := right } }
  else s

/-! ### Control segments -/

/-- `_nx_tcp_packet_send_control` for every segment but a SYN. Without a packet for it nothing happens. --/
def packetSendControl (ip : Ip) (s : Socket) (control txSequence ackNumber : ULONG)
    (blocks : List SackBlock) (data : List UInt8) : Socket :=
  let (allocated, s) := s.packetAllocate ip
  if allocated then
    { s with
      wire := s.wire ++ [⟨txSequence, ackNumber, control, windowField ip s, blocks, data⟩]
      rcv := { s.rcv with
        rxSequenceAcked := ackNumber
        rxWindowLastSent := windowField ip s <<< ip.rcvScale s
        lastAckSent :=
          if ip.build.timestamp && control &&& tcpAckBit != 0 then ackNumber else s.rcv.lastAckSent } }
  else s

/-- `_nx_tcp_packet_send_ack` --/
def packetSendAck (ip : Ip) (s : Socket) (txSequence : ULONG) : Socket :=
  let (blocks, s) := sackOptionBuild ip s
  let s := packetSendControl ip s tcpAckBit txSequence s.rcv.rxSequence blocks []
  { s with rcv := { s.rcv with delayedAckTimeout := ip.tcpAckTimerRate } }

/-- `_nx_tcp_packet_send_fin` --/
def packetSendFin (ip : Ip) (s : Socket) (txSequence : ULONG) : Socket :=
  packetSendControl ip s (tcpFinBit ||| tcpAckBit) txSequence s.rcv.rxSequence [] []

/-- `_nx_tcp_packet_send_rst` --/
def packetSendRst (ip : Ip) (s : Socket) (header : TcpHeader) : Socket :=
  if header.has tcpAckBit then packetSendControl ip s tcpRstBit header.acknowledgmentNumber 0 [] []
  else packetSendControl ip s (tcpRstBit ||| tcpAckBit) 0 header.sequenceNumber [] []

/-- `_nx_tcp_packet_send_probe` --/
def packetSendProbe (ip : Ip) (s : Socket) (txSequence : ULONG) (data : UInt8) : Socket :=
  let s := packetSendControl ip s tcpAckBit txSequence s.rcv.rxSequence [] [data]
  { s with rcv := { s.rcv with delayedAckTimeout := ip.tcpAckTimerRate } }

end Netxduo
