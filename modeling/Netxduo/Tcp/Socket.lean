import Netxduo.Tcp.Types

/-! The socket control block `NX_TCP_SOCKET`, in three parts: what the receive path keeps, what the
    transmit path keeps, and what SACK recovery keeps. Fields no modelled function reads are left out. -/

namespace Netxduo

/-! ### The instance a socket runs on -/

/-- Build options of the port. SACK is built in; offload, the HTTP proxy and RTT estimation are not. --/
structure Build where
  /-- `NX_ENABLE_LOW_WATERMARK` --/
  lowWatermark : Bool := false
  /-- `NX_TCP_MAX_OUT_OF_ORDER_PACKETS` --/
  maxOutOfOrderPackets : Option ULONG := none
  /-- `NX_TCP_ACK_EVERY_N_PACKETS` --/
  ackEveryNPackets : Option ULONG := none
  /-- `NX_TCP_ACK_THRESHOLD_MAX` --/
  ackThresholdMax : Option ULONG := none
  /-- `NX_ENABLE_TCP_TIMESTAMP` --/
  timestamp : Bool := false
  /-- `NX_ENABLE_TCP_WINDOW_SCALING` --/
  windowScaling : Bool := true
  /-- `NX_DISABLE_RESET_DISCONNECT` --/
  disableResetDisconnect : Bool := false
deriving DecidableEq, Repr

/-- The IP instance and the interface: settings, and the answers of the packet pools and the driver.
    An answer is a function of how many questions the socket has asked so far, so every behaviour of
    the pools and of the driver is some instance. --/
structure Ip where
  build : Build
  /-- The n-th packet allocation succeeds. --/
  packetAllocate : Nat → Bool
  /-- The pool of the arriving packet is below its low watermark at the n-th question. --/
  belowLowWatermark : Nat → Bool
  /-- The driver completes the n-th packet handed to it before the call returns. --/
  driverCompletes : Nat → Bool
  /-- The interface has stopped its transmit queue at the n-th question. --/
  txQueueStopped : Nat → Bool
  interfaceRxWindowCap : ULONG := 0
  interfaceAckThresholdMax : ULONG := 0
  interfaceAbcLimit : ULONG := 0
  tcpAckTimerRate : ULONG := 20
  tcpFastTimerRate : ULONG := 10
  tcp2MslTimerRate : ULONG := 24000
  /-- Holes one scoreboard page of the pool has room for. --/
  sackPageRoom : Nat := 64
  packetPoolTotal : Nat := 256

/-! ### Segments put on the wire -/

structure SackBlock where
  left : ULONG
  right : ULONG
deriving DecidableEq, Repr

/-- A segment handed to IP. --/
structure Segment where
  sequenceNumber : ULONG
  acknowledgmentNumber : ULONG
  control : ULONG
  window : ULONG
  sackBlocks : List SackBlock
  octets : List UInt8
deriving DecidableEq, Repr

/-! ### The receive half -/

structure Receive where
  rxSequence : ULONG
  rxSequenceAcked : ULONG
  rxWindowDefault : ULONG
  rxWindowCurrent : ULONG
  rxWindowLastSent : ULONG
  rxWindowCap : ULONG
  rcvWinScaleValue : Nat
  finSequence : ULONG
  finReceived : Bool
  ackNPacketCounter : ULONG
  delayedAckTimeout : ULONG
  /-- The packets linked by `nx_packet_tcp_queue_next`, from the first on. --/
  receiveQueue : List Packet
  receiveQueueHead : Option Nat
  receiveQueueTail : Option Nat
  receiveQueueCount : ULONG
  receiveQueueMaximum : ULONG
  receiveSuspensionList : List Nat
  sackRecentSequence : ULONG
  dsackLeft : ULONG
  dsackRight : ULONG
  timestampEnabled : Bool
  tsRecent : ULONG
  lastAckSent : ULONG
deriving DecidableEq, Repr

/-! ### The transmit half -/

/-- A packet on the transmit queue. --/
structure TxPacket where
  addr : Nat
  sequence : ULONG
  headerLength : ULONG
  octets : List UInt8
  /-- `nx_packet_queue_next` is `NX_DRIVER_TX_DONE`. --/
  txDone : Bool
deriving DecidableEq, Repr

structure Transmit where
  txSequence : ULONG
  finAcked : Bool
  txWindowAdvertised : ULONG
  txWindowAdvertisedMax : ULONG
  txWindowCongestion : ULONG
  txCwndAcked : ULONG
  txSlowStartThreshold : ULONG
  txOutstandingBytes : ULONG
  txSequenceRecover : ULONG
  previousHighestAck : ULONG
  duplicatedAckReceived : ULONG
  fastRecovery : Bool
  txRtoNext : ULONG
  txRtoEnd : ULONG
  zeroWindowProbeFailure : ULONG
  zeroWindowProbeSequence : ULONG
  zeroWindowProbeHasData : Bool
  zeroWindowProbeData : UInt8
  sndWinScaleValue : Nat
  /-- From `nx_tcp_socket_transmit_sent_head` to the tail. --/
  transmitSent : List TxPacket
  transmitQueueMaximum : ULONG
  transmitSuspensionList : List Nat
  timeout : ULONG
  timeoutRate : ULONG
  timeoutRetries : ULONG
  timeoutMaxRetries : ULONG
  timeoutShift : ULONG
  stallTicks : ULONG
  userTimeout : ULONG
deriving DecidableEq, Repr

/-! ### SACK recovery -/

/-- `NX_SACK_HOLE`: a range the peer has not reported, and how far it has been sent again. --/
structure SackHole where
  left : ULONG
  right : ULONG
  rxmit : ULONG
deriving DecidableEq, Repr

/-- `NX_SACK_BANK` and its companions in `nx_tcp_socket_sack_scoreboard_flags`. --/
structure SackFlags where
  bank : Bool
  initialized : Bool
  allocFailed : Bool
  ackJump : Bool
  uncertain : Bool
deriving DecidableEq, Repr

structure SackRecovery where
  /-- The blocks of the last option, `nx_tcp_socket_sack_left` and `..._sack_right`. --/
  blocks : List SackBlock
  txHighRxt : ULONG
  /-- The pages linked from `nx_tcp_socket_sack_scoreboard`; none means a null pointer. --/
  pages : Nat
  /-- The hole in a slot of a page. --/
  cells : Nat → Nat → SackHole
  pageCapacity : Nat
  holeCapacity : Nat
  holeCount : Nat
  flags : SackFlags
  cursor : Option Nat
  highAck : ULONG
  fack : ULONG
  lostEdge : ULONG
  prrRecoverFs : ULONG
  prrDelivered : ULONG
  prrOut : ULONG
  prrCredit : ULONG
  rescueRxt : ULONG
  rxtMark : ULONG
  deliveryBank : ULONG
  deliveredData : ULONG
  uncertainStart : ULONG
  uncertainEnd : ULONG

/-! ### The socket -/

structure Socket where
  state : State
  clientType : Bool
  connectMss : ULONG
  sackPermitted : Bool
  rcv : Receive
  snd : Transmit
  sack : SackRecovery
  /-- The segments handed to IP so far, oldest first. --/
  wire : List Segment
  /-- The packets handed to the application so far, oldest first. --/
  handed : List Packet
  /-- Questions asked of the packet pools and the driver so far. --/
  asked : Nat
  /-- `nx_ip_tcp_challenge_ack_budget` --/
  challengeAckBudget : Nat
  /-- A thread waits in `nx_tcp_socket_disconnect_suspended_thread`. --/
  disconnectSuspended : Bool

namespace Socket

/-- `_nx_packet_allocate`, the packet itself aside. --/
def packetAllocate (ip : Ip) (s : Socket) : Bool × Socket :=
  (ip.packetAllocate s.asked, { s with asked := s.asked + 1 })

/-- `nx_packet_pool_available < nx_packet_pool_low_watermark` for the arriving packet's pool. --/
def belowLowWatermark (ip : Ip) (s : Socket) : Bool × Socket :=
  (ip.belowLowWatermark s.asked, { s with asked := s.asked + 1 })

/-- The driver takes a packet; it may complete it before the call returns. --/
def driverTakes (ip : Ip) (s : Socket) : Bool × Socket :=
  (ip.driverCompletes s.asked, { s with asked := s.asked + 1 })

/-- `NX_TCP_SOCKET_TX_QUEUE_STOPPED` --/
def txQueueStopped (ip : Ip) (s : Socket) : Bool × Socket :=
  (s.snd.txOutstandingBytes != 0 && ip.txQueueStopped s.asked, { s with asked := s.asked + 1 })

/-- `NX_TCP_SACK_RECOVERY_ACTIVE` --/
def sackRecoveryActive (s : Socket) : Bool :=
  s.sackPermitted && s.snd.fastRecovery && s.sack.prrRecoverFs != 0

end Socket

end Netxduo
