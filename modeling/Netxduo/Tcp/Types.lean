import Netxduo.Library.Serial

/-! The words, headers and packets the TCP code works on. -/

namespace Netxduo

/-- `ULONG` of the ports the stack is built for: 32 bits, unsigned. --/
abbrev ULONG := BitVec 32

/-- `(INT)x`: the same 32 bits, read as a signed number. --/
def INT (x : ULONG) : Int := x.toInt

theorem int_sub {r x y : ULONG} (hx : Serial.Near r x) (hy : Serial.Near r y) :
    INT (x - y) = Serial.rel r x - Serial.rel r y :=
  hx.toInt_sub hy

/-! ### TCP header -/

def tcpFinBit : ULONG := 0x00010000
def tcpSynBit : ULONG := 0x00020000
def tcpRstBit : ULONG := 0x00040000
def tcpPshBit : ULONG := 0x00080000
def tcpAckBit : ULONG := 0x00100000
def tcpUrgBit : ULONG := 0x00200000
def tcpControlMask : ULONG := 0x00170000
def lower16Mask : ULONG := 0x0000FFFF

/-- `NX_TCP_HEADER`, less the port word. --/
structure TcpHeader where
  sequenceNumber : ULONG
  acknowledgmentNumber : ULONG
  word3 : ULONG
  word4 : ULONG
deriving DecidableEq, Repr

namespace TcpHeader

/-- The data offset field, in bytes. --/
def headerLength (h : TcpHeader) : ULONG := (h.word3 >>> 28) * 4

def has (h : TcpHeader) (bit : ULONG) : Bool := h.word3 &&& bit != 0

end TcpHeader

/-! ### Packets -/

/-- An `NX_PACKET` chain holding one TCP segment: the first buffer behind the header, and the buffers
    chained to it by `nx_packet_next`. `length` is `nx_packet_length`, which counts the header. --/
structure Packet where
  addr : Nat
  header : TcpHeader
  options : List UInt8
  length : ULONG
  first : List UInt8
  chain : List (List UInt8)
  ready : Bool
deriving DecidableEq, Repr

namespace Packet

/-- The payload octets, in order. --/
def octets (p : Packet) : List UInt8 := p.first ++ p.chain.flatten

/-- `nx_packet_length - header_length`. --/
def dataLength (p : Packet) : ULONG := p.length - p.header.headerLength

def beginSequence (p : Packet) : ULONG := p.header.sequenceNumber

/-- The sequence number behind the last octet. --/
def endSequence (p : Packet) : ULONG := p.beginSequence + p.dataLength

/-- The packet length counts exactly the header and the octets of the chain, and lies below half the
    sequence space. --/
structure WellFormed (p : Packet) : Prop where
  length_eq : p.length.toNat = p.header.headerLength.toNat + p.octets.length
  length_lt : p.length.toNat < 2 ^ 31

end Packet

/-! ### Connection states -/

/-- `NX_TCP_CLOSED` and its successors, in the order of their codes. --/
inductive State where
  | closed | listen | synSent | synReceived | established | closeWait | finWait1 | finWait2 | closing
  | timedWait | lastAck
deriving DecidableEq, Repr

/-- The code `nx_tcp.h` gives the state; the source compares states by it. --/
def State.code : State → Nat
  | .closed => 1
  | .listen => 2
  | .synSent => 3
  | .synReceived => 4
  | .established => 5
  | .closeWait => 6
  | .finWait1 => 7
  | .finWait2 => 8
  | .closing => 9
  | .timedWait => 10
  | .lastAck => 11

end Netxduo
