import Netxduo.Tcp.Disconnect
import Netxduo.Tcp.Send

/-! The socket as a system: what the network, the application, the timer and the driver do to it, one step
    after the other. Every step runs under the mutex of the IP instance. -/

namespace Netxduo

inductive Action where
  /-- A segment arrives; the receive callback reads `reads` times. --/
  | segment (p : Packet) (reads : Nat)
  /-- The application calls `nx_tcp_socket_receive`. --/
  | receive (wait : Option Nat)
  /-- A round of `nx_tcp_socket_send`. --/
  | send (octets : List UInt8) (addr : Nat) (copies : Bool) (wait : Option Nat)
  /-- The first suspended writer is looked at. --/
  | transmitCheck (waiting : ULONG)
  /-- The application calls `nx_tcp_socket_disconnect`. --/
  | disconnect (wait ipThread : Bool)
  /-- A thread suspended in `nx_tcp_socket_disconnect` goes on. --/
  | disconnectResume
  /-- The fast timer expires. --/
  | timer
  /-- The driver is done with a packet of the transmit queue. --/
  | transmitted (addr : Nat)
deriving DecidableEq, Repr

/-- The driver releases a queued packet: `_nx_packet_transmit_release`. --/
def packetTransmitRelease (s : Socket) (addr : Nat) : Socket :=
  { s with snd.transmitSent := s.snd.transmitSent.map fun q => if q.addr = addr then { q with txDone := true } else q }

/-- One step. A segment reaches the socket while it is connected. --/
def step (ip : Ip) (s : Socket) : Action → Socket
  | .segment p reads => if State.established.code ≤ s.state.code then socketPacketProcess ip reads s p else s
  | .receive wait => (socketReceive ip s wait).2
  | .send octets addr copies wait => (socketSend ip s octets addr copies wait).2
  | .transmitCheck waiting => socketStateTransmitCheck ip s waiting
  | .disconnect wait ipThread => socketDisconnect ip s wait ipThread
  | .disconnectResume => disconnectResume s
  | .timer => fastPeriodicProcessing ip s
  | .transmitted addr => packetTransmitRelease s addr

end Netxduo
