import Netxduo.Tcp.Socket

/-! A socket the way the handshake leaves it, for runs on fixed segments. -/

namespace Netxduo

/-- Pools that never run dry, and a driver that keeps a packet until it is sent. --/
def Ip.ideal : Ip where
  build := {}
  packetAllocate := fun _ => true
  belowLowWatermark := fun _ => false
  driverCompletes := fun _ => false
  txQueueStopped := fun _ => false

namespace Socket

/-- The socket of a client after the handshake, without window scaling: `irs` and `iss` are the initial sequence
    numbers of the peer and its own, `rxWindow` and `txWindow` its own window and the one of the peer. --/
def opened (irs iss rxWindow txWindow : ULONG) : Socket where
  state := .established
  clientType := true
  connectMss := 1460
  sackPermitted := true
  rcv :=
    { rxSequence := irs + 1, rxSequenceAcked := irs + 1, rxWindowDefault := rxWindow, rxWindowCurrent := rxWindow
      rxWindowLastSent := rxWindow, rxWindowCap := 0, rcvWinScaleValue := 0, finSequence := 0, finReceived := false
      ackNPacketCounter := 0, delayedAckTimeout := 20, receiveQueue := [], receiveQueueHead := none
      receiveQueueTail := none, receiveQueueCount := 0, receiveQueueMaximum := 20, receiveSuspensionList := []
      sackRecentSequence := 0, dsackLeft := 0, dsackRight := 0, timestampEnabled := false, tsRecent := 0
      lastAckSent := irs + 1 }
  snd :=
    { txSequence := iss + 1, finAcked := false, txWindowAdvertised := txWindow, txWindowAdvertisedMax := txWindow
      txWindowCongestion := 14600, txCwndAcked := 0, txSlowStartThreshold := 0x7FFFFFFF, txOutstandingBytes := 0
      txSequenceRecover := iss, previousHighestAck := iss, duplicatedAckReceived := 0, fastRecovery := false
      txRtoNext := 0, txRtoEnd := 0, zeroWindowProbeFailure := 0, zeroWindowProbeSequence := 0
      zeroWindowProbeHasData := false, zeroWindowProbeData := 0, sndWinScaleValue := 0, transmitSent := []
      transmitQueueMaximum := 20, transmitSuspensionList := [], timeout := 0, timeoutRate := 100
      timeoutRetries := 0, timeoutMaxRetries := 10, timeoutShift := 0, stallTicks := 0, userTimeout := 0 }
  sack :=
    { blocks := [], txHighRxt := 0, pages := 0, cells := fun _ _ => ⟨0, 0, 0⟩, pageCapacity := 0, holeCapacity := 0
      holeCount := 0, flags := ⟨false, false, false, false, false⟩, cursor := none, highAck := 0, fack := 0
      lostEdge := 0, prrRecoverFs := 0, prrDelivered := 0, prrOut := 0, prrCredit := 0, rescueRxt := 0, rxtMark := 0
      deliveryBank := 0, deliveredData := 0, uncertainStart := 0, uncertainEnd := 0 }
  wire := []
  handed := []
  asked := 0
  challengeAckBudget := 10
  disconnectSuspended := false

end Socket

/-- A segment of `octets` in one buffer, with a header of 20 bytes. --/
def Packet.plain (addr : Nat) (sequence acknowledgment control : ULONG) (octets : List UInt8) : Packet where
  addr := addr
  header := ⟨sequence, acknowledgment, 0x50000000 ||| control ||| 1000, 0⟩
  options := []
  length := BitVec.ofNat 32 (20 + octets.length)
  first := octets
  chain := []
  ready := false

end Netxduo
