import Netxduo.Tcp.Send

/-! The whole of `_nx_tcp_socket_send_internal`: the loop over the application's packet, with the places where it gives
    the mutex up. What the other threads do to the socket in such a gap is a function of the environment. The build has
    SACK, and the packet is no aggregate for the driver to segment. -/

namespace Netxduo

/-! ### The packet -/

/-- The packet of the application: the octets in its chain of buffers, and how many octets of a header stand in front
    of them. --/
structure Unsent where
  addr : Nat
  chain : List (List UInt8)
  header : ULONG
deriving DecidableEq, Repr

/-- What is left to send. --/
def Unsent.octets (u : Unsent) : List UInt8 := u.chain.flatten

/-- Cuts the first `count` octets off. Buffers that are used up stay in the chain, empty. --/
def trimChain : Nat → List (List UInt8) → List (List UInt8)
  | count, buffer :: rest =>
    if count > buffer.length then [] :: trimChain (count - buffer.length) rest else buffer.drop count :: rest
  | _, [] => []

/-! ### The environment -/

/-- What happens around one round of the loop. --/
structure Round where
  /-- The packet cannot be sent as it is, even where all of it fits. --/
  adjust : Bool
  /-- `_nx_packet_allocate` succeeds, and what happens meanwhile. --/
  allocated : Bool
  allocating : Socket → Socket
  /-- The packet copied into. --/
  copy : Nat
  /-- `_nx_packet_data_append`, call by call. --/
  appends : List (Bool × (Socket → Socket))
  /-- What happens while the checksum is computed. --/
  checksum : Socket → Socket
  /-- What happens where the mutex is given up before the next round. --/
  between : Socket → Socket
  /-- The suspended thread is resumed to go on, and what happens until then. --/
  resumed : Bool
  suspended : Socket → Socket

/-! ### A copy -/

inductive Copied where
  | done (octets : List UInt8) (s : Socket)
  | failed (s : Socket)
  | exhausted (s : Socket)

/-- The loop over the source packet, with `remaining` octets to copy behind `copied`. --/
def copyData (remaining : Nat) : List (List UInt8) → List (Bool × (Socket → Socket)) → Socket → List UInt8 → Copied
  | [], _, s, copied => if remaining = 0 then .done copied s else .exhausted s
  | buffer :: rest, appends, s, copied =>
    if remaining = 0 then .done copied s
    else if buffer = [] then copyData remaining rest appends s copied
    else
      let (success, gap) := appends.headD (true, id)
      if success then
        copyData (remaining - min remaining buffer.length) rest appends.tail (gap s) (copied ++ buffer.take remaining)
      -- what has been copied before may still be sent
      else if copied = [] then .failed (gap s) else .done copied (gap s)

/-- `current_credit`: the room, computed again after the copy. --/
def currentCredit (s : Socket) : ULONG :=
  let credit := s.snd.txWindowCongestion
  let credit :=
    if s.sackRecoveryActive = false ∧ (s.snd.duplicatedAckReceived = 1 ∨ s.snd.duplicatedAckReceived = 2) then
      credit + (s.connectMss <<< 1)
    else credit
  let credit := if credit > s.snd.txWindowAdvertised then s.snd.txWindowAdvertised else credit
  let credit := if s.sackRecoveryActive then s.snd.txWindowAdvertised else credit
  let credit := lessOutstanding s credit
  let credit := if s.sackRecoveryActive = true ∧ credit > s.sack.prrCredit then s.sack.prrCredit else credit
  if credit > queueByteCredit then queueByteCredit else credit

/-! ### The loop -/

inductive SendResult where
  | success | invalidPacket | notConnected | noPacket | waitAborted | windowOverflow | txQueueDepth
deriving DecidableEq, Repr

/-- A segment placed on the transmit queue: where its room was checked last, where it was placed, and what it is. --/
structure Placed where
  checked : Socket
  placedAt : Socket
  sequence : ULONG
  octets : List UInt8

/-- The call, between two rounds or returned. --/
structure Call where
  socket : Socket
  unsent : Unsent
  placed : List Placed
  result : Option SendResult

def Call.return (c : Call) (s : Socket) (result : SendResult) : Call := { c with socket := s, result := some result }

/-- The state takes new data. --/
def State.sends (x : State) : Bool := x == .established || x == .closeWait

/-- The header of a new segment is built. --/
def buildHeader (ip : Ip) (s : Socket) (octets : List UInt8) : Segment × Socket :=
  (⟨s.snd.txSequence, s.rcv.rxSequence, tcpAckBit ||| tcpPshBit, windowField ip s, [], octets⟩,
    { s with rcv := { s.rcv with
      rxSequenceAcked := s.rcv.rxSequence
      rxWindowLastSent := windowField ip s <<< ip.rcvScale s
      delayedAckTimeout := ip.tcpAckTimerRate
      lastAckSent :=
        if ip.build.timestamp && s.rcv.timestampEnabled then s.rcv.rxSequence else s.rcv.lastAckSent } })

/-- The segment is placed on the transmit queue and handed to IP, and its octets are cut off the packet. --/
def place (ip : Ip) (r : Round) (c : Call) (s₀ s : Socket) (g : Segment) (addr : Nat) : Call :=
  let entry : Placed := ⟨s₀, s, g.sequenceNumber, g.octets⟩
  let (done, s) := s.driverTakes ip
  let s := enqueueSent ip s addr g.octets done
  let s := { s with wire := s.wire ++ [g] }
  let unsent : Unsent := { c.unsent with chain := trimChain g.octets.length c.unsent.chain }
  let c : Call := { c with socket := s, unsent := unsent, placed := c.placed ++ [entry] }
  if unsent.octets = [] then { c with result := some .success } else { c with socket := r.between s }

/-- From the header on. `copied` says that the segment is not the packet of the application. --/
def sendChecked (ip : Ip) (r : Round) (c : Call) (s : Socket) (part : List UInt8) (copied : Bool) : Call :=
  let (g, s₁) := buildHeader ip s part
  let s₂ := r.checksum s₁
  if s₂.snd.txSequence ≠ g.sequenceNumber then
    -- another segment was faster; a header in front of the application's data is taken off again
    { c with socket := r.between s₂ }
  else if s₂.state.sends = false then
    let unsent := { c.unsent with header := c.unsent.header + if copied then 0 else segmentHeaderLength ip s }
    { c with unsent := unsent }.return s₂ .notConnected
  else place ip r c s s₂ g (if copied then r.copy else c.unsent.addr)

/-- What becomes of a packet there is no room for. --/
def waitForRoom (r : Round) (c : Call) (s : Socket) (wait : Option Nat) : Call :=
  let s := zeroWindowProbeArm s c.unsent.octets
  match wait with
  | some thread =>
    let s := r.suspended { s with snd.transmitSuspensionList := s.snd.transmitSuspensionList ++ [thread] }
    if r.resumed then { c with socket := s } else c.return s .waitAborted
  | none =>
    if s.snd.transmitSent.length < s.snd.transmitQueueMaximum.toNat then c.return s .windowOverflow
    else c.return s .txQueueDepth

/-- `tx_window_current` of a round; `mss` is `send_mss`, settled before the loop. --/
def loopWindow (ip : Ip) (mss : ULONG) (s : Socket) (length : ULONG) (stopped : Bool) : ULONG :=
  let window := txWindowCurrent s stopped
  let window := if length > window ∧ swsSendPermitted ip s = false then 0 else window
  if window > mss then mss else window

/-- The copy of the part that may be sent. --/
def sendCopy (ip : Ip) (r : Round) (c : Call) (s : Socket) (window : ULONG) : Call :=
  let remaining := min c.unsent.octets.length window.toNat
  let s := r.allocating s
  if r.allocated = false then c.return s .noPacket
  else match copyData remaining c.unsent.chain r.appends s [] with
    | .exhausted s => c.return s .invalidPacket
    | .failed s => c.return s .noPacket
    | .done part s =>
      if s.state.sends = false then c.return s .notConnected
      else if BitVec.ofNat 32 part.length > currentCredit s then { c with socket := s }
      else sendChecked ip r c s part true

/-- One round of the loop. --/
def sendRound (ip : Ip) (mss : ULONG) (wait : Option Nat) (c : Call) (r : Round) : Call :=
  if c.result.isSome then c
  else
    let (stopped, s) := c.socket.txQueueStopped ip
    let length := BitVec.ofNat 32 c.unsent.octets.length
    let window := loopWindow ip mss s length stopped
    if window ≠ 0 ∧ s.snd.transmitSent.length < s.snd.transmitQueueMaximum.toNat then
      if length > window ∨ r.adjust then sendCopy ip r c s window
      else sendChecked ip r c s c.unsent.octets false
    else waitForRoom r c s wait

/-- `_nx_tcp_socket_send_internal` up to the loop. --/
def sendInternal (s : Socket) (addr : Nat) (chain : List (List UInt8)) : Call :=
  let c : Call := ⟨s, ⟨addr, chain, 0⟩, [], none⟩
  if c.unsent.octets = [] then c.return s .invalidPacket
  else if s.state.sends = false then c.return s .notConnected
  else c

end Netxduo
