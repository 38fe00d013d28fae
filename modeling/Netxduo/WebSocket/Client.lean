import Netxduo.Packets.Chain

/-! The receiving side of the WebSocket client: the frames that are cut out of the chains of buffers TCP hands over, with the
    state that is kept between two of them. -/

namespace Netxduo.WebSocket

def fin : UInt8 := 0x80
def opcodeMask : UInt8 := 0x0F
def mask : UInt8 := 0x80
def payloadLenMask : UInt8 := 0x7F

def opcodeContinuation : UInt8 := 0
def opcodeText : UInt8 := 1
def opcodeBinary : UInt8 := 2
def opcodeClose : UInt8 := 8
def opcodePing : UInt8 := 9
def opcodePong : UInt8 := 0xA

def controlPayloadMaximum : Nat := 125

inductive ClientState
  | idle
  | connecting
  | connected
  | disconnectSent
  | disconnectReceived
deriving DecidableEq, Repr

/-- `NX_WEBSOCKET_CLIENT`, as far as frames are received. --/
structure Client where
  state : ClientState
  processing : Option Packets.Packet
  headerFound : Bool
  fragmented : Bool
  opcode : UInt8
  masked : Bool
  maskingKey : List UInt8
  dataLength : Nat
  dataReceived : Nat
deriving DecidableEq, Repr

/-- `_nx_websocket_client_cleanup` --/
def Client.cleanup (c : Client) : Client := { c with headerFound := false, fragmented := false, processing := none }

inductive Status
  | success
  | more
  | disconnected
  | invalidPacket
  | notSupported
  | offsetError
deriving DecidableEq, Repr

/-- What `_nx_websocket_client_data_process` returns: its status, the client, the octets of the packet with their opcode, and
    the payload that goes back in a PONG. --/
structure Done where
  status : Status
  client : Client
  data : List UInt8
  code : UInt8
  pong : Option (List UInt8)
deriving DecidableEq, Repr

def Client.stop (c : Client) (status : Status) : Done := ⟨status, c, [], 0, none⟩

/-! ### Frame headers -/

structure Header where
  last : Bool
  opcode : UInt8
  length : Nat
  size : Nat
deriving DecidableEq, Repr

def isControl (opcode : UInt8) : Bool := opcode == opcodePing || opcode == opcodePong || opcode == opcodeClose

/-- The length of the payload and the offset behind it, if its octets are there. --/
def payloadLength (p : Packets.Packet) (length : Nat) : Option (Nat × Nat) :=
  if length < 126 then some (length, 2)
  else
    match p.extractOffset 2 2 with
    | some [upper, lower] => some (upper.toNat * 256 + lower.toNat, 4)
    | _ => none

/-- The masking key and the offset behind it. --/
def maskingKey (c : Client) (p : Packets.Packet) (offset : Nat) : Option (List UInt8 × Nat) :=
  if c.masked = true then
    match p.extractOffset offset 4 with
    | some key => if key.length = 4 then some (key, offset + 4) else none
    | none => none
  else some (c.maskingKey, offset)

/-- The header of a frame, with the fields of the client that are written on the way. --/
def parseHeader (c : Client) (p : Packets.Packet) : Client × Except Status Header :=
  match p.extractOffset 0 2 with
  | some [first, second] =>
    let last := first &&& fin == fin
    let opcode := first &&& opcodeMask
    if isControl opcode && !last then (c.cleanup, .error .invalidPacket)
    else
      let c := { c with masked := second &&& mask != 0 }
      if 126 < (second &&& payloadLenMask).toNat then (c.cleanup, .error .notSupported)
      else
        match payloadLength p (second &&& payloadLenMask).toNat with
        | none => (c, .error .more)
        | some (length, offset) =>
          match maskingKey c p offset with
          | none => (c, .error .more)
          | some (key, size) =>
            let c := { c with maskingKey := key }
            if isControl opcode && decide (controlPayloadMaximum < length) then (c.cleanup, .error .invalidPacket)
            else if isControl opcode && decide (p.length < size + length) then (c, .error .more)
            else (c, .ok ⟨last, opcode, length, size⟩)
  | _ => (c, .error .more)

/-- The rules for the fragments of a message. A control frame does not touch them. --/
def fragmentRules (c : Client) (h : Header) : Option Client :=
  if isControl h.opcode then some c
  else if h.last = true then
    if c.fragmented = false then
      if h.opcode = opcodeContinuation then none else some { c with opcode := h.opcode }
    else
      if h.opcode ≠ opcodeContinuation then none else some { c with fragmented := false }
  else
    if c.fragmented = false then
      if h.opcode ≠ opcodeBinary ∧ h.opcode ≠ opcodeText then none
      else some { c with fragmented := true, opcode := h.opcode }
    else
      if h.opcode ≠ opcodeContinuation then none else some c

/-! ### Chains -/

/-- The buffers in front of the offset are released; the new first one takes over the pointer to the last one. --/
def behind (p : Packets.Packet) (offset : Nat) (last : Option Nat) : Option Packets.Packet :=
  (Packets.Packet.releaseBefore offset p.head p.tail).map fun r =>
    ⟨⟨r.1.octets.drop r.2.2, last.map (· - (p.tail.length - r.2.1.length))⟩, r.2.1, p.length - offset⟩

/-- `_nx_websocket_client_packet_trim` --/
def packetTrim (p : Packets.Packet) (size : Nat) : Except Status (Option Packets.Packet) :=
  if p.length < size then .error .offsetError else .ok (behind p size p.head.last)

/-- The unmasking of a buffer: it stops behind the octet that completes the frame. --/
def unmaskOctets (key : List UInt8) (length : Nat) : List UInt8 → Nat → Bool → List UInt8 × Nat × Bool
  | [], received, found => ([], received, found)
  | b :: rest, received, found =>
    if found = false then (b :: rest, received, false)
    else
      let b := b ^^^ key.getD (received % 4) 0
      if length ≤ received + 1 then (b :: rest, received + 1, false)
      else
        let r := unmaskOctets key length rest (received + 1) true
        (b :: r.1, r.2)

/-- The unmasking of a chain, buffer by buffer. --/
def unmaskBuffers (key : List UInt8) (length : Nat) : List Packets.Buffer → Nat → Bool → List Packets.Buffer × Nat × Bool
  | [], received, found => ([], received, found)
  | b :: rest, received, found =>
    let r := unmaskOctets key length b.octets received found
    let s := unmaskBuffers key length rest r.2.1 r.2.2
    (⟨r.1, b.last⟩ :: s.1, s.2)

/-- The payload in a packet: it is unmasked and counted. --/
def payload (c : Client) (p : Packets.Packet) : Client × Packets.Packet × Nat :=
  if c.masked = true then
    let head := unmaskOctets c.maskingKey c.dataLength p.head.octets c.dataReceived c.headerFound
    let tail := unmaskBuffers c.maskingKey c.dataLength p.tail head.2.1 head.2.2
    ({ c with dataReceived := tail.2.1, headerFound := tail.2.2 }, ⟨⟨head.1, p.head.last⟩, tail.1, p.length⟩,
      tail.2.1 - c.dataReceived)
  else
    let left := c.dataLength - c.dataReceived
    if left ≤ p.length then ({ c with headerFound := false, dataReceived := c.dataReceived + left }, p, left)
    else ({ c with dataReceived := c.dataReceived + p.length }, p, p.length)

/-- The payload is returned, and what lies behind it waits: the rest of a buffer is copied to a new one. --/
def deliver (c : Client) (p : Packets.Packet) (size : Nat) : Done :=
  let rest := behind p size p.head.last
  let rest := rest.map fun q => if q.tail = [] then { q with head := { q.head with last := none } } else q
  ⟨.success, { c with processing := rest }, p.octets.take size, c.opcode, none⟩

/-! ### Frames -/

/-- What is done with the payload, by the opcode. --/
def dispatch (c : Client) (p : Option Packets.Packet) (size : Nat) (opcode : UInt8) : Done :=
  if opcode = opcodeContinuation ∨ opcode = opcodeText ∨ opcode = opcodeBinary then
    match p with
    | none => { c with headerFound := false }.stop .more
    | some p => deliver c p size
  else if opcode = opcodeClose then
    let state := if c.state = .disconnectSent then ClientState.idle else .disconnectReceived
    ({ c with state := state } : Client).cleanup.stop .disconnected
  else if opcode = opcodePing then
    let c := { c with headerFound := false }
    if 0 < c.dataLength then
      match p.bind fun p => (p.extractOffset 0 c.dataLength).map fun payload => (p, payload) with
      | none => c.cleanup.stop .invalidPacket
      | some (p, payload) =>
        if payload.length ≠ c.dataLength then c.cleanup.stop .invalidPacket
        else
          match packetTrim p c.dataLength with
          | .error status => { c with processing := some p }.stop status
          | .ok rest => ⟨.more, { c with processing := rest }, [], 0, some payload⟩
    else ⟨.more, c, [], 0, some []⟩
  else if opcode = opcodePong then
    let c := { c with headerFound := false }
    if 0 < c.dataLength then
      match p with
      | none => c.stop .more
      | some p =>
        match packetTrim p c.dataLength with
        | .error status => { c with processing := some p }.stop status
        | .ok rest => { c with processing := rest }.stop .more
    else c.stop .more
  else c.cleanup.stop .invalidPacket

/-- The payload of a frame whose header is known. --/
def payloadProcess (c : Client) (p : Option Packets.Packet) (opcode : UInt8) : Done :=
  match p with
  | none => dispatch c none 0 opcode
  | some p =>
    let r := payload c p
    dispatch { r.1 with processing := some r.2.1 } (some r.2.1) r.2.2 opcode

/-- The header is trimmed, and what is behind it is processed. --/
def headerTrim (c : Client) (p : Packets.Packet) (h : Header) : Done :=
  match packetTrim p h.size with
  | .error status => c.stop status
  | .ok none =>
    let c := { c with processing := none }
    if 0 < c.dataLength then c.stop .more else payloadProcess c none h.opcode
  | .ok (some p) => payloadProcess { c with processing := some p } (some p) h.opcode

/-- A new frame. --/
def frameProcess (c : Client) (p : Packets.Packet) : Done :=
  match parseHeader c p with
  | (c, .error status) => c.stop status
  | (c, .ok h) =>
    let c := { c with headerFound := true, dataReceived := 0, dataLength := h.length }
    match fragmentRules c h with
    | none => c.cleanup.stop .invalidPacket
    | some c => headerTrim c p h

/-- The packet that is processed: one that arrives is linked to the one that waits. --/
def Client.joined (c : Client) : Option Packets.Packet → Option Packets.Packet
  | none => c.processing
  | some p =>
    match c.processing with
    | none => some p
    | some q => some (q.link p)

/-- `_nx_websocket_client_data_process` --/
def dataProcess (c : Client) (packet : Option Packets.Packet) : Done :=
  match c.joined packet with
  | none => c.stop .invalidPacket
  | some p =>
    let c := { c with processing := some p }
    if c.headerFound = false then frameProcess c p else payloadProcess c (some p) opcodeContinuation

end Netxduo.WebSocket
