import Netxduo.Secure.Handshake
import Netxduo.Library.Runs

/-! The record layer of TLS, from the packets of TCP to the contents of records. -/

namespace Netxduo.Tls

/-! ### Protection -/

def changeCipherSpecType : UInt8 := 20
def alertType : UInt8 := 21
def handshakeType : UInt8 := 22
def applicationDataType : UInt8 := 23

def recordHeaderSize : Nat := 5
def maxCiphertextLength : Nat := 18432
def maxCiphertextLength13 : Nat := 16640
def maxPlaintextLength : Nat := 16384
def alertLevelFatal : UInt8 := 2

/-- The two words of a sequence number. --/
structure SequenceNumber where
  low : UInt32
  high : UInt32
deriving DecidableEq, Repr

def SequenceNumber.value (n : SequenceNumber) : Nat := n.high.toNat * 2 ^ 32 + n.low.toNat

/-- The next number, where there is one. --/
def SequenceNumber.increment (n : SequenceNumber) : Option SequenceNumber :=
  if n.low + 1 = 0 then
    if n.high + 1 = 0 then none else some ⟨n.low + 1, n.high + 1⟩
  else some ⟨n.low + 1, n.high⟩

/-- What a session knows of its peer, as far as a record depends on it. --/
structure Connection where
  socketType : SocketType
  tls13 : Bool
  remoteSessionActive : Bool
  encryptThenMac : Bool
  remoteKeys : List UInt8
  /-- The length of the MAC of the suite: zero where the cipher has its own. --/
  hashSize : Nat
  remoteSequenceNumber : SequenceNumber
  clientFinished : Bool
  serverFinished : Bool
  fragmentReceived : Bool
  expectedLength : Nat
deriving DecidableEq, Repr

/-- The five octets in front of a record. --/
structure RecordHeader where
  type : UInt8
  versionMajor : UInt8
  versionMinor : UInt8
  length : Nat
deriving DecidableEq, Repr

/-- What is in a record once it is opened. --/
structure Content where
  type : UInt8
  octets : List UInt8
  decrypted : Bool
deriving DecidableEq, Repr

variable {σ : Type}

/-- What the record layer leaves to others: the ciphers, the MAC, and the handshake with its own state. --/
structure RecordOutside (σ : Type) where
  checkProtocolVersion : Connection → RecordHeader → Except Status Unit
  payloadDecrypt : List UInt8 → SequenceNumber → UInt8 → List UInt8 → Except Status (List UInt8)
  /-- The MAC under the keys over the sequence number, the header and the data. --/
  hashRecord : List UInt8 → SequenceNumber → RecordHeader → List UInt8 → List UInt8
  /-- The machine of the end, over a buffer of messages. What it keeps of the buffer is at its start. --/
  handshake : σ → Connection → List UInt8 → Status × σ × Connection × List UInt8
  /-- Whether a ChangeCipherSpec may come, and the keys it puts in place. --/
  changeCipherSpec : σ → Connection → Option (List UInt8)

variable (out : RecordOutside σ)

/-- `_nx_secure_verify_mac`: the data in front of the MAC, with the sequence number counted. --/
def verifyMac (c : Connection) (header : RecordHeader) (payload : List UInt8) : Except Status (Connection × List UInt8) :=
  if payload.length < c.hashSize then .error .hashMacVerifyFailure
  else if payload.length = c.hashSize ∧ header.type ≠ applicationDataType then .error .hashMacVerifyFailure
  else
    let dataLength := payload.length - c.hashSize
    match c.remoteSequenceNumber.increment with
    | none => .error .notSuccessful
    | some next =>
      let c' := { c with remoteSequenceNumber := next }
      if c.hashSize = 0 then .ok (c', payload)
      else if payload.drop dataLength =
          (out.hashRecord c.remoteKeys c.remoteSequenceNumber { header with length := dataLength }
            (payload.take dataLength)).take c.hashSize then .ok (c', payload.take dataLength)
      else .error .hashMacVerifyFailure

/-- `_nx_secure_tls_1_3_strip_padding`: behind the last octet that is not zero there is padding, and it is the type. --/
def stripPadding (inner : List UInt8) : Except Status (UInt8 × List UInt8) :=
  match inner.reverse.dropWhile (· == 0) with
  | [] => .error .unexpectedMessage
  | type :: octets => .ok (type, octets.reverse)

/-- Which records are opened: in TLS 1.3 it goes by the type in the clear. --/
def Connection.Opens (c : Connection) (type : UInt8) : Prop :=
  c.remoteSessionActive = true ∧ (c.tls13 = false ∨ type = applicationDataType)

instance (c : Connection) (type : UInt8) : Decidable (c.Opens type) := inferInstanceAs (Decidable (_ ∧ _))

/-- A record of TLS 1.3: the cipher has authenticated it. --/
def open13 (c : Connection) (header : RecordHeader) (body : List UInt8) : Except Status (Connection × Content) :=
  if maxCiphertextLength13 < body.length then .error .recordOverflow
  else
    match out.payloadDecrypt c.remoteKeys c.remoteSequenceNumber header.type body with
    | .error e => .error e
    | .ok inner =>
      match c.remoteSequenceNumber.increment with
      | none => .error .notSuccessful
      | some next =>
        match stripPadding inner with
        | .error e => .error e
        | .ok (type, octets) => .ok ({ c with remoteSequenceNumber := next }, ⟨type, octets, true⟩)

/-- With encrypt-then-MAC the MAC is over the ciphertext, and checked first. --/
def openEncryptThenMac (c : Connection) (header : RecordHeader) (body : List UInt8) :
    Except Status (Connection × Content) :=
  if maxCiphertextLength < body.length then .error .recordOverflow
  else
    match verifyMac out c header body with
    | .error e => .error e
    | .ok (c', cipher) =>
      if cipher.length = 0 ∨ body.length ≤ cipher.length then .error .incorrectMessageLength
      else
        match out.payloadDecrypt c'.remoteKeys c'.remoteSequenceNumber header.type cipher with
        | .error e => .error e
        | .ok octets => .ok (c', ⟨header.type, octets, true⟩)

/-- Else it is over the plaintext, and checked last. --/
def openMacThenEncrypt (c : Connection) (header : RecordHeader) (body : List UInt8) :
    Except Status (Connection × Content) :=
  if maxCiphertextLength < body.length then .error .recordOverflow
  else
    match out.payloadDecrypt c.remoteKeys c.remoteSequenceNumber header.type body with
    | .error e => .error e
    | .ok inner =>
      match verifyMac out c header inner with
      | .error e => .error e
      | .ok (c', octets) => .ok (c', ⟨header.type, octets, true⟩)

def openRecord (c : Connection) (header : RecordHeader) (body : List UInt8) : Except Status (Connection × Content) :=
  if c.Opens header.type then
    let opened :=
      if c.tls13 = true then open13 out c header body
      else if c.encryptThenMac = true then openEncryptThenMac out c header body
      else openMacThenEncrypt out c header body
    match opened with
    | .error e => .error e
    | .ok (c', content) => if maxPlaintextLength < content.octets.length then .error .recordOverflow else .ok (c', content)
  else .ok (c, ⟨header.type, body, false⟩)

/-! ### The session -/

/-- A record that was let in: what the session was before, and right behind opening it. For the statements only. --/
structure Report where
  before : Connection
  header : RecordHeader
  body : List UInt8
  after : Connection
  content : Content
deriving DecidableEq, Repr

structure RecordSession (σ : Type) where
  connection : Connection
  machine : σ
  queue : List UInt8
  recordOffset : Nat
  bytesProcessed : Nat
  packetBuffer : List UInt8
  packetBufferSize : Nat
  receivedAlert : Option (UInt8 × UInt8)
  /-- What was returned to the application. --/
  returned : List (List UInt8)
  reports : List Report

namespace RecordSession
variable (s : RecordSession σ)

/-- `_nx_secure_tls_session_reset`, as far as records go. --/
def reset : RecordSession σ :=
  { s with connection := { s.connection with socketType := .none, remoteSessionActive := false, remoteKeys := [],
                                             remoteSequenceNumber := ⟨0, 0⟩, clientFinished := false,
                                             serverFinished := false } }

/-- `_nx_secure_tls_process_changecipherspec`. TLS 1.3 ignores it, and what it returns is not looked at. --/
def processChangeCipherSpec (message : List UInt8) : RecordSession σ :=
  if message = [1] ∧ s.connection.tls13 = false then
    match out.changeCipherSpec s.machine s.connection with
    | none => s
    | some keys =>
      { s with connection := { s.connection with remoteSessionActive := true, remoteSequenceNumber := ⟨0, 0⟩,
                                                 remoteKeys := keys } }
  else s

/-- How the loop over the records goes on: with the next record, or out of the function. --/
inductive Outcome
  | next
  | stop (status : Status)
deriving DecidableEq, Repr

/-- What a whole message is used for, by its type. --/
def useMessage (type : UInt8) (message : List UInt8) : RecordSession σ × Outcome :=
  if type = changeCipherSpecType then (s.processChangeCipherSpec out message, .stop .success)
  else if type = alertType then
    match message with
    | level :: value :: _ =>
      let s := if level = alertLevelFatal then s.reset else s
      ({ s with receivedAlert := some (level, value) }, .stop .alertReceived)
    | _ => (s, .stop .incorrectMessageLength)
  else if type = handshakeType then
    if s.connection.tls13 = true ∧ s.connection.clientFinished = true then (s, .stop .postHandshakeReceived)
    else
      match out.handshake s.machine s.connection message with
      | (status, machine, connection, buffer) =>
        ({ s with machine := machine, connection := connection, packetBuffer := buffer },
          if status = .handshakeFragmentReceived then .next else .stop status)
  else (s, .stop .unrecognizedMessageType)

/-- The octets of a record join the packet buffer, behind those of a fragment that waits there. --/
def useContent (content : Content) : RecordSession σ × Outcome :=
  if content.type = applicationDataType then
    if content.octets.length = 0 then (s, .next) else (s, .stop .success)
  else if s.packetBufferSize < s.packetBuffer.length + content.octets.length then (s, .stop .packetBufferTooSmall)
  else
    let s := { s with packetBuffer := s.packetBuffer ++ content.octets }
    if s.connection.fragmentReceived = true then
      if s.connection.expectedLength < s.packetBuffer.length ∧ s.connection.expectedLength < handshakeHeaderSize then
        (s, .stop .invalidPacket)
      else if s.connection.expectedLength ≤ s.packetBuffer.length then
        useMessage out { s with connection := { s.connection with fragmentReceived := false, expectedLength := 0 } }
          content.type s.packetBuffer
      else (s, .next)
    else useMessage out s content.type (s.packetBuffer.take content.octets.length)

/-- One complete record. Its content is with the report, for the caller of the loop. --/
def processOne (header : RecordHeader) (body : List UInt8) : RecordSession σ × Outcome × Option Content :=
  match openRecord out s.connection header body with
  | .error e => (s, .stop e, none)
  | .ok (after, content) =>
    match useContent out { s with connection := after,
                                  reports := s.reports ++ [⟨s.connection, header, body, after, content⟩] } content with
    | (t, outcome) => (t, outcome, some content)

/-- `nx_packet_data_extract_offset` on the queue. --/
def extract (offset length : Nat) : Option (List UInt8) :=
  if offset < s.queue.length ∨ offset = 0 then some ((s.queue.drop offset).take length) else none

/-- `_nx_secure_tls_process_header`, up to the check of the version. --/
def processHeader (offset : Nat) : Except Status RecordHeader :=
  match s.extract offset recordHeaderSize with
  | some [type, major, minor, a, b] =>
    let header : RecordHeader := ⟨type, major, minor, a.toNat * 256 + b.toNat⟩
    match out.checkProtocolVersion s.connection header with
    | .error e => .error e
    | .ok () => .ok header
  | some _ => .error .continue
  | none => .error .invalidPacket

/-- More of the record, or of the next one, is waited for. --/
def wait (offset processed : Nat) : RecordSession σ := { s with recordOffset := offset, bytesProcessed := processed }

/-- The place that was saved, when more of a record was waited for. --/
def resume (offset processed : Nat) : RecordSession σ × Nat × Nat :=
  if s.recordOffset ≠ 0 then (s.wait 0 0, s.recordOffset, s.bytesProcessed) else (s, offset, processed)

/-- How a round of the loop ends: out of the function, or with the offset of the next record. --/
inductive Round
  | leave (status : Status) (processed : Nat) (content : Option Content)
  | goOn (offset processed : Nat)

/-- One round of the loop of `_nx_secure_tls_process_record`. --/
def processRound (offset processed : Nat) : RecordSession σ × Round :=
  match s.processHeader out offset with
  | .error .continue => (s.wait offset processed, .leave .continue processed none)
  | .error e => (s, .leave e processed none)
  | .ok header =>
    if header.length = 0 then (s, .leave .success (processed + recordHeaderSize) none)
    else if s.queue.length < recordHeaderSize + offset + header.length then
      (s.wait offset processed, .leave .continue processed none)
    else
      let processed := processed + recordHeaderSize + header.length
      let next := offset + recordHeaderSize + header.length
      let body := (s.queue.drop (offset + recordHeaderSize)).take header.length
      match { s with bytesProcessed := processed }.processOne out header body with
      | (t, .stop status, content) => (t, .leave status processed content)
      | (t, .next, _) =>
        if next = t.queue.length then (t.wait next processed, .leave .continue processed none)
        else (t, .goOn next processed)

/-- The loop, to the octets processed and the content of the last record. --/
def processLoop : Nat → RecordSession σ → Nat → Nat → RecordSession σ × Status × Nat × Option Content
  | 0, s, _, processed => (s, .invalidState, processed, none)
  | fuel + 1, s, offset, processed =>
    match s.resume offset processed with
    | (s, offset, processed) =>
      match s.processRound out offset processed with
      | (t, .leave status processed content) => (t, status, processed, content)
      | (t, .goOn offset processed) => processLoop fuel t offset processed

/-- `_nx_secure_tls_process_record`, with the octets of a packet behind those in the queue. --/
def processRecord (packet : List UInt8) : RecordSession σ × Status × Nat × Option Content :=
  let s := { s with queue := s.queue ++ packet }
  let s := if s.connection.fragmentReceived = true then s else { s with packetBuffer := [] }
  processLoop out (s.queue.length + 1) s 0 0

/-- The end has finished its handshake. --/
def handshakeFinished : Bool :=
  match s.connection.socketType with
  | .client => s.connection.clientFinished
  | .server => s.connection.serverFinished
  | .none => false

/-- `_nx_secure_tls_session_receive_records` with a packet, or none: what is processed leaves the queue, what was decrypted
    goes to the application once the handshake is finished, and an error other than an alert ends the session. --/
def receiveRecords (packet : List UInt8) : RecordSession σ :=
  if s.connection.socketType = .none then s
  else
    match s.processRecord out packet with
    | (t, .continue, _, _) => t
    | (t, .postHandshakeReceived, processed, _) => { t with queue := t.queue.drop processed }
    | (t, .success, processed, content) =>
      let t := { t with queue := t.queue.drop processed }
      match content with
      | some content =>
        if t.handshakeFinished = true ∧ content.decrypted = true then { t with returned := t.returned ++ [content.octets] }
        else t
      | none => t
    | (t, .alertReceived, _, _) =>
      { t with connection := { t.connection with clientFinished := false, serverFinished := false } }
    | (t, _, _, _) => t.reset

end RecordSession

end Netxduo.Tls
