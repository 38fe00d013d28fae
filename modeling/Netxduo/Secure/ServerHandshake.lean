import Netxduo.Secure.ClientHandshake

/-! The server's side of the TLS 1.3 handshake, and the records both sides read it from. -/

namespace Netxduo.Tls

variable (out : Outside)

namespace Session

/-- The message is read by its type, and the state set for what follows. --/
def serverMessage (s : Session) (type : MessageType) (message body : List UInt8) (dataLength : Nat) :
    Except Status Session :=
  match type with
  | .clientHello =>
    match out.clientHello { s with serverState := .idle } body with
    | .error e => .error e
    | .ok .olderVersion => .ok { s with serverState := .idle, tls13 := false }
    | .ok (.helloRetry hashSize) =>
      .ok { s with serverState := .sendHelloRetry, hashSize := some hashSize,
                   handshakeHash := if s.serverState = .idle then [] else s.handshakeHash }
    | .ok (.hello hashSize) =>
      .ok { s with serverState := .sendHello, hashSize := some hashSize,
                   handshakeHash := if s.serverState = .idle then [] else s.handshakeHash }
  | .certificateMsg =>
    match s.processRemoteCertificate out body dataLength with
    | .error .emptyRemoteCertificateReceived => .error .certificateRequired
    | .error e => .error e
    | .ok (t, endpoint, remote) =>
      .ok { t with serverState := .clientCertificate,
                   accepted := t.accepted ++ [.certificate endpoint remote message (t.handshakeHash ++ message)] }
  | .certificateVerify =>
    match s.processCertificateVerify out body with
    | .error e => .error e
    | .ok () =>
      .ok { s with receivedRemoteCredentials := true, serverState := .certificateVerify,
                   accepted := s.accepted ++ [.certificateVerify body] }
  | .finished =>
    match (s.saveServerFinishedHash out).processFinished out body with
    | .error e => .error e
    | .ok t => .ok { t with serverState := .finishHandshake, accepted := t.accepted ++ [s.finishedEvent body] }
  | _ => .error .handshakeFailure

/-- A message of the server's own: sent, and hashed. --/
def sendMessage (s : Session) (type : MessageType) : Except Status Session := do
  let octets ← out.send s type
  return s.handshakeHashUpdate out octets

/-- A server that verifies its clients asks for a certificate. One that does not has all the credentials it wants. --/
def askCertificate (s : Session) : Except Status Session :=
  if s.verifyClientCertificate = true then s.sendMessage out .certificateRequest
  else .ok { s with receivedRemoteCredentials := true }

/-- The flight from the ServerHello to the server's Finished. --/
def sendFlight (s : Session) : Except Status Session := do
  let s ← s.sendMessage out .serverHello
  let s := s.saveServerHelloHash out
  let keys ← out.generateHandshakeKeys s.serverHelloHash
  let s := { s with finishedKeys := keys, localSessionActive := true, remoteSessionActive := true }
  let s ← s.sendMessage out .encryptedExtensions
  let s ← s.askCertificate out
  let s ← s.sendMessage out .certificateMsg
  let s ← (s.saveCertificateHash out).sendMessage out .certificateVerify
  let s ← (s.saveServerFinishedHash out).sendMessage out .finished
  let s := s.saveServerFinishedHash out
  out.generateSessionKeys s
  out.sessionKeysSet s
  return { s with serverState := .helloSent }

/-- The actions that follow a message, by the state it left. --/
def serverActions (s : Session) : Except Status Session :=
  match s.serverState with
  | .sendHello => s.sendFlight out
  | .sendHelloRetry => s.sendMessage out .serverHello
  | .clientCertificate => .ok (s.saveCertificateHash out)
  | .certificateVerify => .ok s
  | .finishHandshake =>
    match out.sessionKeysSet s with
    | .error e => .error e
    | .ok () => .ok { s with serverState := .handshakeFinished }
  | _ => .error .invalidState

/-- One round of the loop: a whole message, hashed once it is accepted. --/
def serverRound : Round := fun s type message dataLength =>
  match s.serverMessage out type message (message.drop handshakeHeaderSize) dataLength with
  | .error e => .error e
  | .ok t => if t.tls13 = false then .ok t else (t.handshakeHashUpdate out message).serverActions out

/-- `_nx_secure_tls_1_3_server_handshake` --/
def serverHandshake (s : Session) (buffer : List UInt8) : Except Status (Session × Status) :=
  handshakeLoop (serverRound out) buffer.length s buffer

/-! ### Records -/

/-- The octets of a record join those that are kept of a message before it. Without a whole message none are read. --/
def assemble (s : Session) (payload : List UInt8) : Except Status (Session × Bool) :=
  let s := if s.fragmentReceived then s else { s with packetBuffer := [] }
  if s.packetBufferSize < s.packetBuffer.length + payload.length then .error .packetBufferTooSmall
  else
    let s := { s with packetBuffer := s.packetBuffer ++ payload }
    if s.fragmentReceived = false then .ok (s, true)
    else if s.expectedLength < s.packetBuffer.length ∧ s.expectedLength < handshakeHeaderSize then .error .invalidPacket
    else if s.expectedLength ≤ s.packetBuffer.length then
      .ok ({ s with fragmentReceived := false, expectedLength := 0 }, true)
    else .ok (s, false)

/-- A handshake record goes to the end's own machine, unless the client has finished. The machine of earlier versions is
    not part of this: a session that has left TLS 1.3 is not followed. --/
def dispatch (s : Session) : Except Status (Session × Status) :=
  if s.tls13 = false then .ok (s, .success)
  else if s.clientState = .handshakeFinished then .ok (s, .postHandshakeReceived)
  else
    match s.socketType with
    | .server => s.serverHandshake out s.packetBuffer
    | .client => s.clientHandshake out s.packetBuffer
    | .none => .error .invalidState

/-- `_nx_secure_tls_process_record` for the content of a handshake record, under `_nx_secure_tls_session_receive_records`,
    which ends the session with any error. --/
def receiveRecord (s : Session) (payload : List UInt8) : Session :=
  if s.socketType = .none then s
  else
    match s.assemble payload with
    | .error _ => s.reset
    | .ok (t, whole) =>
      if whole = false then t
      else
        match t.dispatch out with
        | .error _ => t.reset
        | .ok (u, _) => u

end Session

end Netxduo.Tls
