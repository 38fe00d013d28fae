import Netxduo.Secure.Handshake

/-! The client's side of the TLS 1.3 handshake. -/

namespace Netxduo.Tls

variable (out : Outside)

namespace Session

/-- `_nx_secure_tls_process_serverhello`, and the check for a downgrade behind it. --/
def processServerhello (s : Session) (body : List UInt8) : Except Status Session :=
  let oldClientState := s.clientState
  let s := { s with clientState := .idle }
  if body.length < 38 then .error .incorrectMessageLength
  else if s.tls13 = true ∧ s.localSessionActive = true then .error .unexpectedMessage
  else
    match out.serverHello s body with
    | .error e => .error e
    | .ok (.helloRetryRequest hashSize) =>
      if oldClientState = .helloRetry then .error .unrecognizedMessageType
      else
        .ok { s with clientState := .helloRetry, hashSize := some hashSize,
                     handshakeHash := if oldClientState = .idle then [] else s.handshakeHash }
    | .ok (.olderVersion downgradeSentinel) =>
      if downgradeSentinel then .error .downgradeDetected else .ok { s with tls13 := false }
    | .ok (.hello hashSize) =>
      .ok { s with clientState := .serverHello, hashSize := some hashSize,
                   handshakeHash := if oldClientState = .idle then [] else s.handshakeHash,
                   accepted := s.accepted ++ [.serverHello] }

/-- The cached ClientHello is hashed as soon as the hash of the suite is known. --/
def hashCache (s : Session) : Session :=
  if s.handshakeCache.length = 0 then s else { s.handshakeHashUpdate out s.handshakeCache with handshakeCache := [] }

/-- The message is read by its type. Its own length is that of the record it came in, for the certificates. --/
def clientMessage (s : Session) (type : MessageType) (message body : List UInt8) (packetBufferLength : Nat) :
    Except Status Session :=
  match type with
  | .serverHello => s.processServerhello out body
  | .encryptedExtensions =>
    if s.clientState ≠ .serverHello then .error .handshakeFailure
    else
      match out.encryptedExtensions s body with
      | .error e => .error e
      | .ok () => .ok { s with clientState := .encryptedExtensions, accepted := s.accepted ++ [.encryptedExtensions] }
  | .certificateMsg =>
    match s.processRemoteCertificate out body packetBufferLength with
    | .error .emptyRemoteCertificateReceived => .error .incorrectMessageLength
    | .error e => .error e
    | .ok (t, endpoint, remote) =>
      .ok { t.saveCertificateHash out with accepted := t.accepted ++ [.certificate endpoint remote message t.handshakeHash] }
  | .certificateRequest =>
    if s.clientState ≠ .encryptedExtensions then .error .handshakeFailure
    else
      match out.certificateRequest s body with
      | .error e => .error e
      | .ok () => .ok { s with clientState := .certificateRequest }
  | .finished =>
    match (s.saveServerFinishedHash out).processFinished out body with
    | .error e => .error e
    | .ok t => .ok { t.handshakeHashUpdate out message with accepted := t.accepted ++ [s.finishedEvent body] }
  | .certificateVerify =>
    match s.processCertificateVerify out body with
    | .error e => .error e
    | .ok () => .ok { s with accepted := s.accepted ++ [.certificateVerify body] }
  | .newSessionTicket => .ok s
  | _ => .error .handshakeFailure

/-- The certificate the server asked for, and the proof of its key. The flag is cleared where there is none. --/
def sendClientCertificate (s : Session) : Except Status Session :=
  if s.clientCertificateRequested = false then .ok s
  else
    match out.send s .certificateMsg with
    | .error e => .error e
    | .ok certificate =>
      let s := (s.handshakeHashUpdate out certificate).saveCertificateHash out
      if out.localCertificate = false then .ok { s with clientCertificateRequested := false }
      else
        match out.send s .certificateVerify with
        | .error e => .error e
        | .ok verify => .ok { s.handshakeHashUpdate out verify with clientCertificateRequested := false }

/-- What a client does once it has the server's Finished. --/
def clientFinish (s : Session) : Except Status Session := do
  let s ← (s.saveServerFinishedHash out).sendClientCertificate out
  out.generateSessionKeys s
  out.sessionKeysSet s
  let s := s.saveServerFinishedHash out
  let finished ← out.send s .finished
  let s := s.handshakeHashUpdate out finished
  out.sessionKeysSet s
  out.generateSessionKeys s
  return s

/-- The actions that follow a message, by the state it left. --/
def clientActions (s : Session) (message : List UInt8) : Except Status Session :=
  match s.clientState with
  | .idle => .ok s
  | .error => .error .handshakeFailure
  | .helloRetry =>
    let s := (s.hashCache out).handshakeHashUpdate out message
    match out.send s .clientHello with
    | .error e => .error e
    | .ok clientHello => .ok { s with handshakeCache := clientHello }
  | .serverHello =>
    let s := (((s.hashCache out).handshakeHashUpdate out message).saveServerHelloHash out)
    match out.generateHandshakeKeys s.serverHelloHash with
    | .error e => .error e
    | .ok keys => .ok { s with finishedKeys := keys, localSessionActive := true, remoteSessionActive := true }
  | .encryptedExtensions => .ok s
  | .serverCertificate => .ok s
  | .certificateRequest => .ok { s with clientCertificateRequested := true }
  | .handshakeFinished => s.clientFinish out

/-- Every message but the Finished is hashed before it is read, once the session is active. --/
def clientHash (s : Session) (type : MessageType) (message : List UInt8) : Session :=
  if s.localSessionActive = true ∧ type ≠ .helloRequest ∧ type ≠ .helloVerifyRequest ∧ type ≠ .finished then
    s.handshakeHashUpdate out message
  else s

/-- One round of the loop: a whole message, its header included. --/
def clientRound (s : Session) (type : MessageType) (message : List UInt8) (packetBufferLength : Nat) :
    Except Status Session :=
  match (s.clientHash out type message).clientMessage out type message (message.drop handshakeHeaderSize)
      packetBufferLength with
  | .error e => .error e
  | .ok t => if t.tls13 = false then .ok t else t.clientActions out message

/-- `_nx_secure_tls_1_3_client_handshake` --/
def clientRounds (packetBufferLength : Nat) : Round := fun s type message _ =>
  s.clientRound out type message packetBufferLength

def clientHandshake (s : Session) (buffer : List UInt8) : Except Status (Session × Status) :=
  handshakeLoop (clientRounds out buffer.length) buffer.length s buffer

end Session

end Netxduo.Tls
