import Netxduo.Secure.ChainVerify

/-! The TLS 1.3 handshake: its messages, the state of a session, and the certificates a peer sends. -/

namespace Netxduo.Tls

open X509 (Certificate distinguishedNameCompare)

/-! ### Messages -/

inductive Status
  | success
  | continue
  | incorrectMessageLength
  | handshakeFailure
  | handshakeFragmentReceived
  | packetBufferTooSmall
  | invalidPacket
  | invalidState
  | unexpectedMessage
  | unrecognizedMessageType
  | downgradeDetected
  | finishedHashFailure
  | emptyRemoteCertificateReceived
  | certificateRequired
  | certificateNotFound
  | insufficientCertSpace
  | noCertSpaceAllocated
  | postHandshakeReceived
  | recordOverflow
  | hashMacVerifyFailure
  | notSuccessful
  | alertReceived
  | outside (code : Nat)
deriving DecidableEq, Repr

inductive MessageType
  | helloRequest
  | clientHello
  | serverHello
  | helloVerifyRequest
  | newSessionTicket
  | encryptedExtensions
  | certificateMsg
  | certificateRequest
  | certificateVerify
  | finished
  | other
deriving DecidableEq, Repr

def MessageType.ofOctet (o : UInt8) : MessageType :=
  if o = 0 then .helloRequest
  else if o = 1 then .clientHello
  else if o = 2 then .serverHello
  else if o = 3 then .helloVerifyRequest
  else if o = 4 then .newSessionTicket
  else if o = 8 then .encryptedExtensions
  else if o = 11 then .certificateMsg
  else if o = 13 then .certificateRequest
  else if o = 15 then .certificateVerify
  else if o = 20 then .finished
  else .other

def handshakeHeaderSize : Nat := 4

/-- Three octets, the highest first. --/
def uint24 (a b c : UInt8) : Nat := a.toNat * 65536 + b.toNat * 256 + c.toNat

/-- `_nx_secure_tls_process_handshake_header`: the type and the length of the body. --/
def processHandshakeHeader : List UInt8 → Except Status (MessageType × Nat)
  | t :: a :: b :: c :: _ => .ok (MessageType.ofOctet t, uint24 a b c)
  | _ => .error .incorrectMessageLength

/-! ### The session -/

inductive SocketType
  | none
  | server
  | client
deriving DecidableEq, Repr

inductive ClientState
  | idle
  | error
  | helloRetry
  | serverHello
  | encryptedExtensions
  | certificateRequest
  | serverCertificate
  | handshakeFinished
deriving DecidableEq, Repr

inductive ServerState
  | idle
  | error
  | sendHello
  | sendHelloRetry
  | helloSent
  | clientCertificate
  | certificateVerify
  | finishHandshake
  | handshakeFinished
deriving DecidableEq, Repr

/-- A certificate of the peer: the room it was given, and whether the application gave it. --/
structure RemoteCertificate where
  certificate : Certificate
  rawLength : Nat
  rawBufferSize : Nat
  userAllocated : Bool
deriving DecidableEq, Repr

/-- What the end has accepted from its peer, kept for the statements only: no function reads it. --/
inductive Accepted
  | serverHello
  | encryptedExtensions
  /-- The endpoint, the certificates it came with, the message, and all that was hashed up to it. --/
  | certificate (endpoint : Certificate) (remote : List Certificate) (message upTo : List UInt8)
  | certificateVerify (body : List UInt8)
  /-- The length of the suite's hash, the finished keys, all that was hashed before, and the verify data. --/
  | finished (hashSize : Option Nat) (keys before body : List UInt8)
deriving DecidableEq, Repr

structure Session where
  socketType : SocketType
  tls13 : Bool
  clientState : ClientState
  serverState : ServerState
  localSessionActive : Bool
  remoteSessionActive : Bool
  /-- The length of the hash of the suite, once one is chosen. --/
  hashSize : Option Nat
  clientCertificateRequested : Bool
  verifyClientCertificate : Bool
  receivedRemoteCredentials : Bool
  freeCertificates : List Nat
  remoteCertificates : List RemoteCertificate
  handshakeCache : List UInt8
  /-- The octets that went into the handshake hash. --/
  handshakeHash : List UInt8
  serverHelloHash : List UInt8
  certificateHash : List UInt8
  serverFinishedHash : List UInt8
  finishedKeys : List UInt8
  packetBuffer : List UInt8
  packetBufferSize : Nat
  packetBufferOriginalSize : Nat
  fragmentReceived : Bool
  expectedLength : Nat
  accepted : List Accepted
deriving DecidableEq, Repr

/-- What the server said in a ServerHello. --/
inductive ServerHello
  | helloRetryRequest (hashSize : Nat)
  | olderVersion (downgradeSentinel : Bool)
  | hello (hashSize : Nat)
deriving DecidableEq, Repr

inductive ClientHello
  | helloRetry (hashSize : Nat)
  | olderVersion
  | hello (hashSize : Nat)
deriving DecidableEq, Repr

/-- What the handshake leaves to others: the parsers, the cryptography, and the sending of messages. --/
structure Outside where
  serverHello : Session → List UInt8 → Except Status ServerHello
  clientHello : Session → List UInt8 → Except Status ClientHello
  encryptedExtensions : Session → List UInt8 → Except Status Unit
  certificateRequest : Session → List UInt8 → Except Status Unit
  certificateParse : List UInt8 → Except Status Certificate
  /-- The chain from the endpoint through the peer's other certificates to the trusted store. --/
  chainVerify : List Certificate → Certificate → Except Status Unit
  certificateVerify : Certificate → SocketType → List UInt8 → List UInt8 → Except Status Unit
  hash : List UInt8 → List UInt8
  generateHandshakeKeys : List UInt8 → Except Status (List UInt8)
  /-- The verify data of the server, or of the client, under the finished keys. --/
  finishedHash : List UInt8 → Bool → List UInt8 → List UInt8
  generateSessionKeys : Session → Except Status Unit
  sessionKeysSet : Session → Except Status Unit
  /-- The octets of a message that was sent, or why it was not. --/
  send : Session → MessageType → Except Status (List UInt8)
  localCertificate : Bool
  sizeofX509Cert : Nat

variable (out : Outside)

namespace Session

def helloRetryProcess (s : Session) : Bool :=
  match s.socketType with
  | .server => decide (s.serverState = .sendHelloRetry)
  | .client => decide (s.clientState = .helloRetry)
  | .none => false

/-- `_nx_secure_tls_handshake_hash_update`: the ClientHello before a retry is replaced by its hash. --/
def handshakeHashUpdate (s : Session) (data : List UInt8) : Session :=
  let octets := s.handshakeHash ++ data
  if s.helloRetryProcess = true ∧ data.head?.map MessageType.ofOctet = some .clientHello ∧ handshakeHeaderSize < data.length then
    { s with handshakeHash := [254, 0, 0, UInt8.ofNat (s.hashSize.getD 0)] ++ out.hash octets }
  else { s with handshakeHash := octets }

/-- `_nx_secure_tls_1_3_transcript_hash_save`, for the places that are read again. --/
def saveServerHelloHash (s : Session) : Session := { s with serverHelloHash := out.hash s.handshakeHash }
def saveCertificateHash (s : Session) : Session := { s with certificateHash := out.hash s.handshakeHash }
def saveServerFinishedHash (s : Session) : Session := { s with serverFinishedHash := out.hash s.handshakeHash }

/-- `_nx_secure_tls_session_reset` --/
def reset (s : Session) : Session :=
  { s with socketType := .none, clientState := .idle, serverState := .idle, localSessionActive := false,
           remoteSessionActive := false, hashSize := none, receivedRemoteCredentials := false,
           remoteCertificates := [], handshakeCache := [] }

/-! ### The certificates of the peer -/

/-- `_nx_secure_x509_remote_endpoint_certificate_get`: the first that issued none of them, or the last. --/
def endpointGet (list : List RemoteCertificate) : List RemoteCertificate → Option RemoteCertificate
  | [] => none
  | [c] => some c
  | c :: rest =>
    if list.any (fun d => distinguishedNameCompare c.certificate.distinguishedName d.certificate.issuer) then
      endpointGet list rest
    else some c

def remoteEndpointCertificateGet (s : Session) : Option RemoteCertificate :=
  endpointGet s.remoteCertificates s.remoteCertificates

/-- `_nx_secure_tls_remote_certificate_free_all` --/
def remoteCertificateFreeAll (s : Session) : Session :=
  { s with packetBufferSize := s.packetBufferOriginalSize, remoteCertificates := [],
           freeCertificates := s.freeCertificates ++ (s.remoteCertificates.filter (·.userAllocated)).map (·.rawBufferSize) }

/-- One entry of the certificate list: the certificate behind its length, and what follows its extensions. --/
def certificateEntry : List UInt8 → Except Status (List UInt8 × List UInt8)
  | a :: b :: c :: rest =>
    if rest.length < uint24 a b c then .error .incorrectMessageLength
    else
      match rest.drop (uint24 a b c) with
      | x :: y :: behind =>
        if behind.length < x.toNat * 256 + y.toNat then .error .incorrectMessageLength
        else .ok (rest.take (uint24 a b c), behind.drop (x.toNat * 256 + y.toNat))
      | _ => .error .incorrectMessageLength
  | _ => .error .incorrectMessageLength

/-- The certificate is given room, by the application or at the end of the packet buffer, parsed, and added. --/
def certificateAdd (s : Session) (certBufSize : Nat) (raw : List UInt8) : Except Status (Session × Nat) :=
  match s.freeCertificates with
  | room :: free =>
    if room < raw.length then .error .insufficientCertSpace
    else
      match out.certificateParse raw with
      | .error e => .error e
      | .ok certificate =>
        .ok ({ s with freeCertificates := free,
                      remoteCertificates := s.remoteCertificates ++ [⟨certificate, raw.length, room, true⟩] }, certBufSize)
  | [] =>
    if certBufSize < out.sizeofX509Cert then .error .insufficientCertSpace
    else
      match out.certificateParse raw with
      | .error e => .error e
      | .ok certificate =>
        .ok ({ s with remoteCertificates := s.remoteCertificates ++ [⟨certificate, raw.length, raw.length, false⟩] },
          certBufSize - out.sizeofX509Cert)

def certificateEntries : Nat → Session → Nat → List UInt8 → Except Status Session
  | 0, s, _, _ => .ok s
  | fuel + 1, s, certBufSize, entries =>
    if entries.length = 0 then .ok s
    else
      match certificateEntry entries with
      | .error e => .error e
      | .ok (raw, rest) =>
        match s.certificateAdd out certBufSize raw with
        | .error e => .error e
        | .ok (t, left) => certificateEntries fuel t left rest

/-- The list of certificates in a message: behind the context, and filling what is left of it. --/
def certificateList (body : List UInt8) : Except Status (List UInt8) :=
  match body with
  | [] => .error .incorrectMessageLength
  | contextLength :: rest =>
    if rest.length < contextLength.toNat then .error .incorrectMessageLength
    else
      match rest.drop contextLength.toNat with
      | a :: b :: c :: entries =>
        if uint24 a b c ≠ entries.length then .error .incorrectMessageLength
        else if entries.length = 0 then .error .emptyRemoteCertificateReceived
        else .ok entries
      | _ => .error .incorrectMessageLength

/-- `_nx_secure_tls_remote_certificate_verify`: a client has the credentials once the chain stands. --/
def remoteCertificateVerify (s : Session) : Except Status (Session × RemoteCertificate) :=
  match s.remoteEndpointCertificateGet with
  | none => .error .noCertSpaceAllocated
  | some endpoint =>
    match out.chainVerify (s.remoteCertificates.map (·.certificate)) endpoint.certificate with
    | .error e => .error e
    | .ok () =>
      if s.socketType = .client then .ok ({ s with receivedRemoteCredentials := true }, endpoint) else .ok (s, endpoint)

/-- The endpoint is copied out of the packet buffer, and the rest of the chain let go. --/
def endpointKeep (s : Session) (endpoint : RemoteCertificate) (dataLength : Nat) : Except Status Session :=
  let s := s.remoteCertificateFreeAll
  match s.freeCertificates with
  | room :: free =>
    .ok { s with freeCertificates := free, remoteCertificates := [⟨endpoint.certificate, endpoint.rawLength, room, true⟩] }
  | [] =>
    if s.packetBufferSize - dataLength - out.sizeofX509Cert < endpoint.rawLength then .error .insufficientCertSpace
    else
      .ok { s with packetBufferSize := s.packetBufferSize - (out.sizeofX509Cert + endpoint.rawLength),
                   remoteCertificates := [⟨endpoint.certificate, endpoint.rawLength, endpoint.rawLength, false⟩] }

/-- `_nx_secure_tls_process_remote_certificate`, with the endpoint it found and the certificates it came with. --/
def processRemoteCertificate (s : Session) (body : List UInt8) (dataLength : Nat) :
    Except Status (Session × Certificate × List Certificate) :=
  if s.packetBufferSize < dataLength then .error .packetBufferTooSmall
  else
    match certificateList body with
    | .error e => .error e
    | .ok entries =>
      match certificateEntries out entries.length s (s.packetBufferSize - dataLength) entries with
      | .error e => .error e
      | .ok received =>
        match received.remoteCertificateVerify out with
        | .error e => .error e
        | .ok (verified, endpoint) =>
          let remote := received.remoteCertificates.map (·.certificate)
          if endpoint.userAllocated then
            .ok ({ verified with clientState := .serverCertificate }, endpoint.certificate, remote)
          else
            match verified.endpointKeep out endpoint dataLength with
            | .error e => .error e
            | .ok kept => .ok ({ kept with clientState := .serverCertificate }, endpoint.certificate, remote)

/-- `_nx_secure_tls_process_certificate_verify`, against the transcript hash saved with the certificate. --/
def processCertificateVerify (s : Session) (body : List UInt8) : Except Status Unit :=
  if body.length < 4 then .error .incorrectMessageLength
  else
    match s.remoteEndpointCertificateGet with
    | none => .error .certificateNotFound
    | some endpoint => out.certificateVerify endpoint.certificate s.socketType s.certificateHash body

/-- The verify data a Finished is compared with. Before a suite is chosen there is none, and nothing is compared. --/
def generatedHash (s : Session) : List UInt8 :=
  match s.hashSize with
  | none => []
  | some size => (out.finishedHash s.finishedKeys (decide (s.socketType = .client)) s.serverFinishedHash).take size

/-- `_nx_secure_tls_process_finished`, its TLS 1.3 part: the status of the hash is not looked at. --/
def processFinished (s : Session) (body : List UInt8) : Except Status Session :=
  if body.length < (s.generatedHash out).length ∨ body.take (s.generatedHash out).length ≠ s.generatedHash out then
    .error .finishedHashFailure
  else
    let s := if s.socketType = .client then { s with clientState := .handshakeFinished } else s
    .ok s.remoteCertificateFreeAll

/-- What is written down of a Finished. --/
def finishedEvent (s : Session) (body : List UInt8) : Accepted :=
  .finished s.hashSize s.finishedKeys s.handshakeHash body

/-! ### The loop over the messages of a record -/

/-- The message at the end of the buffer is not all there: it is kept, at the start of the buffer. --/
def fragment (s : Session) (buffer : List UInt8) (bodyLength : Nat) : Session :=
  { s with packetBuffer := buffer, fragmentReceived := true, expectedLength := bodyLength + handshakeHeaderSize }

/-- What an end does with one whole message: its type, its octets, and how many octets stand behind it. --/
abbrev Round := Session → MessageType → List UInt8 → Nat → Except Status Session

/-- The loop of both ends. It stops early once the session is not one of TLS 1.3. --/
def handshakeLoop (round : Round) : Nat → Session → List UInt8 → Except Status (Session × Status)
  | 0, s, _ => .ok (s, .success)
  | fuel + 1, s, buffer =>
    if buffer.length = 0 then .ok (s, .success)
    else
      match processHandshakeHeader buffer with
      | .error e => .error e
      | .ok (type, bodyLength) =>
        let messageLength := bodyLength + handshakeHeaderSize
        if buffer.length < messageLength then .ok (s.fragment buffer bodyLength, .handshakeFragmentReceived)
        else
          match round s type (buffer.take messageLength) (buffer.length - messageLength) with
          | .error e => .error e
          | .ok t =>
            if t.tls13 = false then .ok (t, .success) else handshakeLoop round fuel t (buffer.drop messageLength)

/-- The messages the loop comes to, each with the state it meets. --/
def arrivals (round : Round) : Nat → Session → List UInt8 → List (Session × MessageType)
  | 0, _, _ => []
  | fuel + 1, s, buffer =>
    match processHandshakeHeader buffer with
    | .error _ => []
    | .ok (type, bodyLength) =>
      let messageLength := bodyLength + handshakeHeaderSize
      if buffer.length < messageLength then []
      else
        (s, type) :: match round s type (buffer.take messageLength) (buffer.length - messageLength) with
          | .error _ => []
          | .ok t => if t.tls13 = false then [] else arrivals round fuel t (buffer.drop messageLength)

end Session

end Netxduo.Tls
