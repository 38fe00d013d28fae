import Netxduo.Secure.HandshakeFrame
import Netxduo.Library.Runs

/-! Whom an end has authenticated when its TLS 1.3 handshake is finished. -/

namespace Netxduo.Tls
open Fallible

open X509 (Certificate)

/-! ### What is asked for -/

/-- The verify data of the Finished is that of the peer, over all that was hashed before it. --/
def FinishedMatches (out : Outside) (fromServer : Bool) : Accepted → Prop
  | .finished (some size) keys before body => (out.finishedHash keys fromServer (out.hash before)).take size <+: body
  | _ => False

/-- After `first` came a Certificate with a chain that stands, a CertificateVerify under its key over the transcript up to
    it, and a matching Finished. --/
def PeerAuthenticated (out : Outside) (end_ : SocketType) (first accepted : List Accepted) : Prop :=
  ∃ endpoint remote message upTo body finished,
    (first ++ [Accepted.certificate endpoint remote message upTo, .certificateVerify body, finished]).Sublist accepted ∧
    message <:+ upTo ∧ out.chainVerify remote endpoint = .ok () ∧
    out.certificateVerify endpoint end_ (out.hash upTo) body = .ok () ∧ FinishedMatches out (decide (end_ = .client)) finished

/-- What a client has to have accepted before the Certificate. --/
def serverFirst : List Accepted := [.serverHello, .encryptedExtensions]

/-- A finished client has authenticated its server, and a finished server the client it was told to verify. --/
structure Authenticated (out : Outside) (s : Session) : Prop where
  client : s.socketType = .client → s.tls13 = true → s.clientState = .handshakeFinished →
    PeerAuthenticated out .client serverFirst s.accepted
  server : s.socketType = .server → s.tls13 = true → s.verifyClientCertificate = true →
    s.serverState = .handshakeFinished → PeerAuthenticated out .server [] s.accepted

/-! ### The order of the messages -/

def Accepted.isCertificate : Accepted → Bool
  | .certificate _ _ _ _ => true
  | _ => false

def Accepted.isCertificateVerify : Accepted → Bool
  | .certificateVerify _ => true
  | _ => false

namespace Session

/-- The message accepted last is a CertificateVerify. --/
def BehindCertificateVerify (s : Session) : Prop := s.accepted.getLast?.any Accepted.isCertificateVerify = true

instance (s : Session) : Decidable s.BehindCertificateVerify := inferInstanceAs (Decidable (_ = true))

/-- Where a client is to get the messages whose order it does not look at. --/
def ClientInOrder (s : Session) : MessageType → Prop
  | .certificateMsg => s.clientState = .encryptedExtensions ∨ s.clientState = .certificateRequest
  | .certificateVerify => s.clientState = .serverCertificate
  | .finished => s.clientState = .serverCertificate ∧ s.BehindCertificateVerify
  | _ => True

def ServerInOrder (s : Session) : MessageType → Prop
  | .certificateMsg => s.serverState = .helloSent
  | .certificateVerify => s.serverState = .clientCertificate
  | .finished => s.serverState = .certificateVerify
  | _ => True

instance (s : Session) (type : MessageType) : Decidable (s.ClientInOrder type) :=
  match type with
  | .certificateMsg => inferInstanceAs (Decidable (_ ∨ _))
  | .certificateVerify => inferInstanceAs (Decidable (_ = _))
  | .finished => inferInstanceAs (Decidable (_ ∧ _))
  | .helloRequest | .clientHello | .serverHello | .helloVerifyRequest | .newSessionTicket | .encryptedExtensions
  | .certificateRequest | .other => .isTrue trivial

instance (s : Session) (type : MessageType) : Decidable (s.ServerInOrder type) :=
  match type with
  | .certificateMsg | .certificateVerify | .finished => inferInstanceAs (Decidable (_ = _))
  | .helloRequest | .clientHello | .serverHello | .helloVerifyRequest | .newSessionTicket | .encryptedExtensions
  | .certificateRequest | .other => .isTrue trivial

/-- The handshake messages that a record brings to the machine of the end, each with the state it meets. --/
def received (out : Outside) (s : Session) (payload : List UInt8) : List (Session × MessageType) :=
  match s.assemble payload with
  | .ok (t, true) =>
    if t.tls13 = false ∨ t.clientState = .handshakeFinished then []
    else
      match t.socketType with
      | .client => arrivals (clientRounds out t.packetBuffer.length) t.packetBuffer.length t t.packetBuffer
      | .server => arrivals (serverRound out) t.packetBuffer.length t t.packetBuffer
      | .none => []
  | _ => []

/-- The messages of a record come in the order of the protocol. --/
def InOrder (out : Outside) (s : Session) (payload : List UInt8) : Prop :=
  ∀ a ∈ s.received out payload, (a.1.socketType = .client → a.1.ClientInOrder a.2) ∧
    (a.1.socketType = .server → a.1.verifyClientCertificate = true → a.1.ServerInOrder a.2)

instance (out : Outside) (s : Session) (payload : List UInt8) : Decidable (s.InOrder out payload) :=
  inferInstanceAs (Decidable (∀ a ∈ s.received out payload, _))

/-- A session that was just started, on either end. --/
structure Started (s : Session) : Prop where
  client : s.clientState = .idle
  server : s.serverState = .idle

/-! ### The invariant -/

structure Ready (s : Session) : Prop where
  active : s.localSessionActive = true
  hashSize : s.hashSize.isSome = true

end Session

/-- The peer's Certificate was accepted after `first`, and is the one a CertificateVerify is checked under. One that was
    accepted last was. --/
def CertificateHeld (out : Outside) (end_ : SocketType) (first : List Accepted) (s : Session) : Prop :=
  ∃ endpoint remote message upTo, (first ++ [Accepted.certificate endpoint remote message upTo]).Sublist s.accepted ∧
    message <:+ upTo ∧ out.chainVerify remote endpoint = .ok () ∧ s.certificateHash = out.hash upTo ∧
    (∃ held, s.remoteEndpointCertificateGet = some held ∧ held.certificate = endpoint) ∧
    ∀ body, s.accepted.getLast? = some (.certificateVerify body) →
      (first ++ [Accepted.certificate endpoint remote message upTo, .certificateVerify body]).Sublist s.accepted ∧
      out.certificateVerify endpoint end_ (out.hash upTo) body = .ok ()

/-- What the state of a client stands for. --/
def ClientStage (out : Outside) (s : Session) : Prop :=
  match s.clientState with
  | .serverHello => s.Ready ∧ [.serverHello].Sublist s.accepted
  | .encryptedExtensions => s.Ready ∧ serverFirst.Sublist s.accepted
  | .certificateRequest => s.Ready ∧ serverFirst.Sublist s.accepted
  | .serverCertificate => s.Ready ∧ CertificateHeld out .client serverFirst s
  | .handshakeFinished => PeerAuthenticated out .client serverFirst s.accepted
  | _ => True

/-- What the state of a server that verifies its clients stands for. --/
def ServerStage (out : Outside) (s : Session) : Prop :=
  match s.serverState with
  | .helloSent => s.hashSize.isSome = true
  | .clientCertificate => s.hashSize.isSome = true ∧ CertificateHeld out .server [] s
  | .certificateVerify => s.hashSize.isSome = true ∧ CertificateHeld out .server [] s ∧ s.BehindCertificateVerify
  | .handshakeFinished => PeerAuthenticated out .server [] s.accepted
  | _ => True

section
variable {out : Outside} {s t : Session} {end_ : SocketType} {first : List Accepted}

/-! ### One message -/

/-- A Certificate that is accepted is held from then on. --/
theorem held_of_certificate {body message : List UInt8} {n : Nat} {endpoint : Certificate} {remote : List Certificate}
    {u : Session} {upTo : List UInt8} (h : s.processRemoteCertificate out body n = .ok (t, endpoint, remote))
    (hfirst : first.Sublist s.accepted) (hupTo : message <:+ upTo)
    (haccepted : u.accepted = t.accepted ++ [.certificate endpoint remote message upTo])
    (hhash : u.certificateHash = out.hash upTo) (hremote : u.remoteCertificates = t.remoteCertificates) :
    CertificateHeld out end_ first u := by
  obtain ⟨hcore, _, hchain, held, hheld, hendpoint⟩ := processRemoteCertificate_ok h
  have hsame : t.accepted = s.accepted := congrArg Core.accepted hcore
  refine ⟨endpoint, remote, message, upTo, ?_, hupTo, hchain, hhash, ⟨held, ?_, hendpoint⟩, ?_⟩
  · rw [haccepted, hsame]
    exact hfirst.append (List.Sublist.refl _)
  · rw [← hheld]
    unfold Session.remoteEndpointCertificateGet
    rw [hremote]
  · intro verify hlast
    rw [haccepted, List.getLast?_concat] at hlast
    cases hlast

/-- A CertificateVerify that is accepted where a Certificate is held was checked under it. --/
theorem held_of_verify {body : List UInt8} {u : Session} (h : s.processCertificateVerify out body = .ok ())
    (hsocket : s.socketType = end_) (hheld : CertificateHeld out end_ first s)
    (haccepted : u.accepted = s.accepted ++ [.certificateVerify body]) (hhash : u.certificateHash = s.certificateHash)
    (hremote : u.remoteCertificates = s.remoteCertificates) : CertificateHeld out end_ first u := by
  obtain ⟨endpoint, remote, message, upTo, hshown, hupTo, hchain, hsaved, ⟨held, hget, hendpoint⟩, _⟩ := hheld
  obtain ⟨found, hfound, hverify⟩ := processCertificateVerify_ok h
  obtain rfl : held = found := Option.some.inj (hget.symm.trans hfound)
  refine ⟨endpoint, remote, message, upTo, ?_, hupTo, hchain, hhash.trans hsaved, ⟨held, ?_, hendpoint⟩, ?_⟩
  · rw [haccepted]
    exact hshown.trans (List.sublist_append_left _ _)
  · rw [← hget]
    unfold Session.remoteEndpointCertificateGet
    rw [hremote]
  · intro verify hlast
    rw [haccepted, List.getLast?_concat] at hlast
    obtain rfl : body = verify := by
      cases hlast
      rfl
    refine ⟨?_, ?_⟩
    · rw [haccepted]
      have hboth := hshown.append (List.Sublist.refl [Accepted.certificateVerify body])
      rwa [List.append_assoc] at hboth
    · rw [hendpoint, hsocket, hsaved] at hverify
      exact hverify

theorem behind_certificateVerify (h : s.BehindCertificateVerify) : ∃ body, s.accepted.getLast? = some (.certificateVerify body) := by
  unfold Session.BehindCertificateVerify at h
  cases hlast : s.accepted.getLast? with
  | none =>
    rw [hlast] at h
    cases h
  | some a =>
    rw [hlast] at h
    cases a with
    | certificateVerify body => exact ⟨body, rfl⟩
    | _ => cases h

/-- A Finished that is accepted behind a CertificateVerify completes the authentication. --/
theorem authenticated_of_finished {body : List UInt8} {accepted : List Accepted} (hsocket : s.socketType = end_)
    (h : (s.saveServerFinishedHash out).processFinished out body = .ok t) (hheld : CertificateHeld out end_ first s)
    (hbehind : s.BehindCertificateVerify) (hsize : s.hashSize.isSome = true)
    (haccepted : accepted = s.accepted ++ [s.finishedEvent body]) : PeerAuthenticated out end_ first accepted := by
  obtain ⟨endpoint, remote, message, upTo, _, hupTo, hchain, _, _, hlast⟩ := hheld
  obtain ⟨verify, hverify⟩ := behind_certificateVerify hbehind
  obtain ⟨hshown, hchecked⟩ := hlast verify hverify
  obtain ⟨hmatches, _⟩ := processFinished_ok h
  obtain ⟨size, hsize⟩ := Option.isSome_iff_exists.mp hsize
  refine ⟨endpoint, remote, message, upTo, verify, s.finishedEvent body, ?_, hupTo, hchain, hchecked, ?_⟩
  · rw [haccepted]
    have hall := hshown.append (List.Sublist.refl [s.finishedEvent body])
    rwa [List.append_assoc] at hall
  · have hgenerated : (s.saveServerFinishedHash out).generatedHash out =
        (out.finishedHash s.finishedKeys (decide (s.socketType = .client)) (out.hash s.handshakeHash)).take size := by
      unfold Session.generatedHash Session.saveServerFinishedHash
      simp only [hsize]
    rw [hgenerated, hsocket] at hmatches
    unfold Session.finishedEvent FinishedMatches
    simp only [hsize]
    exact hmatches

/-! ### One round of a client -/

/-- What a state stands for is kept where the state, what was accepted and the certificates are. --/
theorem ClientStage.of_core (hs : ClientStage out s) (hcore : t.core = s.core)
    (hheld : t.remoteCertificates = s.remoteCertificates ∧ t.certificateHash = s.certificateHash) : ClientStage out t := by
  have hstate : t.clientState = s.clientState := congrArg Core.clientState hcore
  have haccepted : t.accepted = s.accepted := congrArg Core.accepted hcore
  have hready : s.Ready → t.Ready := by
    rintro ⟨hactive, hsize⟩
    exact ⟨(congrArg Core.localSessionActive hcore).trans hactive, by rw [← hsize]; exact congrArg (·.hashSize.isSome) hcore⟩
  unfold ClientStage CertificateHeld Session.remoteEndpointCertificateGet at *
  rw [hstate, haccepted, hheld.1, hheld.2]
  cases hcase : s.clientState with
  | serverHello => rw [hcase] at hs; exact ⟨hready hs.1, hs.2⟩
  | encryptedExtensions => rw [hcase] at hs; exact ⟨hready hs.1, hs.2⟩
  | certificateRequest => rw [hcase] at hs; exact ⟨hready hs.1, hs.2⟩
  | serverCertificate => rw [hcase] at hs; exact ⟨hready hs.1, hs.2⟩
  | handshakeFinished => rw [hcase] at hs; exact hs
  | idle => trivial
  | error => trivial
  | helloRetry => trivial

/-- Before a message is looked at, the client stands where it stood. --/
theorem clientHash_stage (type : MessageType) (message : List UInt8) (hs : ClientStage out s) :
    ClientStage out (s.clientHash out type message) :=
  hs.of_core (core_clientHash type message) (clientHash_kept type message)

theorem processServerhello_ok {body : List UInt8} (h : s.processServerhello out body = .ok t) :
    t.socketType = s.socketType ∧ (t.tls13 = false ∨ t.clientState = .helloRetry ∨
      t.clientState = .serverHello ∧ t.hashSize.isSome = true ∧ [Accepted.serverHello].Sublist t.accepted) := by
  unfold Session.processServerhello at h
  dsimp only at h
  split at h
  · cases h
  · split at h
    · cases h
    · split at h
      · cases h
      · split at h
        · cases h
        · cases h
          exact ⟨rfl, .inr (.inl rfl)⟩
      · split at h
        · cases h
        · cases h
          exact ⟨rfl, .inl rfl⟩
      · cases h
        exact ⟨rfl, .inr (.inr ⟨rfl, rfl, List.sublist_append_right _ _⟩)⟩

/-- The actions behind a message that the client keeps its place by. --/
theorem clientActions_stage {message : List UInt8} (h : s.clientActions out message = .ok t)
    (hs : ClientStage out s) : ClientStage out t := by
  obtain ⟨hcore, hsame⟩ := clientActions_ok h
  by_cases hcertificate : s.clientState = .serverCertificate
  · rw [hsame hcertificate]
    exact hs
  · have hstate : t.clientState = s.clientState := congrArg Core.clientState hcore
    have haccepted : t.accepted = s.accepted := congrArg Core.accepted hcore
    have hready : s.Ready → t.Ready := by
      rintro ⟨hactive, hsize⟩
      refine ⟨(congrArg Core.localSessionActive hcore).trans ?_, by rw [← hsize]; exact congrArg (·.hashSize.isSome) hcore⟩
      show (s.localSessionActive || decide (s.clientState = .serverHello)) = true
      rw [hactive, Bool.true_or]
    unfold ClientStage at *
    rw [hstate, haccepted]
    cases hcase : s.clientState with
    | serverHello => rw [hcase] at hs; exact ⟨hready hs.1, hs.2⟩
    | encryptedExtensions => rw [hcase] at hs; exact ⟨hready hs.1, hs.2⟩
    | certificateRequest => rw [hcase] at hs; exact ⟨hready hs.1, hs.2⟩
    | serverCertificate => exact absurd hcase hcertificate
    | handshakeFinished => rw [hcase] at hs; exact hs
    | idle => trivial
    | error => trivial
    | helloRetry => trivial

/-- A client that is handed a message in order stands where its state says, save that a ServerHello has its keys still
    to come. --/
theorem clientMessage_stage {type : MessageType} {message body : List UInt8} {n : Nat} (hsocket : s.socketType = .client)
    (hs : ClientStage out s) (hin : s.ClientInOrder type) (hhashed : type = .certificateMsg → s.Ready → message <:+ s.handshakeHash)
    (h : s.clientMessage out type message body n = .ok t) :
    t.socketType = .client ∧ (t.tls13 = false ∨ ClientStage out t ∨
      t.clientState = .serverHello ∧ t.hashSize.isSome = true ∧ [Accepted.serverHello].Sublist t.accepted) := by
  unfold Session.clientMessage at h
  cases type with
  | serverHello =>
    obtain ⟨hsame, hleft | hretry | hhello⟩ := processServerhello_ok h
    · exact ⟨hsame.trans hsocket, .inl hleft⟩
    · refine ⟨hsame.trans hsocket, .inr (.inl ?_)⟩
      unfold ClientStage
      rw [hretry]
      trivial
    · exact ⟨hsame.trans hsocket, .inr (.inr hhello)⟩
  | encryptedExtensions =>
    dsimp only at h
    split at h
    · cases h
    · rename_i hstate
      split at h
      · cases h
      · cases h
        unfold ClientStage at hs
        rw [not_not.mp hstate] at hs
        obtain ⟨hready, hgreeted⟩ := hs
        refine ⟨hsocket, .inr (.inl ⟨⟨hready.active, hready.hashSize⟩, ?_⟩)⟩
        exact hgreeted.append (List.Sublist.refl [Accepted.encryptedExtensions])
  | certificateMsg =>
    dsimp only at h
    split at h
    · cases h
    · cases h
    · rename_i v endpoint remote hv
      obtain ⟨hcore, hhash, _⟩ := processRemoteCertificate_ok hv
      have hplace : s.Ready ∧ serverFirst.Sublist s.accepted := by
        unfold ClientStage at hs
        rcases hin with hin | hin
        · rw [hin] at hs
          exact hs
        · rw [hin] at hs
          exact hs
      obtain ⟨hready, hfirst⟩ := hplace
      have hsuffix : message <:+ v.handshakeHash := by
        rw [hhash]
        exact hhashed rfl hready
      have hstate : v.clientState = .serverCertificate := congrArg Core.clientState hcore
      cases h
      refine ⟨(congrArg Core.socketType hcore).trans hsocket, .inr (.inl ?_)⟩
      unfold ClientStage
      dsimp only [Session.saveCertificateHash]
      rw [hstate]
      refine ⟨⟨(congrArg Core.localSessionActive hcore).trans hready.active, ?_⟩,
        held_of_certificate hv hfirst hsuffix rfl rfl rfl⟩
      exact (congrArg (·.hashSize.isSome) hcore).trans hready.hashSize
  | certificateRequest =>
    dsimp only at h
    split at h
    · cases h
    · rename_i hstate
      split at h
      · cases h
      · cases h
        unfold ClientStage at hs
        rw [not_not.mp hstate] at hs
        exact ⟨hsocket, .inr (.inl ⟨⟨hs.1.active, hs.1.hashSize⟩, hs.2⟩)⟩
  | finished =>
    dsimp only at h
    split at h
    · cases h
    · rename_i v hv
      obtain ⟨hstate, hbehind⟩ := hin
      unfold ClientStage at hs
      rw [hstate] at hs
      obtain ⟨hready, hheld⟩ := hs
      obtain ⟨_, hcore⟩ := processFinished_ok hv
      have hcore' := (@core_handshakeHashUpdate out v message).trans hcore
      have haccepted : v.accepted = s.accepted := congrArg Core.accepted hcore
      cases h
      refine ⟨(congrArg Core.socketType hcore').trans hsocket, .inr (.inl ?_)⟩
      have hfinished : (v.handshakeHashUpdate out message).clientState = .handshakeFinished := by
        calc (v.handshakeHashUpdate out message).clientState
            = (if s.socketType = .client then ClientState.handshakeFinished else s.clientState) :=
              congrArg Core.clientState hcore'
          _ = .handshakeFinished := if_pos hsocket
      unfold ClientStage
      dsimp only
      rw [hfinished]
      exact authenticated_of_finished hsocket hv hheld hbehind hready.hashSize (by rw [haccepted])
  | certificateVerify =>
    dsimp only at h
    split at h
    · cases h
    · rename_i hverify
      cases h
      have hstate : s.clientState = .serverCertificate := hin
      unfold ClientStage at *
      dsimp only
      rw [hstate] at hs ⊢
      exact ⟨hsocket, .inr (.inl ⟨⟨hs.1.active, hs.1.hashSize⟩, held_of_verify hverify hsocket hs.2 rfl rfl rfl⟩)⟩
  | newSessionTicket =>
    cases h
    exact ⟨hsocket, .inr (.inl hs)⟩
  | helloRequest => cases h
  | clientHello => cases h
  | helloVerifyRequest => cases h
  | other => cases h

/-- An active client hashes a Certificate before it looks at it. --/
theorem clientHash_suffix {message : List UInt8} (hactive : s.localSessionActive = true)
    (hstate : s.clientState ≠ .helloRetry) (hsocket : s.socketType = .client) :
    message <:+ (s.clientHash out .certificateMsg message).handshakeHash := by
  unfold Session.clientHash
  rw [if_pos ⟨hactive, by decide, by decide, by decide⟩, handshakeHash_update (fun _ => hstate)]
  · exact List.suffix_append _ _
  · intro hserver
    rw [hsocket] at hserver
    cases hserver

theorem clientRound_stage {type : MessageType} {message : List UInt8} {n : Nat} (hsocket : s.socketType = .client)
    (hs : ClientStage out s) (hin : s.ClientInOrder type) (h : s.clientRound out type message n = .ok t) :
    t.socketType = .client ∧ (t.tls13 = true → ClientStage out t) := by
  unfold Session.clientRound at h
  have hcore := @core_clientHash out s type message
  have hstate : (s.clientHash out type message).clientState = s.clientState := congrArg Core.clientState hcore
  have haccepted : (s.clientHash out type message).accepted = s.accepted := congrArg Core.accepted hcore
  have hin' : (s.clientHash out type message).ClientInOrder type := by
    unfold Session.ClientInOrder Session.BehindCertificateVerify at *
    rw [hstate, haccepted]
    exact hin
  have hhashed : type = .certificateMsg → (s.clientHash out type message).Ready →
      message <:+ (s.clientHash out type message).handshakeHash := by
    rintro rfl hready
    refine clientHash_suffix ((congrArg Core.localSessionActive hcore).symm.trans hready.active) ?_ hsocket
    rcases hin with hin | hin
    · rw [hin]
      decide
    · rw [hin]
      decide
  split at h
  · cases h
  · rename_i v hv
    obtain ⟨hclient, hcases⟩ := clientMessage_stage ((congrArg Core.socketType hcore).trans hsocket)
      (clientHash_stage type message hs) hin' hhashed hv
    split at h
    · rename_i hleft
      cases h
      refine ⟨hclient, fun hstays => ?_⟩
      rw [hleft] at hstays
      cases hstays
    · rename_i hstays
      obtain ⟨hactions, _⟩ := clientActions_ok h
      refine ⟨(congrArg Core.socketType hactions).trans hclient, fun _ => ?_⟩
      rcases hcases with hleft | hstage | ⟨hhello, hsize, hgreeted⟩
      · exact absurd hleft hstays
      · exact clientActions_stage h hstage
      · have hstate' : t.clientState = .serverHello := (congrArg Core.clientState hactions).trans hhello
        unfold ClientStage
        rw [hstate']
        refine ⟨⟨(congrArg Core.localSessionActive hactions).trans ?_, ?_⟩, ?_⟩
        · show (v.localSessionActive || decide (v.clientState = .serverHello)) = true
          rw [hhello]
          exact Bool.or_true _
        · exact (congrArg (·.hashSize.isSome) hactions).trans hsize
        · rw [show t.accepted = v.accepted from congrArg Core.accepted hactions]
          exact hgreeted

/-! ### One round of a server -/

theorem ServerStage.of_core (hs : ServerStage out s) (hcore : t.core = s.core)
    (hheld : t.remoteCertificates = s.remoteCertificates ∧ t.certificateHash = s.certificateHash) : ServerStage out t := by
  have hstate : t.serverState = s.serverState := congrArg Core.serverState hcore
  have haccepted : t.accepted = s.accepted := congrArg Core.accepted hcore
  have hsize : t.hashSize = s.hashSize := congrArg Core.hashSize hcore
  unfold ServerStage CertificateHeld Session.remoteEndpointCertificateGet Session.BehindCertificateVerify at *
  rw [hstate, haccepted, hheld.1, hheld.2, hsize]
  exact hs

/-- The flight of the server leaves it waiting for the client. --/
theorem sendFlight_core (h : s.sendFlight out = .ok t) :
    t.core = { s.core with localSessionActive := true, serverState := .helloSent } := by
  unfold Session.sendFlight at h
  obtain ⟨hello, hhello, h⟩ := bind_ok.mp h
  obtain ⟨keys, _, h⟩ := bind_ok.mp h
  obtain ⟨extensions, hextensions, h⟩ := bind_ok.mp h
  obtain ⟨request, hrequest, h⟩ := bind_ok.mp h
  obtain ⟨certificate, hcertificate, h⟩ := bind_ok.mp h
  obtain ⟨verify, hverify, h⟩ := bind_ok.mp h
  obtain ⟨finished, hfinished, h⟩ := bind_ok.mp h
  obtain ⟨_, _, h⟩ := bind_ok.mp h
  obtain ⟨_, _, h⟩ := bind_ok.mp h
  cases h
  have hasked : request.core = extensions.core := by
    unfold Session.askCertificate at hrequest
    split at hrequest
    · exact sendMessage_core hrequest
    · cases hrequest
      rfl
  calc Session.core _ = { finished.core with serverState := .helloSent } := rfl
    _ = { (verify.saveServerFinishedHash out).core with serverState := .helloSent } := by rw [sendMessage_core hfinished]
    _ = { verify.core with serverState := .helloSent } := rfl
    _ = { (certificate.saveCertificateHash out).core with serverState := .helloSent } := by rw [sendMessage_core hverify]
    _ = { certificate.core with serverState := .helloSent } := rfl
    _ = { extensions.core with serverState := .helloSent } := by rw [sendMessage_core hcertificate, hasked]
    _ = { hello.core with localSessionActive := true, serverState := .helloSent } := by
      rw [sendMessage_core hextensions]
      rfl
    _ = { s.core with localSessionActive := true, serverState := .helloSent } := by rw [sendMessage_core hhello]

/-- A ClientHello leaves the server with an answer to send, or TLS 1.3. --/
theorem clientHello_ok {message body : List UInt8} {n : Nat}
    (h : s.serverMessage out .clientHello message body n = .ok t) :
    t.socketType = s.socketType ∧ t.verifyClientCertificate = s.verifyClientCertificate ∧
    (t.tls13 = false ∨ (t.serverState = .sendHelloRetry ∨ t.serverState = .sendHello) ∧ t.hashSize.isSome = true) := by
  unfold Session.serverMessage at h
  dsimp only at h
  split at h
  · cases h
  · cases h
    exact ⟨rfl, rfl, .inl rfl⟩
  · cases h
    exact ⟨rfl, rfl, .inr ⟨.inl rfl, rfl⟩⟩
  · cases h
    exact ⟨rfl, rfl, .inr ⟨.inr rfl, rfl⟩⟩

/-- The answer to a ClientHello. --/
theorem serverActions_hello (hstate : s.serverState = .sendHelloRetry ∨ s.serverState = .sendHello)
    (hsize : s.hashSize.isSome = true) (h : s.serverActions out = .ok t) :
    t.socketType = s.socketType ∧ t.verifyClientCertificate = s.verifyClientCertificate ∧ ServerStage out t := by
  unfold Session.serverActions at h
  rcases hstate with hstate | hstate
  · rw [hstate] at h
    have hcore := sendMessage_core h
    refine ⟨congrArg Core.socketType hcore, congrArg Core.verifyClientCertificate hcore, ?_⟩
    have hstate' : t.serverState = .sendHelloRetry := (congrArg Core.serverState hcore).trans hstate
    unfold ServerStage
    rw [hstate']
    trivial
  · rw [hstate] at h
    have hcore := sendFlight_core h
    refine ⟨congrArg Core.socketType hcore, congrArg Core.verifyClientCertificate hcore, ?_⟩
    unfold ServerStage
    rw [show t.serverState = .helloSent from congrArg Core.serverState hcore]
    exact (congrArg (·.hashSize.isSome) hcore).trans hsize

/-- A server that left TLS 1.3 has nothing to show. --/
theorem left_stage (hserver : t.socketType = .server) (hleft : t.tls13 = false) :
    t.socketType = .server ∧ (t.tls13 = true → t.verifyClientCertificate = true → ServerStage out t) := by
  refine ⟨hserver, fun hstays => ?_⟩
  rw [hleft] at hstays
  cases hstays

section rounds
variable {v : Session} {message : List UInt8} {n : Nat}

/-- Behind a client's certificate, the certificate is held. --/
theorem serverRound_certificate (hsocket : s.socketType = .server) (hs : s.verifyClientCertificate = true → ServerStage out s)
    (hin : s.verifyClientCertificate = true → s.ServerInOrder .certificateMsg)
    (hv : s.serverMessage out .certificateMsg message (message.drop handshakeHeaderSize) n = .ok v)
    (h : (if v.tls13 = false then .ok v else (v.handshakeHashUpdate out message).serverActions out) = .ok t) :
    t.socketType = .server ∧ (t.tls13 = true → t.verifyClientCertificate = true → ServerStage out t) := by
  have hkept := @handshakeHashUpdate_kept out v message
  have hhashed := @core_handshakeHashUpdate out v message
  unfold Session.serverMessage at hv
  dsimp only at hv
  split at hv
  · cases hv
  · cases hv
  · rename_i w endpoint remote hw
    obtain ⟨hcore, _⟩ := processRemoteCertificate_ok hw
    cases hv
    have hserver : w.socketType = .server := (congrArg Core.socketType hcore).trans hsocket
    split at h
    · rename_i hleft
      cases h
      exact left_stage hserver hleft
    · unfold Session.serverActions at h
      rw [show (Session.handshakeHashUpdate out _ message).serverState = .clientCertificate from
        congrArg Core.serverState hhashed] at h
      cases h
      refine ⟨(congrArg Core.socketType hhashed).trans hserver, fun _ hverifies => ?_⟩
      have hkeeps : w.verifyClientCertificate = s.verifyClientCertificate := congrArg Core.verifyClientCertificate hcore
      have hhashes : (Session.handshakeHashUpdate out _ message).verifyClientCertificate = w.verifyClientCertificate :=
        congrArg Core.verifyClientCertificate hhashed
      have hverifies' : s.verifyClientCertificate = true := hkeeps.symm.trans (hhashes.symm.trans hverifies)
      have hplace := hs hverifies'
      unfold ServerStage at hplace
      rw [show s.serverState = .helloSent from hin hverifies'] at hplace
      unfold ServerStage
      dsimp only [Session.saveCertificateHash]
      rw [show (Session.handshakeHashUpdate out _ message).serverState = .clientCertificate from
        congrArg Core.serverState hhashed]
      refine ⟨(congrArg (·.hashSize.isSome) hhashed).trans ((congrArg (·.hashSize.isSome) hcore).trans hplace), ?_⟩
      refine held_of_certificate hw (List.nil_sublist _) (List.suffix_append w.handshakeHash message) ?_ ?_ hkept.1
      · exact congrArg Core.accepted hhashed
      · dsimp only
        rw [handshakeHash_update]
        · rintro hclient
          rw [show w.socketType = .client from hclient] at hserver
          cases hserver
        · rintro _ ⟨⟩

/-- Behind its signature, the transcript up to it is. --/
theorem serverRound_verify (hsocket : s.socketType = .server) (hs : s.verifyClientCertificate = true → ServerStage out s)
    (hin : s.verifyClientCertificate = true → s.ServerInOrder .certificateVerify)
    (hv : s.serverMessage out .certificateVerify message (message.drop handshakeHeaderSize) n = .ok v)
    (h : (if v.tls13 = false then .ok v else (v.handshakeHashUpdate out message).serverActions out) = .ok t) :
    t.socketType = .server ∧ (t.tls13 = true → t.verifyClientCertificate = true → ServerStage out t) := by
  have hkept := @handshakeHashUpdate_kept out v message
  have hhashed := @core_handshakeHashUpdate out v message
  unfold Session.serverMessage at hv
  dsimp only at hv
  split at hv
  · cases hv
  · rename_i hverify
    cases hv
    split at h
    · rename_i hleft
      cases h
      exact left_stage hsocket hleft
    · unfold Session.serverActions at h
      rw [show (Session.handshakeHashUpdate out _ message).serverState = .certificateVerify from
        congrArg Core.serverState hhashed] at h
      cases h
      refine ⟨(congrArg Core.socketType hhashed).trans hsocket, fun _ hverifies => ?_⟩
      have hverifies' : s.verifyClientCertificate = true :=
        (congrArg Core.verifyClientCertificate hhashed).symm.trans hverifies
      have hplace := hs hverifies'
      unfold ServerStage at hplace
      rw [show s.serverState = .clientCertificate from hin hverifies'] at hplace
      obtain ⟨hsize, hheld⟩ := hplace
      unfold ServerStage
      rw [show (Session.handshakeHashUpdate out _ message).serverState = .certificateVerify from
        congrArg Core.serverState hhashed]
      have haccepted : (Session.handshakeHashUpdate out _ message).accepted = s.accepted ++ [.certificateVerify _] :=
        congrArg Core.accepted hhashed
      refine ⟨(congrArg (·.hashSize.isSome) hhashed).trans hsize,
        held_of_verify hverify hsocket hheld haccepted hkept.2 hkept.1, ?_⟩
      unfold Session.BehindCertificateVerify
      rw [haccepted, List.getLast?_concat]
      rfl

/-- Behind its Finished, the client is authenticated. --/
theorem serverRound_finished (hsocket : s.socketType = .server) (hs : s.verifyClientCertificate = true → ServerStage out s)
    (hin : s.verifyClientCertificate = true → s.ServerInOrder .finished)
    (hv : s.serverMessage out .finished message (message.drop handshakeHeaderSize) n = .ok v)
    (h : (if v.tls13 = false then .ok v else (v.handshakeHashUpdate out message).serverActions out) = .ok t) :
    t.socketType = .server ∧ (t.tls13 = true → t.verifyClientCertificate = true → ServerStage out t) := by
  have hhashed := @core_handshakeHashUpdate out v message
  unfold Session.serverMessage at hv
  dsimp only at hv
  split at hv
  · cases hv
  · rename_i w hw
    obtain ⟨_, hcore⟩ := processFinished_ok hw
    cases hv
    have hserver : w.socketType = .server := (congrArg Core.socketType hcore).trans hsocket
    split at h
    · rename_i hleft
      cases h
      exact left_stage hserver hleft
    · unfold Session.serverActions at h
      rw [show (Session.handshakeHashUpdate out _ message).serverState = .finishHandshake from
        congrArg Core.serverState hhashed] at h
      dsimp only at h
      split at h
      · cases h
      · cases h
        refine ⟨(congrArg Core.socketType hhashed).trans hserver, fun _ hverifies => ?_⟩
        have hkeeps : w.verifyClientCertificate = s.verifyClientCertificate := congrArg Core.verifyClientCertificate hcore
        have hhashes : (Session.handshakeHashUpdate out _ message).verifyClientCertificate = w.verifyClientCertificate :=
          congrArg Core.verifyClientCertificate hhashed
        have hverifies' : s.verifyClientCertificate = true := hkeeps.symm.trans (hhashes.symm.trans hverifies)
        have hplace := hs hverifies'
        unfold ServerStage at hplace
        rw [show s.serverState = .certificateVerify from hin hverifies'] at hplace
        obtain ⟨hsize, hheld, hbehind⟩ := hplace
        unfold ServerStage
        refine authenticated_of_finished hsocket hw hheld hbehind hsize ?_
        calc (Session.handshakeHashUpdate out _ message).accepted = w.accepted ++ [s.finishedEvent _] :=
              congrArg Core.accepted hhashed
          _ = s.accepted ++ [s.finishedEvent _] := by rw [show w.accepted = s.accepted from congrArg Core.accepted hcore]

end rounds

/-- A server that verifies its clients, handed a message in order, stands where its state says. --/
theorem serverRound_stage {type : MessageType} {message : List UInt8} {n : Nat} (hsocket : s.socketType = .server)
    (hs : s.verifyClientCertificate = true → ServerStage out s)
    (hin : s.verifyClientCertificate = true → s.ServerInOrder type) (h : Session.serverRound out s type message n = .ok t) :
    t.socketType = .server ∧ (t.tls13 = true → t.verifyClientCertificate = true → ServerStage out t) := by
  unfold Session.serverRound at h
  split at h
  · cases h
  · rename_i v hv
    have hhashed := @core_handshakeHashUpdate out v message
    cases type with
    | clientHello =>
      obtain ⟨hserver, _, hcases⟩ := clientHello_ok hv
      split at h
      · rename_i hleft
        cases h
        exact left_stage (hserver.trans hsocket) hleft
      · rename_i hstays
        obtain ⟨hstate, hsize⟩ := hcases.resolve_left hstays
        obtain ⟨hsame, _, hstage⟩ := serverActions_hello
          (by rw [show (v.handshakeHashUpdate out message).serverState = v.serverState from congrArg Core.serverState hhashed]
              exact hstate)
          ((congrArg (·.hashSize.isSome) hhashed).trans hsize) h
        exact ⟨hsame.trans ((congrArg Core.socketType hhashed).trans (hserver.trans hsocket)), fun _ _ => hstage⟩
    | certificateMsg => exact serverRound_certificate hsocket hs hin hv h
    | certificateVerify => exact serverRound_verify hsocket hs hin hv h
    | finished => exact serverRound_finished hsocket hs hin hv h
    | _ => cases hv

/-! ### Records and runs -/

/-- What every round keeps, under a condition on the message it meets, the loop keeps. --/
theorem handshakeLoop_ok {P : Session → Prop} {ok : Session → MessageType → Prop} {round : Session.Round} {fuel : Nat}
    {buffer : List UInt8} {status : Status}
    (hround : ∀ s type message rest t, s.tls13 = true → P s → ok s type → round s type message rest = .ok t → P t)
    (hfragment : ∀ s buffer n, P s → P (s.fragment buffer n)) (h13 : s.tls13 = true) (hs : P s)
    (hok : ∀ a ∈ Session.arrivals round fuel s buffer, ok a.1 a.2)
    (h : Session.handshakeLoop round fuel s buffer = .ok (t, status)) : P t := by
  induction fuel generalizing s buffer with
  | zero =>
    cases h
    exact hs
  | succ fuel ih =>
    unfold Session.handshakeLoop at h
    unfold Session.arrivals at hok
    by_cases hempty : buffer.length = 0
    · rw [if_pos hempty] at h
      cases h
      exact hs
    · rw [if_neg hempty] at h
      rcases X509.ok_or_error (processHandshakeHeader buffer) with ⟨e, hheader⟩ | ⟨⟨type, bodyLength⟩, hheader⟩
      · rw [hheader] at h
        cases h
      · rw [hheader] at h hok
        dsimp only at h hok
        by_cases hshort : buffer.length < bodyLength + handshakeHeaderSize
        · rw [if_pos hshort] at h
          cases h
          exact hfragment _ _ _ hs
        · rw [if_neg hshort] at h hok
          have hmeets := hok (s, type) List.mem_cons_self
          rcases X509.ok_or_error (round s type (buffer.take (bodyLength + handshakeHeaderSize))
            (buffer.length - (bodyLength + handshakeHeaderSize))) with ⟨e, hu⟩ | ⟨u, hu⟩
          · rw [hu] at h
            cases h
          · rw [hu] at h hok
            dsimp only at h hok
            have hkept := hround s type _ _ u h13 hs hmeets hu
            by_cases hleft : u.tls13 = false
            · rw [if_pos hleft] at h
              cases h
              exact hkept
            · rw [if_neg hleft] at h hok
              exact ih (Bool.of_not_eq_false hleft) hkept (fun a ha => hok a (List.mem_cons_of_mem _ ha)) h

/-- What holds of a session at every record. --/
structure Standing (out : Outside) (s : Session) : Prop where
  client : s.socketType = .client → s.tls13 = true → ClientStage out s
  server : s.socketType = .server → s.tls13 = true → s.verifyClientCertificate = true → ServerStage out s

theorem Standing.of_core (hs : Standing out s) (hcore : t.core = s.core)
    (hheld : t.remoteCertificates = s.remoteCertificates ∧ t.certificateHash = s.certificateHash) : Standing out t where
  client hsocket h13 := (hs.client ((congrArg Core.socketType hcore).symm.trans hsocket)
    ((congrArg Core.tls13 hcore).symm.trans h13)).of_core hcore hheld
  server hsocket h13 hverifies := (hs.server ((congrArg Core.socketType hcore).symm.trans hsocket)
    ((congrArg Core.tls13 hcore).symm.trans h13)
    ((congrArg Core.verifyClientCertificate hcore).symm.trans hverifies)).of_core hcore hheld

theorem Standing.reset : Standing out s.reset where
  client hsocket := by cases hsocket
  server hsocket := by cases hsocket

/-- Putting the octets of a record together touches nothing the order is told by. --/
theorem assemble_ok {payload : List UInt8} {whole : Bool} (h : s.assemble payload = .ok (t, whole)) :
    t.core = s.core ∧ t.remoteCertificates = s.remoteCertificates ∧ t.certificateHash = s.certificateHash := by
  unfold Session.assemble at h
  by_cases hfragment : s.fragmentReceived = true
  · rw [if_pos hfragment] at h
    dsimp only at h
    split at h
    · cases h
    · split at h
      · cases h
        exact ⟨rfl, rfl, rfl⟩
      · split at h
        · cases h
        · split at h
          · cases h
            exact ⟨rfl, rfl, rfl⟩
          · cases h
            exact ⟨rfl, rfl, rfl⟩
  · rw [if_neg hfragment] at h
    dsimp only at h
    split at h
    · cases h
    · split at h
      · cases h
        exact ⟨rfl, rfl, rfl⟩
      · split at h
        · cases h
        · split at h
          · cases h
            exact ⟨rfl, rfl, rfl⟩
          · cases h
            exact ⟨rfl, rfl, rfl⟩

theorem clientHandshake_standing {status : Status} {buffer : List UInt8} (hsocket : s.socketType = .client)
    (h13 : s.tls13 = true) (hs : Standing out s)
    (hok : ∀ a ∈ Session.arrivals (Session.clientRounds out buffer.length) buffer.length s buffer,
      a.1.socketType = .client → a.1.ClientInOrder a.2)
    (h : s.clientHandshake out buffer = .ok (t, status)) : Standing out t := by
  let P (s : Session) := s.socketType = .client ∧ (s.tls13 = true → ClientStage out s)
  let ok (s : Session) (type : MessageType) := s.socketType = .client → s.ClientInOrder type
  have hround : ∀ s type message rest t, s.tls13 = true → P s → ok s type →
      Session.clientRounds out buffer.length s type message rest = .ok t → P t := by
    rintro s type message _ t h13 ⟨hclient, hstage⟩ hin h
    exact clientRound_stage hclient (hstage h13) (hin hclient) h
  have hfragment : ∀ s buffer n, P s → P (s.fragment buffer n) := by
    rintro s _ _ ⟨hclient, hstage⟩
    exact ⟨hclient, fun h13 => (hstage h13).of_core rfl ⟨rfl, rfl⟩⟩
  obtain ⟨hclient, hstage⟩ := handshakeLoop_ok hround hfragment h13 ⟨hsocket, hs.client hsocket⟩ hok h
  refine ⟨fun _ => hstage, fun hserver => ?_⟩
  rw [hclient] at hserver
  cases hserver

theorem serverHandshake_standing {status : Status} {buffer : List UInt8} (hsocket : s.socketType = .server)
    (h13 : s.tls13 = true) (hs : Standing out s)
    (hok : ∀ a ∈ Session.arrivals (Session.serverRound out) buffer.length s buffer,
      a.1.socketType = .server → a.1.verifyClientCertificate = true → a.1.ServerInOrder a.2)
    (h : s.serverHandshake out buffer = .ok (t, status)) : Standing out t := by
  let P (s : Session) := s.socketType = .server ∧ (s.tls13 = true → s.verifyClientCertificate = true → ServerStage out s)
  let ok (s : Session) (type : MessageType) := s.socketType = .server → s.verifyClientCertificate = true → s.ServerInOrder type
  have hround : ∀ s type message rest t, s.tls13 = true → P s → ok s type →
      Session.serverRound out s type message rest = .ok t → P t := by
    rintro s type message _ t h13 ⟨hserver, hstage⟩ hin h
    exact serverRound_stage hserver (hstage h13) (hin hserver) h
  have hfragment : ∀ s buffer n, P s → P (s.fragment buffer n) := by
    rintro s _ _ ⟨hserver, hstage⟩
    exact ⟨hserver, fun h13 hverifies => (hstage h13 hverifies).of_core rfl ⟨rfl, rfl⟩⟩
  obtain ⟨hserver, hstage⟩ := handshakeLoop_ok hround hfragment h13 ⟨hsocket, hs.server hsocket⟩ hok h
  refine ⟨fun hclient => ?_, fun _ => hstage⟩
  rw [hserver] at hclient
  cases hclient

/-- A record whose messages come in order leaves the session standing. --/
theorem receiveRecord_standing {payload : List UInt8} (hs : Standing out s) (hok : s.InOrder out payload) :
    Standing out (s.receiveRecord out payload) := by
  unfold Session.receiveRecord
  unfold Session.InOrder Session.received at hok
  split
  · exact hs
  · split
    · exact .reset
    · rename_i u whole hassembled
      obtain ⟨hcore, hheld⟩ := assemble_ok hassembled
      have hu := hs.of_core hcore hheld
      rw [hassembled] at hok
      cases whole with
      | false => exact hu
      | true =>
        rw [if_neg Bool.true_eq_false_eq_False]
        dsimp only at hok
        split
        · exact .reset
        · rename_i v status hv
          unfold Session.dispatch at hv
          split at hv
          · cases hv
            exact hu
          · rename_i h13
            split at hv
            · cases hv
              exact hu
            · rename_i hunfinished
              rw [if_neg (not_or.mpr ⟨h13, hunfinished⟩)] at hok
              cases hsocket : u.socketType with
              | none =>
                rw [hsocket] at hv
                cases hv
              | client =>
                rw [hsocket] at hv hok
                exact clientHandshake_standing hsocket (Bool.of_not_eq_false h13) hu (fun a ha => (hok a ha).1) hv
              | server =>
                rw [hsocket] at hv hok
                exact serverHandshake_standing hsocket (Bool.of_not_eq_false h13) hu (fun a ha => (hok a ha).2) hv

theorem Standing.authenticated (hs : Standing out s) : Authenticated out s where
  client hsocket h13 hfinished := by
    have hstage := hs.client hsocket h13
    unfold ClientStage at hstage
    rwa [hfinished] at hstage
  server hsocket h13 hverifies hfinished := by
    have hstage := hs.server hsocket h13 hverifies
    unfold ServerStage at hstage
    rwa [hfinished] at hstage

theorem Session.Started.standing (hs : s.Started) : Standing out s where
  client _ _ := by
    unfold ClientStage
    rw [hs.client]
    trivial
  server _ _ _ := by
    unfold ServerStage
    rw [hs.server]
    trivial

open Runs in
/-- In every run whose messages come in the order of the protocol, an end that is finished has authenticated its peer. --/
theorem finished_authenticated (out : Outside) (s₀ : Session) (hstarted : s₀.Started) (records : List (List UInt8))
    (s : Session) (h : Run (Session.receiveRecord out) (Session.InOrder out) s₀ records s) : Authenticated out s := by
  have hs : Standing out s :=
    h.invariant (P := fun _ s => Standing out s) hstarted.standing (fun _ _ _ hs hok => receiveRecord_standing hs hok)
  exact hs.authenticated

end

/-! ### A client and a server -/

/-- Small stand-ins: a hash of two octets, one certificate with a chain, and its data as the signature of its key. --/
def plainOutside : Outside where
  serverHello _ _ := .ok (.hello 2)
  clientHello _ _ := .ok (.hello 2)
  encryptedExtensions _ _ := .ok ()
  certificateRequest _ _ := .ok ()
  certificateParse raw := .ok (X509.plainCertificate raw raw raw)
  chainVerify _ endpoint := if endpoint.certificateData = [7] then .ok () else .error (.outside 0)
  certificateVerify endpoint _ _ body := if body.drop 4 = endpoint.certificateData then .ok () else .error (.outside 0)
  hash octets := [octets.sum, UInt8.ofNat octets.length]
  generateHandshakeKeys transcript := .ok transcript
  finishedHash keys fromServer transcript := [keys.sum + transcript.sum, if fromServer then 1 else 2]
  generateSessionKeys _ := .ok ()
  sessionKeysSet _ := .ok ()
  send _ _ := .ok [0]
  localCertificate := false
  sizeofX509Cert := 8

def startedSession (socketType : SocketType) (verifyClientCertificate : Bool) : Session where
  socketType := socketType
  tls13 := true
  clientState := .idle
  serverState := .idle
  localSessionActive := false
  remoteSessionActive := false
  hashSize := none
  clientCertificateRequested := false
  verifyClientCertificate := verifyClientCertificate
  receivedRemoteCredentials := false
  freeCertificates := []
  remoteCertificates := []
  handshakeCache := []
  handshakeHash := []
  serverHelloHash := []
  certificateHash := []
  serverFinishedHash := []
  finishedKeys := []
  packetBuffer := []
  packetBufferSize := 200
  packetBufferOriginalSize := 200
  fragmentReceived := false
  expectedLength := 0
  accepted := []

def helloRecord (type : UInt8) : List UInt8 := [type, 0, 0, 38] ++ List.replicate 38 0

/-- The server's messages in order: two of them in one record, and one in two records. --/
def serverRecords : List (List UInt8) :=
  [helloRecord 2, [8, 0, 0, 2, 0, 0, 11, 0, 0, 10, 0, 0, 0, 6, 0, 0, 1, 7, 0, 0], [15, 0, 0, 5, 8, 4], [0, 1, 7],
    [20, 0, 0, 2, 22, 1]]

open Runs

/-- A client whose server keeps to the order finishes, and has authenticated it. --/
theorem finished_authenticated_server : ∃ s, Run (Session.receiveRecord plainOutside) (Session.InOrder plainOutside)
    (startedSession .client false) serverRecords s ∧ s.clientState = .handshakeFinished ∧ Authenticated plainOutside s := by
  have hrun := ((((@Run.start _ _ (Session.receiveRecord plainOutside) (Session.InOrder plainOutside)
    (startedSession .client false)).next (a := helloRecord 2) (by decide +kernel)).next
    (a := [8, 0, 0, 2, 0, 0, 11, 0, 0, 10, 0, 0, 0, 6, 0, 0, 1, 7, 0, 0]) (by decide +kernel)).next
    (a := [15, 0, 0, 5, 8, 4]) (by decide +kernel)).next (a := [0, 1, 7]) (by decide +kernel)
  have hlast := hrun.next (a := [20, 0, 0, 2, 22, 1]) (by decide +kernel)
  exact ⟨_, hlast, by decide +kernel, finished_authenticated plainOutside _ ⟨rfl, rfl⟩ serverRecords _ hlast⟩

/-- Without a Certificate there is nothing authenticated. --/
theorem not_authenticated {out : Outside} {end_ : SocketType} {first accepted : List Accepted}
    (h : accepted.any Accepted.isCertificate = false) : ¬PeerAuthenticated out end_ first accepted := by
  rintro ⟨endpoint, remote, message, upTo, body, finished, hshown, _⟩
  have hmem := hshown.subset (List.mem_append_right _ List.mem_cons_self)
  exact absurd rfl (List.any_eq_false.mp h _ hmem)

/-- A client that is sent a ServerHello and a Finished is finished, and so is a server, told to verify its clients, that is
    sent a ClientHello and a Finished. Neither has seen a certificate. --/
theorem finished_unauthenticated :
    (∃ s, Run (Session.receiveRecord plainOutside) (fun _ _ => True) (startedSession .client false)
      [helloRecord 2, [20, 0, 0, 2, 164, 1]] s ∧ s.clientState = .handshakeFinished ∧ ¬Authenticated plainOutside s) ∧
    ∃ s, Run (Session.receiveRecord plainOutside) (fun _ _ => True) (startedSession .server true)
      [helloRecord 1, [20, 0, 0, 2, 169, 2]] s ∧ s.serverState = .handshakeFinished ∧ ¬Authenticated plainOutside s := by
  have hclient := ((@Run.start _ _ (Session.receiveRecord plainOutside) (fun _ _ => True)
    (startedSession .client false)).next (a := helloRecord 2) trivial).next (a := [20, 0, 0, 2, 164, 1]) trivial
  have hserver := ((@Run.start _ _ (Session.receiveRecord plainOutside) (fun _ _ => True)
    (startedSession .server true)).next (a := helloRecord 1) trivial).next (a := [20, 0, 0, 2, 169, 2]) trivial
  refine ⟨⟨_, hclient, by decide +kernel, fun h => ?_⟩, _, hserver, by decide +kernel, fun h => ?_⟩
  · exact not_authenticated (by decide +kernel) (h.client (by decide +kernel) (by decide +kernel) (by decide +kernel))
  · exact not_authenticated (by decide +kernel)
      (h.server (by decide +kernel) (by decide +kernel) (by decide +kernel) (by decide +kernel))

end Netxduo.Tls
