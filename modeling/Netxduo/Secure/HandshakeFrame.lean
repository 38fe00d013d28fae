import Netxduo.Secure.ServerHandshake
import Netxduo.Library.Fallible

/-! What a round of either end does to the state, with what it leaves as it was. -/

namespace Netxduo.Tls
open Fallible

/-- What the order of the messages is told by. --/
structure Core where
  socketType : SocketType
  tls13 : Bool
  clientState : ClientState
  serverState : ServerState
  localSessionActive : Bool
  hashSize : Option Nat
  verifyClientCertificate : Bool
  accepted : List Accepted

def Session.core (s : Session) : Core where
  socketType := s.socketType
  tls13 := s.tls13
  clientState := s.clientState
  serverState := s.serverState
  localSessionActive := s.localSessionActive
  hashSize := s.hashSize
  verifyClientCertificate := s.verifyClientCertificate
  accepted := s.accepted

section
variable {out : Outside} {s t : Session}

/-! ### The transcript -/

@[simp] theorem core_handshakeHashUpdate (data : List UInt8) : (s.handshakeHashUpdate out data).core = s.core := by
  unfold Session.handshakeHashUpdate
  dsimp only
  split <;> rfl

@[simp] theorem core_saveServerFinishedHash : (s.saveServerFinishedHash out).core = s.core := rfl
@[simp] theorem core_saveCertificateHash : (s.saveCertificateHash out).core = s.core := rfl
@[simp] theorem core_saveServerHelloHash : (s.saveServerHelloHash out).core = s.core := rfl
@[simp] theorem core_remoteCertificateFreeAll : s.remoteCertificateFreeAll.core = s.core := rfl

@[simp] theorem core_hashCache : (s.hashCache out).core = s.core := by
  unfold Session.hashCache
  split
  · rfl
  · exact core_handshakeHashUpdate _

@[simp] theorem core_clientHash (type : MessageType) (message : List UInt8) :
    (s.clientHash out type message).core = s.core := by
  unfold Session.clientHash
  split
  · exact core_handshakeHashUpdate _
  · rfl

/-- No certificate comes and goes with the transcript. --/
theorem handshakeHashUpdate_kept (data : List UInt8) : (s.handshakeHashUpdate out data).remoteCertificates = s.remoteCertificates ∧
    (s.handshakeHashUpdate out data).certificateHash = s.certificateHash := by
  unfold Session.handshakeHashUpdate
  dsimp only
  split <;> exact ⟨rfl, rfl⟩

theorem clientHash_kept (type : MessageType) (message : List UInt8) :
    (s.clientHash out type message).remoteCertificates = s.remoteCertificates ∧
    (s.clientHash out type message).certificateHash = s.certificateHash := by
  unfold Session.clientHash
  split
  · exact handshakeHashUpdate_kept message
  · exact ⟨rfl, rfl⟩

/-- Outside a retry, the octets of a message are put behind the others. --/
theorem handshakeHash_update {message : List UInt8} (hclient : s.socketType = .client → s.clientState ≠ .helloRetry)
    (hserver : s.socketType = .server → s.serverState ≠ .sendHelloRetry) :
    (s.handshakeHashUpdate out message).handshakeHash = s.handshakeHash ++ message := by
  unfold Session.handshakeHashUpdate
  dsimp only
  rw [if_neg]
  rintro ⟨hretry, _⟩
  unfold Session.helloRetryProcess at hretry
  cases hsocket : s.socketType with
  | none =>
    rw [hsocket] at hretry
    cases hretry
  | server =>
    rw [hsocket] at hretry
    exact hserver hsocket (of_decide_eq_true hretry)
  | client =>
    rw [hsocket] at hretry
    exact hclient hsocket (of_decide_eq_true hretry)

/-! ### Certificates -/

theorem certificateAdd_frame {certBufSize left : Nat} {raw : List UInt8}
    (h : s.certificateAdd out certBufSize raw = .ok (t, left)) : t.core = s.core ∧ t.handshakeHash = s.handshakeHash := by
  unfold Session.certificateAdd at h
  split at h
  · split at h
    · cases h
    · split at h
      · cases h
      · cases h
        exact ⟨rfl, rfl⟩
  · split at h
    · cases h
    · split at h
      · cases h
      · cases h
        exact ⟨rfl, rfl⟩

/-- Taking the certificates in changes the stores only. --/
theorem certificateEntries_frame {fuel certBufSize : Nat} {entries : List UInt8}
    (h : s.certificateEntries out fuel certBufSize entries = .ok t) :
    t.core = s.core ∧ t.handshakeHash = s.handshakeHash := by
  induction fuel generalizing s certBufSize entries with
  | zero =>
    cases h
    exact ⟨rfl, rfl⟩
  | succ fuel ih =>
    unfold Session.certificateEntries at h
    split at h
    · cases h
      exact ⟨rfl, rfl⟩
    · split at h
      · cases h
      · split at h
        · cases h
        · rename_i hadd
          obtain ⟨hcore, hhash⟩ := ih h
          obtain ⟨hcore', hhash'⟩ := certificateAdd_frame hadd
          exact ⟨hcore.trans hcore', hhash.trans hhash'⟩

theorem remoteCertificateVerify_ok {endpoint : RemoteCertificate} (h : s.remoteCertificateVerify out = .ok (t, endpoint)) :
    s.remoteEndpointCertificateGet = some endpoint ∧
    out.chainVerify (s.remoteCertificates.map (·.certificate)) endpoint.certificate = .ok () ∧
    t.core = s.core ∧ t.handshakeHash = s.handshakeHash ∧ t.remoteCertificates = s.remoteCertificates := by
  unfold Session.remoteCertificateVerify at h
  split at h
  · cases h
  · rename_i found hfound
    split at h
    · cases h
    · rename_i hchain
      split at h
      · obtain ⟨rfl, rfl⟩ := Prod.mk.inj (Except.ok.inj h)
        exact ⟨hfound, hchain, rfl, rfl, rfl⟩
      · obtain ⟨rfl, rfl⟩ := Prod.mk.inj (Except.ok.inj h)
        exact ⟨hfound, hchain, rfl, rfl, rfl⟩

theorem endpointKeep_ok {endpoint : RemoteCertificate} {n : Nat} (h : s.endpointKeep out endpoint n = .ok t) :
    t.core = s.core ∧ t.handshakeHash = s.handshakeHash ∧
    ∃ kept, t.remoteEndpointCertificateGet = some kept ∧ kept.certificate = endpoint.certificate := by
  unfold Session.endpointKeep at h
  dsimp only at h
  split at h
  · cases h
    exact ⟨rfl, rfl, _, rfl, rfl⟩
  · split at h
    · cases h
    · cases h
      exact ⟨rfl, rfl, _, rfl, rfl⟩

/-- A Certificate that is accepted has a chain that stands, and its endpoint is the one found from then on. --/
theorem processRemoteCertificate_ok {body : List UInt8} {n : Nat} {endpoint : X509.Certificate}
    {remote : List X509.Certificate} (h : s.processRemoteCertificate out body n = .ok (t, endpoint, remote)) :
    t.core = { s.core with clientState := .serverCertificate } ∧ t.handshakeHash = s.handshakeHash ∧
    out.chainVerify remote endpoint = .ok () ∧
    ∃ kept, t.remoteEndpointCertificateGet = some kept ∧ kept.certificate = endpoint := by
  unfold Session.processRemoteCertificate at h
  split at h
  · cases h
  · split at h
    · cases h
    · split at h
      · cases h
      · rename_i received hreceived
        obtain ⟨hcore, hhash⟩ := certificateEntries_frame hreceived
        split at h
        · cases h
        · rename_i verified found hverified
          obtain ⟨hfound, hchain, hcore', hhash', hremote⟩ := remoteCertificateVerify_ok hverified
          dsimp only at h
          split at h
          · obtain ⟨rfl, hrest⟩ := Prod.mk.inj (Except.ok.inj h)
            obtain ⟨rfl, rfl⟩ := Prod.mk.inj hrest
            refine ⟨?_, hhash'.trans hhash, hchain, found, ?_, rfl⟩
            · rw [← hcore, ← hcore']
              rfl
            · rw [← hfound]
              unfold Session.remoteEndpointCertificateGet
              simp only [hremote]
          · split at h
            · cases h
            · rename_i kept hkept
              obtain ⟨hcore'', hhash'', hget⟩ := endpointKeep_ok hkept
              obtain ⟨rfl, hrest⟩ := Prod.mk.inj (Except.ok.inj h)
              obtain ⟨rfl, rfl⟩ := Prod.mk.inj hrest
              refine ⟨?_, (hhash''.trans hhash').trans hhash, hchain, hget⟩
              rw [← hcore, ← hcore', ← hcore'']
              rfl

/-- A CertificateVerify is checked under the key of the endpoint, over the hash saved with its Certificate. --/
theorem processCertificateVerify_ok {body : List UInt8} (h : s.processCertificateVerify out body = .ok ()) :
    ∃ endpoint, s.remoteEndpointCertificateGet = some endpoint ∧
      out.certificateVerify endpoint.certificate s.socketType s.certificateHash body = .ok () := by
  unfold Session.processCertificateVerify at h
  split at h
  · cases h
  · split at h
    · cases h
    · rename_i endpoint hendpoint
      exact ⟨endpoint, hendpoint, h⟩

theorem processFinished_ok {body : List UInt8} (h : s.processFinished out body = .ok t) :
    s.generatedHash out <+: body ∧
    t.core = { s.core with clientState := if s.socketType = .client then .handshakeFinished else s.clientState } := by
  unfold Session.processFinished at h
  split at h
  · cases h
  · rename_i hdiffers
    obtain ⟨_, hsame⟩ := not_or.mp hdiffers
    refine ⟨List.prefix_iff_eq_take.mpr (not_not.mp hsame).symm, ?_⟩
    cases h
    by_cases hclient : s.socketType = .client
    · dsimp only
      rw [if_pos hclient, if_pos hclient]
      rfl
    · dsimp only
      rw [if_neg hclient, if_neg hclient]
      rfl

/-! ### What an end sends -/

theorem sendClientCertificate_core (h : s.sendClientCertificate out = .ok t) : t.core = s.core := by
  unfold Session.sendClientCertificate at h
  split at h
  · cases h
    rfl
  · split at h
    · cases h
    · rename_i certificate _
      dsimp only at h
      split at h
      · cases h
        exact core_handshakeHashUpdate certificate
      · split at h
        · cases h
        · rename_i verify _
          cases h
          exact (core_handshakeHashUpdate verify).trans (core_handshakeHashUpdate certificate)

theorem clientFinish_core (h : s.clientFinish out = .ok t) : t.core = s.core := by
  unfold Session.clientFinish at h
  obtain ⟨u, hu, h⟩ := bind_ok.mp h
  obtain ⟨_, _, h⟩ := bind_ok.mp h
  obtain ⟨_, _, h⟩ := bind_ok.mp h
  obtain ⟨finished, _, h⟩ := bind_ok.mp h
  obtain ⟨_, _, h⟩ := bind_ok.mp h
  obtain ⟨_, _, h⟩ := bind_ok.mp h
  cases h
  calc Session.core _ = (u.saveServerFinishedHash out).core := core_handshakeHashUpdate finished
    _ = u.core := rfl
    _ = (s.saveServerFinishedHash out).core := sendClientCertificate_core hu
    _ = s.core := rfl

/-- The actions of a client: the session is made active behind a ServerHello, and nothing else is told apart by them. --/
theorem clientActions_ok {message : List UInt8} (h : s.clientActions out message = .ok t) :
    t.core = { s.core with localSessionActive := s.localSessionActive || decide (s.clientState = .serverHello) } ∧
    (s.clientState = .serverCertificate → t = s) := by
  unfold Session.clientActions at h
  cases hstate : s.clientState with
  | idle =>
    rw [hstate] at h
    cases h
    exact ⟨by simp [Session.core], by rintro ⟨⟩⟩
  | error =>
    rw [hstate] at h
    cases h
  | helloRetry =>
    rw [hstate] at h
    dsimp only at h
    split at h
    · cases h
    · cases h
      refine ⟨?_, by rintro ⟨⟩⟩
      calc Session.core _ = ((s.hashCache out).handshakeHashUpdate out message).core := rfl
        _ = s.core := (core_handshakeHashUpdate message).trans core_hashCache
        _ = _ := by simp [Session.core]
  | serverHello =>
    rw [hstate] at h
    dsimp only at h
    split at h
    · cases h
    · cases h
      refine ⟨?_, by rintro ⟨⟩⟩
      calc Session.core _ = { ((s.hashCache out).handshakeHashUpdate out message).core with localSessionActive := true } := rfl
        _ = { s.core with localSessionActive := true } := by rw [(core_handshakeHashUpdate message).trans core_hashCache]
        _ = _ := by simp
  | encryptedExtensions =>
    rw [hstate] at h
    cases h
    exact ⟨by simp [Session.core], by rintro ⟨⟩⟩
  | certificateRequest =>
    rw [hstate] at h
    cases h
    exact ⟨by simp [Session.core, hstate], by rintro ⟨⟩⟩
  | serverCertificate =>
    rw [hstate] at h
    cases h
    exact ⟨by simp [Session.core], fun _ => rfl⟩
  | handshakeFinished =>
    rw [hstate] at h
    refine ⟨?_, by rintro ⟨⟩⟩
    rw [clientFinish_core h]
    simp [Session.core]

theorem sendMessage_core {type : MessageType} (h : s.sendMessage out type = .ok t) : t.core = s.core := by
  unfold Session.sendMessage at h
  obtain ⟨octets, _, h⟩ := bind_ok.mp h
  cases h
  exact core_handshakeHashUpdate octets

end

end Netxduo.Tls
