import Mathlib
import Netxduo.Secure.Validity
import Netxduo.Secure.NameConstraints

/-! The walk from a certificate to the trusted store, and the path it stands for. -/

namespace Netxduo.X509

/-! ### The source -/

structure CertificateStore where
  trustedCertificates : List Certificate
  localCertificates : List Certificate
  remoteCertificates : List Certificate

inductive CertLocation
  | none
  | trusted
  | localDevice
  | remote
deriving DecidableEq, Repr

def maxVerifyDepth : Nat := 10

/-- `_nx_secure_x509_distinguished_name_field_compare`, whether it returns zero. --/
def distinguishedNameFieldCompare (field1 : List UInt8) (length1 : Nat) (field2 : List UInt8) (length2 : Nat) : Bool :=
  if length1 = length2 then
    if length1 = 0 then true else decide (field1.take length1 = field2.take length1)
  else false

/-- `_nx_secure_x509_distinguished_name_compare`, whether it returns zero. --/
def distinguishedNameCompare (name compareName : DistinguishedName) : Bool :=
  distinguishedNameFieldCompare name.commonName name.commonNameLength compareName.commonName compareName.commonNameLength

/-- `_nx_secure_x509_certificate_list_find` --/
def certificateListFind (list : List Certificate) (name : DistinguishedName) : Option Certificate :=
  list.find? (fun currentCert => distinguishedNameCompare name currentCert.distinguishedName)

/-- `_nx_secure_x509_store_certificate_find` --/
def storeCertificateFind (store : CertificateStore) (name : DistinguishedName) :
    Except X509Error (Certificate × CertLocation) :=
  match certificateListFind store.trustedCertificates name with
  | some certificate => .ok (certificate, .trusted)
  | none =>
    match certificateListFind store.localCertificates name with
    | some certificate => .ok (certificate, .localDevice)
    | none =>
      match certificateListFind store.remoteCertificates name with
      | some certificate => .ok (certificate, .remote)
      | none => .error .certificateNotFound

/-- `_nx_secure_x509_extension_policy_check` --/
def extensionPolicyCheck (certificate leafCertificate : Certificate) (depth : Nat) : Except X509Error Unit :=
  match nameConstraintsCheck certificate leafCertificate with
  | .ok () => if depth = 0 then .error .nameConstraintUnsupported else criticalExtensionsCheck certificate true
  | .error e => if e ≠ .extensionNotFound then .error e else criticalExtensionsCheck certificate false

/-- What is left open: the signature check, and whether NX_SECURE_ALLOW_SELF_SIGNED_CERTIFICATES is defined. --/
structure Verifier where
  certificateVerify : Certificate → Certificate → Bool
  allowSelfSigned : Bool

/-- The policy and the validity of one certificate. --/
def certificateCheck (currentCertificate leaf : Certificate) (depth : Nat) (currentTime : UInt32) : Except X509Error Unit :=
  match extensionPolicyCheck currentCertificate leaf depth with
  | .error e => .error e
  | .ok () => if currentTime ≠ 0 then expirationCheck currentCertificate currentTime else .ok ()

/-- The issuer by name, if it is one that may issue. --/
def issuerFind (store : CertificateStore) (currentCertificate : Certificate) (depth : Nat) :
    Except X509Error (Certificate × CertLocation) :=
  match storeCertificateFind store currentCertificate.issuer with
  | .error _ => .error .issuerCertificateNotFound
  | .ok (issuer, location) =>
    match basicConstraintsExtensionParse issuer with
    | .error _ => .error .invalidCaCertificate
    | .ok (issuerIsCa, issuerPathLength) =>
      if issuerIsCa = false then .error .invalidCaCertificate
      else if issuerPathLength.any (· < depth) then .error .invalidCaCertificate
      else .ok (issuer, location)

/-- The name constraints of the anchor, which is never the current certificate. --/
def anchorCheck (issuer leaf : Certificate) : Except X509Error Unit :=
  match nameConstraintsCheck issuer leaf with
  | .ok () => .ok ()
  | .error e => if e ≠ .extensionNotFound then .error e else .ok ()

/-- The end of a chain at a self-signed certificate. --/
def selfSignedEnd (store : CertificateStore) (currentCertificate : Certificate) : Except X509Error Unit :=
  match storeCertificateFind store currentCertificate.distinguishedName with
  | .ok (_, .trusted) => .ok ()
  | .ok (_, _) => .error .chainVerifyFailure
  | .error _ => .error .chainVerifyFailure

/-- The loop, and nothing when the fuel runs out. An issuer that was looked up is not the certificate itself, because
their names differ. --/
def chainVerifyLoop (v : Verifier) (store : CertificateStore) (leaf : Certificate) (currentTime : UInt32) :
    Nat → Certificate → CertLocation → Nat → Option (Except X509Error Unit)
  | 0, _, _, _ => none
  | fuel + 1, currentCertificate, issuerLocation, depth =>
    if depth > maxVerifyDepth then some (.error .chainTooLong)
    else
      match certificateCheck currentCertificate leaf depth currentTime with
      | .error e => some (.error e)
      | .ok () =>
        if distinguishedNameCompare currentCertificate.distinguishedName currentCertificate.issuer = false then
          match issuerFind store currentCertificate depth with
          | .error e => some (.error e)
          | .ok (issuer, issuerLocation) =>
            if v.certificateVerify currentCertificate issuer = false then some (.error .certificateSigCheckFailed)
            else if issuerLocation = .trusted then some (anchorCheck issuer leaf)
            else chainVerifyLoop v store leaf currentTime fuel issuer issuerLocation (depth + 1)
        else if v.allowSelfSigned = false then some (.error .invalidSelfSignedCert)
        else if v.certificateVerify currentCertificate currentCertificate = false then
          some (.error .certificateSigCheckFailed)
        else if issuerLocation = .trusted then some (anchorCheck currentCertificate leaf)
        else some (selfSignedEnd store currentCertificate)

/-- `_nx_secure_x509_certificate_chain_verify` --/
def certificateChainVerify (v : Verifier) (store : CertificateStore) (certificate : Certificate) (currentTime : UInt32) :
    Option (Except X509Error Unit) :=
  chainVerifyLoop v store certificate currentTime (maxVerifyDepth + 2) certificate .none 0

/-! ### The path -/

/-- The certificate names itself as its issuer. --/
def Certificate.SelfIssued (c : Certificate) : Prop := distinguishedNameCompare c.distinguishedName c.issuer = true

/-- The extension is one that is acted on, for this certificate. --/
def Enforced (c leaf : Certificate) (oid : List UInt8) : Prop :=
  oid ∈ [oidBasicConstraints, oidKeyUsage, oidSubjectAltName, oidExtendedKeyUsage] ∨
    (oid = oidNameConstraints ∧ nameConstraintsCheck c leaf = .ok ())

/-- One link of a path: the `i`-th certificate and the one that issued it. --/
structure Link (v : Verifier) (store : CertificateStore) (leaf : Certificate) (time : UInt32) (i : Nat)
    (c issuer : Certificate) : Prop where
  found : ∃ location, storeCertificateFind store c.issuer = .ok (issuer, location)
  signed : v.certificateVerify c issuer = true
  authority : (v.allowSelfSigned = true → ¬c.SelfIssued) →
    ∃ value, issuer.Carries oidBasicConstraints value ∧ AssertsAuthority value i
  valid : c.ValidAt time
  enforced : ∀ oid, c.MarksCritical oid → Enforced c leaf oid

/-- A path of certificates, the first of them the `i`-th, up to one in the trusted list. --/
inductive Path (v : Verifier) (store : CertificateStore) (leaf : Certificate) (time : UInt32) :
    Nat → Certificate → List Certificate → Prop
  | anchor {i : Nat} {c : Certificate} (trusted : c ∈ store.trustedCertificates) : Path v store leaf time i c [c]
  | link {i : Nat} {c issuer : Certificate} {path : List Certificate} (link : Link v store leaf time i c issuer)
      (rest : Path v store leaf time (i + 1) issuer path) : Path v store leaf time i c (c :: path)

/-- The certificates that the names lead to below the trusted list, with their depth. --/
inductive Walked (store : CertificateStore) (leaf : Certificate) : Nat → Certificate → Prop
  | leaf : Walked store leaf 0 leaf
  | issuer {i : Nat} {c issuer : Certificate} {location : CertLocation} (below : Walked store leaf i c)
      (other : ¬c.SelfIssued) (found : storeCertificateFind store c.issuer = .ok (issuer, location))
      (untrusted : location ≠ .trusted) : Walked store leaf (i + 1) issuer

/-! ### The store -/

section
variable {store : CertificateStore} {name : DistinguishedName} {c issuer : Certificate} {location : CertLocation}

theorem mem_of_trusted (h : storeCertificateFind store name = .ok (c, .trusted)) : c ∈ store.trustedCertificates := by
  unfold storeCertificateFind at h
  split at h
  · rename_i found hfind
    obtain rfl := (Prod.mk.inj (Except.ok.inj h)).1
    exact List.mem_of_find?_eq_some hfind
  split at h
  · cases h
  split at h
  · cases h
  · cases h

/-- What is found elsewhere is not in the trusted list. --/
theorem not_trusted_of_found (h : storeCertificateFind store name = .ok (c, location)) (hlocation : location ≠ .trusted) :
    c ∉ store.trustedCertificates := by
  have hname : ∀ {list : List Certificate}, certificateListFind list name = some c →
      distinguishedNameCompare name c.distinguishedName = true := by
    intro list hfind
    simpa using List.find?_some hfind
  have habsent : ∀ {list : List Certificate}, certificateListFind list name = some c →
      certificateListFind store.trustedCertificates name = none → c ∉ store.trustedCertificates := by
    intro list hfind hnone hmem
    exact List.find?_eq_none.mp hnone c hmem (hname hfind)
  unfold storeCertificateFind at h
  split at h
  · exact absurd (Prod.mk.inj (Except.ok.inj h)).2.symm hlocation
  rename_i hnone
  split at h
  · rename_i hfind
    obtain rfl := (Prod.mk.inj (Except.ok.inj h)).1
    exact habsent hfind hnone
  split at h
  · rename_i hfind
    obtain rfl := (Prod.mk.inj (Except.ok.inj h)).1
    exact habsent hfind hnone
  · cases h

/-- Names that compare equal find the same certificate. --/
theorem find_of_compare {other : DistinguishedName} (h : distinguishedNameCompare name other = true) :
    storeCertificateFind store name = storeCertificateFind store other := by
  have heq : distinguishedNameCompare name = distinguishedNameCompare other := by
    funext x
    unfold distinguishedNameCompare distinguishedNameFieldCompare at h ⊢
    split at h
    · rename_i hlength
      rw [← hlength]
      split at h
      · rename_i hzero
        rw [hzero]
        rfl
      · rw [of_decide_eq_true h]
    · cases h
  unfold storeCertificateFind certificateListFind
  rw [heq]

theorem Walked.not_trusted {leaf : Certificate} {i : Nat} (h : Walked store leaf (i + 1) c) :
    c ∉ store.trustedCertificates := by
  cases h with
  | issuer below other found untrusted => exact not_trusted_of_found found untrusted

end

/-! ### The loop -/

section
variable {v : Verifier} {store : CertificateStore} {leaf c issuer : Certificate} {time : UInt32}
variable {location : CertLocation} {fuel i : Nat}

/-- The loop ends: the depth alone is bounded. --/
theorem chainVerifyLoop_ends (hpos : 0 < fuel) (hfuel : maxVerifyDepth + 2 ≤ fuel + i) :
    ∃ status, chainVerifyLoop v store leaf time fuel c location i = some status := by
  induction fuel generalizing c location i with
  | zero => exact absurd hpos (Nat.lt_irrefl 0)
  | succ fuel ih =>
    unfold chainVerifyLoop
    split
    · exact ⟨_, rfl⟩
    rename_i hdepth
    split
    · exact ⟨_, rfl⟩
    split
    · split
      · exact ⟨_, rfl⟩
      split
      · exact ⟨_, rfl⟩
      split
      · exact ⟨_, rfl⟩
      · exact ih (by omega) (by omega)
    · split
      · exact ⟨_, rfl⟩
      split
      · exact ⟨_, rfl⟩
      split
      · exact ⟨_, rfl⟩
      · exact ⟨_, rfl⟩

/-- What a round that leads to success did. --/
inductive RoundPassed (v : Verifier) (store : CertificateStore) (leaf : Certificate) (time : UInt32) (fuel i : Nat)
    (c : Certificate) (location : CertLocation) : Prop
  | anchored (issuer : Certificate) (other : ¬c.SelfIssued) (found : issuerFind store c i = .ok (issuer, .trusted))
      (signed : v.certificateVerify c issuer = true) (bound : anchorCheck issuer leaf = .ok ())
  | onward (issuer : Certificate) (next : CertLocation) (other : ¬c.SelfIssued)
      (found : issuerFind store c i = .ok (issuer, next)) (untrusted : next ≠ .trusted)
      (signed : v.certificateVerify c issuer = true)
      (rest : chainVerifyLoop v store leaf time fuel issuer next (i + 1) = some (.ok ()))
  | selfSigned (self : c.SelfIssued) (allowed : v.allowSelfSigned = true) (signed : v.certificateVerify c c = true)
      (ends : location ≠ .trusted → selfSignedEnd store c = .ok ())

theorem chainVerifyLoop_ok (h : chainVerifyLoop v store leaf time (fuel + 1) c location i = some (.ok ())) :
    certificateCheck c leaf i time = .ok () ∧ RoundPassed v store leaf time fuel i c location := by
  unfold chainVerifyLoop at h
  split at h
  · cases h
  split at h
  · cases h
  rename_i hcheck
  refine ⟨hcheck, ?_⟩
  split at h
  · rename_i hname
    have hother : ¬c.SelfIssued := by
      unfold Certificate.SelfIssued
      rw [hname]
      exact Bool.false_ne_true
    split at h
    · cases h
    rename_i issuer next hfound
    split at h
    · cases h
    rename_i hsigned
    have hsigned := Bool.eq_true_of_not_eq_false hsigned
    split at h
    · rename_i htrusted
      rw [htrusted] at hfound
      exact .anchored issuer hother hfound hsigned (Option.some.inj h)
    · rename_i huntrusted
      exact .onward issuer next hother hfound huntrusted hsigned h
  · rename_i hname
    split at h
    · cases h
    rename_i hallowed
    split at h
    · cases h
    rename_i hsigned
    refine .selfSigned (Bool.eq_true_of_not_eq_false hname) (Bool.eq_true_of_not_eq_false hallowed)
      (Bool.eq_true_of_not_eq_false hsigned) (fun hlocation => ?_)
    rw [if_neg hlocation] at h
    exact Option.some.inj h

theorem issuerFind_ok (h : issuerFind store c i = .ok (issuer, location)) :
    storeCertificateFind store c.issuer = .ok (issuer, location) ∧
      ∃ value, issuer.Carries oidBasicConstraints value ∧ AssertsAuthority value i := by
  unfold issuerFind at h
  split at h
  · cases h
  rename_i issuer' location' hfound
  split at h
  · cases h
  rename_i isCa limit hparse
  split at h
  · cases h
  rename_i hca
  split at h
  · cases h
  rename_i hlimit
  obtain ⟨rfl, rfl⟩ := Prod.mk.inj (Except.ok.inj h)
  rw [Bool.eq_true_of_not_eq_false hca] at hparse
  refine ⟨hfound, authority_of_parse hparse ?_⟩
  rintro n rfl
  exact Nat.not_lt.mp (by simpa using hlimit)

theorem policy_ok (h : extensionPolicyCheck c leaf i = .ok ()) :
    (nameConstraintsCheck c leaf = .ok () ∨ nameConstraintsCheck c leaf = .error .extensionNotFound) ∧
      ∀ oid, c.MarksCritical oid → Enforced c leaf oid := by
  unfold extensionPolicyCheck at h
  rcases ok_or_error (nameConstraintsCheck c leaf) with ⟨e, hcheck⟩ | ⟨⟨⟩, hcheck⟩
  · simp only [hcheck] at h
    split at h
    · cases h
    rename_i he
    refine ⟨.inr (by rw [hcheck, not_not.mp he]), fun oid hmarks => ?_⟩
    rcases marksCritical_of_check h hmarks with hknown | ⟨_, hfalse⟩
    · exact .inl hknown
    · cases hfalse
  · simp only [hcheck] at h
    split at h
    · cases h
    refine ⟨.inl hcheck, fun oid hmarks => ?_⟩
    rcases marksCritical_of_check h hmarks with hknown | ⟨hoid, _⟩
    · exact .inl hknown
    · exact .inr ⟨hoid, hcheck⟩

theorem certificateCheck_ok (h : certificateCheck c leaf i time = .ok ()) :
    extensionPolicyCheck c leaf i = .ok () ∧ (time ≠ 0 → c.ValidAt time) := by
  unfold certificateCheck at h
  split at h
  · cases h
  rename_i hpolicy
  refine ⟨hpolicy, fun htime => ?_⟩
  rw [if_pos htime] at h
  exact validAt_of_check h

theorem selfSignedEnd_ok (h : selfSignedEnd store c = .ok ()) :
    ∃ anchor, storeCertificateFind store c.distinguishedName = .ok (anchor, .trusted) := by
  unfold selfSignedEnd at h
  split at h
  · rename_i anchor hfound
    exact ⟨anchor, hfound⟩
  · cases h
  · cases h

end

/-! ### The runs that succeed -/

section
variable {v : Verifier} {store : CertificateStore} {leaf c issuer : Certificate} {time : UInt32}
variable {location : CertLocation} {fuel i : Nat}

/-- Every certificate the names lead to is one the loop has come to. --/
theorem walked_passed (h : certificateChainVerify v store leaf time = some (.ok ())) (hwalked : Walked store leaf i c) :
    ∃ fuel location, location ≠ .trusted ∧ chainVerifyLoop v store leaf time (fuel + 1) c location i = some (.ok ()) := by
  induction hwalked with
  | leaf => exact ⟨maxVerifyDepth + 1, .none, by decide, h⟩
  | issuer below other found untrusted ih =>
    obtain ⟨fuel, location, hlocation, hloop⟩ := ih
    cases (chainVerifyLoop_ok hloop).2 with
    | anchored issuer' _ hfound =>
      have heq := (issuerFind_ok hfound).1
      rw [found] at heq
      exact absurd (Prod.mk.inj (Except.ok.inj heq)).2 untrusted
    | onward issuer' next _ hfound _ _ hrest =>
      have heq := (issuerFind_ok hfound).1
      rw [found] at heq
      obtain ⟨rfl, rfl⟩ := Prod.mk.inj (Except.ok.inj heq)
      cases fuel with
      | zero => cases hrest
      | succ fuel => exact ⟨fuel, _, untrusted, hrest⟩
    | selfSigned self => exact absurd self other

/-- Where the names end at a certificate that names itself, the trusted one of that name has signed it. --/
def Endorsed (v : Verifier) (store : CertificateStore) (leaf : Certificate) : Prop :=
  ∀ i c anchor, v.allowSelfSigned = true → Walked store leaf i c → c.SelfIssued →
    storeCertificateFind store c.distinguishedName = .ok (anchor, .trusted) →
    leaf ∈ store.trustedCertificates ∨ v.certificateVerify c anchor = true

theorem link_of_passed (htime : time ≠ 0) (hcheck : certificateCheck c leaf i time = .ok ())
    (hfound : storeCertificateFind store c.issuer = .ok (issuer, location)) (hsigned : v.certificateVerify c issuer = true)
    (hauthority : (v.allowSelfSigned = true → ¬c.SelfIssued) →
      ∃ value, issuer.Carries oidBasicConstraints value ∧ AssertsAuthority value i) :
    Link v store leaf time i c issuer where
  found := ⟨location, hfound⟩
  signed := hsigned
  authority := hauthority
  valid := (certificateCheck_ok hcheck).2 htime
  enforced := (policy_ok (certificateCheck_ok hcheck).1).2

/-- The certificates that the loop has gone through, from any of them on, are a path. --/
theorem path_of_loop (htime : time ≠ 0) (hendorsed : Endorsed v store leaf) (huntrusted : leaf ∉ store.trustedCertificates)
    (hwalked : Walked store leaf i c) (hlocation : location ≠ .trusted)
    (h : chainVerifyLoop v store leaf time fuel c location i = some (.ok ())) : ∃ path, Path v store leaf time i c path := by
  induction fuel generalizing c location i with
  | zero => cases h
  | succ fuel ih =>
    obtain ⟨hcheck, hround⟩ := chainVerifyLoop_ok h
    cases hround with
    | anchored issuer other hfound hsigned =>
      obtain ⟨hfind, hauthority⟩ := issuerFind_ok hfound
      exact ⟨[c, issuer], .link (link_of_passed htime hcheck hfind hsigned (fun _ => hauthority))
        (.anchor (mem_of_trusted hfind))⟩
    | onward issuer next other hfound hnext hsigned hrest =>
      obtain ⟨hfind, hauthority⟩ := issuerFind_ok hfound
      obtain ⟨path, hpath⟩ := ih (.issuer hwalked other hfind hnext) hnext hrest
      exact ⟨c :: path, .link (link_of_passed htime hcheck hfind hsigned (fun _ => hauthority)) hpath⟩
    | selfSigned self allowed _ ends =>
      obtain ⟨anchor, hfind⟩ := selfSignedEnd_ok (ends hlocation)
      rcases hendorsed i c anchor allowed hwalked self hfind with hleaf | hsigned
      · exact absurd hleaf huntrusted
      · have hissuer := (find_of_compare self).symm.trans hfind
        exact ⟨[c, anchor], .link (link_of_passed htime hcheck hissuer hsigned (fun hnot => absurd self (hnot allowed)))
          (.anchor (mem_of_trusted hissuer))⟩

/-- A path leads through the certificates that the names lead to. --/
theorem Walked.path (hwalked : Walked store leaf i c) (huntrusted : leaf ∉ store.trustedCertificates)
    (h : ∃ path, Path v store leaf time 0 leaf path) : ∃ issuer path, Link v store leaf time i c issuer ∧
      Path v store leaf time (i + 1) issuer path := by
  induction hwalked with
  | leaf =>
    obtain ⟨path, hpath⟩ := h
    cases hpath with
    | anchor trusted => exact absurd trusted huntrusted
    | link hlink rest => exact ⟨_, _, hlink, rest⟩
  | @issuer i c next location below other found untrusted ih =>
    obtain ⟨next', path, hlink, hpath⟩ := ih
    obtain ⟨location', hfound⟩ := hlink.found
    rw [found] at hfound
    obtain ⟨rfl, rfl⟩ := Prod.mk.inj (Except.ok.inj hfound)
    cases hpath with
    | anchor trusted => exact absurd trusted (not_trusted_of_found found untrusted)
    | link hlink rest => exact ⟨_, _, hlink, rest⟩

/-- The verifier always comes to an end. Where it accepts, the names from the leaf on are a path of signatures to the
trusted list just when a self-signed certificate they end at was signed by the trusted one of its name. --/
theorem accepted_path_iff (v : Verifier) (store : CertificateStore) (leaf : Certificate) (time : UInt32) (htime : time ≠ 0) :
    (∃ status, certificateChainVerify v store leaf time = some status) ∧
      (certificateChainVerify v store leaf time = some (.ok ()) →
        ((∃ path, Path v store leaf time 0 leaf path) ↔ Endorsed v store leaf)) := by
  refine ⟨chainVerifyLoop_ends (by decide) (Nat.le_refl _), fun haccepted => ⟨fun hpath => ?_, fun hendorsed => ?_⟩⟩
  · intro i c anchor _ hwalked hself hfind
    by_cases huntrusted : leaf ∈ store.trustedCertificates
    · exact .inl huntrusted
    · obtain ⟨issuer, _, hlink, _⟩ := hwalked.path huntrusted hpath
      obtain ⟨location, hfound⟩ := hlink.found
      rw [← find_of_compare hself, hfind] at hfound
      obtain ⟨rfl, _⟩ := Prod.mk.inj (Except.ok.inj hfound)
      exact .inr hlink.signed
  · by_cases htrusted : leaf ∈ store.trustedCertificates
    · exact ⟨[leaf], .anchor htrusted⟩
    · exact path_of_loop htime hendorsed htrusted .leaf (by decide) haccepted

end

/-! ### A root and a certificate of its name -/

/-- A certificate without extensions, valid from 1970 to 2069. --/
def plainCertificate (data name issuer : List UInt8) : Certificate where
  certificateData := data
  distinguishedName := ⟨name, name.length⟩
  issuer := ⟨issuer, issuer.length⟩
  notBefore := [0x37, 0x30, 0x30, 0x31, 0x30, 0x31, 0x30, 0x30, 0x30, 0x30, 0x5A]
  notBeforeValidityFormat := asnTagUtcTime
  notAfter := [0x36, 0x39, 0x30, 0x31, 0x30, 0x31, 0x30, 0x30, 0x30, 0x30, 0x5A]
  notAfterValidityFormat := asnTagUtcTime
  extensionsData := []
  extensionsDataLength := 0

/-- The trusted root and a forged certificate, both under the name R, each signed by its own key. --/
def namedRoot : Certificate := plainCertificate [1] [0x52] [0x52]
def forgedRoot : Certificate := plainCertificate [2] [0x52] [0x52]

def forgedStore : CertificateStore := ⟨[namedRoot], [], [forgedRoot]⟩

def selfSigningVerifier : Verifier := ⟨fun c issuer => decide (c = issuer), true⟩

theorem accepted_path_iff_named : certificateChainVerify selfSigningVerifier forgedStore namedRoot 1 = some (.ok ()) ∧
    ((∃ path, Path selfSigningVerifier forgedStore namedRoot 1 0 namedRoot path) ↔
      Endorsed selfSigningVerifier forgedStore namedRoot) :=
  ⟨by decide +kernel, (accepted_path_iff selfSigningVerifier forgedStore namedRoot 1 (by decide)).2 (by decide +kernel)⟩

/-- The forged certificate is accepted for its name, and no chain of signatures leads from it to the root. --/
theorem forged_root_accepted : certificateChainVerify selfSigningVerifier forgedStore forgedRoot 1 = some (.ok ()) ∧
    ¬∃ anchor ∈ forgedStore.trustedCertificates, Relation.ReflTransGen
      (fun c issuer => selfSigningVerifier.certificateVerify c issuer = true) forgedRoot anchor := by
  refine ⟨by decide +kernel, ?_⟩
  rintro ⟨anchor, hanchor, hchain⟩
  have hself : forgedRoot = anchor := by
    clear hanchor
    induction hchain with
    | refl => rfl
    | tail _ hsigned ih => exact ih.trans (of_decide_eq_true hsigned)
  rw [List.mem_singleton.mp hanchor] at hself
  exact absurd hself (by decide)

end Netxduo.X509
