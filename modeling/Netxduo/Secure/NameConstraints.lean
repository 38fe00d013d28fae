import Mathlib
import Netxduo.Secure.Certificate

/-! Name constraints, the names a leaf presents, and the host names it is accepted for. -/

namespace Netxduo.X509

/-! ### The source -/

def generalNameDns : UInt8 := 2

def dot : UInt8 := 0x2E
def star : UInt8 := 0x2A

/-- An upper-case letter in lower case, and every other octet as it is. --/
def lower (c : UInt8) : UInt8 := if 0x41 ≤ c ∧ c ≤ 0x5A then c + 0x20 else c

/-- A constraint without its leading dot. --/
def stripDot (constraint : List UInt8) : List UInt8 := if constraint.head? = some dot then constraint.tail else constraint

/-- `_nx_secure_x509_dns_name_constrained` --/
def dnsNameConstrained (name constraint : List UInt8) : Bool :=
  let constraint := stripDot constraint
  if constraint.length = 0 then true
  else if name.length < constraint.length then false
  else if (name.drop (name.length - constraint.length)).map lower ≠ constraint.map lower then false
  else if name.length = constraint.length then true
  else decide (name.getD (name.length - constraint.length - 1) 0 = dot)

/-- The loop over the subjectAltName: whether a dNSName was seen, or that one is in the subtree. --/
def leafDnsWalk (constraint : List UInt8) (t : Tlv) (dnsSeen : Bool) : Round Bool (Round Bool Bool) :=
  if t.tlvTagClass ≠ asnTagClassContext then .done (.next dnsSeen)
  else if t.tlvType ≠ generalNameDns then .next dnsSeen
  else if dnsNameConstrained (t.tlvData.take t.tlvLength) constraint then .done (.done true)
  else .next true

/-- The sequence of names that a subjectAltName is. --/
def altNameSequence (extension : Extension) : Except X509Error Tlv :=
  match asn1TlvBlockParse extension.extensionData extension.extensionDataLength with
  | .error e => .error (.asn e)
  | .ok t =>
    if ¬(t.tlvTagClass = asnTagClassUniversal ∧ t.tlvType = asnTagSequence) then .error .invalidExtensionSequence
    else .ok t

/-- The walk over the dNSNames of the leaf, if it has a subjectAltName that parses. --/
def leafDnsWalked (leaf : Certificate) (constraint : List UInt8) : Round Bool Bool :=
  match extensionFind leaf .subjectAltName with
  | .error _ => .next false
  | .ok altName =>
    match altNameSequence altName with
    | .error _ => .next false
    | .ok t =>
      eachBlock (fun _ dnsSeen => .next dnsSeen) (fun dnsSeen => .next dnsSeen) (leafDnsWalk constraint)
        t.tlvLength t.tlvData t.tlvLength false

/-- `_nx_secure_x509_leaf_dns_constrained` --/
def leafDnsConstrained (leaf : Certificate) (constraint : List UInt8) : Bool :=
  match leafDnsWalked leaf constraint with
  | .done found => found
  | .next true => false
  | .next false =>
    if leaf.distinguishedName.commonNameLength > 0 then
      dnsNameConstrained (leaf.distinguishedName.commonName.take leaf.distinguishedName.commonNameLength) constraint
    else false

/-- One subtree: whether a dNSName subtree was present, and whether one matched. --/
def subtreeRound (leaf : Certificate) (t : Tlv) (s : Bool × Bool) : Round (Bool × Bool) (Except X509Error (Bool × Bool)) :=
  if ¬(t.tlvTagClass = asnTagClassUniversal ∧ t.tlvType = asnTagSequence) then .done (.error .invalidExtensionSequence)
  else
    match asn1TlvBlockParse t.tlvData t.tlvLength with
    | .error e => .done (.error (.asn e))
    | .ok base =>
      if base.tlvTagClass ≠ asnTagClassContext then .done (.error .invalidExtensionSequence)
      else if base.tlvType ≠ generalNameDns then .done (.error .nameConstraintUnsupported)
      else .next (true, s.2 || leafDnsConstrained leaf (base.tlvData.take base.tlvLength))

/-- `_nx_secure_x509_subtree_walk` --/
def subtreeWalk (buffer : List UInt8) (length : Nat) (leaf : Certificate) : Except X509Error (Bool × Bool) :=
  eachBlock (fun e _ => .error (.asn e)) (fun s => .ok s) (subtreeRound leaf) length buffer length (false, false)

/-- One of the two lists of subtrees: whether permitted ones were present, and whether one matched. --/
def constraintsRound (leaf : Certificate) (t : Tlv) (s : Bool × Bool) : Round (Bool × Bool) (Except X509Error Unit) :=
  if t.tlvTagClass ≠ asnTagClassContext then .done (.error .invalidExtensionSequence)
  else
    match subtreeWalk t.tlvData t.tlvLength leaf with
    | .error e => .done (.error e)
    | .ok (dnsPresent, dnsMatched) =>
      if t.tlvType = 0 then
        if dnsPresent then .next (true, s.2 || dnsMatched) else .next s
      else if t.tlvType = 1 then
        if dnsMatched then .done (.error .nameConstraintViolation) else .next s
      else .done (.error .invalidExtensionSequence)

/-- `_nx_secure_x509_name_constraints_check` --/
def nameConstraintsCheck (caCertificate leafCertificate : Certificate) : Except X509Error Unit :=
  match extensionFind caCertificate .nameConstraints with
  | .error e => .error e
  | .ok constraints =>
    match asn1TlvBlockParse constraints.extensionData constraints.extensionDataLength with
    | .error e => .error (.asn e)
    | .ok t =>
      if ¬(t.tlvTagClass = asnTagClassUniversal ∧ t.tlvType = asnTagSequence) then .error .invalidExtensionSequence
      else
        eachBlock (fun e _ => .error (.asn e))
          (fun s => if s.1 ∧ ¬s.2 then .error .nameConstraintViolation else .ok ())
          (constraintsRound leafCertificate) t.tlvLength t.tlvData t.tlvLength (false, false)

/-- The loop of the wildcard compare, over both names from their ends. --/
def wildcardWalk (afterStar : UInt8) : List UInt8 → List UInt8 → Bool
  | d :: ds, w :: ws =>
    if d ≠ w then
      if w = star then
        if ws.length ≠ 0 ∨ afterStar ≠ dot then false
        else (d :: ds).all (· ≠ dot)
      else false
    else wildcardWalk afterStar ds ws
  | [], [] => true
  | _ :: _, [] => false
  | [], _ :: _ => false

/-- `_nx_secure_x509_wildcard_compare`, whether it returns zero. The second octet of the wildcard name is read also
where there is none. --/
def wildcardCompare (dnsName wildcardName : List UInt8) (wildcardLen : Nat) : Bool :=
  wildcardWalk (wildcardName.getD 1 0) dnsName.reverse (wildcardName.take wildcardLen).reverse

/-- One name of the subjectAltName, and whether one of the type was present. --/
def altNamesRound (name : List UInt8) (t : Tlv) (present : Bool) : Round Bool (Except X509Error Unit × Bool) :=
  if t.tlvTagClass ≠ asnTagClassContext then .done (.error .altNameNotFound, present)
  else if t.tlvType ≠ generalNameDns then .next present
  else if wildcardCompare name t.tlvData t.tlvLength then .done (.ok (), true)
  else .next true

/-- `_nx_secure_x509_subject_alt_names_find_ex`, for a dNSName --/
def subjectAltNamesFind (extension : Extension) (name : List UInt8) : Except X509Error Unit × Bool :=
  match altNameSequence extension with
  | .error e => (.error e, false)
  | .ok t =>
    eachBlock (fun e present => (.error (.asn e), present)) (fun present => (.error .altNameNotFound, present))
      (altNamesRound name) t.tlvLength t.tlvData t.tlvLength false

/-- The common name, when there is no dNSName to go on. --/
def commonNameCompare (certificate : Certificate) (dnsTld : List UInt8) : Except X509Error Unit :=
  if wildcardCompare dnsTld certificate.distinguishedName.commonName certificate.distinguishedName.commonNameLength then .ok ()
  else .error .certificateDnsMismatch

/-- What is made of the search: names of the type that do not match leave no second vote to the common name. --/
def dnsVerdict (certificate : Certificate) (dnsTld : List UInt8) : Except X509Error Unit × Bool → Except X509Error Unit
  | (.ok _, _) => .ok ()
  | (.error _, dnsNamesPresent) =>
    if dnsNamesPresent then .error .certificateDnsMismatch else commonNameCompare certificate dnsTld

/-- `_nx_secure_x509_common_name_dns_check` --/
def commonNameDnsCheck (certificate : Certificate) (dnsTld : List UInt8) : Except X509Error Unit :=
  match extensionFind certificate .subjectAltName with
  | .error _ => commonNameCompare certificate dnsTld
  | .ok altNameExtension => dnsVerdict certificate dnsTld (subjectAltNamesFind altNameExtension dnsTld)

/-! ### The names and the subtrees -/

/-- A name in a certificate: a pointer, and a length. --/
structure Name where
  data : List UInt8
  length : Nat

def Name.octets (n : Name) : List UInt8 := n.data.take n.length

/-- The names among the blocks of a subjectAltName, up to one that is no name. --/
def dnsNames (ts : List Tlv) : List Name :=
  ((ts.takeWhile (·.tlvTagClass = asnTagClassContext)).filter (·.tlvType = generalNameDns)).map
    (fun t => ⟨t.tlvData, t.tlvLength⟩)

namespace Certificate
variable (c : Certificate)

/-- The dNSNames of the subjectAltName. --/
def altNames : List Name :=
  match extensionFind c .subjectAltName with
  | .error _ => []
  | .ok altName =>
    match altNameSequence altName with
    | .error _ => []
    | .ok t => dnsNames t.members

/-- The names a leaf stands for: its dNSNames, or the common name where it has none. --/
def presentedNames : List Name :=
  if c.altNames = [] then [⟨c.distinguishedName.commonName, c.distinguishedName.commonNameLength⟩] else c.altNames

end Certificate

/-- The bases of the dNSName subtrees among the blocks of a list of subtrees. --/
def subtreeBases (ts : List Tlv) : List (List UInt8) :=
  (ts.flatMap (fun t => t.members.head?.toList)).map Tlv.octets

namespace Certificate
variable (c : Certificate)

/-- The subtrees under a tag of the name constraints. --/
def subtrees (tag : UInt8) : List (List UInt8) :=
  match extensionFind c .nameConstraints with
  | .error _ => []
  | .ok constraints =>
    match asn1TlvBlockParse constraints.extensionData constraints.extensionDataLength with
    | .error _ => []
    | .ok t => (t.members.filter (·.tlvType = tag)).flatMap (fun s => subtreeBases s.members)

def permittedSubtrees : List (List UInt8) := c.subtrees 0

def excludedSubtrees : List (List UInt8) := c.subtrees 1

end Certificate

/-- The name is in the subtree: it is the base, or labels have been put to the left of it. --/
def InSubtree (name constraint : List UInt8) : Prop :=
  ∃ labels base, name = labels ++ base ∧ base.map lower = (stripDot constraint).map lower ∧
    (base = [] ∨ labels = [] ∨ ∃ front, labels = front ++ [dot])

theorem length_eq_of_lower {base constraint : List UInt8} (h : base.map lower = constraint.map lower) :
    base.length = constraint.length := by
  rw [← List.length_map lower, h, List.length_map]

theorem dnsNameConstrained_iff (name constraint : List UInt8) :
    dnsNameConstrained name constraint = true ↔ InSubtree name constraint := by
  unfold dnsNameConstrained InSubtree
  generalize stripDot constraint = c
  dsimp only
  constructor
  · intro h
    split at h
    · rename_i hempty
      rw [List.length_eq_zero_iff.mp hempty]
      exact ⟨name, [], (List.append_nil name).symm, rfl, .inl rfl⟩
    split at h
    · cases h
    rename_i hlength
    split at h
    · cases h
    rename_i hlower
    refine ⟨name.take (name.length - c.length), name.drop (name.length - c.length), (List.take_append_drop _ _).symm,
      not_not.mp hlower, .inr ?_⟩
    split at h
    · rename_i hsame
      rw [hsame, Nat.sub_self]
      exact .inl rfl
    · rename_i hne
      obtain ⟨n, hn⟩ : ∃ n, name.length - c.length = n + 1 := ⟨name.length - c.length - 1, by omega⟩
      have hdot := of_decide_eq_true h
      rw [hn, Nat.add_sub_cancel, List.getD_eq_getElem _ _ (by omega)] at hdot
      rw [hn, List.take_succ_eq_append_getElem (by omega), hdot]
      exact .inr ⟨_, rfl⟩
  · rintro ⟨labels, base, rfl, hlower, hends⟩
    have hlength := length_eq_of_lower hlower
    have hsub : (labels ++ base).length - c.length = labels.length := by
      rw [List.length_append]
      omega
    rw [hsub, List.drop_left]
    split
    · rfl
    split
    · rename_i hshort
      rw [List.length_append] at hshort
      omega
    rw [if_neg (not_not.mpr hlower)]
    split
    · rfl
    rename_i hzero _ hne
    rcases hends with rfl | rfl | ⟨front, rfl⟩
    · exact absurd hlength.symm hzero
    · rw [List.nil_append] at hne
      exact absurd hlength hne
    · rw [List.length_append, List.length_singleton, Nat.add_sub_cancel, List.append_assoc,
        List.getD_eq_getElem?_getD, List.getElem?_append_right (Nat.le_refl _), Nat.sub_self]
      rfl

/-! ### The walks -/

section
variable {ts : List Tlv} {t : Tlv} {e : Option AsnError} {leaf : Certificate}

theorem dnsNames_cons :
    dnsNames (t :: ts) =
      if t.tlvTagClass ≠ asnTagClassContext then []
      else if t.tlvType ≠ generalNameDns then dnsNames ts
      else ⟨t.tlvData, t.tlvLength⟩ :: dnsNames ts := by
  unfold dnsNames
  by_cases hclass : t.tlvTagClass = asnTagClassContext
  · by_cases htype : t.tlvType = generalNameDns
    · simp [hclass, htype]
    · simp [hclass, htype]
  · simp [hclass]

theorem leafDnsWalk_fold (constraint : List UInt8) (dnsSeen : Bool) :
    foldBlocks (fun _ dnsSeen => Round.next dnsSeen) (fun dnsSeen => .next dnsSeen) (leafDnsWalk constraint) ts e dnsSeen =
      if (dnsNames ts).any (fun n => dnsNameConstrained n.octets constraint) then Round.done true
      else .next (dnsSeen || !(dnsNames ts).isEmpty) := by
  induction ts generalizing dnsSeen with
  | nil => cases e <;> simp [foldBlocks, dnsNames]
  | cons t ts ih =>
    rw [foldBlocks, leafDnsWalk, dnsNames_cons]
    by_cases hclass : t.tlvTagClass = asnTagClassContext
    · rw [if_neg (not_not.mpr hclass), if_neg (not_not.mpr hclass)]
      by_cases htype : t.tlvType = generalNameDns
      · rw [if_neg (not_not.mpr htype), if_neg (not_not.mpr htype), List.any_cons]
        by_cases hname : dnsNameConstrained (t.tlvData.take t.tlvLength) constraint = true
        · have hany : dnsNameConstrained (Name.octets ⟨t.tlvData, t.tlvLength⟩) constraint = true := hname
          simp [hname, hany]
        · have hany : dnsNameConstrained (Name.octets ⟨t.tlvData, t.tlvLength⟩) constraint = false :=
            Bool.eq_false_iff.mpr hname
          rw [if_neg hname, hany]
          simp [ih]
      · rw [if_pos htype, if_pos htype]
        exact ih dnsSeen
    · rw [if_pos hclass, if_pos hclass]
      simp

theorem altNamesRound_fold (name : List UInt8) (present : Bool) :
    ∃ e', foldBlocks (fun e present => (.error (.asn e), present)) (fun present => (.error .altNameNotFound, present))
      (altNamesRound name) ts e present =
        if (dnsNames ts).any (fun n => wildcardCompare name n.data n.length) then (.ok (), true)
        else (.error e', present || !(dnsNames ts).isEmpty) := by
  induction ts generalizing present with
  | nil => cases e <;> simp [foldBlocks, dnsNames]
  | cons t ts ih =>
    rw [foldBlocks, altNamesRound, dnsNames_cons]
    by_cases hclass : t.tlvTagClass = asnTagClassContext
    · rw [if_neg (not_not.mpr hclass), if_neg (not_not.mpr hclass)]
      by_cases htype : t.tlvType = generalNameDns
      · rw [if_neg (not_not.mpr htype), if_neg (not_not.mpr htype), List.any_cons]
        by_cases hname : wildcardCompare name t.tlvData t.tlvLength = true
        · exact ⟨.altNameNotFound, by simp [hname]⟩
        · obtain ⟨e', he⟩ := ih true
          refine ⟨e', ?_⟩
          rw [if_neg hname, Bool.eq_false_iff.mpr hname]
          simp [he]
      · rw [if_pos htype, if_pos htype]
        exact ih present
    · rw [if_pos hclass, if_pos hclass]
      exact ⟨.altNameNotFound, by simp⟩

theorem subtreeRound_fold {s r : Bool × Bool}
    (h : foldBlocks (fun e _ => Except.error (X509Error.asn e)) (fun s => .ok s) (subtreeRound leaf) ts e s = .ok r) :
    r = (s.1 || !(subtreeBases ts).isEmpty, s.2 || (subtreeBases ts).any (leafDnsConstrained leaf)) := by
  induction ts generalizing s with
  | nil =>
    cases e with
    | none =>
      obtain rfl := Except.ok.inj h
      simp [subtreeBases]
    | some e => cases h
  | cons t ts ih =>
    rw [foldBlocks, subtreeRound] at h
    split at h
    · rename_i hround
      subst h
      split at hround
      · cases hround
      split at hround
      · cases hround
      split at hround
      · cases hround
      split at hround
      · cases hround
      · cases hround
    · rename_i s' hround
      split at hround
      · cases hround
      split at hround
      · cases hround
      rename_i base hparse
      split at hround
      · cases hround
      split at hround
      · cases hround
      obtain rfl := Round.next.inj hround
      have hbases : subtreeBases (t :: ts) = base.octets :: subtreeBases ts := by
        unfold subtreeBases
        rw [List.flatMap_cons, members_cons hparse]
        rfl
      rw [ih h, hbases]
      simp [Tlv.octets, Bool.or_assoc]

/-- The subtrees under a tag, among the lists of subtrees. --/
def taggedBases (tag : UInt8) (ts : List Tlv) : List (List UInt8) :=
  (ts.filter (·.tlvType = tag)).flatMap (fun s => subtreeBases s.members)

theorem constraintsRound_fold {s : Bool × Bool}
    (h : foldBlocks (fun e _ => Except.error (X509Error.asn e))
      (fun s => if s.1 ∧ ¬s.2 then .error .nameConstraintViolation else .ok ()) (constraintsRound leaf) ts e s = .ok ()) :
    (s.1 = true ∨ taggedBases 0 ts ≠ [] → s.2 = true ∨ ∃ p ∈ taggedBases 0 ts, leafDnsConstrained leaf p = true) ∧
      ∀ x ∈ taggedBases 1 ts, leafDnsConstrained leaf x = false := by
  induction ts generalizing s with
  | nil =>
    cases e with
    | none =>
      refine ⟨?_, fun x hx => absurd hx List.not_mem_nil⟩
      rintro (hpresent | hnil)
      · by_cases hmatched : s.2 = true
        · exact .inl hmatched
        · unfold foldBlocks at h
          rw [if_pos ⟨hpresent, hmatched⟩] at h
          cases h
      · exact absurd rfl hnil
    | some e => cases h
  | cons t ts ih =>
    rw [foldBlocks, constraintsRound] at h
    by_cases hclass : t.tlvTagClass ≠ asnTagClassContext
    · rw [if_pos hclass] at h
      cases h
    rw [if_neg hclass] at h
    cases hwalk : subtreeWalk t.tlvData t.tlvLength leaf with
    | error e' =>
      rw [hwalk] at h
      cases h
    | ok found =>
      obtain ⟨present, matched⟩ := found
      rw [hwalk] at h
      unfold subtreeWalk at hwalk
      rw [eachBlock_eq] at hwalk
      have hfound : (present, matched) = (false || !(subtreeBases t.members).isEmpty,
        false || (subtreeBases t.members).any (leafDnsConstrained leaf)) := subtreeRound_fold hwalk
      simp only [Bool.false_or, Prod.mk.injEq] at hfound
      obtain ⟨hpresent, hmatched⟩ := hfound
      dsimp only at h
      by_cases hpermitted : t.tlvType = 0
      · have h0 : taggedBases 0 (t :: ts) = subtreeBases t.members ++ taggedBases 0 ts := by simp [taggedBases, hpermitted]
        have h1 : taggedBases 1 (t :: ts) = taggedBases 1 ts := by simp [taggedBases, hpermitted]
        rw [if_pos hpermitted] at h
        rw [h0, h1]
        cases hbases : subtreeBases t.members with
        | nil =>
          have hnone : present = false := by
            rw [hpresent, hbases]
            rfl
          rw [hnone] at h
          exact ih h
        | cons b bs =>
          have hsome : present = true := by
            rw [hpresent, hbases]
            rfl
          rw [if_pos hsome] at h
          obtain ⟨hpermits, hexcludes⟩ := ih h
          refine ⟨fun _ => ?_, hexcludes⟩
          rcases hpermits (.inl rfl) with hor | ⟨p, hp, hleaf⟩
          · rcases Bool.or_eq_true_iff.mp hor with hs | hm
            · exact .inl hs
            · rw [hmatched, hbases, List.any_eq_true] at hm
              obtain ⟨p, hp, hleaf⟩ := hm
              exact .inr ⟨p, List.mem_append_left _ hp, hleaf⟩
          · exact .inr ⟨p, List.mem_append_right _ hp, hleaf⟩
      · rw [if_neg hpermitted] at h
        have h0 : taggedBases 0 (t :: ts) = taggedBases 0 ts := by simp [taggedBases, hpermitted]
        rw [h0]
        by_cases hexcluded : t.tlvType = 1
        · have h1 : taggedBases 1 (t :: ts) = subtreeBases t.members ++ taggedBases 1 ts := by
            simp [taggedBases, hexcluded]
          rw [if_pos hexcluded] at h
          by_cases hm : matched = true
          · rw [if_pos hm] at h
            cases h
          · rw [if_neg hm] at h
            obtain ⟨hpermits, hexcludes⟩ := ih h
            refine ⟨hpermits, ?_⟩
            rw [h1]
            intro x hx
            rcases List.mem_append.mp hx with hx | hx
            · rw [hmatched, List.any_eq_true] at hm
              exact Bool.eq_false_iff.mpr (fun hleaf => hm ⟨x, hx, hleaf⟩)
            · exact hexcludes x hx
        · rw [if_neg hexcluded] at h
          cases h

end

section
variable {ca leaf : Certificate} {host : List UInt8}

theorem subtreeWalk_found {buffer : List UInt8} {length : Nat} :
    subtreeWalk buffer length leaf ≠ .error .extensionNotFound := by
  intro h
  unfold subtreeWalk at h
  rw [eachBlock_eq] at h
  rcases foldBlocks_cases h with ⟨t, _, s, hbody⟩ | ⟨s, hend⟩ | ⟨e, s, hfail⟩
  · unfold subtreeRound at hbody
    split at hbody
    · cases hbody
    split at hbody
    · cases hbody
    split at hbody
    · cases hbody
    split at hbody
    · cases hbody
    · cases hbody
  · cases hend
  · cases hfail

/-- That there is no such extension is not said about the lists in one. --/
theorem constraintsRound_found {t : Tlv} {s : Bool × Bool} :
    constraintsRound leaf t s ≠ .done (.error .extensionNotFound) := by
  intro h
  unfold constraintsRound at h
  split at h
  · cases h
  split at h
  · rename_i e hwalk
    obtain rfl := Except.error.inj (Round.done.inj h)
    exact subtreeWalk_found hwalk
  split at h
  · split at h
    · cases h
    · cases h
  split at h
  · split at h
    · cases h
    · cases h
  · cases h

/-- What the check of the constraints says about the leaf. --/
theorem subtrees_of_check (h : nameConstraintsCheck ca leaf = .ok () ∨ nameConstraintsCheck ca leaf = .error .extensionNotFound) :
    (ca.permittedSubtrees ≠ [] → ∃ p ∈ ca.permittedSubtrees, leafDnsConstrained leaf p = true) ∧
      ∀ x ∈ ca.excludedSubtrees, leafDnsConstrained leaf x = false := by
  unfold nameConstraintsCheck at h
  unfold Certificate.permittedSubtrees Certificate.excludedSubtrees Certificate.subtrees
  cases hfind : extensionFind ca .nameConstraints with
  | error e => exact ⟨fun hne => absurd rfl hne, fun x hx => absurd hx List.not_mem_nil⟩
  | ok constraints =>
    rw [hfind] at h
    dsimp only at h ⊢
    cases hparse : asn1TlvBlockParse constraints.extensionData constraints.extensionDataLength with
    | error e => exact ⟨fun hne => absurd rfl hne, fun x hx => absurd hx List.not_mem_nil⟩
    | ok t =>
      rw [hparse] at h
      dsimp only at h ⊢
      split at h
      · rcases h with h | h
        · cases h
        · cases h
      rw [eachBlock_eq] at h
      rcases h with h | h
      · obtain ⟨hpermits, hexcludes⟩ := constraintsRound_fold h
        refine ⟨fun hne => ?_, hexcludes⟩
        rcases hpermits (.inr hne) with hfalse | hp
        · cases hfalse
        · exact hp
      · rcases foldBlocks_cases h with ⟨t', _, s, hbody⟩ | ⟨s, hend⟩ | ⟨e, s, hfail⟩
        · exact absurd hbody constraintsRound_found
        · split at hend
          · cases hend
          · cases hend
        · cases hfail

theorem ok_or_error {ε α : Type} (x : Except ε α) : (∃ e, x = .error e) ∨ ∃ a, x = .ok a := by
  cases x with
  | error e => exact .inl ⟨e, rfl⟩
  | ok a => exact .inr ⟨a, rfl⟩

theorem leafDnsWalked_eq (constraint : List UInt8) : leafDnsWalked leaf constraint =
    if leaf.altNames.any (fun n => dnsNameConstrained n.octets constraint) then .done true
    else .next (!leaf.altNames.isEmpty) := by
  unfold leafDnsWalked Certificate.altNames
  rcases ok_or_error (extensionFind leaf .subjectAltName) with ⟨e, hfind⟩ | ⟨altName, hfind⟩
  · simp [hfind]
  · rcases ok_or_error (altNameSequence altName) with ⟨e, hparse⟩ | ⟨t, hparse⟩
    · simp [hfind, hparse]
    · simp only [hfind, hparse]
      rw [eachBlock_eq, leafDnsWalk_fold]
      rfl

/-- The names that are held against a subtree. --/
theorem leafDnsConstrained_iff (constraint : List UInt8) : leafDnsConstrained leaf constraint = true ↔
    ∃ n ∈ leaf.presentedNames, (leaf.altNames = [] → 0 < n.length) ∧ InSubtree n.octets constraint := by
  unfold leafDnsConstrained Certificate.presentedNames
  rw [leafDnsWalked_eq]
  cases hnames : leaf.altNames with
  | nil =>
    simp only [List.any_nil, Bool.false_eq_true, if_false, List.isEmpty_nil, Bool.not_true, if_true, List.mem_singleton,
      exists_eq_left, true_imp_iff, ← dnsNameConstrained_iff]
    split
    · rename_i hpos
      exact (and_iff_right hpos).symm
    · rename_i hpos
      exact iff_of_false Bool.false_ne_true (not_and_of_not_left _ hpos)
  | cons n ns =>
    rw [if_neg (List.cons_ne_nil n ns), ← hnames]
    by_cases hany : leaf.altNames.any (fun n => dnsNameConstrained n.octets constraint) = true
    · rw [if_pos hany]
      obtain ⟨m, hm, hin⟩ := List.any_eq_true.mp hany
      exact iff_of_true rfl ⟨m, hm, fun hnil => absurd (hnames.symm.trans hnil) (List.cons_ne_nil n ns),
        (dnsNameConstrained_iff _ _).mp hin⟩
    · rw [if_neg hany, hnames]
      refine iff_of_false Bool.false_ne_true ?_
      rintro ⟨m, hm, _, hin⟩
      rw [← hnames] at hm
      exact hany (List.any_eq_true.mpr ⟨m, hm, (dnsNameConstrained_iff _ _).mpr hin⟩)

/-- The host is accepted for one of the names the leaf presents, and for no other reason. --/
theorem commonNameDnsCheck_iff : commonNameDnsCheck leaf host = .ok () ↔
    ∃ n ∈ leaf.presentedNames, wildcardCompare host n.data n.length = true := by
  have hcommon : commonNameCompare leaf host = .ok () ↔
      ∃ n ∈ [(⟨leaf.distinguishedName.commonName, leaf.distinguishedName.commonNameLength⟩ : Name)],
        wildcardCompare host n.data n.length = true := by
    simp only [List.mem_singleton, exists_eq_left]
    unfold commonNameCompare
    split
    · rename_i hmatch
      exact iff_of_true rfl hmatch
    · rename_i hmatch
      exact iff_of_false (by rintro ⟨⟩) hmatch
  unfold Certificate.presentedNames
  unfold commonNameDnsCheck Certificate.altNames
  rcases ok_or_error (extensionFind leaf .subjectAltName) with ⟨e, hfind⟩ | ⟨altName, hfind⟩
  · simp only [hfind]
    exact hcommon
  · rcases ok_or_error (altNameSequence altName) with ⟨e, hparse⟩ | ⟨t, hparse⟩
    · simp only [hfind, subjectAltNamesFind, hparse]
      exact hcommon
    · simp only [hfind, subjectAltNamesFind, hparse]
      rw [eachBlock_eq]
      obtain ⟨e', he⟩ := @altNamesRound_fold t.members (blocks t.tlvLength t.tlvData t.tlvLength).2 host false
      rw [show (blocks t.tlvLength t.tlvData t.tlvLength).1 = t.members from rfl, he]
      by_cases hany : (dnsNames t.members).any (fun n => wildcardCompare host n.data n.length) = true
      · obtain ⟨n, hn, hmatch⟩ := List.any_eq_true.mp hany
        rw [if_pos hany, if_neg (List.ne_nil_of_mem hn)]
        exact iff_of_true rfl ⟨n, hn, hmatch⟩
      · rw [if_neg hany, Bool.false_or]
        by_cases hnil : dnsNames t.members = []
        · rw [if_pos hnil, hnil]
          exact hcommon
        · have hpresent : (!(dnsNames t.members).isEmpty) = true := by simpa using hnil
          rw [if_neg hnil, hpresent]
          exact iff_of_false (by rintro ⟨⟩) (mt List.any_eq_true.mpr hany)

end

end Netxduo.X509
