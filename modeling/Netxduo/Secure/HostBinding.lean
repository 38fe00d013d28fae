import Netxduo.Secure.ChainVerify

/-! The host names a leaf is accepted for, against the name constraints above it. -/

namespace Netxduo.X509

/-! ### The wildcard -/

/-- A label that a wildcard may stand for. --/
structure Label (l : List UInt8) : Prop where
  ne_nil : l ≠ []
  plain : dot ∉ l
  last : l.getLast? ≠ some star

namespace Name
variable (n : Name)

/-- The name begins with a star, and a dot is read behind it. --/
def IsWildcard : Prop := n.octets.head? = some star ∧ n.data.getD 1 0 = dot

instance : Decidable n.IsWildcard := by
  unfold IsWildcard
  infer_instance

/-- What stands behind the star and its dot. --/
def base : List UInt8 := n.octets.drop 2

/-- What a subtree has to cover for every host of the name to be in it. --/
def bound : List UInt8 := if n.IsWildcard then n.base else n.octets

/-- Behind the star stands a dot, unless the name ends there. --/
theorem tail_cases (h : n.IsWildcard) : n.octets.tail = [] ∧ n.base = [] ∨ n.octets.tail = dot :: n.base := by
  obtain ⟨hstar, hdot⟩ := h
  unfold base octets at *
  cases hdata : n.data with
  | nil =>
    rw [hdata] at hdot
    cases hdot
  | cons a rest =>
    cases hlength : n.length with
    | zero => exact .inl ⟨rfl, rfl⟩
    | succ k =>
      cases rest with
      | nil =>
        rw [hdata] at hdot
        cases hdot
      | cons b rest =>
        rw [hdata] at hdot
        obtain rfl : b = dot := hdot
        cases k with
        | zero => exact .inl ⟨rfl, rfl⟩
        | succ k => exact .inr rfl

theorem octets_wildcard (h : n.IsWildcard) : n.octets = star :: n.octets.tail := by
  obtain ⟨hstar, _⟩ := h
  cases hoctets : n.octets with
  | nil =>
    rw [hoctets] at hstar
    cases hstar
  | cons a rest =>
    rw [hoctets] at hstar
    rw [Option.some.inj hstar]
    rfl

end Name

/-- From their ends, the names agree down to a star that takes what is left. --/
theorem wildcardWalk_iff (afterStar : UInt8) (ds ws : List UInt8) : wildcardWalk afterStar ds ws = true ↔
    ds = ws ∨ (afterStar = dot ∧ ∃ front l, ws = front ++ [star] ∧ ds = front ++ l ∧ l ≠ [] ∧ l.head? ≠ some star ∧ dot ∉ l) := by
  induction ds generalizing ws with
  | nil =>
    cases ws with
    | nil => exact iff_of_true rfl (.inl rfl)
    | cons w ws =>
      refine iff_of_false Bool.false_ne_true ?_
      rintro (h | ⟨_, front, l, _, hds, hne, _⟩)
      · cases h
      · exact hne (List.append_eq_nil_iff.mp hds.symm).2
  | cons d ds ih =>
    cases ws with
    | nil =>
      refine iff_of_false Bool.false_ne_true ?_
      rintro (h | ⟨_, front, l, hws, _⟩)
      · cases h
      · exact List.append_ne_nil_of_right_ne_nil front (List.cons_ne_nil star []) hws.symm
    | cons w ws =>
      unfold wildcardWalk
      by_cases hsame : d = w
      · rw [if_neg (not_not.mpr hsame), ih, hsame]
        constructor
        · rintro (rfl | ⟨hafter, front, l, rfl, rfl, hl⟩)
          · exact .inl rfl
          · exact .inr ⟨hafter, w :: front, l, rfl, rfl, hl⟩
        · rintro (h | ⟨hafter, front, l, hws, hds, hne, hhead, hplain⟩)
          · exact .inl (List.cons.inj h).2
          · cases front with
            | nil =>
              obtain ⟨rfl, rfl⟩ := List.cons.inj hws
              rw [List.nil_append] at hds
              rw [← hds] at hhead
              exact absurd rfl hhead
            | cons f front =>
              exact .inr ⟨hafter, front, l, (List.cons.inj hws).2, (List.cons.inj hds).2, hne, hhead, hplain⟩
      · rw [if_pos hsame]
        by_cases hstar : w = star
        · rw [if_pos hstar]
          split
          · rename_i hinside
            refine iff_of_false Bool.false_ne_true ?_
            rintro (h | ⟨hafter, front, l, hws, hds, _⟩)
            · exact hsame (List.cons.inj h).1
            · cases front with
              | nil =>
                rcases hinside with hlength | hdot
                · exact hlength (by rw [(List.cons.inj hws).2]; rfl)
                · exact hdot hafter
              | cons f front => exact hsame ((List.cons.inj hds).1.trans (List.cons.inj hws).1.symm)
          · rename_i hends
            obtain ⟨hlength, hafter⟩ := not_or.mp hends
            have hws := List.length_eq_zero_iff.mp (not_not.mp hlength)
            have hall : (d :: ds).all (fun c => decide (c ≠ dot)) = true ↔ dot ∉ d :: ds := by
              rw [List.all_eq_true]
              refine ⟨fun h hmem => of_decide_eq_true (h dot hmem) rfl, fun h c hc => decide_eq_true ?_⟩
              rintro rfl
              exact h hc
            rw [hall, hws, hstar]
            constructor
            · intro hplain
              refine .inr ⟨not_not.mp hafter, [], d :: ds, rfl, rfl, List.cons_ne_nil d ds, ?_, hplain⟩
              rintro heq
              exact hsame ((Option.some.inj heq).trans hstar.symm)
            · rintro (h | ⟨_, front, l, hws', hds, _, _, hplain⟩)
              · exact absurd ((List.cons.inj h).1.trans hstar.symm) hsame
              · cases front with
                | nil =>
                  rw [List.nil_append] at hds
                  rw [hds]
                  exact hplain
                | cons f front =>
                  exact absurd (List.cons.inj hws').2.symm (List.append_ne_nil_of_right_ne_nil front (List.cons_ne_nil star []))
        · rw [if_neg hstar]
          refine iff_of_false Bool.false_ne_true ?_
          rintro (h | ⟨_, front, l, hws, hds, _⟩)
          · exact hsame (List.cons.inj h).1
          · cases front with
            | nil => exact hstar (List.cons.inj hws).1
            | cons f front => exact hsame ((List.cons.inj hds).1.trans (List.cons.inj hws).1.symm)

/-- A host is accepted for a name that is the same, or that has a star for its first label. --/
theorem wildcardCompare_iff {host : List UInt8} {n : Name} : wildcardCompare host n.data n.length = true ↔
    host = n.octets ∨ (n.IsWildcard ∧ ∃ l, Label l ∧ host = l ++ n.octets.tail) := by
  unfold wildcardCompare
  rw [wildcardWalk_iff]
  refine or_congr List.reverse_inj ⟨?_, ?_⟩
  · rintro ⟨hdot, front, l, hws, hds, hne, hhead, hplain⟩
    have hoctets : n.octets = star :: front.reverse := by
      have h := congrArg List.reverse hws
      rw [List.reverse_reverse, List.reverse_append] at h
      exact h
    have hhost := congrArg List.reverse hds
    rw [List.reverse_reverse, List.reverse_append] at hhost
    refine ⟨⟨by rw [hoctets]; rfl, hdot⟩, l.reverse, ⟨by simpa using hne, by simpa using hplain, ?_⟩, ?_⟩
    · rw [List.getLast?_reverse]
      exact hhead
    · rw [hhost, hoctets]
      rfl
  · rintro ⟨hwild, l, hl, rfl⟩
    have hoctets := n.octets_wildcard hwild
    refine ⟨hwild.2, n.octets.tail.reverse, l.reverse, ?_, List.reverse_append, by simpa using hl.ne_nil, ?_,
      by simpa using hl.plain⟩
    · rw [show n.data.take n.length = n.octets from rfl]
      conv_lhs => rw [hoctets]
      exact List.reverse_cons
    · rw [List.head?_reverse]
      exact hl.last

/-! ### The subtrees of a wildcard -/

section
variable {n : Name} {l constraint : List UInt8}

/-- What covers everything behind the star covers every host. --/
theorem inSubtree_of_base (hwild : n.IsWildcard) (h : InSubtree n.base constraint) : InSubtree (l ++ n.octets.tail) constraint := by
  obtain ⟨labels, base, heq, hlower, hends⟩ := h
  rcases n.tail_cases hwild with ⟨htail, hbase⟩ | htail
  · rw [hbase] at heq
    obtain ⟨rfl, rfl⟩ := List.append_eq_nil_iff.mp heq.symm
    exact ⟨l ++ n.octets.tail, [], (List.append_nil _).symm, hlower, .inl rfl⟩
  · rw [htail, heq]
    refine ⟨l ++ dot :: labels, base, by simp, hlower, ?_⟩
    rcases hends with hnil | rfl | ⟨front, rfl⟩
    · exact .inl hnil
    · exact .inr (.inr ⟨l, rfl⟩)
    · exact .inr (.inr ⟨l ++ dot :: front, by simp⟩)

/-- A host with a label for the star is in a subtree that covers the rest, or that it is the base of. --/
theorem base_of_inSubtree (hwild : n.IsWildcard) (hplain : dot ∉ l) (h : InSubtree (l ++ n.octets.tail) constraint) :
    InSubtree n.base constraint ∨ (l ++ n.octets.tail).map lower = (stripDot constraint).map lower := by
  obtain ⟨labels, base, heq, hlower, hends⟩ := h
  rcases hends with rfl | rfl | ⟨front, rfl⟩
  · exact .inl ⟨n.base, [], (List.append_nil _).symm, hlower, .inl rfl⟩
  · rw [List.nil_append] at heq
    rw [heq]
    exact .inr hlower
  · refine .inl ?_
    rw [List.append_assoc, List.singleton_append] at heq
    -- the dot before the base is not one of the label's
    rcases List.append_eq_append_iff.mp heq with ⟨more, hfront, htail⟩ | ⟨more, hl, hrest⟩
    · rcases n.tail_cases hwild with ⟨hnil, _⟩ | hdot
      · rw [hnil] at htail
        exact absurd htail.symm (List.append_ne_nil_of_right_ne_nil more (List.cons_ne_nil dot base))
      · rw [hdot] at htail
        cases more with
        | nil => exact ⟨[], n.base, rfl, by rw [(List.cons.inj htail).2]; exact hlower, .inr (.inl rfl)⟩
        | cons m more =>
          refine ⟨more ++ [dot], base, ?_, hlower, .inr (.inr ⟨more, rfl⟩)⟩
          rw [List.append_assoc]
          exact (List.cons.inj htail).2
    · cases more with
      | nil =>
        rw [List.nil_append] at hrest
        rcases n.tail_cases hwild with ⟨hnil, _⟩ | hdot
        · rw [hnil] at hrest
          cases hrest
        · rw [hdot] at hrest
          exact ⟨[], n.base, rfl, by rw [← (List.cons.inj hrest).2]; exact hlower, .inr (.inl rfl)⟩
      | cons m more =>
        obtain ⟨rfl, _⟩ := List.cons.inj hrest
        exact absurd (hl ▸ List.mem_append_right front List.mem_cons_self) hplain

end

/-! ### The hosts and the names -/

/-- Every host the leaf is accepted for is in some permitted subtree of the CA, if there is one, and in no excluded one. --/
def HostsBound (ca leaf : Certificate) : Prop :=
  ∀ host, host ≠ [] → commonNameDnsCheck leaf host = .ok () →
    (ca.permittedSubtrees ≠ [] → ∃ p ∈ ca.permittedSubtrees, InSubtree host p) ∧
      ∀ x ∈ ca.excludedSubtrees, ¬InSubtree host x

/-- Every name of the leaf is in a permitted subtree, not only one of them, and no excluded subtree lies one label
below a wildcard. --/
structure NamesKept (ca leaf : Certificate) : Prop where
  permitted : ca.permittedSubtrees ≠ [] → ∀ n ∈ leaf.presentedNames, n.octets ≠ [] →
    ∃ p ∈ ca.permittedSubtrees, InSubtree n.bound p
  excluded : ∀ x ∈ ca.excludedSubtrees, ∀ n ∈ leaf.presentedNames, n.IsWildcard → ∀ l, Label l →
    (l ++ n.octets.tail).map lower ≠ (stripDot x).map lower

section
variable {ca leaf : Certificate} {host : List UInt8} {n : Name}

theorem accepted_octets (hn : n ∈ leaf.presentedNames) : commonNameDnsCheck leaf n.octets = .ok () :=
  commonNameDnsCheck_iff.mpr ⟨n, hn, wildcardCompare_iff.mpr (.inl rfl)⟩

theorem accepted_label {l : List UInt8} (hn : n ∈ leaf.presentedNames) (hwild : n.IsWildcard) (hl : Label l) :
    commonNameDnsCheck leaf (l ++ n.octets.tail) = .ok () :=
  commonNameDnsCheck_iff.mpr ⟨n, hn, wildcardCompare_iff.mpr (.inr ⟨hwild, l, hl, rfl⟩)⟩

/-- A label that is longer than any given length. --/
def longLabel (k : Nat) : List UInt8 := List.replicate (k + 1) 0x61

theorem longLabel_label (k : Nat) : Label (longLabel k) where
  ne_nil := List.cons_ne_nil _ _
  plain := fun hmem => absurd (List.eq_of_mem_replicate hmem) (by decide)
  last := by
    intro h
    have hmem := List.mem_of_getLast? h
    exact absurd (List.eq_of_mem_replicate hmem) (by decide)

theorem NamesKept.hostsBound (h : NamesKept ca leaf) (hexcluded : ∀ x ∈ ca.excludedSubtrees, leafDnsConstrained leaf x = false) :
    HostsBound ca leaf := by
  intro host hne haccepted
  obtain ⟨n, hn, hmatch⟩ := commonNameDnsCheck_iff.mp haccepted
  have houtside : ∀ x ∈ ca.excludedSubtrees, n.octets ≠ [] → ¬InSubtree n.octets x := by
    intro x hx hoctets hin
    refine absurd (hexcluded x hx) (Bool.ne_false_iff.mpr ((leafDnsConstrained_iff x).mpr ⟨n, hn, fun _ => ?_, hin⟩))
    refine Nat.pos_of_ne_zero (fun hzero => hoctets ?_)
    unfold Name.octets
    rw [hzero]
    rfl
  rcases wildcardCompare_iff.mp hmatch with rfl | ⟨hwild, l, hl, rfl⟩
  · refine ⟨fun hpermitted => ?_, fun x hx => houtside x hx hne⟩
    obtain ⟨p, hp, hin⟩ := h.permitted hpermitted n hn hne
    refine ⟨p, hp, ?_⟩
    by_cases hwild : n.IsWildcard
    · rw [Name.bound, if_pos hwild] at hin
      rw [n.octets_wildcard hwild]
      exact @inSubtree_of_base n [star] p hwild hin
    · rw [Name.bound, if_neg hwild] at hin
      exact hin
  · have hoctets : n.octets ≠ [] := by
      rw [n.octets_wildcard hwild]
      exact List.cons_ne_nil _ _
    refine ⟨fun hpermitted => ?_, fun x hx hin => ?_⟩
    · obtain ⟨p, hp, hin⟩ := h.permitted hpermitted n hn hoctets
      rw [Name.bound, if_pos hwild] at hin
      exact ⟨p, hp, inSubtree_of_base hwild hin⟩
    · rcases base_of_inSubtree hwild hl.plain hin with hbase | hsame
      · refine houtside x hx hoctets ?_
        rw [n.octets_wildcard hwild]
        exact @inSubtree_of_base n [star] x hwild hbase
      · exact h.excluded x hx n hn hwild l hl hsame

theorem HostsBound.namesKept (h : HostsBound ca leaf) : NamesKept ca leaf where
  permitted := by
    intro hpermitted n hn hoctets
    by_cases hwild : n.IsWildcard
    · -- a label that is too long for any of the subtrees to reach
      have hlong := longLabel_label ((ca.permittedSubtrees.map List.length).sum)
      obtain ⟨p, hp, hin⟩ := (h _ (List.append_ne_nil_of_left_ne_nil hlong.ne_nil _) (accepted_label hn hwild hlong)).1 hpermitted
      refine ⟨p, hp, ?_⟩
      rw [Name.bound, if_pos hwild]
      rcases base_of_inSubtree hwild hlong.plain hin with hbase | hsame
      · exact hbase
      · have hlength := length_eq_of_lower hsame
        have hp' := List.single_le_sum (fun _ _ => Nat.zero_le _) _ (List.mem_map_of_mem (f := List.length) hp)
        have hstrip : (stripDot p).length ≤ p.length := by
          unfold stripDot
          split
          · rw [List.length_tail]
            exact Nat.sub_le _ _
          · exact Nat.le_refl _
        rw [List.length_append, longLabel, List.length_replicate] at hlength
        omega
    · obtain ⟨p, hp, hin⟩ := (h _ hoctets (accepted_octets hn)).1 hpermitted
      refine ⟨p, hp, ?_⟩
      rw [Name.bound, if_neg hwild]
      exact hin
  excluded := by
    intro x hx n hn hwild l hl hsame
    refine (h _ (List.append_ne_nil_of_left_ne_nil hl.ne_nil _) (accepted_label hn hwild hl)).2 x hx ?_
    exact ⟨[], l ++ n.octets.tail, rfl, hsame, .inr (.inl rfl)⟩

end

/-- The CAs of a chain: what the names lead to above the leaf, and the trust anchor. --/
inductive OnChain (store : CertificateStore) (leaf : Certificate) : Certificate → Prop
  | intermediate {i : Nat} {ca : Certificate} (walked : Walked store leaf (i + 1) ca) : OnChain store leaf ca
  | anchor {i : Nat} {c ca : Certificate} (walked : Walked store leaf i c) (other : ¬c.SelfIssued)
      (found : storeCertificateFind store c.issuer = .ok (ca, .trusted)) : OnChain store leaf ca

section
variable {v : Verifier} {store : CertificateStore} {leaf ca : Certificate} {time : UInt32}

/-- The constraints of every CA of an accepted chain were held against the leaf. --/
theorem onChain_checked (h : certificateChainVerify v store leaf time = some (.ok ())) (hca : OnChain store leaf ca) :
    nameConstraintsCheck ca leaf = .ok () ∨ nameConstraintsCheck ca leaf = .error .extensionNotFound := by
  cases hca with
  | intermediate walked =>
    obtain ⟨fuel, location, _, hloop⟩ := walked_passed h walked
    exact (policy_ok (certificateCheck_ok (chainVerifyLoop_ok hloop).1).1).1
  | anchor walked other found =>
    obtain ⟨fuel, location, _, hloop⟩ := walked_passed h walked
    cases (chainVerifyLoop_ok hloop).2 with
    | anchored issuer _ hfound _ bound =>
      have hfind := (issuerFind_ok hfound).1
      rw [found] at hfind
      obtain ⟨rfl, _⟩ := Prod.mk.inj (Except.ok.inj hfind)
      unfold anchorCheck at bound
      rcases ok_or_error (nameConstraintsCheck ca leaf) with ⟨e, hcheck⟩ | ⟨⟨⟩, hcheck⟩
      · simp only [hcheck] at bound
        split at bound
        · cases bound
        rename_i he
        exact .inr (by rw [hcheck, not_not.mp he])
      · exact .inl hcheck
    | onward issuer next _ hfound untrusted =>
      have hfind := (issuerFind_ok hfound).1
      rw [found] at hfind
      exact absurd (Prod.mk.inj (Except.ok.inj hfind)).2.symm untrusted
    | selfSigned self => exact absurd self other

end

/-! ### A leaf with two names -/

/-- A leaf with the dNSNames a and b. --/
def twoNamesLeaf : Certificate :=
  { plainCertificate [2] [0x4C] [0x52] with
    extensionsData := [0x30, 0x0F, 0x06, 0x03, 0x55, 0x1D, 0x11, 0x04, 0x08, 0x30, 0x06, 0x82, 0x01, 0x61, 0x82, 0x01, 0x62]
    extensionsDataLength := 17 }

/-- A root that may issue below a. --/
def constrainingRoot : Certificate :=
  { plainCertificate [1] [0x52] [0x52] with
    extensionsData := [0x30, 0x0C, 0x06, 0x03, 0x55, 0x1D, 0x13, 0x04, 0x05, 0x30, 0x03, 0x01, 0x01, 0xFF,
      0x30, 0x10, 0x06, 0x03, 0x55, 0x1D, 0x1E, 0x04, 0x09, 0x30, 0x07, 0xA0, 0x05, 0x30, 0x03, 0x82, 0x01, 0x61]
    extensionsDataLength := 32 }

def constrainedStore : CertificateStore := ⟨[constrainingRoot], [], [twoNamesLeaf]⟩

def rootSigningVerifier : Verifier := ⟨fun _ issuer => decide (issuer = constrainingRoot), false⟩

end Netxduo.X509
