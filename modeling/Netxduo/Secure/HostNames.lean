import Netxduo.Secure.HostBinding

/-! The host name check against the rules for server names: case aside, one label for a star, and only dNSNames. -/

namespace Netxduo.X509

/-! ### The names of a subjectAltName -/

/-- A GeneralName as it is encoded: one of nine types, and octets that spell the length of its value. --/
structure GeneralName where
  choice : Fin 9
  constructed : Bool
  lengthOctets : List UInt8
  value : List UInt8
  wellFormed : LengthCode lengthOctets value.length

namespace GeneralName

/-- The tag: context class, and the type's number. --/
def tag (g : GeneralName) : UInt8 := UInt8.ofNat (0x80 + (if g.constructed then 0x20 else 0) + g.choice.val)

def encode (g : GeneralName) : List UInt8 := g.tag :: (g.lengthOctets ++ g.value)

def IsDns (g : GeneralName) : Prop := g.choice = 2

instance (g : GeneralName) : Decidable g.IsDns := inferInstanceAs (Decidable (g.choice = 2))

end GeneralName

def encodeNames (names : List GeneralName) : List UInt8 := names.flatMap GeneralName.encode

/-- The dNSNames among the names, in their order, each with what stands behind its octets. --/
def dnsEntries (behind : List UInt8) : List GeneralName → List Name
  | [] => []
  | g :: names =>
    if g.IsDns then ⟨g.value ++ (encodeNames names ++ behind), g.value.length⟩ :: dnsEntries behind names
    else dnsEntries behind names

/-- The certificate has no subjectAltName, or one that is a sequence of these names. --/
inductive Presents (c : Certificate) (behind : List UInt8) : List GeneralName → Prop
  | absent {e : X509Error} (hfind : extensionFind c .subjectAltName = .error e) : Presents c behind []
  | sequence {names : List GeneralName} {code : List UInt8} (hcode : LengthCode code (encodeNames names).length)
    (hfind : extensionFind c .subjectAltName =
      .ok ⟨0x30 :: (code ++ (encodeNames names ++ behind)), 1 + code.length + (encodeNames names).length⟩) :
    Presents c behind names

/-- The dNSNames, or the common name where there is none. --/
def hostNames (c : Certificate) (behind : List UInt8) (names : List GeneralName) : List Name :=
  if names.any (·.IsDns) then dnsEntries behind names
  else [⟨c.distinguishedName.commonName, c.distinguishedName.commonNameLength⟩]

/-! ### The rules -/

/-- The host is one label, without a dot in it. --/
def OneLabel (label : List UInt8) : Prop := label ≠ [] ∧ dot ∉ label

/-- The host is the name, or has one label where the name has a star; in neither does case count. --/
def MatchesName (host name : List UInt8) : Prop :=
  host.map lower = name.map lower ∨ ∃ label base suffix, name = star :: dot :: suffix ∧ host = label ++ dot :: base ∧
    OneLabel label ∧ base.map lower = suffix.map lower

/-- The host matches octet for octet, and the label for a star does not itself end in one. --/
def MatchesExactly (host name : List UInt8) : Prop :=
  host = name ∨ ∃ label suffix, name = star :: dot :: suffix ∧ host = label ++ dot :: suffix ∧ OneLabel label ∧
    label.getLast? ≠ some star

/-- The host differs from the name in case, or its label for a star ends in one. --/
def MatchesLoosely (host name : List UInt8) : Prop :=
  (host ≠ name ∧ host.map lower = name.map lower) ∨ ∃ label base suffix, name = star :: dot :: suffix ∧
    host = label ++ dot :: base ∧ OneLabel label ∧ base.map lower = suffix.map lower ∧
    (base ≠ suffix ∨ label.getLast? = some star)

/-- The name is a star and no more, a dot is read behind it, and the host is a label. --/
def LoneStar (host : List UInt8) (n : Name) : Prop :=
  n.octets = [star] ∧ n.data.getD 1 0 = dot ∧ OneLabel host ∧ host.getLast? ≠ some star

theorem matchesName_iff {host name : List UInt8} :
    MatchesName host name ↔ MatchesExactly host name ∨ MatchesLoosely host name := by
  constructor
  · rintro (hsame | ⟨label, base, suffix, hname, hhost, hlabel, hbase⟩)
    · by_cases heq : host = name
      · exact .inl (.inl heq)
      · exact .inr (.inl ⟨heq, hsame⟩)
    · by_cases hexact : base = suffix ∧ label.getLast? ≠ some star
      · obtain ⟨rfl, hlast⟩ := hexact
        exact .inl (.inr ⟨label, base, hname, hhost, hlabel, hlast⟩)
      · refine .inr (.inr ⟨label, base, suffix, hname, hhost, hlabel, hbase, ?_⟩)
        by_cases hsuffix : base = suffix
        · exact .inr (not_not.mp fun hlast => hexact ⟨hsuffix, hlast⟩)
        · exact .inl hsuffix
  · rintro ((rfl | ⟨label, suffix, hname, hhost, hlabel, -⟩) | ⟨-, hsame⟩ | ⟨label, base, suffix, hname, hhost, hlabel,
      hbase, -⟩)
    · exact .inl rfl
    · exact .inr ⟨label, suffix, suffix, hname, hhost, hlabel, rfl⟩
    · exact .inl hsame
    · exact .inr ⟨label, base, suffix, hname, hhost, hlabel, hbase⟩

/-- The comparison of the code: octet for octet, or the lone star that runs into what stands behind it. --/
theorem wildcardCompare_cases {host : List UInt8} {n : Name} :
    wildcardCompare host n.data n.length = true ↔ MatchesExactly host n.octets ∨ LoneStar host n := by
  rw [wildcardCompare_iff]
  constructor
  · rintro (rfl | ⟨hwild, l, hl, rfl⟩)
    · exact .inl (.inl rfl)
    · have hoctets := n.octets_wildcard hwild
      rcases n.tail_cases hwild with ⟨htail, -⟩ | htail
      · rw [htail] at hoctets
        rw [htail, List.append_nil]
        exact .inr ⟨hoctets, hwild.2, ⟨hl.ne_nil, hl.plain⟩, hl.last⟩
      · refine .inl (.inr ⟨l, n.base, ?_, ?_, ⟨hl.ne_nil, hl.plain⟩, hl.last⟩)
        · rw [← htail]
          exact hoctets
        · rw [htail]
  · rintro ((rfl | ⟨label, suffix, hname, rfl, hlabel, hlast⟩) | ⟨hname, hdot, hlabel, hlast⟩)
    · exact .inl rfl
    · refine .inr ⟨⟨by rw [hname]; rfl, ?_⟩, label, ⟨hlabel.1, hlabel.2, hlast⟩, by rw [hname]; rfl⟩
      have hsecond : n.octets[1]? = some dot := by rw [hname]; rfl
      obtain ⟨hlt, -⟩ := List.getElem?_eq_some_iff.mp hsecond
      rw [Name.octets, List.length_take] at hlt
      rw [Name.octets, List.getElem?_take_of_lt (by omega)] at hsecond
      rw [List.getD_eq_getElem?_getD, hsecond]
      rfl
    · exact .inr ⟨⟨by rw [hname]; rfl, hdot⟩, host, ⟨hlabel.1, hlabel.2,
        hlast⟩, by rw [hname]; exact (List.append_nil _).symm⟩

/-! ### The walk -/

/-- The tags of the nine types are read, none as NULL, and all of the context class. --/
theorem choice_tag : ∀ (choice : Fin 9) (constructed : Bool),
    let tag := UInt8.ofNat (0x80 + (if constructed then 0x20 else 0) + choice.val)
    tag &&& 0x1F ≠ 0x1F ∧ (tag &&& 0xC0) >>> 6 = asnTagClassContext ∧ plainTag tag ≠ asnTagNull ∧
      (plainTag tag &&& 0x1F = generalNameDns ↔ choice = 2) := by decide

section
variable {behind : List UInt8} {names : List GeneralName}

theorem GeneralName.length_encode (g : GeneralName) :
    g.encode.length = 1 + g.lengthOctets.length + g.value.length := by
  unfold GeneralName.encode
  simp only [List.length_cons, List.length_append]
  omega

theorem parse_name (g : GeneralName) :
    ∃ t, asn1TlvBlockParse (encodeNames (g :: names) ++ behind) (encodeNames (g :: names)).length = .ok t ∧
      t.tlvTagClass = asnTagClassContext ∧ (t.tlvType = generalNameDns ↔ g.IsDns) ∧ t.tlvLength = g.value.length ∧
      t.tlvData = g.value ++ (encodeNames names ++ behind) ∧ t.headerLength = 1 + g.lengthOctets.length ∧
      t.bufferLength = (encodeNames names).length := by
  obtain ⟨hsingle, hclass, hnull, htype⟩ := choice_tag g.choice g.constructed
  have htag : TagRead g.tag := by
    refine ⟨hsingle, ?_, ?_⟩
    · rw [show (g.tag &&& 0xC0) >>> 6 = asnTagClassContext from hclass]
      decide
    · rw [show (g.tag &&& 0xC0) >>> 6 = asnTagClassContext from hclass]
      decide
  have hblock := @parse_block (g.value ++ (encodeNames names ++ behind)) _ _ _
    (g.value.length + (encodeNames names).length) htag hnull g.wellFormed (Nat.le_add_right _ _)
  have hbuffer : encodeNames (g :: names) ++ behind = g.tag ::
    (g.lengthOctets ++ (g.value ++ (encodeNames names ++ behind))) := by
    unfold encodeNames
    rw [List.flatMap_cons, GeneralName.encode]
    simp only [List.cons_append, List.append_assoc]
  have hlength : (encodeNames (g :: names)).length =
      1 + g.lengthOctets.length + (g.value.length + (encodeNames names).length) := by
    rw [encodeNames, List.flatMap_cons, List.length_append, g.length_encode, Nat.add_assoc]
    rfl
  rw [hbuffer, hlength]
  exact ⟨_, hblock, hclass, htype, rfl, rfl, rfl, Nat.add_sub_cancel_left _ _⟩

/-- The walk over the encoded names finds the dNSNames, whatever stands before and between them. --/
theorem dnsNames_encoded (names : List GeneralName) :
    dnsNames (blocks (encodeNames names).length (encodeNames names ++ behind) (encodeNames names).length).1 =
      dnsEntries behind names := by
  induction names with
  | nil => rfl
  | cons g names ih =>
    obtain ⟨t, hparse, hclass, htype, hvalue, hdata, hheader, hleft⟩ := @parse_name behind names g
    have hnext : (encodeNames (g :: names) ++ behind).drop (t.headerLength + t.tlvLength) = encodeNames names ++
      behind := by
      rw [← parse_data hparse, hdata, hvalue, List.drop_left]
    rw [blocks_cons hparse, dnsNames_cons, if_neg (not_not.mpr hclass), hnext, hleft, ih, dnsEntries]
    by_cases hdns : g.IsDns
    · rw [if_neg (not_not.mpr (htype.mpr hdns)), if_pos hdns, hdata, hvalue]
    · rw [if_pos (fun h => hdns (htype.mp h)), if_neg hdns]

theorem dnsEntries_eq_nil (names : List GeneralName) : dnsEntries behind names = [] ↔ names.any (·.IsDns) = false := by
  induction names with
  | nil => exact iff_of_true rfl rfl
  | cons g names ih =>
    rw [dnsEntries, List.any_cons]
    by_cases hdns : g.IsDns
    · rw [if_pos hdns, decide_eq_true hdns, Bool.true_or]
      exact iff_of_false (List.cons_ne_nil _ _) (Ne.symm Bool.false_ne_true)
    · rw [if_neg hdns, ih, decide_eq_false hdns, Bool.false_or]

theorem presentedNames_of_presents {c : Certificate} (h : Presents c behind names) :
    c.presentedNames = hostNames c behind names := by
  have haltNames : c.altNames = dnsEntries behind names := by
    unfold Certificate.altNames
    cases h with
    | absent hfind =>
      rw [hfind]
      rfl
    | sequence hcode hfind =>
      have hblock := @parse_block (encodeNames names ++ behind) _ 0x30 _ (encodeNames names).length
        ⟨by decide, by decide, by decide⟩ (by decide) hcode (Nat.le_refl _)
      rw [hfind]
      dsimp only [altNameSequence]
      rw [hblock]
      dsimp only
      rw [if_neg (by decide)]
      exact dnsNames_encoded names
  unfold Certificate.presentedNames hostNames
  rw [haltNames]
  by_cases hnil : dnsEntries behind names = []
  · rw [if_pos hnil, (dnsEntries_eq_nil names).mp hnil, if_neg Bool.false_ne_true]
  · rw [if_neg hnil, if_pos]
    exact Bool.of_not_eq_false fun h => hnil ((dnsEntries_eq_nil names).mpr h)

end

/-! ### The main result -/

theorem or_iff_or_cancel {p q r : Prop} : (p ∨ q ↔ p ∨ r) ↔ p ∨ (q ↔ r) := by
  by_cases hp : p
  · simp [hp]
  · simp [hp]

/-- The check agrees with the rules exactly where some name matches octet for octet, or where a lone star is taken for
a wildcard just when some name matches but for case or for a star at the end of a label. --/
theorem host_name_check_iff (c : Certificate) (behind : List UInt8) (names : List GeneralName) (host : List UInt8)
    (h : Presents c behind names) :
    (commonNameDnsCheck c host = .ok () ↔ ∃ n ∈ hostNames c behind names, MatchesName host n.octets) ↔
      (∃ n ∈ hostNames c behind names, MatchesExactly host n.octets) ∨
        ((∃ n ∈ hostNames c behind names, LoneStar host n) ↔
          ∃ n ∈ hostNames c behind names, MatchesLoosely host n.octets) := by
  have hcode : commonNameDnsCheck c host = .ok () ↔ (∃ n ∈ hostNames c behind names, MatchesExactly host n.octets) ∨
      ∃ n ∈ hostNames c behind names, LoneStar host n := by
    rw [commonNameDnsCheck_iff, presentedNames_of_presents h, ← exists_or]
    exact exists_congr fun n => by rw [wildcardCompare_cases, and_or_left]
  have hrules : (∃ n ∈ hostNames c behind names, MatchesName host n.octets) ↔
      (∃ n ∈ hostNames c behind names, MatchesExactly host n.octets) ∨
        ∃ n ∈ hostNames c behind names, MatchesLoosely host n.octets := by
    rw [← exists_or]
    exact exists_congr fun n => by rw [matchesName_iff, and_or_left]
  rw [hcode, hrules]
  exact or_iff_or_cancel

/-! ### A host in capitals -/

def smallNames : List GeneralName :=
  [⟨2, false, [1], [0x61], 1, [], rfl, by decide⟩, ⟨2, false, [1], [0x62], 1, [], rfl, by decide⟩]

theorem twoNamesLeaf_presents : Presents twoNamesLeaf [] smallNames :=
  @Presents.sequence _ _ smallNames [6] ⟨6, [], rfl, by decide⟩ (by decide)

theorem host_name_check_iff_two :
    (commonNameDnsCheck twoNamesLeaf [0x41] = .ok () ↔
      ∃ n ∈ hostNames twoNamesLeaf [] smallNames, MatchesName [0x41] n.octets) ↔
      (∃ n ∈ hostNames twoNamesLeaf [] smallNames, MatchesExactly [0x41] n.octets) ∨
        ((∃ n ∈ hostNames twoNamesLeaf [] smallNames, LoneStar [0x41] n) ↔
          ∃ n ∈ hostNames twoNamesLeaf [] smallNames, MatchesLoosely [0x41] n.octets) :=
  host_name_check_iff twoNamesLeaf [] smallNames [0x41] twoNamesLeaf_presents

/-- The leaf has the dNSName a, and is not accepted for the host A. --/
theorem capital_refused : commonNameDnsCheck twoNamesLeaf [0x41] ≠ .ok () ∧ Presents twoNamesLeaf [] smallNames ∧
    ∃ n ∈ hostNames twoNamesLeaf [] smallNames, MatchesName [0x41] n.octets :=
  ⟨by decide, twoNamesLeaf_presents, ⟨[0x61, 0x82, 1, 0x62], 1⟩, List.mem_cons_self, .inl (by decide)⟩

end Netxduo.X509
