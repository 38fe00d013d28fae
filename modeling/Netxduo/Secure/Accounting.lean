import Netxduo.Secure.Certificate

/-! The accounting of the block parser: what it looks at, what a block takes, and what is left to a loop over blocks. -/

namespace Netxduo.X509

/-! ### One block -/

/-- How many octets `_nx_secure_x509_asn1_tlv_block_parse` looks at before it returns, all of them at the front. --/
def octetsRead (buffer : List UInt8) (bufferLength : Nat) : Nat :=
  if bufferLength < 1 then 0
  else
    let currentTag := buffer.getD 0 0
    let tagClass := (currentTag &&& 0xC0) >>> 6
    if currentTag &&& 0x1F = 0x1F then 1
    else if tagClass = asnTagClassApplication ∨ tagClass = asnTagClassPrivate then 1
    else if bufferLength - 1 < 1 then 1
    else if plainTag currentTag = asnTagNull then 1
    else
      let length := buffer.getD 1 0
      let lengthBytes := if length &&& 0x80 ≠ 0 then (length &&& 0x7F).toNat else 0
      if lengthBytes > 4 ∨ lengthBytes > bufferLength - 1 - 1 then 2 else 2 + lengthBytes

section
variable {buffer : List UInt8} {k : Nat} {t : Tlv}

theorem octetsRead_le : octetsRead buffer k ≤ k := by
  unfold octetsRead
  dsimp only
  split
  · exact Nat.zero_le k
  split
  · omega
  split
  · omega
  split
  · omega
  split
  · omega
  generalize (if buffer.getD 1 0 &&& 0x80 ≠ 0 then (buffer.getD 1 0 &&& 0x7F).toNat else 0) = n
  split <;> omega

theorem octetsRead_pos (h : 1 ≤ k) : 0 < octetsRead buffer k := by
  unfold octetsRead
  dsimp only
  rw [if_neg (by omega)]
  generalize (if buffer.getD 1 0 &&& 0x80 ≠ 0 then (buffer.getD 1 0 &&& 0x7F).toNat else 0) = n
  split_ifs <;> omega

/-- What the parser looks at decides what it returns, the pointer apart. --/
theorem parse_reads {more : List UInt8} (hread : octetsRead (buffer ++ more) k ≤ buffer.length) :
    (asn1TlvBlockParse (buffer ++ more) k).map (fun t => { t with tlvData := [] }) =
      (asn1TlvBlockParse buffer k).map (fun t => { t with tlvData := [] }) := by
  unfold asn1TlvBlockParse
  dsimp only
  by_cases hk : k < 1
  · rw [if_pos hk, if_pos hk]
  have hfirst : (buffer ++ more).getD 0 0 = buffer.getD 0 0 := by
    cases buffer with
    | nil => exact absurd (Nat.lt_of_lt_of_le (octetsRead_pos (Nat.not_lt.mp hk)) hread) (Nat.lt_irrefl 0)
    | cons tag rest => rfl
  unfold octetsRead at hread
  dsimp only at hread
  rw [if_neg hk, hfirst] at hread
  rw [if_neg hk, if_neg hk, hfirst]
  split
  · rfl
  rename_i hsingle
  split
  · rfl
  rename_i hclass
  split
  · rfl
  rename_i hroom
  split
  · rfl
  rename_i hnull
  rw [if_neg hsingle, if_neg hclass, if_neg hroom, if_neg hnull] at hread
  have htwo : 2 ≤ buffer.length := by
    revert hread
    generalize (if (buffer ++ more).getD 1 0 &&& 0x80 ≠ 0 then ((buffer ++ more).getD 1 0 &&& 0x7F).toNat else 0) = n
    intro hread
    split at hread <;> omega
  have hsecond : (buffer ++ more).getD 1 0 = buffer.getD 1 0 := List.getD_append _ _ _ _ htwo
  rw [hsecond] at hread ⊢
  generalize hbytes : (if buffer.getD 1 0 &&& 0x80 ≠ 0 then (buffer.getD 1 0 &&& 0x7F).toNat else 0) = n at hread ⊢
  by_cases hlong : n > 4 ∨ n > k - 1 - 1
  · rw [if_pos hlong, if_pos hlong]
  rw [if_neg hlong] at hread
  have htake : ((buffer ++ more).drop 2).take n = (buffer.drop 2).take n := by
    rw [List.drop_append_of_le_length htwo, List.take_append_of_le_length (by rw [List.length_drop]; omega)]
  rw [if_neg hlong, if_neg hlong, htake]
  generalize (if buffer.getD 1 0 &&& 0x80 ≠ 0 then lengthValue ((buffer.drop 2).take n)
    else (buffer.getD 1 0).toNat) = length
  split <;> rfl

/-- The value of a block ends inside the octets that are there. Header, value and rest make up the buffer for every
block but NULL, which is counted as one octet too many. --/
theorem parse_sum (h : asn1TlvBlockParse buffer k = .ok t) : t.headerLength + t.tlvLength ≤ k ∧
    t.headerLength + t.tlvLength + t.bufferLength = if plainTag (buffer.getD 0 0) = asnTagNull then k + 1 else k := by
  unfold asn1TlvBlockParse at h
  dsimp only at h
  split at h
  · cases h
  split at h
  · cases h
  split at h
  · cases h
  split at h
  · cases h
  split at h
  · rename_i hnull
    obtain rfl := Except.ok.inj h
    rw [if_pos hnull]
    dsimp only
    omega
  rename_i hnull
  rw [if_neg hnull]
  generalize (if buffer.getD 1 0 &&& 0x80 ≠ 0 then (buffer.getD 1 0 &&& 0x7F).toNat else 0) = n at h
  by_cases hlong : n > 4 ∨ n > k - 1 - 1
  · rw [if_pos hlong] at h
    cases h
  rw [if_neg hlong] at h
  generalize (if buffer.getD 1 0 &&& 0x80 ≠ 0 then lengthValue ((buffer.drop 2).take n)
    else (buffer.getD 1 0).toNat) = length at h
  by_cases hlength : length > k - 1 - 1 - n
  · rw [if_pos hlength] at h
    cases h
  · rw [if_neg hlength] at h
    obtain rfl := Except.ok.inj h
    dsimp only
    omega

theorem tagRead_of_null {tag : UInt8} (h : plainTag tag = asnTagNull) : TagRead tag := by
  have hall : ∀ n : Fin 256, plainTag (UInt8.ofNat n.val) = asnTagNull →
      UInt8.ofNat n.val &&& 0x1F ≠ 0x1F ∧ (UInt8.ofNat n.val &&& 0xC0) >>> 6 ≠ asnTagClassApplication ∧
        (UInt8.ofNat n.val &&& 0xC0) >>> 6 ≠ asnTagClassPrivate := by decide +kernel
  have htag := hall ⟨tag.toNat, tag.toNat_lt⟩
  rw [UInt8.ofNat_toNat] at htag
  obtain ⟨hsingle, happlication, hprivate⟩ := htag h
  exact ⟨hsingle, happlication, hprivate⟩

end

/-! ### A loop over blocks -/

/-- Where a loop stands: the octets it has passed, the length it still counts, and its local variables. --/
structure Loop (σ : Type) where
  position : Nat
  remaining : Nat
  state : σ

namespace Loop

section
variable {σ ρ : Type} (buffer : List UInt8) (body : Tlv → σ → Round σ ρ)

/-- The block that the loop comes to. --/
def block (l : Loop σ) : Except AsnError Tlv := asn1TlvBlockParse (buffer.drop l.position) l.remaining

/-- One round: past the header and the value, with the length that the parser leaves. --/
inductive Next : Loop σ → Loop σ → Prop
  | round {l : Loop σ} {t : Tlv} {s : σ} (hblock : l.block buffer = .ok t) (hbody : body t l.state = .next s) :
    Next l ⟨l.position + (t.headerLength + t.tlvLength), t.bufferLength, s⟩

/-- The loop stands at a NULL that is long enough to be parsed. --/
def AtNull (l : Loop σ) : Prop := 2 ≤ l.remaining ∧ plainTag ((buffer.drop l.position).getD 0 0) = asnTagNull

/-- What the parser reads is within the first `k` octets, and so is the block, which with the rest makes up the
length. --/
structure Accounted (k : Nat) (l : Loop σ) : Prop where
  reads : l.position + octetsRead (buffer.drop l.position) l.remaining ≤ k
  whole : ∀ t, l.block buffer = .ok t → t.headerLength + t.tlvLength + t.bufferLength = l.remaining
  inside : ∀ t, l.block buffer = .ok t → t.tlvData = buffer.drop (l.position + t.headerLength) ∧
    l.position + t.headerLength + t.tlvLength ≤ k

end

section
variable {σ ρ : Type} {buffer : List UInt8} {body : Tlv → σ → Round σ ρ} {l l' : Loop σ} {k : Nat}

theorem Next.remaining_lt (h : Next buffer body l l') : l'.remaining < l.remaining := by
  obtain ⟨hblock, -⟩ := h
  exact (parse_shape hblock).2.2.1

/-- A round of the relation is a round of the loop in the code. --/
theorem Next.eachBlock {failed : AsnError → σ → ρ} {ended : σ → ρ} (h : Next buffer body l l') :
    eachBlock failed ended body l.remaining (buffer.drop l.position) l.remaining l.state =
      eachBlock failed ended body l'.remaining (buffer.drop l'.position) l'.remaining l'.state := by
  obtain ⟨hblock, hbody⟩ := h
  rw [eachBlock_eq, eachBlock_eq, blocks_cons hblock, foldBlocks, hbody, List.drop_drop]

theorem atNull_block (h : l.AtNull buffer) : ∃ t, l.block buffer = .ok t := by
  obtain ⟨hremaining, hnull⟩ := h
  have htag := tagRead_of_null hnull
  unfold block asn1TlvBlockParse
  dsimp only
  rw [if_neg (by omega), if_neg htag.single, if_neg (not_or.mpr ⟨htag.application, htag.privateUse⟩),
    if_neg (by omega), if_pos hnull]
  exact ⟨_, rfl⟩

theorem remaining_of_block {t : Tlv} (h : l.block buffer = .ok t) : 2 ≤ l.remaining := by
  unfold block asn1TlvBlockParse at h
  dsimp only at h
  split at h
  · cases h
  split at h
  · cases h
  split at h
  · cases h
  split at h
  · cases h
  omega

/-- Away from NULL a round leaves position and length in step. --/
theorem Next.step (h : Next buffer body l l') (hnull : ¬l.AtNull buffer) (hin : l.position + l.remaining = k) :
    l'.position + l'.remaining = k := by
  obtain ⟨hblock, -⟩ := h
  have hlength := (parse_sum hblock).2
  rw [if_neg (fun htag => hnull ⟨remaining_of_block hblock, htag⟩)] at hlength
  dsimp only
  omega

theorem accounted_of_step (hnull : ¬l.AtNull buffer) (hin : l.position + l.remaining = k) : l.Accounted buffer k := by
  refine ⟨?_, fun t hblock => ?_, fun t hblock => ⟨?_, ?_⟩⟩
  · have hread : octetsRead (buffer.drop l.position) l.remaining ≤ l.remaining := octetsRead_le
    omega
  · have hlength := (parse_sum hblock).2
    rwa [if_neg (fun htag => hnull ⟨remaining_of_block hblock, htag⟩)] at hlength
  · rw [(parse_shape hblock).1, List.drop_drop]
  · have hvalue := (parse_sum hblock).1
    omega

theorem not_accounted_of_null (h : l.AtNull buffer) : ¬l.Accounted buffer k := by
  intro haccounted
  obtain ⟨t, hblock⟩ := atNull_block h
  have hlength := (parse_sum hblock).2
  rw [if_pos h.2, haccounted.whole t hblock] at hlength
  omega

/-- Every round that a loop comes to is accounted for, as long as none of them before it was at a NULL. --/
theorem step_of_reaches {s : σ} (hnull : ∀ l, Relation.ReflTransGen (Next buffer body) ⟨0, k, s⟩ l → ¬l.AtNull buffer)
    (h : Relation.ReflTransGen (Next buffer body) ⟨0, k, s⟩ l) : l.position + l.remaining = k := by
  induction h with
  | refl => exact Nat.zero_add k
  | tail hreaches hnext ih => exact hnext.step (hnull _ hreaches) ih

/-- A loop makes at most as many rounds as octets are counted. --/
theorem rounds_le {run : Nat → Loop σ} {n : Nat} (h : ∀ i < n, Next buffer body (run i) (run (i + 1))) :
    (run n).remaining + n ≤ (run 0).remaining := by
  induction n with
  | zero => exact Nat.le_refl _
  | succ n ih =>
    have hlt := (h n (Nat.lt_succ_self n)).remaining_lt
    have hle := ih (fun i hi => h i (Nat.lt_succ_of_lt hi))
    omega

end

end Loop

/-! ### The main result -/

/-- One call and every loop: the lengths add up, and what is read is inside, exactly where no NULL is come to. --/
theorem tlv_accounting_iff (buffer : List UInt8) (k : Nat) :
    (∀ t, asn1TlvBlockParse buffer k = .ok t →
      ((t.headerLength + t.tlvLength + t.bufferLength = k ∧ t.tlvData = buffer.drop t.headerLength ∧
          t.headerLength + t.tlvLength ≤ k) ↔ plainTag (buffer.getD 0 0) ≠ asnTagNull)) ∧
    ∀ (σ ρ : Type) (body : Tlv → σ → Round σ ρ) (s : σ),
      ((∀ l, Relation.ReflTransGen (Loop.Next buffer body) ⟨0, k, s⟩ l → l.Accounted buffer k) ↔
        ∀ l, Relation.ReflTransGen (Loop.Next buffer body) ⟨0, k, s⟩ l → ¬l.AtNull buffer) ∧
      (∀ l l', Loop.Next buffer body l l' → l'.remaining < l.remaining) ∧
      ∀ (run : Nat → Loop σ) (n : Nat), run 0 = ⟨0, k, s⟩ → (∀ i < n, Loop.Next buffer body (run i) (run (i + 1))) →
        n ≤ k := by
  refine ⟨fun t h => ⟨fun hsum hnull => ?_, fun hnull => ⟨?_, (parse_shape h).1, (parse_sum h).1⟩⟩,
    fun σ ρ body s => ⟨⟨fun haccounted l hl hnull => ?_, fun hnull l hl => ?_⟩, fun l l' hnext => hnext.remaining_lt,
      fun run n hstart hrun => ?_⟩⟩
  · have hlength := (parse_sum h).2
    rw [if_pos hnull, hsum.1] at hlength
    omega
  · have hlength := (parse_sum h).2
    rwa [if_neg hnull] at hlength
  · exact Loop.not_accounted_of_null hnull (haccounted l hl)
  · exact Loop.accounted_of_step (hnull l hl) (Loop.step_of_reaches hnull hl)
  · have hrounds := Loop.rounds_le hrun
    rw [hstart] at hrounds
    dsimp only at hrounds
    omega

/-- 05 00: the parser takes one octet for the header and one for the value, and says that one is left. --/
theorem null_counted_twice :
    (∃ t, asn1TlvBlockParse [5, 0] 2 = .ok t ∧ t.headerLength + t.tlvLength + t.bufferLength ≠ 2) ∧
    ∃ l : Loop Unit, Relation.ReflTransGen (Loop.Next [5, 0] (fun (_ : Tlv) (s : Unit) => (Round.next s :
      Round Unit Unit)))
      ⟨0, 2, ()⟩ l ∧ ¬l.position + octetsRead (([5, 0] : List UInt8).drop l.position) l.remaining ≤ 2 := by
  refine ⟨⟨⟨5, 0, 1, 1, [0], 1⟩, by decide, by decide⟩, ⟨2, 1, ()⟩, .single ?_, by decide⟩
  exact .round (t := ⟨5, 0, 1, 1, [0], 1⟩) (by decide) rfl

end Netxduo.X509
