import Netxduo.Packets.Offsets

/-! The padding of a decrypted record: what the check of a CBC payload takes for padding, and what it leaves. -/

namespace Netxduo.Tls.CbcPadding
open Netxduo.Packets.Offsets

/-! ### The source -/

/-- `NX_SECURE_TLS_MAX_CIPHER_BLOCK_SIZE`: the octets of the padding are looked at in chunks of this size. --/
def maxCipherBlockSize : Nat := 128

inductive PaddingStatus
  | success
  | paddingCheckFailed
deriving DecidableEq, Repr

/-- What is left: the status, the length of the decrypted packet, and how many times it is released. --/
structure PaddingResult where
  status : PaddingStatus
  length : Nat
  released : Nat
deriving DecidableEq, Repr

/-- `copy_size` is a UCHAR. --/
def copySize (messageLength offset : Nat) : Nat :=
  let copySize := (messageLength - 1 - offset) % 256
  if copySize > maxCipherBlockSize then maxCipherBlockSize else copySize

/-- The status after a chunk. The break leaves the loop over the chunk only, and the extraction of the next chunk
writes the status again. --/
def chunkStatus (paddingLength : UInt8) (blockBuffer : List UInt8) : PaddingStatus :=
  if blockBuffer.any (fun octet => decide (octet ≠ paddingLength)) then .paddingCheckFailed else .success

/-- The loop over the chunks. It has no result where an extraction fails, which is asserted not to happen. --/
def paddingLoop (packet : Packet) (messageLength : Nat) (paddingLength : UInt8) : Nat → Nat → PaddingStatus →
    Option PaddingStatus
  | 0, _, _ => none
  | fuel + 1, offset, status =>
    if offset < messageLength - 1 then
      match dataExtractOffset packet offset (copySize messageLength offset) with
      | .error _ => none
      | .ok blockBuffer =>
        paddingLoop packet messageLength paddingLength fuel (offset +
          blockBuffer.length) (chunkStatus paddingLength blockBuffer)
    else some status

/-- The CBC branch of `_nx_secure_tls_record_payload_decrypt`, from the decrypted packet on. --/
def cbcPaddingCheck (decryptedPacket : Packet) : Option PaddingResult :=
  let messageLength := decryptedPacket.length
  match dataExtractOffset decryptedPacket ((messageLength + 2 ^ 32 - 1) % 2 ^ 32) 1 with
  | .error _ => some ⟨.paddingCheckFailed, messageLength, 1⟩
  | .ok octets =>
    let paddingLength := octets.headD 0
    let checked :=
      if paddingLength.toNat < messageLength then
        paddingLoop decryptedPacket messageLength paddingLength (messageLength +
          2) (messageLength - (1 + paddingLength.toNat))
          .success
      else some .paddingCheckFailed
    checked.map fun status =>
      ⟨status, (messageLength + 2 ^ 32 - (paddingLength.toNat + 1)) % 2 ^ 32, if status = .success then 0 else 1⟩

/-! ### The padding -/

/-- The octets end in padding: an octet, and as many like it in front of it as it says. --/
def Padded (octets : List UInt8) : Prop :=
  ∃ body pad, octets = body ++ (List.replicate pad.toNat pad ++ [pad])

/-- The padding is longer than a chunk, a wrong octet is in the first chunk of it, and the others are right. --/
def HiddenFault (octets : List UInt8) : Prop :=
  ∃ body first pad, 128 < pad.toNat ∧ octets = body ++ (first ++ List.replicate (pad.toNat - 128) pad ++ [pad]) ∧
    first.length = 128 ∧ first ≠ List.replicate 128 pad

theorem chunkStatus_iff {pad : UInt8} {chunk : List UInt8} :
    chunkStatus pad chunk = .success ↔ chunk = List.replicate chunk.length pad := by
  unfold chunkStatus
  rw [List.eq_replicate_length]
  constructor
  · intro h octet hoctet
    by_contra hne
    rw [if_pos (List.any_eq_true.mpr ⟨octet, hoctet, decide_eq_true hne⟩)] at h
    cases h
  · intro h
    rw [if_neg]
    intro hany
    obtain ⟨octet, hoctet, hne⟩ := List.any_eq_true.mp hany
    exact of_decide_eq_true hne (h octet hoctet)

section
variable {p : Packet} {body middle : List UInt8} {pad : UInt8}

/-- One round, with fewer than 256 octets of padding to go. --/
theorem paddingLoop_round (h : p.WellFormed) (hoctets : p.octets = body ++ (middle ++ [pad])) (hlt : middle.length <
    256)
    (hne : middle ≠ []) (fuel : Nat) (status : PaddingStatus) :
    paddingLoop p p.length pad (fuel + 1) body.length status =
      paddingLoop p p.length pad fuel (body ++ middle.take 128).length (chunkStatus pad (middle.take 128)) := by
  have hlength : p.length = body.length + (middle.length + 1) := by
    rw [h.length, hoctets, List.length_append, List.length_append, List.length_singleton]
  have hpos := List.length_pos_iff.mpr hne
  have hsize : copySize p.length body.length = min 128 middle.length := by
    unfold copySize maxCipherBlockSize
    rw [show p.length - 1 - body.length = middle.length by omega, Nat.mod_eq_of_lt hlt]
    dsimp only
    split <;> omega
  have hchunk : dataExtractOffset p body.length (copySize p.length body.length) = .ok (middle.take 128) := by
    rw [dataExtractOffset_spec h _ (.inl (by omega)), hsize, hoctets, List.drop_left,
      List.take_append_of_le_length (Nat.min_le_right _ _)]
    congr 1
    rcases Nat.le_total 128 middle.length with hle | hle
    · rw [Nat.min_eq_left hle]
    · rw [Nat.min_eq_right hle, List.take_length, List.take_of_length_le hle]
  rw [paddingLoop, if_pos (by omega), hchunk, List.length_append]

theorem paddingLoop_end (h : p.WellFormed) (hoctets : p.octets = body ++ [pad]) (fuel : Nat) (status : PaddingStatus) :
    paddingLoop p p.length pad (fuel + 1) body.length status = some status := by
  have hlength : p.length = body.length + 1 := by rw [h.length, hoctets, List.length_append, List.length_singleton]
  rw [paddingLoop, if_neg (by omega)]

/-- What the loop comes to is the status of the last chunk. --/
theorem paddingLoop_spec (h : p.WellFormed) (hoctets : p.octets = body ++ (middle ++ [pad])) (hlt : middle.length < 256)
    (fuel : Nat) : paddingLoop p p.length pad (fuel + 3) body.length .success =
      some (chunkStatus pad (middle.drop (if 128 < middle.length then 128 else 0))) := by
  by_cases hnil : middle = []
  · subst hnil
    exact paddingLoop_end h hoctets _ _
  rw [paddingLoop_round h hoctets hlt hnil]
  have hsplit : p.octets = body ++ middle.take 128 ++ (middle.drop 128 ++ [pad]) := by
    rw [hoctets, List.append_assoc, ← List.append_assoc (middle.take 128), List.take_append_drop]
  by_cases hlong : 128 < middle.length
  · have hdrop : (middle.drop 128).length = middle.length - 128 := List.length_drop
    have hne : middle.drop 128 ≠ [] := by
      intro heq
      rw [heq] at hdrop
      exact absurd hdrop (by simp; omega)
    have hall : (middle.drop 128).take 128 = middle.drop 128 := List.take_of_length_le (by omega)
    rw [paddingLoop_round h hsplit (by omega) hne, hall, if_pos hlong]
    refine paddingLoop_end h ?_ _ _
    rw [hsplit, List.append_assoc _ (middle.drop 128)]
  · have hall : middle.take 128 = middle := List.take_of_length_le (by omega)
    rw [hall, if_neg hlong, List.drop_zero]
    refine paddingLoop_end h ?_ _ _
    rw [hoctets, List.append_assoc]

/-- The whole branch, for a payload that ends in an octet. --/
theorem cbcPaddingCheck_spec (h : p.WellFormed) (hlength : p.length < 2 ^ 32) {front : List UInt8}
    (hoctets : p.octets = front ++ [pad]) :
    cbcPaddingCheck p =
      if pad.toNat ≤ front.length then
        let middle := front.drop (front.length - pad.toNat)
        let status := chunkStatus pad (middle.drop (if 128 < pad.toNat then 128 else 0))
        some ⟨status, p.length - (pad.toNat + 1), if status = .success then 0 else 1⟩
      else some ⟨.paddingCheckFailed, (p.length + 2 ^ 32 - (pad.toNat + 1)) % 2 ^ 32, 1⟩ := by
  have hsum : p.length = front.length + 1 := by rw [h.length, hoctets, List.length_append, List.length_singleton]
  have hpad := pad.toNat_lt
  have hlast : dataExtractOffset p ((p.length + 2 ^ 32 - 1) % 2 ^ 32) 1 = .ok [pad] := by
    rw [show (p.length + 2 ^ 32 - 1) % 2 ^ 32 = front.length by omega, dataExtractOffset_spec h _ (.inl (by omega)),
      hoctets,
      List.drop_left]
    rfl
  unfold cbcPaddingCheck
  dsimp only
  rw [hlast]
  dsimp only
  rw [show [pad].headD 0 = pad from rfl]
  by_cases hle : pad.toNat ≤ front.length
  · have hmiddle : (front.drop (front.length - pad.toNat)).length = pad.toNat := by
      rw [List.length_drop]
      omega
    have hsplit : p.octets = front.take (front.length - pad.toNat) ++
      (front.drop (front.length - pad.toNat) ++ [pad]) := by
      rw [hoctets, ← List.append_assoc, List.take_append_drop]
    have hstart : (front.take (front.length - pad.toNat)).length = p.length - (1 + pad.toNat) := by
      rw [List.length_take]
      omega
    have hloop := paddingLoop_spec h hsplit (by omega) front.length
    rw [hstart, hmiddle] at hloop
    rw [if_pos (by omega), if_pos hle, show p.length + 2 = front.length + 3 by omega, hloop, Option.map_some,
      show (p.length + 2 ^ 32 - (pad.toNat + 1)) % 2 ^ 32 = p.length - (pad.toNat + 1) by omega]
  · rw [if_neg (by omega), if_neg hle]
    rfl

theorem padded_append {front : List UInt8} : Padded (front ++ [pad]) ↔
    pad.toNat ≤ front.length ∧ front.drop (front.length - pad.toNat) = List.replicate pad.toNat pad := by
  constructor
  · rintro ⟨body, pad', heq⟩
    rw [← List.append_assoc] at heq
    obtain ⟨rfl, hpad⟩ := List.append_inj' heq rfl
    obtain rfl := List.singleton_inj.mp hpad
    rw [List.length_append, List.length_replicate, Nat.add_sub_cancel, List.drop_left]
    exact ⟨Nat.le_add_left _ _, rfl⟩
  · rintro ⟨-, hdrop⟩
    refine ⟨front.take (front.length - pad.toNat), pad, ?_⟩
    rw [← hdrop, ← List.append_assoc, List.take_append_drop]

theorem hiddenFault_append {front : List UInt8} : HiddenFault (front ++ [pad]) ↔
    128 < pad.toNat ∧ pad.toNat ≤ front.length ∧
      (front.drop (front.length - pad.toNat)).drop 128 = List.replicate (pad.toNat - 128) pad ∧
      (front.drop (front.length - pad.toNat)).take 128 ≠ List.replicate 128 pad := by
  constructor
  · rintro ⟨body, first, pad', hlong, heq, hfirst, hwrong⟩
    rw [← List.append_assoc] at heq
    obtain ⟨rfl, hpad⟩ := List.append_inj' heq rfl
    obtain rfl := List.singleton_inj.mp hpad
    have hlength : (first ++ List.replicate (pad.toNat - 128) pad).length = pad.toNat := by
      rw [List.length_append, List.length_replicate, hfirst]
      omega
    rw [List.length_append, hlength, Nat.add_sub_cancel, List.drop_left, ← hfirst, List.drop_left, List.take_left]
    refine ⟨hfirst ▸ hlong, Nat.le_add_left _ _, rfl, ?_⟩
    rw [hfirst]
    exact hwrong
  · rintro ⟨hlong, hle, hrest, hwrong⟩
    refine ⟨front.take (front.length - pad.toNat), (front.drop (front.length - pad.toNat)).take 128, pad, hlong, ?_,
      ?_, hwrong⟩
    · rw [← hrest, List.take_append_drop, ← List.append_assoc, List.take_append_drop]
    · rw [List.length_take, List.length_drop]
      omega

/-- The right chunk at the end of the padding is all padding, or hides a wrong octet in front of it. --/
theorem chunkStatus_last {front : List UInt8} (hle : pad.toNat ≤ front.length) :
    chunkStatus pad ((front.drop (front.length - pad.toNat)).drop (if 128 < pad.toNat then 128 else 0)) = .success ↔
      Padded (front ++ [pad]) ∨ HiddenFault (front ++ [pad]) := by
  have hmiddle : (front.drop (front.length - pad.toNat)).length = pad.toNat := by
    rw [List.length_drop]
    omega
  rw [chunkStatus_iff, padded_append, hiddenFault_append]
  generalize front.drop (front.length - pad.toNat) = middle at hmiddle
  rw [List.length_drop, hmiddle]
  by_cases hlong : 128 < pad.toNat
  · rw [if_pos hlong]
    have hreplicate : List.replicate pad.toNat pad = List.replicate 128 pad ++ List.replicate (pad.toNat - 128) pad :=
      by
      rw [List.replicate_append_replicate, Nat.add_sub_cancel' hlong.le]
    constructor
    · intro hrest
      by_cases hfirst : middle.take 128 = List.replicate 128 pad
      · refine .inl ⟨hle, ?_⟩
        rw [hreplicate, ← hfirst, ← hrest, List.take_append_drop]
      · exact .inr ⟨hlong, hle, hrest, hfirst⟩
    · rintro (⟨-, hall⟩ | ⟨-, -, hrest, -⟩)
      · rw [hall, List.drop_replicate]
      · exact hrest
  · rw [if_neg hlong, List.drop_zero, Nat.sub_zero]
    exact ⟨fun hall => .inl ⟨hle, hall⟩, fun h => h.elim And.right fun hhidden => absurd hhidden.1 hlong⟩

end

/-! ### The main result -/

/-- The branch does what the padding says: it succeeds just for padding, takes it off, and else releases the packet
once. --/
structure KeepsPadding (p : Packet) (r : PaddingResult) : Prop where
  success : r.status = .success ↔ Padded p.octets
  length : r.status = .success → ∃ pad ∈ p.octets.getLast?, r.length + (pad.toNat + 1) = p.length ∧ r.released = 0
  released : r.status ≠ .success → r.released = 1

theorem keepsPadding_iff (p : Packet) (h : p.WellFormed) (hlength : p.length < 2 ^ 32) :
    ∃ r, cbcPaddingCheck p = some r ∧ (KeepsPadding p r ↔ ¬HiddenFault p.octets) := by
  rcases List.eq_nil_or_concat' p.octets with hnil | ⟨front, pad, hoctets⟩
  · have hzero : p.length = 0 := by rw [h.length, hnil, List.length_nil]
    have herror : dataExtractOffset p ((p.length + 2 ^ 32 - 1) % 2 ^ 32) 1 = .error .offsetError := by
      rw [hzero]
      unfold dataExtractOffset
      rw [if_pos (by rw [hzero]; exact Nat.zero_le _), if_neg (by decide)]
    refine ⟨⟨.paddingCheckFailed, p.length, 1⟩, by unfold cbcPaddingCheck; dsimp only; rw [herror], ?_⟩
    rw [hnil]
    refine iff_of_true ⟨⟨(fun hs => by cases hs), ?_⟩, (fun hs => by cases hs), fun _ => rfl⟩ ?_
    · rw [hnil]
      rintro ⟨body, pad, heq⟩
      exact absurd heq.symm (by simp)
    · rintro ⟨body, first, pad, -, heq, -⟩
      exact absurd heq.symm (by simp)
  · have hsum : p.length = front.length + 1 := by rw [h.length, hoctets, List.length_append, List.length_singleton]
    have hspec := cbcPaddingCheck_spec h hlength hoctets
    by_cases hle : pad.toNat ≤ front.length
    · rw [if_pos hle] at hspec
      refine ⟨_, hspec, ?_⟩
      have hlast := chunkStatus_last hle
      generalize chunkStatus pad ((front.drop (front.length - pad.toNat)).drop (if 128 < pad.toNat then 128 else 0)) =
        status
        at hlast
      constructor
      · rintro ⟨hsuccess, -, -⟩ hhidden
        rw [hoctets] at hsuccess hhidden
        obtain ⟨-, hall⟩ := padded_append.mp (hsuccess.mp (hlast.mpr (.inr hhidden)))
        obtain ⟨hlong, -, -, hwrong⟩ := hiddenFault_append.mp hhidden
        rw [hall, List.take_replicate, Nat.min_eq_left hlong.le] at hwrong
        exact hwrong rfl
      · intro hhidden
        rw [hoctets] at hhidden
        refine ⟨?_, fun hs => ⟨pad, ?_, ?_, if_pos hs⟩, fun hs => if_neg hs⟩
        · rw [hoctets]
          exact hlast.trans ⟨fun hor => hor.resolve_right hhidden, .inl⟩
        · rw [hoctets, List.getLast?_concat]
          exact rfl
        · dsimp only
          omega
    · rw [if_neg hle] at hspec
      refine ⟨_, hspec, iff_of_true ⟨⟨(fun hs => by cases hs), ?_⟩, (fun hs => by cases hs), fun _ => rfl⟩ ?_⟩
      · rw [hoctets, padded_append]
        exact fun hpadded => absurd hpadded.1 hle
      · rw [hoctets, hiddenFault_append]
        exact fun hhidden => hle hhidden.2.1

/-! ### A wrong octet in front of the last chunk -/

/-- 129 octets of padding, the first of which is zero. --/
def wrongFirst : Packet := ⟨⟨0 :: List.replicate 129 129, 0, 130⟩, [], [], 130⟩

theorem wrongFirst_wellFormed : wrongFirst.WellFormed where
  head := ⟨Nat.zero_le _, by decide +kernel⟩
  tail := fun _ hb => absurd hb List.not_mem_nil
  length := by decide +kernel
  single := fun _ => rfl
  behind := fun _ hb => absurd hb List.not_mem_nil

theorem keepsPadding_iff_wrong : ∃ r, cbcPaddingCheck wrongFirst = some r ∧
    (KeepsPadding wrongFirst r ↔ ¬HiddenFault wrongFirst.octets) :=
  keepsPadding_iff wrongFirst wrongFirst_wellFormed (show 130 < 2 ^ 32 by decide)

/-- It is accepted, and 130 octets are taken off. --/
theorem wrongFirst_accepted : cbcPaddingCheck wrongFirst = some ⟨.success, 0, 0⟩ ∧ ¬Padded wrongFirst.octets := by
  refine ⟨by decide +kernel, ?_⟩
  have hoctets : wrongFirst.octets = (0 :: List.replicate 128 129) ++ [129] := by decide +kernel
  rw [hoctets, padded_append]
  rintro ⟨-, hall⟩
  exact absurd hall (by decide +kernel)

end Netxduo.Tls.CbcPadding
