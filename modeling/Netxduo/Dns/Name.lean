import Mathlib

/-! Domain names as the resolver writes, reads and measures them. -/

namespace Netxduo.Dns

/-! ### The source -/

def labelMax : UInt8 := 63
def nameMax : Nat := 255
def compressMask : UInt8 := 0xC0
def compressValue : UInt8 := 0xC0
def maxCompressionPointers : Nat := 16

def dot : UInt8 := 0x2E

/-- The loop of the encoder: what has been written, the place of the label's length, and the count. --/
def encodeLoop : List UInt8 → List UInt8 → Nat → Nat → List UInt8 × Nat
  | [], written, _, count => (written ++ [0], count + 1)
  | c :: name, written, length, count =>
    if c = dot then encodeLoop name (written ++ [0]) written.length (count + 1)
    else encodeLoop name ((written ++ [c]).modify length (· + 1)) length (count + 1)

/-- `_nx_dns_name_string_encode`: what is written, and the count that is returned. --/
def nameStringEncode (name : List UInt8) : List UInt8 × Nat := encodeLoop name [0] 0 1

/-- A received packet: what stands at an offset from its prepend pointer, the append pointer, and the length, which counts
the octets of a chain. --/
structure Packet where
  octets : Nat → UInt8
  append : Nat
  length : Nat
  fits : append ≤ length

/-- What the decoder returns, and what it has written to the buffer. --/
structure Unencoded where
  size : Nat
  buffer : List UInt8
deriving DecidableEq, Repr

/-- The inner loop: the label, or as much of it as there is space for. --/
def copyLabel (p : Packet) (bufferSize : Nat) : Nat → Nat → List UInt8 → Bool × Nat × List UInt8
  | 0, character, buffer => (true, character, buffer)
  | labelSize + 1, character, buffer =>
    if bufferSize ≤ buffer.length then (true, character, buffer)
    else if character ≥ p.append ∨ p.octets character = 0 then (false, character, buffer)
    else copyLabel p bufferSize labelSize (character + 1) (buffer ++ [p.octets character])

/-- The end of the name: the last dot gives way to the terminating null. --/
def finishName (buffer : List UInt8) : Unencoded :=
  if buffer.length = 0 then ⟨0, buffer⟩
  else if buffer.getLast? = some dot then ⟨buffer.length - 1, buffer.dropLast ++ [0]⟩
  else ⟨buffer.length, buffer ++ [0]⟩

/-- Where a compression pointer points to. --/
def pointerOffset (labelSize low : UInt8) : Nat := (labelSize &&& labelMax).toNat <<< 8 + low.toNat

/-- The loop of the decoder, and nothing when the fuel runs out. --/
def unencodeLoop (p : Packet) (bufferSize : Nat) : Nat → Nat → List UInt8 → Nat → Option Unencoded
  | 0, _, _, _ => none
  | fuel + 1, character, buffer, pointerCount =>
    if character ≥ p.append then some ⟨0, buffer⟩
    else if p.octets character = 0 then some (finishName buffer)
    else if bufferSize ≤ buffer.length then some ⟨0, buffer⟩
    else
      let labelSize := p.octets character
      let character := character + 1
      if labelSize ≤ labelMax then
        match copyLabel p bufferSize labelSize.toNat character buffer with
        | (false, _, buffer) => some ⟨0, buffer⟩
        | (true, character, buffer) => unencodeLoop p bufferSize fuel character (buffer ++ [dot]) pointerCount
      else if labelSize &&& compressMask = compressValue then
        if character ≥ p.append then some ⟨0, buffer⟩
        else
          let offset := pointerOffset labelSize (p.octets character)
          if offset ≥ p.length then some ⟨0, buffer⟩
          else if character = offset then some ⟨0, buffer⟩
          else if pointerCount + 1 > maxCompressionPointers then some ⟨0, buffer⟩
          else unencodeLoop p bufferSize fuel offset buffer (pointerCount + 1)
      else some ⟨0, buffer⟩

/-- The rounds that the loops over a name can take: each goes on in the packet, or follows one more pointer. --/
def nameFuel (bound : Nat) : Nat := (maxCompressionPointers + 1) * (bound + 1) + 1

/-- `_nx_dns_name_string_unencode` --/
def nameStringUnencode (p : Packet) (data bufferSize : Nat) : Option Unencoded :=
  unencodeLoop p bufferSize (nameFuel p.append) data [] 0

/-- The loop that measures a name in place. --/
def nameSizeLoop (p : Packet) : Nat → Nat → Nat → Option Nat
  | 0, _, _ => none
  | fuel + 1, name, size =>
    if p.octets name = 0 then some (size + 1)
    else
      let labelSize := p.octets name
      let name := name + 1
      if labelSize ≤ labelMax then
        if name + labelSize.toNat ≥ p.append then some 0
        else nameSizeLoop p fuel (name + labelSize.toNat) (size + (labelSize.toNat + 1))
      else if labelSize &&& compressMask = compressValue then some (size + 2)
      else some 0

/-- `_nx_dns_name_size_calculate` --/
def nameSizeCalculate (p : Packet) (name : Nat) : Option Nat := nameSizeLoop p (p.append + 2) name 0

/-- The inner loop that skips a label: where it ends, and the length. --/
def skipLabel (dataLength : Nat) : Nat → Nat → Nat → Option (Nat × Nat)
  | 0, character, length => some (character, length)
  | labelSize + 1, character, length =>
    if character ≥ dataLength then none else skipLabel dataLength labelSize (character + 1) (length + 1)

/-- The loop that measures a decoded name. --/
def realSizeLoop (p : Packet) : Nat → Nat → Nat → Nat → Option Nat
  | 0, _, _, _ => none
  | fuel + 1, character, length, pointerCount =>
    if character ≥ p.length then some 0
    else if p.octets character = 0 then some (if length ≠ 0 then length - 1 else length)
    else
      let labelSize := p.octets character
      let character := character + 1
      if labelSize ≤ labelMax then
        match skipLabel p.length labelSize.toNat character length with
        | none => some 0
        | some (character, length) => realSizeLoop p fuel character (length + 1) pointerCount
      else if labelSize &&& compressMask = compressValue then
        if character ≥ p.length then some 0
        else
          let offset := pointerOffset labelSize (p.octets character)
          if offset ≥ p.length then some 0
          else if character = offset then some 0
          else if pointerCount + 1 > maxCompressionPointers then some 0
          else realSizeLoop p fuel offset length (pointerCount + 1)
      else some 0

/-- `_nx_dns_resource_name_real_size_calculate`, over the whole packet as it is called --/
def resourceNameRealSizeCalculate (p : Packet) (start : Nat) : Option Nat :=
  realSizeLoop p (nameFuel p.length) start 0 0

/-! ### Names -/

/-- The labels of a name, each with a dot behind it. --/
def dotted (labels : List (List UInt8)) : List UInt8 := labels.flatMap (· ++ [dot])

/-- The name as text: the labels with dots between them. --/
def text (labels : List (List UInt8)) : List UInt8 := (dotted labels).dropLast

/-- The name on the wire: every label behind its length, and a zero octet. --/
def wire (labels : List (List UInt8)) : List UInt8 := labels.flatMap (fun l => UInt8.ofNat l.length :: l) ++ [0]

/-- A label of a host name. --/
structure Label (l : List UInt8) : Prop where
  ne_nil : l ≠ []
  short : l.length ≤ 63
  plain : dot ∉ l
  full : 0 ∉ l

namespace Packet
variable (p : Packet)

/-- The octets of a label, in the packet. --/
def labelAt (i n : Nat) : List UInt8 := (List.range n).map (fun j => p.octets (i + j))

/-- The decompression of the name at an offset: its labels, wherever the pointers lead. --/
inductive Decompresses : Nat → List (List UInt8) → Prop
  | root {i : Nat} (inside : i < p.append) (zero : p.octets i = 0) : Decompresses i []
  | label {i : Nat} {labels : List (List UInt8)} (inside : i + (p.octets i).toNat < p.append) (some : p.octets i ≠ 0)
      (size : p.octets i ≤ labelMax) (rest : Decompresses (i + 1 + (p.octets i).toNat) labels) :
      Decompresses i (p.labelAt (i + 1) (p.octets i).toNat :: labels)
  | pointer {i : Nat} {labels : List (List UInt8)} (inside : i + 1 < p.append)
      (mark : p.octets i &&& compressMask = compressValue)
      (rest : Decompresses (pointerOffset (p.octets i) (p.octets (i + 1))) labels) : Decompresses i labels

/-- The places where the name at an offset has a length or a pointer, wherever the pointers lead. --/
inductive Visits (start : Nat) : Nat → Prop
  | start : Visits start start
  | label {i : Nat} (before : Visits start i) (some : p.octets i ≠ 0) (size : p.octets i ≤ labelMax) :
      Visits start (i + 1 + (p.octets i).toNat)
  | pointer {i : Nat} (before : Visits start i) (mark : p.octets i &&& compressMask = compressValue) :
      Visits start (pointerOffset (p.octets i) (p.octets (i + 1)))

/-- No label of the name has a zero octet in it. --/
def Full (start : Nat) : Prop :=
  ∀ i, p.Visits start i → p.octets i ≤ labelMax → 0 ∉ p.labelAt (i + 1) (p.octets i).toNat

/-- The name occupies this many octets in place, up to its zero octet or its first pointer. --/
inductive InPlace : Nat → Nat → Prop
  | root {i : Nat} (inside : i < p.append) (zero : p.octets i = 0) : InPlace i 1
  | label {i n : Nat} (inside : i < p.append) (some : p.octets i ≠ 0) (size : p.octets i ≤ labelMax)
      (rest : InPlace (i + 1 + (p.octets i).toNat) n) : InPlace i ((p.octets i).toNat + 1 + n)
  | pointer {i : Nat} (inside : i < p.append) (mark : p.octets i &&& compressMask = compressValue) : InPlace i 2

/-- The packets are the same between their prepend and append pointers. --/
def SameInside (q : Packet) : Prop := p.append = q.append ∧ p.length = q.length ∧ ∀ i < p.append, p.octets i = q.octets i

end Packet

/-! ### Encoding -/

section
variable {l written : List UInt8} {labels : List (List UInt8)} {index count : Nat}

theorem modify_length (front chars : List UInt8) (k : UInt8) (f : UInt8 → UInt8) :
    (front ++ k :: chars).modify front.length f = front ++ f k :: chars := by
  induction front with
  | nil => rfl
  | cons a front ih => exact congrArg (a :: ·) ih

theorem text_cons (l : List UInt8) (labels : List (List UInt8)) :
    text (l :: labels) = l ++ labels.flatMap (dot :: ·) := by
  unfold text dotted
  induction labels generalizing l with
  | nil => simp
  | cons m labels ih =>
    rw [List.flatMap_cons, List.dropLast_append_of_ne_nil (by simp), ih m, List.flatMap_cons, List.append_assoc]
    rfl

/-- A label is copied, and counted in the octet before it. --/
theorem encodeLoop_label (hplain : dot ∉ l) (rest front chars : List UInt8) (k : UInt8) :
    encodeLoop (l ++ rest) (front ++ k :: chars) front.length count =
      encodeLoop rest (front ++ (k + UInt8.ofNat l.length) :: (chars ++ l)) front.length (count + l.length) := by
  induction l generalizing k chars count with
  | nil => simp
  | cons c l ih =>
    obtain ⟨hc, hl⟩ := not_or.mp (mt List.mem_cons.mpr hplain)
    have hk : k + 1 + UInt8.ofNat l.length = k + UInt8.ofNat (c :: l).length := by
      rw [List.length_cons, UInt8.ofNat_add, UInt8.add_assoc, UInt8.add_comm 1]
      rfl
    have hcount : count + 1 + l.length = count + (c :: l).length := by
      rw [List.length_cons]
      omega
    rw [List.cons_append, encodeLoop, if_neg (Ne.symm hc), List.append_assoc, List.cons_append, modify_length, ih hl, hk,
      hcount, List.append_assoc, List.singleton_append]

theorem encodeLoop_labels (hplain : ∀ l ∈ labels, dot ∉ l) :
    encodeLoop (labels.flatMap (dot :: ·)) written index count =
      (written ++ wire labels, count + (wire labels).length) := by
  induction labels generalizing written index count with
  | nil => rfl
  | cons l labels ih =>
    rw [List.flatMap_cons, List.cons_append, encodeLoop, if_pos rfl,
      encodeLoop_label (hplain l List.mem_cons_self), ih (fun m hm => hplain m (List.mem_cons_of_mem l hm))]
    simp only [wire, List.flatMap_cons, Prod.mk.injEq]
    refine ⟨by simp, ?_⟩
    simp only [List.length_append, List.length_cons]
    omega

/-- The encoding of dotted labels is their wire form, of the length that is returned. --/
theorem nameStringEncode_text (hlabels : labels ≠ []) (hplain : ∀ l ∈ labels, dot ∉ l) :
    nameStringEncode (text labels) = (wire labels, (wire labels).length) := by
  cases labels with
  | nil => exact absurd rfl hlabels
  | cons l labels =>
    rw [text_cons, nameStringEncode]
    have hlabel := @encodeLoop_label l 1 (hplain l List.mem_cons_self) (labels.flatMap (dot :: ·)) [] [] 0
    rw [List.nil_append, List.length_nil] at hlabel
    rw [hlabel, encodeLoop_labels (fun m hm => hplain m (List.mem_cons_of_mem l hm))]
    simp only [wire, List.flatMap_cons, Prod.mk.injEq]
    refine ⟨by simp, ?_⟩
    simp only [List.length_append, List.length_cons]
    omega

end

/-! ### Decoding -/

section
variable {p : Packet} {bufferSize fuel character pointerCount start : Nat} {buffer : List UInt8} {r : Unencoded}

/-- The inner loop has copied the label, or as much of it as fills the buffer. --/
theorem copyLabel_spec {n : Nat} (character : Nat) (buffer : List UInt8) :
    (∃ k ≤ n, copyLabel p bufferSize n character buffer = (true, character + k, buffer ++ p.labelAt character k) ∧
      character + k ≤ max p.append character ∧ (∀ j < k, p.octets (character + j) ≠ 0) ∧
      (buffer.length ≤ bufferSize → buffer.length + k ≤ bufferSize) ∧ (k = n ∨ bufferSize ≤ buffer.length + k)) ∨
    ∃ next buffer', copyLabel p bufferSize n character buffer = (false, next, buffer') ∧
      (buffer.length ≤ bufferSize → buffer'.length ≤ bufferSize) := by
  induction n generalizing character buffer with
  | zero => exact .inl ⟨0, Nat.le_refl 0, by simp [copyLabel, Packet.labelAt], Nat.le_max_right _ _,
      fun j hj => absurd hj (Nat.not_lt_zero j), fun h => h, .inl rfl⟩
  | succ n ih =>
    unfold copyLabel
    split
    · rename_i hfull
      exact .inl ⟨0, Nat.zero_le _, by simp [Packet.labelAt], Nat.le_max_right _ _,
        fun j hj => absurd hj (Nat.not_lt_zero j), fun h => h, .inr hfull⟩
    rename_i hspace
    split
    · exact .inr ⟨_, _, rfl, fun h => h⟩
    rename_i hinside
    obtain ⟨hlt, hzero⟩ := not_or.mp hinside
    rcases ih (character + 1) (buffer ++ [p.octets character]) with ⟨k, hk, heq, hend, hall, hfits, hdone⟩ | ⟨next, buffer', heq, hfits⟩
    · refine .inl ⟨k + 1, by omega, ?_, by omega, ?_, ?_, ?_⟩
      · rw [heq]
        have hlabel : p.labelAt character (k + 1) = p.octets character :: p.labelAt (character + 1) k := by
          unfold Packet.labelAt
          rw [List.range_succ_eq_map, List.map_cons, List.map_map]
          refine congrArg _ (List.map_congr_left fun j _ => ?_)
          simp only [Function.comp, Nat.succ_eq_add_one]
          congr 1
          omega
        rw [hlabel, List.append_assoc, List.singleton_append, Nat.add_right_comm, Nat.add_assoc]
      · intro j hj
        cases j with
        | zero => exact hzero
        | succ j =>
          have h := hall j (by omega)
          rw [Nat.add_right_comm, Nat.add_assoc] at h
          exact h
      · intro _
        have h := hfits (by rw [List.length_append, List.length_singleton]; omega)
        rw [List.length_append, List.length_singleton] at h
        omega
      · rw [List.length_append, List.length_singleton] at hdone
        omega
    · refine .inr ⟨next, buffer', heq, fun _ => hfits ?_⟩
      rw [List.length_append, List.length_singleton]
      omega

/-- The decoder comes to an end: it goes on in the packet, or has followed one more pointer. --/
theorem unencodeLoop_ends
    (hfuel : (maxCompressionPointers - pointerCount) * (p.append + 1) + (p.append + 1 - character) < fuel) :
    ∃ r, unencodeLoop p bufferSize fuel character buffer pointerCount = some r := by
  induction fuel generalizing character buffer pointerCount with
  | zero => exact absurd hfuel (Nat.not_lt_zero _)
  | succ fuel ih =>
    unfold unencodeLoop
    split
    · exact ⟨_, rfl⟩
    rename_i hinside
    split
    · exact ⟨_, rfl⟩
    split
    · exact ⟨_, rfl⟩
    dsimp only
    split
    · split
      · exact ⟨_, rfl⟩
      · rename_i next buffer' heq
        refine ih ?_
        rcases @copyLabel_spec p bufferSize (p.octets character).toNat (character + 1) buffer with
            ⟨k, _, hcopy, _⟩ | ⟨next', buffer'', hcopy, _⟩
        · rw [heq] at hcopy
          obtain ⟨_, hnext⟩ := Prod.mk.inj hcopy
          have := (Prod.mk.inj hnext).1
          omega
        · rw [heq] at hcopy
          cases (Prod.mk.inj hcopy).1
    · split
      · split
        · exact ⟨_, rfl⟩
        split
        · exact ⟨_, rfl⟩
        split
        · exact ⟨_, rfl⟩
        split
        · exact ⟨_, rfl⟩
        rename_i hpointers
        refine ih ?_
        have hmul : (maxCompressionPointers - pointerCount) * (p.append + 1) =
            (maxCompressionPointers - (pointerCount + 1)) * (p.append + 1) + (p.append + 1) := by
          rw [← Nat.succ_mul]
          congr 1
          omega
        omega
      · exact ⟨_, rfl⟩

/-- What has been written ends with a dot, unless nothing has been written. --/
def Dotted (buffer : List UInt8) : Prop := buffer = [] ∨ ∃ front, buffer = front ++ [dot]

theorem finishName_concat (front : List UInt8) : finishName (front ++ [dot]) = ⟨front.length, front ++ [0]⟩ := by
  unfold finishName
  rw [if_neg (by simp), if_pos (by simp), List.dropLast_concat, List.length_append, List.length_singleton,
    Nat.add_sub_cancel]

theorem finishName_spec (h : Dotted buffer) (hsize : (finishName buffer).size ≠ 0) :
    finishName buffer = ⟨buffer.dropLast.length, buffer.dropLast ++ [0]⟩ := by
  rcases h with rfl | ⟨front, rfl⟩
  · exact absurd rfl hsize
  · rw [finishName_concat, List.dropLast_concat]

theorem finishName_length (h : Dotted buffer) : (finishName buffer).buffer.length ≤ buffer.length := by
  rcases h with rfl | ⟨front, rfl⟩
  · exact Nat.le_refl 0
  · rw [finishName_concat, List.length_append, List.length_append]
    exact Nat.le_refl _

/-- However it ends, the decoder has written one octet more than the size it was given, at most. --/
theorem unencodeLoop_length (hdotted : Dotted buffer) (hlength : buffer.length ≤ bufferSize + 1)
    (h : unencodeLoop p bufferSize fuel character buffer pointerCount = some r) : r.buffer.length ≤ bufferSize + 1 := by
  induction fuel generalizing character buffer pointerCount with
  | zero => cases h
  | succ fuel ih =>
    unfold unencodeLoop at h
    split at h
    · obtain rfl := Option.some.inj h
      exact hlength
    split at h
    · obtain rfl := Option.some.inj h
      exact Nat.le_trans (finishName_length hdotted) hlength
    split at h
    · obtain rfl := Option.some.inj h
      exact hlength
    rename_i hspace
    dsimp only at h
    split at h
    · rcases @copyLabel_spec p bufferSize (p.octets character).toNat (character + 1) buffer with
          ⟨k, _, hcopy, _, _, hfits, _⟩ | ⟨next, buffer', hcopy, hfits⟩
      · rw [hcopy] at h
        refine ih (.inr ⟨_, rfl⟩) ?_ h
        have hk := hfits (by omega)
        rw [List.length_append, List.length_append, List.length_singleton, Packet.labelAt, List.length_map,
          List.length_range]
        omega
      · rw [hcopy] at h
        obtain rfl := Option.some.inj h
        exact Nat.le_succ_of_le (hfits (by omega))
    · split at h
      · split at h
        · obtain rfl := Option.some.inj h
          exact hlength
        split at h
        · obtain rfl := Option.some.inj h
          exact hlength
        split at h
        · obtain rfl := Option.some.inj h
          exact hlength
        split at h
        · obtain rfl := Option.some.inj h
          exact hlength
        · exact ih hdotted hlength h
      · obtain rfl := Option.some.inj h
        exact hlength

theorem labelAt_length (i n : Nat) : (p.labelAt i n).length = n := by
  rw [Packet.labelAt, List.length_map, List.length_range]

theorem mem_labelAt {i n j : Nat} (h : j < n) : p.octets (i + j) ∈ p.labelAt i n :=
  List.mem_map.mpr ⟨j, List.mem_range.mpr h, rfl⟩

theorem ne_zero_of_toNat {c : UInt8} (h : c ≠ 0) : c.toNat ≠ 0 :=
  fun hzero => h (UInt8.toNat_inj.mp hzero)

/-- Behind a label that did not fit, the decoder gives up: what follows is in the label, so it is not zero. --/
theorem unencodeLoop_cut (hlong : bufferSize < buffer.length) (hzero : p.octets character ≠ 0)
    (h : unencodeLoop p bufferSize fuel character buffer pointerCount = some r) : r.size = 0 := by
  cases fuel with
  | zero => cases h
  | succ fuel =>
    unfold unencodeLoop at h
    by_cases hinside : character ≥ p.append
    · rw [if_pos hinside] at h
      obtain rfl := Option.some.inj h
      rfl
    · rw [if_neg hinside, if_neg hzero, if_pos (Nat.le_of_lt hlong)] at h
      obtain rfl := Option.some.inj h
      rfl

theorem skipLabel_spec {n dataLength length : Nat} (h : character + n ≤ dataLength) :
    skipLabel dataLength n character length = some (character + n, length + n) := by
  induction n generalizing character length with
  | zero => rfl
  | succ n ih =>
    rw [skipLabel, if_neg (by omega), ih (by omega)]
    simp only [Option.some.injEq, Prod.mk.injEq]
    omega

theorem dotted_concat (labels : List (List UInt8)) (l : List UInt8) : dotted (labels ++ [l]) = dotted labels ++ l ++ [dot] := by
  simp [dotted]

theorem dotted_dotted (labels : List (List UInt8)) : Dotted (dotted labels) := by
  rcases List.eq_nil_or_concat labels with rfl | ⟨front, l, rfl⟩
  · exact .inl rfl
  · rw [List.concat_eq_append, dotted_concat]
    exact .inr ⟨_, rfl⟩

/-- What is returned is the decompression of the name, and the measure of it. --/
theorem unencodeLoop_sound (hfull : p.Full start) (hvisits : p.Visits start character) {labels : List (List UInt8)}
    (hbuffer : buffer = dotted labels) (hsize : r.size ≠ 0)
    (h : unencodeLoop p bufferSize fuel character buffer pointerCount = some r) :
    (∃ more, p.Decompresses character more ∧ r = finishName (dotted (labels ++ more))) ∧
      realSizeLoop p fuel character buffer.length pointerCount = some r.size := by
  induction fuel generalizing character buffer pointerCount labels with
  | zero => cases h
  | succ fuel ih =>
    unfold unencodeLoop at h
    unfold realSizeLoop
    by_cases hinside : character ≥ p.append
    · rw [if_pos hinside] at h
      obtain rfl := Option.some.inj h
      exact absurd rfl hsize
    have hin : ¬character ≥ p.length := fun hge => hinside (Nat.le_trans p.fits hge)
    rw [if_neg hinside] at h
    rw [if_neg hin]
    by_cases hzero : p.octets character = 0
    · rw [if_pos hzero] at h ⊢
      obtain rfl := Option.some.inj h
      refine ⟨⟨[], .root (Nat.not_le.mp hinside) hzero, by rw [List.append_nil, hbuffer]⟩, ?_⟩
      rw [hbuffer] at hsize ⊢
      have hfinish := finishName_spec (dotted_dotted labels) hsize
      rw [hfinish] at hsize ⊢
      dsimp only at hsize ⊢
      rw [List.length_dropLast] at hsize ⊢
      rw [if_pos (by omega)]
    rw [if_neg hzero] at h ⊢
    by_cases hspace : bufferSize ≤ buffer.length
    · rw [if_pos hspace] at h
      obtain rfl := Option.some.inj h
      exact absurd rfl hsize
    rw [if_neg hspace] at h
    dsimp only at h ⊢
    by_cases hlabel : p.octets character ≤ labelMax
    · rw [if_pos hlabel] at h ⊢
      rcases @copyLabel_spec p bufferSize (p.octets character).toNat (character + 1) buffer with
          ⟨k, hk, hcopy, hend, hall, hfits, hdone⟩ | ⟨next, buffer', hcopy, _⟩
      · rw [hcopy] at h
        dsimp only at h
        by_cases hcut : k = (p.octets character).toNat
        · rw [hcut] at h hend
          have hpos := ne_zero_of_toNat hzero
          have hnext : character + 1 + (p.octets character).toNat ≤ p.append := by omega
          rw [skipLabel_spec (Nat.le_trans hnext p.fits)]
          dsimp only
          have hlabels : buffer ++ p.labelAt (character + 1) (p.octets character).toNat ++ [dot] =
              dotted (labels ++ [p.labelAt (character + 1) (p.octets character).toNat]) := by
            rw [dotted_concat, hbuffer]
          obtain ⟨⟨more, hmore, hr⟩, hreal⟩ := ih (.label hvisits hzero hlabel) hlabels h
          refine ⟨⟨_, .label (by omega) hzero hlabel hmore, ?_⟩, ?_⟩
          · rw [hr, List.append_assoc]
            rfl
          · rw [List.length_append, List.length_append, labelAt_length, List.length_singleton] at hreal
            exact hreal
        · refine absurd (unencodeLoop_cut ?_ ?_ h) hsize
          · rw [List.length_append, List.length_append, labelAt_length, List.length_singleton]
            omega
          · intro hnul
            refine hfull character hvisits hlabel ?_
            have hmem := @mem_labelAt p (character + 1) (p.octets character).toNat k (by omega)
            rw [hnul] at hmem
            exact hmem
      · rw [hcopy] at h
        obtain rfl := Option.some.inj h
        exact absurd rfl hsize
    rw [if_neg hlabel] at h ⊢
    by_cases hmark : p.octets character &&& compressMask = compressValue
    · rw [if_pos hmark] at h ⊢
      by_cases hlow : character + 1 ≥ p.append
      · rw [if_pos hlow] at h
        obtain rfl := Option.some.inj h
        exact absurd rfl hsize
      rw [if_neg hlow] at h
      rw [if_neg (fun hge => hlow (Nat.le_trans p.fits hge))]
      by_cases houtside : pointerOffset (p.octets character) (p.octets (character + 1)) ≥ p.length
      · rw [if_pos houtside] at h
        obtain rfl := Option.some.inj h
        exact absurd rfl hsize
      rw [if_neg houtside] at h ⊢
      by_cases hself : character + 1 = pointerOffset (p.octets character) (p.octets (character + 1))
      · rw [if_pos hself] at h
        obtain rfl := Option.some.inj h
        exact absurd rfl hsize
      rw [if_neg hself] at h ⊢
      by_cases hmany : pointerCount + 1 > maxCompressionPointers
      · rw [if_pos hmany] at h
        obtain rfl := Option.some.inj h
        exact absurd rfl hsize
      rw [if_neg hmany] at h ⊢
      obtain ⟨⟨more, hmore, hr⟩, hreal⟩ := ih (.pointer hvisits hmark) hbuffer h
      exact ⟨⟨more, .pointer (Nat.not_le.mp hlow) hmark hmore, hr⟩, hreal⟩
    · rw [if_neg hmark] at h
      obtain rfl := Option.some.inj h
      exact absurd rfl hsize

/-- More fuel than enough changes nothing. --/
theorem realSizeLoop_fuel {length size : Nat} (k : Nat) (h : realSizeLoop p fuel character length pointerCount = some size) :
    realSizeLoop p (fuel + k) character length pointerCount = some size := by
  induction fuel generalizing character length pointerCount with
  | zero => cases h
  | succ fuel ih =>
    rw [Nat.add_right_comm]
    unfold realSizeLoop at h ⊢
    split at h
    · rename_i hinside
      rw [if_pos hinside]
      exact h
    rename_i hinside
    rw [if_neg hinside]
    split at h
    · rename_i hzero
      rw [if_pos hzero]
      exact h
    rename_i hzero
    rw [if_neg hzero]
    dsimp only at h ⊢
    split at h
    · rename_i hlabel
      rw [if_pos hlabel]
      cases hskip : skipLabel p.length (p.octets character).toNat (character + 1) length with
      | none =>
        rw [hskip] at h
        exact h
      | some next =>
        obtain ⟨next, length'⟩ := next
        rw [hskip] at h
        exact ih h
    · rename_i hlabel
      rw [if_neg hlabel]
      split at h
      · rename_i hmark
        rw [if_pos hmark]
        split at h
        · rename_i hlow
          rw [if_pos hlow]
          exact h
        rename_i hlow
        rw [if_neg hlow]
        split at h
        · rename_i houtside
          rw [if_pos houtside]
          exact h
        rename_i houtside
        rw [if_neg houtside]
        split at h
        · rename_i hself
          rw [if_pos hself]
          exact h
        rename_i hself
        rw [if_neg hself]
        split at h
        · rename_i hmany
          rw [if_pos hmany]
          exact h
        · rename_i hmany
          rw [if_neg hmany]
          exact ih h
      · rename_i hmark
        rw [if_neg hmark]
        exact h

/-! ### Measuring in place -/

theorem not_mark_of_size {c : UInt8} (h : c ≤ labelMax) : c &&& compressMask ≠ compressValue := by
  intro hmark
  have hle : compressValue ≤ c := by
    rw [← hmark]
    exact UInt8.and_le_left
  exact absurd (UInt8.le_trans hle h) (by decide)

theorem Packet.InPlace.inside {n : Nat} (h : p.InPlace start n) : start < p.append := by
  cases h with
  | root inside => exact inside
  | label inside => exact inside
  | pointer inside => exact inside

theorem inPlace_unique {n m : Nat} (hn : p.InPlace start n) (hm : p.InPlace start m) : n = m := by
  induction hn generalizing m with
  | root inside zero =>
    cases hm with
    | root => rfl
    | label _ some => exact absurd zero some
    | pointer _ mark =>
      rw [zero] at mark
      exact absurd mark (by decide)
  | label inside some size rest ih =>
    cases hm with
    | root _ zero => exact absurd zero some
    | label _ _ _ rest' => rw [ih rest']
    | pointer _ mark => exact absurd mark (not_mark_of_size size)
  | pointer inside mark =>
    cases hm with
    | root _ zero =>
      rw [zero] at mark
      exact absurd mark (by decide)
    | label _ _ size => exact absurd mark (not_mark_of_size size)
    | pointer => rfl

theorem nameSizeLoop_spec {name size : Nat} (hname : name < p.append) (hfuel : p.append - name < fuel) :
    (∃ n, p.InPlace name n ∧ nameSizeLoop p fuel name size = some (size + n)) ∨
      (nameSizeLoop p fuel name size = some 0 ∧ ∀ n, ¬p.InPlace name n) := by
  induction fuel generalizing name size with
  | zero => exact absurd hfuel (Nat.not_lt_zero _)
  | succ fuel ih =>
    unfold nameSizeLoop
    by_cases hzero : p.octets name = 0
    · rw [if_pos hzero]
      exact .inl ⟨1, .root hname hzero, rfl⟩
    rw [if_neg hzero]
    dsimp only
    by_cases hlabel : p.octets name ≤ labelMax
    · rw [if_pos hlabel]
      by_cases hend : name + 1 + (p.octets name).toNat ≥ p.append
      · rw [if_pos hend]
        refine .inr ⟨rfl, fun n hn => ?_⟩
        cases hn with
        | root _ zero => exact hzero zero
        | label _ _ _ rest => exact Nat.not_lt.mpr hend rest.inside
        | pointer _ mark => exact not_mark_of_size hlabel mark
      · rw [if_neg hend]
        have hstep := @ih (name + 1 + (p.octets name).toNat) (size + ((p.octets name).toNat + 1)) (by omega) (by omega)
        rcases hstep with ⟨n, hn, heq⟩ | ⟨heq, hnone⟩
        · exact .inl ⟨_, .label hname hzero hlabel hn, by rw [heq, Nat.add_assoc]⟩
        · refine .inr ⟨heq, fun n hn => ?_⟩
          cases hn with
          | root _ zero => exact hzero zero
          | label _ _ _ rest => exact hnone _ rest
          | pointer _ mark => exact not_mark_of_size hlabel mark
    rw [if_neg hlabel]
    by_cases hmark : p.octets name &&& compressMask = compressValue
    · rw [if_pos hmark]
      exact .inl ⟨2, .pointer hname hmark, rfl⟩
    · rw [if_neg hmark]
      refine .inr ⟨rfl, fun n hn => ?_⟩
      cases hn with
      | root _ zero => exact hzero zero
      | label _ _ size => exact hlabel size
      | pointer _ mark => exact hmark mark

/-! ### The round trip -/

/-- The octets stand in the packet from an offset on. --/
def Packet.Holds (p : Packet) (i : Nat) (octets : List UInt8) : Prop :=
  ∀ j c, octets[j]? = some c → i + j < p.append ∧ p.octets (i + j) = c

theorem holds_cons {i : Nat} {c : UInt8} {octets : List UInt8} (h : p.Holds i (c :: octets)) :
    i < p.append ∧ p.octets i = c ∧ p.Holds (i + 1) octets := by
  obtain ⟨hi, hc⟩ := h 0 c rfl
  refine ⟨hi, hc, fun j d hd => ?_⟩
  have hj := h (j + 1) d hd
  rw [← Nat.add_assoc, Nat.add_right_comm] at hj
  exact hj

theorem copyLabel_holds {l rest : List UInt8} (hholds : p.Holds character (l ++ rest)) (hfull : 0 ∉ l)
    (hspace : buffer.length + l.length ≤ bufferSize) :
    copyLabel p bufferSize l.length character buffer = (true, character + l.length, buffer ++ l) ∧
      p.Holds (character + l.length) rest := by
  induction l generalizing character buffer with
  | nil => exact ⟨by simp [copyLabel], hholds⟩
  | cons c l ih =>
    obtain ⟨hinside, hc, hnext⟩ := holds_cons hholds
    obtain ⟨hne, hl⟩ := not_or.mp (mt List.mem_cons.mpr hfull)
    rw [List.length_cons] at hspace
    have hspace' : (buffer ++ [c]).length + l.length ≤ bufferSize := by
      rw [List.length_append, List.length_singleton]
      omega
    obtain ⟨hcopy, hrest⟩ := ih hnext hl hspace'
    rw [List.length_cons, copyLabel, if_neg (by omega), hc,
      if_neg (not_or.mpr ⟨Nat.not_le.mpr hinside, Ne.symm hne⟩), hcopy, Nat.add_right_comm, Nat.add_assoc]
    rw [Nat.add_right_comm, Nat.add_assoc] at hrest
    exact ⟨by rw [List.append_assoc, List.singleton_append], hrest⟩

theorem toNat_labelSize {l : List UInt8} (h : Label l) :
    (UInt8.ofNat l.length).toNat = l.length ∧ UInt8.ofNat l.length ≠ 0 ∧ UInt8.ofNat l.length ≤ labelMax := by
  have hshort := h.short
  have htoNat : (UInt8.ofNat l.length).toNat = l.length := by
    rw [UInt8.toNat_ofNat']
    omega
  refine ⟨htoNat, fun hzero => ?_, ?_⟩
  · rw [hzero] at htoNat
    exact h.ne_nil (List.length_eq_zero_iff.mp htoNat.symm)
  · rw [UInt8.le_iff_toNat_le, htoNat]
    exact hshort

/-- The wire form of labels is decoded to the labels. --/
theorem unencodeLoop_wire {labels : List (List UInt8)} (hlabels : ∀ l ∈ labels, Label l)
    (hholds : p.Holds character (wire labels)) (hspace : buffer.length + (dotted labels).length ≤ bufferSize + 1)
    (hfuel : labels.length < fuel) :
    unencodeLoop p bufferSize fuel character buffer pointerCount = some (finishName (buffer ++ dotted labels)) := by
  induction labels generalizing fuel character buffer with
  | nil =>
    obtain ⟨fuel, rfl⟩ : ∃ n, fuel = n + 1 := ⟨fuel - 1, by simp at hfuel; omega⟩
    obtain ⟨hinside, hzero, _⟩ := holds_cons hholds
    rw [unencodeLoop, if_neg (Nat.not_le.mpr hinside), if_pos hzero]
    simp [dotted]
  | cons l labels ih =>
    obtain ⟨fuel, rfl⟩ : ∃ n, fuel = n + 1 := ⟨fuel - 1, by omega⟩
    have hl := hlabels l List.mem_cons_self
    obtain ⟨htoNat, hne, hsize⟩ := toNat_labelSize hl
    have hwire : wire (l :: labels) = UInt8.ofNat l.length :: (l ++ wire labels) := by simp [wire]
    have hdotted : dotted (l :: labels) = l ++ [dot] ++ dotted labels := by simp [dotted]
    rw [hwire] at hholds
    rw [hdotted, List.length_append, List.length_append, List.length_singleton] at hspace
    obtain ⟨hinside, hc, hnext⟩ := holds_cons hholds
    obtain ⟨hcopy, hrest⟩ := @copyLabel_holds p bufferSize (character + 1) buffer l (wire labels) hnext hl.full (by omega)
    have hpos := List.length_pos_iff.mpr hl.ne_nil
    rw [unencodeLoop, if_neg (Nat.not_le.mpr hinside), hc, if_neg hne, if_neg (by omega)]
    dsimp only
    rw [if_pos hsize, htoNat, hcopy]
    dsimp only
    rw [ih (fun m hm => hlabels m (List.mem_cons_of_mem l hm)) hrest ?_ (by simpa using hfuel), hdotted]
    · simp
    · simp only [List.length_append, List.length_singleton]
      omega

/-! ### What is read -/

theorem copyLabel_congr {q : Packet} (h : p.SameInside q) (n : Nat) :
    copyLabel p bufferSize n character buffer = copyLabel q bufferSize n character buffer := by
  obtain ⟨happend, _, hsame⟩ := h
  induction n generalizing character buffer with
  | zero => rfl
  | succ n ih =>
    unfold copyLabel
    rw [← happend, ih]
    by_cases hinside : character ≥ p.append
    · simp only [hinside, true_or, if_true]
    · rw [hsame character (Nat.not_le.mp hinside)]

theorem unencodeLoop_congr {q : Packet} (h : p.SameInside q) :
    unencodeLoop p bufferSize fuel character buffer pointerCount =
      unencodeLoop q bufferSize fuel character buffer pointerCount := by
  have hcopy : ∀ n c b, copyLabel p bufferSize n c b = copyLabel q bufferSize n c b := fun n _ _ => copyLabel_congr h n
  obtain ⟨happend, hlength, hsame⟩ := h
  induction fuel generalizing character buffer pointerCount with
  | zero => rfl
  | succ fuel ih =>
    unfold unencodeLoop
    rw [← happend, ← hlength]
    by_cases hinside : character ≥ p.append
    · rw [if_pos hinside, if_pos hinside]
    rw [if_neg hinside, if_neg hinside, hsame character (Nat.not_le.mp hinside)]
    dsimp only
    rw [hcopy]
    by_cases hlow : character + 1 ≥ p.append
    · rw [if_pos hlow, if_pos hlow]
      simp only [ih]
    · rw [if_neg hlow, if_neg hlow, hsame (character + 1) (Nat.not_le.mp hlow)]
      simp only [ih]

theorem nameSizeLoop_congr {q : Packet} (h : p.SameInside q) {name size : Nat} (hname : name < p.append) :
    nameSizeLoop p fuel name size = nameSizeLoop q fuel name size := by
  obtain ⟨happend, _, hsame⟩ := h
  induction fuel generalizing name size with
  | zero => rfl
  | succ fuel ih =>
    unfold nameSizeLoop
    rw [← happend, hsame name hname]
    dsimp only
    by_cases hend : name + 1 + (q.octets name).toNat ≥ p.append
    · rw [if_pos hend, if_pos hend]
    · rw [if_neg hend, if_neg hend, ih (Nat.not_le.mp hend)]

end

/-! ### The codec -/

section
variable {p : Packet} {bufferSize start : Nat}

theorem finishName_dotted {labels : List (List UInt8)} (h : labels ≠ []) :
    finishName (dotted labels) = ⟨(text labels).length, text labels ++ [0]⟩ := by
  obtain ⟨front, l, rfl⟩ := List.eq_nil_or_concat labels |>.resolve_left h
  rw [List.concat_eq_append, text, dotted_concat, finishName_concat, List.dropLast_concat]

theorem length_dotted {labels : List (List UInt8)} (h : labels ≠ []) :
    (dotted labels).length = (text labels).length + 1 := by
  obtain ⟨front, l, rfl⟩ := List.eq_nil_or_concat labels |>.resolve_left h
  rw [List.concat_eq_append, text, dotted_concat, List.dropLast_concat, List.length_append]
  rfl

theorem unencode_wire {labels : List (List UInt8)} (hne : labels ≠ []) (hlabels : ∀ l ∈ labels, Label l)
    (hlength : (text labels).length ≤ bufferSize) (hholds : p.Holds start (wire labels)) :
    nameStringUnencode p start bufferSize = some ⟨(text labels).length, text labels ++ [0]⟩ := by
  have hshort : labels.length ≤ (wire labels).length := by
    clear hne hlabels hlength hholds
    induction labels with
    | nil => exact Nat.zero_le _
    | cons l labels ih =>
      rw [wire, List.flatMap_cons, List.append_assoc, List.length_append, List.length_cons, List.length_cons]
      rw [wire] at ih
      omega
  have hlast : (wire labels)[(wire labels).length - 1]? = some 0 := by
    rw [wire, List.length_append, List.length_singleton, Nat.add_sub_cancel, List.getElem?_append_right (Nat.le_refl _),
      Nat.sub_self]
    rfl
  have hend := (hholds _ _ hlast).1
  unfold nameStringUnencode
  rw [unencodeLoop_wire hlabels hholds, List.nil_append, finishName_dotted hne]
  · rw [length_dotted hne, List.length_nil]
    omega
  · have hfuel : p.append + 1 ≤ (maxCompressionPointers + 1) * (p.append + 1) := Nat.le_mul_of_pos_left _ (by decide)
    unfold nameFuel
    omega

theorem unencode_spec (p : Packet) (start bufferSize : Nat) :
    ∃ r, nameStringUnencode p start bufferSize = some r ∧ r.buffer.length ≤ bufferSize + 1 ∧
      (∀ q, p.SameInside q → nameStringUnencode q start bufferSize = some r) ∧
      (p.Full start → r.size ≠ 0 → (∃ labels, p.Decompresses start labels ∧ r = ⟨(text labels).length, text labels ++ [0]⟩) ∧
        resourceNameRealSizeCalculate p start = some r.size) := by
  have hfuel : (maxCompressionPointers - 0) * (p.append + 1) + (p.append + 1 - start) < nameFuel p.append := by
    unfold nameFuel
    rw [Nat.succ_mul, Nat.sub_zero]
    omega
  obtain ⟨r, hr⟩ := @unencodeLoop_ends p bufferSize (nameFuel p.append) start 0 [] hfuel
  refine ⟨r, hr, unencodeLoop_length (.inl rfl) (Nat.zero_le _) hr, fun q hq => ?_, fun hfull hsize => ?_⟩
  · unfold nameStringUnencode
    rw [← unencodeLoop_congr hq, ← hq.1]
    exact hr
  · have hnone : ([] : List UInt8) = dotted [] := rfl
    obtain ⟨⟨labels, hlabels, rfl⟩, hreal⟩ := unencodeLoop_sound hfull .start hnone hsize hr
    refine ⟨⟨labels, hlabels, finishName_dotted ?_⟩, ?_⟩
    · rintro rfl
      exact hsize rfl
    · have hle : nameFuel p.append ≤ nameFuel p.length := by
        exact Nat.succ_le_succ (Nat.mul_le_mul_left (maxCompressionPointers + 1) (Nat.succ_le_succ p.fits))
      have hmore := realSizeLoop_fuel (nameFuel p.length - nameFuel p.append) hreal
      rw [Nat.add_sub_cancel' hle] at hmore
      exact hmore

theorem nameSize_spec (hstart : start < p.append) :
    ∃ size, nameSizeCalculate p start = some size ∧ (∀ q, p.SameInside q → nameSizeCalculate q start = some size) ∧
      (∀ n, p.InPlace start n → size = n) ∧ (size ≠ 0 → p.InPlace start size) := by
  have hcongr : ∀ q, p.SameInside q → nameSizeCalculate q start = nameSizeCalculate p start := by
    intro q hq
    unfold nameSizeCalculate
    rw [nameSizeLoop_congr hq hstart, hq.1]
  rcases @nameSizeLoop_spec p (p.append + 2) start 0 hstart (by omega) with ⟨n, hn, heq⟩ | ⟨heq, hnone⟩
  · rw [Nat.zero_add] at heq
    exact ⟨n, heq, fun q hq => (hcongr q hq).trans heq, fun m hm => inPlace_unique hn hm, fun _ => hn⟩
  · exact ⟨0, heq, fun q hq => (hcongr q hq).trans heq, fun m hm => absurd hm (hnone m), fun h => absurd rfl h⟩

end

/-- A dotted name of labels is encoded as its wire form, which is decoded to the name. Any name in a packet is decoded in
a bounded time, from octets of the packet alone, into one octet more than the size given; what is returned is its
decompression, of the length that is measured, if no label has a zero octet in it. The size in place is exact. --/
theorem name_codec :
    (∀ labels : List (List UInt8), labels ≠ [] → (∀ l ∈ labels, Label l) → (text labels).length ≤ nameMax →
      nameStringEncode (text labels) = (wire labels, (wire labels).length) ∧
      ∀ (p : Packet) (start : Nat), p.Holds start (wire labels) →
        nameStringUnencode p start nameMax = some ⟨(text labels).length, text labels ++ [0]⟩) ∧
    (∀ (p : Packet) (start bufferSize : Nat), ∃ r, nameStringUnencode p start bufferSize = some r ∧
      r.buffer.length ≤ bufferSize + 1 ∧ (∀ q, p.SameInside q → nameStringUnencode q start bufferSize = some r) ∧
      (p.Full start → r.size ≠ 0 → (∃ labels, p.Decompresses start labels ∧ r = ⟨(text labels).length, text labels ++ [0]⟩) ∧
        resourceNameRealSizeCalculate p start = some r.size)) ∧
    ∀ (p : Packet) (start : Nat), start < p.append → ∃ size, nameSizeCalculate p start = some size ∧
      (∀ q, p.SameInside q → nameSizeCalculate q start = some size) ∧
      (∀ n, p.InPlace start n → size = n) ∧ (size ≠ 0 → p.InPlace start size) := by
  refine ⟨fun labels hne hlabels hlength => ⟨?_, fun p start hholds => unencode_wire hne hlabels hlength hholds⟩,
    unencode_spec, fun p start hstart => nameSize_spec hstart⟩
  exact nameStringEncode_text hne (fun l hl => (hlabels l hl).plain)

/-! ### Names that are not so -/

/-- A packet of these octets. --/
def packetOf (octets : List UInt8) : Packet := ⟨fun i => octets.getD i 0, octets.length, octets.length, Nat.le_refl _⟩

/-- The name a.b is encoded and measured. --/
theorem name_codec_ab : nameStringEncode (text [[0x61], [0x62]]) = ([1, 0x61, 1, 0x62, 0], 5) ∧
    ∃ size, nameSizeCalculate (packetOf [1, 0x61, 1, 0x62, 0]) 0 = some size ∧ size ≠ 0 := by
  refine ⟨(name_codec.1 [[0x61], [0x62]] (List.cons_ne_nil _ _) ?_ (by decide)).1, ?_⟩
  · intro l hl
    rcases List.mem_pair.mp hl with rfl | rfl
    · exact ⟨by decide, by decide, by decide, by decide⟩
    · exact ⟨by decide, by decide, by decide, by decide⟩
  · obtain ⟨size, hsize, _⟩ := name_codec.2.2 (packetOf [1, 0x61, 1, 0x62, 0]) 0 (by decide)
    exact ⟨size, hsize, by rintro rfl; exact absurd hsize (by decide)⟩

/-- A dot at the end is encoded as a second zero octet, and lost. A name that fills a buffer of two writes three octets.
A label that is cut before a zero octet in it is returned as it was cut. A pointer in the last octet has a size. --/
theorem name_codec_departs :
    nameStringEncode [0x61, 0x2E] = ([1, 0x61, 0, 0], 4) ∧
      nameStringUnencode (packetOf [1, 0x61, 0, 0]) 0 nameMax = some ⟨1, [0x61, 0]⟩ ∧
      nameStringUnencode (packetOf [2, 0x61, 0x62, 0]) 0 2 = some ⟨2, [0x61, 0x62, 0]⟩ ∧
      nameStringUnencode (packetOf [3, 0x61, 0x62, 0, 0]) 0 2 = some ⟨2, [0x61, 0x62, 0]⟩ ∧
      nameSizeCalculate (packetOf [0xC0]) 0 = some 2 := by
  decide +kernel

end Netxduo.Dns
