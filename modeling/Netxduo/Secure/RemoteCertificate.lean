import Mathlib
import Netxduo.Library.Fallible

/-! The list of a Certificate message: the parsing structures that are carved from the tail of the packet buffer while
the message is read in it. -/

namespace Netxduo.Tls.RemoteCertificate
open Fallible

/-! ### The source -/

/-- The errors; `readOutside` is no error of the code: it is a read outside the message. --/
inductive ListError
  | packetBufferTooSmall
  | incorrectMessageLength
  | emptyRemoteCertificateReceived
  | insufficientCertSpace
  | unsupportedPublicCipher
  | certIdDuplicate
  | x509 (status : Nat)
  | readOutside
deriving DecidableEq, Repr

/-- `NX_SECURE_X509_UNSUPPORTED_PUBLIC_CIPHER` --/
def unsupportedPublicCipher : Nat := 0x1a1
/-- `NX_SECURE_X509_CERT_ID_DUPLICATE` --/
def certIdDuplicate : Nat := 0x1a9

/-- The certificates as X.509 sees them: the size of a parsing structure, what one holds before and after the parse, and
what parsing, adding to the list, verifying and choosing the endpoint come to. --/
structure X509 where
  structureSize : Nat
  positive : 0 < structureSize
  blank : Nat → Nat → Nat → UInt8
  filled : List UInt8 → Nat → UInt8
  parse : List UInt8 → Nat
  listAdd : List (List UInt8) → List UInt8 → Nat
  verify : List (List UInt8) → Nat
  endpoint : List (List UInt8) → Nat

/-- A Certificate message in the session's packet buffer, with the length that the caller gives for the data. The
buffer's size is what earlier endpoint copies have left of the original one. --/
structure Message where
  tls13 : Bool
  start : Nat
  length : Nat
  dataLength : Nat
  bufferSize : Nat
  originalSize : Nat
  inside : start + length ≤ bufferSize
  shrunk : bufferSize ≤ originalSize

/-- The end of the message. --/
def Message.stop (m : Message) : Nat := m.start + m.length

/-- An entry that was read: where it lies in the buffer, and the structure, where one was carved. --/
structure Certificate where
  octets : List UInt8
  place : Nat
  entryLength : Nat
  certLength : Nat
  carved : Option Nat

/-- The state of the loop. The position is an index into the packet buffer, `left` is `total_length` and `room` is
`cert_buf_size`; `free` holds the buffer sizes of the free certificates of the application. --/
structure ListState where
  memory : Nat → UInt8
  position : Nat
  left : Nat
  room : Nat
  free : List Nat
  certificates : List Certificate

/-- An entry whose certificate has its structure, before the parse. --/
structure Taken where
  state : ListState
  certLength : Nat
  entryLength : Nat
  carved : Option Nat

def store (memory : Nat → UInt8) (start size : Nat) (octets : Nat → UInt8) : Nat → UInt8 := fun i =>
  if start ≤ i ∧ i < start + size then octets (i - start) else memory i

section
variable (X : X509) (m : Message)

def readOctet (memory : Nat → UInt8) (i : Nat) : Except ListError Nat :=
  if m.start ≤ i ∧ i < m.stop then .ok (memory i).toNat else .error .readOutside

def readThree (memory : Nat → UInt8) (i : Nat) : Except ListError Nat := do
  let high ← readOctet m memory i
  let middle ← readOctet m memory (i + 1)
  let low ← readOctet m memory (i + 2)
  .ok (high <<< 16 + middle <<< 8 + low)

def readTwo (memory : Nat → UInt8) (i : Nat) : Except ListError Nat := do
  let high ← readOctet m memory i
  let low ← readOctet m memory (i + 1)
  .ok (high <<< 8 + low)

def readOctets (memory : Nat → UInt8) (i size : Nat) : Except ListError (List UInt8) :=
  if m.start ≤ i ∧ i + size ≤ m.stop then .ok ((List.range size).map fun k => memory (i + k)) else .error .readOutside

/-- The certificate request context, which only TLS 1.3 has: how long it is with its length octet. --/
def contextLength (memory : Nat → UInt8) : Except ListError Nat :=
  if m.tls13 = true then
    if m.length < 1 then .error .incorrectMessageLength
    else do
      let context ← readOctet m memory m.start
      if m.length < 1 + context then .error .incorrectMessageLength else .ok (1 + context)
  else .ok 0

/-- Everything before the loop. --/
def listStart (memory : Nat → UInt8) (free : List Nat) : Except ListError ListState :=
  if m.dataLength > m.bufferSize then .error .packetBufferTooSmall
  else do
    let skip ← contextLength m memory
    if m.length - skip < 3 then .error .incorrectMessageLength
    else do
      let total ← readThree m memory (m.start + skip)
      if total ≠ m.length - skip - 3 then .error .incorrectMessageLength
      else if total = 0 then .error .emptyRemoteCertificateReceived
      else .ok ⟨memory, m.start + skip + 3, total, m.bufferSize - m.dataLength, free, []⟩

/-- The lengths of an entry, held against what is left of the list: the certificate's and the whole entry's. --/
def readEntry (s : ListState) : Except ListError (Nat × Nat) :=
  if s.left < 3 then .error .incorrectMessageLength
  else do
    let certLength ← readThree m s.memory s.position
    if certLength > s.left - 3 then .error .incorrectMessageLength
    else if m.tls13 = true then
      if s.left - (3 + certLength) < 2 then .error .incorrectMessageLength
      else do
        let extensionsLength ← readTwo m s.memory (s.position + 3 + certLength)
        if extensionsLength > s.left - (3 + certLength) - 2 then .error .incorrectMessageLength
        else .ok (certLength, 3 + certLength + (2 + extensionsLength))
    else .ok (certLength, 3 + certLength)

/-- The free certificate, or a structure carved from the tail of the packet buffer. --/
def takeCertificate (s : ListState) (certLength entryLength : Nat) : Except ListError Taken :=
  match s.free with
  | [] =>
    if s.room < X.structureSize then .error .insufficientCertSpace
    else
      let room := s.room - X.structureSize
      let start := m.dataLength + room
      .ok ⟨{ s with memory := store s.memory start X.structureSize (X.blank (s.position + 3) certLength), room },
        certLength, entryLength, some start⟩
  | bufferSize :: free =>
    if bufferSize < certLength then .error .insufficientCertSpace
    else .ok ⟨{ s with free }, certLength, entryLength, none⟩

def takeEntry (s : ListState) : Except ListError Taken := do
  let (certLength, entryLength) ← readEntry m s
  takeCertificate X m s certLength entryLength

/-- A status of X.509, of which one value has a value of its own in TLS. --/
def translate (status special : Nat) (e : ListError) : Except ListError Unit :=
  if status = 0 then .ok () else if status = special then .error e else .error (.x509 status)

/-- The parse of the certificate, and its addition to the remote certificates. --/
def finishEntry (t : Taken) : Except ListError ListState := do
  let octets ← readOctets m t.state.memory (t.state.position + 3) t.certLength
  translate (X.parse octets) unsupportedPublicCipher .unsupportedPublicCipher
  translate (X.listAdd (t.state.certificates.map Certificate.octets) octets) certIdDuplicate .certIdDuplicate
  .ok { t.state with
    memory := t.carved.elim t.state.memory fun start =>
      store t.state.memory start X.structureSize (X.filled octets)
    position := t.state.position + t.entryLength
    left := t.state.left - t.entryLength
    certificates := t.state.certificates ++ [⟨octets, t.state.position, t.entryLength, t.certLength, t.carved⟩] }

def entryStep (s : ListState) : Except ListError ListState := do
  let t ← takeEntry X m s
  finishEntry X m t

/-- The loop over the list, for as many turns as there is fuel. --/
def listLoop : Nat → ListState → Option (Except ListError ListState)
  | 0, _ => none
  | fuel + 1, s =>
    if s.left = 0 then some (.ok s)
    else
      match entryStep X m s with
      | .error e => some (.error e)
      | .ok s => listLoop fuel s

/-- Where the copy of an endpoint certificate of this length is carved once the remote certificates are freed: the
structure, and the octets where there is room for them. --/
def endpointPlaces (length : Nat) : Nat × Option Nat :=
  let room := m.originalSize - m.dataLength - X.structureSize
  (m.dataLength + room, if room < length then none else some (m.dataLength + (room - length)))

/-- The length that the client handshakes pass: the whole record's. --/
def clientDataLength (recordLength : Nat) : Nat := recordLength

/-- The length that the server handshakes pass: what is left of the record behind the message. --/
def serverDataLength (recordLength stop : Nat) : Nat := recordLength - stop

/-- The endpoint that is copied to the tail of the buffer: none of the certificates may be the application's. --/
def savedEndpoint (s : ListState) : Option Certificate :=
  if X.verify (s.certificates.map Certificate.octets) ≠ 0 then none
  else if s.free ≠ [] ∨ s.certificates.any (·.carved.isNone) then none
  else s.certificates[X.endpoint (s.certificates.map Certificate.octets)]?

/-! ### What is meant -/

/-- The states that the loop goes through. --/
inductive Reached (s₀ : ListState) : ListState → Prop
  | start : Reached s₀ s₀
  | step {s s' : ListState} : Reached s₀ s → 0 < s.left → entryStep X m s = .ok s' → Reached s₀ s'

/-- The certificates lie one behind the other. --/
inductive Tiles : Nat → List Certificate → Nat → Prop
  | nil (a : Nat) : Tiles a [] a
  | append {a : Nat} {cs : List Certificate} {c : Certificate} : Tiles a cs c.place →
    Tiles a (cs ++ [c]) (c.place + c.entryLength)

end

/-- No octet is in both spans. --/
def Apart (a n b k : Nat) : Prop := ∀ i, a ≤ i → i < a + n → b ≤ i → ¬i < b + k

/-- What a call promises, from its start on. --/
structure CallSafe (X : X509) (m : Message) (s₀ : ListState) : Prop where
  ends : ∃ r, listLoop X m (s₀.left + 1) s₀ = some r
  reads : ∀ {s}, Reached X m s₀ s → 0 < s.left → entryStep X m s ≠ .error .readOutside
  tiles : ∀ {s}, Reached X m s₀ s → s.left = 0 → Tiles s₀.position s.certificates m.stop
  structures : ∀ {s t a}, Reached X m s₀ s → 0 < s.left → takeEntry X m s = .ok t → t.carved = some a →
    (m.dataLength ≤ a ∧ a + X.structureSize ≤ m.bufferSize) ∧
      (∀ c ∈ s.certificates, ∀ b, c.carved = some b → Apart a X.structureSize b X.structureSize) ∧
      Apart a X.structureSize (s.position + 3) (m.stop - (s.position + 3))
  endpoint : ∀ {s c}, Reached X m s₀ s → s.left = 0 → savedEndpoint X s = some c →
    (endpointPlaces X m c.certLength).1 + X.structureSize ≤ m.originalSize ∧
      Apart (endpointPlaces X m c.certLength).1 X.structureSize (c.place + 3) c.certLength ∧
      ∀ a, (endpointPlaces X m c.certLength).2 = some a → m.dataLength ≤ a ∧
        a + c.certLength ≤ (endpointPlaces X m c.certLength).1 ∧ Apart a c.certLength (c.place + 3) c.certLength

/-- The condition on the states before each carving: what is carved lies behind the octets that are still needed. --/
structure Behind (X : X509) (m : Message) (s₀ : ListState) : Prop where
  structures : ∀ {s}, Reached X m s₀ s → 0 < s.left → s.free = [] → X.structureSize ≤ s.room →
    (∃ lengths, readEntry m s = .ok lengths) → s.position + 3 < m.stop →
    m.stop + X.structureSize ≤ m.dataLength + s.room
  endpoint : ∀ {s c}, Reached X m s₀ s → s.left = 0 → savedEndpoint X s = some c → 0 < c.certLength →
    c.place + 3 + c.certLength + X.structureSize ≤ m.originalSize ∧
      (c.certLength + X.structureSize ≤ m.originalSize - m.dataLength →
        c.place + 3 + 2 * c.certLength + X.structureSize ≤ m.originalSize)

section
variable {X : X509} {m : Message} {s s' s₀ : ListState} {t : Taken} {memory : Nat → UInt8} {free : List Nat}
variable {i n certLength entryLength : Nat}

/-! ### Reading -/

theorem readOctet_inside (h : m.start ≤ i ∧ i < m.stop) : readOctet m memory i ≠ .error .readOutside := by
  rw [readOctet, if_pos h]
  exact fun h => by cases h

theorem readTwo_inside (h : m.start ≤ i ∧ i + 1 < m.stop) : readTwo m memory i ≠ .error .readOutside :=
  bind_ne (readOctet_inside ⟨h.1, by omega⟩) fun _ _ => bind_ne (readOctet_inside ⟨by omega, h.2⟩) fun _ _ h => by
    cases h

theorem readThree_inside (h : m.start ≤ i ∧ i + 2 < m.stop) : readThree m memory i ≠ .error .readOutside :=
  bind_ne (readOctet_inside ⟨h.1, by omega⟩) fun _ _ => bind_ne (readOctet_inside ⟨by omega, by omega⟩) fun _ _ =>
    bind_ne (readOctet_inside ⟨by omega, h.2⟩) fun _ _ h => by cases h

theorem readEntry_inside (hstart : m.start ≤ s.position) (hstop : s.position + s.left = m.stop) :
    readEntry m s ≠ .error .readOutside := by
  unfold readEntry
  split_ifs with hleft htls
  · exact fun h => by cases h
  · refine bind_ne (readThree_inside ⟨hstart, by omega⟩) fun certLength _ => ?_
    split_ifs with hlong hshort
    · exact fun h => by cases h
    · exact fun h => by cases h
    · refine bind_ne (readTwo_inside ⟨by omega, by omega⟩) fun extensionsLength _ => ?_
      split_ifs
      · exact fun h => by cases h
      · exact fun h => by cases h
  · refine bind_ne (readThree_inside ⟨hstart, by omega⟩) fun certLength _ => ?_
    split_ifs
    · exact fun h => by cases h
    · exact fun h => by cases h

/-- What an entry that passes the checks takes of the list. --/
theorem readEntry_ok (h : readEntry m s = .ok (certLength, entryLength)) :
    3 + certLength ≤ entryLength ∧ entryLength ≤ s.left := by
  unfold readEntry at h
  split_ifs at h with hleft htls
  · obtain ⟨c, -, h⟩ := bind_ok.mp h
    split_ifs at h with hlong hshort
    obtain ⟨e, -, h⟩ := bind_ok.mp h
    split_ifs at h with hext
    obtain ⟨rfl, rfl⟩ := Prod.mk.inj (Except.ok.inj h)
    omega
  · obtain ⟨c, -, h⟩ := bind_ok.mp h
    split_ifs at h with hlong
    obtain ⟨rfl, rfl⟩ := Prod.mk.inj (Except.ok.inj h)
    omega

theorem contextLength_inside : contextLength m memory ≠ .error .readOutside := by
  unfold contextLength
  split_ifs with htls hempty
  · exact fun h => by cases h
  · refine bind_ne (readOctet_inside ⟨le_refl _, by unfold Message.stop; omega⟩) fun context _ => ?_
    split_ifs
    · exact fun h => by cases h
    · exact fun h => by cases h
  · exact fun h => by cases h

theorem listStart_inside : listStart m memory free ≠ .error .readOutside := by
  unfold listStart
  split_ifs
  · exact fun h => by cases h
  refine bind_ne contextLength_inside fun skip _ => ?_
  split_ifs with hshort
  · exact fun h => by cases h
  refine bind_ne (readThree_inside ⟨by omega, by unfold Message.stop; omega⟩) fun total _ => ?_
  split_ifs
  · exact fun h => by cases h
  · exact fun h => by cases h
  · exact fun h => by cases h

/-! ### One entry -/

/-- The certificate that an entry gets: carved below everything carved before, or one of the application's. --/
theorem takeCertificate_ok (h : takeCertificate X m s certLength entryLength = .ok t) :
    t.certLength = certLength ∧ t.entryLength = entryLength ∧ t.state.position = s.position ∧
      t.state.left = s.left ∧ t.state.certificates = s.certificates ∧
      ((s.free = [] ∧ X.structureSize ≤ s.room ∧ t.state.room + X.structureSize = s.room ∧
          t.carved = some (m.dataLength + t.state.room)) ∨
        (s.free ≠ [] ∧ t.state.room = s.room ∧ t.carved = none)) := by
  unfold takeCertificate at h
  cases hfree : s.free with
  | nil =>
    rw [hfree] at h
    dsimp only at h
    split_ifs at h with hroom
    obtain rfl := Except.ok.inj h
    exact ⟨rfl, rfl, rfl, rfl, rfl, .inl ⟨rfl, by omega, Nat.sub_add_cancel (by omega), rfl⟩⟩
  | cons bufferSize rest =>
    rw [hfree] at h
    dsimp only at h
    split_ifs at h
    obtain rfl := Except.ok.inj h
    exact ⟨rfl, rfl, rfl, rfl, rfl, .inr ⟨by simp, rfl, rfl⟩⟩

theorem takeCertificate_inside : takeCertificate X m s certLength entryLength ≠ .error .readOutside := by
  unfold takeCertificate
  cases s.free with
  | nil =>
    dsimp only
    split_ifs
    · exact fun h => by cases h
    · exact fun h => by cases h
  | cons bufferSize rest =>
    dsimp only
    split_ifs
    · exact fun h => by cases h
    · exact fun h => by cases h

theorem translate_inside {status special : Nat} {e : ListError} (he : e ≠ .readOutside) :
    translate status special e ≠ .error .readOutside := by
  unfold translate
  split_ifs
  · exact fun h => by cases h
  · exact fun h => he (Except.error.inj h)
  · exact fun h => by cases h

theorem takeEntry_ok (h : takeEntry X m s = .ok t) :
    readEntry m s = .ok (t.certLength, t.entryLength) ∧
      takeCertificate X m s t.certLength t.entryLength = .ok t := by
  obtain ⟨⟨certLength, entryLength⟩, hread, h⟩ := bind_ok.mp h
  obtain ⟨hcert, hentry, -⟩ := takeCertificate_ok h
  rw [hcert, hentry]
  exact ⟨hread, h⟩

theorem finishEntry_ok (h : finishEntry X m t = .ok s') :
    s'.position = t.state.position + t.entryLength ∧ s'.left = t.state.left - t.entryLength ∧
      s'.room = t.state.room ∧ s'.free = t.state.free ∧
      ∃ octets, s'.certificates =
        t.state.certificates ++ [⟨octets, t.state.position, t.entryLength, t.certLength, t.carved⟩] := by
  obtain ⟨octets, -, h⟩ := bind_ok.mp h
  obtain ⟨-, -, h⟩ := bind_ok.mp h
  obtain ⟨-, -, h⟩ := bind_ok.mp h
  obtain rfl := Except.ok.inj h
  exact ⟨rfl, rfl, rfl, rfl, octets, rfl⟩

/-! ### The loop -/

/-- What holds before every turn: the entries read lie one behind the other up to the position, the rest of the message
is what is left, and whatever was carved lies above the room that remains. --/
structure Inv (X : X509) (m : Message) (s₀ s : ListState) : Prop where
  start_le : m.start ≤ s.position
  left : s.position + s.left = m.stop
  room : m.dataLength + s.room ≤ m.bufferSize
  carved : ∀ c ∈ s.certificates, ∀ b, c.carved = some b → m.dataLength + s.room ≤ b ∧
    b + X.structureSize ≤ m.bufferSize
  placed : ∀ c ∈ s.certificates, c.place + 3 + c.certLength ≤ s.position
  tiles : Tiles s₀.position s.certificates s.position

theorem inv_listStart (h : listStart m memory free = .ok s₀) : Inv X m s₀ s₀ ∧ s₀.certificates = [] := by
  unfold listStart at h
  split_ifs at h with hdata
  obtain ⟨skip, -, h⟩ := bind_ok.mp h
  split_ifs at h with hshort
  obtain ⟨total, -, h⟩ := bind_ok.mp h
  split_ifs at h with htotal hempty
  obtain rfl := Except.ok.inj h
  refine ⟨⟨by dsimp only; omega, ?_, ?_, by simp, by simp, .nil _⟩, rfl⟩
  · unfold Message.stop
    dsimp only
    omega
  · dsimp only
    omega

theorem Inv.step (hi : Inv X m s₀ s) (h : entryStep X m s = .ok s') : Inv X m s₀ s' ∧ s'.left + 3 ≤ s.left := by
  obtain ⟨t, htake, hfinish⟩ := bind_ok.mp h
  obtain ⟨hread, htaken⟩ := takeEntry_ok htake
  obtain ⟨hentry, hleft⟩ := readEntry_ok hread
  obtain ⟨-, -, hposition, hleft', hcertificates, hcase⟩ := takeCertificate_ok htaken
  obtain ⟨hpos, hrest, hroom, -, octets, hcerts⟩ := finishEntry_ok hfinish
  have hstop := hi.left
  have hstart := hi.start_le
  have hbuffer := hi.room
  rw [hposition] at hpos hcerts
  rw [hcertificates] at hcerts
  have hle : s'.room ≤ s.room := by
    rw [hroom]
    rcases hcase with ⟨-, -, hsum, -⟩ | ⟨-, hsame, -⟩ <;> omega
  refine ⟨⟨by omega, by omega, by omega, ?_, ?_, ?_⟩, by omega⟩
  · intro c hc b hb
    rw [hcerts, List.mem_append, List.mem_singleton] at hc
    rcases hc with hc | rfl
    · have hold := hi.carved c hc b hb
      omega
    · rcases hcase with ⟨-, -, hsum, hcarved⟩ | ⟨-, -, hnone⟩
      · obtain rfl : m.dataLength + t.state.room = b := Option.some.inj (hcarved.symm.trans hb)
        omega
      · exact absurd (hnone.symm.trans hb) (by simp)
  · intro c hc
    rw [hcerts, List.mem_append, List.mem_singleton] at hc
    rcases hc with hc | rfl
    · have hold := hi.placed c hc
      omega
    · change s.position + 3 + t.certLength ≤ _
      omega
  · rw [hcerts, hpos]
    exact Tiles.append hi.tiles

theorem Reached.inv (h : Reached X m s₀ s) (hi : Inv X m s₀ s₀) : Inv X m s₀ s := by
  induction h with
  | start => exact hi
  | step _ _ hstep ih => exact (ih.step hstep).1

/-- The loop ends: every entry takes its length field of what is left. --/
theorem listLoop_ends : ∀ {n : Nat} {s : ListState}, Inv X m s₀ s → s.left < n → ∃ r, listLoop X m n s = some r
  | 0, _, _, h => absurd h (Nat.not_lt_zero _)
  | n + 1, s, hi, h => by
    unfold listLoop
    split_ifs
    · exact ⟨_, rfl⟩
    · cases hstep : entryStep X m s with
      | error e => exact ⟨_, rfl⟩
      | ok s' =>
        obtain ⟨hi', hleft⟩ := hi.step hstep
        exact listLoop_ends hi' (by omega)

theorem Inv.inside (hi : Inv X m s₀ s) : entryStep X m s ≠ .error .readOutside := by
  have hstart := hi.start_le
  have hstop := hi.left
  refine bind_ne (bind_ne (readEntry_inside hi.start_le hi.left) fun lengths _ => takeCertificate_inside)
    fun t htake => ?_
  obtain ⟨hread, htaken⟩ := takeEntry_ok htake
  obtain ⟨hentry, hleft⟩ := readEntry_ok hread
  obtain ⟨-, -, hposition, -⟩ := takeCertificate_ok htaken
  refine bind_ne ?_ fun octets _ => bind_ne (translate_inside (by simp)) fun _ _ =>
    bind_ne (translate_inside (by simp)) fun _ _ h => by cases h
  rw [readOctets, if_pos (by rw [hposition]; omega)]
  exact fun h => by cases h

/-! ### What is carved -/

/-- Where a structure was carved, the room above it ended. --/
theorem carved_place {a : Nat} (hi : Inv X m s₀ s) (h : takeEntry X m s = .ok t) (ha : t.carved = some a) :
    s.free = [] ∧ X.structureSize ≤ s.room ∧ m.dataLength ≤ a ∧ a + X.structureSize = m.dataLength + s.room ∧
      s.position + 3 ≤ m.stop := by
  obtain ⟨hread, htaken⟩ := takeEntry_ok h
  obtain ⟨hentry, hleft⟩ := readEntry_ok hread
  obtain ⟨-, -, -, -, -, hcase⟩ := takeCertificate_ok htaken
  have hstop := hi.left
  rcases hcase with ⟨hfree, hroom, hsum, hcarved⟩ | ⟨-, -, hnone⟩
  · obtain rfl : m.dataLength + t.state.room = a := Option.some.inj (hcarved.symm.trans ha)
    exact ⟨hfree, hroom, by omega, by omega, by omega⟩
  · exact absurd (hnone.symm.trans ha) (by simp)

/-- Two spans whose ends are in order are apart just where one ends before the other. --/
theorem apart_iff {a n b k : Nat} (hend : b + k ≤ a + n) (hn : b < a + n) (hk : 0 < k) :
    Apart a n b k ↔ b + k ≤ a := by
  refine ⟨fun h => ?_, fun h i hai _ _ hi => by omega⟩
  by_contra hlt
  exact h (max a b) (by omega) (by omega) (by omega) (by omega)

theorem apart_empty (a n b : Nat) : Apart a n b 0 := fun i _ _ hb hi => by omega

theorem apart_above {a n b : Nat} (k : Nat) (h : a + n ≤ b) : Apart a n b k := fun i _ hi hb _ => by omega

/-- Where every structure lies behind the rest of the message, so does the room that is left. --/
theorem room_behind (hi₀ : Inv X m s₀ s₀) (hroom₀ : m.stop ≤ m.dataLength + s₀.room)
    (hsafe : ∀ {s t a}, Reached X m s₀ s → 0 < s.left → takeEntry X m s = .ok t → t.carved = some a →
      Apart a X.structureSize (s.position + 3) (m.stop - (s.position + 3)))
    (h : Reached X m s₀ s) (hlt : s.position < m.stop) : m.stop ≤ m.dataLength + s.room := by
  induction h with
  | start => exact hroom₀
  | @step s s' hreach hleft hstep ih =>
    have hi := hreach.inv hi₀
    obtain ⟨t, htake, hfinish⟩ := bind_ok.mp hstep
    obtain ⟨hread, htaken⟩ := takeEntry_ok htake
    obtain ⟨hentry, -⟩ := readEntry_ok hread
    obtain ⟨-, -, hposition, -, -, hcase⟩ := takeCertificate_ok htaken
    obtain ⟨hpos, -, hroom, -, -⟩ := finishEntry_ok hfinish
    have hbefore := ih (by omega)
    rcases hcase with ⟨-, -, hsum, hcarved⟩ | ⟨-, hsame, -⟩
    · have hapart := hsafe hreach hleft htake hcarved
      rw [apart_iff (by omega) (by omega) (by omega)] at hapart
      omega
    · omega

/-- The endpoint's own octets lie in the message. --/
theorem savedEndpoint_mem {c : Certificate} (hi : Inv X m s₀ s) (h : savedEndpoint X s = some c) :
    c.place + 3 + c.certLength ≤ m.stop ∧ X.structureSize ≤ m.originalSize - m.dataLength := by
  unfold savedEndpoint at h
  split_ifs at h with hverify hfree
  have hmem := List.mem_of_getElem? h
  have hplaced := hi.placed c hmem
  have hstop := hi.left
  have hshrunk := m.shrunk
  refine ⟨by omega, ?_⟩
  cases hcarved : c.carved with
  | none =>
    have hany : s.certificates.any (·.carved.isNone) = true := List.any_eq_true.mpr ⟨c, hmem, by rw [hcarved]; rfl⟩
    exact absurd (.inr hany) hfree
  | some b =>
    have hb := hi.carved c hmem b hcarved
    omega

/-- The places of the endpoint copy are apart from its source just where they lie behind it. --/
theorem endpointPlaces_iff {c : Certificate} (hstop : c.place + 3 + c.certLength ≤ m.stop)
    (hsize : X.structureSize ≤ m.originalSize - m.dataLength) :
    ((endpointPlaces X m c.certLength).1 + X.structureSize ≤ m.originalSize ∧
      Apart (endpointPlaces X m c.certLength).1 X.structureSize (c.place + 3) c.certLength ∧
      ∀ a, (endpointPlaces X m c.certLength).2 = some a → m.dataLength ≤ a ∧
        a + c.certLength ≤ (endpointPlaces X m c.certLength).1 ∧ Apart a c.certLength (c.place + 3) c.certLength) ↔
      (0 < c.certLength → c.place + 3 + c.certLength + X.structureSize ≤ m.originalSize ∧
        (c.certLength + X.structureSize ≤ m.originalSize - m.dataLength →
          c.place + 3 + 2 * c.certLength + X.structureSize ≤ m.originalSize)) := by
  have hinside := m.inside
  have hshrunk := m.shrunk
  have hpositive := X.positive
  unfold Message.stop at hstop
  unfold endpointPlaces
  dsimp only
  constructor
  · rintro ⟨hfits, hapart, hraw⟩ hpos
    rw [apart_iff (by omega) (by omega) hpos] at hapart
    refine ⟨by omega, fun hroom => ?_⟩
    obtain ⟨-, -, hsource⟩ := hraw _ (if_neg (by omega))
    rw [apart_iff (by omega) (by omega) hpos] at hsource
    omega
  · intro h
    rcases Nat.eq_zero_or_pos c.certLength with hzero | hpos
    · rw [hzero]
      refine ⟨by omega, apart_empty _ _ _, fun a ha => ?_⟩
      rw [if_neg (by omega)] at ha
      obtain rfl := Option.some.inj ha
      exact ⟨by omega, by omega, apart_empty _ _ _⟩
    · obtain ⟨hstructure, hcopy⟩ := h hpos
      refine ⟨by omega, (apart_iff (by omega) (by omega) hpos).mpr (by omega), fun a ha => ?_⟩
      split_ifs at ha with hroom
      obtain rfl := Option.some.inj ha
      have := hcopy (by omega)
      exact ⟨by omega, by omega, (apart_iff (by omega) (by omega) hpos).mpr (by omega)⟩

/-! ### The call -/

/-- Where the data length reaches the end of the message, as the client passes it, everything lies behind. --/
theorem behind_of_reaches (hi₀ : Inv X m s₀ s₀) (h : m.stop ≤ m.dataLength) : Behind X m s₀ where
  structures := by
    intro s _ _ _ hroom _ _
    omega
  endpoint := by
    intro s c hreach _ hsaved _
    have hmem := savedEndpoint_mem (hreach.inv hi₀) hsaved
    have hpositive := X.positive
    omega

theorem callSafe_iff (hi₀ : Inv X m s₀ s₀) (hroom₀ : m.stop ≤ m.dataLength + s₀.room) :
    CallSafe X m s₀ ↔ Behind X m s₀ := by
  constructor
  · intro h
    refine ⟨?_, ?_⟩
    · rintro s hreach hleft hfree hroom ⟨⟨certLength, entryLength⟩, hread⟩ hlt
      have hbehind := room_behind hi₀ hroom₀ (fun h₁ h₂ h₃ h₄ => (h.structures h₁ h₂ h₃ h₄).2.2) hreach (by omega)
      obtain ⟨t, htaken⟩ : ∃ t, takeCertificate X m s certLength entryLength = .ok t := by
        unfold takeCertificate
        rw [hfree]
        exact ⟨_, if_neg (by omega)⟩
      have htake : takeEntry X m s = .ok t := bind_ok.mpr ⟨_, hread, htaken⟩
      obtain ⟨-, -, -, -, -, hcase⟩ := takeCertificate_ok htaken
      rcases hcase with ⟨-, -, hsum, hcarved⟩ | ⟨hne, -⟩
      · have hapart := (h.structures hreach hleft htake hcarved).2.2
        rw [apart_iff (by omega) (by omega) (by omega)] at hapart
        omega
      · exact absurd hfree hne
    · intro s c hreach hleft hsaved
      obtain ⟨hstop, hsize⟩ := savedEndpoint_mem (hreach.inv hi₀) hsaved
      exact (endpointPlaces_iff hstop hsize).mp (h.endpoint hreach hleft hsaved)
  · intro h
    refine ⟨listLoop_ends hi₀ (Nat.lt_succ_self _), fun hreach _ => (hreach.inv hi₀).inside, ?_, ?_, ?_⟩
    · intro s hreach hleft
      have hi := hreach.inv hi₀
      have hstop := hi.left
      rw [hleft, Nat.add_zero] at hstop
      rw [← hstop]
      exact hi.tiles
    · intro s t a hreach hleft htake ha
      have hi := hreach.inv hi₀
      obtain ⟨hfree, hroom, hle, hend, hstop⟩ := carved_place hi htake ha
      have hbuffer := hi.room
      refine ⟨⟨hle, by omega⟩, fun c hc b hb => apart_above _ ?_, ?_⟩
      · have hcarved := hi.carved c hc b hb
        omega
      · rcases Nat.eq_or_lt_of_le hstop with hlast | hlt
        · rw [hlast, Nat.sub_self]
          exact apart_empty _ _ _
        · have hbehind := h.structures hreach hleft hfree hroom ⟨_, (takeEntry_ok htake).1⟩ hlt
          exact (apart_iff (by omega) (by omega) (by omega)).mpr (by omega)
    · intro s c hreach hleft hsaved
      obtain ⟨hstop, hsize⟩ := savedEndpoint_mem (hreach.inv hi₀) hsaved
      exact (endpointPlaces_iff hstop hsize).mpr (h.endpoint hreach hleft hsaved)

theorem room_listStart (h : listStart m memory free = .ok s₀) : m.stop ≤ m.dataLength + s₀.room := by
  have hinside := m.inside
  unfold listStart at h
  split_ifs at h with hdata
  obtain ⟨skip, -, h⟩ := bind_ok.mp h
  split_ifs at h with hshort
  obtain ⟨total, -, h⟩ := bind_ok.mp h
  split_ifs at h
  obtain rfl := Except.ok.inj h
  unfold Message.stop
  dsimp only
  omega

end

/-- What the client handshakes pass is enough. --/
theorem client_callSafe {X : X509} {m : Message} {memory : Nat → UInt8} {free : List Nat} {s₀ : ListState}
    {recordLength : Nat} (hlength : m.dataLength = clientDataLength recordLength) (hrecord : m.stop ≤ recordLength)
    (h : listStart m memory free = .ok s₀) : CallSafe X m s₀ := by
  have hi₀ := (inv_listStart (X := X) h).1
  exact (callSafe_iff hi₀ (room_listStart h)).mpr (behind_of_reaches hi₀ (by rw [hlength]; exact hrecord))

/-- For every message, wherever it lies, and whatever length of data the caller gives. --/
theorem certificate_list_iff (X : X509) (m : Message) (memory : Nat → UInt8) (free : List Nat) :
    (listStart m memory free ≠ .error .readOutside ∧
      ∀ s₀, listStart m memory free = .ok s₀ → CallSafe X m s₀) ↔
      ∀ s₀, listStart m memory free = .ok s₀ → Behind X m s₀ := by
  constructor
  · rintro ⟨-, h⟩ s₀ hs₀
    exact (callSafe_iff (inv_listStart hs₀).1 (room_listStart hs₀)).mp (h s₀ hs₀)
  · refine fun h => ⟨listStart_inside, fun s₀ hs₀ => ?_⟩
    exact (callSafe_iff (inv_listStart hs₀).1 (room_listStart hs₀)).mpr (h s₀ hs₀)

/-- Parsing structures of 600 octets, and certificates that are all accepted. --/
def acceptingX509 : X509 := ⟨600, by decide, fun _ _ _ => 0, fun _ _ => 0, fun _ => 0, fun _ _ => 0, fun _ => 0, fun
    _ => 0⟩

/-- A certificate of 1894 octets in a buffer of 2000, behind a handshake header and given by the server. --/
def nearlyFull : Message :=
  ⟨false, 4, 1900, serverDataLength 1904 1904, 2000, 2000, by decide, by decide⟩

/-- The two lengths in front of the certificate. --/
def nearlyFullOctets (i : Nat) : UInt8 := if i = 5 ∨ i = 8 then 0x07 else if i = 6 then 0x69 else if i =
    9 then 0x66 else 0

/-- The structure is carved over the last octets of the certificate that it is for. --/
theorem structure_over_certificate :
    (∃ t, takeEntry acceptingX509 nearlyFull ⟨nearlyFullOctets, 7, 1897, 2000, [], []⟩ = .ok t ∧
      t.carved = some 1400) ∧
    ¬(listStart nearlyFull nearlyFullOctets [] ≠ .error .readOutside ∧
      ∀ s₀, listStart nearlyFull nearlyFullOctets [] = .ok s₀ → CallSafe acceptingX509 nearlyFull s₀) := by
  obtain ⟨t, htake, hcarved⟩ : ∃ t, takeEntry acceptingX509 nearlyFull ⟨nearlyFullOctets, 7, 1897, 2000, [], []⟩ =
      .ok t ∧ t.carved = some 1400 := ⟨_, rfl, rfl⟩
  refine ⟨⟨t, htake, hcarved⟩, ?_⟩
  rintro ⟨-, h⟩
  have hsafe := h ⟨nearlyFullOctets, 7, 1897, 2000, [], []⟩ rfl
  exact (hsafe.structures .start (by decide) htake hcarved).2.2 1400 (by decide) (by decide) (by decide) (by decide)

end Netxduo.Tls.RemoteCertificate
