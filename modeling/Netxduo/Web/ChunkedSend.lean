import Mathlib.Tactic.Ring
import Netxduo.Library.Runs
import Netxduo.Web.ChunkedBody

/-! Chunked responses of the server: the size line it writes, what it lets its callbacks send, and that the client
    gets the data of a response that was finished, and an error where it was not. -/

namespace Netxduo.Web

open Runs

/-! ### The source -/

/-- The fields of `NX_WEB_HTTP_SERVER` that say how far a chunk was sent. --/
structure Server where
  responseChunked : Bool
  expectTransferBytes : UInt32
  actualBytesTransferred : UInt32
deriving DecidableEq, Repr

/-- The character of a digit of a chunk size. --/
def hexDigit (digit : Nat) : UInt8 := if digit < 10 then UInt8.ofNat (digit + 0x30) else UInt8.ofNat (digit - 10 + 0x61)

/-- The loop that converts the size to ASCII; a size of 32 bits takes eight rounds at most. --/
def sizeDigits : Nat → Nat → List UInt8 → List UInt8
  | 0, _, tempString => tempString
  | rounds + 1, tempSize, tempString =>
    if tempSize = 0 then tempString
    else sizeDigits rounds (tempSize / 16) (hexDigit (tempSize % 16) :: tempString)

def sizeString (chunkSize : UInt32) : List UInt8 :=
  if chunkSize = 0 then [0x30] else sizeDigits 8 chunkSize.toNat []

/-- `_nx_web_http_server_response_chunked_set`: success, the packet, and the server. What the pool has for either of the
    two appends is given. --/
def responseChunkedSet (chunkSize : UInt32) (packet : List UInt8) (sizeAppended lineAppended : Bool) (s : Server) :
    Bool × List UInt8 × Server :=
  if sizeAppended = false then (false, packet, s)
  else if lineAppended = false then (false, packet ++ sizeString chunkSize, s)
  else
    (true, packet ++ sizeString chunkSize ++ [carriageReturn, lineFeed],
      { responseChunked := true
        expectTransferBytes := chunkSize + UInt32.ofNat (sizeString chunkSize).length + 2
        actualBytesTransferred := 0 })

/-- `_nx_web_http_server_callback_packet_send`: success, what goes to the connection, and the server. The append of the
    line end is not looked at. --/
def callbackPacketSend (packet : List UInt8) (lineAppended sent : Bool) (s : Server) : Bool × List UInt8 × Server :=
  let length := UInt32.ofNat packet.length
  if s.responseChunked then
    if s.expectTransferBytes < s.actualBytesTransferred + length then (false, [], s)
    else
      let packet := if s.expectTransferBytes = s.actualBytesTransferred + length ∧ lineAppended = true then
        packet ++ [carriageReturn, lineFeed] else packet
      (sent, if sent then packet else [], { s with actualBytesTransferred := s.actualBytesTransferred + length })
  else (sent, if sent then packet else [], s)

/-- The end of `_nx_web_http_server_get_client_request`, where a chunked response gets its last chunk. --/
def responseFinish (allocated appended sent : Bool) (s : Server) : List UInt8 × Server :=
  if s.responseChunked then
    if allocated = false then ([], s)
    else if sent = false then ([], s)
    else (if appended then [0x30, carriageReturn, lineFeed, carriageReturn, lineFeed] else [],
      { s with responseChunked := false })
  else ([], s)

/-! ### Runs -/

/-- A response: the server, the packet the callback fills, what went to the connection, the data the callback put into
    packets that went there, and whether the request is done with. --/
structure Response where
  server : Server
  packet : List UInt8
  wire : List UInt8
  data : List UInt8
  finished : Bool

inductive Call
  | chunkedSet (chunkSize : UInt32) (sizeAppended lineAppended : Bool)
  | packetSend (data : List UInt8) (lineAppended sent : Bool)
  | finish (allocated appended sent : Bool)

/-- A callback sets the size of a chunk on its packet, puts data behind it, and sends it; a new packet has nothing in
    it. --/
def respond (r : Response) : Call → Response
  | .chunkedSet chunkSize sizeAppended lineAppended =>
    let (_, packet, server) := responseChunkedSet chunkSize r.packet sizeAppended lineAppended r.server
    { r with server := server, packet := packet }
  | .packetSend data lineAppended sent =>
    let (success, octets, server) := callbackPacketSend (r.packet ++ data) lineAppended sent r.server
    if success then
      { r with server := server, packet := [], wire := r.wire ++ octets, data := r.data ++ data }
    else { r with server := server }
  | .finish allocated appended sent =>
    let (octets, server) := responseFinish allocated appended sent r.server
    { r with server := server, wire := r.wire ++ octets, finished := true }

/-- What was promised of the current chunk was sent. --/
def Response.Idle (r : Response) : Prop :=
  r.packet = [] ∧ r.server.expectTransferBytes = r.server.actualBytesTransferred

/-- Memory and connection do what is asked of them; a size is set where the chunk before it is complete, on a new
    packet, and it is not zero; what is sent is something, and no more than was promised; and the response is finished
    behind a complete chunk. --/
def Obliging (r : Response) : Call → Prop
  | .chunkedSet chunkSize sizeAppended lineAppended =>
    sizeAppended = true ∧ lineAppended = true ∧ r.finished = false ∧ r.Idle ∧ chunkSize ≠ 0 ∧
      chunkSize.toNat + 10 < 2 ^ 32
  | .packetSend data lineAppended sent =>
    lineAppended = true ∧ sent = true ∧ r.finished = false ∧ r.server.responseChunked = true ∧ r.packet ++ data ≠ [] ∧
      r.server.actualBytesTransferred.toNat + (r.packet ++ data).length ≤ r.server.expectTransferBytes.toNat
  | .finish allocated appended sent =>
    allocated = true ∧ appended = true ∧ sent = true ∧ r.finished = false ∧ r.Idle ∧ r.server.responseChunked = true

/-- The response before anything was said of it. --/
def newResponse : Response := ⟨⟨false, 0, 0⟩, [], [], [], false⟩

/-! ### Size lines -/

theorem isHexDigit_hexDigit : ∀ digit < 16, isHexDigit (hexDigit digit) = true ∧ hexValue (hexDigit digit) = digit := by
  decide

theorem sizeValue_cons (value : Nat) (d : UInt8) (digits : List UInt8) :
    sizeValue value (d :: digits) = sizeValue (value * 16 + hexValue d) digits := rfl

theorem sizeValue_eq (digits : List UInt8) (value : Nat) :
    sizeValue value digits = value * 16 ^ digits.length + sizeValue 0 digits := by
  induction digits generalizing value with
  | nil => simp [sizeValue]
  | cons d digits ih =>
    rw [sizeValue_cons, sizeValue_cons, ih, ih (0 * 16 + hexValue d), List.length_cons]
    ring

/-- The digits are written behind one another, with the value of the size. --/
theorem sizeDigits_spec : ∀ {rounds tempSize : Nat} {tempString : List UInt8}, tempSize < 16 ^ rounds →
    (∀ d ∈ tempString, isHexDigit d = true) →
    (∀ d ∈ sizeDigits rounds tempSize tempString, isHexDigit d = true) ∧
      sizeValue 0 (sizeDigits rounds tempSize tempString) =
        tempSize * 16 ^ tempString.length + sizeValue 0 tempString ∧
      (sizeDigits rounds tempSize tempString).length ≤ rounds + tempString.length ∧
      tempString.length ≤ (sizeDigits rounds tempSize tempString).length
  | 0, tempSize, tempString, hsize, hstring => by
    obtain rfl : tempSize = 0 := by simpa using hsize
    exact ⟨hstring, by simp [sizeDigits], by simp [sizeDigits], le_refl _⟩
  | rounds + 1, tempSize, tempString, hsize, hstring => by
    unfold sizeDigits
    split
    · rename_i hzero
      subst hzero
      exact ⟨hstring, by simp, by simp, le_refl _⟩
    · obtain ⟨hdigit, hvalue⟩ := isHexDigit_hexDigit (tempSize % 16) (Nat.mod_lt _ (by decide))
      have hless : tempSize / 16 < 16 ^ rounds := Nat.div_lt_of_lt_mul (by rwa [pow_succ, mul_comm] at hsize)
      have hfront : ∀ d ∈ hexDigit (tempSize % 16) :: tempString, isHexDigit d = true := fun d hd => by
        rcases List.mem_cons.mp hd with rfl | hd
        · exact hdigit
        · exact hstring d hd
      obtain ⟨hhex, hsum, hlength, hmore⟩ := sizeDigits_spec hless hfront
      refine ⟨hhex, ?_, ?_, ?_⟩
      · rw [hsum, sizeValue_cons, sizeValue_eq, hvalue, List.length_cons]
        conv_rhs => rw [← Nat.div_add_mod tempSize 16]
        ring
      · rw [List.length_cons] at hlength
        omega
      · rw [List.length_cons] at hmore
        omega

theorem sizeString_length (chunkSize : UInt32) : (sizeString chunkSize).length ≤ 8 := by
  unfold sizeString
  split
  · decide
  · exact (sizeDigits_spec (by exact chunkSize.toNat_lt) (by simp)).2.2.1

/-- The size line that is written is one of the size. --/
theorem sizeLine_sizeString (chunkSize : UInt32) (hsize : chunkSize ≠ 0) :
    SizeLine (sizeString chunkSize ++ [carriageReturn, lineFeed]) chunkSize.toNat := by
  have hstring : sizeString chunkSize = sizeDigits 8 chunkSize.toNat [] := if_neg hsize
  obtain ⟨hhex, hvalue, -, -⟩ :=
    @sizeDigits_spec 8 chunkSize.toNat [] chunkSize.toNat_lt (by simp)
  have hvalue : sizeValue 0 (sizeString chunkSize) = chunkSize.toNat := by
    rw [hstring, hvalue]
    simp [sizeValue]
  rw [← hvalue]
  have hne : sizeString chunkSize ≠ [] := fun hnil => by
    rw [hnil] at hvalue
    exact hsize (UInt32.toNat_inj.mp hvalue.symm)
  have hline : SizeLine (sizeString chunkSize ++ [] ++ [carriageReturn,
    lineFeed]) (sizeValue 0 (sizeString chunkSize)) :=
    .mk hne (by rwa [hstring]) (by rw [hvalue]; exact chunkSize.toNat_lt) (Or.inl rfl)
  rwa [List.append_nil] at hline

/-! ### What was sent -/

/-- Complete chunks and their data. --/
inductive Chunks : List UInt8 → List UInt8 → Prop
  | nil : Chunks [] []
  | chunk {octets data line part : List UInt8} : Chunks octets data → SizeLine line part.length → part ≠ [] →
      Chunks (octets ++ (line ++ part ++ [carriageReturn, lineFeed])) (data ++ part)

section chunks
variable {octets data line part rest more : List UInt8} {n : Nat}

theorem Chunks.body (h : Chunks octets data) (hbody : Body rest more) : Body (octets ++ rest) (data ++ more) := by
  induction h generalizing rest more with
  | nil => exact hbody
  | chunk _ hline hne ih =>
    simpa only [List.append_assoc] using ih (.chunk hline hne hbody)

/-- The client reads a size line. --/
theorem SizeLine.chunkAt (h : SizeLine line n) (rest : List UInt8) : chunkAt 0 (line ++ rest) = some (n, rest) := by
  obtain ⟨-, size, hhead, rfl⟩ := h.head rest
  unfold Web.chunkAt
  rw [if_neg (Nat.lt_irrefl _), hhead]
  rfl

/-- What decodes behind a chunk decodes by itself. --/
theorem Decodes.behind (hline : SizeLine line part.length) (hne : part ≠ [])
    (h : Decodes (fun _ => True) 0 (line ++ part ++ [carriageReturn, lineFeed] ++ rest) data) :
    ∃ more, Decodes (fun _ => True) 0 rest more := by
  have hchunk := hline.chunkAt (part ++ carriageReturn :: lineFeed :: rest)
  have happend : line ++ part ++ [carriageReturn, lineFeed] ++ rest =
      line ++ (part ++ carriageReturn :: lineFeed :: rest) := by simp
  rw [happend] at h
  cases h with
  | last _ hlast =>
    rw [hchunk] at hlast
    exact absurd (List.length_eq_zero_iff.mp (Prod.mk.inj (Option.some.inj hlast)).1) hne
  | chunk _ hlast hlength _ hrest =>
    rw [hchunk] at hlast
    obtain ⟨hsize, hsame⟩ := Prod.mk.inj (Option.some.inj hlast)
    obtain ⟨-, hbehind⟩ := List.append_inj hsame (hsize.trans hlength.symm)
    cases hbehind
    exact ⟨_, hrest⟩

/-- Where nothing decodes behind complete chunks, nothing decodes. --/
theorem Chunks.not_decodes (h : Chunks octets data) (hrest : ∀ more, ¬Decodes (fun _ => True) 0 rest more) :
    ∀ more, ¬Decodes (fun _ => True) 0 (octets ++ rest) more := by
  induction h generalizing rest with
  | nil => exact hrest
  | chunk _ hline hne ih =>
    rw [List.append_assoc]
    refine ih fun more hmore => ?_
    obtain ⟨more', hmore'⟩ := Decodes.behind hline hne hmore
    exact hrest more' hmore'

theorem not_decodes_nil : ∀ more, ¬Decodes (fun _ => True) 0 [] more := by
  intro more h
  cases h with
  | last _ hlast => cases (hlast : none = _)
  | chunk _ hlast => cases (hlast : none = _)

/-- A chunk that is cut off within its data is none. --/
theorem SizeLine.not_decodes (h : SizeLine line n) (hpart : part.length < n) :
    ∀ more, ¬Decodes (fun _ => True) 0 (line ++ part) more := by
  intro more hmore
  have hchunk := h.chunkAt part
  cases hmore with
  | last _ hlast =>
    rw [hchunk] at hlast
    obtain ⟨rfl, -⟩ := Prod.mk.inj (Option.some.inj hlast)
    cases hpart
  | chunk _ hlast hlength =>
    rw [hchunk] at hlast
    obtain ⟨rfl, rfl⟩ := Prod.mk.inj (Option.some.inj hlast)
    rw [List.length_append, hlength] at hpart
    exact absurd hpart (by omega)

end chunks

/-! ### Every response -/

/-- A chunk was begun: its size line is in the packet or was sent, with a part of its data. --/
structure Response.Open (r : Response) (octets data line part : List UInt8) (n : Nat) : Prop where
  chunks : Chunks octets data
  sizeLine : SizeLine line n
  told : r.data = data ++ part
  within : part.length < n
  sent : (r.packet = [] ∧ r.wire = octets ++ (line ++ part)) ∨ (r.packet = line ∧ part = [] ∧ r.wire = octets)
  chunked : r.server.responseChunked = true
  expected : r.server.expectTransferBytes.toNat = line.length + n
  actual : r.server.actualBytesTransferred.toNat + r.packet.length = line.length + part.length

/-- Complete chunks were sent, or another one is begun; or the response is a body. --/
def Response.Sound (r : Response) : Prop :=
  (r.finished = true ∧ Body r.wire r.data) ∨
    (r.finished = false ∧ ((r.Idle ∧ Chunks r.wire r.data) ∨ ∃ octets data line part n, r.Open octets data line part n))

section responses
variable {r : Response}

theorem sound_chunkedSet (h : r.Sound) {chunkSize : UInt32} {sizeAppended lineAppended : Bool}
    (hok : Obliging r (.chunkedSet chunkSize sizeAppended lineAppended)) :
    (respond r (.chunkedSet chunkSize sizeAppended lineAppended)).Sound := by
  obtain ⟨rfl, rfl, hrunning, ⟨hpacket, hidle⟩, hsize, hfits⟩ := hok
  have hchunks : Chunks r.wire r.data := by
    rcases h with ⟨hfinished, -⟩ | ⟨-, ⟨-, hchunks⟩ | ⟨octets, data, line, part, n, hopen⟩⟩
    · cases hrunning.symm.trans hfinished
    · exact hchunks
    · have hexpected := hopen.expected
      have hactual := hopen.actual
      rw [hidle, hpacket] at *
      have := hopen.within
      simp at hactual
      omega
  have hline := sizeLine_sizeString chunkSize hsize
  have hlength := sizeString_length chunkSize
  have hexpected : (chunkSize + UInt32.ofNat (sizeString chunkSize).length + 2).toNat =
      (sizeString chunkSize ++ [carriageReturn, lineFeed]).length + chunkSize.toNat := by
    rw [UInt32.toNat_add, UInt32.toNat_add, UInt32.toNat_ofNat', List.length_append]
    simp
    omega
  have hpositive : 0 < chunkSize.toNat := Nat.pos_of_ne_zero fun h0 => hsize (UInt32.toNat_inj.mp h0)
  refine Or.inr ⟨hrunning, Or.inr ⟨r.wire, r.data, _, [], _, hchunks, hline, (List.append_nil _).symm, hpositive,
    Or.inr ⟨?_, rfl, rfl⟩, rfl, hexpected, ?_⟩⟩
  · show r.packet ++ sizeString chunkSize ++ [carriageReturn, lineFeed] = _
    rw [hpacket]
    rfl
  · show (0 : UInt32).toNat + (r.packet ++ sizeString chunkSize ++ [carriageReturn, lineFeed]).length = _
    rw [hpacket]
    simp

theorem sound_packetSend (h : r.Sound) {data : List UInt8} {lineAppended sent : Bool}
    (hok : Obliging r (.packetSend data lineAppended sent)) : (respond r (.packetSend data lineAppended sent)).Sound :=
      by
  obtain ⟨rfl, rfl, hrunning, hchunked, hne, hfits⟩ := hok
  rcases h with ⟨hfinished, -⟩ | ⟨-, ⟨⟨hpacket, hidle⟩, -⟩ | ⟨octets, data', line, part, n, hopen⟩⟩
  · cases hrunning.symm.trans hfinished
  · rw [hidle] at hfits
    have := List.length_pos_of_ne_nil hne
    omega
  have hexpected := hopen.expected
  have hactual := hopen.actual
  have hlength : (UInt32.ofNat (r.packet ++ data).length).toNat = (r.packet ++ data).length := by
    rw [UInt32.toNat_ofNat', Nat.mod_eq_of_lt]
    have := r.server.expectTransferBytes.toNat_lt
    omega
  have hsum : (r.server.actualBytesTransferred + UInt32.ofNat (r.packet ++ data).length).toNat =
      line.length + (part ++ data).length := by
    have := r.server.expectTransferBytes.toNat_lt
    rw [UInt32.toNat_add, hlength, Nat.mod_eq_of_lt (by omega), List.length_append, List.length_append]
    omega
  have hwithin : (part ++ data).length ≤ n := by
    rw [List.length_append] at hfits ⊢
    omega
  have hnot : ¬r.server.expectTransferBytes <
      r.server.actualBytesTransferred + UInt32.ofNat (r.packet ++ data).length := by
    rw [UInt32.lt_iff_toNat_lt, hsum, hexpected]
    omega
  have hwire : r.wire ++ (r.packet ++ data) = octets ++ (line ++ (part ++ data)) := by
    rcases hopen.sent with ⟨hpacket, hwire⟩ | ⟨hpacket, rfl, hwire⟩
    · rw [hpacket, hwire]
      simp
    · rw [hpacket, hwire]
      rfl
  have hsend : respond r (.packetSend data true true) =
      { r with
        server := { r.server with
          actualBytesTransferred := r.server.actualBytesTransferred + UInt32.ofNat (r.packet ++ data).length }
        packet := []
        wire := r.wire ++ (if r.server.expectTransferBytes = r.server.actualBytesTransferred +
          UInt32.ofNat (r.packet ++ data).length ∧ true = true then r.packet ++ data ++ [carriageReturn, lineFeed]
          else r.packet ++ data)
        data := r.data ++ data } := by
    unfold respond callbackPacketSend
    simp only [hchunked, if_pos, if_neg hnot]
  rw [hsend]
  refine Or.inr ⟨hrunning, ?_⟩
  rcases hwithin.lt_or_eq with hless | rfl
  · refine Or.inr ⟨octets, data', line, part ++ data, n, hopen.chunks, hopen.sizeLine, ?_, hless, Or.inl ⟨rfl, ?_⟩,
      hchunked, hexpected, hsum⟩
    · show r.data ++ data = _
      rw [hopen.told, List.append_assoc]
    · show r.wire ++ ite _ _ _ = _
      rw [if_neg, hwire]
      rintro ⟨hsame, -⟩
      rw [← UInt32.toNat_inj, hsum, hexpected] at hsame
      omega
  · have hsame : r.server.expectTransferBytes =
        r.server.actualBytesTransferred + UInt32.ofNat (r.packet ++ data).length := by
      rw [← UInt32.toNat_inj, hsum, hexpected]
    refine Or.inl ⟨⟨rfl, hsame⟩, ?_⟩
    show Chunks (r.wire ++ ite _ _ _) (r.data ++ data)
    have hpart : part ++ data ≠ [] := fun hnil => by
      have := hopen.within
      rw [hnil] at this
      cases this
    rw [if_pos ⟨hsame, rfl⟩, ← List.append_assoc, hwire, hopen.told]
    simpa only [List.append_assoc] using hopen.chunks.chunk hopen.sizeLine hpart

theorem sound_finish (h : r.Sound) {allocated appended sent : Bool} (hok :
    Obliging r (.finish allocated appended sent)) :
    (respond r (.finish allocated appended sent)).Sound := by
  obtain ⟨rfl, rfl, rfl, hrunning, ⟨hpacket, hidle⟩, hchunked⟩ := hok
  have hfinish : respond r (.finish true true true) =
      { r with
        server := { r.server with responseChunked := false }
        wire := r.wire ++ [0x30, carriageReturn, lineFeed, carriageReturn, lineFeed]
        finished := true } := by
    unfold respond responseFinish
    simp [hchunked]
  rw [hfinish]
  rcases h with ⟨hfinished, -⟩ | ⟨-, ⟨-, hchunks⟩ | ⟨octets, data, line, part, n, hopen⟩⟩
  · cases hrunning.symm.trans hfinished
  · refine Or.inl ⟨rfl, ?_⟩
    have hline : SizeLine [0x30, carriageReturn, lineFeed] 0 :=
      SizeLine.mk (List.cons_ne_nil 0x30 []) (List.forall_mem_singleton.mpr (by decide)) (by decide) (Or.inl rfl)
    have hbody := hchunks.body (.last hline)
    rwa [List.append_nil] at hbody
  · have hexpected := hopen.expected
    have hactual := hopen.actual
    have hwithin := hopen.within
    rw [hidle] at hexpected
    rw [hpacket, List.length_nil] at hactual
    omega

theorem respond_sound (h : r.Sound) {call : Call} (hok : Obliging r call) : (respond r call).Sound := by
  cases call with
  | chunkedSet chunkSize sizeAppended lineAppended => exact sound_chunkedSet h hok
  | packetSend data lineAppended sent => exact sound_packetSend h hok
  | finish allocated appended sent => exact sound_finish h hok

/-- What was sent before the finish is no body, not even in front. --/
theorem Response.Sound.not_decodes (h : r.Sound) (hrunning : r.finished = false) :
    ∀ data, ¬Decodes (fun _ => True) 0 r.wire data := by
  rcases h with ⟨hfinished, -⟩ | ⟨-, ⟨-, hchunks⟩ | ⟨octets, data, line, part, n, hopen⟩⟩
  · cases hrunning.symm.trans hfinished
  · have hnone := hchunks.not_decodes not_decodes_nil
    rwa [List.append_nil] at hnone
  · rcases hopen.sent with ⟨-, hwire⟩ | ⟨-, -, hwire⟩
    · rw [hwire]
      exact hopen.chunks.not_decodes (hopen.sizeLine.not_decodes hopen.within)
    · rw [hwire]
      have hnone := hopen.chunks.not_decodes not_decodes_nil
      rwa [List.append_nil] at hnone

end responses

/-- A response of one chunk of three octets, sent in two packets. --/
def threeOctets : List Call :=
  [.chunkedSet 3 true true, .packetSend [0x61] true true, .packetSend [0x62, 0x63] true true, .finish true true true]

theorem run_threeOctets : Run respond Obliging newResponse threeOctets (threeOctets.foldl respond newResponse) :=
  (((Run.single (a := Call.chunkedSet 3 true true) ⟨rfl, rfl, rfl, ⟨rfl, rfl⟩, by decide, by decide⟩).next
    (a := Call.packetSend [0x61] true true) ⟨rfl, rfl, rfl, rfl, by decide, by decide⟩).next
    (a := Call.packetSend [0x62, 0x63] true true) ⟨rfl, rfl, rfl, rfl, by decide, by decide⟩).next
    (a := Call.finish true true true) ⟨rfl, rfl, rfl, rfl, ⟨rfl, by decide⟩, rfl⟩

end Netxduo.Web
