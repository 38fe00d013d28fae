import Netxduo.Web.Chunked

/-! The chunks of a stream of octets, and that the client finds them however the stream was cut. --/

namespace Netxduo.Web

/-! ### The octets that are to come -/

/-- The octets that are not read yet, of the packets received and of those to come. --/
def Reader.stream (r : Reader) : List UInt8 := (if r.remaining = 0 then [] else r.cursor.flatten) ++ r.incoming.flatten.flatten

/-- The remaining size is that of the buffers, of which only the first may be empty, and none is longer than a packet of
    the pool. --/
structure Reader.Good (payload : Nat) (r : Reader) : Prop where
  live : r.remaining = 0 ∨ r.remaining = r.cursor.flatten.length
  behind : ∀ b ∈ r.cursor.tail, b ≠ []
  fits : ∀ b ∈ r.cursor, b.length ≤ payload
  coming : ∀ p ∈ r.incoming, ∀ b ∈ p, b ≠ [] ∧ b.length ≤ payload

section reader
variable {payload : Nat} {r : Reader}

theorem receiveLoop_none {incoming : List Chain} (h : receiveLoop incoming = none) : incoming.flatten.flatten = [] := by
  induction incoming with
  | nil => rfl
  | cons p incoming ih =>
    unfold receiveLoop at h
    split at h
    · rename_i hempty
      rw [List.flatten_cons, List.flatten_append, ih h, List.length_eq_zero_iff.mp hempty]
      rfl
    · cases h

theorem receiveLoop_some {incoming rest : List Chain} {p : Chain} (h : receiveLoop incoming = some (p, rest)) :
    incoming.flatten.flatten = p.flatten ++ rest.flatten.flatten ∧ p.flatten.length ≠ 0 ∧ p ∈ incoming ∧
      ∀ q ∈ rest, q ∈ incoming := by
  induction incoming with
  | nil => cases h
  | cons q incoming ih =>
    unfold receiveLoop at h
    split at h
    · rename_i hempty
      obtain ⟨hflat, hne, hmem, hrest⟩ := ih h
      refine ⟨?_, hne, List.mem_cons_of_mem _ hmem, fun x hx => List.mem_cons_of_mem _ (hrest x hx)⟩
      rw [List.flatten_cons, List.flatten_append, hflat, List.length_eq_zero_iff.mp hempty]
      rfl
    · rename_i hne
      cases h
      exact ⟨by rw [List.flatten_cons, List.flatten_append], hne, List.mem_cons_self, fun x hx => List.mem_cons_of_mem _ hx⟩

/-- Nothing is to come, or there is data now. --/
theorem receive_spec (h : r.Good payload) :
    (receive r = .error .noPacket ∧ r.stream = []) ∨
      ∃ r', receive r = .ok r' ∧ r'.stream = r.stream ∧ r'.Good payload ∧ r'.remaining = r'.cursor.flatten.length ∧
        0 < r'.remaining := by
  unfold receive
  by_cases hzero : r.remaining = 0
  · rw [if_pos hzero]
    split
    · rename_i hnone
      refine .inl ⟨rfl, ?_⟩
      unfold Reader.stream
      rw [if_pos hzero, receiveLoop_none hnone]
      rfl
    · rename_i p incoming hsome
      obtain ⟨hflat, hne, hmem, hrest⟩ := receiveLoop_some hsome
      refine .inr ⟨_, rfl, ?_, ⟨.inr rfl, ?_, ?_, fun q hq => h.coming q (hrest q hq)⟩, rfl, Nat.pos_of_ne_zero hne⟩
      · unfold Reader.stream
        rw [if_pos hzero, if_neg hne, hflat]
        rfl
      · exact fun b hb => (h.coming p hmem b (List.mem_of_mem_tail hb)).1
      · exact fun b hb => (h.coming p hmem b hb).2
  · rw [if_neg hzero]
    exact .inr ⟨r, rfl, rfl, h, h.live.resolve_left hzero, Nat.pos_of_ne_zero hzero⟩

/-- The next octet is read, wherever its buffer begins. --/
theorem octetRead_spec (h : r.Good payload) (hlive : r.remaining = r.cursor.flatten.length) (hpos : 0 < r.remaining) :
    ∃ data r', octetRead r = .ok (data, r') ∧ r.stream = data :: r'.stream ∧ r'.Good payload := by
  have hnext : ∀ data buffer rest, r.cursor.flatten = data :: (buffer ++ rest.flatten) → (∀ b ∈ rest, b ≠ []) →
      (∀ b ∈ rest, b.length ≤ payload) → buffer.length ≤ payload →
      r.stream = data :: Reader.stream { r with cursor := buffer :: rest, remaining := r.remaining - 1 } ∧
        Reader.Good payload { r with cursor := buffer :: rest, remaining := r.remaining - 1 } := by
    intro data buffer rest hflat hbehind hfits hbuffer
    have hlength : r.remaining - 1 = (buffer :: rest).flatten.length := by
      rw [hlive, hflat, List.flatten_cons, List.length_cons, Nat.add_sub_cancel]
    refine ⟨?_, ⟨.inr hlength, hbehind, ?_, h.coming⟩⟩
    · unfold Reader.stream
      dsimp only
      rw [if_neg (Nat.ne_of_gt hpos), hflat]
      split
      · rename_i hlast
        have hnone : buffer ++ rest.flatten = [] := List.length_eq_zero_iff.mp (hlength.symm.trans hlast)
        rw [hnone]
        rfl
      · rfl
    · intro b hb
      rcases List.mem_cons.mp hb with rfl | hb
      · exact hbuffer
      · exact hfits b hb
  unfold octetRead
  rcases hcursor : r.cursor with _ | ⟨buffer, rest⟩
  · rw [hcursor] at hlive
    exact absurd hlive (Nat.ne_of_gt hpos)
  · have hbehind := h.behind
    have hfits := h.fits
    rw [hcursor] at hbehind hfits
    cases buffer with
    | cons data buffer =>
      have hown := hfits _ List.mem_cons_self
      obtain ⟨hstream, hgood⟩ := hnext data buffer rest (by rw [hcursor]; rfl) hbehind
        (fun b hb => hfits b (List.mem_cons_of_mem _ hb)) (Nat.le_of_succ_le hown)
      exact ⟨data, _, rfl, hstream, hgood⟩
    | nil =>
      rcases rest with _ | ⟨buffer, rest⟩
      · rw [hcursor] at hlive
        exact absurd hlive (Nat.ne_of_gt hpos)
      · cases buffer with
        | nil => exact absurd rfl (hbehind [] List.mem_cons_self)
        | cons data buffer =>
          have hown := hfits (data :: buffer) (List.mem_cons_of_mem _ List.mem_cons_self)
          obtain ⟨hstream, hgood⟩ := hnext data buffer rest (by rw [hcursor]; rfl)
            (fun b hb => hbehind b (List.mem_cons_of_mem _ hb))
            (fun b hb => hfits b (List.mem_cons_of_mem _ (List.mem_cons_of_mem _ hb))) (Nat.le_of_succ_le hown)
          exact ⟨data, _, rfl, hstream, hgood⟩

theorem responseRead_spec (h : r.Good payload) :
    (responseRead r = .error .noPacket ∧ r.stream = []) ∨
      ∃ data r', responseRead r = .ok (data, r') ∧ r.stream = data :: r'.stream ∧ r'.Good payload := by
  unfold responseRead
  rcases receive_spec h with ⟨hreceive, hnone⟩ | ⟨r', hreceive, hsame, hgood, hlive, hpos⟩
  · rw [hreceive]
    exact .inl ⟨rfl, hnone⟩
  · obtain ⟨data, r'', hread, hstream, hgood'⟩ := octetRead_spec hgood hlive hpos
    rw [hreceive]
    exact .inr ⟨data, r'', hread, hsame ▸ hstream, hgood'⟩

theorem responseByteExpect_spec (h : r.Good payload) (data : UInt8) :
    (∃ r', responseByteExpect data r = .ok r' ∧ r.stream = data :: r'.stream ∧ r'.Good payload) ∨
      ((∃ status, responseByteExpect data r = .error status) ∧ ∀ rest, r.stream ≠ data :: rest) := by
  unfold responseByteExpect
  rcases responseRead_spec h with ⟨hread, hnone⟩ | ⟨tmp, r', hread, hstream, hgood⟩
  · rw [hread]
    refine .inr ⟨⟨_, rfl⟩, fun rest => ?_⟩
    rw [hnone]
    exact (List.cons_ne_nil _ _).symm
  · rw [hread]
    by_cases hsame : tmp = data
    · exact .inl ⟨r', if_pos hsame, hsame ▸ hstream, hgood⟩
    · refine .inr ⟨⟨.notFound, if_neg hsame⟩, fun rest hrest => ?_⟩
      rw [hstream] at hrest
      exact hsame (List.cons.inj hrest).1

/-- A line feed or an empty line that is expected: both octets are there, or there is an error. --/
theorem lineEnd_spec (h : r.Good payload) :
    (∃ r₁ r₂, responseByteExpect carriageReturn r = .ok r₁ ∧ responseByteExpect lineFeed r₁ = .ok r₂ ∧
      r.stream = carriageReturn :: lineFeed :: r₂.stream ∧ r₂.Good payload) ∨
    (((∃ status, responseByteExpect carriageReturn r = .error status) ∨
      ∃ r₁ status, responseByteExpect carriageReturn r = .ok r₁ ∧ responseByteExpect lineFeed r₁ = .error status) ∧
      ∀ rest, r.stream ≠ carriageReturn :: lineFeed :: rest) := by
  rcases responseByteExpect_spec h carriageReturn with ⟨r₁, hfirst, hstream, hgood⟩ | ⟨⟨status, hfirst⟩, hnone⟩
  · rcases responseByteExpect_spec hgood lineFeed with ⟨r₂, hsecond, hstream', hgood'⟩ | ⟨⟨status, hsecond⟩, hnone⟩
    · exact .inl ⟨r₁, r₂, hfirst, hsecond, by rw [hstream, hstream'], hgood'⟩
    · refine .inr ⟨.inr ⟨r₁, status, hfirst, hsecond⟩, fun rest hrest => ?_⟩
      rw [hstream] at hrest
      exact hnone rest (List.cons.inj hrest).2
  · exact .inr ⟨.inl ⟨status, hfirst⟩, fun rest => hnone _⟩

/-! ### Size lines -/

/-- A size line in a stream, up to its carriage return. --/
def sizeLine : Bool → UInt32 → List UInt8 → Option (UInt32 × List UInt8)
  | _, _, [] => none
  | extension, size, tmp :: stream =>
    match sizeStep extension size tmp with
    | .next extension size => sizeLine extension size stream
    | .stop => some (size, stream)
    | .bad => none

/-- And its line feed. --/
def sizeHead (stream : List UInt8) : Option (UInt32 × List UInt8) :=
  (sizeLine false 0 stream).bind fun (size, stream) =>
    if stream.head? = some lineFeed then some (size, stream.tail) else none

theorem sizeLoop_spec {fuel : Nat} (extension : Bool) (size : UInt32) (h : r.Good payload) (hfuel : r.stream.length < fuel) :
    (∃ size' r', sizeLoop fuel extension size r = .ok (size', r') ∧
      sizeLine extension size r.stream = some (size', r'.stream) ∧ r'.Good payload) ∨
    ((∃ status, sizeLoop fuel extension size r = .error status) ∧ sizeLine extension size r.stream = none) := by
  induction fuel generalizing extension size r with
  | zero => cases hfuel
  | succ fuel ih =>
    rcases responseRead_spec h with ⟨hread, hnone⟩ | ⟨tmp, r', hread, hstream, hgood⟩
    · rw [hnone]
      refine .inr ⟨⟨.noPacket, ?_⟩, rfl⟩
      rw [sizeLoop, hread]
      rfl
    · rw [hstream, List.length_cons] at hfuel
      rw [hstream]
      cases hstep : sizeStep extension size tmp with
      | next extension' size' =>
        have hloop : sizeLoop (fuel + 1) extension size r = sizeLoop fuel extension' size' r' := by
          simp [sizeLoop, hread, hstep, bind, Except.bind]
        have hline : sizeLine extension size (tmp :: r'.stream) = sizeLine extension' size' r'.stream := by
          simp [sizeLine, hstep]
        rw [hloop, hline]
        exact ih _ _ hgood (by omega)
      | stop => exact .inl ⟨size, r', by simp [sizeLoop, hread, hstep, bind, Except.bind], by simp [sizeLine, hstep], hgood⟩
      | bad =>
        exact .inr ⟨⟨.notFound, by simp [sizeLoop, hread, hstep, bind, Except.bind]⟩, by simp [sizeLine, hstep]⟩

theorem stream_length_le (r : Reader) : r.stream.length ≤ r.octets := by
  unfold Reader.stream Reader.octets
  rw [List.length_append]
  split
  · simp
  · exact Nat.le_refl _

theorem sizeLineGet_spec (h : r.Good payload) :
    (∃ size r', sizeLineGet r = .ok (size, r') ∧ sizeHead r.stream = some (size, r'.stream) ∧ r'.Good payload) ∨
      ((∃ status, sizeLineGet r = .error status) ∧ sizeHead r.stream = none) := by
  unfold sizeLineGet sizeHead
  rcases sizeLoop_spec false 0 h (Nat.lt_succ_of_le (stream_length_le r)) with
    ⟨size, r', hloop, hline, hgood⟩ | ⟨⟨status, hloop⟩, hline⟩
  · rw [hloop, hline]
    rcases responseByteExpect_spec hgood lineFeed with ⟨r'', hexpect, hstream, hgood'⟩ | ⟨⟨status, hexpect⟩, hnone⟩
    · refine .inl ⟨size, r'', ?_, ?_, hgood'⟩
      · show (responseByteExpect lineFeed r').bind _ = _
        rw [hexpect]
        rfl
      · rw [hstream]
        simp
    · refine .inr ⟨⟨status, ?_⟩, if_neg ?_⟩
      · show (responseByteExpect lineFeed r').bind _ = _
        rw [hexpect]
        rfl
      · intro hhead
        obtain ⟨rest, hrest⟩ := List.head?_eq_some_iff.mp hhead
        exact hnone rest hrest
  · rw [hloop, hline]
    exact .inr ⟨⟨status, rfl⟩, rfl⟩

end reader

/-! ### Data -/

section data
variable {payload : Nat} {r : Reader}

theorem skip_spec {size : Nat} {chain : Chain} (hbehind : ∀ b ∈ chain.tail, b ≠ []) (hpos : 0 < size)
    (hsize : size ≤ chain.flatten.length) :
    ∃ cursor, skip size chain = some cursor ∧ cursor.flatten = chain.flatten.drop size ∧ (∀ b ∈ cursor.tail, b ≠ []) ∧
      ∀ l, (∀ b ∈ chain, b.length ≤ l) → ∀ b ∈ cursor, b.length ≤ l := by
  induction chain generalizing size with
  | nil => exact absurd hsize (Nat.not_le_of_gt hpos)
  | cons buffer rest ih =>
    rw [List.flatten_cons, List.length_append] at hsize
    unfold skip
    split
    · rename_i hless
      have hrest : rest ≠ [] := by
        rintro rfl
        rw [List.flatten_nil, List.length_nil] at hsize
        omega
      rw [if_neg hrest]
      obtain ⟨cursor, hskip, hflat, htail, hfits⟩ := @ih (size - buffer.length)
        (fun b hb => hbehind b (List.mem_of_mem_tail hb)) (by omega) (by omega)
      refine ⟨cursor, hskip, ?_, htail, fun l hl => hfits l fun b hb => hl b (List.mem_cons_of_mem _ hb)⟩
      rw [hflat, List.flatten_cons, List.drop_append, List.drop_of_length_le (Nat.le_of_lt hless), List.nil_append]
    · rename_i hless
      refine ⟨_, rfl, ?_, hbehind, fun l hl b hb => ?_⟩
      · rw [List.flatten_cons, List.flatten_cons, List.drop_append_of_le_length (Nat.le_of_not_lt hless)]
      · rcases List.mem_cons.mp hb with rfl | hb
        · rw [List.length_drop]
          exact Nat.le_trans (Nat.sub_le _ _) (hl buffer List.mem_cons_self)
        · exact hl b (List.mem_cons_of_mem _ hb)

theorem trim_flatten {length : Nat} {chain : Chain} (hlength : length ≤ chain.flatten.length) :
    (trim length chain).flatten = chain.flatten.take length := by
  induction chain generalizing length with
  | nil => simp [trim]
  | cons buffer rest ih =>
    rw [List.flatten_cons, List.length_append] at hlength
    unfold trim
    split
    · rename_i hmore
      rw [List.flatten_cons, List.flatten_cons, ih (by omega), List.take_append,
        List.take_of_length_le (Nat.le_of_lt hmore.2)]
    · rename_i hmore
      rw [List.flatten_cons, List.flatten_cons, List.flatten_nil, List.append_nil]
      by_cases hrest : rest = []
      · rw [hrest, List.flatten_nil, List.append_nil]
      · rw [List.take_append_of_le_length (Nat.le_of_not_lt fun h => hmore ⟨hrest, h⟩)]

theorem dataAppend_eq {fuel : Nat} {data : List UInt8} (h : data.length ≤ payload) : dataAppend payload fuel data = [data] := by
  cases fuel with
  | zero => rfl
  | succ fuel =>
    unfold dataAppend
    exact if_pos h

/-- What remains is kept as it is, where the buffers fit in the packets of the pool. --/
theorem keepRemaining_spec (h : r.Good payload) :
    ∃ p, keepRemaining payload r = .ok p ∧ Reader.stream ⟨p, true, r.remaining, r.incoming⟩ = r.stream ∧
      Reader.Good payload ⟨p, true, r.remaining, r.incoming⟩ := by
  unfold keepRemaining
  by_cases hzero : r.remaining = 0
  · rw [if_pos hzero]
    refine ⟨[], rfl, ?_, ⟨.inl hzero, ?_, ?_, h.coming⟩⟩
    · unfold Reader.stream
      rw [if_pos hzero, if_pos hzero]
    · simp
    · simp
  · have hlive := h.live.resolve_left hzero
    have hcursor : Reader.stream ⟨r.cursor, true, r.remaining, r.incoming⟩ = r.stream ∧
        Reader.Good payload ⟨r.cursor, true, r.remaining, r.incoming⟩ := ⟨rfl, h.live, h.behind, h.fits, h.coming⟩
    rw [if_neg hzero]
    split
    · exact ⟨_, rfl, hcursor⟩
    · rcases hchain : r.cursor with _ | ⟨buffer, rest⟩
      · rw [hchain] at hlive
        exact absurd hlive hzero
      · rw [hchain] at hcursor hlive
        have hfits := h.fits buffer (by rw [hchain]; exact List.mem_cons_self)
        have hbehind := h.behind
        rw [hchain] at hbehind
        dsimp only
        rw [dataAppend_eq hfits]
        rw [List.flatten_cons, List.length_append] at hlive
        split
        · have hrest : rest ≠ [] := by
            rintro rfl
            rw [List.flatten_nil, List.length_nil] at hlive
            omega
          rw [if_neg hrest]
          exact ⟨_, rfl, hcursor⟩
        · have hrest : rest = [] := by
            rcases rest with _ | ⟨b, rest⟩
            · rfl
            · have hlast := List.length_pos_of_ne_nil (hbehind b List.mem_cons_self)
              rw [List.flatten_cons, List.length_append] at hlive
              omega
          rw [hrest] at hcursor
          exact ⟨_, rfl, hcursor⟩

end data

/-! ### Calls -/

/-- The chunk at the head of a stream, or what is still to come of one: its size, and the octets behind its size line. --/
def chunkAt (need : Nat) (stream : List UInt8) : Option (Nat × List UInt8) :=
  if 0 < need then some (need, stream) else (sizeHead stream).map fun (size, stream) => (size.toNat, stream)

def Client.reader (c : Client) : Reader := ⟨c.responsePacket, true, c.remaining, c.incoming⟩

def Client.need (c : Client) : Nat := c.totalReceiveBytes - c.actualBytesReceived

section calls
variable {payload : Nat} {r : Reader} {c : Client}

theorem chunkedSizeGet_spec (h : r.Good payload) (need : Nat) :
    (∃ size r', chunkedSizeGet need r = .ok (size, r') ∧ chunkAt need r.stream = some (size, r'.stream) ∧ r'.Good payload ∧
      r'.remaining = r'.cursor.flatten.length ∧ 0 < r'.remaining) ∨
    ((∃ status, chunkedSizeGet need r = .error status) ∧ ∀ size stream, chunkAt need r.stream = some (size, stream) →
      stream = []) := by
  unfold chunkedSizeGet chunkAt
  by_cases hneed : 0 < need
  · rw [if_pos hneed, if_pos hneed]
    rcases receive_spec h with ⟨hreceive, hnone⟩ | ⟨r', hreceive, hsame, hgood, hlive, hpos⟩
    · refine .inr ⟨⟨.noPacket, ?_⟩, fun size stream hsome => ?_⟩
      · dsimp only [bind, Except.bind]
        rw [hreceive]
      · cases hsome
        exact hnone
    · refine .inl ⟨need, r', ?_, by rw [hsame], hgood, hlive, hpos⟩
      dsimp only [bind, Except.bind]
      rw [hreceive]
  · rw [if_neg hneed, if_neg hneed]
    rcases sizeLineGet_spec h with ⟨size, r₁, hline, hhead, hgood⟩ | ⟨⟨status, hline⟩, hhead⟩
    · rw [hhead]
      rcases receive_spec hgood with ⟨hreceive, hnone⟩ | ⟨r', hreceive, hsame, hgood, hlive, hpos⟩
      · refine .inr ⟨⟨.noPacket, ?_⟩, fun size stream hsome => ?_⟩
        · dsimp only [bind, Except.bind]
          rw [hline]
          dsimp only
          rw [hreceive]
        · cases hsome
          exact hnone
      · refine .inl ⟨size.toNat, r', ?_, by rw [hsame]; rfl, hgood, hlive, hpos⟩
        dsimp only [bind, Except.bind]
        rw [hline]
        dsimp only
        rw [hreceive]
    · refine .inr ⟨⟨status, ?_⟩, fun size stream hsome => ?_⟩
      · dsimp only [bind, Except.bind]
        rw [hline]
      · rw [hhead] at hsome
        cases hsome

/-- A call ends the body, delivers octets of a chunk, or fails where there is no whole chunk. --/
theorem chunkedGet_spec (h : c.reader.Good payload) :
    (∃ c' rest, chunkedGet payload c = .ok (.done, c') ∧
      chunkAt c.need c.reader.stream = some (0, carriageReturn :: lineFeed :: rest)) ∨
    (∃ p c' size stream, chunkedGet payload c = .ok (.packet p, c') ∧ chunkAt c.need c.reader.stream = some (size, stream) ∧
      c'.reader.Good payload ∧ p.flatten ≠ [] ∧
      (c'.need = 0 ∧ p.flatten.length = size ∧ stream = p.flatten ++ carriageReturn :: lineFeed :: c'.reader.stream ∨
        p.flatten.length < size ∧ c'.need = size - p.flatten.length ∧ stream = p.flatten ++ c'.reader.stream)) ∨
    ((∃ status, chunkedGet payload c = .error status) ∧ ∀ size data rest,
      chunkAt c.need c.reader.stream = some (size, data ++ carriageReturn :: lineFeed :: rest) → data.length ≠ size) := by
  unfold chunkedGet
  rcases chunkedSizeGet_spec h c.need with ⟨size, r, hsize, hchunk, hgood, hlive, hpos⟩ | ⟨⟨status, hsize⟩, hnone⟩
  · have hsize : chunkedSizeGet (c.totalReceiveBytes - c.actualBytesReceived) ⟨c.responsePacket, true, c.remaining, c.incoming⟩ =
        .ok (size, r) := hsize
    have hstream : r.stream = r.cursor.flatten ++ r.incoming.flatten.flatten := by
      unfold Reader.stream
      rw [if_neg (Nat.ne_of_gt hpos)]
    rw [hsize, hchunk]
    dsimp only [bind, Except.bind]
    by_cases hzero : size = 0
    · rw [if_pos hzero]
      rcases lineEnd_spec hgood with ⟨r₁, r₂, hfirst, hsecond, hend, -⟩ | ⟨hfail, hnone⟩
      · refine .inl ⟨⟨[], r₂.remaining, c.totalReceiveBytes, c.actualBytesReceived, r₂.incoming⟩, r₂.stream, ?_,
          by rw [hzero, hend]⟩
        rw [hfirst]
        dsimp only
        rw [hsecond]
      · refine .inr (.inr ⟨?_, fun size' data rest hsome hlength => ?_⟩)
        · rcases hfail with ⟨status, hfirst⟩ | ⟨r₁, status, hfirst, hsecond⟩
          · exact ⟨status, by rw [hfirst]⟩
          · refine ⟨status, ?_⟩
            rw [hfirst]
            dsimp only
            rw [hsecond]
        · obtain ⟨rfl, hdata⟩ := Prod.mk.inj (Option.some.inj hsome)
          rw [hzero] at hlength
          rw [List.length_eq_zero_iff.mp hlength] at hdata
          exact hnone rest hdata
    · rw [if_neg hzero]
      by_cases hfits : size ≤ r.remaining
      · rw [if_pos hfits]
        obtain ⟨cursor, hskip, hflat, htail, hbounds⟩ := skip_spec hgood.behind (Nat.pos_of_ne_zero hzero)
          (by rw [← hlive]; exact hfits)
        have hleft : r.remaining - size = cursor.flatten.length := by
          rw [hflat, List.length_drop, hlive]
        have hgood' : Reader.Good payload ⟨cursor, false, r.remaining - size, r.incoming⟩ :=
          ⟨.inr hleft, htail, hbounds payload hgood.fits, hgood.coming⟩
        have hrest : Reader.stream ⟨cursor, false, r.remaining - size, r.incoming⟩ = r.stream.drop size := by
          rw [hstream, List.drop_append_of_le_length (by rw [← hlive]; exact hfits), ← hflat]
          unfold Reader.stream
          dsimp only
          split
          · rename_i hnothing
            rw [List.length_eq_zero_iff.mp (hleft.symm.trans hnothing)]
          · rfl
        have htrim : (trim size r.cursor).flatten = r.stream.take size := by
          rw [trim_flatten (by rw [← hlive]; exact hfits), hstream,
            List.take_append_of_le_length (by rw [← hlive]; exact hfits)]
        have hlength : (trim size r.cursor).flatten.length = size := by
          rw [trim_flatten (by rw [← hlive]; exact hfits)]
          exact List.length_take_of_le (by rw [← hlive]; exact hfits)
        rw [hskip]
        dsimp only
        rcases lineEnd_spec hgood' with ⟨r₁, r₂, hfirst, hsecond, hend, hgood₂⟩ | ⟨hfail, hnone⟩
        · obtain ⟨kept, hkeep, hsame, hgood₃⟩ := keepRemaining_spec hgood₂
          refine .inr (.inl ⟨trim size r.cursor, ⟨kept, r₂.remaining, size, size, r₂.incoming⟩, size, r.stream, ?_, rfl,
            hgood₃, ?_, .inl ⟨Nat.sub_self _, hlength, ?_⟩⟩)
          · rw [hfirst]
            dsimp only
            rw [hsecond]
            dsimp only
            rw [hkeep]
          · intro hempty
            rw [hempty] at hlength
            exact hzero hlength.symm
          · have hkept : Client.reader ⟨kept, r₂.remaining, size, size, r₂.incoming⟩ = ⟨kept, true, r₂.remaining, r₂.incoming⟩ :=
              rfl
            rw [hkept, hsame, htrim, ← hend, hrest, List.take_append_drop]
        · refine .inr (.inr ⟨?_, fun size' data rest hsome hdata => ?_⟩)
          · rcases hfail with ⟨status, hfirst⟩ | ⟨r₁, status, hfirst, hsecond⟩
            · exact ⟨status, by rw [hfirst]⟩
            · refine ⟨status, ?_⟩
              rw [hfirst]
              dsimp only
              rw [hsecond]
          · obtain ⟨rfl, hoctets⟩ := Prod.mk.inj (Option.some.inj hsome)
            exact hnone rest (hrest.trans (by rw [hoctets, ← hdata, List.drop_left]))
      · rw [if_neg hfits]
        have htrim : (trim r.remaining r.cursor).flatten = r.cursor.flatten := by
          rw [trim_flatten (Nat.le_of_eq hlive), hlive, List.take_length]
        have hlength : (trim r.remaining r.cursor).flatten.length = r.remaining := by rw [htrim, hlive]
        refine .inr (.inl ⟨_, _, size, r.stream, rfl, rfl, ⟨.inl rfl, ?_, ?_, hgood.coming⟩, ?_, .inr ⟨?_, ?_, ?_⟩⟩)
        · intro b hb
          cases hb
        · intro b hb
          cases hb
        · intro hempty
          rw [hempty] at hlength
          exact absurd hlength.symm (Nat.ne_of_gt hpos)
        · omega
        · rw [hlength]
          rfl
        · rw [htrim, hstream]
          rfl
  · have hsize : chunkedSizeGet (c.totalReceiveBytes - c.actualBytesReceived) ⟨c.responsePacket, true, c.remaining, c.incoming⟩ =
        .error status := hsize
    rw [hsize]
    refine .inr (.inr ⟨⟨status, rfl⟩, fun size data rest hsome _ => ?_⟩)
    have := hnone _ _ hsome
    exact List.append_ne_nil_of_right_ne_nil data (List.cons_ne_nil _ _) this

end calls

end Netxduo.Web
