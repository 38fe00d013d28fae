import Mathlib

/-! Chains of buffers with their offsets: data that is appended, chains that are copied into another pool, room that is
    made for a header, and slices that are read. -/

namespace Netxduo.Packets.Offsets

/-! ### The source -/

/-- A buffer, from `nx_packet_data_start` to `nx_packet_data_end`, with its two pointers as offsets. --/
structure Buffer where
  memory : List UInt8
  prepend : Nat
  append : Nat
deriving DecidableEq, Repr

/-- What lies between the pointers. --/
def Buffer.data (b : Buffer) : List UInt8 := (b.memory.take b.append).drop b.prepend

/-- `memcpy` to the append pointer, which is then moved. --/
def Buffer.put (b : Buffer) (source : List UInt8) : Buffer :=
  { b with
    memory := b.memory.take b.append ++ source ++ b.memory.drop (b.append + source.length)
    append := b.append + source.length }

/-- `NX_PACKET` with its chain. `fromLast` is the buffer `nx_packet_last` points to and what is linked behind it; where
    the pointer is null there is nothing but the first buffer. --/
structure Packet where
  head : Buffer
  middle : List Buffer
  fromLast : List Buffer
  length : Nat
deriving DecidableEq, Repr

def Packet.tail (p : Packet) : List Buffer := p.middle ++ p.fromLast

def Packet.octets (p : Packet) : List UInt8 := p.head.data ++ p.tail.flatMap Buffer.data

/-- The statuses that come back. --/
inductive Status
  | noPacket
  | invalidPacket
  | underflow
  | notSupported
  | offsetError
deriving DecidableEq, Repr

/-- A packet from the pool: the memory of its buffer, with both pointers at the start. --/
def allocated (memory : List UInt8) : Buffer := ⟨memory, 0, 0⟩

/-- The octets that fit behind the append pointers. --/
def available (bs : List Buffer) : Nat := (bs.map fun b => b.memory.length - b.append).sum

/-- The loop that takes packets from the pool until the data fits. The pool is the list of its free buffers. --/
def gather : Nat → List (List UInt8) → Option (List Buffer)
  | 0, _ => some []
  | _ + 1, [] => none
  | n + 1, memory :: pool => (gather (n + 1 - memory.length) pool).map (allocated memory :: ·)

/-- The buffers the copying has left behind, and the one it ends in with those behind it. --/
structure Filled where
  passed : List Buffer
  fromLast : List Buffer

/-- The loop that copies the data into the buffers. --/
def fill (data : List UInt8) (work : Buffer) : List Buffer → Filled
  | [] => ⟨[], [work.put (data.take (work.memory.length - work.append))]⟩
  | next :: rest =>
    if (data.drop (work.memory.length - work.append)).isEmpty then
      ⟨[], work.put (data.take (work.memory.length - work.append)) :: next :: rest⟩
    else
      let filled := fill (data.drop (work.memory.length - work.append)) next rest
      ⟨work.put (data.take (work.memory.length - work.append)) :: filled.passed, filled.fromLast⟩

/-- `_nx_packet_data_append`. Where a buffer cannot be had, those that were taken are released. --/
def dataAppend (p : Packet) (data : List UInt8) (pool : List (List UInt8)) : Except Status Packet :=
  if p.fromLast.isEmpty then
    (gather (data.length - available [p.head]) pool).elim (.error .noPacket) fun more =>
      let filled := fill data p.head more
      .ok (if filled.passed.isEmpty then
          { p with head := filled.fromLast.headD p.head, length := p.length + data.length }
        else ⟨filled.passed.headD p.head, filled.passed.tail, filled.fromLast, p.length + data.length⟩)
  else
    (gather (data.length - available p.fromLast) pool).elim (.error .noPacket) fun more =>
      let filled := fill data (p.fromLast.headD p.head) (p.fromLast.tail ++ more)
      .ok { p with
        middle := p.middle ++ filled.passed
        fromLast := filled.fromLast
        length := p.length + data.length }

/-- The loop of the copy over the buffers behind the first one. What a call takes from the pool is gone for the
    next. --/
def appendAll (work : Packet) : List Buffer → List (List (List UInt8)) → Except Status Packet
  | [], _ => .ok work
  | b :: bs, pools => (dataAppend work b.data (pools.headD [])).bind fun work => appendAll work bs pools.tail

/-- `_nx_packet_copy`. `memory` is the first buffer it gets; each call that appends has the free buffers it finds. --/
def packetCopy (p : Packet) (memory : Option (List UInt8)) (pools : List (List (List UInt8))) : Except Status Packet :=
  if p.length = 0 then .error .invalidPacket
  else memory.elim (.error .noPacket) fun memory =>
    ((dataAppend ⟨allocated memory, [], [], 0⟩ (p.head.memory.take p.head.append) (pools.headD [])).bind
      fun work => appendAll work p.tail pools.tail).bind fun work =>
        let copy := { work with
          head := { work.head with prepend := p.head.prepend }
          length := work.length - p.head.prepend }
        if p.length ≠ copy.length then .error .invalidPacket else .ok copy

/-- `_nx_packet_data_adjust`. `memory` is the buffer the pool that owns the packet has, if any. --/
def dataAdjust (p : Packet) (headerSize : Nat) (memory : Option (List UInt8)) : Except Status Packet :=
  let b := p.head
  let availableSize := b.prepend + (b.memory.length - b.append)
  let moved := fun size : Nat => { b with
    memory := b.memory.take headerSize ++ b.data.take size ++ b.memory.drop (headerSize + size)
    prepend := headerSize
    append := headerSize + size }
  if b.memory.length < headerSize then .error .underflow
  else if b.prepend ≥ headerSize then .ok p
  else if availableSize ≥ headerSize then .ok { p with head := moved (b.append - b.prepend) }
  else if headerSize % 2 = 1 then .error .notSupported
  else memory.elim (.error .noPacket) fun memory =>
    let appendSize := headerSize - availableSize
    let work := (allocated memory).put (b.data.drop (b.data.length - appendSize))
    let head := moved (b.append - b.prepend - appendSize)
    .ok (if p.fromLast.isEmpty then { p with head := head, fromLast := [work] }
      else { p with head := head, middle := work :: p.middle })

/-- The buffer in which the offset lies, from the offset on, and those behind it. --/
def seek : Nat → List (List UInt8) → Option (List (List UInt8))
  | _, [] => none
  | offset, d :: ds => if d.length > offset then some (d.drop offset :: ds) else seek (offset - d.length) ds

/-- The loop that copies octets out of the buffers. --/
def copyOut : Nat → List (List UInt8) → List UInt8
  | _, [] => []
  | remaining, d :: ds => if remaining = 0 then [] else d.take remaining ++ copyOut (remaining - d.length) ds

/-- `_nx_packet_data_extract_offset` --/
def dataExtractOffset (p : Packet) (offset size : Nat) : Except Status (List UInt8) :=
  if offset ≥ p.length then if offset = 0 then .ok [] else .error .offsetError
  else (seek offset (p.head.data :: p.tail.map Buffer.data)).elim (.error .offsetError) fun found =>
    .ok (copyOut (if p.length - offset < size then p.length - offset else size) found)

/-! ### Chains in order -/

/-- `prepend ≤ append ≤ end`. --/
structure Buffer.Ordered (b : Buffer) : Prop where
  prepend : b.prepend ≤ b.append
  append : b.append ≤ b.memory.length

/-- Every buffer is in order, the length is the sum of the extents, the last pointer is null only for one buffer alone,
    and nothing lies behind the buffer it points to. --/
structure Packet.WellFormed (p : Packet) : Prop where
  head : p.head.Ordered
  tail : ∀ b ∈ p.tail, b.Ordered
  length : p.length = p.octets.length
  single : p.fromLast = [] → p.middle = []
  behind : ∀ b ∈ p.fromLast.tail, b.data = []

section
variable {p : Packet} {data : List UInt8}

theorem Buffer.Ordered.length_data {b : Buffer} (h : b.Ordered) : b.data.length = b.append - b.prepend := by
  have := h.append
  unfold Buffer.data
  rw [List.length_drop, List.length_take]
  omega

theorem put_spec {b : Buffer} {d : List UInt8} (h : b.Ordered) (hfit : b.append + d.length ≤ b.memory.length) :
    (b.put d).Ordered ∧ (b.put d).data = b.data ++ d ∧ (b.put d).memory.length = b.memory.length ∧
      (b.put d).prepend = b.prepend := by
  have hp := h.prepend
  have ha := h.append
  have hlen : (b.memory.take b.append).length = b.append := by
    rw [List.length_take]
    omega
  have hmemory : (b.put d).memory.length = b.memory.length := by
    show (b.memory.take b.append ++ d ++ b.memory.drop (b.append + d.length)).length = _
    rw [List.length_append, List.length_append, hlen, List.length_drop]
    omega
  refine ⟨⟨?_, ?_⟩, ?_, hmemory, rfl⟩
  · show b.prepend ≤ b.append + d.length
    omega
  · rw [hmemory]
    exact hfit
  · show ((b.memory.take b.append ++ d ++ b.memory.drop (b.append + d.length)).take (b.append + d.length)).drop
      b.prepend = (b.memory.take b.append).drop b.prepend ++ d
    rw [List.take_left' (by rw [List.length_append, hlen]), List.drop_append_of_le_length (by rw [hlen]; exact hp)]

/-! ### Appending -/

/-- What the pool gives is empty, in order, and enough. --/
theorem gather_spec : ∀ {n : Nat} {pool : List (List UInt8)} {more : List Buffer}, gather n pool = some more →
    (∀ b ∈ more, b.Ordered ∧ b.data = []) ∧ n ≤ available more
  | 0, _, more, h => by
    rw [gather] at h
    obtain rfl : [] = more := Option.some.inj h
    exact ⟨fun b hb => absurd hb List.not_mem_nil, Nat.zero_le _⟩
  | _ + 1, [], _, h => by cases h
  | n + 1, memory :: pool, more, h => by
    rw [gather, Option.map_eq_some_iff] at h
    obtain ⟨rest, hrest, rfl⟩ := h
    obtain ⟨hall, hsize⟩ := gather_spec hrest
    refine ⟨fun b hb => ?_, ?_⟩
    · rcases List.mem_cons.mp hb with rfl | hb
      · exact ⟨⟨le_refl _, Nat.zero_le _⟩, by simp [allocated, Buffer.data]⟩
      · exact hall b hb
    · have h : available (allocated memory :: rest) = memory.length + available rest := by
        simp [available, allocated]
      omega

/-- The copying puts all of the data behind what the buffers hold, and ends in the last of those it reaches. --/
theorem fill_spec : ∀ {r : List Buffer} {w : Buffer} {d : List UInt8}, w.Ordered →
    (∀ b ∈ r, b.Ordered ∧ b.data = []) → d.length ≤ available (w :: r) →
    ∃ last behind, (fill d w r).fromLast = last :: behind ∧ (∀ b ∈ behind, b.Ordered ∧ b.data = []) ∧
      last.Ordered ∧ (∀ b ∈ (fill d w r).passed, b.Ordered) ∧
      (fill d w r).passed.flatMap Buffer.data ++ last.data = w.data ++ d ∧
      (∀ b, ((fill d w r).passed ++ [last]).head? = some b → b.prepend = w.prepend ∧
        b.memory.length = w.memory.length) ∧
      (∀ b, (fill d w r).passed.head? = some b → b.append = b.memory.length)
  | [], work, data, hwork, _, hfit => by
    have hroom : data.length ≤ work.memory.length - work.append := by simpa [available] using hfit
    obtain ⟨hord, hdata, hmem, hpre⟩ := put_spec (d := data) hwork (by have := hwork.append; omega)
    rw [fill, List.take_of_length_le hroom]
    exact ⟨_, [], rfl, fun b hb => absurd hb List.not_mem_nil, hord, fun b hb => absurd hb List.not_mem_nil,
      by rw [List.flatMap_nil, List.nil_append, hdata],
      fun b hb => by obtain rfl := Option.some.inj hb; exact ⟨hpre, hmem⟩, fun b hb => by cases hb⟩
  | next :: rest, work, data, hwork, hrest, hfit => by
    have ha := hwork.append
    have htake : (data.take (work.memory.length - work.append)).length ≤ work.memory.length - work.append := by
      rw [List.length_take]
      omega
    obtain ⟨hord, hdata, hmem, hpre⟩ := put_spec (d := data.take (work.memory.length - work.append)) hwork (by omega)
    rw [fill]
    by_cases hdone : (data.drop (work.memory.length - work.append)).isEmpty
    · have hroom : data.length ≤ work.memory.length - work.append := by
        rw [List.isEmpty_iff, List.drop_eq_nil_iff] at hdone
        exact hdone
      rw [if_pos hdone]
      refine ⟨_, next :: rest, rfl, hrest, hord, fun b hb => absurd hb List.not_mem_nil, ?_,
        ?_, fun b hb => by cases hb⟩
      · rw [List.flatMap_nil, List.nil_append, hdata, List.take_of_length_le hroom]
      · intro b hb
        obtain rfl := Option.some.inj hb
        exact ⟨hpre, hmem⟩
    · have hmore : work.memory.length - work.append < data.length := by
        rw [List.isEmpty_iff, List.drop_eq_nil_iff] at hdone
        omega
      obtain ⟨last, behind, hlast, hbehind, hlastord, hpassed, hall, -, -⟩ := fill_spec (r := rest) (w := next)
        (d := data.drop (work.memory.length - work.append)) (hrest next List.mem_cons_self).1
        (fun b hb => hrest b (List.mem_cons_of_mem _ hb)) (by
          rw [List.length_drop]
          simp only [available, List.map_cons, List.sum_cons] at hfit ⊢
          omega)
      rw [if_neg hdone]
      refine ⟨last, behind, hlast, hbehind, hlastord, ?_, ?_, ?_, ?_⟩
      · intro b hb
        rcases List.mem_cons.mp hb with rfl | hb
        · exact hord
        · exact hpassed b hb
      · rw [(hrest next List.mem_cons_self).2, List.nil_append] at hall
        simp only [List.flatMap_cons, List.append_assoc]
        rw [hall, hdata, List.append_assoc, List.take_append_drop]
      · intro b hb
        obtain rfl := Option.some.inj hb
        exact ⟨hpre, hmem⟩
      · intro b hb
        obtain rfl := Option.some.inj hb
        rw [hmem]
        show work.append + (data.take (work.memory.length - work.append)).length = work.memory.length
        rw [List.length_take]
        omega

/-- No buffer in front of the last one has room left in the first buffer. --/
def Packet.Full (p : Packet) : Prop := p.fromLast ≠ [] → p.head.append = p.head.memory.length

/-- The data is behind the octets there were, and nothing else has changed. --/
theorem dataAppend_spec {pool : List (List UInt8)} {q : Packet} (h : p.WellFormed) (hq : dataAppend p data pool =
    .ok q) :
    q.WellFormed ∧ q.octets = p.octets ++ data ∧ q.length = p.length + data.length ∧ q.head.prepend = p.head.prepend ∧
      q.head.memory.length = p.head.memory.length ∧ (p.Full → q.Full) := by
  obtain ⟨head, middle, fromLast, length⟩ := p
  have hhead : head.Ordered := h.head
  have htail : ∀ b ∈ middle ++ fromLast, b.Ordered := h.tail
  have hlength : length = (head.data ++ (middle ++ fromLast).flatMap Buffer.data).length := h.length
  have hsingle : fromLast = [] → middle = [] := h.single
  have hbehind : ∀ b ∈ fromLast.tail, b.data = [] := h.behind
  unfold dataAppend at hq
  dsimp only at hq
  cases fromLast with
  | nil =>
    obtain rfl := hsingle rfl
    rw [if_pos List.isEmpty_nil] at hq
    cases hgather : gather (data.length - available [head]) pool with
    | none => rw [hgather] at hq; cases hq
    | some more =>
      rw [hgather] at hq
      obtain rfl := Except.ok.inj hq
      obtain ⟨hmore, hsize⟩ := gather_spec hgather
      have hfit : data.length ≤ available (head :: more) := by
        have h : available (head :: more) = available [head] + available more := by simp [available]
        omega
      obtain ⟨last, behind, hlast, hempty, hord, hpassed, hall, hfirst, hfull⟩ := fill_spec hhead hmore hfit
      have hzero : behind.flatMap Buffer.data = [] := List.flatMap_eq_nil_iff.mpr fun b hb => (hempty b hb).2
      simp only [List.append_nil, List.flatMap_nil] at hlength
      cases hcase : (fill data head more).passed with
      | nil =>
        -- The copying ends in the first buffer, so no other one was taken from the pool.
        rw [hcase] at hall hfirst
        simp only [hlast, List.isEmpty_nil, if_true, List.headD_cons]
        simp only [List.flatMap_nil, List.nil_append] at hall
        obtain ⟨hpre, hmem⟩ := hfirst last rfl
        refine ⟨⟨hord, fun b hb => absurd hb List.not_mem_nil,
          ?_, fun _ => rfl, fun b hb => absurd hb List.not_mem_nil⟩, ?_,
          trivial, hpre, hmem, fun _ hne => absurd rfl hne⟩
        · show length + data.length = (last.data ++ [].flatMap Buffer.data).length
          rw [List.flatMap_nil, List.append_nil, hall, List.length_append, hlength]
        · show last.data ++ [].flatMap Buffer.data = head.data ++ [].flatMap Buffer.data ++ data
          rw [List.flatMap_nil, List.append_nil, List.append_nil, hall]
      | cons first rest =>
        rw [hcase] at hall hfirst hpassed hfull
        simp only [hlast, List.isEmpty_cons, if_false, List.headD_cons, List.tail_cons, Bool.false_eq_true]
        obtain ⟨hpre, hmem⟩ := hfirst first rfl
        have hoct : first.data ++ (rest ++ last :: behind).flatMap Buffer.data = head.data ++ data := by
          rw [List.flatMap_append, List.flatMap_cons, hzero, List.append_nil, ← hall, List.flatMap_cons,
            List.append_assoc]
        refine ⟨⟨hpassed first List.mem_cons_self, ?_, ?_, fun hne => absurd hne (List.cons_ne_nil _ _),
          fun b hb => (hempty b hb).2⟩, ?_, trivial, hpre, hmem, fun _ _ => hfull first rfl⟩
        · intro b hb
          rcases List.mem_append.mp hb with hb | hb
          · exact hpassed b (List.mem_cons_of_mem _ hb)
          rcases List.mem_cons.mp hb with rfl | hb
          · exact hord
          · exact (hempty b hb).1
        · show length + data.length = (first.data ++ (rest ++ last :: behind).flatMap Buffer.data).length
          rw [hoct, List.length_append, hlength]
        · show first.data ++ (rest ++ last :: behind).flatMap Buffer.data = head.data ++
            ([] ++ []).flatMap Buffer.data ++ data
          rw [hoct, List.append_nil, List.flatMap_nil, List.append_nil]
  | cons work others =>
    rw [if_neg (show ¬(work :: others).isEmpty = true from Bool.false_ne_true)] at hq
    cases hgather : gather (data.length - available (work :: others)) pool with
    | none => rw [hgather] at hq; cases hq
    | some more =>
      rw [hgather] at hq
      obtain rfl := Except.ok.inj hq
      obtain ⟨hmore, hsize⟩ := gather_spec hgather
      have hothers : ∀ b ∈ others ++ more, b.Ordered ∧ b.data = [] := by
        intro b hb
        rcases List.mem_append.mp hb with hb | hb
        · exact ⟨htail b (List.mem_append_right _ (List.mem_cons_of_mem _ hb)), hbehind b hb⟩
        · exact hmore b hb
      have hfit : data.length ≤ available (work :: (others ++ more)) := by
        have h : available (work :: (others ++ more)) = available (work :: others) + available more := by
          simp [available, Nat.add_assoc]
        omega
      obtain ⟨last, behind, hlast, hempty, hord, hpassed, hall, -, -⟩ := fill_spec
        (htail work (List.mem_append_right _ List.mem_cons_self)) hothers hfit
      have hzero : behind.flatMap Buffer.data = [] := List.flatMap_eq_nil_iff.mpr fun b hb => (hempty b hb).2
      have hothersZero : others.flatMap Buffer.data = [] := List.flatMap_eq_nil_iff.mpr fun b hb => hbehind b hb
      simp only [List.headD_cons, List.tail_cons, hlast]
      have hoct : head.data ++ ((middle ++ (fill data work (others ++ more)).passed) ++ last ::
        behind).flatMap Buffer.data =
          head.data ++ (middle ++ work :: others).flatMap Buffer.data ++ data := by
        simp only [List.flatMap_append, List.flatMap_cons, hzero, hothersZero, List.append_nil, List.append_assoc]
        rw [hall]
      refine ⟨⟨hhead, ?_, ?_, fun hne => absurd hne (List.cons_ne_nil _ _), fun b hb => (hempty b hb).2⟩, hoct,
        trivial, trivial, trivial,
        fun hfull _ => hfull (List.cons_ne_nil _ _)⟩
      · intro b hb
        rcases List.mem_append.mp hb with hb | hb
        · rcases List.mem_append.mp hb with hb | hb
          · exact htail b (List.mem_append_left _ hb)
          · exact hpassed b hb
        rcases List.mem_cons.mp hb with rfl | hb
        · exact hord
        · exact (hempty b hb).1
      · show length + data.length = (head.data ++
          ((middle ++ (fill data work (others ++ more)).passed) ++ last :: behind).flatMap Buffer.data).length
        rw [hoct, List.length_append, hlength]

/-! ### Copying -/

theorem appendAll_spec : ∀ {bs : List Buffer} {work q : Packet} {pools : List (List (List UInt8))}, work.WellFormed →
    appendAll work bs pools = .ok q → q.WellFormed ∧ q.octets = work.octets ++ bs.flatMap Buffer.data ∧
      q.length = work.length + (bs.flatMap Buffer.data).length ∧ q.head.prepend = work.head.prepend ∧
      q.head.memory.length = work.head.memory.length ∧ (work.Full → q.Full)
  | [], work, q, _, h, hq => by
    rw [appendAll] at hq
    obtain rfl := Except.ok.inj hq
    exact ⟨h, by simp, by simp, rfl, rfl, id⟩
  | b :: bs, work, q, pools, h, hq => by
    rw [appendAll] at hq
    cases happend : dataAppend work b.data (pools.headD []) with
    | error e => rw [happend] at hq; cases hq
    | ok next =>
      rw [happend] at hq
      obtain ⟨hnext, hoct, hlen, hpre, hmem, hfull⟩ := dataAppend_spec h happend
      obtain ⟨hq', hoct', hlen', hpre', hmem', hfull'⟩ := appendAll_spec hnext hq
      refine ⟨hq', ?_, ?_, hpre'.trans hpre, hmem'.trans hmem, fun hf => hfull' (hfull hf)⟩
      · rw [hoct', hoct, List.flatMap_cons, List.append_assoc]
      · rw [hlen', hlen, List.flatMap_cons, List.length_append, Nat.add_assoc]

theorem Buffer.data_of_zero {b : Buffer} (h : b.prepend = 0) : b.data = b.memory.take b.append := by
  unfold Buffer.data
  rw [h, List.drop_zero]

/-- A copy that succeeds is in order and has the same octets exactly where the first buffer it got is as long as the
    headroom of the source. --/
theorem packetCopy_spec {memory : List UInt8} {pools : List (List (List UInt8))} {q : Packet} (h : p.WellFormed)
    (hq : packetCopy p (some memory) pools = .ok q) :
    (q.WellFormed ∧ q.octets = p.octets) ↔ p.head.prepend ≤ memory.length := by
  unfold packetCopy at hq
  split at hq
  · cases hq
  rw [Option.elim_some] at hq
  have hempty : (⟨allocated memory, [], [], 0⟩ : Packet).WellFormed :=
    ⟨⟨le_refl _, Nat.zero_le _⟩, fun b hb => absurd hb List.not_mem_nil, by simp [Packet.octets, Packet.tail, allocated,
      Buffer.data], fun _ => rfl, fun b hb => absurd hb List.not_mem_nil⟩
  cases hfirst : dataAppend ⟨allocated memory, [], [], 0⟩ (p.head.memory.take p.head.append) (pools.headD []) with
  | error e => rw [hfirst] at hq; cases hq
  | ok first =>
    rw [hfirst] at hq
    replace hq : (appendAll first p.tail pools.tail).bind (fun work =>
        if p.length ≠ work.length - p.head.prepend then .error .invalidPacket
        else .ok { work with
          head := { work.head with prepend := p.head.prepend }
          length := work.length - p.head.prepend }) = .ok q := hq
    obtain ⟨hw₁, hoct₁, hlen₁, hpre₁, hmem₁, hfull₁⟩ := dataAppend_spec hempty hfirst
    cases hall : appendAll first p.tail pools.tail with
    | error e => rw [hall] at hq; cases hq
    | ok work =>
      obtain ⟨hw, hoct, hlen, hpre, hmem, hfull⟩ := appendAll_spec hw₁ hall
      rw [hall] at hq
      replace hq : (if p.length ≠ work.length - p.head.prepend then Except.error Status.invalidPacket
        else .ok { work with
          head := { work.head with prepend := p.head.prepend }
          length := work.length - p.head.prepend }) = .ok q := hq
      split at hq
      · cases hq
      obtain rfl := Except.ok.inj hq
      have hzero : work.head.prepend = 0 := hpre.trans hpre₁
      have hmemory : work.head.memory.length = memory.length := hmem.trans hmem₁
      have hwfull : work.Full := hfull (hfull₁ fun hne => absurd rfl hne)
      have hcap := hw.head.append
      have hsrc := h.head.prepend
      have hsrc' := h.head.append
      have hstream : work.head.data ++ work.tail.flatMap Buffer.data =
          p.head.memory.take p.head.append ++ p.tail.flatMap Buffer.data := by
        have h₁ : work.octets = first.octets ++ p.tail.flatMap Buffer.data := hoct
        rw [hoct₁] at h₁
        have h₂ : (⟨allocated memory, [], [], 0⟩ : Packet).octets = [] := by
          simp [Packet.octets, Packet.tail, allocated, Buffer.data]
        rw [h₂, List.nil_append] at h₁
        exact h₁
      have htake : (p.head.memory.take p.head.append).length = p.head.append := by
        rw [List.length_take]
        omega
      have hwork : work.head.data.length = work.head.append := by rw [hw.head.length_data, hzero, Nat.sub_zero]
      constructor
      · rintro ⟨hq', -⟩
        have hle : p.head.prepend ≤ work.head.append := hq'.head.prepend
        omega
      · intro hle
        have hfits : p.head.prepend ≤ work.head.append := by
          by_cases hlast : work.fromLast = []
          · have htail : work.tail = [] := by
              unfold Packet.tail
              rw [hw.single hlast, hlast, List.append_nil]
            have hcount := congrArg List.length hstream
            rw [htail, List.flatMap_nil, List.append_nil, hwork, List.length_append, htake] at hcount
            omega
          · have := hwfull hlast
            omega
        have hdrop : ({ work.head with prepend := p.head.prepend } : Buffer).data ++ work.tail.flatMap Buffer.data =
          p.octets := by
          have h₁ : ({ work.head with prepend := p.head.prepend } : Buffer).data =
            work.head.data.drop p.head.prepend := by
            rw [Buffer.data_of_zero hzero]
            rfl
          rw [h₁, ← List.drop_append_of_le_length (by rw [hwork]; exact hfits), hstream,
            List.drop_append_of_le_length (by rw [htake]; exact hsrc)]
          rfl
        refine ⟨⟨⟨hfits, hcap⟩, hw.tail, ?_, hw.single, hw.behind⟩, hdrop⟩
        show work.length - p.head.prepend = (({ work.head with prepend := p.head.prepend } : Buffer).data ++
          work.tail.flatMap Buffer.data).length
        rw [hdrop]
        rename_i hsame
        rw [← h.length]
        omega

/-! ### Room for a header -/

/-- The first buffer with so many of its octets moved behind the room for the header. --/
def Buffer.moved (b : Buffer) (headerSize size : Nat) : Buffer :=
  { b with
    memory := b.memory.take headerSize ++ b.data.take size ++ b.memory.drop (headerSize + size)
    prepend := headerSize
    append := headerSize + size }

theorem moved_spec {b : Buffer} {n k : Nat} (hsize : k ≤ b.data.length)
    (hfit : n + k ≤ b.memory.length) :
    (b.moved n k).Ordered ∧ (b.moved n k).data = b.data.take k := by
  have hfront : (b.memory.take n ++ b.data.take k).length = n + k := by
    rw [List.length_append, List.length_take, List.length_take]
    omega
  refine ⟨⟨Nat.le_add_right _ _, ?_⟩, ?_⟩
  · show n + k ≤ (b.memory.take n ++ b.data.take k ++ b.memory.drop (n + k)).length
    rw [List.length_append, hfront]
    omega
  · show ((b.memory.take n ++ b.data.take k ++ b.memory.drop (n + k)).take
      (n + k)).drop n = b.data.take k
    rw [List.take_left' hfront, List.drop_left' (by rw [List.length_take]; omega)]

/-- The octets stay, and there is room for the header in front of them. --/
theorem dataAdjust_spec {headerSize : Nat} {memory : Option (List UInt8)} {q : Packet} (h : p.WellFormed)
    (hmemory : ∀ m, memory = some m → m.length = p.head.memory.length) (hq : dataAdjust p headerSize memory = .ok q) :
    q.WellFormed ∧ q.octets = p.octets ∧ headerSize ≤ q.head.prepend := by
  have hpre := h.head.prepend
  have happ := h.head.append
  have hdata := h.head.length_data
  unfold dataAdjust at hq
  dsimp only at hq
  split at hq
  · cases hq
  split at hq
  · obtain rfl := Except.ok.inj hq
    exact ⟨h, rfl, by assumption⟩
  split at hq
  · -- The octets move within the first buffer.
    rename_i hroom
    obtain ⟨hord, hsame⟩ := moved_spec (b := p.head) (n := headerSize) (k := p.head.append - p.head.prepend)
      (by omega) (by omega)
    rw [← hdata, List.take_length] at hsame
    obtain rfl := Except.ok.inj hq
    have hoct : (p.head.moved headerSize (p.head.append - p.head.prepend)).data ++ p.tail.flatMap Buffer.data =
      p.octets := by
      rw [← hdata, hsame]
      rfl
    exact ⟨⟨hord, h.tail, h.length.trans (congrArg List.length hoct.symm), h.single, h.behind⟩, hoct, le_refl _⟩
  split at hq
  · cases hq
  cases memory with
  | none => cases hq
  | some m =>
    -- The end of the first buffer moves into a new one behind it.
    rw [Option.elim_some] at hq
    have hm := hmemory m rfl
    obtain ⟨k, hk⟩ : ∃ k, k = headerSize - (p.head.prepend + (p.head.memory.length - p.head.append)) := ⟨_, rfl⟩
    rw [← hk] at hq
    obtain ⟨hord, hsame⟩ := moved_spec (b := p.head) (n := headerSize)
      (k := p.head.append - p.head.prepend - k) (by omega) (by omega)
    have hdropLength : (p.head.data.drop (p.head.data.length - k)).length = k := by
      rw [List.length_drop]
      omega
    obtain ⟨hwork, hworkData, -, -⟩ := put_spec (b := allocated m) (d := p.head.data.drop (p.head.data.length - k))
      ⟨le_refl _, Nat.zero_le _⟩ (by
        rw [hdropLength]
        show 0 + k ≤ m.length
        omega)
    have hworkData : ((allocated m).put (p.head.data.drop (p.head.data.length - k))).data =
        p.head.data.drop (p.head.data.length - k) := by
      rw [hworkData]
      simp [allocated, Buffer.data]
    have hparts : (p.head.moved headerSize (p.head.append - p.head.prepend - k)).data ++
        ((allocated m).put (p.head.data.drop (p.head.data.length - k))).data = p.head.data := by
      rw [hsame, hworkData, hdata, List.take_append_drop]
    generalize (allocated m).put (p.head.data.drop (p.head.data.length - k)) = work at *
    obtain rfl := Except.ok.inj hq
    by_cases hlast : p.fromLast = []
    · have hmiddle := h.single hlast
      have hp : p.octets = p.head.data := by
        simp [Packet.octets, Packet.tail, hlast, hmiddle]
      rw [if_pos (by rw [hlast]; rfl)]
      have hoct : (p.head.moved headerSize (p.head.append - p.head.prepend - k)).data ++
          (p.middle ++ [work]).flatMap Buffer.data = p.octets := by
        rw [hmiddle, hp, ← hparts]
        simp
      refine ⟨⟨hord, ?_, h.length.trans (congrArg List.length hoct.symm), fun hne => absurd hne (List.cons_ne_nil _ _),
        fun b hb => absurd hb List.not_mem_nil⟩, hoct, le_refl _⟩
      intro b hb
      have hb : b ∈ p.middle ++ [work] := hb
      rw [hmiddle, List.nil_append] at hb
      obtain rfl := List.mem_singleton.mp hb
      exact hwork
    · rw [if_neg (by rwa [List.isEmpty_iff])]
      have hoct : (p.head.moved headerSize (p.head.append - p.head.prepend - k)).data ++
          ((work :: p.middle) ++ p.fromLast).flatMap Buffer.data = p.octets := by
        unfold Packet.octets Packet.tail
        rw [← hparts]
        simp
      refine ⟨⟨hord, ?_, h.length.trans (congrArg List.length hoct.symm), fun hne => absurd hne hlast, h.behind⟩, hoct,
        le_refl _⟩
      intro b hb
      have hb : b ∈ work :: (p.middle ++ p.fromLast) := hb
      rcases List.mem_cons.mp hb with rfl | hb
      · exact hwork
      · exact h.tail b hb

/-! ### Reading a slice -/

theorem seek_spec : ∀ {o : Nat} {l : List (List UInt8)}, o < l.flatten.length →
    ∃ found, seek o l = some found ∧ found.flatten = l.flatten.drop o
  | _, [], h => by simp at h
  | offset, d :: ds, h => by
    rw [List.flatten_cons, List.length_append] at h
    rw [seek]
    split
    · refine ⟨_, rfl, ?_⟩
      rw [List.flatten_cons, List.flatten_cons, List.drop_append_of_le_length (by omega)]
    · obtain ⟨found, hfound, hflat⟩ := seek_spec (o := offset - d.length) (l := ds) (by omega)
      refine ⟨found, hfound, ?_⟩
      have hd : d.drop offset = [] := List.drop_of_length_le (by omega)
      rw [hflat, List.flatten_cons, List.drop_append, hd, List.nil_append]

theorem copyOut_eq : ∀ (n : Nat) (ds : List (List UInt8)), copyOut n ds = ds.flatten.take n
  | _, [] => by simp [copyOut]
  | n, d :: ds => by
    rw [copyOut, copyOut_eq, List.flatten_cons, List.take_append]
    split
    · rename_i hzero
      simp [hzero]
    · rfl

/-- What is read of a chain in order is the slice that is asked for. --/
theorem dataExtractOffset_spec (h : p.WellFormed) {offset : Nat} (size : Nat) (hoffset : offset < p.length ∨ offset =
    0) :
    dataExtractOffset p offset size = .ok ((p.octets.drop offset).take size) := by
  have hflat : (p.head.data :: p.tail.map Buffer.data).flatten = p.octets := by
    rw [List.flatten_cons]
    rfl
  have hlength := h.length
  unfold dataExtractOffset
  split
  · rename_i hge
    obtain rfl : offset = 0 := by omega
    rw [if_pos rfl, List.eq_nil_of_length_eq_zero (l := p.octets) (by omega)]
    simp
  · obtain ⟨found, hfound, hrest⟩ := seek_spec (o := offset) (l := p.head.data :: p.tail.map Buffer.data) (by
      rw [hflat]
      omega)
    rw [hfound, Option.elim_some, copyOut_eq, hrest, hflat]
    congr 1
    split
    · have hdrop : (p.octets.drop offset).length = p.length - offset := by rw [List.length_drop, hlength]
      rw [List.take_of_length_le (by omega), List.take_of_length_le (by omega)]
    · rfl

/-- The pool gives too little only where its buffers are too small together. --/
theorem gather_none : ∀ {n : Nat} {pool : List (List UInt8)}, gather n pool = none → (pool.map List.length).sum < n
  | 0, _, h => by rw [gather] at h; cases h
  | _ + 1, [], _ => by simp
  | n + 1, memory :: pool, h => by
    rw [gather, Option.map_eq_none_iff] at h
    have hrest := gather_none h
    rw [List.map_cons, List.sum_cons]
    omega

theorem dataAppend_error {pool : List (List UInt8)} {e : Status} (he : dataAppend p data pool = .error e) :
    e = .noPacket ∧ (pool.map List.length).sum < data.length := by
  unfold dataAppend at he
  split at he
  · cases hgather : gather (data.length - available [p.head]) pool with
    | none =>
      rw [hgather] at he
      exact ⟨(Except.error.inj he).symm, (gather_none hgather).trans_le (Nat.sub_le _ _)⟩
    | some more => rw [hgather] at he; cases he
  · cases hgather : gather (data.length - available p.fromLast) pool with
    | none =>
      rw [hgather] at he
      exact ⟨(Except.error.inj he).symm, (gather_none hgather).trans_le (Nat.sub_le _ _)⟩
    | some more => rw [hgather] at he; cases he

/-! ### The four operations -/

/-- What is promised of a chain and of a copy of it. An append that fails has written nothing to the chain; it fails
    only where the pool has too little. --/
structure Preserves (p copy : Packet) : Prop where
  append : ∀ data pool q, dataAppend p data pool = .ok q →
    q.WellFormed ∧ q.octets = p.octets ++ data ∧ q.length = p.length + data.length
  fails : ∀ data pool e, dataAppend p data pool = .error e → e = .noPacket ∧ (pool.map List.length).sum < data.length
  adjust : ∀ headerSize memory q, (∀ m, memory = some m → m.length = p.head.memory.length) →
    dataAdjust p headerSize memory = .ok q → q.WellFormed ∧ q.octets = p.octets ∧ headerSize ≤ q.head.prepend
  copy : copy.WellFormed ∧ copy.octets = p.octets
  extract : ∀ q : Packet, q.WellFormed → ∀ offset size, offset < q.length ∨ offset = 0 →
    dataExtractOffset q offset size = .ok ((q.octets.drop offset).take size)

/-- The operations keep the octets of every chain in order, the copy exactly where the first buffer it gets is as long
    as the headroom of the source. --/
theorem preserves_iff {memory : List UInt8} {pools : List (List (List UInt8))} {copy : Packet} (h : p.WellFormed)
    (hcopy : packetCopy p (some memory) pools = .ok copy) : Preserves p copy ↔ p.head.prepend ≤ memory.length := by
  rw [← packetCopy_spec h hcopy]
  constructor
  · exact fun hp => hp.copy
  · intro hright
    exact {
      append := fun data pool q hq => ⟨(dataAppend_spec h hq).1, (dataAppend_spec h hq).2.1,
        (dataAppend_spec h hq).2.2.1⟩
      fails := fun data pool e he => dataAppend_error he
      adjust := fun headerSize memory q hmemory hq => dataAdjust_spec h hmemory hq
      copy := hright
      extract := fun q hq offset size hoffset => dataExtractOffset_spec hq size hoffset }

/-- Three octets behind two of headroom, copied into buffers of four. --/
theorem preserves_iff_small :
    Preserves ⟨⟨[0, 0, 7, 8, 9], 2, 5⟩, [], [], 3⟩ ⟨⟨[0, 0, 7, 8], 2, 4⟩, [], [⟨[9, 0, 0, 0], 0, 1⟩], 3⟩ ↔ 2 ≤ 4 :=
  preserves_iff ⟨⟨by decide, by decide⟩, fun _ hb => absurd hb List.not_mem_nil, by decide, fun _ => rfl,
    fun _ hb => absurd hb List.not_mem_nil⟩ (show packetCopy ⟨⟨[0, 0, 7, 8, 9], 2, 5⟩, [], [], 3⟩ (some [0, 0, 0, 0])
      [[[0, 0, 0, 0]]] = _ by decide +kernel)

/-- One octet behind three of headroom, copied into buffers of two: the prepend pointer is behind the append
    pointer. --/
theorem copy_out_of_order :
    packetCopy ⟨⟨[0, 0, 0, 7], 3, 4⟩, [], [], 1⟩ (some [0, 0]) [[[0, 0]]] =
        .ok ⟨⟨[0, 0], 3, 2⟩, [], [⟨[0, 7], 0, 2⟩], 1⟩ ∧
      ¬Packet.WellFormed ⟨⟨[0, 0], 3, 2⟩, [], [⟨[0, 7], 0, 2⟩], 1⟩ ∧
      Packet.octets ⟨⟨[0, 0], 3, 2⟩, [], [⟨[0, 7], 0, 2⟩], 1⟩ = [0, 7] ∧
      Packet.octets ⟨⟨[0, 0, 0, 7], 3, 4⟩, [], [], 1⟩ = [7] :=
  ⟨by decide +kernel, fun h => absurd h.head.prepend (by decide), by decide +kernel, by decide +kernel⟩

end

end Netxduo.Packets.Offsets
