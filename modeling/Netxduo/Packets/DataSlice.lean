import Netxduo.Packets.Offsets
import Netxduo.Tcp.Types

/-! A part of a queued segment that is sent again: the octets asked for, in buffers of their own behind a copy of the
    header. -/

namespace Netxduo.Packets.Offsets.Slice

/-! ### The source -/

/-- `NX_TCP_PACKET`: the room for the physical header, an IPv6 header and the words every TCP header has. --/
def tcpPacket : Nat := 16 + 40 + 20

/-- The buffers by their addresses, and the list of those the pool has free. --/
structure Memory where
  buffer : Nat → Buffer
  free : List Nat

/-- The buffers of a packet, written where they lie. --/
def store (buffer : Nat → Buffer) : List Nat → List Buffer → Nat → Buffer
  | a :: as, b :: bs => Function.update (store buffer as bs) a b
  | [], _ => buffer
  | _ :: _, [] => buffer

/-- A packet under construction, with the addresses of its buffers. --/
structure Copy where
  held : List Nat
  packet : Packet

def buffers (p : Packet) : List Buffer := p.head :: p.tail

/-- `_nx_packet_allocate` with `NX_NO_WAIT` --/
def packetAllocate (payloadSize packetType : Nat) (m : Memory) : Option (Copy × Memory) :=
  if payloadSize < packetType then none
  else m.free.head?.map fun a =>
    let b : Buffer := { m.buffer a with prepend := packetType, append := packetType }
    (⟨[a], ⟨b, [], [], 0⟩⟩, ⟨Function.update m.buffer a b, m.free.tail⟩)

/-- `_nx_packet_release`. Each buffer of the chain is put in front of the list. --/
def packetRelease (copy : Copy) (m : Memory) : Memory := { m with free := copy.held.reverse ++ m.free }

/-- `_nx_packet_data_append`. What it takes from the pool is linked behind the chain; where the pool has too little,
    everything was taken from it and is released again. --/
def packetDataAppend (copy : Copy) (data : List UInt8) (m : Memory) : Option Copy × Memory :=
  (dataAppend copy.packet data (m.free.map fun a => (m.buffer a).memory)).toOption.elim
    (none, ⟨store m.buffer m.free (m.free.map fun a => allocated (m.buffer a).memory), m.free.reverse⟩) fun q =>
      let taken := (buffers q).length - (buffers copy.packet).length
      let held := copy.held ++ m.free.take taken
      (some ⟨held, q⟩, ⟨store m.buffer held (buffers q), m.free.drop taken⟩)

/-- The words of the header are kept in network byte order. --/
def word (d : List UInt8) (i : Nat) : ULONG :=
  (d.getD i 0).toBitVec ++ (d.getD (i + 1) 0).toBitVec ++ (d.getD (i + 2) 0).toBitVec ++ (d.getD (i + 3) 0).toBitVec

def octetsOfWord (w : ULONG) : List UInt8 :=
  [⟨w.extractLsb' 24 8⟩, ⟨w.extractLsb' 16 8⟩, ⟨w.extractLsb' 8 8⟩, ⟨w.extractLsb' 0 8⟩]

/-- The data offset of a header, in octets. --/
def headerLength (d : List UInt8) : Nat := (word d 12 >>> 28).toNat * 4

/-- Why there is no slice. --/
inductive Failure
  | header
  | pool
  | allocate
  | append
  | short
deriving DecidableEq, Repr

/-- The walk over the chain. An append that fails has the copy released. --/
def walk : List Nat → Nat → Nat → Copy → Memory → Option (Copy × Nat) × Memory
  | [], _, left, copy, m => (some (copy, left), m)
  | source :: rest, offset, left, copy, m =>
    if left = 0 then (some (copy, left), m)
    else
      let chunk := (m.buffer source).append - (m.buffer source).prepend
      if offset ≥ chunk then walk rest (offset - chunk) left copy m
      else
        let chunk := if chunk - offset > left then left else chunk - offset
        let start := (m.buffer source).prepend + offset
        let done := packetDataAppend copy (((m.buffer source).memory.drop start).take chunk) m
        done.1.elim (none, packetRelease copy done.2) fun copy => walk rest 0 (left - chunk) copy done.2

/-- `memcpy` to a place in a buffer. --/
def overwrite (memory : List UInt8) (i : Nat) (d : List UInt8) : List UInt8 :=
  memory.take i ++ d ++ memory.drop (i + d.length)

/-- The header in front of the data, with the number of the slice in it. --/
def pushHeader (b : Buffer) (header : List UInt8) (seq : ULONG) : Buffer :=
  { b with
    memory := overwrite (overwrite b.memory (b.prepend - header.length) header) (b.prepend - header.length + 4)
      (octetsOfWord seq)
    prepend := b.prepend - header.length }

/-- `_nx_tcp_socket_data_slice`. `owner` and `default` are the payload sizes of the pool the original comes from and of
    the one of the IP instance; `m.free` belongs to the first of them that is there. --/
def tcpSocketDataSlice (owner default : Option Nat) (original : List Nat) (seq begin bytes : ULONG) (m : Memory) :
    Except Failure Copy × Memory :=
  let first := m.buffer (original.headD 0)
  let header := headerLength (first.memory.drop first.prepend)
  if header > 60 then (.error .header, m)
  else
    let saved := (first.memory.drop first.prepend).take header
    (owner.or default).elim (.error .pool, m) fun payloadSize =>
      (packetAllocate payloadSize tcpPacket m).elim (.error .allocate, m) fun taken =>
        let offset := (BitVec.ofNat 32 header + seq - begin).toNat
        let walked := walk original offset bytes.toNat taken.1 taken.2
        walked.1.elim (.error .append, walked.2) fun copied =>
          if copied.2 ≠ 0 ∨ copied.1.packet.head.prepend < header then
            (.error .short, packetRelease copied.1 walked.2)
          else
            let packet := { copied.1.packet with
              head := pushHeader copied.1.packet.head saved seq
              length := copied.1.packet.length + header }
            (.ok ⟨copied.1.held, packet⟩,
              { walked.2 with buffer := store walked.2.buffer copied.1.held (buffers packet) })

/-! ### Buffers and their addresses -/

section
variable {buffer : Nat → Buffer} {payloadSize : Nat} {m m₀ : Memory} {copy : Copy}

theorem store_of_not_mem : ∀ {as : List Nat} {bs : List Buffer} {a : Nat}, a ∉ as → store buffer as bs a = buffer a
  | [], _, _, _ => rfl
  | _ :: _, [], _, _ => rfl
  | a' :: as, b :: bs, a, h => by
    rw [List.mem_cons, not_or] at h
    rw [store, Function.update_of_ne h.1, store_of_not_mem h.2]

theorem map_store : ∀ {as : List Nat} {bs : List Buffer}, as.Nodup → as.length = bs.length →
    as.map (store buffer as bs) = bs
  | [], [], _, _ => rfl
  | [], _ :: _, _, h => by cases h
  | _ :: _, [], _, h => by cases h
  | a :: as, b :: bs, hn, h => by
    rw [List.nodup_cons] at hn
    rw [List.map_cons, store, Function.update_self]
    congr 1
    refine Eq.trans (List.map_congr_left fun x hx => ?_) (map_store hn.2 (Nat.succ.inj h))
    exact Function.update_of_ne (by rintro rfl; exact hn.1 hx) _ _

/-- The copying keeps every buffer. --/
theorem length_fill : ∀ {r : List Buffer} {w : Buffer} {d : List UInt8},
    (fill d w r).passed.length + (fill d w r).fromLast.length = r.length + 1
  | [], _, _ => rfl
  | next :: rest, w, d => by
    rw [fill]
    split
    · exact Nat.zero_add _
    · have := length_fill (r := rest) (w := next) (d := d.drop (w.memory.length - w.append))
      dsimp only
      rw [List.length_cons, List.length_cons]
      omega

theorem length_gather : ∀ {n : Nat} {pool : List (List UInt8)} {more : List Buffer}, gather n pool = some more →
    more.length ≤ pool.length
  | 0, _, more, h => by
    rw [gather] at h
    obtain rfl : [] = more := Option.some.inj h
    exact Nat.zero_le _
  | _ + 1, [], _, h => by cases h
  | n + 1, memory :: pool, more, h => by
    rw [gather, Option.map_eq_some_iff] at h
    obtain ⟨rest, hrest, rfl⟩ := h
    exact Nat.succ_le_succ (length_gather hrest)

/-- An append links behind the chain what it takes from the pool, and no more than the pool has. --/
theorem length_dataAppend {p q : Packet} {data : List UInt8} {pool : List (List UInt8)} (h : p.WellFormed)
    (hq : dataAppend p data pool = .ok q) :
    (buffers p).length ≤ (buffers q).length ∧ (buffers q).length ≤ (buffers p).length + pool.length := by
  obtain ⟨head, middle, fromLast, length⟩ := p
  have hsingle : fromLast = [] → middle = [] := h.single
  unfold dataAppend at hq
  dsimp only at hq
  cases fromLast with
  | nil =>
    obtain rfl := hsingle rfl
    rw [if_pos List.isEmpty_nil] at hq
    cases hgather : gather (data.length - available [head]) pool with
    | none => rw [hgather] at hq; cases hq
    | some more =>
      rw [hgather] at hq
      obtain rfl := Except.ok.inj hq
      have hmore := length_gather hgather
      have hfill := length_fill (r := more) (w := head) (d := data)
      cases hcase : (fill data head more).passed with
      | nil => simp [buffers, Packet.tail]
      | cons first rest =>
        rw [hcase] at hfill
        simp only [List.length_cons] at hfill
        simp only [buffers, Packet.tail, List.isEmpty_cons, if_false, Bool.false_eq_true, List.tail_cons,
          List.length_cons, List.length_append, List.length_nil]
        omega
  | cons work rest =>
    rw [if_neg (by simp)] at hq
    cases hgather : gather (data.length - available (work :: rest)) pool with
    | none => rw [hgather] at hq; cases hq
    | some more =>
      rw [hgather] at hq
      obtain rfl := Except.ok.inj hq
      have hmore := length_gather hgather
      have hfill := length_fill (r := rest ++ more) (w := work) (d := data)
      simp only [List.length_append] at hfill
      simp only [buffers, Packet.tail, List.headD_cons, List.tail_cons, List.length_cons, List.length_append]
      omega

/-! ### The walk -/

/-- What the chain holds from `nx_packet_prepend_ptr` on. --/
def octets (m : Memory) (chain : List Nat) : List UInt8 := chain.flatMap fun a => (m.buffer a).data

/-- A copy under construction: its buffers are those that are gone from the pool, and nothing else was written. --/
structure Building (m₀ m : Memory) (copy : Copy) : Prop where
  wellFormed : copy.packet.WellFormed
  room : copy.packet.head.prepend = tcpPacket
  taken : (copy.held ++ m.free).Perm m₀.free
  stored : copy.held.map m.buffer = buffers copy.packet
  kept : ∀ a, a ∉ m₀.free → m.buffer a = m₀.buffer a

/-- What is left where there is no slice. --/
structure Restored (m₀ m : Memory) : Prop where
  free : m.free.Perm m₀.free
  kept : ∀ a, a ∉ m₀.free → m.buffer a = m₀.buffer a

theorem Building.release (h : Building m₀ m copy) : Restored m₀ (packetRelease copy m) :=
  ⟨((List.reverse_perm _).append_right _).trans h.taken, h.kept⟩

theorem Building.mem_free (h : Building m₀ m copy) {a : Nat} (ha : a ∈ copy.held ++ m.free) : a ∈ m₀.free :=
  h.taken.mem_iff.mp ha

/-- The first buffer, from a pool whose buffers are as long as it says. --/
theorem packetAllocate_spec {copy : Copy} (hsize : ∀ a ∈ m.free, (m.buffer a).memory.length = payloadSize)
    {m' : Memory} (h : packetAllocate payloadSize tcpPacket m = some (copy, m')) :
    Building m m' copy ∧ copy.packet.octets = [] := by
  obtain ⟨buffer, free⟩ := m
  unfold packetAllocate at h
  split at h
  · cases h
  cases free with
  | nil => cases h
  | cons a free =>
    obtain ⟨rfl, rfl⟩ := Prod.mk.inj (Option.some.inj h)
    have hlength := hsize a List.mem_cons_self
    have hempty : Buffer.data { buffer a with prepend := tcpPacket, append := tcpPacket } = [] := by
      simp [Buffer.data]
    have hoctets : Packet.octets ⟨{ buffer a with prepend := tcpPacket, append := tcpPacket }, [], [], 0⟩ = [] := by
      simp [Packet.octets, Packet.tail, hempty]
    refine ⟨⟨⟨⟨le_refl _, ?_⟩, fun b hb => absurd hb List.not_mem_nil, ?_, fun _ => rfl,
      fun b hb => absurd hb List.not_mem_nil⟩, rfl, List.Perm.refl _, ?_, fun x hx => ?_⟩, hoctets⟩
    · show tcpPacket ≤ (buffer a).memory.length
      simp only at hlength
      omega
    · exact (congrArg List.length hoctets).symm
    · simp [buffers, Packet.tail]
    · exact Function.update_of_ne (by rintro rfl; exact hx List.mem_cons_self) _ _

/-- An append keeps what holds of the copy, and puts the data behind what there is. --/
theorem packetDataAppend_spec {d : List UInt8} (hnodup : m₀.free.Nodup) (h : Building m₀ m copy) :
    (∀ copy', (packetDataAppend copy d m).1 = some copy' →
      Building m₀ (packetDataAppend copy d m).2 copy' ∧ copy'.packet.octets = copy.packet.octets ++ d) ∧
    ((packetDataAppend copy d m).1 = none → Restored m₀ (packetRelease copy (packetDataAppend copy d m).2)) := by
  unfold packetDataAppend
  cases hq : dataAppend copy.packet d (m.free.map fun a => (m.buffer a).memory) with
  | error e =>
    refine ⟨(fun copy' hc => by cases hc), fun _ => ⟨?_, fun a ha => ?_⟩⟩
    · exact ((List.reverse_perm _).append (List.reverse_perm _)).trans h.taken
    · exact (store_of_not_mem fun hm => ha (h.mem_free (List.mem_append_right _ hm))).trans (h.kept a ha)
  | ok q =>
    refine ⟨fun copy' hc => ?_, fun hc => by cases hc⟩
    obtain rfl := Option.some.inj hc
    obtain ⟨hwell, hoctets, -, hprepend, -, -⟩ := dataAppend_spec h.wellFormed hq
    obtain ⟨hmore, hfew⟩ := length_dataAppend h.wellFormed hq
    rw [List.length_map] at hfew
    have hheld : copy.held.length = (buffers copy.packet).length := by
      rw [← h.stored, List.length_map]
    have hperm : (copy.held ++ m.free.take ((buffers q).length - (buffers copy.packet).length) ++
        m.free.drop ((buffers q).length - (buffers copy.packet).length)).Perm m₀.free := by
      rw [List.append_assoc, List.take_append_drop]
      exact h.taken
    refine ⟨⟨hwell, hprepend.trans h.room, hperm, ?_, fun a ha => ?_⟩, hoctets⟩
    · refine map_store ((hperm.nodup_iff.mpr hnodup).of_append_left) ?_
      rw [List.length_append, List.length_take]
      omega
    · refine (store_of_not_mem fun hm => ha (hperm.mem_iff.mp (List.mem_append_left _ hm))).trans (h.kept a ha)

/-- What is copied from a buffer in one round. --/
theorem chunk_eq {b : Buffer} {o k : Nat} (hk : k ≤ b.append - b.prepend - o) :
    (b.memory.drop (b.prepend + o)).take k = (b.data.drop o).take k := by
  rw [Buffer.data, List.drop_drop, List.drop_take, List.take_take, min_eq_left (by omega)]

/-- The walk ends with the octets it was asked for behind those there were, as far as the chain has them. --/
theorem walk_spec (hnodup : m₀.free.Nodup) : ∀ {chain : List Nat} {o n : Nat} {copy : Copy} {m : Memory},
    (∀ a ∈ chain, a ∉ m₀.free ∧ (m₀.buffer a).Ordered) → Building m₀ m copy →
    (∀ last, (walk chain o n copy m).1 = some last →
      Building m₀ (walk chain o n copy m).2 last.1 ∧
        last.1.packet.octets = copy.packet.octets ++ ((octets m₀ chain).drop o).take n ∧
        last.2 = n - ((octets m₀ chain).length - o)) ∧
    ((walk chain o n copy m).1 = none → Restored m₀ (walk chain o n copy m).2)
  | [], offset, left, copy, m, _, h => by
    rw [walk]
    refine ⟨fun last hl => ?_, fun hl => by cases hl⟩
    obtain rfl := Option.some.inj hl
    exact ⟨h, by simp [octets], by simp [octets]⟩
  | source :: rest, offset, left, copy, m, hchain, h => by
    obtain ⟨hfree, hord⟩ := hchain source List.mem_cons_self
    have hrest : ∀ a ∈ rest, a ∉ m₀.free ∧ (m₀.buffer a).Ordered := fun a ha => hchain a (List.mem_cons_of_mem _ ha)
    have hlength := hord.length_data
    have hoctets : octets m₀ (source :: rest) = (m₀.buffer source).data ++ octets m₀ rest := List.flatMap_cons
    rw [walk, h.kept source hfree]
    by_cases hleft : left = 0
    · rw [if_pos hleft]
      refine ⟨fun last hl => ?_, fun hl => by cases hl⟩
      obtain rfl := Option.some.inj hl
      exact ⟨h, by simp [hleft], by simp [hleft]⟩
    rw [if_neg hleft]
    dsimp only
    by_cases hskip : offset ≥ (m₀.buffer source).append - (m₀.buffer source).prepend
    · -- The offset lies behind this buffer.
      rw [if_pos hskip]
      obtain ⟨hsome, hnone⟩ := walk_spec hnodup (o := offset - ((m₀.buffer source).append -
        (m₀.buffer source).prepend)) (n := left) hrest h
      refine ⟨fun last hl => ?_, hnone⟩
      obtain ⟨hb, ho, hr⟩ := hsome last hl
      refine ⟨hb, ?_, ?_⟩
      · have hdrop : (m₀.buffer source).data.drop offset = [] := List.drop_of_length_le (by omega)
        rw [ho, hoctets, List.drop_append, hdrop, List.nil_append, hlength]
      · rw [hr, hoctets, List.length_append]
        omega
    rw [if_neg hskip]
    obtain ⟨k, hk⟩ : ∃ k, k = if (m₀.buffer source).append - (m₀.buffer source).prepend - offset > left then left
      else (m₀.buffer source).append - (m₀.buffer source).prepend - offset := ⟨_, rfl⟩
    have hmin : k = min left ((m₀.buffer source).data.length - offset) := by
      rw [hk, hlength]
      split <;> omega
    rw [← hk, chunk_eq (by omega)]
    obtain ⟨happend, hfail⟩ := packetDataAppend_spec (d := ((m₀.buffer source).data.drop offset).take k) hnodup h
    cases hdone : (packetDataAppend copy (((m₀.buffer source).data.drop offset).take k) m).1 with
    | none => exact ⟨(fun last hl => by cases hl), fun _ => hfail hdone⟩
    | some copied =>
      obtain ⟨hb, ho⟩ := happend copied hdone
      obtain ⟨hsome, hnone⟩ := walk_spec hnodup (o := 0) (n := left - k) hrest hb
      refine ⟨fun last hl => ?_, hnone⟩
      obtain ⟨hb', ho', hr'⟩ := hsome last hl
      refine ⟨hb', ?_, ?_⟩
      · have hdrop : ((m₀.buffer source).data ++ octets m₀ rest).drop offset =
            (m₀.buffer source).data.drop offset ++ octets m₀ rest := List.drop_append_of_le_length (by omega)
        have hpiece : ((m₀.buffer source).data.drop offset).take k = ((m₀.buffer source).data.drop offset).take left :=
          by
          rw [hmin, ← List.length_drop, ← List.take_eq_take_min]
        have hgone : left - ((m₀.buffer source).data.drop offset).length = left - k := by
          rw [List.length_drop]
          omega
        rw [ho', ho, hoctets, hdrop, List.take_append, List.drop_zero, hgone, hpiece, List.append_assoc]
      · rw [hr', hoctets, List.length_append]
        omega

/-! ### The header -/

theorem length_overwrite {l d : List UInt8} {i : Nat} (h : i + d.length ≤ l.length) :
    (overwrite l i d).length = l.length := by
  rw [overwrite, List.length_append, List.length_append, List.length_take, List.length_drop]
  omega

/-- A write into what was just written is a write into the source of it. --/
theorem overwrite_overwrite {l d w : List UInt8} {i k : Nat} (hi : i + d.length ≤ l.length)
    (hk : k + w.length ≤ d.length) :
    overwrite (overwrite l i d) (i + k) w = l.take i ++ overwrite d k w ++ l.drop (i + d.length) := by
  have hlen : (l.take i).length = i := by
    rw [List.length_take]
    omega
  have htake : (overwrite l i d).take (i + k) = l.take i ++ d.take k := by
    rw [overwrite, List.append_assoc, List.take_append, hlen, List.take_take, min_eq_right (by omega),
      Nat.add_sub_cancel_left, List.take_append_of_le_length (by omega)]
  have hdrop : (overwrite l i d).drop (i + k + w.length) = d.drop (k + w.length) ++ l.drop (i + d.length) := by
    rw [overwrite, List.append_assoc, List.drop_append, hlen, List.drop_of_length_le (by omega), List.nil_append,
      show i + k + w.length - i = k + w.length by omega, List.drop_append_of_le_length hk]
  rw [overwrite, htake, hdrop]
  simp [overwrite]

theorem length_octetsOfWord {w : ULONG} : (octetsOfWord w).length = 4 := rfl

/-- The header lies in front of the data, with the number in its second word. --/
theorem pushHeader_spec {b : Buffer} {d : List UInt8} {w : ULONG} (h : b.Ordered)
    (hroom : d.length ≤ b.prepend) (hheader : 8 ≤ d.length) :
    (pushHeader b d w).Ordered ∧
      (pushHeader b d w).data = overwrite d 4 (octetsOfWord w) ++ b.data := by
  have hp := h.prepend
  have ha := h.append
  have hw : 4 + (octetsOfWord w).length ≤ d.length := by
    rw [length_octetsOfWord]
    omega
  have hmemory := overwrite_overwrite (l := b.memory) (d := d) (w := octetsOfWord w)
    (i := b.prepend - d.length) (k := 4) (by omega) hw
  have hlen : (overwrite d 4 (octetsOfWord w)).length = d.length := length_overwrite hw
  have hfront : (b.memory.take (b.prepend - d.length)).length = b.prepend - d.length := by
    rw [List.length_take]
    omega
  rw [Nat.sub_add_cancel hroom] at hmemory
  refine ⟨⟨?_, ?_⟩, ?_⟩
  · show b.prepend - d.length ≤ b.append
    omega
  · show b.append ≤ (overwrite _ _ _).length
    rw [hmemory, List.length_append, List.length_append, hlen, hfront, List.length_drop]
    omega
  · show ((overwrite _ _ _).take b.append).drop (b.prepend - d.length) = _
    rw [hmemory, List.append_assoc, List.drop_take, List.drop_append, hfront, Nat.sub_self, List.drop_zero,
      List.drop_of_length_le (by omega), List.nil_append, List.take_append, hlen,
      List.take_of_length_le (by omega), Buffer.data, List.drop_take]
    congr 2
    omega

theorem word_append {l r : List UInt8} {i : Nat} (h : l.length = i) : word (l ++ r) i = word r 0 := by
  unfold word
  rw [List.getD_append_right _ _ _ _ (by omega), List.getD_append_right _ _ _ _ (by omega),
    List.getD_append_right _ _ _ _ (by omega), List.getD_append_right _ _ _ _ (by omega)]
  subst h
  simp

theorem word_octetsOfWord (w : ULONG) (r : List UInt8) : word (octetsOfWord w ++ r) 0 = w := by
  unfold word octetsOfWord
  simp only [List.cons_append, List.nil_append, List.getD_cons_zero, List.getD_cons_succ, Nat.zero_add]
  ext i hi
  grind

/-- What is behind the second word is not written. --/
theorem headerLength_overwrite {header r : List UInt8} {seq : ULONG} (h : 16 ≤ header.length) :
    headerLength (overwrite header 4 (octetsOfWord seq) ++ r) = headerLength header := by
  have hdrop : ∀ i, 8 ≤ i → i < header.length →
      (overwrite header 4 (octetsOfWord seq) ++ r).getD i 0 = header.getD i 0 := by
    intro i hlow hhigh
    have hlen : (header.take 4 ++ octetsOfWord seq).length = 8 := by
      rw [List.length_append, List.length_take, length_octetsOfWord]
      omega
    rw [overwrite, length_octetsOfWord, List.append_assoc, List.getD_append_right _ _ _ _ (by omega), hlen,
      List.getD_append _ _ _ _ (by rw [List.length_drop]; omega)]
    simp only [List.getD_eq_getElem?_getD, List.getElem?_drop]
    congr 2
    omega
  unfold headerLength word
  rw [hdrop 12 (by omega) (by omega), hdrop 13 (by omega) (by omega), hdrop 14 (by omega) (by omega),
    hdrop 15 (by omega) (by omega)]

theorem headerLength_take {d : List UInt8} {n : Nat} (h : 16 ≤ n) : headerLength (d.take n) = headerLength d := by
  have hget : ∀ i, i < n → (d.take n).getD i 0 = d.getD i 0 := fun i hi => by
    rw [List.getD_eq_getElem?_getD, List.getElem?_take_of_lt hi, ← List.getD_eq_getElem?_getD]
  unfold headerLength word
  rw [hget 12 (by omega), hget 13 (by omega), hget 14 (by omega), hget 15 (by omega)]

theorem headerLength_le (d : List UInt8) : headerLength d ≤ 60 := by
  unfold headerLength
  rw [BitVec.toNat_ushiftRight, Nat.shiftRight_eq_div_pow]
  have := (word d 12).isLt
  omega

/-! ### Slices -/

/-- A segment of the transmit queue: its buffers are in order and not in the pool, its header, of five words at least,
    is in the first of them, and its length fits the field for it. --/
structure Segment (m : Memory) (original : List Nat) : Prop where
  ordered : ∀ a ∈ original, a ∉ m.free ∧ (m.buffer a).Ordered
  header : 20 ≤ headerLength (octets m original)
  first : headerLength (octets m original) ≤ (m.buffer (original.headD 0)).data.length
  length : (octets m original).length < 2 ^ 32

/-- The free buffers of a pool are different ones, of the size it was created for. --/
structure Pool (m : Memory) (payloadSize : Nat) : Prop where
  nodup : m.free.Nodup
  size : ∀ a ∈ m.free, (m.buffer a).memory.length = payloadSize

/-- The header as it is read at the first buffer. --/
theorem Segment.take {original : List Nat} (h : Segment m original) {n : Nat}
    (hn : n ≤ (m.buffer (original.headD 0)).data.length) :
    ((m.buffer (original.headD 0)).memory.drop (m.buffer (original.headD 0)).prepend).take n =
      (octets m original).take n := by
  cases original with
  | nil =>
    have hzero : headerLength (octets m []) = 0 := (by decide : headerLength [] = 0)
    have := h.header
    omega
  | cons a rest =>
    have hdata := chunk_eq (b := m.buffer a) (o := 0) (k := n)
      (by rw [← (h.ordered a List.mem_cons_self).2.length_data]; exact hn)
    rw [List.drop_zero] at hdata
    simp only [List.headD_cons] at hn ⊢
    rw [show octets m (a :: rest) = (m.buffer a).data ++ octets m rest from List.flatMap_cons,
      List.take_append_of_le_length hn, ← hdata]
    rfl

theorem Segment.headerLength_first {original : List Nat} (h : Segment m original) :
    headerLength ((m.buffer (original.headD 0)).memory.drop (m.buffer (original.headD 0)).prepend) =
      headerLength (octets m original) := by
  have hfive := h.header
  rw [← headerLength_take (n := 20) (by omega), h.take (hfive.trans h.first), headerLength_take (by omega)]

/-- The two offsets of a range, that of its number and that of the header. --/
theorem offset_toNat {header : Nat} {seq begin : ULONG} (h : header + (seq - begin).toNat < 2 ^ 32) :
    (BitVec.ofNat 32 header + seq - begin).toNat = header + (seq - begin).toNat := by
  bv_omega

/-- What is promised of a slice: the octets asked for behind the header of the original, with its own number; its
    buffers lie where they were taken from the pool, and no others were written. --/
structure Slices (m : Memory) (original : List Nat) (seq begin bytes : ULONG) (copy : Copy) (m' : Memory) : Prop where
  header : copy.packet.octets.take (headerLength (octets m original)) =
    overwrite ((octets m original).take (headerLength (octets m original))) 4 (octetsOfWord seq)
  headerLength : headerLength copy.packet.octets = headerLength (octets m original)
  sequence : word copy.packet.octets 4 = seq
  payload : copy.packet.octets.drop (Slice.headerLength copy.packet.octets) =
    (((octets m original).drop (Slice.headerLength (octets m original))).drop (seq - begin).toNat).take bytes.toNat
  length : copy.packet.length = Slice.headerLength (octets m original) + bytes.toNat
  wellFormed : copy.packet.WellFormed
  stored : octets m' copy.held = copy.packet.octets
  taken : (copy.held ++ m'.free).Perm m.free
  kept : ∀ a, a ∉ m.free → m'.buffer a = m.buffer a
  original : octets m' original = octets m original

/-- The header goes in front of the octets that were copied. --/
theorem slices_of_building {original : List Nat} {seq begin bytes : ULONG} {m m₁ : Memory} {copy : Copy}
    (h : Segment m original) (hnodup : m.free.Nodup) (hbuilt : Building m m₁ copy)
    (hoctets : copy.packet.octets = ((octets m original).drop (headerLength (octets m original) +
      (seq - begin).toNat)).take bytes.toNat)
    (hrange : headerLength (octets m original) + (seq - begin).toNat + bytes.toNat ≤ (octets m original).length) :
    let packet := { copy.packet with
      head := pushHeader copy.packet.head ((octets m original).take (headerLength (octets m original))) seq
      length := copy.packet.length + headerLength (octets m original) }
    Slices m original seq begin bytes ⟨copy.held, packet⟩
      { m₁ with buffer := store m₁.buffer copy.held (buffers packet) } := by
  intro packet
  obtain ⟨n, hn⟩ : ∃ n, n = headerLength (octets m original) := ⟨_, rfl⟩
  have hsmall := headerLength_le (octets m original)
  have hfive := h.header
  obtain ⟨saved, hsaved⟩ : ∃ saved, saved = (octets m original).take n := ⟨_, rfl⟩
  have hlen : saved.length = n := by
    rw [hsaved, List.length_take]
    omega
  have hroom := hbuilt.room
  unfold tcpPacket at hroom
  obtain ⟨hord, hdata⟩ := pushHeader_spec (w := seq) (d := saved) hbuilt.wellFormed.head (by omega) (by omega)
  have hwritten : (overwrite saved 4 (octetsOfWord seq)).length = n := by
    rw [length_overwrite (by rw [length_octetsOfWord]; omega), hlen]
  have hpacket : packet.octets = overwrite saved 4 (octetsOfWord seq) ++ copy.packet.octets := by
    show (pushHeader copy.packet.head ((octets m original).take (headerLength (octets m original))) seq).data ++ _ = _
    rw [← hn, ← hsaved, hdata, List.append_assoc]
    rfl
  have hheader : headerLength packet.octets = n := by
    rw [hpacket, headerLength_overwrite (by omega), hsaved, headerLength_take (by omega), hn]
  have hcount : (copy.packet.octets).length = bytes.toNat := by
    rw [hoctets, List.length_take, List.length_drop]
    omega
  have hlength : packet.length = n + bytes.toNat := by
    show copy.packet.length + headerLength (octets m original) = _
    rw [hbuilt.wellFormed.length, hcount, ← hn, Nat.add_comm]
  have hheld : copy.held.length = (buffers packet).length := by
    have hold : copy.held.length = (buffers copy.packet).length := by rw [← hbuilt.stored, List.length_map]
    exact hold
  have hdistinct : copy.held.Nodup := (hbuilt.taken.nodup_iff.mpr hnodup).of_append_left
  have hkept : ∀ a, a ∉ m.free → store m₁.buffer copy.held (buffers packet) a = m.buffer a := fun a ha =>
    (store_of_not_mem fun hm => ha (hbuilt.mem_free (List.mem_append_left _ hm))).trans (hbuilt.kept a ha)
  refine ⟨?_, hheader.trans hn, ?_, ?_, by rw [← hn]; exact hlength, ?_, ?_, hbuilt.taken, hkept, ?_⟩
  · rw [← hn, ← hsaved, hpacket, List.take_left' hwritten]
  · rw [hpacket, overwrite, List.append_assoc, List.append_assoc, word_append (by rw [List.length_take]; omega),
      word_octetsOfWord]
  · rw [hheader, hpacket, List.drop_left' hwritten, hoctets, ← hn, List.drop_drop]
  · refine ⟨?_, hbuilt.wellFormed.tail, ?_, hbuilt.wellFormed.single, hbuilt.wellFormed.behind⟩
    · show (pushHeader copy.packet.head ((octets m original).take (headerLength (octets m original))) seq).Ordered
      rw [← hn, ← hsaved]
      exact hord
    · rw [hlength, hpacket, List.length_append, hwritten, hcount]
  · have hmap : copy.held.map (store m₁.buffer copy.held (buffers packet)) = buffers packet :=
      map_store hdistinct hheld
    show copy.held.flatMap (fun a => (store m₁.buffer copy.held (buffers packet) a).data) = packet.octets
    rw [← List.flatMap_map (f := store m₁.buffer copy.held (buffers packet)) (g := Buffer.data), hmap]
    rfl
  · exact List.flatMap_congr fun a ha => by
      show (store m₁.buffer copy.held (buffers packet) a).data = _
      rw [hkept a (h.ordered a ha).1]

/-- A header of five words with four octets behind it, and two free buffers. --/
def smallMemory : Memory :=
  ⟨fun a => if a = 0 then ⟨List.replicate 12 0 ++ 0x50 :: List.replicate 7 0 ++ [6, 7, 8, 9], 0, 24⟩
    else ⟨List.replicate 80 0, 0, 0⟩, [1, 2]⟩

example : ((tcpSocketDataSlice (some 80) none [0] 101 100 2 smallMemory).1.toOption.map fun copy =>
    copy.packet.octets.drop 20) = some [7, 8] := by decide +kernel

end

end Netxduo.Packets.Offsets.Slice
