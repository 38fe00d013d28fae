import Netxduo.Tcp.Frame
import Netxduo.Tcp.ReceiveQueue

/-! What the receive path keeps of a socket (`Receiving`), and what it makes of it (`Progress`): packets
    become ready in the order of the stream, and are handed out in that order. -/

namespace Netxduo
open Serial Spans

/-! ### Cuts -/

/-- `q` holds octets of `p`, from the first one on and at the place they have in `p`. --/
structure Packet.Cut (q p : Packet) : Prop where
  header : q.header = p.header
  octets : q.octets <+: p.octets

theorem Packet.Cut.refl (p : Packet) : p.Cut p := ⟨rfl, List.prefix_refl _⟩

theorem Packet.Cut.trans {p q o : Packet} (h : q.Cut p) (h' : o.Cut q) : o.Cut p :=
  ⟨h'.header.trans h.header, h'.octets.trans h.octets⟩

theorem Packet.Piece.cut {q p : Packet} (h : q.Piece p) : q.Cut p := ⟨h.header, h.octets⟩

/-! ### The invariant -/

/-- The receive half of a socket whose contiguous data ends at `d`: the queue is linked as the pointers
    and the count say, the packets marked ready come first and end at `d`, and the others stand behind a
    gap, inside the window. --/
structure Receiving (ip : Ip) (d : ULONG) (r : Receive) (ready pending : List Packet) : Prop
    extends Linked r where
  queue : r.receiveQueue = ready ++ pending
  content : Content d ready pending r.rxWindowCurrent.toNat r.rxWindowDefault.toNat
  room : ip.build.lowWatermark = true → r.receiveQueue.length ≤ r.receiveQueueMaximum.toNat

theorem Receiving.sameQueue {ip : Ip} {d : ULONG} {r r' : Receive} {ready pending : List Packet}
    (h : Receiving ip d r ready pending) (hs : SameQueue r r') : Receiving ip d r' ready pending := by
  refine ⟨h.toLinked.of_addrs (by rw [hs.queue]) hs.count hs.head hs.tail, hs.queue.trans h.queue, ?_, ?_⟩
  · rw [hs.rxWindowCurrent, hs.rxWindowDefault]
    exact h.content
  · rw [hs.queue, hs.maximum]
    exact h.room

/-! ### Progress -/

/-- What no step of the receive path changes. --/
structure Keeps (s t : Socket) : Prop where
  state : t.state = s.state
  clientType : t.clientType = s.clientType
  connectMss : t.connectMss = s.connectMss
  sackPermitted : t.sackPermitted = s.sackPermitted
  snd : t.snd = s.snd
  sack : t.sack = s.sack
  rxWindowDefault : t.rcv.rxWindowDefault = s.rcv.rxWindowDefault
  finSequence : t.rcv.finSequence = s.rcv.finSequence
  finReceived : t.rcv.finReceived = s.rcv.finReceived
  maximum : t.rcv.receiveQueueMaximum = s.rcv.receiveQueueMaximum

theorem Keeps.refl (s : Socket) : Keeps s s := ⟨rfl, rfl, rfl, rfl, rfl, rfl, rfl, rfl, rfl, rfl⟩

theorem Keeps.trans {s t u : Socket} (h : Keeps s t) (h' : Keeps t u) : Keeps s u :=
  ⟨h'.state.trans h.state, h'.clientType.trans h.clientType, h'.connectMss.trans h.connectMss,
    h'.sackPermitted.trans h.sackPermitted, h'.snd.trans h.snd, h'.sack.trans h.sack,
    h'.rxWindowDefault.trans h.rxWindowDefault, h'.finSequence.trans h.finSequence,
    h'.finReceived.trans h.finReceived, h'.maximum.trans h.maximum⟩

theorem AckOnly.keeps {s t : Socket} (h : AckOnly s t) : Keeps s t :=
  ⟨h.state, h.clientType, h.connectMss, h.sackPermitted, h.snd, h.sack, h.rcv.rxWindowDefault,
    h.rcv.finSequence, h.rcv.finReceived, h.rcv.maximum⟩

/-- From `s` to `t` the packets `front` join the ready ones and `out` are handed out. Whatever is held
    comes from the packets held before and from the `arrived` ones. --/
structure Moved (arrived : List Packet) (s : Socket) (ready pending : List Packet) (t : Socket)
    (ready' pending' out front : List Packet) : Prop where
  handed : t.handed = s.handed ++ out
  ready : out ++ ready' = ready ++ front.map Packet.markReady
  rxSequence : t.rcv.rxSequence = s.rcv.rxSequence + BitVec.ofNat 32 (octetsOf front).length
  tiles : Tiles 0 (spans s.rcv.rxSequence front) (octetsOf front).length
  bounded : (octetsOf front).length < 2 ^ 30
  cut : ∀ q ∈ front ++ pending', ∃ p ∈ arrived ++ pending, q.Cut p
  wire : ∃ sent, t.wire = s.wire ++ sent ∧ ∀ g ∈ sent, ∃ n ≤ (octetsOf front).length,
    g.acknowledgmentNumber = s.rcv.rxSequence + BitVec.ofNat 32 n

/-- A socket on its way through the receive path. --/
structure Progress (arrived front : List Packet) (s : Socket) (ready pending : List Packet) (t : Socket)
    (ready' pending' : List Packet) : Prop extends Keeps s t where
  moved : ∃ out, Moved arrived s ready pending t ready' pending' out front

section
variable {arrived arrived' front : List Packet} {s t u : Socket}
  {ready pending ready' pending' ready'' pending'' : List Packet}

theorem AckOnly.progress (h : AckOnly s t) (arrived : List Packet) :
    Progress arrived [] s ready pending t ready pending := by
  obtain ⟨sent, hw, hack⟩ := h.wire
  refine ⟨h.keeps, [], ⟨by rw [h.handed, List.append_nil], by simp, by simp [h.rcv.rxSequence], rfl, by simp, ?_, sent, hw, ?_⟩⟩
  · intro q hq
    exact ⟨q, List.mem_append_right _ hq, .refl q⟩
  · intro g hg
    exact ⟨0, Nat.le_refl _, by simp [hack g hg]⟩

/-- What follows moves no packet forward. --/
theorem Progress.trans (h : Progress arrived front s ready pending t ready' pending')
    (h' : Progress arrived' [] t ready' pending' u ready'' pending'') (hsub : arrived' ⊆ arrived) :
    Progress arrived front s ready pending u ready'' pending'' := by
  obtain ⟨out, hh, hr, hx, ht, hb, hc, sent, hw, hack⟩ := h.moved
  obtain ⟨out', hh', hr', hx', -, -, hc', sent', hw', hack'⟩ := h'.moved
  refine ⟨h.toKeeps.trans h'.toKeeps, out ++ out', ⟨?_, ?_, ?_, ht, hb, ?_, sent ++ sent', ?_, ?_⟩⟩
  · rw [hh', hh, List.append_assoc]
  · rw [List.append_assoc, hr', List.map_nil, List.append_nil, hr]
  · rw [hx', hx]
    simp
  · intro q hq
    rcases List.mem_append.mp hq with hq | hq
    · exact hc q (List.mem_append_left _ hq)
    · obtain ⟨p, hp, hqp⟩ := hc' q hq
      rcases List.mem_append.mp hp with hp | hp
      · exact ⟨p, List.mem_append_left _ (hsub hp), hqp⟩
      · obtain ⟨o, ho, hpo⟩ := hc p (List.mem_append_right _ hp)
        exact ⟨o, ho, hpo.trans hqp⟩
  · rw [hw', hw, List.append_assoc]
  · intro g hg
    rcases List.mem_append.mp hg with hg | hg
    · exact hack g hg
    · obtain ⟨n, hn, heq⟩ := hack' g hg
      refine ⟨(octetsOf front).length, Nat.le_refl _, ?_⟩
      rw [octetsOf_nil, List.length_nil, Nat.le_zero] at hn
      rw [heq, hx, hn]
      simp

/-- What went before acknowledged at most. --/
theorem AckOnly.trans_progress (h : AckOnly s t) (h' : Progress arrived front t ready pending u ready' pending') :
    Progress arrived front s ready pending u ready' pending' := by
  obtain ⟨sent, hw, hack⟩ := h.wire
  obtain ⟨out, hh, hr, hx, ht, hb, hc, sent', hw', hack'⟩ := h'.moved
  rw [h.rcv.rxSequence] at hx ht hack'
  refine ⟨h.keeps.trans h'.toKeeps, out, ⟨by rw [hh, h.handed], hr, hx, ht, hb, hc, sent ++ sent', ?_, ?_⟩⟩
  · rw [hw', hw, List.append_assoc]
  · intro g hg
    rcases List.mem_append.mp hg with hg | hg
    · exact ⟨0, Nat.zero_le _, by simp [hack g hg]⟩
    · exact hack' g hg

end

end Netxduo
