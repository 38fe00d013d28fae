import Mathlib.Data.List.Basic
import Netxduo.Library.LinkedLists
import Netxduo.Library.Runs
import Netxduo.Packets.Suspension

/-! A UDP socket as its receivers see it: datagrams that are queued, threads that wait for one, errors that ICMP
    messages report. Datagrams leave in the order they arrived in, and no thread waits while there is something to
    tell it. -/

namespace Netxduo.Udp

open LinkedLists Rings Suspension Runs

/-! ### The source -/

inductive Status
  | success
  | notBound
  | noPacket
  | socketUnbound
  | icmp (code : Nat)
  deriving DecidableEq, Repr

/-- Where a thread is in `_nx_udp_socket_receive`: it returned, it is at the head of the loop, it is suspended, or it
    was resumed and has not run yet. --/
inductive Place
  | returned (status : Status)
  | looping (waitOption : Bool)
  | suspended (waitOption : Bool)
  | resumed (waitOption : Bool)
  | terminated
  deriving DecidableEq

/-- What a thread has to do with the socket; `packet` is what its return pointer points to. --/
structure Thread where
  place : Place
  suspendCleanup : Bool
  packet : Option Nat
  suspendStatus : Status
  deriving DecidableEq

/-- `NX_UDP_SOCKET`, with the packets and the threads. --/
structure Socket where
  bound : Bool
  icmpError : Option Nat
  queueMaximum : Nat
  receiveHead : Option Nat
  receiveTail : Option Nat
  receiveCount : Nat
  queueNext : Nat → Option Nat
  suspension : SuspensionList
  thread : Nat → Thread

/-- What becomes of a datagram at the socket. --/
inductive Event
  | arrived (a : Nat)
  | taken (t a : Nat)
  | dropped (a : Nat)
  | flushed (a : Nat)

/-- A suspended thread is resumed with a status. --/
def Thread.wake (status : Status) (packet : Option Nat) (thread : Thread) : Thread where
  place := match thread.place with
    | .suspended waitOption => .resumed waitOption
    | place => place
  suspendCleanup := false
  packet := packet
  suspendStatus := status

def Socket.setThread (t : Nat) (thread : Thread) (s : Socket) : Socket :=
  { s with thread := Function.update s.thread t thread }

/-- The end of `_nx_udp_packet_receive`, for the socket that a datagram is for. --/
def Socket.packetReceive (a : Nat) (s : Socket) : Socket × List Event :=
  match s.suspension.head with
  | some t =>
    (({ s with suspension := s.suspension.remove t }).setThread t ((s.thread t).wake .success (some a)),
      [.arrived a, .taken t a])
  | none =>
    match s.receiveHead with
    | some h =>
      let queueNext := Function.update
        (s.receiveTail.elim s.queueNext fun z => Function.update s.queueNext z (some a)) a none
      if s.queueMaximum < s.receiveCount + 1 then
        ({ s with receiveTail := some a, queueNext := queueNext, receiveHead := queueNext h },
          [.arrived a, .dropped h])
      else
        ({ s with receiveTail := some a, queueNext := queueNext, receiveCount := s.receiveCount + 1 }, [.arrived a])
    | none =>
      ({ s with
          receiveHead := some a
          receiveTail := some a
          queueNext := Function.update s.queueNext a none
          receiveCount := s.receiveCount + 1 }, [.arrived a])

/-- Whether the checksum of a datagram, where it is checked, is right. A datagram that fails is released, and the
    thread goes round the loop again. --/
def afterChecksum (valid : Nat → Bool) (waitOption : Bool) (a : Nat) : Place :=
  if valid a then .returned .success else .looping waitOption

/-- A round of the loop of `_nx_udp_socket_receive`. --/
def Socket.receiveRound (valid : Nat → Bool) (t : Nat) (waitOption : Bool) (s : Socket) : Socket × List Event :=
  if !s.bound then (s.setThread t { s.thread t with place := .returned .notBound }, [])
  else match s.icmpError with
  | some code =>
    (({ s with icmpError := none }).setThread t { s.thread t with place := .returned (.icmp code) }, [])
  | none =>
    match s.receiveHead with
    | some a =>
      (({ s with
          receiveHead := s.queueNext a
          receiveTail := if s.queueNext a = none then none else s.receiveTail
          receiveCount := s.receiveCount - 1 }).setThread t
        { s.thread t with packet := some a, place := afterChecksum valid waitOption a }, [.taken t a])
    | none =>
      if waitOption then
        (({ s with suspension := s.suspension.suspend t }).setThread t
          { s.thread t with place := .suspended waitOption, suspendCleanup := true }, [])
      else (s.setThread t { s.thread t with packet := none, place := .returned .noPacket }, [])

/-- A thread that was resumed goes on in `_nx_udp_socket_receive`. --/
def Socket.receiveResumed (valid : Nat → Bool) (t : Nat) (s : Socket) : Socket :=
  match (s.thread t).place, (s.thread t).suspendStatus, (s.thread t).packet with
  | .resumed waitOption, .success, some a =>
    s.setThread t { s.thread t with place := afterChecksum valid waitOption a }
  | .resumed _, status, _ => s.setThread t { s.thread t with place := .returned status }
  | _, _, _ => s

/-- `_nx_udp_receive_cleanup`. The list goes on from the thread behind the one that leaves, whichever that is. --/
def Socket.receiveCleanup (t : Nat) (s : Socket) : Socket :=
  if (s.thread t).suspendCleanup then
    ({ s with suspension :=
        if t = s.suspension.next t then { s.suspension with head := none, count := s.suspension.count - 1 }
        else { s.suspension with
          head := some (s.suspension.next t)
          previous := Function.update s.suspension.previous (s.suspension.next t) (s.suspension.previous t)
          next := Function.update s.suspension.next (s.suspension.previous t) (s.suspension.next t)
          count := s.suspension.count - 1 } }).setThread t
      (match (s.thread t).place with
      | .suspended _ => (s.thread t).wake .noPacket (s.thread t).packet
      | _ => { s.thread t with suspendCleanup := false })
  else s

/-- `_nx_udp_socket_icmp_error_process`, for the socket that owns the error. --/
def Socket.icmpErrorProcess (code : Nat) (s : Socket) : Socket :=
  if s.suspension.count ≠ 0 then
    match s.suspension.head with
    | some t =>
      ({ s with suspension := s.suspension.remove t, icmpError := none }).setThread t
        ((s.thread t).wake (.icmp code) (s.thread t).packet)
    | none => { s with icmpError := some code }
  else { s with icmpError := some code }

/-- The packets that `_nx_udp_socket_unbind` releases. --/
def Socket.flushQueue : Nat → Option Nat → Socket → List Event
  | 0, _, _ => []
  | _ + 1, none, _ => []
  | count + 1, some a, s => .flushed a :: flushQueue count (s.queueNext a) s

/-- The threads that `_nx_udp_socket_unbind` resumes. --/
def Socket.resumeAll : Nat → Nat → Socket → Socket
  | 0, _, s => s
  | count + 1, t, s =>
    let s := s.setThread t { s.thread t with suspendCleanup := false, suspendStatus := .socketUnbound }
    let u := s.suspension.previous (s.suspension.next t)
    resumeAll count (s.suspension.next t)
      (s.setThread u ((s.thread u).wake (s.thread u).suspendStatus (s.thread u).packet))

/-- What `_nx_udp_socket_unbind` does to the socket. --/
def Socket.unbind (s : Socket) : Socket × List Event :=
  let s := { s with bound := false, icmpError := none }
  if s.receiveCount ≠ 0 then
    ({ s with receiveHead := none, receiveTail := none, receiveCount := 0 },
      s.flushQueue s.receiveCount s.receiveHead)
  else if s.suspension.count ≠ 0 then
    match s.suspension.head with
    | some t =>
      let s' := s.resumeAll s.suspension.count t
      ({ s' with suspension := { s'.suspension with head := none, count := 0 } }, [])
    | none => (s, [])
  else (s, [])

/-- What `_nx_udp_socket_create` sets up. --/
def Socket.create (queueMaximum : Nat) (queueNext : Nat → Option Nat) (next previous : Nat → Nat) : Socket where
  bound := false
  icmpError := none
  queueMaximum := queueMaximum
  receiveHead := none
  receiveTail := none
  receiveCount := 0
  queueNext := queueNext
  suspension := ⟨none, 0, next, previous⟩
  thread := fun _ => ⟨.returned .success, false, none, .success⟩

/-! ### Runs -/

/-- What happens to the socket: a datagram arrives, a thread calls, runs a round or goes on, a wait is ended from
    outside, an error is reported. --/
inductive Action
  | bind
  | unbind
  | arrive (a : Nat)
  | receive (t : Nat) (waitOption : Bool)
  | round (t : Nat)
  | proceed (t : Nat)
  | cleanup (t : Nat)
  | terminate (t : Nat)
  | icmpError (code : Nat)

variable (valid : Nat → Bool)

def Socket.perform (s : Socket) : Action → Socket × List Event
  | .bind => ({ s with bound := true }, [])
  | .unbind => s.unbind
  | .arrive a => s.packetReceive a
  | .receive t waitOption => (s.setThread t { s.thread t with packet := none, place := .looping waitOption }, [])
  | .round t =>
    match (s.thread t).place with
    | .looping waitOption => s.receiveRound valid t waitOption
    | _ => (s, [])
  | .proceed t => (s.receiveResumed valid t, [])
  | .cleanup t => (s.receiveCleanup t, [])
  | .terminate t => ((s.setThread t { s.thread t with place := .terminated }).receiveCleanup t, [])
  | .icmpError code => (s.icmpErrorProcess code, [])

/-- The socket, and what became of the datagrams so far. --/
abbrev History := Socket × List Event

def step (h : History) (action : Action) : History :=
  ((h.1.perform valid action).1, h.2 ++ (h.1.perform valid action).2)

/-- A datagram is delivered to a socket that is bound, and is not one that is still queued; so is an error. A thread
    that calls has returned from the call before. --/
def Allowed (h : History) : Action → Prop
  | .arrive a => h.1.bound = true ∧ ∀ queue, Chain h.1.queueNext h.1.receiveHead queue → a ∉ queue
  | .receive t _ => ∃ status, (h.1.thread t).place = .returned status
  | .icmpError _ => h.1.bound = true
  | _ => True

/-! ### Who waits -/

section
variable {thread : Nat → Thread} {waiters waiters' : List Nat} {t : Nat} {new : Thread}

/-- The threads whose cleanup routine is set, and those that are suspended, are these. --/
def Waiting (thread : Nat → Thread) (waiters : List Nat) : Prop :=
  ∀ u, (u ∈ waiters ↔ (thread u).suspendCleanup = true) ∧
    (u ∈ waiters ↔ ∃ waitOption, (thread u).place = .suspended waitOption)

theorem Waiting.join (h : Waiting thread waiters) {waitOption : Bool} (hcleanup : new.suspendCleanup = true)
    (hplace : new.place = .suspended waitOption) : Waiting (Function.update thread t new) (waiters ++ [t]) := by
  intro u
  rcases eq_or_ne u t with rfl | hu
  · simp [hcleanup, hplace]
  · rw [Function.update_of_ne hu, List.mem_append, or_iff_left (by simpa using hu)]
    exact h u

/-- A thread that does not wait any more, or did not. --/
theorem Waiting.leave (h : Waiting thread waiters) (hleave : ∀ u, u ∈ waiters' ↔ u ∈ waiters ∧ u ≠ t)
    (hcleanup : new.suspendCleanup = false) (hplace : ∀ waitOption, new.place ≠ .suspended waitOption) :
    Waiting (Function.update thread t new) waiters' := by
  intro u
  rcases eq_or_ne u t with rfl | hu
  · simp [hcleanup, hplace, hleave]
  · rw [Function.update_of_ne hu, hleave, and_iff_left hu]
    exact h u

theorem Waiting.same (h : Waiting thread waiters) (ht : t ∉ waiters) (hcleanup : new.suspendCleanup = false)
    (hplace : ∀ waitOption, new.place ≠ .suspended waitOption) : Waiting (Function.update thread t new) waiters :=
  h.leave (fun _ => ⟨fun hmem => ⟨hmem, by rintro rfl; exact ht hmem⟩, And.left⟩) hcleanup hplace

theorem Waiting.cleanup_false (h : Waiting thread waiters) (ht : t ∉ waiters) : (thread t).suspendCleanup = false := by
  simpa [ht] using (h t).1

theorem Waiting.not_mem (h : Waiting thread waiters) (hplace : ∀ waitOption, (thread t).place ≠ .suspended waitOption) :
    t ∉ waiters := by
  rw [(h t).2]
  exact fun ⟨waitOption, hw⟩ => hplace waitOption hw

/-- A thread that waited has gone on. --/
theorem Waiting.wake_place (h : Waiting thread waiters) (ht : t ∈ waiters) (status : Status) (packet : Option Nat) :
    ∃ waitOption, ((thread t).wake status packet).place = .resumed waitOption := by
  obtain ⟨waitOption, hplace⟩ := (h t).2.mp ht
  exact ⟨waitOption, by simp [Thread.wake, hplace]⟩

end

theorem Thread.wake_ne_suspended (thread : Thread) (status : Status) (packet : Option Nat) (waitOption : Bool) :
    (thread.wake status packet).place ≠ .suspended waitOption := by
  unfold Thread.wake
  cases thread.place <;> simp

theorem afterChecksum_ne_suspended (waitOption waitOption' : Bool) (a : Nat) :
    afterChecksum valid waitOption a ≠ .suspended waitOption' := by
  unfold afterChecksum
  split <;> simp

/-! ### What is kept -/

/-- The queue is linked from its head to its tail, is counted, and is not longer than it may be; the threads that wait
    are on the suspension list; none of them waits where a datagram is queued or an error is not reported; and a
    socket that is not bound has none of all this. --/
structure Invariant (s : Socket) (queue waiters : List Nat) : Prop where
  chain : Chain s.queueNext s.receiveHead queue
  tail : s.receiveTail = queue.getLast?
  nodup : queue.Nodup
  count : s.receiveCount = queue.length
  length_le : queue.length ≤ max 1 s.queueMaximum
  waits : s.suspension.Waits waiters
  waiting : Waiting s.thread waiters
  idle : waiters = [] ∨ queue = [] ∧ s.icmpError = none
  unbound : s.bound = false → queue = [] ∧ waiters = [] ∧ s.icmpError = none

def Event.arrival : Event → Option Nat
  | .arrived a => some a
  | _ => none

def Event.leaving : Event → Option Nat
  | .arrived _ => none
  | .taken _ a | .dropped a | .flushed a => some a

/-- What leaves the queue leaves at the front, what arrives is put in at the back. --/
def InOrder (queue : List Nat) (events : List Event) (queue' : List Nat) : Prop :=
  queue ++ events.filterMap Event.arrival = events.filterMap Event.leaving ++ queue'

theorem InOrder.nil (queue : List Nat) : InOrder queue [] queue := List.append_nil queue

section
variable {s : Socket} {queue waiters : List Nat} {t : Nat} {new : Thread}

/-- A thread that does not wait goes somewhere else. --/
theorem Invariant.setThread (h : Invariant s queue waiters) (ht : t ∉ waiters) (hcleanup : new.suspendCleanup = false)
    (hplace : ∀ waitOption, new.place ≠ .suspended waitOption) : Invariant (s.setThread t new) queue waiters where
  chain := h.chain
  tail := h.tail
  nodup := h.nodup
  count := h.count
  length_le := h.length_le
  waits := h.waits
  waiting := h.waiting.same ht hcleanup hplace
  idle := h.idle
  unbound := h.unbound

theorem Invariant.mem_tail (h : Invariant s queue (t :: waiters)) (u : Nat) : u ∈ waiters ↔ u ∈ t :: waiters ∧ u ≠ t :=
    by
  have hnot := (List.nodup_cons.mp h.waits.nodup).1
  refine ⟨fun hmem => ⟨List.mem_cons_of_mem _ hmem, by rintro rfl; exact hnot hmem⟩, fun ⟨hmem, hne⟩ => ?_⟩
  exact (List.mem_cons.mp hmem).resolve_left hne

/-! ### Datagrams -/

/-- The queue after a datagram was put in. --/
def enqueue (queueMaximum a : Nat) (queue : List Nat) : List Nat :=
  if queue ≠ [] ∧ queueMaximum ≤ queue.length then queue.tail ++ [a] else queue ++ [a]

theorem packetReceive_waiters {a : Nat} (h : Invariant s queue (t :: waiters)) :
    s.packetReceive a =
      (({ s with suspension := s.suspension.remove t }).setThread t ((s.thread t).wake .success (some a)),
        [.arrived a, .taken t a]) ∧
      Invariant (s.packetReceive a).1 queue waiters ∧ queue = [] := by
  have hidle := h.idle.resolve_left (by simp)
  have heq : s.packetReceive a =
      (({ s with suspension := s.suspension.remove t }).setThread t ((s.thread t).wake .success (some a)),
        [.arrived a, .taken t a]) := by
    rw [Socket.packetReceive, h.waits.head]
    rfl
  refine ⟨heq, ?_, hidle.1⟩
  rw [heq]
  exact {
    chain := h.chain
    tail := h.tail
    nodup := h.nodup
    count := h.count
    length_le := h.length_le
    waits := SuspensionList.Waits.remove_first h.waits
    waiting := h.waiting.leave h.mem_tail rfl (Thread.wake_ne_suspended _ _ _)
    idle := .inr hidle
    unbound := fun hbound => by cases (h.unbound hbound).2.1 }

theorem packetReceive_queue {a : Nat} (h : Invariant s queue []) (hbound : s.bound = true) (ha : a ∉ queue) :
    Invariant (s.packetReceive a).1 (enqueue s.queueMaximum a queue) [] ∧
      InOrder queue (s.packetReceive a).2 (enqueue s.queueMaximum a queue) := by
  have hnone : s.suspension.head = none := h.waits.head
  rcases List.eq_nil_or_concat queue with rfl | ⟨front, z, hqueue⟩
  · have hhead : s.receiveHead = none := h.chain
    have heq : s.packetReceive a = ({ s with
        receiveHead := some a
        receiveTail := some a
        queueNext := Function.update s.queueNext a none
        receiveCount := s.receiveCount + 1 }, [.arrived a]) := by
      rw [Socket.packetReceive, hnone, hhead]
    rw [heq]
    refine ⟨?_, rfl⟩
    exact {
      chain := ⟨rfl, Function.update_self ..⟩
      tail := rfl
      nodup := List.nodup_singleton a
      count := by rw [h.count]; rfl
      length_le := Nat.le_max_left ..
      waits := h.waits
      waiting := h.waiting
      idle := .inl rfl
      unbound := fun hb => by cases hbound.symm.trans hb }
  · rw [List.concat_eq_append] at hqueue
    obtain ⟨x, rest, hcons⟩ : ∃ x rest, queue = x :: rest := by
      cases queue with
      | nil => simp at hqueue
      | cons x rest => exact ⟨x, rest, rfl⟩
    have hhead : s.receiveHead = some x := by
      have hchain := h.chain
      rw [hcons] at hchain
      exact hchain.1
    have htail : s.receiveTail = some z := by rw [h.tail, hqueue, List.getLast?_concat]
    have hnew : Chain (Function.update (Function.update s.queueNext z (some a)) a none) s.receiveHead (queue ++ [a]) :=
      by
      have hchain := h.chain
      rw [hqueue] at hchain ha ⊢
      rw [List.append_assoc]
      exact hchain.concat (hqueue ▸ h.nodup) ha
    have hnodup : (queue ++ [a]).Nodup := List.nodup_append.mpr
      ⟨h.nodup, List.nodup_singleton a, fun u hu v hv huv => ha (by rw [← List.mem_singleton.mp hv, ← huv]; exact hu)⟩
    have hlength : queue.length = rest.length + 1 := by rw [hcons, List.length_cons]
    by_cases hfull : s.queueMaximum < s.receiveCount + 1
    · have heq : s.packetReceive a = ({ s with
          receiveTail := some a
          queueNext := Function.update (Function.update s.queueNext z (some a)) a none
          receiveHead := Function.update (Function.update s.queueNext z (some a)) a none x },
          [.arrived a, .dropped x]) := by
        rw [Socket.packetReceive, hnone, hhead, htail]
        exact if_pos hfull
      have henqueue : enqueue s.queueMaximum a queue = rest ++ [a] := by
        rw [enqueue, if_pos ⟨by simp [hcons], by rw [← h.count]; exact Nat.le_of_lt_succ hfull⟩, hcons]
        rfl
      rw [heq, henqueue]
      rw [hcons] at hnew hnodup
      refine ⟨?_, show queue ++ [a] = [x] ++ (rest ++ [a]) by rw [hcons]; rfl⟩
      exact {
        chain := hnew.2
        tail := List.getLast?_concat.symm
        nodup := (List.nodup_cons.mp hnodup).2
        count := by
          rw [List.length_append, List.length_singleton, ← hlength]
          exact h.count
        length_le := by
          rw [List.length_append, List.length_singleton, ← hlength]
          exact h.length_le
        waits := h.waits
        waiting := h.waiting
        idle := .inl rfl
        unbound := fun hb => by cases hbound.symm.trans hb }
    · have heq : s.packetReceive a = ({ s with
          receiveTail := some a
          queueNext := Function.update (Function.update s.queueNext z (some a)) a none
          receiveCount := s.receiveCount + 1 }, [.arrived a]) := by
        rw [Socket.packetReceive, hnone, hhead, htail]
        exact if_neg hfull
      have hroom : queue.length < s.queueMaximum := by
        rw [← h.count]
        exact Nat.not_lt.mp hfull
      have henqueue : enqueue s.queueMaximum a queue = queue ++ [a] := by
        rw [enqueue, if_neg fun hc => Nat.not_le.mpr hroom hc.2]
      rw [heq, henqueue]
      refine ⟨?_, rfl⟩
      exact {
        chain := hnew
        tail := List.getLast?_concat.symm
        nodup := hnodup
        count := by rw [List.length_append, ← h.count]; rfl
        length_le := by
          rw [List.length_append]
          exact Nat.le_trans (Nat.succ_le_of_lt hroom) (Nat.le_max_right ..)
        waits := h.waits
        waiting := h.waiting
        idle := .inl rfl
        unbound := fun hb => by cases hbound.symm.trans hb }

/-! ### Receivers -/

/-- What a round of the receive loop does. --/
inductive RoundDone (s s' : Socket) (t : Nat) (waitOption : Bool) (queue waiters : List Nat) :
    List Nat → List Nat → Prop
  | notBound : s.bound = false → (s'.thread t).place = .returned .notBound →
      RoundDone s s' t waitOption queue waiters queue waiters
  | error {code : Nat} : s.icmpError = some code → s'.icmpError = none →
      (s'.thread t).place = .returned (.icmp code) → RoundDone s s' t waitOption queue waiters queue waiters
  | taken {a : Nat} {rest : List Nat} : queue = a :: rest → (s'.thread t).packet = some a →
      (s'.thread t).place = afterChecksum valid waitOption a → RoundDone s s' t waitOption queue waiters rest waiters
  | waits : queue = [] → waitOption = true → RoundDone s s' t waitOption queue waiters [] (waiters ++ [t])
  | noPacket : queue = [] → waitOption = false → (s'.thread t).packet = none →
      (s'.thread t).place = .returned .noPacket → RoundDone s s' t waitOption queue waiters [] waiters

theorem receiveRound_spec (h : Invariant s queue waiters) {waitOption : Bool}
    (hplace : (s.thread t).place = .looping waitOption) :
    ∃ queue' waiters', Invariant (s.receiveRound valid t waitOption).1 queue' waiters' ∧
      InOrder queue (s.receiveRound valid t waitOption).2 queue' ∧
      RoundDone valid s (s.receiveRound valid t waitOption).1 t waitOption queue waiters queue' waiters' := by
  have ht : t ∉ waiters := h.waiting.not_mem (by simp [hplace])
  have hcleanup := h.waiting.cleanup_false ht
  unfold Socket.receiveRound
  split
  · rename_i hoff
    have hbound : s.bound = false := by simpa using hoff
    refine ⟨queue, waiters, h.setThread ht hcleanup (by simp), .nil _, .notBound hbound ?_⟩
    simp [Socket.setThread]
  rename_i hon
  have hbound {p : Prop} (hb : s.bound = false) : p := by simp [hb] at hon
  split
  · rename_i code herror
    have hcleared : Invariant { s with icmpError := none } queue waiters :=
      { h with
        idle := h.idle.imp_right fun hidle => ⟨hidle.1, rfl⟩
        unbound := hbound }
    refine ⟨queue, waiters, hcleared.setThread ht hcleanup (by simp), .nil _, .error herror rfl ?_⟩
    simp [Socket.setThread]
  rename_i herror
  split
  · rename_i a hhead
    cases queue with
    | nil => cases hhead.symm.trans h.chain
    | cons b rest =>
      obtain ⟨hb, hrest⟩ := h.chain
      obtain rfl : a = b := Option.some.inj (hhead.symm.trans hb)
      have hwaiters : waiters = [] := h.idle.resolve_right (by simp)
      have htaken : Invariant { s with
          receiveHead := s.queueNext a
          receiveTail := if s.queueNext a = none then none else s.receiveTail
          receiveCount := s.receiveCount - 1 } rest waiters :=
        { h with
          chain := hrest
          tail := by
            show (if s.queueNext a = none then none else s.receiveTail) = _
            cases rest with
            | nil => exact if_pos hrest
            | cons b rest => rw [if_neg (by rw [hrest.1]; simp), h.tail, List.getLast?_cons_cons]
          nodup := (List.nodup_cons.mp h.nodup).2
          count := by
            show s.receiveCount - 1 = _
            rw [h.count, List.length_cons, Nat.add_sub_cancel]
          length_le := Nat.le_trans (Nat.le_succ _) h.length_le
          idle := .inl hwaiters
          unbound := hbound }
      refine ⟨rest, waiters, htaken.setThread ht hcleanup (afterChecksum_ne_suspended valid _ · a), ?_,
        .taken rfl ?_ ?_⟩
      · exact List.append_nil _
      · simp [Socket.setThread]
      · simp [Socket.setThread]
  · rename_i hhead
    obtain rfl : queue = [] := h.chain.unique hhead
    split
    · rename_i hwait
      refine ⟨[], waiters ++ [t], ?_, .nil _, .waits rfl hwait⟩
      exact {
        chain := h.chain
        tail := h.tail
        nodup := h.nodup
        count := h.count
        length_le := h.length_le
        waits := h.waits.suspend ht
        waiting := h.waiting.join rfl rfl
        idle := .inr ⟨rfl, herror⟩
        unbound := hbound }
    · rename_i hwait
      refine ⟨[], waiters, h.setThread ht hcleanup (by simp), .nil _, .noPacket rfl (by simpa using hwait) ?_ ?_⟩
      · simp [Socket.setThread]
      · simp [Socket.setThread]

theorem receiveResumed_spec (h : Invariant s queue waiters) : Invariant (s.receiveResumed valid t) queue waiters := by
  unfold Socket.receiveResumed
  split
  · rename_i waitOption a hplace _ _
    have ht : t ∉ waiters := h.waiting.not_mem (by simp [hplace])
    exact h.setThread ht (h.waiting.cleanup_false ht) (afterChecksum_ne_suspended valid _ · a)
  · rename_i hplace _
    have ht : t ∉ waiters := h.waiting.not_mem (by simp [hplace])
    exact h.setThread ht (h.waiting.cleanup_false ht) (by simp)
  · exact h

/-- A wait that is ended from outside: the threads behind the one that leaves come before those in front of it. --/
theorem receiveCleanup_spec {front back : List Nat} (h : Invariant s queue (front ++ t :: back)) :
    Invariant (s.receiveCleanup t) queue (back ++ front) ∧
      (((s.receiveCleanup t).thread t).suspendStatus = .noPacket) := by
  have hmem : t ∈ front ++ t :: back := by simp
  have hon := (h.waiting t).1.mp hmem
  obtain ⟨waitOption, hplace⟩ := (h.waiting t).2.mp hmem
  have hlist : (if t = s.suspension.next t then
      { s.suspension with head := none, count := s.suspension.count - 1 }
      else { s.suspension with
        head := some (s.suspension.next t)
        previous := Function.update s.suspension.previous (s.suspension.next t) (s.suspension.previous t)
        next := Function.update s.suspension.next (s.suspension.previous t) (s.suspension.next t)
        count := s.suspension.count - 1 }) = SuspensionList.remove t { s.suspension with head := some t } := by
    unfold SuspensionList.remove
    split <;> simp
  have heq : s.receiveCleanup t =
      ({ s with suspension := SuspensionList.remove t { s.suspension with head := some t } }).setThread t
        ((s.thread t).wake .noPacket (s.thread t).packet) := by
    rw [Socket.receiveCleanup, if_pos hon, hlist, hplace]
  have hidle := h.idle.resolve_left (by simp)
  have hnodup := List.nodup_cons.mp (List.nodup_middle.mp h.waits.nodup)
  rw [heq]
  refine ⟨?_, by simp [Socket.setThread, Thread.wake]⟩
  exact {
    chain := h.chain
    tail := h.tail
    nodup := h.nodup
    count := h.count
    length_le := h.length_le
    waits := SuspensionList.Waits.remove_first (SuspensionList.Waits.enter h.waits)
    waiting := by
      refine h.waiting.leave (fun u => ⟨fun hu => ⟨?_, ?_⟩, fun hu => ?_⟩) rfl (Thread.wake_ne_suspended _ _ _)
      · rcases List.mem_append.mp hu with hu | hu <;> simp [hu]
      · rintro rfl
        exact hnodup.1 (by rcases List.mem_append.mp hu with hu | hu <;> simp [hu])
      · rcases List.mem_append.mp hu.1 with hfront | hback
        · exact List.mem_append_right _ hfront
        · exact List.mem_append_left _ ((List.mem_cons.mp hback).resolve_left hu.2)
    idle := .inr hidle
    unbound := fun hb => by simpa using (h.unbound hb).2.1 }

theorem receiveCleanup_of_not_mem (h : Invariant s queue waiters) (ht : t ∉ waiters) : s.receiveCleanup t = s := by
  rw [Socket.receiveCleanup, if_neg (by simp [h.waiting.cleanup_false ht])]

/-- An error goes to the first thread that waits, or stays for the next call. --/
theorem icmpErrorProcess_nil (code : Nat) (h : Invariant s queue []) (hbound : s.bound = true) :
    s.icmpErrorProcess code = { s with icmpError := some code } ∧ Invariant (s.icmpErrorProcess code) queue [] := by
  have heq : s.icmpErrorProcess code = { s with icmpError := some code } := by
    rw [Socket.icmpErrorProcess, h.waits.count]
    rfl
  refine ⟨heq, ?_⟩
  rw [heq]
  exact { h with
    idle := .inl rfl
    unbound := fun hb => by cases hbound.symm.trans hb }

theorem icmpErrorProcess_cons (code : Nat) (h : Invariant s queue (t :: waiters)) :
    Invariant (s.icmpErrorProcess code) queue waiters ∧ (s.icmpErrorProcess code).icmpError = none ∧
      ((s.icmpErrorProcess code).thread t).suspendStatus = .icmp code := by
  have heq : s.icmpErrorProcess code = ({ s with suspension := s.suspension.remove t, icmpError := none }).setThread t
      ((s.thread t).wake (.icmp code) (s.thread t).packet) := by
    rw [Socket.icmpErrorProcess, h.waits.count, h.waits.head]
    rfl
  have hidle := h.idle.resolve_left (by simp)
  rw [heq]
  refine ⟨?_, rfl, by simp [Socket.setThread, Thread.wake]⟩
  exact {
    chain := h.chain
    tail := h.tail
    nodup := h.nodup
    count := h.count
    length_le := h.length_le
    waits := SuspensionList.Waits.remove_first h.waits
    waiting := h.waiting.leave h.mem_tail rfl (Thread.wake_ne_suspended _ _ _)
    idle := .inr ⟨hidle.1, rfl⟩
    unbound := fun hb => by cases (h.unbound hb).2.1 }

/-! ### Unbinding -/

theorem flushQueue_eq : ∀ {queue : List Nat} {head : Option Nat}, Chain s.queueNext head queue →
    s.flushQueue queue.length head = queue.map .flushed
  | [], _, _ => rfl
  | a :: queue, _, ⟨hhead, hrest⟩ => by
    rw [hhead, List.length_cons, Socket.flushQueue, flushQueue_eq hrest]
    rfl

/-- Only threads change. --/
theorem resumeAll_eq : ∀ (count t : Nat) (s : Socket),
    s.resumeAll count t = { s with thread := (s.resumeAll count t).thread }
  | 0, _, _ => rfl
  | count + 1, t, s => by
    rw [Socket.resumeAll, resumeAll_eq count]
    rfl

/-- Along the list every thread is told that the socket is unbound, and no other one. --/
theorem resumeAll_thread : ∀ {l : List Nat} {a b : Nat} {s : Socket},
    Path s.suspension.next s.suspension.previous a l b → ∀ u, (s.resumeAll (l.length + 1) a).thread u =
      if u ∈ a :: l then (s.thread u).wake .socketUnbound (s.thread u).packet else s.thread u
  | [], a, b, s, h, u => by
    simp only [List.length_nil, Socket.resumeAll, Socket.setThread, h.1, h.2]
    rcases eq_or_ne u a with rfl | hu
    · simp [Thread.wake]
    · simp [hu]
  | c :: l, a, b, s, ⟨⟨hnext, hprevious⟩, hrest⟩, u => by
    rw [List.length_cons, Socket.resumeAll]
    simp only [Socket.setThread, hnext, hprevious]
    rw [resumeAll_thread (by exact hrest)]
    rcases eq_or_ne u a with rfl | hu
    · simp [Thread.wake]
      cases (s.thread u).place <;> simp
    · simp [hu]

theorem unbind_bound : s.unbind.1.bound = false := by
  unfold Socket.unbind
  dsimp only
  split
  · rfl
  · split
    · split
      · rw [resumeAll_eq]
      · rfl
    · rfl

theorem unbind_spec (h : Invariant s queue waiters) : Invariant s.unbind.1 [] [] ∧ InOrder queue s.unbind.2 [] ∧
    ∀ t ∈ waiters, (s.unbind.1.thread t).suspendStatus = .socketUnbound := by
  unfold Socket.unbind
  dsimp only
  split
  · rename_i hcount
    have hwaiters : waiters = [] := h.idle.resolve_right fun hidle => hcount (by rw [h.count, hidle.1]; rfl)
    subst hwaiters
    refine ⟨?_, ?_, by simp⟩
    · exact { h with
        chain := rfl
        tail := rfl
        nodup := List.nodup_nil
        count := rfl
        length_le := Nat.zero_le _
        idle := .inl rfl
        unbound := fun _ => ⟨rfl, rfl, rfl⟩ }
    · have hflush := @flushQueue_eq { s with bound := false, icmpError := none } _ _ h.chain
      rw [← h.count] at hflush
      show InOrder queue (Socket.flushQueue s.receiveCount s.receiveHead { s with bound := false, icmpError :=
        none }) []
      rw [hflush]
      simp [InOrder, List.filterMap_map, Function.comp_def, Event.arrival, Event.leaving]
  · rename_i hcount
    obtain rfl : queue = [] := List.length_eq_zero_iff.mp (h.count.symm.trans (not_not.mp hcount))
    split
    · rename_i hsuspended
      split
      · rename_i t hhead
        obtain ⟨rest, rfl⟩ : ∃ rest, waiters = t :: rest := by
          have hfirst := h.waits.head.symm.trans hhead
          cases waiters with
          | nil => cases hfirst
          | cons u rest => exact ⟨rest, by rw [Option.some.inj hfirst]⟩
        have hthread := @resumeAll_thread rest t t { s with bound := false, icmpError := none } h.waits.circular.2
        rw [h.waits.count, List.length_cons, resumeAll_eq]
        refine ⟨?_, .nil _, fun u hu => ?_⟩
        · exact { h with
            waits := ⟨rfl, List.nodup_nil, rfl⟩
            waiting := by
              intro u
              simp only [hthread]
              split
              · simp [Thread.wake_ne_suspended]
                rfl
              · rename_i hu
                have hwaiting := h.waiting u
                simp only [hu, false_iff] at hwaiting
                simpa using hwaiting
            idle := .inl rfl
            unbound := fun _ => ⟨rfl, rfl, rfl⟩ }
        · simp only [hthread, if_pos hu]
          rfl
      · rename_i hhead
        have hnil := h.waits.head.symm.trans hhead
        obtain rfl : waiters = [] := List.head?_eq_none_iff.mp hnil
        exact absurd h.waits.count hsuspended
    · rename_i hsuspended
      obtain rfl : waiters = [] := List.length_eq_zero_iff.mp (h.waits.count.symm.trans (not_not.mp hsuspended))
      exact ⟨{ h with idle := .inl rfl, unbound := fun _ => ⟨rfl, rfl, rfl⟩ }, .nil _, by simp⟩

/-! ### Every run -/

/-- What becomes of the queue, the threads that wait, and the one that an action is about. --/
def Promised (s s' : Socket) (queue waiters queue' waiters' : List Nat) : Action → Prop
  | .arrive a =>
    (∃ t, waiters = t :: waiters' ∧ queue' = [] ∧ (s'.thread t).packet = some a ∧
      (s'.thread t).suspendStatus = .success ∧ ∃ waitOption, (s'.thread t).place = .resumed waitOption) ∨
    (waiters = [] ∧ waiters' = [] ∧ queue' = enqueue s.queueMaximum a queue)
  | .round t => ∀ waitOption, (s.thread t).place = .looping waitOption →
    RoundDone valid s s' t waitOption queue waiters queue' waiters'
  | .cleanup t => queue' = queue ∧ (t ∉ waiters ∧ waiters' = waiters ∨
      ∃ front back, waiters = front ++ t :: back ∧ waiters' = back ++ front ∧
        (s'.thread t).suspendStatus = .noPacket)
  | .terminate t => queue' = queue ∧ (t ∉ waiters ∧ waiters' = waiters ∨
      ∃ front back, waiters = front ++ t :: back ∧ waiters' = back ++ front)
  | .icmpError code => queue' = queue ∧
      (waiters = [] ∧ waiters' = [] ∧ s'.icmpError = some code ∨
        ∃ t, waiters = t :: waiters' ∧ s'.icmpError = none ∧ (s'.thread t).suspendStatus = .icmp code)
  | .unbind => queue' = [] ∧ waiters' = [] ∧ s'.icmpError = none ∧
      ∀ t ∈ waiters, (s'.thread t).suspendStatus = .socketUnbound
  | _ => queue' = queue ∧ waiters' = waiters

/-- A thread that is terminated while it waits leaves like one whose time is up. --/
theorem terminate_spec {front back : List Nat} (h : Invariant s queue (front ++ t :: back)) :
    Invariant ((s.setThread t { s.thread t with place := .terminated }).receiveCleanup t) queue (back ++ front) := by
  have hon := (h.waiting t).1.mp (by simp)
  obtain ⟨waitOption, hplace⟩ := (h.waiting t).2.mp (by simp)
  obtain ⟨hcleaned, -⟩ := receiveCleanup_spec h
  have hsuspension : ((s.setThread t { s.thread t with place := .terminated }).receiveCleanup t) =
      (s.receiveCleanup t).setThread t { s.thread t with place := .terminated, suspendCleanup := false } := by
    simp [Socket.receiveCleanup, Socket.setThread, hon, hplace]
  rw [hsuspension]
  refine hcleaned.setThread ?_ rfl (by simp)
  have hnodup := List.nodup_cons.mp (List.nodup_middle.mp h.waits.nodup)
  intro hmem
  exact hnodup.1 (by rcases List.mem_append.mp hmem with hu | hu <;> simp [hu])

theorem perform_spec {events : List Event} (h : Invariant s queue waiters) {action : Action}
    (hok : Allowed (s, events) action) :
    ∃ queue' waiters', Invariant (s.perform valid action).1 queue' waiters' ∧
      InOrder queue (s.perform valid action).2 queue' ∧
      Promised valid s (s.perform valid action).1 queue waiters queue' waiters' action := by
  cases action with
  | bind =>
    have hbound : Invariant { s with bound := true } queue waiters := { h with unbound := fun hb => by cases hb }
    exact ⟨queue, waiters, hbound, .nil _, rfl, rfl⟩
  | unbind =>
    obtain ⟨h', horder, htold⟩ := unbind_spec h
    refine ⟨[], [], h', horder, rfl, rfl, (h'.unbound ?_).2.2, htold⟩
    exact unbind_bound
  | arrive a =>
    obtain ⟨hbound, hnew⟩ := hok
    cases waiters with
    | nil =>
      obtain ⟨h', horder⟩ := packetReceive_queue h hbound (hnew queue h.chain)
      exact ⟨_, _, h', horder, .inr ⟨rfl, rfl, rfl⟩⟩
    | cons t rest =>
      obtain ⟨heq, h', rfl⟩ := packetReceive_waiters (a := a) h
      refine ⟨[], rest, h', ?_, .inl ⟨t, rfl, rfl, ?_⟩⟩
      · simp only [Socket.perform, heq]
        rfl
      · obtain ⟨waitOption, hplace⟩ := h.waiting.wake_place List.mem_cons_self .success (some a)
        simp only [Socket.perform, heq, Socket.setThread, Function.update_self]
        exact ⟨rfl, rfl, waitOption, hplace⟩
  | receive t waitOption =>
    obtain ⟨status, hreturned⟩ := hok
    have hplace : (s.thread t).place = .returned status := hreturned
    have ht : t ∉ waiters := h.waiting.not_mem (by simp [hplace])
    exact ⟨queue, waiters, h.setThread ht (h.waiting.cleanup_false ht) (by simp), .nil _, rfl, rfl⟩
  | round t =>
    simp only [Socket.perform]
    split
    · rename_i waitOption hplace
      obtain ⟨queue', waiters', h', horder, hdone⟩ := receiveRound_spec valid h hplace
      refine ⟨queue', waiters', h', horder, fun waitOption' hplace' => ?_⟩
      obtain rfl : waitOption = waitOption' := by simpa [hplace] using hplace'
      exact hdone
    · rename_i hother
      exact ⟨queue, waiters, h, .nil _, fun waitOption hplace => absurd hplace (hother waitOption)⟩
  | proceed t => exact ⟨queue, waiters, receiveResumed_spec valid h, .nil _, rfl, rfl⟩
  | cleanup t =>
    by_cases ht : t ∈ waiters
    · obtain ⟨front, back, rfl⟩ := List.append_of_mem ht
      obtain ⟨h', hstatus⟩ := receiveCleanup_spec h
      exact ⟨queue, _, h', .nil _, rfl, .inr ⟨front, back, rfl, rfl, hstatus⟩⟩
    · refine ⟨queue, waiters, ?_, .nil _, rfl, .inl ⟨ht, rfl⟩⟩
      simp only [Socket.perform, receiveCleanup_of_not_mem h ht]
      exact h
  | terminate t =>
    by_cases ht : t ∈ waiters
    · obtain ⟨front, back, rfl⟩ := List.append_of_mem ht
      exact ⟨queue, _, terminate_spec h, .nil _, rfl, .inr ⟨front, back, rfl, rfl⟩⟩
    · have h' : Invariant (s.setThread t { s.thread t with place := .terminated }) queue waiters :=
        h.setThread ht (h.waiting.cleanup_false ht) (by simp)
      refine ⟨queue, waiters, ?_, .nil _, rfl, .inl ⟨ht, rfl⟩⟩
      simp only [Socket.perform, receiveCleanup_of_not_mem h' ht]
      exact h'
  | icmpError code =>
    cases waiters with
    | nil =>
      obtain ⟨heq, h'⟩ := icmpErrorProcess_nil code h hok
      refine ⟨queue, [], h', .nil _, rfl, .inl ⟨rfl, rfl, ?_⟩⟩
      simp only [Socket.perform, heq]
    | cons t rest =>
      obtain ⟨h', hcleared, hstatus⟩ := icmpErrorProcess_cons code h
      exact ⟨queue, rest, h', .nil _, rfl, .inr ⟨t, rfl, hcleared, hstatus⟩⟩

end

end Netxduo.Udp
