import Mathlib
import Netxduo.Library.LinkedLists
import Netxduo.Library.Runs
import Netxduo.Packets.Suspension

/-! Packet pools: packets that are allocated, released and waited for. No packet is lost or given away twice, and no
    thread waits while a packet is available. -/

namespace Netxduo.Packets.Pools

open LinkedLists Suspension Runs

/-! ### The source -/

/-- What `nx_packet_tcp_queue_next` says of a packet: `NX_PACKET_ALLOCATED`, `NX_PACKET_FREE`, or that a queue or the
    driver has it. --/
inductive Mark
  | allocated
  | free
  | enqueued
deriving DecidableEq, Repr

/-- The fields of `NX_PACKET` that the pool reads or sets up; the pointers into the payload as offsets to its start. --/
structure Header where
  queueNext : Option Nat
  next : Option Nat
  last : Option Nat
  length : Nat
  prependPtr : Nat
  appendPtr : Nat
  mark : Mark
deriving DecidableEq, Repr

inductive Status
  | success
  | invalidParameters
  | noPacket
  | ptrError
  | suspended
deriving DecidableEq, Repr

/-- What a thread has to do with the pool: its cleanup routine is set, it is in the state `TX_TCP_IP`, the packet type
    it waits with, and the packet and the status it gets. --/
structure Thread where
  suspendCleanup : Bool
  waiting : Bool
  suspendInfo : Nat
  packet : Option Nat
  suspendStatus : Status

/-- `NX_PACKET_POOL`, with its packets and the threads. --/
structure Pool where
  payloadSize : Nat
  availableList : Option Nat
  available : Nat
  suspension : SuspensionList
  header : Nat → Header
  thread : Nat → Thread

/-- A packet looks just like a new one. --/
def newHeader (packetType : Nat) : Header := ⟨none, none, none, 0, packetType, packetType, .allocated⟩

/-- `_nx_packet_allocate`; there is no result where a null pointer is followed. --/
def packetAllocate (t packetType : Nat) (waitOption : Bool) (p : Pool) : Option (Status × Pool) :=
  if p.payloadSize < packetType then some (.invalidParameters, p)
  else
    let p := { p with thread := Function.update p.thread t { p.thread t with packet := none } }
    if p.available ≠ 0 then
      p.availableList.map fun a => (.success, { p with
        available := p.available - 1
        availableList := (p.header a).queueNext
        header := Function.update p.header a (newHeader packetType)
        thread := Function.update p.thread t { p.thread t with packet := some a } })
    else if waitOption then
      some (.suspended, { p with
        suspension := p.suspension.suspend t
        thread := Function.update p.thread t { p.thread t with
          suspendCleanup := true
          waiting := true
          suspendInfo := packetType } })
    else some (.noPacket, p)

/-- A packet goes to the first thread that waits, or back to the list. --/
def releaseOne (a : Nat) (p : Pool) : Pool :=
  p.suspension.head.elim
    { p with
      header := Function.update p.header a { p.header a with mark := .free, queueNext := p.availableList }
      availableList := some a
      available := p.available + 1 }
    fun t => { p with
      suspension := p.suspension.remove t
      header := Function.update p.header a (newHeader (p.thread t).suspendInfo)
      thread := Function.update p.thread t { p.thread t with
        suspendCleanup := false
        waiting := false
        packet := some a
        suspendStatus := .success } }

/-- `_nx_packet_release`, with the packets that are chained together. --/
def packetRelease : Nat → Option Nat → Pool → Option (Status × Pool)
  | _, none, p => some (.success, p)
  | 0, some _, _ => none
  | rounds + 1, some a, p =>
    if (p.header a).mark ≠ .allocated then some (.ptrError, p)
    else packetRelease rounds (p.header a).next (releaseOne a p)

/-- `_nx_packet_pool_cleanup`, of a thread that times out or is aborted, or was terminated before. --/
def packetPoolCleanup (t : Nat) (p : Pool) : Pool :=
  if (p.thread t).suspendCleanup then
    { p with
      suspension := p.suspension.remove t
      thread := Function.update p.thread t
        (if (p.thread t).waiting then
          { p.thread t with suspendCleanup := false, waiting := false, suspendStatus := .noPacket }
        else { p.thread t with suspendCleanup := false }) }
  else p

/-- The list that `_nx_packet_pool_create` sets up, of the packets it found room for. --/
def packetPoolCreate (packets payloadSize : Nat) (threads : Nat → Thread) (next previous : Nat → Nat) : Pool where
  payloadSize := payloadSize
  availableList := some 0
  available := packets
  suspension := ⟨none, 0, next, previous⟩
  header := fun a => ⟨if a + 1 < packets then some (a + 1) else none, none, none, 0, 0, 0, .free⟩
  thread := fun t => { threads t with suspendCleanup := false, waiting := false }

/-! ### Runs -/

/-- The calls, and what the owner of a packet writes into its header. --/
inductive Call
  | allocate (t packetType : Nat) (waitOption : Bool)
  | release (rounds a : Nat)
  | write (a : Nat) (h : Header)
  | cleanup (t : Nat)
  | terminate (t : Nat)

def perform (p : Pool) : Call → Option Pool
  | .allocate t packetType waitOption => (packetAllocate t packetType waitOption p).map Prod.snd
  | .release rounds a => (packetRelease rounds (some a) p).map Prod.snd
  | .write a h => some { p with header := Function.update p.header a h }
  | .cleanup t => some (packetPoolCleanup t p)
  | .terminate t =>
    some (packetPoolCleanup t { p with thread := Function.update p.thread t { p.thread t with waiting := false } })

def step (p : Pool) (call : Call) : Pool := (perform p call).getD p

/-- A thread that waits does not call; what is released is a chain of packets of the pool, no one of them twice, free
    ones or not; and only a packet that is not free is written, and stays so. --/
def Allowed (packets : Finset Nat) (p : Pool) : Call → Prop
  | .allocate t _ _ => (p.thread t).suspendCleanup = false
  | .release rounds a => ∃ chain, Chain (fun a => (p.header a).next) (some a) chain ∧ chain.Nodup ∧
      (∀ x ∈ chain, x ∈ packets) ∧ chain.length ≤ rounds
  | .write a h => a ∈ packets ∧ (p.header a).mark ≠ .free ∧ h.mark ≠ .free
  | .cleanup _ => True
  | .terminate _ => True

/-! ### What is kept -/

/-- The packets that are marked free lie on the list, once each, and are counted; the threads whose cleanup routine is
    set are those that wait; and no thread waits where a packet is available. --/
structure Invariant (packets : Finset Nat) (p : Pool) (free threads : List Nat) : Prop where
  chain : Chain (fun a => (p.header a).queueNext) p.availableList free
  nodup : free.Nodup
  available : p.available = free.length
  marked : ∀ a, a ∈ free ↔ a ∈ packets ∧ (p.header a).mark = .free
  waits : p.suspension.Waits threads
  suspended : ∀ t, t ∈ threads ↔ (p.thread t).suspendCleanup = true
  idle : threads = [] ∨ free = []

/-- The packet that a thread waited for is its own, and looks like a new one of its type. --/
structure Served (p p' : Pool) (a t : Nat) : Prop where
  packet : (p'.thread t).packet = some a
  status : (p'.thread t).suspendStatus = .success
  running : (p'.thread t).suspendCleanup = false
  header : p'.header a = newHeader (p.thread t).suspendInfo

section
variable {packets : Finset Nat} {p p' : Pool} {free threads chain : List Nat} {a t : Nat}

/-- A packet that is released, with no thread waiting. --/
theorem invariant_releaseOne_free (h : Invariant packets p free []) (ha : a ∈ packets) (hmark :
    (p.header a).mark ≠ .free) :
    Invariant packets (releaseOne a p) (a :: free) [] := by
  have hhead : p.suspension.head = none := h.waits.head
  have hnot : a ∉ free := fun hmem => hmark ((h.marked a).mp hmem).2
  unfold releaseOne
  rw [hhead]
  refine ⟨⟨rfl, ?_⟩, List.nodup_cons.mpr ⟨hnot, h.nodup⟩, ?_, fun x => ?_, h.waits, h.suspended, Or.inl rfl⟩
  · show Chain _ (Function.update p.header a _ a).queueNext free
    rw [Function.update_self]
    refine h.chain.congr fun x hx => ?_
    show (Function.update p.header a _ x).queueNext = _
    rw [Function.update_of_ne (by rintro rfl; exact hnot hx)]
  · show p.available + 1 = _
    rw [h.available, List.length_cons]
  · show _ ↔ x ∈ packets ∧ (Function.update p.header a _ x).mark = .free
    rcases eq_or_ne x a with rfl | hx
    · rw [Function.update_self]
      exact ⟨fun _ => ⟨ha, rfl⟩, fun _ => List.mem_cons_self⟩
    · rw [Function.update_of_ne hx, List.mem_cons, or_iff_right hx]
      exact h.marked x

/-- A packet that is released goes to the first thread that waits. --/
theorem invariant_releaseOne_served (h : Invariant packets p [] (t :: threads)) (hmark : (p.header a).mark ≠ .free) :
    Invariant packets (releaseOne a p) [] threads ∧ Served p (releaseOne a p) a t := by
  have hhead : p.suspension.head = some t := h.waits.head
  have hnodup := List.nodup_cons.mp h.waits.nodup
  have hwaits : (p.suspension.remove t).Waits ([] ++ threads) :=
    (show p.suspension.Waits ([] ++ t :: threads) from h.waits).remove
  have hrelease : releaseOne a p = { p with
      suspension := p.suspension.remove t
      header := Function.update p.header a (newHeader (p.thread t).suspendInfo)
      thread := Function.update p.thread t { p.thread t with
        suspendCleanup := false
        waiting := false
        packet := some a
        suspendStatus := .success } } := by
    unfold releaseOne
    rw [hhead]
    rfl
  rw [hrelease]
  refine ⟨⟨h.chain, h.nodup, h.available, fun x => ?_, hwaits, fun x => ?_, Or.inr rfl⟩, ?_, ?_, ?_, ?_⟩
  · show _ ↔ x ∈ packets ∧ (Function.update p.header a _ x).mark = .free
    rcases eq_or_ne x a with rfl | hx
    · rw [Function.update_self]
      exact ⟨fun hx => absurd hx List.not_mem_nil, fun hx => by cases hx.2⟩
    · rw [Function.update_of_ne hx]
      exact h.marked x
  · show _ ↔ (Function.update p.thread t _ x).suspendCleanup = true
    rcases eq_or_ne x t with rfl | hx
    · rw [Function.update_self]
      exact ⟨fun hx => absurd hx hnodup.1, fun hx => by cases hx⟩
    · rw [Function.update_of_ne hx, ← h.suspended x, List.mem_cons, or_iff_right hx]
  all_goals simp

@[simp] theorem releaseOne_header {x : Nat} (hx : x ≠ a) : (releaseOne a p).header x = p.header x := by
  unfold releaseOne
  cases p.suspension.head with
  | none => exact Function.update_of_ne hx _ _
  | some t => exact Function.update_of_ne hx _ _

theorem releaseOne_thread {u : Nat} (hu : p.suspension.head ≠ some u) : (releaseOne a p).thread u = p.thread u := by
  unfold releaseOne
  cases hhead : p.suspension.head with
  | none => rfl
  | some t => exact Function.update_of_ne (by rintro rfl; exact hu hhead) _ _

/-- The packets at the start of a chain that are released, up to the first that is not allocated. --/
def releasable (p : Pool) (chain : List Nat) : List Nat := chain.takeWhile fun x => (p.header x).mark == .allocated

theorem releasable_congr : ∀ {chain : List Nat}, (∀ x ∈ chain, p'.header x = p.header x) →
    releasable p' chain = releasable p chain
  | [], _ => rfl
  | a :: chain, h => by
    have ih := releasable_congr fun x hx => h x (List.mem_cons_of_mem a hx)
    unfold releasable at ih ⊢
    rw [List.takeWhile_cons, List.takeWhile_cons, h a List.mem_cons_self, ih]

/-- What the release of these packets does: the threads that wait get one each, in order, and the others become
    available; nothing else changes. --/
structure Released (packets : Finset Nat) (p p' : Pool) (free threads released : List Nat) : Prop where
  invariant : Invariant packets p' ((released.drop threads.length).reverse ++ free) (threads.drop released.length)
  served : ∀ x ∈ released.zip threads, Served p p' x.1 x.2
  headers : ∀ x ∉ released, p'.header x = p.header x
  threads : ∀ u ∉ threads, p'.thread u = p.thread u

theorem Released.none (h : Invariant packets p free threads) : Released packets p p free threads [] where
  invariant := by simpa using h
  served x hx := absurd hx List.not_mem_nil
  headers _ _ := rfl
  threads _ _ := rfl

theorem Released.cons_free {rest : List Nat} (hsame : (releaseOne a p).thread = p.thread)
    (h : Released packets (releaseOne a p) p' (a :: free) [] rest) : Released packets p p' free [] (a :: rest) where
  invariant := by
    have hinvariant := h.invariant
    rw [List.length_nil, List.drop_zero] at hinvariant ⊢
    rw [List.reverse_cons, List.append_assoc]
    simpa using hinvariant
  served x hx := by simp at hx
  headers x hx := by
    rw [List.mem_cons, not_or] at hx
    rw [h.headers x hx.2, releaseOne_header hx.1]
  threads u hu := by rw [h.threads u hu, hsame]

theorem Released.cons_served {rest : List Nat} (ha : a ∉ rest) (ht : t ∉ threads) (hhead : p.suspension.head = some t)
    (hserved : Served p (releaseOne a p) a t) (h : Released packets (releaseOne a p) p' [] threads rest) :
    Released packets p p' [] (t :: threads) (a :: rest) where
  invariant := h.invariant
  served x hx := by
    rcases List.mem_cons.mp (List.zip_cons_cons ▸ hx) with rfl | hx
    · have hthread := h.threads t ht
      refine ⟨?_, ?_, ?_, ?_⟩
      · rw [hthread]
        exact hserved.packet
      · rw [hthread]
        exact hserved.status
      · rw [hthread]
        exact hserved.running
      · rw [h.headers a ha]
        exact hserved.header
    · have hx' := h.served x hx
      refine ⟨hx'.packet, hx'.status, hx'.running, ?_⟩
      have hne : p.suspension.head ≠ some x.2 := fun he => by
        have heq : t = x.2 := Option.some.inj (hhead.symm.trans he)
        exact ht (heq ▸ (List.of_mem_zip hx).2)
      rw [hx'.header, releaseOne_thread hne]
  headers x hx := by
    rw [List.mem_cons, not_or] at hx
    rw [h.headers x hx.2, releaseOne_header hx.1]
  threads u hu := by
    rw [List.mem_cons, not_or] at hu
    rw [h.threads u hu.2, releaseOne_thread]
    rw [hhead]
    exact fun he => hu.1 (Option.some.inj he).symm

/-- A chain is released up to the first packet that is not allocated. --/
theorem packetRelease_spec : ∀ {chain free threads : List Nat} {p : Pool} {head : Option Nat} {rounds : Nat},
    Invariant packets p free threads → Chain (fun a => (p.header a).next) head chain → chain.Nodup →
    (∀ x ∈ chain, x ∈ packets) → chain.length ≤ rounds →
    ∃ status p', packetRelease rounds head p = some (status, p') ∧
      (status = .success ↔ releasable p chain = chain) ∧ Released packets p p' free threads (releasable p chain)
  | [], free, threads, p, head, rounds, h, hchain, _, _, _ => by
    obtain rfl : head = none := hchain
    exact ⟨.success, p, by rw [packetRelease], ⟨fun _ => rfl, fun _ => rfl⟩, .none h⟩
  | a :: rest, free, threads, p, head, 0, h, hchain, _, _, hrounds => by cases hrounds
  | a :: rest, free, threads, p, head, rounds + 1, h, hchain, hn, hin, hrounds => by
    obtain ⟨hnot, hn⟩ := List.nodup_cons.mp hn
    rw [hchain.1, packetRelease]
    by_cases hmark : (p.header a).mark = .allocated
    · have hsame : ∀ x ∈ rest, (releaseOne a p).header x = p.header x := fun x hx =>
        releaseOne_header (by rintro rfl; exact hnot hx)
      have hrest : Chain (fun x => ((releaseOne a p).header x).next) ((p.header a).next) rest :=
        hchain.2.congr fun x hx => congrArg Header.next (hsame x hx)
      have hmore : releasable p (a :: rest) = a :: releasable (releaseOne a p) rest := by
        rw [releasable_congr hsame]
        exact List.takeWhile_cons_of_pos (beq_iff_eq.mpr hmark)
      have hne : (p.header a).mark ≠ .free := by rw [hmark]; simp
      rw [if_neg (not_not.mpr hmark), hmore]
      have hiff : ∀ c : List Nat, a :: c = a :: rest ↔ c = rest := fun c =>
        ⟨fun he => (List.cons.inj he).2, fun he => he ▸ rfl⟩
      rw [hiff]
      cases threads with
      | nil =>
        obtain ⟨status, p', hp, hstatus, hreleased⟩ := packetRelease_spec
          (invariant_releaseOne_free h (hin a List.mem_cons_self) hne) hrest hn
          (fun x hx => hin x (List.mem_cons_of_mem _ hx)) (Nat.le_of_succ_le_succ hrounds)
        exact ⟨status, p', hp, hstatus, hreleased.cons_free (funext fun u =>
          releaseOne_thread (by rw [h.waits.head]; simp))⟩
      | cons t threads =>
        obtain rfl : free = [] := h.idle.resolve_left (List.cons_ne_nil t threads)
        obtain ⟨hinvariant, hserved⟩ := invariant_releaseOne_served h hne
        obtain ⟨status, p', hp, hstatus, hreleased⟩ := packetRelease_spec hinvariant hrest hn
          (fun x hx => hin x (List.mem_cons_of_mem _ hx)) (Nat.le_of_succ_le_succ hrounds)
        exact ⟨status, p', hp, hstatus, hreleased.cons_served (fun ha => hnot ((List.takeWhile_prefix _).subset ha))
          (List.nodup_cons.mp h.waits.nodup).1 h.waits.head hserved⟩
    · have hnone : releasable p (a :: rest) = [] :=
        List.takeWhile_cons_of_neg (by simpa using hmark)
      rw [if_pos hmark, hnone]
      exact ⟨.ptrError, p, rfl, ⟨(fun hs => by cases hs), (fun hs => by cases hs)⟩, .none h⟩

/-! ### The other calls -/

theorem invariant_allocate (h : Invariant packets p free threads) {packetType : Nat} {waitOption : Bool}
    (ht : (p.thread t).suspendCleanup = false) :
    ∃ status p' free' threads', packetAllocate t packetType waitOption p = some (status, p') ∧
      Invariant packets p' free' threads' ∧
      ((p.payloadSize < packetType ∧ p' = p ∧ free' = free ∧ threads' = threads) ∨
        (packetType ≤ p.payloadSize ∧ free = [] ∧ free' = [] ∧ (p'.thread t).packet = none ∧
          threads' = threads ++ if waitOption then [t] else []) ∨
        (packetType ≤ p.payloadSize ∧ ∃ a, free = a :: free' ∧ threads' = threads ∧ (p'.thread t).packet = some a ∧
          p'.header a = newHeader packetType)) := by
  have hnot : t ∉ threads := fun hmem => by
    cases ht.symm.trans ((h.suspended t).mp hmem)
  unfold packetAllocate
  split
  · rename_i htype
    exact ⟨_, p, free, threads, rfl, h, Or.inl ⟨htype, rfl, rfl, rfl⟩⟩
  rename_i htype
  have htype := Nat.le_of_not_lt htype
  have havailable := h.available
  cases free with
  | nil =>
    rw [List.length_nil] at havailable
    dsimp only
    rw [if_neg (not_not.mpr havailable)]
    split
    · refine ⟨_, _, [], threads ++ [t], rfl, ?_, Or.inr (Or.inl ⟨htype, rfl, rfl, ?_, rfl⟩)⟩
      · refine ⟨h.chain, h.nodup, havailable, h.marked, h.waits.suspend hnot, fun u => ?_, Or.inr rfl⟩
        rcases eq_or_ne u t with rfl | hu
        · simp
        · rw [List.mem_append, List.mem_singleton, or_iff_left hu, h.suspended u]
          simp [Function.update_of_ne hu]
      · simp
    · refine ⟨_, _, [], threads, rfl, ?_, Or.inr (Or.inl ⟨htype, rfl, rfl, ?_, (List.append_nil _).symm⟩)⟩
      · refine ⟨h.chain, h.nodup, havailable, h.marked, h.waits, fun u => ?_, Or.inr rfl⟩
        rw [h.suspended u]
        rcases eq_or_ne u t with rfl | hu
        · simp
        · simp [Function.update_of_ne hu]
      · simp
  | cons a free =>
    obtain rfl : threads = [] := h.idle.resolve_right (List.cons_ne_nil a free)
    obtain ⟨hfree, hnodup⟩ := List.nodup_cons.mp h.nodup
    dsimp only
    rw [if_pos (by rw [havailable]; exact Nat.succ_ne_zero _), h.chain.1]
    refine ⟨_, _, free, [], rfl, ?_, Or.inr (Or.inr ⟨htype, a, rfl, rfl, ?_, ?_⟩)⟩
    · refine ⟨?_, hnodup, ?_, fun x => ?_, h.waits, fun u => ?_, Or.inl rfl⟩
      · refine h.chain.2.congr fun x hx => ?_
        show (Function.update p.header a _ x).queueNext = _
        rw [Function.update_of_ne (by rintro rfl; exact hfree hx)]
      · show p.available - 1 = _
        rw [havailable, List.length_cons, Nat.add_sub_cancel]
      · show _ ↔ x ∈ packets ∧ (Function.update p.header a _ x).mark = .free
        rcases eq_or_ne x a with rfl | hx
        · rw [Function.update_self]
          exact ⟨fun hx => absurd hx hfree, fun hx => by cases hx.2⟩
        · rw [Function.update_of_ne hx, ← h.marked x, List.mem_cons, or_iff_right hx]
      · rw [h.suspended u]
        rcases eq_or_ne u t with rfl | hu
        · simp
        · simp [Function.update_of_ne hu]
    · simp
    · simp

theorem invariant_write (h : Invariant packets p free threads) {header : Header}
    (hok : Allowed packets p (.write a header)) :
    Invariant packets { p with header := Function.update p.header a header } free threads := by
  obtain ⟨hin, hmark, hmark'⟩ := hok
  have hnot : a ∉ free := fun hmem => hmark ((h.marked a).mp hmem).2
  refine ⟨h.chain.congr fun x hx => ?_, h.nodup, h.available, fun x => ?_, h.waits, h.suspended, h.idle⟩
  · show (Function.update p.header a header x).queueNext = _
    rw [Function.update_of_ne (by rintro rfl; exact hnot hx)]
  · show _ ↔ x ∈ packets ∧ (Function.update p.header a header x).mark = .free
    rcases eq_or_ne x a with rfl | hx
    · rw [Function.update_self]
      exact ⟨fun hx => absurd hx hnot, fun hx => absurd hx.2 hmark'⟩
    · rw [Function.update_of_ne hx]
      exact h.marked x

/-- A thread leaves, and the others keep their places. --/
theorem invariant_cleanup (h : Invariant packets p free threads) :
    Invariant packets (packetPoolCleanup t p) free (threads.erase t) ∧
      (t ∈ threads → (p.thread t).waiting = true → ((packetPoolCleanup t p).thread t).suspendStatus = .noPacket) := by
  unfold packetPoolCleanup
  by_cases hcleanup : (p.thread t).suspendCleanup = true
  · rw [if_pos hcleanup]
    obtain ⟨front, back, rfl⟩ := List.append_of_mem ((h.suspended t).mpr hcleanup)
    have hmiddle := List.nodup_cons.mp (List.nodup_middle.mp h.waits.nodup)
    have hfront : t ∉ front := fun hmem => hmiddle.1 (List.mem_append_left _ hmem)
    have herase : (front ++ t :: back).erase t = front ++ back := by
      rw [List.erase_append_right _ hfront, List.erase_cons_head]
    rw [herase]
    refine ⟨⟨h.chain, h.nodup, h.available, h.marked, h.waits.remove, fun u => ?_, ?_⟩, fun _ hwaiting => ?_⟩
    · rcases eq_or_ne u t with rfl | hu
      · have hoff : (Function.update p.thread u (if (p.thread u).waiting then
            { p.thread u with suspendCleanup := false, waiting := false, suspendStatus := .noPacket }
            else { p.thread u with suspendCleanup := false }) u).suspendCleanup = false := by
          rw [Function.update_self]
          split <;> rfl
        exact ⟨fun hmem => absurd hmem hmiddle.1, fun hon => by cases hoff.symm.trans hon⟩
      · show _ ↔ (Function.update p.thread t _ u).suspendCleanup = true
        rw [Function.update_of_ne hu, ← h.suspended u, List.mem_append, List.mem_append, List.mem_cons,
          or_iff_right hu]
    · exact Or.inr (h.idle.resolve_left (by simp))
    · show (Function.update p.thread t _ t).suspendStatus = .noPacket
      rw [Function.update_self, if_pos hwaiting]
  · have hnot : t ∉ threads := fun hmem => hcleanup ((h.suspended t).mp hmem)
    rw [if_neg hcleanup, List.erase_of_not_mem hnot]
    exact ⟨h, fun hmem => absurd hmem hnot⟩

/-! ### Every run -/

/-- What a call does to the packets that are available and the threads that wait: the first come, first served. --/
def Promised (packets : Finset Nat) (p : Pool) (free threads : List Nat) (p' : Pool) (free' threads' : List Nat) :
    Call → Prop
  | .allocate t packetType waitOption =>
    (p.payloadSize < packetType ∧ p' = p ∧ free' = free ∧ threads' = threads) ∨
      (packetType ≤ p.payloadSize ∧ free = [] ∧ free' = [] ∧ (p'.thread t).packet = none ∧
        threads' = threads ++ if waitOption then [t] else []) ∨
      (packetType ≤ p.payloadSize ∧ ∃ a, free = a :: free' ∧ threads' = threads ∧ (p'.thread t).packet = some a ∧
        p'.header a = newHeader packetType)
  | .release _ a => ∃ chain, Chain (fun x => (p.header x).next) (some a) chain ∧
      Released packets p p' free threads (releasable p chain) ∧
      free' = ((releasable p chain).drop threads.length).reverse ++ free ∧
      threads' = threads.drop (releasable p chain).length
  | .write _ _ => free' = free ∧ threads' = threads
  | .cleanup t => free' = free ∧ threads' = threads.erase t ∧
      (t ∈ threads → (p.thread t).waiting = true → (p'.thread t).suspendStatus = .noPacket)
  | .terminate t => free' = free ∧ threads' = threads.erase t

theorem invariant_perform (h : Invariant packets p free threads) {call : Call} (hok : Allowed packets p call) :
    ∃ p' free' threads', perform p call = some p' ∧ Invariant packets p' free' threads' ∧
      Promised packets p free threads p' free' threads' call := by
  cases call with
  | allocate t packetType waitOption =>
    obtain ⟨status, p', free', threads', hp, h', hpromised⟩ := invariant_allocate h hok
    exact ⟨p', free', threads', congrArg (Option.map Prod.snd) hp, h', hpromised⟩
  | release rounds a =>
    obtain ⟨chain, hchain, hn, hin, hrounds⟩ := hok
    obtain ⟨status, p', hp, -, hreleased⟩ := packetRelease_spec h hchain hn hin hrounds
    exact ⟨p', _, _, congrArg (Option.map Prod.snd) hp, hreleased.invariant, chain, hchain, hreleased, rfl, rfl⟩
  | write a header => exact ⟨_, free, threads, rfl, invariant_write h hok, rfl, rfl⟩
  | cleanup t =>
    obtain ⟨h', hstatus⟩ := invariant_cleanup (t := t) h
    exact ⟨_, free, threads.erase t, rfl, h', rfl, rfl, hstatus⟩
  | terminate t =>
    have hsame : ∀ u, (Function.update p.thread t { p.thread t with waiting := false } u).suspendCleanup =
        (p.thread u).suspendCleanup := fun u => by
      rcases eq_or_ne u t with rfl | hu
      · rw [Function.update_self]
      · rw [Function.update_of_ne hu]
    have hterminated : Invariant packets
        { p with thread := Function.update p.thread t { p.thread t with waiting := false } } free threads :=
      ⟨h.chain, h.nodup, h.available, h.marked, h.waits, fun u => (h.suspended u).trans (by rw [← hsame u]), h.idle⟩
    exact ⟨_, free, threads.erase t, rfl, (invariant_cleanup hterminated).1, rfl, rfl⟩

theorem invariant_create {n payloadSize : Nat} (hn : 0 < n) (thread : Nat → Thread) (next previous : Nat → Nat) :
    Invariant (Finset.range n) (packetPoolCreate n payloadSize thread next previous) (List.range' 0 n) [] := by
  refine ⟨?_, List.nodup_range', ?_, fun a => ?_, ⟨rfl, List.nodup_nil, rfl⟩, fun t => ?_, Or.inl rfl⟩
  · exact chain_range' (fun a ha => if_pos ha) (fun a ha => if_neg (by omega)) (Nat.zero_add n) hn
  · rw [List.length_range']
    rfl
  · simp [packetPoolCreate]
  · simp [packetPoolCreate]

end

end Netxduo.Packets.Pools
