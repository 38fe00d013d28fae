import Mathlib
import Netxduo.Library.Runs

/-! The container of the traffic shapers of an interface: shapers are created and deleted, the hardware queues are
    configured in the order of their priorities. -/

namespace Netxduo.Tsn.ShaperContainer

open Runs

/-! ### The source -/

/-- `NX_SHAPER_HW_QUEUE`. The type `NX_SHAPER_HW_QUEUE_NONE` is 0. --/
structure HwQueue where
  hwQueueId : Nat
  priority : Nat
  type : UInt8
deriving DecidableEq, Repr, Inhabited

/-- `NX_SHAPER`, which its owner keeps. --/
structure Shaper where
  shaperType : Nat
  shaperDriver : Nat
deriving DecidableEq, Repr

/-- `NX_SHAPER_CONTAINER`. A slot is null or points to a shaper. --/
structure Container where
  portRate : Nat
  shaperCapability : UInt8
  hwQueueNumber : Nat
  shaperNumber : UInt8
  hwQueue : List HwQueue
  shaper : List (Option Nat)
deriving DecidableEq, Repr

/-- What the calls on an interface read and write: the container it is bound to, the containers and the shapers. --/
structure Interface where
  shaperContainer : Option Nat
  container : Nat → Container
  shaper : Nat → Shaper

/-- The statuses that come back. `fault` is a null pointer that is followed, `driver` what a driver answers. --/
inductive Status
  | success
  | invalidParameters
  | noMoreEntries
  | entryNotFound
  | notSupported
  | notSuccessful
  | driver (code : Nat)
  | fault
deriving DecidableEq, Repr

/-- `NX_SHAPER_NUMBERS` --/
def shaperNumbers : Nat := 3

/-- `NX_SHAPER_TYPE_MAX` --/
def shaperTypeMax : Nat := 3

/-- `NX_SHAPER_MAX_SPA_QUEUE_NUM` --/
def maxSpaQueueNum : Nat := 8

/-- `nx_shaper_create`. The loop counts each slot it passes. `init` and `config` are the answers of the driver; what
    the driver does with the container, it does through the other calls, which follow. --/
def shaperCreate (shaperContainer shaper : Option Nat) (shaperType : Nat) (shaperDriver : Option Nat)
    (init config : Status) (s : Interface) : Interface × Status :=
  (shaperContainer.bind fun a => shaper.bind fun b => shaperDriver.map fun d => (a, b, d)).elim
    (s, .invalidParameters) fun (a, b, d) =>
      if shaperType ≥ shaperTypeMax then (s, .invalidParameters)
      else
        let c := s.container a
        if c.shaperNumber.toNat ≥ shaperNumbers then (s, .noMoreEntries)
        else
          let i := c.shaper.findIdx Option.isNone
          let c := { c with shaperNumber := c.shaperNumber + UInt8.ofNat i }
          if i ≥ shaperNumbers then ({ s with container := Function.update s.container a c }, .noMoreEntries)
          else
            let s := {
              shaperContainer := s.shaperContainer.or (some a)
              container := Function.update s.container a { c with shaper := c.shaper.set i (some b) }
              shaper := Function.update s.shaper b ⟨shaperType, d⟩ }
            (s, if init ≠ .success then init else config)

/-- `nx_shaper_delete` --/
def shaperDelete (shaper : Option Nat) (s : Interface) : Interface × Status :=
  s.shaperContainer.elim (s, .success) fun a =>
    let c := s.container a
    let i := c.shaper.findIdx (· == shaper)
    if i ≥ shaperNumbers then (s, .entryNotFound)
    else
      let c := { c with shaper := c.shaper.set i none, shaperNumber := c.shaperNumber - 1 }
      ({ s with
        container := Function.update s.container a c
        shaperContainer := if c.shaperNumber = 0 then none else some a }, .success)

/-- The loop of `memcpy` from the last place down to the one to insert at. --/
def shift (insertId : Nat) : Nat → List HwQueue → List HwQueue
  | 0, l => l
  | i + 1, l => if i + 1 > insertId then shift insertId i (l.set (i + 1) (l.getD i default)) else l

/-- The place of a queue that is configured. --/
def configuredAt (c : Container) (hwQueueId : Nat) : Nat :=
  (c.hwQueue.take c.hwQueueNumber).findIdx fun q => q.hwQueueId == hwQueueId && q.type != 0

/-- The place to insert at: the first that is unused or has a larger priority. --/
def insertAt (c : Container) (priority : Nat) : Nat :=
  (c.hwQueue.take c.hwQueueNumber).findIdx fun q => q.type == 0 || decide (q.priority > priority)

/-- `nx_shaper_hw_queue_set`, with a container bound. --/
def containerHwQueueSet (queue : HwQueue) (c : Container) : Container × Status :=
  let i := configuredAt c queue.hwQueueId
  if i < c.hwQueueNumber then
    let q := c.hwQueue.getD i default
    if q.priority ≠ queue.priority then (c, .invalidParameters)
    else ({ c with hwQueue := c.hwQueue.set i { q with type := q.type ||| queue.type } }, .success)
  else
    let i := insertAt c queue.priority
    if i = c.hwQueueNumber then (c, .notSuccessful)
    else ({ c with hwQueue := (shift i (c.hwQueueNumber - 1) c.hwQueue).set i queue }, .success)

/-- `nx_shaper_hw_queue_set` --/
def shaperHwQueueSet (queue : HwQueue) (s : Interface) : Interface × Status :=
  s.shaperContainer.elim (s, .notSupported) fun a =>
    let r := containerHwQueueSet queue (s.container a)
    ({ s with container := Function.update s.container a r.1 }, r.2)

/-- The loop of `nx_shaper_config`. --/
def setAll : List HwQueue → Container → Container × Status
  | [], c => (c, .success)
  | queue :: queues, c =>
    let r := containerHwQueueSet queue c
    if r.2 ≠ .success then r else setAll queues r.1

/-- `nx_shaper_config`. The number of hardware queues is that of the entries of the array it gets. --/
def shaperConfig (portRate : Nat) (shaperCapability : UInt8) (hwQueue : List HwQueue) (s : Interface) :
    Interface × Status :=
  s.shaperContainer.elim (s, .fault) fun a =>
    let c := s.container a
    let r := setAll hwQueue { c with
      portRate := portRate
      shaperCapability := c.shaperCapability ||| shaperCapability
      hwQueueNumber := hwQueue.length }
    ({ s with container := Function.update s.container a r.1 }, r.2)

inductive Call
  | create (shaperContainer shaper : Option Nat) (shaperType : Nat) (shaperDriver : Option Nat) (init config : Status)
  | delete (shaper : Option Nat)
  | config (portRate : Nat) (shaperCapability : UInt8) (hwQueue : List HwQueue)
  | hwQueueSet (queue : HwQueue)

def perform (s : Interface) : Call → Interface × Status
  | .create container shaper shaperType shaperDriver init config =>
    shaperCreate container shaper shaperType shaperDriver init config s
  | .delete shaper => shaperDelete shaper s
  | .config portRate shaperCapability hwQueue => shaperConfig portRate shaperCapability hwQueue s
  | .hwQueueSet queue => shaperHwQueueSet queue s

def step (s : Interface) (call : Call) : Interface := (perform s call).1

/-! ### What is promised -/

/-- The hardware queues that are configured. --/
def configured (c : Container) : List HwQueue := (c.hwQueue.take c.hwQueueNumber).filter fun q => q.type != 0

/-- The slots that are not null. --/
def present (c : Container) : Nat := c.shaper.countP Option.isSome

/-- The number is that of the shapers, the interface is bound to the one container that has any, the configured queues
    are sorted and different. --/
structure Invariant (s : Interface) : Prop where
  number : ∀ a, (s.container a).shaperNumber.toNat = present (s.container a)
  bound : ∀ a, s.shaperContainer = some a ↔ 0 < present (s.container a)
  sorted : ∀ a, ((configured (s.container a)).map HwQueue.priority).Pairwise (· ≤ ·)
  distinct : ∀ a, ((configured (s.container a)).map HwQueue.hwQueueId).Nodup

/-- A queue is still there, with its priority and the types it had. --/
def Survives (q : HwQueue) (queues : List HwQueue) : Prop :=
  ∃ q' ∈ queues, q'.hwQueueId = q.hwQueueId ∧ q'.priority = q.priority ∧ q.type ||| q'.type = q'.type

/-- What is promised of a call: the invariant, no queue is discarded, and where an error comes back nothing has
    changed. --/
structure Promised (s : Interface) (call : Call) : Prop where
  invariant : Invariant (step s call)
  keeps : ∀ a, ∀ q ∈ configured (s.container a), Survives q (configured ((step s call).container a))
  error : (perform s call).2 ≠ .success →
    (step s call).container = s.container ∧ (step s call).shaperContainer = s.shaperContainer
  noFault : (perform s call).2 ≠ .fault

/-- What tells the queues apart and orders them. --/
def keys (queues : List HwQueue) : List (Nat × Nat) := queues.map fun q => (q.hwQueueId, q.priority)

/-- A queue does no harm: it is configured already, or no configured one has a larger priority, or there is a place for
    it and it has a type. --/
def Accepts (c : Container) (queue : HwQueue) : Prop :=
  queue.hwQueueId ∈ (configured c).map HwQueue.hwQueueId ∨
    (∀ q ∈ configured c, q.priority ≤ queue.priority) ∨
    ((configured c).length < c.hwQueueNumber ∧ queue.type ≠ 0)

/-- Each queue of an array has the priority it was configured with, or is a new one there is a place for. --/
def Admits (n : Nat) : List (Nat × Nat) → List HwQueue → Prop
  | _, [] => True
  | known, q :: queues =>
    if q.hwQueueId ∈ known.map Prod.fst then (q.hwQueueId, q.priority) ∈ known ∧ Admits n known queues
    else known.length < n ∧
      if q.type = 0 then (∀ k ∈ known, k.2 ≤ q.priority) ∧ Admits n known queues
      else Admits n ((q.hwQueueId, q.priority) :: known) queues

/-- A shaper is created in the second slot, behind one and in front of none, and its driver has no error; one that is
    deleted is not null, or no slot is; the number of queues is that of the array at most and keeps those that are
    configured. --/
def Allowed (s : Interface) : Call → Prop
  | .create container shaper shaperType shaperDriver init config =>
    shaper = none ∨ shaperDriver = none ∨ shaperTypeMax ≤ shaperType ∨ ∀ a, container = some a →
      shaperNumbers ≤ (s.container a).shaperNumber.toNat ∨
        ((s.container a).shaper.findIdx Option.isNone = 1 ∧ init = .success ∧ config = .success)
  | .delete shaper => shaper ≠ none ∨ ∀ a, s.shaperContainer = some a → none ∉ (s.container a).shaper
  | .config _ _ hwQueue => ∃ a, s.shaperContainer = some a ∧ hwQueue.length ≤ maxSpaQueueNum ∧
      (configured (s.container a)).length ≤ hwQueue.length ∧
      Admits hwQueue.length (keys (configured (s.container a))) hwQueue
  | .hwQueueSet queue => ∀ a, s.shaperContainer = some a → Accepts (s.container a) queue

/-! ### Shifting -/

theorem length_shift : ∀ {i n : Nat} {l : List HwQueue}, (shift i n l).length = l.length
  | _, 0, _ => rfl
  | i, n + 1, l => by
    rw [shift]
    split
    · rw [length_shift, List.length_set]
    · rfl

/-- Every place above the one to insert at gets what was in front of it. --/
theorem getElem?_shift : ∀ {i n : Nat} {l : List HwQueue} (j : Nat), n < l.length →
    (shift i n l)[j]? = if i < j ∧ j ≤ n then l[j - 1]? else l[j]?
  | i, 0, l, j, _ => by
    rw [shift, if_neg (by omega)]
  | i, n + 1, l, j, h => by
    rw [shift]
    split
    · rename_i hi
      rw [getElem?_shift j (by rw [List.length_set]; omega), List.getElem?_set, List.getElem?_set]
      by_cases hj : j = n + 1
      · subst hj
        rw [if_neg (by omega), if_pos rfl, if_pos h, if_pos (by omega), Nat.add_sub_cancel,
          List.getD_eq_getElem _ _ (by omega), List.getElem?_eq_getElem (by omega)]
      · rw [if_neg (Ne.symm hj)]
        by_cases hin : i < j ∧ j ≤ n
        · rw [if_pos hin, if_neg (by omega), if_pos (by omega)]
        · rw [if_neg hin, if_neg (by omega)]
    · rw [if_neg (by omega)]

/-- A queue that is inserted moves those behind its place by one, and the last one falls out. --/
theorem set_shift {l : List HwQueue} {q : HwQueue} {i n : Nat} (hi : i < n) (hn : n ≤ l.length) :
    (shift i (n - 1) l).set i q = l.take i ++ q :: (l.drop i).take (n - 1 - i) ++ l.drop n := by
  refine List.ext_getElem? fun j => ?_
  rw [List.getElem?_set, length_shift, getElem?_shift j (by omega), List.append_assoc]
  by_cases hj : i = j
  · subst hj
    rw [if_pos rfl, if_pos (by omega), List.getElem?_append_right (by rw [List.length_take]; omega), List.length_take,
      min_eq_left (by omega), Nat.sub_self]
    rfl
  rw [if_neg hj]
  by_cases hlow : j < i
  · rw [if_neg (by omega), List.getElem?_append_left (by rw [List.length_take]; omega), List.getElem?_take_of_lt hlow]
  have hlen : (l.take i).length = i := by
    rw [List.length_take]
    omega
  obtain ⟨k, rfl⟩ : ∃ k, j = i + 1 + k := ⟨j - i - 1, by omega⟩
  rw [List.getElem?_append_right (by omega), hlen, show i + 1 + k - i = k + 1 by omega, List.cons_append,
    List.getElem?_cons_succ]
  have hmid : ((l.drop i).take (n - 1 - i)).length = n - 1 - i := by
    rw [List.length_take, List.length_drop]
    omega
  by_cases hhigh : i + 1 + k < n
  · rw [if_pos (by omega), List.getElem?_append_left (by omega), List.getElem?_take_of_lt (by omega),
      List.getElem?_drop]
    congr 1
    omega
  · rw [if_neg (by omega), List.getElem?_append_right (by omega), hmid, List.getElem?_drop]
    congr 1
    omega

/-! ### The configured queues in front -/

/-- The configured queues are in front of the unused places, and within the number of queues there are. --/
structure Shaped (c : Container) (queues : List HwQueue) : Prop where
  split : ∃ rest, c.hwQueue = queues ++ rest ∧ ∀ q ∈ rest, q.type = 0
  used : ∀ q ∈ queues, q.type ≠ 0
  fits : queues.length ≤ c.hwQueueNumber
  room : c.hwQueueNumber ≤ maxSpaQueueNum
  length : c.hwQueue.length = maxSpaQueueNum
  slots : c.shaper.length = shaperNumbers

/-- Sorted by priority, with no identifier twice. --/
structure Ordered (queues : List HwQueue) : Prop where
  sorted : (queues.map HwQueue.priority).Pairwise (· ≤ ·)
  distinct : (queues.map HwQueue.hwQueueId).Nodup

section
variable {c : Container} {queues : List HwQueue} {queue : HwQueue} {s : Interface}

theorem Shaped.take (h : Shaped c queues) :
    ∃ rest, c.hwQueue.take c.hwQueueNumber = queues ++ rest ∧ ∀ q ∈ rest, q.type = 0 := by
  obtain ⟨rest, hsplit, hrest⟩ := h.split
  refine ⟨rest.take (c.hwQueueNumber - queues.length), ?_, fun q hq => hrest q (List.mem_of_mem_take hq)⟩
  rw [hsplit, List.take_append, List.take_of_length_le h.fits]

theorem Shaped.configured (h : Shaped c queues) : configured c = queues := by
  obtain ⟨rest, htake, hrest⟩ := h.take
  have hused : queues.filter (fun q => q.type != 0) = queues :=
    List.filter_eq_self.mpr fun q hq => by simpa using h.used q hq
  have hunused : rest.filter (fun q => q.type != 0) = [] :=
    List.filter_eq_nil_iff.mpr fun q hq => by simpa using hrest q hq
  rw [ShaperContainer.configured, htake, List.filter_append, hused, hunused, List.append_nil]

theorem findIdx_congr {p p' : HwQueue → Bool} : ∀ {l : List HwQueue}, (∀ q ∈ l, p q = p' q) →
    l.findIdx p = l.findIdx p'
  | [], _ => rfl
  | q :: l, h => by
    rw [List.findIdx_cons, List.findIdx_cons, h q List.mem_cons_self,
      findIdx_congr fun x hx => h x (List.mem_cons_of_mem _ hx)]

/-- An unused place is as good as the end of the configured queues. --/
theorem Shaped.insertAt (h : Shaped c queues) (priority : Nat) :
    insertAt c priority = queues.findIdx fun q => decide (q.priority > priority) := by
  obtain ⟨rest, htake, hrest⟩ := h.take
  have hfront : queues.findIdx (fun q => q.type == 0 || decide (q.priority > priority)) =
      queues.findIdx fun q => decide (q.priority > priority) :=
    findIdx_congr fun q hq => by simp [h.used q hq]
  have hzero : rest.findIdx (fun q => q.type == 0 || decide (q.priority > priority)) = 0 := by
    cases rest with
    | nil => rfl
    | cons q rest => simp [List.findIdx_cons, hrest q List.mem_cons_self]
  have hle := @List.findIdx_le_length _ (fun q => decide (q.priority > priority)) queues
  rw [ShaperContainer.insertAt, htake, List.findIdx_append, hfront, hzero]
  split <;> omega

theorem Shaped.configuredAt_known (h : Shaped c queues) {d : Nat} (hd : d ∈ queues.map HwQueue.hwQueueId) :
    ∃ i, ∃ hi : i < queues.length, configuredAt c d = i ∧ queues[i].hwQueueId = d := by
  obtain ⟨rest, htake, -⟩ := h.take
  obtain ⟨q, hq, hid⟩ := List.mem_map.mp hd
  have hex : ∃ q ∈ queues, (q.hwQueueId == d && q.type != 0) = true := ⟨q, hq, by simp [hid, h.used q hq]⟩
  have hlt := List.findIdx_lt_length_of_exists hex
  refine ⟨_, hlt, ?_, ?_⟩
  · rw [configuredAt, htake, List.findIdx_append, if_pos hlt]
  · have := @List.findIdx_getElem _ _ queues hlt
    simp only [Bool.and_eq_true, beq_iff_eq] at this
    exact this.1

theorem Shaped.configuredAt_new (h : Shaped c queues) {d : Nat} (hd : d ∉ queues.map HwQueue.hwQueueId) :
    ¬configuredAt c d < c.hwQueueNumber := by
  obtain ⟨rest, htake, hrest⟩ := h.take
  have hlen : (c.hwQueue.take c.hwQueueNumber).length = c.hwQueueNumber := by
    rw [List.length_take, h.length, min_eq_left h.room]
  intro hlt
  rw [← hlen, configuredAt, List.findIdx_lt_length] at hlt
  obtain ⟨q, hq, hp⟩ := hlt
  simp only [Bool.and_eq_true, beq_iff_eq, bne_iff_ne] at hp
  rw [htake] at hq
  rcases List.mem_append.mp hq with hq | hq
  · exact hd (List.mem_map.mpr ⟨q, hq, hp.1⟩)
  · exact hp.2 (hrest q hq)

/-- A queue that is configured gets the types it is set with, where its priority is the same. --/
theorem set_known (h : Shaped c queues) (hd : queue.hwQueueId ∈ queues.map HwQueue.hwQueueId) :
    ∃ i, ∃ hi : i < queues.length, queues[i].hwQueueId = queue.hwQueueId ∧
      containerHwQueueSet queue c = if queues[i].priority ≠ queue.priority then (c, .invalidParameters)
        else ({ c with hwQueue := c.hwQueue.set i { queues[i] with type := queues[i].type ||| queue.type } },
          .success) := by
  obtain ⟨i, hi, hat, hid⟩ := h.configuredAt_known hd
  obtain ⟨rest, hsplit, -⟩ := h.split
  have hget : c.hwQueue.getD i default = queues[i] := by
    rw [hsplit, List.getD_append _ _ _ _ hi, List.getD_eq_getElem _ _ hi]
  refine ⟨i, hi, hid, ?_⟩
  unfold containerHwQueueSet
  dsimp only
  rw [hat, if_pos (hi.trans_le h.fits), hget]

/-- A queue that is not configured goes in front of the first one of a larger priority. --/
theorem set_new (h : Shaped c queues) (hd : queue.hwQueueId ∉ queues.map HwQueue.hwQueueId) {i : Nat}
    (hi : i = queues.findIdx fun q => decide (q.priority > queue.priority)) :
    containerHwQueueSet queue c = if i = c.hwQueueNumber then (c, .notSuccessful)
      else ({ c with hwQueue := (shift i (c.hwQueueNumber - 1) c.hwQueue).set i queue }, .success) := by
  unfold containerHwQueueSet
  dsimp only
  rw [if_neg (h.configuredAt_new hd), h.insertAt, ← hi]

/-! ### What one queue does -/

theorem Survives.refl {q : HwQueue} (h : q ∈ queues) : Survives q queues := ⟨q, h, rfl, rfl, UInt8.or_self⟩

theorem Survives.trans {queues' : List HwQueue} {q : HwQueue} (h : Survives q queues)
    (hall : ∀ x ∈ queues, Survives x queues') : Survives q queues' := by
  obtain ⟨x, hx, hid, hpriority, htype⟩ := h
  obtain ⟨y, hy, hid', hpriority', htype'⟩ := hall x hx
  refine ⟨y, hy, hid'.trans hid, hpriority'.trans hpriority, ?_⟩
  rw [← htype', ← UInt8.or_assoc, htype]

/-- The configured queues after a call, and what the call has left as it was. --/
structure Kept (c : Container) (queues : List HwQueue) (c' : Container) (queues' : List HwQueue) : Prop where
  shaped : Shaped c' queues'
  ordered : Ordered queues'
  keeps : ∀ q ∈ queues, Survives q queues'
  hwQueueNumber : c'.hwQueueNumber = c.hwQueueNumber
  shaper : c'.shaper = c.shaper
  shaperNumber : c'.shaperNumber = c.shaperNumber

theorem Kept.refl (h : Shaped c queues) (ho : Ordered queues) : Kept c queues c queues :=
  ⟨h, ho, fun _ hq => .refl hq, rfl, rfl, rfl⟩

theorem Ordered.keys_eq {queues' : List HwQueue} (h : Ordered queues) (hk : keys queues' = keys queues) :
    Ordered queues' := by
  have hid : queues'.map HwQueue.hwQueueId = queues.map HwQueue.hwQueueId := by
    have h := congrArg (List.map Prod.fst) hk
    rw [keys, keys, List.map_map, List.map_map] at h
    exact h
  have hpriority : queues'.map HwQueue.priority = queues.map HwQueue.priority := by
    have h := congrArg (List.map Prod.snd) hk
    rw [keys, keys, List.map_map, List.map_map] at h
    exact h
  exact ⟨hpriority ▸ h.sorted, hid ▸ h.distinct⟩

/-- More types for a queue that is configured. --/
theorem kept_types (h : Shaped c queues) (ho : Ordered queues) {i : Nat} (hi : i < queues.length) (t : UInt8) :
    let q : HwQueue := { queues[i] with type := queues[i].type ||| t }
    Kept c queues { c with hwQueue := c.hwQueue.set i q } (queues.set i q) ∧ keys (queues.set i q) = keys queues := by
  intro q
  obtain ⟨rest, hsplit, hrest⟩ := h.split
  have hkeys : keys (queues.set i q) = keys queues := by
    rw [keys, List.map_set]
    exact List.ext_getElem? fun j => by
      rw [List.getElem?_set]
      split
      · rename_i hj
        subst hj
        simp [keys, hi, q]
      · rfl
  refine ⟨⟨⟨⟨rest, ?_, hrest⟩, fun x hx => ?_, ?_, h.room, ?_, h.slots⟩, ho.keys_eq hkeys, fun x hx => ?_, rfl, rfl,
    rfl⟩, hkeys⟩
  · show c.hwQueue.set i q = _
    rw [hsplit, List.set_append_left _ _ hi]
  · rcases List.mem_or_eq_of_mem_set hx with hx | rfl
    · exact h.used x hx
    · intro hz
      exact h.used _ (List.getElem_mem hi) (UInt8.or_eq_zero_iff.mp hz).1
  · rw [List.length_set]
    exact h.fits
  · show (c.hwQueue.set i q).length = _
    rw [List.length_set]
    exact h.length
  · obtain ⟨j, hj, rfl⟩ := List.getElem_of_mem hx
    by_cases hij : i = j
    · subst hij
      refine ⟨q, List.mem_set hi _, rfl, rfl, ?_⟩
      show queues[i].type ||| (queues[i].type ||| t) = queues[i].type ||| t
      rw [← UInt8.or_assoc, UInt8.or_self]
    · exact .refl (List.mem_iff_getElem.mpr ⟨j, by rwa [List.length_set], List.getElem_set_ne hij _⟩)

/-- Those in front of the place have no larger priority, those behind it have. --/
theorem place_spec (ho : Ordered queues) {i p : Nat} (hi : i = queues.findIdx fun q => decide (q.priority > p)) :
    (∀ q ∈ queues.take i, q.priority ≤ p) ∧ ∀ q ∈ queues.drop i, p < q.priority := by
  refine ⟨fun q hq => ?_, fun q hq => ?_⟩
  · obtain ⟨j, hj, rfl⟩ := List.mem_take_iff_getElem.mp hq
    have hlow := @List.not_of_lt_findIdx _ (fun q => decide (q.priority > p)) queues j (by omega)
    simpa using hlow
  · obtain ⟨j, hj, rfl⟩ := List.mem_drop_iff_getElem.mp hq
    have hlt : i < queues.length := by omega
    have hat : p < queues[i].priority := by
      have := @List.findIdx_getElem _ (fun q => decide (q.priority > p)) queues (hi ▸ hlt)
      simpa [← hi] using this
    rcases Nat.eq_zero_or_pos j with rfl | hpos
    · exact hat
    · have hsorted := List.pairwise_map.mp ho.sorted
      exact hat.trans_le (List.pairwise_iff_getElem.mp hsorted i (i + j) hlt (by omega) (by omega))

/-- A new queue at its place, where there is room. --/
theorem kept_insert (h : Shaped c queues) (ho : Ordered queues) {i : Nat}
    (hi : i = queues.findIdx fun q => decide (q.priority > queue.priority))
    (hd : queue.hwQueueId ∉ queues.map HwQueue.hwQueueId) (hroom : queues.length < c.hwQueueNumber)
    (htype : queue.type ≠ 0) :
    Kept c queues { c with hwQueue := (shift i (c.hwQueueNumber - 1) c.hwQueue).set i queue }
      (queues.take i ++ queue :: queues.drop i) := by
  obtain ⟨rest, hsplit, hrest⟩ := h.split
  obtain ⟨hlow, hhigh⟩ := place_spec ho hi
  have hle : i ≤ queues.length := hi ▸ List.findIdx_le_length
  have hlength := h.length
  have hnumber := h.room
  have hrestLength : rest.length = c.hwQueue.length - queues.length := by
    rw [hsplit, List.length_append, Nat.add_sub_cancel_left]
  have hperm : (queues.take i ++ queue :: queues.drop i).Perm (queue :: queues) := by
    refine List.perm_middle.trans ?_
    rw [List.take_append_drop]
  have hmem : ∀ q ∈ queues, q ∈ queues.take i ++ queue :: queues.drop i := fun q hq =>
    hperm.mem_iff.mpr (List.mem_cons_of_mem _ hq)
  refine ⟨⟨⟨rest.take (c.hwQueueNumber - 1 - queues.length) ++ rest.drop (c.hwQueueNumber - queues.length), ?_,
    fun q hq => ?_⟩, fun q hq => ?_, ?_, h.room, ?_, h.slots⟩, ⟨?_, ?_⟩, fun q hq => .refl (hmem q hq), rfl, rfl, rfl⟩
  · show (shift i (c.hwQueueNumber - 1) c.hwQueue).set i queue = _
    have hmiddle : (queues.drop i ++ rest).take (c.hwQueueNumber - 1 - i) =
        queues.drop i ++ rest.take (c.hwQueueNumber - 1 - queues.length) := by
      have hlen : (queues.drop i).length = queues.length - i := List.length_drop
      rw [List.take_append, List.take_of_length_le (by omega), hlen]
      congr 2
      omega
    have hend : (queues ++ rest).drop c.hwQueueNumber = rest.drop (c.hwQueueNumber - queues.length) := by
      rw [List.drop_append, List.drop_of_length_le (by omega), List.nil_append]
    rw [set_shift (by omega) (by omega), hsplit, List.take_append_of_le_length hle, List.drop_append_of_le_length hle,
      hmiddle, hend]
    simp
  · rcases List.mem_append.mp hq with hq | hq
    · exact hrest q (List.mem_of_mem_take hq)
    · exact hrest q (List.mem_of_mem_drop hq)
  · rcases List.mem_cons.mp (hperm.mem_iff.mp hq) with rfl | hq
    · exact htype
    · exact h.used q hq
  · rw [hperm.length_eq]
    exact hroom
  · show ((shift i (c.hwQueueNumber - 1) c.hwQueue).set i queue).length = _
    rw [List.length_set, length_shift]
    exact h.length
  · have hsorted := List.pairwise_map.mp ho.sorted
    rw [← List.take_append_drop i queues, List.pairwise_append] at hsorted
    obtain ⟨hfront, hback, hcross⟩ := hsorted
    refine List.pairwise_map.mpr (List.pairwise_append.mpr ⟨hfront, List.pairwise_cons.mpr ⟨fun q hq =>
      (hhigh q hq).le, hback⟩, fun x hx y hy => ?_⟩)
    rcases List.mem_cons.mp hy with rfl | hy
    · exact hlow x hx
    · exact hcross x hx y hy
  · rw [(hperm.map _).nodup_iff]
    exact List.nodup_cons.mpr ⟨hd, ho.distinct⟩

/-- A queue of no type behind the configured ones leaves them as they are. --/
theorem kept_unused (h : Shaped c queues) (ho : Ordered queues) (hroom : queues.length < c.hwQueueNumber)
    (htype : queue.type = 0) :
    Kept c queues { c with hwQueue := (shift queues.length (c.hwQueueNumber - 1) c.hwQueue).set queues.length queue }
      queues := by
  obtain ⟨rest, hsplit, hrest⟩ := h.split
  have hlength := h.length
  have hnumber := h.room
  refine ⟨⟨⟨queue :: (rest.take (c.hwQueueNumber - 1 - queues.length) ++ rest.drop (c.hwQueueNumber - queues.length)),
    ?_, fun q hq => ?_⟩, h.used, h.fits, h.room, ?_, h.slots⟩, ho, fun q hq => .refl hq, rfl, rfl, rfl⟩
  · show (shift queues.length (c.hwQueueNumber - 1) c.hwQueue).set queues.length queue = _
    rw [set_shift hroom (by omega), hsplit, List.take_left, List.drop_left, List.drop_append,
      List.drop_of_length_le (by omega)]
    simp
  · rcases List.mem_cons.mp hq with rfl | hq
    · exact htype
    rcases List.mem_append.mp hq with hq | hq
    · exact hrest q (List.mem_of_mem_take hq)
    · exact hrest q (List.mem_of_mem_drop hq)
  · show ((shift queues.length (c.hwQueueNumber - 1) c.hwQueue).set queues.length queue).length = _
    rw [List.length_set, length_shift]
    exact h.length

/-- The call for one queue keeps the order, where the queue does no harm. --/
theorem set_spec (h : Shaped c queues) (ho : Ordered queues) (hok : Accepts c queue) :
    (∃ queues', Kept c queues (containerHwQueueSet queue c).1 queues') ∧
      ((containerHwQueueSet queue c).2 ≠ .success → (containerHwQueueSet queue c).1 = c) ∧
      (containerHwQueueSet queue c).2 ≠ .fault := by
  unfold Accepts at hok
  rw [h.configured] at hok
  by_cases hd : queue.hwQueueId ∈ queues.map HwQueue.hwQueueId
  · obtain ⟨i, hi, -, hset⟩ := set_known h hd
    rw [hset]
    split
    · exact ⟨⟨queues, .refl h ho⟩, fun _ => rfl, by simp⟩
    · exact ⟨⟨_, (kept_types h ho hi queue.type).1⟩, fun hne => absurd rfl hne, by simp⟩
  · obtain ⟨i, hi⟩ : ∃ i, i = queues.findIdx fun q => decide (q.priority > queue.priority) := ⟨_, rfl⟩
    have hle : i ≤ queues.length := hi ▸ List.findIdx_le_length
    have hfits := h.fits
    rw [set_new h hd hi]
    split
    · exact ⟨⟨queues, .refl h ho⟩, fun _ => rfl, by simp⟩
    rename_i hplace
    refine ⟨?_, fun hne => absurd rfl hne, by simp⟩
    by_cases hlast : i = queues.length
    · have hroom : queues.length < c.hwQueueNumber := by omega
      by_cases htype : queue.type = 0
      · rw [hlast]
        exact ⟨queues, kept_unused h ho hroom htype⟩
      · exact ⟨_, kept_insert h ho hi hd hroom htype⟩
    · -- A configured queue has a larger priority.
      obtain ⟨-, hhigh⟩ := place_spec ho hi
      have hlt : i < queues.length := by omega
      have hlarger : queue.priority < queues[i].priority :=
        hhigh _ (List.mem_drop_iff_getElem.mpr ⟨0, by omega, by simp⟩)
      rcases hok with hok | hok | ⟨hroom, htype⟩
      · exact absurd hok hd
      · exact absurd (hok _ (List.getElem_mem hlt)) (by omega)
      · exact ⟨_, kept_insert h ho hi hd hroom htype⟩

theorem mem_map_fst_keys {d : Nat} : d ∈ (keys queues).map Prod.fst ↔ d ∈ queues.map HwQueue.hwQueueId := by
  rw [keys, List.map_map]
  rfl

/-- The order of the known queues is of no account. --/
theorem Admits.perm {n : Nat} : ∀ {new : List HwQueue} {known known' : List (Nat × Nat)}, known.Perm known' →
    Admits n known new → Admits n known' new
  | [], _, _, _, _ => trivial
  | q :: new, known, known', hp, h => by
    unfold Admits at h ⊢
    by_cases hd : q.hwQueueId ∈ known.map Prod.fst
    · rw [if_pos hd] at h
      rw [if_pos ((hp.map _).mem_iff.mp hd)]
      exact ⟨hp.mem_iff.mp h.1, h.2.perm hp⟩
    · rw [if_neg hd] at h
      rw [if_neg (fun hm => hd ((hp.map _).mem_iff.mpr hm)), ← hp.length_eq]
      refine ⟨h.1, ?_⟩
      split
      · rename_i htype
        rw [if_pos htype] at h
        exact ⟨fun k hk => h.2.1 k (hp.mem_iff.mpr hk), h.2.2.perm hp⟩
      · rename_i htype
        rw [if_neg htype] at h
        exact h.2.perm (hp.cons _)

/-- A queue that is admitted is set, and the rest of the array is admitted behind it. --/
theorem set_admitted {new : List HwQueue} (h : Shaped c queues) (ho : Ordered queues)
    (hok : Admits c.hwQueueNumber (keys queues) (queue :: new)) :
    (containerHwQueueSet queue c).2 = .success ∧ ∃ queues', Kept c queues (containerHwQueueSet queue c).1 queues' ∧
      Admits c.hwQueueNumber (keys queues') new := by
  unfold Admits at hok
  by_cases hd : queue.hwQueueId ∈ queues.map HwQueue.hwQueueId
  · rw [if_pos (mem_map_fst_keys.mpr hd)] at hok
    obtain ⟨i, hi, hid, hset⟩ := set_known h hd
    have hsame : queues[i].priority = queue.priority := by
      obtain ⟨q, hq, hkey⟩ := List.mem_map.mp hok.1
      obtain ⟨hqid, hqpriority⟩ := Prod.mk.inj hkey
      have hone := List.inj_on_of_nodup_map ho.distinct (List.getElem_mem hi) hq (hid.trans hqid.symm)
      rw [hone, hqpriority]
    rw [hset, if_neg (not_not.mpr hsame)]
    obtain ⟨hkept, hkeys⟩ := kept_types h ho hi queue.type
    exact ⟨rfl, _, hkept, by rw [hkeys]; exact hok.2⟩
  · rw [if_neg (fun hm => hd (mem_map_fst_keys.mp hm))] at hok
    obtain ⟨hroom, hok⟩ := hok
    rw [keys, List.length_map] at hroom
    obtain ⟨i, hi⟩ : ∃ i, i = queues.findIdx fun q => decide (q.priority > queue.priority) := ⟨_, rfl⟩
    have hle : i ≤ queues.length := hi ▸ List.findIdx_le_length
    rw [set_new h hd hi, if_neg (by omega)]
    refine ⟨rfl, ?_⟩
    by_cases htype : queue.type = 0
    · rw [if_pos htype] at hok
      have hlast : i = queues.length := by
        rw [hi, List.findIdx_eq_length]
        intro q hq
        have := hok.1 _ (List.mem_map_of_mem (f := fun q : HwQueue => (q.hwQueueId, q.priority)) hq)
        simpa using this
      rw [hlast]
      exact ⟨queues, kept_unused h ho hroom htype, hok.2⟩
    · rw [if_neg htype] at hok
      refine ⟨_, kept_insert h ho hi hd hroom htype, hok.perm ?_⟩
      refine List.Perm.trans ?_ (List.Perm.map _ List.perm_middle.symm)
      rw [List.map_cons, List.take_append_drop]
      rfl

/-- An array that is admitted is set. --/
theorem setAll_spec : ∀ {new : List HwQueue} {c : Container} {queues : List HwQueue}, Shaped c queues →
    Ordered queues → Admits c.hwQueueNumber (keys queues) new →
    (setAll new c).2 = .success ∧ ∃ queues', Kept c queues (setAll new c).1 queues'
  | [], _, queues, h, ho, _ => ⟨rfl, queues, .refl h ho⟩
  | queue :: new, c, queues, h, ho, hok => by
    obtain ⟨hsuccess, queues', hkept, hrest⟩ := set_admitted h ho hok
    obtain ⟨hall, queues'', hkept'⟩ := setAll_spec hkept.shaped hkept.ordered (hkept.hwQueueNumber ▸ hrest)
    rw [setAll, if_neg (not_not.mpr hsuccess)]
    exact ⟨hall, queues'', hkept'.shaped, hkept'.ordered, fun q hq => (hkept.keeps q hq).trans hkept'.keeps,
      hkept'.hwQueueNumber.trans hkept.hwQueueNumber, hkept'.shaper.trans hkept.shaper,
      hkept'.shaperNumber.trans hkept.shaperNumber⟩

/-! ### The calls -/

/-- The invariant, and the configured queues in front in every container. --/
structure Well (s : Interface) : Prop where
  invariant : Invariant s
  shaped : ∀ a, ∃ queues, Shaped (s.container a) queues

theorem Well.ordered (h : Well s) {a : Nat} (hq : Shaped (s.container a) queues) : Ordered queues :=
  ⟨hq.configured ▸ h.invariant.sorted a, hq.configured ▸ h.invariant.distinct a⟩

/-- One container changes, as far as its queues are kept and its shapers are counted. --/
theorem Well.update (h : Well s) {t : Interface} {a : Nat} {c' : Container} {queues' : List HwQueue}
    (hcontainer : t.container = Function.update s.container a c') (hq : Shaped (s.container a) queues)
    (hshaped : Shaped c' queues') (hordered : Ordered queues') (hkeeps : ∀ q ∈ queues, Survives q queues')
    (hnumber : c'.shaperNumber.toNat = present c')
    (hself : t.shaperContainer = some a ↔ 0 < present c')
    (hother : ∀ x, x ≠ a → (t.shaperContainer = some x ↔ s.shaperContainer = some x)) :
    Well t ∧ ∀ x, ∀ q ∈ configured (s.container x), Survives q (configured (t.container x)) := by
  have hat : t.container a = c' := by rw [hcontainer, Function.update_self]
  have hne : ∀ x, x ≠ a → t.container x = s.container x := fun x hx => by rw [hcontainer, Function.update_of_ne hx]
  refine ⟨⟨⟨fun x => ?_, fun x => ?_, fun x => ?_, fun x => ?_⟩, fun x => ?_⟩, fun x => ?_⟩ <;>
    rcases eq_or_ne x a with rfl | hx
  · rwa [hat]
  · rw [hne x hx]
    exact h.invariant.number x
  · rwa [hat]
  · rw [hne x hx, hother x hx]
    exact h.invariant.bound x
  · rw [hat, hshaped.configured]
    exact hordered.sorted
  · rw [hne x hx]
    exact h.invariant.sorted x
  · rw [hat, hshaped.configured]
    exact hordered.distinct
  · rw [hne x hx]
    exact h.invariant.distinct x
  · exact ⟨queues', hat.symm ▸ hshaped⟩
  · rw [hne x hx]
    exact h.shaped x
  · rw [hat, hshaped.configured, hq.configured]
    exact hkeeps
  · rw [hne x hx]
    exact fun q hm => .refl hm

/-- A call that leaves the interface as it is. --/
theorem Well.same (h : Well s) {call : Call} (hsame : step s call = s) (hfault : (perform s call).2 ≠ .fault) :
    Promised s call ∧ Well (step s call) := by
  refine ⟨⟨hsame.symm ▸ h.invariant, fun a q hq => ?_, fun _ => by rw [hsame]; exact ⟨rfl, rfl⟩, hfault⟩,
    hsame.symm ▸ h⟩
  rw [hsame]
  exact .refl hq

/-- Slots other than those of the queues are of no account to them. --/
theorem Shaped.slots_set (h : Shaped c queues) {i : Nat} {x : Option Nat} {n : UInt8} :
    Shaped { c with shaper := c.shaper.set i x, shaperNumber := n } queues :=
  ⟨h.split, h.used, h.fits, h.room, h.length, by
    show (c.shaper.set i x).length = _
    rw [List.length_set]
    exact h.slots⟩

/-- The number of shapers where a slot is taken or given back. --/
theorem present_set {i : Nat} {x : Option Nat} {n : UInt8} (hi : i < c.shaper.length) :
    present { c with shaper := c.shaper.set i x, shaperNumber := n } =
      present c - (if c.shaper[i].isSome then 1 else 0) + if x.isSome then 1 else 0 :=
  List.countP_set hi

theorem create_spec (h : Well s) {container shaper : Option Nat} {shaperType : Nat} {shaperDriver : Option Nat}
    {init config : Status} (hok : Allowed s (.create container shaper shaperType shaperDriver init config)) :
    Promised s (.create container shaper shaperType shaperDriver init config) ∧
      Well (step s (.create container shaper shaperType shaperDriver init config)) := by
  by_cases hnull : container = none ∨ shaper = none ∨ shaperDriver = none ∨ shaperTypeMax ≤ shaperType
  · have hreject : shaperCreate container shaper shaperType shaperDriver init config s = (s, .invalidParameters) := by
      unfold shaperCreate
      rcases hnull with rfl | rfl | rfl | hnull
      · rfl
      · cases container <;> rfl
      · cases container <;> cases shaper <;> rfl
      · cases container <;> cases shaper <;> cases shaperDriver <;> simp [hnull]
    exact h.same (congrArg Prod.fst hreject) (by show (shaperCreate _ _ _ _ _ _ s).2 ≠ _; rw [hreject]; simp)
  simp only [not_or, not_le] at hnull
  obtain ⟨hcontainer, hshaper, hdriver, htype⟩ := hnull
  obtain ⟨a, rfl⟩ := Option.ne_none_iff_exists'.mp hcontainer
  obtain ⟨b, rfl⟩ := Option.ne_none_iff_exists'.mp hshaper
  obtain ⟨d, rfl⟩ := Option.ne_none_iff_exists'.mp hdriver
  have hok : shaperNumbers ≤ (s.container a).shaperNumber.toNat ∨
      ((s.container a).shaper.findIdx Option.isNone = 1 ∧ init = .success ∧ config = .success) := by
    rcases hok with hok | hok | hok | hok
    · cases hok
    · cases hok
    · omega
    · exact hok a rfl
  by_cases hfull : shaperNumbers ≤ (s.container a).shaperNumber.toNat
  · have hreject : shaperCreate (some a) (some b) shaperType (some d) init config s = (s, .noMoreEntries) := by
      simp [shaperCreate, htype, hfull]
    exact h.same (congrArg Prod.fst hreject) (by show (shaperCreate _ _ _ _ _ _ s).2 ≠ _; rw [hreject]; simp)
  obtain ⟨hfirst, rfl, rfl⟩ := hok.resolve_left hfull
  obtain ⟨queues, hq⟩ := h.shaped a
  have hslots : (s.container a).shaper.length = 3 := hq.slots
  have hnumber := h.invariant.number a
  have hone : (s.container a).shaper[1] = none := by
    have := @List.findIdx_getElem _ Option.isNone (s.container a).shaper (by omega)
    simpa [hfirst] using this
  have hzero : (s.container a).shaper[0].isSome := by
    have := @List.not_of_lt_findIdx _ Option.isNone (s.container a).shaper 0 (by omega)
    cases hx : (s.container a).shaper[0] with
    | none => simp [hx] at this
    | some x => rfl
  have hpositive : 0 < present (s.container a) :=
    List.countP_pos_iff.mpr ⟨_, List.getElem_mem (by omega), hzero⟩
  have hbound : s.shaperContainer = some a := (h.invariant.bound a).mpr hpositive
  have hpresent : present { s.container a with
      shaper := (s.container a).shaper.set 1 (some b)
      shaperNumber := (s.container a).shaperNumber + UInt8.ofNat 1 } = present (s.container a) + 1 := by
    rw [present_set (by omega), hone]
    rfl
  have hcreate : shaperCreate (some a) (some b) shaperType (some d) .success .success s =
      ({ shaperContainer := some a
         container := Function.update s.container a { s.container a with
           shaper := (s.container a).shaper.set 1 (some b)
           shaperNumber := (s.container a).shaperNumber + UInt8.ofNat 1 }
         shaper := Function.update s.shaper b ⟨shaperType, d⟩ }, .success) := by
    have hlt : ¬shaperNumbers ≤ 1 := by decide
    simp [shaperCreate, not_le.mpr htype, hfull, hfirst, hbound, hlt]
  obtain ⟨hwell, hkeeps⟩ := h.update (t := (shaperCreate (some a) (some b) shaperType (some d) .success .success s).1)
    (by rw [hcreate]) hq hq.slots_set (h.ordered hq) (fun q hm => .refl hm)
    (by
      rw [hpresent, ← hnumber]
      show (_ + UInt8.ofNat 1).toNat = _
      rw [UInt8.toNat_add, show (UInt8.ofNat 1).toNat = 1 from rfl]
      unfold shaperNumbers at hfull
      omega)
    (by rw [hpresent, hcreate]; simp)
    (fun x hx => by rw [hcreate, hbound])
  exact ⟨⟨hwell.invariant, hkeeps, fun hne => absurd (congrArg Prod.snd hcreate) hne,
    by show (shaperCreate _ _ _ _ _ _ s).2 ≠ _; rw [hcreate]; simp⟩, hwell⟩

theorem delete_spec (h : Well s) {shaper : Option Nat} (hok : Allowed s (.delete shaper)) :
    Promised s (.delete shaper) ∧ Well (step s (.delete shaper)) := by
  cases hbound : s.shaperContainer with
  | none =>
    have hreject : shaperDelete shaper s = (s, .success) := by
      unfold shaperDelete
      rw [hbound]
      rfl
    exact h.same (congrArg Prod.fst hreject) (by show (shaperDelete _ s).2 ≠ _; rw [hreject]; simp)
  | some a =>
  obtain ⟨queues, hq⟩ := h.shaped a
  have hslots : (s.container a).shaper.length = 3 := hq.slots
  by_cases hfound : (s.container a).shaper.findIdx (· == shaper) < (s.container a).shaper.length
  · obtain ⟨i, hi⟩ : ∃ i, i = (s.container a).shaper.findIdx (· == shaper) := ⟨_, rfl⟩
    have hat : (s.container a).shaper[i] = shaper := by
      have := @List.findIdx_getElem _ (· == shaper) (s.container a).shaper hfound
      simpa [hi] using this
    have hsome : (s.container a).shaper[i].isSome := by
      rcases hok with hok | hok
      · rw [hat]
        exact Option.isSome_iff_ne_none.mpr hok
      · exact Option.isSome_iff_ne_none.mpr fun hnone => hok a hbound (hnone ▸ List.getElem_mem _)
    have hpositive : 0 < present (s.container a) := (h.invariant.bound a).mp hbound
    have hnumber := h.invariant.number a
    have hpresent : present { s.container a with
        shaper := (s.container a).shaper.set i none
        shaperNumber := (s.container a).shaperNumber - 1 } = present (s.container a) - 1 := by
      rw [present_set (by omega), if_pos hsome]
      rfl
    have hless : ((s.container a).shaperNumber - 1).toNat = present (s.container a) - 1 := by
      rw [UInt8.toNat_sub_of_le _ _ (by
        rw [UInt8.le_iff_toNat_le, hnumber]
        exact hpositive), hnumber]
      rfl
    have hdelete : shaperDelete shaper s =
        ({ s with
            container := Function.update s.container a { s.container a with
              shaper := (s.container a).shaper.set i none
              shaperNumber := (s.container a).shaperNumber - 1 }
            shaperContainer := if (s.container a).shaperNumber - 1 = 0 then none else some a }, .success) := by
      have hlt : ¬shaperNumbers ≤ i := by
        unfold shaperNumbers
        omega
      simp [shaperDelete, hbound, ← hi, hlt]
    have hzero : (s.container a).shaperNumber - 1 = 0 ↔ present (s.container a) - 1 = 0 := by
      rw [← hless, ← UInt8.toNat_inj]
      rfl
    obtain ⟨hwell, hkeeps⟩ := h.update (t := (shaperDelete shaper s).1)
      (by rw [hdelete]) hq hq.slots_set (h.ordered hq) (fun q hm => .refl hm) (by rw [hpresent]; exact hless)
      (by
        rw [hpresent, hdelete]
        dsimp only
        rw [if_congr hzero rfl rfl]
        split
        · rename_i hz
          simp [hz]
        · rename_i hz
          simpa using Nat.pos_of_ne_zero hz)
      (fun x hx => by
        rw [hdelete, hbound]
        dsimp only
        split <;> simp [hx.symm])
    exact ⟨⟨hwell.invariant, hkeeps, fun hne => absurd (congrArg Prod.snd hdelete) hne,
      by show (shaperDelete _ s).2 ≠ _; rw [hdelete]; simp⟩, hwell⟩
  · have hreject : shaperDelete shaper s = (s, .entryNotFound) := by
      have hge : shaperNumbers ≤ (s.container a).shaper.findIdx (· == shaper) := by
        unfold shaperNumbers
        omega
      simp [shaperDelete, hbound, hge]
    exact h.same (congrArg Prod.fst hreject) (by show (shaperDelete _ s).2 ≠ _; rw [hreject]; simp)

/-- The queues of the container an interface is bound to. --/
theorem queues_spec (h : Well s) {a : Nat} {d : Container} {queues queues' : List HwQueue}
    (hq : Shaped (s.container a) queues)
    (hkept : Kept { c with shaper := (s.container a).shaper, shaperNumber := (s.container a).shaperNumber } queues d
      queues') :
    Well { s with container := Function.update s.container a d } ∧
      ∀ x, ∀ q ∈ configured (s.container x), Survives q (configured (Function.update s.container a d x)) := by
  have hpresent : present d = present (s.container a) := by
    unfold present
    rw [hkept.shaper]
  refine h.update (t := { s with container := Function.update s.container a d }) rfl hq hkept.shaped hkept.ordered
    hkept.keeps ?_ ?_ fun x _ => Iff.rfl
  · rw [hpresent, hkept.shaperNumber]
    exact h.invariant.number a
  · rw [hpresent]
    exact h.invariant.bound a

theorem hwQueueSet_spec (h : Well s) (hok : Allowed s (.hwQueueSet queue)) :
    Promised s (.hwQueueSet queue) ∧ Well (step s (.hwQueueSet queue)) := by
  cases hbound : s.shaperContainer with
  | none =>
    have hreject : shaperHwQueueSet queue s = (s, .notSupported) := by
      unfold shaperHwQueueSet
      rw [hbound]
      rfl
    exact h.same (congrArg Prod.fst hreject) (by show (shaperHwQueueSet _ s).2 ≠ _; rw [hreject]; simp)
  | some a =>
    obtain ⟨queues, hq⟩ := h.shaped a
    obtain ⟨⟨queues', hkept⟩, herror, hfault⟩ := set_spec hq (h.ordered hq) (hok a hbound)
    have hset : shaperHwQueueSet queue s = ({ s with
        container := Function.update s.container a (containerHwQueueSet queue (s.container a)).1 },
        (containerHwQueueSet queue (s.container a)).2) := by
      unfold shaperHwQueueSet
      rw [hbound]
      rfl
    obtain ⟨hwell, hkeeps⟩ := queues_spec h hq hkept
    have hstep : step s (.hwQueueSet queue) = { s with
        container := Function.update s.container a (containerHwQueueSet queue (s.container a)).1 } :=
      congrArg Prod.fst hset
    have hstatus : (perform s (.hwQueueSet queue)).2 = (containerHwQueueSet queue (s.container a)).2 :=
      congrArg Prod.snd hset
    refine ⟨⟨hstep ▸ hwell.invariant, by rw [hstep]; exact hkeeps, fun hne => ?_, by rwa [hstatus]⟩, hstep ▸ hwell⟩
    rw [hstep, herror (hstatus ▸ hne), Function.update_eq_self]
    exact ⟨rfl, rfl⟩

theorem config_spec (h : Well s) {portRate : Nat} {capability : UInt8} {new : List HwQueue}
    (hok : Allowed s (.config portRate capability new)) :
    Promised s (.config portRate capability new) ∧ Well (step s (.config portRate capability new)) := by
  obtain ⟨a, hbound, hroom, hfits, hok⟩ := hok
  obtain ⟨queues, hq⟩ := h.shaped a
  rw [hq.configured] at hfits hok
  obtain ⟨c, hc⟩ : ∃ c, c = { s.container a with
    portRate := portRate
    shaperCapability := (s.container a).shaperCapability ||| capability
    hwQueueNumber := new.length } := ⟨_, rfl⟩
  have hshaped : Shaped c queues := by
    rw [hc]
    exact ⟨hq.split, hq.used, hfits, hroom, hq.length, hq.slots⟩
  obtain ⟨hsuccess, queues', hkept⟩ := setAll_spec (c := c) (by exact hshaped) (h.ordered hq)
    (show Admits c.hwQueueNumber (keys queues) new by rw [hc]; exact hok)
  have hconfig : shaperConfig portRate capability new s = ({ s with
      container := Function.update s.container a (setAll new c).1 }, (setAll new c).2) := by
    unfold shaperConfig
    rw [hbound, hc]
    rfl
  obtain ⟨hwell, hkeeps⟩ := queues_spec (c := c) (d := (setAll new c).1) h hq ⟨hkept.shaped, hkept.ordered, hkept.keeps,
    hkept.hwQueueNumber, hkept.shaper.trans (by rw [hc]), hkept.shaperNumber.trans (by rw [hc])⟩
  have hstep : step s (.config portRate capability new) = { s with
      container := Function.update s.container a (setAll new c).1 } := congrArg Prod.fst hconfig
  have hstatus : (perform s (.config portRate capability new)).2 = .success :=
    (congrArg Prod.snd hconfig).trans hsuccess
  exact ⟨⟨by rw [hstep]; exact hwell.invariant, by rw [hstep]; exact hkeeps, fun hne => absurd hstatus hne,
    by rw [hstatus]; simp⟩, by rw [hstep]; exact hwell⟩

/-- One call keeps what is promised, where it is allowed. --/
theorem step_spec (h : Well s) {call : Call} (hok : Allowed s call) : Promised s call ∧ Well (step s call) := by
  cases call with
  | create container shaper shaperType shaperDriver init config => exact create_spec h hok
  | delete shaper => exact delete_spec h hok
  | config portRate capability hwQueue => exact config_spec h hok
  | hwQueueSet queue => exact hwQueueSet_spec h hok

/-- Over every run of calls that are allowed, what is promised holds of each of them and in every state. --/
theorem run_promised {s₀ : Interface} (h : Well s₀) {calls : List Call} (hrun : Run step Allowed s₀ calls s) :
    Invariant s ∧ ∀ call, Allowed s call → Promised s call := by
  have hwell : Well s := hrun.invariant (P := fun _ s => Well s) h fun _ s call hs hok => (step_spec hs hok).2
  exact ⟨hwell.invariant, fun call hok => (step_spec hwell hok).1⟩

/-! ### What goes wrong -/

/-- A container nothing was done with. --/
def emptyContainer : Container := ⟨0, 0, 0, 0, List.replicate 8 default, List.replicate 3 none⟩

/-- An interface with no container bound. --/
def emptyInterface : Interface := ⟨none, fun _ => emptyContainer, fun _ => ⟨0, 0⟩⟩

/-- A shaper in the first slot of container 0, which has 2 queues. --/
def oneShaper : Interface :=
  ⟨some 0, fun a => if a = 0 then ⟨0, 0, 2, 1, ⟨4, 6, 1⟩ :: ⟨5, 7, 1⟩ :: List.replicate 6 default, [some 7, none, none]⟩
    else emptyContainer, fun _ => ⟨0, 0⟩⟩

theorem emptyContainer_shaped : Shaped emptyContainer [] :=
  ⟨⟨List.replicate 8 default, rfl, fun q hq => (List.mem_replicate.mp hq).2 ▸ rfl⟩,
    fun q hq => absurd hq List.not_mem_nil, by decide, by decide, by decide, by decide⟩

/-- The start of every run. --/
theorem emptyInterface_well : Well emptyInterface where
  invariant := ⟨fun _ => (by decide : emptyContainer.shaperNumber.toNat = present emptyContainer),
    fun _ => by simp [emptyInterface, emptyContainer, present],
    fun _ => emptyContainer_shaped.configured ▸ List.Pairwise.nil, fun _ =>
      emptyContainer_shaped.configured ▸ List.nodup_nil⟩
  shaped := fun _ => ⟨[], emptyContainer_shaped⟩

theorem oneShaper_well : Well oneShaper where
  invariant := by
    refine ⟨fun a => ?_, fun a => ?_, fun a => ?_, fun a => ?_⟩ <;> by_cases ha : a = 0 <;>
      simp [oneShaper, ha, emptyContainer, present, configured, default]
    · exact fun h => ha h.symm
  shaped := fun a => by
    by_cases ha : a = 0
    · subst ha
      exact ⟨[⟨4, 6, 1⟩, ⟨5, 7, 1⟩], ⟨⟨List.replicate 6 default, rfl, fun q hq => (List.mem_replicate.mp hq).2 ▸ rfl⟩,
        by decide, by decide, by decide, by decide, by decide⟩⟩
    · have h := emptyContainer_shaped
      exact ⟨[], by simpa [oneShaper, ha] using h⟩

/-- A second shaper, a queue that is configured once more, and the second shaper deleted. --/
theorem run_promised_three :
    let calls : List Call := [.create (some 0) (some 8) 1 (some 3) .success .success, .hwQueueSet ⟨4, 6, 2⟩,
      .delete (some 8)]
    Invariant (calls.foldl step oneShaper) ∧
      ∀ call, Allowed (calls.foldl step oneShaper) call → Promised (calls.foldl step oneShaper) call := by
  intro calls
  have hcreate : Allowed oneShaper (.create (some 0) (some 8) 1 (some 3) .success .success) :=
    Or.inr (Or.inr (Or.inr fun a ha => by
      obtain rfl := Option.some.inj ha
      exact Or.inr ⟨by decide, rfl, rfl⟩))
  have hset : Allowed (step oneShaper (.create (some 0) (some 8) 1 (some 3) .success .success))
      (.hwQueueSet ⟨4, 6, 2⟩) := fun a ha => by
    obtain rfl : 0 = a := Option.some.inj ha
    exact Or.inl (by decide)
  have hrun : Run step Allowed oneShaper calls (calls.foldl step oneShaper) :=
    ((Run.start.next hcreate).next hset).next (Or.inl (Option.some_ne_none 8))
  exact run_promised oneShaper_well hrun

/-- The first shaper of an interface is not counted: with one in its slot the number is 0. --/
theorem first_not_counted : ¬∀ calls : List Call, Invariant (calls.foldl step emptyInterface) := by
  intro h
  exact absurd ((h [.create (some 0) (some 7) 0 (some 3) .success .success]).number 0) (by decide)

end

end Netxduo.Tsn.ShaperContainer
