import Mathlib
import Netxduo.Library.LinkedLists
import Netxduo.Translation.Table

/-! The translation table as it lies in memory: two lists over one field of each entry, and three counters. -/

namespace Netxduo.Translation.Links

open LinkedLists

/-! ### The source -/

/-- `NX_NAT_DEVICE` with the memory of all entries. `next` is the field `next_entry_ptr` of each of them. An entry is an
    object of its own in memory, so no counter leaves its 32 bits. `time` counts the ticks, of which `tx_time_get` has
    32 bits. --/
structure Device where
  ip : Ip
  next : Nat → Option Nat
  entry : Nat → Entry
  activeHead : Option Nat
  availableHead : Option Nat
  activeEntries : Int
  availableEntries : Int
  staticEntries : Int
  time : Nat

def Device.timeGet (d : Device) : ULONG := BitVec.ofNat 32 d.time

def dynamicAt (d : Device) (a : Nat) : Bool := (d.entry a).translationType == .dynamicEntry

/-- `_nx_nat_entry_add` --/
def entryAdd (a : Nat) (d : Device) : Device :=
  let d := { d with next := Function.update d.next a d.activeHead, activeHead := some a }
  if (d.entry a).translationType = .dynamicEntry then
    { d with activeEntries := d.activeEntries + 1, availableEntries := d.availableEntries - 1 }
  else { d with staticEntries := d.staticEntries + 1 }

/-- `memset` of an entry, and what is assigned to it. --/
def initialise (a : Nat) (e : Entry) (d : Device) : Device :=
  { d with entry := Function.update d.entry a { e with address := a }, next := Function.update d.next a none }

/-- An entry is linked around, behind the one before it. --/
def linkAround (previous x : Option Nat) (d : Device) : Device :=
  { d with next := unlinkNext d.next previous x, activeHead := unlinkHead d.activeHead previous x }

/-- The loop for the oldest entry that is neither static nor of TCP. --/
def oldest (d : Device) : Nat → Option Nat → Option (Option Nat × Nat) → Option Nat →
    Option (Option (Option Nat × Nat))
  | _, _, insert, none => some insert
  | 0, _, _, some _ => none
  | rounds + 1, previous, insert, some a =>
    if (d.entry a).translationType = .staticEntry ∨ (d.entry a).protocol = protocolTcp then
      oldest d rounds (some a) insert (d.next a)
    else
      oldest d rounds (some a) (insert.elim (some (previous, a)) fun i =>
        if ((d.entry i.2).responseTimestamp - (d.entry a).responseTimestamp).toInt > 0 then some (previous, a)
        else some i) (d.next a)

/-- `_nx_nat_entry_create`, with `NX_NAT_ENABLE_REPLACEMENT` or without it. --/
def entryCreate (replacement : Bool) (rounds : Nat) (e : Entry) (responseTimeout : ULONG) (d : Device) :
    Option (Except NatStatus Nat × Device) :=
  let fresh : Entry := { e with
    translationType := .dynamicEntry
    responseTimeout := responseTimeout
    responseTimestamp := d.timeGet }
  if e.peerIpAddress = 0 ∨ e.localIpAddress = 0 then some (.error .invalidEntry, d)
  else if d.availableEntries ≠ 0 then
    d.availableHead.map fun a => (.ok a, entryAdd a (initialise a fresh { d with availableHead := d.next a }))
  else if replacement then
    (oldest d rounds none none d.activeHead).map fun insert => insert.elim (.error .cacheFull, d) fun i =>
      let d' := linkAround i.1 (d.next i.2) d
      (.ok i.2, entryAdd i.2 (initialise i.2 fresh { d' with
        activeEntries := d'.activeEntries - 1
        availableEntries := d'.availableEntries + 1 }))
  else some (.error .cacheFull, d)

/-- `_nx_nat_entry_find` --/
def entryFind (rounds : Nat) (entryToMatch : Entry) (direction : Direction) (skipStaticEntries : Bool) (d : Device) :
    Option (Option Nat × Device) :=
  if searchable entryToMatch direction = false then some (none, d)
  else
    (search d.next (fun a => entryMatches entryToMatch direction skipStaticEntries (d.entry a)) rounds none
      d.activeHead).map fun found => found.elim (none, d) fun f =>
        let d := { d with entry := Function.update d.entry f.2 { d.entry f.2 with responseTimestamp := d.timeGet } }
        (some f.2,
          if f.1.isNone then d
          else { d with
            next := Function.update (unlinkNext d.next f.1 (d.next f.2)) f.2 d.activeHead
            activeHead := some f.2 })

/-- The loop of `_nx_nat_entry_timeout_check`. --/
def timeoutLoop (currentTime : ULONG) : Nat → Option Nat → Option Nat → Device → Option Device
  | _, _, none, d => some d
  | 0, _, some _, _ => none
  | rounds + 1, previous, some a, d =>
    if (d.entry a).timedOut currentTime then
      let d' := linkAround previous (d.next a) d
      timeoutLoop currentTime rounds previous (d.next a) { d' with
        next := Function.update d'.next a d'.availableHead
        availableHead := some a
        activeEntries := d'.activeEntries - 1
        availableEntries := d'.availableEntries + 1 }
    else timeoutLoop currentTime rounds (some a) (d.next a) d

/-- `_nx_nat_entry_timeout_check` --/
def entryTimeoutCheck (rounds : Nat) (d : Device) : Option Device :=
  timeoutLoop d.timeGet rounds none d.activeHead d

/-- `_nx_nat_inbound_entry_create` --/
def inboundEntryCreate (rounds a localIpAddress externalPort localPort protocol : Nat) (d : Device) :
    Option (Except NatStatus Nat × Device) :=
  (search d.next (fun x => (d.entry x).protocol == protocol && (d.entry x).externalPort == externalPort) rounds none
    d.activeHead).map fun bound =>
      if bound.isSome then (.error .portUnavailable, d)
      else if d.ip.socketPortVerify protocol externalPort then (.error .portUnavailable, d)
      else (.ok a, entryAdd a (initialise a
        { address := a, peerIpAddress := 0, localIpAddress := localIpAddress, peerPort := 0,
          externalPort := externalPort, localPort := localPort, translationType := .staticEntry, protocol := protocol,
          responseTimeout := 0, responseTimestamp := 0 } d))

/-- `_nx_nat_inbound_entry_delete` --/
def inboundEntryDelete (rounds a : Nat) (d : Device) : Option (Except NatStatus Nat × Device) :=
  (search d.next (fun x => x == a) rounds none d.activeHead).map fun found =>
    found.elim (.error .entryNotFound, d) fun f =>
      let d' := linkAround f.1 (d.next f.2) d
      (.ok a, { d' with staticEntries := d'.staticEntries - 1 })

/-- `_nxe_nat_inbound_entry_delete`, the front end. --/
def inboundEntryDeleteChecked (rounds a : Nat) (d : Device) : Option (Except NatStatus Nat × Device) :=
  if (d.entry a).translationType ≠ .staticEntry then some (.error .entryTypeError, d)
  else inboundEntryDelete rounds a d

/-- The lists of `_nx_nat_create`: the entries of the cache, each one linked to that behind it. --/
def natCreate (ip : Ip) (entry : Nat → Entry) (cache entries time : Nat) : Device where
  ip := ip
  next := fun a => if cache ≤ a ∧ a + 1 < cache + entries then some (a + 1) else none
  entry := entry
  activeHead := none
  availableHead := some cache
  activeEntries := 0
  availableEntries := entries
  staticEntries := 0
  time := time

/-! ### The lists -/

/-- The two lists that lie in memory, with the counters of their entries. --/
structure Lists (d : Device) (active available : List Nat) : Prop where
  activeChain : Chain d.next d.activeHead active
  availableChain : Chain d.next d.availableHead available
  nodup : (active ++ available).Nodup
  activeEntries : d.activeEntries = active.countP (dynamicAt d)
  availableEntries : d.availableEntries = available.length
  staticEntries : d.staticEntries = active.countP fun a => !dynamicAt d a

/-! ### Writes to the lists -/

section
variable {d d' : Device} {active available front back kept rest : List Nat} {a : Nat} {e : Entry}
  {rounds : Nat}

@[simp] theorem entryAdd_next : (entryAdd a d).next = Function.update d.next a d.activeHead := by
  unfold entryAdd
  dsimp only
  split <;> rfl

@[simp] theorem entryAdd_activeHead : (entryAdd a d).activeHead = some a := by
  unfold entryAdd
  dsimp only
  split <;> rfl

@[simp] theorem entryAdd_availableHead : (entryAdd a d).availableHead = d.availableHead := by
  unfold entryAdd
  dsimp only
  split <;> rfl

@[simp] theorem entryAdd_entry : (entryAdd a d).entry = d.entry := by
  unfold entryAdd
  dsimp only
  split <;> rfl

@[simp] theorem entryAdd_time : (entryAdd a d).time = d.time := by
  unfold entryAdd
  dsimp only
  split <;> rfl

theorem entryAdd_counters : ((d.entry a).translationType = .dynamicEntry →
      (entryAdd a d).activeEntries = d.activeEntries + 1 ∧ (entryAdd a d).availableEntries = d.availableEntries - 1 ∧
        (entryAdd a d).staticEntries = d.staticEntries) ∧
    ((d.entry a).translationType ≠ .dynamicEntry →
      (entryAdd a d).activeEntries = d.activeEntries ∧ (entryAdd a d).availableEntries = d.availableEntries ∧
        (entryAdd a d).staticEntries = d.staticEntries + 1) := by
  unfold entryAdd
  dsimp only
  split
  · rename_i h
    exact ⟨fun _ => ⟨rfl, rfl, rfl⟩, fun hne => absurd h hne⟩
  · rename_i h
    exact ⟨fun he => absurd he h, fun _ => ⟨rfl, rfl, rfl⟩⟩

/-- An entry that is set up anew in front of the active list. --/
theorem chains_add (hactive : Chain d.next d.activeHead active) (havailable : Chain d.next d.availableHead available)
    (ha : a ∉ active) (ha' : a ∉ available) :
    Chain (entryAdd a (initialise a e d)).next (entryAdd a (initialise a e d)).activeHead (a :: active) ∧
      Chain (entryAdd a (initialise a e d)).next (entryAdd a (initialise a e d)).availableHead available := by
  have hnext : (entryAdd a (initialise a e d)).next = Function.update d.next a d.activeHead := by
    rw [entryAdd_next]
    exact Function.update_idem _ _ _
  rw [hnext, entryAdd_activeHead, entryAdd_availableHead]
  exact ⟨hactive.push ha, havailable.update ha'⟩

theorem entry_add (x : Nat) : (entryAdd a (initialise a e d)).entry x =
    if x = a then { e with address := a } else d.entry x := by
  rw [entryAdd_entry]
  exact Function.update_apply _ _ _ _

theorem dynamicAt_add_ne {x : Nat} (h : x ≠ a) : dynamicAt (entryAdd a (initialise a e d)) x = dynamicAt d x := by
  unfold dynamicAt
  rw [entry_add, if_neg h]

theorem dynamicAt_add_self :
    dynamicAt (entryAdd a (initialise a e d)) a = (e.translationType == .dynamicEntry) := by
  unfold dynamicAt
  rw [entry_add, if_pos rfl]

/-- The counts are those of entries that are of the same kinds. --/
theorem countP_same (h : ∀ x ∈ active, dynamicAt d' x = dynamicAt d x) :
    active.countP (dynamicAt d') = active.countP (dynamicAt d) ∧
      active.countP (fun x => !dynamicAt d' x) = active.countP fun x => !dynamicAt d x :=
  ⟨List.countP_congr fun x hx => by rw [h x hx], List.countP_congr fun x hx => by rw [h x hx]⟩

theorem dynamicAt_add_active (ha : a ∉ active) :
    ∀ x ∈ active, dynamicAt (entryAdd a (initialise a e d)) x = dynamicAt d x := fun x hx =>
  dynamicAt_add_ne (by rintro rfl; exact ha hx)

/-- The lists and the counters with a new dynamic entry, which was available. --/
theorem lists_addDynamic (hactive : Chain d.next d.activeHead active)
    (havailable : Chain d.next d.availableHead available) (hnodup : (a :: active ++ available).Nodup)
    (h₁ : d.activeEntries = active.countP (dynamicAt d)) (h₂ : d.availableEntries = available.length + 1)
    (h₃ : d.staticEntries = active.countP fun x => !dynamicAt d x) (he : e.translationType = .dynamicEntry) :
    Lists (entryAdd a (initialise a e d)) (a :: active) available := by
  have ha : a ∉ active ++ available := (List.nodup_cons.mp hnodup).1
  rw [List.mem_append, not_or] at ha
  obtain ⟨hc, hc'⟩ := chains_add (e := e) hactive havailable ha.1 ha.2
  have hself : dynamicAt (entryAdd a (initialise a e d)) a = true := by
    rw [dynamicAt_add_self, he]
    rfl
  have htype : ((initialise a e d).entry a).translationType = .dynamicEntry := by
    show (Function.update d.entry a { e with address := a } a).translationType = _
    rw [Function.update_self]
    exact he
  obtain ⟨hx₁, hx₂, hx₃⟩ := entryAdd_counters.1 htype
  have hcount := countP_same (dynamicAt_add_active (d := d) (e := e) ha.1)
  refine ⟨hc, hc', hnodup, ?_, ?_, ?_⟩
  · rw [hx₁, List.countP_cons_of_pos hself, hcount.1]
    show d.activeEntries + 1 = _
    rw [h₁]
    push_cast
    rfl
  · rw [hx₂]
    show d.availableEntries - 1 = _
    omega
  · rw [hx₃, List.countP_cons_of_neg (by simp [hself]), hcount.2]
    exact h₃

/-- The lists and the counters with a new static entry. --/
theorem lists_addStatic (h : Lists d active available) (ha : a ∉ active) (ha' : a ∉ available)
    (he : e.translationType = .staticEntry) : Lists (entryAdd a (initialise a e d)) (a :: active) available := by
  obtain ⟨hc, hc'⟩ := chains_add (e := e) h.activeChain h.availableChain ha ha'
  have hself : dynamicAt (entryAdd a (initialise a e d)) a = false := by
    rw [dynamicAt_add_self, he]
    rfl
  have htype : ((initialise a e d).entry a).translationType ≠ .dynamicEntry := by
    show (Function.update d.entry a { e with address := a } a).translationType ≠ _
    rw [Function.update_self, show ({ e with address := a } : Entry).translationType = .staticEntry from he]
    simp
  obtain ⟨hx₁, hx₂, hx₃⟩ := entryAdd_counters.2 htype
  have hcount := countP_same (dynamicAt_add_active (d := d) (e := e) ha)
  refine ⟨hc, hc', List.nodup_cons.mpr ⟨by simp [ha, ha'], h.nodup⟩, ?_, ?_, ?_⟩
  · rw [hx₁, List.countP_cons_of_neg (by simp [hself]), hcount.1]
    exact h.activeEntries
  · rw [hx₂]
    exact h.availableEntries
  · rw [hx₃, List.countP_cons_of_pos (by simp [hself]), hcount.2]
    show d.staticEntries + 1 = _
    rw [h.staticEntries]
    push_cast
    rfl

/-- An entry that is linked around leaves the active list, and the available one is as it was. --/
theorem chains_linkAround (h : Lists d (front ++ a :: back) available) :
    Chain (linkAround front.getLast? (d.next a) d).next (linkAround front.getLast? (d.next a) d).activeHead
        (front ++ back) ∧
      Chain (linkAround front.getLast? (d.next a) d).next d.availableHead available ∧
      (a :: (front ++ back) ++ available).Nodup := by
  have hn := h.nodup
  have hperm : (front ++ a :: back ++ available).Perm (a :: (front ++ back) ++ available) :=
    List.perm_middle.append_right _
  refine ⟨h.activeChain.unlink (List.nodup_append.mp hn).1, h.availableChain.unlink_other fun x hx hf => ?_,
    hperm.nodup_iff.mp hn⟩
  exact (List.nodup_append.mp hn).2.2 x (List.mem_append_left _ hf) x hx rfl

theorem countP_middle {p : Nat → Bool} :
    (front ++ a :: back).countP p = (front ++ back).countP p + if p a then 1 else 0 := by
  rw [List.countP_append, List.countP_append, List.countP_cons, Nat.add_assoc]

theorem Lists.nodup_active (h : Lists d active available) : active.Nodup := (List.nodup_append.mp h.nodup).1

theorem Lists.not_available (h : Lists d active available) (ha : a ∈ active) : a ∉ available := fun ha' =>
  (List.nodup_append.mp h.nodup).2.2 a ha a ha' rfl

/-! ### The timeout check -/

/-- What the timeout check does to an entry that timed out. --/
def release (previous : Option Nat) (a : Nat) (d : Device) : Device :=
  let d' := linkAround previous (d.next a) d
  { d' with
    next := Function.update d'.next a d'.availableHead
    availableHead := some a
    activeEntries := d'.activeEntries - 1
    availableEntries := d'.availableEntries + 1 }

theorem lists_release (h : Lists d (front ++ a :: back) available) (ha : dynamicAt d a = true) :
    Lists (release front.getLast? a d) (front ++ back) (a :: available) := by
  obtain ⟨hactive, havailable, hnodup⟩ := chains_linkAround h
  obtain ⟨hnew, hnodup'⟩ := List.nodup_cons.mp hnodup
  obtain ⟨hnew, hnew'⟩ := not_or.mp fun hor => hnew (List.mem_append.mpr hor)
  have hsame := h.activeEntries
  have hstatic := h.staticEntries
  rw [countP_middle, if_pos ha] at hsame
  rw [countP_middle, ha] at hstatic
  refine ⟨hactive.update hnew, havailable.push hnew', List.nodup_middle.mpr hnodup, ?_, ?_, hstatic⟩
  · show d.activeEntries - 1 = ((front ++ back).countP (dynamicAt d) : Int)
    rw [hsame]
    push_cast
    exact add_sub_cancel_right _ _
  · show d.availableEntries + 1 = _
    rw [h.availableEntries, List.length_cons]
    push_cast
    rfl

/-- The entries behind it are as they were. --/
theorem release_rest (h : Lists d (kept ++ a :: rest) available) (hcur : Chain d.next (d.next a) rest) :
    Chain (release kept.getLast? a d).next (d.next a) rest := by
  obtain ⟨hnew, hn⟩ := List.nodup_cons.mp (List.nodup_middle.mp h.nodup_active)
  refine Chain.update (hcur.unlink_other fun x hx hk => ?_) fun hr => hnew (List.mem_append_right _ hr)
  exact (List.nodup_append.mp hn).2.2 x hk x hx rfl

theorem timeoutLoop_cons {t : ULONG} {previous : Option Nat} : timeoutLoop t (rounds + 1) previous (some a) d =
    if (d.entry a).timedOut t then timeoutLoop t rounds previous (d.next a) (release previous a d)
    else timeoutLoop t rounds (some a) (d.next a) d := rfl

/-- Of the entries that are still to come, those that timed out go to the other list, one by one. --/
theorem timeoutLoop_spec {t : ULONG} : ∀ {rest l available : List Nat} {cur : Option Nat} {d d' : Device}
    {rounds : Nat}, Lists d (l ++ rest) available → Chain d.next cur rest →
    timeoutLoop t rounds l.getLast? cur d = some d' →
    Lists d' (l ++ rest.filter fun a => !(d.entry a).timedOut t)
        ((rest.filter fun a => (d.entry a).timedOut t).reverse ++ available) ∧
      d'.entry = d.entry ∧ d'.time = d.time ∧ d'.ip = d.ip
  | [], l, available, cur, d, d', rounds, h, hcur, hd => by
    obtain rfl : cur = none := hcur
    rw [timeoutLoop] at hd
    obtain rfl := Option.some.inj hd
    exact ⟨h, rfl, rfl, rfl⟩
  | a :: rest, l, available, cur, d, d', 0, h, hcur, hd => by
    rw [hcur.1, timeoutLoop] at hd
    cases hd
  | a :: rest, l, available, cur, d, d', rounds + 1, h, hcur, hd => by
    rw [hcur.1, timeoutLoop_cons] at hd
    split at hd
    · rename_i ht
      have hdynamic : dynamicAt d a = true := (Bool.and_eq_true_iff.mp ht).1
      obtain ⟨hl, he, htime, hip⟩ := timeoutLoop_spec (lists_release h hdynamic) (release_rest h hcur.2) hd
      refine ⟨?_, he, htime, hip⟩
      rw [List.filter_cons_of_neg (by simp [ht]), List.filter_cons_of_pos (by exact ht), List.reverse_cons,
        List.append_assoc]
      exact hl
    · rename_i ht
      have hlast : (l ++ [a]).getLast? = some a := List.getLast?_concat
      rw [← hlast] at hd
      rw [List.append_cons] at h
      obtain ⟨hl, he, htime, hip⟩ := timeoutLoop_spec h hcur.2 hd
      refine ⟨?_, he, htime, hip⟩
      rw [List.filter_cons_of_pos (by simpa using ht), List.filter_cons_of_neg (by exact ht),
        List.append_cons]
      exact hl

theorem timeoutLoop_isSome {t : ULONG} : ∀ {rest l available : List Nat} {cur : Option Nat} {d : Device}
    {rounds : Nat}, Lists d (l ++ rest) available → Chain d.next cur rest → rest.length ≤ rounds →
    (timeoutLoop t rounds l.getLast? cur d).isSome
  | [], l, available, cur, d, rounds, h, hcur, hl => by
    obtain rfl : cur = none := hcur
    rw [timeoutLoop]
    rfl
  | a :: rest, l, available, cur, d, 0, h, hcur, hl => by cases hl
  | a :: rest, l, available, cur, d, rounds + 1, h, hcur, hl => by
    rw [hcur.1, timeoutLoop_cons]
    split
    · rename_i ht
      exact timeoutLoop_isSome (lists_release h (Bool.and_eq_true_iff.mp ht).1) (release_rest h hcur.2)
        (Nat.le_of_succ_le_succ hl)
    · have hlast : (l ++ [a]).getLast? = some a := List.getLast?_concat
      rw [← hlast]
      rw [List.append_cons] at h
      exact timeoutLoop_isSome h hcur.2 (Nat.le_of_succ_le_succ hl)

/-- The timeout check: the entries that timed out become available, and all others stay. --/
theorem entryTimeoutCheck_spec (h : Lists d active available) (hd : entryTimeoutCheck rounds d = some d') :
    Lists d' (active.filter fun a => !(d.entry a).timedOut d.timeGet)
        ((active.filter fun a => (d.entry a).timedOut d.timeGet).reverse ++ available) ∧
      d'.entry = d.entry ∧ d'.time = d.time ∧ d'.ip = d.ip :=
  timeoutLoop_spec (l := []) h h.activeChain hd

theorem entryTimeoutCheck_isSome (h : Lists d active available) (hrounds : active.length ≤ rounds) :
    (entryTimeoutCheck rounds d).isSome :=
  timeoutLoop_isSome (l := []) h h.activeChain hrounds

/-! ### The other operations -/

/-- The counters do not depend on the order of the entries. --/
theorem lists_front (h : Lists d (front ++ a :: back) available) (hsame : ∀ x, dynamicAt d' x = dynamicAt d x)
    (hactive : Chain d'.next d'.activeHead (a :: (front ++ back)))
    (havailable : Chain d'.next d'.availableHead available) (h₁ : d'.activeEntries = d.activeEntries)
    (h₂ : d'.availableEntries = d.availableEntries) (h₃ : d'.staticEntries = d.staticEntries) :
    Lists d' (a :: (front ++ back)) available := by
  have hcount := countP_same fun x (_ : x ∈ a :: (front ++ back)) => hsame x
  have hperm : (front ++ a :: back).Perm (a :: (front ++ back)) := List.perm_middle
  refine ⟨hactive, havailable, (chains_linkAround h).2.2, ?_, ?_, ?_⟩
  · rw [h₁, h.activeEntries, hperm.countP_eq, hcount.1]
  · rw [h₂, h.availableEntries]
  · rw [h₃, h.staticEntries, hperm.countP_eq, hcount.2]

/-- An entry that is used keeps its kind. --/
theorem dynamicAt_used {t : ULONG}
    (hd : d'.entry = Function.update d.entry a { d.entry a with responseTimestamp := t }) (x : Nat) :
    dynamicAt d' x = dynamicAt d x := by
  unfold dynamicAt
  rw [hd]
  rcases eq_or_ne x a with rfl | hx
  · rw [Function.update_self]
  · rw [Function.update_of_ne hx]

/-- The entry that is found goes to the head, and is used now; there may be none. --/
theorem entryFind_spec {entryToMatch : Entry} {direction : Direction} {skip : Bool} {r : Option Nat}
    (h : Lists d active available) (hd : entryFind rounds entryToMatch direction skip d = some (r, d')) :
    (r = none ∧ d' = d) ∨ ∃ a front back, active = front ++ a :: back ∧ r = some a ∧
      Lists d' (a :: (front ++ back)) available ∧
      d'.entry = Function.update d.entry a { d.entry a with responseTimestamp := d.timeGet } ∧
      d'.time = d.time := by
  unfold entryFind at hd
  split at hd
  · cases Option.some.inj hd
    exact Or.inl ⟨rfl, rfl⟩
  · obtain ⟨found, hs, hd⟩ := Option.map_eq_some_iff.mp hd
    rcases search_spec h.activeChain hs with ⟨rfl, -⟩ | ⟨front, a, back, rfl, -, rfl⟩
    · cases hd
      exact Or.inl ⟨rfl, rfl⟩
    · refine Or.inr ⟨a, front, back, rfl, ?_⟩
      obtain ⟨hactive, havailable, hnodup⟩ := chains_linkAround h
      obtain ⟨hnew, hnew'⟩ := not_or.mp fun hor => (List.nodup_cons.mp hnodup).1 (List.mem_append.mpr hor)
      rw [Option.or_none, Option.elim_some] at hd
      cases hlast : front.getLast? with
      | none =>
        obtain rfl := List.getLast?_eq_none_iff.mp hlast
        cases hd
        exact ⟨rfl, lists_front h (dynamicAt_used rfl) h.activeChain h.availableChain rfl rfl rfl, rfl, rfl⟩
      | some p =>
        rw [hlast] at hd
        cases hd
        refine ⟨rfl, lists_front h (dynamicAt_used rfl) ?_ ?_ rfl rfl rfl, rfl, rfl⟩
        · rw [hlast] at hactive
          exact hactive.push hnew
        · rw [hlast] at havailable
          exact havailable.update hnew'

theorem entryFind_isSome {entryToMatch : Entry} {direction : Direction} {skip : Bool}
    (h : Lists d active available) (hrounds : active.length ≤ rounds) :
    (entryFind rounds entryToMatch direction skip d).isSome := by
  unfold entryFind
  split
  · rfl
  · rw [Option.isSome_map]
    exact search_isSome h.activeChain hrounds

/-- The loop for the oldest entry finds a dynamic one of the list, with its predecessor. --/
theorem oldest_spec : ∀ {rest l : List Nat} {cur : Option Nat} {insert found : Option (Option Nat × Nat)}
    {rounds : Nat}, Chain d.next cur rest →
    (∀ i, insert = some i → ∃ front back, l = front ++ i.2 :: back ∧ i.1 = front.getLast? ∧
      dynamicAt d i.2 = true) →
    oldest d rounds l.getLast? insert cur = some found →
    ∀ i, found = some i → ∃ front back, l ++ rest = front ++ i.2 :: back ∧ i.1 = front.getLast? ∧
      dynamicAt d i.2 = true
  | [], l, cur, insert, found, rounds, hcur, hinsert, hf => by
    obtain rfl : cur = none := hcur
    rw [oldest] at hf
    obtain rfl := Option.some.inj hf
    rwa [List.append_nil]
  | a :: rest, l, cur, insert, found, 0, hcur, hinsert, hf => by
    rw [hcur.1, oldest] at hf
    cases hf
  | a :: rest, l, cur, insert, found, rounds + 1, hcur, hinsert, hf => by
    have hlast : (l ++ [a]).getLast? = some a := List.getLast?_concat
    have hold : ∀ i, insert = some i → ∃ front back, l ++ [a] = front ++ i.2 :: back ∧ i.1 = front.getLast? ∧
        dynamicAt d i.2 = true := fun i hi => by
      obtain ⟨front, back, rfl, hfront, hdynamic⟩ := hinsert i hi
      exact ⟨front, back ++ [a], by simp, hfront, hdynamic⟩
    rw [hcur.1, oldest, ← hlast] at hf
    rw [List.append_cons]
    split at hf
    · exact oldest_spec hcur.2 hold hf
    · rename_i hkind
      have hdynamic : dynamicAt d a = true := by
        unfold dynamicAt
        cases ht : (d.entry a).translationType with
        | staticEntry => exact absurd (Or.inl ht) hkind
        | dynamicEntry => rfl
      have hthis : ∃ front back, l ++ [a] = front ++ a :: back ∧ l.getLast? = front.getLast? ∧
        dynamicAt d a = true := ⟨l, [], rfl, rfl, hdynamic⟩
      refine oldest_spec hcur.2 (fun i hi => ?_) hf
      cases insert with
      | none =>
        obtain rfl := Option.some.inj hi
        exact hthis
      | some j =>
        rw [Option.elim_some] at hi
        split at hi
        · obtain rfl := Option.some.inj hi
          exact hthis
        · exact hold i hi

theorem oldest_isSome : ∀ {rest : List Nat} {cur previous : Option Nat} {insert : Option (Option Nat × Nat)}
    {rounds : Nat}, Chain d.next cur rest → rest.length ≤ rounds → (oldest d rounds previous insert cur).isSome
  | [], cur, previous, insert, rounds, hcur, _ => by
    obtain rfl : cur = none := hcur
    rw [oldest]
    rfl
  | a :: rest, cur, previous, insert, 0, hcur, hl => by cases hl
  | a :: rest, cur, previous, insert, rounds + 1, hcur, hl => by
    rw [hcur.1, oldest]
    split <;> exact oldest_isSome hcur.2 (Nat.le_of_succ_le_succ hl)

/-- What a creation does to the lists: the entry leaves the list it was on, if any, and is at the head of the active
    one. --/
structure Created (e : Entry) (a : Nat) (d d' : Device) (active available : List Nat) : Prop where
  lists : ∃ active' available', Lists d' (a :: active') available' ∧
    (∀ x, x ≠ a → (x ∈ active' ↔ x ∈ active)) ∧ ∀ x, x ≠ a → (x ∈ available' ↔ x ∈ available)
  entry : ∀ x, d'.entry x = if x = a then { e with address := a } else d.entry x
  time : d'.time = d.time

/-- The entry that `_nx_nat_entry_create` sets up. --/
def fresh (e : Entry) (responseTimeout : ULONG) (d : Device) : Entry :=
  { e with
    translationType := .dynamicEntry
    responseTimeout := responseTimeout
    responseTimestamp := d.timeGet }

/-- A dynamic entry is an available one, or it replaces one that is dynamic. --/
theorem entryCreate_spec {replacement : Bool} {responseTimeout : ULONG} {r : Except NatStatus Nat}
    (h : Lists d active available) (hd : entryCreate replacement rounds e responseTimeout d = some (r, d')) :
    ((∃ status, r = .error status) ∧ d' = d) ∨ ∃ a, r = .ok a ∧
      (a ∈ available ∨ a ∈ active ∧ dynamicAt d a = true) ∧
      Created (fresh e responseTimeout d) a d d' active available := by
  unfold entryCreate at hd
  dsimp only at hd
  split at hd
  · cases hd
    exact Or.inl ⟨⟨_, rfl⟩, rfl⟩
  split at hd
  · rename_i hn
    obtain ⟨a, ha, hd⟩ := Option.map_eq_some_iff.mp hd
    cases hd
    cases hav : available with
    | nil =>
      rw [h.availableEntries, hav] at hn
      exact absurd rfl hn
    | cons b rest =>
      subst hav
      obtain rfl : b = a := Option.some.inj (h.availableChain.1.symm.trans ha)
      have hnodup := h.nodup
      have hb : b ∉ active := fun hb => h.not_available hb List.mem_cons_self
      refine Or.inr ⟨b, rfl, Or.inl List.mem_cons_self, ⟨active, rest, ?_, fun x hx => Iff.rfl, fun x hx => ?_⟩,
        fun x => entry_add x, entryAdd_time⟩
      · refine lists_addDynamic (d := { d with availableHead := d.next b }) h.activeChain h.availableChain.2
          (List.nodup_middle.mp hnodup) h.activeEntries ?_ h.staticEntries rfl
        show d.availableEntries = _
        rw [h.availableEntries, List.length_cons]
        push_cast
        rfl
      · rw [List.mem_cons, or_iff_right hx]
  · rename_i hn
    split at hd
    · obtain ⟨insert, hi, hd⟩ := Option.map_eq_some_iff.mp hd
      cases insert with
      | none =>
        cases hd
        exact Or.inl ⟨⟨_, rfl⟩, rfl⟩
      | some i =>
        obtain ⟨front, back, hactive, hfront, hdynamic⟩ :=
          oldest_spec (l := []) h.activeChain (fun i hi => by cases hi) hi i rfl
        rw [List.nil_append] at hactive
        subst hactive
        rw [Option.elim_some] at hd
        cases hd
        obtain ⟨hc, hc', hnodup⟩ := chains_linkAround h
        have hlength := h.availableEntries
        have hsame := h.activeEntries
        have hstatic := h.staticEntries
        rw [countP_middle, if_pos hdynamic] at hsame
        rw [countP_middle, hdynamic] at hstatic
        refine Or.inr ⟨i.2, rfl, Or.inr ⟨List.mem_append_right _ List.mem_cons_self, hdynamic⟩,
          ⟨front ++ back, available, ?_, fun x hx => ?_, fun x hx => Iff.rfl⟩, fun x => entry_add x, entryAdd_time⟩
        · rw [hfront]
          refine lists_addDynamic hc hc' hnodup ?_ ?_ hstatic rfl
          · show d.activeEntries - 1 = ((front ++ back).countP (dynamicAt d) : Int)
            rw [hsame]
            push_cast
            exact add_sub_cancel_right _ _
          · show d.availableEntries + 1 = _
            rw [hlength]
        · rw [List.mem_append, List.mem_append, List.mem_cons, or_iff_right hx]
    · cases hd
      exact Or.inl ⟨⟨_, rfl⟩, rfl⟩

theorem entryCreate_isSome {replacement : Bool} {responseTimeout : ULONG} (h : Lists d active available)
    (hrounds : active.length ≤ rounds) : (entryCreate replacement rounds e responseTimeout d).isSome := by
  unfold entryCreate
  dsimp only
  split
  · rfl
  split
  · rename_i hn
    rw [Option.isSome_map]
    cases hav : available with
    | nil =>
      rw [h.availableEntries, hav] at hn
      exact absurd rfl hn
    | cons b rest =>
      rw [(hav ▸ h.availableChain : Chain d.next d.availableHead (b :: rest)).1]
      rfl
  · split
    · rw [Option.isSome_map]
      exact oldest_isSome h.activeChain hrounds
    · rfl

/-- The entry that `_nx_nat_inbound_entry_create` sets up. --/
def inbound (a localIpAddress externalPort localPort protocol : Nat) : Entry :=
  { address := a, peerIpAddress := 0, localIpAddress := localIpAddress, peerPort := 0, externalPort := externalPort,
    localPort := localPort, translationType := .staticEntry, protocol := protocol, responseTimeout := 0,
    responseTimestamp := 0 }

/-- A port of a protocol is taken in the table or by a socket. --/
def PortTaken (d : Device) (protocol port : Nat) : Prop :=
  d.ip.socketPortVerify protocol port = true ∨ ∃ active, Chain d.next d.activeHead active ∧
    ∃ a ∈ active, (d.entry a).protocol = protocol ∧ (d.entry a).externalPort = port

/-- A static entry is created where its port is not taken; whether its memory is on a list already is not looked at. --/
theorem inboundEntryCreate_spec {localIpAddress externalPort localPort protocol : Nat} {r : Except NatStatus Nat}
    (h : Lists d active available)
    (hd : inboundEntryCreate rounds a localIpAddress externalPort localPort protocol d = some (r, d')) :
    ((∃ status, r = .error status) ∧ PortTaken d protocol externalPort ∧ d' = d) ∨
      r = .ok a ∧ ¬PortTaken d protocol externalPort ∧
        d' = entryAdd a (initialise a (inbound a localIpAddress externalPort localPort protocol) d) := by
  unfold inboundEntryCreate at hd
  obtain ⟨bound, hs, hd⟩ := Option.map_eq_some_iff.mp hd
  rcases search_spec h.activeChain hs with ⟨rfl, hnone⟩ | ⟨front, b, back, rfl, hb, rfl⟩
  · rw [if_neg (by simp)] at hd
    split at hd
    · rename_i hsocket
      cases hd
      exact Or.inl ⟨⟨_, rfl⟩, Or.inl hsocket, rfl⟩
    · rename_i hsocket
      cases hd
      refine Or.inr ⟨rfl, ?_, rfl⟩
      rintro (htaken | ⟨active', hactive', x, hx, hprotocol, hport⟩)
      · exact hsocket htaken
      · obtain rfl := hactive'.unique h.activeChain
        have hx := hnone x hx
        rw [hprotocol, hport, beq_self_eq_true, beq_self_eq_true] at hx
        cases hx
  · rw [if_pos Option.isSome_some] at hd
    cases hd
    obtain ⟨hprotocol, hport⟩ := Bool.and_eq_true_iff.mp hb
    exact Or.inl ⟨⟨_, rfl⟩, Or.inr ⟨_, h.activeChain, b, List.mem_append_right _ List.mem_cons_self,
      beq_iff_eq.mp hprotocol, beq_iff_eq.mp hport⟩, rfl⟩

theorem inboundEntryCreate_isSome {localIpAddress externalPort localPort protocol : Nat}
    (h : Lists d active available) (hrounds : active.length ≤ rounds) :
    (inboundEntryCreate rounds a localIpAddress externalPort localPort protocol d).isSome := by
  unfold inboundEntryCreate
  rw [Option.isSome_map]
  exact search_isSome h.activeChain hrounds

/-- Deletion looks for the entry by its address, of whatever kind it is. --/
theorem inboundEntryDelete_spec {r : Except NatStatus Nat} (h : Lists d active available)
    (hd : inboundEntryDelete rounds a d = some (r, d')) :
    ((∃ status, r = .error status) ∧ d' = d ∧ a ∉ active) ∨ ∃ front back, active = front ++ a :: back ∧ r = .ok a ∧
      Chain d'.next d'.activeHead (front ++ back) ∧ Chain d'.next d'.availableHead available ∧
      (dynamicAt d a = false → Lists d' (front ++ back) available) ∧ d'.entry = d.entry ∧ d'.time = d.time := by
  unfold inboundEntryDelete at hd
  obtain ⟨found, hs, hd⟩ := Option.map_eq_some_iff.mp hd
  rcases search_spec h.activeChain hs with ⟨rfl, hnone⟩ | ⟨front, b, back, rfl, hb, rfl⟩
  · cases hd
    refine Or.inl ⟨⟨_, rfl⟩, rfl, fun ha => ?_⟩
    have ha := hnone a ha
    rw [beq_self_eq_true] at ha
    cases ha
  · obtain rfl := beq_iff_eq.mp hb
    rw [Option.or_none] at hd
    cases hd
    obtain ⟨hc, hc', hnodup⟩ := chains_linkAround h
    refine Or.inr ⟨front, back, rfl, rfl, hc, hc', fun hstatic => ?_, rfl, rfl⟩
    have hsame := h.activeEntries
    have hcount := h.staticEntries
    rw [countP_middle, hstatic] at hsame
    rw [countP_middle, hstatic] at hcount
    refine ⟨hc, hc', (List.nodup_cons.mp hnodup).2, hsame, h.availableEntries, ?_⟩
    show d.staticEntries - 1 = ((front ++ back).countP fun x => !dynamicAt d x : Nat)
    rw [hcount]
    push_cast
    exact add_sub_cancel_right _ _

theorem inboundEntryDelete_isSome (h : Lists d active available) (hrounds : active.length ≤ rounds) :
    (inboundEntryDelete rounds a d).isSome := by
  unfold inboundEntryDelete
  rw [Option.isSome_map]
  exact search_isSome h.activeChain hrounds

end

end Netxduo.Translation.Links
