import Mathlib
import Netxduo.Translation.Links

/-! The translation table over whole runs: which entries are on its lists, what the counters say, and how an entry may
    leave. -/

namespace Netxduo.Translation.Links

open LinkedLists

/-! ### Runs -/

/-- The device, when each entry was used last, and the static entries that were created and not deleted. --/
structure World where
  device : Device
  used : Nat → Nat
  statics : Finset Nat

/-- What happens: time passes, while the sockets of the host change, and the calls. --/
inductive Action
  | elapse (ticks : Nat) (ip : Ip)
  | entryCreate (e : Entry) (responseTimeout : ULONG)
  | entryFind (entryToMatch : Entry) (direction : Direction) (skipStaticEntries : Bool)
  | entryTimeoutCheck
  | inboundEntryCreate (a localIpAddress externalPort localPort protocol : Nat)
  | inboundEntryDelete (a : Nat)
  | inboundEntryDeleteChecked (a : Nat)

/-- An entry that was created or found is used now. --/
def World.use (w : World) (a : Option Nat) (d : Device) : World :=
  ⟨d, a.elim w.used fun a => Function.update w.used a w.device.time, w.statics⟩

/-- An action, for a number of rounds of its loop. --/
def perform (replacement : Bool) (rounds : Nat) (w : World) : Action → Option World
  | .elapse ticks ip => some { w with device := { w.device with time := w.device.time + ticks, ip := ip } }
  | .entryCreate e responseTimeout =>
    (entryCreate replacement rounds e responseTimeout w.device).map fun r => w.use r.1.toOption r.2
  | .entryFind e direction skip => (entryFind rounds e direction skip w.device).map fun r => w.use r.1 r.2
  | .entryTimeoutCheck => (entryTimeoutCheck rounds w.device).map fun d => { w with device := d }
  | .inboundEntryCreate a localIpAddress externalPort localPort protocol =>
    (inboundEntryCreate rounds a localIpAddress externalPort localPort protocol w.device).map fun r =>
      ⟨r.2, w.used, r.1.toOption.elim w.statics fun a => insert a w.statics⟩
  | .inboundEntryDelete a =>
    (inboundEntryDelete rounds a w.device).map fun r => ⟨r.2, w.used, r.1.toOption.elim w.statics w.statics.erase⟩
  | .inboundEntryDeleteChecked a =>
    (inboundEntryDeleteChecked rounds a w.device).map fun r =>
      ⟨r.2, w.used, r.1.toOption.elim w.statics w.statics.erase⟩

/-- A sequence of actions, each of which ends. --/
inductive Reach (replacement : Bool) (ok : World → Action → Prop) (w₀ : World) : World → Prop
  | start : Reach replacement ok w₀ w₀
  | next {w w' : World} {action : Action} {rounds : Nat} : Reach replacement ok w₀ w → ok w action →
      perform replacement rounds w action = some w' → Reach replacement ok w₀ w'

/-! ### What is promised -/

/-- Every entry of the cache is on one of the lists, and no other one but the static entries, which are on the active
    one; the stamp of a dynamic entry is the time it was used last. --/
structure Invariant (cache : Finset Nat) (w : World) (active available : List Nat) : Prop where
  lists : Lists w.device active available
  cached : ∀ a, a ∈ cache ↔ a ∈ available ∨ (a ∈ active ∧ dynamicAt w.device a = true)
  statics : ∀ a, a ∈ w.statics ↔ a ∈ active ∧ dynamicAt w.device a = false
  stamps : ∀ a ∈ active, dynamicAt w.device a = true →
    (w.device.entry a).responseTimestamp = BitVec.ofNat 32 (w.used a) ∧ w.used a ≤ w.device.time

/-- What an action does to the lists: a static entry leaves the active list by its deletion only, an entry comes back to
    the available list by the timeout check only and after its timeout, and a deletion of what is not a static entry
    changes nothing. --/
structure Promised (w : World) (action : Action) (w' : World) (active active' available' : List Nat) : Prop where
  kept : ∀ a ∈ w.statics, action ≠ .inboundEntryDelete a → action ≠ .inboundEntryDeleteChecked a → a ∈ active'
  released : ∀ a ∈ active, a ∈ available' → action = .entryTimeoutCheck ∧
    (w.device.entry a).responseTimeout.toNat ≤ w.device.time - w.used a
  deletion : ∀ a, action = .inboundEntryDelete a ∨ action = .inboundEntryDeleteChecked a → a ∉ w.statics →
    w'.device = w.device

/-- A static entry is created in memory that is in no list, unless its port is taken; what is deleted behind the back of
    the front end is no dynamic entry of the table. --/
def Allowed (cache : Finset Nat) (w : World) : Action → Prop
  | .inboundEntryCreate a _ externalPort _ protocol =>
    (a ∉ cache ∧ a ∉ w.statics) ∨ PortTaken w.device protocol externalPort
  | .inboundEntryDelete a => ∀ active, Chain w.device.next w.device.activeHead active → a ∈ active →
      dynamicAt w.device a = false
  | .elapse _ _ => True
  | .entryCreate _ _ => True
  | .entryFind _ _ _ => True
  | .entryTimeoutCheck => True
  | .inboundEntryDeleteChecked _ => True

/-! ### Each action -/

section
variable {d' : Device} {active active' available available' : List Nat} {a : Nat} {e : Entry} {cache : Finset Nat}
  {w w' : World} {action : Action} {replacement : Bool} {rounds : Nat}

/-- The time that elapsed, as the counter of ticks has it, is not more than it is. --/
theorem elapsed_le {used time : Nat} (h : used ≤ time) :
    (BitVec.ofNat 32 time - BitVec.ofNat 32 used).toNat ≤ time - used := by
  obtain ⟨k, rfl⟩ := Nat.exists_eq_add_of_le h
  rw [BitVec.ofNat_add, add_sub_cancel_left, BitVec.toNat_ofNat, Nat.add_sub_cancel_left]
  exact Nat.mod_le _ _

theorem Invariant.static (h : Invariant cache w active available) (ha : a ∈ active) (hs : a ∉ w.statics) :
    dynamicAt w.device a = true := by
  cases hd : dynamicAt w.device a with
  | true => rfl
  | false => exact absurd ((h.statics a).mpr ⟨ha, hd⟩) hs

/-- Memory that is neither of the cache nor a static entry is on no list. --/
theorem Invariant.not_listed (h : Invariant cache w active available) (hc : a ∉ cache) (hs : a ∉ w.statics) :
    a ∉ active ∧ a ∉ available :=
  ⟨fun ha => hc ((h.cached a).mpr (Or.inr ⟨ha, h.static ha hs⟩)), fun ha => hc ((h.cached a).mpr (Or.inl ha))⟩

theorem dynamicAt_of_entry (hentry : d'.entry = w.device.entry) (x : Nat) :
    dynamicAt d' x = dynamicAt w.device x := by
  unfold dynamicAt
  rw [hentry]

theorem Invariant.stamps_of_entry (h : Invariant cache w active available) (hentry : d'.entry = w.device.entry)
    (htime : d'.time = w.device.time) (ha : a ∈ active) (hd : dynamicAt d' a = true) :
    (d'.entry a).responseTimestamp = BitVec.ofNat 32 (w.used a) ∧ w.used a ≤ d'.time := by
  rw [hentry, htime]
  exact h.stamps a ha ((dynamicAt_of_entry hentry a).symm.trans hd)

/-- Where the lists keep their entries, nothing is released. --/
theorem Promised.same (h : Invariant cache w active available) (h' : Invariant cache w' active' available')
    (hstatics : w.statics ⊆ w'.statics) (havailable : ∀ x ∈ available', x ∈ available)
    (hdelete : ∀ a, action ≠ .inboundEntryDelete a ∧ action ≠ .inboundEntryDeleteChecked a) :
    Promised w action w' active active' available' where
  kept a ha _ _ := ((h'.statics a).mp (hstatics ha)).1
  released a ha ha' := absurd (havailable a ha') (h.lists.not_available ha)
  deletion a ha := (ha.elim (hdelete a).1 (hdelete a).2).elim

theorem Invariant.refused (h : Invariant cache w active available)
    (hdelete : ∀ a, action ≠ .inboundEntryDelete a ∧ action ≠ .inboundEntryDeleteChecked a) :
    ∃ active' available', Invariant cache w active' available' ∧ Promised w action w active active' available' :=
  ⟨active, available, h, Promised.same h h (Finset.Subset.refl _) (fun _ hx => hx) hdelete⟩

theorem invariant_elapse (h : Invariant cache w active available) {ticks : Nat} {ip : Ip}
    (hp : perform replacement rounds w (.elapse ticks ip) = some w') :
    ∃ active' available', Invariant cache w' active' available' ∧
      Promised w (.elapse ticks ip) w' active active' available' := by
  cases hp
  obtain ⟨hc, hc', hnodup, h₁, h₂, h₃⟩ := h.lists
  have hlists : Lists { w.device with time := w.device.time + ticks, ip := ip } active available :=
    ⟨hc, hc', hnodup, h₁, h₂, h₃⟩
  have h' : Invariant cache { w with device := { w.device with time := w.device.time + ticks, ip := ip } } active
      available :=
    ⟨hlists, h.cached, h.statics, fun x hx hd => (h.stamps x hx hd).imp_right (Nat.le_add_right_of_le ·)⟩
  exact ⟨active, available, h', Promised.same h h' (Finset.Subset.refl _) (fun _ hx => hx) fun a => ⟨nofun, nofun⟩⟩

/-- A new dynamic entry was available, or dynamic. --/
theorem Invariant.created (h : Invariant cache w active available) (hc : Created e a w.device d' active available)
    (he : e.translationType = .dynamicEntry) (hstamp : e.responseTimestamp = w.device.timeGet)
    (ha : a ∈ available ∨ a ∈ active ∧ dynamicAt w.device a = true) :
    ∃ active' available', Invariant cache (w.use (some a) d') (a :: active') available' ∧
      ∀ x ∈ available', x ∈ available := by
  obtain ⟨⟨active', available', hlists, hactive, havailable⟩, hentry, htime⟩ := hc
  have hself : dynamicAt d' a = true := by
    unfold dynamicAt
    rw [hentry, if_pos rfl, show ({ e with address := a } : Entry).translationType = .dynamicEntry from he]
    rfl
  have hother : ∀ x, x ≠ a → dynamicAt d' x = dynamicAt w.device x := fun x hx => by
    unfold dynamicAt
    rw [hentry, if_neg hx]
  have hnew : a ∉ available' := fun hx => hlists.not_available List.mem_cons_self hx
  refine ⟨active', available', ⟨hlists, fun x => ?_, fun x => ?_, fun x hx hd => ?_⟩, fun x hx => ?_⟩
  · rcases eq_or_ne x a with rfl | hx
    · exact ⟨fun _ => Or.inr ⟨List.mem_cons_self, hself⟩, fun _ => (h.cached x).mpr ha⟩
    · rw [h.cached, havailable x hx, List.mem_cons, or_iff_right hx, hactive x hx]
      show _ ↔ _ ∨ _ ∧ dynamicAt d' x = true
      rw [hother x hx]
  · show x ∈ w.statics ↔ x ∈ a :: active' ∧ dynamicAt d' x = false
    rcases eq_or_ne x a with rfl | hx
    · rw [hself]
      refine ⟨fun hs => ?_, fun hx => by cases hx.2⟩
      obtain ⟨hx, hstatic⟩ := (h.statics x).mp hs
      rcases ha with ha | ⟨-, hdynamic⟩
      · exact absurd ha (h.lists.not_available hx)
      · cases hstatic.symm.trans hdynamic
    · rw [List.mem_cons, or_iff_right hx, hactive x hx, hother x hx]
      exact h.statics x
  · show (d'.entry x).responseTimestamp = BitVec.ofNat 32 (Function.update w.used a w.device.time x) ∧
      Function.update w.used a w.device.time x ≤ d'.time
    rcases eq_or_ne x a with rfl | hx'
    · rw [hentry, if_pos rfl, Function.update_self, htime]
      exact ⟨hstamp, le_refl _⟩
    · rw [hentry, if_neg hx', Function.update_of_ne hx', htime]
      exact h.stamps x ((hactive x hx').mp ((List.mem_cons.mp hx).resolve_left hx')) ((hother x hx').symm.trans hd)
  · rcases eq_or_ne x a with rfl | hx'
    · exact absurd hx hnew
    · exact (havailable x hx').mp hx

theorem invariant_entryCreate (h : Invariant cache w active available) {responseTimeout : ULONG}
    (hp : perform replacement rounds w (.entryCreate e responseTimeout) = some w') :
    ∃ active' available', Invariant cache w' active' available' ∧
      Promised w (.entryCreate e responseTimeout) w' active active' available' := by
  obtain ⟨⟨r, d'⟩, hr, hw⟩ := Option.map_eq_some_iff.mp hp
  cases hw
  rcases entryCreate_spec h.lists hr with ⟨⟨status, rfl⟩, rfl⟩ | ⟨a, rfl, ha, hc⟩
  · exact h.refused fun a => ⟨nofun, nofun⟩
  · obtain ⟨active', available', h', havailable⟩ := h.created hc rfl rfl ha
    exact ⟨a :: active', available', h',
      Promised.same h h' (Finset.Subset.refl _) havailable fun a => ⟨nofun, nofun⟩⟩

theorem invariant_entryFind (h : Invariant cache w active available) {direction : Direction} {skip : Bool}
    (hp : perform replacement rounds w (.entryFind e direction skip) = some w') :
    ∃ active' available', Invariant cache w' active' available' ∧
      Promised w (.entryFind e direction skip) w' active active' available' := by
  obtain ⟨⟨r, d'⟩, hr, hw⟩ := Option.map_eq_some_iff.mp hp
  cases hw
  rcases entryFind_spec h.lists hr with ⟨rfl, rfl⟩ | ⟨a, front, back, rfl, rfl, hlists, hentry, htime⟩
  · exact h.refused fun a => ⟨nofun, nofun⟩
  · have hmem : ∀ x, x ∈ a :: (front ++ back) ↔ x ∈ front ++ a :: back := fun x => List.perm_middle.symm.mem_iff
    have hsame := dynamicAt_used hentry
    have h' : Invariant cache (w.use (some a) d') (a :: (front ++ back)) available := by
      refine ⟨hlists, fun x => ?_, fun x => ?_, fun x hx hd => ?_⟩
      · rw [h.cached, hmem]
        show _ ↔ _ ∨ _ ∧ dynamicAt d' x = true
        rw [hsame]
      · rw [hmem]
        show x ∈ w.statics ↔ _ ∧ dynamicAt d' x = false
        rw [hsame]
        exact h.statics x
      · show (d'.entry x).responseTimestamp = BitVec.ofNat 32 (Function.update w.used a w.device.time x) ∧
          Function.update w.used a w.device.time x ≤ d'.time
        rcases eq_or_ne x a with rfl | hx'
        · rw [hentry, Function.update_self, Function.update_self, htime]
          exact ⟨rfl, le_refl _⟩
        · rw [hentry, Function.update_of_ne hx', Function.update_of_ne hx', htime]
          exact h.stamps x ((hmem x).mp hx) ((hsame x).symm.trans hd)
    exact ⟨_, available, h',
      Promised.same h h' (Finset.Subset.refl _) (fun _ hx => hx) fun a => ⟨nofun, nofun⟩⟩

theorem invariant_entryTimeoutCheck (h : Invariant cache w active available)
    (hp : perform replacement rounds w .entryTimeoutCheck = some w') :
    ∃ active' available', Invariant cache w' active' available' ∧
      Promised w .entryTimeoutCheck w' active active' available' := by
  obtain ⟨d', hd, hw⟩ := Option.map_eq_some_iff.mp hp
  cases hw
  obtain ⟨hlists, hentry, htime, -⟩ := entryTimeoutCheck_spec h.lists hd
  have hdynamic : ∀ x, (w.device.entry x).timedOut w.device.timeGet = true → dynamicAt w.device x = true :=
    fun x hx => (Bool.and_eq_true_iff.mp hx).1
  have hsame := dynamicAt_of_entry hentry
  refine ⟨_, _, ⟨hlists, fun x => ?_, fun x => ?_, fun x hx hd => ?_⟩, fun a ha _ _ => ?_, fun a ha ha' => ⟨rfl, ?_⟩,
    fun a ha => by rcases ha with ha | ha <;> cases ha⟩
  · show _ ↔ _ ∨ _ ∧ dynamicAt d' x = true
    rw [h.cached, hsame, List.mem_append, List.mem_reverse, List.mem_filter, List.mem_filter]
    cases ht : (w.device.entry x).timedOut w.device.timeGet with
    | true => simp [hdynamic x ht, or_comm]
    | false => simp
  · show x ∈ w.statics ↔ _ ∧ dynamicAt d' x = false
    rw [h.statics, hsame, List.mem_filter]
    cases ht : (w.device.entry x).timedOut w.device.timeGet with
    | true => simp [hdynamic x ht]
    | false => simp
  · exact h.stamps_of_entry hentry htime (List.mem_filter.mp hx).1 hd
  · obtain ⟨ha, hstatic⟩ := (h.statics a).mp ha
    refine List.mem_filter.mpr ⟨ha, ?_⟩
    cases ht : (w.device.entry a).timedOut w.device.timeGet with
    | true => cases hstatic.symm.trans (hdynamic a ht)
    | false => rfl
  · rcases List.mem_append.mp ha' with ha' | ha'
    · obtain ⟨-, ht⟩ := List.mem_filter.mp (List.mem_reverse.mp ha')
      obtain ⟨hstamp, hused⟩ := h.stamps a ha (hdynamic a ht)
      have hle := of_decide_eq_true (Bool.and_eq_true_iff.mp ht).2
      rw [hstamp] at hle
      exact (BitVec.le_def.mp hle).trans (elapsed_le hused)
    · exact absurd ha' (h.lists.not_available ha)

theorem invariant_inboundEntryCreate (h : Invariant cache w active available)
    {localIpAddress externalPort localPort protocol : Nat}
    (hok : Allowed cache w (.inboundEntryCreate a localIpAddress externalPort localPort protocol))
    (hp : perform replacement rounds w (.inboundEntryCreate a localIpAddress externalPort localPort protocol) =
      some w') :
    ∃ active' available', Invariant cache w' active' available' ∧
      Promised w (.inboundEntryCreate a localIpAddress externalPort localPort protocol) w' active active'
        available' := by
  obtain ⟨⟨r, d'⟩, hr, hw⟩ := Option.map_eq_some_iff.mp hp
  cases hw
  rcases inboundEntryCreate_spec h.lists hr with ⟨⟨status, rfl⟩, -, rfl⟩ | ⟨rfl, hfree, rfl⟩
  · exact h.refused fun a => ⟨nofun, nofun⟩
  · obtain ⟨hcache, hstatics⟩ := hok.resolve_right hfree
    obtain ⟨hactive, havailable⟩ := h.not_listed hcache hstatics
    have hself : dynamicAt (entryAdd a (initialise a (inbound a localIpAddress externalPort localPort protocol)
        w.device)) a = false := dynamicAt_add_self
    have hother := fun x (hx : x ≠ a) => dynamicAt_add_ne (d := w.device)
      (e := inbound a localIpAddress externalPort localPort protocol) hx
    have h' : Invariant cache ⟨entryAdd a (initialise a (inbound a localIpAddress externalPort localPort protocol)
        w.device), w.used, insert a w.statics⟩ (a :: active) available := by
      refine ⟨lists_addStatic h.lists hactive havailable rfl, fun x => ?_, fun x => ?_, fun x hx hd => ?_⟩
      · rcases eq_or_ne x a with rfl | hx
        · refine ⟨fun hx => absurd hx hcache, fun hx => ?_⟩
          rcases hx with hx | ⟨-, hd⟩
          · exact absurd hx havailable
          · cases hself.symm.trans hd
        · rw [h.cached, List.mem_cons, or_iff_right hx]
          exact or_congr_right (and_congr_right fun _ => by rw [hother x hx])
      · rcases eq_or_ne x a with rfl | hx
        · exact ⟨fun _ => ⟨List.mem_cons_self, hself⟩, fun _ => Finset.mem_insert_self _ _⟩
        · rw [Finset.mem_insert, or_iff_right hx, h.statics, List.mem_cons, or_iff_right hx]
          exact and_congr_right fun _ => by rw [hother x hx]
      · rcases eq_or_ne x a with rfl | hx'
        · cases hself.symm.trans hd
        · have hst := h.stamps x ((List.mem_cons.mp hx).resolve_left hx') ((hother x hx').symm.trans hd)
          show ((entryAdd a (initialise a _ w.device)).entry x).responseTimestamp = _ ∧ _ ≤ (entryAdd a _).time
          rw [entry_add, if_neg hx', entryAdd_time]
          exact hst
    exact ⟨_, _, h', Promised.same h h' (Finset.subset_insert _ _) (fun _ hx => hx) fun a => ⟨nofun, nofun⟩⟩

/-- A deletion of what is no dynamic entry of the table. --/
theorem Invariant.deleted (h : Invariant cache w active available) {r : Except NatStatus Nat}
    (hstatic : a ∈ active → dynamicAt w.device a = false) (hr : inboundEntryDelete rounds a w.device = some (r, d')) :
    ∃ active', Invariant cache ⟨d', w.used, r.toOption.elim w.statics w.statics.erase⟩ active' available ∧
      (∀ x ∈ w.statics, x ≠ a → x ∈ active') ∧ (a ∉ w.statics → d' = w.device) := by
  rcases inboundEntryDelete_spec h.lists hr with
    ⟨⟨status, rfl⟩, rfl, ha⟩ | ⟨front, back, rfl, rfl, -, -, hlists, hentry, htime⟩
  · exact ⟨active, h, fun x hx _ => ((h.statics x).mp hx).1, fun _ => rfl⟩
  · have hmem : a ∈ front ++ a :: back := List.mem_append_right _ List.mem_cons_self
    have hstatic := hstatic hmem
    have hsame := dynamicAt_of_entry hentry
    have hother : ∀ x, x ≠ a → (x ∈ front ++ back ↔ x ∈ front ++ a :: back) := fun x hx => by
      rw [List.mem_append, List.mem_append, List.mem_cons, or_iff_right hx]
    have hgone : a ∉ front ++ back := fun ha =>
      (List.nodup_cons.mp (List.nodup_middle.mp h.lists.nodup_active)).1 ha
    refine ⟨front ++ back, ⟨hlists hstatic, fun x => ?_, fun x => ?_, fun x hx hd => ?_⟩,
      fun x hx hne => (hother x hne).mpr ((h.statics x).mp hx).1,
      fun ha => absurd ((h.statics a).mpr ⟨hmem, hstatic⟩) ha⟩
    · show _ ↔ _ ∨ _ ∧ dynamicAt d' x = true
      rw [h.cached, hsame]
      rcases eq_or_ne x a with rfl | hx
      · simp [hstatic]
      · rw [hother x hx]
    · show x ∈ w.statics.erase a ↔ _ ∧ dynamicAt d' x = false
      rw [Finset.mem_erase, h.statics, hsame]
      rcases eq_or_ne x a with rfl | hx
      · exact ⟨fun hx => absurd rfl hx.1, fun hx => absurd hx.1 hgone⟩
      · rw [hother x hx, and_iff_right hx]
    · have hne : x ≠ a := by rintro rfl; exact hgone hx
      exact h.stamps_of_entry hentry htime ((hother x hne).mp hx) hd

theorem invariant_inboundEntryDelete (h : Invariant cache w active available)
    (hok : Allowed cache w (.inboundEntryDelete a))
    (hp : perform replacement rounds w (.inboundEntryDelete a) = some w') :
    ∃ active' available', Invariant cache w' active' available' ∧
      Promised w (.inboundEntryDelete a) w' active active' available' := by
  obtain ⟨⟨r, d'⟩, hr, hw⟩ := Option.map_eq_some_iff.mp hp
  cases hw
  obtain ⟨active', h', hkept, hsame⟩ := h.deleted (hok active h.lists.activeChain) hr
  refine ⟨active', available, h', fun x hx hne _ => hkept x hx (by rintro rfl; exact hne rfl),
    fun x hx hx' => absurd hx' (h.lists.not_available hx), fun x hx hs => ?_⟩
  rcases hx with hx | hx
  · cases hx
    exact hsame hs
  · cases hx

theorem invariant_inboundEntryDeleteChecked (h : Invariant cache w active available)
    (hp : perform replacement rounds w (.inboundEntryDeleteChecked a) = some w') :
    ∃ active' available', Invariant cache w' active' available' ∧
      Promised w (.inboundEntryDeleteChecked a) w' active active' available' := by
  obtain ⟨⟨r, d'⟩, hr, hw⟩ := Option.map_eq_some_iff.mp hp
  cases hw
  change inboundEntryDeleteChecked rounds a w.device = some (r, d') at hr
  unfold inboundEntryDeleteChecked at hr
  split at hr
  · cases hr
    exact ⟨active, available, h, fun x hx _ _ => ((h.statics x).mp hx).1,
      fun x hx hx' => absurd hx' (h.lists.not_available hx), fun _ _ _ => rfl⟩
  · rename_i ht
    have hstatic : dynamicAt w.device a = false := by
      unfold dynamicAt
      rw [not_not.mp ht]
      rfl
    obtain ⟨active', h', hkept, hsame⟩ := h.deleted (fun _ => hstatic) hr
    refine ⟨active', available, h', fun x hx _ hne => hkept x hx (by rintro rfl; exact hne rfl),
      fun x hx hx' => absurd hx' (h.lists.not_available hx), fun x hx hs => ?_⟩
    rcases hx with hx | hx
    · cases hx
    · cases hx
      exact hsame hs

/-- One action. --/
theorem invariant_step (h : Invariant cache w active available) (hok : Allowed cache w action)
    (hp : perform replacement rounds w action = some w') :
    ∃ active' available', Invariant cache w' active' available' ∧
      Promised w action w' active active' available' := by
  cases action with
  | elapse ticks ip => exact invariant_elapse h hp
  | entryCreate e responseTimeout => exact invariant_entryCreate h hp
  | entryFind e direction skip => exact invariant_entryFind h hp
  | entryTimeoutCheck => exact invariant_entryTimeoutCheck h hp
  | inboundEntryCreate a localIpAddress externalPort localPort protocol =>
    exact invariant_inboundEntryCreate h hok hp
  | inboundEntryDelete a => exact invariant_inboundEntryDelete h hok hp
  | inboundEntryDeleteChecked a => exact invariant_inboundEntryDeleteChecked h hp

/-- Every action ends. --/
theorem perform_isSome (h : Invariant cache w active available) (hrounds : active.length ≤ rounds) (action : Action) :
    (perform replacement rounds w action).isSome := by
  have hlists := h.lists
  cases action with
  | elapse ticks ip => rfl
  | entryCreate e responseTimeout => exact Option.isSome_map.trans (entryCreate_isSome hlists hrounds)
  | entryFind e direction skip => exact Option.isSome_map.trans (entryFind_isSome hlists hrounds)
  | entryTimeoutCheck => exact Option.isSome_map.trans (entryTimeoutCheck_isSome hlists hrounds)
  | inboundEntryCreate a localIpAddress externalPort localPort protocol =>
    exact Option.isSome_map.trans (inboundEntryCreate_isSome hlists hrounds)
  | inboundEntryDelete a => exact Option.isSome_map.trans (inboundEntryDelete_isSome hlists hrounds)
  | inboundEntryDeleteChecked a =>
    refine Option.isSome_map.trans ?_
    unfold inboundEntryDeleteChecked
    split
    · rfl
    · exact inboundEntryDelete_isSome hlists hrounds

/-- A static entry in memory that is on a list already: the active list comes back to it, or both lists have it. --/
theorem allowed_of_inboundEntryCreate (h : Invariant cache w active available)
    {localIpAddress externalPort localPort protocol : Nat}
    (hp : perform replacement rounds w (.inboundEntryCreate a localIpAddress externalPort localPort protocol) =
      some w') (h' : Invariant cache w' active' available') :
    Allowed cache w (.inboundEntryCreate a localIpAddress externalPort localPort protocol) := by
  obtain ⟨⟨r, d'⟩, hr, hw⟩ := Option.map_eq_some_iff.mp hp
  cases hw
  rcases inboundEntryCreate_spec h.lists hr with ⟨-, htaken, -⟩ | ⟨rfl, -, rfl⟩
  · exact Or.inr htaken
  · have hchain := h'.lists.activeChain
    have hnodup := h'.lists.nodup_active
    cases active' with
    | nil => cases (entryAdd_activeHead.symm.trans hchain : some a = none)
    | cons b rest =>
      obtain rfl : a = b := Option.some.inj (entryAdd_activeHead.symm.trans hchain.1)
      have hself : dynamicAt (entryAdd a (initialise a (inbound a localIpAddress externalPort localPort protocol)
          w.device)) a = false := dynamicAt_add_self
      refine Or.inl ⟨fun hcache => ?_, fun hstatics => ?_⟩
      · rcases (h'.cached a).mp hcache with ha | ⟨-, hd⟩
        · exact h'.lists.not_available List.mem_cons_self ha
        · cases hself.symm.trans hd
      · have hrest := hchain.2
        have ha := (List.nodup_cons.mp hnodup).1
        have hnext : (entryAdd a (initialise a (inbound a localIpAddress externalPort localPort protocol)
            w.device)).next = Function.update w.device.next a w.device.activeHead :=
          entryAdd_next.trans (Function.update_idem _ _ _)
        change Chain (entryAdd a _).next ((entryAdd a _).next a) rest at hrest
        rw [hnext, Function.update_self] at hrest
        have hold : Chain w.device.next w.device.activeHead rest :=
          hrest.congr fun x hx => (Function.update_of_ne (by rintro rfl; exact ha hx) _ _).symm
        obtain rfl := hold.unique h.lists.activeChain
        exact ha ((h.statics a).mp hstatics).1

/-- A dynamic entry that is deleted is on no list any more. --/
theorem allowed_of_inboundEntryDelete (h : Invariant cache w active available)
    (hp : perform replacement rounds w (.inboundEntryDelete a) = some w') (h' : Invariant cache w' active' available') :
    Allowed cache w (.inboundEntryDelete a) := by
  obtain ⟨⟨r, d'⟩, hr, hw⟩ := Option.map_eq_some_iff.mp hp
  cases hw
  intro active₀ hactive₀ ha
  obtain rfl := hactive₀.unique h.lists.activeChain
  rcases inboundEntryDelete_spec h.lists hr with ⟨-, -, hno⟩ | ⟨front, back, rfl, rfl, hc, hc', -⟩
  · exact absurd ha hno
  · rw [Bool.eq_false_iff]
    intro hdynamic
    obtain rfl := hc.unique h'.lists.activeChain
    obtain rfl := hc'.unique h'.lists.availableChain
    rcases (h'.cached a).mp ((h.cached a).mpr (Or.inr ⟨ha, hdynamic⟩)) with hav | ⟨hact, -⟩
    · exact h.lists.not_available ha hav
    · exact (List.nodup_cons.mp (List.nodup_middle.mp h.lists.nodup_active)).1 hact

theorem allowed_of_invariant (h : Invariant cache w active available)
    (hp : perform replacement rounds w action = some w') (h' : Invariant cache w' active' available') :
    Allowed cache w action := by
  cases action with
  | inboundEntryCreate a localIpAddress externalPort localPort protocol =>
    exact allowed_of_inboundEntryCreate h hp h'
  | inboundEntryDelete a => exact allowed_of_inboundEntryDelete h hp h'
  | elapse ticks ip => exact trivial
  | entryCreate e responseTimeout => exact trivial
  | entryFind e direction skip => exact trivial
  | entryTimeoutCheck => exact trivial
  | inboundEntryDeleteChecked a => exact trivial

/-! ### From the creation on -/

/-- Each entry of the cache points to that behind it. --/
theorem natCreate_chain {ip : Ip} {entry : Nat → Entry} {start entries time : Nat} : ∀ {n a : Nat}, start ≤ a →
    a + n = start + entries → 0 < n →
    Chain (natCreate ip entry start entries time).next (some a) (List.range' a n)
  | 0, _, _, _, hn => absurd hn (lt_irrefl 0)
  | 1, a, hle, hstop, _ => by
    have hlast : (natCreate ip entry start entries time).next a = none := if_neg (by omega)
    exact ⟨rfl, hlast⟩
  | n + 2, a, hle, hstop, _ => by
    have hnext : (natCreate ip entry start entries time).next a = some (a + 1) := if_pos ⟨hle, by omega⟩
    rw [List.range'_succ]
    refine ⟨rfl, ?_⟩
    rw [hnext]
    exact natCreate_chain (Nat.le_succ_of_le hle) (by omega) (Nat.succ_pos n)

theorem natCreate_invariant {ip : Ip} {entry : Nat → Entry} {start entries time : Nat} (hentries : 0 < entries)
    (used : Nat → Nat) : Invariant (Finset.Ico start (start + entries))
      ⟨natCreate ip entry start entries time, used, ∅⟩ [] (List.range' start entries) := by
  refine ⟨⟨rfl, natCreate_chain (le_refl _) rfl hentries, List.nodup_range', rfl, ?_, rfl⟩, fun a => ?_, fun a => ?_,
    fun a ha => absurd ha List.not_mem_nil⟩
  · rw [List.length_range']
    rfl
  · simp
  · simp

/-- Over every run of the table, each static entry of which was created in memory of its own or not at all, and none of
    whose deletions passes by the front end with a dynamic entry: every entry is where it belongs and the counters are
    right, every action ends, and it keeps all this and does what it promises just where it is of the same kind. --/
theorem run_conserved (replacement : Bool) (ip : Ip) (entry : Nat → Entry) (start time : Nat) (used : Nat → Nat)
    {entries : Nat} (hentries : 0 < entries) {w : World}
    (hrun : Reach replacement (Allowed (Finset.Ico start (start + entries)))
      ⟨natCreate ip entry start entries time, used, ∅⟩ w) :
    ∃ active available, Invariant (Finset.Ico start (start + entries)) w active available ∧
      ∀ action, (∀ rounds, active.length ≤ rounds → (perform replacement rounds w action).isSome) ∧
        ∀ rounds w', perform replacement rounds w action = some w' →
          (Allowed (Finset.Ico start (start + entries)) w action ↔
            ∃ active' available', Invariant (Finset.Ico start (start + entries)) w' active' available' ∧
              Promised w action w' active active' available') := by
  have hinvariant : ∃ active available, Invariant (Finset.Ico start (start + entries)) w active available := by
    induction hrun with
    | start => exact ⟨_, _, natCreate_invariant hentries used⟩
    | next _ hok hp ih =>
      obtain ⟨active, available, h⟩ := ih
      obtain ⟨active', available', h', -⟩ := invariant_step h hok hp
      exact ⟨active', available', h'⟩
  obtain ⟨active, available, h⟩ := hinvariant
  refine ⟨active, available, h, fun action => ⟨fun rounds hrounds => perform_isSome h hrounds action,
    fun rounds w' hp => ⟨fun hok => invariant_step h hok hp, fun ⟨_, _, h', _⟩ => allowed_of_invariant h hp h'⟩⟩⟩

/-! ### The same memory twice -/

/-- A host with no socket. --/
def quietHost : Ip := ⟨0, fun _ _ => false, fun _ => true, fun _ => true⟩

/-- A table of three entries. --/
def threeEntries : World :=
  ⟨natCreate quietHost (fun a => inbound a 0 0 0 0) 0 3 0, fun _ => 0, ∅⟩

theorem run_conserved_three : ∃ w, perform false 2 threeEntries (.inboundEntryCreate 10 1 80 80 6) = some w ∧
    ∃ active available, Invariant (Finset.Ico 0 (0 + 3)) w active available := by
  have hp : perform false 2 threeEntries (.inboundEntryCreate 10 1 80 80 6) =
    some ((perform false 2 threeEntries (.inboundEntryCreate 10 1 80 80 6)).get rfl) := rfl
  have hok : Allowed (Finset.Ico 0 (0 + 3)) threeEntries (.inboundEntryCreate 10 1 80 80 6) :=
    Or.inl ⟨by decide, by decide⟩
  obtain ⟨active, available, h, -⟩ := run_conserved false quietHost (fun a => inbound a 0 0 0 0) 0 0 (fun _ => 0)
    (by decide : 0 < 3) (Reach.next (Reach.start) hok hp)
  exact ⟨_, hp, active, available, h⟩

/-- A static entry is created twice, for two ports: the active list comes back to it for ever. --/
theorem createdTwice_not_conserved : ¬∀ w, Reach false (fun _ _ => True) threeEntries w →
    ∃ active available, Invariant (Finset.Ico 0 3) w active available := by
  intro hall
  have hp : perform false 2 threeEntries (.inboundEntryCreate 10 1 80 80 6) =
    some ((perform false 2 threeEntries (.inboundEntryCreate 10 1 80 80 6)).get rfl) := rfl
  have hp' : perform false 2 ((perform false 2 threeEntries (.inboundEntryCreate 10 1 80 80 6)).get rfl)
    (.inboundEntryCreate 10 1 81 81 6) = some ((perform false 2 ((perform false 2 threeEntries
      (.inboundEntryCreate 10 1 80 80 6)).get rfl) (.inboundEntryCreate 10 1 81 81 6)).get rfl) := rfl
  obtain ⟨active, available, h⟩ := hall _ (.next (.next .start trivial hp) trivial hp')
  have hchain := h.lists.activeChain
  have hnodup := h.lists.nodup_active
  rcases active with - | ⟨a, - | ⟨b, rest⟩⟩
  · cases (hchain : some 10 = none)
  · obtain rfl := Option.some.inj hchain.1
    cases (hchain.2 : some 10 = none)
  · obtain rfl := Option.some.inj hchain.1
    obtain rfl := Option.some.inj hchain.2.1
    exact (List.nodup_cons.mp hnodup).1 List.mem_cons_self

end

end Netxduo.Translation.Links
