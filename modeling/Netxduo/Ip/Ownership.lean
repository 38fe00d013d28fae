import Mathlib
import Netxduo.Ip.Fragment
import Netxduo.Library.Runs

/-! The assembly list over whole runs: every received fragment is in one place, the pointers delimit the list, the
    chains ascend, no pool is held past its reserve, and the timer of a datagram is not started again. -/

namespace Netxduo.Ip
open Runs

/-! ### Insertion -/

section
variable {f g : Fragment} {l old : List Fragment} {c c' : Chain}

/-- The new fragment and the old ones are on the chain or given back. --/
theorem chainInsert_perm (f : Fragment) (l : List Fragment) :
    ((chainInsert f l).1 ++ (chainInsert f l).2).Perm (f :: l) := by
  induction l with
  | nil => rfl
  | cons g l ih =>
    rw [chainInsert]
    split_ifs
    · exact (@List.perm_append_comm _ (f :: l) [g]).trans (List.Perm.swap ..)
    · rw [List.append_nil]
    · exact (ih.cons g).trans (List.Perm.swap ..)

theorem mem_chainInsert (h : g ∈ (chainInsert f l).1) : g = f ∨ g ∈ l :=
  List.mem_cons.mp ((chainInsert_perm f l).subset (List.mem_append_left _ h))

/-- What gives way is a copy. --/
theorem offset_of_mem_old (h : g ∈ (chainInsert f l).2) : g ∈ l ∧ f.offset = g.offset := by
  induction l with
  | nil => cases h
  | cons k l ih =>
    rw [chainInsert] at h
    split_ifs at h with hle heq
    · cases List.mem_singleton.mp h
      exact ⟨List.mem_cons_self .., heq⟩
    · cases h
    · obtain ⟨hg, heq⟩ := ih h
      exact ⟨List.mem_cons_of_mem _ hg, heq⟩

/-- A strictly ascending list stays one. --/
theorem chainInsert_ascending (h : l.Pairwise fun f g => f.offset < g.offset) :
    (chainInsert f l).1.Pairwise fun f g => f.offset < g.offset := by
  induction l with
  | nil => exact List.pairwise_singleton ..
  | cons g l ih =>
    obtain ⟨hg, hl⟩ := List.pairwise_cons.mp h
    rw [chainInsert]
    split_ifs with hle heq
    · refine List.pairwise_cons.mpr ⟨fun k hk => ?_, hl⟩
      rw [heq]
      exact hg k hk
    · have hlt : f.offset < g.offset := BitVec.lt_of_le_ne hle heq
      refine List.pairwise_cons.mpr ⟨fun k hk => ?_, h⟩
      rcases List.mem_cons.mp hk with rfl | hk
      · exact hlt
      · exact BitVec.lt_trans hlt (hg k hk)
    · refine List.pairwise_cons.mpr ⟨fun k hk => ?_, ih hl⟩
      rcases mem_chainInsert hk with rfl | hk
      · exact BitVec.not_le.mp hle
      · exact hg k hk

/-- The insertion into a chain is the one into its fragments. --/
theorem Chain.toList_insert (f : Fragment) (c : Chain) :
    (c.insert f).1.toList = (chainInsert f c.toList).1 ∧ (c.insert f).2 = (chainInsert f c.toList).2 := by
  have hlist : chainInsert f c.toList =
      if f.offset ≤ c.first.offset then
        if f.offset = c.first.offset then (f :: c.rest, [c.first]) else (f :: c.first :: c.rest, [])
      else (c.first :: (chainInsert f c.rest).1, (chainInsert f c.rest).2) := by
    rw [Chain.toList, chainInsert]
  rw [hlist, Chain.insert]
  split_ifs
  · exact ⟨rfl, rfl⟩
  · exact ⟨rfl, rfl⟩
  · exact ⟨rfl, rfl⟩

theorem Chain.first_insert (f : Fragment) (c : Chain) :
    (c.insert f).1.first = if f.offset ≤ c.first.offset then f else c.first := by
  rw [Chain.insert]
  split_ifs <;> rfl

end

/-! ### The search -/

section
variable {key : FragmentKey} {l before after : List Chain} {c : Chain}

theorem assemblySearch_some (h : assemblySearch key l = (before, some (c, after))) :
    l = before ++ c :: after ∧ c.first.key = key ∧ ∀ d ∈ before, d.first.key ≠ key := by
  induction l generalizing before with
  | nil => cases h
  | cons d l ih =>
    rw [assemblySearch] at h
    split_ifs at h with hkey
    · cases h
      exact ⟨rfl, hkey, fun d hd => by cases hd⟩
    · cases hsearch : assemblySearch key l with
      | mk before' found =>
        rw [hsearch] at h
        cases h
        obtain ⟨rfl, hc, hbefore⟩ := ih hsearch
        refine ⟨rfl, hc, fun e he => ?_⟩
        rcases List.mem_cons.mp he with rfl | he
        · exact hkey
        · exact hbefore e he

theorem assemblySearch_none (h : assemblySearch key l = (before, none)) : ∀ d ∈ l, d.first.key ≠ key := by
  induction l generalizing before with
  | nil => exact fun d hd => by cases hd
  | cons d l ih =>
    rw [assemblySearch] at h
    split_ifs at h with hkey
    · cases h
    · cases hsearch : assemblySearch key l with
      | mk before' found =>
        rw [hsearch] at h
        cases h
        intro e he
        rcases List.mem_cons.mp he with rfl | he
        · exact hkey
        · exact ih hsearch e he

end

/-! ### The invariant -/

/-- The fragment apart from its timer. --/
def Fragment.untimed (f : Fragment) : Fragment := { f with reassemblyTime := 0 }

/-- The assembly list as it should be. --/
structure Owned (env : Environment) (a : Assembly) : Prop where
  /-- Each received fragment is released, dispatched in one datagram, or on one chain. --/
  places : (a.received.map Fragment.untimed).Perm
    ((a.released ++ a.dispatched.flatMap (·.fragments) ++ a.held).map Fragment.untimed)
  nodup : (a.held.map (·.addr)).Nodup
  head : a.head = a.chains.head?.map (·.first.addr)
  tail : a.tail = a.chains.getLast?.map (·.first.addr)
  ascending : ∀ c ∈ a.chains, c.toList.Pairwise fun f g => f.offset < g.offset
  pools : ∀ pool, assemblyHeld a pool ≤ env.poolTotal pool - poolReserve env pool
  keys : ∀ c ∈ a.chains, ∀ f ∈ c.toList, f.key = c.first.key
  distinct : (a.chains.map (·.first.key)).Nodup

section
variable {env : Environment} {a : Assembly} {f : Fragment} {before after : List Chain} {c : Chain}

theorem owned_empty (env : Environment) : Owned env .empty := by
  refine ⟨List.Perm.refl _, List.nodup_nil, rfl, rfl, ?_, fun _ => Nat.zero_le _, ?_, List.nodup_nil⟩
  · intro c hc
    cases hc
  · intro c hc
    cases hc

/-- The addresses the pointers may hold are those of the first fragments, all different. --/
theorem Owned.firsts_nodup (h : Owned env a) : (a.chains.map (·.first.addr)).Nodup := by
  refine List.Nodup.sublist ?_ h.nodup
  have hsub : (a.chains.map Chain.first).Sublist a.held := by
    rw [Assembly.held]
    generalize a.chains = chains
    induction chains with
    | nil => exact List.Sublist.slnil
    | cons c chains ih =>
      rw [List.flatMap_cons, List.map_cons, Chain.toList, List.cons_append]
      exact (ih.trans (List.sublist_append_right ..)).cons_cons c.first
  have hmap := hsub.map (·.addr)
  rw [List.map_map] at hmap
  exact hmap

/-! ### An arrival -/

variable {held held' gone : List Fragment}

theorem nodup_of_perm (hperm : (held' ++ gone).Perm (f :: held)) (hnodup : (held.map (·.addr)).Nodup)
    (hfresh : f.addr ∉ held.map (·.addr)) : (held'.map (·.addr)).Nodup := by
  have hall : ((held' ++ gone).map (·.addr)).Nodup := by
    rw [(hperm.map _).nodup_iff, List.map_cons, List.nodup_cons]
    exact ⟨hfresh, hnodup⟩
  rw [List.map_append] at hall
  exact hall.of_append_left

theorem pools_of_perm (hperm : (held' ++ gone).Perm (f :: held)) (pool : Nat) :
    (held'.map fun g => g.pools.count pool).sum ≤
      f.pools.count pool + (held.map fun g => g.pools.count pool).sum := by
  have hsum := (hperm.map fun g => g.pools.count pool).sum_eq
  rw [List.map_append, List.sum_append, List.map_cons, List.sum_cons] at hsum
  omega

/-- A fragment that fits leaves every pool its reserve. --/
theorem Owned.fits (h : Owned env a) (hfits : assemblyFits env a f = true) (pool : Nat) :
    f.pools.count pool + assemblyHeld a pool ≤ env.poolTotal pool - poolReserve env pool := by
  by_cases hmem : pool ∈ f.pools
  · have := of_decide_eq_true (List.all_eq_true.mp hfits pool hmem)
    omega
  · have := h.pools pool
    rw [List.count_eq_zero_of_not_mem hmem]
    omega

/-- A first fragment at the end of the list is the one the tail pointer designates. --/
theorem tail_iff {l : List Chain} (hnodup : ((before ++ c :: after).map (·.first.addr)).Nodup)
    (hl : l = before ++ c :: after) : l.getLast?.map (·.first.addr) = some c.first.addr ↔ after = [] := by
  subst hl
  constructor
  · intro hlast
    by_contra hne
    obtain ⟨q, d, hq⟩ := (List.eq_nil_or_concat after).resolve_left hne
    rw [List.concat_eq_append] at hq
    rw [hq, ← List.cons_append, ← List.append_assoc, List.getLast?_concat, Option.map_some, Option.some.injEq] at hlast
    rw [hq, List.map_append, List.map_cons, List.map_append] at hnodup
    have hcons := (List.nodup_append.mp hnodup).2.1
    refine (List.nodup_cons.mp hcons).1 (List.mem_append_right _ ?_)
    rw [← hlast]
    exact List.mem_singleton_self _
  · rintro rfl
    rw [List.getLast?_concat]
    rfl

/-- The fragment with the timer of its datagram. --/
def Fragment.joining (f : Fragment) (c : Chain) : Fragment := { f with reassemblyTime := c.first.reassemblyTime }

@[simp] theorem untimed_joining (f : Fragment) (c : Chain) : (f.joining c).untimed = f.untimed := rfl

/-- What the insertion of a fragment makes of the chain of its datagram. --/
structure Inserted (f : Fragment) (c c' : Chain) (old : List Fragment) : Prop where
  perm : (c'.toList ++ old).Perm (f.joining c :: c.toList)
  first : c'.first = if f.offset ≤ c.first.offset then f.joining c else c.first
  ascending : c.toList.Pairwise (fun f g => f.offset < g.offset) → c'.toList.Pairwise fun f g => f.offset < g.offset

theorem inserted (f : Fragment) (c : Chain) :
    Inserted f c (c.insert (f.joining c)).1 (c.insert (f.joining c)).2 := by
  obtain ⟨hlist, hold⟩ := Chain.toList_insert (f.joining c) c
  refine ⟨?_, Chain.first_insert _ c, fun h => ?_⟩
  · rw [hlist, hold]
    exact chainInsert_perm ..
  · rw [hlist]
    exact chainInsert_ascending h

variable {c' : Chain} {old : List Fragment}

theorem Inserted.key_first (h : Inserted f c c' old) (hkey : c.first.key = f.key) : c'.first.key = c.first.key := by
  rw [h.first]
  split_ifs
  · exact hkey.symm
  · rfl

theorem Inserted.keys (h : Inserted f c c' old) (hkey : c.first.key = f.key)
    (hkeys : ∀ g ∈ c.toList, g.key = c.first.key) : ∀ g ∈ c'.toList, g.key = c'.first.key := by
  intro g hg
  rw [h.key_first hkey]
  rcases List.mem_cons.mp (h.perm.subset (List.mem_append_left _ hg)) with rfl | hg
  · exact hkey.symm
  · exact hkeys g hg

/-- What holds of every chain still does when one of them is exchanged for another of which it holds. --/
theorem forall_exchanged {P : Chain → Prop} (h : ∀ d ∈ a.chains, P d) (hsplit : a.chains = before ++ c :: after)
    (hc : P c') : ∀ d ∈ before ++ c' :: after, P d := by
  rw [hsplit] at h
  obtain ⟨hbefore, hrest⟩ := List.forall_mem_append.mp h
  exact List.forall_mem_append.mpr ⟨hbefore, List.forall_mem_cons.mpr ⟨hc, (List.forall_mem_cons.mp hrest).2⟩⟩

theorem held_split (hsplit : a.chains = before ++ c :: after) :
    a.held = before.flatMap Chain.toList ++ (c.toList ++ after.flatMap Chain.toList) := by
  rw [Assembly.held, hsplit, List.flatMap_append, List.flatMap_cons]

/-- The pointers after an insertion that does not complete the datagram. --/
theorem Inserted.pointers (h : Inserted f c c' old) {head tail : Option Nat}
    (hnodup : ((before ++ c :: after).map (·.first.addr)).Nodup)
    (hhead : head = (before ++ c :: after).head?.map (·.first.addr))
    (htail : tail = (before ++ c :: after).getLast?.map (·.first.addr)) :
    (if f.offset ≤ c.first.offset ∧ before = [] then some f.addr else head) =
        (before ++ c' :: after).head?.map (·.first.addr) ∧
      (if f.offset ≤ c.first.offset ∧ tail = some c.first.addr then some f.addr else tail) =
        (before ++ c' :: after).getLast?.map (·.first.addr) := by
  have hlast := tail_iff hnodup rfl
  rw [← htail] at hlast
  constructor
  · rcases before with _ | ⟨d, before⟩
    · rw [hhead, List.nil_append, List.nil_append, List.head?_cons, List.head?_cons, Option.map_some, Option.map_some,
        h.first]
      by_cases hfront : f.offset ≤ c.first.offset
      · rw [if_pos ⟨hfront, rfl⟩, if_pos hfront]
        rfl
      · rw [if_neg (fun hand => hfront hand.1), if_neg hfront]
    · rw [if_neg (fun hand => List.cons_ne_nil _ _ hand.2), hhead]
      rfl
  · by_cases hnil : after = []
    · subst hnil
      rw [List.getLast?_concat, Option.map_some, h.first]
      by_cases hfront : f.offset ≤ c.first.offset
      · rw [if_pos ⟨hfront, hlast.mpr rfl⟩, if_pos hfront]
        rfl
      · rw [if_neg (fun hand => hfront hand.1), if_neg hfront]
        exact hlast.mpr rfl
    · obtain ⟨q, d, rfl⟩ := (List.eq_nil_or_concat after).resolve_left hnil
      rw [if_neg (fun hand => hnil (hlast.mp hand.2)), htail, List.concat_eq_append, ← List.cons_append,
        ← List.append_assoc, List.getLast?_concat, ← List.cons_append, ← List.append_assoc, List.getLast?_concat]

/-- The state in which the fragment is on the chain of its datagram. --/
def inserting (a : Assembly) (f : Fragment) (before : List Chain) (c : Chain) (after : List Chain) : Assembly :=
  { a with
    chains := before ++ (c.insert (f.joining c)).1 :: after
    head := if f.offset ≤ c.first.offset ∧ before = [] then some f.addr else a.head
    tail := if f.offset ≤ c.first.offset ∧ a.tail = some c.first.addr then some f.addr else a.tail
    received := a.received ++ [f]
    released := a.released ++ (c.insert (f.joining c)).2 }

/-- The new fragment is held with the others, or a copy has given way to it. --/
theorem held_inserting (hsplit : a.chains = before ++ c :: after) :
    ((inserting a f before c after).held ++ (c.insert (f.joining c)).2).Perm (f.joining c :: a.held) := by
  refine List.perm_iff_count.mpr fun g => ?_
  have hcount := (inserted f c).perm.count_eq g
  rw [held_split hsplit, held_split (a := inserting a f before c after) rfl]
  simp only [List.count_append, List.count_cons] at hcount ⊢
  omega

theorem Owned.insert (h : Owned env a) (hfits : assemblyFits env a f = true) (hsplit : a.chains = before ++ c :: after)
    (hkey : c.first.key = f.key) (hfresh : f.addr ∉ a.held.map (·.addr)) :
    Owned env (inserting a f before c after) := by
  have hins := inserted f c
  have hperm := held_inserting (f := f) hsplit
  rw [held_split (a := inserting a f before c after) rfl] at hperm
  unfold inserting
  generalize (c.insert (f.joining c)).1 = c' at hins hperm ⊢
  generalize (c.insert (f.joining c)).2 = old at hins hperm ⊢
  have hc : c ∈ a.chains := by
    rw [hsplit]
    exact List.mem_append_right _ (List.mem_cons_self ..)
  have hfirsts := h.firsts_nodup
  have hhead := h.head
  have htail := h.tail
  rw [hsplit] at hfirsts hhead htail
  obtain ⟨hhead', htail'⟩ := hins.pointers hfirsts hhead htail
  refine ⟨?_, ?_, hhead', htail', forall_exchanged h.ascending hsplit (hins.ascending (h.ascending c hc)), fun pool => ?_,
    forall_exchanged h.keys hsplit (hins.keys hkey (h.keys c hc)), ?_⟩
  · refine List.perm_iff_count.mpr fun g => ?_
    have hplaces := h.places.count_eq g
    have hcount := (hperm.map Fragment.untimed).count_eq g
    simp only [Assembly.held, List.flatMap_append, List.flatMap_cons, List.map_append, List.map_cons, List.map_nil,
      List.count_append, List.count_cons, List.count_nil, untimed_joining] at hplaces hcount ⊢
    omega
  · rw [Assembly.held, List.flatMap_append, List.flatMap_cons]
    exact nodup_of_perm hperm h.nodup hfresh
  · have hpool := pools_of_perm hperm pool
    have hlimit := h.fits hfits pool
    rw [assemblyHeld] at hlimit ⊢
    rw [Assembly.held, List.flatMap_append, List.flatMap_cons]
    exact Nat.le_trans hpool hlimit
  · have hdistinct := h.distinct
    rw [hsplit, List.map_append, List.map_cons] at hdistinct
    rw [List.map_append, List.map_cons, hins.key_first hkey]
    exact hdistinct

/-- Taking a chain off the list, its fragments being accounted for elsewhere. --/
theorem Owned.remove (h : Owned env a) (hsplit : a.chains = before ++ c :: after) {released : List Fragment}
    {dispatched : List Datagram}
    (hgone : (released ++ dispatched.flatMap (·.fragments)).Perm
      (a.released ++ a.dispatched.flatMap (·.fragments) ++ c.toList)) :
    Owned env
      { a with
        chains := before ++ after
        head := if before = [] then after.head?.map (·.first.addr) else a.head
        tail := if a.tail = some c.first.addr then before.getLast?.map (·.first.addr) else a.tail
        released := released
        dispatched := dispatched } := by
  have hheld := held_split hsplit
  have hfirsts := h.firsts_nodup
  have htail := h.tail
  have hhead := h.head
  rw [hsplit] at hfirsts hhead
  have hlast := tail_iff hfirsts hsplit
  rw [← htail] at hlast
  have hsub : before ++ after ⊆ a.chains := by
    rw [hsplit]
    exact List.append_subset.mpr ⟨List.subset_append_left ..,
      fun d hd => List.mem_append_right _ (List.mem_cons_of_mem _ hd)⟩
  have hperm : ((before ++ after).flatMap Chain.toList ++ c.toList).Perm a.held := by
    rw [hheld, List.flatMap_append, List.append_assoc]
    exact List.perm_append_comm.append_left _
  refine ⟨?_, ?_, ?_, ?_, fun d hd => h.ascending d (hsub hd), fun pool => ?_, fun d hd => h.keys d (hsub hd), ?_⟩
  · refine List.perm_iff_count.mpr fun g => ?_
    have hplaces := h.places.count_eq g
    have hcount := (hperm.map Fragment.untimed).count_eq g
    have hcount' := (hgone.map Fragment.untimed).count_eq g
    simp only [Assembly.held, List.map_append, List.count_append] at hplaces hcount hcount' ⊢
    omega
  · have hnodup := h.nodup
    rw [← (hperm.map (·.addr)).nodup_iff, List.map_append] at hnodup
    exact hnodup.of_append_left
  · rcases before with _ | ⟨d, before⟩
    · rw [if_pos rfl, List.nil_append]
    · rw [if_neg (List.cons_ne_nil _ _), hhead]
      rfl
  · by_cases hnil : after = []
    · subst hnil
      rw [if_pos (hlast.mpr rfl), List.append_nil]
    · obtain ⟨q, d, rfl⟩ := (List.eq_nil_or_concat after).resolve_left hnil
      rw [if_neg fun heq => hnil (hlast.mp heq), htail, hsplit, List.concat_eq_append, ← List.cons_append,
        ← List.append_assoc, List.getLast?_concat, ← List.append_assoc, List.getLast?_concat]
  · have hsum := (hperm.map fun g => g.pools.count pool).sum_eq
    have hpool := h.pools pool
    rw [List.map_append, List.sum_append] at hsum
    rw [assemblyHeld] at hpool ⊢
    rw [Assembly.held]
    dsimp only
    omega
  · have hdistinct := h.distinct
    rw [hsplit, List.map_append, List.map_cons] at hdistinct
    rw [List.map_append]
    exact hdistinct.sublist (List.Sublist.append_left (List.sublist_cons_self ..) _)

/-- A complete datagram leaves the list, as the code takes it off behind the insertion. --/
theorem joinDatagram_eq :
    joinDatagram env { a with received := a.received ++ [f] } f before c after =
      if (c.insert (f.joining c)).1.complete then
        { inserting a f before c after with
          chains := before ++ after
          head := if before = [] then after.head?.map (·.first.addr) else (inserting a f before c after).head
          tail :=
            if (inserting a f before c after).tail = some (c.insert (f.joining c)).1.first.addr then
              before.getLast?.map (·.first.addr)
            else (inserting a f before c after).tail
          dispatched := a.dispatched ++ [assembleDatagram env (c.insert (f.joining c)).1 (f.joining c)] }
      else inserting a f before c after := rfl

theorem Owned.join (h : Owned env a) (hfits : assemblyFits env a f = true) (hsplit : a.chains = before ++ c :: after)
    (hkey : c.first.key = f.key) (hfresh : f.addr ∉ a.held.map (·.addr)) :
    Owned env (joinDatagram env { a with received := a.received ++ [f] } f before c after) := by
  have hinserted := h.insert hfits hsplit hkey hfresh
  rw [joinDatagram_eq]
  by_cases hcomplete : (c.insert (f.joining c)).1.complete = true
  · rw [if_pos hcomplete]
    refine Owned.remove hinserted rfl ?_
    rw [List.flatMap_append, ← List.append_assoc]
    exact List.Perm.of_eq (by simp [assembleDatagram, inserting])
  · rw [if_neg hcomplete]
    exact hinserted

/-- The first fragment of a datagram goes to the end of the list. --/
theorem Owned.append (h : Owned env a) (hfits : assemblyFits env a f = true)
    (hnone : ∀ d ∈ a.chains, d.first.key ≠ f.key) (hfresh : f.addr ∉ a.held.map (·.addr)) :
    Owned env
      { a with
        chains := a.chains ++ [⟨f, []⟩]
        head := if a.head = none then some f.addr else a.head
        tail := some f.addr
        received := a.received ++ [f] } := by
  have hperm : ((a.chains ++ [Chain.mk f []]).flatMap Chain.toList ++ []).Perm (f :: a.held) := by
    rw [List.append_nil, List.flatMap_append]
    exact List.perm_append_comm
  have hhead := h.head
  refine ⟨?_, ?_, ?_, ?_, ?_, fun pool => ?_, ?_, ?_⟩
  · refine List.perm_iff_count.mpr fun g => ?_
    have hplaces := h.places.count_eq g
    have hcount := (hperm.map Fragment.untimed).count_eq g
    simp only [Assembly.held, List.append_nil, List.map_append, List.map_cons, List.map_nil, List.count_append,
      List.count_cons, List.count_nil] at hplaces hcount ⊢
    omega
  · exact nodup_of_perm hperm h.nodup hfresh
  · cases hchains : a.chains with
    | nil =>
      rw [hchains] at hhead
      rw [hhead]
      rfl
    | cons d chains =>
      rw [hchains] at hhead
      rw [hhead]
      rfl
  · rw [List.getLast?_concat]
    rfl
  · intro d hd
    rcases List.mem_append.mp hd with hd | hd
    · exact h.ascending d hd
    · cases List.mem_singleton.mp hd
      exact List.pairwise_singleton ..
  · exact Nat.le_trans (pools_of_perm hperm pool) (h.fits hfits pool)
  · intro d hd
    rcases List.mem_append.mp hd with hd | hd
    · exact h.keys d hd
    · cases List.mem_singleton.mp hd
      intro g hg
      cases List.mem_singleton.mp hg
      rfl
  · rw [List.map_append, List.nodup_append]
    refine ⟨h.distinct, List.nodup_singleton _, fun k hk k' hk' => ?_⟩
    obtain ⟨d, hd, rfl⟩ := List.mem_map.mp hk
    cases List.mem_singleton.mp hk'
    exact hnone d hd

/-- A fragment that does not fit is released. --/
theorem Owned.refuse (h : Owned env a) :
    Owned env { a with received := a.received ++ [f], released := a.released ++ [f] } := by
  refine ⟨?_, h.nodup, h.head, h.tail, h.ascending, h.pools, h.keys, h.distinct⟩
  refine List.perm_iff_count.mpr fun g => ?_
  have hplaces := h.places.count_eq g
  simp only [Assembly.held, List.map_append, List.count_append] at hplaces ⊢
  omega

/-- The fragment with the timer it arrives with. --/
def Fragment.arriving (f : Fragment) : Fragment := { f with reassemblyTime := f.maxReassemblyTime }

/-- What can become of an arriving fragment. --/
theorem fragmentArrive_cases (env : Environment) (a : Assembly) (f : Fragment) :
    (assemblyFits env a f.arriving = false ∧
      fragmentArrive env a f =
        { a with received := a.received ++ [f.arriving], released := a.released ++ [f.arriving] }) ∨
    (assemblyFits env a f.arriving = true ∧ (∀ d ∈ a.chains, d.first.key ≠ f.key) ∧
      fragmentArrive env a f =
        { a with
          chains := a.chains ++ [⟨f.arriving, []⟩]
          head := if a.head = none then some f.addr else a.head
          tail := some f.addr
          received := a.received ++ [f.arriving] }) ∨
    ∃ before c after, assemblyFits env a f.arriving = true ∧ a.chains = before ++ c :: after ∧ c.first.key = f.key ∧
      fragmentArrive env a f =
        joinDatagram env { a with received := a.received ++ [f.arriving] } f.arriving before c after := by
  cases hsearch : assemblySearch f.key a.chains with
  | mk before found =>
    have harrive : fragmentArrive env a f =
        if assemblyFits env a f.arriving then
          found.elim
            { a with
              chains := a.chains ++ [⟨f.arriving, []⟩]
              head := if a.head = none then some f.addr else a.head
              tail := some f.addr
              received := a.received ++ [f.arriving] }
            fun p => joinDatagram env { a with received := a.received ++ [f.arriving] } f.arriving before p.1 p.2
        else { a with received := a.received ++ [f.arriving], released := a.released ++ [f.arriving] } := by
      have hsearch' : assemblySearch f.arriving.key a.chains = (before, found) := hsearch
      rw [fragmentArrive, ← Fragment.arriving]
      dsimp only
      rw [hsearch']
      cases found with
      | none => rfl
      | some found => rfl
    rw [harrive]
    cases hfits : assemblyFits env a f.arriving with
    | false => exact Or.inl ⟨rfl, rfl⟩
    | true =>
      cases found with
      | none => exact Or.inr (Or.inl ⟨rfl, assemblySearch_none hsearch, rfl⟩)
      | some found =>
        obtain ⟨c, after⟩ := found
        obtain ⟨hsplit, hkey, -⟩ := assemblySearch_some hsearch
        exact Or.inr (Or.inr ⟨before, c, after, rfl, hsplit, hkey, rfl⟩)

/-- A fragment comes in a packet that is not on the list. --/
theorem Owned.arrive (h : Owned env a) (hfresh : f.addr ∉ a.held.map (·.addr)) : Owned env (fragmentArrive env a f) := by
  rcases fragmentArrive_cases env a f with ⟨-, heq⟩ | ⟨hfits, hnone, heq⟩ | ⟨before, c, after, hfits, hsplit, hkey, heq⟩
  · rw [heq]
    exact h.refuse
  · rw [heq]
    exact h.append hfits hnone hfresh
  · rw [heq]
    exact h.join hfits hsplit hkey hfresh

/-! ### A timeout check -/

/-- A second passes for a chain. --/
def Chain.tick (c : Chain) : Chain := ⟨{ c.first with reassemblyTime := c.first.reassemblyTime - 1 }, c.rest⟩

/-- The first fragment of a chain loses a second. --/
theorem Owned.tick (h : Owned env a) (hsplit : a.chains = before ++ c :: after) :
    Owned env { a with chains := before ++ c.tick :: after } := by
  have hc : c ∈ a.chains := by
    rw [hsplit]
    exact List.mem_append_right _ (List.mem_cons_self ..)
  have hheld := held_split hsplit
  have hmap : ∀ {β : Type} (φ : Fragment → β), (∀ f n, φ { f with reassemblyTime := n } = φ f) →
      (Assembly.held { a with chains := before ++ c.tick :: after }).map φ = a.held.map φ := by
    intro β φ hφ
    rw [hheld, Assembly.held, List.flatMap_append, List.flatMap_cons]
    simp only [List.map_append, Chain.toList, Chain.tick, List.map_cons, hφ]
  have hchains : ∀ {β : Type} (φ : Chain → β), φ c.tick = φ c →
      (before ++ c.tick :: after).map φ = a.chains.map φ := by
    intro β φ hφ
    rw [hsplit, List.map_append, List.map_append, List.map_cons, List.map_cons, hφ]
  refine ⟨?_, ?_, ?_, ?_, forall_exchanged h.ascending hsplit ?_, fun pool => ?_, forall_exchanged h.keys hsplit ?_, ?_⟩
  · have hplaces := h.places
    rw [List.map_append] at hplaces ⊢
    rw [hmap Fragment.untimed fun _ _ => rfl]
    exact hplaces
  · rw [hmap (·.addr) fun _ _ => rfl]
    exact h.nodup
  · rw [← List.head?_map, hchains _ rfl, List.head?_map]
    exact h.head
  · rw [← List.getLast?_map, hchains _ rfl, List.getLast?_map]
    exact h.tail
  · exact List.pairwise_cons.mpr (List.pairwise_cons.mp (h.ascending c hc))
  · have hpool := h.pools pool
    rw [assemblyHeld] at hpool ⊢
    rw [hmap (fun g => g.pools.count pool) fun _ _ => rfl]
    exact hpool
  · intro g hg
    rcases List.mem_cons.mp hg with rfl | hg
    · rfl
    · exact h.keys c hc g (List.mem_cons_of_mem _ hg)
  · rw [hchains _ rfl]
    exact h.distinct

/-- The walk, over the chains kept so far and those still to come. --/
theorem Owned.timeoutWalk {kept rest : List Chain} (h : Owned env { a with chains := kept ++ rest }) :
    Owned env (Ip.timeoutWalk a kept rest) := by
  induction rest generalizing a kept with
  | nil =>
    rw [List.append_nil] at h
    exact h
  | cons c rest ih =>
    rw [Ip.timeoutWalk]
    by_cases hexpired : c.first.reassemblyTime = 0
    · rw [if_pos hexpired]
      refine ih (@Owned.remove env _ kept rest c h rfl _ _ ?_)
      refine List.perm_iff_count.mpr fun g => ?_
      simp only [List.count_append]
      omega
    · rw [if_neg hexpired]
      refine ih ?_
      rw [List.append_assoc]
      exact @Owned.tick env { a with chains := kept ++ c :: rest } kept rest c h rfl

/-- The chains a check leaves: those with time left, a second older. --/
theorem chains_timeoutWalk (kept rest : List Chain) :
    (timeoutWalk a kept rest).chains = kept ++ (rest.filter (·.first.reassemblyTime ≠ 0)).map Chain.tick := by
  induction rest generalizing a kept with
  | nil =>
    rw [List.filter_nil, List.map_nil, List.append_nil]
    rfl
  | cons c rest ih =>
    rw [Ip.timeoutWalk]
    by_cases hexpired : c.first.reassemblyTime = 0
    · rw [if_pos hexpired, ih, List.filter_cons_of_neg (by simpa using hexpired)]
    · rw [if_neg hexpired, ih, List.filter_cons_of_pos (by simpa using hexpired), List.map_cons, List.append_assoc]
      rfl

/-! ### Timers -/

/-- The chains go on with the timers they had; another one belongs to a datagram that had none. --/
def TimersKept (a a' : Assembly) : Prop :=
  ∀ c' ∈ a'.chains,
    (∃ c ∈ a.chains, c.first.key = c'.first.key ∧ c'.first.reassemblyTime = c.first.reassemblyTime) ∨
      (c'.rest = [] ∧ ∀ c ∈ a.chains, c.first.key ≠ c'.first.key)

theorem TimersKept.of_subset {a' : Assembly} (h : a'.chains ⊆ a.chains) : TimersKept a a' := fun c' hc' =>
  Or.inl ⟨c', h hc', rfl, rfl⟩

theorem timersKept_inserting (hsplit : a.chains = before ++ c :: after) (hkey : c.first.key = f.key) :
    TimersKept a (inserting a f before c after) := by
  have hins := inserted f c
  intro c' hc'
  rcases List.mem_append.mp hc' with hc' | hc'
  · exact Or.inl ⟨c', by rw [hsplit]; exact List.mem_append_left _ hc', rfl, rfl⟩
  · rcases List.mem_cons.mp hc' with rfl | hc'
    · refine Or.inl ⟨c, by rw [hsplit]; exact List.mem_append_right _ (List.mem_cons_self ..),
        (hins.key_first hkey).symm, ?_⟩
      rw [hins.first]
      split_ifs
      · rfl
      · rfl
    · exact Or.inl ⟨c', by rw [hsplit]; exact List.mem_append_right _ (List.mem_cons_of_mem _ hc'), rfl, rfl⟩

/-- A fragment takes the timer of its datagram over, wherever it goes on the chain. --/
theorem timersKept_arrive (env : Environment) (a : Assembly) (f : Fragment) :
    TimersKept a (fragmentArrive env a f) := by
  rcases fragmentArrive_cases env a f with ⟨-, heq⟩ | ⟨-, hnone, heq⟩ | ⟨before, c, after, -, hsplit, hkey, heq⟩
  · rw [heq]
    exact TimersKept.of_subset (List.Subset.refl _)
  · rw [heq]
    intro c' hc'
    rcases List.mem_append.mp hc' with hc' | hc'
    · exact Or.inl ⟨c', hc', rfl, rfl⟩
    · cases List.mem_singleton.mp hc'
      exact Or.inr ⟨rfl, hnone⟩
  · have hkept : TimersKept a (inserting a f.arriving before c after) := timersKept_inserting hsplit hkey
    rw [heq, joinDatagram_eq]
    by_cases hcomplete : (c.insert (f.arriving.joining c)).1.complete = true
    · rw [if_pos hcomplete]
      intro c' hc'
      refine hkept c' ?_
      rcases List.mem_append.mp hc' with hc' | hc'
      · exact List.mem_append_left _ hc'
      · exact List.mem_append_right _ (List.mem_cons_of_mem _ hc')
    · rw [if_neg hcomplete]
      exact hkept

/-! ### Over a run -/

/-- Received packets are not on the list, and different from each other. --/
def Action.Fresh (env : Environment) (a : Assembly) (action : Action) : Prop :=
  ((action.queue env).map (·.addr)).Nodup ∧ ∀ f ∈ action.queue env, f.addr ∉ a.held.map (·.addr)

/-- What is held after an arrival was held before, or has arrived. --/
theorem mem_held_arrive {g : Fragment} (hg : g ∈ (fragmentArrive env a f).held) :
    g.untimed = f.untimed ∨ g ∈ a.held := by
  rcases fragmentArrive_cases env a f with ⟨-, heq⟩ | ⟨-, -, heq⟩ | ⟨before, c, after, -, hsplit, -, heq⟩
  · rw [heq] at hg
    exact Or.inr hg
  · rw [heq, Assembly.held, List.flatMap_append] at hg
    rcases List.mem_append.mp hg with hg | hg
    · exact Or.inr hg
    · cases List.mem_singleton.mp hg
      exact Or.inl rfl
  · have hheld := held_split hsplit
    have hin : g ∈ (inserting a f.arriving before c after).held → g.untimed = f.untimed ∨ g ∈ a.held := by
      intro hg
      rw [held_split (a := inserting a f.arriving before c after) rfl] at hg
      rw [hheld]
      rcases List.mem_append.mp hg with hg | hg
      · exact Or.inr (List.mem_append_left _ hg)
      · rcases List.mem_append.mp hg with hg | hg
        · rcases List.mem_cons.mp ((inserted f.arriving c).perm.subset (List.mem_append_left _ hg)) with rfl | hg
          · exact Or.inl rfl
          · exact Or.inr (List.mem_append_right _ (List.mem_append_left _ hg))
        · exact Or.inr (List.mem_append_right _ (List.mem_append_right _ hg))
    rw [heq, joinDatagram_eq] at hg
    by_cases hcomplete : (c.insert (f.arriving.joining c)).1.complete = true
    · rw [if_pos hcomplete] at hg
      refine hin ?_
      rw [held_split (a := inserting a f.arriving before c after) rfl]
      rw [Assembly.held, List.flatMap_append] at hg
      rcases List.mem_append.mp hg with hg | hg
      · exact List.mem_append_left _ hg
      · exact List.mem_append_right _ (List.mem_append_right _ hg)
    · rw [if_neg hcomplete] at hg
      exact hin hg

theorem Owned.assembly {queue : List Fragment} (h : Owned env a) (hnodup : (queue.map (·.addr)).Nodup)
    (hfresh : ∀ f ∈ queue, f.addr ∉ a.held.map (·.addr)) : Owned env (fragmentAssembly env a queue) := by
  induction queue generalizing a with
  | nil => exact h
  | cons f queue ih =>
    rw [List.map_cons, List.nodup_cons] at hnodup
    refine ih (h.arrive (hfresh f (List.mem_cons_self ..))) hnodup.2 fun g hg hmem => ?_
    obtain ⟨k, hk, haddr⟩ := List.mem_map.mp hmem
    rcases mem_held_arrive hk with heq | hk
    · have haddr' : k.untimed.addr = f.untimed.addr := congrArg Fragment.addr heq
      exact hnodup.1 (List.mem_map.mpr ⟨g, hg, haddr.symm.trans haddr'⟩)
    · exact hfresh g (List.mem_cons_of_mem _ hg) (List.mem_map.mpr ⟨k, hk, haddr⟩)

theorem Owned.step (h : Owned env a) {action : Action} (hfresh : action.Fresh env a) :
    Owned env (Ip.step env a action) := by
  cases action with
  | ipv4 p => exact h.assembly hfresh.1 hfresh.2
  | ipv6 p => exact h.assembly hfresh.1 hfresh.2
  | assemble queue => exact h.assembly hfresh.1 hfresh.2
  | timeout => exact Owned.timeoutWalk h

/-- After any arrivals, completions, replaced copies, refusals and timeouts the assembly list is as it should be; the
    next fragment starts no timer again, and the next check takes a second off each. --/
theorem assembly_owned {actions : List Action} (h : Run (Ip.step env) (Action.Fresh env) .empty actions a) :
    Owned env a ∧ (∀ f, TimersKept a (fragmentArrive env a f)) ∧
      (fragmentTimeoutCheck a).chains = (a.chains.filter (·.first.reassemblyTime ≠ 0)).map Chain.tick := by
  refine ⟨?_, timersKept_arrive env a, chains_timeoutWalk [] a.chains⟩
  refine h.invariant (P := fun _ a => Owned env a) (owned_empty env) ?_
  intro actions a action ha hfresh
  exact ha.step hfresh

/-- The last fragment comes first and twice, then a fragment of another datagram, then the first one; a second
    later one datagram is dispatched and one chain is left. --/
theorem assembly_owned_reordered :
    let tail := Ipv4Packet.plain 1 7 1 false [] [9]
    let other := Ipv4Packet.plain 3 8 2 false [] [5]
    let held := step .ideal (step .ideal (step .ideal .empty (.ipv4 tail)) (.ipv4 { tail with addr := 2 })) (.ipv4 other)
    let a := step .ideal (step .ideal held (.ipv4 (.plain 4 7 0 true [] [1, 2, 3, 4, 5, 6, 7, 8]))) .timeout
    Owned .ideal a ∧ a.dispatched.map (·.octets) = [[1, 2, 3, 4, 5, 6, 7, 8, 9]] ∧ a.chains.length = 1 ∧
      a.released.length = 1 := by
  refine ⟨(assembly_owned (.next (.next (.next (.next (.single ?_) ?_) ?_) ?_) ?_)).1, by decide, by decide, by decide⟩
  all_goals exact ⟨by decide, by decide⟩

end

end Netxduo.Ip
