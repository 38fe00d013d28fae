import Mathlib.Data.List.Nodup
import Mathlib.Data.List.Perm.Subperm
import Mathlib.Tactic.SplitIfs
import Netxduo.Syncache.Cache

/-! Every operation keeps the lists of the SYN cache apart and its chains and counts true. -/

namespace Netxduo.Syncache

/-- The entries that hold a handshake. --/
def Cache.live (c : Cache) : List Nat := c.age ++ c.accept

/-- A state of the age list. --/
def EntryState.HalfOpen (s : EntryState) : Prop := s = .deferred ∨ s = .synReceived

/-- The lists partition the entries by their states, the chains hold the live ones, the counts are the lengths, and no
    two live entries have the same peer on the same port. --/
structure Valid (c : Cache) : Prop where
  once : (c.free ++ c.live).Nodup
  every : ∀ i, i ∈ c.free ++ c.live ↔ i < cacheSize
  free : ∀ i ∈ c.free, (c.entry i).state = .free
  age : ∀ i ∈ c.age, (c.entry i).state.HalfOpen
  accept : ∀ i ∈ c.accept, (c.entry i).state = .established
  simple : ∀ b, (c.chain b).Nodup
  chain : ∀ b i, i ∈ c.chain b ↔ i ∈ c.live ∧ bucket (c.entry i).peer = b
  unique : ∀ i ∈ c.live, ∀ j ∈ c.live, (c.entry i).peer = (c.entry j).peer → i = j
  count : c.count.toNat = c.age.length
  acceptCount : c.acceptCount.toNat = c.accept.length
  limit : c.accept.length ≤ acceptMax.toNat

section
variable {c c' : Cache} {i : Nat} {e : Entry} {p : Peer}

theorem initialize_valid (key : Key) : Valid ( Cache.initialize key) where
  once := by simpa [ Cache.initialize, Cache.live] using List.nodup_range
  every := fun i => by simp [ Cache.initialize, Cache.live]
  free := fun _ _ => rfl
  age := fun _ h => absurd h List.not_mem_nil
  accept := fun _ h => absurd h List.not_mem_nil
  simple := fun _ => List.nodup_nil
  chain := fun b i => by simp [ Cache.initialize, Cache.live]
  unique := fun _ h => absurd h List.not_mem_nil
  count := rfl
  acceptCount := rfl
  limit := Nat.zero_le _

/-! ### Reading the lists -/

theorem Valid.live_lt (h : Valid c) (hi : i ∈ c.live) : i < cacheSize :=
  (h.every i).mp (List.mem_append_right _ hi)

theorem Valid.not_free (h : Valid c) (hi : i ∈ c.live) : (c.entry i).state ≠ .free := by
  rcases List.mem_append.mp hi with hage | haccept
  · rcases h.age i hage with hs | hs <;> rw [hs] <;> exact nofun
  · rw [h.accept i haccept]
    exact nofun

/-- An entry that is not free is live. --/
theorem Valid.mem_live (h : Valid c) (hi : i < cacheSize) (hs : (c.entry i).state ≠ .free) : i ∈ c.live := by
  rcases List.mem_append.mp ((h.every i).mpr hi) with hfree | hlive
  · exact absurd (h.free i hfree) hs
  · exact hlive

theorem Valid.mem_accept (h : Valid c) (hi : i ∈ c.live) (hs : (c.entry i).state = .established) : i ∈ c.accept := by
  rcases List.mem_append.mp hi with hage | haccept
  · rcases h.age i hage with hs' | hs' <;> rw [hs'] at hs <;> cases hs
  · exact haccept

theorem Valid.mem_age (h : Valid c) (hi : i ∈ c.live) (hs : (c.entry i).state ≠ .established) : i ∈ c.age := by
  rcases List.mem_append.mp hi with hage | haccept
  · exact hage
  · exact absurd (h.accept i haccept) hs

theorem Valid.length_le (h : Valid c) : c.free.length + (c.age.length + c.accept.length) = cacheSize := by
  have hperm : (c.free ++ c.live).Perm (List.range cacheSize) := by
    refine (List.perm_ext_iff_of_nodup h.once List.nodup_range).mpr fun i => ?_
    rw [List.mem_range]
    exact h.every i
  have hlength := hperm.length_eq
  rw [List.length_append, Cache.live, List.length_append, List.length_range] at hlength
  exact hlength

theorem Valid.find_some (h : Valid c) (hf : c.find p = some i) : i ∈ c.live ∧ (c.entry i).peer = p := by
  have hpeer := List.find?_some hf
  have hmem := List.mem_of_find?_eq_some hf
  exact ⟨((h.chain _ _).mp hmem).1, of_decide_eq_true hpeer⟩

/-- The search over one chain misses no entry. --/
theorem Valid.find_none (h : Valid c) (hf : c.find p = none) : ∀ i ∈ c.live, (c.entry i).peer ≠ p := by
  intro i hi hpeer
  have hmem : i ∈ c.chain (bucket p) := (h.chain _ _).mpr ⟨hi, by rw [hpeer]⟩
  have hnot := List.find?_eq_none.mp hf i hmem
  exact hnot (decide_eq_true hpeer)

/-! ### An entry leaves -/

/-- Taking an entry out of its chain and of its list, and putting it onto the free list. --/
theorem Valid.unlink (h : Valid c)
    (hentry : c'.entry = Function.update c.entry i { c.entry i with state := .free })
    (hchain : c'.chain = Function.update c.chain (bucket (c.entry i).peer) ((c.chain (bucket (c.entry i).peer)).erase i))
    (hfree : c'.free = i :: c.free) (hperm : (i :: c'.live).Perm c.live)
    (hage : ∀ j ∈ c'.age, j ∈ c.age) (haccept : ∀ j ∈ c'.accept, j ∈ c.accept)
    (hcount : c'.count.toNat = c'.age.length) (hacceptCount : c'.acceptCount.toNat = c'.accept.length) : Valid c' := by
  have hids : (c'.free ++ c'.live).Perm (c.free ++ c.live) := by
    rw [hfree]
    exact List.perm_middle.symm.trans (hperm.append_left c.free)
  have honce : (c'.free ++ c'.live).Nodup := hids.nodup_iff.mpr h.once
  have hlive : ∀ {j}, j ∈ c'.live ↔ j ∈ c.live ∧ j ≠ i := by
    intro j
    have hni : i ∉ c'.live := (List.nodup_cons.mp (hperm.nodup_iff.mpr (List.nodup_append.mp h.once).2.1)).1
    rw [← hperm.mem_iff, List.mem_cons]
    constructor
    · intro hj
      exact ⟨.inr hj, fun heq => hni (heq ▸ hj)⟩
    · rintro ⟨heq | hj, hne⟩
      · exact absurd heq hne
      · exact hj
  have hkept : ∀ {j}, j ≠ i → c'.entry j = c.entry j := fun hne => by rw [hentry, Function.update_of_ne hne]
  have hne_age : ∀ {j}, j ∈ c'.age → j ≠ i := fun hj => (hlive.mp (List.mem_append_left _ hj)).2
  have hne_accept : ∀ {j}, j ∈ c'.accept → j ≠ i := fun hj => (hlive.mp (List.mem_append_right _ hj)).2
  refine ⟨honce, fun j => (hids.mem_iff).trans (h.every j), ?_, ?_, ?_, ?_, ?_, ?_, hcount, hacceptCount, ?_⟩
  · intro j hj
    rw [hfree] at hj
    by_cases heq : j = i
    · rw [heq, hentry, Function.update_self]
    · rw [hkept heq]
      exact h.free j ((List.mem_cons.mp hj).resolve_left heq)
  · intro j hj
    rw [hkept (hne_age hj)]
    exact h.age j (hage j hj)
  · intro j hj
    rw [hkept (hne_accept hj)]
    exact h.accept j (haccept j hj)
  · intro b
    rw [hchain]
    by_cases hb : b = bucket (c.entry i).peer
    · rw [hb, Function.update_self]
      exact (h.simple _).erase i
    · rw [Function.update_of_ne hb]
      exact h.simple b
  · intro b j
    rw [hlive, hchain]
    by_cases hb : b = bucket (c.entry i).peer
    · rw [hb, Function.update_self, (h.simple _).mem_erase_iff, h.chain]
      constructor
      · rintro ⟨hne, hj, hbj⟩
        exact ⟨⟨hj, hne⟩, by rw [hkept hne]; exact hbj⟩
      · rintro ⟨⟨hj, hne⟩, hbj⟩
        exact ⟨hne, hj, by rw [← hkept hne]; exact hbj⟩
    · rw [Function.update_of_ne hb, h.chain]
      constructor
      · rintro ⟨hj, hbj⟩
        have hne : j ≠ i := fun heq => hb (by rw [← hbj, heq])
        exact ⟨⟨hj, hne⟩, by rw [hkept hne]; exact hbj⟩
      · rintro ⟨⟨hj, hne⟩, hbj⟩
        exact ⟨hj, by rw [← hkept hne]; exact hbj⟩
  · intro j hj k hk hpeer
    obtain ⟨hj, hnej⟩ := hlive.mp hj
    obtain ⟨hk, hnek⟩ := hlive.mp hk
    rw [hkept hnej, hkept hnek] at hpeer
    exact h.unique j hj k hk hpeer
  · have hnodup : c'.accept.Nodup := (List.nodup_append.mp (List.nodup_append.mp honce).2.1).2.1
    exact le_trans (List.subperm_of_subset hnodup haccept).length_le h.limit

/-- What a release leaves as it was. --/
theorem release_frame (c : Cache) (i : Nat) :
    (c.release i).initialized = c.initialized ∧ (c.release i).key = c.key ∧
      ∀ j, j ≠ i → (c.release i).entry j = c.entry j := by
  unfold Cache.release
  by_cases hs : (c.entry i).state = .free
  · rw [if_pos hs]
    exact ⟨rfl, rfl, fun _ _ => rfl⟩
  · rw [if_neg hs]
    refine ⟨?_, ?_, fun j hne => ?_⟩
    · dsimp only
      split_ifs <;> rfl
    · dsimp only
      split_ifs <;> rfl
    · dsimp only
      rw [Function.update_of_ne hne]
      split_ifs <;> rfl

/-- A release keeps the structure, and takes the entry off the live ones. --/
theorem Valid.release (h : Valid c) (hi : i < cacheSize) :
    Valid (c.release i) ∧ ∀ j, j ∈ (c.release i).live ↔ j ∈ c.live ∧ j ≠ i := by
  by_cases hs : (c.entry i).state = .free
  · have heq : c.release i = c := if_pos hs
    rw [heq]
    refine ⟨h, fun j => ⟨fun hj => ⟨hj, fun hji => h.not_free hj (hji ▸ hs)⟩, And.left⟩⟩
  · have hlive := h.mem_live hi hs
    have hnodup : c.live.Nodup := (List.nodup_append.mp h.once).2.1
    have mem_of_perm : ∀ {d : Cache}, (i :: d.live).Perm c.live → ∀ j, j ∈ d.live ↔ j ∈ c.live ∧ j ≠ i := by
      intro d hperm j
      have hni : i ∉ d.live := (List.nodup_cons.mp (hperm.nodup_iff.mpr hnodup)).1
      rw [← hperm.mem_iff, List.mem_cons]
      constructor
      · intro hj
        exact ⟨.inr hj, fun heq => hni (heq ▸ hj)⟩
      · rintro ⟨heq | hj, hne⟩
        · exact absurd heq hne
        · exact hj
    by_cases he : (c.entry i).state = .established
    · have hmem := h.mem_accept hlive he
      have hpos := List.length_pos_of_mem hmem
      have hlength := List.length_erase_of_mem hmem
      have hbound := h.length_le
      have hperm : (i :: (c.release i).live).Perm c.live := by
        rw [Cache.release, if_neg hs]
        simp only [he, if_true, hmem]
        exact List.perm_middle.symm.trans ((List.perm_cons_erase hmem).symm.append_left c.age)
      refine ⟨h.unlink ?_ ?_ ?_ hperm ?_ ?_ ?_ ?_, mem_of_perm hperm⟩ <;>
        rw [Cache.release, if_neg hs] <;> simp only [he, if_true, hmem]
      · exact fun j hj => hj
      · exact fun j hj => List.mem_of_mem_erase hj
      · exact h.count
      · have hcount := h.acceptCount
        rw [BitVec.toNat_sub, hcount, hlength]
        simp only [cacheSize] at hbound
        change (2 ^ 32 - 1 + c.accept.length) % 2 ^ 32 = c.accept.length - 1
        omega
    · have hmem := h.mem_age hlive he
      have hpos := List.length_pos_of_mem hmem
      have hlength := List.length_erase_of_mem hmem
      have hbound := h.length_le
      have hperm : (i :: (c.release i).live).Perm c.live := by
        rw [Cache.release, if_neg hs]
        simp only [he, if_false, hmem, if_true]
        exact (List.perm_cons_erase hmem).symm.append_right c.accept
      refine ⟨h.unlink ?_ ?_ ?_ hperm ?_ ?_ ?_ ?_, mem_of_perm hperm⟩ <;>
        rw [Cache.release, if_neg hs] <;> simp only [he, if_false, hmem, if_true]
      · exact fun j hj => List.mem_of_mem_erase hj
      · exact fun j hj => hj
      · have hcount := h.count
        rw [BitVec.toNat_sub, hcount, hlength]
        simp only [cacheSize] at hbound
        change (2 ^ 32 - 1 + c.age.length) % 2 ^ 32 = c.age.length - 1
        omega
      · exact h.acceptCount

/-! ### An entry is rewritten -/

/-- The entry stays where it is: the same peer, and a state of the same list. --/
def Entry.Alike (e e' : Entry) : Prop :=
  e'.peer = e.peer ∧ (e'.state = e.state ∨ e.state.HalfOpen ∧ e'.state.HalfOpen)

theorem Entry.Alike.refl (e : Entry) : e.Alike e := ⟨rfl, .inl rfl⟩

@[simp] theorem write_self : (c.write i e).entry i = e := by simp [Cache.write]

theorem write_of_ne {j : Nat} (hne : j ≠ i) : (c.write i e).entry j = c.entry j := by
  simp [Cache.write, hne]

theorem Valid.write (h : Valid c) (he : (c.entry i).Alike e) : Valid (c.write i e) := by
  obtain ⟨hpeer, hstate⟩ := he
  have hpeers : ∀ j, ((c.write i e).entry j).peer = (c.entry j).peer := by
    intro j
    by_cases hj : j = i
    · rw [hj, write_self, hpeer]
    · rw [write_of_ne hj]
  have hstates : ∀ j, ((c.write i e).entry j).state = (c.entry j).state ∨
      (c.entry j).state.HalfOpen ∧ ((c.write i e).entry j).state.HalfOpen := by
    intro j
    by_cases hj : j = i
    · rw [hj, write_self]
      exact hstate
    · rw [write_of_ne hj]
      exact .inl rfl
  refine ⟨h.once, h.every, ?_, ?_, ?_, h.simple, ?_, ?_, h.count, h.acceptCount, h.limit⟩
  · intro j hj
    rcases hstates j with heq | ⟨hopen, -⟩
    · rw [heq]
      exact h.free j hj
    · rw [h.free j hj] at hopen
      rcases hopen with hs | hs <;> cases hs
  · intro j hj
    rcases hstates j with heq | ⟨-, hopen⟩
    · rw [heq]
      exact h.age j hj
    · exact hopen
  · intro j hj
    rcases hstates j with heq | ⟨hopen, -⟩
    · rw [heq]
      exact h.accept j hj
    · rw [h.accept j hj] at hopen
      rcases hopen with hs | hs <;> cases hs
  · intro b j
    rw [hpeers]
    exact h.chain b j
  · intro j hj k hk heq
    rw [hpeers, hpeers] at heq
    exact h.unique j hj k hk heq

/-! ### An entry joins -/

/-- The head of the free list gets a peer no live entry has, and goes into its chain and onto a list. --/
theorem Valid.joined {free : List Nat} (h : Valid c) (hfree : c.free = i :: free)
    (hnew : ∀ j ∈ c.live, (c.entry j).peer ≠ e.peer) (hentry : c'.entry = Function.update c.entry i e)
    (hchain : c'.chain = Function.update c.chain (bucket e.peer) (i :: c.chain (bucket e.peer)))
    (hfree' : c'.free = free) (hperm : c'.live.Perm (i :: c.live))
    (hage : ∀ j ∈ c'.age, j ∈ c.age ∨ j = i ∧ e.state.HalfOpen)
    (haccept : ∀ j ∈ c'.accept, j ∈ c.accept ∨ j = i ∧ e.state = .established)
    (hcount : c'.count.toNat = c'.age.length) (hacceptCount : c'.acceptCount.toNat = c'.accept.length)
    (hlimit : c'.accept.length ≤ acceptMax.toNat) : Valid c' := by
  have hids : (c'.free ++ c'.live).Perm (c.free ++ c.live) := by
    rw [hfree, hfree']
    exact (hperm.append_left free).trans List.perm_middle
  have hi : i ∉ c.live := by
    have hnodup := h.once
    rw [hfree] at hnodup
    exact fun hmem => (List.nodup_cons.mp hnodup).1 (List.mem_append_right free hmem)
  have hkept : ∀ {j}, j ≠ i → c'.entry j = c.entry j := fun hne => by rw [hentry, Function.update_of_ne hne]
  have hself : c'.entry i = e := by rw [hentry, Function.update_self]
  have hlive : ∀ {j}, j ∈ c'.live ↔ j = i ∨ j ∈ c.live := by
    intro j
    rw [hperm.mem_iff, List.mem_cons]
  have hold : ∀ {j}, j ∈ c.live → j ≠ i := fun hj heq => hi (heq ▸ hj)
  refine ⟨hids.nodup_iff.mpr h.once, fun j => hids.mem_iff.trans (h.every j), ?_, ?_, ?_, ?_, ?_, ?_, hcount,
    hacceptCount, hlimit⟩
  · intro j hj
    have hmem : j ∈ c.free := by
      rw [hfree, ← hfree']
      exact List.mem_cons_of_mem i hj
    have hne : j ≠ i := by
      rintro rfl
      have hnodup := h.once
      rw [hfree, ← hfree'] at hnodup
      exact (List.nodup_cons.mp hnodup).1 (List.mem_append_left _ hj)
    rw [hkept hne]
    exact h.free j hmem
  · intro j hj
    rcases hage j hj with hold' | ⟨rfl, hs⟩
    · rw [hkept (hold (List.mem_append_left _ hold'))]
      exact h.age j hold'
    · rw [hself]
      exact hs
  · intro j hj
    rcases haccept j hj with hold' | ⟨rfl, hs⟩
    · rw [hkept (hold (List.mem_append_right _ hold'))]
      exact h.accept j hold'
    · rw [hself]
      exact hs
  · intro b
    rw [hchain]
    by_cases hb : b = bucket e.peer
    · rw [hb, Function.update_self]
      exact List.nodup_cons.mpr ⟨fun hmem => hi ((h.chain _ i).mp hmem).1, h.simple _⟩
    · rw [Function.update_of_ne hb]
      exact h.simple b
  · intro b j
    rw [hchain, hlive]
    by_cases hb : b = bucket e.peer
    · rw [hb, Function.update_self, List.mem_cons, h.chain]
      constructor
      · rintro (rfl | ⟨hj, hbj⟩)
        · exact ⟨.inl rfl, by rw [hself]⟩
        · exact ⟨.inr hj, by rw [hkept (hold hj)]; exact hbj⟩
      · rintro ⟨heq | hj, hbj⟩
        · exact .inl heq
        · exact .inr ⟨hj, by rw [← hkept (hold hj)]; exact hbj⟩
    · rw [Function.update_of_ne hb, h.chain]
      constructor
      · rintro ⟨hj, hbj⟩
        exact ⟨.inr hj, by rw [hkept (hold hj)]; exact hbj⟩
      · rintro ⟨heq | hj, hbj⟩
        · rw [heq, hself] at hbj
          exact absurd hbj.symm hb
        · exact ⟨hj, by rw [← hkept (hold hj)]; exact hbj⟩
  · intro j hj k hk hpeer
    rcases hlive.mp hj with rfl | hj' <;> rcases hlive.mp hk with rfl | hk'
    · rfl
    · rw [hself, hkept (hold hk')] at hpeer
      exact absurd hpeer.symm (hnew k hk')
    · rw [hself, hkept (hold hj')] at hpeer
      exact absurd hpeer (hnew j hj')
    · rw [hkept (hold hj'), hkept (hold hk')] at hpeer
      exact h.unique j hj' k hk' hpeer

theorem Valid.link {free : List Nat} (h : Valid c) (hfree : c.free = i :: free)
    (hnew : ∀ j ∈ c.live, (c.entry j).peer ≠ e.peer) (hs : e.state.HalfOpen) : Valid (c.link i free e) := by
  have hlength := h.length_le
  rw [hfree, List.length_cons, cacheSize] at hlength
  refine h.joined hfree hnew rfl rfl rfl ?_ ?_ ?_ ?_ h.acceptCount h.limit
  · change (c.age ++ [i] ++ c.accept).Perm (i :: (c.age ++ c.accept))
    rw [List.append_assoc]
    exact List.perm_middle
  · intro j hj
    rcases List.mem_append.mp hj with hold | hlast
    · exact .inl hold
    · exact .inr ⟨List.mem_singleton.mp hlast, hs⟩
  · exact fun j hj => .inl hj
  · change (c.count + 1).toNat = (c.age ++ [i]).length
    have hcount := h.count
    rw [BitVec.toNat_add, hcount, List.length_append]
    change (c.age.length + 1) % 2 ^ 32 = c.age.length + 1
    omega

theorem Valid.linkAccept {free : List Nat} (h : Valid c) (hfree : c.free = i :: free)
    (hnew : ∀ j ∈ c.live, (c.entry j).peer ≠ e.peer) (hs : e.state = .established)
    (hlimit : ¬c.acceptCount ≥ acceptMax) : Valid (c.linkAccept i free e) := by
  have hcount := h.acceptCount
  have hlt : c.accept.length < acceptMax.toNat := by
    rw [← hcount]
    exact BitVec.lt_def.mp (BitVec.not_le.mp hlimit)
  have hmax : acceptMax.toNat = 32 := rfl
  refine h.joined hfree hnew rfl rfl rfl ?_ ?_ ?_ h.count ?_ ?_
  · change (c.age ++ (c.accept ++ [i])).Perm (i :: (c.age ++ c.accept))
    rw [← List.append_assoc]
    exact List.perm_append_singleton i _
  · exact fun j hj => .inl hj
  · intro j hj
    rcases List.mem_append.mp hj with hold | hlast
    · exact .inl hold
    · exact .inr ⟨List.mem_singleton.mp hlast, hs⟩
  · change (c.acceptCount + 1).toNat = (c.accept ++ [i]).length
    rw [BitVec.toNat_add, hcount, List.length_append]
    change (c.accept.length + 1) % 2 ^ 32 = c.accept.length + 1
    omega
  · change (c.accept ++ [i]).length ≤ acceptMax.toNat
    rw [List.length_append]
    exact hlt

/-! ### The operations -/

section
variable {a : Around} {l : Listener} {from_ : Arrival} {syn : Syn} {g : Segment}

theorem Valid.sendSynack (h : Valid c) : Valid (c.sendSynack a i).cache := h.write ⟨rfl, .inl rfl⟩

theorem Valid.answer (h : Valid c) (hs : (c.entry i).state.HalfOpen) : Valid (c.answer a l i).cache :=
  (h.write (e := { c.entry i with
    terms := { (c.entry i).terms with
      rxWindow := l.request.window, rxWindowMaximum := l.request.windowMaximum, mss := l.request.segmentSize }
    state := .synReceived, retries := 0, time := a.now }) ⟨rfl, .inr ⟨hs, .inr rfl⟩⟩).sendSynack

theorem oldestDeferred_some {port : ULONG} (hf : c.oldestDeferred port = some i) :
    i ∈ c.age ∧ (c.entry i).state = .deferred := by
  have hmem := List.mem_of_find?_eq_some hf
  have hs := List.find?_some hf
  rw [Cache.isDeferred, Bool.and_eq_true, beq_iff_eq] at hs
  exact ⟨hmem, hs.1⟩

theorem Valid.answerDeferred (h : Valid c) : Valid (c.answerDeferred a l).cache := by
  unfold Cache.answerDeferred
  split
  · exact h
  · split
    · exact h
    · rename_i i hi
      exact h.answer (.inl (oldestDeferred_some hi).2)

theorem Valid.add (h : Valid c) (hnew : ∀ j ∈ c.live, (c.entry j).peer ≠ ⟨from_.source, from_.port, l.port⟩) :
    Valid (c.add a l from_ syn).cache := by
  unfold Cache.add
  split
  · exact h
  · rename_i i free hfree
    have hlink : ∀ iss, Valid (c.link i free (Cache.filled a l from_ syn iss)) :=
      fun iss => h.link hfree hnew (.inl rfl)
    split
    · refine (hlink _).answer (.inl ?_)
      change (Function.update c.entry i _ i).state = _
      rw [Function.update_self]
      rfl
    · exact hlink _

theorem Valid.record (h : Valid c) (hnew : ∀ j ∈ c.live, (c.entry j).peer ≠ ⟨from_.source, from_.port, l.port⟩) :
    Valid (c.record a l from_ syn).cache := by
  unfold Cache.record
  split
  · split
    · exact h
    · rename_i i hi
      obtain ⟨hmem, -⟩ := oldestDeferred_some hi
      obtain ⟨hvalid, hlive⟩ := h.release (h.live_lt (List.mem_append_left _ hmem))
      refine hvalid.add fun j hj => ?_
      obtain ⟨hj, hne⟩ := (hlive j).mp hj
      rw [(release_frame c i).2.2 j hne]
      exact hnew j hj
  · exact h.add hnew

/-- Once the entry of a peer is released, no live entry has the peer. --/
theorem Valid.release_new (h : Valid c) (hi : i ∈ c.live) :
    ∀ j ∈ (c.release i).live, ((c.release i).entry j).peer ≠ (c.entry i).peer := by
  intro j hj
  obtain ⟨hj, hne⟩ := ((h.release (h.live_lt hi)).2 j).mp hj
  rw [(release_frame c i).2.2 j hne]
  exact fun hpeer => hne (h.unique j hj i hi hpeer)

theorem Valid.synReceived (h : Valid c) : Valid (c.synReceived a l from_ syn).cache := by
  unfold Cache.synReceived
  split
  · exact h
  · split
    · rename_i hf
      exact h.record (h.find_none hf)
    · rename_i i hf
      obtain ⟨hmem, hpeer⟩ := h.find_some hf
      dsimp only
      split
      · exact h.sendSynack
      · split
        · rename_i hs
          split
          · exact h.answer (.inl hs.1)
          · exact h.write ⟨rfl, .inl rfl⟩
        · split
          · exact h
          · have hnew := h.release_new hmem
            rw [hpeer] at hnew
            exact (h.release (h.live_lt hmem)).1.record hnew

theorem Valid.queuedSegment (h : Valid c) : Valid (c.queuedSegment g i).cache := by
  unfold Cache.queuedSegment
  dsimp only
  generalize (if (c.entry i).terms.rxWindow ≠ 0 then (c.entry i).terms.rxWindow else 1) = limit
  split
  · exact h
  · split <;> exact h.write ⟨rfl, .inl rfl⟩

theorem Valid.finish (h : Valid c) (hnew : ∀ j ∈ c.live, (c.entry j).peer ≠ e.peer) :
    Valid (c.finish a l e).cache := by
  unfold Cache.finish
  split
  · exact h
  · split
    · exact h
    · rename_i i free hfree
      split
      · exact h
      · rename_i hroom
        exact h.linkAccept hfree hnew rfl fun hfull => hroom (.inl hfull)

theorem Valid.release_finish (h : Valid c) (hi : i ∈ c.live) (he : e.peer = (c.entry i).peer) :
    Valid ((c.release i).finish a l e).cache := by
  refine (h.release (h.live_lt hi)).1.finish ?_
  rw [he]
  exact h.release_new hi

theorem Valid.ackReceived (h : Valid c) : Valid (c.ackReceived a l from_ g).cache := by
  unfold Cache.ackReceived
  split
  · exact h
  · split
    · exact h
    · dsimp only
      split
      · rename_i i hf
        obtain ⟨hmem, hpeer⟩ := h.find_some hf
        split
        · exact h.queuedSegment
        · split
          · exact h
          · split
            · exact h
            · have hwrite : ∀ terms, Valid (c.write i { c.entry i with terms := terms }) :=
                fun terms => h.write ⟨rfl, .inl rfl⟩
              exact (hwrite _).release_finish hmem (by rw [write_self])
      · rename_i hf
        split
        · exact h
        · exact h.finish (h.find_none hf)

theorem Valid.answerNext {port : ULONG} {answered : Bool} (h : Valid c) : Valid (c.answerNext a port answered).cache := by
  unfold Cache.answerNext
  split
  · split
    · exact h
    · exact h.answerDeferred
  · exact h

theorem Valid.resetReceived {sequence : ULONG} (h : Valid c) : Valid (c.resetReceived a p sequence).cache := by
  unfold Cache.resetReceived
  split
  · exact h
  · split
    · exact h
    · rename_i i hf
      split
      · exact h
      · exact (h.release (h.live_lt (h.find_some hf).1)).1.answerNext

theorem Valid.deliver (h : Valid c) : Valid (c.deliver l).cache := by
  unfold Cache.deliver
  split
  · exact h
  · split
    · exact h
    · rename_i i hf
      have hmem := List.mem_of_find?_eq_some hf
      exact (h.release (h.live_lt (List.mem_append_right _ hmem))).1

end

/-! ### The walks -/

/-- A walk over entries of the table keeps what each of its steps keeps. --/
theorem walk_valid {f : Result → Nat → Result} {r : Result} {walk : List Nat} (h : Valid r.cache)
    (hwalk : ∀ i ∈ walk, i < cacheSize) (hstep : ∀ r i, Valid r.cache → i < cacheSize → Valid (f r i).cache) :
    Valid (walk.foldl f r).cache := by
  induction walk generalizing r with
  | nil => exact h
  | cons i walk ih =>
    refine ih (hstep r i h (hwalk i List.mem_cons_self)) fun j hj => hwalk j (List.mem_cons_of_mem i hj)

theorem Valid.age_lt (h : Valid c) : ∀ i ∈ c.age, i < cacheSize :=
  fun _ hi => h.live_lt (List.mem_append_left _ hi)

theorem Valid.accept_lt (h : Valid c) : ∀ i ∈ c.accept, i < cacheSize :=
  fun _ hi => h.live_lt (List.mem_append_right _ hi)

theorem flushEntry_valid {hit : Entry → Bool} {rst : Bool} (r : Result) (i : Nat) (h : Valid r.cache)
    (hi : i < cacheSize) : Valid (Cache.flushEntry hit rst r i).cache := by
  unfold Cache.flushEntry
  dsimp only
  split
  · exact (h.release hi).1
  · exact h

theorem ageEntry_valid {a : Around} (r : Result) (i : Nat) (h : Valid r.cache) (hi : i < cacheSize) :
    Valid (Cache.ageEntry a r i).cache := by
  unfold Cache.ageEntry
  dsimp only
  split
  · exact (h.release hi).1.answerNext
  · split
    · have hwrite : Valid (r.cache.write i { r.cache.entry i with retries := (r.cache.entry i).retries + 1 }) :=
        h.write ⟨rfl, .inl rfl⟩
      exact hwrite.sendSynack
    · exact h

theorem Valid.flush {port : ULONG} (h : Valid c) : Valid (c.flush port).cache := by
  unfold Cache.flush
  split
  · exact h
  · have haccept := walk_valid (f := Cache.flushEntry (·.peer.localPort == port) true) (r := c.silent) h h.accept_lt
      flushEntry_valid
    exact walk_valid haccept haccept.age_lt flushEntry_valid

theorem Valid.interfaceFlush {interface ipv6Address : Option Nat} (h : Valid c) :
    Valid (c.interfaceFlush interface ipv6Address).cache := by
  unfold Cache.interfaceFlush
  dsimp only
  split
  · exact h
  · have hage := walk_valid (f := Cache.flushEntry (fun e => (interface.isSome && e.interface == interface) ||
      (ipv6Address.isSome && e.ipv6Addr == ipv6Address)) false) (r := c.silent) h h.age_lt flushEntry_valid
    exact walk_valid hage hage.accept_lt flushEntry_valid

theorem Valid.periodic {a : Around} (h : Valid c) : Valid (c.periodic a).cache := by
  unfold Cache.periodic
  split
  · exact h
  · have hage := walk_valid (r := c.silent) h h.age_lt (ageEntry_valid (a := a))
    exact walk_valid hage hage.accept_lt flushEntry_valid

/-! ### The whole run -/

theorem cacheStep_valid (h : Valid c) (action : CacheAction) : Valid (cacheStep c action) := by
  cases action with
  | syn a l from_ syn => exact h.synReceived
  | ack a l from_ g => exact h.ackReceived
  | reset a peer sequence => exact h.resetReceived
  | held => exact h
  | periodic a => exact h.periodic
  | deliver l => exact h.deliver
  | answerDeferred a l => exact h.answerDeferred
  | flush port => exact h.flush
  | interfaceFlush interface ipv6Address => exact h.interfaceFlush

/-- Whatever the network, the application and the clock do, in whatever order, the cache stays well formed. --/
theorem cache_wellFormed (key : Key) (actions : List CacheAction) : Valid (actions.foldl cacheStep ( Cache.initialize key)) := by
  have hrun : ∀ c, Valid c → Valid (actions.foldl cacheStep c) := by
    induction actions with
    | nil => exact fun _ h => h
    | cons action actions ih => exact fun c h => ih _ (cacheStep_valid h action)
  exact hrun _ (initialize_valid key)

end

end Netxduo.Syncache
