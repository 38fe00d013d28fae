import Mathlib
import Netxduo.Ip.Reassembly

/-! A datagram that arrives in pieces: whatever their order, it is dispatched with the last one of them, and nothing is
    before that. -/

namespace Netxduo.Ip
open Runs Pieces

section
variable {env : Environment} {a : Assembly} {f g : Fragment} {before after : List Chain} {c : Chain}
  {key : FragmentKey} {queue : List Fragment} {payload : List UInt8}

/-- What an arrival takes from a pool. --/
theorem assemblyHeld_arrive (env : Environment) (a : Assembly) (f : Fragment) (pool : Nat) :
    assemblyHeld (fragmentArrive env a f) pool ≤ f.pools.count pool + assemblyHeld a pool := by
  rcases fragmentArrive_cases env a f with ⟨-, heq⟩ | ⟨-, -, heq⟩ | ⟨before, c, after, -, hsplit, -, heq⟩
  · rw [heq]
    exact Nat.le_add_left ..
  · rw [heq, assemblyHeld, Assembly.held, List.flatMap_append, List.map_append, List.sum_append, Nat.add_comm]
    exact Nat.le_refl _
  · have hinserting : assemblyHeld (inserting a f.arriving before c after) pool ≤
        f.pools.count pool + assemblyHeld a pool :=
      pools_of_perm (held_inserting hsplit) pool
    rw [heq, joinDatagram_eq]
    by_cases hcomplete : (c.insert (f.arriving.joining c)).1.complete = true
    · rw [if_pos hcomplete]
      refine Nat.le_trans (List.Sublist.sum_le_sum ?_ fun _ _ => Nat.zero_le _) hinserting
      refine List.Sublist.map _ ?_
      rw [Assembly.held, Assembly.held, inserting, List.flatMap_append, List.flatMap_append]
      exact List.Sublist.append_left (List.sublist_append_right ..) _
    · rw [if_neg hcomplete]
      exact hinserting

/-- A fragment that fits and does not complete its datagram is held. --/
theorem pieces_arrive (ha : Owned env a) (hc : Consistent a) (hf : f.Sound) (hagree : ∀ g ∈ a.held, f.Agrees g)
    (hfits : assemblyFits env a f = true) (hfresh : f.addr ∉ a.held.map (·.addr))
    (hkept : (fragmentArrive env a f).dispatched = a.dispatched) :
    (fragmentArrive env a f).pieces f.key = insert f.piece (a.pieces f.key) := by
  have ha' : Owned env (fragmentArrive env a f) := ha.arrive hfresh
  rcases fragmentArrive_cases env a f with ⟨hnot, -⟩ | ⟨-, hnone, heq⟩ | ⟨before, c, after, -, hsplit, hkey, heq⟩
  · cases hnot.symm.trans hfits
  · have hmem : Chain.mk f.arriving [] ∈ (fragmentArrive env a f).chains := by
      rw [heq]
      exact List.mem_append_right _ (List.mem_singleton_self _)
    have hpieces := ha'.pieces_eq hmem
    rw [ha.pieces_eq_empty hnone, insert_empty_eq]
    refine hpieces.trans ?_
    ext p
    exact List.mem_singleton
  · have hmemc : c ∈ a.chains := by
      rw [hsplit]
      exact List.mem_append_right _ (List.mem_cons_self ..)
    obtain ⟨-, hset, -⟩ := @Queued.joined f.arriving c (hc.queued ha hmemc) hkey (hf.of_untimed rfl)
      fun g hg => hagree g (mem_held hmemc hg)
    rw [joinDatagram_eq] at heq
    by_cases hcomplete : (c.insert (f.arriving.joining c)).1.complete = true
    · rw [if_pos hcomplete] at heq
      rw [heq] at hkept
      exact absurd (List.append_right_eq_self.mp hkept) (List.cons_ne_nil _ _)
    · rw [if_neg hcomplete] at heq
      have hmem : (c.insert (f.arriving.joining c)).1 ∈ (fragmentArrive env a f).chains := by
        rw [heq]
        exact List.mem_append_right _ (List.mem_cons_self ..)
      have hpieces := ha'.pieces_eq hmem
      rw [(inserted f.arriving c).key_first hkey, hkey, hset] at hpieces
      rw [hpieces, ← hkey, ha.pieces_eq hmemc]
      rfl

/-- The fragments of a datagram that are still to come, each in packets of its own, and with room for all. --/
structure Incoming (env : Environment) (a : Assembly) (key : FragmentKey) (queue : List Fragment) : Prop where
  keys : ∀ f ∈ queue, f.key = key
  sound : ∀ f ∈ queue, f.Sound
  apart : queue.Pairwise fun f g => f.Agrees g ∧ f.piece ≠ g.piece
  held : ∀ f ∈ queue, ∀ g ∈ a.held, f.Agrees g ∧ (g.key = key → f.piece ≠ g.piece)
  addrs : (queue.map (·.addr)).Nodup
  fresh : ∀ f ∈ queue, f.addr ∉ a.held.map (·.addr)
  room : ∀ pool, assemblyHeld a pool + (queue.map fun f => f.pools.count pool).sum ≤
    env.poolTotal pool - poolReserve env pool

theorem Incoming.fits (h : Incoming env a key (f :: queue)) : assemblyFits env a f = true := by
  refine List.all_eq_true.mpr fun pool _ => decide_eq_true ?_
  have hroom := h.room pool
  rw [List.map_cons, List.sum_cons] at hroom
  omega

theorem Incoming.next (h : Incoming env a key (f :: queue)) : Incoming env (fragmentArrive env a f) key queue := by
  obtain ⟨hfirst, hapart⟩ := List.pairwise_cons.mp h.apart
  have haddrs := h.addrs
  rw [List.map_cons, List.nodup_cons] at haddrs
  refine ⟨fun g hg => h.keys g (List.mem_cons_of_mem f hg), fun g hg => h.sound g (List.mem_cons_of_mem f hg), hapart,
    fun g hg k hk => ?_, haddrs.2, fun g hg hmem => ?_, fun pool => ?_⟩
  · rcases mem_held_arrive hk with heq | hk
    · obtain ⟨hagree, hne⟩ := hfirst g hg
      refine ⟨hagree.symm.of_untimed rfl heq.symm, fun _ => ?_⟩
      rw [Fragment.piece_of_untimed heq]
      exact hne.symm
    · exact h.held g (List.mem_cons_of_mem f hg) k hk
  · obtain ⟨k, hk, haddr⟩ := List.mem_map.mp hmem
    rcases mem_held_arrive hk with heq | hk
    · have hsame : k.untimed.addr = f.untimed.addr := congrArg Fragment.addr heq
      exact haddrs.1 (List.mem_map.mpr ⟨g, hg, haddr.symm.trans hsame⟩)
    · exact h.fresh g (List.mem_cons_of_mem f hg) (List.mem_map.mpr ⟨k, hk, haddr⟩)
  · have hroom := h.room pool
    have harrive := assemblyHeld_arrive env a f pool
    rw [List.map_cons, List.sum_cons] at hroom
    omega

/-- The fragments of a datagram in any order: it is dispatched once, as what they hold. --/
theorem Incoming.dispatched (h : Incoming env a key queue) (ha : Owned env a) (hc : Consistent a) (hne : queue ≠ [])
    (hholds : Holds (a.pieces key ∪ {p | p ∈ queue.map Fragment.piece}) payload) :
    ∃ d, (fragmentAssembly env a queue).dispatched = a.dispatched ++ [d] ∧ d.octets = payload ∧
      d.length.toNat = payload.length ∧ (∀ f ∈ queue, d.protocol = f.protocol) ∧ ∀ g ∈ d.fragments, g.key = key := by
  induction queue generalizing a with
  | nil => exact absurd rfl hne
  | cons f queue ih =>
    have hkey := h.keys f (List.mem_cons_self ..)
    have hagree : ∀ g ∈ a.held, f.Agrees g := fun g hg => (h.held f (List.mem_cons_self ..) g hg).1
    have hf := h.sound f (List.mem_cons_self ..)
    have hfresh := h.fresh f (List.mem_cons_self ..)
    have hreassembles := hc.reassembles ha hf hagree
    have hset : a.pieces key ∪ {p | p ∈ (f :: queue).map Fragment.piece} =
        insert f.piece (a.pieces key) ∪ {p | p ∈ queue.map Fragment.piece} := by
      ext p
      simp only [List.map_cons, List.mem_cons, Set.mem_union, Set.mem_ofPred_eq, Set.mem_insert_iff]
      tauto
    rw [hset] at hholds
    cases queue with
    | nil =>
      have hall : insert f.piece (a.pieces key) ∪ {p | p ∈ [].map Fragment.piece} =
          insert f.piece (a.pieces f.key) := by
        rw [hkey]
        simp
      rw [hall] at hholds
      obtain ⟨d, hd⟩ := hreassembles.dispatched.mpr ⟨h.fits, _, hholds.complete⟩
      have hdatagram := hreassembles.datagram d hd
      have hoctets := (hdatagram.octets payload).mp hholds
      refine ⟨d, hd, hoctets.symm, ?_, ?_, ?_⟩
      · rw [hoctets]
        exact hdatagram.length
      · exact List.forall_mem_singleton.mpr hdatagram.protocol
      · rw [← hkey]
        exact hdatagram.keys
    | cons r queue =>
      -- `r` has not come yet, so nothing is dispatched
      obtain ⟨hfirst, -⟩ := List.pairwise_cons.mp h.apart
      have hr : r ∈ f :: r :: queue := List.mem_cons_of_mem f (List.mem_cons_self ..)
      have hmissing : ∀ total, ¬ Complete (insert f.piece (a.pieces f.key)) total := by
        refine fun total => not_complete_of_missing (q := r.piece) (h.sound r hr).nonempty fun q hq => ?_
        rcases hq with rfl | ⟨g, hg, hgkey, rfl⟩
        · obtain ⟨hagree, hne⟩ := hfirst r (List.mem_cons_self ..)
          exact ⟨(hagree (hkey.trans (h.keys r hr).symm)).1, hne⟩
        · obtain ⟨hagree, hne⟩ := h.held r hr g hg
          rw [hkey] at hgkey
          exact ⟨(hagree.symm (hgkey.trans (h.keys r hr).symm)).1, (hne hgkey).symm⟩
      have hkept : (fragmentArrive env a f).dispatched = a.dispatched := by
        refine hreassembles.otherwise.resolve_right fun hd => ?_
        obtain ⟨-, total, hcomplete⟩ := hreassembles.dispatched.mp hd
        exact hmissing total hcomplete
      have hpieces := pieces_arrive ha hc hf hagree h.fits hfresh hkept
      rw [hkey] at hpieces
      rw [← hpieces] at hholds
      obtain ⟨d, hd, hoctets, hlength, hprotocol, hkeys⟩ :=
        ih h.next (ha.arrive hfresh) (hc.arrive hf hagree) (List.cons_ne_nil r queue) hholds
      rw [hkept] at hd
      refine ⟨d, hd, hoctets, hlength, List.forall_mem_cons.mpr ⟨?_, hprotocol⟩, hkeys⟩
      rw [hprotocol r (List.mem_cons_self ..)]
      exact (((hfirst r (List.mem_cons_self ..)).1) (hkey.trans (h.keys r hr).symm)).2.symm

end

end Netxduo.Ip
