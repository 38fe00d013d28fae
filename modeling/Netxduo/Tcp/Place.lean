import Netxduo.Library.Spans
import Netxduo.Tcp.DataCheck

/-! Where `_nx_tcp_socket_state_data_check` puts a packet: the six overlap cases leave the queue
    ascending and free of overlap, and every queued packet a piece of one that arrived. -/

namespace Netxduo
open Serial Spans

/-! ### Where a packet lies -/

namespace Packet

/-- The position of the first octet, seen from `r`. --/
def lo (r : ULONG) (p : Packet) : Int := rel r p.beginSequence

/-- The position behind the last octet. --/
def hi (r : ULONG) (p : Packet) : Int := p.lo r + p.octets.length

def span (r : ULONG) (p : Packet) : Span := (p.lo r, p.hi r)

theorem rel_endSequence {r : ULONG} {p : Packet} (h : p.WellFormed) (h₁ : -2 ^ 31 ≤ p.hi r)
    (h₂ : p.hi r < 2 ^ 31) : rel r p.endSequence = p.hi r := by
  have hlen := h.dataLength_toInt
  rw [endSequence, rel_add (by rw [hlen]; exact h₁) (by rw [hlen]; exact h₂), hlen]
  rfl

/-- `q` is `p` with some of the end cut off, and not all of it. --/
structure Piece (q p : Packet) : Prop where
  wf : q.WellFormed
  addr : q.addr = p.addr
  header : q.header = p.header
  ready : q.ready = p.ready
  octets : q.octets <+: p.octets
  nonempty : q.octets ≠ []

theorem Piece.refl {p : Packet} (h : p.WellFormed) (hne : p.octets ≠ []) : p.Piece p :=
  ⟨h, rfl, rfl, rfl, List.prefix_refl _, hne⟩

theorem Piece.lo_eq {r : ULONG} {q p : Packet} (h : q.Piece p) : q.lo r = p.lo r := by
  rw [lo, lo, beginSequence, beginSequence, h.header]

/-- Cutting `amount` bytes off the end leaves a piece that ends `amount` earlier. --/
theorem piece_dataTrim {r : ULONG} {p : Packet} (h : p.WellFormed) (amount : ULONG)
    (ha : amount.toNat < p.octets.length) :
    (socketStateDataTrim p amount).Piece p ∧ (socketStateDataTrim p amount).hi r = p.hi r - amount.toNat := by
  have hoct := octets_dataTrim h ha
  have hlen : (socketStateDataTrim p amount).octets.length = p.octets.length - amount.toNat := by
    rw [hoct, List.length_take]
    omega
  have hpiece : (socketStateDataTrim p amount).Piece p := by
    refine ⟨h.dataTrim ha, ?_, header_dataTrim, ?_, hoct ▸ List.take_prefix .., ?_⟩
    · unfold socketStateDataTrim
      split
      · rfl
      · dsimp only
        split <;> rfl
    · unfold socketStateDataTrim
      split
      · rfl
      · dsimp only
        split <;> rfl
    · intro hnil
      rw [hnil] at hlen
      simp at hlen
      omega
  refine ⟨hpiece, ?_⟩
  rw [hi, hpiece.lo_eq, hlen, hi]
  omega

end Packet

/-- The spans of a queue, seen from `r`. --/
def spans (r : ULONG) (q : List Packet) : List Span := q.map (Packet.span r)

@[simp] theorem spans_nil (r : ULONG) : spans r [] = [] := rfl

@[simp] theorem spans_cons (r : ULONG) (p : Packet) (q : List Packet) :
    spans r (p :: q) = (p.lo r, p.hi r) :: spans r q := rfl

@[simp] theorem spans_append (r : ULONG) (q q' : List Packet) : spans r (q ++ q') = spans r q ++ spans r q' :=
  List.map_append


/-- The packets are well formed, hold data, ascend without overlap, and lie in `[a, b)` seen from `r`. --/
structure Within (r : ULONG) (a : Int) (q : List Packet) (b : Int) : Prop where
  wf : ∀ s ∈ q, s.WellFormed
  ordered : Ordered a (spans r q) b

section
variable {r : ULONG} {a a' b m : Int} {p s : Packet} {q q' : List Packet}

theorem Within.nil (h : a ≤ b) : Within r a [] b := ⟨fun _ hs => (nomatch hs), h⟩

theorem Within.tail (h : Within r a (s :: q) b) : Within r (s.hi r) q b :=
  ⟨fun t ht => h.wf t (List.mem_cons_of_mem _ ht), h.ordered.2.2⟩

theorem Within.head (h : Within r a (s :: q) b) (ha : a' ≤ s.lo r) : Within r a' (s :: q) b :=
  ⟨h.wf, ha, h.ordered.2⟩

theorem Within.cons (hs : s.WellFormed) (h₁ : a ≤ s.lo r) (h₂ : s.lo r < s.hi r)
    (h : Within r (s.hi r) q b) : Within r a (s :: q) b := by
  refine ⟨fun t ht => ?_, h₁, h₂, h.ordered⟩
  rcases List.mem_cons.mp ht with rfl | ht
  · exact hs
  · exact h.wf t ht

theorem Within.lower (h : Within r m q b) (ha : a ≤ m) : Within r a q b := ⟨h.wf, h.ordered.lower ha⟩

theorem Within.mem (h : Within r a q b) (hs : s ∈ q) : a ≤ s.lo r ∧ s.lo r < s.hi r ∧ s.hi r ≤ b :=
  h.ordered.mem (s := (s.lo r, s.hi r)) (List.mem_map_of_mem hs)

theorem within_append : Within r a (q ++ q') b ↔ ∃ m, Within r a q m ∧ Within r m q' b := by
  constructor
  · rintro ⟨hwf, hord⟩
    rw [spans_append, ordered_append] at hord
    obtain ⟨m, h₁, h₂⟩ := hord
    exact ⟨m, ⟨fun t ht => hwf t (List.mem_append_left _ ht), h₁⟩,
      ⟨fun t ht => hwf t (List.mem_append_right _ ht), h₂⟩⟩
  · rintro ⟨m, h₁, h₂⟩
    refine ⟨fun t ht => ?_, ?_⟩
    · rcases List.mem_append.mp ht with ht | ht
      · exact h₁.wf t ht
      · exact h₂.wf t ht
    · rw [spans_append, ordered_append]
      exact ⟨m, h₁.ordered, h₂.ordered⟩

theorem Within.drop (h : Within r a q b) (k : Nat) : Within r a (q.drop k) b := by
  rw [← List.take_append_drop k q, within_append] at h
  obtain ⟨m, h₁, h₂⟩ := h
  exact h₂.lower h₁.ordered.le

end

/-! ### Comparing sequence numbers as positions -/

/-- The packet lies near enough to `r` for its sequence numbers to compare as positions. --/
structure Packet.Located (r : ULONG) (p : Packet) : Prop where
  wf : p.WellFormed
  lower : -2 ^ 30 < p.lo r
  le : p.lo r ≤ p.hi r
  upper : p.hi r < 2 ^ 30

section
variable {r : ULONG} {p s : Packet}

theorem Packet.Located.rel_end (h : p.Located r) : rel r p.endSequence = p.hi r := by
  have := h.lower
  have := h.le
  have := h.upper
  exact rel_endSequence h.wf (by omega) (by omega)

theorem Packet.Located.near_begin (h : p.Located r) : Near r p.beginSequence := by
  have := h.lower
  have := h.le
  have := h.upper
  have hlo : rel r p.beginSequence = p.lo r := rfl
  rw [Near, hlo]
  omega

theorem Packet.Located.near_end (h : p.Located r) : Near r p.endSequence := by
  have := h.lower
  have := h.le
  have := h.upper
  rw [Near, h.rel_end]
  omega

theorem int_begin_begin (hp : p.Located r) (hs : s.Located r) :
    INT (p.beginSequence - s.beginSequence) = p.lo r - s.lo r :=
  int_sub hp.near_begin hs.near_begin

theorem int_begin_end (hp : p.Located r) (hs : s.Located r) :
    INT (p.beginSequence - s.endSequence) = p.lo r - s.hi r := by
  rw [int_sub hp.near_begin hs.near_end, hs.rel_end]
  rfl

theorem int_end_begin (hp : p.Located r) (hs : s.Located r) :
    INT (p.endSequence - s.beginSequence) = p.hi r - s.lo r := by
  rw [int_sub hp.near_end hs.near_begin, hp.rel_end]
  rfl

theorem int_end_end (hp : p.Located r) (hs : s.Located r) :
    INT (p.endSequence - s.endSequence) = p.hi r - s.hi r := by
  rw [int_sub hp.near_end hs.near_end, hp.rel_end, hs.rel_end]

/-- A non-negative signed difference is the unsigned one. --/
theorem toNat_of_int {x : ULONG} {d : Int} (h : INT x = d) (hd : 0 ≤ d) : (x.toNat : Int) = d := by
  change x.toInt = d at h
  have hcond := x.toInt_eq_toNat_cond
  have hlt := x.isLt
  split at hcond <;> omega

end

/-! ### The search behind the packet's first octet -/

section
variable {r : ULONG} {a b m : Int} {p s : Packet} {q : List Packet}

theorem Within.located (h : Within r a q b) (ha : -2 ^ 30 < a) (hb : b < 2 ^ 30) (hs : s ∈ q) : s.Located r := by
  have := h.mem hs
  exact ⟨h.wf s hs, by omega, by omega, by omega⟩

/-- Once the packet starts in front of everything left in the queue, it takes its place there: it
    replaces what it covers and is cut where the first packet it does not cover begins. --/
theorem placePacket_front (hp : p.Located r) (hne : p.lo r < p.hi r) (hpb : p.hi r ≤ b) (hb : b < 2 ^ 30)
    (hlo : p.lo r < m) (h : Within r m q b) (first : Bool) :
    ∃ p' k, p'.Piece p ∧ Within r (p.lo r) (p' :: q.drop k) b ∧ k ≤ q.length ∧
      placePacket p p.beginSequence p.endSequence first q =
        ⟨p' :: q.drop k, false, k, first, (q.drop k).isEmpty⟩ := by
  have hlow := hp.lower
  have hpiece : p.Piece p := .refl hp.wf (by
    intro hnil
    simp [Packet.hi, hnil] at hne)
  induction q generalizing m with
  | nil => exact ⟨p, 0, hpiece, .cons hp.wf (Int.le_refl _) hne (.nil hpb), Nat.le_refl _, rfl⟩
  | cons s rest ih =>
    have hm := h.mem List.mem_cons_self
    have hs := h.located (by omega) hb List.mem_cons_self
    rw [placePacket, if_neg (by rw [int_begin_end hp hs]; omega)]
    by_cases h₂ : INT (s.beginSequence - p.endSequence) ≥ 0
    · rw [if_pos h₂]
      rw [int_begin_end hs hp] at h₂
      exact ⟨p, 0, hpiece, .cons hp.wf (Int.le_refl _) hne (h.head (by omega)), Nat.zero_le _, rfl⟩
    · rw [if_neg h₂, if_neg (by rw [int_begin_begin hp hs]; omega)]
      rw [int_begin_end hs hp] at h₂
      by_cases h₄ : INT (s.beginSequence - p.beginSequence) ≥ 0 ∧ INT (p.endSequence - s.endSequence) ≥ 0
      · rw [if_pos h₄]
        obtain ⟨p', k, hp', hw, hk, heq⟩ := ih (by omega) h.tail
        refine ⟨p', k + 1, hp', hw, Nat.succ_le_succ hk, ?_⟩
        rw [heq]
        rfl
      · rw [if_neg h₄, if_pos (by rw [int_begin_begin hs hp]; omega)]
        have hover := toNat_of_int (int_end_begin hp hs) (by omega)
        have hlen : p.hi r = p.lo r + p.octets.length := rfl
        obtain ⟨hp', hhi⟩ := Packet.piece_dataTrim (r := r) hp.wf (p.endSequence - s.beginSequence) (by omega)
        refine ⟨_, 0, hp', .cons hp'.wf (Int.le_of_eq hp'.lo_eq.symm) ?_ (h.head ?_), Nat.zero_le _, rfl⟩
        · rw [hp'.lo_eq, hhi]
          omega
        · rw [hhi]
          omega

/-- How the search ends: the data is a duplicate of a queued packet's, or the packet stands behind those
    that start in front of it, the last of which may have been cut, and in front of those it does not
    cover. --/
inductive Outcome (r : ULONG) (a b : Int) (p : Packet) (first : Bool) (q : List Packet) : Placement → Prop
  | duplicate (first' : Bool) : Outcome r a b p first q ⟨q, true, 0, first', false⟩
  | placed {before before' after : List Packet} {p' : Packet} {k : Nat} (hq : q = before ++ after)
      (hbefore : List.Forall₂ Packet.Piece before' before) (hpiece : p'.Piece p) (hk : k ≤ after.length)
      (hw : Within r a (before' ++ p' :: after.drop k) b) :
      Outcome r a b p first q
        ⟨before' ++ p' :: after.drop k, false, k, first && before.isEmpty, (after.drop k).isEmpty⟩

theorem placePacket_outcome (hp : p.Located r) (hne : p.lo r < p.hi r) (hpb : p.hi r ≤ b) (hb : b < 2 ^ 30)
    (ha : -2 ^ 30 < a) (hap : a ≤ p.lo r) (h : Within r a q b) (first : Bool) :
    Outcome r a b p first q (placePacket p p.beginSequence p.endSequence first q) := by
  have hpiece : p.Piece p := .refl hp.wf (by
    intro hnil
    simp [Packet.hi, hnil] at hne)
  induction q generalizing a first with
  | nil =>
    have := @Outcome.placed r a b p first [] [] [] [] p 0 rfl .nil hpiece (Nat.le_refl _)
      (.cons hp.wf hap hne (.nil hpb))
    simpa [placePacket] using this
  | cons s rest ih =>
    have hm := h.mem List.mem_cons_self
    have hs := h.located ha hb List.mem_cons_self
    have hswf := h.wf s List.mem_cons_self
    have hsp : s.Piece s := .refl hswf (by
      intro hnil
      simp [Packet.hi, hnil] at hm)
    rw [placePacket]
    by_cases h₁ : INT (p.beginSequence - s.endSequence) ≥ 0
    · rw [if_pos h₁]
      rw [int_begin_end hp hs] at h₁
      dsimp only
      rcases hres : placePacket p p.beginSequence p.endSequence false rest with ⟨queue, dup, k, f, l⟩
      have hout := ih (by omega) (by omega) h.tail false
      rw [hres] at hout
      cases hout with
      | duplicate => exact .duplicate _
      | placed hq hbefore hp' hk hw =>
        subst hq
        have := @Outcome.placed r a b p first (s :: _) _ _ _ _ _ rfl (.cons hsp hbefore) hp' hk
          (.cons hswf hm.1 hm.2.1 hw)
        simpa using this
    rw [if_neg h₁]
    rw [int_begin_end hp hs] at h₁
    by_cases h₂ : INT (s.beginSequence - p.endSequence) ≥ 0
    · rw [if_pos h₂]
      rw [int_begin_end hs hp] at h₂
      have := @Outcome.placed r a b p first (s :: rest) [] [] _ p 0 rfl .nil hpiece (Nat.zero_le _)
        (.cons hp.wf hap hne (h.head (by omega)))
      simpa using this
    rw [if_neg h₂]
    rw [int_begin_end hs hp] at h₂
    rw [int_begin_begin hp hs, int_end_end hs hp, int_begin_begin hs hp, int_end_end hp hs]
    by_cases h₃ : p.lo r - s.lo r ≥ 0 ∧ s.hi r - p.hi r ≥ 0
    · rw [if_pos h₃]
      exact .duplicate _
    rw [if_neg h₃]
    by_cases h₄ : s.lo r - p.lo r ≥ 0 ∧ p.hi r - s.hi r ≥ 0
    · rw [if_pos h₄]
      obtain ⟨p', k, hp', hw, hk, heq⟩ := placePacket_front hp hne hpb hb (by omega) h.tail first
      rw [heq]
      have := @Outcome.placed r a b p first (s :: rest) [] [] _ p' (k + 1) rfl .nil hp' (Nat.succ_le_succ hk)
        (hw.lower hap)
      simpa using this
    rw [if_neg h₄]
    by_cases h₅ : s.lo r - p.lo r ≥ 0
    · rw [if_pos h₅]
      have hover := toNat_of_int (int_end_begin hp hs) (by omega)
      have hlen : p.hi r = p.lo r + p.octets.length := rfl
      obtain ⟨hp', hhi⟩ := Packet.piece_dataTrim (r := r) hp.wf (p.endSequence - s.beginSequence) (by omega)
      have hlo := hp'.lo_eq (r := r)
      have := @Outcome.placed r a b p first (s :: rest) [] [] _ _ 0 rfl .nil hp' (Nat.zero_le _)
        (.cons hp'.wf (by omega) (by omega) (h.head (by omega)))
      simpa using this
    · rw [if_neg h₅]
      have hover := toNat_of_int (int_end_begin hs hp) (by omega)
      have hlen : s.hi r = s.lo r + s.octets.length := rfl
      obtain ⟨hs', hhi⟩ := Packet.piece_dataTrim (r := r) hswf (s.endSequence - p.beginSequence) (by omega)
      have hlo := hs'.lo_eq (r := r)
      obtain ⟨p', k, hp', hw, hk, heq⟩ := placePacket_front hp hne hpb hb (by omega) h.tail false
      rw [heq]
      have := @Outcome.placed r a b p first (s :: rest) [s] _ _ p' k rfl (.cons hs' .nil) hp' hk
        (.cons hs'.wf (by omega) (by omega) (hw.lower (by omega)))
      simpa using this

/-- Packets the search passes are left as they are. --/
theorem placePacket_append (hp : p.Located r) (ready : List Packet) (h : ∀ s ∈ ready, s.Located r ∧ s.hi r ≤ p.lo r)
    (first : Bool) : placePacket p p.beginSequence p.endSequence first (ready ++ q) =
      let res := placePacket p p.beginSequence p.endSequence (first && ready.isEmpty) q
      { res with queue := ready ++ res.queue } := by
  induction ready generalizing first with
  | nil => simp
  | cons s ready ih =>
    obtain ⟨hs, hle⟩ := h s List.mem_cons_self
    rw [List.cons_append, placePacket, if_pos (by rw [int_begin_end hp hs]; omega),
      ih fun t ht => h t (List.mem_cons_of_mem _ ht)]
    simp

end

end Netxduo
