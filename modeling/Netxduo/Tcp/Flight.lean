import Netxduo.Tcp.Resend

/-! The transmit queue as a stretch of the stream: the packets stand one behind the other, the first one may be
    acknowledged in part, and an acknowledgment takes off the ones it covers. -/

namespace Netxduo
open Serial

/-! ### Distances -/

theorem int_offset (una : ULONG) {x y : Int} (h₁ : -2 ^ 31 ≤ x - y) (h₂ : x - y < 2 ^ 31) :
    INT ((una + BitVec.ofInt 32 x) - (una + BitVec.ofInt 32 y)) = x - y := by
  have hsub : (una + BitVec.ofInt 32 x) - (una + BitVec.ofInt 32 y) = BitVec.ofInt 32 (x - y) := by
    rw [Int.sub_eq_add_neg, BitVec.ofInt_add, BitVec.ofInt_neg]
    grind
  rw [INT, hsub, BitVec.toInt_ofInt]
  exact bmod_eq (by omega) (by omega)

theorem int_offset_zero (una : ULONG) {x : Int} (h₁ : -2 ^ 31 ≤ x) (h₂ : x < 2 ^ 31) :
    INT ((una + BitVec.ofInt 32 x) - una) = x := by
  have h := int_offset una (x := x) (y := 0) (by omega) (by omega)
  have hzero : una + BitVec.ofInt 32 0 = una := BitVec.add_zero una
  rw [hzero] at h
  omega

/-! ### Packets in flight -/

/-- The packets stand one behind the other from `a` to `b`, counted from the number `una`. --/
def Flight (una : ULONG) (a : Int) : List TxPacket → Int → Prop
  | [], b => a = b
  | p :: rest, b => p.sequence = una + BitVec.ofInt 32 a ∧ p.octets ≠ [] ∧ p.octets.length ≤ 2 ^ 30 ∧
    Flight una (a + p.octets.length) rest b

/-- `out` octets are on the way, and the first packet is not acknowledged whole. --/
def InFlight (una : ULONG) (queue : List TxPacket) (out : Nat) : Prop :=
  ∃ k : Nat, Flight una (-k) queue out ∧ ∀ p ∈ queue.head?, k < p.octets.length

/-- The octets of a packet that are not acknowledged. --/
def TxPacket.unacked (una : ULONG) (p : TxPacket) : List UInt8 := p.octets.drop (INT (una - p.sequence)).toNat

section
variable {una ending : ULONG} {a b : Int} {k out : Nat} {p : TxPacket} {queue rest : List TxPacket}

theorem Flight.le (h : Flight una a queue b) : a ≤ b := by
  induction queue generalizing a with
  | nil => exact Int.le_of_eq h
  | cons p rest ih =>
    have := ih h.2.2.2
    omega

theorem Flight.lt (h : Flight una a (p :: rest) b) : a < b := by
  have hle := h.2.2.2.le
  have hpos := List.length_pos_iff.mpr h.2.1
  omega

theorem Flight.endSequence (h : Flight una a (p :: rest) b) :
    p.endSequence = una + BitVec.ofInt 32 (a + p.octets.length) := by
  rw [TxPacket.endSequence, TxPacket.payload, h.1, BitVec.ofInt_add, BitVec.ofInt_natCast, BitVec.add_assoc]

theorem flight_append {m : Int} (h : Flight una a queue m) (h' : Flight una m rest b) : Flight una a (queue ++ rest) b := by
  induction queue generalizing a with
  | nil =>
    have hm : a = m := h
    rw [hm]
    exact h'
  | cons p queue ih => exact ⟨h.1, h.2.1, h.2.2.1, ih h.2.2.2⟩

/-- Seen from a number `n` octets further on. --/
theorem Flight.shift (h : Flight una a queue b) (n : Int) : Flight (una + BitVec.ofInt 32 n) (a - n) queue (b - n) := by
  induction queue generalizing a with
  | nil =>
    have hm : a = b := h
    show a - n = b - n
    rw [hm]
  | cons p rest ih =>
    obtain ⟨hseq, hne, hlen, hrest⟩ := h
    refine ⟨?_, hne, hlen, ?_⟩
    · have hsum : una + BitVec.ofInt 32 n + BitVec.ofInt 32 (a - n) = una + BitVec.ofInt 32 a := by
        rw [BitVec.add_assoc, ← BitVec.ofInt_add]
        congr 2
        omega
      rw [hseq, hsum]
    · have := ih hrest
      rw [show a - n + p.octets.length = a + p.octets.length - n by omega]
      exact this

/-- What the driver does to the packets does not count. --/
theorem flight_content : Flight una a (queue.map TxPacket.content) b ↔ Flight una a queue b := by
  induction queue generalizing a with
  | nil => exact Iff.rfl
  | cons p rest ih => exact and_congr Iff.rfl (and_congr Iff.rfl (and_congr Iff.rfl ih))

theorem Flight.content {queue' : List TxPacket} (h : Flight una a queue b)
    (heq : queue'.map TxPacket.content = queue.map TxPacket.content) : Flight una a queue' b := by
  rw [← flight_content, heq, flight_content]
  exact h

theorem InFlight.content {queue' : List TxPacket} (h : InFlight una queue out)
    (heq : queue'.map TxPacket.content = queue.map TxPacket.content) : InFlight una queue' out := by
  obtain ⟨k, hf, hhead⟩ := h
  refine ⟨k, hf.content heq, fun p hp => ?_⟩
  cases queue' with
  | nil => cases hp
  | cons q rest' =>
    cases queue with
    | nil => simp at heq
    | cons q' rest =>
      simp only [List.map_cons, List.cons.injEq] at heq
      have hlen : q.content.octets.length = q'.content.octets.length := congrArg (fun p => p.octets.length) heq.1
      cases hp
      exact Nat.lt_of_lt_of_eq (hhead q' rfl) hlen.symm

/-- No packet reaches over the end. --/
theorem Flight.ends (h : Flight una a queue b) :
    ∀ p ∈ queue, ∃ x : Int, a ≤ x ∧ x ≤ b ∧ p.endSequence = una + BitVec.ofInt 32 x := by
  induction queue generalizing a with
  | nil => exact nofun
  | cons q rest ih =>
    intro p hp
    have hle := h.2.2.2.le
    rcases List.mem_cons.mp hp with rfl | hp
    · exact ⟨a + p.octets.length, by omega, hle, h.endSequence⟩
    · obtain ⟨x, h₁, h₂, h₃⟩ := ih h.2.2.2 p hp
      exact ⟨x, by omega, h₂, h₃⟩

/-! ### What is not acknowledged -/

theorem length_unacked (hseq : p.sequence = una + BitVec.ofInt 32 a) (h₁ : -2 ^ 30 ≤ a) (h₂ : a ≤ 2 ^ 30) :
    (p.unacked una).length = p.octets.length - (-a).toNat := by
  have hint : INT (una - p.sequence) = -a := by
    have h := int_offset una (x := 0) (y := a) (by omega) (by omega)
    have hzero : una + BitVec.ofInt 32 0 = una := BitVec.add_zero una
    rw [hzero, ← hseq] at h
    omega
  rw [TxPacket.unacked, hint, List.length_drop]

theorem Flight.unacked (h : Flight una a queue b) (ha : 0 ≤ a) (hb : b ≤ 2 ^ 30) :
    ((queue.map fun p => (p.unacked una).length).sum : Nat) = b - a := by
  induction queue generalizing a with
  | nil =>
    have hm : a = b := h
    simp [hm]
  | cons p rest ih =>
    have hlt := h.lt
    obtain ⟨hseq, -, -, hrest⟩ := h
    have hlen := length_unacked hseq (by omega) (by omega)
    have := ih hrest (by omega)
    simp only [List.map_cons, List.sum_cons]
    omega

/-- The octets on the way are the ones of the queue that are not acknowledged. --/
theorem InFlight.unacked (h : InFlight una queue out) (hout : out ≤ 2 ^ 30) :
    (queue.map fun p => (p.unacked una).length).sum = out := by
  obtain ⟨k, hf, hhead⟩ := h
  cases queue with
  | nil =>
    have hm : -(k : Int) = out := hf
    simp
    omega
  | cons p rest =>
    have hk := hhead p rfl
    obtain ⟨hseq, -, hmax, hrest⟩ := hf
    have hlen := length_unacked hseq (by omega) (by omega)
    have := hrest.unacked (by omega) (by omega)
    simp only [List.map_cons, List.sum_cons]
    omega

theorem InFlight.empty (h : InFlight una queue 0) : queue = [] := by
  obtain ⟨k, hf, hhead⟩ := h
  cases queue with
  | nil => rfl
  | cons p rest =>
    have hk := hhead p rfl
    have hle := hf.2.2.2.le
    omega

theorem inFlight_nil (una : ULONG) : InFlight una [] 0 := ⟨0, rfl, nofun⟩

theorem InFlight.nil_out (h : InFlight una [] out) : out = 0 := by
  obtain ⟨k, hf, -⟩ := h
  have hm : -(k : Int) = out := hf
  omega

/-- A packet joins the queue. --/
theorem InFlight.join (h : InFlight una queue out) (hseq : p.sequence = una + BitVec.ofNat 32 out) (hne : p.octets ≠ [])
    (hmax : p.octets.length ≤ 2 ^ 30) : InFlight una (queue ++ [p]) (out + p.octets.length) := by
  obtain ⟨k, hf, hhead⟩ := h
  have hp : Flight una out [p] (out + p.octets.length : Nat) := by
    refine ⟨?_, hne, hmax, ?_⟩
    · rw [hseq, BitVec.ofInt_natCast]
    · show (out : Int) + p.octets.length = (out + p.octets.length : Nat)
      omega
  refine ⟨k, flight_append hf hp, fun q hq => ?_⟩
  cases queue with
  | nil =>
    have hm : -(k : Int) = out := hf
    have hpos := List.length_pos_iff.mpr hne
    cases hq
    omega
  | cons r rest =>
    cases hq
    exact hhead q rfl

/-! ### What an acknowledgment takes off -/

/-- `n` octets from `una` on are acknowledged: the packets that end there or before are taken off. --/
theorem releaseCount_flight {n : Int} (h : Flight una a queue b) (ha : -2 ^ 30 < a) (hb : b ≤ 2 ^ 30) (hn : 0 ≤ n)
    (hmax : n ≤ 2 ^ 30) (hending : 0 ≤ INT (ending - (una + BitVec.ofInt 32 n))) :
    let count := releaseCount una ending (una + BitVec.ofInt 32 n) queue
    (∃ m, Flight una m (queue.drop count) b ∧ (m = a ∨ m ≤ n) ∧ ∀ p ∈ (queue.drop count).head?, n < m + p.octets.length) ∧
      ∀ p ∈ queue.take count, ∃ x : Int, a ≤ x ∧ x ≤ n ∧ x ≤ b ∧ p.endSequence = una + BitVec.ofInt 32 x := by
  induction queue generalizing a with
  | nil => exact ⟨⟨a, h, .inl rfl, nofun⟩, nofun⟩
  | cons p rest ih =>
    have hlt := h.lt
    have hend := h.endSequence
    obtain ⟨hseq, hne, hlen, hrest⟩ := h
    have hle := hrest.le
    have hstart : INT (una + BitVec.ofInt 32 n - una) = n := int_offset_zero una (by omega) (by omega)
    have hdiff : INT (una + BitVec.ofInt 32 n - p.endSequence) = n - (a + p.octets.length) := by
      rw [hend]
      exact int_offset una (by omega) (by omega)
    intro count
    by_cases hcover : n < a + p.octets.length
    · have hcount : count = 0 := by
        show releaseCount una ending (una + BitVec.ofInt 32 n) (p :: rest) = 0
        rw [releaseCount, if_pos (.inr (.inr (by omega)))]
      rw [hcount]
      refine ⟨⟨a, ⟨hseq, hne, hlen, hrest⟩, .inl rfl, fun q hq => ?_⟩, nofun⟩
      cases hq
      exact hcover
    · have hcount : count = releaseCount una ending (una + BitVec.ofInt 32 n) rest + 1 := by
        show releaseCount una ending (una + BitVec.ofInt 32 n) (p :: rest) = _
        rw [releaseCount, if_neg (by omega)]
      obtain ⟨⟨m, hm, hmn, hhead⟩, htaken⟩ := ih hrest (by omega)
      rw [hcount]
      refine ⟨⟨m, hm, .inr (by omega), hhead⟩, fun q hq => ?_⟩
      rcases List.mem_cons.mp hq with rfl | hq
      · exact ⟨a + q.octets.length, by omega, by omega, hle, hend⟩
      · obtain ⟨x, h₁, h₂, h₃, h₄⟩ := htaken q hq
        exact ⟨x, by omega, h₂, h₃, h₄⟩

/-- The same, for the first `n` of the octets on the way. --/
theorem releaseCount_inFlight {n : Nat} (h : InFlight una queue out) (hout : out ≤ 2 ^ 30) (hmax : n ≤ 2 ^ 30)
    (hending : 0 ≤ INT (ending - (una + BitVec.ofInt 32 n))) :
    let count := releaseCount una ending (una + BitVec.ofInt 32 n) queue
    InFlight (una + BitVec.ofInt 32 (min n out : Nat)) (queue.drop count) (out - min n out) ∧
      ∀ p ∈ queue.take count, INT (p.endSequence - (una + BitVec.ofInt 32 (min n out : Nat))) ≤ 0 := by
  intro count
  obtain ⟨k, hf, hhead⟩ := h
  cases hq : queue with
  | nil =>
    rw [hq] at hf
    have hm : -(k : Int) = out := hf
    refine ⟨?_, ?_⟩
    · rw [List.drop_nil, show out - min n out = 0 by omega]
      exact inFlight_nil _
    · rw [List.take_nil]
      exact nofun
  | cons p rest =>
    have hk : k < 2 ^ 30 := by
      have hlt := hhead p (by rw [hq]; rfl)
      rw [hq] at hf
      exact Nat.lt_of_lt_of_le hlt hf.2.2.1
    rw [← hq]
    obtain ⟨⟨m, hm, hmn, hlast⟩, htaken⟩ :=
      @releaseCount_flight _ ending _ _ _ _ hf (by omega) (by omega) (by omega) (by omega) hending
    refine ⟨?_, fun q hq => ?_⟩
    · cases hdrop : queue.drop count with
      | nil =>
        rw [hdrop] at hm
        have hend : m = out := hm
        rw [show out - min n out = 0 by omega]
        exact inFlight_nil _
      | cons q left =>
        have hlen := hlast q (by rw [hdrop]; rfl)
        rw [hdrop] at hm
        have hle := hm.2.2.2.le
        have hmin : min n out = n := by omega
        refine ⟨(n - m).toNat, ?_, fun r hr => ?_⟩
        · have hshift := hm.shift n
          rw [hmin, show (-((n - m).toNat : Int)) = m - n by omega, show ((out - n : Nat) : Int) = out - n by omega]
          exact hshift
        · cases hr
          omega
    · obtain ⟨x, h₁, h₂, h₃, h₄⟩ := htaken q hq
      rw [h₄, int_offset una (by omega) (by omega)]
      omega

/-- The packets `released` end at `una` or before, and the ones that are left behind it. --/
def Releases (una : ULONG) (released left : List TxPacket) : Prop :=
  (∀ p ∈ released, INT (p.endSequence - una) ≤ 0) ∧ ∀ p ∈ left, INT (p.endSequence - una) > 0

theorem Flight.above (h : Flight una a queue b) (ha : 0 ≤ a) (hb : b ≤ 2 ^ 30) :
    ∀ p ∈ queue, INT (p.endSequence - una) > 0 := by
  induction queue generalizing a with
  | nil => exact nofun
  | cons q rest ih =>
    intro p hp
    have hle := h.2.2.2.le
    have hpos := List.length_pos_iff.mpr h.2.1
    rcases List.mem_cons.mp hp with rfl | hp
    · rw [h.endSequence, int_offset_zero una (by omega) (by omega)]
      omega
    · exact ih h.2.2.2 (by omega) p hp

theorem InFlight.above (h : InFlight una queue out) (hout : out ≤ 2 ^ 30) :
    ∀ p ∈ queue, INT (p.endSequence - una) > 0 := by
  obtain ⟨k, hf, hhead⟩ := h
  cases queue with
  | nil => exact nofun
  | cons q rest =>
    intro p hp
    have hk := hhead q rfl
    have hle := hf.2.2.2.le
    rcases List.mem_cons.mp hp with rfl | hp
    · rw [hf.endSequence, int_offset_zero una (by omega) (by omega)]
      omega
    · exact hf.2.2.2.above (by omega) (by omega) p hp

end

end Netxduo
