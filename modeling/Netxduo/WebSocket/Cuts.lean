import Mathlib.Tactic.SplitIfs
import Netxduo.Library.Runs
import Netxduo.WebSocket.Protocol

/-! However a stream of frames is cut, the client brings about what the stream says. -/

namespace Netxduo.WebSocket

open Runs Packets

/-! ### Chains -/

section chains

variable {p : Packets.Packet} {c : Client} {offset size length i : Nat} {key s t : List UInt8} {found : Bool}

/-- What is behind an offset of a chain, with its last buffer known. --/
theorem behind_spec (hp : p.Filled) (hends : p.Ends) (hle : offset ≤ p.length) :
    behind p offset p.head.last = none ∧ offset = p.length ∨
      ∃ q, behind p offset p.head.last = some q ∧ q.octets = p.octets.drop offset ∧ q.Filled ∧ q.Ends ∧
        offset < p.length := by
  have hlength := hp.length
  by_cases hlt : offset < p.length
  · have hlt' := hlt
    rw [hlength, Packets.Packet.octets, List.length_append] at hlt'
    obtain ⟨head, tail, left, hrelease, hleft, hne, hshort, hoctets⟩ := releaseBefore_spec hlt' hp.tail
    refine .inr ⟨⟨⟨head.octets.drop left, p.head.last.map (· - (p.tail.length - tail.length))⟩, tail, p.length - offset⟩, ?_,
      hoctets, ⟨?_, hne, ?_⟩, ?_, hlt⟩
    · unfold behind
      rw [hrelease]
      rfl
    · intro hnil
      rw [List.drop_eq_nil_iff] at hnil
      exact absurd hleft (Nat.not_lt.mpr hnil)
    · show p.length - offset = (head.octets.drop left ++ tail.flatMap Packets.Buffer.octets).length
      rw [hoctets, List.length_drop, hlength]
      rfl
    · unfold Packets.Packet.Ends at hends ⊢
      dsimp only
      cases hlast : p.head.last with
      | none =>
        rw [hlast] at hends
        simp only [Option.getD_none] at hends
        simp only [Option.map_none, Option.getD_none]
        omega
      | some k =>
        rw [hlast] at hends
        simp only [Option.getD_some] at hends
        simp only [Option.map_some, Option.getD_some]
        omega
  · refine .inl ⟨?_, by omega⟩
    unfold behind
    rw [releaseBefore_all (by rw [hlength, Packets.Packet.octets, List.length_append] at hlt; omega)]
    rfl

theorem unmaskOctets_stopped (s : List UInt8) : unmaskOctets key length s i false = (s, i, false) := by
  cases s with
  | nil => rfl
  | cons b s => simp [unmaskOctets]

theorem unmaskOctets_spec (h : i < length) (s : List UInt8) :
    unmaskOctets key length s i true =
      (unmask (some key) i (s.take (length - i)) ++ s.drop (length - i), i + min s.length (length - i),
        decide (s.length < length - i)) := by
  induction s generalizing i with
  | nil =>
    have hpos : 0 < length - i := by omega
    simp [unmaskOctets, unmask, hpos]
  | cons b s ih =>
    unfold unmaskOctets
    rw [if_neg (by decide)]
    dsimp only
    by_cases hlast : length ≤ i + 1
    · have hone : length - i = 1 := by omega
      rw [if_pos hlast, hone]
      simp [unmask, unmaskOctet]
    · have hnext : length - i = (length - (i + 1)) + 1 := by omega
      rw [if_neg hlast, ih (by omega), hnext, List.take_succ_cons, List.drop_succ_cons, unmask_cons, List.length_cons]
      simp only [List.cons_append, Nat.add_lt_add_iff_right, Nat.add_min_add_right]
      congr 2
      omega

theorem unmaskOctets_last {b : UInt8} (h : length ≤ i + 1) (s : List UInt8) :
    unmaskOctets key length (b :: s) i true = ((b ^^^ key.getD (i % 4) 0) :: s, i + 1, false) := by
  simp [unmaskOctets, h]

theorem unmaskOctets_more {b : UInt8} (h : ¬length ≤ i + 1) (s : List UInt8) :
    unmaskOctets key length (b :: s) i true =
      ((b ^^^ key.getD (i % 4) 0) :: (unmaskOctets key length s (i + 1) true).1,
        (unmaskOctets key length s (i + 1) true).2) := by
  simp [unmaskOctets, h]

theorem unmaskOctets_append (s t : List UInt8) :
    unmaskOctets key length (s ++ t) i found =
      ((unmaskOctets key length s i found).1 ++
          (unmaskOctets key length t (unmaskOctets key length s i found).2.1 (unmaskOctets key length s i found).2.2).1,
        (unmaskOctets key length t (unmaskOctets key length s i found).2.1 (unmaskOctets key length s i found).2.2).2) := by
  induction s generalizing i found with
  | nil => rfl
  | cons b s ih =>
    cases found with
    | false =>
      simp only [unmaskOctets_stopped]
    | true =>
      rw [List.cons_append]
      by_cases hlast : length ≤ i + 1
      · rw [unmaskOctets_last hlast, unmaskOctets_last hlast]
        simp only [unmaskOctets_stopped, List.cons_append]
      · rw [unmaskOctets_more hlast, unmaskOctets_more hlast, ih]
        rfl

theorem unmaskOctets_length (s : List UInt8) : (unmaskOctets key length s i found).1.length = s.length := by
  induction s generalizing i found with
  | nil => rfl
  | cons b s ih =>
    unfold unmaskOctets
    split
    · rfl
    · dsimp only
      split
      · rfl
      · rw [List.length_cons, List.length_cons, ih]

/-- A chain is unmasked as its octets are. --/
theorem unmaskBuffers_spec (buffers : List Packets.Buffer) :
    ((unmaskBuffers key length buffers i found).1.flatMap Packets.Buffer.octets, (unmaskBuffers key length buffers i found).2) =
        unmaskOctets key length (buffers.flatMap Packets.Buffer.octets) i found ∧
      (unmaskBuffers key length buffers i found).1.length = buffers.length ∧
      ((∀ b ∈ buffers, b.octets ≠ []) → ∀ b ∈ (unmaskBuffers key length buffers i found).1, b.octets ≠ []) := by
  induction buffers generalizing i found with
  | nil => exact ⟨rfl, rfl, fun h => h⟩
  | cons b buffers ih =>
    obtain ⟨hoctets, hlength, hne⟩ := @ih (unmaskOctets key length b.octets i found).2.1
      (unmaskOctets key length b.octets i found).2.2
    refine ⟨?_, ?_, fun h x hx => ?_⟩
    · rw [List.flatMap_cons, unmaskOctets_append, ← hoctets]
      rfl
    · exact congrArg (· + 1) hlength
    · rcases List.mem_cons.mp hx with rfl | hx
      · intro hnil
        have hzero := @unmaskOctets_length length i key found b.octets
        have hempty : (unmaskOctets key length b.octets i found).1 = [] := hnil
        rw [hempty] at hzero
        exact h b List.mem_cons_self (List.length_eq_zero_iff.mp hzero.symm)
      · exact hne (fun b hb => h b (List.mem_cons_of_mem _ hb)) x hx

end chains

/-! ### The state between two packets -/

def Client.waiting (c : Client) : List UInt8 := c.processing.elim [] Packets.Packet.octets

def Client.key (c : Client) : Option (List UInt8) := if c.masked = true then some c.maskingKey else none

def Client.fragments (c : Client) : Fragments := ⟨c.fragmented, c.opcode⟩

def Client.left (c : Client) : Nat := c.dataLength - c.dataReceived

/-- What octets bring about that follow: in the middle of a frame they are its payload. --/
def resume (c : Client) (s : List UInt8) : List Event :=
  if c.headerFound = true then
    (unmask c.key c.dataReceived (s.take c.left)).map (.data c.opcode) ++ parse c.fragments (s.drop c.left)
  else parse c.fragments s

def Done.events (d : Done) : List Event :=
  match d.status with
  | .success => d.data.map (.data d.code)
  | .more => d.pong.toList.map .pong
  | .disconnected => [.closed]
  | _ => [.refused]

/-- The connection goes on. --/
def Done.goes (d : Done) : Bool := d.status == .success || d.status == .more

/-- The chain that waits is in order, and a frame of which octets are missing has nothing behind it. --/
structure Sound (c : Client) : Prop where
  chain : ∀ q, c.processing = some q → q.Filled ∧ q.Ends
  found : c.headerFound = true → c.processing = none ∧ c.dataReceived < c.dataLength

/-- A step brings about what its octets say, and leaves no more than the last ones of them. --/
structure Step (c : Client) (s rest : List UInt8) (d : Done) : Prop where
  events : ∀ t, resume c (s ++ t) = d.events ++ if d.goes = true then resume d.client (d.client.waiting ++ t) else []
  sound : d.goes = true → Sound d.client
  waits : d.goes = true → d.client.waiting.length ≤ rest.length

section payloads

variable {p : Packets.Packet} {c : Client} {size : Nat}

theorem payload_spec (hp : p.Filled) (hends : p.Ends) (hfound : c.headerFound = true)
    (hleft : c.dataReceived < c.dataLength ∨ c.masked = false ∧ c.dataReceived ≤ c.dataLength) :
    (payload c p).1 = { c with
        headerFound := decide (p.length < c.left), dataReceived := c.dataReceived + min p.length c.left } ∧
      (payload c p).2.1.octets = unmask c.key c.dataReceived (p.octets.take c.left) ++ p.octets.drop c.left ∧
      (payload c p).2.1.Filled ∧ (payload c p).2.1.Ends ∧ (payload c p).2.1.length = p.length ∧
      (payload c p).2.2 = min p.length c.left := by
  have hlength := hp.length
  unfold payload Client.key
  by_cases hmasked : c.masked = true
  · have hlt : c.dataReceived < c.dataLength := hleft.resolve_right fun h => by rw [hmasked] at h; cases h.1
    obtain ⟨hoctets, hcount, hne⟩ := @unmaskBuffers_spec c.dataLength
      (unmaskOctets c.maskingKey c.dataLength p.head.octets c.dataReceived true).2.1 c.maskingKey
      (unmaskOctets c.maskingKey c.dataLength p.head.octets c.dataReceived true).2.2 p.tail
    have hall := @unmaskOctets_append c.dataLength c.dataReceived c.maskingKey true p.head.octets
      (p.tail.flatMap Packets.Buffer.octets)
    rw [← hoctets] at hall
    have hwhole := (unmaskOctets_spec hlt (p.head.octets ++ p.tail.flatMap Packets.Buffer.octets)).symm.trans hall
    obtain ⟨hsame, hrest⟩ := Prod.mk.inj hwhole
    obtain ⟨hreceived, hmore⟩ := Prod.mk.inj hrest
    have hoctetsLength : (p.head.octets ++ p.tail.flatMap Packets.Buffer.octets).length = p.length := hlength.symm
    rw [hoctetsLength] at hreceived hmore
    rw [if_pos hmasked, if_pos hmasked, hfound]
    have hleftEq : c.dataLength - c.dataReceived = c.left := rfl
    rw [hleftEq] at hsame hreceived hmore
    refine ⟨?_, hsame.symm, ⟨?_, hne hp.tail, ?_⟩, ?_, rfl, ?_⟩
    · dsimp only
      rw [← hreceived, ← hmore]
    · intro hnil
      have hzero := @unmaskOctets_length c.dataLength c.dataReceived c.maskingKey true p.head.octets
      have hempty : (unmaskOctets c.maskingKey c.dataLength p.head.octets c.dataReceived true).1 = [] := hnil
      rw [hempty] at hzero
      exact hp.head (List.length_eq_zero_iff.mp hzero.symm)
    · show p.length = _
      unfold Packets.Packet.octets
      dsimp only
      rw [← hsame, List.length_append, unmask_length, List.length_take, List.length_drop, hoctetsLength]
      omega
    · unfold Packets.Packet.Ends at hends ⊢
      dsimp only
      rw [hcount, hends]
    · dsimp only
      rw [← hreceived]
      omega
  · have hmasked' : c.masked = false := Bool.eq_false_iff.mpr hmasked
    have hle : c.dataReceived ≤ c.dataLength := by
      rcases hleft with hlt | ⟨-, hle⟩
      · omega
      · exact hle
    have hleftEq : c.dataLength - c.dataReceived = c.left := rfl
    rw [if_neg hmasked, if_neg hmasked, unmask_none, List.take_append_drop]
    dsimp only
    rw [hleftEq]
    by_cases hall : c.left ≤ p.length
    · rw [if_pos hall]
      have hnot : decide (p.length < c.left) = false := decide_eq_false (by omega)
      refine ⟨?_, rfl, hp, hends, rfl, (Nat.min_eq_right hall).symm⟩
      rw [hnot, Nat.min_eq_right hall]
    · rw [if_neg hall]
      have hlt : decide (p.length < c.left) = true := decide_eq_true (by omega)
      refine ⟨?_, rfl, hp, hends, rfl, by dsimp only; omega⟩
      rw [hlt, Nat.min_eq_left (by omega), ← hfound]

theorem deliver_spec (hp : p.Filled) (hends : p.Ends) (hle : size ≤ p.length) :
    ∃ rest, deliver c p size = ⟨.success, { c with processing := rest }, p.octets.take size, c.opcode, none⟩ ∧
      (rest : Option Packets.Packet).elim [] Packets.Packet.octets = p.octets.drop size ∧
      (∀ q, rest = some q → q.Filled ∧ q.Ends) ∧ (size = p.length → rest = none) := by
  rcases behind_spec hp hends hle with ⟨hnone, hall⟩ | ⟨q, hsome, hoctets, hfilled, hlast, hlt⟩
  · refine ⟨none, ?_, ?_, fun q hq => (by cases hq), fun _ => rfl⟩
    · unfold deliver
      rw [hnone]
      rfl
    · rw [hall, hp.length, List.drop_length]
      rfl
  · refine ⟨some (if q.tail = [] then { q with head := { q.head with last := none } } else q), ?_, ?_, ?_, fun h => by omega⟩
    · unfold deliver
      rw [hsome]
      rfl
    · split
      · exact hoctets
      · exact hoctets
    · intro r hr
      cases hr
      split
      · rename_i hnil
        refine ⟨⟨hfilled.head, hfilled.tail, hfilled.length⟩, ?_⟩
        unfold Packets.Packet.Ends
        dsimp only
        rw [hnil]
        rfl
      · exact ⟨hfilled, hlast⟩

/-- The payload of a data frame, as far as it is there, is delivered. --/
theorem data_step (hp : p.Filled) (hends : p.Ends) (hfound : c.headerFound = true)
    (hleft : c.dataReceived < c.dataLength ∨ c.masked = false ∧ c.dataReceived ≤ c.dataLength) :
    Step c p.octets p.octets
      (deliver { (payload c p).1 with processing := some (payload c p).2.1 } (payload c p).2.1 (payload c p).2.2) := by
  obtain ⟨hclient, hoctets, hfilled, hlast, hsame, hsize⟩ := payload_spec hp hends hfound hleft
  have hlength := hp.length
  obtain ⟨rest, hdeliver, hrest, hchain, hnone⟩ := deliver_spec
    (c := { (payload c p).1 with processing := some (payload c p).2.1 }) hfilled hlast
    (show (payload c p).2.2 ≤ (payload c p).2.1.length by rw [hsize, hsame]; omega)
  rw [hdeliver]
  rw [hclient] at hdeliver ⊢
  rw [hoctets, hsize] at hrest
  rw [hoctets, hsize]
  rw [hsize, hsame] at hnone
  have hunmask := @unmask_length c.key c.dataReceived (p.octets.take c.left)
  by_cases hshort : p.length < c.left
  · have hmin : min p.length c.left = p.length := Nat.min_eq_left (by omega)
    have htake : p.octets.take c.left = p.octets := List.take_of_length_le (by omega)
    have hdrop : p.octets.drop c.left = [] := List.drop_eq_nil_of_le (by omega)
    rw [hmin] at hnone hrest ⊢
    rw [htake, hdrop, List.append_nil] at hrest ⊢
    rw [htake] at hunmask
    have hwhole : (unmask c.key c.dataReceived p.octets).take p.length = unmask c.key c.dataReceived p.octets :=
      List.take_of_length_le (by omega)
    have hnone := hnone rfl
    subst hnone
    refine ⟨fun t => ?_, fun _ => ⟨fun q hq => (by cases hq), fun _ => ⟨rfl, ?_⟩⟩, fun _ => Nat.zero_le _⟩
    · have hresume : resume c (p.octets ++ t) = (unmask c.key c.dataReceived p.octets).map (.data c.opcode) ++
          ((unmask c.key (c.dataReceived + p.length) (t.take (c.left - p.length))).map (.data c.opcode) ++
            parse c.fragments (t.drop (c.left - p.length))) := by
        unfold resume
        rw [if_pos hfound, List.take_append, htake, List.drop_append, hdrop, List.nil_append, unmask_append, List.map_append,
          ← hlength, List.append_assoc]
      rw [hresume, hwhole]
      refine congrArg _ ?_
      show _ = resume _ t
      have hshort' : p.length < c.dataLength - c.dataReceived := hshort
      unfold resume Client.left
      dsimp only
      rw [if_pos (decide_eq_true hshort'), Nat.sub_add_eq]
      rfl
    · have hlt : p.length < c.dataLength - c.dataReceived := hshort
      dsimp only
      omega
  · have hmin : min p.length c.left = c.left := Nat.min_eq_right (by omega)
    rw [hmin] at hrest ⊢
    have hexact : (unmask c.key c.dataReceived (p.octets.take c.left)).length = c.left := by
      rw [hunmask, List.length_take]
      omega
    rw [List.take_left' hexact]
    rw [List.drop_left' hexact] at hrest
    refine ⟨fun t => ?_, fun _ => ⟨hchain, fun h => ?_⟩, fun _ => ?_⟩
    · unfold resume Done.events Done.goes Client.waiting Client.fragments
      dsimp only
      rw [hrest, if_pos hfound, decide_eq_false hshort]
      simp only [beq_self_eq_true, Bool.true_or, if_true, Bool.false_eq_true, if_false]
      rw [List.take_append_of_le_length (by omega), List.drop_append_of_le_length (by omega)]
    · dsimp only at h
      rw [decide_eq_false hshort] at h
      cases h
    · show (rest.elim [] Packets.Packet.octets).length ≤ _
      rw [hrest, List.length_drop]
      omega

end payloads

/-! ### Headers -/

section headers

variable {p : Packets.Packet} {c : Client} {offset size : Nat} {first second : UInt8} {s t : List UInt8}

theorem extract_some (hp : p.Filled) (hlt : offset < p.octets.length) :
    p.extractOffset offset size = some ((p.octets.drop offset).take size) := by
  unfold Packets.Packet.extractOffset
  rw [hp.length, if_neg (by omega), if_neg (by omega)]

theorem extract_none (hp : p.Filled) (hle : p.octets.length ≤ offset) (hpos : 0 < offset) :
    p.extractOffset offset size = none := by
  unfold Packets.Packet.extractOffset
  rw [hp.length, if_pos hle, if_neg (by omega)]

theorem payloadLength_spec (hp : p.Filled) (hoctets : p.octets = first :: second :: s) {length : Nat} (hle : length ≤ 126) :
    payloadLength p length = none ∧ scanLength length s = none ∨
      ∃ found size, payloadLength p length = some (found, size) ∧ 2 ≤ size ∧ size ≤ p.length ∧
        ∀ t, scanLength length (s ++ t) = some (found, p.octets.drop size ++ t) := by
  have hlength := hp.length
  rw [hoctets, List.length_cons, List.length_cons] at hlength
  unfold payloadLength
  by_cases hsmall : length < 126
  · rw [if_pos hsmall]
    refine .inr ⟨length, 2, rfl, Nat.le_refl _, by omega, fun t => ?_⟩
    unfold scanLength
    rw [if_pos hsmall, hoctets]
    rfl
  · have h126 : length = 126 := by omega
    rw [if_neg hsmall]
    rcases s with _ | ⟨upper, _ | ⟨lower, s⟩⟩
    · rw [extract_none hp (by rw [hoctets]; exact Nat.le_refl _) (by decide)]
      refine .inl ⟨rfl, ?_⟩
      unfold scanLength
      rw [if_neg hsmall, if_pos h126]
    · rw [extract_some hp (by rw [hoctets]; simp), hoctets]
      refine .inl ⟨rfl, ?_⟩
      unfold scanLength
      rw [if_neg hsmall, if_pos h126]
    · rw [extract_some hp (by rw [hoctets]; simp), hoctets]
      rw [List.length_cons, List.length_cons] at hlength
      refine .inr ⟨upper.toNat * 256 + lower.toNat, 4, rfl, by decide, by omega, fun t => ?_⟩
      unfold scanLength
      rw [if_neg hsmall, if_pos h126]
      rfl

theorem maskingKey_spec (hp : p.Filled) (hpos : 0 < offset) (hle : offset ≤ p.length) :
    maskingKey c p offset = none ∧ scanKey c.masked (p.octets.drop offset) = none ∨
      ∃ key size, maskingKey c p offset = some (key, size) ∧ size ≤ p.length ∧
        ∀ t, scanKey c.masked (p.octets.drop offset ++ t) =
          some (if c.masked = true then some key else none, p.octets.drop size ++ t) := by
  have hlength := hp.length
  unfold maskingKey scanKey
  by_cases hmasked : c.masked = true
  · simp only [if_pos hmasked]
    by_cases hroom : offset + 4 ≤ p.length
    · rw [extract_some hp (by omega)]
      dsimp only
      have hfour : ((p.octets.drop offset).take 4).length = 4 := by
        rw [List.length_take, List.length_drop]
        omega
      rw [if_pos hfour]
      refine .inr ⟨(p.octets.drop offset).take 4, offset + 4, rfl, hroom, fun t => ?_⟩
      rw [if_neg (by rw [List.length_append, List.length_drop]; omega),
        List.take_append_of_le_length (by rw [List.length_drop]; omega),
        List.drop_append_of_le_length (by rw [List.length_drop]; omega), List.drop_drop]
    · refine .inl ⟨?_, if_pos (by rw [List.length_drop]; omega)⟩
      by_cases hsome : offset < p.octets.length
      · rw [extract_some hp hsome]
        dsimp only
        rw [if_neg (by rw [List.length_take, List.length_drop]; omega)]
      · rw [extract_none hp (by omega) hpos]
  · simp only [if_neg hmasked]
    exact .inr ⟨c.maskingKey, offset, rfl, hle, fun t => rfl⟩

/-- The first two octets of a frame use nothing that the client does not know. --/
def PlainBits (s : List UInt8) : Prop :=
  ∀ first second rest, s = first :: second :: rest →
    first &&& reserved = 0 ∧ (second &&& payloadLenMask).toNat ≤ 126

theorem parseHeader_spec (hp : p.Filled) (hbits : PlainBits p.octets) :
    (∃ masked key, parseHeader c p = ({ c with masked := masked, maskingKey := key }, .error .more) ∧
      ∀ f, parse f p.octets = []) ∨
    (∃ c' status, parseHeader c p = (c', .error status) ∧ (status = .invalidPacket ∨ status = .notSupported) ∧
      ∀ t, scan (p.octets ++ t) = .refused) ∨
    ∃ masked key h, parseHeader c p = ({ c with masked := masked, maskingKey := key }, .ok h) ∧ h.size ≤ p.length ∧
      (∀ t, scan (p.octets ++ t) =
        .frame h.last h.opcode (if masked = true then some key else none) h.length (p.octets.drop h.size ++ t)) ∧
      (isControl h.opcode = true → h.size + h.length ≤ p.length) := by
  have hlength := hp.length
  rcases hs : p.octets with _ | ⟨first, _ | ⟨second, s⟩⟩
  · exact absurd (List.append_eq_nil_iff.mp hs).1 hp.head
  · refine .inl ⟨c.masked, c.maskingKey, ?_, fun f => parse_more rfl⟩
    unfold parseHeader
    rw [extract_some hp (by rw [hs]; exact Nat.one_pos), hs]
    rfl
  · obtain ⟨hreserved, hseven⟩ := hbits first second s hs
    have hfirst : p.extractOffset 0 2 = some [first, second] := by
      rw [extract_some hp (by rw [hs]; simp), hs]
      rfl
    by_cases hcontrol : (isControl (first &&& opcodeMask) && !(first &&& fin == fin)) = true
    · refine .inr (.inl ⟨c.cleanup, .invalidPacket, ?_, .inl rfl, fun t => ?_⟩)
      · unfold parseHeader
        rw [hfirst]
        dsimp only
        rw [if_pos hcontrol]
      · rw [List.cons_append, List.cons_append]
        unfold scan
        dsimp only
        rw [if_pos (.inr hcontrol)]
    have hgood : ¬(first &&& reserved ≠ 0 ∨ (isControl (first &&& opcodeMask) && !(first &&& fin == fin)) = true) := by
      rintro (h | h)
      · exact h hreserved
      · exact hcontrol h
    have hcode : ¬126 < (second &&& payloadLenMask).toNat := by omega
    rcases payloadLength_spec hp hs hseven with ⟨hnone, hscan⟩ | ⟨length, offset, hsome, hpos, hle, hscan⟩
    · refine .inl ⟨second &&& mask != 0, c.maskingKey, ?_, fun f => parse_more ?_⟩
      · unfold parseHeader
        rw [hfirst]
        dsimp only
        rw [if_neg hcontrol, if_neg hcode, hnone]
      · unfold scan
        dsimp only
        rw [if_neg hgood, hscan]
    rw [hs] at hscan
    have hscan' := hscan []
    rw [List.append_nil, List.append_nil] at hscan'
    have hmasks := @maskingKey_spec p { c with masked := second &&& mask != 0 } offset hp (by omega) hle
    rw [hs] at hmasks
    rcases hmasks with ⟨hnone, hkey⟩ | ⟨key, size, hkey, hsize, hscanKey⟩
    · refine .inl ⟨second &&& mask != 0, c.maskingKey, ?_, fun f => parse_more ?_⟩
      · unfold parseHeader
        rw [hfirst]
        dsimp only
        rw [if_neg hcontrol, if_neg hcode, hsome]
        dsimp only
        rw [hnone]
      · unfold scan
        dsimp only
        rw [if_neg hgood, hscan']
        dsimp only
        rw [hkey]
    have hframe : ∀ t, scan (first :: second :: s ++ t) =
        if (isControl (first &&& opcodeMask) && decide (controlPayloadMaximum < length)) = true then .refused
        else .frame (first &&& fin == fin) (first &&& opcodeMask)
          (if (second &&& mask != 0) = true then some key else none) length ((first :: second :: s).drop size ++ t) := by
      intro t
      rw [List.cons_append, List.cons_append]
      unfold scan
      dsimp only
      rw [if_neg hgood, hscan t]
      dsimp only
      rw [hscanKey t]
    have hparse : parseHeader c p =
        if (isControl (first &&& opcodeMask) && decide (controlPayloadMaximum < length)) = true then
          (({ c with masked := second &&& mask != 0, maskingKey := key } : Client).cleanup, .error .invalidPacket)
        else if (isControl (first &&& opcodeMask) && decide (p.length < size + length)) = true then
          ({ c with masked := second &&& mask != 0, maskingKey := key }, .error .more)
        else ({ c with masked := second &&& mask != 0, maskingKey := key },
          .ok ⟨first &&& fin == fin, first &&& opcodeMask, length, size⟩) := by
      unfold parseHeader
      rw [hfirst]
      dsimp only
      rw [if_neg hcontrol, if_neg hcode, hsome]
      dsimp only
      rw [hkey]
    by_cases hlong : (isControl (first &&& opcodeMask) && decide (controlPayloadMaximum < length)) = true
    · rw [if_pos hlong] at hparse
      exact .inr (.inl ⟨_, _, hparse, .inl rfl, fun t => (hframe t).trans (if_pos hlong)⟩)
    rw [if_neg hlong] at hparse
    have hframe : ∀ t, scan (first :: second :: s ++ t) = .frame (first &&& fin == fin) (first &&& opcodeMask)
        (if (second &&& mask != 0) = true then some key else none) length ((first :: second :: s).drop size ++ t) :=
      fun t => (hframe t).trans (if_neg hlong)
    by_cases hshort : (isControl (first &&& opcodeMask) && decide (p.length < size + length)) = true
    · rw [if_pos hshort] at hparse
      refine .inl ⟨_, _, hparse, fun f => ?_⟩
      obtain ⟨hcontrol', hroom⟩ := Bool.and_eq_true_iff.mp hshort
      have hroom := of_decide_eq_true hroom
      have hwhole := hframe []
      rw [List.append_nil, List.append_nil] at hwhole
      rw [parse_frame hwhole, if_pos hcontrol', if_pos]
      rw [List.length_drop, ← hs, ← hlength]
      omega
    · rw [if_neg hshort] at hparse
      refine .inr (.inr ⟨_, _, _, hparse, hsize, hframe, fun hcontrol' => ?_⟩)
      have hroom : ¬p.length < size + length := fun h => hshort (Bool.and_eq_true_iff.mpr ⟨hcontrol', decide_eq_true h⟩)
      exact Nat.not_lt.mp hroom

end headers

/-! ### Frames -/

/-- The opcodes that a client can deal with. --/
def known (opcode : UInt8) : Prop := opcode = opcodeContinuation ∨ opcode = opcodeText ∨ opcode = opcodeBinary

/-- Where a new frame begins, its first octets use what the client knows; a masked frame without payload has nothing behind it;
    and a frame with a payload and an opcode that nobody knows does not end with its header. --/
structure Plain (c : Client) (p : Packets.Packet) : Prop where
  bits : PlainBits p.octets
  masked : ∀ c' h, parseHeader c p = (c', .ok h) → c'.masked = true → h.length = 0 → h.size = p.length
  reserved : ∀ c' h, parseHeader c p = (c', .ok h) → isControl h.opcode = false → ¬known h.opcode → 0 < h.length →
    h.size < p.length

section frames

variable {p q : Packets.Packet} {c : Client} {h : Header} {size : Nat}

theorem fragmentRules_next (hcontrol : isControl h.opcode = false) :
    fragmentRules c h = none ∧ c.fragments.next h.last h.opcode = none ∨
      ∃ fragmented opcode, fragmentRules c h = some { c with fragmented := fragmented, opcode := opcode } ∧
        (known h.opcode → c.fragments.next h.last h.opcode = some ⟨fragmented, opcode⟩) ∧
        (¬known h.opcode → c.fragments.next h.last h.opcode = none) := by
  obtain ⟨last, opcode, length, size⟩ := h
  dsimp only at hcontrol ⊢
  have hbinary : ¬opcodeContinuation = opcodeBinary ∧ ¬opcodeContinuation = opcodeText := by decide
  by_cases hgo : c.fragmented = true ∧ opcode = opcodeContinuation ∧ last = false
  · obtain ⟨hfragmented, rfl, rfl⟩ := hgo
    have hsame : fragmentRules c ⟨false, opcodeContinuation, length, size⟩ = some c := by
      simp [fragmentRules, hcontrol, hfragmented]
    refine .inr ⟨c.fragmented, c.opcode, hsame, ?_, ?_⟩
    · simp [Fragments.next, Client.fragments, hfragmented]
    · simp [known]
  unfold fragmentRules Fragments.next Client.fragments known
  dsimp only
  rw [hcontrol, if_neg (by decide)]
  cases hfragmented : c.fragmented with
  | false =>
    by_cases h0 : opcode = opcodeContinuation
    · left
      cases last <;> simp [h0, hbinary]
    · by_cases h1 : opcode = opcodeText ∨ opcode = opcodeBinary
      · right
        cases last with
        | false =>
          have hnot : ¬(¬opcode = opcodeBinary ∧ ¬opcode = opcodeText) := fun h => h1.elim h.2 h.1
          exact ⟨true, opcode, by simp [hnot], by simp [h0, h1], by simp [h0, h1]⟩
        | true => exact ⟨false, opcode, by simp [h0, ← hfragmented], by simp [h0, h1], by simp [h0, h1]⟩
      · have hnot : ¬opcode = opcodeBinary ∧ ¬opcode = opcodeText := ⟨fun h => h1 (.inr h), fun h => h1 (.inl h)⟩
        cases last with
        | false =>
          left
          simp [h0, hnot]
        | true =>
          right
          exact ⟨false, opcode, by simp [h0, ← hfragmented], by simp [h0, hnot], by simp [h0, hnot]⟩
  | true =>
    by_cases h0 : opcode = opcodeContinuation
    · right
      cases last with
      | false => exact absurd ⟨hfragmented, h0, rfl⟩ hgo
      | true => exact ⟨false, c.opcode, by simp [h0], by simp [h0], by simp [h0]⟩
    · left
      cases last <;> simp [h0]

/-- The frame behind the payload of a control frame. --/
theorem packetTrim_spec (hp : p.Filled) (hends : p.Ends) (hle : size ≤ p.length) :
    ∃ rest, packetTrim p size = .ok rest ∧ (rest : Option Packets.Packet).elim [] Packets.Packet.octets = p.octets.drop size ∧
      ∀ q, rest = some q → q.Filled ∧ q.Ends := by
  unfold packetTrim
  rw [if_neg (by omega)]
  rcases behind_spec hp hends hle with ⟨hnone, hall⟩ | ⟨q, hsome, hoctets, hfilled, hlast, -⟩
  · refine ⟨none, by rw [hnone], ?_, fun q hq => by cases hq⟩
    rw [hall, hp.length, List.drop_length]
    rfl
  · refine ⟨some q, by rw [hsome], hoctets, fun r hr => ?_⟩
    cases hr
    exact ⟨hfilled, hlast⟩

theorem Step.refuse {s rest : List UInt8} {d : Done} (hgoes : d.goes = false)
    (hevents : ∀ t, resume c (s ++ t) = d.events) : Step c s rest d := by
  have hnot : ¬d.goes = true := by rw [hgoes]; decide
  refine ⟨fun t => ?_, fun h => absurd h hnot, fun h => absurd h hnot⟩
  rw [hevents, if_neg hnot, List.append_nil]

theorem Step.go {s rest : List UInt8} {d : Done} (hgoes : d.goes = true) (hfound : d.client.headerFound = false)
    (hchain : ∀ q, d.client.processing = some q → q.Filled ∧ q.Ends) (hfragments : d.client.fragments = c.fragments)
    (hwaits : d.client.waiting.length ≤ rest.length)
    (hevents : ∀ t, resume c (s ++ t) = d.events ++ parse c.fragments (d.client.waiting ++ t)) : Step c s rest d := by
  refine ⟨fun t => ?_, fun _ => ⟨hchain, fun h => ?_⟩, fun _ => hwaits⟩
  · rw [hevents, hgoes, if_pos rfl]
    conv_rhs => unfold resume
    rw [hfound, if_neg (by decide), hfragments]
  · rw [hfound] at h
    cases h

/-- What octets say may be told from another state. --/
theorem Step.of {c' : Client} {s s' rest : List UInt8} {d : Done} (h : Step c' s' rest d)
    (hsame : ∀ t, resume c (s ++ t) = resume c' (s' ++ t)) : Step c s rest d :=
  ⟨fun t => (hsame t).trans (h.events t), h.sound, h.waits⟩

/-- A header was found: the frame is the first one of what is read, and these octets are behind its header. --/
structure Found (c : Client) (s : List UInt8) (h : Header) (rest : List UInt8) : Prop where
  scan : ∀ t, scan (s ++ t) = .frame h.last h.opcode c.key h.length (rest ++ t)
  found : c.headerFound = true
  received : c.dataReceived = 0
  length : c.dataLength = h.length

variable {s rest : List UInt8} {c' : Client}

/-- A control frame that is there as a whole. --/
theorem Found.control (hfound : Found c s h rest) (hcontrol : isControl h.opcode = true) (hroom : h.length ≤ rest.length)
    (f : Fragments) (t : List UInt8) :
    parse f (s ++ t) =
      if h.opcode = opcodeClose then [.closed]
      else (if h.opcode = opcodePing then [.pong (unmask c.key 0 (rest.take h.length))] else []) ++
        parse f (rest.drop h.length ++ t) := by
  rw [parse_frame (hfound.scan t), if_pos hcontrol, if_neg (by rw [List.length_append]; omega),
    List.take_append_of_le_length hroom, List.drop_append_of_le_length hroom]

/-- A data frame that goes on with what the client expects. --/
theorem Found.data (hfound : Found c s h rest) (hcontrol : isControl h.opcode = false) {f : Fragments}
    (hnext : f.next h.last h.opcode = some c.fragments) (t : List UInt8) : parse f (s ++ t) = resume c (rest ++ t) := by
  rw [parse_frame (hfound.scan t), if_neg (by rw [hcontrol]; decide), hnext]
  unfold resume Client.left
  rw [if_pos hfound.found, hfound.received, hfound.length]
  rfl

theorem Found.unknown (hfound : Found c s h rest) (hcontrol : isControl h.opcode = false) {f : Fragments}
    (hnext : f.next h.last h.opcode = none) (t : List UInt8) : parse f (s ++ t) = [.refused] := by
  rw [parse_frame (hfound.scan t), if_neg (by rw [hcontrol]; decide), hnext]

theorem isControl_iff (opcode : UInt8) :
    isControl opcode = true ↔ opcode = opcodePing ∨ opcode = opcodePong ∨ opcode = opcodeClose := by
  simp [isControl, or_assoc]

/-- A control frame is dispatched: its payload goes, what is behind it waits. --/
theorem dispatch_control {start : Client} {p : Option Packets.Packet} {size : Nat}
    (hcontrol : isControl h.opcode = true) (hlength : c.dataLength = h.length)
    (hprocessing : c.processing = p) (hp : ∀ q, p = some q → q.Filled ∧ q.Ends) (hroom : h.length ≤ rest.length)
    (hoctets : p.elim [] Packets.Packet.octets = unmask c.key 0 (rest.take h.length) ++ rest.drop h.length)
    (hstart : start.headerFound = false) (hfragments : c.fragments = start.fragments)
    (hparse : ∀ t, parse start.fragments (s ++ t) =
      if h.opcode = opcodeClose then [.closed]
      else (if h.opcode = opcodePing then [.pong (unmask c.key 0 (rest.take h.length))] else []) ++
        parse start.fragments (rest.drop h.length ++ t)) :
    Step start s rest (dispatch c p size h.opcode) := by
  have hresume : ∀ t, resume start (s ++ t) = parse start.fragments (s ++ t) := by
    intro t
    unfold resume
    rw [hstart, if_neg (by decide)]
  have hexact : (unmask c.key 0 (rest.take h.length)).length = h.length := by
    rw [unmask_length, List.length_take]
    omega
  have hdata : ¬(h.opcode = opcodeContinuation ∨ h.opcode = opcodeText ∨ h.opcode = opcodeBinary) := by
    rcases (isControl_iff _).mp hcontrol with hop | hop | hop
    · rw [hop]
      decide
    · rw [hop]
      decide
    · rw [hop]
      decide
  -- the packet with the payload, and what is left of it
  have hpayload : 0 < c.dataLength → ∃ q r, p = some q ∧
      q.extractOffset 0 c.dataLength = some (unmask c.key 0 (rest.take h.length)) ∧ packetTrim q c.dataLength = .ok r ∧
      (r : Option Packets.Packet).elim [] Packets.Packet.octets = rest.drop h.length ∧ ∀ q, r = some q → q.Filled ∧ q.Ends := by
    intro hpos
    cases p with
    | none =>
      have hlengths := congrArg List.length hoctets
      rw [List.length_append, hexact] at hlengths
      simp only [Option.elim_none, List.length_nil] at hlengths
      omega
    | some q =>
      obtain ⟨hfilled, hends⟩ := hp q rfl
      have hoctets : q.octets = unmask c.key 0 (rest.take h.length) ++ rest.drop h.length := hoctets
      have hlengths := congrArg List.length hoctets
      rw [List.length_append, hexact] at hlengths
      have hwhole := hfilled.length
      obtain ⟨r, htrim, hrest, hchain⟩ := packetTrim_spec hfilled hends (show c.dataLength ≤ q.length by omega)
      refine ⟨q, r, rfl, ?_, htrim, ?_, hchain⟩
      · rw [extract_some hfilled (by omega), List.drop_zero, hoctets, hlength, List.take_left' hexact]
      · rw [hrest, hoctets, hlength, List.drop_left' hexact]
  have hempty : ¬0 < c.dataLength → p.elim [] Packets.Packet.octets = rest.drop h.length ∧ unmask c.key 0 (rest.take h.length) = [] := by
    intro hpos
    have hzero : h.length = 0 := by omega
    rw [hoctets, hzero]
    exact ⟨rfl, rfl⟩
  have hwaits : ∀ r : Option Packets.Packet, r.elim [] Packets.Packet.octets = rest.drop h.length →
      (r.elim [] Packets.Packet.octets).length ≤ rest.length := by
    intro r hr
    rw [hr, List.length_drop]
    omega
  unfold dispatch
  rw [if_neg hdata]
  by_cases hclose : h.opcode = opcodeClose
  · rw [if_pos hclose]
    refine Step.refuse rfl fun t => ?_
    rw [hresume, hparse, if_pos hclose]
    rfl
  rw [if_neg hclose]
  by_cases hping : h.opcode = opcodePing
  · rw [if_pos hping]
    dsimp only
    have hparse : ∀ t, resume start (s ++ t) =
        [.pong (unmask c.key 0 (rest.take h.length))] ++ parse start.fragments (rest.drop h.length ++ t) := by
      intro t
      rw [hresume, hparse, if_neg hclose, if_pos hping]
    by_cases hpos : 0 < c.dataLength
    · obtain ⟨q, r, rfl, hextract, htrim, hrest, hchain⟩ := hpayload hpos
      rw [if_pos hpos, Option.bind_some, hextract, Option.map_some]
      dsimp only
      rw [if_neg (fun hne => hne (hexact.trans hlength.symm)), htrim]
      refine Step.go rfl rfl hchain hfragments (hwaits r hrest) fun t => ?_
      rw [hparse, ← hrest]
      rfl
    · obtain ⟨hrest, hnone⟩ := hempty hpos
      rw [if_neg hpos]
      refine Step.go rfl rfl (fun q hq => hp q (hprocessing.symm.trans hq)) hfragments
        (by rw [← hprocessing] at hrest; exact hwaits _ hrest) fun t => ?_
      rw [hparse, hnone, ← hrest, ← hprocessing]
      rfl
  rw [if_neg hping]
  have hpong : h.opcode = opcodePong := by
    rcases (isControl_iff _).mp hcontrol with hop | hop | hop
    · exact absurd hop hping
    · exact hop
    · exact absurd hop hclose
  rw [if_pos hpong]
  dsimp only
  have hparse : ∀ t, resume start (s ++ t) = parse start.fragments (rest.drop h.length ++ t) := by
    intro t
    rw [hresume, hparse, if_neg hclose, if_neg hping, List.nil_append]
  by_cases hpos : 0 < c.dataLength
  · obtain ⟨q, r, rfl, -, htrim, hrest, hchain⟩ := hpayload hpos
    rw [if_pos hpos]
    dsimp only
    rw [htrim]
    refine Step.go rfl rfl hchain hfragments (hwaits r hrest) fun t => ?_
    rw [hparse, ← hrest]
    rfl
  · obtain ⟨hrest, -⟩ := hempty hpos
    rw [if_neg hpos]
    refine Step.go rfl rfl (fun q hq => hp q (hprocessing.symm.trans hq)) hfragments
        (by rw [← hprocessing] at hrest; exact hwaits _ hrest) fun t => ?_
    rw [hparse, ← hrest, ← hprocessing]
    rfl

/-- The header is trimmed: it is all there is, or something is behind it. --/
theorem packetTrim_cases (hp : p.Filled) (hends : p.Ends) (hle : size ≤ p.length) :
    packetTrim p size = .ok none ∧ size = p.length ∧ p.octets.drop size = [] ∨
      ∃ q, packetTrim p size = .ok (some q) ∧ p.octets.drop size = q.octets ∧ q.Filled ∧ q.Ends ∧ size < p.length := by
  unfold packetTrim
  rw [if_neg (by omega)]
  rcases behind_spec hp hends hle with ⟨hnone, hall⟩ | ⟨q, hsome, hoctets, hfilled, hlast, hlt⟩
  · exact .inl ⟨by rw [hnone], hall, by rw [hall, hp.length, List.drop_length]⟩
  · exact .inr ⟨q, by rw [hsome], hoctets.symm, hfilled, hlast, hlt⟩

/-- What is done behind the header of a control frame. --/
theorem control_step {start : Client} (hp : p.Filled) (hends : p.Ends) (hsize : h.size ≤ p.length)
    (hfound : Found c p.octets h (p.octets.drop h.size)) (hcontrol : isControl h.opcode = true)
    (hroom : h.size + h.length ≤ p.length) (hmasked : c.masked = true → h.length = 0 → h.size = p.length)
    (hstart : start.headerFound = false) (hfragments : c.fragments = start.fragments) :
    Step start p.octets (p.octets.drop h.size) (headerTrim c p h) := by
  have hlength := hp.length
  have hroom' : h.length ≤ (p.octets.drop h.size).length := by
    rw [List.length_drop]
    omega
  have hparse := hfound.control hcontrol hroom' start.fragments
  unfold headerTrim
  rcases packetTrim_cases hp hends hsize with ⟨htrim, hall, hnil⟩ | ⟨q, htrim, hoctets, hfilled, hlast, hlt⟩
  · have hzero : h.length = 0 := by omega
    rw [htrim]
    dsimp only
    rw [if_neg (by rw [hfound.length]; omega)]
    show Step start p.octets _ (dispatch { c with processing := none } none 0 h.opcode)
    refine dispatch_control (c := { c with processing := none }) hcontrol hfound.length rfl (fun q hq => (by cases hq)) hroom'
      ?_ hstart hfragments hparse
    rw [hnil, hzero]
    rfl
  · rw [htrim]
    dsimp only
    have hleft : c.left = h.length := by
      unfold Client.left
      rw [hfound.received, hfound.length]
      rfl
    have hgo : c.dataReceived < c.dataLength ∨ c.masked = false ∧ c.dataReceived ≤ c.dataLength := by
      rw [hfound.received, hfound.length]
      by_cases hpos : 0 < h.length
      · exact .inl hpos
      · refine .inr ⟨Bool.eq_false_iff.mpr fun hmask => ?_, Nat.zero_le _⟩
        have := hmasked hmask (by omega)
        omega
    obtain ⟨hclient, hunmasked, hfilled', hlast', -, -⟩ :=
      payload_spec (c := { c with processing := some q }) hfilled hlast hfound.found hgo
    have hkey : ({ (payload { c with processing := some q } q).1 with
        processing := some (payload { c with processing := some q } q).2.1 } : Client).key = c.key := by
      rw [hclient]
      rfl
    unfold payloadProcess
    dsimp only
    refine dispatch_control hcontrol ?_ rfl (fun r hr => ?_) hroom' ?_ hstart ?_ ?_
    · rw [hclient]
      exact hfound.length
    · cases hr
      exact ⟨hfilled', hlast'⟩
    · rw [hkey, hoctets, ← hleft, ← hfound.received]
      exact hunmasked
    · rw [hclient]
      exact hfragments
    · rw [hkey]
      exact hparse

/-- An opcode that nobody knows is refused where a payload or the end of the frame is there. --/
theorem dispatch_unknown {start : Client} {p : Option Packets.Packet} {size : Nat} (hcontrol : isControl h.opcode = false)
    (hunknown : ¬known h.opcode) (hparse : ∀ t, resume start (s ++ t) = [.refused]) :
    Step start s rest (dispatch c p size h.opcode) := by
  have hnot : ¬(h.opcode = opcodePing ∨ h.opcode = opcodePong ∨ h.opcode = opcodeClose) := fun hop => by
    rw [← isControl_iff, hcontrol] at hop
    cases hop
  have hdata : ¬(h.opcode = opcodeContinuation ∨ h.opcode = opcodeText ∨ h.opcode = opcodeBinary) := hunknown
  unfold dispatch
  rw [if_neg hdata, if_neg (fun hop => hnot (.inr (.inr hop))), if_neg (fun hop => hnot (.inl hop)),
    if_neg (fun hop => hnot (.inr (.inl hop)))]
  exact Step.refuse rfl hparse

/-- What is done behind the header of a data frame. --/
theorem data_frame_step {start : Client} {f : Fragments} (hp : p.Filled) (hends : p.Ends) (hsize : h.size ≤ p.length)
    (hcontrol : isControl h.opcode = false) (hframe : Found c p.octets h (p.octets.drop h.size))
    (hmasked : c.masked = true → h.length = 0 → h.size = p.length)
    (hreserved : ¬known h.opcode → 0 < h.length → h.size < p.length)
    (hresume : ∀ t, resume start (p.octets ++ t) = parse f (p.octets ++ t))
    (hgood : known h.opcode → f.next h.last h.opcode = some c.fragments)
    (hbad : ¬known h.opcode → f.next h.last h.opcode = none) :
    Step start p.octets (p.octets.drop h.size) (headerTrim c p h) := by
  have hlength := hframe.length
  have hreceived := hframe.received
  unfold headerTrim
  by_cases hknown : known h.opcode
  · have hdata : ∀ t, resume start (p.octets ++ t) = resume c (p.octets.drop h.size ++ t) := fun t =>
      (hresume t).trans (hframe.data hcontrol (hgood hknown) t)
    rcases packetTrim_cases hp hends hsize with ⟨htrim, hall, hnil⟩ | ⟨q, htrim, hoctets, hfilled, hlast, hlt⟩
    · rw [htrim]
      dsimp only
      rw [hnil] at hdata
      by_cases hpos : 0 < c.dataLength
      · rw [if_pos hpos]
        refine ⟨hdata, fun _ => ⟨fun q hq => (by cases hq), fun _ => ⟨rfl, ?_⟩⟩, fun _ => Nat.zero_le _⟩
        show c.dataReceived < c.dataLength
        omega
      · rw [if_neg hpos]
        have hdispatch : payloadProcess { c with processing := none } none h.opcode =
            ({ c with processing := none, headerFound := false } : Client).stop .more := if_pos hknown
        rw [hdispatch]
        refine ⟨fun t => ?_, fun _ => ⟨fun q hq => (by cases hq), fun h => (by cases h)⟩, fun _ => Nat.zero_le _⟩
        have hleft : c.left = 0 := by
          unfold Client.left
          omega
        rw [hdata]
        unfold resume
        rw [if_pos hframe.found, hleft]
        rfl
    · rw [htrim]
      dsimp only
      rw [hoctets] at hdata
      have hgo : c.dataReceived < c.dataLength ∨ c.masked = false ∧ c.dataReceived ≤ c.dataLength := by
        by_cases hpos : 0 < c.dataLength
        · exact .inl (by omega)
        · refine .inr ⟨Bool.eq_false_iff.mpr fun hmask => ?_, by omega⟩
          have := hmasked hmask (by omega)
          omega
      have hstep := data_step (c := { c with processing := some q }) hfilled hlast hframe.found hgo
      have hdispatch : payloadProcess { c with processing := some q } (some q) h.opcode =
          deliver { (payload { c with processing := some q } q).1 with
            processing := some (payload { c with processing := some q } q).2.1 }
            (payload { c with processing := some q } q).2.1 (payload { c with processing := some q } q).2.2 :=
        if_pos hknown
      rw [hdispatch, hoctets]
      exact hstep.of hdata
  · have hrefused : ∀ t, resume start (p.octets ++ t) = [.refused] := fun t =>
      (hresume t).trans (hframe.unknown hcontrol (hbad hknown) t)
    rcases packetTrim_cases hp hends hsize with ⟨htrim, hall, -⟩ | ⟨q, htrim, -, -, -, -⟩
    · rw [htrim]
      dsimp only
      by_cases hpos : 0 < c.dataLength
      · have := hreserved hknown (by omega)
        omega
      · rw [if_neg hpos]
        show Step start p.octets _ (dispatch { c with processing := none } none 0 h.opcode)
        exact dispatch_unknown hcontrol hknown hrefused
    · rw [htrim]
      exact dispatch_unknown hcontrol hknown hrefused

/-- A new frame brings about what the stream says. --/
theorem frame_step (hp : p.Filled) (hends : p.Ends) (hfound : c.headerFound = false) (hprocessing : c.processing = some p)
    (hplain : Plain c p) :
    Step c p.octets p.octets (frameProcess c p) ∧
      ((frameProcess c p).goes = true → (∀ f, parse f p.octets = []) ∨
        (frameProcess c p).client.waiting.length < p.octets.length) := by
  have hresume : ∀ t, resume c (p.octets ++ t) = parse c.fragments (p.octets ++ t) := by
    intro t
    unfold resume
    rw [hfound, if_neg (by decide)]
  unfold frameProcess
  rcases parseHeader_spec (c := c) hp hplain.bits with ⟨masked, key, hparse, hnothing⟩ | ⟨c', status, hparse, hstatus, hscan⟩ |
    ⟨masked, key, h, hparse, hsize, hscan, hroom⟩
  · rw [hparse]
    refine ⟨Step.go rfl hfound (fun q hq => ?_) rfl ?_ fun t => ?_, fun _ => .inl hnothing⟩
    · cases hprocessing.symm.trans hq
      exact ⟨hp, hends⟩
    · show (c.processing.elim [] Packets.Packet.octets).length ≤ _
      rw [hprocessing]
      exact Nat.le_refl _
    · rw [hresume]
      unfold Client.waiting
      show _ = parse c.fragments (c.processing.elim [] Packets.Packet.octets ++ t)
      rw [hprocessing]
      rfl
  · rw [hparse]
    dsimp only
    have hgoes : (c'.stop status).goes = false := by
      rcases hstatus with rfl | rfl
      · rfl
      · rfl
    refine ⟨Step.refuse hgoes fun t => ?_, fun h => by rw [hgoes] at h; cases h⟩
    · rw [hresume, parse_refused (hscan t)]
      rcases hstatus with rfl | rfl
      · rfl
      · rfl
  · have hmasked := hplain.masked _ _ hparse
    have hreserved := hplain.reserved _ _ hparse
    rw [hparse]
    dsimp only at hmasked ⊢
    obtain ⟨c', hc'⟩ : ∃ c', c' = ({ c with
        masked := masked, maskingKey := key, headerFound := true, dataReceived := 0, dataLength := h.length } : Client) :=
      ⟨_, rfl⟩
    rw [← hc']
    have hframe : Found c' p.octets h (p.octets.drop h.size) := by
      subst hc'
      exact ⟨hscan, rfl, rfl, rfl⟩
    have hfragments : c'.fragments = c.fragments := by
      subst hc'
      rfl
    have hmasked : c'.masked = true → h.length = 0 → h.size = p.length := by
      subst hc'
      exact hmasked
    clear hc'
    -- the header is not empty
    have hless : (p.octets.drop h.size).length < p.octets.length := by
      have hscan := hframe.scan []
      rw [List.append_nil, List.append_nil] at hscan
      have := scan_length hscan
      omega
    have hdone : ∀ {d : Done}, Step c p.octets (p.octets.drop h.size) d →
        Step c p.octets p.octets d ∧ (d.goes = true → (∀ f, parse f p.octets = []) ∨ d.client.waiting.length < p.octets.length) :=
      fun h => ⟨⟨h.events, h.sound, fun hgoes => Nat.le_trans (h.waits hgoes) (Nat.le_of_lt hless)⟩,
        fun hgoes => .inr (Nat.lt_of_le_of_lt (h.waits hgoes) hless)⟩
    by_cases hcontrol : isControl h.opcode = true
    · have hrules : fragmentRules c' h = some c' := if_pos hcontrol
      rw [hrules]
      exact hdone <| control_step hp hends hsize hframe hcontrol (hroom hcontrol) hmasked hfound hfragments
    · have hcontrol : isControl h.opcode = false := Bool.eq_false_iff.mpr hcontrol
      rcases fragmentRules_next (c := c') hcontrol with ⟨hrules, hnext⟩ | ⟨fragmented, opcode, hrules, hgood, hbad⟩
      · rw [hrules]
        dsimp only
        refine hdone (Step.refuse rfl fun t => ?_)
        rw [hresume, ← hfragments, hframe.unknown hcontrol hnext]
        rfl
      · rw [hrules]
        have hframe' : Found { c' with fragmented := fragmented, opcode := opcode } p.octets h (p.octets.drop h.size) :=
          ⟨hframe.scan, hframe.found, hframe.received, hframe.length⟩
        rw [← hfragments] at hresume
        exact hdone <| data_frame_step hp hends hsize hcontrol hframe' hmasked (hreserved hcontrol) hresume hgood hbad

end frames

/-! ### Runs -/

/-- The client, what was brought about, and whether the connection ended. --/
structure Receiver where
  client : Client
  out : List Event
  ended : Bool
deriving DecidableEq, Repr

/-- A turn of the loop of `_nx_websocket_client_receive`: with a packet that TCP brings, or with the one that waits. --/
def receive (r : Receiver) (packet : Option Packets.Packet) : Receiver :=
  let d := dataProcess r.client packet
  ⟨d.client, r.out ++ d.events, !d.goes⟩

/-- The connection is there, a turn without a packet finds one that waits, a packet is in order, and a new frame uses what the
    client deals with. --/
structure Reads (r : Receiver) (packet : Option Packets.Packet) : Prop where
  connected : r.ended = false
  waits : packet = none → r.client.processing ≠ none
  whole : ∀ p, packet = some p → p.Filled ∧ p.Ends
  plain : r.client.headerFound = false → ∀ p, r.client.joined packet = some p →
    Plain { r.client with processing := some p } p

/-- The octets that arrived. --/
def stream (packets : List (Option Packets.Packet)) : List UInt8 := packets.flatMap fun p => p.elim [] Packets.Packet.octets

/-- What was brought about, and what the octets that wait still say, is what the stream says. --/
structure Told (f : Fragments) (s : List UInt8) (r : Receiver) : Prop where
  story : ∀ t, parse f (s ++ t) = r.out ++ if r.ended = true then [] else resume r.client (r.client.waiting ++ t)
  sound : r.ended = false → Sound r.client

section runs

variable {f : Fragments} {s : List UInt8} {r : Receiver} {c : Client} {packet : Option Packets.Packet}
  {packets : List (Option Packets.Packet)}

/-- What is processed is what waited, with what arrived behind it. --/
theorem joined_spec (h : Sound c) (hwaits : packet = none → c.processing ≠ none)
    (hwhole : ∀ p, packet = some p → p.Filled ∧ p.Ends) :
    ∃ p, c.joined packet = some p ∧ p.octets = c.waiting ++ packet.elim [] Packets.Packet.octets ∧ p.Filled ∧ p.Ends := by
  unfold Client.joined Client.waiting
  cases packet with
  | none =>
    cases hprocessing : c.processing with
    | none => exact absurd hprocessing (hwaits rfl)
    | some q =>
      obtain ⟨hfilled, hends⟩ := h.chain q hprocessing
      exact ⟨q, rfl, (List.append_nil _).symm, hfilled, hends⟩
  | some p =>
    obtain ⟨hp, hends⟩ := hwhole p rfl
    cases hprocessing : c.processing with
    | none => exact ⟨p, rfl, rfl, hp, hends⟩
    | some q =>
      obtain ⟨hq, hlast⟩ := h.chain q hprocessing
      exact ⟨q.link p, rfl, hlast.link_octets p, hlast.link_filled hq hp, hlast.link_ends hends⟩

/-- What the client does with a packet is what its octets say. --/
theorem dataProcess_step {p : Packets.Packet} (h : Sound c) (hjoined : c.joined packet = some p) (hp : p.Filled)
    (hends : p.Ends) (hplain : c.headerFound = false → Plain { c with processing := some p } p) :
    Step c p.octets p.octets (dataProcess c packet) ∧
      (c.headerFound = false → (dataProcess c packet).goes = true →
        (∀ f, parse f p.octets = []) ∨ (dataProcess c packet).client.waiting.length < p.octets.length) := by
  unfold dataProcess
  rw [hjoined]
  dsimp only
  by_cases hfound : c.headerFound = false
  · rw [if_pos hfound]
    obtain ⟨hstep, hprogress⟩ := frame_step (c := { c with processing := some p }) hp hends hfound rfl (hplain hfound)
    exact ⟨hstep.of fun _ => rfl, fun _ => hprogress⟩
  · rw [if_neg hfound]
    have htrue : c.headerFound = true := Bool.of_not_eq_false hfound
    have hstep := data_step (c := { c with processing := some p }) hp hends htrue (.inl (h.found htrue).2)
    exact ⟨hstep.of fun _ => rfl, fun h => absurd h hfound⟩

theorem Told.receive (h : Told f s r) (hreads : Reads r packet) :
    Told f (s ++ packet.elim [] Packets.Packet.octets) (receive r packet) := by
  have hsound := h.sound hreads.connected
  obtain ⟨p, hjoined, hoctets, hp, hends⟩ := joined_spec hsound hreads.waits hreads.whole
  obtain ⟨hstep, -⟩ := dataProcess_step hsound hjoined hp hends fun hfound => hreads.plain hfound p hjoined
  refine ⟨fun t => ?_, fun hgoes => hstep.sound ?_⟩
  · rw [List.append_assoc, h.story, hreads.connected, if_neg (by decide), ← List.append_assoc, ← hoctets, hstep.events]
    unfold WebSocket.receive
    dsimp only
    rw [List.append_assoc]
    by_cases hgoes : (dataProcess r.client packet).goes = true
    · simp [hgoes]
    · simp [hgoes]
  · have hgoes : (!(dataProcess r.client packet).goes) = false := hgoes
    rwa [Bool.not_eq_false'] at hgoes

/-- However a stream of frames is cut, the octets of messages, the PONGs and the end of the connection are those that the
    frames say; what is not brought about yet is what the octets say that wait, and a turn that leaves them as they are leaves
    nothing to bring about. --/
theorem frames_delivered (hrun : Run receive Reads ⟨c.cleanup, [], false⟩ packets r) :
    parse c.cleanup.fragments (stream packets) = r.out ++ (if r.ended = true then [] else resume r.client r.client.waiting) ∧
      (r.ended = false → r.client.processing = none → parse c.cleanup.fragments (stream packets) = r.out) ∧
      (Reads r none → (dataProcess r.client none).goes = true →
        (dataProcess r.client none).client.waiting = r.client.waiting →
        parse c.cleanup.fragments (stream packets) = r.out) := by
  have htold : Told c.cleanup.fragments (stream packets) r := by
    refine hrun.invariant (P := fun packets r => Told c.cleanup.fragments (stream packets) r) ?_ ?_
    · exact ⟨fun t => rfl, fun _ => ⟨fun q hq => (by cases hq), fun h => (by cases h)⟩⟩
    · intro packets r packet h hreads
      have hstream : stream (packets ++ [packet]) = stream packets ++ packet.elim [] Packets.Packet.octets := by
        unfold stream
        rw [List.flatMap_append, List.flatMap_singleton]
      rw [hstream]
      exact h.receive hreads
  have hstory := htold.story []
  rw [List.append_nil, List.append_nil] at hstory
  refine ⟨hstory, fun hconnected hnone => ?_, fun hreads hgoes hsame => ?_⟩
  · have hnothing : resume r.client [] = [] := by
      unfold resume
      split
      · rw [List.take_nil, List.drop_nil]
        rfl
      · rfl
    have hwaiting : r.client.waiting = [] := by
      unfold Client.waiting
      rw [hnone]
      rfl
    rw [hstory, hconnected, hwaiting, if_neg (by decide), hnothing, List.append_nil]
  · have hsound := htold.sound hreads.connected
    obtain ⟨p, hjoined, hoctets, hp, hends⟩ := joined_spec hsound hreads.waits hreads.whole
    have hfound : r.client.headerFound = false :=
      Bool.eq_false_iff.mpr fun hfound => hreads.waits rfl (hsound.found hfound).1
    obtain ⟨-, hprogress⟩ := dataProcess_step hsound hjoined hp hends fun hfound => hreads.plain hfound p hjoined
    have hoctets : p.octets = r.client.waiting := hoctets.trans (List.append_nil _)
    rcases hprogress hfound hgoes with hnothing | hless
    · have hresume : resume r.client r.client.waiting = [] := by
        unfold resume
        rw [if_neg (by rw [hfound]; decide), ← hoctets]
        exact hnothing _
      rw [hstory, hreads.connected, if_neg (by decide), hresume, List.append_nil]
    · rw [hsame, hoctets] at hless
      exact absurd hless (Nat.lt_irrefl _)

end runs

/-- A client whose upgrade was accepted. --/
def upgraded : Client := ⟨.connected, none, false, false, 0, false, [], 0, 0⟩

theorem frames_delivered_text :
    let r := receive (receive ⟨upgraded.cleanup, [], false⟩ (some (.ofOctets [0x81, 2, 0x61]))) (some (.ofOctets [0x62]))
    parse upgraded.cleanup.fragments (stream [some (.ofOctets [0x81, 2, 0x61]), some (.ofOctets [0x62])]) = r.out ∧
      r.out = [.data 1 0x61, .data 1 0x62] := by
  have hfirst : Reads ⟨upgraded.cleanup, [], false⟩ (some (.ofOctets [0x81, 2, 0x61])) := by
    refine ⟨rfl, fun h => (by cases h), ?_, ?_⟩
    · rintro p ⟨⟩
      exact ⟨ofOctets_filled (by decide), rfl⟩
    · rintro - p ⟨⟩
      refine ⟨?_, ?_, ?_⟩
      · rintro first second rest ⟨⟩
        decide
      · rintro c h ⟨⟩ hmasked
        cases hmasked
      · rintro c h ⟨⟩ - -
        decide
  have hsecond : Reads (receive ⟨upgraded.cleanup, [], false⟩ (some (.ofOctets [0x81, 2, 0x61])))
      (some (.ofOctets [0x62])) := by
    refine ⟨rfl, fun h => (by cases h), ?_, fun h => (by cases h)⟩
    rintro p ⟨⟩
    exact ⟨ofOctets_filled (by decide), rfl⟩
  exact ⟨(frames_delivered (.next (.next .start hfirst) hsecond)).2.1 rfl rfl, by decide +kernel⟩

/-- A frame with a length of 64 bits is refused. --/
theorem long_refused :
    parse upgraded.cleanup.fragments [0x82, 127, 0, 0, 0, 0, 0, 0, 0, 1, 0x61] = [.data 2 0x61] ∧
      (receive ⟨upgraded.cleanup, [], false⟩ (some (.ofOctets [0x82, 127, 0, 0, 0, 0, 0, 0, 0, 1, 0x61]))).out = [.refused] := by
  decide +kernel

end Netxduo.WebSocket
