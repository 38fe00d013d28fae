import Mathlib.Data.List.Pairwise
import Netxduo.Library.Runs
import Netxduo.Translation.Process

/-! What the dynamic entries of the translation table stand for: each session has an external port of its own at its
    peer, and keeps it until it times out. -/

namespace Netxduo.Translation
open Runs MoveToFront

/-! ### Sessions -/

/-- What a packet from outside is known by: the protocol, the address and port of the peer, and the external port. --/
structure Outer where
  protocol : Nat
  peerIp : Nat
  peerPort : Nat
  externalPort : Nat
deriving DecidableEq, Repr

/-- A host of the private side, with a port or an ICMP identifier. --/
structure Endpoint where
  ip : Nat
  port : Nat
deriving DecidableEq, Repr

def Entry.outer (e : Entry) : Outer := ⟨e.protocol, e.peerIpAddress, e.peerPort, e.externalPort⟩

def Entry.inner (e : Entry) : Endpoint := ⟨e.localIpAddress, e.localPort⟩

def Entry.dynamic (e : Entry) : Prop := e.translationType = .dynamicEntry

/-- The entry, last used at the time `t`. --/
def Entry.at (e : Entry) (t : ULONG) : Entry := { e with responseTimestamp := t }

/-- What a packet that arrives is known by. --/
def Packet.inbound (p : Packet) : Outer := ⟨p.protocol, p.sourceIp, inboundPeerPort p, getDestinationPort p⟩

/-- The endpoint a packet of the private side is from. --/
def Packet.local (p : Packet) : Endpoint := ⟨p.sourceIp, getSourcePort p⟩

/-- What the answers to a packet of the private side are known by, if it leaves from `port`. --/
def Packet.outbound (p : Packet) (port : Nat) : Outer := ⟨p.protocol, p.destinationIp, outboundPeerPort p, port⟩

/-- A dynamic entry of the table, last used less than its timeout ago on the tick counter. --/
structure Live (nat : NatDevice) (e : Entry) : Prop where
  mem : e ∈ nat.dynamicActive
  dynamic : e.dynamic
  fresh : e.timedOut nat.timeGet = false

/-- The static entry lets the packet in. --/
def Entry.serves (e : Entry) (p : Packet) : Prop :=
  e.translationType = .staticEntry ∧ e.protocol = p.protocol ∧
    (e.externalPort = 0 ∨ e.externalPort = getDestinationPort p)

instance (e : Entry) (p : Packet) : Decidable (e.serves p) := inferInstanceAs (Decidable (_ ∧ _ ∧ _))

/-- The ports, or the identifier, are there and not zero. --/
def Packet.specified (p : Packet) : Prop :=
  match p.transport with
  | .tcp source destination => source ≠ 0 ∧ destination ≠ 0
  | .udp source destination => source ≠ 0 ∧ destination ≠ 0
  | .icmp type identifier => icmpErrorType type = false ∧ identifier ≠ 0

/-- No packet with a zero in the place of a port opens a session. --/
def Specified (nat : NatDevice) : Action → Prop
  | .packet true p =>
    p.destinationIp = nat.ip.interfaceIpAddress → p.specified ∨ ∀ e ∈ nat.dynamicActive, ¬ e.serves p
  | .packet false p =>
    forwardable nat.ip p.destinationIp = true → p.specified ∨ packetIsIcmpErrorMessage p = true
  | _ => True

/-! ### The invariant -/

/-- The fields of an entry for a session. --/
structure Entry.Sound (e : Entry) : Prop where
  peerIp : e.peerIpAddress ≠ 0
  localIp : e.localIpAddress ≠ 0
  externalPort : e.externalPort ≠ 0
  localPort : e.localPort ≠ 0
  peerPort : if e.protocol = protocolIcmp then e.peerPort = 0 else e.peerPort ≠ 0
  timeout : e.responseTimeout = sessionTimeout e.protocol

/-- Two entries for sessions that a packet from outside could not tell apart. --/
def Clash (a b : Entry) : Prop := a.dynamic ∧ b.dynamic ∧ a.outer = b.outer

structure Inv (nat : NatDevice) : Prop where
  sound : ∀ e ∈ nat.dynamicActive, e.dynamic → e.Sound
  distinct : nat.dynamicActive.Pairwise fun a b => ¬ Clash a b

theorem Clash.symm {a b : Entry} (h : Clash a b) : Clash b a := ⟨h.2.1, h.1, h.2.2.symm⟩

theorem Entry.Sound.at {e : Entry} (h : e.Sound) (t : ULONG) : (e.at t).Sound :=
  ⟨h.peerIp, h.localIp, h.externalPort, h.localPort, h.peerPort, h.timeout⟩

/-- Fewer entries, or entries of the application, do no harm. --/
theorem Inv.sublist {nat nat' : NatDevice} (h : Inv nat) (hsub : nat'.dynamicActive.Sublist nat.dynamicActive) :
    Inv nat' :=
  ⟨fun e he => h.sound e (hsub.subset he), h.distinct.sublist hsub⟩

theorem Inv.cons {nat nat' : NatDevice} {e : Entry} (h : Inv nat)
    (hactive : nat'.dynamicActive = e :: nat.dynamicActive) (hsound : e.dynamic → e.Sound)
    (hnew : ∀ x ∈ nat.dynamicActive, ¬ Clash e x) : Inv nat' := by
  refine ⟨fun x hx hdynamic => ?_, ?_⟩
  · rw [hactive] at hx
    rcases List.mem_cons.mp hx with rfl | hx
    · exact hsound hdynamic
    · exact h.sound x hx hdynamic
  · rw [hactive]
    exact List.pairwise_cons.mpr ⟨hnew, h.distinct⟩

/-- A packet from outside is known by one entry at most. --/
theorem Inv.unique {nat : NatDevice} {a b : Entry} (h : Inv nat) (ha : a ∈ nat.dynamicActive)
    (hb : b ∈ nat.dynamicActive) (hclash : Clash a b) : a = b := by
  have : Std.Symm fun a b => ¬ Clash a b := ⟨fun _ _ hn hc => hn hc.symm⟩
  by_contra hne
  exact h.distinct.forall ha hb hne hclash

/-! ### One entry over a step -/

/-- The entry is in the table, and was last used at most `age` ticks ago. --/
def Holds (nat : NatDevice) (e : Entry) (age : Nat) : Prop :=
  ∃ t, e.at t ∈ nat.dynamicActive ∧ (nat.timeGet - t).toNat ≤ age

/-- What every packet does to the device: no time passes, the host stays as it is, and so does each session that did
    not time out. --/
structure Keeps (nat nat' : NatDevice) : Prop where
  timeGet : nat'.timeGet = nat.timeGet
  ip : nat'.ip = nat.ip
  holds : ∀ e age, e.dynamic → age < e.responseTimeout.toNat → Holds nat e age → Holds nat' e age

theorem Keeps.rfl {nat : NatDevice} : Keeps nat nat := ⟨Eq.refl _, Eq.refl _, fun _ _ _ _ h => h⟩

theorem Keeps.trans {nat nat' nat'' : NatDevice} (h : Keeps nat nat') (h' : Keeps nat' nat'') : Keeps nat nat'' :=
  ⟨h'.timeGet.trans h.timeGet, h'.ip.trans h.ip,
    fun e age hdynamic hage he => h'.holds e age hdynamic hage (h.holds e age hdynamic hage he)⟩

theorem Entry.timedOut_eq_false {e : Entry} {now : ULONG} (hdynamic : e.dynamic) :
    e.timedOut now = false ↔ (now - e.responseTimestamp).toNat < e.responseTimeout.toNat := by
  have htype : (e.translationType == TranslationType.dynamicEntry) = true := beq_iff_eq.mpr hdynamic
  rw [Entry.timedOut, htype, Bool.true_and, decide_eq_false_iff_not, BitVec.not_le, BitVec.lt_def]

theorem Live.holds {nat : NatDevice} {e : Entry} (h : Live nat e) :
    Holds nat e (nat.timeGet - e.responseTimestamp).toNat := ⟨e.responseTimestamp, h.mem, le_refl _⟩

/-- An entry that is held for less than its timeout is live. --/
theorem Holds.live {nat : NatDevice} {e : Entry} {age : Nat} (h : Holds nat e age) (hdynamic : e.dynamic)
    (hage : age < e.responseTimeout.toNat) : ∃ t, Live nat (e.at t) := by
  obtain ⟨t, ht, hle⟩ := h
  exact ⟨t, ht, hdynamic, (Entry.timedOut_eq_false (e := e.at t) hdynamic).mpr (lt_of_le_of_lt hle hage)⟩

theorem entryTimeoutCheck_keeps (nat : NatDevice) : Keeps nat (entryTimeoutCheck nat) := by
  refine ⟨rfl, rfl, fun e age hdynamic hage h => ?_⟩
  obtain ⟨t, ht, hle⟩ := h
  refine ⟨t, List.mem_filter.mpr ⟨ht, ?_⟩, hle⟩
  have hfresh : (e.at t).timedOut nat.timeGet = false :=
    (Entry.timedOut_eq_false (e := e.at t) hdynamic).mpr (lt_of_le_of_lt hle hage)
  rw [hfresh]
  rfl

theorem entryTimeoutCheck_inv {nat : NatDevice} (h : Inv nat) : Inv (entryTimeoutCheck nat) :=
  h.sublist List.filter_sublist

/-- After the check every dynamic entry is live. --/
theorem entryTimeoutCheck_live {nat : NatDevice} {e : Entry} (he : e ∈ (entryTimeoutCheck nat).dynamicActive)
    (hdynamic : e.dynamic) : Live nat e := by
  obtain ⟨hmem, hfresh⟩ := List.mem_filter.mp he
  exact ⟨hmem, hdynamic, by simpa using hfresh⟩

section find
variable {nat nat' : NatDevice} {want record : Entry} {direction : Direction} {skip : Bool}

theorem entryFind_some (h : entryFind nat want direction skip = some (record, nat')) :
    ∃ active, toFront (entryMatches want direction skip) (fun e => e.at nat.timeGet) nat.dynamicActive =
      some (record, active) ∧ nat' = { nat with dynamicActive := active } := by
  unfold entryFind at h
  split at h
  · cases h
  · obtain ⟨⟨r, active⟩, hfront, hpair⟩ := Option.map_eq_some_iff.mp h
    obtain ⟨rfl, rfl⟩ := Prod.mk.inj hpair
    exact ⟨active, hfront, rfl⟩

theorem entryFind_keeps (h : entryFind nat want direction skip = some (record, nat')) : Keeps nat nat' := by
  obtain ⟨active, hfront, rfl⟩ := entryFind_some h
  refine ⟨rfl, rfl, fun e age _ _ he => ?_⟩
  obtain ⟨t, ht, hle⟩ := he
  rcases toFront_kept hfront ht with hkept | hused
  · exact ⟨t, hkept, hle⟩
  · exact ⟨nat.timeGet, hused, by simp⟩

theorem entryFind_inv (hinv : Inv nat) (h : entryFind nat want direction skip = some (record, nat')) : Inv nat' := by
  obtain ⟨active, hfront, rfl⟩ := entryFind_some h
  exact ⟨toFront_forall hfront hinv.sound fun x hx hdynamic => (hx hdynamic).at _,
    toFront_pairwise hfront hinv.distinct (fun _ _ hn hc => hn hc.symm) fun _ _ hn => hn⟩

/-- What is found is an entry of the table that matches, used now. --/
theorem entryFind_found (h : entryFind nat want direction skip = some (record, nat')) :
    ∃ e ∈ nat.dynamicActive, entryMatches want direction skip e = true ∧ record = e.at nat.timeGet ∧
      record ∈ nat'.dynamicActive := by
  obtain ⟨active, hfront, rfl⟩ := entryFind_some h
  obtain ⟨e, before, after, hlist, -, hmatch, rfl, rfl⟩ := toFront_some hfront
  exact ⟨e, by simp [hlist], hmatch, rfl, by simp⟩

theorem entryFind_none (h : entryFind nat want direction skip = none) (hsearch : searchable want direction = true)
    {e : Entry} (he : e ∈ nat.dynamicActive) : entryMatches want direction skip e = false := by
  rw [entryFind, if_neg (by simp [hsearch]), Option.map_eq_none_iff] at h
  exact toFront_none h he

end find

/-! ### Matching -/

@[simp] theorem dynamic_beq_static : (TranslationType.dynamicEntry == TranslationType.staticEntry) = false := rfl

/-- A session's entry is found for the packets that are known by its outer side, and for them only. --/
theorem Entry.Sound.matches_inbound {e : Entry} {p : Packet} (h : e.Sound) (skip : Bool) (hdynamic : e.dynamic) :
    entryMatches (inboundEntry p) .inboundPacket skip e = true ↔ e.outer = p.inbound := by
  have htype : (e.translationType == TranslationType.staticEntry) = false := by
    rw [show e.translationType = .dynamicEntry from hdynamic]
    rfl
  have hport : e.protocol = p.protocol → (e.peerPort = 0 ∨ e.peerPort = inboundPeerPort p ↔
      e.peerPort = inboundPeerPort p) := by
    intro hprotocol
    have hpeer := h.peerPort
    rw [hprotocol] at hpeer
    unfold Packet.protocol at hpeer
    unfold inboundPeerPort
    split at hpeer <;> simp_all [protocolTcp, protocolUdp, protocolIcmp]
  simp only [entryMatches, htype, Bool.false_and, Bool.not_false, Bool.true_and, Bool.and_eq_true, Bool.or_eq_true,
    beq_iff_eq, inboundEntry, Entry.outer, Packet.inbound, Outer.mk.injEq, h.peerIp, h.externalPort, false_or]
  constructor
  · rintro ⟨⟨⟨hprotocol, hip⟩, hpeer⟩, hext⟩
    exact ⟨hprotocol, hip, (hport hprotocol).mp hpeer, hext⟩
  · rintro ⟨hprotocol, hip, hpeer, hext⟩
    exact ⟨⟨⟨hprotocol, hip⟩, .inr hpeer⟩, hext⟩

/-- An entry that is found for a packet from inside is of its endpoint and its peer. --/
theorem Entry.Sound.matches_outbound {e : Entry} {p : Packet} (h : e.Sound)
    (hmatch : entryMatches (outboundEntry p) .outboundPacket true e = true) :
    e.inner = p.local ∧ e.outer = p.outbound e.externalPort := by
  simp only [entryMatches, Bool.and_eq_true, Bool.or_eq_true, beq_iff_eq, outboundEntry, h.peerIp, h.localIp,
    h.localPort, false_or] at hmatch
  obtain ⟨⟨⟨⟨-, hprotocol⟩, hip⟩, hpeer⟩, hlocal, hport⟩ := hmatch
  refine ⟨by rw [Entry.inner, Packet.local, hlocal, hport], ?_⟩
  have hpeer' : e.peerPort = outboundPeerPort p := by
    have hsound := h.peerPort
    rw [hprotocol] at hsound
    unfold Packet.protocol at hsound
    unfold outboundPeerPort at hpeer ⊢
    split at hsound <;> simp_all [protocolTcp, protocolUdp, protocolIcmp]
  rw [Entry.outer, Packet.outbound, hprotocol, hip, hpeer']

theorem matches_dynamic {e want : Entry} {direction : Direction} (h : entryMatches want direction true e = true) :
    e.dynamic := by
  unfold Entry.dynamic
  cases htype : e.translationType with
  | dynamicEntry => rfl
  | staticEntry => simp [entryMatches, htype] at h

theorem matches_serves {e : Entry} {p : Packet} (hstatic : e.translationType = .staticEntry)
    (h : entryMatches (inboundEntry p) .inboundPacket false e = true) : e.serves p := by
  simp only [entryMatches, Bool.and_eq_true, Bool.or_eq_true, beq_iff_eq, inboundEntry] at h
  exact ⟨hstatic, h.1.1.1.2, h.2⟩

/-- What a search with static entries finds, after one without them found nothing, is static. --/
theorem static_of_none {nat : NatDevice} {e want : Entry} {direction : Direction} (he : e ∈ nat.dynamicActive)
    (hnone : entryFind nat want direction true = none) (hsearch : searchable want direction = true)
    (hmatch : entryMatches want direction false e = true) : e.translationType = .staticEntry := by
  cases htype : e.translationType with
  | staticEntry => rfl
  | dynamicEntry =>
    have hno := entryFind_none hnone hsearch he
    have hsame : entryMatches want direction true e = entryMatches want direction false e := by
      simp [entryMatches, htype]
    rw [hsame, hmatch] at hno
    cases hno

theorem entryFind_searchable {nat nat' : NatDevice} {want record : Entry} {direction : Direction} {skip : Bool}
    (h : entryFind nat want direction skip = some (record, nat')) : searchable want direction = true := by
  unfold entryFind at h
  split at h
  · cases h
  · rename_i hsearch
    exact Bool.not_eq_false _ ▸ hsearch

/-! ### New entries -/

section create
variable {nat nat' : NatDevice} {want record : Entry} {timeout : ULONG}

theorem entryCreate_ok (h : entryCreate nat want timeout = .ok (record, nat')) :
    want.peerIpAddress ≠ 0 ∧ want.localIpAddress ≠ 0 ∧
      (∃ address, record = { want with
        address := address
        responseTimeout := timeout
        responseTimestamp := nat.timeGet
        translationType := .dynamicEntry }) ∧
      nat'.dynamicActive = record :: nat.dynamicActive ∧ nat'.timeGet = nat.timeGet ∧ nat'.ip = nat.ip := by
  unfold entryCreate at h
  split at h
  · cases h
  · rename_i hzero
    obtain ⟨hpeer, hlocal⟩ := not_or.mp hzero
    split at h
    · cases h
    · rename_i address available _
      obtain ⟨rfl, rfl⟩ := Prod.mk.inj (Except.ok.inj h)
      exact ⟨hpeer, hlocal, ⟨address, rfl⟩, rfl, rfl, rfl⟩

theorem entryCreate_keeps (h : entryCreate nat want timeout = .ok (record, nat')) : Keeps nat nat' := by
  obtain ⟨-, -, -, hactive, htime, hip⟩ := entryCreate_ok h
  refine ⟨htime, hip, fun e age _ _ he => ?_⟩
  obtain ⟨t, ht, hle⟩ := he
  exact ⟨t, by rw [hactive]; exact List.mem_cons_of_mem _ ht, by rw [htime]; exact hle⟩

/-- A port of the range is not zero, and no entry of the protocol has it. --/
theorem findAvailablePort_ok {protocol port : Nat} (h : findAvailablePort nat protocol = .ok port) :
    port ≠ 0 ∧ ∀ e ∈ nat.dynamicActive, e.protocol = protocol → e.externalPort ≠ port := by
  unfold findAvailablePort at h
  split at h
  · rename_i found hfind
    obtain rfl := Except.ok.inj h
    have hrange := List.mem_range'_1.mp (List.mem_of_find?_eq_some hfind)
    have hstart : 0 < startPort protocol := by
      unfold startPort
      split
      · decide
      · split <;> decide
    have hfree := List.find?_some hfind
    refine ⟨by omega, fun e he hprotocol hport => ?_⟩
    simp only [portBound, entryPortVerify, Bool.not_eq_eq_eq_not, Bool.not_true, Bool.or_eq_false_iff] at hfree
    have hnone := List.any_eq_false.mp hfree.1 e he
    simp [hprotocol, hport] at hnone
  · cases h

end create

/-! ### The entry of a packet -/

section records
variable {nat nat' : NatDevice} {want : Entry} {p : Packet} {result : Except NatStatus Entry}

/-- The entry an inbound packet gets from a static one. --/
def serverEntry (want server : Entry) : Entry :=
  { want with
    localIpAddress := server.localIpAddress
    localPort := if server.localPort = 0 then want.externalPort else server.localPort }

/-- What `inboundRecord` does: a dynamic entry is found, or a static one is, which may get the packet an entry, or
    none is. --/
theorem inboundRecord_cases (h : inboundRecord nat want = (result, nat')) :
    (∃ record, entryFind nat want .inboundPacket true = some (record, nat') ∧ result = .ok record) ∨
    (entryFind nat want .inboundPacket true = none ∧
      ((entryFind nat want .inboundPacket false = none ∧ result = .error .entryNotFound ∧ nat' = nat) ∨
      ∃ server mid, entryFind nat want .inboundPacket false = some (server, mid) ∧
        ((∃ status, entryCreate mid (serverEntry want server) (sessionTimeout want.protocol) = .error status ∧
          result = .error status ∧ nat' = mid) ∨
        ∃ record, entryCreate mid (serverEntry want server) (sessionTimeout want.protocol) = .ok (record, nat') ∧
          result = .ok record))) := by
  unfold inboundRecord at h
  split at h
  · rename_i record found hfind
    obtain ⟨rfl, rfl⟩ := Prod.mk.inj h
    exact .inl ⟨record, hfind, rfl⟩
  · rename_i hnone
    refine .inr ⟨hnone, ?_⟩
    unfold serverEntryCreate at h
    split at h
    · rename_i hnone'
      obtain ⟨rfl, rfl⟩ := Prod.mk.inj h
      exact .inl ⟨hnone', rfl, rfl⟩
    · rename_i server mid hfind
      refine .inr ⟨server, mid, hfind, ?_⟩
      split at h
      · rename_i status hcreate
        obtain ⟨rfl, rfl⟩ := Prod.mk.inj h
        exact .inl ⟨status, hcreate, rfl, rfl⟩
      · rename_i record last hcreate
        obtain ⟨rfl, rfl⟩ := Prod.mk.inj h
        exact .inr ⟨record, hcreate, rfl⟩

/-- What `outboundRecord` does: an entry is found, or made for a free port, or neither. --/
theorem outboundRecord_cases (h : outboundRecord nat want = (result, nat')) :
    (∃ record, entryFind nat want .outboundPacket true = some (record, nat') ∧ result = .ok record) ∨
    (nat' = nat ∧ ∃ status, result = .error status) ∨
    ∃ port record, findAvailablePort nat want.protocol = .ok port ∧
      entryCreate nat { want with externalPort := port } (sessionTimeout want.protocol) = .ok (record, nat') ∧
      result = .ok record := by
  unfold outboundRecord at h
  split at h
  · rename_i record found hfind
    obtain ⟨rfl, rfl⟩ := Prod.mk.inj h
    exact .inl ⟨record, hfind, rfl⟩
  · unfold sessionEntryCreate at h
    split at h
    · rename_i status _
      obtain ⟨rfl, rfl⟩ := Prod.mk.inj h
      exact .inr (.inl ⟨rfl, status, rfl⟩)
    · rename_i port hport
      split at h
      · rename_i status _
        obtain ⟨rfl, rfl⟩ := Prod.mk.inj h
        exact .inr (.inl ⟨rfl, status, rfl⟩)
      · rename_i record last hcreate
        obtain ⟨rfl, rfl⟩ := Prod.mk.inj h
        exact .inr (.inr ⟨port, record, hport, hcreate, rfl⟩)

theorem inboundRecord_keeps (h : inboundRecord nat want = (result, nat')) : Keeps nat nat' := by
  obtain ⟨_, hfind, -⟩ | ⟨-, ⟨-, -, rfl⟩ | ⟨_, mid, hfind, ⟨_, -, -, rfl⟩ | ⟨_, hcreate, -⟩⟩⟩ := inboundRecord_cases h
  · exact entryFind_keeps hfind
  · exact Keeps.rfl
  · exact entryFind_keeps hfind
  · exact (entryFind_keeps hfind).trans (entryCreate_keeps hcreate)

theorem outboundRecord_keeps (h : outboundRecord nat want = (result, nat')) : Keeps nat nat' := by
  obtain ⟨_, hfind, -⟩ | ⟨rfl, -⟩ | ⟨_, _, -, hcreate, -⟩ := outboundRecord_cases h
  · exact entryFind_keeps hfind
  · exact Keeps.rfl
  · exact entryCreate_keeps hcreate

theorem Packet.specified_port (h : p.specified) : getDestinationPort p ≠ 0 ∧ getSourcePort p ≠ 0 := by
  obtain ⟨_, _, ⟨_, _⟩ | ⟨_, _⟩ | ⟨type, identifier⟩⟩ := p
  · exact ⟨h.2, h.1⟩
  · exact ⟨h.2, h.1⟩
  · show (if icmpErrorType type then 0 else identifier) ≠ 0 ∧ (if icmpErrorType type then 0 else identifier) ≠ 0
    rw [h.1]
    exact ⟨h.2, h.2⟩

theorem Packet.specified_peerPort (h : p.specified) :
    (if p.protocol = protocolIcmp then inboundPeerPort p = 0 else inboundPeerPort p ≠ 0) ∧
    (if p.protocol = protocolIcmp then outboundPeerPort p = 0 else outboundPeerPort p ≠ 0) := by
  unfold Packet.specified at h
  unfold Packet.protocol inboundPeerPort outboundPeerPort getDestinationPort getSourcePort
  split at h <;> simp_all [protocolTcp, protocolUdp, protocolIcmp]

/-- A packet that a static entry lets in, while no session is known by its outer side, opens a session of its own. --/
theorem inboundRecord_inv (hinv : Inv nat) (hspec : p.specified ∨ ∀ e ∈ nat.dynamicActive, ¬ e.serves p)
    (h : inboundRecord nat (inboundEntry p) = (result, nat')) : Inv nat' := by
  obtain ⟨_, hfind, -⟩ | ⟨hnone, ⟨-, -, rfl⟩ | ⟨server, mid, hfind, ⟨_, -, -, rfl⟩ | ⟨record, hcreate, -⟩⟩⟩ :=
    inboundRecord_cases h
  · exact entryFind_inv hinv hfind
  · exact hinv
  · exact entryFind_inv hinv hfind
  · have hsearch := entryFind_searchable hfind
    obtain ⟨e, he, hmatch, rfl, -⟩ := entryFind_found hfind
    have hserves := matches_serves (static_of_none he hnone hsearch hmatch) hmatch
    have hp : p.specified := hspec.resolve_right fun hno => hno e he hserves
    obtain ⟨hpeer, hlocal, ⟨address, rfl⟩, hactive, -, -⟩ := entryCreate_ok hcreate
    refine (entryFind_inv hinv hfind).cons hactive (fun _ => ⟨hpeer, hlocal, (p.specified_port hp).1, ?_,
      (p.specified_peerPort hp).1, rfl⟩) ?_
    · show (if e.localPort = 0 then getDestinationPort p else e.localPort) ≠ 0
      split
      · exact (p.specified_port hp).1
      · assumption
    · obtain ⟨active, hfront, rfl⟩ := entryFind_some hfind
      have hfree : ∀ x ∈ nat.dynamicActive, x.dynamic → x.outer ≠ p.inbound := by
        intro x hx hdynamic houter
        have hno := entryFind_none hnone hsearch hx
        rw [((hinv.sound x hx hdynamic).matches_inbound true hdynamic).mpr houter] at hno
        cases hno
      intro x hx hclash
      exact toFront_forall hfront hfree (fun y hy hdynamic => hy hdynamic) x hx hclash.2.1 hclash.2.2.symm

/-- A packet from inside opens a session with a port that no entry of its protocol has. --/
theorem outboundRecord_inv (hinv : Inv nat) (hspec : p.specified)
    (h : outboundRecord nat (outboundEntry p) = (result, nat')) : Inv nat' := by
  obtain ⟨_, hfind, -⟩ | ⟨rfl, -⟩ | ⟨port, record, hport, hcreate, -⟩ := outboundRecord_cases h
  · exact entryFind_inv hinv hfind
  · exact hinv
  · obtain ⟨hzero, hfree⟩ := findAvailablePort_ok hport
    obtain ⟨hpeer, hlocal, ⟨address, rfl⟩, hactive, -, -⟩ := entryCreate_ok hcreate
    refine hinv.cons hactive
      (fun _ => ⟨hpeer, hlocal, hzero, (p.specified_port hspec).2, (p.specified_peerPort hspec).2, rfl⟩) ?_
    intro x hx hclash
    exact hfree x hx (congrArg Outer.protocol hclash.2.2).symm (congrArg Outer.externalPort hclash.2.2).symm

/-- The session of a packet from inside. --/
theorem outboundRecord_session {record : Entry} (hinv : Inv nat)
    (h : outboundRecord nat (outboundEntry p) = (.ok record, nat')) :
    record ∈ nat'.dynamicActive ∧ record.dynamic ∧ record.responseTimestamp = nat.timeGet ∧
      record.responseTimeout = sessionTimeout p.protocol ∧ record.inner = p.local ∧
      record.outer = p.outbound record.externalPort := by
  obtain ⟨found, hfind, hok⟩ | ⟨-, _, hok⟩ | ⟨port, found, -, hcreate, hok⟩ := outboundRecord_cases h
  · obtain rfl := Except.ok.inj hok
    obtain ⟨e, he, hmatch, rfl, hmem⟩ := entryFind_found hfind
    have hdynamic := matches_dynamic hmatch
    have hsound := hinv.sound e he hdynamic
    obtain ⟨hinner, houter⟩ := hsound.matches_outbound hmatch
    have hprotocol : e.protocol = p.protocol := congrArg Outer.protocol houter
    exact ⟨hmem, hdynamic, rfl, hprotocol ▸ hsound.timeout, hinner, houter⟩
  · cases hok
  · obtain rfl := Except.ok.inj hok
    obtain ⟨-, -, ⟨address, rfl⟩, hactive, -, -⟩ := entryCreate_ok hcreate
    exact ⟨by rw [hactive]; exact List.mem_cons_self, rfl, rfl, rfl, rfl, rfl⟩

/-- The live session that an inbound packet is known by is the one it is found for. --/
theorem inboundRecord_session {e : Entry} (hinv : Inv nat) (he : e ∈ nat.dynamicActive) (hdynamic : e.dynamic)
    (houter : e.outer = p.inbound) : ∃ nat', inboundRecord nat (inboundEntry p) = (.ok (e.at nat.timeGet), nat') := by
  have hsound := hinv.sound e he hdynamic
  have honly : ∀ x ∈ nat.dynamicActive, entryMatches (inboundEntry p) .inboundPacket true x = true → x = e := by
    intro x hx hmatch
    have hx' := matches_dynamic hmatch
    have hxouter := ((hinv.sound x hx hx').matches_inbound true hx').mp hmatch
    exact hinv.unique hx he ⟨hx', hdynamic, hxouter.trans houter.symm⟩
  obtain ⟨active, hfront⟩ := toFront_unique (f := fun x => x.at nat.timeGet) he
    ((hsound.matches_inbound true hdynamic).mpr houter) honly
  have hpeer : e.peerIpAddress = p.sourceIp := congrArg Outer.peerIp houter
  have hip : p.sourceIp ≠ 0 := hpeer ▸ hsound.peerIp
  have hfind : entryFind nat (inboundEntry p) .inboundPacket true =
      some (e.at nat.timeGet, { nat with dynamicActive := active }) := by
    rw [entryFind, if_neg (by simpa [searchable, inboundEntry] using hip)]
    exact congrArg (Option.map _) hfront
  exact ⟨_, by rw [inboundRecord, hfind]⟩

/-- A packet that no session is known by, and no static entry lets in, has no entry. --/
theorem inboundRecord_unmatched (hinv : Inv nat) (hstatic : ∀ e ∈ nat.dynamicActive, ¬ e.serves p)
    (hdynamic : ∀ e ∈ nat.dynamicActive, e.dynamic → e.outer ≠ p.inbound) :
    inboundRecord nat (inboundEntry p) = (.error .entryNotFound, nat) := by
  have hnone : ∀ skip, entryFind nat (inboundEntry p) .inboundPacket skip = none := by
    intro skip
    cases hfind : entryFind nat (inboundEntry p) .inboundPacket skip with
    | none => rfl
    | some found =>
      obtain ⟨record, nat'⟩ := found
      obtain ⟨e, he, hmatch, -, -⟩ := entryFind_found hfind
      cases htype : e.translationType with
      | dynamicEntry =>
        exact absurd (((hinv.sound e he htype).matches_inbound skip htype).mp hmatch) (hdynamic e he htype)
      | staticEntry =>
        cases skip with
        | true => exact absurd (htype.symm.trans (matches_dynamic hmatch)) (by decide)
        | false => exact absurd (matches_serves htype hmatch) (hstatic e he)
  rw [inboundRecord, hnone true, serverEntryCreate, hnone false]

end records

end Netxduo.Translation
