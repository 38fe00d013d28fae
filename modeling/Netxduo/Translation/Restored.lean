import Netxduo.Translation.Mapping

/-! Packets through the device: what leaves from one external port comes back to the endpoint it left, and nothing
    else comes in. -/

namespace Netxduo.Translation
open Runs MoveToFront

/-! ### Packets, rewritten -/

/-- The packet with another destination; an ICMP packet has the port in its identifier. --/
def Packet.toEndpoint (p : Packet) (e : Endpoint) : Packet :=
  { p with
    destinationIp := e.ip
    transport :=
      match p.transport with
      | .tcp source _ => .tcp source e.port
      | .udp source _ => .udp source e.port
      | .icmp type _ => .icmp type e.port }

/-- The packet with another source. --/
def Packet.fromEndpoint (p : Packet) (e : Endpoint) : Packet :=
  { p with
    sourceIp := e.ip
    transport :=
      match p.transport with
      | .tcp _ destination => .tcp e.port destination
      | .udp _ destination => .udp e.port destination
      | .icmp type _ => .icmp type e.port }

/-- TCP and UDP packets, and the echo replies, have their port or identifier restored. --/
def Packet.restorable (p : Packet) : Prop :=
  match p.transport with
  | .icmp type _ => type = icmpEchoReplyType
  | _ => True

/-- An echo request, which keeps its identifier on its way in. --/
def Packet.request (p : Packet) : Prop :=
  match p.transport with
  | .icmp type _ => type = icmpEchoRequestType
  | _ => False

/-- All but the ICMP errors, which are dropped on their way out, and the echo replies, which keep their identifier. --/
def Packet.mapped (p : Packet) : Prop :=
  match p.transport with
  | .icmp type _ => icmpErrorType type = false ∧ type ≠ icmpEchoReplyType
  | _ => True

/-- Of the ICMP packets an echo request has an answer. --/
def Packet.answerable (p : Packet) : Prop :=
  match p.transport with
  | .icmp type _ => type = icmpEchoRequestType
  | _ => True

/-- The answer to a packet goes back to where the packet is from. --/
def Packet.answer (p : Packet) : Packet :=
  { sourceIp := p.destinationIp
    destinationIp := p.sourceIp
    transport :=
      match p.transport with
      | .tcp source destination => .tcp destination source
      | .udp source destination => .udp destination source
      | .icmp _ identifier => .icmp icmpEchoReplyType identifier }

theorem inboundPort_eq {record : Entry} {port : Nat} (h : record.externalPort = port) :
    inboundPort record port = record.localPort := by
  unfold inboundPort
  split
  · rfl
  · rename_i hsame
    rw [← h]
    exact not_not.mp hsame

theorem outboundPort_eq {record : Entry} {port : Nat} (h : record.localPort = port) :
    outboundPort record port = record.externalPort := by
  unfold outboundPort
  split
  · rfl
  · rename_i hsame
    rw [← h]
    exact (not_not.mp hsame).symm

theorem Packet.answerable.mapped {p : Packet} (h : p.answerable) : p.mapped := by
  obtain ⟨_, _, ⟨_, _⟩ | ⟨_, _⟩ | ⟨type, _⟩⟩ := p
  · trivial
  · trivial
  · obtain rfl : type = icmpEchoRequestType := h
    exact ⟨rfl, by decide⟩

theorem Packet.answer_restorable (p : Packet) : p.answer.restorable := by
  obtain ⟨_, _, ⟨_, _⟩ | ⟨_, _⟩ | ⟨_, _⟩⟩ := p
  · trivial
  · trivial
  · rfl

/-- The answer to a packet that left from another endpoint arrives there. --/
theorem Packet.answer_inbound (p : Packet) (e : Endpoint) :
    (p.fromEndpoint e).answer.inbound = p.outbound e.port := by
  obtain ⟨_, _, ⟨_, _⟩ | ⟨_, _⟩ | ⟨_, _⟩⟩ := p <;> rfl

/-- Brought to the endpoint the packet is from, it is the answer to the packet itself. --/
theorem Packet.answer_toLocal {p : Packet} (e : Endpoint) (h : p.answerable) :
    (p.fromEndpoint e).answer.toEndpoint p.local = p.answer := by
  obtain ⟨_, _, ⟨_, _⟩ | ⟨_, _⟩ | ⟨type, _⟩⟩ := p
  · rfl
  · rfl
  · obtain rfl : type = icmpEchoRequestType := h
    rfl

/-! ### What the processing leaves -/

section process
variable {nat nat' : NatDevice} {e record : Entry} {p q : Packet}

theorem processInboundPacket_record {result : Except NatStatus Entry}
    (h : inboundRecord (entryTimeoutCheck nat) (inboundEntry p) = (result, nat')) :
    (processInboundPacket nat p).2 = nat' := by
  unfold processInboundPacket inboundEntryFind
  rw [h]
  cases result with
  | error status => rfl
  | ok record =>
    simp only [withRoute]
    split
    · rename_i hpair
      exact (Prod.mk.inj hpair).2.symm
    · rename_i hpair
      split
      · exact (Prod.mk.inj hpair).2.symm
      · exact (Prod.mk.inj hpair).2.symm

theorem processOutboundPacket_record {result : Except NatStatus Entry} (herror : packetIsIcmpErrorMessage p = false)
    (h : outboundRecord (entryTimeoutCheck nat) (outboundEntry p) = (result, nat')) :
    (processOutboundPacket nat p).2 = nat' := by
  unfold processOutboundPacket outboundEntryFind
  rw [if_neg (by simp [herror]), h]
  cases result with
  | error status => rfl
  | ok record =>
    simp only [withRoute]
    split
    · rename_i hpair
      exact (Prod.mk.inj hpair).2.symm
    · rename_i hpair
      exact (Prod.mk.inj hpair).2.symm

theorem processInboundPacket_keeps (nat : NatDevice) (p : Packet) : Keeps nat (processInboundPacket nat p).2 := by
  cases h : inboundRecord (entryTimeoutCheck nat) (inboundEntry p) with
  | mk result nat' =>
    rw [processInboundPacket_record h]
    exact (entryTimeoutCheck_keeps nat).trans (inboundRecord_keeps h)

theorem processOutboundPacket_keeps (nat : NatDevice) (p : Packet) : Keeps nat (processOutboundPacket nat p).2 := by
  cases herror : packetIsIcmpErrorMessage p with
  | true =>
    rw [processOutboundPacket, if_pos herror]
    exact Keeps.rfl
  | false =>
    cases h : outboundRecord (entryTimeoutCheck nat) (outboundEntry p) with
    | mk result nat' =>
      rw [processOutboundPacket_record herror h]
      exact (entryTimeoutCheck_keeps nat).trans (outboundRecord_keeps h)

theorem processInboundPacket_inv (hinv : Inv nat) (hspec : p.specified ∨ ∀ e ∈ nat.dynamicActive, ¬ e.serves p) :
    Inv (processInboundPacket nat p).2 := by
  cases h : inboundRecord (entryTimeoutCheck nat) (inboundEntry p) with
  | mk result nat' =>
    rw [processInboundPacket_record h]
    refine inboundRecord_inv (entryTimeoutCheck_inv hinv) (hspec.imp_right fun hno e he => ?_) h
    exact hno e (List.mem_filter.mp he).1

theorem processOutboundPacket_inv (hinv : Inv nat) (hspec : p.specified ∨ packetIsIcmpErrorMessage p = true) :
    Inv (processOutboundPacket nat p).2 := by
  cases herror : packetIsIcmpErrorMessage p with
  | true =>
    rw [processOutboundPacket, if_pos herror]
    exact hinv
  | false =>
    cases h : outboundRecord (entryTimeoutCheck nat) (outboundEntry p) with
    | mk result nat' =>
      rw [processOutboundPacket_record herror h]
      exact outboundRecord_inv (entryTimeoutCheck_inv hinv)
        (hspec.resolve_right fun htrue => absurd (htrue.symm.trans herror) (by decide)) h

theorem processPacket_keeps (nat : NatDevice) (fromGlobal : Bool) (p : Packet) :
    Keeps nat (processPacket nat fromGlobal p).2 := by
  unfold processPacket
  split
  · split
    · exact Keeps.rfl
    · exact processInboundPacket_keeps nat p
  · split
    · exact Keeps.rfl
    · exact processOutboundPacket_keeps nat p

/-- A packet that a live session is known by goes to the endpoint of the session, if there is a route to it. --/
theorem processInboundPacket_session (hinv : Inv nat) (he : Live nat e) (houter : e.outer = p.inbound)
    (hroute : nat.ip.routeFind e.localIpAddress = true) :
    (p.restorable → (processInboundPacket nat p).1 = .sent (p.toEndpoint e.inner)) ∧
    (p.request → (processInboundPacket nat p).1 = .sent { p with destinationIp := e.localIpAddress }) ∧
    (¬ p.restorable → ¬ p.request → (processInboundPacket nat p).1 = .dropped) := by
  have hmem : e ∈ (entryTimeoutCheck nat).dynamicActive :=
    List.mem_filter.mpr ⟨he.mem, by rw [he.fresh]; rfl⟩
  obtain ⟨nat', hrecord⟩ := inboundRecord_session (entryTimeoutCheck_inv hinv) hmem he.dynamic houter
  have hip : nat'.ip = nat.ip := (inboundRecord_keeps hrecord).ip
  have hfind : inboundEntryFind nat (inboundEntry p) = (.ok (e.at nat.timeGet), nat') := by
    rw [inboundEntryFind, hrecord, withRoute, hip, if_pos (by exact hroute)]
    rfl
  have hport : e.externalPort = getDestinationPort p := congrArg Outer.externalPort houter
  unfold processInboundPacket
  rw [hfind]
  obtain ⟨sourceIp, destinationIp, ⟨source, destination⟩ | ⟨source, destination⟩ | ⟨type, identifier⟩⟩ := p
  · have hin : inboundPort (e.at nat.timeGet) destination = e.localPort := inboundPort_eq hport
    refine ⟨fun _ => ?_, fun hrequest => hrequest.elim, fun hno => absurd trivial hno⟩
    simp only [inboundHeader, hin]
    rfl
  · have hin : inboundPort (e.at nat.timeGet) destination = e.localPort := inboundPort_eq hport
    refine ⟨fun _ => ?_, fun hrequest => hrequest.elim, fun hno => absurd trivial hno⟩
    simp only [inboundHeader, hin]
    rfl
  · refine ⟨fun hreply => ?_, fun hrequest => ?_, fun hreply hrequest => ?_⟩
    · obtain rfl : type = icmpEchoReplyType := hreply
      have hin : inboundPort (e.at nat.timeGet) identifier = e.localPort := inboundPort_eq hport
      have hheader : inboundHeader (e.at nat.timeGet) (.icmp icmpEchoReplyType identifier) =
          some (.icmp icmpEchoReplyType (inboundPort (e.at nat.timeGet) identifier)) := rfl
      simp only [hheader, hin]
      rfl
    · obtain rfl : type = icmpEchoRequestType := hrequest
      rfl
    · have hheader : inboundHeader (e.at nat.timeGet) (.icmp type identifier) = none := if_pos ⟨hreply, hrequest⟩
      simp only [hheader]

/-- A packet that no live session is known by, and no static entry lets in, is left to the host. --/
theorem processInboundPacket_unmatched (hinv : Inv nat) (hstatic : ∀ e ∈ nat.dynamicActive, ¬ e.serves p)
    (hlive : ∀ e, Live nat e → e.outer ≠ p.inbound) : (processInboundPacket nat p).1 = .toHost := by
  have hrecord := inboundRecord_unmatched (entryTimeoutCheck_inv hinv)
    (fun e he => hstatic e (List.mem_filter.mp he).1)
    (fun e he hdynamic => hlive e (entryTimeoutCheck_live he hdynamic))
  rw [processInboundPacket, inboundEntryFind, hrecord]
  rfl

/-- A packet that leaves does so from the external port of a session of its endpoint, used now. --/
theorem processOutboundPacket_sent (hinv : Inv nat) (h : processOutboundPacket nat p = (.sent q, nat')) :
    ∃ e, e ∈ nat'.dynamicActive ∧ e.dynamic ∧ e.responseTimestamp = nat'.timeGet ∧
      e.responseTimeout = sessionTimeout p.protocol ∧ e.inner = p.local ∧ e.outer = p.outbound e.externalPort ∧
      (p.mapped → q = p.fromEndpoint ⟨nat.ip.interfaceIpAddress, e.externalPort⟩) := by
  unfold processOutboundPacket at h
  split at h
  · cases h
  · rename_i herror
    cases hrecord : outboundRecord (entryTimeoutCheck nat) (outboundEntry p) with
    | mk result last =>
      have hkeeps := outboundRecord_keeps hrecord
      rw [outboundEntryFind, hrecord] at h
      cases result with
      | error status => cases h
      | ok record =>
        obtain ⟨hmem, hdynamic, htime, htimeout, hinner, houter⟩ :=
          outboundRecord_session (entryTimeoutCheck_inv hinv) hrecord
        rw [withRoute] at h
        split at h
        · cases h
        · rename_i found final hpair
          obtain ⟨hrecord', rfl⟩ := Prod.mk.inj hpair
          split at hrecord'
          · obtain rfl := Except.ok.inj hrecord'
            obtain ⟨hq, rfl⟩ := Prod.mk.inj h
            refine ⟨record, hmem, hdynamic, htime.trans hkeeps.timeGet.symm, htimeout, hinner, houter, ?_⟩
            intro hmapped
            have hport : record.localPort = getSourcePort p := congrArg Endpoint.port hinner
            rw [← Verdict.sent.inj hq, hkeeps.ip]
            obtain ⟨sourceIp, destinationIp, ⟨_, _⟩ | ⟨_, _⟩ | ⟨type, identifier⟩⟩ := p
            · rw [outboundHeader, outboundPort_eq (by exact hport)]
              rfl
            · rw [outboundHeader, outboundPort_eq (by exact hport)]
              rfl
            · have hid : record.localPort = identifier := by
                rw [hport]
                show (if icmpErrorType type then 0 else identifier) = identifier
                rw [hmapped.1]
                rfl
              rw [outboundHeader, if_pos hmapped.2, outboundPort_eq hid]
              rfl
          · cases hrecord'

end process

/-! ### Runs -/

section runs
variable {nat nat' : NatDevice} {actions : List Action} {e : Entry} {age : Nat}

theorem step_inv (hinv : Inv nat) (a : Action) (hspec : Specified nat a) : Inv (step nat a) := by
  cases a with
  | packet fromGlobal p =>
    show Inv (processPacket nat fromGlobal p).2
    cases fromGlobal with
    | true =>
      rw [processPacket, if_pos rfl]
      split
      · exact hinv
      · rename_i haddress
        exact processInboundPacket_inv hinv (hspec (not_not.mp haddress))
    | false =>
      rw [processPacket, if_neg (by decide)]
      split
      · exact hinv
      · rename_i hforward
        exact processOutboundPacket_inv hinv (hspec (by simpa using hforward))
  | inboundEntryCreate address localIpAddress externalPort localPort protocol =>
    show Inv (served nat (inboundEntryCreate nat address localIpAddress externalPort localPort protocol))
    unfold inboundEntryCreate
    split
    · exact hinv
    · split
      · exact hinv
      · split
        · exact hinv
        · exact hinv.cons rfl (fun hstatic => by cases hstatic) fun x _ hclash => by cases hclash.1
  | inboundEntryDelete address =>
    show Inv (served nat (inboundEntryDelete nat address))
    unfold inboundEntryDelete
    split
    · exact hinv
    · split
      · exact hinv
      · exact hinv.sublist List.eraseP_sublist
  | ticks n => exact hinv.sublist (List.Sublist.refl _)
  | host _ _ _ => exact hinv.sublist (List.Sublist.refl _)

/-- Over a step a session ages by the ticks that pass, and is not lost before its timeout. --/
theorem step_holds (hdynamic : e.dynamic) (a : Action) (hage : age + a.elapsed < e.responseTimeout.toNat)
    (h : Holds nat e age) : Holds (step nat a) e (age + a.elapsed) := by
  cases a with
  | packet fromGlobal p => exact (processPacket_keeps nat fromGlobal p).holds e age hdynamic hage h
  | inboundEntryCreate address localIpAddress externalPort localPort protocol =>
    obtain ⟨t, ht, hle⟩ := h
    show Holds (served nat (inboundEntryCreate nat address localIpAddress externalPort localPort protocol)) e age
    unfold inboundEntryCreate
    split
    · exact ⟨t, ht, hle⟩
    · split
      · exact ⟨t, ht, hle⟩
      · split
        · exact ⟨t, ht, hle⟩
        · exact ⟨t, List.mem_cons_of_mem _ ht, hle⟩
  | inboundEntryDelete address =>
    obtain ⟨t, ht, hle⟩ := h
    show Holds (served nat (inboundEntryDelete nat address)) e age
    unfold inboundEntryDelete
    split
    · exact ⟨t, ht, hle⟩
    · rename_i found hfind
      split
      · exact ⟨t, ht, hle⟩
      · rename_i htype
        -- the entry that goes is the first of its address, which is static
        have hne : e.at t ≠ found := by
          rintro rfl
          exact htype fun hstatic => by
            rw [show (e.at t).translationType = .dynamicEntry from hdynamic] at hstatic
            cases hstatic
        exact ⟨t, mem_eraseP_of_find hfind ht hne, hle⟩
  | ticks n =>
    obtain ⟨t, ht, hle⟩ := h
    refine ⟨t, ht, ?_⟩
    show (nat.timeGet + BitVec.ofNat 32 n - t).toNat ≤ age + n
    have hsum : nat.timeGet + BitVec.ofNat 32 n - t = (nat.timeGet - t) + BitVec.ofNat 32 n := by
      rw [BitVec.sub_eq_add_neg, BitVec.sub_eq_add_neg, BitVec.add_assoc, BitVec.add_assoc,
        BitVec.add_comm (BitVec.ofNat 32 n)]
    rw [hsum, BitVec.toNat_add, BitVec.toNat_ofNat]
    exact ((Nat.mod_le _ _).trans (Nat.add_le_add_left (Nat.mod_le _ _) _)).trans (Nat.add_le_add_right hle n)
  | host _ _ _ => exact h

theorem step_interface (nat : NatDevice) (a : Action) :
    (step nat a).ip.interfaceIpAddress = nat.ip.interfaceIpAddress := by
  cases a with
  | packet fromGlobal p => exact congrArg Ip.interfaceIpAddress (processPacket_keeps nat fromGlobal p).ip
  | inboundEntryCreate address localIpAddress externalPort localPort protocol =>
    show Ip.interfaceIpAddress
      (served nat (inboundEntryCreate nat address localIpAddress externalPort localPort protocol)).ip = _
    unfold inboundEntryCreate
    split
    · rfl
    · split
      · rfl
      · split <;> rfl
  | inboundEntryDelete address =>
    show (served nat (inboundEntryDelete nat address)).ip.interfaceIpAddress = _
    unfold inboundEntryDelete
    split
    · rfl
    · split <;> rfl
  | ticks n => rfl
  | host _ _ _ => rfl

theorem run_inv (h : Run step Specified nat actions nat') (hinv : Inv nat) : Inv nat' :=
  h.invariant hinv fun _ _ a hs hok => step_inv hs a hok

theorem run_interface (h : Run step Specified nat actions nat') :
    nat'.ip.interfaceIpAddress = nat.ip.interfaceIpAddress :=
  h.invariant rfl fun _ s a hs _ => (step_interface s a).trans hs

theorem elapsed_append (actions : List Action) (a : Action) :
    elapsed (actions ++ [a]) = elapsed actions + a.elapsed := by
  simp [elapsed]

/-- Over a run a session ages by the ticks that pass. --/
theorem run_holds (h : Run step Specified nat actions nat') (hdynamic : e.dynamic) (hheld : Holds nat e age)
    (hage : age + elapsed actions < e.responseTimeout.toNat) : Holds nat' e (age + elapsed actions) := by
  revert hage
  refine h.invariant (P := fun actions s =>
    age + elapsed actions < e.responseTimeout.toNat → Holds s e (age + elapsed actions)) (fun _ => hheld) ?_
  intro actions s a hs _ hage
  rw [elapsed_append, ← Nat.add_assoc] at hage ⊢
  exact step_holds hdynamic a hage (hs (lt_of_le_of_lt (Nat.le_add_right _ _) hage))

theorem create_inv (ip : Ip) (memory : List Nat) (time : ULONG) : Inv (create ip memory time) :=
  ⟨fun _ he => absurd he List.not_mem_nil, List.Pairwise.nil⟩

end runs

/-! ### The mapping -/

/-- What the device promises in a state. --/
structure Mapping (nat : NatDevice) : Prop where
  /-- No two endpoints have the same external port at the same peer. --/
  injective : ∀ a b, Live nat a → Live nat b → a.outer = b.outer → a.inner = b.inner
  /-- A packet that leaves has a live session, of its endpoint and its peer, and leaves from the session's port. --/
  given : ∀ p q nat', processPacket nat false p = (.sent q, nat') →
    ∃ e, Live nat' e ∧ e.inner = p.local ∧ e.outer = p.outbound e.externalPort ∧
      (p.mapped → q = p.fromEndpoint ⟨nat.ip.interfaceIpAddress, e.externalPort⟩)
  /-- A packet that a live session is known by goes to the session's endpoint; an echo request keeps its identifier,
      and other ICMP messages go nowhere. --/
  rewritten : ∀ e p, Live nat e → e.outer = p.inbound → p.destinationIp = nat.ip.interfaceIpAddress →
    nat.ip.routeFind e.localIpAddress = true →
    (p.restorable → (processPacket nat true p).1 = .sent (p.toEndpoint e.inner)) ∧
    (p.request → (processPacket nat true p).1 = .sent { p with destinationIp := e.localIpAddress }) ∧
    (¬ p.restorable → ¬ p.request → (processPacket nat true p).1 = .dropped)
  /-- Whatever happens, a live session stays so until its timeout has passed. --/
  stable : ∀ e later nat', Live nat e → Run step Specified nat later nat' →
    (nat.timeGet - e.responseTimestamp).toNat + elapsed later < e.responseTimeout.toNat → ∃ t, Live nat' (e.at t)
  /-- A packet that leaves is answered at the endpoint it is from. --/
  answered : ∀ p q sent later nat', p.specified → p.answerable → processPacket nat false p = (.sent q, sent) →
    Run step Specified sent later nat' → elapsed later < (sessionTimeout p.protocol).toNat →
    nat'.ip.routeFind p.sourceIp = true → (processPacket nat' true q.answer).1 = .sent p.answer
  /-- What no live session is known by, and no static entry lets in, is not forwarded. --/
  unmatched : ∀ p, (∀ e ∈ nat.dynamicActive, ¬ e.serves p) → (∀ e, Live nat e → e.outer ≠ p.inbound) →
    (processPacket nat true p).1 = .toHost

theorem sessionTimeout_pos (protocol : Nat) : 0 < (sessionTimeout protocol).toNat := by
  unfold sessionTimeout
  split <;> decide

theorem processPacket_out {nat nat' : NatDevice} {p q : Packet} (h : processPacket nat false p = (.sent q, nat')) :
    processOutboundPacket nat p = (.sent q, nat') := by
  rw [processPacket, if_neg (by decide)] at h
  split at h
  · cases h
  · exact h

theorem processPacket_in {nat : NatDevice} {p : Packet} (h : p.destinationIp = nat.ip.interfaceIpAddress) :
    processPacket nat true p = processInboundPacket nat p := by
  rw [processPacket, if_pos rfl, if_neg (not_not.mpr h)]

/-- A router at 203.0.113.1, with no sockets, a route to every address, and room for three sessions. --/
def router : NatDevice :=
  create { interfaceIpAddress := 0xCB007101, socketPortVerify := fun _ _ => false, routeFind := fun _ => true,
           globalRoute := fun _ => true } [1, 2, 3] 0

/-- An echo request of 192.168.0.2 to 198.51.100.9. --/
def ping (identifier : Nat) : Packet := ⟨0xC0A80002, 0xC6336409, .icmp icmpEchoRequestType identifier⟩

/-- An echo packet of 198.51.100.9 to the router. --/
def echo (type identifier : Nat) : Packet := ⟨0xC6336409, 0xCB007101, .icmp type identifier⟩

end Netxduo.Translation
