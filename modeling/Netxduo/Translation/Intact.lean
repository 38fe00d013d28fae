import Netxduo.Translation.Checksum

/-! What the translation leaves of a packet: its checksums verify where they did, and all but the translated words stay as
    they were. The fragment field is cleared where the packet may be fragmented. -/

namespace Netxduo.Translation
open OnesComplement Runs

/-! ### Sums -/

section sums
variable {record : Entry} {h : Header} {d : Datagram} {interface localIp : UInt32}

theorem total_halves (w : UInt16) : total (halves w.toUInt32) = w.toNat := by
  have hlt := w.toNat_lt
  have hlow : w.toUInt32.toUInt16 = w := by simp
  have hhigh : (w.toUInt32 >>> 16).toUInt16.toNat = 0 := by
    rw [UInt32.toNat_toUInt16, UInt32.toNat_shiftRight, UInt16.toNat_toUInt32]
    have h16 : (16 : UInt32).toNat % 32 = 16 := rfl
    rw [h16, Nat.shiftRight_eq_div_pow]
    omega
  unfold halves
  rw [total_cons, total_cons, total_nil, hlow, hhigh]
  rfl

theorem toNat_ofNat_add {upper lower : Nat} (hupper : upper < 256) (hlower : lower < 256) :
    (UInt16.ofNat (upper * 256 + lower)).toNat = upper * 256 + lower := by
  rw [UInt16.toNat_ofNat']
  exact Nat.mod_eq_of_lt (by omega)

/-- The protocol is not zero, and so is no sum over it. --/
theorem protocol_pos (t : Transport) : 0 < t.protocol ∧ t.protocol < 256 := by
  cases t <;> simp [Transport.protocol, protocolTcp, protocolUdp, protocolIcmp]

theorem headerWords_pos (d : Datagram) : total d.headerWords ≠ 0 := by
  obtain ⟨hpos, hlt⟩ := protocol_pos d.transport
  have hword := toNat_ofNat_add d.header.timeToLive.toNat_lt hlt
  unfold Datagram.headerWords
  simp only [total_append, total_cons]
  omega

theorem pseudoWords_pos (d : Datagram) : total d.pseudoWords ≠ 0 := by
  obtain ⟨hpos, hlt⟩ := protocol_pos d.transport
  have hword := @toNat_ofNat_add 0 _ (by decide) hlt
  rw [Nat.zero_mul, Nat.zero_add] at hword
  unfold Datagram.pseudoWords
  simp only [total_append, total_cons]
  omega

/-- Where the checksum covers the pseudo header, the covered words never sum to zero. --/
theorem transportWords_pos {d : Datagram} (hcovers : ∃ words, d.transportWords = d.pseudoWords ++ words) :
    total d.transportWords ≠ 0 := by
  obtain ⟨words, hwords⟩ := hcovers
  have := pseudoWords_pos d
  rw [hwords, total_append]
  omega

/-- The part of the header that changes keeps its sum. --/
theorem ipPacketSend_mod {direction : Direction} (hout : direction = .outboundPacket → h.sourceIp = localIp)
    (hin : direction = .inboundPacket → h.destinationIp = interface) :
    let h' := ipPacketSend h direction interface localIp
    (h'.fragment.toNat + h'.checksum.toNat + total (halves h'.sourceIp) + total (halves h'.destinationIp)) % 65535 =
      (h.fragment.toNat + h.checksum.toNat + total (halves h.sourceIp) + total (halves h.destinationIp)) % 65535 := by
  have hfragment : ∀ checksum fragment : UInt16,
      (fragment.toNat + (if h.fragment ≠ fragment then
        checksumAdjust checksum (halves h.fragment.toUInt32) (halves fragment.toUInt32) else checksum).toNat) % 65535 =
      (h.fragment.toNat + checksum.toNat) % 65535 := by
    intro checksum fragment
    split
    · have hmod := checksumAdjust_mod checksum (halves h.fragment.toUInt32) (halves fragment.toUInt32)
      rw [total_halves, total_halves] at hmod
      omega
    · rename_i hsame
      rw [not_not.mp hsame]
  cases direction with
  | outboundPacket =>
    have hmod := checksumAdjust_mod h.checksum (halves localIp) (halves interface)
    have hfrag := hfragment (checksumAdjust h.checksum (halves localIp) (halves interface))
      (if h.fragment &&& dontFragment ≠ dontFragment ∧ h.fragment ≠ 0 then 0 else h.fragment)
    have hsource := hout rfl
    rw [← hsource] at hmod hfrag ⊢
    simp only [ipPacketSend, ↓reduceIte, reduceCtorEq]
    omega
  | inboundPacket =>
    have hmod := checksumAdjust_mod h.checksum (halves interface) (halves localIp)
    have hfrag := hfragment (checksumAdjust h.checksum (halves interface) (halves localIp))
      (if h.fragment &&& dontFragment ≠ dontFragment ∧ h.fragment ≠ 0 then 0 else h.fragment)
    have hdestination := hin rfl
    rw [← hdestination] at hmod hfrag ⊢
    simp only [ipPacketSend, ↓reduceIte, reduceCtorEq]
    omega

/-- And the part of a transport header. --/
theorem transportAdjust_mod (record : Entry) (checksum oldPort newPort : UInt16) (old new : UInt32) :
    ((transportAdjust record checksum oldPort newPort old new).toNat + total (halves new) +
        if record.externalPort ≠ record.localPort then newPort.toNat else oldPort.toNat) % 65535 =
      (checksum.toNat + total (halves old) + oldPort.toNat) % 65535 := by
  unfold transportAdjust
  dsimp only
  split
  · have hport := checksumAdjust_mod checksum [oldPort] [newPort]
    have hmod := checksumAdjust_mod (checksumAdjust checksum [oldPort] [newPort]) (halves old) (halves new)
    simp only [total_cons, total_nil] at hport
    omega
  · have hmod := checksumAdjust_mod checksum (halves old) (halves new)
    omega

end sums

/-! ### What is kept -/

/-- What follows the header of the packet, less its checksum. --/
def Transport.message : Transport → List UInt16
  | .tcp source destination _ rest => source :: destination :: rest
  | .udp source destination length _ rest => source :: destination :: length :: rest
  | .icmp type code _ identifier rest => UInt16.ofNat (type.toNat * 256 + code.toNat) :: identifier :: rest

/-- Where the sums of the transport headers are promised: not for a UDP datagram that leaves, and not for an ICMP message
    that is zero throughout, or becomes so. --/
def Summed (direction : Direction) (d d' : Datagram) : Prop :=
  match d.transport with
  | .tcp _ _ _ _ => True
  | .udp _ _ _ checksum _ => direction = .inboundPacket ∧ checksum ≠ 0
  | .icmp _ _ _ _ _ => total d.transport.message ≠ 0 ∧ total d'.transport.message ≠ 0

/-- The headers and the payload are the same, but for the checksum and the port of the side that is translated, or the
    identifier. --/
def SameTransport (direction : Direction) (t t' : Transport) : Prop :=
  match t, t' with
  | .tcp source destination _ rest, .tcp source' destination' _ rest' =>
    (direction = .outboundPacket → destination' = destination) ∧ (direction = .inboundPacket → source' = source) ∧ rest' = rest
  | .udp source destination length _ rest, .udp source' destination' length' _ rest' =>
    (direction = .outboundPacket → destination' = destination) ∧ (direction = .inboundPacket → source' = source) ∧
      length' = length ∧ rest' = rest
  | .icmp type code _ _ rest, .icmp type' code' _ _ rest' => type' = type ∧ code' = code ∧ rest' = rest
  | _, _ => False

/-- A datagram without a checksum has none. --/
def Unsummed (t : Transport) : Prop :=
  match t with
  | .udp _ _ _ checksum _ => checksum = 0
  | _ => False

structure Intact (direction : Direction) (d d' : Datagram) : Prop where
  header : Verifies d'.headerWords ↔ Verifies d.headerWords
  transport : Summed direction d d' → (Verifies d'.transportWords ↔ Verifies d.transportWords)
  unsummed : Unsummed d.transport → Unsummed d'.transport
  same : SameTransport direction d.transport d'.transport
  versionLengthTos : d'.header.versionLengthTos = d.header.versionLengthTos
  totalLength : d'.header.totalLength = d.header.totalLength
  identification : d'.header.identification = d.header.identification
  timeToLive : d'.header.timeToLive = d.header.timeToLive
  fragment : d'.header.fragment = if d.header.fragment &&& dontFragment = dontFragment then d.header.fragment else 0
  sourceIp : direction = .inboundPacket → d'.header.sourceIp = d.header.sourceIp
  destinationIp : direction = .outboundPacket → d'.header.destinationIp = d.header.destinationIp

section headers
variable {d d' : Datagram} {direction : Direction} {interface localIp : UInt32}

/-- What is sent has its header intact, where its transport header is of the same kind. --/
theorem intact_of_transport (hheader : d'.header = ipPacketSend d.header direction interface localIp)
    (hout : direction = .outboundPacket → d.header.sourceIp = localIp)
    (hin : direction = .inboundPacket → d.header.destinationIp = interface)
    (hprotocol : d'.transport.protocol = d.transport.protocol)
    (htransport : Summed direction d d' → (Verifies d'.transportWords ↔ Verifies d.transportWords))
    (hunsummed : Unsummed d.transport → Unsummed d'.transport)
    (hsame : SameTransport direction d.transport d'.transport) : Intact direction d d' := by
  have hmod := ipPacketSend_mod (h := d.header) hout hin
  have hfragment : (ipPacketSend d.header direction interface localIp).fragment =
      if d.header.fragment &&& dontFragment = dontFragment then d.header.fragment else 0 := by
    show (if d.header.fragment &&& dontFragment ≠ dontFragment ∧ d.header.fragment ≠ 0 then 0 else d.header.fragment) = _
    by_cases hdont : d.header.fragment &&& dontFragment = dontFragment
    · simp [hdont]
    · by_cases hzero : d.header.fragment = 0
      · simp [hzero]
      · simp [hdont, hzero]
  refine ⟨?_, htransport, hunsummed, hsame, by rw [hheader]; rfl, by rw [hheader]; rfl, by rw [hheader]; rfl,
    by rw [hheader]; rfl, by rw [hheader]; exact hfragment, ?_, ?_⟩
  · refine verifies_congr ?_ (headerWords_pos d') (headerWords_pos d)
    have hversion : d'.header.versionLengthTos = d.header.versionLengthTos := by rw [hheader]; rfl
    have hlength : d'.header.totalLength = d.header.totalLength := by rw [hheader]; rfl
    have hidentification : d'.header.identification = d.header.identification := by rw [hheader]; rfl
    have htime : d'.header.timeToLive = d.header.timeToLive := by rw [hheader]; rfl
    rw [← hheader] at hmod
    unfold Datagram.headerWords
    simp only [total_append, total_cons, total_nil]
    rw [hversion, hlength, hidentification, htime, hprotocol]
    omega
  · rintro rfl
    rw [hheader]
    rfl
  · rintro rfl
    rw [hheader]
    rfl

end headers

/-! ### Packets that leave -/

section outbound
variable {nat : NatDevice} {d d' : Datagram} {record : Entry}

theorem outboundWord (record : Entry) (port : UInt16) :
    (UInt16.ofNat (outboundPort record port.toNat)).toNat =
      if record.externalPort ≠ record.localPort then (UInt16.ofNat record.externalPort).toNat else port.toNat := by
  unfold outboundPort
  split
  · rfl
  · rw [UInt16.ofNat_toNat]

/-- The transport header of a packet that leaves from the endpoint of its record. --/
theorem outboundTransport_kept (header : Header) (interface : UInt32)
    (hsource : d.header.sourceIp = UInt32.ofNat record.localIpAddress)
    (hport : record.localPort = getSourcePort d.view) (herror : packetIsIcmpErrorMessage d.view = false)
    (hheader : header.sourceIp = interface) (hdestination : header.destinationIp = d.header.destinationIp)
    (hlength : header.totalLength = d.header.totalLength) :
    let t := outboundTransport record interface d.transport
    t.protocol = d.transport.protocol ∧ (Unsummed d.transport → Unsummed t) ∧ SameTransport .outboundPacket d.transport t ∧
      (Summed .outboundPacket d ⟨header, t⟩ →
        (Verifies (Datagram.mk header t).transportWords ↔ Verifies d.transportWords)) := by
  obtain ⟨h, t⟩ := d
  cases t with
  | tcp source destination checksum rest =>
    have hport : record.localPort = source.toNat := hport
    refine ⟨rfl, id, ⟨fun _ => rfl, fun h => by (cases h), rfl⟩, fun _ => ?_⟩
    have hmod := transportAdjust_mod record checksum (UInt16.ofNat record.localPort)
      (UInt16.ofNat record.externalPort) (UInt32.ofNat record.localIpAddress) interface
    have hword := outboundWord record source
    have hlocal : (UInt16.ofNat record.localPort).toNat = source.toNat := by rw [hport, UInt16.ofNat_toNat]
    refine verifies_congr ?_ ?_ ?_
    · simp only [Datagram.transportWords, Datagram.pseudoWords, outboundTransport, Transport.protocol, total_append,
        total_cons, total_nil]
      have hold : total (halves (UInt32.ofNat record.localIpAddress)) = total (halves h.sourceIp) := by rw [← hsource]
      rw [hheader, hdestination, hlength]
      rw [hlocal, ← hword] at hmod
      dsimp only at hmod ⊢
      omega
    · exact transportWords_pos ⟨_, List.append_assoc _ _ _⟩
    · exact transportWords_pos ⟨_, List.append_assoc _ _ _⟩
  | udp source destination length checksum rest =>
    exact ⟨rfl, fun _ => rfl, ⟨fun _ => rfl, fun h => by (cases h), rfl, rfl⟩, fun h => by cases h.1⟩
  | icmp type code checksum identifier rest =>
    have hport : record.localPort = identifier.toNat := by
      refine hport.trans (if_neg ?_)
      rw [Bool.not_eq_true]
      exact herror
    unfold outboundTransport
    dsimp only
    split
    · rename_i hchanged
      refine ⟨rfl, id, ⟨rfl, rfl, rfl⟩, fun _ => ?_⟩
      have hmod := checksumAdjust_mod checksum [UInt16.ofNat record.localPort] [UInt16.ofNat record.externalPort]
      have hlocal : (UInt16.ofNat record.localPort).toNat = identifier.toNat := by rw [hport, UInt16.ofNat_toNat]
      have htype : (UInt16.ofNat (type.toNat * 256 + code.toNat)).toNat = type.toNat * 256 + code.toNat :=
        toNat_ofNat_add type.toNat_lt code.toNat_lt
      have hpos : type.toNat ≠ 0 := hchanged.1
      simp only [total_cons, total_nil] at hmod
      refine verifies_congr ?_ ?_ ?_
      · simp only [Datagram.transportWords, total_append, total_cons, total_nil]
        omega
      · simp only [Datagram.transportWords, total_append, total_cons, total_nil]
        omega
      · simp only [Datagram.transportWords, total_append, total_cons, total_nil]
        omega
    · exact ⟨rfl, id, ⟨rfl, rfl, rfl⟩, fun _ => Iff.rfl⟩

theorem sendOutbound_intact (hinv : Inv nat) (h : sendOutbound nat d = some d') : Intact .outboundPacket d d' := by
  unfold sendOutbound at h
  split at h
  · cases h
  · rename_i herror
    rw [Bool.not_eq_true] at herror
    cases hrecord : outboundRecord (entryTimeoutCheck nat) (outboundEntry d.view) with
    | mk result last =>
      rw [outboundEntryFind, hrecord] at h
      cases result with
      | error status => cases h
      | ok record =>
        obtain ⟨-, -, -, -, hinner, -⟩ := outboundRecord_session (entryTimeoutCheck_inv hinv) hrecord
        have hip : record.localIpAddress = d.header.sourceIp.toNat := congrArg Endpoint.ip hinner
        have hsource : d.header.sourceIp = UInt32.ofNat record.localIpAddress := by rw [hip, UInt32.ofNat_toNat]
        rw [withRoute] at h
        dsimp only at h
        split at h
        · cases h
        · rename_i found hfound
          split at hfound
          · cases hfound
            cases h
            obtain ⟨hprotocol, hunsummed, hsame, htransport⟩ := outboundTransport_kept
              (ipPacketSend d.header .outboundPacket (UInt32.ofNat nat.ip.interfaceIpAddress) (UInt32.ofNat record.localIpAddress))
              (UInt32.ofNat nat.ip.interfaceIpAddress) hsource (congrArg Endpoint.port hinner) herror rfl rfl rfl
            exact intact_of_transport rfl (fun _ => hsource) (fun h => by cases h) hprotocol htransport hunsummed hsame
          · cases hfound

end outbound

/-! ### Packets that come in -/

section inbound
variable {nat nat' : NatDevice} {p : Packet} {d d' : Datagram} {record : Entry}

/-- The record of a packet from outside has its port. --/
theorem inboundRecord_port (hinv : Inv nat) (h : inboundRecord nat (inboundEntry p) = (.ok record, nat')) :
    record.externalPort = getDestinationPort p := by
  obtain ⟨found, hfind, hok⟩ | ⟨-, ⟨-, hok, -⟩ | ⟨server, mid, -, ⟨_, -, hok, -⟩ | ⟨found, hcreate, hok⟩⟩⟩ :=
    inboundRecord_cases h
  · obtain rfl := Except.ok.inj hok
    obtain ⟨e, he, hmatch, rfl, -⟩ := entryFind_found hfind
    have hdynamic := matches_dynamic hmatch
    exact congrArg Outer.externalPort (((hinv.sound e he hdynamic).matches_inbound true hdynamic).mp hmatch)
  · cases hok
  · cases hok
  · obtain rfl := Except.ok.inj hok
    obtain ⟨-, -, ⟨address, rfl⟩, -, -, -⟩ := entryCreate_ok hcreate
    rfl

theorem inboundWord (record : Entry) (port : UInt16) :
    (UInt16.ofNat (inboundPort record port.toNat)).toNat =
      if record.externalPort ≠ record.localPort then (UInt16.ofNat record.localPort).toNat else port.toNat := by
  unfold inboundPort
  split
  · rfl
  · rw [UInt16.ofNat_toNat]

/-- The transport header of a packet that comes in for the endpoint of its record. --/
theorem inboundTransport_kept (header : Header) {t : Transport} {interface : UInt32}
    (h : inboundTransport record interface d.transport = some t) (hport : record.externalPort = getDestinationPort d.view)
    (hinterface : d.header.destinationIp = interface) (hheader : header.destinationIp = UInt32.ofNat record.localIpAddress)
    (hsource : header.sourceIp = d.header.sourceIp) (hlength : header.totalLength = d.header.totalLength) :
    t.protocol = d.transport.protocol ∧ (Unsummed d.transport → Unsummed t) ∧ SameTransport .inboundPacket d.transport t ∧
      (Summed .inboundPacket d ⟨header, t⟩ →
        (Verifies (Datagram.mk header t).transportWords ↔ Verifies d.transportWords)) := by
  obtain ⟨h0, t0⟩ := d
  have hold : total (halves interface) = total (halves h0.destinationIp) := by rw [← hinterface]
  cases t0 with
  | tcp source destination checksum rest =>
    cases h
    have hport : record.externalPort = destination.toNat := hport
    have hexternal : (UInt16.ofNat record.externalPort).toNat = destination.toNat := by rw [hport, UInt16.ofNat_toNat]
    refine ⟨rfl, id, ⟨fun h => by (cases h), fun _ => rfl, rfl⟩, fun _ => ?_⟩
    have hmod := transportAdjust_mod record checksum (UInt16.ofNat record.externalPort)
      (UInt16.ofNat record.localPort) interface (UInt32.ofNat record.localIpAddress)
    have hword := inboundWord record destination
    rw [hexternal, ← hword] at hmod
    refine verifies_congr ?_ ?_ ?_
    · simp only [Datagram.transportWords, Datagram.pseudoWords, Transport.protocol, total_append, total_cons, total_nil]
      rw [hheader, hsource, hlength]
      dsimp only at hmod ⊢
      omega
    · exact transportWords_pos ⟨_, List.append_assoc _ _ _⟩
    · exact transportWords_pos ⟨_, List.append_assoc _ _ _⟩
  | udp source destination length checksum rest =>
    cases h
    have hport : record.externalPort = destination.toNat := hport
    have hexternal : (UInt16.ofNat record.externalPort).toNat = destination.toNat := by rw [hport, UInt16.ofNat_toNat]
    refine ⟨rfl, fun hzero => ?_, ⟨fun h => by (cases h), fun _ => rfl, rfl, rfl⟩, fun hsummed => ?_⟩
    · have hzero : checksum = 0 := hzero
      exact (if_pos hzero).trans hzero
    · rw [if_neg hsummed.2]
      have hmod := transportAdjust_mod record checksum (UInt16.ofNat record.externalPort)
        (UInt16.ofNat record.localPort) interface (UInt32.ofNat record.localIpAddress)
      have hword := inboundWord record destination
      rw [hexternal, ← hword] at hmod
      refine verifies_congr ?_ ?_ ?_
      · simp only [Datagram.transportWords, Datagram.pseudoWords, Transport.protocol, total_append, total_cons, total_nil]
        rw [hheader, hsource, hlength]
        dsimp only at hmod ⊢
        omega
      · exact transportWords_pos ⟨_, List.append_assoc _ _ _⟩
      · exact transportWords_pos ⟨_, List.append_assoc _ _ _⟩
  | icmp type code checksum identifier rest =>
    have h : (if type.toNat ≠ icmpEchoReplyType ∧ type.toNat ≠ icmpEchoRequestType then none
        else if type.toNat = icmpEchoReplyType ∧ record.externalPort ≠ record.localPort then
          some (Transport.icmp type code (checksumAdjust checksum [identifier] [UInt16.ofNat record.localPort])
            (UInt16.ofNat record.localPort) rest)
        else some (.icmp type code checksum identifier rest)) = some t := h
    split at h
    · cases h
    · split at h
      · cases h
        refine ⟨rfl, id, ⟨rfl, rfl, rfl⟩, fun hsummed => ?_⟩
        obtain ⟨hwas, his⟩ := hsummed
        have hmod := checksumAdjust_mod checksum [identifier] [UInt16.ofNat record.localPort]
        simp only [Transport.message, total_cons, total_nil] at hwas his hmod
        refine verifies_congr ?_ ?_ ?_
        · simp only [Datagram.transportWords, total_append, total_cons, total_nil]
          omega
        · simp only [Datagram.transportWords, total_append, total_cons, total_nil]
          omega
        · simp only [Datagram.transportWords, total_append, total_cons, total_nil]
          omega
      · cases h
        exact ⟨rfl, id, ⟨rfl, rfl, rfl⟩, fun _ => Iff.rfl⟩

theorem sendInbound_intact (hinv : Inv nat) (hip : d.view.destinationIp = nat.ip.interfaceIpAddress)
    (h : sendInbound nat d = some d') : Intact .inboundPacket d d' := by
  unfold sendInbound at h
  cases hrecord : inboundRecord (entryTimeoutCheck nat) (inboundEntry d.view) with
  | mk result last =>
    rw [inboundEntryFind, hrecord] at h
    cases result with
    | error status => cases h
    | ok record =>
      have hport := inboundRecord_port (entryTimeoutCheck_inv hinv) hrecord
      have hinterface : d.header.destinationIp = UInt32.ofNat nat.ip.interfaceIpAddress := by
        rw [← hip]
        exact (UInt32.ofNat_toNat).symm
      rw [withRoute] at h
      dsimp only at h
      split at h
      · cases h
      · rename_i found hfound
        split at hfound
        · cases hfound
          obtain ⟨t, ht, hd'⟩ := Option.map_eq_some_iff.mp h
          cases hd'
          obtain ⟨hprotocol, hunsummed, hsame, htransport⟩ := inboundTransport_kept
            (ipPacketSend d.header .inboundPacket (UInt32.ofNat nat.ip.interfaceIpAddress) (UInt32.ofNat record.localIpAddress))
            ht hport hinterface rfl rfl rfl
          exact intact_of_transport rfl (fun h => by cases h) (fun _ => hinterface) hprotocol htransport hunsummed hsame
        · cases hfound

end inbound

/-! ### Packets of a device -/

section run
variable {ip : Ip} {memory : List Nat} {time : ULONG} {actions : List Action} {nat : NatDevice}

/-- The packets that a device sends, whatever came before them, are intact; and an adjusted checksum is the one that the
    packet as it is now would be given. --/
theorem translated_intact (hrun : Run step Specified (create ip memory time) actions nat) :
    (∀ d d', sendOutbound nat d = some d' → Intact .outboundPacket d d') ∧
      (∀ d d', d.view.destinationIp = nat.ip.interfaceIpAddress → sendInbound nat d = some d' → Intact .inboundPacket d d') ∧
      ∀ old new rest, old ≠ [] → total (new ++ rest) ≠ 0 →
        checksumAdjust (OnesComplement.checksum (old ++ rest)) old new = OnesComplement.checksum (new ++ rest) := by
  have hinv := run_inv hrun (create_inv ip memory time)
  exact ⟨fun d d' h => sendOutbound_intact hinv h, fun d d' hip h => sendInbound_intact hinv hip h,
    fun old new rest hold hnew => checksumAdjust_checksum hold hnew⟩

end run

/-- A datagram of 192.168.0.2 to 198.51.100.9, with a fragment field. --/
def leaving (fragment : UInt16) (t : Transport) : Datagram :=
  ⟨⟨0x4500, 28, 7, fragment, 64, 0x1234, 0xC0A80002, 0xC6336409⟩, t⟩

/-- A datagram of 198.51.100.9 to the router. --/
def arriving (t : Transport) : Datagram := ⟨⟨0x4500, 28, 7, 0, 64, 0x1234, 0xC6336409, 0xCB007101⟩, t⟩

theorem translated_intact_router :
    Intact .outboundPacket (leaving 0 (.tcp 5000 80 0x4321 [1, 2]))
        ⟨⟨0x4500, 28, 7, 0, 64, 38620, 0xCB007101, 0xC6336409⟩, .tcp 20000 80 36145 [1, 2]⟩ ∧
      Intact .inboundPacket (arriving (.tcp 80 20000 0x4321 [1, 2]))
        ⟨⟨0x4500, 28, 7, 0, 64, 36235, 0xC6336409, 0xC0A80002⟩, .tcp 80 5000 63760 [1, 2]⟩ ∧
      checksumAdjust (OnesComplement.checksum [1]) [1] [2] = OnesComplement.checksum [2] := by
  have hrun : Run step Specified router [.packet false (leaving 0 (.tcp 5000 80 0x4321 [1, 2])).view]
      (step router (.packet false (leaving 0 (.tcp 5000 80 0x4321 [1, 2])).view)) :=
    Run.single fun _ => .inl ⟨by decide, by decide⟩
  refine ⟨(@translated_intact _ _ _ [] router .start).1 _ _ (by decide +kernel),
    (translated_intact hrun).2.1 _ _ rfl (by decide +kernel), (translated_intact hrun).2.2 [1] [2] [] ?_ ?_⟩
  · decide
  · decide

/-- A reassembled datagram with its fragment bit leaves without it, and a UDP datagram leaves without its checksum. --/
theorem fragment_cleared :
    ((sendOutbound router (leaving 0x2000 (.tcp 5000 80 0x4321 [1, 2]))).map fun d => d.header.fragment) = some 0 ∧
      (sendOutbound router (leaving 0 (.udp 5000 53 8 0x4321 []))).map Datagram.transport = some (.udp 20000 53 8 0 []) := by
  decide +kernel

end Netxduo.Translation
