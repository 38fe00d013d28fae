import Netxduo.Syncache.Cookie

/-! The options of a handshake in the SYN cache: what a SYN leaves in an entry, what the SYN-ACK puts on the wire, and
    what the ten bits of a cookie give back. -/

namespace Netxduo.Syncache

/-! ### The segment size -/

/-- `_nx_tcp_syncache_mss_table` --/
def mssTable : List ULONG :=
  [88, 216, 344, 472, 536, 640, 768, 896, 1024, 1152, 1220, 1280, 1380, 1440, 1452, 1460]

/-- The loop of `_nx_tcp_syncache_mss_encode`, from index `i` down. --/
def mssEncodeFrom (mss : ULONG) : Nat → Nat
  | 0 => 0
  | i + 1 => if mss ≥ mssTable.getD (i + 1) 0 then i + 1 else mssEncodeFrom mss i

/-- `_nx_tcp_syncache_mss_encode` --/
def mssEncode (mss : ULONG) : Nat := mssEncodeFrom mss 15

/-- `_nx_tcp_syncache_mss_decode` --/
def mssDecode (index : ULONG) : ULONG := mssTable.getD (index &&& 15).toNat 0

/-! ### What meets in a handshake -/

/-- The SYN of the peer. The scale is above 14 where the peer offers none; the segment size is the one it announced,
    or the default. --/
structure Syn where
  irs : ULONG
  window : ULONG
  mss : BitVec 16
  windowScale : ULONG
  sackPermitted : Bool
  timestamp : Option ULONG
deriving DecidableEq, Repr

/-- A listen request, with the segment size of the socket attached to it or recorded from the last one. The windows
    are below 2^30: `nxe_tcp_socket_create` refuses others. --/
structure Listen where
  rxWindow : ULONG
  rxWindowMaximum : ULONG
  mss : ULONG
  bound : rxWindow.toNat < 2 ^ 30 ∧ rxWindowMaximum.toNat < 2 ^ 30

/-- The way to the peer: the MTU of the interface, the version of IP, and the cap on the window. --/
structure Path where
  mtu : ULONG
  ipv6 : Bool
  rxWindowCap : ULONG
deriving DecidableEq, Repr

/-- `NX_TCP_SYNCACHE_NO_WINDOW_SCALE` --/
def noWindowScale : ULONG := 15

/-- The terms an entry of the cache holds. --/
structure Terms where
  irs : ULONG
  iss : ULONG
  peerWindow : ULONG
  peerMss : ULONG
  connectMss : ULONG
  sack : Bool
  timestamp : Bool
  tsRecent : ULONG
  sndWinScale : ULONG
  rcvWinScale : ULONG
  rxWindow : ULONG
  rxWindowMaximum : ULONG
  mss : ULONG
deriving DecidableEq, Repr

/-- The SYN-ACK on the wire. --/
structure SynAck where
  sequence : ULONG
  acknowledgment : ULONG
  mss : ULONG
  windowScale : Option ULONG
  sackPermitted : Bool
  timestamp : Option ULONG
  window : ULONG
deriving DecidableEq, Repr

/-! ### Entries -/

/-- `_nx_tcp_syncache_window` --/
def Listen.window (l : Listen) : ULONG := if l.rxWindow ≠ 0 then l.rxWindow else 8192

/-- `_nx_tcp_syncache_window_maximum` --/
def Listen.windowMaximum (l : Listen) : ULONG :=
  if l.rxWindowMaximum > l.window then l.rxWindowMaximum else l.window

/-- The segment size `_nx_tcp_syncache_terms` takes over. --/
def Listen.segmentSize (l : Listen) : ULONG := if l.mss > 0xFFFF then 0xFFFF else l.mss

/-- `_nx_tcp_syncache_fill`, the windows of the listen request and `_nx_tcp_syncache_terms`. --/
def fill (l : Listen) (irs window peerMss windowScale : ULONG) (sack timestamp : Bool) (timestampValue : ULONG) : Terms where
  irs := irs
  iss := 0
  peerWindow := window
  peerMss := peerMss &&& 0xFFFF
  connectMss := peerMss &&& 0xFFFF
  sack := sack
  timestamp := timestamp
  tsRecent := timestampValue
  sndWinScale := if windowScale > 14 then noWindowScale else windowScale
  rcvWinScale := 0
  rxWindow := l.window
  rxWindowMaximum := l.windowMaximum
  mss := l.segmentSize

/-- The segment size the interface allows. --/
def Path.interfaceMss (path : Path) : ULONG := (path.mtu - 20 - if path.ipv6 then 40 else 20) &&& 0xFFFF

/-- The segment size announced to the peer: the one of the socket where it is lower. --/
def Path.localMss (path : Path) (mss : ULONG) : ULONG :=
  if mss < path.interfaceMss ∧ mss ≠ 0 then mss else path.interfaceMss

/-- The least scale below `limit`, from `scale` on, that fits the window into 16 bits. --/
def scaleFrom (window : ULONG) (limit : Nat) : Nat → Nat → Nat
  | 0, scale => scale
  | steps + 1, scale =>
    if scale < limit then
      if window >>> scale < 65536 then scale else scaleFrom window limit steps (scale + 1)
    else scale

/-- `_nx_tcp_socket_rx_window_syn`, and the 16 bits of the header. --/
def Path.synWindow (path : Path) (window : ULONG) : ULONG :=
  let window := if path.rxWindowCap ≠ 0 ∧ window > path.rxWindowCap then path.rxWindowCap else window
  if window > 0xFFFF then 0xFFFF else window

/-- The scale `_nx_tcp_packet_send_syn` finds; 15 says that none fits. --/
def Terms.scaleFactor (e : Terms) : Nat :=
  scaleFrom (if e.rxWindowMaximum > e.rxWindow then e.rxWindowMaximum else e.rxWindow) 15 15 0

/-- `_nx_tcp_syncache_send_synack`, with `_nx_tcp_packet_send_syn` on the scratch socket. --/
def sendSynack (path : Path) (e : Terms) : SynAck × Terms :=
  let mss := path.localMss e.mss
  let connectMss := if mss < e.peerMss then mss else e.peerMss
  let timestamp := if e.timestamp then some e.tsRecent else none
  if e.sndWinScale ≠ noWindowScale then
    let scale := BitVec.ofNat 32 (if e.scaleFactor = 15 then 14 else e.scaleFactor)
    let window := if e.scaleFactor = 15 then 0x3FFFFFFF else e.rxWindow
    (⟨e.iss, e.irs + 1, mss, some scale, e.sack, timestamp, path.synWindow window⟩,
      { e with connectMss := connectMss, rcvWinScale := scale })
  else
    (⟨e.iss, e.irs + 1, mss, none, e.sack, timestamp, path.synWindow e.rxWindow⟩, { e with connectMss := connectMss })

/-! ### With an entry, and without -/

/-- The entry `_nx_tcp_syncache_syn_received` records, answered. --/
def cached (path : Path) (l : Listen) (syn : Syn) (iss : ULONG) : SynAck × Terms :=
  sendSynack path { fill l syn.irs syn.window (syn.mss.setWidth 32) syn.windowScale syn.sackPermitted
    syn.timestamp.isSome (syn.timestamp.getD 0) with iss := iss }

/-- `_nx_tcp_syncache_options_encode` --/
def optionsEncode (peerMss windowScale : ULONG) (sack timestamp : Bool) : ULONG :=
  let windowScale := if windowScale > 14 then noWindowScale else windowScale
  BitVec.ofNat 32 (mssEncode peerMss) ||| windowScale <<< 4 ||| (if sack then 0x100 else 0) |||
    if timestamp then 0x200 else 0

/-- The SYN-ACK `_nx_tcp_syncache_syn_received` sends without an entry; `iss` is the cookie. --/
def stateless (path : Path) (l : Listen) (syn : Syn) (iss : ULONG) : SynAck :=
  (sendSynack path { fill l syn.irs syn.window (syn.mss.setWidth 32) syn.windowScale syn.sackPermitted
    syn.timestamp.isSome (syn.timestamp.getD 0) with
    iss := iss
    peerMss := mssDecode (BitVec.ofNat 32 (mssEncode (syn.mss.setWidth 32))) }).1

/-- `_nx_tcp_syncache_local_terms` --/
def localTerms (path : Path) (e : Terms) : Terms :=
  let mss := if e.mss ≠ 0 ∧ e.mss < path.interfaceMss then e.mss else path.interfaceMss
  { e with
    connectMss := if mss < e.peerMss then mss else e.peerMss
    rcvWinScale := if e.sndWinScale ≠ noWindowScale then BitVec.ofNat 32 (scaleFrom e.rxWindowMaximum 14 14 0) else 0 }

/-- What `_nx_tcp_syncache_ack_received` makes of the option bits of a cookie and of the acknowledgment that brings it. --/
def rebuilt (path : Path) (l : Listen) (data irs cookie window : ULONG) (timestamp : Option ULONG) : Terms :=
  localTerms path { fill l irs window (mssDecode (data &&& 0x0F)) ((data >>> 4) &&& 0x0F) (data &&& 0x100 != 0)
    (data &&& 0x200 != 0) (timestamp.getD 0) with iss := cookie }

/-! ### The bits -/

section
variable {mss : ULONG} {n : Nat}

theorem mssEncodeFrom_spec (mss : ULONG) (h : n ≤ 15) :
    mssEncodeFrom mss n ≤ n ∧ (mssEncodeFrom mss n = 0 ∨ mssTable.getD (mssEncodeFrom mss n) 0 ≤ mss) := by
  induction n with
  | zero => exact ⟨Nat.le_refl 0, .inl rfl⟩
  | succ n ih =>
    obtain ⟨hle, hmss⟩ := ih (by omega)
    unfold mssEncodeFrom
    split
    · rename_i hge
      exact ⟨Nat.le_refl _, .inr hge⟩
    · exact ⟨by omega, hmss⟩

/-- Below the least entry every size is coded as the least entry. --/
theorem mssEncodeFrom_low (h : mss < 88) (hn : n ≤ 15) : mssEncodeFrom mss n = 0 := by
  induction n with
  | zero => rfl
  | succ n ih =>
    have htable : 88 ≤ mssTable.getD (n + 1) 0 := by
      have hall : ∀ i ∈ List.range 16, 88 ≤ mssTable.getD i 0 := by decide
      exact hall _ (List.mem_range.mpr (by omega))
    unfold mssEncodeFrom
    rw [if_neg]
    · exact ih (by omega)
    · rw [ge_iff_le, BitVec.not_le]
      rw [BitVec.lt_def] at h ⊢
      rw [BitVec.le_def] at htable
      exact Nat.lt_of_lt_of_le h htable

theorem mssDecode_encode (mss : ULONG) :
    mssDecode (BitVec.ofNat 32 (mssEncode mss)) = mssTable.getD (mssEncode mss) 0 := by
  obtain ⟨hle, -⟩ := mssEncodeFrom_spec mss (Nat.le_refl 15)
  rw [mssDecode, BitVec.toNat_and]
  congr 1
  have hmod : (BitVec.ofNat 32 (mssEncode mss)).toNat &&& 2 ^ 4 - 1 = (BitVec.ofNat 32 (mssEncode mss)).toNat % 2 ^ 4 :=
    Nat.and_two_pow_sub_one_eq_mod _ 4
  change _ &&& 2 ^ 4 - 1 = _
  rw [hmod, BitVec.toNat_ofNat]
  change mssEncode mss ≤ 15 at hle
  omega

/-- A coded size comes back no larger, unless it was below the least entry. --/
theorem mssDecode_le_iff : mssDecode (BitVec.ofNat 32 (mssEncode mss)) ≤ mss ↔ 88 ≤ mss := by
  obtain ⟨-, hmss⟩ := mssEncodeFrom_spec mss (Nat.le_refl 15)
  rw [mssDecode_encode]
  constructor
  · intro h
    by_contra hlow
    rw [mssEncode, mssEncodeFrom_low (BitVec.not_le.mp hlow) (Nat.le_refl 15)] at h
    exact hlow h
  · intro h
    rcases hmss with hzero | hmss
    · rw [mssEncode, hzero]
      exact h
    · exact hmss

/-- Decoding the bits gives back what was encoded. --/
theorem optionsEncode_fields (peerMss windowScale : ULONG) (sack timestamp : Bool) :
    let data := optionsEncode peerMss windowScale sack timestamp
    data &&& 0x0F = BitVec.ofNat 32 (mssEncode peerMss) ∧
      (data >>> 4) &&& 0x0F = (if windowScale > 14 then noWindowScale else windowScale) ∧
      (data &&& 0x100 != 0) = sack ∧ (data &&& 0x200 != 0) = timestamp := by
  have hall : ∀ i < 16, ∀ w < 16, ∀ sack timestamp : Bool,
      let data := BitVec.ofNat 32 i ||| BitVec.ofNat 32 w <<< 4 ||| (if sack then 0x100 else 0) |||
        if timestamp then 0x200 else (0 : ULONG)
      data &&& 0x0F = BitVec.ofNat 32 i ∧ (data >>> 4) &&& 0x0F = BitVec.ofNat 32 w ∧
        (data &&& 0x100 != 0) = sack ∧ (data &&& 0x200 != 0) = timestamp := by
    decide +kernel
  obtain ⟨hle, -⟩ := mssEncodeFrom_spec peerMss (Nat.le_refl 15)
  have hscale : ∃ w < 16, (if windowScale > 14 then noWindowScale else windowScale) = BitVec.ofNat 32 w := by
    split
    · exact ⟨15, by decide, rfl⟩
    · rename_i h
      refine ⟨windowScale.toNat, ?_, by simp⟩
      rw [gt_iff_lt, BitVec.not_lt, BitVec.le_def] at h
      exact Nat.lt_of_le_of_lt h (by decide)
  obtain ⟨w, hw, heq⟩ := hscale
  unfold optionsEncode
  dsimp only
  rw [heq]
  exact hall (mssEncode peerMss) (Nat.lt_succ_of_le hle) w hw sack timestamp

/-! ### The scale -/

theorem scaleFrom_succ (window : ULONG) {limit scale : Nat} (steps : Nat) (h : scale < limit) :
    scaleFrom window limit (steps + 1) scale =
      if window >>> scale < 65536 then scale else scaleFrom window limit steps (scale + 1) := by
  rw [scaleFrom, if_pos h]

/-- The two searches for a scale agree. --/
theorem scaleFrom_agree (window : ULONG) {steps scale : Nat} (h : scale + steps = 14) :
    (if scaleFrom window 15 (steps + 1) scale = 15 then 14 else scaleFrom window 15 (steps + 1) scale) =
      scaleFrom window 14 steps scale := by
  induction steps generalizing scale with
  | zero =>
    obtain rfl : scale = 14 := by omega
    rw [scaleFrom_succ window 0 (by decide)]
    by_cases hfit : window >>> 14 < 65536
    · rw [if_pos hfit]
      rfl
    · rw [if_neg hfit]
      rfl
  | succ steps ih =>
    rw [scaleFrom_succ window (steps + 1) (show scale < 15 by omega), scaleFrom_succ window steps (show scale < 14 by omega)]
    by_cases hfit : window >>> scale < 65536
    · rw [if_pos hfit, if_pos hfit, if_neg (by omega)]
    · rw [if_neg hfit, if_neg hfit]
      exact ih (by omega)

/-- A window below 2^30 fits at some scale. --/
theorem scaleFrom_fits {window : ULONG} (hw : window.toNat < 2 ^ 30) {steps scale : Nat} (h : scale + steps = 14) :
    scaleFrom window 15 (steps + 1) scale ≠ 15 := by
  induction steps generalizing scale with
  | zero =>
    obtain rfl : scale = 14 := by omega
    have hfit : window >>> 14 < 65536 := by
      rw [BitVec.lt_def, BitVec.toNat_ushiftRight, Nat.shiftRight_eq_div_pow]
      change _ < 65536
      omega
    rw [scaleFrom_succ window 0 (by decide), if_pos hfit]
    decide
  | succ steps ih =>
    rw [scaleFrom_succ window (steps + 1) (by omega)]
    split
    · omega
    · exact ih (by omega)

/-! ### Both ways agree -/

/-- The connection has the options that stand on the wire. --/
structure OnWire (path : Path) (wire : SynAck) (e : Terms) : Prop where
  sequence : wire.sequence = e.iss ∧ wire.acknowledgment = e.irs + 1
  windowScale : wire.windowScale = if e.sndWinScale = noWindowScale then none else some e.rcvWinScale
  sack : wire.sackPermitted = e.sack
  timestamp : wire.timestamp.isSome = e.timestamp
  window : wire.window = path.synWindow e.rxWindow

/-- The options are those of the other entry. --/
structure SameTerms (e e' : Terms) : Prop where
  sndWinScale : e.sndWinScale = e'.sndWinScale
  rcvWinScale : e.rcvWinScale = e'.rcvWinScale
  sack : e.sack = e'.sack
  timestamp : e.timestamp = e'.timestamp
  rxWindow : e.rxWindow = e'.rxWindow ∧ e.rxWindowMaximum = e'.rxWindowMaximum
  mss : e.mss = e'.mss

variable (path : Path) (l : Listen) (syn : Syn) (cookie iss window : ULONG) (timestamp : Option ULONG)

theorem Listen.windowMaximum_spec (l : Listen) : l.windowMaximum.toNat < 2 ^ 30 ∧ ¬l.window > l.windowMaximum := by
  have hwindow : l.window.toNat < 2 ^ 30 := by
    unfold Listen.window
    split
    · exact l.bound.1
    · decide
  unfold Listen.windowMaximum
  split
  · rename_i h
    rw [gt_iff_lt, BitVec.lt_def] at h
    exact ⟨l.bound.2, by rw [gt_iff_lt, BitVec.lt_def]; omega⟩
  · exact ⟨hwindow, by simp⟩

/-- The scale of the SYN-ACK is the one `localTerms` computes. --/
theorem scaleFactor_spec {l : Listen} {e : Terms} (hw : e.rxWindow = l.window) (hm : e.rxWindowMaximum = l.windowMaximum) :
    e.scaleFactor ≠ 15 ∧
      (if e.scaleFactor = 15 then 14 else e.scaleFactor) = scaleFrom e.rxWindowMaximum 14 14 0 := by
  obtain ⟨hbound, hle⟩ := l.windowMaximum_spec
  have hsame : (if e.rxWindowMaximum > e.rxWindow then e.rxWindowMaximum else e.rxWindow) = e.rxWindowMaximum := by
    split
    · rfl
    · rename_i hge
      rw [hm, hw] at hge ⊢
      rw [gt_iff_lt, BitVec.lt_def] at hle hge
      exact BitVec.eq_of_toNat_eq (by omega)
  rw [← hm] at hbound
  unfold Terms.scaleFactor
  rw [hsame]
  exact ⟨scaleFrom_fits hbound (by decide), scaleFrom_agree e.rxWindowMaximum (by decide)⟩

/-- The SYN-ACK of an entry, and the connection its own terms make. --/
theorem sendSynack_spec {l : Listen} {e : Terms} (hw : e.rxWindow = l.window) (hm : e.rxWindowMaximum = l.windowMaximum)
    (hr : e.rcvWinScale = 0) :
    (sendSynack path e).2 = { localTerms path e with connectMss := (sendSynack path e).2.connectMss } ∧
      OnWire path (sendSynack path e).1 (sendSynack path e).2 := by
  obtain ⟨hfits, hagree⟩ := scaleFactor_spec hw hm
  unfold sendSynack localTerms
  by_cases h : e.sndWinScale = noWindowScale
  · rw [if_neg (not_not.mpr h), if_neg (not_not.mpr h)]
    refine ⟨by rw [← hr], ⟨rfl, rfl⟩, by rw [if_pos h], rfl, ?_, rfl⟩
    cases e.timestamp <;> rfl
  · rw [if_pos h, if_pos h, hagree]
    dsimp only
    rw [if_neg hfits]
    refine ⟨rfl, ⟨rfl, rfl⟩, by rw [if_neg h], rfl, ?_, rfl⟩
    cases e.timestamp <;> rfl

theorem mssDecode_16 (index : ULONG) : mssDecode index &&& 0xFFFF = mssDecode index := by
  have hall : ∀ i ∈ List.range 16, mssTable.getD i 0 &&& 0xFFFF = mssTable.getD i 0 := by decide
  rw [mssDecode]
  apply hall
  rw [List.mem_range, BitVec.toNat_and]
  exact Nat.lt_of_le_of_lt Nat.and_le_right (by decide)

/-- The terms of the SYN-ACK, of the connection a cookie rebuilds, and of the one an entry would have made. --/
theorem rebuilt_terms :
    let data := optionsEncode (syn.mss.setWidth 32) syn.windowScale syn.sackPermitted syn.timestamp.isSome
    let e := rebuilt path l data syn.irs cookie window timestamp
    let peer := mssDecode (BitVec.ofNat 32 (mssEncode (syn.mss.setWidth 32)))
    OnWire path (stateless path l syn cookie) e ∧ SameTerms e (cached path l syn iss).2 ∧
      e.connectMss = if path.localMss e.mss < peer then path.localMss e.mss else peer := by
  obtain ⟨hindex, hscale, hsack, htime⟩ :=
    optionsEncode_fields (syn.mss.setWidth 32) syn.windowScale syn.sackPermitted syn.timestamp.isSome
  dsimp only at hindex hscale hsack htime ⊢
  have hsnd : (if (if syn.windowScale > 14 then noWindowScale else syn.windowScale) > 14 then noWindowScale
      else if syn.windowScale > 14 then noWindowScale else syn.windowScale) =
      if syn.windowScale > 14 then noWindowScale else syn.windowScale := by
    by_cases h : syn.windowScale > 14
    · rw [if_pos h]
      rfl
    · rw [if_neg h, if_neg h]
  rw [rebuilt, hindex, hscale, hsack, htime, fill, hsnd, mssDecode_16]
  refine ⟨?_, ?_, ?_⟩
  · obtain ⟨heq, hwire⟩ := @sendSynack_spec path l { fill l syn.irs syn.window (syn.mss.setWidth 32) syn.windowScale
        syn.sackPermitted syn.timestamp.isSome (syn.timestamp.getD 0) with
      iss := cookie
      peerMss := mssDecode (BitVec.ofNat 32 (mssEncode (syn.mss.setWidth 32))) } rfl rfl rfl
    rw [heq] at hwire
    exact ⟨hwire.sequence, hwire.windowScale, hwire.sack, hwire.timestamp, hwire.window⟩
  · obtain ⟨heq, -⟩ := @sendSynack_spec path l { fill l syn.irs syn.window (syn.mss.setWidth 32) syn.windowScale
        syn.sackPermitted syn.timestamp.isSome (syn.timestamp.getD 0) with iss := iss } rfl rfl rfl
    rw [cached, heq]
    exact ⟨rfl, rfl, rfl, rfl, ⟨rfl, rfl⟩, rfl⟩
  · simp only [localTerms, Path.localMss, and_comm]

/-- A connection rebuilt from a cookie holds the options of its SYN-ACK, and those an entry would hold; its segments
    are no larger than the peer announced just where the least size of the table, or the own one, is not. --/
theorem cookie_agrees_iff (path : Path) (l : Listen) (syn : Syn) (cookie iss window : ULONG) (timestamp : Option ULONG) :
    let data := optionsEncode (syn.mss.setWidth 32) syn.windowScale syn.sackPermitted syn.timestamp.isSome
    let e := rebuilt path l data syn.irs cookie window timestamp
    (e.connectMss ≤ syn.mss.setWidth 32 ∧ OnWire path (stateless path l syn cookie) e ∧
      SameTerms e (cached path l syn iss).2) ↔
      88 ≤ (syn.mss.setWidth 32 : ULONG) ∨ path.localMss l.segmentSize ≤ syn.mss.setWidth 32 := by
  obtain ⟨hwire, hsame, hmss⟩ := rebuilt_terms path l syn cookie iss window timestamp
  dsimp only at hwire hsame hmss ⊢
  change _ = if path.localMss l.segmentSize < _ then path.localMss l.segmentSize else _ at hmss
  generalize path.localMss l.segmentSize = own at hmss ⊢
  rw [hmss]
  have hpeer : mssDecode (BitVec.ofNat 32 (mssEncode (syn.mss.setWidth 32))) ≤ syn.mss.setWidth 32 ↔ _ := mssDecode_le_iff
  constructor
  · rintro ⟨hle, -, -⟩
    split at hle
    · exact .inr hle
    · exact .inl (hpeer.mp hle)
  · intro h
    refine ⟨?_, hwire, hsame⟩
    split
    · rename_i hlt
      rcases h with h | h
      · rw [BitVec.lt_def] at hlt
        have hle := hpeer.mpr h
        rw [BitVec.le_def] at hle ⊢
        omega
      · exact h
    · rename_i hge
      rcases h with h | h
      · exact hpeer.mpr h
      · rw [BitVec.not_lt, BitVec.le_def] at hge
        rw [BitVec.le_def] at h ⊢
        omega

/-- A peer that takes 64 octets a segment is sent 88. --/
theorem cookie_mss_rounds_up :
    ¬∀ (path : Path) (l : Listen) (syn : Syn) (cookie window : ULONG) (timestamp : Option ULONG),
      (rebuilt path l (optionsEncode (syn.mss.setWidth 32) syn.windowScale syn.sackPermitted syn.timestamp.isSome) syn.irs
        cookie window timestamp).connectMss ≤ syn.mss.setWidth 32 := by
  intro h
  exact absurd (h ⟨1500, false, 0⟩ ⟨8192, 8192, 1460, by decide⟩ ⟨1, 1000, 64, 7, true, none⟩ 5 1000 none) (by decide)

end

end Netxduo.Syncache
