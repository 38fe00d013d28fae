import Mathlib

/-! The headers between an IPv6 header and what it carries: the walk over the options of one
    (`_nx_ipv6_process_hop_by_hop_option`), and the loop over the headers (`_nx_ip_dispatch_process`). Counters, ICMPv6
    messages and IPsec are not built in. -/

namespace Netxduo.Ip

/-! ### The source -/

inductive OptionStatus where
  | success
  | optionHeaderError
deriving DecidableEq, Repr

/-- `_nx_ipv6_option_error`: the two upper bits of the type say whether the packet is discarded. --/
def optionError (optionType : UInt8) : OptionStatus :=
  if optionType >>> 6 = 0 then .success else .optionHeaderError

/-- An octet at the prepend pointer; behind the append pointer there is what the memory holds. --/
def octetAt (s : List UInt8) (beyond : Nat → UInt8) (i : Nat) : UInt8 := (s[i]?).getD (beyond i)

/-- What a walk read, and what it returned, if it did. --/
structure Walk where
  reads : List Nat
  status : Option OptionStatus
deriving DecidableEq, Repr

/-- Octets were read before. --/
def Walk.after (reads : List Nat) (w : Walk) : Walk := ⟨reads ++ w.reads, w.status⟩

/-- The loop over the options; `headerLength` is signed. --/
def optionLoop (s : List UInt8) (beyond : Nat → UInt8) : Nat → Int → Nat → Walk
  | 0, headerLength, _ => if headerLength > 0 then ⟨[], none⟩ else ⟨[], some .success⟩
  | fuel + 1, headerLength, offset =>
    if headerLength > 0 then
      let optionType := octetAt s beyond offset
      if optionType = 0 then (optionLoop s beyond fuel (headerLength - 1) (offset + 1)).after [offset]
      else if optionType = 1 ∨ optionError optionType = .success then
        let optionLength := (octetAt s beyond (offset + 1)).toNat
        (optionLoop s beyond fuel (headerLength - (optionLength + 2)) (offset + (optionLength + 2))).after
          [offset, offset + 1]
      else ⟨[offset], some .optionHeaderError⟩
    else ⟨[], some .success⟩

/-- The length of a header: its second octet counts units of eight octets behind the first one. --/
def extensionLength (s : List UInt8) (beyond : Nat → UInt8) : Nat := ((octetAt s beyond 1).toNat + 1) * 8

/-- `_nx_ipv6_process_hop_by_hop_option`, on what lies between the prepend and the append pointer. --/
def processHopByHopOption (s : List UInt8) (beyond : Nat → UInt8) : Walk :=
  if s.length < 2 then ⟨[], some .optionHeaderError⟩
  else if s.length < extensionLength s beyond then ⟨[1, 2], some .optionHeaderError⟩
  else
    (optionLoop s beyond (extensionLength s beyond) ((extensionLength s beyond : Int) - 2) 2).after [1]

/-! ### The grammar -/

/-- Options one after the other: Pad1, or a type, a length and as many octets. --/
inductive Options : List UInt8 → Prop
  | nil : Options []
  | pad1 {rest : List UInt8} : Options rest → Options (0 :: rest)
  | option {t len : UInt8} {data rest : List UInt8} : t ≠ 0 → data.length = len.toNat → Options rest →
      Options (t :: len :: (data ++ rest))

/-- A type for which the packet is discarded. --/
def Discards (t : UInt8) : Prop := t ≠ 1 ∧ optionError t ≠ .success

/-- Options one after the other, to the end or to one for which the packet is discarded. --/
inductive Readable : List UInt8 → Prop
  | nil : Readable []
  | pad1 {rest : List UInt8} : Readable rest → Readable (0 :: rest)
  | option {t len : UInt8} {data rest : List UInt8} : t ≠ 0 → data.length = len.toNat → Readable rest →
      Readable (t :: len :: (data ++ rest))
  | discarded {t : UInt8} {rest : List UInt8} : t ≠ 0 → Discards t → Readable (t :: rest)

/-- The options of a header that is there as a whole. --/
def optionArea (s : List UInt8) : List UInt8 := (s.take (extensionLength s fun _ => 0)).drop 2

/-- What is promised of the walk over a header: it ends, it reads octets of the header only, and it accepts nothing but
    options that fill it. --/
structure Sound (s : List UInt8) (w : Walk) : Prop where
  ends : w.status ≠ none
  inside : ∀ i ∈ w.reads, i < extensionLength s (fun _ => 0) ∧ i < s.length
  exact : w.status = some .success → extensionLength s (fun _ => 0) ≤ s.length ∧ Options (optionArea s)

section walk
variable {s : List UInt8} {beyond : Nat → UInt8} {rest data : List UInt8} {t len : UInt8}

theorem options_pad1 : Options (0 :: rest) ↔ Options rest := by
  refine ⟨fun h => ?_, Options.pad1⟩
  cases h with
  | pad1 h => exact h
  | option h => exact absurd rfl h

theorem readable_pad1 : Readable (0 :: rest) ↔ Readable rest := by
  refine ⟨fun h => ?_, Readable.pad1⟩
  cases h with
  | pad1 h => exact h
  | option h => exact absurd rfl h
  | discarded h => exact absurd rfl h

/-- An option has a length, and as many octets behind it. --/
theorem options_option (ht : t ≠ 0) :
    Options (t :: rest) ↔ ∃ len tail, rest = len :: tail ∧ len.toNat ≤ tail.length ∧ Options (tail.drop len.toNat) := by
  constructor
  · intro h
    cases h with
    | pad1 => exact absurd rfl ht
    | @option _ len data more _ hlen hmore =>
      refine ⟨len, data ++ more, rfl, ?_, ?_⟩
      · rw [List.length_append]
        omega
      · rw [← hlen, List.drop_left]
        exact hmore
  · rintro ⟨len, tail, rfl, hle, hmore⟩
    have h := Options.option ht (List.length_take_of_le hle) hmore
    rw [List.take_append_drop] at h
    exact h

theorem readable_option (ht : t ≠ 0) (hkeep : ¬ Discards t) :
    Readable (t :: rest) ↔
      ∃ len tail, rest = len :: tail ∧ len.toNat ≤ tail.length ∧ Readable (tail.drop len.toNat) := by
  constructor
  · intro h
    cases h with
    | pad1 => exact absurd rfl ht
    | @option _ len data more _ hlen hmore =>
      refine ⟨len, data ++ more, rfl, ?_, ?_⟩
      · rw [List.length_append]
        omega
      · rw [← hlen, List.drop_left]
        exact hmore
    | discarded _ h => exact absurd h hkeep
  · rintro ⟨len, tail, rfl, hle, hmore⟩
    have h := Readable.option ht (List.length_take_of_le hle) hmore
    rw [List.take_append_drop] at h
    exact h

theorem octetAt_eq {i : Nat} (hi : i < s.length) : octetAt s beyond i = s[i] := by
  unfold octetAt
  rw [List.getElem?_eq_getElem hi]
  rfl

/-- The loop ends; and where the header is there as a whole, it is as promised exactly where its options are
    readable. --/
theorem optionLoop_spec {length fuel offset : Nat} (hlength : length ≤ s.length) (hoffset : offset ≤ length)
    (hfuel : length - offset ≤ fuel) :
    (optionLoop s beyond fuel ((length : Int) - offset) offset).status ≠ none ∧
      (((∀ i ∈ (optionLoop s beyond fuel ((length : Int) - offset) offset).reads, i < length) ∧
          ((optionLoop s beyond fuel ((length : Int) - offset) offset).status = some .success →
            Options ((s.take length).drop offset))) ↔
        Readable ((s.take length).drop offset)) := by
  have htake : (s.take length).length = length := List.length_take_of_le hlength
  induction fuel generalizing offset with
  | zero =>
    obtain rfl : offset = length := by omega
    have hnil : (s.take offset).drop offset = [] := List.drop_eq_nil_of_le (by omega)
    rw [optionLoop, if_neg (by omega), hnil]
    exact ⟨(fun h => by cases h), fun _ => Readable.nil, fun _ => ⟨List.forall_mem_nil _, fun _ => Options.nil⟩⟩
  | succ fuel ih =>
    rw [optionLoop]
    by_cases hend : offset = length
    · subst hend
      have hnil : (s.take offset).drop offset = [] := List.drop_eq_nil_of_le (by omega)
      rw [if_neg (by omega), hnil]
      exact ⟨(fun h => by cases h), fun _ => Readable.nil, fun _ => ⟨List.forall_mem_nil _, fun _ => Options.nil⟩⟩
    have hlt : offset < length := by omega
    rw [if_pos (by omega)]
    have hoctet : octetAt s beyond offset = s[offset] := octetAt_eq (by omega)
    have harea : (s.take length).drop offset = s[offset] :: (s.take length).drop (offset + 1) := by
      rw [List.drop_eq_getElem_cons (by omega), List.getElem_take]
    rw [hoctet, harea]
    dsimp only
    by_cases hpad : s[offset] = 0
    · rw [if_pos hpad, hpad, options_pad1, readable_pad1]
      obtain ⟨hends, hiff⟩ := @ih (offset + 1) (by omega) (by omega)
      have hcast : (length : Int) - offset - 1 = (length : Int) - ((offset + 1 : Nat) : Int) := by omega
      rw [hcast]
      refine ⟨hends, ?_⟩
      rw [← hiff]
      show ((∀ i ∈ offset :: _, i < length) ∧ _) ↔ _
      rw [List.forall_mem_cons]
      exact ⟨fun h => ⟨h.1.2, h.2⟩, fun h => ⟨⟨hlt, h.1⟩, h.2⟩⟩
    rw [if_neg hpad]
    by_cases hskip : s[offset] = 1 ∨ optionError s[offset] = .success
    · rw [if_pos hskip, options_option hpad, readable_option hpad (fun h => by
        rcases hskip with h1 | h2
        · exact h.1 h1
        · exact h.2 h2)]
      by_cases hcut : offset + 1 < length
      · have hlen : octetAt s beyond (offset + 1) = s[offset + 1] := octetAt_eq (by omega)
        have htail : (s.take length).drop (offset + 1) = s[offset + 1] :: (s.take length).drop (offset + 2) := by
          rw [List.drop_eq_getElem_cons (by omega), List.getElem_take]
        have hrest : ((s.take length).drop (offset + 2)).length = length - (offset + 2) := by
          rw [List.length_drop, htake]
        rw [hlen]
        have hcast : (length : Int) - offset - (((s[offset + 1].toNat : Nat) : Int) + 2) =
            (length : Int) - ((offset + (s[offset + 1].toNat + 2) : Nat) : Int) := by omega
        rw [hcast]
        by_cases hfits : offset + (s[offset + 1].toNat + 2) ≤ length
        · obtain ⟨hends, hiff⟩ := @ih (offset + (s[offset + 1].toNat + 2)) hfits (by omega)
          have hdrop : ((s.take length).drop (offset + 2)).drop s[offset + 1].toNat =
              (s.take length).drop (offset + (s[offset + 1].toNat + 2)) := by
            rw [List.drop_drop]
            congr 1
            omega
          have hexists : ∀ P : List UInt8 → Prop, (∃ len tail, (s.take length).drop (offset + 1) = len :: tail ∧
              len.toNat ≤ tail.length ∧ P (tail.drop len.toNat)) ↔
              P ((s.take length).drop (offset + (s[offset + 1].toNat + 2))) := by
            intro P
            constructor
            · rintro ⟨len, tail, heq, -, hP⟩
              rw [htail] at heq
              cases heq
              rw [← hdrop]
              exact hP
            · intro hP
              refine ⟨_, _, htail, by omega, ?_⟩
              rw [hdrop]
              exact hP
          rw [hexists, hexists, ← hiff]
          refine ⟨hends, ?_⟩
          show ((∀ i ∈ offset :: (offset + 1) :: _, i < length) ∧ _) ↔ _
          rw [List.forall_mem_cons, List.forall_mem_cons]
          exact ⟨fun h => ⟨h.1.2.2, h.2⟩, fun h => ⟨⟨hlt, hcut, h.1⟩, h.2⟩⟩
        · -- The option runs over the end of the header, and the loop takes it for the end.
          have hdone : ∀ n : Nat, optionLoop s beyond n
              ((length : Int) - ((offset + (s[offset + 1].toNat + 2) : Nat) : Int))
              (offset + (s[offset + 1].toNat + 2)) = ⟨[], some .success⟩ := by
            intro n
            cases n with
            | zero => rw [optionLoop, if_neg (by omega)]
            | succ n => rw [optionLoop, if_neg (by omega)]
          have hnone : ∀ P : List UInt8 → Prop, ¬ ∃ len tail, (s.take length).drop (offset + 1) = len :: tail ∧
              len.toNat ≤ tail.length ∧ P (tail.drop len.toNat) := by
            rintro P ⟨len, tail, heq, hle, -⟩
            rw [htail] at heq
            cases heq
            omega
          rw [hdone]
          exact ⟨(fun h => by cases h), fun h => absurd (h.2 rfl) (hnone _), fun h => absurd h (hnone _)⟩
      · -- The length would lie behind the header.
        have hlast : (s.take length).drop (offset + 1) = [] := List.drop_eq_nil_of_le (by omega)
        have hdone : ∀ (n : Nat) (len : UInt8), optionLoop s beyond n ((length : Int) - offset - ((len.toNat : Int) +
          2))
            (offset + (len.toNat + 2)) = ⟨[], some .success⟩ := by
          intro n len
          cases n with
          | zero => rw [optionLoop, if_neg (by omega)]
          | succ n => rw [optionLoop, if_neg (by omega)]
        have hnone : ∀ P : List UInt8 → Prop, ¬ ∃ len tail, (s.take length).drop (offset + 1) = len :: tail ∧
            len.toNat ≤ tail.length ∧ P (tail.drop len.toNat) := by
          rintro P ⟨len, tail, heq, -, -⟩
          rw [hlast] at heq
          cases heq
        rw [hdone]
        exact ⟨(fun h => by cases h), fun h => absurd (h.2 rfl) (hnone _), fun h => absurd h (hnone _)⟩
    · rw [if_neg hskip]
      rw [not_or] at hskip
      refine ⟨(fun h => by cases h), fun _ => Readable.discarded hpad hskip, fun _ => ⟨?_, (fun h => by cases h)⟩⟩
      exact List.forall_mem_singleton.mpr hlt

/-- When the walk over a header is as promised: the header is cut so that its length or its first option is missing, or
    it is there as a whole and no option that is reached runs over its end. --/
def Walkable (s : List UInt8) : Prop :=
  s.length < 2 ∨ (2 < s.length ∧ s.length < extensionLength s fun _ => 0) ∨
    ((extensionLength s fun _ => 0) ≤ s.length ∧ Readable (optionArea s))

theorem extensionLength_eq (hs : 2 ≤ s.length) : extensionLength s beyond = extensionLength s fun _ => 0 := by
  unfold extensionLength
  rw [octetAt_eq (by omega), octetAt_eq (by omega)]

theorem processHopByHopOption_sound : Sound s (processHopByHopOption s beyond) ↔ Walkable s := by
  unfold processHopByHopOption
  by_cases hshort : s.length < 2
  · rw [if_pos hshort]
    refine ⟨fun _ => Or.inl hshort, fun _ => ⟨?_, List.forall_mem_nil _, ?_⟩⟩
    · exact (fun h => by cases h)
    · exact (fun h => by cases h)
  rw [if_neg hshort, extensionLength_eq (by omega)]
  have height : 8 ≤ extensionLength s fun _ => 0 := by
    unfold extensionLength
    omega
  by_cases hcut : s.length < extensionLength s fun _ => 0
  · rw [if_pos hcut]
    constructor
    · intro h
      have htwo := h.inside 2 (by decide)
      exact Or.inr (Or.inl ⟨htwo.2, hcut⟩)
    · rintro (h | ⟨h, -⟩ | ⟨h, -⟩)
      · exact absurd h hshort
      · refine ⟨(fun h => by cases h), fun i hi => ?_, (fun h => by cases h)⟩
        rcases List.mem_pair.mp hi with rfl | rfl
        · exact ⟨by omega, by omega⟩
        · exact ⟨by omega, h⟩
      · omega
  · rw [if_neg hcut]
    have hwhole := Nat.le_of_not_lt hcut
    obtain ⟨hends, hiff⟩ := @optionLoop_spec s beyond (extensionLength s fun _ => 0) (extensionLength s fun _ => 0) 2
      hwhole (by omega) (by omega)
    have hcast : ((extensionLength s fun _ => 0 : Nat) : Int) - ((2 : Nat) : Int) =
        ((extensionLength s fun _ => 0 : Nat) : Int) - 2 := rfl
    rw [hcast] at hends hiff
    constructor
    · intro h
      refine Or.inr (Or.inr ⟨hwhole, hiff.mp ⟨fun i hi => ?_, fun hsuccess => (h.exact hsuccess).2⟩⟩)
      exact (h.inside i (List.mem_append_right _ hi)).1
    · rintro (h | ⟨-, h⟩ | ⟨-, h⟩)
      · exact absurd h hshort
      · exact absurd h hcut
      · obtain ⟨hinside, hexact⟩ := hiff.mpr h
        refine ⟨hends, fun i hi => ?_, fun hsuccess => ⟨hwhole, hexact hsuccess⟩⟩
        rcases List.mem_append.mp hi with hi | hi
        · obtain rfl := List.mem_singleton.mp hi
          exact ⟨by omega, by omega⟩
        · have hlt := hinside i hi
          exact ⟨hlt, by omega⟩

end walk

/-! ### The loop over the headers -/

/-- An IPv6 packet in `_nx_ip_dispatch_process`: what lies between the pointers, how far behind the IPv6 header that
    is, the length of the whole packet, the protocol, and what was seen before. --/
structure Dispatch where
  octets : List UInt8
  offset : Nat
  length : Nat
  protocol : UInt8
  optionState : Nat
  destinationHeader : Nat
deriving DecidableEq, Repr

/-- What the loop asks: what the memory holds behind the IPv6 header, and whether the fragment header says that the
    packet is whole. --/
structure DispatchEnvironment where
  beyond : Nat → UInt8
  fragmentContinues : List UInt8 → Bool

def protocolHopByHop : UInt8 := 0
def protocolRouting : UInt8 := 43
def protocolFragment : UInt8 := 44
def protocolDestination : UInt8 := 60

def hopByHopHeader : Nat := 1
def destinationHeader1 : Nat := 2
def routingHeader : Nat := 3
def fragmentHeader : Nat := 4
def destinationHeader2 : Nat := 5

namespace Dispatch
variable (env : DispatchEnvironment) (d : Dispatch)

/-- The options of a header that is read option by option. --/
def options (d : Dispatch) : Option Dispatch :=
  if (processHopByHopOption d.octets fun i => env.beyond (d.offset + i)).status = some .success then some d else none

/-- `_nx_ipv6_process_routing_option` --/
def routing (d : Dispatch) : Option Dispatch :=
  if d.length < 8 then none else if octetAt d.octets (fun i => env.beyond (d.offset + i)) 3 = 0 then some d else none

/-- The header that is first, where it is one of an option; all else leaves the loop. --/
def header : Option Dispatch :=
  if d.protocol = protocolHopByHop then
    if d.optionState ≥ hopByHopHeader then none else options env { d with optionState := hopByHopHeader }
  else if d.protocol = protocolDestination then
    if d.destinationHeader ≥ 1 then
      if d.optionState < destinationHeader1 ∨ d.destinationHeader > 1 then none
      else options env { d with optionState := destinationHeader2, destinationHeader := d.destinationHeader + 1 }
    else if d.optionState < routingHeader then
      options env { d with optionState := destinationHeader1, destinationHeader := d.destinationHeader + 1 }
    else options env { d with optionState := destinationHeader2, destinationHeader := d.destinationHeader + 1 }
  else if d.protocol = protocolRouting then
    if d.optionState ≥ routingHeader then none else routing env { d with optionState := routingHeader }
  else if d.protocol = protocolFragment then
    if d.optionState ≥ fragmentHeader then none
    else if env.fragmentContinues d.octets then some { d with optionState := fragmentHeader } else none
  else none

/-- The header is left behind, unless it is the end of the buffer. --/
def advance (d : Dispatch) : Option Dispatch :=
  let optionHdrLen := if d.protocol = protocolFragment then 8 else extensionLength d.octets fun i =>
    env.beyond (d.offset + i)
  if optionHdrLen < d.octets.length then
    some { d with
      octets := d.octets.drop optionHdrLen
      offset := d.offset + optionHdrLen
      length := d.length - optionHdrLen
      protocol := octetAt d.octets (fun i => env.beyond (d.offset + i)) 0 }
  else none

/-- One turn of the loop; none where the packet is dropped or handed on. --/
def step : Option Dispatch := (header env d).bind (advance env)

/-- `_nx_ip_dispatch_process`: the offsets of the headers it looks at, and whether it comes to an end. --/
def process : Nat → Dispatch → List Nat × Bool
  | 0, _ => ([], false)
  | fuel + 1, d =>
    match step env d with
    | none => ([d.offset], true)
    | some d' => (d.offset :: (process fuel d').1, (process fuel d').2)

end Dispatch

section dispatch
variable {env : DispatchEnvironment} {d d' : Dispatch}

theorem options_octets (h : Dispatch.options env d = some d') : d'.octets = d.octets ∧ d'.offset = d.offset := by
  unfold Dispatch.options at h
  split at h
  · cases h
    exact ⟨rfl, rfl⟩
  · cases h

theorem routing_octets (h : Dispatch.routing env d = some d') : d'.octets = d.octets ∧ d'.offset = d.offset := by
  unfold Dispatch.routing at h
  split at h
  · cases h
  split at h
  · cases h
    exact ⟨rfl, rfl⟩
  · cases h

theorem header_octets (h : Dispatch.header env d = some d') : d'.octets = d.octets ∧ d'.offset = d.offset := by
  unfold Dispatch.header at h
  split at h
  · split at h
    · cases h
    · have hd := options_octets h
      exact hd
  split at h
  · split at h
    · split at h
      · cases h
      · have hd := options_octets h
        exact hd
    · split at h
      · have hd := options_octets h
        exact hd
      · have hd := options_octets h
        exact hd
  split at h
  · split at h
    · cases h
    · have hd := routing_octets h
      exact hd
  split at h
  · split at h
    · cases h
    · split at h
      · cases h
        exact ⟨rfl, rfl⟩
      · cases h
  · cases h

/-- A turn that goes on leaves eight octets behind at least, and stays in the buffer. --/
theorem step_advances (h : Dispatch.step env d = some d') :
    d.offset + 8 ≤ d'.offset ∧ d'.offset + d'.octets.length = d.offset + d.octets.length ∧ d'.octets ≠ [] := by
  obtain ⟨d₁, hheader, hadvance⟩ := Option.bind_eq_some_iff.mp h
  obtain ⟨hoctets, hoffset⟩ := header_octets hheader
  unfold Dispatch.advance at hadvance
  dsimp only at hadvance
  by_cases hlt : (if d₁.protocol = protocolFragment then 8
      else extensionLength d₁.octets fun i => env.beyond (d₁.offset + i)) < d₁.octets.length
  · rw [if_pos hlt] at hadvance
    cases hadvance
    have height : 8 ≤ if d₁.protocol = protocolFragment then 8
        else extensionLength d₁.octets fun i => env.beyond (d₁.offset + i) := by
      split
      · exact Nat.le_refl _
      · unfold extensionLength
        omega
    rw [hoctets, hoffset] at hlt height
    dsimp only
    rw [hoctets, hoffset]
    refine ⟨by omega, ?_, fun hnil => ?_⟩
    · rw [List.length_drop]
      omega
    · have := List.drop_eq_nil_iff.mp hnil
      omega
  · rw [if_neg hlt] at hadvance
    cases hadvance

/-- Every header is farther behind than the ones before it, and the loop comes to an end. --/
theorem process_ascending {fuel : Nat} (hfuel : d.octets.length < fuel) :
    (Dispatch.process env fuel d).2 = true ∧ (Dispatch.process env fuel d).1.Pairwise (· < ·) ∧
      ∀ i ∈ (Dispatch.process env fuel d).1, d.offset ≤ i ∧ i ≤ d.offset + d.octets.length := by
  induction fuel generalizing d with
  | zero => exact absurd hfuel (Nat.not_lt_zero _)
  | succ fuel ih =>
    rw [Dispatch.process]
    cases hstep : Dispatch.step env d with
    | none =>
      refine ⟨rfl, List.pairwise_singleton .., List.forall_mem_singleton.mpr ⟨Nat.le_refl _, Nat.le_add_right _ _⟩⟩
    | some d' =>
      obtain ⟨hle, hsum, -⟩ := step_advances hstep
      obtain ⟨hends, hpairwise, hbounds⟩ := @ih d' (by omega)
      refine ⟨hends, List.pairwise_cons.mpr ⟨fun i hi => ?_, hpairwise⟩,
        List.forall_mem_cons.mpr ⟨⟨?_, ?_⟩, fun i hi => ?_⟩⟩
      · have := hbounds i hi
        omega
      · exact Nat.le_refl _
      · exact Nat.le_add_right _ _
      · have := hbounds i hi
        exact ⟨by omega, by omega⟩

end dispatch

/-! ### All packets -/

/-- The walk over a header is as promised on exactly these headers, and the loop over the headers goes forward and ends
    on every packet. --/
theorem ipv6_options_iff (s : List UInt8) (beyond : Nat → UInt8) (env : DispatchEnvironment) (d : Dispatch) :
    (Sound s (processHopByHopOption s beyond) ↔ Walkable s) ∧
      (Dispatch.process env (d.octets.length + 1) d).2 = true ∧
        (Dispatch.process env (d.octets.length + 1) d).1.Pairwise (· < ·) :=
  ⟨processHopByHopOption_sound, (@process_ascending env d (d.octets.length + 1) (Nat.lt_succ_self _)).1,
    (@process_ascending env d (d.octets.length + 1) (Nat.lt_succ_self _)).2.1⟩

/-- A padding option that says it has ten octets, in a header of eight, is accepted; and of a padding option whose
    length would lie behind the header, the length is read there. --/
theorem overrun_accepted :
    (processHopByHopOption [58, 0, 1, 10, 0, 0, 0, 0] fun _ => 0).status = some .success ∧
      ¬ Options (optionArea [58, 0, 1, 10, 0, 0, 0, 0]) ∧
      8 ∈ (processHopByHopOption [58, 0, 0, 0, 0, 0, 0, 1] fun _ => 0).reads ∧
      ¬ Sound [58, 0, 1, 10, 0, 0, 0, 0] (processHopByHopOption [58, 0, 1, 10, 0, 0, 0, 0] fun _ => 0) := by
  have hno : ¬ Options (optionArea [58, 0, 1, 10, 0, 0, 0, 0]) := by
    have harea : optionArea [58, 0, 1, 10, 0, 0, 0, 0] = [1, 10, 0, 0, 0, 0] := by decide +kernel
    rw [harea, options_option (by decide)]
    rintro ⟨len, tail, heq, hle, -⟩
    cases heq
    revert hle
    decide
  refine ⟨by decide +kernel, hno, by decide +kernel, fun h => hno (h.exact (by decide +kernel)).2⟩

end Netxduo.Ip
