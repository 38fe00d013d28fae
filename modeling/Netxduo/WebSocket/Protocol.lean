import Netxduo.WebSocket.Client

/-! What a stream of WebSocket frames says, octet by octet, without regard to how it arrives. -/

namespace Netxduo.WebSocket

/-- What a stream brings about: an octet of a message with its opcode, a PONG, the end of the connection, or a frame that is
    refused. --/
inductive Event
  | data (opcode octet : UInt8)
  | pong (payload : List UInt8)
  | closed
  | refused
deriving DecidableEq, Repr

/-- The message of which a fragment was received, and the opcode of the last message. --/
structure Fragments where
  fragmented : Bool
  opcode : UInt8
deriving DecidableEq, Repr

/-- A data frame goes on with a message, or begins one. --/
def Fragments.next (f : Fragments) (last : Bool) (opcode : UInt8) : Option Fragments :=
  if opcode = opcodeContinuation then
    if f.fragmented = true then some ⟨!last, f.opcode⟩ else none
  else if opcode = opcodeText ∨ opcode = opcodeBinary then
    if f.fragmented = true then none else some ⟨!last, opcode⟩
  else none

/-! ### Headers -/

/-- What stands at the beginning of a stream. --/
inductive Scan
  | more
  | refused
  | frame (last : Bool) (opcode : UInt8) (key : Option (List UInt8)) (length : Nat) (rest : List UInt8)
deriving DecidableEq, Repr

/-- The length of a payload has 7, 16 or 64 bits. --/
def scanLength (code : Nat) (s : List UInt8) : Option (Nat × List UInt8) :=
  if code < 126 then some (code, s)
  else if code = 126 then
    match s with
    | upper :: lower :: rest => some (upper.toNat * 256 + lower.toNat, rest)
    | _ => none
  else if s.length < 8 then none
  else some ((s.take 8).foldl (fun n b => n * 256 + b.toNat) 0, s.drop 8)

def scanKey (masked : Bool) (s : List UInt8) : Option (Option (List UInt8) × List UInt8) :=
  if masked = true then
    if s.length < 4 then none else some (some (s.take 4), s.drop 4)
  else some (none, s)

/-- The bits that are reserved for extensions. --/
def reserved : UInt8 := 0x70

/-- The header of a frame. A control frame is one frame, with at most 125 octets. --/
def scan : List UInt8 → Scan
  | first :: second :: rest =>
    let last := first &&& fin == fin
    let opcode := first &&& opcodeMask
    if first &&& reserved ≠ 0 ∨ (isControl opcode && !last) = true then .refused
    else
      match scanLength (second &&& payloadLenMask).toNat rest with
      | none => .more
      | some (length, rest) =>
        match scanKey (second &&& mask != 0) rest with
        | none => .more
        | some (key, rest) =>
          if (isControl opcode && decide (controlPayloadMaximum < length)) = true then .refused
          else .frame last opcode key length rest
  | _ => .more

/-! ### Frames -/

/-- The octet of a payload at an index. --/
def unmaskOctet (key : Option (List UInt8)) (i : Nat) (b : UInt8) : UInt8 :=
  key.elim b fun key => b ^^^ key.getD (i % 4) 0

/-- The octets of a payload from an index on. --/
def unmask (key : Option (List UInt8)) : Nat → List UInt8 → List UInt8
  | _, [] => []
  | i, b :: rest => unmaskOctet key i b :: unmask key (i + 1) rest

/-- The frames of a stream, one after the other. --/
def frames : Nat → Fragments → List UInt8 → List Event
  | 0, _, _ => []
  | fuel + 1, f, s =>
    match scan s with
    | .more => []
    | .refused => [.refused]
    | .frame last opcode key length rest =>
      let payload := unmask key 0 (rest.take length)
      if isControl opcode = true then
        if rest.length < length then []
        else if opcode = opcodeClose then [.closed]
        else (if opcode = opcodePing then [.pong payload] else []) ++ frames fuel f (rest.drop length)
      else
        match f.next last opcode with
        | none => [.refused]
        | some f => payload.map (.data f.opcode) ++ frames fuel f (rest.drop length)

def parse (f : Fragments) (s : List UInt8) : List Event := frames s.length f s

section headers

variable {s rest : List UInt8} {last : Bool} {opcode : UInt8} {key : Option (List UInt8)} {length : Nat}

theorem scanLength_length {code : Nat} {r : Nat × List UInt8} (h : scanLength code s = some r) : r.2.length ≤ s.length := by
  unfold scanLength at h
  split_ifs at h
  · cases h
    exact Nat.le_refl _
  · rcases s with _ | ⟨upper, _ | ⟨lower, rest⟩⟩
    · cases h
    · cases h
    · cases h
      simp only [List.length_cons]
      omega
  · cases h
    rw [List.length_drop]
    omega

theorem scanKey_length {masked : Bool} {r : Option (List UInt8) × List UInt8} (h : scanKey masked s = some r) :
    r.2.length ≤ s.length := by
  unfold scanKey at h
  split_ifs at h
  · cases h
    rw [List.length_drop]
    omega
  · cases h
    exact Nat.le_refl _

/-- A header takes two octets at least. --/
theorem scan_length (h : scan s = .frame last opcode key length rest) : rest.length + 2 ≤ s.length := by
  rcases s with _ | ⟨first, _ | ⟨second, s⟩⟩
  · cases h
  · cases h
  · unfold scan at h
    dsimp only at h
    split at h
    · cases h
    · split at h
      · cases h
      · rename_i hlength
        split at h
        · cases h
        · rename_i hkey
          split at h
          · cases h
          · cases h
            have h1 := scanLength_length hlength
            have h2 := scanKey_length hkey
            dsimp only at h1 h2
            simp only [List.length_cons]
            omega

theorem frames_fuel {n k : Nat} {f : Fragments} (hn : s.length ≤ n) (hk : s.length ≤ k) : frames n f s = frames k f s := by
  induction n generalizing s k f with
  | zero =>
    cases List.length_eq_zero_iff.mp (Nat.le_zero.mp hn)
    cases k with
    | zero => rfl
    | succ k => rfl
  | succ n ih =>
    cases k with
    | zero =>
      cases List.length_eq_zero_iff.mp (Nat.le_zero.mp hk)
      rfl
    | succ k =>
      unfold frames
      cases hscan : scan s with
      | more => rfl
      | refused => rfl
      | frame last opcode key length rest =>
        have hlength := scan_length hscan
        have hrest : ∀ f, frames n f (rest.drop length) = frames k f (rest.drop length) := fun f =>
          ih (by rw [List.length_drop]; omega) (by rw [List.length_drop]; omega)
        simp only [hrest]

/-- One frame at a time. --/
theorem parse_frame {f : Fragments} (h : scan s = .frame last opcode key length rest) :
    parse f s =
      if isControl opcode = true then
        if rest.length < length then []
        else if opcode = opcodeClose then [.closed]
        else (if opcode = opcodePing then [.pong (unmask key 0 (rest.take length))] else []) ++ parse f (rest.drop length)
      else
        match f.next last opcode with
        | none => [.refused]
        | some f => (unmask key 0 (rest.take length)).map (.data f.opcode) ++ parse f (rest.drop length) := by
  have hlength := scan_length h
  obtain ⟨n, hn⟩ : ∃ n, s.length = n + 1 := ⟨s.length - 1, by omega⟩
  have hrest : ∀ f, frames n f (rest.drop length) = parse f (rest.drop length) := fun f =>
    frames_fuel (by rw [List.length_drop]; omega) (Nat.le_refl _)
  conv_lhs => unfold parse
  rw [hn, frames, h]
  simp only [hrest]

theorem parse_more {f : Fragments} (h : scan s = .more) : parse f s = [] := by
  unfold parse
  cases s with
  | nil => rfl
  | cons b s =>
    rw [List.length_cons, frames, h]

theorem parse_refused {f : Fragments} (h : scan s = .refused) : parse f s = [.refused] := by
  unfold parse
  cases s with
  | nil => cases h
  | cons b s =>
    rw [List.length_cons, frames, h]

end headers

section masks

variable {key : Option (List UInt8)}

theorem unmask_cons (i : Nat) (b : UInt8) (s : List UInt8) :
    unmask key i (b :: s) = unmaskOctet key i b :: unmask key (i + 1) s := rfl

theorem unmask_length (i : Nat) (s : List UInt8) : (unmask key i s).length = s.length := by
  induction s generalizing i with
  | nil => rfl
  | cons b s ih => rw [unmask_cons, List.length_cons, List.length_cons, ih]

theorem unmask_append (i : Nat) (s t : List UInt8) : unmask key i (s ++ t) = unmask key i s ++ unmask key (i + s.length) t := by
  induction s generalizing i with
  | nil => rfl
  | cons b s ih =>
    rw [List.cons_append, unmask_cons, unmask_cons, ih, List.cons_append, List.length_cons, Nat.add_assoc, Nat.add_comm 1]

theorem unmask_none (i : Nat) (s : List UInt8) : unmask none i s = s := by
  induction s generalizing i with
  | nil => rfl
  | cons b s ih =>
    rw [unmask_cons, ih]
    rfl

end masks

end Netxduo.WebSocket
